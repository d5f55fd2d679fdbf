import GasMarket.Codec.Event
import GasMarket.Proofs.Codec.Money
import GasMarket.Proofs.Json.Number

namespace GasMarket

open Codec Json

namespace Event

def decimals : Event → List Decimal
  | .feeMarketUpdate baseFee learningRate _ => [baseFee, learningRate]
  | _ => []

section Meaningful

def Meaningful (v : Json) : Prop := ∀ token ∈ v.tokens, isMeaningful token

theorem isMeaningful_encode (text : String) : isMeaningful (.string (Escape.encode text)) := by
  change (Escape.decode (Escape.encode text)).isSome = true
  rw [Escape.decode_encode]
  rfl

theorem meaningful_string (text : String) : Meaningful (.string (Escape.encode text)) :=
  List.forall_mem_singleton.2 (isMeaningful_encode text)

theorem isMeaningful_decimal (n : UInt64) :
    isMeaningful (.number (String.ofList (Text.Digits.decimal n.toNat))) := by
  change Number.isFinite (String.ofList (Text.Digits.decimal n.toNat)).toList = true
  rw [String.toList_ofList]
  exact Number.isFinite_decimal n.toNat_lt

theorem meaningful_word (n : UInt64) : Meaningful (Codec.encode n) :=
  List.forall_mem_singleton.2 (isMeaningful_decimal n)

theorem meaningful_record {names : List String} {members : List (String × Json)}
    (hmembers : members.map Prod.fst = names) (hnames : IsClean names)
    (h : ∀ member ∈ members, Meaningful member.2) : Meaningful (.object members) := by
  subst hmembers
  refine forall_tokens_object rfl rfl rfl rfl ?_ h
  intro member hmember
  rw [← hnames.2 member.1 (List.mem_map_of_mem hmember)]
  exact isMeaningful_encode member.1

theorem meaningful_coin (c : Coin) : Meaningful (Codec.encode c) := by
  refine meaningful_record rfl (by decide : IsClean ["denom", "amount"]) ?_
  simp only [List.forall_mem_cons]
  exact ⟨meaningful_string _, meaningful_string _, List.forall_mem_nil _⟩

theorem meaningful_encode (e : Event) : Meaningful e.encode := by
  cases e with
  | txFee payer required tip =>
    refine meaningful_record rfl (by decide : IsClean ["type", "payer", "required", "tip"]) ?_
    simp only [List.forall_mem_cons]
    exact ⟨meaningful_string _, meaningful_string _, meaningful_coin _, meaningful_coin _,
      List.forall_mem_nil _⟩
  | txRefund payee refund =>
    refine meaningful_record rfl (by decide : IsClean ["type", "payee", "refund"]) ?_
    simp only [List.forall_mem_cons]
    exact ⟨meaningful_string _, meaningful_string _, meaningful_coin _, List.forall_mem_nil _⟩
  | feeMarketUpdate baseFee learningRate height =>
    refine meaningful_record rfl
      (by decide : IsClean ["type", "base_fee", "learning_rate", "height"]) ?_
    simp only [List.forall_mem_cons]
    exact ⟨meaningful_string _, meaningful_string _, meaningful_string _, meaningful_word _,
      List.forall_mem_nil _⟩

theorem isShallow_encode (e : Event) : isShallow 0 e.encode.tokens := by
  cases e with
  | txFee payer required tip => rfl
  | txRefund payee refund => rfl
  | feeMarketUpdate baseFee learningRate height => rfl

end Meaningful

section Tagged

variable {names : List String} {fields : List (String × Json)} {name : String}

theorem decode_of_tag {members : List (String × Json)}
    (h : fields? ["type"] (.object members) = some [some (Codec.encode name)]) :
    decode (.object members) = ofFields? (.object members) name := by
  rw [decode, h, Option.bind_eq_bind, Option.bind_some]
  simp only [(faithful_string name).required]
  rfl

theorem faithful_tagged {e : Event} {build : List (Option Json) → Option Event}
    (hencode : e.encode = .object (("type", Codec.encode name) :: fields))
    (hdecode : ∀ v : Json, ofFields? v name = (v.fields? names).bind build)
    (hfields : fields.map Prod.fst = names) (hnames : IsClean ("type" :: names))
    (hbuild : build (fields.map fun field => some field.2) = some e)
    (hplain : ∀ field ∈ fields, field.2.Plain) : Faithful e where
  decode_encode := by
    subst hfields
    have hmembers : IsClean ((("type", Codec.encode name) :: fields).map Prod.fst) := hnames
    have htag : fields? ["type"] (.object (("type", Codec.encode name) :: fields)) =
        some [some (Codec.encode name)] :=
      fields?_of_mem hmembers (List.forall_mem_singleton.2 List.mem_cons_self)
    have hrest :=
      fields?_of_mem hmembers fun _ h => List.mem_cons_of_mem ("type", Codec.encode name) h
    change decode e.encode = some e
    rw [hencode, decode_of_tag htag, hdecode, hrest]
    exact hbuild
  plain := by
    change e.encode.Plain
    rw [hencode]
    subst hfields
    exact plain_record hnames (List.forall_mem_cons.2 ⟨(faithful_string name).plain, hplain⟩)

theorem faithful {e : Event} (h : ∀ d ∈ e.decimals, -Decimal.bound < d.units) : Faithful e := by
  cases e with
  | txFee payer charged tip =>
    refine faithful_tagged rfl (fun _ => rfl) rfl (by decide) ?_ ?_
    · simp only [List.map_cons, List.map_nil, (faithful_address _).required,
        (Coin.faithful _).required]
      rfl
    · simp only [List.forall_mem_cons, (faithful_address _).plain, (Coin.faithful _).plain,
        true_and]
      exact List.forall_mem_nil _
  | txRefund payee refund =>
    refine faithful_tagged rfl (fun _ => rfl) rfl (by decide) ?_ ?_
    · simp only [List.map_cons, List.map_nil, (faithful_address _).required,
        (Coin.faithful _).required]
      rfl
    · simp only [List.forall_mem_cons, (faithful_address _).plain, (Coin.faithful _).plain,
        true_and]
      exact List.forall_mem_nil _
  | feeMarketUpdate baseFee learningRate height =>
    simp only [decimals, List.forall_mem_cons] at h
    obtain ⟨hbaseFee, hrate, -⟩ := h
    refine faithful_tagged rfl (fun _ => rfl) rfl (by decide) ?_ ?_
    · simp only [List.map_cons, List.map_nil, (faithful_decimal hbaseFee).required,
        (faithful_decimal hrate).required, (faithful_word _).required]
      rfl
    · simp only [List.forall_mem_cons, (faithful_decimal hbaseFee).plain,
        (faithful_decimal hrate).plain, (faithful_word _).plain, true_and]
      exact List.forall_mem_nil _

end Tagged

theorem ofText_toText {e : Event} (h : ∀ d ∈ e.decimals, -Decimal.bound < d.units) :
    Codec.ofText (toText e) = some e := by
  have hfaithful := faithful h
  have htokens : Token.ofChars? (toText e).toList = some e.encode.tokens :=
    e.encode.spaced_compact.ofChars? hfaithful.plain e.encode.separated_tokens
  have hsound : e.encode.tokens.all isMeaningful && isShallow 0 e.encode.tokens := by
    rw [isShallow_encode, Bool.and_true, List.all_eq_true]
    exact meaningful_encode e
  change ofText (toText e) = some e
  rw [ofText, htokens]
  change (if e.encode.tokens.all isMeaningful && isShallow 0 e.encode.tokens then _ else _) = _
  rw [if_pos hsound, ofTokens?_tokens]
  exact hfaithful.decode_encode

theorem lt_of_ofFields? {fields : Json} {name : String} {e : Event}
    (h : ofFields? fields name = some e) : ∀ d ∈ e.decimals, -Decimal.bound < d.units := by
  unfold ofFields? at h
  split at h
  · obtain ⟨values, -, h⟩ := Option.bind_eq_some_iff.1 h
    split at h
    · obtain ⟨_, -, h⟩ := Option.bind_eq_some_iff.1 h
      obtain ⟨_, -, h⟩ := Option.bind_eq_some_iff.1 h
      obtain ⟨_, -, h⟩ := Option.bind_eq_some_iff.1 h
      cases h
      exact List.forall_mem_nil _
    · cases h
  · obtain ⟨values, -, h⟩ := Option.bind_eq_some_iff.1 h
    split at h
    · obtain ⟨_, -, h⟩ := Option.bind_eq_some_iff.1 h
      obtain ⟨_, -, h⟩ := Option.bind_eq_some_iff.1 h
      cases h
      exact List.forall_mem_nil _
    · cases h
  · obtain ⟨values, -, h⟩ := Option.bind_eq_some_iff.1 h
    split at h
    · obtain ⟨_, hbaseFee, h⟩ := Option.bind_eq_some_iff.1 h
      obtain ⟨_, hrate, h⟩ := Option.bind_eq_some_iff.1 h
      obtain ⟨_, -, h⟩ := Option.bind_eq_some_iff.1 h
      cases h
      simp only [decimals, List.forall_mem_cons]
      exact ⟨lt_of_required hbaseFee, lt_of_required hrate, List.forall_mem_nil _⟩
    · cases h
  · cases h

theorem lt_of_decode {v : Json} {e : Event} (h : decode v = some e) :
    ∀ d ∈ e.decimals, -Decimal.bound < d.units := by
  unfold decode at h
  split at h
  · obtain ⟨tagged, -, h⟩ := Option.bind_eq_some_iff.1 h
    split at h
    · obtain ⟨name, -, h⟩ := Option.bind_eq_some_iff.1 h
      exact lt_of_ofFields? h
    · cases h
  · obtain ⟨name, -, h⟩ := Option.bind_eq_some_iff.1 h
    exact lt_of_ofFields? h
  · cases h

theorem exists_decode_of_ofText {text : String} {e : Event} (h : ofText text = some e) :
    ∃ v, decode v = some e := by
  obtain ⟨tokens, -, h⟩ := Option.bind_eq_some_iff.1 h
  split at h
  · obtain ⟨v, -, h⟩ := Option.bind_eq_some_iff.1 h
    exact ⟨v, h⟩
  · cases h

end Event

end GasMarket
