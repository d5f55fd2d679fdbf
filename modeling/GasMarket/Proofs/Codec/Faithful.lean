import GasMarket.Codec.Controller
import GasMarket.Proofs.Decimal.Canonical
import GasMarket.Proofs.Json.Value

namespace GasMarket

open Json

structure Codec.Faithful {α : Type} [Codec α] (a : α) : Prop where
  decode_encode : decode (encode a) = some a
  plain : (encode a).Plain

namespace Codec

variable {α : Type} [Codec α]

theorem Faithful.parse {a : α} (h : Faithful a) :
    (parse? (toText a)).bind decode = some a := by
  rw [toText, parse?_compact h.plain]
  exact h.decode_encode

theorem Faithful.required {a : α} (h : Faithful a) : required (some (encode a)) = some a :=
  h.decode_encode

theorem faithful_bool (b : Bool) : Faithful b := ⟨rfl, plain_bool b⟩

theorem faithful_string (s : String) : Faithful s := ⟨Escape.decode_encode s, plain_string_encode s⟩

theorem natural?_natural (n : Nat) : natural? (natural n) = some n := by
  have hall : (Text.Digits.decimal n).all Char.isDigit :=
    List.all_eq_true.2 fun _ hc => Text.Digits.isDigit_of_mem_decimal hc
  rw [natural, natural?, String.toList_ofList, Number.nat?,
    if_pos ⟨Text.Digits.decimal_ne_nil n, hall⟩, Text.Digits.ofDigitChars_decimal]

theorem faithful_word (n : UInt64) : Faithful n where
  decode_encode := by
    change (natural? (natural n.toNat)).bind _ = _
    rw [natural?_natural, Option.bind_some, if_pos n.toNat_lt, UInt64.ofNat_toNat]
  plain := plain_decimal n.toNat

theorem faithful_decimal {d : Decimal} (h : -Decimal.bound < d.units) : Faithful d where
  decode_encode := by
    change (decode (encode d.toText)).bind _ = _
    rw [(faithful_string d.toText).decode_encode, Option.bind_some, Decimal.parse_toText h]
    rfl
  plain := plain_string_encode d.toText

theorem lt_of_decode_decimal {v : Json} {d : Decimal} (h : decode v = some d) :
    -Decimal.bound < d.units := by
  obtain ⟨text, -, htext⟩ := Option.bind_eq_some_iff.1 h
  exact Decimal.lt_units_of_parse (toOption_eq_some_iff.1 htext)

theorem lt_of_required {field : Option Json} {d : Decimal} (h : Json.required field = some d) :
    -Decimal.bound < d.units := by
  obtain ⟨v, -, hv⟩ := Option.bind_eq_some_iff.1 h
  exact lt_of_decode_decimal hv

theorem decodeAll_map_encode {as : List α} (h : ∀ a ∈ as, Faithful a) (before : List α) :
    decodeAll before (as.map encode) = some (before.reverse ++ as) := by
  induction as generalizing before with
  | nil => simp [decodeAll]
  | cons a rest ih =>
    obtain ⟨ha, hrest⟩ := List.forall_mem_cons.1 h
    rw [List.map_cons, decodeAll, ha.decode_encode]
    change decodeAll (a :: before) _ = _
    rw [ih hrest, List.reverse_cons, List.append_assoc]
    rfl

theorem faithful_list {as : List α} (h : ∀ a ∈ as, Faithful a) : Faithful as where
  decode_encode := decodeAll_map_encode h []
  plain := plain_array (List.forall_mem_map.2 fun a ha => (h a ha).plain)

end Codec

namespace Json

def IsClean (names : List String) : Prop := names.Nodup ∧ ∀ name ∈ names, Escape.encode name = name

instance (names : List String) : Decidable (IsClean names) := inferInstanceAs (Decidable (_ ∧ _))

theorem named?_of {members : List (String × Json)}
    (h : ∀ name ∈ members.map Prod.fst, Escape.encode name = name) (before : List (String × Json)) :
    named? before members = some (before.reverse ++ members) := by
  induction members generalizing before with
  | nil => simp [named?]
  | cons member rest ih =>
    obtain ⟨name, v⟩ := member
    obtain ⟨hname, hrest⟩ := List.forall_mem_cons.1 h
    have hdecode : Escape.decode name = some name := by
      simpa only [hname] using Escape.decode_encode name
    rw [named?, hdecode]
    change named? ((name, v) :: before) rest = _
    rw [ih hrest, List.reverse_cons, List.append_assoc]
    rfl

theorem filter_eq_singleton {members : List (String × Json)} (hnames : (members.map Prod.fst).Nodup)
    {member : String × Json} (h : member ∈ members) :
    members.filter (·.1 = member.1) = [member] := by
  induction members with
  | nil => cases h
  | cons first rest ih =>
    obtain ⟨hfirst, hrest⟩ := List.nodup_cons.1 hnames
    cases List.mem_cons.1 h with
    | inl hmember =>
      subst hmember
      have hnone : rest.filter (·.1 = member.1) = [] := by
        apply List.filter_eq_nil_iff.2
        intro other hother hname
        exact hfirst (of_decide_eq_true hname ▸ List.mem_map_of_mem hother)
      rw [List.filter_cons_of_pos (by simp), hnone]
    | inr hmember =>
      have hne : ¬ first.1 = member.1 := fun hname => hfirst (hname ▸ List.mem_map_of_mem hmember)
      rw [List.filter_cons_of_neg (by simpa using hne), ih hrest hmember]

theorem fields?_of_mem {members fields : List (String × Json)}
    (hnames : IsClean (members.map Prod.fst))
    (h : ∀ field ∈ fields, field ∈ members) : fields? (fields.map Prod.fst) (.object members) =
      some (fields.map fun field => some field.2) := by
  rw [fields?, named?_of hnames.2]
  change (fields.map Prod.fst).mapM (atMostOne members) = _
  induction fields with
  | nil => rfl
  | cons field rest ih =>
    obtain ⟨hfield, hrest⟩ := List.forall_mem_cons.1 h
    have hone : atMostOne members field.1 = some (some field.2) := by
      rw [atMostOne, filter_eq_singleton hnames.1 hfield]
    rw [List.map_cons, List.mapM_cons, hone, ih hrest]
    rfl

theorem plain_record {members : List (String × Json)} (hnames : IsClean (members.map Prod.fst))
    (h : ∀ member ∈ members, member.2.Plain) : (object members).Plain :=
  plain_object (fun member hmember =>
    ⟨member.1, (hnames.2 member.1 (List.mem_map_of_mem hmember)).symm⟩) h

end Json

theorem Codec.faithful_record {α : Type} [Codec α] {a : α} {names : List String}
    {members : List (String × Json)} {build : List (Option Json) → Option α}
    (hencode : encode a = .object members)
    (hdecode : ∀ v : Json, decode v = (v.fields? names).bind build)
    (hmembers : members.map Prod.fst = names) (hnames : IsClean names)
    (hbuild : build (members.map fun member => some member.2) = some a)
    (hplain : ∀ member ∈ members, member.2.Plain) : Faithful a where
  decode_encode := by
    subst hmembers
    rw [hencode, hdecode, fields?_of_mem hnames fun _ h => h]
    exact hbuild
  plain := by
    rw [hencode]
    exact plain_record (hmembers ▸ hnames) hplain

end GasMarket
