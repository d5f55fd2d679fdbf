import GasMarket.Json.Reader
import GasMarket.Proofs.Json.Token

namespace GasMarket.Json

open Token

@[elab_as_elim] theorem induction {motive : Json → Prop} (null : motive .null)
    (bool : ∀ value, motive (.bool value)) (number : ∀ literal, motive (.number literal))
    (string : ∀ body, motive (.string body))
    (array : ∀ elements, (∀ v ∈ elements, motive v) → motive (.array elements))
    (object : ∀ members, (∀ member ∈ members, motive member.2) → motive (.object members)) :
    ∀ v, motive v
  | .null => null
  | .bool value => bool value
  | .number literal => number literal
  | .string body => string body
  | .array elements =>
    array elements fun v _ => induction null bool number string array object v
  | .object members =>
    object members fun member _ => induction null bool number string array object member.2
termination_by v => sizeOf v
decreasing_by
  · simp only [Json.array.sizeOf_spec]
    have := List.sizeOf_lt_of_mem ‹v ∈ elements›
    omega
  · simp only [Json.object.sizeOf_spec]
    have := List.sizeOf_lt_of_mem ‹member ∈ members›
    have : sizeOf member.2 < sizeOf member := by
      cases member
      simp only [Prod.mk.sizeOf_spec]
      omega
    omega

def elementTokens (elements : List Json) : List Token :=
  elements.flatMap fun v => .comma :: v.tokens

def memberTokens (members : List (String × Json)) : List Token :=
  members.flatMap fun member => .comma :: .string member.1 :: .colon :: member.2.tokens

@[simp] theorem elementTokens_cons (v : Json) (rest : List Json) :
    elementTokens (v :: rest) = .comma :: (v.tokens ++ elementTokens rest) := rfl

@[simp] theorem memberTokens_cons (name : String) (v : Json) (rest : List (String × Json)) :
    memberTokens ((name, v) :: rest) =
      .comma :: .string name :: .colon :: (v.tokens ++ memberTokens rest) := rfl

section Push

theorem pushElements_of {elements : List Json}
    (h : ∀ v ∈ elements, ∀ before, v.pushTokens before = v.tokens.reverse ++ before)
    (before : List Token) :
    pushElements elements before = (elementTokens elements).reverse ++ before := by
  induction elements generalizing before with
  | nil => rfl
  | cons v rest ih =>
    obtain ⟨hv, hrest⟩ := List.forall_mem_cons.1 h
    rw [pushElements, hv, ih hrest]
    simp

theorem pushMembers_of {members : List (String × Json)}
    (h : ∀ member ∈ members, ∀ before,
      member.2.pushTokens before = member.2.tokens.reverse ++ before)
    (before : List Token) :
    pushMembers members before = (memberTokens members).reverse ++ before := by
  induction members generalizing before with
  | nil => rfl
  | cons member rest ih =>
    obtain ⟨name, v⟩ := member
    obtain ⟨hv, hrest⟩ := List.forall_mem_cons.1 h
    rw [pushMembers, hv, ih hrest]
    simp

theorem pushTokens_eq (v : Json) : ∀ before, v.pushTokens before = v.tokens.reverse ++ before := by
  induction v using induction with
  | null | bool _ | number _ | string _ => exact fun _ => rfl
  | array elements ih =>
    intro before
    cases elements with
    | nil => rfl
    | cons v rest =>
      obtain ⟨hv, hrest⟩ := List.forall_mem_cons.1 ih
      simp only [tokens, pushTokens, pushElements_of hrest, List.reverse_reverse]
      rw [hv, hv [.openArray]]
      simp
  | object members ih =>
    intro before
    cases members with
    | nil => rfl
    | cons member rest =>
      obtain ⟨name, v⟩ := member
      obtain ⟨hv, hrest⟩ := List.forall_mem_cons.1 ih
      simp only [tokens, pushTokens, pushMembers_of hrest, List.reverse_reverse]
      rw [hv, hv [.colon, .string name, .openObject]]
      simp

end Push

section Tokens

@[simp] theorem tokens_array_nil : (array []).tokens = [.openArray, .closeArray] := rfl

@[simp] theorem tokens_array_cons (v : Json) (rest : List Json) :
    (array (v :: rest)).tokens =
      .openArray :: (v.tokens ++ (elementTokens rest ++ [.closeArray])) := by
  rw [tokens, pushTokens, pushElements_of fun v _ => v.pushTokens_eq, pushTokens_eq]
  simp

@[simp] theorem tokens_object_nil : (object []).tokens = [.openObject, .closeObject] := rfl

@[simp] theorem tokens_object_cons (name : String) (v : Json) (rest : List (String × Json)) :
    (object ((name, v) :: rest)).tokens =
      .openObject :: .string name :: .colon ::
        (v.tokens ++ (memberTokens rest ++ [.closeObject])) := by
  rw [tokens, pushTokens, pushMembers_of fun member _ => member.2.pushTokens_eq, pushTokens_eq]
  simp

theorem exists_tokens_cons (v : Json) :
    ∃ first rest, v.tokens = first :: rest ∧ first.closes = false := by
  cases v with
  | null | bool _ | number _ | string _ => exact ⟨_, _, rfl, rfl⟩
  | array elements =>
    cases elements with
    | nil => exact ⟨_, _, rfl, rfl⟩
    | cons v rest => exact ⟨_, _, tokens_array_cons v rest, rfl⟩
  | object members =>
    cases members with
    | nil => exact ⟨_, _, rfl, rfl⟩
    | cons member rest => exact ⟨_, _, tokens_object_cons member.1 member.2 rest, rfl⟩

end Tokens

section Separated

theorem startsClosed_elementTokens (elements : List Json) (rest : List Token) :
    StartsClosed (elementTokens elements ++ .closeArray :: rest) := by
  cases elements with
  | nil => rfl
  | cons v elements => rfl

theorem startsClosed_memberTokens (members : List (String × Json)) (rest : List Token) :
    StartsClosed (memberTokens members ++ .closeObject :: rest) := by
  cases members with
  | nil => rfl
  | cons member members => rfl

theorem separated_elements {elements : List Json}
    (h : ∀ v ∈ elements, ∀ rest, StartsClosed rest → Separated rest → Separated (v.tokens ++ rest))
    {rest : List Token} (hrest : Separated rest) :
    Separated (elementTokens elements ++ .closeArray :: rest) := by
  induction elements with
  | nil => exact ⟨nofun, hrest⟩
  | cons v elements ih =>
    obtain ⟨hv, helements⟩ := List.forall_mem_cons.1 h
    rw [elementTokens_cons, List.cons_append, List.append_assoc]
    exact ⟨nofun, hv _ (startsClosed_elementTokens elements rest) (ih helements)⟩

theorem separated_members {members : List (String × Json)}
    (h : ∀ member ∈ members, ∀ rest, StartsClosed rest → Separated rest →
      Separated (member.2.tokens ++ rest))
    {rest : List Token} (hrest : Separated rest) :
    Separated (memberTokens members ++ .closeObject :: rest) := by
  induction members with
  | nil => exact ⟨nofun, hrest⟩
  | cons member members ih =>
    obtain ⟨name, v⟩ := member
    obtain ⟨hv, hmembers⟩ := List.forall_mem_cons.1 h
    rw [memberTokens_cons, List.cons_append, List.cons_append, List.cons_append, List.append_assoc]
    exact ⟨nofun, nofun, nofun, hv _ (startsClosed_memberTokens members rest) (ih hmembers)⟩

theorem separated_append (v : Json) : ∀ rest, StartsClosed rest → Separated rest →
    Separated (v.tokens ++ rest) := by
  induction v using induction with
  | null | bool _ | number _ => exact fun rest hclosed hrest => ⟨fun _ => hclosed, hrest⟩
  | string body => exact fun rest _ hrest => ⟨nofun, hrest⟩
  | array elements ih =>
    intro rest _ hrest
    cases elements with
    | nil => exact ⟨nofun, nofun, hrest⟩
    | cons v elements =>
      obtain ⟨hv, helements⟩ := List.forall_mem_cons.1 ih
      have hmore := separated_elements helements hrest
      simp only [tokens_array_cons, List.cons_append, List.append_assoc, List.nil_append]
      exact ⟨nofun, hv _ (startsClosed_elementTokens elements rest) hmore⟩
  | object members ih =>
    intro rest _ hrest
    cases members with
    | nil => exact ⟨nofun, nofun, hrest⟩
    | cons member members =>
      obtain ⟨name, v⟩ := member
      obtain ⟨hv, hmembers⟩ := List.forall_mem_cons.1 ih
      have hmore := separated_members hmembers hrest
      simp only [tokens_object_cons, List.cons_append, List.append_assoc, List.nil_append]
      exact ⟨nofun, nofun, nofun, hv _ (startsClosed_memberTokens members rest) hmore⟩

theorem separated_tokens (v : Json) : Separated v.tokens := by
  simpa using v.separated_append [] trivial trivial

end Separated

namespace Reader

theorem run_cons {r next : Reader} {token : Token} (h : r.step token = some next)
    (rest : List Token) : r.run (token :: rest) = next.run rest := by
  rw [run, h]

theorem run_elements {elements : List Json}
    (h : ∀ v ∈ elements, ∀ outer rest,
      run (.value outer) (v.tokens ++ rest) = run (.complete outer v) rest)
    (outer : List Frame) (before : List Json) (v : Json) (rest : List Token) :
    run (.complete (.array before :: outer) v) (elementTokens elements ++ .closeArray :: rest) =
      run (.complete outer (.array (before.reverse ++ v :: elements))) rest := by
  induction elements generalizing before v with
  | nil =>
    rw [← List.reverse_cons]
    exact run_cons rfl rest
  | cons w elements ih =>
    obtain ⟨hw, helements⟩ := List.forall_mem_cons.1 h
    rw [elementTokens_cons, List.cons_append, run_cons rfl, List.append_assoc, hw, ih helements,
      List.reverse_cons, List.append_assoc]
    rfl

theorem run_members {members : List (String × Json)}
    (h : ∀ member ∈ members, ∀ outer rest,
      run (.value outer) (member.2.tokens ++ rest) = run (.complete outer member.2) rest)
    (outer : List Frame) (before : List (String × Json)) (name : String) (v : Json)
    (rest : List Token) :
    run (.complete (.object before name :: outer) v)
      (memberTokens members ++ .closeObject :: rest) =
      run (.complete outer (.object (before.reverse ++ (name, v) :: members))) rest := by
  induction members generalizing before name v with
  | nil =>
    rw [← List.reverse_cons]
    exact run_cons rfl rest
  | cons member members ih =>
    obtain ⟨next, w⟩ := member
    obtain ⟨hw, hmembers⟩ := List.forall_mem_cons.1 h
    rw [memberTokens_cons, List.cons_append, run_cons rfl, List.cons_append, run_cons rfl,
      List.cons_append, run_cons rfl, List.append_assoc, hw, ih hmembers, List.reverse_cons,
      List.append_assoc]
    rfl

theorem run_elementOrClose (v : Json) (outer : List Frame) (rest : List Token) :
    run (.elementOrClose outer) (v.tokens ++ rest) =
      run (.value (.array [] :: outer)) (v.tokens ++ rest) := by
  obtain ⟨first, more, htokens, hfirst⟩ := v.exists_tokens_cons
  rw [htokens, List.cons_append, run, run]
  cases first with
  | closeArray => cases hfirst
  | _ => rfl

theorem run_tokens (v : Json) : ∀ outer rest,
    run (.value outer) (v.tokens ++ rest) = run (.complete outer v) rest := by
  induction v using induction with
  | null | bool _ | number _ | string _ => exact fun _ _ => rfl
  | array elements ih =>
    intro outer rest
    cases elements with
    | nil => rfl
    | cons v elements =>
      obtain ⟨hv, helements⟩ := List.forall_mem_cons.1 ih
      simp only [tokens_array_cons, List.cons_append, List.append_assoc, List.nil_append]
      rw [run_cons rfl, run_elementOrClose, hv, run_elements helements]
      rfl
  | object members ih =>
    intro outer rest
    cases members with
    | nil => rfl
    | cons member members =>
      obtain ⟨name, v⟩ := member
      obtain ⟨hv, hmembers⟩ := List.forall_mem_cons.1 ih
      simp only [tokens_object_cons, List.cons_append, List.append_assoc, List.nil_append]
      rw [run_cons rfl, run_cons rfl, run_cons rfl, hv, run_members hmembers]
      rfl

end Reader

@[simp] theorem ofTokens?_tokens (v : Json) : ofTokens? v.tokens = some v := by
  have h := Reader.run_tokens v [] []
  rw [List.append_nil] at h
  rw [ofTokens?, h]
  rfl

def Plain (v : Json) : Prop := ∀ token ∈ v.tokens, token.Plain

theorem spaced_compact (v : Json) : Spaced v.tokens v.compact.toList := by
  have hgo (tokens : List Token) (text : String) : ∃ more,
      (tokens.foldl (fun text token => text ++ token.text) text).toList = text.toList ++ more ∧
        Spaced tokens more := by
    induction tokens generalizing text with
    | nil => exact ⟨[], by simp, .nil⟩
    | cons token rest ih =>
      obtain ⟨more, htext, hmore⟩ := ih (text ++ token.text)
      refine ⟨token.text.toList ++ more, ?_, hmore.cons token (List.forall_mem_nil _)⟩
      rw [List.foldl_cons, htext, String.toList_append, List.append_assoc]
  obtain ⟨more, htext, hmore⟩ := hgo v.tokens ""
  rw [compact, htext]
  exact hmore

section Pretty

theorem isBlank_of_mem_gap {depth : Nat} {before token : Token} {c : Char}
    (h : c ∈ (gap depth before token).toList) : isBlank c := by
  have hbreak (h : c ∈ (lineBreak depth).toList) : isBlank c := by
    rw [lineBreak, String.toList_ofList] at h
    obtain rfl | h := List.mem_cons.1 h
    · rfl
    · rw [List.eq_of_mem_replicate h]
      rfl
  unfold gap at h
  split at h
  · rw [List.mem_singleton.1 h]
    rfl
  · split at h
    · split at h
      · cases h
      · exact hbreak h
    · split at h
      · exact hbreak h
      · cases h

theorem spaced_prettyFrom (tokens : List Token) (depth : Nat) (before : Token) (text : String) :
    ∃ more, (prettyFrom depth before text tokens).toList = text.toList ++ more ∧
      Spaced tokens more := by
  induction tokens generalizing depth before text with
  | nil => exact ⟨[], by simp [prettyFrom], .nil⟩
  | cons token rest ih =>
    rw [prettyFrom]
    generalize (if token.closes then depth - 1 else depth) = depth
    obtain ⟨more, htext, hmore⟩ :=
      ih (if token.opens then depth + 1 else depth) token
        (text ++ gap depth before token ++ token.text)
    refine ⟨(gap depth before token).toList ++ (token.text.toList ++ more), ?_,
      hmore.cons token fun _ => isBlank_of_mem_gap⟩
    rw [htext, String.toList_append, String.toList_append, List.append_assoc, List.append_assoc]

theorem spaced_pretty (v : Json) : Spaced v.tokens v.pretty.toList := by
  unfold pretty
  cases v.tokens with
  | nil => exact .nil
  | cons token rest =>
    obtain ⟨more, htext, hmore⟩ := spaced_prettyFrom rest _ token token.text
    exact htext ▸ hmore.cons token (List.forall_mem_nil _)

end Pretty

theorem parse?_of_spaced {v : Json} {text : String} (h : v.Plain)
    (htext : Spaced v.tokens text.toList) : parse? text = some v := by
  rw [parse?, htext.ofChars? h v.separated_tokens]
  exact v.ofTokens?_tokens

theorem parse?_compact {v : Json} (h : v.Plain) : parse? v.compact = some v :=
  parse?_of_spaced h v.spaced_compact

theorem parse?_pretty {v : Json} (h : v.Plain) : parse? v.pretty = some v :=
  parse?_of_spaced h v.spaced_pretty

section Plain

theorem plain_of_tokens {v : Json} {token : Token} (h : v.tokens = [token]) (htoken : token.Plain) :
    v.Plain := by
  rw [Plain, h]
  exact fun _ hmem => List.mem_singleton.1 hmem ▸ htoken

@[simp] theorem plain_bool (value : Bool) : (bool value).Plain := plain_of_tokens rfl trivial

@[simp] theorem plain_string_encode (text : String) : (string (Escape.encode text)).Plain :=
  plain_of_tokens rfl ⟨text, rfl⟩

@[simp] theorem plain_decimal (n : Nat) :
    (number (String.ofList (Text.Digits.decimal n))).Plain :=
  plain_of_tokens rfl ⟨n, rfl⟩

theorem forall_tokens_array {P : Token → Prop} {elements : List Json} (hopen : P .openArray)
    (hclose : P .closeArray) (hcomma : P .comma) (h : ∀ v ∈ elements, ∀ token ∈ v.tokens, P token) :
    ∀ token ∈ (array elements).tokens, P token := by
  cases elements with
  | nil =>
    rw [tokens_array_nil, List.forall_mem_cons, List.forall_mem_singleton]
    exact ⟨hopen, hclose⟩
  | cons v rest =>
    obtain ⟨hv, hrest⟩ := List.forall_mem_cons.1 h
    have hmore : ∀ token ∈ elementTokens rest, P token := by
      intro token htoken
      obtain ⟨w, hw, htoken⟩ := List.mem_flatMap.1 htoken
      obtain rfl | htoken := List.mem_cons.1 htoken
      · exact hcomma
      · exact hrest w hw token htoken
    simp only [tokens_array_cons, List.forall_mem_cons, List.forall_mem_append]
    exact ⟨hopen, hv, hmore, hclose, nofun⟩

theorem forall_tokens_object {P : Token → Prop} {members : List (String × Json)}
    (hopen : P .openObject) (hclose : P .closeObject) (hcomma : P .comma) (hcolon : P .colon)
    (hnames : ∀ member ∈ members, P (.string member.1))
    (h : ∀ member ∈ members, ∀ token ∈ member.2.tokens, P token) :
    ∀ token ∈ (object members).tokens, P token := by
  cases members with
  | nil =>
    rw [tokens_object_nil, List.forall_mem_cons, List.forall_mem_singleton]
    exact ⟨hopen, hclose⟩
  | cons member rest =>
    obtain ⟨name, v⟩ := member
    obtain ⟨hname, hnames⟩ := List.forall_mem_cons.1 hnames
    obtain ⟨hv, hrest⟩ := List.forall_mem_cons.1 h
    have hmore : ∀ token ∈ memberTokens rest, P token := by
      intro token htoken
      obtain ⟨member, hmember, htoken⟩ := List.mem_flatMap.1 htoken
      simp only [List.mem_cons] at htoken
      obtain rfl | rfl | rfl | htoken := htoken
      · exact hcomma
      · exact hnames member hmember
      · exact hcolon
      · exact hrest member hmember token htoken
    simp only [tokens_object_cons, List.forall_mem_cons, List.forall_mem_append]
    exact ⟨hopen, hname, hcolon, hv, hmore, hclose, nofun⟩

theorem plain_array {elements : List Json} (h : ∀ v ∈ elements, v.Plain) : (array elements).Plain :=
  forall_tokens_array trivial trivial trivial h

theorem plain_object {members : List (String × Json)}
    (hnames : ∀ member ∈ members, (Token.string member.1).Plain)
    (h : ∀ member ∈ members, member.2.Plain) : (object members).Plain :=
  forall_tokens_object trivial trivial trivial trivial hnames h

end Plain

end GasMarket.Json
