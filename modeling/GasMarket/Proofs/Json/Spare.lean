import GasMarket.Json.Spare
import GasMarket.Proofs.Json.Value

namespace GasMarket.Json

namespace Token

def isNumber : Token → Bool
  | .number _ => true
  | _ => false

section Suffix

variable {tokens : List Token} {m m' : Machine} {c : Char}

theorem suffix_of_start (h : start tokens c = some m) : tokens <:+ m.tokens := by
  unfold start at h
  -- a character is refused, begins a token that is still unread, or is a token of its own
  repeat' split at h
  all_goals first
    | cases h; exact List.suffix_refl _
    | cases h; exact List.suffix_cons _ _
    | cases h

theorem suffix_of_step (h : step m c = some m') : m.tokens <:+ m'.tokens := by
  have hrestart {token : Token} (h : start (token :: m.tokens) c = some m') :
      m.tokens <:+ m'.tokens :=
    (List.suffix_cons token m.tokens).trans (suffix_of_start h)
  unfold step at h
  repeat' split at h
  all_goals first
    | exact suffix_of_start h
    | exact hrestart h
    | cases h; exact List.suffix_refl _
    | cases h; exact List.suffix_cons _ _
    | cases h

theorem suffix_of_run {text : List Char} (h : run m text = some m') : m.tokens <:+ m'.tokens := by
  induction text generalizing m with
  | nil =>
    cases h
    exact List.suffix_refl _
  | cons c rest ih =>
    rw [run] at h
    split at h
    · next hstep => exact (suffix_of_step hstep).trans (ih h)
    · cases h

theorem suffix_of_finish (h : m.finish = some tokens) : m.tokens <:+ tokens.reverse := by
  unfold Machine.finish at h
  split at h
  · cases h
    exact ⟨[], (List.reverse_reverse m.tokens).symm⟩
  · obtain ⟨token, -, rfl⟩ := Option.map_eq_some_iff.1 h
    rw [List.reverse_reverse]
    exact List.suffix_cons _ _
  · obtain ⟨token, -, rfl⟩ := Option.map_eq_some_iff.1 h
    rw [List.reverse_reverse]
    exact List.suffix_cons _ _
  · cases h
  · cases h
  · cases h

end Suffix

end Token

open Token

namespace Spare

theorem le_countP_of_beforeBytes? {count : Nat} {tokens before : List Token}
    (h : beforeBytes? count tokens = some before) : count ≤ tokens.countP isNumber := by
  induction count generalizing tokens with
  | zero => exact Nat.zero_le _
  | succ count ih =>
    unfold beforeBytes? at h
    split at h
    · next heq => cases heq
    · next heq =>
      cases heq
      split at h
      · rw [List.countP_cons_of_neg (by decide), List.countP_cons_of_pos rfl]
        exact Nat.succ_le_succ (ih h)
      · cases h
    · cases h

theorem isDue_eq_false {m : Machine} (h : m.tokens.countP isNumber < 20)
    (isAddress : List Token → Bool) (c : Char) : isDue isAddress m c = false := by
  have hnone : beforeBytes? 20 m.tokens = none := by
    cases hbytes : beforeBytes? 20 m.tokens with
    | none => rfl
    | some before => exact absurd (le_countP_of_beforeBytes? hbytes) (Nat.not_le.2 h)
  unfold isDue
  split
  · rw [hnone]
    exact Bool.and_false _
  · rfl

theorem run_of_few_numbers {m m' : Machine} {text : List Char} (h : Token.run m text = some m')
    (hfew : m'.tokens.countP isNumber < 20) (isAddress : List Token → Bool) :
    run isAddress m 0 text = some m' := by
  induction text generalizing m with
  | nil => exact h
  | cons c rest ih =>
    have hsofar : m.tokens.countP isNumber < 20 :=
      Nat.lt_of_le_of_lt (suffix_of_run h).sublist.countP_le hfew
    rw [run, isDue_eq_false hsofar]
    rw [Token.run] at h
    split at h
    · next hstep =>
      rw [hstep]
      exact ih h
    · cases h

end Spare

theorem parseSparing?_eq_parse? {text : String} {tokens : List Token}
    (h : ofChars? text.toList = some tokens) (hfew : tokens.countP isNumber < 20)
    (isAddress : List Token → Bool) : parseSparing? isAddress text = parse? text := by
  obtain ⟨m, hrun, hfinish⟩ := Option.bind_eq_some_iff.1 h
  have hmachine : m.tokens.countP isNumber < 20 := by
    rw [← List.countP_reverse] at hfew
    exact Nat.lt_of_le_of_lt (suffix_of_finish hfinish).sublist.countP_le hfew
  rw [parseSparing?, parse?, Spare.run_of_few_numbers hrun hmachine, h, Option.bind_some, hfinish]

def numbers (v : Json) : Nat := v.tokens.countP isNumber

section Numbers

theorem numbers_array (elements : List Json) :
    (array elements).numbers = (elements.map numbers).sum := by
  have hmore (rest : List Json) :
      (elementTokens rest).countP isNumber = (rest.map numbers).sum := by
    induction rest with
    | nil => rfl
    | cons v rest ih =>
      rw [elementTokens_cons, List.countP_cons_of_neg (by decide), List.countP_append, ih]
      rfl
  cases elements with
  | nil => rfl
  | cons v rest =>
    rw [numbers, tokens_array_cons, List.countP_cons_of_neg (by decide), List.countP_append,
      List.countP_append, hmore]
    rfl

theorem numbers_object (members : List (String × Json)) :
    (object members).numbers = (members.map fun member => member.2.numbers).sum := by
  have hmore (rest : List (String × Json)) :
      (memberTokens rest).countP isNumber = (rest.map fun member => member.2.numbers).sum := by
    induction rest with
    | nil => rfl
    | cons member rest ih =>
      rw [memberTokens_cons, List.countP_cons_of_neg (by decide),
        List.countP_cons_of_neg (by simp [isNumber]), List.countP_cons_of_neg (by decide),
        List.countP_append, ih]
      rfl
  cases members with
  | nil => rfl
  | cons member rest =>
    rw [numbers, tokens_object_cons, List.countP_cons_of_neg (by decide),
      List.countP_cons_of_neg (by simp [isNumber]), List.countP_cons_of_neg (by decide),
      List.countP_append, List.countP_append, hmore]
    rfl

end Numbers

theorem parseSparing?_compact {v : Json} (h : v.Plain) (hfew : v.numbers < 20)
    (isAddress : List Token → Bool) : parseSparing? isAddress v.compact = some v := by
  rw [parseSparing?_eq_parse? (v.spaced_compact.ofChars? h v.separated_tokens) hfew,
    parse?_compact h]

end GasMarket.Json
