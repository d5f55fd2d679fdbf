import GasMarket.Text.Digits
import Mathlib.Algebra.GroupWithZero.Nat

namespace GasMarket.Text.Digits

theorem isDigit_of_mem_decimal {n : Nat} {c : Char} (h : c ∈ decimal n) : c.isDigit :=
  Nat.isDigit_of_mem_toDigits (by decide) (by decide) h

theorem decimal_ne_nil (n : Nat) : decimal n ≠ [] := Nat.toDigits_ne_nil

@[simp] theorem ofDigitChars_decimal (n : Nat) : Nat.ofDigitChars 10 (decimal n) 0 = n :=
  Nat.ofDigitChars_ten_toDigits

theorem length_decimal_le {n width : Nat} (hwidth : 0 < width) (h : n < 10 ^ width) :
    (decimal n).length ≤ width :=
  (Nat.length_toDigits_le_iff (by decide) hwidth).2 h

theorem exists_cons_of_ne_zero {n : Nat} (h : n ≠ 0) :
    ∃ c rest, decimal n = c :: rest ∧ c ≠ '0' := by
  induction n using Nat.strongRecOn with
  | ind n ih =>
    unfold decimal at ih ⊢
    by_cases hlt : n < 10
    · exact ⟨_, [], Nat.toDigits_of_lt_base hlt, by simpa using h⟩
    · obtain ⟨c, rest, hc, hne⟩ := ih (n / 10) (by omega) (by omega)
      refine ⟨c, rest ++ [Nat.digitChar (n % 10)], ?_, hne⟩
      rw [Nat.toDigits_of_base_le (by decide) (Nat.not_lt.1 hlt), hc, List.cons_append]

theorem isDigit_of_mem_padded {width : Nat} {digits : List Char} (h : ∀ c ∈ digits, c.isDigit)
    {c : Char} (hc : c ∈ padded width digits) : c.isDigit := by
  unfold padded List.leftpad at hc
  cases List.mem_append.1 hc with
  | inl hzero => rw [List.eq_of_mem_replicate hzero]; rfl
  | inr hdigit => exact h c hdigit

@[simp] theorem ofDigitChars_padded (width : Nat) (digits : List Char) :
    Nat.ofDigitChars 10 (padded width digits) 0 = Nat.ofDigitChars 10 digits 0 := by
  simp [padded, List.leftpad, Nat.ofDigitChars_append]

theorem ofDigitChars_rightpad (width : Nat) (digits : List Char) :
    Nat.ofDigitChars 10 (digits.rightpad width '0') 0 =
      10 ^ (width - digits.length) * Nat.ofDigitChars 10 digits 0 := by
  rw [List.rightpad, Nat.ofDigitChars_append, Nat.ofDigitChars_replicate_zero]

theorem digit?_of_isDigit {c : Char} (h : c.isDigit) : digit? c = some (c.toNat - '0'.toNat) := by
  have hrange : '0' ≤ c ∧ c ≤ '9' := by
    simp only [Char.isDigit, Bool.and_eq_true, decide_eq_true_eq] at h
    exact h
  rw [digit?, if_pos hrange]

theorem digit_lt {c : Char} (h : c.isDigit) : c.toNat - '0'.toNat < 10 := by
  simp only [Char.isDigit, Bool.and_eq_true, decide_eq_true_eq] at h
  have hle : c.toNat ≤ '9'.toNat := UInt32.le_iff_toNat_le.1 h.2
  have hten : '9'.toNat - '0'.toNat < 10 := by decide
  omega

theorem read?_ten {digits : List Char} (h : ∀ c ∈ digits, c.isDigit) :
    read? 10 digits = some (Nat.ofDigitChars 10 digits 0) := by
  unfold read?
  generalize (0 : Nat) = start
  induction digits generalizing start with
  | nil => rfl
  | cons c rest ih =>
    obtain ⟨hc, hrest⟩ := List.forall_mem_cons.1 h
    rw [List.foldlM_cons, digit?_of_isDigit hc, Nat.ofDigitChars_cons, Option.bind_some,
      if_pos (digit_lt hc)]
    exact ih hrest _

theorem ofDigitChars_lt {digits : List Char} (h : ∀ c ∈ digits, c.isDigit) :
    Nat.ofDigitChars 10 digits 0 < 10 ^ digits.length := by
  induction digits with
  | nil => decide
  | cons c rest ih =>
    obtain ⟨hc, hrest⟩ := List.forall_mem_cons.1 h
    have hlt := ih hrest
    have hdigit := Nat.mul_le_mul_left (10 ^ rest.length) (Nat.le_of_lt_succ (digit_lt hc))
    rw [Nat.ofDigitChars_cons, Nat.mul_zero, Nat.zero_add, Nat.ofDigitChars_eq_ofDigitChars_zero,
      List.length_cons, Nat.pow_succ]
    omega

section Hex

theorem digit?_digitChar : ∀ d < 16, digit? (Nat.digitChar d) = some d := by decide

theorem read?_append (base : Nat) (digits : List Char) (c : Char) :
    read? base (digits ++ [c]) = (read? base digits).bind fun n =>
      (digit? c).bind fun d => if d < base then some (base * n + d) else none := by
  rw [read?, List.foldlM_append]
  exact congrArg (Option.bind _) (funext fun n => bind_pure _)

@[simp] theorem read?_hex (n : Nat) : read? 16 (hex n) = some n := by
  induction n using Nat.strongRecOn with
  | ind n ih =>
    have hdigit := digit?_digitChar (n % 16) (Nat.mod_lt n (by decide))
    have hlt : n % 16 < 16 := Nat.mod_lt n (by decide)
    unfold hex at ih ⊢
    by_cases hn : n < 16
    · rw [Nat.toDigits_of_lt_base hn, ← List.nil_append [_], read?_append, read?_nil,
        Option.bind_some, digit?_digitChar n hn, Option.bind_some, if_pos hn, Nat.mul_zero,
        Nat.zero_add]
    · rw [Nat.toDigits_of_base_le (by decide) (Nat.not_lt.1 hn), read?_append,
        ih (n / 16) (by omega), Option.bind_some, hdigit, Option.bind_some, if_pos hlt,
        Nat.div_add_mod]

@[simp] theorem read?_padded (width : Nat) (digits : List Char) :
    read? 16 (padded width digits) = read? 16 digits := by
  have hzeros (k : Nat) : read? 16 (List.replicate k '0') = some 0 := by
    induction k with
    | zero => rfl
    | succ k ih => rw [List.replicate_succ', read?_append, ih]; rfl
  have hpadding := hzeros (width - digits.length)
  unfold read? at hpadding ⊢
  rw [padded, List.leftpad, List.foldlM_append, hpadding]
  rfl

theorem isSome_digit?_of_read? {base n : Nat} {digits : List Char}
    (h : read? base digits = some n) : ∀ c ∈ digits, (digit? c).isSome := by
  unfold read? at h
  generalize (0 : Nat) = start at h
  induction digits generalizing start with
  | nil => exact List.forall_mem_nil _
  | cons c rest ih =>
    obtain ⟨m, hm, hrest⟩ := Option.bind_eq_some_iff.1 h
    obtain ⟨d, hd, -⟩ := Option.bind_eq_some_iff.1 hm
    exact List.forall_mem_cons.2 ⟨Option.isSome_of_eq_some hd, ih m hrest⟩

theorem length_hex_le {n width : Nat} (hwidth : 0 < width) (h : n < 16 ^ width) :
    (hex n).length ≤ width :=
  (Nat.length_toDigits_le_iff (by decide) hwidth).2 h

end Hex

end GasMarket.Text.Digits
