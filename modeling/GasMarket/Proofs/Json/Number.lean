import GasMarket.Json.Number
import GasMarket.Proofs.Text.Digits
import Mathlib.Data.List.TakeWhile

namespace GasMarket.Json.Number

open Text.Digits

theorem le_ofDigitChars (digits : List Char) (n : Nat) : n ≤ Nat.ofDigitChars 10 digits n := by
  induction digits generalizing n with
  | nil => exact Nat.le_refl n
  | cons c rest ih =>
    rw [Nat.ofDigitChars_cons]
    exact Nat.le_trans (by omega) (ih _)

theorem extend_eq {digits : List Char} {n : Nat} (h : Nat.ofDigitChars 10 digits n < UInt64.size) :
    extend n digits = (Nat.ofDigitChars 10 digits n, []) := by
  induction digits generalizing n with
  | nil => rfl
  | cons c rest ih =>
    rw [Nat.ofDigitChars_cons] at h ⊢
    rw [extend, if_pos (Nat.lt_of_le_of_lt (le_ofDigitChars rest _) h), ih h]

theorem ne_of_isDigit {c d : Char} (hc : c.isDigit) (hd : d.isDigit = false) : c ≠ d := by
  rintro rfl
  rw [hc] at hd
  cases hd

theorem magnitude_decimal {n : Nat} (h : n < UInt64.size) : magnitude (decimal n) = ⟨n, 0⟩ := by
  have hdigit : ∀ c ∈ decimal n, c.isDigit := fun c hc => isDigit_of_mem_decimal hc
  have hmark (c : Char) (hc : c ∈ decimal n) : decide (c ≠ 'e' ∧ c ≠ 'E') = true :=
    decide_eq_true ⟨ne_of_isDigit (hdigit c hc) rfl, ne_of_isDigit (hdigit c hc) rfl⟩
  have hpoint (c : Char) (hc : c ∈ decimal n) : decide (c ≠ '.') = true :=
    decide_eq_true (ne_of_isDigit (hdigit c hc) rfl)
  have hsign : (decimal n).dropWhile (· == '-') = decimal n := by
    obtain ⟨c, rest, hc⟩ := List.exists_cons_of_ne_nil (decimal_ne_nil n)
    have hne : c ≠ '-' := ne_of_isDigit (hdigit c (hc ▸ List.mem_cons_self)) rfl
    rw [hc, List.dropWhile_cons_of_neg (by simpa using hne)]
  have hexponent : exponent (decimal n) = 0 := by
    rw [exponent, List.dropWhile_eq_nil_iff.2 hmark]
  have hwhole : extend 0 (decimal n) = (n, []) := by
    rw [extend_eq (by rwa [ofDigitChars_decimal]), ofDigitChars_decimal]
  simp only [magnitude, hsign, List.takeWhile_eq_self_iff.2 hmark,
    List.takeWhile_eq_self_iff.2 hpoint, List.dropWhile_eq_nil_iff.2 hpoint, hexponent, hwhole,
    List.drop_nil, extend, List.length_nil]
  rfl

theorem nearestDouble_le {n : Nat} (h : n ≠ 0) : nearestDouble n ≤ 2 * n := by
  have hunit : Nat.pow 2 (n.log2 - 52) ≤ n :=
    Nat.le_trans (Nat.pow_le_pow_right (by decide) (Nat.sub_le _ _)) (Nat.log2_self_le h)
  have hbelow := Nat.div_mul_le_self n (Nat.pow 2 (n.log2 - 52))
  unfold nearestDouble
  generalize Nat.pow 2 (n.log2 - 52) = unit at hunit hbelow
  simp only
  split
  · rw [Nat.add_mul, Nat.one_mul]
    omega
  · omega

theorem isFinite_decimal {n : Nat} (h : n < UInt64.size) : isFinite (decimal n) := by
  rw [isFinite, magnitude_decimal h, Magnitude.isFinite]
  by_cases hzero : n = 0
  · rw [if_pos (.inl hzero)]
  · have hone : nearestDouble (Nat.pow 10 (Int.toNat 0)) = 1 := by decide
    have hnear := nearestDouble_le hzero
    have hlarge : 2 * UInt64.size ≤ Nat.pow 2 1024 - Nat.pow 2 970 := by decide +kernel
    rw [if_neg (by simpa using hzero), hone, Nat.mul_one]
    simp only [Bool.and_eq_true, decide_eq_true_eq]
    exact ⟨by decide, by omega⟩

end GasMarket.Json.Number
