import GasMarket.Decimal.Basic
import GasMarket.Proofs.Success
import Mathlib.Algebra.Group.Int.Defs
import Mathlib.Algebra.GroupWithZero.Nat

/-! The rounded quotient from the truncated one and its remainder.  It is the quotient rounded as a
whole, and of the numbers on the way only the truncated quotient can leave the range: that of the
least number by minus one. -/

namespace GasMarket

namespace Rounding

variable {n d : Int}

theorem ne_zero_of_tmod_ne_zero (h : n.tmod d ≠ 0) : n ≠ 0 := by
  rintro rfl
  exact h (Int.zero_tmod d)

theorem divide_ceil_of_tmod_ne_zero (hd : d ≠ 0) (h : n.tmod d ≠ 0) :
    ceil.divide n d = if n < 0 ↔ d < 0 then n.tdiv d + 1 else n.tdiv d := by
  have hdvd : ¬ d ∣ -n := fun hdvd => h (Int.tmod_eq_zero_of_dvd (Int.dvd_neg.1 hdvd))
  have hn := ne_zero_of_tmod_ne_zero h
  rw [divide, Int.fdiv_eq_tdiv, if_neg hdvd, Int.neg_tdiv]
  obtain hneg | hpos := Int.lt_or_gt_of_ne hd
  · rw [Int.sign_eq_neg_one_of_neg hneg]
    split <;> split <;> split <;> omega
  · rw [Int.sign_eq_one_of_pos hpos]
    split <;> split <;> split <;> omega

theorem half_up_div (n : Nat) {d : Nat} (hd : 0 < d) :
    (2 * n + d) / (2 * d) = n / d + if d ≤ 2 * (n % d) then 1 else 0 := by
  have hsplit : 2 * n + d = 2 * d * (n / d) + (2 * (n % d) + d) := by
    rw [Nat.mul_assoc, ← Nat.add_assoc, ← Nat.mul_add, Nat.div_add_mod]
  have hlt := Nat.mod_lt n hd
  rw [hsplit, Nat.mul_add_div (by omega)]
  congr 1
  split
  · exact Nat.div_eq_of_lt_le (by omega) (by omega)
  · exact Nat.div_eq_of_lt (by omega)

theorem sign_mul_natAbs_tdiv (n d : Int) : n.sign * d.sign * (n.tdiv d).natAbs = n.tdiv d := by
  have hquotient := Int.sign_mul_natAbs (n.tdiv d)
  rw [Int.sign_tdiv] at hquotient
  by_cases hlt : n.natAbs < d.natAbs
  · rw [if_pos hlt, Int.zero_mul] at hquotient
    rw [← hquotient, Int.natAbs_zero, Int.natCast_zero, Int.mul_zero]
  · rwa [if_neg hlt] at hquotient

theorem divide_half (hd : d ≠ 0) : halfAwayFromZero.divide n d =
    n.tdiv d + n.sign * d.sign * if d.natAbs ≤ 2 * (n.tmod d).natAbs then 1 else 0 := by
  rw [divide, half_up_div _ (Int.natAbs_pos.2 hd), Int.natCast_add, Int.mul_add, ← Int.natAbs_tmod]
  congr 1
  · have hquotient := sign_mul_natAbs_tdiv n d
    rwa [Int.natAbs_tdiv] at hquotient
  · split <;> rfl

theorem divide_of_tmod_eq_zero (r : Rounding) (hd : d ≠ 0) (h : n.tmod d = 0) :
    r.divide n d = n.tdiv d := by
  cases r with
  | truncate => rfl
  | ceil =>
    obtain ⟨q, rfl⟩ := Int.dvd_of_tmod_eq_zero h
    rw [divide, ← Int.mul_neg, Int.mul_fdiv_cancel_left _ hd, Int.neg_neg,
      Int.mul_tdiv_cancel_left _ hd]
  | halfAwayFromZero =>
    have hno : ¬ d.natAbs ≤ 2 * (n.tmod d).natAbs := by
      rw [h]
      omega
    rw [divide_half hd, if_neg hno, Int.mul_zero, Int.add_zero]

theorem sign_mul_sign (hd : d ≠ 0) (hn : n ≠ 0) :
    n.sign * d.sign = if n < 0 ↔ d < 0 then 1 else -1 := by
  obtain hd | hd := Int.lt_or_gt_of_ne hd <;> obtain hn | hn := Int.lt_or_gt_of_ne hn
  · rw [Int.sign_eq_neg_one_of_neg hd, Int.sign_eq_neg_one_of_neg hn, if_pos (iff_of_true hn hd)]
    rfl
  · rw [Int.sign_eq_neg_one_of_neg hd, Int.sign_eq_one_of_pos hn, if_neg (by omega)]
    rfl
  · rw [Int.sign_eq_one_of_pos hd, Int.sign_eq_neg_one_of_neg hn, if_neg (by omega)]
    rfl
  · rw [Int.sign_eq_one_of_pos hd, Int.sign_eq_one_of_pos hn, if_pos (by omega)]
    rfl

theorem divide_half_of_tmod_ne_zero (hd : d ≠ 0) (h : n.tmod d ≠ 0) : halfAwayFromZero.divide n d =
    if d.natAbs ≤ 2 * (n.tmod d).natAbs then if n < 0 ↔ d < 0 then n.tdiv d + 1 else n.tdiv d - 1
    else n.tdiv d := by
  have hn := ne_zero_of_tmod_ne_zero h
  rw [divide_half hd, sign_mul_sign hd hn]
  by_cases hhalf : d.natAbs ≤ 2 * (n.tmod d).natAbs
  · rw [if_pos hhalf, if_pos hhalf, Int.mul_one]
    split <;> rfl
  · rw [if_neg hhalf, if_neg hhalf, Int.mul_zero, Int.add_zero]

theorem divide_eq_or (r : Rounding) (hd : d ≠ 0) (h : n.tmod d ≠ 0) : r.divide n d = n.tdiv d ∨
    r.divide n d = if n < 0 ↔ d < 0 then n.tdiv d + 1 else n.tdiv d - 1 := by
  cases r with
  | truncate => exact .inl rfl
  | ceil =>
    rw [divide_ceil_of_tmod_ne_zero hd h]
    by_cases hsign : n < 0 ↔ d < 0
    · rw [if_pos hsign, if_pos hsign]
      exact .inr rfl
    · rw [if_neg hsign]
      exact .inl rfl
  | halfAwayFromZero =>
    rw [divide_half_of_tmod_ne_zero hd h]
    by_cases hhalf : d.natAbs ≤ 2 * (n.tmod d).natAbs
    · rw [if_pos hhalf]
      exact .inr rfl
    · rw [if_neg hhalf]
      exact .inl rfl

end Rounding

namespace Decimal

variable {n d : Int}

theorem checked_eq_ok_iff {k : Int} : checked n = .ok k ↔ InRange n ∧ k = n := by
  unfold checked
  split
  · simp_all [eq_comm]
  · simp_all

theorem checked_of_inRange (h : InRange n) : checked n = .ok n := if_pos h

theorem natAbs_tmod_lt (n : Int) (hd : d ≠ 0) : (n.tmod d).natAbs < d.natAbs := by
  rw [Int.natAbs_tmod]
  exact Nat.mod_lt _ (Int.natAbs_pos.2 hd)

theorem natAbs_tdiv_le_half (n : Int) (h : 2 ≤ d.natAbs) : (n.tdiv d).natAbs ≤ n.natAbs / 2 := by
  rw [Int.natAbs_tdiv]
  exact Nat.div_le_div_left h (by decide)

theorem inRange_tdiv (hn : InRange n) (h : ¬ (n = -bound ∧ d = -1)) : InRange (n.tdiv d) := by
  obtain rfl | rfl | rfl | htwo : d = 0 ∨ d = 1 ∨ d = -1 ∨ 2 ≤ d.natAbs := by omega
  · rw [Int.tdiv_zero]
    exact ⟨by decide, by decide⟩
  · rwa [Int.tdiv_one]
  · rw [Int.tdiv_neg, Int.tdiv_one]
    unfold InRange at *
    omega
  · have hquotient := natAbs_tdiv_le_half n htwo
    unfold InRange bound at *
    omega

theorem inRange_awayFromZero (hn : InRange n) (hd : d ≠ 0) (h : n.tmod d ≠ 0) :
    InRange (if n < 0 ↔ d < 0 then n.tdiv d + 1 else n.tdiv d - 1) := by
  have hlt := natAbs_tmod_lt n hd
  -- a divisor that leaves a remainder is at least two, which keeps the quotient far from the ends
  have hquotient := natAbs_tdiv_le_half n (d := d) (by omega)
  unfold InRange bound at *
  split <;> omega

theorem adjusted_eq (r : Rounding) (hn : InRange n) (hd : InRange d) (hd' : d ≠ 0)
    (h : n.tmod d ≠ 0) : adjusted r n d (n.tdiv d) (n.tmod d) = .ok (r.divide n d) := by
  have haway := checked_of_inRange (inRange_awayFromZero hn hd' h)
  unfold adjusted
  rw [haway]
  cases r with
  | truncate => rfl
  | ceil =>
    rw [Rounding.divide_ceil_of_tmod_ne_zero hd' h]
    split <;> rfl
  | halfAwayFromZero =>
    have hlt := natAbs_tmod_lt n hd'
    have hfits : ¬ Amount.size ≤ 2 * (n.tmod d).natAbs := by
      unfold InRange bound at hd
      unfold Amount.size
      omega
    rw [Rounding.divide_half_of_tmod_ne_zero hd' h]
    simp only [if_neg hfits]
    split <;> rfl

theorem inRange_divide (r : Rounding) (hn : InRange n) (hd : d ≠ 0)
    (hquotient : InRange (n.tdiv d)) : InRange (r.divide n d) := by
  by_cases h : n.tmod d = 0
  · rw [Rounding.divide_of_tmod_eq_zero r hd h]
    exact hquotient
  · obtain htruncated | haway := Rounding.divide_eq_or r hd h
    · rw [htruncated]
      exact hquotient
    · rw [haway]
      exact inRange_awayFromZero hn hd h

theorem inRange_tdiv_mul (hn : InRange n) (d : Int) : InRange (n.tdiv d * d) := by
  have hsplit := Int.mul_tdiv_add_tmod n d
  have hle : (n.tmod d).natAbs ≤ n.natAbs := by
    rw [Int.natAbs_tmod]
    exact Nat.mod_le _ _
  rw [Int.mul_comm] at hsplit
  unfold InRange at *
  obtain hpos | hneg := Int.le_total 0 n
  · have hremainder := Int.tmod_nonneg d hpos
    omega
  · have hremainder := Int.tmod_nonneg d (Int.neg_nonneg_of_nonpos hneg)
    rw [Int.neg_tmod] at hremainder
    omega

theorem roundedQuotient_eq (r : Rounding) (hn : InRange n) (hd : InRange d) (hd' : d ≠ 0)
    (hquotient : InRange (n.tdiv d)) : roundedQuotient r n d = .ok (r.divide n d) := by
  have hremainder : n - n.tdiv d * d = n.tmod d := by
    rw [Int.tmod_def, Int.mul_comm]
  have hrange : InRange (n.tmod d) := by
    have hle : (n.tmod d).natAbs < d.natAbs := natAbs_tmod_lt n hd'
    unfold InRange bound at *
    omega
  unfold roundedQuotient
  rw [if_neg hd', checked_of_inRange hquotient]
  change (checked (n.tdiv d * d) >>= _) = _
  rw [checked_of_inRange (inRange_tdiv_mul hn d)]
  change (checked (n - n.tdiv d * d) >>= _) = _
  rw [hremainder, checked_of_inRange hrange]
  change (if n.tmod d = 0 then _ else _) = _
  by_cases h : n.tmod d = 0
  · rw [if_pos h, Rounding.divide_of_tmod_eq_zero r hd' h]
    rfl
  · rw [if_neg h]
    exact adjusted_eq r hn hd hd' h

end Decimal

end GasMarket
