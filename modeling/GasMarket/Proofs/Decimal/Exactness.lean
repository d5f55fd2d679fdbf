import GasMarket.Proofs.Decimal.Arithmetic
import GasMarket.Proofs.Decimal.Fraction
import Mathlib.Data.Rat.Floor
import Mathlib.Tactic.Ring

namespace GasMarket

open Decimal

namespace Rounding

def toInteger : Rounding → ℚ → Int
  | .truncate, q => if 0 ≤ q then ⌊q⌋ else ⌈q⌉
  | .ceil, q => ⌈q⌉
  | .halfAwayFromZero, q => if 0 ≤ q then ⌊q + 1 / 2⌋ else ⌈q - 1 / 2⌉

def toPrecision (r : Rounding) (q : ℚ) : ℚ := r.toInteger (q * scale) / scale

section Integer

variable {n d : Int}

theorem floor_div (n : Int) (hd : 0 < d) : ⌊(n / d : ℚ)⌋ = n / d := by
  obtain ⟨k, rfl⟩ := Int.eq_ofNat_of_zero_le (Int.le_of_lt hd)
  exact_mod_cast Rat.floor_intCast_div_natCast n k

theorem ceil_div (n : Int) (hd : 0 < d) : ⌈(n / d : ℚ)⌉ = -(-n / d) := by
  obtain ⟨k, rfl⟩ := Int.eq_ofNat_of_zero_le (Int.le_of_lt hd)
  exact_mod_cast Rat.ceil_intCast_div_natCast n k

theorem div_nonneg_iff_left (n : Int) (hd : 0 < d) : (0 : ℚ) ≤ n / d ↔ 0 ≤ n := by
  rw [le_div_iff₀ (Int.cast_pos.2 hd), zero_mul, Int.cast_nonneg_iff]

theorem neg_divide_neg (r : Rounding) (n d : Int) : r.divide (-n) (-d) = r.divide n d := by
  cases r with
  | truncate => rw [divide, divide, Int.neg_tdiv, Int.tdiv_neg, Int.neg_neg]
  | ceil => rw [divide, divide, Int.neg_neg, ← Int.neg_fdiv_neg, Int.neg_neg]
  | halfAwayFromZero =>
    rw [divide, divide, Int.sign_neg, Int.sign_neg, Int.neg_mul_neg, Int.natAbs_neg,
      Int.natAbs_neg]

theorem truncate_divide (n : Int) (hd : 0 < d) :
    truncate.divide n d = truncate.toInteger (n / d) := by
  have hsign := div_nonneg_iff_left n hd
  by_cases hn : 0 ≤ n
  · rw [toInteger, if_pos (hsign.2 hn), floor_div n hd]
    exact Int.tdiv_eq_ediv_of_nonneg hn
  · rw [toInteger, if_neg (mt hsign.1 hn), ceil_div n hd, ← Int.tdiv_eq_ediv_of_nonneg (by omega),
      Int.neg_tdiv, Int.neg_neg]
    rfl

theorem ceil_divide (n : Int) (hd : 0 < d) : ceil.divide n d = ceil.toInteger (n / d) := by
  rw [toInteger, ceil_div n hd, divide, Int.fdiv_eq_ediv_of_nonneg _ (Int.le_of_lt hd)]

theorem half_divide_of_nonneg (hn : 0 ≤ n) (hd : 0 < d) :
    halfAwayFromZero.divide n d = ⌊(n / d + 1 / 2 : ℚ)⌋ := by
  have hd' : (d : ℚ) ≠ 0 := Int.cast_ne_zero.2 (Int.ne_of_gt hd)
  have hsum : (n / d + 1 / 2 : ℚ) = (2 * n + d : Int) / (2 * d : Int) := by
    push_cast
    field_simp
  rw [hsum, floor_div _ (by omega), divide, Int.sign_eq_one_of_pos hd, Int.mul_one]
  obtain ⟨k, rfl⟩ := Int.eq_ofNat_of_zero_le hn
  obtain ⟨e, rfl⟩ := Int.eq_ofNat_of_zero_le (Int.le_of_lt hd)
  rw [Int.natAbs_natCast, Int.natAbs_natCast]
  cases k with
  | zero =>
    rw [Int.natCast_zero, Int.sign_zero, Int.zero_mul, Int.mul_zero, Int.zero_add]
    exact (Int.ediv_eq_zero_of_lt (by omega) (by omega)).symm
  | succ k =>
    rw [Int.sign_eq_one_of_pos (by omega), Int.one_mul]
    push_cast
    rfl

theorem half_divide (n : Int) (hd : 0 < d) :
    halfAwayFromZero.divide n d = halfAwayFromZero.toInteger (n / d) := by
  have hsign := div_nonneg_iff_left n hd
  by_cases hn : 0 ≤ n
  · rw [toInteger, if_pos (hsign.2 hn), half_divide_of_nonneg hn hd]
  · have hodd : halfAwayFromZero.divide n d = -halfAwayFromZero.divide (-n) d := by
      rw [divide, divide, Int.sign_neg, Int.natAbs_neg, Int.neg_mul, Int.neg_mul, Int.neg_neg]
    rw [hodd, half_divide_of_nonneg (by omega) hd, toInteger, if_neg (mt hsign.1 hn),
      ← Int.ceil_neg]
    congr 1
    push_cast
    ring

theorem divide_eq_toInteger (r : Rounding) (n : Int) (hd : d ≠ 0) :
    r.divide n d = r.toInteger (n / d) := by
  have hpos (n : Int) {d : Int} (hd : 0 < d) : r.divide n d = r.toInteger (n / d) := by
    cases r with
    | truncate => exact truncate_divide n hd
    | ceil => exact ceil_divide n hd
    | halfAwayFromZero => exact half_divide n hd
  obtain hneg | hd := Int.lt_or_gt_of_ne hd
  · rw [← neg_divide_neg, hpos _ (Int.neg_pos_of_neg hneg), Int.cast_neg, Int.cast_neg,
      neg_div_neg_eq]
  · exact hpos n hd

end Integer

end Rounding

namespace Decimal

def Covers (q : ℚ) : Prop := (-bound / scale : ℚ) ≤ q ∧ q < bound / scale

/-- A fraction is the result, or an overflow if something does not fit. -/
structure Yields (result : Except ArithmeticFault Decimal) (fits : Prop) (q : ℚ) : Prop where
  ok : fits → ∃ c, result = .ok c ∧ c.toRat = q
  overflow : ¬ fits → result = .error .overflow

variable {a b : Decimal}

theorem covers_iff {n : Int} {q : ℚ} (h : (n : ℚ) = q * scale) : Covers q ↔ InRange n := by
  unfold Covers InRange
  rw [div_le_iff₀ scale_pos, lt_div_iff₀ scale_pos, ← h]
  exact_mod_cast Iff.rfl

theorem yields_ofUnits {n : Int} {q : ℚ} (h : (n : ℚ) = q * scale) :
    Yields (ofUnits n) (Covers q) q where
  ok hq := by
    refine ⟨⟨n, (covers_iff h).1 hq⟩, ofUnits_eq_ok_iff.2 rfl, ?_⟩
    rw [toRat, h, mul_div_cancel_right₀ _ scale_pos.ne']
  overflow hq := ofUnits_eq_error_iff.2 ⟨rfl, fun hrange => hq ((covers_iff h).2 hrange)⟩

theorem toRat_eq_toPrecision {c : Decimal} {r : Rounding} {n d : Int} {q : ℚ} (hd : d ≠ 0)
    (hq : (n / d : ℚ) = q * scale) (h : c.units = r.divide n d) : c.toRat = r.toPrecision q := by
  rw [toRat, h, Rounding.divide_eq_toInteger r n hd, hq, Rounding.toPrecision]

theorem yields_mulWith (r : Rounding) (a b : Decimal) :
    Yields (mulWith r a b) (InRange (a.units * b.units)) (r.toPrecision (a.toRat * b.toRat)) where
  ok h := by
    obtain ⟨c, hc, hunits⟩ := mulWith_of_inRange r h
    refine ⟨c, hc, toRat_eq_toPrecision (d := scale) (by decide) ?_ hunits⟩
    rw [Int.cast_mul, ← toRat_mul_scale a, ← toRat_mul_scale b, Int.cast_natCast, ← mul_assoc,
      mul_div_cancel_right₀ _ scale_pos.ne', mul_right_comm]
  overflow := mulWith_of_not_inRange r

theorem yields_quoWith (r : Rounding) (a : Decimal) (hb : b.units ≠ 0) :
    Yields (quoWith r a b) (InRange (a.units * scale)) (r.toPrecision (a.toRat / b.toRat)) where
  ok h := by
    obtain ⟨c, hc, hunits⟩ := quoWith_of_inRange r hb h
    refine ⟨c, hc, toRat_eq_toPrecision hb ?_ hunits⟩
    rw [Int.cast_mul, Int.cast_natCast, toRat, toRat, div_div_div_cancel_right₀ scale_pos.ne',
      mul_div_right_comm]
  overflow := quoWith_of_not_inRange r hb

theorem round_eq_toInteger (r : Rounding) (a : Decimal) : a.round r = r.toInteger a.toRat :=
  Rounding.divide_eq_toInteger r a.units (d := scale) (by decide)

theorem yields_ofAmount (n : Amount) : Yields (ofAmount n) (Covers n.toNat) n.toNat := by
  have hunits : (((n.toNat * scale : Nat) : Int) : ℚ) = n.toNat * scale := by push_cast; rfl
  unfold ofAmount
  by_cases hsize : Amount.size ≤ n.toNat * scale
  · rw [if_pos hsize]
    have hout : ¬ Covers n.toNat := by
      rw [covers_iff hunits]
      unfold InRange bound
      unfold Amount.size at hsize
      omega
    exact ⟨fun h => absurd h hout, fun _ => rfl⟩
  · rw [if_neg hsize]
    exact yields_ofUnits hunits

theorem toAmount_eq_toInteger (r : Rounding) (a : Decimal) :
    if r.toInteger a.toRat < 0 then a.toAmount r = .error .overflow
    else ∃ n, a.toAmount r = .ok n ∧ (n.toNat : Int) = r.toInteger a.toRat := by
  rw [← round_eq_toInteger]
  split
  case isTrue h => rw [toAmount_eq, if_pos h]
  case isFalse h =>
    have hok : a.toAmount r = .ok (BitVec.ofInt 256 (a.round r)) := by rw [toAmount_eq, if_neg h]
    exact ⟨_, hok, toAmount_eq_ok_iff.1 hok⟩

theorem roundedQuotient_units (r : Rounding) (a b : Decimal) : roundedQuotient r a.units b.units =
    if b.units = 0 then .error .divisionByZero
    else if a.units = -bound ∧ b.units = -1 then .error .overflow
    else .ok (r.toInteger (a.units / b.units)) := by
  by_cases hb : b.units = 0
  · rw [roundedQuotient, if_pos hb, if_pos hb]
  · rw [if_neg hb]
    by_cases h : a.units = -bound ∧ b.units = -1
    · rw [if_pos h, h.1, h.2]
      rfl
    · rw [if_neg h, roundedQuotient_eq r a.inRange b.inRange hb (inRange_tdiv a.inRange h),
        Rounding.divide_eq_toInteger r a.units hb]

/-- Every operation against the exact number: what it yields, and when it fails.  A product and a
scaled dividend must fit before they are rounded, and rounding then always succeeds. -/
theorem arithmetic_exact (r : Rounding) (a b : Decimal) :
    Yields (a.add b) (Covers (a.toRat + b.toRat)) (a.toRat + b.toRat) ∧
    Yields (a.sub b) (Covers (a.toRat - b.toRat)) (a.toRat - b.toRat) ∧
    (∀ n : UInt64, Yields (a.mulUInt64 n) (Covers (a.toRat * n.toNat)) (a.toRat * n.toNat)) ∧
    Yields (mulWith r a b) (InRange (a.units * b.units)) (r.toPrecision (a.toRat * b.toRat)) ∧
    (if b.units = 0 then quoWith r a b = .error .divisionByZero
      else Yields (quoWith r a b) (InRange (a.units * scale)) (r.toPrecision (a.toRat / b.toRat))) ∧
    a.toInt r = .ok (r.toInteger a.toRat) ∧
    (if r.toInteger a.toRat < 0 then a.toAmount r = .error .overflow
      else ∃ n, a.toAmount r = .ok n ∧ (n.toNat : Int) = r.toInteger a.toRat) ∧
    (∀ n : Amount, Yields (ofAmount n) (Covers n.toNat) n.toNat) ∧
    (∀ n : Int, Yields (ofInt n) (Covers n) n) ∧
    roundedQuotient r a.units b.units =
      if b.units = 0 then .error .divisionByZero
      else if a.units = -bound ∧ b.units = -1 then .error .overflow
      else .ok (r.toInteger (a.units / b.units)) := by
  refine ⟨yields_ofUnits ?_, yields_ofUnits ?_, fun n => yields_ofUnits ?_, yields_mulWith r a b,
    ?_, ?_, toAmount_eq_toInteger r a, yields_ofAmount, fun n => yields_ofUnits ?_,
    roundedQuotient_units r a b⟩
  · rw [Int.cast_add, add_mul, toRat_mul_scale, toRat_mul_scale]
  · rw [Int.cast_sub, sub_mul, toRat_mul_scale, toRat_mul_scale]
  · rw [Int.cast_mul, Int.cast_natCast, mul_right_comm, toRat_mul_scale]
  · split
    case isTrue hb => exact quoWith_of_zero r hb
    case isFalse hb => exact yields_quoWith r a hb
  · rw [toInt_eq, round_eq_toInteger]
  · rw [Int.cast_mul, Int.cast_natCast, mul_comm]

example :
    (mulWith .halfAwayFromZero ⟨-1, by decide⟩ (.ofAtoms 500000000000000000)).map Decimal.units =
      .ok (-1) ∧
    quoWith .truncate ⟨-bound, by decide⟩ (.ofAtoms 500000000000000000) = .error .overflow := by
  decide +kernel

end Decimal

end GasMarket
