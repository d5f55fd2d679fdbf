import GasMarket.Decimal.Basic
import Mathlib.Algebra.Order.Field.Rat
import Mathlib.Algebra.Order.Ring.Abs
import Mathlib.Tactic.Linarith

namespace GasMarket

section Truncation

variable {n d : Int}

theorem div_lt_tdiv_add_one (n : Int) (hd : 0 < d) : (n / d : ℚ) < n.tdiv d + 1 := by
  rw [div_lt_iff₀ (Int.cast_pos.2 hd)]
  exact_mod_cast Int.lt_tdiv_add_one_mul_self n hd

theorem tdiv_sub_one_lt_div (n : Int) (hd : 0 < d) : (n.tdiv d - 1 : ℚ) < n / d := by
  have hneg := div_lt_tdiv_add_one (-n) hd
  rw [Int.neg_tdiv, Int.cast_neg, Int.cast_neg, neg_div] at hneg
  linarith

theorem abs_tdiv_sub_div_lt (n : Int) (hd : 0 < d) : |(n.tdiv d - n / d : ℚ)| < 1 := by
  have habove := tdiv_sub_one_lt_div n hd
  have hbelow := div_lt_tdiv_add_one n hd
  rw [abs_lt]
  constructor
  · linarith
  · linarith

theorem tdiv_le_div (hn : 0 ≤ n) (hd : 0 < d) : (n.tdiv d : ℚ) ≤ n / d := by
  have hmul := Int.tdiv_mul_le n (Int.ne_of_gt hd)
  rw [if_pos hn, Int.natCast_zero, Int.add_zero] at hmul
  rw [le_div_iff₀ (Int.cast_pos.2 hd)]
  exact_mod_cast hmul

theorem div_le_tdiv (hn : n ≤ 0) (hd : 0 < d) : (n / d : ℚ) ≤ n.tdiv d := by
  have hneg := tdiv_le_div (Int.neg_nonneg_of_nonpos hn) hd
  rw [Int.neg_tdiv, Int.cast_neg, Int.cast_neg, neg_div] at hneg
  exact neg_le_neg_iff.1 hneg

end Truncation

theorem mul_pow_le_max {floor fee moved q : ℚ} (hfloor : 0 ≤ floor) (hq : 0 ≤ q) (hq' : q ≤ 1)
    (h : moved ≤ max floor (fee * q)) (k : Nat) :
    moved * q ^ k ≤ max floor (fee * q ^ (k + 1)) := by
  calc moved * q ^ k
      ≤ max floor (fee * q) * q ^ k := mul_le_mul_of_nonneg_right h (pow_nonneg hq k)
    _ = max (floor * q ^ k) (fee * q * q ^ k) := max_mul_of_nonneg _ _ (pow_nonneg hq k)
    _ ≤ max floor (fee * q ^ (k + 1)) := by
        rw [pow_succ', ← mul_assoc]
        exact max_le_max_right _ (mul_le_of_le_one_right hfloor (pow_le_one₀ hq hq'))

namespace Decimal

def toRat (d : Decimal) : ℚ := d.units / scale

theorem scale_pos : (0 : ℚ) < scale := by norm_num [scale]

theorem toRat_mul_scale (d : Decimal) : d.toRat * scale = d.units :=
  div_mul_cancel₀ _ scale_pos.ne'

theorem toRat_nonneg {d : Decimal} (h : 0 ≤ d.units) : 0 ≤ d.toRat :=
  div_nonneg (Int.cast_nonneg h) scale_pos.le

theorem toRat_pos {d : Decimal} (h : 0 < d.units) : 0 < d.toRat :=
  div_pos (Int.cast_pos.2 h) scale_pos

theorem toRat_le_toRat {a b : Decimal} (h : a ≤ b) : a.toRat ≤ b.toRat :=
  div_le_div_of_nonneg_right (Int.cast_le.2 h) scale_pos.le

theorem toRat_le_one {d : Decimal} (h : d ≤ .one) : d.toRat ≤ 1 := by
  rw [toRat, div_le_one₀ scale_pos]
  exact_mod_cast h

theorem toRat_ofUInt64 (n : UInt64) : (ofUInt64 n).toRat = n.toNat := by
  rw [toRat, units_ofUInt64, Int.cast_mul, Int.cast_natCast, Int.cast_natCast,
    mul_div_cancel_right₀ _ scale_pos.ne']

theorem toRat_le_max {a floor : Decimal} {n : Int} {exact : ℚ} (ha : a.units = max n floor.units)
    (hn : n ≤ exact * scale) : a.toRat ≤ max floor.toRat exact := by
  obtain hmax | hmax := max_choice n floor.units
  · apply le_max_of_le_right
    rwa [toRat, ha, hmax, div_le_iff₀ scale_pos]
  · rw [Decimal.ext (ha.trans hmax)]
    exact le_max_left _ _

section Product

variable {a : Decimal} {x : Int} {exact error : ℚ}

theorem mul_div_scale (a : Decimal) (x : Int) :
    ((a.units * x : Int) : ℚ) / (scale : Int) = a.toRat * x := by
  rw [Int.cast_mul, Int.cast_natCast, toRat, mul_div_right_comm]

theorem abs_tdiv_mul_sub_lt (ha : 0 ≤ a.units) (hx : |x - exact| ≤ error) :
    |(a.units * x).tdiv scale - a.toRat * exact| < a.toRat * error + 1 := by
  have hown := abs_tdiv_sub_div_lt (a.units * x) (d := scale) (by decide)
  rw [mul_div_scale] at hown
  have hcarried : |a.toRat * x - a.toRat * exact| ≤ a.toRat * error := by
    rw [← mul_sub, abs_mul, abs_of_nonneg (toRat_nonneg ha)]
    exact mul_le_mul_of_nonneg_left hx (toRat_nonneg ha)
  calc |(a.units * x).tdiv scale - a.toRat * exact|
      ≤ |(a.units * x).tdiv scale - a.toRat * x| + |a.toRat * x - a.toRat * exact| :=
        abs_sub_le _ _ _
    _ < a.toRat * error + 1 := by linarith

theorem tdiv_mul_le_mul (ha : 0 ≤ a.units) (hx : 0 ≤ x) (hexact : x ≤ exact) :
    ((a.units * x).tdiv scale : ℚ) ≤ a.toRat * exact := by
  have htruncated := tdiv_le_div (Int.mul_nonneg ha hx) (d := scale) (by decide)
  rw [mul_div_scale] at htruncated
  exact htruncated.trans (mul_le_mul_of_nonneg_left hexact (toRat_nonneg ha))

theorem mul_le_tdiv_mul (ha : 0 ≤ a.units) (hx : x ≤ 0) (hexact : exact ≤ x) :
    a.toRat * exact ≤ (a.units * x).tdiv scale := by
  have htruncated := div_le_tdiv (Int.mul_nonpos_of_nonneg_of_nonpos ha hx) (d := scale) (by decide)
  rw [mul_div_scale] at htruncated
  exact (mul_le_mul_of_nonneg_left hexact (toRat_nonneg ha)).trans htruncated

theorem mul_lt_tdiv_mul_add_one (ha : 0 ≤ a.units) (hexact : exact ≤ x) :
    a.toRat * exact < (a.units * x).tdiv scale + 1 := by
  have htruncated := div_lt_tdiv_add_one (a.units * x) (d := scale) (by decide)
  rw [mul_div_scale] at htruncated
  exact (mul_le_mul_of_nonneg_left hexact (toRat_nonneg ha)).trans_lt htruncated

end Product

end Decimal

end GasMarket
