import GasMarket.Proofs.Decimal.Fraction
import GasMarket.Proofs.Pricing.LastBlock
import Mathlib.Tactic.Ring

/-! The base fee next to the exact fraction that it stands for.  Three quotients are truncated
toward zero on the way, so that the fee moves in the direction of the block, by less than what is
exact when it rises, and by more than what is exact only by the last of its digits when it falls. -/

namespace GasMarket

open Decimal

namespace Controller

variable {p : Params} {s next : Controller} {update : BlockUpdate}

section Direction

theorem deviation_nonneg (h : s.targetGas.toNat ≤ s.currentGas.toNat) : 0 ≤ s.deviation := by
  apply Int.tdiv_nonneg _ (Int.natCast_nonneg _)
  exact Int.mul_nonneg (by omega) (by decide)

theorem deviation_nonpos (hs : s.Valid p) (h : s.currentGas.toNat ≤ s.targetGas.toNat) :
    s.deviation ≤ 0 := by
  have hgap : ((s.currentGas.toNat - s.targetGas.toNat) * scale : Int) ≤ 0 :=
    Int.mul_nonpos_of_nonpos_of_nonneg (by omega) (by decide)
  have hle := Int.tdiv_le_tdiv (Int.natCast_pos.2 hs.target_pos) hgap
  rwa [Int.zero_tdiv] at hle

variable (hp : p.Valid) (hs : s.Valid p)

include hp hs in
theorem scale_le_adjustment (h : s.targetGas.toNat ≤ s.currentGas.toNat) :
    scale ≤ s.adjustment := by
  have hproduct := Int.mul_nonneg (hs.learningRate_nonneg hp) (deviation_nonneg h)
  have hchange := Int.tdiv_nonneg hproduct (Int.natCast_nonneg scale)
  unfold adjustment
  omega

include hp hs in
theorem adjustment_le_scale (h : s.currentGas.toNat ≤ s.targetGas.toNat) :
    s.adjustment ≤ scale := by
  have hproduct :=
    Int.mul_nonpos_of_nonneg_of_nonpos (hs.learningRate_nonneg hp) (deviation_nonpos hs h)
  have hchange := Int.tdiv_le_tdiv (c := scale) (by decide) hproduct
  rw [Int.zero_tdiv] at hchange
  unfold adjustment
  omega

include hp hs in
theorem le_blockFee (hbase : 0 ≤ s.baseFee.units) (h : s.targetGas.toNat ≤ s.currentGas.toNat) :
    s.baseFee.units ≤ s.blockFee :=
  Int.le_tdiv_of_mul_le (by decide)
    (Int.mul_le_mul_of_nonneg_left (scale_le_adjustment hp hs h) hbase)

include hp hs in
theorem blockFee_le (hbase : 0 ≤ s.baseFee.units) (h : s.currentGas.toNat ≤ s.targetGas.toNat) :
    s.blockFee ≤ s.baseFee.units := by
  have hproduct := Int.mul_le_mul_of_nonneg_left (adjustment_le_scale hp hs h) hbase
  calc s.blockFee
      ≤ (s.baseFee.units * scale).tdiv scale := Int.tdiv_le_tdiv (by decide) hproduct
    _ = s.baseFee.units := Int.mul_tdiv_cancel _ (by decide)

end Direction

section Error

def imbalance (s : Controller) : ℚ :=
  (s.currentGas.toNat - s.targetGas.toNat) / s.targetGas.toNat

def exactFee (s : Controller) (rate : Decimal) : ℚ :=
  s.baseFee.toRat * (1 + rate.toRat * s.imbalance)

def truncationError (s : Controller) (rate : Decimal) : ℚ :=
  (s.baseFee.toRat * (rate.toRat + 1) + 1) / scale

theorem imbalance_mul_scale (s : Controller) : s.imbalance * scale =
    ((s.currentGas.toNat - s.targetGas.toNat) * scale : Int) / (s.targetGas.toNat : Int) := by
  rw [imbalance]
  push_cast
  ring

theorem exactFee_mul_scale (s : Controller) (rate : Decimal) :
    s.exactFee rate * scale = s.baseFee.toRat * ((1 + rate.toRat * s.imbalance) * scale) := by
  rw [exactFee, mul_assoc]

theorem adjustment_sub_eq (s : Controller) :
    s.adjustment - (1 + s.learningRate.toRat * s.imbalance) * scale =
      (s.learningRate.units * s.deviation).tdiv scale -
        s.learningRate.toRat * (s.imbalance * scale) := by
  rw [adjustment]
  push_cast
  ring

variable (hp : p.Valid) (hs : s.Valid p)

include hs in
theorem abs_deviation_sub_lt : |s.deviation - s.imbalance * scale| < 1 := by
  rw [imbalance_mul_scale]
  exact abs_tdiv_sub_div_lt _ (Int.natCast_pos.2 hs.target_pos)

include hp hs in
theorem abs_adjustment_sub_lt :
    |s.adjustment - (1 + s.learningRate.toRat * s.imbalance) * scale| <
      s.learningRate.toRat + 1 := by
  have herror := abs_tdiv_mul_sub_lt (hs.learningRate_nonneg hp) (abs_deviation_sub_lt hs).le
  rw [mul_one] at herror
  rwa [adjustment_sub_eq]

include hp hs in
theorem abs_blockFee_sub_lt (hbase : 0 ≤ s.baseFee.units) :
    |s.blockFee - s.exactFee s.learningRate * scale| <
      s.baseFee.toRat * (s.learningRate.toRat + 1) + 1 := by
  rw [exactFee_mul_scale]
  exact abs_tdiv_mul_sub_lt hbase (abs_adjustment_sub_lt hp hs).le

include hp hs in
theorem blockFee_le_exactFee (hbase : 0 ≤ s.baseFee.units)
    (h : s.targetGas.toNat ≤ s.currentGas.toNat) :
    s.blockFee ≤ s.exactFee s.learningRate * scale := by
  have hgap : (0 : Int) ≤ (s.currentGas.toNat - s.targetGas.toNat) * scale :=
    Int.mul_nonneg (by omega) (by decide)
  have hdeviation := tdiv_le_div hgap (Int.natCast_pos.2 hs.target_pos)
  rw [← imbalance_mul_scale] at hdeviation
  have hchange := tdiv_mul_le_mul (hs.learningRate_nonneg hp) (deviation_nonneg h) hdeviation
  rw [← sub_nonpos, ← adjustment_sub_eq, sub_nonpos] at hchange
  have hfactor : 0 ≤ s.adjustment := Int.le_trans (by decide) (scale_le_adjustment hp hs h)
  rw [exactFee_mul_scale]
  exact tdiv_mul_le_mul hbase hfactor hchange

include hp hs in
theorem exactFee_lt_blockFee_add_one (hbase : 0 ≤ s.baseFee.units)
    (h : s.currentGas.toNat ≤ s.targetGas.toNat) :
    s.exactFee s.learningRate * scale < s.blockFee + 1 := by
  have hgap : ((s.currentGas.toNat - s.targetGas.toNat) * scale : Int) ≤ 0 :=
    Int.mul_nonpos_of_nonpos_of_nonneg (by omega) (by decide)
  have hdeviation := div_le_tdiv hgap (Int.natCast_pos.2 hs.target_pos)
  rw [← imbalance_mul_scale] at hdeviation
  have hchange := mul_le_tdiv_mul (hs.learningRate_nonneg hp) (deviation_nonpos hs h) hdeviation
  rw [← sub_nonneg, ← adjustment_sub_eq, sub_nonneg] at hchange
  rw [exactFee_mul_scale]
  exact mul_lt_tdiv_mul_add_one hbase hchange

end Error

section Floor

def unfloored (s : Controller) : Controller := { s with minBaseFee := ⟨-bound, by decide⟩ }

theorem Valid.unfloored (h : s.Valid p) : s.unfloored.Valid p :=
  { h with minBaseFee_le := s.baseFee.inRange.1 }

theorem exists_nextBaseFee_unfloored (hp : p.Valid) (h : s.Valid p) {fee : Decimal}
    (hfee : s.nextBaseFee p = .ok fee) : ∃ moved, s.unfloored.nextBaseFee p = .ok moved ∧
      moved.units = s.movedFee p ∧ fee = max moved s.minBaseFee := by
  obtain ⟨hchange, hadjustment, hnet, hproduct, hmoved, hunits⟩ :=
    (nextBaseFee_eq_ok_iff hp h).1 hfee
  refine ⟨⟨s.movedFee p, hmoved⟩, (nextBaseFee_eq_ok_iff hp h.unfloored).2
    ⟨hchange, hadjustment, hnet, hproduct, hmoved, ?_⟩, rfl, Decimal.ext ?_⟩
  · exact (Int.max_eq_left hmoved.1).symm
  · rw [hunits, units_max]

end Floor

section Step

variable {fee moved : Decimal} (hp : p.Valid) (hs : s.Valid p) (hbase : 0 ≤ s.baseFee.units)

include hp hs hbase in
theorem nextBaseFee_direction (hdelta : p.delta = .zero) (hfee : s.nextBaseFee p = .ok fee) :
    (s.targetGas.toNat ≤ s.currentGas.toNat → s.baseFee ≤ fee) ∧
      (s.currentGas.toNat ≤ s.targetGas.toNat → fee ≤ s.baseFee) := by
  have hunits := units_nextBaseFee_of_delta_zero hp hdelta hs hfee
  constructor
  · intro h
    rw [le_def, hunits]
    exact Int.le_trans (le_blockFee hp hs hbase h) (Int.le_max_left _ _)
  · intro h
    rw [le_def, hunits]
    exact Int.max_le.2 ⟨blockFee_le hp hs hbase h, hs.minBaseFee_le⟩

include hp hs hbase in
theorem abs_toRat_sub_exactFee_lt (hmoved : moved.units = s.blockFee) :
    |moved.toRat - s.exactFee s.learningRate| < s.truncationError s.learningRate := by
  have herror := abs_blockFee_sub_lt hp hs hbase
  rw [← hmoved, ← toRat_mul_scale, ← sub_mul, abs_mul, abs_of_pos scale_pos] at herror
  rwa [truncationError, lt_div_iff₀ scale_pos]

include hp hs hbase in
theorem toRat_le_exactFee (hmoved : moved.units = s.blockFee)
    (h : s.targetGas.toNat ≤ s.currentGas.toNat) : moved.toRat ≤ s.exactFee s.learningRate := by
  have hle := blockFee_le_exactFee hp hs hbase h
  rw [← hmoved, ← toRat_mul_scale] at hle
  exact le_of_mul_le_mul_right hle scale_pos

include hp hs hbase in
theorem exactFee_sub_lt_toRat (hmoved : moved.units = s.blockFee)
    (h : s.currentGas.toNat ≤ s.targetGas.toNat) :
    s.exactFee s.learningRate - 1 / scale < moved.toRat := by
  have hlt := exactFee_lt_blockFee_add_one hp hs hbase h
  rw [← hmoved, ← lt_div_iff₀ scale_pos, add_div] at hlt
  exact sub_lt_iff_lt_add.2 hlt

end Step

/-- With no weight on the net utilization the base fee moves in the direction of the block, and as
exactly as its digits allow.  It stays the same at the target, and elsewhere only at its floor or
where the exact change is within what truncation takes. -/
theorem baseFee_moves_with_block (hp : p.validate = .ok ()) (hs : s.validate p = .ok ())
    (hdelta : p.delta = .zero) (hbase : .zero ≤ s.baseFee)
    (hnext : s.nextBlock p = .ok (next, update)) :
    (update.blockGas = s.currentGas ∧ next.baseFee = update.baseFee) ∧
      (s.targetGas < s.currentGas → s.baseFee ≤ update.baseFee) ∧
      (s.currentGas < s.targetGas → update.baseFee ≤ s.baseFee) ∧
      (s.currentGas = s.targetGas → update.baseFee = s.baseFee) ∧
      (update.baseFee = s.baseFee → s.baseFee = s.minBaseFee ∨
        |s.baseFee.toRat - s.exactFee update.learningRate| <
          s.truncationError update.learningRate) ∧
      ∃ moved,
        nextBaseFee p (unfloored { s with learningRate := update.learningRate }) = .ok moved ∧
        update.baseFee = max moved s.minBaseFee ∧
        |moved.toRat - s.exactFee update.learningRate| < s.truncationError update.learningRate ∧
        (s.targetGas < s.currentGas → moved.toRat ≤ s.exactFee update.learningRate) ∧
        (s.currentGas < s.targetGas →
          s.exactFee update.learningRate - 1 / scale < moved.toRat) := by
  have hp := Params.validate_eq_ok_iff.1 hp
  have hs := validate_eq_ok_iff.1 hs
  obtain ⟨hrated, hfee, rfl⟩ := rated_of_nextBlock hp hs hnext
  obtain ⟨hrises, hfalls⟩ := nextBaseFee_direction hp hrated hbase hdelta hfee
  obtain ⟨moved, hmoved, hunits, hfloored⟩ := exists_nextBaseFee_unfloored hp hrated hfee
  rw [movedFee_of_delta_zero hdelta] at hunits
  change update.baseFee = max moved s.minBaseFee at hfloored
  have hnear := abs_toRat_sub_exactFee_lt hp hrated hbase hunits
  have hrise := toRat_le_exactFee hp hrated hbase hunits
  have hfall := exactFee_sub_lt_toRat hp hrated hbase hunits
  have habove (h : s.targetGas < s.currentGas) : s.targetGas.toNat ≤ s.currentGas.toNat :=
    Nat.le_of_lt (UInt64.lt_iff_toNat_lt.1 h)
  have hbelow (h : s.currentGas < s.targetGas) : s.currentGas.toNat ≤ s.targetGas.toNat :=
    Nat.le_of_lt (UInt64.lt_iff_toNat_lt.1 h)
  refine ⟨⟨?_, rfl⟩, fun h => hrises (habove h), fun h => hfalls (hbelow h), ?_, ?_,
    moved, hmoved, hfloored, hnear, fun h => hrise (habove h), fun h => hfall (hbelow h)⟩
  · obtain ⟨rate, fee, -, -, -, -, rfl⟩ := nextBlock_eq_ok_iff.1 hnext
    rfl
  · intro h
    have hsame : s.currentGas.toNat = s.targetGas.toNat := congrArg UInt64.toNat h
    exact Decimal.ext
      (Int.le_antisymm (hfalls (Nat.le_of_eq hsame)) (hrises (Nat.le_of_eq hsame.symm)))
  · intro hsame
    refine or_iff_not_imp_left.2 fun hfloor => ?_
    have hunfloored : moved = s.baseFee := by
      rw [hsame, Decimal.ext_iff, units_max] at hfloored
      rw [Decimal.ext_iff] at hfloor ⊢
      omega
    rwa [← hunfloored]

theorem baseFee_moves_with_steep_block :
    let p : Params := { Params.eip1559 with
      minBaseFee := .zero, minLearningRate := .ofUInt64 3, maxLearningRate := .ofUInt64 3 }
    let s : Controller := { new p with window := [1], baseFee := .ofAtoms 1000000007 }
    p.validate = .ok () ∧ s.validate p = .ok () ∧ p.delta = .zero ∧ .zero ≤ s.baseFee ∧
      ∃ next update, s.nextBlock p = .ok (next, update) ∧ update.baseFee ≤ s.baseFee ∧
        ∃ moved,
          nextBaseFee p (unfloored { s with learningRate := update.learningRate }) = .ok moved ∧
          s.exactFee update.learningRate - 1 / scale < moved.toRat := by
  intro p s
  have hp : p.validate = .ok () := toOption_eq_some_iff.1 (by decide +kernel)
  have hs : s.validate p = .ok () := toOption_eq_some_iff.1 (by decide +kernel)
  obtain ⟨next, update, hnext, -⟩ := exists_nextBlock_of_fit (Params.validate_eq_ok_iff.1 hp)
    (validate_eq_ok_iff.1 hs) (by decide +kernel)
  obtain ⟨-, -, hfalls, -, -, moved, hmoved, -, -, -, hfall⟩ :=
    baseFee_moves_with_block hp hs rfl (by decide) hnext
  have hbelow : s.currentGas < s.targetGas := by decide
  exact ⟨hp, hs, rfl, by decide, next, update, hnext, hfalls hbelow, moved, hmoved, hfall hbelow⟩

end Controller

end GasMarket
