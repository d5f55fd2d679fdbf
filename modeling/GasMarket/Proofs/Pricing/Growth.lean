import GasMarket.Proofs.Pricing.Update
import GasMarket.Proofs.Validity.Epoch

/-! How far one block takes the base fee.  The fee is multiplied by something between zero and a
few, and that product is the only number that can leave the range. -/

namespace GasMarket

open Decimal

structure Params.Gentle (p : Params) : Prop where
  valid : p.Valid
  alpha_le : p.alpha.units ≤ scale
  delta_le : p.delta.units ≤ scale
  maxLearningRate_le : p.maxLearningRate.units ≤ scale

structure Params.Calibrated (p : Params) : Prop where
  gentle : p.Gentle
  window_le : p.window.toNat ≤ 8
  delta_le : 2 * p.delta.units ≤ scale
  maxLearningRate_le : 2 * p.maxLearningRate.units ≤ scale
  maxGas_le : p.maxGas.toNat ≤ 2 * p.targetGas.toNat
  minBaseFee_le : p.minBaseFee.units ≤ 2 ^ 127
  enabled : p.enabled

theorem Params.calibrated_ofCalibration (c : Calibration) : (ofCalibration c).Calibrated := by
  have hvalid := valid_ofCalibration c
  cases c with
  | eip1559 => exact ⟨⟨hvalid, by decide, by decide, by decide⟩, by decide, by decide, by decide,
      by decide, by decide, rfl⟩
  | aimd => exact ⟨⟨hvalid, by decide, by decide, by decide⟩, by decide, by decide, by decide,
      by decide, by decide, rfl⟩

theorem Params.Calibrated.withTarget {p : Params} (hp : p.Calibrated) {target : UInt64}
    (htarget : 0 < target) : (p.withTarget target).Calibrated where
  gentle := { hp.gentle with valid := hp.gentle.valid.withTarget htarget }
  window_le := hp.window_le
  delta_le := hp.delta_le
  maxLearningRate_le := hp.maxLearningRate_le
  maxGas_le := by
    change (saturate (2 * target.toNat)).toNat ≤ 2 * target.toNat
    rw [toNat_saturate]
    exact Nat.min_le_left _ _
  minBaseFee_le := hp.minBaseFee_le
  enabled := hp.enabled

namespace Controller

variable {p : Params} {s : Controller}

section Adjustment

theorem Valid.learningRate_nonneg (hp : p.Valid) (h : s.Valid p) : 0 ≤ s.learningRate.units :=
  Int.le_trans hp.minLearningRate_nonneg h.minLearningRate_le

theorem neg_scale_le_deviation (h : s.Valid p) : -scale ≤ s.deviation := by
  have htarget : (0 : Int) < s.targetGas.toNat := Int.natCast_pos.2 h.target_pos
  calc -(scale : Int)
      = (-scale * s.targetGas.toNat : Int).tdiv s.targetGas.toNat :=
        (Int.mul_tdiv_cancel _ (Int.ne_of_gt htarget)).symm
    _ ≤ s.deviation := by
        apply Int.tdiv_le_tdiv htarget
        unfold scale
        omega

theorem deviation_le (h : s.Valid p) {k : Nat}
    (hmax : s.maxGas.toNat ≤ (k + 1) * s.targetGas.toNat) : s.deviation ≤ k * scale := by
  have htarget : (0 : Int) < s.targetGas.toNat := Int.natCast_pos.2 h.target_pos
  have hgas : (s.currentGas.toNat - s.targetGas.toNat : Int) ≤ k * s.targetGas.toNat := by
    have hle := Nat.le_trans h.currentGas_le hmax
    rw [Nat.succ_mul] at hle
    omega
  calc s.deviation
      ≤ (k * scale * s.targetGas.toNat : Int).tdiv s.targetGas.toNat := by
        apply Int.tdiv_le_tdiv htarget
        rw [Int.mul_right_comm]
        exact Int.mul_le_mul_of_nonneg_right hgas (by decide)
    _ = k * scale := Int.mul_tdiv_cancel _ (Int.ne_of_gt htarget)

theorem le_adjustment (hp : p.Valid) (h : s.Valid p) :
    scale - p.maxLearningRate.units ≤ s.adjustment := by
  have hrate := h.learningRate_nonneg hp
  have hle := h.le_maxLearningRate
  have hchange : -s.learningRate.units ≤ (s.learningRate.units * s.deviation).tdiv scale := by
    calc -s.learningRate.units
        = (-s.learningRate.units * scale).tdiv scale := (Int.mul_tdiv_cancel _ (by decide)).symm
      _ ≤ (s.learningRate.units * s.deviation).tdiv scale := by
          apply Int.tdiv_le_tdiv (by decide)
          rw [Int.neg_mul, ← Int.mul_neg]
          exact Int.mul_le_mul_of_nonneg_left (neg_scale_le_deviation h) hrate
  unfold adjustment
  omega

theorem adjustment_le (hp : p.Valid) (h : s.Valid p) {k : Nat}
    (hmax : s.maxGas.toNat ≤ (k + 1) * s.targetGas.toNat) :
    s.adjustment ≤ scale + p.maxLearningRate.units * k := by
  have hrate := h.learningRate_nonneg hp
  have hchange : (s.learningRate.units * s.deviation).tdiv scale ≤ p.maxLearningRate.units * k := by
    calc (s.learningRate.units * s.deviation).tdiv scale
        ≤ (s.learningRate.units * k * scale).tdiv scale := by
          apply Int.tdiv_le_tdiv (by decide)
          rw [Int.mul_assoc]
          exact Int.mul_le_mul_of_nonneg_left (deviation_le h hmax) hrate
      _ = s.learningRate.units * k := Int.mul_tdiv_cancel _ (by decide)
      _ ≤ p.maxLearningRate.units * k :=
          Int.mul_le_mul_of_nonneg_right h.le_maxLearningRate (Int.natCast_nonneg k)
  unfold adjustment
  omega

end Adjustment

section Gentle

theorem natAbs_learningRate_le (hp : p.Gentle) (h : s.Valid p) :
    s.learningRate.units.natAbs ≤ scale := by
  have := h.learningRate_nonneg hp.valid
  have := h.le_maxLearningRate
  have := hp.maxLearningRate_le
  omega

theorem natAbs_change_le (hp : p.Gentle) (h : s.Valid p) :
    (s.learningRate.units * s.deviation).natAbs ≤ 2 ^ 184 := by
  rw [Int.natAbs_mul]
  calc s.learningRate.units.natAbs * s.deviation.natAbs
      ≤ scale * 2 ^ 124 := Nat.mul_le_mul (natAbs_learningRate_le hp h) s.natAbs_deviation_le
    _ ≤ 2 ^ 184 := by decide

theorem natAbs_netTerm_le (hp : p.Gentle) (h : s.Valid p) : (s.netTerm p).natAbs ≤ 2 ^ 140 := by
  have hdelta : p.delta.units.natAbs ≤ scale := by
    have := hp.valid.delta_nonneg
    have := hp.delta_le
    omega
  rw [netTerm, Int.natAbs_mul]
  calc s.netUtilization.natAbs * p.delta.units.natAbs
      ≤ 2 ^ 80 * scale := Nat.mul_le_mul (h.natAbs_netUtilization_le hp.valid) hdelta
    _ ≤ 2 ^ 140 := by decide

theorem exists_nextLearningRate (hp : p.Gentle) (h : s.Valid p) :
    ∃ rate, s.nextLearningRate p = .ok rate ∧ rate.units = s.nextRate p := by
  have hrate := natAbs_learningRate_le hp h
  have hgrown : InRange (s.learningRate.units + p.alpha.units) := by
    have := hp.valid.alpha_nonneg
    have := hp.alpha_le
    unfold InRange bound
    unfold scale at *
    omega
  have hdecayed : InRange (s.learningRate.units * p.beta.units) := by
    apply inRange_of_natAbs_le (k := scale * scale) _ (by decide)
    have hbeta : p.beta.units.natAbs ≤ scale := by
      have hle : p.beta.units ≤ one.units := hp.valid.beta_unit.2
      have hnonneg : ¬ p.beta.units < 0 := hp.valid.beta_unit.1
      rw [units_one] at hle
      omega
    rw [Int.natAbs_mul]
    exact Nat.mul_le_mul hrate hbeta
  have hok : ∃ rate, s.nextLearningRate p = .ok rate := by
    rw [nextLearningRate_eq hp.valid h]
    split
    · exact ⟨_, map_eq_ok_iff.2 ⟨⟨_, hgrown⟩, add_eq_ok_iff.2 rfl, rfl⟩⟩
    · exact ⟨_, map_eq_ok_iff.2
        ⟨⟨_, hdecayed.tdiv (by decide)⟩, mul_eq_ok_iff.2 ⟨hdecayed, rfl⟩, rfl⟩⟩
  obtain ⟨rate, hok⟩ := hok
  exact ⟨rate, hok, ((nextLearningRate_eq_ok_iff hp.valid h).1 hok).2⟩

theorem adjustment_nonneg (hp : p.Gentle) (h : s.Valid p) : 0 ≤ s.adjustment := by
  have := le_adjustment hp.valid h
  have := hp.maxLearningRate_le
  omega

theorem natAbs_adjustment_le (hp : p.Gentle) (h : s.Valid p) : s.adjustment.natAbs ≤ 2 ^ 185 := by
  have hchange : ((s.learningRate.units * s.deviation).tdiv scale).natAbs ≤ 2 ^ 184 :=
    Nat.le_trans (Int.natAbs_tdiv_le_natAbs _ _) (natAbs_change_le hp h)
  unfold adjustment
  generalize (s.learningRate.units * s.deviation).tdiv scale = change at hchange ⊢
  unfold scale
  omega

theorem exists_nextBaseFee_iff (hp : p.Gentle) (h : s.Valid p) (hbase : 0 ≤ s.baseFee.units) :
    (∃ fee, s.nextBaseFee p = .ok fee) ↔ s.baseFee.units * s.adjustment < bound := by
  have hproduct : 0 ≤ s.baseFee.units * s.adjustment :=
    Int.mul_nonneg hbase (adjustment_nonneg hp h)
  constructor
  · rintro ⟨fee, hfee⟩
    obtain ⟨-, -, -, hrange, -⟩ := (nextBaseFee_eq_ok_iff hp.valid h).1 hfee
    exact hrange.2
  · intro hlt
    have hrange : InRange (s.baseFee.units * s.adjustment) := by
      unfold InRange
      have : 0 < bound := by decide
      omega
    have hterm : InRange (scale * s.netUtilization * p.delta.units) := by
      have hnet := natAbs_netTerm_le hp h
      rw [Int.mul_assoc]
      change InRange (scale * s.netTerm p)
      unfold InRange bound scale
      omega
    have hmoved : InRange (s.movedFee p) := by
      have hnet := natAbs_netTerm_le hp h
      unfold movedFee
      rw [Int.tdiv_eq_ediv_of_nonneg hproduct]
      unfold InRange bound scale at *
      omega
    have hfee : InRange (max (s.movedFee p) s.minBaseFee.units) := by
      have := s.minBaseFee.inRange
      unfold InRange at *
      omega
    exact ⟨⟨_, hfee⟩, (nextBaseFee_eq_ok_iff hp.valid h).2
      ⟨inRange_of_natAbs_le (natAbs_change_le hp h) (by decide),
        inRange_of_natAbs_le (natAbs_adjustment_le hp h) (by decide), hterm, hrange, hmoved, rfl⟩⟩

def factor (p : Params) (s : Controller) : Int := scale + (s.nextRate p * s.deviation).tdiv scale

theorem adjustment_rated {rate : Decimal} (hrate : rate.units = s.nextRate p) :
    adjustment { s with learningRate := rate } = s.factor p := by
  rw [factor, ← hrate]
  rfl

theorem exists_nextBlock_iff (hp : p.Gentle) (h : s.Valid p) (hbase : 0 ≤ s.baseFee.units) :
    (∃ pair, s.nextBlock p = .ok pair) ↔ s.baseFee.units * s.factor p < bound := by
  obtain ⟨rate, hrate, hunits⟩ := exists_nextLearningRate hp h
  have hfee := exists_nextBaseFee_iff hp (h.rated hp.valid hrate) hbase
  rw [adjustment_rated hunits] at hfee
  rw [← hfee]
  constructor
  · rintro ⟨⟨next, update⟩, hnext⟩
    obtain ⟨rate', fee, hrate', hfee, -⟩ := nextBlock_eq_ok_iff.1 hnext
    rw [hrate] at hrate'
    cases hrate'
    exact ⟨fee, hfee⟩
  · rintro ⟨fee, hfee⟩
    have hwindow : s.window ≠ [] := List.ne_nil_of_length_pos (Nat.zero_lt_of_lt h.index_lt)
    exact ⟨_, nextBlock_eq_ok_iff.2 ⟨rate, fee, hrate, hfee, hwindow, rfl, rfl⟩⟩

end Gentle

section Calibrated

theorem Matches.baseFee_nonneg (hp : p.Valid) (h : s.Valid p) (hmatched : s.Matches p) :
    0 ≤ s.baseFee.units := by
  have hfloor := h.minBaseFee_le
  rw [hmatched.minBaseFee] at hfloor
  exact Int.le_trans hp.minBaseFee_nonneg hfloor

/-- The base fee above a level at which half of it outweighs any net term. -/
def height (s : Controller) : Int := s.baseFee.units + 2 ^ 127

theorem Matches.rated (h : s.Matches p) (rate : Decimal) :
    Matches p { s with learningRate := rate } :=
  ⟨h.minBaseFee, h.targetGas, h.maxGas⟩

theorem Matches.maxGas_le (hp : p.Calibrated) (h : s.Matches p) :
    s.maxGas.toNat ≤ 2 * s.targetGas.toNat := by
  rw [h.maxGas, h.targetGas]
  exact hp.maxGas_le

theorem Matches.adjustment_le (hp : p.Calibrated) (h : s.Valid p) (hmatched : s.Matches p) :
    2 * s.adjustment ≤ 3 * scale := by
  have hle := Controller.adjustment_le (k := 1) hp.gentle.valid h (hmatched.maxGas_le hp)
  have := hp.maxLearningRate_le
  omega

theorem factor_le (hp : p.Calibrated) (h : s.Valid p) (hmatched : s.Matches p) :
    s.factor p ≤ 2 ^ 64 := by
  obtain ⟨rate, hrate, hunits⟩ := exists_nextLearningRate hp.gentle h
  have hle := (hmatched.rated rate).adjustment_le hp (h.rated hp.gentle.valid hrate)
  rw [adjustment_rated hunits] at hle
  unfold scale at hle
  omega

theorem netTerm_le (hp : p.Calibrated) (h : s.Valid p) : s.netTerm p ≤ 2 ^ 126 := by
  have hdelta := hp.gentle.valid.delta_nonneg
  have hnet : s.netUtilization ≤ 2 ^ 67 := by
    have hwindow : s.window.length ≤ 8 := by
      rw [h.length_window]
      exact hp.window_le
    have hcapacity : s.maxGas.toNat * s.window.length ≤ 2 ^ 64 * 8 :=
      Nat.mul_le_mul (Nat.le_of_lt s.maxGas.toNat_lt) hwindow
    calc s.netUtilization
        ≤ s.maxGas.toNat * s.window.length := h.netUtilization_le
      _ ≤ 2 ^ 67 := by exact_mod_cast hcapacity
  calc s.netTerm p
      ≤ 2 ^ 67 * p.delta.units := Int.mul_le_mul_of_nonneg_right hnet hdelta
    _ ≤ 2 ^ 126 := by
        have := hp.delta_le
        unfold scale at this
        omega

theorem height_le (hp : p.Calibrated) (h : s.Valid p) (hmatched : s.Matches p) {fee : Decimal}
    (hfee : s.nextBaseFee p = .ok fee) : 2 * height { s with baseFee := fee } ≤ 3 * s.height := by
  have hbase := hmatched.baseFee_nonneg hp.gentle.valid h
  have hnet := netTerm_le hp h
  have hfloor := h.minBaseFee_le
  have hproduct : 2 * (s.baseFee.units * s.adjustment) ≤ s.baseFee.units * (3 * scale) := by
    rw [Int.mul_left_comm]
    exact Int.mul_le_mul_of_nonneg_left (hmatched.adjustment_le hp h) hbase
  have hmoved : (s.baseFee.units * s.adjustment).tdiv scale * 2 ≤ s.baseFee.units * 3 := by
    rw [Int.tdiv_eq_ediv_of_nonneg (Int.mul_nonneg hbase (adjustment_nonneg hp.gentle h))]
    unfold scale at *
    omega
  obtain ⟨-, -, -, -, -, hunits⟩ := (nextBaseFee_eq_ok_iff hp.gentle.valid h).1 hfee
  unfold height
  change 2 * (fee.units + 2 ^ 127) ≤ _
  rw [hunits, movedFee]
  omega

theorem height_nextBlock_le (hp : p.Calibrated) (h : s.Valid p) (hmatched : s.Matches p)
    {next : Controller} {update : BlockUpdate} (hnext : s.nextBlock p = .ok (next, update)) :
    2 * next.height ≤ 3 * s.height := by
  obtain ⟨rate, fee, hrate, hfee, -, rfl, -⟩ := nextBlock_eq_ok_iff.1 hnext
  exact height_le hp (h.rated hp.gentle.valid hrate) (hmatched.rated rate) hfee

theorem mul_lt_bound {factor : Int} (hbase : 0 ≤ s.baseFee.units) (hlt : s.baseFee.units < 2 ^ 191)
    (hfactor : factor ≤ 2 ^ 64) : s.baseFee.units * factor < bound := by
  calc s.baseFee.units * factor
      ≤ s.baseFee.units * 2 ^ 64 := Int.mul_le_mul_of_nonneg_left hfactor hbase
    _ < bound := by
        unfold bound
        omega

end Calibrated

end Controller

end GasMarket
