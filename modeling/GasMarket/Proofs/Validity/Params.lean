import GasMarket.Params.Violation
import GasMarket.Proofs.Success

namespace GasMarket.Params

structure Valid (p : Params) : Prop where
  window_pos : 0 < p.window.toNat
  window_le : p.window.toNat ≤ maxWindow.toNat
  alpha_nonneg : 0 ≤ p.alpha.units
  beta_unit : InUnitInterval p.beta
  theta_unit : InUnitInterval p.theta
  delta_nonneg : 0 ≤ p.delta.units
  target_pos : 0 < p.targetGas.toNat
  target_le : p.targetGas.toNat ≤ p.maxGas.toNat
  max_le : p.maxGas.toNat ≤ maxRatio * p.targetGas.toNat
  minBaseFee_nonneg : 0 ≤ p.minBaseFee.units
  minLearningRate_nonneg : 0 ≤ p.minLearningRate.units
  learningRates_le : p.minLearningRate.units ≤ p.maxLearningRate.units
  feeDenom_isDenom : isDenom p.feeDenom.toList

theorem Valid.maxLearningRate_nonneg {p : Params} (h : p.Valid) : 0 ≤ p.maxLearningRate.units :=
  Int.le_trans h.minLearningRate_nonneg h.learningRates_le

theorem violation?_eq_none_iff {p : Params} : p.violation? = none ↔ p.Valid := by
  simp only [violation?, check_eq_none_iff, Decimal.IsNegative, Decimal.lt_def, ← UInt64.toNat_inj,
    UInt64.toNat_zero, UInt64.lt_iff_toNat_lt, Decidable.not_not, and_true, Nat.not_lt, Int.not_lt]
  constructor
  · rintro ⟨hw, hw', ha, hb, ht, hd, hg, hg', hm, hf, hl, -, hlu, -, hden⟩
    exact ⟨by omega, hw', ha, hb, ht, hd, by omega, hg', hm, hf, hl, hlu, hden⟩
  · intro h
    have hden : p.feeDenom ≠ "" := by
      intro he
      have := h.feeDenom_isDenom
      simp [he, isDenom] at this
    exact ⟨by have := h.window_pos; omega, h.window_le, h.alpha_nonneg, h.beta_unit, h.theta_unit,
      h.delta_nonneg, by have := h.target_pos; omega, h.target_le, h.max_le, h.minBaseFee_nonneg,
      h.minLearningRate_nonneg, h.maxLearningRate_nonneg, h.learningRates_le, hden,
      h.feeDenom_isDenom⟩

theorem validate_eq_ok_iff {p : Params} : p.validate = .ok () ↔ p.Valid := by
  rw [← violation?_eq_none_iff, validate]
  cases p.violation? <;> simp

theorem valid_ofCalibration (c : Calibration) : (ofCalibration c).Valid := by
  apply violation?_eq_none_iff.1
  cases c with
  | eip1559 => decide +kernel
  | aimd => decide +kernel

theorem Valid.withTarget {p : Params} (h : p.Valid) {target : UInt64} (htarget : 0 < target) :
    (p.withTarget target).Valid := by
  have hpos : 0 < target.toNat := UInt64.lt_iff_toNat_lt.1 htarget
  have hlt := target.toNat_lt
  refine { h with target_pos := hpos, target_le := ?_, max_le := ?_ }
  · change target.toNat ≤ (saturate (2 * target.toNat)).toNat
    rw [toNat_saturate]
    unfold UInt64.size
    omega
  · change (saturate (2 * target.toNat)).toNat ≤ maxRatio * target.toNat
    rw [toNat_saturate]
    unfold maxRatio
    omega

theorem valid_of_validateUnder {p : Params} {cap : Option UInt64}
    (h : p.validateUnder cap = .ok ()) : p.Valid := by
  apply validate_eq_ok_iff.1
  cases hv : p.validate with
  | ok u => rfl
  | error e => simp [validateUnder, hv, bind, Except.bind] at h

theorem maxGas_le_of_validateUnder {p : Params} {cap : UInt64}
    (h : p.validateUnder (some cap) = .ok ()) : p.maxGas ≤ cap := by
  obtain ⟨-, -, h⟩ := bind_eq_ok_iff.1 h
  by_cases hcap : cap < p.maxGas
  · simp [hcap, throw, throwThe, MonadExceptOf.throw] at h
  · exact UInt64.not_lt.1 hcap

theorem Valid.validateUnder {p : Params} (h : p.Valid) {gasCap : Option UInt64}
    (hcap : ∀ cap, gasCap = some cap → p.maxGas ≤ cap) : p.validateUnder gasCap = .ok () := by
  refine bind_eq_ok_iff.2 ⟨(), validate_eq_ok_iff.2 h, ?_⟩
  cases gasCap with
  | none => rfl
  | some cap => exact if_neg (UInt64.not_lt.2 (hcap cap rfl))

end GasMarket.Params
