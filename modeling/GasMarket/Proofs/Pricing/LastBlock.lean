import GasMarket.Proofs.Pricing.Monotone
import GasMarket.Proofs.Pricing.Reference

namespace GasMarket

open Decimal

namespace Controller

variable {p : Params} {s s' next next' : Controller} {update update' : BlockUpdate}

def blockFee (s : Controller) : Int := (s.baseFee.units * s.adjustment).tdiv scale

theorem movedFee_eq (p : Params) (s : Controller) : s.movedFee p = s.blockFee + s.netTerm p := rfl

theorem movedFee_of_delta_zero (hdelta : p.delta = .zero) (s : Controller) :
    s.movedFee p = s.blockFee := by
  rw [movedFee_eq, netTerm, hdelta, units_zero, Int.mul_zero, Int.add_zero]

theorem rated_of_nextBlock (hp : p.Valid) (h : s.Valid p)
    (hnext : s.nextBlock p = .ok (next, update)) :
    Valid p { s with learningRate := update.learningRate } ∧
      nextBaseFee p { s with learningRate := update.learningRate } = .ok update.baseFee ∧
      next = s.advanced update.learningRate update.baseFee := by
  obtain ⟨rate, fee, hrate, hfee, -, rfl, rfl⟩ := nextBlock_eq_ok_iff.1 hnext
  exact ⟨h.rated hp hrate, hfee, rfl⟩

theorem units_nextBaseFee (hp : p.Valid) (h : s.Valid p) {fee : Decimal}
    (hfee : s.nextBaseFee p = .ok fee) :
    fee.units = max (s.blockFee + s.netTerm p) s.minBaseFee.units := by
  obtain ⟨-, -, -, -, -, hunits⟩ := (nextBaseFee_eq_ok_iff hp h).1 hfee
  rw [hunits, movedFee_eq]

theorem units_nextBaseFee_of_delta_zero (hp : p.Valid) (hdelta : p.delta = .zero) (h : s.Valid p)
    {fee : Decimal} (hfee : s.nextBaseFee p = .ok fee) :
    fee.units = max s.blockFee s.minBaseFee.units := by
  rw [units_nextBaseFee hp h hfee, ← movedFee_eq, movedFee_of_delta_zero hdelta]

/-- Alike in all that the end of a block reads but the gas of the other blocks of the window. -/
structure SameBlock (s s' : Controller) : Prop where
  baseFee : s.baseFee = s'.baseFee
  minBaseFee : s.minBaseFee = s'.minBaseFee
  learningRate : s.learningRate = s'.learningRate
  targetGas : s.targetGas = s'.targetGas
  maxGas : s.maxGas = s'.maxGas
  currentGas : s.currentGas = s'.currentGas

theorem SameBlock.blockFee_eq (h : s.SameBlock s') : s.blockFee = s'.blockFee := by
  unfold blockFee adjustment deviation
  rw [h.baseFee, h.learningRate, h.targetGas, h.currentGas]

theorem SameBlock.netTerm_eq_iff (h : s.SameBlock s') (hs : s.Valid p) (hs' : s'.Valid p) :
    s.netTerm p = s'.netTerm p ↔ p.delta = .zero ∨ s.totalGas = s'.totalGas := by
  have hlength : s.window.length = s'.window.length := by
    rw [hs.length_window, hs'.length_window]
  rw [netTerm, netTerm, Decimal.ext_iff, units_zero]
  by_cases hdelta : p.delta.units = 0
  · rw [hdelta, Int.mul_zero, Int.mul_zero]
    exact iff_of_true rfl (.inl rfl)
  · rw [Int.mul_eq_mul_right_iff hdelta, netUtilization, netUtilization, h.targetGas, hlength,
      Int.sub_left_inj, Int.natCast_inj, or_iff_right hdelta]

theorem learningRate_of_constant (hp : p.Valid) (hconst : p.calibration = .eip1559) (h : s.Valid p)
    (hnext : s.nextBlock p = .ok (next, update)) : update.learningRate = s.learningRate := by
  obtain ⟨rate, fee, hrate, -, -, -, rfl⟩ := nextBlock_eq_ok_iff.1 hnext
  exact nextLearningRate_of_constant hp hconst h hrate

theorem totalGas_of_single (h : s.Valid p) (hwindow : p.window = 1) :
    s.totalGas = s.currentGas.toNat := by
  have hlength : s.recent.length = 1 := by
    rw [length_recent, h.length_window, hwindow, UInt64.toNat_one]
  rw [recent_eq_cons h.index_lt, List.length_cons, Nat.add_eq_right,
    List.length_eq_zero_iff] at hlength
  rw [totalGas_eq_sum_recent, recent_eq_cons h.index_lt, hlength, List.sum_singleton]

/-- Under a constant learning rate two windows with the same last block lead to one base fee exactly
if the net utilization has no weight, or is the same, or both fees are at the floor; so with no
weight, or with a window of one block, nothing but the last block matters. -/
theorem baseFee_eq_iff_of_sameBlock (hp : p.validate = .ok ()) (hconst : p.calibration = .eip1559)
    (hs : s.validate p = .ok ()) (hs' : s'.validate p = .ok ()) (h : s.SameBlock s')
    (hnext : s.nextBlock p = .ok (next, update)) (hnext' : s'.nextBlock p = .ok (next', update')) :
    (update.learningRate = s.learningRate ∧ update'.learningRate = s.learningRate) ∧
      (update.baseFee = update'.baseFee ↔ p.delta = .zero ∨ s.totalGas = s'.totalGas ∨
        (update.baseFee = s.minBaseFee ∧ update'.baseFee = s.minBaseFee)) ∧
      (p.delta = .zero ∨ p.window = 1 → update.baseFee = update'.baseFee) := by
  have hp := Params.validate_eq_ok_iff.1 hp
  have hs := validate_eq_ok_iff.1 hs
  have hs' := validate_eq_ok_iff.1 hs'
  have hrate := learningRate_of_constant hp hconst hs hnext
  have hrate' := learningRate_of_constant hp hconst hs' hnext'
  obtain ⟨hrated, hfee, -⟩ := rated_of_nextBlock hp hs hnext
  obtain ⟨hrated', hfee', -⟩ := rated_of_nextBlock hp hs' hnext'
  rw [hrate] at hrated hfee
  rw [hrate'] at hrated' hfee'
  have hunits := units_nextBaseFee hp hs hfee
  have hunits' := units_nextBaseFee hp hs' hfee'
  rw [← h.blockFee_eq, ← h.minBaseFee] at hunits'
  have hiff : update.baseFee = update'.baseFee ↔ p.delta = .zero ∨ s.totalGas = s'.totalGas ∨
      (update.baseFee = s.minBaseFee ∧ update'.baseFee = s.minBaseFee) := by
    rw [← or_assoc, ← h.netTerm_eq_iff hs hs']
    simp only [Decimal.ext_iff]
    omega
  refine ⟨⟨hrate, hrate'.trans h.learningRate.symm⟩, hiff, ?_⟩
  rintro (hdelta | hwindow)
  · exact hiff.2 (.inl hdelta)
  · refine hiff.2 (.inr (.inl ?_))
    rw [totalGas_of_single hs hwindow, totalGas_of_single hs' hwindow, h.currentGas]

def weighed (window : UInt64) : Params :=
  { Params.eip1559 with window, delta := .ofAtoms 500000000000000000 }

def doubled (p : Params) (window : List UInt64) (index : UInt64) : Controller :=
  { new p with window, index, baseFee := .ofUInt64 2000000000 }

theorem baseFee_eq_of_sameBlock_rearranged :
    let s := doubled (weighed 3) [20000000, 10000000, 0] 0
    let s' := doubled (weighed 3) [4000000, 20000000, 6000000] 1
    ∃ next update next' update', s.nextBlock (weighed 3) = .ok (next, update) ∧
      s'.nextBlock (weighed 3) = .ok (next', update') ∧ update.baseFee = update'.baseFee := by
  intro s s'
  have hp : (weighed 3).validate = .ok () := toOption_eq_some_iff.1 (by decide +kernel)
  have hs : s.validate (weighed 3) = .ok () := toOption_eq_some_iff.1 (by decide +kernel)
  have hs' : s'.validate (weighed 3) = .ok () := toOption_eq_some_iff.1 (by decide +kernel)
  have hp' := Params.validate_eq_ok_iff.1 hp
  obtain ⟨next, update, hnext, -⟩ :=
    exists_nextBlock_of_fit hp' (validate_eq_ok_iff.1 hs) (by decide +kernel)
  obtain ⟨next', update', hnext', -⟩ :=
    exists_nextBlock_of_fit hp' (validate_eq_ok_iff.1 hs') (by decide +kernel)
  obtain ⟨-, hfee, -⟩ := baseFee_eq_iff_of_sameBlock hp (by decide) hs hs'
    ⟨rfl, rfl, rfl, rfl, rfl, rfl⟩ hnext hnext'
  exact ⟨next, update, next', update', hnext, hnext', hfee.2 (.inr (.inl (by decide +kernel)))⟩

theorem baseFee_lt_of_sameBlock_fuller :
    let s := doubled (weighed 2) [15000000, 0] 0
    let s' := doubled (weighed 2) [15000000, 30000000] 0
    (weighed 2).validate = .ok () ∧ (weighed 2).calibration = .eip1559 ∧
      s.validate (weighed 2) = .ok () ∧ s'.validate (weighed 2) = .ok () ∧ s.SameBlock s' ∧
      ∃ next update next' update', s.nextBlock (weighed 2) = .ok (next, update) ∧
        s'.nextBlock (weighed 2) = .ok (next', update') ∧ update.baseFee < update'.baseFee :=
  ⟨toOption_eq_some_iff.1 (by decide +kernel), by decide,
    toOption_eq_some_iff.1 (by decide +kernel),
    toOption_eq_some_iff.1 (by decide +kernel), ⟨rfl, rfl, rfl, rfl, rfl, rfl⟩, _, _, _, _, rfl,
    rfl, by decide +kernel⟩

end Controller

end GasMarket
