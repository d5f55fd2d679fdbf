import GasMarket.Proofs.Pricing.Trajectory
import Mathlib.Algebra.Order.BigOperators.Group.List
import Mathlib.Algebra.Order.Group.Nat
import Mathlib.Data.List.Forall2

namespace GasMarket

open Decimal

theorem Params.calibration_eq_eip1559_iff {p : Params} : p.calibration = .eip1559 ↔
    (p.alpha = .zero ∧ p.beta = .one) ∨ p.minLearningRate = p.maxLearningRate := by
  unfold calibration
  split
  case isTrue h => exact iff_of_true rfl h
  case isFalse h => exact iff_of_false nofun h

namespace Controller

variable {p : Params} {s s' t t' : Controller}

theorem nextLearningRate_of_constant (hp : p.Valid) (hconst : p.calibration = .eip1559)
    (h : s.Valid p) {rate : Decimal} (hrate : s.nextLearningRate p = .ok rate) :
    rate = s.learningRate := by
  apply Decimal.ext
  have hlo := h.minLearningRate_le
  have hhi := h.le_maxLearningRate
  obtain ⟨halpha, hbeta⟩ | hrates := Params.calibration_eq_eip1559_iff.1 hconst
  · rw [((nextLearningRate_eq_ok_iff hp h).1 hrate).2, nextRate, halpha, hbeta, units_zero,
      units_one, Int.add_zero, Int.mul_tdiv_cancel _ (by decide)]
    split
    · exact Int.min_eq_left hhi
    · exact Int.max_eq_left hlo
  · obtain ⟨hlo', hhi'⟩ := nextLearningRate_mem hp h hrate
    rw [hrates] at hlo hlo'
    omega

/-- Alike but for the gas of their blocks and the fee, both at least as high in the second. -/
structure Fuller (s s' : Controller) : Prop where
  learningRate : s.learningRate = s'.learningRate
  minBaseFee : s.minBaseFee = s'.minBaseFee
  targetGas : s.targetGas = s'.targetGas
  recent : List.Forall₂ (· ≤ ·) s.recent s'.recent
  baseFee : s.baseFee.units ≤ s'.baseFee.units

theorem Fuller.refl (s : Controller) : s.Fuller s where
  learningRate := rfl
  minBaseFee := rfl
  targetGas := rfl
  recent := List.forall₂_refl s.recent
  baseFee := Int.le_refl _

section Fuller

variable (hp : p.Valid) (hs : s.Valid p) (hs' : s'.Valid p) (h : s.Fuller s')

include hs hs' h in
theorem Fuller.currentGas_le : s.currentGas.toNat ≤ s'.currentGas.toNat := by
  have hrecent := h.recent
  rw [recent_eq_cons hs.index_lt, recent_eq_cons hs'.index_lt, List.forall₂_cons] at hrecent
  exact hrecent.1

include h in
theorem Fuller.totalGas_le : s.totalGas ≤ s'.totalGas := by
  rw [totalGas_eq_sum_recent, totalGas_eq_sum_recent]
  exact h.recent.sum_le_sum

include hs hs' h in
theorem Fuller.deviation_le : s.deviation ≤ s'.deviation := by
  have hgas := h.currentGas_le hs hs'
  unfold deviation
  rw [h.targetGas]
  apply Int.tdiv_le_tdiv (Int.natCast_pos.2 hs'.target_pos)
  apply Int.mul_le_mul_of_nonneg_right _ (by decide)
  omega

include hp hs hs' h in
theorem Fuller.adjustment_le : s.adjustment ≤ s'.adjustment := by
  unfold adjustment
  rw [h.learningRate]
  apply Int.add_le_add_left
  apply Int.tdiv_le_tdiv (by decide)
  exact Int.mul_le_mul_of_nonneg_left (h.deviation_le hs hs') (hs'.learningRate_nonneg hp)

include hp h in
theorem Fuller.netTerm_le : s.netTerm p ≤ s'.netTerm p := by
  have hlength : s.window.length = s'.window.length := by
    rw [← length_recent, ← length_recent, h.recent.length_eq]
  have htotal := h.totalGas_le
  unfold netTerm netUtilization
  rw [h.targetGas, hlength]
  apply Int.mul_le_mul_of_nonneg_right _ hp.delta_nonneg
  omega

include hp hs hs' h in
theorem Fuller.movedFee_le (hmax : p.maxLearningRate ≤ .one) (hbase : 0 ≤ s'.baseFee.units) :
    s.movedFee p ≤ s'.movedFee p := by
  have hmax' : p.maxLearningRate.units ≤ scale := by
    rw [← units_one]
    exact hmax
  have hadjustment : 0 ≤ s.adjustment := by
    have := le_adjustment hp hs
    omega
  apply Int.add_le_add _ (h.netTerm_le hp)
  apply Int.tdiv_le_tdiv (by decide)
  -- the fee is raised first and the factor second, which needs a fee that is not negative
  calc s.baseFee.units * s.adjustment
      ≤ s'.baseFee.units * s.adjustment := Int.mul_le_mul_of_nonneg_right h.baseFee hadjustment
    _ ≤ s'.baseFee.units * s'.adjustment :=
        Int.mul_le_mul_of_nonneg_left (h.adjustment_le hp hs hs') hbase

end Fuller

theorem Fuller.recordAll (hs : s.Valid p) (hs' : s'.Valid p) (h : s.Fuller s')
    {gases gases' : List UInt64} (hgas : blockGas gases ≤ blockGas gases')
    (ht : s.recordAll gases = .ok t) (ht' : s'.recordAll gases' = .ok t') : t.Fuller t' := by
  obtain ⟨gas, rfl, hsum⟩ := recordAll_eq_filled hs.index_lt ht
  obtain ⟨gas', rfl, hsum'⟩ := recordAll_eq_filled hs'.index_lt ht'
  have hrecent := h.recent
  rw [recent_eq_cons hs.index_lt, recent_eq_cons hs'.index_lt, List.forall₂_cons] at hrecent
  obtain ⟨hcurrent, hpast⟩ := hrecent
  refine ⟨h.learningRate, h.minBaseFee, h.targetGas, ?_, h.baseFee⟩
  rw [filled, filled, recent_filled hs.index_lt, recent_filled hs'.index_lt, hsum, hsum']
  exact .cons (Nat.add_le_add hcurrent hgas) hpast

theorem Fuller.nextBlock (hp : p.Valid) (hconst : p.calibration = .eip1559)
    (hmax : p.maxLearningRate ≤ .one) (hs : s.Valid p) (hs' : s'.Valid p) (h : s.Fuller s')
    (hbase : 0 ≤ s'.baseFee.units) {next next' : Controller} {update update' : BlockUpdate}
    (hnext : s.nextBlock p = .ok (next, update)) (hnext' : s'.nextBlock p = .ok (next', update')) :
    next.Fuller next' ∧ update.baseFee = next.baseFee ∧ update'.baseFee = next'.baseFee := by
  obtain ⟨rate, fee, hrate, hfee, -, rfl, rfl⟩ := nextBlock_eq_ok_iff.1 hnext
  obtain ⟨rate', fee', hrate', hfee', -, rfl, rfl⟩ := nextBlock_eq_ok_iff.1 hnext'
  obtain rfl := nextLearningRate_of_constant hp hconst hs hrate
  obtain rfl := nextLearningRate_of_constant hp hconst hs' hrate'
  have hmoved := h.movedFee_le hp hs hs' hmax hbase
  have hle : fee.units ≤ fee'.units := by
    obtain ⟨-, -, -, -, -, hfee⟩ := (nextBaseFee_eq_ok_iff hp hs).1 hfee
    obtain ⟨-, -, -, -, -, hfee'⟩ := (nextBaseFee_eq_ok_iff hp hs').1 hfee'
    rw [hfee, hfee', h.minBaseFee]
    omega
  refine ⟨⟨h.learningRate, h.minBaseFee, h.targetGas, ?_, hle⟩, rfl, rfl⟩
  rw [recent_advanced hs, recent_advanced hs',
    List.dropLast_eq_take, List.dropLast_eq_take, h.recent.length_eq]
  exact .cons (Nat.le_refl 0) (List.forall₂_take _ h.recent)

section Play

variable {blocks blocks' : List (List UInt64)} {updates updates' : List BlockUpdate}

theorem minBaseFee_le_of_play (hp : p.Valid) (h : s.Valid p)
    (hplay : s.play p blocks = .ok (t, updates)) : ∀ u ∈ updates, s.minBaseFee ≤ u.baseFee := by
  induction blocks generalizing s updates with
  | nil =>
    cases hplay
    exact List.forall_mem_nil _
  | cons gases rest ih =>
    obtain ⟨recorded, next, update, later, hrecorded, hnext, hrest, rfl⟩ :=
      play_cons_eq_ok_iff.1 hplay
    have hrecordedValid := h.recordAll hrecorded
    have hlater := ih (hrecordedValid.nextBlock hp hnext) hrest
    obtain ⟨gas, rfl, -⟩ := recordAll_eq_filled h.index_lt hrecorded
    obtain ⟨rate, fee, -, hfee, -, rfl, rfl⟩ := nextBlock_eq_ok_iff.1 hnext
    have hfloor := minBaseFee_le_nextBaseFee hfee
    exact List.forall_mem_cons.2 ⟨hfloor, hlater⟩

theorem Fuller.play (hp : p.Valid) (hconst : p.calibration = .eip1559)
    (hmax : p.maxLearningRate ≤ .one)
    (hs : s.Valid p) (hs' : s'.Valid p) (h : s.Fuller s') (hbase : 0 ≤ s'.baseFee.units)
    (hblocks : List.Forall₂ (fun gases gases' => blockGas gases ≤ blockGas gases') blocks blocks')
    (hplay : s.play p blocks = .ok (t, updates)) (hplay' : s'.play p blocks' = .ok (t', updates'))
    (hfees : ∀ u ∈ updates'.dropLast, .zero ≤ u.baseFee) :
    List.Forall₂ (fun u u' => u.baseFee ≤ u'.baseFee) updates updates' := by
  induction hblocks generalizing s s' updates updates' with
  | nil =>
    cases hplay
    cases hplay'
    exact .nil
  | cons hgas hrest ih =>
    obtain ⟨recorded, next, update, later, hrecorded, hnext, hlater, rfl⟩ :=
      play_cons_eq_ok_iff.1 hplay
    obtain ⟨recorded', next', update', later', hrecorded', hnext', hlater', rfl⟩ :=
      play_cons_eq_ok_iff.1 hplay'
    have hvalid := hs.recordAll hrecorded
    have hvalid' := hs'.recordAll hrecorded'
    have hbase' : 0 ≤ recorded'.baseFee.units := by
      obtain ⟨gas, rfl, -⟩ := recordAll_eq_filled hs'.index_lt hrecorded'
      exact hbase
    obtain ⟨hfuller, hfee, hfee'⟩ :=
      (h.recordAll hs hs' hgas hrecorded hrecorded').nextBlock hp hconst hmax hvalid hvalid' hbase'
        hnext hnext'
    have hle : update.baseFee ≤ update'.baseFee := by
      rw [hfee, hfee']
      exact hfuller.baseFee
    -- no block starts from the fee that the last one leaves, so that one may be negative
    cases hrest with
    | nil =>
      cases hlater
      cases hlater'
      exact .cons hle .nil
    | cons _ _ =>
      obtain ⟨_, _, second, more, -, -, -, rfl⟩ := play_cons_eq_ok_iff.1 hlater'
      rw [List.dropLast_cons_of_ne_nil (List.cons_ne_nil second more)] at hfees
      obtain ⟨hfirst, hothers⟩ := List.forall_mem_cons.1 hfees
      rw [hfee'] at hfirst
      exact .cons hle (ih (hvalid.nextBlock hp hnext) (hvalid'.nextBlock hp hnext') hfuller hfirst
        hlater hlater' hothers)

/-- From one state, the history with fuller blocks has the higher base fee after every block, unless
the floor lets its base fee become negative. -/
theorem baseFee_le_of_fuller_blocks (hp : p.Valid) (hconst : p.calibration = .eip1559)
    (hmax : p.maxLearningRate ≤ .one) (hs : s.Valid p) (hbase : .zero ≤ s.baseFee)
    (hblocks : List.Forall₂ (fun gases gases' => blockGas gases ≤ blockGas gases') blocks blocks')
    (hplay : s.play p blocks = .ok (t, updates)) (hplay' : s.play p blocks' = .ok (t', updates'))
    (hfees : .zero ≤ s.minBaseFee ∨ ∀ u ∈ updates'.dropLast, .zero ≤ u.baseFee) :
    List.Forall₂ (fun u u' => u.baseFee ≤ u'.baseFee) updates updates' := by
  apply (Fuller.refl s).play hp hconst hmax hs hs hbase hblocks hplay hplay'
  cases hfees with
  | inl hfloor =>
    intro u hu
    exact Int.le_trans hfloor (minBaseFee_le_of_play hp hs hplay' u (List.dropLast_subset _ hu))
  | inr hstarts => exact hstarts

theorem baseFee_le_of_full_block : ∃ t t' updates updates',
    (new .eip1559).play .eip1559 [[21000], [0], [5, 7]] = .ok (t, updates) ∧
    (new .eip1559).play .eip1559 [[10000, 20000000], [], [30000000]] = .ok (t', updates') ∧
    List.Forall₂ (fun u u' => u.baseFee ≤ u'.baseFee) updates updates' := by
  have hp := Params.valid_ofCalibration .eip1559
  obtain ⟨⟨t, updates⟩, hplay⟩ :
      ∃ r, (new .eip1559).play .eip1559 [[21000], [0], [5, 7]] = .ok r := ⟨_, rfl⟩
  obtain ⟨⟨t', updates'⟩, hplay'⟩ :
      ∃ r, (new .eip1559).play .eip1559 [[10000, 20000000], [], [30000000]] = .ok r := ⟨_, rfl⟩
  exact ⟨t, t', updates, updates', hplay, hplay',
    baseFee_le_of_fuller_blocks hp (by decide) (by decide) (valid_new hp) (by decide)
      (.cons (by decide) (.cons (by decide) (.cons (by decide) .nil))) hplay hplay'
      (.inl (by decide))⟩

/-- Once a fee is below zero, a full block doubles it and an empty one does not. -/
theorem lower_fee_of_fuller_block :
    let p : Params := { Params.eip1559 with
      window := 2, delta := .one, minLearningRate := .one, maxLearningRate := .one }
    let s : Controller :=
      { new p with minBaseFee := ⟨-100000000 * scale, by decide⟩, baseFee := .zero }
    p.Valid ∧ p.calibration = .eip1559 ∧ p.maxLearningRate ≤ .one ∧ s.Valid p ∧ .zero ≤ s.baseFee ∧
      ∃ t t' updates updates', s.play p [[0], [0]] = .ok (t, updates) ∧
        s.play p [[0], [30000000]] = .ok (t', updates') ∧
        ¬ List.Forall₂ (fun u u' => u.baseFee ≤ u'.baseFee) updates updates' := by
  refine ⟨Params.validate_eq_ok_iff.1 (by decide), by decide, by decide,
    validate_eq_ok_iff.1 (by decide), by decide, _, _, _, _, rfl, rfl, ?_⟩
  rintro (_ | ⟨-, _ | ⟨hsecond, -⟩⟩)
  exact absurd hsecond (by decide)

end Play

end Controller

end GasMarket
