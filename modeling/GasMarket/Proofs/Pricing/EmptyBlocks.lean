import GasMarket.Proofs.Pricing.Precision

namespace GasMarket

open Decimal

namespace Controller

variable {p : Params} {s t next : Controller} {update : BlockUpdate}

section Block

variable (hs : s.Valid p) (hempty : s.currentGas = 0)

include hs hempty in
theorem deviation_of_empty : s.deviation = -scale := by
  rw [deviation, hempty, UInt64.toNat_zero, Int.natCast_zero, Int.zero_sub, Int.neg_mul_comm,
    Int.mul_tdiv_cancel_left _ (Int.natCast_ne_zero_iff_pos.2 hs.target_pos)]

include hs hempty in
theorem adjustment_of_empty : s.adjustment = scale - s.learningRate.units := by
  rw [adjustment, deviation_of_empty hs hempty, Int.mul_neg, Int.neg_tdiv,
    Int.mul_tdiv_cancel _ (by decide)]
  exact (Int.sub_eq_add_neg ..).symm

include hs hempty in
theorem blockFee_lt_of_empty (hrate : 0 < s.learningRate.units) (hbase : 0 < s.baseFee.units) :
    s.blockFee < s.baseFee.units := by
  have hless : s.baseFee.units * s.adjustment ≤ s.baseFee.units * scale - 1 := by
    have hdrop := Int.mul_pos hbase hrate
    rw [adjustment_of_empty hs hempty, Int.mul_sub]
    omega
  have hnonneg : 0 ≤ s.baseFee.units * scale - 1 := by
    have hproduct := Int.mul_pos hbase (by decide : (0 : Int) < scale)
    omega
  -- the product may be negative, where truncation rounds up, but what bounds it is not
  calc s.blockFee
      ≤ (s.baseFee.units * scale - 1).tdiv scale := Int.tdiv_le_tdiv (by decide) hless
    _ = (s.baseFee.units * scale - 1) / scale := Int.tdiv_eq_ediv_of_nonneg hnonneg
    _ < s.baseFee.units := Int.ediv_lt_of_lt_mul (by decide) (by omega)

include hs hempty in
theorem blockFee_le_of_empty (hrate : s.learningRate.units ≤ scale) (hbase : 0 ≤ s.baseFee.units) :
    s.blockFee ≤ s.baseFee.toRat * (1 - s.learningRate.toRat) * scale := by
  have hfactor : (s.adjustment : ℚ) = (1 - s.learningRate.toRat) * scale := by
    rw [adjustment_of_empty hs hempty, sub_mul, one_mul, toRat_mul_scale]
    push_cast
    rfl
  have hnonneg : 0 ≤ s.adjustment := by
    rw [adjustment_of_empty hs hempty]
    omega
  rw [mul_assoc, ← hfactor]
  exact tdiv_mul_le_mul hbase hnonneg le_rfl

end Block

structure Vacant (p : Params) (s : Controller) : Prop where
  valid : s.Valid p
  cleared : s.currentGas = 0
  minBaseFee_nonneg : 0 ≤ s.minBaseFee.units

structure Falls (p : Params) (s : Controller) (fee : Decimal) : Prop where
  lower : s.minBaseFee.units < s.baseFee.units → fee.units < s.baseFee.units
  floored : s.baseFee.units = s.minBaseFee.units → fee.units = s.minBaseFee.units
  geometric : p.maxLearningRate.units ≤ scale →
    fee.toRat ≤ max s.minBaseFee.toRat (s.baseFee.toRat * (1 - p.minLearningRate.toRat))

theorem Vacant.baseFee_nonneg (h : s.Vacant p) : 0 ≤ s.baseFee.units :=
  Int.le_trans h.minBaseFee_nonneg h.valid.minBaseFee_le

theorem Vacant.nextBlock (hp : p.Valid) (h : s.Vacant p)
    (hnext : s.nextBlock p = .ok (next, update)) :
    next.Vacant p ∧ next.minBaseFee = s.minBaseFee := by
  have hvalid := h.valid.nextBlock hp hnext
  obtain ⟨rate, fee, -, -, -, rfl, -⟩ := nextBlock_eq_ok_iff.1 hnext
  exact ⟨⟨hvalid, currentGas_advanced h.valid rate fee, h.minBaseFee_nonneg⟩, rfl⟩

section Fall

variable (hp : p.Valid) (hdelta : p.delta = .zero) (hmin : 0 < p.minLearningRate.units)
    (h : s.Vacant p)

include hp hdelta hmin h in
theorem Vacant.falls_of_nextBaseFee {fee : Decimal} (hfee : s.nextBaseFee p = .ok fee) :
    s.Falls p fee := by
  have hunits := units_nextBaseFee_of_delta_zero hp hdelta h.valid hfee
  have hrate := h.valid.minLearningRate_le
  have hfloor := h.minBaseFee_nonneg
  have hbase := h.baseFee_nonneg
  refine ⟨?_, ?_, ?_⟩
  · intro habove
    have hlower := blockFee_lt_of_empty h.valid h.cleared (by omega) (by omega)
    omega
  · intro hat
    have hle := blockFee_le hp h.valid hbase (by rw [h.cleared]; exact Nat.zero_le _)
    omega
  · intro hmax
    have hone : s.learningRate.units ≤ scale := Int.le_trans h.valid.le_maxLearningRate hmax
    have hmoved := toRat_le_max hunits (blockFee_le_of_empty h.valid h.cleared hone hbase)
    have hfactor : 1 - s.learningRate.toRat ≤ 1 - p.minLearningRate.toRat :=
      sub_le_sub_left (toRat_le_toRat hrate) 1
    have hproduct := mul_le_mul_of_nonneg_left hfactor (toRat_nonneg hbase)
    exact hmoved.trans (max_le_max_left _ hproduct)

include hp hdelta hmin h in
theorem Vacant.falls (hnext : s.nextBlock p = .ok (next, update)) : s.Falls p next.baseFee := by
  obtain ⟨hrated, hfee, rfl⟩ := rated_of_nextBlock hp h.valid hnext
  have hvacant : Vacant p { s with learningRate := update.learningRate } :=
    ⟨hrated, h.cleared, h.minBaseFee_nonneg⟩
  obtain ⟨hlower, hfloored, hgeometric⟩ := hvacant.falls_of_nextBaseFee hp hdelta hmin hfee
  exact ⟨hlower, hfloored, hgeometric⟩

end Fall

theorem play_empty_succ {k : Nat} {updates : List BlockUpdate}
    (hplay : s.play p (List.replicate (k + 1) []) = .ok (t, updates)) :
    ∃ next update later, s.nextBlock p = .ok (next, update) ∧
      next.play p (List.replicate k []) = .ok (t, later) := by
  rw [List.replicate_succ, play_cons_eq_ok_iff] at hplay
  obtain ⟨recorded, next, update, later, hrecorded, hnext, hrest, -⟩ := hplay
  cases hrecorded
  exact ⟨next, update, later, hnext, hrest⟩

section Run

variable {k : Nat} {updates : List BlockUpdate} (hp : p.Valid) (h : s.Vacant p)
  (hplay : s.play p (List.replicate k []) = .ok (t, updates))

include hp h hplay in
theorem Vacant.play : t.Vacant p ∧ t.minBaseFee = s.minBaseFee := by
  induction k generalizing s updates with
  | zero =>
    cases hplay
    exact ⟨h, rfl⟩
  | succ k ih =>
    obtain ⟨next, update, later, hnext, hrest⟩ := play_empty_succ hplay
    obtain ⟨hvacant, hfloor⟩ := h.nextBlock hp hnext
    obtain ⟨hlast, hfloor'⟩ := ih hvacant hrest
    exact ⟨hlast, hfloor'.trans hfloor⟩

variable (hdelta : p.delta = .zero) (hmin : 0 < p.minLearningRate.units)

include hp h hplay hdelta hmin in
theorem Vacant.units_of_play (hk : s.baseFee.units - s.minBaseFee.units ≤ k) :
    t.baseFee.units = s.minBaseFee.units := by
  induction k generalizing s updates with
  | zero =>
    cases hplay
    have hle := h.valid.minBaseFee_le
    omega
  | succ k ih =>
    obtain ⟨next, update, later, hnext, hrest⟩ := play_empty_succ hplay
    obtain ⟨hvacant, hfloor⟩ := h.nextBlock hp hnext
    have hfalls := h.falls hp hdelta hmin hnext
    have hle := h.valid.minBaseFee_le
    have hlower := hfalls.lower
    have hfloored := hfalls.floored
    rw [← hfloor] at hlower hfloored hle hk ⊢
    -- a block above the floor takes a unit, and one at the floor has none to take
    exact ih hvacant hrest (by omega)

include hp h hplay hdelta hmin in
theorem Vacant.toRat_of_play (hmax : p.maxLearningRate.units ≤ scale) :
    t.baseFee.toRat ≤ max s.minBaseFee.toRat
      (s.baseFee.toRat * (1 - p.minLearningRate.toRat) ^ k) := by
  induction k generalizing s updates with
  | zero =>
    cases hplay
    rw [pow_zero, mul_one]
    exact le_max_right _ _
  | succ k ih =>
    obtain ⟨next, update, later, hnext, hrest⟩ := play_empty_succ hplay
    obtain ⟨hvacant, hfloor⟩ := h.nextBlock hp hnext
    have hlast := ih hvacant hrest
    rw [hfloor] at hlast
    have hrate : 0 ≤ p.minLearningRate.toRat := toRat_nonneg hmin.le
    have hrate' : p.minLearningRate.toRat ≤ 1 := toRat_le_one (hp.learningRates_le.trans hmax)
    have hcarried := mul_pow_le_max (toRat_nonneg h.minBaseFee_nonneg) (sub_nonneg.2 hrate')
      (sub_le_self 1 hrate) ((h.falls hp hdelta hmin hnext).geometric hmax) k
    exact hlast.trans (max_le (le_max_left _ _) hcarried)

end Run

/-- With no weight on the net utilization each empty block lowers the base fee until it is
at its floor, where it stays, after at most one block for each unit; at rates of at most one
the fall is geometric. -/
theorem baseFee_after_empty_blocks {k : Nat} {updates : List BlockUpdate} (hp : p.validate = .ok ())
    (hdelta : p.delta = .zero) (hmin : .zero < p.minLearningRate) (hs : s.validate p = .ok ())
    (hfloor : .zero ≤ s.minBaseFee) (hempty : s.currentGas = 0)
    (hplay : s.play p (List.replicate k []) = .ok (t, updates)) :
    s.minBaseFee ≤ t.baseFee ∧
      (∀ next update, t.nextBlock p = .ok (next, update) →
        (s.minBaseFee < t.baseFee → next.baseFee < t.baseFee) ∧
          (t.baseFee = s.minBaseFee → next.baseFee = s.minBaseFee)) ∧
      (s.baseFee.units - s.minBaseFee.units ≤ k → t.baseFee = s.minBaseFee) ∧
      (p.maxLearningRate ≤ .one → t.baseFee.toRat ≤
        max s.minBaseFee.toRat (s.baseFee.toRat * (1 - p.minLearningRate.toRat) ^ k)) := by
  have hp := Params.validate_eq_ok_iff.1 hp
  have h : s.Vacant p := ⟨validate_eq_ok_iff.1 hs, hempty, hfloor⟩
  obtain ⟨hvacant, hfloor⟩ := h.play hp hplay
  refine ⟨?_, ?_, ?_, ?_⟩
  · rw [← hfloor]
    exact hvacant.valid.minBaseFee_le
  · intro next update hnext
    have hfalls := hvacant.falls hp hdelta hmin hnext
    rw [← hfloor]
    exact ⟨hfalls.lower, fun hat => Decimal.ext (hfalls.floored (congrArg units hat))⟩
  · exact fun hk => Decimal.ext (h.units_of_play hp hplay hdelta hmin hk)
  · intro hmax
    rw [le_def, units_one] at hmax
    exact h.toRat_of_play hp hplay hdelta hmin hmax

theorem baseFee_after_empty_blocks_three :
    let p : Params := { Params.eip1559 with minBaseFee := .zero }
    let s : Controller := { new p with baseFee := .ofAtoms 3 }
    ∃ (t : Controller) (updates : List BlockUpdate),
      s.play p (List.replicate 3 []) = .ok (t, updates) ∧ t.baseFee = .zero := by
  intro p s
  have hp : p.validate = .ok () := toOption_eq_some_iff.1 (by decide +kernel)
  have hs : s.validate p = .ok () := toOption_eq_some_iff.1 (by decide +kernel)
  have hends : (s.play p (List.replicate 3 [])).toOption.isSome := by decide +kernel
  obtain ⟨⟨t, updates⟩, hend⟩ := Option.isSome_iff_exists.1 hends
  have hplay := toOption_eq_some_iff.1 hend
  obtain ⟨-, -, hfallen, -⟩ :=
    baseFee_after_empty_blocks hp rfl (by decide) hs (by decide) (by decide) hplay
  exact ⟨t, updates, hplay, hfallen (by decide)⟩

end Controller

end GasMarket
