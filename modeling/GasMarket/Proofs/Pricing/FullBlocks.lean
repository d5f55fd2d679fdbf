import GasMarket.Proofs.Pricing.LastBlock

namespace GasMarket

open Decimal

/-- What a full block adds to the factor of the base fee at some learning rate, in units. -/
def Params.fullRise (p : Params) (rate : Decimal) : Int :=
  (rate.units *
    ((p.maxGas.toNat - p.targetGas.toNat) * scale : Int).tdiv p.targetGas.toNat).tdiv scale

namespace Controller

variable {p : Params} {s t next : Controller} {update : BlockUpdate}

inductive Reachable (p : Params) : Controller → Prop
  | new : Reachable p (new p)
  | recordGas {s t : Controller} {gas : UInt64} :
      Reachable p s → s.recordGas gas = .ok t → Reachable p t
  | nextBlock {s next : Controller} {update : BlockUpdate} :
      Reachable p s → s.nextBlock p = .ok (next, update) → Reachable p next

theorem Matches.recordGas (h : s.Matches p) {gas : UInt64} (ht : s.recordGas gas = .ok t) :
    t.Matches p := by
  obtain ⟨-, -, rfl⟩ := recordGas_eq_ok_iff.1 ht
  exact ⟨h.minBaseFee, h.targetGas, h.maxGas⟩

theorem Matches.nextBlock (h : s.Matches p) (hnext : s.nextBlock p = .ok (next, update)) :
    next.Matches p := by
  obtain ⟨rate, fee, -, -, -, rfl, -⟩ := nextBlock_eq_ok_iff.1 hnext
  exact ⟨h.minBaseFee, h.targetGas, h.maxGas⟩

theorem Reachable.valid_and_matches (hp : p.Valid) (h : s.Reachable p) :
    s.Valid p ∧ s.Matches p := by
  induction h with
  | new => exact ⟨valid_new hp, matches_new p⟩
  | recordGas _ ht ih => exact ⟨ih.1.recordGas ht, ih.2.recordGas ht⟩
  | nextBlock _ hnext ih => exact ⟨ih.1.nextBlock hp hnext, ih.2.nextBlock hnext⟩

section Rise

theorem fullDeviation_nonneg (hp : p.Valid) :
    0 ≤ ((p.maxGas.toNat - p.targetGas.toNat) * scale : Int).tdiv p.targetGas.toNat := by
  have hle := hp.target_le
  apply Int.tdiv_nonneg _ (Int.natCast_nonneg _)
  exact Int.mul_nonneg (by omega) (by decide)

theorem fullRise_nonneg (hp : p.Valid) {rate : Decimal} (hrate : 0 ≤ rate.units) :
    0 ≤ p.fullRise rate :=
  Int.tdiv_nonneg (Int.mul_nonneg hrate (fullDeviation_nonneg hp)) (Int.natCast_nonneg scale)

theorem fullRise_mono (hp : p.Valid) {rate rate' : Decimal} (h : rate.units ≤ rate'.units) :
    p.fullRise rate ≤ p.fullRise rate' := by
  apply Int.tdiv_le_tdiv (by decide)
  exact Int.mul_le_mul_of_nonneg_right h (fullDeviation_nonneg hp)

theorem adjustment_of_full (hmatched : s.Matches p) (hfull : s.currentGas = p.maxGas) :
    s.adjustment = scale + p.fullRise s.learningRate := by
  rw [adjustment, deviation, hfull, hmatched.targetGas, Params.fullRise]

theorem blockFee_of_full (hmatched : s.Matches p) (hbase : 0 ≤ s.baseFee.units)
    (hrise : 0 ≤ p.fullRise s.learningRate) (hfull : s.currentGas = p.maxGas) :
    s.blockFee = s.baseFee.units + s.baseFee.units * p.fullRise s.learningRate / scale := by
  have hproduct : 0 ≤ s.baseFee.units * (scale + p.fullRise s.learningRate) :=
    Int.mul_nonneg hbase (by omega)
  rw [blockFee, adjustment_of_full hmatched hfull, Int.tdiv_eq_ediv_of_nonneg hproduct, Int.mul_add,
    Int.add_comm, Int.add_mul_ediv_right _ _ (by decide), Int.add_comm]

theorem nextBaseFee_of_full (hp : p.Valid) (hdelta : p.delta = .zero) (hs : s.Valid p)
    (hmatched : s.Matches p) (hfull : s.currentGas = p.maxGas) {fee : Decimal}
    (hfee : s.nextBaseFee p = .ok fee) :
    s.baseFee ≤ fee ∧ (s.baseFee < fee ↔ scale ≤ s.baseFee.units * p.fullRise s.learningRate) := by
  have hbase := hmatched.baseFee_nonneg hp hs
  have hrise := fullRise_nonneg hp (hs.learningRate_nonneg hp)
  have hfloor := hs.minBaseFee_le
  have hunits := units_nextBaseFee_of_delta_zero hp hdelta hs hfee
  rw [blockFee_of_full hmatched hbase hrise hfull] at hunits
  have hadded : 0 ≤ s.baseFee.units * p.fullRise s.learningRate / scale :=
    Int.ediv_nonneg (Int.mul_nonneg hbase hrise) (Int.natCast_nonneg scale)
  have hunit : 1 ≤ s.baseFee.units * p.fullRise s.learningRate / scale ↔
      (1 * scale : Int) ≤ s.baseFee.units * p.fullRise s.learningRate :=
    Int.le_ediv_iff_mul_le (by decide)
  rw [Int.one_mul] at hunit
  rw [le_def, lt_def, hunits, ← hunit]
  omega

end Rise

/-- With no weight on the net utilization a full block never lowers the base fee, and
raises it exactly if the rise is at least a unit; if the lowest fee rises at the lowest
rate, then so does every fee. -/
theorem baseFee_lt_iff_of_full_block (hp : p.validate = .ok ()) (hdelta : p.delta = .zero)
    (hs : s.Reachable p) (hfull : s.currentGas = p.maxGas)
    (hnext : s.nextBlock p = .ok (next, update)) :
    s.baseFee ≤ next.baseFee ∧
      (s.baseFee < next.baseFee ↔ scale ≤ s.baseFee.units * p.fullRise next.learningRate) ∧
      (scale ≤ p.minBaseFee.units * p.fullRise p.minLearningRate → s.baseFee < next.baseFee) := by
  have hp := Params.validate_eq_ok_iff.1 hp
  obtain ⟨hvalid, hmatched⟩ := hs.valid_and_matches hp
  obtain ⟨hrated, hfee, rfl⟩ := rated_of_nextBlock hp hvalid hnext
  obtain ⟨hle, hiff⟩ := nextBaseFee_of_full hp hdelta hrated (hmatched.rated _) hfull hfee
  refine ⟨hle, hiff, fun hlowest => hiff.2 ?_⟩
  have hfloor : p.minBaseFee.units ≤ s.baseFee.units := hmatched.minBaseFee ▸ hvalid.minBaseFee_le
  calc (scale : Int)
      ≤ p.minBaseFee.units * p.fullRise p.minLearningRate := hlowest
    _ ≤ s.baseFee.units * p.fullRise p.minLearningRate :=
        Int.mul_le_mul_of_nonneg_right hfloor (fullRise_nonneg hp hp.minLearningRate_nonneg)
    _ ≤ s.baseFee.units * p.fullRise update.learningRate :=
        Int.mul_le_mul_of_nonneg_left (fullRise_mono hp hrated.minLearningRate_le)
          (hmatched.baseFee_nonneg hp hvalid)

def lowFloor (units : UInt64) : Params := { Params.eip1559 with minBaseFee := .ofAtoms units }

def firstFull (p : Params) : Controller := { new p with window := [30000000] }

theorem reachable_firstFull (units : UInt64) :
    (firstFull (lowFloor units)).Reachable (lowFloor units) := by
  have hrecord : (new (lowFloor units)).recordGas 30000000 = .ok (firstFull (lowFloor units)) := rfl
  exact .recordGas .new hrecord

theorem baseFee_lt_of_full_block_eight : ∃ (next : Controller) (update : BlockUpdate),
    (firstFull (lowFloor 8)).nextBlock (lowFloor 8) = .ok (next, update) ∧
      (firstFull (lowFloor 8)).baseFee < next.baseFee := by
  have hp : (lowFloor 8).validate = .ok () := toOption_eq_some_iff.1 (by decide +kernel)
  have hp' := Params.validate_eq_ok_iff.1 hp
  have hs := reachable_firstFull 8
  obtain ⟨hvalid, -⟩ := hs.valid_and_matches hp'
  obtain ⟨next, update, hnext, -⟩ := exists_nextBlock_of_fit hp' hvalid (by decide +kernel)
  obtain ⟨-, -, hrises⟩ := baseFee_lt_iff_of_full_block hp rfl hs rfl hnext
  exact ⟨next, update, hnext, hrises (by decide +kernel)⟩

theorem baseFee_eq_of_full_block_seven :
    let p := lowFloor 7
    p.validate = .ok () ∧ p.delta = .zero ∧ .zero < p.minLearningRate ∧ p.targetGas < p.maxGas ∧
      (firstFull p).Reachable p ∧ (firstFull p).currentGas = p.maxGas ∧
      ∃ (next : Controller) (update : BlockUpdate), (firstFull p).nextBlock p = .ok (next, update) ∧
        next.baseFee = (firstFull p).baseFee := by
  intro p
  have hp : p.validate = .ok () := toOption_eq_some_iff.1 (by decide +kernel)
  have hp' := Params.validate_eq_ok_iff.1 hp
  have hs := reachable_firstFull 7
  obtain ⟨hvalid, -⟩ := hs.valid_and_matches hp'
  obtain ⟨next, update, hnext, hclosed⟩ := exists_nextBlock_of_fit hp' hvalid (by decide +kernel)
  refine ⟨hp, rfl, by decide, by decide, hs, rfl, next, update, hnext, ?_⟩
  calc next.baseFee
      = update.baseFee := congrArg baseFee hclosed.next_eq
    _ = (firstFull p).baseFee := Decimal.ext (hclosed.baseFee.trans (by decide +kernel))

end Controller

end GasMarket
