import GasMarket.Proofs.Pricing.Growth
import GasMarket.Proofs.Pricing.Ring

/-! The end of a block against its reference in whole numbers.  All that it depends on is read off
once, the reference computes on that without a range, and a few of its numbers being in range
decides whether the block can be closed. -/

namespace GasMarket

open Decimal

/-- What the end of a block depends on: gas, and decimals by their units. -/
structure Figures where
  total : Int
  slots : Int
  current : Int
  target : Int
  limit : Int
  fee : Int
  floor : Int
  rate : Int
  minRate : Int
  maxRate : Int
  alpha : Int
  beta : Int
  theta : Int
  delta : Int
  deriving DecidableEq

namespace Figures

variable (f : Figures)

def utilization : Int := f.total * scale / (f.limit * f.slots)

def Grows : Prop := f.utilization ≤ f.theta ∨ scale - f.theta ≤ f.utilization

instance : Decidable f.Grows := inferInstanceAs (Decidable (_ ∨ _))

/-- The learning rate grown by `alpha`, or decayed by `beta` and still to be scaled. -/
def rawRate : Int := if f.Grows then f.rate + f.alpha else f.rate * f.beta

def nextRate : Int :=
  if f.Grows then min (f.rate + f.alpha) f.maxRate else max (f.rate * f.beta / scale) f.minRate

def ratio : Int := ((f.current - f.target) * scale).tdiv f.target

def adjustment : Int := scale + (f.nextRate * f.ratio).tdiv scale

def net : Int := f.total - f.target * f.slots

def moved : Int := (f.fee * f.adjustment).tdiv scale + f.net * f.delta

def nextFee : Int := max f.moved f.floor

structure Fit : Prop where
  rate : InRange f.rawRate
  change : InRange (f.nextRate * f.ratio)
  adjustment : InRange f.adjustment
  net : InRange (f.net * scale * f.delta)
  product : InRange (f.fee * f.adjustment)
  moved : InRange f.moved

instance : Decidable f.Fit :=
  decidable_of_iff (InRange f.rawRate ∧ InRange (f.nextRate * f.ratio) ∧ InRange f.adjustment ∧
      InRange (f.net * scale * f.delta) ∧ InRange (f.fee * f.adjustment) ∧ InRange f.moved)
    ⟨fun ⟨hrate, hchange, hadjustment, hnet, hproduct, hmoved⟩ =>
      ⟨hrate, hchange, hadjustment, hnet, hproduct, hmoved⟩,
     fun h => ⟨h.rate, h.change, h.adjustment, h.net, h.product, h.moved⟩⟩

end Figures

namespace Controller

variable {p : Params} {s : Controller}

def figures (p : Params) (s : Controller) : Figures where
  total := (s.window.map UInt64.toNat).sum
  slots := s.window.length
  current := s.currentGas.toNat
  target := s.targetGas.toNat
  limit := s.maxGas.toNat
  fee := s.baseFee.units
  floor := s.minBaseFee.units
  rate := s.learningRate.units
  minRate := p.minLearningRate.units
  maxRate := p.maxLearningRate.units
  alpha := p.alpha.units
  beta := p.beta.units
  theta := p.theta.units
  delta := p.delta.units

/-- What the end of a block reports, and the controller that it leaves: the rate and the fee of the
reference, the ring moved on by one slot, and nothing else. -/
structure Closed (p : Params) (s next : Controller) (update : BlockUpdate) : Prop where
  blockGas : update.blockGas = s.currentGas
  learningRate : update.learningRate.units = (s.figures p).nextRate
  baseFee : update.baseFee.units = (s.figures p).nextFee
  index : next.index.toNat = (s.index.toNat + 1) % s.window.length
  next_eq : next = { s with
    window := s.window.set next.index.toNat 0
    index := next.index
    baseFee := update.baseFee
    learningRate := update.learningRate }

theorem utilization_figures (p : Params) (s : Controller) :
    (s.figures p).utilization = s.utilization := by
  have hdividend : (0 : Int) ≤ s.totalGas * scale := by
    rw [← Int.natCast_mul]
    exact Int.natCast_nonneg _
  rw [utilization, Int.tdiv_eq_ediv_of_nonneg hdividend, Int.natCast_mul, totalGas_eq]
  rfl

theorem grows_figures (p : Params) (s : Controller) : (s.figures p).Grows ↔ s.Grows p := by
  rw [Figures.Grows, utilization_figures]
  exact Iff.rfl

theorem rawRate_figures (p : Params) (s : Controller) : (s.figures p).rawRate =
    if s.Grows p then s.learningRate.units + p.alpha.units
    else s.learningRate.units * p.beta.units :=
  if_congr (grows_figures p s) rfl rfl

theorem nextRate_figures (hp : p.Valid) (h : s.Valid p) :
    (s.figures p).nextRate = s.nextRate p := by
  have hproduct : 0 ≤ s.learningRate.units * p.beta.units :=
    Int.mul_nonneg (h.learningRate_nonneg hp) (Int.not_lt.1 hp.beta_unit.1)
  rw [nextRate, Int.tdiv_eq_ediv_of_nonneg hproduct]
  exact if_congr (grows_figures p s) rfl rfl

theorem adjustment_figures (hp : p.Valid) (h : s.Valid p) :
    (s.figures p).adjustment = s.factor p := by
  rw [Figures.adjustment, nextRate_figures hp h]
  rfl

theorem netUtilization_figures (p : Params) (s : Controller) :
    (s.figures p).net = s.netUtilization := by
  rw [netUtilization, totalGas_eq]
  rfl

theorem moved_figures (hp : p.Valid) (h : s.Valid p) {rate : Decimal}
    (hrate : rate.units = s.nextRate p) :
    (s.figures p).moved = movedFee p { s with learningRate := rate } := by
  rw [Figures.moved, adjustment_figures hp h, netUtilization_figures, movedFee,
    adjustment_rated hrate]
  rfl

theorem nextBaseFee_rated_iff (hp : p.Valid) (h : s.Valid p) {rate fee : Decimal}
    (hrate : s.nextLearningRate p = .ok rate) :
    nextBaseFee p { s with learningRate := rate } = .ok fee ↔
      InRange ((s.figures p).nextRate * (s.figures p).ratio) ∧ InRange (s.figures p).adjustment ∧
      InRange ((s.figures p).net * scale * (s.figures p).delta) ∧
      InRange ((s.figures p).fee * (s.figures p).adjustment) ∧ InRange (s.figures p).moved ∧
      fee.units = (s.figures p).nextFee := by
  have hunits := ((nextLearningRate_eq_ok_iff hp h).1 hrate).2
  rw [nextBaseFee_eq_ok_iff hp (h.rated hp hrate), Figures.nextFee, moved_figures hp h hunits,
    adjustment_figures hp h, nextRate_figures hp h, netUtilization_figures,
    Int.mul_comm s.netUtilization, adjustment_rated hunits, ← hunits]
  rfl

theorem inRange_min {n k : Int} (hn : InRange n) (hk : InRange k) : InRange (min n k) := by
  unfold InRange at *
  omega

theorem inRange_max {n k : Int} (hn : InRange n) (hk : InRange k) : InRange (max n k) := by
  unfold InRange at *
  omega

theorem exists_nextLearningRate_of_fit (hp : p.Valid) (h : s.Valid p) (hfit : (s.figures p).Fit) :
    ∃ rate, s.nextLearningRate p = .ok rate := by
  have hraw := hfit.rate
  rw [rawRate_figures] at hraw
  have hnext : InRange (s.nextRate p) := by
    unfold nextRate
    by_cases hgrows : s.Grows p
    · rw [if_pos hgrows] at hraw ⊢
      exact inRange_min hraw p.maxLearningRate.inRange
    · rw [if_neg hgrows] at hraw ⊢
      exact inRange_max (hraw.tdiv (by decide)) p.minLearningRate.inRange
  exact ⟨⟨_, hnext⟩, (nextLearningRate_eq_ok_iff hp h).2 ⟨hraw, rfl⟩⟩

theorem exists_nextBlock_of_fit (hp : p.Valid) (h : s.Valid p) (hfit : (s.figures p).Fit) :
    ∃ next update, s.nextBlock p = .ok (next, update) ∧ s.Closed p next update := by
  obtain ⟨rate, hrate⟩ := exists_nextLearningRate_of_fit hp h hfit
  let fee : Decimal := ⟨(s.figures p).nextFee, inRange_max hfit.moved s.minBaseFee.inRange⟩
  have hfee : nextBaseFee p { s with learningRate := rate } = .ok fee :=
    (nextBaseFee_rated_iff hp h hrate).2
      ⟨hfit.change, hfit.adjustment, hfit.net, hfit.product, hfit.moved, rfl⟩
  have hwindow : s.window ≠ [] := List.ne_nil_of_length_pos (Nat.zero_lt_of_lt h.index_lt)
  have hindex := toNat_index_advanced h rate fee
  refine ⟨_, _, nextBlock_eq_ok_iff.2 ⟨rate, fee, hrate, hfee, hwindow, rfl, rfl⟩, ?_⟩
  refine ⟨rfl, ?_, rfl, hindex, ?_⟩
  · rw [nextRate_figures hp h]
    exact ((nextLearningRate_eq_ok_iff hp h).1 hrate).2
  · rw [hindex]
    rfl

theorem fit_of_nextBlock (hp : p.Valid) (h : s.Valid p) {next : Controller} {update : BlockUpdate}
    (hnext : s.nextBlock p = .ok (next, update)) : (s.figures p).Fit := by
  obtain ⟨rate, fee, hrate, hfee, -, -, -⟩ := nextBlock_eq_ok_iff.1 hnext
  obtain ⟨hchange, hadjustment, hnet, hproduct, hmoved, -⟩ :=
    (nextBaseFee_rated_iff hp h hrate).1 hfee
  have hraw := ((nextLearningRate_eq_ok_iff hp h).1 hrate).1
  rw [← rawRate_figures] at hraw
  exact ⟨hraw, hchange, hadjustment, hnet, hproduct, hmoved⟩

/-- A block closes as the reference says exactly if the reference stays in range, and fails to close
for no other reason. -/
theorem nextBlock_eq_reference (hp : p.validate = .ok ()) (hs : s.validate p = .ok ()) :
    ((s.figures p).Fit →
      ∃ next update, s.nextBlock p = .ok (next, update) ∧ s.Closed p next update) ∧
      (¬ (s.figures p).Fit → s.nextBlock p = .error (.arithmetic .overflow)) := by
  have hp := Params.validate_eq_ok_iff.1 hp
  have hs := validate_eq_ok_iff.1 hs
  refine ⟨exists_nextBlock_of_fit hp hs, fun hfit => ?_⟩
  cases hnext : s.nextBlock p with
  | ok closed => exact absurd (fit_of_nextBlock hp hs hnext) hfit
  | error e => rw [eq_overflow_of_nextBlock hp hs hnext]

def fullBlock (fee : Decimal) : Controller :=
  { new .aimd with window := 30000000 :: List.replicate 7 0, baseFee := fee }

theorem nextBlock_eq_reference_fullBlock :
    let highest : Decimal := ⟨bound - 1, by decide⟩
    Params.aimd.validate = .ok () ∧ (fullBlock (.ofUInt64 2000000000)).validate .aimd = .ok () ∧
      (∃ next update, (fullBlock (.ofUInt64 2000000000)).nextBlock .aimd = .ok (next, update) ∧
        update.learningRate.units = 35000000000000000 ∧ update.baseFee = .ofUInt64 2025000000) ∧
      (fullBlock highest).validate .aimd = .ok () ∧
      (fullBlock highest).nextBlock .aimd = .error (.arithmetic .overflow) := by
  intro highest
  have hp : Params.aimd.validate = .ok () :=
    Params.validate_eq_ok_iff.2 (Params.valid_ofCalibration .aimd)
  have hs : (fullBlock (.ofUInt64 2000000000)).validate .aimd = .ok () :=
    toOption_eq_some_iff.1 (by decide +kernel)
  have hs' : (fullBlock highest).validate .aimd = .ok () :=
    toOption_eq_some_iff.1 (by decide +kernel)
  obtain ⟨next, update, hnext, hclosed⟩ := (nextBlock_eq_reference hp hs).1 (by decide +kernel)
  refine ⟨hp, hs, ⟨next, update, hnext, ?_, Decimal.ext ?_⟩, hs',
    (nextBlock_eq_reference hp hs').2 (by decide +kernel)⟩
  · rw [hclosed.learningRate]
    decide +kernel
  · rw [hclosed.baseFee]
    decide +kernel

end Controller

end GasMarket
