import GasMarket.Proofs.Decimal.Fraction
import GasMarket.Proofs.Pricing.LastBlock
import Mathlib.Algebra.Order.Field.Basic

namespace GasMarket

open Decimal

namespace Params

def Outer (p : Params) (u : Decimal) : Prop := u ≤ p.theta ∨ scale - p.theta.units ≤ u.units

instance (p : Params) (u : Decimal) : Decidable (p.Outer u) := inferInstanceAs (Decidable (_ ∨ _))

def stepRate (p : Params) (rate : Int) (u : Decimal) : Int :=
  if p.Outer u then min (rate + p.alpha.units) p.maxLearningRate.units
  else max ((rate * p.beta.units).tdiv scale) p.minLearningRate.units

variable {p : Params} {rate : Int} {u : Decimal} {us : List Decimal}

theorem outer_of_wide (h : scale ≤ 2 * p.theta.units) (u : Decimal) : p.Outer u := by
  unfold Outer
  rw [le_def]
  omega

theorem Valid.outer_of_units_zero (hp : p.Valid) (hu : u.units = 0) : p.Outer u := by
  have htheta : ¬ p.theta.units < 0 := hp.theta_unit.1
  left
  rw [le_def, hu]
  exact Int.not_lt.1 htheta

theorem Valid.foldl_stepRate_of_outer (hp : p.Valid) (hle : rate ≤ p.maxLearningRate.units)
    (hus : ∀ u ∈ us, p.Outer u) :
    us.foldl p.stepRate rate = min (rate + us.length * p.alpha.units) p.maxLearningRate.units := by
  induction us generalizing rate with
  | nil =>
    rw [List.foldl_nil, List.length_nil, Int.natCast_zero, Int.zero_mul, Int.add_zero]
    exact (Int.min_eq_left hle).symm
  | cons u us ih =>
    obtain ⟨hu, hrest⟩ := List.forall_mem_cons.1 hus
    have hstep : p.stepRate rate u = min (rate + p.alpha.units) p.maxLearningRate.units := if_pos hu
    have hlater : 0 ≤ us.length * p.alpha.units :=
      Int.mul_nonneg (Int.natCast_nonneg _) hp.alpha_nonneg
    rw [List.foldl_cons, hstep, ih (Int.min_le_right _ _) hrest, List.length_cons, Int.natCast_succ,
      Int.add_mul, Int.one_mul]
    -- a rate at the maximum stays there, as the later steps are not negative
    omega

section Inner

variable (hp : p.Valid) (hmin : p.minLearningRate.units ≤ rate)

theorem minLearningRate_le_stepRate (hu : ¬ p.Outer u) :
    p.minLearningRate.units ≤ p.stepRate rate u := by
  rw [stepRate, if_neg hu]
  exact Int.le_max_right _ _

include hp hmin in
theorem Valid.stepRate_le (hu : ¬ p.Outer u) : p.stepRate rate u ≤ rate := by
  have hrate : 0 ≤ rate := Int.le_trans hp.minLearningRate_nonneg hmin
  rw [stepRate, if_neg hu]
  exact Int.max_le.2 ⟨mul_tdiv_scale_le hrate hp.beta_unit.2, hmin⟩

include hp hmin in
theorem Valid.stepRate_le_mul (hu : ¬ p.Outer u) :
    (p.stepRate rate u : ℚ) ≤ max (p.minLearningRate.units : ℚ) (rate * p.beta.toRat) := by
  have hrate : 0 ≤ rate := Int.le_trans hp.minLearningRate_nonneg hmin
  have hbeta : 0 ≤ p.beta.units := Int.not_lt.1 hp.beta_unit.1
  have hproduct : ((p.beta.units * rate).tdiv scale : ℚ) ≤ p.beta.toRat * rate :=
    tdiv_mul_le_mul hbeta hrate le_rfl
  rw [stepRate, if_neg hu, Int.mul_comm, Int.cast_max, mul_comm (rate : ℚ)]
  exact max_le_iff.2 ⟨hproduct.trans (le_max_right _ _), le_max_left _ _⟩

include hp hmin in
theorem Valid.scanl_stepRate_of_inner (hus : ∀ u ∈ us, ¬ p.Outer u) :
    (∀ later ∈ us.scanl p.stepRate rate, later ≤ rate) ∧
      (us.scanl p.stepRate rate).Pairwise (· ≥ ·) := by
  induction us generalizing rate with
  | nil => simp
  | cons u us ih =>
    obtain ⟨hu, hrest⟩ := List.forall_mem_cons.1 hus
    have hle := hp.stepRate_le hmin hu
    obtain ⟨hlater, hpairs⟩ := ih (minLearningRate_le_stepRate hu) hrest
    have hbelow : ∀ later ∈ us.scanl p.stepRate (p.stepRate rate u), later ≤ rate :=
      fun later hmem => Int.le_trans (hlater later hmem) hle
    rw [List.scanl_cons]
    exact ⟨List.forall_mem_cons.2 ⟨Int.le_refl rate, hbelow⟩, List.pairwise_cons.2 ⟨hbelow, hpairs⟩⟩

include hp hmin in
theorem Valid.foldl_stepRate_le_geometric (hus : ∀ u ∈ us, ¬ p.Outer u) :
    ((us.foldl p.stepRate rate : Int) : ℚ) ≤
      max (p.minLearningRate.units : ℚ) (rate * p.beta.toRat ^ us.length) := by
  induction us generalizing rate with
  | nil =>
    rw [List.foldl_nil, List.length_nil, pow_zero, mul_one]
    exact le_max_right _ _
  | cons u us ih =>
    obtain ⟨hu, hrest⟩ := List.forall_mem_cons.1 hus
    have hfloor : (0 : ℚ) ≤ p.minLearningRate.units := Int.cast_nonneg hp.minLearningRate_nonneg
    have hbeta : 0 ≤ p.beta.toRat := toRat_nonneg (Int.not_lt.1 hp.beta_unit.1)
    have hbeta' : p.beta.toRat ≤ 1 := toRat_le_one hp.beta_unit.2
    have hcarried := mul_pow_le_max hfloor hbeta hbeta' (hp.stepRate_le_mul hmin hu) us.length
    rw [List.foldl_cons, List.length_cons]
    exact (ih (minLearningRate_le_stepRate hu) hrest).trans
      (max_le_iff.2 ⟨le_max_left _ _, hcarried⟩)

end Inner

end Params

namespace Controller

variable {p : Params} {s t recorded next : Controller} {update : BlockUpdate} {gases : List UInt64}
  {past : List Nat} {blocks : List (List UInt64)} {updates : List BlockUpdate} {us : List Decimal}

def utilizations (p : Params) (s : Controller) : List (List UInt64) → Except Error (List Decimal)
  | [] => .ok []
  | gases :: rest => do
    let recorded ← s.recordAll gases
    let u ← recorded.averageUtilization.mapError .arithmetic
    let (next, _) ← recorded.nextBlock p
    return u :: (← next.utilizations p rest)

theorem utilizations_cons_eq_ok_iff {rest : List (List UInt64)} :
    s.utilizations p (gases :: rest) = .ok us ↔
      ∃ recorded u next update later, s.recordAll gases = .ok recorded ∧
        recorded.averageUtilization = .ok u ∧ recorded.nextBlock p = .ok (next, update) ∧
        next.utilizations p rest = .ok later ∧ us = u :: later := by
  simp only [utilizations, bind_eq_ok_iff, mapError_eq_ok_iff]
  constructor
  · rintro ⟨recorded, hrecorded, u, hu, ⟨next, update⟩, hnext, later, hlater, hus⟩
    cases hus
    exact ⟨recorded, u, next, update, later, hrecorded, hu, hnext, hlater, rfl⟩
  · rintro ⟨recorded, u, next, update, later, hrecorded, hu, hnext, hlater, rfl⟩
    exact ⟨recorded, hrecorded, u, hu, (next, update), hnext, later, hlater, rfl⟩

theorem nextRate_eq_stepRate {u : Decimal} (hu : u.units = s.utilization) :
    s.nextRate p = p.stepRate s.learningRate.units u := by
  have hiff : p.Outer u ↔ s.Grows p := by rw [Params.Outer, Grows, le_def, hu]
  unfold nextRate Params.stepRate
  simp only [hiff]

theorem stepRate_of_block (hp : p.Valid) (h : s.Valid p)
    (hrecorded : s.recordAll gases = .ok recorded)
    (hnext : recorded.nextBlock p = .ok (next, update)) :
    next.Valid p ∧ next.learningRate = update.learningRate ∧
      ∃ u, recorded.averageUtilization = .ok u ∧
        update.learningRate.units = p.stepRate s.learningRate.units u := by
  have hvalid := h.recordAll hrecorded
  have hsame : recorded.learningRate = s.learningRate := by
    obtain ⟨gas, rfl, -⟩ := recordAll_eq_filled h.index_lt hrecorded
    rfl
  have hnextValid := hvalid.nextBlock hp hnext
  obtain ⟨rate, fee, hrate, -, -, rfl, rfl⟩ := nextBlock_eq_ok_iff.1 hnext
  refine ⟨hnextValid, rfl, ⟨_, inRange_utilization hp hvalid⟩,
    (averageUtilization_eq_ok_iff hp hvalid).2 rfl, ?_⟩
  rw [((nextLearningRate_eq_ok_iff hp hvalid).1 hrate).2, ← hsame]
  exact nextRate_eq_stepRate rfl

theorem rates_of_play (hp : p.Valid) (h : s.Valid p) (hplay : s.play p blocks = .ok (t, updates)) :
    ∃ us, s.utilizations p blocks = .ok us ∧ us.length = blocks.length ∧ t.Valid p ∧
      t.learningRate.units = us.foldl p.stepRate s.learningRate.units ∧
      (s.learningRate :: updates.map BlockUpdate.learningRate).map units =
        us.scanl p.stepRate s.learningRate.units := by
  induction blocks generalizing s updates with
  | nil =>
    cases hplay
    exact ⟨[], rfl, rfl, h, rfl, rfl⟩
  | cons gases rest ih =>
    obtain ⟨recorded, next, update, later, hrecorded, hnext, hrest, rfl⟩ :=
      play_cons_eq_ok_iff.1 hplay
    obtain ⟨hvalid, hsame, u, hu, hstep⟩ := stepRate_of_block hp h hrecorded hnext
    obtain ⟨us, hus, hlength, hlast, hfinal, hrates⟩ := ih hvalid hrest
    rw [hsame, hstep] at hfinal
    rw [hsame] at hrates
    refine ⟨u :: us, utilizations_cons_eq_ok_iff.2
      ⟨recorded, u, next, update, us, hrecorded, hu, hnext, hus, rfl⟩, congrArg Nat.succ hlength,
      hlast, hfinal, ?_⟩
    rw [List.map_cons, List.map_cons, hrates, hstep, List.scanl_cons]

theorem learningRate_of_constant_play (hp : p.Valid) (hconst : p.calibration = .eip1559)
    (h : s.Valid p) (hplay : s.play p blocks = .ok (t, updates)) :
    t.learningRate = s.learningRate ∧ ∀ update ∈ updates, update.learningRate = s.learningRate := by
  induction blocks generalizing s updates with
  | nil =>
    cases hplay
    exact ⟨rfl, List.forall_mem_nil _⟩
  | cons gases rest ih =>
    obtain ⟨recorded, next, update, later, hrecorded, hnext, hrest, rfl⟩ :=
      play_cons_eq_ok_iff.1 hplay
    obtain ⟨hvalid, hnextRate, -⟩ := stepRate_of_block hp h hrecorded hnext
    have hsame : update.learningRate = s.learningRate := by
      rw [learningRate_of_constant hp hconst (h.recordAll hrecorded) hnext]
      obtain ⟨gas, rfl, -⟩ := recordAll_eq_filled h.index_lt hrecorded
      rfl
    obtain ⟨hlast, hlater⟩ := ih hvalid hrest
    rw [hnextRate, hsame] at hlast hlater
    exact ⟨hlast, List.forall_mem_cons.2 ⟨hsame, hlater⟩⟩

theorem Tracks.units_of_utilizations (hp : p.Valid) (h : s.Tracks p past)
    (hpast : ∀ gas ∈ past, gas = 0)
    (hblocks : ∀ gases ∈ blocks, blockGas gases = 0) (hus : s.utilizations p blocks = .ok us) :
    ∀ u ∈ us, u.units = 0 := by
  induction blocks generalizing s past us with
  | nil =>
    cases hus
    exact List.forall_mem_nil _
  | cons gases rest ih =>
    obtain ⟨recorded, u, next, update, later, hrecorded, hu, hnext, hlater, rfl⟩ :=
      utilizations_cons_eq_ok_iff.1 hus
    obtain ⟨hempty, hrest⟩ := List.forall_mem_cons.1 hblocks
    have hpast' : ∀ gas ∈ blockGas gases :: past, gas = 0 := List.forall_mem_cons.2 ⟨hempty, hpast⟩
    obtain ⟨htracks, -, -⟩ := h.block hp hrecorded hnext
    refine List.forall_mem_cons.2 ⟨?_, ih htracks hpast' hrest hlater⟩
    have hvalid := h.valid.recordAll hrecorded
    have htotal : recorded.totalGas = 0 := by
      rw [totalGas_eq_sum_recent, h.recent_recorded hrecorded, sum_lastBlocks]
      exact List.sum_eq_zero fun gas hgas => hpast' gas (List.mem_of_mem_take hgas)
    rw [(averageUtilization_eq_ok_iff hp hvalid).1 hu, utilization, htotal, Int.natCast_zero,
      Int.zero_mul, Int.zero_tdiv]

theorem toRat_learningRate_le (hp : p.Valid) (h : s.Valid p) {d : Decimal}
    (hd : d.units = us.foldl p.stepRate s.learningRate.units) (hinner : ∀ u ∈ us, ¬ p.Outer u) :
    d.toRat ≤ max p.minLearningRate.toRat (s.learningRate.toRat * p.beta.toRat ^ us.length) := by
  have hgeometric := hp.foldl_stepRate_le_geometric h.minLearningRate_le hinner
  rw [← hd] at hgeometric
  calc d.toRat
      ≤ max (p.minLearningRate.units : ℚ) (s.learningRate.units * p.beta.toRat ^ us.length) /
          scale :=
        div_le_div_of_nonneg_right hgeometric scale_pos.le
    _ = max p.minLearningRate.toRat (s.learningRate.toRat * p.beta.toRat ^ us.length) := by
        rw [← max_div_div_right scale_pos.le, mul_div_right_comm]
        rfl

/-- Over blocks that all close near an empty or a full window the learning rate grows by equal steps
up to its maximum, over blocks that all close between them it decays at least geometrically, and a
constant one stays as it is. -/
theorem learningRate_of_play (hp : p.validate = .ok ()) (hs : s.validate p = .ok ())
    (hplay : s.play p blocks = .ok (t, updates)) :
    ∃ us, s.utilizations p blocks = .ok us ∧ us.length = blocks.length ∧
      ((∀ u ∈ us, p.Outer u) ∨ scale ≤ 2 * p.theta.units ∨
          (s = new p ∧ ∀ gases ∈ blocks, blockGas gases = 0) →
        t.learningRate.units =
          min (s.learningRate.units + blocks.length * p.alpha.units) p.maxLearningRate.units) ∧
      ((∀ u ∈ us, ¬ p.Outer u) →
        (s.learningRate :: updates.map BlockUpdate.learningRate).Pairwise (· ≥ ·) ∧
          p.minLearningRate ≤ t.learningRate ∧
          t.learningRate.toRat ≤
            max p.minLearningRate.toRat (s.learningRate.toRat * p.beta.toRat ^ blocks.length)) ∧
      (p.calibration = .eip1559 →
        t.learningRate = s.learningRate ∧
          ∀ update ∈ updates, update.learningRate = s.learningRate) := by
  have hp := Params.validate_eq_ok_iff.1 hp
  have h := validate_eq_ok_iff.1 hs
  obtain ⟨us, hus, hlength, hlast, hfinal, hrates⟩ := rates_of_play hp h hplay
  refine ⟨us, hus, hlength, ?outer, ?inner,
    fun hconst => learningRate_of_constant_play hp hconst h hplay⟩
  case outer =>
    intro hcause
    have houter : ∀ u ∈ us, p.Outer u := by
      obtain houter | hwide | ⟨rfl, hempty⟩ := hcause
      · exact houter
      · exact fun u _ => Params.outer_of_wide hwide u
      · intro u hu
        exact hp.outer_of_units_zero
          ((tracks_new hp).units_of_utilizations hp (List.forall_mem_nil _)
          hempty hus u hu)
    rw [hfinal, ← hlength]
    exact hp.foldl_stepRate_of_outer h.le_maxLearningRate houter
  case inner =>
    intro hinner
    have hpairs := (hp.scanl_stepRate_of_inner h.minLearningRate_le hinner).2
    rw [← hrates, List.pairwise_map] at hpairs
    rw [← hlength]
    exact ⟨hpairs, hlast.minLearningRate_le, toRat_learningRate_le hp h hfinal hinner⟩

theorem learningRate_of_play_empty :
    let p : Params := { Params.eip1559 with
      alpha := .ofAtoms 300000000000000000
      minLearningRate := .ofAtoms 50000000000000000
      maxLearningRate := .one }
    ∃ (t : Controller) (updates : List BlockUpdate),
      (new p).play p [[], [], [], []] = .ok (t, updates) ∧ t.learningRate = .one := by
  intro p
  have hp : p.validate = .ok () := toOption_eq_some_iff.1 (by decide +kernel)
  have hs : (new p).validate p = .ok () := toOption_eq_some_iff.1 (by decide +kernel)
  have hends : ((new p).play p [[], [], [], []]).toOption.isSome := by decide +kernel
  obtain ⟨⟨t, updates⟩, hend⟩ := Option.isSome_iff_exists.1 hends
  have hplay := toOption_eq_some_iff.1 hend
  obtain ⟨us, -, -, hgrown, -⟩ := learningRate_of_play hp hs hplay
  exact ⟨t, updates, hplay, Decimal.ext (hgrown (.inr (.inr ⟨rfl, by decide⟩)))⟩

end Controller

end GasMarket
