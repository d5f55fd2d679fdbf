import GasMarket.Proofs.Decimal.Fraction
import GasMarket.Proofs.Pricing.Cost
import GasMarket.Proofs.Pricing.Growth
import Mathlib.Order.Iterate

namespace GasMarket

open Decimal

namespace Controller

def ceiling : Int := 10 ^ 38 * scale

structure Tame (p : Params) (s : Controller) : Prop where
  valid : s.Valid p
  maxGas_le : s.maxGas.toNat ≤ 10 * s.targetGas.toNat
  minBaseFee_nonneg : 0 ≤ s.minBaseFee.units

/-- No invariant breaks: blocks close, gas has a cost, and fees are refused for what they are. -/
structure Serves (p : Params) (s : Controller) : Prop where
  closes : ∃ next update, s.nextBlock p = .ok (next, update)
  costs : ∀ rates gas, ∃ fee, s.requiredFee p rates gas p.feeDenom = .ok fee
  checks : ∀ rates tx context e, (∀ coin ∈ tx.fee, coin.denom = p.feeDenom) →
    s.checkFee p rates tx context = .error e → ¬ e.isFatal
  records : ∀ gas e, s.recordGas gas = .error e → ¬ e.isFatal

def raised (s : Controller) (fee : ℚ) : ℚ :=
  max (10 * fee + s.window.length * s.maxGas.toNat) s.minBaseFee.toRat

def offer (s : Controller) (gas : UInt64) : Controller :=
  match s.recordGas gas with
  | .ok t => t
  | .error _ => s

def playFitting (p : Params) (s : Controller) : List (List UInt64) → Except Error Controller
  | [] => .ok s
  | gases :: rest => do
    let (next, _) ← (gases.foldl offer s).nextBlock p
    next.playFitting p rest

variable {p : Params} {s next : Controller} {update : BlockUpdate}

section Block

theorem Tame.baseFee_nonneg (h : s.Tame p) : 0 ≤ s.baseFee.units :=
  Int.le_trans h.minBaseFee_nonneg h.valid.minBaseFee_le

theorem Tame.rated (hp : p.Gentle) (h : s.Tame p) {rate : Decimal}
    (hrate : s.nextLearningRate p = .ok rate) : Tame p { s with learningRate := rate } where
  valid := h.valid.rated hp.valid hrate
  maxGas_le := h.maxGas_le
  minBaseFee_nonneg := h.minBaseFee_nonneg

theorem Tame.adjustment_le (hp : p.Gentle) (h : s.Tame p) : s.adjustment ≤ 10 * scale := by
  have hle := Controller.adjustment_le (k := 9) hp.valid h.valid h.maxGas_le
  have hrate := hp.maxLearningRate_le
  omega

theorem netTerm_le_capacity (hp : p.Gentle) (h : s.Valid p) :
    s.netTerm p ≤ s.window.length * s.maxGas.toNat * scale := by
  have hnet := h.netUtilization_le
  rw [Int.mul_comm] at hnet
  calc s.netTerm p
      ≤ s.window.length * s.maxGas.toNat * p.delta.units :=
        Int.mul_le_mul_of_nonneg_right hnet hp.valid.delta_nonneg
    _ ≤ s.window.length * s.maxGas.toNat * scale :=
        Int.mul_le_mul_of_nonneg_left hp.delta_le
          (Int.mul_nonneg (Int.natCast_nonneg _) (Int.natCast_nonneg _))

theorem Tame.movedFee_le (hp : p.Gentle) (h : s.Tame p) :
    s.movedFee p ≤ 10 * s.baseFee.units + s.window.length * s.maxGas.toNat * scale := by
  have hproduct : (s.baseFee.units * s.adjustment).tdiv scale ≤ 10 * s.baseFee.units := by
    calc (s.baseFee.units * s.adjustment).tdiv scale
        ≤ (10 * s.baseFee.units * scale).tdiv scale := by
          apply Int.tdiv_le_tdiv (by decide)
          rw [Int.mul_comm 10, Int.mul_assoc]
          exact Int.mul_le_mul_of_nonneg_left (h.adjustment_le hp) h.baseFee_nonneg
      _ = 10 * s.baseFee.units := Int.mul_tdiv_cancel _ (by decide)
  exact Int.add_le_add hproduct (netTerm_le_capacity hp h.valid)

theorem Tame.factor_le (hp : p.Gentle) (h : s.Tame p) : s.factor p ≤ 10 * scale := by
  obtain ⟨rate, hrate, hunits⟩ := exists_nextLearningRate hp h.valid
  rw [← adjustment_rated hunits]
  exact (h.rated hp hrate).adjustment_le hp

theorem Tame.exists_nextBlock (hp : p.Gentle) (h : s.Tame p) (hfee : s.baseFee.units ≤ ceiling) :
    ∃ pair, s.nextBlock p = .ok pair := by
  apply (exists_nextBlock_iff hp h.valid h.baseFee_nonneg).2
  calc s.baseFee.units * s.factor p
      ≤ s.baseFee.units * (10 * scale) :=
        Int.mul_le_mul_of_nonneg_left (h.factor_le hp) h.baseFee_nonneg
    _ ≤ ceiling * (10 * scale) := Int.mul_le_mul_of_nonneg_right hfee (by decide)
    _ < bound := by decide

theorem Tame.nextBlock (hp : p.Gentle) (h : s.Tame p) (hnext : s.nextBlock p = .ok (next, update)) :
    next.Tame p ∧ next.raised = s.raised ∧ next.baseFee.toRat ≤ s.raised s.baseFee.toRat := by
  have hvalid := h.valid.nextBlock hp.valid hnext
  obtain ⟨rate, fee, hrate, hfee, -, rfl, -⟩ := nextBlock_eq_ok_iff.1 hnext
  have hrated := h.rated hp hrate
  obtain ⟨-, -, -, -, -, hunits⟩ := (nextBaseFee_eq_ok_iff hp.valid hrated.valid).1 hfee
  refine ⟨⟨hvalid, h.maxGas_le, h.minBaseFee_nonneg⟩, ?_, ?_⟩
  · unfold raised advanced
    rw [List.length_set]
  · rw [raised, max_comm]
    apply toRat_le_max hunits
    rw [add_mul, mul_assoc, toRat_mul_scale]
    exact_mod_cast hrated.movedFee_le hp

end Block

section Run

theorem le_raised (hfloor : 0 ≤ s.minBaseFee.units) (fee : ℚ) : fee ≤ s.raised fee := by
  by_cases hfee : 0 ≤ fee
  · apply le_max_of_le_left
    have hcapacity : (0 : ℚ) ≤ s.window.length * s.maxGas.toNat :=
      mul_nonneg (Nat.cast_nonneg _) (Nat.cast_nonneg _)
    linarith
  · exact le_max_of_le_right ((le_of_not_ge hfee).trans (toRat_nonneg hfloor))

theorem raised_mono (s : Controller) : Monotone s.raised := by
  intro fee fee' hfee
  apply max_le_max_right
  linarith

theorem Tame.offer (h : s.Tame p) (gas : UInt64) :
    (s.offer gas).Tame p ∧ (s.offer gas).raised = s.raised ∧ (s.offer gas).baseFee = s.baseFee := by
  unfold Controller.offer
  split
  · next t ht =>
    have hvalid := h.valid.recordGas ht
    obtain ⟨-, -, rfl⟩ := recordGas_eq_ok_iff.1 ht
    refine ⟨⟨hvalid, h.maxGas_le, h.minBaseFee_nonneg⟩, ?_, rfl⟩
    unfold raised
    rw [List.length_set]
  · exact ⟨h, rfl, rfl⟩

theorem Tame.offers (h : s.Tame p) (gases : List UInt64) : (gases.foldl Controller.offer s).Tame p ∧
    (gases.foldl Controller.offer s).raised = s.raised ∧
    (gases.foldl Controller.offer s).baseFee = s.baseFee := by
  induction gases generalizing s with
  | nil => exact ⟨h, rfl, rfl⟩
  | cons gas rest ih =>
    obtain ⟨htame, hraised, hfee⟩ := h.offer gas
    obtain ⟨htame', hraised', hfee'⟩ := ih htame
    exact ⟨htame', hraised'.trans hraised, hfee'.trans hfee⟩

theorem units_le_ceiling (h : s.baseFee.toRat ≤ 10 ^ 38) : s.baseFee.units ≤ ceiling := by
  rw [toRat, div_le_iff₀ scale_pos] at h
  exact_mod_cast h

theorem Tame.playFitting (hp : p.Gentle) (h : s.Tame p) {blocks : List (List UInt64)}
    (hlimit : s.raised^[blocks.length] s.baseFee.toRat ≤ 10 ^ 38) :
    ∃ t, s.playFitting p blocks = .ok t ∧
      t.Tame p ∧ t.baseFee.toRat ≤ s.raised^[blocks.length] s.baseFee.toRat := by
  induction blocks generalizing s with
  | nil => exact ⟨s, rfl, h, le_rfl⟩
  | cons gases rest ih =>
    obtain ⟨hoffered, hraised, hfee⟩ := h.offers gases
    have hlow : s.baseFee.toRat ≤ 10 ^ 38 :=
      (Function.id_le_iterate_of_id_le (le_raised h.minBaseFee_nonneg) _ _).trans hlimit
    obtain ⟨⟨next, update⟩, hnext⟩ := hoffered.exists_nextBlock hp (hfee ▸ units_le_ceiling hlow)
    obtain ⟨htame, hsame, hmoved⟩ := hoffered.nextBlock hp hnext
    rw [hraised, hfee] at hmoved
    rw [hraised] at hsame
    have hstep : next.raised^[rest.length] next.baseFee.toRat ≤
        s.raised^[rest.length + 1] s.baseFee.toRat := by
      rw [hsame, Function.iterate_succ_apply]
      exact s.raised_mono.iterate rest.length hmoved
    obtain ⟨t, ht, htame', hle⟩ := ih htame (hstep.trans hlimit)
    refine ⟨t, ?_, htame', hle.trans hstep⟩
    rw [Controller.playFitting, hnext]
    exact ht

theorem Tame.serves (hp : p.Gentle) (h : s.Tame p) (hfee : s.baseFee.units ≤ ceiling) :
    s.Serves p := by
  have hcosts (rates : Rates) (gas : UInt64) :
      ∃ fee, s.requiredFee p rates gas p.feeDenom = .ok fee := by
    apply exists_requiredFee_feeDenom h.baseFee_nonneg
    have hgas : (gas.toNat : Int) ≤ 2 ^ 64 := by
      have hlt := gas.toNat_lt
      omega
    calc s.baseFee.units * gas.toNat
        ≤ s.baseFee.units * 2 ^ 64 := Int.mul_le_mul_of_nonneg_left hgas h.baseFee_nonneg
      _ ≤ ceiling * 2 ^ 64 := Int.mul_le_mul_of_nonneg_right hfee (by decide)
      _ < bound := by decide
  refine ⟨?closes, hcosts, ?checks, ?records⟩
  case closes =>
    obtain ⟨⟨next, update⟩, hnext⟩ := h.exists_nextBlock hp hfee
    exact ⟨next, update, hnext⟩
  case checks =>
    intro rates tx context e hdenom
    apply not_isFatal_of_checkFee
    intro fee hoffered
    rw [denom_offeredFee hdenom hoffered]
    exact hcosts rates tx.gasLimit
  case records =>
    intro gas e he
    rw [isFatal_of_recordGas h.valid.index_lt he]
    exact Bool.false_ne_true

/-- Under gentle params, with blocks of at most ten targets, a floor that is not negative and a base
fee in the envelope, a controller serves, and its next base fee is bounded.  For as many blocks as
the bound stays in the envelope, it closes them whatever they record, and serves all along. -/
theorem serves_in_envelope (hp : p.validate = .ok ()) (halpha : p.alpha ≤ .one)
    (hdelta : p.delta ≤ .one) (hrate : p.maxLearningRate ≤ .one) (hs : s.validate p = .ok ())
    (hmax : s.maxGas.toNat ≤ 10 * s.targetGas.toNat) (hfloor : .zero ≤ s.minBaseFee) :
    (s.baseFee.toRat ≤ 10 ^ 38 → s.Serves p ∧ ∀ next update, s.nextBlock p = .ok (next, update) →
      update.baseFee = next.baseFee ∧ next.baseFee.toRat ≤
        max (10 * s.baseFee.toRat + p.window.toNat * s.maxGas.toNat) s.minBaseFee.toRat) ∧
    ∀ n, s.raised^[n] s.baseFee.toRat ≤ 10 ^ 38 → ∀ blocks : List (List UInt64), blocks.length ≤ n →
      ∃ t, s.playFitting p blocks = .ok t ∧
        t.baseFee.toRat ≤ s.raised^[blocks.length] s.baseFee.toRat ∧
        ∀ gases : List UInt64, (gases.foldl offer t).Serves p := by
  have hvalid := Params.validate_eq_ok_iff.1 hp
  have hgentle : p.Gentle := ⟨hvalid, halpha, hdelta, hrate⟩
  have htame : s.Tame p := ⟨validate_eq_ok_iff.1 hs, hmax, hfloor⟩
  constructor
  · intro hfee
    refine ⟨htame.serves hgentle (units_le_ceiling hfee), fun next update hnext => ?_⟩
    obtain ⟨-, -, hmoved⟩ := htame.nextBlock hgentle hnext
    obtain ⟨rate, fee, -, -, -, rfl, rfl⟩ := nextBlock_eq_ok_iff.1 hnext
    rw [raised, htame.valid.length_window] at hmoved
    exact ⟨rfl, hmoved⟩
  · intro n hn blocks hblocks
    have hlimit : s.raised^[blocks.length] s.baseFee.toRat ≤ 10 ^ 38 :=
      (s.raised_mono.monotone_iterate_of_le_map (le_raised hfloor _) hblocks).trans hn
    obtain ⟨t, ht, htame', hle⟩ := htame.playFitting hgentle hlimit
    refine ⟨t, ht, hle, fun gases => ?_⟩
    obtain ⟨hoffered, -, hfee⟩ := htame'.offers gases
    exact hoffered.serves hgentle (hfee ▸ units_le_ceiling (hle.trans hlimit))

theorem serves_twenty_full_blocks : (new .eip1559).Serves .eip1559 ∧
    ∃ t, (new .eip1559).playFitting .eip1559 (List.replicate 20 [30000000]) = .ok t ∧
      t.baseFee.toRat ≤ (new .eip1559).raised^[20] (new .eip1559).baseFee.toRat ∧
      t.Serves .eip1559 := by
  have hp := Params.valid_ofCalibration .eip1559
  have hs := validate_eq_ok_iff.2 (valid_new hp)
  obtain ⟨hserves, hrun⟩ :=
    serves_in_envelope (Params.validate_eq_ok_iff.2 hp) (by decide) (by decide)
    (by decide) hs (by decide) (by decide)
  obtain ⟨t, ht, hle, hserves'⟩ :=
    hrun 20 (by decide +kernel) (List.replicate 20 [30000000]) (by decide)
  exact ⟨(hserves (by decide +kernel)).1, t, ht, hle, hserves' []⟩

end Run

end Controller

end GasMarket
