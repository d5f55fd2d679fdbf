import GasMarket.Proofs.Validity.Controller

namespace GasMarket

open Decimal

namespace Controller

def utilization (s : Controller) : Int :=
  (s.totalGas * scale : Int).tdiv (s.maxGas.toNat * s.window.length : Nat)

def Grows (p : Params) (s : Controller) : Prop :=
  s.utilization ≤ p.theta.units ∨ scale - p.theta.units ≤ s.utilization

instance (p : Params) (s : Controller) : Decidable (s.Grows p) :=
  inferInstanceAs (Decidable (_ ∨ _))

def nextRate (p : Params) (s : Controller) : Int :=
  if s.Grows p then min (s.learningRate.units + p.alpha.units) p.maxLearningRate.units
  else max ((s.learningRate.units * p.beta.units).tdiv scale) p.minLearningRate.units

def deviation (s : Controller) : Int :=
  ((s.currentGas.toNat - s.targetGas.toNat) * scale : Int).tdiv s.targetGas.toNat

def adjustment (s : Controller) : Int := scale + (s.learningRate.units * s.deviation).tdiv scale

def netTerm (p : Params) (s : Controller) : Int := s.netUtilization * p.delta.units

def movedFee (p : Params) (s : Controller) : Int :=
  (s.baseFee.units * s.adjustment).tdiv scale + s.netTerm p

theorem inRange_scaled {n : Int} (h : n.natAbs ≤ 2 ^ 80) :
    InRange (scale * n) ∧ InRange (scale * n * scale) := by
  unfold InRange bound scale
  omega

section Bounds

variable {p : Params} {s : Controller}

theorem foldl_gas (gases : List UInt64) (start : Nat) :
    gases.foldl (fun total gas => total + gas.toNat) start =
      start + (gases.map UInt64.toNat).sum := by
  induction gases generalizing start with
  | nil => rfl
  | cons gas rest ih =>
    rw [List.foldl_cons, ih, List.map_cons, List.sum_cons, Nat.add_assoc]

theorem totalGas_eq (s : Controller) : s.totalGas = (s.window.map UInt64.toNat).sum := by
  rw [totalGas, foldl_gas, Nat.zero_add]

theorem Valid.totalGas_le (h : s.Valid p) : s.totalGas ≤ s.maxGas.toNat * s.window.length := by
  have hslots := h.slot_le
  rw [totalGas_eq]
  generalize s.window = gases at hslots
  induction gases with
  | nil => exact Nat.zero_le _
  | cons gas rest ih =>
    obtain ⟨hgas, hrest⟩ := List.forall_mem_cons.1 hslots
    rw [List.map_cons, List.sum_cons, List.length_cons, Nat.mul_succ, Nat.add_comm]
    exact Nat.add_le_add (ih hrest) hgas

theorem Valid.netUtilization_le (h : s.Valid p) :
    s.netUtilization ≤ s.maxGas.toNat * s.window.length := by
  have htotal : (s.totalGas : Int) ≤ s.maxGas.toNat * s.window.length := by
    exact_mod_cast h.totalGas_le
  have htarget : (0 : Int) ≤ s.targetGas.toNat * s.window.length :=
    Int.mul_nonneg (Int.natCast_nonneg _) (Int.natCast_nonneg _)
  unfold netUtilization
  omega

theorem Valid.currentGas_le (h : s.Valid p) : s.currentGas.toNat ≤ s.maxGas.toNat := by
  rw [currentGas, List.getElem?_eq_getElem h.index_lt]
  exact h.slot_le _ (List.getElem_mem h.index_lt)

theorem Valid.capacity_le (hp : p.Valid) (h : s.Valid p) :
    s.maxGas.toNat * s.window.length ≤ 2 ^ 80 := by
  have hwindow : s.window.length ≤ 2 ^ 16 := by
    rw [h.length_window]
    exact hp.window_le
  calc s.maxGas.toNat * s.window.length
      ≤ 2 ^ 64 * 2 ^ 16 := Nat.mul_le_mul (Nat.le_of_lt s.maxGas.toNat_lt) hwindow
    _ = 2 ^ 80 := by decide

theorem Valid.capacity_pos (h : s.Valid p) : 0 < s.maxGas.toNat * s.window.length :=
  Nat.mul_pos (Nat.lt_of_lt_of_le h.target_pos h.target_le) (Nat.zero_lt_of_lt h.index_lt)

end Bounds

section Closed

variable {p : Params} {s : Controller}

theorem averageUtilization_eq_ok_iff (hp : p.Valid) (h : s.Valid p) {u : Decimal} :
    s.averageUtilization = .ok u ↔ u.units = s.utilization := by
  have hcapacity := h.capacity_le hp
  obtain ⟨htotal, hnumerator⟩ :
      InRange (scale * s.totalGas) ∧ InRange (scale * s.totalGas * scale) :=
    inRange_scaled (Nat.le_trans h.totalGas_le hcapacity : s.totalGas ≤ 2 ^ 80)
  have hquo : (scale * s.totalGas * scale : Int).tdiv (scale * (s.maxGas.toNat * s.window.length)) =
      s.utilization := by
    rw [utilization, Int.mul_assoc, Int.mul_tdiv_mul_of_pos _ _ (by decide), Int.natCast_mul]
  simp only [averageUtilization, bind_eq_ok_iff, ofInt_eq_ok_iff, quo_eq_ok_iff]
  constructor
  · rintro ⟨total, htotal, capacity, hcapacity, -, -, hu⟩
    rw [hu, htotal, hcapacity, hquo]
  · intro hu
    have hpos := h.capacity_pos
    rw [← Int.natCast_mul] at hquo ⊢
    obtain ⟨hdivisor, -⟩ := inRange_scaled (n := (s.maxGas.toNat * s.window.length : Nat)) hcapacity
    refine ⟨⟨_, htotal⟩, rfl, ⟨_, hdivisor⟩, rfl, ?_, hnumerator, hu.trans hquo.symm⟩
    exact Int.mul_ne_zero (by decide) (Int.natCast_ne_zero_iff_pos.2 hpos)

theorem inRange_utilization (hp : p.Valid) (h : s.Valid p) : InRange s.utilization := by
  obtain ⟨-, hnumerator⟩ := inRange_scaled (n := s.totalGas)
    (Nat.le_trans h.totalGas_le (h.capacity_le hp))
  have hle : (s.totalGas * scale : Int).natAbs ≤ 2 ^ 200 := by
    have := Nat.le_trans h.totalGas_le (h.capacity_le hp)
    unfold scale
    omega
  exact (inRange_of_natAbs_le hle (by decide)).tdiv (by have := h.capacity_pos; omega)

theorem nextLearningRate_eq (hp : p.Valid) (h : s.Valid p) : s.nextLearningRate p =
    if s.Grows p then (s.learningRate.add p.alpha).map (min · p.maxLearningRate)
    else (s.learningRate.mul p.beta).map (max · p.minLearningRate) := by
  have hu := (averageUtilization_eq_ok_iff hp h (u := ⟨_, inRange_utilization hp h⟩)).2 rfl
  have hrange : InRange (one.units - p.theta.units) := by
    have hle : p.theta.units ≤ one.units := hp.theta_unit.2
    have hnonneg : ¬ p.theta.units < 0 := hp.theta_unit.1
    rw [units_one] at hle ⊢
    unfold InRange bound scale at *
    omega
  have hband : one.sub p.theta = .ok ⟨_, hrange⟩ := sub_eq_ok_iff.2 rfl
  rw [nextLearningRate, hu, hband]
  change (if s.Grows p then _ else _) = _
  split
  · cases s.learningRate.add p.alpha <;> rfl
  · cases s.learningRate.mul p.beta <;> rfl

theorem nextLearningRate_eq_ok_iff (hp : p.Valid) (h : s.Valid p) {rate : Decimal} :
    s.nextLearningRate p = .ok rate ↔
      InRange (if s.Grows p then s.learningRate.units + p.alpha.units
        else s.learningRate.units * p.beta.units) ∧ rate.units = s.nextRate p := by
  rw [nextLearningRate_eq hp h, nextRate]
  by_cases hgrows : s.Grows p
  · simp only [if_pos hgrows, map_eq_ok_iff, add_eq_ok_iff]
    constructor
    · rintro ⟨sum, hsum, rfl⟩
      exact ⟨hsum ▸ sum.inRange, by rw [units_min, hsum]⟩
    · rintro ⟨hrange, hrate⟩
      exact ⟨⟨_, hrange⟩, rfl, Decimal.ext (by rw [units_min, hrate])⟩
  · simp only [if_neg hgrows, map_eq_ok_iff, mul_eq_ok_iff]
    constructor
    · rintro ⟨product, ⟨hrange, hproduct⟩, rfl⟩
      exact ⟨hrange, by rw [units_max, hproduct]⟩
    · rintro ⟨hrange, hrate⟩
      exact ⟨⟨_, hrange.tdiv (by decide)⟩, ⟨hrange, rfl⟩, Decimal.ext (by rw [units_max, hrate])⟩

theorem onlyOverflows_nextLearningRate (hp : p.Valid) (h : s.Valid p) :
    OnlyOverflows (s.nextLearningRate p) := by
  rw [nextLearningRate_eq hp h]
  split
  · exact (onlyOverflows_add _ _).map _
  · exact (onlyOverflows_mul _ _).map _

theorem Valid.natAbs_netUtilization_le (hp : p.Valid) (h : s.Valid p) :
    s.netUtilization.natAbs ≤ 2 ^ 80 := by
  have htotal := Nat.le_trans h.totalGas_le (h.capacity_le hp)
  have htarget : s.targetGas.toNat * s.window.length ≤ 2 ^ 80 := by
    have hle := Nat.mul_le_mul_right s.window.length h.target_le
    exact Nat.le_trans hle (h.capacity_le hp)
  unfold netUtilization
  rw [← Int.natCast_mul]
  generalize s.targetGas.toNat * s.window.length = target at *
  generalize s.totalGas = total at *
  omega

theorem natAbs_deviation_le (s : Controller) : s.deviation.natAbs ≤ 2 ^ 124 := by
  calc s.deviation.natAbs
      ≤ ((s.currentGas.toNat - s.targetGas.toNat) * scale : Int).natAbs :=
        Int.natAbs_tdiv_le_natAbs _ _
    _ ≤ 2 ^ 124 := by
        have := s.currentGas.toNat_lt
        have := s.targetGas.toNat_lt
        unfold scale
        omega

theorem inRange_deviation (s : Controller) : InRange s.deviation :=
  inRange_of_natAbs_le s.natAbs_deviation_le (by decide)

theorem exists_gap (h : s.Valid p) :
    ∃ gap, Decimal.ofInt (s.currentGas.toNat - s.targetGas.toNat) = .ok gap ∧
      gap.quo (.ofUInt64 s.targetGas) = .ok ⟨s.deviation, s.inRange_deviation⟩ := by
  have hgap : ((s.currentGas.toNat : Int) - s.targetGas.toNat).natAbs ≤ 2 ^ 80 := by
    have := s.currentGas.toNat_lt
    have := s.targetGas.toNat_lt
    omega
  obtain ⟨hrange, hnumerator⟩ := inRange_scaled hgap
  refine ⟨⟨_, hrange⟩, ofInt_eq_ok_iff.2 rfl, quo_eq_ok_iff.2 ⟨?_, hnumerator, ?_⟩⟩
  · exact Int.mul_ne_zero (Int.natCast_ne_zero_iff_pos.2 h.target_pos) (by decide)
  · change s.deviation = _
    rw [deviation, units_ofUInt64, Int.mul_tdiv_mul_of_pos_left _ _ (by decide), Int.mul_comm]

theorem Valid.targetGas_ne_zero (h : s.Valid p) : ¬ s.targetGas = 0 := by
  intro hzero
  have hpos := h.target_pos
  rw [hzero] at hpos
  exact absurd hpos (by decide)

theorem netTerm_eq (p : Params) (s : Controller) :
    (scale * s.netUtilization * p.delta.units).tdiv scale = s.netTerm p := by
  rw [Int.mul_assoc, Int.mul_tdiv_cancel_left _ (by decide), netTerm]

theorem nextBaseFee_eq_ok_iff (hp : p.Valid) (h : s.Valid p) {fee : Decimal} :
    s.nextBaseFee p = .ok fee ↔
      InRange (s.learningRate.units * s.deviation) ∧ InRange s.adjustment ∧
      InRange (scale * s.netUtilization * p.delta.units) ∧
      InRange (s.baseFee.units * s.adjustment) ∧ InRange (s.movedFee p) ∧
      fee.units = max (s.movedFee p) s.minBaseFee.units := by
  obtain ⟨hnet, -⟩ := inRange_scaled (h.natAbs_netUtilization_le hp)
  obtain ⟨gap, hgap, hratio⟩ := exists_gap h
  unfold nextBaseFee
  rw [if_neg h.targetGas_ne_zero, hgap]
  simp only [bind_eq_ok_iff, Except.ok.injEq, exists_eq_left', hratio, mul_eq_ok_iff, add_eq_ok_iff,
    ofInt_eq_ok_iff, units_one]
  constructor
  · rintro ⟨change, ⟨hchange, hchange'⟩, adjustment, hadjustment, net, hnet', term, ⟨hterm, hterm'⟩,
      product, ⟨hproduct, hproduct'⟩, moved, hmoved, hfee⟩
    cases hfee
    rw [hchange'] at hadjustment
    rw [hnet'] at hterm hterm'
    rw [netTerm_eq] at hterm'
    have hadjusted : adjustment.units = s.adjustment := hadjustment
    rw [hadjusted] at hproduct hproduct'
    have hmoved' : moved.units = s.movedFee p := by rw [hmoved, hproduct', hterm', movedFee]
    refine ⟨hchange, hadjusted ▸ adjustment.inRange, hterm, hproduct, hmoved' ▸ moved.inRange, ?_⟩
    rw [units_max, hmoved']
  · rintro ⟨hchange, hadjustment, hterm, hproduct, hmoved, hfee⟩
    have hterm' : InRange (s.netTerm p) := netTerm_eq p s ▸ hterm.tdiv (by decide)
    refine ⟨⟨_, hchange.tdiv (by decide)⟩, ⟨hchange, rfl⟩, ⟨_, hadjustment⟩, rfl, ⟨_, hnet⟩, rfl,
      ⟨_, hterm'⟩, ⟨hterm, (netTerm_eq p s).symm⟩, ⟨_, hproduct.tdiv (by decide)⟩, ⟨hproduct, rfl⟩,
      ⟨_, hmoved⟩, rfl, congrArg _ (Decimal.ext ?_)⟩
    rw [units_max, hfee]

theorem onlyOverflows_nextBaseFee (h : s.Valid p) : OnlyOverflows (s.nextBaseFee p) := by
  have htarget : (Decimal.ofUInt64 s.targetGas).units ≠ 0 :=
    Int.mul_ne_zero (Int.natCast_ne_zero_iff_pos.2 h.target_pos) (by decide)
  unfold nextBaseFee
  rw [if_neg h.targetGas_ne_zero]
  apply (onlyOverflows_ofInt _).bind
  intro gap _
  apply (onlyOverflows_quo _ htarget).bind
  intro ratio _
  apply (onlyOverflows_mul _ _).bind
  intro change _
  apply (onlyOverflows_add _ _).bind
  intro adjustment _
  apply (onlyOverflows_ofInt _).bind
  intro net _
  apply (onlyOverflows_mul _ _).bind
  intro term _
  apply (onlyOverflows_mul _ _).bind
  intro product _
  apply (onlyOverflows_add _ _).bind
  intro moved _
  exact onlyOverflows_ok _

theorem Valid.rated (hp : p.Valid) (h : s.Valid p) {rate : Decimal}
    (hrate : s.nextLearningRate p = .ok rate) : Valid p { s with learningRate := rate } :=
  { h with
    minLearningRate_le := (nextLearningRate_mem hp h hrate).1
    le_maxLearningRate := (nextLearningRate_mem hp h hrate).2 }

theorem eq_overflow_of_nextBlock (hp : p.Valid) (h : s.Valid p) {e : Error}
    (he : s.nextBlock p = .error e) : e = .arithmetic .overflow := by
  cases hrate : s.nextLearningRate p with
  | error fault =>
    have hupdate : s.updateLearningRate p = .error (.arithmetic fault) := by
      rw [updateLearningRate, hrate]
    rw [nextBlock, hupdate] at he
    cases he
    rw [onlyOverflows_nextLearningRate hp h fault hrate]
  | ok rate =>
    have hrated := h.rated hp hrate
    have hupdate : s.updateLearningRate p = .ok { s with learningRate := rate } :=
      updateLearningRate_eq_ok_iff.2 ⟨rate, hrate, rfl⟩
    cases hfee : nextBaseFee p { s with learningRate := rate } with
    | error fault =>
      have hpriced :
          updateBaseFee p { s with learningRate := rate } = .error (.arithmetic fault) := by
        rw [updateBaseFee, hfee]
      rw [nextBlock, hupdate] at he
      change (updateBaseFee p _ >>= _) = _ at he
      rw [hpriced] at he
      cases he
      rw [onlyOverflows_nextBaseFee hrated fault hfee]
    | ok fee =>
      have hwindow : s.window ≠ [] := List.ne_nil_of_length_pos (Nat.zero_lt_of_lt h.index_lt)
      rw [nextBlock_eq_ok_iff.2 ⟨rate, fee, hrate, hfee, hwindow, rfl, rfl⟩] at he
      cases he

end Closed

end Controller

end GasMarket
