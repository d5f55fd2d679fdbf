import GasMarket.Controller.Update
import GasMarket.Controller.Validity
import GasMarket.Proofs.Decimal.Arithmetic
import GasMarket.Proofs.Validity.Params

namespace GasMarket.Controller

structure Valid (p : Params) (s : Controller) : Prop where
  length_window : s.window.length = p.window.toNat
  slot_le : ∀ gas ∈ s.window, gas.toNat ≤ s.maxGas.toNat
  minBaseFee_le : s.minBaseFee.units ≤ s.baseFee.units
  minLearningRate_le : p.minLearningRate.units ≤ s.learningRate.units
  le_maxLearningRate : s.learningRate.units ≤ p.maxLearningRate.units
  target_pos : 0 < s.targetGas.toNat
  target_le : s.targetGas.toNat ≤ s.maxGas.toNat
  index_lt : s.index.toNat < s.window.length

theorem slotDefect?_eq_none_iff {s : Controller} :
    s.slotDefect? = none ↔ ∀ gas ∈ s.window, gas.toNat ≤ s.maxGas.toNat := by
  simp [slotDefect?, List.find?_eq_none, UInt64.le_iff_toNat_le]

theorem defect?_eq_none_iff {p : Params} {s : Controller} : s.defect? p = none ↔ s.Valid p := by
  simp only [defect?, pricingDefect?, check_eq_none_iff, Option.orElse_eq_orElse,
    Option.orElse_eq_or, Option.or_eq_none_iff, slotDefect?_eq_none_iff, Decimal.lt_def,
    ← UInt64.toNat_inj, UInt64.toNat_zero, UInt64.lt_iff_toNat_lt, Decidable.not_not, and_true,
    not_or, Nat.not_lt, Int.not_lt, Nat.not_le]
  constructor
  · rintro ⟨hw, hs, hf, ⟨hl, hu⟩, hg, hg', hi⟩
    exact ⟨hw, hs, hf, hl, hu, by omega, hg', hi⟩
  · intro h
    have hg : s.targetGas.toNat ≠ 0 := Nat.pos_iff_ne_zero.1 h.target_pos
    exact ⟨h.length_window, h.slot_le, h.minBaseFee_le,
      ⟨h.minLearningRate_le, h.le_maxLearningRate⟩, hg, h.target_le, h.index_lt⟩

theorem validate_eq_ok_iff {p : Params} {s : Controller} : s.validate p = .ok () ↔ s.Valid p := by
  rw [← defect?_eq_none_iff, validate]
  cases s.defect? p <;> simp

theorem valid_new {p : Params} (h : p.Valid) : (new p).Valid p where
  length_window := length_window_new p
  slot_le := by
    intro gas hgas
    rw [List.eq_of_mem_replicate hgas]
    exact Nat.zero_le _
  minBaseFee_le := Int.le_refl _
  minLearningRate_le := Int.le_refl _
  le_maxLearningRate := h.learningRates_le
  target_pos := h.target_pos
  target_le := h.target_le
  index_lt := by rw [length_window_new]; exact h.window_pos

theorem recordGas_eq_ok_iff {s t : Controller} {gas : UInt64} :
    s.recordGas gas = .ok t ↔ s.index.toNat < s.window.length ∧
      s.currentGas.toNat + gas.toNat ≤ s.maxGas.toNat ∧
      t = { s with window := s.window.set s.index.toNat (s.currentGas + gas) } := by
  unfold recordGas currentGas
  cases hslot : s.window[s.index.toNat]? with
  | none =>
    have := List.getElem?_eq_none_iff.1 hslot
    simp
    omega
  | some used =>
    obtain ⟨hlt, -⟩ := List.getElem?_eq_some_iff.1 hslot
    by_cases hfit : used.toNat + gas.toNat ≤ s.maxGas.toNat
    · simp [hlt, hfit, eq_comm]
    · simp [hfit]

theorem isFatal_of_recordGas {s : Controller} {gas : UInt64} {e : Error}
    (h : s.index.toNat < s.window.length)
    (he : s.recordGas gas = .error e) : e.isFatal = false := by
  rw [Controller.recordGas, List.getElem?_eq_getElem h] at he
  simp only at he
  split at he
  · cases he
  · cases he
    rfl

theorem toNat_add_of_lt {gas more : UInt64} (h : gas.toNat + more.toNat < UInt64.size) :
    (gas + more).toNat = gas.toNat + more.toNat := by
  rw [UInt64.toNat_add]
  exact Nat.mod_eq_of_lt h

theorem toNat_add_of_fits {s : Controller} {gas : UInt64}
    (h : s.currentGas.toNat + gas.toNat ≤ s.maxGas.toNat) :
    (s.currentGas + gas).toNat = s.currentGas.toNat + gas.toNat :=
  toNat_add_of_lt (Nat.lt_of_le_of_lt h s.maxGas.toNat_lt_size)

theorem Valid.recordGas {p : Params} {s t : Controller} {gas : UInt64} (h : s.Valid p)
    (ht : s.recordGas gas = .ok t) : t.Valid p := by
  obtain ⟨hlt, hfit, rfl⟩ := recordGas_eq_ok_iff.1 ht
  refine { h with length_window := ?_, slot_le := ?_, index_lt := ?_ }
  · simpa using h.length_window
  · intro g hg
    cases List.mem_or_eq_of_mem_set hg with
    | inl hold => exact h.slot_le g hold
    | inr hnew => rw [hnew, toNat_add_of_fits hfit]; exact hfit
  · simpa using hlt

def advanced (s : Controller) (rate fee : Decimal) : Controller :=
  { s with
    window := s.window.set ((s.index.toNat + 1) % s.window.length) 0
    index := UInt64.ofNat ((s.index.toNat + 1) % s.window.length)
    baseFee := fee
    learningRate := rate }

theorem updateLearningRate_eq_ok_iff {p : Params} {s t : Controller} :
    s.updateLearningRate p = .ok t ↔
      ∃ rate, s.nextLearningRate p = .ok rate ∧ t = { s with learningRate := rate } := by
  unfold updateLearningRate
  cases s.nextLearningRate p <;> simp [eq_comm]

theorem updateBaseFee_eq_ok_iff {p : Params} {s t : Controller} :
    s.updateBaseFee p = .ok t ↔
      ∃ fee, s.nextBaseFee p = .ok fee ∧ t = { s with baseFee := fee } := by
  unfold updateBaseFee
  cases s.nextBaseFee p <;> simp [eq_comm]

theorem advance_eq_ok_iff {s t : Controller} :
    s.advance = .ok t ↔ s.window ≠ [] ∧ t = s.advanced s.learningRate s.baseFee := by
  unfold advance
  by_cases h : s.window = []
  · simp [h]
  · simp [h, advanced, eq_comm]

theorem nextBlock_eq_ok_iff {p : Params} {s next : Controller} {update : BlockUpdate} :
    s.nextBlock p = .ok (next, update) ↔
      ∃ rate fee, s.nextLearningRate p = .ok rate ∧
        nextBaseFee p { s with learningRate := rate } = .ok fee ∧ s.window ≠ [] ∧
        next = s.advanced rate fee ∧ update = ⟨s.currentGas, fee, rate⟩ := by
  simp only [nextBlock, bind_eq_ok_iff, updateLearningRate_eq_ok_iff, updateBaseFee_eq_ok_iff,
    advance_eq_ok_iff]
  constructor
  · rintro ⟨_, ⟨rate, hrate, rfl⟩, _, ⟨fee, hfee, rfl⟩, _, ⟨hw, rfl⟩, hpair⟩
    cases hpair
    exact ⟨rate, fee, hrate, hfee, hw, rfl, rfl⟩
  · rintro ⟨rate, fee, hrate, hfee, hw, rfl, rfl⟩
    exact ⟨_, ⟨rate, hrate, rfl⟩, _, ⟨fee, hfee, rfl⟩, _, ⟨hw, rfl⟩, rfl⟩

/-- Growth is clamped from above and decay from below; the other bound holds because `alpha` is not
negative and `beta` is at most one. -/
theorem nextLearningRate_mem {p : Params} {s : Controller} {rate : Decimal} (hp : p.Valid)
    (h : s.Valid p) (hrate : s.nextLearningRate p = .ok rate) :
    p.minLearningRate.units ≤ rate.units ∧ rate.units ≤ p.maxLearningRate.units := by
  have hlo := h.minLearningRate_le
  have hhi := h.le_maxLearningRate
  have hle := hp.learningRates_le
  simp only [nextLearningRate, bind_eq_ok_iff] at hrate
  obtain ⟨utilization, -, upperBand, -, hrate⟩ := hrate
  split at hrate
  · obtain ⟨sum, hsum, hrate⟩ := bind_eq_ok_iff.1 hrate
    cases hrate
    have hsum := Decimal.add_eq_ok_iff.1 hsum
    have halpha := hp.alpha_nonneg
    rw [Decimal.units_min]
    omega
  · obtain ⟨product, hproduct, hrate⟩ := bind_eq_ok_iff.1 hrate
    cases hrate
    have hrate_nonneg : 0 ≤ s.learningRate.units := Int.le_trans hp.minLearningRate_nonneg hlo
    have hproduct := Decimal.units_mul_le hproduct hrate_nonneg hp.beta_unit.2
    rw [Decimal.units_max]
    omega

theorem minBaseFee_le_nextBaseFee {p : Params} {s : Controller} {fee : Decimal}
    (h : s.nextBaseFee p = .ok fee) : s.minBaseFee.units ≤ fee.units := by
  unfold nextBaseFee at h
  split at h
  · cases h
  · simp only [bind_eq_ok_iff] at h
    obtain ⟨deviation, -, ratio, -, change, -, adjustment, -, total, -, net, -, moved, -, sum, -,
      h⟩ := h
    cases h
    rw [Decimal.units_max]
    omega

theorem Valid.nextBlock {p : Params} {s next : Controller} {update : BlockUpdate} (hp : p.Valid)
    (h : s.Valid p) (hnext : s.nextBlock p = .ok (next, update)) : next.Valid p := by
  obtain ⟨rate, fee, hrate, hfee, -, rfl, -⟩ := nextBlock_eq_ok_iff.1 hnext
  obtain ⟨hlo, hhi⟩ := nextLearningRate_mem hp h hrate
  have hlen : (s.window.set ((s.index.toNat + 1) % s.window.length) 0).length = s.window.length :=
    List.length_set
  refine { h with
    length_window := hlen.trans h.length_window
    slot_le := ?_
    minBaseFee_le := ?_
    minLearningRate_le := hlo
    le_maxLearningRate := hhi
    index_lt := ?_ }
  · intro gas hgas
    cases List.mem_or_eq_of_mem_set hgas with
    | inl hold => exact h.slot_le gas hold
    | inr hnew => rw [hnew]; exact Nat.zero_le _
  · have hfloor := minBaseFee_le_nextBaseFee hfee
    exact hfloor
  · have hpos : 0 < s.window.length := Nat.zero_lt_of_lt h.index_lt
    calc (UInt64.ofNat ((s.index.toNat + 1) % s.window.length)).toNat
        ≤ (s.index.toNat + 1) % s.window.length := by
          rw [UInt64.toNat_ofNat']
          exact Nat.mod_le _ _
      _ < s.window.length := Nat.mod_lt _ hpos
      _ = _ := hlen.symm

end GasMarket.Controller
