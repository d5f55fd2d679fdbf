import GasMarket.Proofs.Codec.Controller
import GasMarket.Proofs.Validity.Controller
import GasMarket.Storage

namespace GasMarket

open Codec

theorem Params.ofText_toText_iff (p : Params) :
    ofText (toText p) = some p ↔ ∀ d ∈ p.decimals, -Decimal.bound < d.units := by
  constructor
  · intro h
    obtain ⟨v, -, hv⟩ := Option.bind_eq_some_iff.1 h
    exact lt_of_decode hv
  · exact ofText_toText

theorem Controller.ofText_toText_iff (s : Controller) :
    ofText (toText s) = some s ↔ ∀ d ∈ s.decimals, -Decimal.bound < d.units := by
  constructor
  · intro h
    obtain ⟨v, -, hv⟩ := Option.bind_eq_some_iff.1 h
    exact lt_of_decode hv
  · exact ofText_toText

theorem Params.Valid.lt_units {p : Params} (h : p.Valid) :
    ∀ d ∈ p.decimals, -Decimal.bound < d.units := by
  simp only [decimals, List.forall_mem_cons]
  have hlt {d : Decimal} (h : 0 ≤ d.units) : -Decimal.bound < d.units :=
    Int.lt_of_lt_of_le (by decide) h
  exact ⟨hlt h.alpha_nonneg, hlt (Int.not_lt.1 h.beta_unit.1), hlt (Int.not_lt.1 h.theta_unit.1),
    hlt h.delta_nonneg, hlt h.minBaseFee_nonneg, hlt h.minLearningRate_nonneg,
    hlt h.maxLearningRate_nonneg, List.forall_mem_nil _⟩

theorem Controller.Valid.lt_units_iff {p : Params} {s : Controller} (hp : p.Valid) (h : s.Valid p) :
    (∀ d ∈ s.decimals, -Decimal.bound < d.units) ↔ -Decimal.bound < s.minBaseFee.units := by
  simp only [decimals, List.forall_mem_cons]
  constructor
  · rintro ⟨-, hfloor, -⟩
    exact hfloor
  · intro hfloor
    refine ⟨Int.lt_of_lt_of_le hfloor h.minBaseFee_le, hfloor, ?_, List.forall_mem_nil _⟩
    calc -Decimal.bound < 0 := by decide
      _ ≤ p.minLearningRate.units := hp.minLearningRate_nonneg
      _ ≤ s.learningRate.units := h.minLearningRate_le

theorem Decimal.lt_units_iff (d : Decimal) : -bound < d.units ↔ d.units ≠ -bound := by
  have hrange := d.inRange
  unfold InRange at hrange
  omega

namespace Slots

theorem read_eq_ok_iff {α : Type} [Codec α] {text : String} {a : α} :
    read (some text) = .ok (some a) ↔ ofText text = some a := by
  simp only [read]
  cases (ofText text : Option α) with
  | none => exact ⟨nofun, nofun⟩
  | some b => rw [Except.ok.injEq]

variable {slots : Slots} {p : Params} {s : Controller}

theorem readParams_iff (h : slots.params = some (toText p)) :
    slots.readParams = .ok (some p) ↔ ∀ d ∈ p.decimals, d.units ≠ -Decimal.bound := by
  rw [readParams, h, read_eq_ok_iff, Params.ofText_toText_iff]
  simp only [Decimal.lt_units_iff]

theorem readState_iff (h : slots.state = some (toText s)) :
    slots.readState = .ok (some s) ↔ ∀ d ∈ s.decimals, d.units ≠ -Decimal.bound := by
  rw [readState, h, read_eq_ok_iff, Controller.ofText_toText_iff]
  simp only [Decimal.lt_units_iff]

theorem snapshot_eq_ok_iff : slots.snapshot = .ok (some (p, s)) ↔
    slots.readParams = .ok (some p) ∧ slots.readState = .ok (some s) := by
  unfold snapshot
  constructor
  · intro h
    obtain ⟨p?, hp, h⟩ := bind_eq_ok_iff.1 h
    obtain ⟨s?, hs, h⟩ := bind_eq_ok_iff.1 h
    cases p? with
    | none => cases h
    | some p' =>
      cases s? with
      | none => cases h
      | some s' =>
        cases h
        exact ⟨hp, hs⟩
  · rintro ⟨hp, hs⟩
    rw [hp, hs]
    rfl

end Slots

namespace Storage

open Decimal (bound)

/-- Every decimal but the least is read from its text, which is a canonical numeral of it with a
minus only for what is negative.  What has been saved is read unless it holds the least, as of what
is valid only the floor of a controller can. -/
theorem survives_unless_least (d : Decimal) (store : Storage) (p : Params) (s : Controller) :
    Decimal.parse d.toText = (if d.units = -bound then .error .outOfRange else .ok d) ∧
    (∃ n : Numeral, n.toText = d.toText ∧ n.Canonical ∧ n.value = d.toRat ∧
      (n.negative ↔ d.units < 0)) ∧
    ((store.saveParams p).published.readParams = .ok (some p) ↔
      ∀ d ∈ p.decimals, d.units ≠ -bound) ∧
    ((store.saveState s).published.readState = .ok (some s) ↔
      ∀ d ∈ s.decimals, d.units ≠ -bound) ∧
    ((store.save p s).published.snapshot = .ok (some (p, s)) ↔
      ∀ d ∈ p.decimals ++ s.decimals, d.units ≠ -bound) ∧
    (p.validate = .ok () → (store.saveParams p).published.readParams = .ok (some p)) ∧
    (p.validate = .ok () → s.validate p = .ok () →
      ((store.save p s).published.snapshot = .ok (some (p, s)) ↔ s.minBaseFee.units ≠ -bound)) := by
  have hsaved : (store.save p s).published.snapshot = .ok (some (p, s)) ↔
      (∀ d ∈ p.decimals, d.units ≠ -bound) ∧ ∀ d ∈ s.decimals, d.units ≠ -bound := by
    rw [Slots.snapshot_eq_ok_iff, Slots.readParams_iff rfl, Slots.readState_iff rfl]
  have hparams (h : p.validate = .ok ()) : ∀ d ∈ p.decimals, d.units ≠ -bound := fun d hd =>
    d.lt_units_iff.1 ((Params.validate_eq_ok_iff.1 h).lt_units d hd)
  refine ⟨?_,
    ⟨d.numeral, d.toText_numeral, d.canonical_numeral, d.value_numeral, Decimal.negative_numeral⟩,
    Slots.readParams_iff rfl, Slots.readState_iff rfl, ?_,
    fun h => (Slots.readParams_iff rfl).2 (hparams h), ?_⟩
  · split
    case isTrue h => exact Decimal.parse_toText_least h
    case isFalse h => exact Decimal.parse_toText (d.lt_units_iff.2 h)
  · rw [hsaved, List.forall_mem_append]
  · intro hp hs
    have hstate :=
      (Controller.validate_eq_ok_iff.1 hs).lt_units_iff (Params.validate_eq_ok_iff.1 hp)
    simp only [Decimal.lt_units_iff] at hstate
    rw [hsaved, hstate, and_iff_right (hparams hp)]

theorem survives_unless_least_default : Params.eip1559.validate = .ok () ∧
    (Controller.new .eip1559).validate .eip1559 = .ok () ∧
    (empty.save .eip1559 (.new .eip1559)).published.snapshot =
      .ok (some (.eip1559, .new .eip1559)) := by
  have hp : Params.eip1559.validate = .ok () :=
    Params.validate_eq_ok_iff.2 (Params.valid_ofCalibration .eip1559)
  have hs : (Controller.new .eip1559).validate .eip1559 = .ok () :=
    Controller.validate_eq_ok_iff.2 (Controller.valid_new (Params.valid_ofCalibration .eip1559))
  obtain ⟨-, -, -, -, -, -, hsaved⟩ := survives_unless_least .zero empty .eip1559 (.new .eip1559)
  exact ⟨hp, hs, (hsaved hp hs).2 (by decide)⟩

/-- The least decimal, one unit below its neighbour, is written and not read, even as the floor
of a valid controller. -/
theorem least_not_read : ∃ least, (⟨1 - bound, by decide⟩ : Decimal).sub (.ofAtoms 1) = .ok least ∧
    least.toText =
      "-57896044618658097711785492504343953926634992332820282019728.792003956564819968" ∧
    Decimal.parse least.toText = .error .outOfRange ∧
    ∃ s : Controller, s = { Controller.new .eip1559 with minBaseFee := least } ∧
      s.validate .eip1559 = .ok () ∧ (empty.saveState s).published.readState ≠ .ok (some s) := by
  refine ⟨⟨-bound, by decide⟩, by decide +kernel, by decide +kernel, Decimal.parse_toText_least rfl,
    _, rfl, by decide +kernel, ?_⟩
  rw [ne_eq, Slots.readState_iff rfl]
  intro h
  exact h ⟨-bound, by decide⟩ (by simp [Controller.decimals]) rfl

end Storage

end GasMarket
