import GasMarket.Proofs.Run
import GasMarket.Proofs.Validity.Controller

namespace GasMarket.Market

structure Sound (m : Market) : Prop where
  params : m.params.Valid
  state : m.state.Valid m.params

variable {m : Market}

theorem Sound.initGenesis (h : m.Sound) (g : Genesis) : (m.initGenesis g).state.Sound := by
  obtain ⟨e, he⟩ | ⟨hp, hs, hg⟩ := initGenesis_cases m g
  · rw [he]; exact h
  · rw [hg]
    exact ⟨Params.valid_of_validateUnder hp, Controller.validate_eq_ok_iff.1 hs⟩

theorem Sound.load (h : m.Sound) : m.load.state.Sound := by
  obtain ⟨e, he⟩ | ⟨g, hg⟩ := load_cases m
  · rw [he]; exact h
  · rw [hg]; exact h.initGenesis g

theorem Sound.endBlock (h : m.Sound) (height : UInt64) : (m.endBlock height).state.Sound := by
  obtain ⟨e, he⟩ | ⟨-, he⟩ | ⟨s, update, hs, he⟩ := endBlock_cases m height
  · rw [he]; exact ⟨h.params, h.state⟩
  · rw [he]; exact ⟨h.params, h.state⟩
  · rw [he]; exact ⟨h.params, h.state.nextBlock h.params hs⟩

theorem Sound.updateParams (h : m.Sound) (authority : Address) (p : Params) :
    (m.updateParams authority p).state.Sound := by
  obtain ⟨e, he⟩ | ⟨-, hp, he⟩ := updateParams_cases m authority p
  · rw [he]; exact h
  · rw [he]
    have hp := Params.valid_of_validateUnder hp
    exact ⟨hp, Controller.valid_new hp⟩

theorem Sound.recorded (h : m.Sound) {gasUsed : UInt64} {s : Controller}
    (hs : m.recorded gasUsed = .ok s) : s.Valid m.params := by
  obtain ⟨-, hs⟩ | ⟨-, rfl⟩ := recorded_cases hs
  · exact h.state.recordGas hs
  · exact h.state

theorem Sound.deduct (h : m.Sound) (tx : Tx) (required tip : Coin) :
    (m.deduct tx required tip).state.Sound := by
  rw [state_deduct]
  exact ⟨h.params, h.state⟩

theorem Sound.refund (h : m.Sound) (tx : Tx) (charge : Charge) (gasUsed : UInt64) (success : Bool) :
    (m.refund tx charge gasUsed success).state.Sound := by
  obtain ⟨e, -, he⟩ | ⟨s, used, moved, -, hs, -, -, -, he⟩ :=
    refund_cases m tx charge gasUsed success
  · rw [he]; exact h
  · rw [he]
    exact ⟨by simpa using h.params, by simpa using h.recorded hs⟩

theorem Sound.perform (h : m.Sound) (op : Operation) : (m.perform op).Sound := by
  cases op with
  | initGenesis g => exact h.initGenesis g
  | load => exact h.load
  | beginBlock height => exact ⟨h.params, h.state⟩
  | endBlock height => exact h.endBlock height
  | updateParams authority p => exact h.updateParams authority p
  | checkFee tx context => simpa [Market.perform] using h
  | deduct tx required tip => exact h.deduct tx required tip
  | refund tx charge gasUsed success => exact h.refund tx charge gasUsed success
  | drainEvents => exact ⟨h.params, h.state⟩

theorem Sound.step (h : m.Sound) (s : Step) : (m.step s).Sound := by
  cases s with
  | operation op => exact h.perform op
  | host part => cases part <;> exact ⟨h.params, h.state⟩

theorem sound_new {c : Config} (h : new c = .ok m) : m.Sound := by
  obtain ⟨f, -, hp, hs, rfl⟩ := new_eq_ok h
  exact ⟨Params.valid_of_validateUnder hp, Controller.validate_eq_ok_iff.1 hs⟩

theorem Reachable.sound (h : m.Reachable) : m.Sound := by
  obtain ⟨c, start, steps, hnew, rfl⟩ := h
  exact after_induction (sound_new hnew) (fun _ s hm => hm.step s) steps

/-- From a new market on, params and controller pass their own validation after every step, and
all that validation looks at holds of them. -/
theorem validate_after {c : Config} (h : new c = .ok m) (steps : List Step) :
    (m.after steps).params.validate = .ok () ∧
    (m.after steps).state.validate (m.after steps).params = .ok () ∧
    (m.after steps).state.window.length = (m.after steps).params.window.toNat ∧
    (∀ gas ∈ (m.after steps).state.window, gas ≤ (m.after steps).state.maxGas) ∧
    (m.after steps).state.minBaseFee ≤ (m.after steps).state.baseFee ∧
    (m.after steps).params.minLearningRate ≤ (m.after steps).state.learningRate ∧
    (m.after steps).state.learningRate ≤ (m.after steps).params.maxLearningRate ∧
    0 < (m.after steps).state.targetGas ∧
    (m.after steps).state.targetGas ≤ (m.after steps).state.maxGas ∧
    (m.after steps).state.index.toNat < (m.after steps).state.window.length := by
  have hreach : (m.after steps).Reachable := ⟨c, m, steps, h, rfl⟩
  obtain ⟨hp, hs⟩ := hreach.sound
  exact ⟨Params.validate_eq_ok_iff.2 hp, Controller.validate_eq_ok_iff.2 hs, hs.length_window,
    hs.slot_le, hs.minBaseFee_le, hs.minLearningRate_le, hs.le_maxLearningRate, hs.target_pos,
    hs.target_le, hs.index_lt⟩

theorem validate_after_refused_endBlock :
    ∃ m, new .default = .ok m ∧
      (m.after
        [.host (.gasCap (some 1)), .operation .load, .operation (.endBlock 1)]).params.validate =
          .ok () := by
  obtain ⟨m, hm⟩ : ∃ m, new .default = .ok m := ⟨_, rfl⟩
  exact ⟨m, hm, (validate_after hm _).1⟩

end GasMarket.Market
