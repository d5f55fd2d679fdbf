import GasMarket.Market.Reader
import GasMarket.Proofs.Storage.Slots
import GasMarket.Proofs.Validity.Run

namespace GasMarket

def Step.Decoded : Step → Prop
  | .operation (.initGenesis g) => ∃ text, Codec.ofText text = some g
  | _ => True

namespace Market

/-- Both slots hold what is in force, and nothing is on its way.  The floor of the base fee is all
that validity leaves open of what text can denote. -/
structure Mirrored (m : Market) : Prop where
  published : m.storage.published = ⟨some (Codec.toText m.params), some (Codec.toText m.state)⟩
  staged : m.storage.staged = .empty
  floor : -Decimal.bound < m.state.minBaseFee.units

variable {m : Market}

structure Stored (m : Market) : Prop where
  published : m.storage.published = ⟨some (Codec.toText m.params), some (Codec.toText m.state)⟩
  staged : m.storage.staged = .empty

theorem stored_adopt (m : Market) (p : Params) (s : Controller) : (m.adopt p s).Stored := ⟨rfl, rfl⟩

theorem Stored.adoptState (h : m.Stored) (s : Controller) : (m.adoptState s).Stored where
  published := by
    change (m.storage.saveState s).published = _
    rw [Storage.published_saveState, h.staged, h.published]
    rfl
  staged := rfl

theorem Stored.initGenesis (h : m.Stored) (g : Genesis) : (m.initGenesis g).state.Stored := by
  obtain ⟨e, he⟩ | ⟨-, -, he⟩ := initGenesis_cases m g
  · rw [he]; exact h
  · rw [he]; exact stored_adopt m g.params g.state

theorem Stored.endBlock (h : m.Stored) (height : UInt64) : (m.endBlock height).state.Stored := by
  obtain ⟨e, he⟩ | ⟨-, he⟩ | ⟨s, update, -, he⟩ := endBlock_cases m height
  · rw [he]; exact ⟨h.published, h.staged⟩
  · rw [he]; exact ⟨h.published, h.staged⟩
  · have hnext := h.adoptState s
    rw [he]
    exact ⟨hnext.published, hnext.staged⟩

theorem Stored.refund (h : m.Stored) (tx : Tx) (charge : Charge) (gasUsed : UInt64)
    (success : Bool) : (m.refund tx charge gasUsed success).state.Stored := by
  obtain ⟨e, -, he⟩ | ⟨s, used, moved, -, -, -, -, -, he⟩ :=
    refund_cases m tx charge gasUsed success
  · rw [he]; exact h
  · have hcommitted : (m.committed s).Stored := by
      rw [Market.committed]
      split
      · exact h
      · exact h.adoptState s
    rw [he]
    exact ⟨hcommitted.published, hcommitted.staged⟩

theorem Stored.step (h : m.Stored) (s : Step) : (m.step s).Stored := by
  cases s with
  | host part => cases part <;> exact ⟨h.published, h.staged⟩
  | operation op =>
    cases op with
    | initGenesis g => exact h.initGenesis g
    | load =>
      obtain ⟨e, he⟩ | ⟨g, he⟩ := load_cases m
      · rw [Market.step, perform, he]; exact h
      · rw [Market.step, perform, he]; exact h.initGenesis g
    | beginBlock height => exact ⟨h.published, h.staged⟩
    | endBlock height => exact h.endBlock height
    | updateParams authority p =>
      obtain ⟨e, he⟩ | ⟨-, -, he⟩ := updateParams_cases m authority p
      · rw [Market.step, perform, he]; exact h
      · rw [Market.step, perform, he]; exact stored_adopt m p (.new p)
    | checkFee tx context => simpa [Market.step, perform] using h
    | deduct tx required tip =>
      rw [Market.step, perform, state_deduct]
      exact ⟨h.published, h.staged⟩
    | refund tx charge gasUsed success => exact h.refund tx charge gasUsed success
    | drainEvents => exact ⟨h.published, h.staged⟩

theorem Stored.after (h : m.Stored) (steps : List Step) : (m.after steps).Stored :=
  after_induction h (fun _ s hm => hm.step s) steps

theorem Reachable.stored (h : m.Reachable) : m.Stored := by
  obtain ⟨c, start, steps, hnew, rfl⟩ := h
  obtain ⟨f, -, -, -, rfl⟩ := new_eq_ok hnew
  exact (stored_adopt _ _ _).after steps

theorem Sound.params_decimals (h : m.Sound) : ∀ d ∈ m.params.decimals, -Decimal.bound < d.units :=
  h.params.lt_units

theorem Sound.state_decimals (h : m.Sound) (hfloor : -Decimal.bound < m.state.minBaseFee.units) :
    ∀ d ∈ m.state.decimals, -Decimal.bound < d.units :=
  (h.state.lt_units_iff h.params).2 hfloor

theorem Mirrored.readParams (h : m.Mirrored) (hsound : m.Sound) :
    m.storage.published.readParams = .ok (some m.params) := by
  rw [h.published, Slots.readParams, Slots.read, Params.ofText_toText hsound.params_decimals]

theorem Mirrored.readState (h : m.Mirrored) (hsound : m.Sound) :
    m.storage.published.readState = .ok (some m.state) := by
  rw [h.published, Slots.readState, Slots.read,
    Controller.ofText_toText (hsound.state_decimals h.floor)]

theorem Mirrored.snapshot (h : m.Mirrored) (hsound : m.Sound) :
    m.storage.published.snapshot = .ok (some (m.params, m.state)) := by
  rw [Slots.snapshot, h.readParams hsound, h.readState hsound]
  rfl

theorem Mirrored.both (h : m.Mirrored) (hsound : m.Sound) :
    m.storage.published.both = .ok (m.params, m.state) := by
  rw [Slots.both, h.snapshot hsound]
  rfl

theorem Mirrored.load_eq (h : m.Mirrored) (hsound : m.Sound) :
    m.load = m.initGenesis ⟨m.params, m.state⟩ := by
  rw [load, Market.snapshot, h.snapshot hsound]

theorem initGenesis_self (m : Market) :
    (m.initGenesis ⟨m.params, m.state⟩).state.params = m.params ∧
      (m.initGenesis ⟨m.params, m.state⟩).state.state = m.state := by
  obtain ⟨e, he⟩ | ⟨-, -, he⟩ := initGenesis_cases m ⟨m.params, m.state⟩
  · rw [he]; exact ⟨rfl, rfl⟩
  · rw [he]; exact ⟨rfl, rfl⟩

theorem mirrored_adopt (m : Market) {p : Params} {s : Controller}
    (h : -Decimal.bound < s.minBaseFee.units) : (m.adopt p s).Mirrored :=
  ⟨rfl, rfl, h⟩

theorem minBaseFee_recorded {gasUsed : UInt64} {s : Controller} (hs : m.recorded gasUsed = .ok s) :
    s.minBaseFee = m.state.minBaseFee := by
  obtain ⟨-, hs⟩ | ⟨-, rfl⟩ := recorded_cases hs
  · obtain ⟨-, -, rfl⟩ := Controller.recordGas_eq_ok_iff.1 hs
    rfl
  · rfl

theorem Mirrored.stored (h : m.Mirrored) : m.Stored := ⟨h.published, h.staged⟩

theorem Mirrored.floor_step (h : m.Mirrored) (hsound : m.Sound) {s : Step} (hs : s.Decoded) :
    -Decimal.bound < (m.step s).state.minBaseFee.units := by
  cases s with
  | host part => cases part <;> exact h.floor
  | operation op =>
    cases op with
    | initGenesis g =>
      obtain ⟨text, htext⟩ := hs
      obtain ⟨v, -, hv⟩ := Option.bind_eq_some_iff.1 htext
      have hfloor := (Genesis.lt_of_decode hv).2 g.state.minBaseFee (by simp [Controller.decimals])
      obtain ⟨e, he⟩ | ⟨-, -, he⟩ := initGenesis_cases m g
      · rw [Market.step, perform, he]; exact h.floor
      · rw [Market.step, perform, he]; exact hfloor
    | load =>
      rw [Market.step, perform, h.load_eq hsound, (initGenesis_self m).2]
      exact h.floor
    | beginBlock | drainEvents => exact h.floor
    | endBlock height =>
      obtain ⟨e, he⟩ | ⟨-, he⟩ | ⟨s, update, hnext, he⟩ := endBlock_cases m height
      · rw [Market.step, perform, he]; exact h.floor
      · rw [Market.step, perform, he]; exact h.floor
      · obtain ⟨rate, fee, -, -, -, rfl, -⟩ := Controller.nextBlock_eq_ok_iff.1 hnext
        rw [Market.step, perform, he]
        exact h.floor
    | updateParams authority p =>
      obtain ⟨e, he⟩ | ⟨-, hp, he⟩ := updateParams_cases m authority p
      · rw [Market.step, perform, he]; exact h.floor
      · have hp := Params.valid_of_validateUnder hp
        rw [Market.step, perform, he]
        exact Int.lt_of_lt_of_le (by decide) hp.minBaseFee_nonneg
    | checkFee tx context =>
      rw [Market.step, perform, Outcome.state_ofExcept]
      exact h.floor
    | deduct tx required tip =>
      rw [Market.step, perform, state_deduct]
      exact h.floor
    | refund tx charge gasUsed success =>
      obtain ⟨e, -, he⟩ | ⟨s, used, moved, -, hrecorded, -, -, -, he⟩ :=
        refund_cases m tx charge gasUsed success
      · rw [Market.step, perform, he]; exact h.floor
      · rw [Market.step, perform, he, state_told, state_committed, minBaseFee_recorded hrecorded]
        exact h.floor

theorem Mirrored.step (h : m.Mirrored) (hsound : m.Sound) {s : Step} (hs : s.Decoded) :
    (m.step s).Mirrored where
  published := (h.stored.step s).published
  staged := (h.stored.step s).staged
  floor := h.floor_step hsound hs

theorem mirrored_new {c : Config} (h : new c = .ok m) : m.Mirrored := by
  obtain ⟨f, -, hp, -, rfl⟩ := new_eq_ok h
  have hp := Params.valid_of_validateUnder hp
  exact mirrored_adopt _ (Int.lt_of_lt_of_le (by decide) hp.minBaseFee_nonneg)

theorem mirrored_after {c : Config} (h : new c = .ok m) {steps : List Step}
    (hsteps : ∀ s ∈ steps, s.Decoded) : (m.after steps).Mirrored ∧ (m.after steps).Sound :=
  after_induction_on (P := fun m => m.Mirrored ∧ m.Sound) hsteps ⟨mirrored_new h, sound_new h⟩
    fun _ s hs hm => ⟨hm.1.step hm.2 hs, hm.2.step s⟩

theorem rates_after (m : Market) {steps : List Step} (hsteps : ∀ s ∈ steps, s.KeepsRates) :
    (m.after steps).rates = m.rates := by
  refine after_induction_on (P := fun later => later.rates = m.rates) hsteps rfl ?_
  intro later s hs hrates
  cases s with
  | operation op =>
    rw [← hrates]
    exact congrArg (·.2.1) (settings_perform later op)
  | host part =>
    cases part with
    | rates r => cases hs
    | bank _ | disabled _ | accounts _ | allowances _ | gasCap _ => exact hrates

/-- Whatever happened before a reader was made and since, it sees the params and the controller in
force; with the rates that it was made with it answers as the market does, and loading what is
published changes neither. -/
theorem reader_agrees {c : Config} {start : Market} (hnew : new c = .ok start)
    {before later : List Step} (hbefore : ∀ s ∈ before, s.Decoded) (hlater : ∀ s ∈ later, s.Decoded)
    {early now : Market} (hearly : early = start.after before) (hnow : now = early.after later) :
    early.reader.snapshot now.storage.published = .ok (now.params, now.state) ∧
    early.reader.params now.storage.published = .ok now.params ∧
    early.reader.state now.storage.published = .ok now.state ∧
    ((∀ s ∈ later, s.KeepsRates) →
      (∀ tx context,
        early.reader.checkFee now.storage.published tx context = now.checkFee tx context) ∧
      ∀ denom, early.reader.gasPrice now.storage.published denom = now.gasPrice denom) ∧
    (now.load.result = .ok () →
      now.load.state.params = now.params ∧ now.load.state.state = now.state) := by
  obtain ⟨hmirrored, hsound⟩ : now.Mirrored ∧ now.Sound := by
    rw [hnow, hearly, ← after_append]
    exact mirrored_after hnew (List.forall_mem_append.2 ⟨hbefore, hlater⟩)
  have hboth := hmirrored.both hsound
  refine ⟨hboth, ?_, ?_, ?_, ?_⟩
  · rw [MarketReader.params, hboth]
    rfl
  · rw [MarketReader.state, hboth]
    rfl
  · intro hrates
    have hreader : early.reader.rates = now.rates := by
      rw [hnow, rates_after early hrates]
      rfl
    constructor
    · intro tx context
      rw [MarketReader.checkFee, hboth, hreader]
      rfl
    · intro denom
      rw [MarketReader.gasPrice, hboth, hreader]
      rfl
  · intro _
    rw [hmirrored.load_eq hsound]
    exact initGenesis_self now

theorem reader_agrees_across_genesis :
    ∃ start early now, new .default = .ok start ∧
      early = start.after [.operation (.beginBlock 1)] ∧
      now = early.after [.operation (.initGenesis (.new .aimd)), .host (.gasCap (some 1)),
        .operation (.endBlock 1), .operation .load] ∧
      early.reader.snapshot now.storage.published = .ok (now.params, now.state) ∧
      ∀ denom, early.reader.gasPrice now.storage.published denom = now.gasPrice denom := by
  obtain ⟨start, hstart⟩ : ∃ m, new .default = .ok m := ⟨_, rfl⟩
  have hgenesis : (Step.operation (.initGenesis (.new .aimd))).Decoded :=
    ⟨_, (Genesis.faithful (by decide) (by decide)).parse⟩
  have hbefore : ∀ s ∈ [Step.operation (.beginBlock 1)], s.Decoded := by simp [Step.Decoded]
  have hlater : ∀ s ∈ [Step.operation (.initGenesis (.new .aimd)), .host (.gasCap (some 1)),
      .operation (.endBlock 1), .operation .load], s.Decoded :=
    List.forall_mem_cons.2 ⟨hgenesis, by simp [Step.Decoded]⟩
  have hagrees := reader_agrees hstart hbefore hlater rfl rfl
  exact ⟨start, _, _, hstart, rfl, rfl, hagrees.1, (hagrees.2.2.2.1 (by simp [Step.KeepsRates])).2⟩

end Market

end GasMarket
