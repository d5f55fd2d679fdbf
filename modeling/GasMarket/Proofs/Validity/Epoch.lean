import GasMarket.Proofs.Ledger.Fees
import GasMarket.Proofs.Storage.Mirror

namespace GasMarket

structure Controller.Matches (p : Params) (s : Controller) : Prop where
  minBaseFee : s.minBaseFee = p.minBaseFee
  targetGas : s.targetGas = p.targetGas
  maxGas : s.maxGas = p.maxGas

theorem Controller.matches_new (p : Params) : (new p).Matches p := ⟨rfl, rfl, rfl⟩

def Step.KeepsGenesis : Step → Prop
  | .operation (.initGenesis _) | .host (.gasCap _) => False
  | _ => True

theorem Step.KeepsGenesis.decoded {s : Step} (h : s.KeepsGenesis) : s.Decoded := by
  cases s with
  | host part => trivial
  | operation op =>
    cases op with
    | initGenesis g => exact h.elim
    | _ => trivial

namespace Market

structure Aligned (cap : Option UInt64) (m : Market) : Prop where
  sound : m.Sound
  mirrored : m.Mirrored
  gasCap : m.gasCap = cap
  matched : m.state.Matches m.params
  capped : ∀ limit, cap = some limit → m.params.maxGas ≤ limit

variable {m : Market} {cap : Option UInt64}

theorem matches_recorded {gasUsed : UInt64} {s : Controller} (h : m.state.Matches m.params)
    (hs : m.recorded gasUsed = .ok s) : s.Matches m.params := by
  obtain ⟨-, hs⟩ | ⟨-, rfl⟩ := recorded_cases hs
  · obtain ⟨-, -, rfl⟩ := Controller.recordGas_eq_ok_iff.1 hs
    exact ⟨h.minBaseFee, h.targetGas, h.maxGas⟩
  · exact h

theorem Aligned.of_same (h : m.Aligned cap) {s : Step} (hs : s.KeepsGenesis)
    (hcap : (m.step s).gasCap = m.gasCap) (hparams : (m.step s).params = m.params)
    (hmatched : (m.step s).state.Matches m.params) : (m.step s).Aligned cap where
  sound := h.sound.step s
  mirrored := h.mirrored.step h.sound hs.decoded
  gasCap := hcap.trans h.gasCap
  matched := hparams ▸ hmatched
  capped := hparams ▸ h.capped

theorem Aligned.updateParams (h : m.Aligned cap) (authority : Address) (p : Params) :
    (m.step (.operation (.updateParams authority p))).Aligned cap := by
  obtain ⟨e, he⟩ | ⟨-, hp, he⟩ := updateParams_cases m authority p
  · have hsame : m.step (.operation (.updateParams authority p)) = m := congrArg Outcome.state he
    rw [hsame]
    exact h
  · have hadopt : m.step (.operation (.updateParams authority p)) = m.adopt p (.new p) :=
      congrArg Outcome.state he
    refine ⟨h.sound.step _, h.mirrored.step h.sound trivial, ?_, ?_, ?_⟩
    · rw [hadopt]
      exact h.gasCap
    · rw [hadopt]
      exact Controller.matches_new p
    · intro limit hlimit
      rw [h.gasCap, hlimit] at hp
      rw [hadopt]
      exact Params.maxGas_le_of_validateUnder hp

theorem Aligned.step (h : m.Aligned cap) {s : Step} (hs : s.KeepsGenesis) :
    (m.step s).Aligned cap := by
  cases s with
  | host part =>
    cases part with
    | gasCap _ => exact hs.elim
    | bank _ | disabled _ | accounts _ | allowances _ | rates _ =>
      exact h.of_same hs rfl rfl h.matched
  | operation op =>
    have hcap : (m.perform op).gasCap = m.gasCap := congrArg (·.2.2) (settings_perform m op)
    cases op with
    | initGenesis g => exact hs.elim
    | load =>
      obtain ⟨hparams, hstate⟩ := initGenesis_self m
      rw [← h.mirrored.load_eq h.sound] at hparams hstate
      exact h.of_same hs hcap hparams (hstate ▸ h.matched)
    | beginBlock height => exact h.of_same hs hcap rfl h.matched
    | endBlock height =>
      obtain ⟨e, he⟩ | ⟨-, he⟩ | ⟨s, update, hnext, he⟩ := endBlock_cases m height
      · exact h.of_same hs hcap (by rw [Market.step, perform, he]; rfl)
          (by rw [Market.step, perform, he]; exact h.matched)
      · exact h.of_same hs hcap (by rw [Market.step, perform, he]; rfl)
          (by rw [Market.step, perform, he]; exact h.matched)
      · obtain ⟨rate, fee, -, -, -, rfl, -⟩ := Controller.nextBlock_eq_ok_iff.1 hnext
        exact h.of_same hs hcap (by rw [Market.step, perform, he]; rfl)
          (by rw [Market.step, perform, he]; exact ⟨h.matched.1, h.matched.2, h.matched.3⟩)
    | updateParams authority p => exact h.updateParams authority p
    | checkFee tx context =>
      have hsame : m.step (.operation (.checkFee tx context)) = m := Outcome.state_ofExcept m _
      rw [hsame]
      exact h
    | deduct tx required tip =>
      exact h.of_same hs hcap (by rw [Market.step, perform, state_deduct, params_told])
        (by rw [Market.step, perform, state_deduct, state_told]; exact h.matched)
    | refund tx charge gasUsed success =>
      obtain ⟨e, -, he⟩ | ⟨s, used, moved, -, hrecorded, -, -, -, he⟩ :=
        refund_cases m tx charge gasUsed success
      · exact h.of_same hs hcap (by rw [Market.step, perform, he]; rfl)
          (by rw [Market.step, perform, he]; exact h.matched)
      · exact h.of_same hs hcap
          (by rw [Market.step, perform, he, params_told, params_committed])
          (by rw [Market.step, perform, he, state_told, state_committed]
              exact matches_recorded h.matched hrecorded)
    | drainEvents => exact h.of_same hs hcap rfl h.matched

theorem aligned_initGenesis {g : Genesis} (h : (m.initGenesis g).result = .ok ())
    (hmatches : g.state.Matches g.params) : (m.initGenesis g).state.Aligned m.gasCap := by
  obtain ⟨e, he⟩ | ⟨hp, hs, he⟩ := initGenesis_cases m g
  · rw [he] at h
    cases h
  · have hvalid := Params.valid_of_validateUnder hp
    rw [he]
    refine ⟨⟨hvalid, Controller.validate_eq_ok_iff.1 hs⟩, mirrored_adopt m ?_, rfl, hmatches, ?_⟩
    · rw [hmatches.minBaseFee]
      exact Int.lt_of_lt_of_le (by decide) hvalid.minBaseFee_nonneg
    · intro limit hlimit
      rw [hlimit] at hp
      exact Params.maxGas_le_of_validateUnder hp

/-- Genesis is accepted whatever the copies in its controller are.  They are those of the params in
force in every later state exactly if they were at genesis; then no block uses more gas than params
and consensus let it, and the base fee keeps to the floor of the params. -/
theorem matches_after_iff {g : Genesis} (h : (m.initGenesis g).result = .ok ()) :
    g.state.Matches g.params ↔ ∀ steps later, (∀ s ∈ steps, s.KeepsGenesis) →
      later = (m.initGenesis g).state.after steps →
      later.state.Matches later.params ∧
        later.params.minBaseFee ≤ later.state.baseFee ∧ .zero ≤ later.params.minBaseFee ∧
        ∀ gas ∈ later.state.window, gas ≤ later.params.maxGas ∧
          ∀ limit, m.gasCap = some limit → gas ≤ limit := by
  constructor
  · intro hmatches steps later hsteps hlater
    have haligned : later.Aligned m.gasCap := by
      rw [hlater]
      exact after_induction_on hsteps (aligned_initGenesis h hmatches) fun _ _ hs h => h.step hs
    refine ⟨haligned.matched, ?_, haligned.sound.params.minBaseFee_nonneg, ?_⟩
    · rw [← haligned.matched.minBaseFee]
      exact haligned.sound.state.minBaseFee_le
    · intro gas hgas
      have hmax : gas ≤ later.params.maxGas := by
        rw [← haligned.matched.maxGas]
        exact haligned.sound.state.slot_le gas hgas
      exact ⟨hmax, fun limit hlimit => UInt64.le_trans hmax (haligned.capped limit hlimit)⟩
  · intro hall
    obtain ⟨hmatches, -⟩ := hall [] _ (List.forall_mem_nil _) rfl
    obtain ⟨e, he⟩ | ⟨-, -, he⟩ := initGenesis_cases m g
    · rw [he] at h
      cases h
    · rw [after_nil, he] at hmatches
      exact hmatches

theorem matches_after_aimd_genesis : ∃ start, new .default = .ok start ∧
    (start.initGenesis (.new .aimd)).result = .ok () ∧
    ∀ later, later = (start.initGenesis (.new .aimd)).state.after [.operation .load,
        .operation (.endBlock 1)] → later.state.Matches later.params := by
  obtain ⟨start, hstart, hgenesis⟩ : ∃ start, new .default = .ok start ∧
      (start.initGenesis (.new .aimd)).result = .ok () := ⟨_, rfl, rfl⟩
  have hafter := (matches_after_iff hgenesis).1 (Controller.matches_new _)
  refine ⟨start, hstart, hgenesis, ?_⟩
  intro later hlater
  exact (hafter _ later (by simp [Step.KeepsGenesis]) hlater).1

/-- A controller that lets blocks use more gas than its params and consensus do. -/
theorem genesis_above_cap : ∃ start, new .default = .ok start ∧
    let g : Genesis := ⟨.eip1559, { Controller.new .eip1559 with maxGas := 40000000 }⟩
    let tx := Tx.new ⟨0xaa⟩ ⟨"stake", 40000000000000000⟩ 40000000
    let charge : Charge := ⟨⟨0xaa⟩, ⟨"stake", 40000000000000000⟩, ⟨"stake", 0⟩⟩
    let m := start.after [.host (.gasCap (some 30000000)), .host (.accounts ⟨.empty, [⟨0xaa⟩]⟩),
      .host (.bank (start.feeAccounts.funded ⟨0xaa⟩ ⟨"stake", 40000000000000000⟩))]
    let later := (m.initGenesis g).state.after [
      .operation (.deduct tx charge.required charge.tip),
      .operation (.refund tx charge 40000000 true)]
    (m.initGenesis g).result = .ok () ∧ ¬ later.state.Matches later.params ∧
      later.params.maxGas = 30000000 ∧ m.gasCap = some 30000000 ∧
      later.state.window = [40000000] := by
  refine ⟨_, rfl, rfl, ?_, ?_, rfl, ?_⟩
  · intro hmatches
    exact absurd hmatches.maxGas (by decide +kernel)
  · decide +kernel
  · decide +kernel

end Market

end GasMarket
