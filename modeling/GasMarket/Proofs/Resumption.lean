import GasMarket.Proofs.Steering
import GasMarket.Proofs.Storage.Mirror

namespace GasMarket

theorem Genesis.validate_eq_ok {g : Genesis} (hparams : g.params.Valid)
    (hstate : g.state.Valid g.params) : g.validate = .ok () :=
  bind_eq_ok_iff.2
    ⟨(), Params.validate_eq_ok_iff.2 hparams, Controller.validate_eq_ok_iff.2 hstate⟩

theorem Genesis.parse_toText {g : Genesis} (hfaithful : Codec.Faithful g)
    (hvalid : g.validate = .ok ()) : parse g.toText = .ok g := by
  rw [parse, ofText_toText hfaithful]
  simp only [hvalid]

namespace Market

variable {m m' : Market}

theorem Mirrored.parse_exportGenesis (h : m.Mirrored) (hsound : m.Sound) :
    Genesis.parse m.exportGenesis.toText = .ok m.exportGenesis :=
  Genesis.parse_toText (Genesis.faithful hsound.params_decimals (hsound.state_decimals h.floor))
    (Genesis.validate_eq_ok hsound.params hsound.state)

theorem initGenesis_of_valid {g : Genesis} (hparams : g.params.Valid)
    (hstate : g.state.Valid g.params) (hcap : ∀ cap, m.gasCap = some cap → g.params.maxGas ≤ cap) :
    m.initGenesis g = .done (m.adopt g.params g.state) () := by
  rw [initGenesis, hparams.validateUnder hcap, Controller.validate_eq_ok_iff.2 hstate]

theorem Mirrored.alike_adopt (h : m.Mirrored)
    (hauthority : m'.config.authority = m.config.authority)
    (hrates : m'.rates = m.rates) (hcap : m'.gasCap = m.gasCap) :
    m.Alike (m'.adopt m.params m.state) where
  authority := hauthority.symm
  rates := hrates.symm
  gasCap := hcap.symm
  params := rfl
  state := rfl
  storage :=
    calc m.storage = ⟨m.storage.published, m.storage.staged⟩ := rfl
      _ = ⟨⟨some (Codec.toText m.params), some (Codec.toText m.state)⟩, .empty⟩ := by
        rw [h.published, h.staged]
      _ = (m'.adopt m.params m.state).storage := rfl

/-- What is exported after any run is read back from its text as it was.  Any other market of the
same authority, rates and cap on gas takes it up, unless its params are too much for the cap; and
from then on the two go on in step, whatever either pays and to whom. -/
theorem resumes_after_import {c : Config} {start : Market} (hnew : new c = .ok start)
    {steps : List Step} (hsteps : ∀ s ∈ steps, s.Decoded) (hm : m = start.after steps) :
    Genesis.parse m.exportGenesis.toText = .ok m.exportGenesis ∧
    ∀ other : Market, other.config.authority = m.config.authority → other.rates = m.rates →
      other.gasCap = m.gasCap → (∀ cap, m.gasCap = some cap → m.params.maxGas ≤ cap) →
      (other.initGenesis m.exportGenesis).result = .ok () ∧
      (other.initGenesis m.exportGenesis).state.exportGenesis = m.exportGenesis ∧
      ∀ later later' : List Step, List.Forall₂ Step.Parallel later later' →
        .operation .load ∉ later → ∀ n, (m.after (later.take n)).SameController
          ((other.initGenesis m.exportGenesis).state.after (later'.take n)) := by
  obtain ⟨hmirrored, hsound⟩ : m.Mirrored ∧ m.Sound := hm ▸ mirrored_after hnew hsteps
  refine ⟨hmirrored.parse_exportGenesis hsound, ?_⟩
  intro other hauthority hrates hcap hadmits
  have himport : other.initGenesis m.exportGenesis = .done (other.adopt m.params m.state) () :=
    initGenesis_of_valid hsound.params hsound.state (hcap ▸ hadmits)
  rw [himport]
  refine ⟨rfl, rfl, ?_⟩
  intro later later' hlater hload n
  have halike : m.Alike (other.adopt m.params m.state) :=
    hmirrored.alike_adopt hauthority hrates hcap
  exact (halike.after (List.forall₂_take n hlater)
    fun hmem => absurd (List.mem_of_mem_take hmem) hload).sameController

theorem resumes_after_import_funded : ∃ start other,
    new .default = .ok start ∧ new { Config.default with calibration := .aimd } = .ok other ∧
    let coin : Coin := ⟨"stake", 40000000000000000⟩
    let settlement : Operation :=
      .refund (.new ⟨0xaa⟩ coin 20000000) ⟨⟨0xaa⟩, coin, .zero "stake"⟩ 20000000 true
    let m := start.after [.operation (.initGenesis (.new .aimd)), .operation (.endBlock 1)]
    let funded := other.supply (.bank (other.feeAccounts.funded collectorAddress coin))
    let imported := (funded.initGenesis m.exportGenesis).state
    Genesis.parse m.exportGenesis.toText = .ok m.exportGenesis ∧
      (m.perform settlement).events = m.events ∧
      (imported.perform settlement).events ≠ imported.events ∧
      (m.perform settlement).SameController (imported.perform settlement) := by
  refine ⟨_, _, rfl, rfl, ?_⟩
  intro coin settlement m funded imported
  have hunpaid : (m.perform settlement).events = m.events := by decide +kernel
  have hpaid : (imported.perform settlement).events ≠ imported.events := by decide +kernel
  have hgenesis : (Step.operation (.initGenesis (.new .aimd))).Decoded :=
    ⟨_, (Genesis.faithful (by decide) (by decide)).parse⟩
  have hsteps :
      ∀ s ∈ [Step.operation (.initGenesis (.new .aimd)), .operation (.endBlock 1)], s.Decoded :=
    List.forall_mem_cons.2 ⟨hgenesis, by simp [Step.Decoded]⟩
  have hlater : List.Forall₂ Step.Parallel [.operation settlement] [.operation settlement] :=
    List.forall₂_same.2 fun s _ => .refl s
  have hsame {start other : Market} (hstart : new .default = .ok start)
      (hother : new { Config.default with calibration := .aimd } = .ok other) (bank : Bank) :
      let m := start.after [.operation (.initGenesis (.new .aimd)), .operation (.endBlock 1)]
      let imported := ((other.supply (.bank bank)).initGenesis m.exportGenesis).state
      Genesis.parse m.exportGenesis.toText = .ok m.exportGenesis ∧
        (m.perform settlement).SameController (imported.perform settlement) := by
    intro m imported
    have hm : m.settings = (.default, .empty, none) := by
      rw [← settings_new hstart]
      exact (settings_perform _ (.endBlock 1)).trans
        (settings_perform start (.initGenesis (.new .aimd)))
    have hother : (other.supply (.bank bank)).settings = (_, .empty, none) :=
      (settings_new hother :)
    have hcap : m.gasCap = none := congrArg (·.2.2) hm
    obtain ⟨hread, himport⟩ := resumes_after_import hstart hsteps (rfl : m = _)
    obtain ⟨-, -, hgoes⟩ := himport (other.supply (.bank bank))
      ((congrArg (·.1.authority) hother).trans (congrArg (·.1.authority) hm).symm)
      ((congrArg (·.2.1) hother).trans (congrArg (·.2.1) hm).symm)
      ((congrArg (·.2.2) hother).trans hcap.symm)
      fun cap h => absurd (h.symm.trans hcap) (Option.some_ne_none cap)
    exact ⟨hread, hgoes _ _ hlater (by simp [settlement]) 1⟩
  obtain ⟨hread, hgoes⟩ := hsame rfl rfl _
  exact ⟨hread, hunpaid, hpaid, hgoes⟩

end Market

end GasMarket
