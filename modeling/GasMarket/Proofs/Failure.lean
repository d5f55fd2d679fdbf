import GasMarket.Proofs.Ledger.Steps
import GasMarket.Proofs.Storage.Mirror

/-! What a failed operation leaves behind.  Everything is refused before the first change
or undone, but for a settlement: its gas is published before its payments, and whatever
stops these is fatal. -/

namespace GasMarket

theorem Outcome.error_of_andThen {σ α β : Type} {o : Outcome σ α} {f : α → σ → Outcome σ β}
    {e : Error} (h : (o.andThen f).result = .error e) :
    o.result = .error e ∨ ∃ a, o.result = .ok a ∧ (f a o.state).result = .error e := by
  unfold andThen at h
  cases ho : o.result with
  | ok a =>
    rw [ho] at h
    exact .inr ⟨a, rfl, h⟩
  | error e' =>
    rw [ho] at h
    cases h
    exact .inl rfl

section Fatal

theorem Coin.isFatal_of_add {a b : Coin} {e : Error} (h : a.add b = .error e) : e.isFatal := by
  by_cases hdenom : a.denom = b.denom
  · simp only [add, sameDenom, if_pos hdenom, bind, Except.bind] at h
    split at h
    · cases h
    · cases h
      rfl
  · simp only [add, sameDenom, if_neg hdenom, bind, Except.bind] at h
    cases h
    rfl

theorem Charge.isFatal_of_division {c : Charge} {used : Coin} {success distribute : Bool}
    {e : Error} (h : c.division used success distribute = .error e) : e.isFatal := by
  unfold division at h
  split at h
  · cases hadd : (c.unused used).add c.tip with
    | ok sum =>
      rw [hadd] at h
      cases h
    | error e' =>
      rw [hadd] at h
      cases h
      exact Coin.isFatal_of_add hadd
  · split at h
    · cases h
    · cases h

namespace FeeAccounts

variable {f : FeeAccounts}

theorem isFatal_of_payOut {receiver : Address} {amount : Coin} {funds : Funds} {e : Error}
    (h : (f.payOut receiver amount funds).result = .error e) : e.isFatal := by
  unfold payOut pay at h
  split at h
  · cases h
  · cases hsend : funds.bank.send f.collector receiver [amount] with
    | ok bank =>
      simp only [hsend] at h
      cases h
    | error fault =>
      simp only [hsend] at h
      cases h
      rfl

theorem isFatal_of_refund {charge : Charge} {used : Coin} {success distribute : Bool}
    {funds : Funds}
    {e : Error} (h : (f.refund charge used success distribute funds).result = .error e) :
    e.isFatal := by
  unfold refund at h
  split at h
  · cases h
    rfl
  · split at h
    · next hdivision =>
      cases h
      exact Charge.isFatal_of_division hdivision
    · obtain hfirst | ⟨-, -, hsecond⟩ := Outcome.error_of_andThen h
      · exact isFatal_of_payOut hfirst
      · obtain hsecond | ⟨-, -, hdone⟩ := Outcome.error_of_andThen hsecond
        · exact isFatal_of_payOut hsecond
        · cases hdone

end FeeAccounts

end Fatal

namespace Market

/-- Nothing that anyone can ask for has changed.  What is held stands for the table of balances,
where an entry may have come to hold nothing. -/
structure Unchanged (m m' : Market) : Prop where
  params : m'.params = m.params
  state : m'.state = m.state
  published : m'.storage.published = m.storage.published
  height : m'.height = m.height
  events : m'.events = m.events
  balance : ∀ address denom,
    m'.funds.bank.balance address denom = m.funds.bank.balance address denom
  allowances : m'.funds.allowances = m.funds.allowances
  accounts : m'.funds.accounts = m.funds.accounts

variable {m : Market}

theorem Unchanged.refl (m : Market) : m.Unchanged m :=
  ⟨rfl, rfl, rfl, rfl, rfl, fun _ _ => rfl, rfl, rfl⟩

theorem initGenesis_of_error {g : Genesis} {e : Error} (h : (m.initGenesis g).result = .error e) :
    (m.initGenesis g).state = m := by
  obtain ⟨e', he⟩ | ⟨-, -, he⟩ := initGenesis_cases m g
  · rw [he]; rfl
  · rw [he] at h; cases h

theorem load_of_error {e : Error} (h : m.load.result = .error e) : m.load.state = m := by
  obtain ⟨e', he⟩ | ⟨g, he⟩ := load_cases m
  · rw [he]; rfl
  · rw [he] at h ⊢
    exact initGenesis_of_error h

theorem updateParams_of_error {authority : Address} {p : Params} {e : Error}
    (h : (m.updateParams authority p).result = .error e) :
    (m.updateParams authority p).state = m := by
  obtain ⟨e', he⟩ | ⟨-, -, he⟩ := updateParams_cases m authority p
  · rw [he]; rfl
  · rw [he] at h; cases h

theorem endBlock_of_error {height : UInt64} {e : Error}
    (h : (m.endBlock height).result = .error e) :
    (m.endBlock height).state = { m with height } := by
  obtain ⟨e', he⟩ | ⟨-, he⟩ | ⟨s, update, -, he⟩ := endBlock_cases m height
  · rw [he]; rfl
  · rw [he] at h; cases h
  · rw [he] at h; cases h

theorem unchanged_deduct_of_error (hb : m.feeAccounts.Backed m.funds.bank) {tx : Tx}
    {required tip : Coin} {e : Error} (h : (m.deduct tx required tip).result = .error e) :
    m.Unchanged (m.deduct tx required tip).state := by
  have hstate := state_deduct m tx required tip
  rw [h] at hstate
  rw [result_deduct] at h
  obtain ⟨bank, e', he, hsame⟩ | ⟨fee, -, he, -, -⟩ := FeeAccounts.deduct_outcome hb tx required tip
  · rw [hstate, he]
    refine ⟨rfl, rfl, rfl, rfl, List.append_nil m.events, ?_, rfl, rfl⟩
    intro address denom
    exact BitVec.eq_of_toNat_eq (hsame.holding address denom)
  · rw [he] at h; cases h

theorem Sound.recorded_error (h : m.Sound) {gasUsed : UInt64} {e : Error}
    (he : m.recorded gasUsed = .error e) : e.isFatal = false := by
  unfold Market.recorded at he
  split at he
  · exact Controller.isFatal_of_recordGas h.state.index_lt he
  · cases he

def withGas (m : Market) (gasUsed : UInt64) : Controller :=
  if m.params.enabled then
    { m.state with
      window := m.state.window.set m.state.index.toNat (m.state.currentGas + gasUsed) }
  else m.state

theorem recorded_eq_ok {gasUsed : UInt64} {s : Controller} (h : m.recorded gasUsed = .ok s) :
    s = m.withGas gasUsed ∧
      (m.params.enabled → m.state.currentGas.toNat + gasUsed.toNat ≤ m.state.maxGas.toNat) := by
  unfold withGas
  obtain ⟨henabled, h⟩ | ⟨hdisabled, rfl⟩ := recorded_cases h
  · obtain ⟨-, hfits, rfl⟩ := Controller.recordGas_eq_ok_iff.1 h
    rw [if_pos henabled]
    exact ⟨rfl, fun _ => hfits⟩
  · rw [if_neg hdisabled]
    exact ⟨rfl, fun h => absurd h hdisabled⟩

/-- A settlement that was stopped: nothing is told, and what is published is the controller as it
was if the used fee could not be computed, and with the gas of the transaction otherwise. -/
structure Stopped (m : Market) (charge : Charge) (gasUsed : UInt64) (e : Error) (m' : Market) :
    Prop where
  events : m'.events = m.events
  published : m'.storage.published.readState = .ok (some m'.state)
  state : m.state.requiredFee m.params m.rates gasUsed charge.required.denom = .error e ∧
      m'.state = m.state ∨
    (∃ used, m.state.requiredFee m.params m.rates gasUsed charge.required.denom = .ok used) ∧
      m'.state = m.withGas gasUsed ∧
      (m.params.enabled → m.state.currentGas.toNat + gasUsed.toNat ≤ m.state.maxGas.toNat)

theorem refund_of_error (hmirrored : m.Mirrored) (hsound : m.Sound) {tx : Tx} {charge : Charge}
    {gasUsed : UInt64} {success : Bool} {e : Error}
    (h : (m.refund tx charge gasUsed success).result = .error e) :
    (e.isFatal = false → (m.refund tx charge gasUsed success).state = m) ∧
      (e.isFatal → m.Stopped charge gasUsed e (m.refund tx charge gasUsed success).state) := by
  obtain ⟨e', hrefused, he⟩ | ⟨s, used, moved, -, hs, hused, hmoved, hresult, he⟩ :=
    refund_cases m tx charge gasUsed success
  · rw [he] at h ⊢
    cases h
    refine ⟨fun _ => rfl, ?_⟩
    intro hfatal
    have hpublished : m.storage.published.readState = .ok (some m.state) :=
      hmirrored.readState hsound
    cases hrefused with
    | limit _ => cases hfatal
    | block hblock => exact absurd (hsound.recorded_error hblock) (by simp [hfatal])
    | price hprice => exact ⟨rfl, hpublished, .inl ⟨hprice, rfl⟩⟩
  · have hfatal : e.isFatal := FeeAccounts.isFatal_of_refund (hmoved ▸ hresult ▸ h)
    refine ⟨fun hnot => absurd hfatal (by simp [hnot]), fun _ => ?_⟩
    have hmirrored' : (m.refund tx charge gasUsed success).state.Mirrored :=
      hmirrored.step hsound (s := .operation (.refund tx charge gasUsed success)) trivial
    have hsound' := hsound.refund tx charge gasUsed success
    obtain ⟨hgas, hfits⟩ := recorded_eq_ok hs
    refine ⟨?_, hmirrored'.readState hsound', .inr ⟨⟨used, hused⟩, ?_, hfits⟩⟩
    · rw [events_refund, h]
      exact List.append_nil m.events
    · rw [he, state_told, state_committed, hgas]

/-- A failed operation in any state of any run, whatever it was asked to do, changes nothing; only
the end of a block has moved the height on, and only a settlement that fails fatally has published
the gas of its transaction. -/
theorem failed_operation {c : Config} {start : Market} (hnew : new c = .ok start)
    {steps : List Step} (hsteps : ∀ s ∈ steps, s.Decoded) {m : Market} (hm : m = start.after steps)
    (hb : m.feeAccounts.Backed m.funds.bank) :
    (∀ g e, (m.initGenesis g).result = .error e → m.Unchanged (m.initGenesis g).state) ∧
    (∀ e, m.load.result = .error e → m.Unchanged m.load.state) ∧
    (∀ authority p e, (m.updateParams authority p).result = .error e →
      m.Unchanged (m.updateParams authority p).state) ∧
    (∀ tx required tip e, (m.deduct tx required tip).result = .error e →
      m.Unchanged (m.deduct tx required tip).state) ∧
    (∀ height e, (m.endBlock height).result = .error e →
      (m.endBlock height).state = { m with height }) ∧
    ∀ tx charge gasUsed success e, (m.refund tx charge gasUsed success).result = .error e →
      (e.isFatal = false → m.Unchanged (m.refund tx charge gasUsed success).state) ∧
      (e.isFatal → m.Stopped charge gasUsed e (m.refund tx charge gasUsed success).state) := by
  obtain ⟨hmirrored, hsound⟩ : m.Mirrored ∧ m.Sound := hm ▸ mirrored_after hnew hsteps
  have hself {m' : Market} (h : m' = m) : m.Unchanged m' := h ▸ .refl m
  refine ⟨?_, ?_, ?_, ?_, ?_, ?_⟩
  · exact fun g e h => hself (initGenesis_of_error h)
  · exact fun e h => hself (load_of_error h)
  · exact fun authority p e h => hself (updateParams_of_error h)
  · exact fun tx required tip e h => unchanged_deduct_of_error hb h
  · exact fun height e h => endBlock_of_error h
  · intro tx charge gasUsed success e h
    obtain ⟨hrefused, hstopped⟩ := refund_of_error hmirrored hsound h
    exact ⟨fun hfatal => hself (hrefused hfatal), hstopped⟩

theorem failed_operation_denied : ∃ start, new .default = .ok start ∧
    let tx : Tx := (Tx.new ⟨0xaa⟩ ⟨"stake", 100⟩ 1).withFeeGranter ⟨0xbb⟩
    let charge : Charge := ⟨⟨0xaa⟩, ⟨"stake", 1000000000⟩, ⟨"stake", 1⟩⟩
    let m := start.after [.host (.accounts ⟨.empty, [⟨0xbb⟩]⟩),
      .host (.bank (start.feeAccounts.funded ⟨0xbb⟩ ⟨"stake", 130⟩))]
    (m.deduct tx ⟨"stake", 100⟩ (.zero "stake")).result =
        .error (.feeGrantDenied ⟨0xbb⟩ ⟨0xaa⟩ GrantRefusal.notFound.reason) ∧
      m.Unchanged (m.deduct tx ⟨"stake", 100⟩ (.zero "stake")).state ∧
      ∃ e, (m.refund tx charge 1 false).result = .error e ∧ e.isFatal ∧
        m.Stopped charge 1 e (m.refund tx charge 1 false).state := by
  refine ⟨_, rfl, ?_⟩
  intro tx charge m
  have hb : m.feeAccounts.Backed m.funds.bank := FeeAccounts.backed_funded _ _ _
  have hdenied : (m.deduct tx ⟨"stake", 100⟩ (.zero "stake")).result =
      .error (.feeGrantDenied ⟨0xbb⟩ ⟨0xaa⟩ GrantRefusal.notFound.reason) := rfl
  obtain ⟨e, hfailed, hfatal⟩ :
      ∃ e, (m.refund tx charge 1 false).result = .error e ∧ e.isFatal := by
    have hfatal : (((m.refund tx charge 1 false).result.map fun _ => false).tryCatch
      fun e => .ok e.isFatal).toOption = some true := by decide +kernel
    cases hresult : (m.refund tx charge 1 false).result with
    | ok refund =>
      rw [hresult] at hfatal
      cases hfatal
    | error e =>
      rw [hresult] at hfatal
      exact ⟨e, rfl, Option.some.inj hfatal⟩
  have hsteps : ∀ s ∈ [Step.host (.accounts ⟨.empty, [⟨0xbb⟩]⟩),
      .host (.bank (m.feeAccounts.funded ⟨0xbb⟩ ⟨"stake", 130⟩))], s.Decoded := by
    simp [Step.Decoded]
  obtain ⟨-, -, -, hdeduct, -, hrefund⟩ := failed_operation (c := .default) rfl hsteps rfl hb
  exact ⟨hdenied, hdeduct _ _ _ _ hdenied, e, hfailed, hfatal, (hrefund _ _ _ _ _ hfailed).2 hfatal⟩

end Market

end GasMarket
