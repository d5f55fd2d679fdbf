import GasMarket.Market.Block
import GasMarket.Market.Fees
import GasMarket.Proofs.Success

/-! What each operation can do to a market, said once: it fails and leaves the market as it is, or
it does one particular thing.  Only a settlement can fail after it has changed something. -/

namespace GasMarket.Market

theorem initGenesis_cases (m : Market) (g : Genesis) :
    (∃ e, m.initGenesis g = .failed m e) ∨
      g.params.validateUnder m.gasCap = .ok () ∧ g.state.validate g.params = .ok () ∧
        m.initGenesis g = .done (m.adopt g.params g.state) () := by
  unfold initGenesis
  cases hp : g.params.validateUnder m.gasCap with
  | error e => exact .inl ⟨e, rfl⟩
  | ok u =>
    cases hs : g.state.validate g.params with
    | error e => exact .inl ⟨e, rfl⟩
    | ok u => exact .inr ⟨rfl, rfl, rfl⟩

theorem load_cases (m : Market) :
    (∃ e, m.load = .failed m e) ∨ ∃ g, m.load = m.initGenesis g := by
  unfold load
  cases m.snapshot with
  | error e => exact .inl ⟨e, rfl⟩
  | ok found =>
    cases found with
    | none => exact .inr ⟨_, rfl⟩
    | some both => exact .inr ⟨_, rfl⟩

theorem load_of_empty {m : Market} (h : m.storage = .empty) :
    m.load = m.initGenesis (.build m.config) := by
  unfold load snapshot
  rw [h]
  rfl

def blank (c : Config) (f : FeeAccounts) : Market where
  config := c
  params := (Genesis.build c).params
  state := (Genesis.build c).state
  height := 0
  events := []
  feeAccounts := f
  funds := initialFunds c
  rates := .empty
  gasCap := none
  storage := .empty

theorem new_eq_ok {c : Config} {m : Market} (h : new c = .ok m) :
    ∃ f, FeeAccounts.resolve (initialFunds c).accounts c.feeCollector c.distribution = .ok f ∧
      (Genesis.build c).params.validateUnder none = .ok () ∧
      (Genesis.build c).state.validate (Genesis.build c).params = .ok () ∧
      m = (blank c f).adopt (Genesis.build c).params (Genesis.build c).state := by
  obtain ⟨f, hf, h⟩ := bind_eq_ok_iff.1 h
  have hload : (blank c f).load = (blank c f).initGenesis (.build c) := load_of_empty rfl
  unfold blank at hload
  obtain ⟨e, he⟩ | ⟨hp, hs, hg⟩ := initGenesis_cases (blank c f) (.build c)
  · unfold blank at he
    simp only [hload, he] at h
    cases h
  · unfold blank at hg
    simp only [hload, hg] at h
    cases h
    exact ⟨f, hf, hp, hs, rfl⟩

theorem updateParams_cases (m : Market) (authority : Address) (p : Params) :
    (∃ e, m.updateParams authority p = .failed m e) ∨
      authority = m.config.authority ∧ p.validateUnder m.gasCap = .ok () ∧
        m.updateParams authority p = .done (m.adopt p (.new p)) () := by
  unfold updateParams
  by_cases ha : authority = m.config.authority
  · cases hp : p.validateUnder m.gasCap with
    | error e => exact .inl ⟨e, by simp [ha]⟩
    | ok u => exact .inr ⟨ha, rfl, by simp [ha]⟩
  · exact .inl ⟨.unauthorized m.config.authority authority, by simp [ha]⟩

theorem endBlock_eq (m : Market) (height : UInt64) :
    m.endBlock height =
      if ¬ m.params.enabled then .done (m.beginBlock height) none
      else match m.state.nextBlock m.params with
        | .error e => .failed (m.beginBlock height) e
        | .ok (s, update) =>
          .done (((m.beginBlock height).adoptState s).emit
            (.feeMarketUpdate update.baseFee update.learningRate height)) (some update) := rfl

theorem result_endBlock_of_eq {m m' : Market} (hparams : m.params = m'.params)
    (hstate : m.state = m'.state) (height : UInt64) :
    (m.endBlock height).result = (m'.endBlock height).result := by
  rw [endBlock_eq, endBlock_eq, hparams, hstate]
  split
  · rfl
  · split
    · rfl
    · rfl

theorem endBlock_cases (m : Market) (height : UInt64) :
    (∃ e, m.endBlock height = .failed { m with height } e) ∨
      m.params.enabled = false ∧ m.endBlock height = .done { m with height } none ∨
      ∃ s update, m.state.nextBlock m.params = .ok (s, update) ∧
        m.endBlock height = .done
          (({ m with height }.adoptState s).emit
            (.feeMarketUpdate update.baseFee update.learningRate height)) (some update) := by
  unfold endBlock
  cases he : m.params.enabled with
  | false => exact .inr (.inl ⟨rfl, by simp [he]⟩)
  | true =>
    cases hn : m.state.nextBlock m.params with
    | error e => exact .inl ⟨e, by simp [he, hn]⟩
    | ok next => exact .inr (.inr ⟨next.1, next.2, rfl, by simp [he, hn]⟩)

/-- The market with the gas of a transaction recorded, published only if it is a change. -/
def committed (m : Market) (s : Controller) : Market := if s = m.state then m else m.adoptState s

def told (m : Market) (funds : Funds) (events : List Event) : Market :=
  { m with funds, events := m.events ++ events }

section Fields

variable (m : Market) (s : Controller) (funds : Funds) (events : List Event)

@[simp] theorem params_committed : (m.committed s).params = m.params := by
  unfold committed; split <;> rfl

@[simp] theorem state_committed : (m.committed s).state = s := by
  unfold committed
  split
  · next h => exact h.symm
  · rfl

@[simp] theorem feeAccounts_committed : (m.committed s).feeAccounts = m.feeAccounts := by
  unfold committed; split <;> rfl

@[simp] theorem funds_committed : (m.committed s).funds = m.funds := by
  unfold committed; split <;> rfl

@[simp] theorem events_committed : (m.committed s).events = m.events := by
  unfold committed; split <;> rfl

@[simp] theorem params_told : (m.told funds events).params = m.params := rfl

@[simp] theorem state_told : (m.told funds events).state = m.state := rfl

@[simp] theorem feeAccounts_told : (m.told funds events).feeAccounts = m.feeAccounts := rfl

@[simp] theorem funds_told : (m.told funds events).funds = funds := rfl

@[simp] theorem events_told : (m.told funds events).events = m.events ++ events := rfl

theorem told_nil : m.told funds [] = { m with funds } := by simp [told]

theorem elim_event? (refund : Refund) :
    refund.event?.elim { m with funds } { m with funds }.emit =
      m.told funds refund.event?.toList := by
  cases refund.event? with
  | none => exact (told_nil m funds).symm
  | some event => rfl

end Fields

theorem result_deduct (m : Market) (tx : Tx) (required tip : Coin) :
    (m.deduct tx required tip).result = (m.feeAccounts.deduct tx required tip m.funds).result := by
  unfold deduct
  cases h : (m.feeAccounts.deduct tx required tip m.funds).result with
  | ok charge => simp only [h]; rfl
  | error e => simp only [h]; rfl

theorem state_deduct (m : Market) (tx : Tx) (required tip : Coin) :
    (m.deduct tx required tip).state =
      m.told (m.feeAccounts.deduct tx required tip m.funds).state
        ((m.deduct tx required tip).result.toOption.map Charge.event).toList := by
  rw [result_deduct]
  unfold deduct
  cases h : (m.feeAccounts.deduct tx required tip m.funds).result with
  | ok charge => simp only [h]; rfl
  | error e =>
    simp only [h]
    exact (told_nil m _).symm

theorem recorded_cases {m : Market} {gasUsed : UInt64} {s : Controller}
    (h : m.recorded gasUsed = .ok s) :
    (m.params.enabled ∧ m.state.recordGas gasUsed = .ok s) ∨
      (¬ m.params.enabled ∧ s = m.state) := by
  unfold recorded at h
  split at h
  · next henabled => exact .inl ⟨henabled, h⟩
  · next hdisabled =>
    cases h
    exact .inr ⟨hdisabled, rfl⟩

/-- Why a settlement is refused before anything changes: too much gas for its transaction or for
the block, or a used fee that cannot be computed. -/
inductive Refused (m : Market) (tx : Tx) (charge : Charge) (gasUsed : UInt64) : Error → Prop
  | limit :
      tx.gasLimit < gasUsed → Refused m tx charge gasUsed (.gasUsedExceedsLimit gasUsed tx.gasLimit)
  | block {e} : m.recorded gasUsed = .error e → Refused m tx charge gasUsed e
  | price {e} : m.state.requiredFee m.params m.rates gasUsed charge.required.denom = .error e →
      Refused m tx charge gasUsed e

theorem refund_cases (m : Market) (tx : Tx) (charge : Charge) (gasUsed : UInt64) (success : Bool) :
    (∃ e, m.Refused tx charge gasUsed e ∧ m.refund tx charge gasUsed success = .failed m e) ∨
      ∃ s used moved, gasUsed ≤ tx.gasLimit ∧ m.recorded gasUsed = .ok s ∧
        m.state.requiredFee m.params m.rates gasUsed charge.required.denom = .ok used ∧
        m.feeAccounts.refund charge used success m.params.distributeFees m.funds = moved ∧
        (m.refund tx charge gasUsed success).result = moved.result ∧
        (m.refund tx charge gasUsed success).state =
          (m.committed s).told moved.state (moved.result.toOption.bind Refund.event?).toList := by
  unfold refund
  by_cases hlimit : tx.gasLimit < gasUsed
  · exact .inl ⟨_, .limit hlimit, by rw [if_pos hlimit]⟩
  · rw [if_neg hlimit]
    cases hs : m.recorded gasUsed with
    | error e => exact .inl ⟨e, .block hs, rfl⟩
    | ok s =>
      cases hu : m.state.requiredFee m.params m.rates gasUsed charge.required.denom with
      | error e => exact .inl ⟨e, .price hu, by simp only⟩
      | ok used =>
        refine .inr ⟨s, used, _, UInt64.not_lt.1 hlimit, rfl, rfl, rfl, ?_⟩
        rw [← feeAccounts_committed m s, ← params_committed m s, ← funds_committed m s]
        simp only [committed]
        cases hr : ((m.committed s).feeAccounts.refund charge used success
          (m.committed s).params.distributeFees (m.committed s).funds).result with
        | error e =>
          simp only [committed] at hr
          simp only [hr]
          exact ⟨rfl, (told_nil _ _).symm⟩
        | ok refund =>
          simp only [committed] at hr
          simp only [hr]
          exact ⟨rfl, elim_event? _ _ refund⟩

end GasMarket.Market
