import GasMarket.Proofs.BlockGas
import GasMarket.Proofs.Failure
import Mathlib.Data.List.Forall2

namespace GasMarket

/-- What two markets may do side by side.  Charges are free, and so is of a settlement everything
but its gas, its limit and the denomination that its price is asked in. -/
inductive Operation.Parallel : Operation → Operation → Prop
  | initGenesis (g : Genesis) : Parallel (.initGenesis g) (.initGenesis g)
  | load : Parallel .load .load
  | beginBlock (height : UInt64) : Parallel (.beginBlock height) (.beginBlock height)
  | endBlock (height : UInt64) : Parallel (.endBlock height) (.endBlock height)
  | updateParams (authority : Address) (p : Params) :
      Parallel (.updateParams authority p) (.updateParams authority p)
  | checkFee (tx tx' : Tx) (context context' : Context) :
      Parallel (.checkFee tx context) (.checkFee tx' context')
  | deduct (tx tx' : Tx) (required required' tip tip' : Coin) :
      Parallel (.deduct tx required tip) (.deduct tx' required' tip')
  | refund {tx tx' : Tx} {charge charge' : Charge} (gasUsed : UInt64) (success success' : Bool)
      (limit : tx.gasLimit = tx'.gasLimit)
      (denom : charge.required.denom = charge'.required.denom) :
      Parallel (.refund tx charge gasUsed success) (.refund tx' charge' gasUsed success')
  | drainEvents : Parallel .drainEvents .drainEvents

/-- What fees are taken from and paid to, which rates and the cap on gas are not. -/
def Supplied.IsMoney : Supplied → Prop
  | .rates _ | .gasCap _ => False
  | _ => True

inductive Step.Parallel : Step → Step → Prop
  | operation {op op' : Operation} : op.Parallel op' → Parallel (.operation op) (.operation op')
  | money {part part' : Supplied} :
      part.IsMoney → part'.IsMoney → Parallel (.host part) (.host part')
  | rates (r : Rates) : Parallel (.host (.rates r)) (.host (.rates r))
  | gasCap (cap : Option UInt64) : Parallel (.host (.gasCap cap)) (.host (.gasCap cap))

theorem Step.Parallel.refl (s : Step) : s.Parallel s := by
  cases s with
  | operation op =>
    refine .operation ?_
    cases op with
    | initGenesis g => exact .initGenesis g
    | load => exact .load
    | beginBlock height => exact .beginBlock height
    | endBlock height => exact .endBlock height
    | updateParams authority p => exact .updateParams authority p
    | checkFee tx context => exact .checkFee tx tx context context
    | deduct tx required tip => exact .deduct tx tx required required tip tip
    | refund tx charge gasUsed success => exact .refund gasUsed success success rfl rfl
    | drainEvents => exact .drainEvents
  | host part =>
    cases part with
    | rates r => exact .rates r
    | gasCap cap => exact .gasCap cap
    | bank | disabled | accounts | allowances => exact .money trivial trivial

namespace Market

/-- All that the controller of a market is moved by, short of loading. -/
structure Alike (m m' : Market) : Prop where
  authority : m.config.authority = m'.config.authority
  rates : m.rates = m'.rates
  gasCap : m.gasCap = m'.gasCap
  params : m.params = m'.params
  state : m.state = m'.state
  storage : m.storage = m'.storage

variable {m m' : Market}

theorem exists_state_refund (m : Market) (tx : Tx) (charge : Charge) (gasUsed : UInt64)
    (success : Bool) :
    ∃ funds events, (m.refund tx charge gasUsed success).state =
      (if m.Accepts tx charge gasUsed then m.committed (m.withGas gasUsed) else m).told funds
        events := by
  obtain ⟨e, hrefused, he⟩ | ⟨s, used, moved, hlimit, hs, hused, -, -, he⟩ :=
    refund_cases m tx charge gasUsed success
  · rw [if_neg (not_accepts_of_refused hrefused), he]
    exact ⟨m.funds, [], (told_nil m m.funds).symm⟩
  · rw [if_pos (accepts_of_recorded hlimit hs hused), he, (recorded_eq_ok hs).1]
    exact ⟨_, _, rfl⟩

namespace Alike

theorem told (h : m.Alike m') (funds funds' : Funds) (events events' : List Event) :
    (m.told funds events).Alike (m'.told funds' events') :=
  ⟨h.authority, h.rates, h.gasCap, h.params, h.state, h.storage⟩

theorem adopt (h : m.Alike m') (p : Params) (s : Controller) : (m.adopt p s).Alike (m'.adopt p s) :=
  ⟨h.authority, h.rates, h.gasCap, rfl, rfl, congrArg (·.save p s) h.storage⟩

theorem adoptState (h : m.Alike m') (s : Controller) : (m.adoptState s).Alike (m'.adoptState s) :=
  ⟨h.authority, h.rates, h.gasCap, h.params, rfl, congrArg (·.saveState s) h.storage⟩

theorem committed (h : m.Alike m') (s : Controller) : (m.committed s).Alike (m'.committed s) := by
  unfold Market.committed
  rw [h.state]
  split
  · exact h
  · exact h.adoptState s

theorem withGas (h : m.Alike m') (gasUsed : UInt64) : m.withGas gasUsed = m'.withGas gasUsed := by
  unfold Market.withGas
  rw [h.params, h.state]

theorem accepts_iff (h : m.Alike m') {tx tx' : Tx} {charge charge' : Charge} (gasUsed : UInt64)
    (hlimit : tx.gasLimit = tx'.gasLimit)
    (hdenom : charge.required.denom = charge'.required.denom) :
    m.Accepts tx charge gasUsed ↔ m'.Accepts tx' charge' gasUsed := by
  unfold Accepts recorded
  rw [hlimit, hdenom, h.params, h.state, h.rates]

theorem initGenesis (h : m.Alike m') (g : Genesis) :
    (m.initGenesis g).state.Alike (m'.initGenesis g).state := by
  unfold Market.initGenesis
  rw [h.gasCap]
  split
  · exact h
  · exact h
  · exact h.adopt _ _

theorem beginBlock (h : m.Alike m') (height : UInt64) :
    (m.beginBlock height).Alike (m'.beginBlock height) :=
  ⟨h.authority, h.rates, h.gasCap, h.params, h.state, h.storage⟩

theorem load (h : m.Alike m') (hconfig : m.config = m'.config) :
    m.load.state.Alike m'.load.state := by
  unfold Market.load snapshot
  rw [h.storage, hconfig]
  split
  · exact h
  · exact h.initGenesis _
  · exact h.initGenesis _

theorem endBlock (h : m.Alike m') (height : UInt64) :
    (m.endBlock height).state.Alike (m'.endBlock height).state := by
  rw [endBlock_eq, endBlock_eq, h.params, h.state]
  split
  · exact h.beginBlock height
  · split
    · exact h.beginBlock height
    · exact ((h.beginBlock height).adoptState _).told _ _ _ _

theorem updateParams (h : m.Alike m') (authority : Address) (p : Params) :
    (m.updateParams authority p).state.Alike (m'.updateParams authority p).state := by
  unfold Market.updateParams
  rw [h.authority, h.gasCap]
  split
  · exact h
  · split
    · exact h
    · exact h.adopt _ _

theorem refund (h : m.Alike m') {tx tx' : Tx} {charge charge' : Charge} (gasUsed : UInt64)
    (success success' : Bool) (hlimit : tx.gasLimit = tx'.gasLimit)
    (hdenom : charge.required.denom = charge'.required.denom) :
    (m.refund tx charge gasUsed success).state.Alike
      (m'.refund tx' charge' gasUsed success').state := by
  -- the gas is recorded before anything is paid, so only funds and events depend on the payments
  obtain ⟨funds, events, hstate⟩ := exists_state_refund m tx charge gasUsed success
  obtain ⟨funds', events', hstate'⟩ := exists_state_refund m' tx' charge' gasUsed success'
  rw [hstate, hstate']
  refine told ?_ funds funds' events events'
  rw [h.withGas]
  simp only [h.accepts_iff gasUsed hlimit hdenom]
  split
  · exact h.committed _
  · exact h

theorem perform (h : m.Alike m') {op op' : Operation} (hop : op.Parallel op')
    (hload : op = .load → m.config = m'.config) : (m.perform op).Alike (m'.perform op') := by
  cases hop with
  | initGenesis g => exact h.initGenesis g
  | load => exact h.load (hload rfl)
  | beginBlock height => exact h.beginBlock height
  | endBlock height => exact h.endBlock height
  | updateParams authority p => exact h.updateParams authority p
  | checkFee tx tx' context context' =>
    simp only [Market.perform, Outcome.state_ofExcept]
    exact h
  | deduct tx tx' required required' tip tip' =>
    simp only [Market.perform, state_deduct]
    exact h.told _ _ _ _
  | refund gasUsed success success' hlimit hdenom =>
    exact h.refund gasUsed success success' hlimit hdenom
  | drainEvents => exact ⟨h.authority, h.rates, h.gasCap, h.params, h.state, h.storage⟩

theorem supply (h : m.Alike m') {part part' : Supplied} (hpart : part.IsMoney)
    (hpart' : part'.IsMoney) : (m.supply part).Alike (m'.supply part') := by
  have hsame {m : Market} {part : Supplied} (hpart : part.IsMoney) :
      ∃ funds, m.supply part = m.told funds [] := by
    cases part with
    | rates | gasCap => exact hpart.elim
    | bank | disabled | accounts | allowances => exact ⟨_, (told_nil m _).symm⟩
  obtain ⟨funds, hfunds⟩ := hsame (m := m) hpart
  obtain ⟨funds', hfunds'⟩ := hsame (m := m') hpart'
  rw [hfunds, hfunds']
  exact h.told _ _ _ _

theorem step (h : m.Alike m') {s s' : Step} (hs : s.Parallel s')
    (hload : s = .operation .load → m.config = m'.config) : (m.step s).Alike (m'.step s') := by
  cases hs with
  | operation hop => exact h.perform hop fun hop => hload (congrArg Step.operation hop)
  | money hpart hpart' => exact h.supply hpart hpart'
  | rates r => exact ⟨h.authority, rfl, h.gasCap, h.params, h.state, h.storage⟩
  | gasCap cap => exact ⟨h.authority, h.rates, rfl, h.params, h.state, h.storage⟩

end Alike

theorem Alike.after {steps steps' : List Step} (h : m.Alike m')
    (hsteps : List.Forall₂ Step.Parallel steps steps')
    (hload : .operation .load ∈ steps → m.config = m'.config) :
    (m.after steps).Alike (m'.after steps') := by
  induction hsteps generalizing m m' with
  | nil => exact h
  | cons hs hrest ih =>
    refine ih (h.step hs fun hs => hload (hs ▸ List.mem_cons_self)) fun hrest => ?_
    rw [config_step, config_step]
    exact hload (List.mem_cons_of_mem _ hrest)

structure SameController (m m' : Market) : Prop where
  params : m.params = m'.params
  state : m.state = m'.state
  published : m.storage.published = m'.storage.published
  endBlock : ∀ height, (m.endBlock height).result = (m'.endBlock height).result

theorem Alike.sameController (h : m.Alike m') : m.SameController m' :=
  ⟨h.params, h.state, congrArg Storage.published h.storage, result_endBlock_of_eq h.params h.state⟩

/-- In markets that agree but for their money, and that do the same but for what is charged and how
it is settled, the controller stays the same step by step, and so does the end of each block.  Equal
storage is equal slots as published, for between operations nothing is staged. -/
theorem sameController_of_parallel (hsettings : m.settings = m'.settings)
    (hparams : m.params = m'.params)
    (hstate : m.state = m'.state) (hstorage : m.storage = m'.storage) {steps steps' : List Step}
    (hsteps : List.Forall₂ Step.Parallel steps steps') (n : Nat) :
    (m.after (steps.take n)).SameController (m'.after (steps'.take n)) := by
  have hconfig : m.config = m'.config := congrArg Prod.fst hsettings
  have hstart : m.Alike m' := ⟨congrArg Config.authority hconfig, congrArg (·.2.1) hsettings,
    congrArg (·.2.2) hsettings, hparams, hstate, hstorage⟩
  exact (hstart.after (List.forall₂_take n hsteps) fun _ => hconfig).sameController

theorem sameController_of_unpaid : ∃ poor, new .default = .ok poor ∧
    let coin : Coin := ⟨"stake", 40000000000000000⟩
    let rich := poor.after [.host (.bank (poor.feeAccounts.funded collectorAddress coin))]
    let paid : Operation :=
      .refund (.new ⟨0xaa⟩ coin 20000000) ⟨⟨0xaa⟩, coin, .zero "stake"⟩ 20000000 true
    let unpaid : Operation :=
      .refund (.new ⟨0xbb⟩ coin 20000000) ⟨⟨0xbb⟩, ⟨"stake", 90000000000000000⟩, coin⟩ 20000000
        false
    (rich.perform paid).events ≠ rich.events ∧ (poor.perform unpaid).events = poor.events ∧
      (rich.perform paid).SameController (poor.perform unpaid) := by
  refine ⟨_, rfl, ?_⟩
  intro coin rich paid unpaid
  have hparallel : List.Forall₂ Step.Parallel [.operation paid] [.operation unpaid] :=
    .cons (.operation (.refund 20000000 true false rfl rfl)) .nil
  have hsame (poor : Market) (bank : Bank) :
      ((poor.after [.host (.bank bank)]).perform paid).SameController (poor.perform unpaid) :=
    @sameController_of_parallel (poor.after [.host (.bank bank)]) poor rfl rfl rfl rfl _ _ hparallel
      1
  exact ⟨by decide +kernel, by decide +kernel, hsame _ _⟩

end Market

end GasMarket
