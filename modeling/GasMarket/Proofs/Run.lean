import GasMarket.Proofs.Transitions

namespace GasMarket

inductive Operation
  | initGenesis (g : Genesis)
  | load
  | beginBlock (height : UInt64)
  | endBlock (height : UInt64)
  | updateParams (authority : Address) (p : Params)
  | checkFee (tx : Tx) (context : Context)
  | deduct (tx : Tx) (required tip : Coin)
  | refund (tx : Tx) (charge : Charge) (gasUsed : UInt64) (success : Bool)
  | drainEvents

inductive Supplied
  | bank (b : Bank)
  | disabled (denoms : List String)
  | accounts (a : Accounts)
  | allowances (a : Allowances)
  | rates (r : Rates)
  | gasCap (cap : Option UInt64)

inductive Step
  | operation (op : Operation)
  | host (part : Supplied)

def Step.KeepsCoins : Step → Prop
  | .host (.bank _) => False
  | _ => True

def Step.KeepsRates : Step → Prop
  | .host (.rates _) => False
  | _ => True

def Step.KeepsBank : Step → Prop
  | .host (.bank _) | .host (.disabled _) => False
  | _ => True

namespace Market

def perform (m : Market) : Operation → Market
  | .initGenesis g => (m.initGenesis g).state
  | .load => m.load.state
  | .beginBlock height => m.beginBlock height
  | .endBlock height => (m.endBlock height).state
  | .updateParams authority p => (m.updateParams authority p).state
  | .checkFee tx context => (Outcome.ofExcept m (m.checkFee tx context)).state
  | .deduct tx required tip => (m.deduct tx required tip).state
  | .refund tx charge gasUsed success => (m.refund tx charge gasUsed success).state
  | .drainEvents => m.drainEvents.2

def supply (m : Market) : Supplied → Market
  | .bank bank => { m with funds.bank := bank }
  | .disabled disabled => { m with funds.bank.disabled := disabled }
  | .accounts accounts => { m with funds.accounts := accounts }
  | .allowances allowances => { m with funds.allowances := allowances }
  | .rates rates => { m with rates }
  | .gasCap gasCap => { m with gasCap }

def step (m : Market) : Step → Market
  | .operation op => m.perform op
  | .host part => m.supply part

def after (m : Market) (steps : List Step) : Market := steps.foldl step m

@[simp] theorem after_nil (m : Market) : m.after [] = m := rfl

@[simp] theorem after_cons (m : Market) (s : Step) (steps : List Step) :
    m.after (s :: steps) = (m.step s).after steps := rfl

theorem after_append (m : Market) (steps more : List Step) :
    m.after (steps ++ more) = (m.after steps).after more := List.foldl_append

/-- What no operation changes. -/
def settings (m : Market) : Config × Rates × Option UInt64 := (m.config, m.rates, m.gasCap)

theorem settings_initGenesis (m : Market) (g : Genesis) :
    (m.initGenesis g).state.settings = m.settings := by
  obtain ⟨e, he⟩ | ⟨-, -, he⟩ := initGenesis_cases m g
  · rw [he]; rfl
  · rw [he]; rfl

theorem settings_perform (m : Market) (op : Operation) : (m.perform op).settings = m.settings := by
  cases op with
  | initGenesis g => exact settings_initGenesis m g
  | load =>
    obtain ⟨e, he⟩ | ⟨g, hg⟩ := load_cases m
    · rw [perform, he]; rfl
    · rw [perform, hg]; exact settings_initGenesis m g
  | beginBlock height => rfl
  | endBlock height =>
    obtain ⟨e, he⟩ | ⟨-, he⟩ | ⟨s, update, -, he⟩ := endBlock_cases m height
    · rw [perform, he]; rfl
    · rw [perform, he]; rfl
    · rw [perform, he]; rfl
  | updateParams authority p =>
    obtain ⟨e, he⟩ | ⟨-, -, he⟩ := updateParams_cases m authority p
    · rw [perform, he]; rfl
    · rw [perform, he]; rfl
  | checkFee tx context => rw [perform, Outcome.state_ofExcept]
  | deduct tx required tip => rw [perform, state_deduct]; rfl
  | refund tx charge gasUsed success =>
    obtain ⟨e, -, he⟩ | ⟨s, used, moved, -, -, -, -, -, he⟩ :=
      refund_cases m tx charge gasUsed success
    · rw [perform, he]; rfl
    · rw [perform, he]
      unfold committed
      split <;> rfl
  | drainEvents => rfl

theorem config_step (m : Market) (s : Step) : (m.step s).config = m.config := by
  cases s with
  | operation op => exact congrArg Prod.fst (settings_perform m op)
  | host part => cases part <;> rfl

theorem settings_new {c : Config} {m : Market} (h : new c = .ok m) :
    m.settings = (c, .empty, none) := by
  obtain ⟨f, -, -, -, rfl⟩ := new_eq_ok h
  rfl

def Reachable (m : Market) : Prop :=
  ∃ (c : Config) (start : Market) (steps : List Step), new c = .ok start ∧ m = start.after steps

theorem after_induction_on {Allowed : Step → Prop} {P : Market → Prop} {m : Market}
    {steps : List Step} (allowed : ∀ s ∈ steps, Allowed s) (start : P m)
    (step : ∀ m s, Allowed s → P m → P (m.step s)) : P (m.after steps) := by
  induction steps generalizing m with
  | nil => exact start
  | cons s rest ih =>
    obtain ⟨hs, hrest⟩ := List.forall_mem_cons.1 allowed
    exact ih hrest (step m s hs start)

theorem after_induction {P : Market → Prop} {m : Market} (start : P m)
    (step : ∀ m s, P m → P (m.step s)) (steps : List Step) : P (m.after steps) :=
  after_induction_on (fun _ _ => trivial) start fun m s _ => step m s

end Market

end GasMarket
