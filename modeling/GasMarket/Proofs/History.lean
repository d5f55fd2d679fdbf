import GasMarket.Proofs.Run

namespace GasMarket

namespace Market

def takes (m : Market) : Step → Option Charge
  | .operation (.deduct tx required tip) => (m.deduct tx required tip).result.toOption
  | _ => none

def settles (m : Market) : Step → Option Charge
  | .operation (.refund tx charge gasUsed success) =>
    (m.refund tx charge gasUsed success).result.toOption.map fun _ => charge
  | _ => none

def drains (m : Market) : Step → List Event
  | .operation .drainEvents => m.drainEvents.1
  | _ => []

end Market

structure History where
  market : Market
  drained : List Event
  taken : List Charge
  outstanding : List Charge

namespace History

def start (m : Market) : History := ⟨m, [], [], []⟩

def step (h : History) (s : Step) : History where
  market := h.market.step s
  drained := h.drained ++ h.market.drains s
  taken := (h.market.takes s).toList ++ h.taken
  outstanding := (h.market.takes s).toList ++
    (h.market.settles s).elim h.outstanding h.outstanding.erase

def after (h : History) (steps : List Step) : History := steps.foldl step h

def log (h : History) : List Event := h.drained ++ h.market.events

theorem market_after (h : History) (steps : List Step) :
    (h.after steps).market = h.market.after steps := by
  induction steps generalizing h with
  | nil => rfl
  | cons s rest ih => exact ih (h.step s)

def Follows (Allowed : History → Step → Prop) (h : History) : List Step → Prop
  | [] => True
  | s :: rest => Allowed h s ∧ Follows Allowed (h.step s) rest

theorem follows_of_forall {Allowed : Step → Prop} {h : History} {steps : List Step}
    (hsteps : ∀ s ∈ steps, Allowed s) : h.Follows (fun _ s => Allowed s) steps := by
  induction steps generalizing h with
  | nil => trivial
  | cons s rest ih =>
    refine ⟨hsteps s List.mem_cons_self, ih ?_⟩
    intro t ht
    exact hsteps t (List.mem_cons_of_mem s ht)

theorem follows_induction {Allowed : History → Step → Prop} {P : History → Prop} {h : History}
    {steps : List Step} (run : h.Follows Allowed steps) (start : P h)
    (step : ∀ h s, Allowed h s → P h → P (h.step s)) : P (h.after steps) := by
  induction steps generalizing h with
  | nil => exact start
  | cons s rest ih => exact ih run.2 (step h s run.1 start)

end History

def Market.history (m : Market) (b : Bank) (steps : List Step) : History :=
  (History.start (m.supply (.bank b))).after steps

end GasMarket
