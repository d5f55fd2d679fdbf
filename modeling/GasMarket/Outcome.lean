import GasMarket.Error

/-! The result of an operation together with the state it leaves, which a failure may have
changed as well. -/

namespace GasMarket

structure Outcome (σ α : Type) where
  result : Except Error α
  state : σ

namespace Outcome

variable {σ α β : Type}

def done (s : σ) (a : α) : Outcome σ α := ⟨.ok a, s⟩

def failed (s : σ) (e : Error) : Outcome σ α := ⟨.error e, s⟩

def andThen (o : Outcome σ α) (f : α → σ → Outcome σ β) : Outcome σ β :=
  match o.result with
  | .ok a => f a o.state
  | .error e => failed o.state e

@[simp] theorem result_andThen_eq_ok_iff (o : Outcome σ α) (f : α → σ → Outcome σ β) (b : β) :
    (o.andThen f).result = .ok b ↔ ∃ a, o.result = .ok a ∧ (f a o.state).result = .ok b := by
  unfold andThen
  cases o.result <;> simp [failed]

theorem state_andThen_done (o : Outcome σ α) (b : β) :
    (o.andThen fun _ s => done s b).state = o.state := by
  unfold andThen
  cases o.result <;> rfl

def ofExcept (s : σ) : Except Error α → Outcome σ α
  | .ok a => done s a
  | .error e => failed s e

@[simp] theorem state_ofExcept (s : σ) (r : Except Error α) : (ofExcept s r).state = s := by
  cases r <;> rfl

end Outcome

end GasMarket
