import GasMarket.Address
import GasMarket.Table

namespace GasMarket

structure Accounts where
  modules : Table String Address
  existing : List Address

namespace Accounts

def empty : Accounts := ⟨.empty, []⟩

def Exists (a : Accounts) (address : Address) : Prop := address ∈ a.existing

instance (a : Accounts) (address : Address) : Decidable (a.Exists address) :=
  inferInstanceAs (Decidable (address ∈ a.existing))

def create (a : Accounts) (address : Address) : Accounts :=
  { a with existing := a.existing.insert address }

def addModule (a : Accounts) (name : String) (address : Address) : Accounts :=
  { a.create address with modules := a.modules.insert name address }

@[simp] theorem exists_create (a : Accounts) (address other : Address) :
    (a.create address).Exists other ↔ other = address ∨ a.Exists other := by
  simp [create, Exists]

end Accounts

end GasMarket
