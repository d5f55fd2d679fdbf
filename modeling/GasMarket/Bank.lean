import GasMarket.Error
import GasMarket.Table

namespace GasMarket

inductive BankFault
  | insufficientFunds (address : Address) (amount : Coin)
  | sendDisabled (denom : String)
  | unknownModule (name : String)
  deriving DecidableEq

namespace BankFault

def message : BankFault → String
  | insufficientFunds address amount =>
    s!"{address.checksummed} has insufficient funds for {amount.toText}"
  | sendDisabled denom => s!"Transfers of {denom} are disabled"
  | unknownModule name => s!"Unknown module account {name}"

def error : BankFault → Error
  | insufficientFunds address amount => .insufficientFunds address amount
  | sendDisabled denom => .sendDisabled denom
  | unknownModule name => .missingModuleAccount name

end BankFault

structure Bank where
  balances : Table (Address × String) Amount
  modules : Table String Address
  disabled : List String

namespace Bank

def empty : Bank := ⟨.empty, .empty, []⟩

def balance (b : Bank) (address : Address) (denom : String) : Amount :=
  (b.balances.get? (address, denom)).getD 0

def setBalance (b : Bank) (address : Address) (denom : String) (amount : Amount) : Bank :=
  { b with balances := b.balances.insert (address, denom) amount }

@[simp] theorem balance_setBalance (b : Bank) (address other : Address) (denom kind : String)
    (amount : Amount) :
    (b.setBalance address denom amount).balance other kind =
      if (address, denom) = (other, kind) then amount else b.balance other kind := by
  simp only [balance, setBalance, Table.get?_insert]
  split <;> rfl

def sendEnabled (b : Bank) (coins : List Coin) : Except BankFault Unit :=
  match coins.find? (·.denom ∈ b.disabled) with
  | some coin => .error (.sendDisabled coin.denom)
  | none => .ok ()

/-- Moves a coin without looking at the sender's balance. -/
def move (b : Bank) (sender receiver : Address) (coin : Coin) : Bank :=
  let b := b.setBalance sender coin.denom (b.balance sender coin.denom - coin.amount)
  b.setBalance receiver coin.denom (b.balance receiver coin.denom + coin.amount)

/-- Each coin on its own must be covered by the sender's balance before any is moved. -/
def send (b : Bank) (sender receiver : Address) (coins : List Coin) : Except BankFault Bank := do
  b.sendEnabled coins
  match coins.find? fun coin => b.balance sender coin.denom < coin.amount with
  | some coin => throw (.insufficientFunds sender coin)
  | none => return coins.foldl (·.move sender receiver ·) b

def sendToModule (b : Bank) (sender : Address) (name : String) (coins : List Coin) :
    Except BankFault Bank :=
  match b.modules.get? name with
  | none => .error (.unknownModule name)
  | some receiver => b.send sender receiver coins

end Bank

end GasMarket
