import GasMarket.Error

namespace GasMarket.Coin

def sameDenom (a b : Coin) : Except Error Unit :=
  if a.denom = b.denom then .ok ()
  else .error (.invalidState s!"Cannot combine {a.denom} with {b.denom}")

def add (a b : Coin) : Except Error Coin := do
  a.sameDenom b
  match Amount.ofNat? (a.amount.toNat + b.amount.toNat) with
  | some sum => .ok ⟨a.denom, sum⟩
  | none => .error (.arithmetic .overflow)

def sub (a b : Coin) : Except Error Coin := do
  a.sameDenom b
  if b.amount ≤ a.amount then .ok ⟨a.denom, a.amount - b.amount⟩
  else .error (.arithmetic .overflow)

end GasMarket.Coin
