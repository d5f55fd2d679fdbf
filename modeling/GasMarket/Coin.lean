import GasMarket.Decimal.Text

namespace GasMarket

structure Coin where
  denom : String
  amount : Amount
  deriving DecidableEq

namespace Coin

def zero (denom : String) : Coin := ⟨denom, 0⟩

def IsZero (c : Coin) : Prop := c.amount = 0

instance (c : Coin) : Decidable c.IsZero := inferInstanceAs (Decidable (c.amount = 0))

def toText (c : Coin) : String := c.amount.toText ++ c.denom

@[simp] theorem isZero_zero (denom : String) : (zero denom).IsZero := rfl

end Coin

structure Price where
  denom : String
  amount : Decimal
  deriving DecidableEq

def Price.toText (p : Price) : String := p.amount.toText ++ p.denom

end GasMarket
