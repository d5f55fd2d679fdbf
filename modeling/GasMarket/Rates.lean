import GasMarket.Error
import GasMarket.Table

namespace GasMarket

structure NoConversion where
  denom : String
  deriving DecidableEq

def NoConversion.message (n : NoConversion) : String := s!"No conversion into {n.denom}"

def NoConversion.error (n : NoConversion) : Error := .unknownDenom n.denom

abbrev Rates := Table (String × String) Decimal

def Rates.convert (rates : Rates) (price : Price) (denom : String) : Except NoConversion Price :=
  if price.denom = denom then .ok price
  else match rates.get? (price.denom, denom) with
    | none => .error ⟨denom⟩
    | some rate =>
      match price.amount.mul rate with
      | .ok amount => .ok ⟨denom, amount⟩
      | .error _ => .error ⟨denom⟩

end GasMarket
