import GasMarket.Coin.Arithmetic
import GasMarket.Table

namespace GasMarket

structure GrantRefusal where
  reason : String
  deriving DecidableEq

def GrantRefusal.notFound : GrantRefusal := ⟨"fee allowance not found"⟩

def GrantRefusal.exceeded : GrantRefusal := ⟨"basic allowance limit exceeded"⟩

abbrev Allowances := Table (Address × Address) Coin

/-- Spends the coins one by one; nothing is spent unless all are covered. -/
def Allowances.spend (a : Allowances) (granter grantee : Address) (coins : List Coin) :
    Except GrantRefusal Allowances :=
  match a.get? (granter, grantee) with
  | none => .error .notFound
  | some allowance =>
    match coins.foldlM Coin.sub allowance with
    | .ok rest => .ok (a.insert (granter, grantee) rest)
    | .error _ => .error .exceeded

end GasMarket
