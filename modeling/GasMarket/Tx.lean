import GasMarket.Address
import GasMarket.Coin

namespace GasMarket

structure Tx where
  payer : Address
  feeGranter : Option Address
  fee : List Coin
  gasLimit : UInt64
  msgs : List String
  deriving DecidableEq

namespace Tx

def new (payer : Address) (fee : Coin) (gasLimit : UInt64) : Tx :=
  ⟨payer, none, [fee], gasLimit, []⟩

def withFeeGranter (tx : Tx) (granter : Address) : Tx := { tx with feeGranter := some granter }

def withMsgs (tx : Tx) (msgs : List String) : Tx := { tx with msgs }

def feePayer (tx : Tx) : Address := tx.feeGranter.getD tx.payer

end Tx

structure Context where
  height : UInt64
  simulate : Bool
  deriving DecidableEq

def Context.RequiresGasLimit (c : Context) : Prop := ¬ c.simulate ∧ 0 < c.height

instance (c : Context) : Decidable c.RequiresGasLimit := inferInstanceAs (Decidable (_ ∧ _))

end GasMarket
