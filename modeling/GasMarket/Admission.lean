import GasMarket.Coin.Arithmetic
import GasMarket.Controller.Basic
import GasMarket.Rates
import GasMarket.Tx

namespace GasMarket

namespace Controller

def baseGasPrice (p : Params) (s : Controller) : Price := ⟨p.feeDenom, s.baseFee⟩

def gasPrice (p : Params) (s : Controller) (rates : Rates) (denom : String) :
    Except Error Price :=
  if denom = p.feeDenom then .ok (s.baseGasPrice p)
  else (rates.convert (s.baseGasPrice p) denom).mapError NoConversion.error

def cost (price : Decimal) (gas : UInt64) : Except ArithmeticFault Amount := do
  (← price.mulUInt64 gas).toAmount .ceil

def requiredFee (p : Params) (s : Controller) (rates : Rates) (gas : UInt64) (denom : String) :
    Except Error Coin :=
  if p.enabled then do
    let price ← s.gasPrice p rates denom
    return ⟨denom, ← (cost price.amount gas).mapError .arithmetic⟩
  else .ok (.zero denom)

end Controller

structure Admission where
  required : Coin
  tip : Coin
  deriving DecidableEq

def Tx.offeredFee (tx : Tx) (feeDenom : String) : Except Error Coin :=
  match tx.fee with
  | [] => .ok (.zero feeDenom)
  | [fee] => .ok fee
  | fees => .error (.tooManyFeeCoins fees.length)

def Controller.checkFee (p : Params) (s : Controller) (rates : Rates) (tx : Tx)
    (context : Context) : Except Error Admission :=
  if tx.gasLimit = 0 ∧ context.RequiresGasLimit then .error .invalidGasLimit
  else do
    let fee ← tx.offeredFee p.feeDenom
    let required ← s.requiredFee p rates tx.gasLimit fee.denom
    match fee.sub required with
    | .ok tip => return ⟨required, tip⟩
    | .error _ => throw (.insufficientFee required fee)

def maxPriority : Nat := 0x7fffffffffffffff

def Coin.priority (fee : Coin) (gasLimit : UInt64) : Nat :=
  if gasLimit = 0 then 0 else min (fee.amount.toNat / gasLimit.toNat) maxPriority

/-- Ordering score of a transaction.  Anything but a single fee coin counts as a zero fee. -/
def Tx.priority (tx : Tx) (feeDenom : String) : Nat :=
  match tx.fee with
  | [fee] => fee.priority tx.gasLimit
  | _ => (Coin.zero feeDenom).priority tx.gasLimit

end GasMarket
