import GasMarket.Controller.Basic
import GasMarket.Error

namespace GasMarket

structure BlockUpdate where
  blockGas : UInt64
  baseFee : Decimal
  learningRate : Decimal
  deriving DecidableEq

namespace Controller

def recordGas (s : Controller) (gas : UInt64) : Except Error Controller :=
  match s.window[s.index.toNat]? with
  | none => .error (.invalidState s!"index {s.index} is outside the window")
  | some used =>
    if used.toNat + gas.toNat ≤ s.maxGas.toNat then
      .ok { s with window := s.window.set s.index.toNat (used + gas) }
    else .error (.blockGasOverflow used gas s.maxGas)

def advance (s : Controller) : Except Error Controller :=
  if s.window = [] then .error (.invalidState "window is empty")
  else
    let index := (s.index.toNat + 1) % s.window.length
    .ok { s with index := UInt64.ofNat index, window := s.window.set index 0 }

/-- The rate grows by `alpha` while the window is near empty or near full, and decays by `beta`
otherwise, within its bounds. -/
def nextLearningRate (p : Params) (s : Controller) : Except ArithmeticFault Decimal := do
  let utilization ← s.averageUtilization
  let upperBand ← Decimal.one.sub p.theta
  if utilization ≤ p.theta ∨ upperBand ≤ utilization then
    return min (← s.learningRate.add p.alpha) p.maxLearningRate
  else
    return max (← s.learningRate.mul p.beta) p.minLearningRate

/-- The fee moves by the learning rate times the relative deviation of the current block from its
target, and by the weighted net utilization of the window, but not below its floor. -/
def nextBaseFee (p : Params) (s : Controller) : Except ArithmeticFault Decimal := do
  if s.targetGas = 0 then throw .divisionByZero
  let deviation ← Decimal.ofInt (s.currentGas.toNat - s.targetGas.toNat)
  let ratio ← deviation.quo (.ofUInt64 s.targetGas)
  let adjustment ← Decimal.one.add (← s.learningRate.mul ratio)
  let net ← (← Decimal.ofInt s.netUtilization).mul p.delta
  let fee ← (← s.baseFee.mul adjustment).add net
  return max fee s.minBaseFee

def updateLearningRate (p : Params) (s : Controller) : Except Error Controller :=
  match s.nextLearningRate p with
  | .ok rate => .ok { s with learningRate := rate }
  | .error fault => .error (.arithmetic fault)

def updateBaseFee (p : Params) (s : Controller) : Except Error Controller :=
  match s.nextBaseFee p with
  | .ok fee => .ok { s with baseFee := fee }
  | .error fault => .error (.arithmetic fault)

def nextBlock (p : Params) (s : Controller) : Except Error (Controller × BlockUpdate) := do
  let rated ← s.updateLearningRate p
  let priced ← rated.updateBaseFee p
  let next ← priced.advance
  return (next, ⟨s.currentGas, priced.baseFee, rated.learningRate⟩)

end Controller

end GasMarket
