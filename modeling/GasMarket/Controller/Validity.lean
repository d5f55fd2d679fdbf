import GasMarket.Controller.Basic
import GasMarket.Error

namespace GasMarket.Controller

inductive Defect
  | windowLength (slots : Nat) (expected : UInt64)
  | slotAboveMax (gas max : UInt64)
  | baseFeeBelowFloor (fee floor : Decimal)
  | learningRateOutside (rate lower upper : Decimal)
  | zeroTarget
  | targetAboveMax
  | indexOutside (index : UInt64) (slots : Nat)
  deriving DecidableEq

def Defect.reason : Defect → String
  | windowLength slots expected => s!"window has {slots} slots, expected {expected}"
  | slotAboveMax gas max => s!"window slot holds {gas} gas above max block utilization {max}"
  | baseFeeBelowFloor fee floor =>
    s!"base fee {fee.toText} is below min base fee {floor.toText}"
  | learningRateOutside rate lower upper =>
    s!"learning rate {rate.toText} is outside [{lower.toText}, {upper.toText}]"
  | zeroTarget => "target block utilization must be positive"
  | targetAboveMax => "target block utilization must not exceed max block utilization"
  | indexOutside index slots => s!"index {index} is outside a window of {slots} slots"

def slotDefect? (s : Controller) : Option Defect :=
  (s.window.find? (s.maxGas < ·)).map fun gas => .slotAboveMax gas s.maxGas

def pricingDefect? (p : Params) (s : Controller) : Option Defect :=
  if s.baseFee < s.minBaseFee then some (.baseFeeBelowFloor s.baseFee s.minBaseFee)
  else if s.learningRate < p.minLearningRate ∨ p.maxLearningRate < s.learningRate then
    some (.learningRateOutside s.learningRate p.minLearningRate p.maxLearningRate)
  else if s.targetGas = 0 then some .zeroTarget
  else if s.maxGas < s.targetGas then some .targetAboveMax
  else if s.window.length ≤ s.index.toNat then some (.indexOutside s.index s.window.length)
  else none

def defect? (p : Params) (s : Controller) : Option Defect :=
  if s.window.length ≠ p.window.toNat then some (.windowLength s.window.length p.window)
  else s.slotDefect? <|> s.pricingDefect? p

def validate (p : Params) (s : Controller) : Except Error Unit :=
  match s.defect? p with
  | some d => .error (.invalidState d.reason)
  | none => .ok ()

end GasMarket.Controller
