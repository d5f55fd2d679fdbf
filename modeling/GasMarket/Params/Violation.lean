import GasMarket.Error
import GasMarket.Params

namespace GasMarket

namespace Params

def maxWindow : UInt64 := 65536

def maxRatio : Nat := 10

inductive Violation
  | emptyWindow
  | longWindow
  | negativeAlpha
  | betaOutsideUnit
  | thetaOutsideUnit
  | negativeDelta
  | zeroTarget
  | maxBelowTarget
  | maxAboveRatio
  | negativeMinBaseFee
  | negativeMinLearningRate
  | negativeMaxLearningRate
  | learningRatesReversed
  | emptyFeeDenom
  | malformedFeeDenom (denom : String)
  | maxAboveGasCap (max cap : UInt64)
  deriving DecidableEq

def Violation.reason : Violation → String
  | emptyWindow => "window must be positive"
  | longWindow => s!"window must not exceed {maxWindow} blocks"
  | negativeAlpha => "alpha must not be negative"
  | betaOutsideUnit => "beta must be within [0, 1]"
  | thetaOutsideUnit => "theta must be within [0, 1]"
  | negativeDelta => "delta must not be negative"
  | zeroTarget => "target block utilization must be positive"
  | maxBelowTarget => "max block utilization must not be below target block utilization"
  | maxAboveRatio => s!"max block utilization must not exceed {maxRatio} times the target"
  | negativeMinBaseFee => "min base fee must not be negative"
  | negativeMinLearningRate => "min learning rate must not be negative"
  | negativeMaxLearningRate => "max learning rate must not be negative"
  | learningRatesReversed => "min learning rate must not exceed max learning rate"
  | emptyFeeDenom => "fee denom must not be empty"
  | malformedFeeDenom denom => s!"invalid fee denom: {denom}"
  | maxAboveGasCap max cap => s!"max block utilization {max} exceeds max gas per block {cap}"

def InUnitInterval (d : Decimal) : Prop := ¬ d.IsNegative ∧ d ≤ .one

instance (d : Decimal) : Decidable (InUnitInterval d) := inferInstanceAs (Decidable (_ ∧ _))

def isDenomChar (c : Char) : Bool :=
  c.isAlphanum || c == '/' || c == ':' || c == '.' || c == '_' || c == '-'

def isDenom : List Char → Bool
  | [] => false
  | c :: rest => c.isAlpha && rest.all isDenomChar && 2 ≤ rest.length && rest.length ≤ 127

def violation? (p : Params) : Option Violation :=
  if p.window = 0 then some .emptyWindow
  else if maxWindow < p.window then some .longWindow
  else if p.alpha.IsNegative then some .negativeAlpha
  else if ¬ InUnitInterval p.beta then some .betaOutsideUnit
  else if ¬ InUnitInterval p.theta then some .thetaOutsideUnit
  else if p.delta.IsNegative then some .negativeDelta
  else if p.targetGas = 0 then some .zeroTarget
  else if p.maxGas < p.targetGas then some .maxBelowTarget
  else if maxRatio * p.targetGas.toNat < p.maxGas.toNat then some .maxAboveRatio
  else if p.minBaseFee.IsNegative then some .negativeMinBaseFee
  else if p.minLearningRate.IsNegative then some .negativeMinLearningRate
  else if p.maxLearningRate.IsNegative then some .negativeMaxLearningRate
  else if p.maxLearningRate < p.minLearningRate then some .learningRatesReversed
  else if p.feeDenom = "" then some .emptyFeeDenom
  else if ¬ isDenom p.feeDenom.toList then some (.malformedFeeDenom p.feeDenom)
  else none

def validate (p : Params) : Except Error Unit :=
  match p.violation? with
  | some v => .error (.invalidParams v.reason)
  | none => .ok ()

def validateUnder (p : Params) (gasCap : Option UInt64) : Except Error Unit := do
  p.validate
  match gasCap with
  | some cap =>
    if cap < p.maxGas then
      throw (.invalidParams (Violation.maxAboveGasCap p.maxGas cap).reason)
  | none => pure ()

end Params

end GasMarket
