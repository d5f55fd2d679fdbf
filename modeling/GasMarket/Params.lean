import GasMarket.Decimal.Basic

namespace GasMarket

structure Params where
  window : UInt64
  /-- Added to a growing learning rate. -/
  alpha : Decimal
  /-- Multiplies a decaying learning rate. -/
  beta : Decimal
  /-- Half-width of the bands around full and empty blocks in which the learning rate grows. -/
  theta : Decimal
  /-- Weight of the net utilization of the window in the base fee. -/
  delta : Decimal
  targetGas : UInt64
  maxGas : UInt64
  minBaseFee : Decimal
  minLearningRate : Decimal
  maxLearningRate : Decimal
  feeDenom : String
  enabled : Bool
  /-- Whether tips of successful transactions leave the fee collector. -/
  distributeFees : Bool
  deriving DecidableEq

/-- What a set of params amounts to: a learning rate that never moves, or one that adapts to the
window by additive increase and multiplicative decrease. -/
inductive Calibration
  | eip1559 | aimd
  deriving DecidableEq

namespace Params

def defaultTarget : UInt64 := 15000000

def eip1559 : Params where
  window := 1
  alpha := .zero
  beta := .one
  theta := .zero
  delta := .zero
  targetGas := defaultTarget
  maxGas := 2 * defaultTarget
  minBaseFee := .ofUInt64 1000000000
  minLearningRate := .ofAtoms 125000000000000000
  maxLearningRate := .ofAtoms 125000000000000000
  feeDenom := "stake"
  enabled := true
  distributeFees := false

def aimd : Params :=
  { eip1559 with
    window := 8
    alpha := .ofAtoms 25000000000000000
    beta := .ofAtoms 950000000000000000
    theta := .ofAtoms 250000000000000000
    delta := .ofAtoms 500000000000000000
    minLearningRate := .ofAtoms 10000000000000000
    maxLearningRate := .ofAtoms 500000000000000000 }

def ofCalibration : Calibration → Params
  | .eip1559 => eip1559
  | .aimd => aimd

def withTarget (p : Params) (target : UInt64) : Params :=
  { p with targetGas := target, maxGas := saturate (2 * target.toNat) }

def withFeeDenom (p : Params) (denom : String) : Params := { p with feeDenom := denom }

def calibration (p : Params) : Calibration :=
  if (p.alpha = .zero ∧ p.beta = .one) ∨ p.minLearningRate = p.maxLearningRate then .eip1559
  else .aimd

end Params

end GasMarket
