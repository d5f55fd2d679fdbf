import GasMarket.Params

namespace GasMarket

structure Controller where
  /-- Gas of each block, a ring. -/
  window : List UInt64
  index : UInt64
  baseFee : Decimal
  /-- The floor of the base fee, fixed when the params were adopted. -/
  minBaseFee : Decimal
  learningRate : Decimal
  targetGas : UInt64
  maxGas : UInt64
  deriving DecidableEq

namespace Controller

def new (p : Params) : Controller where
  window := List.replicate p.window.toNat 0
  index := 0
  baseFee := p.minBaseFee
  minBaseFee := p.minBaseFee
  learningRate := p.minLearningRate
  targetGas := p.targetGas
  maxGas := p.maxGas

@[simp] theorem length_window_new (p : Params) : (new p).window.length = p.window.toNat := by
  simp [new]

def currentGas (s : Controller) : UInt64 := s.window[s.index.toNat]?.getD 0

def totalGas (s : Controller) : Nat :=
  s.window.foldl (fun total gas => total + gas.toNat) 0

def netUtilization (s : Controller) : Int :=
  s.totalGas - s.targetGas.toNat * s.window.length

def averageUtilization (s : Controller) : Except ArithmeticFault Decimal := do
  (← Decimal.ofInt s.totalGas).quo (← Decimal.ofInt (s.maxGas.toNat * s.window.length))

end Controller

end GasMarket
