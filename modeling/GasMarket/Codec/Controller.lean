import GasMarket.Codec.Money
import GasMarket.Controller.Update

namespace GasMarket

open Codec Json

def Calibration.name : Calibration → String
  | .eip1559 => "Eip1559"
  | .aimd => "Aimd"

def Calibration.ofName? : String → Option Calibration
  | "Eip1559" => some .eip1559
  | "Aimd" => some .aimd
  | _ => none

@[simp] theorem Calibration.ofName?_name (c : Calibration) : ofName? c.name = some c := by
  cases c <;> rfl

/-- A calibration is its name, or an object with null under its name. -/
instance : Codec Calibration where
  encode c := encode c.name
  decode
    | .string name | .object [(name, .null)] => (Escape.decode name).bind Calibration.ofName?
    | _ => none

instance : Codec Params where
  encode p := .object [
    ("window", encode p.window),
    ("alpha", encode p.alpha),
    ("beta", encode p.beta),
    ("theta", encode p.theta),
    ("delta", encode p.delta),
    ("target_block_utilization", encode p.targetGas),
    ("max_block_utilization", encode p.maxGas),
    ("min_base_fee", encode p.minBaseFee),
    ("min_learning_rate", encode p.minLearningRate),
    ("max_learning_rate", encode p.maxLearningRate),
    ("fee_denom", encode p.feeDenom),
    ("enabled", encode p.enabled),
    ("distribute_fees", encode p.distributeFees)]
  decode v := do
    let [window, alpha, beta, theta, delta, targetGas, maxGas, minBaseFee, minLearningRate,
        maxLearningRate, feeDenom, enabled, distributeFees] ← v.fields? [
      "window", "alpha", "beta", "theta", "delta", "target_block_utilization",
      "max_block_utilization", "min_base_fee", "min_learning_rate", "max_learning_rate",
      "fee_denom", "enabled", "distribute_fees"] | none
    return {
      window := ← required window
      alpha := ← required alpha
      beta := ← required beta
      theta := ← required theta
      delta := ← required delta
      targetGas := ← required targetGas
      maxGas := ← required maxGas
      minBaseFee := ← required minBaseFee
      minLearningRate := ← required minLearningRate
      maxLearningRate := ← required maxLearningRate
      feeDenom := ← required feeDenom
      enabled := ← required enabled
      distributeFees := ← required distributeFees }

instance : Codec Controller where
  encode s := .object [
    ("window", encode s.window),
    ("index", encode s.index),
    ("base_fee", encode s.baseFee),
    ("min_base_fee", encode s.minBaseFee),
    ("learning_rate", encode s.learningRate),
    ("target_block_utilization", encode s.targetGas),
    ("max_block_utilization", encode s.maxGas)]
  decode v := do
    let [window, index, baseFee, minBaseFee, learningRate, targetGas, maxGas] ← v.fields? [
      "window", "index", "base_fee", "min_base_fee", "learning_rate",
      "target_block_utilization", "max_block_utilization"] | none
    return {
      window := ← required window
      index := ← required index
      baseFee := ← required baseFee
      minBaseFee := ← required minBaseFee
      learningRate := ← required learningRate
      targetGas := ← required targetGas
      maxGas := ← required maxGas }

instance : Codec BlockUpdate where
  encode u := .object [
    ("block_gas", encode u.blockGas),
    ("base_fee", encode u.baseFee),
    ("learning_rate", encode u.learningRate)]
  decode v := do
    let [blockGas, baseFee, learningRate] ←
      v.fields? ["block_gas", "base_fee", "learning_rate"] | none
    return {
      blockGas := ← required blockGas
      baseFee := ← required baseFee
      learningRate := ← required learningRate }

end GasMarket
