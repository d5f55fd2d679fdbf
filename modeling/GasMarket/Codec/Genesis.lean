import GasMarket.Codec.Controller
import GasMarket.Genesis

namespace GasMarket

open Codec Json

def Config.decode (v : Json) : Option Config := do
  let [authority, feeCollector, distribution, calibration, targetGas] ← v.fields? [
    "authority", "fee_collector", "distribution", "calibration",
    "target_block_utilization"] | none
  return {
    authority := ← required authority
    feeCollector := ← required feeCollector
    distribution := ← required distribution
    calibration := ← required calibration
    targetGas := ← required targetGas }

instance : Codec Config where
  encode c := .object [
    ("authority", encode c.authority),
    ("fee_collector", encode c.feeCollector),
    ("distribution", encode c.distribution),
    ("calibration", encode c.calibration),
    ("target_block_utilization", encode c.targetGas)]
  decode := Config.decode
  ofText text := (parseSparing? (Spare.isField ["authority"]) text).bind Config.decode

instance : Codec Genesis where
  encode g := .object [("params", encode g.params), ("state", encode g.state)]
  decode v := do
    let [params, state] ← v.fields? ["params", "state"] | none
    return { params := ← required params, state := ← required state }

inductive GenesisFault
  | malformed
  | invalid (cause : Error)
  deriving DecidableEq

def Genesis.toText (g : Genesis) : String := (encode g).pretty

def Genesis.parse (text : String) : Except GenesisFault Genesis :=
  match ofText (α := Genesis) text with
  | none => .error .malformed
  | some g =>
    match g.validate with
    | .ok () => .ok g
    | .error e => .error (.invalid e)

end GasMarket
