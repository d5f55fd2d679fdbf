import GasMarket.Codec.Money
import GasMarket.Tx

namespace GasMarket

open Codec Json

def Tx.decode (v : Json) : Option Tx := do
  let [payer, feeGranter, fee, gasLimit, msgs] ←
    v.fields? ["payer", "fee_granter", "fee", "gas_limit", "msgs"] | none
  return {
    payer := ← required payer
    feeGranter := ← nullable feeGranter
    fee := ← required fee
    gasLimit := ← required gasLimit
    msgs := ← required msgs }

instance : Codec Tx where
  encode tx := .object [
    ("payer", encode tx.payer),
    ("fee_granter", encode tx.feeGranter),
    ("fee", encode tx.fee),
    ("gas_limit", encode tx.gasLimit),
    ("msgs", encode tx.msgs)]
  decode := Tx.decode
  ofText text :=
    (parseSparing? (Spare.isField ["payer", "fee_granter"]) text).bind Tx.decode

end GasMarket
