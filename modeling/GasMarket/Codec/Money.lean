import GasMarket.Address
import GasMarket.Codec.Basic
import GasMarket.Coin
import GasMarket.Json.Spare

namespace GasMarket

open Codec Json

instance : Codec Decimal where
  encode d := encode d.toText
  decode v := (decode v).bind fun text => (Decimal.parse text).toOption

instance : Codec Amount where
  encode a := encode a.toHex
  decode
    | .string body => (Escape.decode body).bind Amount.parse?
    | v => (decode v).map fun n : UInt64 => BitVec.ofNat 256 n.toNat

def Address.decode : Json → Option Address
  | .string body => (Escape.decode body).bind Address.parse?
  | .array elements =>
    match elements.drop 20 with
    | [] => (elements.mapM natural?).bind Address.ofBytes?
    | [v] =>
      if (natural? v).any (· < 256) then none
      else ((elements.take 20).mapM natural?).bind Address.ofBytes?
    | _ => none
  | _ => none

instance : Codec Address where
  encode a := encode a.toHex
  decode := Address.decode
  ofText text := (parseSparing? List.isEmpty text).bind Address.decode

instance : Codec Coin where
  encode c := .object [("denom", encode c.denom), ("amount", encode c.amount)]
  decode v := do
    let [denom, amount] ← v.fields? ["denom", "amount"] | none
    return { denom := ← required denom, amount := ← required amount }

instance : Codec Price where
  encode p := .object [("denom", encode p.denom), ("amount", encode p.amount)]
  decode v := do
    let [denom, amount] ← v.fields? ["denom", "amount"] | none
    return { denom := ← required denom, amount := ← required amount }

end GasMarket
