import GasMarket.Codec.Money
import GasMarket.Event

/-! JSON form of events: an object with the name of the event under a tag, or the array of the
name and the fields.  As the tag may stand anywhere, an event is read as a whole, so all of it must
denote something and must not be nested too deep. -/

namespace GasMarket

open Codec Json

namespace Event

def encode : Event → Json
  | .txFee payer required tip => .object [
    ("type", Codec.encode "tx_fee"),
    ("payer", Codec.encode payer),
    ("required", Codec.encode required),
    ("tip", Codec.encode tip)]
  | .txRefund payee refund => .object [
    ("type", Codec.encode "tx_refund"),
    ("payee", Codec.encode payee),
    ("refund", Codec.encode refund)]
  | .feeMarketUpdate baseFee learningRate height => .object [
    ("type", Codec.encode "fee_market_update"),
    ("base_fee", Codec.encode baseFee),
    ("learning_rate", Codec.encode learningRate),
    ("height", Codec.encode height)]

def ofFields? (fields : Json) : String → Option Event
  | "tx_fee" => do
    let [payer, charged, tip] ← fields.fields? ["payer", "required", "tip"] | none
    return .txFee (← required payer) (← required charged) (← required tip)
  | "tx_refund" => do
    let [payee, refund] ← fields.fields? ["payee", "refund"] | none
    return .txRefund (← required payee) (← required refund)
  | "fee_market_update" => do
    let [baseFee, learningRate, height] ←
      fields.fields? ["base_fee", "learning_rate", "height"] | none
    return .feeMarketUpdate (← required baseFee) (← required learningRate) (← required height)
  | _ => none

def decode : Json → Option Event
  | .object members => do
    let [tag] ← (Json.object members).fields? ["type"] | none
    ofFields? (.object members) (← required tag)
  | .array (tag :: fields) => (Codec.decode tag).bind (ofFields? (.array fields))
  | _ => none

def isMeaningful : Token → Bool
  | .string body => (Escape.decode body).isSome
  | .number literal => Number.isFinite literal.toList
  | _ => true

/-- Levels of arrays and objects that an event may have, its own included. -/
def maxDepth : Nat := 127

def isShallow (depth : Nat) : List Token → Bool
  | [] => true
  | token :: rest =>
    if token.opens then depth < maxDepth && isShallow (depth + 1) rest
    else isShallow (if token.closes then depth - 1 else depth) rest

def ofText (text : String) : Option Event := do
  let tokens ← Token.ofChars? text.toList
  if tokens.all isMeaningful && isShallow 0 tokens then decode (← ofTokens? tokens) else none

end Event

instance : Codec Event := ⟨Event.encode, Event.decode, Event.ofText⟩

end GasMarket
