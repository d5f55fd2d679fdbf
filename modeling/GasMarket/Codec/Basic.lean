import GasMarket.Json.Escape
import GasMarket.Json.Printer
import GasMarket.Json.Reader

/-! Types with a JSON form.  A record is an object with its fields under their names, in any
order and among members of other names, whose values are not looked into; or it is the array of
its fields.  A field that is missing or repeated is refused. -/

namespace GasMarket

/-- Most types ask nothing of a text but that it is the text of a value. -/
class Codec (α : Type) where
  encode : α → Json
  decode : Json → Option α
  ofText : String → Option α := fun text => (Json.parse? text).bind decode

namespace Codec

variable {α : Type} [Codec α]

def toText (a : α) : String := (encode a).compact

instance : Codec Bool where
  encode := .bool
  decode
    | .bool b => some b
    | _ => none

instance : Codec String where
  encode s := .string (Json.Escape.encode s)
  decode
    | .string body => Json.Escape.decode body
    | _ => none

def natural (n : Nat) : Json := .number (String.ofList (Text.Digits.decimal n))

def natural? : Json → Option Nat
  | .number literal => Json.Number.nat? literal.toList
  | _ => none

instance : Codec UInt64 where
  encode n := natural n.toNat
  decode v := (natural? v).bind fun n => if n < UInt64.size then some (UInt64.ofNat n) else none

def decodeAll (before : List α) : List Json → Option (List α)
  | [] => some before.reverse
  | v :: rest =>
    match decode v with
    | some a => decodeAll (a :: before) rest
    | none => none

instance : Codec (List α) where
  encode as := .array (as.map encode)
  decode
    | .array elements => decodeAll [] elements
    | _ => none

instance : Codec (Option α) where
  encode
    | none => .null
    | some a => encode a
  decode
    | .null => some none
    | v => (decode v).map some

end Codec

namespace Json

def named? (before : List (String × Json)) : List (String × Json) → Option (List (String × Json))
  | [] => some before.reverse
  | (body, v) :: rest =>
    match Escape.decode body with
    | some name => named? ((name, v) :: before) rest
    | none => none

def atMostOne (members : List (String × Json)) (name : String) : Option (Option Json) :=
  match members.filter (·.1 = name) with
  | [] => some none
  | [member] => some (some member.2)
  | _ => none

def fields? (names : List String) : Json → Option (List (Option Json))
  | .object members => (named? [] members).bind fun members => names.mapM (atMostOne members)
  | .array elements =>
    if elements.length = names.length then some (elements.map some) else none
  | _ => none

def required {α : Type} [Codec α] (field : Option Json) : Option α := field.bind Codec.decode

def nullable {α : Type} [Codec α] (field : Option Json) : Option (Option α) :=
  Codec.decode (field.getD .null)

end Json

end GasMarket
