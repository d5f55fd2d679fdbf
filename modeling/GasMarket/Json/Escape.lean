import GasMarket.Text.Digits

namespace GasMarket.Json.Escape

def escapeChar (c : Char) : List Char :=
  match c with
  | '"' => ['\\', '"']
  | '\\' => ['\\', '\\']
  | '\x08' => ['\\', 'b']
  | '\x0c' => ['\\', 'f']
  | '\n' => ['\\', 'n']
  | '\r' => ['\\', 'r']
  | '\t' => ['\\', 't']
  | c =>
    if c.toNat < 0x20 then '\\' :: 'u' :: Text.Digits.padded 4 (Text.Digits.hex c.toNat) else [c]

def encodeChars (text : List Char) : List Char := text.flatMap escapeChar

inductive Piece
  | char (c : Char)
  | unit (code : Nat)
  deriving DecidableEq

def simpleEscape? : Char → Option Char
  | '"' => some '"'
  | '\\' => some '\\'
  | '/' => some '/'
  | 'b' => some '\x08'
  | 'f' => some '\x0c'
  | 'n' => some '\n'
  | 'r' => some '\r'
  | 't' => some '\t'
  | _ => none

def pieces? (before : List Piece) : List Char → Option (List Piece)
  | [] => some before.reverse
  | '\\' :: 'u' :: a :: b :: c :: d :: rest =>
    match Text.Digits.read? 16 [a, b, c, d] with
    | some code => pieces? (.unit code :: before) rest
    | none => none
  | '\\' :: c :: rest =>
    match simpleEscape? c with
    | some c => pieces? (.char c :: before) rest
    | none => none
  | ['\\'] => none
  | c :: rest => pieces? (.char c :: before) rest

def IsHigh (code : Nat) : Prop := 0xD800 ≤ code ∧ code < 0xDC00

def IsLow (code : Nat) : Prop := 0xDC00 ≤ code ∧ code < 0xE000

instance (code : Nat) : Decidable (IsHigh code) := inferInstanceAs (Decidable (_ ∧ _))

instance (code : Nat) : Decidable (IsLow code) := inferInstanceAs (Decidable (_ ∧ _))

def pairChar (high low : Nat) : Char :=
  Char.ofNat (0x10000 + (high - 0xD800) * 0x400 + (low - 0xDC00))

def chars? (before : List Char) : List Piece → Option (List Char)
  | [] => some before.reverse
  | .char c :: rest => chars? (c :: before) rest
  | .unit code :: rest =>
    if IsHigh code then
      match rest with
      | .unit low :: rest => if IsLow low then chars? (pairChar code low :: before) rest else none
      | _ => none
    else if IsLow code then none
    else chars? (Char.ofNat code :: before) rest

def decodeChars (body : List Char) : Option (List Char) := (pieces? [] body).bind (chars? [])

def encode (text : String) : String := String.ofList (encodeChars text.toList)

def decode (body : String) : Option String := (decodeChars body.toList).map String.ofList

end GasMarket.Json.Escape
