import GasMarket.Json.Escape
import GasMarket.Json.Number
import GasMarket.Json.Reader

/-! Addresses written as the array of their twenty bytes, with something behind the bytes that is
not a byte.  Where one more byte is hoped for, reading gives up at the character that shows that
there is none.  It does no harm if the array is closed right there: what was read in vain is passed
over, well-formed or not.  Everywhere else a text is read as usual. -/

namespace GasMarket.Json

namespace Spare

/-- Gives up behind a character.  Of a character of several octets only the first is passed over,
and nothing can follow the others. -/
def behind (c : Char) (rest : List Char) : Option (List Char) :=
  if c.toNat < 0x80 then some rest else none

def afterWord : List Char → List Char → Option (List Char)
  | [], rest => some rest
  | _ :: _, [] => none
  | expected :: letters, c :: rest => if c = expected then afterWord letters rest else behind c rest

/-- What is being read of a string.  A code unit has four octets of digits, and the one that
completes a pair is announced like the first. -/
inductive Part
  | text
  | escape
  | unit (missing : Nat) (code : Option Nat) (paired : Bool)
  | pairEscape
  | pairUnit

def Part.ofUnit? (code : Option Nat) (paired : Bool) : Option Part :=
  match code, paired with
  | none, _ => none
  | some code, true => if Escape.IsLow code then some .text else none
  | some code, false =>
    if Escape.IsHigh code then some .pairEscape
    else if Escape.IsLow code then none
    else some .text

def afterString : Part → List Char → Option (List Char)
  | _, [] => none
  | .text, c :: rest =>
    if c = '"' ∨ c.toNat < 0x20 then some rest
    else afterString (if c = '\\' then .escape else .text) rest
  | .escape, c :: rest =>
    if c = 'u' then afterString (.unit 4 (some 0) false) rest
    else if Token.isEscape c then afterString .text rest
    else behind c rest
  | .pairEscape, c :: rest => if c = '\\' then afterString .pairUnit rest else behind c rest
  | .pairUnit, c :: rest =>
    if c = 'u' then afterString (.unit 4 (some 0) true) rest else behind c rest
  | .unit missing code paired, c :: rest =>
    let code := code.bind fun n => (Text.Digits.read? 16 [c]).map (16 * n + ·)
    if c.utf8Size < missing then afterString (.unit (missing - c.utf8Size) code paired) rest
    else if c.utf8Size = missing then
      match Part.ofUnit? code paired with
      | some part => afterString part rest
      | none => some rest
    else none

/-- Reads the digits of an exponent, as far as it stays below `2 ^ 31` or does not matter. -/
def afterPower (bounded : Bool) (power : Nat) : List Char → List Char
  | [] => []
  | c :: rest =>
    if c.isDigit then
      let power := 10 * power + (c.toNat - '0'.toNat)
      if bounded && 2147483647 < power then rest else afterPower bounded power rest
    else c :: rest

def afterExponent (isZero : Bool) (text : List Char) : Option (List Char) :=
  let (isNegative, text) := match text with
    | '+' :: text => (false, text)
    | '-' :: text => (true, text)
    | text => (false, text)
  match text with
  | [] => none
  | c :: rest =>
    if c.isDigit then some (afterPower (!isZero && !isNegative) 0 (c :: rest)) else behind c rest

def afterWhole (isNegative : Bool) (whole text : List Char) : Option (List Char) :=
  let isZero (digits : List Char) := digits.all (· == '0')
  match text with
  | '.' :: text =>
    let (fraction, rest) := text.span Char.isDigit
    match rest with
    | 'e' :: power | 'E' :: power =>
      if fraction.isEmpty then some rest else afterExponent (isZero (whole ++ fraction)) power
    | _ => some rest
  | 'e' :: power | 'E' :: power => afterExponent (isZero whole) power
  | text => if !isNegative && Nat.ofDigitChars 10 whole 0 < 256 then none else some text

def afterNumber (isNegative : Bool) : List Char → Option (List Char)
  | [] => none
  | '0' :: rest => afterWhole isNegative ['0'] rest
  | c :: rest =>
    if c.isDigit then
      let (whole, rest) := (c :: rest).span Char.isDigit
      afterWhole isNegative whole rest
    else behind c rest

/-- The text that is left where reading gives up; nothing if there is a byte. -/
def after : List Char → Option (List Char)
  | '"' :: rest => afterString .text rest
  | 'n' :: rest => afterWord ['u', 'l', 'l'] rest
  | 't' :: rest => afterWord ['r', 'u', 'e'] rest
  | 'f' :: rest => afterWord ['a', 'l', 's', 'e'] rest
  | '-' :: rest => afterNumber true rest
  | [] => some []
  | c :: rest => if c.isDigit then afterNumber false (c :: rest) else some (c :: rest)

/-- The level that tokens, in reverse, lead to, and the commas at the first level. -/
def position (before : List Token) : Nat × Nat :=
  before.foldr (fun token (level, commas) =>
    if token.opens then (level + 1, commas)
    else if token.closes then (level - 1, commas)
    else if token = .comma ∧ level = 1 then (level, commas + 1)
    else (level, commas)) (0, 0)

def isField (leading : List String) (before : List Token) : Bool :=
  let (level, commas) := position before
  level = 1 &&
    match before with
    | .colon :: .string body :: _ => (Escape.decode body).any leading.contains
    | _ => before.getLast? = some .openArray && commas < leading.length

def beforeBytes? : Nat → List Token → Option (List Token)
  | 0, .openArray :: before => some before
  | count + 1, .comma :: .number literal :: before =>
    if (Number.nat? literal.toList).any (· < 256) then beforeBytes? count before else none
  | _, _ => none

def isDue (isAddress : List Token → Bool) (m : Token.Machine) (c : Char) : Bool :=
  match m.mode with
  | .between => !Token.isBlank c && (beforeBytes? 20 m.tokens).any isAddress
  | _ => false

def length? (text : List Char) : Option Nat :=
  match after text with
  | some rest =>
    if (rest.dropWhile Token.isBlank).head? = some ']' then some (text.length - rest.length)
    else none
  | none => none

/-- Reads tokens and passes over what follows the bytes of an address, together with the comma
before it.  The characters that are still to be passed over are counted. -/
def run (isAddress : List Token → Bool) : Token.Machine → Nat → List Char → Option Token.Machine
  | m, _, [] => some m
  | m, passing + 1, _ :: rest => run isAddress m passing rest
  | m, 0, c :: rest =>
    if isDue isAddress m c then
      let m := { m with tokens := m.tokens.tail }
      match length? (c :: rest) with
      | some 0 => (Token.step m c).bind (run isAddress · 0 rest)
      | some (passing + 1) => run isAddress m passing rest
      | none => none
    else (Token.step m c).bind (run isAddress · 0 rest)

end Spare

def parseSparing? (isAddress : List Token → Bool) (text : String) : Option Json :=
  ((Spare.run isAddress ⟨[], .between⟩ 0 text.toList).bind Token.Machine.finish).bind ofTokens?

end GasMarket.Json
