import GasMarket.Json.Basic

namespace GasMarket.Json.Number

def isExponent : List Char → Bool
  | [] => true
  | 'e' :: rest | 'E' :: rest =>
    let digits := match rest with
      | '+' :: digits | '-' :: digits => digits
      | digits => digits
    !digits.isEmpty && digits.all Char.isDigit
  | _ => false

def isTail : List Char → Bool
  | '.' :: rest =>
    !(rest.takeWhile Char.isDigit).isEmpty && isExponent (rest.dropWhile Char.isDigit)
  | rest => isExponent rest

def isWhole : List Char → Bool
  | [] => false
  | '0' :: rest => rest.isEmpty
  | _ => true

def isUnsigned (literal : List Char) : Bool :=
  isWhole (literal.takeWhile Char.isDigit) && isTail (literal.dropWhile Char.isDigit)

def isLiteral : List Char → Bool
  | '-' :: rest => isUnsigned rest
  | literal => isUnsigned literal

def nat? (literal : List Char) : Option Nat :=
  if literal ≠ [] ∧ literal.all Char.isDigit then some (Nat.ofDigitChars 10 literal 0) else none

def exponent (literal : List Char) : Int :=
  match literal.dropWhile fun c => c ≠ 'e' ∧ c ≠ 'E' with
  | _ :: '-' :: digits => -(Nat.ofDigitChars 10 digits 0)
  | _ :: '+' :: digits | _ :: digits => Nat.ofDigitChars 10 digits 0
  | [] => 0

/-- Appends digits to a number while it fits 64 bits; the digits that do not fit are left. -/
def extend (n : Nat) : List Char → Nat × List Char
  | [] => (n, [])
  | c :: rest =>
    let next := 10 * n + (c.toNat - '0'.toNat)
    if next < UInt64.size then extend next rest else (n, c :: rest)

structure Magnitude where
  digits : Nat
  power : Int
  deriving DecidableEq

def magnitude (literal : List Char) : Magnitude :=
  let mantissa := (literal.dropWhile (· == '-')).takeWhile fun c => c ≠ 'e' ∧ c ≠ 'E'
  let fraction := (mantissa.dropWhile (· ≠ '.')).drop 1
  let (whole, scaled) := extend 0 (mantissa.takeWhile (· ≠ '.'))
  let (digits, lost) := extend whole fraction
  ⟨digits, exponent literal + scaled.length - (fraction.length - lost.length : Nat)⟩

/-- The nearest number with a significand of 53 bits; of two equally near, the even one. -/
def nearestDouble (n : Nat) : Nat :=
  let unit := Nat.pow 2 (n.log2 - 52)
  let below := n / unit
  let twice := 2 * (n % unit)
  if unit < twice ∨ (twice = unit ∧ below % 2 = 1) then (below + 1) * unit else below * unit

/-- Whether the product of the digits and the power of ten, both in binary64, is finite.  Half of
the last place beyond the largest number is already too much. -/
def Magnitude.isFinite (m : Magnitude) : Bool :=
  if m.digits = 0 ∨ m.power < 0 then true
  else
    m.power ≤ 308 &&
      nearestDouble m.digits * nearestDouble (Nat.pow 10 m.power.toNat) <
        Nat.pow 2 1024 - Nat.pow 2 970

def isFinite (literal : List Char) : Bool := (magnitude literal).isFinite

end GasMarket.Json.Number
