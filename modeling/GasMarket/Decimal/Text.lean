import GasMarket.Decimal.Basic

/-! The text of a decimal: an optional sign, the integer part, a point and eighteen fraction
digits.  Reading takes up to eighteen fraction digits, or none and no point. -/

namespace GasMarket

inductive MalformedDecimal
  | empty | nonDigit | tooPrecise | outOfRange
  deriving DecidableEq

def MalformedDecimal.message : MalformedDecimal → String
  | .empty => "Decimal string is empty"
  | .nonDigit => "Decimal string contains a non-digit character"
  | .tooPrecise => "Decimal string has more than 18 fractional digits"
  | .outOfRange => "Decimal string is out of range"

namespace Decimal

def magnitudeChars (n : Nat) : List Char :=
  Text.Digits.decimal (n / scale) ++
    '.' :: Text.Digits.padded precision (Text.Digits.decimal (n % scale))

def toChars (d : Decimal) : List Char :=
  if d.IsNegative then '-' :: magnitudeChars d.units.natAbs else magnitudeChars d.units.natAbs

def toText (d : Decimal) : String := String.ofList d.toChars

def fraction? (digits : List Char) : Option UInt64 :=
  if digits = [] then some 0
  else (Text.Digits.read? 10 (digits.rightpad precision '0')).bind fun n =>
    if n < UInt64.size then some (UInt64.ofNat n) else none

/-- The units of a whole number and a fraction, which have to fit an amount before they are held
against the range. -/
def units? (whole : Amount) (fraction : UInt64) : Option Nat := do
  let scaled ← Amount.ofNat? (whole.toNat * scale)
  let units ← Amount.ofNat? (scaled.toNat + fraction.toNat)
  if units.toNat < bound then some units.toNat else none

def required {α : Type} (complaint : MalformedDecimal) : Option α → Except MalformedDecimal α
  | some a => .ok a
  | none => .error complaint

def parts (unsigned : List Char) : List Char × List Char :=
  (unsigned.takeWhile (· ≠ '.'), (unsigned.dropWhile (· ≠ '.')).drop 1)

/-- Reads a text without its sign.  The first complaint that applies is reported, in the order
of the constructors of `MalformedDecimal`. -/
def magnitude? (unsigned : List Char) : Except MalformedDecimal Nat :=
  let (whole, fraction) := parts unsigned
  if whole = [] then .error .empty
  else if ¬ (whole ++ fraction).all Char.isDigit then .error .nonDigit
  else if precision < fraction.length then .error .tooPrecise
  else do
    let whole ← required .outOfRange (Amount.parse? (String.ofList whole))
    let fraction ← required .nonDigit (fraction? fraction)
    required .outOfRange (units? whole fraction)

def ofSigned (negative : Bool) (n : Nat) : Except MalformedDecimal Decimal :=
  match ofUnits (if negative then -n else n) with
  | .ok d => .ok d
  | .error _ => .error .outOfRange

def ofChars : List Char → Except MalformedDecimal Decimal
  | '-' :: unsigned => magnitude? unsigned >>= ofSigned true
  | unsigned => magnitude? unsigned >>= ofSigned false

def parse (text : String) : Except MalformedDecimal Decimal := ofChars text.toList

end Decimal

end GasMarket
