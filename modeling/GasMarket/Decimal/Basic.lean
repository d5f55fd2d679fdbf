import GasMarket.Amount
import GasMarket.Decimal.Rounding

/-! Signed fixed-point numbers with eighteen fraction digits, counted in units of `10^-18` inside
a signed 256-bit range.  Every operation is checked, and a product or a scaled numerator must fit
the range before it is rounded. -/

namespace GasMarket

inductive ArithmeticFault
  | overflow | divisionByZero
  deriving DecidableEq

namespace Decimal

def bound : Int := 0x8000000000000000000000000000000000000000000000000000000000000000

def InRange (n : Int) : Prop := -bound ≤ n ∧ n < bound

/-- By the magnitude of the number, so that a sign is all that has to be known of it. -/
instance : (n : Int) → Decidable (InRange n)
  | .ofNat k => decidable_of_iff (k < bound.toNat) (by
      rw [InRange, bound, Int.ofNat_eq_natCast]
      omega)
  | .negSucc k => decidable_of_iff (k < bound.toNat) (by
      rw [InRange, bound, Int.negSucc_eq]
      omega)

end Decimal

@[ext] structure Decimal where
  units : Int
  inRange : Decimal.InRange units
  deriving DecidableEq

namespace Decimal

def precision : Nat := 18

def scale : Nat := 1000000000000000000

def ofUnits (n : Int) : Except ArithmeticFault Decimal :=
  if h : InRange n then .ok ⟨n, h⟩ else .error .overflow

@[simp] theorem ofUnits_eq_ok_iff {n : Int} {d : Decimal} : ofUnits n = .ok d ↔ d.units = n := by
  unfold ofUnits
  constructor
  · split
    · rintro ⟨⟩; rfl
    · simp
  · rintro rfl
    simp [d.inRange]

theorem ofUnits_eq_error_iff {n : Int} {f : ArithmeticFault} :
    ofUnits n = .error f ↔ f = .overflow ∧ ¬ InRange n := by
  unfold ofUnits
  split <;> simp_all [eq_comm]

def ofAtoms (n : UInt64) : Decimal :=
  ⟨n.toNat, by have := n.toNat_lt; unfold InRange bound; omega⟩

def ofUInt64 (n : UInt64) : Decimal :=
  ⟨n.toNat * scale, by have := n.toNat_lt; unfold InRange bound scale; omega⟩

def zero : Decimal := ofAtoms 0

def one : Decimal := ofUInt64 1

instance : Inhabited Decimal := ⟨zero⟩

@[simp] theorem units_zero : zero.units = 0 := rfl

@[simp] theorem units_one : one.units = scale := by simp [one, ofUInt64]

@[simp] theorem units_ofUInt64 (n : UInt64) : (ofUInt64 n).units = n.toNat * scale := rfl

instance : LE Decimal := ⟨fun a b => a.units ≤ b.units⟩

instance : LT Decimal := ⟨fun a b => a.units < b.units⟩

instance (a b : Decimal) : Decidable (a ≤ b) := inferInstanceAs (Decidable (a.units ≤ b.units))

instance (a b : Decimal) : Decidable (a < b) := inferInstanceAs (Decidable (a.units < b.units))

instance : Min Decimal := minOfLe

instance : Max Decimal := maxOfLe

theorem le_def {a b : Decimal} : a ≤ b ↔ a.units ≤ b.units := Iff.rfl

theorem lt_def {a b : Decimal} : a < b ↔ a.units < b.units := Iff.rfl

@[simp] theorem units_min (a b : Decimal) : (min a b).units = min a.units b.units := by
  change (if a ≤ b then a else b).units = _
  simp only [le_def]
  split <;> omega

@[simp] theorem units_max (a b : Decimal) : (max a b).units = max a.units b.units := by
  change (if a ≤ b then b else a).units = _
  simp only [le_def]
  split <;> omega

def IsNegative (a : Decimal) : Prop := a.units < 0

instance (a : Decimal) : Decidable a.IsNegative := inferInstanceAs (Decidable (a.units < 0))

def add (a b : Decimal) : Except ArithmeticFault Decimal := ofUnits (a.units + b.units)

def sub (a b : Decimal) : Except ArithmeticFault Decimal := ofUnits (a.units - b.units)

def checked (n : Int) : Except ArithmeticFault Int := if InRange n then .ok n else .error .overflow

/-- What becomes of a truncated quotient of `n` by `d` that leaves a remainder. -/
def adjusted (r : Rounding) (n d quotient remainder : Int) : Except ArithmeticFault Int :=
  let awayFromZero := checked (if n < 0 ↔ d < 0 then quotient + 1 else quotient - 1)
  match r with
  | .truncate => .ok quotient
  | .ceil => if n < 0 ↔ d < 0 then awayFromZero else .ok quotient
  | .halfAwayFromZero =>
    if Amount.size ≤ 2 * remainder.natAbs then .error .overflow
    else if d.natAbs ≤ 2 * remainder.natAbs then awayFromZero
    else .ok quotient

def roundedQuotient (r : Rounding) (n d : Int) : Except ArithmeticFault Int :=
  if d = 0 then .error .divisionByZero
  else do
    let quotient ← checked (n.tdiv d)
    let product ← checked (quotient * d)
    let remainder ← checked (n - product)
    if remainder = 0 then return quotient
    else adjusted r n d quotient remainder

def mulWith (r : Rounding) (a b : Decimal) : Except ArithmeticFault Decimal := do
  let product ← checked (a.units * b.units)
  ofUnits (← roundedQuotient r product scale)

def mul (a b : Decimal) : Except ArithmeticFault Decimal := mulWith .truncate a b

def mulUInt64 (a : Decimal) (n : UInt64) : Except ArithmeticFault Decimal :=
  ofUnits (a.units * n.toNat)

/-- A zero divisor is reported before a numerator out of range. -/
def quoWith (r : Rounding) (a b : Decimal) : Except ArithmeticFault Decimal :=
  if b.units = 0 then .error .divisionByZero
  else do
    let numerator ← checked (a.units * scale)
    ofUnits (← roundedQuotient r numerator b.units)

def quo (a b : Decimal) : Except ArithmeticFault Decimal := quoWith .truncate a b

def round (r : Rounding) (a : Decimal) : Int := r.divide a.units scale

def toInt (r : Rounding) (a : Decimal) : Except ArithmeticFault Int :=
  roundedQuotient r a.units scale

def toAmount (r : Rounding) (a : Decimal) : Except ArithmeticFault Amount := do
  let n ← a.toInt r
  if n < 0 then .error .overflow else .ok (BitVec.ofInt 256 n)

def ofInt (n : Int) : Except ArithmeticFault Decimal := ofUnits (scale * n)

/-- The units must fit an amount before they are taken as a signed number. -/
def ofAmount (n : Amount) : Except ArithmeticFault Decimal :=
  if Amount.size ≤ n.toNat * scale then .error .overflow else ofUnits (n.toNat * scale : Nat)

def ofRatio (n d : UInt64) : Except ArithmeticFault Decimal := (ofUInt64 n).quo (ofUInt64 d)

end Decimal

end GasMarket
