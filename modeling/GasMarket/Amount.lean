import GasMarket.Text.Digits
import GasMarket.Word

namespace GasMarket

abbrev Amount := BitVec 256

namespace Amount

def size : Nat := 0x10000000000000000000000000000000000000000000000000000000000000000

def ofNat? (n : Nat) : Option Amount :=
  if n < size then some (BitVec.ofNat 256 n) else none

theorem ofNat?_eq_some_iff {n : Nat} {a : Amount} : ofNat? n = some a ↔ a.toNat = n := by
  unfold ofNat?
  have hlt := a.isLt
  by_cases h : n < size
  · simp only [h, if_true, Option.some.injEq]
    have hmod : n % 2 ^ 256 = n := Nat.mod_eq_of_lt h
    rw [← BitVec.toNat_inj, BitVec.toNat_ofNat, hmod]
    exact eq_comm
  · simp only [h, if_false]
    change a.toNat < size at hlt
    constructor
    · intro hnone
      cases hnone
    · intro heq
      omega

/-- Digits of the base that the text's first two characters name, decimal if they name none.
Underscores are skipped, and a text without digits is zero. -/
def parse? (text : String) : Option Amount :=
  let (base, digits) := match text.toList with
    | '0' :: 'x' :: rest | '0' :: 'X' :: rest => (16, rest)
    | '0' :: 'o' :: rest | '0' :: 'O' :: rest => (8, rest)
    | '0' :: 'b' :: rest | '0' :: 'B' :: rest => (2, rest)
    | digits => (10, digits)
  (Text.Digits.read? base (digits.filter (· ≠ '_'))).bind ofNat?

def toHex (a : Amount) : String := String.ofList ('0' :: 'x' :: Text.Digits.hex a.toNat)

def toText (a : Amount) : String := String.ofList (Text.Digits.decimal a.toNat)

def saturated (a : Amount) : UInt64 := saturate a.toNat

end Amount

end GasMarket
