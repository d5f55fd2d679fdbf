import GasMarket.Text.Digits

namespace GasMarket

structure Address where
  bits : BitVec 160
  deriving DecidableEq

namespace Address

def digits (a : Address) : List Char :=
  Text.Digits.padded 40 (Text.Digits.hex a.bits.toNat)

def toHex (a : Address) : String := String.ofList ('0' :: 'x' :: a.digits)

def ofDigits? (digits : List Char) : Option Address :=
  if digits.length = 40 then
    (Text.Digits.read? 16 digits).map fun n => ⟨BitVec.ofNat 160 n⟩
  else none

def parse? (text : String) : Option Address :=
  match text.toList with
  | '0' :: 'x' :: digits | '0' :: 'X' :: digits => ofDigits? digits
  | digits => ofDigits? digits

def ofBytes? (bytes : List Nat) : Option Address :=
  if bytes.length = 20 ∧ bytes.all (· < 256) then
    some ⟨BitVec.ofNat 160 (bytes.foldl (fun n b => 256 * n + b) 0)⟩
  else none

instance : LE Address := ⟨fun a b => a.bits ≤ b.bits⟩

instance (a b : Address) : Decidable (a ≤ b) := inferInstanceAs (Decidable (a.bits ≤ b.bits))

end Address

end GasMarket
