namespace GasMarket.Text.Digits

def digit? (c : Char) : Option Nat :=
  if '0' ≤ c ∧ c ≤ '9' then some (c.toNat - '0'.toNat)
  else if 'a' ≤ c ∧ c ≤ 'z' then some (c.toNat - 'a'.toNat + 10)
  else if 'A' ≤ c ∧ c ≤ 'Z' then some (c.toNat - 'A'.toNat + 10)
  else none

def read? (base : Nat) : List Char → Option Nat :=
  List.foldlM (fun n c => (digit? c).bind fun d => if d < base then some (base * n + d) else none) 0

def decimal (n : Nat) : List Char := Nat.toDigits 10 n

def hex (n : Nat) : List Char := Nat.toDigits 16 n

def padded (width : Nat) (digits : List Char) : List Char := digits.leftpad width '0'

@[simp] theorem read?_nil (base : Nat) : read? base [] = some 0 := rfl

@[simp] theorem length_padded (width : Nat) (digits : List Char) :
    (padded width digits).length = max width digits.length := by
  simp only [padded, List.leftpad, List.length_append, List.length_replicate]
  omega

end GasMarket.Text.Digits
