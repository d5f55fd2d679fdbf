namespace GasMarket

def saturate (n : Nat) : UInt64 := if n < UInt64.size then UInt64.ofNat n else 0xffffffffffffffff

theorem toNat_saturate (n : Nat) : (saturate n).toNat = min n (UInt64.size - 1) := by
  simp only [saturate, UInt64.size]
  split
  · simp only [UInt64.toNat_ofNat']
    omega
  · simp only [UInt64.reduceToNat]
    omega

end GasMarket
