import GasMarket.Address
import GasMarket.Keccak

namespace GasMarket.Address

def halfBytes (digest : List UInt8) : List UInt8 :=
  digest.flatMap fun b : UInt8 => [b >>> 4, b &&& 0xf]

def checksummed (a : Address) : String :=
  let marks := halfBytes (Keccak.digest (a.digits.map fun c => c.toNat.toUInt8))
  String.ofList
    ('0' :: 'x' :: a.digits.zipWith (fun c mark => if 8 ≤ mark then c.toUpper else c) marks)

end GasMarket.Address
