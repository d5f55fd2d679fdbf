/-! The Keccak-256 digest: a sponge of twenty-five 64-bit lanes with blocks of 136 bytes, padded
by a one bit at either end of the gap. -/

namespace GasMarket.Keccak

abbrev Lanes := Vector UInt64 25

def Lanes.at (a : Lanes) (x y : Nat) : UInt64 :=
  a.get ⟨x % 5 + 5 * (y % 5), by omega⟩

def Lanes.build (f : Nat → Nat → UInt64) : Lanes :=
  Vector.ofFn fun i => f (i % 5) (i / 5)

def rotate (w n : UInt64) : UInt64 := w <<< n ||| w >>> (64 - n)

def offsets : Lanes := #v[
  0, 1, 62, 28, 27,
  36, 44, 6, 55, 20,
  3, 10, 43, 25, 39,
  41, 45, 15, 21, 8,
  18, 2, 61, 56, 14]

def roundConstants : List UInt64 := [
  0x0000000000000001, 0x0000000000008082, 0x800000000000808a, 0x8000000080008000,
  0x000000000000808b, 0x0000000080000001, 0x8000000080008081, 0x8000000000008009,
  0x000000000000008a, 0x0000000000000088, 0x0000000080008009, 0x000000008000000a,
  0x000000008000808b, 0x800000000000008b, 0x8000000000008089, 0x8000000000008003,
  0x8000000000008002, 0x8000000000000080, 0x000000000000800a, 0x800000008000000a,
  0x8000000080008081, 0x8000000000008080, 0x0000000080000001, 0x8000000080008008]

def theta (a : Lanes) : Lanes :=
  let column : Vector UInt64 5 := Vector.ofFn fun x =>
    a.at x 0 ^^^ a.at x 1 ^^^ a.at x 2 ^^^ a.at x 3 ^^^ a.at x 4
  let parity (x : Nat) : UInt64 := column.get ⟨x % 5, by omega⟩
  .build fun x y => a.at x y ^^^ parity (x + 4) ^^^ rotate (parity (x + 1)) 1

def rhoPi (a : Lanes) : Lanes :=
  .build fun x y => rotate (a.at (x + 3 * y) x) (offsets.at (x + 3 * y) x)

def chi (a : Lanes) : Lanes :=
  .build fun x y => a.at x y ^^^ (~~~ a.at (x + 1) y &&& a.at (x + 2) y)

def iota (constant : UInt64) (a : Lanes) : Lanes := a.set 0 (a.at 0 0 ^^^ constant)

def permute (a : Lanes) : Lanes :=
  roundConstants.foldl (fun a constant => iota constant (chi (rhoPi (theta a)))) a

def blockBytes : Nat := 136

def pad (message : List UInt8) : List UInt8 :=
  let gap := blockBytes - message.length % blockBytes
  message ++ if gap = 1 then [0x81] else 0x01 :: List.replicate (gap - 2) 0 ++ [0x80]

def laneOfBytes (bytes : List UInt8) : UInt64 :=
  bytes.foldr (fun b w => w <<< 8 ||| b.toUInt64) 0

def bytesOfLane (w : UInt64) : List UInt8 :=
  (List.range 8).map fun i => (w >>> (8 * UInt64.ofNat i)).toUInt8

def slice (start length : Nat) (bytes : List UInt8) : List UInt8 :=
  (bytes.drop start).take length

def absorb (a : Lanes) (block : List UInt8) : Lanes :=
  permute (.build fun x y => a.at x y ^^^ laneOfBytes (slice (8 * (x + 5 * y)) 8 block))

def digest (message : List UInt8) : List UInt8 :=
  let padded := pad message
  let blocks := (List.range (padded.length / blockBytes)).map fun i =>
    slice (blockBytes * i) blockBytes padded
  let final := blocks.foldl absorb (.build fun _ _ => 0)
  (List.range 4).flatMap fun x => bytesOfLane (final.at x 0)

end GasMarket.Keccak
