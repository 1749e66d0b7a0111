import Across.WordBytes

namespace Across.Keccak

open WordBytes

/-- A 64-bit lane of the sponge, as a natural number below `2 ^ 64`. -/
abbrev Lane := Nat

def rotl (x : Lane) (k : Nat) : Lane := (x <<< k ||| x >>> (64 - k)) % 2 ^ 64

def lane (a : List Lane) (i : Nat) : Lane := a.getD i 0

def theta (a : List Lane) : List Lane :=
  let c := (List.range 5).map fun x =>
    lane a x ^^^ lane a (x + 5) ^^^ lane a (x + 10) ^^^ lane a (x + 15) ^^^ lane a (x + 20)
  let d := (List.range 5).map fun x => lane c ((x + 4) % 5) ^^^ rotl (lane c ((x + 1) % 5)) 1
  (List.range 25).map fun i => lane a i ^^^ lane d (i % 5)

def rotations : List Nat :=
  [0, 1, 62, 28, 27, 36, 44, 6, 55, 20, 3, 10, 43, 25, 39, 41, 45, 15, 21, 8, 18, 2, 61, 56, 14]

/-- Rotate every lane and move lane `(x, y)` to `(y, 2x + 3y)`. -/
def rhoPi (a : List Lane) : List Lane :=
  (List.range 25).map fun i =>
    let x := i % 5
    let y := i / 5
    let source := (x + 3 * y) % 5 + 5 * x
    rotl (lane a source) (rotations.getD source 0)

def chi (a : List Lane) : List Lane :=
  (List.range 25).map fun i =>
    let row := 5 * (i / 5)
    lane a i ^^^ ((2 ^ 64 - 1 - lane a (row + (i + 1) % 5)) &&& lane a (row + (i + 2) % 5))

def roundConstants : List Lane :=
  [0x0000000000000001, 0x0000000000008082, 0x800000000000808a, 0x8000000080008000,
   0x000000000000808b, 0x0000000080000001, 0x8000000080008081, 0x8000000000008009,
   0x000000000000008a, 0x0000000000000088, 0x0000000080008009, 0x000000008000000a,
   0x000000008000808b, 0x800000000000008b, 0x8000000000008089, 0x8000000000008003,
   0x8000000000008002, 0x8000000000000080, 0x000000000000800a, 0x800000008000000a,
   0x8000000080008081, 0x8000000000008080, 0x0000000080000001, 0x8000000080008008]

def iota (rc : Lane) : List Lane → List Lane
  | [] => []
  | l :: ls => (l ^^^ rc) :: ls

def permute (a : List Lane) : List Lane :=
  roundConstants.foldl (fun a rc => iota rc (chi (rhoPi (theta a)))) a

def ofLE (bs : Bytes) : Nat := bs.foldr (fun b acc => b.toNat + 256 * acc) 0

def toLE : Nat → Nat → Bytes
  | 0, _ => []
  | k + 1, n => UInt8.ofNat (n % 256) :: toLE k (n / 256)

def rate : Nat := 136

/-- The original Keccak padding: a single `0x01`, zeros, and `0x80` in the last
byte of the block. -/
def padBlock (bs : Bytes) : Bytes :=
  let free := rate - bs.length % rate
  if free = 1 then bs ++ [0x81] else bs ++ 0x01 :: List.replicate (free - 2) 0 ++ [0x80]

def absorbBlock (a : List Lane) (block : Bytes) : List Lane :=
  permute ((List.range 25).map fun i =>
    if i < 17 then lane a i ^^^ ofLE ((block.drop (8 * i)).take 8) else lane a i)

def absorb : Nat → List Lane → Bytes → List Lane
  | 0, a, _ => a
  | n + 1, a, bs => absorb n (absorbBlock a (bs.take rate)) (bs.drop rate)

/-- The hash of the EVM's `keccak256`, as the word it leaves on the stack. -/
@[irreducible] def keccak256 (bs : Bytes) : BitVec 256 :=
  let padded := padBlock bs
  let a := absorb (padded.length / rate) (List.replicate 25 0) padded
  BitVec.ofNat 256 (ofBE ((List.range 4).flatMap fun i => toLE 8 (lane a i)))

end Across.Keccak
