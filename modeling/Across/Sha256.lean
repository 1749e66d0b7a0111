import Across.WordBytes

namespace Across.Sha256

open WordBytes

/-- A word of 32 bits, as a natural number. -/
abbrev Word := Nat

def rotr (x : Word) (k : Nat) : Word := (x >>> k ||| x <<< (32 - k)) % 2 ^ 32

def choose (x y z : Word) : Word := (x &&& y) ^^^ ((2 ^ 32 - 1 - x) &&& z)

def majority (x y z : Word) : Word := (x &&& y) ^^^ (x &&& z) ^^^ (y &&& z)

def bigSigma0 (x : Word) : Word := rotr x 2 ^^^ rotr x 13 ^^^ rotr x 22

def bigSigma1 (x : Word) : Word := rotr x 6 ^^^ rotr x 11 ^^^ rotr x 25

def smallSigma0 (x : Word) : Word := rotr x 7 ^^^ rotr x 18 ^^^ x >>> 3

def smallSigma1 (x : Word) : Word := rotr x 17 ^^^ rotr x 19 ^^^ x >>> 10

def roundConstants : List Word :=
  [0x428a2f98, 0x71374491, 0xb5c0fbcf, 0xe9b5dba5, 0x3956c25b, 0x59f111f1, 0x923f82a4, 0xab1c5ed5,
   0xd807aa98, 0x12835b01, 0x243185be, 0x550c7dc3, 0x72be5d74, 0x80deb1fe, 0x9bdc06a7, 0xc19bf174,
   0xe49b69c1, 0xefbe4786, 0x0fc19dc6, 0x240ca1cc, 0x2de92c6f, 0x4a7484aa, 0x5cb0a9dc, 0x76f988da,
   0x983e5152, 0xa831c66d, 0xb00327c8, 0xbf597fc7, 0xc6e00bf3, 0xd5a79147, 0x06ca6351, 0x14292967,
   0x27b70a85, 0x2e1b2138, 0x4d2c6dfc, 0x53380d13, 0x650a7354, 0x766a0abb, 0x81c2c92e, 0x92722c85,
   0xa2bfe8a1, 0xa81a664b, 0xc24b8b70, 0xc76c51a3, 0xd192e819, 0xd6990624, 0xf40e3585, 0x106aa070,
   0x19a4c116, 0x1e376c08, 0x2748774c, 0x34b0bcb5, 0x391c0cb3, 0x4ed8aa4a, 0x5b9cca4f, 0x682e6ff3,
   0x748f82ee, 0x78a5636f, 0x84c87814, 0x8cc70208, 0x90befffa, 0xa4506ceb, 0xbef9a3f7, 0xc67178f2]

/-- The schedule from its latest word back, `n` words after those it starts with. -/
def extend : Nat → List Word → List Word
  | 0, ws => ws
  | n + 1, ws => extend n
      ((smallSigma1 (ws.getD 1 0) + ws.getD 6 0 + smallSigma0 (ws.getD 14 0) + ws.getD 15 0) % 2 ^ 32 :: ws)

def schedule (block : Bytes) : List Word :=
  (extend 48 ((List.range 16).map fun i => ofBE ((block.drop (4 * i)).take 4)).reverse).reverse

/-- The chaining value. -/
structure Registers where
  a : Word
  b : Word
  c : Word
  d : Word
  e : Word
  f : Word
  g : Word
  h : Word

namespace Registers

def initial : Registers :=
  ⟨0x6a09e667, 0xbb67ae85, 0x3c6ef372, 0xa54ff53a, 0x510e527f, 0x9b05688c, 0x1f83d9ab, 0x5be0cd19⟩

def round (r : Registers) (x : Word × Word) : Registers :=
  let t₁ := r.h + bigSigma1 r.e + choose r.e r.f r.g + x.1 + x.2
  let t₂ := bigSigma0 r.a + majority r.a r.b r.c
  ⟨(t₁ + t₂) % 2 ^ 32, r.a, r.b, r.c, (r.d + t₁) % 2 ^ 32, r.e, r.f, r.g⟩

def add (r s : Registers) : Registers :=
  ⟨(r.a + s.a) % 2 ^ 32, (r.b + s.b) % 2 ^ 32, (r.c + s.c) % 2 ^ 32, (r.d + s.d) % 2 ^ 32,
    (r.e + s.e) % 2 ^ 32, (r.f + s.f) % 2 ^ 32, (r.g + s.g) % 2 ^ 32, (r.h + s.h) % 2 ^ 32⟩

def compress (r : Registers) (block : Bytes) : Registers :=
  r.add ((roundConstants.zip (schedule block)).foldl round r)

def bytes (r : Registers) : Bytes := [r.a, r.b, r.c, r.d, r.e, r.f, r.g, r.h].flatMap (toBE 4)

theorem length_bytes (r : Registers) : r.bytes.length = 32 := by
  simp [bytes, length_toBE]

end Registers

/-- A single one bit, zeros, and the number of bits in the last eight bytes of a block. -/
def pad (bs : Bytes) : Bytes :=
  bs ++ 0x80 :: List.replicate ((119 - bs.length % 64) % 64) 0 ++ toBE 8 (8 * bs.length)

def absorb : Nat → Registers → Bytes → Registers
  | 0, r, _ => r
  | n + 1, r, bs => absorb n (r.compress (bs.take 64)) (bs.drop 64)

@[irreducible] def sha256 (bs : Bytes) : {digest : Bytes // digest.length = 32} :=
  ⟨(absorb ((pad bs).length / 64) .initial (pad bs)).bytes, Registers.length_bytes _⟩

example : (sha256 [0x61, 0x62, 0x63]).val.take 8 = [0xba, 0x78, 0x16, 0xbf, 0x8f, 0x01, 0xcf, 0xea] := by
  decide +kernel

end Across.Sha256
