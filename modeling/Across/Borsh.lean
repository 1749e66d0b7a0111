import Across.Keccak

namespace Across.Borsh

open WordBytes Keccak

/-- A type with an encoding that is read off the front of a byte string. -/
class Codec (α : Type) where
  tryToVec : α → Bytes
  deserialize : Bytes → Option (α × Bytes)
  deserialize_tryToVec (a : α) (rest : Bytes) : deserialize (tryToVec a ++ rest) = some (a, rest)

open Codec

variable {α β : Type} {bs cs : Bytes}

theorem tryToVec_append_inj [Codec α] {a b : α} (h : tryToVec a ++ bs = tryToVec b ++ cs) : a = b ∧ bs = cs := by
  have hab := (deserialize_tryToVec a bs).symm.trans ((congrArg deserialize h).trans (deserialize_tryToVec b cs))
  exact Prod.mk.inj (Option.some.inj hab)

section Numbers

theorem toLE_eq_reverse (k n : Nat) : toLE k n = (toBE k n).reverse := by
  induction k generalizing n with
  | zero => rfl
  | succ k ih => rw [toLE, toBE, List.reverse_append, ih, List.reverse_singleton, List.singleton_append]

theorem length_toLE (k n : Nat) : (toLE k n).length = k := by
  rw [toLE_eq_reverse, List.length_reverse, length_toBE]

theorem ofLE_toLE (k n : Nat) : ofLE (toLE k n) = n % 256 ^ k := by
  induction k generalizing n with
  | zero =>
      rw [pow_zero, Nat.mod_one]
      rfl
  | succ k ih =>
      have hb : (UInt8.ofNat (n % 256)).toNat = n % 256 := by
        rw [UInt8.toNat_ofNat']
        exact Nat.mod_eq_of_lt (Nat.mod_lt n (by decide))
      change (UInt8.ofNat (n % 256)).toNat + 256 * ofLE (toLE k (n / 256)) = _
      rw [hb, ih, pow_succ', Nat.mod_mul]

/-- The first `k` bytes and the rest. -/
def split (k : Nat) (bs : Bytes) : Option (Bytes × Bytes) :=
  if k ≤ bs.length then some (bs.take k, bs.drop k) else none

theorem split_append {k : Nat} (h : bs.length = k) : split k (bs ++ cs) = some (bs, cs) := by
  subst h
  rw [split, if_pos, List.take_left, List.drop_left]
  rw [List.length_append]
  exact Nat.le_add_right _ _

/-- Unsigned numbers of `k` bytes, the least significant byte first. -/
@[reducible] def littleEndian (k : Nat) : Codec (BitVec (8 * k)) where
  tryToVec n := toLE k n.toNat
  deserialize bs := (split k bs).map fun x => (BitVec.ofNat (8 * k) (ofLE x.1), x.2)
  deserialize_tryToVec n rest := by
    have hn : n.toNat < 256 ^ k := by
      have hlt := n.isLt
      rwa [Nat.pow_mul] at hlt
    rw [split_append (length_toLE k _), Option.map_some, ofLE_toLE, Nat.mod_eq_of_lt hn, BitVec.ofNat_toNat,
      BitVec.setWidth_eq]

instance : Codec (BitVec 32) := littleEndian 4

instance : Codec (BitVec 64) := littleEndian 8

/-- An array of 32 bytes, kept as the number that its bytes are from the left. -/
instance : Codec (BitVec 256) where
  tryToVec k := toBE 32 k.toNat
  deserialize bs := (split 32 bs).map fun x => (BitVec.ofNat 256 (ofBE x.1), x.2)
  deserialize_tryToVec k rest := by
    have hk : k.toNat < 256 ^ 32 := k.isLt
    rw [split_append (length_toBE 32 _), Option.map_some, ofBE_toBE, Nat.mod_eq_of_lt hk, BitVec.ofNat_toNat,
      BitVec.setWidth_eq]

end Numbers

instance : Codec Bool where
  tryToVec b := if b then [1] else [0]
  deserialize
    | 0 :: rest => some (false, rest)
    | 1 :: rest => some (true, rest)
    | _ => none
  deserialize_tryToVec b rest := by cases b <;> rfl

/-- A vector of bytes, after its length. -/
instance : Codec {bs : Bytes // bs.length < 2 ^ 32} where
  tryToVec v := toLE 4 v.val.length ++ v.val
  deserialize bs := do
    let (n, bs) ← split 4 bs
    let (v, bs) ← split (ofLE n) bs
    if h : v.length < 2 ^ 32 then some (⟨v, h⟩, bs) else none
  deserialize_tryToVec v rest := by
    have hv : v.val.length < 256 ^ 4 := v.property
    simp only [List.append_assoc, split_append (length_toLE 4 _), ofLE_toLE, Nat.mod_eq_of_lt hv, split_append rfl,
      Option.bind_eq_bind, Option.bind_some, v.property, dite_true]

instance [Codec α] [Codec β] : Codec (α × β) where
  tryToVec x := tryToVec x.1 ++ tryToVec x.2
  deserialize bs := do
    let (a, bs) ← deserialize bs
    let (b, bs) ← deserialize bs
    pure ((a, b), bs)
  deserialize_tryToVec x rest := by
    rw [List.append_assoc, deserialize_tryToVec]
    simp only [Option.bind_eq_bind, Option.bind_some, deserialize_tryToVec]
    rfl

end Across.Borsh
