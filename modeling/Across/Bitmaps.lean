import Across.ClaimedBits
import Across.IndexSets
import Across.SpokeLedger
import Across.SvmBundles

namespace Across.Bitmaps

open Abi IndexSets
open HubState (Uint8)
open SvmTypes (U32)

/-- A mapping of 256-bit words. -/
def words : IndexSet (Nat → Nat) Nat where
  empty _ := 0
  set := SpokePool.setClaimed
  test := SpokePool.isClaimed
  test_empty j := by
    rw [SpokeLedger.isClaimed_eq]
    exact Nat.zero_testBit _
  test_set b i j := by rw [SpokeLedger.isClaimed_setClaimed, Bool.or_eq_true, decide_eq_true_iff, or_comm]

/-- A single word. -/
def oneWord : IndexSet Uint256 Uint8 where
  empty := 0
  set := HubState.setClaimed1D
  test := HubState.isClaimed1D
  test_empty j := by
    rw [ClaimedBits.isClaimed1D_eq]
    exact BitVec.getLsbD_zero
  test_set b i j := by
    rw [ClaimedBits.isClaimed1D_eq, ClaimedBits.isClaimed1D_eq, ClaimedBits.getLsbD_setClaimed1D, Bool.or_eq_true,
      decide_eq_true_iff, or_comm]
    constructor
    · rintro (h | h)
      · exact .inl (BitVec.eq_of_toNat_eq h)
      · exact .inr h
    · rintro (rfl | h)
      · exact .inl rfl
      · exact .inr h

/-- A vector of bytes that grows. -/
def bytes : IndexSet (List UInt8) U32 where
  empty := []
  set := SvmProgram.setClaimed
  test := SvmProgram.isClaimed
  test_empty _ := rfl
  test_set b i j := by rw [SvmBundles.isClaimed_setClaimed, eq_comm]

theorem toNat_injective (w : Nat) : Function.Injective (BitVec.toNat : BitVec w → Nat) :=
  fun _ _ => BitVec.eq_of_toNat_eq

theorem widen_injective : Function.Injective (BitVec.setWidth 32 : Uint8 → U32) := by
  intro i j h
  have hn := congrArg BitVec.toNat h
  rw [BitVec.toNat_setWidth, BitVec.toNat_setWidth, Nat.mod_eq_of_lt (lt_trans i.isLt (by decide)),
    Nat.mod_eq_of_lt (lt_trans j.isLt (by decide))] at hn
  exact BitVec.eq_of_toNat_eq hn

/-- No word of the mapping outgrows its 256 bits. -/
theorem setClaimed_lt {b : Nat → Nat} (hb : ∀ k, b k < 2 ^ 256) (i k : Nat) :
    SpokePool.setClaimed b i k < 2 ^ 256 := by
  rw [SpokePool.setClaimed]
  by_cases hk : k = i / 256
  · subst hk
    rw [Function.update_self]
    apply Nat.or_lt_two_pow (hb _)
    rw [Nat.one_shiftLeft]
    exact Nat.pow_lt_pow_right (by decide) (Nat.mod_lt _ (by decide))
  · rw [Function.update_of_ne hk]
    exact hb k

theorem foldl_setClaimed_lt (is : List Uint256) {b : Nat → Nat} (hb : ∀ k, b k < 2 ^ 256) (k : Nat) :
    is.foldl (fun b i => SpokePool.setClaimed b i.toNat) b k < 2 ^ 256 := by
  induction is generalizing b with
  | nil => exact hb k
  | cons i is ih => exact ih (setClaimed_lt hb i.toNat)

/-- Each bitmap holds exactly the indices that were set, in any order and number, and
the bitmaps that share indices answer alike. -/
theorem bitmaps_hold_indices :
    (∀ (is : List Uint256) (j : Uint256),
      (∀ k, is.foldl (fun b i => SpokePool.setClaimed b i.toNat) (fun _ => 0) k < 2 ^ 256) ∧
      (SpokePool.isClaimed (is.foldl (fun b i => SpokePool.setClaimed b i.toNat) fun _ => 0) j.toNat = true ↔
        j ∈ is)) ∧
    (∀ (is : List Uint8) (j : Uint8), HubState.isClaimed1D (is.foldl HubState.setClaimed1D 0) j = true ↔ j ∈ is) ∧
    (∀ (is : List U32) (j : U32), SvmProgram.isClaimed (is.foldl SvmProgram.setClaimed []) j = true ↔ j ∈ is) ∧
    (∀ (is : List U32) (j : U32),
      SpokePool.isClaimed (is.foldl (fun b i => SpokePool.setClaimed b i.toNat) fun _ => 0) j.toNat =
        SvmProgram.isClaimed (is.foldl SvmProgram.setClaimed []) j) ∧
    ∀ (is : List Uint8) (j : Uint8),
      HubState.isClaimed1D (is.foldl HubState.setClaimed1D 0) j =
        SvmProgram.isClaimed (is.foldl (fun b i => SvmProgram.setClaimed b (i.setWidth 32)) []) (j.setWidth 32) := by
  refine ⟨fun is j => ⟨fun k => ?_, ?_⟩, ?_, ?_, ?_, ?_⟩
  · exact foldl_setClaimed_lt is (fun _ => Nat.two_pow_pos 256) k
  · exact (words.comap BitVec.toNat (toNat_injective 256)).test_foldl is j
  · exact oneWord.test_foldl
  · exact bytes.test_foldl
  · exact (words.comap BitVec.toNat (toNat_injective 32)).test_foldl_eq bytes
  · exact oneWord.test_foldl_eq (bytes.comap (BitVec.setWidth 32) widen_injective)

example : (SvmProgram.setClaimed (SvmProgram.setClaimed [] 9) 0) = [1, 2] := by decide

end Across.Bitmaps
