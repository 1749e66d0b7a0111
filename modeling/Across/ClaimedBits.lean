import Across.HubState
import Mathlib.Data.List.Perm.Basic
import Mathlib.Data.List.Nodup

namespace Across.ClaimedBits

open Abi HubState

def setBits (m : Uint256) : List Nat := (List.range 256).filter fun i => m.getLsbD i

variable {m : Uint256} {i : Uint8} {ids : List Uint8}

theorem getLsbD_mask (i : Uint8) (j : Nat) : ((1 : Uint256) <<< i.toNat).getLsbD j = decide (j = i.toNat) := by
  have hi := i.isLt
  have hone : ∀ k, BitVec.getLsbD (1 : Uint256) k = decide (k = 0) := by
    intro k
    exact (BitVec.getLsbD_one (w := 256) (i := k)).trans (by simp)
  rw [BitVec.getLsbD_shiftLeft, hone, Bool.eq_iff_iff]
  simp only [Bool.and_eq_true, decide_eq_true_eq, Bool.not_eq_true', decide_eq_false_iff_not]
  omega

theorem getLsbD_setClaimed1D (m : Uint256) (i : Uint8) (j : Nat) :
    (setClaimed1D m i).getLsbD j = (m.getLsbD j || decide (j = i.toNat)) := by
  rw [setClaimed1D, BitVec.getLsbD_or, getLsbD_mask]

theorem isClaimed1D_eq (m : Uint256) (i : Uint8) : isClaimed1D m i = m.getLsbD i.toNat := by
  rw [isClaimed1D, Bool.eq_iff_iff, decide_eq_true_iff]
  constructor
  · intro h
    have hbit := congrArg (fun x => BitVec.getLsbD x i.toNat) h
    simp only [BitVec.getLsbD_and, getLsbD_mask, decide_true, Bool.and_true] at hbit
    exact hbit
  · intro h
    apply BitVec.eq_of_getLsbD_eq
    intro j hj
    rw [BitVec.getLsbD_and, getLsbD_mask]
    by_cases hji : j = i.toNat
    · subst hji
      simp [h]
    · simp [hji]

theorem setClaimed1D_comm (m : Uint256) (i j : Uint8) :
    setClaimed1D (setClaimed1D m i) j = setClaimed1D (setClaimed1D m j) i := by
  rw [setClaimed1D, setClaimed1D, setClaimed1D, setClaimed1D, BitVec.or_assoc, BitVec.or_assoc]
  congr 1
  exact BitVec.or_comm _ _

/-- The bitmap marks exactly the leaves in the list. -/
def Marks (m : Uint256) (ids : List Uint8) : Prop := ∀ i : Uint8, m.getLsbD i.toNat = true ↔ i ∈ ids

theorem marks_zero : Marks 0 [] := by
  intro i
  simp

theorem Marks.snoc (h : Marks m ids) (i : Uint8) : Marks (setClaimed1D m i) (ids ++ [i]) := by
  intro j
  rw [getLsbD_setClaimed1D, Bool.or_eq_true, decide_eq_true_iff, h j, List.mem_append, List.mem_singleton]
  constructor
  · rintro (hj | hj)
    · exact .inl hj
    · exact .inr (BitVec.eq_of_toNat_eq hj)
  · rintro (hj | rfl)
    · exact .inl hj
    · exact .inr rfl

theorem Marks.not_mem (h : Marks m ids) (hi : isClaimed1D m i = false) : i ∉ ids := by
  intro hmem
  rw [isClaimed1D_eq, (h i).mpr hmem] at hi
  cases hi

/-- As many bits are set as different leaves are marked. -/
theorem Marks.length (h : Marks m ids) (hn : ids.Nodup) : (setBits m).length = ids.length := by
  have hinj : Function.Injective (BitVec.toNat : Uint8 → Nat) := fun _ _ => BitVec.eq_of_toNat_eq
  have hperm : (setBits m).Perm (ids.map BitVec.toNat) := by
    apply (List.perm_ext_iff_of_nodup (List.nodup_range.filter _) (hn.map hinj)).mpr
    intro j
    rw [List.mem_filter, List.mem_range, List.mem_map]
    constructor
    · rintro ⟨hj, hb⟩
      have hval : (BitVec.ofNat 8 j).toNat = j := Nat.mod_eq_of_lt hj
      refine ⟨BitVec.ofNat 8 j, (h _).mp ?_, hval⟩
      rw [hval]
      exact hb
    · rintro ⟨i, hi, rfl⟩
      exact ⟨i.isLt, (h i).mpr hi⟩
  rw [hperm.length_eq, List.length_map]

end Across.ClaimedBits
