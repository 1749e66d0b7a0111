import Mathlib.Data.Set.Insert

namespace Across.IndexSets

/-- A representation of sets of indices by values of `B`, with the two laws of its test. -/
structure IndexSet (B I : Type) where
  empty : B
  set : B → I → B
  test : B → I → Bool
  test_empty : ∀ j, test empty j = false
  test_set : ∀ b i j, test (set b i) j = true ↔ j = i ∨ test b j = true

variable {B C I J : Type}

namespace IndexSet

def members (S : IndexSet B I) (b : B) : Set I := {j | S.test b j = true}

theorem members_empty (S : IndexSet B I) : S.members S.empty = ∅ := by
  ext j
  change S.test S.empty j = true ↔ False
  rw [S.test_empty, Bool.false_eq_true]

theorem members_set (S : IndexSet B I) (b : B) (i : I) : S.members (S.set b i) = insert i (S.members b) := by
  ext j
  rw [Set.mem_insert_iff]
  exact S.test_set b i j

theorem members_foldl (S : IndexSet B I) (is : List I) (b : B) :
    S.members (is.foldl S.set b) = {j | j ∈ is} ∪ S.members b := by
  induction is generalizing b with
  | nil =>
      ext j
      simp
  | cons i is ih =>
      ext j
      rw [List.foldl_cons, ih, members_set]
      change j ∈ is ∨ j ∈ insert i (S.members b) ↔ j ∈ i :: is ∨ j ∈ S.members b
      rw [Set.mem_insert_iff, List.mem_cons, or_left_comm, or_assoc]

theorem test_foldl (S : IndexSet B I) (is : List I) (j : I) :
    S.test (is.foldl S.set S.empty) j = true ↔ j ∈ is := by
  change j ∈ S.members _ ↔ _
  rw [members_foldl, members_empty, Set.union_empty]
  rfl

/-- Two representations of the same indices cannot be told apart by their tests. -/
theorem test_foldl_eq (S : IndexSet B I) (T : IndexSet C I) (is : List I) (j : I) :
    S.test (is.foldl S.set S.empty) j = T.test (is.foldl T.set T.empty) j := by
  rw [Bool.eq_iff_iff, test_foldl, test_foldl]

/-- The indices that `f` names. -/
def comap (S : IndexSet B I) (f : J → I) (hf : Function.Injective f) : IndexSet B J where
  empty := S.empty
  set b i := S.set b (f i)
  test b j := S.test b (f j)
  test_empty j := S.test_empty (f j)
  test_set b i j := by rw [S.test_set, hf.eq_iff]

end IndexSet

end Across.IndexSets
