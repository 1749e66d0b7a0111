import Across.Keccak

namespace Across.MerkleProof

open WordBytes Keccak

/-- The hash of two sibling nodes, taken in increasing order. -/
def hashPair (a b : BitVec 256) : BitVec 256 :=
  if a.toNat < b.toNat then keccak256 (word a.toNat ++ word b.toNat)
  else keccak256 (word b.toNat ++ word a.toNat)

def processProof (proof : List (BitVec 256)) (leaf : BitVec 256) : BitVec 256 :=
  proof.foldl hashPair leaf

def verify (proof : List (BitVec 256)) (root leaf : BitVec 256) : Bool :=
  decide (processProof proof leaf = root)

@[simp] theorem verify_nil (root leaf : BitVec 256) : verify [] root leaf = decide (leaf = root) := rfl

theorem hashPair_comm (a b : BitVec 256) : hashPair a b = hashPair b a := by
  simp only [hashPair]
  by_cases hab : a.toNat < b.toNat
  · rw [if_pos hab, if_neg (Nat.not_lt.mpr hab.le)]
  · by_cases hba : b.toNat < a.toNat
    · rw [if_neg hab, if_pos hba]
    · rw [if_neg hab, if_neg hba, BitVec.eq_of_toNat_eq (Nat.le_antisymm (Nat.not_lt.mp hba) (Nat.not_lt.mp hab))]

theorem verify_left (a b : BitVec 256) : verify [b] (hashPair a b) a = true := decide_eq_true rfl

theorem verify_right (a b : BitVec 256) : verify [a] (hashPair a b) b = true := decide_eq_true (hashPair_comm b a)

/-- The byte strings that are hashed to check a proof. -/
def hashed : List (BitVec 256) → BitVec 256 → List Bytes
  | [], _ => []
  | a :: proof, leaf =>
      (if leaf.toNat < a.toNat then word leaf.toNat ++ word a.toNat else word a.toNat ++ word leaf.toNat) ::
        hashed proof (hashPair leaf a)

/-- A proof for the zero root is a preimage of zero. -/
theorem exists_hashed_of_processProof {proof : List (BitVec 256)} {leaf : BitVec 256}
    (h : processProof proof leaf = 0) : leaf = 0 ∨ ∃ bs ∈ hashed proof leaf, keccak256 bs = 0 := by
  induction proof generalizing leaf with
  | nil => exact .inl h
  | cons a proof ih =>
      right
      rcases ih h with hz | ⟨bs, hbs, hz⟩
      · refine ⟨_, List.mem_cons_self, ?_⟩
        rw [hashPair] at hz
        rw [apply_ite keccak256]
        exact hz
      · exact ⟨bs, List.mem_cons_of_mem _ hbs, hz⟩

end Across.MerkleProof
