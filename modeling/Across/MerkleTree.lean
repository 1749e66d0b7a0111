import Across.MerkleProof

namespace Across.MerkleTree

open WordBytes Keccak MerkleProof

/-- A binary tree of any shape over a list of values. -/
inductive Tree (α : Type) where
  | leaf (a : α)
  | node (l r : Tree α)

variable {α : Type} {enc : α → Bytes} {t : Tree α} {a : α} {p : List (BitVec 256)} {bs : Bytes}

namespace Tree

def leaves : Tree α → List α
  | leaf a => [a]
  | node l r => l.leaves ++ r.leaves

def root (enc : α → Bytes) : Tree α → BitVec 256
  | leaf a => keccak256 (enc a)
  | node l r => hashPair (l.root enc) (r.root enc)

end Tree

def pairBytes (a b : BitVec 256) : Bytes :=
  if a.toNat < b.toNat then word a.toNat ++ word b.toNat else word b.toNat ++ word a.toNat

def Tree.hashed (enc : α → Bytes) : Tree α → List Bytes
  | leaf a => [enc a]
  | node l r => pairBytes (l.root enc) (r.root enc) :: (l.hashed enc ++ r.hashed enc)

/-- `p` holds the siblings on the way from a leaf `a` to the root. -/
inductive Path (enc : α → Bytes) : Tree α → α → List (BitVec 256) → Prop
  | leaf (a : α) : Path enc (.leaf a) a []
  | left {l r : Tree α} {a : α} {p : List (BitVec 256)} (h : Path enc l a p) :
      Path enc (.node l r) a (p ++ [r.root enc])
  | right {l r : Tree α} {a : α} {p : List (BitVec 256)} (h : Path enc r a p) :
      Path enc (.node l r) a (p ++ [l.root enc])

theorem Path.exists (enc : α → Bytes) (h : a ∈ t.leaves) : ∃ p, Path enc t a p := by
  induction t with
  | leaf b =>
      obtain rfl := List.mem_singleton.mp h
      exact ⟨[], .leaf a⟩
  | node l r ihl ihr =>
      rcases List.mem_append.mp h with h | h
      · obtain ⟨p, hp⟩ := ihl h
        exact ⟨_, hp.left⟩
      · obtain ⟨p, hp⟩ := ihr h
        exact ⟨_, hp.right⟩

theorem processProof_concat (p : List (BitVec 256)) (s x : BitVec 256) :
    processProof (p ++ [s]) x = hashPair (processProof p x) s := by
  rw [processProof, List.foldl_append]
  rfl

theorem Path.processProof (h : Path enc t a p) : MerkleProof.processProof p (keccak256 (enc a)) = t.root enc := by
  induction h with
  | leaf a => rfl
  | left h ih => rw [processProof_concat, ih, Tree.root]
  | right h ih => rw [processProof_concat, ih, Tree.root, hashPair_comm]

theorem hashPair_eq (a b : BitVec 256) : hashPair a b = keccak256 (pairBytes a b) := by
  rw [hashPair, pairBytes]
  split <;> rfl

theorem length_pairBytes (a b : BitVec 256) : (pairBytes a b).length = 64 := by
  rw [pairBytes]
  split <;> rw [List.length_append, length_word, length_word]

theorem word_append_inj {a b c d : BitVec 256} (h : word a.toNat ++ word b.toNat = word c.toNat ++ word d.toNat) :
    a = c ∧ b = d := by
  obtain ⟨hl, hr⟩ := List.append_inj h (by rw [length_word, length_word])
  exact ⟨BitVec.eq_of_toNat_eq (word_injective a.isLt c.isLt hl),
    BitVec.eq_of_toNat_eq (word_injective b.isLt d.isLt hr)⟩

theorem pairBytes_inj {a b c d : BitVec 256} (h : pairBytes a b = pairBytes c d) :
    a = c ∧ b = d ∨ a = d ∧ b = c := by
  rw [pairBytes, pairBytes] at h
  split at h <;> split at h
  · exact .inl (word_append_inj h)
  · exact .inr (word_append_inj h)
  · exact .inr (word_append_inj h).symm
  · exact .inl (word_append_inj h).symm

theorem hashed_concat (p : List (BitVec 256)) (s x : BitVec 256) :
    MerkleProof.hashed (p ++ [s]) x = MerkleProof.hashed p x ++ [pairBytes (processProof p x) s] := by
  induction p generalizing x with
  | nil => rfl
  | cons q p ih =>
      simp only [List.cons_append, MerkleProof.hashed, List.cons.injEq, true_and]
      exact ih (hashPair x q)

/-- A collision between a string hashed for the tree and one hashed to check
the proof `p` of the leaf encoded as `bs`. -/
def Collides (enc : α → Bytes) (t : Tree α) (p : List (BitVec 256)) (bs : Bytes) : Prop :=
  ∃ x ∈ t.hashed enc, ∃ y ∈ bs :: MerkleProof.hashed p (keccak256 bs), x ≠ y ∧ keccak256 x = keccak256 y

theorem Collides.left {l r : Tree α} {s : BitVec 256} (h : Collides enc l p bs) :
    Collides enc (.node l r) (p ++ [s]) bs := by
  obtain ⟨x, hx, y, hy, hne, he⟩ := h
  refine ⟨x, List.mem_cons_of_mem _ (List.mem_append_left _ hx), y, ?_, hne, he⟩
  rw [hashed_concat, ← List.cons_append]
  exact List.mem_append_left _ hy

theorem Collides.right {l r : Tree α} {s : BitVec 256} (h : Collides enc r p bs) :
    Collides enc (.node l r) (p ++ [s]) bs := by
  obtain ⟨x, hx, y, hy, hne, he⟩ := h
  refine ⟨x, List.mem_cons_of_mem _ (List.mem_append_right _ hx), y, ?_, hne, he⟩
  rw [hashed_concat, ← List.cons_append]
  exact List.mem_append_left _ hy

theorem Collides.of_ne {x y : Bytes} (hx : x ∈ t.hashed enc) (hy : y ∈ bs :: MerkleProof.hashed p (keccak256 bs))
    (hne : x.length ≠ y.length) (he : keccak256 x = keccak256 y) : Collides enc t p bs :=
  ⟨x, hx, y, hy, fun h => hne (congrArg List.length h), he⟩

/-- Whatever is proved against the root is the encoding of a leaf, or there is a
collision. No encoding may have the length of two nodes. -/
theorem mem_leaves_or_collides (ht : ∀ a ∈ t.leaves, (enc a).length ≠ 64) (hbs : bs.length ≠ 64)
    (h : processProof p (keccak256 bs) = t.root enc) : (∃ a ∈ t.leaves, enc a = bs) ∨ Collides enc t p bs := by
  induction t generalizing p with
  | leaf a =>
      by_cases hab : enc a = bs
      · exact .inl ⟨a, List.mem_singleton_self a, hab⟩
      right
      rcases List.eq_nil_or_concat' p with rfl | ⟨p, s, rfl⟩
      · exact ⟨enc a, List.mem_singleton_self _, bs, List.mem_cons_self, hab, h.symm⟩
      · rw [processProof_concat, hashPair_eq] at h
        refine .of_ne (List.mem_singleton_self _) (y := pairBytes (processProof p (keccak256 bs)) s) ?_ ?_ h.symm
        · rw [hashed_concat]
          exact List.mem_cons_of_mem _ (List.mem_append_right _ (List.mem_singleton_self _))
        · rw [length_pairBytes]
          exact ht a (List.mem_singleton_self a)
  | node l r ihl ihr =>
      have hl : ∀ a ∈ l.leaves, (enc a).length ≠ 64 := fun a ha => ht a (List.mem_append_left _ ha)
      have hr : ∀ a ∈ r.leaves, (enc a).length ≠ 64 := fun a ha => ht a (List.mem_append_right _ ha)
      have htop : pairBytes (l.root enc) (r.root enc) ∈ (Tree.node l r).hashed enc := List.mem_cons_self
      rw [Tree.root, hashPair_eq] at h
      rcases List.eq_nil_or_concat' p with rfl | ⟨p, s, rfl⟩
      · refine .inr (.of_ne htop List.mem_cons_self ?_ h.symm)
        rw [length_pairBytes]
        exact hbs.symm
      rw [processProof_concat, hashPair_eq] at h
      by_cases hpair : pairBytes (l.root enc) (r.root enc) = pairBytes (processProof p (keccak256 bs)) s
      · rcases pairBytes_inj hpair with ⟨he, -⟩ | ⟨-, he⟩
        · rcases ihl hl he.symm with ⟨a, ha, hab⟩ | hc
          · exact .inl ⟨a, List.mem_append_left _ ha, hab⟩
          · exact .inr hc.left
        · rcases ihr hr he.symm with ⟨a, ha, hab⟩ | hc
          · exact .inl ⟨a, List.mem_append_right _ ha, hab⟩
          · exact .inr hc.right
      · refine .inr ⟨_, htop, _, ?_, hpair, h.symm⟩
        rw [hashed_concat]
        exact List.mem_cons_of_mem _ (List.mem_append_right _ (List.mem_singleton_self _))

/-- The check `verify` accepts the leaves of `t` with their siblings, and among the
values that are `ok` nothing else, unless there is a collision. -/
structure Authorises (enc : α → Bytes) (ok : α → Prop) (verify : BitVec 256 → α → List (BitVec 256) → Bool)
    (t : Tree α) :
    Prop where
  provable : ∀ a ∈ t.leaves, ∃ p, Path enc t a p
  complete : ∀ a p, Path enc t a p → verify (t.root enc) a p = true
  sound : ∀ a p, ok a → verify (t.root enc) a p = true → a ∈ t.leaves ∨ Collides enc t p (enc a)

theorem authorises {ok : α → Prop} {verify : BitVec 256 → α → List (BitVec 256) → Bool}
    (hinj : ∀ a b, ok a → ok b → enc a = enc b → a = b) (hlen : ∀ a, ok a → (enc a).length ≠ 64)
    (hv : ∀ r a p, verify r a p = true ↔ processProof p (keccak256 (enc a)) = r) (ht : ∀ a ∈ t.leaves, ok a) :
    Authorises enc ok verify t := by
  refine ⟨fun a ha => Path.exists enc ha, fun a p hp => (hv _ _ _).mpr hp.processProof, fun a p ha h => ?_⟩
  rcases mem_leaves_or_collides (fun b hb => hlen b (ht b hb)) (hlen a ha) ((hv _ _ _).mp h) with ⟨b, hb, he⟩ | hc
  · left
    rwa [← hinj b a (ht b hb) ha he]
  · exact .inr hc

end Across.MerkleTree
