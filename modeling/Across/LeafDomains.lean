import Across.MerkleLib
import Across.SvmLeaves

namespace Across.LeafDomains

open WordBytes Borsh Abi Keccak MerkleProof MerkleTree MerkleLib SvmTypes SvmLeaves

section Reading

variable {bs : Bytes}

theorem exists_word {w k : Nat} (bs : Bytes) (hw : 256 ^ k = 2 ^ w) (hk : bs.length = k) :
    ∃ x : BitVec w, toBE k x.toNat = bs := by
  subst hk
  have hn := ofBE_lt bs
  rw [hw] at hn
  refine ⟨BitVec.ofNat w (ofBE bs), ?_⟩
  rw [BitVec.toNat_ofNat, Nat.mod_eq_of_lt hn, toBE_ofBE]

theorem exists_take {α : Type} {k : Nat} {f : α → Bytes} (bs : Bytes) (hf : ∀ bs : Bytes, bs.length = k → ∃ a, f a = bs)
    (h : k ≤ bs.length) : ∃ a rest, bs = f a ++ rest ∧ rest.length = bs.length - k := by
  obtain ⟨a, ha⟩ := hf (bs.take k) (by rw [List.length_take, Nat.min_eq_left h])
  exact ⟨a, bs.drop k, by rw [ha, List.take_append_drop], List.length_drop⟩

theorem exists_pubkeyBytes (bs : Bytes) (h : bs.length = 32) : ∃ a, pubkeyBytes a = bs := exists_word bs (by norm_num) h

theorem exists_u64Bytes (bs : Bytes) (h : bs.length = 8) : ∃ a, u64Bytes a = bs := by
  obtain ⟨x, hx⟩ := exists_word (w := 64) (k := 8) bs.reverse (by norm_num) (by rw [List.length_reverse, h])
  refine ⟨x, ?_⟩
  rw [u64Bytes, toLE_eq_reverse, hx, List.reverse_reverse]

theorem exists_u32Bytes (bs : Bytes) (h : bs.length = 4) : ∃ a, u32Bytes a = bs := by
  obtain ⟨x, hx⟩ := exists_word (w := 32) (k := 4) bs.reverse (by norm_num) (by rw [List.length_reverse, h])
  refine ⟨x, ?_⟩
  rw [u32Bytes, toLE_eq_reverse, hx, List.reverse_reverse]

/-- Whatever the bytes are, they are a slow fill: each field takes any value. -/
theorem exists_slowFill (hmin : 212 ≤ bs.length) (hmax : bs.length < 212 + 2 ^ 32) :
    ∃ f : V3SlowFill, f.toBytes = bs := by
  obtain ⟨depositor, s₁, e₁, l₁⟩ := exists_take bs exists_pubkeyBytes (by omega)
  obtain ⟨recipient, s₂, e₂, l₂⟩ := exists_take s₁ exists_pubkeyBytes (by omega)
  obtain ⟨exclusiveRelayer, s₃, e₃, l₃⟩ := exists_take s₂ exists_pubkeyBytes (by omega)
  obtain ⟨inputToken, s₄, e₄, l₄⟩ := exists_take s₃ exists_pubkeyBytes (by omega)
  obtain ⟨outputToken, s₅, e₅, l₅⟩ := exists_take s₄ exists_pubkeyBytes (by omega)
  obtain ⟨inputAmount, s₆, e₆, l₆⟩ := exists_take s₅ exists_u64Bytes (by omega)
  obtain ⟨outputAmount, s₇, e₇, l₇⟩ := exists_take s₆ exists_u64Bytes (by omega)
  obtain ⟨originChainId, s₈, e₈, l₈⟩ := exists_take s₇ exists_u64Bytes (by omega)
  obtain ⟨depositId, s₉, e₉, l₉⟩ := exists_take s₈ exists_u32Bytes (by omega)
  obtain ⟨fillDeadline, s₁₀, e₁₀, l₁₀⟩ := exists_take s₉ exists_u32Bytes (by omega)
  obtain ⟨exclusivityDeadline, s₁₁, e₁₁, l₁₁⟩ := exists_take s₁₀ exists_u32Bytes (by omega)
  -- the message is what is left before the last two fields
  have hmessage : (s₁₁.take (s₁₁.length - 16)).length = s₁₁.length - 16 := by
    rw [List.length_take]
    omega
  obtain ⟨chainId, s₁₂, e₁₂, l₁₂⟩ := exists_take (s₁₁.drop (s₁₁.length - 16)) exists_u64Bytes
    (by rw [List.length_drop]; omega)
  rw [List.length_drop] at l₁₂
  obtain ⟨updatedOutputAmount, s₁₃, e₁₃, l₁₃⟩ := exists_take s₁₂ exists_u64Bytes (by omega)
  obtain rfl : s₁₃ = [] := List.length_eq_zero_iff.mp (by omega)
  rw [List.append_nil] at e₁₃
  refine ⟨⟨⟨depositor, recipient, exclusiveRelayer, inputToken, outputToken, inputAmount, outputAmount, originChainId,
    depositId, fillDeadline, exclusivityDeadline, ⟨s₁₁.take (s₁₁.length - 16), by rw [hmessage]; omega⟩⟩, chainId,
    updatedOutputAmount⟩, ?_⟩
  simp only [V3SlowFill.toBytes, List.append_assoc]
  rw [← e₁₃, ← e₁₂, List.take_append_drop, ← e₁₁, ← e₁₀, ← e₉, ← e₈, ← e₇, ← e₆, ← e₅, ← e₄, ← e₃, ← e₂, ← e₁]

end Reading

section Domains

/-- A leaf of the refund tree: one for the SVM program or one for the EVM pools. -/
abbrev EitherRefund := RelayerRefundLeaf ⊕ SpokeTypes.RelayerRefundLeaf

def EitherRefund.bytes : EitherRefund → Bytes := Sum.elim RelayerRefundLeaf.toBytes encodeRefund

def EitherRefund.Fits : EitherRefund → Prop := Sum.elim Balanced FitsRefund

def EitherRefund.verify (root : Hash) (l : EitherRefund) (proof : List Hash) : Bool :=
  Sum.elim (fun l => verifyMerkleProof root l.toKeccakHash proof)
    (fun l => SpokeTypes.verifyRelayerRefund root l proof) l

/-- A slow fill that can have the bytes of an EVM leaf: its first two keys are the
first two offsets of the ABI encoding, and its message holds the rest. -/
structure Posing (f : V3SlowFill) : Prop where
  depositor : f.relayData.depositor = 32
  recipient : f.relayData.recipient = 96
  message : 332 ≤ f.relayData.message.val.length

abbrev EitherSlow := V3SlowFill ⊕ SpokeTypes.V3SlowFill

def EitherSlow.bytes : EitherSlow → Bytes := Sum.elim V3SlowFill.toBytes encodeSlow

def EitherSlow.Fits : EitherSlow → Prop := Sum.elim (¬ Posing ·) fun _ => True

def EitherSlow.verify (root : Hash) (f : EitherSlow) (proof : List Hash) : Bool :=
  Sum.elim (fun f => verifyMerkleProof root f.toKeccakHash proof)
    (fun f => SpokeTypes.verifyV3SlowRelayFulfillment root f proof) f

/-- The lengths of the two encodings differ modulo 8. -/
theorem refund_ne {l : RelayerRefundLeaf} (hl : Balanced l) (l' : SpokeTypes.RelayerRefundLeaf) :
    l.toBytes ≠ encodeRefund l' := by
  intro h
  have hlen := congrArg List.length h
  rw [length_refundLeaf hl, length_encodeRefund] at hlen
  omega

theorem encodeSlow_offsets (e : SpokeTypes.V3SlowFill) : ∃ rest, encodeSlow e = word 32 ++ (word 96 ++ rest) := by
  refine ⟨words [e.chainId.toNat, e.updatedOutputAmount.toNat] ++ encode e.relayData.parts, ?_⟩
  rw [encodeSlow, encode_tail, encode, SpokeTypes.V3SlowFill.parts]
  simp only [headWords, tails, words_cons, List.length_cons, List.length_nil, List.append_assoc, List.append_nil]

theorem posing_of_eq {f : V3SlowFill} {e : SpokeTypes.V3SlowFill} (h : f.toBytes = encodeSlow e) : Posing f := by
  have hlen := congrArg List.length h
  rw [length_slowFill, length_encodeSlow] at hlen
  obtain ⟨rest, hrest⟩ := encodeSlow_offsets e
  rw [hrest] at h
  simp only [V3SlowFill.toBytes, List.append_assoc] at h
  obtain ⟨hd, h₁⟩ := pubkeyBytes_append_inj (b := 32) h
  obtain ⟨hr, -⟩ := pubkeyBytes_append_inj (b := 96) h₁
  exact ⟨hd, hr, by omega⟩

theorem eitherRefund_inj {l l' : EitherRefund} (hl : l.Fits) (hl' : l'.Fits) (h : l.bytes = l'.bytes) : l = l' := by
  cases l with
  | inl l =>
      cases l' with
      | inl l' => exact congrArg Sum.inl (refundLeaf_inj hl hl' h)
      | inr l' => exact absurd h (refund_ne hl l')
  | inr l =>
      cases l' with
      | inl l' => exact absurd h.symm (refund_ne hl' l)
      | inr l' => exact congrArg Sum.inr (encodeRefund_inj hl h)

theorem eitherSlow_inj {f f' : EitherSlow} (hf : f.Fits) (hf' : f'.Fits) (h : f.bytes = f'.bytes) : f = f' := by
  cases f with
  | inl f =>
      cases f' with
      | inl f' => exact congrArg Sum.inl (slowFill_inj h)
      | inr f' => exact absurd (posing_of_eq h) hf
  | inr f =>
      cases f' with
      | inl f' => exact absurd (posing_of_eq h.symm) hf'
      | inr f' => exact congrArg Sum.inr (encodeSlow_inj h)

end Domains

section Theorems

/-- Refund leaves of the two machines never have the same bytes. A slow fill of the
SVM program has the bytes of one for the EVM only when it poses as one, which
each of those of a size that the program can read has a slow fill to do. Hence
in trees with leaves for both, each machine executes only its own. -/
theorem leaves_apart (t : MerkleTree.Tree EitherRefund) (ht : ∀ l ∈ t.leaves, l.Fits) (s : MerkleTree.Tree EitherSlow)
    (hs : ∀ f ∈ s.leaves, f.Fits) :
    (∀ l, Balanced l → ∀ l', l.toBytes ≠ encodeRefund l') ∧ (∀ f, ¬ Posing f → ∀ e, f.toBytes ≠ encodeSlow e) ∧
    (∀ e, (encodeSlow e).length < 212 + 2 ^ 32 → ∃ f, Posing f ∧ f.toBytes = encodeSlow e) ∧
    Authorises EitherRefund.bytes EitherRefund.Fits EitherRefund.verify t ∧
    Authorises EitherSlow.bytes EitherSlow.Fits EitherSlow.verify s := by
  refine ⟨fun l hl l' => refund_ne hl l', fun f hf e h => hf (posing_of_eq h), fun e he => ?_, ?_, ?_⟩
  · obtain ⟨f, hf⟩ := exists_slowFill (by rw [length_encodeSlow]; omega) he
    exact ⟨f, posing_of_eq hf, hf⟩
  · refine authorises (fun l l' hl hl' h => eitherRefund_inj hl hl' h) (fun l hl => ?_) (fun r l p => ?_) ht
    · cases l with
      | inl l =>
          change l.toBytes.length ≠ 64
          rw [length_refundLeaf hl]
          omega
      | inr l =>
          change (encodeRefund l).length ≠ 64
          rw [length_encodeRefund]
          omega
    · cases l <;> exact decide_eq_true_iff
  · refine authorises (fun f f' hf hf' h => eitherSlow_inj hf hf' h) (fun f _ => ?_) (fun r f p => ?_) hs
    · cases f with
      | inl f =>
          change f.toBytes.length ≠ 64
          rw [length_slowFill]
          omega
      | inr f =>
          change (encodeSlow f).length ≠ 64
          rw [length_encodeSlow]
          omega
    · cases f <;> exact decide_eq_true_iff

/-- The slow fill of the SVM program that has the bytes of an EVM slow fill. -/
def samplePosing : V3SlowFill where
  relayData := ⟨32, 96, 10, 9, 1, 0, 0, 0, 0, 0x02000000, 0,
    ⟨((encodeSlow sampleSlow).drop 196).take 364, (List.length_take_le _ _).trans_lt (by decide)⟩⟩
  chainId := 0
  updatedOutputAmount := 0

theorem samplePosing_bytes : samplePosing.toBytes = encodeSlow sampleSlow := by decide +kernel

def sampleRefunds : MerkleTree.Tree EitherRefund :=
  .node (.leaf (.inl SvmLeaves.sampleRefund)) (.leaf (.inr MerkleLib.sampleRefund))

def sampleSlows : MerkleTree.Tree EitherSlow := .node (.leaf (.inl sampleSlowFill)) (.leaf (.inr sampleSlow))

theorem sampleRefunds_apart : EitherRefund.verify (sampleRefunds.root EitherRefund.bytes) (.inl SvmLeaves.sampleRefund)
      [keccak256 (encodeRefund MerkleLib.sampleRefund)] = true ∧
    EitherSlow.verify (sampleSlows.root EitherSlow.bytes) (.inr sampleSlow) [sampleSlowFill.toKeccakHash] = true ∧
    sampleSlowFill.toBytes ≠ encodeSlow sampleSlow := by
  have hposing : ¬ Posing sampleSlowFill := fun h => absurd h.depositor (by decide)
  have hrefunds : ∀ l ∈ sampleRefunds.leaves, l.Fits := by
    intro l hl
    rcases List.mem_cons.mp hl with rfl | hl
    · rfl
    · obtain rfl := List.mem_singleton.mp hl
      change FitsRefund MerkleLib.sampleRefund
      decide
  have hslows : ∀ f ∈ sampleSlows.leaves, f.Fits := by
    intro f hf
    rcases List.mem_cons.mp hf with rfl | hf
    · exact hposing
    · obtain rfl := List.mem_singleton.mp hf
      trivial
  obtain ⟨-, hne, -, ht, hs⟩ := leaves_apart _ hrefunds _ hslows
  exact ⟨ht.complete _ _ (Path.left (.leaf _)), hs.complete _ _ (Path.right (.leaf _)), hne _ hposing _⟩

end Theorems

end Across.LeafDomains
