import Across.MerkleTree
import Across.SpokeTypes
import Across.HubState

namespace Across.MerkleLib

open WordBytes Abi Keccak MerkleProof MerkleTree SpokeTypes HubState

section Encodings

theorem encode_tail (bs : Bytes) : encode [.tail bs] = word 32 ++ bs := by
  simp only [encode, headWords, tails, words, List.length_singleton, List.flatMap_cons, List.flatMap_nil,
    List.append_nil]

theorem encode_tail_inj {bs cs : Bytes} (h : encode [.tail bs] = encode [.tail cs]) : bs = cs := by
  rw [encode_tail, encode_tail] at h
  exact List.append_cancel_left h

@[simp] theorem length_encodeArray (ns : List Nat) : (encodeArray ns).length = 32 + 32 * ns.length := by
  rw [encodeArray, List.length_append, length_word, length_words]

theorem toNat_lt {w : Nat} (hw : w ≤ 256) (x : BitVec w) : x.toNat < 2 ^ 256 :=
  x.isLt.trans_le (Nat.pow_le_pow_right (by decide) hw)

theorem toNats_lt {w : Nat} (hw : w ≤ 256) (xs : List (BitVec w)) : ∀ n ∈ xs.map BitVec.toNat, n < 2 ^ 256 := by
  intro n hn
  obtain ⟨x, -, rfl⟩ := List.mem_map.mp hn
  exact toNat_lt hw x

theorem tailArray_inj {w : Nat} (hw : w ≤ 256) {xs ys : List (BitVec w)}
    (h : Part.tail (encodeArray (xs.map BitVec.toNat)) = .tail (encodeArray (ys.map BitVec.toNat))) : xs = ys := by
  apply List.map_injective_iff.mpr (fun _ _ => BitVec.eq_of_toNat_eq)
  exact encodeArray_inj (toNats_lt hw xs) (toNats_lt hw ys) (Part.tail.inj h)

theorem word_inj {w : Nat} {x y : BitVec w} (h : Part.word x.toNat = .word y.toNat) : x = y :=
  BitVec.eq_of_toNat_eq (Part.word.inj h)

end Encodings

section PoolRebalance

/-- The arrays are as long as calldata and memory allow. -/
def FitsPool (l : PoolRebalanceLeaf) : Prop :=
  l.bundleLpFees.length < 2 ^ 64 ∧ l.netSendAmounts.length < 2 ^ 64 ∧ l.runningBalances.length < 2 ^ 64 ∧
    l.l1Tokens.length < 2 ^ 64

instance (l : PoolRebalanceLeaf) : Decidable (FitsPool l) := inferInstanceAs (Decidable (_ ∧ _))

def encodePool (l : PoolRebalanceLeaf) : Bytes := encode [.tail (encode l.parts)]

variable {l l' : PoolRebalanceLeaf}

theorem length_encodePool (l : PoolRebalanceLeaf) : (encodePool l).length = 384 +
    32 * (l.bundleLpFees.length + l.netSendAmounts.length + l.runningBalances.length + l.l1Tokens.length) := by
  simp only [encodePool, PoolRebalanceLeaf.parts, length_encode, tails, List.length_append, List.length_cons,
    List.length_nil,
    length_encodeArray, List.length_map]
  omega

theorem poolWords_fit (l : PoolRebalanceLeaf) : WordsFit l.parts := by
  intro n hn
  simp only [PoolRebalanceLeaf.parts, List.mem_cons, Part.word.injEq, reduceCtorEq, false_or, or_false,
    List.not_mem_nil] at hn
  rcases hn with rfl | rfl | rfl
  · exact toNat_lt (by decide) _
  · exact toNat_lt (by decide) _
  · exact toNat_lt (by decide) _

theorem encodePool_inj (hl : FitsPool l) (h : encodePool l = encodePool l') : l = l' := by
  have hlen := length_encodePool l
  rw [encodePool, encode_tail, List.length_append, length_word] at hlen
  obtain ⟨h₁, h₂, h₃, h₄⟩ := hl
  have hfit : (encode l.parts).length < 2 ^ 256 := by omega
  have hparts := encode_inj (.cons (.word _ _) (.cons (.tail _ _) (.cons (.tail _ _) (.cons (.tail _ _)
    (.cons (.word _ _) (.cons (.word _ _) (.cons (.tail _ _) .nil))))))) (poolWords_fit l) (poolWords_fit l') hfit
    (encode_tail_inj h)
  obtain ⟨a₁, a₂, a₃, a₄, a₅, a₆, a₇⟩ := l
  obtain ⟨b₁, b₂, b₃, b₄, b₅, b₆, b₇⟩ := l'
  simp only [List.cons.injEq, and_true] at hparts
  obtain ⟨e₁, e₂, e₃, e₄, e₅, e₆, e₇⟩ := hparts
  obtain rfl := word_inj e₁
  obtain rfl := tailArray_inj (by decide) e₂
  obtain rfl := tailArray_inj (by decide) e₃
  obtain rfl := tailArray_inj (by decide) e₄
  obtain rfl := word_inj e₅
  obtain rfl := word_inj e₆
  obtain rfl := tailArray_inj (by decide) e₇
  rfl

end PoolRebalance

section RelayerRefund

def FitsRefund (l : RelayerRefundLeaf) : Prop := l.refundAmounts.length < 2 ^ 64 ∧ l.refundAddresses.length < 2 ^ 64

instance (l : RelayerRefundLeaf) : Decidable (FitsRefund l) := inferInstanceAs (Decidable (_ ∧ _))

def encodeRefund (l : RelayerRefundLeaf) : Bytes := encode [.tail (encode l.parts)]

variable {l l' : RelayerRefundLeaf}

theorem length_encodeRefund (l : RelayerRefundLeaf) :
    (encodeRefund l).length = 288 + 32 * (l.refundAmounts.length + l.refundAddresses.length) := by
  simp only [encodeRefund, RelayerRefundLeaf.parts, length_encode, tails, List.length_append, List.length_cons,
    List.length_nil, length_encodeArray, List.length_map]
  omega

theorem refundWords_fit (l : RelayerRefundLeaf) : WordsFit l.parts := by
  intro n hn
  simp only [RelayerRefundLeaf.parts, List.mem_cons, Part.word.injEq, reduceCtorEq, false_or, or_false,
    List.not_mem_nil] at hn
  rcases hn with rfl | rfl | rfl | rfl
  · exact toNat_lt (by decide) _
  · exact toNat_lt (by decide) _
  · exact toNat_lt (by decide) _
  · exact toNat_lt (by decide) _

theorem encodeRefund_inj (hl : FitsRefund l) (h : encodeRefund l = encodeRefund l') : l = l' := by
  have hlen := length_encodeRefund l
  rw [encodeRefund, encode_tail, List.length_append, length_word] at hlen
  obtain ⟨h₁, h₂⟩ := hl
  have hfit : (encode l.parts).length < 2 ^ 256 := by omega
  have hparts := encode_inj (.cons (.word _ _) (.cons (.word _ _) (.cons (.tail _ _) (.cons (.word _ _)
    (.cons (.word _ _) (.cons (.tail _ _) .nil)))))) (refundWords_fit l) (refundWords_fit l') hfit (encode_tail_inj h)
  obtain ⟨a₁, a₂, a₃, a₄, a₅, a₆⟩ := l
  obtain ⟨b₁, b₂, b₃, b₄, b₅, b₆⟩ := l'
  simp only [List.cons.injEq, and_true] at hparts
  obtain ⟨e₁, e₂, e₃, e₄, e₅, e₆⟩ := hparts
  obtain rfl := word_inj e₁
  obtain rfl := word_inj e₂
  obtain rfl := tailArray_inj (by decide) e₃
  obtain rfl := word_inj e₄
  obtain rfl := word_inj e₅
  obtain rfl := tailArray_inj (by decide) e₆
  rfl

end RelayerRefund

section SlowFill

def encodeSlow (f : V3SlowFill) : Bytes := encode [.tail (encode f.parts)]

variable {f f' : V3SlowFill}

theorem length_encodeRelay (r : V3RelayData) : (encode r.parts).length =
    416 + (r.message.val.length + padding r.message.val.length) := by
  rw [V3RelayData.encode_parts, List.length_append, length_words, length_encodeBytes, List.length_append]
  simp only [V3RelayData.members, List.length_cons, List.length_nil]
  omega

theorem length_encodeSlow (f : V3SlowFill) : (encodeSlow f).length =
    544 + (f.relayData.message.val.length + padding f.relayData.message.val.length) := by
  have hr := length_encodeRelay f.relayData
  rw [length_encode] at hr
  simp only [encodeSlow, V3SlowFill.parts, length_encode, tails, List.length_append, List.length_cons, List.length_nil]
  omega

theorem padding_lt (n : Nat) : padding n < 32 := Nat.mod_lt _ (by decide)

theorem encodeRelay_inj {r r' : V3RelayData} (h : encode r.parts = encode r'.parts) : r = r' :=
  Option.some.inj ((decodeRelayData_encode r).symm.trans
    ((congrArg (decodeRelayData · 0) h).trans (decodeRelayData_encode r')))

theorem slowWords_fit (f : V3SlowFill) : WordsFit f.parts := by
  intro n hn
  simp only [V3SlowFill.parts, List.mem_cons, Part.word.injEq, reduceCtorEq, false_or, or_false, List.not_mem_nil] at hn
  rcases hn with rfl | rfl
  · exact toNat_lt (by decide) _
  · exact toNat_lt (by decide) _

theorem encodeSlow_inj (h : encodeSlow f = encodeSlow f') : f = f' := by
  have hlen := length_encodeSlow f
  have hpad := padding_lt f.relayData.message.val.length
  have hmessage := f.relayData.message.property
  rw [encodeSlow, encode_tail, List.length_append, length_word] at hlen
  have hfit : (encode f.parts).length < 2 ^ 256 := by omega
  have hparts := encode_inj (.cons (.tail _ _) (.cons (.word _ _) (.cons (.word _ _) .nil))) (slowWords_fit f)
    (slowWords_fit f') hfit (encode_tail_inj h)
  obtain ⟨r, c, n⟩ := f
  obtain ⟨r', c', n'⟩ := f'
  simp only [List.cons.injEq, and_true] at hparts
  obtain ⟨e₁, e₂, e₃⟩ := hparts
  obtain rfl := encodeRelay_inj (Part.tail.inj e₁)
  obtain rfl := word_inj e₂
  obtain rfl := word_inj e₃
  rfl

end SlowFill

section Theorems

/-- The three checks accept the leaves of every tree with their siblings and, up
to a collision of the hash, nothing else: the encodings differ for different
leaves, also when their arrays are of different lengths, and none has the length
of two nodes. -/
theorem checks_authorise (t : MerkleTree.Tree PoolRebalanceLeaf) (ht : ∀ l ∈ t.leaves, FitsPool l)
    (s : MerkleTree.Tree RelayerRefundLeaf) (hs : ∀ l ∈ s.leaves, FitsRefund l) (f : MerkleTree.Tree V3SlowFill) :
    Authorises encodePool FitsPool verifyPoolRebalance t ∧ Authorises encodeRefund FitsRefund verifyRelayerRefund s ∧
    Authorises encodeSlow (fun _ => True) verifyV3SlowRelayFulfillment f ∧
    (∀ l l', FitsPool l → encodePool l = encodePool l' → l = l') ∧
    (∀ l l', FitsRefund l → encodeRefund l = encodeRefund l' → l = l') ∧
    (∀ g g', encodeSlow g = encodeSlow g' → g = g') ∧
    (∀ l, (encodePool l).length ≠ 64) ∧ (∀ l, (encodeRefund l).length ≠ 64) ∧ ∀ g, (encodeSlow g).length ≠ 64 := by
  have hpool : ∀ l, (encodePool l).length ≠ 64 := by
    intro l
    rw [length_encodePool]
    omega
  have hrefund : ∀ l, (encodeRefund l).length ≠ 64 := by
    intro l
    rw [length_encodeRefund]
    omega
  have hslow : ∀ g, (encodeSlow g).length ≠ 64 := by
    intro g
    rw [length_encodeSlow]
    omega
  refine ⟨?_, ?_, ?_, fun l l' hl h => encodePool_inj hl h, fun l l' hl h => encodeRefund_inj hl h,
    fun g g' h => encodeSlow_inj h, hpool, hrefund, hslow⟩
  · exact authorises (fun l l' hl _ h => encodePool_inj hl h) (fun l _ => hpool l) (fun r l p => decide_eq_true_iff) ht
  · exact authorises (fun l l' hl _ h => encodeRefund_inj hl h) (fun l _ => hrefund l)
      (fun r l p => decide_eq_true_iff) hs
  · exact authorises (fun g g' _ _ h => encodeSlow_inj h) (fun g _ => hslow g) (fun r g p => decide_eq_true_iff)
      fun _ _ => trivial

def samplePool : PoolRebalanceLeaf := ⟨10, [3], [50], [-20], 0, 0, [5]⟩

def sampleOtherPool : PoolRebalanceLeaf := ⟨11, [], [], [], 0, 1, []⟩

def sampleRefund : RelayerRefundLeaf := ⟨7, 10, [5], 0, 5, [21]⟩

def sampleSlow : V3SlowFill := ⟨⟨1, 2, 0, 4, 5, 10, 9, 1, 0, 100, 0, ⟨[1], by decide⟩⟩, 10, 9⟩

theorem samplePool_authorised :
    verifyPoolRebalance ((MerkleTree.Tree.node (.leaf samplePool) (.leaf sampleOtherPool)).root encodePool) samplePool
      [keccak256 (encodePool sampleOtherPool)] = true ∧
    verifyRelayerRefund ((MerkleTree.Tree.leaf sampleRefund).root encodeRefund) sampleRefund [] = true ∧
    verifyV3SlowRelayFulfillment ((MerkleTree.Tree.leaf sampleSlow).root encodeSlow) sampleSlow [] = true := by
  have hpool : ∀ l ∈ (MerkleTree.Tree.node (.leaf samplePool) (.leaf sampleOtherPool)).leaves, FitsPool l := by
    intro l hl
    rcases List.mem_cons.mp hl with rfl | hl
    · decide
    · obtain rfl := List.mem_singleton.mp hl
      decide
  have hrefund : ∀ l ∈ (MerkleTree.Tree.leaf sampleRefund).leaves, FitsRefund l := by
    intro l hl
    obtain rfl := List.mem_singleton.mp hl
    decide
  obtain ⟨ht, hs, hf, -⟩ := checks_authorise _ hpool _ hrefund (.leaf sampleSlow)
  exact ⟨ht.complete samplePool _ (.left (.leaf samplePool)), hs.complete sampleRefund [] (.leaf sampleRefund),
    hf.complete sampleSlow [] (.leaf sampleSlow)⟩

end Theorems

end Across.MerkleLib
