import Across.MerkleTree
import Across.SvmSteps

namespace Across.SvmLeaves

open WordBytes Borsh Keccak MerkleProof MerkleTree CallExec CallExec.Exec SvmTypes SvmState SvmProgram SvmSteps

section Encodings

def Balanced (l : RelayerRefundLeaf) : Prop := l.refundAccounts.length = l.refundAmounts.length

variable {α : Type} {f : α → Bytes}

theorem length_flatMap_const {k : Nat} (hf : ∀ a, (f a).length = k) (as : List α) :
    (as.flatMap f).length = k * as.length := by
  induction as with
  | nil => rfl
  | cons a as ih =>
      rw [List.flatMap_cons, List.length_append, hf, ih, List.length_cons]
      ring

theorem flatMap_append_inj (hf : ∀ {a b xs ys}, f a ++ xs = f b ++ ys → a = b ∧ xs = ys) {as bs : List α}
    {xs ys : Bytes}
    (hl : as.length = bs.length) (h : as.flatMap f ++ xs = bs.flatMap f ++ ys) : as = bs ∧ xs = ys := by
  induction as generalizing bs with
  | nil =>
      obtain rfl := List.length_eq_zero_iff.mp hl.symm
      exact ⟨rfl, h⟩
  | cons a as ih =>
      cases bs with
      | nil => cases hl
      | cons b bs =>
          rw [List.flatMap_cons, List.flatMap_cons, List.append_assoc, List.append_assoc] at h
          obtain ⟨rfl, hrest⟩ := hf h
          obtain ⟨rfl, hend⟩ := ih (Nat.succ.inj hl) hrest
          exact ⟨rfl, hend⟩

@[simp] theorem length_pubkeyBytes (k : Pubkey) : (pubkeyBytes k).length = 32 := length_toBE 32 _

@[simp] theorem length_u64Bytes (n : U64) : (u64Bytes n).length = 8 := length_toLE 8 _

@[simp] theorem length_u32Bytes (n : U32) : (u32Bytes n).length = 4 := length_toLE 4 _

theorem length_refundLeaf {l : RelayerRefundLeaf} (h : Balanced l) :
    l.toBytes.length = 52 + 40 * l.refundAmounts.length := by
  have hb : l.refundAccounts.length = l.refundAmounts.length := h
  simp only [RelayerRefundLeaf.toBytes, List.length_append, length_u64Bytes, length_u32Bytes, length_pubkeyBytes,
    length_flatMap_const length_u64Bytes, length_flatMap_const length_pubkeyBytes, hb]
  omega

theorem length_slowFill (s : V3SlowFill) : s.toBytes.length = 212 + s.relayData.message.val.length := by
  simp only [V3SlowFill.toBytes, List.length_append, length_u64Bytes, length_u32Bytes, length_pubkeyBytes]
  omega

/-- The length of the string tells the lists apart. -/
theorem refundLeaf_inj {l l' : RelayerRefundLeaf} (hl : Balanced l) (hl' : Balanced l') (h : l.toBytes = l'.toBytes) :
    l = l' := by
  have hlen := congrArg List.length h
  rw [length_refundLeaf hl, length_refundLeaf hl'] at hlen
  have hamounts : l.refundAmounts.length = l'.refundAmounts.length := by omega
  have haccounts : l.refundAccounts.length = l'.refundAccounts.length := hl.trans (hamounts.trans hl'.symm)
  obtain ⟨a₁, a₂, a₃, a₄, a₅, a₆⟩ := l
  obtain ⟨b₁, b₂, b₃, b₄, b₅, b₆⟩ := l'
  simp only [RelayerRefundLeaf.toBytes, List.append_assoc] at h
  obtain ⟨rfl, h₁⟩ := u64Bytes_append_inj h
  obtain ⟨rfl, h₂⟩ := u64Bytes_append_inj h₁
  obtain ⟨rfl, h₃⟩ := flatMap_append_inj u64Bytes_append_inj hamounts h₂
  obtain ⟨rfl, h₄⟩ := u32Bytes_append_inj h₃
  obtain ⟨rfl, h₅⟩ := pubkeyBytes_append_inj h₄
  rw [← List.append_nil (a₆.flatMap pubkeyBytes), ← List.append_nil (b₆.flatMap pubkeyBytes)] at h₅
  obtain ⟨rfl, -⟩ := flatMap_append_inj pubkeyBytes_append_inj haccounts h₅
  rfl

/-- The length of the string tells where the message ends. -/
theorem slowFill_inj {s s' : V3SlowFill} (h : s.toBytes = s'.toBytes) : s = s' := by
  have hlen := congrArg List.length h
  rw [length_slowFill, length_slowFill] at hlen
  obtain ⟨⟨a₁, a₂, a₃, a₄, a₅, a₆, a₇, a₈, a₉, a₁₀, a₁₁, m₁, hm₁⟩, c₁, n₁⟩ := s
  obtain ⟨⟨b₁, b₂, b₃, b₄, b₅, b₆, b₇, b₈, b₉, b₁₀, b₁₁, m₂, hm₂⟩, c₂, n₂⟩ := s'
  have hmessage : m₁.length = m₂.length := Nat.add_left_cancel hlen
  simp only [V3SlowFill.toBytes, List.append_assoc] at h
  obtain ⟨rfl, h₁⟩ := pubkeyBytes_append_inj h
  obtain ⟨rfl, h₂⟩ := pubkeyBytes_append_inj h₁
  obtain ⟨rfl, h₃⟩ := pubkeyBytes_append_inj h₂
  obtain ⟨rfl, h₄⟩ := pubkeyBytes_append_inj h₃
  obtain ⟨rfl, h₅⟩ := pubkeyBytes_append_inj h₄
  obtain ⟨rfl, h₆⟩ := u64Bytes_append_inj h₅
  obtain ⟨rfl, h₇⟩ := u64Bytes_append_inj h₆
  obtain ⟨rfl, h₈⟩ := u64Bytes_append_inj h₇
  obtain ⟨rfl, h₉⟩ := u32Bytes_append_inj h₈
  obtain ⟨rfl, h₁₀⟩ := u32Bytes_append_inj h₉
  obtain ⟨rfl, h₁₁⟩ := u32Bytes_append_inj h₁₀
  obtain ⟨rfl, h₁₂⟩ := List.append_inj h₁₁ hmessage
  obtain ⟨rfl, h₁₃⟩ := u64Bytes_append_inj h₁₂
  rw [← List.append_nil (u64Bytes n₁), ← List.append_nil (u64Bytes n₂)] at h₁₃
  obtain ⟨rfl, -⟩ := u64Bytes_append_inj h₁₃
  rfl

end Encodings

section Theorems

variable {W : Type} {R : Runtime W} {b b' : Bank W} {u : Unit}

theorem Path.verifies {α : Type} {enc : α → Bytes} {t : MerkleTree.Tree α} {a : α} {p : List Hash}
    (h : Path enc t a p) : verifyMerkleProof (t.root enc) (keccak256 (enc a)) p = true := decide_eq_true h.processProof

/-- What `executeV3SlowRelayLeaf` checks: the leaf it hashes has the chain of the state. -/
theorem executeV3SlowRelayLeaf_verified {x : ExecuteV3SlowRelayLeaf} (h : Ok (executeV3SlowRelayLeaf R x) b u b') :
    ∃ r, b.rootBundles x.rootBundleId = some r ∧ verifyMerkleProof r.slowRelayRoot
      (V3SlowFill.toKeccakHash ⟨x.slowFillLeaf.relayData, b.state.chainId, x.slowFillLeaf.updatedOutputAmount⟩)
      x.proof = true := by
  simp only [executeV3SlowRelayLeaf, read_bind_ok, loaded_bind_ok, require_bind_ok, checkMint_bind_ok,
    checkAssociated_bind_ok, getCurrentTime_bind_ok] at h
  obtain ⟨r, hr, -, -, -, -, -, -, hv, -⟩ := h
  exact ⟨r, hr, hv⟩

/-- The leaves of every tree are accepted with their siblings. What is executed
against the root of a tree is one of its leaves, in every field, unless the
tree and the proof show a collision. The chain of a slow fill is the one of the
state, which replaces that of the caller. -/
theorem leaves_authorised (t : MerkleTree.Tree RelayerRefundLeaf) (ht : ∀ l ∈ t.leaves, Balanced l)
    (s : MerkleTree.Tree V3SlowFill) :
    (∀ l ∈ t.leaves, ∃ p, Path RelayerRefundLeaf.toBytes t l p) ∧ (∀ f ∈ s.leaves, ∃ p, Path V3SlowFill.toBytes s f p) ∧
    (∀ l p, Path RelayerRefundLeaf.toBytes t l p →
      verifyMerkleProof (t.root RelayerRefundLeaf.toBytes) l.toKeccakHash p = true) ∧
    (∀ f p, Path V3SlowFill.toBytes s f p → verifyMerkleProof (s.root V3SlowFill.toBytes) f.toKeccakHash p = true) ∧
    (∀ l l', Balanced l → Balanced l' → l.toBytes = l'.toBytes → l = l') ∧
    (∀ f f' : V3SlowFill, f.toBytes = f'.toBytes → f = f') ∧
    (∀ l, Balanced l → l.toBytes.length ≠ 64) ∧ (∀ f : V3SlowFill, f.toBytes.length ≠ 64) ∧
    ∀ {W : Type} (R : Runtime W) (b b' : Bank W) (r : RootBundle),
      (∀ x, Ok (executeRelayerRefundLeaf R x) b () b' → b.rootBundles x.rootBundleId = some r →
        r.relayerRefundRoot = t.root RelayerRefundLeaf.toBytes →
        x.relayerRefundLeaf ∈ t.leaves ∨ Collides RelayerRefundLeaf.toBytes t x.proof x.relayerRefundLeaf.toBytes) ∧
      ∀ x, Ok (executeV3SlowRelayLeaf R x) b () b' → b.rootBundles x.rootBundleId = some r →
        r.slowRelayRoot = s.root V3SlowFill.toBytes →
        let f : V3SlowFill := ⟨x.slowFillLeaf.relayData, b.state.chainId, x.slowFillLeaf.updatedOutputAmount⟩
        f ∈ s.leaves ∨ Collides V3SlowFill.toBytes s x.proof f.toBytes := by
  have hrefund : ∀ l, Balanced l → l.toBytes.length ≠ 64 := by
    intro l hl
    rw [length_refundLeaf hl]
    omega
  have hslow : ∀ f : V3SlowFill, f.toBytes.length ≠ 64 := by
    intro f
    rw [length_slowFill]
    omega
  refine ⟨fun l hl => Path.exists _ hl, fun f hf => Path.exists _ hf, fun l p hp => Path.verifies hp,
    fun f p hp => Path.verifies hp, fun l l' hl hl' h => refundLeaf_inj hl hl' h, fun f f' h => slowFill_inj h, hrefund,
    hslow, fun R b b' r => ⟨fun x hx hr hroot => ?_, fun x hx hr hroot => ?_⟩⟩
  · have he := executeRelayerRefundLeaf_ok hx
    have hb : Balanced x.relayerRefundLeaf := he.lengths
    obtain ⟨r', hr', hv, -⟩ := he.bundle
    obtain rfl := Option.some.inj (hr.symm.trans hr')
    have hroot' := (of_decide_eq_true hv).trans hroot
    rcases mem_leaves_or_collides (fun l hl => hrefund l (ht l hl)) (hrefund _ hb) hroot' with ⟨l, hl, he⟩ | hc
    · left
      rwa [← refundLeaf_inj (ht l hl) hb he]
    · exact .inr hc
  · obtain ⟨r', hr', hv⟩ := executeV3SlowRelayLeaf_verified hx
    obtain rfl := Option.some.inj (hr.symm.trans hr')
    have hroot' := (of_decide_eq_true hv).trans hroot
    rcases mem_leaves_or_collides (fun f _ => hslow f) (hslow _) hroot' with ⟨f, hf, he⟩ | hc
    · left
      rwa [← slowFill_inj he]
    · exact .inr hc

def sampleRelay : V3RelayData := ⟨21, 22, 0, 5, 5, 10, 9, 1, 0, 100, 0, ⟨[], nil_fits⟩⟩

def sampleSlowFill : V3SlowFill := ⟨sampleRelay, 7, 9⟩

def sampleHash : Hash := getV3RelayHash sampleRelay 7

/-- The root is that of one slow fill for chain 7, and its relay has been requested. -/
def sampleRequested : Bank (Pubkey → Nat) where
  clock := 10
  state := sampleBank.state
  fillStatuses := Function.update sampleBank.fillStatuses sampleHash (some ⟨.requestedSlowFill, 31⟩)
  rootBundles := Function.update sampleBank.rootBundles 0
    (some ⟨0, (MerkleTree.Tree.leaf sampleSlowFill).root V3SlowFill.toBytes, [], 77⟩)
  claimAccounts := sampleBank.claimAccounts
  transferLiabilities := sampleBank.transferLiabilities
  rest := sampleBank.rest
  trace := []

/-- The caller writes chain 8 into the leaf. -/
def sampleExecution : ExecuteV3SlowRelayLeaf := ⟨32, 5, 1022, 1001, 6, sampleHash, ⟨sampleRelay, 8, 9⟩, 0, []⟩

theorem sampleRequested_bundle : sampleRequested.rootBundles sampleExecution.rootBundleId =
    some ⟨0, (MerkleTree.Tree.leaf sampleSlowFill).root V3SlowFill.toBytes, [], 77⟩ := rfl

theorem sampleRequested_status : sampleRequested.fillStatuses sampleExecution.relayHash =
    some ⟨.requestedSlowFill, 31⟩ := Function.update_self _ _ _

theorem sampleExecution_ok : ∃ b', Ok (executeV3SlowRelayLeaf sampleRuntime sampleExecution) sampleRequested () b' := by
  have hproof : verifyMerkleProof ((MerkleTree.Tree.leaf sampleSlowFill).root V3SlowFill.toBytes)
      (V3SlowFill.toKeccakHash ⟨sampleRelay, 7, 9⟩) [] = true := decide_eq_true rfl
  simp only [executeV3SlowRelayLeaf, read_bind_ok, loaded_bind_ok, require_bind_ok, checkMint_bind_ok,
    checkAssociated_bind_ok, getCurrentTime_bind_ok, transferChecked, invoke_bind_ok, setFillStatus, emit,
    update_bind_ok, update_ok]
  exact ⟨_, _, sampleRequested_bundle, _, sampleRequested_status, rfl, ⟨rfl, rfl⟩, ⟨rfl, _, rfl, rfl, rfl⟩,
    ⟨rfl, _, rfl, rfl, rfl⟩, hproof, by decide, by decide, _, rfl, rfl⟩

/-- The execution succeeds, its leaf is not in the tree, and there is no collision. -/
theorem sampleExecution_other_chain : ∃ r b', Ok
    (executeV3SlowRelayLeaf sampleRuntime sampleExecution) sampleRequested () b' ∧
    sampleRequested.rootBundles sampleExecution.rootBundleId = some r ∧
    r.slowRelayRoot = (MerkleTree.Tree.leaf sampleSlowFill).root V3SlowFill.toBytes ∧
    sampleExecution.slowFillLeaf ∉ (MerkleTree.Tree.leaf sampleSlowFill).leaves ∧
    ¬ Collides V3SlowFill.toBytes (.leaf sampleSlowFill) sampleExecution.proof sampleSlowFill.toBytes := by
  obtain ⟨b', hok⟩ := sampleExecution_ok
  refine ⟨_, b', hok, sampleRequested_bundle, rfl, fun hmem => ?_, fun ⟨y, hy, z, hz, hne, _⟩ => ?_⟩
  · have hchain := congrArg V3SlowFill.chainId (List.mem_singleton.mp hmem)
    exact absurd hchain (by decide)
  · exact hne ((List.mem_singleton.mp hy).trans (List.mem_singleton.mp hz).symm)

def sampleRefund : RelayerRefundLeaf := ⟨0, 7, [10, 20], 0, 5, [21, 22]⟩

def sampleReturn : RelayerRefundLeaf := ⟨30, 7, [], 1, 5, []⟩

/-- Both leaves of a tree are accepted, and the slow fill above is executed for the
chain of the state. -/
theorem sampleLeaves_authorised :
    verifyMerkleProof ((MerkleTree.Tree.node (.leaf sampleRefund) (.leaf sampleReturn)).root RelayerRefundLeaf.toBytes)
      sampleRefund.toKeccakHash [sampleReturn.toKeccakHash] = true ∧
    verifyMerkleProof ((MerkleTree.Tree.node (.leaf sampleRefund) (.leaf sampleReturn)).root RelayerRefundLeaf.toBytes)
      sampleReturn.toKeccakHash [sampleRefund.toKeccakHash] = true ∧
    (sampleSlowFill ∈ (MerkleTree.Tree.leaf sampleSlowFill).leaves ∨
      Collides V3SlowFill.toBytes (.leaf sampleSlowFill) [] sampleSlowFill.toBytes) := by
  have hbalanced : ∀ l ∈ (MerkleTree.Tree.node (.leaf sampleRefund) (.leaf sampleReturn)).leaves, Balanced l := by
    intro l hl
    rcases List.mem_cons.mp hl with rfl | hl
    · rfl
    · obtain rfl := List.mem_singleton.mp hl
      rfl
  obtain ⟨-, -, haccept, -, -, -, -, -, hexec⟩ := leaves_authorised _ hbalanced (.leaf sampleSlowFill)
  obtain ⟨b', hok⟩ := sampleExecution_ok
  exact ⟨haccept sampleRefund _ (Path.left (.leaf sampleRefund)), haccept sampleReturn _
    (Path.right (.leaf sampleReturn)),
    (hexec sampleRuntime sampleRequested b' _).2 sampleExecution hok sampleRequested_bundle rfl⟩

end Theorems

end Across.SvmLeaves
