import Across.SpokeBooks
import Across.SpokeFunds

namespace Across.RefundLeaves

open Abi Keccak MerkleProof CallExec CallExec.Exec Erc20 SpokeTypes SpokeState SpokePool SpokeRules SpokeLedger
  SpokeBooks SpokeFunds

variable {W : Type}

/-- The byte strings that are hashed to check that a leaf belongs to a bundle. -/
def hashedFor (leaf : RelayerRefundLeaf) (proof : List Bytes32) : List WordBytes.Bytes :=
  encode [.tail (encode leaf.parts)] :: hashed proof (keccak256 (encode [.tail (encode leaf.parts)]))

/-- None of what a call hashes for its proof is a preimage of zero. -/
def hashesNonzero : Call → Bool
  | .executeRelayerRefundLeaf _ leaf proof => (hashedFor leaf proof).all fun bs => decide (keccak256 bs ≠ 0)
  | _ => true

theorem verifyRelayerRefund_zero {leaf : RelayerRefundLeaf} {proof : List Bytes32}
    (h : verifyRelayerRefund 0 leaf proof = true) : ∃ bs ∈ hashedFor leaf proof, keccak256 bs = 0 := by
  rcases exists_hashed_of_processProof (of_decide_eq_true h) with hz | ⟨bs, hbs, hz⟩
  · exact ⟨_, List.mem_cons_self, hz⟩
  · exact ⟨bs, List.mem_cons_of_mem _ hbs, hz⟩

theorem not_verify_zero {i : Uint32} {leaf : RelayerRefundLeaf} {proof : List Bytes32}
    (h : hashesNonzero (.executeRelayerRefundLeaf i leaf proof) = true) : verifyRelayerRefund 0 leaf proof = false := by
  rw [Bool.eq_false_iff]
  intro hv
  obtain ⟨bs, hbs, hz⟩ := verifyRelayerRefund_zero hv
  have hall := List.all_eq_true.mp h bs hbs
  exact of_decide_eq_true hall hz

section Refunds

def refunds (leaf : RelayerRefundLeaf) : List (Address × Uint256) := leaf.refundAddresses.zip leaf.refundAmounts

def received (a : Address) (rs : List (Address × Uint256)) : Nat :=
  (rs.map fun r => if r.1 = a then r.2.toNat else 0).sum

def total (rs : List (Address × Uint256)) : Nat := (rs.map fun r => r.2.toNat).sum

/-- The calls that pay a list of refunds. Nothing is sent for a refund of zero. -/
def payments (token : Address) (rs : List (Address × Uint256)) : List TraceItem :=
  (rs.filter fun r => decide (0 < r.2.toNat)).map fun r => .external none (.safeTransfer token r.1 r.2)

variable {V : Variant W} {H : Host W} {token : Address} {book : W → Token Address} {enter : Msg → Call → Code W Unit}
  {s s' : World W} {u : Unit}

theorem refunds_paid (ht : StandardToken V H token book) {rs : List (Address × Uint256)}
    (hrs : ∀ r ∈ rs, r.1 ≠ V.self)
    (h : Ok (forEach (fun r : Address × Uint256 => if 0 < r.2.toNat then
      safeTransfer H (externalCall H enter) none token r.1 r.2 else Pure.pure ()) rs) s u s') :
    s'.trace = s.trace ++ payments token rs ∧
      (∀ a, a ≠ V.self → tokens book s'.rest a = tokens book s.rest a + received a rs) ∧
      tokens book s.rest V.self = tokens book s'.rest V.self + total rs := by
  induction rs generalizing s with
  | nil =>
      obtain rfl := (forEach_nil_ok _ _ _ _).mp h
      exact ⟨(List.append_nil _).symm, fun _ _ => rfl, rfl⟩
  | cons r rs ih =>
      obtain ⟨t, hr, h⟩ := (forEach_cons_ok _ _ _ _ _ _).mp h
      obtain ⟨htrace, hother, hself⟩ := ih (fun q hq => hrs q (List.mem_cons_of_mem _ hq)) h
      have hne : r.1 ≠ V.self := hrs r List.mem_cons_self
      by_cases hpos : 0 < r.2.toNat
      · rw [if_pos hpos] at hr
        obtain ⟨hmove, w, rfl⟩ := safeTransfer_moves ht hr
        obtain ⟨-, -, hbal⟩ := transfer_some hmove
        refine ⟨?_, fun a ha => ?_, ?_⟩
        · rw [htrace]
          simp [payments, hpos]
        · have hb := hbal a
          rw [if_neg ha, Nat.add_zero] at hb
          rw [hother a ha, tokens, hb, received, received, List.map_cons, List.sum_cons]
          simp only [tokens, eq_comm (a := a)]
          omega
        · have hb := hbal V.self
          rw [if_pos rfl, if_neg hne.symm, Nat.add_zero] at hb
          rw [total, List.map_cons, List.sum_cons]
          rw [tokens, total] at hself
          rw [tokens, ← hb, hself]
          omega
      · rw [if_neg hpos] at hr
        obtain ⟨-, rfl⟩ := (pure_ok _ _ _ _).mp hr
        have hz : r.2.toNat = 0 := Nat.eq_zero_of_not_pos hpos
        refine ⟨?_, fun a ha => ?_, ?_⟩
        · rw [htrace]
          simp [payments, hz]
        · rw [hother a ha, received, received, List.map_cons, List.sum_cons, hz, ite_self, Nat.zero_add]
        · rw [hself, total, total, List.map_cons, List.sum_cons, hz, Nat.zero_add]

end Refunds

section Executions

/-- The bridge of the chain takes exactly what it is handed. -/
def BridgeTakes (V : Variant W) (H : Host W) (token : Address) (book : W → Token Address) : Prop :=
  ∀ k msg amount s s', Ok (bridgeTokensToHubPool V (externalCall H (enter H (exec V H k))) msg amount token) s () s' →
      tokens book s.rest V.self = tokens book s'.rest V.self + amount.toNat

/-- What the execution of a leaf does with the token. From the state `s₁` that
the chain's hook leaves, every address is sent its amounts, then the bridge is
handed the amount to return, and the pool is left with less by exactly their sum. -/
structure Pays (V : Variant W) (H : Host W) (book : W → Token Address) (k : Nat) (msg : Msg)
    (leaf : RelayerRefundLeaf) (s s₁ s₂ s₃ s' : World W) : Prop where
  lengths : leaf.refundAddresses.length = leaf.refundAmounts.length
  hook : Ok (forEach (externalCall H (enter H (exec V H k)) none) (V.preExecuteLeafHook leaf.l2TokenAddress
    { s with pool := { s.pool with entered := true } })) { s with pool := { s.pool with entered := true } } () s₁
  payments : s₂.trace = s₁.trace ++ payments leaf.l2TokenAddress (refunds leaf)
  refunded : ∀ a, a ≠ V.self → tokens book s₂.rest a = tokens book s₁.rest a + received a (refunds leaf)
  returned : if 0 < leaf.amountToReturn.toNat then
    Ok (bridgeTokensToHubPool V (externalCall H (enter H (exec V H k))) msg leaf.amountToReturn
      leaf.l2TokenAddress) s₂ () s₃ else s₃ = s₂
  taken : tokens book s₁.rest V.self =
    tokens book s'.rest V.self + (total (refunds leaf) + leaf.amountToReturn.toNat)
  rest : s'.rest = s₃.rest

variable {V : Variant W} {H : Host W} {book : W → Token Address} {s s' : World W} {msg : Msg} {i : Uint32}
  {leaf : RelayerRefundLeaf} {proof : List Bytes32}

theorem setClaimedLeaf_rest {l : Uint32} {u : Unit} (h : Ok (setClaimedLeaf i l) s u s') :
    s'.rest = s.rest ∧ s'.trace = s.trace := by
  simp only [setClaimedLeaf, bind_ok, read_ok] at h
  obtain ⟨_, _, ⟨rfl, rfl⟩, h⟩ := h
  cases hb : s.pool.rootBundles[i.toNat]? with
  | none =>
      rw [hb] at h
      exact ((revert_ok _ _ _ _).mp h).elim
  | some b =>
      simp only [hb, setPool, bind_ok, require_ok, update_ok] at h
      obtain ⟨_, _, ⟨-, rfl⟩, rfl⟩ := h
      exact ⟨rfl, rfl⟩

/-- The parts of an execution: the chain's hook, the claim, the refunds one by one, and
the bridge. -/
structure Parts (V : Variant W) (H : Host W) (k : Nat) (msg : Msg) (leaf : RelayerRefundLeaf)
    (s s₁ s₂ s₃ s₄ s' : World W) : Prop where
  lengths : leaf.refundAddresses.length = leaf.refundAmounts.length
  hook : Ok (forEach (externalCall H (enter H (exec V H k)) none) (V.preExecuteLeafHook leaf.l2TokenAddress
    { s with pool := { s.pool with entered := true } })) { s with pool := { s.pool with entered := true } } () s₁
  claimed : s₂.rest = s₁.rest ∧ s₂.trace = s₁.trace
  refunds : Ok (forEach (fun r : Address × Uint256 => if 0 < r.2.toNat then
    safeTransfer H (externalCall H (enter H (exec V H k))) none leaf.l2TokenAddress r.1 r.2 else Pure.pure ())
    (refunds leaf)) s₂ () s₃
  bridged : if 0 < leaf.amountToReturn.toNat then
    Ok (bridgeTokensToHubPool V (externalCall H (enter H (exec V H k))) msg leaf.amountToReturn
      leaf.l2TokenAddress) s₃ () s₄ else s₄ = s₃
  rest : s'.rest = s₄.rest
  trace : ∃ t, s'.trace = s₄.trace ++ t

theorem execution_parts {k : Nat} (h : Ok (exec V H k msg (.executeRelayerRefundLeaf i leaf proof)) s () s') :
    ∃ j s₁ s₂ s₃ s₄, Parts V H j msg leaf s s₁ s₂ s₃ s₄ s' := by
  cases k with
  | zero => exact ((revert_ok _ _ _ _).mp h).elim
  | succ j =>
      obtain ⟨t, hbody, rfl⟩ := nonReentrant_ok (onlyEOA_ok (exec_dispatch h))
      simp only [bind_ok, read_ok, require_ok] at hbody
      obtain ⟨_, _, ⟨rfl, rfl⟩, _, s₁, hhook, _, _, ⟨-, rfl⟩, _, _, ⟨rfl, rfl⟩, hbody⟩ := hbody
      cases hr : s₁.pool.rootBundles[i.toNat]? with
      | none =>
          rw [hr] at hbody
          exact ((revert_ok _ _ _ _).mp hbody).elim
      | some b =>
          simp only [hr, bind_ok, require_ok, distributeRelayerRefunds, emit, update_ok] at hbody
          obtain ⟨_, _, ⟨-, rfl⟩, _, s₂, hclaim, _, t', ⟨_, _, ⟨hlen, rfl⟩, _, s₃, hpay, hbridge⟩, rfl⟩ := hbody
          by_cases hpos : 0 < leaf.amountToReturn.toNat
          · rw [if_pos hpos] at hbridge
            simp only [bind_ok, update_ok] at hbridge
            obtain ⟨_, s₄, hbr, rfl⟩ := hbridge
            refine ⟨j, s₁, s₂, s₃, s₄, hlen, hhook, setClaimedLeaf_rest hclaim, hpay, ?_, rfl, _,
              List.append_assoc _ _ _⟩
            rw [if_pos hpos]
            exact hbr
          · rw [if_neg hpos] at hbridge
            obtain ⟨-, rfl⟩ := (pure_ok _ _ _ _).mp hbridge
            refine ⟨j, s₁, s₂, s₃, s₃, hlen, hhook, setClaimedLeaf_rest hclaim, hpay, ?_, rfl, _, rfl⟩
            rw [if_neg hpos]

theorem execution_pays {k : Nat} (ht : StandardToken V H leaf.l2TokenAddress book)
    (hb : BridgeTakes V H leaf.l2TokenAddress book) (hself : ∀ a ∈ leaf.refundAddresses, a ≠ V.self)
    (h : Ok (exec V H k msg (.executeRelayerRefundLeaf i leaf proof)) s () s') :
    ∃ j s₁ s₂ s₃, Pays V H book j msg leaf s s₁ s₂ s₃ s' := by
  obtain ⟨j, s₁, s₂, s₃, s₄, hp⟩ := execution_parts h
  obtain ⟨hrest, htrace⟩ := hp.claimed
  have hrs : ∀ r ∈ refunds leaf, r.1 ≠ V.self := fun r hr => hself r.1 (List.of_mem_zip hr).1
  obtain ⟨hpaid, hother, htaken⟩ := refunds_paid ht hrs hp.refunds
  rw [htrace] at hpaid
  rw [hrest] at hother htaken
  refine ⟨j, s₁, s₃, s₄, hp.lengths, hp.hook, hpaid, hother, hp.bridged, ?_, hp.rest⟩
  have hbridged := hp.bridged
  by_cases hpos : 0 < leaf.amountToReturn.toNat
  · rw [if_pos hpos] at hbridged
    rw [htaken, hb j _ _ _ _ hbridged, hp.rest]
    exact Nat.add_right_comm _ _ _ |>.trans (Nat.add_assoc _ _ _)
  · rw [if_neg hpos] at hbridged
    rw [htaken, hp.rest, hbridged, Nat.eq_zero_of_not_pos hpos]
    rfl

/-- An execution leaves its record, so counting the records counts the payments. -/
theorem execution_recorded {k : Nat} (h : Ok (exec V H k msg (.executeRelayerRefundLeaf i leaf proof)) s () s') :
    ∃ t, s'.trace = s.trace ++ t ∧ executions i leaf.leafId t = [leaf] := by
  cases k with
  | zero => exact ((revert_ok _ _ _ _).mp h).elim
  | succ j =>
      have hn := enter_keeps (H := H) (books_blind fun _ _ => True).base (books_blind fun _ _ => True).rest
        (exec_books (fun _ _ => True) V H j)
      have he := executeRelayerRefundLeaf_books hn trivial ⟨onlyEOA_ok (exec_dispatch h), fun _ _ => trivial⟩
      obtain ⟨t, ht, hq⟩ := he.history
      refine ⟨_, ht, ?_⟩
      have hnil : executions i leaf.leafId t = [] := executions_quiet hq
      rw [executions] at hnil
      rw [executions, List.filterMap_append, hnil]
      simp

end Executions

section Theorems

variable {V : Variant W} {H : Host W}

/-- Along every run a leaf of a root bundle is executed at most once, a bundle
keeps its index, no leaf of a deleted bundle is executed, and every execution
pays what its leaf says. A transaction that reverts changes nothing. -/
theorem refund_leaves_paid_once (V : Variant W) (H : Host W) (n : Nat) (inputs : List (Input W)) (s : World W)
    (hz : ∀ r ∈ (run V H n inputs s).frames, hashesNonzero r.call = true) :
    ∃ s' t, Ok (run V H n inputs) s () s' ∧ s'.trace = s.trace ++ t ∧
      (∀ i l, (executions i l t).length ≤ 1) ∧
      (∀ (k : Nat) b, s.pool.rootBundles[k]? = some b → ∃ b', s'.pool.rootBundles[k]? = some b' ∧ Kept b b') ∧
      (∀ t₁ call id r sl t₂, t = t₁ ++ .event call (.relayedRootBundle id r sl) :: t₂ →
        id = BitVec.ofNat 32 (s.pool.rootBundles.length + relays t₁) ∧
          ∃ b', s'.pool.rootBundles[s.pool.rootBundles.length + relays t₁]? = some b' ∧
            Kept ⟨sl, r, fun _ => 0⟩ b') ∧
      (∀ t₁ call j t₂, t = t₁ ++ .event call (.emergencyDeleteRootBundle j) :: t₂ →
        ∀ i l, i.toNat = j.toNat → executions i l t₂ = []) ∧
      (∀ r ∈ (run V H n inputs s).frames, ∀ post i leaf proof, r.call = .executeRelayerRefundLeaf i leaf proof →
        r.post = .ok post → (∃ t', post.trace = r.pre.trace ++ t' ∧ executions i leaf.leafId t' = [leaf]) ∧
          ∀ book, StandardToken V H leaf.l2TokenAddress book → BridgeTakes V H leaf.l2TokenAddress book →
            (∀ a ∈ leaf.refundAddresses, a ≠ V.self) → ∃ k s₁ s₂ s₃, Pays V H book k r.msg leaf r.pre s₁ s₂ s₃ post) ∧
      ∀ time msg call w, Reverts (enter H (exec V H n) msg call) { w with time := time } →
        Ok (input V H n (.transact time msg call)) w () { w with time := time } := by
  obtain ⟨s', hrun⟩ := run_returns V H n inputs s
  obtain ⟨t, ht, hp, -⟩ := (run_booked hrun).history
  refine ⟨s', t, hrun, ht, fun i l => hp.executions_once, fun k b hb => hp.kept hb,
    fun _ _ _ _ _ _ hsplit => hp.relayed hsplit, ?_, ?_, ?_⟩
  · intro t₁ call j t₂ hsplit i l hij
    obtain ⟨M, hdel, hp₂⟩ := hp.deleted hsplit
    rw [List.eq_nil_iff_forall_not_mem]
    intro leaf hleaf
    rw [← hij] at hdel
    obtain ⟨msg, proof, ⟨r, hr, -, hcall⟩, hv⟩ := hp₂.forged_of_deleted hdel hleaf
    have hnz := hz r hr
    rw [hcall] at hnz
    rw [not_verify_zero hnz] at hv
    cases hv
  · intro r hr post i leaf proof hcall hpost
    obtain ⟨k, hk⟩ := run_recorded hr
    rw [hpost, hcall] at hk
    have hok := ok_of_recorded hk
    exact ⟨execution_recorded hok, fun book htoken hbridge hself => execution_pays htoken hbridge hself hok⟩
  · rintro time msg call w ⟨e, he⟩
    simp only [input, bind_ok, update_ok]
    refine ⟨(), _, rfl, .error e, _, (attempt_ok _ _ _ _).mpr (.inr ⟨e, rfl, he, rfl⟩), ?_⟩
    exact (pure_ok _ _ _ _).mpr ⟨rfl, rfl⟩

theorem sampleHost_takes : BridgeTakes sampleVariant sampleHost 5 Prod.fst := by
  intro k msg amount s s' h
  obtain ⟨_, _, ⟨rfl, rfl⟩, h⟩ := (bind_ok _ _ _ _ _).mp h
  obtain ⟨t, hcall, hnil⟩ := (forEach_cons_ok _ _ _ _ _ _).mp h
  obtain rfl := (forEach_nil_ok _ _ _ _).mp hnil
  have hsafe : Ok (safeTransfer sampleHost (externalCall sampleHost
    (enter sampleHost (exec sampleVariant sampleHost k)))
      none 5 9 amount) s () t := by
    simp only [safeTransfer, bind_ok, read_ok, require_ok]
    exact ⟨s, s, ⟨rfl, rfl⟩, (), s, ⟨rfl, rfl⟩, hcall⟩
  obtain ⟨hmove, -⟩ := safeTransfer_moves sampleHost_standard hsafe
  obtain ⟨-, -, hbal⟩ := transfer_some hmove
  exact (hbal 1).symm

/-- A refund of 5 tokens to account 21, and 7 tokens for the bridge. -/
def sampleLeaf : RelayerRefundLeaf := ⟨7, 10, [5], 0, 5, [21]⟩

def sampleRoot : Bytes32 := keccak256 (encode [.tail (encode sampleLeaf.parts)])

def sampleWorld : World (Token Address × Nat) :=
  ⟨sampleStorage, 1000, (⟨100, fun a => if a = 1 then 50 else 10⟩, 0), []⟩

def sampleRelay : Call := .relayRootBundle sampleRoot 0

def sampleRelayed : World (Token Address × Nat) :=
  { sampleWorld with
    pool := { sampleStorage with rootBundles := [⟨0, sampleRoot, fun _ => 0⟩] }
    trace := [.event sampleRelay (.relayedRootBundle 0 sampleRoot 0)] }

theorem sampleRelay_runs :
    Ok (run sampleVariant sampleHost 2 [.transact 1000 ⟨3, 0⟩ sampleRelay]) sampleWorld () sampleRelayed := rfl

def sampleExecution : Call := .executeRelayerRefundLeaf 0 sampleLeaf []

def sampleRefund : List (Input (Token Address × Nat)) :=
  [.transact 1000 ⟨3, 0⟩ sampleRelay, .transact 1000 ⟨8, 0⟩ sampleExecution]

theorem sampleRefund_evaluates :
    (exec sampleVariant sampleHost 2 ⟨8, 0⟩ sampleExecution sampleRelayed).result.isOk = true ∧
      ∀ r ∈ (run sampleVariant sampleHost 2 sampleRefund sampleWorld).frames, hashesNonzero r.call = true := by
  decide +kernel

theorem sampleRefund_paid : ∃ s' t post, Ok (run sampleVariant sampleHost 2 sampleRefund) sampleWorld () s' ∧
    s'.trace = sampleWorld.trace ++ t ∧ (∀ i l, (executions i l t).length ≤ 1) ∧
    (∃ t', post.trace = sampleRelayed.trace ++ t' ∧ executions 0 0 t' = [sampleLeaf]) ∧
    ∃ k s₁ s₂ s₃, Pays sampleVariant sampleHost Prod.fst k ⟨8, 0⟩ sampleLeaf sampleRelayed s₁ s₂ s₃ post := by
  obtain ⟨hok, hz⟩ := sampleRefund_evaluates
  obtain ⟨post, hpost⟩ := exists_ok hok
  obtain ⟨s', t, hrun, ht, honce, -, -, -, hpays, -⟩ :=
    refund_leaves_paid_once sampleVariant sampleHost 2 sampleRefund sampleWorld hz
  have hmem : ⟨⟨8, 0⟩, sampleExecution, sampleRelayed, .ok post⟩ ∈
      (run sampleVariant sampleHost 2 sampleRefund sampleWorld).frames := mem_run_frames rfl sampleRelay_runs hpost
  obtain ⟨hrecord, hpay⟩ := hpays _ hmem post 0 sampleLeaf [] rfl rfl
  have hself : ∀ a ∈ sampleLeaf.refundAddresses, a ≠ sampleVariant.self := by
    intro a ha
    rw [List.mem_singleton.mp ha]
    decide
  exact ⟨s', t, post, hrun, ht, honce, hrecord, hpay Prod.fst sampleHost_standard sampleHost_takes hself⟩

end Theorems

end Across.RefundLeaves
