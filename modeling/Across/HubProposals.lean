import Across.HubReach
import Across.ClaimedBits

namespace Across.HubProposals

open Abi CallExec CallExec.Exec Erc20 Checked HubState HubPool HubRun HubRules HubSteps ClaimedBits

section Payouts

def entries (w w' : World) : List Entry := w'.log.drop w.log.length

def payout : Entry → Option (Address × Uint256 × Address)
  | .bondReleased bondToken bondAmount recipient => some (bondToken, bondAmount, recipient)
  | _ => none

def payouts (w w' : World) : List (Address × Uint256 × Address) := (entries w w').filterMap payout

variable {w w' : World} {l : List Entry}

theorem entries_eq (h : w'.log = w.log ++ l) : entries w w' = l := by
  rw [entries, h, List.drop_left]

theorem payouts_eq (h : w'.log = w.log ++ l) : payouts w w' = l.filterMap payout := by
  rw [payouts, entries_eq h]

end Payouts

section Apart

/-- Nothing happens to the proposal, and as long as it is active nothing
happens to its bond. -/
structure Apart (w w' : World) : Prop where
  proposal : w'.hub.rootBundleProposal = w.hub.rootBundleProposal
  bond : activeRequest w.hub = true →
    w'.hub.bondToken = w.hub.bondToken ∧ w'.hub.bondAmount = w.hub.bondAmount
  time : w'.time = w.time
  log : ∃ es, w'.log = w.log ++ es ∧ es.filterMap payout = []

variable {w w' w'' : World}

theorem Apart.refl (w : World) : Apart w w := ⟨rfl, fun _ => ⟨rfl, rfl⟩, rfl, [], (List.append_nil _).symm, rfl⟩

theorem Apart.activeRequest_eq (h : Apart w w') : activeRequest w'.hub = activeRequest w.hub := by
  rw [activeRequest, activeRequest, h.proposal]

theorem Apart.trans (h : Apart w w') (k : Apart w' w'') : Apart w w'' where
  proposal := k.proposal.trans h.proposal
  bond ha := by
    obtain ⟨h₁, h₂⟩ := h.bond ha
    obtain ⟨k₁, k₂⟩ := k.bond (h.activeRequest_eq.trans ha)
    exact ⟨k₁.trans h₁, k₂.trans h₂⟩
  time := k.time.trans h.time
  log := by
    obtain ⟨es, he, hes⟩ := h.log
    obtain ⟨fs, hf, hfs⟩ := k.log
    refine ⟨es ++ fs, by rw [hf, he, List.append_assoc], ?_⟩
    rw [List.filterMap_append, hes, hfs]
    rfl

def apart : Guarantee World Empty where
  rel := Apart
  frame _ := True
  refl := Apart.refl
  trans := Apart.trans

variable {α : Type}

theorem update_apart {f : World → World} (hf : ∀ s, Apart s (f s)) : Keeps apart (update f : HubCode Unit) :=
  Keeps.update hf fun _ _ => trivial

theorem setHub_apart {f : Hub → Hub} (hp : ∀ h, (f h).rootBundleProposal = h.rootBundleProposal)
    (hb : ∀ h, (f h).bondToken = h.bondToken ∧ (f h).bondAmount = h.bondAmount) : Keeps apart (setHub f) :=
  update_apart fun s => ⟨hp s.hub, fun _ => hb s.hub, rfl, [], (List.append_nil _).symm, rfl⟩

theorem setPool_apart (t : Address) (f : PooledToken → PooledToken) : Keeps apart (setPool t f) :=
  setHub_apart (fun _ => rfl) fun _ => ⟨rfl, rfl⟩

theorem emit_apart {e : Entry} (h : payout e = none) : Keeps apart (emit e) :=
  update_apart fun s => ⟨rfl, fun _ => ⟨rfl, rfl⟩, rfl, [e], rfl, by rw [List.filterMap_cons_none h]; rfl⟩

theorem changeToken_apart (t : Address) (f : Token Address → Option (Token Address)) :
    Keeps apart (changeToken t f) := by
  refine Keeps.bind Keeps.read fun s => Keeps.bind (Keeps.require _ _) fun _ => ?_
  cases f (s.tokens t) with
  | none => exact Keeps.revert _
  | some x => exact update_apart fun s => ⟨rfl, fun _ => ⟨rfl, rfl⟩, rfl, [], (List.append_nil _).symm, rfl⟩

theorem checked_apart {p : Prop} [Decidable p] {e : Error} {a : α} :
    Keeps apart (do require p e; pure a : HubCode α) := Keeps.bind (Keeps.require _ _) fun _ => Keeps.pure _

theorem readRequire_apart {p : World → Prop} [DecidablePred p] {e : Error} :
    Keeps apart (do let s ← read; require (p s) e : HubCode Unit) := Keeps.bind Keeps.read fun _ => Keeps.require _ _

theorem safeTransferFrom_apart (D : Deployment) (A : Answers) (t src : Address) (n : Uint256) :
    Keeps apart (safeTransferFrom D A t src n) :=
  Keeps.bind Keeps.read fun _ => Keeps.bind (Keeps.require _ _) fun _ => changeToken_apart _ _

end Apart

section Functions

variable (D : Deployment) (A : Answers) (msg : Msg) (t : Address) (n : Uint256)

theorem updateAccumulatedLpFees_apart : Keeps apart (updateAccumulatedLpFees t) := by
  refine Keeps.bind Keeps.read fun s => Keeps.bind ?_ fun _ => ?_
  · refine Keeps.bind Keeps.read fun s => Keeps.bind checked_apart fun _ => ?_
    exact Keeps.bind checked_apart fun _ => Keeps.bind checked_apart fun _ => Keeps.pure _
  · exact Keeps.bind checked_apart fun _ => setPool_apart _ _

theorem syncInternal_apart : Keeps apart (syncInternal D t) := by
  refine Keeps.bind ?_ fun x => Keeps.bind Keeps.read fun s => Keeps.when ?_
  · refine Keeps.bind (Keeps.bind Keeps.read fun _ => checked_apart) fun _ => ?_
    exact Keeps.bind Keeps.read fun s => Keeps.ite checked_apart (Keeps.pure _)
  · exact Keeps.bind checked_apart fun _ => Keeps.bind checked_apart fun _ => setPool_apart _ _

theorem exchangeRateInternal_apart : Keeps apart (exchangeRateInternal D t) := by
  refine Keeps.bind Keeps.read fun s => Keeps.bind (Keeps.bind Keeps.read fun _ => checked_apart) fun _ => ?_
  refine Keeps.ite (Keeps.pure _) (Keeps.bind ?_ fun _ => Keeps.bind checked_apart fun _ => checked_apart)
  refine Keeps.bind (updateAccumulatedLpFees_apart t) fun _ => Keeps.bind (syncInternal_apart D t) fun _ => ?_
  exact Keeps.bind Keeps.read fun s => Keeps.bind checked_apart fun _ => checked_apart

theorem liquidityUtilizationPostRelayInternal_apart :
    Keeps apart (liquidityUtilizationPostRelayInternal D t n) := by
  refine Keeps.bind (syncInternal_apart D t) fun _ => Keeps.bind Keeps.read fun s => ?_
  refine Keeps.bind checked_apart fun _ => Keeps.bind checked_apart fun _ => ?_
  exact Keeps.ite (Keeps.pure _) (Keeps.bind checked_apart fun _ => checked_apart)

theorem addLiquidity_apart : Keeps apart (addLiquidity D A msg t n) := by
  refine Keeps.bind readRequire_apart fun _ => Keeps.bind Keeps.read fun s => ?_
  refine Keeps.bind (Keeps.require _ _) fun _ => Keeps.bind (Keeps.require _ _) fun _ => ?_
  refine Keeps.bind checked_apart fun _ => Keeps.bind (exchangeRateInternal_apart D t) fun _ => ?_
  refine Keeps.bind checked_apart fun _ => Keeps.bind Keeps.read fun s => Keeps.bind checked_apart fun _ => ?_
  refine Keeps.bind (setPool_apart _ _) fun _ => Keeps.bind (changeToken_apart _ _) fun _ => ?_
  refine Keeps.bind (Keeps.ite (changeToken_apart _ _) (safeTransferFrom_apart _ _ _ _ _)) fun _ => ?_
  exact emit_apart rfl

theorem removeLiquidity_apart (sendEth : Bool) : Keeps apart (removeLiquidity D A msg t n sendEth) := by
  refine Keeps.bind readRequire_apart fun _ => Keeps.bind (Keeps.require _ _) fun _ => ?_
  refine Keeps.bind (exchangeRateInternal_apart D t) fun _ => Keeps.bind checked_apart fun _ => ?_
  refine Keeps.bind Keeps.read fun s => Keeps.bind (changeToken_apart _ _) fun _ => ?_
  refine Keeps.bind checked_apart fun _ => Keeps.bind (setPool_apart _ _) fun _ => ?_
  refine Keeps.bind (Keeps.ite ?_ (changeToken_apart _ _)) fun _ => emit_apart rfl
  exact Keeps.bind (changeToken_apart _ _) fun _ => Keeps.require _ _

theorem claimProtocolFeesCaptured_apart : Keeps apart (claimProtocolFeesCaptured D t) := by
  refine Keeps.bind Keeps.read fun s => Keeps.bind (setHub_apart (fun _ => rfl) fun _ => ⟨rfl, rfl⟩) fun _ => ?_
  exact Keeps.bind (changeToken_apart _ _) fun _ => emit_apart rfl

theorem enableL1TokenForLiquidityProvision_apart : Keeps apart (enableL1TokenForLiquidityProvision A t) := by
  refine Keeps.bind Keeps.read fun s => Keeps.bind (Keeps.when ?_) fun _ => ?_
  · refine Keeps.bind ?_ fun _ => setPool_apart _ _
    refine Keeps.bind Keeps.read fun s => Keeps.bind (Keeps.require _ _) fun _ => ?_
    refine Keeps.bind (Keeps.require _ _) fun _ => Keeps.bind (update_apart fun s => ?_) fun _ => Keeps.pure _
    exact ⟨rfl, fun _ => ⟨rfl, rfl⟩, rfl, [], (List.append_nil _).symm, rfl⟩
  · exact Keeps.bind (setPool_apart _ _) fun _ => Keeps.bind Keeps.read fun _ => emit_apart rfl

theorem relaySpokePoolAdminFunction_apart (data : WordBytes.Bytes) :
    Keeps apart (relaySpokePoolAdminFunction A n data) := by
  refine Keeps.bind ?_ fun _ => Keeps.bind (Keeps.require _ _) fun _ => emit_apart rfl
  refine Keeps.bind Keeps.read fun s => Keeps.bind (Keeps.require _ _) fun _ => ?_
  exact Keeps.bind (Keeps.require _ _) fun _ => Keeps.pure _

theorem setBond_apart {w w' : World} {u : Unit} (h : Ok (setBond A t n) w u w') : Apart w w' := by
  simp only [setBond, bind_ok, noActiveRequests_ok, require_ok, checkedAdd_ok, setHub, update_ok, emit_ok] at h
  obtain ⟨_, _, ⟨hidle, rfl⟩, _, _, ⟨-, rfl⟩, _, _, ⟨-, rfl⟩, _, _, ⟨-, rfl⟩, _, _, rfl, rfl⟩ := h
  refine ⟨rfl, fun ha => ?_, rfl, [_], rfl, rfl⟩
  rw [hidle] at ha
  cases ha

end Functions

section Changes

def onBundle : Op → Bool
  | .proposeRootBundle _ _ _ _ _ | .executeRootBundle _ _ | .disputeRootBundle | .emergencyDeleteProposal => true
  | _ => false

structure SameTerms (w w' : World) : Prop where
  bondToken : w'.hub.bondToken = w.hub.bondToken
  bondAmount : w'.hub.bondAmount = w.hub.bondAmount
  time : w'.time = w.time

def bondTo (w : World) (recipient : Address) : Address × Uint256 × Address :=
  (w.hub.bondToken, w.hub.bondAmount, recipient)

inductive Change (w : World) (msg : Msg) (A : Answers) : Op → World → Prop
  | apart {op : Op} {w' : World} (hop : onBundle op = false) (h : Apart w w') : Change w msg A op w'
  | proposed {w' : World} (ns : List Uint256) (n : Uint8) (r₁ r₂ r₃ : Bytes32) (e : Uint32)
      (hidle : activeRequest w.hub = false) (hn : 0 < n.toNat)
      (hp : w'.hub.rootBundleProposal = ⟨r₁, r₂, r₃, 0, msg.sender, n, e⟩) (hs : SameTerms w w')
      (he : .bondTaken w.hub.bondToken w.hub.bondAmount msg.sender n ∈ entries w w') (hpay : payouts w w' = []) :
      Change w msg A (.proposeRootBundle ns n r₁ r₂ r₃) w'
  | executed {w' : World} (leaf : PoolRebalanceLeaf) (proof : List Bytes32) (count : Uint8)
      (ht : w.hub.rootBundleProposal.challengePeriodEndTimestamp.toNat < w.time)
      (hc : isClaimed1D w.hub.rootBundleProposal.claimedBitMap leaf.leafId = false)
      (hn : count.toNat + 1 = w.hub.rootBundleProposal.unclaimedPoolRebalanceLeafCount.toNat)
      (hp : w'.hub.rootBundleProposal = { w.hub.rootBundleProposal with
        claimedBitMap := setClaimed1D w.hub.rootBundleProposal.claimedBitMap leaf.leafId
        unclaimedPoolRebalanceLeafCount := count })
      (hs : SameTerms w w')
      (hpay : payouts w w' = if count = 0 then [bondTo w w.hub.rootBundleProposal.proposer] else []) :
      Change w msg A (.executeRootBundle leaf proof) w'
  | cancelled {w' : World} (time : Uint256)
      (ht : w.time % 2 ^ 32 ≤ w.hub.rootBundleProposal.challengePeriodEndTimestamp.toNat)
      (hp : w'.hub.rootBundleProposal = .zero) (hs : SameTerms w w')
      (he : .rootBundleCanceled msg.sender time ∈ entries w w')
      (hpay : payouts w w' = [bondTo w w.hub.rootBundleProposal.proposer]) : Change w msg A .disputeRootBundle w'
  | disputed {w' : World} (time : Uint256)
      (ht : w.time % 2 ^ 32 ≤ w.hub.rootBundleProposal.challengePeriodEndTimestamp.toNat)
      (hp : w'.hub.rootBundleProposal = .zero) (hs : SameTerms w w')
      (he : .rootBundleDisputed msg.sender time ∈ entries w w')
      (hpay : payouts w w' = [bondTo w A.optimisticOracle]) : Change w msg A .disputeRootBundle w'
  | deleted {w' : World} (hp : w'.hub.rootBundleProposal = .zero) (hs : SameTerms w w')
      (hpay : payouts w w' = if activeRequest w.hub = true then [bondTo w w.hub.rootBundleProposal.proposer] else []) :
      Change w msg A .emergencyDeleteProposal w'

variable {D : Deployment} {A : Answers} {msg : Msg} {w w' : World} {u : Unit}

theorem proposeRootBundle_change {ns : List Uint256} {n : Uint8} {r₁ r₂ r₃ : Bytes32}
    (h : Ok (proposeRootBundle D A msg ns n r₁ r₂ r₃) w u w') :
    Change w msg A (.proposeRootBundle ns n r₁ r₂ r₃) w' := by
  simp only [proposeRootBundle, bind_ok, noActiveRequests_ok, unpaused_ok, require_ok, read_ok, checkedAdd_ok,
    setProposal_ok, safeTransferFrom_ok, emit_ok] at h
  obtain ⟨_, _, ⟨hidle, rfl⟩, _, _, ⟨-, rfl⟩, _, _, ⟨hpos, rfl⟩, _, _, ⟨rfl, rfl⟩, e, _, ⟨-, rfl⟩, _, _, rfl, _, _,
    ⟨-, -, x, -, rfl⟩, _, _, rfl, rfl⟩ := h
  refine .proposed ns n r₁ r₂ r₃ e hidle hpos rfl ⟨rfl, rfl, rfl⟩ ?_ ?_
  · rw [entries_eq (l := [_, _]) (List.append_assoc _ _ _)]
    exact List.mem_cons_self
  · exact (payouts_eq (l := [_, _]) (List.append_assoc _ _ _)).trans rfl

/-- The last leaf pays the bond out, no other leaf does. -/
theorem executeRootBundle_log {leaf : PoolRebalanceLeaf} {proof : List Bytes32}
    (h : Ok (executeRootBundle D A msg leaf proof) w u w') :
    ∃ l, w'.log = w.log ++ l ∧ l.filterMap payout =
      if w.hub.rootBundleProposal.unclaimedPoolRebalanceLeafCount.toNat = 1 then
        [bondTo w w.hub.rootBundleProposal.proposer] else [] := by
  obtain ⟨n, w₁, -, -, hn, hsent, h⟩ := executeRootBundle_ok h
  obtain ⟨es, hes, hfees⟩ := hsent.log
  have hsilent : es.filterMap payout = [] := by
    apply List.filterMap_eq_nil_iff.mpr
    intro e he
    obtain ⟨a, k, rfl⟩ := hfees e he
    rfl
  rcases h with ⟨h0, rfl⟩ | ⟨h0, -, x, -, rfl⟩
  · have hne : w.hub.rootBundleProposal.unclaimedPoolRebalanceLeafCount.toNat ≠ 1 := by
      intro h1
      exact h0 (BitVec.eq_of_toNat_eq (Nat.succ.inj (hn.trans h1)))
    refine ⟨es ++ [_], by rw [logged, hes, List.append_assoc]; rfl, ?_⟩
    rw [List.filterMap_append, hsilent, if_neg hne]
    rfl
  · have hone : w.hub.rootBundleProposal.unclaimedPoolRebalanceLeafCount.toNat = 1 := by
      rw [← hn, h0]
      rfl
    refine ⟨es ++ [_, _], by simp only [logged, putToken, hes, List.append_assoc]; rfl, ?_⟩
    rw [List.filterMap_append, hsilent, if_pos hone]
    rfl

theorem executeRootBundle_change {leaf : PoolRebalanceLeaf} {proof : List Bytes32}
    (h : Ok (executeRootBundle D A msg leaf proof) w u w') : Change w msg A (.executeRootBundle leaf proof) w' := by
  obtain ⟨l, hl, hpay⟩ := executeRootBundle_log h
  obtain ⟨count, w₁, ht, hc, hn, hsent, h⟩ := executeRootBundle_ok h
  have hpay' : payouts w w' = if count = 0 then [bondTo w w.hub.rootBundleProposal.proposer] else [] := by
    rw [payouts_eq hl, hpay, ← hn]
    by_cases h0 : count = 0
    · rw [if_pos h0, if_pos (by rw [h0]; rfl)]
    · have hne : count.toNat + 1 ≠ 1 := fun h1 => h0 (BitVec.eq_of_toNat_eq (Nat.succ.inj h1))
      rw [if_neg h0, if_neg hne]
  have hterms : SameTerms w w₁ := ⟨hsent.bondToken, hsent.bondAmount, hsent.steady.time⟩
  rcases h with ⟨h0, rfl⟩ | ⟨h0, -, x, -, rfl⟩
  · exact .executed leaf proof count ht hc hn hsent.proposal ⟨hterms.1, hterms.2, hterms.3⟩ hpay'
  · exact .executed leaf proof count ht hc hn hsent.proposal ⟨hterms.1, hterms.2, hterms.3⟩ hpay'

theorem cancelBundle_ok (h : Ok (cancelBundle D msg) w u w') :
    ∃ time, w'.hub.rootBundleProposal = .zero ∧ SameTerms w w' ∧ w'.log = w.log ++
      [.bondReleased w.hub.bondToken w.hub.bondAmount w.hub.rootBundleProposal.proposer,
       .rootBundleCanceled msg.sender time] := by
  simp only [cancelBundle, bind_ok, read_ok, releaseBond_ok, setProposal_ok, emit_ok] at h
  obtain ⟨_, _, ⟨rfl, rfl⟩, _, _, ⟨-, x, -, rfl⟩, _, _, rfl, rfl⟩ := h
  exact ⟨_, rfl, ⟨rfl, rfl, rfl⟩, List.append_assoc _ _ _⟩

theorem disputeRootBundle_change (h : Ok (disputeRootBundle D A msg) w u w') :
    Change w msg A .disputeRootBundle w' := by
  obtain ⟨ht, ⟨-, h⟩ | ⟨-, -, -, w₁, w₂, w₃, e, -, h₁, h₂, h₃, rfl⟩⟩ := disputeRootBundle_iff.mp h
  · obtain ⟨time, hp, hs, hlog⟩ := cancelBundle_ok h
    refine .cancelled time ht hp hs ?_ (payouts_eq hlog)
    rw [entries_eq hlog]
    exact List.mem_cons_of_mem _ List.mem_cons_self
  obtain ⟨-, x, -, rfl⟩ := releaseBond_ok.mp h₁
  obtain ⟨-, -, y, -, rfl⟩ := safeTransferFrom_ok.mp h₂
  obtain ⟨-, z, -, rfl⟩ := safeTransfer_ok.mp h₃
  refine .disputed (BitVec.ofNat 256 (w.time % 2 ^ 32)) ht rfl ⟨rfl, rfl, rfl⟩ ?_
    ((payouts_eq (l := [_, _]) (List.append_assoc _ _ _)).trans rfl)
  rw [entries_eq (l := [_, _]) (List.append_assoc _ _ _)]
  exact List.mem_cons_of_mem _ List.mem_cons_self

theorem emergencyDeleteProposal_change (h : Ok (emergencyDeleteProposal D) w u w') :
    Change w msg A .emergencyDeleteProposal w' := by
  simp only [emergencyDeleteProposal, bind_ok, read_ok, when_ok, releaseBond_ok, setProposal_ok, emit_ok] at h
  obtain ⟨_, _, ⟨rfl, rfl⟩, _, _, rfl, _, w₁, h₁, rfl⟩ := h
  rcases h₁ with ⟨hpos, -, x, -, rfl⟩ | ⟨hz, rfl⟩
  · have hact : activeRequest w.hub = true := by
      rw [activeRequest, decide_eq_true_eq]
      intro h0
      rw [h0] at hpos
      exact Nat.lt_irrefl 0 hpos
    refine .deleted rfl ⟨rfl, rfl, rfl⟩ ?_
    rw [if_pos hact]
    exact (payouts_eq (l := [_, _]) (List.append_assoc _ _ _)).trans rfl
  · have hidle : activeRequest w.hub = false := by
      rw [activeRequest, decide_eq_false_iff_not]
      intro h0
      exact h0 (BitVec.eq_of_toNat_eq (Nat.eq_zero_of_not_pos hz))
    refine .deleted rfl ⟨rfl, rfl, rfl⟩ ?_
    rw [hidle]
    exact (payouts_eq (l := [_]) rfl).trans rfl

theorem body_change {op : Op} (h : Ok (body D A msg op) w () w') : Change w msg A op w' := by
  cases op with
  | proposeRootBundle ns n r₁ r₂ r₃ => exact proposeRootBundle_change h
  | executeRootBundle leaf proof => exact executeRootBundle_change h
  | disputeRootBundle => exact disputeRootBundle_change h
  | emergencyDeleteProposal => exact emergencyDeleteProposal_change h
  | setBond token amount => exact .apart rfl (setBond_apart A token amount h)
  | setPaused pause =>
      refine .apart rfl (Keeps.rel (G := apart) ?_ h fun _ _ => trivial)
      exact Keeps.bind (setHub_apart (fun _ => rfl) fun _ => ⟨rfl, rfl⟩) fun _ => emit_apart rfl
  | relaySpokePoolAdminFunction chainId data =>
      exact .apart rfl ((relaySpokePoolAdminFunction_apart A _ _).rel h fun _ _ => trivial)
  | setProtocolFeeCapture a pct =>
      refine .apart rfl (Keeps.rel (G := apart) ?_ h fun _ _ => trivial)
      refine Keeps.bind (Keeps.require _ _) fun _ => Keeps.bind (Keeps.require _ _) fun _ => ?_
      exact Keeps.bind (setHub_apart (fun _ => rfl) fun _ => ⟨rfl, rfl⟩) fun _ => emit_apart rfl
  | setLiveness l =>
      refine .apart rfl (Keeps.rel (G := apart) (Keeps.bind (Keeps.require _ _) fun _ => ?_) h fun _ _ => trivial)
      exact Keeps.bind (setHub_apart (fun _ => rfl) fun _ => ⟨rfl, rfl⟩) fun _ => emit_apart rfl
  | setIdentifier n =>
      refine .apart rfl (Keeps.rel (G := apart) (Keeps.bind readRequire_apart fun _ => ?_) h fun _ _ => trivial)
      refine Keeps.bind (Keeps.require _ _) fun _ => ?_
      exact Keeps.bind (setHub_apart (fun _ => rfl) fun _ => ⟨rfl, rfl⟩) fun _ => emit_apart rfl
  | setCrossChainContracts c a s =>
      refine .apart rfl (Keeps.rel (G := apart) ?_ h fun _ _ => trivial)
      exact Keeps.bind (setHub_apart (fun _ => rfl) fun _ => ⟨rfl, rfl⟩) fun _ => emit_apart rfl
  | setPoolRebalanceRoute c t d =>
      refine .apart rfl (Keeps.rel (G := apart) ?_ h fun _ _ => trivial)
      exact Keeps.bind (setHub_apart (fun _ => rfl) fun _ => ⟨rfl, rfl⟩) fun _ => emit_apart rfl
  | setDepositRoute o d t b =>
      refine .apart rfl (Keeps.rel (G := apart) ?_ h fun _ _ => trivial)
      exact Keeps.bind (relaySpokePoolAdminFunction_apart A _ _) fun _ => emit_apart rfl
  | enableL1TokenForLiquidityProvision t =>
      exact .apart rfl ((enableL1TokenForLiquidityProvision_apart A t).rel h fun _ _ => trivial)
  | disableL1TokenForLiquidityProvision t =>
      refine .apart rfl (Keeps.rel (G := apart) ?_ h fun _ _ => trivial)
      exact Keeps.bind (setPool_apart _ _) fun _ => Keeps.bind Keeps.read fun _ => emit_apart rfl
  | haircutReserves t n =>
      refine .apart rfl (Keeps.rel (G := apart) (Keeps.bind Keeps.read fun _ => ?_) h fun _ _ => trivial)
      exact Keeps.bind checked_apart fun _ => Keeps.bind (setPool_apart _ _) fun _ => emit_apart rfl
  | addLiquidity t n => exact .apart rfl ((addLiquidity_apart D A msg t n).rel h fun _ _ => trivial)
  | removeLiquidity t n eth => exact .apart rfl ((removeLiquidity_apart D A msg t n eth).rel h fun _ _ => trivial)
  | exchangeRateCurrent t =>
      refine .apart rfl (Keeps.rel (G := apart) ?_ h fun _ _ => trivial)
      exact Keeps.bind (exchangeRateInternal_apart D t) fun _ => Keeps.pure _
  | liquidityUtilizationCurrent t =>
      refine .apart rfl (Keeps.rel (G := apart) ?_ h fun _ _ => trivial)
      exact Keeps.bind (liquidityUtilizationPostRelayInternal_apart D t 0) fun _ => Keeps.pure _
  | liquidityUtilizationPostRelay t n =>
      refine .apart rfl (Keeps.rel (G := apart) ?_ h fun _ _ => trivial)
      exact Keeps.bind (liquidityUtilizationPostRelayInternal_apart D t n) fun _ => Keeps.pure _
  | sync t => exact .apart rfl ((syncInternal_apart D t).rel h fun _ _ => trivial)
  | claimProtocolFeesCaptured t => exact .apart rfl ((claimProtocolFeesCaptured_apart D t).rel h fun _ _ => trivial)
  | loadEthForL2Calls =>
      obtain ⟨-, rfl⟩ := (pure_ok _ _ _ _).mp h
      exact .apart rfl (.refl w)

end Changes

section Calls

structure Call where
  before : World
  msg : Msg
  answers : Answers
  op : Op
  after : World

def callOf (D : Deployment) (w : World) : Input → Option Call
  | .call msg A op =>
      if msg.sender = D.self then none
      else match (dispatch D A msg op w).result with
        | .ok (_, w') => some ⟨w, msg, A, op, w'⟩
        | .error _ => none
  | _ => none

def calls (D : Deployment) : World → List Input → List Call
  | _, [] => []
  | w, i :: is => (callOf D w i).toList ++ calls D (step D w i) is

variable {D : Deployment} {w : World} {i : Input} {c : Call}

theorem callOf_some (h : callOf D w i = some c) :
    c.before = w ∧ c.after = step D w i ∧ Change w c.msg c.answers c.op c.after := by
  cases i with
  | call msg A op =>
      simp only [callOf] at h
      split at h
      · cases h
      · rename_i hs
        split at h
        · rename_i w' hd
          obtain rfl := Option.some.inj h
          have hstep : step D w (.call msg A op) = w' := by
            simp only [step, if_neg hs, hd]
          refine ⟨rfl, hstep.symm, ?_⟩
          exact body_change (dispatch_ok.mp hd).2.2
        · cases h
  | _ => cases h

theorem onToken_frame (a : Address) (f : Token Address → Option (Token Address)) (w : World) :
    (onToken a f w).hub = w.hub ∧ (onToken a f w).time = w.time := by
  rcases onToken_cases a f w with h | ⟨x, -, -, h⟩
  · rw [h]
    exact ⟨rfl, rfl⟩
  · rw [h]
    exact ⟨rfl, rfl⟩

theorem callOf_none (h : callOf D w i = none) :
    (step D w i).hub.rootBundleProposal = w.hub.rootBundleProposal ∧
      (step D w i).hub.bondToken = w.hub.bondToken ∧ (step D w i).hub.bondAmount = w.hub.bondAmount ∧
      w.time ≤ (step D w i).time := by
  have hsame : ∀ w' : World, w'.hub = w.hub ∧ w'.time = w.time →
      w'.hub.rootBundleProposal = w.hub.rootBundleProposal ∧ w'.hub.bondToken = w.hub.bondToken ∧
        w'.hub.bondAmount = w.hub.bondAmount ∧ w.time ≤ w'.time := by
    rintro w' ⟨hh, ht⟩
    rw [hh, ht]
    exact ⟨rfl, rfl, rfl, Nat.le_refl _⟩
  cases i with
  | call msg A op =>
      apply hsame
      simp only [callOf] at h
      simp only [step]
      split at h
      · rename_i hs
        rw [if_pos hs]
        exact ⟨rfl, rfl⟩
      · rename_i hs
        rw [if_neg hs]
        cases hd : (dispatch D A msg op w).result with
        | ok r =>
            rw [hd] at h
            cases h
        | error e => exact ⟨rfl, rfl⟩
  | advance seconds =>
      simp only [step]
      split
      · exact ⟨rfl, rfl, rfl, Nat.le_add_right _ _⟩
      · exact ⟨rfl, rfl, rfl, Nat.le_refl _⟩
  | transfer token src dst amount =>
      apply hsame
      simp only [step]
      split
      · exact ⟨rfl, rfl⟩
      · exact onToken_frame _ _ _
  | mint token dst amount =>
      apply hsame
      simp only [step]
      split
      · exact ⟨rfl, rfl⟩
      · exact onToken_frame _ _ _
  | burn token src amount =>
      apply hsame
      simp only [step]
      split
      · exact ⟨rfl, rfl⟩
      · exact onToken_frame _ _ _
  | deploy account token =>
      apply hsame
      simp only [step]
      split
      · exact ⟨rfl, rfl⟩
      · exact ⟨rfl, rfl⟩
  | newOwner owner => exact ⟨rfl, rfl, rfl, Nat.le_refl _⟩

theorem Change.time {msg : Msg} {A : Answers} {op : Op} {w' : World} (h : Change w msg A op w') :
    w'.time = w.time := by
  cases h with
  | apart _ h => exact h.time
  | proposed _ _ _ _ _ _ _ _ _ hs => exact hs.time
  | executed _ _ _ _ _ _ _ hs => exact hs.time
  | cancelled _ _ _ hs | disputed _ _ _ hs | deleted _ hs => exact hs.time

theorem step_time (w : World) (i : Input) : w.time ≤ (step D w i).time := by
  cases h : callOf D w i with
  | none => exact (callOf_none h).2.2.2
  | some c =>
      obtain ⟨-, hafter, hc⟩ := callOf_some h
      rw [← hafter, hc.time]

theorem run_time (w : World) (is : List Input) : w.time ≤ (run D w is).time := by
  induction is generalizing w with
  | nil => exact Nat.le_refl _
  | cons i is ih => exact (step_time w i).trans (ih (step D w i))

end Calls

end Across.HubProposals
