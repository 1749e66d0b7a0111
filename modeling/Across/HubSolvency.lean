import Across.HubReach

namespace Across.HubSolvency

open Abi CallExec Erc20 HubState HubPool HubRun HubRules HubRefine HubSteps HubReach PooledAsset

/-- The tokens that the pool holds cover its liquid reserves and, in the bond
token, the bond of an active proposal. -/
def Covered (D : Deployment) (t : Address) (w : World) : Prop :=
  (w.hub.pooledTokens t).liquidReserves.toNat + heldFor t w.hub ≤ ((w.tokens t).balance D.self).toNat

/-- A claim of protocol fees is paid by what is beyond that, or not paid at all,
or paid by the pool to itself. A dispute is of an active proposal, or comes too
late. -/
def PaidFromSurplus (D : Deployment) (t : Address) (w : World) (i : Input) : Prop :=
  (∀ msg A, i = .call msg A (.claimProtocolFeesCaptured t) →
    w.hub.protocolFeeCaptureAddress = D.self ∨
    ((w.tokens t).balance D.self).toNat < (w.hub.unclaimedAccumulatedProtocolFees t).toNat ∨
    (w.hub.pooledTokens t).liquidReserves.toNat + heldFor t w.hub +
      (w.hub.unclaimedAccumulatedProtocolFees t).toNat ≤ ((w.tokens t).balance D.self).toNat) ∧
  ∀ msg A, i = .call msg A .disputeRootBundle → activeRequest w.hub = true ∨
    w.hub.rootBundleProposal.challengePeriodEndTimestamp.toNat < w.time % 2 ^ 32

/-- The cover of a token and what follows from it: a sync counts nothing that is
not there, no payment up to the liquid reserves lacks tokens, and after the
sends of any leaf the bond can still be returned. -/
structure Solvency (D : Deployment) (t : Address) (w : World) : Prop where
  covered : Covered D t w
  bond : heldFor t w.hub ≤ ((w.tokens t).balance D.self).toNat
  sync : ∀ w', Ok (sync D t) w () w' → Covered D t w'
  pays : ∀ dst n, n.toNat ≤ (w.hub.pooledTokens t).liquidReserves.toNat →
    ((w.tokens t).balance dst).toNat + n.toNat < 2 ^ 256 → ∃ x, (w.tokens t).transfer D.self dst n = some x
  lastLeaf : ∀ A leaf p w', activeRequest w.hub = true → w.hub.bondToken = t →
    Ok (sendTokensToChainAndUpdatePooledTokenTrackers D A leaf) (putProposal w p) () w' →
    w.hub.bondAmount.toNat ≤ ((w'.tokens t).balance D.self).toNat

variable {D : Deployment} {t : Address} {w : World} {i : Input}

theorem step_covered (hw : WellFormed D w) (h : Covered D t w) (hi : PaidFromSurplus D t w i) :
    Covered D t (step D w i) := by
  obtain ⟨ls, hact, hcause, -⟩ := (step_refines hw i).2 t
  refine hact.solvent (fun n hn => ?_) h
  have hle : n ≤ ((w.tokens t).balance D.self).toNat := hact.paid_le hn
  cases hcause _ hn with
  | claimed msg A hne =>
      rcases hi.1 msg A rfl with hself | hlt | hcov
      · exact absurd hself hne
      · omega
      · exact hcov
  | expired msg A hidle ht hc =>
      rcases hi.2 msg A rfl with ha | hlt
      · rw [hidle] at ha
        cases ha
      · omega

theorem Covered.solvency (h : Covered D t w) : Solvency D t w where
  covered := h
  bond := by
    rw [Covered] at h
    omega
  sync w' hs := by
    obtain ⟨p, -, -, hsync⟩ := syncInternal_ok hs
    exact (Act.sync hsync).solvent (by simp) h
  pays dst n hn hd := by
    rw [Covered] at h
    exact transfer_returns (by omega) hd
  lastLeaf A leaf p w' hact ht hsend := by
    obtain ⟨ls, hlegs, -⟩ := (sendTokens_sent hsend).legs (heldFor t w.hub) t
    have hsol := (hlegs.solvent h).1
    have hheld : heldFor t w.hub = w.hub.bondAmount.toNat := by
      rw [← ht]
      exact heldFor_active hact
    simp only [Asset.Solvent, asset] at hsol
    omega

/-- In a run that pays protocol fees out of the surplus only, the pool is
solvent in every state. -/
theorem solvent_of_paidFromSurplus (hg : Genesis D w) (t : Address) (is : List Input)
    (hi : Along D (PaidFromSurplus D t) w is) : Solvency D t (run D w is) := by
  have h0 : Covered D t w := by
    obtain ⟨owner, hh⟩ := hg.hub
    rw [Covered, hh, heldFor_inactive rfl]
    exact Nat.zero_le _
  apply Covered.solvency
  exact run_invariant (I := Covered D t) (fun _ _ hw h hi => step_covered hw h hi) (Genesis.wellFormed hg) h0 hi

theorem sampleDeposit_solvent : Solvency sampleDeployment 5 (run sampleDeployment sampleWorld sampleDeposit) := by
  refine solvent_of_paidFromSurplus sampleWorld_genesis 5 sampleDeposit ⟨⟨?_, ?_⟩, ⟨?_, ?_⟩, trivial⟩
  all_goals rintro _ _ ⟨⟩

/-- A tenth of the fees goes to the protocol, and a leaf with fees of 50 is about to
be executed. -/
def sampleFees : World :=
  run sampleDeployment sampleWorld (sampleDeposit ++ sampleCall 3 (.setProtocolFeeCapture 15 100000000000000000) ::
    sampleProposal 50)

def sampleCaptured : World :=
  let w := logged (putPool (putProposal sampleFees ⟨sampleRoot 50, 0, 0, 1, 7, 1, 8200⟩) 5
    { sampleFees.hub.pooledTokens 5 with undistributedLpFees := 45, utilizedReserves := 45 }) (.lpFeesCaptured 5 45)
  logged { w with hub := { w.hub with
    unclaimedAccumulatedProtocolFees := Function.update w.hub.unclaimedAccumulatedProtocolFees 5 5 } }
    (.rootBundleExecuted (sampleLeaf 50) 9)

theorem sampleFees_executes :
    step sampleDeployment sampleFees (sampleCall 9 (.executeRootBundle (sampleLeaf 50) [])) = sampleCaptured := by
  have hroute : sampleFees.hub.poolRebalanceRoutes =
    Function.update (fun _ => 0) (poolRebalanceRouteKey 5 10) 14 := rfl
  refine sampleLeaf_step rfl (by decide) rfl rfl rfl ?_ rfl
  rw [hroute, Function.update_self]

/-- The fees of 5 are claimed before any of the 50 has come back, so they are paid
with the deposit of the provider. -/
theorem sampleClaim_uncovers :
    ¬ Covered sampleDeployment 5 (run sampleDeployment sampleWorld (sampleDeposit ++
      sampleCall 3 (.setProtocolFeeCapture 15 100000000000000000) :: sampleProposal 50 ++
      [sampleCall 9 (.executeRootBundle (sampleLeaf 50) []), sampleCall 9 (.claimProtocolFeesCaptured 5)])) := by
  have hrun : run sampleDeployment sampleWorld (sampleDeposit ++
      sampleCall 3 (.setProtocolFeeCapture 15 100000000000000000) :: sampleProposal 50 ++
      [sampleCall 9 (.executeRootBundle (sampleLeaf 50) []), sampleCall 9 (.claimProtocolFeesCaptured 5)]) =
      step sampleDeployment sampleCaptured (sampleCall 9 (.claimProtocolFeesCaptured 5)) := by
    rw [run_append, run_cons, run_cons, run_nil, ← sampleFees_executes]
    rfl
  rw [hrun, Covered]
  decide

end Across.HubSolvency
