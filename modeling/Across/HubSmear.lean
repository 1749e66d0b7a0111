import Across.HubLegs
import Across.HubRate

namespace Across.HubSmear

open Abi CallExec CallExec.Exec Erc20 Checked HubState HubPool HubRun HubRules HubRefine HubSteps
  HubReach HubLegs HubRate
  PooledAsset ShareRate

def leafFees (pct : Uint256) (leaf : PoolRebalanceLeaf) (t : Address) : Nat :=
  ((entriesOf leaf).map fun e => if e.1 = t then lpShare pct e.2.2 else 0).sum

variable {D : Deployment} {A : Answers} {msg : Msg} {leaf : PoolRebalanceLeaf} {w w' : World} {u : Unit} {t s : Address}

theorem allocateLpAndProtocolFees_undistributed {fees : Uint256} (h : Ok (allocateLpAndProtocolFees s fees) w u w')
    (t : Address) :
    (w'.hub.pooledTokens t).undistributedLpFees.toNat = (w.hub.pooledTokens t).undistributedLpFees.toNat +
      if s = t then lpShare w.hub.protocolFeeCapturePct fees else 0 := by
  obtain ⟨n, w₁, hshare, h₁, h₂⟩ := allocateLpAndProtocolFees_ok h
  have hpools : w'.hub.pooledTokens = w₁.hub.pooledTokens := by
    rcases h₂ with rfl | ⟨g, rfl⟩
    · rfl
    · rfl
  rw [hpools, ← hshare]
  rcases h₁ with ⟨-, f, v, hf, -, rfl⟩ | ⟨hz, rfl⟩
  · by_cases hs : s = t
    · subst hs
      rw [if_pos rfl, ← hf, logged, pooledTokens_putPool]
    · rw [if_neg hs, Nat.add_zero, logged, putPool]
      simp only [Function.update_of_ne (Ne.symm hs)]
  · rw [hz, ite_self, Nat.add_zero]

theorem sendToken_undistributed {i : Nat} {e : Address × Int256 × Uint256} (he : (entriesOf leaf)[i]? = some e)
    (h : Ok (sendToken D A leaf i) w u w') (t : Address) :
    (w'.hub.pooledTokens t).undistributedLpFees.toNat = (w.hub.pooledTokens t).undistributedLpFees.toNat +
      if e.1 = t then lpShare w.hub.protocolFeeCapturePct e.2.2 else 0 := by
  obtain ⟨s, n, fees, w₁, hs, hn, hf, -, h₁, h₂⟩ := sendToken_iff.mp h
  have hentry : (entriesOf leaf)[i]? = some (s, n, fees) := entriesOf_getElem?.mpr ⟨hs, hn, hf⟩
  obtain rfl := Option.some.inj (he.symm.trans hentry)
  obtain ⟨b, k, -, hmoved, -⟩ := sending_moved h₁
  have hpct : w₁.hub.protocolFeeCapturePct = w.hub.protocolFeeCapturePct := by rw [hmoved.hub]
  have hsame : (w₁.hub.pooledTokens t).undistributedLpFees.toNat =
    (w.hub.pooledTokens t).undistributedLpFees.toNat := by
    rw [hmoved.undistributed t, tally_cons, tally_nil, ite_self]
    rfl
  rw [allocateLpAndProtocolFees_undistributed h₂ t, hsame, hpct]

theorem forEach_undistributed {is : List Nat} (h : Ok (forEach (sendToken D A leaf) is) w u w') (t : Address) :
    ∃ es, List.Forall₂ (fun i e => (entriesOf leaf)[i]? = some e) is es ∧
      (w'.hub.pooledTokens t).undistributedLpFees.toNat = (w.hub.pooledTokens t).undistributedLpFees.toNat +
        (es.map fun e => if e.1 = t then lpShare w.hub.protocolFeeCapturePct e.2.2 else 0).sum := by
  induction is generalizing w with
  | nil =>
      obtain rfl := (forEach_nil_ok _ _ _ _).mp h
      exact ⟨[], .nil, rfl⟩
  | cons i is ih =>
      obtain ⟨w₁, h₁, h₂⟩ := (forEach_cons_ok _ _ _ _ _ _).mp h
      obtain ⟨s, n, fees, -, hs, hn, hf, -⟩ := sendToken_iff.mp h₁
      have he : (entriesOf leaf)[i]? = some (s, n, fees) := entriesOf_getElem?.mpr ⟨hs, hn, hf⟩
      obtain ⟨es, hes, hsum⟩ := ih h₂
      refine ⟨(s, n, fees) :: es, .cons he hes, ?_⟩
      rw [hsum, sendToken_undistributed he h₁ t, (sendToken_sent h₁).pct, List.map_cons, List.sum_cons, Nat.add_assoc]

theorem sendTokens_undistributed (h : Ok (sendTokensToChainAndUpdatePooledTokenTrackers D A leaf) w u w')
    (t : Address) :
    (w'.hub.pooledTokens t).undistributedLpFees.toNat =
      (w.hub.pooledTokens t).undistributedLpFees.toNat + leafFees w.hub.protocolFeeCapturePct leaf t := by
  obtain ⟨es, hes, hsum⟩ := forEach_undistributed h t
  obtain ⟨rfl, -⟩ := entries_of_range hes rfl
  exact hsum

theorem executeRootBundle_undistributed {proof : List Bytes32} (h : Ok (executeRootBundle D A msg leaf proof) w u w')
    (t : Address) : (w'.hub.pooledTokens t).undistributedLpFees.toNat =
      (w.hub.pooledTokens t).undistributedLpFees.toNat + leafFees w.hub.protocolFeeCapturePct leaf t := by
  obtain ⟨-, n, w₁, w₂, -, hsend, hrel, rfl⟩ := executeRootBundle_iff.mp h
  have hpools : w₂.hub.pooledTokens = w₁.hub.pooledTokens := by
    rcases hrel with ⟨-, rfl⟩ | ⟨-, hrel⟩
    · rfl
    · obtain ⟨-, x, -, rfl⟩ := releaseBond_ok.mp hrel
      rfl
  have hsum := sendTokens_undistributed hsend t
  rw [logged, hpools]
  exact hsum

/-- Between the two rates the books have only gained the fees of the leaf. -/
theorem executeRootBundle_grown (hw : WellFormed D w) {proof : List Bytes32}
    (h : Ok (executeRootBundle D A msg leaf proof) w u w') (t : Address) :
    WellFormed D w' ∧ Grown (leafFees w.hub.protocolFeeCapturePct leaf t) (view D t w) (view D t w') := by
  have heffect : Effect D w w' fun _ l => ∃ n, l = .captured n := executeRootBundle_effect hw h fun _ _ _ _ => ⟨_, rfl⟩
  obtain ⟨ls, hact, hcap, -⟩ := heffect.moves t
  have hgrown := hact.grown fun l hl => .inl (hcap l hl)
  have hfees : fees ls = leafFees w.hub.protocolFeeCapturePct leaf t := by
    have h₁ := hgrown.undistributed
    have h₂ := executeRootBundle_undistributed h t
    simp only [view, asset] at h₁
    omega
  rw [hfees] at hgrown
  exact ⟨hw.steady heffect.steady, hgrown⟩

/-- The fees of a token that have come free by now, if it has `undistributed` of them
to hand out since its last update. -/
def released (undistributed : Nat) (t : Address) (w : World) : Nat :=
  streamed unit feeRate undistributed (w.time - (w.hub.pooledTokens t).lastLpFeeUpdate.toNat)

/-- When the fees of a token were last handed out at the time of the execution, its
rate is the same before and after. Otherwise the fees of the leaf count as if they
had been there since then: the value behind the rate rises by what they would have
handed out meanwhile, and by nothing else. -/
theorem rate_across_execution (hg : Genesis D w) (is : List Input) (t : Address) (hs : 0 < lpSupply t (run D w is))
    {proof : List Bytes32} (h : Ok (dispatch D A msg (.executeRootBundle leaf proof)) (run D w is) () w') :
    ∀ r₁ w₁ r₂ w₂, Ok (exchangeRateCurrent D t) (run D w is) r₁ w₁ → Ok (exchangeRateCurrent D t) w' r₂ w₂ →
      (((run D w is).hub.pooledTokens t).lastLpFeeUpdate.toNat = (run D w is).time → r₁ = r₂) ∧
      ∃ value, r₁.toNat = rate unit value (lpSupply t (run D w is)) ∧
        r₂.toNat = rate unit (value +
          (released (((run D w is).hub.pooledTokens t).undistributedLpFees.toNat +
              leafFees (run D w is).hub.protocolFeeCapturePct leaf t) t (run D w is) -
            released ((run D w is).hub.pooledTokens t).undistributedLpFees.toNat t (run D w is)))
          (lpSupply t (run D w is)) := by
  intro r₁ w₁ r₂ w₂ h₁ h₂
  have hw := run_wellFormed (Genesis.wellFormed hg) is
  obtain ⟨hw', hgrown⟩ := executeRootBundle_grown hw (dispatch_ok.mp h).2.2 t
  obtain ⟨_, -, -, hr₁⟩ := exchangeRateInternal_ok hw.zero hw.time h₁
  obtain ⟨_, -, -, hr₂⟩ := exchangeRateInternal_ok hw'.zero hw'.time h₂
  obtain ⟨-, value, hv₁, hv₂⟩ := hgrown.rate hr₁ hr₂ hs
  have hacc : (view D t w').accumulated = released (((run D w is).hub.pooledTokens t).undistributedLpFees.toNat +
      leafFees (run D w is).hub.protocolFeeCapturePct leaf t) t (run D w is) := by
    rw [Asset.accumulated, hgrown.undistributed, hgrown.time, hgrown.lastUpdate]
    rfl
  rw [hacc] at hv₂
  refine ⟨fun htime => BitVec.eq_of_toNat_eq ?_, value, hv₁, hv₂⟩
  have hzero : ∀ n, released n t (run D w is) = 0 := by
    intro n
    rw [released, htime, Nat.sub_self, streamed, Nat.mul_zero, Nat.zero_div, Nat.zero_min]
  have hnone : (view D t (run D w is)).accumulated = 0 := hzero _
  rw [hv₁, hv₂, hzero, hnone, Nat.sub_self, Nat.add_zero]

/-- A leaf with fees of 1000 is about to be executed, two hours after the fees of the
token were last handed out. -/
def sampleReady : World := run sampleDeployment sampleWorld (sampleDeposit ++ sampleProposal 1000)

def sampleExecuted : World :=
  logged (logged (putPool (putProposal sampleReady ⟨sampleRoot 1000, 0, 0, 1, 7, 1, 8200⟩) 5
    { sampleReady.hub.pooledTokens 5 with undistributedLpFees := 1000, utilizedReserves := 1000 })
    (.lpFeesCaptured 5 1000)) (.rootBundleExecuted (sampleLeaf 1000) 9)

theorem sampleReady_executes :
    Ok (dispatch sampleDeployment sampleAnswers ⟨9, 0⟩ (.executeRootBundle (sampleLeaf 1000) []))
    sampleReady () sampleExecuted := by
  have hroute : sampleReady.hub.poolRebalanceRoutes =
    Function.update (fun _ => 0) (poolRebalanceRouteKey 5 10) 14 := rfl
  refine dispatch_ok.mpr ⟨.inr rfl, nofun, sampleLeaf_ok rfl (by decide) rfl rfl rfl ?_ rfl⟩
  rw [hroute, Function.update_self]

/-- The rate goes up by a tenth in the block of the execution. -/
theorem sampleReady_jumps : 0 < lpSupply 5 sampleReady ∧
    Ok (dispatch sampleDeployment sampleAnswers ⟨9, 0⟩ (.executeRootBundle (sampleLeaf 1000) []))
      sampleReady () sampleExecuted ∧
    ∃ w₁ w₂, Ok (exchangeRateCurrent sampleDeployment 5) sampleReady 1000000000000000000 w₁ ∧
      Ok (exchangeRateCurrent sampleDeployment 5) sampleExecuted 1100000000000000000 w₂ :=
  ⟨by decide, sampleReady_executes, _, _, rfl, rfl⟩

theorem sampleReady_smears : ∃ value,
    (1000000000000000000 : Uint256).toNat = rate unit value (lpSupply 5 sampleReady) ∧
    (1100000000000000000 : Uint256).toNat = rate unit (value +
      (released ((sampleReady.hub.pooledTokens 5).undistributedLpFees.toNat +
          leafFees sampleReady.hub.protocolFeeCapturePct (sampleLeaf 1000) 5) 5 sampleReady -
        released (sampleReady.hub.pooledTokens 5).undistributedLpFees.toNat 5 sampleReady))
          (lpSupply 5 sampleReady) := by
  obtain ⟨hs, hexec, w₁, w₂, h₁, h₂⟩ := sampleReady_jumps
  exact (rate_across_execution sampleWorld_genesis (sampleDeposit ++ sampleProposal 1000) 5 hs hexec _ w₁ _ w₂ h₁ h₂).2

end Across.HubSmear
