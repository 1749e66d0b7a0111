import Across.HubReach
import Across.HubRate

namespace Across.HubEquity

open Abi CallExec HubState HubPool HubRun HubRules HubRefine HubSteps HubReach HubRate PooledAsset

/-- What the LP tokens of a token stand for in the books. -/
def equity (t : Address) (w : World) : Int :=
  (w.hub.pooledTokens t).liquidReserves.toNat + (w.hub.pooledTokens t).utilizedReserves.toInt -
    (w.hub.pooledTokens t).undistributedLpFees.toNat

/-- A haircut takes no more than that. -/
def HaircutCovered (t : Address) (w : World) (i : Input) : Prop :=
  ∀ msg A n, i = .call msg A (.haircutReserves t n) → n.toInt ≤ equity t w

/-- The amounts that the pool casts to signed numbers when it syncs and rates
the token. -/
def InRange (D : Deployment) (t : Address) (w : World) : Prop :=
  ((w.tokens t).balance D.self).toNat < 2 ^ 255 ∧ (w.hub.pooledTokens t).liquidReserves.toNat < 2 ^ 255

def CastsFit (D : Deployment) (t : Address) (w : World) (i : Input) : Prop :=
  InRange D t w ∧ ∀ msg A leaf proof fees, i = .call msg A (.executeRootBundle leaf proof) →
    (t, fees) ∈ leaf.l1Tokens.zip leaf.bundleLpFees → lpShare w.hub.protocolFeeCapturePct fees < 2 ^ 255

variable {D : Deployment} {t : Address} {w : World} {i : Input}

theorem step_equity (hw : WellFormed D w) (h0 : 0 ≤ equity t w) (hi : HaircutCovered t w i ∧ CastsFit D t w i) :
    0 ≤ equity t (step D w i) := by
  obtain ⟨hcut, hrange, hfees⟩ := hi
  obtain ⟨ls, hact, hcause, -⟩ := (step_refines hw i).2 t
  refine hact.equity hrange.1 hrange.2 (fun n hn => ?_) (fun n hn => ?_) h0
  · cases hcause _ hn with
    | captured msg A leaf proof fees hz _ => exact hfees msg A leaf proof fees rfl hz
  · cases hcause _ hn with
    | cut msg A n => exact hcut msg A n rfl

/-- Where no cast wraps, the numerator is what the LP tokens stand for, which
only grows on the way to it. -/
theorem numerator_nonneg (hw : WellFormed D w) (h0 : 0 ≤ equity t w) (hr : InRange D t w) {n : Int256} {w' : World}
    (h : Ok (exchangeRateNumerator D t) w n w') : 0 ≤ n.toInt := by
  obtain ⟨p, -, -, b, hb, hc, hn⟩ := exchangeRateNumerator_ok hw.time h
  obtain ⟨hnum, heq⟩ := numerator_of_equity hb hc hr.1 hr.2
  have h0' : 0 ≤ (view D t w).equity := h0
  rw [hn, hnum, heq]
  omega

/-- In a run whose casts fit and whose haircuts are covered, the reserves of
every token cover the fees still to be handed out, and no negative numerator is
cast to an unsigned one. -/
theorem equity_nonneg_of_castsFit (hg : Genesis D w) (t : Address) (is : List Input)
    (hi : Along D (fun v i => HaircutCovered t v i ∧ CastsFit D t v i) w is) :
    0 ≤ equity t (run D w is) ∧ (InRange D t (run D w is) →
      ∀ n w', Ok (exchangeRateNumerator D t) (run D w is) n w' → 0 ≤ n.toInt) := by
  have hw := Genesis.wellFormed hg
  have h0 : 0 ≤ equity t w := by
    obtain ⟨owner, hh⟩ := hg.hub
    rw [equity, hh]
    exact Int.le_refl 0
  have hrun : 0 ≤ equity t (run D w is) :=
    run_invariant (I := fun v => 0 ≤ equity t v) (fun _ _ hw h0 hi => step_equity hw h0 hi) hw h0 hi
  exact ⟨hrun, fun hr n w' h => numerator_nonneg (run_wellFormed hw is) hrun hr h⟩

theorem sampleDeposit_equity : 0 ≤ equity 5 (run sampleDeployment sampleWorld sampleDeposit) := by
  refine (equity_nonneg_of_castsFit sampleWorld_genesis 5 sampleDeposit ⟨⟨?_, ?_, ?_⟩, ⟨?_, ?_, ?_⟩, trivial⟩).1
  · rintro _ _ _ ⟨⟩
  · exact ⟨by decide, by decide⟩
  · rintro _ _ _ _ _ ⟨⟩
  · rintro _ _ _ ⟨⟩
  · exact ⟨by decide, by decide⟩
  · rintro _ _ _ _ _ ⟨⟩

def hugeFees : Uint256 := 0x8000000000000000000000000000000000000000000000000000000000000000

/-- A leaf with these fees is about to be executed. -/
def sampleReady : World := run sampleDeployment sampleWorld (sampleDeposit ++ sampleProposal hugeFees)

def sampleExecuted : World :=
  logged (logged (putPool (putProposal sampleReady ⟨sampleRoot hugeFees, 0, 0, 1, 7, 1, 8200⟩) 5
    { sampleReady.hub.pooledTokens 5 with undistributedLpFees := hugeFees, utilizedReserves := hugeFees })
    (.lpFeesCaptured 5 hugeFees)) (.rootBundleExecuted (sampleLeaf hugeFees) 9)

theorem sampleLeaf_executes :
    step sampleDeployment sampleReady (sampleCall 9 (.executeRootBundle (sampleLeaf hugeFees) [])) =
      sampleExecuted := by
  have hroute : sampleReady.hub.poolRebalanceRoutes =
    Function.update (fun _ => 0) (poolRebalanceRouteKey 5 10) 14 := rfl
  refine sampleLeaf_step rfl (by decide) rfl rfl rfl ?_ rfl
  rw [hroute, Function.update_self]

/-- Cast to a signed number the fees are `-2 ^ 255`, so executing the leaf leaves the
fees to be handed out uncovered. No haircut was made. -/
theorem sampleLeaf_uncovers_fees :
    Along sampleDeployment (HaircutCovered 5) sampleWorld (sampleDeposit ++ sampleProposal hugeFees ++
      [sampleCall 9 (.executeRootBundle (sampleLeaf hugeFees) [])]) ∧
    0 < lpSupply 5 (run sampleDeployment sampleWorld (sampleDeposit ++ sampleProposal hugeFees ++
      [sampleCall 9 (.executeRootBundle (sampleLeaf hugeFees) [])])) ∧
    equity 5 (run sampleDeployment sampleWorld (sampleDeposit ++ sampleProposal hugeFees ++
      [sampleCall 9 (.executeRootBundle (sampleLeaf hugeFees) [])])) < 0 := by
  have hrun : run sampleDeployment sampleWorld (sampleDeposit ++ sampleProposal hugeFees ++
      [sampleCall 9 (.executeRootBundle (sampleLeaf hugeFees) [])]) = sampleExecuted := by
    rw [run_append, run_cons, run_nil]
    exact sampleLeaf_executes
  rw [hrun]
  refine ⟨?_, by decide, by decide⟩
  refine ⟨?_, ?_, ?_, ?_, ?_, ?_, ?_, ?_, trivial⟩
  all_goals rintro _ _ _ ⟨⟩

end Across.HubEquity
