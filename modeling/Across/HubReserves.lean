import Across.HubReach

namespace Across.HubReserves

open Abi CallExec HubState HubPool HubRun HubRules HubRefine HubReach PooledAsset

def reserves (t : Address) (w : World) : Int :=
  (w.hub.pooledTokens t).liquidReserves.toNat + (w.hub.pooledTokens t).utilizedReserves.toInt

/-- Amounts of the token stay below `2 ^ 255`: what the pool holds of it, and
the fees of the leaves that are executed. -/
def SmallAmounts (D : Deployment) (t : Address) (w : World) (i : Input) : Prop :=
  ((w.tokens t).balance D.self).toNat < 2 ^ 255 ∧
    ∀ msg A leaf proof fees, i = .call msg A (.executeRootBundle leaf proof) →
      (t, fees) ∈ leaf.l1Tokens.zip leaf.bundleLpFees → fees.toNat < 2 ^ 255

/-- What neither brings nor takes the value of LPs: syncs, sends and arrivals,
donations, proposals, disputes, claims of protocol fees, settings, and anything
done with other tokens. -/
def Neutral (t : Address) : Input → Prop
  | .advance _ => False
  | .call _ _ (.addLiquidity s _) => s ≠ t
  | .call _ _ (.removeLiquidity s _ _) => s ≠ t
  | .call _ _ (.exchangeRateCurrent s) => s ≠ t
  | .call _ _ (.haircutReserves s _) => s ≠ t
  | .call _ _ (.enableL1TokenForLiquidityProvision s) => s ≠ t
  | .call _ _ (.executeRootBundle leaf _) => ∀ fees, (t, fees) ∈ leaf.l1Tokens.zip leaf.bundleLpFees → fees = 0
  | _ => True

variable {D : Deployment} {t : Address} {w : World} {i : Input} {is js : List Input}

theorem lpShare_le (pct fees : Uint256) : lpShare pct fees ≤ fees.toNat := Nat.sub_le _ _

theorem small_captured {n : Nat} (hs : SmallAmounts D t w i) (h : Cause D w t i (.captured n)) : n < 2 ^ 255 := by
  cases h with
  | captured msg A leaf proof fees hz _ => exact (lpShare_le _ fees).trans_lt (hs.2 msg A leaf proof fees rfl hz)

theorem neutral_paid (hn : Neutral t i) {l : Label} (h : Cause D w t i l) : ∃ n, l = .paid n := by
  cases h with
  | tick => exact hn.elim
  | quoted | quotedAdd | added | quotedRemove | removed | cut | opened => exact absurd rfl hn
  | captured msg A leaf proof fees hz hpos =>
      rw [hn fees hz, lpShare] at hpos
      simp at hpos
  | claimed | expired => exact ⟨_, rfl⟩

theorem step_reserves (hw : WellFormed D w) (hs : SmallAmounts D t w i) :
    reserves t (step D w i) - booked t (step D w i).log = reserves t w - booked t w.log := by
  obtain ⟨ls, hact, hcause, hbook⟩ := (step_refines hw i).2 t
  have hr : reserves t (step D w i) = reserves t w + net ls :=
    hact.reserves hs.1 fun n hn => small_captured hs (hcause _ hn)
  omega

theorem step_neutral (hw : WellFormed D w) (hn : Neutral t i) :
    SameBooks (view D t w) (view D t (step D w i)) ∧ booked t (step D w i).log = booked t w.log := by
  obtain ⟨ls, hact, hcause, hbook⟩ := (step_refines hw i).2 t
  have hpaid : ∀ l ∈ ls, ∃ n, l = .paid n := fun l hl => neutral_paid hn (hcause l hl)
  have hnet : net ls = 0 := by
    apply List.sum_eq_zero
    intro x hx
    obtain ⟨l, hl, rfl⟩ := List.mem_map.mp hx
    obtain ⟨n, rfl⟩ := hpaid l hl
    rfl
  exact ⟨hact.sameBooks hpaid, by rw [hbook, hnet, Int.add_zero]⟩

theorem run_neutral (hw : WellFormed D w) (hn : ∀ j ∈ js, Neutral t j) :
    SameBooks (view D t w) (view D t (run D w js)) ∧ booked t (run D w js).log = booked t w.log := by
  induction js generalizing w with
  | nil => exact ⟨.refl _, rfl⟩
  | cons j js ih =>
      obtain ⟨h₁, hb₁⟩ := step_neutral hw (hn j List.mem_cons_self)
      obtain ⟨h₂, hb₂⟩ := ih (step_refines hw j).1 fun k hk => hn k (List.mem_cons_of_mem _ hk)
      exact ⟨h₁.trans h₂, hb₂.trans hb₁⟩

theorem run_reserves (hw : WellFormed D w) (hs : Along D (SmallAmounts D t) w is) :
    reserves t (run D w is) - booked t (run D w is).log = reserves t w - booked t w.log :=
  run_invariant (I := fun v => reserves t v - booked t v.log = reserves t w - booked t w.log)
    (fun _ _ hw h hs => (step_reserves hw hs).trans h) hw rfl hs

/-- The reserves of a token are what was added, less what was removed, plus
the LP fees captured, less the haircuts. Neutral steps leave them alone, and
with them the rate at a fixed time. -/
theorem reserves_accounted (hg : Genesis D w) (t : Address) (is : List Input)
    (hs : Along D (SmallAmounts D t) w is) :
    reserves t (run D w is) = total (added t) (run D w is).log - total (removed t) (run D w is).log +
        total (captured t) (run D w is).log - total (cut t) (run D w is).log ∧
      ∀ js, (∀ j ∈ js, Neutral t j) →
        (Along D (SmallAmounts D t) (run D w is) js →
          reserves t (run D (run D w is) js) = reserves t (run D w is)) ∧
        ∀ r w₁ r' w₂, Ok (exchangeRateCurrent D t) (run D w is) r w₁ →
          Ok (exchangeRateCurrent D t) (run D (run D w is) js) r' w₂ → r = r' := by
  have hw := Genesis.wellFormed hg
  have hw' := run_wellFormed hw is
  constructor
  · have hr := run_reserves hw hs
    obtain ⟨owner, hh⟩ := hg.hub
    have h0 : reserves t w = 0 := by
      rw [reserves, hh]
      rfl
    rw [h0, hg.log] at hr
    have hb : booked t [] = 0 := rfl
    change _ = booked t (run D w is).log
    omega
  · intro js hn
    obtain ⟨hsame, hbook⟩ := run_neutral hw' hn
    constructor
    · intro hsj
      have hr := run_reserves hw' hsj
      omega
    · intro r w₁ r' w₂ h₁ h₂
      obtain ⟨_, -, -, hr₁⟩ := exchangeRateInternal_ok hw'.zero hw'.time h₁
      have hw'' := run_wellFormed hw' js
      obtain ⟨_, -, -, hr₂⟩ := exchangeRateInternal_ok hw''.zero hw''.time h₂
      exact BitVec.eq_of_toNat_eq (hsame.rate_eq hr₁ hr₂)

theorem sampleDeposit_small : Along sampleDeployment (SmallAmounts sampleDeployment 5) sampleWorld sampleDeposit := by
  refine ⟨⟨by decide, ?_⟩, ⟨by decide, ?_⟩, trivial⟩
  · intro _ _ _ _ _ h
    cases h
  · intro _ _ _ _ _ h
    cases h

/-- A donation and a sync follow the deposit. -/
theorem sampleDeposit_accounted :
    reserves 5 (run sampleDeployment sampleWorld sampleDeposit) = 100 ∧
      reserves 5 (run sampleDeployment (run sampleDeployment sampleWorld sampleDeposit)
        [.mint 5 1 50, sampleCall 9 (.sync 5)]) = 100 := by
  have h := reserves_accounted sampleWorld_genesis 5 sampleDeposit sampleDeposit_small
  have h₁ : reserves 5 (run sampleDeployment sampleWorld sampleDeposit) = 100 := by
    rw [h.1]
    decide
  refine ⟨h₁, ?_⟩
  rw [(h.2 [.mint 5 1 50, sampleCall 9 (.sync 5)] ?_).1 ?_, h₁]
  · intro j hj
    simp only [List.mem_cons, List.not_mem_nil, or_false] at hj
    rcases hj with rfl | rfl
    · trivial
    · trivial
  · refine ⟨⟨by decide, ?_⟩, ⟨by decide, ?_⟩, trivial⟩
    · intro _ _ _ _ _ h
      cases h
    · intro _ _ _ _ _ h
      cases h

end Across.HubReserves
