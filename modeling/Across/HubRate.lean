import Across.HubReach

namespace Across.HubRate

open Abi CallExec HubState HubPool HubRun HubRules HubRefine HubReach PooledAsset

def lpSupply (t : Address) (w : World) : Nat := supplyOf w (w.hub.pooledTokens t).lpToken

/-- The step is no haircut of the token, and is made while LP tokens exist. -/
def Undiluted (t : Address) (w : World) (i : Input) : Prop :=
  0 < lpSupply t w ∧ ∀ msg A n, i ≠ .call msg A (.haircutReserves t n)

variable {D : Deployment} {t : Address} {w : World} {i : Input} {js : List Input} {r : Nat}

theorem step_backed (hw : WellFormed D w) (hi : Undiluted t w i) (h : Backed r (view D t w)) :
    Backed r (view D t (step D w i)) := by
  obtain ⟨ls, hact, hcause, -⟩ := (step_refines hw i).2 t
  refine hact.backed (fun n hn => ?_) hi.1 h
  cases hcause _ hn with
  | cut msg A n => exact hi.2 msg A n rfl

theorem run_backed (hw : WellFormed D w) (h : Backed r (view D t w)) (hj : Along D (Undiluted t) w js) :
    Backed r (view D t (run D w js)) :=
  run_invariant (I := fun v => Backed r (view D t v)) (fun _ _ hw h hi => step_backed hw hi h) hw h hj

/-- As long as LP tokens exist and no haircut is made, a later exchange rate is
at least an earlier one. -/
theorem exchangeRate_never_decreases (hg : Genesis D w) (t : Address) (is js : List Input)
    (hj : Along D (Undiluted t) (run D w is) js) (hs : 0 < lpSupply t (run D (run D w is) js)) :
    ∀ r₁ w₁ r₂ w₂, Ok (exchangeRateCurrent D t) (run D w is) r₁ w₁ →
      Ok (exchangeRateCurrent D t) (run D (run D w is) js) r₂ w₂ → r₁.toNat ≤ r₂.toNat := by
  intro r₁ w₁ r₂ w₂ h₁ h₂
  have hw := run_wellFormed (Genesis.wellFormed hg) is
  have hw' := run_wellFormed hw js
  obtain ⟨_, -, -, hr₁⟩ := exchangeRateInternal_ok hw.zero hw.time h₁
  obtain ⟨_, -, -, hr₂⟩ := exchangeRateInternal_ok hw'.zero hw'.time h₂
  have hs₁ : 0 < lpSupply t (run D w is) := by
    cases js with
    | nil => exact hs
    | cons j js => exact hj.1.1
  exact (run_backed hw (hr₁.backed hs₁) hj).le_rate hr₂ hs

/-- The provider takes 30 of the 100 LP tokens back, and time passes. -/
def sampleWithdrawal : List Input := [sampleCall 4 (.removeLiquidity 5 30 false), .advance 60]

theorem sampleWithdrawal_rate : ∃ r₁ w₁ r₂ w₂,
    Ok (exchangeRateCurrent sampleDeployment 5) (run sampleDeployment sampleWorld sampleDeposit) r₁ w₁ ∧
    Ok (exchangeRateCurrent sampleDeployment 5)
      (run sampleDeployment (run sampleDeployment sampleWorld sampleDeposit) sampleWithdrawal) r₂ w₂ ∧
    0 < r₁.toNat ∧ r₁.toNat ≤ r₂.toNat := by
  have h := exchangeRate_never_decreases sampleWorld_genesis 5 sampleDeposit sampleWithdrawal
    ⟨⟨by decide, by rintro _ _ _ ⟨⟩⟩, ⟨by decide, by rintro _ _ _ ⟨⟩⟩, trivial⟩ (by decide)
  exact ⟨1000000000000000000, _, 1000000000000000000, _, rfl, rfl, by decide, h _ _ _ _ rfl rfl⟩

end Across.HubRate
