import Across.HubSteps

namespace Across.HubReach

open Abi CallExec CallExec.Exec Erc20 HubState HubPool HubRun HubRules HubRefine HubSteps PooledAsset

variable {D : Deployment} {w w' : World} {msg : Msg} {A : Answers} {op : Op} {i : Input}

/-- A step of the chain is, for every token, one of the things that can happen
to it. -/
def Refines (D : Deployment) (w w' : World) (i : Input) : Prop :=
  WellFormed D w' ∧ ∀ t, Moves D w w' t (Cause D w t i)

theorem refines_of_effect (hw : WellFormed D w) (h : Effect D w w' fun t => Cause D w t i) : Refines D w w' i :=
  ⟨hw.steady h.steady, h.moves⟩

theorem Refines.refl (hw : WellFormed D w) : Refines D w w i := refines_of_effect hw .refl

theorem setting_refines {h : Hub} {e : Entry} (hw : WellFormed D w) (hp : h.pooledTokens = w.hub.pooledTokens)
    (hr : h.rootBundleProposal = w.hub.rootBundleProposal) (hh : ∀ t, heldFor t h = heldFor t w.hub)
    (he : ∀ t, booking t e = 0) : Refines D w (logged { w with hub := h } e) i :=
  refines_of_effect hw (effect_setHub hp hr hh he)

theorem body_refines (hw : WellFormed D w) (hs : msg.sender ≠ D.self) (h : Ok (body D A msg op) w () w') :
    Refines D w w' (.call msg A op) := by
  cases op with
  | setPaused pause =>
      simp only [body, setPaused, setHub, bind_ok, update_ok, emit_ok] at h
      obtain ⟨_, _, rfl, rfl⟩ := h
      exact setting_refines hw rfl rfl (fun _ => rfl) fun _ => rfl
  | emergencyDeleteProposal => exact refines_of_effect hw (emergencyDeleteProposal_effect hw h)
  | relaySpokePoolAdminFunction chainId data => exact refines_of_effect hw (relaySpokePoolAdminFunction_effect h)
  | setProtocolFeeCapture a pct =>
      simp only [body, setProtocolFeeCapture, setHub, bind_ok, require_ok, update_ok, emit_ok] at h
      obtain ⟨_, _, ⟨-, rfl⟩, _, _, ⟨-, rfl⟩, _, _, rfl, rfl⟩ := h
      exact setting_refines hw rfl rfl (fun _ => rfl) fun _ => rfl
  | setBond token amount => exact refines_of_effect hw (setBond_effect h)
  | setLiveness l =>
      simp only [body, setLiveness, setHub, bind_ok, require_ok, update_ok, emit_ok] at h
      obtain ⟨_, _, ⟨-, rfl⟩, _, _, rfl, rfl⟩ := h
      exact setting_refines hw rfl rfl (fun _ => rfl) fun _ => rfl
  | setIdentifier n =>
      simp only [body, setIdentifier, setHub, bind_ok, noActiveRequests_ok, require_ok, update_ok, emit_ok] at h
      obtain ⟨_, _, ⟨-, rfl⟩, _, _, ⟨-, rfl⟩, _, _, rfl, rfl⟩ := h
      exact setting_refines hw rfl rfl (fun _ => rfl) fun _ => rfl
  | setCrossChainContracts c a s =>
      simp only [body, setCrossChainContracts, setHub, bind_ok, update_ok, emit_ok] at h
      obtain ⟨_, _, rfl, rfl⟩ := h
      exact setting_refines hw rfl rfl (fun _ => rfl) fun _ => rfl
  | setPoolRebalanceRoute c t d =>
      simp only [body, setPoolRebalanceRoute, setHub, bind_ok, update_ok, emit_ok] at h
      obtain ⟨_, _, rfl, rfl⟩ := h
      exact setting_refines hw rfl rfl (fun _ => rfl) fun _ => rfl
  | setDepositRoute o d t b => exact refines_of_effect hw (setDepositRoute_effect h)
  | enableL1TokenForLiquidityProvision t => exact enable_refines hw h (.opened msg A)
  | disableL1TokenForLiquidityProvision t => exact refines_of_effect hw (disable_effect h)
  | haircutReserves t n => exact refines_of_effect hw (haircutReserves_effect h (.cut msg A n))
  | addLiquidity t n => exact refines_of_effect hw (addLiquidity_effect hw hs h (.quotedAdd msg A n) (.added msg A n))
  | removeLiquidity t n eth =>
      exact refines_of_effect hw (removeLiquidity_effect hw hs h (.quotedRemove msg A n eth) (.removed msg A n eth))
  | exchangeRateCurrent t =>
      simp only [body, bind_ok, pure_ok] at h
      obtain ⟨r, _, h, -, rfl⟩ := h
      exact refines_of_effect hw (exchangeRate_effect hw h (.quoted msg A))
  | liquidityUtilizationCurrent t | liquidityUtilizationPostRelay t n =>
      simp only [body, bind_ok, pure_ok] at h
      obtain ⟨r, _, h, -, rfl⟩ := h
      exact refines_of_effect hw (liquidityUtilization_effect h)
  | sync t => exact refines_of_effect hw (sync_effect h)
  | proposeRootBundle ns n r₁ r₂ r₃ => exact refines_of_effect hw (proposeRootBundle_effect hs h)
  | executeRootBundle leaf proof =>
      exact refines_of_effect hw (executeRootBundle_effect hw h
        fun s fees hz hpos => .captured msg A leaf proof fees hz hpos)
  | disputeRootBundle =>
      exact refines_of_effect hw (disputeRootBundle_effect hw hs h fun ha ht => .expired msg A ha rfl ht)
  | claimProtocolFeesCaptured t =>
      exact refines_of_effect hw (claimProtocolFeesCaptured_effect h fun hne => .claimed msg A hne)
  | loadEthForL2Calls =>
      obtain ⟨-, rfl⟩ := (pure_ok _ _ _ _).mp h
      exact .refl hw

section Elsewhere

variable {a : Address} {x : Token Address} {n : Uint256}

theorem token_refines (hw : WellFormed D w) (hc : w.code a = true)
    (hsup : w.lpTokens a = true → x.supply = (w.tokens a).supply)
    (hbal : ((w.tokens a).balance D.self).toNat ≤ (x.balance D.self).toNat) :
    Refines D w { w with tokens := Function.update w.tokens a x } i := by
  refine ⟨hw.steady (steady_putToken (.refl D w) hc), fun t => .silent ?_ rfl⟩
  have hass : view D t (putToken w a x) = { view D t w with
      balance := (view D t w).balance +
        if t = a then (x.balance D.self).toNat - ((w.tokens a).balance D.self).toNat else 0 } := by
    rw [view, asset_putToken]
    refine Asset.ext rfl rfl rfl rfl ?_ ?_ rfl rfl
    · by_cases hl : (w.hub.pooledTokens t).lpToken = a ∧ a ≠ 0
      · have hlp : w.lpTokens a = true := hl.1 ▸ hw.pools t (hl.1.symm ▸ hl.2)
        rw [if_pos hl, hsup hlp]
        simp only [view, asset, supplyOf, hl.1]
        exact (if_neg hl.2).symm
      · rw [if_neg hl]
        rfl
    · by_cases ht : t = a
      · subst ht
        simp only [if_true, view, asset]
        omega
      · simp only [if_neg ht, Nat.add_zero]
        rfl
  exact (Act.receive (view D t w) _).congr hass

theorem onToken_refines {f : Token Address → Option (Token Address)} (hw : WellFormed D w)
    (hf : ∀ x, f (w.tokens a) = some x → (w.lpTokens a = true → x.supply = (w.tokens a).supply) ∧
      ((w.tokens a).balance D.self).toNat ≤ (x.balance D.self).toNat) : Refines D w (onToken a f w) i := by
  rcases onToken_cases a f w with h | ⟨x, hc, hx, h⟩
  · rw [h]
    exact .refl hw
  · rw [h]
    exact token_refines hw hc (hf x hx).1 (hf x hx).2

theorem deploy_refines (hw : WellFormed D w) (hc : w.code a = false) (h0 : a ≠ 0) :
    Refines D w { w with code := Function.update w.code a true, tokens := Function.update w.tokens a x } i := by
  have hfresh : ∀ s, (w.hub.pooledTokens s).lpToken ≠ 0 → (w.hub.pooledTokens s).lpToken ≠ a := by
    intro s hs h
    have := hw.issued _ (hw.pools s hs)
    rw [h, hc] at this
    cases this
  refine ⟨⟨?_, ?_, hw.wethPlain, fun b hb => ?_, fun b hb => ?_, hw.pools, hw.distinct, hw.proposer, hw.time⟩,
    fun t => .silent ?_ rfl⟩
  · simp only [Function.update_of_ne h0.symm, hw.zero]
  · by_cases h : D.weth = a
    · simp only [h, Function.update_self]
    · simp only [Function.update_of_ne h, hw.weth]
  · by_cases hba : b = a
    · simp only [hba, Function.update_self] at hb
      cases hb
    · simp only [Function.update_of_ne hba] at hb ⊢
      exact hw.bare b hb
  · by_cases hba : b = a
    · simp only [hba, Function.update_self]
    · simp only [Function.update_of_ne hba]
      exact hw.issued b hb
  · have hass : view D t (putToken w a x) = { view D t w with
        balance := (view D t w).balance + if t = a then (x.balance D.self).toNat else 0 } := by
      rw [view, asset_putToken]
      refine Asset.ext rfl rfl rfl rfl ?_ ?_ rfl rfl
      · have hl : ¬ ((w.hub.pooledTokens t).lpToken = a ∧ a ≠ 0) := fun hl => hfresh t (hl.1.symm ▸ hl.2) hl.1
        rw [if_neg hl]
        rfl
      · by_cases ht : t = a
        · subst ht
          simp only [if_true, view, asset, hw.bare t hc, Token.empty]
          exact (Nat.zero_add _).symm
        · simp only [if_neg ht, Nat.add_zero]
          rfl
    exact (Act.receive (view D t w) _).congr hass

end Elsewhere

theorem step_refines (hw : WellFormed D w) (i : Input) : Refines D w (step D w i) i := by
  cases i with
  | call msg A op =>
      rcases step_call D w msg A op with h | ⟨hs, h⟩
      · rw [h]
        exact .refl hw
      · exact body_refines hw hs h
  | advance seconds =>
      simp only [step]
      split
      · rename_i hlt
        refine ⟨⟨hw.zero, hw.weth, hw.wethPlain, hw.bare, hw.issued, hw.pools, hw.distinct, hw.proposer, hlt⟩,
          fun t => .one (l := .ticked) ?_ (.tick seconds) (Int.add_zero _).symm⟩
        exact Act.tick (view D t w) (w.time + seconds) (Nat.le_add_right _ _)
      · exact .refl hw
  | transfer token src dst amount =>
      simp only [step]
      split
      · exact .refl hw
      · rename_i hs
        refine onToken_refines hw fun x hx => ?_
        obtain ⟨hsup, -, hbal⟩ := transfer_some hx
        have hb := hbal D.self
        rw [if_neg (Ne.symm hs)] at hb
        exact ⟨fun _ => hsup, by omega⟩
  | mint token dst amount =>
      simp only [step]
      split
      · exact .refl hw
      · rename_i hlp
        refine onToken_refines hw fun x hx => ?_
        obtain ⟨-, hbal⟩ := mint_some hx
        have hb := hbal D.self
        exact ⟨fun h => absurd h hlp, by omega⟩
  | burn token src amount =>
      simp only [step]
      split
      · exact .refl hw
      · rename_i hc
        refine onToken_refines hw fun x hx => ?_
        obtain ⟨-, hbal⟩ := burn_some hx
        have hb := hbal D.self
        rw [if_neg fun h => hc (.inr h.symm)] at hb
        exact ⟨fun h => absurd (.inl h) hc, by omega⟩
  | deploy account token =>
      simp only [step]
      split
      · exact .refl hw
      · rename_i hc
        have hcode : w.code account = false := by
          cases h : w.code account with
          | false => rfl
          | true => exact absurd (.inl h) hc
        exact deploy_refines hw hcode fun h => hc (.inr h)
  | newOwner owner => exact ⟨⟨hw.zero, hw.weth, hw.wethPlain, hw.bare, hw.issued, hw.pools, hw.distinct,
      hw.proposer, hw.time⟩, fun t => .idle rfl rfl⟩

section Runs

def Along (D : Deployment) (P : World → Input → Prop) : World → List Input → Prop
  | _, [] => True
  | w, i :: is => P w i ∧ Along D P (step D w i) is

variable {P : World → Input → Prop} {I : World → Prop} {is : List Input}

theorem run_wellFormed (hw : WellFormed D w) (is : List Input) : WellFormed D (run D w is) := by
  induction is generalizing w with
  | nil => exact hw
  | cons i is ih => exact ih (step_refines hw i).1

theorem run_invariant (hstep : ∀ w i, WellFormed D w → I w → P w i → I (step D w i)) (hw : WellFormed D w)
    (h0 : I w) (hP : Along D P w is) : I (run D w is) := by
  induction is generalizing w with
  | nil => exact h0
  | cons i is ih => exact ih (step_refines hw i).1 (hstep w i hw h0 hP.1) hP.2

end Runs

end Across.HubReach
