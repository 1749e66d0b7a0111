import Across.HubRun
import Across.PooledAsset

namespace Across.HubRules

open Abi CallExec CallExec.Exec Erc20 Checked HubState HubPool PooledAsset

section Worlds

def putPool (w : World) (t : Address) (p : PooledToken) : World :=
  { w with hub := { w.hub with pooledTokens := Function.update w.hub.pooledTokens t p } }

def putToken (w : World) (a : Address) (x : Token Address) : World :=
  { w with tokens := Function.update w.tokens a x }

def putProposal (w : World) (p : RootBundle) : World := { w with hub := { w.hub with rootBundleProposal := p } }

def logged (w : World) (e : Entry) : World := { w with log := w.log ++ [e] }

theorem putPool_putPool (w : World) (t : Address) (p q : PooledToken) :
    putPool (putPool w t p) t q = putPool w t q := by
  simp only [putPool, Function.update_idem]

@[simp] theorem pooledTokens_putPool (w : World) (t : Address) (p : PooledToken) :
    (putPool w t p).hub.pooledTokens t = p := Function.update_self _ _ _

theorem putPool_self (w : World) (t : Address) : putPool w t (w.hub.pooledTokens t) = w := by
  simp only [putPool, Function.update_eq_self]

end Worlds

section Primitives

variable {w w' : World} {u : Unit} {t : Address}

@[simp] theorem setPool_ok {f : PooledToken → PooledToken} :
    Ok (setPool t f) w u w' ↔ putPool w t (f (w.hub.pooledTokens t)) = w' := update_ok _ _ _ _

@[simp] theorem setProposal_ok {f : RootBundle → RootBundle} :
    Ok (setProposal f) w u w' ↔ putProposal w (f w.hub.rootBundleProposal) = w' := update_ok _ _ _ _

@[simp] theorem emit_ok {e : Entry} : Ok (emit e) w u w' ↔ logged w e = w' := update_ok _ _ _ _

@[simp] theorem changeToken_ok {f : Token Address → Option (Token Address)} :
    Ok (changeToken t f) w u w' ↔
      w.code t = true ∧ ∃ x, f (w.tokens t) = some x ∧ putToken w t x = w' := by
  simp only [changeToken, bind_ok, read_ok, require_ok]
  constructor
  · rintro ⟨_, _, ⟨rfl, rfl⟩, _, _, ⟨hc, rfl⟩, h⟩
    split at h
    · simp at h
    · rename_i x hx
      exact ⟨hc, x, hx, (update_ok _ _ _ _).mp h⟩
  · rintro ⟨hc, x, hx, h⟩
    refine ⟨w, w, ⟨rfl, rfl⟩, (), w, ⟨hc, rfl⟩, ?_⟩
    rw [hx]
    exact (update_ok _ _ _ _).mpr h

@[simp] theorem balanceOf_ok {a : Address} {n : Uint256} :
    Ok (balanceOf t a) w n w' ↔ w.code t = true ∧ (w.tokens t).balance a = n ∧ w = w' := by
  simp [balanceOf, and_comm, and_left_comm, and_assoc]

@[simp] theorem totalSupply_ok {n : Uint256} :
    Ok (totalSupply t) w n w' ↔ w.code t = true ∧ (w.tokens t).supply = n ∧ w = w' := by
  simp [totalSupply, and_comm, and_left_comm]

@[simp] theorem unpaused_ok : Ok unpaused w u w' ↔ w.hub.paused = false ∧ w = w' := by
  simp [unpaused, and_comm]

@[simp] theorem noActiveRequests_ok :
    Ok noActiveRequests w u w' ↔ activeRequest w.hub = false ∧ w = w' := by
  simp [noActiveRequests, and_comm]

theorem unpaused_bind_ok {α : Type} {f : Unit → HubCode α} {a : α} :
    Ok (unpaused >>= f) w a w' ↔ w.hub.paused = false ∧ Ok (f ()) w a w' :=
  check_bind_ok fun x v => by rw [unpaused_ok, eq_self, true_and]

theorem noActiveRequests_bind_ok {α : Type} {f : Unit → HubCode α} {a : α} :
    Ok (noActiveRequests >>= f) w a w' ↔ activeRequest w.hub = false ∧ Ok (f ()) w a w' :=
  check_bind_ok fun x v => by rw [noActiveRequests_ok, eq_self, true_and]

@[simp] theorem safeTransfer_ok {D : Deployment} {dst : Address} {n : Uint256} :
    Ok (safeTransfer D t dst n) w u w' ↔
      w.code t = true ∧ ∃ x, (w.tokens t).transfer D.self dst n = some x ∧ putToken w t x = w' :=
  changeToken_ok

@[simp] theorem safeTransferFrom_ok {D : Deployment} {A : Answers} {src : Address} {n : Uint256} :
    Ok (safeTransferFrom D A t src n) w u w' ↔ A.approved w t src n = true ∧
      w.code t = true ∧ ∃ x, (w.tokens t).transfer src D.self n = some x ∧ putToken w t x = w' := by
  simp [safeTransferFrom]

@[simp] theorem releaseBond_ok {D : Deployment} {a : Address} :
    Ok (releaseBond D a) w u w' ↔ w.code w.hub.bondToken = true ∧
      ∃ x, (w.tokens w.hub.bondToken).transfer D.self a w.hub.bondAmount = some x ∧
        logged (putToken w w.hub.bondToken x) (.bondReleased w.hub.bondToken w.hub.bondAmount a) = w' := by
  simp only [releaseBond, bind_ok, read_ok, safeTransfer_ok, emit_ok]
  constructor
  · rintro ⟨_, _, ⟨rfl, rfl⟩, _, _, ⟨hc, x, hx, rfl⟩, rfl⟩
    exact ⟨hc, x, hx, rfl⟩
  · rintro ⟨hc, x, hx, rfl⟩
    exact ⟨w, w, ⟨rfl, rfl⟩, (), _, ⟨hc, x, hx, rfl⟩, rfl⟩

end Primitives

section Assets

variable (D : Deployment)

/-- The LP tokens in circulation. A token that was never enabled has none. -/
def supplyOf (w : World) (lpToken : Address) : Nat :=
  if lpToken = 0 then 0 else (w.tokens lpToken).supply.toNat

/-- One token of the pool, `held` of which belongs to a proposal. -/
def asset (held : Nat) (t : Address) (w : World) : Asset where
  liquid := (w.hub.pooledTokens t).liquidReserves.toNat
  utilized := (w.hub.pooledTokens t).utilizedReserves.toInt
  undistributed := (w.hub.pooledTokens t).undistributedLpFees.toNat
  lastUpdate := (w.hub.pooledTokens t).lastLpFeeUpdate.toNat
  supply := supplyOf w (w.hub.pooledTokens t).lpToken
  balance := ((w.tokens t).balance D.self).toNat
  held := held
  time := w.time

def heldFor (t : Address) (h : Hub) : Nat :=
  if t = h.bondToken ∧ activeRequest h = true then h.bondAmount.toNat else 0

/-- One token as the books of the pool see it. -/
def view (t : Address) (w : World) : Asset := asset D (heldFor t w.hub) t w

variable {D} {w : World} {t a : Address} {n : Nat} {x : Token Address} {amount : Uint256}

theorem asset_putPool_of_ne {p : PooledToken} (h : t ≠ a) : asset D n t (putPool w a p) = asset D n t w := by
  simp only [asset, putPool, supplyOf, Function.update_of_ne h]

theorem asset_logged (e : Entry) : asset D n t (logged w e) = asset D n t w := rfl

theorem asset_putProposal (p : RootBundle) : asset D n t (putProposal w p) = asset D n t w := rfl

theorem supplyOf_putToken (lp : Address) :
    supplyOf (putToken w a x) lp = if lp = a ∧ a ≠ 0 then x.supply.toNat else supplyOf w lp := by
  simp only [supplyOf, putToken]
  by_cases h : lp = a
  · subst h
    by_cases hz : lp = 0
    · rw [if_pos hz, if_neg fun hc => hc.2 hz, if_pos hz]
    · rw [if_neg hz, if_pos ⟨rfl, hz⟩, Function.update_self]
  · rw [Function.update_of_ne h, if_neg (fun hc : _ ∧ _ => h hc.1)]

theorem asset_putToken : asset D n t (putToken w a x) = { asset D n t w with
    supply := if (w.hub.pooledTokens t).lpToken = a ∧ a ≠ 0 then x.supply.toNat else (asset D n t w).supply
    balance := if t = a then (x.balance D.self).toNat else (asset D n t w).balance } := by
  refine Asset.ext rfl rfl rfl rfl (supplyOf_putToken _) ?_ rfl rfl
  simp only [asset, putToken]
  by_cases h : t = a
  · rw [h, Function.update_self, if_pos rfl]
  · rw [Function.update_of_ne h, if_neg h]

/-- A token that keeps its supply keeps every pool that it is the LP token of. -/
theorem asset_putToken_of_supply (hs : x.supply = (w.tokens a).supply) : asset D n t (putToken w a x) =
    { asset D n t w with balance := if t = a then (x.balance D.self).toNat else (asset D n t w).balance } := by
  have hsup : (if (w.hub.pooledTokens t).lpToken = a ∧ a ≠ 0 then x.supply.toNat else (asset D n t w).supply) =
      (asset D n t w).supply := by
    split
    · rename_i h
      simp only [asset, supplyOf, h.1, if_neg h.2, hs]
    · rfl
  rw [asset_putToken, hsup]

theorem asset_receive {src : Address} (h : (w.tokens a).transfer src D.self amount = some x)
    (hs : src ≠ D.self) : asset D n t (putToken w a x) =
      { asset D n t w with balance := (asset D n t w).balance + if t = a then amount.toNat else 0 } := by
  obtain ⟨hsup, -, hbal⟩ := transfer_some h
  rw [asset_putToken_of_supply hsup]
  have hb := hbal D.self
  rw [if_neg (Ne.symm hs), if_pos rfl] at hb
  by_cases ht : t = a
  · subst ht
    simp only [if_true, ← hb, asset, Nat.add_zero]
  · simp only [if_neg ht, Nat.add_zero]

theorem asset_pay {dst : Address} (h : (w.tokens a).transfer D.self dst amount = some x)
    (hd : dst ≠ D.self) : amount.toNat ≤ (asset D n a w).balance ∧ asset D n t (putToken w a x) =
      { asset D n t w with balance := (asset D n t w).balance - if t = a then amount.toNat else 0 } := by
  obtain ⟨hsup, hle, hbal⟩ := transfer_some h
  refine ⟨hle, ?_⟩
  rw [asset_putToken_of_supply hsup]
  have hb := hbal D.self
  rw [if_pos rfl, if_neg (Ne.symm hd)] at hb
  by_cases ht : t = a
  · subst ht
    have hx : (x.balance D.self).toNat = ((w.tokens t).balance D.self).toNat - amount.toNat := by omega
    simp only [if_true, asset, hx]
  · simp only [if_neg ht, Nat.sub_zero]

theorem asset_elsewhere {src dst : Address} (h : (w.tokens a).transfer src dst amount = some x)
    (hs : src ≠ D.self ∧ dst ≠ D.self ∨ src = dst) : asset D n t (putToken w a x) = asset D n t w := by
  obtain ⟨hsup, hle, hbal⟩ := transfer_some h
  rw [asset_putToken_of_supply hsup]
  have hb := hbal D.self
  have hx : x.balance D.self = (w.tokens a).balance D.self := by
    apply BitVec.eq_of_toNat_eq
    rcases hs with ⟨h₁, h₂⟩ | rfl
    · rw [if_neg (Ne.symm h₁), if_neg (Ne.symm h₂)] at hb
      omega
    · omega
  by_cases ht : t = a
  · subst ht
    simp only [if_true, hx, asset]
  · simp only [if_neg ht]

theorem asset_issue {dst : Address} (h : (w.tokens a).mint dst amount = some x) (hd : dst ≠ D.self)
    (ha : a ≠ 0) : asset D n t (putToken w a x) = { asset D n t w with
      supply := (asset D n t w).supply + if (w.hub.pooledTokens t).lpToken = a then amount.toNat else 0 } := by
  obtain ⟨hsup, hbal⟩ := mint_some h
  have hb := hbal D.self
  rw [if_neg (Ne.symm hd), Nat.add_zero] at hb
  have hbal' : (if t = a then (x.balance D.self).toNat else (asset D n t w).balance) =
      (asset D n t w).balance := by
    by_cases ht : t = a
    · rw [if_pos ht, hb, ht]
      rfl
    · rw [if_neg ht]
  rw [asset_putToken, hbal']
  refine Asset.ext rfl rfl rfl rfl ?_ rfl rfl rfl
  by_cases hl : (w.hub.pooledTokens t).lpToken = a
  · simp only [if_pos (And.intro hl ha), if_pos hl, hsup, asset, supplyOf]
    rw [hl, if_neg ha]
  · simp only [if_neg (fun hc : _ ∧ _ => hl hc.1), if_neg hl, Nat.add_zero]

theorem asset_redeem {src : Address} (h : (w.tokens a).burn src amount = some x) (hd : src ≠ D.self)
    (ha : a ≠ 0) : amount.toNat ≤ (w.tokens a).supply.toNat ∧ asset D n t (putToken w a x) =
      { asset D n t w with
        supply := (asset D n t w).supply - if (w.hub.pooledTokens t).lpToken = a then amount.toNat else 0 } := by
  obtain ⟨hsup, hbal⟩ := burn_some h
  refine ⟨by omega, ?_⟩
  have hb := hbal D.self
  rw [if_neg (Ne.symm hd), Nat.add_zero] at hb
  have hbal' : (if t = a then (x.balance D.self).toNat else (asset D n t w).balance) =
      (asset D n t w).balance := by
    by_cases ht : t = a
    · rw [if_pos ht, hb, ht]
      rfl
    · rw [if_neg ht]
  have hsup' : x.supply.toNat = (w.tokens a).supply.toNat - amount.toNat := by omega
  rw [asset_putToken, hbal']
  refine Asset.ext rfl rfl rfl rfl ?_ rfl rfl rfl
  by_cases hl : (w.hub.pooledTokens t).lpToken = a
  · simp only [if_pos (And.intro hl ha), if_pos hl, hsup', asset, supplyOf]
    rw [hl, if_neg ha]
  · simp only [if_neg (fun hc : _ ∧ _ => hl hc.1), if_neg hl, Nat.sub_zero]

theorem asset_wrap (h : (w.tokens a).mint D.self amount = some x)
    (hp : (w.hub.pooledTokens t).lpToken ≠ 0 → (w.hub.pooledTokens t).lpToken ≠ a) :
    asset D n t (putToken w a x) =
      { asset D n t w with balance := (asset D n t w).balance + if t = a then amount.toNat else 0 } := by
  obtain ⟨-, hbal⟩ := mint_some h
  have hb := hbal D.self
  rw [if_pos rfl] at hb
  have hne : ¬ ((w.hub.pooledTokens t).lpToken = a ∧ a ≠ 0) := fun hc => hp (hc.1 ▸ hc.2) hc.1
  rw [asset_putToken, if_neg hne]
  refine Asset.ext rfl rfl rfl rfl rfl ?_ rfl rfl
  by_cases ht : t = a
  · subst ht
    simp only [if_true, hb, asset]
  · simp only [if_neg ht, Nat.add_zero]

theorem asset_unwrap (h : (w.tokens a).burn D.self amount = some x)
    (hp : (w.hub.pooledTokens t).lpToken ≠ 0 → (w.hub.pooledTokens t).lpToken ≠ a) :
    amount.toNat ≤ (asset D n a w).balance ∧ asset D n t (putToken w a x) =
      { asset D n t w with balance := (asset D n t w).balance - if t = a then amount.toNat else 0 } := by
  obtain ⟨-, hbal⟩ := burn_some h
  have hb := hbal D.self
  rw [if_pos rfl] at hb
  refine ⟨by simp only [asset]; omega, ?_⟩
  have hne : ¬ ((w.hub.pooledTokens t).lpToken = a ∧ a ≠ 0) := fun hc => hp (hc.1 ▸ hc.2) hc.1
  have hx : (x.balance D.self).toNat = ((w.tokens a).balance D.self).toNat - amount.toNat := by omega
  rw [asset_putToken, if_neg hne]
  refine Asset.ext rfl rfl rfl rfl rfl ?_ rfl rfl
  by_cases ht : t = a
  · subst ht
    simp only [if_true, hx, asset]
  · simp only [if_neg ht, Nat.sub_zero]

end Assets

section Functions

variable {D : Deployment} {w w' : World} {t : Address}

theorem toInt_eq_signed (x : Uint256) : x.toInt = signed x.toNat := BitVec.toInt_eq_toNat_bmod x

theorem toInt_of_pos {n : Int256} (h : 0 < n.toInt) : n.toInt = n.toNat := by
  rw [BitVec.toInt_eq_toNat_cond] at h ⊢
  split at h
  · rename_i hlt
    rw [if_pos hlt]
  · have := n.isLt
    omega

theorem getAccumulatedFees_ok {undistributed n : Uint256} {last : Uint32} (ht : w.time < 2 ^ 256)
    (h : Ok (getAccumulatedFees undistributed last) w n w') :
    w = w' ∧ undistributed.toNat * feeRate < 2 ^ 256 ∧
      undistributed.toNat * feeRate * (w.time - last.toNat) < 2 ^ 256 ∧
      n.toNat = ShareRate.streamed unit feeRate undistributed.toNat (w.time - last.toNat) := by
  simp only [getAccumulatedFees, bind_ok, read_ok, checkedSub_ok, checkedMul_ok, pure_ok] at h
  obtain ⟨_, _, ⟨rfl, rfl⟩, d, _, ⟨hd, rfl⟩, x, _, ⟨hx, rfl⟩, y, _, ⟨hy, rfl⟩, hn, rfl⟩ := h
  have hlast : (last.setWidth 256).toNat = last.toNat := by
    rw [BitVec.toNat_setWidth, Nat.mod_eq_of_lt (last.isLt.trans (by decide))]
  rw [BitVec.toNat_ofNat, Nat.mod_eq_of_lt ht, hlast] at hd
  have hd' : d.toNat = w.time - last.toNat := by omega
  have hrate : lpFeeRatePerSecond.toNat = feeRate := rfl
  rw [hrate] at hx
  rw [hx, hd'] at hy
  refine ⟨rfl, hx ▸ x.isLt, hy ▸ y.isLt, ?_⟩
  have hdiv : (y / oneEther).toNat = undistributed.toNat * feeRate * (w.time - last.toNat) / unit := by
    rw [BitVec.toNat_udiv, hy]
    rfl
  rw [← hn, ShareRate.streamed, ← hdiv]
  split
  · exact (Nat.min_eq_left (by omega)).symm
  · exact (Nat.min_eq_right (by omega)).symm

theorem updateAccumulatedLpFees_ok {u : Unit} (ht : w.time < 2 ^ 256)
    (h : Ok (updateAccumulatedLpFees t) w u w') :
    ∃ p, putPool w t p = w' ∧ p.lpToken = (w.hub.pooledTokens t).lpToken ∧
      ∀ n, Accrues (asset D n t w) (asset D n t w') := by
  simp only [updateAccumulatedLpFees, bind_ok, read_ok, checkedSub_ok, setPool_ok] at h
  obtain ⟨_, _, ⟨rfl, rfl⟩, acc, _, hacc, x, _, ⟨hx, rfl⟩, rfl⟩ := h
  obtain ⟨rfl, hsmall, hfits, hn⟩ := getAccumulatedFees_ok ht hacc
  refine ⟨_, rfl, rfl, fun n => ⟨hsmall, hfits, ?_, ?_, ?_, ?_, ?_, rfl, rfl, rfl⟩⟩
  · simp only [asset, Asset.accumulated, putPool, Function.update_self]
    omega
  · simp only [asset, putPool, Function.update_self, BitVec.toNat_ofNat]
  · simp only [asset, putPool, Function.update_self]
  · simp only [asset, putPool, Function.update_self]
  · simp only [asset, putPool, Function.update_self, supplyOf]

theorem balanceSansBond_ok {n : Uint256} (h : Ok (balanceSansBond D t) w n w') :
    w = w' ∧ w.code t = true ∧ n.toNat + heldFor t w.hub = (view D t w).balance := by
  simp only [balanceSansBond, bind_ok, balanceOf_ok, read_ok] at h
  obtain ⟨_, _, ⟨hc, rfl, rfl⟩, _, _, ⟨rfl, rfl⟩, h⟩ := h
  by_cases hb : t = w.hub.bondToken ∧ activeRequest w.hub = true
  · rw [if_pos hb, checkedSub_ok] at h
    refine ⟨h.2, hc, ?_⟩
    rw [heldFor, if_pos hb]
    exact h.1
  · rw [if_neg hb, pure_ok] at h
    obtain ⟨rfl, rfl⟩ := h
    refine ⟨rfl, hc, ?_⟩
    rw [heldFor, if_neg hb]
    rfl

theorem syncInternal_ok {u : Unit} (h : Ok (syncInternal D t) w u w') :
    ∃ p, putPool w t p = w' ∧ p.lpToken = (w.hub.pooledTokens t).lpToken ∧
      Syncs (view D t w) (view D t w') := by
  simp only [syncInternal, bind_ok, read_ok, when_ok, checkedSub_ok, setPool_ok,
    signedSub_ok (show 0 < 256 by decide)] at h
  obtain ⟨x, _, hx, _, _, ⟨rfl, rfl⟩, h⟩ := h
  obtain ⟨rfl, -, hbal⟩ := balanceSansBond_ok hx
  have hbal' : x.toNat = (view D t w).balance - (view D t w).held := by
    have hheld : (view D t w).held = heldFor t w.hub := rfl
    omega
  have hcov : (view D t w).held ≤ (view D t w).balance := by
    have hheld : (view D t w).held = heldFor t w.hub := rfl
    omega
  rcases h with ⟨hlt, s, _, ⟨hs, rfl⟩, v, _, ⟨hv, rfl⟩, rfl⟩ | ⟨hge, rfl⟩
  · refine ⟨_, rfl, rfl, hcov, ?_⟩
    have hlt' : (view D t w).liquid < (view D t w).balance - (view D t w).held := hbal' ▸ hlt
    rw [if_pos hlt']
    have hs' : s.toNat = (view D t w).balance - (view D t w).held - (view D t w).liquid := by
      have hl : (view D t w).liquid = (w.hub.pooledTokens t).liquidReserves.toNat := rfl
      omega
    rw [← hbal'] at hs'
    rw [toInt_eq_signed s, hs'] at hv
    rw [← hbal']
    simp only [view, asset, putPool, Function.update_self, supplyOf] at hv ⊢
    rw [hv]
    rfl
  · refine ⟨w.hub.pooledTokens t, ?_, rfl, hcov, ?_⟩
    · exact putPool_self w t
    · rw [if_neg]
      rw [← hbal']
      exact hge

theorem exchangeRateNumerator_ok {n : Int256} (ht : w.time < 2 ^ 256)
    (h : Ok (exchangeRateNumerator D t) w n w') :
    ∃ p, putPool w t p = w' ∧ p.lpToken = (w.hub.pooledTokens t).lpToken ∧
      ∃ b, Accrues (view D t w) b ∧ Syncs b (view D t w') ∧ n.toInt = numerator (view D t w') := by
  simp only [exchangeRateNumerator, bind_ok, read_ok, signedAdd_ok (show 0 < 256 by decide),
    signedSub_ok (show 0 < 256 by decide)] at h
  obtain ⟨_, w₁, h₁, _, w₂, h₂, _, _, ⟨rfl, rfl⟩, x, _, ⟨hx, rfl⟩, hn, rfl⟩ := h
  obtain ⟨p, rfl, hp, hacc⟩ := updateAccumulatedLpFees_ok ht h₁
  obtain ⟨q, rfl, hq, hsync⟩ := syncInternal_ok h₂
  refine ⟨q, (putPool_putPool w t p q).symm, ?_, _, hacc (heldFor t w.hub), hsync, ?_⟩
  · rw [hq]
    simpa only [putPool, Function.update_self] using hp
  · rw [hn, hx, toInt_eq_signed, toInt_eq_signed (PooledToken.undistributedLpFees _)]
    rfl

theorem exchangeRateInternal_ok {r : Uint256} (hz : w.code 0 = false) (ht : w.time < 2 ^ 256)
    (h : Ok (exchangeRateInternal D t) w r w') :
    ∃ p, putPool w t p = w' ∧ p.lpToken = (w.hub.pooledTokens t).lpToken ∧
      Rated (view D t w) r.toNat (view D t w') := by
  simp only [exchangeRateInternal, bind_ok, read_ok, totalSupply_ok] at h
  obtain ⟨_, _, ⟨rfl, rfl⟩, s, _, ⟨hc, hs, rfl⟩, h⟩ := h
  have hlp : (w.hub.pooledTokens t).lpToken ≠ 0 := by
    intro hlp
    rw [hlp, hz] at hc
    cases hc
  have hsup : (view D t w).supply = s.toNat := by
    rw [← hs]
    exact if_neg hlp
  split at h
  · rename_i h0
    obtain ⟨rfl, rfl⟩ := (pure_ok _ _ _ _).mp h
    exact ⟨_, putPool_self w t, rfl, .unissued (by rw [hsup, h0]; rfl)⟩
  · rename_i h0
    simp only [bind_ok, checkedMul_ok, checkedDiv_ok] at h
    obtain ⟨n, _, hn, x, _, ⟨hx, rfl⟩, -, hr, rfl⟩ := h
    obtain ⟨p, hp, hlp', b, hb, hc', hnum⟩ := exchangeRateNumerator_ok ht hn
    refine ⟨p, hp, hlp', ?_⟩
    have hunit : oneEther.toNat = unit := rfl
    rw [hunit] at hx
    have hfits : n.toNat * unit < 2 ^ 256 := hx ▸ x.isLt
    -- A negative numerator would be at least `2 ^ 255` as an unsigned one.
    have hnn : n.toInt = n.toNat := by
      rw [toInt_eq_signed]
      apply signed_of_lt
      simp only [unit] at hfits
      omega
    have hpos : 0 < (view D t w).supply := by
      rw [hsup]
      exact Nat.pos_of_ne_zero fun hz => h0 (BitVec.eq_of_toNat_eq hz)
    have hrate : r.toNat = ShareRate.rate unit n.toNat (view D t w).supply := by
      rw [hr, hx, hsup]
      rfl
    rw [hrate]
    exact .issued hpos hb hc' n.toNat (by rw [← hnum, hnn]) hfits

end Functions

end Across.HubRules
