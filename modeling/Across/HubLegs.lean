import Across.HubSteps
import Across.ClaimedBits
import Mathlib.Data.List.Perm.Basic
import Mathlib.Algebra.BigOperators.Group.List.Basic

namespace Across.HubLegs

open Abi CallExec CallExec.Exec Erc20 Checked HubState HubPool HubRules HubRefine HubSteps

/-- What one entry of a leaf does: it sends tokens and allocates fees. -/
structure Leg where
  token : Address
  bridge : Address
  sent : Nat
  lpFees : Nat
  protocolFees : Nat

section Tally

/-- The sum of an amount over the legs in one token. -/
def tally (t : Address) (f : Leg → Nat) (ls : List Leg) : Nat := (ls.map fun l => if l.token = t then f l else 0).sum

def receivedBy (a : Address) (l : Leg) : Nat := if l.bridge = a then l.sent else 0

variable (t : Address) (f : Leg → Nat)

@[simp] theorem tally_nil : tally t f [] = 0 := rfl

@[simp] theorem tally_cons (l : Leg) (ls : List Leg) :
    tally t f (l :: ls) = (if l.token = t then f l else 0) + tally t f ls := by
  simp only [tally, List.map_cons, List.sum_cons]

theorem tally_append (ls ms : List Leg) : tally t f (ls ++ ms) = tally t f ls + tally t f ms := by
  simp only [tally, List.map_append, List.sum_append]

theorem tally_perm {ls ms : List Leg} (h : ls.Perm ms) : tally t f ls = tally t f ms := (h.map _).sum_eq

end Tally

/-- The state after legs, up to the log: every counter and balance has moved by
the sum of what the legs move. -/
structure Moved (D : Deployment) (w : World) (ls : List Leg) (w' : World) : Prop where
  liquid : ∀ t, (w'.hub.pooledTokens t).liquidReserves.toNat + tally t Leg.sent ls =
    (w.hub.pooledTokens t).liquidReserves.toNat
  utilized : ∀ t, (w'.hub.pooledTokens t).utilizedReserves.toInt =
    (w.hub.pooledTokens t).utilizedReserves.toInt + (tally t Leg.sent ls + tally t Leg.lpFees ls : Nat)
  undistributed : ∀ t, (w'.hub.pooledTokens t).undistributedLpFees.toNat =
    (w.hub.pooledTokens t).undistributedLpFees.toNat + tally t Leg.lpFees ls
  unclaimed : ∀ t, (w'.hub.unclaimedAccumulatedProtocolFees t).toNat =
    (w.hub.unclaimedAccumulatedProtocolFees t).toNat + tally t Leg.protocolFees ls
  held : ∀ t, ((w'.tokens t).balance D.self).toNat + tally t Leg.sent ls = ((w.tokens t).balance D.self).toNat
  others : ∀ t a, a ≠ D.self →
    ((w'.tokens t).balance a).toNat = ((w.tokens t).balance a).toNat + tally t (receivedBy a) ls
  supply : ∀ t, (w'.tokens t).supply = (w.tokens t).supply
  pools : ∀ t, w'.hub.pooledTokens t = { w.hub.pooledTokens t with
    liquidReserves := (w'.hub.pooledTokens t).liquidReserves
    utilizedReserves := (w'.hub.pooledTokens t).utilizedReserves
    undistributedLpFees := (w'.hub.pooledTokens t).undistributedLpFees }
  hub : w'.hub = { w.hub with
    pooledTokens := w'.hub.pooledTokens
    unclaimedAccumulatedProtocolFees := w'.hub.unclaimedAccumulatedProtocolFees }
  code : w'.code = w.code
  lpTokens : w'.lpTokens = w.lpTokens
  time : w'.time = w.time

/-- Two states that differ in their logs at most. -/
structure SameState (w w' : World) : Prop where
  hub : w'.hub = w.hub
  tokens : w'.tokens = w.tokens
  code : w'.code = w.code
  lpTokens : w'.lpTokens = w.lpTokens
  time : w'.time = w.time

section Moved

variable {D : Deployment} {w w' w'' : World} {l : Leg} {ls ms : List Leg}

theorem SameState.trans (h : SameState w w') (k : SameState w' w'') : SameState w w'' :=
  ⟨k.hub.trans h.hub, k.tokens.trans h.tokens, k.code.trans h.code, k.lpTokens.trans h.lpTokens, k.time.trans h.time⟩

theorem SameState.symm (h : SameState w w') : SameState w' w :=
  ⟨h.hub.symm, h.tokens.symm, h.code.symm, h.lpTokens.symm, h.time.symm⟩

theorem sameState_logged (w : World) (e : Entry) : SameState w (logged w e) := ⟨rfl, rfl, rfl, rfl, rfl⟩

theorem Moved.nil (D : Deployment) (w : World) : Moved D w [] w :=
  ⟨fun _ => rfl, fun _ => (Int.add_zero _).symm, fun _ => rfl, fun _ => rfl, fun _ => rfl, fun _ _ _ => rfl,
    fun _ => rfl, fun _ => rfl, rfl, rfl, rfl, rfl⟩

theorem Moved.of_tally (h : Moved D w ls w') (hs : ∀ t, tally t Leg.sent ls = tally t Leg.sent ms)
    (hl : ∀ t, tally t Leg.lpFees ls = tally t Leg.lpFees ms)
    (hp : ∀ t, tally t Leg.protocolFees ls = tally t Leg.protocolFees ms)
    (hr : ∀ t a, tally t (receivedBy a) ls = tally t (receivedBy a) ms) : Moved D w ms w' where
  liquid t := by rw [← hs, h.liquid]
  utilized t := by rw [← hs, ← hl, h.utilized]
  undistributed t := by rw [← hl, h.undistributed]
  unclaimed t := by rw [← hp, h.unclaimed]
  held t := by rw [← hs, h.held]
  others t a ha := by rw [← hr, h.others t a ha]
  supply := h.supply
  pools := h.pools
  hub := h.hub
  code := h.code
  lpTokens := h.lpTokens
  time := h.time

theorem Moved.perm (h : Moved D w ls w') (hp : ls.Perm ms) : Moved D w ms w' :=
  h.of_tally (fun t => tally_perm t _ hp) (fun t => tally_perm t _ hp) (fun t => tally_perm t _ hp)
    fun t _ => tally_perm t _ hp

theorem Moved.trans (h : Moved D w ls w') (k : Moved D w' ms w'') : Moved D w (ls ++ ms) w'' where
  liquid t := by
    have := h.liquid t
    have := k.liquid t
    rw [tally_append]
    omega
  utilized t := by
    have := h.utilized t
    have := k.utilized t
    rw [tally_append, tally_append]
    omega
  undistributed t := by
    rw [k.undistributed, h.undistributed, tally_append, Nat.add_assoc]
  unclaimed t := by
    rw [k.unclaimed, h.unclaimed, tally_append, Nat.add_assoc]
  held t := by
    have := h.held t
    have := k.held t
    rw [tally_append]
    omega
  others t a ha := by
    rw [k.others t a ha, h.others t a ha, tally_append, Nat.add_assoc]
  supply t := (k.supply t).trans (h.supply t)
  pools t := by
    rw [k.pools t, h.pools t]
  hub := by
    rw [k.hub, h.hub]
  code := k.code.trans h.code
  lpTokens := k.lpTokens.trans h.lpTokens
  time := k.time.trans h.time

theorem Moved.cancel (h : Moved D w ls w') (k : Moved D w (ls ++ ms) w'') : Moved D w' ms w'' where
  liquid t := by
    have := h.liquid t
    have := k.liquid t
    rw [tally_append] at this
    omega
  utilized t := by
    have := h.utilized t
    have := k.utilized t
    rw [tally_append, tally_append] at this
    omega
  undistributed t := by
    have := h.undistributed t
    have := k.undistributed t
    rw [tally_append] at this
    omega
  unclaimed t := by
    have := h.unclaimed t
    have := k.unclaimed t
    rw [tally_append] at this
    omega
  held t := by
    have := h.held t
    have := k.held t
    rw [tally_append] at this
    omega
  others t a ha := by
    have := h.others t a ha
    have := k.others t a ha
    rw [tally_append] at this
    omega
  supply t := (k.supply t).trans (h.supply t).symm
  pools t := by
    rw [k.pools t, h.pools t]
  hub := by
    rw [k.hub, h.hub]
  code := k.code.trans h.code.symm
  lpTokens := k.lpTokens.trans h.lpTokens.symm
  time := k.time.trans h.time.symm

/-- The sums decide the state. -/
theorem Moved.unique (h : Moved D w ls w') (k : Moved D w ls w'') : SameState w' w'' := by
  have hpools : w''.hub.pooledTokens = w'.hub.pooledTokens := by
    funext t
    have hl : (w''.hub.pooledTokens t).liquidReserves = (w'.hub.pooledTokens t).liquidReserves := by
      apply BitVec.eq_of_toNat_eq
      have := h.liquid t
      have := k.liquid t
      omega
    have hu : (w''.hub.pooledTokens t).utilizedReserves = (w'.hub.pooledTokens t).utilizedReserves := by
      apply BitVec.eq_of_toInt_eq
      rw [h.utilized, k.utilized]
    have hd : (w''.hub.pooledTokens t).undistributedLpFees = (w'.hub.pooledTokens t).undistributedLpFees := by
      apply BitVec.eq_of_toNat_eq
      rw [h.undistributed, k.undistributed]
    rw [k.pools t, h.pools t, hl, hu, hd]
  have hunclaimed : w''.hub.unclaimedAccumulatedProtocolFees = w'.hub.unclaimedAccumulatedProtocolFees := by
    funext t
    apply BitVec.eq_of_toNat_eq
    rw [h.unclaimed, k.unclaimed]
  refine ⟨?_, ?_, k.code.trans h.code.symm, k.lpTokens.trans h.lpTokens.symm, k.time.trans h.time.symm⟩
  · rw [k.hub, h.hub, hpools, hunclaimed]
  · funext t
    have hsup : (w''.tokens t).supply = (w'.tokens t).supply := (k.supply t).trans (h.supply t).symm
    have hbal : (w''.tokens t).balance = (w'.tokens t).balance := by
      funext a
      apply BitVec.eq_of_toNat_eq
      by_cases ha : a = D.self
      · subst ha
        have := h.held t
        have := k.held t
        omega
      · rw [h.others t a ha, k.others t a ha]
    calc w''.tokens t = ⟨(w''.tokens t).supply, (w''.tokens t).balance⟩ := rfl
      _ = ⟨(w'.tokens t).supply, (w'.tokens t).balance⟩ := by rw [hsup, hbal]
      _ = w'.tokens t := rfl

theorem Moved.putProposal (h : Moved D w ls w') (p : RootBundle) :
    Moved D (putProposal w p) ls (HubRules.putProposal w' p) :=
  ⟨h.liquid, h.utilized, h.undistributed, h.unclaimed, h.held, h.others, h.supply, h.pools,
    congrArg (fun x : Hub => { x with rootBundleProposal := p }) h.hub, h.code, h.lpTokens, h.time⟩

theorem Moved.logged (h : Moved D w ls w') (e : Entry) : Moved D w ls (logged w' e) :=
  ⟨h.liquid, h.utilized, h.undistributed, h.unclaimed, h.held, h.others, h.supply, h.pools, h.hub, h.code,
    h.lpTokens, h.time⟩

theorem moved_one (hpools : ∀ t, t ≠ l.token → w'.hub.pooledTokens t = w.hub.pooledTokens t)
    (hfees : ∀ t, t ≠ l.token →
      w'.hub.unclaimedAccumulatedProtocolFees t = w.hub.unclaimedAccumulatedProtocolFees t)
    (htokens : ∀ t, t ≠ l.token → w'.tokens t = w.tokens t)
    (hliquid : (w'.hub.pooledTokens l.token).liquidReserves.toNat + l.sent =
      (w.hub.pooledTokens l.token).liquidReserves.toNat)
    (hutilized : (w'.hub.pooledTokens l.token).utilizedReserves.toInt =
      (w.hub.pooledTokens l.token).utilizedReserves.toInt + (l.sent + l.lpFees : Nat))
    (hundistributed : (w'.hub.pooledTokens l.token).undistributedLpFees.toNat =
      (w.hub.pooledTokens l.token).undistributedLpFees.toNat + l.lpFees)
    (hunclaimed : (w'.hub.unclaimedAccumulatedProtocolFees l.token).toNat =
      (w.hub.unclaimedAccumulatedProtocolFees l.token).toNat + l.protocolFees)
    (hheld : ((w'.tokens l.token).balance D.self).toNat + l.sent = ((w.tokens l.token).balance D.self).toNat)
    (hothers : ∀ a, a ≠ D.self → ((w'.tokens l.token).balance a).toNat =
      ((w.tokens l.token).balance a).toNat + receivedBy a l)
    (hsupply : (w'.tokens l.token).supply = (w.tokens l.token).supply)
    (hpool : w'.hub.pooledTokens l.token = { w.hub.pooledTokens l.token with
      liquidReserves := (w'.hub.pooledTokens l.token).liquidReserves
      utilizedReserves := (w'.hub.pooledTokens l.token).utilizedReserves
      undistributedLpFees := (w'.hub.pooledTokens l.token).undistributedLpFees })
    (hhub : w'.hub = { w.hub with
      pooledTokens := w'.hub.pooledTokens
      unclaimedAccumulatedProtocolFees := w'.hub.unclaimedAccumulatedProtocolFees })
    (hrest : w'.code = w.code ∧ w'.lpTokens = w.lpTokens ∧ w'.time = w.time) : Moved D w [l] w' := by
  have hat : ∀ f, tally l.token f [l] = f l := by
    intro f
    rw [tally_cons, if_pos rfl, tally_nil, Nat.add_zero]
  have hne : ∀ t f, t ≠ l.token → tally t f [l] = 0 := by
    intro t f ht
    rw [tally_cons, if_neg (Ne.symm ht), tally_nil]
  refine ⟨fun t => ?_, fun t => ?_, fun t => ?_, fun t => ?_, fun t => ?_, fun t a ha => ?_, fun t => ?_, fun t => ?_,
    hhub, hrest.1, hrest.2.1, hrest.2.2⟩
  all_goals by_cases ht : t = l.token
  · rw [ht, hat, hliquid]
  · rw [hne t _ ht, hpools t ht, Nat.add_zero]
  · rw [ht, hat, hat, hutilized]
  · rw [hne t _ ht, hne t _ ht, hpools t ht]
    exact (Int.add_zero _).symm
  · rw [ht, hat, hundistributed]
  · rw [hne t _ ht, hpools t ht, Nat.add_zero]
  · rw [ht, hat, hunclaimed]
  · rw [hne t _ ht, hfees t ht, Nat.add_zero]
  · rw [ht, hat, hheld]
  · rw [hne t _ ht, htokens t ht, Nat.add_zero]
  · rw [ht, hat, hothers a ha]
  · rw [hne t _ ht, htokens t ht, Nat.add_zero]
  · rw [ht, hsupply]
  · rw [htokens t ht]
  · rw [ht]
    exact hpool
  · rw [hpools t ht]

end Moved

section Entries

variable {D : Deployment} {A : Answers} {leaf : PoolRebalanceLeaf} {w w' : World} {u : Unit} {i : Nat} {t : Address}

/-- The leg of an entry of a leaf: its token, the amount to send and the fees. No
leg comes of an entry that fails in every state. -/
structure LegOf (D : Deployment) (A : Answers) (chainId : Uint256) (w : World) (e : Address × Int256 × Uint256)
    (l : Leg) : Prop where
  token : l.token = e.1
  route : w.hub.poolRebalanceRoutes (poolRebalanceRouteKey e.1 chainId) ≠ 0
  bridge : l.bridge ≠ D.self
  sent : 0 < e.2.1.toInt ∧ l.sent = e.2.1.toNat ∧ A.relayTokens e.1 e.2.1 = some l.bridge ∧ w.code e.1 = true ∨
    ¬ 0 < e.2.1.toInt ∧ l.sent = 0 ∧ l.bridge = 0
  product : e.2.2.toNat * w.hub.protocolFeeCapturePct.toNat < 2 ^ 256
  protocolFees : l.protocolFees = e.2.2.toNat * w.hub.protocolFeeCapturePct.toNat / 10 ^ 18
  lpFees : l.lpFees + l.protocolFees = e.2.2.toNat

theorem send_moved {n : Int256} {x : Token Address} {v m : BitVec 256} {b : Address} (hn : 0 < n.toInt)
    (hb : b ≠ D.self) (hx : (w.tokens t).transfer D.self b n = some x)
    (hv : v.toInt = (w.hub.pooledTokens t).utilizedReserves.toInt + n.toInt)
    (hm : m.toNat + n.toNat = (w.hub.pooledTokens t).liquidReserves.toNat) :
    Moved D w [⟨t, b, n.toNat, 0, 0⟩] (putPool (putToken w t x) t
      { w.hub.pooledTokens t with utilizedReserves := v, liquidReserves := m }) := by
  obtain ⟨hsup, -, hbal⟩ := transfer_some hx
  have hself := hbal D.self
  rw [if_pos rfl, if_neg (Ne.symm hb)] at hself
  refine moved_one (fun s hs => Function.update_of_ne hs _ _) (fun _ _ => rfl)
    (fun s hs => Function.update_of_ne hs _ _)
    ?_ ?_ ?_ rfl ?_ (fun a ha => ?_) ?_ ?_ rfl ⟨rfl, rfl, rfl⟩
  · simp only [pooledTokens_putPool]
    exact hm
  · simp only [pooledTokens_putPool]
    rw [hv, toInt_of_pos hn]
    rfl
  · simp only [pooledTokens_putPool]
    rfl
  · simp only [putPool, putToken, Function.update_self]
    omega
  · have ha' := hbal a
    rw [if_neg ha] at ha'
    simp only [putPool, putToken, Function.update_self, receivedBy]
    rw [Nat.add_zero] at ha'
    rw [ha']
    by_cases hab : a = b
    · rw [if_pos hab, if_pos hab.symm]
    · rw [if_neg hab, if_neg (Ne.symm hab)]
  · simp only [putPool, putToken, Function.update_self]
    exact hsup
  · simp only [pooledTokens_putPool]

theorem capture_moved {n v f : Uint256} {b : Address} (hn : n.toNat < 2 ^ 255)
    (hf : f.toNat = (w.hub.pooledTokens t).undistributedLpFees.toNat + n.toNat)
    (hv : v.toInt = (w.hub.pooledTokens t).utilizedReserves.toInt + n.toInt) :
    Moved D w [⟨t, b, 0, n.toNat, 0⟩] (logged (putPool w t
      { w.hub.pooledTokens t with undistributedLpFees := f, utilizedReserves := v }) (.lpFeesCaptured t n)) := by
  apply Moved.logged
  refine moved_one (fun s hs => Function.update_of_ne hs _ _) (fun _ _ => rfl) (fun _ _ => rfl) ?_ ?_ ?_ rfl rfl
    (fun a ha => ?_) rfl ?_ rfl ⟨rfl, rfl, rfl⟩
  · simp only [pooledTokens_putPool]
    rfl
  · simp only [pooledTokens_putPool]
    rw [hv, toInt_eq_signed n, PooledAsset.signed_of_lt hn, Nat.zero_add]
  · simp only [pooledTokens_putPool]
    exact hf
  · rw [receivedBy, ite_self, Nat.add_zero]
    rfl
  · simp only [pooledTokens_putPool]

theorem unclaimed_moved {n m : Uint256} {b : Address}
    (hm : m.toNat = (w.hub.unclaimedAccumulatedProtocolFees t).toNat + n.toNat) :
    Moved D w [⟨t, b, 0, 0, n.toNat⟩] { w with hub := { w.hub with
      unclaimedAccumulatedProtocolFees := Function.update w.hub.unclaimedAccumulatedProtocolFees t m } } := by
  refine moved_one (fun _ _ => rfl) (fun s hs => Function.update_of_ne hs _ _) (fun _ _ => rfl) rfl
    (Int.add_zero _).symm rfl ?_ rfl (fun a ha => ?_) rfl rfl rfl ⟨rfl, rfl, rfl⟩
  · simp only [Function.update_self]
    exact hm
  · rw [receivedBy, ite_self, Nat.add_zero]

theorem zero_moved (t b : Address) : Moved D w [⟨t, b, 0, 0, 0⟩] w :=
  moved_one (fun _ _ => rfl) (fun _ _ => rfl) (fun _ _ => rfl) rfl (Int.add_zero _).symm rfl rfl rfl
    (fun a _ => by rw [receivedBy, ite_self, Nat.add_zero]) rfl rfl rfl ⟨rfl, rfl, rfl⟩

theorem Moved.parts {t b : Address} {n l m : Nat} 
    (h : Moved D w [⟨t, b, n, 0, 0⟩, ⟨t, b, 0, l, 0⟩, ⟨t, b, 0, 0, m⟩] w') :
    Moved D w [⟨t, b, n, l, m⟩] w' := by
  refine h.of_tally (fun s => ?_) (fun s => ?_) (fun s => ?_) fun s a => ?_
  all_goals
    simp only [tally_cons, tally_nil, receivedBy]
    by_cases hs : t = s
    · simp [hs]
    · simp [hs]

def entriesOf (leaf : PoolRebalanceLeaf) : List (Address × Int256 × Uint256) :=
  leaf.l1Tokens.zip (leaf.netSendAmounts.zip leaf.bundleLpFees)

theorem entriesOf_getElem? {i : Nat} {e : Address × Int256 × Uint256} : (entriesOf leaf)[i]? = some e ↔
    leaf.l1Tokens[i]? = some e.1 ∧ leaf.netSendAmounts[i]? = some e.2.1 ∧ leaf.bundleLpFees[i]? = some e.2.2 := by
  rw [entriesOf, List.getElem?_zip_eq_some, List.getElem?_zip_eq_some]

/-- The LPs' share of the fees of every entry stays in the range of signed words. -/
def NoWrap (w : World) (leaf : PoolRebalanceLeaf) : Prop :=
  ∀ e ∈ entriesOf leaf, lpShare w.hub.protocolFeeCapturePct e.2.2 < 2 ^ 255

theorem allocateLpAndProtocolFees_moved {fees : Uint256} {b : Address}
    (hw : lpShare w.hub.protocolFeeCapturePct fees < 2 ^ 255)
    (h : Ok (allocateLpAndProtocolFees t fees) w u w') :
    ∃ l m, fees.toNat * w.hub.protocolFeeCapturePct.toNat < 2 ^ 256 ∧
      m = fees.toNat * w.hub.protocolFeeCapturePct.toNat / 10 ^ 18 ∧ l + m = fees.toNat ∧
      Moved D w [⟨t, b, 0, l, 0⟩, ⟨t, b, 0, 0, m⟩] w' := by
  simp only [allocateLpAndProtocolFees, bind_ok, read_ok, checkedMul_ok, checkedSub_ok, when_ok, checkedAdd_ok,
    signedAdd_ok (show 0 < 256 by decide), setPool_ok, emit_ok, setHub, update_ok] at h
  obtain ⟨_, _, ⟨rfl, rfl⟩, x, _, ⟨hx, rfl⟩, n, _, ⟨hn, rfl⟩, _, w₁, h₁, h₂⟩ := h
  have hdiv : (x / oneEther).toNat = fees.toNat * w.hub.protocolFeeCapturePct.toNat / 10 ^ 18 := by
    rw [BitVec.toNat_udiv, hx]
    rfl
  have hlt : n.toNat < 2 ^ 255 := by
    rw [lpShare, ← hdiv, ← Nat.eq_sub_of_add_eq hn] at hw
    exact hw
  refine ⟨n.toNat, (x / oneEther).toNat, hx ▸ x.isLt, hdiv, hn, ?_⟩
  have hcap : Moved D w [⟨t, b, 0, n.toNat, 0⟩] w₁ ∧
      w₁.hub.unclaimedAccumulatedProtocolFees = w.hub.unclaimedAccumulatedProtocolFees := by
    rcases h₁ with ⟨-, f, _, ⟨hf, rfl⟩, v, _, ⟨hv, rfl⟩, _, _, rfl, rfl⟩ | ⟨hz, rfl⟩
    · exact ⟨capture_moved hlt hf hv, rfl⟩
    · rw [Nat.eq_zero_of_not_pos hz]
      exact ⟨zero_moved t b, rfl⟩
  refine Moved.trans hcap.1 ?_
  rcases h₂ with ⟨-, m, _, ⟨hm, rfl⟩, rfl⟩ | ⟨hz, rfl⟩
  · rw [← hcap.2] at hm
    exact unclaimed_moved hm
  · rw [Nat.eq_zero_of_not_pos hz]
    exact zero_moved t b

theorem sending_moved {n : Int256} (h : Ok (sending D A t n) w u w') :
    ∃ b k, b ≠ D.self ∧ Moved D w [⟨t, b, k, 0, 0⟩] w' ∧
      (0 < n.toInt ∧ k = n.toNat ∧ A.relayTokens t n = some b ∧ w.code t = true ∨
        ¬ 0 < n.toInt ∧ k = 0 ∧ b = 0) := by
  simp only [sending, bind_ok, read_ok, when_ok, checkedSub_ok, signedAdd_ok (show 0 < 256 by decide), setPool_ok] at h
  rcases h with ⟨hpos, _, w₂, hrel, _, _, ⟨rfl, rfl⟩, v, _, ⟨hv, rfl⟩, m, _, ⟨hm, rfl⟩, rfl⟩ | ⟨hpos, rfl⟩
  · obtain ⟨b, x, hans, hb, hc, hx, rfl⟩ := relayTokens_ok hrel
    exact ⟨b, n.toNat, hb, send_moved hpos hb hx hv hm, .inl ⟨hpos, rfl, hans, hc⟩⟩
  · exact ⟨0, 0, D.self_ne_zero.symm, zero_moved t 0, .inr ⟨hpos, rfl, rfl⟩⟩

theorem sendToken_moved (hw : NoWrap w leaf) (h : Ok (sendToken D A leaf i) w u w') :
    ∃ e l, (entriesOf leaf)[i]? = some e ∧ LegOf D A leaf.chainId w e l ∧ Moved D w [l] w' := by
  obtain ⟨t, n, fees, w₁, ht, hn, hf, hr, h₁, h₂⟩ := sendToken_iff.mp h
  obtain ⟨b, k, hb, hmoved, hcase⟩ := sending_moved h₁
  have hentry : (entriesOf leaf)[i]? = some (t, n, fees) := entriesOf_getElem?.mpr ⟨ht, hn, hf⟩
  have hpct : w₁.hub.protocolFeeCapturePct = w.hub.protocolFeeCapturePct := by rw [hmoved.hub]
  have hshare : lpShare w₁.hub.protocolFeeCapturePct fees < 2 ^ 255 := by
    rw [hpct]
    exact hw (t, n, fees) (List.mem_of_getElem? hentry)
  obtain ⟨l, m, hprod, hm, hl, hmoved'⟩ := allocateLpAndProtocolFees_moved (D := D) (b := b) hshare h₂
  rw [hpct] at hprod hm
  exact ⟨(t, n, fees), ⟨t, b, k, l, m⟩, hentry, ⟨rfl, hr, hb, hcase, hprod, hm, hl⟩, (hmoved.trans hmoved').parts⟩

structure Fits (D : Deployment) (w : World) (l : Leg) : Prop where
  liquid : l.sent ≤ (w.hub.pooledTokens l.token).liquidReserves.toNat
  utilized : (w.hub.pooledTokens l.token).utilizedReserves.toInt + (l.sent + l.lpFees : Nat) < 2 ^ 255
  undistributed : (w.hub.pooledTokens l.token).undistributedLpFees.toNat + l.lpFees < 2 ^ 256
  unclaimed : (w.hub.unclaimedAccumulatedProtocolFees l.token).toNat + l.protocolFees < 2 ^ 256
  held : l.sent ≤ ((w.tokens l.token).balance D.self).toNat
  bridge : ((w.tokens l.token).balance l.bridge).toNat + l.sent < 2 ^ 256

/-- Counters only grow, so where all legs fit the first one does. -/
theorem Moved.fits {l : Leg} {ls : List Leg} (h : Moved D w (l :: ls) w') (hb : l.bridge ≠ D.self) : Fits D w l := by
  have hat : ∀ f, tally l.token f (l :: ls) = f l + tally l.token f ls := by
    intro f
    rw [tally_cons, if_pos rfl]
  refine ⟨?_, ?_, ?_, ?_, ?_, ?_⟩
  · have := h.liquid l.token
    rw [hat] at this
    omega
  · have := h.utilized l.token
    have hlt : (w'.hub.pooledTokens l.token).utilizedReserves.toInt < 2 ^ 255 := BitVec.toInt_lt
    rw [hat, hat] at this
    omega
  · have := h.undistributed l.token
    have hlt := (w'.hub.pooledTokens l.token).undistributedLpFees.isLt
    rw [hat] at this
    omega
  · have := h.unclaimed l.token
    have hlt := (w'.hub.unclaimedAccumulatedProtocolFees l.token).isLt
    rw [hat] at this
    omega
  · have := h.held l.token
    rw [hat] at this
    omega
  · have := h.others l.token l.bridge hb
    have hlt := ((w'.tokens l.token).balance l.bridge).isLt
    rw [hat, receivedBy, if_pos rfl] at this
    omega

theorem allocateLpAndProtocolFees_returns {fees : Uint256} {l m : Nat}
    (hp : fees.toNat * w.hub.protocolFeeCapturePct.toNat < 2 ^ 256)
    (hm : m = fees.toNat * w.hub.protocolFeeCapturePct.toNat / 10 ^ 18) (hl : l + m = fees.toNat) (hw : l < 2 ^ 255)
    (hu : (w.hub.pooledTokens t).utilizedReserves.toInt + (l : Int) < 2 ^ 255)
    (hd : (w.hub.pooledTokens t).undistributedLpFees.toNat + l < 2 ^ 256)
    (hc : (w.hub.unclaimedAccumulatedProtocolFees t).toNat + m < 2 ^ 256) :
    ∃ w', Ok (allocateLpAndProtocolFees t fees) w () w' := by
  obtain ⟨x, hx⟩ : ∃ x : Uint256, x.toNat = fees.toNat * w.hub.protocolFeeCapturePct.toNat :=
    ⟨BitVec.ofNat 256 _, by rw [BitVec.toNat_ofNat, Nat.mod_eq_of_lt hp]⟩
  have hdiv : (x / oneEther).toNat = m := by
    rw [BitVec.toNat_udiv, hx, hm]
    rfl
  obtain ⟨n, hn⟩ := exists_toNat_sub (a := fees) (b := x / oneEther) (by omega)
  have hnl : n.toNat = l := by omega
  have hint : n.toInt = l := by
    rw [toInt_eq_signed, PooledAsset.signed_of_lt (by omega), hnl]
  obtain ⟨f, hf⟩ := exists_toNat_add (a := (w.hub.pooledTokens t).undistributedLpFees) (b := n) (by omega)
  have hlow := BitVec.le_toInt (w.hub.pooledTokens t).utilizedReserves
  obtain ⟨v, hv⟩ := exists_toInt_add (a := (w.hub.pooledTokens t).utilizedReserves) (b := n) (by decide)
    (by omega) (by rw [hint]; exact hu)
  obtain ⟨c, hc'⟩ := exists_toNat_add (a := w.hub.unclaimedAccumulatedProtocolFees t) (b := x / oneEther) (by omega)
  rw [allocateLpAndProtocolFees]
  refine bind_returns ((read_ok _ _ _).mpr ⟨rfl, rfl⟩) (bind_returns (checkedMul_ok.mpr ⟨hx, rfl⟩) ?_)
  refine bind_returns (checkedSub_ok.mpr ⟨hn, rfl⟩) ?_
  refine bind_when_returns (fun _ => ?_) fun w₁ _ => when_returns fun _ => ?_
  · refine bind_returns (checkedAdd_ok.mpr ⟨hf, rfl⟩) (bind_returns ((signedAdd_ok (by decide)).mpr ⟨hv, rfl⟩) ?_)
    exact bind_returns (a := ()) (setPool_ok.mpr rfl) ⟨_, emit_ok.mpr rfl⟩
  · exact bind_returns (checkedAdd_ok.mpr ⟨hc', rfl⟩) ⟨_, (update_ok _ _ _ _).mpr rfl⟩

theorem allocateLpAndProtocolFees_zero (t : Address) (w : World) : Ok (allocateLpAndProtocolFees t 0) w () w := by
  have hzero : ((0 : Uint256) / oneEther).toNat = 0 := by decide
  simp only [allocateLpAndProtocolFees, bind_ok, read_ok, checkedMul_ok, checkedSub_ok, when_ok]
  refine ⟨w, w, ⟨rfl, rfl⟩, 0, w, ⟨(Nat.zero_mul _).symm, rfl⟩, 0, w, ⟨by rw [hzero]; rfl, rfl⟩, (), w, ?_, ?_⟩
  · exact .inr ⟨by decide, rfl⟩
  · exact .inr ⟨by rw [hzero]; decide, rfl⟩

theorem sending_returns {n : Int256} {l : Leg} (ht : l.token = t) (hl : Fits D w l) (hb : l.bridge ≠ D.self)
    (hs : 0 < n.toInt ∧ l.sent = n.toNat ∧ A.relayTokens t n = some l.bridge ∧ w.code t = true ∨
      ¬ 0 < n.toInt ∧ l.sent = 0 ∧ l.bridge = 0) : ∃ w', Ok (sending D A t n) w () w' := by
  apply when_returns
  intro hpos
  rcases hs with ⟨-, hsent, hans, hcode⟩ | ⟨hneg, -⟩
  · subst ht
    have hint : n.toInt = l.sent := by rw [toInt_of_pos hpos, hsent]
    obtain ⟨x, hx⟩ := transfer_returns (t := w.tokens l.token) (hsent ▸ hl.held) (hsent ▸ hl.bridge)
    have hrelay : Ok (relayTokens D A l.token n) w () (putToken w l.token x) := by
      simp only [relayTokens, hans, bind_ok, require_ok, safeTransfer_ok]
      exact ⟨(), w, ⟨hb, rfl⟩, hcode, x, hx, rfl⟩
    have hlow := BitVec.le_toInt (w.hub.pooledTokens l.token).utilizedReserves
    have hup := hl.utilized
    obtain ⟨v, hv⟩ := exists_toInt_add (a := (w.hub.pooledTokens l.token).utilizedReserves) (b := n) (by decide)
      (by omega) (by omega)
    obtain ⟨m, hm⟩ := exists_toNat_sub (a := (w.hub.pooledTokens l.token).liquidReserves) (b := n)
      (hsent ▸ hl.liquid)
    refine bind_returns hrelay (bind_returns ((read_ok _ _ _).mpr ⟨rfl, rfl⟩) ?_)
    refine bind_returns ((signedAdd_ok (by decide)).mpr ⟨hv, rfl⟩) (bind_returns (checkedSub_ok.mpr ⟨hm, rfl⟩) ?_)
    exact ⟨_, setPool_ok.mpr rfl⟩
  · exact absurd hpos hneg

theorem LegOf.unique {c : Uint256} {e : Address × Int256 × Uint256} {l k : Leg} (h : LegOf D A c w e l)
    (h' : LegOf D A c w e k) : l = k := by
  obtain ⟨t, b, n, f, m⟩ := l
  obtain ⟨t', b', n', f', m'⟩ := k
  have ht : t = t' := h.token.trans h'.token.symm
  have hm : m = m' := h.protocolFees.trans h'.protocolFees.symm
  have hf : f = f' := by
    have h₁ := h.lpFees
    have h₂ := h'.lpFees
    dsimp only at h₁ h₂
    omega
  have hs : n = n' ∧ b = b' := by
    rcases h.sent with ⟨hp, hn, hb, -⟩ | ⟨hp, hn, hb⟩
    · rcases h'.sent with ⟨-, hn', hb', -⟩ | ⟨hp', -⟩
      · exact ⟨hn.trans hn'.symm, Option.some.inj (hb.symm.trans hb')⟩
      · exact absurd hp hp'
    · rcases h'.sent with ⟨hp', -⟩ | ⟨-, hn', hb'⟩
      · exact absurd hp' hp
      · exact ⟨hn.trans hn'.symm, hb.trans hb'.symm⟩
  rw [ht, hm, hf, hs.1, hs.2]

theorem sendToken_returns {e : Address × Int256 × Uint256} {l : Leg} {ls : List Leg} (hw : NoWrap w leaf)
    (he : (entriesOf leaf)[i]? = some e) (hl : LegOf D A leaf.chainId w e l) (hm : Moved D w (l :: ls) w') :
    ∃ w₁, Ok (sendToken D A leaf i) w () w₁ ∧ Moved D w [l] w₁ ∧ Moved D w₁ ls w' := by
  have hfits := hm.fits hl.bridge
  obtain ⟨ht, hn, hf⟩ := entriesOf_getElem?.mp he
  obtain ⟨w₁, h₁⟩ := sending_returns hl.token hfits hl.bridge hl.sent
  obtain ⟨b, k, -, hmoved, hcase⟩ := sending_moved h₁
  have hk : k = l.sent := by
    rcases hl.sent with ⟨hp, hs, -⟩ | ⟨hp, hs, -⟩
    · rcases hcase with ⟨-, hk, -⟩ | ⟨hp', -⟩
      · exact hk.trans hs.symm
      · exact absurd hp hp'
    · rcases hcase with ⟨hp', -⟩ | ⟨-, hk, -⟩
      · exact absurd hp' hp
      · exact hk.trans hs.symm
  have hat : ∀ f, tally e.1 f [⟨e.1, b, k, 0, 0⟩] = f ⟨e.1, b, k, 0, 0⟩ := by
    intro f
    rw [tally_cons, if_pos rfl, tally_nil, Nat.add_zero]
  have hpct : w₁.hub.protocolFeeCapturePct = w.hub.protocolFeeCapturePct := by rw [hmoved.hub]
  have hlp : l.lpFees < 2 ^ 255 := by
    have hshare := hw e (List.mem_of_getElem? he)
    rw [lpShare, ← hl.protocolFees] at hshare
    have := hl.lpFees
    omega
  have hall : ∃ w₂, Ok (allocateLpAndProtocolFees e.1 e.2.2) w₁ () w₂ := by
    apply allocateLpAndProtocolFees_returns (l := l.lpFees) (m := l.protocolFees) _ _ hl.lpFees hlp
    · have hu := hmoved.utilized e.1
      have hup := hfits.utilized
      rw [hat, hat] at hu
      rw [hl.token] at hup
      rw [hu, hk]
      dsimp only
      omega
    · have hd := hmoved.undistributed e.1
      have hup := hfits.undistributed
      rw [hat] at hd
      rw [hl.token] at hup
      rw [hd]
      exact hup
    · have hc := hmoved.unclaimed e.1
      have hup := hfits.unclaimed
      rw [hat] at hc
      rw [hl.token] at hup
      rw [hc]
      exact hup
    · rw [hpct]
      exact hl.product
    · rw [hpct]
      exact hl.protocolFees
  obtain ⟨w₂, h₂⟩ := hall
  have hsend : Ok (sendToken D A leaf i) w () w₂ :=
    sendToken_iff.mpr ⟨e.1, e.2.1, e.2.2, w₁, ht, hn, hf, hl.route, h₁, h₂⟩
  obtain ⟨e', l', he', hl', hm'⟩ := sendToken_moved hw hsend
  obtain rfl := Option.some.inj (he.symm.trans he')
  obtain rfl := hl.unique hl'
  exact ⟨w₂, hsend, hm', hm'.cancel hm⟩

end Entries

section Leaves

variable {D : Deployment} {A : Answers} {leaf : PoolRebalanceLeaf} {w w' w'' : World} {u : Unit}
  {is : List Nat} {es : List (Address × Int256 × Uint256)} {ls ms : List Leg}

theorem entries_of_range {n : Nat} (h : List.Forall₂ (fun i e => (entriesOf leaf)[i]? = some e) (List.range n) es)
    (hn : n = leaf.l1Tokens.length) : es = entriesOf leaf ∧ (entriesOf leaf).length = n := by
  have hlen : es.length = n := by rw [← h.length_eq, List.length_range]
  have hle : (entriesOf leaf).length ≤ n := by
    rw [hn, entriesOf, List.length_zip]
    exact Nat.min_le_left _ _
  have hget : ∀ i, i < n → es[i]? = (entriesOf leaf)[i]? := by
    intro i hi
    have h₁ : i < (List.range n).length := by rwa [List.length_range]
    have h₂ : i < es.length := by rwa [hlen]
    have he := h.get h₁ h₂
    simp only [List.get_eq_getElem, List.getElem_range] at he
    rw [he, List.getElem?_eq_getElem h₂]
  have heq : es = entriesOf leaf := by
    apply List.ext_getElem?
    intro i
    by_cases hi : i < n
    · exact hget i hi
    · rw [List.getElem?_eq_none (by omega), List.getElem?_eq_none (by omega)]
  exact ⟨heq, heq ▸ hlen⟩

theorem range_entries {n : Nat} (hn : (entriesOf leaf).length = n) :
    List.Forall₂ (fun i e => (entriesOf leaf)[i]? = some e) (List.range n) (entriesOf leaf) := by
  apply List.forall₂_iff_get.mpr
  refine ⟨by rw [List.length_range, hn], fun i h₁ h₂ => ?_⟩
  simp only [List.get_eq_getElem, List.getElem_range]
  exact List.getElem?_eq_getElem h₂

theorem LegOf.moved {c : Uint256} {e : Address × Int256 × Uint256} {l : Leg} (hm : Moved D w ms w') :
    LegOf D A c w' e l ↔ LegOf D A c w e l := by
  have hroutes : w'.hub.poolRebalanceRoutes = w.hub.poolRebalanceRoutes := by rw [hm.hub]
  have hpct : w'.hub.protocolFeeCapturePct = w.hub.protocolFeeCapturePct := by rw [hm.hub]
  constructor
  · intro h
    refine ⟨h.token, hroutes ▸ h.route, h.bridge, hm.code ▸ h.sent, hpct ▸ h.product, hpct ▸ h.protocolFees, h.lpFees⟩
  · intro h
    refine ⟨h.token, ?_, h.bridge, ?_, ?_, ?_, h.lpFees⟩
    · rw [hroutes]
      exact h.route
    · rw [hm.code]
      exact h.sent
    · rw [hpct]
      exact h.product
    · rw [hpct]
      exact h.protocolFees

theorem NoWrap.moved (h : NoWrap w leaf) (hm : Moved D w ms w') : NoWrap w' leaf := by
  have hpct : w'.hub.protocolFeeCapturePct = w.hub.protocolFeeCapturePct := by rw [hm.hub]
  intro e he
  rw [hpct]
  exact h e he

theorem forEach_moved (hw : NoWrap w leaf) (h : Ok (forEach (sendToken D A leaf) is) w u w') :
    ∃ es ls, List.Forall₂ (fun i e => (entriesOf leaf)[i]? = some e) is es ∧
      List.Forall₂ (LegOf D A leaf.chainId w) es ls ∧ Moved D w ls w' := by
  induction is generalizing w with
  | nil =>
      obtain rfl := (forEach_nil_ok _ _ _ _).mp h
      exact ⟨[], [], .nil, .nil, .nil D w⟩
  | cons i is ih =>
      obtain ⟨w₁, h₁, h₂⟩ := (forEach_cons_ok _ _ _ _ _ _).mp h
      obtain ⟨e, l, he, hl, hm⟩ := sendToken_moved hw h₁
      obtain ⟨es, ls, hes, hls, hms⟩ := ih (hw.moved hm) h₂
      refine ⟨e :: es, l :: ls, .cons he hes, .cons hl ?_, hm.trans hms⟩
      exact hls.imp fun _ _ h => (LegOf.moved hm).mp h

theorem forEach_legs (hw : NoWrap w leaf)
    (hes : List.Forall₂ (fun i e => (entriesOf leaf)[i]? = some e) is es)
    (hls : List.Forall₂ (LegOf D A leaf.chainId w) es ls) (hm : Moved D w (ls ++ ms) w'') :
    ∃ w', Ok (forEach (sendToken D A leaf) is) w () w' ∧ Moved D w ls w' ∧ Moved D w' ms w'' := by
  induction hes generalizing w ls with
  | nil =>
      cases hls
      exact ⟨w, (forEach_nil_ok _ _ _ _).mpr rfl, .nil D w, hm⟩
  | cons he hes ih =>
      cases hls with
      | cons hl hls =>
          obtain ⟨w₁, h₁, hm₁, hm₂⟩ := sendToken_returns hw he hl hm
          obtain ⟨w', h', hm', hm''⟩ := ih (hw.moved hm₁) (hls.imp fun _ _ h => (LegOf.moved hm₁).mpr h) hm₂
          exact ⟨w', (forEach_cons_ok _ _ _ _ _ _).mpr ⟨w₁, h₁, h'⟩, hm₁.trans hm', hm''⟩

/-- The legs of a leaf, when its lists are long enough and no entry is bound to fail. -/
def Legs (D : Deployment) (A : Answers) (leaf : PoolRebalanceLeaf) (w : World) (ls : List Leg) : Prop :=
  (entriesOf leaf).length = leaf.l1Tokens.length ∧ List.Forall₂ (LegOf D A leaf.chainId w) (entriesOf leaf) ls

/-- Sending the tokens of a leaf moves its legs. -/
theorem sendTokens_moved (hw : NoWrap w leaf)
    (h : Ok (sendTokensToChainAndUpdatePooledTokenTrackers D A leaf) w u w') :
    ∃ ls, Legs D A leaf w ls ∧ Moved D w ls w' := by
  obtain ⟨es, ls, hes, hls, hm⟩ := forEach_moved hw h
  obtain ⟨rfl, hlen⟩ := entries_of_range hes rfl
  exact ⟨ls, ⟨hlen, hls⟩, hm⟩

/-- And it succeeds wherever they can be moved, with or without others after them. -/
theorem sendTokens_legs (hw : NoWrap w leaf) (hl : Legs D A leaf w ls) (hm : Moved D w (ls ++ ms) w'') :
    ∃ w', Ok (sendTokensToChainAndUpdatePooledTokenTrackers D A leaf) w () w' ∧ Moved D w ls w' ∧ Moved D w' ms w'' :=
  forEach_legs hw (range_entries hl.1) hl.2 hm

theorem Legs.moved (hm : Moved D w ms w') : Legs D A leaf w' ls ↔ Legs D A leaf w ls := by
  refine and_congr_right fun _ => ?_
  constructor
  · exact fun h => h.imp fun _ _ h => (LegOf.moved hm).mp h
  · exact fun h => h.imp fun _ _ h => (LegOf.moved hm).mpr h

end Leaves

end Across.HubLegs
