import Across.HubRules

namespace Across.HubRefine

open Abi CallExec CallExec.Exec Erc20 Checked HubState HubPool HubRun HubRules PooledAsset

section WellFormed

/-- What holds of every chain that the pool runs on. -/
structure WellFormed (D : Deployment) (w : World) : Prop where
  zero : w.code 0 = false
  weth : w.code D.weth = true
  wethPlain : w.lpTokens D.weth = false
  bare : ∀ a, w.code a = false → w.tokens a = .empty
  issued : ∀ a, w.lpTokens a = true → w.code a = true
  pools : ∀ t, (w.hub.pooledTokens t).lpToken ≠ 0 → w.lpTokens (w.hub.pooledTokens t).lpToken = true
  distinct : ∀ t s, (w.hub.pooledTokens t).lpToken ≠ 0 →
    (w.hub.pooledTokens t).lpToken = (w.hub.pooledTokens s).lpToken → t = s
  proposer : w.hub.rootBundleProposal.proposer ≠ D.self
  time : w.time < 2 ^ 256

/-- A change that leaves alone what `WellFormed` is about. -/
structure Steady (D : Deployment) (w w' : World) : Prop where
  code : w'.code = w.code
  lpTokens : w'.lpTokens = w.lpTokens
  time : w'.time = w.time
  bare : ∀ a, w.code a = false → w'.tokens a = w.tokens a
  lpToken : ∀ t, (w'.hub.pooledTokens t).lpToken = (w.hub.pooledTokens t).lpToken
  proposer : w.hub.rootBundleProposal.proposer ≠ D.self → w'.hub.rootBundleProposal.proposer ≠ D.self

variable {D : Deployment} {w w' w'' : World}

theorem Steady.refl (D : Deployment) (w : World) : Steady D w w :=
  ⟨rfl, rfl, rfl, fun _ _ => rfl, fun _ => rfl, id⟩

theorem Steady.trans (h : Steady D w w') (k : Steady D w' w'') : Steady D w w'' where
  code := k.code.trans h.code
  lpTokens := k.lpTokens.trans h.lpTokens
  time := k.time.trans h.time
  bare a ha := (k.bare a (by rwa [h.code])).trans (h.bare a ha)
  lpToken t := (k.lpToken t).trans (h.lpToken t)
  proposer hp := k.proposer (h.proposer hp)

theorem WellFormed.steady (h : WellFormed D w) (k : Steady D w w') : WellFormed D w' where
  zero := by rw [k.code, h.zero]
  weth := by rw [k.code, h.weth]
  wethPlain := by rw [k.lpTokens, h.wethPlain]
  bare a ha := by
    rw [k.code] at ha
    rw [k.bare a ha, h.bare a ha]
  issued a ha := by
    rw [k.lpTokens] at ha
    rw [k.code, h.issued a ha]
  pools t ht := by
    rw [k.lpToken] at ht ⊢
    rw [k.lpTokens, h.pools t ht]
  distinct t s ht hs := by
    rw [k.lpToken] at ht
    rw [k.lpToken, k.lpToken] at hs
    exact h.distinct t s ht hs
  proposer := k.proposer h.proposer
  time := by rw [k.time]; exact h.time

theorem steady_putPool {t : Address} {p : PooledToken} (h : Steady D w w')
    (hp : p.lpToken = (w'.hub.pooledTokens t).lpToken) : Steady D w (putPool w' t p) := by
  refine h.trans ⟨rfl, rfl, rfl, fun _ _ => rfl, fun s => ?_, id⟩
  simp only [putPool]
  by_cases hs : s = t
  · rw [hs, Function.update_self, hp]
  · rw [Function.update_of_ne hs]

theorem steady_putToken {a : Address} {x : Token Address} (h : Steady D w w') (hc : w'.code a = true) :
    Steady D w (putToken w' a x) := by
  refine h.trans ⟨rfl, rfl, rfl, fun b hb => ?_, fun _ => rfl, id⟩
  have hne : b ≠ a := by
    intro hba
    rw [hba, hc] at hb
    cases hb
  simp only [putToken, Function.update_of_ne hne]

theorem steady_logged {e : Entry} (h : Steady D w w') : Steady D w (logged w' e) :=
  h.trans ⟨rfl, rfl, rfl, fun _ _ => rfl, fun _ => rfl, id⟩

theorem steady_putProposal {p : RootBundle} (h : Steady D w w')
    (hp : w'.hub.rootBundleProposal.proposer ≠ D.self → p.proposer ≠ D.self) :
    Steady D w (putProposal w' p) :=
  h.trans ⟨rfl, rfl, rfl, fun _ _ => rfl, fun _ => rfl, hp⟩

theorem Genesis.wellFormed (h : Genesis D w) : WellFormed D w := by
  obtain ⟨owner, hh⟩ := h.hub
  refine ⟨h.zero, h.weth, h.lpTokens _, h.bare, fun a ha => ?_, fun t ht => ?_, fun t s ht => ?_, ?_, h.time⟩
  · rw [h.lpTokens] at ha
    cases ha
  · rw [hh] at ht
    exact absurd rfl ht
  · rw [hh] at ht
    exact absurd rfl ht
  · rw [hh]
    exact D.self_ne_zero.symm

end WellFormed

section Books

def added (t : Address) : Entry → Int
  | .liquidityAdded a n _ _ => if a = t then n.toNat else 0
  | _ => 0

def removed (t : Address) : Entry → Int
  | .liquidityRemoved a n _ _ => if a = t then n.toNat else 0
  | _ => 0

def captured (t : Address) : Entry → Int
  | .lpFeesCaptured a n => if a = t then n.toNat else 0
  | _ => 0

def cut (t : Address) : Entry → Int
  | .reservesHaircut a n => if a = t then n.toInt else 0
  | _ => 0

def total (f : Entry → Int) (log : List Entry) : Int := (log.map f).sum

def booking (t : Address) (e : Entry) : Int := added t e - removed t e + captured t e - cut t e

def booked (t : Address) (log : List Entry) : Int :=
  total (added t) log - total (removed t) log + total (captured t) log - total (cut t) log

theorem total_snoc (f : Entry → Int) (log : List Entry) (e : Entry) :
    total f (log ++ [e]) = total f log + f e := by
  simp only [total, List.map_append, List.map_cons, List.map_nil, List.sum_append, List.sum_cons,
    List.sum_nil, Int.add_zero]

theorem booked_snoc (t : Address) (log : List Entry) (e : Entry) :
    booked t (log ++ [e]) = booked t log + booking t e := by
  simp only [booked, total_snoc, booking]
  omega

@[simp] theorem booked_logged (t : Address) (w : World) (e : Entry) :
    booked t (logged w e).log = booked t w.log + booking t e := booked_snoc t w.log e

theorem booked_silent {t : Address} {w : World} {e : Entry} {n : Int} (h : booked t w.log = n)
    (he : booking t e = 0) : booked t (logged w e).log = n := by
  rw [booked_logged, he, h, Int.add_zero]

end Books

def lpShare (pct fees : Uint256) : Nat := fees.toNat - fees.toNat * pct.toNat / 10 ^ 18

/-- Why a label stands in the books of a token. -/
inductive Cause (D : Deployment) (w : World) (t : Address) : Input → Label → Prop
  | tick (seconds : Nat) : Cause D w t (.advance seconds) .ticked
  | quoted (msg : Msg) (A : Answers) : Cause D w t (.call msg A (.exchangeRateCurrent t)) .rated
  | quotedAdd (msg : Msg) (A : Answers) (n : Uint256) : Cause D w t (.call msg A (.addLiquidity t n)) .rated
  | added (msg : Msg) (A : Answers) (n : Uint256) :
      Cause D w t (.call msg A (.addLiquidity t n)) (.added n.toNat)
  | quotedRemove (msg : Msg) (A : Answers) (n : Uint256) (sendEth : Bool) :
      Cause D w t (.call msg A (.removeLiquidity t n sendEth)) .rated
  | removed (msg : Msg) (A : Answers) (n : Uint256) (sendEth : Bool) (amount : Nat) :
      Cause D w t (.call msg A (.removeLiquidity t n sendEth)) (.removed amount)
  | captured (msg : Msg) (A : Answers) (leaf : PoolRebalanceLeaf) (proof : List Bytes32) (fees : Uint256)
      (h : (t, fees) ∈ leaf.l1Tokens.zip leaf.bundleLpFees) (hn : 0 < lpShare w.hub.protocolFeeCapturePct fees) :
      Cause D w t (.call msg A (.executeRootBundle leaf proof))
        (.captured (lpShare w.hub.protocolFeeCapturePct fees))
  | cut (msg : Msg) (A : Answers) (n : Int256) :
      Cause D w t (.call msg A (.haircutReserves t n)) (.haircut n.toInt)
  | opened (msg : Msg) (A : Answers) :
      Cause D w t (.call msg A (.enableL1TokenForLiquidityProvision t)) .opened
  | claimed (msg : Msg) (A : Answers) (h : w.hub.protocolFeeCaptureAddress ≠ D.self) :
      Cause D w t (.call msg A (.claimProtocolFeesCaptured t))
        (.paid (w.hub.unclaimedAccumulatedProtocolFees t).toNat)
  | expired (msg : Msg) (A : Answers) (h : activeRequest w.hub = false) (ht : t = w.hub.bondToken)
      (hc : w.time % 2 ^ 32 ≤ w.hub.rootBundleProposal.challengePeriodEndTimestamp.toNat) :
      Cause D w t (.call msg A .disputeRootBundle) (.paid w.hub.bondAmount.toNat)

/-- What happens to one token from `w` to `w'`, with the entries it leaves. -/
def Moves (D : Deployment) (w w' : World) (t : Address) (C : Label → Prop) : Prop :=
  ∃ ls, Act (view D t w) ls (view D t w') ∧ (∀ l ∈ ls, C l) ∧ booked t w'.log = booked t w.log + net ls

section Moves

variable {D : Deployment} {w w' : World} {t : Address} {C : Label → Prop}

theorem Moves.idle (hv : view D t w' = view D t w) (hl : booked t w'.log = booked t w.log) :
    Moves D w w' t C := by
  refine ⟨[], ?_, by simp, by simp [hl]⟩
  rw [hv]
  exact .idle _

theorem Moves.silent (h : Act (view D t w) [] (view D t w')) (hl : booked t w'.log = booked t w.log) :
    Moves D w w' t C := ⟨[], h, by simp, by simp [hl]⟩

theorem Moves.one {l : Label} (h : Act (view D t w) [l] (view D t w')) (hc : C l)
    (hl : booked t w'.log = booked t w.log + l.net) : Moves D w w' t C :=
  ⟨[l], h, by simpa using hc, by simpa using hl⟩

end Moves

end Across.HubRefine
