import Across.HubRate
import Mathlib.Logic.Relation

namespace Across.HubRoundTrips

open Abi CallExec CallExec.Exec HubState HubPool HubRun HubRules HubRefine HubSteps HubReach
  HubRate PooledAsset Relation

def poolBalance (D : Deployment) (t : Address) (w : World) : Nat := ((w.tokens t).balance D.self).toNat

def minted (t : Address) (w w' : World) : Nat := lpSupply t w' - lpSupply t w

def returned (D : Deployment) (t : Address) (w w' : World) : Nat := poolBalance D t w - poolBalance D t w'

variable {D : Deployment} {A A' : Answers} {msg msg' : Msg} {t : Address} {n m x : Uint256} {r r' : Nat}
  {w w₁ w₂ : World}

section Calls

theorem adds_amounts (h : Adds D msg t n m r w w₁) : lpSupply t w₁ = lpSupply t w + m.toNat ∧
    poolBalance D t w₁ = poolBalance D t w + n.toNat := by
  obtain ⟨b, hb, hview⟩ := h.books
  have hsupply := congrArg Asset.supply hview
  have hbalance := congrArg Asset.balance hview
  simp only [hb.same.supply] at hsupply
  simp only [hb.same.balance] at hbalance
  exact ⟨hsupply, hbalance⟩

theorem removes_amounts (h : Removes D msg t n x r w w₁) :
    lpSupply t w₁ + n.toNat = lpSupply t w ∧ poolBalance D t w₁ + x.toNat = poolBalance D t w := by
  obtain ⟨b, hb, hn, -, hx, hview⟩ := h.books
  have hsupply := congrArg Asset.supply hview
  have hbalance := congrArg Asset.balance hview
  simp only [hb.same.supply] at hsupply hn
  simp only [hb.same.balance] at hbalance hx
  change lpSupply t w₁ = lpSupply t w - n.toNat at hsupply
  change n.toNat ≤ lpSupply t w at hn
  change poolBalance D t w₁ = poolBalance D t w - x.toNat at hbalance
  change x.toNat ≤ poolBalance D t w at hx
  omega

theorem adds_removes (hs : 0 < lpSupply t w) (ht : w.time < 2 ^ 32) (h : Adds D msg t n m r w w₁)
    (k : Removes D msg' t m x r' w₁ w₂) : x.toNat ≤ n.toNat := by
  obtain ⟨b, hb, hview⟩ := h.books
  obtain ⟨c, hc, -⟩ := k.books
  rw [hview, h.minted] at hc
  rw [k.returned, h.minted]
  exact hb.add_remove hs ht h.fits hc

theorem removes_adds (hs : 0 < lpSupply t w) (hpos : 0 < lpSupply t w₁) (h : Removes D msg t n x r w w₁)
    (k : Adds D msg' t x m r' w₁ w₂) : m.toNat ≤ n.toNat := by
  obtain ⟨hsupply, -⟩ := removes_amounts h
  obtain ⟨b, hb, -, hl, hx, hview⟩ := h.books
  obtain ⟨c, hc, -⟩ := k.books
  have hn : n.toNat < b.supply := by
    rw [hb.same.supply]
    change n.toNat < lpSupply t w
    omega
  rw [h.returned] at hl hx hview
  rw [hview] at hc
  rw [k.minted, h.returned]
  exact hb.remove_add hs hn hl hx hc

theorem dispatch_adds (hw : WellFormed D w) (hs : msg.sender ≠ D.self)
    (h : Ok (dispatch D A msg (.addLiquidity t n)) w () w₁) : ∃ m r, Adds D msg t n m r w w₁ :=
  addLiquidity_ok hw hs (dispatch_ok.mp h).2.2

theorem dispatch_removes {eth : Bool} (hw : WellFormed D w) (hs : msg.sender ≠ D.self)
    (h : Ok (dispatch D A msg (.removeLiquidity t n eth)) w () w₁) : ∃ x r, Removes D msg t n x r w w₁ :=
  removeLiquidity_ok hw hs (dispatch_ok.mp h).2.2

end Calls

/-- Two calls, right after each other: all LP tokens that the first mints are
redeemed by the second, or all tokens that it returns are added again. -/
inductive RoundTrip (D : Deployment) (t : Address) : World → World → Prop
  | addRemove (A A' : Answers) (msg msg' : Msg) (n lp : Uint256) (eth : Bool) {w w₁ w₂ : World}
      (hs : msg.sender ≠ D.self) (hs' : msg'.sender ≠ D.self)
      (add : Ok (dispatch D A msg (.addLiquidity t n)) w () w₁) (hlp : lp.toNat = minted t w w₁)
      (remove : Ok (dispatch D A' msg' (.removeLiquidity t lp eth)) w₁ () w₂) : RoundTrip D t w w₂
  | removeAdd (A A' : Answers) (msg msg' : Msg) (n lp : Uint256) (eth : Bool) {w w₁ w₂ : World}
      (hs : msg.sender ≠ D.self) (hs' : msg'.sender ≠ D.self)
      (remove : Ok (dispatch D A msg (.removeLiquidity t lp eth)) w () w₁) (hpos : 0 < lpSupply t w₁)
      (hn : n.toNat = returned D t w w₁)
      (add : Ok (dispatch D A' msg' (.addLiquidity t n)) w₁ () w₂) : RoundTrip D t w w₂

section Trips

theorem added_then_removed {lp : Uint256} {eth : Bool} (hw : WellFormed D w) (hpos : 0 < lpSupply t w)
    (ht : w.time < 2 ^ 32)
    (hs : msg.sender ≠ D.self) (hs' : msg'.sender ≠ D.self) (add : Ok (dispatch D A msg (.addLiquidity t n)) w () w₁)
    (hlp : lp.toNat = minted t w w₁) (remove : Ok (dispatch D A' msg' (.removeLiquidity t lp eth)) w₁ () w₂) :
    Steady D w w₂ ∧ lpSupply t w₂ = lpSupply t w ∧ poolBalance D t w₁ = poolBalance D t w + n.toNat ∧
      returned D t w₁ w₂ ≤ n.toNat := by
  obtain ⟨m, r, hadds⟩ := dispatch_adds hw hs add
  obtain ⟨hsup, hbal⟩ := adds_amounts hadds
  obtain ⟨x, r', hremoves⟩ := dispatch_removes (hw.steady hadds.steady) hs' remove
  obtain ⟨hsup', hbal'⟩ := removes_amounts hremoves
  have hm : lp = m := by
    apply BitVec.eq_of_toNat_eq
    rw [hlp, minted]
    omega
  subst hm
  have hx := adds_removes hpos ht hadds hremoves
  refine ⟨hadds.steady.trans hremoves.steady, by omega, hbal, ?_⟩
  rw [returned]
  omega

theorem removed_then_added {lp : Uint256} {eth : Bool} (hw : WellFormed D w) (hpos : 0 < lpSupply t w)
    (hs : msg.sender ≠ D.self) (hs' : msg'.sender ≠ D.self)
    (remove : Ok (dispatch D A msg (.removeLiquidity t lp eth)) w () w₁) (hpos₁ : 0 < lpSupply t w₁)
    (hn : n.toNat = returned D t w w₁) (add : Ok (dispatch D A' msg' (.addLiquidity t n)) w₁ () w₂) :
    Steady D w w₂ ∧ poolBalance D t w₂ = poolBalance D t w ∧ lpSupply t w₁ + lp.toNat = lpSupply t w ∧
      lpSupply t w₁ ≤ lpSupply t w₂ ∧ minted t w₁ w₂ ≤ lp.toNat := by
  obtain ⟨x, r, hremoves⟩ := dispatch_removes hw hs remove
  obtain ⟨hsup, hbal⟩ := removes_amounts hremoves
  obtain ⟨m, r', hadds⟩ := dispatch_adds (hw.steady hremoves.steady) hs' add
  obtain ⟨hsup', hbal'⟩ := adds_amounts hadds
  have hx : n = x := by
    apply BitVec.eq_of_toNat_eq
    rw [hn, returned]
    omega
  subst hx
  have hm := removes_adds hpos hpos₁ hremoves hadds
  refine ⟨hremoves.steady.trans hadds.steady, by omega, hsup, by omega, ?_⟩
  rw [minted]
  omega

/-- A round trip takes no tokens from the pool and leaves no more LP tokens. -/
theorem RoundTrip.kept (hw : WellFormed D w) (hpos : 0 < lpSupply t w) (ht : w.time < 2 ^ 32) (h : RoundTrip D t w w₁) :
    Steady D w w₁ ∧ 0 < lpSupply t w₁ ∧ poolBalance D t w ≤ poolBalance D t w₁ ∧ lpSupply t w₁ ≤ lpSupply t w := by
  cases h with
  | addRemove _ _ _ _ _ _ _ hs hs' add hlp remove =>
      obtain ⟨hst, hsup, hbal, hx⟩ := added_then_removed hw hpos ht hs hs' add hlp remove
      rw [returned] at hx
      exact ⟨hst, by omega, by omega, by omega⟩
  | removeAdd _ _ _ _ _ _ _ hs hs' remove hpos₁ hn add =>
      obtain ⟨hst, hbal, hsup, hle, hm⟩ := removed_then_added hw hpos hs hs' remove hpos₁ hn add
      rw [minted] at hm
      exact ⟨hst, by omega, by omega, by omega⟩

theorem roundTrips_kept (hw : WellFormed D w) (hpos : 0 < lpSupply t w) (ht : w.time < 2 ^ 32)
    (h : ReflTransGen (RoundTrip D t) w w₁) :
    Steady D w w₁ ∧ 0 < lpSupply t w₁ ∧ poolBalance D t w ≤ poolBalance D t w₁ ∧ lpSupply t w₁ ≤ lpSupply t w := by
  induction h with
  | refl => exact ⟨.refl D w, hpos, le_rfl, le_rfl⟩
  | tail _ hlast ih =>
      obtain ⟨hst, hpos', hbal, hsup⟩ := ih
      obtain ⟨hst₁, hpos₁, hbal₁, hsup₁⟩ := hlast.kept (hw.steady hst) hpos' (hst.time ▸ ht)
      exact ⟨hst.trans hst₁, hpos₁, hbal.trans hbal₁, hsup₁.trans hsup⟩

end Trips

/-- Redeeming all LP tokens just minted returns no more than was added, as long as the
time fits the word that holds the last update of the fees. Adding all tokens just
returned mints no more LP tokens than were redeemed, at any time. Any number of such
round trips takes no tokens from the pool and leaves no more LP tokens. -/
theorem round_trips_extract_nothing (hg : Genesis D w) (is : List Input) (t : Address)
    (hs : 0 < lpSupply t (run D w is)) :
    (∀ A A' msg msg' n lp eth w₁ w₂, (run D w is).time < 2 ^ 32 → msg.sender ≠ D.self → msg'.sender ≠ D.self →
      Ok (dispatch D A msg (.addLiquidity t n)) (run D w is) () w₁ → lp.toNat = minted t (run D w is) w₁ →
      Ok (dispatch D A' msg' (.removeLiquidity t lp eth)) w₁ () w₂ → returned D t w₁ w₂ ≤ n.toNat) ∧
    (∀ A A' msg msg' n lp eth w₁ w₂, msg.sender ≠ D.self → msg'.sender ≠ D.self →
      Ok (dispatch D A msg (.removeLiquidity t lp eth)) (run D w is) () w₁ → 0 < lpSupply t w₁ →
      n.toNat = returned D t (run D w is) w₁ → Ok (dispatch D A' msg' (.addLiquidity t n)) w₁ () w₂ →
      minted t w₁ w₂ ≤ lp.toNat) ∧
    ∀ w', (run D w is).time < 2 ^ 32 → ReflTransGen (RoundTrip D t) (run D w is) w' →
      poolBalance D t (run D w is) ≤ poolBalance D t w' ∧ lpSupply t w' ≤ lpSupply t (run D w is) := by
  have hw := run_wellFormed (Genesis.wellFormed hg) is
  refine ⟨?_, ?_, ?_⟩
  · intro A A' msg msg' n lp eth w₁ w₂ ht hs₁ hs₂ hadd hlp hremove
    exact (added_then_removed hw hs ht hs₁ hs₂ hadd hlp hremove).2.2.2
  · intro A A' msg msg' n lp eth w₁ w₂ hs₁ hs₂ hremove hpos hn hadd
    exact (removed_then_added hw hs hs₁ hs₂ hremove hpos hn hadd).2.2.2.2
  · intro w' ht htrips
    exact (roundTrips_kept hw hs ht htrips).2.2

def sampleDeposited : World := run sampleDeployment sampleWorld sampleDeposit

theorem sampleDeposited_roundTrips : ∃ w₁ w₂ w₃ w₄,
    Ok (dispatch sampleDeployment sampleAnswers ⟨4, 0⟩ (.addLiquidity 5 10)) sampleDeposited () w₁ ∧
    Ok (dispatch sampleDeployment sampleAnswers ⟨4, 0⟩ (.removeLiquidity 5 10 false)) w₁ () w₂ ∧
    Ok (dispatch sampleDeployment sampleAnswers ⟨4, 0⟩ (.removeLiquidity 5 30 false)) sampleDeposited () w₃ ∧
    Ok (dispatch sampleDeployment sampleAnswers ⟨4, 0⟩ (.addLiquidity 5 30)) w₃ () w₄ ∧
    returned sampleDeployment 5 w₁ w₂ ≤ 10 ∧ minted 5 w₃ w₄ ≤ 30 ∧
    poolBalance sampleDeployment 5 sampleDeposited ≤ poolBalance sampleDeployment 5 w₂ := by
  obtain ⟨h₁, h₂, h₃⟩ := round_trips_extract_nothing sampleWorld_genesis sampleDeposit 5 (by decide)
  obtain ⟨w₁, w₂, hadd, hminted, hremove⟩ : ∃ w₁ w₂,
      Ok (dispatch sampleDeployment sampleAnswers ⟨4, 0⟩ (.addLiquidity 5 10)) sampleDeposited () w₁ ∧
      (10 : Uint256).toNat = minted 5 sampleDeposited w₁ ∧
      Ok (dispatch sampleDeployment sampleAnswers ⟨4, 0⟩ (.removeLiquidity 5 10 false)) w₁ () w₂ :=
    ⟨_, _, rfl, rfl, rfl⟩
  obtain ⟨w₃, w₄, hredeem, hpos, hreturned, hagain⟩ : ∃ w₃ w₄,
      Ok (dispatch sampleDeployment sampleAnswers ⟨4, 0⟩ (.removeLiquidity 5 30 false)) sampleDeposited () w₃ ∧
      0 < lpSupply 5 w₃ ∧ (30 : Uint256).toNat = returned sampleDeployment 5 sampleDeposited w₃ ∧
      Ok (dispatch sampleDeployment sampleAnswers ⟨4, 0⟩ (.addLiquidity 5 30)) w₃ () w₄ :=
    ⟨_, _, rfl, by decide, rfl, rfl⟩
  refine ⟨w₁, w₂, w₃, w₄, hadd, hremove, hredeem, hagain, ?_, ?_, ?_⟩
  · exact h₁ _ _ _ _ 10 10 false w₁ w₂ (by decide) (by decide) (by decide) hadd hminted hremove
  · exact h₂ _ _ _ _ 30 30 false w₃ w₄ (by decide) (by decide) hredeem hpos hreturned hagain
  · exact (h₃ w₂ (by decide) (.single (.addRemove _ _ _ _ 10 10 false (by decide) (by decide) hadd hminted
      hremove))).1

/-- The fees of the token are handed out in the last second whose time fits 32 bits. -/
def sampleLast : List Input :=
  sampleDeposit ++ sampleProposal 1000 ++ [.advance 4294959094, sampleCall 9 (.exchangeRateCurrent 5)]

def sampleFull : World := run sampleDeployment sampleWorld sampleLast

/-- In the same second a leaf with fees of 1000 is executed. -/
def sampleCaptured : World :=
  logged (logged (putPool (putProposal sampleFull ⟨sampleRoot 1000, 0, 0, 1, 7, 1, 8200⟩) 5
    { sampleFull.hub.pooledTokens 5 with undistributedLpFees := 1000, utilizedReserves := 1000 })
    (.lpFeesCaptured 5 1000)) (.rootBundleExecuted (sampleLeaf 1000) 9)

def sampleRollover : World := { sampleCaptured with time := 4294967296 }

theorem sampleRollover_reached : run sampleDeployment sampleWorld
    (sampleLast ++ [sampleCall 9 (.executeRootBundle (sampleLeaf 1000) []), .advance 1]) = sampleRollover := by
  have hroute : sampleFull.hub.poolRebalanceRoutes =
    Function.update (fun _ => 0) (poolRebalanceRouteKey 5 10) 14 := rfl
  have hexec : step sampleDeployment sampleFull (sampleCall 9 (.executeRootBundle (sampleLeaf 1000) [])) =
      sampleCaptured := by
    refine sampleLeaf_step rfl (by decide) rfl rfl rfl ?_ rfl
    rw [hroute, Function.update_self]
  have htime : sampleCaptured.time = 4294967295 := rfl
  rw [run_append, run_cons, run_cons, run_nil]
  change step sampleDeployment (step sampleDeployment sampleFull _) _ = _
  rw [hexec, step, htime]
  rfl

/-- The time of the update is stored as 0, so the next call hands out all fees: 10 tokens
are added and 100 returned. -/
theorem sampleRollover_extracts :
    run sampleDeployment sampleWorld
      (sampleLast ++ [sampleCall 9 (.executeRootBundle (sampleLeaf 1000) []), .advance 1]) = sampleRollover ∧
    0 < lpSupply 5 sampleRollover ∧ ∃ w₁ w₂,
      Ok (dispatch sampleDeployment sampleAnswers ⟨4, 0⟩ (.addLiquidity 5 10)) sampleRollover () w₁ ∧
      minted 5 sampleRollover w₁ = 10 ∧
      Ok (dispatch sampleDeployment sampleAnswers ⟨4, 0⟩ (.removeLiquidity 5 10 false)) w₁ () w₂ ∧
      returned sampleDeployment 5 w₁ w₂ = 100 :=
  ⟨sampleRollover_reached, by decide, _, _, rfl, rfl, rfl, rfl⟩

end Across.HubRoundTrips
