import Across.HubRefine

namespace Across.HubSteps

open Abi CallExec CallExec.Exec Erc20 Checked HubState HubPool HubRun HubRules HubRefine PooledAsset

/-- What a call does: it moves value in the ways `C` allows, and leaves the
rest of the chain well-formed. -/
structure Effect (D : Deployment) (w w' : World) (C : Address → Label → Prop) : Prop where
  steady : Steady D w w'
  moves : ∀ t, Moves D w w' t (C t)

variable {D : Deployment} {A : Answers} {msg : Msg} {w w' : World} {u : Unit} {t : Address}
  {C : Address → Label → Prop}

theorem Effect.refl : Effect D w w C := ⟨.refl D w, fun _ => .idle rfl rfl⟩

theorem effect_setHub {h : Hub} {e : Entry} (hp : h.pooledTokens = w.hub.pooledTokens)
    (hr : h.rootBundleProposal = w.hub.rootBundleProposal) (hh : ∀ t, heldFor t h = heldFor t w.hub)
    (he : ∀ t, booking t e = 0) : Effect D w (logged { w with hub := h } e) C := by
  refine ⟨⟨rfl, rfl, rfl, fun _ _ => rfl, fun t => ?_, fun hself => ?_⟩, fun t => .idle ?_ ?_⟩
  · simp only [logged, hp]
  · simpa only [logged, hr] using hself
  · simp only [view, logged, asset, supplyOf, hp, hh]
  · exact booked_silent rfl (he t)

theorem effect_putPool {p : PooledToken} {ls : List Label} (hlp : p.lpToken = (w.hub.pooledTokens t).lpToken)
    (ha : Act (view D t w) ls (view D t (putPool w t p))) (hc : ∀ l ∈ ls, C t l) (hn : net ls = 0) :
    Effect D w (putPool w t p) C := by
  refine ⟨steady_putPool (.refl D w) hlp, fun s => ?_⟩
  by_cases hs : s = t
  · subst hs
    exact ⟨ls, ha, hc, by rw [hn, Int.add_zero]; rfl⟩
  · exact .idle (asset_putPool_of_ne hs) rfl

section Settings

theorem relaySpokePoolAdminFunction_effect {chainId : Uint256} {data : WordBytes.Bytes}
    (h : Ok (relaySpokePoolAdminFunction A chainId data) w u w') : Effect D w w' C := by
  simp only [relaySpokePoolAdminFunction, getInitializedCrossChainContracts, relayMessage, bind_ok, read_ok,
    require_ok, pure_ok, emit_ok] at h
  obtain ⟨_, _, ⟨_, _, ⟨rfl, rfl⟩, _, _, ⟨-, rfl⟩, _, _, ⟨-, rfl⟩, -, rfl⟩, _, _, ⟨-, rfl⟩, rfl⟩ := h
  exact effect_setHub rfl rfl (fun _ => rfl) fun _ => rfl

theorem setDepositRoute_effect {o d : Uint256} {token : Address} {enabled : Bool}
    (h : Ok (setDepositRoute A o d token enabled) w u w') : Effect D w w' C := by
  simp only [setDepositRoute, bind_ok, emit_ok] at h
  obtain ⟨_, w₁, h₁, rfl⟩ := h
  have h₁ := relaySpokePoolAdminFunction_effect (D := D) (C := C) h₁
  refine ⟨steady_logged h₁.steady, fun t => ?_⟩
  obtain ⟨ls, ha, hc, hb⟩ := h₁.moves t
  exact ⟨ls, ha, hc, booked_silent hb rfl⟩

theorem setBond_effect {token : Address} {amount : Uint256} (h : Ok (setBond A token amount) w u w') :
    Effect D w w' C := by
  simp only [setBond, bind_ok, noActiveRequests_ok, require_ok, checkedAdd_ok, setHub, update_ok, emit_ok] at h
  obtain ⟨_, _, ⟨hact, rfl⟩, _, _, ⟨-, rfl⟩, _, _, ⟨-, rfl⟩, _, _, ⟨-, rfl⟩, _, _, rfl, rfl⟩ := h
  refine effect_setHub rfl rfl (fun t => ?_) fun _ => rfl
  -- No proposal is active, so nothing is held in either token.
  have hact' : ∀ h : Hub, h.rootBundleProposal = w.hub.rootBundleProposal → heldFor t h = 0 := by
    intro h hr
    rw [heldFor, if_neg]
    rintro ⟨-, hc⟩
    rw [activeRequest, hr] at hc
    rw [activeRequest, hc] at hact
    cases hact
  rw [hact' w.hub rfl]
  exact hact' _ rfl

end Settings

section Rates

theorem sync_effect (h : Ok (syncInternal D t) w u w') : Effect D w w' C := by
  obtain ⟨p, rfl, hlp, hs⟩ := syncInternal_ok h
  exact effect_putPool hlp (.sync hs) (by simp) rfl

theorem liquidityUtilization_effect {n r : Uint256}
    (h : Ok (liquidityUtilizationPostRelayInternal D t n) w r w') : Effect D w w' C := by
  simp only [liquidityUtilizationPostRelayInternal, bind_ok, read_ok, checkedAdd_ok] at h
  obtain ⟨_, w₁, h₁, _, _, ⟨rfl, rfl⟩, _, _, ⟨-, rfl⟩, _, _, ⟨-, rfl⟩, h⟩ := h
  have hw : w₁ = w' := by
    split at h
    · exact ((pure_ok _ _ _ _).mp h).2
    · simp only [bind_ok, checkedMul_ok, checkedDiv_ok] at h
      obtain ⟨_, _, ⟨-, rfl⟩, -, -, rfl⟩ := h
      rfl
  subst hw
  exact sync_effect h₁

theorem exchangeRate_effect {r : Uint256} (hw : WellFormed D w) (h : Ok (exchangeRateInternal D t) w r w')
    (hc : C t .rated) : Effect D w w' C := by
  obtain ⟨p, rfl, hlp, hr⟩ := exchangeRateInternal_ok hw.zero hw.time h
  exact effect_putPool hlp (.quote hr) (by simpa using hc) rfl

theorem haircutReserves_effect {n : Int256} (h : Ok (haircutReserves t n) w u w')
    (hc : C t (.haircut n.toInt)) : Effect D w w' C := by
  simp only [haircutReserves, bind_ok, read_ok, signedSub_ok (show 0 < 256 by decide), setPool_ok, emit_ok] at h
  obtain ⟨_, _, ⟨rfl, rfl⟩, v, _, ⟨hv, rfl⟩, _, _, rfl, rfl⟩ := h
  refine ⟨steady_logged (steady_putPool (.refl D w) rfl), fun s => ?_⟩
  by_cases hs : s = t
  · subst hs
    refine .one (l := .haircut n.toInt) ?_ hc ?_
    · refine (Act.haircut (view D s w) n.toInt).congr (Asset.ext ?_ ?_ ?_ ?_ ?_ rfl rfl rfl)
      all_goals simp only [view, asset, logged, putPool, Function.update_self, supplyOf, hv]
    · rw [booked_logged]
      simp only [booking, added, removed, captured, cut, if_true, Label.net]
      simp only [putPool]
      omega
  · refine .idle (asset_putPool_of_ne hs) ?_
    rw [booked_logged]
    simp only [booking, added, removed, captured, cut, if_neg (Ne.symm hs)]
    exact Int.add_zero _

end Rates

section Liquidity

theorem lpToken_ne_weth (hw : WellFormed D w) (h : (w.hub.pooledTokens t).lpToken ≠ 0) :
    (w.hub.pooledTokens t).lpToken ≠ D.weth := by
  intro hc
  have hp := hw.pools t h
  rw [hc, hw.wethPlain] at hp
  cases hp

theorem takeDeposit_ok {n : Uint256} (hw : WellFormed D w) (hs : msg.sender ≠ D.self)
    (hv : (D.weth = t ∧ msg.value = n) ∨ msg.value = 0) (h : Ok (takeDeposit D A msg t n) w u w') :
    Steady D w w' ∧ w'.hub = w.hub ∧ w'.log = w.log ∧ ∀ k s, asset D k s w' =
      { asset D k s w with balance := (asset D k s w).balance + if s = t then n.toNat else 0 } := by
  simp only [takeDeposit] at h
  split at h
  · rename_i hc
    obtain ⟨rfl, hpos⟩ := hc
    obtain ⟨hcode, x, hx, rfl⟩ := changeToken_ok.mp h
    have hn : msg.value = n := by
      rcases hv with hv | hv
      · exact hv.2
      · rw [hv] at hpos
        exact absurd hpos (Nat.lt_irrefl 0)
    rw [hn] at hx
    exact ⟨steady_putToken (.refl D w) hcode, rfl, rfl, fun k s => asset_wrap hx (lpToken_ne_weth hw)⟩
  · obtain ⟨-, hcode, x, hx, rfl⟩ := safeTransferFrom_ok.mp h
    exact ⟨steady_putToken (.refl D w) hcode, rfl, rfl, fun k s => asset_receive hx hs⟩

theorem payProvider_ok {n : Uint256} {sendEth : Bool} (hw : WellFormed D w) (hs : msg.sender ≠ D.self)
    (he : D.weth = t ∨ sendEth = false) (h : Ok (payProvider D A msg t n sendEth) w u w') :
    Steady D w w' ∧ w'.hub = w.hub ∧ w'.log = w.log ∧ (∀ k, n.toNat ≤ (asset D k t w).balance) ∧
      ∀ k s, asset D k s w' =
        { asset D k s w with balance := (asset D k s w).balance - if s = t then n.toNat else 0 } := by
  simp only [payProvider] at h
  split at h
  · rename_i heth
    obtain rfl : D.weth = t := by
      rcases he with he | he
      · exact he
      · rw [he] at heth
        cases heth
    simp only [bind_ok, changeToken_ok, require_ok] at h
    obtain ⟨_, _, ⟨hcode, x, hx, rfl⟩, -, rfl⟩ := h
    refine ⟨steady_putToken (.refl D w) hcode, rfl, rfl, fun k => ?_, fun k s => ?_⟩
    · exact (asset_unwrap (t := D.weth) hx (lpToken_ne_weth hw)).1
    · exact (asset_unwrap hx (lpToken_ne_weth hw)).2
  · obtain ⟨hcode, x, hx, rfl⟩ := safeTransfer_ok.mp h
    refine ⟨steady_putToken (.refl D w) hcode, rfl, rfl, fun k => ?_, fun k s => ?_⟩
    · exact (asset_pay (t := t) hx hs).1
    · exact (asset_pay hx hs).2

/-- What a deposit does to the books, at the rate `r`. -/
structure Adds (D : Deployment) (msg : Msg) (t : Address) (n m : Uint256) (r : Nat) (w w' : World) : Prop where
  steady : Steady D w w'
  fits : n.toNat * unit < 2 ^ 256
  pos : 0 < r
  minted : m.toNat = n.toNat * unit / r
  log : w'.log = w.log ++ [.liquidityAdded t n m msg.sender]
  books : ∃ b, Rated (view D t w) r b ∧ view D t w' = { b with
    liquid := b.liquid + n.toNat, supply := b.supply + m.toNat, balance := b.balance + n.toNat }
  others : ∀ s, s ≠ t → view D s w' = view D s w

theorem addLiquidity_ok {n : Uint256} (hw : WellFormed D w) (hs : msg.sender ≠ D.self)
    (h : Ok (addLiquidity D A msg t n) w u w') : ∃ m r, Adds D msg t n m r w w' := by
  rw [addLiquidity, unpaused_bind_ok, read_bind_ok, require_bind_ok, require_bind_ok] at h
  obtain ⟨-, -, hv, h⟩ := h
  simp only [bind_ok, read_ok, checkedMul_ok, checkedDiv_ok, checkedAdd_ok, setPool_ok, changeToken_ok, emit_ok] at h
  obtain ⟨x, _, ⟨hx, rfl⟩, r, w₁, hrate, m, _, ⟨hpos, hm, rfl⟩, _, _, ⟨rfl, rfl⟩, l, _, ⟨hl, rfl⟩, _, _, rfl, _, _,
    ⟨hcode, y, hy, rfl⟩, _, w₄, hdep, rfl⟩ := h
  obtain ⟨p, rfl, hlp, hrated⟩ := exchangeRateInternal_ok hw.zero hw.time hrate
  simp only [pooledTokens_putPool, putPool_putPool] at hl hcode hy hdep
  have hlp₀ : p.lpToken ≠ 0 := by
    intro h0
    have hc : w.code p.lpToken = true := hcode
    rw [h0, hw.zero] at hc
    cases hc
  have hst₂ := steady_putPool (t := t) (p := { p with liquidReserves := l }) (.refl D w) hlp
  have hst₃ := steady_putToken (x := y) hst₂ hcode
  obtain ⟨hst₄, hhub, hlog, hass⟩ := takeDeposit_ok (hw.steady hst₃) hs hv hdep
  have hunit : oneEther.toNat = unit := rfl
  rw [hunit] at hx
  have hview : ∀ s, view D s (logged w₄ (.liquidityAdded t n m msg.sender)) = asset D (heldFor s w.hub) s w₄ := by
    intro s
    have hheld : heldFor s w₄.hub = heldFor s w.hub := by
      rw [hhub]
      rfl
    rw [← hheld]
    rfl
  refine ⟨m, r.toNat, steady_logged (hst₃.trans hst₄), hx ▸ x.isLt, Nat.pos_of_ne_zero hpos, by rw [hm, hx], ?_,
    ⟨_, hrated, ?_⟩, ?_⟩
  · rw [logged, hlog]
    rfl
  · rw [hview, hass, asset_issue hy hs hlp₀]
    refine Asset.ext ?_ ?_ ?_ ?_ ?_ ?_ rfl rfl
    all_goals simp only [view, asset, pooledTokens_putPool, supplyOf, hl, if_true]
    all_goals rfl
  · intro s hst
    have hne : (w.hub.pooledTokens s).lpToken ≠ p.lpToken := by
      intro hc
      rw [hlp] at hc hlp₀
      exact hst (hw.distinct t s hlp₀ hc.symm).symm
    have hpool : ((putPool w t _).hub.pooledTokens s).lpToken = (w.hub.pooledTokens s).lpToken :=
      hst₂.lpToken s
    rw [hview, hass, asset_issue hy hs hlp₀, hpool, asset_putPool_of_ne hst, if_neg hst, if_neg hne]
    rfl

theorem addLiquidity_effect {n : Uint256} (hw : WellFormed D w) (hs : msg.sender ≠ D.self)
    (h : Ok (addLiquidity D A msg t n) w u w') (hr : C t .rated) (ha : C t (.added n.toNat)) :
    Effect D w w' C := by
  obtain ⟨m, r, hadds⟩ := addLiquidity_ok hw hs h
  have hbook : ∀ s, booked s w'.log = booked s w.log + if t = s then (n.toNat : Int) else 0 := by
    intro s
    rw [hadds.log, booked_snoc]
    simp only [booking, added, removed, captured, cut, Int.sub_zero, Int.add_zero]
  refine ⟨hadds.steady, fun s => ?_⟩
  by_cases hst : s = t
  · subst hst
    obtain ⟨b, hb, hview⟩ := hadds.books
    refine ⟨[.rated, .added n.toNat], ?_, by simp [hr, ha], by simp [hbook, Label.net]⟩
    rw [hview, hadds.minted]
    exact Act.add hb n.toNat hadds.fits
  · exact .idle (hadds.others s hst) (by rw [hbook, if_neg (Ne.symm hst), Int.add_zero])

structure Removes (D : Deployment) (msg : Msg) (t : Address) (n x : Uint256) (r : Nat) (w w' : World) : Prop where
  steady : Steady D w w'
  returned : x.toNat = n.toNat * r / unit
  log : w'.log = w.log ++ [.liquidityRemoved t x n msg.sender]
  books : ∃ b, Rated (view D t w) r b ∧ n.toNat ≤ b.supply ∧ x.toNat ≤ b.liquid ∧ x.toNat ≤ b.balance ∧
    view D t w' = { b with
      liquid := b.liquid - x.toNat, supply := b.supply - n.toNat, balance := b.balance - x.toNat }
  others : ∀ s, s ≠ t → view D s w' = view D s w

theorem removeLiquidity_ok {n : Uint256} {sendEth : Bool} (hw : WellFormed D w) (hs : msg.sender ≠ D.self)
    (h : Ok (removeLiquidity D A msg t n sendEth) w u w') : ∃ x r, Removes D msg t n x r w w' := by
  rw [removeLiquidity, unpaused_bind_ok, require_bind_ok] at h
  obtain ⟨-, he, h⟩ := h
  simp only [bind_ok, read_ok, checkedMul_ok, checkedSub_ok, setPool_ok, changeToken_ok, emit_ok] at h
  obtain ⟨r, w₁, hrate, x, _, ⟨hx, rfl⟩, _, _, ⟨rfl, rfl⟩, _, _, ⟨hcode, y, hy, rfl⟩, l, _, ⟨hl, rfl⟩, _, _, rfl, _,
    w₄, hpay, rfl⟩ := h
  obtain ⟨p, rfl, hlp, hrated⟩ := exchangeRateInternal_ok hw.zero hw.time hrate
  have hcomm : ∀ q, putPool (putToken (putPool w t p) p.lpToken y) t q = putToken (putPool w t q) p.lpToken y := by
    intro q
    simp only [putPool, putToken, Function.update_idem]
  have hpool : (putToken (putPool w t p) p.lpToken y).hub.pooledTokens t = p := pooledTokens_putPool w t p
  simp only [pooledTokens_putPool, hpool, hcomm] at hl hcode hy hpay
  have hlp₀ : p.lpToken ≠ 0 := by
    intro h0
    have hc : w.code p.lpToken = true := hcode
    rw [h0, hw.zero] at hc
    cases hc
  have hst₂ := steady_putPool (t := t) (p := { p with liquidReserves := l }) (.refl D w) hlp
  have hst₃ := steady_putToken (x := y) hst₂ hcode
  obtain ⟨hst₄, hhub, hlog, hle, hass⟩ := payProvider_ok (hw.steady hst₃) hs he hpay
  have hview : ∀ s, view D s (logged w₄ (.liquidityRemoved t (x / oneEther) n msg.sender)) =
      asset D (heldFor s w.hub) s w₄ := by
    intro s
    have hheld : heldFor s w₄.hub = heldFor s w.hub := by
      rw [hhub]
      rfl
    rw [← hheld]
    rfl
  have hred := fun s => asset_redeem (n := heldFor s w.hub) (t := s) (w := putPool w t { p with liquidReserves := l })
    hy hs hlp₀
  have hx' : (x / oneEther).toNat = n.toNat * r.toNat / unit := by
    rw [BitVec.toNat_udiv, hx]
    rfl
  refine ⟨x / oneEther, r.toNat, steady_logged (hst₃.trans hst₄), hx', ?_, ⟨_, hrated, ?_, ?_, ?_, ?_⟩, ?_⟩
  · rw [logged, hlog]
    rfl
  · have hsup : (view D t (putPool w t p)).supply = (w.tokens p.lpToken).supply.toNat := by
      simp only [view, asset, pooledTokens_putPool, supplyOf, if_neg hlp₀]
      rfl
    rw [hsup]
    exact (hred t).1
  · simp only [view, asset, pooledTokens_putPool]
    omega
  · have hbal := hle (heldFor t w.hub)
    rw [(hred t).2] at hbal
    exact hbal
  · rw [hview, hass, (hred t).2]
    refine Asset.ext ?_ ?_ ?_ ?_ ?_ ?_ rfl rfl
    all_goals simp only [view, asset, pooledTokens_putPool, supplyOf, if_true]
    all_goals first | rfl | omega
  · intro s hst
    have hne : (w.hub.pooledTokens s).lpToken ≠ p.lpToken := by
      intro hc
      rw [hlp] at hc hlp₀
      exact hst (hw.distinct t s hlp₀ hc.symm).symm
    rw [hview, hass, (hred s).2, hst₂.lpToken s, asset_putPool_of_ne hst, if_neg hst, if_neg hne]
    rfl

theorem removeLiquidity_effect {n : Uint256} {sendEth : Bool} (hw : WellFormed D w) (hs : msg.sender ≠ D.self)
    (h : Ok (removeLiquidity D A msg t n sendEth) w u w') (hr : C t .rated)
    (ha : ∀ m, C t (.removed m)) : Effect D w w' C := by
  obtain ⟨x, r, hrem⟩ := removeLiquidity_ok hw hs h
  have hbook : ∀ s, booked s w'.log = booked s w.log + if t = s then -(x.toNat : Int) else 0 := by
    intro s
    rw [hrem.log, booked_snoc]
    simp only [booking, added, removed, captured, cut, Int.sub_zero, Int.add_zero]
    split
    · omega
    · rfl
  refine ⟨hrem.steady, fun s => ?_⟩
  by_cases hst : s = t
  · subst hst
    obtain ⟨b, hb, hn, hl, hbal, hview⟩ := hrem.books
    refine ⟨[.rated, .removed x.toNat], ?_, by simp [hr, ha], by simp [hbook, Label.net]⟩
    rw [hrem.returned] at hl hbal
    rw [hview, hrem.returned]
    exact Act.remove hb n.toNat hn hl hbal
  · exact .idle (hrem.others s hst) (by rw [hbook, if_neg (Ne.symm hst), Int.add_zero])

end Liquidity

section Leaves

structure Sent (D : Deployment) (leaf : PoolRebalanceLeaf) (w w' : World) : Prop where
  steady : Steady D w w'
  proposal : w'.hub.rootBundleProposal = w.hub.rootBundleProposal
  bondToken : w'.hub.bondToken = w.hub.bondToken
  bondAmount : w'.hub.bondAmount = w.hub.bondAmount
  pct : w'.hub.protocolFeeCapturePct = w.hub.protocolFeeCapturePct
  log : ∃ es, w'.log = w.log ++ es ∧ ∀ e ∈ es, ∃ a n, e = .lpFeesCaptured a n
  legs : ∀ k s, ∃ ls, Legs (asset D k s w) ls (asset D k s w') ∧
    (∀ l ∈ ls, ∃ fees, (s, fees) ∈ leaf.l1Tokens.zip leaf.bundleLpFees ∧
      0 < lpShare w.hub.protocolFeeCapturePct fees ∧ l = .captured (lpShare w.hub.protocolFeeCapturePct fees)) ∧
    booked s w'.log = booked s w.log + net ls

variable {leaf : PoolRebalanceLeaf} {w'' : World}

theorem Sent.refl : Sent D leaf w w :=
  ⟨.refl D w, rfl, rfl, rfl, rfl, ⟨[], by simp, by simp⟩, fun k s => ⟨[], .nil _, by simp, by simp⟩⟩

theorem Sent.trans (h : Sent D leaf w w') (k : Sent D leaf w' w'') : Sent D leaf w w'' where
  steady := h.steady.trans k.steady
  proposal := k.proposal.trans h.proposal
  bondToken := k.bondToken.trans h.bondToken
  bondAmount := k.bondAmount.trans h.bondAmount
  pct := k.pct.trans h.pct
  log := by
    obtain ⟨es, he, hes⟩ := h.log
    obtain ⟨fs, hf, hfs⟩ := k.log
    refine ⟨es ++ fs, by rw [hf, he, List.append_assoc], fun e hmem => ?_⟩
    rcases List.mem_append.mp hmem with hmem | hmem
    · exact hes e hmem
    · exact hfs e hmem
  legs n s := by
    obtain ⟨ls, hl, hc, hb⟩ := h.legs n s
    obtain ⟨ms, hm, hd, hb'⟩ := k.legs n s
    rw [h.pct] at hd
    refine ⟨ls ++ ms, hl.trans hm, fun l hmem => ?_, by rw [hb', hb, net_append, Int.add_assoc]⟩
    rcases List.mem_append.mp hmem with hmem | hmem
    · exact hc l hmem
    · exact hd l hmem

theorem relayTokens_ok {n : Uint256} (h : Ok (relayTokens D A t n) w u w') :
    ∃ bridge x, A.relayTokens t n = some bridge ∧ bridge ≠ D.self ∧ w.code t = true ∧
      (w.tokens t).transfer D.self bridge n = some x ∧ putToken w t x = w' := by
  simp only [relayTokens] at h
  split at h
  · exact ((revert_ok _ _ _ _).mp h).elim
  · rename_i bridge ha
    simp only [bind_ok, require_ok, safeTransfer_ok] at h
    obtain ⟨_, _, ⟨hb, rfl⟩, hc, x, hx, rfl⟩ := h
    exact ⟨bridge, x, ha, hb, hc, hx, rfl⟩

theorem send_sent {n : Int256} {x : Token Address} {bridge : Address} {v l : BitVec 256} (hn : 0 < n.toInt)
    (hb : bridge ≠ D.self) (hc : w.code t = true) (hx : (w.tokens t).transfer D.self bridge n = some x)
    (hv : v.toInt = (w.hub.pooledTokens t).utilizedReserves.toInt + n.toInt)
    (hl : l.toNat + n.toNat = (w.hub.pooledTokens t).liquidReserves.toNat) :
    Sent D leaf w (putPool (putToken w t x) t
      { w.hub.pooledTokens t with utilizedReserves := v, liquidReserves := l }) := by
  have hn' : n.toInt = n.toNat := toInt_of_pos hn
  refine ⟨steady_putPool (steady_putToken (.refl D w) hc) rfl, rfl, rfl, rfl, rfl, ⟨[], by simp [putPool, putToken],
    by simp⟩, fun k s => ⟨[], ?_, by simp, by simp [putPool, putToken]⟩⟩
  obtain ⟨hle, hpay⟩ := asset_pay (n := k) (t := s) hx hb
  by_cases hs : s = t
  · subst hs
    refine .send n.toNat (by simp only [asset]; omega) hle ?_
    have hres : asset D k s (putPool (putToken w s x) s
        { w.hub.pooledTokens s with utilizedReserves := v, liquidReserves := l }) =
        { asset D k s w with
          liquid := (asset D k s w).liquid - n.toNat
          utilized := (asset D k s w).utilized + n.toNat
          balance := (asset D k s w).balance - n.toNat } := by
      have hbal : (asset D k s (putToken w s x)).balance = (asset D k s w).balance - n.toNat := by
        rw [hpay, if_pos rfl]
      have hsup : (asset D k s (putToken w s x)).supply = (asset D k s w).supply := by rw [hpay]
      refine Asset.ext ?_ ?_ ?_ ?_ ?_ hbal rfl rfl
      · simp only [asset, pooledTokens_putPool]
        omega
      · simp only [asset, pooledTokens_putPool]
        omega
      · simp only [asset, pooledTokens_putPool]
      · simp only [asset, pooledTokens_putPool]
      · simp only [asset, pooledTokens_putPool] at hsup ⊢
        exact hsup
    rw [hres]
    exact .nil _
  · rw [asset_putPool_of_ne hs, hpay, if_neg hs]
    exact .nil _

theorem capture_sent {fees n v f : Uint256} (hz : (t, fees) ∈ leaf.l1Tokens.zip leaf.bundleLpFees)
    (hn : n.toNat = lpShare w.hub.protocolFeeCapturePct fees) (hpos : 0 < n.toNat)
    (hf : f.toNat = (w.hub.pooledTokens t).undistributedLpFees.toNat + n.toNat)
    (hv : v.toInt = (w.hub.pooledTokens t).utilizedReserves.toInt + n.toInt) :
    Sent D leaf w (logged (putPool w t
      { w.hub.pooledTokens t with undistributedLpFees := f, utilizedReserves := v }) (.lpFeesCaptured t n)) := by
  refine ⟨steady_logged (steady_putPool (.refl D w) rfl), rfl, rfl, rfl, rfl, ⟨[_], rfl, by simp⟩, fun k s => ?_⟩
  by_cases hs : s = t
  · subst hs
    refine ⟨[.captured n.toNat], .capture n.toNat ?_, ?_, ?_⟩
    · have hres : asset D k s (logged (putPool w s
          { w.hub.pooledTokens s with undistributedLpFees := f, utilizedReserves := v }) (.lpFeesCaptured s n)) =
          { asset D k s w with
            undistributed := (asset D k s w).undistributed + n.toNat
            utilized := (asset D k s w).utilized + signed n.toNat } := by
        rw [toInt_eq_signed n] at hv
        rw [asset_logged]
        refine Asset.ext ?_ ?_ ?_ ?_ ?_ rfl rfl rfl
        all_goals simp only [asset, pooledTokens_putPool, supplyOf, hf, hv]
        rfl
      rw [hres]
      exact .nil _
    · intro l hl
      obtain rfl := List.mem_singleton.mp hl
      exact ⟨fees, hz, hn ▸ hpos, by rw [hn]⟩
    · rw [booked_logged]
      simp only [booking, added, removed, captured, cut, if_true, net_cons, net_nil, Label.net, putPool]
      omega
  · refine ⟨[], ?_, by simp, ?_⟩
    · rw [asset_logged, asset_putPool_of_ne hs]
      exact .nil _
    · rw [booked_logged]
      simp only [booking, added, removed, captured, cut, if_neg (Ne.symm hs), net_nil, putPool]
      rfl

theorem unclaimed_sent {f : Address → Uint256} :
    Sent D leaf w { w with hub := { w.hub with unclaimedAccumulatedProtocolFees := f } } :=
  ⟨⟨rfl, rfl, rfl, fun _ _ => rfl, fun _ => rfl, id⟩, rfl, rfl, rfl, rfl, ⟨[], by simp, by simp⟩,
    fun _ _ => ⟨[], .nil _, by simp, by simp⟩⟩

theorem allocateLpAndProtocolFees_ok {fees : Uint256} (h : Ok (allocateLpAndProtocolFees t fees) w u w') :
    ∃ n w₁, n.toNat = lpShare w.hub.protocolFeeCapturePct fees ∧
      ((0 < n.toNat ∧ ∃ f v, f.toNat = (w.hub.pooledTokens t).undistributedLpFees.toNat + n.toNat ∧
          v.toInt = (w.hub.pooledTokens t).utilizedReserves.toInt + n.toInt ∧
          w₁ = logged (putPool w t { w.hub.pooledTokens t with undistributedLpFees := f, utilizedReserves := v })
            (.lpFeesCaptured t n)) ∨ n.toNat = 0 ∧ w₁ = w) ∧
      (w' = w₁ ∨ ∃ g, w' = { w₁ with hub := { w₁.hub with unclaimedAccumulatedProtocolFees := g } }) := by
  simp only [allocateLpAndProtocolFees, bind_ok, read_ok, checkedMul_ok, checkedSub_ok, when_ok, checkedAdd_ok,
    signedAdd_ok (show 0 < 256 by decide), setPool_ok, emit_ok, setHub, update_ok] at h
  obtain ⟨_, _, ⟨rfl, rfl⟩, x, _, ⟨hx, rfl⟩, n, _, ⟨hn, rfl⟩, _, w₁, h₁, h₂⟩ := h
  have hshare : n.toNat = lpShare w.hub.protocolFeeCapturePct fees := by
    have hdiv : (x / oneEther).toNat = fees.toNat * w.hub.protocolFeeCapturePct.toNat / 10 ^ 18 := by
      rw [BitVec.toNat_udiv, hx]
      rfl
    rw [lpShare]
    omega
  refine ⟨n, w₁, hshare, ?_, ?_⟩
  · rcases h₁ with ⟨hpos, f, _, ⟨hf, rfl⟩, v, _, ⟨hv, rfl⟩, _, _, rfl, rfl⟩ | ⟨hz, rfl⟩
    · exact .inl ⟨hpos, f, v, hf, hv, rfl⟩
    · exact .inr ⟨Nat.eq_zero_of_not_pos hz, rfl⟩
  · rcases h₂ with ⟨-, _, _, ⟨-, rfl⟩, rfl⟩ | ⟨-, rfl⟩
    · exact .inr ⟨_, rfl⟩
    · exact .inl rfl

theorem allocateLpAndProtocolFees_sent {fees : Uint256} (hz : (t, fees) ∈ leaf.l1Tokens.zip leaf.bundleLpFees)
    (h : Ok (allocateLpAndProtocolFees t fees) w u w') : Sent D leaf w w' := by
  obtain ⟨n, w₁, hshare, h₁, h₂⟩ := allocateLpAndProtocolFees_ok h
  have hsent : Sent D leaf w w₁ := by
    rcases h₁ with ⟨hpos, f, v, hf, hv, rfl⟩ | ⟨-, rfl⟩
    · exact capture_sent hz hshare hpos hf hv
    · exact .refl
  rcases h₂ with rfl | ⟨g, rfl⟩
  · exact hsent
  · exact hsent.trans unclaimed_sent

def sending (D : Deployment) (A : Answers) (l1Token : Address) (netSendAmount : Int256) : HubCode Unit :=
  when (0 < netSendAmount.toInt) do
    relayTokens D A l1Token netSendAmount
    let s ← read
    let p := s.hub.pooledTokens l1Token
    let utilizedReserves ← signedAdd .panic p.utilizedReserves netSendAmount
    let liquidReserves ← checkedSub .panic p.liquidReserves netSendAmount
    setPool l1Token fun p => { p with
      utilizedReserves := utilizedReserves, liquidReserves := liquidReserves }

theorem sendToken_iff {i : Nat} : Ok (sendToken D A leaf i) w u w' ↔
    ∃ t n fees w₁, leaf.l1Tokens[i]? = some t ∧ leaf.netSendAmounts[i]? = some n ∧ leaf.bundleLpFees[i]? = some fees ∧
      w.hub.poolRebalanceRoutes (poolRebalanceRouteKey t leaf.chainId) ≠ 0 ∧ Ok (sending D A t n) w () w₁ ∧
      Ok (allocateLpAndProtocolFees t fees) w₁ u w' := by
  have heq : sendToken D A leaf i = (do
      let t ← nth .panic leaf.l1Tokens i
      let s ← read
      require (s.hub.poolRebalanceRoutes (poolRebalanceRouteKey t leaf.chainId) ≠ 0) (.require "Route not whitelisted")
      let n ← nth .panic leaf.netSendAmounts i
      sending D A t n
      let fees ← nth .panic leaf.bundleLpFees i
      allocateLpAndProtocolFees t fees) := rfl
  rw [heq]
  simp only [bind_ok, nth_ok, read_ok, require_ok]
  constructor
  · rintro ⟨t, _, ⟨ht, rfl⟩, _, _, ⟨rfl, rfl⟩, _, _, ⟨hr, rfl⟩, n, _, ⟨hn, rfl⟩, _, w₁, h₁, fees, _, ⟨hf, rfl⟩, h₂⟩
    exact ⟨t, n, fees, w₁, ht, hn, hf, hr, h₁, h₂⟩
  · rintro ⟨t, n, fees, w₁, ht, hn, hf, hr, h₁, h₂⟩
    exact ⟨t, w, ⟨ht, rfl⟩, w, w, ⟨rfl, rfl⟩, (), w, ⟨hr, rfl⟩, n, w, ⟨hn, rfl⟩, (), w₁, h₁, fees, w₁, ⟨hf, rfl⟩, h₂⟩

theorem sendToken_sent {i : Nat} (h : Ok (sendToken D A leaf i) w u w') : Sent D leaf w w' := by
  obtain ⟨t, n, fees, w₁, ht, -, hf, -, h₁, h₂⟩ := sendToken_iff.mp h
  have hz : (t, fees) ∈ leaf.l1Tokens.zip leaf.bundleLpFees :=
    List.mem_of_getElem? (List.getElem?_zip_eq_some.mpr ⟨ht, hf⟩)
  have hsent : Sent D leaf w w₁ := by
    simp only [sending, bind_ok, read_ok, when_ok, checkedSub_ok, signedAdd_ok (show 0 < 256 by decide),
      setPool_ok] at h₁
    rcases h₁ with ⟨hn, _, w₂, hr, _, _, ⟨rfl, rfl⟩, v, _, ⟨hv, rfl⟩, l, _, ⟨hl, rfl⟩, rfl⟩ | ⟨-, rfl⟩
    · obtain ⟨bridge, x, -, hb, hc, hx, rfl⟩ := relayTokens_ok hr
      exact send_sent hn hb hc hx hv hl
    · exact .refl
  exact hsent.trans (allocateLpAndProtocolFees_sent hz h₂)

theorem sendTokens_one {n : Int256} {fees : Uint256} (ht : leaf.l1Tokens = [t]) (hn : leaf.netSendAmounts = [n])
    (hf : leaf.bundleLpFees = [fees]) (hr : w.hub.poolRebalanceRoutes (poolRebalanceRouteKey t leaf.chainId) ≠ 0)
    (h₁ : Ok (sending D A t n) w () w') (h₂ : Ok (allocateLpAndProtocolFees t fees) w' () w'') :
    Ok (sendTokensToChainAndUpdatePooledTokenTrackers D A leaf) w () w'' := by
  rw [sendTokensToChainAndUpdatePooledTokenTrackers, ht]
  refine (forEach_cons_ok _ 0 [] _ _ _).mpr ⟨w'', sendToken_iff.mpr ?_, (forEach_nil_ok _ _ _ _).mpr rfl⟩
  rw [ht, hn, hf]
  exact ⟨t, n, fees, w', rfl, rfl, rfl, hr, h₁, h₂⟩

theorem sending_zero (D : Deployment) (A : Answers) (t : Address) (w : World) : Ok (sending D A t 0) w () w :=
  (when_ok _ _ _ _ _).mpr (.inr ⟨by decide, rfl⟩)

theorem sendTokens_sent (h : Ok (sendTokensToChainAndUpdatePooledTokenTrackers D A leaf) w u w') :
    Sent D leaf w w' := by
  rw [sendTokensToChainAndUpdatePooledTokenTrackers] at h
  generalize List.range leaf.l1Tokens.length = is at h
  induction is generalizing w with
  | nil =>
      obtain rfl := (forEach_nil_ok _ _ _ _).mp h
      exact .refl
  | cons i is ih =>
      obtain ⟨w₁, h₁, h₂⟩ := (forEach_cons_ok _ _ _ _ _ _).mp h
      exact (sendToken_sent h₁).trans (ih h₂)

end Leaves

section Bonds

theorem heldFor_inactive {h : Hub} (ha : activeRequest h = false) (t : Address) : heldFor t h = 0 := by
  rw [heldFor, if_neg]
  rintro ⟨-, hc⟩
  rw [ha] at hc
  cases hc

theorem heldFor_ne {h : Hub} (ht : t ≠ h.bondToken) : heldFor t h = 0 := if_neg fun hc => ht hc.1

theorem heldFor_active {h : Hub} (ha : activeRequest h = true) : heldFor h.bondToken h = h.bondAmount.toNat :=
  if_pos ⟨rfl, ha⟩

/-- The bond leaves the pool and no proposal is left. Where there was none to
begin with, that is a payment out of the reserves. -/
theorem release_moves {dst : Address} {x : Token Address}
    (hx : (w.tokens w.hub.bondToken).transfer D.self dst w.hub.bondAmount = some x) (hd : dst ≠ D.self)
    (hass : ∀ k s, asset D k s w' = asset D k s (putToken w w.hub.bondToken x))
    (hact : activeRequest w'.hub = false) (hlog : ∀ s, booked s w'.log = booked s w.log)
    (hc : activeRequest w.hub = false → C w.hub.bondToken (.paid w.hub.bondAmount.toNat)) (s : Address) :
    Moves D w w' s (C s) := by
  obtain ⟨hle, hpay⟩ := asset_pay (n := heldFor s w.hub) (t := s) hx hd
  have hview : view D s w' = asset D 0 s (putToken w w.hub.bondToken x) := by
    rw [view, heldFor_inactive hact, hass]
  have hzero := (asset_pay (n := 0) (t := s) hx hd).2
  by_cases hs : s = w.hub.bondToken
  · subst hs
    rw [if_pos rfl] at hzero
    by_cases ha : activeRequest w.hub = true
    · refine .silent ?_ (hlog _)
      have hheld : (view D w.hub.bondToken w).held = w.hub.bondAmount.toNat := heldFor_active ha
      refine (Act.bondOut (view D w.hub.bondToken w) (by rw [hheld]; exact hle)).congr ?_
      rw [hview, hzero, hheld]
      rfl
    · have ha : activeRequest w.hub = false := by simpa using ha
      refine .one (l := .paid w.hub.bondAmount.toNat) ?_ (hc ha) ?_
      · refine (Act.pay (view D w.hub.bondToken w) w.hub.bondAmount.toNat hle).congr ?_
        rw [hview, hzero, view, heldFor_inactive ha]
      · rw [hlog]
        exact (Int.add_zero _).symm
  · refine .idle ?_ (hlog s)
    rw [hview, hzero, if_neg hs, view, heldFor_ne hs]
    rfl

theorem cancelBundle_effect (hw : WellFormed D w) (h : Ok (cancelBundle D msg) w u w')
    (hc : activeRequest w.hub = false → C w.hub.bondToken (.paid w.hub.bondAmount.toNat)) :
    Effect D w w' C := by
  simp only [cancelBundle, bind_ok, read_ok, releaseBond_ok, setProposal_ok, emit_ok] at h
  obtain ⟨_, _, ⟨rfl, rfl⟩, _, _, ⟨hcode, x, hx, rfl⟩, _, _, rfl, rfl⟩ := h
  refine ⟨?_, release_moves hx hw.proposer (fun _ _ => rfl) rfl (fun s => ?_) hc⟩
  · exact steady_logged (steady_putProposal (steady_logged (steady_putToken (.refl D w) hcode))
      fun _ => D.self_ne_zero.symm)
  · exact booked_silent (booked_silent rfl rfl) rfl

theorem emergencyDeleteProposal_effect (hw : WellFormed D w) (h : Ok (emergencyDeleteProposal D) w u w') :
    Effect D w w' C := by
  simp only [emergencyDeleteProposal, bind_ok, read_ok, when_ok, releaseBond_ok, setProposal_ok, emit_ok] at h
  obtain ⟨_, _, ⟨rfl, rfl⟩, _, _, rfl, _, w₁, h₁, rfl⟩ := h
  rcases h₁ with ⟨hpos, hcode, x, hx, rfl⟩ | ⟨hz, rfl⟩
  · have hact : activeRequest w.hub = true := by
      rw [activeRequest, decide_eq_true_eq]
      intro h0
      rw [h0] at hpos
      exact Nat.lt_irrefl 0 hpos
    refine ⟨?_, release_moves hx hw.proposer (fun _ _ => rfl) rfl (fun s => ?_) fun ha => ?_⟩
    · exact steady_logged (steady_logged (steady_putToken (steady_putProposal (.refl D w)
        fun _ => D.self_ne_zero.symm) hcode))
    · exact booked_silent (booked_silent rfl rfl) rfl
    · rw [hact] at ha
      cases ha
  · have hact : activeRequest w.hub = false := by
      rw [activeRequest, decide_eq_false_iff_not]
      intro h0
      exact h0 (BitVec.eq_of_toNat_eq (Nat.eq_zero_of_not_pos hz))
    refine ⟨steady_logged (steady_putProposal (.refl D w) fun _ => D.self_ne_zero.symm), fun s => .idle ?_ ?_⟩
    · rw [view, view, heldFor_inactive hact, heldFor_inactive rfl]
      rfl
    · exact booked_silent rfl rfl

/-- Where the oracle cannot take the bond, a dispute cancels the bundle. -/
def Cancels (A : Answers) (h : Hub) : Prop := h.bondAmount.toNat ≤ A.finalFee.toNat ∨ A.requestSucceeds = false

theorem disputeRootBundle_iff : Ok (disputeRootBundle D A msg) w u w' ↔
    w.time % 2 ^ 32 ≤ w.hub.rootBundleProposal.challengePeriodEndTimestamp.toNat ∧
    (Cancels A w.hub ∧ Ok (cancelBundle D msg) w u w' ∨ ¬ Cancels A w.hub ∧ A.optimisticOracle ≠ D.self ∧
      A.disputeSucceeds = true ∧ ∃ w₁ w₂ w₃, ∃ e : Uint32,
        e.toNat = (BitVec.ofNat 32 w.time).toNat + w.hub.liveness.toNat ∧
        Ok (releaseBond D A.optimisticOracle) w () w₁ ∧
        Ok (safeTransferFrom D A w.hub.bondToken msg.sender w.hub.bondAmount) (putProposal w₁ .zero) () w₂ ∧
        Ok (safeTransfer D w.hub.bondToken A.optimisticOracle w.hub.bondAmount) w₂ () w₃ ∧
        logged w₃ (.rootBundleDisputed msg.sender (BitVec.ofNat 256 (w.time % 2 ^ 32))) = w') := by
  simp only [disputeRootBundle, bind_ok, read_ok, require_ok]
  constructor
  · rintro ⟨_, _, ⟨rfl, rfl⟩, _, _, ⟨ht, rfl⟩, h⟩
    refine ⟨ht, ?_⟩
    split at h
    · rename_i hfee
      exact .inl ⟨.inl hfee, h⟩
    · rename_i hfee
      split at h
      · rename_i hreq
        exact .inl ⟨.inr hreq, h⟩
      · rename_i hreq
        simp only [bind_ok, require_ok, checkedAdd_ok, setProposal_ok, emit_ok] at h
        obtain ⟨_, _, ⟨ho, rfl⟩, _, w₁, h₁, e, _, ⟨he, rfl⟩, _, _, rfl, _, w₂, h₂, _, _, ⟨hd, rfl⟩, _, w₃, h₃, hw⟩ := h
        exact .inr ⟨not_or.mpr ⟨hfee, hreq⟩, ho, hd, w₁, w₂, w₃, e, he, h₁, h₂, h₃, hw⟩
  · rintro ⟨ht, h⟩
    refine ⟨w, w, ⟨rfl, rfl⟩, (), w, ⟨ht, rfl⟩, ?_⟩
    rcases h with ⟨hc, h⟩ | ⟨hc, ho, hd, w₁, w₂, w₃, e, he, h₁, h₂, h₃, hw⟩
    · rcases hc with hfee | hreq
      · rw [if_pos hfee]
        exact h
      · rw [if_pos hreq, ite_self]
        exact h
    · obtain ⟨hfee, hreq⟩ := not_or.mp hc
      rw [if_neg hfee, if_neg hreq]
      simp only [bind_ok, require_ok, checkedAdd_ok, setProposal_ok, emit_ok]
      exact ⟨(), w, ⟨ho, rfl⟩, (), w₁, h₁, e, w₁, ⟨he, rfl⟩, (), _, rfl, (), w₂, h₂, (), w₂, ⟨hd, rfl⟩, (), w₃, h₃, hw⟩

theorem disputeRootBundle_effect (hw : WellFormed D w) (hs : msg.sender ≠ D.self)
    (h : Ok (disputeRootBundle D A msg) w u w')
    (hc : activeRequest w.hub = false →
      w.time % 2 ^ 32 ≤ w.hub.rootBundleProposal.challengePeriodEndTimestamp.toNat →
      C w.hub.bondToken (.paid w.hub.bondAmount.toNat)) : Effect D w w' C := by
  obtain ⟨htime, ⟨-, h⟩ | ⟨-, ho, -, w₁, w₂, w₃, e, -, h₁, h₂, h₃, rfl⟩⟩ := disputeRootBundle_iff.mp h
  · exact cancelBundle_effect hw h fun ha => hc ha htime
  obtain ⟨hcode, x, hx, rfl⟩ := releaseBond_ok.mp h₁
  obtain ⟨-, hcode', y, hy, rfl⟩ := safeTransferFrom_ok.mp h₂
  obtain ⟨hcode'', z, hz, rfl⟩ := safeTransfer_ok.mp h₃
  refine ⟨?_, release_moves hx ho (fun k s => ?_) rfl (fun s => ?_) fun ha => hc ha htime⟩
  · refine steady_logged (steady_putToken (steady_putToken (steady_putProposal (steady_logged
      (steady_putToken (.refl D w) hcode)) fun _ => D.self_ne_zero.symm) hcode') hcode'')
  · obtain ⟨hle, hout⟩ := asset_pay (n := k) (t := s) hz ho
    rw [asset_logged, hout, asset_receive hy hs, asset_putProposal, asset_logged]
    refine Asset.ext rfl rfl rfl rfl rfl ?_ rfl rfl
    exact Nat.add_sub_cancel _ _
  · exact booked_silent (booked_silent rfl rfl) rfl

theorem proposeRootBundle_effect {ns : List Uint256} {c : Uint8} {r₁ r₂ r₃ : Bytes32} (hs : msg.sender ≠ D.self)
    (h : Ok (proposeRootBundle D A msg ns c r₁ r₂ r₃) w u w') : Effect D w w' C := by
  rw [proposeRootBundle, noActiveRequests_bind_ok, unpaused_bind_ok, require_bind_ok, read_bind_ok] at h
  obtain ⟨hact, -, hpos, h⟩ := h
  simp only [bind_ok, checkedAdd_ok, setProposal_ok, safeTransferFrom_ok, emit_ok] at h
  obtain ⟨e, _, ⟨-, rfl⟩, _, _, rfl, _, _, ⟨-, hcode, x, hx, rfl⟩, _, _, rfl, rfl⟩ := h
  refine ⟨?_, fun s => ?_⟩
  · exact steady_logged (steady_logged (steady_putToken (steady_putProposal (.refl D w) fun _ => hs) hcode))
  have hlog := booked_silent (t := s) (e := .proposeRootBundle e c ns r₁ r₂ r₃ msg.sender)
    (booked_silent (w := w) (e := .bondTaken w.hub.bondToken w.hub.bondAmount msg.sender c) rfl rfl) rfl
  generalize hP : RootBundle.mk r₁ r₂ r₃ 0 msg.sender c e = P at hx
  have hass := fun k => asset_receive (n := k) (t := s) (w := putProposal w P) hx hs
  have hview : ∀ e f, view D s (logged (logged (putToken (putProposal w P) w.hub.bondToken x) e) f) =
      asset D (heldFor s (putProposal w P).hub) s (putToken (putProposal w P) w.hub.bondToken x) := fun _ _ => rfl
  by_cases hb : s = w.hub.bondToken
  · refine .silent ?_ hlog
    have hzero : (view D s w).held = 0 := heldFor_inactive hact s
    have hheld : heldFor s (putProposal w P).hub = w.hub.bondAmount.toNat := by
      rw [hb]
      refine heldFor_active (h := (putProposal w P).hub) (decide_eq_true ?_)
      intro h0
      have hc0 : P.unclaimedPoolRebalanceLeafCount = 0 := h0
      rw [← hP] at hc0
      rw [show c = 0 from hc0] at hpos
      exact Nat.lt_irrefl 0 hpos
    refine (Act.bondIn (view D s w) w.hub.bondAmount.toNat hzero).congr ?_
    rw [hview, hass, hheld, if_pos hb]
    rfl
  · refine .idle ?_ hlog
    have hheld : heldFor s (putProposal w P).hub = 0 := heldFor_ne (h := (putProposal w P).hub) hb
    rw [hview, hass, hheld, if_neg hb, view, heldFor_ne hb]
    rfl

/-- What `executeRootBundle` checks before it changes anything, and what the
adapter answers to its message. -/
structure Executable (A : Answers) (leaf : PoolRebalanceLeaf) (proof : List Bytes32) (w : World) : Prop where
  unpaused : w.hub.paused = false
  late : w.hub.rootBundleProposal.challengePeriodEndTimestamp.toNat < w.time
  unclaimed : isClaimed1D w.hub.rootBundleProposal.claimedBitMap leaf.leafId = false
  proof : verifyPoolRebalance w.hub.rootBundleProposal.poolRebalanceRoot leaf proof = true
  spokePool : (w.hub.crossChainContracts leaf.chainId).spokePool ≠ 0
  adapter : w.code (w.hub.crossChainContracts leaf.chainId).adapter = true
  message : leaf.groupIndex = 0 → A.relayMessage = true

def claim (p : RootBundle) (leafId n : Uint8) : RootBundle :=
  { p with claimedBitMap := setClaimed1D p.claimedBitMap leafId, unclaimedPoolRebalanceLeafCount := n }

theorem getInitializedCrossChainContracts_bind_ok {α : Type} {chainId : Uint256} {f : CrossChainContract → HubCode α}
    {a : α} : Ok (getInitializedCrossChainContracts chainId >>= f) w a w' ↔
      (w.hub.crossChainContracts chainId).spokePool ≠ 0 ∧
      w.code (w.hub.crossChainContracts chainId).adapter = true ∧
      Ok (f (w.hub.crossChainContracts chainId)) w a w' := by
  rw [← and_assoc]
  exact check_bind_ok fun x v => by
    rw [getInitializedCrossChainContracts, read_bind_ok, require_bind_ok, require_bind_ok, pure_ok, and_assoc]

theorem executeRootBundle_iff {leaf : PoolRebalanceLeaf} {proof : List Bytes32} :
    Ok (executeRootBundle D A msg leaf proof) w u w' ↔ Executable A leaf proof w ∧ ∃ n w₁ w₂,
      n.toNat + 1 = w.hub.rootBundleProposal.unclaimedPoolRebalanceLeafCount.toNat ∧
      Ok (sendTokensToChainAndUpdatePooledTokenTrackers D A leaf)
        (putProposal w (claim w.hub.rootBundleProposal leaf.leafId n)) () w₁ ∧
      (n ≠ 0 ∧ w₁ = w₂ ∨ n = 0 ∧ Ok (releaseBond D w.hub.rootBundleProposal.proposer) w₁ () w₂) ∧
      logged w₂ (.rootBundleExecuted leaf msg.sender) = w' := by
  rw [executeRootBundle, unpaused_bind_ok, read_bind_ok, require_bind_ok, require_bind_ok, require_bind_ok,
    getInitializedCrossChainContracts_bind_ok]
  simp only [relayMessage, bind_ok, checkedSub_ok, setProposal_ok, when_ok, require_ok, emit_ok]
  constructor
  · rintro ⟨hp, ht, hc, hv, hs, ha, n, _, ⟨hn, rfl⟩, _, _, rfl, _, w₁, hsend, _, w₂, hmsg, _, w₃, hrel, hw⟩
    have hw₂ : w₁ = w₂ ∧ (leaf.groupIndex = 0 → A.relayMessage = true) := by
      rcases hmsg with ⟨-, hm, h⟩ | ⟨hg, h⟩
      · exact ⟨h, fun _ => hm⟩
      · exact ⟨h, fun h0 => absurd h0 hg⟩
    obtain ⟨rfl, hm⟩ := hw₂
    refine ⟨⟨hp, ht, hc, hv, hs, ha, hm⟩, n, w₁, w₃, hn, hsend, ?_, hw⟩
    rcases hrel with ⟨h0, hrel⟩ | ⟨h0, hrel⟩
    · exact .inr ⟨h0, hrel⟩
    · exact .inl ⟨h0, hrel⟩
  · rintro ⟨h, n, w₁, w₂, hn, hsend, hrel, hw⟩
    refine ⟨h.unpaused, h.late, h.unclaimed, h.proof, h.spokePool, h.adapter, n, w, ⟨hn, rfl⟩, (), _, rfl, (), w₁,
      hsend, (), w₁, ?_, (), w₂, ?_, hw⟩
    · by_cases hg : leaf.groupIndex = 0
      · exact .inl ⟨hg, h.message hg, rfl⟩
      · exact .inr ⟨hg, rfl⟩
    · rcases hrel with ⟨h0, hrel⟩ | ⟨h0, hrel⟩
      · exact .inr ⟨h0, hrel⟩
      · exact .inl ⟨h0, hrel⟩

theorem executeRootBundle_ok {leaf : PoolRebalanceLeaf} {proof : List Bytes32}
    (h : Ok (executeRootBundle D A msg leaf proof) w u w') :
    ∃ count w₁, w.hub.rootBundleProposal.challengePeriodEndTimestamp.toNat < w.time ∧
      isClaimed1D w.hub.rootBundleProposal.claimedBitMap leaf.leafId = false ∧
      count.toNat + 1 = w.hub.rootBundleProposal.unclaimedPoolRebalanceLeafCount.toNat ∧
      Sent D leaf (putProposal w (claim w.hub.rootBundleProposal leaf.leafId count)) w₁ ∧
      (count ≠ 0 ∧ w' = logged w₁ (.rootBundleExecuted leaf msg.sender) ∨
        count = 0 ∧ w₁.code w.hub.bondToken = true ∧ ∃ x,
          (w₁.tokens w.hub.bondToken).transfer D.self w.hub.rootBundleProposal.proposer w.hub.bondAmount = some x ∧
          w' = logged (logged (putToken w₁ w.hub.bondToken x)
            (.bondReleased w.hub.bondToken w.hub.bondAmount w.hub.rootBundleProposal.proposer))
            (.rootBundleExecuted leaf msg.sender)) := by
  obtain ⟨he, n, w₁, w₂, hn, hsend, hrel, rfl⟩ := executeRootBundle_iff.mp h
  have hsent := sendTokens_sent hsend
  refine ⟨n, w₁, he.late, he.unclaimed, hn, hsent, ?_⟩
  rcases hrel with ⟨h0, rfl⟩ | ⟨h0, hrel⟩
  · exact .inl ⟨h0, rfl⟩
  · obtain ⟨hcode, x, hx, rfl⟩ := releaseBond_ok.mp hrel
    rw [hsent.bondToken] at hcode hx ⊢
    rw [hsent.bondAmount] at hx ⊢
    exact .inr ⟨h0, hcode, x, hx, rfl⟩

theorem executeRootBundle_effect {leaf : PoolRebalanceLeaf} {proof : List Bytes32} (hw : WellFormed D w)
    (h : Ok (executeRootBundle D A msg leaf proof) w u w')
    (hc : ∀ s fees, (s, fees) ∈ leaf.l1Tokens.zip leaf.bundleLpFees →
      0 < lpShare w.hub.protocolFeeCapturePct fees →
      C s (.captured (lpShare w.hub.protocolFeeCapturePct fees))) : Effect D w w' C := by
  obtain ⟨count, w₁, -, -, hcount, hsent, h⟩ := executeRootBundle_ok h
  have hst₁ : Steady D w w₁ := by
    refine Steady.trans ?_ hsent.steady
    exact steady_putProposal (.refl D w) id
  have hact : activeRequest w.hub = true := by
    rw [activeRequest, decide_eq_true_eq]
    intro h0
    rw [h0] at hcount
    simp at hcount
  have hlegs : ∀ s, ∃ ls, Legs (view D s w) ls (asset D (heldFor s w.hub) s w₁) ∧ (∀ l ∈ ls, C s l) ∧
      booked s w₁.log = booked s w.log + net ls := by
    intro s
    obtain ⟨ls, hl, hall, hb⟩ := hsent.legs (heldFor s w.hub) s
    refine ⟨ls, hl, fun l hmem => ?_, hb⟩
    obtain ⟨fees, hz, hpos, rfl⟩ := hall l hmem
    exact hc s fees hz hpos
  rcases h with ⟨h0, rfl⟩ | ⟨h0, hcode, x, hx, rfl⟩
  · refine ⟨steady_logged hst₁, fun s => ?_⟩
    obtain ⟨ls, hl, hall, hb⟩ := hlegs s
    refine ⟨ls, (Act.leaf hl).congr ?_, hall, booked_silent hb rfl⟩
    have hact₁ : activeRequest w₁.hub = true := by
      rw [activeRequest, hsent.proposal]
      exact decide_eq_true h0
    have hheld : heldFor s w₁.hub = heldFor s w.hub := by
      rw [heldFor, heldFor, hsent.bondToken, hsent.bondAmount, hact, hact₁]
      rfl
    rw [← hheld]
    rfl
  · refine ⟨steady_logged (steady_logged (steady_putToken hst₁ hcode)), fun s => ?_⟩
    obtain ⟨ls, hl, hall, hb⟩ := hlegs s
    have hact₁ : activeRequest w₁.hub = false := by
      rw [activeRequest, hsent.proposal]
      exact decide_eq_false (fun hne => hne h0)
    have hview : ∀ e f, view D s (logged (logged (putToken w₁ w.hub.bondToken x) e) f) =
        asset D 0 s (putToken w₁ w.hub.bondToken x) := by
      intro e f
      exact congrArg (fun k => asset D k s (putToken w₁ w.hub.bondToken x)) (heldFor_inactive hact₁ s)
    obtain ⟨hle, hpay⟩ := asset_pay (n := 0) (t := s) hx hw.proposer
    by_cases hs : s = w.hub.bondToken
    · rw [if_pos hs] at hpay
      have hheld : heldFor s w.hub = w.hub.bondAmount.toNat := by
        rw [hs]
        exact heldFor_active hact
      rw [hheld] at hl
      refine ⟨ls, (Act.lastLeaf hl ?_).congr ?_, hall, booked_silent (booked_silent hb rfl) rfl⟩
      · rw [hs]
        exact hle
      · rw [hview, hpay]
        rfl
    · refine ⟨ls, (Act.leaf hl).congr ?_, hall, booked_silent (booked_silent hb rfl) rfl⟩
      rw [hview, hpay, if_neg hs, heldFor_ne hs]
      rfl

theorem claimProtocolFeesCaptured_effect (h : Ok (claimProtocolFeesCaptured D t) w u w')
    (hc : w.hub.protocolFeeCaptureAddress ≠ D.self →
      C t (.paid (w.hub.unclaimedAccumulatedProtocolFees t).toNat)) : Effect D w w' C := by
  simp only [claimProtocolFeesCaptured, bind_ok, read_ok, setHub, update_ok, safeTransfer_ok, emit_ok] at h
  obtain ⟨_, _, ⟨rfl, rfl⟩, _, _, rfl, _, _, ⟨hcode, x, hx, rfl⟩, rfl⟩ := h
  refine ⟨steady_logged (steady_putToken ⟨rfl, rfl, rfl, fun _ _ => rfl, fun _ => rfl, id⟩ hcode), fun s => ?_⟩
  have hx' : (w.tokens t).transfer D.self w.hub.protocolFeeCaptureAddress
    (w.hub.unclaimedAccumulatedProtocolFees t) = some x := hx
  by_cases hself : w.hub.protocolFeeCaptureAddress = D.self
  · exact .idle (asset_elsewhere hx' (.inr hself.symm)) (booked_silent rfl rfl)
  · obtain ⟨hle, hpay⟩ := asset_pay (n := heldFor s w.hub) (t := s) hx' hself
    by_cases hs : s = t
    · subst hs
      refine .one (l := .paid (w.hub.unclaimedAccumulatedProtocolFees s).toNat) ?_ (hc hself) ?_
      · refine (Act.pay (view D s w) _ hle).congr ?_
        rw [if_pos rfl] at hpay
        exact hpay
      · exact (booked_silent (n := booked s w.log) rfl rfl).trans (Int.add_zero _).symm
    · refine .idle ?_ (booked_silent rfl rfl)
      rw [if_neg hs] at hpay
      exact hpay

end Bonds

section Enabling

theorem disable_effect (h : Ok (disableL1TokenForLiquidityProvision t) w u w') : Effect D w w' C := by
  simp only [disableL1TokenForLiquidityProvision, bind_ok, setPool_ok, read_ok, emit_ok] at h
  obtain ⟨_, _, rfl, _, _, ⟨rfl, rfl⟩, rfl⟩ := h
  refine ⟨steady_logged (steady_putPool (.refl D w) rfl), fun s => .idle ?_ (booked_silent rfl rfl)⟩
  by_cases hs : s = t
  · subst hs
    refine Asset.ext ?_ ?_ ?_ ?_ ?_ rfl rfl rfl
    all_goals simp only [view, asset, logged, pooledTokens_putPool, supplyOf]
    rfl
  · exact asset_putPool_of_ne hs

/-- A new LP token comes to an address that had no code, so it is no other
pool's and nobody holds it. -/
theorem create_wellFormed {a : Address} {p : PooledToken} (hw : WellFormed D w) (ha : w.code a = false) (h0 : a ≠ 0)
    (hp : p.lpToken = a) : WellFormed D (putPool { w with
      code := Function.update w.code a true, lpTokens := Function.update w.lpTokens a true } t p) := by
  have hweth : D.weth ≠ a := by
    intro h
    have := hw.weth
    rw [h, ha] at this
    cases this
  have hfresh : ∀ s, (w.hub.pooledTokens s).lpToken ≠ 0 → (w.hub.pooledTokens s).lpToken ≠ a := by
    intro s hs h
    have := hw.issued _ (hw.pools s hs)
    rw [h, ha] at this
    cases this
  have hpool : ∀ s, (Function.update w.hub.pooledTokens t p s).lpToken =
      if s = t then a else (w.hub.pooledTokens s).lpToken := by
    intro s
    by_cases hs : s = t
    · rw [hs, Function.update_self, if_pos rfl, hp]
    · rw [Function.update_of_ne hs, if_neg hs]
  refine ⟨?_, ?_, ?_, fun b hb => ?_, fun b hb => ?_, fun s hs => ?_, fun s s' hs h => ?_, hw.proposer, hw.time⟩
  · simp only [putPool, Function.update_of_ne h0.symm, hw.zero]
  · simp only [putPool, Function.update_of_ne hweth, hw.weth]
  · simp only [putPool, Function.update_of_ne hweth, hw.wethPlain]
  · by_cases hba : b = a
    · simp only [putPool, hba, Function.update_self] at hb
      cases hb
    · simp only [putPool, Function.update_of_ne hba] at hb
      exact hw.bare b hb
  · simp only [putPool] at hb ⊢
    by_cases hba : b = a
    · rw [hba, Function.update_self]
    · rw [Function.update_of_ne hba] at hb ⊢
      exact hw.issued b hb
  · simp only [putPool, hpool] at hs ⊢
    by_cases hst : s = t
    · rw [if_pos hst, Function.update_self]
    · rw [if_neg hst] at hs ⊢
      rw [Function.update_of_ne (hfresh s hs), hw.pools s hs]
  · simp only [putPool, hpool] at hs h
    by_cases hst : s = t
    · by_cases hst' : s' = t
      · rw [hst, hst']
      · rw [if_pos hst, if_neg hst'] at h
        exact absurd h.symm (hfresh s' (h ▸ h0))
    · rw [if_neg hst] at h hs
      by_cases hst' : s' = t
      · rw [if_pos hst'] at h
        exact absurd h (hfresh s hs)
      · rw [if_neg hst'] at h
        exact hw.distinct s s' hs h

theorem enable_refines (hw : WellFormed D w) (h : Ok (enableL1TokenForLiquidityProvision A t) w u w')
    (hc : C t .opened) : WellFormed D w' ∧ ∀ s, Moves D w w' s (C s) := by
  simp only [enableL1TokenForLiquidityProvision, createLpToken, bind_ok, read_ok, when_ok, require_ok, update_ok,
    pure_ok, setPool_ok, emit_ok] at h
  obtain ⟨_, _, ⟨rfl, rfl⟩, _, w₁, h₁, _, _, rfl, _, _, ⟨rfl, rfl⟩, rfl⟩ := h
  rcases h₁ with ⟨hlp, a, _, ⟨_, _, ⟨rfl, rfl⟩, _, _, ⟨ht, rfl⟩, _, _, ⟨⟨hcode, h0⟩, rfl⟩, _, _, rfl, rfl, rfl⟩,
    rfl⟩ | ⟨-, rfl⟩
  · rw [← hw.bare _ hcode, Function.update_eq_self]
    simp only [pooledTokens_putPool, putPool_putPool]
    have hwf := create_wellFormed (t := t) (p := ⟨A.newLpToken, true, BitVec.ofNat 32 w.time,
      (w.hub.pooledTokens t).utilizedReserves, (w.hub.pooledTokens t).liquidReserves,
      (w.hub.pooledTokens t).undistributedLpFees⟩) hw hcode h0 rfl
    refine ⟨hwf.steady (steady_logged (.refl D _)), fun s => ?_⟩
    by_cases hs : s = t
    · subst hs
      have hsup : (view D s w).supply = 0 := if_pos hlp
      refine .one (l := .opened) ((Act.open (view D s w) hsup).congr (Asset.ext ?_ ?_ ?_ ?_ ?_ rfl rfl rfl)) hc ?_
      · simp only [view, asset, logged, pooledTokens_putPool]
      · simp only [view, asset, logged, pooledTokens_putPool]
      · simp only [view, asset, logged, pooledTokens_putPool]
      · simp only [view, asset, logged, pooledTokens_putPool, BitVec.toNat_ofNat]
      · rw [hsup]
        simp only [view, asset, logged, pooledTokens_putPool, supplyOf, if_neg h0]
        simp only [putPool, hw.bare _ hcode, Token.empty]
        rfl
      · exact (booked_silent (n := booked s w.log) rfl rfl).trans (Int.add_zero _).symm
    · refine .idle ?_ (booked_silent rfl rfl)
      exact asset_putPool_of_ne (w := { w with code := _, lpTokens := _ }) hs
  · refine ⟨hw.steady (steady_logged (steady_putPool (.refl D w) rfl)), fun s => ?_⟩
    refine .idle ?_ (booked_silent rfl rfl)
    by_cases hs : s = t
    · subst hs
      refine Asset.ext ?_ ?_ ?_ ?_ ?_ rfl rfl rfl
      all_goals simp only [view, asset, logged, pooledTokens_putPool, supplyOf]
      rfl
    · exact asset_putPool_of_ne hs

end Enabling

section Samples

/-- The only leaf of its tree: fees in token 5 and nothing to send. -/
def sampleLeaf (fees : Uint256) : PoolRebalanceLeaf := ⟨10, [fees], [0], [0], 1, 0, [5]⟩

def sampleRoot (fees : Uint256) : Bytes32 := Keccak.keccak256 (encode [.tail (encode (sampleLeaf fees).parts)])

theorem sampleLeaf_verifies (fees : Uint256) : verifyPoolRebalance (sampleRoot fees) (sampleLeaf fees) [] = true := by
  simp [verifyPoolRebalance, sampleRoot]

/-- After a deposit, a proposal of two leaves is made and its challenge period
passes. -/
def sampleProposal (fees : Uint256) : List Input :=
  [sampleCall 3 (.setCrossChainContracts 10 8 13), sampleCall 3 (.setPoolRebalanceRoute 10 5 14),
   sampleCall 3 (.setBond 6 1), sampleCall 7 (.proposeRootBundle [] 2 (sampleRoot fees) 0 0), .advance 7201]

theorem sampleLeaf_ok {fees : Uint256} (hp : w.hub.paused = false) (htime : 8200 < w.time)
    (hprop : w.hub.rootBundleProposal = ⟨sampleRoot fees, 0, 0, 0, 7, 2, 8200⟩)
    (hcontracts : w.hub.crossChainContracts 10 = ⟨8, 13⟩) (hcode : w.code 8 = true)
    (hroute : w.hub.poolRebalanceRoutes (poolRebalanceRouteKey 5 10) = 14)
    (halloc : Ok (allocateLpAndProtocolFees 5 fees) (putProposal w ⟨sampleRoot fees, 0, 0, 1, 7, 1, 8200⟩) () w') :
    Ok (executeRootBundle sampleDeployment sampleAnswers ⟨9, 0⟩ (sampleLeaf fees) []) w ()
      (logged w' (.rootBundleExecuted (sampleLeaf fees) 9)) := by
  have hroute' : (putProposal w ⟨sampleRoot fees, 0, 0, 1, 7, 1, 8200⟩).hub.poolRebalanceRoutes
      (poolRebalanceRouteKey 5 (sampleLeaf fees).chainId) ≠ 0 := by
    change w.hub.poolRebalanceRoutes (poolRebalanceRouteKey 5 10) ≠ 0
    rw [hroute]
    decide
  have hsend : Ok (sendTokensToChainAndUpdatePooledTokenTrackers sampleDeployment sampleAnswers (sampleLeaf fees))
      (putProposal w ⟨sampleRoot fees, 0, 0, 1, 7, 1, 8200⟩) () w' :=
    sendTokens_one rfl rfl rfl hroute' (sending_zero _ _ _ _) halloc
  have hcc : w.hub.crossChainContracts (sampleLeaf fees).chainId = ⟨8, 13⟩ := hcontracts
  have hcount : (1 : Uint8).toNat + 1 = w.hub.rootBundleProposal.unclaimedPoolRebalanceLeafCount.toNat := by
    rw [hprop]
    rfl
  refine executeRootBundle_iff.mpr ⟨⟨hp, ?_, ?_, ?_, ?_, ?_, ?_⟩, 1, w', w', hcount, ?_, .inl ⟨by decide, rfl⟩, rfl⟩
  · rw [hprop]
    exact htime
  · rw [hprop]
    have hfree : isClaimed1D 0 0 = false := by decide
    exact hfree
  · rw [hprop]
    exact sampleLeaf_verifies fees
  · rw [hcc]
    decide
  · rw [hcc]
    exact hcode
  · intro h
    have hone : (1 : Uint256) ≠ 0 := by decide
    exact absurd h hone
  · have hclaim : setClaimed1D 0 (sampleLeaf fees).leafId = 1 := by
      change setClaimed1D 0 0 = 1
      decide
    rw [hprop, claim]
    dsimp only
    rw [hclaim]
    exact hsend

theorem sampleLeaf_step {fees : Uint256} (hp : w.hub.paused = false) (htime : 8200 < w.time)
    (hprop : w.hub.rootBundleProposal = ⟨sampleRoot fees, 0, 0, 0, 7, 2, 8200⟩)
    (hcontracts : w.hub.crossChainContracts 10 = ⟨8, 13⟩) (hcode : w.code 8 = true)
    (hroute : w.hub.poolRebalanceRoutes (poolRebalanceRouteKey 5 10) = 14)
    (halloc : Ok (allocateLpAndProtocolFees 5 fees) (putProposal w ⟨sampleRoot fees, 0, 0, 1, 7, 1, 8200⟩) () w') :
    step sampleDeployment w (sampleCall 9 (.executeRootBundle (sampleLeaf fees) [])) =
      logged w' (.rootBundleExecuted (sampleLeaf fees) 9) :=
  step_of_ok (by decide) rfl rfl (sampleLeaf_ok hp htime hprop hcontracts hcode hroute halloc)

end Samples

end Across.HubSteps
