import Across.HubSmear
import Across.HubRoundTrips

namespace Across.HubFees

open Abi CallExec CallExec.Exec Checked HubState HubPool HubRun HubRules HubSteps HubSmear
  HubRoundTrips ShareRate PooledAsset

def undistributed (t : Address) (w : World) : Nat := (w.hub.pooledTokens t).undistributedLpFees.toNat

def lastUpdate (t : Address) (w : World) : Nat := (w.hub.pooledTokens t).lastLpFeeUpdate.toNat

section Rates

variable (lpFeeRatePerSecond : Uint256)

/-- The fees that `_getAccumulatedFees` computes, for any value of the rate. -/
def accumulatedFeesAt (undistributedLpFees : Uint256) (lastLpFeeUpdate : Uint32) : HubCode Uint256 := do
  let s ← read
  let timeFromLastInteraction ← checkedSub .panic (BitVec.ofNat 256 s.time) (lastLpFeeUpdate.setWidth 256)
  let perSecond ← checkedMul .panic undistributedLpFees lpFeeRatePerSecond
  let product ← checkedMul .panic perSecond timeFromLastInteraction
  let maxUndistributedLpFees := product / oneEther
  pure (if maxUndistributedLpFees.toNat < undistributedLpFees.toNat then maxUndistributedLpFees
    else undistributedLpFees)

/-- `_updateAccumulatedLpFees`, for any value of the rate. -/
def updateFeesAt (l1Token : Address) : HubCode Unit := do
  let s ← read
  let p := s.hub.pooledTokens l1Token
  let accumulatedFees ← accumulatedFeesAt lpFeeRatePerSecond p.undistributedLpFees p.lastLpFeeUpdate
  let undistributedLpFees ← checkedSub .panic p.undistributedLpFees accumulatedFees
  setPool l1Token fun p => { p with
    undistributedLpFees := undistributedLpFees
    lastLpFeeUpdate := BitVec.ofNat 32 s.time }

end Rates

theorem updateFeesAt_rate (t : Address) : updateFeesAt lpFeeRatePerSecond t = updateAccumulatedLpFees t := rfl

def atTime (T : Nat) (w : World) : World := { w with time := T }

/-- A call in the block of time `T`. -/
def inBlock (T : Nat) (m : HubCode Unit) : HubCode Unit := do
  update (atTime T)
  m

theorem inBlock_ok {T : Nat} {m : HubCode Unit} {w w' : World} {u : Unit} :
    Ok (inBlock T m) w u w' ↔ Ok m (atTime T w) u w' := update_bind_ok _ _ _ _ _

/-- The numbers of an update stay in their words. -/
structure Fits (ρ : Nat) (t : Address) (w : World) : Prop where
  order : lastUpdate t w ≤ w.time
  rate : undistributed t w * ρ < 2 ^ 256
  product : undistributed t w * ρ * (w.time - lastUpdate t w) < 2 ^ 256

variable {ρ : Uint256} {D : Deployment} {t : Address} {w w₁ w₂ w' : World} {T : Nat} {ts : List Nat}

section Update

theorem accumulatedFeesAt_ok {u n : Uint256} {last : Uint32} (ht : w.time < 2 ^ 256) :
    Ok (accumulatedFeesAt ρ u last) w n w' ↔ last.toNat ≤ w.time ∧ u.toNat * ρ.toNat < 2 ^ 256 ∧
      u.toNat * ρ.toNat * (w.time - last.toNat) < 2 ^ 256 ∧
      n.toNat = streamed unit ρ.toNat u.toNat (w.time - last.toNat) ∧ w = w' := by
  have hlast : (last.setWidth 256).toNat = last.toNat := by
    rw [BitVec.toNat_setWidth, Nat.mod_eq_of_lt (last.isLt.trans (by decide))]
  have hnow : (BitVec.ofNat 256 w.time).toNat = w.time := by
    rw [BitVec.toNat_ofNat, Nat.mod_eq_of_lt ht]
  -- The result, once the three numbers that it is computed from are known.
  have hres : ∀ y : Uint256, y.toNat = u.toNat * ρ.toNat * (w.time - last.toNat) →
      (if (y / oneEther).toNat < u.toNat then y / oneEther else u).toNat =
        streamed unit ρ.toNat u.toNat (w.time - last.toNat) := by
    intro y hy
    have hdiv : (y / oneEther).toNat = u.toNat * ρ.toNat * (w.time - last.toNat) / unit := by
      rw [BitVec.toNat_udiv, hy]
      rfl
    rw [streamed, ← hdiv]
    split
    · exact (Nat.min_eq_left (by omega)).symm
    · exact (Nat.min_eq_right (by omega)).symm
  rw [accumulatedFeesAt, read_bind_ok]
  simp only [bind_ok, checkedSub_ok, checkedMul_ok, pure_ok, hlast, hnow]
  constructor
  · rintro ⟨d, _, ⟨hd, rfl⟩, x, _, ⟨hx, rfl⟩, y, _, ⟨hy, rfl⟩, rfl, rfl⟩
    have hd' : d.toNat = w.time - last.toNat := by omega
    rw [hx, hd'] at hy
    exact ⟨by omega, hx ▸ x.isLt, hy ▸ y.isLt, hres y hy, rfl⟩
  · rintro ⟨hle, hrate, hproduct, hn, rfl⟩
    obtain ⟨d, hd⟩ := exists_toNat_sub (a := BitVec.ofNat 256 w.time) (b := last.setWidth 256) (by omega)
    rw [hnow, hlast] at hd
    have hd' : d.toNat = w.time - last.toNat := by omega
    have hx : (u * ρ).toNat = u.toNat * ρ.toNat := by
      rw [BitVec.toNat_mul, Nat.mod_eq_of_lt hrate]
    have hy : (u * ρ * d).toNat = u.toNat * ρ.toNat * (w.time - last.toNat) := by
      rw [BitVec.toNat_mul, hx, hd', Nat.mod_eq_of_lt hproduct]
    refine ⟨d, w, ⟨hd, rfl⟩, u * ρ, w, ⟨hx, rfl⟩, u * ρ * d, w, ⟨by rw [hy, hx, hd'], rfl⟩, ?_, rfl⟩
    exact BitVec.eq_of_toNat_eq ((hres _ hy).trans hn.symm)

theorem updateFeesAt_ok (ht : w.time < 2 ^ 256) : Ok (updateFeesAt ρ t) w () w' ↔ Fits ρ.toNat t w ∧
    putPool w t { w.hub.pooledTokens t with
      undistributedLpFees :=
        BitVec.ofNat 256 (remaining unit ρ.toNat (undistributed t w) (w.time - lastUpdate t w))
      lastLpFeeUpdate := BitVec.ofNat 32 w.time } = w' := by
  rw [updateFeesAt, read_bind_ok]
  simp only [bind_ok, accumulatedFeesAt_ok ht, checkedSub_ok, setPool_ok]
  have hword : ∀ n x : Uint256, n.toNat = streamed unit ρ.toNat (undistributed t w) (w.time - lastUpdate t w) →
      (x.toNat + n.toNat = undistributed t w ↔
        x = BitVec.ofNat 256 (remaining unit ρ.toNat (undistributed t w) (w.time - lastUpdate t w))) := by
    intro n x hn
    have hle := streamed_le (k := unit) (ρ := ρ.toNat) (u := undistributed t w) (d := w.time - lastUpdate t w)
    have hlt : undistributed t w < 2 ^ 256 := (w.hub.pooledTokens t).undistributedLpFees.isLt
    rw [← BitVec.toNat_inj, BitVec.toNat_ofNat, remaining, Nat.mod_eq_of_lt (by omega), hn]
    omega
  constructor
  · rintro ⟨n, _, ⟨hle, hrate, hproduct, hn, rfl⟩, x, _, ⟨hx, rfl⟩, rfl⟩
    rw [(hword n x hn).mp hx]
    exact ⟨⟨hle, hrate, hproduct⟩, rfl⟩
  · rintro ⟨⟨hle, hrate, hproduct⟩, rfl⟩
    have hlt := (streamed_le (k := unit) (ρ := ρ.toNat) (u := undistributed t w)
      (d := w.time - lastUpdate t w)).trans_lt (w.hub.pooledTokens t).undistributedLpFees.isLt
    have hn := BitVec.toNat_ofNat (w := 256) (streamed unit ρ.toNat (undistributed t w) (w.time - lastUpdate t w))
    rw [Nat.mod_eq_of_lt hlt] at hn
    exact ⟨_, w, ⟨hle, hrate, hproduct, hn, rfl⟩, _, w, ⟨(hword _ _ hn).mpr rfl, rfl⟩, rfl⟩

end Update

section Runs

/-- The updates of one token at the given times. -/
def updates (ρ : Uint256) (t : Address) (ts : List Nat) : HubCode Unit :=
  forEach (fun T => inBlock T (updateFeesAt ρ t)) ts

/-- The calls of `exchangeRateCurrent` for one token at the given times. -/
def rates (D : Deployment) (t : Address) (ts : List Nat) : HubCode Unit :=
  forEach (fun T => inBlock T do let _ ← exchangeRateCurrent D t; pure ()) ts

theorem update_result (hT : T < 2 ^ 256) (h : Ok (inBlock T (updateFeesAt ρ t)) w () w') :
    lastUpdate t w ≤ T ∧ lastUpdate t w' = T % 2 ^ 32 ∧
      undistributed t w' = remaining unit ρ.toNat (undistributed t w) (T - lastUpdate t w) := by
  obtain ⟨hfits, rfl⟩ := (updateFeesAt_ok hT).mp (inBlock_ok.mp h)
  have hle : remaining unit ρ.toNat (undistributed t w) (T - lastUpdate t w) ≤ undistributed t w := remaining_le
  have hlt : remaining unit ρ.toNat (undistributed t w) (T - lastUpdate t w) < 2 ^ 256 :=
    hle.trans_lt (w.hub.pooledTokens t).undistributedLpFees.isLt
  refine ⟨hfits.order, ?_, ?_⟩
  · rw [lastUpdate, pooledTokens_putPool]
    exact BitVec.toNat_ofNat _ _
  · rw [undistributed, pooledTokens_putPool]
    exact (BitVec.toNat_ofNat _ _).trans (Nat.mod_eq_of_lt hlt)

/-- An update whose products fit never underflows. -/
theorem update_returns (hT : T < 2 ^ 256) (h : Fits ρ.toNat t (atTime T w)) :
    ∃ w', Ok (inBlock T (updateFeesAt ρ t)) w () w' :=
  ⟨_, inBlock_ok.mpr ((updateFeesAt_ok hT).mpr ⟨h, rfl⟩)⟩

theorem fits_atTime (h : Ok (inBlock T (updateFeesAt ρ t)) w () w') (hT : T < 2 ^ 256) :
    Fits ρ.toNat t (atTime T w) := ((updateFeesAt_ok hT).mp (inBlock_ok.mp h)).1

/-- An update in between fits where the one over the whole interval does, and the rest
of the interval fits after it. -/
theorem Fits.split {s : Nat} (h : Fits ρ.toNat t (atTime T w)) (hs : lastUpdate t w ≤ s) (hsT : s ≤ T)
    (h32 : s < 2 ^ 32) : ∃ w', Ok (inBlock s (updateFeesAt ρ t)) w () w' ∧ lastUpdate t w' = s ∧
      undistributed t w' = remaining unit ρ.toNat (undistributed t w) (s - lastUpdate t w) ∧
      Fits ρ.toNat t (atTime T w') := by
  have hmid : Fits ρ.toNat t (atTime s w) := by
    refine ⟨hs, h.rate, ?_⟩
    exact (Nat.mul_le_mul_left _ (Nat.sub_le_sub_right hsT _)).trans_lt h.product
  obtain ⟨w', hw'⟩ := update_returns (h32.trans (by decide)) hmid
  obtain ⟨-, hlast, hleft⟩ := update_result (h32.trans (by decide)) hw'
  rw [Nat.mod_eq_of_lt h32] at hlast
  have hle : undistributed t w' ≤ undistributed t w := hleft ▸ remaining_le
  have hrate : undistributed t w' * ρ.toNat ≤ undistributed t w * ρ.toNat := Nat.mul_le_mul_right _ hle
  refine ⟨w', hw', hlast, hleft, hlast.trans_le hsT, hrate.trans_lt h.rate, ?_⟩
  refine (Nat.mul_le_mul hrate ?_).trans_lt h.product
  change T - lastUpdate t w' ≤ T - lastUpdate t w
  omega

/-- Induction on the updates before the last: each leaves the rest of the interval with
no less than one update over the whole would. -/
theorem updates_split (hT : T < 2 ^ 256) (hfits : Fits ρ.toNat t (atTime T w))
    (hts : (lastUpdate t w :: (ts ++ [T])).Pairwise (· ≤ ·)) (h32 : ∀ s ∈ ts, s < 2 ^ 32) :
    ∃ w', Ok (updates ρ t (ts ++ [T])) w () w' ∧
      remaining unit ρ.toNat (undistributed t w) (T - lastUpdate t w) ≤ undistributed t w' := by
  induction ts generalizing w with
  | nil =>
      obtain ⟨w', hw'⟩ := update_returns hT hfits
      refine ⟨w', ?_, (update_result hT hw').2.2.ge⟩
      exact (forEach_cons_ok _ _ _ _ _ _).mpr ⟨w', hw', (forEach_nil_ok _ _ _ _).mpr rfl⟩
  | cons s ts ih =>
      obtain ⟨hfirst, hrest⟩ := List.pairwise_cons.mp hts
      have hs : lastUpdate t w ≤ s := hfirst s List.mem_cons_self
      have hsT : s ≤ T := (List.pairwise_cons.mp hrest).1 T (by simp)
      obtain ⟨w₁, h₁, hlast, hleft, hfits₁⟩ := hfits.split hs hsT (h32 s List.mem_cons_self)
      obtain ⟨w', hw', hle⟩ := ih hfits₁ (hlast ▸ hrest) fun x hx => h32 x (List.mem_cons_of_mem _ hx)
      refine ⟨w', (forEach_cons_ok _ _ _ _ _ _).mpr ⟨w₁, h₁, hw'⟩, ?_⟩
      rw [hlast, hleft] at hle
      have hwhole : T - lastUpdate t w = (s - lastUpdate t w) + (T - s) := by omega
      rw [hwhole]
      exact remaining_split.trans hle

theorem update_hands_out {n : Uint256} (hT : T < 2 ^ 256)
    (hn : Ok (accumulatedFeesAt ρ (w.hub.pooledTokens t).undistributedLpFees (w.hub.pooledTokens t).lastLpFeeUpdate)
      (atTime T w) n w₁) (h : Ok (inBlock T (updateFeesAt ρ t)) w () w') :
    n.toNat + undistributed t w' = undistributed t w := by
  obtain ⟨-, -, -, hstreamed, -⟩ := (accumulatedFeesAt_ok hT).mp hn
  rw [hstreamed, (update_result hT h).2.2]
  exact streamed_add_remaining

/-- Updates of a token and allocations of bundle fees, in any order, with the total that
they add for the token and the total that they hand out. -/
inductive Accounted (ρ : Uint256) (t : Address) (w : World) : Nat → Nat → World → Prop
  | start : Accounted ρ t w 0 0 w
  | update {allocated distributed : Nat} {w₁ w₂ w' : World} {T : Nat} {accumulatedFees : Uint256}
      (h : Accounted ρ t w allocated distributed w₁) (hT : T < 2 ^ 256)
      (fees : Ok (accumulatedFeesAt ρ (w₁.hub.pooledTokens t).undistributedLpFees
        (w₁.hub.pooledTokens t).lastLpFeeUpdate) (atTime T w₁) accumulatedFees w')
      (done : Ok (inBlock T (updateFeesAt ρ t)) w₁ () w₂) :
      Accounted ρ t w allocated (distributed + accumulatedFees.toNat) w₂
  | allocate {allocated distributed : Nat} {w₁ w₂ : World} {l1Token : Address} {bundleLpFees : Uint256}
      (h : Accounted ρ t w allocated distributed w₁)
      (done : Ok (allocateLpAndProtocolFees l1Token bundleLpFees) w₁ () w₂) :
      Accounted ρ t w
        (allocated + if l1Token = t then HubRefine.lpShare w₁.hub.protocolFeeCapturePct bundleLpFees else 0)
        distributed w₂

theorem Accounted.balanced {allocated distributed : Nat} (h : Accounted ρ t w allocated distributed w') :
    distributed + undistributed t w' = undistributed t w + allocated := by
  induction h with
  | start => omega
  | update _ hT hfees hdone ih =>
      have hpaid := update_hands_out hT hfees hdone
      omega
  | allocate _ hdone ih =>
      have hgain := allocateLpAndProtocolFees_undistributed hdone t
      change undistributed t _ = undistributed t _ + _ at hgain
      omega

end Runs

section Calls

def issued (t : Address) (w : World) : Uint256 := (w.tokens (w.hub.pooledTokens t).lpToken).supply

theorem sync_fees {u : Unit} (h : Ok (syncInternal D t) w u w') :
    issued t w' = issued t w ∧ undistributed t w' = undistributed t w ∧ lastUpdate t w' = lastUpdate t w := by
  obtain ⟨p, rfl, hp, hsync⟩ := syncInternal_ok h
  obtain ⟨-, hundistributed, hlast⟩ := hsync.same
  refine ⟨?_, hundistributed, hlast⟩
  rw [issued, pooledTokens_putPool, hp]
  rfl

/-- A call of `exchangeRateCurrent` updates the fees, unless the token has no LP tokens. -/
theorem rate_result (hT : T < 2 ^ 256) (h : Ok (inBlock T do let _ ← exchangeRateCurrent D t; pure ()) w () w') :
    issued t w' = issued t w ∧ (issued t w = 0 ∧ undistributed t w' = undistributed t w ∨
      issued t w ≠ 0 ∧ lastUpdate t w ≤ T ∧ lastUpdate t w' = T % 2 ^ 32 ∧
        undistributed t w' = remaining unit feeRate (undistributed t w) (T - lastUpdate t w)) := by
  obtain ⟨r, _, hrate, hpure⟩ := (bind_ok _ _ _ _ _).mp (inBlock_ok.mp h)
  obtain ⟨-, rfl⟩ := (pure_ok _ _ _ _).mp hpure
  rw [exchangeRateCurrent, exchangeRateInternal, read_bind_ok] at hrate
  simp only [bind_ok, totalSupply_ok] at hrate
  obtain ⟨s, _, ⟨-, hs, rfl⟩, hrate⟩ := hrate
  change issued t w = s at hs
  split at hrate
  · rename_i hzero
    obtain ⟨-, rfl⟩ := (pure_ok _ _ _ _).mp hrate
    exact ⟨rfl, .inl ⟨hs.trans hzero, rfl⟩⟩
  · rename_i hpos
    simp only [exchangeRateNumerator, bind_ok, read_ok, checkedMul_ok, checkedDiv_ok,
      signedAdd_ok (show 0 < 256 by decide), signedSub_ok (show 0 < 256 by decide)] at hrate
    obtain ⟨n, _, ⟨_, w₁, hupdate, _, w₂, hsync, _, _, ⟨rfl, rfl⟩, _, _, ⟨-, rfl⟩, -, rfl⟩, _, _, ⟨-, rfl⟩, -, -,
      rfl⟩ := hrate
    obtain ⟨hsup, hu, hl⟩ := sync_fees hsync
    have hupdated : Ok (inBlock T (updateFeesAt lpFeeRatePerSecond t)) w () w₁ := inBlock_ok.mpr hupdate
    obtain ⟨hle, hlast, hleft⟩ := update_result hT hupdated
    obtain ⟨-, rfl⟩ := (updateFeesAt_ok hT).mp hupdate
    rw [hsup, hu, hl]
    refine ⟨?_, .inr ⟨hs ▸ hpos, hle, hlast, hleft⟩⟩
    rw [issued, pooledTokens_putPool]
    rfl

theorem rates_idle (hz : issued t w = 0) (hts : ∀ s ∈ ts, s < 2 ^ 256) (h : Ok (rates D t ts) w () w') :
    undistributed t w' = undistributed t w := by
  induction ts generalizing w with
  | nil =>
      obtain rfl := (forEach_nil_ok _ _ _ _).mp h
      rfl
  | cons s ts ih =>
      obtain ⟨w₁, h₁, h₂⟩ := (forEach_cons_ok _ _ _ _ _ _).mp h
      obtain ⟨hsup, hstep⟩ := rate_result (hts s List.mem_cons_self) h₁
      rcases hstep with ⟨-, hsame⟩ | ⟨hpos, -⟩
      · exact (ih (hsup.trans hz) (fun x hx => hts x (List.mem_cons_of_mem _ hx)) h₂).trans hsame
      · exact absurd hz hpos

theorem rates_split (hpos : issued t w ≠ 0) (hT : T < 2 ^ 256) (hts : (ts ++ [T]).Pairwise (· ≤ ·))
    (h32 : ∀ s ∈ ts, s < 2 ^ 32) (h : Ok (rates D t (ts ++ [T])) w () w') :
    remaining unit feeRate (undistributed t w) (T - lastUpdate t w) ≤ undistributed t w' := by
  induction ts generalizing w with
  | nil =>
      obtain ⟨w₁, h₁, h₂⟩ := (forEach_cons_ok _ _ _ _ _ _).mp h
      obtain rfl := (forEach_nil_ok _ _ _ _).mp h₂
      obtain ⟨-, ⟨hz, -⟩ | ⟨-, -, -, hleft⟩⟩ := rate_result hT h₁
      · exact absurd hz hpos
      · exact hleft.ge
  | cons s ts ih =>
      obtain ⟨hfirst, hrest⟩ := List.pairwise_cons.mp hts
      have hsT : s ≤ T := hfirst T (by simp)
      have hs : s < 2 ^ 32 := h32 s List.mem_cons_self
      obtain ⟨w₁, h₁, h₂⟩ := (forEach_cons_ok _ _ _ _ _ _).mp h
      obtain ⟨hsup, ⟨hz, -⟩ | ⟨-, hle, hlast, hleft⟩⟩ := rate_result (hs.trans (by decide)) h₁
      · exact absurd hz hpos
      rw [Nat.mod_eq_of_lt hs] at hlast
      have hrun := ih (hsup ▸ hpos) hrest (fun x hx => h32 x (List.mem_cons_of_mem _ hx)) h₂
      rw [hlast, hleft] at hrun
      have hwhole : T - lastUpdate t w = (s - lastUpdate t w) + (T - s) := by omega
      rw [hwhole]
      exact remaining_split.trans hrun

/-- One call at the end leaves no more than calls in between and then one at the end. -/
theorem rates_le (hT : T < 2 ^ 256) (hts : (ts ++ [T]).Pairwise (· ≤ ·)) (h32 : ∀ s ∈ ts, s < 2 ^ 32)
    (h₁ : Ok (rates D t (ts ++ [T])) w () w₁) (h₂ : Ok (rates D t [T]) w () w₂) :
    undistributed t w₂ ≤ undistributed t w₁ := by
  by_cases hz : issued t w = 0
  · have hbound : ∀ s ∈ ts ++ [T], s < 2 ^ 256 := by
      intro s hs
      rcases List.mem_append.mp hs with hs | hs
      · exact (h32 s hs).trans (by decide)
      · exact (List.mem_singleton.mp hs) ▸ hT
    rw [rates_idle hz hbound h₁]
    exact (rates_idle hz (fun s hs => (List.mem_singleton.mp hs) ▸ hT) h₂).le
  · obtain ⟨w', h, hnil⟩ := (forEach_cons_ok _ _ _ _ _ _).mp h₂
    obtain rfl := (forEach_nil_ok _ _ _ _).mp hnil
    obtain ⟨-, ⟨hzero, -⟩ | ⟨-, -, -, hleft⟩⟩ := rate_result hT h
    · exact absurd hzero hz
    · exact hleft.trans_le (rates_split hz hT hts h32 h₁)

end Calls

/-- At every rate per second: an update whose products fit returns; it hands out all
fees exactly where there are none or the rate times the time since the last update is
at least one; updates in between, at times that fit the word that holds the last
update, never leave less than the one at the end alone; and no sequence of updates and
allocations hands out more than there was and was added. Calls of `exchangeRateCurrent`
in between do not speed up the fees. -/
theorem updates_never_speed_up_fees (ρ : Uint256) (t : Address) (w : World) :
    (∀ T, T < 2 ^ 256 → Fits ρ.toNat t (atTime T w) → ∃ w', Ok (inBlock T (updateFeesAt ρ t)) w () w' ∧
      undistributed t w' = remaining unit ρ.toNat (undistributed t w) (T - lastUpdate t w) ∧
      (undistributed t w' = 0 ↔ undistributed t w = 0 ∨ 10 ^ 18 ≤ ρ.toNat * (T - lastUpdate t w))) ∧
    (∀ ts T w₂, T < 2 ^ 256 → (lastUpdate t w :: (ts ++ [T])).Pairwise (· ≤ ·) → (∀ s ∈ ts, s < 2 ^ 32) →
      Ok (inBlock T (updateFeesAt ρ t)) w () w₂ →
      ∃ w₁, Ok (updates ρ t (ts ++ [T])) w () w₁ ∧ undistributed t w₂ ≤ undistributed t w₁) ∧
    (∀ allocated distributed w', Accounted ρ t w allocated distributed w' →
      distributed + undistributed t w' = undistributed t w + allocated) ∧
    updateFeesAt lpFeeRatePerSecond t = updateAccumulatedLpFees t ∧
    ∀ D ts T w₁ w₂, T < 2 ^ 256 → (ts ++ [T]).Pairwise (· ≤ ·) → (∀ s ∈ ts, s < 2 ^ 32) →
      Ok (rates D t (ts ++ [T])) w () w₁ → Ok (rates D t [T]) w () w₂ → undistributed t w₂ ≤ undistributed t w₁ := by
  refine ⟨?_, ?_, fun _ _ _ h => h.balanced, updateFeesAt_rate t, ?_⟩
  · intro T hT hfits
    obtain ⟨w', hw'⟩ := update_returns hT hfits
    obtain ⟨-, -, hleft⟩ := update_result hT hw'
    refine ⟨w', hw', hleft, ?_⟩
    rw [hleft]
    exact remaining_eq_zero (by decide)
  · intro ts T w₂ hT hts h32 hone
    obtain ⟨w₁, h₁, hle⟩ := updates_split hT (fits_atTime hone hT) hts h32
    exact ⟨w₁, h₁, (update_result hT hone).2.2.trans_le hle⟩
  · intro D ts T w₁ w₂ hT hts h32 h₁ h₂
    exact rates_le hT hts h32 h₁ h₂

theorem sampleExecuted_fees : ∃ w₁ w₂ w₃ w₄,
    Ok (updates lpFeeRatePerSecond 5 [8200, 9000]) sampleExecuted () w₁ ∧
    Ok (inBlock 9000 (updateFeesAt lpFeeRatePerSecond 5)) sampleExecuted () w₂ ∧
    undistributed 5 w₂ ≤ undistributed 5 w₁ ∧
    (undistributed 5 w₂ = 0 ↔ undistributed 5 sampleExecuted = 0 ∨
      10 ^ 18 ≤ lpFeeRatePerSecond.toNat * (9000 - lastUpdate 5 sampleExecuted)) ∧
    Accounted lpFeeRatePerSecond 5 sampleExecuted 0 12 w₂ ∧
    12 + undistributed 5 w₂ = undistributed 5 sampleExecuted + 0 ∧
    Ok (rates sampleDeployment 5 [8200, 9000]) sampleExecuted () w₃ ∧
    Ok (rates sampleDeployment 5 [9000]) sampleExecuted () w₄ ∧ undistributed 5 w₄ ≤ undistributed 5 w₃ := by
  obtain ⟨hone, hsplit, hsum, -, hrates⟩ := updates_never_speed_up_fees lpFeeRatePerSecond 5 sampleExecuted
  obtain ⟨w₂, h₂, -, hall⟩ := hone 9000 (by decide) ⟨by decide, by decide, by decide⟩
  obtain ⟨w₁, h₁, hle⟩ := hsplit [8200] 9000 w₂ (by decide) (by decide) (by decide) h₂
  have hfees : Ok (accumulatedFeesAt lpFeeRatePerSecond 1000 1000) (atTime 9000 sampleExecuted) 12
    (atTime 9000 sampleExecuted) := rfl
  have hacc : Accounted lpFeeRatePerSecond 5 sampleExecuted 0 (0 + (12 : Uint256).toNat) w₂ :=
    .update .start (by decide) hfees h₂
  refine ⟨w₁, w₂, _, _, h₁, h₂, hle, hall, hacc, hsum 0 12 w₂ hacc, rfl, rfl, ?_⟩
  exact hrates sampleDeployment [8200] 9000 _ _ (by decide) (by decide) (by decide) rfl rfl

/-- In the last second that fits 32 bits 1000 fees are left. One call two seconds later
hands out none of them, a call in between makes it hand out all. -/
theorem sampleRollover_speeds_up :
    run sampleDeployment sampleWorld
      (sampleLast ++ [sampleCall 9 (.executeRootBundle (sampleLeaf 1000) []), .advance 1]) = sampleRollover ∧
    ∃ w₁ w₂, Ok (rates sampleDeployment 5 [4294967296, 4294967297]) sampleRollover () w₁ ∧
      Ok (rates sampleDeployment 5 [4294967297]) sampleRollover () w₂ ∧
      undistributed 5 w₁ = 0 ∧ undistributed 5 w₂ = 1000 :=
  ⟨sampleRollover_reached, _, _, rfl, rfl, rfl, rfl⟩

end Across.HubFees
