import Across.FillAgreement
import Across.OrderOriginData

namespace Across.Exclusivity

open Abi CallExec CallExec.Exec SpokeTypes SpokeState SpokePool SpokeRules PausedFills OrderOriginData FillAgreement

variable {W X : Type} {V : Variant W} {H : Host W} {ext : Option Bytes32 → ExternalCall → Code W Unit} {msg : Msg}
  {call : Call} {d : DepositV3} {s s' : World W} {u : Unit}

/-- What a parameter asks for at the time `t`. -/
structure Exclusive (t : Nat) (parameter deadline : Uint32) : Prop where
  none : parameter.toNat = 0 → deadline.toNat = 0
  offset : 0 < parameter.toNat → parameter.toNat ≤ maxExclusivityPeriodSeconds →
    deadline.toNat = t + parameter.toNat
  timestamp : maxExclusivityPeriodSeconds < parameter.toNat → deadline = parameter

theorem exclusivityDeadline_exclusive {parameter deadline : Uint32} {t : Nat} (ht : t < 2 ^ 32)
    (h : Ok (exclusivityDeadline parameter t) s deadline s') : Exclusive t parameter deadline := by
  rw [exclusivityDeadline] at h
  by_cases hp : 0 < parameter.toNat ∧ parameter.toNat ≤ maxExclusivityPeriodSeconds
  · rw [if_pos hp] at h
    obtain ⟨hfits, h⟩ := (require_bind_ok _ _ _ _ _ _).mp h
    obtain ⟨rfl, rfl⟩ := (pure_ok _ _ _ _).mp h
    rw [currentTime32, Nat.mod_eq_of_lt ht] at hfits
    refine ⟨fun hz => by omega, fun _ _ => ?_, fun hlt => by omega⟩
    rw [BitVec.toNat_ofNat, currentTime32, Nat.mod_eq_of_lt ht, Nat.mod_eq_of_lt hfits, Nat.add_comm]
  · rw [if_neg hp] at h
    obtain ⟨rfl, rfl⟩ := (pure_ok _ _ _ _).mp h
    exact ⟨fun hz => hz, fun h₁ h₂ => absurd ⟨h₁, h₂⟩ hp, fun _ => rfl⟩

/-- A deadline that is not zero comes from a parameter that is not. -/
theorem Exclusive.parameter_pos {t : Nat} {parameter deadline : Uint32} (h : Exclusive t parameter deadline)
    (hd : deadline.toNat ≠ 0) : parameter.toNat ≠ 0 := fun hz => hd (h.none hz)

section Deposit

theorem depositV3Internal_exclusive {depositId : Uint256} (ht : s.time < 2 ^ 32)
    (h : Ok (depositV3Internal V H ext msg call d depositId) s u s') :
    Exclusive s.time d.exclusivityParameter (exclusivityDeadlineOf d.exclusivityParameter s.time) ∧
      (d.exclusivityParameter.toNat = 0 ∨ d.exclusiveRelayer ≠ 0) := by
  rw [depositV3Internal, read_bind_ok, require_bind_ok, require_bind_ok, require_bind_ok, require_bind_ok] at h
  obtain ⟨-, -, -, -, h⟩ := h
  obtain ⟨deadline, _, hdeadline, h⟩ := (bind_ok _ _ _ _ _).mp h
  obtain ⟨rfl, rfl⟩ := exclusivityDeadline_ok hdeadline
  obtain ⟨hrelayer, -⟩ := (require_bind_ok _ _ _ _ _ _).mp h
  exact ⟨exclusivityDeadline_exclusive ht hdeadline, hrelayer⟩

/-- The deposits that take an exclusivity parameter. -/
def depositOf : Call → Option DepositV3
  | .depositV3 d | .depositExclusive d | .unsafeDepositV3 d _ | .depositV3Now d _ => some d
  | _ => none

/-- The last thing that the call has done is to emit this deposit. -/
def Emitted (call : Call) (s' : World W) (e : V3FundsDeposited) : Prop :=
  ∃ t, s'.trace = t ++ [.event call (.v3FundsDeposited e)]

/-- The terms of a deposit made at the time `t`. -/
structure Terms (t : Nat) (d : DepositV3) (e : V3FundsDeposited) : Prop where
  deadline : Exclusive t d.exclusivityParameter e.exclusivityDeadline
  relayer : e.exclusiveRelayer = d.exclusiveRelayer
  named : e.exclusivityDeadline.toNat ≠ 0 → e.exclusiveRelayer ≠ 0

theorem depositV3Internal_terms {depositId : Uint256} (ht : s.time < 2 ^ 32)
    (h : Ok (depositV3Internal V H ext msg call d depositId) s u s') : ∃ e, Emitted call s' e ∧ Terms s.time d e := by
  obtain ⟨hdeadline, hrelayer⟩ := depositV3Internal_exclusive ht h
  refine ⟨_, depositV3Internal_event h, hdeadline, rfl, fun hd => ?_⟩
  exact hrelayer.resolve_left (hdeadline.parameter_pos hd)

theorem unsafeDepositV3_terms {depositNonce : Uint256} (ht : s.time < 2 ^ 32)
    (h : Ok (unsafeDepositV3 V H ext msg call d depositNonce) s u s') : ∃ e, Emitted call s' e ∧ Terms s.time d e := by
  obtain ⟨t, h₁, rfl⟩ := nonReentrant_ok h
  obtain ⟨e, hevent, hterms⟩ := depositV3Internal_terms (by exact ht) (unpausedDeposits_ok h₁)
  exact ⟨e, hevent, hterms⟩

theorem depositV3_terms (ht : s.time < 2 ^ 32) (h : Ok (depositV3 V H ext msg call d) s u s') :
    ∃ e, Emitted call s' e ∧ Terms s.time d e := by
  obtain ⟨t, h₁, rfl⟩ := nonReentrant_ok h
  obtain ⟨i, s₁, hid, h₂⟩ := (bind_ok _ _ _ _ _).mp (unpausedDeposits_ok h₁)
  obtain ⟨-, -, rfl⟩ := nextDepositId_ok hid
  obtain ⟨e, hevent, hterms⟩ := depositV3Internal_terms (by exact ht) h₂
  exact ⟨e, hevent, hterms⟩

theorem deposit_terms {n : Nat} (hc : depositOf call = some d) (ht : s.time < 2 ^ 32)
    (h : Ok (exec V H n msg call) s u s') : ∃ e, Emitted call s' e ∧ Terms s.time d e := by
  cases n with
  | zero => exact ((revert_ok _ _ _ _).mp h).elim
  | succ n =>
      have hd := exec_dispatch h
      cases call with
      | depositV3 d' =>
          cases hc
          exact depositV3_terms ht hd
      | depositExclusive d' =>
          cases hc
          exact depositV3_terms ht hd
      | unsafeDepositV3 d' depositNonce =>
          cases hc
          exact unsafeDepositV3_terms ht hd
      | depositV3Now d' fillDeadlineOffset =>
          cases hc
          simp only [dispatch, depositV3Now, read_bind_ok, require_bind_ok] at hd
          obtain ⟨e, hevent, hterms⟩ := depositV3_terms ht hd.2
          exact ⟨e, hevent, hterms.deadline, hterms.relayer, hterms.named⟩
      | _ => cases hc

end Deposit

section Fill

variable {n : Nat} {r : V3RelayData} {c : Uint256}

def RevertsWith (m : Code W Unit) (s : World W) (e : SpokeState.Error) : Prop := (m s).result = .error e

theorem fillV3Relay_reserved (hv : msg.value = 0) :
    RevertsWith (exec V H (n + 1) msg (.fillV3Relay r c)) s .notExclusiveRelayer ↔ Reserved msg r s := by
  rw [RevertsWith, fillV3Relay_result hv, fillRule]
  by_cases hr : Reserved msg r s
  · rw [if_pos hr]
    exact ⟨fun _ => hr, fun _ => rfl⟩
  · rw [if_neg hr]
    refine ⟨fun h => ?_, fun h => absurd h hr⟩
    have hpays : (settle V H n msg r c (announced V msg r c s)).result ≠ .error (Refusal.evm .notExclusiveRelayer) :=
      fun hsettle => settle_fails _ _ hsettle .notExclusiveRelayer rfl
    have hopen := (ruled_refused_iff Refusal.evm_inj hpays).mp h
    split at hopen
    · cases hopen
    · split at hopen <;> cases hopen

theorem map_ne_error {ε α β : Type} {f : α → β} {x : Except ε α} {e : ε} (hx : x ≠ .error e) : x.map f ≠ .error e := by
  cases x with
  | error d =>
      intro h
      exact hx (congrArg _ (Except.error.inj h))
  | ok a => exact nofun

/-- The errors of a fill that has passed the checks made before it. -/
def FillError (e : SpokeState.Error) : Prop := Outside e ∨ e = .expiredFillDeadline ∨ e = .relayFilled

theorem fillRelayV3_fails {enter : Msg → Call → Code W Unit} {p : V3RelayExecutionParams} {relayer : Address}
    {isSlowFill : Bool} : FailsWith FillError
      (fillRelayV3 V H (externalCall H enter) msg call p relayer isSlowFill) := by
  refine .bind .read fun s => .bind (.require (.inr (.inl rfl))) fun _ => ?_
  refine .bind (.require (.inr (.inr rfl))) fun _ => .bind (.update _) fun _ => .bind (.update _) fun _ => ?_
  exact .ite (.pure ()) (.mono (fun _ => Or.inl) (payOut_fails p isSlowFill))

theorem FillError.ne {e : SpokeState.Error} (h : FillError e) :
    e ≠ .notExclusiveRelayer ∧ e ≠ .invalidDepositorSignature := by
  rcases h with (rfl | rfl) | rfl | rfl
  all_goals exact ⟨nofun, nofun⟩

theorem fillV3RelayWithUpdatedDeposit_reserved {x : UpdatedDeposit} (hv : msg.value = 0) (hg : s.pool.entered = false)
    (hp : s.pool.pausedFills = false) :
    RevertsWith (exec V H (n + 1) msg (.fillV3RelayWithUpdatedDeposit r c x)) s .notExclusiveRelayer ↔
      Reserved msg r s := by
  rw [RevertsWith, exec_result hv]
  simp only [dispatch, fillV3RelayWithUpdatedDeposit]
  rw [guarded_result hg hp, checkExclusivity_result]
  have hsame : Reserved msg r { s with pool := { s.pool with entered := true } } ↔ Reserved msg r s := Iff.rfl
  by_cases hr : Reserved msg r s
  · rw [if_pos (hsame.mpr hr)]
    exact ⟨fun _ => hr, fun _ => rfl⟩
  · rw [if_neg (mt hsame.mp hr)]
    refine ⟨fun h => ?_, fun h => absurd h hr⟩
    have hne : Error.invalidDepositorSignature ≠ .notExclusiveRelayer := by
      intro h
      cases h
    have hrest : FailsWith (· ≠ SpokeState.Error.notExclusiveRelayer) (do
        verifyUpdateV3DepositMessage H r.depositor r.depositId r.originChainId x
        fillRelayV3 V H (externalCall H (enter H (exec V H n))) msg (.fillV3RelayWithUpdatedDeposit r c x)
          ⟨r, getV3RelayHash V.chainId r, x.updatedOutputAmount, x.updatedRecipient, x.updatedMessage, c⟩
          msg.sender false) :=
      .bind (.bind .read fun _ => .require hne) fun _ => .mono (fun _ h => h.ne.1) fillRelayV3_fails
    exact absurd h (map_ne_error fun he => hrest _ _ he rfl)

theorem requestV3SlowFill_reserved (hv : msg.value = 0) (hg : s.pool.entered = false)
    (hp : s.pool.pausedFills = false) :
    RevertsWith (exec V H (n + 1) msg (.requestV3SlowFill r)) s .noSlowFillsInExclusivityWindow ↔
      currentTime32 s.time ≤ r.exclusivityDeadline.toNat := by
  rw [RevertsWith, requestV3SlowFill_result hv hg hp, requestRule]
  by_cases hr : currentTime32 s.time ≤ r.exclusivityDeadline.toNat
  · rw [if_pos hr]
    exact ⟨fun _ => hr, fun _ => rfl⟩
  · rw [if_neg hr]
    refine ⟨fun h => ?_, fun h => absurd h hr⟩
    have hopen := (ruled_refused_iff Refusal.evm_inj (e := .noSlowFillsInExclusivityWindow) ok_ne_error).mp h
    split at hopen
    · cases hopen
    · split at hopen <;> cases hopen

/-- Nothing but the payments is left to do. -/
def Cleared (V : Variant W) (sender : Address) (r : V3RelayData) (s : World W) : Prop :=
  ∀ (H : Host W) (n : Nat) (c : Uint256), (exec V H (n + 1) ⟨sender, 0⟩ (.fillV3Relay r c) s).result =
    (settle V H n ⟨sender, 0⟩ r c (announced V ⟨sender, 0⟩ r c s)).result

theorem cleared {a : Address} (hr : ¬ Reserved ⟨a, 0⟩ r s) (hd : s.time ≤ r.fillDeadline.toNat)
    (hf : s.pool.fillStatuses (getV3RelayHash V.chainId r) ≠ .filled) : Cleared V a r s := by
  intro H n c
  rw [fillV3Relay_result rfl, fillRule, if_neg hr, if_neg (Nat.not_lt.mpr hd), if_neg hf]
  rfl

/-- Until the fill deadline there is an account that the pool lets fill the relay. -/
theorem some_filler (hx : 0 < s.time) (h32 : s.time < 2 ^ 32) (hnamed : r.exclusivityDeadline.toNat ≠ 0 →
    r.exclusiveRelayer ≠ 0) (hd : s.time ≤ r.fillDeadline.toNat)
    (hf : s.pool.fillStatuses (getV3RelayHash V.chainId r) ≠ .filled) : ∃ a : Address, a ≠ 0 ∧ Cleared V a r s ∧
      ∀ c, ∃ s', Ok (exec V willing 1 ⟨a, 0⟩ (.fillV3Relay r c)) s () s' ∧
        s'.pool.fillStatuses (getV3RelayHash V.chainId r) = .filled := by
  have hnow : currentTime32 s.time = s.time := Nat.mod_eq_of_lt h32
  obtain ⟨a, ha, hopen⟩ : ∃ a : Address, a ≠ 0 ∧ ¬ Reserved ⟨a, 0⟩ r s := by
    by_cases hlate : r.exclusivityDeadline.toNat < s.time
    · refine ⟨1, by decide, fun h => ?_⟩
      rw [Reserved, hnow] at h
      omega
    · exact ⟨r.exclusiveRelayer, hnamed (by omega), fun h => h.2 rfl⟩
  refine ⟨a, ha, cleared hopen hd hf, fun c => exec_fillV3Relay_willing 0 _ rfl c ?_⟩
  rintro (⟨h₁, h₂⟩ | h | h)
  · exact hopen ⟨of_decide_eq_true h₁, h₂⟩
  · omega
  · exact hf h

end Fill

/-- The deadline that a deposit emits, and what each way to fill the relay or to
request a slow fill makes of it on the destination chain. -/
theorem exclusivity_window {n : Nat} (hc : depositOf call = some d) (ht : s.time < 2 ^ 32)
    (h : Ok (exec V H n msg call) s u s') : ∃ e, Emitted call s' e ∧ Terms s.time d e ∧
    ∀ (D : Variant X) (x : World X), 0 < x.time → x.time < 2 ^ 32 →
      (∀ (H' : Host X) (m : Nat) (msg' : Msg) (c : Uint256), msg'.value = 0 →
        (RevertsWith (exec D H' (m + 1) msg' (.fillV3Relay (relayOf V.chainId e) c)) x .notExclusiveRelayer ↔
          ¬ (e.exclusivityDeadline.toNat < x.time ∨ msg'.sender = e.exclusiveRelayer)) ∧
        (x.pool.entered = false → x.pool.pausedFills = false →
          (∀ y, RevertsWith (exec D H' (m + 1) msg' (.fillV3RelayWithUpdatedDeposit (relayOf V.chainId e) c y)) x
            .notExclusiveRelayer ↔ ¬ (e.exclusivityDeadline.toNat < x.time ∨ msg'.sender = e.exclusiveRelayer)) ∧
          (RevertsWith (exec D H' (m + 1) msg' (.requestV3SlowFill (relayOf V.chainId e))) x
            .noSlowFillsInExclusivityWindow ↔ ¬ e.exclusivityDeadline.toNat < x.time))) ∧
      (x.time ≤ e.fillDeadline.toNat →
        x.pool.fillStatuses (getV3RelayHash D.chainId (relayOf V.chainId e)) ≠ .filled →
        ∃ a : Address, a ≠ 0 ∧ Cleared D a (relayOf V.chainId e) x ∧
          ∀ c, ∃ x', Ok (exec D willing 1 ⟨a, 0⟩ (.fillV3Relay (relayOf V.chainId e) c)) x () x' ∧
            x'.pool.fillStatuses (getV3RelayHash D.chainId (relayOf V.chainId e)) = .filled) := by
  obtain ⟨e, hevent, hterms⟩ := deposit_terms hc ht h
  refine ⟨e, hevent, hterms, fun D x hx h32 => ⟨fun H' m msg' c hv => ?_, fun hd hf => ?_⟩⟩
  · have hnow : currentTime32 x.time = x.time := Nat.mod_eq_of_lt h32
    have hreserved : Reserved msg' (relayOf V.chainId e) x ↔
        ¬ (e.exclusivityDeadline.toNat < x.time ∨ msg'.sender = e.exclusiveRelayer) := by
      rw [Reserved, hnow, not_or, Nat.not_lt, eq_comm (a := msg'.sender)]
      rfl
    refine ⟨(fillV3Relay_reserved hv).trans hreserved, fun hg hp => ⟨fun y => ?_, ?_⟩⟩
    · exact (fillV3RelayWithUpdatedDeposit_reserved hv hg hp).trans hreserved
    · rw [requestV3SlowFill_reserved hv hg hp, hnow, Nat.not_lt]
      rfl
  · exact some_filler hx h32 hterms.named hd hf

def sampleDeposit : DepositV3 := ⟨4, 6, 5, 7, 20, 19, 137, 9, 1000, 2000, 60, ⟨[], nil_fits⟩⟩

def sampleOrigin : World Unit :=
  { sampleWorld with time := 1000, pool := { sampleWorld.pool with enabledDepositRoutes := fun _ _ => true } }

def sampleEvent : V3FundsDeposited := depositEvent sampleDeposit 0 1060

theorem sampleOrigin_deposits : ∃ s', Ok (exec samplePool willing 1 ⟨4, 0⟩ (.depositV3 sampleDeposit)) sampleOrigin ()
    s' ∧ s'.trace = [.external none (.safeTransferFrom 5 4 1 20)] ++
      [.event (.depositV3 sampleDeposit) (.v3FundsDeposited sampleEvent)] := ⟨_, rfl, rfl⟩

/-- The minute of account 9 is not over when account 8 tries to fill. -/
theorem sampleDeposit_window : ∃ s',
    Ok (exec samplePool willing 1 ⟨4, 0⟩ (.depositV3 sampleDeposit)) sampleOrigin () s' ∧
    Emitted (.depositV3 sampleDeposit) s' sampleEvent ∧
    RevertsWith (exec samplePool willing 1 ⟨8, 0⟩ (.fillV3Relay (relayOf 1 sampleEvent) 10))
      { sampleWorld with time := 1050 } .notExclusiveRelayer ∧
    RevertsWith (exec samplePool willing 1 ⟨8, 0⟩ (.requestV3SlowFill (relayOf 1 sampleEvent)))
      { sampleWorld with time := 1050 } .noSlowFillsInExclusivityWindow ∧
    ∃ a : Address, a ≠ 0 ∧ Cleared samplePool a (relayOf 1 sampleEvent) { sampleWorld with time := 1050 } := by
  obtain ⟨s', h, htrace⟩ := sampleOrigin_deposits
  obtain ⟨e, ⟨t, ht⟩, -, hdest⟩ := exclusivity_window (X := Unit) rfl (by decide) h
  have he : sampleEvent = e := by
    have hlast := (List.append_inj' (htrace.symm.trans ht) rfl).2
    cases hlast
    rfl
  subst he
  obtain ⟨hcalls, hfiller⟩ := hdest samplePool { sampleWorld with time := 1050 } (by decide) (by decide)
  obtain ⟨hfill, hguarded⟩ := hcalls willing 0 ⟨8, 0⟩ 10 rfl
  obtain ⟨a, ha, hclear, -⟩ := hfiller (by decide) nofun
  exact ⟨s', h, ⟨_, htrace⟩, hfill.mpr (by decide), (hguarded rfl rfl).2.mpr (by decide), a, ha, hclear⟩

end Across.Exclusivity
