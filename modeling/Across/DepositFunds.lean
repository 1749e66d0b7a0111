import Across.OrderOriginData
import Across.SpokeBooks
import Across.SpokeFunds

namespace Across.DepositFunds

open Abi CallExec CallExec.Exec Erc20 SpokeTypes SpokeState SpokePool SpokeRules SpokeLedger SpokeBooks SpokeFunds

variable {W : Type}

/-- The token and the amount that a deposit is to bring in. -/
def funding : Call → Option (Address × Uint256)
  | .deposit d | .depositFor d => some (d.originToken, d.amount)
  | .depositV3 d | .unsafeDepositV3 d _ | .depositV3Now d _ | .depositExclusive d => some (d.inputToken, d.inputAmount)
  | _ => none

def isLegacy : Call → Bool
  | .deposit _ | .depositFor _ => true
  | _ => false

/-- How the funds of a deposit come in: the value of the call is wrapped, or the
tokens are pulled from the caller. -/
structure Takes (V : Variant W) (H : Host W) (book : W → Token Address) (token : Address) (amount : Uint256)
    (value : Nat) (s s' : World W) : Prop where
  tokens : tokens book s'.rest V.self = tokens book s.rest V.self + amount.toNat
  native : token = V.wrappedNativeToken ∧ 0 < value ∧ value = amount.toNat ∧
      H.nativeBalance s'.rest + value = H.nativeBalance s.rest ∨
    ¬ (token = V.wrappedNativeToken ∧ 0 < value) ∧ H.nativeBalance s'.rest = H.nativeBalance s.rest

def Emits (call : Call) (token : Address) (amount : Uint256) (s s' : World W) : Prop :=
  ∃ e t, s'.trace = s.trace ++ (t ++ [.event call (.v3FundsDeposited e)]) ∧ (∀ x ∈ t, isEntry x = false) ∧
    e.inputToken = token ∧ e.inputAmount = amount

section Functions

variable {V : Variant W} {H : Host W} {token : Address} {book : W → Token Address} {enter : Msg → Call → Code W Unit}
  {s s' : World W} {u : Unit} {msg : Msg} {call : Call}

theorem Emits.of_trace {amount : Uint256} {e : V3FundsDeposited} {x : TraceItem}
    (ht : s'.trace = s.trace ++ [x] ++ [.event call (.v3FundsDeposited e)]) (hx : isEntry x = false)
    (htoken : e.inputToken = token) (hamount : e.inputAmount = amount) : Emits call token amount s s' := by
  refine ⟨e, [x], by rw [ht, List.append_assoc], fun y hy => ?_, htoken, hamount⟩
  rw [List.mem_singleton.mp hy]
  exact hx

/-- A deposit is funded first, in one of two ways, and announced last. -/
theorem depositV3Internal_funding {ext : Option Bytes32 → ExternalCall → Code W Unit} {d : DepositV3} {id : Uint256}
    (h : Ok (depositV3Internal V H ext msg call d id) s u s') : ∃ s₂ e,
      ((d.inputToken = V.wrappedNativeToken ∧ 0 < msg.value ∧ msg.value = d.inputAmount.toNat ∧
          Ok (ext none (.wrappedDeposit msg.value)) s () s₂) ∨
        (¬ (d.inputToken = V.wrappedNativeToken ∧ 0 < msg.value) ∧ msg.value = 0 ∧
          Ok (safeTransferFrom H ext none d.inputToken msg.sender V.self d.inputAmount) s () s₂)) ∧
      e.inputToken = d.inputToken ∧ e.inputAmount = d.inputAmount ∧
      s' = { s₂ with trace := s₂.trace ++ [.event call (.v3FundsDeposited e)] } := by
  simp only [depositV3Internal, read_bind_ok, require_bind_ok] at h
  obtain ⟨-, -, -, -, h⟩ := h
  obtain ⟨deadline, _, hd, h⟩ := (bind_ok _ _ _ _ _).mp h
  obtain ⟨-, rfl⟩ := OrderOriginData.exclusivityDeadline_ok hd
  replace h := ((require_bind_ok _ _ _ _ _ _).mp h).2
  split at h
  · rename_i hwrap
    obtain ⟨hv, h⟩ := (require_bind_ok _ _ _ _ _ _).mp h
    obtain ⟨_, s₂, h₂, h⟩ := (bind_ok _ _ _ _ _).mp h
    obtain rfl := (update_ok _ _ _ _).mp h
    exact ⟨s₂, _, .inl ⟨hwrap.1, hwrap.2, hv, h₂⟩, rfl, rfl, rfl⟩
  · rename_i hwrap
    obtain ⟨hv, h⟩ := (require_bind_ok _ _ _ _ _ _).mp h
    obtain ⟨_, s₂, h₂, h⟩ := (bind_ok _ _ _ _ _).mp h
    obtain rfl := (update_ok _ _ _ _).mp h
    exact ⟨s₂, _, .inr ⟨hwrap, hv, h₂⟩, rfl, rfl, rfl⟩

theorem depositV3Internal_takes {d : DepositV3} {id : Uint256} (ht : StandardToken V H d.inputToken book)
    (hw : d.inputToken = V.wrappedNativeToken → Wraps V H book) (hs : msg.sender ≠ V.self)
    (h : Ok (depositV3Internal V H (externalCall H enter) msg call d id) s u s') :
    Takes V H book d.inputToken d.inputAmount msg.value s s' ∧ Emits call d.inputToken d.inputAmount s s' ∧
      (d.inputToken = V.wrappedNativeToken ∨ msg.value = 0) := by
  obtain ⟨s₂, e, ⟨heq, hpos, hv, h₂⟩ | ⟨hwrap, hv, h₂⟩, htoken, hamount, rfl⟩ := depositV3Internal_funding h
  · obtain ⟨hin, hnative, w, rfl⟩ := wrappedDeposit_mints (hw heq) hv h₂
    exact ⟨⟨hin, .inl ⟨heq, hpos, hv, hnative⟩⟩, .of_trace rfl rfl htoken hamount, .inl heq⟩
  · obtain ⟨hin, hnative, w, rfl⟩ := safeTransferFrom_pulls ht hs h₂
    exact ⟨⟨hin, .inr ⟨hwrap, hnative⟩⟩, .of_trace rfl rfl htoken hamount, .inr hv⟩

theorem depositInternal_takes {d : LegacyDeposit} (ht : StandardToken V H d.originToken book)
    (hw : d.originToken = V.wrappedNativeToken → Wraps V H book) (hs : msg.sender ≠ V.self)
    (h : Ok (depositInternal V H (externalCall H enter) msg call d) s u s') :
    Takes V H book d.originToken d.amount msg.value s s' ∧ Emits call d.originToken d.amount s s' := by
  simp only [depositInternal, read_bind_ok, require_bind_ok] at h
  obtain ⟨-, -, -, -, -, h⟩ := h
  obtain ⟨_, _, hid, h⟩ := (bind_ok _ _ _ _ _).mp h
  obtain ⟨-, -, rfl⟩ := nextDepositId_ok hid
  split at h
  · rename_i hwrap
    obtain ⟨hv, h⟩ := (require_bind_ok _ _ _ _ _ _).mp h
    obtain ⟨_, s₂, h₂, h⟩ := (bind_ok _ _ _ _ _).mp h
    obtain rfl := (update_ok _ _ _ _).mp h
    obtain ⟨hin, hnative, w, rfl⟩ := wrappedDeposit_mints (hw hwrap.1) hv h₂
    exact ⟨⟨hin, .inl ⟨hwrap.1, hwrap.2, hv, hnative⟩⟩, .of_trace rfl rfl rfl rfl⟩
  · rename_i hwrap
    obtain ⟨_, s₂, h₂, h⟩ := (bind_ok _ _ _ _ _).mp h
    obtain rfl := (update_ok _ _ _ _).mp h
    obtain ⟨hin, hnative, w, rfl⟩ := safeTransferFrom_pulls ht hs h₂
    exact ⟨⟨hin, .inr ⟨hwrap, hnative⟩⟩, .of_trace rfl rfl rfl rfl⟩

theorem depositV3_takes {d : DepositV3} (ht : StandardToken V H d.inputToken book)
    (hw : d.inputToken = V.wrappedNativeToken → Wraps V H book) (hs : msg.sender ≠ V.self)
    (h : Ok (depositV3 V H (externalCall H enter) msg call d) s u s') :
    Takes V H book d.inputToken d.inputAmount msg.value s s' ∧ Emits call d.inputToken d.inputAmount s s' ∧
      (d.inputToken = V.wrappedNativeToken ∨ msg.value = 0) := by
  obtain ⟨t, hbody, rfl⟩ := nonReentrant_ok h
  replace h := unpausedDeposits_ok hbody
  obtain ⟨_, _, hid, h⟩ := (bind_ok _ _ _ _ _).mp h
  obtain ⟨-, -, rfl⟩ := nextDepositId_ok hid
  obtain ⟨htakes, hemits, hvalue⟩ := depositV3Internal_takes ht hw hs h
  exact ⟨⟨htakes.tokens, htakes.native⟩, hemits, hvalue⟩

/-- How the six entry points take their funds. Only the legacy ones can take a
value along with tokens that they pull. -/
theorem exec_takes {n : Nat} {amount : Uint256} (hf : funding call = some (token, amount))
    (ht : StandardToken V H token book) (hw : token = V.wrappedNativeToken → Wraps V H book) (hs : msg.sender ≠ V.self)
    (h : Ok (exec V H n msg call) s () s') :
    Takes V H book token amount msg.value s s' ∧ Emits call token amount s s' ∧
      (isLegacy call = true ∨ token = V.wrappedNativeToken ∨ msg.value = 0) := by
  cases n with
  | zero => exact ((revert_ok _ _ _ _).mp h).elim
  | succ n =>
      have hd := exec_dispatch h
      cases call with
      | deposit d =>
          obtain ⟨rfl, rfl⟩ := Prod.mk.inj (Option.some.inj hf)
          obtain ⟨t, hbody, rfl⟩ := nonReentrant_ok hd
          obtain ⟨htakes, hemits⟩ := depositInternal_takes (d := { d with depositor := msg.sender }) ht hw hs
            (unpausedDeposits_ok hbody)
          exact ⟨⟨htakes.tokens, htakes.native⟩, hemits, .inl rfl⟩
      | depositFor d =>
          obtain ⟨rfl, rfl⟩ := Prod.mk.inj (Option.some.inj hf)
          obtain ⟨t, hbody, rfl⟩ := nonReentrant_ok hd
          obtain ⟨htakes, hemits⟩ := depositInternal_takes (d := d) ht hw hs (unpausedDeposits_ok hbody)
          exact ⟨⟨htakes.tokens, htakes.native⟩, hemits, .inl rfl⟩
      | depositV3 d | depositExclusive d =>
          obtain ⟨rfl, rfl⟩ := Prod.mk.inj (Option.some.inj hf)
          obtain ⟨htakes, hemits, hvalue⟩ := depositV3_takes ht hw hs hd
          exact ⟨htakes, hemits, .inr hvalue⟩
      | unsafeDepositV3 d k =>
          obtain ⟨rfl, rfl⟩ := Prod.mk.inj (Option.some.inj hf)
          obtain ⟨t, hbody, rfl⟩ := nonReentrant_ok hd
          obtain ⟨htakes, hemits, hvalue⟩ := depositV3Internal_takes ht hw hs (unpausedDeposits_ok hbody)
          exact ⟨⟨htakes.tokens, htakes.native⟩, hemits, .inr hvalue⟩
      | depositV3Now d o =>
          obtain ⟨rfl, rfl⟩ := Prod.mk.inj (Option.some.inj hf)
          simp only [dispatch, depositV3Now, bind_ok, read_ok, require_ok] at hd
          obtain ⟨_, _, ⟨rfl, rfl⟩, _, _, ⟨-, rfl⟩, hd⟩ := hd
          obtain ⟨htakes, hemits, hvalue⟩ := depositV3_takes (d := { d with
            quoteTimestamp := BitVec.ofNat 32 s.time
            fillDeadline := BitVec.ofNat 32 (currentTime32 s.time + o.toNat) }) ht hw hs hd
          exact ⟨htakes, hemits, .inr hvalue⟩
      | _ => cases hf

theorem enter_paid {run : Msg → Call → Code W Unit} (hp : PaysIn H book)
    (h : Ok (SpokePool.enter H run msg call) s u s') :
    ∃ w, H.nativeBalance w = H.nativeBalance s.rest + msg.value ∧ book w = book s.rest ∧
      Ok (run msg call) { s with rest := w } u s' := by
  simp only [SpokePool.enter, bind_ok, read_ok] at h
  obtain ⟨_, _, ⟨rfl, rfl⟩, h⟩ := h
  split at h
  · exact ((revert_ok _ _ _ _).mp h).elim
  · rename_i w hw
    simp only [bind_ok, update_ok] at h
    obtain ⟨_, _, rfl, h⟩ := h
    by_cases hv : msg.value = 0
    · rw [if_pos hv] at hw
      obtain rfl := Option.some.inj hw
      exact ⟨s.rest, by rw [hv, Nat.add_zero], rfl, h⟩
    · rw [if_neg hv] at hw
      obtain ⟨hnative, hbook⟩ := hp.pay _ _ _ _ hw
      exact ⟨w, hnative, hbook, h⟩

end Functions

/-- The pool holds what the event says it took, and nothing else of the caller. -/
def Accounted (V : Variant W) (H : Host W) (book : W → Token Address) (msg : Msg) (call : Call) (token : Address)
    (s s' : World W) : Prop :=
  ∃ e t, s'.trace = s.trace ++ (t ++ [.event call (.v3FundsDeposited e)]) ∧ (∀ x ∈ t, isEntry x = false) ∧
    e.inputToken = token ∧ tokens book s'.rest V.self = tokens book s.rest V.self + e.inputAmount.toNat ∧
    H.nativeBalance s'.rest = H.nativeBalance s.rest ∧
    (msg.value = 0 ∨ token = V.wrappedNativeToken ∧ msg.value = e.inputAmount.toNat)

/-- A deposit is accounted for unless it goes through a legacy entry point with a
value and a token that the value cannot be wrapped into. -/
theorem deposit_accounted_iff {V : Variant W} {H : Host W} {book : W → Token Address} {token : Address}
    {amount : Uint256} {n : Nat} {msg : Msg} {call : Call} {s s' : World W}
    (hf : funding call = some (token, amount)) (ht : StandardToken V H token book)
    (hw : token = V.wrappedNativeToken → Wraps V H book) (hp : PaysIn H book) (hs : msg.sender ≠ V.self)
    (h : Ok (enter H (exec V H n) msg call) s () s') :
    Accounted V H book msg call token s s' ↔
      ¬ (isLegacy call = true ∧ token ≠ V.wrappedNativeToken ∧ 0 < msg.value) := by
  obtain ⟨w, hnative, hbook, hexec⟩ := enter_paid hp h
  obtain ⟨htakes, ⟨e, t, htrace, hq, htoken, hamount⟩, hpath⟩ := exec_takes hf ht hw hs hexec
  have hin := htakes.tokens
  simp only [tokens, hbook] at hin
  constructor
  · rintro ⟨_, _, -, -, -, -, hsame, -⟩ ⟨-, hne, hpos⟩
    rcases htakes.native with ⟨heq, -⟩ | ⟨-, hkept⟩
    · exact hne heq
    · change H.nativeBalance s'.rest = H.nativeBalance w at hkept
      omega
  · intro hcond
    refine ⟨e, t, htrace, hq, htoken, by rw [hamount]; exact hin, ?_⟩
    rcases htakes.native with ⟨heq, -, hv, hwrapped⟩ | ⟨hnot, hkept⟩
    · change H.nativeBalance s'.rest + _ = H.nativeBalance w at hwrapped
      exact ⟨by omega, .inr ⟨heq, by rw [hamount, hv]⟩⟩
    · have hv : msg.value = 0 := by
        by_contra hne
        have hpos := Nat.pos_of_ne_zero hne
        rcases hpath with hl | heq | hz
        · exact hcond ⟨hl, fun heq => hnot ⟨heq, hpos⟩, hpos⟩
        · exact hnot ⟨heq, hpos⟩
        · exact hne hz
      change H.nativeBalance s'.rest = H.nativeBalance w at hkept
      exact ⟨by omega, .inl hv⟩

def sampleWorld : World (Token Address × Nat) := ⟨sampleStorage, 1000, (⟨100, fun a => if a = 4 then 50 else 0⟩, 0), []⟩

def sampleDeposit : Call := .deposit ⟨4, 4, 5, 20, 137, 0, 1000, ⟨[], nil_fits⟩⟩

theorem sampleLegacyDeposit_accounted :
    ∃ s', Ok (enter sampleHost (exec sampleVariant sampleHost 1) ⟨4, 0⟩ sampleDeposit) sampleWorld () s' ∧
      Accounted sampleVariant sampleHost Prod.fst ⟨4, 0⟩ sampleDeposit 5 sampleWorld s' := by
  obtain ⟨s', h⟩ : ∃ s',
      Ok (enter sampleHost (exec sampleVariant sampleHost 1) ⟨4, 0⟩ sampleDeposit) sampleWorld () s' :=
    exists_ok (by decide)
  refine ⟨s', h, ?_⟩
  apply (deposit_accounted_iff rfl sampleHost_standard (fun h => absurd h (by decide)) sampleHost_paysIn
    (by decide) h).mpr
  decide

/-- The same deposit with a value of one: the pool keeps it. -/
theorem sampleDeposit_keeps_value :
    StandardToken sampleVariant sampleHost 5 Prod.fst ∧ PaysIn sampleHost Prod.fst ∧
    ∃ s', Ok (enter sampleHost (exec sampleVariant sampleHost 1) ⟨4, 1⟩ sampleDeposit) sampleWorld () s' ∧
      sampleHost.nativeBalance s'.rest = sampleHost.nativeBalance sampleWorld.rest + 1 ∧
      ¬ Accounted sampleVariant sampleHost Prod.fst ⟨4, 1⟩ sampleDeposit 5 sampleWorld s' := by
  refine ⟨sampleHost_standard, sampleHost_paysIn, _, rfl, rfl, ?_⟩
  rintro ⟨e, t, -, -, -, -, hnative, -⟩
  exact absurd hnative (by decide)

end Across.DepositFunds
