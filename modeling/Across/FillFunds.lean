import Across.SpokeFunds
import Mathlib.Algebra.Group.Pi.Basic
import Mathlib.Tactic.Abel

namespace Across.FillFunds

open Abi CallExec CallExec.Exec SpokeTypes SpokeState SpokePool SpokeRules SpokeFunds

variable {W : Type}

/-- Before a leaf is executed the pool at most wraps native currency. All pools of this
repository keep to that. -/
def WrapsOnly (V : Variant W) : Prop :=
  ∀ token s c, c ∈ V.preExecuteLeafHook token s → ∃ amount : Uint256, c = .wrappedDeposit amount.toNat

/-- How the balances of one token and of the native currency are read off the rest
of the chain. -/
structure Purse (W : Type) where
  tokens : W → Address → Nat
  native : W → Address → Nat

def amountAt (a : Address) (n : Nat) : Address → Int := fun x => if x = a then n else 0

/-- The balances of all accounts change by `dt` tokens and `dn` of the native
currency, and no account gets or loses code. -/
structure Shifts (H : Host W) (P : Purse W) (dt dn : Address → Int) (w w' : W) : Prop where
  tokens : ∀ x, (P.tokens w' x : Int) = P.tokens w x + dt x
  native : ∀ x, (P.native w' x : Int) = P.native w x + dn x
  code : H.isContract w' = H.isContract w

/-- A token that does what the standard says: a transfer moves tokens or fails, and
calls nobody. -/
structure PlainToken (V : Variant W) (H : Host W) (P : Purse W) (token : Address) : Prop where
  transfer : ∀ s dst (amount : Uint256), ∃ ok w, H.behave (.safeTransfer token dst amount) s = .halt ok w ∧
    (ok = true → Shifts H P (amountAt dst amount.toNat - amountAt V.self amount.toNat) 0 s.rest w)
  transferFrom : ∀ s src dst (amount : Uint256), ∃ ok w,
    H.behave (.safeTransferFrom token src dst amount) s = .halt ok w ∧
    (ok = true → Shifts H P (amountAt dst amount.toNat - amountAt src amount.toNat) 0 s.rest w)

/-- Native currency that is sent arrives. An account without code cannot do anything
with the call that brings it. -/
structure NativeCurrency (V : Variant W) (H : Host W) (P : Purse W) : Prop where
  pool : ∀ w, H.nativeBalance w = P.native w V.self
  pay : ∀ src value w w', H.pay src value w = some w' →
    Shifts H P 0 (amountAt V.self value - amountAt src value) w w'
  sendValue : ∀ s dst (amount : Uint256), H.isContract s.rest dst = false → ∃ ok w,
    H.behave (.sendValue dst amount) s = .halt ok w ∧
    (ok = true → Shifts H P 0 (amountAt dst amount.toNat - amountAt V.self amount.toNat) s.rest w)

/-- The wrapped native token mints for what is paid in, and burns for what it pays
out through the pool's `receive`. -/
structure WrappedToken (V : Variant W) (H : Host W) (P : Purse W) (token : Address) : Prop where
  other : V.wrappedNativeToken ≠ V.self
  deposit : ∀ s (amount : Uint256), ∃ ok w, H.behave (.wrappedDeposit amount.toNat) s = .halt ok w ∧
    (ok = true → Shifts H P (if token = V.wrappedNativeToken then amountAt V.self amount.toNat else 0)
      (amountAt V.wrappedNativeToken amount.toNat - amountAt V.self amount.toNat) s.rest w)
  withdraw : token = V.wrappedNativeToken → ∀ s (amount : Uint256),
    (∃ w, H.behave (.wrappedWithdraw amount) s = .halt false w) ∨ ∃ w resume,
      H.behave (.wrappedWithdraw amount) s = .invoke w ⟨V.wrappedNativeToken, amount.toNat⟩ .receive resume ∧
      Shifts H P (-amountAt V.self amount.toNat) 0 s.rest w ∧
      ∀ t, resume true t = .halt true t.rest ∧ ∃ w', resume false t = .halt false w'

/-- What the recipient does with a message neither calls the pool nor changes its
balances. -/
structure KeepsAway (V : Variant W) (H : Host W) (P : Purse W) (recipient : Address) : Prop where
  handle : ∀ s tokenSent amount relayer message, ∃ ok w,
    H.behave (.handleV3AcrossMessage recipient tokenSent amount relayer message) s = .halt ok w ∧
    (ok = true → P.tokens w V.self = P.tokens s.rest V.self ∧ P.native w V.self = P.native s.rest V.self)

/-- What a fill relies on outside the pool, for one output token. -/
structure Outside (V : Variant W) (H : Host W) (P : Purse W) (token : Address) : Prop where
  plain : PlainToken V H P token
  currency : NativeCurrency V H P
  wrapped : WrappedToken V H P token

/-- What a fill is to pay, and the message that goes with it. -/
structure Payment where
  outputToken : Address
  amount : Uint256
  recipient : Address
  message : Blob

/-- The original terms, or those that the depositor has signed since. -/
def relayerFill : Call → Option Payment
  | .fillV3Relay r _ => some ⟨r.outputToken, r.outputAmount, r.recipient, r.message⟩
  | .fillV3RelayWithUpdatedDeposit r _ u =>
      some ⟨r.outputToken, u.updatedOutputAmount, u.updatedRecipient, u.updatedMessage⟩
  | _ => none

def slowFill (leaf : V3SlowFill) : Payment :=
  ⟨leaf.relayData.outputToken, leaf.updatedOutputAmount, leaf.relayData.recipient, leaf.relayData.message⟩

def InNative (V : Variant W) (H : Host W) (p : Payment) (w : W) : Prop :=
  p.outputToken = V.wrappedNativeToken ∧ H.isContract w p.recipient = false

/-- `payer` pays exactly the amount in tokens and the recipient receives exactly it,
in tokens or in native currency. No other account pays or receives anything, but for
the wrapped token that gives out the native currency. -/
def Paid (V : Variant W) (H : Host W) (P : Purse W) (payer : Address) (p : Payment) (w w' : W) : Prop :=
  (InNative V H p w ∧ Shifts H P (-amountAt payer p.amount.toNat)
    (amountAt p.recipient p.amount.toNat - amountAt V.wrappedNativeToken p.amount.toNat) w w') ∨
  (¬ InNative V H p w ∧
    Shifts H P (amountAt p.recipient p.amount.toNat - amountAt payer p.amount.toNat) 0 w w')

def CalledBack (V : Variant W) (H : Host W) (P : Purse W) (p : Payment) (w w' : W) : Prop :=
  w' = w ∨ (0 < p.message.val.length ∧ H.isContract w p.recipient = true ∧
    P.tokens w' V.self = P.tokens w V.self ∧ P.native w' V.self = P.native w V.self)

/-- A relayer's fill: it leaves the pool's balances as they were. A relayer that fills
for itself moves nothing and makes the pool call nobody; any other one pays. -/
structure RelayerPays (V : Variant W) (H : Host W) (P : Purse W) (relayer : Address) (p : Payment) (s s' : World W) :
    Prop where
  tokens : P.tokens s'.rest V.self = P.tokens s.rest V.self
  native : H.nativeBalance s'.rest = H.nativeBalance s.rest
  own : relayer = p.recipient → s'.rest = s.rest ∧ ∃ t, s'.trace = s.trace ++ t ∧ ∀ o c, .external o c ∉ t
  other : relayer ≠ p.recipient → ∃ w, Paid V H P relayer p s.rest w ∧ CalledBack V H P p w s'.rest

def Wrapped (V : Variant W) (H : Host W) (P : Purse W) (token : Address) (value : Nat) (w w' : W) : Prop :=
  Shifts H P (if token = V.wrappedNativeToken then amountAt V.self value else 0)
    (amountAt V.wrappedNativeToken value - amountAt V.self value) w w'

/-- A slow fill: the pool pays the amount out of what it holds, after it has wrapped what
its hook says. -/
structure PoolPays (V : Variant W) (H : Host W) (P : Purse W) (p : Payment) (s s' : World W) : Prop where
  tokens : p.outputToken ≠ V.wrappedNativeToken →
    P.tokens s'.rest V.self + p.amount.toNat = P.tokens s.rest V.self
  wrapped : p.outputToken = V.wrappedNativeToken →
    P.tokens s'.rest V.self + H.nativeBalance s'.rest + p.amount.toNat =
      P.tokens s.rest V.self + H.nativeBalance s.rest
  paid : ∃ value w w', Wrapped V H P p.outputToken value s.rest w ∧
    ((∀ t, V.preExecuteLeafHook p.outputToken t = []) → value = 0) ∧
    Paid V H P V.self p w w' ∧ CalledBack V H P p w' s'.rest

section Shifts

variable {V : Variant W} {H : Host W} {P : Purse W} {dt dn dt' dn' : Address → Int} {w w' w'' : W}

theorem Shifts.refl (w : W) : Shifts H P 0 0 w w :=
  ⟨fun x => by rw [Pi.zero_apply, Int.add_zero], fun x => by rw [Pi.zero_apply, Int.add_zero], rfl⟩

theorem Shifts.trans (h : Shifts H P dt dn w w') (k : Shifts H P dt' dn' w' w'') :
    Shifts H P (dt + dt') (dn + dn') w w'' := by
  refine ⟨fun x => ?_, fun x => ?_, k.code.trans h.code⟩
  · rw [k.tokens, h.tokens, Pi.add_apply, Int.add_assoc]
  · rw [k.native, h.native, Pi.add_apply, Int.add_assoc]

theorem Shifts.congr (h : Shifts H P dt dn w w') (ht : dt = dt') (hn : dn = dn') : Shifts H P dt' dn' w w' :=
  ht ▸ hn ▸ h

theorem amountAt_apply (a : Address) (n : Nat) (x : Address) :
    amountAt a n x = ((if x = a then n else 0 : Nat) : Int) := by
  rw [amountAt]
  split
  · rfl
  · rfl

theorem amountAt_self (a : Address) (n : Nat) : amountAt a n a = n := if_pos rfl

theorem amountAt_of_ne {a b : Address} (h : b ≠ a) (n : Nat) : amountAt a n b = 0 := if_neg h

theorem amountAt_zero (a : Address) : amountAt a 0 = 0 := by
  funext x
  simp [amountAt]

theorem amountAt_add (a : Address) (m n : Nat) : amountAt a (m + n) = amountAt a m + amountAt a n := by
  funext x
  simp only [amountAt, Pi.add_apply]
  split
  · exact Int.natCast_add m n
  · rfl

/-- What a payment by an account does to the balances of an account that neither pays
in the wrapped token's place nor receives. -/
theorem Paid.balances {payer a : Address} {p : Payment} (h : Paid V H P payer p w w') (hr : p.recipient ≠ a)
    (hw : V.wrappedNativeToken ≠ a) :
    (P.tokens w' a : Int) = P.tokens w a - amountAt payer p.amount.toNat a ∧ P.native w' a = P.native w a := by
  rcases h with ⟨-, k⟩ | ⟨-, k⟩
  · have ht := k.tokens a
    have hn := k.native a
    simp only [Pi.neg_apply, Pi.sub_apply, amountAt_of_ne hr.symm, amountAt_of_ne hw.symm] at ht hn
    omega
  · have ht := k.tokens a
    have hn := k.native a
    simp only [Pi.zero_apply, Pi.sub_apply, amountAt_of_ne hr.symm] at ht hn
    omega

theorem CalledBack.pool {p : Payment} (h : CalledBack V H P p w w') :
    P.tokens w' V.self = P.tokens w V.self ∧ P.native w' V.self = P.native w V.self := by
  rcases h with rfl | ⟨-, -, h⟩
  · exact ⟨rfl, rfl⟩
  · exact h

theorem Wrapped.refl (token : Address) (w : W) : Wrapped V H P token 0 w w := by
  refine (Shifts.refl w).congr ?_ ?_
  · rw [amountAt_zero, ite_self]
  · rw [amountAt_zero, amountAt_zero, sub_zero]

theorem Wrapped.trans {token : Address} {m n : Nat} (h : Wrapped V H P token m w w')
    (k : Wrapped V H P token n w' w'') :
    Wrapped V H P token (m + n) w w'' := by
  refine (Shifts.trans h k).congr ?_ ?_
  · split
    · exact (amountAt_add _ _ _).symm
    · exact add_zero 0
  · rw [amountAt_add, amountAt_add]
    abel

theorem Wrapped.pool {token : Address} {n : Nat} (h : Wrapped V H P token n w w') (hw : V.wrappedNativeToken ≠ V.self) :
    P.tokens w' V.self = P.tokens w V.self + (if token = V.wrappedNativeToken then n else 0) ∧
      P.native w' V.self + n = P.native w V.self := by
  have ht := h.tokens V.self
  have hn := h.native V.self
  simp only [Pi.sub_apply, amountAt_self, amountAt_of_ne hw.symm] at hn
  refine ⟨?_, by omega⟩
  split at ht
  · rename_i he
    rw [amountAt_self] at ht
    rw [if_pos he]
    omega
  · rename_i he
    rw [Pi.zero_apply] at ht
    rw [if_neg he]
    omega

end Shifts

section Steps

variable {V : Variant W} {H : Host W} {P : Purse W} {token : Address} {n : Nat} {o : Option Bytes32} {s s' : World W}
  {u : Unit} {amount : Uint256}

theorem safeTransfer_shifts (hA : PlainToken V H P token) {enter : Msg → Call → Code W Unit} {dst : Address}
    (h : Ok (safeTransfer H (externalCall H enter) o token dst amount) s u s') :
    Shifts H P (amountAt dst amount.toNat - amountAt V.self amount.toNat) 0 s.rest s'.rest := by
  simp only [safeTransfer, bind_ok, read_ok, require_ok] at h
  obtain ⟨_, _, ⟨rfl, rfl⟩, _, _, ⟨-, rfl⟩, h⟩ := h
  obtain ⟨w, hw, rfl⟩ := externalCall_halts (fun s => hA.transfer s dst amount) h
  exact hw

theorem safeTransferFrom_shifts (hA : PlainToken V H P token) {enter : Msg → Call → Code W Unit} {src dst : Address}
    (h : Ok (safeTransferFrom H (externalCall H enter) o token src dst amount) s u s') :
    Shifts H P (amountAt dst amount.toNat - amountAt src amount.toNat) 0 s.rest s'.rest := by
  simp only [safeTransferFrom, bind_ok, read_ok, require_ok] at h
  obtain ⟨_, _, ⟨rfl, rfl⟩, _, _, ⟨-, rfl⟩, h⟩ := h
  obtain ⟨w, hw, rfl⟩ := externalCall_halts (fun s => hA.transferFrom s src dst amount) h
  exact hw

theorem receive_shifts (hA : NativeCurrency V H P) {src : Address} {value : Nat}
    (h : Ok (enter H (exec V H n) ⟨src, value⟩ .receive) s u s') :
    Shifts H P 0 (amountAt V.self value - amountAt src value) s.rest s'.rest := by
  have hrun : ∀ t, Ok (exec V H n ⟨src, value⟩ .receive) t u s' → t = s' := by
    intro t ht
    cases n with
    | zero => exact ((revert_ok _ _ _ _).mp ht).elim
    | succ n => exact ((pure_ok _ _ _ _).mp (exec_dispatch ht)).2
  simp only [enter, bind_ok, read_ok] at h
  obtain ⟨_, _, ⟨rfl, rfl⟩, h⟩ := h
  split at h
  · exact ((revert_ok _ _ _ _).mp h).elim
  · rename_i w hw
    simp only [bind_ok, update_ok] at h
    obtain ⟨_, _, rfl, h⟩ := h
    obtain rfl := hrun _ h
    by_cases hv : value = 0
    · rw [if_pos hv] at hw
      obtain rfl := Option.some.inj hw
      refine (Shifts.refl s.rest).congr rfl ?_
      subst hv
      funext x
      simp [amountAt]
    · rw [if_neg hv] at hw
      exact hA.pay _ _ _ _ hw

theorem wrappedWithdraw_shifts (hA : Outside V H P token) (ht : token = V.wrappedNativeToken)
    (h : Ok (externalCall H (enter H (exec V H n)) o (.wrappedWithdraw amount)) s u s') :
    Shifts H P (-amountAt V.self amount.toNat)
      (amountAt V.self amount.toNat - amountAt V.wrappedNativeToken amount.toNat) s.rest s'.rest := by
  simp only [externalCall, bind_ok, update_ok, read_ok] at h
  obtain ⟨_, _, rfl, _, _, ⟨rfl, rfl⟩, h⟩ := h
  rcases hA.wrapped.withdraw ht { s with trace := s.trace ++ [.external o (.wrappedWithdraw amount)] } amount with
    ⟨w, hb⟩ | ⟨w, resume, hb, hburn, hresume⟩
  · rw [hb] at h
    exact ((revert_ok _ _ _ _).mp h).elim
  · rw [hb] at h
    simp only [runCallee, bind_ok, update_ok, read_ok] at h
    obtain ⟨_, _, rfl, r, t, hr, _, _, ⟨rfl, rfl⟩, h⟩ := h
    rcases (attempt_ok _ _ _ _).mp hr with ⟨v, rfl, hv⟩ | ⟨e, rfl, -, -⟩
    · change Ok (runCallee _ (resume true t)) t u s' at h
      rw [(hresume t).1] at h
      obtain rfl := (update_ok _ _ _ _).mp h
      exact (hburn.trans (receive_shifts hA.currency hv)).congr (add_zero _) (zero_add _)
    · obtain ⟨w', hw'⟩ := (hresume t).2
      change Ok (runCallee _ (resume false t)) t u s' at h
      rw [hw'] at h
      exact ((revert_ok _ _ _ _).mp h).elim

theorem sendValue_shifts (hA : NativeCurrency V H P) {enter : Msg → Call → Code W Unit} {dst : Address}
    (hc : H.isContract s.rest dst = false) (h : Ok (externalCall H enter o (.sendValue dst amount)) s u s') :
    Shifts H P 0 (amountAt dst amount.toNat - amountAt V.self amount.toNat) s.rest s'.rest := by
  simp only [externalCall, bind_ok, update_ok, read_ok] at h
  obtain ⟨_, _, rfl, _, _, ⟨rfl, rfl⟩, h⟩ := h
  obtain ⟨ok, w, hb, hw⟩ := hA.sendValue { s with trace := s.trace ++
    [.external o (.sendValue dst amount)] } dst amount hc
  rw [hb] at h
  cases ok with
  | false => exact ((revert_ok _ _ _ _).mp h).elim
  | true =>
      obtain rfl := (update_ok _ _ _ _).mp h
      exact hw rfl

end Steps

section Fills

variable {V : Variant W} {H : Host W} {P : Purse W} {n : Nat} {s s' : World W} {u : Unit} {msg : Msg}
  {call : Call}

def paymentOf (p : V3RelayExecutionParams) : Payment :=
  ⟨p.relay.outputToken, p.updatedOutputAmount, p.updatedRecipient, p.updatedMessage⟩

theorem unwrapwrappedNativeTokenTo_shifts {o : Option Bytes32} {dst : Address} {amount : Uint256}
    (hA : Outside V H P V.wrappedNativeToken)
    (h : Ok (unwrapwrappedNativeTokenTo V H (externalCall H (enter H (exec V H n))) o dst amount) s u s') :
    (H.isContract s.rest dst = true ∧
      Shifts H P (amountAt dst amount.toNat - amountAt V.self amount.toNat) 0 s.rest s'.rest) ∨
    (H.isContract s.rest dst = false ∧ Shifts H P (-amountAt V.self amount.toNat)
      (amountAt dst amount.toNat - amountAt V.wrappedNativeToken amount.toNat) s.rest s'.rest) := by
  simp only [unwrapwrappedNativeTokenTo, bind_ok, read_ok] at h
  obtain ⟨_, _, ⟨rfl, rfl⟩, h⟩ := h
  split at h
  · rename_i hc
    exact .inl ⟨hc, safeTransfer_shifts hA.plain h⟩
  · rename_i hc
    have hc := eq_false_of_ne_true hc
    obtain ⟨_, t, h₁, h₂⟩ := (bind_ok _ _ _ _ _).mp h
    have k₁ := wrappedWithdraw_shifts hA rfl h₁
    have k₂ := sendValue_shifts hA.currency (k₁.code ▸ hc) h₂
    exact .inr ⟨hc, (k₁.trans k₂).congr (add_zero _) (by abel)⟩

theorem unwrap_pays {o : Option Bytes32} {p : V3RelayExecutionParams} {payer : Address} {w : W}
    (hw : p.relay.outputToken = V.wrappedNativeToken) (hA : Outside V H P V.wrappedNativeToken)
    (k : Shifts H P (amountAt V.self p.updatedOutputAmount.toNat - amountAt payer p.updatedOutputAmount.toNat) 0
      w s.rest)
    (h : Ok (unwrapwrappedNativeTokenTo V H (externalCall H (enter H (exec V H n))) o p.updatedRecipient
      p.updatedOutputAmount) s u s') : Paid V H P payer (paymentOf p) w s'.rest := by
  rcases unwrapwrappedNativeTokenTo_shifts hA h with ⟨hc, k'⟩ | ⟨hc, k'⟩
  · refine .inr ⟨fun hin => ?_, (k.trans k').congr (by simp only [paymentOf]; abel) (add_zero 0)⟩
    have hcode : H.isContract w p.updatedRecipient = false := hin.2
    rw [← k.code, hc] at hcode
    cases hcode
  · have hcode : H.isContract w p.updatedRecipient = false := k.code ▸ hc
    exact .inl ⟨⟨hw, hcode⟩, (k.trans k').congr (by simp only [paymentOf]; abel) (zero_add _)⟩

theorem handOver_calls {o : Option Bytes32} {p : V3RelayExecutionParams} {enter : Msg → Call → Code W Unit}
    (hK : KeepsAway V H P p.updatedRecipient) (h : Ok (do
      let s ← read
      if 0 < p.updatedMessage.val.length ∧ H.isContract s.rest p.updatedRecipient = true then
        externalCall H enter o (.handleV3AcrossMessage p.updatedRecipient p.relay.outputToken
          p.updatedOutputAmount msg.sender p.updatedMessage)
      else pure () : Code W Unit) s u s') : CalledBack V H P (paymentOf p) s.rest s'.rest := by
  obtain ⟨_, _, hr, h⟩ := (bind_ok _ _ _ _ _).mp h
  obtain ⟨rfl, rfl⟩ := (read_ok _ _ _).mp hr
  split at h
  · rename_i hc
    obtain ⟨w, hw, rfl⟩ := externalCall_halts (fun s => hK.handle s _ _ _ _) h
    exact .inr ⟨hc.1, hc.2, hw⟩
  · obtain ⟨-, rfl⟩ := (pure_ok _ _ _ _).mp h
    exact .inl rfl

/-- Each combination of token, recipient and kind of fill takes the amount from where
it should and brings it to the recipient. -/
theorem payOut_pays {p : V3RelayExecutionParams} {isSlowFill : Bool} (hA : Outside V H P p.relay.outputToken)
    (hK : KeepsAway V H P p.updatedRecipient)
    (h : Ok (payOut V H (externalCall H (enter H (exec V H n))) msg p isSlowFill) s u s') :
    ∃ w, Paid V H P (if isSlowFill = true then V.self else msg.sender) (paymentOf p) s.rest w ∧
      CalledBack V H P (paymentOf p) w s'.rest := by
  unfold payOut at h
  dsimp only at h
  split at h
  · rename_i hw
    have hA' : Outside V H P V.wrappedNativeToken := hw ▸ hA
    cases isSlowFill with
    | false =>
        obtain ⟨_, t, h₁, h⟩ := (bind_ok _ _ _ _ _).mp h
        obtain ⟨_, t', h₂, h₃⟩ := (bind_ok _ _ _ _ _).mp h
        have k := safeTransferFrom_shifts hA.plain h₁
        exact ⟨t'.rest, unwrap_pays hw hA' k h₂, handOver_calls hK h₃⟩
    | true =>
        obtain ⟨_, t', h₂, h₃⟩ := (bind_ok _ _ _ _ _).mp h
        have k : Shifts H P
            (amountAt V.self p.updatedOutputAmount.toNat - amountAt V.self p.updatedOutputAmount.toNat) 0
            s.rest s.rest := (Shifts.refl s.rest).congr (sub_self _).symm rfl
        exact ⟨t'.rest, unwrap_pays hw hA' k h₂, handOver_calls hK h₃⟩
  · rename_i hw
    cases isSlowFill with
    | false =>
        obtain ⟨_, t, h₁, h₂⟩ := (bind_ok _ _ _ _ _).mp h
        exact ⟨t.rest, .inr ⟨fun hin => hw hin.1, safeTransferFrom_shifts hA.plain h₁⟩, handOver_calls hK h₂⟩
    | true =>
        obtain ⟨_, t, h₁, h₂⟩ := (bind_ok _ _ _ _ _).mp h
        exact ⟨t.rest, .inr ⟨fun hin => hw hin.1, safeTransfer_shifts hA.plain h₁⟩, handOver_calls hK h₂⟩

/-- The core of a fill: nothing for a relayer that fills for itself, else the payment. -/
theorem fillRelayV3_pays {p : V3RelayExecutionParams} {relayer : Address} {isSlowFill : Bool}
    (hA : Outside V H P p.relay.outputToken) (hK : KeepsAway V H P p.updatedRecipient)
    (h : Ok (fillRelayV3 V H (externalCall H (enter H (exec V H n))) msg call p relayer isSlowFill) s u s') :
    (msg.sender = p.updatedRecipient ∧ isSlowFill = false ∧ s'.rest = s.rest ∧
      ∃ t, s'.trace = s.trace ++ t ∧ ∀ o c, .external o c ∉ t) ∨
    (¬ (msg.sender = p.updatedRecipient ∧ isSlowFill = false) ∧
      ∃ w, Paid V H P (if isSlowFill = true then V.self else msg.sender) (paymentOf p) s.rest w ∧
        CalledBack V H P (paymentOf p) w s'.rest) := by
  simp only [fillRelayV3, setFillStatus, emit, bind_ok, read_ok, require_ok, update_ok] at h
  obtain ⟨_, _, ⟨rfl, rfl⟩, _, _, ⟨-, rfl⟩, _, _, ⟨-, rfl⟩, _, _, rfl, _, _, rfl, h⟩ := h
  split at h
  · rename_i hc
    obtain ⟨-, rfl⟩ := (pure_ok _ _ _ _).mp h
    refine .inl ⟨hc.1, hc.2, rfl, [.status p.relayHash (s.pool.fillStatuses p.relayHash) .filled, .event call _],
      List.append_assoc _ _ _, fun o c hmem => ?_⟩
    rcases List.mem_cons.mp hmem with hmem | hmem
    · cases hmem
    · cases List.mem_singleton.mp hmem
  · rename_i hc
    have hpays := payOut_pays hA hK h
    exact .inr ⟨hc, hpays⟩

theorem relayerPays_of_fill {p : V3RelayExecutionParams} {relayer : Address} (hA : Outside V H P p.relay.outputToken)
    (hK : KeepsAway V H P p.updatedRecipient) (hr : p.updatedRecipient ≠ V.self) (hs : msg.sender ≠ V.self)
    (h : Ok (fillRelayV3 V H (externalCall H (enter H (exec V H n))) msg call p relayer false) s u s') :
    RelayerPays V H P msg.sender (paymentOf p) s s' := by
  rcases fillRelayV3_pays hA hK h with ⟨hself, -, hrest, ht⟩ | ⟨hne, w, hpaid, hback⟩
  · refine ⟨by rw [hrest], by rw [hrest], fun _ => ⟨hrest, ht⟩, fun hne => absurd hself hne⟩
  · obtain ⟨ht, hn⟩ := hpaid.balances hr hA.wrapped.other
    obtain ⟨ht', hn'⟩ := hback.pool
    have hz : amountAt msg.sender p.updatedOutputAmount.toNat V.self = 0 := amountAt_of_ne hs.symm _
    refine ⟨?_, ?_, fun hself => absurd ⟨hself, rfl⟩ hne, fun _ => ⟨w, hpaid, hback⟩⟩
    · change (P.tokens w V.self : Int) =
        P.tokens s.rest V.self - amountAt msg.sender p.updatedOutputAmount.toNat V.self at ht
      omega
    · rw [hA.currency.pool, hA.currency.pool, hn', hn]

theorem relayer_pays {p : Payment} (hp : relayerFill call = some p) (hA : Outside V H P p.outputToken)
    (hK : KeepsAway V H P p.recipient) (hr : p.recipient ≠ V.self) (hs : msg.sender ≠ V.self)
    (h : Ok (exec V H n msg call) s () s') :
    RelayerPays V H P msg.sender p s s' := by
  cases n with
  | zero => exact ((revert_ok _ _ _ _).mp h).elim
  | succ n =>
      have hd := exec_dispatch h
      cases call with
      | fillV3Relay r c =>
          obtain rfl := Option.some.inj hp
          simp only [dispatch, fillV3Relay, checkExclusivity, bind_ok, read_ok, require_ok] at hd
          obtain ⟨_, _, ⟨_, _, ⟨rfl, rfl⟩, -, rfl⟩, hd⟩ := hd
          exact relayerPays_of_fill hA hK hr hs hd
      | fillV3RelayWithUpdatedDeposit r c d =>
          obtain rfl := Option.some.inj hp
          obtain ⟨t, hbody, rfl⟩ := nonReentrant_ok hd
          simp only [unpausedFills, checkExclusivity, verifyUpdateV3DepositMessage, bind_ok, read_ok,
            require_ok] at hbody
          obtain ⟨_, _, ⟨rfl, rfl⟩, _, _, ⟨-, rfl⟩, _, _, ⟨_, _, ⟨rfl, rfl⟩, -, rfl⟩, _, _, ⟨_, _, ⟨rfl, rfl⟩, -, rfl⟩,
            hbody⟩ := hbody
          obtain ⟨htokens, hnative, hown, hother⟩ := relayerPays_of_fill hA hK hr hs hbody
          exact ⟨htokens, hnative, hown, hother⟩
      | _ => cases hp

theorem hook_wraps {token : Address} (hA : Outside V H P token) {cs : List ExternalCall}
    (hc : ∀ c ∈ cs, ∃ amount : Uint256, c = .wrappedDeposit amount.toNat)
    (h : Ok (forEach (externalCall H (enter H (exec V H n)) none) cs) s () s') :
    ∃ value, Wrapped V H P token value s.rest s'.rest ∧ (cs = [] → value = 0) := by
  induction cs generalizing s with
  | nil =>
      obtain rfl := (forEach_nil_ok _ _ _ _).mp h
      exact ⟨0, .refl token _, fun _ => rfl⟩
  | cons c cs ih =>
      obtain ⟨t, h₁, h₂⟩ := (forEach_cons_ok _ _ _ _ _ _).mp h
      obtain ⟨amount, rfl⟩ := hc c List.mem_cons_self
      obtain ⟨w, hw, rfl⟩ := externalCall_halts (fun s => hA.wrapped.deposit s amount) h₁
      obtain ⟨value, hv, -⟩ := ih (fun d hd => hc d (List.mem_cons_of_mem _ hd)) h₂
      exact ⟨amount.toNat + value, Wrapped.trans hw hv, nofun⟩

theorem poolPays_of_paid {p : Payment} {value : Nat} {w w' : W} (hA : Outside V H P p.outputToken)
    (hr : p.recipient ≠ V.self) (hwrap : Wrapped V H P p.outputToken value s.rest w)
    (hnone : (∀ t, V.preExecuteLeafHook p.outputToken t = []) → value = 0) (hpaid : Paid V H P V.self p w w')
    (hback : CalledBack V H P p w' s'.rest) : PoolPays V H P p s s' := by
  obtain ⟨hwt, hwn⟩ := Wrapped.pool hwrap hA.wrapped.other
  obtain ⟨ht, hn⟩ := hpaid.balances hr hA.wrapped.other
  obtain ⟨ht', hn'⟩ := hback.pool
  rw [amountAt_self] at ht
  refine ⟨fun hne => ?_, fun he => ?_, value, w, w', hwrap, hnone, hpaid, hback⟩
  · rw [if_neg hne] at hwt
    omega
  · rw [if_pos he] at hwt
    rw [hA.currency.pool, hA.currency.pool]
    omega

theorem slow_pays {leaf : V3SlowFill} {rootBundleId : Uint32} {proof : List Bytes32}
    (hh : WrapsOnly V) (hA : Outside V H P leaf.relayData.outputToken) (hK : KeepsAway V H P leaf.relayData.recipient)
    (hr : leaf.relayData.recipient ≠ V.self)
    (h : Ok (exec V H n msg (.executeV3SlowRelayLeaf leaf rootBundleId proof)) s () s') :
    PoolPays V H P (slowFill leaf) s s' := by
  cases n with
  | zero => exact ((revert_ok _ _ _ _).mp h).elim
  | succ n =>
      obtain ⟨t, hbody, rfl⟩ := nonReentrant_ok (exec_dispatch h)
      simp only [bind_ok, read_ok] at hbody
      obtain ⟨_, _, ⟨rfl, rfl⟩, _, t₁, hhook, _, _, ⟨rfl, rfl⟩, hbody⟩ := hbody
      obtain ⟨value, hwrap, hnone⟩ := hook_wraps hA (hh _ _) hhook
      split at hbody
      · exact ((revert_ok _ _ _ _).mp hbody).elim
      · simp only [bind_ok, require_ok] at hbody
        obtain ⟨_, _, ⟨-, rfl⟩, hbody⟩ := hbody
        rcases fillRelayV3_pays hA hK hbody with ⟨-, hfast, -⟩ | ⟨-, w, hpaid, hback⟩
        · cases hfast
        · exact poolPays_of_paid (p := slowFill leaf) hA hr hwrap (fun hnil => hnone (hnil _)) hpaid hback

theorem enter_exec (hp : call.payable = false) (h : Ok (enter H (exec V H n) msg call) s () s') :
    Ok (exec V H n msg call) s () s' := by
  have hv : msg.value = 0 := by
    simp only [enter, bind_ok, read_ok] at h
    obtain ⟨_, _, ⟨rfl, rfl⟩, h⟩ := h
    split at h
    · exact ((revert_ok _ _ _ _).mp h).elim
    · simp only [bind_ok, update_ok] at h
      obtain ⟨_, _, rfl, h⟩ := h
      exact exec_value n h hp
  exact enter_ok hv h

/-- A fill by a relayer, on the original terms or on signed ones, leaves the pool's
balances as they were and has the relayer pay exactly the amount to exactly the
recipient, or moves nothing if they are the same. A slow fill pays exactly the amount
out of the pool. A fill that fails leaves everything as it was before the call. -/
theorem fills_pay_exactly (V : Variant W) (H : Host W) (P : Purse W) (n : Nat) :
    (∀ msg call p s r s', relayerFill call = some p → Outside V H P p.outputToken → KeepsAway V H P p.recipient →
      p.recipient ≠ V.self → msg.sender ≠ V.self → Ok (attempt (enter H (exec V H n) msg call)) s r s' →
      (r = .ok () ∧ RelayerPays V H P msg.sender p s s') ∨ ((∃ e, r = .error e) ∧ s' = s)) ∧
    ∀ msg leaf rootBundleId proof s r s', WrapsOnly V → Outside V H P leaf.relayData.outputToken →
      KeepsAway V H P leaf.relayData.recipient → leaf.relayData.recipient ≠ V.self →
      Ok (attempt (enter H (exec V H n) msg (.executeV3SlowRelayLeaf leaf rootBundleId proof))) s r s' →
      (r = .ok () ∧ PoolPays V H P (slowFill leaf) s s') ∨ ((∃ e, r = .error e) ∧ s' = s) := by
  constructor
  · intro msg call p s r s' hp hA hK hr hs h
    have hpay : call.payable = false := by
      cases call with
      | fillV3Relay | fillV3RelayWithUpdatedDeposit => rfl
      | _ => cases hp
    rcases (attempt_ok _ _ _ _).mp h with ⟨_, rfl, hok⟩ | ⟨e, rfl, -, rfl⟩
    · exact .inl ⟨rfl, relayer_pays hp hA hK hr hs (enter_exec hpay hok)⟩
    · exact .inr ⟨⟨e, rfl⟩, rfl⟩
  · intro msg leaf rootBundleId proof s r s' hh hA hK hr h
    rcases (attempt_ok _ _ _ _).mp h with ⟨_, rfl, hok⟩ | ⟨e, rfl, -, rfl⟩
    · exact .inl ⟨rfl, slow_pays hh hA hK hr (enter_exec rfl hok)⟩
    · exact .inr ⟨⟨e, rfl⟩, rfl⟩

end Fills

section Sample

open Erc20

/-- A pool at account 1 whose wrapped native token is account 2. -/
def sampleFillPool : Variant (Token Address × Token Address) where
  self := 1
  chainId := 10
  wrappedNativeToken := 2
  depositQuoteTimeBuffer := 3600
  fillDeadlineBuffer := 21600
  requireAdminSender msg _ := decide (msg.sender = 3)
  preExecuteLeafHook _ _ := []
  bridgeTokensToHubPool _ _ _ _ := .ok []

/-- The wrapped token and the native currency, each as a table of balances. -/
def samplePurse : Purse (Token Address × Token Address) :=
  ⟨fun w x => (w.1.balance x).toNat, fun w x => (w.2.balance x).toNat⟩

def haltWith {W : Type} (w : W) : Option W → Callee W
  | some w' => .halt true w'
  | none => .halt false w

def sampleFillHost : Host (Token Address × Token Address) where
  behave c s := match c with
    | .safeTransfer _ dst amount => haltWith s.rest ((s.rest.1.transfer 1 dst amount).map fun t => (t, s.rest.2))
    | .safeTransferFrom _ src dst amount => haltWith s.rest
        ((s.rest.1.transfer src dst amount).map fun t => (t, s.rest.2))
    | .wrappedDeposit value => haltWith s.rest do
        let t ← s.rest.1.mint 1 (BitVec.ofNat 256 value)
        let c ← s.rest.2.transfer 1 2 (BitVec.ofNat 256 value)
        some (t, c)
    | .wrappedWithdraw amount => match s.rest.1.burn 1 amount with
      | some t => .invoke (t, s.rest.2) ⟨2, amount.toNat⟩ .receive fun ok t => .halt ok t.rest
      | none => .halt false s.rest
    | .sendValue dst amount => haltWith s.rest ((s.rest.2.transfer 1 dst amount).map fun c => (s.rest.1, c))
    | _ => .halt true s.rest
  pay src value w :=
    if value < 2 ^ 256 then (w.2.transfer src 1 (BitVec.ofNat 256 value)).map fun c => (w.1, c) else none
  isContract _ a := decide (a = 2)
  nativeBalance w := (w.2.balance 1).toNat
  isValidSignatureNow _ _ _ _ := false

theorem transfer_delta {t t' : Token Address} {src dst : Address} {amount : Uint256}
    (h : t.transfer src dst amount = some t')
    (x : Address) : ((t'.balance x).toNat : Int) =
      (t.balance x).toNat + (amountAt dst amount.toNat - amountAt src amount.toNat) x := by
  have hx := (transfer_some h).2.2 x
  rw [Pi.sub_apply, amountAt_apply, amountAt_apply]
  omega

theorem tokens_shift {t t' c : Token Address} {src dst : Address} {amount : Uint256}
    (h : t.transfer src dst amount = some t') : Shifts sampleFillHost samplePurse
      (amountAt dst amount.toNat - amountAt src amount.toNat) 0 (t, c) (t', c) :=
  ⟨transfer_delta h, fun _ => (Int.add_zero _).symm, rfl⟩

theorem native_shift {t c c' : Token Address} {src dst : Address} {amount : Uint256}
    (h : c.transfer src dst amount = some c') : Shifts sampleFillHost samplePurse 0
      (amountAt dst amount.toNat - amountAt src amount.toNat) (t, c) (t, c') :=
  ⟨fun _ => (Int.add_zero _).symm, transfer_delta h, rfl⟩

theorem haltWith_halts {W : Type} {w : W} {o : Option W} {Q : W → Prop} (h : ∀ w', o = some w' → Q w') :
    ∃ ok w', haltWith w o = .halt ok w' ∧ (ok = true → Q w') := by
  cases o with
  | none => exact ⟨false, w, rfl, nofun⟩
  | some w' => exact ⟨true, w', rfl, fun _ => h w' rfl⟩

theorem sampleFillHost_plain : PlainToken sampleFillPool sampleFillHost samplePurse 2 where
  transfer s dst amount := haltWith_halts fun w h => by
    obtain ⟨t, ht, rfl⟩ := Option.map_eq_some_iff.mp h
    exact tokens_shift ht
  transferFrom s src dst amount := haltWith_halts fun w h => by
    obtain ⟨t, ht, rfl⟩ := Option.map_eq_some_iff.mp h
    exact tokens_shift ht

theorem sampleFillHost_currency : NativeCurrency sampleFillPool sampleFillHost samplePurse where
  pool _ := rfl
  pay src value w w' h := by
    simp only [sampleFillHost] at h
    split at h
    · rename_i hv
      obtain ⟨c, hc, rfl⟩ := Option.map_eq_some_iff.mp h
      have hn : (BitVec.ofNat 256 value).toNat = value := by rw [BitVec.toNat_ofNat, Nat.mod_eq_of_lt hv]
      have hs := native_shift (t := w.1) hc
      rw [hn] at hs
      exact hs
    · cases h
  sendValue s dst amount _ := haltWith_halts fun w h => by
    obtain ⟨c, hc, rfl⟩ := Option.map_eq_some_iff.mp h
    exact native_shift hc

theorem sampleFillHost_wrapped : WrappedToken sampleFillPool sampleFillHost samplePurse 2 where
  other := by decide
  deposit s amount := haltWith_halts fun w h => by
    obtain ⟨t, ht, h⟩ := Option.bind_eq_some_iff.mp h
    obtain ⟨c, hc, h⟩ := Option.bind_eq_some_iff.mp h
    obtain rfl := Option.some.inj h
    rw [BitVec.ofNat_toNat, BitVec.setWidth_eq] at ht hc
    refine ⟨fun x => ?_, transfer_delta hc, rfl⟩
    have hx := (mint_some ht).2 x
    rw [if_pos (show (2 : Address) = sampleFillPool.wrappedNativeToken from rfl), amountAt_apply]
    exact congrArg Nat.cast hx
  withdraw _ s amount := by
    simp only [sampleFillHost]
    cases hb : s.rest.1.burn 1 amount with
    | none => exact .inl ⟨s.rest, rfl⟩
    | some t =>
        refine .inr ⟨_, _, rfl, ⟨fun x => ?_, fun _ => (Int.add_zero _).symm, rfl⟩, fun t => ⟨rfl, t.rest, rfl⟩⟩
        have hx : (t.balance x).toNat + (if x = 1 then amount.toNat else 0) = (s.rest.1.balance x).toNat :=
          (burn_some hb).2 x
        rw [Pi.neg_apply, amountAt_apply]
        change ((t.balance x).toNat : Int) =
          (s.rest.1.balance x).toNat + -((if x = 1 then amount.toNat else 0 : Nat) : Int)
        omega

theorem sampleFillHost_outside : Outside sampleFillPool sampleFillHost samplePurse 2 :=
  ⟨sampleFillHost_plain, sampleFillHost_currency, sampleFillHost_wrapped⟩

theorem sampleFillHost_keepsAway (recipient : Address) :
    KeepsAway sampleFillPool sampleFillHost samplePurse recipient :=
  ⟨fun s _ _ _ _ => ⟨true, s.rest, rfl, fun _ => ⟨rfl, rfl⟩⟩⟩

/-- Account 8 fills a relay of 99 wrapped tokens for account 7, which has no code. -/
def sampleFill : Call := .fillV3Relay ⟨6, 7, 0, 4, 2, 100, 99, 1, 0, 2000, 0, ⟨[], nil_fits⟩⟩ 1

def sampleFillWorld : World (Token Address × Token Address) :=
  ⟨sampleStorage, 1000, (⟨500, fun a => if a = 8 then 150 else 0⟩, ⟨0, fun a => if a = 2 then 500 else 0⟩), []⟩

theorem sampleFill_pays : ∃ s',
    Ok (attempt (enter sampleFillHost (exec sampleFillPool sampleFillHost 2) ⟨8, 0⟩ sampleFill))
      sampleFillWorld (.ok ()) s' ∧
    RelayerPays sampleFillPool sampleFillHost samplePurse 8 ⟨2, 99, 7, ⟨[], nil_fits⟩⟩ sampleFillWorld s' := by
  have hok : ∃ s',
      Ok (enter sampleFillHost (exec sampleFillPool sampleFillHost 2) ⟨8, 0⟩ sampleFill) sampleFillWorld () s' := by
    exact exists_ok (by decide)
  obtain ⟨s', hok⟩ := hok
  have h := (attempt_ok _ _ _ _).mpr (.inl ⟨(), rfl, hok⟩)
  refine ⟨s', h, ?_⟩
  rcases (fills_pay_exactly sampleFillPool sampleFillHost samplePurse 2).1 ⟨8, 0⟩ sampleFill _ sampleFillWorld _ s' rfl
    sampleFillHost_outside (sampleFillHost_keepsAway 7) (by decide) (by decide) h with ⟨-, hpays⟩ | ⟨⟨e, he⟩, -⟩
  · exact hpays
  · cases he

end Sample

end Across.FillFunds
