import Across.Abi
import Across.Callbacks
import Across.Erc20

namespace Across.MulticallHandler

open WordBytes Abi CallExec CallExec.Exec Callbacks Erc20

structure Call where
  target : Address
  callData : Bytes
  value : Uint256

structure Instructions where
  calls : List Call
  fallbackRecipient : Address

inductive Event
  | callsFailed (calls : List Call) (fallbackRecipient : Address)
  | drainedTokens (recipient token : Address) (amount : Uint256)

inductive Error
  | callReverted (index : Nat) (calls : List Call)
  | notSelf
  | invalidCall (index : Nat) (calls : List Call)
  | reentrantCall
  | transferFailed
  | unableToSendValue
  | insufficientBalance
  | targetReverted
  | undecodable
  | nonPayable
  | callDepth

/-- The functions of the handler with their decoded arguments. -/
inductive HandlerCall
  | handleV3AcrossMessage (token : Address) (amount : Uint256) (relayer : Address) (message : Bytes)
  | attemptCalls (calls : List Call)
  | drainLeftoverTokens (token destination : Address)
  | receive
  | undecodable

structure Msg where
  sender : Address
  value : Nat

/-- All that is not the handler's: the ledgers of the tokens, the native currency of
the other accounts, and their storage. -/
structure Outside (W : Type) where
  tokens : Address → Token Address
  native : Address → Nat
  rest : W

/-- `balance` is the native currency of the handler, and `received` what others have
ever sent it. -/
structure HandlerState (W : Type) where
  entered : Bool
  balance : Nat
  received : Nat
  outside : Outside W
  log : List Event

/-- A call of the handler by an account that is not the handler. -/
structure Invocation (handler : Address) where
  sender : {a : Address // a ≠ handler}
  value : Nat
  call : HandlerCall

abbrev Target (handler : Address) (W : Type) := Behaviour (HandlerState W) (Outside W) (Invocation handler)

/-- The code of all other accounts, and how the handler reads calldata. -/
structure Host (handler : Address) (W : Type) where
  behave : Address → Nat → Bytes → HandlerState W → Target handler W
  codeLength : Outside W → Address → Nat
  decodeInstructions : Bytes → Option Instructions
  decodeCall : Bytes → HandlerCall

abbrev HandlerCode (W : Type) := Exec (HandlerState W) Empty Error

section Contract

-- `enter` is a call of the handler, by itself or by others.
variable {W : Type} {handler : Address} (H : Host handler W) (enter : Msg → HandlerCall → HandlerCode W Unit)

def emit (e : Event) : HandlerCode W Unit := update fun s => { s with log := s.log ++ [e] }

def setOutside (w : Outside W) : HandlerCode W Unit := update fun s => { s with outside := w }

def runTarget (t : Target handler W) : HandlerCode W Unit :=
  t.run (fun w s => { s with outside := w }) (fun i => enter ⟨i.sender.val, i.value⟩ i.call) .targetReverted

/-- The native currency that goes with a call to another account. -/
def sent (s : HandlerState W) (target : Address) (value : Nat) : HandlerState W :=
  { s with
    balance := s.balance - value
    outside := { s.outside with
      native := Function.update s.outside.native target (s.outside.native target + value) } }

/-- A low-level call of `target` with `value` and `callData`. -/
def messageCall (target : Address) (value : Nat) (callData : Bytes) : HandlerCode W Unit := do
  let s ← read
  require (value ≤ s.balance) .insufficientBalance
  if target = handler then enter ⟨handler, value⟩ (H.decodeCall callData)
  else do
    update fun s => sent s target value
    let s ← read
    runTarget enter (H.behave target value callData s)

def attemptFrom (calls : List Call) : Nat → List Call → HandlerCode W Unit
  | _, [] => pure ()
  | i, call :: rest => do
      let s ← read
      require (¬ (0 < call.callData.length ∧ H.codeLength s.outside call.target = 0)) (.invalidCall i calls)
      let success ← attempt (messageCall H enter call.target call.value.toNat call.callData)
      require (success.toBool = true) (.callReverted i calls)
      attemptFrom calls (i + 1) rest

def requireSelf (handler : Address) (msg : Msg) : HandlerCode W Unit := require (msg.sender = handler) .notSelf

def attemptCalls (msg : Msg) (calls : List Call) : HandlerCode W Unit := do
  requireSelf handler msg
  attemptFrom H enter calls 0 calls

def safeTransfer (handler token destination : Address) (amount : Uint256) : HandlerCode W Unit := do
  let s ← read
  match (s.outside.tokens token).transfer handler destination amount with
  | none => revert .transferFailed
  | some t => setOutside { s.outside with tokens := Function.update s.outside.tokens token t }

def sendValue (destination : Address) (amount : Nat) : HandlerCode W Unit := do
  let s ← read
  require (amount ≤ s.balance) .insufficientBalance
  let success ← attempt (messageCall H enter destination amount [])
  require (success.toBool = true) .unableToSendValue

def drainRemainingTokens (token destination : Address) : HandlerCode W Unit := do
  let s ← read
  if token ≠ 0 then do
    let amount := (s.outside.tokens token).balance handler
    when (0 < amount.toNat) do
      safeTransfer handler token destination amount
      emit (.drainedTokens destination token amount)
  else
    when (0 < s.balance) (sendValue H enter destination s.balance)

def drainLeftoverTokens (msg : Msg) (token destination : Address) : HandlerCode W Unit := do
  requireSelf handler msg
  drainRemainingTokens H enter token destination

def nonReentrant (m : HandlerCode W Unit) : HandlerCode W Unit := do
  let s ← read
  require (s.entered = false) .reentrantCall
  update fun s => { s with entered := true }
  m
  update fun s => { s with entered := false }

def handleV3AcrossMessage (token : Address) (message : Bytes) : HandlerCode W Unit := nonReentrant do
  match H.decodeInstructions message with
  | none => revert .undecodable
  | some instructions =>
      if instructions.fallbackRecipient = 0 then enter ⟨handler, 0⟩ (.attemptCalls instructions.calls)
      else do
        let success ← attempt (enter ⟨handler, 0⟩ (.attemptCalls instructions.calls))
        when (success.toBool = false) (emit (.callsFailed instructions.calls instructions.fallbackRecipient))
        drainRemainingTokens H enter token instructions.fallbackRecipient

/-- All functions but `receive` take no value. -/
def dispatch (msg : Msg) : HandlerCall → HandlerCode W Unit
  | .handleV3AcrossMessage token _ _ message => do
      require (msg.value = 0) .nonPayable
      handleV3AcrossMessage H enter token message
  | .attemptCalls calls => do
      require (msg.value = 0) .nonPayable
      attemptCalls H enter msg calls
  | .drainLeftoverTokens token destination => do
      require (msg.value = 0) .nonPayable
      drainLeftoverTokens H enter msg token destination
  | .receive => pure ()
  | .undecodable => revert .undecodable

end Contract

section System

variable {W : Type} {handler : Address} (H : Host handler W)

/-- What another account sends along with its call of the handler. -/
def credited (handler : Address) (msg : Msg) (s : HandlerState W) : HandlerState W :=
  if msg.sender = handler then s else { s with balance := s.balance + msg.value, received := s.received + msg.value }

/-- Execute a call of the handler with at most `n` further levels of calls. -/
def exec : Nat → Msg → HandlerCall → HandlerCode W Unit
  | 0, _, _ => revert .callDepth
  | n + 1, msg, call => do
      update (credited handler msg)
      dispatch H (exec n) msg call

end System

section Guard

variable {W : Type} {handler : Address} {H : Host handler W} {enter : Msg → HandlerCall → HandlerCode W Unit}
  {s s' : HandlerState W} {u : Unit} {msg : Msg}

/-- What calls by others do to a handler that is at work: they add to its balance. -/
structure Funded (s s' : HandlerState W) : Prop where
  entered : s'.entered = s.entered
  balance : s'.balance + s.received = s.balance + s'.received
  received : s.received ≤ s'.received
  log : s'.log = s.log

theorem Funded.refl (s : HandlerState W) : Funded s s := ⟨rfl, rfl, Nat.le_refl _, rfl⟩

theorem Funded.trans {s₁ : HandlerState W} (h : Funded s s₁) (k : Funded s₁ s') : Funded s s' := by
  have hb := h.balance
  have kb := k.balance
  exact ⟨k.entered.trans h.entered, by omega, h.received.trans k.received, k.log.trans h.log⟩

theorem credited_nothing (h : msg.value = 0) : credited handler msg s = s := by
  rw [credited, h]
  split <;> rfl

/-- While the handler is at work, others can only send it native currency. -/
theorem exec_by_others {n : Nat} {sender : {a : Address // a ≠ handler}} {value : Nat} {call : HandlerCall}
    (he : s.entered = true) (h : Ok (exec H n ⟨sender.val, value⟩ call) s u s') : Funded s s' := by
  cases n with
  | zero => exact ((revert_ok _ _ _ _).mp h).elim
  | succ n =>
      rw [exec, update_bind_ok] at h
      cases call with
      | handleV3AcrossMessage token amount relayer message =>
          simp only [dispatch, handleV3AcrossMessage, nonReentrant, require_bind_ok, read_bind_ok] at h
          obtain ⟨hz, hn, -⟩ := h
          rw [credited_nothing hz, he] at hn
          cases hn
      | attemptCalls calls =>
          simp only [dispatch, attemptCalls, requireSelf, require_bind_ok] at h
          exact absurd h.2.1 sender.property
      | drainLeftoverTokens token destination =>
          simp only [dispatch, drainLeftoverTokens, requireSelf, require_bind_ok] at h
          exact absurd h.2.1 sender.property
      | receive =>
          obtain ⟨-, rfl⟩ := (pure_ok _ _ _ _).mp h
          rw [credited, if_neg sender.property]
          exact ⟨rfl, by simp only; omega, Nat.le_add_right _ _, rfl⟩
      | undecodable => exact ((revert_ok _ _ _ _).mp h).elim

theorem runTarget_funded (henter : ∀ {sender : {a : Address // a ≠ handler}} {value call s u s'},
    s.entered = true → Ok (enter ⟨sender.val, value⟩ call) s u s' → Funded s s') {t : Target handler W}
    (he : s.entered = true) (h : Ok (runTarget enter t) s u s') : Funded s s' := by
  have hr : Respected (fun w s => { s with outside := w })
      (fun i : Invocation handler => enter ⟨i.sender.val, i.value⟩ i.call) (fun s => s.entered = true) Funded :=
    ⟨.refl, .trans, fun hs h => h.entered.trans hs, fun _ _ => ⟨rfl, rfl, Nat.le_refl _, rfl⟩, henter⟩
  exact hr.run he h

theorem messageCall_ok {target : Address} {value : Nat} {callData : Bytes} :
    Ok (messageCall H enter target value callData) s u s' ↔ value ≤ s.balance ∧
      ((target = handler ∧ Ok (enter ⟨handler, value⟩ (H.decodeCall callData)) s u s') ∨
        (target ≠ handler ∧ Ok (runTarget enter (H.behave target value callData (sent s target value)))
          (sent s target value) u s')) := by
  rw [messageCall, read_bind_ok, require_bind_ok]
  refine and_congr_right fun _ => ?_
  split
  · rename_i ht
    simp only [ht, true_and, ne_eq, not_true_eq_false, false_and, or_false]
  · rename_i ht
    simp only [ht, update_bind_ok, read_bind_ok, false_and, ne_eq, not_false_eq_true, true_and, false_or]

/-- Every call is made in its turn, and succeeds. -/
inductive InOrder (H : Host handler W) (enter : Msg → HandlerCall → HandlerCode W Unit) :
    List Call → HandlerState W → HandlerState W → Prop
  | nil (s : HandlerState W) : InOrder H enter [] s s
  | cons {call : Call} {rest : List Call} {s s₁ s' : HandlerState W}
      (hvalid : ¬ (0 < call.callData.length ∧ H.codeLength s.outside call.target = 0))
      (hcall : Ok (messageCall H enter call.target call.value.toNat call.callData) s () s₁)
      (hrest : InOrder H enter rest s₁ s') : InOrder H enter (call :: rest) s s'

theorem attemptFrom_ok {calls rest : List Call} {i : Nat} :
    Ok (attemptFrom H enter calls i rest) s () s' ↔ InOrder H enter rest s s' := by
  induction rest generalizing i s with
  | nil =>
      constructor
      · intro h
        obtain ⟨-, rfl⟩ := (pure_ok _ _ _ _).mp h
        exact .nil s
      · rintro ⟨⟩
        exact (pure_ok _ _ _ _).mpr ⟨rfl, rfl⟩
  | cons call rest ih =>
      rw [attemptFrom, read_bind_ok, require_bind_ok]
      constructor
      · rintro ⟨hvalid, h⟩
        obtain ⟨r, s₁, hr, h⟩ := (bind_ok _ _ _ _ _).mp h
        rw [require_bind_ok] at h
        rcases (attempt_ok _ _ _ _).mp hr with ⟨_, rfl, hok⟩ | ⟨_, rfl, -⟩
        · exact .cons hvalid hok (ih.mp h.2)
        · exact absurd h.1 nofun
      · rintro (_ | ⟨hvalid, hcall, hrest⟩)
        refine ⟨hvalid, (bind_ok _ _ _ _ _).mpr ⟨.ok (), _, (attempt_ok _ _ _ _).mpr (.inl ⟨(), rfl, hcall⟩), ?_⟩⟩
        rw [require_bind_ok]
        exact ⟨rfl, ih.mpr hrest⟩

/-- A handler that is at work stays so in whatever calls it makes and receives. -/
structure StaysEntered (handler : Address) (enter : Msg → HandlerCall → HandlerCode W Unit) : Prop where
  calls : ∀ {msg call} {s s' : HandlerState W} {u : Unit}, s.entered = true → Ok (enter msg call) s u s' →
    s'.entered = true
  others : ∀ {sender : {a : Address // a ≠ handler}} {value call} {s s' : HandlerState W} {u : Unit},
    s.entered = true → Ok (enter ⟨sender.val, value⟩ call) s u s' → Funded s s'

theorem messageCall_entered (hn : StaysEntered handler enter) {target : Address} {value : Nat}
    {callData : Bytes} (he : s.entered = true) (h : Ok (messageCall H enter target value callData) s u s') :
    s'.entered = true := by
  obtain ⟨-, ⟨-, h⟩ | ⟨-, h⟩⟩ := messageCall_ok.mp h
  · exact hn.calls he h
  · exact (runTarget_funded (s := sent s target value) hn.others he h).entered.trans he

theorem InOrder.entered (hn : StaysEntered handler enter) {calls : List Call}
    (h : InOrder H enter calls s s') (he : s.entered = true) : s'.entered = true := by
  induction h with
  | nil s => exact he
  | cons hvalid hcall hrest ih => exact ih (messageCall_entered hn he hcall)

/-- What draining does, whatever it drains and wherever to. -/
theorem drainRemainingTokens_ok {token destination : Address}
    (h : Ok (drainRemainingTokens H enter token destination) s () s') :
    (token ≠ 0 ∧ ((s.outside.tokens token).balance handler = 0 ∧ s' = s ∨
      ∃ t, (s.outside.tokens token).transfer handler destination ((s.outside.tokens token).balance handler) = some t ∧
        s' = { s with
          outside := { s.outside with tokens := Function.update s.outside.tokens token t }
          log := s.log ++ [.drainedTokens destination token ((s.outside.tokens token).balance handler)] })) ∨
    (token = 0 ∧ (s.balance = 0 ∧ s' = s ∨ Ok (messageCall H enter destination s.balance []) s () s')) := by
  rw [drainRemainingTokens, read_bind_ok] at h
  split at h
  · rename_i ht
    refine .inl ⟨ht, ?_⟩
    rcases (when_ok _ _ _ _ _).mp h with ⟨-, h⟩ | ⟨hz, rfl⟩
    · simp only [safeTransfer, bind_ok, read_ok] at h
      obtain ⟨_, s₁, ⟨_, _, ⟨rfl, rfl⟩, htransfer⟩, hemit⟩ := h
      split at htransfer
      · exact ((revert_ok _ _ _ _).mp htransfer).elim
      · rename_i t htr
        obtain rfl := (update_ok _ _ _ _).mp htransfer
        obtain rfl := (update_ok _ _ _ _).mp hemit
        exact .inr ⟨t, htr, rfl⟩
    · exact .inl ⟨BitVec.eq_of_toNat_eq (Nat.eq_zero_of_not_pos hz), rfl⟩
  · rename_i ht
    refine .inr ⟨not_not.mp ht, ?_⟩
    rcases (when_ok _ _ _ _ _).mp h with ⟨-, h⟩ | ⟨hz, rfl⟩
    · rw [sendValue, read_bind_ok, require_bind_ok] at h
      obtain ⟨-, h⟩ := h
      obtain ⟨r, s₁, hr, h⟩ := (bind_ok _ _ _ _ _).mp h
      obtain ⟨hs, rfl⟩ := (require_ok _ _ _ _ _).mp h
      rcases (attempt_ok _ _ _ _).mp hr with ⟨_, rfl, hok⟩ | ⟨_, rfl, -⟩
      · exact .inr hok
      · cases hs
    · exact .inl ⟨Nat.eq_zero_of_not_pos hz, rfl⟩

theorem drainRemainingTokens_entered (hn : StaysEntered handler enter) {token destination : Address}
    (he : s.entered = true) (h : Ok (drainRemainingTokens H enter token destination) s () s') : s'.entered = true := by
  rcases drainRemainingTokens_ok h with ⟨-, ⟨-, rfl⟩ | ⟨_, -, rfl⟩⟩ | ⟨-, ⟨-, rfl⟩ | hcall⟩
  · exact he
  · exact he
  · exact he
  · exact messageCall_entered hn he hcall

theorem exec_entered (H : Host handler W) (n : Nat) : StaysEntered handler (exec H n) := by
  induction n with
  | zero => exact ⟨fun _ h => ((revert_ok _ _ _ _).mp h).elim, fun he h => exec_by_others he h⟩
  | succ n ih =>
      refine ⟨fun {msg call s s' u} he h => ?_, fun he h => exec_by_others he h⟩
      rw [exec, update_bind_ok] at h
      have hcredited : (credited handler msg s).entered = true := by
        rw [credited]
        split <;> exact he
      cases call with
      | handleV3AcrossMessage token amount relayer message =>
          simp only [dispatch, handleV3AcrossMessage, nonReentrant, require_bind_ok, read_bind_ok] at h
          rw [hcredited] at h
          exact absurd h.2.1 nofun
      | attemptCalls calls =>
          simp only [dispatch, attemptCalls, requireSelf, require_bind_ok] at h
          exact (attemptFrom_ok.mp h.2.2).entered ih hcredited
      | drainLeftoverTokens token destination =>
          simp only [dispatch, drainLeftoverTokens, requireSelf, require_bind_ok] at h
          exact drainRemainingTokens_entered ih hcredited h.2.2
      | receive =>
          obtain ⟨-, rfl⟩ := (pure_ok _ _ _ _).mp h
          exact hcredited
      | undecodable => exact ((revert_ok _ _ _ _).mp h).elim

end Guard

section Drains

variable {W : Type} {handler : Address} {H : Host handler W} {enter : Msg → HandlerCall → HandlerCode W Unit}
  {s s' : HandlerState W} {token destination : Address}

/-- All that the handler holds of a token goes to the destination, and nothing else
changes hands. -/
structure TokenDrained (handler token destination : Address) (s s' : HandlerState W) : Prop where
  emptied : (s'.outside.tokens token).balance handler = 0
  paid : ((s'.outside.tokens token).balance destination).toNat =
    ((s.outside.tokens token).balance destination).toNat + ((s.outside.tokens token).balance handler).toNat
  others : ∀ a, a ≠ handler → a ≠ destination →
    (s'.outside.tokens token).balance a = (s.outside.tokens token).balance a
  outside : s'.outside = { s.outside with
    tokens := Function.update s.outside.tokens token (s'.outside.tokens token) }
  balance : s'.balance = s.balance

/-- All native currency goes to the destination, whose code runs on it. What the
handler has then is what it was sent meanwhile. -/
structure NativeDrained (H : Host handler W) (enter : Msg → HandlerCall → HandlerCode W Unit) (destination : Address)
    (s s' : HandlerState W) : Prop where
  paid : s.balance = 0 ∧ s' = s ∨ Ok (runTarget enter (H.behave destination s.balance []
    (sent s destination s.balance))) (sent s destination s.balance) () s'
  balance : s'.balance + s.received = s'.received

theorem tokenDrained (hd : destination ≠ handler) (ht : token ≠ 0)
    (h : Ok (drainRemainingTokens H enter token destination) s () s') :
    TokenDrained handler token destination s s' := by
  rcases drainRemainingTokens_ok h with ⟨-, ⟨hzero, rfl⟩ | ⟨t, htr, rfl⟩⟩ | ⟨hz, -⟩
  · refine ⟨hzero, ?_, fun _ _ _ => rfl, ?_, rfl⟩
    · rw [hzero]
      rfl
    · rw [Function.update_eq_self]
  · obtain ⟨-, -, hmoves⟩ := transfer_some htr
    have hafter : (Function.update s.outside.tokens token t) token = t := Function.update_self _ _ _
    refine ⟨?_, ?_, fun a hself hdest => ?_, ?_, rfl⟩
    · have hhandler := hmoves handler
      rw [if_pos rfl, if_neg hd.symm] at hhandler
      change ((Function.update s.outside.tokens token t) token).balance handler = 0
      rw [hafter]
      apply BitVec.eq_of_toNat_eq
      change _ = 0
      omega
    · have hdestination := hmoves destination
      rw [if_neg hd, if_pos rfl, Nat.add_zero] at hdestination
      change (((Function.update s.outside.tokens token t) token).balance destination).toNat = _
      rw [hafter, hdestination]
    · have hother := hmoves a
      rw [if_neg hself, if_neg hdest] at hother
      change ((Function.update s.outside.tokens token t) token).balance a = _
      rw [hafter]
      exact BitVec.eq_of_toNat_eq hother
    · change _ = { s.outside with
        tokens := Function.update s.outside.tokens token ((Function.update s.outside.tokens token t) token) }
      rw [hafter]
  · exact absurd hz ht

theorem nativeDrained (hn : StaysEntered handler enter) (hd : destination ≠ handler)
    (he : s.entered = true) (h : Ok (drainRemainingTokens H enter 0 destination) s () s') :
    NativeDrained H enter destination s s' := by
  rcases drainRemainingTokens_ok h with ⟨hz, -⟩ | ⟨-, ⟨hzero, rfl⟩ | hcall⟩
  · exact absurd rfl hz
  · exact ⟨.inl ⟨hzero, rfl⟩, by omega⟩
  · obtain ⟨-, ⟨hself, -⟩ | ⟨-, hok⟩⟩ := messageCall_ok.mp hcall
    · exact absurd hself hd
    · have hfunded := (runTarget_funded (s := sent s destination s.balance) hn.others he hok).balance
      simp only [sent, Nat.sub_self, Nat.zero_add] at hfunded
      exact ⟨.inr hok, hfunded⟩

end Drains

section Messages

variable {W : Type} {handler : Address} {H : Host handler W} {n : Nat} {s s' : HandlerState W} {msg : Msg}
  {token : Address} {calls : List Call} {message : Bytes}

def entering (s : HandlerState W) : HandlerState W := { s with entered := true }

def leaving (s : HandlerState W) : HandlerState W := { s with entered := false }

/-- All calls succeed in their order, with `n` levels of calls for the handler's call
of itself. -/
def CallsExecuted (H : Host handler W) (n : Nat) (calls : List Call) (s s' : HandlerState W) : Prop :=
  ∃ k, n = k + 1 ∧ InOrder H (exec H k) calls s s'

theorem attemptCalls_ok : Ok (exec H n ⟨handler, 0⟩ (.attemptCalls calls)) s () s' ↔ CallsExecuted H n calls s s' := by
  cases n with
  | zero => exact ⟨fun h => ((revert_ok _ _ _ _).mp h).elim, fun ⟨_, h, _⟩ => nomatch h⟩
  | succ n =>
      rw [exec, update_bind_ok, credited, if_pos rfl]
      simp only [dispatch, attemptCalls, requireSelf, require_bind_ok, true_and, attemptFrom_ok]
      constructor
      · exact fun h => ⟨n, rfl, h⟩
      · rintro ⟨k, hk, h⟩
        cases hk
        exact h

theorem nonReentrant_ok {m : HandlerCode W Unit} (h : Ok (nonReentrant m) s () s') :
    s.entered = false ∧ ∃ s₁, Ok m (entering s) () s₁ ∧ s' = leaving s₁ := by
  rw [nonReentrant, read_bind_ok, require_bind_ok, update_bind_ok] at h
  obtain ⟨he, h⟩ := h
  obtain ⟨_, s₁, hm, hleave⟩ := (bind_ok _ _ _ _ _).mp h
  exact ⟨he, s₁, hm, ((update_ok _ _ _ _).mp hleave).symm⟩

/-- A message that succeeds, taken apart into the decoding, the body, and the guard
around it. -/
theorem handleV3AcrossMessage_ok {amount : Uint256} {relayer : Address}
    (h : Ok (exec H (n + 1) msg (.handleV3AcrossMessage token amount relayer message)) s () s') :
    ∃ i s₂, H.decodeInstructions message = some i ∧ s' = leaving s₂ ∧
      ((i.fallbackRecipient = 0 ∧ CallsExecuted H n i.calls (entering s) s₂) ∨
        (i.fallbackRecipient ≠ 0 ∧ ∃ s₁,
          (CallsExecuted H n i.calls (entering s) s₁ ∨ (∀ x, ¬ CallsExecuted H n i.calls (entering s) x) ∧
            s₁ = { entering s with log := s.log ++ [.callsFailed i.calls i.fallbackRecipient] }) ∧
          Ok (drainRemainingTokens H (exec H n) token i.fallbackRecipient) s₁ () s₂)) := by
  rw [exec, update_bind_ok, dispatch, require_bind_ok] at h
  obtain ⟨hz, h⟩ := h
  rw [credited_nothing hz] at h
  obtain ⟨-, s₂, hbody, rfl⟩ := nonReentrant_ok h
  clear h
  split at hbody
  · exact ((revert_ok _ _ _ _).mp hbody).elim
  · rename_i i hi
    refine ⟨i, s₂, hi, rfl, ?_⟩
    split at hbody
    · rename_i hf
      exact .inl ⟨hf, attemptCalls_ok.mp hbody⟩
    · rename_i hf
      refine .inr ⟨hf, ?_⟩
      obtain ⟨r, s₁, hr, hrest⟩ := (bind_ok _ _ _ _ _).mp hbody
      obtain ⟨_, s₃, hlog, hdrain⟩ := (bind_ok _ _ _ _ _).mp hrest
      rcases (attempt_ok _ _ _ _).mp hr with ⟨_, rfl, hok⟩ | ⟨_, rfl, hrev, rfl⟩
      · rcases (when_ok _ _ _ _ _).mp hlog with ⟨hfalse, -⟩ | ⟨-, rfl⟩
        · cases hfalse
        · exact ⟨s₁, .inl (attemptCalls_ok.mp hok), hdrain⟩
      · rcases (when_ok _ _ _ _ _).mp hlog with ⟨-, hlog⟩ | ⟨hne, -⟩
        · obtain rfl := (update_ok _ _ _ _).mp hlog
          refine ⟨_, .inr ⟨fun x hx => ?_, rfl⟩, hdrain⟩
          exact (reverts_iff _ _).mp ⟨_, hrev⟩ () x (attemptCalls_ok.mpr hx)
        · exact absurd rfl hne

/-- A message with a fallback executes all its calls in order or leaves no effect of
them, and what is left of the delivered token goes to the fallback. A message without
one has no effect at all unless all calls succeed. -/
theorem handleV3AcrossMessage_settles (H : Host handler W) (n : Nat) (msg : Msg) (token : Address) (amount : Uint256)
    (relayer : Address) (message : Bytes) (i : Instructions) (hi : H.decodeInstructions message = some i)
    (s s' : HandlerState W) (r : Except Error Unit)
    (h : Ok (attempt (exec H (n + 1) msg (.handleV3AcrossMessage token amount relayer message))) s r s') :
    (i.fallbackRecipient ≠ 0 → i.fallbackRecipient ≠ handler → r = .ok () → ∃ s₁ s₂, s' = leaving s₂ ∧
      (CallsExecuted H n i.calls (entering s) s₁ ∨ (∀ x, ¬ CallsExecuted H n i.calls (entering s) x) ∧
        s₁ = { entering s with log := s.log ++ [.callsFailed i.calls i.fallbackRecipient] }) ∧
      (token ≠ 0 → TokenDrained handler token i.fallbackRecipient s₁ s₂) ∧
      (token = 0 → NativeDrained H (exec H n) i.fallbackRecipient s₁ s₂)) ∧
    (i.fallbackRecipient = 0 → (r = .ok () ∧ ∃ s₁, CallsExecuted H n i.calls (entering s) s₁ ∧ s' = leaving s₁) ∨
      ((∃ e, r = .error e) ∧ s' = s)) := by
  rcases (attempt_ok _ _ _ _).mp h with ⟨_, rfl, hok⟩ | ⟨e, rfl, -, rfl⟩
  · obtain ⟨j, s₂, hj, rfl, hbody⟩ := handleV3AcrossMessage_ok hok
    obtain rfl := Option.some.inj (hi.symm.trans hj)
    constructor
    · intro hf hself _
      rcases hbody with ⟨hzero, -⟩ | ⟨-, s₁, hcalls, hdrain⟩
      · exact absurd hzero hf
      · refine ⟨s₁, s₂, rfl, hcalls, fun ht => tokenDrained hself ht hdrain, ?_⟩
        rintro rfl
        have hentered : s₁.entered = true := by
          rcases hcalls with ⟨k, -, hin⟩ | ⟨-, rfl⟩
          · exact hin.entered (exec_entered H k) rfl
          · rfl
        exact nativeDrained (exec_entered H n) hself hentered hdrain
    · intro hzero
      rcases hbody with ⟨-, hcalls⟩ | ⟨hf, -⟩
      · exact .inl ⟨rfl, s₂, hcalls, rfl⟩
      · exact absurd hzero hf
  · exact ⟨fun _ _ => nofun, fun _ => .inr ⟨⟨e, rfl⟩, rfl⟩⟩

end Messages

section Samples

def sampleToken (left taken : Uint256) : Token Address :=
  ⟨5, fun a => if a = 9 then left else if a = 7 then taken else 0⟩

/-- Account 7 takes 2 tokens of the handler 9, once it has seen that it cannot call it. -/
def sampleHost : Host 9 Unit where
  behave target _ _ s :=
    if target = 7 then
      .invoke s.outside ⟨⟨7, by decide⟩, 0, .handleV3AcrossMessage 5 0 0 []⟩ fun ok s =>
        .halt (!ok) { s.outside with tokens := fun _ => sampleToken 3 2 }
    else .halt true s.outside
  codeLength _ a := if a = 7 then 1 else 0
  decodeInstructions _ := some ⟨[⟨7, [1], 0⟩], 8⟩
  decodeCall _ := .undecodable

def sampleState : HandlerState Unit := ⟨false, 0, 0, ⟨fun _ => sampleToken 5 0, fun _ => 0, ()⟩, []⟩

theorem sampleMessage_runs : ∃ s', Ok (attempt (exec sampleHost 3 ⟨1, 0⟩ (.handleV3AcrossMessage 5 5 0 []))) sampleState
    (.ok ()) s' := ⟨_, rfl⟩

theorem sampleMessage_settles : ∃ s', Ok (attempt (exec sampleHost 3 ⟨1, 0⟩ (.handleV3AcrossMessage 5 5 0 [])))
    sampleState (.ok ()) s' ∧ (s'.outside.tokens 5).balance 9 = 0 := by
  obtain ⟨s', hs⟩ := sampleMessage_runs
  obtain ⟨hfallback, -⟩ := handleV3AcrossMessage_settles sampleHost 2 ⟨1, 0⟩ 5 5 0 [] ⟨[⟨7, [1], 0⟩], 8⟩ rfl
    sampleState s' (.ok ()) hs
  obtain ⟨s₁, s₂, rfl, -, htoken, -⟩ := hfallback (by decide) (by decide) rfl
  exact ⟨_, hs, (htoken (by decide)).emptied⟩

end Samples

end Across.MulticallHandler
