import Across.SpokeBooks
import Across.PausedFills

namespace Across.AdminMessages

open Abi Keccak CallExec CallExec.Exec SpokeTypes SpokeState SpokePool SpokeRules SpokeBooks

variable {W : Type}

inductive Chain
  | ethereum
  | arbitrum
  | polygon
deriving DecidableEq

/-- The addition wraps around. -/
def applyL1ToL2Alias (l1Address : Address) : Address := l1Address + 0x1111000000000000000000000000000000001111

def requireAdminSender : Chain → Msg → World W → Bool
  | .ethereum, msg, s => decide (s.pool.owner = msg.sender)
  | .arbitrum, msg, s => decide (msg.sender = applyL1ToL2Alias s.pool.crossDomainAdmin)
  | .polygon, _, s => s.pool.callValidated

/-- The loop of `_validateMulticallData` on Polygon. Slicing the selector off an
empty entry reverts. -/
def separatesLeaves (hasOtherPublicFunctionCall hasExecutedLeafCall : Bool) : List Call → Bool
  | [] => true
  | .executeRelayerRefundLeaf .. :: data =>
      !hasOtherPublicFunctionCall && separatesLeaves hasOtherPublicFunctionCall true data
  | .receive :: _ => false
  | _ :: data => !hasExecutedLeafCall && separatesLeaves true hasExecutedLeafCall data

/-- The pool of a chain. Its immutables and its hooks for tokens are those of `V`. -/
def chainPool (c : Chain) (V : Variant W) : Variant W := { V with
  requireAdminSender := requireAdminSender c
  validateMulticallData := match c with
    | .polygon => separatesLeaves false false
    | _ => fun _ => true
  hasFxChild := decide (c = .polygon) }

/-- `initialize` on the empty storage of a new proxy. The owner is only ever
written by the constructor, which runs on the storage of the implementation. -/
def spokePoolInit (c : Chain) (initialDepositId : Uint32)
    (crossDomainAdmin withdrawalRecipient fxChild polygonTokenBridger : Address) : Except Error Storage :=
  let admin := if c = .ethereum then withdrawalRecipient else crossDomainAdmin
  if admin = 0 then .error .invalidCrossDomainAdmin
  else if withdrawalRecipient = 0 then .error .invalidWithdrawalRecipient
  else .ok {
    crossDomainAdmin := admin
    withdrawalRecipient := withdrawalRecipient
    numberOfDeposits := initialDepositId
    pausedFills := false
    pausedDeposits := false
    rootBundles := []
    enabledDepositRoutes := fun _ _ => false
    fillStatuses := fun _ => .unfilled
    owner := 0
    entered := false
    hashedName := keccak256 (utf8 "ACROSS-V2")
    hashedVersion := keccak256 (utf8 "1.0.0")
    callValidated := false
    fxChild := if c = .polygon then fxChild else 0
    polygonTokenBridger := if c = .polygon then polygonTokenBridger else 0 }

section Messages

/-- The messages that the hub pool relays: `relayRootBundle` when it executes a
root bundle, `setEnableRoute` from `setDepositRoute`, and the others from
`relaySpokePoolAdminFunction`. -/
def isRelayed : Call → Bool
  | .relayRootBundle _ _ | .setEnableRoute _ _ _ | .pauseDeposits _ | .pauseFills _ | .setCrossDomainAdmin _
  | .setWithdrawalRecipient _ | .emergencyDeleteRootBundle _ => true
  | _ => false

def isRoute : Call → Bool
  | .setEnableRoute _ _ _ => true
  | _ => false

/-- The functions for the hub pool alone, with the two that only Polygon has. -/
def isAdmin : Call → Bool
  | .setFxChild _ | .setPolygonTokenBridger _ => true
  | m => isRelayed m

def passes (V : Variant W) (msg : Msg) (s : World W) : Call → Bool
  | .setEnableRoute _ _ _ => decide (s.pool.owner = msg.sender)
  | .setFxChild _ | .setPolygonTokenBridger _ => V.hasFxChild && V.requireAdminSender msg s
  | _ => V.requireAdminSender msg s

def accepted (p : Storage) : Call → Bool
  | .setCrossDomainAdmin a | .setWithdrawalRecipient a => decide (a ≠ 0)
  | .emergencyDeleteRootBundle i => decide (i.toNat < p.rootBundles.length)
  | _ => true

def effect (p : Storage) : Call → Storage
  | .relayRootBundle r sl => { p with rootBundles := p.rootBundles ++ [⟨sl, r, fun _ => 0⟩] }
  | .setEnableRoute t c e => { p with
      enabledDepositRoutes := Function.update p.enabledDepositRoutes t
        (Function.update (p.enabledDepositRoutes t) c e) }
  | .pauseDeposits b => { p with pausedDeposits := b }
  | .pauseFills b => { p with pausedFills := b }
  | .setCrossDomainAdmin a => { p with crossDomainAdmin := a }
  | .setWithdrawalRecipient a => { p with withdrawalRecipient := a }
  | .emergencyDeleteRootBundle i => { p with
      rootBundles := p.rootBundles.modify i.toNat fun b => ⟨0, 0, b.claimedBitmap⟩ }
  | .setFxChild a => { p with fxChild := a }
  | .setPolygonTokenBridger a => { p with polygonTokenBridger := a }
  | _ => p

def announced (p : Storage) : Call → Event
  | .relayRootBundle r sl => .relayedRootBundle (BitVec.ofNat 32 p.rootBundles.length) r sl
  | .setEnableRoute t c e => .enabledDepositRoute t c e
  | .pauseDeposits b => .pausedDeposits b
  | .pauseFills b => .pausedFills b
  | .setCrossDomainAdmin a => .setXDomainAdmin a
  | .setWithdrawalRecipient a => .setWithdrawalRecipient a
  | .emergencyDeleteRootBundle i => .emergencyDeleteRootBundle i
  | .setFxChild a => .setFxChild a
  | .setPolygonTokenBridger a => .setPolygonTokenBridger a
  | _ => .pausedDeposits false

theorem effect_guards (p : Storage) (m : Call) : SameGuards p (effect p m) := by
  cases m <;> exact ⟨rfl, rfl, rfl, rfl⟩

variable {V : Variant W} {H : Host W} {ext : Option Bytes32 → ExternalCall → Code W Unit}
  {self : Call → Code W Unit} {msg : Msg} {m : Call} {s s' : World W} {n : Nat}

theorem isAdmin_of_isRelayed (h : isRelayed m = true) : isAdmin m = true := by
  cases m with
  | setFxChild _ | setPolygonTokenBridger _ => rfl
  | _ => exact h

theorem onlyAdmin_ok_iff {c : Code W Unit} :
    Ok (onlyAdmin V msg c) s () s' ↔ V.requireAdminSender msg s = true ∧ Ok c s () s' := by
  simp only [onlyAdmin, bind_ok, read_ok, require_ok]
  constructor
  · rintro ⟨_, _, ⟨rfl, rfl⟩, _, _, ⟨ha, rfl⟩, h⟩
    exact ⟨ha, h⟩
  · rintro ⟨ha, h⟩
    exact ⟨_, _, ⟨rfl, rfl⟩, (), _, ⟨ha, rfl⟩, h⟩

theorem onlyOwner_ok_iff {c : Code W Unit} :
    Ok (onlyOwner msg c) s () s' ↔ s.pool.owner = msg.sender ∧ Ok c s () s' := by
  simp only [onlyOwner, bind_ok, read_ok, require_ok]
  constructor
  · rintro ⟨_, _, ⟨rfl, rfl⟩, _, _, ⟨ha, rfl⟩, h⟩
    exact ⟨ha, h⟩
  · rintro ⟨ha, h⟩
    exact ⟨_, _, ⟨rfl, rfl⟩, (), _, ⟨ha, rfl⟩, h⟩

theorem effect_entered (p : Storage) (m : Call) :
    { effect { p with entered := true } m with entered := false } = { effect p m with entered := false } := by
  cases m <;> rfl

theorem effect_validated {p : Storage} (hp : p.callValidated = false) (m : Call) :
    { effect { p with callValidated := true } m with callValidated := false } = effect p m := by
  obtain ⟨_, _, _, _, _, _, _, _, _, _, _, _, v, _, _⟩ := p
  obtain rfl : v = false := hp
  cases m <;> rfl

theorem entered_effect (p : Storage) (m : Call) : (effect p m).entered = p.entered := by
  cases m <;> rfl

theorem accepted_entered (p : Storage) (m : Call) : accepted { p with entered := true } m = accepted p m := by
  cases m <;> rfl

theorem accepted_validated (p : Storage) (m : Call) : accepted { p with callValidated := true } m = accepted p m := by
  cases m <;> rfl

theorem announced_entered (p : Storage) (m : Call) : announced { p with entered := true } m = announced p m := by
  cases m <;> rfl

theorem nonReentrant_admin {c : Code W Unit} (hc : ∀ t t', Ok c t () t' ↔ accepted t.pool m = true ∧
      { t with pool := effect t.pool m, trace := t.trace ++ [.event m (announced t.pool m)] } = t') :
    Ok (nonReentrant c) s () s' ↔ s.pool.entered = false ∧ accepted s.pool m = true ∧
      { s with pool := effect s.pool m, trace := s.trace ++ [.event m (announced s.pool m)] } = s' := by
  have hsame : s.pool.entered = false →
      { effect { s.pool with entered := true } m with entered := false } = effect s.pool m := by
    intro h
    rw [effect_entered, ← h, ← entered_effect s.pool m]
  simp only [nonReentrant, setPool, bind_ok, read_ok, require_ok, update_ok]
  constructor
  · rintro ⟨_, _, ⟨rfl, rfl⟩, _, _, ⟨hs, rfl⟩, _, _, rfl, _, t, ht, rfl⟩
    obtain ⟨ha, rfl⟩ := (hc _ _).mp ht
    rw [accepted_entered] at ha
    exact ⟨hs, ha, by simp only [hsame hs, announced_entered]⟩
  · rintro ⟨hs, ha, rfl⟩
    rw [← accepted_entered] at ha
    refine ⟨_, _, ⟨rfl, rfl⟩, (), _, ⟨hs, rfl⟩, (), _, rfl, (), _, (hc _ _).mpr ⟨ha, rfl⟩, ?_⟩
    simp only [hsame hs, announced_entered]

/-- An admin function does what it is for when its check passes and it takes its
arguments, and otherwise it reverts. -/
theorem dispatch_admin (hm : isAdmin m = true) :
    Ok (dispatch V H ext self msg m m) s () s' ↔ passes V msg s m = true ∧ s.pool.entered = false ∧
      accepted s.pool m = true ∧
      { s with pool := effect s.pool m, trace := s.trace ++ [.event m (announced s.pool m)] } = s' := by
  cases m with
  | relayRootBundle r sl =>
      simp only [dispatch, onlyAdmin_ok_iff, passes]
      refine and_congr_right' (nonReentrant_admin fun t t' => ?_)
      simp [relayRootBundle, setPool, emit, accepted, effect, announced]
  | pauseDeposits b | pauseFills b =>
      simp only [dispatch, onlyAdmin_ok_iff, passes]
      refine and_congr_right' (nonReentrant_admin fun t t' => ?_)
      simp [setPool, emit, accepted, effect, announced]
  | setCrossDomainAdmin a | setWithdrawalRecipient a =>
      simp only [dispatch, onlyAdmin_ok_iff, passes]
      refine and_congr_right' (nonReentrant_admin fun t t' => ?_)
      simp [setCrossDomainAdmin, setWithdrawalRecipient, setPool, emit, accepted, effect, announced]
  | emergencyDeleteRootBundle i =>
      simp only [dispatch, onlyAdmin_ok_iff, passes]
      refine and_congr_right' (nonReentrant_admin fun t t' => ?_)
      simp [emergencyDeleteRootBundle, setPool, emit, accepted, effect, announced]
  | setEnableRoute t c e =>
      simp only [dispatch, onlyOwner_ok_iff, passes, decide_eq_true_eq]
      refine and_congr_right' (nonReentrant_admin fun t t' => ?_)
      simp [setEnableRoute, setPool, emit, accepted, effect, announced]
  | setFxChild a | setPolygonTokenBridger a =>
      simp only [dispatch, passes, Bool.and_eq_true]
      cases hf : V.hasFxChild with
      | false => simp
      | true =>
          simp only [if_true, onlyAdmin_ok_iff, true_and]
          refine and_congr_right' (nonReentrant_admin fun t t' => ?_)
          simp [setFxChild, setPolygonTokenBridger, setPool, emit, accepted, effect, announced]
  | _ => cases hm

theorem exec_admin (hm : isAdmin m = true) (hv : msg.value = 0) :
    Ok (exec V H (n + 1) msg m) s () s' ↔ passes V msg s m = true ∧ s.pool.entered = false ∧
      accepted s.pool m = true ∧
      { s with pool := effect s.pool m, trace := s.trace ++ [.event m (announced s.pool m)] } = s' := by
  rw [← dispatch_admin hm]
  constructor
  · exact exec_dispatch
  · intro h
    refine (record_ok _ _ _ _ _).mpr ((bind_ok _ _ _ _ _).mpr ⟨(), s, ?_, h⟩)
    exact (require_ok _ _ _ _ _).mpr ⟨.inl hv, rfl⟩

def callless : Guarantee (World W) (Frame W) where
  rel _ _ := True
  frame _ := False
  refl _ := trivial
  trans _ _ := trivial

theorem callless_rules (V : Variant W) (H : Host W) : Rules V H callless :=
  (Free.sound ⟨fun _ _ => trivial, fun _ _ => trivial, fun _ _ => trivial, fun _ _ => trivial⟩
    fun _ _ _ => trivial).rules fun _ => trivial

/-- An admin function looks at nothing but the storage, so its calls into other
accounts and into the pool itself can be taken to be none. -/
theorem dispatch_admin_callless (hm : isAdmin m = true) :
    KeepsAt callless (dispatch V H ext self msg m m) s := by
  have heq : dispatch V H ext self msg m m =
      dispatch V H (externalCall H fun _ _ => revert .panic) (fun _ => revert .panic) msg m m := by
    cases m with
    | relayRootBundle _ _ | setEnableRoute _ _ _ | pauseDeposits _ | pauseFills _ | setCrossDomainAdmin _
    | setWithdrawalRecipient _ | emergencyDeleteRootBundle _ | setFxChild _ | setPolygonTokenBridger _ => rfl
    | _ => cases hm
  rw [heq]
  refine dispatch_keeps (callless_rules V H) (fun _ _ => Keeps.revert _) (fun _ => Keeps.revert _)
    ⟨⟨msg, m, s, .error .panic⟩, trivial, rfl, rfl, rfl⟩ ?_
  rintro root data rfl
  cases hm

theorem exec_admin_frames (hm : isAdmin m = true) {r : Frame W} (hr : r ∈ (exec V H n msg m s).frames) :
    r.msg = msg ∧ r.call = m ∧ r.pre = s := by
  cases n with
  | zero => exact absurd hr List.not_mem_nil
  | succ n =>
      rcases List.mem_cons.mp hr with rfl | hr
      · exact ⟨rfl, rfl, rfl⟩
      · have hd : KeepsAt callless (do
            require (msg.value = 0 ∨ m.payable = true) (.message "")
            dispatch V H (externalCall H (enter H (exec V H n))) (exec V H n msg) msg m m : Code W Unit) s :=
          Keeps.bind_at (Keeps.require _ _ s) fun _ _ _ => dispatch_admin_callless hm
        exact (hd.frames (fun _ _ => trivial) trivial r hr).elim

end Messages

section Runs

variable {V : Variant W} {H : Host W} {n : Nat} {msg : Msg} {s s' : World W} {fs : List (Frame W)} {c : Chain}

/-- The call of record `q` is the FxChild's, and brings a message that the hub pool
sent on the root chain. -/
def FromRoot (q : Frame W) (data : Call) : Prop :=
  q.call = .processMessageFromRoot q.pre.pool.crossDomainAdmin data ∧ q.msg.sender = q.pre.pool.fxChild

def validated (s : World W) : World W := { s with pool := { s.pool with callValidated := true } }

/-- The call of record `r` is the delegatecall for a message of the hub pool. -/
def Inside (fs : List (Frame W)) (r : Frame W) : Prop :=
  ∃ q ∈ fs, FromRoot q r.call ∧ q.msg = r.msg ∧ r.pre = validated q.pre

/-- The promise that nobody is the owner, and that the validation flag is only set
for the call that a message of the hub pool is about. -/
def governed (fs : List (Frame W)) : Guarantee (World W) (Frame W) where
  rel _ _ := True
  frame r := r.pre.pool.owner = 0 ∧ (r.pre.pool.callValidated = false ∨ Inside fs r)
  refl _ := trivial
  trans _ _ := trivial
  given r := r ∈ fs
  base s := s.pool.owner = 0 ∧ s.pool.callValidated = false

theorem governed_free (fs : List (Frame W)) : Free (governed fs) where
  base h hb := ⟨h.owner.trans hb.1, h.callValidated.trans hb.2⟩
  rest _ _ := trivial
  pool _ _ := trivial
  trace _ _ := trivial

section Process

variable {self : Call → Code W Unit} {call data : Call} {root : Address}

theorem processMessageFromRoot_ok : Ok (processMessageFromRoot self msg call root data) s () s' ↔
    s.pool.callValidated = false ∧ msg.sender = s.pool.fxChild ∧ root = s.pool.crossDomainAdmin ∧
      ∃ t, Ok (self data) (validated s) () t ∧ { t with
        pool := { t.pool with callValidated := false }
        trace := t.trace ++ [.event call (.receivedMessageFromL1 msg.sender root)] } = s' := by
  simp only [processMessageFromRoot, validateInternalCalls, setPool, bind_ok, read_ok, require_ok, update_ok]
  constructor
  · rintro ⟨_, _, ⟨rfl, rfl⟩, _, _, ⟨hv, rfl⟩, _, _, rfl, _, _, ⟨_, _, ⟨rfl, rfl⟩, _, _, ⟨hf, rfl⟩, _, _, ⟨ha, rfl⟩,
      r, t, hr, h⟩, rfl⟩
    refine ⟨hv, hf, ha, t, ?_⟩
    rcases (attempt_ok _ _ _ _).mp hr with ⟨_, rfl, ht⟩ | ⟨e, rfl, -⟩
    · obtain rfl := (update_ok _ _ _ _).mp h
      exact ⟨ht, rfl⟩
    · exact ((revert_ok _ _ _ _).mp h).elim
  · rintro ⟨hv, hf, ha, t, ht, rfl⟩
    refine ⟨s, s, ⟨rfl, rfl⟩, (), s, ⟨hv, rfl⟩, (), validated s, rfl, (), { t with
      trace := t.trace ++ [.event call (.receivedMessageFromL1 msg.sender root)] }, ?_, rfl⟩
    refine ⟨_, _, ⟨rfl, rfl⟩, (), _, ⟨hf, rfl⟩, (), _, ⟨ha, rfl⟩, .ok (), t, ?_, ?_⟩
    · exact (attempt_ok _ _ _ _).mpr (.inl ⟨(), rfl, ht⟩)
    · exact (update_ok _ _ _ _).mpr rfl

theorem processMessageFromRoot_frames {r : Frame W}
    (hr : r ∈ (processMessageFromRoot self msg call root data s).frames) :
    msg.sender = s.pool.fxChild ∧ root = s.pool.crossDomainAdmin ∧ r ∈ (self data (validated s)).frames := by
  obtain ⟨-, hr⟩ := mem_frames_require_bind (frames_read_bind _ s ▸ hr)
  rw [setPool, frames_update_bind] at hr
  rcases mem_frames_bind hr with hr | ⟨_, _, -, hr⟩
  · obtain ⟨hf, hr⟩ := mem_frames_require_bind (frames_read_bind _ (validated s) ▸ hr)
    obtain ⟨ha, hr⟩ := mem_frames_require_bind hr
    rcases mem_frames_bind hr with hr | ⟨x, _, -, hr⟩
    · exact ⟨hf, ha, frames_attempt (self data) _ ▸ hr⟩
    · cases x <;> exact absurd hr List.not_mem_nil
  · exact absurd hr List.not_mem_nil

theorem mem_processMessageFromRoot_frames {r : Frame W} (hv : s.pool.callValidated = false)
    (hf : msg.sender = s.pool.fxChild) (ha : root = s.pool.crossDomainAdmin)
    (hr : r ∈ (self data (validated s)).frames) : r ∈ (processMessageFromRoot self msg call root data s).frames := by
  rw [processMessageFromRoot, validateInternalCalls, frames_read_bind]
  apply frames_bind_right ((require_ok _ _ _ _ ()).mpr ⟨hv, rfl⟩)
  rw [setPool, frames_update_bind]
  apply frames_bind_left
  rw [frames_read_bind]
  apply frames_bind_right ((require_ok _ _ _ _ ()).mpr ⟨hf, rfl⟩)
  apply frames_bind_right ((require_ok _ _ _ _ ()).mpr ⟨ha, rfl⟩)
  apply frames_bind_left
  rw [frames_attempt]
  exact hr

end Process

/-- What the chain promises about the calls of the pool: the zero address makes
none, and the hub pool relays nothing but admin functions. -/
structure Ordinary (fs : List (Frame W)) : Prop where
  sender : ∀ r ∈ fs, r.msg.sender ≠ 0
  relayed : ∀ q ∈ fs, ∀ data, FromRoot q data → isAdmin data = true

theorem process_governed (ho : Ordinary fs) {q : Frame W} (hq : q ∈ fs) {root : Address} {data : Call}
    (hc : q.call = .processMessageFromRoot root data) :
    KeepsAt (governed fs) (processMessageFromRoot (exec V H n q.msg) q.msg q.call root data) q.pre := by
  refine ⟨fun _ _ => trivial, fun h _ hb => ?_, fun _ hb r hr => ?_⟩
  · obtain ⟨-, hf, rfl, t, ht, rfl⟩ := processMessageFromRoot_ok.mp h
    have hm := ho.relayed q hq data ⟨hc, hf⟩
    cases n with
    | zero => exact ((revert_ok _ _ _ _).mp ht).elim
    | succ n =>
        obtain ⟨-, -, -, rfl⟩ := (dispatch_admin hm).mp (exec_dispatch ht)
        exact ⟨(effect_guards _ data).owner.trans hb.1, rfl⟩
  · obtain ⟨hf, rfl, hin⟩ := processMessageFromRoot_frames hr
    obtain ⟨hmsg, hcall, hpre⟩ := exec_admin_frames (ho.relayed q hq data ⟨hc, hf⟩) hin
    refine ⟨?_, .inr ⟨q, hq, ⟨?_, hf⟩, hmsg.symm, hpre⟩⟩
    · rw [hpre]
      exact hb.1
    · rw [hcall]
      exact hc

theorem governed_rules (V : Variant W) (H : Host W) (ho : Ordinary fs) : Rules V H (governed fs) where
  base := (governed_free fs).base
  rest _ _ := trivial
  external _ _ := trivial
  guard _ _ := trivial
  set _ _ := trivial
  request _ _ := trivial
  fill _ _ _ _ _ _ _ _ _ _ _ _ _ := trivial
  books _ _ _ _ _ _ _ _ := trivial
  owner {f s _} hf h hb := absurd (h.symm.trans hb.1) (ho.sender f hf)
  process {n msg root data s} _ h := by
    obtain ⟨q, hq, rfl, hc, rfl⟩ := h
    rw [← hc]
    exact process_governed ho hq hc

theorem run_governed {V : Variant W} {H : Host W} {n : Nat} {inputs : List (Input W)}
    (ho : Ordinary (run V H n inputs s).frames) :
    KeepsAt (governed (run V H n inputs s).frames) (run V H n inputs) s := by
  have hG := governed_rules V H ho
  exact run_keeps (H := H) hG.base hG.rest (fun _ _ => trivial)
    (exec_keeps hG (fun _ _ _ _ hb _ => ⟨hb.1, .inl hb.2⟩) n) inputs s

end Runs

section Delivery

/-- The sender and the call that the pool sees when the bridge of its chain brings
it a message of the hub pool. On Ethereum the hub pool makes the call itself. -/
def delivered (c : Chain) (hubPool : Address) (p : Storage) (m : Call) : Msg × Call :=
  match c with
  | .ethereum => (⟨hubPool, 0⟩, m)
  | .arbitrum => (⟨applyL1ToL2Alias hubPool, 0⟩, m)
  | .polygon => (⟨p.fxChild, 0⟩, .processMessageFromRoot hubPool m)

def deliver (c : Chain) (V : Variant W) (H : Host W) (n : Nat) (hubPool : Address) (p : Storage) (m : Call) :
    Code W Unit :=
  enter H (exec (chainPool c V) H n) (delivered c hubPool p m).1 (delivered c hubPool p m).2

/-- The message passes the check of its function, and the function does what it
is for. -/
structure TakesEffect (c : Chain) (V : Variant W) (H : Host W) (n : Nat) (hubPool : Address) (m : Call)
    (s : World W) : Prop where
  passes : ∃ r ∈ (deliver c V H n hubPool s.pool m s).frames, r.call = m ∧ passes (chainPool c V) r.msg r.pre m = true
  effect : ∃ s', Ok (deliver c V H n hubPool s.pool m) s () s' ∧ s'.pool = effect s.pool m

/-- The call of record `r` is the hub pool's, by way of the bridge. -/
def FromHub (c : Chain) (hubPool : Address) (fs : List (Frame W)) (r : Frame W) : Prop :=
  match c with
  | .ethereum => r.msg.sender = hubPool
  | .arbitrum => r.msg.sender = applyL1ToL2Alias r.pre.pool.crossDomainAdmin
  | .polygon => Inside fs r

variable {c : Chain} {V : Variant W} {H : Host W} {n : Nat} {hubPool : Address} {m : Call} {s : World W}

theorem sender_of_passes (hm : isAdmin m = true) {msg : Msg} (hp : passes (chainPool c V) msg s m = true) :
    s.pool.owner = msg.sender ∨ isRoute m = false ∧ requireAdminSender c msg s = true := by
  cases m with
  | setEnableRoute t d e => exact .inl (of_decide_eq_true hp)
  | setFxChild a | setPolygonTokenBridger a => exact .inr ⟨rfl, (Bool.and_eq_true _ _ ▸ hp).2⟩
  | relayRootBundle _ _ | pauseDeposits _ | pauseFills _ | setCrossDomainAdmin _ | setWithdrawalRecipient _
  | emergencyDeleteRootBundle _ => exact .inr ⟨rfl, hp⟩
  | _ => cases hm

theorem passes_of_admin (hm : isRelayed m = true) (hr : isRoute m = false) {msg : Msg}
    (ha : requireAdminSender c msg s = true) : passes (chainPool c V) msg s m = true := by
  cases m with
  | setEnableRoute t d e => cases hr
  | relayRootBundle _ _ | pauseDeposits _ | pauseFills _ | setCrossDomainAdmin _ | setWithdrawalRecipient _
  | emergencyDeleteRootBundle _ => exact ha
  | _ => cases hm

theorem passes_from_hub {fs : List (Frame W)} (ho : Ordinary fs) {r : Frame W} (hr : r ∈ fs)
    (hg : (governed fs).frame r) (hm : isAdmin r.call = true)
    (hp : passes (chainPool c V) r.msg r.pre r.call = true) : FromHub c hubPool fs r := by
  have hown : r.pre.pool.owner ≠ r.msg.sender := fun h => ho.sender r hr (h.symm.trans hg.1)
  rcases sender_of_passes hm hp with h | ⟨-, h⟩
  · exact absurd h hown
  · cases c with
    | ethereum => exact absurd (of_decide_eq_true h) hown
    | arbitrum => exact of_decide_eq_true (p := r.msg.sender = _) h
    | polygon =>
        rcases hg.2 with hv | hi
        · exact absurd (hv.symm.trans h) nofun
        · exact hi

theorem frames_deliver : (deliver c V H n hubPool s.pool m s).frames =
    (exec (chainPool c V) H n (delivered c hubPool s.pool m).1 (delivered c hubPool s.pool m).2 s).frames := by
  rw [deliver, enter_free]
  cases c <;> rfl

theorem deliver_ok {s' : World W} : Ok (deliver c V H n hubPool s.pool m) s () s' ↔
    Ok (exec (chainPool c V) H n (delivered c hubPool s.pool m).1 (delivered c hubPool s.pool m).2) s () s' := by
  rw [Ok, deliver, enter_free, Ok]
  cases c <;> rfl

theorem mem_exec_frames (V : Variant W) (H : Host W) (n : Nat) (msg : Msg) (call : Call) (s : World W) :
    ⟨msg, call, s, (exec V H (n + 1) msg call s).result.map Prod.snd⟩ ∈ (exec V H (n + 1) msg call s).frames :=
  List.mem_cons_self

/-- The delegatecall that the Polygon pool makes for a message. -/
theorem mem_deliver_polygon (hval : s.pool.callValidated = false) {r : Frame W}
    (hr : r ∈ (exec (chainPool .polygon V) H n ⟨s.pool.fxChild, 0⟩ m (validated s)).frames) :
    r ∈ (deliver .polygon V H (n + 1) s.pool.crossDomainAdmin s.pool m s).frames := by
  rw [frames_deliver]
  apply List.mem_cons_of_mem
  refine frames_bind_right (a := ()) ((require_ok _ _ s s ()).mpr ⟨.inl rfl, rfl⟩) ?_
  exact mem_processMessageFromRoot_frames hval rfl rfl hr

/-- A pool between two transactions, in which nobody is the owner. -/
structure Idle (p : Storage) : Prop where
  owner : p.owner = 0
  callValidated : p.callValidated = false
  entered : p.entered = false

theorem spokePoolInit_idle {i : Uint32} {admin recipient fxChild bridger : Address} {p : Storage}
    (h : spokePoolInit c i admin recipient fxChild bridger = .ok p) : Idle p := by
  unfold spokePoolInit at h
  dsimp only at h
  generalize (if c = .ethereum then recipient else admin) = a at h
  split at h
  · cases h
  · split at h
    · cases h
    · obtain rfl := Except.ok.inj h
      exact ⟨rfl, rfl, rfl⟩

theorem direct_takesEffect_iff (hs : Idle s.pool) (hm : isRelayed m = true) {msg : Msg}
    (hd : delivered c hubPool s.pool m = (msg, m)) (hv : msg.value = 0)
    (hz : msg.sender ≠ 0) : TakesEffect c V H (n + 1) hubPool m s ↔
      isRoute m = false ∧ requireAdminSender c msg s = true ∧ accepted s.pool m = true := by
  have hok : ∀ s', Ok (deliver c V H (n + 1) hubPool s.pool m) s () s' ↔
      Ok (exec (chainPool c V) H (n + 1) msg m) s () s' := by
    intro s'
    rw [deliver_ok, hd]
  constructor
  · rintro ⟨-, s', h, -⟩
    obtain ⟨hp, -, ha, -⟩ := (exec_admin (isAdmin_of_isRelayed hm) hv).mp ((hok s').mp h)
    rcases sender_of_passes (isAdmin_of_isRelayed hm) hp with h | ⟨hr, h⟩
    · exact absurd (h.symm.trans hs.owner) hz
    · exact ⟨hr, h, ha⟩
  · rintro ⟨hr, h, ha⟩
    have hp : passes (chainPool c V) msg s m = true := passes_of_admin hm hr h
    have hx := (exec_admin (H := H) (n := n) (isAdmin_of_isRelayed hm) hv).mpr ⟨hp, hs.entered, ha, rfl⟩
    have hfr : (deliver c V H (n + 1) hubPool s.pool m s).frames = (exec (chainPool c V) H (n + 1) msg m s).frames := by
      rw [frames_deliver, hd]
    have hmem := mem_exec_frames (chainPool c V) H n msg m s
    rw [← hfr] at hmem
    exact ⟨⟨_, hmem, rfl, hp⟩, _, (hok _).mpr hx, rfl⟩

/-- A message that the pool sees as a delegatecall under the validation flag. -/
theorem polygon_takesEffect_iff (hs : Idle s.pool) (hm : isRelayed m = true)
    (hhub : s.pool.crossDomainAdmin = hubPool) (hz : s.pool.fxChild ≠ 0) :
    TakesEffect .polygon V H (n + 2) hubPool m s ↔ isRoute m = false ∧ accepted s.pool m = true := by
  obtain rfl := hhub
  have hok : ∀ s', Ok (deliver .polygon V H (n + 2) s.pool.crossDomainAdmin s.pool m) s () s' ↔
      Ok (processMessageFromRoot (exec (chainPool .polygon V) H (n + 1) ⟨s.pool.fxChild, 0⟩) ⟨s.pool.fxChild, 0⟩
        (.processMessageFromRoot s.pool.crossDomainAdmin m) s.pool.crossDomainAdmin m) s () s' := by
    intro s'
    rw [deliver_ok]
    refine ⟨exec_dispatch, fun h => (record_ok _ _ _ _ _).mpr ((bind_ok _ _ _ _ _).mpr ⟨(), s, ?_, h⟩)⟩
    exact (require_ok _ _ _ _ _).mpr ⟨.inl rfl, rfl⟩
  have hadm := isAdmin_of_isRelayed hm
  constructor
  · rintro ⟨-, s', h, -⟩
    obtain ⟨-, -, -, t, ht, -⟩ := processMessageFromRoot_ok.mp ((hok s').mp h)
    obtain ⟨hp, -, ha, -⟩ := (exec_admin hadm rfl).mp ht
    rcases sender_of_passes hadm hp with h | ⟨hr, -⟩
    · exact absurd (h.symm.trans hs.owner) hz
    · exact ⟨hr, (accepted_validated s.pool m).symm.trans ha⟩
  · rintro ⟨hr, ha⟩
    have hp : passes (chainPool .polygon V) ⟨s.pool.fxChild, 0⟩ (validated s) m = true := passes_of_admin hm hr rfl
    have ht := (exec_admin (V := chainPool .polygon V) (H := H) (n := n) hadm rfl).mpr
      ⟨hp, hs.entered, (accepted_validated s.pool m).trans ha, rfl⟩
    have hmem := mem_deliver_polygon hs.callValidated (mem_exec_frames (chainPool .polygon V) H n
      ⟨s.pool.fxChild, 0⟩ m (validated s))
    exact ⟨⟨_, hmem, rfl, hp⟩, _, (hok _).mpr (processMessageFromRoot_ok.mpr ⟨hs.callValidated, rfl, rfl, _, ht, rfl⟩),
      effect_validated hs.callValidated m⟩

theorem takesEffect_iff (hs : Idle s.pool) (hm : isRelayed m = true)
    (hhub : c ≠ .ethereum → s.pool.crossDomainAdmin = hubPool) (hz : (delivered c hubPool s.pool m).1.sender ≠ 0) :
    TakesEffect c V H (n + 2) hubPool m s ↔ c ≠ .ethereum ∧ isRoute m = false ∧ accepted s.pool m = true := by
  cases c with
  | ethereum =>
      have hne : requireAdminSender .ethereum ⟨hubPool, 0⟩ s = false := by
        apply decide_eq_false
        intro h
        exact hz (h.symm.trans hs.owner)
      have hd : delivered .ethereum hubPool s.pool m = (⟨hubPool, 0⟩, m) := rfl
      rw [direct_takesEffect_iff hs hm hd rfl hz, hne]
      simp
  | arbitrum =>
      have ha : requireAdminSender .arbitrum ⟨applyL1ToL2Alias hubPool, 0⟩ s = true := by
        simp only [requireAdminSender, hhub nofun, decide_true]
      have hd : delivered .arbitrum hubPool s.pool m = (⟨applyL1ToL2Alias hubPool, 0⟩, m) := rfl
      rw [direct_takesEffect_iff hs hm hd rfl hz, ha]
      simp
  | polygon =>
      rw [polygon_takesEffect_iff hs hm (hhub nofun) hz]
      simp

/-- The messages of the hub pool take effect on Arbitrum and on Polygon, and none
does on Ethereum: the pool there asks for its owner, which is the zero address
behind a proxy. `setEnableRoute` asks for the owner on every chain. -/
theorem admin_messages_take_effect_iff (c : Chain) (V : Variant W) (H : Host W) (n k : Nat) {i : Uint32}
    {admin recipient fxChild bridger : Address} {inputs : List (Input W)} {s₀ s : World W}
    (hi : spokePoolInit c i admin recipient fxChild bridger = .ok s₀.pool)
    (hr : Ok (run (chainPool c V) H n inputs) s₀ () s)
    (ho : Ordinary (run (chainPool c V) H n inputs s₀).frames) (hubPool : Address) :
    (∀ r ∈ (run (chainPool c V) H n inputs s₀).frames, isAdmin r.call = true →
      passes (chainPool c V) r.msg r.pre r.call = true →
        FromHub c hubPool (run (chainPool c V) H n inputs s₀).frames r) ∧
    ∀ (time : Nat) (m : Call), isRelayed m = true → (c ≠ .ethereum → s.pool.crossDomainAdmin = hubPool) →
      (delivered c hubPool s.pool m).1.sender ≠ 0 →
      (TakesEffect c V H (k + 2) hubPool m { s with time := time } ↔
        c ≠ .ethereum ∧ isRoute m = false ∧ accepted s.pool m = true) := by
  have h₀ := spokePoolInit_idle hi
  have hg := run_governed ho
  refine ⟨fun r hrec => ?_, fun time m hm hhub hz => ?_⟩
  · exact passes_from_hub ho hrec (hg.frames (fun _ h => h) ⟨h₀.owner, h₀.callValidated⟩ r hrec)
  · have hb := hg.base hr (fun _ h => h) ⟨h₀.owner, h₀.callValidated⟩
    have hs : Idle s.pool := ⟨hb.1, hb.2, (run_booked hr).entered.trans h₀.entered⟩
    exact takesEffect_iff (s := { s with time := time }) hs hm hhub hz

end Delivery

section Sample

open PausedFills

def sampleStart (c : Chain) : World Unit where
  pool := match spokePoolInit c 0 5 6 8 9 with
    | .ok p => p
    | .error _ => sampleWorld.pool
  time := 0
  rest := ()
  trace := []

theorem sampleStart_init (c : Chain) : spokePoolInit c 0 5 6 8 9 = .ok (sampleStart c).pool := by
  cases c <;> rfl

def samplePause : List (Input Unit) := [.transact 1 ⟨8, 0⟩ (.processMessageFromRoot 5 (.pauseFills true))]

theorem samplePause_ordinary :
    Ordinary (run (chainPool .polygon samplePool) willing 2 samplePause (sampleStart .polygon)).frames := by
  obtain ⟨q, r, hfs, hq, hr, hqc, hrc⟩ : ∃ q r,
      (run (chainPool .polygon samplePool) willing 2 samplePause (sampleStart .polygon)).frames = [q, r] ∧
        q.msg.sender = 8 ∧ r.msg.sender = 8 ∧ q.call = .processMessageFromRoot 5 (.pauseFills true) ∧
        r.call = .pauseFills true := ⟨_, _, rfl, rfl, rfl, rfl, rfl⟩
  rw [hfs]
  constructor
  · intro x hx
    rcases List.mem_pair.mp hx with rfl | rfl
    · rw [hq]
      decide
    · rw [hr]
      decide
  · rintro x hx data ⟨hc, -⟩
    rcases List.mem_pair.mp hx with rfl | rfl
    · rw [hqc] at hc
      injection hc with _ hd
      rw [← hd]
      rfl
    · rw [hrc] at hc
      cases hc

/-- A Polygon pool that has been told to stop fills can be told to allow them. -/
theorem samplePause_takes_effect : ∃ s,
    Ok (run (chainPool .polygon samplePool) willing 2 samplePause) (sampleStart .polygon) () s ∧
      s.pool.pausedFills = true ∧ TakesEffect .polygon samplePool willing 2 5 (.pauseFills false)
        { s with time := 2 } := by
  obtain ⟨s, hs, hp, ha, hf⟩ : ∃ s,
      Ok (run (chainPool .polygon samplePool) willing 2 samplePause) (sampleStart .polygon) () s ∧
        s.pool.pausedFills = true ∧ s.pool.crossDomainAdmin = 5 ∧ s.pool.fxChild = 8 := ⟨_, rfl, rfl, rfl, rfl⟩
  have hz : (delivered .polygon 5 s.pool (.pauseFills false)).1.sender ≠ 0 := by
    change s.pool.fxChild ≠ 0
    rw [hf]
    decide
  have hall := admin_messages_take_effect_iff .polygon samplePool willing 2 0 (sampleStart_init .polygon) hs
    samplePause_ordinary 5
  exact ⟨s, hs, hp, (hall.2 2 (.pauseFills false) rfl (fun _ => ha) hz).mpr ⟨nofun, rfl, rfl⟩⟩

/-- A route is not enabled on Arbitrum, and a root bundle does not reach Ethereum. -/
theorem sampleMessages_refused :
    ¬ TakesEffect .arbitrum samplePool willing 2 5 (.setEnableRoute 7 10 true) (sampleStart .arbitrum) ∧
      ¬ TakesEffect .ethereum samplePool willing 2 6 (.relayRootBundle 1 2) (sampleStart .ethereum) := by
  constructor
  · intro h
    have hz : (delivered .arbitrum 5 (sampleStart .arbitrum).pool (.setEnableRoute 7 10 true)).1.sender ≠ 0 := by
      decide
    have hc := (takesEffect_iff (spokePoolInit_idle (sampleStart_init .arbitrum)) rfl (fun _ => rfl) hz).mp h
    exact absurd hc.2.1 nofun
  · intro h
    have hz : (delivered .ethereum 6 (sampleStart .ethereum).pool (.relayRootBundle 1 2)).1.sender ≠ 0 := by decide
    have hc := (takesEffect_iff (spokePoolInit_idle (sampleStart_init .ethereum)) rfl (fun h => absurd rfl h) hz).mp h
    exact hc.1 rfl

end Sample

end Across.AdminMessages
