import Across.FillLifecycle
import Across.PausedFills
import Across.SvmSteps

namespace Across.FillAgreement

open Abi CallExec CallExec.Exec SpokeTypes SpokeState SpokePool SpokeRules FillLifecycle
open SvmState (Bank Runtime FillStatusAccount)
open SvmTypes (Pubkey)

variable {W W' : Type}

section Rules

/-- The reasons of the rules, which the two programs name alike. -/
inductive Refusal
  | notExclusiveRelayer
  | noSlowFillsInExclusivityWindow
  | expiredFillDeadline
  | relayFilled
  | invalidSlowFillRequest
deriving DecidableEq

def Refusal.evm : Refusal → SpokeState.Error
  | .notExclusiveRelayer => .notExclusiveRelayer
  | .noSlowFillsInExclusivityWindow => .noSlowFillsInExclusivityWindow
  | .expiredFillDeadline => .expiredFillDeadline
  | .relayFilled => .relayFilled
  | .invalidSlowFillRequest => .invalidSlowFillRequest

def Refusal.svm : Refusal → SvmState.Error
  | .notExclusiveRelayer => .notExclusiveRelayer
  | .noSlowFillsInExclusivityWindow => .noSlowFillsInExclusivityWindow
  | .expiredFillDeadline => .expiredFillDeadline
  | .relayFilled => .relayFilled
  | .invalidSlowFillRequest => .invalidSlowFillRequest

theorem Refusal.evm_inj {d e : Refusal} (h : d.evm = e.evm) : d = e := by
  cases d <;> cases e <;> first | rfl | cases h

theorem Refusal.svm_inj {d e : Refusal} (h : d.svm = e.svm) : d = e := by
  cases d <;> cases e <;> first | rfl | cases h

/-- The rules for a fill. `reserved` says that the relay is kept for somebody else. -/
def fillRule (reserved : Prop) [Decidable reserved] (time deadline : Nat) (status : FillStatus) :
    Except Refusal FillType :=
  if reserved then .error .notExclusiveRelayer
  else if deadline < time then .error .expiredFillDeadline
  else if status = .filled then .error .relayFilled
  else .ok (fillTypeOf false status)

def requestRule (time exclusivityDeadline deadline : Nat) (status : FillStatus) : Except Refusal Unit :=
  if time ≤ exclusivityDeadline then .error .noSlowFillsInExclusivityWindow
  else if deadline < time then .error .expiredFillDeadline
  else if status ≠ .unfilled then .error .invalidSlowFillRequest
  else .ok ()

/-- The result of a call that the rules turn down, or that ends as `k`. -/
def ruled {ε α τ : Type} (f : Refusal → ε) (d : Except Refusal τ) (k : Except ε α) : Except ε α :=
  match d with
  | .error e => .error (f e)
  | .ok _ => k

theorem ok_ne_error {ε α : Type} {a : α} {e : ε} : (.ok a : Except ε α) ≠ .error e := nofun

theorem ruled_refused_iff {ε α τ : Type} {f : Refusal → ε} (hf : ∀ {d e}, f d = f e → d = e) {d : Except Refusal τ}
    {k : Except ε α} {e : Refusal} (hk : k ≠ .error (f e)) : ruled f d k = .error (f e) ↔ d = .error e := by
  cases d with
  | error d =>
      refine ⟨fun h => congrArg _ (hf (Except.error.inj h)), fun h => ?_⟩
      rw [Except.error.inj h]
      rfl
  | ok t => exact ⟨fun h => absurd h hk, nofun⟩

theorem ruled_ok_iff {ε α τ : Type} {f : Refusal → ε} {d : Except Refusal τ} {k : Except ε α} {a : α} :
    ruled f d k = .ok a ↔ (∃ t, d = .ok t) ∧ k = .ok a := by
  cases d with
  | error d => exact ⟨nofun, fun ⟨⟨_, h⟩, _⟩ => nomatch h⟩
  | ok t => exact ⟨fun h => ⟨⟨t, rfl⟩, h⟩, fun h => h.2⟩

end Rules

section Evm

variable {V : Variant W} {H : Host W} {n : Nat} {msg : Msg} {r : V3RelayData} {c : Uint256} {s s' : World W} {u : Unit}

def Reserved (msg : Msg) (r : V3RelayData) (s : World W) : Prop :=
  currentTime32 s.time ≤ r.exclusivityDeadline.toNat ∧ r.exclusiveRelayer ≠ msg.sender

instance : Decidable (Reserved msg r s) := inferInstanceAs (Decidable (_ ∧ _))

def fillParams (V : Variant W) (r : V3RelayData) (c : Uint256) : V3RelayExecutionParams :=
  ⟨r, getV3RelayHash V.chainId r, r.outputAmount, r.recipient, r.message, c⟩

def settle (V : Variant W) (H : Host W) (n : Nat) (msg : Msg) (r : V3RelayData) (c : Uint256) : Code W Unit :=
  if msg.sender = r.recipient ∧ false = false then pure ()
  else payOut V H (externalCall H (enter H (exec V H n))) msg (fillParams V r c) false

def announced (V : Variant W) (msg : Msg) (r : V3RelayData) (c : Uint256) (s : World W) : World W :=
  afterFill s (getV3RelayHash V.chainId r) (.fillV3Relay r c)
    (fillEvent (fillParams V r c) msg.sender false (s.pool.fillStatuses (getV3RelayHash V.chainId r)))

theorem exec_result {call : Call} (hv : msg.value = 0) : (exec V H (n + 1) msg call s).result =
    (dispatch V H (externalCall H (enter H (exec V H n))) (exec V H n msg) msg call call s).result := by
  change ((require (msg.value = 0 ∨ call.payable = true) (.message "") >>= fun _ => dispatch V H
    (externalCall H (enter H (exec V H n))) (exec V H n msg) msg call call) s).result = _
  rw [result_require_bind, if_pos (.inl hv)]

theorem checkExclusivity_result {f : Unit → Code W Unit} : ((checkExclusivity msg r >>= f) s).result =
    if Reserved msg r s then .error .notExclusiveRelayer else (f () s).result := by
  have hopen : (fillIsExclusive r.exclusivityDeadline (currentTime32 s.time) = false ∨
    r.exclusiveRelayer = msg.sender) ↔
      ¬ Reserved msg r s := by
    simp only [Reserved, fillIsExclusive, decide_eq_false_iff_not, not_and_or, not_not]
  by_cases hr : Reserved msg r s
  · rw [if_pos hr]
    refine result_bind_error ?_
    change (require _ _ s).result = _
    rw [require, if_neg fun h => hopen.mp h hr]
    rfl
  · rw [if_neg hr]
    exact result_bind_ok ((bind_ok _ _ _ _ _).mpr ⟨s, s, (read_ok _ _ _).mpr ⟨rfl, rfl⟩,
      (require_ok _ _ _ _ _).mpr ⟨hopen.mpr hr, rfl⟩⟩)

/-- A fill is turned down by the rules, or it goes on to its payments. -/
theorem fillV3Relay_result (hv : msg.value = 0) : (exec V H (n + 1) msg (.fillV3Relay r c) s).result =
    ruled Refusal.evm (fillRule (Reserved msg r s) s.time r.fillDeadline.toNat
      (s.pool.fillStatuses (getV3RelayHash V.chainId r)))
      (settle V H n msg r c (announced V msg r c s)).result := by
  rw [exec_result hv]
  change ((checkExclusivity msg r >>= fun _ => fillRelayV3 V H (externalCall H (enter H (exec V H n))) msg
    (.fillV3Relay r c) (fillParams V r c) msg.sender false) s).result = _
  rw [checkExclusivity_result, fillRule]
  split
  · rfl
  · change ((require (s.time ≤ r.fillDeadline.toNat) SpokeState.Error.expiredFillDeadline >>= fun _ => _) s).result = _
    rw [result_require_bind]
    by_cases hd : r.fillDeadline.toNat < s.time
    · rw [if_neg (Nat.not_le.mpr hd), if_pos hd]
      rfl
    · rw [if_pos (Nat.not_lt.mp hd), if_neg hd, result_require_bind]
      by_cases hf : s.pool.fillStatuses (fillParams V r c).relayHash = .filled
      · rw [if_neg (not_not.mpr hf), if_pos (show s.pool.fillStatuses (getV3RelayHash V.chainId r) = .filled from hf)]
        rfl
      · rw [if_pos hf, if_neg (show ¬ s.pool.fillStatuses (getV3RelayHash V.chainId r) = .filled from hf)]
        rfl

theorem guarded_result {m : Code W Unit} (hg : s.pool.entered = false) (hp : s.pool.pausedFills = false) :
    (nonReentrant (unpausedFills m) s).result =
      (m { s with pool := { s.pool with entered := true } }).result.map fun x =>
        ((), { x.2 with pool := { x.2.pool with entered := false } }) := by
  simp only [nonReentrant, unpausedFills, setPool]
  rw [result_read_bind, result_require_bind, if_pos hg, result_update_bind]
  cases hm : (m { s with pool := { s.pool with entered := true } }).result with
  | error e =>
      refine result_bind_error ?_
      rw [result_read_bind, result_require_bind, if_pos hp, hm]
  | ok x =>
      have hbody : Ok (do
          let s ← read
          require (s.pool.pausedFills = false) SpokeState.Error.fillsArePaused
          m : Code W Unit) { s with pool := { s.pool with entered := true } } x.1 x.2 := by
        simp only [Ok]
        rw [result_read_bind, result_require_bind, if_pos hp, hm]
      exact result_bind_ok hbody

def requested (V : Variant W) (r : V3RelayData) (s : World W) : World W :=
  { s with
    pool := { s.pool with
      fillStatuses := Function.update s.pool.fillStatuses (getV3RelayHash V.chainId r) .requestedSlowFill
      entered := false }
    trace := s.trace ++ [.status (getV3RelayHash V.chainId r) (s.pool.fillStatuses (getV3RelayHash V.chainId r))
      .requestedSlowFill] ++ [.event (.requestV3SlowFill r) (.requestedV3SlowFill r)] }

theorem requestV3SlowFill_result (hv : msg.value = 0) (hg : s.pool.entered = false) (hp : s.pool.pausedFills = false) :
    (exec V H (n + 1) msg (.requestV3SlowFill r) s).result =
    ruled Refusal.evm (requestRule (currentTime32 s.time) r.exclusivityDeadline.toNat r.fillDeadline.toNat
      (s.pool.fillStatuses (getV3RelayHash V.chainId r))) (.ok ((), requested V r s)) := by
  rw [exec_result hv]
  simp only [dispatch, requestV3SlowFill]
  rw [guarded_result hg hp, result_read_bind, result_require_bind, requestRule]
  simp only [fillIsExclusive, decide_eq_false_iff_not]
  by_cases hx : currentTime32 s.time ≤ r.exclusivityDeadline.toNat
  · rw [if_neg (not_not.mpr hx), if_pos hx]
    rfl
  · rw [if_pos hx, if_neg hx, result_require_bind]
    by_cases hd : r.fillDeadline.toNat < currentTime32 s.time
    · rw [if_neg (Nat.not_le.mpr hd), if_pos hd]
      rfl
    · rw [if_pos (Nat.not_lt.mp hd), if_neg hd, result_require_bind]
      by_cases hf : s.pool.fillStatuses (getV3RelayHash V.chainId r) = .unfilled
      · rw [if_pos hf, if_neg (not_not.mpr hf)]
        rfl
      · rw [if_neg hf, if_pos hf]
        rfl

/-- The errors of calls to other accounts, which are none of the rules. -/
def Foreign (e : SpokeState.Error) : Prop := ∀ d : Refusal, e ≠ d.evm

/-- The errors of the calls that a fill makes to other accounts. -/
def Outside (e : SpokeState.Error) : Prop := e = .externalCallFailed ∨ e = .message "Address: call to non-contract"

theorem Outside.foreign {e : SpokeState.Error} (h : Outside e) : Foreign e := by
  rcases h with rfl | rfl
  · intro d
    cases d <;> exact nofun
  · intro d
    cases d <;> exact nofun

theorem runCallee_fails {enter : Msg → Call → Code W Unit} (k : Callee W) : FailsWith Outside (runCallee enter k) := by
  induction k with
  | halt ok w =>
      cases ok with
      | true => exact .update _
      | false => exact .revert (.inl rfl)
  | invoke w msg call resume ih =>
      exact .bind (.update _) fun _ => .bind (.attempt _) fun x => .bind .read fun s => ih _ s

theorem externalCall_fails {enter : Msg → Call → Code W Unit} (o : Option Bytes32) (k : ExternalCall) :
    FailsWith Outside (externalCall H enter o k) :=
  .bind (.update _) fun _ => .bind .read fun _ => runCallee_fails _

theorem safeTransferFrom_fails {enter : Msg → Call → Code W Unit} (o : Option Bytes32) (token src dst : Address)
    (amount : Uint256) : FailsWith Outside (safeTransferFrom H (externalCall H enter) o token src dst amount) :=
  .bind .read fun _ => .bind (.require (.inr rfl)) fun _ => externalCall_fails _ _

theorem safeTransfer_fails {enter : Msg → Call → Code W Unit} (o : Option Bytes32) (token dst : Address)
    (amount : Uint256) : FailsWith Outside (safeTransfer H (externalCall H enter) o token dst amount) :=
  .bind .read fun _ => .bind (.require (.inr rfl)) fun _ => externalCall_fails _ _

theorem payOut_fails {enter : Msg → Call → Code W Unit} (p : V3RelayExecutionParams) (isSlowFill : Bool) :
    FailsWith Outside (payOut V H (externalCall H enter) msg p isSlowFill) := by
  have hu {o : Option Bytes32} {dst : Address} {amount : Uint256} : FailsWith Outside
      (unwrapwrappedNativeTokenTo V H (externalCall H enter) o dst amount) :=
    .bind .read fun _ => .ite (safeTransfer_fails _ _ _ _)
      (.bind (externalCall_fails _ _) fun _ => externalCall_fails _ _)
  have hcallback {o : Option Bytes32} {k : ExternalCall} {p : Prop} [Decidable p] : FailsWith Outside
      (if p then externalCall H enter o k else pure ()) := .ite (externalCall_fails _ _) (.pure ())
  simp only [payOut]
  split
  · split
    · exact .bind (safeTransferFrom_fails _ _ _ _ _) fun _ => .bind hu fun _ => .bind .read fun _ => hcallback
    · exact .bind hu fun _ => .bind .read fun _ => hcallback
  · split
    · exact .bind (safeTransferFrom_fails _ _ _ _ _) fun _ => .bind .read fun _ => hcallback
    · exact .bind (safeTransfer_fails _ _ _ _) fun _ => .bind .read fun _ => hcallback

theorem settle_fails : FailsWith Foreign (settle V H n msg r c) :=
  .mono (fun _ => Outside.foreign) (.ite (.pure ()) (payOut_fails _ _))

theorem fillV3Relay_leaves (hv : msg.value = 0) (h : Ok (exec V H (n + 1) msg (.fillV3Relay r c)) s u s') :
    s'.pool.fillStatuses (getV3RelayHash V.chainId r) = .filled ∧ ∃ t, s'.trace = s.trace ++ t ∧
      fillEvents V.chainId (getV3RelayHash V.chainId r) t = [(.fillV3Relay r c, fillEvent (fillParams V r c) msg.sender
        false (s.pool.fillStatuses (getV3RelayHash V.chainId r)))] := by
  have hok : Ok (fillV3Relay V H (externalCall H (enter H (exec V H n))) msg (.fillV3Relay r c) r c) s u s' :=
    (exec_result hv).symm.trans h
  obtain ⟨_, _, hcheck, hfill⟩ := (bind_ok _ _ _ _ _).mp hok
  simp only [checkExclusivity, bind_ok, read_ok, require_ok] at hcheck
  obtain ⟨_, _, ⟨rfl, rfl⟩, -, rfl⟩ := hcheck
  have hn : ∀ m k, Keeps (lifecycle V) (enter H (exec V H n) m k) :=
    enter_keeps (fun _ _ => trivial) rest_extends (exec_lifecycle V H n)
  obtain ⟨-, cs, -, t, ht, -, hpaid⟩ := fillRelayV3_paying hn hfill
  obtain ⟨hs, -, he, -⟩ := hpaid (Function.update_self _ _ _)
  refine ⟨hs, .status (getV3RelayHash V.chainId r) (s.pool.fillStatuses (getV3RelayHash V.chainId r)) .filled ::
    .event (.fillV3Relay r c) (.filledV3Relay (fillEvent (fillParams V r c) msg.sender false
      (s.pool.fillStatuses (getV3RelayHash V.chainId r)))) :: t, ?_, ?_⟩
  · rw [ht]
    simp only [afterFill, List.append_assoc, List.cons_append, List.nil_append]
    rfl
  · have hr : getV3RelayHash V.chainId (fillEvent (fillParams V r c) msg.sender false
        (s.pool.fillStatuses (getV3RelayHash V.chainId r))).relay = getV3RelayHash V.chainId r := rfl
    simp only [fillEvents] at he
    simp only [fillEvents, List.filterMap_cons, if_pos hr, he]

end Evm

section Svm

variable {R : Runtime W'} {x : SvmProgram.FillV3Relay} {y : SvmProgram.RequestV3SlowFill} {b b₁ b' : Bank W'}
  {a : FillStatusAccount} {u : Unit}

def statusOf : Option FillStatusAccount → FillStatus
  | none => .unfilled
  | some a =>
      match a.status with
      | .unfilled => .unfilled
      | .requestedSlowFill => .requestedSlowFill
      | .filled => .filled

def typeOf : SvmTypes.FillType → FillType
  | .fastFill => .fastFill
  | .replacedSlowFill => .replacedSlowFill
  | .slowFill => .slowFill

/-- The relay is kept for somebody else than the signer. An empty exclusive relayer
keeps it for nobody. -/
def ReservedSvm (signer : Pubkey) (q : SvmTypes.V3RelayData) (b : Bank W') : Prop :=
  q.exclusiveRelayer ≠ signer ∧ SvmSteps.now b ≤ q.exclusivityDeadline.toNat ∧ q.exclusiveRelayer ≠ 0

instance {signer : Pubkey} {q : SvmTypes.V3RelayData} : Decidable (ReservedSvm signer q b) :=
  inferInstanceAs (Decidable (_ ∧ _ ∧ _))

/-- The accounts that the caller passes are those the instruction asks for. -/
structure Ready (R : Runtime W') (x : SvmProgram.FillV3Relay) (b : Bank W') : Prop where
  mint : Ok (SvmProgram.checkMint R x.mintAccount x.tokenProgram x.relayData.outputToken) b () b
  relayer : ∃ t, R.tokenAccount b.rest x.relayerTokenAccount = some t ∧ t.mint = x.mintAccount ∧
    t.authority = x.signer ∧ t.tokenProgram = x.tokenProgram
  recipient : Ok (SvmProgram.checkAssociated R x.recipientTokenAccount x.mintAccount x.relayData.recipient
    x.tokenProgram) b () b
  relayHash : x.relayHash = SvmTypes.getV3RelayHash x.relayData b.state.chainId

def settleSvm (R : Runtime W') (x : SvmProgram.FillV3Relay) : SvmState.Instr W' Unit :=
  when (x.relayerTokenAccount ≠ x.recipientTokenAccount)
    (SvmProgram.transferChecked R (.fill x.relayHash) x.mintAccount x.relayerTokenAccount x.recipientTokenAccount
      x.signer x.relayData.outputAmount)

def finishSvm (R : Runtime W') (x : SvmProgram.FillV3Relay) (a : FillStatusAccount) : SvmState.Instr W' Unit := do
  settleSvm R x
  SvmProgram.setFillStatus x.relayHash (some ⟨.filled, x.signer⟩)
  SvmProgram.emit (.filledV3Relay x.relayData x.repaymentChainId x.repaymentAddress x.relayData.outputAmount
    (SvmProgram.fillTypeOf a.status))

theorem statusOf_found {o : Option FillStatusAccount} (hf : SvmSteps.Found o a) : statusOf (some a) = statusOf o := by
  rcases hf with rfl | ⟨rfl, ha⟩
  · rfl
  · simp only [statusOf, ha]

theorem initFillStatus_status {h : SvmTypes.Hash} {payer : Pubkey}
    (hi : Ok (SvmProgram.initFillStatus R h payer) b a b₁) :
    statusOf (some a) = statusOf (b.fillStatuses h) ∧ b₁.clock = b.clock := by
  obtain ⟨hf, w, t, rfl, -⟩ := SvmSteps.initFillStatus_ok hi
  exact ⟨statusOf_found hf, rfl⟩

theorem fillV3RelaySvm_result (hp : b.state.pausedFills = false) (hr : Ready R x b)
    (hi : Ok (SvmProgram.initFillStatus R x.relayHash x.signer) b a b₁) : (SvmProgram.fillV3Relay R x b).result =
    ruled Refusal.svm (fillRule (ReservedSvm x.signer x.relayData b) (SvmSteps.now b) x.relayData.fillDeadline.toNat
      (statusOf (b.fillStatuses x.relayHash))) (finishSvm R x a b₁).result := by
  obtain ⟨t, ht, htok⟩ := hr.relayer
  obtain ⟨hs, hc⟩ := initFillStatus_status hi
  have hnow : (BitVec.ofInt 32 b₁.clock : BitVec 32).toNat = SvmSteps.now b := by
    rw [hc]
    rfl
  simp only [SvmProgram.fillV3Relay]
  rw [result_read_bind, result_require_bind, if_pos hp, result_bind_ok hr.mint,
    result_bind_ok (SvmSteps.loaded_ok.mpr ⟨ht, rfl⟩), result_require_bind, if_pos htok, result_bind_ok hr.recipient,
    result_bind_ok hi, result_require_bind, if_pos hr.relayHash,
    result_bind_ok (SvmSteps.getCurrentTime_ok.mpr ⟨rfl, rfl⟩), result_require_bind, fillRule, hnow]
  have hkept : (x.relayData.exclusiveRelayer ≠ x.signer ∧ SvmSteps.now b ≤ x.relayData.exclusivityDeadline.toNat ∧
    x.relayData.exclusiveRelayer ≠ 0) ↔ ReservedSvm x.signer x.relayData b := Iff.rfl
  by_cases hx : ReservedSvm x.signer x.relayData b
  · rw [if_neg (not_not.mpr (hkept.mpr hx)), if_pos hx]
    rfl
  · rw [if_pos fun h => hx (hkept.mp h), if_neg hx, result_require_bind]
    by_cases hd : x.relayData.fillDeadline.toNat < SvmSteps.now b
    · rw [if_neg (Nat.not_le.mpr hd), if_pos hd]
      rfl
    · have hfilled : statusOf (b.fillStatuses x.relayHash) = .filled ↔ a.status = .filled := by
        rw [← hs, statusOf]
        cases a.status <;> simp
      rw [if_pos (Nat.not_lt.mp hd), if_neg hd, result_require_bind]
      by_cases hf : a.status = .filled
      · rw [if_neg (not_not.mpr hf), if_pos (hfilled.mpr hf)]
        rfl
      · rw [if_pos hf, if_neg fun h => hf (hfilled.mp h)]
        rfl

def requestedSvm (y : SvmProgram.RequestV3SlowFill) (b₁ : Bank W') : Bank W' :=
  { b₁ with
    fillStatuses := Function.update b₁.fillStatuses y.relayHash (some ⟨.requestedSlowFill, y.signer⟩)
    trace := b₁.trace ++ [.emitted (.requestedV3SlowFill y.relayData)] }

theorem requestV3SlowFillSvm_result (hp : b.state.pausedFills = false)
    (hh : y.relayHash = SvmTypes.getV3RelayHash y.relayData b.state.chainId)
    (hi : Ok (SvmProgram.initFillStatus R y.relayHash y.signer) b a b₁) : (SvmProgram.requestV3SlowFill R y b).result =
    ruled Refusal.svm (requestRule (SvmSteps.now b) y.relayData.exclusivityDeadline.toNat y.relayData.fillDeadline.toNat
      (statusOf (b.fillStatuses y.relayHash))) (.ok ((), requestedSvm y b₁)) := by
  obtain ⟨hs, hc⟩ := initFillStatus_status hi
  have hnow : (BitVec.ofInt 32 b₁.clock : BitVec 32).toNat = SvmSteps.now b := by
    rw [hc]
    rfl
  simp only [SvmProgram.requestV3SlowFill]
  rw [result_read_bind, result_require_bind, if_pos hp, result_bind_ok hi, result_require_bind, if_pos hh,
    result_bind_ok (SvmSteps.getCurrentTime_ok.mpr ⟨rfl, rfl⟩), result_require_bind, requestRule, hnow]
  by_cases hx : SvmSteps.now b ≤ y.relayData.exclusivityDeadline.toNat
  · rw [if_neg (Nat.not_lt.mpr hx), if_pos hx]
    rfl
  · rw [if_pos (Nat.not_le.mp hx), if_neg hx, result_require_bind]
    by_cases hd : y.relayData.fillDeadline.toNat < SvmSteps.now b
    · rw [if_neg (Nat.not_le.mpr hd), if_pos hd]
      rfl
    · have hopen : statusOf (b.fillStatuses y.relayHash) = .unfilled ↔ a.status = .unfilled := by
        rw [← hs, statusOf]
        cases a.status <;> simp
      rw [if_pos (Nat.not_lt.mp hd), if_neg hd, result_require_bind]
      by_cases hf : a.status = .unfilled
      · rw [if_pos hf, if_neg (not_not.mpr (hopen.mpr hf))]
        rfl
      · rw [if_neg hf, if_pos fun h => hf (hopen.mp h)]
        rfl

theorem finishSvm_fails : FailsWith (fun e => ∀ d : Refusal, e ≠ d.svm) (finishSvm R x a) := by
  refine .bind (.when (SvmSteps.invoke_fails fun d => ?_)) fun _ => .bind (.update _) fun _ => .update _
  cases d <;> exact nofun

theorem finishSvm_returns {b₂ : Bank W'} (h : Ok (settleSvm R x) b₁ () b₂) : ∃ b', Ok (finishSvm R x a) b₁ () b' :=
  bind_returns h ⟨_, rfl⟩

theorem fillV3RelaySvm_leaves (h : Ok (SvmProgram.fillV3Relay R x) b u b') :
    statusOf (b'.fillStatuses x.relayHash) = .filled ∧ ∃ t k, b'.trace = b.trace ++ t ++ [.emitted (.filledV3Relay
      x.relayData x.repaymentChainId x.repaymentAddress x.relayData.outputAmount k)] ∧
      typeOf k = fillTypeOf false (statusOf (b.fillStatuses x.relayHash)) := by
  obtain ⟨-, -, a, hf, hne, w, t, p, -, -, rfl⟩ := SvmSteps.fillV3Relay_ok h
  refine ⟨?_, t ++ p, SvmProgram.fillTypeOf a.status, ?_, ?_⟩
  · simp only [SvmSteps.wroteFill, Function.update_self, statusOf]
  · simp only [SvmSteps.wroteFill, List.append_assoc]
  · rw [← statusOf_found hf, statusOf]
    cases ha : a.status with
    | unfilled => rfl
    | requestedSlowFill => rfl
    | filled => exact absurd ha hne

end Svm

section Agreement

/-- One relay in the range of both chains. -/
structure SameRelay (r : V3RelayData) (q : SvmTypes.V3RelayData) : Prop where
  depositor : q.depositor.toNat = r.depositor.toNat
  recipient : q.recipient.toNat = r.recipient.toNat
  exclusiveRelayer : q.exclusiveRelayer.toNat = r.exclusiveRelayer.toNat
  inputToken : q.inputToken.toNat = r.inputToken.toNat
  outputToken : q.outputToken.toNat = r.outputToken.toNat
  inputAmount : q.inputAmount.toNat = r.inputAmount.toNat
  outputAmount : q.outputAmount.toNat = r.outputAmount.toNat
  originChainId : q.originChainId.toNat = r.originChainId.toNat
  depositId : q.depositId.toNat = r.depositId.toNat
  fillDeadline : q.fillDeadline.toNat = r.fillDeadline.toNat
  exclusivityDeadline : q.exclusivityDeadline.toNat = r.exclusivityDeadline.toNat
  message : q.message.val = r.message.val

/-- One situation on both chains: the relay, the caller, the time and the status. Fills
are not paused, and the call comes from outside and without ether. -/
structure Same (V : Variant W) (msg : Msg) (r : V3RelayData) (s : World W) (signer : Pubkey) (q : SvmTypes.V3RelayData)
    (b : Bank W') : Prop where
  relay : SameRelay r q
  caller : signer.toNat = msg.sender.toNat
  time : b.clock = s.time
  early : s.time < 2 ^ 32
  status : statusOf (b.fillStatuses (SvmTypes.getV3RelayHash q b.state.chainId)) =
    s.pool.fillStatuses (getV3RelayHash V.chainId r)
  unpaused : s.pool.pausedFills = false
  unpausedSvm : b.state.pausedFills = false
  idle : s.pool.entered = false
  value : msg.value = 0

/-- The relay has an exclusivity deadline that has not passed, but no exclusive
relayer. -/
def Unclaimed (msg : Msg) (r : V3RelayData) (s : World W) : Prop :=
  r.exclusiveRelayer = 0 ∧ msg.sender ≠ 0 ∧ s.time ≤ r.exclusivityDeadline.toNat

variable {V : Variant W} {H : Host W} {R : Runtime W'} {n : Nat} {msg : Msg} {r : V3RelayData} {c : Uint256}
  {s : World W} {signer : Pubkey} {q : SvmTypes.V3RelayData} {b b₁ : Bank W'} {a : FillStatusAccount}
  {x : SvmProgram.FillV3Relay} {y : SvmProgram.RequestV3SlowFill}

theorem Same.now (h : Same V msg r s signer q b) : SvmSteps.now b = s.time := by
  rw [SvmSteps.now, SvmSteps.seconds, h.time, BitVec.ofInt_natCast, BitVec.toNat_ofNat, Nat.mod_eq_of_lt h.early]

theorem Same.currentTime (h : Same V msg r s signer q b) : currentTime32 s.time = s.time := Nat.mod_eq_of_lt h.early

theorem Same.reserved_iff (h : Same V msg r s signer q b) :
    ReservedSvm signer q b ↔ Reserved msg r s ∧ ¬ Unclaimed msg r s := by
  have heq : q.exclusiveRelayer = signer ↔ r.exclusiveRelayer = msg.sender := by
    rw [← BitVec.toNat_inj, ← BitVec.toNat_inj, h.relay.exclusiveRelayer, h.caller]
  have hzero : q.exclusiveRelayer = 0 ↔ r.exclusiveRelayer = 0 := by
    rw [← BitVec.toNat_inj, ← BitVec.toNat_inj, h.relay.exclusiveRelayer]
    rfl
  simp only [ReservedSvm, Reserved, Unclaimed, ne_eq, heq, hzero, h.now, h.currentTime, h.relay.exclusivityDeadline]
  constructor
  · rintro ⟨hs, ht, hz⟩
    exact ⟨⟨ht, hs⟩, fun hu => hz hu.1⟩
  · rintro ⟨⟨ht, hs⟩, hu⟩
    exact ⟨hs, ht, fun hz => hu ⟨hz, fun h0 => hs (hz.trans h0.symm), ht⟩⟩

theorem Same.unclaimed_reserved (h : Same V msg r s signer q b) (hu : Unclaimed msg r s) : Reserved msg r s := by
  refine ⟨?_, fun he => hu.2.1 (he.symm.trans hu.1)⟩
  rw [h.currentTime]
  exact hu.2.2

/-- The rules say the same on both chains, except for a relay that is unclaimed. -/
theorem Same.fillRule_eq (h : Same V msg r s signer q b) (hu : ¬ Unclaimed msg r s) :
    fillRule (ReservedSvm signer q b) (SvmSteps.now b) q.fillDeadline.toNat
        (statusOf (b.fillStatuses (SvmTypes.getV3RelayHash q b.state.chainId))) =
      fillRule (Reserved msg r s) s.time r.fillDeadline.toNat (s.pool.fillStatuses (getV3RelayHash V.chainId r)) := by
  have hr : ReservedSvm signer q b ↔ Reserved msg r s := h.reserved_iff.trans (and_iff_left hu)
  simp only [fillRule, hr, h.now, h.relay.fillDeadline, h.status]

theorem Same.requestRule_eq (h : Same V msg r s signer q b) :
    requestRule (SvmSteps.now b) q.exclusivityDeadline.toNat q.fillDeadline.toNat
        (statusOf (b.fillStatuses (SvmTypes.getV3RelayHash q b.state.chainId))) =
      requestRule (currentTime32 s.time) r.exclusivityDeadline.toNat r.fillDeadline.toNat
        (s.pool.fillStatuses (getV3RelayHash V.chainId r)) := by
  rw [h.now, h.currentTime, h.relay.exclusivityDeadline, h.relay.fillDeadline, h.status]

/-- An unclaimed relay is refused by the pool. The program decides as if it were not
reserved. -/
theorem Same.unclaimed (h : Same V msg r s signer q b) (hu : Unclaimed msg r s) :
    fillRule (Reserved msg r s) s.time r.fillDeadline.toNat (s.pool.fillStatuses (getV3RelayHash V.chainId r)) =
        .error .notExclusiveRelayer ∧
      ¬ ReservedSvm signer q b :=
  ⟨if_pos (h.unclaimed_reserved hu), fun hr => (h.reserved_iff.mp hr).2 hu⟩

/-- The fill is reported once, as one of type `k`. -/
def Reports (V : Variant W) (h : Bytes32) (s t : World W) (k : FillType) : Prop :=
  ∃ u, t.trace = s.trace ++ u ∧ (fillEvents V.chainId h u).map (fun e => e.2.relayExecutionInfo.fillType) = [k]

def ReportsSvm (x : SvmProgram.FillV3Relay) (b t : Bank W') (k : FillType) : Prop :=
  ∃ u j, t.trace = b.trace ++ u ++ [.emitted (.filledV3Relay x.relayData x.repaymentChainId x.repaymentAddress
    x.relayData.outputAmount j)] ∧ typeOf j = k

theorem fills_agree (h : Same V msg r s x.signer x.relayData b) (hr : Ready R x b)
    (hi : Ok (SvmProgram.initFillStatus R x.relayHash x.signer) b a b₁) :
    (¬ Unclaimed msg r s → ∀ e : Refusal, (exec V H (n + 1) msg (.fillV3Relay r c) s).result = .error e.evm ↔
      (SvmProgram.fillV3Relay R x b).result = .error e.svm) ∧
    (Unclaimed msg r s → (exec V H (n + 1) msg (.fillV3Relay r c) s).result = .error .notExclusiveRelayer ∧
      (SvmProgram.fillV3Relay R x b).result ≠ .error .notExclusiveRelayer) ∧
    ((∃ t, Ok (settle V H n msg r c) (announced V msg r c s) () t) → (∃ t, Ok (settleSvm R x) b₁ () t) →
      ((∃ t, Ok (exec V H (n + 1) msg (.fillV3Relay r c)) s () t) ↔
        (∃ t, Ok (SvmProgram.fillV3Relay R x) b () t) ∧ ¬ Unclaimed msg r s)) := by
  have hevm := fillV3Relay_result (V := V) (H := H) (n := n) (r := r) (c := c) (s := s) h.value
  have hsvm := fillV3RelaySvm_result h.unpausedSvm hr hi
  have hfe (e : Refusal) : (settle V H n msg r c (announced V msg r c s)).result ≠ .error e.evm :=
    fun he => settle_fails _ _ he e rfl
  have hfs (e : Refusal) : (finishSvm R x a b₁).result ≠ .error e.svm := fun he => finishSvm_fails _ _ he e rfl
  rw [hr.relayHash] at hsvm
  refine ⟨fun hu e => ?_, fun hu => ⟨?_, fun he => ?_⟩, fun ⟨t, ht⟩ ⟨t', ht'⟩ => ?_⟩
  · rw [hevm, hsvm, h.fillRule_eq hu, ruled_refused_iff Refusal.evm_inj (hfe e),
      ruled_refused_iff Refusal.svm_inj (hfs e)]
  · rw [hevm, (h.unclaimed hu).1]
    rfl
  · rw [hsvm] at he
    have hrule := (ruled_refused_iff Refusal.svm_inj (e := .notExclusiveRelayer) (hfs _)).mp he
    rw [fillRule, if_neg (h.unclaimed hu).2] at hrule
    split at hrule
    · cases hrule
    · split at hrule <;> cases hrule
  · obtain ⟨t'', hf⟩ := finishSvm_returns (a := a) ht'
    have hevm' : (∃ t, Ok (exec V H (n + 1) msg (.fillV3Relay r c)) s () t) ↔ ∃ k, fillRule (Reserved msg r s) s.time
        r.fillDeadline.toNat (s.pool.fillStatuses (getV3RelayHash V.chainId r)) = .ok k := by
      simp only [Ok, hevm, ruled_ok_iff]
      constructor
      · rintro ⟨_, hk, -⟩
        exact hk
      · intro hk
        exact ⟨t, hk, ht⟩
    have hsvm' : (∃ t, Ok (SvmProgram.fillV3Relay R x) b () t) ↔ ∃ k, fillRule (ReservedSvm x.signer x.relayData b)
        (SvmSteps.now b) x.relayData.fillDeadline.toNat
        (statusOf (b.fillStatuses (SvmTypes.getV3RelayHash x.relayData b.state.chainId))) = .ok k := by
      simp only [Ok, hsvm, ruled_ok_iff]
      constructor
      · rintro ⟨_, hk, -⟩
        exact hk
      · intro hk
        exact ⟨t'', hk, hf⟩
    rw [hevm', hsvm']
    by_cases hu : Unclaimed msg r s
    · rw [(h.unclaimed hu).1]
      constructor
      · rintro ⟨_, hk⟩
        cases hk
      · rintro ⟨-, hn⟩
        exact absurd hu hn
    · rw [h.fillRule_eq hu]
      exact (and_iff_left hu).symm

theorem fills_leave_same (h : Same V msg r s x.signer x.relayData b)
    (hh : x.relayHash = SvmTypes.getV3RelayHash x.relayData b.state.chainId) {t : World W} {t' : Bank W'}
    (ht : Ok (exec V H (n + 1) msg (.fillV3Relay r c)) s () t) (ht' : Ok (SvmProgram.fillV3Relay R x) b () t') :
    statusOf (t'.fillStatuses x.relayHash) = t.pool.fillStatuses (getV3RelayHash V.chainId r) ∧
      ∃ k, Reports V (getV3RelayHash V.chainId r) s t k ∧ ReportsSvm x b t' k := by
  obtain ⟨hs, u, hu, he⟩ := fillV3Relay_leaves h.value ht
  obtain ⟨hs', u', k, hu', hk⟩ := fillV3RelaySvm_leaves ht'
  refine ⟨hs'.trans hs.symm, _, ⟨u, hu, by rw [he]; rfl⟩, u', k, hu', ?_⟩
  rw [hk, hh, h.status]
  rfl

theorem requests_agree (h : Same V msg r s y.signer y.relayData b)
    (hh : y.relayHash = SvmTypes.getV3RelayHash y.relayData b.state.chainId)
    (hi : Ok (SvmProgram.initFillStatus R y.relayHash y.signer) b a b₁) :
    (∀ e : Refusal, (exec V H (n + 1) msg (.requestV3SlowFill r) s).result = .error e.evm ↔
      (SvmProgram.requestV3SlowFill R y b).result = .error e.svm) ∧
    ((∃ t, Ok (exec V H (n + 1) msg (.requestV3SlowFill r)) s () t) ↔
      ∃ t, Ok (SvmProgram.requestV3SlowFill R y) b () t) ∧
    ∀ t t', Ok (exec V H (n + 1) msg (.requestV3SlowFill r)) s () t → Ok (SvmProgram.requestV3SlowFill R y) b () t' →
      statusOf (t'.fillStatuses y.relayHash) = .requestedSlowFill ∧
      t.pool.fillStatuses (getV3RelayHash V.chainId r) = .requestedSlowFill := by
  have hevm := requestV3SlowFill_result (V := V) (H := H) (n := n) (r := r) h.value h.idle h.unpaused
  have hsvm := requestV3SlowFillSvm_result h.unpausedSvm hh hi
  rw [hh, h.requestRule_eq] at hsvm
  refine ⟨fun e => ?_, ?_, fun t t' ht ht' => ?_⟩
  · rw [hevm, hsvm]
    exact (ruled_refused_iff Refusal.evm_inj ok_ne_error).trans (ruled_refused_iff Refusal.svm_inj ok_ne_error).symm
  · simp only [Ok, hevm, hsvm, ruled_ok_iff]
    constructor
    · rintro ⟨_, hk, -⟩
      exact ⟨_, hk, rfl⟩
    · rintro ⟨_, hk, -⟩
      exact ⟨_, hk, rfl⟩
  · simp only [Ok, hevm, hsvm, ruled_ok_iff] at ht ht'
    obtain ⟨-, ht⟩ := ht
    obtain ⟨-, ht'⟩ := ht'
    cases ht
    cases ht'
    exact ⟨by simp only [requestedSvm, Function.update_self, statusOf], Function.update_self _ _ _⟩

/-- The two programs decide alike by the rules for exclusivity, deadlines and status,
with one exception: within its exclusivity deadline, a relay without an exclusive
relayer is refused by the pool and open to everybody in the program. -/
theorem decisions_agree (H : Host W) (R : Runtime W') (n : Nat) (h : Same V msg r s signer q b) :
    (∀ c x a b₁, x.signer = signer → x.relayData = q → Ready R x b →
      Ok (SvmProgram.initFillStatus R x.relayHash x.signer) b a b₁ →
      (¬ Unclaimed msg r s → ∀ e : Refusal, (exec V H (n + 1) msg (.fillV3Relay r c) s).result = .error e.evm ↔
        (SvmProgram.fillV3Relay R x b).result = .error e.svm) ∧
      (Unclaimed msg r s → (exec V H (n + 1) msg (.fillV3Relay r c) s).result = .error .notExclusiveRelayer ∧
        (SvmProgram.fillV3Relay R x b).result ≠ .error .notExclusiveRelayer) ∧
      ((∃ t, Ok (settle V H n msg r c) (announced V msg r c s) () t) → (∃ t, Ok (settleSvm R x) b₁ () t) →
        ((∃ t, Ok (exec V H (n + 1) msg (.fillV3Relay r c)) s () t) ↔
          (∃ t, Ok (SvmProgram.fillV3Relay R x) b () t) ∧ ¬ Unclaimed msg r s)) ∧
      ∀ t t', Ok (exec V H (n + 1) msg (.fillV3Relay r c)) s () t → Ok (SvmProgram.fillV3Relay R x) b () t' →
        statusOf (t'.fillStatuses x.relayHash) = t.pool.fillStatuses (getV3RelayHash V.chainId r) ∧
        ∃ k, Reports V (getV3RelayHash V.chainId r) s t k ∧ ReportsSvm x b t' k) ∧
    ∀ y a b₁, y.signer = signer → y.relayData = q →
      y.relayHash = SvmTypes.getV3RelayHash y.relayData b.state.chainId →
      Ok (SvmProgram.initFillStatus R y.relayHash y.signer) b a b₁ →
      (∀ e : Refusal, (exec V H (n + 1) msg (.requestV3SlowFill r) s).result = .error e.evm ↔
        (SvmProgram.requestV3SlowFill R y b).result = .error e.svm) ∧
      ((∃ t, Ok (exec V H (n + 1) msg (.requestV3SlowFill r)) s () t) ↔
        ∃ t, Ok (SvmProgram.requestV3SlowFill R y) b () t) ∧
      ∀ t t', Ok (exec V H (n + 1) msg (.requestV3SlowFill r)) s () t → Ok (SvmProgram.requestV3SlowFill R y) b () t' →
        statusOf (t'.fillStatuses y.relayHash) = t.pool.fillStatuses (getV3RelayHash V.chainId r) := by
  refine ⟨fun c x a b₁ hx hq hr hi => ?_, fun y a b₁ hy hq hh hi => ?_⟩
  · subst hx hq
    obtain ⟨hrefused, hunclaimed, hok⟩ := fills_agree h hr hi
    exact ⟨hrefused, hunclaimed, hok, fun t t' ht ht' => fills_leave_same h hr.relayHash ht ht'⟩
  · subst hy hq
    obtain ⟨hrefused, hok, hleft⟩ := requests_agree h hh hi
    exact ⟨hrefused, hok, fun t t' ht ht' => (hleft t t' ht ht').1.trans (hleft t t' ht ht').2.symm⟩

end Agreement

section Sample

open PausedFills (samplePool sampleWorld willing)
open SvmProgram (sampleRuntime sampleBank)

/-- A relay of the output token 5 to account 7 with a given exclusive relayer, open
until time 1000 and exclusive until time 50. -/
def sampleRelay (exclusiveRelayer : Address) : V3RelayData :=
  ⟨6, 7, exclusiveRelayer, 4, 5, 100, 99, 10, 0, 1000, 50, ⟨[], nil_fits⟩⟩

def sampleRelaySvm (exclusiveRelayer : Pubkey) : SvmTypes.V3RelayData :=
  ⟨6, 7, exclusiveRelayer, 4, 5, 100, 99, 10, 0, 1000, 50, ⟨[], SvmTypes.nil_fits⟩⟩

def sampleFill (exclusiveRelayer : Pubkey) : SvmProgram.FillV3Relay :=
  ⟨8, 5, 1008, 1007, 6, SvmTypes.getV3RelayHash (sampleRelaySvm exclusiveRelayer) 7,
    sampleRelaySvm exclusiveRelayer, 1, 8⟩

theorem sampleFill_same {e : Address} {k : Pubkey} (he : k.toNat = e.toNat) :
    Same samplePool ⟨8, 0⟩ (sampleRelay e) sampleWorld 8 (sampleRelaySvm k) sampleBank where
  relay := ⟨rfl, rfl, he, rfl, rfl, rfl, rfl, rfl, rfl, rfl, rfl, rfl⟩
  caller := rfl
  time := rfl
  early := by decide
  status := rfl
  unpaused := rfl
  unpausedSvm := rfl
  idle := rfl
  value := rfl

theorem sampleFill_ready (k : Pubkey) : Ready sampleRuntime (sampleFill k) sampleBank where
  mint := rfl
  relayer := ⟨_, rfl, rfl, show (1008 - 1000 : Pubkey) = 8 by decide, rfl⟩
  recipient := by
    simp only [SvmProgram.checkAssociated, bind_ok, read_ok, require_ok, SvmSteps.loaded_ok]
    exact ⟨_, _, ⟨rfl, rfl⟩, (), _, ⟨rfl, rfl⟩, _, _, ⟨rfl, rfl⟩, ⟨show (1007 - 1000 : Pubkey) = 7 by decide, rfl⟩, rfl⟩
  relayHash := rfl

/-- The payment goes through as well: account 8 has the tokens. -/
theorem sampleFill_settles (k : Pubkey) : ∃ b₁, Ok (SvmProgram.initFillStatus sampleRuntime (sampleFill k).relayHash 8)
    sampleBank ⟨.unfilled, 0⟩ b₁ ∧ ∃ t, Ok (settleSvm sampleRuntime (sampleFill k)) b₁ () t := by
  obtain ⟨w, hw⟩ : ∃ w, sampleRuntime.transferChecked 5 1008 1007 8 99 (fun _ => 100) = some w := ⟨_, rfl⟩
  refine ⟨{ sampleBank with
    fillStatuses := Function.update sampleBank.fillStatuses (sampleFill k).relayHash (some ⟨.unfilled, 0⟩)
    trace := [.created (.fills (sampleFill k).relayHash) 8] }, rfl, ?_⟩
  simp only [settleSvm, when_ok, SvmProgram.transferChecked, SvmSteps.invoke_ok]
  exact ⟨_, .inl ⟨show (1008 : Pubkey) ≠ 1007 by decide, w, hw, rfl⟩⟩

theorem samplePool_pays (r : V3RelayData) (s : World Unit) :
    ∃ t, Ok (settle samplePool willing 0 ⟨8, 0⟩ r 1) s () t := by
  obtain ⟨t, ht, -⟩ :=
    (PausedFills.Passes.ite .pure (PausedFills.payOut_passes ⟨8, 0⟩ (fillParams samplePool r 1) false) :
    PausedFills.Passes (settle samplePool willing 0 ⟨8, 0⟩ r 1)) s
  exact ⟨t, ht⟩

/-- Account 8 fills a relay that is reserved for it, on both chains. -/
theorem sampleFill_agrees : ∃ t t',
    Ok (exec samplePool willing 1 ⟨8, 0⟩ (.fillV3Relay (sampleRelay 8) 1)) sampleWorld () t ∧
    Ok (SvmProgram.fillV3Relay sampleRuntime (sampleFill 8)) sampleBank () t' ∧
    statusOf (t'.fillStatuses (sampleFill 8).relayHash) = t.pool.fillStatuses (getV3RelayHash 1 (sampleRelay 8)) := by
  have hr : ¬ PausedFills.RelayRefused samplePool 8 (sampleRelay 8) sampleWorld := by
    rintro (⟨-, hne⟩ | hd | hf)
    · exact hne rfl
    · exact absurd hd (by decide)
    · cases hf
  obtain ⟨b₁, hi, hp⟩ := sampleFill_settles 8
  obtain ⟨t, ht, -⟩ := PausedFills.exec_fillV3Relay_willing 0 ⟨8, 0⟩ rfl 1 hr
  obtain ⟨-, -, hok, hleft⟩ := (decisions_agree willing sampleRuntime 0 (sampleFill_same (e := 8) (k := 8) rfl)).1 1
    (sampleFill 8) _ b₁ rfl rfl (sampleFill_ready 8) hi
  obtain ⟨⟨t', ht'⟩, -⟩ := (hok (samplePool_pays _ _) hp).mp ⟨t, ht⟩
  exact ⟨t, t', ht, ht', (hleft t t' ht ht').1⟩

/-- The same relay without an exclusive relayer is refused by the pool and filled by
the program. -/
theorem sampleFill_unclaimed :
    Same samplePool ⟨8, 0⟩ (sampleRelay 0) sampleWorld 8 (sampleRelaySvm 0) sampleBank ∧
    (exec samplePool willing 1 ⟨8, 0⟩ (.fillV3Relay (sampleRelay 0) 1) sampleWorld).result =
      .error .notExclusiveRelayer ∧
    ∃ t, Ok (SvmProgram.fillV3Relay sampleRuntime (sampleFill 0)) sampleBank () t := by
  obtain ⟨b₁, hi, _, hp⟩ := sampleFill_settles 0
  obtain ⟨t, ht⟩ := finishSvm_returns (a := ⟨.unfilled, 0⟩) hp
  refine ⟨sampleFill_same rfl, rfl, t, (fillV3RelaySvm_result rfl (sampleFill_ready 0) hi).trans ?_⟩
  exact ruled_ok_iff.mpr ⟨⟨.fastFill, rfl⟩, ht⟩

end Sample

end Across.FillAgreement
