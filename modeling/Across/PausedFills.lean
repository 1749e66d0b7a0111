import Across.SpokeRules

namespace Across.PausedFills

open Abi Keccak CallExec CallExec.Exec SpokeTypes SpokeState SpokePool SpokeRules

variable {W : Type}

def isFillEntry : Call → Bool
  | .fillV3Relay .. | .fillV3RelayWithUpdatedDeposit .. | .fill .. | .requestV3SlowFill .. => true
  | _ => false

/-- The checks that `fillV3Relay` itself makes turn this relay down: somebody
else has the exclusive right, the deadline is over, or it is already filled. -/
def RelayRefused (V : Variant W) (sender : Address) (r : V3RelayData) (s : World W) : Prop :=
  (fillIsExclusive r.exclusivityDeadline (currentTime32 s.time) = true ∧ r.exclusiveRelayer ≠ sender) ∨
    r.fillDeadline.toNat < s.time ∨ s.pool.fillStatuses (getV3RelayHash V.chainId r) = .filled

/-- A filler's call that fails without any look at the pause: it carries value,
or it is a `fillV3Relay`, direct or by way of `fill`, of a refused relay. The two
entry points with the modifier need no further reason. -/
def Refused (V : Variant W) (msg : Msg) (s : World W) : Call → Prop
  | .fillV3Relay r _ => msg.value ≠ 0 ∨ RelayRefused V msg.sender r s
  | .fill orderId originData fillerData => msg.value ≠ 0 ∨ keccak256 originData ≠ orderId ∨
      ∀ r c, decodeFillV3Relay (fillCalldata originData fillerData) = some (r, c) →
        RelayRefused V msg.sender r s
  | _ => True

section Reverts

variable {V : Variant W} {H : Host W} {ext : Option Bytes32 → ExternalCall → Code W Unit}
  {self : Call → Code W Unit} {msg : Msg} {call : Call} {s s' : World W} {u : Unit}

theorem fillV3Relay_not_refused {r : V3RelayData} {c : Uint256}
    (h : Ok (fillV3Relay V H ext msg call r c) s u s') : ¬ RelayRefused V msg.sender r s := by
  simp only [fillV3Relay, checkExclusivity, fillRelayV3, bind_ok, read_ok, require_ok] at h
  obtain ⟨_, _, ⟨_, _, ⟨rfl, rfl⟩, hx, rfl⟩, _, _, ⟨rfl, rfl⟩, _, _, ⟨hd, rfl⟩, _, _, ⟨hs, rfl⟩, -⟩ := h
  intro hr
  rcases hr with ⟨he, hne⟩ | hlt | hf
  · rcases hx with hx | hx
    · rw [he] at hx
      cases hx
    · exact hne hx
  · omega
  · exact hs hf

theorem unpausedFills_unpaused {m : Code W Unit} (h : Ok (nonReentrant (unpausedFills m)) s u s') :
    s.pool.pausedFills = false := by
  simp only [nonReentrant, unpausedFills, setPool, bind_ok, read_ok, require_ok, update_ok] at h
  obtain ⟨_, _, ⟨rfl, rfl⟩, _, _, ⟨-, rfl⟩, _, _, rfl, _, _, ⟨_, _, ⟨rfl, rfl⟩, _, _, ⟨hp, rfl⟩, -⟩, -⟩ := h
  exact hp

theorem exec_fillV3Relay_not_refused {r : V3RelayData} {c : Uint256} (n : Nat)
    (h : Ok (exec V H n msg (.fillV3Relay r c)) s u s') : ¬ Refused V msg s (.fillV3Relay r c) := by
  cases n with
  | zero => exact ((revert_ok _ _ _ _).mp h).elim
  | succ n =>
      rintro (hne | hr)
      · exact hne (exec_value (n + 1) h rfl)
      · exact fillV3Relay_not_refused (exec_dispatch h) hr

theorem exec_undecodable (n : Nat) : ¬ Ok (exec V H n msg .undecodable) s u s' := by
  intro h
  cases n with
  | zero => exact (revert_ok _ _ _ _).mp h
  | succ n => exact (revert_ok _ _ _ _).mp (exec_dispatch h)

theorem fill_decodes {o : Bytes32} {d f : WordBytes.Bytes} (h : Ok (fill self o d f) s u s') :
    keccak256 d = o ∧ Ok (self (decodeFillCall d f)) s () s' := by
  obtain ⟨_, _, h₁, h⟩ := (bind_ok _ _ _ _ _).mp h
  obtain ⟨ho, rfl⟩ := (require_ok _ _ _ _ _).mp h₁
  obtain ⟨r, t, h₂, h₃⟩ := (bind_ok _ _ _ _ _).mp h
  refine ⟨ho, ?_⟩
  rcases (attempt_ok _ _ _ _).mp h₂ with ⟨a, rfl, ha⟩ | ⟨e, rfl, -, -⟩
  · obtain ⟨-, rfl⟩ := (pure_ok _ _ _ _).mp h₃
    exact ha
  · exact ((revert_ok _ _ _ _).mp h₃).elim

theorem exec_fill_not_refused {o : Bytes32} {d f : WordBytes.Bytes} (n : Nat)
    (h : Ok (exec V H n msg (.fill o d f)) s u s') : ¬ Refused V msg s (.fill o d f) := by
  cases n with
  | zero => exact ((revert_ok _ _ _ _).mp h).elim
  | succ n =>
      obtain ⟨ho, hi⟩ := fill_decodes (exec_dispatch h)
      rintro (hne | hne | hr)
      · exact hne (exec_value (n + 1) h rfl)
      · exact hne ho
      · simp only [decodeFillCall] at hi
        split at hi
        · rename_i r c hdec
          exact exec_fillV3Relay_not_refused n hi (.inr (hr r c hdec))
        · exact exec_undecodable n hi

theorem exec_not_refused (n : Nat) (hp : s.pool.pausedFills = true) (hc : isFillEntry call = true)
    (h : Ok (exec V H n msg call) s u s') : ¬ Refused V msg s call := by
  cases n with
  | zero => exact ((revert_ok _ _ _ _).mp h).elim
  | succ n =>
      cases call with
      | fillV3Relay r c => exact exec_fillV3Relay_not_refused (n + 1) h
      | fill o d f => exact exec_fill_not_refused (n + 1) h
      | fillV3RelayWithUpdatedDeposit r c x =>
          have hf := unpausedFills_unpaused (exec_dispatch h)
          rw [hp] at hf
          cases hf
      | requestV3SlowFill r =>
          have hf := unpausedFills_unpaused (exec_dispatch h)
          rw [hp] at hf
          cases hf
      | _ => cases hc

end Reverts

/-- The promise that the pause stops every refused call of a filler. -/
def pauseStops (V : Variant W) : Guarantee (World W) (Frame W) where
  rel _ _ := True
  frame r := r.pre.pool.pausedFills = true → isFillEntry r.call = true → Refused V r.msg r.pre r.call →
    ∃ e, r.post = .error e
  refl _ := trivial
  trans _ _ := trivial

theorem pauseStops_sound (V : Variant W) (H : Host W) : Sound V H (pauseStops V) :=
  Free.sound ⟨fun _ _ => trivial, fun _ _ => trivial, fun _ _ => trivial, fun _ _ => trivial⟩ fun _ _ _ => trivial

theorem exec_pauseStops (V : Variant W) (H : Host W) (n : Nat) (msg : Msg) (call : Call) :
    Keeps (pauseStops V) (exec V H n msg call) := by
  refine exec_keeps ((pauseStops_sound V H).rules fun _ => trivial) (fun n msg call s _ _ hp hc hr => ?_) n msg call
  simp only at hp hc hr ⊢
  cases hx : (exec V H n msg call s).result with
  | error e => exact ⟨e, rfl⟩
  | ok r =>
      have hok : Ok (exec V H n msg call) s r.1 r.2 := hx
      exact absurd hr (exec_not_refused n hp hc hok)

section Willing

/-- Accounts that accept everything and call nobody: every address has code and
every call to it returns. -/
def willing : Host W where
  behave _ s := .halt true s.rest
  pay _ _ w := some w
  isContract _ _ := true
  nativeBalance _ := 0
  isValidSignatureNow _ _ _ _ := true

variable {V : Variant W} {enter : Msg → Call → Code W Unit} {s : World W}

/-- The code returns from every state and leaves the pool's storage alone. -/
def Passes (m : Code W Unit) : Prop := ∀ s, ∃ s', Ok m s () s' ∧ s'.pool = s.pool

theorem Passes.pure : Passes (Pure.pure () : Code W Unit) :=
  fun s => ⟨s, (pure_ok _ _ _ _).mpr ⟨rfl, rfl⟩, rfl⟩

theorem Passes.bind {m : Code W Unit} {k : Unit → Code W Unit} (hm : Passes m) (hk : Passes (k ())) :
    Passes (m >>= k) := by
  intro s
  obtain ⟨t, ht, hp⟩ := hm s
  obtain ⟨s', hs', hp'⟩ := hk t
  exact ⟨s', (bind_ok _ _ _ _ _).mpr ⟨(), t, ht, hs'⟩, hp'.trans hp⟩

theorem Passes.read {k : World W → Code W Unit} (hk : ∀ s, Passes (k s)) : Passes (read >>= k) := by
  intro s
  obtain ⟨s', hs', hp'⟩ := hk s s
  exact ⟨s', (bind_ok _ _ _ _ _).mpr ⟨s, s, (read_ok _ _ _).mpr ⟨rfl, rfl⟩, hs'⟩, hp'⟩

theorem Passes.ite {p : Prop} [Decidable p] {m k : Code W Unit} (hm : Passes m) (hk : Passes k) :
    Passes (if p then m else k) := by
  split
  · exact hm
  · exact hk

theorem externalCall_passes (o : Option Bytes32) (c : ExternalCall) :
    Passes (externalCall willing enter o c) := fun _ => ⟨_, rfl, rfl⟩

theorem safeTransferFrom_passes (o : Option Bytes32) (token src dst : Address) (amount : Uint256) :
    Passes (safeTransferFrom willing (externalCall willing enter) o token src dst amount) :=
  fun _ => ⟨_, rfl, rfl⟩

theorem safeTransfer_passes (o : Option Bytes32) (token dst : Address) (amount : Uint256) :
    Passes (safeTransfer willing (externalCall willing enter) o token dst amount) :=
  fun _ => ⟨_, rfl, rfl⟩

theorem payOut_passes (msg : Msg) (p : V3RelayExecutionParams) (isSlowFill : Bool) :
    Passes (payOut V willing (externalCall willing enter) msg p isSlowFill) := by
  have hu : Passes (unwrapwrappedNativeTokenTo V willing (externalCall willing enter) (some p.relayHash)
      p.updatedRecipient p.updatedOutputAmount) :=
    .read fun s => .ite (safeTransfer_passes _ _ _ _) (.bind (externalCall_passes _ _) (externalCall_passes _ _))
  simp only [payOut]
  split
  · split
    · refine .bind (safeTransferFrom_passes _ _ _ _ _) (.bind hu (.read fun s => ?_))
      exact .ite (externalCall_passes _ _) .pure
    · refine .bind hu (.read fun s => ?_)
      exact .ite (externalCall_passes _ _) .pure
  · split
    · refine .bind (safeTransferFrom_passes _ _ _ _ _) (.read fun s => ?_)
      exact .ite (externalCall_passes _ _) .pure
    · refine .bind (safeTransfer_passes _ _ _ _) (.read fun s => ?_)
      exact .ite (externalCall_passes _ _) .pure

/-- Nothing but its own checks keeps `fillV3Relay` from filling a relay. -/
theorem fillV3Relay_willing (enter : Msg → Call → Code W Unit) {msg : Msg} (call : Call) {r : V3RelayData} (c : Uint256)
    (hr : ¬ RelayRefused V msg.sender r s) :
    ∃ s', Ok (fillV3Relay V willing (externalCall willing enter) msg call r c) s () s' ∧
      s'.pool.fillStatuses (getV3RelayHash V.chainId r) = .filled := by
  simp only [RelayRefused, not_or, not_and, not_not, not_lt] at hr
  obtain ⟨hx, hd, hs⟩ := hr
  have hx' : fillIsExclusive r.exclusivityDeadline (currentTime32 s.time) = false ∨
      r.exclusiveRelayer = msg.sender := by
    cases he : fillIsExclusive r.exclusivityDeadline (currentTime32 s.time) with
    | false => exact .inl rfl
    | true => exact .inr (hx he)
  have hq : Passes (if msg.sender = r.recipient ∧ false = false then Pure.pure () else
      payOut V willing (externalCall willing enter) msg ⟨r, getV3RelayHash V.chainId r, r.outputAmount,
        r.recipient, r.message, c⟩ false) := .ite .pure (payOut_passes msg _ false)
  obtain ⟨s', hs', hp⟩ := hq _
  refine ⟨s', (bind_ok _ _ _ _ _).mpr ⟨(), s, ?_, ?_⟩, ?_⟩
  · exact (bind_ok _ _ _ _ _).mpr ⟨s, s, (read_ok _ _ _).mpr ⟨rfl, rfl⟩, (require_ok _ _ _ _ _).mpr ⟨hx', rfl⟩⟩
  · refine (bind_ok _ _ _ _ _).mpr ⟨s, s, (read_ok _ _ _).mpr ⟨rfl, rfl⟩, ?_⟩
    refine (bind_ok _ _ _ _ _).mpr ⟨(), s, (require_ok _ _ _ _ _).mpr ⟨hd, rfl⟩, ?_⟩
    refine (bind_ok _ _ _ _ _).mpr ⟨(), s, (require_ok _ _ _ _ _).mpr ⟨hs, rfl⟩, ?_⟩
    refine (bind_ok _ _ _ _ _).mpr ⟨(), _, (update_ok _ _ _ _).mpr rfl, ?_⟩
    exact (bind_ok _ _ _ _ _).mpr ⟨(), _, (update_ok _ _ _ _).mpr rfl, hs'⟩
  · rw [hp]
    exact Function.update_self _ _ _

theorem exec_fillV3Relay_willing (n : Nat) (msg : Msg) (hv : msg.value = 0) {r : V3RelayData} (c : Uint256)
    (hr : ¬ RelayRefused V msg.sender r s) :
    ∃ s', Ok (exec V willing (n + 1) msg (.fillV3Relay r c)) s () s' ∧
      s'.pool.fillStatuses (getV3RelayHash V.chainId r) = .filled := by
  obtain ⟨s', hs', hf⟩ := fillV3Relay_willing (enter willing (exec V willing n)) (.fillV3Relay r c) c hr
  refine ⟨s', ?_, hf⟩
  exact (bind_ok _ _ _ _ _).mpr ⟨(), s, (require_ok _ _ _ _ _).mpr ⟨.inl hv, rfl⟩, hs'⟩

theorem exec_fill_willing (n : Nat) {msg : Msg} (hv : msg.value = 0) {o : Bytes32} {d f : WordBytes.Bytes}
    (ho : keccak256 d = o) {r : V3RelayData} {c : Uint256}
    (hd : decodeFillV3Relay (fillCalldata d f) = some (r, c)) (hr : ¬ RelayRefused V msg.sender r s) :
    ∃ s', Ok (exec V willing (n + 2) msg (.fill o d f)) s () s' ∧
      s'.pool.fillStatuses (getV3RelayHash V.chainId r) = .filled := by
  obtain ⟨s', hs', hf⟩ := exec_fillV3Relay_willing n msg hv c hr
  have hc : decodeFillCall d f = .fillV3Relay r c := by
    simp only [decodeFillCall, hd]
  refine ⟨s', ?_, hf⟩
  refine (bind_ok _ _ _ _ _).mpr ⟨(), s, (require_ok _ _ _ _ _).mpr ⟨.inl hv, rfl⟩, ?_⟩
  refine (bind_ok _ _ _ _ _).mpr ⟨(), s, (require_ok _ _ _ _ _).mpr ⟨ho, rfl⟩, ?_⟩
  refine (bind_ok _ _ _ _ _).mpr ⟨.ok (), s', (attempt_ok _ _ _ _).mpr (.inl ⟨(), rfl, hc ▸ hs'⟩), ?_⟩
  exact (pure_ok _ _ _ _).mpr ⟨rfl, rfl⟩

end Willing

/-- In every run in which each filler's call made while fills are paused is
refused for a reason of its own, every such call reverts. The condition is the
weakest one that does not look into other accounts: any other call of a filler
fills its relay in spite of the pause when those accounts let it. -/
theorem paused_fills_revert_iff_refused (V : Variant W) :
    (∀ (H : Host W) (n : Nat) (inputs : List (Input W)) (s : World W),
      (∀ r ∈ (run V H n inputs s).frames, r.pre.pool.pausedFills = true → isFillEntry r.call = true →
        Refused V r.msg r.pre r.call) →
      ∀ r ∈ (run V H n inputs s).frames, r.pre.pool.pausedFills = true → isFillEntry r.call = true →
        ∃ e, r.post = .error e) ∧
    ∀ (msg : Msg) (call : Call) (s : World W), s.pool.pausedFills = true → isFillEntry call = true →
      ¬ Refused V msg s call → ∃ H s', Ok (exec V H 2 msg call) s () s' ∧
        ∃ h, s.pool.fillStatuses h ≠ .filled ∧ s'.pool.fillStatuses h = .filled := by
  refine ⟨fun H n inputs s hc r hr hp he => ?_, fun msg call s _ he hn => ⟨willing, ?_⟩⟩
  · have hk := run_keeps (H := H) (fun _ _ => trivial) (fun _ _ => trivial) (fun _ _ => trivial)
      (exec_pauseStops V H n) inputs
    exact hk.frames (fun _ _ => trivial) trivial r hr hp he (hc r hr hp he)
  · cases call with
    | fillV3Relay r c =>
        simp only [Refused, not_or, not_not] at hn
        obtain ⟨s', hs', hf⟩ := exec_fillV3Relay_willing 1 msg hn.1 c hn.2
        exact ⟨s', hs', _, fun h => hn.2 (.inr (.inr h)), hf⟩
    | fill o d f =>
        simp only [Refused, not_or, not_not, not_forall] at hn
        obtain ⟨hv, ho, r, c, hd, hr⟩ := hn
        obtain ⟨s', hs', hf⟩ := exec_fill_willing 0 hv ho hd hr
        exact ⟨s', hs', _, fun h => hr (.inr (.inr h)), hf⟩
    | fillV3RelayWithUpdatedDeposit r c u => exact absurd trivial hn
    | requestV3SlowFill r => exact absurd trivial hn
    | _ => cases he

section Sample

/-- A deployed pool: account 9 is the admin, 5 is the output token. -/
def samplePool : Variant Unit where
  self := 1
  chainId := 1
  wrappedNativeToken := 2
  depositQuoteTimeBuffer := 3600
  fillDeadlineBuffer := 32400
  requireAdminSender msg _ := decide (msg.sender = 9)
  preExecuteLeafHook _ _ := []
  bridgeTokensToHubPool _ _ _ _ := .ok []

def sampleWorld : World Unit where
  pool := ⟨9, 9, 0, false, false, [], fun _ _ => false, fun _ => .unfilled, 9, false, 0, 0, false, 0, 0⟩
  time := 0
  rest := ()
  trace := []

def sampleRelay : V3RelayData := ⟨6, 7, 0, 4, 5, 100, 99, 10, 0, 1000, 0, ⟨[], nil_fits⟩⟩

theorem sampleRelay_open (s : World Unit) (ht : s.time = 2) (hs : ∀ h, s.pool.fillStatuses h = .unfilled) :
    ¬ RelayRefused samplePool 8 sampleRelay s := by
  rw [RelayRefused, ht, hs]
  decide

/-- The admin pauses fills, and a relayer then fills a relay all the same. -/
theorem paused_fillV3Relay_fills :
    ∃ r ∈ (run samplePool willing 1 [.transact 1 ⟨9, 0⟩ (.pauseFills true),
        .transact 2 ⟨8, 0⟩ (.fillV3Relay sampleRelay 1)] sampleWorld).frames,
      r.pre.pool.pausedFills = true ∧ isFillEntry r.call = true ∧ ∃ post, r.post = .ok post ∧
        r.pre.pool.fillStatuses (getV3RelayHash 1 sampleRelay) = .unfilled ∧
        post.pool.fillStatuses (getV3RelayHash 1 sampleRelay) = .filled := by
  obtain ⟨t, ht⟩ : ∃ t, t = { sampleWorld with
      time := 1
      pool := { sampleWorld.pool with pausedFills := true }
      trace := [.event (.pauseFills true) (.pausedFills true)] } := ⟨_, rfl⟩
  have hp : Ok (run samplePool willing 1 [.transact 1 ⟨9, 0⟩ (.pauseFills true)]) sampleWorld () t := by
    rw [ht]
    rfl
  have hn : ¬ RelayRefused samplePool 8 sampleRelay { t with time := 2 } := by
    refine sampleRelay_open _ rfl fun h => ?_
    rw [ht]
    rfl
  obtain ⟨s', hs', hf⟩ := exec_fillV3Relay_willing 0 ⟨8, 0⟩ rfl 1 hn
  refine ⟨_, mem_run_frames rfl hp hs', ?_, rfl, s', rfl, ?_, hf⟩
  · rw [ht]
  · rw [ht]
    rfl

end Sample

end Across.PausedFills
