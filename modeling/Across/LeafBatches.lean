import Across.AdminMessages

namespace Across.LeafBatches

open Abi Keccak MerkleProof CallExec CallExec.Exec SpokeTypes SpokeState SpokePool SpokeRules AdminMessages

variable {W : Type}

def isRefundLeaf : Call → Bool
  | .executeRelayerRefundLeaf .. => true
  | _ => false

def isBatch : Call → Bool
  | .multicall _ | .tryMulticall _ => true
  | _ => false

mutual

/-- All that a call can get to past the checks of its lists are refund leaves, when
`leaves` is true, or none is. A list that the check of Polygon turns down gets to
nothing. -/
def stays (leaves : Bool) : Call → Bool
  | .multicall data => !separatesLeaves false false data || staysAll leaves data
  | .tryMulticall data => !separatesLeaves false false data || staysAll leaves data
  | .processMessageFromRoot _ data => !leaves && stays leaves data
  | .executeRelayerRefundLeaf .. => leaves
  | _ => !leaves

def staysAll (leaves : Bool) : List Call → Bool
  | [] => true
  | c :: data => stays leaves c && staysAll leaves data

end

def callsOnly (P : Call → Prop) : Callee W → Prop
  | .halt _ _ => True
  | .invoke _ _ call resume => P call ∧ ∀ b s, callsOnly P (resume b s)

/-- Every call that succeeds is a batch, or a refund leaf exactly when `leaves` is
true. -/
def apart (leaves : Bool) : Guarantee (World W) (Frame W) where
  rel _ _ := True
  frame r := (∃ post, r.post = .ok post) → isBatch r.call = true ∨ isRefundLeaf r.call = leaves
  refl _ := trivial
  trans _ _ := trivial

section Apart

variable {leaves : Bool} {V : Variant W} {H : Host W} {n : Nat} {msg : Msg} {call : Call}
  {run : Msg → Call → Code W Unit} {P : Call → Prop}

theorem apart_rules (leaves : Bool) (V : Variant W) (H : Host W) : Rules V H (apart leaves) :=
  (Free.sound ⟨fun _ _ => trivial, fun _ _ => trivial, fun _ _ => trivial, fun _ _ => trivial⟩
    fun _ _ _ => trivial).rules fun _ => trivial

theorem isBatch_of_leaf (h : isRefundLeaf call = true) : isBatch call = false := by
  cases call with
  | executeRelayerRefundLeaf _ _ _ => rfl
  | _ => cases h

theorem stays_mem {data : List Call} (h : staysAll leaves data = true) : ∀ c ∈ data, stays leaves c = true := by
  induction data with
  | nil => exact fun _ hc => absurd hc List.not_mem_nil
  | cons d data ih =>
      rw [staysAll, Bool.and_eq_true] at h
      intro c hc
      rcases List.mem_cons.mp hc with rfl | hc
      · exact h.1
      · exact ih h.2 c hc

theorem stays_kind (h : stays leaves call = true) : isBatch call = true ∨ isRefundLeaf call = leaves := by
  cases call with
  | multicall _ | tryMulticall _ => exact .inl rfl
  | executeRelayerRefundLeaf _ _ _ => exact .inr h.symm
  | processMessageFromRoot _ _ =>
      rw [stays, Bool.and_eq_true, Bool.not_eq_true'] at h
      exact .inr h.1.symm
  | _ => exact .inr (Bool.not_eq_true' _ ▸ h).symm

/-- The same code, made to revert on calls that are not in `P`. -/
def restrict (P : Call → Prop) [DecidablePred P] (run : Msg → Call → Code W Unit) : Msg → Call → Code W Unit :=
  fun msg call => if P call then run msg call else revert .panic

theorem runCallee_restrict [DecidablePred P] {c : Callee W} (hc : callsOnly P c) :
    runCallee run c = runCallee (restrict P run) c := by
  induction c with
  | halt ok w => cases ok <;> rfl
  | invoke w msg call resume ih =>
      have hcall : restrict P run msg call = run msg call := if_pos hc.1
      have hresume : ∀ b s, runCallee run (resume b s) = runCallee (restrict P run) (resume b s) :=
        fun b s => ih b s (hc.2 b s)
      simp only [runCallee, hcall, hresume]

theorem externalCall_restrict [DecidablePred P] (hH : ∀ c s, callsOnly P (H.behave c s)) :
    externalCall H run = externalCall H (restrict P run) := by
  funext o c
  have hcallee : ∀ s, runCallee run (H.behave c s) = runCallee (restrict P run) (H.behave c s) :=
    fun s => runCallee_restrict (hH c s)
  simp only [externalCall, hcallee]

theorem restrict_keeps {G : Guarantee (World W) (Frame W)} [DecidablePred P]
    (hr : ∀ msg call, P call → Keeps G (run msg call))
    (msg : Msg) (call : Call) : Keeps G (restrict P run msg call) := by
  by_cases hp : P call
  · rw [restrict, if_pos hp]
    exact hr msg call hp
  · rw [restrict, if_neg hp]
    exact Keeps.revert _

theorem batch_keeps {data : List Call} {m : Code W Unit}
    (hc : (!separatesLeaves false false data || staysAll leaves data) = true)
    (hm : (∀ c ∈ data, stays leaves c = true) → Keeps (apart leaves) m) :
    Keeps (apart leaves)
      (require ((chainPool .polygon V).validateMulticallData data = true) .multicallExecuteLeaf >>= fun _ => m :
      Code W Unit) := by
  intro s
  apply Keeps.bind_at (Keeps.require _ _ s)
  intro _ t h
  obtain ⟨hv, rfl⟩ := (require_ok _ _ _ _ _).mp h
  have hs : separatesLeaves false false data = true := hv
  rw [hs] at hc
  exact hm (stays_mem hc) s

theorem dispatch_apart {enter : Msg → Call → Code W Unit} {self : Call → Code W Unit} (hc : stays leaves call = true)
    (hn : ∀ msg call, Keeps (apart leaves) (enter msg call))
    (hs : ∀ c, stays leaves c = true → Keeps (apart leaves) (self c))
    (s : World W) : KeepsAt (apart leaves)
      (dispatch (chainPool .polygon V) H (externalCall H enter) self msg call call) s := by
  have hrules := apart_rules leaves (chainPool .polygon V) H
  have hown : ∃ f : Frame W, (apart leaves).given f ∧ f.msg = msg ∧ f.call = call ∧ f.pre = s :=
    ⟨⟨msg, call, s, .ok s⟩, trivial, rfl, rfl, rfl⟩
  cases call with
  | multicall data => exact batch_keeps hc (fun hd => Keeps.forEach_mem fun c hc => hs c (hd c hc)) s
  | tryMulticall data =>
      refine batch_keeps hc (fun hd => Keeps.forEach_mem fun c hc => ?_) s
      exact Keeps.bind (Keeps.attempt (hs c (hd c hc))) fun _ => Keeps.pure ()
  | processMessageFromRoot root data =>
      rw [stays, Bool.and_eq_true] at hc
      exact processMessageFromRoot_keeps (fun _ _ _ => trivial) (fun _ _ _ => trivial) (fun _ _ => trivial)
        (fun _ _ _ _ => trivial) (hs data hc.2) msg _ root s
  | fill o d f =>
      refine fill_keeps (hs _ ?_) o s
      simp only [decodeFillCall]
      split
      · exact hc
      · exact hc
  | _ =>
      -- none of the functions left uses `self`
      have hself : ∀ c, Keeps (apart leaves) ((fun _ => revert .panic : Call → Code W Unit) c) :=
        fun _ => Keeps.revert _
      refine dispatch_keeps hrules hn hself hown ?_
      rintro _ _ ⟨⟩

theorem enter_apart (hr : ∀ msg call, stays leaves call = true → Keeps (apart leaves) (run msg call)) (msg : Msg)
    (call : Call)
    (hc : stays leaves call = true) : Keeps (apart leaves) (enter H run msg call) := by
  refine Keeps.bind Keeps.read fun s => ?_
  split
  · exact Keeps.revert _
  · exact Keeps.bind (Keeps.update (fun _ => trivial) fun _ _ => trivial) fun _ => hr msg call hc

theorem exec_apart (hH : ∀ c s, callsOnly (fun m => stays leaves m = true) (H.behave c s)) (n : Nat) :
    ∀ msg call, stays leaves call = true → Keeps (apart leaves) (exec (chainPool .polygon V) H n msg call) := by
  induction n with
  | zero => exact fun _ _ _ => Keeps.revert _
  | succ n ih =>
      intro msg call hc s
      apply Keeps.record_at
      · intro _
        apply Keeps.bind_at (Keeps.require _ _ s)
        intro _ t _
        rw [externalCall_restrict (P := fun m => stays leaves m = true) hH]
        exact dispatch_apart hc (restrict_keeps (enter_apart ih)) (ih msg) t
      · exact fun _ _ _ => stays_kind hc

end Apart

section Batches

variable {V : Variant W} {H : Host W} {n : Nat} {msg : Msg} {a b : Call} {s s₁ s₂ : World W}

theorem exec_multicall {data : List Call} (hv : msg.value = 0) (hd : V.validateMulticallData data = true)
    (h : Ok (forEach (exec V H n msg) data) s () s₁) : Ok (exec V H (n + 1) msg (.multicall data)) s () s₁ := by
  refine (record_ok _ _ _ _ _).mpr ((bind_ok _ _ _ _ _).mpr ⟨(), s, (require_ok _ _ _ _ _).mpr ⟨.inl hv, rfl⟩, ?_⟩)
  exact (bind_ok _ _ _ _ _).mpr ⟨(), s, (require_ok _ _ _ _ _).mpr ⟨hd, rfl⟩, h⟩

theorem mem_multicall_frames {data : List Call} {r : Frame W} (hv : msg.value = 0)
    (hd : V.validateMulticallData data = true)
    (hr : r ∈ (forEach (exec V H n msg) data s).frames) : r ∈ (exec V H (n + 1) msg (.multicall data) s).frames := by
  apply List.mem_cons_of_mem
  apply frames_bind_right ((require_ok _ _ _ _ ()).mpr ⟨.inl hv, rfl⟩)
  exact frames_bind_right ((require_ok _ _ _ _ ()).mpr ⟨hd, rfl⟩) hr

/-- A refund leaf in a list of its own, inside a list with another function. The
check of the outer list sees no leaf. -/
theorem nested_executes (hv : msg.value = 0) (ha : isRefundLeaf a = true) (hb : isRefundLeaf b = false)
    (hne : b ≠ .receive)
    (h₁ : Ok (exec (chainPool .polygon V) H n msg a) s () s₁)
    (h₂ : Ok (exec (chainPool .polygon V) H (n + 1) msg b) s₁ () s₂) :
    Ok (exec (chainPool .polygon V) H (n + 2) msg (.multicall [.multicall [a], b])) s () s₂ ∧
      ⟨msg, a, s, .ok s₁⟩ ∈ (exec (chainPool .polygon V) H (n + 2) msg (.multicall [.multicall [a], b]) s).frames ∧
      ⟨msg, b, s₁, .ok s₂⟩ ∈ (exec (chainPool .polygon V) H (n + 2) msg (.multicall [.multicall [a], b]) s).frames := by
  have hinner : (chainPool .polygon V).validateMulticallData [a] = true := by
    cases a with
    | executeRelayerRefundLeaf _ _ _ => rfl
    | _ => cases ha
  have houter : (chainPool .polygon V).validateMulticallData [.multicall [a], b] = true := by
    cases b with
    | executeRelayerRefundLeaf _ _ _ => cases hb
    | receive => exact absurd rfl hne
    | _ => rfl
  have hin : Ok (exec (chainPool .polygon V) H (n + 1) msg (.multicall [a])) s () s₁ :=
    exec_multicall hv hinner ((forEach_cons_ok _ _ _ _ _ _).mpr ⟨s₁, h₁, (forEach_nil_ok _ _ _ _).mpr rfl⟩)
  refine ⟨exec_multicall hv houter ?_, mem_multicall_frames hv houter ?_, mem_multicall_frames hv houter ?_⟩
  · exact (forEach_cons_ok _ _ _ _ _ _).mpr ⟨s₁, hin, (forEach_cons_ok _ _ _ _ _ _).mpr ⟨s₂, h₂,
      (forEach_nil_ok _ _ _ _).mpr rfl⟩⟩
  · apply frames_bind_left
    exact mem_multicall_frames hv hinner (frames_bind_left _ (mem_frames_ok h₁))
  · exact frames_bind_right hin (frames_bind_left _ (mem_frames_ok h₂))

end Batches

section Theorems

open PausedFills (samplePool sampleWorld willing)

def sampleLeaf : RelayerRefundLeaf := ⟨0, 1, [], 0, 5, []⟩

def sampleRoot : Bytes32 := keccak256 (encode [.tail (encode sampleLeaf.parts)])

def sampleRelayed : World Unit :=
  { sampleWorld with pool := { sampleWorld.pool with rootBundles := [⟨0, sampleRoot, fun _ => 0⟩] } }

def sampleExecution : Call := .executeRelayerRefundLeaf 0 sampleLeaf []

def sampleExecuted : World Unit :=
  { sampleRelayed with
    pool := { sampleWorld.pool with rootBundles := [⟨0, sampleRoot, setClaimed (fun _ => 0) 0⟩] }
    trace := [.event sampleExecution (.executedRelayerRefundRoot 0 sampleLeaf 8)] }

theorem sampleExecution_ok (n : Nat) :
    Ok (exec (chainPool .polygon samplePool) willing (n + 1) ⟨8, 0⟩ sampleExecution)
      sampleRelayed () sampleExecuted := by
  have hv : verifyRelayerRefund sampleRoot sampleLeaf [] = true := decide_eq_true rfl
  refine (record_ok _ _ _ _ _).mpr ((bind_ok _ _ _ _ _).mpr ⟨(), _, (require_ok _ _ _ _ _).mpr ⟨.inl rfl, rfl⟩, ?_⟩)
  refine (bind_ok _ _ _ _ _).mpr ⟨(), sampleRelayed, ?_, (bind_ok _ _ _ _ _).mpr ⟨_, _, rfl, ?_⟩⟩
  · exact (bind_ok _ _ _ _ _).mpr ⟨_, _, rfl, (require_ok _ _ _ _ _).mpr ⟨.inr (.inl rfl), rfl⟩⟩
  refine (bind_ok _ _ _ _ _).mpr ⟨(), _, (require_ok _ _ _ _ _).mpr ⟨rfl, rfl⟩, (bind_ok _ _ _ _ _).mpr ⟨_, _, rfl, ?_⟩⟩
  refine (bind_ok _ _ _ _ _).mpr ⟨(), { sampleExecuted with pool := { sampleExecuted.pool with entered := true } },
    ?_, rfl⟩
  refine (bind_ok _ _ _ _ _).mpr ⟨_, _, rfl, (bind_ok _ _ _ _ _).mpr ⟨(), _, (forEach_nil_ok _ _ _ _).mpr rfl, ?_⟩⟩
  refine (bind_ok _ _ _ _ _).mpr ⟨(), _, (require_ok _ _ _ _ _).mpr ⟨rfl, rfl⟩, (bind_ok _ _ _ _ _).mpr ⟨_, _, rfl, ?_⟩⟩
  refine (bind_ok _ _ _ _ _).mpr ⟨(), _, (require_ok _ _ _ _ _).mpr ⟨hv, rfl⟩, ?_⟩
  exact (bind_ok _ _ _ _ _).mpr ⟨(), _, rfl, (bind_ok _ _ _ _ _).mpr ⟨(), _, rfl, rfl⟩⟩

theorem sampleWrap_ok (n : Nat) :
    Ok (exec (chainPool .polygon samplePool) willing (n + 1) ⟨8, 0⟩ .wrap) sampleExecuted () sampleExecuted := rfl

end Theorems

end Across.LeafBatches
