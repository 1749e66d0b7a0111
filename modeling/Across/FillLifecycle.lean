import Across.SpokeRules

namespace Across.FillLifecycle

open Abi CallExec CallExec.Exec SpokeTypes SpokeState SpokePool SpokeRules

variable {W : Type}

/-- The writes of the status of relay `h` in a stretch of history, each as the
old and the new status. -/
def writes (h : Bytes32) (t : List TraceItem) : List (FillStatus × FillStatus) :=
  t.filterMap fun
    | .status k old new => if k = h then some (old, new) else none
    | _ => none

/-- The `FilledV3Relay` events of relay `h`, each with the call that emitted it. -/
def fillEvents (chainId : Uint256) (h : Bytes32) (t : List TraceItem) : List (Call × FilledV3Relay) :=
  t.filterMap fun
    | .event call (.filledV3Relay f) =>
        if getV3RelayHash chainId f.relay = h then some (call, f) else none
    | _ => none

def payouts (h : Bytes32) (t : List TraceItem) : List ExternalCall :=
  t.filterMap fun
    | .external (some k) c => if k = h then some c else none
    | _ => none

inductive Forward : FillStatus → FillStatus → Prop
  | request : Forward .unfilled .requestedSlowFill
  | fastFill : Forward .unfilled .filled
  | requestedFill : Forward .requestedSlowFill .filled

inductive Path : FillStatus → List (FillStatus × FillStatus) → FillStatus → Prop
  | nil (a : FillStatus) : Path a [] a
  | cons {a b c : FillStatus} {ws : List (FillStatus × FillStatus)} (h : Forward a b) (hp : Path b ws c) :
      Path a ((a, b) :: ws) c

/-- The calls of one payment. A native payout depends on whether the recipient
has code, and so does the callback with the message. -/
def payoutCalls (V : Variant W) (sender : Address) (f : FilledV3Relay) (isSlowFill toContract withMessage : Bool) :
    List ExternalCall :=
  let out := f.relay.outputToken
  let info := f.relayExecutionInfo
  (if out = V.wrappedNativeToken then
      (if isSlowFill = false then [.safeTransferFrom out sender V.self info.updatedOutputAmount] else []) ++
      (if toContract then [.safeTransfer V.wrappedNativeToken info.updatedRecipient info.updatedOutputAmount]
       else [.wrappedWithdraw info.updatedOutputAmount, .sendValue info.updatedRecipient info.updatedOutputAmount])
    else if isSlowFill = false then [.safeTransferFrom out sender info.updatedRecipient info.updatedOutputAmount]
    else [.safeTransfer out info.updatedRecipient info.updatedOutputAmount]) ++
  (if withMessage then [.handleV3AcrossMessage info.updatedRecipient out info.updatedOutputAmount sender
    info.updatedMessage] else [])

/-- `cs` are the payments of one fill: none for a relayer that fills to itself. -/
def IsPayout (V : Variant W) (f : FilledV3Relay) (isSlowFill : Bool) (cs : List ExternalCall) : Prop :=
  ∃ sender, (sender = f.relayExecutionInfo.updatedRecipient ∧ isSlowFill = false ∧ cs = []) ∨
    ∃ toContract withMessage, cs = payoutCalls V sender f isSlowFill toContract withMessage

/-- One fill of a relay whose status was `old` before it. -/
structure Fill (V : Variant W) (old : FillStatus) (call : Call) (f : FilledV3Relay)
    (cs : List ExternalCall) : Prop where
  open_ : old ≠ .filled
  exists_kind : ∃ isSlowFill, fills call = some (f.relay, isSlowFill) ∧
    f.relayExecutionInfo.fillType = fillTypeOf isSlowFill old ∧ IsPayout V f isSlowFill cs

/-- All that can happen to one relay: nothing, a request, a fill, or a request
and later a fill. -/
inductive Lifecycle (V : Variant W) : FillStatus → List (FillStatus × FillStatus) →
    List (Call × FilledV3Relay) → List ExternalCall → FillStatus → Prop
  | idle (st : FillStatus) : Lifecycle V st [] [] [] st
  | request : Lifecycle V .unfilled [(.unfilled, .requestedSlowFill)] [] [] .requestedSlowFill
  | fill {old call f cs} (hf : Fill V old call f cs) :
      Lifecycle V old [(old, .filled)] [(call, f)] cs .filled
  | requestFill {call f cs} (hf : Fill V .requestedSlowFill call f cs) :
      Lifecycle V .unfilled [(.unfilled, .requestedSlowFill), (.requestedSlowFill, .filled)] [(call, f)] cs
        .filled

theorem Lifecycle.trans {V : Variant W} {a b c : FillStatus}
    {ws ws' : List (FillStatus × FillStatus)} {es es' : List (Call × FilledV3Relay)}
    {cs cs' : List ExternalCall} (h₁ : Lifecycle V a ws es cs b) (h₂ : Lifecycle V b ws' es' cs' c) :
    Lifecycle V a (ws ++ ws') (es ++ es') (cs ++ cs') c := by
  cases h₁ with
  | idle => exact h₂
  | request =>
      cases h₂ with
      | idle => exact .request
      | fill hf => exact .requestFill hf
  | fill hf =>
      cases h₂ with
      | idle => simpa only [List.append_nil] using .fill hf
      | fill hg => exact absurd rfl hg.open_
  | requestFill hf =>
      cases h₂ with
      | idle => simpa only [List.append_nil] using .requestFill hf
      | fill hg => exact absurd rfl hg.open_

theorem Lifecycle.of_filled {V : Variant W} {b : FillStatus}
    {ws : List (FillStatus × FillStatus)} {es : List (Call × FilledV3Relay)} {cs : List ExternalCall}
    (hl : Lifecycle V .filled ws es cs b) : b = .filled ∧ ws = [] ∧ es = [] ∧ cs = [] := by
  cases hl with
  | idle => exact ⟨rfl, rfl, rfl, rfl⟩
  | fill hf => exact absurd rfl hf.open_

/-- The history that a stretch of execution adds is a lifecycle of every relay. -/
def Extends (V : Variant W) (s s' : World W) : Prop :=
  ∃ t, s'.trace = s.trace ++ t ∧ ∀ h, Lifecycle V (s.pool.fillStatuses h) (writes h t)
    (fillEvents V.chainId h t) (payouts h t) (s'.pool.fillStatuses h)

section Extends

variable {V : Variant W} {s s' s'' : World W}

theorem Extends.silent {t : List TraceItem} (ht : s'.trace = s.trace ++ t)
    (hp : s'.pool.fillStatuses = s.pool.fillStatuses) (hw : ∀ h, writes h t = [])
    (he : ∀ h, fillEvents V.chainId h t = []) (hc : ∀ h, payouts h t = []) : Extends V s s' := by
  refine ⟨t, ht, fun h => ?_⟩
  rw [hw h, he h, hc h, hp]
  exact .idle _

theorem Extends.refl (s : World W) : Extends V s s :=
  .silent (t := []) (List.append_nil _).symm rfl (fun _ => rfl) (fun _ => rfl) fun _ => rfl

theorem Extends.trans (h₁ : Extends V s s') (h₂ : Extends V s' s'') : Extends V s s'' := by
  obtain ⟨t₁, ht₁, hl₁⟩ := h₁
  obtain ⟨t₂, ht₂, hl₂⟩ := h₂
  refine ⟨t₁ ++ t₂, by rw [ht₂, ht₁, List.append_assoc], fun h => ?_⟩
  simpa only [writes, fillEvents, payouts, List.filterMap_append] using (hl₁ h).trans (hl₂ h)

theorem Extends.request {h : Bytes32} (hs : s.pool.fillStatuses h = .unfilled)
    (hw : Ok (setFillStatus h .requestedSlowFill) s () s') : Extends V s s' := by
  obtain rfl := (update_ok _ _ _ _).mp hw
  refine ⟨[.status h .unfilled .requestedSlowFill], by rw [← hs], fun k => ?_⟩
  by_cases hk : k = h
  · subst hk
    simpa [writes, fillEvents, payouts, hs] using Lifecycle.request
  · simpa [writes, fillEvents, payouts, hk, Ne.symm hk] using Lifecycle.idle _

theorem time_extends (s : World W) (t : Nat) : Extends V s { s with time := t } :=
  .silent (t := []) (List.append_nil _).symm rfl (fun _ => rfl) (fun _ => rfl) fun _ => rfl

theorem rest_extends (s : World W) (w : W) : Extends V s { s with rest := w } :=
  .silent (t := []) (List.append_nil _).symm rfl (fun _ => rfl) (fun _ => rfl) fun _ => rfl

end Extends

/-- Extending the history as a guarantee, for every call whether or not a caller
reverts later. -/
def lifecycle (V : Variant W) : Guarantee (World W) (Frame W) where
  rel := Extends V
  frame r := ∀ s', r.post = .ok s' → Extends V r.pre s'
  refl := .refl
  trans := .trans

/-- During the payment of a filled relay `h` its history gains the calls `cs`
and nothing else, whatever the callees do in between. -/
def Paying (V : Variant W) (h : Bytes32) (cs : List ExternalCall) (s s' : World W) : Prop :=
  ∃ t, s'.trace = s.trace ++ t ∧
    (∀ k, k ≠ h → Lifecycle V (s.pool.fillStatuses k) (writes k t) (fillEvents V.chainId k t) (payouts k t)
      (s'.pool.fillStatuses k)) ∧
    (s.pool.fillStatuses h = .filled → s'.pool.fillStatuses h = .filled ∧ writes h t = [] ∧
      fillEvents V.chainId h t = [] ∧ payouts h t = cs)

section Paying

variable {V : Variant W} {H : Host W} {h : Bytes32} {s s' s'' : World W} {cs cs' : List ExternalCall}
  {enter : Msg → Call → Code W Unit}

theorem Paying.of_extends (he : Extends V s s') : Paying V h [] s s' := by
  obtain ⟨t, ht, hl⟩ := he
  refine ⟨t, ht, fun k _ => hl k, fun hs => ?_⟩
  have hh := hl h
  rw [hs] at hh
  exact hh.of_filled

theorem Paying.trans (h₁ : Paying V h cs s s') (h₂ : Paying V h cs' s' s'') :
    Paying V h (cs ++ cs') s s'' := by
  obtain ⟨t₁, ht₁, ho₁, hf₁⟩ := h₁
  obtain ⟨t₂, ht₂, ho₂, hf₂⟩ := h₂
  refine ⟨t₁ ++ t₂, by rw [ht₂, ht₁, List.append_assoc], fun k hk => ?_, fun hs => ?_⟩
  · simpa only [writes, fillEvents, payouts, List.filterMap_append] using (ho₁ k hk).trans (ho₂ k hk)
  · obtain ⟨hs', hw₁, he₁, hc₁⟩ := hf₁ hs
    obtain ⟨hs'', hw₂, he₂, hc₂⟩ := hf₂ hs'
    simp only [writes, fillEvents, payouts] at hw₁ he₁ hc₁ hw₂ he₂ hc₂ ⊢
    simp only [List.filterMap_append, hw₁, he₁, hc₁, hw₂, he₂, hc₂, hs'', List.append_nil, and_self]

theorem externalCall_paying (hn : ∀ msg call, Keeps (lifecycle V) (enter msg call))
    {c : ExternalCall} {u : Unit} (hc : Ok (externalCall H enter (some h) c) s u s') :
    Paying V h [c] s s' := by
  obtain ⟨_, s₁, h₁, h₂⟩ := (bind_ok _ _ _ _ _).mp hc
  obtain rfl := (update_ok _ _ _ _).mp h₁
  obtain ⟨w, _, hw, h₃⟩ := (bind_ok _ _ _ _ _).mp h₂
  obtain ⟨rfl, rfl⟩ := (read_ok _ _ _).mp hw
  have hp : Paying V h [c] s { s with trace := s.trace ++ [.external (some h) c] } := by
    refine ⟨[.external (some h) c], rfl, fun k hk => ?_, fun hs => ⟨hs, rfl, rfl, ?_⟩⟩
    · simpa [writes, fillEvents, payouts, Ne.symm hk] using Lifecycle.idle _
    · simp [payouts]
  exact hp.trans (.of_extends ((runCallee_keeps (fun _ _ => trivial) rest_extends hn _).rel h₃ fun _ _ => trivial))

theorem safeTransfer_paying (hn : ∀ msg call, Keeps (lifecycle V) (enter msg call))
    {token dst : Address} {amount : Uint256} {u : Unit}
    (hc : Ok (safeTransfer H (externalCall H enter) (some h) token dst amount) s u s') :
    Paying V h [.safeTransfer token dst amount] s s' := by
  simp only [safeTransfer, bind_ok, read_ok, require_ok] at hc
  obtain ⟨_, _, ⟨rfl, rfl⟩, _, _, ⟨-, rfl⟩, hx⟩ := hc
  exact externalCall_paying hn hx

theorem safeTransferFrom_paying (hn : ∀ msg call, Keeps (lifecycle V) (enter msg call))
    {token src dst : Address} {amount : Uint256} {u : Unit}
    (hc : Ok (safeTransferFrom H (externalCall H enter) (some h) token src dst amount) s u s') :
    Paying V h [.safeTransferFrom token src dst amount] s s' := by
  simp only [safeTransferFrom, bind_ok, read_ok, require_ok] at hc
  obtain ⟨_, _, ⟨rfl, rfl⟩, _, _, ⟨-, rfl⟩, hx⟩ := hc
  exact externalCall_paying hn hx

theorem unwrap_paying (hn : ∀ msg call, Keeps (lifecycle V) (enter msg call))
    {dst : Address} {amount : Uint256} {u : Unit}
    (hc : Ok (unwrapwrappedNativeTokenTo V H (externalCall H enter) (some h) dst amount) s u s') :
    ∃ toContract : Bool, Paying V h (if toContract then [.safeTransfer V.wrappedNativeToken dst amount]
      else [.wrappedWithdraw amount, .sendValue dst amount]) s s' := by
  obtain ⟨w, s₁, hw, h₁⟩ := (bind_ok _ _ _ _ _).mp hc
  obtain ⟨rfl, rfl⟩ := (read_ok _ _ _).mp hw
  by_cases hd : H.isContract s.rest dst = true
  · rw [if_pos hd] at h₁
    exact ⟨true, safeTransfer_paying hn h₁⟩
  · rw [if_neg hd] at h₁
    obtain ⟨_, s₂, h₂, h₃⟩ := (bind_ok _ _ _ _ _).mp h₁
    exact ⟨false, (externalCall_paying hn h₂).trans (externalCall_paying hn h₃)⟩

theorem callback_paying (hn : ∀ msg call, Keeps (lifecycle V) (enter msg call)) {p : Prop} [Decidable p]
    {c : ExternalCall} {u : Unit}
    (hc : Ok (if p then externalCall H enter (some h) c else Pure.pure ()) s u s') :
    ∃ withMessage : Bool, Paying V h (if withMessage then [c] else []) s s' := by
  by_cases hp : p
  · rw [if_pos hp] at hc
    exact ⟨true, externalCall_paying hn hc⟩
  · rw [if_neg hp] at hc
    obtain ⟨-, rfl⟩ := (pure_ok _ _ _ _).mp hc
    exact ⟨false, .of_extends (.refl s)⟩

theorem payOut_paying (hn : ∀ msg call, Keeps (lifecycle V) (enter msg call)) {msg : Msg}
    {p : V3RelayExecutionParams} {isSlowFill : Bool} {f : FilledV3Relay} {u : Unit}
    (hf : f.relay = p.relay) (hr : f.relayExecutionInfo.updatedRecipient = p.updatedRecipient)
    (hm : f.relayExecutionInfo.updatedMessage = p.updatedMessage)
    (ha : f.relayExecutionInfo.updatedOutputAmount = p.updatedOutputAmount)
    (hc : Ok (payOut V H (externalCall H enter) msg p isSlowFill) s u s') :
    ∃ toContract withMessage,
      Paying V p.relayHash (payoutCalls V msg.sender f isSlowFill toContract withMessage) s s' := by
  simp only [payOut] at hc
  simp only [payoutCalls, hf, hr, hm, ha]
  by_cases hw : p.relay.outputToken = V.wrappedNativeToken
  · rw [if_pos hw] at hc
    by_cases hs : isSlowFill = false
    · rw [if_pos hs] at hc
      obtain ⟨_, s₁, h₁, hc⟩ := (bind_ok _ _ _ _ _).mp hc
      obtain ⟨_, s₂, h₂, hc⟩ := (bind_ok _ _ _ _ _).mp hc
      obtain ⟨w, _, hw', hc⟩ := (bind_ok _ _ _ _ _).mp hc
      obtain ⟨rfl, rfl⟩ := (read_ok _ _ _).mp hw'
      obtain ⟨toContract, hu⟩ := unwrap_paying hn h₂
      obtain ⟨withMessage, hcb⟩ := callback_paying hn hc
      refine ⟨toContract, withMessage, ?_⟩
      rw [if_pos hw, if_pos hs]
      exact ((safeTransferFrom_paying hn h₁).trans hu).trans hcb
    · rw [if_neg hs] at hc
      obtain ⟨_, s₂, h₂, hc⟩ := (bind_ok _ _ _ _ _).mp hc
      obtain ⟨w, _, hw', hc⟩ := (bind_ok _ _ _ _ _).mp hc
      obtain ⟨rfl, rfl⟩ := (read_ok _ _ _).mp hw'
      obtain ⟨toContract, hu⟩ := unwrap_paying hn h₂
      obtain ⟨withMessage, hcb⟩ := callback_paying hn hc
      refine ⟨toContract, withMessage, ?_⟩
      rw [if_pos hw, if_neg hs]
      exact hu.trans hcb
  · rw [if_neg hw] at hc
    by_cases hs : isSlowFill = false
    · rw [if_pos hs] at hc
      obtain ⟨_, s₁, h₁, hc⟩ := (bind_ok _ _ _ _ _).mp hc
      obtain ⟨w, _, hw', hc⟩ := (bind_ok _ _ _ _ _).mp hc
      obtain ⟨rfl, rfl⟩ := (read_ok _ _ _).mp hw'
      obtain ⟨withMessage, hcb⟩ := callback_paying hn hc
      refine ⟨false, withMessage, ?_⟩
      rw [if_neg hw, if_pos hs]
      exact (safeTransferFrom_paying hn h₁).trans hcb
    · rw [if_neg hs] at hc
      obtain ⟨_, s₁, h₁, hc⟩ := (bind_ok _ _ _ _ _).mp hc
      obtain ⟨w, _, hw', hc⟩ := (bind_ok _ _ _ _ _).mp hc
      obtain ⟨rfl, rfl⟩ := (read_ok _ _ _).mp hw'
      obtain ⟨withMessage, hcb⟩ := callback_paying hn hc
      refine ⟨false, withMessage, ?_⟩
      rw [if_neg hw, if_neg hs]
      exact (safeTransfer_paying hn h₁).trans hcb

end Paying

section Fill

variable {V : Variant W} {H : Host W} {s s' : World W} {enter : Msg → Call → Code W Unit}

def afterFill (s : World W) (h : Bytes32) (call : Call) (f : FilledV3Relay) : World W :=
  { s with
    pool := { s.pool with fillStatuses := Function.update s.pool.fillStatuses h .filled }
    trace := s.trace ++ [.status h (s.pool.fillStatuses h) .filled] ++ [.event call (.filledV3Relay f)] }

theorem extends_of_paying {h : Bytes32} {call : Call} {f : FilledV3Relay} {cs : List ExternalCall}
    (hh : getV3RelayHash V.chainId f.relay = h) (hf : Fill V (s.pool.fillStatuses h) call f cs)
    (hp : Paying V h cs (afterFill s h call f) s') : Extends V s s' := by
  obtain ⟨t, ht, ho, hc⟩ := hp
  refine ⟨.status h (s.pool.fillStatuses h) .filled :: .event call (.filledV3Relay f) :: t, ?_, fun k => ?_⟩
  · rw [ht]
    simp only [afterFill, List.append_assoc, List.cons_append, List.nil_append]
  · by_cases hk : k = h
    · subst hk
      obtain ⟨hs', hw, he, hpay⟩ := hc (Function.update_self _ _ _)
      simp only [writes, fillEvents, payouts] at hw he hpay
      simpa only [writes, fillEvents, payouts, List.filterMap_cons, if_pos, hh, hw, he, hpay, hs'] using
        Lifecycle.fill hf
    · have hl := ho k hk
      have hne : getV3RelayHash V.chainId f.relay ≠ k := fun h' => hk (h'.symm.trans hh)
      simp only [afterFill, Function.update_of_ne hk] at hl
      simpa only [writes, fillEvents, payouts, List.filterMap_cons, if_neg (Ne.symm hk), if_neg hne] using hl

def fillEvent (p : V3RelayExecutionParams) (relayer : Address) (isSlowFill : Bool) (old : FillStatus) :
    FilledV3Relay :=
  ⟨p.relay, p.repaymentChainId, relayer,
    ⟨p.updatedRecipient, p.updatedMessage, p.updatedOutputAmount, fillTypeOf isSlowFill old⟩⟩

/-- A fill writes the status and emits the event first; the rest of it only
pays. -/
theorem fillRelayV3_paying (hn : ∀ msg call, Keeps (lifecycle V) (enter msg call)) {msg : Msg}
    {call : Call} {p : V3RelayExecutionParams} {relayer : Address} {isSlowFill : Bool} {u : Unit}
    (hr : Ok (fillRelayV3 V H (externalCall H enter) msg call p relayer isSlowFill) s u s') :
    s.pool.fillStatuses p.relayHash ≠ .filled ∧
      ∃ cs, IsPayout V (fillEvent p relayer isSlowFill (s.pool.fillStatuses p.relayHash)) isSlowFill cs ∧
        Paying V p.relayHash cs
          (afterFill s p.relayHash call (fillEvent p relayer isSlowFill (s.pool.fillStatuses p.relayHash))) s' := by
  simp only [fillRelayV3, bind_ok, read_ok, require_ok, setFillStatus, emit, update_ok] at hr
  obtain ⟨_, _, ⟨rfl, rfl⟩, _, _, ⟨-, rfl⟩, _, _, ⟨hst, rfl⟩, _, _, rfl, _, _, rfl, hr⟩ := hr
  refine ⟨hst, ?_⟩
  by_cases hself : msg.sender = p.updatedRecipient ∧ isSlowFill = false
  · rw [if_pos hself] at hr
    obtain ⟨-, rfl⟩ := (pure_ok _ _ _ _).mp hr
    exact ⟨[], ⟨msg.sender, .inl ⟨hself.1, hself.2, rfl⟩⟩, .of_extends (.refl _)⟩
  · rw [if_neg hself] at hr
    obtain ⟨toContract, withMessage, hpay⟩ := payOut_paying hn
      (f := fillEvent p relayer isSlowFill (s.pool.fillStatuses p.relayHash)) rfl rfl rfl rfl hr
    exact ⟨_, ⟨msg.sender, .inr ⟨toContract, withMessage, rfl⟩⟩, hpay⟩

theorem fillRelayV3_extends (hn : ∀ msg call, Keeps (lifecycle V) (enter msg call)) {msg : Msg}
    {call : Call} {p : V3RelayExecutionParams} {relayer : Address} {isSlowFill : Bool} {u : Unit}
    (hp : p.relayHash = getV3RelayHash V.chainId p.relay) (hc : fills call = some (p.relay, isSlowFill))
    (hr : Ok (fillRelayV3 V H (externalCall H enter) msg call p relayer isSlowFill) s u s') :
    Extends V s s' := by
  obtain ⟨hst, cs, hcs, hpay⟩ := fillRelayV3_paying hn hr
  have hf : Fill V (s.pool.fillStatuses p.relayHash) call
      (fillEvent p relayer isSlowFill (s.pool.fillStatuses p.relayHash)) cs := ⟨hst, isSlowFill, hc, rfl, hcs⟩
  have hh : getV3RelayHash V.chainId (fillEvent p relayer isSlowFill (s.pool.fillStatuses p.relayHash)).relay =
      p.relayHash := by
    rw [hp]
    rfl
  exact extends_of_paying hh hf hpay

theorem fillEvents_event {chainId : Uint256} {h : Bytes32} {call : Call} {e : Event} (he : ∀ f, e ≠ .filledV3Relay f) :
    fillEvents chainId h [.event call e] = [] := by
  cases e with
  | filledV3Relay f => exact absurd rfl (he f)
  | _ => rfl

theorem lifecycle_sound (V : Variant W) (H : Host W) : Sound V H (lifecycle V) where
  base _ _ := trivial
  owner _ _ _ := trivial
  rest := rest_extends
  pool _ _ hp _ := .silent (t := []) (List.append_nil _).symm hp (fun _ => rfl) (fun _ => rfl) fun _ => rfl
  event _ _ _ _ he := .silent rfl rfl (fun _ => rfl) (fun _ => fillEvents_event he) fun _ => rfl
  set _ he hw := .silent rfl hw.fillStatuses (fun _ => rfl) (fun _ => fillEvents_event he) fun _ => rfl
  external _ _ := .silent rfl rfl (fun _ => rfl) (fun _ => rfl) fun _ => rfl
  request := .request
  fill hn _ _ _ _ _ _ _ _ hp hc hr _ := fillRelayV3_extends hn hp hc hr

theorem exec_lifecycle (V : Variant W) (H : Host W) (n : Nat) (msg : Msg) (call : Call) :
    Keeps (lifecycle V) (exec V H n msg call) := by
  refine exec_keeps ((lifecycle_sound V H).rules fun _ => trivial) (fun n msg call s _ hrel s' hpost => ?_) n msg call
  exact hrel s' (ok_of_recorded hpost.symm)

end Fill

section Runs

def isSlowLeaf : Call → Bool
  | .executeV3SlowRelayLeaf .. => true
  | _ => false

/-- `fill` reaches the pool's relays only by a delegatecall of `fillV3Relay`, so
its fills are emitted by that function. -/
def isRelayerFill : Call → Bool
  | .fillV3Relay .. | .fillV3RelayWithUpdatedDeposit .. => true
  | _ => false

/-- What a stretch of history `t` did to relay `h`, whose status was `old`
before it and is `new` after it. -/
structure FilledOnce (V : Variant W) (h : Bytes32) (t : List TraceItem) (old new : FillStatus) : Prop where
  moves : Path old (writes h t) new
  once : (fillEvents V.chainId h t).length ≤ 1
  payout : payouts h t = [] ∨ ∃ call f, fillEvents V.chainId h t = [(call, f)] ∧
    IsPayout V f (isSlowLeaf call) (payouts h t)
  fillType : ∀ call f, (call, f) ∈ fillEvents V.chainId h t → ∃ before, (before, .filled) ∈ writes h t ∧
    (f.relayExecutionInfo.fillType = .slowFill ↔ isSlowLeaf call = true) ∧
    (f.relayExecutionInfo.fillType = .replacedSlowFill ↔
      isRelayerFill call = true ∧ before = .requestedSlowFill) ∧
    (f.relayExecutionInfo.fillType = .fastFill ↔
      isSlowLeaf call = false ∧ ¬ (isRelayerFill call = true ∧ before = .requestedSlowFill))

variable {V : Variant W}

theorem fills_kind {call : Call} {r : V3RelayData} {isSlowFill : Bool} (h : fills call = some (r, isSlowFill)) :
    isSlowLeaf call = isSlowFill ∧ isRelayerFill call = !isSlowFill := by
  cases call with
  | fillV3Relay _ _ | fillV3RelayWithUpdatedDeposit _ _ _ | executeV3SlowRelayLeaf _ _ _ =>
      simp only [fills, Option.some.injEq, Prod.mk.injEq] at h
      exact ⟨h.2, by rw [← h.2]; rfl⟩
  | _ => cases h

theorem fillTypeOf_slowFill (isSlowFill : Bool) (st : FillStatus) :
    fillTypeOf isSlowFill st = .slowFill ↔ isSlowFill = true := by
  cases isSlowFill <;> cases st <;> decide

theorem fillTypeOf_replacedSlowFill (isSlowFill : Bool) (st : FillStatus) :
    fillTypeOf isSlowFill st = .replacedSlowFill ↔ isSlowFill = false ∧ st = .requestedSlowFill := by
  cases isSlowFill <;> cases st <;> decide

theorem fillTypeOf_fastFill (isSlowFill : Bool) (st : FillStatus) :
    fillTypeOf isSlowFill st = .fastFill ↔ isSlowFill = false ∧ st ≠ .requestedSlowFill := by
  cases isSlowFill <;> cases st <;> decide

theorem Fill.fillType_iff {old : FillStatus} {call : Call} {f : FilledV3Relay} {cs : List ExternalCall}
    (hf : Fill V old call f cs) :
    (f.relayExecutionInfo.fillType = .slowFill ↔ isSlowLeaf call = true) ∧
    (f.relayExecutionInfo.fillType = .replacedSlowFill ↔
      isRelayerFill call = true ∧ old = .requestedSlowFill) ∧
    (f.relayExecutionInfo.fillType = .fastFill ↔
      isSlowLeaf call = false ∧ ¬ (isRelayerFill call = true ∧ old = .requestedSlowFill)) := by
  obtain ⟨isSlowFill, hc, ht, -⟩ := hf.exists_kind
  obtain ⟨hs, hr⟩ := fills_kind hc
  rw [ht, hs, hr, fillTypeOf_slowFill, fillTypeOf_replacedSlowFill, fillTypeOf_fastFill]
  cases isSlowFill <;> simp

theorem Fill.isPayout {old : FillStatus} {call : Call} {f : FilledV3Relay} {cs : List ExternalCall}
    (hf : Fill V old call f cs) : IsPayout V f (isSlowLeaf call) cs := by
  obtain ⟨isSlowFill, hc, -, hp⟩ := hf.exists_kind
  rw [(fills_kind hc).1]
  exact hp

theorem Forward.of_ne_filled {old : FillStatus} (h : old ≠ .filled) : Forward old .filled := by
  cases old with
  | unfilled => exact .fastFill
  | requestedSlowFill => exact .requestedFill
  | filled => exact absurd rfl h

theorem Lifecycle.filledOnce {h : Bytes32} {t : List TraceItem} {old new : FillStatus}
    (hl : Lifecycle V old (writes h t) (fillEvents V.chainId h t) (payouts h t) new) :
    FilledOnce V h t old new := by
  generalize hw : writes h t = ws at hl
  generalize he : fillEvents V.chainId h t = es at hl
  generalize hp : payouts h t = cs at hl
  cases hl with
  | idle =>
      refine ⟨hw ▸ .nil _, by simp [he], .inl hp, fun call f hm => ?_⟩
      rw [he] at hm
      exact absurd hm List.not_mem_nil
  | request =>
      refine ⟨hw ▸ .cons .request (.nil _), by simp [he], .inl hp, fun call f hm => ?_⟩
      rw [he] at hm
      exact absurd hm List.not_mem_nil
  | @fill _ call f _ hf =>
      refine ⟨hw ▸ .cons (.of_ne_filled hf.open_) (.nil _), by simp [he], .inr ⟨call, f, he, hp ▸ hf.isPayout⟩,
        fun call' f' hm => ⟨old, by simp [hw], ?_⟩⟩
      rw [he, List.mem_singleton, Prod.mk.injEq] at hm
      obtain ⟨rfl, rfl⟩ := hm
      exact hf.fillType_iff
  | @requestFill call f _ hf =>
      refine ⟨hw ▸ .cons .request (.cons .requestedFill (.nil _)), by simp [he],
        .inr ⟨call, f, he, hp ▸ hf.isPayout⟩, fun call' f' hm => ⟨.requestedSlowFill, by simp [hw], ?_⟩⟩
      rw [he, List.mem_singleton, Prod.mk.injEq] at hm
      obtain ⟨rfl, rfl⟩ := hm
      exact hf.fillType_iff

def OnceFilled (V : Variant W) (s s' : World W) : Prop :=
  ∃ t, s'.trace = s.trace ++ t ∧
    ∀ h, FilledOnce V h t (s.pool.fillStatuses h) (s'.pool.fillStatuses h)

theorem Extends.onceFilled {s s' : World W} (h : Extends V s s') : OnceFilled V s s' := by
  obtain ⟨t, ht, hl⟩ := h
  exact ⟨t, ht, fun h => (hl h).filledOnce⟩

/-- Whatever the transactions are and whatever the accounts they reach do, a
run never gets stuck, and over the whole run as well as over every call in it
that returns, at any depth, each relay is filled at most once. -/
theorem run_filled_once (V : Variant W) (H : Host W) (n : Nat) (inputs : List (Input W)) (s : World W) :
    ∃ s', Ok (run V H n inputs) s () s' ∧ OnceFilled V s s' ∧
      ∀ r ∈ (run V H n inputs s).frames, ∀ post, r.post = .ok post → OnceFilled V r.pre post := by
  have hk := run_keeps (fun _ _ => trivial) rest_extends time_extends (exec_lifecycle V H n) inputs
  obtain ⟨s', hs'⟩ := run_returns V H n inputs s
  refine ⟨s', hs', (hk.rel hs' fun _ _ => trivial).onceFilled, fun r hr post hpost => ?_⟩
  exact (hk.frames (fun _ _ => trivial) trivial r hr post hpost).onceFilled

end Runs

end Across.FillLifecycle
