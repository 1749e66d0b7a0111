import Across.Mailbox
import Across.HubMessages
import Across.AdminCalldata
import Across.AdminScope
import Across.RefundLeaves

namespace Across.CrossChain

open WordBytes Abi Keccak CallExec CallExec.Exec SpokeTypes SpokeState SpokePool SpokeRules SpokeLedger SpokeBooks
  AdminMessages AdminScope AdminCalldata HubMessages Mailbox

variable {W : Type}

section Obedience

/-- What the messages of the hub pool are for: the settings after one. -/
def obey (a : Settings) : Call → Settings
  | .pauseDeposits b => { a with pausedDeposits := b }
  | .pauseFills b => { a with pausedFills := b }
  | .setCrossDomainAdmin x => { a with crossDomainAdmin := x }
  | .setWithdrawalRecipient x => { a with withdrawalRecipient := x }
  | .relayRootBundle r s => { a with roots := a.roots ++ [(r, s)] }
  | .emergencyDeleteRootBundle i => { a with roots := a.roots.modify i.toNat fun _ => (0, 0) }
  | .setFxChild x => { a with fxChild := x }
  | .setPolygonTokenBridger x => { a with polygonTokenBridger := x }
  | _ => a

def obeyMessage (a : Settings) (m : Message) : Settings :=
  match decodeAdmin m.data with
  | some call => obey a call
  | none => a

theorem obeyMessage_eq {a : Settings} {m : Message} {call : Call} (h : decodeAdmin m.data = some call) :
    obeyMessage a m = obey a call := by
  rw [obeyMessage, h]

theorem settings_effect (p : Storage) (m : Call) : settings (effect p m) = obey (settings p) m := by
  cases m with
  | relayRootBundle r s =>
      simp only [settings, effect, obey, List.map_append, List.map_cons, List.map_nil]
      rfl
  | emergencyDeleteRootBundle i =>
      have hr : ∀ b : RootBundle, rootsOf ⟨0, 0, b.claimedBitmap⟩ = (0, 0) := fun _ => rfl
      simp only [settings, effect, obey, map_modify (h := fun _ => (0, 0)) hr]
  | _ => rfl

end Obedience

section Roots

def relayedRoot : TraceItem → Option (Bytes32 × Bytes32)
  | .event _ (.relayedRootBundle _ r s) => some (r, s)
  | _ => none

def relayedRoots (t : List TraceItem) : List (Bytes32 × Bytes32) := t.filterMap relayedRoot

/-- The roots that a message brings. -/
def broughtRoots (m : Message) : Option (Bytes32 × Bytes32) :=
  match decodeAdmin m.data with
  | some (.relayRootBundle r s) => some (r, s)
  | _ => none

variable {Made : Msg → Call → Prop} {L L' : Ledger} {t : List TraceItem} {b : RootBundle}

theorem mem_modify {α : Type} {f : α → α} {as : List α} {i : Nat} {a : α} (h : a ∈ as.modify i f) :
    a ∈ as ∨ ∃ c ∈ as, a = f c := by
  obtain ⟨k, hk⟩ := List.mem_iff_getElem?.mp h
  rw [List.getElem?_modify] at hk
  cases hc : as[k]? with
  | none => simp [hc] at hk
  | some c =>
      have hmem : c ∈ as := List.mem_of_getElem? hc
      rw [hc] at hk
      replace hk := Option.some.inj hk
      split at hk
      · exact .inr ⟨c, hmem, hk.symm⟩
      · exact .inl (hk ▸ hmem)

theorem event_of_mem_executions {i l : Uint32} {leaf : RelayerRefundLeaf}
    (h : leaf ∈ executions i l t) : ∃ call caller, .event call (.executedRelayerRefundRoot i leaf caller) ∈ t := by
  obtain ⟨x, hx, heq⟩ := List.mem_filterMap.mp h
  split at heq
  · split at heq
    · rename_i hid
      obtain rfl := Option.some.inj heq
      obtain ⟨rfl, -⟩ := hid
      exact ⟨_, _, hx⟩
    · cases heq
  · cases heq

/-- A bundle of the ledger has the roots that it was relayed with, or has been deleted. -/
theorem roots_of_posted (h : Posted Made L t L') (hb : b ∈ L'.rootBundles) :
    rootsOf b = (0, 0) ∨ (∃ b₀ ∈ L.rootBundles, rootsOf b = rootsOf b₀) ∨ rootsOf b ∈ relayedRoots t := by
  induction h with
  | nil L => exact .inr (.inl ⟨b, hb, rfl⟩)
  | @skip L L' x t hx h ih =>
      rcases ih hb with hz | hold | hnew
      · exact .inl hz
      · exact .inr (.inl hold)
      · exact .inr (.inr ((List.sublist_cons_self x t).filterMap relayedRoot |>.subset hnew))
  | @post L L₁ L' x t hx h ih =>
      rcases ih hb with hz | ⟨b₁, hb₁, heq⟩ | hnew
      · exact .inl hz
      · cases hx with
        | relayed r s =>
            rcases List.mem_append.mp hb₁ with hb₁ | hb₁
            · exact .inr (.inl ⟨b₁, hb₁, heq⟩)
            · obtain rfl := List.mem_singleton.mp hb₁
              rw [heq]
              exact .inr (.inr List.mem_cons_self)
        | deleted hi =>
            rcases mem_modify hb₁ with hb₁ | ⟨c, hc, rfl⟩
            · exact .inr (.inl ⟨b₁, hb₁, heq⟩)
            · exact .inl heq
        | executed hm hget hv hc =>
            rcases mem_modify hb₁ with hb₁ | ⟨c, hc, rfl⟩
            · exact .inr (.inl ⟨b₁, hb₁, heq⟩)
            · exact .inr (.inl ⟨c, hc, heq⟩)
        | deposited _ _ _ | depositedUnsafe _ _ => exact .inr (.inl ⟨b₁, hb₁, heq⟩)
      · exact .inr (.inr ((List.sublist_cons_self x t).filterMap relayedRoot |>.subset hnew))

/-- A leaf is executed under the root of a bundle that the ledger has at that time. -/
theorem executed_of_posted {t₁ t₂ : List TraceItem} {call : Call} {id : Uint32} {leaf : RelayerRefundLeaf}
    {caller : Address}
    (h : Posted Made L (t₁ ++ .event call (.executedRelayerRefundRoot id leaf caller) :: t₂) L') :
    ∃ M b proof, Posted Made L t₁ M ∧ b ∈ M.rootBundles ∧ verifyRelayerRefund b.relayerRefundRoot leaf proof = true := by
  obtain ⟨M, h₁, h₂⟩ := h.split
  cases h₂ with
  | skip hx _ => cases hx
  | post hx _ =>
      cases hx with
      | executed _ hget hv _ => exact ⟨M, _, _, h₁, List.mem_of_getElem? hget, hv⟩

end Roots

section Deliveries

variable {c : Chain} {V : Variant W} {H : Host W} {n : Nat} {hubPool : Address} {m : Call} {s s' : World W}

def rootsIn : Call → List (Bytes32 × Bytes32)
  | .relayRootBundle r s => [(r, s)]
  | _ => []

theorem relayedRoots_announced (p : Storage) (hm : isAdmin m = true) (call : Call) :
    relayedRoots [.event call (announced p m)] = rootsIn m := by
  cases m with
  | relayRootBundle _ _ | pauseDeposits _ | pauseFills _ | setCrossDomainAdmin _ | setWithdrawalRecipient _
  | setEnableRoute _ _ _ | emergencyDeleteRootBundle _ | setFxChild _ | setPolygonTokenBridger _ => rfl
  | _ => cases hm

/-- What a message that is brought to a pool does there. -/
structure Obeyed (m : Call) (s s' : World W) : Prop where
  pool : s'.pool = effect s.pool m
  trace : ∃ t, s'.trace = s.trace ++ t ∧ relayedRoots t = rootsIn m
  booked : Booked (fun _ _ => True) s s'

theorem exec_booked {msg : Msg} {call : Call} (h : Ok (exec V H n msg call) s () s') :
    Booked (fun _ _ => True) s s' :=
  (exec_books (fun _ _ => True) V H n msg call).rel h fun _ _ => trivial

theorem exec_obeyed {msg : Msg} (hm : isAdmin m = true) (hv : msg.value = 0) (h : Ok (exec V H n msg m) s () s') :
    Obeyed m s s' := by
  cases n with
  | zero => exact ((revert_ok _ _ _ _).mp h).elim
  | succ n =>
      have hb := exec_booked h
      obtain ⟨-, -, -, rfl⟩ := (exec_admin hm hv).mp h
      exact ⟨rfl, ⟨_, rfl, relayedRoots_announced s.pool hm m⟩, hb⟩

theorem deliver_obeyed (hs : Idle s.pool) (hm : isAdmin m = true)
    (h : Ok (deliver c V H n hubPool s.pool m) s () s') : Obeyed m s s' := by
  rw [deliver_ok] at h
  cases c with
  | ethereum | arbitrum => exact exec_obeyed hm rfl h
  | polygon =>
      have hb := exec_booked h
      cases n with
      | zero => exact ((revert_ok _ _ _ _).mp h).elim
      | succ n =>
          obtain ⟨-, -, -, t, ht, rfl⟩ := processMessageFromRoot_ok.mp (exec_dispatch h)
          obtain ⟨hpool, ⟨l, htrace, hl⟩, -⟩ := exec_obeyed hm rfl ht
          refine ⟨?_, ⟨l ++ [.event (delivered .polygon hubPool s.pool m).2
            (.receivedMessageFromL1 (delivered .polygon hubPool s.pool m).1.sender hubPool)], ?_, ?_⟩, hb⟩
          · change { t.pool with callValidated := false } = _
            rw [hpool]
            exact effect_validated hs.callValidated m
          · change t.trace ++ _ = _
            rw [htrace, List.append_assoc]
            rfl
          · rw [relayedRoots, List.filterMap_append]
            exact (List.append_nil _).trans hl

theorem Obeyed.idle (h : Obeyed m s s') (hs : Idle s.pool) : Idle s'.pool := by
  rw [h.pool]
  obtain ⟨howner, hval, -, -⟩ := effect_guards s.pool m
  exact ⟨howner.trans hs.owner, hval.trans hs.callValidated, (entered_effect s.pool m).trans hs.entered⟩

end Deliveries

section Transactions

variable {c : Chain} {V : Variant W} {H : Host W} {n : Nat} {hubPool : Address} {s s' : World W}
  {inputs : List (Input W)}

/-- The call of record `r` is one of the hub pool, or of whoever else is in charge of the
pool. Only Polygon has an FxChild, elsewhere this is the zero address. -/
def ByHub (c : Chain) (hubPool : Address) (r : Frame W) : Prop :=
  (∃ data, FromRoot r data) ∨ match c with
    | .ethereum => r.msg.sender = hubPool
    | .arbitrum => r.msg.sender = applyL1ToL2Alias r.pre.pool.crossDomainAdmin
    | .polygon => False

/-- What transactions without a message of the hub pool do to a pool. -/
structure Unled (s s' : World W) : Prop where
  idle : Idle s'.pool
  settings : settings s'.pool = settings s.pool
  trace : ∃ t, s'.trace = s.trace ++ t ∧ relayedRoots t = []
  booked : Booked (fun _ _ => True) s s'

theorem foldl_afterItem {t : List TraceItem} (ht : ∀ call e, .event call e ∈ t → isSetting e = false) (a : Settings) :
    t.foldl afterItem a = a := by
  induction t generalizing a with
  | nil => rfl
  | cons x t ih =>
      have hx : afterItem a x = a := by
        cases x with
        | event call e => exact after_of_not_setting (ht call e List.mem_cons_self) a
        | _ => rfl
      rw [List.foldl_cons, hx]
      exact ih (fun call e he => ht call e (List.mem_cons_of_mem _ he)) a

theorem relayedRoots_of_not_setting {t : List TraceItem} (ht : ∀ call e, .event call e ∈ t → isSetting e = false) :
    relayedRoots t = [] := by
  refine List.filterMap_eq_nil_iff.mpr fun x hx => ?_
  cases x with
  | event call e =>
      have he := ht call e hx
      cases e with
      | relayedRootBundle _ _ _ => cases he
      | _ => rfl
  | _ => rfl

theorem not_passed {fs : List (Frame W)} (hg : ∀ r ∈ fs, (governed fs).frame r)
    (hf : ∀ r ∈ fs, r.msg.sender ≠ 0 ∧ ¬ ByHub c hubPool r) (l : List TraceItem) (call : Call) :
    ¬ Passed (chainPool c V) fs l call := by
  rintro ⟨r, hr, -, -, hp⟩
  obtain ⟨howner, hflag⟩ := hg r hr
  obtain ⟨hz, hby⟩ := hf r hr
  cases c with
  | ethereum =>
      have hsender : r.pre.pool.owner = r.msg.sender := of_decide_eq_true hp
      exact hz (hsender.symm.trans howner)
  | arbitrum => exact hby (.inr (of_decide_eq_true (p := r.msg.sender = _) hp))
  | polygon =>
      rcases hflag with hflag | ⟨q, hq, hroot, -⟩
      · exact absurd (hflag.symm.trans hp) Bool.false_ne_true
      · exact (hf q hq).2 (.inl ⟨_, hroot⟩)

theorem run_unled (hs : Idle s.pool) (h : Ok (run (chainPool c V) H n inputs) s () s')
    (hf : ∀ r ∈ (run (chainPool c V) H n inputs s).frames, r.msg.sender ≠ 0 ∧ ¬ ByHub c hubPool r) : Unled s s' := by
  have ho : Ordinary (run (chainPool c V) H n inputs s).frames :=
    ⟨fun r hr => (hf r hr).1, fun q hq data hroot => absurd (.inl ⟨data, hroot⟩) (hf q hq).2⟩
  have hg := run_governed ho
  have hidle := hg.base h (fun _ hr => hr) ⟨hs.owner, hs.callValidated⟩
  have hframes := hg.frames (fun _ hr => hr) ⟨hs.owner, hs.callValidated⟩
  obtain ⟨t, ht, hset, hpassed⟩ := (run_administered (chainPool c V) H n inputs
    (run (chainPool c V) H n inputs s).frames).rel h fun _ hr => hr
  have hquiet : ∀ call e, .event call e ∈ t → isSetting e = false := by
    intro call e he
    obtain ⟨l, l', hsplit⟩ := List.append_of_mem he
    rw [Bool.eq_false_iff]
    exact fun hsetting => not_passed hframes hf _ _ (hpassed l call e l' hsplit hsetting)
  have hb : Booked (fun _ _ => True) s s' :=
    (run_keeps (H := H) (books_blind _).base (books_blind _).rest (fun _ _ => .silent rfl rfl rfl rfl)
      (exec_books (fun _ _ => True) (chainPool c V) H n) inputs).rel h fun _ _ => trivial
  refine ⟨⟨hidle.1, hidle.2, hb.entered.trans hs.entered⟩, ?_, ⟨t, ht, relayedRoots_of_not_setting hquiet⟩, hb⟩
  rw [hset, foldl_afterItem hquiet]

end Transactions

section Network

/-- A spoke pool, with the chain that it is on and the accounts there. -/
structure Spoke (W : Type) where
  chain : Chain
  variant : Variant W
  host : Host W
  depth : Nat

variable {ι : Type}

/-- The hub pool and its spoke pools. The hub pool is known by what has happened to it.
A message reaches the pool that it is addressed to when it succeeds there, and the
bridges of the chains let nobody else call a pool in the name of the hub pool. -/
def network (D : HubState.Deployment) (w₀ : HubState.World) (pools : ι → Spoke W) :
    Protocol (List HubRun.Input) ι (World W) Message where
  post is is' ms := ∃ i, is' = is ++ [i] ∧
    ms = (HubProposals.callOf D (HubRun.run D w₀ is) i).toList.flatMap messages
  receive i m s s' := m.chainId = (pools i).variant.chainId ∧ m.spokePool = (pools i).variant.self ∧
    ∃ call time, decodeAdmin m.data = some call ∧
      Ok (deliver (pools i).chain (pools i).variant (pools i).host (pools i).depth D.self s.pool call)
        { s with time := time } () s'
  act i s s' := ∃ inputs,
    Ok (run (chainPool (pools i).chain (pools i).variant) (pools i).host (pools i).depth inputs) s () s' ∧
    ∀ r ∈ (run (chainPool (pools i).chain (pools i).variant) (pools i).host (pools i).depth inputs s).frames,
      r.msg.sender ≠ 0 ∧ ¬ ByHub (pools i).chain D.self r

/-- The pool started as `s₀` and has obeyed the messages `ms`, in this order. -/
structure Led (p : Spoke W) (s₀ s : World W) (ms : List Message) : Prop where
  idle : Idle s.pool
  settings : settings s.pool = ms.foldl obeyMessage (settings s₀.pool)
  roots : relayedRoots s.trace = ms.filterMap broughtRoots
  posted : Posted (fun _ _ => True) (ledger s₀.pool) s.trace (ledger s.pool)
  addressed : ∀ m ∈ ms, m.chainId = p.variant.chainId ∧ m.spokePool = p.variant.self

variable {D : HubState.Deployment} {w₀ : HubState.World} {pools : ι → Spoke W} {p : Spoke W} {s₀ s s' : World W}
  {ms : List Message} {m : Message} {i : ι}

theorem Led.posted_trans (h : Led p s₀ s ms) (hb : Booked (fun _ _ => True) s s') :
    Posted (fun _ _ => True) (ledger s₀.pool) s'.trace (ledger s'.pool) := by
  obtain ⟨l, hl, hp, -⟩ := hb.history
  rw [hl]
  exact h.posted.append hp

theorem Led.receives (h : Led (pools i) s₀ s ms) (hr : (network D w₀ pools).receive i m s s') :
    Led (pools i) s₀ s' (ms ++ [m]) := by
  obtain ⟨hchain, hself, call, time, hdec, hok⟩ := hr
  have hidle : Idle ({ s with time := time } : World W).pool := h.idle
  have hm := isAdmin_of_decodeAdmin hdec
  have ho : Obeyed call { s with time := time } s' := deliver_obeyed hidle hm hok
  obtain ⟨t, ht, hroots⟩ := ho.trace
  refine ⟨ho.idle hidle, ?_, ?_, ?_, fun m' hm' => ?_⟩
  · rw [ho.pool, settings_effect, List.foldl_append, ← h.settings, List.foldl_cons, List.foldl_nil,
      obeyMessage_eq hdec]
  · have hone : [m].filterMap broughtRoots = rootsIn call := by
      rw [List.filterMap_cons, List.filterMap_nil, broughtRoots, hdec]
      cases call <;> rfl
    change s'.trace = s.trace ++ t at ht
    rw [ht, relayedRoots, List.filterMap_append, List.filterMap_append, hone]
    exact congrArg₂ (· ++ ·) h.roots hroots
  · exact h.posted_trans ⟨ho.booked.history, ho.booked.entered, ho.booked.owner⟩
  · rcases List.mem_append.mp hm' with hm' | hm'
    · exact h.addressed m' hm'
    · rw [List.mem_singleton.mp hm']
      exact ⟨hchain, hself⟩

theorem Led.acts (h : Led (pools i) s₀ s ms) (ha : (network D w₀ pools).act i s s') : Led (pools i) s₀ s' ms := by
  obtain ⟨inputs, hok, hf⟩ := ha
  have hu := run_unled h.idle hok hf
  obtain ⟨t, ht, hroots⟩ := hu.trace
  refine ⟨hu.idle, hu.settings.trans h.settings, ?_, h.posted_trans hu.booked, h.addressed⟩
  rw [ht, relayedRoots, List.filterMap_append]
  exact (congrArg₂ (· ++ ·) h.roots hroots).trans (List.append_nil _)

/-- The pool as `initialize` leaves it, and nothing has happened to it yet. -/
def Fresh (c : Chain) (s : World W) : Prop :=
  s.trace = [] ∧ ∃ depositId admin recipient fxChild bridger,
    spokePoolInit c depositId admin recipient fxChild bridger = .ok s.pool

theorem Fresh.led (h : Fresh p.chain s) : Led p s s [] := by
  obtain ⟨ht, _, _, _, _, _, hi⟩ := h
  refine ⟨spokePoolInit_idle hi, rfl, ?_, ?_, fun _ hm => absurd hm List.not_mem_nil⟩
  · rw [ht]
    rfl
  · rw [ht]
    exact .nil _

theorem spokePoolInit_rootBundles {c : Chain} {depositId : Uint32} {admin recipient fxChild bridger : Address}
    {p : Storage} (h : spokePoolInit c depositId admin recipient fxChild bridger = .ok p) : p.rootBundles = [] := by
  unfold spokePoolInit at h
  dsimp only at h
  generalize (if c = .ethereum then recipient else admin) = a at h
  split at h
  · cases h
  · split at h
    · cases h
    · obtain rfl := Except.ok.inj h
      rfl

/-- A refund leaf is executed under a root that was brought to the pool. -/
theorem Led.executed (h : Led p s₀ s ms) (h₀ : s₀.pool.rootBundles = []) {t₁ t₂ : List TraceItem} {call : Call}
    {id : Uint32} {leaf : RelayerRefundLeaf} {caller : Address}
    (ht : s.trace = t₁ ++ .event call (.executedRelayerRefundRoot id leaf caller) :: t₂) :
    ∃ root proof, verifyRelayerRefund root leaf proof = true ∧
      (root = 0 ∨ ∃ m ∈ ms, ∃ slow, decodeAdmin m.data = some (.relayRootBundle root slow)) := by
  have hposted := h.posted
  rw [ht] at hposted
  obtain ⟨M, b, proof, hM, hb, hv⟩ := executed_of_posted hposted
  refine ⟨b.relayerRefundRoot, proof, hv, ?_⟩
  rcases roots_of_posted hM hb with hz | ⟨b₀, hb₀, -⟩ | hnew
  · exact .inl (congrArg Prod.fst hz)
  · change b₀ ∈ s₀.pool.rootBundles at hb₀
    rw [h₀] at hb₀
    exact absurd hb₀ List.not_mem_nil
  · have hall : rootsOf b ∈ relayedRoots s.trace := by
      rw [ht, relayedRoots, List.filterMap_append]
      exact List.mem_append_left _ hnew
    rw [h.roots] at hall
    obtain ⟨m, hm, hroots⟩ := List.mem_filterMap.mp hall
    refine .inr ⟨m, hm, b.slowRelayRoot, ?_⟩
    unfold broughtRoots at hroots
    split at hroots
    · rename_i r sl hdec
      obtain ⟨rfl, rfl⟩ := Prod.mk.inj (Option.some.inj hroots)
      exact hdec
    · cases hroots

variable [DecidableEq ι] {start₀ : ι → World W} {x : State (List HubRun.Input) ι (World W) Message}

theorem reaches_led (h₀ : ∀ i, Fresh (pools i).chain (start₀ i)) (hx : Reaches (network D w₀ pools) (start [] start₀) x)
    (i : ι) : Led (pools i) (start₀ i) (x.receivers i) (mail x i) :=
  hx.receives (h₀ i).led Led.receives Led.acts

theorem reaches_posted (hx : Reaches (network D w₀ pools) (start [] start₀) x) :
    x.posted = (HubProposals.calls D w₀ x.sender).flatMap messages := by
  refine hx.posts (I := fun is ms => ms = (HubProposals.calls D w₀ is).flatMap messages) rfl ?_
  rintro is is' ms ns rfl ⟨i, rfl, rfl⟩
  rw [calls_snoc, List.flatMap_append]

theorem decodeAdmin_relayRootBundleData (r sl : Bytes32) :
    decodeAdmin (relayRootBundleData r sl) = some (.relayRootBundle r sl) := by
  rw [← List.append_nil (relayRootBundleData r sl)]
  exact decodeAdmin_calldata (m := .relayRootBundle r sl) rfl []

/-- The refund root of a proposal that stood, or the owner's. -/
def Approved (D : HubState.Deployment) (w₀ : HubState.World) (is : List HubRun.Input) (m : Message) (root : Bytes32) :
    Prop :=
  (∃ p ∈ HubBundles.proposals D w₀ is, ∃ c, FromProposal D p c m ∧
    c.before.hub.rootBundleProposal.relayerRefundRoot = root) ∨
  ∃ c ∈ HubProposals.calls D w₀ is, FromOwner c m

theorem approved_of_sourced {is : List HubRun.Input} {root sl : Bytes32} (h : Sourced D w₀ is m)
    (hdec : decodeAdmin m.data = some (.relayRootBundle root sl)) : Approved D w₀ is m root := by
  rcases h with ⟨p, hp, c, hfrom⟩ | howner
  · rw [hfrom.data, decodeAdmin_relayRootBundleData] at hdec
    injection hdec with hdec
    injection hdec with hroot _
    exact .inl ⟨p, hp, c, hfrom, hroot⟩
  · exact .inr howner

end Network

section Sample

open HubRun RefundLeaves SpokeFunds

/-- The owner of the hub pool sends a pool on chain 10 the root of a bundle. -/
def sampleOrders : List HubRun.Input :=
  [sampleCall 3 (.setCrossChainContracts 10 8 1),
    sampleCall 3 (.relaySpokePoolAdminFunction 10 (relayRootBundleData sampleRoot 0))]

def sampleSpoke : Spoke (Erc20.Token Address × Nat) := ⟨.arbitrum, sampleVariant, sampleHost, 2⟩

def sampleFresh : World (Erc20.Token Address × Nat) where
  pool := match spokePoolInit .arbitrum 0 1 9 0 0 with
    | .ok p => p
    | .error _ => sampleStorage
  time := 0
  rest := (⟨100, fun a => if a = 1 then 50 else 10⟩, 0)
  trace := []

theorem sampleFresh_fresh : Fresh .arbitrum sampleFresh := ⟨rfl, 0, 1, 9, 0, 0, rfl⟩

def sampleMessage : Message := ⟨10, 1, relayRootBundleData sampleRoot 0⟩

theorem sampleOrders_posted :
    (HubProposals.callOf HubRun.sampleDeployment HubRun.sampleWorld
      (sampleCall 3 (.setCrossChainContracts 10 8 1))).toList.flatMap messages = [] ∧
    (HubProposals.callOf HubRun.sampleDeployment (HubRun.run HubRun.sampleDeployment HubRun.sampleWorld
      [sampleCall 3 (.setCrossChainContracts 10 8 1)])
      (sampleCall 3 (.relaySpokePoolAdminFunction 10 (relayRootBundleData sampleRoot 0)))).toList.flatMap messages =
      [sampleMessage] := ⟨rfl, rfl⟩

def sampleTold : World (Erc20.Token Address × Nat) := { sampleFresh with
  pool := { sampleFresh.pool with rootBundles := [⟨0, sampleRoot, fun _ => 0⟩] }
  trace := [.event (.relayRootBundle sampleRoot 0) (.relayedRootBundle 0 sampleRoot 0)] }

def sampleInputs : List (Input (Erc20.Token Address × Nat)) := [.transact 1000 ⟨8, 0⟩ sampleExecution]

theorem sampleInputs_evaluate :
    (exec (chainPool .arbitrum sampleVariant) sampleHost 2 ⟨8, 0⟩ sampleExecution
      { sampleTold with time := 1000 }).result.isOk = true ∧
    ∀ r ∈ (run (chainPool .arbitrum sampleVariant) sampleHost 2 sampleInputs sampleTold).frames,
      r.msg.sender = 8 ∧ LeafBatches.isRefundLeaf r.call = true ∧ r.pre.pool.crossDomainAdmin = 1 := by
  decide +kernel

abbrev sampleNetwork : Protocol (List HubRun.Input) Unit (World (Erc20.Token Address × Nat)) Message :=
  network HubRun.sampleDeployment HubRun.sampleWorld fun _ => sampleSpoke

/-- The pool executes the leaf that it has the root of. -/
theorem sampleTold_acts : ∃ s t, sampleNetwork.act () sampleTold s ∧ s.trace = sampleTold.trace ++ t ∧
    executions 0 0 t = [sampleLeaf] := by
  obtain ⟨hok, hframes⟩ := sampleInputs_evaluate
  obtain ⟨s, hs⟩ := exists_ok hok
  obtain ⟨t, ht, hleaf⟩ := execution_recorded hs
  refine ⟨s, t, ⟨sampleInputs, ?_, fun r hr => ?_⟩, ht, hleaf⟩
  · refine (forEach_cons_ok _ _ _ _ _ _).mpr ⟨s, (bind_ok _ _ _ _ _).mpr ⟨(), _, (update_ok _ _ _ _).mpr rfl, ?_⟩,
      (forEach_nil_ok _ _ _ _).mpr rfl⟩
    refine (bind_ok _ _ _ _ _).mpr ⟨.ok (), s, (attempt_ok _ _ _ _).mpr (.inl ⟨(), rfl, ?_⟩), ?_⟩
    · rw [Ok, enter_free rfl]
      exact hs
    · exact (pure_ok _ _ _ _).mpr ⟨rfl, rfl⟩
  · obtain ⟨hsender, hcall, hadmin⟩ := hframes r hr
    rw [hsender]
    refine ⟨by decide, fun hby => ?_⟩
    rcases hby with ⟨data, hroot, -⟩ | hby
    · rw [hroot] at hcall
      cases hcall
    · change r.msg.sender = _ at hby
      rw [hsender, hadmin] at hby
      exact absurd hby (by decide)

theorem sampleNetwork_reaches : ∃ x, Reaches sampleNetwork (start [] fun _ => sampleFresh) x ∧
    x.sender = sampleOrders ∧ mail x () = [sampleMessage] ∧ ∃ t, (x.receivers ()).trace = sampleTold.trace ++ t ∧
      executions 0 0 t = [sampleLeaf] := by
  obtain ⟨s, t, hact, ht, hleaf⟩ := sampleTold_acts
  obtain ⟨hnone, hone⟩ := sampleOrders_posted
  have htold : Function.update (fun _ => sampleFresh) () sampleTold = fun _ => sampleTold :=
    Function.update_eq_const_of_subsingleton () sampleTold _
  have hadapters : Step sampleNetwork (start [] fun _ => sampleFresh)
      ⟨[sampleCall 3 (.setCrossChainContracts 10 8 1)], fun _ => sampleFresh, [], [], []⟩ :=
    .post ⟨_, rfl, hnone.symm⟩
  have hrelay : Step sampleNetwork ⟨[sampleCall 3 (.setCrossChainContracts 10 8 1)], fun _ => sampleFresh, [], [], []⟩
      ⟨sampleOrders, fun _ => sampleFresh, [sampleMessage], [sampleMessage], []⟩ := .post ⟨_, rfl, hone.symm⟩
  have hreceive : sampleNetwork.receive () sampleMessage sampleFresh sampleTold :=
    ⟨rfl, rfl, _, 0, decodeAdmin_relayRootBundleData sampleRoot 0, rfl⟩
  have hpending : [sampleMessage] = [] ++ sampleMessage :: [] := rfl
  have harrive := Step.deliver (P := sampleNetwork) (i := ())
    (x := ⟨sampleOrders, fun _ => sampleFresh, [sampleMessage], [sampleMessage], []⟩) hpending hreceive
  rw [htold] at harrive
  have hexecute : Step sampleNetwork ⟨sampleOrders, fun _ => sampleTold, [sampleMessage], [], [((), sampleMessage)]⟩ _ :=
    .act hact
  exact ⟨_, (((Relation.ReflTransGen.single hadapters).tail hrelay).tail harrive).tail hexecute, rfl, rfl, t, ht, hleaf⟩

end Sample

end Across.CrossChain
