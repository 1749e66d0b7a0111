import Across.SpokePool

namespace Across.SpokeRules

open Abi CallExec CallExec.Exec SpokeTypes SpokeState SpokePool

variable {W : Type}

/-- The relay that a call fills when it gets as far as `_fillRelayV3`, and
whether that is a slow fill. -/
def fills : Call → Option (V3RelayData × Bool)
  | .fillV3Relay r _ => some (r, false)
  | .fillV3RelayWithUpdatedDeposit r _ _ => some (r, false)
  | .executeV3SlowRelayLeaf f _ _ => some (f.relayData, true)
  | _ => none

/-- The calls that keep the books of the pool: its root bundles, the count of its
deposits and its owner. -/
def keepsBooks : Call → Bool
  | .relayRootBundle _ _ | .emergencyDeleteRootBundle _ | .executeRelayerRefundLeaf _ _ _ | .deposit _
  | .depositFor _ | .depositV3 _ | .unsafeDepositV3 _ _ | .depositV3Now _ _ | .depositExclusive _
  | .transferOwnership _ | .renounceOwnership => true
  | _ => false

def isRoutine : Event → Bool
  | .setXDomainAdmin _ | .setWithdrawalRecipient _ | .enabledDepositRoute _ _ _ | .pausedDeposits _
  | .pausedFills _ | .requestedSpeedUpV3Deposit _ _ _ _ _ _ | .requestedV3SlowFill _ | .setFxChild _
  | .setPolygonTokenBridger _ | .receivedMessageFromL1 _ _ => true
  | _ => false

/-- What the functions of the admin set. Of a root bundle it is the two roots. -/
structure Settings where
  crossDomainAdmin : Address
  withdrawalRecipient : Address
  fxChild : Address
  polygonTokenBridger : Address
  pausedFills : Bool
  pausedDeposits : Bool
  roots : List (Bytes32 × Bytes32)

def rootsOf (b : RootBundle) : Bytes32 × Bytes32 := (b.relayerRefundRoot, b.slowRelayRoot)

def settings (p : Storage) : Settings where
  crossDomainAdmin := p.crossDomainAdmin
  withdrawalRecipient := p.withdrawalRecipient
  fxChild := p.fxChild
  polygonTokenBridger := p.polygonTokenBridger
  pausedFills := p.pausedFills
  pausedDeposits := p.pausedDeposits
  roots := p.rootBundles.map rootsOf

def isSetting : Event → Bool
  | .setXDomainAdmin _ | .setWithdrawalRecipient _ | .setFxChild _ | .setPolygonTokenBridger _ | .pausedFills _
  | .pausedDeposits _ | .relayedRootBundle _ _ _ | .emergencyDeleteRootBundle _ => true
  | _ => false

def Settings.after (a : Settings) : Event → Settings
  | .setXDomainAdmin x => { a with crossDomainAdmin := x }
  | .setWithdrawalRecipient x => { a with withdrawalRecipient := x }
  | .setFxChild x => { a with fxChild := x }
  | .setPolygonTokenBridger x => { a with polygonTokenBridger := x }
  | .pausedFills b => { a with pausedFills := b }
  | .pausedDeposits b => { a with pausedDeposits := b }
  | .relayedRootBundle _ r s => { a with roots := a.roots ++ [(r, s)] }
  | .emergencyDeleteRootBundle i => { a with roots := a.roots.modify i.toNat fun _ => (0, 0) }
  | _ => a

structure SameGuards (p q : Storage) : Prop where
  owner : q.owner = p.owner
  callValidated : q.callValidated = p.callValidated
  hashedName : q.hashedName = p.hashedName
  hashedVersion : q.hashedVersion = p.hashedVersion

theorem SameGuards.rfl {p : Storage} : SameGuards p p := ⟨Eq.refl _, Eq.refl _, Eq.refl _, Eq.refl _⟩

/-- A write that leaves the fill statuses alone, with its event, which tells what it
does to the settings. -/
structure Write (p q : Storage) (e : Event) : Prop where
  fillStatuses : q.fillStatuses = p.fillStatuses
  guards : SameGuards p q
  settings : settings q = (settings p).after e

/-- A write that leaves the books alone as well. -/
structure Routine (p q : Storage) (e : Event) : Prop extends Write p q e where
  rootBundles : q.rootBundles = p.rootBundles
  numberOfDeposits : q.numberOfDeposits = p.numberOfDeposits
  entered : q.entered = p.entered
  event : isRoutine e = true

/-- The event is about a setting only if its call has passed the check of the admin, and
done nothing since. -/
def Authorised (V : Variant W) (G : Guarantee (World W) (Frame W)) (s : World W) (call : Call) (e : Event) : Prop :=
  isSetting e = true → ∃ f, G.given f ∧ f.call = call ∧ f.pre.trace = s.trace ∧ V.requireAdminSender f.msg f.pre = true

/-- What a guarantee has to accept for every call of the pool to keep it. -/
structure Rules (V : Variant W) (H : Host W) (G : Guarantee (World W) (Frame W)) : Prop where
  base : ∀ {s s' : World W}, SameGuards s.pool s'.pool → G.base s → G.base s'
  rest : ∀ s w, G.rel s { s with rest := w }
  external : ∀ s c, G.rel s { s with trace := s.trace ++ [.external none c] }
  guard : ∀ {s t}, s.pool.entered = false → G.rel { s with pool := { s.pool with entered := true } } t →
    G.rel s { t with pool := { t.pool with entered := false } }
  set : ∀ {s p call e}, Authorised V G s call e → Routine s.pool p e →
    G.rel s { s with pool := p, trace := s.trace ++ [.event call e] }
  request : ∀ {s s' h}, s.pool.fillStatuses h = .unfilled →
    Ok (setFillStatus h .requestedSlowFill) s () s' → G.rel s s'
  fill : ∀ {enter : Msg → Call → Code W Unit}, (∀ msg call, Keeps G (enter msg call)) →
    ∀ {msg call p relayer isSlowFill s u s'}, p.relayHash = getV3RelayHash V.chainId p.relay →
    fills call = some (p.relay, isSlowFill) →
    Ok (fillRelayV3 V H (externalCall H enter) msg call p relayer isSlowFill) s u s' →
    (∀ r ∈ (fillRelayV3 V H (externalCall H enter) msg call p relayer isSlowFill s).frames, G.given r) → G.rel s s'
  books : ∀ {enter : Msg → Call → Code W Unit} {self : Call → Code W Unit},
    (∀ msg call, Keeps G (enter msg call)) → ∀ {msg call s s'}, keepsBooks call = true →
    (∃ f, G.given f ∧ f.msg = msg ∧ f.call = call ∧ f.pre = s) →
    Succeeds G.given (dispatch V H (externalCall H enter) self msg call call) s () s' → G.rel s s'
  owner : ∀ {f s a}, G.given f → s.pool.owner = f.msg.sender → G.base s →
    G.base { s with pool := { s.pool with owner := a } }
  process : ∀ {n msg root data s}, (∀ c, Keeps G (exec V H n msg c)) →
    (∃ f, G.given f ∧ f.msg = msg ∧ f.call = .processMessageFromRoot root data ∧ f.pre = s) →
    KeepsAt G (processMessageFromRoot (exec V H n msg) msg (.processMessageFromRoot root data) root data) s

/-- The same for a guarantee that is about fill statuses and settings only. All but
`set`, `request` and `fill` are writes that leave these alone. -/
structure Sound (V : Variant W) (H : Host W) (G : Guarantee (World W) (Frame W)) : Prop where
  base : ∀ {s s' : World W}, SameGuards s.pool s'.pool → G.base s → G.base s'
  rest : ∀ s w, G.rel s { s with rest := w }
  pool : ∀ s p, p.fillStatuses = s.pool.fillStatuses → settings p = settings s.pool → G.rel s { s with pool := p }
  event : ∀ s call e, isSetting e = false → (∀ f, e ≠ .filledV3Relay f) →
    G.rel s { s with trace := s.trace ++ [.event call e] }
  set : ∀ {s p call e}, Authorised V G s call e → (∀ f, e ≠ .filledV3Relay f) → Write s.pool p e →
    G.rel s { s with pool := p, trace := s.trace ++ [.event call e] }
  external : ∀ s c, G.rel s { s with trace := s.trace ++ [.external none c] }
  request : ∀ {s s' h}, s.pool.fillStatuses h = .unfilled →
    Ok (setFillStatus h .requestedSlowFill) s () s' → G.rel s s'
  fill : ∀ {enter : Msg → Call → Code W Unit}, (∀ msg call, Keeps G (enter msg call)) →
    ∀ {msg call p relayer isSlowFill s u s'}, p.relayHash = getV3RelayHash V.chainId p.relay →
    fills call = some (p.relay, isSlowFill) →
    Ok (fillRelayV3 V H (externalCall H enter) msg call p relayer isSlowFill) s u s' →
    (∀ r ∈ (fillRelayV3 V H (externalCall H enter) msg call p relayer isSlowFill s).frames, G.given r) → G.rel s s'
  owner : ∀ {f s a}, G.given f → s.pool.owner = f.msg.sender → G.base s →
    G.base { s with pool := { s.pool with owner := a } }

/-- A guarantee that asks nothing about the pool's storage, its history and the
rest of the chain. -/
structure Free (G : Guarantee (World W) (Frame W)) : Prop where
  base : ∀ {s s' : World W}, SameGuards s.pool s'.pool → G.base s → G.base s'
  rest : ∀ s w, G.rel s { s with rest := w }
  pool : ∀ s p, G.rel s { s with pool := p }
  trace : ∀ s t, G.rel s { s with trace := t }

theorem anyRel_free {G : Guarantee (World W) (Frame W)}
    (hb : ∀ {s s' : World W}, SameGuards s.pool s'.pool → G.base s → G.base s') : Free G.anyRel :=
  ⟨hb, fun _ _ => trivial, fun _ _ => trivial, fun _ _ => trivial⟩

theorem map_modify {α β : Type} {f : α → α} {g : α → β} {h : β → β} (hf : ∀ a, g (f a) = h (g a)) (as : List α)
    (i : Nat) :
    (as.modify i f).map g = (as.map g).modify i h := by
  induction as generalizing i with
  | nil => simp
  | cons a as ih => cases i <;> simp [hf, ih]

theorem settings_modify (p : Storage) {i : Nat} {f : RootBundle → RootBundle} (hf : ∀ b, rootsOf (f b) = rootsOf b) :
    settings { p with rootBundles := p.rootBundles.modify i f } = settings p := by
  have hr : (p.rootBundles.modify i f).map rootsOf = p.rootBundles.map rootsOf := by
    rw [map_modify (h := id) hf, List.modify_id]
  simp only [settings, hr]

section Primitives

variable {V : Variant W} {H : Host W} {G : Guarantee (World W) (Frame W)} {m : Code W Unit}

theorem setPool_keeps (hG : Sound V H G) {f : Storage → Storage}
    (hf : ∀ p, (f p).fillStatuses = p.fillStatuses ∧ settings (f p) = settings p ∧ SameGuards p (f p)) :
    Keeps G (setPool f) :=
  Keeps.update (fun s => hG.pool s (f s.pool) (hf s.pool).1 (hf s.pool).2.1) fun s => hG.base (hf s.pool).2.2

theorem emit_keeps (hG : Sound V H G) (call : Call) {e : Event} (hs : isSetting e = false)
    (he : ∀ f, e ≠ .filledV3Relay f) : Keeps G (emit call e : Code W Unit) :=
  Keeps.update (fun s => hG.event s call e hs he) fun _ => hG.base .rfl

theorem setEntered_keeps (hG : Sound V H G) (b : Bool) :
    Keeps G (setPool fun p => { p with entered := b } : Code W Unit) :=
  setPool_keeps hG fun _ => ⟨rfl, rfl, rfl, rfl, rfl, rfl⟩

theorem nonReentrant_keepsAt (hset : ∀ b, Keeps G (setPool fun p => { p with entered := b } : Code W Unit))
    {s : World W}
    (hm : KeepsAt G m { s with pool := { s.pool with entered := true } }) : KeepsAt G (nonReentrant m) s := by
  apply Keeps.bind_at (Keeps.read s)
  intro _ _ h
  obtain ⟨rfl, rfl⟩ := (read_ok _ _ _).mp h
  apply Keeps.bind_at (Keeps.require _ _ _)
  intro _ _ h
  obtain ⟨-, rfl⟩ := (require_ok _ _ _ _ _).mp h
  apply Keeps.bind_at (hset true _)
  intro _ _ h
  obtain rfl := (update_ok _ _ _ _).mp h
  exact Keeps.bind_at hm fun _ t _ => hset false t

theorem nonReentrant_keeps (hG : Sound V H G) (hm : Keeps G m) : Keeps G (nonReentrant m) :=
  fun _ => nonReentrant_keepsAt (setEntered_keeps hG) (hm _)

theorem unpausedFills_keeps (hm : Keeps G m) : Keeps G (unpausedFills m) :=
  Keeps.bind Keeps.read fun _ => Keeps.bind (Keeps.require _ _) fun _ => hm

theorem unpausedDeposits_keeps (hm : Keeps G m) : Keeps G (unpausedDeposits m) :=
  Keeps.bind Keeps.read fun _ => Keeps.bind (Keeps.require _ _) fun _ => hm

theorem onlyOwner_keepsAt {msg : Msg} (hm : ∀ s : World W, s.pool.owner = msg.sender → KeepsAt G m s) :
    Keeps G (onlyOwner msg m) := by
  intro s
  apply Keeps.bind_at (Keeps.read s)
  intro _ _ h
  obtain ⟨rfl, rfl⟩ := (read_ok _ _ _).mp h
  apply Keeps.bind_at (Keeps.require _ _ _)
  intro _ _ h
  obtain ⟨ho, rfl⟩ := (require_ok _ _ _ _ _).mp h
  exact hm _ ho

theorem onlyOwner_keeps (msg : Msg) (hm : Keeps G m) : Keeps G (onlyOwner msg m) :=
  onlyOwner_keepsAt fun s _ => hm s

theorem onlyAdmin_keepsAt {msg : Msg} {s : World W} (hm : V.requireAdminSender msg s = true → KeepsAt G m s) :
    KeepsAt G (onlyAdmin V msg m) s := by
  apply Keeps.bind_at (Keeps.read s)
  intro _ _ h
  obtain ⟨rfl, rfl⟩ := (read_ok _ _ _).mp h
  apply Keeps.bind_at (Keeps.require _ _ _)
  intro _ _ h
  obtain ⟨ho, rfl⟩ := (require_ok _ _ _ _ _).mp h
  exact hm ho

theorem runCallee_keeps (hb : ∀ {s s' : World W}, SameGuards s.pool s'.pool → G.base s → G.base s')
    (hr : ∀ s w, G.rel s { s with rest := w }) {enter : Msg → Call → Code W Unit}
    (hn : ∀ msg call, Keeps G (enter msg call)) (c : Callee W) : Keeps G (runCallee enter c) := by
  induction c with
  | halt ok w =>
      cases ok with
      | true => exact Keeps.update (fun s => hr s w) fun _ => hb .rfl
      | false => exact Keeps.revert _
  | invoke w msg call resume ih =>
      refine Keeps.bind (Keeps.update (fun s => hr s w) fun _ => hb .rfl) fun _ => ?_
      refine Keeps.bind (Keeps.attempt (hn msg call)) fun r => ?_
      exact Keeps.bind Keeps.read fun s => ih r.toBool s

theorem externalCall_keeps (hb : ∀ {s s' : World W}, SameGuards s.pool s'.pool → G.base s → G.base s')
    (hr : ∀ s w, G.rel s { s with rest := w }) {o : Option Bytes32}
    (hx : ∀ s c, G.rel s { s with trace := s.trace ++ [.external o c] }) {enter : Msg → Call → Code W Unit}
    (hn : ∀ msg call, Keeps G (enter msg call)) (c : ExternalCall) : Keeps G (externalCall H enter o c) := by
  refine Keeps.bind (Keeps.update (fun s => hx s c) fun _ => hb .rfl) fun _ => ?_
  exact Keeps.bind Keeps.read fun s => runCallee_keeps hb hr hn _

theorem mem_nonReentrant_frames {s : World W} {r : Frame W} (he : s.pool.entered = false)
    (hr : r ∈ (m { s with pool := { s.pool with entered := true } }).frames) : r ∈ (nonReentrant m s).frames := by
  refine frames_bind_right ((read_ok _ _ _).mpr ⟨rfl, rfl⟩) ?_
  refine frames_bind_right ((require_ok _ _ _ _ ()).mpr ⟨he, rfl⟩) ?_
  exact frames_bind_right ((update_ok _ _ _ ()).mpr rfl) (frames_bind_left _ hr)

theorem guard_keepsAt (hG : Rules V H G) {s : World W}
    (hm : KeepsAt G m { s with pool := { s.pool with entered := true } }) : KeepsAt G (nonReentrant m) s := by
  have hset : ∀ b, Keeps G.anyRel (setPool fun p => { p with entered := b } : Code W Unit) :=
    fun _ => Keeps.update (fun _ => trivial) fun _ => hG.base ⟨rfl, rfl, rfl, rfl⟩
  have hany : KeepsAt G.anyRel (nonReentrant m) s :=
    nonReentrant_keepsAt hset ⟨fun _ _ => trivial, hm.base, hm.frames⟩
  refine ⟨fun h hg => ?_, hany.base, hany.frames⟩
  simp only [nonReentrant, setPool, bind_ok, read_ok, require_ok, update_ok] at h
  obtain ⟨_, _, ⟨rfl, rfl⟩, _, _, ⟨he, rfl⟩, _, _, rfl, _, t, ht, rfl⟩ := h
  exact hG.guard he (hm.rel ht fun r hr => hg r (mem_nonReentrant_frames he hr))

theorem guard_keeps (hG : Rules V H G) (hm : Keeps G m) : Keeps G (nonReentrant m) :=
  fun _ => guard_keepsAt hG (hm _)

theorem keepsAt_of_write {s : World W} {f : Storage → Storage} {call : Call} {e : Event}
    (hb : ∀ {s s' : World W}, SameGuards s.pool s'.pool → G.base s → G.base s') (hf : SameGuards s.pool (f s.pool))
    (hr : G.rel s { s with pool := f s.pool, trace := s.trace ++ [.event call e] }) :
    KeepsAt G (do setPool f; emit call e : Code W Unit) s := by
  apply Keeps.of_frames rfl
  · intro _ s' h
    simp only [setPool, emit, bind_ok, update_ok] at h
    obtain ⟨_, _, rfl, rfl⟩ := h
    exact hr
  · intro _ s' h
    simp only [setPool, emit, bind_ok, update_ok] at h
    obtain ⟨_, _, rfl, rfl⟩ := h
    exact hb hf

theorem set_keepsAt (hG : Rules V H G) {s : World W} {f : Storage → Storage} {call : Call} {e : Event}
    (ha : Authorised V G s call e) (hf : Routine s.pool (f s.pool) e) :
    KeepsAt G (do setPool f; emit call e : Code W Unit) s :=
  keepsAt_of_write hG.base hf.guards (hG.set ha hf)

end Primitives

section Functions

variable {V : Variant W} {H : Host W} {G : Guarantee (World W) (Frame W)}
  {ext : Option Bytes32 → ExternalCall → Code W Unit} {self : Call → Code W Unit} {o : Option Bytes32}

theorem safeTransferFrom_keeps (hx : ∀ c, Keeps G (ext o c)) (token src dst : Address) (amount : Uint256) :
    Keeps G (safeTransferFrom H ext o token src dst amount) :=
  Keeps.bind Keeps.read fun _ => Keeps.bind (Keeps.require _ _) fun _ => hx _

theorem safeTransfer_keeps (hx : ∀ c, Keeps G (ext o c)) (token dst : Address) (amount : Uint256) :
    Keeps G (safeTransfer H ext o token dst amount) :=
  Keeps.bind Keeps.read fun _ => Keeps.bind (Keeps.require _ _) fun _ => hx _

theorem adminRemoveFunds_keeps (hx : ∀ c, Keeps G (ext none c)) (amount : Uint256) (token recipient : Address) :
    Keeps G (adminRemoveFunds H ext amount token recipient) :=
  Keeps.bind (safeTransfer_keeps hx _ _ _) fun _ => Keeps.ite (hx _) (Keeps.pure ())

theorem nextDepositId_keeps (hG : Sound V H G) : Keeps G (nextDepositId : Code W Uint32) := by
  refine Keeps.bind Keeps.read fun s => Keeps.bind (Keeps.require _ _) fun _ => ?_
  exact Keeps.bind (setPool_keeps hG fun _ => ⟨rfl, rfl, rfl, rfl, rfl, rfl⟩) fun _ => Keeps.pure _

theorem exclusivityDeadline_keeps (parameter : Uint32) (time : Nat) :
    Keeps G (exclusivityDeadline parameter time : Code W Uint32) := by
  unfold exclusivityDeadline
  split
  · exact Keeps.bind (Keeps.require _ _) fun _ => Keeps.pure _
  · exact Keeps.pure _

theorem depositV3Internal_keeps (hG : Sound V H G) (hx : ∀ c, Keeps G (ext none c)) (msg : Msg)
    (call : Call) (d : DepositV3) (depositId : Uint256) :
    Keeps G (depositV3Internal V H ext msg call d depositId) := by
  refine Keeps.bind Keeps.read fun s => Keeps.bind (Keeps.require _ _) fun _ => ?_
  refine Keeps.bind (Keeps.require _ _) fun _ => Keeps.bind (Keeps.require _ _) fun _ => ?_
  refine Keeps.bind (Keeps.require _ _) fun _ => Keeps.bind (exclusivityDeadline_keeps _ _) fun _ => ?_
  refine Keeps.bind (Keeps.require _ _) fun _ => ?_
  dsimp only
  split
  · refine Keeps.bind (Keeps.require _ _) fun _ => Keeps.bind (hx _) fun _ => ?_
    exact emit_keeps hG call rfl nofun
  · refine Keeps.bind (Keeps.require _ _) fun _ => Keeps.bind (safeTransferFrom_keeps hx _ _ _ _) fun _ => ?_
    exact emit_keeps hG call rfl nofun

theorem depositInternal_keeps (hG : Sound V H G) (hx : ∀ c, Keeps G (ext none c)) (msg : Msg)
    (call : Call) (d : LegacyDeposit) : Keeps G (depositInternal V H ext msg call d) := by
  refine Keeps.bind Keeps.read fun s => Keeps.bind (Keeps.require _ _) fun _ => ?_
  refine Keeps.bind (Keeps.require _ _) fun _ => Keeps.bind (Keeps.require _ _) fun _ => ?_
  refine Keeps.bind (Keeps.require _ _) fun _ => Keeps.bind (Keeps.require _ _) fun _ => ?_
  refine Keeps.bind (nextDepositId_keeps hG) fun _ => ?_
  dsimp only
  split
  · refine Keeps.bind (Keeps.require _ _) fun _ => Keeps.bind (hx _) fun _ => ?_
    exact emit_keeps hG call rfl nofun
  · refine Keeps.bind (safeTransferFrom_keeps hx _ _ _ _) fun _ => ?_
    exact emit_keeps hG call rfl nofun

theorem depositV3_keeps (hG : Sound V H G) (hx : ∀ c, Keeps G (ext none c)) (msg : Msg) (call : Call)
    (d : DepositV3) : Keeps G (depositV3 V H ext msg call d) := by
  apply nonReentrant_keeps hG
  apply unpausedDeposits_keeps
  exact Keeps.bind (nextDepositId_keeps hG) fun _ => depositV3Internal_keeps hG hx msg call d _

theorem verifyUpdateV3DepositMessage_keeps (depositor : Address) (depositId originChainId : Uint256)
    (u : UpdatedDeposit) : Keeps G (verifyUpdateV3DepositMessage H depositor depositId originChainId u) :=
  Keeps.bind Keeps.read fun _ => Keeps.require _ _

theorem checkExclusivity_keeps (msg : Msg) (r : V3RelayData) :
    Keeps G (checkExclusivity msg r : Code W Unit) :=
  Keeps.bind Keeps.read fun _ => Keeps.require _ _

theorem setClaimedLeaf_keeps (hG : Sound V H G) (rootBundleId leafId : Uint32) :
    Keeps G (setClaimedLeaf rootBundleId leafId : Code W Unit) := by
  refine Keeps.bind Keeps.read fun s => ?_
  cases s.pool.rootBundles[rootBundleId.toNat]? with
  | none => exact Keeps.revert _
  | some b =>
      refine Keeps.bind (Keeps.require _ _) fun _ => setPool_keeps hG fun p => ⟨rfl, ?_, rfl, rfl, rfl, rfl⟩
      exact settings_modify p fun _ => rfl

theorem bridgeTokensToHubPool_keeps (hx : ∀ c, Keeps G (ext none c)) (msg : Msg) (amount : Uint256)
    (token : Address) : Keeps G (bridgeTokensToHubPool V ext msg amount token) := by
  refine Keeps.bind Keeps.read fun s => ?_
  cases V.bridgeTokensToHubPool msg amount token s with
  | error e => exact Keeps.revert e
  | ok calls => exact Keeps.forEach hx calls

theorem distributeRelayerRefunds_keeps (hx : ∀ c, Keeps G (ext none c)) (msg : Msg) {call : Call}
    (leaf : RelayerRefundLeaf) (he : Keeps G (emit call (.tokensBridged leaf.amountToReturn leaf.chainId leaf.leafId
      leaf.l2TokenAddress msg.sender) : Code W Unit)) : Keeps G (distributeRelayerRefunds V H ext msg call leaf) := by
  refine Keeps.bind (Keeps.require _ _) fun _ => Keeps.bind ?_ fun _ => Keeps.ite ?_ (Keeps.pure ())
  · exact Keeps.forEach (fun r => Keeps.ite (safeTransfer_keeps hx _ _ _) (Keeps.pure ())) _
  · exact Keeps.bind (bridgeTokensToHubPool_keeps hx msg _ _) fun _ => he

theorem executeRelayerRefundLeaf_keeps (hG : Sound V H G) (hx : ∀ c, Keeps G (ext none c)) (msg : Msg)
    (call : Call) (rootBundleId : Uint32) (leaf : RelayerRefundLeaf) (proof : List Bytes32) :
    Keeps G (executeRelayerRefundLeaf V H ext msg call rootBundleId leaf proof) := by
  apply nonReentrant_keeps hG
  refine Keeps.bind Keeps.read fun s => Keeps.bind (Keeps.forEach hx _) fun _ => ?_
  refine Keeps.bind (Keeps.require _ _) fun _ => Keeps.bind Keeps.read fun t => ?_
  cases t.pool.rootBundles[rootBundleId.toNat]? with
  | none => exact Keeps.revert _
  | some b =>
      refine Keeps.bind (Keeps.require _ _) fun _ => Keeps.bind (setClaimedLeaf_keeps hG _ _) fun _ => ?_
      refine Keeps.bind (distributeRelayerRefunds_keeps hx msg leaf (emit_keeps hG call rfl nofun)) fun _ => ?_
      exact emit_keeps hG call rfl nofun

theorem onlyEOA_keeps (msg : Msg) (leaf : RelayerRefundLeaf) : Keeps G (onlyEOA V H msg leaf) :=
  Keeps.bind Keeps.read fun _ => Keeps.require _ _

theorem fill_keeps {originData fillerData : WordBytes.Bytes}
    (hs : Keeps G (self (decodeFillCall originData fillerData)))
    (orderId : Bytes32) : Keeps G (fill self orderId originData fillerData) := by
  refine Keeps.bind (Keeps.require _ _) fun _ => Keeps.bind (Keeps.attempt hs) fun r => ?_
  cases r with
  | ok _ => exact Keeps.pure ()
  | error e => exact Keeps.revert _

/-- A guard read from the state still holds at the write that follows it, so
this one goes through the states and not through the rules. -/
theorem requestV3SlowFill_keeps (hG : Rules V H G) (call : Call) (r : V3RelayData) :
    Keeps G (requestV3SlowFill V call r) := by
  apply guard_keeps hG
  apply unpausedFills_keeps
  apply Keeps.of_anyRel
  · refine Keeps.bind Keeps.read fun s => Keeps.bind (Keeps.require _ _) fun _ => ?_
    refine Keeps.bind (Keeps.require _ _) fun _ => Keeps.bind (Keeps.require _ _) fun _ => ?_
    refine Keeps.bind (Keeps.update (fun _ => trivial) fun _ => hG.base ⟨rfl, rfl, rfl, rfl⟩) fun _ => ?_
    exact Keeps.update (fun _ => trivial) fun _ => hG.base .rfl
  · intro s u s' h _
    simp only [bind_ok, read_ok, require_ok, emit, update_ok] at h
    obtain ⟨_, _, ⟨rfl, rfl⟩, _, _, ⟨-, rfl⟩, _, _, ⟨-, rfl⟩, _, _, ⟨hst, rfl⟩, _, t, ht, rfl⟩ := h
    refine G.trans (hG.request hst ht) (hG.set ?_ ⟨⟨rfl, ⟨rfl, rfl, rfl, rfl⟩, rfl⟩, rfl, rfl, rfl, rfl⟩)
    rintro ⟨⟩

section Fills

variable {enter : Msg → Call → Code W Unit}

/-- A guarantee that does not look at fills. -/
structure FillBlind (G : Guarantee (World W) (Frame W)) : Prop where
  base : ∀ {s s' : World W}, SameGuards s.pool s'.pool → G.base s → G.base s'
  rest : ∀ s w, G.rel s { s with rest := w }
  external : ∀ o s c, G.rel s { s with trace := s.trace ++ [.external o c] }
  status : ∀ {s s' h st}, Ok (setFillStatus h st) s () s' → G.rel s s'
  filled : ∀ s call f, G.rel s { s with trace := s.trace ++ [.event call (.filledV3Relay f)] }

theorem Free.fillBlind (hF : Free G) : FillBlind G where
  base := hF.base
  rest := hF.rest
  external _ s _ := hF.trace s _
  status {s _ _ _} h := by
    obtain rfl := (update_ok _ _ _ _).mp h
    exact G.trans (hF.pool s _) (hF.trace _ _)
  filled s _ _ := hF.trace s _

theorem payOut_blind (hF : FillBlind G) (hn : ∀ msg call, Keeps G (enter msg call)) (msg : Msg)
    (p : V3RelayExecutionParams) (isSlowFill : Bool) :
    Keeps G (payOut V H (externalCall H enter) msg p isSlowFill) := by
  have hx : ∀ c, Keeps G (externalCall H enter (some p.relayHash) c) :=
    externalCall_keeps hF.base hF.rest (hF.external _) hn
  have hu : Keeps G (unwrapwrappedNativeTokenTo V H (externalCall H enter) (some p.relayHash)
      p.updatedRecipient p.updatedOutputAmount) :=
    Keeps.bind Keeps.read fun _ => Keeps.ite (safeTransfer_keeps hx _ _ _)
      (Keeps.bind (hx _) fun _ => hx _)
  have hm : ∀ _ : Unit, Keeps G (do
      let s ← read
      if 0 < p.updatedMessage.val.length ∧ H.isContract s.rest p.updatedRecipient = true then
        externalCall H enter (some p.relayHash) (.handleV3AcrossMessage p.updatedRecipient p.relay.outputToken
          p.updatedOutputAmount msg.sender p.updatedMessage)
      else Pure.pure () : Code W Unit) :=
    fun _ => Keeps.bind Keeps.read fun _ => Keeps.ite (hx _) (Keeps.pure ())
  unfold payOut
  dsimp only
  split
  · split
    · exact Keeps.bind (safeTransferFrom_keeps hx _ _ _ _) fun _ => Keeps.bind hu hm
    · exact Keeps.bind hu hm
  · split
    · exact Keeps.bind (safeTransferFrom_keeps hx _ _ _ _) hm
    · exact Keeps.bind (safeTransfer_keeps hx _ _ _) hm

theorem fillRelayV3_blind (hF : FillBlind G) (hn : ∀ msg call, Keeps G (enter msg call)) (msg : Msg)
    (call : Call) (p : V3RelayExecutionParams) (relayer : Address) (isSlowFill : Bool) :
    Keeps G (fillRelayV3 V H (externalCall H enter) msg call p relayer isSlowFill) := by
  refine Keeps.bind Keeps.read fun s => Keeps.bind (Keeps.require _ _) fun _ => ?_
  refine Keeps.bind (Keeps.require _ _) fun _ => Keeps.bind (Keeps.update (fun t => ?_) ?_) fun _ => ?_
  · exact hF.status ((update_ok _ _ _ _).mpr rfl)
  · exact fun _ => hF.base ⟨rfl, rfl, rfl, rfl⟩
  · refine Keeps.bind (Keeps.update (fun t => hF.filled t call _) fun _ => hF.base .rfl) fun _ => ?_
    exact Keeps.ite (Keeps.pure ()) (payOut_blind hF hn msg p isSlowFill)

theorem Free.sound (hF : Free G) (ho : ∀ {f s a}, G.given f → s.pool.owner = f.msg.sender → G.base s →
    G.base { s with pool := { s.pool with owner := a } }) : Sound V H G where
  base := hF.base
  owner := ho
  rest := hF.rest
  pool s p _ _ := hF.pool s p
  event s _ _ _ _ := hF.trace s _
  set {s p _ _} _ _ _ := G.trans (hF.pool s p) (hF.trace _ _)
  external s _ := hF.trace s _
  request _ h := hF.fillBlind.status h
  fill hn _ _ _ _ _ _ _ _ _ _ h hg := (fillRelayV3_blind hF.fillBlind hn _ _ _ _ _).rel h hg

theorem fillRelayV3_keeps (hG : Rules V H G) (hn : ∀ msg call, Keeps G (enter msg call)) (msg : Msg)
    {call : Call} {p : V3RelayExecutionParams} (relayer : Address) {isSlowFill : Bool}
    (hp : p.relayHash = getV3RelayHash V.chainId p.relay) (hc : fills call = some (p.relay, isSlowFill)) :
    Keeps G (fillRelayV3 V H (externalCall H enter) msg call p relayer isSlowFill) := by
  apply Keeps.of_anyRel
  · exact fillRelayV3_blind (anyRel_free hG.base).fillBlind (fun msg call => (hn msg call).anyRel) msg call p relayer
      isSlowFill
  · intro s u s' h hg
    exact hG.fill hn hp hc h hg

theorem fillV3Relay_keeps (hG : Rules V H G) (hn : ∀ msg call, Keeps G (enter msg call)) (msg : Msg)
    (r : V3RelayData) (repaymentChainId : Uint256) :
    Keeps G (fillV3Relay V H (externalCall H enter) msg (.fillV3Relay r repaymentChainId) r repaymentChainId) :=
  Keeps.bind (checkExclusivity_keeps msg r) fun _ => fillRelayV3_keeps hG hn msg _ rfl rfl

theorem fillV3RelayWithUpdatedDeposit_keeps (hG : Rules V H G) (hn : ∀ msg call, Keeps G (enter msg call))
    (msg : Msg) (r : V3RelayData) (repaymentChainId : Uint256) (u : UpdatedDeposit) :
    Keeps G (fillV3RelayWithUpdatedDeposit V H (externalCall H enter) msg
      (.fillV3RelayWithUpdatedDeposit r repaymentChainId u) r repaymentChainId u) := by
  apply guard_keeps hG
  apply unpausedFills_keeps
  refine Keeps.bind (checkExclusivity_keeps msg r) fun _ => ?_
  refine Keeps.bind (verifyUpdateV3DepositMessage_keeps _ _ _ u) fun _ => ?_
  exact fillRelayV3_keeps hG hn msg _ rfl rfl

theorem executeV3SlowRelayLeaf_keeps (hG : Rules V H G) (hn : ∀ msg call, Keeps G (enter msg call))
    (msg : Msg) (f : V3SlowFill) (rootBundleId : Uint32) (proof : List Bytes32) :
    Keeps G (executeV3SlowRelayLeaf V H (externalCall H enter) msg
      (.executeV3SlowRelayLeaf f rootBundleId proof) f rootBundleId proof) := by
  apply guard_keeps hG
  refine Keeps.bind Keeps.read fun s => ?_
  refine Keeps.bind (Keeps.forEach (externalCall_keeps hG.base hG.rest hG.external hn) _)
    fun _ => Keeps.bind Keeps.read fun t => ?_
  cases t.pool.rootBundles[rootBundleId.toNat]? with
  | none => exact Keeps.revert _
  | some b =>
      refine Keeps.bind (Keeps.require _ _) fun _ => ?_
      exact fillRelayV3_keeps hG hn msg _ rfl rfl

theorem transferOwnership_keeps (hG : Sound V H G) {f : Frame W} (hf : G.given f) {t : World W}
    (ho : t.pool.owner = f.msg.sender) (call : Call) (a : Address) :
    KeepsAt G (transferOwnership call a : Code W Unit) t := by
  apply Keeps.bind_at (Keeps.read t)
  intro _ _ h
  obtain ⟨rfl, rfl⟩ := (read_ok _ _ _).mp h
  apply Keeps.bind_at (m := setPool fun p => { p with owner := a })
    (Keeps.update_at (hG.pool t _ rfl rfl) (hG.owner hf ho))
  have he : Keeps G (emit call (.ownershipTransferred t.pool.owner a) : Code W Unit) := emit_keeps hG call rfl nofun
  exact fun _ s _ => he s

theorem write_keepsAt (hG : Sound V H G) {s : World W} {f : Storage → Storage} {call : Call} {e : Event}
    (ha : Authorised V G s call e) (he : ∀ g, e ≠ .filledV3Relay g) (hf : Write s.pool (f s.pool) e) :
    KeepsAt G (do setPool f; emit call e : Code W Unit) s :=
  keepsAt_of_write hG.base hf.guards (hG.set ha he hf)

theorem books_keeps (hG : Sound V H G) (hn : ∀ msg call, Keeps G (enter msg call)) {msg : Msg} {call : Call}
    {s : World W}
    (hown : ∃ f, G.given f ∧ f.msg = msg ∧ f.call = call ∧ f.pre = s) (hb : keepsBooks call = true) :
    KeepsAt G (dispatch V H (externalCall H enter) self msg call call) s := by
  have hx : ∀ c, Keeps G (externalCall H enter none c) := externalCall_keeps hG.base hG.rest hG.external hn
  obtain ⟨f, hf, rfl, rfl, rfl⟩ := hown
  cases hc : f.call with
  | relayRootBundle r sl =>
      refine onlyAdmin_keepsAt fun hp => nonReentrant_keepsAt (setEntered_keeps hG)
        (Keeps.bind_at (Keeps.read _) fun _ _ h => ?_)
      obtain ⟨rfl, rfl⟩ := (read_ok _ _ _).mp h
      refine write_keepsAt hG (fun _ => ⟨f, hf, hc, rfl, hp⟩) nofun ⟨rfl, ⟨rfl, rfl, rfl, rfl⟩, ?_⟩
      simp only [settings, Settings.after, List.map_append, List.map_cons, List.map_nil]
      rfl
  | emergencyDeleteRootBundle i =>
      refine onlyAdmin_keepsAt fun hp => nonReentrant_keepsAt (setEntered_keeps hG)
        (Keeps.bind_at (Keeps.read _) fun _ _ h => ?_)
      obtain ⟨rfl, rfl⟩ := (read_ok _ _ _).mp h
      refine Keeps.bind_at (Keeps.require _ _ _) fun _ _ h => ?_
      obtain ⟨-, rfl⟩ := (require_ok _ _ _ _ _).mp h
      refine write_keepsAt hG (fun _ => ⟨f, hf, hc, rfl, hp⟩) nofun ⟨rfl, ⟨rfl, rfl, rfl, rfl⟩, ?_⟩
      have hr : ∀ b : RootBundle, rootsOf ⟨0, 0, b.claimedBitmap⟩ = (0, 0) := fun _ => rfl
      simp only [settings, Settings.after, map_modify (h := fun _ => (0, 0)) hr]
  | transferOwnership a =>
      apply onlyOwner_keepsAt
      intro t ho
      apply Keeps.bind_at (Keeps.require _ _ t)
      intro _ _ h
      obtain ⟨-, rfl⟩ := (require_ok _ _ _ _ _).mp h
      exact transferOwnership_keeps hG hf ho _ a
  | renounceOwnership =>
      apply onlyOwner_keepsAt
      exact fun t ho => transferOwnership_keeps hG hf ho _ 0
  | deposit d => exact nonReentrant_keeps hG (unpausedDeposits_keeps (depositInternal_keeps hG hx f.msg _ _)) f.pre
  | depositFor d => exact nonReentrant_keeps hG (unpausedDeposits_keeps (depositInternal_keeps hG hx f.msg _ d)) f.pre
  | depositV3 d => exact depositV3_keeps hG hx f.msg _ d f.pre
  | unsafeDepositV3 d n =>
      exact nonReentrant_keeps hG (unpausedDeposits_keeps (depositV3Internal_keeps hG hx f.msg _ d _)) f.pre
  | depositV3Now d o =>
      refine Keeps.bind Keeps.read (fun _ => Keeps.bind (Keeps.require _ _) fun _ => ?_) f.pre
      exact depositV3_keeps hG hx f.msg _ _
  | depositExclusive d => exact depositV3_keeps hG hx f.msg _ d f.pre
  | executeRelayerRefundLeaf i l p =>
      refine Keeps.bind (onlyEOA_keeps _ _) (fun _ => ?_) f.pre
      exact executeRelayerRefundLeaf_keeps hG hx f.msg _ i l p
  | _ =>
      rw [hc] at hb
      cases hb

theorem processMessageFromRoot_keeps
    (hbv : ∀ s b, G.base s → G.base { s with pool := { s.pool with callValidated := b } })
    (hbt : ∀ s t, G.base s → G.base { s with trace := t })
    (hv : ∀ s b, G.rel s { s with pool := { s.pool with callValidated := b } })
    (he : ∀ s call a b, G.rel s { s with trace := s.trace ++ [.event call (.receivedMessageFromL1 a b)] })
    {data : Call} (hs : Keeps G (self data)) (msg : Msg) (call : Call) (root : Address) :
    Keeps G (processMessageFromRoot self msg call root data) := by
  have hset : ∀ b, Keeps G (setPool fun p => { p with callValidated := b } : Code W Unit) :=
    fun b => Keeps.update (fun s => hv s b) fun s => hbv s b
  refine Keeps.bind Keeps.read fun s => Keeps.bind (Keeps.require _ _) fun _ => Keeps.bind (hset true) fun _ => ?_
  refine Keeps.bind ?_ fun _ => hset false
  refine Keeps.bind Keeps.read fun s => Keeps.bind (Keeps.require _ _) fun _ => Keeps.bind (Keeps.require _ _)
    fun _ => ?_
  refine Keeps.bind (Keeps.attempt hs) fun r => ?_
  cases r with
  | ok _ => exact Keeps.update (fun s => he s call _ _) fun s => hbt s _
  | error e => exact Keeps.revert _

theorem Sound.rules (hG : Sound V H G) (hb : ∀ s, G.base s) : Rules V H G where
  base := hG.base
  rest := hG.rest
  external := hG.external
  guard {s t} _ h := G.trans (hG.pool s { s.pool with entered := true } rfl rfl) (G.trans h (hG.pool t _ rfl rfl))
  set {s p call e} ha hr := by
    refine hG.set ha ?_ hr.toWrite
    rintro f rfl
    cases hr.event
  request := hG.request
  fill := hG.fill
  books hn _ _ _ _ hk hown h := (books_keeps hG hn hown hk).rel h.1 h.2
  owner := hG.owner
  process hs _ := processMessageFromRoot_keeps (fun _ _ _ => hb _) (fun _ _ _ => hb _) (fun s _ => hG.pool s _ rfl rfl)
    (fun s call _ _ => hG.event s call _ rfl nofun) (hs _) _ _ _ _

theorem dispatch_keeps (hG : Rules V H G) (hn : ∀ msg call, Keeps G (enter msg call))
    (hs : ∀ c, Keeps G (self c)) {msg : Msg} {call : Call} {s : World W}
    (hown : ∃ f, G.given f ∧ f.msg = msg ∧ f.call = call ∧ f.pre = s)
    (hp : ∀ root data, call = .processMessageFromRoot root data →
      KeepsAt G (processMessageFromRoot self msg call root data) s) :
    KeepsAt G (dispatch V H (externalCall H enter) self msg call call) s := by
  have hx : ∀ c, Keeps G (externalCall H enter none c) := externalCall_keeps hG.base hG.rest hG.external hn
  by_cases hb : keepsBooks call = true
  · refine ⟨fun h hg => hG.books hn hb hown ⟨h, hg⟩, ?_, ?_⟩
    · exact (books_keeps ((anyRel_free hG.base).sound hG.owner) (fun msg call => (hn msg call).anyRel) hown hb).base
    · exact (books_keeps ((anyRel_free hG.base).sound hG.owner) (fun msg call => (hn msg call).anyRel) hown hb).frames
  have hpass {e : Event} (ha : V.requireAdminSender msg s = true) : Authorised V G s call e := by
    obtain ⟨f, hf, rfl, rfl, rfl⟩ := hown
    exact fun _ => ⟨f, hf, rfl, rfl, ha⟩
  cases call with
  | processMessageFromRoot root data =>
      simp only [dispatch]
      split
      · exact hp root data rfl
      · exact Keeps.revert _ s
  | pauseDeposits pause | pauseFills pause =>
      refine onlyAdmin_keepsAt fun ha => guard_keepsAt hG ?_
      exact set_keepsAt hG (hpass ha) ⟨⟨rfl, ⟨rfl, rfl, rfl, rfl⟩, rfl⟩, rfl, rfl, rfl, rfl⟩
  | setCrossDomainAdmin a | setWithdrawalRecipient a =>
      refine onlyAdmin_keepsAt fun ha => guard_keepsAt hG (Keeps.bind_at (Keeps.require _ _ _) fun _ _ h => ?_)
      obtain ⟨-, rfl⟩ := (require_ok _ _ _ _ _).mp h
      exact set_keepsAt hG (hpass ha) ⟨⟨rfl, ⟨rfl, rfl, rfl, rfl⟩, rfl⟩, rfl, rfl, rfl, rfl⟩
  | setEnableRoute t c e =>
      refine onlyOwner_keeps msg (guard_keeps hG fun _ => ?_) s
      exact set_keepsAt hG nofun ⟨⟨rfl, ⟨rfl, rfl, rfl, rfl⟩, rfl⟩, rfl, rfl, rfl, rfl⟩
  | setFxChild a | setPolygonTokenBridger a =>
      simp only [dispatch]
      split
      · refine onlyAdmin_keepsAt fun ha => guard_keepsAt hG ?_
        exact set_keepsAt hG (hpass ha) ⟨⟨rfl, ⟨rfl, rfl, rfl, rfl⟩, rfl⟩, rfl, rfl, rfl, rfl⟩
      · exact Keeps.revert _ s
  | wrap =>
      refine Keeps.ite (guard_keeps hG (Keeps.bind Keeps.read fun _ => ?_)) (Keeps.revert _) s
      exact Keeps.ite (hx _) (Keeps.pure ())
  | adminRemoveFunds a t r => exact onlyOwner_keeps msg (adminRemoveFunds_keeps hx a t r) s
  | speedUpV3Deposit a i u =>
      refine guard_keeps hG (Keeps.bind (verifyUpdateV3DepositMessage_keeps a i _ u) fun _ => ?_) s
      exact Keeps.update (fun s => hG.set nofun ⟨⟨rfl, ⟨rfl, rfl, rfl, rfl⟩, rfl⟩, rfl, rfl, rfl, rfl⟩)
        fun _ => hG.base .rfl
  | fillV3Relay r c => exact fillV3Relay_keeps hG hn msg r c s
  | fillV3RelayWithUpdatedDeposit r c u => exact fillV3RelayWithUpdatedDeposit_keeps hG hn msg r c u s
  | requestV3SlowFill r => exact requestV3SlowFill_keeps hG _ r s
  | fill o d f => exact fill_keeps (hs _) o s
  | executeV3SlowRelayLeaf f i p => exact executeV3SlowRelayLeaf_keeps hG hn msg f i p s
  | multicall data => exact Keeps.bind (Keeps.require _ _) (fun _ => Keeps.forEach hs data) s
  | tryMulticall data =>
      refine Keeps.bind (Keeps.require _ _) (fun _ => Keeps.forEach (fun c => ?_) data) s
      exact Keeps.bind (Keeps.attempt (hs c)) fun _ => Keeps.pure ()
  | receive => exact Keeps.pure () s
  | undecodable => exact Keeps.revert _ s
  | _ => exact absurd rfl hb

end Fills

end Functions

section System

variable {V : Variant W} {H : Host W} {G : Guarantee (World W) (Frame W)}

theorem enter_keeps (hb : ∀ {s s' : World W}, SameGuards s.pool s'.pool → G.base s → G.base s')
    (hw : ∀ s w, G.rel s { s with rest := w }) {run : Msg → Call → Code W Unit}
    (hr : ∀ msg call, Keeps G (run msg call)) (msg : Msg) (call : Call) :
    Keeps G (enter H run msg call) := by
  refine Keeps.bind Keeps.read fun s => ?_
  split
  · exact Keeps.revert _
  · exact Keeps.bind (Keeps.update (fun s => hw s _) fun _ => hb .rfl) fun _ => hr msg call

/-- Every call keeps a guarantee that accepts what the pool does, however deep its
nested calls go. The second hypothesis is what the record of a call has to say,
given that the call keeps the guarantee. -/
theorem exec_keeps (hG : Rules V H G)
    (hf : ∀ n msg call s, G.base s → (∀ s', Ok (exec V H n msg call) s () s' → G.rel s s') →
      G.frame ⟨msg, call, s, (exec V H n msg call s).result.map Prod.snd⟩) (n : Nat) :
    ∀ msg call, Keeps G (exec V H n msg call) := by
  induction n with
  | zero => exact fun _ _ => Keeps.revert _
  | succ n ih =>
      intro msg call s
      have hd : (∀ q ∈ (exec V H (n + 1) msg call s).frames, G.given q) → KeepsAt G (do
          require (msg.value = 0 ∨ call.payable = true) (.message "")
          dispatch V H (externalCall H (enter H (exec V H n))) (exec V H n msg) msg call call : Code W Unit) s := by
        intro hg
        apply Keeps.bind_at (Keeps.require _ _ s)
        intro _ _ h
        obtain ⟨-, rfl⟩ := (require_ok _ _ _ _ _).mp h
        have hown := hg _ List.mem_cons_self
        apply dispatch_keeps hG (enter_keeps (H := H) hG.base hG.rest ih) (ih msg) ⟨_, hown, rfl, rfl, rfl⟩
        rintro root data rfl
        exact hG.process (ih msg) ⟨_, hown, rfl, rfl, rfl⟩
      apply Keeps.record_at hd
      intro hg hb
      exact hf (n + 1) msg call s hb fun s' h => (hd hg).rel h fun r hr => hg r (List.mem_cons_of_mem _ hr)

/-- A transaction that reverts leaves the run going, so a run always returns. -/
theorem run_returns (V : Variant W) (H : Host W) (n : Nat) (inputs : List (Input W)) (s : World W) :
    ∃ s', Ok (run V H n inputs) s () s' := by
  refine forEach_returns (fun i s => ?_) inputs s
  cases i with
  | transact time msg call =>
      obtain ⟨r, s', h⟩ := attempt_returns (enter H (exec V H n) msg call) { s with time := time }
      refine ⟨s', (bind_ok _ _ _ _ _).mpr ⟨(), _, (update_ok _ _ _ _).mpr rfl, ?_⟩⟩
      exact (bind_ok _ _ _ _ _).mpr ⟨r, s', h, (pure_ok _ _ _ _).mpr ⟨rfl, rfl⟩⟩
  | elsewhere f => exact ⟨_, (update_ok _ _ _ _).mpr rfl⟩

section Inversion

variable {m : Code W Unit} {msg : Msg} {call : Call} {s s' : World W} {u : Unit}

theorem nonReentrant_ok (h : Ok (nonReentrant m) s u s') :
    ∃ t, Ok m { s with pool := { s.pool with entered := true } } () t ∧
      s' = { t with pool := { t.pool with entered := false } } := by
  simp only [nonReentrant, setPool, read_bind_ok, require_bind_ok, update_bind_ok] at h
  obtain ⟨_, t, ht, h⟩ := (bind_ok _ _ _ _ _).mp h.2
  obtain rfl := (update_ok _ _ _ _).mp h
  exact ⟨t, ht, rfl⟩

theorem unpausedDeposits_ok (h : Ok (unpausedDeposits m) s u s') : Ok m s u s' := by
  simp only [unpausedDeposits, read_bind_ok, require_bind_ok] at h
  exact h.2

theorem nextDepositId_ok {id : Uint32} (h : Ok nextDepositId s id s') :
    s.pool.numberOfDeposits.toNat + 1 < 2 ^ 32 ∧ id = s.pool.numberOfDeposits ∧
      s' = { s with pool := { s.pool with numberOfDeposits := s.pool.numberOfDeposits + 1 } } := by
  simp only [nextDepositId, setPool, read_bind_ok, require_bind_ok, update_bind_ok, pure_ok] at h
  obtain ⟨hcount, rfl, rfl⟩ := h
  exact ⟨hcount, rfl, rfl⟩

theorem onlyEOA_ok {leaf : RelayerRefundLeaf} {f : Unit → Code W Unit}
    (h : Ok (onlyEOA V H msg leaf >>= f) s u s') : Ok (f ()) s u s' := by
  simp only [onlyEOA, bind_ok, read_ok, require_ok] at h
  obtain ⟨_, _, ⟨_, _, ⟨rfl, rfl⟩, -, rfl⟩, h⟩ := h
  exact h

theorem enter_ok {run : Msg → Call → Code W Unit} (hv : msg.value = 0) (h : Ok (enter H run msg call) s u s') :
    Ok (run msg call) s u s' := by
  simp only [enter, hv, if_true, read_bind_ok, update_bind_ok] at h
  exact h

theorem enter_free {run : Msg → Call → Code W Unit} (hv : msg.value = 0) :
    enter H run msg call s = run msg call s := by
  simp only [enter, Bind.bind, Exec.bind, Exec.read, hv, if_true, Exec.update, List.nil_append]

theorem exec_value (n : Nat) (h : Ok (exec V H n msg call) s u s') (hp : call.payable = false) :
    msg.value = 0 := by
  cases n with
  | zero => exact ((revert_ok _ _ _ _).mp h).elim
  | succ n =>
      simp only [exec, record_ok, bind_ok, require_ok] at h
      obtain ⟨_, _, ⟨hv, rfl⟩, -⟩ := h
      rcases hv with hv | hv
      · exact hv
      · rw [hp] at hv
        cases hv

theorem exec_dispatch {n : Nat} (h : Ok (exec V H (n + 1) msg call) s u s') :
    Ok (dispatch V H (externalCall H (enter H (exec V H n))) (exec V H n msg) msg call call) s u s' := by
  simp only [exec, record_ok, bind_ok, require_ok] at h
  obtain ⟨_, _, ⟨-, rfl⟩, hd⟩ := h
  exact hd

end Inversion

theorem mem_input_frames {V : Variant W} {H : Host W} {n : Nat} {time : Nat} {msg : Msg} {call : Call} {s : World W}
    {r : Frame W} (hv : msg.value = 0) (hr : r ∈ (exec V H n msg call { s with time := time }).frames) :
    r ∈ (input V H n (.transact time msg call) s).frames := by
  refine frames_bind_right (a := ()) ((update_ok _ _ _ _).mpr rfl) (frames_bind_left _ ?_)
  rw [frames_attempt]
  refine frames_bind_right ((read_ok _ _ _).mpr ⟨rfl, rfl⟩) ?_
  simp only [hv, if_true]
  exact frames_bind_right (a := ()) ((update_ok _ _ _ _).mpr rfl) hr

theorem mem_frames_ok {V : Variant W} {H : Host W} {n : Nat} {msg : Msg} {call : Call} {s s' : World W}
    (h : Ok (exec V H n msg call) s () s') : ⟨msg, call, s, .ok s'⟩ ∈ (exec V H n msg call s).frames := by
  cases n with
  | zero => exact ((revert_ok _ _ _ _).mp h).elim
  | succ n =>
      simp only [exec, record, Ok] at h ⊢
      rw [h]
      exact List.mem_cons_self

theorem mem_run_frames {V : Variant W} {H : Host W} {n : Nat} {inputs : List (Input W)} {time : Nat} {msg : Msg}
    {call : Call} {s t s' : World W} (hv : msg.value = 0) (hr : Ok (run V H (n + 1) inputs) s () t)
    (hx : Ok (exec V H (n + 1) msg call) { t with time := time } () s') :
    ⟨msg, call, { t with time := time }, .ok s'⟩ ∈
      (run V H (n + 1) (inputs ++ [.transact time msg call]) s).frames :=
  frames_forEach_snoc hr (mem_input_frames hv (mem_frames_ok hx))

theorem run_keeps (hb : ∀ {s s' : World W}, SameGuards s.pool s'.pool → G.base s → G.base s')
    (hw : ∀ s w, G.rel s { s with rest := w }) (ht : ∀ s t, G.rel s { s with time := t }) {n : Nat}
    (he : ∀ msg call, Keeps G (exec V H n msg call)) (inputs : List (Input W)) : Keeps G (run V H n inputs) := by
  refine Keeps.forEach (fun i => ?_) inputs
  cases i with
  | transact time msg call =>
      refine Keeps.bind (Keeps.update (fun s => ht s time) fun _ => hb .rfl) fun _ => ?_
      exact Keeps.bind (Keeps.attempt (enter_keeps hb hw he msg call)) fun _ => Keeps.pure ()
  | elsewhere f => exact Keeps.update (fun s => hw s (f s.rest)) fun _ => hb .rfl

def recorded (V : Variant W) (H : Host W) : Guarantee (World W) (Frame W) where
  rel _ _ := True
  frame r := ∃ n, r.post = (exec V H n r.msg r.call r.pre).result.map Prod.snd
  refl _ := trivial
  trans _ _ := trivial

theorem run_recorded {n : Nat} {inputs : List (Input W)} {s : World W} {r : Frame W}
    (hr : r ∈ (run V H n inputs s).frames) : ∃ k, r.post = (exec V H k r.msg r.call r.pre).result.map Prod.snd := by
  have hfree : Free (recorded V H) := ⟨fun _ _ => trivial, fun _ _ => trivial, fun _ _ => trivial, fun _ _ => trivial⟩
  have hrules : Rules V H (recorded V H) := (hfree.sound fun _ _ _ => trivial).rules fun _ => trivial
  have hk := run_keeps (H := H) hfree.base hfree.rest (fun _ _ => trivial)
    (exec_keeps hrules (fun k _ _ _ _ _ => ⟨k, rfl⟩) n) inputs
  exact hk.frames (fun _ _ => trivial) trivial r hr

theorem ok_of_recorded {n : Nat} {msg : Msg} {call : Call} {s s' : World W}
    (h : .ok s' = (exec V H n msg call s).result.map Prod.snd) : Ok (exec V H n msg call) s () s' := by
  simp only [Ok]
  cases hx : (exec V H n msg call s).result with
  | error e => simp [hx, Except.map] at h
  | ok r =>
      simp only [hx, Except.map, Except.ok.injEq] at h
      rw [h]

end System

end Across.SpokeRules
