import Across.OrderContract
import Across.OrderOriginData

namespace Across.OrderSettlers

open WordBytes Abi Keccak CallExec CallExec.Exec SpokeTypes SpokeState SpokePool OrderDepositor OrderContract

variable {W : Type} {V : Variant W} {S : Settler W} {visit : OutCall → DepositorState W → Visitor W}
  {st st' : DepositorStorage}

section Resolution

/-- The tables agree on the chains that an order can name. -/
def SameSettlers (st st' : DepositorStorage) : Prop :=
  ∀ c : Uint32, st'.destinationSettlers (c.setWidth 256) = st.destinationSettlers (c.setWidth 256)

/-- Every order resolves to the same in both, for every caller, state of the pool and
time. -/
def SameResolution (V : Variant W) (S : Settler W) (st st' : DepositorStorage) : Prop :=
  (∀ msgSender order, OrderDepositor.resolve V (settlerAt S st') msgSender order =
    OrderDepositor.resolve V (settlerAt S st) msgSender order) ∧
  ∀ order fillerData, OrderDepositor.resolveFor V (settlerAt S st') order fillerData =
    OrderDepositor.resolveFor V (settlerAt S st) order fillerData

theorem SameSettlers.refl (st : DepositorStorage) : SameSettlers st st := fun _ => rfl

theorem SameSettlers.trans {st'' : DepositorStorage} (h : SameSettlers st st') (k : SameSettlers st' st'') :
    SameSettlers st st'' := fun c => (k c).trans (h c)

theorem SameSettlers.resolved (h : SameSettlers st st') (depositor exclusiveRelayer : Address)
    (originChainId : BitVec 64) (openDeadline fillDeadline : Uint32) (d : AcrossOrderData) (s : World W) :
    resolved V (settlerAt S st') depositor exclusiveRelayer originChainId openDeadline fillDeadline d s =
      resolved V (settlerAt S st) depositor exclusiveRelayer originChainId openDeadline fillDeadline d s := by
  have hc : (settlerAt S st').destinationSettlers (d.destinationChainId.setWidth 256) =
    (settlerAt S st).destinationSettlers (d.destinationChainId.setWidth 256) := h d.destinationChainId
  rw [OrderDepositor.resolved, hc]
  rfl

theorem require_bind_congr {σ φ ε α : Type} {p : Prop} [Decidable p] {e : ε} {f g : Unit → Exec σ φ ε α}
    (h : p → f () = g ()) : (require p e >>= f) = (require p e >>= g) := by
  by_cases hp : p
  · funext s
    simp only [Bind.bind, Exec.bind, require, if_pos hp, Exec.pure, h hp]
  · funext s
    simp only [Bind.bind, Exec.bind, require, if_neg hp, revert]

/-- An order reads nothing else of the contract's storage. On a chain whose id is too
large it reads nothing at all. -/
theorem sameResolution_of_settlers (h : V.chainId.toNat < 2 ^ 32 → SameSettlers st st') :
    SameResolution V S st st' := by
  constructor
  · intro msgSender order
    simp only [OrderDepositor.resolve]
    cases decodeOrderData order.orderData with
    | none => rfl
    | some d =>
        refine require_bind_congr fun _ => require_bind_congr fun hc => ?_
        simp only [(h hc).resolved]
  · intro order fillerData
    simp only [OrderDepositor.resolveFor]
    cases decode order.orderData fillerData with
    | none => rfl
    | some r =>
        refine require_bind_congr fun _ => require_bind_congr fun _ => require_bind_congr fun _ => ?_
        refine require_bind_congr fun _ => require_bind_congr fun hc => ?_
        simp only [(h hc).resolved]

def orderTo (c : Uint32) : AcrossOrderData := ⟨0, 0, 0, 0, c, 0, 0, 0, 0, ⟨[], nil_fits⟩⟩

theorem resolve_orderTo (S : Settler W) (st : DepositorStorage) (hc : V.chainId.toNat < 2 ^ 32) (sender : Address)
    (fillDeadline c : Uint32) (s : World W) :
    Ok (OrderDepositor.resolve V (settlerAt S st) sender ⟨fillDeadline, acrossOrderDataTypeHash, (orderTo c).encoded⟩) s
      (resolved V (settlerAt S st) sender 0 (V.chainId.setWidth 64) (BitVec.ofNat 32 (2 ^ 32 - 1)) fillDeadline
        (orderTo c) s, orderTo c) s := by
  refine (bind_ok _ _ _ _ _).mpr ⟨(), s, (require_ok _ _ _ _ _).mpr ⟨rfl, rfl⟩, ?_⟩
  simp only [decodeOrderData_encoded]
  refine (bind_ok _ _ _ _ _).mpr ⟨(), s, (require_ok _ _ _ _ _).mpr ⟨hc, rfl⟩, ?_⟩
  exact (bind_ok _ _ _ _ _).mpr ⟨s, s, (read_ok _ _ _).mpr ⟨rfl, rfl⟩, (pure_ok _ _ _ _).mpr ⟨rfl, rfl⟩⟩

theorem toBytes32_inj {a b : Address} (h : toBytes32 a = toBytes32 b) : a = b := by
  apply BitVec.eq_of_toNat_eq
  have hw : ∀ x : Address, (toBytes32 x).toNat = x.toNat := fun x => by
    rw [toBytes32, BitVec.toNat_setWidth, Nat.mod_eq_of_lt (lt_trans x.isLt (by decide))]
  rw [← hw a, ← hw b, h]

/-- Some order sees a difference of the tables, as long as orders resolve at all. -/
theorem SameResolution.settlers (hc : V.chainId.toNat < 2 ^ 32) (s : World W) (h : SameResolution V S st st') :
    SameSettlers st st' := by
  intro c
  have h₁ := resolve_orderTo S st hc 0 0 c s
  have h₂ := resolve_orderTo S st' hc 0 0 c s
  rw [h.1] at h₂
  have hr := congrArg (fun r => r.1.fillInstruction.destinationSettler) (h₁.unique h₂).1
  exact (toBytes32_inj hr).symm

end Resolution

section Execution

/-- What a guarantee has to accept for every call of the contract to keep it: the table
is written by its setter alone. -/
structure Accepts (G : Guarantee (DepositorState W) (DepositorFrame W)) : Prop where
  other : ∀ {s s' : DepositorState W}, s'.storage.destinationSettlers = s.storage.destinationSettlers →
    G.rel s s' ∧ (G.base s → G.base s')
  set : ∀ {f : DepositorFrame W} {chainId a s'}, G.given f → f.call = .setDestinationSettler chainId a →
    f.msg.value = 0 →
    Ok (setDestinationSettler chainId a) f.pre () s' → G.rel f.pre s' ∧ (G.base f.pre → G.base s')

variable {G : Guarantee (DepositorState W) (DepositorFrame W)}

theorem update_keeps (hG : Accepts G) {f : DepositorState W → DepositorState W}
    (hf : ∀ s, (f s).storage.destinationSettlers = s.storage.destinationSettlers) :
    Keeps G (update f : DepositorCode W Unit) :=
  Keeps.update (fun s => (hG.other (hf s)).1) fun s => (hG.other (hf s)).2

theorem onWorld_keeps {α : Type} (hG : Accepts G) (m : Code W α) : Keeps G (onWorld m) := by
  intro s
  have hsame : ∀ {a s'}, Ok (onWorld m) s a s' → G.rel s s' ∧ (G.base s → G.base s') := by
    intro a s' h
    obtain ⟨w, -, hs⟩ := onWorld_ok.mp h
    exact hG.other (hs ▸ rfl)
  exact Keeps.of_frames rfl (fun h => (hsame h).1) fun h => (hsame h).2

theorem runVisitor_keeps (hG : Accepts G) {enter : Msg → DepositorCall → DepositorCode W Unit}
    (hn : ∀ msg call, Keeps G (enter msg call)) (v : Visitor W) : Keeps G (runVisitor enter v) := by
  induction v with
  | halt ok w =>
      cases ok with
      | true => exact update_keeps hG fun _ => rfl
      | false => exact Keeps.revert _
  | invoke w msg call resume ih =>
      refine Keeps.bind (update_keeps hG fun _ => rfl) fun _ => ?_
      refine Keeps.bind (Keeps.attempt (hn msg call)) fun r => ?_
      exact Keeps.bind Keeps.read fun s => ih r.toBool s

theorem outCall_keeps (hG : Accepts G) {enter : Msg → DepositorCall → DepositorCode W Unit}
    (hn : ∀ msg call, Keeps G (enter msg call)) (c : OutCall) : Keeps G (outCall visit enter c) :=
  Keeps.bind Keeps.read fun s => runVisitor_keeps hG hn (visit c s)

section Functions

variable {out : OutCall → DepositorCode W Unit} {self : DepositorCall → DepositorCode W Unit}

theorem resolve_keeps (hG : Accepts G) (msg : Msg) (order : OnchainCrossChainOrder) :
    Keeps G (OrderContract.resolve V S msg order) :=
  Keeps.bind Keeps.read fun _ => onWorld_keeps hG _

theorem resolveFor_keeps (hG : Accepts G) (order : GaslessCrossChainOrder) (fillerData : Bytes) :
    Keeps G (OrderContract.resolveFor V S order fillerData) :=
  Keeps.bind Keeps.read fun _ => onWorld_keeps hG _

theorem callDeposit_keeps (hx : ∀ c, Keeps G (out c)) (d : DepositV3) (depositNonce : Uint256) :
    Keeps G (OrderContract.callDeposit V out d depositNonce) :=
  Keeps.bind (hx _) fun _ => hx _

theorem open_keeps (hG : Accepts G) (hx : ∀ c, Keeps G (out c)) (msg : Msg) (order : OnchainCrossChainOrder) :
    Keeps G (OrderContract.open V S out msg order) := by
  refine Keeps.bind (resolve_keeps hG msg order) fun r => Keeps.bind (hx _) fun _ => ?_
  refine Keeps.bind Keeps.read fun s => Keeps.bind (Keeps.require _ _) fun _ => ?_
  exact Keeps.bind (callDeposit_keeps hx _ _) fun _ => update_keeps hG fun _ => rfl

theorem openFor_keeps (hG : Accepts G) (hx : ∀ c, Keeps G (out c)) (order : GaslessCrossChainOrder)
    (signature fillerData : Bytes) : Keeps G (OrderContract.openFor V S out order signature fillerData) := by
  refine Keeps.bind (resolveFor_keeps hG order fillerData) fun r => Keeps.bind (hx _) fun _ => ?_
  refine Keeps.bind (Keeps.require _ _) fun _ => ?_
  exact Keeps.bind (callDeposit_keeps hx _ _) fun _ => update_keeps hG fun _ => rfl

theorem transferOwnership_keeps (hG : Accepts G) (newOwner : Address) :
    Keeps G (OrderContract.transferOwnership newOwner : DepositorCode W Unit) := by
  refine Keeps.bind Keeps.read fun _ => Keeps.bind (update_keeps hG fun _ => rfl) fun _ => ?_
  exact update_keeps hG fun _ => rfl

theorem onlyOwner_keeps {m : DepositorCode W Unit} (hm : Keeps G m) (msg : Msg) :
    Keeps G (OrderContract.onlyOwner msg m) :=
  Keeps.bind Keeps.read fun _ => Keeps.bind (Keeps.require _ _) fun _ => hm

theorem set_keepsAt (hG : Accepts G) {f : DepositorFrame W} {chainId : Uint256} {a : Address} (hg : G.given f)
    (hc : f.call = .setDestinationSettler chainId a) (hv : f.msg.value = 0) :
    KeepsAt G (setDestinationSettler chainId a) f.pre := by
  apply Keeps.of_frames rfl
  · intro _ s' h
    exact (hG.set hg hc hv h).1
  · intro _ s' h
    exact (hG.set hg hc hv h).2

theorem dispatch_keeps (hG : Accepts G) (hx : ∀ c, Keeps G (out c)) (hs : ∀ c, Keeps G (self c)) {f : DepositorFrame W}
    (hg : G.given f) (hv : f.msg.value = 0) : KeepsAt G (OrderContract.dispatch V S out self f.msg f.call) f.pre := by
  cases hc : f.call with
  | setDestinationSettler chainId a => exact set_keepsAt hG hg hc hv
  | «open» order => exact open_keeps hG hx f.msg order f.pre
  | openFor order signature fillerData => exact openFor_keeps hG hx order signature fillerData f.pre
  | resolve order => exact Keeps.bind (resolve_keeps hG f.msg order) (fun _ => Keeps.pure ()) f.pre
  | resolveFor order fillerData =>
      exact Keeps.bind (resolveFor_keeps hG order fillerData) (fun _ => Keeps.pure ()) f.pre
  | transferOwnership a =>
      exact onlyOwner_keeps (Keeps.bind (Keeps.require _ _) fun _ => transferOwnership_keeps hG a) f.msg f.pre
  | renounceOwnership => exact onlyOwner_keeps (transferOwnership_keeps hG 0) f.msg f.pre
  | multicall data => exact Keeps.forEach hs data f.pre
  | view => exact Keeps.pure () f.pre
  | undecodable => exact Keeps.revert _ f.pre

end Functions

theorem exec_keeps (hG : Accepts G) (hf : ∀ n msg call s, G.base s →
    (∀ s', Ok (OrderContract.exec V S visit (n + 1) msg call) s () s' → G.rel s s' ∧ G.base s') →
      G.frame ⟨msg, call, s, (OrderContract.exec V S visit (n + 1) msg call s).result.map Prod.snd⟩) (n : Nat) :
    ∀ msg call, Keeps G (OrderContract.exec V S visit n msg call) := by
  induction n with
  | zero => exact fun _ _ => Keeps.revert _
  | succ n ih =>
      intro msg call s
      have hd : (∀ q ∈ (OrderContract.exec V S visit (n + 1) msg call s).frames, G.given q) → KeepsAt G (do
          require (msg.value = 0) (.message "")
          OrderContract.dispatch V S (outCall visit (OrderContract.exec V S visit n))
            (OrderContract.exec V S visit n msg) msg call : DepositorCode W Unit) s := by
        intro hg
        apply Keeps.bind_at (Keeps.require _ _ s)
        intro _ _ h
        obtain ⟨hv, rfl⟩ := (require_ok _ _ _ _ _).mp h
        exact dispatch_keeps hG (outCall_keeps hG ih) (ih msg) (hg _ List.mem_cons_self) hv
      apply Keeps.record_at hd
      intro hg hb
      have hrest : ∀ r ∈ _, G.given r := fun r hr => hg r (List.mem_cons_of_mem _ hr)
      exact hf n msg call s hb fun s' h => ⟨(hd hg).rel h hrest, (hd hg).base h hrest hb⟩

theorem run_keeps (hG : Accepts G) {n : Nat} (he : ∀ msg call, Keeps G (OrderContract.exec V S visit n msg call))
    (inputs : List (DepositorInput W)) : Keeps G (OrderContract.run V S visit n inputs) := by
  refine Keeps.forEach (fun i => ?_) inputs
  cases i with
  | transact time msg call =>
      refine Keeps.bind (update_keeps hG fun _ => rfl) fun _ => ?_
      exact Keeps.bind (Keeps.attempt (he msg call)) fun _ => Keeps.pure ()
  | elsewhere f => exact update_keeps hG fun _ => rfl

end Execution

section Runs

/-- The call does not change the settler of a chain that an order can name: it names
the one that the table already has. -/
def SettlerKept (f : DepositorFrame W) : Prop :=
  ∀ (c : Uint32) (a : Address), f.call = .setDestinationSettler (c.setWidth 256) a → f.msg.value = 0 →
    a = f.pre.storage.destinationSettlers (c.setWidth 256)

/-- A state of a run: the one it leaves, or one between which a call of the contract
starts and returns, those within a transaction among them. -/
def Reached (V : Variant W) (S : Settler W) (visit : OutCall → DepositorState W → Visitor W) (n : Nat)
    (inputs : List (DepositorInput W)) (s t : DepositorState W) : Prop :=
  Ok (OrderContract.run V S visit n inputs) s () t ∨
    ∃ f ∈ (OrderContract.run V S visit n inputs s).frames, f.pre = t ∨ f.post = .ok t

theorem setDestinationSettler_ok {chainId : Uint256} {a : Address} {s s' : DepositorState W} {u : Unit}
    (h : Ok (setDestinationSettler chainId a) s u s') :
    s'.storage.destinationSettlers = Function.update s.storage.destinationSettlers chainId a := by
  simp only [setDestinationSettler, OrderContract.emit, bind_ok, read_ok, update_ok] at h
  obtain ⟨_, _, ⟨rfl, rfl⟩, _, _, rfl, rfl⟩ := h
  rfl

def kept (W : Type) (st : DepositorStorage) : Guarantee (DepositorState W) (DepositorFrame W) where
  rel s s' := SameSettlers s.storage s'.storage
  frame f := SameSettlers st f.pre.storage ∧ ∀ t, f.post = .ok t → SameSettlers st t.storage
  refl _ := .refl _
  trans h k := h.trans k
  given := SettlerKept
  base s := SameSettlers st s.storage

theorem kept_accepts (st : DepositorStorage) : Accepts (kept W st) where
  other h := by
    have hs : SameSettlers _ _ := fun c => congrFun h (c.setWidth 256)
    exact ⟨hs, fun hb => hb.trans hs⟩
  set {f chainId a s'} hg hc hv h := by
    have hs : SameSettlers f.pre.storage s'.storage := by
      intro c
      rw [setDestinationSettler_ok h]
      by_cases he : c.setWidth 256 = chainId
      · subst he
        rw [Function.update_self]
        exact hg c a hc hv
      · rw [Function.update_of_ne he]
    exact ⟨hs, fun hb => hb.trans hs⟩

def recorded (V : Variant W) (S : Settler W) (visit : OutCall → DepositorState W → Visitor W) :
    Guarantee (DepositorState W) (DepositorFrame W) where
  rel _ _ := True
  frame f := ∃ n, f.post = (OrderContract.exec V S visit (n + 1) f.msg f.call f.pre).result.map Prod.snd
  refl _ := trivial
  trans _ _ := trivial

theorem recorded_accepts : Accepts (recorded V S visit) :=
  ⟨fun _ => ⟨trivial, fun _ => trivial⟩, fun _ _ _ _ => ⟨trivial, fun _ => trivial⟩⟩

theorem ok_of_post {n : Nat} {msg : Msg} {call : DepositorCall} {s t : DepositorState W}
    (h : (OrderContract.exec V S visit n msg call s).result.map Prod.snd = .ok t) :
    Ok (OrderContract.exec V S visit n msg call) s () t := by
  simp only [Ok]
  cases hx : (OrderContract.exec V S visit n msg call s).result with
  | error e => simp [hx, Except.map] at h
  | ok r =>
      simp only [hx, Except.map, Except.ok.injEq] at h
      rw [← h]

theorem setter_post {f : DepositorFrame W} {n : Nat} {chainId : Uint256} {a : Address}
    (h : f.post = (OrderContract.exec V S visit (n + 1) f.msg f.call f.pre).result.map Prod.snd)
    (hc : f.call = .setDestinationSettler chainId a) (hv : f.msg.value = 0) : ∃ t, f.post = .ok t ∧
      t.storage.destinationSettlers = Function.update f.pre.storage.destinationSettlers chainId a := by
  have hset : Ok (setDestinationSettler chainId a) f.pre () _ :=
    (bind_ok _ _ _ _ _).mpr ⟨_, _, (read_ok _ _ _).mpr ⟨rfl, rfl⟩,
      (bind_ok _ _ _ _ _).mpr ⟨_, _, (update_ok _ _ _ ()).mpr rfl, (update_ok _ _ _ _).mpr rfl⟩⟩
  have hexec : Ok (OrderContract.exec V S visit (n + 1) f.msg (.setDestinationSettler chainId a)) f.pre () _ :=
    (bind_ok _ _ _ _ _).mpr ⟨(), f.pre, (require_ok _ _ _ _ _).mpr ⟨hv, rfl⟩, hset⟩
  rw [Ok] at hexec
  rw [hc, hexec] at h
  exact ⟨_, h, setDestinationSettler_ok hset⟩

variable {n : Nat} {inputs : List (DepositorInput W)} {s t : DepositorState W}

theorem run_recorded {f : DepositorFrame W} (hf : f ∈ (OrderContract.run V S visit n inputs s).frames) :
    ∃ k, f.post = (OrderContract.exec V S visit (k + 1) f.msg f.call f.pre).result.map Prod.snd := by
  have hk : Keeps (recorded V S visit) (OrderContract.run V S visit n inputs) :=
    run_keeps recorded_accepts (exec_keeps recorded_accepts (fun k _ _ _ _ _ => ⟨k, rfl⟩) n) inputs
  exact (hk s).frames (fun _ _ => trivial) trivial f hf

theorem reached_same (hk : ∀ f ∈ (OrderContract.run V S visit n inputs s).frames, SettlerKept f)
    (ht : Reached V S visit n inputs s t) : SameSettlers s.storage t.storage := by
  have hrun : Keeps (kept W s.storage) (OrderContract.run V S visit n inputs) := by
    refine run_keeps (kept_accepts _) (exec_keeps (kept_accepts _)
      (fun k msg call v hb hv => ⟨hb, fun t h => ?_⟩) n) inputs
    exact (hv t (ok_of_post h)).2
  rcases ht with ht | ⟨f, hf, hft⟩
  · exact hrun.rel ht hk
  · obtain ⟨hpre, hpost⟩ := (hrun s).frames hk (.refl _) f hf
    rcases hft with rfl | hft
    · exact hpre
    · exact hpost t hft

/-- Orders resolve to the same in every state of a run, for every caller, state of the
pool and time, exactly when no call of the setter that the run executes changes the
settler of a chain that an order can name; or when the chain's own id is too large for
any order to resolve. -/
theorem resolution_stable_iff_settlersKept (V : Variant W) (S : Settler W)
    (visit : OutCall → DepositorState W → Visitor W) (n : Nat) (inputs : List (DepositorInput W))
    (s : DepositorState W) :
    (∀ t, Reached V S visit n inputs s t → SameResolution V S s.storage t.storage) ↔
      (V.chainId.toNat < 2 ^ 32 → ∀ f ∈ (OrderContract.run V S visit n inputs s).frames, SettlerKept f) := by
  constructor
  · intro h hc f hf c a hcall hv
    obtain ⟨k, hk⟩ := run_recorded hf
    obtain ⟨t, ht, htable⟩ := setter_post hk hcall hv
    have hpre := (h f.pre (.inr ⟨f, hf, .inl rfl⟩)).settlers hc s.world c
    have hpost := (h t (.inr ⟨f, hf, .inr ht⟩)).settlers hc s.world c
    rw [htable, Function.update_self] at hpost
    rw [hpost, hpre]
  · intro h t ht
    exact sameResolution_of_settlers fun hc => reached_same (h hc) ht

/-- Account 3 owns the contract. Accounts that it calls return. -/
def sampleState : DepositorState Unit := ⟨⟨fun _ => 1, 3⟩, OrderOriginData.depositWorld, []⟩

def sampleVisit (_ : OutCall) (s : DepositorState Unit) : Visitor Unit := .halt true s.world

/-- Account 9 names itself as the settler of chain 10. -/
def sampleTakeover : List (DepositorInput Unit) := [.transact 1000 ⟨9, 0⟩ (.setDestinationSettler 10 9)]

/-- The same order of account 6 sends its fillers to account 9 afterwards. -/
theorem sampleTakeover_redirects : ∃ s' d r r',
    Ok (OrderContract.run PausedFills.samplePool OrderOriginData.sampleSettler sampleVisit 1 sampleTakeover)
      sampleState () s' ∧
    sampleState.storage.owner ≠ 9 ∧
    Ok (OrderDepositor.resolve PausedFills.samplePool (settlerAt OrderOriginData.sampleSettler sampleState.storage) 6
      ⟨2000, acrossOrderDataTypeHash, (orderTo 10).encoded⟩)
      OrderOriginData.depositWorld (r, d) OrderOriginData.depositWorld ∧
    Ok (OrderDepositor.resolve PausedFills.samplePool (settlerAt OrderOriginData.sampleSettler s'.storage) 6
      ⟨2000, acrossOrderDataTypeHash, (orderTo 10).encoded⟩)
      OrderOriginData.depositWorld (r', d) OrderOriginData.depositWorld ∧
    r.fillInstruction.destinationSettler = 1 ∧ r'.fillInstruction.destinationSettler = 9 := by
  refine ⟨_, _, _, _, rfl, by decide, resolve_orderTo _ _ (by decide) 6 2000 10 _,
    resolve_orderTo _ _ (by decide) 6 2000 10 _, ?_, ?_⟩
  · rfl
  · rfl

end Runs

end Across.OrderSettlers
