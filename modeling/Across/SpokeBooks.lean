import Across.SpokeRules
import Across.SpokeLedger

namespace Across.SpokeBooks

open Abi CallExec CallExec.Exec SpokeTypes SpokeState SpokePool SpokeRules SpokeLedger

variable {W : Type}

/-- The history that a stretch of execution adds accounts for what it does to the
ledger. Behind the reentrancy guard it adds no entry, and only the owner hands
the ownership on. -/
structure Booked (Made : Msg → Call → Prop) (s s' : World W) : Prop where
  history : ∃ t, s'.trace = s.trace ++ t ∧ Posted Made (ledger s.pool) t (ledger s'.pool) ∧
    (s.pool.entered = true → ∀ x ∈ t, isEntry x = false)
  entered : s'.pool.entered = s.pool.entered
  owner : s'.pool.owner = s.pool.owner ∨ ∃ msg call, Made msg call ∧ msg.sender = s.pool.owner

section Booked

variable {Made : Msg → Call → Prop} {s s' s'' : World W}

theorem Booked.quiet {t : List TraceItem} (ht : s'.trace = s.trace ++ t) (hq : ∀ x ∈ t, isEntry x = false)
    (hl : ledger s'.pool = ledger s.pool) (he : s'.pool.entered = s.pool.entered)
    (ho : s'.pool.owner = s.pool.owner) : Booked Made s s' where
  history := by
    refine ⟨t, ht, ?_, fun _ => hq⟩
    rw [hl]
    exact .quiet _ hq
  entered := he
  owner := .inl ho

theorem Booked.silent (ht : s'.trace = s.trace) (hl : ledger s'.pool = ledger s.pool)
    (he : s'.pool.entered = s.pool.entered) (ho : s'.pool.owner = s.pool.owner) : Booked Made s s' :=
  .quiet (t := []) (by rw [ht, List.append_nil]) (fun x hx => absurd hx List.not_mem_nil) hl he ho

theorem Booked.item {x : TraceItem} (ht : s'.trace = s.trace ++ [x]) (hx : isEntry x = false)
    (hl : ledger s'.pool = ledger s.pool) (he : s'.pool.entered = s.pool.entered)
    (ho : s'.pool.owner = s.pool.owner) : Booked Made s s' := by
  refine .quiet ht (fun y hy => ?_) hl he ho
  rw [List.mem_singleton.mp hy]
  exact hx

theorem Booked.refl (s : World W) : Booked Made s s := .silent rfl rfl rfl rfl

theorem Booked.trans (h : Booked Made s s') (h' : Booked Made s' s'') : Booked Made s s'' := by
  obtain ⟨t, ht, hp, hq⟩ := h.history
  obtain ⟨t', ht', hp', hq'⟩ := h'.history
  refine ⟨⟨t ++ t', by rw [ht', ht, List.append_assoc], hp.append hp', fun he x hx => ?_⟩,
    h'.entered.trans h.entered, ?_⟩
  · rcases List.mem_append.mp hx with hx | hx
    · exact hq he x hx
    · exact hq' (h.entered.trans he) x hx
  · rcases h.owner with ho | ho
    · rw [← ho]
      exact h'.owner
    · exact .inr ho

theorem Booked.guarded (h : Booked Made s s') (he : s.pool.entered = true) :
    ledger s'.pool = ledger s.pool ∧ ∃ t, s'.trace = s.trace ++ t ∧ ∀ x ∈ t, isEntry x = false := by
  obtain ⟨t, ht, hp, hq⟩ := h.history
  exact ⟨hp.of_quiet (hq he), t, ht, hq he⟩

/-- A guarded call that makes the one entry `x`, at its end. -/
structure Enters (Made : Msg → Call → Prop) (x : TraceItem) (s s' : World W) : Prop where
  history : ∃ t, s'.trace = s.trace ++ (t ++ [x]) ∧ ∀ y ∈ t, isEntry y = false
  posts : Posts Made (ledger s.pool) x (ledger s'.pool)
  before : s.pool.entered = false
  after : s'.pool.entered = false
  owner : s'.pool.owner = s.pool.owner ∨ ∃ msg call, Made msg call ∧ msg.sender = s.pool.owner

theorem Enters.booked {x : TraceItem} (h : Enters Made x s s') : Booked Made s s' := by
  obtain ⟨t, ht, hq⟩ := h.history
  refine ⟨⟨t ++ [x], ht, (Posted.quiet _ hq).append (.post h.posts (.nil _)), fun htrue => ?_⟩,
    h.after.trans h.before.symm, h.owner⟩
  rw [h.before] at htrue
  cases htrue

/-- A guarded function does its bookkeeping between calls to other accounts, and
emits the event at its end. -/
theorem Enters.closing {s₁ s₂ : World W} {p : Storage} {x : TraceItem} (he : s.pool.entered = false)
    (h₁ : Booked Made { s with pool := { s.pool with entered := true } } s₁)
    (h₂ : Booked Made { s₁ with pool := p } s₂) (hp : p.entered = true) (ho : p.owner = s₁.pool.owner)
    (hx : Posts Made (ledger s₁.pool) x (ledger p)) :
    Enters Made x s { s₂ with pool := { s₂.pool with entered := false }, trace := s₂.trace ++ [x] } := by
  obtain ⟨hl₁, t₁, ht₁, hq₁⟩ := h₁.guarded rfl
  obtain ⟨hl₂, t₂, ht₂, hq₂⟩ := h₂.guarded hp
  refine ⟨⟨t₁ ++ t₂, ?_, fun y hy => ?_⟩, ?_, he, rfl, ?_⟩
  · change s₂.trace ++ [x] = s.trace ++ _
    rw [ht₂, ← List.append_assoc, ← List.append_assoc]
    exact congrArg (fun t => t ++ t₂ ++ [x]) ht₁
  · rcases List.mem_append.mp hy with hy | hy
    · exact hq₁ y hy
    · exact hq₂ y hy
  · change Posts Made (ledger s.pool) x (ledger s₂.pool)
    rw [hl₂, show ledger s.pool = ledger s₁.pool from hl₁.symm]
    exact hx
  · rcases h₁.owner with ho₁ | ho₁
    · rcases h₂.owner with ho₂ | ⟨msg, call, hm, hs⟩
      · exact .inl (ho₂.trans (ho.trans ho₁))
      · exact .inr ⟨msg, call, hm, hs.trans (ho.trans ho₁)⟩
    · exact .inr ho₁

end Booked

/-- Keeping the books, as long as every call is one that `Made` knows. -/
def books (Made : Msg → Call → Prop) : Guarantee (World W) (Frame W) where
  rel := Booked Made
  frame _ := True
  refl := .refl
  trans := .trans
  given r := Made r.msg r.call

theorem books_blind (Made : Msg → Call → Prop) : FillBlind (books Made : Guarantee (World W) (Frame W)) where
  base _ _ := trivial
  rest _ _ := .silent rfl rfl rfl rfl
  external _ _ _ := .item rfl rfl rfl rfl rfl
  status h := by
    obtain rfl := (update_ok _ _ _ _).mp h
    exact .item rfl rfl rfl rfl rfl
  filled _ _ _ := .item rfl rfl rfl rfl rfl

section Functions

variable {Made : Msg → Call → Prop} {V : Variant W} {H : Host W} {enter : Msg → Call → Code W Unit}
  {s s' : World W} {msg : Msg} {call : Call} {P : Frame W → Prop} {m : Code W Unit} {u : Unit}

theorem nonReentrant_succeeds (h : Succeeds P (nonReentrant m) s u s') :
    s.pool.entered = false ∧ ∃ t, Succeeds P m { s with pool := { s.pool with entered := true } } () t ∧
      s' = { t with pool := { t.pool with entered := false } } := by
  simp only [nonReentrant, setPool, read_bind_succeeds, require_bind_succeeds, update_bind_succeeds] at h
  obtain ⟨he, h⟩ := h
  obtain ⟨_, t, ht, h⟩ := bind_succeeds.mp h
  obtain rfl := update_succeeds.mp h
  exact ⟨he, t, ht, rfl⟩

theorem unpausedDeposits_succeeds (h : Succeeds P (unpausedDeposits m) s u s') : Succeeds P m s u s' := by
  simp only [unpausedDeposits, read_bind_succeeds, require_bind_succeeds] at h
  exact h.2

theorem onlyAdmin_succeeds (h : Succeeds P (onlyAdmin V msg m) s u s') : Succeeds P m s u s' := by
  simp only [onlyAdmin, read_bind_succeeds, require_bind_succeeds] at h
  exact h.2

theorem onlyOwner_succeeds (h : Succeeds P (onlyOwner msg m) s u s') :
    s.pool.owner = msg.sender ∧ Succeeds P m s u s' := by
  simp only [onlyOwner, read_bind_succeeds, require_bind_succeeds] at h
  exact h

theorem onlyEOA_succeeds {leaf : RelayerRefundLeaf} {f : Unit → Code W Unit}
    (h : Succeeds P (onlyEOA V H msg leaf >>= f) s u s') : Succeeds P (f ()) s u s' := by
  simp only [onlyEOA, bind_succeeds, read_succeeds, require_succeeds] at h
  obtain ⟨_, _, ⟨_, _, ⟨rfl, rfl⟩, -, rfl⟩, h⟩ := h
  exact h

theorem externalCall_books (hn : ∀ msg call, Keeps (books Made) (enter msg call)) (c : ExternalCall) :
    Keeps (books Made) (externalCall H enter none c) :=
  externalCall_keeps (books_blind Made).base (books_blind Made).rest ((books_blind Made).external none) hn c

theorem depositV3Internal_books (hn : ∀ msg call, Keeps (books Made) (enter msg call)) {d : DepositV3} {id : Uint256}
    (h : Succeeds (books Made).given (depositV3Internal V H (externalCall H enter) msg call d id) s u s') :
    ∃ s₁ e, Booked Made s s₁ ∧ e.depositId = id ∧
      s' = { s₁ with trace := s₁.trace ++ [.event call (.v3FundsDeposited e)] } := by
  simp only [depositV3Internal, read_bind_succeeds, require_bind_succeeds] at h
  obtain ⟨-, -, -, -, h⟩ := h
  obtain ⟨deadline, s₁, hd, h⟩ := bind_succeeds.mp h
  obtain ⟨-, h⟩ := require_bind_succeeds.mp h
  have hx := externalCall_books (H := H) hn
  have hd' : Booked Made s s₁ := (exclusivityDeadline_keeps _ _).rel hd.1 hd.2
  split at h
  · obtain ⟨-, h⟩ := require_bind_succeeds.mp h
    obtain ⟨_, s₂, h₂, h⟩ := bind_succeeds.mp h
    obtain rfl := update_succeeds.mp h
    exact ⟨s₂, _, hd'.trans ((hx _).rel h₂.1 h₂.2), rfl, rfl⟩
  · obtain ⟨-, h⟩ := require_bind_succeeds.mp h
    obtain ⟨_, s₂, h₂, h⟩ := bind_succeeds.mp h
    obtain rfl := update_succeeds.mp h
    exact ⟨s₂, _, hd'.trans ((safeTransferFrom_keeps hx _ _ _ _).rel h₂.1 h₂.2), rfl, rfl⟩

theorem depositInternal_books (hn : ∀ msg call, Keeps (books Made) (enter msg call)) {d : LegacyDeposit}
    (hs : isSafeDeposit call = true) (h : Succeeds (books Made).given
      (nonReentrant (unpausedDeposits (depositInternal V H (externalCall H enter) msg call d))) s u s') :
    ∃ e, Enters Made (.event call (.v3FundsDeposited e)) s s' := by
  obtain ⟨he, t, hbody, rfl⟩ := nonReentrant_succeeds h
  replace h := unpausedDeposits_succeeds hbody
  simp only [depositInternal, read_bind_succeeds, require_bind_succeeds] at h
  obtain ⟨-, -, -, -, -, h⟩ := h
  obtain ⟨_, _, hid, h⟩ := bind_succeeds.mp h
  obtain ⟨hcount, rfl, rfl⟩ := nextDepositId_ok hid.1
  have hx := externalCall_books (H := H) hn
  split at h
  · obtain ⟨-, h⟩ := require_bind_succeeds.mp h
    obtain ⟨_, s₂, h₂, h⟩ := bind_succeeds.mp h
    obtain rfl := update_succeeds.mp h
    have hb := (hx _).rel h₂.1 h₂.2
    exact ⟨_, .closing he (.refl _) hb rfl rfl (.deposited hs hcount rfl)⟩
  · obtain ⟨_, s₂, h₂, h⟩ := bind_succeeds.mp h
    obtain rfl := update_succeeds.mp h
    have hb := (safeTransferFrom_keeps hx _ _ _ _).rel h₂.1 h₂.2
    exact ⟨_, .closing he (.refl _) hb rfl rfl (.deposited hs hcount rfl)⟩

theorem depositV3_books (hn : ∀ msg call, Keeps (books Made) (enter msg call)) {d : DepositV3}
    (hs : isSafeDeposit call = true)
    (h : Succeeds (books Made).given (depositV3 V H (externalCall H enter) msg call d) s u s') :
    ∃ e, Enters Made (.event call (.v3FundsDeposited e)) s s' := by
  obtain ⟨he, t, hbody, rfl⟩ := nonReentrant_succeeds h
  replace h := unpausedDeposits_succeeds hbody
  obtain ⟨_, _, hnext, h⟩ := bind_succeeds.mp h
  obtain ⟨hcount, rfl, rfl⟩ := nextDepositId_ok hnext.1
  obtain ⟨s₁, e, hb, hid, rfl⟩ := depositV3Internal_books hn h
  exact ⟨e, .closing he (.refl _) hb rfl rfl (.deposited hs hcount hid)⟩

theorem unsafeDepositV3_books (hn : ∀ msg call, Keeps (books Made) (enter msg call)) {d : DepositV3} {n : Uint256}
    (hm : Made msg (.unsafeDepositV3 d n)) (h : Succeeds (books Made).given
      (unsafeDepositV3 V H (externalCall H enter) msg (.unsafeDepositV3 d n) d n) s u s') :
    ∃ e, e.depositId = getUnsafeDepositId msg.sender d.depositor n ∧
      Enters Made (.event (.unsafeDepositV3 d n) (.v3FundsDeposited e)) s s' := by
  obtain ⟨he, _, hbody, rfl⟩ := nonReentrant_succeeds h
  obtain ⟨s₁, e, hb, hid, rfl⟩ := depositV3Internal_books hn (unpausedDeposits_succeeds hbody)
  exact ⟨e, hid, .closing he (.refl _) hb rfl rfl (.depositedUnsafe hm hid)⟩

theorem executeRelayerRefundLeaf_books (hn : ∀ msg call, Keeps (books Made) (enter msg call)) {i : Uint32}
    {leaf : RelayerRefundLeaf} {proof : List Bytes32} (hm : Made msg (.executeRelayerRefundLeaf i leaf proof))
    (h : Succeeds (books Made).given (executeRelayerRefundLeaf V H (externalCall H enter) msg
      (.executeRelayerRefundLeaf i leaf proof) i leaf proof) s u s') :
    Enters Made (.event (.executeRelayerRefundLeaf i leaf proof) (.executedRelayerRefundRoot i leaf msg.sender))
      s s' := by
  obtain ⟨he, t, hbody, rfl⟩ := nonReentrant_succeeds h
  simp only [bind_succeeds, read_succeeds, require_succeeds] at hbody
  obtain ⟨_, _, ⟨rfl, rfl⟩, _, s₁, hhook, _, _, ⟨-, rfl⟩, _, _, ⟨rfl, rfl⟩, hbody⟩ := hbody
  have hx := externalCall_books (H := H) hn
  have h₁ := (Keeps.forEach hx _).rel hhook.1 hhook.2
  cases hb : s₁.pool.rootBundles[i.toNat]? with
  | none =>
      rw [hb] at hbody
      exact (revert_succeeds.mp hbody).elim
  | some b =>
      simp only [hb, setClaimedLeaf, setPool, bind_succeeds, read_succeeds, require_succeeds] at hbody
      obtain ⟨_, _, ⟨hv, rfl⟩, _, _, ⟨_, _, ⟨rfl, rfl⟩, hclaim⟩, _, s₂, hpay, hemit⟩ := hbody
      simp only [hb, bind_succeeds, require_succeeds, update_succeeds] at hclaim
      obtain ⟨_, _, ⟨hc, rfl⟩, rfl⟩ := hclaim
      simp only [emit, update_succeeds] at hemit
      subst hemit
      have he₁ : s₁.pool.entered = true := h₁.entered
      have h₂ := (distributeRelayerRefunds_keeps hx msg leaf
        (Keeps.update (fun _ => .item rfl rfl rfl rfl rfl) fun _ _ => trivial)).rel hpay.1 hpay.2
      exact .closing he h₁ h₂ he₁ rfl (.executed hm hb hv hc)

theorem transferOwnership_books {a : Address} (hm : Made msg call) (ho : s.pool.owner = msg.sender)
    (h : Succeeds P (transferOwnership call a) s u s') : Booked Made s s' := by
  simp only [transferOwnership, setPool, emit, bind_succeeds, read_succeeds, update_succeeds] at h
  obtain ⟨_, _, ⟨rfl, rfl⟩, _, _, rfl, rfl⟩ := h
  refine ⟨⟨_, rfl, .skip rfl (.nil _), fun _ x hx => ?_⟩, rfl, .inr ⟨msg, call, hm, ho.symm⟩⟩
  rw [List.mem_singleton.mp hx]
  rfl

theorem dispatch_books {self : Call → Code W Unit} (hn : ∀ msg call, Keeps (books Made) (enter msg call))
    (hk : keepsBooks call = true) (hm : Made msg call)
    (h : Succeeds (books Made).given (dispatch V H (externalCall H enter) self msg call call) s () s') :
    Booked Made s s' := by
  cases call with
  | relayRootBundle r sl =>
      obtain ⟨he, t, hbody, rfl⟩ := nonReentrant_succeeds (onlyAdmin_succeeds h)
      simp only [relayRootBundle, setPool, emit, bind_succeeds, read_succeeds, update_succeeds] at hbody
      obtain ⟨_, _, ⟨rfl, rfl⟩, _, _, rfl, rfl⟩ := hbody
      exact Enters.booked (.closing he (.refl _) (.refl _) rfl rfl (.relayed r sl))
  | emergencyDeleteRootBundle i =>
      obtain ⟨he, t, hbody, rfl⟩ := nonReentrant_succeeds (onlyAdmin_succeeds h)
      simp only [emergencyDeleteRootBundle, setPool, emit, bind_succeeds, read_succeeds, require_succeeds,
        update_succeeds] at hbody
      obtain ⟨_, _, ⟨rfl, rfl⟩, _, _, ⟨hi, rfl⟩, _, _, rfl, rfl⟩ := hbody
      exact Enters.booked (.closing he (.refl _) (.refl _) rfl rfl (.deleted hi))
  | executeRelayerRefundLeaf i leaf proof => exact (executeRelayerRefundLeaf_books hn hm (onlyEOA_succeeds h)).booked
  | transferOwnership a =>
      obtain ⟨ho, h⟩ := onlyOwner_succeeds h
      simp only [bind_succeeds, require_succeeds] at h
      obtain ⟨_, _, ⟨-, rfl⟩, h⟩ := h
      exact transferOwnership_books hm ho h
  | renounceOwnership =>
      obtain ⟨ho, h⟩ := onlyOwner_succeeds h
      exact transferOwnership_books hm ho h
  | deposit d | depositFor d =>
      obtain ⟨e, h⟩ := depositInternal_books hn rfl h
      exact h.booked
  | depositV3 d | depositExclusive d =>
      obtain ⟨e, h⟩ := depositV3_books hn rfl h
      exact h.booked
  | unsafeDepositV3 d n =>
      obtain ⟨e, -, h⟩ := unsafeDepositV3_books hn hm h
      exact h.booked
  | depositV3Now d o =>
      simp only [dispatch, depositV3Now, bind_succeeds, read_succeeds, require_succeeds] at h
      obtain ⟨_, _, ⟨rfl, rfl⟩, _, _, ⟨-, rfl⟩, h⟩ := h
      obtain ⟨e, h⟩ := depositV3_books hn rfl h
      exact h.booked
  | _ => cases hk

theorem books_rules (Made : Msg → Call → Prop) (V : Variant W) (H : Host W) : Rules V H (books Made) where
  base := (books_blind Made).base
  rest := (books_blind Made).rest
  external := (books_blind Made).external none
  guard {s t} he h := by
    obtain ⟨hl, t, ht, hq⟩ := h.guarded rfl
    refine ⟨⟨t, ht, ?_, fun _ => hq⟩, he.symm, h.owner⟩
    rw [show ledger s.pool = _ from hl.symm]
    exact .quiet _ hq
  set {s p call e} _ hr := by
    refine .item rfl ?_ ?_ hr.entered hr.guards.owner
    · have he := hr.event
      cases e with
      | relayedRootBundle _ _ _ | emergencyDeleteRootBundle _ | executedRelayerRefundRoot _ _ _
      | v3FundsDeposited _ => cases he
      | _ => rfl
    · change Ledger.mk _ _ = Ledger.mk _ _
      rw [hr.rootBundles, hr.numberOfDeposits]
  request _ h := (books_blind Made).status h
  fill hn _ _ _ _ _ _ _ _ _ _ h hg := (fillRelayV3_blind (books_blind Made) hn _ _ _ _ _).rel h hg
  books hn _ _ _ _ hk hown h := by
    obtain ⟨f, hf, rfl, rfl, -⟩ := hown
    exact dispatch_books hn hk hf h
  owner _ _ _ := trivial
  process {_ msg root data s} hs _ := by
    refine processMessageFromRoot_keeps (fun _ _ _ => trivial) (fun _ _ _ => trivial) (fun s b => ?_)
      (fun s call a b => ?_) (hs data) msg _ root s
    · exact Booked.silent rfl rfl rfl rfl
    · exact Booked.item (x := .event call (.receivedMessageFromL1 a b)) rfl rfl rfl rfl rfl

end Functions

section Runs

/-- The calls of the pool that these records are about. -/
def MadeIn (frames : List (Frame W)) (msg : Msg) (call : Call) : Prop := ∃ r ∈ frames, r.msg = msg ∧ r.call = call

theorem exec_books (Made : Msg → Call → Prop) (V : Variant W) (H : Host W) (n : Nat) (msg : Msg) (call : Call) :
    Keeps (books Made) (exec V H n msg call) :=
  exec_keeps (books_rules Made V H) (fun _ _ _ _ _ _ => trivial) n msg call

/-- Whatever the transactions are and whatever the accounts they reach do, the
history of a run accounts for its ledger. -/
theorem run_booked {V : Variant W} {H : Host W} {n : Nat} {inputs : List (Input W)} {s s' : World W}
    (h : Ok (run V H n inputs) s () s') : Booked (MadeIn (run V H n inputs s).frames) s s' := by
  have hk := run_keeps (H := H) (books_blind _).base (books_blind _).rest (fun _ _ => .silent rfl rfl rfl rfl)
    (exec_books (MadeIn (run V H n inputs s).frames) V H n) inputs
  exact hk.rel h fun r hr => ⟨r, hr, rfl, rfl⟩

end Runs

end Across.SpokeBooks
