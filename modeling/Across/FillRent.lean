import Across.SvmFills

namespace Across.FillRent

open CallExec CallExec.Exec SvmTypes SvmState SvmProgram SvmSteps SvmFills

variable {W : Type} {R : Runtime W} {b b' : Bank W} {u : Unit} {h : Hash} {t t' : List Item} {y : Item}

section Payers

def payer (h : Hash) : Item → Option Pubkey
  | .created (.fills k) p => if k = h then some p else none
  | _ => none

/-- Who paid for the account of a fill when it was last created. -/
def creator (h : Hash) (t : List Item) : Option Pubkey := (t.filterMap (payer h)).getLast?

/-- Every account of a fill was closed in favour of who had paid for it. -/
def RentReturned (t : List Item) : Prop :=
  ∀ pre h d, pre ++ [.closed (.fills h) d] <+: t → creator h pre = some d

/-- Items that neither create nor close the account of a fill. -/
def Quiet : Item → Prop
  | .created (.fills _) _ => False
  | .closed (.fills _) _ => False
  | _ => True

theorem creator_append : creator h (t ++ t') = (creator h t').or (creator h t) := by
  rw [creator, creator, creator, List.filterMap_append, List.getLast?_append]

theorem Quiet.payer (hy : Quiet y) : payer h y = none := by
  cases y with
  | created a p =>
      cases a with
      | fills k => exact hy.elim
      | _ => rfl
  | _ => rfl

theorem creator_quiet (ht : ∀ y ∈ t', Quiet y) : creator h (t ++ t') = creator h t := by
  have hnil : t'.filterMap (payer h) = [] := List.filterMap_eq_nil_iff.mpr fun y hy => (ht y hy).payer
  rw [creator_append, creator, hnil]
  rfl

theorem RentReturned.snoc (ht : RentReturned t) (hy : ∀ h d, y = .closed (.fills h) d → creator h t = some d) :
    RentReturned (t ++ [y]) := by
  intro pre h d hpre
  rcases List.prefix_concat_iff.mp hpre with he | hpre
  · obtain ⟨rfl, hyd⟩ := List.append_inj' he rfl
    exact hy h d (List.singleton_inj.mp hyd).symm
  · exact ht pre h d hpre

theorem RentReturned.append (ht : RentReturned t) (hq : ∀ y ∈ t', ∀ h d, y ≠ .closed (.fills h) d) :
    RentReturned (t ++ t') := by
  induction t' using List.reverseRecOn with
  | nil => rwa [List.append_nil]
  | append_singleton t' y ih =>
      rw [← List.append_assoc]
      refine (ih fun z hz => hq z (List.mem_append_left _ hz)).snoc fun h d hy => ?_
      exact absurd hy (hq y (List.mem_append_right _ (List.mem_singleton_self y)) h d)

theorem creator_created {k : Hash} {p : Pubkey} (ht : ∀ y ∈ t', Quiet y) :
    creator k (t ++ .created (.fills h) p :: t') = if h = k then some p else creator k t := by
  rw [List.append_cons, creator_quiet ht, creator_append]
  by_cases hk : h = k
  · simp only [creator, payer, hk, if_true, List.filterMap_cons]
    rfl
  · simp only [creator, payer, hk, if_false, List.filterMap_cons]
    rfl

end Payers

section Steps

/-- What one instruction does to the accounts of fills. Whoever a kept account is
to return its rent to, that does not change. -/
inductive RentStep (b b' : Bank W) : Prop
  | idle {t : List Item} (hs : b'.fillStatuses = b.fillStatuses) (ht : b'.trace = b.trace ++ t)
      (hq : ∀ y ∈ t, Quiet y)
  | kept {h : Hash} {a a' : FillStatusAccount} {t : List Item} (ha : b.fillStatuses h = some a)
      (hr : a'.relayer = a.relayer) (hne : a'.status ≠ .unfilled)
      (hs : b'.fillStatuses = Function.update b.fillStatuses h (some a')) (ht : b'.trace = b.trace ++ t)
      (hq : ∀ y ∈ t, Quiet y)
  | opened {h : Hash} {a : FillStatusAccount} {t : List Item} (hne : a.status ≠ .unfilled)
      (hs : b'.fillStatuses = Function.update b.fillStatuses h (some a))
      (ht : b'.trace = b.trace ++ .created (.fills h) a.relayer :: t) (hq : ∀ y ∈ t, Quiet y)
  | closed {h : Hash} {a : FillStatusAccount} (ha : b.fillStatuses h = some a)
      (hs : b'.fillStatuses = Function.update b.fillStatuses h none)
      (ht : b'.trace = b.trace ++ [.closed (.fills h) a.relayer])

/-- The relayer of every account is who paid for it. -/
structure Paid (b : Bank W) : Prop where
  account : ∀ h a, b.fillStatuses h = some a → creator h b.trace = some a.relayer ∧ a.status ≠ .unfilled
  returned : RentReturned b.trace

theorem written {f : Hash → Option FillStatusAccount} {k : Hash} {o : Option FillStatusAccount}
    {a : FillStatusAccount} (hw : Function.update f k o h = some a) : h = k ∧ o = some a ∨ h ≠ k ∧ f h = some a := by
  by_cases hk : h = k
  · rw [hk, Function.update_self] at hw
    exact .inl ⟨hk, hw⟩
  · rw [Function.update_of_ne hk] at hw
    exact .inr ⟨hk, hw⟩

theorem Quiet.not_closed {d : Pubkey} (hy : Quiet y) : y ≠ .closed (.fills h) d := by
  rintro rfl
  exact hy

theorem RentReturned.quiet (hr : RentReturned t) (hq : ∀ y ∈ t', Quiet y) : RentReturned (t ++ t') :=
  hr.append fun y hy _ _ => (hq y hy).not_closed

theorem Paid.step (hp : Paid b) (hs : RentStep b b') : Paid b' := by
  cases hs with
  | idle hs ht hq =>
      refine ⟨fun h a ha => ?_, ht ▸ hp.returned.quiet hq⟩
      rw [hs] at ha
      rw [ht, creator_quiet hq]
      exact hp.account h a ha
  | @kept k a a' t ha hr hne hs ht hq =>
      refine ⟨fun h c hc => ?_, ht ▸ hp.returned.quiet hq⟩
      rw [ht, creator_quiet hq]
      rcases written (hs ▸ hc) with ⟨rfl, hc⟩ | ⟨-, hc⟩
      · rw [← Option.some.inj hc, hr]
        exact ⟨(hp.account h a ha).1, hne⟩
      · exact hp.account h c hc
  | @opened k a t hne hs ht hq =>
      refine ⟨fun h c hc => ?_, ?_⟩
      · rw [ht, creator_created hq]
        rcases written (hs ▸ hc) with ⟨rfl, hc⟩ | ⟨hk, hc⟩
        · rw [if_pos rfl, ← Option.some.inj hc]
          exact ⟨rfl, hne⟩
        · rw [if_neg (Ne.symm hk)]
          exact hp.account h c hc
      · rw [ht]
        refine hp.returned.append fun y hy => ?_
        rcases List.mem_cons.mp hy with rfl | hy
        · exact nofun
        · exact fun _ _ => (hq y hy).not_closed
  | @closed k a ha hs ht =>
      refine ⟨fun h c hc => ?_, ?_⟩
      · rcases written (hs ▸ hc) with ⟨-, hc⟩ | ⟨-, hc⟩
        · cases hc
        · rw [ht, creator_append]
          exact hp.account h c hc
      · rw [ht]
        refine hp.returned.snoc fun h d hd => ?_
        obtain ⟨hk, rfl⟩ := Item.closed.inj hd
        obtain rfl := Pda.fills.inj hk
        exact (hp.account k a ha).1

theorem fillV3Relay_rent {x : FillV3Relay} (hp : Paid b)
    (hown : ∀ a, b.fillStatuses x.relayHash = some a → a.status = .requestedSlowFill → x.signer = a.relayer)
    (hk : Ok (fillV3Relay R x) b u b') : RentStep b b' := by
  obtain ⟨-, -, a, hf, ha, w, t, p, rfl, hpaid, rfl⟩ := fillV3Relay_ok hk
  have hq : ∀ y ∈ p ++ [.emitted (.filledV3Relay x.relayData x.repaymentChainId x.repaymentAddress
      x.relayData.outputAmount (fillTypeOf a.status))], Quiet y := by
    intro y hy
    rcases List.mem_append.mp hy with hy | hy
    · rcases hpaid with rfl | rfl
      · cases hy
      · rw [List.mem_singleton.mp hy]
        trivial
    · rw [List.mem_singleton.mp hy]
      trivial
  rcases hf with he | ⟨he, -⟩
  · -- the account is there, so its relayer is overwritten by the signer
    have hst : a.status = .requestedSlowFill := by
      cases hs : a.status with
      | unfilled => exact absurd hs (hp.account _ a he).2
      | requestedSlowFill => rfl
      | filled => exact absurd hs ha
    refine .kept he (hown a he hst) ?_ rfl ?_ hq
    · exact nofun
    · rw [wroteFill, he, opening, List.nil_append]
  · refine .opened ?_ rfl ?_ hq
    · exact nofun
    · rw [wroteFill, he, opening, List.append_assoc]
      rfl

theorem requestV3SlowFill_rent {x : RequestV3SlowFill} (hp : Paid b) (hk : Ok (requestV3SlowFill R x) b u b') :
    RentStep b b' := by
  obtain ⟨-, -, a, hf, ha, w, t, rfl, rfl⟩ := requestV3SlowFill_ok hk
  rcases hf with he | ⟨he, -⟩
  · exact absurd ha (hp.account _ a he).2
  · refine .opened (t := [.emitted (.requestedV3SlowFill x.relayData)]) ?_ rfl ?_ ?_
    · exact nofun
    · rw [wroteFill, he, opening]
      rfl
    · exact List.forall_mem_singleton.mpr trivial

theorem executeV3SlowRelayLeaf_rent {x : ExecuteV3SlowRelayLeaf} (hk : Ok (executeV3SlowRelayLeaf R x) b u b') :
    RentStep b b' := by
  obtain ⟨-, -, a, he, -, w, rfl⟩ := executeV3SlowRelayLeaf_ok hk
  refine .kept (h := x.relayHash) he ?_ ?_ rfl rfl ?_
  · rfl
  · exact nofun
  · simp [Quiet]

theorem closeFillPda_rent {x : CloseFillPda} (hk : Ok (closeFillPda R x) b u b') : RentStep b b' := by
  obtain ⟨-, -, a, he, hs, w, rfl⟩ := closeFillPda_ok hk
  exact .closed he rfl (by rw [wroteFill, hs])

theorem executeRelayerRefundLeaf_rent {x : ExecuteRelayerRefundLeaf} (hk : Ok (executeRelayerRefundLeaf R x) b u b') :
    RentStep b b' := by
  have hx := executeRelayerRefundLeaf_ok hk
  obtain ⟨t, d, ht, hall⟩ := hx.trace
  refine .idle hx.same.2.2 ht fun y hy => ?_
  rcases List.mem_append.mp hy with hy | hy
  · rcases hall y hy with rfl | rfl | ⟨_, _, rfl⟩ <;> trivial
  · rw [List.mem_singleton.mp hy]
    trivial

/-- No fill succeeds on an account that is requested, unless the signer is the one
who has requested it. -/
def OwnFill (R : Runtime W) (ix : Instruction) (b : Bank W) : Prop :=
  ∀ x a, ix = .fillV3Relay x → b.fillStatuses x.relayHash = some a → a.status = .requestedSlowFill →
    x.signer = a.relayer ∨ Reverts (fillV3Relay R x) b

theorem process_rent {ix : Instruction} (hp : Paid b) (ho : OwnFill R ix b) (hk : Ok (process R ix) b u b') :
    RentStep b b' := by
  cases ix with
  | fillV3Relay x =>
      refine fillV3Relay_rent hp (fun a ha hr => ?_) hk
      rcases ho x a rfl ha hr with hs | hrev
      · exact hs
      · exact absurd hk ((reverts_iff _ _).mp hrev _ _)
  | closeFillPda x => exact closeFillPda_rent hk
  | requestV3SlowFill x => exact requestV3SlowFill_rent hp hk
  | executeV3SlowRelayLeaf x => exact executeV3SlowRelayLeaf_rent hk
  | executeRelayerRefundLeaf x => exact executeRelayerRefundLeaf_rent hk
  | initializeClaimAccount x =>
      obtain ⟨-, _, rfl⟩ := initializeClaimAccount_ok hk
      exact .idle rfl rfl (by simp [Quiet])
  | claimRelayerRefund x =>
      obtain ⟨_, -, _, rfl⟩ := claimRelayerRefund_ok hk
      exact .idle rfl rfl (by simp [Quiet])
  | closeClaimAccount x =>
      obtain ⟨_, -, -, _, rfl⟩ := closeClaimAccount_ok hk
      exact .idle rfl rfl (by simp [Quiet])
  | bridgeTokensToHubPool x =>
      obtain ⟨_, -, -, _, rfl⟩ := bridgeTokensToHubPool_ok hk
      exact .idle rfl rfl (by simp [Quiet])
  | relayRootBundle x =>
      obtain ⟨-, -, _, rfl⟩ := relayRootBundle_ok hk
      exact .idle rfl rfl (by simp [Quiet])
  | emergencyDeleteRootBundle x =>
      obtain ⟨-, _, rfl⟩ := emergencyDeleteRootBundle_ok hk
      exact .idle rfl rfl (by simp [Quiet])
  | pauseFills x =>
      obtain rfl := pauseFills_ok hk
      exact .idle rfl rfl (by simp [Quiet])

end Steps

section Runs

/-- An input that, if it is an instruction, fills no relay in another's place. -/
def OwnInput (R : Runtime W) (i : Input W) (b : Bank W) : Prop :=
  ∀ ix, i.action = .instruction ix → OwnFill R ix { b with clock := i.time }

/-- What holds while `is` are still to come. -/
structure Ahead (R : Runtime W) (is : List (Input W)) (b : Bank W) : Prop where
  paid : Paid b
  own : ∀ pre i post s, is = pre ++ i :: post → Ok (run R pre) b () s → OwnInput R i s

theorem Ahead.step {i : Input W} {is : List (Input W)} (ha : Ahead R (i :: is) b) (hi : Ok (input R i) b () b') :
    Ahead R is b' := by
  refine ⟨?_, fun pre j post s hj hs => ?_⟩
  · rcases input_ok hi with ⟨ix, hix, hp⟩ | ⟨w, rfl⟩
    · have hown := ha.own [] i is b rfl ((forEach_nil_ok _ _ _ _).mpr rfl) ix hix
      have hpaid : Paid { b with clock := i.time } := ⟨ha.paid.account, ha.paid.returned⟩
      exact hpaid.step (process_rent hpaid hown hp)
    · exact ⟨ha.paid.account, ha.paid.returned⟩
  · refine ha.own (i :: pre) j post s (congrArg (i :: ·) hj) ?_
    exact (forEach_cons_ok _ _ _ _ _ _).mpr ⟨b', hi, hs⟩

/-- In every run in which no relayer fills on the account of another's request, the
rent of each closed account goes to who paid for it. -/
theorem rent_returned_to_payer (R : Runtime W) (inputs : List (Input W)) (owner : Pubkey) (c : U64)
    (remoteDomain : U32) (crossDomainAdmin : Pubkey) (clock : Int) (w : W)
    (hown : ∀ pre i post s, inputs = pre ++ i :: post →
      Ok (run R pre) (initialized owner c remoteDomain crossDomainAdmin clock w) () s → OwnInput R i s) :
    ∃ b, Ok (run R inputs) (initialized owner c remoteDomain crossDomainAdmin clock w) () b ∧
      RentReturned b.trace := by
  obtain ⟨b, hrun⟩ := run_returns R inputs (initialized owner c remoteDomain crossDomainAdmin clock w)
  have hstart : Paid (initialized owner c remoteDomain crossDomainAdmin clock w) := by
    refine ⟨nofun, fun pre h d hpre => ?_⟩
    have hnil := List.prefix_nil.mp hpre
    exact absurd hnil (List.append_ne_nil_of_right_ne_nil pre (List.cons_ne_nil _ _))
  have hend := run_invariant (I := Ahead R) (fun ha hi => ha.step hi) ⟨hstart, hown⟩ hrun
  exact ⟨b, hrun, hend.paid.returned⟩

end Runs

section Samples

/-- A slow fill is requested at someone's cost, and replaced by a fill of 32, who
closes the account. -/
def sampleReplaced (requester : Pubkey) : List (Input (Pubkey → Nat)) :=
  [⟨10, .instruction (.requestV3SlowFill ⟨requester, sampleHash, sampleRelay⟩)⟩,
    ⟨20, .instruction (.fillV3Relay sampleFill)⟩,
    ⟨200, .instruction (.closeFillPda ⟨32, sampleHash, sampleRelay⟩)⟩]

def sampleReplacedTrace (requester : Pubkey) : List Item :=
  [.created (.fills sampleHash) requester, .emitted (.requestedV3SlowFill sampleRelay),
    .transferred (.fill sampleHash) 5 1032 1022 9,
    .emitted (.filledV3Relay sampleRelay 1 32 9 .replacedSlowFill), .closed (.fills sampleHash) 32]

/-- The bank after the request, after the fill and after the closing. -/
def sampleReplacedBank (requester : Pubkey) (n : Nat) (clock : Int) (a : Option FillStatusAccount) (w : Pubkey → Nat) :
    Bank (Pubkey → Nat) :=
  { wroteFill sampleBank sampleHash a w ((sampleReplacedTrace requester).take n) with clock := clock }

def paidWallet : Pubkey → Nat := Function.update (Function.update (fun _ => 100) 1032 91) 1022 109

theorem sampleRequest_runs (requester : Pubkey) :
    Ok (input sampleRuntime ⟨10, .instruction (.requestV3SlowFill ⟨requester, sampleHash, sampleRelay⟩)⟩) sampleBank ()
      (sampleReplacedBank requester 2 10 (some ⟨.requestedSlowFill, requester⟩) fun _ => 100) := by
  refine input_of_ok ?_
  have hinit : Ok (initFillStatus sampleRuntime sampleHash requester) { sampleBank with clock := 10 } ⟨.unfilled, 0⟩
      (wroteFill { sampleBank with clock := 10 } sampleHash (some ⟨.unfilled, 0⟩) (fun _ => 100)
        [.created (.fills sampleHash) requester]) := rfl
  simp only [process, requestV3SlowFill, read_bind_ok, require_bind_ok]
  refine ⟨rfl, (bind_ok _ _ _ _ _).mpr ⟨_, _, hinit, ?_⟩⟩
  simp only [require_bind_ok, getCurrentTime_bind_ok, setFillStatus, emit, update_bind_ok, update_ok, wroteFill,
    Function.update_idem]
  exact ⟨rfl, by decide, by decide, by decide, rfl⟩

theorem initFillStatus_found {p : Pubkey} {a : FillStatusAccount} (ha : b.fillStatuses h = some a) :
    Ok (initFillStatus R h p) b a b := by
  rw [initFillStatus, read_bind_ok, ha]
  exact (pure_ok _ _ _ _).mpr ⟨rfl, rfl⟩

theorem sampleReplace_runs (requester : Pubkey) : Ok (input sampleRuntime ⟨20, .instruction (.fillV3Relay sampleFill)⟩)
    (sampleReplacedBank requester 2 10 (some ⟨.requestedSlowFill, requester⟩) fun _ => 100) ()
    (sampleReplacedBank requester 4 20 (some ⟨.filled, 32⟩) paidWallet) := by
  refine input_of_ok ?_
  simp only [process, fillV3Relay, read_bind_ok, require_bind_ok, checkMint_bind_ok, loaded_bind_ok,
    checkAssociated_bind_ok]
  refine ⟨rfl, ⟨rfl, rfl⟩, ⟨5, 32, 6⟩, rfl, ⟨rfl, rfl, rfl⟩, ⟨rfl, ⟨5, 22, 6⟩, rfl, rfl, rfl⟩, ?_⟩
  refine (bind_ok _ _ _ _ _).mpr ⟨_, _, initFillStatus_found (Function.update_self _ _ _), ?_⟩
  simp only [require_bind_ok, getCurrentTime_bind_ok]
  refine ⟨rfl, by decide, by decide, by decide, ?_⟩
  refine (bind_ok _ _ _ _ _).mpr ⟨(), _, (when_ok _ _ _ _ _).mpr (.inl ⟨by decide, rfl⟩), ?_⟩
  have hhash : sampleFill.relayHash = sampleHash := rfl
  simp only [setFillStatus, emit, update_bind_ok, update_ok, sampleReplacedBank, wroteFill, hhash,
    Function.update_idem]
  rfl

theorem sampleClose_runs (requester : Pubkey) :
    Ok (input sampleRuntime ⟨200, .instruction (.closeFillPda ⟨32, sampleHash, sampleRelay⟩)⟩)
      (sampleReplacedBank requester 4 20 (some ⟨.filled, 32⟩) paidWallet) ()
      (sampleReplacedBank requester 5 200 none paidWallet) := by
  refine input_of_ok ?_
  simp only [process, closeFillPda, read_bind_ok, loaded_bind_ok, require_bind_ok, getCurrentTime_bind_ok,
    setFillStatus, close, update_bind_ok, update_ok, sampleReplacedBank, wroteFill, Function.update_idem]
  exact ⟨⟨.filled, 32⟩, Function.update_self _ _ _, rfl, rfl, by decide, rfl⟩

theorem sampleReplaced_runs (requester : Pubkey) : Ok (run sampleRuntime (sampleReplaced requester)) sampleBank ()
    (sampleReplacedBank requester 5 200 none paidWallet) :=
  (forEach_cons_ok _ _ _ _ _ _).mpr ⟨_, sampleRequest_runs requester, (forEach_cons_ok _ _ _ _ _ _).mpr
    ⟨_, sampleReplace_runs requester, (forEach_cons_ok _ _ _ _ _ _).mpr
      ⟨_, sampleClose_runs requester, (forEach_nil_ok _ _ _ _).mpr rfl⟩⟩⟩

theorem sampleReplaced_own {pre post : List (Input (Pubkey → Nat))} {i : Input (Pubkey → Nat)}
    {s : Bank (Pubkey → Nat)} (hin : sampleReplaced 32 = pre ++ i :: post)
    (hs : Ok (run sampleRuntime pre) sampleBank () s) : OwnInput sampleRuntime i s := by
  rintro ix hix x a rfl ha hr
  match pre with
  | [] =>
      obtain ⟨rfl, -⟩ := List.cons.inj hin
      cases hix
  | [_] =>
      obtain ⟨rfl, htail⟩ := List.cons.inj hin
      obtain ⟨rfl, -⟩ := List.cons.inj htail
      cases hix
      obtain ⟨s', hfirst, hnil⟩ := (forEach_cons_ok _ _ _ _ _ _).mp hs
      obtain rfl := (forEach_nil_ok _ _ _ _).mp hnil
      obtain ⟨-, rfl⟩ := hfirst.unique (sampleRequest_runs 32)
      have hrequested : some a = some (⟨.requestedSlowFill, 32⟩ : FillStatusAccount) :=
        ha.symm.trans (Function.update_self _ _ _)
      rw [Option.some.inj hrequested]
      exact .inl rfl
  | [_, _] =>
      obtain ⟨-, hin⟩ := List.cons.inj hin
      obtain ⟨-, hin⟩ := List.cons.inj hin
      obtain ⟨rfl, -⟩ := List.cons.inj hin
      cases hix
  | _ :: _ :: _ :: pre =>
      obtain ⟨-, hin⟩ := List.cons.inj hin
      obtain ⟨-, hin⟩ := List.cons.inj hin
      obtain ⟨-, hin⟩ := List.cons.inj hin
      exact absurd hin.symm (List.append_ne_nil_of_right_ne_nil pre (List.cons_ne_nil _ _))

theorem sampleReplaced_returns : ∃ b, Ok (run sampleRuntime (sampleReplaced 32)) sampleBank () b ∧
    RentReturned b.trace :=
  rent_returned_to_payer sampleRuntime (sampleReplaced 32) 3 7 0 4 0 (fun _ => 100)
    fun _ _ _ _ hin hs => sampleReplaced_own hin hs

/-- 31 has paid for the account, and 32 gets what it held. -/
theorem sampleReplaced_misdirects : ∃ b, Ok (run sampleRuntime (sampleReplaced 31)) sampleBank () b ∧
    b.trace = sampleReplacedTrace 31 ∧ ¬ RentReturned b.trace := by
  refine ⟨_, sampleReplaced_runs 31, rfl, fun h => ?_⟩
  have hpayer : creator sampleHash ((sampleReplacedTrace 31).take 4) = some 32 := h _ _ _ (List.prefix_refl _)
  have hcreated : creator sampleHash ((sampleReplacedTrace 31).take 4) = some 31 :=
    (creator_created (t := []) (by simp [Quiet])).trans (if_pos rfl)
  exact absurd (hcreated.symm.trans hpayer) (by decide)

end Samples

end Across.FillRent
