import Across.OrderWitness
import Across.SvmSteps

namespace Across.SvmFills

open CallExec CallExec.Exec OrderWitness SvmTypes SvmState SvmProgram SvmSteps

variable {W : Type} {R : Runtime W} {b b' : Bank W} {u : Unit} {c : U64} {h : Hash}

inductive Mark
  | requested
  | paid
  | filled
deriving DecidableEq

def mark (c : U64) (h : Hash) : Item → Option Mark
  | .transferred (.fill k) _ _ _ _ => if k = h then some .paid else none
  | .emitted (.filledV3Relay r _ _ _ _) => if getV3RelayHash r c = h then some .filled else none
  | .emitted (.requestedV3SlowFill r) => if getV3RelayHash r c = h then some .requested else none
  | _ => none

def marks (c : U64) (h : Hash) (t : List Item) : List Mark := t.filterMap (mark c h)

def relays : Instruction → List V3RelayData
  | .fillV3Relay x => [x.relayData]
  | .closeFillPda x => [x.relayData]
  | .requestV3SlowFill x => [x.relayData]
  | .executeV3SlowRelayLeaf x => [x.slowFillLeaf.relayData]
  | _ => []

def relaysOf : Action W → List V3RelayData
  | .instruction ix => relays ix
  | .elsewhere _ => []

section Moves

@[simp] theorem marks_append (t t' : List Item) : marks c h (t ++ t') = marks c h t ++ marks c h t' :=
  List.filterMap_append

theorem marks_quiet {t : List Item} (ht : ∀ y ∈ t, mark c h y = none) : marks c h t = [] :=
  List.filterMap_eq_nil_iff.mpr ht

/-- What one step can do to the relay with hash `h`. `rs` are the relays it may
name. -/
inductive Moves (rs : List V3RelayData) (c : U64) (h : Hash) (b b' : Bank W) : Prop
  | idle (hs : b'.fillStatuses h = b.fillStatuses h) (hm : marks c h b'.trace = marks c h b.trace)
  | request {r : V3RelayData} {a a' : FillStatusAccount} (hr : r ∈ rs) (hh : getV3RelayHash r c = h)
      (hn : now b ≤ r.fillDeadline.toNat) (hf : Found (b.fillStatuses h) a) (ha : a.status = .unfilled)
      (hs : b'.fillStatuses h = some a') (ha' : a'.status = .requestedSlowFill)
      (hm : marks c h b'.trace = marks c h b.trace ++ [.requested])
  | fill {r : V3RelayData} {a a' : FillStatusAccount} {p : List Mark} (hr : r ∈ rs) (hh : getV3RelayHash r c = h)
      (hn : now b ≤ r.fillDeadline.toNat) (hf : Found (b.fillStatuses h) a) (ha : a.status ≠ .filled)
      (hs : b'.fillStatuses h = some a') (ha' : a'.status = .filled) (hp : p = [] ∨ p = [.paid])
      (hm : marks c h b'.trace = marks c h b.trace ++ (p ++ [.filled]))
  | close {r : V3RelayData} (hr : r ∈ rs) (hh : getV3RelayHash r c = h) (hn : r.fillDeadline.toNat < now b)
      (hs : b'.fillStatuses h = none) (hm : marks c h b'.trace = marks c h b.trace)

theorem Moves.mono {rs rs' : List V3RelayData} (hm : Moves rs c h b b') (hrs : rs ⊆ rs') : Moves rs' c h b b' := by
  cases hm with
  | idle hs hm => exact .idle hs hm
  | request hr hh hn hf ha hs ha' hm => exact .request (hrs hr) hh hn hf ha hs ha' hm
  | fill hr hh hn hf ha hs ha' hp hm => exact .fill (hrs hr) hh hn hf ha hs ha' hp hm
  | close hr hh hn hs hm => exact .close (hrs hr) hh hn hs hm

theorem Moves.quiet {rs : List V3RelayData} {t : List Item} (hs : b'.fillStatuses = b.fillStatuses)
    (ht : b'.trace = b.trace ++ t) (hq : ∀ y ∈ t, mark c h y = none) : Moves rs c h b b' := by
  refine .idle (congrFun hs h) ?_
  rw [ht, marks_append, marks_quiet hq, List.append_nil]

theorem Moves.elsewhere {rs : List V3RelayData} {k : Hash} {a : Option FillStatusAccount} {w : W} {t : List Item}
    (hk : h ≠ k) (hq : ∀ y ∈ t, mark c h y = none) : Moves rs c h b (wroteFill b k a w t) := by
  refine .idle (Function.update_of_ne hk _ _) ?_
  rw [wroteFill, marks_append, marks_quiet hq, List.append_nil]

theorem mark_requested {y : Item} (hy : mark c h y = some .requested) :
    ∃ r, y = .emitted (.requestedV3SlowFill r) ∧ getV3RelayHash r c = h := by
  unfold mark at hy
  split at hy
  · simp at hy
  · simp at hy
  · simp only [Option.ite_none_right_eq_some, and_true] at hy
    exact ⟨_, rfl, hy⟩
  · cases hy

theorem mark_created {t : List Item} {a : Pda} {payer : Pubkey} (ht : ∀ y ∈ t, y = .created a payer) :
    ∀ y ∈ t, mark c h y = none := by
  intro y hy
  rw [ht y hy]
  rfl

theorem fillV3Relay_moves {x : FillV3Relay} (hk : Ok (fillV3Relay R x) b u b') (h : Hash) :
    Moves [x.relayData] b.state.chainId h b b' := by
  obtain ⟨hh, hn, a, hf, ha, w, t, p, rfl, hp, rfl⟩ := fillV3Relay_ok hk
  by_cases he : h = x.relayHash
  · subst he
    have hmt : marks b.state.chainId x.relayHash (opening (b.fillStatuses x.relayHash) x.relayHash x.signer) = [] :=
      marks_quiet (mark_created fun _ => mem_opening)
    have hmp : marks b.state.chainId x.relayHash p = [] ∨ marks b.state.chainId x.relayHash p = [.paid] := by
      rcases hp with rfl | rfl
      · exact .inl rfl
      · exact .inr (by simp [marks, mark])
    refine .fill (List.mem_singleton_self _) hh.symm hn hf ha (Function.update_self _ _ _) rfl hmp ?_
    rw [wroteFill, marks_append, marks_append, marks_append, hmt, List.nil_append]
    simp [marks, mark, hh]
  · refine .elsewhere he fun y hy => ?_
    rcases List.mem_append.mp hy with hy | hy
    · rcases List.mem_append.mp hy with hy | hy
      · exact mark_created (fun _ => mem_opening) y hy
      · rcases hp with rfl | rfl
        · cases hy
        · rw [List.mem_singleton.mp hy]
          exact if_neg (Ne.symm he)
    · rw [List.mem_singleton.mp hy]
      exact if_neg (hh ▸ Ne.symm he)

theorem requestV3SlowFill_moves {x : RequestV3SlowFill} (hk : Ok (requestV3SlowFill R x) b u b') (h : Hash) :
    Moves [x.relayData] b.state.chainId h b b' := by
  obtain ⟨hh, hn, a, hf, ha, w, t, rfl, rfl⟩ := requestV3SlowFill_ok hk
  by_cases he : h = x.relayHash
  · subst he
    have hmt : marks b.state.chainId x.relayHash (opening (b.fillStatuses x.relayHash) x.relayHash x.signer) = [] :=
      marks_quiet (mark_created fun _ => mem_opening)
    refine .request (List.mem_singleton_self _) hh.symm hn hf ha (Function.update_self _ _ _) rfl ?_
    rw [wroteFill, marks_append, marks_append, hmt, List.nil_append]
    simp [marks, mark, hh]
  · refine .elsewhere he fun y hy => ?_
    rcases List.mem_append.mp hy with hy | hy
    · exact mark_created (fun _ => mem_opening) y hy
    · rw [List.mem_singleton.mp hy]
      exact if_neg (hh ▸ Ne.symm he)

theorem executeV3SlowRelayLeaf_moves {x : ExecuteV3SlowRelayLeaf} (hk : Ok (executeV3SlowRelayLeaf R x) b u b')
    (h : Hash) : Moves [x.slowFillLeaf.relayData] b.state.chainId h b b' := by
  obtain ⟨hh, hn, a, hf, ha, w, rfl⟩ := executeV3SlowRelayLeaf_ok hk
  by_cases he : h = x.relayHash
  · subst he
    refine .fill (List.mem_singleton_self _) hh.symm hn (.inl hf) ha (Function.update_self _ _ _) rfl (.inr rfl) ?_
    rw [wroteFill, marks_append]
    simp [marks, mark, ← hh]
  · refine .elsewhere he fun y hy => ?_
    rcases List.mem_cons.mp hy with rfl | hy
    · exact if_neg (Ne.symm he)
    · rw [List.mem_singleton.mp hy]
      exact if_neg (hh ▸ Ne.symm he)

theorem closeFillPda_moves {x : CloseFillPda} (hk : Ok (closeFillPda R x) b u b') (h : Hash) :
    Moves [x.relayData] b.state.chainId h b b' := by
  obtain ⟨hh, hn, a, -, -, w, rfl⟩ := closeFillPda_ok hk
  by_cases he : h = x.relayHash
  · subst he
    refine .close (List.mem_singleton_self _) hh.symm hn (Function.update_self _ _ _) ?_
    rw [wroteFill, marks_append]
    exact List.append_nil _
  · refine .elsewhere he fun y hy => ?_
    rw [List.mem_singleton.mp hy]
    rfl

theorem executeRelayerRefundLeaf_moves {x : ExecuteRelayerRefundLeaf} (hk : Ok (executeRelayerRefundLeaf R x) b u b') :
    Moves [] c h b b' := by
  have hx := executeRelayerRefundLeaf_ok hk
  obtain ⟨t, d, ht, hall⟩ := hx.trace
  refine .quiet hx.same.2.2 ht fun y hy => ?_
  rcases List.mem_append.mp hy with hy | hy
  · rcases hall y hy with rfl | rfl | ⟨_, _, rfl⟩ <;> rfl
  · rw [List.mem_singleton.mp hy]
    rfl

/-- One instruction keeps the time and the chain, and moves each relay as allowed. -/
structure Kept (rs : List V3RelayData) (b b' : Bank W) : Prop where
  clock : b'.clock = b.clock
  chainId : b'.state.chainId = b.state.chainId
  moves : ∀ h, Moves rs b.state.chainId h b b'

theorem process_kept {ix : Instruction} (hk : Ok (process R ix) b u b') : Kept (relays ix) b b' := by
  cases ix with
  | fillV3Relay x =>
      have hm := fillV3Relay_moves hk
      obtain ⟨-, -, _, -, -, _, _, _, -, -, rfl⟩ := fillV3Relay_ok hk
      exact ⟨rfl, rfl, hm⟩
  | closeFillPda x =>
      have hm := closeFillPda_moves hk
      obtain ⟨-, -, _, -, -, _, rfl⟩ := closeFillPda_ok hk
      exact ⟨rfl, rfl, hm⟩
  | requestV3SlowFill x =>
      have hm := requestV3SlowFill_moves hk
      obtain ⟨-, -, _, -, -, _, _, -, rfl⟩ := requestV3SlowFill_ok hk
      exact ⟨rfl, rfl, hm⟩
  | executeV3SlowRelayLeaf x =>
      have hm := executeV3SlowRelayLeaf_moves hk
      obtain ⟨-, -, _, -, -, _, rfl⟩ := executeV3SlowRelayLeaf_ok hk
      exact ⟨rfl, rfl, hm⟩
  | executeRelayerRefundLeaf x =>
      obtain ⟨hclock, hstate, -⟩ := (executeRelayerRefundLeaf_ok hk).same
      exact ⟨hclock, congrArg State.chainId hstate, fun _ => executeRelayerRefundLeaf_moves hk⟩
  | initializeClaimAccount x =>
      obtain ⟨-, _, rfl⟩ := initializeClaimAccount_ok hk
      exact ⟨rfl, rfl, fun _ => .quiet rfl rfl (by simp [mark])⟩
  | claimRelayerRefund x =>
      obtain ⟨_, -, _, rfl⟩ := claimRelayerRefund_ok hk
      exact ⟨rfl, rfl, fun _ => .quiet rfl rfl (by simp [mark])⟩
  | closeClaimAccount x =>
      obtain ⟨_, -, -, _, rfl⟩ := closeClaimAccount_ok hk
      exact ⟨rfl, rfl, fun _ => .quiet rfl rfl (by simp [mark])⟩
  | bridgeTokensToHubPool x =>
      obtain ⟨_, -, -, _, rfl⟩ := bridgeTokensToHubPool_ok hk
      exact ⟨rfl, rfl, fun _ => .quiet rfl rfl (by simp [mark])⟩
  | relayRootBundle x =>
      obtain ⟨-, -, _, rfl⟩ := relayRootBundle_ok hk
      exact ⟨rfl, rfl, fun _ => .quiet rfl rfl (by simp [mark])⟩
  | emergencyDeleteRootBundle x =>
      obtain ⟨-, _, rfl⟩ := emergencyDeleteRootBundle_ok hk
      exact ⟨rfl, rfl, fun _ => .quiet rfl rfl (by simp [mark])⟩
  | pauseFills x =>
      obtain rfl := pauseFills_ok hk
      exact ⟨rfl, rfl, fun _ => .quiet rfl rfl (by simp [mark])⟩

end Moves

section Lives

def Once (ms : List Mark) : Prop := ms.count .paid ≤ 1 ∧ ms.count .filled ≤ 1

instance (ms : List Mark) : Decidable (Once ms) := inferInstanceAs (Decidable (_ ∧ _))

/-- Where a relay stands. Without an account, nothing has happened to it or it is
past its deadline. -/
def Stands (rs : List V3RelayData) (c : U64) (h : Hash) (b : Bank W) : Prop :=
  match b.fillStatuses h with
  | none => marks c h b.trace = [] ∨ Once (marks c h b.trace) ∧
      ∃ r ∈ rs, getV3RelayHash r c = h ∧ r.fillDeadline.toNat < now b
  | some a => a.status = .requestedSlowFill ∧ marks c h b.trace = [.requested] ∨
      a.status = .filled ∧ Once (marks c h b.trace)

def Distinct (rs : List V3RelayData) (c : U64) : Prop :=
  ∀ r ∈ rs, ∀ r' ∈ rs, NoCollision (relayPreimage r c) (relayPreimage r' c)

variable {rs : List V3RelayData}

theorem Stands.once (hs : Stands rs c h b) : Once (marks c h b.trace) := by
  unfold Stands at hs
  split at hs
  · rcases hs with hm | ⟨hm, -⟩
    · rw [hm]
      decide
    · exact hm
  · rcases hs with ⟨-, hm⟩ | ⟨-, hm⟩
    · rw [hm]
      decide
    · exact hm

theorem Stands.tick {t : Int} {w : W} (hs : Stands rs c h b) (ht : now b ≤ now { b with clock := t, rest := w }) :
    Stands rs c h { b with clock := t, rest := w } := by
  unfold Stands at hs ⊢
  cases ha : b.fillStatuses h with
  | none =>
      simp only [ha] at hs ⊢
      rcases hs with hm | ⟨hm, r, hr, hh, hd⟩
      · exact .inl hm
      · exact .inr ⟨hm, r, hr, hh, hd.trans_le ht⟩
  | some a => simpa only [ha] using hs

/-- A relay that may still be filled or requested has no fill behind it. -/
theorem Stands.fresh {r : V3RelayData} {a : FillStatusAccount} (hs : Stands rs c h b) (hd : Distinct rs c) (hr : r ∈ rs)
    (hh : getV3RelayHash r c = h) (hn : now b ≤ r.fillDeadline.toNat) (hf : Found (b.fillStatuses h) a)
    (ha : a.status ≠ .filled) : (a.status = .unfilled ∧ marks c h b.trace = []) ∨
      (a.status = .requestedSlowFill ∧ marks c h b.trace = [.requested]) := by
  unfold Stands at hs
  rcases hf with he | ⟨he, hu⟩
  · simp only [he] at hs
    rcases hs with hs | ⟨hs, -⟩
    · exact .inr hs
    · exact absurd hs ha
  · simp only [he] at hs
    rcases hs with hm | ⟨-, r', hr', hh', hexp⟩
    · exact .inl ⟨hu, hm⟩
    · -- the deadline is part of what is hashed, so the closed account has passed it
      obtain ⟨rfl, -⟩ := relayPreimage_inj (hd r hr r' hr' (hh.trans hh'.symm))
      exact absurd hexp (Nat.not_lt.mpr hn)

theorem Stands.step (hs : Stands rs c h b) (hd : Distinct rs c) (hclock : b'.clock = b.clock) (hm : Moves rs c h b b') :
    Stands rs c h b' := by
  have hnow : now b' = now b := by rw [now, now, hclock]
  cases hm with
  | idle he hm =>
      unfold Stands at hs ⊢
      rw [he, hm, hnow]
      exact hs
  | request hr hh hn hf ha he ha' hm =>
      rcases hs.fresh hd hr hh hn hf (by rw [ha]; decide) with ⟨-, h0⟩ | ⟨hreq, -⟩
      · unfold Stands
        rw [he, hm, h0]
        exact .inl ⟨ha', rfl⟩
      · rw [ha] at hreq
        cases hreq
  | fill hr hh hn hf ha he ha' hp hm =>
      have honce : Once (marks c h b'.trace) := by
        rw [hm]
        rcases hs.fresh hd hr hh hn hf ha with ⟨-, h0⟩ | ⟨-, h0⟩ <;> rcases hp with rfl | rfl <;> rw [h0] <;> decide
      unfold Stands
      rw [he]
      exact .inr ⟨ha', honce⟩
  | close hr hh hn he hm =>
      unfold Stands
      rw [he, hm, hnow]
      exact .inr ⟨hs.once, _, hr, hh, hn⟩

/-- What holds while `is` are still to come: time goes on, and all relays to come
are among `rs`. -/
structure Ahead (rs : List V3RelayData) (c : U64) (is : List (Input W)) (b : Bank W) : Prop where
  chainId : b.state.chainId = c
  clock : (b.clock :: is.map Input.time).Pairwise fun s t => seconds s ≤ seconds t
  named : ∀ i ∈ is, relaysOf i.action ⊆ rs
  stands : ∀ h, Stands rs c h b

theorem Ahead.step {i : Input W} {is : List (Input W)} (ha : Ahead rs c (i :: is) b) (hd : Distinct rs c)
    (hi : Ok (input R i) b () b') : Ahead rs c is b' := by
  obtain ⟨rfl, hclock, hnamed, hs⟩ := ha
  have hle : seconds b.clock ≤ seconds i.time := List.rel_of_pairwise_cons hclock List.mem_cons_self
  have htail := (List.pairwise_cons.mp hclock).2
  have hrest : ∀ j ∈ is, relaysOf j.action ⊆ rs := fun j hj => hnamed j (List.mem_cons_of_mem i hj)
  rcases input_ok hi with ⟨ix, hix, hp⟩ | ⟨w, rfl⟩
  · have hk := process_kept hp
    have hrs : relays ix ⊆ rs := by
      have hsub := hnamed i List.mem_cons_self
      rw [hix] at hsub
      exact hsub
    refine ⟨hk.chainId, ?_, hrest, fun h => ?_⟩
    · rw [hk.clock]
      exact htail
    · have ht : Stands rs b.state.chainId h { b with clock := i.time } := (hs h).tick (w := b.rest) hle
      exact ht.step hd hk.clock ((hk.moves h).mono hrs)
  · exact ⟨rfl, htail, hrest, fun h => (hs h).tick hle⟩

end Lives

section Theorems

/-- In every run each relay is paid and filled at most once, although its account
may be closed and made again, and only a requested relay is filled from the
vault. The clock may not go back, and the hash may not confuse two relays. -/
theorem relays_paid_at_most_once (R : Runtime W) (inputs : List (Input W)) (owner : Pubkey) (c : U64)
    (remoteDomain : U32) (crossDomainAdmin : Pubkey) (clock : Int) (w : W)
    (hclock : (clock :: inputs.map Input.time).Pairwise fun s t => seconds s ≤ seconds t)
    (hd : Distinct (inputs.flatMap fun i => relaysOf i.action) c) :
    ∃ b, Ok (run R inputs) (initialized owner c remoteDomain crossDomainAdmin clock w) () b ∧
      (∀ h, (marks c h b.trace).count .paid ≤ 1 ∧ (marks c h b.trace).count .filled ≤ 1) ∧
      (∀ h a, b.fillStatuses h = some a → a.status = .requestedSlowFill ∨ a.status = .filled) ∧
      ∀ x t b', Ok (executeV3SlowRelayLeaf R x) { b with clock := t } () b' →
        ∃ r, getV3RelayHash r c = getV3RelayHash x.slowFillLeaf.relayData c ∧
          .emitted (.requestedV3SlowFill r) ∈ b.trace := by
  obtain ⟨b, hrun⟩ := run_returns R inputs (initialized owner c remoteDomain crossDomainAdmin clock w)
  have hstart : Ahead (inputs.flatMap fun i => relaysOf i.action) c inputs
      (initialized owner c remoteDomain crossDomainAdmin clock w) :=
    ⟨rfl, hclock, fun i hi _ hr => List.mem_flatMap.mpr ⟨i, hi, hr⟩, fun _ => .inl rfl⟩
  have hend := run_invariant (I := Ahead (inputs.flatMap fun i => relaysOf i.action) c)
    (fun ha hi => ha.step hd hi) hstart hrun
  refine ⟨b, hrun, fun h => (hend.stands h).once, ?_, ?_⟩
  · intro h a ha
    have hs := hend.stands h
    simp only [Stands, ha] at hs
    rcases hs with ⟨hs, -⟩ | ⟨hs, -⟩
    · exact .inl hs
    · exact .inr hs
  · intro x t b' hx
    obtain ⟨hh, -, a, ha, hst, -⟩ := executeV3SlowRelayLeaf_ok hx
    change b.fillStatuses x.relayHash = some a at ha
    have hs := hend.stands x.relayHash
    simp only [Stands, ha] at hs
    rcases hs with ⟨-, hm⟩ | ⟨hs, -⟩
    · have hmem : Mark.requested ∈ marks c x.relayHash b.trace := by
        rw [hm]
        exact List.mem_singleton_self _
      obtain ⟨y, hy, hmark⟩ := List.mem_filterMap.mp hmem
      obtain ⟨r, rfl, hr⟩ := mark_requested hmark
      refine ⟨r, ?_, hy⟩
      rw [hr, hh, ← hend.chainId]
    · exact absurd hs hst

def sampleRelay : V3RelayData := ⟨21, 22, 0, 5, 5, 10, 9, 1, 0, 100, 0, ⟨[], nil_fits⟩⟩

def sampleHash : Hash := getV3RelayHash sampleRelay 7

def sampleFill : FillV3Relay := ⟨32, 5, 1032, 1022, 6, sampleHash, sampleRelay, 1, 32⟩

/-- A fill before the deadline, a closing after it, and the same fill again. -/
def sampleFills : List (Input (Pubkey → Nat)) :=
  [⟨20, .instruction (.fillV3Relay sampleFill)⟩,
    ⟨200, .instruction (.closeFillPda ⟨32, sampleHash, sampleRelay⟩)⟩,
    ⟨210, .instruction (.fillV3Relay sampleFill)⟩]

def sampleTrace : List Item :=
  [.created (.fills sampleHash) 32, .transferred (.fill sampleHash) 5 1032 1022 9,
    .emitted (.filledV3Relay sampleRelay 1 32 9 .fastFill), .closed (.fills sampleHash) 32]

theorem sampleFill_fills : ∃ w, Ok (fillV3Relay sampleRuntime sampleFill) { sampleBank with clock := 20 } ()
    (wroteFill { sampleBank with clock := 20 } sampleHash (some ⟨.filled, 32⟩) w (sampleTrace.take 3)) := by
  have hinit : Ok (initFillStatus sampleRuntime sampleHash 32) { sampleBank with clock := 20 } ⟨.unfilled, 0⟩
      (wroteFill { sampleBank with clock := 20 } sampleHash (some ⟨.unfilled, 0⟩) (fun _ => 100)
        [.created (.fills sampleHash) 32]) := rfl
  refine ⟨Function.update (Function.update (fun _ => 100) 1032 91) 1022 109, ?_⟩
  simp only [fillV3Relay, read_bind_ok, require_bind_ok, checkMint_bind_ok, loaded_bind_ok, checkAssociated_bind_ok]
  refine ⟨rfl, ⟨rfl, rfl⟩, ⟨5, 32, 6⟩, rfl, ⟨rfl, rfl, rfl⟩, ⟨rfl, ⟨5, 22, 6⟩, rfl, rfl, rfl⟩, ?_⟩
  refine (bind_ok _ _ _ _ _).mpr ⟨_, _, hinit, ?_⟩
  simp only [require_bind_ok, getCurrentTime_bind_ok]
  refine ⟨rfl, by decide, by decide, by decide, ?_⟩
  refine (bind_ok _ _ _ _ _).mpr ⟨(), _, (when_ok _ _ _ _ _).mpr (.inl ⟨by decide, rfl⟩), ?_⟩
  have hhash : sampleFill.relayHash = sampleHash := rfl
  simp only [setFillStatus, emit, update_bind_ok, update_ok, wroteFill, hhash, Function.update_idem]
  rfl

theorem sampleFill_closes (w : Pubkey → Nat) : Ok (closeFillPda sampleRuntime ⟨32, sampleHash, sampleRelay⟩)
    { wroteFill sampleBank sampleHash (some ⟨.filled, 32⟩) w (sampleTrace.take 3) with clock := 200 } ()
    { wroteFill sampleBank sampleHash none w sampleTrace with clock := 200 } := by
  simp only [closeFillPda, read_bind_ok, loaded_bind_ok, require_bind_ok, getCurrentTime_bind_ok, setFillStatus, close,
    update_bind_ok, update_ok, wroteFill, Function.update_idem]
  exact ⟨⟨.filled, 32⟩, Function.update_self _ _ _, rfl, rfl, by decide, rfl⟩

/-- The second fill comes after the deadline. -/
theorem sampleFills_evaluates : ∃ b, Ok (run sampleRuntime sampleFills) sampleBank () b ∧ b.trace = sampleTrace := by
  obtain ⟨w, hfill⟩ := sampleFill_fills
  have hlate : ∀ b : Bank (Pubkey → Nat), Reverts (process sampleRuntime (.fillV3Relay sampleFill))
    { b with clock := 210 } := by
    intro b
    refine (reverts_iff _ _).mpr fun _ b' hok => ?_
    obtain ⟨-, hdead, -⟩ := fillV3Relay_ok hok
    have hnow : ¬ seconds 210 ≤ sampleRelay.fillDeadline.toNat := by decide
    exact hnow hdead
  obtain ⟨b₃, h₃⟩ := input_returns sampleRuntime ⟨210, .instruction (.fillV3Relay sampleFill)⟩
    { wroteFill sampleBank sampleHash none w sampleTrace with clock := 200 }
  refine ⟨b₃, ?_, ?_⟩
  · refine (forEach_cons_ok _ _ _ _ _ _).mpr ⟨_, input_of_ok hfill, (forEach_cons_ok _ _ _ _ _ _).mpr ⟨_,
      input_of_ok (sampleFill_closes w), (forEach_cons_ok _ _ _ _ _ _).mpr ⟨b₃, h₃, (forEach_nil_ok _ _ _ _).mpr rfl⟩⟩⟩
  · rw [input_of_reverts (hlate _) h₃]
    rfl

theorem sampleFills_paid : ∃ b, Ok (run sampleRuntime sampleFills) sampleBank () b ∧ b.trace = sampleTrace ∧
    ∀ h, (marks 7 h b.trace).count .paid ≤ 1 ∧ (marks 7 h b.trace).count .filled ≤ 1 := by
  have hd : Distinct (sampleFills.flatMap fun i => relaysOf i.action) 7 := by
    have hone : ∀ r ∈ sampleFills.flatMap fun i => relaysOf i.action, r = sampleRelay := by decide
    intro r hr r' hr' _
    rw [hone r hr, hone r' hr']
  obtain ⟨b, hrun, honce, -⟩ :=
    relays_paid_at_most_once sampleRuntime sampleFills 3 7 0 4 0 (fun _ => 100) (by decide) hd
  obtain ⟨b', hrun', htrace⟩ := sampleFills_evaluates
  obtain rfl := (hrun.unique hrun').2
  exact ⟨b, hrun, htrace, honce⟩

end Theorems

end Across.SvmFills
