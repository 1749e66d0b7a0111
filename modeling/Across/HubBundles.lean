import Across.HubProposals

namespace Across.HubBundles

open Abi HubState HubPool HubRun HubRefine HubProposals ClaimedBits

/-- A proposal, with the successful calls that followed it until the next one. -/
structure Proposal where
  made : Call
  calls : List Call

namespace Proposal

variable (p : Proposal)

def leafCount : Nat :=
  match p.made.op with
  | .proposeRootBundle _ poolRebalanceLeafCount _ _ _ => poolRebalanceLeafCount.toNat
  | _ => 0

def proposer : Address := p.made.msg.sender

def bondTo (recipient : Address) : Address × Uint256 × Address :=
  (p.made.before.hub.bondToken, p.made.before.hub.bondAmount, recipient)

def challengePeriodEnd : Nat := p.made.after.hub.rootBundleProposal.challengePeriodEndTimestamp.toNat

end Proposal

def leafId (c : Call) : Option Uint8 :=
  match c.op with
  | .executeRootBundle leaf _ => some leaf.leafId
  | _ => none

def executed (cs : List Call) : List Uint8 := cs.filterMap leafId

def paid (c : Call) : List (Address × Uint256 × Address) := payouts c.before c.after

def note (ps : List Proposal) (c : Call) : List Proposal :=
  match c.op with
  | .proposeRootBundle _ _ _ _ _ => ⟨c, []⟩ :: ps
  | _ =>
      match ps with
      | [] => []
      | p :: ps => ⟨p.made, p.calls ++ [c]⟩ :: ps

def proposals (D : Deployment) (w : World) (is : List Input) : List Proposal := (calls D w is).foldl note []

def Taken (p : Proposal) : Prop :=
  ∃ n, n.toNat = p.leafCount ∧ .bondTaken p.made.before.hub.bondToken p.made.before.hub.bondAmount p.proposer n ∈
    entries p.made.before p.made.after

structure Running (p : Proposal) (w : World) : Prop where
  taken : Taken p
  count : w.hub.rootBundleProposal.unclaimedPoolRebalanceLeafCount.toNat = p.leafCount - (executed p.calls).length
  le : (executed p.calls).length ≤ p.leafCount
  bits : (setBits w.hub.rootBundleProposal.claimedBitMap).length = (executed p.calls).length
  distinct : (executed p.calls).Nodup
  bond : p.bondTo p.proposer = (w.hub.bondToken, w.hub.bondAmount, w.hub.rootBundleProposal.proposer)
  unpaid : ∀ c ∈ p.calls, paid c = []

/-- How a call ends a proposal after other calls, and who gets the bond. -/
inductive Ending (p : Proposal) (cs : List Call) (c : Call) : Address → Prop
  | executed (hc : leafId c ≠ none) (hn : (executed cs).length + 1 = p.leafCount) : Ending p cs c p.proposer
  | deleted (hc : c.op = .emergencyDeleteProposal) : Ending p cs c p.proposer
  | cancelled (time : Uint256) (hc : c.op = .disputeRootBundle)
      (he : .rootBundleCanceled c.msg.sender time ∈ entries c.before c.after) : Ending p cs c p.proposer
  | disputed (time : Uint256) (hc : c.op = .disputeRootBundle)
      (he : .rootBundleDisputed c.msg.sender time ∈ entries c.before c.after) :
      Ending p cs c c.answers.optimisticOracle

/-- A proposal that is over: one call ended it and paid the bond, no other paid it. -/
structure Ended (p : Proposal) : Prop where
  taken : Taken p
  le : (executed p.calls).length ≤ p.leafCount
  distinct : (executed p.calls).Nodup
  once : ∃ cs c ds recipient, p.calls = cs ++ c :: ds ∧ Ending p cs c recipient ∧ paid c = [p.bondTo recipient] ∧
    ∀ d ∈ cs ++ ds, paid d = []

/-- The latest proposal while it is active, and all others, are accounted for. -/
structure Accounted (ps : List Proposal) (w : World) : Prop where
  active : activeRequest w.hub = true → ∃ p qs, ps = p :: qs ∧ Running p w ∧ ∀ q ∈ qs, Ended q
  idle : activeRequest w.hub = false → ∀ q ∈ ps, Ended q

/-- A call after which nothing of the proposal is left to be done. -/
def Finishes (c : Call) : Prop :=
  c.op = .disputeRootBundle ∨ c.op = .emergencyDeleteProposal ∨
    leafId c ≠ none ∧ c.after.hub.rootBundleProposal.unclaimedPoolRebalanceLeafCount = 0

section Invariant

structure Open (p : Proposal) (w : World) : Prop where
  taken : Taken p
  count : w.hub.rootBundleProposal.unclaimedPoolRebalanceLeafCount.toNat + (executed p.calls).length = p.leafCount
  marks : Marks w.hub.rootBundleProposal.claimedBitMap (executed p.calls)
  distinct : (executed p.calls).Nodup
  bond : p.bondTo p.proposer = (w.hub.bondToken, w.hub.bondAmount, w.hub.rootBundleProposal.proposer)
  deadline : w.hub.rootBundleProposal.challengePeriodEndTimestamp.toNat = p.challengePeriodEnd
  unpaid : ∀ c ∈ p.calls, paid c = []
  late : ∀ c ∈ p.calls, leafId c ≠ none → p.challengePeriodEnd < c.before.time
  passed : executed p.calls ≠ [] → p.challengePeriodEnd < w.time
  unfinished : ∀ c ∈ p.calls, ¬ Finishes c

structure Over (p : Proposal) : Prop where
  taken : Taken p
  le : (executed p.calls).length ≤ p.leafCount
  distinct : (executed p.calls).Nodup
  late : ∀ c ∈ p.calls, leafId c ≠ none → p.challengePeriodEnd < c.before.time
  closed : ∃ cs c ds recipient, p.calls = cs ++ c :: ds ∧ Ending p cs c recipient ∧ paid c = [p.bondTo recipient] ∧
    (∀ d ∈ cs, paid d = [] ∧ ¬ Finishes d) ∧ (c.op = .disputeRootBundle → executed cs = []) ∧
    ∀ d ∈ ds, paid d = [] ∧ leafId d = none ∧ d.op ≠ .disputeRootBundle

/-- Either the latest proposal is active, or the challenge period of what is
stored has passed. -/
inductive Tracked (ps : List Proposal) (w : World) : Prop
  | active (p : Proposal) (qs : List Proposal) (hps : ps = p :: qs) (hact : activeRequest w.hub = true) (hp : Open p w)
      (hq : ∀ q ∈ qs, Over q)
  | idle (hidle : activeRequest w.hub = false)
      (hpast : w.hub.rootBundleProposal.challengePeriodEndTimestamp.toNat < w.time) (hq : ∀ q ∈ ps, Over q)

variable {D : Deployment} {p : Proposal} {ps : List Proposal} {w w' : World} {c : Call} {cs : List Call}

theorem executed_snoc (cs : List Call) (c : Call) : executed (cs ++ [c]) = executed cs ++ (leafId c).toList := by
  rw [executed, List.filterMap_append, executed]
  cases h : leafId c with
  | none => simp [h]
  | some i => simp [h]

theorem executed_snoc_none (h : leafId c = none) : executed (cs ++ [c]) = executed cs := by
  rw [executed_snoc, h]
  exact List.append_nil _

theorem Ending.of_made {q : Proposal} {r : Address} (h : Ending p cs c r) (hq : q.made = p.made) :
    Ending q cs c r := by
  have hcount : q.leafCount = p.leafCount := by rw [Proposal.leafCount, hq, Proposal.leafCount]
  have hproposer : q.proposer = p.proposer := by rw [Proposal.proposer, hq, Proposal.proposer]
  cases h with
  | executed hc hn =>
      rw [← hproposer]
      exact .executed hc (hn.trans hcount.symm)
  | deleted hc =>
      rw [← hproposer]
      exact .deleted hc
  | cancelled time hc he =>
      rw [← hproposer]
      exact .cancelled time hc he
  | disputed time hc he => exact .disputed time hc he

theorem Over.ended (h : Over p) : Ended p := by
  obtain ⟨cs, c, ds, r, hcalls, hend, hpaid, hcs, -, hds⟩ := h.closed
  refine ⟨h.taken, h.le, h.distinct, cs, c, ds, r, hcalls, hend, hpaid, fun d hd => ?_⟩
  rcases List.mem_append.mp hd with hd | hd
  · exact (hcs d hd).1
  · exact (hds d hd).1

theorem Over.snoc (h : Over p) (hp : paid c = []) (hl : leafId c = none) (hd : c.op ≠ .disputeRootBundle) :
    Over ⟨p.made, p.calls ++ [c]⟩ := by
  obtain ⟨cs, b, ds, r, hcalls, hend, hpaid, hcs, hx, hds⟩ := h.closed
  refine ⟨h.taken, ?_, ?_, ?_, cs, b, ds ++ [c], r, ?_, ?_, hpaid, hcs, hx, ?_⟩
  · rw [executed_snoc_none hl]
    exact h.le
  · rw [executed_snoc_none hl]
    exact h.distinct
  · intro d hmem hne
    rcases List.mem_append.mp hmem with hmem | hmem
    · exact h.late d hmem hne
    · obtain rfl := List.mem_singleton.mp hmem
      exact absurd hl hne
  · rw [hcalls, List.append_assoc]
    rfl
  · exact hend.of_made rfl
  · intro d hmem
    rcases List.mem_append.mp hmem with hmem | hmem
    · exact hds d hmem
    · obtain rfl := List.mem_singleton.mp hmem
      exact ⟨hp, hl, hd⟩

theorem Open.distinct_snoc (h : Open p w) (hl : ∀ i, leafId c = some i → i ∉ executed p.calls) :
    (executed (p.calls ++ [c])).Nodup := by
  rw [executed_snoc]
  cases hi : leafId c with
  | none =>
      rw [Option.toList_none, List.append_nil]
      exact h.distinct
  | some i =>
      rw [Option.toList_some]
      apply List.Nodup.append h.distinct (List.nodup_singleton i)
      intro j hj hji
      rw [List.mem_singleton.mp hji] at hj
      exact hl i hi hj

theorem Open.late_snoc (h : Open p w) (hb : c.before = w)
    (hl : ∀ i, leafId c = some i → p.challengePeriodEnd < w.time) :
    ∀ d ∈ p.calls ++ [c], leafId d ≠ none → p.challengePeriodEnd < d.before.time := by
  intro d hmem hne
  rcases List.mem_append.mp hmem with hmem | hmem
  · exact h.late d hmem hne
  · obtain rfl := List.mem_singleton.mp hmem
    obtain ⟨i, hi⟩ := Option.ne_none_iff_exists'.mp hne
    rw [hb]
    exact hl i hi

theorem Open.over (h : Open p w) {r : Address} (hb : c.before = w) (hend : Ending p p.calls c r)
    (hpaid : paid c = [p.bondTo r]) (hx : c.op = .disputeRootBundle → executed p.calls = [])
    (hl : ∀ i, leafId c = some i → i ∉ executed p.calls ∧ p.challengePeriodEnd < w.time) :
    Over ⟨p.made, p.calls ++ [c]⟩ := by
  refine ⟨h.taken, ?_, ?_, ?_, p.calls, c, [], r, rfl, ?_, hpaid, ?_, hx, by simp⟩
  · have hc := h.count
    rw [executed_snoc, List.length_append]
    cases hend with
    | executed _ hn =>
        have hle : (leafId c).toList.length ≤ 1 := by
          cases leafId c with
          | none => exact Nat.zero_le _
          | some i => exact Nat.le_refl _
        change _ ≤ p.leafCount
        omega
    | deleted hc' | cancelled _ hc' | disputed _ hc' =>
        have hnone : leafId c = none := by rw [leafId, hc']
        rw [hnone]
        change _ ≤ p.leafCount
        simp only [Option.toList_none, List.length_nil]
        omega
  · exact h.distinct_snoc fun i hi => (hl i hi).1
  · exact h.late_snoc hb fun i hi => (hl i hi).2
  · exact hend.of_made rfl
  · exact fun d hd => ⟨h.unpaid d hd, h.unfinished d hd⟩

theorem note_of_ne (h : ∀ ns n r₁ r₂ r₃, c.op ≠ .proposeRootBundle ns n r₁ r₂ r₃) :
    note ps c = match ps with
      | [] => []
      | p :: ps => ⟨p.made, p.calls ++ [c]⟩ :: ps := by
  unfold note
  split
  · rename_i hop
    exact absurd hop (h _ _ _ _ _)
  · rfl

theorem over_note (hq : ∀ q ∈ ps, Over q) (hop : ∀ ns n r₁ r₂ r₃, c.op ≠ .proposeRootBundle ns n r₁ r₂ r₃)
    (hp : paid c = []) (hl : leafId c = none) (hd : c.op ≠ .disputeRootBundle) : ∀ q ∈ note ps c, Over q := by
  rw [note_of_ne hop]
  cases ps with
  | nil => exact fun q hq => absurd hq List.not_mem_nil
  | cons p ps =>
      intro q hmem
      rcases List.mem_cons.mp hmem with rfl | hmem
      · exact (hq p List.mem_cons_self).snoc hp hl hd
      · exact hq q (List.mem_cons_of_mem _ hmem)

theorem Open.snoc (h : Open p w) (hb : c.before = w) (hpaid : paid c = []) (hfin : ¬ Finishes c)
    (ht : w.time ≤ w'.time)
    (hbond : w'.hub.bondToken = w.hub.bondToken ∧ w'.hub.bondAmount = w.hub.bondAmount)
    (hproposer : w'.hub.rootBundleProposal.proposer = w.hub.rootBundleProposal.proposer)
    (hend : w'.hub.rootBundleProposal.challengePeriodEndTimestamp =
      w.hub.rootBundleProposal.challengePeriodEndTimestamp)
    (hcount : w'.hub.rootBundleProposal.unclaimedPoolRebalanceLeafCount.toNat + (leafId c).toList.length =
      w.hub.rootBundleProposal.unclaimedPoolRebalanceLeafCount.toNat)
    (hmarks : Marks w'.hub.rootBundleProposal.claimedBitMap (executed p.calls ++ (leafId c).toList))
    (hl : ∀ i, leafId c = some i → i ∉ executed p.calls ∧ p.challengePeriodEnd < w.time) :
    Open ⟨p.made, p.calls ++ [c]⟩ w' := by
  refine ⟨h.taken, ?_, ?_, ?_, ?_, ?_, ?_, ?_, ?_, ?_⟩
  · have hc := h.count
    rw [executed_snoc, List.length_append]
    change _ = p.leafCount
    omega
  · rw [executed_snoc]
    exact hmarks
  · exact h.distinct_snoc fun i hi => (hl i hi).1
  · rw [hbond.1, hbond.2, hproposer]
    exact h.bond
  · rw [hend]
    exact h.deadline
  · intro d hmem
    rcases List.mem_append.mp hmem with hmem | hmem
    · exact h.unpaid d hmem
    · obtain rfl := List.mem_singleton.mp hmem
      exact hpaid
  · exact h.late_snoc hb fun i hi => (hl i hi).2
  · intro hne
    refine Nat.lt_of_lt_of_le ?_ ht
    cases hi : leafId c with
    | none =>
        rw [executed_snoc_none hi] at hne
        exact h.passed hne
    | some i => exact (hl i hi).2
  · intro d hmem
    rcases List.mem_append.mp hmem with hmem | hmem
    · exact h.unfinished d hmem
    · obtain rfl := List.mem_singleton.mp hmem
      exact hfin

theorem apart_unpaid (h : Apart w w') : payouts w w' = [] := by
  obtain ⟨es, he, hes⟩ := h.log
  rw [payouts_eq he, hes]

theorem leafId_of_not_onBundle (h : onBundle c.op = false) : leafId c = none := by
  unfold leafId
  split
  · rename_i hop
    rw [hop] at h
    cases h
  · rfl

theorem apart_tracked {msg : Msg} {A : Answers} {op : Op} (h : Tracked ps w) (hop : onBundle op = false)
    (ha : Apart w w') : Tracked (note ps ⟨w, msg, A, op, w'⟩) w' := by
  have hnote : ∀ ns n r₁ r₂ r₃, op ≠ .proposeRootBundle ns n r₁ r₂ r₃ := by
    rintro ns n r₁ r₂ r₃ rfl
    cases hop
  have hleaf : leafId ⟨w, msg, A, op, w'⟩ = none := leafId_of_not_onBundle hop
  have hdispute : op ≠ .disputeRootBundle := by
    rintro rfl
    cases hop
  have hdelete : op ≠ .emergencyDeleteProposal := by
    rintro rfl
    cases hop
  cases h with
  | active p qs hps hact hp hq =>
      subst hps
      refine .active _ qs (note_of_ne hnote) (ha.activeRequest_eq.trans hact) ?_ hq
      refine hp.snoc rfl (apart_unpaid ha) ?_ (Nat.le_of_eq ha.time.symm) (ha.bond hact) ?_ ?_ ?_ ?_ ?_
      · rintro (hc | hc | hc)
        · exact hdispute hc
        · exact hdelete hc
        · exact hc.1 hleaf
      · rw [ha.proposal]
      · rw [ha.proposal]
      · rw [ha.proposal, hleaf]
        rfl
      · rw [ha.proposal, hleaf, Option.toList_none, List.append_nil]
        exact hp.marks
      · intro i hi
        rw [hleaf] at hi
        cases hi
  | idle hidle hpast hq =>
      refine .idle (ha.activeRequest_eq.trans hidle) ?_ (over_note hq hnote (apart_unpaid ha) hleaf hdispute)
      rw [ha.proposal, ha.time]
      exact hpast

theorem count_zero {h : Hub} (ha : activeRequest h = false) :
    h.rootBundleProposal.unclaimedPoolRebalanceLeafCount = 0 := by
  rw [activeRequest, decide_eq_false_iff_not, not_not] at ha
  exact ha

/-- After the challenge period, when no proposal is active, and after the
execution of a leaf there is nothing to dispute. -/
theorem Tracked.disputable (h : Tracked ps w) (ht : w.time < 2 ^ 32)
    (hd : w.time % 2 ^ 32 ≤ w.hub.rootBundleProposal.challengePeriodEndTimestamp.toNat) :
    ∃ p qs, ps = p :: qs ∧ activeRequest w.hub = true ∧ Open p w ∧ (∀ q ∈ qs, Over q) ∧ executed p.calls = [] := by
  rw [Nat.mod_eq_of_lt ht] at hd
  cases h with
  | active p qs hps hact hp hq =>
      refine ⟨p, qs, hps, hact, hp, hq, ?_⟩
      by_contra hne
      have hpassed := hp.passed hne
      rw [hp.deadline] at hd
      omega
  | idle hidle hpast hq => omega

theorem deleted_tracked (h : Tracked ps w) (h0 : 0 < w.time) {msg : Msg} {A : Answers}
    (hp : w'.hub.rootBundleProposal = .zero) (hs : SameTerms w w')
    (hpay : payouts w w' = if activeRequest w.hub = true then
      [HubProposals.bondTo w w.hub.rootBundleProposal.proposer] else []) :
    Tracked (note ps ⟨w, msg, A, .emergencyDeleteProposal, w'⟩) w' := by
  have hidle : activeRequest w'.hub = false := by
    rw [activeRequest, hp]
    rfl
  have hpast : w'.hub.rootBundleProposal.challengePeriodEndTimestamp.toNat < w'.time := by
    rw [hp, hs.time]
    exact h0
  refine .idle hidle hpast ?_
  cases h with
  | active p qs hps hact ho hq =>
      subst hps
      intro q hmem
      rcases List.mem_cons.mp hmem with rfl | hmem
      · refine ho.over rfl (.deleted rfl) ?_ ?_ ?_
        · rw [paid, ho.bond, hpay, if_pos hact]
          rfl
        · rintro ⟨⟩
        · rintro _ ⟨⟩
      · exact hq q hmem
  | idle hidle' _ hq =>
      refine over_note hq ?_ ?_ rfl ?_
      · rintro _ _ _ _ _ ⟨⟩
      · rw [paid, hpay, hidle']
        rfl
      · rintro ⟨⟩

theorem dispute_tracked (h : Tracked ps w) (h0 : 0 < w.time) (h1 : w.time < 2 ^ 32) {msg : Msg} {A : Answers}
    (ht : w.time % 2 ^ 32 ≤ w.hub.rootBundleProposal.challengePeriodEndTimestamp.toNat)
    (hp : w'.hub.rootBundleProposal = .zero) (hs : SameTerms w w') {r : Address}
    (hend : ∀ p : Proposal, p.proposer = w.hub.rootBundleProposal.proposer →
      Ending p p.calls ⟨w, msg, A, .disputeRootBundle, w'⟩ r)
    (hpay : payouts w w' = [HubProposals.bondTo w r]) :
    Tracked (note ps ⟨w, msg, A, .disputeRootBundle, w'⟩) w' := by
  obtain ⟨p, qs, rfl, hact, ho, hq, hnone⟩ := h.disputable h1 ht
  have hidle : activeRequest w'.hub = false := by
    rw [activeRequest, hp]
    rfl
  have hpast : w'.hub.rootBundleProposal.challengePeriodEndTimestamp.toNat < w'.time := by
    rw [hp, hs.time]
    exact h0
  refine .idle hidle hpast ?_
  intro q hmem
  rcases List.mem_cons.mp hmem with rfl | hmem
  · have hb := ho.bond
    simp only [Proposal.bondTo, Prod.mk.injEq] at hb
    refine ho.over rfl (hend p hb.2.2) ?_ (fun _ => hnone) ?_
    · rw [paid, hpay, Proposal.bondTo, hb.1, hb.2.1]
      rfl
    · rintro _ ⟨⟩
  · exact hq q hmem

theorem executed_tracked (h : Tracked ps w) {msg : Msg} {A : Answers} {leaf : PoolRebalanceLeaf}
    {proof : List Bytes32} {n : Uint8}
    (ht : w.hub.rootBundleProposal.challengePeriodEndTimestamp.toNat < w.time)
    (hc : isClaimed1D w.hub.rootBundleProposal.claimedBitMap leaf.leafId = false)
    (hn : n.toNat + 1 = w.hub.rootBundleProposal.unclaimedPoolRebalanceLeafCount.toNat)
    (hp : w'.hub.rootBundleProposal = { w.hub.rootBundleProposal with
      claimedBitMap := setClaimed1D w.hub.rootBundleProposal.claimedBitMap leaf.leafId
      unclaimedPoolRebalanceLeafCount := n })
    (hs : SameTerms w w')
    (hpay : payouts w w' = if n = 0 then [HubProposals.bondTo w w.hub.rootBundleProposal.proposer] else []) :
    Tracked (note ps ⟨w, msg, A, .executeRootBundle leaf proof, w'⟩) w' := by
  cases h with
  | idle hidle _ hq =>
      rw [count_zero hidle] at hn
      simp at hn
  | active p qs hps hact ho hq =>
      subst hps
      have hl : ∀ i, some leaf.leafId = some i → i ∉ executed p.calls ∧ p.challengePeriodEnd < w.time := by
        rintro i ⟨⟩
        exact ⟨ho.marks.not_mem hc, ho.deadline ▸ ht⟩
      have hcount := ho.count
      by_cases h0 : n = 0
      · rw [if_pos h0] at hpay
        refine .idle ?_ ?_ ?_
        · rw [activeRequest, hp, h0]
          rfl
        · rw [hp, hs.time]
          exact ht
        · intro q hmem
          rcases List.mem_cons.mp hmem with rfl | hmem
          · refine ho.over rfl (.executed ?_ ?_) ?_ ?_ hl
            · rintro ⟨⟩
            · rw [h0] at hn
              change 0 + 1 = _ at hn
              omega
            · rw [paid, hpay, ho.bond]
              rfl
            · rintro ⟨⟩
          · exact hq q hmem
      · rw [if_neg h0] at hpay
        refine .active _ qs (note_of_ne ?_) ?_ ?_ hq
        · rintro _ _ _ _ _ ⟨⟩
        · rw [activeRequest, hp]
          exact decide_eq_true h0
        · refine ho.snoc rfl hpay ?_ (Nat.le_of_eq hs.time.symm) ⟨hs.bondToken, hs.bondAmount⟩ ?_ ?_ ?_ ?_ hl
          · rintro (hc | hc | hc)
            · cases hc
            · cases hc
            · apply h0
              rw [← hc.2]
              exact (congrArg RootBundle.unclaimedPoolRebalanceLeafCount hp).symm
          · rw [hp]
          · rw [hp]
          · rw [hp]
            exact hn
          · rw [hp]
            exact ho.marks.snoc leaf.leafId

theorem proposed_tracked (h : Tracked ps w) {msg : Msg} {A : Answers} {ns : List Uint256} {n : Uint8}
    {r₁ r₂ r₃ : Bytes32} {e : Uint32} (hidle : activeRequest w.hub = false) (hn : 0 < n.toNat)
    (hp : w'.hub.rootBundleProposal = ⟨r₁, r₂, r₃, 0, msg.sender, n, e⟩) (hs : SameTerms w w')
    (he : .bondTaken w.hub.bondToken w.hub.bondAmount msg.sender n ∈ entries w w') :
    Tracked (note ps ⟨w, msg, A, .proposeRootBundle ns n r₁ r₂ r₃, w'⟩) w' := by
  cases h with
  | active _ _ _ hact =>
      rw [hidle] at hact
      cases hact
  | idle _ _ hq =>
      refine .active ⟨⟨w, msg, A, .proposeRootBundle ns n r₁ r₂ r₃, w'⟩, []⟩ ps rfl ?_ ?_ hq
      · rw [activeRequest, hp, decide_eq_true_eq]
        rintro rfl
        exact Nat.lt_irrefl 0 hn
      · refine ⟨⟨n, rfl, he⟩, ?_, ?_, List.nodup_nil, ?_, rfl, ?_, ?_, ?_, ?_⟩
        · rw [hp]
          rfl
        · rw [hp]
          exact marks_zero
        · rw [hs.bondToken, hs.bondAmount, hp]
          rfl
        · exact fun c hc => absurd hc List.not_mem_nil
        · exact fun c hc => absurd hc List.not_mem_nil
        · exact fun hne => absurd rfl hne
        · exact fun c hc => absurd hc List.not_mem_nil

theorem call_tracked (h : Tracked ps c.before) (h0 : 0 < c.before.time) (h1 : c.before.time < 2 ^ 32)
    (hc : Change c.before c.msg c.answers c.op c.after) : Tracked (note ps c) c.after := by
  obtain ⟨w, msg, A, op, w'⟩ := c
  cases hc with
  | apart hop ha => exact apart_tracked h hop ha
  | proposed ns n r₁ r₂ r₃ e hidle hn hp hs he _ => exact proposed_tracked h hidle hn hp hs he
  | executed leaf proof n ht hc hn hp hs hpay => exact executed_tracked h ht hc hn hp hs hpay
  | cancelled time ht hp hs he hpay =>
      refine dispute_tracked h h0 h1 ht hp hs (fun p hproposer => ?_) hpay
      rw [← hproposer]
      exact .cancelled time rfl he
  | disputed time ht hp hs he hpay => exact dispute_tracked h h0 h1 ht hp hs (fun p _ => .disputed time rfl he) hpay
  | deleted hp hs hpay => exact deleted_tracked h h0 hp hs hpay

theorem rest_tracked {i : Input} (h : Tracked ps w) (hi : callOf D w i = none) : Tracked ps (step D w i) := by
  obtain ⟨hp, hb, hm, ht⟩ := callOf_none hi
  have hact : activeRequest (step D w i).hub = activeRequest w.hub := by rw [activeRequest, hp, activeRequest]
  cases h with
  | active p qs hps hact' ho hq =>
      refine .active p qs hps (hact.trans hact') ?_ hq
      refine ⟨ho.taken, ?_, ?_, ho.distinct, ?_, ?_, ho.unpaid, ho.late, fun hne => (ho.passed hne).trans_le ht,
        ho.unfinished⟩
      · rw [hp]
        exact ho.count
      · rw [hp]
        exact ho.marks
      · rw [hp, hb, hm]
        exact ho.bond
      · rw [hp]
        exact ho.deadline
  | idle hidle hpast hq =>
      refine .idle (hact.trans hidle) ?_ hq
      rw [hp]
      exact hpast.trans_le ht

theorem run_tracked (is : List Input) (h : Tracked ps w) (h0 : 0 < w.time) (h1 : (run D w is).time < 2 ^ 32) :
    Tracked ((calls D w is).foldl note ps) (run D w is) ∧
      ∀ c ∈ calls D w is, c.before.time < 2 ^ 32 ∧ Change c.before c.msg c.answers c.op c.after ∧
        ∃ qs, Tracked qs c.before := by
  induction is generalizing w ps with
  | nil => exact ⟨h, fun c hc => absurd hc List.not_mem_nil⟩
  | cons i is ih =>
      have hstep : 0 < (step D w i).time := h0.trans_le (step_time w i)
      have hnow : w.time < 2 ^ 32 := (run_time w (i :: is)).trans_lt h1
      simp only [calls]
      cases hi : callOf D w i with
      | none => exact ih (rest_tracked h hi) hstep h1
      | some c =>
          obtain ⟨hbefore, hafter, hc⟩ := callOf_some hi
          rw [← hbefore] at hc h h0 hnow
          have hnext := call_tracked h h0 hnow hc
          rw [hafter] at hnext
          obtain ⟨hrun, hall⟩ := ih hnext hstep h1
          refine ⟨hrun, fun d hd => ?_⟩
          rcases List.mem_append.mp hd with hd | hd
          · obtain rfl := List.mem_singleton.mp hd
            exact ⟨hnow, hc, ps, h⟩
          · exact hall d hd

theorem genesis_tracked (hg : Genesis D w) (h0 : 0 < w.time) : Tracked [] w := by
  obtain ⟨owner, hh⟩ := hg.hub
  refine .idle ?_ ?_ fun q hq => absurd hq List.not_mem_nil
  · rw [hh]
    rfl
  · rw [hh]
    exact h0

end Invariant

section Theorems

variable {D : Deployment} {w : World}

/-- In every run the leaves and the bond of every proposal are accounted for. -/
theorem proposals_accounted (hg : Genesis D w) (h0 : 0 < w.time) (is : List Input)
    (h1 : (run D w is).time < 2 ^ 32) : Accounted (proposals D w is) (run D w is) := by
  have h := (run_tracked is (genesis_tracked hg h0) h0 h1).1
  change Tracked (proposals D w is) (run D w is) at h
  cases h with
  | active p qs hps hact ho hq =>
      refine ⟨fun _ => ⟨p, qs, hps, ⟨ho.taken, ?_, ?_, ho.marks.length ho.distinct, ho.distinct, ho.bond, ho.unpaid⟩,
        fun q hmem => (hq q hmem).ended⟩, fun hidle => ?_⟩
      · have hc := ho.count
        omega
      · have hc := ho.count
        omega
      · rw [hact] at hidle
        cases hidle
  | idle hidle _ hq =>
      refine ⟨fun hact => ?_, fun _ q hmem => (hq q hmem).ended⟩
      rw [hidle] at hact
      cases hact

theorem sampleProposal_accounted :
    Accounted (proposals sampleDeployment sampleWorld (sampleDeposit ++ HubSteps.sampleProposal 50))
      (run sampleDeployment sampleWorld (sampleDeposit ++ HubSteps.sampleProposal 50)) :=
  proposals_accounted sampleWorld_genesis (by decide) _ (by decide)

theorem Over.executed_or_disputed {p : Proposal} (h : Over p) :
    executed p.calls = [] ∨ ∀ c ∈ p.calls, c.op ≠ .disputeRootBundle := by
  obtain ⟨cs, c, ds, r, hcalls, hend, -, hcs, hx, hds⟩ := h.closed
  by_cases hc : c.op = .disputeRootBundle
  · left
    have hds' : ds.filterMap leafId = [] := List.filterMap_eq_nil_iff.mpr fun d hd => (hds d hd).2.1
    have hleaf : leafId c = none := by rw [leafId, hc]
    have hcs' : cs.filterMap leafId = [] := hx hc
    rw [executed, hcalls, List.filterMap_append, List.filterMap_cons_none hleaf, hds', hcs']
    rfl
  · right
    intro d hd hop
    rw [hcalls] at hd
    rcases List.mem_append.mp hd with hd | hd
    · exact (hcs d hd).2 (.inl hop)
    rcases List.mem_cons.mp hd with rfl | hd
    · exact hc hop
    · exact (hds d hd).2.2 hop

theorem Over.finished {p : Proposal} (h : Over p) :
    p.calls.Pairwise fun c d => Finishes c → leafId d = none ∧ d.op ≠ .disputeRootBundle := by
  obtain ⟨cs, c, ds, r, hcalls, -, -, hcs, -, hds⟩ := h.closed
  rw [hcalls]
  apply List.pairwise_append.mpr
  refine ⟨?_, ?_, fun a ha _ _ hf => absurd hf (hcs a ha).2⟩
  · exact List.pairwise_of_forall_mem_list fun a ha _ _ hf => absurd hf (hcs a ha).2
  · apply List.pairwise_cons.mpr
    refine ⟨fun d hd _ => (hds d hd).2, ?_⟩
    exact List.pairwise_of_forall_mem_list fun _ _ d hd _ => (hds d hd).2

theorem Tracked.forall_mem {P : Proposal → Prop} {ps : List Proposal} (h : Tracked ps w)
    (ho : ∀ p, Open p w → P p) (hq : ∀ p, Over p → P p) : ∀ p ∈ ps, P p := by
  intro p hp
  cases h with
  | active q qs hps _ hopen hover =>
      subst hps
      rcases List.mem_cons.mp hp with rfl | hp
      · exact ho p hopen
      · exact hq p (hover p hp)
  | idle _ _ hover => exact hq p (hover p hp)

/-- A proposal is executed or disputed but not both. Either happens only while it
is active, execution only after its challenge period and nothing after its end. -/
theorem executed_xor_disputed (hg : Genesis D w) (h0 : 0 < w.time) (is : List Input)
    (h1 : (run D w is).time < 2 ^ 32) :
    (∀ p ∈ proposals D w is, executed p.calls = [] ∨ ∀ c ∈ p.calls, c.op ≠ .disputeRootBundle) ∧
    (∀ c ∈ calls D w is, c.op = .disputeRootBundle ∨ leafId c ≠ none → activeRequest c.before.hub = true) ∧
    (∀ p ∈ proposals D w is, ∀ c ∈ p.calls, leafId c ≠ none → p.challengePeriodEnd < c.before.time) ∧
    ∀ p ∈ proposals D w is,
      p.calls.Pairwise fun c d => Finishes c → leafId d = none ∧ d.op ≠ .disputeRootBundle := by
  obtain ⟨h, hcalls⟩ := run_tracked is (genesis_tracked hg h0) h0 h1
  change Tracked (proposals D w is) (run D w is) at h
  refine ⟨?_, ?_, ?_, ?_⟩
  · refine h.forall_mem (fun p ho => .inr fun c hc hop => ?_) fun p hp => hp.executed_or_disputed
    exact ho.unfinished c hc (.inl hop)
  · intro c hc hop
    obtain ⟨htime, hchange, qs, hq⟩ := hcalls c hc
    obtain ⟨v, msg, A, op, v'⟩ := c
    cases hchange with
    | cancelled time ht | disputed time ht =>
        obtain ⟨_, _, _, hact, _⟩ := hq.disputable htime ht
        exact hact
    | executed leaf proof n _ _ hn =>
        rw [activeRequest, decide_eq_true_eq]
        intro hz
        rw [hz] at hn
        simp at hn
    | apart hnot _ =>
        rcases hop with hop | hop
        · change op = _ at hop
          rw [hop] at hnot
          cases hnot
        · exact absurd (leafId_of_not_onBundle hnot) hop
    | proposed | deleted =>
        rcases hop with hop | hop
        · cases hop
        · exact absurd rfl hop
  · exact h.forall_mem (fun p ho => ho.late) fun p hp => hp.late
  · refine h.forall_mem (fun p ho => ?_) fun p hp => hp.finished
    exact List.pairwise_of_forall_mem_list fun c hc _ _ hf => absurd hf (ho.unfinished c hc)

theorem sampleProposal_phased :
    ∃ p ∈ proposals sampleDeployment sampleWorld (sampleDeposit ++ HubSteps.sampleProposal 50),
      executed p.calls = [] ∨ ∀ c ∈ p.calls, c.op ≠ .disputeRootBundle := by
  obtain ⟨hphased, -⟩ := executed_xor_disputed sampleWorld_genesis (by decide)
    (sampleDeposit ++ HubSteps.sampleProposal 50) (by decide)
  have hpos : 0 < (proposals sampleDeployment sampleWorld (sampleDeposit ++ HubSteps.sampleProposal 50)).length := by
    decide
  obtain ⟨p, hp⟩ := List.exists_mem_of_length_pos hpos
  exact ⟨p, hp, hphased p hp⟩

end Theorems

end Across.HubBundles
