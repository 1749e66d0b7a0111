import Across.HubBundles
import Across.MessageTranslation

namespace Across.HubMessages

open WordBytes Abi CallExec HubState HubPool HubRun HubSteps HubProposals HubBundles MessageTranslation

/-- What an adapter is told to bring to the spoke pool of a chain. -/
structure Message where
  chainId : Uint256
  spokePool : Address
  data : Bytes

def relayRootBundleData (relayerRefundRoot slowRelayRoot : Bytes32) : Bytes :=
  encodeSoliditySelector "relayRootBundle(bytes32,bytes32)" ++ words [relayerRefundRoot.toNat, slowRelayRoot.toNat]

/-- The arguments of `relayMessage`, for the adapter that the pool has for the chain. -/
def relayed (h : Hub) (chainId : Uint256) (data : Bytes) : Message :=
  ⟨chainId, (h.crossChainContracts chainId).spokePool, data⟩

/-- The messages of a successful call of the pool. -/
def messages (c : Call) : List Message :=
  let h := c.before.hub
  match c.op with
  | .executeRootBundle leaf _ =>
      if leaf.groupIndex = 0 then
        [relayed h leaf.chainId
          (relayRootBundleData h.rootBundleProposal.relayerRefundRoot h.rootBundleProposal.slowRelayRoot)]
      else []
  | .relaySpokePoolAdminFunction chainId data => [relayed h chainId data]
  | .setDepositRoute originChainId destinationChainId originToken enabled =>
      [relayed h originChainId (setEnableRouteData originToken destinationChainId enabled)]
  | _ => []

section Proposals

variable {D : Deployment} {w : World} {ps : List Proposal} {p : Proposal} {c d : Call} {b : RootBundle} {i : Input}

/-- The proposal is for the roots of `b`. -/
def Proposes (p : Proposal) (b : RootBundle) : Prop :=
  ∃ ns n, p.made.op = .proposeRootBundle ns n b.poolRebalanceRoot b.relayerRefundRoot b.slowRelayRoot

/-- What is stored is the latest proposal as long as that is active, and leaves were
executed for the roots that their proposal is for. -/
structure Rooted (ps : List Proposal) (w : World) : Prop where
  active : activeRequest w.hub = true → ∃ p qs, ps = p :: qs ∧ Proposes p w.hub.rootBundleProposal
  executed : ∀ p ∈ ps, ∀ c ∈ p.calls, leafId c ≠ none → Proposes p c.before.hub.rootBundleProposal

theorem activeRequest_zero {h : Hub} (hp : h.rootBundleProposal = .zero) : activeRequest h = false := by
  rw [activeRequest, hp]
  rfl

theorem Rooted.note (h : Rooted ps c.before) (hop : ∀ ns n r₁ r₂ r₃, c.op ≠ .proposeRootBundle ns n r₁ r₂ r₃)
    (hc : leafId c ≠ none → activeRequest c.before.hub = true)
    (hact : activeRequest c.after.hub = true → activeRequest c.before.hub = true ∧
      ∀ p, Proposes p c.before.hub.rootBundleProposal → Proposes p c.after.hub.rootBundleProposal) :
    Rooted (note ps c) c.after := by
  rw [note_of_ne hop]
  cases ps with
  | nil =>
      refine ⟨fun ha => ?_, fun _ hp => absurd hp List.not_mem_nil⟩
      obtain ⟨_, _, hnil, -⟩ := h.active (hact ha).1
      cases hnil
  | cons p ps =>
      refine ⟨fun ha => ?_, fun q hq d hd hl => ?_⟩
      · obtain ⟨hb, hroots⟩ := hact ha
        obtain ⟨q, qs, hcons, hq⟩ := h.active hb
        obtain ⟨rfl, rfl⟩ := List.cons.inj hcons
        exact ⟨_, ps, rfl, hroots p hq⟩
      · rcases List.mem_cons.mp hq with rfl | hq
        · rcases List.mem_append.mp hd with hd | hd
          · exact h.executed p List.mem_cons_self d hd hl
          · obtain rfl := List.mem_singleton.mp hd
            obtain ⟨q, qs, hcons, hq⟩ := h.active (hc hl)
            obtain ⟨rfl, rfl⟩ := List.cons.inj hcons
            exact hq
        · exact h.executed q (List.mem_cons_of_mem _ hq) d hd hl

theorem call_rooted (h : Rooted ps c.before) (hc : Change c.before c.msg c.answers c.op c.after) :
    Rooted (note ps c) c.after := by
  obtain ⟨w, msg, A, op, w'⟩ := c
  cases hc with
  | apart hop ha =>
      refine h.note ?_ ?_ fun hact => ?_
      · rintro _ _ _ _ _ rfl
        cases hop
      · exact fun hl => absurd (leafId_of_not_onBundle hop) hl
      · change activeRequest w'.hub = true at hact
        rw [ha.activeRequest_eq] at hact
        refine ⟨hact, fun p hp => ?_⟩
        change Proposes p w'.hub.rootBundleProposal
        rw [ha.proposal]
        exact hp
  | proposed ns n r₁ r₂ r₃ e hidle hn hp hs he hpay =>
      refine ⟨fun _ => ⟨_, ps, rfl, ns, n, ?_⟩, fun p hmem d hd hl => ?_⟩
      · change _ = Op.proposeRootBundle ns n w'.hub.rootBundleProposal.poolRebalanceRoot _ _
        rw [hp]
      · rcases List.mem_cons.mp hmem with rfl | hmem
        · exact absurd hd List.not_mem_nil
        · exact h.executed p hmem d hd hl
  | executed leaf proof count ht hcl hn hp hs hpay =>
      have hact : activeRequest w.hub = true := by
        rw [activeRequest, decide_eq_true_eq]
        intro hz
        rw [hz] at hn
        simp at hn
      refine h.note (fun _ _ _ _ _ => Op.noConfusion) (fun _ => hact) fun _ => ⟨hact, fun p hroots => ?_⟩
      change Proposes p w'.hub.rootBundleProposal
      rw [hp]
      exact hroots
  | cancelled time ht hp hs he hpay | disputed time ht hp hs he hpay =>
      refine h.note (fun _ _ _ _ _ => Op.noConfusion) (fun hl => absurd rfl hl) fun hact => ?_
      exact absurd ((activeRequest_zero hp).symm.trans hact) Bool.false_ne_true
  | deleted hp hs hpay =>
      refine h.note (fun _ _ _ _ _ => Op.noConfusion) (fun hl => absurd rfl hl) fun hact => ?_
      exact absurd ((activeRequest_zero hp).symm.trans hact) Bool.false_ne_true

theorem rest_rooted (h : Rooted ps w) (hi : callOf D w i = none) : Rooted ps (step D w i) := by
  obtain ⟨hp, -, -, -⟩ := callOf_none hi
  have hact : activeRequest (step D w i).hub = activeRequest w.hub := by rw [activeRequest, hp, activeRequest]
  refine ⟨fun ha => ?_, h.executed⟩
  rw [hact] at ha
  rw [hp]
  exact h.active ha

/-- A call stays with its proposal. -/
theorem mem_note (hd : ∃ p ∈ ps, d ∈ p.calls) : ∃ p ∈ note ps c, d ∈ p.calls := by
  obtain ⟨p, hp, hd⟩ := hd
  unfold note
  split
  · exact ⟨p, List.mem_cons_of_mem _ hp, hd⟩
  · cases ps with
    | nil => exact absurd hp List.not_mem_nil
    | cons q ps =>
        rcases List.mem_cons.mp hp with rfl | hp
        · exact ⟨_, List.mem_cons_self, List.mem_append_left _ hd⟩
        · exact ⟨p, List.mem_cons_of_mem _ hp, hd⟩

theorem mem_foldl_note (cs : List Call) (hd : ∃ p ∈ ps, d ∈ p.calls) : ∃ p ∈ cs.foldl note ps, d ∈ p.calls := by
  induction cs generalizing ps with
  | nil => exact hd
  | cons c cs ih => exact ih (mem_note hd)

theorem mem_note_self (h : Rooted ps c.before) (hc : Change c.before c.msg c.answers c.op c.after)
    (hl : leafId c ≠ none) : ∃ p ∈ note ps c, c ∈ p.calls := by
  obtain ⟨w, msg, A, op, w'⟩ := c
  cases hc with
  | executed leaf proof count ht hcl hn hp hs hpay =>
      have hact : activeRequest w.hub = true := by
        rw [activeRequest, decide_eq_true_eq]
        intro hz
        rw [hz] at hn
        simp at hn
      obtain ⟨p, qs, rfl, -⟩ := h.active hact
      exact ⟨_, List.mem_cons_self, List.mem_append_right _ (List.mem_singleton.mpr rfl)⟩
  | apart hop ha => exact absurd (leafId_of_not_onBundle hop) hl
  | proposed | cancelled | disputed | deleted => exact absurd rfl hl

theorem run_rooted (is : List Input) (h : Rooted ps w) : Rooted ((calls D w is).foldl note ps) (run D w is) ∧
    ∀ c ∈ calls D w is, leafId c ≠ none → ∃ p ∈ (calls D w is).foldl note ps, c ∈ p.calls := by
  induction is generalizing w ps with
  | nil => exact ⟨h, fun c hc => absurd hc List.not_mem_nil⟩
  | cons i is ih =>
      simp only [calls]
      cases hi : callOf D w i with
      | none => exact ih (rest_rooted h hi)
      | some c =>
          obtain ⟨hbefore, hafter, hc⟩ := callOf_some hi
          rw [← hbefore] at hc h
          have hnext := call_rooted h hc
          rw [hafter] at hnext
          obtain ⟨hrun, hall⟩ := ih hnext
          refine ⟨hrun, fun d hd hl => ?_⟩
          rcases List.mem_append.mp hd with hd | hd
          · obtain rfl := List.mem_singleton.mp hd
            exact mem_foldl_note (calls D (step D w i) is) (mem_note_self h hc hl)
          · exact hall d hd hl

theorem genesis_rooted (hg : Genesis D w) : Rooted [] w := by
  obtain ⟨owner, hh⟩ := hg.hub
  refine ⟨fun hact => ?_, fun _ hp => absurd hp List.not_mem_nil⟩
  rw [hh] at hact
  exact absurd hact Bool.false_ne_true

end Proposals

section Sources

variable {D : Deployment} {w : World} {i : Input} {c : Call} {is : List Input} {m : Message}

theorem callOf_ok (h : callOf D w i = some c) :
    c.before = w ∧ (c.op.ownerOnly = true → c.before.hub.owner = c.msg.sender) ∧
      Ok (body D c.answers c.msg c.op) c.before () c.after := by
  cases i with
  | call msg A op =>
      simp only [callOf] at h
      split at h
      · cases h
      · split at h
        · rename_i w' hd
          obtain rfl := Option.some.inj h
          obtain ⟨-, ho, hb⟩ := dispatch_ok.mp hd
          exact ⟨rfl, ho, hb⟩
        · cases h
  | _ => cases h

theorem calls_ok (hc : c ∈ calls D w is) : (c.op.ownerOnly = true → c.before.hub.owner = c.msg.sender) ∧
    Ok (body D c.answers c.msg c.op) c.before () c.after := by
  induction is generalizing w with
  | nil => exact absurd hc List.not_mem_nil
  | cons i is ih =>
      rcases List.mem_append.mp hc with hc | hc
      · exact (callOf_ok (Option.mem_toList.mp hc)).2
      · exact ih hc

theorem calls_snoc (is : List Input) (i : Input) :
    calls D w (is ++ [i]) = calls D w is ++ (callOf D (run D w is) i).toList := by
  induction is generalizing w with
  | nil => exact List.append_nil _
  | cons j is ih => rw [List.cons_append, calls, calls, ih, run_cons, List.append_assoc]

/-- The message brings the roots of proposal `p` to a chain, when the call `c` executes
the chain's leaf. The proposal has a bond, its challenge period is over at the call,
and neither before nor after it is the proposal disputed. -/
structure FromProposal (D : Deployment) (p : Proposal) (c : Call) (m : Message) : Prop where
  executed : ∃ leaf proof, c.op = .executeRootBundle leaf proof ∧ leaf.groupIndex = 0 ∧ m.chainId = leaf.chainId ∧
    verifyPoolRebalance c.before.hub.rootBundleProposal.poolRebalanceRoot leaf proof = true
  mem : c ∈ p.calls
  proposed : Proposes p c.before.hub.rootBundleProposal
  spokePool : m.spokePool = (c.before.hub.crossChainContracts m.chainId).spokePool
  data : m.data = relayRootBundleData c.before.hub.rootBundleProposal.relayerRefundRoot
    c.before.hub.rootBundleProposal.slowRelayRoot
  bonded : Taken p
  late : p.challengePeriodEnd < c.before.time
  undisputed : ∀ d ∈ p.calls, d.op ≠ .disputeRootBundle

/-- The message is one that the owner sends. -/
structure FromOwner (c : Call) (m : Message) : Prop where
  sent : (∃ chainId data, c.op = .relaySpokePoolAdminFunction chainId data) ∨
    ∃ o d token enabled, c.op = .setDepositRoute o d token enabled
  mem : m ∈ messages c
  owner : c.before.hub.owner = c.msg.sender

def Sourced (D : Deployment) (w : World) (is : List Input) (m : Message) : Prop :=
  (∃ p ∈ proposals D w is, ∃ c, FromProposal D p c m) ∨ ∃ c ∈ calls D w is, FromOwner c m

theorem settled {ps : List Proposal} (h : Tracked ps w) : ∀ p ∈ ps, Taken p ∧ ∀ c ∈ p.calls, leafId c ≠ none →
    p.challengePeriodEnd < c.before.time ∧ ∀ d ∈ p.calls, d.op ≠ .disputeRootBundle := by
  refine h.forall_mem (fun p ho => ⟨ho.taken, fun c hc hl => ⟨ho.late c hc hl, ?_⟩⟩)
    fun p ho => ⟨ho.taken, fun c hc hl => ⟨ho.late c hc hl, ?_⟩⟩
  · exact fun d hd hop => ho.unfinished d hd (.inl hop)
  · refine ho.executed_or_disputed.resolve_left fun hnil => ?_
    exact hl (List.filterMap_eq_nil_iff.mp hnil c hc)

theorem executed_fromProposal (hg : Genesis D w) (h0 : 0 < w.time) (h1 : (run D w is).time < 2 ^ 32)
    (hc : c ∈ calls D w is) {leaf : PoolRebalanceLeaf} {proof : List Bytes32}
    (hop : c.op = .executeRootBundle leaf proof) (hz : leaf.groupIndex = 0) (hm : m ∈ messages c) :
    ∃ p ∈ proposals D w is, FromProposal D p c m := by
  obtain ⟨hrooted, hall⟩ := run_rooted is (genesis_rooted hg)
  have hl : leafId c ≠ none := by
    rw [leafId, hop]
    exact Option.some_ne_none _
  obtain ⟨p, hp, hcall⟩ := hall c hc hl
  obtain ⟨htaken, hterms⟩ := settled (run_tracked is (genesis_tracked hg h0) h0 h1).1 p hp
  obtain ⟨hlate, hundisputed⟩ := hterms c hcall hl
  have hbody := (calls_ok hc).2
  rw [hop] at hbody
  obtain ⟨hexec, -⟩ := executeRootBundle_iff.mp hbody
  simp only [messages, hop, if_pos hz, List.mem_singleton] at hm
  subst hm
  exact ⟨p, hp, ⟨leaf, proof, hop, hz, rfl, hexec.proof⟩, hcall, hrooted.executed p hp c hcall hl, rfl, rfl, htaken,
    hlate, hundisputed⟩

/-- Every message of the pool brings the roots of a proposal that has been open to
dispute and was not disputed, or is the owner's. -/
theorem messages_sourced (hg : Genesis D w) (h0 : 0 < w.time) (h1 : (run D w is).time < 2 ^ 32)
    (hm : m ∈ (calls D w is).flatMap messages) : Sourced D w is m := by
  obtain ⟨c, hc, hm⟩ := List.mem_flatMap.mp hm
  have hown := (calls_ok hc).1
  cases hop : c.op with
  | executeRootBundle leaf proof =>
      left
      by_cases hz : leaf.groupIndex = 0
      · obtain ⟨p, hp, hfrom⟩ := executed_fromProposal hg h0 h1 hc hop hz hm
        exact ⟨p, hp, c, hfrom⟩
      · simp only [messages, hop, if_neg hz, List.not_mem_nil] at hm
  | relaySpokePoolAdminFunction chainId data =>
      exact .inr ⟨c, hc, .inl ⟨chainId, data, hop⟩, hm, hown (by rw [hop]; rfl)⟩
  | setDepositRoute o d token enabled =>
      exact .inr ⟨c, hc, .inr ⟨o, d, token, enabled, hop⟩, hm, hown (by rw [hop]; rfl)⟩
  | _ => simp [messages, hop] at hm

end Sources

end Across.HubMessages
