import Across.CrossChain
import Across.Forwarder

namespace Across.Rerouting

open WordBytes Abi Keccak CallExec SpokeTypes SpokeState SpokeRules AdminMessages AdminScope AdminCalldata HubMessages
  Mailbox CrossChain
open Forwarder hiding Call World Msg Code Error Event emit delegatecall exec_ok relayMessage relayTokens

section Uses

/-- An adapter and what the hub pool calls it with. -/
structure Use where
  adapter : Address
  call : AdapterCall

/-- The tokens that a leaf sends, in the order of the loop. -/
def tokenCalls (h : HubState.Hub) (leaf : HubState.PoolRebalanceLeaf) : List AdapterCall :=
  (leaf.l1Tokens.zip leaf.netSendAmounts).filterMap fun e =>
    if 0 < e.2.toInt then
      some (.relayTokens e.1 (h.poolRebalanceRoutes (HubPool.poolRebalanceRouteKey e.1 leaf.chainId)) e.2
        (h.crossChainContracts leaf.chainId).spokePool)
    else none

/-- The adapters that a successful call of the hub pool uses. -/
def uses (c : HubProposals.Call) : List Use :=
  let h := c.before.hub
  let tokens : List Use := match c.op with
    | .executeRootBundle leaf _ => (tokenCalls h leaf).map fun t => ⟨(h.crossChainContracts leaf.chainId).adapter, t⟩
    | _ => []
  tokens ++ (messages c).map fun m => ⟨(h.crossChainContracts m.chainId).adapter, .relayMessage m.spokePool m.data⟩

def poolRebalanceRoute (h : HubState.Hub) (destinationChainId : Uint256) (l1Token : Address) : Address :=
  h.poolRebalanceRoutes (HubPool.poolRebalanceRouteKey l1Token destinationChainId)

end Uses

section System

variable {ι W : Type}

/-- The hub pool, a forwarder on L2 and the pools on L3 that it is for. `routers` are
the routers among the adapters of the hub pool, `bridges` the adapters that lead to
L2, and `leads` says to which pools an adapter on L2 leads. -/
structure Layers (ι W : Type) where
  hub : HubState.Deployment
  routers : Address → Option Router
  bridges : Address → Bool
  kind : Kind
  forwarder : Address
  forwarder_ne_zero : forwarder ≠ 0
  leads : Address → ι → Prop
  pools : ι → Spoke W

/-- What a use of an adapter gives the bridges of L1: a router uses another adapter. -/
inductive Sends (routers : Address → Option Router) (h : HubState.Hub) (u : Use) : List Use → Prop
  | direct (hr : routers u.adapter = none) : Sends routers h u [u]
  | routed {R : Router} {X : Type} {adapter : AdapterCall → X → Option X} {w : X} {s : Passage X}
      (hr : routers u.adapter = some R) (hok : Ok (R.exec adapter (poolRebalanceRoute h) u.call) ⟨w, []⟩ () s) :
      Sends routers h u (s.calls.map (Use.mk R.l1Adapter))

/-- The call as the forwarder sees it when it comes from the hub pool. -/
def hubMsg (L : Layers ι W) : Forwarder.Msg :=
  match L.kind with
  | .arbitrum => ⟨applyL1ToL2Alias L.hub.self, 0⟩
  | .ovm => ⟨l2CrossDomainMessenger, L.hub.self⟩

def credit (s : Forwarder.World) (token : Address) (amount : Nat) : Forwarder.World :=
  { s with balances := Function.update s.balances token (s.balances token + amount) }

/-- The pools of L3 take the forwarder for the hub pool. -/
def l3 (L : Layers ι W) (w₀ : HubState.World) : Protocol (List HubRun.Input) ι (World W) Message :=
  network { L.hub with self := L.forwarder, self_ne_zero := L.forwarder_ne_zero } w₀ L.pools

/-- The forwarder takes tokens, and calls from the hub pool. Others can give it tokens
and call it too. -/
def relay (L : Layers ι W) (w₀ : HubState.World) : Relay Use Forwarder.World ι (World W) Forwarded where
  handle u s s' ns := L.bridges u.adapter = true ∧ u.call.target = L.forwarder ∧ match u.call with
    | .relayMessage _ data => s'.forwarded = s.forwarded ++ ns ∧
        ∃ A, Ok (dispatch L.kind A (hubMsg L) data) s () s'
    | .relayTokens _ t n _ => s' = credit s t n.toNat ∧ ns = []
  own s s' := (∃ t n, s' = credit s t n) ∨
    ∃ A msg data, ¬ FromAdmin L.kind msg s ∧ Ok (dispatch L.kind A msg data) s () s'
  receive k n s s' := L.leads n.adapter k ∧ n.call.target = (L.pools k).variant.self ∧ match n.call with
    | .relayMessage t data => (l3 L w₀).receive k ⟨(L.pools k).variant.chainId, t, data⟩ s s'
    | .relayTokens _ _ _ _ => ∃ w, s' = { s with rest := w }
  act := (l3 L w₀).act

/-- The whole system. A call of the hub pool counts when its routers succeed in it. -/
def system [DecidableEq ι] (L : Layers ι W) (w₀ : HubState.World) :
    Protocol (List HubRun.Input) Unit (State Forwarder.World ι (World W) Forwarded) Use :=
  (relay L w₀).fed fun is is' us => ∃ i, is' = is ++ [i] ∧
    match HubProposals.callOf L.hub (HubRun.run L.hub w₀ is) i with
    | none => us = []
    | some c => ∃ uss, List.Forall₂ (Sends L.routers c.before.hub) (uses c) uss ∧ us = uss.flatten

end System

section Uplink

variable {ι W : Type} {L : Layers ι W} {h : HubState.Hub} {u : Use} {us : List Use}

/-- What a call that is brought to L2 tells the forwarder to do for L3. -/
def told (L : Layers ι W) (u : Use) : List (Uint256 × AdapterCall) :=
  if L.bridges u.adapter = true ∧ u.call.target = L.forwarder then u.call.onward else []

/-- What the hub pool wants the forwarder to do for L3 when it uses an adapter: with a
router the call itself, and otherwise what it has written into a message for the
forwarder. -/
def wanted (L : Layers ι W) (h : HubState.Hub) (u : Use) : List (Uint256 × AdapterCall) :=
  match L.routers u.adapter with
  | none => told L u
  | some R =>
      if L.bridges R.l1Adapter = true ∧ R.l2Target = L.forwarder then
        [(R.l3ChainId, u.call.rerouted (poolRebalanceRoute h R.l2ChainId))]
      else []

theorem flatMap_told {R : Router} {cs : List AdapterCall} (hc : ∀ c ∈ cs, c.target = R.l2Target) :
    (cs.map (Use.mk R.l1Adapter)).flatMap (told L) =
      if L.bridges R.l1Adapter = true ∧ R.l2Target = L.forwarder then cs.flatMap AdapterCall.onward else [] := by
  rw [List.flatMap_map]
  split
  · rename_i hboth
    refine List.flatMap_congr fun c hcs => ?_
    rw [told, hc c hcs, if_pos hboth]
  · rename_i hnot
    refine List.flatMap_eq_nil_iff.mpr fun c hcs => ?_
    rw [told, hc c hcs, if_neg hnot]

/-- A router takes nothing away from what the hub pool wants and adds nothing to it. -/
theorem Sends.told_eq (hs : Sends L.routers h u us) : us.flatMap (told L) = wanted L h u := by
  cases hs with
  | direct hr => rw [wanted, hr, List.flatMap_singleton]
  | routed hr hok =>
      obtain ⟨cs, hcs, hrerouted⟩ := Forwarder.exec_ok hok
      rw [List.nil_append] at hcs
      rw [wanted, hr, hcs, flatMap_told hrerouted.target, hrerouted.onward]

theorem sends_told {vs : List Use} {uss : List (List Use)} (hs : List.Forall₂ (Sends L.routers h) vs uss) :
    uss.flatten.flatMap (told L) = vs.flatMap (wanted L h) := by
  induction hs with
  | nil => rfl
  | cons hu _ ih => rw [List.flatten_cons, List.flatMap_append, List.flatMap_cons, hu.told_eq, ih]

variable [DecidableEq ι] {w₀ : HubState.World} {f₀ : Forwarder.World} {start₀ : ι → World W}
  {x : State (List HubRun.Input) Unit (State Forwarder.World ι (World W) Forwarded) Use}

theorem posted_told (hx : Reaches (system L w₀) (start [] fun _ => start f₀ start₀) x) :
    x.posted.flatMap (told L) =
      (HubProposals.calls L.hub w₀ x.sender).flatMap fun c => (uses c).flatMap (wanted L c.before.hub) := by
  refine hx.posts (I := fun is us => us.flatMap (told L) =
    (HubProposals.calls L.hub w₀ is).flatMap fun c => (uses c).flatMap (wanted L c.before.hub)) rfl ?_
  rintro is is' us vs hus ⟨i, rfl, hi⟩
  rw [calls_snoc, List.flatMap_append, List.flatMap_append, hus]
  congr 1
  split at hi
  · rename_i hnone
    rw [hi, hnone]
    rfl
  · rename_i c hc
    obtain ⟨uss, hsends, rfl⟩ := hi
    rw [hc, sends_told hsends, Option.toList_some, List.flatMap_singleton]

end Uplink

section Obedience

variable {ι W : Type} {L : Layers ι W} {w₀ : HubState.World} {f₀ s s' : Forwarder.World} {u : Use} {us : List Use}
  {ns ns' : List Forwarded} {start₀ : ι → World W}

/-- The forwarder's call that comes with a use of an adapter. -/
def callOf (u : Use) : Option Forwarder.Call :=
  match u.call with
  | .relayMessage _ data => decodeCall data
  | .relayTokens _ _ _ _ => none

def adminTold (admin : Address) (u : Use) : Address := (callOf u).elim admin (adminAfter admin)

def adaptersTold (adapters : Uint256 → Address) (u : Use) : Uint256 → Address :=
  (callOf u).elim adapters (adaptersAfter adapters)

/-- What a forwarder that started as `f₀` is and has sent on after it has taken `us`. -/
structure Obeying (L : Layers ι W) (f₀ s : Forwarder.World) (us : List Use) (ns : List Forwarded) : Prop where
  admin : s.crossDomainAdmin = us.foldl adminTold f₀.crossDomainAdmin
  adapters : s.chainAdapters = us.foldl adaptersTold f₀.chainAdapters
  forwarded : s.forwarded = f₀.forwarded ++ ns
  onward : (ns.map fun n => (n.chainId, n.call)).Sublist (us.flatMap (told L))
  through : ∀ n ∈ ns, n.adapter ≠ 0 ∧ ∃ before u after, us = before ++ u :: after ∧
    (n.chainId, n.call) ∈ told L u ∧ n.adapter = before.foldl adaptersTold f₀.chainAdapters n.chainId
  tokens : ∀ t, f₀.balances t + (us.map fun u => u.call.brings t).sum ≤ s.balances t + taken ns t

theorem Obeying.start (f₀ : Forwarder.World) : Obeying L f₀ f₀ [] [] :=
  ⟨rfl, rfl, (List.append_nil _).symm, .slnil, fun _ hn => absurd hn List.not_mem_nil, fun _ => Nat.le_refl _⟩

theorem through_snoc (h : ∀ n ∈ ns, n.adapter ≠ 0 ∧ ∃ before v after, us = before ++ v :: after ∧
      (n.chainId, n.call) ∈ told L v ∧ n.adapter = before.foldl adaptersTold f₀.chainAdapters n.chainId) (u : Use) :
    ∀ n ∈ ns, n.adapter ≠ 0 ∧ ∃ before v after, us ++ [u] = before ++ v :: after ∧
      (n.chainId, n.call) ∈ told L v ∧ n.adapter = before.foldl adaptersTold f₀.chainAdapters n.chainId := by
  intro n hn
  obtain ⟨hz, before, v, after, rfl, htold, hadapter⟩ := h n hn
  exact ⟨hz, before, v, after ++ [u], List.append_assoc _ _ _, htold, hadapter⟩

theorem credit_balances (s : Forwarder.World) (token t : Address) (n : Nat) :
    (credit s token n).balances t = s.balances t + if token = t then n else 0 := by
  rw [credit]
  by_cases ht : t = token
  · subst ht
    simp
  · simp [ht, Ne.symm ht]

theorem Obeying.credit (h : Obeying L f₀ s us ns) (token : Address) (n : Nat) :
    Obeying L f₀ (credit s token n) us ns := by
  refine ⟨h.admin, h.adapters, h.forwarded, h.onward, h.through, fun t => ?_⟩
  rw [credit_balances]
  have ht := h.tokens t
  omega

/-- A message that is handled tells the forwarder at least what it sends on. -/
theorem handled_told {c : Forwarder.Call} (htarget : L.bridges u.adapter = true ∧ u.call.target = L.forwarder)
    (hc : callOf u = some c) (hh : Handled c s s' ns) : (ns.map fun n => (n.chainId, n.call)).Sublist (told L u) := by
  have honward : u.call.onward = c.onward := by
    unfold callOf at hc
    split at hc
    · rename_i t data hcall
      rw [hcall, AdapterCall.onward, hc, Option.toList_some, List.flatMap_singleton]
    · cases hc
  rw [told, if_pos htarget, honward]
  exact hh.onward

theorem Obeying.handled {c : Forwarder.Call} (h : Obeying L f₀ s us ns)
    (htarget : L.bridges u.adapter = true ∧ u.call.target = L.forwarder) (hc : callOf u = some c)
    (hh : Handled c s s' ns') : Obeying L f₀ s' (us ++ [u]) (ns ++ ns') := by
  have htold := handled_told htarget hc hh
  refine ⟨?_, ?_, ?_, ?_, fun n hn => ?_, fun t => ?_⟩
  · rw [List.foldl_append, ← h.admin, hh.admin, List.foldl_cons, List.foldl_nil, adminTold, hc]
    rfl
  · rw [List.foldl_append, ← h.adapters, hh.adapters, List.foldl_cons, List.foldl_nil, adaptersTold, hc]
    rfl
  · rw [hh.forwarded, h.forwarded, List.append_assoc]
  · rw [List.map_append, List.flatMap_append, List.flatMap_cons, List.flatMap_nil, List.append_nil]
    exact h.onward.append htold
  · rcases List.mem_append.mp hn with hn | hn
    · exact through_snoc h.through u n hn
    · obtain ⟨hadapter, hz⟩ := hh.through n hn
      rw [h.adapters] at hadapter
      exact ⟨hz, us, u, [], rfl, htold.subset (List.mem_map_of_mem hn), hadapter⟩
  · have hzero : u.call.brings t = 0 := by
      unfold callOf at hc
      split at hc
      · rename_i hcall
        rw [hcall, AdapterCall.brings]
      · cases hc
    have ht := h.tokens t
    have hb := hh.balances t
    simp only [List.map_append, List.map_cons, List.map_nil, List.sum_append, List.sum_cons, List.sum_nil, hzero, taken]
      at ht hb ⊢
    omega

theorem handle_obeys (h : Obeying L f₀ s us ns) (hh : (relay L w₀).handle u s s' ns') :
    Obeying L f₀ s' (us ++ [u]) (ns ++ ns') := by
  obtain ⟨hbridge, htarget, hcall⟩ := hh
  cases hu : u.call with
  | relayMessage target data =>
      rw [hu] at hcall
      obtain ⟨hns, A, hok⟩ := hcall
      obtain ⟨-, c, ns₂, hc, hhandled⟩ := dispatch_handled hok
      obtain rfl := List.append_cancel_left (hns.symm.trans hhandled.forwarded)
      have hcallOf : callOf u = some c := by simp only [callOf, hu, hc]
      exact h.handled ⟨hbridge, htarget⟩ hcallOf hhandled
  | relayTokens l1 t n r =>
      rw [hu] at hcall
      obtain ⟨rfl, rfl⟩ := hcall
      have hnone : callOf u = none := by rw [callOf, hu]
      have htold : told L u = [] := by
        rw [told, hu]
        exact ite_self []
      refine ⟨?_, ?_, ?_, ?_, ?_, fun k => ?_⟩
      · rw [List.foldl_append, ← h.admin, List.foldl_cons, List.foldl_nil, adminTold, hnone]
        rfl
      · rw [List.foldl_append, ← h.adapters, List.foldl_cons, List.foldl_nil, adaptersTold, hnone]
        rfl
      · rw [List.append_nil]
        exact h.forwarded
      · rw [List.append_nil, List.flatMap_append, List.flatMap_cons, htold]
        exact (List.append_nil (us.flatMap (told L))).symm ▸ h.onward
      · rw [List.append_nil]
        exact through_snoc h.through u
      · have hk := h.tokens k
        have hbrings : u.call.brings k = if t = k then n.toNat else 0 := by rw [hu, AdapterCall.brings]
        simp only [List.map_append, List.map_cons, List.map_nil, List.sum_append, List.sum_cons, List.sum_nil, hbrings,
          List.append_nil, credit_balances]
        omega

theorem own_obeys (h : Obeying L f₀ s us ns) (ho : (relay L w₀).own s s') : Obeying L f₀ s' us ns := by
  rcases ho with ⟨t, n, rfl⟩ | ⟨A, msg, data, hnot, hok⟩
  · exact h.credit t n
  · exact absurd (dispatch_handled hok).1 hnot

variable [DecidableEq ι] {x : State (List HubRun.Input) Unit (State Forwarder.World ι (World W) Forwarded) Use}

/-- The admin and the adapters of the forwarder are what the calls of the hub pool make
of them, in the order in which they arrive. It sends on at most what it is told to,
in this order, each call once and through the adapter that its chain has at that
time, and of the tokens that arrive it keeps what it does not send on. -/
theorem forwarder_obeys_hub (hx : Reaches (system L w₀) (start [] fun _ => start f₀ start₀) x) :
    Obeying L f₀ (x.receivers ()).sender (mail x ()) (x.receivers ()).posted ∧
      (x.received.map Prod.snd).Subperm x.posted :=
  ⟨Relay.handles hx (.start f₀) handle_obeys own_obeys, hx.received_subperm⟩

end Obedience

section Pools

variable {ι W : Type} {L : Layers ι W} {w₀ : HubState.World} {f₀ : Forwarder.World} {start₀ : ι → World W} {k : ι}
  {s₀ s s' : World W} {ms : List Message} {n : Forwarded} {p : Spoke W}

/-- The message for a pool that comes with a call of its adapter. -/
def asMessage (p : Spoke W) (n : Forwarded) : Option Message :=
  match n.call with
  | .relayMessage t data => some ⟨p.variant.chainId, t, data⟩
  | .relayTokens _ _ _ _ => none

theorem led_rest (h : Led p s₀ s ms) (w : W) : Led p s₀ { s with rest := w } ms :=
  ⟨h.idle, h.settings, h.roots, h.posted, h.addressed⟩

theorem receive_led {ns : List Forwarded} (h : Led (L.pools k) s₀ s (ns.filterMap (asMessage (L.pools k))))
    (hr : (relay L w₀).receive k n s s') : Led (L.pools k) s₀ s' ((ns ++ [n]).filterMap (asMessage (L.pools k))) := by
  obtain ⟨-, -, hcall⟩ := hr
  rw [List.filterMap_append]
  cases hn : n.call with
  | relayMessage t data =>
      have hone : [n].filterMap (asMessage (L.pools k)) = [⟨(L.pools k).variant.chainId, t, data⟩] := by
        simp only [List.filterMap_cons, List.filterMap_nil, asMessage, hn]
      rw [hn] at hcall
      rw [hone]
      exact Led.receives (D := { L.hub with self := L.forwarder, self_ne_zero := L.forwarder_ne_zero }) h hcall
  | relayTokens l1 l2 m r =>
      have hnone : [n].filterMap (asMessage (L.pools k)) = [] := by
        simp only [List.filterMap_cons, List.filterMap_nil, asMessage, hn]
      rw [hn] at hcall
      obtain ⟨w, rfl⟩ := hcall
      rw [hnone, List.append_nil]
      exact led_rest h w

variable [DecidableEq ι] {x : State (List HubRun.Input) Unit (State Forwarder.World ι (World W) Forwarded) Use}

/-- The messages that a pool has taken, in its order. -/
def messagesAt (L : Layers ι W) (x : State (List HubRun.Input) Unit (State Forwarder.World ι (World W) Forwarded) Use)
    (k : ι) : List Message := (mail (x.receivers ()) k).filterMap (asMessage (L.pools k))

theorem reaches_l3_led (h₀ : ∀ k, Fresh (L.pools k).chain (start₀ k))
    (hx : Reaches (system L w₀) (start [] fun _ => start f₀ start₀) x) (k : ι) :
    Led (L.pools k) (start₀ k) ((x.receivers ()).receivers k) (messagesAt L x k) := by
  refine (Relay.reaches_onward hx).receives
    (I := fun s ns => Led (L.pools k) (start₀ k) s (ns.filterMap (asMessage (L.pools k)))) (h₀ k).led receive_led ?_
  intro s s' ns hled hact
  change (network { L.hub with self := L.forwarder, self_ne_zero := L.forwarder_ne_zero } w₀ L.pools).act k s s' at hact
  exact hled.acts hact

/-- What has arrived on L3 is, each call as often at most, what the hub pool wanted:
the calls that it gave to routers and that its messages asked the forwarder for. -/
theorem arrived_wanted (hx : Reaches (system L w₀) (start [] fun _ => start f₀ start₀) x) :
    ((x.receivers ()).received.map fun p => (p.2.chainId, p.2.call)).Subperm
      ((HubProposals.calls L.hub w₀ x.sender).flatMap fun c => (uses c).flatMap (wanted L c.before.hub)) := by
  rw [← posted_told hx]
  refine Relay.arrives_subperm (g := fun n => (n.chainId, n.call)) hx fun {u s s' ns} hh => ?_
  have hone := (handle_obeys (.start s) hh).onward
  rw [List.nil_append, List.nil_append, List.flatMap_singleton] at hone
  exact hone

end Pools

section Leaves

variable {ι W : Type} {L : Layers ι W} {w₀ : HubState.World} {c : HubProposals.Call} {u : Use} {t : Address}
  {data : Bytes} {chainId : Uint256} {root : Bytes32} {m : Message}

theorem tokenCalls_tokens {h : HubState.Hub} {leaf : HubState.PoolRebalanceLeaf} :
    .relayMessage t data ∉ tokenCalls h leaf := by
  intro hmem
  obtain ⟨e, -, he⟩ := List.mem_filterMap.mp hmem
  split at he
  · cases Option.some.inj he
  · cases he

theorem message_of_mem_uses (hu : u ∈ uses c) (hcall : u.call = .relayMessage t data) :
    ∃ m ∈ messages c, m.spokePool = t ∧ m.data = data := by
  rcases List.mem_append.mp hu with hu | hu
  · split at hu
    · obtain ⟨call, hmem, rfl⟩ := List.mem_map.mp hu
      change call = .relayMessage t data at hcall
      exact absurd (hcall ▸ hmem) tokenCalls_tokens
    · exact absurd hu List.not_mem_nil
  · obtain ⟨m, hm, rfl⟩ := List.mem_map.mp hu
    obtain ⟨rfl, rfl⟩ := AdapterCall.relayMessage.inj hcall
    exact ⟨m, hm, rfl, rfl⟩

/-- A message that is wanted on L3 was given to a router as it is, or is in a call of the forwarder. -/
theorem message_of_wanted (hu : u ∈ uses c) (hw : (chainId, .relayMessage t data) ∈ wanted L c.before.hub u) :
    ∃ m ∈ messages c, (m.spokePool = t ∧ m.data = data) ∨
      ∃ b : Blob, decodeCall m.data = some (.relayMessage t chainId b) ∧ b.val = data := by
  unfold wanted at hw
  split at hw
  · unfold told at hw
    split at hw
    · cases hcall : u.call with
      | relayMessage t' data' =>
          obtain ⟨m, hm, -, hdata⟩ := message_of_mem_uses hu hcall
          rw [hcall, AdapterCall.onward] at hw
          obtain ⟨f, hf, hw⟩ := List.mem_flatMap.mp hw
          rw [Option.mem_toList] at hf
          refine ⟨m, hm, .inr ?_⟩
          rw [hdata, hf]
          cases f with
          | relayMessage t₂ c₂ b =>
              obtain ⟨rfl, hcall₂⟩ := Prod.mk.inj (List.mem_singleton.mp hw)
              obtain ⟨rfl, rfl⟩ := AdapterCall.relayMessage.inj hcall₂
              exact ⟨b, rfl, rfl⟩
          | relayTokens b d n c₂ t₂ => cases (Prod.mk.inj (List.mem_singleton.mp hw)).2
          | setCrossDomainAdmin _ | updateAdapter _ _ => exact absurd hw List.not_mem_nil
      | relayTokens _ _ _ _ =>
          rw [hcall] at hw
          exact absurd hw List.not_mem_nil
    · exact absurd hw List.not_mem_nil
  · split at hw
    · obtain ⟨-, hcall⟩ := Prod.mk.inj (List.mem_singleton.mp hw)
      cases hu' : u.call with
      | relayMessage t' data' =>
          rw [hu', AdapterCall.rerouted] at hcall
          obtain ⟨rfl, rfl⟩ := AdapterCall.relayMessage.inj hcall
          obtain ⟨m, hm, ht, hdata⟩ := message_of_mem_uses hu hu'
          exact ⟨m, hm, .inl ⟨ht, hdata⟩⟩
      | relayTokens _ _ _ _ =>
          rw [hu', AdapterCall.rerouted] at hcall
          cases hcall
    · exact absurd hw List.not_mem_nil

/-- The roots of a proposal are no call of a forwarder. -/
theorem decodeCall_relayRootBundleData (r sl : Bytes32) : decodeCall (relayRootBundleData r sl) = none := by
  have hsel : MessageTranslation.encodeSoliditySelector "relayRootBundle(bytes32,bytes32)" =
      AdminFunction.relayRootBundle.selector := AdminCalldata.selector_eq .relayRootBundle
  have hlen : AdminFunction.relayRootBundle.selector.length = 4 := rfl
  rw [decodeCall, relayRootBundleData, hsel, List.take_left' hlen]
  simp only [Forwarder.selector_eq]
  rfl

/-- The message brings `root` to L3, given to a router or in a call of the forwarder. -/
def Brings (m : Message) (root : Bytes32) : Prop :=
  ∃ slow, decodeAdmin m.data = some (.relayRootBundle root slow) ∨
    ∃ t c b, decodeCall m.data = some (.relayMessage t c b) ∧ decodeAdmin b.val = some (.relayRootBundle root slow)

/-- The refund root of a proposal that stood, for the pool `self`, or the owner's. -/
def ApprovedFor (D : HubState.Deployment) (w₀ : HubState.World) (is : List HubRun.Input) (self : Address) (m : Message)
    (root : Bytes32) : Prop :=
  (∃ p ∈ HubBundles.proposals D w₀ is, ∃ c, FromProposal D p c m ∧ m.spokePool = self ∧
    c.before.hub.rootBundleProposal.relayerRefundRoot = root) ∨
  ∃ c ∈ HubProposals.calls D w₀ is, FromOwner c m

theorem approved_of_wanted {is : List HubRun.Input} {D : HubState.Deployment} {slow : Bytes32}
    (hm : Sourced D w₀ is m) (hdec : decodeAdmin data = some (.relayRootBundle root slow))
    (hcall : (m.spokePool = t ∧ m.data = data) ∨
      ∃ b : Blob, decodeCall m.data = some (.relayMessage t chainId b) ∧ b.val = data) :
    Brings m root ∧ ApprovedFor D w₀ is t m root := by
  rcases hcall with ⟨ht, rfl⟩ | ⟨b, hb, rfl⟩
  · refine ⟨⟨slow, .inl hdec⟩, ?_⟩
    rcases hm with ⟨p, hp, c, hfrom⟩ | howner
    · rw [hfrom.data, decodeAdmin_relayRootBundleData] at hdec
      injection hdec with hdec
      injection hdec with hroot _
      exact .inl ⟨p, hp, c, hfrom, ht, hroot⟩
    · exact .inr howner
  · refine ⟨⟨slow, .inr ⟨t, chainId, b, hb, hdec⟩⟩, ?_⟩
    rcases hm with ⟨p, hp, c, hfrom⟩ | howner
    · rw [hfrom.data, decodeCall_relayRootBundleData] at hb
      cases hb
    · exact .inr howner

variable [DecidableEq ι] {f₀ : Forwarder.World} {start₀ : ι → World W} {k : ι}
  {x : State (List HubRun.Input) Unit (State Forwarder.World ι (World W) Forwarded) Use}

end Leaves

section Sample

open HubRun RefundLeaves SpokeFunds SpokeLedger

/-- The adapter at 9 is a router over the adapter at 8, for chain 10 behind chain 11. -/
def sampleRouter : Router := ⟨8, 1, 11, 10⟩

def sampleHub : HubState.World := { HubRun.sampleWorld with code := fun a => decide (a = 9) || HubRun.sampleWorld.code a }

theorem sampleHub_genesis : Genesis HubRun.sampleDeployment sampleHub := by
  have hg := HubRun.sampleWorld_genesis
  refine ⟨hg.hub, hg.zero, ?_, ?_, hg.lpTokens, hg.time, hg.log⟩
  · rfl
  · exact fun a ha => hg.bare a (Bool.or_eq_false_iff.mp ha).2

def sampleLayers : Layers Unit (Erc20.Token Address × Nat) where
  hub := HubRun.sampleDeployment
  routers a := if a = 9 then some sampleRouter else none
  bridges a := decide (a = 8)
  kind := .arbitrum
  forwarder := 1
  forwarder_ne_zero := HubRun.sampleDeployment.self_ne_zero
  leads a _ := a = 30
  pools _ := sampleSpoke

abbrev sampleSystem := system sampleLayers sampleHub

/-- The forwarder after `forwarderInit`. -/
def sampleForwarder : Forwarder.World := ⟨true, 1, fun _ => 0, fun _ => 0, [], [.setXDomainAdmin 1]⟩

/-- The owner tells the forwarder its adapter for chain 10, and the pool on this chain a root. -/
def sampleCalls : List Input :=
  [sampleCall 3 (.setCrossChainContracts 11 8 1),
    sampleCall 3 (.relaySpokePoolAdminFunction 11 (encodeCall (.updateAdapter 10 30))),
    sampleCall 3 (.setCrossChainContracts 10 9 1),
    sampleCall 3 (.relaySpokePoolAdminFunction 10 (relayRootBundleData sampleRoot 0))]

def sampleUpdate : Use := ⟨8, .relayMessage 1 (encodeCall (.updateAdapter 10 30))⟩

theorem length_relayRootBundleData (r sl : Bytes32) : (relayRootBundleData r sl).length = 68 := by
  have hsel : MessageTranslation.encodeSoliditySelector "relayRootBundle(bytes32,bytes32)" =
      AdminFunction.relayRootBundle.selector := AdminCalldata.selector_eq .relayRootBundle
  rw [relayRootBundleData, hsel, List.length_append, length_words]
  rfl

theorem sampleData_fits : (relayRootBundleData sampleRoot 0).length < 2 ^ 64 := by
  rw [length_relayRootBundleData]
  decide

/-- What the router makes of the root. -/
def sampleRouted : Use :=
  ⟨8, .relayMessage 1 (encodeCall (.relayMessage 1 10 ⟨relayRootBundleData sampleRoot 0, sampleData_fits⟩))⟩

theorem sampleRouted_sends (h : HubState.Hub) :
    Sends sampleLayers.routers h ⟨9, .relayMessage 1 (relayRootBundleData sampleRoot 0)⟩ [sampleRouted] := by
  have hfits : (encodeCall (.relayMessage 1 10 ⟨relayRootBundleData sampleRoot 0, sampleData_fits⟩)).length < 2 ^ 64 := by
    rw [encodeCall, Forwarder.selector_eq, List.length_append, encode_relayMessage, Forwarder.length_selector]
    simp only [List.length_append, length_words, length_encodeBytes, length_relayRootBundleData]
    decide
  have hok : Ok (sampleRouter.exec (fun _ w => some w) (poolRebalanceRoute h)
      (.relayMessage 1 (relayRootBundleData sampleRoot 0))) ⟨(), []⟩ ()
      ⟨(), [.relayMessage 1 (encodeCall (.relayMessage 1 10 ⟨relayRootBundleData sampleRoot 0, sampleData_fits⟩))]⟩ := by
    rw [Router.exec, dif_pos sampleData_fits]
    exact (bind_ok _ _ _ _ _).mpr ⟨_, _, (require_bind_ok _ _ _ _ _ _).mpr ⟨hfits, rfl⟩, rfl⟩
  exact Sends.routed (R := sampleRouter) (u := ⟨9, .relayMessage 1 (relayRootBundleData sampleRoot 0)⟩) rfl hok

/-- The forwarder once it knows its adapter, and once it has sent the root on. -/
def sampleAdapted : Forwarder.World := { sampleForwarder with
  chainAdapters := Function.update sampleForwarder.chainAdapters 10 30
  events := sampleForwarder.events ++ [.chainAdaptersUpdated 10 30] }

def sampleForwarded : Forwarded := ⟨10, 30, .relayMessage 1 (relayRootBundleData sampleRoot 0)⟩

def sampleSent : Forwarder.World := { sampleAdapted with
  forwarded := [sampleForwarded]
  events := sampleAdapted.events ++ [.messageForwarded 1 10 (relayRootBundleData sampleRoot 0)] }

theorem sampleUpdate_handled :
    (relay sampleLayers sampleHub).handle sampleUpdate sampleForwarder sampleAdapted [] := by
  refine ⟨rfl, rfl, rfl, fun _ _ => .fails, ?_⟩
  rw [Forwarder.dispatch, decodeCall_encodeCall]
  rfl

theorem sampleRouted_handled :
    (relay sampleLayers sampleHub).handle sampleRouted sampleAdapted sampleSent [sampleForwarded] := by
  refine ⟨rfl, rfl, rfl, fun _ _ => .bridges, ?_⟩
  rw [Forwarder.dispatch, decodeCall_encodeCall]
  rfl

theorem sample_post {is : List Input} {i : Input} {c : HubProposals.Call} {u : List (List Use)}
    (hc : HubProposals.callOf HubRun.sampleDeployment (HubRun.run HubRun.sampleDeployment sampleHub is) i = some c)
    (hs : List.Forall₂ (Sends sampleLayers.routers c.before.hub) (uses c) u) :
    sampleSystem.post is (is ++ [i]) u.flatten := by
  refine ⟨i, rfl, ?_⟩
  change match HubProposals.callOf HubRun.sampleDeployment (HubRun.run HubRun.sampleDeployment sampleHub is) i with
    | none => _
    | some c => _
  rw [hc]
  exact ⟨u, hs, rfl⟩

theorem sampleCalls_posted :
    sampleSystem.post [] (sampleCalls.take 1) [] ∧
    sampleSystem.post (sampleCalls.take 1) (sampleCalls.take 2) [sampleUpdate] ∧
    sampleSystem.post (sampleCalls.take 2) (sampleCalls.take 3) [] ∧
    sampleSystem.post (sampleCalls.take 3) sampleCalls [sampleRouted] := by
  refine ⟨sample_post rfl (u := []) .nil, sample_post rfl (u := [[sampleUpdate]]) (.cons (.direct rfl) .nil),
    sample_post rfl (u := []) .nil, sample_post rfl (u := [[sampleRouted]]) (.cons (sampleRouted_sends _) .nil)⟩

theorem sampleSystem_delivers {is : List Input} {u : Use} {us : List Use} {rs : List (Unit × Use)}
    {y z : State Forwarder.World Unit (World (Erc20.Token Address × Nat)) Forwarded}
    (h : sampleSystem.receive () u y z) :
    Step sampleSystem ⟨is, fun _ => y, us, [u], rs⟩ ⟨is, fun _ => z, us, [], rs ++ [((), u)]⟩ := by
  have hpending : [u] = [] ++ u :: [] := rfl
  have hstep := Step.deliver (P := sampleSystem) (i := ()) (x := ⟨is, fun _ => y, us, [u], rs⟩) hpending h
  rwa [Function.update_eq_const_of_subsingleton () z] at hstep

theorem sampleSystem_acts {is : List Input} {us : List Use} {rs : List (Unit × Use)}
    {y z : State Forwarder.World Unit (World (Erc20.Token Address × Nat)) Forwarded}
    (h : Step (relay sampleLayers sampleHub).alone y z) :
    Step sampleSystem ⟨is, fun _ => y, us, [], rs⟩ ⟨is, fun _ => z, us, [], rs⟩ := by
  have hstep := Step.act (P := sampleSystem) (i := ()) (x := ⟨is, fun _ => y, us, [], rs⟩) h
  rwa [Function.update_eq_const_of_subsingleton () z] at hstep

/-- The pool takes what the forwarder has sent on, and executes the leaf. -/
theorem sampleSent_executes : ∃ s t, s.trace = sampleTold.trace ++ t ∧ executions 0 0 t = [sampleLeaf] ∧
    Step (relay sampleLayers sampleHub).alone ⟨sampleSent, fun _ => sampleFresh, [sampleForwarded], [sampleForwarded], []⟩
      ⟨sampleSent, fun _ => sampleTold, [sampleForwarded], [], [((), sampleForwarded)]⟩ ∧
    Step (relay sampleLayers sampleHub).alone
      ⟨sampleSent, fun _ => sampleTold, [sampleForwarded], [], [((), sampleForwarded)]⟩
      ⟨sampleSent, fun _ => s, [sampleForwarded], [], [((), sampleForwarded)]⟩ := by
  obtain ⟨s, t, hact, ht, hleaf⟩ := sampleTold_acts
  have hreceive : (relay sampleLayers sampleHub).alone.receive () sampleForwarded sampleFresh sampleTold :=
    ⟨rfl, rfl, rfl, rfl, _, 0, decodeAdmin_relayRootBundleData sampleRoot 0, rfl⟩
  have hpending : [sampleForwarded] = [] ++ sampleForwarded :: [] := rfl
  have harrive := Step.deliver (P := (relay sampleLayers sampleHub).alone) (i := ())
    (x := ⟨sampleSent, fun _ => sampleFresh, [sampleForwarded], [sampleForwarded], []⟩) hpending hreceive
  have hexecute := Step.act (P := (relay sampleLayers sampleHub).alone) (i := ())
    (x := ⟨sampleSent, fun _ => sampleTold, [sampleForwarded], [], [((), sampleForwarded)]⟩) (r := s) hact
  rw [Function.update_eq_const_of_subsingleton () sampleTold] at harrive
  rw [Function.update_eq_const_of_subsingleton () s] at hexecute
  exact ⟨s, t, ht, hleaf, harrive, hexecute⟩

theorem sampleSystem_reaches : ∃ x,
    Reaches sampleSystem (start [] fun _ => start sampleForwarder fun _ => sampleFresh) x ∧ x.sender = sampleCalls ∧
    mail x () = [sampleUpdate, sampleRouted] ∧ (x.receivers ()).posted = [sampleForwarded] ∧
    mail (x.receivers ()) () = [sampleForwarded] ∧
    ∃ t, ((x.receivers ()).receivers ()).trace = sampleTold.trace ++ t ∧ executions 0 0 t = [sampleLeaf] := by
  obtain ⟨s, t, ht, hleaf, harrive, hexecute⟩ := sampleSent_executes
  obtain ⟨h₁, h₂, h₃, h₄⟩ := sampleCalls_posted
  have hupdate : sampleSystem.receive () sampleUpdate (start sampleForwarder fun _ => sampleFresh)
      ⟨sampleAdapted, fun _ => sampleFresh, [], [], []⟩ := ⟨sampleAdapted, [], sampleUpdate_handled, rfl⟩
  have hrouted : sampleSystem.receive () sampleRouted ⟨sampleAdapted, fun _ => sampleFresh, [], [], []⟩
      ⟨sampleSent, fun _ => sampleFresh, [sampleForwarded], [sampleForwarded], []⟩ :=
    ⟨sampleSent, [sampleForwarded], sampleRouted_handled, rfl⟩
  have hstart : Reaches sampleSystem (start [] fun _ => start sampleForwarder fun _ => sampleFresh) _ := .refl
  have hadapted := ((hstart.tail (.post h₁)).tail (.post h₂)).tail (sampleSystem_delivers hupdate)
  have hsent := ((hadapted.tail (.post h₃)).tail (.post h₄)).tail (sampleSystem_delivers hrouted)
  exact ⟨_, (hsent.tail (sampleSystem_acts harrive)).tail (sampleSystem_acts hexecute), rfl, rfl, rfl, rfl, t, ht, hleaf⟩

/-- The forwarder sends the root on through the adapter that a message before told it. -/
theorem sampleSystem_obeys : ∃ x,
    Reaches sampleSystem (start [] fun _ => start sampleForwarder fun _ => sampleFresh) x ∧
    (x.receivers ()).posted = [sampleForwarded] ∧
    Obeying sampleLayers sampleForwarder (x.receivers ()).sender [sampleUpdate, sampleRouted] [sampleForwarded] := by
  obtain ⟨x, hx, -, hmail, hposted, -⟩ := sampleSystem_reaches
  have hobeys := (forwarder_obeys_hub hx).1
  rw [hmail, hposted] at hobeys
  exact ⟨x, hx, hposted, hobeys⟩

end Sample

end Across.Rerouting
