import Across.AdminMessages
import Across.MessageTranslation

namespace Across.Forwarder

open WordBytes Abi CallExec CallExec.Exec AdminMessages MessageTranslation

/-- A call of the interface that all adapters have. -/
inductive AdapterCall
  | relayMessage (target : Address) (message : Bytes)
  | relayTokens (l1Token l2Token : Address) (amount : Uint256) (recipient : Address)

/-- The calls that a forwarder takes, apart from upgrades. -/
inductive Call
  | setCrossDomainAdmin (newCrossDomainAdmin : Address)
  | updateAdapter (destinationChainId : Uint256) (l2Adapter : Address)
  | relayMessage (target : Address) (destinationChainId : Uint256) (message : Blob)
  | relayTokens (baseToken destinationChainToken : Address) (amount destinationChainId : Uint256) (target : Address)

section Calldata

inductive Method
  | setCrossDomainAdmin
  | updateAdapter
  | relayMessage
  | relayTokens

namespace Method

def all : List Method := [setCrossDomainAdmin, updateAdapter, relayMessage, relayTokens]

def signature : Method → String
  | setCrossDomainAdmin => "setCrossDomainAdmin(address)"
  | updateAdapter => "updateAdapter(uint256,address)"
  | relayMessage => "relayMessage(address,uint256,bytes)"
  | relayTokens => "relayTokens(address,address,uint256,uint256,address)"

def selector : Method → Bytes
  | setCrossDomainAdmin => [222, 126, 186, 120]
  | updateAdapter => [240, 156, 66, 70]
  | relayMessage => [192, 176, 33, 231]
  | relayTokens => [11, 66, 116, 113]

/-- The compiler's decoder of the arguments. -/
def decode (args : Bytes) : Method → Option Call
  | setCrossDomainAdmin => do some (.setCrossDomainAdmin (← uintAt 160 args 0))
  | updateAdapter => do some (.updateAdapter (← uintAt 256 args 0) (← uintAt 160 args 32))
  | relayMessage => do
      some (.relayMessage (← uintAt 160 args 0) (← uintAt 256 args 32) (← bytesAt args (← offsetAt args 64)))
  | relayTokens => do
      some (.relayTokens (← uintAt 160 args 0) (← uintAt 160 args 32) (← uintAt 256 args 64) (← uintAt 256 args 96)
        (← uintAt 160 args 128))

end Method

def Call.method : Call → Method
  | setCrossDomainAdmin _ => .setCrossDomainAdmin
  | updateAdapter _ _ => .updateAdapter
  | relayMessage _ _ _ => .relayMessage
  | relayTokens _ _ _ _ _ => .relayTokens

def Call.parts : Call → List Part
  | setCrossDomainAdmin a => [.word a.toNat]
  | updateAdapter c a => [.word c.toNat, .word a.toNat]
  | relayMessage t c m => [.word t.toNat, .word c.toNat, .tail (encodeBytes m.val)]
  | relayTokens b d n c t => [.word b.toNat, .word d.toNat, .word n.toNat, .word c.toNat, .word t.toNat]

def encodeCall (c : Call) : Bytes := encodeSoliditySelector c.method.signature ++ encode c.parts

def decodeCall (data : Bytes) : Option Call := do
  let f ← Method.all.find? fun f => decide (encodeSoliditySelector f.signature = data.take 4)
  f.decode (data.drop 4)

theorem selector_eq (f : Method) : encodeSoliditySelector f.signature = f.selector := by
  cases f <;> decide +kernel

theorem length_selector (f : Method) : f.selector.length = 4 := by
  cases f <;> rfl

theorem find_selector (f : Method) :
    Method.all.find? (fun g => decide (encodeSoliditySelector g.signature = f.selector)) = some f := by
  simp only [selector_eq]
  cases f <;> rfl

theorem encode_relayMessage (t : Address) (c : Uint256) (m : Blob) : encode (Call.relayMessage t c m).parts =
    words [t.toNat, c.toNat, 96] ++ (encodeBytes m.val ++ []) := by
  simp only [Call.parts, encode, headWords, tails, List.length_cons, List.length_nil]

theorem decode_relayMessage (t : Address) (c : Uint256) (m : Blob) :
    Method.relayMessage.decode (encode (Call.relayMessage t c m).parts) = some (.relayMessage t c m) := by
  rw [encode_relayMessage]
  have hlt : ∀ n ∈ [t.toNat, c.toNat, 96], n < 2 ^ 256 :=
    List.forall_mem_cons.mpr ⟨toNat_lt_word (by decide) t,
      List.forall_mem_cons.mpr ⟨c.isLt, List.forall_mem_singleton.mpr (by decide)⟩⟩
  have hm := bytesAt_encodeBytes (words [t.toNat, c.toNat, 96]) m []
  rw [length_words] at hm
  generalize hbs : words [t.toNat, c.toNat, 96] ++ (encodeBytes m.val ++ []) = bs at hm ⊢
  have hw : ∀ i n, [t.toNat, c.toNat, 96][i]? = some n → wordAt bs (32 * i) = some n := fun i n hi => by
    rw [← hbs]
    exact wordAt_words hlt _ hi
  rw [Method.decode, uintAt_of_wordAt (hw 0 _ rfl), uintAt_of_wordAt (hw 1 _ rfl),
    offsetAt_of_wordAt (hw 2 _ rfl) (by decide)]
  change Option.bind (bytesAt bs 96) _ = _
  rw [show bytesAt bs 96 = some m from hm]
  rfl

theorem decode_encode (c : Call) : c.method.decode (encode c.parts) = some c := by
  cases c with
  | setCrossDomainAdmin a =>
      have hw : ∀ i n, [a.toNat][i]? = some n → wordAt (words [a.toNat] ++ []) (32 * i) = some n :=
        fun _ _ => wordAt_words (List.forall_mem_singleton.mpr (toNat_lt_word (by decide) a)) []
      change Method.decode (words [a.toNat] ++ []) _ = _
      rw [Call.method, Method.decode, uintAt_of_wordAt (hw 0 _ rfl)]
      rfl
  | updateAdapter c a =>
      have hlt : ∀ n ∈ [c.toNat, a.toNat], n < 2 ^ 256 :=
        List.forall_mem_cons.mpr ⟨c.isLt, List.forall_mem_singleton.mpr (toNat_lt_word (by decide) a)⟩
      have hw : ∀ i n, [c.toNat, a.toNat][i]? = some n →
          wordAt (words [c.toNat, a.toNat] ++ []) (32 * i) = some n := fun _ _ => wordAt_words hlt []
      change Method.decode (words [c.toNat, a.toNat] ++ []) _ = _
      rw [Call.method, Method.decode, uintAt_of_wordAt (hw 0 _ rfl), uintAt_of_wordAt (hw 1 _ rfl)]
      rfl
  | relayMessage t c m => exact decode_relayMessage t c m
  | relayTokens b d n c t =>
      have hlt : ∀ k ∈ [b.toNat, d.toNat, n.toNat, c.toNat, t.toNat], k < 2 ^ 256 :=
        List.forall_mem_cons.mpr ⟨toNat_lt_word (by decide) b, List.forall_mem_cons.mpr ⟨toNat_lt_word (by decide) d,
          List.forall_mem_cons.mpr ⟨n.isLt, List.forall_mem_cons.mpr ⟨c.isLt,
            List.forall_mem_singleton.mpr (toNat_lt_word (by decide) t)⟩⟩⟩⟩
      have hw : ∀ i k, [b.toNat, d.toNat, n.toNat, c.toNat, t.toNat][i]? = some k →
          wordAt (words [b.toNat, d.toNat, n.toNat, c.toNat, t.toNat] ++ []) (32 * i) = some k :=
        fun _ _ => wordAt_words hlt []
      change Method.decode (words [b.toNat, d.toNat, n.toNat, c.toNat, t.toNat] ++ []) _ = _
      rw [Call.method, Method.decode, uintAt_of_wordAt (hw 0 _ rfl), uintAt_of_wordAt (hw 1 _ rfl),
        uintAt_of_wordAt (hw 2 _ rfl), uintAt_of_wordAt (hw 3 _ rfl), uintAt_of_wordAt (hw 4 _ rfl)]
      rfl

/-- The forwarder reads off its calldata what the router has written. -/
theorem decodeCall_encodeCall (c : Call) : decodeCall (encodeCall c) = some c := by
  have hlen := length_selector c.method
  rw [decodeCall, encodeCall, selector_eq, List.take_left' hlen, List.drop_left' hlen, find_selector]
  exact decode_encode c

end Calldata

section Router

/-- The immutables of a router. -/
structure Router where
  l1Adapter : Address
  l2Target : Address
  l2ChainId : Uint256
  l3ChainId : Uint256

inductive RouterError
  | relayMessageFailed
  | relayTokensFailed (l1Token : Address)
  | l2RouteNotWhitelisted (l1Token : Address)
  | panic

/-- `calls` are the calls of the adapter for L2 that have succeeded, and `rest` is what
they change. -/
structure Passage (W : Type) where
  rest : W
  calls : List AdapterCall

variable {W : Type}

abbrev RouterCode (W α : Type) := Exec (Passage W) Empty RouterError α

-- `adapter` is the code of the adapter for L2, and `poolRebalanceRoute` a view of the hub pool.
variable (adapter : AdapterCall → W → Option W) (poolRebalanceRoute : Uint256 → Address → Address)

def Router.delegatecall (call : AdapterCall) (e : RouterError) : RouterCode W Unit := do
  let s ← read
  match adapter call s.rest with
  | none => revert e
  | some w => update fun s => ⟨w, s.calls ++ [call]⟩

/-- The encoding of a call, which has to fit in the memory. -/
def Router.encode (c : Call) : RouterCode W Bytes := do
  require ((encodeCall c).length < 2 ^ 64) .panic
  pure (encodeCall c)

namespace Router

def relayMessage (R : Router) (target : Address) (message : Blob) : RouterCode W Unit := do
  let wrappedMessage ← Router.encode (.relayMessage target R.l3ChainId message)
  Router.delegatecall adapter (.relayMessage R.l2Target wrappedMessage) .relayMessageFailed

def relayTokens (R : Router) (l1Token l3Token : Address) (amount : Uint256) (target : Address) : RouterCode W Unit := do
  let l2Token := poolRebalanceRoute R.l2ChainId l1Token
  require (l2Token ≠ 0) (.l2RouteNotWhitelisted l1Token)
  Router.delegatecall adapter (.relayTokens l1Token l2Token amount R.l2Target) (.relayTokensFailed l1Token)
  let message ← Router.encode (.relayTokens l2Token l3Token amount R.l3ChainId target)
  Router.delegatecall adapter (.relayMessage R.l2Target message) .relayMessageFailed

/-- A message that is too long for the memory is not decoded. -/
def exec (R : Router) : AdapterCall → RouterCode W Unit
  | .relayMessage target message =>
      if h : message.length < 2 ^ 64 then relayMessage adapter R target ⟨message, h⟩ else revert .panic
  | .relayTokens l1Token l2Token amount recipient =>
      relayTokens adapter poolRebalanceRoute R l1Token l2Token amount recipient

end Router

/-- The calls for L3 that a call of the forwarder is for. -/
def Call.onward : Call → List (Uint256 × AdapterCall)
  | setCrossDomainAdmin _ | updateAdapter _ _ => []
  | relayMessage t c m => [(c, .relayMessage t m.val)]
  | relayTokens b d n c t => [(c, .relayTokens b d n t)]

/-- What the forwarder is told to do with a call that arrives on L2. -/
def AdapterCall.onward : AdapterCall → List (Uint256 × AdapterCall)
  | .relayMessage _ data => (decodeCall data).toList.flatMap Call.onward
  | .relayTokens _ _ _ _ => []

/-- The call that a router is there for, with the token of L2 in place of that of L1. -/
def AdapterCall.rerouted (l2Token : Address → Address) : AdapterCall → AdapterCall
  | .relayMessage t m => .relayMessage t m
  | .relayTokens l1Token l3Token n t => .relayTokens (l2Token l1Token) l3Token n t

/-- Who gets the message or the tokens of a call on the other side. -/
def AdapterCall.target : AdapterCall → Address
  | .relayMessage t _ => t
  | .relayTokens _ _ _ r => r

/-- The amount of a token of the other side that a call brings there. -/
def AdapterCall.brings (token : Address) : AdapterCall → Nat
  | .relayMessage _ _ => 0
  | .relayTokens _ t n _ => if t = token then n.toNat else 0

/-- The amount of a token of this side that a call takes away. -/
def AdapterCall.takes (token : Address) : AdapterCall → Nat
  | .relayMessage _ _ => 0
  | .relayTokens t _ n _ => if t = token then n.toNat else 0

/-- The holder of `balances` has the tokens that a call takes away. -/
def AdapterCall.affordable (balances : Address → Nat) : AdapterCall → Bool
  | .relayMessage _ _ => true
  | .relayTokens t _ n _ => decide (n.toNat ≤ balances t)

/-- What a router makes of a call: calls to the forwarder that tell it to do the same
for L3, and bring it just the tokens that it takes for that. -/
structure Rerouted (R : Router) (l2Token : Address → Address) (call : AdapterCall) (cs : List AdapterCall) : Prop where
  target : ∀ c ∈ cs, c.target = R.l2Target
  onward : cs.flatMap AdapterCall.onward = [(R.l3ChainId, call.rerouted l2Token)]
  tokens : ∀ t, (cs.map (AdapterCall.brings t)).sum = (call.rerouted l2Token).takes t

variable {adapter : AdapterCall → W → Option W} {poolRebalanceRoute : Uint256 → Address → Address} {R : Router}
  {call : AdapterCall} {e : RouterError} {u : Unit} {s s' : Passage W} {β : Type} {f : Unit → RouterCode W β} {b : β}

theorem delegatecall_ok (h : Ok (Router.delegatecall adapter call e) s u s') : s'.calls = s.calls ++ [call] := by
  rw [Router.delegatecall, read_bind_ok] at h
  split at h
  · exact ((revert_ok _ _ _ _).mp h).elim
  · obtain rfl := (update_ok _ _ _ _).mp h
    rfl

theorem encode_ok {c : Call} {data : Bytes} (h : Ok (Router.encode c : RouterCode W Bytes) s data s') :
    data = encodeCall c ∧ s = s' := by
  obtain ⟨-, h⟩ := (require_bind_ok _ _ _ _ _ _).mp h
  obtain ⟨rfl, rfl⟩ := (pure_ok _ _ _ _).mp h
  exact ⟨rfl, rfl⟩

theorem onward_encodeCall (t : Address) (c : Call) : (AdapterCall.relayMessage t (encodeCall c)).onward = c.onward := by
  rw [AdapterCall.onward, decodeCall_encodeCall, Option.toList_some, List.flatMap_singleton]

theorem relayMessage_ok {target : Address} {message : Blob} (h : Ok (R.relayMessage adapter target message) s u s') :
    ∃ cs, s'.calls = s.calls ++ cs ∧ Rerouted R (poolRebalanceRoute R.l2ChainId) (.relayMessage target message.val) cs := by
  obtain ⟨data, s₁, henc, h⟩ := (bind_ok _ _ _ _ _).mp h
  obtain ⟨rfl, rfl⟩ := encode_ok henc
  refine ⟨_, delegatecall_ok h, ?_, ?_, fun _ => rfl⟩
  · intro c hc
    rw [List.mem_singleton.mp hc]
    rfl
  · rw [List.flatMap_singleton, onward_encodeCall]
    rfl

theorem relayTokens_ok {l1Token l3Token target : Address} {amount : Uint256}
    (h : Ok (R.relayTokens adapter poolRebalanceRoute l1Token l3Token amount target) s u s') : ∃ cs,
      s'.calls = s.calls ++ cs ∧
      Rerouted R (poolRebalanceRoute R.l2ChainId) (.relayTokens l1Token l3Token amount target) cs := by
  obtain ⟨-, h⟩ := (require_bind_ok _ _ _ _ _ _).mp h
  obtain ⟨_, s₁, htokens, h⟩ := (bind_ok _ _ _ _ _).mp h
  obtain ⟨data, s₂, henc, h⟩ := (bind_ok _ _ _ _ _).mp h
  obtain ⟨rfl, rfl⟩ := encode_ok henc
  have hcalls := delegatecall_ok h
  rw [delegatecall_ok htokens, List.append_assoc] at hcalls
  refine ⟨_, hcalls, ?_, ?_, fun t => ?_⟩
  · intro c hc
    rcases List.mem_pair.mp hc with rfl | rfl <;> rfl
  · rw [List.singleton_append, List.flatMap_cons, List.flatMap_singleton, onward_encodeCall]
    rfl
  · exact Nat.add_zero _

/-- A router that succeeds has rerouted the call. -/
theorem exec_ok (h : Ok (R.exec adapter poolRebalanceRoute call) s u s') : ∃ cs, s'.calls = s.calls ++ cs ∧
    Rerouted R (poolRebalanceRoute R.l2ChainId) call cs := by
  cases call with
  | relayMessage target message =>
      rw [Router.exec] at h
      split at h
      · exact relayMessage_ok h
      · exact ((revert_ok _ _ _ _).mp h).elim
  | relayTokens l1Token l3Token amount target => exact relayTokens_ok h

end Router

section Contract

/-- The chains that a forwarder can be on. -/
inductive Kind
  | arbitrum
  | ovm

/-- `xDomainMessageSender` is what the messenger of the chain says when it is asked. -/
structure Msg where
  sender : Address
  xDomainMessageSender : Address

def l2CrossDomainMessenger : Address := 0x4200000000000000000000000000000000000007

inductive Error
  | require (text : String)
  | notCrossChainCall
  | notCrossDomainAdmin
  | invalidCrossDomainAdmin
  | invalidChainAdapter
  | relayMessageFailed
  | relayTokensFailed (baseToken : Address)
  | uninitializedChainAdapter

inductive Event
  | chainAdaptersUpdated (destinationChainId : Uint256) (l2Adapter : Address)
  | setXDomainAdmin (crossDomainAdmin : Address)
  | messageForwarded (target : Address) (chainId : Uint256) (message : Bytes)
  | tokensForwarded (baseToken remoteToken : Address) (amount destinationChainId : Uint256) (recipient : Address)

/-- A call that an adapter on L2 has carried out for a chain id. -/
structure Forwarded where
  chainId : Uint256
  adapter : Address
  call : AdapterCall

/-- `balances` are the tokens that the forwarder holds, and `forwarded` is what it has
sent on. -/
structure World where
  initialized : Bool
  crossDomainAdmin : Address
  chainAdapters : Uint256 → Address
  balances : Address → Nat
  forwarded : List Forwarded
  events : List Event

abbrev Code := Exec World Empty Error

def emit (e : Event) : Code Unit := update fun s => { s with events := s.events ++ [e] }

/-- What is behind an address for a call. -/
inductive Answer
  | noCode
  | fails
  | bridges

def setAdmin (newCrossDomainAdmin : Address) : Code Unit := do
  require (newCrossDomainAdmin ≠ 0) .invalidCrossDomainAdmin
  update fun s => { s with crossDomainAdmin := newCrossDomainAdmin }
  emit (.setXDomainAdmin newCrossDomainAdmin)

def forwarderInit (crossDomainAdmin : Address) : Code Unit := do
  let s ← read
  require (s.initialized = false) (.require "Initializable: contract is already initialized")
  setAdmin crossDomainAdmin
  update fun s => { s with initialized := true }

variable (K : Kind) (A : Address → AdapterCall → Answer) (msg : Msg)

def requireAdminSender : Code Unit := do
  let s ← read
  match K with
  | .arbitrum => require (msg.sender = applyL1ToL2Alias s.crossDomainAdmin) (.require "ONLY_COUNTERPART_GATEWAY")
  | .ovm => do
      require (msg.sender = l2CrossDomainMessenger) .notCrossChainCall
      require (msg.xDomainMessageSender = s.crossDomainAdmin) .notCrossDomainAdmin

/-- An adapter takes exactly the tokens that it is told to. A delegatecall of an address
without code succeeds and does nothing. -/
def delegatecall (chainId : Uint256) (adapter : Address) (call : AdapterCall) (e : Error) : Code Unit := do
  let s ← read
  match A adapter call with
  | .noCode => pure ()
  | .fails => revert e
  | .bridges => do
      require (call.affordable s.balances = true) e
      update fun s => { s with
        balances := fun t => s.balances t - call.takes t
        forwarded := s.forwarded ++ [⟨chainId, adapter, call⟩] }

def setCrossDomainAdmin (newCrossDomainAdmin : Address) : Code Unit := do
  requireAdminSender K msg
  require (newCrossDomainAdmin ≠ 0) .invalidCrossDomainAdmin
  setAdmin newCrossDomainAdmin
  emit (.setXDomainAdmin newCrossDomainAdmin)

def updateAdapter (destinationChainId : Uint256) (l2Adapter : Address) : Code Unit := do
  requireAdminSender K msg
  require (l2Adapter ≠ 0) .invalidChainAdapter
  update fun s => { s with chainAdapters := Function.update s.chainAdapters destinationChainId l2Adapter }
  emit (.chainAdaptersUpdated destinationChainId l2Adapter)

def relayMessage (target : Address) (destinationChainId : Uint256) (message : Blob) : Code Unit := do
  requireAdminSender K msg
  let s ← read
  let adapter := s.chainAdapters destinationChainId
  require (adapter ≠ 0) .uninitializedChainAdapter
  delegatecall A destinationChainId adapter (.relayMessage target message.val) .relayMessageFailed
  emit (.messageForwarded target destinationChainId message.val)

def relayTokens (baseToken destinationChainToken : Address) (amount destinationChainId : Uint256) (target : Address) :
    Code Unit := do
  requireAdminSender K msg
  let s ← read
  let adapter := s.chainAdapters destinationChainId
  require (adapter ≠ 0) .uninitializedChainAdapter
  delegatecall A destinationChainId adapter (.relayTokens baseToken destinationChainToken amount target)
    (.relayTokensFailed baseToken)
  emit (.tokensForwarded baseToken destinationChainToken amount destinationChainId target)

def exec : Call → Code Unit
  | .setCrossDomainAdmin a => setCrossDomainAdmin K msg a
  | .updateAdapter c a => updateAdapter K msg c a
  | .relayMessage t c m => relayMessage K A msg t c m
  | .relayTokens b d n c t => relayTokens K A msg b d n c t

/-- Calldata of no function of the forwarder reverts. -/
def dispatch (data : Bytes) : Code Unit :=
  match decodeCall data with
  | some c => exec K A msg c
  | none => revert (.require "")

end Contract

section Steps

variable {K : Kind} {A : Address → AdapterCall → Answer} {msg : Msg} {s s' : World} {u : Unit} {c : Call}

/-- The call comes from the admin on L1. -/
def FromAdmin (K : Kind) (msg : Msg) (s : World) : Prop :=
  match K with
  | .arbitrum => msg.sender = applyL1ToL2Alias s.crossDomainAdmin
  | .ovm => msg.sender = l2CrossDomainMessenger ∧ msg.xDomainMessageSender = s.crossDomainAdmin

theorem requireAdminSender_ok : Ok (requireAdminSender K msg) s u s' ↔ FromAdmin K msg s ∧ s = s' := by
  rw [requireAdminSender, read_bind_ok]
  cases K with
  | arbitrum => exact require_ok _ _ _ _ _
  | ovm =>
      simp only [require_bind_ok, require_ok, FromAdmin, and_assoc]

theorem requireAdminSender_bind_ok {f : Unit → Code Unit} :
    Ok (requireAdminSender K msg >>= f) s u s' ↔ FromAdmin K msg s ∧ Ok (f ()) s u s' := by
  refine check_bind_ok fun _ t => ?_
  rw [requireAdminSender_ok]
  exact and_congr_right fun _ => ⟨fun h => ⟨rfl, h⟩, And.right⟩

theorem setAdmin_ok {a : Address} : Ok (setAdmin a) s u s' ↔ a ≠ 0 ∧ s' = { s with
    crossDomainAdmin := a, events := s.events ++ [.setXDomainAdmin a] } := by
  simp only [setAdmin, emit, require_bind_ok, update_bind_ok, update_ok, eq_comm]

def adminAfter (admin : Address) : Call → Address
  | .setCrossDomainAdmin a => a
  | _ => admin

def adaptersAfter (adapters : Uint256 → Address) : Call → Uint256 → Address
  | .updateAdapter c a => Function.update adapters c a
  | _ => adapters

def taken (ns : List Forwarded) (t : Address) : Nat := (ns.map fun n => n.call.takes t).sum

/-- What a successful call does to a forwarder. -/
structure Handled (c : Call) (s s' : World) (ns : List Forwarded) : Prop where
  admin : s'.crossDomainAdmin = adminAfter s.crossDomainAdmin c
  adapters : s'.chainAdapters = adaptersAfter s.chainAdapters c
  forwarded : s'.forwarded = s.forwarded ++ ns
  onward : (ns.map fun n => (n.chainId, n.call)).Sublist c.onward
  through : ∀ n ∈ ns, n.adapter = s.chainAdapters n.chainId ∧ n.adapter ≠ 0
  balances : ∀ t, s'.balances t + taken ns t = s.balances t

theorem takes_le {call : AdapterCall} {b : Address → Nat} (h : call.affordable b = true) (t : Address) :
    call.takes t ≤ b t := by
  cases call with
  | relayMessage _ _ => exact Nat.zero_le _
  | relayTokens l1 _ n _ =>
      by_cases ht : l1 = t
      · subst ht
        simpa [AdapterCall.takes] using of_decide_eq_true h
      · simp [AdapterCall.takes, ht]

theorem delegatecall_forwards {chainId : Uint256} {call : AdapterCall} {e : Error} {m : Event}
    (hon : c.onward = [(chainId, call)]) (hadmin : adminAfter s.crossDomainAdmin c = s.crossDomainAdmin)
    (hadapters : adaptersAfter s.chainAdapters c = s.chainAdapters) (hz : s.chainAdapters chainId ≠ 0)
    (h : Ok (delegatecall A chainId (s.chainAdapters chainId) call e >>= fun _ => emit m) s u s') :
    ∃ ns, Handled c s s' ns := by
  obtain ⟨_, t, hcall, hemit⟩ := (bind_ok _ _ _ _ _).mp h
  obtain rfl := (update_ok _ _ _ _).mp hemit
  rw [delegatecall, read_bind_ok] at hcall
  split at hcall
  · obtain ⟨-, rfl⟩ := (pure_ok _ _ _ _).mp hcall
    exact ⟨[], hadmin.symm, hadapters.symm, (List.append_nil _).symm, List.nil_sublist _,
      fun _ hn => absurd hn List.not_mem_nil, fun _ => rfl⟩
  · exact ((revert_ok _ _ _ _).mp hcall).elim
  · obtain ⟨hfits, hcall⟩ := (require_bind_ok _ _ _ _ _ _).mp hcall
    obtain rfl := (update_ok _ _ _ _).mp hcall
    refine ⟨[⟨chainId, s.chainAdapters chainId, call⟩], hadmin.symm, hadapters.symm, rfl, ?_, ?_, fun t => ?_⟩
    · rw [hon]
      exact List.Sublist.refl _
    · intro n hn
      rw [List.mem_singleton.mp hn]
      exact ⟨rfl, hz⟩
    · exact Nat.sub_add_cancel (takes_le hfits t)

/-- Only the admin gets through, and for the two relays at most the call that is asked
for goes on, through the adapter of its chain. -/
theorem exec_handled (h : Ok (exec K A msg c) s u s') : FromAdmin K msg s ∧ ∃ ns, Handled c s s' ns := by
  cases c with
  | setCrossDomainAdmin a =>
      simp only [exec, setCrossDomainAdmin, requireAdminSender_bind_ok, require_bind_ok] at h
      obtain ⟨hfrom, -, h⟩ := h
      obtain ⟨_, t, hset, h⟩ := (bind_ok _ _ _ _ _).mp h
      obtain ⟨-, rfl⟩ := setAdmin_ok.mp hset
      obtain rfl := (update_ok _ _ _ _).mp h
      exact ⟨hfrom, [], rfl, rfl, (List.append_nil _).symm, List.nil_sublist _,
        fun _ hn => absurd hn List.not_mem_nil, fun _ => rfl⟩
  | updateAdapter c a =>
      simp only [exec, updateAdapter, requireAdminSender_bind_ok, require_bind_ok, emit, update_bind_ok,
        update_ok] at h
      obtain ⟨hfrom, -, rfl⟩ := h
      exact ⟨hfrom, [], rfl, rfl, (List.append_nil _).symm, List.nil_sublist _,
        fun _ hn => absurd hn List.not_mem_nil, fun _ => rfl⟩
  | relayMessage t c m =>
      simp only [exec, relayMessage, requireAdminSender_bind_ok, read_bind_ok, require_bind_ok] at h
      obtain ⟨hfrom, hz, h⟩ := h
      exact ⟨hfrom, delegatecall_forwards rfl rfl rfl hz h⟩
  | relayTokens b d n c t =>
      simp only [exec, relayTokens, requireAdminSender_bind_ok, read_bind_ok, require_bind_ok] at h
      obtain ⟨hfrom, hz, h⟩ := h
      exact ⟨hfrom, delegatecall_forwards rfl rfl rfl hz h⟩

theorem dispatch_handled {data : Bytes} (h : Ok (dispatch K A msg data) s u s') : FromAdmin K msg s ∧
    ∃ c ns, decodeCall data = some c ∧ Handled c s s' ns := by
  rw [dispatch] at h
  split at h
  · rename_i c hc
    obtain ⟨hfrom, ns, hns⟩ := exec_handled h
    exact ⟨hfrom, c, ns, hc, hns⟩
  · exact ((revert_ok _ _ _ _).mp h).elim

end Steps

end Across.Forwarder
