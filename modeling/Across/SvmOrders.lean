import Across.SvmCalls

namespace Across.SvmOrders

open WordBytes Abi CallExec CallExec.Exec Borsh Codec SvmTypes SvmState SvmSteps MessageTranslation Sha256 SvmSpoke
  SvmCalls
open SvmProgram hiding Input Action Instruction process run

/-- What those in charge of the program can change. -/
structure Settings where
  pausedDeposits : Bool
  pausedFills : Bool
  owner : Pubkey
  crossDomainAdmin : Pubkey
  rootBundleId : U32
  routes : Pubkey → U64 → Option Bool
  roots : U32 → Option (Hash × Hash)

inductive Order
  | pauseDeposits (pause : Bool)
  | pauseFills (pause : Bool)
  | setCrossDomainAdmin (crossDomainAdmin : Pubkey)
  | setEnableRoute (originToken : Pubkey) (destinationChainId : U64) (enabled : Bool)
  | relayRootBundle (relayerRefundRoot slowRelayRoot : Hash)
  | emergencyDeleteRootBundle (rootBundleId : U32)
  | transferOwnership (newOwner : Pubkey)

def obey (s : Settings) : Order → Settings
  | .pauseDeposits b => { s with pausedDeposits := b }
  | .pauseFills b => { s with pausedFills := b }
  | .setCrossDomainAdmin k => { s with crossDomainAdmin := k }
  | .setEnableRoute t c e => { s with
      routes := Function.update s.routes t (Function.update (s.routes t) c (some e)) }
  | .relayRootBundle r l => { s with
      rootBundleId := s.rootBundleId + 1, roots := Function.update s.roots s.rootBundleId (some (r, l)) }
  | .emergencyDeleteRootBundle i => { s with roots := Function.update s.roots i none }
  | .transferOwnership k => { s with owner := k }

/-- The remote owner can give all orders but one. -/
def Order.isRemote : Order → Bool
  | .transferOwnership _ => false
  | _ => true

def argsOrder : (i : MessageTranslation.Instruction) → i.Args → Order
  | .pauseDeposits, b => .pauseDeposits b
  | .pauseFills, b => .pauseFills b
  | .setCrossDomainAdmin, k => .setCrossDomainAdmin k
  | .setEnableRoute, (t, c, e) => .setEnableRoute t c e
  | .relayRootBundle, (r, l) => .relayRootBundle r l
  | .emergencyDeleteRootBundle, i => .emergencyDeleteRootBundle i

/-- The order that a message of the root chain is. -/
def orderOfMessage (m : RootMessage) : Order := argsOrder m.instruction m.args

/-- The signer of an order, and the order. -/
def orderOf : SvmSpoke.Instruction → Option (Pubkey × Order)
  | .pauseDeposits x => some (x.signer, .pauseDeposits x.pause)
  | .transferOwnership x => some (x.signer, .transferOwnership x.newOwner)
  | .setCrossDomainAdmin x => some (x.signer, .setCrossDomainAdmin x.crossDomainAdmin)
  | .setEnableRoute x => some (x.signer, .setEnableRoute x.originToken x.destinationChainId x.enabled)
  | .spoke (.pauseFills x) => some (x.signer, .pauseFills x.pause)
  | .spoke (.relayRootBundle x) => some (x.signer, .relayRootBundle x.relayerRefundRoot x.slowRelayRoot)
  | .spoke (.emergencyDeleteRootBundle x) => some (x.signer, .emergencyDeleteRootBundle x.rootBundleId)
  | _ => none

def rootsOf (r : RootBundle) : Hash × Hash := (r.relayerRefundRoot, r.slowRelayRoot)

variable {W : Type}

def settings (a : Accounts W) : Settings where
  pausedDeposits := a.pausedDeposits
  pausedFills := a.bank.state.pausedFills
  owner := a.bank.state.owner
  crossDomainAdmin := a.bank.state.crossDomainAdmin
  rootBundleId := a.bank.state.rootBundleId
  routes := a.routes
  roots id := (a.bank.rootBundles id).map rootsOf

/-- What is set once and for all when the state is made. -/
structure Constants where
  chainId : U64
  remoteDomain : U32
  depositQuoteTimeBuffer : U32
  fillDeadlineBuffer : U32

def constants (a : Accounts W) : Constants where
  chainId := a.bank.state.chainId
  remoteDomain := a.bank.state.remoteDomain
  depositQuoteTimeBuffer := a.depositQuoteTimeBuffer
  fillDeadlineBuffer := a.fillDeadlineBuffer

variable {P : Programs W} {R : Runtime W} {a a' : Accounts W} {b b' : Bank W} {u : Unit}

section Steps

/-- What an instruction does to the settings, when it is an order `o` signed by an
account, or no order. -/
structure Effect (P : Programs W) (o : Option (Pubkey × Order)) (a a' : Accounts W) : Prop where
  live : a'.live = true
  constants : constants a' = constants a
  settings : settings a' = (o.map Prod.snd).elim (settings a) (obey (settings a))
  signed : ∀ signer x, o = some (signer, x) →
    signer = a.bank.state.owner ∨ signer = P.selfAuthority ∧ x.isRemote = true

theorem settings_rest (a : Accounts W) (t : Int) (w : W) :
    settings { a with bank := { a.bank with clock := t, rest := w } } = settings a := rfl

/-- An instruction of the bank that leaves the state and the roots alone. -/
theorem Effect.quiet (hl : a.live = true) (hs : b'.state = a.bank.state)
    (hr : ∀ id, (b'.rootBundles id).map rootsOf = (a.bank.rootBundles id).map rootsOf) :
    Effect P none a { a with bank := b' } := by
  refine ⟨hl, ?_, ?_, fun _ _ => nofun⟩
  · simp only [SvmOrders.constants, hs]
  · simp only [SvmOrders.settings, hs, hr]
    rfl

theorem signed_of_required {signer : Pubkey} {e : SvmState.Error} {f : Unit → Instr W Unit}
    (h : Ok (require (isLocalOrRemoteOwner R signer b.state = true) e >>= f) b u b') :
    signer = b.state.owner ∨ signer = R.selfAuthority :=
  of_decide_eq_true ((require_bind_ok _ _ _ _ _ _).mp h).1

theorem relayRootBundle_signed {x : RelayRootBundle} (h : Ok (relayRootBundle R x) b u b') :
    x.signer = b.state.owner ∨ x.signer = R.selfAuthority := by
  rw [relayRootBundle, read_bind_ok] at h
  exact signed_of_required h

theorem emergencyDeleteRootBundle_signed {x : EmergencyDeleteRootBundle}
    (h : Ok (emergencyDeleteRootBundle R x) b u b') : x.signer = b.state.owner ∨ x.signer = R.selfAuthority := by
  rw [emergencyDeleteRootBundle, read_bind_ok] at h
  exact signed_of_required h

theorem pauseFills_signed {x : PauseFills} (h : Ok (pauseFills R x) b u b') :
    x.signer = b.state.owner ∨ x.signer = R.selfAuthority := by
  rw [pauseFills, read_bind_ok] at h
  exact signed_of_required h

theorem signed_remote {signer : Pubkey} {o : Order} (ho : o.isRemote = true)
    (h : signer = a.bank.state.owner ∨ signer = P.selfAuthority) :
    ∀ k x, some (signer, o) = some (k, x) → k = a.bank.state.owner ∨ k = P.selfAuthority ∧ x.isRemote = true := by
  rintro k x hk
  obtain ⟨rfl, rfl⟩ := Prod.mk.inj (Option.some.inj hk)
  exact h.imp_right fun hs => ⟨hs, ho⟩

theorem roots_executed {x : ExecuteRelayerRefundLeaf} (h : Executed x b b') (id : U32) :
    (b'.rootBundles id).map rootsOf = (b.rootBundles id).map rootsOf := by
  obtain ⟨r, hr, -, -, hset⟩ := h.bundle
  rw [hset]
  by_cases hid : id = x.rootBundleId
  · rw [hid, Function.update_self, hr]
    rfl
  · rw [Function.update_of_ne hid]

theorem map_update {f : U32 → Option RootBundle} {id : U32} {o : Option RootBundle} :
    (fun i => (Function.update f id o i).map rootsOf) = Function.update (fun i => (f i).map rootsOf) id
      (o.map rootsOf) := by
  funext i
  by_cases hi : i = id
  · rw [hi, Function.update_self, Function.update_self]
  · rw [Function.update_of_ne hi, Function.update_of_ne hi]

theorem process_effect {i : SvmProgram.Instruction} (hl : a.live = true)
    (h : Ok (SvmProgram.process P.toRuntime i) a.bank u b') :
    Effect P (orderOf (.spoke i)) a { a with bank := b' } := by
  cases i with
  | fillV3Relay x =>
      obtain ⟨-, -, _, -, -, _, _, _, -, -, rfl⟩ := fillV3Relay_ok h
      exact .quiet hl rfl fun _ => rfl
  | closeFillPda x =>
      obtain ⟨-, -, _, -, -, _, rfl⟩ := closeFillPda_ok h
      exact .quiet hl rfl fun _ => rfl
  | requestV3SlowFill x =>
      obtain ⟨-, -, _, -, -, _, _, -, rfl⟩ := requestV3SlowFill_ok h
      exact .quiet hl rfl fun _ => rfl
  | executeV3SlowRelayLeaf x =>
      obtain ⟨-, -, _, -, -, _, rfl⟩ := executeV3SlowRelayLeaf_ok h
      exact .quiet hl rfl fun _ => rfl
  | executeRelayerRefundLeaf x =>
      have hx := executeRelayerRefundLeaf_ok h
      exact .quiet hl hx.same.2.1 (roots_executed hx)
  | initializeClaimAccount x =>
      obtain ⟨-, _, rfl⟩ := initializeClaimAccount_ok h
      exact .quiet hl rfl fun _ => rfl
  | claimRelayerRefund x =>
      obtain ⟨_, -, _, rfl⟩ := claimRelayerRefund_ok h
      exact .quiet hl rfl fun _ => rfl
  | closeClaimAccount x =>
      obtain ⟨_, -, -, _, rfl⟩ := closeClaimAccount_ok h
      exact .quiet hl rfl fun _ => rfl
  | bridgeTokensToHubPool x =>
      obtain ⟨_, -, -, _, rfl⟩ := bridgeTokensToHubPool_ok h
      exact .quiet hl rfl fun _ => rfl
  | relayRootBundle x =>
      have hs := relayRootBundle_signed h
      obtain ⟨-, -, _, rfl⟩ := relayRootBundle_ok h
      refine ⟨hl, rfl, ?_, signed_remote rfl hs⟩
      simp only [settings, map_update]
      rfl
  | emergencyDeleteRootBundle x =>
      have hs := emergencyDeleteRootBundle_signed h
      obtain ⟨-, _, rfl⟩ := emergencyDeleteRootBundle_ok h
      refine ⟨hl, rfl, ?_, signed_remote rfl hs⟩
      simp only [settings, map_update]
      rfl
  | pauseFills x =>
      have hs := pauseFills_signed h
      obtain rfl := pauseFills_ok h
      exact ⟨hl, rfl, rfl, signed_remote rfl hs⟩

theorem loadWhen_ok {p : Prop} [Decidable p] (h : Ok (when p loadState) a u a') : a = a' := by
  rcases (when_ok _ _ _ _ _).mp h with ⟨-, h⟩ | ⟨-, ha⟩
  · rw [loadState, read_bind_ok] at h
    exact ((require_ok _ _ _ _ _).mp h).2
  · exact ha

/-- An order takes effect when it is signed by the owner, or by the program itself
for the remote owner. Nothing else changes the settings. -/
theorem execute_effect {i : SvmSpoke.Instruction} (hl : a.live = true) (h : Ok (execute P i) a u a') :
    Effect P (orderOf i) a a' := by
  cases i with
  | initializeState x =>
      obtain ⟨hnone, -⟩ := initializeState_ok.mp h
      cases hl.symm.trans hnone
  | pauseDeposits x =>
      obtain ⟨-, h⟩ := loadState_bind_ok.mp h
      obtain ⟨hs, rfl⟩ := pauseDeposits_ok.mp h
      exact ⟨hl, rfl, rfl, signed_remote rfl hs⟩
  | transferOwnership x =>
      obtain ⟨-, h⟩ := loadState_bind_ok.mp h
      obtain ⟨hs, rfl⟩ := transferOwnership_ok.mp h
      refine ⟨hl, rfl, rfl, fun k y hk => ?_⟩
      obtain ⟨rfl, -⟩ := Prod.mk.inj (Option.some.inj hk)
      exact .inl hs
  | setCrossDomainAdmin x =>
      obtain ⟨-, h⟩ := loadState_bind_ok.mp h
      obtain ⟨hs, rfl⟩ := setCrossDomainAdmin_ok.mp h
      exact ⟨hl, rfl, rfl, signed_remote rfl hs⟩
  | setEnableRoute x =>
      obtain ⟨-, h⟩ := loadState_bind_ok.mp h
      obtain ⟨hs, -, _, ⟨w, t, rfl, -⟩, -, rfl⟩ := setEnableRoute_ok h
      exact ⟨hl, rfl, rfl, signed_remote rfl hs⟩
  | depositV3 x =>
      obtain ⟨-, h⟩ := loadState_bind_ok.mp h
      obtain ⟨-, w, -, rfl⟩ := depositV3_ok.mp h
      exact ⟨hl, rfl, rfl, fun _ _ => nofun⟩
  | spoke i =>
      obtain ⟨_, t, hload, h⟩ := (bind_ok _ _ _ _ _).mp h
      obtain ⟨b, hb, rfl⟩ := onBank_ok.mp h
      obtain rfl := loadWhen_ok hload
      exact process_effect hl hb

end Steps

section Messages

variable {x : HandleReceiveMessage} {r : Remaining}

/-- The entry finds the instruction that the discriminator was derived for. -/
theorem methodOf_name (i : MessageTranslation.Instruction) :
    methodNames.find? (fun name => decide (discriminator sha256 name = discriminator sha256 i.name)) =
      some i.name := by
  cases i <;> decide +kernel

theorem ofMessage_name (i : MessageTranslation.Instruction) :
    Instruction.ofMessage.find? (fun j => decide (j.name = i.name)) = some i := by
  cases i <;> rfl

theorem selfInstruction_instructionData (r : Remaining) (m : RootMessage) :
    selfInstruction P r (m.instructionData sha256) = .ok (signedBy P.selfAuthority r m.instruction m.args) := by
  have hlen : (discriminator sha256 m.instruction.name).length = 8 := by
    rw [discriminator, List.length_take, (sha256 _).property]
    rfl
  have hargs := deserialize_tryToVec m.args []
  rw [List.append_nil] at hargs
  have hmethod : methodOf (m.instructionData sha256) = some m.instruction.name := by
    rw [methodOf, RootMessage.instructionData, List.take_left' hlen]
    exact methodOf_name m.instruction
  rw [selfInstruction, hmethod]
  simp only [ofMessage_name]
  rw [RootMessage.instructionData, List.drop_left' hlen, hargs]

theorem translateMessage_encoded {data d : Bytes} : translateMessage sha256 data = .ok d ↔
    ∃ (m : RootMessage) (rest : Bytes), data = m.encodeWithSignature ++ rest ∧ d = m.instructionData sha256 := by
  rw [translateMessage_ok]
  constructor
  · rintro ⟨i, rest, hdata, h⟩
    obtain ⟨m, rfl, hr, hd⟩ := translate_ok.mp h
    rw [hdata, reads_iff (arguments_lt m) (length_selector _)] at hr
    obtain ⟨tail, rfl⟩ := hr
    exact ⟨m, tail, by rw [hdata, RootMessage.encodeWithSignature, List.append_assoc], hd⟩
  · rintro ⟨m, rest, rfl, hd⟩
    refine ⟨m.instruction, words m.arguments ++ rest, List.append_assoc _ _ _, translate_ok.mpr ⟨m, rfl, ?_, hd⟩⟩
    rw [RootMessage.encodeWithSignature, List.append_assoc, reads_iff (arguments_lt m) (length_selector _)]
    exact ⟨rest, rfl⟩

/-- The message is of the remote owner, and comes by way of the transmitter. -/
structure Admitted (P : Programs W) (x : HandleReceiveMessage) (a : Accounts W) : Prop where
  authority : P.transmitterAuthority x.authorityBump = some x.authorityPda
  remoteDomain : x.remoteDomain = a.bank.state.remoteDomain
  sender : x.sender = a.bank.state.crossDomainAdmin

theorem handleReceiveMessage_ok : Ok (handleReceiveMessage P x) a u a' ↔ a.live = true ∧ Admitted P x a ∧
    ∃ (m : RootMessage) (rest : Bytes), x.messageBody = m.encodeWithSignature ++ rest ∧
      Ok (execute P (signedBy P.selfAuthority x.remainingAccounts m.instruction m.args)) a u a' := by
  simp only [handleReceiveMessage, loadState_bind_ok, read_bind_ok, require_bind_ok]
  constructor
  · rintro ⟨hl, ha, hd, hs, h⟩
    refine ⟨hl, ⟨ha, hd, hs⟩, ?_⟩
    cases ht : translateMessage sha256 x.messageBody with
    | error f =>
        rw [ht] at h
        exact ((revert_ok _ _ _ _).mp h).elim
    | ok data =>
        obtain ⟨m, rest, hbody, rfl⟩ := translateMessage_encoded.mp ht
        simp only [ht, invokeSelf, selfInstruction_instructionData] at h
        exact ⟨m, rest, hbody, h⟩
  · rintro ⟨hl, ⟨ha, hd, hs⟩, m, rest, hbody, h⟩
    have ht := translateMessage_encoded.mpr ⟨m, rest, hbody, rfl⟩
    refine ⟨hl, ha, hd, hs, ?_⟩
    simp only [ht, invokeSelf, selfInstruction_instructionData]
    exact h

theorem execute_spoke_ok {i : SvmProgram.Instruction} (hi : usesState i = true) : Ok (execute P (.spoke i)) a u a' ↔
    a.live = true ∧ ∃ b, Ok (SvmProgram.process P.toRuntime i) a.bank u b ∧ { a with bank := b } = a' := by
  have he : execute P (.spoke i) = loadState >>= fun _ => onBank (SvmProgram.process P.toRuntime i) := by
    rw [execute, when, if_pos hi]
  rw [he, loadState_bind_ok, onBank_ok]

theorem requireOwner_resigned {s s' : Pubkey} {f : Unit → Code W Unit}
    (hs : s' = a.bank.state.owner ∨ s' = P.selfAuthority) (h : Ok (requireOwner P s >>= f) a u a') :
    Ok (requireOwner P s' >>= f) a u a' :=
  requireOwner_bind_ok.mpr ⟨hs, (requireOwner_bind_ok.mp h).2⟩

theorem required_resigned {s s' : Pubkey} {e : SvmState.Error} {f : Unit → Instr W Unit}
    (hs : s' = b.state.owner ∨ s' = R.selfAuthority)
    (h : Ok (require (isLocalOrRemoteOwner R s b.state = true) e >>= f) b u b') :
    Ok (require (isLocalOrRemoteOwner R s' b.state = true) e >>= f) b u b' :=
  (require_bind_ok _ _ _ _ _ _).mpr ⟨decide_eq_true hs, ((require_bind_ok _ _ _ _ _ _).mp h).2⟩

/-- Both owners can sign what a message can be. -/
theorem execute_resigned {s s' : Pubkey} {i : MessageTranslation.Instruction} {args : i.Args}
    (hs : s' = a.bank.state.owner ∨ s' = P.selfAuthority) (h : Ok (execute P (signedBy s r i args)) a u a') :
    Ok (execute P (signedBy s' r i args)) a u a' := by
  cases i with
  | pauseDeposits | setCrossDomainAdmin | setEnableRoute =>
      obtain ⟨hl, h⟩ := loadState_bind_ok.mp h
      exact loadState_bind_ok.mpr ⟨hl, requireOwner_resigned hs h⟩
  | pauseFills | relayRootBundle | emergencyDeleteRootBundle =>
      obtain ⟨hl, b, hb, hset⟩ := (execute_spoke_ok rfl).mp h
      have hread := (read_bind_ok _ _ _ _).mp hb
      refine (execute_spoke_ok rfl).mpr ⟨hl, b, ?_, hset⟩
      exact (read_bind_ok _ _ _ _).mpr (required_resigned hs hread)

/-- A message of the remote owner does what the owner's instruction with the same
values does, and fails where that fails. -/
theorem message_is_owners_instruction (P : Programs W) (x : HandleReceiveMessage) (a a' : Accounts W) :
    Ok (process P (.message x)) a () a' ↔ a.live = true ∧ Admitted P x a ∧
      ∃ (m : RootMessage) (rest : Bytes), x.messageBody = m.encodeWithSignature ++ rest ∧
        Ok (process P (.direct (signedBy a.bank.state.owner x.remainingAccounts m.instruction m.args))) a () a' := by
  change Ok (handleReceiveMessage P x) a () a' ↔ _
  rw [handleReceiveMessage_ok]
  refine and_congr_right fun _ => and_congr_right fun _ => exists_congr fun m => exists_congr fun _ => ?_
  exact and_congr_right fun _ => ⟨execute_resigned (.inl rfl), execute_resigned (.inr rfl)⟩

end Messages

section Runs

/-- The instruction that a call ends in. -/
def ends (P : Programs W) : Call → Option SvmSpoke.Instruction
  | .direct i => some i
  | .message x =>
      match translateMessage sha256 x.messageBody with
      | .error _ => none
      | .ok data => (selfInstruction P x.remainingAccounts data).toOption

def orderOfCall (P : Programs W) (c : Call) : Option Order := (ends P c).bind fun i => (orderOf i).map Prod.snd

/-- An order that was given, and the call that gave it. -/
structure Issue where
  call : Call
  order : Order

def issue (P : Programs W) (a : Accounts W) (i : Input W) : Option Issue :=
  match i.action with
  | .elsewhere _ => none
  | .call c =>
      match (process P c (tick a i.time)).result with
      | .ok _ => (orderOfCall P c).map fun o => ⟨c, o⟩
      | .error _ => none

/-- The orders that a run gives, in their order. -/
def issues (P : Programs W) : Accounts W → List (Input W) → List Issue
  | _, [] => []
  | a, i :: is => (issue P a i).toList ++ issues P (step P a i) is

def obeyAll (s : Settings) (xs : List Issue) : Settings := xs.foldl (fun s x => obey s x.order) s

/-- Under the settings at its time, the owner signs the order, or the remote owner
sends it from the remote domain. -/
def Authorised (P : Programs W) (remoteDomain : U32) (s : Settings) (x : Issue) : Prop :=
  match x.call with
  | .direct i => orderOf i = some (s.owner, x.order)
  | .message y => P.transmitterAuthority y.authorityBump = some y.authorityPda ∧ y.remoteDomain = remoteDomain ∧
      y.sender = s.crossDomainAdmin ∧ ∃ (m : RootMessage) (rest : Bytes),
        y.messageBody = m.encodeWithSignature ++ rest ∧ x.order = orderOfMessage m

/-- Nobody but the program signs with its authority. -/
def Unforged (P : Programs W) (inputs : List (Input W)) : Prop :=
  ∀ i ∈ inputs, ∀ j, i.action = .call (.direct j) → ∀ signer o, orderOf j = some (signer, o) →
    signer ≠ P.selfAuthority

variable {i : Input W} {is : List (Input W)}

/-- What a step does to the settings, when it gives the order `o` or none. -/
structure Governed (P : Programs W) (o : Option Issue) (a a' : Accounts W) : Prop where
  constants : constants a' = constants a
  settings : settings a' = obeyAll (settings a) o.toList
  authorised : ∀ x, o = some x → Authorised P a.bank.state.remoteDomain (SvmOrders.settings a) x

theorem orderOf_signedBy (s : Pubkey) (r : Remaining) (i : MessageTranslation.Instruction) (args : i.Args) :
    orderOf (signedBy s r i args) = some (s, argsOrder i args) := by
  cases i <;> rfl

theorem direct_governed {j : SvmSpoke.Instruction} (hl : a.live = true)
    (hj : ∀ signer o, orderOf j = some (signer, o) → signer ≠ P.selfAuthority) (h : Ok (execute P j) a u a') :
    Governed P ((orderOfCall P (.direct j)).map fun o => ⟨.direct j, o⟩) a a' := by
  have he := execute_effect hl h
  have horder : orderOfCall P (.direct j) = (orderOf j).map Prod.snd := rfl
  rw [horder]
  cases ho : orderOf j with
  | none =>
      rw [ho] at he
      exact ⟨he.constants, he.settings, fun _ => nofun⟩
  | some p =>
      obtain ⟨signer, o⟩ := p
      rw [ho] at he
      refine ⟨he.constants, he.settings, fun x hx => ?_⟩
      obtain rfl := Option.some.inj hx
      have hs : signer = a.bank.state.owner := (he.signed signer o rfl).resolve_right fun hs => hj signer o ho hs.1
      change orderOf j = some (a.bank.state.owner, o)
      rw [ho, hs]

theorem ends_message {x : HandleReceiveMessage} {m : RootMessage} {rest : Bytes}
    (hbody : x.messageBody = m.encodeWithSignature ++ rest) :
    ends P (.message x) = some (signedBy P.selfAuthority x.remainingAccounts m.instruction m.args) := by
  have ht := translateMessage_encoded.mpr ⟨m, rest, hbody, rfl⟩
  simp only [ends, ht, selfInstruction_instructionData]
  rfl

theorem message_governed {x : HandleReceiveMessage} (hl : a.live = true)
    (h : Ok (handleReceiveMessage P x) a u a') :
    Governed P ((orderOfCall P (.message x)).map fun o => ⟨.message x, o⟩) a a' := by
  obtain ⟨-, ⟨hauth, hdomain, hsender⟩, m, rest, hbody, hexec⟩ := handleReceiveMessage_ok.mp h
  have he := execute_effect hl hexec
  have horder : orderOfCall P (.message x) = some (orderOfMessage m) := by
    rw [orderOfCall, ends_message hbody, Option.bind_some, orderOf_signedBy]
    rfl
  rw [orderOf_signedBy] at he
  rw [horder]
  refine ⟨he.constants, he.settings, fun y hy => ?_⟩
  obtain rfl := Option.some.inj hy
  exact ⟨hauth, hdomain, hsender, m, rest, hbody, rfl⟩

theorem step_governed (hl : a.live = true) (hu : Unforged P [i]) : Governed P (issue P a i) a (step P a i) := by
  cases hi : i.action with
  | elsewhere f =>
      simp only [issue, step, hi]
      exact ⟨rfl, rfl, fun _ => nofun⟩
  | call c =>
      cases hr : (process P c (tick a i.time)).result with
      | error e =>
          simp only [issue, step, hi, hr]
          exact ⟨rfl, rfl, fun _ => nofun⟩
      | ok p =>
          obtain ⟨u, a'⟩ := p
          simp only [issue, step, hi, hr]
          cases c with
          | direct j =>
              have hg := direct_governed (a := tick a i.time) hl
                (fun s o ho => hu i List.mem_cons_self j hi s o ho) hr
              exact ⟨hg.constants, hg.settings, hg.authorised⟩
          | message x =>
              have hg := message_governed (a := tick a i.time) hl hr
              exact ⟨hg.constants, hg.settings, hg.authorised⟩

/-- The state stays once it is made. -/
theorem step_live (hl : a.live = true) : (step P a i).live = true := by
  cases hi : i.action with
  | elsewhere f =>
      simp only [step, hi]
      exact hl
  | call c =>
      cases hr : (process P c (tick a i.time)).result with
      | error e =>
          simp only [step, hi, hr]
          exact hl
      | ok p =>
          simp only [step, hi, hr]
          cases c with
          | direct j => exact (execute_effect (a := tick a i.time) hl hr).live
          | message x =>
              obtain ⟨-, -, _, _, -, hexec⟩ := handleReceiveMessage_ok.mp hr
              exact (execute_effect (a := tick a i.time) hl hexec).live

theorem Unforged.head (h : Unforged P (i :: is)) : Unforged P [i] := by
  intro j hj
  rw [List.mem_singleton.mp hj]
  exact h i List.mem_cons_self

theorem Unforged.tail (h : Unforged P (i :: is)) : Unforged P is := fun j hj => h j (List.mem_cons_of_mem i hj)

/-- From a state that is made, the settings are what the orders of the run make of
them, each authorised at its time. -/
theorem run_governed (hl : a.live = true) (hu : Unforged P is) :
    constants (run P a is) = constants a ∧ settings (run P a is) = obeyAll (settings a) (issues P a is) ∧
      ∀ before x after, issues P a is = before ++ x :: after →
        Authorised P a.bank.state.remoteDomain (obeyAll (settings a) before) x := by
  induction is generalizing a with
  | nil => exact ⟨rfl, rfl, fun before x after h => by cases before <;> cases h⟩
  | cons i is ih =>
      have hg := step_governed hl hu.head
      obtain ⟨hconst, hset, hauth⟩ := ih (step_live hl) hu.tail
      have hdomain : (step P a i).bank.state.remoteDomain = a.bank.state.remoteDomain :=
        congrArg Constants.remoteDomain hg.constants
      refine ⟨hconst.trans hg.constants, ?_, fun before x after h => ?_⟩
      · change settings (run P (step P a i) is) = _
        rw [hset, hg.settings, obeyAll, obeyAll, obeyAll, issues, List.foldl_append]
      · rw [issues] at h
        rw [hdomain, hg.settings] at hauth
        cases ho : issue P a i with
        | none =>
            rw [ho] at h hauth
            exact hauth before x after h
        | some y =>
            rw [ho] at h hauth
            cases before with
            | nil =>
                obtain ⟨rfl, -⟩ := List.cons.inj h
                exact hg.authorised _ ho
            | cons z before =>
                obtain ⟨rfl, htail⟩ := List.cons.inj h
                exact hauth before x after htail

end Runs

section Beginnings

def isClaimItem : Item → Bool
  | .created (.claimAccount _ _) _ | .closed (.claimAccount _ _) _ => true
  | _ => false

/-- The state is not made yet. -/
structure Dormant (a : Accounts W) : Prop where
  live : a.live = false
  routes : ∀ t c, a.routes t c = none
  rootBundles : ∀ id, a.bank.rootBundles id = none
  rootBundleId : a.bank.state.rootBundleId = 0
  fillStatuses : ∀ h, a.bank.fillStatuses h = none
  log : a.log = []
  trace : ∀ y ∈ a.bank.trace, isClaimItem y = true

def initialSettings (x : Initialize) : Settings where
  pausedDeposits := false
  pausedFills := false
  owner := x.signer
  crossDomainAdmin := x.crossDomainAdmin
  rootBundleId := 0
  routes _ _ := none
  roots _ := none

/-- The state has just been made from the values of `x`. -/
def Founded (x : Initialize) (a : Accounts W) : Prop := x.seed = 0 ∧ ∃ d w, Dormant d ∧ a = founded x d w

theorem Founded.constants {x : Initialize} (h : Founded x a) :
    constants a = ⟨x.chainId, x.remoteDomain, x.depositQuoteTimeBuffer, x.fillDeadlineBuffer⟩ := by
  obtain ⟨-, d, w, -, rfl⟩ := h
  rfl

theorem Founded.settings {x : Initialize} (h : Founded x a) : settings a = initialSettings x := by
  obtain ⟨-, d, w, hd, rfl⟩ := h
  have hroutes : d.routes = fun _ _ => none := funext fun t => funext fun c => hd.routes t c
  have hroots : d.bank.rootBundles = fun _ => none := funext hd.rootBundles
  simp only [SvmOrders.settings, founded, hroutes, hroots]
  rfl

theorem Founded.live {x : Initialize} (h : Founded x a) : a.live = true := by
  obtain ⟨-, d, w, -, rfl⟩ := h
  rfl

theorem Dormant.claims {t : List Item} {c : Pubkey → Pubkey → Option ClaimAccount} {w : W} (hd : Dormant a)
    (ht : ∀ y ∈ t, isClaimItem y = true) :
    Dormant { a with bank := { a.bank with claimAccounts := c, rest := w, trace := a.bank.trace ++ t } } := by
  refine ⟨hd.live, hd.routes, hd.rootBundles, hd.rootBundleId, hd.fillStatuses, hd.log, fun y hy => ?_⟩
  rcases List.mem_append.mp hy with hy | hy
  · exact hd.trace y hy
  · exact ht y hy

theorem Dormant.tick (hd : Dormant a) (t : Int) (w : W) :
    Dormant { a with bank := { a.bank with clock := t, rest := w } } :=
  ⟨hd.live, hd.routes, hd.rootBundles, hd.rootBundleId, hd.fillStatuses, hd.log, hd.trace⟩

/-- Without the state only claim accounts are opened and closed. -/
theorem execute_dormant {j : SvmSpoke.Instruction} (hd : Dormant a) (h : Ok (execute P j) a u a') :
    Dormant a' ∨ ∃ x, j = .initializeState x ∧ Founded x a' := by
  have hdead : ¬ a.live = true := by
    rw [hd.live]
    exact Bool.false_ne_true
  cases j with
  | initializeState x =>
      obtain ⟨-, hseed, w, -, rfl⟩ := initializeState_ok.mp h
      exact .inr ⟨x, rfl, hseed, a, w, hd, rfl⟩
  | pauseDeposits _ | transferOwnership _ | setCrossDomainAdmin _ | setEnableRoute _ | depositV3 _ =>
      exact absurd (loadState_bind_ok.mp h).1 hdead
  | spoke i =>
      obtain ⟨_, t, hload, h⟩ := (bind_ok _ _ _ _ _).mp h
      obtain ⟨b, hb, rfl⟩ := onBank_ok.mp h
      rcases (when_ok _ _ _ _ _).mp hload with ⟨-, hload⟩ | ⟨hi, rfl⟩
      · rw [loadState, read_bind_ok] at hload
        exact absurd ((require_ok _ _ _ _ _).mp hload).1 hdead
      · left
        cases i with
        | initializeClaimAccount y =>
            obtain ⟨-, _, rfl⟩ := initializeClaimAccount_ok hb
            exact hd.claims fun z hz => by rw [List.mem_singleton.mp hz]; rfl
        | closeClaimAccount y =>
            obtain ⟨_, -, -, _, rfl⟩ := closeClaimAccount_ok hb
            exact hd.claims fun z hz => by rw [List.mem_singleton.mp hz]; rfl
        | _ => exact absurd rfl hi

theorem step_dormant {i : Input W} (hd : Dormant a) : Dormant (step P a i) ∨
    ∃ x, i.action = .call (.direct (.initializeState x)) ∧ Founded x (step P a i) := by
  have ht : Dormant (tick a i.time) := hd.tick i.time a.bank.rest
  cases hi : i.action with
  | elsewhere f =>
      simp only [step, hi]
      exact .inl (hd.tick i.time (f a.bank.rest))
  | call c =>
      cases hr : (process P c (tick a i.time)).result with
      | error e =>
          simp only [step, hi, hr]
          exact .inl ht
      | ok p =>
          simp only [step, hi, hr]
          cases c with
          | direct j =>
              rcases execute_dormant ht hr with hnext | ⟨x, rfl, hx⟩
              · exact .inl hnext
              · exact .inr ⟨x, rfl, hx⟩
          | message x =>
              have hlive := (handleReceiveMessage_ok.mp hr).1
              rw [ht.live] at hlive
              cases hlive

theorem run_dormant (is : List (Input W)) (hd : Dormant a) : Dormant (run P a is) ∨ ∃ before i x after,
    is = before ++ i :: after ∧ i.action = .call (.direct (.initializeState x)) ∧
      Founded x (step P (run P a before) i) := by
  induction is generalizing a with
  | nil => exact .inl hd
  | cons i is ih =>
      rcases step_dormant hd with hnext | ⟨x, hi, hx⟩
      · rcases ih hnext with hrun | ⟨before, j, x, after, rfl, hj, hx⟩
        · exact .inl hrun
        · exact .inr ⟨i :: before, j, x, after, rfl, hj, hx⟩
      · exact .inr ⟨[], i, x, is, rfl, hi, hx⟩

theorem blank_dormant (w : W) : Dormant (blank w) :=
  ⟨rfl, fun _ _ => rfl, fun _ => rfl, rfl, fun _ => rfl, rfl, fun _ hy => absurd hy List.not_mem_nil⟩

theorem run_append (before after : List (Input W)) : run P a (before ++ after) = run P (run P a before) after :=
  List.foldl_append

/-- The state is made once, and from then on its settings are the initial ones
changed by the orders of the run, in their sequence. Each order is signed by the
owner of its time or sent by the remote owner of its time, from the domain that
was set at the beginning, and no message hands over the ownership. -/
theorem orders_are_authorised (P : Programs W) (w : W) (inputs : List (Input W)) (hu : Unforged P inputs) :
    Dormant (run P (blank w) inputs) ∨ ∃ before i x after, inputs = before ++ i :: after ∧
      i.action = .call (.direct (.initializeState x)) ∧ x.seed = 0 ∧ ∃ orders,
        orders = issues P (step P (run P (blank w) before) i) after ∧
        constants (run P (blank w) inputs) =
          ⟨x.chainId, x.remoteDomain, x.depositQuoteTimeBuffer, x.fillDeadlineBuffer⟩ ∧
        settings (run P (blank w) inputs) = obeyAll (initialSettings x) orders ∧
        ∀ pre y post, orders = pre ++ y :: post →
          Authorised P x.remoteDomain (obeyAll (initialSettings x) pre) y := by
  rcases run_dormant (P := P) inputs (blank_dormant w) with hd | ⟨before, i, x, after, rfl, hi, hx⟩
  · exact .inl hd
  · have hafter : Unforged P after := fun j hj => hu j (List.mem_append_right _ (List.mem_cons_of_mem _ hj))
    obtain ⟨hconst, hset, hauth⟩ := run_governed hx.live hafter
    have hdomain : (step P (run P (blank w) before) i).bank.state.remoteDomain = x.remoteDomain :=
      congrArg Constants.remoteDomain hx.constants
    rw [hx.settings] at hset hauth
    rw [hdomain] at hauth
    have hrun : run P (blank w) (before ++ i :: after) = run P (step P (run P (blank w) before) i) after :=
      run_append before (i :: after)
    rw [hrun]
    exact .inr ⟨before, i, x, after, rfl, hi, hx.1, _, rfl, hconst.trans hx.constants, hset, hauth⟩

def samplePrograms : Programs (Pubkey → Nat) := { sampleRuntime with
  transmitterAuthority := fun bump => if bump = 1 then some 99 else none
  openAccount := fun _ _ w => some w }

def sampleState : Initialize := ⟨3, 0, 0, 7, 0, 4, 3600, 7200⟩

/-- Account 3 makes the state, and account 4 of the root chain sends a bundle. -/
def sampleInputs (r l : Hash) : List (Input (Pubkey → Nat)) :=
  [⟨10, .call (.direct (.initializeState sampleState))⟩,
    ⟨11, .call (.message ⟨99, 0, 4, (RootMessage.relayRootBundle r l).encodeWithSignature, 1, ⟨31, 31, 1, 5, 6⟩⟩)⟩]

theorem sampleInputs_unforged (r l : Hash) : Unforged samplePrograms (sampleInputs r l) := by
  intro i hi j hj signer o ho
  rcases List.mem_pair.mp hi with rfl | rfl
  · obtain rfl : .initializeState sampleState = j := by injection hj with h; injection h
    cases ho
  · injection hj with h
    cases h

theorem step_of_ok {c : Call} {t : Int} (h : Ok (process P c) (tick a t) u a') : step P a ⟨t, .call c⟩ = a' := by
  rw [Ok] at h
  simp only [step, h]

def sampleMade : Accounts (Pubkey → Nat) := founded sampleState (tick (blank fun _ => 100) 10) fun _ => 100

/-- The accounts once the bundle is there. -/
def sampleRelayed (r l : Hash) : Accounts (Pubkey → Nat) := { sampleMade with
  bank := { sampleMade.bank with
    clock := 11
    state := { sampleMade.bank.state with rootBundleId := 1 }
    rootBundles := Function.update sampleMade.bank.rootBundles 0 (some ⟨r, l, [], rootBundleSpace⟩)
    trace := [.created (.rootBundle 0) 31, .emitted (.relayedRootBundle 0 r l)] } }

theorem sampleInputs_run (r l : Hash) :
    run samplePrograms (blank fun _ => 100) (sampleInputs r l) = sampleRelayed r l := by
  have hmade : Ok (process samplePrograms (.direct (.initializeState sampleState))) (tick (blank fun _ => 100) 10) ()
      sampleMade := rfl
  have hrelayed : Ok (execute samplePrograms (.spoke (.relayRootBundle ⟨2, 31, r, l⟩))) (tick sampleMade 11) ()
      (sampleRelayed r l) := rfl
  have hmessage : Ok (process samplePrograms (.message ⟨99, 0, 4, (RootMessage.relayRootBundle r l).encodeWithSignature,
      1, ⟨31, 31, 1, 5, 6⟩⟩)) (tick sampleMade 11) () (sampleRelayed r l) :=
    handleReceiveMessage_ok.mpr ⟨rfl, ⟨rfl, rfl, rfl⟩, .relayRootBundle r l, [], (List.append_nil _).symm, hrelayed⟩
  rw [sampleInputs, run, List.foldl_cons, List.foldl_cons, List.foldl_nil, step_of_ok hmade, step_of_ok hmessage]

theorem sampleInputs_ordered : ∃ before i x after, sampleInputs 7 8 = before ++ i :: after ∧
    i.action = .call (.direct (.initializeState x)) ∧ x.seed = 0 ∧ ∃ orders,
      orders = issues samplePrograms (step samplePrograms (run samplePrograms (blank fun _ => 100) before) i) after ∧
      constants (run samplePrograms (blank fun _ => 100) (sampleInputs 7 8)) =
        ⟨x.chainId, x.remoteDomain, x.depositQuoteTimeBuffer, x.fillDeadlineBuffer⟩ ∧
      settings (run samplePrograms (blank fun _ => 100) (sampleInputs 7 8)) = obeyAll (initialSettings x) orders ∧
      ∀ pre y post, orders = pre ++ y :: post →
        Authorised samplePrograms x.remoteDomain (obeyAll (initialSettings x) pre) y := by
  rcases orders_are_authorised samplePrograms (fun _ => 100) (sampleInputs 7 8) (sampleInputs_unforged 7 8) with
    hd | hrun
  · have hlive := hd.live
    rw [sampleInputs_run] at hlive
    cases hlive
  · exact hrun

end Beginnings

end Across.SvmOrders
