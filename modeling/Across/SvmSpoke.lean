import Across.MessageTranslation
import Across.Sha256
import Across.SvmProgram

namespace Across.SvmSpoke

open WordBytes CallExec CallExec.Exec Borsh Codec SvmTypes SvmState SvmProgram MessageTranslation Sha256

/-- The reasons that the whole program has for failing. -/
inductive Failure
  | spoke (e : SvmState.Error)
  | disabledRoute
  | invalidQuoteTimestamp
  | invalidFillDeadline
  | depositsArePaused
  | invalidRemoteDomain
  | invalidRemoteSender
  | invalidProductionSeed
  | constraintSeeds
  | callData (f : MessageTranslation.Failure)
  | instructionFallbackNotFound
  | instructionDidNotDeserialize

structure V3FundsDeposited where
  inputToken : Pubkey
  outputToken : Pubkey
  inputAmount : U64
  outputAmount : U64
  destinationChainId : U64
  depositId : U32
  quoteTimestamp : U32
  fillDeadline : U32
  exclusivityDeadline : U32
  depositor : Pubkey
  recipient : Pubkey
  exclusiveRelayer : Pubkey
  message : Vector8

/-- The accounts that only these instructions create: the state, a route, and the
token account of the state for a mint. -/
inductive Opened
  | state
  | route (originToken : Pubkey) (destinationChainId : U64)
  | vault (mint tokenProgram : Pubkey)

inductive Entry
  | opened (account : Opened) (payer : Pubkey)
  | transferred (mint src dst : Pubkey) (amount : U64)
  | v3FundsDeposited (e : V3FundsDeposited)
  | pausedDeposits (isPaused : Bool)
  | setXDomainAdmin (newAdmin : Pubkey)
  | enabledDepositRoute (originToken : Pubkey) (destinationChainId : U64) (enabled : Bool)

/-- All accounts of the program. `live` is whether the state account exists, `routes`
holds the route accounts under their seeds, and `log` is the history of what is
not in the bank's. -/
structure Accounts (W : Type) where
  bank : Bank W
  live : Bool
  pausedDeposits : Bool
  numberOfDeposits : U32
  depositQuoteTimeBuffer : U32
  fillDeadlineBuffer : U32
  routes : Pubkey → U64 → Option Bool
  log : List Entry

/-- The address that the message transmitter signs with is derived with a bump, and
not every bump gives one. -/
structure Programs (W : Type) extends Runtime W where
  transmitterAuthority : UInt8 → Option Pubkey
  openAccount : Pubkey → Opened → W → Option W

abbrev Code (W α : Type) := Exec (Accounts W) Empty Failure α

section Primitives

variable {W : Type} (P : Programs W)

/-- An instruction on the accounts of the bank. -/
def onBank {α : Type} (m : Instr W α) : Code W α := zoom Accounts.bank (fun b a => { a with bank := b }) .spoke m

def setState (f : State → State) : Code W Unit :=
  update fun a => { a with bank := { a.bank with state := f a.bank.state } }

def record (e : Entry) : Code W Unit := update fun a => { a with log := a.log ++ [e] }

/-- Every instruction with the state among its accounts fails without it. -/
def loadState : Code W Unit := do
  let a ← read
  require (a.live = true) (.spoke .accountNotInitialized)

def requireOwner (signer : Pubkey) : Code W Unit := do
  let a ← read
  require (isLocalOrRemoteOwner P.toRuntime signer a.bank.state = true) (.spoke .notOwner)

/-- Change what other programs hold, or fail with them. -/
def callOut (f : W → Option W) (e : SvmState.Error) (x : Entry) : Code W Unit := do
  let a ← read
  match f a.bank.rest with
  | none => revert (.spoke e)
  | some w => update fun a => { a with bank := { a.bank with rest := w }, log := a.log ++ [x] }

def openAccount (payer : Pubkey) (account : Opened) : Code W Unit :=
  callOut (P.openAccount payer account) .rentNotPaid (.opened account payer)

end Primitives

section Admin

variable {W : Type} (P : Programs W)

structure Initialize where
  signer : Pubkey
  seed : U64
  initialNumberOfDeposits : U32
  chainId : U64
  remoteDomain : U32
  crossDomainAdmin : Pubkey
  depositQuoteTimeBuffer : U32
  fillDeadlineBuffer : U32

/-- The state account of another seed is another account, but production has only
seed zero. -/
def initializeState (x : Initialize) : Code W Unit := do
  let a ← read
  require (x.seed ≠ 0 ∨ a.live = false) (.spoke .accountAlreadyInUse)
  openAccount P x.signer .state
  require (x.seed = 0) .invalidProductionSeed
  update fun a => { a with
    bank := { a.bank with state := ⟨false, x.signer, x.chainId, x.remoteDomain, x.crossDomainAdmin, 0⟩ }
    live := true
    pausedDeposits := false
    numberOfDeposits := x.initialNumberOfDeposits
    depositQuoteTimeBuffer := x.depositQuoteTimeBuffer
    fillDeadlineBuffer := x.fillDeadlineBuffer }

structure PauseDeposits where
  signer : Pubkey
  pause : Bool

def pauseDeposits (x : PauseDeposits) : Code W Unit := do
  requireOwner P x.signer
  update fun a => { a with pausedDeposits := x.pause }
  record (.pausedDeposits x.pause)

structure TransferOwnership where
  signer : Pubkey
  newOwner : Pubkey

/-- The remote owner cannot do this. -/
def transferOwnership (x : TransferOwnership) : Code W Unit := do
  let a ← read
  require (x.signer = a.bank.state.owner) (.spoke .notOwner)
  setState fun s => { s with owner := x.newOwner }

structure SetCrossDomainAdmin where
  signer : Pubkey
  crossDomainAdmin : Pubkey

def setCrossDomainAdmin (x : SetCrossDomainAdmin) : Code W Unit := do
  requireOwner P x.signer
  setState fun s => { s with crossDomainAdmin := x.crossDomainAdmin }
  record (.setXDomainAdmin x.crossDomainAdmin)

structure SetEnableRoute where
  signer : Pubkey
  payer : Pubkey
  vault : Pubkey
  originTokenMint : Pubkey
  tokenProgram : Pubkey
  originToken : Pubkey
  destinationChainId : U64
  enabled : Bool

/-- `init_if_needed` on the route. -/
def initRoute (payer originToken : Pubkey) (destinationChainId : U64) : Code W Unit := do
  let a ← read
  match a.routes originToken destinationChainId with
  | some _ => pure ()
  | none => openAccount P payer (.route originToken destinationChainId)

/-- `init_if_needed` on the token account of the state. -/
def initVault (payer vault mint tokenProgram : Pubkey) : Code W Unit := do
  let a ← read
  match P.tokenAccount a.bank.rest vault with
  | some _ => pure ()
  | none => openAccount P payer (.vault mint tokenProgram)

def setRoute (originToken : Pubkey) (destinationChainId : U64) (enabled : Bool) : Code W Unit :=
  update fun a => { a with
    routes := Function.update a.routes originToken
      (Function.update (a.routes originToken) destinationChainId (some enabled)) }

def setEnableRoute (x : SetEnableRoute) : Code W Unit := do
  requireOwner P x.signer
  initRoute P x.payer x.originToken x.destinationChainId
  initVault P x.payer x.vault x.originTokenMint x.tokenProgram
  onBank (checkAssociated P.toRuntime x.vault x.originTokenMint P.stateKey x.tokenProgram)
  onBank (checkMint P.toRuntime x.originTokenMint x.tokenProgram x.originToken)
  setRoute x.originToken x.destinationChainId x.enabled
  record (.enabledDepositRoute x.originToken x.destinationChainId x.enabled)

end Admin

section Deposits

variable {W : Type} (P : Programs W)

structure DepositV3 where
  signer : Pubkey
  userTokenAccount : Pubkey
  vault : Pubkey
  mint : Pubkey
  tokenProgram : Pubkey
  depositor : Pubkey
  recipient : Pubkey
  inputToken : Pubkey
  outputToken : Pubkey
  inputAmount : U64
  outputAmount : U64
  destinationChainId : U64
  exclusiveRelayer : Pubkey
  quoteTimestamp : U32
  fillDeadline : U32
  exclusivityDeadline : U32
  message : Vector8

def DepositV3.event (x : DepositV3) (depositId : U32) : V3FundsDeposited where
  inputToken := x.inputToken
  outputToken := x.outputToken
  inputAmount := x.inputAmount
  outputAmount := x.outputAmount
  destinationChainId := x.destinationChainId
  depositId := depositId
  quoteTimestamp := x.quoteTimestamp
  fillDeadline := x.fillDeadline
  exclusivityDeadline := x.exclusivityDeadline
  depositor := x.depositor
  recipient := x.recipient
  exclusiveRelayer := x.exclusiveRelayer
  message := x.message

/-- The arithmetic of `u32` aborts where it overflows: a quote from the future, a
time too close to its end, and the last deposit id. -/
def depositV3 (x : DepositV3) : Code W Unit := do
  let a ← read
  let enabled ← onBank (loaded (a.routes x.inputToken x.destinationChainId))
  let userAccount ← onBank (loaded (P.tokenAccount a.bank.rest x.userTokenAccount))
  require (a.pausedDeposits = false) .depositsArePaused
  require (userAccount.mint = x.mint ∧ userAccount.authority = x.signer ∧ userAccount.tokenProgram = x.tokenProgram)
    (.spoke .constraintToken)
  onBank (checkAssociated P.toRuntime x.vault x.mint P.stateKey x.tokenProgram)
  onBank (checkMint P.toRuntime x.mint x.tokenProgram x.inputToken)
  require (enabled = true) .disabledRoute
  let currentTime ← onBank getCurrentTime
  require (x.quoteTimestamp.toNat ≤ currentTime.toNat) (.spoke .overflow)
  require (currentTime.toNat - x.quoteTimestamp.toNat ≤ a.depositQuoteTimeBuffer.toNat) .invalidQuoteTimestamp
  require (currentTime.toNat ≤ x.fillDeadline.toNat) .invalidFillDeadline
  require (currentTime.toNat + a.fillDeadlineBuffer.toNat < 2 ^ 32) (.spoke .overflow)
  require (x.fillDeadline.toNat ≤ currentTime.toNat + a.fillDeadlineBuffer.toNat) .invalidFillDeadline
  callOut (P.transferChecked x.mint x.userTokenAccount x.vault x.signer x.inputAmount) .cpiFailed
    (.transferred x.mint x.userTokenAccount x.vault x.inputAmount)
  require (a.numberOfDeposits.toNat + 1 < 2 ^ 32) (.spoke .overflow)
  update fun a => { a with numberOfDeposits := a.numberOfDeposits + 1 }
  record (.v3FundsDeposited (x.event (a.numberOfDeposits + 1)))

end Deposits

section System

variable {W : Type} (P : Programs W)

inductive Instruction
  | initializeState (x : Initialize)
  | pauseDeposits (x : PauseDeposits)
  | transferOwnership (x : TransferOwnership)
  | setCrossDomainAdmin (x : SetCrossDomainAdmin)
  | setEnableRoute (x : SetEnableRoute)
  | depositV3 (x : DepositV3)
  | spoke (i : SvmProgram.Instruction)

/-- Claim accounts are opened and closed without the state. -/
def usesState : SvmProgram.Instruction → Bool
  | .initializeClaimAccount _ | .closeClaimAccount _ => false
  | _ => true

/-- The instructions, all but the one that brings a message. -/
def execute : Instruction → Code W Unit
  | .initializeState x => initializeState P x
  | .pauseDeposits x => do
      loadState
      pauseDeposits P x
  | .transferOwnership x => do
      loadState
      transferOwnership x
  | .setCrossDomainAdmin x => do
      loadState
      setCrossDomainAdmin P x
  | .setEnableRoute x => do
      loadState
      setEnableRoute P x
  | .depositV3 x => do
      loadState
      depositV3 P x
  | .spoke i => do
      when (usesState i = true) loadState
      onBank (SvmProgram.process P.toRuntime i)

end System

section Messages

variable {W : Type} (P : Programs W)

/-- The instructions by the names that their discriminators are derived from, in
the order of the program. -/
def methodNames : List String :=
  ["initialize", "set_current_time", "pause_deposits", "relay_root_bundle", "emergency_delete_root_bundle",
    "execute_relayer_refund_leaf", "pause_fills", "transfer_ownership", "set_enable_route", "set_cross_domain_admin",
    "deposit_v3", "fill_v3_relay", "close_fill_pda", "handle_receive_message", "request_v3_slow_fill",
    "execute_v3_slow_relay_leaf", "bridge_tokens_to_hub_pool", "initialize_instruction_params",
    "write_instruction_params_fragment", "close_instruction_params", "initialize_claim_account",
    "claim_relayer_refund", "close_claim_account"].map ("global:" ++ ·)

/-- The instruction that the entry of the program selects for its data. -/
def methodOf (data : Bytes) : Option String :=
  methodNames.find? fun name => decide (discriminator sha256 name = data.take 8)

def Instruction.ofMessage : List MessageTranslation.Instruction :=
  [.pauseDeposits, .pauseFills, .setCrossDomainAdmin, .setEnableRoute, .relayRootBundle, .emergencyDeleteRootBundle]

/-- The accounts of a self-invoked instruction that its constraints leave open. -/
structure Remaining where
  payer : Pubkey
  closer : Pubkey
  vault : Pubkey
  originTokenMint : Pubkey
  tokenProgram : Pubkey

/-- The instruction that an account signs with these arguments. -/
def signedBy (signer : Pubkey) (r : Remaining) : (i : MessageTranslation.Instruction) → i.Args → Instruction
  | .pauseDeposits, pause => .pauseDeposits ⟨signer, pause⟩
  | .pauseFills, pause => .spoke (.pauseFills ⟨signer, pause⟩)
  | .setCrossDomainAdmin, admin => .setCrossDomainAdmin ⟨signer, admin⟩
  | .setEnableRoute, (token, chain, enabled) =>
      .setEnableRoute ⟨signer, r.payer, r.vault, r.originTokenMint, r.tokenProgram, token, chain, enabled⟩
  | .relayRootBundle, (relayerRefundRoot, slowRelayRoot) =>
      .spoke (.relayRootBundle ⟨signer, r.payer, relayerRefundRoot, slowRelayRoot⟩)
  | .emergencyDeleteRootBundle, rootBundleId => .spoke (.emergencyDeleteRootBundle ⟨signer, r.closer, rootBundleId⟩)

/-- The arguments are read off the data behind the discriminator, and what follows
them is ignored. Other instructions than the six of messages are not invoked so. -/
def selfInstruction (r : Remaining) (data : Bytes) : Except Failure Instruction :=
  match methodOf data with
  | none => .error .instructionFallbackNotFound
  | some name =>
      match Instruction.ofMessage.find? fun i => decide (i.name = name) with
      | none => .error .instructionFallbackNotFound
      | some i =>
          match (deserialize (data.drop 8) : Option (i.Args × Bytes)) with
          | none => .error .instructionDidNotDeserialize
          | some (args, _) => .ok (signedBy P.selfAuthority r i args)

def invokeSelf (r : Remaining) (data : Bytes) : Code W Unit :=
  match selfInstruction P r data with
  | .error e => revert e
  | .ok i => execute P i

structure HandleReceiveMessage where
  authorityPda : Pubkey
  remoteDomain : U32
  sender : Pubkey
  messageBody : Bytes
  authorityBump : UInt8
  remainingAccounts : Remaining

def handleReceiveMessage (x : HandleReceiveMessage) : Code W Unit := do
  loadState
  let a ← read
  require (P.transmitterAuthority x.authorityBump = some x.authorityPda) .constraintSeeds
  require (x.remoteDomain = a.bank.state.remoteDomain) .invalidRemoteDomain
  require (x.sender = a.bank.state.crossDomainAdmin) .invalidRemoteSender
  match translateMessage sha256 x.messageBody with
  | .error f => revert (.callData f)
  | .ok data => invokeSelf P x.remainingAccounts data

inductive Call
  | direct (i : Instruction)
  | message (x : HandleReceiveMessage)

def process : Call → Code W Unit
  | .direct i => execute P i
  | .message x => handleReceiveMessage P x

/-- What happens at some time. -/
inductive Action (W : Type)
  | call (c : Call)
  | elsewhere (f : W → W)

structure Input (W : Type) where
  time : Int
  action : Action W

def tick (a : Accounts W) (t : Int) : Accounts W := { a with bank := { a.bank with clock := t } }

/-- The accounts after an input. A call that fails leaves them as they were. -/
def step (a : Accounts W) (i : Input W) : Accounts W :=
  match i.action with
  | .elsewhere f => { tick a i.time with bank := { (tick a i.time).bank with rest := f a.bank.rest } }
  | .call c =>
      match (process P c (tick a i.time)).result with
      | .ok (_, a') => a'
      | .error _ => tick a i.time

def run (a : Accounts W) (inputs : List (Input W)) : Accounts W := inputs.foldl (step P) a

/-- Nothing of the program exists. -/
def blank (w : W) : Accounts W where
  bank := initialized 0 0 0 0 0 w
  live := false
  pausedDeposits := false
  numberOfDeposits := 0
  depositQuoteTimeBuffer := 0
  fillDeadlineBuffer := 0
  routes _ _ := none
  log := []

end Messages

end Across.SvmSpoke
