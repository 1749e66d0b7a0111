import Across.SvmState

namespace Across.SvmProgram

open CallExec CallExec.Exec SvmTypes SvmState

section Bitmap

def bitMask (index : U32) : UInt8 := 1 <<< UInt8.ofNat (index.toNat % 8)

def isClaimed (claimedBitmap : List UInt8) (index : U32) : Bool :=
  match claimedBitmap[index.toNat / 8]? with
  | none => false
  | some claimedByte => decide (claimedByte &&& bitMask index = bitMask index)

/-- The vector is resized first when the byte of `index` lies past its end. -/
def setClaimed (claimedBitmap : List UInt8) (index : U32) : List UInt8 :=
  (claimedBitmap.rightpad (index.toNat / 8 + 1) 0).modify (index.toNat / 8) (· ||| bitMask index)

end Bitmap

section Primitives

variable {W : Type} (R : Runtime W)

def emit (e : Event) : Instr W Unit := update fun b => { b with trace := b.trace ++ [.emitted e] }

/-- `Clock::get()?.unix_timestamp as u32`. -/
def getCurrentTime : Instr W U32 := do
  let b ← read
  pure (BitVec.ofInt 32 b.clock)

/-- Change what other programs hold, or fail with them. -/
def invoke (f : W → Option W) (e : Error) (x : Item) : Instr W Unit := do
  let b ← read
  match f b.rest with
  | none => revert e
  | some w => update fun b => { b with rest := w, trace := b.trace ++ [x] }

def transferChecked (purpose : Purpose) (mint src dst authority : Pubkey) (amount : U64) : Instr W Unit :=
  invoke (R.transferChecked mint src dst authority amount) .cpiFailed (.transferred purpose mint src dst amount)

def create (account : Pda) (payer : Pubkey) (space : Nat) : Instr W Unit :=
  invoke (R.payRent payer account space) .rentNotPaid (.created account payer)

def resize (account : Pda) (payer : Pubkey) (space : Nat) : Instr W Unit :=
  invoke (R.payRent payer account space) .rentNotPaid (.resized account payer)

def close (account : Pda) (destination : Pubkey) : Instr W Unit :=
  update fun b => { b with
    rest := R.returnRent account destination b.rest
    trace := b.trace ++ [.closed account destination] }

def setFillStatus (relayHash : Hash) (a : Option FillStatusAccount) : Instr W Unit :=
  update fun b => { b with fillStatuses := Function.update b.fillStatuses relayHash a }

def setRootBundle (rootBundleId : U32) (r : Option RootBundle) : Instr W Unit :=
  update fun b => { b with rootBundles := Function.update b.rootBundles rootBundleId r }

def setClaimAccount (mint tokenAccount : Pubkey) (a : Option ClaimAccount) : Instr W Unit :=
  update fun b => { b with
    claimAccounts := Function.update b.claimAccounts mint
      (Function.update (b.claimAccounts mint) tokenAccount a) }

def setTransferLiability (mint : Pubkey) (l : TransferLiability) : Instr W Unit :=
  update fun b => { b with transferLiabilities := Function.update b.transferLiabilities mint (some l) }

/-- An account that Anchor loads: it must exist. -/
def loaded {α : Type} (a : Option α) : Instr W α :=
  match a with
  | none => revert .accountNotInitialized
  | some a => pure a

/-- The discriminator and the fields, as Anchor sizes them. -/
def fillStatusSpace : Nat := 8 + (1 + 32)

def claimAccountSpace : Nat := 8 + (8 + 32)

def transferLiabilitySpace : Nat := 8 + 8

def rootBundleSpace : Nat := 8 + (32 + 32 + (4 + 1))

/-- `init_if_needed` on a fill status. -/
def initFillStatus (relayHash : Hash) (payer : Pubkey) : Instr W FillStatusAccount := do
  let b ← read
  match b.fillStatuses relayHash with
  | some a => pure a
  | none => do
      create R (.fills relayHash) payer fillStatusSpace
      setFillStatus relayHash (some ⟨.unfilled, 0⟩)
      pure ⟨.unfilled, 0⟩

def initTransferLiability (mint payer : Pubkey) : Instr W TransferLiability := do
  let b ← read
  match b.transferLiabilities mint with
  | some l => pure l
  | none => do
      create R (.transferLiability mint) payer transferLiabilitySpace
      setTransferLiability mint ⟨0⟩
      pure ⟨0⟩

/-- The constraints `mint::token_program` and `address` on a mint. -/
def checkMint (mint tokenProgram expected : Pubkey) : Instr W Unit := do
  let b ← read
  require (mint = expected) .invalidMint
  require (R.mintProgram b.rest mint = some tokenProgram) .invalidMint

/-- The constraints `associated_token::*`. -/
def checkAssociated (key mint authority tokenProgram : Pubkey) : Instr W Unit := do
  let b ← read
  require (key = R.associatedTokenAddress authority mint tokenProgram) .constraintAssociated
  let a ← loaded (R.tokenAccount b.rest key)
  require (a.authority = authority ∧ a.tokenProgram = tokenProgram) .constraintAssociated

def isLocalOrRemoteOwner (signer : Pubkey) (s : State) : Bool :=
  decide (signer = s.owner ∨ signer = R.selfAuthority)

end Primitives

section Fills

variable {W : Type} (R : Runtime W)

structure FillV3Relay where
  signer : Pubkey
  mintAccount : Pubkey
  relayerTokenAccount : Pubkey
  recipientTokenAccount : Pubkey
  tokenProgram : Pubkey
  relayHash : Hash
  relayData : V3RelayData
  repaymentChainId : U64
  repaymentAddress : Pubkey

def fillTypeOf : FillStatus → FillType
  | .requestedSlowFill => .replacedSlowFill
  | _ => .fastFill

def fillV3Relay (x : FillV3Relay) : Instr W Unit := do
  let b ← read
  require (b.state.pausedFills = false) .fillsArePaused
  checkMint R x.mintAccount x.tokenProgram x.relayData.outputToken
  let relayerAccount ← loaded (R.tokenAccount b.rest x.relayerTokenAccount)
  require (relayerAccount.mint = x.mintAccount ∧ relayerAccount.authority = x.signer ∧
    relayerAccount.tokenProgram = x.tokenProgram) .constraintToken
  checkAssociated R x.recipientTokenAccount x.mintAccount x.relayData.recipient x.tokenProgram
  let fillStatus ← initFillStatus R x.relayHash x.signer
  require (x.relayHash = getV3RelayHash x.relayData b.state.chainId) .invalidRelayHash
  let currentTime ← getCurrentTime
  require (¬ (x.relayData.exclusiveRelayer ≠ x.signer ∧ currentTime.toNat ≤ x.relayData.exclusivityDeadline.toNat ∧
    x.relayData.exclusiveRelayer ≠ 0)) .notExclusiveRelayer
  require (currentTime.toNat ≤ x.relayData.fillDeadline.toNat) .expiredFillDeadline
  require (fillStatus.status ≠ .filled) .relayFilled
  when (x.relayerTokenAccount ≠ x.recipientTokenAccount)
    (transferChecked R (.fill x.relayHash) x.mintAccount x.relayerTokenAccount x.recipientTokenAccount x.signer
      x.relayData.outputAmount)
  setFillStatus x.relayHash (some ⟨.filled, x.signer⟩)
  emit (.filledV3Relay x.relayData x.repaymentChainId x.repaymentAddress x.relayData.outputAmount
    (fillTypeOf fillStatus.status))

structure CloseFillPda where
  signer : Pubkey
  relayHash : Hash
  relayData : V3RelayData

/-- The status of the fill is not looked at. -/
def closeFillPda (x : CloseFillPda) : Instr W Unit := do
  let b ← read
  let fillStatus ← loaded (b.fillStatuses x.relayHash)
  require (x.signer = fillStatus.relayer) .notRelayer
  require (x.relayHash = getV3RelayHash x.relayData b.state.chainId) .invalidRelayHash
  let currentTime ← getCurrentTime
  require (x.relayData.fillDeadline.toNat < currentTime.toNat) .canOnlyCloseFillStatusPdaIfFillDeadlinePassed
  setFillStatus x.relayHash none
  close R (.fills x.relayHash) x.signer

structure RequestV3SlowFill where
  signer : Pubkey
  relayHash : Hash
  relayData : V3RelayData

def requestV3SlowFill (x : RequestV3SlowFill) : Instr W Unit := do
  let b ← read
  require (b.state.pausedFills = false) .fillsArePaused
  let fillStatus ← initFillStatus R x.relayHash x.signer
  require (x.relayHash = getV3RelayHash x.relayData b.state.chainId) .invalidRelayHash
  let currentTime ← getCurrentTime
  require (x.relayData.exclusivityDeadline.toNat < currentTime.toNat) .noSlowFillsInExclusivityWindow
  require (currentTime.toNat ≤ x.relayData.fillDeadline.toNat) .expiredFillDeadline
  require (fillStatus.status = .unfilled) .invalidSlowFillRequest
  setFillStatus x.relayHash (some ⟨.requestedSlowFill, x.signer⟩)
  emit (.requestedV3SlowFill x.relayData)

structure ExecuteV3SlowRelayLeaf where
  signer : Pubkey
  mint : Pubkey
  recipientTokenAccount : Pubkey
  vault : Pubkey
  tokenProgram : Pubkey
  relayHash : Hash
  slowFillLeaf : V3SlowFill
  rootBundleId : U32
  proof : List Hash

/-- The chain id of the leaf is that of the state, whatever the caller says. This
function does not ask whether fills are paused. -/
def executeV3SlowRelayLeaf (x : ExecuteV3SlowRelayLeaf) : Instr W Unit := do
  let b ← read
  let relayData := x.slowFillLeaf.relayData
  let rootBundle ← loaded (b.rootBundles x.rootBundleId)
  let fillStatus ← loaded (b.fillStatuses x.relayHash)
  require (x.relayHash = getV3RelayHash relayData b.state.chainId) .invalidRelayHash
  checkMint R x.mint x.tokenProgram relayData.outputToken
  checkAssociated R x.recipientTokenAccount x.mint relayData.recipient x.tokenProgram
  checkAssociated R x.vault x.mint R.stateKey x.tokenProgram
  let currentTime ← getCurrentTime
  require (verifyMerkleProof rootBundle.slowRelayRoot
    (V3SlowFill.toKeccakHash ⟨relayData, b.state.chainId, x.slowFillLeaf.updatedOutputAmount⟩) x.proof = true)
    .invalidMerkleProof
  require (currentTime.toNat ≤ relayData.fillDeadline.toNat) .expiredFillDeadline
  require (fillStatus.status ≠ .filled) .relayFilled
  transferChecked R (.fill x.relayHash) x.mint x.vault x.recipientTokenAccount R.stateKey
    x.slowFillLeaf.updatedOutputAmount
  setFillStatus x.relayHash (some ⟨.filled, fillStatus.relayer⟩)
  emit (.filledV3Relay relayData 0 0 x.slowFillLeaf.updatedOutputAmount .slowFill)

end Fills

section Refunds

variable {W : Type} (R : Runtime W)

/-- An account that the caller passes without a name: a claim account of the
program under its seeds, or any other account under its key. -/
inductive Key
  | claimAccount (mint tokenAccount : Pubkey)
  | key (k : Pubkey)
deriving DecidableEq

structure AccountInfo where
  key : Key
  isWritable : Bool

inductive RefundAccount
  | tokenAccount (key : Pubkey)
  | claimAccount (a : ClaimAccount)

/-- An account of the program is not a token account. -/
def tryTokenAccount (b : Bank W) (info : AccountInfo) (expectedTokenAccount expectedMint tokenProgram : Pubkey) :
    Option RefundAccount :=
  match info.key with
  | .claimAccount _ _ => none
  | .key k => do
      let a ← R.tokenAccount b.rest k
      if info.isWritable = true ∧ k = expectedTokenAccount ∧ a.mint = expectedMint ∧ a.tokenProgram = tokenProgram
      then some (.tokenAccount k) else none

def tryClaimAccount (b : Bank W) (info : AccountInfo) (mint tokenAccount : Pubkey) : Option RefundAccount :=
  match info.key with
  | .key _ => none
  | .claimAccount m t => do
      let a ← b.claimAccounts m t
      if m = mint ∧ t = tokenAccount ∧ info.isWritable = true then some (.claimAccount a) else none

def tryFromRemainingAccount (b : Bank W) (remainingAccounts : List AccountInfo) (index : Nat)
    (expectedTokenAccount expectedMint tokenProgram : Pubkey) : Except Error RefundAccount :=
  match remainingAccounts[index]? with
  | none => .error .accountNotEnoughKeys
  | some info =>
      match (tryTokenAccount R b info expectedTokenAccount expectedMint tokenProgram).or
        (tryClaimAccount b info expectedMint expectedTokenAccount) with
      | some a => .ok a
      | none => .error (.invalidRefund index)

structure ExecuteRelayerRefundLeaf where
  signer : Pubkey
  vault : Pubkey
  mint : Pubkey
  tokenProgram : Pubkey
  rootBundleId : U32
  relayerRefundLeaf : RelayerRefundLeaf
  proof : List Hash
  remainingAccounts : List AccountInfo

/-- One turn of the refund loop. It returns whether the refund was deferred. -/
def refund (x : ExecuteRelayerRefundLeaf) (index : Nat) (account : Pubkey) (amount : U64) : Instr W Bool := do
  let b ← read
  match tryFromRemainingAccount R b x.remainingAccounts index account x.mint x.tokenProgram with
  | .error e => revert e
  | .ok (.tokenAccount k) => do
      transferChecked R .refund x.mint x.vault k R.stateKey amount
      pure false
  | .ok (.claimAccount a) => do
      require (a.amount.toNat + amount.toNat < 2 ^ 64) .overflow
      setClaimAccount x.mint account (some { a with amount := a.amount + amount })
      pure true

def refundFrom (x : ExecuteRelayerRefundLeaf) : Nat → List (Pubkey × U64) → Instr W Bool
  | _, [] => pure false
  | index, (account, amount) :: rs => do
      let deferred ← refund R x index account amount
      let deferredRest ← refundFrom x (index + 1) rs
      pure (deferred || deferredRest)

def addPending (mint : Pubkey) (l : TransferLiability) (amount : U64) : Instr W Unit := do
  require (l.pendingToHubPool.toNat + amount.toNat < 2 ^ 64) .overflow
  setTransferLiability mint ⟨l.pendingToHubPool + amount⟩

/-- The bundle is written when the instruction is done, and has to fit the account
by then. -/
def executeRelayerRefundLeaf (x : ExecuteRelayerRefundLeaf) : Instr W Unit := do
  let b ← read
  let leaf := x.relayerRefundLeaf
  let rootBundle ← loaded (b.rootBundles x.rootBundleId)
  let dataLen := max (rootBundleSpace + leaf.leafId.toNat / 8) rootBundle.dataLen
  when (rootBundle.dataLen < dataLen) (resize R (.rootBundle x.rootBundleId) x.signer dataLen)
  checkAssociated R x.vault x.mint R.stateKey x.tokenProgram
  checkMint R x.mint x.tokenProgram leaf.mintPublicKey
  let liability ← initTransferLiability R x.mint x.signer
  require (verifyMerkleProof rootBundle.relayerRefundRoot leaf.toKeccakHash x.proof = true) .invalidMerkleProof
  require (leaf.chainId = b.state.chainId) .invalidChainId
  require (isClaimed rootBundle.claimedBitmap leaf.leafId = false) .claimedMerkleLeaf
  let claimedBitmap := setClaimed rootBundle.claimedBitmap leaf.leafId
  setRootBundle x.rootBundleId (some { rootBundle with claimedBitmap := claimedBitmap, dataLen := dataLen })
  require (leaf.refundAccounts.length = leaf.refundAmounts.length) .invalidMerkleLeaf
  let deferredRefunds ← refundFrom R x 0 (leaf.refundAccounts.zip leaf.refundAmounts)
  when (0 < leaf.amountToReturn.toNat) (addPending x.mint liability leaf.amountToReturn)
  emit (.executedRelayerRefundRoot x.rootBundleId leaf deferredRefunds x.signer)
  require (8 + 32 + 32 + 4 + claimedBitmap.length ≤ dataLen) .accountDidNotSerialize

structure InitializeClaimAccount where
  signer : Pubkey
  mint : Pubkey
  tokenAccount : Pubkey

def initializeClaimAccount (x : InitializeClaimAccount) : Instr W Unit := do
  let b ← read
  require (b.claimAccounts x.mint x.tokenAccount = none) .accountAlreadyInUse
  create R (.claimAccount x.mint x.tokenAccount) x.signer claimAccountSpace
  setClaimAccount x.mint x.tokenAccount (some ⟨0, x.signer⟩)

structure ClaimRelayerRefund where
  signer : Pubkey
  initializer : Pubkey
  vault : Pubkey
  mint : Pubkey
  tokenAccount : Pubkey
  tokenProgram : Pubkey

def claimRelayerRefund (x : ClaimRelayerRefund) : Instr W Unit := do
  let b ← read
  let claim ← loaded (b.claimAccounts x.mint x.tokenAccount)
  require (x.initializer = claim.initializer) .invalidClaimInitializer
  checkAssociated R x.vault x.mint R.stateKey x.tokenProgram
  checkMint R x.mint x.tokenProgram x.mint
  let account ← loaded (R.tokenAccount b.rest x.tokenAccount)
  require (account.mint = x.mint ∧ account.tokenProgram = x.tokenProgram) .constraintToken
  require (claim.amount ≠ 0) .zeroRefundClaim
  transferChecked R .claim x.mint x.vault x.tokenAccount R.stateKey claim.amount
  emit (.claimedRelayerRefund x.mint claim.amount x.tokenAccount)
  setClaimAccount x.mint x.tokenAccount none
  close R (.claimAccount x.mint x.tokenAccount) x.initializer

structure CloseClaimAccount where
  signer : Pubkey
  mint : Pubkey
  tokenAccount : Pubkey

def closeClaimAccount (x : CloseClaimAccount) : Instr W Unit := do
  let b ← read
  let claim ← loaded (b.claimAccounts x.mint x.tokenAccount)
  require (x.signer = claim.initializer) .invalidClaimInitializer
  require (claim.amount = 0) .nonZeroRefundClaim
  setClaimAccount x.mint x.tokenAccount none
  close R (.claimAccount x.mint x.tokenAccount) x.signer

structure BridgeTokensToHubPool where
  mint : Pubkey
  vault : Pubkey
  tokenProgram : Pubkey
  amount : U64

def bridgeTokensToHubPool (x : BridgeTokensToHubPool) : Instr W Unit := do
  let b ← read
  checkMint R x.mint x.tokenProgram x.mint
  let liability ← loaded (b.transferLiabilities x.mint)
  checkAssociated R x.vault x.mint R.stateKey x.tokenProgram
  require (x.amount.toNat ≤ liability.pendingToHubPool.toNat) .exceededPendingBridgeAmount
  setTransferLiability x.mint ⟨liability.pendingToHubPool - x.amount⟩
  invoke (R.depositForBurn x.mint x.vault b.state.remoteDomain b.state.crossDomainAdmin x.amount) .cpiFailed
    (.burned x.mint x.amount)
  emit (.bridgedToHubPool x.amount x.mint)

end Refunds

section Admin

variable {W : Type} (R : Runtime W)

structure RelayRootBundle where
  signer : Pubkey
  payer : Pubkey
  relayerRefundRoot : Hash
  slowRelayRoot : Hash

/-- `init` fails on an account that exists, and the count of bundles aborts at its
last value. -/
def relayRootBundle (x : RelayRootBundle) : Instr W Unit := do
  let b ← read
  let rootBundleId := b.state.rootBundleId
  require (isLocalOrRemoteOwner R x.signer b.state = true) .notOwner
  require (b.rootBundles rootBundleId = none) .accountAlreadyInUse
  create R (.rootBundle rootBundleId) x.payer rootBundleSpace
  setRootBundle rootBundleId (some ⟨x.relayerRefundRoot, x.slowRelayRoot, [], rootBundleSpace⟩)
  emit (.relayedRootBundle rootBundleId x.relayerRefundRoot x.slowRelayRoot)
  require (rootBundleId.toNat + 1 < 2 ^ 32) .overflow
  update fun b => { b with state := { b.state with rootBundleId := rootBundleId + 1 } }

structure EmergencyDeleteRootBundle where
  signer : Pubkey
  closer : Pubkey
  rootBundleId : U32

def emergencyDeleteRootBundle (x : EmergencyDeleteRootBundle) : Instr W Unit := do
  let b ← read
  require (isLocalOrRemoteOwner R x.signer b.state = true) .notOwner
  let _ ← loaded (b.rootBundles x.rootBundleId)
  emit (.emergencyDeleteRootBundle x.rootBundleId)
  setRootBundle x.rootBundleId none
  close R (.rootBundle x.rootBundleId) x.closer

structure PauseFills where
  signer : Pubkey
  pause : Bool

def pauseFills (x : PauseFills) : Instr W Unit := do
  let b ← read
  require (isLocalOrRemoteOwner R x.signer b.state = true) .notOwner
  update fun b => { b with state := { b.state with pausedFills := x.pause } }
  emit (.pausedFills x.pause)

end Admin

section System

inductive Instruction
  | fillV3Relay (x : FillV3Relay)
  | closeFillPda (x : CloseFillPda)
  | requestV3SlowFill (x : RequestV3SlowFill)
  | executeV3SlowRelayLeaf (x : ExecuteV3SlowRelayLeaf)
  | executeRelayerRefundLeaf (x : ExecuteRelayerRefundLeaf)
  | initializeClaimAccount (x : InitializeClaimAccount)
  | claimRelayerRefund (x : ClaimRelayerRefund)
  | closeClaimAccount (x : CloseClaimAccount)
  | bridgeTokensToHubPool (x : BridgeTokensToHubPool)
  | relayRootBundle (x : RelayRootBundle)
  | emergencyDeleteRootBundle (x : EmergencyDeleteRootBundle)
  | pauseFills (x : PauseFills)

/-- What happens at some time: an instruction of the program, or any change to the
accounts of others. -/
inductive Action (W : Type)
  | instruction (i : Instruction)
  | elsewhere (f : W → W)

structure Input (W : Type) where
  time : Int
  action : Action W

variable {W : Type} (R : Runtime W)

def process : Instruction → Instr W Unit
  | .fillV3Relay x => fillV3Relay R x
  | .closeFillPda x => closeFillPda R x
  | .requestV3SlowFill x => requestV3SlowFill R x
  | .executeV3SlowRelayLeaf x => executeV3SlowRelayLeaf R x
  | .executeRelayerRefundLeaf x => executeRelayerRefundLeaf R x
  | .initializeClaimAccount x => initializeClaimAccount R x
  | .claimRelayerRefund x => claimRelayerRefund R x
  | .closeClaimAccount x => closeClaimAccount R x
  | .bridgeTokensToHubPool x => bridgeTokensToHubPool R x
  | .relayRootBundle x => relayRootBundle R x
  | .emergencyDeleteRootBundle x => emergencyDeleteRootBundle R x
  | .pauseFills x => pauseFills R x

/-- A failed instruction leaves all accounts as they were. -/
def input (i : Input W) : Instr W Unit := do
  update fun b => { b with clock := i.time }
  match i.action with
  | .instruction ix => do
      let _ ← attempt (process R ix)
      pure ()
  | .elsewhere f => update fun b => { b with rest := f b.rest }

def run (inputs : List (Input W)) : Instr W Unit := forEach (input R) inputs

/-- The accounts after `initialize`. -/
def initialized (owner : Pubkey) (chainId : U64) (remoteDomain : U32) (crossDomainAdmin : Pubkey) (clock : Int)
    (rest : W) : Bank W where
  clock := clock
  state := ⟨false, owner, chainId, remoteDomain, crossDomainAdmin, 0⟩
  fillStatuses _ := none
  rootBundles _ := none
  claimAccounts _ _ := none
  transferLiabilities _ := none
  rest := rest
  trace := []

/-- One mint 5 of program 6. The token account of an owner is 1000 above it, and
`w` holds what each token account has. -/
def sampleRuntime : Runtime (Pubkey → Nat) where
  stateKey := 1
  selfAuthority := 2
  mintProgram _ mint := if mint = 5 then some 6 else none
  tokenAccount _ k := if 1000 ≤ k.toNat ∧ k.toNat < 2000 then some ⟨5, k - 1000, 6⟩ else none
  associatedTokenAddress owner _ _ := owner + 1000
  transferChecked _ src dst authority amount w :=
    if src = authority + 1000 ∧ amount.toNat ≤ w src then
      let w' := Function.update w src (w src - amount.toNat)
      some (Function.update w' dst (w' dst + amount.toNat))
    else none
  depositForBurn _ vault _ _ amount w :=
    if amount.toNat ≤ w vault then some (Function.update w vault (w vault - amount.toNat)) else none
  payRent _ _ _ w := some w
  returnRent _ _ w := w

/-- Owner 3 on chain 7, and 100 tokens in every token account. -/
def sampleBank : Bank (Pubkey → Nat) := initialized 3 7 0 4 0 fun _ => 100

end System

end Across.SvmProgram
