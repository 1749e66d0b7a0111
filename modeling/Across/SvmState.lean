import Across.CallExec
import Across.SvmTypes

namespace Across.SvmState

open CallExec SvmTypes

/-- The reasons an instruction fails with: the errors of the program, those of
Anchor's account checks, arithmetic overflow, and failures of other programs. -/
inductive Error
  | fillsArePaused
  | notExclusiveRelayer
  | noSlowFillsInExclusivityWindow
  | relayFilled
  | invalidSlowFillRequest
  | expiredFillDeadline
  | invalidMerkleProof
  | invalidChainId
  | invalidMerkleLeaf
  | claimedMerkleLeaf
  | notOwner
  | invalidRelayHash
  | canOnlyCloseFillStatusPdaIfFillDeadlinePassed
  | notRelayer
  | invalidMint
  | exceededPendingBridgeAmount
  | invalidRefund (remainingAccount : Nat)
  | zeroRefundClaim
  | nonZeroRefundClaim
  | invalidClaimInitializer
  | accountNotEnoughKeys
  | accountNotInitialized
  | accountAlreadyInUse
  | accountDidNotSerialize
  | constraintToken
  | constraintAssociated
  | overflow
  | rentNotPaid
  | cpiFailed
deriving DecidableEq

/-- The state account. Production has one, with seed zero. -/
structure State where
  pausedFills : Bool
  owner : Pubkey
  chainId : U64
  remoteDomain : U32
  crossDomainAdmin : Pubkey
  rootBundleId : U32
deriving DecidableEq

structure FillStatusAccount where
  status : FillStatus
  relayer : Pubkey
deriving DecidableEq

/-- `dataLen` is the size of the account that holds the bundle. -/
structure RootBundle where
  relayerRefundRoot : Hash
  slowRelayRoot : Hash
  claimedBitmap : List UInt8
  dataLen : Nat
deriving DecidableEq

structure ClaimAccount where
  amount : U64
  initializer : Pubkey
deriving DecidableEq

structure TransferLiability where
  pendingToHubPool : U64
deriving DecidableEq

/-- The seeds that the program derives its accounts from. Different seeds have
different addresses, so an account is kept under its seeds. -/
inductive Pda
  | fills (relayHash : Hash)
  | rootBundle (rootBundleId : U32)
  | claimAccount (mint tokenAccount : Pubkey)
  | transferLiability (mint : Pubkey)
deriving DecidableEq

inductive Event
  | filledV3Relay (relay : V3RelayData) (repaymentChainId : U64) (relayer : Pubkey) (updatedOutputAmount : U64)
      (fillType : FillType)
  | requestedV3SlowFill (relay : V3RelayData)
  | executedRelayerRefundRoot (rootBundleId : U32) (leaf : RelayerRefundLeaf) (deferredRefunds : Bool)
      (caller : Pubkey)
  | claimedRelayerRefund (l2TokenAddress : Pubkey) (claimAmount : U64) (refundAddress : Pubkey)
  | bridgedToHubPool (amount : U64) (mint : Pubkey)
  | relayedRootBundle (rootBundleId : U32) (relayerRefundRoot slowRelayRoot : Hash)
  | emergencyDeleteRootBundle (rootBundleId : U32)
  | pausedFills (isPaused : Bool)
deriving DecidableEq

/-- What a transfer of the program is for. -/
inductive Purpose
  | fill (relayHash : Hash)
  | refund
  | claim
deriving DecidableEq

/-- One step of the history of the program's successful instructions. -/
inductive Item
  | created (account : Pda) (payer : Pubkey)
  | resized (account : Pda) (payer : Pubkey)
  | closed (account : Pda) (destination : Pubkey)
  | transferred (purpose : Purpose) (mint src dst : Pubkey) (amount : U64)
  | burned (mint : Pubkey) (amount : U64)
  | emitted (e : Event)
deriving DecidableEq

/-- The accounts as the program sees them. `clock` is the `unix_timestamp` of the
clock, and `rest` holds all accounts of other programs: mints, token accounts
and wallets. -/
structure Bank (W : Type) where
  clock : Int
  state : State
  fillStatuses : Hash → Option FillStatusAccount
  rootBundles : U32 → Option RootBundle
  claimAccounts : Pubkey → Pubkey → Option ClaimAccount
  transferLiabilities : Pubkey → Option TransferLiability
  rest : W
  trace : List Item

structure TokenAccount where
  mint : Pubkey
  authority : Pubkey
  tokenProgram : Pubkey

/-- The other programs and the runtime. A call to one of them fails or changes
what is outside the program. -/
structure Runtime (W : Type) where
  stateKey : Pubkey
  selfAuthority : Pubkey
  mintProgram : W → Pubkey → Option Pubkey
  tokenAccount : W → Pubkey → Option TokenAccount
  associatedTokenAddress : Pubkey → Pubkey → Pubkey → Pubkey
  transferChecked : Pubkey → Pubkey → Pubkey → Pubkey → U64 → W → Option W
  depositForBurn : Pubkey → Pubkey → U32 → Pubkey → U64 → W → Option W
  payRent : Pubkey → Pda → Nat → W → Option W
  returnRent : Pda → Pubkey → W → W

abbrev Instr (W α : Type) := Exec (Bank W) Empty Error α

end Across.SvmState
