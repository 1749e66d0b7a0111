import Across.CallExec
import Across.SpokeTypes

namespace Across.SpokeState

open WordBytes Abi Keccak CallExec SpokeTypes

/-- The reasons a SpokePool call reverts with: the custom errors of the two
interfaces, the require strings of the inherited guards, and arithmetic panics.
`lowLevelCallFailed` wraps the data returned by the inner call. The last ten
custom errors are those of the Polygon pool and of the depositor contract. -/
inductive Error
  | disabledRoute
  | invalidQuoteTimestamp
  | invalidFillDeadline
  | invalidExclusiveRelayer
  | msgValueDoesNotMatchInputAmount
  | notExclusiveRelayer
  | noSlowFillsInExclusivityWindow
  | relayFilled
  | invalidSlowFillRequest
  | expiredFillDeadline
  | invalidMerkleProof
  | invalidChainId
  | invalidMerkleLeaf
  | claimedMerkleLeaf
  | wrongERC7683OrderId
  | lowLevelCallFailed (data : Error)
  | invalidDepositorSignature
  | invalidRelayerFeePct
  | maxTransferSizeExceeded
  | invalidCrossDomainAdmin
  | invalidWithdrawalRecipient
  | depositsArePaused
  | fillsArePaused
  | notAdmin
  | multicallExecuteLeaf
  | notEOA
  | callValidatedAlreadySet
  | notFxChild
  | notHubPool
  | delegateCallFailed
  | wrongSettlementContract
  | wrongChainId
  | wrongOrderDataType
  | wrongExclusiveRelayer
  | message (text : String)
  | panic
  | undecodable
  | externalCallFailed
  | callDepth

structure RootBundle where
  slowRelayRoot : Bytes32
  relayerRefundRoot : Bytes32
  claimedBitmap : Nat → Nat

/-- The storage of a SpokePool behind its proxy. `entered` is the flag of the
reentrancy guard; the last three variables are those of the Polygon pool. -/
structure Storage where
  crossDomainAdmin : Address
  withdrawalRecipient : Address
  numberOfDeposits : Uint32
  pausedFills : Bool
  pausedDeposits : Bool
  rootBundles : List RootBundle
  enabledDepositRoutes : Address → Uint256 → Bool
  fillStatuses : Bytes32 → FillStatus
  owner : Address
  entered : Bool
  hashedName : Bytes32
  hashedVersion : Bytes32
  callValidated : Bool := false
  fxChild : Address := 0
  polygonTokenBridger : Address := 0

structure V3FundsDeposited where
  inputToken : Address
  outputToken : Address
  inputAmount : Uint256
  outputAmount : Uint256
  destinationChainId : Uint256
  depositId : Uint256
  quoteTimestamp : Uint32
  fillDeadline : Uint32
  exclusivityDeadline : Uint32
  depositor : Address
  recipient : Address
  exclusiveRelayer : Address
  message : Blob
deriving DecidableEq

/-- The twelve relay fields of this event are kept together as the relay data
they are copied from. -/
structure FilledV3Relay where
  relay : V3RelayData
  repaymentChainId : Uint256
  relayer : Address
  relayExecutionInfo : V3RelayExecutionEventInfo
deriving DecidableEq

inductive Event
  | setXDomainAdmin (newAdmin : Address)
  | setWithdrawalRecipient (newWithdrawalRecipient : Address)
  | enabledDepositRoute (originToken : Address) (destinationChainId : Uint256) (enabled : Bool)
  | relayedRootBundle (rootBundleId : Uint32) (relayerRefundRoot slowRelayRoot : Bytes32)
  | executedRelayerRefundRoot (rootBundleId : Uint32) (leaf : RelayerRefundLeaf) (caller : Address)
  | tokensBridged (amountToReturn chainId : Uint256) (leafId : Uint32) (l2TokenAddress caller : Address)
  | emergencyDeleteRootBundle (rootBundleId : Uint256)
  | pausedDeposits (isPaused : Bool)
  | pausedFills (isPaused : Bool)
  | ownershipTransferred (previousOwner newOwner : Address)
  | v3FundsDeposited (deposit : V3FundsDeposited)
  | requestedSpeedUpV3Deposit (updatedOutputAmount depositId : Uint256) (depositor updatedRecipient : Address)
      (updatedMessage depositorSignature : Blob)
  | filledV3Relay (fill : FilledV3Relay)
  | requestedV3SlowFill (relay : V3RelayData)
  | setFxChild (newFxChild : Address)
  | setPolygonTokenBridger (polygonTokenBridger : Address)
  | receivedMessageFromL1 (caller rootMessageSender : Address)

/-- The calls a SpokePool makes to other accounts. The last one stands for the
calls of the chain-specific hooks to bridges and wrapped tokens. -/
inductive ExternalCall
  | safeTransferFrom (token src dst : Address) (amount : Uint256)
  | safeTransfer (token dst : Address) (amount : Uint256)
  | wrappedDeposit (value : Nat)
  | wrappedWithdraw (amount : Uint256)
  | sendValue (dst : Address) (amount : Uint256)
  | nativeTransfer (dst : Address) (amount : Uint256)
  | handleV3AcrossMessage (recipient tokenSent : Address) (amount : Uint256) (relayer : Address) (message : Blob)
  | bridge (target : Address) (value : Nat) (data : Bytes)

structure DepositV3 where
  depositor : Address
  recipient : Address
  inputToken : Address
  outputToken : Address
  inputAmount : Uint256
  outputAmount : Uint256
  destinationChainId : Uint256
  exclusiveRelayer : Address
  quoteTimestamp : Uint32
  fillDeadline : Uint32
  exclusivityParameter : Uint32
  message : Blob

structure LegacyDeposit where
  depositor : Address
  recipient : Address
  originToken : Address
  amount : Uint256
  destinationChainId : Uint256
  relayerFeePct : BitVec 64
  quoteTimestamp : Uint32
  message : Blob

structure UpdatedDeposit where
  updatedOutputAmount : Uint256
  updatedRecipient : Address
  updatedMessage : Blob
  depositorSignature : Blob

/-- The state-changing public functions with their decoded arguments. The
entries of a multicall, and the data of a message from the root chain, are
themselves calldata for the same contract; `undecodable` is calldata that no
function accepts. -/
inductive Call
  | pauseDeposits (pause : Bool)
  | pauseFills (pause : Bool)
  | setCrossDomainAdmin (newCrossDomainAdmin : Address)
  | setWithdrawalRecipient (newWithdrawalRecipient : Address)
  | setEnableRoute (originToken : Address) (destinationChainId : Uint256) (enabled : Bool)
  | relayRootBundle (relayerRefundRoot slowRelayRoot : Bytes32)
  | emergencyDeleteRootBundle (rootBundleId : Uint256)
  | adminRemoveFunds (amount : Uint256) (token recipient : Address)
  | transferOwnership (newOwner : Address)
  | renounceOwnership
  | deposit (d : LegacyDeposit)
  | depositFor (d : LegacyDeposit)
  | depositV3 (d : DepositV3)
  | unsafeDepositV3 (d : DepositV3) (depositNonce : Uint256)
  | depositV3Now (d : DepositV3) (fillDeadlineOffset : Uint32)
  | depositExclusive (d : DepositV3)
  | speedUpV3Deposit (depositor : Address) (depositId : Uint256) (u : UpdatedDeposit)
  | fillV3Relay (relayData : V3RelayData) (repaymentChainId : Uint256)
  | fillV3RelayWithUpdatedDeposit (relayData : V3RelayData) (repaymentChainId : Uint256) (u : UpdatedDeposit)
  | requestV3SlowFill (relayData : V3RelayData)
  | fill (orderId : Bytes32) (originData fillerData : Bytes)
  | executeV3SlowRelayLeaf (slowFillLeaf : V3SlowFill) (rootBundleId : Uint32) (proof : List Bytes32)
  | executeRelayerRefundLeaf (rootBundleId : Uint32) (leaf : RelayerRefundLeaf) (proof : List Bytes32)
  | multicall (data : List Call)
  | tryMulticall (data : List Call)
  | setFxChild (newFxChild : Address)
  | setPolygonTokenBridger (newPolygonTokenBridger : Address)
  | processMessageFromRoot (rootMessageSender : Address) (data : Call)
  | wrap
  | receive
  | undecodable

def Call.payable : Call → Bool
  | .deposit _ | .depositFor _ | .depositV3 _ | .unsafeDepositV3 .. | .depositV3Now .. | .depositExclusive _
  | .executeRelayerRefundLeaf .. | .receive => true
  | _ => false

structure Msg where
  sender : Address
  value : Nat

/-- One step of the surviving history of the pool: a write of a fill status,
an event with the call that emitted it, or a call to another account. A call
that pays for a relay carries the hash of that relay. -/
inductive TraceItem
  | status (relayHash : Bytes32) (old new : FillStatus)
  | event (call : Call) (e : Event)
  | external (payoutOf : Option Bytes32) (c : ExternalCall)

/-- The chain as a SpokePool sees it. `rest` is everything outside the pool:
token balances, native balances and the storage of all other accounts. -/
structure World (W : Type) where
  pool : Storage
  time : Nat
  rest : W
  trace : List TraceItem

/-- The record of one call of the pool, reverted or not. -/
structure Frame (W : Type) where
  msg : Msg
  call : Call
  pre : World W
  post : Except Error (World W)

abbrev Code (W : Type) := Exec (World W) (Frame W) Error

/-- What an account does when the pool calls it: it returns or reverts, or it
first calls the pool and goes on from the result. -/
inductive Callee (W : Type)
  | halt (ok : Bool) (w : W)
  | invoke (w : W) (msg : Msg) (call : Call) (resume : Bool → World W → Callee W)

/-- The code of all other accounts. `behave` may depend on the whole chain, so
a callee can read the pool and call it any number of times. `txOrigin` is the
account that signed the transaction. -/
structure Host (W : Type) where
  behave : ExternalCall → World W → Callee W
  pay : Address → Nat → W → Option W
  isContract : W → Address → Bool
  nativeBalance : W → Nat
  txOrigin : W → Address := fun _ => 0
  isValidSignatureNow : World W → Address → Bytes32 → Bytes → Bool

/-- The immutables of a deployed SpokePool, and the virtual functions that the
chain-specific contracts override. A hook is the sequence of calls it makes; the one
for the bridge sees the message and can revert instead.
`hasFxChild` says whether the contract has the functions of the Polygon pool. -/
structure Variant (W : Type) where
  self : Address
  chainId : Uint256
  wrappedNativeToken : Address
  depositQuoteTimeBuffer : Uint32
  fillDeadlineBuffer : Uint32
  requireAdminSender : Msg → World W → Bool
  preExecuteLeafHook : Address → World W → List ExternalCall
  bridgeTokensToHubPool : Msg → Uint256 → Address → World W → Except Error (List ExternalCall)
  validateMulticallData : List Call → Bool := fun _ => true
  hasFxChild : Bool := false

end Across.SpokeState
