import Across.Abi
import Across.MerkleProof
import Across.Erc20
import Across.Checked

namespace Across.HubState

open WordBytes Abi Keccak MerkleProof CallExec Erc20

/-- A word that the contract reads as a signed number. -/
abbrev Int256 := BitVec 256

abbrev Uint8 := BitVec 8

inductive Error
  | require (text : String)
  | panic
  | callFailed

structure PooledToken where
  lpToken : Address
  isEnabled : Bool
  lastLpFeeUpdate : Uint32
  utilizedReserves : Int256
  liquidReserves : Uint256
  undistributedLpFees : Uint256

structure RootBundle where
  poolRebalanceRoot : Bytes32
  relayerRefundRoot : Bytes32
  slowRelayRoot : Bytes32
  claimedBitMap : Uint256
  proposer : Address
  unclaimedPoolRebalanceLeafCount : Uint8
  challengePeriodEndTimestamp : Uint32

/-- A deleted proposal. -/
def RootBundle.zero : RootBundle := ⟨0, 0, 0, 0, 0, 0, 0⟩

structure CrossChainContract where
  adapter : Address
  spokePool : Address

structure PoolRebalanceLeaf where
  chainId : Uint256
  bundleLpFees : List Uint256
  netSendAmounts : List Int256
  runningBalances : List Int256
  groupIndex : Uint256
  leafId : Uint8
  l1Tokens : List Address

def PoolRebalanceLeaf.parts (l : PoolRebalanceLeaf) : List Part :=
  [.word l.chainId.toNat, .tail (encodeArray (l.bundleLpFees.map BitVec.toNat)),
   .tail (encodeArray (l.netSendAmounts.map BitVec.toNat)),
   .tail (encodeArray (l.runningBalances.map BitVec.toNat)), .word l.groupIndex.toNat, .word l.leafId.toNat,
   .tail (encodeArray (l.l1Tokens.map BitVec.toNat))]

def verifyPoolRebalance (root : Bytes32) (leaf : PoolRebalanceLeaf) (proof : List Bytes32) : Bool :=
  verify proof root (keccak256 (encode [.tail (encode leaf.parts)]))

def isClaimed1D (claimedBitMap : Uint256) (index : Uint8) : Bool :=
  let mask := (1 : Uint256) <<< index.toNat
  decide (claimedBitMap &&& mask = mask)

def setClaimed1D (claimedBitMap : Uint256) (index : Uint8) : Uint256 :=
  claimedBitMap ||| (1 : Uint256) <<< index.toNat

structure Hub where
  rootBundleProposal : RootBundle
  pooledTokens : Address → PooledToken
  poolRebalanceRoutes : Bytes32 → Address
  crossChainContracts : Uint256 → CrossChainContract
  unclaimedAccumulatedProtocolFees : Address → Uint256
  paused : Bool
  protocolFeeCaptureAddress : Address
  bondToken : Address
  liveness : Uint32
  identifier : Bytes32
  protocolFeeCapturePct : Uint256
  bondAmount : Uint256
  owner : Address

/-- The history of the pool: its events, and the moves of value that it makes
without an event of their own. -/
inductive Entry
  | paused (isPaused : Bool)
  | emergencyRootBundleDeleted (poolRebalanceRoot relayerRefundRoot slowRelayRoot : Bytes32) (proposer : Address)
  | protocolFeeCaptureSet (newProtocolFeeCaptureAddress : Address) (newProtocolFeeCapturePct : Uint256)
  | protocolFeesCapturedClaimed (l1Token : Address) (accumulatedFees : Uint256)
  | bondSet (newBondToken : Address) (newBondAmount : Uint256)
  | livenessSet (newLiveness : Uint32)
  | identifierSet (newIdentifier : Bytes32)
  | crossChainContractsSet (l2ChainId : Uint256) (adapter spokePool : Address)
  | l1TokenEnabledForLiquidityProvision (l1Token lpToken : Address)
  | l2TokenDisabledForLiquidityProvision (l1Token lpToken : Address)
  | liquidityAdded (l1Token : Address) (amount lpTokensMinted : Uint256) (liquidityProvider : Address)
  | liquidityRemoved (l1Token : Address) (amount lpTokensBurnt : Uint256) (liquidityProvider : Address)
  | setPoolRebalanceRoute (destinationChainId : Uint256) (l1Token destinationToken : Address)
  | setEnableDepositRoute (originChainId destinationChainId : Uint256) (originToken : Address) (enabled : Bool)
  | proposeRootBundle (challengePeriodEndTimestamp : Uint32) (poolRebalanceLeafCount : Uint8)
      (bundleEvaluationBlockNumbers : List Uint256) (poolRebalanceRoot relayerRefundRoot slowRelayRoot : Bytes32)
      (proposer : Address)
  | rootBundleExecuted (leaf : PoolRebalanceLeaf) (caller : Address)
  | spokePoolAdminFunctionTriggered (chainId : Uint256) (message : Bytes)
  | rootBundleDisputed (disputer : Address) (requestTime : Uint256)
  | rootBundleCanceled (disputer : Address) (requestTime : Uint256)
  | lpFeesCaptured (l1Token : Address) (amount : Uint256)
  | reservesHaircut (l1Token : Address) (haircutAmount : Int256)
  | bondTaken (bondToken : Address) (bondAmount : Uint256) (proposer : Address) (leafCount : Uint8)
  | bondReleased (bondToken : Address) (bondAmount : Uint256) (recipient : Address)

/-- The chain as the pool sees it: standard tokens, the accounts that have
code, and the tokens that the pool's factory has issued. -/
structure World where
  hub : Hub
  tokens : Address → Token Address
  code : Address → Bool
  lpTokens : Address → Bool
  time : Nat
  log : List Entry

structure Deployment where
  self : Address
  weth : Address
  self_ne_zero : self ≠ 0

structure Msg where
  sender : Address
  value : Uint256

/-- What the other contracts answer during one call. `approved` says whether a
token lets the pool spend an amount of an account, in the state that the pool is
in when it asks. `relayTokens` says which account an adapter hands the tokens to,
or that it fails. -/
structure Answers where
  approved : World → Address → Address → Uint256 → Bool
  finalFee : Uint256
  optimisticOracle : Address
  requestSucceeds : Bool
  disputeSucceeds : Bool
  onWhitelist : Bool
  identifierSupported : Bool
  relayTokens : Address → Uint256 → Option Address
  relayMessage : Bool
  newLpToken : Address
  acceptsEth : Bool

/-- No call of the pool can be re-entered, so the records of inner calls that
`Exec` keeps are empty here. -/
abbrev HubCode := Exec World Empty Error

end Across.HubState
