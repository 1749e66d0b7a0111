import Across.SpokePool

namespace Across.Permit2Order

open WordBytes Abi Keccak SpokePool

structure SettlementInfo where
  settlerContract : Address
  offerer : Address
  nonce : Uint256
  initiateDeadline : Uint256
  fillPeriod : Uint32
  challengePeriod : Uint32
  proofPeriod : Uint32
  settlementOracle : Address
  validationContract : Address
  validationData : Blob
deriving DecidableEq

structure InputToken where
  token : Address
  amount : Uint256
  maxAmount : Uint256
deriving DecidableEq

structure CollateralToken where
  token : Address
  amount : Uint256
deriving DecidableEq

structure OutputToken where
  recipient : Address
  token : Address
  amount : Uint256
  chainId : Uint256
deriving DecidableEq

structure CrossChainLimitOrder where
  info : SettlementInfo
  input : InputToken
  fillerCollateral : CollateralToken
  challengerCollateral : CollateralToken
  outputs : List OutputToken
deriving DecidableEq

structure SignedOrder where
  order : Bytes
  sig : Bytes

def outputTokenType : Bytes := utf8 "OutputToken(address recipient,address token,uint256 amount,uint256 chainId)"

def outputTokenTypeHash : Bytes32 := keccak256 outputTokenType

/-- Four of the members are not followed by a comma. -/
def orderType : Bytes :=
  utf8 ("CrossChainLimitOrder(" ++ "address settlerContract," ++ "address offerer," ++ "uint256 nonce," ++
    "uint256 initiateDeadline," ++ "uint32 fillPeriod" ++ "uint32 challengePeriod" ++ "uint32 proofPeriod" ++
    "address settlementOracle" ++ "address validationContract," ++ "bytes validationData," ++
    "address inputToken," ++ "uint256 inputAmount," ++ "address collateralToken," ++ "uint256 collateralAmount," ++
    "address challengerCollateralToken," ++ "uint256 challengerCollateralAmount," ++ "OutputToken[] outputs)") ++
    outputTokenType

def orderTypeHash : Bytes32 := keccak256 orderType

def tokenPermissionsType : Bytes := utf8 "TokenPermissions(address token,uint256 amount)"

def permit2OrderType : Bytes := utf8 "CrossChainLimitOrder witness)" ++ orderType ++ tokenPermissionsType

def OutputToken.members (o : OutputToken) : List Nat :=
  [o.recipient.toNat, o.token.toNat, o.amount.toNat, o.chainId.toNat]

def hashOutput (output : OutputToken) : Bytes32 := keccak256 (words (outputTokenTypeHash.toNat :: output.members))

/-- The hash of the first output, the only one of an accepted order. -/
def hashOutputs (outputs : List OutputToken) : Option Bytes32 :=
  outputs.head?.map fun output => keccak256 (word (hashOutput output).toNat)

def hashOrder (order : CrossChainLimitOrder) : Option Bytes32 := do
  let part1 := words [orderTypeHash.toNat, order.info.settlerContract.toNat, order.info.offerer.toNat,
    order.info.nonce.toNat, order.info.initiateDeadline.toNat, order.info.fillPeriod.toNat,
    order.info.challengePeriod.toNat, order.info.proofPeriod.toNat, order.info.settlementOracle.toNat,
    order.info.validationContract.toNat, (keccak256 order.info.validationData.val).toNat,
    order.input.token.toNat, order.input.amount.toNat]
  let outputsHash ← hashOutputs order.outputs
  let part2 := words [order.fillerCollateral.token.toNat, order.fillerCollateral.amount.toNat,
    order.challengerCollateral.token.toNat, order.challengerCollateral.amount.toNat, outputsHash.toNat]
  some (keccak256 (part1 ++ part2))

section Decoding

variable (bs : Bytes)

def decodeInfo (base : Nat) : Option SettlementInfo := do
  let settlerContract ← uintAt 160 bs base
  let offerer ← uintAt 160 bs (base + 32)
  let nonce ← uintAt 256 bs (base + 64)
  let initiateDeadline ← uintAt 256 bs (base + 96)
  let fillPeriod ← uintAt 32 bs (base + 128)
  let challengePeriod ← uintAt 32 bs (base + 160)
  let proofPeriod ← uintAt 32 bs (base + 192)
  let settlementOracle ← uintAt 160 bs (base + 224)
  let validationContract ← uintAt 160 bs (base + 256)
  let validationOffset ← offsetAt bs (base + 288)
  let validationData ← bytesAt bs (base + validationOffset)
  some ⟨settlerContract, offerer, nonce, initiateDeadline, fillPeriod, challengePeriod, proofPeriod,
    settlementOracle, validationContract, validationData⟩

def decodeOutput (base : Nat) : Option OutputToken := do
  let recipient ← uintAt 160 bs base
  let token ← uintAt 160 bs (base + 32)
  let amount ← uintAt 256 bs (base + 64)
  let chainId ← uintAt 256 bs (base + 96)
  some ⟨recipient, token, amount, chainId⟩

def decodeOutputs (base : Nat) : Nat → Option (List OutputToken)
  | 0 => some []
  | n + 1 => do
      let output ← decodeOutput bs base
      let outputs ← decodeOutputs (base + 128) n
      some (output :: outputs)

/-- `abi.decode(order, (CrossChainLimitOrder))`. -/
def decodeOrder : Option CrossChainLimitOrder := do
  let base ← offsetAt bs 0
  let infoOffset ← offsetAt bs base
  let info ← decodeInfo bs (base + infoOffset)
  let inputToken ← uintAt 160 bs (base + 32)
  let inputAmount ← uintAt 256 bs (base + 64)
  let maxAmount ← uintAt 256 bs (base + 96)
  let collateralToken ← uintAt 160 bs (base + 128)
  let collateralAmount ← uintAt 256 bs (base + 160)
  let challengerToken ← uintAt 160 bs (base + 192)
  let challengerAmount ← uintAt 256 bs (base + 224)
  let outputsOffset ← offsetAt bs (base + 256)
  let length ← offsetAt bs (base + outputsOffset)
  let outputs ← decodeOutputs bs (base + outputsOffset + 32) length
  some ⟨info, ⟨inputToken, inputAmount, maxAmount⟩, ⟨collateralToken, collateralAmount⟩,
    ⟨challengerToken, challengerAmount⟩, outputs⟩

end Decoding

end Across.Permit2Order
