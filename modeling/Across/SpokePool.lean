import Across.SpokeState

namespace Across.SpokePool

open WordBytes Abi Keccak CallExec CallExec.Exec SpokeTypes SpokeState

def maxTransferSize : Nat := 10 ^ 36

def infiniteFillDeadline : Uint32 := BitVec.ofNat 32 (2 ^ 32 - 1)

def maxExclusivityPeriodSeconds : Nat := 31536000

def utf8 (s : String) : Bytes := s.toUTF8.toList

def updateV3DepositDetailsHash : Bytes32 :=
  keccak256 (utf8 ("UpdateDepositDetails(uint256 depositId,uint256 originChainId,uint256 " ++
    "updatedOutputAmount,address updatedRecipient,bytes updatedMessage)"))

def domainTypeHash : Bytes32 :=
  keccak256 (utf8 "EIP712Domain(string name,string version,uint256 chainId)")

/-- `uint32(getCurrentTime())`. -/
def currentTime32 (time : Nat) : Nat := time % 2 ^ 32

def fillIsExclusive (exclusivityDeadline : Uint32) (currentTime : Nat) : Bool :=
  decide (currentTime ≤ exclusivityDeadline.toNat)

def getUnsafeDepositId (msgSender depositor : Address) (depositNonce : Uint256) : Uint256 :=
  keccak256 (toBE 20 msgSender.toNat ++ toBE 20 depositor.toNat ++ word depositNonce.toNat)

def computeAmountPostFees (amount : Uint256) (feesPct : BitVec 64) : Uint256 :=
  BitVec.ofNat 256 (amount.toNat * (10 ^ 18 - feesPct.toInt).toNat / 10 ^ 18)

def domainSeparatorV4 (st : Storage) (originChainId : Uint256) : Bytes32 :=
  keccak256 (words [domainTypeHash.toNat, st.hashedName.toNat, st.hashedVersion.toNat, originChainId.toNat])

def hashTypedDataV4 (st : Storage) (structHash : Bytes32) (originChainId : Uint256) : Bytes32 :=
  keccak256 ([0x19, 0x01] ++ word (domainSeparatorV4 st originChainId).toNat ++ word structHash.toNat)

def updateV3DepositStructHash (depositId originChainId : Uint256) (u : UpdatedDeposit) : Bytes32 :=
  keccak256 (words [updateV3DepositDetailsHash.toNat, depositId.toNat, originChainId.toNat,
    u.updatedOutputAmount.toNat, u.updatedRecipient.toNat, (keccak256 u.updatedMessage.val).toNat])

def isClaimed (bitmap : Nat → Nat) (index : Nat) : Bool :=
  let mask := 1 <<< (index % 256)
  decide (bitmap (index / 256) &&& mask = mask)

def setClaimed (bitmap : Nat → Nat) (index : Nat) : Nat → Nat :=
  Function.update bitmap (index / 256) (bitmap (index / 256) ||| 1 <<< (index % 256))

section Primitives

variable {W : Type}

def setPool (f : Storage → Storage) : Code W Unit := update fun s => { s with pool := f s.pool }

def emit (call : Call) (e : Event) : Code W Unit :=
  update fun s => { s with trace := s.trace ++ [.event call e] }

def setFillStatus (relayHash : Bytes32) (new : FillStatus) : Code W Unit := update fun s =>
  { s with
    pool := { s.pool with fillStatuses := Function.update s.pool.fillStatuses relayHash new }
    trace := s.trace ++ [.status relayHash (s.pool.fillStatuses relayHash) new] }

def nonReentrant (m : Code W Unit) : Code W Unit := do
  let s ← read
  require (s.pool.entered = false) (.message "ReentrancyGuard: reentrant call")
  setPool fun p => { p with entered := true }
  m
  setPool fun p => { p with entered := false }

def unpausedFills (m : Code W Unit) : Code W Unit := do
  let s ← read
  require (s.pool.pausedFills = false) .fillsArePaused
  m

def unpausedDeposits (m : Code W Unit) : Code W Unit := do
  let s ← read
  require (s.pool.pausedDeposits = false) .depositsArePaused
  m

def onlyOwner (msg : Msg) (m : Code W Unit) : Code W Unit := do
  let s ← read
  require (s.pool.owner = msg.sender) (.message "Ownable: caller is not the owner")
  m

def onlyAdmin (V : Variant W) (msg : Msg) (m : Code W Unit) : Code W Unit := do
  let s ← read
  require (V.requireAdminSender msg s = true) .notAdmin
  m

/-- Run the code of another account. Its calls into the pool go through
`enter`, and a reverted one leaves no trace in the state it resumes from. -/
def runCallee (enter : Msg → Call → Code W Unit) : Callee W → Code W Unit
  | .halt true w => update fun s => { s with rest := w }
  | .halt false _ => revert .externalCallFailed
  | .invoke w msg call resume => do
      update fun s => { s with rest := w }
      let r ← attempt (enter msg call)
      let s ← read
      runCallee enter (resume r.toBool s)

def externalCall (H : Host W) (enter : Msg → Call → Code W Unit) (payoutOf : Option Bytes32)
    (c : ExternalCall) : Code W Unit := do
  update fun s => { s with trace := s.trace ++ [.external payoutOf c] }
  let s ← read
  runCallee enter (H.behave c s)

end Primitives

section Functions

-- `ext` makes a call to another account, `self` a delegatecall to the pool's
-- own code, and `call` is the function being executed.
variable {W : Type} (V : Variant W) (H : Host W) (ext : Option Bytes32 → ExternalCall → Code W Unit)
  (self : Call → Code W Unit) (msg : Msg) (call : Call)

def safeTransferFrom (payoutOf : Option Bytes32) (token src dst : Address) (amount : Uint256) :
    Code W Unit := do
  let s ← read
  require (H.isContract s.rest token = true) (.message "Address: call to non-contract")
  ext payoutOf (.safeTransferFrom token src dst amount)

def safeTransfer (payoutOf : Option Bytes32) (token dst : Address) (amount : Uint256) : Code W Unit := do
  let s ← read
  require (H.isContract s.rest token = true) (.message "Address: call to non-contract")
  ext payoutOf (.safeTransfer token dst amount)

def adminRemoveFunds (amount : Uint256) (token recipient : Address) : Code W Unit := do
  safeTransfer H ext none token recipient amount
  if token = 0 then ext none (.nativeTransfer recipient amount) else pure ()

def setCrossDomainAdmin (newCrossDomainAdmin : Address) : Code W Unit := do
  require (newCrossDomainAdmin ≠ 0) .invalidCrossDomainAdmin
  setPool fun p => { p with crossDomainAdmin := newCrossDomainAdmin }
  emit call (.setXDomainAdmin newCrossDomainAdmin)

def setWithdrawalRecipient (newWithdrawalRecipient : Address) : Code W Unit := do
  require (newWithdrawalRecipient ≠ 0) .invalidWithdrawalRecipient
  setPool fun p => { p with withdrawalRecipient := newWithdrawalRecipient }
  emit call (.setWithdrawalRecipient newWithdrawalRecipient)

def setEnableRoute (originToken : Address) (destinationChainId : Uint256) (enabled : Bool) : Code W Unit := do
  setPool fun p => { p with
    enabledDepositRoutes := Function.update p.enabledDepositRoutes originToken
      (Function.update (p.enabledDepositRoutes originToken) destinationChainId enabled) }
  emit call (.enabledDepositRoute originToken destinationChainId enabled)

def relayRootBundle (relayerRefundRoot slowRelayRoot : Bytes32) : Code W Unit := do
  let s ← read
  let rootBundleId : Uint32 := BitVec.ofNat 32 s.pool.rootBundles.length
  setPool fun p => { p with
    rootBundles := p.rootBundles ++ [⟨slowRelayRoot, relayerRefundRoot, fun _ => 0⟩] }
  emit call (.relayedRootBundle rootBundleId relayerRefundRoot slowRelayRoot)

/-- `delete` clears the two roots and leaves the nested bitmap as it is. -/
def emergencyDeleteRootBundle (rootBundleId : Uint256) : Code W Unit := do
  let s ← read
  require (rootBundleId.toNat < s.pool.rootBundles.length) .panic
  setPool fun p => { p with
    rootBundles := p.rootBundles.modify rootBundleId.toNat fun b => ⟨0, 0, b.claimedBitmap⟩ }
  emit call (.emergencyDeleteRootBundle rootBundleId)

def transferOwnership (newOwner : Address) : Code W Unit := do
  let s ← read
  setPool fun p => { p with owner := newOwner }
  emit call (.ownershipTransferred s.pool.owner newOwner)

/-- `numberOfDeposits++`: the old count, with a panic at the last one. -/
def nextDepositId : Code W Uint32 := do
  let s ← read
  require (s.pool.numberOfDeposits.toNat + 1 < 2 ^ 32) .panic
  setPool fun p => { p with numberOfDeposits := p.numberOfDeposits + 1 }
  pure s.pool.numberOfDeposits

/-- The three readings of the exclusivity parameter: none, an offset from the
current time, or a timestamp. -/
def exclusivityDeadline (exclusivityParameter : Uint32) (time : Nat) : Code W Uint32 :=
  if 0 < exclusivityParameter.toNat ∧ exclusivityParameter.toNat ≤ maxExclusivityPeriodSeconds then do
    require (exclusivityParameter.toNat + currentTime32 time < 2 ^ 32) .panic
    pure (BitVec.ofNat 32 (exclusivityParameter.toNat + currentTime32 time))
  else pure exclusivityParameter

def depositV3Internal (d : DepositV3) (depositId : Uint256) : Code W Unit := do
  let s ← read
  require (s.pool.enabledDepositRoutes d.inputToken d.destinationChainId = true) .disabledRoute
  require (d.quoteTimestamp.toNat ≤ s.time) .panic
  require (s.time - d.quoteTimestamp.toNat ≤ V.depositQuoteTimeBuffer.toNat) .invalidQuoteTimestamp
  require (s.time ≤ d.fillDeadline.toNat ∧ d.fillDeadline.toNat ≤ s.time + V.fillDeadlineBuffer.toNat)
    .invalidFillDeadline
  let deadline ← exclusivityDeadline d.exclusivityParameter s.time
  require (d.exclusivityParameter.toNat = 0 ∨ d.exclusiveRelayer ≠ 0) .invalidExclusiveRelayer
  if d.inputToken = V.wrappedNativeToken ∧ 0 < msg.value then do
    require (msg.value = d.inputAmount.toNat) .msgValueDoesNotMatchInputAmount
    ext none (.wrappedDeposit msg.value)
  else do
    require (msg.value = 0) .msgValueDoesNotMatchInputAmount
    safeTransferFrom H ext none d.inputToken msg.sender V.self d.inputAmount
  emit call (.v3FundsDeposited ⟨d.inputToken, d.outputToken, d.inputAmount, d.outputAmount,
    d.destinationChainId, depositId, d.quoteTimestamp, d.fillDeadline, deadline, d.depositor,
    d.recipient, d.exclusiveRelayer, d.message⟩)

/-- The legacy deposit. Its ERC20 branch does not look at `msg.value`. -/
def depositInternal (d : LegacyDeposit) : Code W Unit := do
  let s ← read
  require (s.pool.enabledDepositRoutes d.originToken d.destinationChainId = true) .disabledRoute
  require (d.relayerFeePct.toInt.natAbs < 5 * 10 ^ 17) .invalidRelayerFeePct
  require (d.amount.toNat ≤ maxTransferSize) .maxTransferSizeExceeded
  require (d.quoteTimestamp.toNat ≤ s.time) .panic
  require (s.time - d.quoteTimestamp.toNat ≤ V.depositQuoteTimeBuffer.toNat) .invalidQuoteTimestamp
  let newDepositId ← nextDepositId
  if d.originToken = V.wrappedNativeToken ∧ 0 < msg.value then do
    require (msg.value = d.amount.toNat) .msgValueDoesNotMatchInputAmount
    ext none (.wrappedDeposit msg.value)
  else safeTransferFrom H ext none d.originToken msg.sender V.self d.amount
  emit call (.v3FundsDeposited ⟨d.originToken, 0, d.amount, computeAmountPostFees d.amount d.relayerFeePct,
    d.destinationChainId, newDepositId.setWidth 256, d.quoteTimestamp, infiniteFillDeadline, 0, d.depositor,
    d.recipient, 0, d.message⟩)

def depositV3 (d : DepositV3) : Code W Unit := nonReentrant (unpausedDeposits do
  let depositId ← nextDepositId
  depositV3Internal V H ext msg call d (depositId.setWidth 256))

def unsafeDepositV3 (d : DepositV3) (depositNonce : Uint256) : Code W Unit :=
  nonReentrant (unpausedDeposits (depositV3Internal V H ext msg call d
    (getUnsafeDepositId msg.sender d.depositor depositNonce)))

/-- The quote timestamp and the fill deadline are taken from the clock. -/
def depositV3Now (d : DepositV3) (fillDeadlineOffset : Uint32) : Code W Unit := do
  let s ← read
  require (currentTime32 s.time + fillDeadlineOffset.toNat < 2 ^ 32) .panic
  depositV3 V H ext msg call { d with
    quoteTimestamp := BitVec.ofNat 32 s.time
    fillDeadline := BitVec.ofNat 32 (currentTime32 s.time + fillDeadlineOffset.toNat) }

def verifyUpdateV3DepositMessage (depositor : Address) (depositId originChainId : Uint256)
    (u : UpdatedDeposit) : Code W Unit := do
  let s ← read
  let digest := hashTypedDataV4 s.pool (updateV3DepositStructHash depositId originChainId u) originChainId
  require (H.isValidSignatureNow s depositor digest u.depositorSignature.val = true)
    .invalidDepositorSignature

def speedUpV3Deposit (depositor : Address) (depositId : Uint256) (u : UpdatedDeposit) : Code W Unit :=
  nonReentrant do
    verifyUpdateV3DepositMessage H depositor depositId V.chainId u
    emit call (.requestedSpeedUpV3Deposit u.updatedOutputAmount depositId depositor u.updatedRecipient
      u.updatedMessage u.depositorSignature)

def unwrapwrappedNativeTokenTo (payoutOf : Option Bytes32) (dst : Address) (amount : Uint256) :
    Code W Unit := do
  let s ← read
  if H.isContract s.rest dst = true then safeTransfer H ext payoutOf V.wrappedNativeToken dst amount
  else do
    ext payoutOf (.wrappedWithdraw amount)
    ext payoutOf (.sendValue dst amount)

/-- The payments of a fill, made after the status has been written and the
event emitted. -/
def payOut (p : V3RelayExecutionParams) (isSlowFill : Bool) : Code W Unit := do
  let payoutOf := some p.relayHash
  if p.relay.outputToken = V.wrappedNativeToken then do
    if isSlowFill = false then
      safeTransferFrom H ext payoutOf p.relay.outputToken msg.sender V.self p.updatedOutputAmount
    else pure ()
    unwrapwrappedNativeTokenTo V H ext payoutOf p.updatedRecipient p.updatedOutputAmount
  else if isSlowFill = false then
    safeTransferFrom H ext payoutOf p.relay.outputToken msg.sender p.updatedRecipient p.updatedOutputAmount
  else safeTransfer H ext payoutOf p.relay.outputToken p.updatedRecipient p.updatedOutputAmount
  let s ← read
  if 0 < p.updatedMessage.val.length ∧ H.isContract s.rest p.updatedRecipient = true then
    ext payoutOf (.handleV3AcrossMessage p.updatedRecipient p.relay.outputToken p.updatedOutputAmount
      msg.sender p.updatedMessage)
  else pure ()

def fillTypeOf (isSlowFill : Bool) (status : FillStatus) : FillType :=
  if isSlowFill then .slowFill
  else if status = .requestedSlowFill then .replacedSlowFill else .fastFill

def fillRelayV3 (p : V3RelayExecutionParams) (relayer : Address) (isSlowFill : Bool) : Code W Unit := do
  let s ← read
  require (s.time ≤ p.relay.fillDeadline.toNat) .expiredFillDeadline
  let fillType := fillTypeOf isSlowFill (s.pool.fillStatuses p.relayHash)
  require (s.pool.fillStatuses p.relayHash ≠ .filled) .relayFilled
  setFillStatus p.relayHash .filled
  emit call (.filledV3Relay ⟨p.relay, p.repaymentChainId, relayer,
    ⟨p.updatedRecipient, p.updatedMessage, p.updatedOutputAmount, fillType⟩⟩)
  if msg.sender = p.updatedRecipient ∧ isSlowFill = false then pure ()
  else payOut V H ext msg p isSlowFill

def checkExclusivity (relayData : V3RelayData) : Code W Unit := do
  let s ← read
  require (fillIsExclusive relayData.exclusivityDeadline (currentTime32 s.time) = false ∨
    relayData.exclusiveRelayer = msg.sender) .notExclusiveRelayer

/-- Neither `nonReentrant` nor `unpausedFills` guards this function: both are
commented out in its header. -/
def fillV3Relay (relayData : V3RelayData) (repaymentChainId : Uint256) : Code W Unit := do
  checkExclusivity msg relayData
  fillRelayV3 V H ext msg call ⟨relayData, getV3RelayHash V.chainId relayData, relayData.outputAmount,
    relayData.recipient, relayData.message, repaymentChainId⟩ msg.sender false

def fillV3RelayWithUpdatedDeposit (relayData : V3RelayData) (repaymentChainId : Uint256)
    (u : UpdatedDeposit) : Code W Unit := nonReentrant (unpausedFills do
  checkExclusivity msg relayData
  verifyUpdateV3DepositMessage H relayData.depositor relayData.depositId relayData.originChainId u
  fillRelayV3 V H ext msg call ⟨relayData, getV3RelayHash V.chainId relayData, u.updatedOutputAmount,
    u.updatedRecipient, u.updatedMessage, repaymentChainId⟩ msg.sender false)

def requestV3SlowFill (relayData : V3RelayData) : Code W Unit := nonReentrant (unpausedFills do
  let s ← read
  require (fillIsExclusive relayData.exclusivityDeadline (currentTime32 s.time) = false)
    .noSlowFillsInExclusivityWindow
  require (currentTime32 s.time ≤ relayData.fillDeadline.toNat) .expiredFillDeadline
  let relayHash := getV3RelayHash V.chainId relayData
  require (s.pool.fillStatuses relayHash = .unfilled) .invalidSlowFillRequest
  setFillStatus relayHash .requestedSlowFill
  emit call (.requestedV3SlowFill relayData))

/-- `abi.encodeWithSelector(fillV3Relay.selector, abi.encodePacked(originData, fillerData))`
without the selector: the packed data is encoded once more, as a single
argument of type `bytes`. -/
def fillCalldata (originData fillerData : Bytes) : Bytes :=
  encode [.tail (encodeBytes (originData ++ fillerData))]

def decodeFillCall (originData fillerData : Bytes) : Call :=
  match decodeFillV3Relay (fillCalldata originData fillerData) with
  | some (relayData, repaymentChainId) => .fillV3Relay relayData repaymentChainId
  | none => .undecodable

def fill (orderId : Bytes32) (originData fillerData : Bytes) : Code W Unit := do
  require (keccak256 originData = orderId) .wrongERC7683OrderId
  let r ← attempt (self (decodeFillCall originData fillerData))
  match r with
  | .ok _ => pure ()
  | .error e => revert (.lowLevelCallFailed e)

def executeV3SlowRelayLeaf (slowFillLeaf : V3SlowFill) (rootBundleId : Uint32) (proof : List Bytes32) :
    Code W Unit := nonReentrant do
  let relayData := slowFillLeaf.relayData
  let s ← read
  forEach (ext none) (V.preExecuteLeafHook relayData.outputToken s)
  let s ← read
  match s.pool.rootBundles[rootBundleId.toNat]? with
  | none => revert .panic
  | some rootBundle => do
      require (verifyV3SlowRelayFulfillment rootBundle.slowRelayRoot
        ⟨relayData, V.chainId, slowFillLeaf.updatedOutputAmount⟩ proof = true) .invalidMerkleProof
      fillRelayV3 V H ext msg call ⟨relayData, getV3RelayHash V.chainId relayData,
        slowFillLeaf.updatedOutputAmount, relayData.recipient, relayData.message, 0⟩ 0 true

def setClaimedLeaf (rootBundleId leafId : Uint32) : Code W Unit := do
  let s ← read
  match s.pool.rootBundles[rootBundleId.toNat]? with
  | none => revert .panic
  | some rootBundle => do
      require (isClaimed rootBundle.claimedBitmap leafId.toNat = false) .claimedMerkleLeaf
      setPool fun p => { p with
        rootBundles := p.rootBundles.modify rootBundleId.toNat fun b =>
          { b with claimedBitmap := setClaimed b.claimedBitmap leafId.toNat } }

def bridgeTokensToHubPool (amountToReturn : Uint256) (l2TokenAddress : Address) : Code W Unit := do
  let s ← read
  match V.bridgeTokensToHubPool msg amountToReturn l2TokenAddress s with
  | .error e => revert e
  | .ok calls => forEach (ext none) calls

def distributeRelayerRefunds (leaf : RelayerRefundLeaf) : Code W Unit := do
  require (leaf.refundAddresses.length = leaf.refundAmounts.length) .invalidMerkleLeaf
  forEach (fun r : Address × Uint256 =>
      if 0 < r.2.toNat then safeTransfer H ext none leaf.l2TokenAddress r.1 r.2 else pure ())
    (leaf.refundAddresses.zip leaf.refundAmounts)
  if 0 < leaf.amountToReturn.toNat then do
    bridgeTokensToHubPool V ext msg leaf.amountToReturn leaf.l2TokenAddress
    emit call (.tokensBridged leaf.amountToReturn leaf.chainId leaf.leafId leaf.l2TokenAddress msg.sender)
  else pure ()

def executeRelayerRefundLeaf (rootBundleId : Uint32) (leaf : RelayerRefundLeaf) (proof : List Bytes32) :
    Code W Unit := nonReentrant do
  let s ← read
  forEach (ext none) (V.preExecuteLeafHook leaf.l2TokenAddress s)
  require (leaf.chainId = V.chainId) .invalidChainId
  let s ← read
  match s.pool.rootBundles[rootBundleId.toNat]? with
  | none => revert .panic
  | some rootBundle => do
      require (verifyRelayerRefund rootBundle.relayerRefundRoot leaf proof = true) .invalidMerkleProof
      setClaimedLeaf rootBundleId leaf.leafId
      distributeRelayerRefunds V H ext msg call leaf
      emit call (.executedRelayerRefundRoot rootBundleId leaf msg.sender)

/-- `multicall` stops at the first entry that reverts. -/
def multicall (data : List Call) : Code W Unit := do
  require (V.validateMulticallData data = true) .multicallExecuteLeaf
  forEach self data

def tryMulticall (data : List Call) : Code W Unit := do
  require (V.validateMulticallData data = true) .multicallExecuteLeaf
  forEach (fun c => do
    let _ ← attempt (self c)
    pure ()) data

def setFxChild (newFxChild : Address) : Code W Unit := do
  setPool fun p => { p with fxChild := newFxChild }
  emit call (.setFxChild newFxChild)

def setPolygonTokenBridger (newPolygonTokenBridger : Address) : Code W Unit := do
  setPool fun p => { p with polygonTokenBridger := newPolygonTokenBridger }
  emit call (.setPolygonTokenBridger newPolygonTokenBridger)

def wrap : Code W Unit := do
  let s ← read
  if 0 < H.nativeBalance s.rest then ext none (.wrappedDeposit (H.nativeBalance s.rest)) else pure ()

/-- What the Polygon pool asks before it executes a refund leaf. -/
def onlyEOA (leaf : RelayerRefundLeaf) : Code W Unit := do
  let s ← read
  require (V.hasFxChild = false ∨ leaf.amountToReturn.toNat = 0 ∨ msg.sender = H.txOrigin s.rest) .notEOA

def validateInternalCalls (m : Code W Unit) : Code W Unit := do
  let s ← read
  require (s.pool.callValidated = false) .callValidatedAlreadySet
  setPool fun p => { p with callValidated := true }
  m
  setPool fun p => { p with callValidated := false }

def processMessageFromRoot (rootMessageSender : Address) (data : Call) : Code W Unit := validateInternalCalls do
  let s ← read
  require (msg.sender = s.pool.fxChild) .notFxChild
  require (rootMessageSender = s.pool.crossDomainAdmin) .notHubPool
  let r ← attempt (self data)
  match r with
  | .ok _ => emit call (.receivedMessageFromL1 msg.sender rootMessageSender)
  | .error _ => revert .delegateCallFailed

/-- The public function that `call` selects, with its modifiers. -/
def dispatch : Call → Code W Unit
  | .pauseDeposits pause => onlyAdmin V msg (nonReentrant do
      setPool fun p => { p with pausedDeposits := pause }
      emit call (.pausedDeposits pause))
  | .pauseFills pause => onlyAdmin V msg (nonReentrant do
      setPool fun p => { p with pausedFills := pause }
      emit call (.pausedFills pause))
  | .setCrossDomainAdmin a => onlyAdmin V msg (nonReentrant (setCrossDomainAdmin call a))
  | .setWithdrawalRecipient a => onlyAdmin V msg (nonReentrant (setWithdrawalRecipient call a))
  | .setEnableRoute t c e => onlyOwner msg (nonReentrant (setEnableRoute call t c e))
  | .relayRootBundle r s => onlyAdmin V msg (nonReentrant (relayRootBundle call r s))
  | .emergencyDeleteRootBundle i => onlyAdmin V msg (nonReentrant (emergencyDeleteRootBundle call i))
  | .adminRemoveFunds a t r => onlyOwner msg (adminRemoveFunds H ext a t r)
  | .transferOwnership a => onlyOwner msg do
      require (a ≠ 0) (.message "Ownable: new owner is the zero address")
      transferOwnership call a
  | .renounceOwnership => onlyOwner msg (transferOwnership call 0)
  | .deposit d => nonReentrant (unpausedDeposits
      (depositInternal V H ext msg call { d with depositor := msg.sender }))
  | .depositFor d => nonReentrant (unpausedDeposits (depositInternal V H ext msg call d))
  | .depositV3 d => depositV3 V H ext msg call d
  | .unsafeDepositV3 d n => unsafeDepositV3 V H ext msg call d n
  | .depositV3Now d o => depositV3Now V H ext msg call d o
  | .depositExclusive d => depositV3 V H ext msg call d
  | .speedUpV3Deposit a i u => speedUpV3Deposit V H call a i u
  | .fillV3Relay r c => fillV3Relay V H ext msg call r c
  | .fillV3RelayWithUpdatedDeposit r c u => fillV3RelayWithUpdatedDeposit V H ext msg call r c u
  | .requestV3SlowFill r => requestV3SlowFill V call r
  | .fill o d f => fill self o d f
  | .executeV3SlowRelayLeaf f i p => executeV3SlowRelayLeaf V H ext msg call f i p
  | .executeRelayerRefundLeaf i l p => do
      onlyEOA V H msg l
      executeRelayerRefundLeaf V H ext msg call i l p
  | .multicall data => multicall V self data
  | .tryMulticall data => tryMulticall V self data
  | .setFxChild a =>
      if V.hasFxChild then onlyAdmin V msg (nonReentrant (setFxChild call a)) else revert .undecodable
  | .setPolygonTokenBridger a =>
      if V.hasFxChild then onlyAdmin V msg (nonReentrant (setPolygonTokenBridger call a)) else revert .undecodable
  | .processMessageFromRoot r data =>
      if V.hasFxChild then processMessageFromRoot self msg call r data else revert .undecodable
  | .wrap => if V.hasFxChild then nonReentrant (wrap H ext) else revert .undecodable
  | .receive => pure ()
  | .undecodable => revert .undecodable

end Functions

section System

variable {W : Type} (V : Variant W) (H : Host W)

/-- A message call moves its value to the pool before any code of the pool
runs. A delegatecall does not. -/
def enter (run : Msg → Call → Code W Unit) (msg : Msg) (call : Call) : Code W Unit := do
  let s ← read
  match (if msg.value = 0 then some s.rest else H.pay msg.sender msg.value s.rest) with
  | none => revert .externalCallFailed
  | some w => do
      update fun s => { s with rest := w }
      run msg call

/-- Execute a call of the pool with at most `n` further levels of calls, the
depth of the EVM's call stack. -/
def exec : Nat → Msg → Call → Code W Unit
  | 0, _, _ => revert .callDepth
  | n + 1, msg, call =>
      record (Frame.mk msg call) do
        require (msg.value = 0 ∨ call.payable = true) (.message "")
        dispatch V H (externalCall H (enter H (exec n))) (exec n msg) msg call call

/-- What happens to the chain from outside: a transaction that calls the pool
at some time, or any change elsewhere. -/
inductive Input (W : Type)
  | transact (time : Nat) (msg : Msg) (call : Call)
  | elsewhere (f : W → W)

def input (n : Nat) : Input W → Code W Unit
  | .transact time msg call => do
      update fun s => { s with time := time }
      let _ ← attempt (enter H (exec V H n) msg call)
      pure ()
  | .elsewhere f => update fun s => { s with rest := f s.rest }

def run (n : Nat) (inputs : List (Input W)) : Code W Unit := forEach (input V H n) inputs

end System

end Across.SpokePool
