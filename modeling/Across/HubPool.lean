import Across.HubState
import Across.SpokePool

namespace Across.HubPool

open WordBytes Abi Keccak MerkleProof CallExec CallExec.Exec Erc20 Checked HubState

/-- `lpFeeRatePerSecond`, which no function of the contract changes. -/
def lpFeeRatePerSecond : Uint256 := 1500000000000

def oneEther : Uint256 := 1000000000000000000

def poolRebalanceRouteKey (l1Token : Address) (destinationChainId : Uint256) : Bytes32 :=
  keccak256 (words [l1Token.toNat, destinationChainId.toNat])

def activeRequest (h : Hub) : Bool := decide (h.rootBundleProposal.unclaimedPoolRebalanceLeafCount ≠ 0)

section Primitives

def setHub (f : Hub → Hub) : HubCode Unit := update fun s => { s with hub := f s.hub }

def setPool (l1Token : Address) (f : PooledToken → PooledToken) : HubCode Unit :=
  setHub fun h => { h with pooledTokens := Function.update h.pooledTokens l1Token (f (h.pooledTokens l1Token)) }

def setProposal (f : RootBundle → RootBundle) : HubCode Unit :=
  setHub fun h => { h with rootBundleProposal := f h.rootBundleProposal }

def emit (e : Entry) : HubCode Unit := update fun s => { s with log := s.log ++ [e] }

/-- A call to a token: it fails where there is no code, or where the token
itself fails. -/
def changeToken (token : Address) (f : Token Address → Option (Token Address)) : HubCode Unit := do
  let s ← read
  require (s.code token = true) .callFailed
  match f (s.tokens token) with
  | none => revert .callFailed
  | some t => update fun s => { s with tokens := Function.update s.tokens token t }

def balanceOf (token account : Address) : HubCode Uint256 := do
  let s ← read
  require (s.code token = true) .callFailed
  pure ((s.tokens token).balance account)

def totalSupply (token : Address) : HubCode Uint256 := do
  let s ← read
  require (s.code token = true) .callFailed
  pure (s.tokens token).supply

def onlyOwner (msg : Msg) : HubCode Unit := do
  let s ← read
  require (s.hub.owner = msg.sender) (.require "Ownable: caller is not the owner")

def unpaused : HubCode Unit := do
  let s ← read
  require (s.hub.paused = false) (.require "Contract is paused")

def noActiveRequests : HubCode Unit := do
  let s ← read
  require (activeRequest s.hub = false) (.require "Proposal has unclaimed leaves")

end Primitives

section Functions

variable (D : Deployment) (A : Answers) (msg : Msg)

def safeTransfer (token dst : Address) (amount : Uint256) : HubCode Unit :=
  changeToken token fun t => t.transfer D.self dst amount

def safeTransferFrom (token src : Address) (amount : Uint256) : HubCode Unit := do
  let s ← read
  require (A.approved s token src amount = true) .callFailed
  changeToken token fun t => t.transfer src D.self amount

def releaseBond (recipient : Address) : HubCode Unit := do
  let s ← read
  safeTransfer D s.hub.bondToken recipient s.hub.bondAmount
  emit (.bondReleased s.hub.bondToken s.hub.bondAmount recipient)

def getInitializedCrossChainContracts (chainId : Uint256) : HubCode CrossChainContract := do
  let s ← read
  let c := s.hub.crossChainContracts chainId
  require (c.spokePool ≠ 0) (.require "SpokePool not initialized")
  require (s.code c.adapter = true) (.require "Adapter not initialized")
  pure c

def relayMessage : HubCode Unit := require (A.relayMessage = true) (.require "delegatecall failed")

/-- The adapter moves exactly the amount it is told to, out of the pool. -/
def relayTokens (l1Token : Address) (amount : Uint256) : HubCode Unit :=
  match A.relayTokens l1Token amount with
  | none => revert (.require "delegatecall failed")
  | some bridge => do
      require (bridge ≠ D.self) (.require "delegatecall failed")
      safeTransfer D l1Token bridge amount

def getAccumulatedFees (undistributedLpFees : Uint256) (lastLpFeeUpdate : Uint32) : HubCode Uint256 := do
  let s ← read
  let timeFromLastInteraction ← checkedSub .panic (BitVec.ofNat 256 s.time) (lastLpFeeUpdate.setWidth 256)
  let perSecond ← checkedMul .panic undistributedLpFees lpFeeRatePerSecond
  let product ← checkedMul .panic perSecond timeFromLastInteraction
  let maxUndistributedLpFees := product / oneEther
  pure (if maxUndistributedLpFees.toNat < undistributedLpFees.toNat then maxUndistributedLpFees
    else undistributedLpFees)

def updateAccumulatedLpFees (l1Token : Address) : HubCode Unit := do
  let s ← read
  let p := s.hub.pooledTokens l1Token
  let accumulatedFees ← getAccumulatedFees p.undistributedLpFees p.lastLpFeeUpdate
  let undistributedLpFees ← checkedSub .panic p.undistributedLpFees accumulatedFees
  setPool l1Token fun p => { p with
    undistributedLpFees := undistributedLpFees
    lastLpFeeUpdate := BitVec.ofNat 32 s.time }

def balanceSansBond (l1Token : Address) : HubCode Uint256 := do
  let balance ← balanceOf l1Token D.self
  let s ← read
  if l1Token = s.hub.bondToken ∧ activeRequest s.hub = true then checkedSub .panic balance s.hub.bondAmount
  else pure balance

def syncInternal (l1Token : Address) : HubCode Unit := do
  let sansBond ← balanceSansBond D l1Token
  let s ← read
  let p := s.hub.pooledTokens l1Token
  when (p.liquidReserves.toNat < sansBond.toNat) do
    let surplus ← checkedSub .panic sansBond p.liquidReserves
    let utilizedReserves ← signedSub .panic p.utilizedReserves surplus
    setPool l1Token fun p => { p with utilizedReserves := utilizedReserves, liquidReserves := sansBond }

/-- The signed number that `_exchangeRateCurrent` casts to an unsigned one. -/
def exchangeRateNumerator (l1Token : Address) : HubCode Int256 := do
  updateAccumulatedLpFees l1Token
  syncInternal D l1Token
  let s ← read
  let p := s.hub.pooledTokens l1Token
  let total ← signedAdd .panic p.liquidReserves p.utilizedReserves
  signedSub .panic total p.undistributedLpFees

def exchangeRateInternal (l1Token : Address) : HubCode Uint256 := do
  let s ← read
  let lpTokenTotalSupply ← totalSupply (s.hub.pooledTokens l1Token).lpToken
  if lpTokenTotalSupply = 0 then pure oneEther
  else do
    let numerator ← exchangeRateNumerator D l1Token
    let product ← checkedMul .panic numerator oneEther
    checkedDiv .panic product lpTokenTotalSupply

def liquidityUtilizationPostRelayInternal (l1Token : Address) (relayedAmount : Uint256) : HubCode Uint256 := do
  syncInternal D l1Token
  let s ← read
  let p := s.hub.pooledTokens l1Token
  let flooredUtilizedReserves : Uint256 := if 0 < p.utilizedReserves.toInt then p.utilizedReserves else 0
  let numerator ← checkedAdd .panic relayedAmount flooredUtilizedReserves
  let denominator ← checkedAdd .panic p.liquidReserves flooredUtilizedReserves
  if denominator = 0 then pure oneEther
  else do
    let product ← checkedMul .panic numerator oneEther
    checkedDiv .panic product denominator

def exchangeRateCurrent (l1Token : Address) : HubCode Uint256 := exchangeRateInternal D l1Token

def liquidityUtilizationCurrent (l1Token : Address) : HubCode Uint256 :=
  liquidityUtilizationPostRelayInternal D l1Token 0

def liquidityUtilizationPostRelay (l1Token : Address) (relayedAmount : Uint256) : HubCode Uint256 :=
  liquidityUtilizationPostRelayInternal D l1Token relayedAmount

def sync (l1Token : Address) : HubCode Unit := syncInternal D l1Token

def allocateLpAndProtocolFees (l1Token : Address) (bundleLpFees : Uint256) : HubCode Unit := do
  let s ← read
  let product ← checkedMul .panic bundleLpFees s.hub.protocolFeeCapturePct
  let protocolFeesCaptured := product / oneEther
  let lpFeesCaptured ← checkedSub .panic bundleLpFees protocolFeesCaptured
  when (0 < lpFeesCaptured.toNat) do
    let p := s.hub.pooledTokens l1Token
    let undistributedLpFees ← checkedAdd .panic p.undistributedLpFees lpFeesCaptured
    let utilizedReserves ← signedAdd .panic p.utilizedReserves lpFeesCaptured
    setPool l1Token fun p => { p with
      undistributedLpFees := undistributedLpFees, utilizedReserves := utilizedReserves }
    emit (.lpFeesCaptured l1Token lpFeesCaptured)
  when (0 < protocolFeesCaptured.toNat) do
    let unclaimed ← checkedAdd .panic (s.hub.unclaimedAccumulatedProtocolFees l1Token) protocolFeesCaptured
    setHub fun h => { h with
      unclaimedAccumulatedProtocolFees := Function.update h.unclaimedAccumulatedProtocolFees l1Token unclaimed }

def sendToken (leaf : PoolRebalanceLeaf) (i : Nat) : HubCode Unit := do
  let l1Token ← nth .panic leaf.l1Tokens i
  let s ← read
  require (s.hub.poolRebalanceRoutes (poolRebalanceRouteKey l1Token leaf.chainId) ≠ 0)
    (.require "Route not whitelisted")
  let netSendAmount ← nth .panic leaf.netSendAmounts i
  when (0 < netSendAmount.toInt) do
    relayTokens D A l1Token netSendAmount
    let s ← read
    let p := s.hub.pooledTokens l1Token
    let utilizedReserves ← signedAdd .panic p.utilizedReserves netSendAmount
    let liquidReserves ← checkedSub .panic p.liquidReserves netSendAmount
    setPool l1Token fun p => { p with
      utilizedReserves := utilizedReserves, liquidReserves := liquidReserves }
  let bundleLpFees ← nth .panic leaf.bundleLpFees i
  allocateLpAndProtocolFees l1Token bundleLpFees

def sendTokensToChainAndUpdatePooledTokenTrackers (leaf : PoolRebalanceLeaf) : HubCode Unit :=
  forEach (sendToken D A leaf) (List.range leaf.l1Tokens.length)

def cancelBundle : HubCode Unit := do
  let s ← read
  releaseBond D s.hub.rootBundleProposal.proposer
  setProposal fun _ => .zero
  emit (.rootBundleCanceled msg.sender (BitVec.ofNat 256 s.time))

def setPaused (pause : Bool) : HubCode Unit := do
  setHub fun h => { h with paused := pause }
  emit (.paused pause)

def emergencyDeleteProposal : HubCode Unit := do
  let s ← read
  let p := s.hub.rootBundleProposal
  setProposal fun _ => .zero
  when (0 < p.unclaimedPoolRebalanceLeafCount.toNat) (releaseBond D p.proposer)
  emit (.emergencyRootBundleDeleted p.poolRebalanceRoot p.relayerRefundRoot p.slowRelayRoot p.proposer)

def relaySpokePoolAdminFunction (chainId : Uint256) (functionData : Bytes) : HubCode Unit := do
  let _ ← getInitializedCrossChainContracts chainId
  relayMessage A
  emit (.spokePoolAdminFunctionTriggered chainId functionData)

def setProtocolFeeCapture (newAddress : Address) (newPct : Uint256) : HubCode Unit := do
  require (newPct.toNat ≤ 10 ^ 18) (.require "Bad protocolFeeCapturePct")
  require (newAddress ≠ 0) (.require "Bad protocolFeeCaptureAddress")
  setHub fun h => { h with protocolFeeCaptureAddress := newAddress, protocolFeeCapturePct := newPct }
  emit (.protocolFeeCaptureSet newAddress newPct)

def setBond (newBondToken : Address) (newBondAmount : Uint256) : HubCode Unit := do
  noActiveRequests
  require (newBondAmount ≠ 0) (.require "bond equal to final fee")
  require (A.onWhitelist = true) (.require "Not on whitelist")
  let bondAmount ← checkedAdd .panic newBondAmount A.finalFee
  setHub fun h => { h with bondToken := newBondToken, bondAmount := bondAmount }
  emit (.bondSet newBondToken bondAmount)

def setLiveness (newLiveness : Uint32) : HubCode Unit := do
  require (600 < newLiveness.toNat) (.require "Liveness too short")
  setHub fun h => { h with liveness := newLiveness }
  emit (.livenessSet newLiveness)

def setIdentifier (newIdentifier : Bytes32) : HubCode Unit := do
  noActiveRequests
  require (A.identifierSupported = true) (.require "Identifier not supported")
  setHub fun h => { h with identifier := newIdentifier }
  emit (.identifierSet newIdentifier)

def setCrossChainContracts (l2ChainId : Uint256) (adapter spokePool : Address) : HubCode Unit := do
  setHub fun h => { h with
    crossChainContracts := Function.update h.crossChainContracts l2ChainId ⟨adapter, spokePool⟩ }
  emit (.crossChainContractsSet l2ChainId adapter spokePool)

def setPoolRebalanceRoute (destinationChainId : Uint256) (l1Token destinationToken : Address) :
    HubCode Unit := do
  setHub fun h => { h with
    poolRebalanceRoutes := Function.update h.poolRebalanceRoutes
      (poolRebalanceRouteKey l1Token destinationChainId) destinationToken }
  emit (.setPoolRebalanceRoute destinationChainId l1Token destinationToken)

/-- `setEnableRoute(address,uint256,bool)` with its arguments, as sent to a spoke. -/
def setEnableRouteData (originToken : Address) (destinationChainId : Uint256) (enabled : Bool) : Bytes :=
  (word (keccak256 (SpokePool.utf8 "setEnableRoute(address,uint256,bool)")).toNat).take 4 ++
    words [originToken.toNat, destinationChainId.toNat, enabled.toNat]

def setDepositRoute (originChainId destinationChainId : Uint256) (originToken : Address)
    (depositsEnabled : Bool) : HubCode Unit := do
  relaySpokePoolAdminFunction A originChainId
    (setEnableRouteData originToken destinationChainId depositsEnabled)
  emit (.setEnableDepositRoute originChainId destinationChainId originToken depositsEnabled)

/-- The factory deploys a new token, at an address that had no code. -/
def createLpToken (l1Token : Address) : HubCode Address := do
  let s ← read
  require (s.code l1Token = true) .callFailed
  require (s.code A.newLpToken = false ∧ A.newLpToken ≠ 0) .callFailed
  update fun s => { s with
    tokens := Function.update s.tokens A.newLpToken .empty
    code := Function.update s.code A.newLpToken true
    lpTokens := Function.update s.lpTokens A.newLpToken true }
  pure A.newLpToken

def enableL1TokenForLiquidityProvision (l1Token : Address) : HubCode Unit := do
  let s ← read
  when ((s.hub.pooledTokens l1Token).lpToken = 0) do
    let lpToken ← createLpToken A l1Token
    setPool l1Token fun p => { p with lpToken := lpToken, lastLpFeeUpdate := BitVec.ofNat 32 s.time }
  setPool l1Token fun p => { p with isEnabled := true }
  let s ← read
  emit (.l1TokenEnabledForLiquidityProvision l1Token (s.hub.pooledTokens l1Token).lpToken)

def disableL1TokenForLiquidityProvision (l1Token : Address) : HubCode Unit := do
  setPool l1Token fun p => { p with isEnabled := false }
  let s ← read
  emit (.l2TokenDisabledForLiquidityProvision l1Token (s.hub.pooledTokens l1Token).lpToken)

def haircutReserves (l1Token : Address) (haircutAmount : Int256) : HubCode Unit := do
  let s ← read
  let utilizedReserves ← signedSub .panic (s.hub.pooledTokens l1Token).utilizedReserves haircutAmount
  setPool l1Token fun p => { p with utilizedReserves := utilizedReserves }
  emit (.reservesHaircut l1Token haircutAmount)

/-- The deposit of a provider, wrapped on the way in when it comes as ether. -/
def takeDeposit (l1Token : Address) (l1TokenAmount : Uint256) : HubCode Unit :=
  if D.weth = l1Token ∧ 0 < msg.value.toNat then changeToken D.weth fun t => t.mint D.self msg.value
  else safeTransferFrom D A l1Token msg.sender l1TokenAmount

def addLiquidity (l1Token : Address) (l1TokenAmount : Uint256) : HubCode Unit := do
  unpaused
  let s ← read
  require ((s.hub.pooledTokens l1Token).isEnabled = true) (.require "Token not enabled")
  require ((D.weth = l1Token ∧ msg.value = l1TokenAmount) ∨ msg.value = 0) (.require "Bad msg.value")
  let product ← checkedMul .panic l1TokenAmount oneEther
  let rate ← exchangeRateInternal D l1Token
  let lpTokensToMint ← checkedDiv .panic product rate
  let s ← read
  let p := s.hub.pooledTokens l1Token
  let liquidReserves ← checkedAdd .panic p.liquidReserves l1TokenAmount
  setPool l1Token fun p => { p with liquidReserves := liquidReserves }
  changeToken p.lpToken fun t => t.mint msg.sender lpTokensToMint
  takeDeposit D A msg l1Token l1TokenAmount
  emit (.liquidityAdded l1Token l1TokenAmount lpTokensToMint msg.sender)

/-- The payment to a provider, unwrapped on the way out when it goes as ether. -/
def payProvider (l1Token : Address) (l1TokensToReturn : Uint256) (sendEth : Bool) : HubCode Unit :=
  if sendEth = true then do
    changeToken D.weth fun t => t.burn D.self l1TokensToReturn
    require (A.acceptsEth = true) (.require "Address: unable to send value, recipient may have reverted")
  else safeTransfer D l1Token msg.sender l1TokensToReturn

def removeLiquidity (l1Token : Address) (lpTokenAmount : Uint256) (sendEth : Bool) : HubCode Unit := do
  unpaused
  require (D.weth = l1Token ∨ sendEth = false) (.require "Cant send eth")
  let rate ← exchangeRateInternal D l1Token
  let product ← checkedMul .panic lpTokenAmount rate
  let l1TokensToReturn := product / oneEther
  let s ← read
  let p := s.hub.pooledTokens l1Token
  changeToken p.lpToken fun t => t.burn msg.sender lpTokenAmount
  let liquidReserves ← checkedSub .panic p.liquidReserves l1TokensToReturn
  setPool l1Token fun p => { p with liquidReserves := liquidReserves }
  payProvider D A msg l1Token l1TokensToReturn sendEth
  emit (.liquidityRemoved l1Token l1TokensToReturn lpTokenAmount msg.sender)

def proposeRootBundle (bundleEvaluationBlockNumbers : List Uint256) (poolRebalanceLeafCount : Uint8)
    (poolRebalanceRoot relayerRefundRoot slowRelayRoot : Bytes32) : HubCode Unit := do
  noActiveRequests
  unpaused
  require (0 < poolRebalanceLeafCount.toNat) (.require "Bundle must have at least 1 leaf")
  let s ← read
  let challengePeriodEndTimestamp ← checkedAdd .panic (BitVec.ofNat 32 s.time) s.hub.liveness
  setProposal fun _ => ⟨poolRebalanceRoot, relayerRefundRoot, slowRelayRoot, 0, msg.sender,
    poolRebalanceLeafCount, challengePeriodEndTimestamp⟩
  safeTransferFrom D A s.hub.bondToken msg.sender s.hub.bondAmount
  emit (.bondTaken s.hub.bondToken s.hub.bondAmount msg.sender poolRebalanceLeafCount)
  emit (.proposeRootBundle challengePeriodEndTimestamp poolRebalanceLeafCount bundleEvaluationBlockNumbers
    poolRebalanceRoot relayerRefundRoot slowRelayRoot msg.sender)

def executeRootBundle (leaf : PoolRebalanceLeaf) (proof : List Bytes32) : HubCode Unit := do
  unpaused
  let s ← read
  let p := s.hub.rootBundleProposal
  require (p.challengePeriodEndTimestamp.toNat < s.time) (.require "Not passed liveness")
  require (isClaimed1D p.claimedBitMap leaf.leafId = false) (.require "Already claimed")
  require (verifyPoolRebalance p.poolRebalanceRoot leaf proof = true) (.require "Bad Proof")
  let _ ← getInitializedCrossChainContracts leaf.chainId
  let count ← checkedSub .panic p.unclaimedPoolRebalanceLeafCount 1
  setProposal fun p => { p with
    claimedBitMap := setClaimed1D p.claimedBitMap leaf.leafId
    unclaimedPoolRebalanceLeafCount := count }
  sendTokensToChainAndUpdatePooledTokenTrackers D A leaf
  when (leaf.groupIndex = 0) (relayMessage A)
  when (count = 0) (releaseBond D p.proposer)
  emit (.rootBundleExecuted leaf msg.sender)

/-- The oracle takes the bond of the proposal, then the proposal is deleted and
the disputer's bond passes through the pool to the oracle. Where the request
cannot be made the bundle is cancelled instead. -/
def disputeRootBundle : HubCode Unit := do
  let s ← read
  let p := s.hub.rootBundleProposal
  require (s.time % 2 ^ 32 ≤ p.challengePeriodEndTimestamp.toNat) (.require "Request passed liveness")
  if s.hub.bondAmount.toNat ≤ A.finalFee.toNat then cancelBundle D msg
  else if A.requestSucceeds = false then cancelBundle D msg
  else do
    require (A.optimisticOracle ≠ D.self) .callFailed
    releaseBond D A.optimisticOracle
    let _ ← checkedAdd .panic (BitVec.ofNat 32 s.time) s.hub.liveness
    setProposal fun _ => .zero
    safeTransferFrom D A s.hub.bondToken msg.sender s.hub.bondAmount
    require (A.disputeSucceeds = true) .callFailed
    safeTransfer D s.hub.bondToken A.optimisticOracle s.hub.bondAmount
    emit (.rootBundleDisputed msg.sender (BitVec.ofNat 256 (s.time % 2 ^ 32)))

def claimProtocolFeesCaptured (l1Token : Address) : HubCode Unit := do
  let s ← read
  let unclaimed := s.hub.unclaimedAccumulatedProtocolFees l1Token
  setHub fun h => { h with
    unclaimedAccumulatedProtocolFees := Function.update h.unclaimedAccumulatedProtocolFees l1Token 0 }
  safeTransfer D l1Token s.hub.protocolFeeCaptureAddress unclaimed
  emit (.protocolFeesCapturedClaimed l1Token unclaimed)

end Functions

end Across.HubPool
