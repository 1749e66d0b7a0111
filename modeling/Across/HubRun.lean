import Across.HubPool

namespace Across.HubRun

open WordBytes Abi CallExec CallExec.Exec Erc20 HubState HubPool

inductive Op
  | setPaused (pause : Bool)
  | emergencyDeleteProposal
  | relaySpokePoolAdminFunction (chainId : Uint256) (functionData : Bytes)
  | setProtocolFeeCapture (newProtocolFeeCaptureAddress : Address) (newProtocolFeeCapturePct : Uint256)
  | setBond (newBondToken : Address) (newBondAmount : Uint256)
  | setLiveness (newLiveness : Uint32)
  | setIdentifier (newIdentifier : Bytes32)
  | setCrossChainContracts (l2ChainId : Uint256) (adapter spokePool : Address)
  | setPoolRebalanceRoute (destinationChainId : Uint256) (l1Token destinationToken : Address)
  | setDepositRoute (originChainId destinationChainId : Uint256) (originToken : Address) (depositsEnabled : Bool)
  | enableL1TokenForLiquidityProvision (l1Token : Address)
  | disableL1TokenForLiquidityProvision (l1Token : Address)
  | haircutReserves (l1Token : Address) (haircutAmount : Int256)
  | addLiquidity (l1Token : Address) (l1TokenAmount : Uint256)
  | removeLiquidity (l1Token : Address) (lpTokenAmount : Uint256) (sendEth : Bool)
  | exchangeRateCurrent (l1Token : Address)
  | liquidityUtilizationCurrent (l1Token : Address)
  | liquidityUtilizationPostRelay (l1Token : Address) (relayedAmount : Uint256)
  | sync (l1Token : Address)
  | proposeRootBundle (bundleEvaluationBlockNumbers : List Uint256) (poolRebalanceLeafCount : Uint8)
      (poolRebalanceRoot relayerRefundRoot slowRelayRoot : Bytes32)
  | executeRootBundle (leaf : PoolRebalanceLeaf) (proof : List Bytes32)
  | disputeRootBundle
  | claimProtocolFeesCaptured (l1Token : Address)
  | loadEthForL2Calls

section Dispatch

variable (D : Deployment) (A : Answers) (msg : Msg)

def Op.payable : Op → Bool
  | .addLiquidity _ _ | .loadEthForL2Calls => true
  | _ => false

def Op.ownerOnly : Op → Bool
  | .setPaused _ | .emergencyDeleteProposal | .relaySpokePoolAdminFunction _ _ | .setProtocolFeeCapture _ _
  | .setBond _ _ | .setLiveness _ | .setIdentifier _ | .setCrossChainContracts _ _ _
  | .setPoolRebalanceRoute _ _ _ | .setDepositRoute _ _ _ _ | .enableL1TokenForLiquidityProvision _
  | .disableL1TokenForLiquidityProvision _ | .haircutReserves _ _ => true
  | _ => false

def body : Op → HubCode Unit
  | .setPaused pause => setPaused pause
  | .emergencyDeleteProposal => emergencyDeleteProposal D
  | .relaySpokePoolAdminFunction chainId data => relaySpokePoolAdminFunction A chainId data
  | .setProtocolFeeCapture a pct => setProtocolFeeCapture a pct
  | .setBond token amount => setBond A token amount
  | .setLiveness l => setLiveness l
  | .setIdentifier i => setIdentifier A i
  | .setCrossChainContracts c a s => setCrossChainContracts c a s
  | .setPoolRebalanceRoute c t d => setPoolRebalanceRoute c t d
  | .setDepositRoute o d t b => setDepositRoute A o d t b
  | .enableL1TokenForLiquidityProvision t => enableL1TokenForLiquidityProvision A t
  | .disableL1TokenForLiquidityProvision t => disableL1TokenForLiquidityProvision t
  | .haircutReserves t n => haircutReserves t n
  | .addLiquidity t n => addLiquidity D A msg t n
  | .removeLiquidity t n eth => removeLiquidity D A msg t n eth
  | .exchangeRateCurrent t => do let _ ← exchangeRateCurrent D t; pure ()
  | .liquidityUtilizationCurrent t => do let _ ← liquidityUtilizationCurrent D t; pure ()
  | .liquidityUtilizationPostRelay t n => do let _ ← liquidityUtilizationPostRelay D t n; pure ()
  | .sync t => sync D t
  | .proposeRootBundle ns n r₁ r₂ r₃ => proposeRootBundle D A msg ns n r₁ r₂ r₃
  | .executeRootBundle leaf proof => executeRootBundle D A msg leaf proof
  | .disputeRootBundle => disputeRootBundle D A msg
  | .claimProtocolFeesCaptured t => claimProtocolFeesCaptured D t
  | .loadEthForL2Calls => pure ()

def dispatch (op : Op) : HubCode Unit := do
  require (op.payable = true ∨ msg.value = 0) .callFailed
  when (op.ownerOnly = true) (onlyOwner msg)
  body D A msg op

end Dispatch

/-- What can happen next: a call of the pool, or something elsewhere on the
chain. Nobody else can spend the tokens of the pool, and only the pool mints
and burns its own LP tokens. -/
inductive Input
  | call (msg : Msg) (answers : Answers) (op : Op)
  | advance (seconds : Nat)
  | transfer (token src dst : Address) (amount : Uint256)
  | mint (token dst : Address) (amount : Uint256)
  | burn (token src : Address) (amount : Uint256)
  | deploy (account : Address) (token : Token Address)
  | newOwner (owner : Address)

def onToken (token : Address) (f : Token Address → Option (Token Address)) (w : World) : World :=
  if w.code token = true then
    match f (w.tokens token) with
    | none => w
    | some t => { w with tokens := Function.update w.tokens token t }
  else w

/-- A call that reverts leaves everything as it was. -/
def step (D : Deployment) (w : World) : Input → World
  | .call msg A op =>
      if msg.sender = D.self then w
      else match (dispatch D A msg op w).result with
        | .ok (_, w') => w'
        | .error _ => w
  | .advance seconds => if w.time + seconds < 2 ^ 256 then { w with time := w.time + seconds } else w
  | .transfer token src dst amount =>
      if src = D.self then w else onToken token (fun t => t.transfer src dst amount) w
  | .mint token dst amount =>
      if w.lpTokens token = true then w else onToken token (fun t => t.mint dst amount) w
  | .burn token src amount =>
      if w.lpTokens token = true ∨ src = D.self then w else onToken token (fun t => t.burn src amount) w
  | .deploy account token =>
      if w.code account = true ∨ account = 0 then w
      else { w with code := Function.update w.code account true
                    tokens := Function.update w.tokens account token }
  | .newOwner owner => { w with hub := { w.hub with owner } }

def run (D : Deployment) (w : World) (ins : List Input) : World := ins.foldl (step D) w

@[simp] theorem run_nil (D : Deployment) (w : World) : run D w [] = w := rfl

@[simp] theorem run_cons (D : Deployment) (w : World) (i : Input) (ins : List Input) :
    run D w (i :: ins) = run D (step D w i) ins := rfl

theorem run_append (D : Deployment) (w : World) (is js : List Input) :
    run D w (is ++ js) = run D (run D w is) js := List.foldl_append

def PooledToken.zero : PooledToken := ⟨0, false, 0, 0, 0, 0⟩

/-- The storage that the constructor leaves. -/
def freshHub (owner : Address) : Hub where
  rootBundleProposal := .zero
  pooledTokens _ := PooledToken.zero
  poolRebalanceRoutes _ := 0
  crossChainContracts _ := ⟨0, 0⟩
  unclaimedAccumulatedProtocolFees _ := 0
  paused := false
  protocolFeeCaptureAddress := owner
  bondToken := 0
  liveness := 7200
  identifier := 0x4143524f53532d5632 <<< 184
  protocolFeeCapturePct := 0
  bondAmount := 0
  owner := owner

/-- The chain at the moment of the deployment. Other tokens may exist already,
in any state. -/
structure Genesis (D : Deployment) (w : World) : Prop where
  hub : ∃ owner, w.hub = freshHub owner
  zero : w.code 0 = false
  weth : w.code D.weth = true
  bare : ∀ a, w.code a = false → w.tokens a = .empty
  lpTokens : ∀ a, w.lpTokens a = false
  time : w.time < 2 ^ 256
  log : w.log = []

theorem dispatch_ok {D : Deployment} {w w' : World} {msg : Msg} {A : Answers} {op : Op} :
    Ok (dispatch D A msg op) w () w' ↔ (op.payable = true ∨ msg.value = 0) ∧
      (op.ownerOnly = true → w.hub.owner = msg.sender) ∧ Ok (body D A msg op) w () w' := by
  simp only [dispatch, onlyOwner, bind_ok, require_ok, when_ok, read_ok]
  constructor
  · rintro ⟨_, _, ⟨hp, rfl⟩, _, _, ⟨-, _, _, ⟨rfl, rfl⟩, ho, rfl⟩ | ⟨hn, rfl⟩, hb⟩
    · exact ⟨hp, fun _ => ho, hb⟩
    · exact ⟨hp, fun ho => absurd ho hn, hb⟩
  · rintro ⟨hp, ho, hb⟩
    refine ⟨(), w, ⟨hp, rfl⟩, (), w, ?_, hb⟩
    by_cases hop : op.ownerOnly = true
    · exact .inl ⟨hop, w, w, ⟨rfl, rfl⟩, ho hop, rfl⟩
    · exact .inr ⟨hop, rfl⟩

theorem step_call (D : Deployment) (w : World) (msg : Msg) (A : Answers) (op : Op) :
    step D w (.call msg A op) = w ∨
      msg.sender ≠ D.self ∧ Ok (body D A msg op) w () (step D w (.call msg A op)) := by
  simp only [step]
  split
  · exact .inl rfl
  · rename_i hs
    split
    · rename_i u w' h
      exact .inr ⟨hs, (dispatch_ok.mp h).2.2⟩
    · exact .inl rfl

theorem step_of_ok {D : Deployment} {w w' : World} {msg : Msg} {A : Answers} {op : Op} (hs : msg.sender ≠ D.self)
    (hv : msg.value = 0) (ho : op.ownerOnly = false) (h : Ok (body D A msg op) w () w') :
    step D w (.call msg A op) = w' := by
  have hd : Ok (dispatch D A msg op) w () w' := by
    refine dispatch_ok.mpr ⟨.inr hv, fun hown => ?_, h⟩
    rw [ho] at hown
    cases hown
  rw [Ok] at hd
  simp only [step, if_neg hs, hd]

theorem onToken_cases (token : Address) (f : Token Address → Option (Token Address)) (w : World) :
    onToken token f w = w ∨ ∃ t, w.code token = true ∧ f (w.tokens token) = some t ∧
      onToken token f w = { w with tokens := Function.update w.tokens token t } := by
  simp only [onToken]
  split
  · rename_i hc
    split
    · exact .inl rfl
    · rename_i t ht
      exact .inr ⟨t, hc, ht, rfl⟩
  · exact .inl rfl

/-- A small chain: token 5 with its provider 4, the bond token 6 with its
proposer 7, an adapter at 8 and the owner 3. -/
def sampleDeployment : Deployment := ⟨1, 2, by decide⟩

def sampleWorld : World where
  hub := freshHub 3
  tokens a := if a = 5 then ⟨1000, fun b => if b = 4 then 1000 else 0⟩
    else if a = 6 then ⟨1000, fun b => if b = 7 then 1000 else 0⟩ else .empty
  code a := a = 2 || a = 5 || a = 6 || a = 8
  lpTokens _ := false
  time := 1000
  log := []

def sampleAnswers : Answers where
  approved _ _ _ _ := true
  finalFee := 1
  optimisticOracle := 11
  requestSucceeds := true
  disputeSucceeds := true
  onWhitelist := true
  identifierSupported := true
  relayTokens _ _ := some 12
  relayMessage := true
  newLpToken := 20
  acceptsEth := true

def sampleCall (sender : Address) (op : Op) : Input := .call ⟨sender, 0⟩ sampleAnswers op

def sampleDeposit : List Input :=
  [sampleCall 3 (.enableL1TokenForLiquidityProvision 5), sampleCall 4 (.addLiquidity 5 100)]

theorem sampleWorld_genesis : Genesis sampleDeployment sampleWorld where
  hub := ⟨3, rfl⟩
  zero := rfl
  weth := rfl
  bare a ha := by
    simp only [sampleWorld, Bool.or_eq_false_iff, decide_eq_false_iff_not] at ha
    obtain ⟨⟨⟨-, h5⟩, h6⟩, -⟩ := ha
    simp only [sampleWorld, if_neg h5, if_neg h6]
  lpTokens _ := rfl
  time := by decide
  log := rfl

end Across.HubRun
