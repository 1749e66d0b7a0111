import Across.Callbacks
import Across.Checked
import Across.DepositPulls

namespace Across.SwapAndBridge

open WordBytes Abi CallExec CallExec.Exec Callbacks Checked Erc20 SpokeFunds DepositFunds DepositPulls
open SpokeState (World Host Variant DepositV3)

structure DepositData where
  outputToken : Address
  outputAmount : Uint256
  depositor : Address
  recipient : Address
  destinationChainid : Uint256
  exclusiveRelayer : Address
  quoteTimestamp : Uint32
  fillDeadline : Uint32
  exclusivityDeadline : Uint32
  message : Blob

/-- The arguments that both contracts take. -/
structure SwapArgs where
  routerCalldata : Bytes
  swapTokenAmount : Uint256
  minExpectedInputTokenAmount : Uint256
  depositData : DepositData

/-- The functions of the two contracts with their decoded arguments. None takes a
value. The entries of a multicall are calldata for the same contract. -/
inductive BridgeCall
  | swapAndBridge (args : SwapArgs)
  | universalSwapAndBridge (swapToken acrossInputToken : Address) (args : SwapArgs)
  | multicall (data : List BridgeCall)
  | getter
  | undecodable

/-- `SwapAndBridge` with its immutable tokens, or `UniversalSwapAndBridge`. -/
inductive Kind
  | fixed (swapToken acrossInputToken : Address)
  | universal

structure SwapBeforeBridge where
  exchange : Address
  swapToken : Address
  acrossInputToken : Address
  swapTokenAmount : Uint256
  acrossInputAmount : Uint256
  acrossOutputToken : Address
  acrossOutputAmount : Uint256

inductive Error
  | minimumExpectedInputAmount
  | leftoverSrcTokens
  | invalidFunctionSelector
  | reentrantCall
  | outsideFailed
  | spokePoolFailed
  | panic
  | undecodable
  | callDepth

inductive OutsideCall
  | safeTransferFrom (token src dst : Address) (amount : Uint256)
  | safeIncreaseAllowance (token spender : Address) (amount : Uint256)
  | exchange (routerCalldata : Bytes)

/-- `world` is the SpokePool and everything else but the contract. -/
structure BridgeState (W : Type) where
  notEntered : Bool
  world : World W
  log : List SwapBeforeBridge

/-- A deployed contract: its immutables, the selectors that its constructor allowed,
the pool, and the code of all other accounts. -/
structure Deployment (W : Type) where
  self : Address
  kind : Kind
  exchange : Address
  allowedSelectors : Bytes → Bool
  spokePool : Variant W
  host : Host W
  levels : Nat
  book : Books W
  behave : OutsideCall → BridgeState W → Behaviour (BridgeState W) (World W) (Address × BridgeCall)
  other : spokePool.self ≠ self

abbrev BridgeCode (W : Type) := Exec (BridgeState W) Empty Error

def bytes4 (bs : Bytes) : Bytes := bs.take 4 ++ List.replicate (4 - bs.length) 0

def depositArgs (d : DepositData) (inputToken : Address) (inputAmount : Uint256) : DepositV3 :=
  ⟨d.depositor, d.recipient, inputToken, d.outputToken, inputAmount, d.outputAmount, d.destinationChainid,
    d.exclusiveRelayer, d.quoteTimestamp, d.fillDeadline, d.exclusivityDeadline, d.message⟩

section Contract

-- `enter` is a call of the contract by the account `msgSender`.
variable {W : Type} (D : Deployment W) (enter : Address → BridgeCall → BridgeCode W Unit) (msgSender : Address)

def setWorld (w : World W) (s : BridgeState W) : BridgeState W := { s with world := w }

def balanceOf (token : Address) : BridgeCode W Uint256 := do
  let s ← read
  pure ((D.book token s.world.rest).balance D.self)

def outsideCall (c : OutsideCall) : BridgeCode W Unit := do
  let s ← read
  (D.behave c s).run setWorld (fun i => enter i.1 i.2) .outsideFailed

/-- `SPOKE_POOL.depositV3`, which comes without value. -/
def poolDeposit (d : DepositV3) : Exec (World W) (SpokeState.Frame W) SpokeState.Error Unit :=
  SpokePool.enter D.host (SpokePool.exec D.spokePool D.host D.levels) ⟨D.self, 0⟩ (.depositV3 d)

def checkSwapOutputAndDeposit (args : SwapArgs) (swapTokenBalanceBefore inputTokenBalanceBefore : Uint256)
    (swapToken acrossInputToken : Address) : BridgeCode W Unit := do
  let inputTokenBalance ← balanceOf D acrossInputToken
  let returnAmount ← checkedSub .panic inputTokenBalance inputTokenBalanceBefore
  require (args.minExpectedInputTokenAmount.toNat ≤ returnAmount.toNat) .minimumExpectedInputAmount
  let swapTokenBalance ← balanceOf D swapToken
  let spent ← checkedSub .panic swapTokenBalanceBefore swapTokenBalance
  require (spent = args.swapTokenAmount) .leftoverSrcTokens
  update fun s => { s with log := s.log ++ [⟨D.exchange, swapToken, acrossInputToken, args.swapTokenAmount,
    returnAmount, args.depositData.outputToken, args.depositData.outputAmount⟩] }
  outsideCall D enter (.safeIncreaseAllowance acrossInputToken D.spokePool.self returnAmount)
  within BridgeState.world setWorld .spokePoolFailed
    (poolDeposit D (depositArgs args.depositData acrossInputToken returnAmount))

def swapAndBridgeInternal (args : SwapArgs) (swapToken acrossInputToken : Address) : BridgeCode W Unit := do
  require (D.allowedSelectors (bytes4 args.routerCalldata) = true) .invalidFunctionSelector
  outsideCall D enter (.safeTransferFrom swapToken msgSender D.self args.swapTokenAmount)
  let srcBalanceBefore ← balanceOf D swapToken
  let dstBalanceBefore ← balanceOf D acrossInputToken
  outsideCall D enter (.safeIncreaseAllowance swapToken D.exchange args.swapTokenAmount)
  outsideCall D enter (.exchange args.routerCalldata)
  checkSwapOutputAndDeposit D enter args srcBalanceBefore dstBalanceBefore swapToken acrossInputToken

def nonReentrant (m : BridgeCode W Unit) : BridgeCode W Unit := do
  let s ← read
  require (s.notEntered = true) .reentrantCall
  update fun s => { s with notEntered := false }
  m
  update fun s => { s with notEntered := true }

def swapAndBridge (args : SwapArgs) (swapToken acrossInputToken : Address) : BridgeCode W Unit :=
  nonReentrant (swapAndBridgeInternal D enter msgSender args swapToken acrossInputToken)

def dispatch : BridgeCall → BridgeCode W Unit
  | .swapAndBridge args =>
      match D.kind with
      | .fixed swapToken acrossInputToken => swapAndBridge D enter msgSender args swapToken acrossInputToken
      | .universal => revert .undecodable
  | .universalSwapAndBridge swapToken acrossInputToken args =>
      match D.kind with
      | .fixed _ _ => revert .undecodable
      | .universal => swapAndBridge D enter msgSender args swapToken acrossInputToken
  | .multicall data => forEach (enter msgSender) data
  | .getter => pure ()
  | .undecodable => revert .undecodable

end Contract

/-- Execute a call of the contract with at most `n` further levels of calls. -/
def exec {W : Type} (D : Deployment W) : Nat → Address → BridgeCall → BridgeCode W Unit
  | 0, _, _ => revert .callDepth
  | n + 1, msgSender, call => dispatch D (exec D n) msgSender call

section Guard

variable {W : Type} {D : Deployment W} {enter : Address → BridgeCall → BridgeCode W Unit} {msgSender : Address}
  {s s' : BridgeState W} {u : Unit}

/-- All that others can change while the contract is at work. -/
def OnlyWorld (s s' : BridgeState W) : Prop := ∃ w, s' = setWorld w s

theorem nonReentrant_ok {m : BridgeCode W Unit} (h : Ok (nonReentrant m) s u s') :
    s.notEntered = true ∧ ∃ t, Ok m { s with notEntered := false } () t ∧ s' = { t with notEntered := true } := by
  rw [nonReentrant, read_bind_ok, require_bind_ok, update_bind_ok] at h
  obtain ⟨hn, h⟩ := h
  obtain ⟨_, t, hm, hleave⟩ := (bind_ok _ _ _ _ _).mp h
  exact ⟨hn, t, hm, ((update_ok _ _ _ _).mp hleave).symm⟩

theorem swapAndBridge_enters {args : SwapArgs} {swapToken acrossInputToken : Address}
    (h : Ok (swapAndBridge D enter msgSender args swapToken acrossInputToken) s u s') : s.notEntered = true :=
  (nonReentrant_ok h).1

/-- A contract that is at work takes no call that would change anything. -/
theorem exec_entered {n : Nat} {call : BridgeCall} (hn : s.notEntered = false)
    (h : Ok (exec D n msgSender call) s u s') : s' = s := by
  have hfalse : s.notEntered ≠ true := by
    rw [hn]
    exact Bool.false_ne_true
  induction n generalizing call s' with
  | zero => exact ((revert_ok _ _ _ _).mp h).elim
  | succ n ih =>
      cases call with
      | swapAndBridge args =>
          simp only [exec, dispatch] at h
          split at h
          · exact absurd (swapAndBridge_enters h) hfalse
          · exact ((revert_ok _ _ _ _).mp h).elim
      | universalSwapAndBridge swapToken acrossInputToken args =>
          simp only [exec, dispatch] at h
          split at h
          · exact ((revert_ok _ _ _ _).mp h).elim
          · exact absurd (swapAndBridge_enters h) hfalse
      | multicall data => exact forEach_still (fun i t hi => ih hi) h
      | getter => exact ((pure_ok _ _ _ _).mp h).2.symm
      | undecodable => exact ((revert_ok _ _ _ _).mp h).elim

theorem respected (D : Deployment W) (n : Nat) :
    Respected (φ := Empty) (ε := Error) setWorld (fun i : Address × BridgeCall => exec D n i.1 i.2)
      (fun s => s.notEntered = false) OnlyWorld where
  refl s := ⟨s.world, rfl⟩
  trans := by
    rintro s _ _ ⟨w, rfl⟩ ⟨w', rfl⟩
    exact ⟨w', rfl⟩
  stays := by
    rintro s _ hs ⟨w, rfl⟩
    exact hs
  write s w := ⟨w, rfl⟩
  enter hs h := ⟨_, exec_entered hs h⟩

theorem outsideCall_world {n : Nat} {c : OutsideCall} (hn : s.notEntered = false)
    (h : Ok (outsideCall D (exec D n) c) s u s') : OnlyWorld s s' := by
  rw [outsideCall, read_bind_ok] at h
  exact (respected D n).run hn h

theorem outsideCall_halts {c : OutsideCall} {Q : World W → World W → Prop}
    (hc : ∀ s, ∃ ok w, D.behave c s = .halt ok w ∧ (ok = true → Q s.world w))
    (h : Ok (outsideCall D enter c) s u s') : ∃ w, s' = setWorld w s ∧ Q s.world w := by
  obtain ⟨ok, w, hb, hq⟩ := hc s
  rw [outsideCall, read_bind_ok, hb] at h
  cases ok with
  | true => exact ⟨w, ((update_ok _ _ _ _).mp h).symm, hq rfl⟩
  | false => exact ((revert_ok _ _ _ _).mp h).elim

theorem balanceOf_bind_ok {α : Type} {token : Address} {f : Uint256 → BridgeCode W α} {a : α} :
    Ok (balanceOf D token >>= f) s a s' ↔ Ok (f ((D.book token s.world.rest).balance D.self)) s a s' := by
  rw [balanceOf, bind_ok]
  simp only [bind_ok, read_ok, pure_ok]
  constructor
  · rintro ⟨_, _, ⟨_, _, ⟨rfl, rfl⟩, rfl, rfl⟩, h⟩
    exact h
  · intro h
    exact ⟨_, s, ⟨s, s, ⟨rfl, rfl⟩, rfl, rfl⟩, h⟩

end Guard

section Swaps

variable {W : Type} {D : Deployment W} {n : Nat} {enter : Address → BridgeCall → BridgeCode W Unit}
  {msgSender swapToken inputToken : Address} {args : SwapArgs} {s s' : BridgeState W} {u : Unit}

/-- A token that does what the standard says, whether the contract calls it or the
pool does. -/
structure StandardErc20 (D : Deployment W) (token : Address) : Prop where
  transferFrom : ∀ s src dst amount, ∃ ok w, D.behave (.safeTransferFrom token src dst amount) s = .halt ok w ∧
    (ok = true → Moves D.book token src dst amount s.world.rest w.rest)
  approve : ∀ s spender amount, ∃ ok w, D.behave (.safeIncreaseAllowance token spender amount) s = .halt ok w ∧
    (ok = true → ∀ t, D.book t w.rest = D.book t s.world.rest)
  pull : Pulls D.host D.book token

/-- The tokens and the arguments of a swap, if the contract has the function. -/
def swapOf : Kind → BridgeCall → Option (Address × Address × SwapArgs)
  | .fixed swapToken acrossInputToken, .swapAndBridge args => some (swapToken, acrossInputToken, args)
  | .universal, .universalSwapAndBridge swapToken acrossInputToken args => some (swapToken, acrossInputToken, args)
  | _, _ => none

theorem dispatch_swap {call : BridgeCall} (h : swapOf D.kind call = some (swapToken, inputToken, args)) :
    dispatch D enter msgSender call = swapAndBridge D enter msgSender args swapToken inputToken := by
  cases call <;> cases hk : D.kind <;> rw [hk] at h <;> cases h
  · simp only [dispatch, hk]
  · simp only [dispatch, hk]

/-- What the contract holds of a token. -/
def Deployment.balance (D : Deployment W) (token : Address) (w : World W) : Nat := tokens (D.book token) w.rest D.self

/-- The deposit that ends a swap, made once the pool is approved. -/
structure Bridged (D : Deployment W) (args : SwapArgs) (inputToken : Address) (amount : Uint256)
    (w w' : World W) : Prop where
  enough : args.minExpectedInputTokenAmount.toNat ≤ amount.toNat
  deposit : ∃ w₁, (∀ t, D.book t w₁.rest = D.book t w.rest) ∧
    Ok (poolDeposit D (depositArgs args.depositData inputToken amount)) w₁ () w' ∧
    Emits (.depositV3 (depositArgs args.depositData inputToken amount)) inputToken amount w₁ w'
  moves : Moves D.book inputToken D.self D.spokePool.self amount w.rest w'.rest

theorem checkSwapOutputAndDeposit_ok {srcBefore dstBefore : Uint256} (hi : StandardErc20 D inputToken)
    (h : Ok (checkSwapOutputAndDeposit D enter args srcBefore dstBefore swapToken inputToken) s u s') : ∃ amount,
      D.balance inputToken s.world = dstBefore.toNat + amount.toNat ∧
      D.balance swapToken s.world + args.swapTokenAmount.toNat = srcBefore.toNat ∧
      Bridged D args inputToken amount s.world s'.world := by
  rw [checkSwapOutputAndDeposit, balanceOf_bind_ok] at h
  obtain ⟨amount, s₁, hsub, h⟩ := (bind_ok _ _ _ _ _).mp h
  obtain ⟨hamount, rfl⟩ := checkedSub_ok.mp hsub
  rw [require_bind_ok, balanceOf_bind_ok] at h
  obtain ⟨henough, h⟩ := h
  obtain ⟨spent, s₁, hsub, h⟩ := (bind_ok _ _ _ _ _).mp h
  obtain ⟨hspent, rfl⟩ := checkedSub_ok.mp hsub
  rw [require_bind_ok, update_bind_ok] at h
  obtain ⟨rfl, h⟩ := h
  obtain ⟨_, s₁, happrove, h⟩ := (bind_ok _ _ _ _ _).mp h
  obtain ⟨w₁, rfl, hbooks⟩ := outsideCall_halts (Q := fun w w' => ∀ t, D.book t w'.rest = D.book t w.rest)
    (fun s => hi.approve s _ _) happrove
  obtain ⟨w', hdeposit, rfl⟩ := within_ok.mp h
  obtain ⟨hmoves, hemits⟩ := depositV3_pulls hi.pull hdeposit
  refine ⟨amount, ?_, ?_, henough, ⟨w₁, hbooks, hdeposit, hemits⟩, hmoves.before hbooks⟩
  · rw [Nat.add_comm]
    exact hamount.symm
  · rw [Nat.add_comm]
    exact hspent

/-- A successful swap: the pull of the swap tokens, the exchange's run from `w₁` to
`w₂`, and the deposit. -/
structure Settled (D : Deployment W) (n : Nat) (msgSender swapToken inputToken : Address) (args : SwapArgs)
    (s s' : BridgeState W) (w₁ w₂ : World W) (amount : Uint256) : Prop where
  pulled : Moves D.book swapToken msgSender D.self args.swapTokenAmount s.world.rest w₁.rest
  swapped : Ok (outsideCall D (exec D n) (.exchange args.routerCalldata)) ⟨false, w₁, s.log⟩ () ⟨false, w₂, s.log⟩
  received : D.balance inputToken w₂ = D.balance inputToken w₁ + amount.toNat
  spent : D.balance swapToken w₂ + args.swapTokenAmount.toNat = D.balance swapToken w₁
  bridged : Bridged D args inputToken amount w₂ s'.world

theorem swapAndBridge_ok (hs : StandardErc20 D swapToken) (hi : StandardErc20 D inputToken)
    (h : Ok (swapAndBridge D (exec D n) msgSender args swapToken inputToken) s () s') :
    ∃ w₁ w₂ amount, Settled D n msgSender swapToken inputToken args s s' w₁ w₂ amount := by
  obtain ⟨-, t, hbody, rfl⟩ := nonReentrant_ok h
  rw [swapAndBridgeInternal, require_bind_ok] at hbody
  obtain ⟨-, hbody⟩ := hbody
  obtain ⟨_, s₁, hpull, hbody⟩ := (bind_ok _ _ _ _ _).mp hbody
  obtain ⟨w₀, rfl, hmoves⟩ := outsideCall_halts
    (Q := fun w w' => Moves D.book swapToken msgSender D.self args.swapTokenAmount w.rest w'.rest)
    (fun s => hs.transferFrom s _ _ _) hpull
  rw [balanceOf_bind_ok, balanceOf_bind_ok] at hbody
  obtain ⟨_, s₂, happrove, hbody⟩ := (bind_ok _ _ _ _ _).mp hbody
  obtain ⟨w₁, rfl, hbooks⟩ := outsideCall_halts (Q := fun w w' => ∀ t, D.book t w'.rest = D.book t w.rest)
    (fun s => hs.approve s _ _) happrove
  obtain ⟨_, s₃, hswap, hbody⟩ := (bind_ok _ _ _ _ _).mp hbody
  obtain ⟨w₂, rfl⟩ := outsideCall_world rfl hswap
  obtain ⟨amount, hreceived, hspent, hbridged⟩ := checkSwapOutputAndDeposit_ok hi hbody
  have hsame : ∀ t, D.balance t w₁ = D.balance t w₀ := fun t => congrArg (fun b => (b.balance D.self).toNat) (hbooks t)
  refine ⟨w₁, w₂, amount, hmoves.after hbooks, hswap, ?_, ?_, hbridged⟩
  · rw [hsame inputToken]
    exact hreceived
  · rw [hsame swapToken]
    exact hspent

/-- Whatever the exchange does, a successful swap leaves the contract with what it
had of the two tokens. What it deposits is what came in during the swap. -/
theorem swapAndBridge_settles {call : BridgeCall} (hc : swapOf D.kind call = some (swapToken, inputToken, args))
    (hs : StandardErc20 D swapToken) (hi : StandardErc20 D inputToken) (hsender : msgSender ≠ D.self)
    (h : Ok (exec D (n + 1) msgSender call) s () s') :
    D.balance swapToken s'.world = D.balance swapToken s.world ∧
      D.balance inputToken s'.world = D.balance inputToken s.world ∧
      (∃ w₁ w₂ amount, Settled D n msgSender swapToken inputToken args s s' w₁ w₂ amount) ∧
      (swapToken = inputToken → args.swapTokenAmount = 0) := by
  rw [exec, dispatch_swap hc] at h
  obtain ⟨w₁, w₂, amount, hsettled⟩ := swapAndBridge_ok hs hi h
  have hin := hsettled.pulled.received hsender
  have hout := hsettled.bridged.moves.paid D.other.symm
  have hreceived := hsettled.received
  have hspent := hsettled.spent
  simp only [Deployment.balance] at hreceived hspent ⊢
  by_cases heq : swapToken = inputToken
  · subst heq
    have hzero : args.swapTokenAmount.toNat = 0 := by omega
    refine ⟨by omega, by omega, ⟨w₁, w₂, amount, hsettled⟩, fun _ => BitVec.eq_of_toNat_eq hzero⟩
  · have hkept := hsettled.pulled.kept (Ne.symm heq) D.self
    have hkept' := hsettled.bridged.moves.kept heq D.self
    exact ⟨by omega, by omega, ⟨w₁, w₂, amount, hsettled⟩, fun h => absurd h heq⟩

end Swaps

section Samples

abbrev SampleAccount := Behaviour (BridgeState Ledgers) (World Ledgers) (Address × BridgeCall)

def sampleHalt (s : BridgeState Ledgers) : Option Ledgers → SampleAccount
  | some l => .halt true { s.world with rest := l }
  | none => .halt false s.world

def sampleArgs : SwapArgs := ⟨[1, 2, 3, 4], 10, 8, ⟨20, 8, 4, 4, 137, 0, 1000, 2000, 0, ⟨[], nil_fits⟩⟩⟩

/-- The exchange at account 7 takes 10 of token 5 for 8 of token 6, unless the
contract lets it in. -/
def sampleExchange (s : BridgeState Ledgers) : SampleAccount :=
  .invoke s.world (7, .swapAndBridge sampleArgs) fun entered s =>
    if entered then .halt false s.world
    else sampleHalt s ((s.world.rest.transferFrom 5 7 9 7 10).bind fun l => l.transfer 6 7 9 8)

def sampleDeployment : Deployment Ledgers where
  self := 9
  kind := .fixed 5 6
  exchange := 7
  allowedSelectors := fun selector => decide (selector = [1, 2, 3, 4])
  spokePool := samplePool
  host := sampleHost
  levels := 1
  book := Ledgers.bookOf
  behave c s := match c with
    | .safeTransferFrom token src dst amount => sampleHalt s (s.world.rest.transferFrom token 9 src dst amount)
    | .safeIncreaseAllowance token spender amount =>
        sampleHalt s (s.world.rest.increaseAllowance token 9 spender amount)
    | .exchange _ => sampleExchange s
  other := samplePool_self_ne

theorem sampleHalt_halts (s : BridgeState Ledgers) (r : Option Ledgers) :
    ∃ ok w, sampleHalt s r = .halt ok w ∧ (ok = true → r = some w.rest) := by
  cases r with
  | none => exact ⟨false, s.world, rfl, nofun⟩
  | some l => exact ⟨true, { s.world with rest := l }, rfl, fun _ => rfl⟩

theorem sampleDeployment_standard (token : Address) : StandardErc20 sampleDeployment token where
  transferFrom s src dst amount := by
    obtain ⟨ok, w, hhalt, hsome⟩ := sampleHalt_halts s (s.world.rest.transferFrom token 9 src dst amount)
    exact ⟨ok, w, hhalt, fun hok => Ledgers.transferFrom_moves (hsome hok)⟩
  approve s spender amount := by
    obtain ⟨ok, w, hhalt, hsome⟩ := sampleHalt_halts s (s.world.rest.increaseAllowance token 9 spender amount)
    exact ⟨ok, w, hhalt, fun hok => Ledgers.increaseAllowance_books (hsome hok)⟩
  pull := sampleHost_pulls token

/-- The contract has 3 of either token beforehand. -/
def sampleLedgers : Ledgers where
  books _ := ⟨100, fun a => if a = 9 then 3 else if a = 4 then 10 else if a = 7 then 50 else 0⟩
  allowances _ owner spender := if owner = 4 ∧ spender = 9 then 10 else 0

def sampleState : BridgeState Ledgers := ⟨true, ⟨sampleStorage, 1000, sampleLedgers, []⟩, []⟩

theorem sampleSwap_settles : ∃ s', Ok (exec sampleDeployment 3 4 (.swapAndBridge sampleArgs)) sampleState () s' ∧
    sampleDeployment.balance 5 s'.world = 3 ∧ sampleDeployment.balance 6 s'.world = 3 := by
  obtain ⟨s', h⟩ : ∃ s', Ok (exec sampleDeployment 3 4 (.swapAndBridge sampleArgs)) sampleState () s' :=
    exists_ok (by decide +kernel)
  obtain ⟨hswap, hinput, -⟩ := swapAndBridge_settles rfl (sampleDeployment_standard 5) (sampleDeployment_standard 6)
    (by decide) h
  exact ⟨s', h, hswap, hinput⟩

end Samples

end Across.SwapAndBridge
