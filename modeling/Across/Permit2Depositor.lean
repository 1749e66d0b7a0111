import Across.Callbacks
import Across.Checked
import Across.DepositPulls
import Across.Permit2Order

namespace Across.Permit2Depositor

open WordBytes Abi CallExec CallExec.Exec Callbacks Checked Erc20 SpokeFunds DepositFunds DepositPulls Permit2Order
open SpokeState (World Host Variant DepositV3 Callee)

structure PermitTransferFrom where
  token : Address
  amount : Uint256
  nonce : Uint256
  deadline : Uint256

structure SignatureTransferDetails where
  dst : Address
  requestedAmount : Uint256

inductive DepositorCall
  | permitWitnessTransferFrom (permit : PermitTransferFrom) (details : SignatureTransferDetails) (owner : Address)
      (witness : Bytes32) (witnessTypeString signature : Bytes)
  | transferFrom (src dst : Address) (amount : BitVec 160) (token : Address)
  | safeIncreaseAllowance (token spender : Address) (amount : Uint256)

inductive Error
  | wrongSettlerContract
  | afterDeadline
  | validationContractNotAllowed
  | multipleOutputsNotAllowed
  | inputAndCollateralNotEqual
  | safeCast
  | outsideFailed
  | spokePoolFailed
  | undecodable
  | panic

/-- The deployed contract: its immutables, the pool, and the code of Permit2 and of
the tokens. It has no storage. -/
structure Deployment (W : Type) where
  self : Address
  quoteBeforeDeadline : Uint256
  spokePool : Variant W
  host : Host W
  levels : Nat
  book : Books W
  behave : DepositorCall → World W → Callee W
  other : spokePool.self ≠ self

abbrev DepositorCode (W : Type) := Exec (World W) Empty Error

section Contract

variable {W : Type} (D : Deployment W) (msgSender : Address)

def pool (msg : SpokeState.Msg) (call : SpokeState.Call) : SpokeState.Code W Unit :=
  SpokePool.enter D.host (SpokePool.exec D.spokePool D.host D.levels) msg call

def outsideCall (c : DepositorCall) : DepositorCode W Unit := do
  let s ← read
  within id (fun t _ => t) .outsideFailed (SpokePool.runCallee (pool D) (D.behave c s))

def processPermit2Order (signedOrder : SignedOrder) : DepositorCode W CrossChainLimitOrder := do
  match decodeOrder signedOrder.order with
  | none => revert .undecodable
  | some limitOrder => do
      require (D.self = limitOrder.info.settlerContract) .wrongSettlerContract
      let s ← read
      require (s.time ≤ limitOrder.info.initiateDeadline.toNat) .afterDeadline
      require (limitOrder.info.validationContract = 0) .validationContractNotAllowed
      require (limitOrder.outputs.length = 1) .multipleOutputsNotAllowed
      require (limitOrder.fillerCollateral.token = limitOrder.input.token) .inputAndCollateralNotEqual
      match hashOrder limitOrder with
      | none => revert .panic
      | some witness => do
          outsideCall D (.permitWitnessTransferFrom
            ⟨limitOrder.input.token, limitOrder.input.maxAmount, limitOrder.info.nonce,
              limitOrder.info.initiateDeadline⟩
            ⟨D.self, limitOrder.input.amount⟩ limitOrder.info.offerer witness permit2OrderType signedOrder.sig)
          outsideCall D (.transferFrom msgSender D.self (limitOrder.fillerCollateral.amount.setWidth 160)
            limitOrder.fillerCollateral.token)
          pure limitOrder

/-- `SafeCast.toUint32`. -/
def toUint32 (value : Nat) : DepositorCode W Uint32 := do
  require (value < 2 ^ 32) .safeCast
  pure (BitVec.ofNat 32 value)

def depositArgs (order : CrossChainLimitOrder) (output : OutputToken) (amountToDeposit : Uint256)
    (destinationChainFillerAddress : Address) (quoteTimestamp fillDeadline : Uint32) : DepositV3 :=
  ⟨order.info.offerer, output.recipient, order.input.token, output.token, amountToDeposit, output.amount,
    output.chainId, destinationChainFillerAddress, quoteTimestamp, fillDeadline, fillDeadline, ⟨[], nil_fits⟩⟩

def permit2Deposit (signedOrder : SignedOrder) (destinationChainFillerAddress : Address) : DepositorCode W Unit := do
  let order ← processPermit2Order D msgSender signedOrder
  let s ← read
  require (s.time + order.info.fillPeriod.toNat < 2 ^ 256) .panic
  let fillDeadline ← toUint32 (s.time + order.info.fillPeriod.toNat)
  let amountToDeposit ← checkedAdd .panic order.input.amount order.fillerCollateral.amount
  outsideCall D (.safeIncreaseAllowance order.input.token D.spokePool.self amountToDeposit)
  let output ← nth .panic order.outputs 0
  let quoteTime ← checkedSub .panic order.info.initiateDeadline D.quoteBeforeDeadline
  let quoteTimestamp ← toUint32 quoteTime.toNat
  within id (fun t _ => t) .spokePoolFailed (pool D ⟨D.self, 0⟩ (.depositV3
    (depositArgs order output amountToDeposit destinationChainFillerAddress quoteTimestamp fillDeadline)))

/-- What Permit2 is asked to move for the offerer. -/
def userCall (signedOrder : SignedOrder) (order : CrossChainLimitOrder) (witness : Bytes32) : DepositorCall :=
  .permitWitnessTransferFrom ⟨order.input.token, order.input.maxAmount, order.info.nonce, order.info.initiateDeadline⟩
    ⟨D.self, order.input.amount⟩ order.info.offerer witness permit2OrderType signedOrder.sig

/-- What Permit2 is asked to move for the filler. -/
def fillerCall (order : CrossChainLimitOrder) : DepositorCall :=
  .transferFrom msgSender D.self (order.fillerCollateral.amount.setWidth 160) order.fillerCollateral.token

end Contract

section Funding

variable {W : Type} {D : Deployment W} {msgSender destinationChainFillerAddress : Address} {signedOrder : SignedOrder}
  {order : CrossChainLimitOrder} {s s' : World W} {u : Unit}

/-- Permit2 moves exactly the requested amounts or fails, and calls nobody back. It
takes no signature for a contract that does not validate any. -/
structure ExactPermit2 (D : Deployment W) (token : Address) : Prop where
  permit : ∀ s permit details owner witness type sig, permit.token = token → ∃ ok w,
    D.behave (.permitWitnessTransferFrom permit details owner witness type sig) s = .halt ok w ∧
    (ok = true → owner ≠ D.self ∧ Moves D.book token owner details.dst details.requestedAmount s.rest w)
  transferFrom : ∀ s src dst amount, ∃ ok w, D.behave (.transferFrom src dst amount token) s = .halt ok w ∧
    (ok = true → Moves D.book token src dst (amount.setWidth 256) s.rest w)

structure StandardErc20 (D : Deployment W) (token : Address) : Prop where
  approve : ∀ s spender amount, ∃ ok w, D.behave (.safeIncreaseAllowance token spender amount) s = .halt ok w ∧
    (ok = true → ∀ t, D.book t w = D.book t s.rest)
  pull : Pulls D.host D.book token

theorem outsideCall_halts {c : DepositorCall} {Q : World W → W → Prop}
    (hc : ∀ s, ∃ ok w, D.behave c s = .halt ok w ∧ (ok = true → Q s w)) (h : Ok (outsideCall D c) s u s') :
    Q s s'.rest := by
  obtain ⟨ok, w, hb, hq⟩ := hc s
  rw [outsideCall, read_bind_ok, hb] at h
  obtain ⟨t, ht, rfl⟩ := within_ok.mp h
  cases ok with
  | true =>
      obtain rfl := (update_ok _ _ _ _).mp ht
      exact hq rfl
  | false => exact ((revert_ok _ _ _ _).mp ht).elim

theorem processPermit2Order_ok {o : CrossChainLimitOrder} (ho : decodeOrder signedOrder.order = some order)
    (h : Ok (processPermit2Order D msgSender signedOrder) s o s') :
    o = order ∧ order.fillerCollateral.token = order.input.token ∧ ∃ witness w₁,
      Ok (outsideCall D (userCall D signedOrder order witness)) s () w₁ ∧
      Ok (outsideCall D (fillerCall D msgSender order)) w₁ () s' := by
  simp only [processPermit2Order, ho, require_bind_ok, read_bind_ok] at h
  obtain ⟨-, -, -, -, htoken, h⟩ := h
  split at h
  · exact ((revert_ok _ _ _ _).mp h).elim
  · rename_i witness _
    obtain ⟨_, w₁, huser, h⟩ := (bind_ok _ _ _ _ _).mp h
    obtain ⟨_, w₂, hfiller, h⟩ := (bind_ok _ _ _ _ _).mp h
    obtain ⟨rfl, rfl⟩ := (pure_ok _ _ _ _).mp h
    exact ⟨rfl, htoken, witness, w₁, huser, hfiller⟩

theorem toUint32_bind_ok {α : Type} {value : Nat} {f : Uint32 → DepositorCode W α} {a : α} :
    Ok (toUint32 value >>= f) s a s' ↔ value < 2 ^ 32 ∧ Ok (f (BitVec.ofNat 32 value)) s a s' :=
  check_bind_ok fun x t => by
    rw [toUint32, require_bind_ok, pure_ok]

/-- The course of a successful call: the offerer's tokens come in, the filler's do,
and the deposit `d` is made. -/
structure Stages (D : Deployment W) (msgSender : Address) (signedOrder : SignedOrder) (order : CrossChainLimitOrder)
    (d : DepositV3) (s w₁ w₂ s' : World W) : Prop where
  user : ∃ witness, Ok (outsideCall D (userCall D signedOrder order witness)) s () w₁
  filler : Ok (outsideCall D (fillerCall D msgSender order)) w₁ () w₂
  deposit : ∃ w₃, (∀ t, D.book t w₃.rest = D.book t w₂.rest) ∧ Ok (pool D ⟨D.self, 0⟩ (.depositV3 d)) w₃ () s' ∧
    Emits (.depositV3 d) order.input.token d.inputAmount w₃ s'

theorem permit2Deposit_ok (ho : decodeOrder signedOrder.order = some order) (ht : StandardErc20 D order.input.token)
    (h : Ok (permit2Deposit D msgSender signedOrder destinationChainFillerAddress) s () s') : ∃ d w₁ w₂,
      Stages D msgSender signedOrder order d s w₁ w₂ s' ∧ order.fillerCollateral.token = order.input.token ∧
      d.inputAmount.toNat = order.input.amount.toNat + order.fillerCollateral.amount.toNat ∧
      Moves D.book order.input.token D.self D.spokePool.self d.inputAmount w₂.rest s'.rest := by
  rw [permit2Deposit] at h
  obtain ⟨_, w₂, horder, h⟩ := (bind_ok _ _ _ _ _).mp h
  obtain ⟨rfl, htoken, witness, w₁, huser, hfiller⟩ := processPermit2Order_ok ho horder
  rw [read_bind_ok, require_bind_ok, toUint32_bind_ok] at h
  obtain ⟨-, -, h⟩ := h
  obtain ⟨amountToDeposit, _, hadd, h⟩ := (bind_ok _ _ _ _ _).mp h
  obtain ⟨hamount, rfl⟩ := checkedAdd_ok.mp hadd
  obtain ⟨_, w₃, happrove, h⟩ := (bind_ok _ _ _ _ _).mp h
  have hbooks : ∀ t, D.book t w₃.rest = D.book t w₂.rest :=
    outsideCall_halts (Q := fun s w => ∀ t, D.book t w = D.book t s.rest) (fun s => ht.approve s _ _) happrove
  obtain ⟨output, _, hnth, h⟩ := (bind_ok _ _ _ _ _).mp h
  obtain ⟨-, rfl⟩ := (nth_ok _ _ _ _ _ _).mp hnth
  obtain ⟨quoteTime, _, hsub, h⟩ := (bind_ok _ _ _ _ _).mp h
  obtain ⟨-, rfl⟩ := checkedSub_ok.mp hsub
  rw [toUint32_bind_ok] at h
  obtain ⟨t, hdeposit, rfl⟩ := within_ok.mp h.2
  obtain ⟨hmoves, hemits⟩ := depositV3_pulls ht.pull hdeposit
  exact ⟨_, w₁, w₂, ⟨⟨witness, huser⟩, hfiller, w₃, hbooks, hdeposit, hemits⟩, htoken, hamount, hmoves.before hbooks⟩

/-- What an account holds of a token. -/
def Deployment.balance (D : Deployment W) (token account : Address) (w : World W) : Nat :=
  tokens (D.book token) w.rest account

/-- What left the offerer and the filler is what is deposited, and the contract has
what it had. -/
structure FundedByOrder (D : Deployment W) (msgSender : Address) (order : CrossChainLimitOrder) (d : DepositV3)
    (s w₁ w₂ s' : World W) : Prop where
  inputs : (D.balance order.input.token order.info.offerer s - D.balance order.input.token order.info.offerer w₁) +
    (D.balance order.input.token msgSender w₁ - D.balance order.input.token msgSender w₂) = d.inputAmount.toNat
  kept : D.balance order.input.token D.self s' = D.balance order.input.token D.self s

/-- Through the narrowing cast a collateral comes in modulo 2^160. -/
theorem Stages.pulled {d : DepositV3} {w₁ w₂ : World W} (h : Stages D msgSender signedOrder order d s w₁ w₂ s')
    (hp : ExactPermit2 D order.input.token) (htoken : order.fillerCollateral.token = order.input.token) :
    (order.info.offerer ≠ D.self ∧ Moves D.book order.input.token order.info.offerer D.self order.input.amount
      s.rest w₁.rest) ∧
    Moves D.book order.input.token msgSender D.self ((order.fillerCollateral.amount.setWidth 160).setWidth 256)
      w₁.rest w₂.rest := by
  obtain ⟨witness, huser⟩ := h.user
  have hfiller := h.filler
  rw [fillerCall, htoken] at hfiller
  refine ⟨?_, ?_⟩
  · exact outsideCall_halts (Q := fun s w => order.info.offerer ≠ D.self ∧
      Moves D.book order.input.token order.info.offerer D.self order.input.amount s.rest w)
      (fun s => hp.permit s _ _ _ _ _ _ rfl) huser
  · exact outsideCall_halts (Q := fun s w => Moves D.book order.input.token msgSender D.self
      ((order.fillerCollateral.amount.setWidth 160).setWidth 256) s.rest w) (fun s => hp.transferFrom s _ _ _) hfiller

theorem narrowed_toNat (x : Uint256) : ((x.setWidth 160).setWidth 256).toNat = x.toNat % 2 ^ 160 := by
  rw [BitVec.toNat_setWidth, BitVec.toNat_setWidth]
  exact Nat.mod_eq_of_lt (lt_trans (Nat.mod_lt _ (by decide)) (by decide))

/-- What the narrowing cast drops from the collateral, the contract pays. -/
theorem Stages.shortfall {d : DepositV3} {w₁ w₂ : World W} (h : Stages D msgSender signedOrder order d s w₁ w₂ s')
    (hp : ExactPermit2 D order.input.token) (htoken : order.fillerCollateral.token = order.input.token)
    (hamount : d.inputAmount.toNat = order.input.amount.toNat + order.fillerCollateral.amount.toNat)
    (hdeposit : Moves D.book order.input.token D.self D.spokePool.self d.inputAmount w₂.rest s'.rest)
    (hsender : msgSender ≠ D.self) :
    D.balance order.input.token D.self s' + order.fillerCollateral.amount.toNat =
      D.balance order.input.token D.self s + order.fillerCollateral.amount.toNat % 2 ^ 160 := by
  obtain ⟨⟨hofferer, huser⟩, hfiller⟩ := h.pulled hp htoken
  have hin := huser.received hofferer
  have hin' := hfiller.received hsender
  have hout := hdeposit.paid D.other.symm
  rw [narrowed_toNat] at hin'
  simp only [Deployment.balance]
  omega

/-- A successful call is paid for by its order exactly when the collateral fits the
160 bits that Permit2 takes. -/
theorem permit2Deposit_funded_iff (ho : decodeOrder signedOrder.order = some order)
    (hp : ExactPermit2 D order.input.token) (ht : StandardErc20 D order.input.token) (hsender : msgSender ≠ D.self)
    (h : Ok (permit2Deposit D msgSender signedOrder destinationChainFillerAddress) s () s') : ∃ d w₁ w₂,
      Stages D msgSender signedOrder order d s w₁ w₂ s' ∧
      (FundedByOrder D msgSender order d s w₁ w₂ s' ↔ order.fillerCollateral.amount.toNat < 2 ^ 160) := by
  obtain ⟨d, w₁, w₂, hstages, htoken, hamount, hdeposit⟩ := permit2Deposit_ok ho ht h
  have hshort := hstages.shortfall hp htoken hamount hdeposit hsender
  refine ⟨d, w₁, w₂, hstages, fun hfunded => ?_, fun hfits => ?_⟩
  · rw [hfunded.kept] at hshort
    rw [Nat.add_left_cancel hshort]
    exact Nat.mod_lt _ (by decide)
  · rw [Nat.mod_eq_of_lt hfits] at hshort
    obtain ⟨⟨hofferer, huser⟩, hfiller⟩ := hstages.pulled hp htoken
    have hpaid := huser.paid hofferer
    have hpaid' := hfiller.paid hsender
    rw [narrowed_toNat, Nat.mod_eq_of_lt hfits] at hpaid'
    refine ⟨?_, Nat.add_right_cancel hshort⟩
    simp only [Deployment.balance]
    omega

end Funding

section Samples

/-- A depositor at account 9, with Permit2 at account 7. -/
def sampleDepositor : Deployment Ledgers where
  self := 9
  quoteBeforeDeadline := 1000
  spokePool := samplePool
  host := sampleHost
  levels := 1
  book := Ledgers.bookOf
  behave c s := match c with
    | .permitWitnessTransferFrom permit details owner _ _ _ =>
        if owner ≠ 9 ∧ details.requestedAmount.toNat ≤ permit.amount.toNat then
          haltWith s.rest (s.rest.transferFrom permit.token 7 owner details.dst details.requestedAmount)
        else .halt false s.rest
    | .transferFrom src dst amount token => haltWith s.rest (s.rest.transferFrom token 7 src dst (amount.setWidth 256))
    | .safeIncreaseAllowance token spender amount => haltWith s.rest (s.rest.increaseAllowance token 9 spender amount)
  other := samplePool_self_ne

theorem sampleDepositor_permit2 (token : Address) : ExactPermit2 sampleDepositor token where
  permit s permit details owner witness type sig htoken := by
    subst htoken
    by_cases hc : owner ≠ 9 ∧ details.requestedAmount.toNat ≤ permit.amount.toNat
    · obtain ⟨ok, l, hhalt, hsome⟩ := haltWith_halts s.rest
        (s.rest.transferFrom permit.token 7 owner details.dst details.requestedAmount)
      exact ⟨ok, l, (if_pos hc).trans hhalt, fun hok => ⟨hc.1, Ledgers.transferFrom_moves (hsome hok)⟩⟩
    · exact ⟨false, s.rest, if_neg hc, nofun⟩
  transferFrom s src dst amount := by
    obtain ⟨ok, l, hhalt, hsome⟩ := haltWith_halts s.rest (s.rest.transferFrom token 7 src dst (amount.setWidth 256))
    exact ⟨ok, l, hhalt, fun hok => Ledgers.transferFrom_moves (hsome hok)⟩

theorem sampleDepositor_standard (token : Address) : StandardErc20 sampleDepositor token where
  approve s spender amount := by
    obtain ⟨ok, l, hhalt, hsome⟩ := haltWith_halts s.rest (s.rest.increaseAllowance token 9 spender amount)
    exact ⟨ok, l, hhalt, fun hok => Ledgers.increaseAllowance_books (hsome hok)⟩
  pull := sampleHost_pulls token

/-- An order of account 6 over 1 of token 5. -/
def sampleOrder (collateral : Uint256) : CrossChainLimitOrder where
  info := ⟨9, 6, 0, 2000, 500, 0, 0, 0, 0, ⟨[], nil_fits⟩⟩
  input := ⟨5, 1, 1⟩
  fillerCollateral := ⟨5, collateral⟩
  challengerCollateral := ⟨0, 0⟩
  outputs := [⟨4, 20, 1, 137⟩]

def sampleSignedOrder (collateral : Nat) : SignedOrder where
  order := words [32, 288, 5, 1, 1, 5, collateral, 0, 0, 640, 9, 6, 0, 2000, 500, 0, 0, 0, 0, 320, 0, 1, 4, 20, 1, 137]
  sig := []

/-- The depositor holds 2^160 of the token. -/
def sampleWorld : World Ledgers where
  pool := sampleStorage
  time := 1000
  rest := ⟨fun _ => ⟨2 ^ 200, fun a => if a = 9 then 2 ^ 160 else if a = 6 ∨ a = 8 then 10 else 0⟩, fun _ _ _ => 100⟩
  trace := []

theorem sampleOrder_funded : ∃ d w₁ w₂ s',
    Stages sampleDepositor 8 (sampleSignedOrder 7) (sampleOrder 7) d sampleWorld w₁ w₂ s' ∧
    FundedByOrder sampleDepositor 8 (sampleOrder 7) d sampleWorld w₁ w₂ s' := by
  obtain ⟨s', h⟩ : ∃ s', Ok (permit2Deposit sampleDepositor 8 (sampleSignedOrder 7) 8) sampleWorld () s' :=
    exists_ok (by decide +kernel)
  have ho : decodeOrder (sampleSignedOrder 7).order = some (sampleOrder 7) := by decide +kernel
  obtain ⟨d, w₁, w₂, hstages, hfunded⟩ := permit2Deposit_funded_iff ho (sampleDepositor_permit2 5)
    (sampleDepositor_standard 5) (by decide) h
  exact ⟨d, w₁, w₂, s', hstages, hfunded.mpr (by decide)⟩

/-- A collateral of 2^160 comes out of what the depositor holds. -/
theorem sampleOrder_drains : ExactPermit2 sampleDepositor 5 ∧ StandardErc20 sampleDepositor 5 ∧ ∃ d w₁ w₂ s',
    Ok (permit2Deposit sampleDepositor 8 (sampleSignedOrder (2 ^ 160)) 8) sampleWorld () s' ∧
    Stages sampleDepositor 8 (sampleSignedOrder (2 ^ 160)) (sampleOrder (2 ^ 160)) d sampleWorld w₁ w₂ s' ∧
    sampleDepositor.balance 5 9 s' + 2 ^ 160 = sampleDepositor.balance 5 9 sampleWorld ∧
    ¬ FundedByOrder sampleDepositor 8 (sampleOrder (2 ^ 160)) d sampleWorld w₁ w₂ s' := by
  obtain ⟨s', h⟩ : ∃ s', Ok (permit2Deposit sampleDepositor 8 (sampleSignedOrder (2 ^ 160)) 8) sampleWorld () s' :=
    exists_ok (by decide +kernel)
  have ho : decodeOrder (sampleSignedOrder (2 ^ 160)).order = some (sampleOrder (2 ^ 160)) := by decide +kernel
  obtain ⟨d, w₁, w₂, hstages, htoken, hamount, hdeposit⟩ := permit2Deposit_ok ho (sampleDepositor_standard 5) h
  have hshort := hstages.shortfall (sampleDepositor_permit2 5) htoken hamount hdeposit (by decide)
  have hcollateral : (sampleOrder (2 ^ 160)).fillerCollateral.amount.toNat = 2 ^ 160 := by decide +kernel
  rw [hcollateral, Nat.mod_self, Nat.add_zero] at hshort
  refine ⟨sampleDepositor_permit2 5, sampleDepositor_standard 5, d, w₁, w₂, s', h, hstages, hshort,
    fun hfunded => ?_⟩
  have hkept := hfunded.kept
  omega

end Samples

end Across.Permit2Depositor
