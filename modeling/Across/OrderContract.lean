import Across.OrderDepositor

namespace Across.OrderContract

open WordBytes Abi Keccak CallExec CallExec.Exec SpokeTypes SpokeState SpokePool OrderDepositor

/-- The storage of the depositor contract: its table of settlers and the variable
of `Ownable`. -/
structure DepositorStorage where
  destinationSettlers : Uint256 → Address
  owner : Address

inductive DepositorEvent
  | setDestinationSettler (chainId : Uint256) (prevDestinationSettler destinationSettler : Address)
  | open (o : Open)
  | ownershipTransferred (previousOwner newOwner : Address)

/-- The chain as the depositor contract sees it. `world` is the pool and all other
accounts. -/
structure DepositorState (W : Type) where
  storage : DepositorStorage
  world : World W
  log : List DepositorEvent

/-- The public functions with their decoded arguments. The entries of a multicall are
calldata for the same contract, `view` is any getter, and `undecodable` is calldata
that no function accepts. -/
inductive DepositorCall
  | setDestinationSettler (chainId : Uint256) (destinationSettler : Address)
  | open (order : OnchainCrossChainOrder)
  | openFor (order : GaslessCrossChainOrder) (signature fillerData : Bytes)
  | resolve (order : OnchainCrossChainOrder)
  | resolveFor (order : GaslessCrossChainOrder) (fillerData : Bytes)
  | transferOwnership (newOwner : Address)
  | renounceOwnership
  | multicall (data : List DepositorCall)
  | view
  | undecodable

structure DepositorFrame (W : Type) where
  msg : Msg
  call : DepositorCall
  pre : DepositorState W
  post : Except Error (DepositorState W)

abbrev DepositorCode (W : Type) := Exec (DepositorState W) (DepositorFrame W) Error

/-- The calls of the contract to other accounts, the pool among them. -/
inductive OutCall
  | settler (c : SettlerCall)
  | deposit (call : Call)

/-- What an account does when the contract calls it: it returns or reverts, or it
first calls the contract and goes on from the result. -/
inductive Visitor (W : Type)
  | halt (ok : Bool) (w : World W)
  | invoke (w : World W) (msg : Msg) (call : DepositorCall) (resume : Bool → DepositorState W → Visitor W)

def settlerAt {W : Type} (S : Settler W) (st : DepositorStorage) : Settler W :=
  { S with destinationSettlers := st.destinationSettlers }

section Primitives

variable {W α : Type}

def onWorld (m : Code W α) : DepositorCode W α := fun s =>
  ⟨[], (m s.world).result.map fun r => (r.1, { s with world := r.2 })⟩

def emit (e : DepositorEvent) : DepositorCode W Unit := update fun s => { s with log := s.log ++ [e] }

def onlyOwner (msg : Msg) (m : DepositorCode W Unit) : DepositorCode W Unit := do
  let s ← read
  require (s.storage.owner = msg.sender) (.message "Ownable: caller is not the owner")
  m

/-- Other accounts change whatever is theirs. The clock stands still. -/
def setWorld (w : World W) : DepositorCode W Unit := update fun s =>
  { s with world := { w with time := s.world.time } }

def runVisitor (enter : Msg → DepositorCall → DepositorCode W Unit) : Visitor W → DepositorCode W Unit
  | .halt true w => setWorld w
  | .halt false _ => revert .externalCallFailed
  | .invoke w msg call resume => do
      setWorld w
      let r ← attempt (enter msg call)
      let s ← read
      runVisitor enter (resume r.toBool s)

def outCall (visit : OutCall → DepositorState W → Visitor W) (enter : Msg → DepositorCall → DepositorCode W Unit)
    (c : OutCall) : DepositorCode W Unit := do
  let s ← read
  runVisitor enter (visit c s)

end Primitives

section Functions

-- `out` makes a call to another account, and `self` a delegatecall to the
-- contract's own code.
variable {W : Type} (V : Variant W) (S : Settler W) (out : OutCall → DepositorCode W Unit)
  (self : DepositorCall → DepositorCode W Unit) (msg : Msg)

def setDestinationSettler (chainId : Uint256) (destinationSettler : Address) : DepositorCode W Unit := do
  let s ← read
  let prevDestinationSettler := s.storage.destinationSettlers chainId
  update fun s => { s with storage := { s.storage with
    destinationSettlers := Function.update s.storage.destinationSettlers chainId destinationSettler } }
  emit (.setDestinationSettler chainId prevDestinationSettler destinationSettler)

def transferOwnership (newOwner : Address) : DepositorCode W Unit := do
  let s ← read
  update fun s => { s with storage := { s.storage with owner := newOwner } }
  emit (.ownershipTransferred s.storage.owner newOwner)

def resolve (order : OnchainCrossChainOrder) : DepositorCode W (ResolvedCrossChainOrder × AcrossOrderData) := do
  let s ← read
  onWorld (OrderDepositor.resolve V (settlerAt S s.storage) msg.sender order)

def resolveFor (order : GaslessCrossChainOrder) (fillerData : Bytes) :
    DepositorCode W (ResolvedCrossChainOrder × AcrossOrderData × AcrossOriginFillerData) := do
  let s ← read
  onWorld (OrderDepositor.resolveFor V (settlerAt S s.storage) order fillerData)

def processPermit2Order (order : GaslessCrossChainOrder) (d : AcrossOrderData) (signature : Bytes) :
    DepositorCode W Unit :=
  out (.settler (.permitWitnessTransferFrom d.inputToken d.inputAmount order.nonce order.openDeadline S.self
    d.inputAmount order.user (hashOrder order (hashOrderData d)) permit2OrderType signature))

def callDeposit (d : DepositV3) (depositNonce : Uint256) : DepositorCode W Unit := do
  out (.settler (.safeIncreaseAllowance d.inputToken V.self d.inputAmount))
  out (.deposit (depositCall d depositNonce))

def openFor (order : GaslessCrossChainOrder) (signature fillerData : Bytes) : DepositorCode W Unit := do
  let (resolvedOrder, d, f) ← resolveFor V S order fillerData
  processPermit2Order S out order d signature
  require (S.quoteBeforeDeadline ≤ order.openDeadline.toNat) .panic
  let quoteTimestamp : Uint32 := BitVec.ofNat 32 (order.openDeadline.toNat - S.quoteBeforeDeadline)
  callDeposit V out (depositArgs order.user f.exclusiveRelayer d quoteTimestamp order.fillDeadline) d.depositNonce
  emit (.open ⟨keccak256 resolvedOrder.fillInstruction.originData, resolvedOrder⟩)

def «open» (order : OnchainCrossChainOrder) : DepositorCode W Unit := do
  let (resolvedOrder, d) ← resolve V S msg order
  out (.settler (.safeTransferFrom d.inputToken msg.sender S.self d.inputAmount))
  let s ← read
  require (s.world.time < 2 ^ 32) (.message "SafeCast: value doesn't fit in 32 bits")
  let quoteTimestamp : Uint32 := BitVec.ofNat 32 s.world.time
  callDeposit V out (depositArgs msg.sender d.exclusiveRelayer d quoteTimestamp order.fillDeadline) d.depositNonce
  emit (.open ⟨keccak256 resolvedOrder.fillInstruction.originData, resolvedOrder⟩)

/-- The public function that `call` selects. None of them takes a value. -/
def dispatch : DepositorCall → DepositorCode W Unit
  | .setDestinationSettler c a => setDestinationSettler c a
  | .open order => «open» V S out msg order
  | .openFor order signature fillerData => openFor V S out order signature fillerData
  | .resolve order => do
      let _ ← resolve V S msg order
      pure ()
  | .resolveFor order fillerData => do
      let _ ← resolveFor V S order fillerData
      pure ()
  | .transferOwnership a => onlyOwner msg do
      require (a ≠ 0) (.message "Ownable: new owner is the zero address")
      transferOwnership a
  | .renounceOwnership => onlyOwner msg (transferOwnership 0)
  | .multicall data => forEach self data
  | .view => pure ()
  | .undecodable => revert .undecodable

end Functions

section System

variable {W : Type} (V : Variant W) (S : Settler W) (visit : OutCall → DepositorState W → Visitor W)

/-- Execute a call of the contract with at most `n` further levels of calls. -/
def exec : Nat → Msg → DepositorCall → DepositorCode W Unit
  | 0, _, _ => revert .callDepth
  | n + 1, msg, call =>
      record (DepositorFrame.mk msg call) do
        require (msg.value = 0) (.message "")
        dispatch V S (outCall visit (exec n)) (exec n msg) msg call

/-- A transaction that calls the contract at some time, or any change of the pool and
the other accounts. -/
inductive DepositorInput (W : Type)
  | transact (time : Nat) (msg : Msg) (call : DepositorCall)
  | elsewhere (f : World W → World W)

def input (n : Nat) : DepositorInput W → DepositorCode W Unit
  | .transact time msg call => do
      update fun s => { s with world := { s.world with time := time } }
      let _ ← attempt (exec V S visit n msg call)
      pure ()
  | .elsewhere f => update fun s => { s with world := f s.world }

def run (n : Nat) (inputs : List (DepositorInput W)) : DepositorCode W Unit := forEach (input V S visit n) inputs

end System

section Closed

variable {W α : Type} {V : Variant W} {S : Settler W} {pool : Msg → Call → Code W Unit} {s s' : DepositorState W}

/-- The accounts that the contract calls do not call it back. -/
def closed (S : Settler W) (pool : Msg → Call → Code W Unit) : OutCall → DepositorCode W Unit
  | .settler c => onWorld (settlerCall S pool c)
  | .deposit call => onWorld (pool ⟨S.self, 0⟩ call)

theorem onWorld_ok {m : Code W α} {a : α} :
    Ok (onWorld m) s a s' ↔ ∃ w, Ok m s.world a w ∧ { s with world := w } = s' := by
  simp only [Ok, onWorld]
  cases (m s.world).result with
  | error e => simp [Except.map]
  | ok r =>
      obtain ⟨b, w⟩ := r
      simp only [Except.map, Except.ok.injEq, Prod.mk.injEq]
      constructor
      · rintro ⟨rfl, rfl⟩
        exact ⟨w, ⟨rfl, rfl⟩, rfl⟩
      · rintro ⟨_, ⟨rfl, rfl⟩, rfl⟩
        exact ⟨rfl, rfl⟩

theorem callDeposit_closed {d : DepositV3} {nonce : Uint256} {u : Unit} :
    Ok (callDeposit V (closed S pool) d nonce) s u s' ↔
      ∃ w, Ok (OrderDepositor.callDeposit V S pool d nonce) s.world () w ∧ { s with world := w } = s' := by
  simp only [callDeposit, OrderDepositor.callDeposit, closed, bind_ok, onWorld_ok]
  constructor
  · rintro ⟨_, _, ⟨w, hw, rfl⟩, v, hv, rfl⟩
    exact ⟨v, ⟨(), w, hw, hv⟩, rfl⟩
  · rintro ⟨v, ⟨_, w, hw, hv⟩, rfl⟩
    exact ⟨(), _, ⟨w, hw, rfl⟩, v, hv, rfl⟩

/-- Without calls back, opening an order is what the abstract depositor does with the
table that is in storage. -/
theorem open_closed {msg : Msg} {order : OnchainCrossChainOrder} {u : Unit} :
    Ok («open» V S (closed S pool) msg order) s u s' ↔ ∃ o w,
      Ok (OrderDepositor.open V (settlerAt S s.storage) pool msg.sender order) s.world o w ∧
      { s with world := w, log := s.log ++ [.open o] } = s' := by
  simp only [«open», OrderDepositor.open, resolve, emit, bind_ok, read_ok, update_ok, require_ok, pure_ok, onWorld_ok,
    callDeposit_closed, closed]
  constructor
  · rintro ⟨_, _, ⟨_, _, ⟨rfl, rfl⟩, v, hv, rfl⟩, _, _, ⟨w, hw, rfl⟩, _, _, ⟨rfl, rfl⟩, _, _, ⟨ht, rfl⟩, _, _,
      ⟨x, hx, rfl⟩, rfl⟩
    exact ⟨_, _, ⟨_, _, hv, _, _, hw, _, _, ⟨rfl, rfl⟩, (), _, ⟨ht, rfl⟩, (), _, hx, rfl, rfl⟩, rfl⟩
  · rintro ⟨_, _, ⟨_, _, hv, _, _, hw, _, _, ⟨rfl, rfl⟩, _, _, ⟨ht, rfl⟩, _, _, hx, rfl, rfl⟩, rfl⟩
    exact ⟨_, _, ⟨_, _, ⟨rfl, rfl⟩, _, hv, rfl⟩, _, _, ⟨_, hw, rfl⟩, _, _, ⟨rfl, rfl⟩, (), _, ⟨ht, rfl⟩, (), _,
      ⟨_, hx, rfl⟩, rfl⟩

theorem openFor_closed {order : GaslessCrossChainOrder} {signature fillerData : Bytes} {u : Unit} :
    Ok (openFor V S (closed S pool) order signature fillerData) s u s' ↔ ∃ o w,
      Ok (OrderDepositor.openFor V (settlerAt S s.storage) pool order signature fillerData) s.world o w ∧
      { s with world := w, log := s.log ++ [.open o] } = s' := by
  simp only [openFor, OrderDepositor.openFor, resolveFor, processPermit2Order, OrderDepositor.processPermit2Order, emit,
    bind_ok, read_ok, update_ok, require_ok, pure_ok, onWorld_ok, callDeposit_closed, closed]
  constructor
  · rintro ⟨_, _, ⟨_, _, ⟨rfl, rfl⟩, v, hv, rfl⟩, _, _, ⟨w, hw, rfl⟩, _, _, ⟨ht, rfl⟩, _, _, ⟨x, hx, rfl⟩, rfl⟩
    exact ⟨_, _, ⟨_, _, hv, _, _, hw, (), _, ⟨ht, rfl⟩, (), _, hx, rfl, rfl⟩, rfl⟩
  · rintro ⟨_, _, ⟨_, _, hv, _, _, hw, _, _, ⟨ht, rfl⟩, _, _, hx, rfl, rfl⟩, rfl⟩
    exact ⟨_, _, ⟨_, _, ⟨rfl, rfl⟩, _, hv, rfl⟩, _, _, ⟨_, hw, rfl⟩, (), _, ⟨ht, rfl⟩, (), _, ⟨_, hx, rfl⟩, rfl⟩

end Closed

end Across.OrderContract
