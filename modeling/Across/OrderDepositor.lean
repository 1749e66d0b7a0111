import Across.SpokePool

namespace Across.OrderDepositor

open WordBytes Abi Keccak CallExec CallExec.Exec SpokeTypes SpokeState SpokePool

structure AcrossOrderData where
  inputToken : Address
  inputAmount : Uint256
  outputToken : Address
  outputAmount : Uint256
  destinationChainId : Uint32
  recipient : Address
  exclusiveRelayer : Address
  depositNonce : Uint256
  exclusivityPeriod : Uint32
  message : Blob
deriving DecidableEq

structure AcrossOriginFillerData where
  exclusiveRelayer : Address

structure GaslessCrossChainOrder where
  originSettler : Address
  user : Address
  nonce : Uint256
  originChainId : BitVec 64
  openDeadline : Uint32
  fillDeadline : Uint32
  orderDataType : Bytes32
  orderData : Bytes

structure OnchainCrossChainOrder where
  fillDeadline : Uint32
  orderDataType : Bytes32
  orderData : Bytes

structure Output where
  token : Bytes32
  amount : Uint256
  recipient : Bytes32
  chainId : BitVec 64

structure FillInstruction where
  destinationChainId : BitVec 64
  destinationSettler : Bytes32
  originData : Bytes

/-- Every resolved order has exactly one output of each kind and one fill
instruction, so the one-element arrays are kept as their elements. -/
structure ResolvedCrossChainOrder where
  user : Address
  originChainId : BitVec 64
  openDeadline : Uint32
  fillDeadline : Uint32
  maxSpent : Output
  minReceived : Output
  fillInstruction : FillInstruction

structure Open where
  orderId : Bytes32
  resolvedOrder : ResolvedCrossChainOrder

def acrossOrderDataType : Bytes :=
  utf8 ("AcrossOrderData(address inputToken,uint256 inputAmount,address outputToken,uint256 outputAmount," ++
    "uint32 destinationChainId,address recipient,address exclusiveRelayer,uint256 depositNonce," ++
    "uint32 exclusivityPeriod,bytes message)")

def acrossOrderDataTypeHash : Bytes32 := keccak256 acrossOrderDataType

def crossChainOrderType : Bytes :=
  utf8 ("GaslessCrossChainOrder(address originSettler,address user,uint256 nonce,uint32 originChainId," ++
    "uint32 openDeadline,uint32 fillDeadline,bytes32 orderDataType,AcrossOrderData orderData)")

def crossChainOrderTypeHash : Bytes32 := keccak256 (crossChainOrderType ++ acrossOrderDataType)

def permit2OrderType : Bytes :=
  utf8 "CrossChainOrder witness)" ++ acrossOrderDataType ++ crossChainOrderType ++
    utf8 "TokenPermissions(address token,uint256 amount)"

def orderPreimage (order : GaslessCrossChainOrder) (orderDataHash : Bytes32) : Bytes :=
  words [crossChainOrderTypeHash.toNat, order.originSettler.toNat, order.user.toNat, order.nonce.toNat,
    order.originChainId.toNat, order.openDeadline.toNat, order.fillDeadline.toNat, orderDataHash.toNat]

def hashOrder (order : GaslessCrossChainOrder) (orderDataHash : Bytes32) : Bytes32 :=
  keccak256 (orderPreimage order orderDataHash)

def orderDataPreimage (d : AcrossOrderData) : Bytes :=
  words [acrossOrderDataTypeHash.toNat, d.inputToken.toNat, d.inputAmount.toNat, d.outputToken.toNat,
    d.outputAmount.toNat, d.destinationChainId.toNat, d.recipient.toNat, d.exclusivityPeriod.toNat,
    (keccak256 d.message.val).toNat]

def hashOrderData (d : AcrossOrderData) : Bytes32 := keccak256 (orderDataPreimage d)

def AcrossOrderData.members (d : AcrossOrderData) : List Nat :=
  [d.inputToken.toNat, d.inputAmount.toNat, d.outputToken.toNat, d.outputAmount.toNat,
   d.destinationChainId.toNat, d.recipient.toNat, d.exclusiveRelayer.toNat, d.depositNonce.toNat,
   d.exclusivityPeriod.toNat]

/-- `abi.encode` of the struct, the form in which an order carries it. -/
def AcrossOrderData.encoded (d : AcrossOrderData) : Bytes :=
  encode [.tail (encode (d.members.map Part.word ++ [.tail (encodeBytes d.message.val)]))]

def decodeOrderData (bs : Bytes) : Option AcrossOrderData := do
  let base ← offsetAt bs 0
  let inputToken ← uintAt 160 bs base
  let inputAmount ← uintAt 256 bs (base + 32)
  let outputToken ← uintAt 160 bs (base + 64)
  let outputAmount ← uintAt 256 bs (base + 96)
  let destinationChainId ← uintAt 32 bs (base + 128)
  let recipient ← uintAt 160 bs (base + 160)
  let exclusiveRelayer ← uintAt 160 bs (base + 192)
  let depositNonce ← uintAt 256 bs (base + 224)
  let exclusivityPeriod ← uintAt 32 bs (base + 256)
  let messageOffset ← offsetAt bs (base + 288)
  let message ← bytesAt bs (base + messageOffset)
  some ⟨inputToken, inputAmount, outputToken, outputAmount, destinationChainId, recipient, exclusiveRelayer,
    depositNonce, exclusivityPeriod, message⟩

def decodeFillerData (bs : Bytes) : Option AcrossOriginFillerData := do
  let exclusiveRelayer ← uintAt 160 bs 0
  some ⟨exclusiveRelayer⟩

def decode (orderData fillerData : Bytes) : Option (AcrossOrderData × AcrossOriginFillerData) := do
  let d ← decodeOrderData orderData
  let f ← decodeFillerData fillerData
  some (d, f)

theorem AcrossOrderData.members_lt (d : AcrossOrderData) : ∀ n ∈ d.members, n < 2 ^ 256 := by
  intro n hn
  simp only [members, List.mem_cons, List.not_mem_nil, or_false] at hn
  rcases hn with rfl | rfl | rfl | rfl | rfl | rfl | rfl | rfl | rfl
  all_goals exact toNat_lt_word (by decide) _

theorem AcrossOrderData.encoded_eq (d : AcrossOrderData) :
    d.encoded = words ([32] ++ d.members ++ [320]) ++ encodeBytes d.message.val := by
  have hl : 32 * (d.members.map Part.word ++ [Part.tail (encodeBytes d.message.val)]).length = 320 := rfl
  have hi : encode (d.members.map Part.word ++ [.tail (encodeBytes d.message.val)]) =
      words (d.members ++ [320]) ++ encodeBytes d.message.val := by
    rw [encode, hl, headWords_words, tails_words]
    simp only [headWords, tails, List.append_nil]
  rw [encoded, hi, encode]
  simp only [headWords, tails, List.append_nil, List.length_singleton, words_append, words_cons, words_nil,
    List.append_assoc]

theorem decodeOrderData_encoded (d : AcrossOrderData) : decodeOrderData d.encoded = some d := by
  have hw : ∀ i n, ([32] ++ d.members ++ [320])[i]? = some n → wordAt d.encoded (32 * i) = some n := by
    intro i n hi
    rw [d.encoded_eq]
    refine wordAt_words (fun k hk => ?_) _ hi
    simp only [List.mem_append, List.mem_singleton] at hk
    rcases hk with (rfl | hk) | rfl
    · decide
    · exact d.members_lt k hk
    · decide
  have hm : bytesAt d.encoded 352 = some d.message := by
    have hl : (words ([32] ++ d.members ++ [320])).length = 352 := by
      rw [length_words]
      rfl
    have hb := bytesAt_encodeBytes (words ([32] ++ d.members ++ [320])) d.message []
    rw [List.append_nil, hl, ← d.encoded_eq] at hb
    exact hb
  have h₀ : offsetAt d.encoded 0 = some 32 := offsetAt_of_wordAt (hw 0 32 rfl) (by decide)
  have h₁ : uintAt 160 d.encoded (32 + 0) = some d.inputToken := uintAt_of_wordAt (hw 1 _ rfl)
  have h₂ : uintAt 256 d.encoded (32 + 32) = some d.inputAmount := uintAt_of_wordAt (hw 2 _ rfl)
  have h₃ : uintAt 160 d.encoded (32 + 64) = some d.outputToken := uintAt_of_wordAt (hw 3 _ rfl)
  have h₄ : uintAt 256 d.encoded (32 + 96) = some d.outputAmount := uintAt_of_wordAt (hw 4 _ rfl)
  have h₅ : uintAt 32 d.encoded (32 + 128) = some d.destinationChainId := uintAt_of_wordAt (hw 5 _ rfl)
  have h₆ : uintAt 160 d.encoded (32 + 160) = some d.recipient := uintAt_of_wordAt (hw 6 _ rfl)
  have h₇ : uintAt 160 d.encoded (32 + 192) = some d.exclusiveRelayer := uintAt_of_wordAt (hw 7 _ rfl)
  have h₈ : uintAt 256 d.encoded (32 + 224) = some d.depositNonce := uintAt_of_wordAt (hw 8 _ rfl)
  have h₉ : uintAt 32 d.encoded (32 + 256) = some d.exclusivityPeriod := uintAt_of_wordAt (hw 9 _ rfl)
  have h₁₀ : offsetAt d.encoded (32 + 288) = some 320 := offsetAt_of_wordAt (hw 10 320 rfl) (by decide)
  rw [Nat.add_zero] at h₁
  simp only [decodeOrderData, bind, h₀, h₁, h₂, h₃, h₄, h₅, h₆, h₇, h₈, h₉, h₁₀, hm, Option.bind_some]

/-- The calls of the depositor contract to accounts other than the pool. -/
inductive SettlerCall
  | permitWitnessTransferFrom (token : Address) (amount nonce : Uint256) (deadline : Uint32) (dst : Address)
      (requestedAmount : Uint256) (user : Address) (witness : Bytes32) (witnessTypeString signature : Bytes)
  | safeTransferFrom (token src dst : Address) (amount : Uint256)
  | safeIncreaseAllowance (token spender : Address) (amount : Uint256)

/-- The deployed depositor contract: its immutables, its table of settlers, and
the code of the accounts it calls, which may call the pool in turn. -/
structure Settler (W : Type) where
  self : Address
  quoteBeforeDeadline : Nat
  destinationSettlers : Uint256 → Address
  behave : SettlerCall → World W → Callee W

section Functions

variable {W : Type} (V : Variant W) (S : Settler W) (pool : Msg → Call → Code W Unit)

def toBytes32 (input : Address) : Bytes32 := input.setWidth 256

def settlerCall (c : SettlerCall) : Code W Unit := do
  let s ← read
  runCallee pool (S.behave c s)

def computeDepositId (depositNonce : Uint256) (depositor : Address) (s : World W) : Uint256 :=
  if depositNonce = 0 then s.pool.numberOfDeposits.setWidth 256
  else getUnsafeDepositId S.self depositor depositNonce

/-- The part that both ways of resolving an order share: `depositor` opens it and
`exclusiveRelayer` is named in it. -/
def resolved (depositor exclusiveRelayer : Address) (originChainId : BitVec 64)
    (openDeadline fillDeadline : Uint32) (d : AcrossOrderData) (s : World W) : ResolvedCrossChainOrder where
  user := depositor
  originChainId := originChainId
  openDeadline := openDeadline
  fillDeadline := fillDeadline
  maxSpent := ⟨toBytes32 d.outputToken, d.outputAmount, toBytes32 d.recipient, d.destinationChainId.setWidth 64⟩
  minReceived := ⟨toBytes32 d.inputToken, d.inputAmount, toBytes32 exclusiveRelayer, V.chainId.setWidth 64⟩
  fillInstruction := ⟨d.destinationChainId.setWidth 64,
    toBytes32 (S.destinationSettlers (d.destinationChainId.setWidth 256)),
    encode ([depositor.toNat, d.recipient.toNat, exclusiveRelayer.toNat, d.inputToken.toNat,
        d.outputToken.toNat, d.inputAmount.toNat, d.outputAmount.toNat, V.chainId.toNat,
        (computeDepositId S d.depositNonce depositor s).toNat, fillDeadline.toNat,
        d.exclusivityPeriod.toNat].map Part.word ++ [.tail (encodeBytes d.message.val)])⟩

def resolveFor (order : GaslessCrossChainOrder) (fillerData : Bytes) :
    Code W (ResolvedCrossChainOrder × AcrossOrderData × AcrossOriginFillerData) := do
  require (order.originSettler = S.self) .wrongSettlementContract
  require (order.originChainId.toNat = V.chainId.toNat) .wrongChainId
  require (order.orderDataType = acrossOrderDataTypeHash) .wrongOrderDataType
  match decode order.orderData fillerData with
  | none => revert .undecodable
  | some (d, f) => do
      require (d.exclusiveRelayer = 0 ∨ d.exclusiveRelayer = f.exclusiveRelayer) .wrongExclusiveRelayer
      require (V.chainId.toNat < 2 ^ 32) (.message "SafeCast: value doesn't fit in 32 bits")
      let s ← read
      pure (resolved V S order.user f.exclusiveRelayer order.originChainId order.openDeadline
        order.fillDeadline d s, d, f)

def resolve (msgSender : Address) (order : OnchainCrossChainOrder) :
    Code W (ResolvedCrossChainOrder × AcrossOrderData) := do
  require (order.orderDataType = acrossOrderDataTypeHash) .wrongOrderDataType
  match decodeOrderData order.orderData with
  | none => revert .undecodable
  | some d => do
      require (V.chainId.toNat < 2 ^ 32) (.message "SafeCast: value doesn't fit in 32 bits")
      let s ← read
      pure (resolved V S msgSender d.exclusiveRelayer (V.chainId.setWidth 64) (BitVec.ofNat 32 (2 ^ 32 - 1))
        order.fillDeadline d s, d)

def processPermit2Order (order : GaslessCrossChainOrder) (d : AcrossOrderData) (signature : Bytes) : Code W Unit :=
  settlerCall S pool (.permitWitnessTransferFrom d.inputToken d.inputAmount order.nonce order.openDeadline S.self
    d.inputAmount order.user (hashOrder order (hashOrderData d)) permit2OrderType signature)

def depositArgs (depositor exclusiveRelayer : Address) (d : AcrossOrderData) (quoteTimestamp fillDeadline : Uint32) :
    DepositV3 :=
  ⟨depositor, d.recipient, d.inputToken, d.outputToken, d.inputAmount, d.outputAmount,
    d.destinationChainId.setWidth 256, exclusiveRelayer, quoteTimestamp, fillDeadline, d.exclusivityPeriod,
    d.message⟩

def depositCall (d : DepositV3) (depositNonce : Uint256) : Call :=
  if depositNonce = 0 then .depositV3 d else .unsafeDepositV3 d depositNonce

def callDeposit (d : DepositV3) (depositNonce : Uint256) : Code W Unit := do
  settlerCall S pool (.safeIncreaseAllowance d.inputToken V.self d.inputAmount)
  pool ⟨S.self, 0⟩ (depositCall d depositNonce)

def openFor (order : GaslessCrossChainOrder) (signature fillerData : Bytes) : Code W Open := do
  let (resolvedOrder, d, f) ← resolveFor V S order fillerData
  processPermit2Order S pool order d signature
  require (S.quoteBeforeDeadline ≤ order.openDeadline.toNat) .panic
  let quoteTimestamp : Uint32 := BitVec.ofNat 32 (order.openDeadline.toNat - S.quoteBeforeDeadline)
  callDeposit V S pool (depositArgs order.user f.exclusiveRelayer d quoteTimestamp order.fillDeadline)
    d.depositNonce
  pure ⟨keccak256 resolvedOrder.fillInstruction.originData, resolvedOrder⟩

def «open» (msgSender : Address) (order : OnchainCrossChainOrder) : Code W Open := do
  let (resolvedOrder, d) ← resolve V S msgSender order
  settlerCall S pool (.safeTransferFrom d.inputToken msgSender S.self d.inputAmount)
  let s ← read
  require (s.time < 2 ^ 32) (.message "SafeCast: value doesn't fit in 32 bits")
  let quoteTimestamp : Uint32 := BitVec.ofNat 32 s.time
  callDeposit V S pool (depositArgs msgSender d.exclusiveRelayer d quoteTimestamp order.fillDeadline)
    d.depositNonce
  pure ⟨keccak256 resolvedOrder.fillInstruction.originData, resolvedOrder⟩

end Functions

section Resolution

variable {W : Type} {V : Variant W} {S : Settler W} {s s' : World W} {r : ResolvedCrossChainOrder}
  {d : AcrossOrderData}

theorem decode_some {orderData fillerData : Bytes} {f : AcrossOriginFillerData}
    (h : decode orderData fillerData = some (d, f)) :
    decodeOrderData orderData = some d ∧ decodeFillerData fillerData = some f := by
  obtain ⟨d', hd, h⟩ := Option.bind_eq_some_iff.mp h
  obtain ⟨f', hf, h⟩ := Option.bind_eq_some_iff.mp h
  obtain ⟨rfl, rfl⟩ := Prod.mk.inj (Option.some.inj h)
  exact ⟨hd, hf⟩

theorem resolveFor_ok {order : GaslessCrossChainOrder} {fillerData : Bytes} {f : AcrossOriginFillerData}
    (h : Ok (resolveFor V S order fillerData) s (r, d, f) s') :
    s = s' ∧ order.originSettler = S.self ∧ order.originChainId.toNat = V.chainId.toNat ∧
      order.orderDataType = acrossOrderDataTypeHash ∧ decodeOrderData order.orderData = some d ∧
      r = resolved V S order.user f.exclusiveRelayer order.originChainId order.openDeadline order.fillDeadline
        d s := by
  obtain ⟨_, _, h₁, h⟩ := (bind_ok _ _ _ _ _).mp h
  obtain ⟨hs, rfl⟩ := (require_ok _ _ _ _ _).mp h₁
  obtain ⟨_, _, h₂, h⟩ := (bind_ok _ _ _ _ _).mp h
  obtain ⟨hc, rfl⟩ := (require_ok _ _ _ _ _).mp h₂
  obtain ⟨_, _, h₃, h⟩ := (bind_ok _ _ _ _ _).mp h
  obtain ⟨ht, rfl⟩ := (require_ok _ _ _ _ _).mp h₃
  split at h
  · exact ((revert_ok _ _ _ _).mp h).elim
  · rename_i d' f' hdec
    simp only [bind_ok, require_ok, read_ok, pure_ok, Prod.mk.injEq] at h
    obtain ⟨_, _, ⟨-, rfl⟩, _, _, ⟨-, rfl⟩, _, _, ⟨rfl, rfl⟩, ⟨hr, rfl, rfl⟩, rfl⟩ := h
    exact ⟨rfl, hs, hc, ht, (decode_some hdec).1, hr.symm⟩

theorem resolve_ok {msgSender : Address} {order : OnchainCrossChainOrder}
    (h : Ok (resolve V S msgSender order) s (r, d) s') :
    s = s' ∧ decodeOrderData order.orderData = some d ∧
      r = resolved V S msgSender d.exclusiveRelayer (V.chainId.setWidth 64) (BitVec.ofNat 32 (2 ^ 32 - 1))
        order.fillDeadline d s := by
  obtain ⟨_, _, h₁, h⟩ := (bind_ok _ _ _ _ _).mp h
  obtain ⟨-, rfl⟩ := (require_ok _ _ _ _ _).mp h₁
  split at h
  · exact ((revert_ok _ _ _ _).mp h).elim
  · rename_i d' hdec
    simp only [bind_ok, require_ok, read_ok, pure_ok, Prod.mk.injEq] at h
    obtain ⟨_, _, ⟨-, rfl⟩, _, _, ⟨rfl, rfl⟩, ⟨hr, rfl⟩, rfl⟩ := h
    exact ⟨rfl, hdec, hr.symm⟩

end Resolution

end Across.OrderDepositor
