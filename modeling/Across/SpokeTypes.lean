import Across.Abi
import Across.MerkleProof

namespace Across.SpokeTypes

open WordBytes Abi Keccak MerkleProof

inductive FillStatus
  | unfilled
  | requestedSlowFill
  | filled
deriving DecidableEq

inductive FillType
  | fastFill
  | replacedSlowFill
  | slowFill
deriving DecidableEq

structure V3RelayData where
  depositor : Address
  recipient : Address
  exclusiveRelayer : Address
  inputToken : Address
  outputToken : Address
  inputAmount : Uint256
  outputAmount : Uint256
  originChainId : Uint256
  depositId : Uint256
  fillDeadline : Uint32
  exclusivityDeadline : Uint32
  message : Blob
deriving DecidableEq

structure V3SlowFill where
  relayData : V3RelayData
  chainId : Uint256
  updatedOutputAmount : Uint256

structure V3RelayExecutionParams where
  relay : V3RelayData
  relayHash : Bytes32
  updatedOutputAmount : Uint256
  updatedRecipient : Address
  updatedMessage : Blob
  repaymentChainId : Uint256

structure V3RelayExecutionEventInfo where
  updatedRecipient : Address
  updatedMessage : Blob
  updatedOutputAmount : Uint256
  fillType : FillType
deriving DecidableEq

structure RelayerRefundLeaf where
  amountToReturn : Uint256
  chainId : Uint256
  refundAmounts : List Uint256
  leafId : Uint32
  l2TokenAddress : Address
  refundAddresses : List Address

def V3RelayData.members (r : V3RelayData) : List Nat :=
  [r.depositor.toNat, r.recipient.toNat, r.exclusiveRelayer.toNat, r.inputToken.toNat,
   r.outputToken.toNat, r.inputAmount.toNat, r.outputAmount.toNat, r.originChainId.toNat,
   r.depositId.toNat, r.fillDeadline.toNat, r.exclusivityDeadline.toNat]

def V3RelayData.parts (r : V3RelayData) : List Part :=
  r.members.map Part.word ++ [.tail (encodeBytes r.message.val)]

def V3SlowFill.parts (f : V3SlowFill) : List Part :=
  [.tail (encode f.relayData.parts), .word f.chainId.toNat, .word f.updatedOutputAmount.toNat]

def RelayerRefundLeaf.parts (l : RelayerRefundLeaf) : List Part :=
  [.word l.amountToReturn.toNat, .word l.chainId.toNat,
   .tail (encodeArray (l.refundAmounts.map BitVec.toNat)), .word l.leafId.toNat,
   .word l.l2TokenAddress.toNat, .tail (encodeArray (l.refundAddresses.map BitVec.toNat))]

/-- `keccak256(abi.encode(relayData, chainId()))`. -/
def getV3RelayHash (chainId : Uint256) (r : V3RelayData) : Bytes32 :=
  keccak256 (encode [.tail (encode r.parts), .word chainId.toNat])

def verifyRelayerRefund (root : Bytes32) (leaf : RelayerRefundLeaf) (proof : List Bytes32) : Bool :=
  verify proof root (keccak256 (encode [.tail (encode leaf.parts)]))

def verifyV3SlowRelayFulfillment (root : Bytes32) (f : V3SlowFill) (proof : List Bytes32) : Bool :=
  verify proof root (keccak256 (encode [.tail (encode f.parts)]))

/-- Decode the struct that starts at byte `base`, as the compiler's decoder
does: every member is checked against its type and the message must lie
within the calldata. -/
def decodeRelayData (cd : Bytes) (base : Nat) : Option V3RelayData := do
  let depositor ← uintAt 160 cd base
  let recipient ← uintAt 160 cd (base + 32)
  let exclusiveRelayer ← uintAt 160 cd (base + 64)
  let inputToken ← uintAt 160 cd (base + 96)
  let outputToken ← uintAt 160 cd (base + 128)
  let inputAmount ← uintAt 256 cd (base + 160)
  let outputAmount ← uintAt 256 cd (base + 192)
  let originChainId ← uintAt 256 cd (base + 224)
  let depositId ← uintAt 256 cd (base + 256)
  let fillDeadline ← uintAt 32 cd (base + 288)
  let exclusivityDeadline ← uintAt 32 cd (base + 320)
  let messageOffset ← offsetAt cd (base + 352)
  let message ← bytesAt cd (base + messageOffset)
  some ⟨depositor, recipient, exclusiveRelayer, inputToken, outputToken, inputAmount, outputAmount,
    originChainId, depositId, fillDeadline, exclusivityDeadline, message⟩

/-- The arguments of `fillV3Relay(V3RelayData,uint256)`, without the selector. -/
def decodeFillV3Relay (cd : Bytes) : Option (V3RelayData × Uint256) := do
  let base ← offsetAt cd 0
  let repaymentChainId ← uintAt 256 cd 32
  let relay ← decodeRelayData cd base
  some (relay, repaymentChainId)

theorem decodeRelayData_some {cd : Bytes} {base : Nat} {r : V3RelayData} (h : decodeRelayData cd base = some r) :
    uintAt 160 cd base = some r.depositor ∧ uintAt 160 cd (base + 32) = some r.recipient ∧
    uintAt 160 cd (base + 64) = some r.exclusiveRelayer ∧ uintAt 160 cd (base + 96) = some r.inputToken ∧
    uintAt 160 cd (base + 128) = some r.outputToken ∧ uintAt 256 cd (base + 160) = some r.inputAmount ∧
    uintAt 256 cd (base + 192) = some r.outputAmount ∧ uintAt 256 cd (base + 224) = some r.originChainId ∧
    uintAt 256 cd (base + 256) = some r.depositId ∧ uintAt 32 cd (base + 288) = some r.fillDeadline ∧
    uintAt 32 cd (base + 320) = some r.exclusivityDeadline ∧
    ∃ off, offsetAt cd (base + 352) = some off ∧ bytesAt cd (base + off) = some r.message := by
  obtain ⟨depositor, h₁, h⟩ := Option.bind_eq_some_iff.mp h
  obtain ⟨recipient, h₂, h⟩ := Option.bind_eq_some_iff.mp h
  obtain ⟨exclusiveRelayer, h₃, h⟩ := Option.bind_eq_some_iff.mp h
  obtain ⟨inputToken, h₄, h⟩ := Option.bind_eq_some_iff.mp h
  obtain ⟨outputToken, h₅, h⟩ := Option.bind_eq_some_iff.mp h
  obtain ⟨inputAmount, h₆, h⟩ := Option.bind_eq_some_iff.mp h
  obtain ⟨outputAmount, h₇, h⟩ := Option.bind_eq_some_iff.mp h
  obtain ⟨originChainId, h₈, h⟩ := Option.bind_eq_some_iff.mp h
  obtain ⟨depositId, h₉, h⟩ := Option.bind_eq_some_iff.mp h
  obtain ⟨fillDeadline, h₁₀, h⟩ := Option.bind_eq_some_iff.mp h
  obtain ⟨exclusivityDeadline, h₁₁, h⟩ := Option.bind_eq_some_iff.mp h
  obtain ⟨off, h₁₂, h⟩ := Option.bind_eq_some_iff.mp h
  obtain ⟨message, h₁₃, h⟩ := Option.bind_eq_some_iff.mp h
  obtain rfl := Option.some.inj h
  exact ⟨h₁, h₂, h₃, h₄, h₅, h₆, h₇, h₈, h₉, h₁₀, h₁₁, off, h₁₂, h₁₃⟩

theorem decodeFillV3Relay_some {cd : Bytes} {r : V3RelayData} {c : Uint256}
    (h : decodeFillV3Relay cd = some (r, c)) :
    ∃ base, offsetAt cd 0 = some base ∧ uintAt 256 cd 32 = some c ∧ decodeRelayData cd base = some r := by
  obtain ⟨base, hb, h⟩ := Option.bind_eq_some_iff.mp h
  obtain ⟨c', hc, h⟩ := Option.bind_eq_some_iff.mp h
  obtain ⟨r', hr, h⟩ := Option.bind_eq_some_iff.mp h
  obtain ⟨rfl, rfl⟩ := Prod.mk.inj (Option.some.inj h)
  exact ⟨base, hb, hc, hr⟩

theorem V3RelayData.members_lt (r : V3RelayData) : ∀ n ∈ r.members, n < 2 ^ 256 := by
  intro n hn
  simp only [members, List.mem_cons, List.not_mem_nil, or_false] at hn
  rcases hn with rfl | rfl | rfl | rfl | rfl | rfl | rfl | rfl | rfl | rfl | rfl
  all_goals exact toNat_lt_word (by decide) _

/-- The encoded relay data is its eleven static members, the offset of the
message, and the message. -/
theorem V3RelayData.encode_parts (r : V3RelayData) :
    encode r.parts = words (r.members ++ [384]) ++ encodeBytes r.message.val := by
  have hl : 32 * r.parts.length = 384 := rfl
  rw [encode, hl, parts, headWords_words, tails_words]
  simp only [headWords, tails, List.append_nil]

theorem decodeRelayData_encode (r : V3RelayData) : decodeRelayData (encode r.parts) 0 = some r := by
  have hw : ∀ i n, (r.members ++ [384])[i]? = some n → wordAt (encode r.parts) (32 * i) = some n := by
    intro i n hi
    rw [r.encode_parts]
    refine wordAt_words (fun k hk => ?_) _ hi
    rcases List.mem_append.mp hk with hk | hk
    · exact r.members_lt k hk
    · rw [List.mem_singleton.mp hk]
      decide
  have hm : bytesAt (encode r.parts) 384 = some r.message := by
    have hl : (words (r.members ++ [384])).length = 384 := by
      rw [length_words]
      rfl
    have hb := bytesAt_encodeBytes (words (r.members ++ [384])) r.message []
    rw [List.append_nil, hl, ← r.encode_parts] at hb
    exact hb
  have h₁ : uintAt 160 (encode r.parts) 0 = some r.depositor := uintAt_of_wordAt (hw 0 _ rfl)
  have h₂ : uintAt 160 (encode r.parts) 32 = some r.recipient := uintAt_of_wordAt (hw 1 _ rfl)
  have h₃ : uintAt 160 (encode r.parts) 64 = some r.exclusiveRelayer := uintAt_of_wordAt (hw 2 _ rfl)
  have h₄ : uintAt 160 (encode r.parts) 96 = some r.inputToken := uintAt_of_wordAt (hw 3 _ rfl)
  have h₅ : uintAt 160 (encode r.parts) 128 = some r.outputToken := uintAt_of_wordAt (hw 4 _ rfl)
  have h₆ : uintAt 256 (encode r.parts) 160 = some r.inputAmount := uintAt_of_wordAt (hw 5 _ rfl)
  have h₇ : uintAt 256 (encode r.parts) 192 = some r.outputAmount := uintAt_of_wordAt (hw 6 _ rfl)
  have h₈ : uintAt 256 (encode r.parts) 224 = some r.originChainId := uintAt_of_wordAt (hw 7 _ rfl)
  have h₉ : uintAt 256 (encode r.parts) 256 = some r.depositId := uintAt_of_wordAt (hw 8 _ rfl)
  have h₁₀ : uintAt 32 (encode r.parts) 288 = some r.fillDeadline := uintAt_of_wordAt (hw 9 _ rfl)
  have h₁₁ : uintAt 32 (encode r.parts) 320 = some r.exclusivityDeadline := uintAt_of_wordAt (hw 10 _ rfl)
  have h₁₂ : offsetAt (encode r.parts) 352 = some 384 := offsetAt_of_wordAt (hw 11 384 rfl) (by decide)
  simp only [decodeRelayData, bind, Nat.zero_add, h₁, h₂, h₃, h₄, h₅, h₆, h₇, h₈, h₉, h₁₀, h₁₁, h₁₂, hm,
    Option.bind_some]

end Across.SpokeTypes
