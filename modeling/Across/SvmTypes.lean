import Across.MerkleProof
import Across.Borsh

namespace Across.SvmTypes

open WordBytes Keccak MerkleProof Borsh

abbrev Pubkey := BitVec 256

abbrev U64 := BitVec 64

abbrev U32 := BitVec 32

abbrev Hash := BitVec 256

/-- A byte vector, which Borsh writes and reads with a length of 32 bits. -/
abbrev Vector8 := {bs : Bytes // bs.length < 2 ^ 32}

theorem nil_fits : ([] : Bytes).length < 2 ^ 32 := Nat.two_pow_pos 32

inductive FillStatus
  | unfilled
  | requestedSlowFill
  | filled
deriving DecidableEq

inductive FillType
  | fastFill
  | replacedSlowFill
  | slowFill
deriving DecidableEq

structure V3RelayData where
  depositor : Pubkey
  recipient : Pubkey
  exclusiveRelayer : Pubkey
  inputToken : Pubkey
  outputToken : Pubkey
  inputAmount : U64
  outputAmount : U64
  originChainId : U64
  depositId : U32
  fillDeadline : U32
  exclusivityDeadline : U32
  message : Vector8
deriving DecidableEq

structure V3SlowFill where
  relayData : V3RelayData
  chainId : U64
  updatedOutputAmount : U64

structure RelayerRefundLeaf where
  amountToReturn : U64
  chainId : U64
  refundAmounts : List U64
  leafId : U32
  mintPublicKey : Pubkey
  refundAccounts : List Pubkey
deriving DecidableEq

def pubkeyBytes (k : Pubkey) : Bytes := toBE 32 k.toNat

def u64Bytes (n : U64) : Bytes := toLE 8 n.toNat

def u32Bytes (n : U32) : Bytes := toLE 4 n.toNat

/-- The Borsh encoding. -/
def V3RelayData.tryToVec (r : V3RelayData) : Bytes :=
  pubkeyBytes r.depositor ++ (pubkeyBytes r.recipient ++ (pubkeyBytes r.exclusiveRelayer ++
    (pubkeyBytes r.inputToken ++ (pubkeyBytes r.outputToken ++ (u64Bytes r.inputAmount ++
      (u64Bytes r.outputAmount ++ (u64Bytes r.originChainId ++ (u32Bytes r.depositId ++
        (u32Bytes r.fillDeadline ++ (u32Bytes r.exclusivityDeadline ++
          (toLE 4 r.message.val.length ++ r.message.val)))))))))))

def relayPreimage (r : V3RelayData) (chainId : U64) : Bytes := r.tryToVec ++ u64Bytes chainId

def getV3RelayHash (r : V3RelayData) (chainId : U64) : Hash := keccak256 (relayPreimage r chainId)

/-- The message goes in without its length. -/
def V3SlowFill.toBytes (f : V3SlowFill) : Bytes :=
  pubkeyBytes f.relayData.depositor ++ pubkeyBytes f.relayData.recipient ++
    pubkeyBytes f.relayData.exclusiveRelayer ++ pubkeyBytes f.relayData.inputToken ++
    pubkeyBytes f.relayData.outputToken ++ u64Bytes f.relayData.inputAmount ++ u64Bytes f.relayData.outputAmount ++
    u64Bytes f.relayData.originChainId ++ u32Bytes f.relayData.depositId ++ u32Bytes f.relayData.fillDeadline ++
    u32Bytes f.relayData.exclusivityDeadline ++ f.relayData.message.val ++ u64Bytes f.chainId ++
    u64Bytes f.updatedOutputAmount

def V3SlowFill.toKeccakHash (f : V3SlowFill) : Hash := keccak256 f.toBytes

/-- The two lists go in without their lengths. -/
def RelayerRefundLeaf.toBytes (l : RelayerRefundLeaf) : Bytes :=
  u64Bytes l.amountToReturn ++ u64Bytes l.chainId ++ l.refundAmounts.flatMap u64Bytes ++ u32Bytes l.leafId ++
    pubkeyBytes l.mintPublicKey ++ l.refundAccounts.flatMap pubkeyBytes

def RelayerRefundLeaf.toKeccakHash (l : RelayerRefundLeaf) : Hash := keccak256 l.toBytes

def verifyMerkleProof (root leaf : Hash) (proof : List Hash) : Bool := decide (processProof proof leaf = root)

section Encoding

variable {bs cs : Bytes}

theorem pubkeyBytes_append_inj {a b : Pubkey} (h : pubkeyBytes a ++ bs = pubkeyBytes b ++ cs) : a = b ∧ bs = cs :=
  tryToVec_append_inj (α := Pubkey) h

theorem u64Bytes_append_inj {a b : U64} (h : u64Bytes a ++ bs = u64Bytes b ++ cs) : a = b ∧ bs = cs :=
  tryToVec_append_inj (α := U64) h

theorem u32Bytes_append_inj {a b : U32} (h : u32Bytes a ++ bs = u32Bytes b ++ cs) : a = b ∧ bs = cs :=
  tryToVec_append_inj (α := U32) h

/-- The fields in the order of their encoding. -/
def V3RelayData.fields (r : V3RelayData) :
    Pubkey × Pubkey × Pubkey × Pubkey × Pubkey × U64 × U64 × U64 × U32 × U32 × U32 × Vector8 :=
  (r.depositor, r.recipient, r.exclusiveRelayer, r.inputToken, r.outputToken, r.inputAmount, r.outputAmount,
    r.originChainId, r.depositId, r.fillDeadline, r.exclusivityDeadline, r.message)

theorem V3RelayData.fields_inj {r₁ r₂ : V3RelayData} (h : r₁.fields = r₂.fields) : r₁ = r₂ := by
  cases r₁
  cases r₂
  simp only [fields, Prod.mk.injEq] at h
  simpa using h

theorem relayPreimage_eq (r : V3RelayData) (chainId : U64) : relayPreimage r chainId =
    Codec.tryToVec (r.fields, chainId) := rfl

theorem relayPreimage_inj {r₁ r₂ : V3RelayData} {c₁ c₂ : U64} (h : relayPreimage r₁ c₁ = relayPreimage r₂ c₂) :
    r₁ = r₂ ∧ c₁ = c₂ := by
  rw [relayPreimage_eq, relayPreimage_eq] at h
  obtain ⟨hfields, -⟩ := tryToVec_append_inj (congrArg (· ++ []) h)
  obtain ⟨hr, hc⟩ := Prod.mk.inj hfields
  exact ⟨V3RelayData.fields_inj hr, hc⟩

end Encoding

end Across.SvmTypes
