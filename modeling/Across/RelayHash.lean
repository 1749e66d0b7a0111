import Across.SvmFills

namespace Across.RelayHash

open CallExec CallExec.Exec WordBytes Keccak OrderWitness SvmTypes SvmState SvmProgram SvmSteps SvmFills

section Client

/-- The relay data of a client, whose numbers and message have any size. -/
structure RelayData where
  depositor : Pubkey
  recipient : Pubkey
  exclusiveRelayer : Pubkey
  inputToken : Pubkey
  outputToken : Pubkey
  inputAmount : Nat
  outputAmount : Nat
  originChainId : Nat
  depositId : Nat
  fillDeadline : Nat
  exclusivityDeadline : Nat
  message : Bytes

inductive BufferError
  | byteArrayLonger
  | outOfRange

/-- `toArrayLike(Buffer, "le", length)`, which throws when the number is longer. -/
def toArrayLike (n length : Nat) : Except BufferError Bytes :=
  if n < 256 ^ length then .ok (toLE length n) else .error .byteArrayLonger

def writeUInt32LE (n : Nat) : Except BufferError Bytes :=
  if n < 2 ^ 32 then .ok (toLE 4 n) else .error .outOfRange

def toBuffer (k : Pubkey) : Bytes := toBE 32 k.toNat

def contentToHash (relayData : RelayData) (chainId : Nat) : Except BufferError Bytes := do
  let messageBuffer ← writeUInt32LE relayData.message.length
  let inputAmount ← toArrayLike relayData.inputAmount 8
  let outputAmount ← toArrayLike relayData.outputAmount 8
  let originChainId ← toArrayLike relayData.originChainId 8
  let depositId ← toArrayLike relayData.depositId 4
  let fillDeadline ← toArrayLike relayData.fillDeadline 4
  let exclusivityDeadline ← toArrayLike relayData.exclusivityDeadline 4
  let chainId ← toArrayLike chainId 8
  pure (List.flatten [toBuffer relayData.depositor, toBuffer relayData.recipient, toBuffer relayData.exclusiveRelayer,
    toBuffer relayData.inputToken, toBuffer relayData.outputToken, inputAmount, outputAmount, originChainId,
    depositId, fillDeadline, exclusivityDeadline, messageBuffer, relayData.message, chainId])

def calculateRelayHashUint8Array (relayData : RelayData) (chainId : Nat) : Except BufferError Hash := do
  pure (keccak256 (← contentToHash relayData chainId))

/-- The relay data of the program as a client has it. -/
def client (r : V3RelayData) : RelayData where
  depositor := r.depositor
  recipient := r.recipient
  exclusiveRelayer := r.exclusiveRelayer
  inputToken := r.inputToken
  outputToken := r.outputToken
  inputAmount := r.inputAmount.toNat
  outputAmount := r.outputAmount.toNat
  originChainId := r.originChainId.toNat
  depositId := r.depositId.toNat
  fillDeadline := r.fillDeadline.toNat
  exclusivityDeadline := r.exclusivityDeadline.toNat
  message := r.message.val

end Client

def isRelayHashValid (relayHash : Hash) (relayData : V3RelayData) (state : State) : Bool :=
  decide (relayHash = getV3RelayHash relayData state.chainId)

section Preimages

theorem toArrayLike_toNat {k : Nat} (x : BitVec (8 * k)) : toArrayLike x.toNat k = .ok (toLE k x.toNat) := by
  have hlt := x.isLt
  rw [Nat.pow_mul] at hlt
  exact if_pos hlt

theorem contentToHash_client (r : V3RelayData) (c : U64) :
    contentToHash (client r) c.toNat = .ok (relayPreimage r c) := by
  have h64 (x : U64) : toArrayLike x.toNat 8 = .ok (u64Bytes x) := toArrayLike_toNat (k := 8) x
  have h32 (x : U32) : toArrayLike x.toNat 4 = .ok (u32Bytes x) := toArrayLike_toNat (k := 4) x
  have hlen : writeUInt32LE r.message.val.length = .ok (toLE 4 r.message.val.length) := if_pos r.message.property
  simp only [contentToHash, client, hlen, h64, h32]
  refine congrArg Except.ok ?_
  simp only [List.flatten_cons, List.flatten_nil, List.append_nil, relayPreimage, V3RelayData.tryToVec,
    List.append_assoc]
  rfl

theorem calculateRelayHashUint8Array_client (r : V3RelayData) (c : U64) :
    calculateRelayHashUint8Array (client r) c.toNat = .ok (getV3RelayHash r c) := by
  rw [calculateRelayHashUint8Array, contentToHash_client]
  rfl

end Preimages

section Accounts

variable {W : Type} {R : Runtime W} {b b' s : Bank W} {u : Unit} {c : U64} {h : Hash} {r : V3RelayData}

/-- The fill status that an instruction uses, and the relay that it uses it for. -/
def served : Instruction → Option (Hash × V3RelayData)
  | .fillV3Relay x => some (x.relayHash, x.relayData)
  | .closeFillPda x => some (x.relayHash, x.relayData)
  | .requestV3SlowFill x => some (x.relayHash, x.relayData)
  | .executeV3SlowRelayLeaf x => some (x.relayHash, x.slowFillLeaf.relayData)
  | _ => none

theorem served_hash {ix : Instruction} (hs : served ix = some (h, r)) (hk : Ok (process R ix) b u b') :
    h = getV3RelayHash r b.state.chainId := by
  cases ix with
  | fillV3Relay x =>
      obtain ⟨rfl, rfl⟩ := Prod.mk.inj (Option.some.inj hs)
      exact (fillV3Relay_ok hk).1
  | closeFillPda x =>
      obtain ⟨rfl, rfl⟩ := Prod.mk.inj (Option.some.inj hs)
      exact (closeFillPda_ok hk).1
  | requestV3SlowFill x =>
      obtain ⟨rfl, rfl⟩ := Prod.mk.inj (Option.some.inj hs)
      exact (requestV3SlowFill_ok hk).1
  | executeV3SlowRelayLeaf x =>
      obtain ⟨rfl, rfl⟩ := Prod.mk.inj (Option.some.inj hs)
      exact (executeV3SlowRelayLeaf_ok hk).1
  | _ => cases hs

theorem run_chainId {inputs : List (Input W)} (hr : Ok (run R inputs) b u b') :
    b'.state.chainId = b.state.chainId := by
  refine run_invariant (I := fun _ s => s.state.chainId = b.state.chainId) (fun hs hi => ?_) rfl hr
  rcases input_ok hi with ⟨ix, -, hp⟩ | ⟨w, rfl⟩
  · exact (process_kept hp).chainId.trans hs
  · exact hs

/-- In some run from `s` the account of `h` is used for the relay `r`. -/
def Serves (R : Runtime W) (s : Bank W) (h : Hash) (r : V3RelayData) : Prop :=
  ∃ inputs b t ix b', Ok (run R inputs) s () b ∧ served ix = some (h, r) ∧
    Ok (process R ix) { b with clock := t } () b'

theorem Serves.hash (hs : Serves R s h r) : h = getV3RelayHash r s.state.chainId := by
  obtain ⟨inputs, b, t, ix, b', hrun, hserved, hp⟩ := hs
  rw [← run_chainId hrun]
  exact served_hash (b := { b with clock := t }) hserved hp

/-- A client hashes the bytes that the program hashes, and these bytes are those of
no other relay. So its hash is valid for its relay alone, and one account of the
program does not serve two relays. -/
theorem relay_hash_identifies_relay (R : Runtime W) (r : V3RelayData) (c : U64) :
    contentToHash (client r) c.toNat = .ok (relayPreimage r c) ∧
    (∀ r' c', relayPreimage r c = relayPreimage r' c' → r = r' ∧ c = c') ∧
    (∀ hash st, calculateRelayHashUint8Array (client r) c.toNat = .ok hash → st.chainId = c →
      isRelayHashValid hash r st = true) ∧
    (∀ hash st r', calculateRelayHashUint8Array (client r) c.toNat = .ok hash →
      NoCollision (relayPreimage r c) (relayPreimage r' st.chainId) → isRelayHashValid hash r' st = true →
      r = r' ∧ c = st.chainId) ∧
    ∀ s h r', s.state.chainId = c → Serves R s h r → Serves R s h r' →
      NoCollision (relayPreimage r c) (relayPreimage r' c) → r = r' := by
  rw [calculateRelayHashUint8Array_client]
  refine ⟨contentToHash_client r c, fun r' c' => relayPreimage_inj, ?_, ?_, ?_⟩
  · rintro hash st hh rfl
    exact decide_eq_true (Except.ok.inj hh).symm
  · intro hash st r' hh hn hv
    have heq : hash = getV3RelayHash r' st.chainId := of_decide_eq_true hv
    exact relayPreimage_inj (hn ((Except.ok.inj hh).trans heq))
  · rintro s h r' rfl hr hr' hn
    exact (relayPreimage_inj (hn (hr.hash.symm.trans hr'.hash))).1

end Accounts

theorem sampleRelay_served : Serves sampleRuntime sampleBank sampleHash sampleRelay := by
  obtain ⟨w, hfill⟩ := sampleFill_fills
  exact ⟨[], sampleBank, 20, .fillV3Relay sampleFill, _, (forEach_nil_ok _ _ _ _).mpr rfl, rfl, hfill⟩

theorem sampleRelay_identified : contentToHash (client sampleRelay) 7 = .ok (relayPreimage sampleRelay 7) ∧
    isRelayHashValid sampleHash sampleRelay sampleBank.state = true ∧
    ∀ h r, h = sampleHash → Serves sampleRuntime sampleBank h r →
      NoCollision (relayPreimage sampleRelay 7) (relayPreimage r 7) → sampleRelay = r := by
  obtain ⟨hcontent, -, hvalid, -, hserves⟩ := relay_hash_identifies_relay sampleRuntime sampleRelay 7
  refine ⟨hcontent, hvalid _ _ (calculateRelayHashUint8Array_client sampleRelay 7) rfl, ?_⟩
  rintro h r rfl hs hn
  exact hserves sampleBank sampleHash r rfl sampleRelay_served hs hn

end Across.RelayHash
