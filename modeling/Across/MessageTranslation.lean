import Across.SvmTypes
import Across.SpokePool

namespace Across.MessageTranslation

open WordBytes Abi Keccak CallExec Borsh Codec SvmTypes SpokePool

inductive CallDataError
  | invalidSelector
  | invalidArgument
  | invalidBool
  | invalidAddress
  | invalidUint32
  | invalidUint64
  | unsupportedSelector

/-- An error that the program returns, or the panic of a conversion. -/
inductive Failure
  | err (e : CallDataError)
  | panic

abbrev Result (α : Type) := Except Failure α

abbrev Array8 (n : Nat) := {bs : Bytes // bs.length = n}

section Decoding

def okOr {α : Type} (o : Option α) (e : CallDataError) : Result α :=
  match o with
  | some a => .ok a
  | none => .error (.err e)

/-- `data.get(i..j)`. -/
def getRange (data : Bytes) (i j : Nat) : Option Bytes :=
  if i ≤ j ∧ j ≤ data.length then some ((data.drop i).take (j - i)) else none

/-- `<[u8; n]>::try_from(slice).unwrap()`. -/
def tryFrom (n : Nat) (slice : Bytes) : Result (Array8 n) :=
  if h : slice.length = n then .ok ⟨slice, h⟩ else .error .panic

@[irreducible] def encodeSoliditySelector (signature : String) : Bytes :=
  (toBE 32 (keccak256 (utf8 signature)).toNat).take 4

def getSoliditySelector (data : Bytes) : Result (Array8 4) := do
  let slice ← okOr (getRange data 0 4) .invalidSelector
  tryFrom 4 slice

def getSolidityArg (data : Bytes) (index : Nat) : Result (Array8 32) := do
  let offset := 4 + 32 * index
  let slice ← okOr (getRange data offset (offset + 32)) .invalidArgument
  tryFrom 32 slice

/-- The two halves of a word, `u128::from_be_bytes` of each. -/
def halves (data : Array8 32) : Result (Nat × Nat) := do
  let h ← tryFrom 16 (data.val.take 16)
  let l ← tryFrom 16 (data.val.drop 16)
  pure (ofBE h.val, ofBE l.val)

def decodeSolidityBool (data : Array8 32) : Result Bool := do
  let (hValue, lValue) ← halves data
  match hValue with
  | 0 =>
      match lValue with
      | 0 => pure false
      | 1 => pure true
      | _ => .error (.err .invalidBool)
  | _ => .error (.err .invalidBool)

/-- The decoders of `uint32` and `uint64`, which differ in their width and error. -/
def decodeSolidityUint (w : Nat) (e : CallDataError) (data : Array8 32) : Result (BitVec w) := do
  let (hValue, lValue) ← halves data
  if 0 < hValue ∨ 2 ^ w - 1 < lValue then .error (.err e) else pure (BitVec.ofNat w lValue)

def decodeSolidityUint32 : Array8 32 → Result U32 := decodeSolidityUint 32 .invalidUint32

def decodeSolidityUint64 : Array8 32 → Result U64 := decodeSolidityUint 64 .invalidUint64

def newFromArray (data : Array8 32) : Pubkey := BitVec.ofNat 256 (ofBE data.val)

def decodeSolidityAddress (data : Array8 32) : Result Pubkey :=
  if (List.range 12).all fun i => data.val[i]? == some 0 then .ok (newFromArray data)
  else .error (.err .invalidAddress)

end Decoding

/-- `sha256` is the hash that Anchor derives the discriminators of instructions from. -/
def discriminator (sha256 : Bytes → Array8 32) (discriminatorStr : String) : Bytes :=
  (sha256 (utf8 discriminatorStr)).val.take 8

def encodeInstructionData {α : Type} [Codec α] (sha256 : Bytes → Array8 32) (a : α) (discriminatorStr : String) :
    Result Bytes := pure (discriminator sha256 discriminatorStr ++ tryToVec a)

def translateMessage (sha256 : Bytes → Array8 32) (data : Bytes) : Result Bytes := do
  let s ← getSoliditySelector data
  if s.val = encodeSoliditySelector "pauseDeposits(bool)" then do
    let pause ← decodeSolidityBool (← getSolidityArg data 0)
    encodeInstructionData sha256 pause "global:pause_deposits"
  else if s.val = encodeSoliditySelector "pauseFills(bool)" then do
    let pause ← decodeSolidityBool (← getSolidityArg data 0)
    encodeInstructionData sha256 pause "global:pause_fills"
  else if s.val = encodeSoliditySelector "setCrossDomainAdmin(address)" then do
    let newCrossDomainAdmin ← decodeSolidityAddress (← getSolidityArg data 0)
    encodeInstructionData sha256 newCrossDomainAdmin "global:set_cross_domain_admin"
  else if s.val = encodeSoliditySelector "setEnableRoute(bytes32,uint64,bool)" then do
    let originToken := newFromArray (← getSolidityArg data 0)
    let destinationChainId ← decodeSolidityUint64 (← getSolidityArg data 1)
    let enabled ← decodeSolidityBool (← getSolidityArg data 2)
    encodeInstructionData sha256 (originToken, destinationChainId, enabled) "global:set_enable_route"
  else if s.val = encodeSoliditySelector "relayRootBundle(bytes32,bytes32)" then do
    let relayerRefundRoot := newFromArray (← getSolidityArg data 0)
    let slowRelayRoot := newFromArray (← getSolidityArg data 1)
    encodeInstructionData sha256 (relayerRefundRoot, slowRelayRoot) "global:relay_root_bundle"
  else if s.val = encodeSoliditySelector "emergencyDeleteRootBundle(uint256)" then do
    let rootId ← decodeSolidityUint32 (← getSolidityArg data 0)
    encodeInstructionData sha256 rootId "global:emergency_delete_root_bundle"
  else .error (.err .unsupportedSelector)

section Messages

inductive Instruction
  | pauseDeposits
  | pauseFills
  | setCrossDomainAdmin
  | setEnableRoute
  | relayRootBundle
  | emergencyDeleteRootBundle

/-- The arguments of an instruction of the program. -/
abbrev Instruction.Args : Instruction → Type
  | pauseDeposits => Bool
  | pauseFills => Bool
  | setCrossDomainAdmin => Pubkey
  | setEnableRoute => Pubkey × U64 × Bool
  | relayRootBundle => Hash × Hash
  | emergencyDeleteRootBundle => U32

instance : (i : Instruction) → Codec i.Args
  | .pauseDeposits => inferInstanceAs (Codec Bool)
  | .pauseFills => inferInstanceAs (Codec Bool)
  | .setCrossDomainAdmin => inferInstanceAs (Codec Pubkey)
  | .setEnableRoute => inferInstanceAs (Codec (Pubkey × U64 × Bool))
  | .relayRootBundle => inferInstanceAs (Codec (Hash × Hash))
  | .emergencyDeleteRootBundle => inferInstanceAs (Codec U32)

def Instruction.name : Instruction → String
  | pauseDeposits => "global:pause_deposits"
  | pauseFills => "global:pause_fills"
  | setCrossDomainAdmin => "global:set_cross_domain_admin"
  | setEnableRoute => "global:set_enable_route"
  | relayRootBundle => "global:relay_root_bundle"
  | emergencyDeleteRootBundle => "global:emergency_delete_root_bundle"

def Instruction.signature : Instruction → String
  | pauseDeposits => "pauseDeposits(bool)"
  | pauseFills => "pauseFills(bool)"
  | setCrossDomainAdmin => "setCrossDomainAdmin(address)"
  | setEnableRoute => "setEnableRoute(bytes32,uint64,bool)"
  | relayRootBundle => "relayRootBundle(bytes32,bytes32)"
  | emergencyDeleteRootBundle => "emergencyDeleteRootBundle(uint256)"

/-- What `abi.encodeWithSignature` is given on the root chain. -/
inductive RootMessage
  | pauseDeposits (pause : Bool)
  | pauseFills (pause : Bool)
  | setCrossDomainAdmin (newCrossDomainAdmin : Address)
  | setEnableRoute (originToken : Hash) (destinationChainId : U64) (enabled : Bool)
  | relayRootBundle (relayerRefundRoot slowRelayRoot : Hash)
  | emergencyDeleteRootBundle (rootBundleId : U32)

namespace RootMessage

def instruction : RootMessage → Instruction
  | pauseDeposits _ => .pauseDeposits
  | pauseFills _ => .pauseFills
  | setCrossDomainAdmin _ => .setCrossDomainAdmin
  | setEnableRoute _ _ _ => .setEnableRoute
  | relayRootBundle _ _ => .relayRootBundle
  | emergencyDeleteRootBundle _ => .emergencyDeleteRootBundle

/-- The words of the arguments. -/
def arguments : RootMessage → List Nat
  | pauseDeposits b => [b.toNat]
  | pauseFills b => [b.toNat]
  | setCrossDomainAdmin a => [a.toNat]
  | setEnableRoute t c b => [t.toNat, c.toNat, b.toNat]
  | relayRootBundle r s => [r.toNat, s.toNat]
  | emergencyDeleteRootBundle i => [i.toNat]

def encodeWithSignature (m : RootMessage) : Bytes :=
  encodeSoliditySelector m.instruction.signature ++ words m.arguments

def args : (m : RootMessage) → m.instruction.Args
  | pauseDeposits b => b
  | pauseFills b => b
  | setCrossDomainAdmin a => a.setWidth 256
  | setEnableRoute t c b => (t, c, b)
  | relayRootBundle r s => (r, s)
  | emergencyDeleteRootBundle i => i

def instructionData (sha256 : Bytes → Array8 32) (m : RootMessage) : Bytes :=
  discriminator sha256 m.instruction.name ++ tryToVec m.args

def ofArgs : (i : Instruction) → i.Args → RootMessage
  | .pauseDeposits, b => pauseDeposits b
  | .pauseFills, b => pauseFills b
  | .setCrossDomainAdmin, k => setCrossDomainAdmin (k.setWidth 160)
  | .setEnableRoute, (t, c, b) => setEnableRoute t c b
  | .relayRootBundle, (r, s) => relayRootBundle r s
  | .emergencyDeleteRootBundle, i => emergencyDeleteRootBundle i

end RootMessage

/-- The message whose values the instruction finds in its data, when nothing is left over. -/
def Instruction.readBack (i : Instruction) (d : Bytes) : Option RootMessage :=
  match (deserialize (d.drop 8) : Option (i.Args × Bytes)) with
  | some (a, []) => some (.ofArgs i a)
  | _ => none

end Messages

section Steps

variable {α β : Type} {data : Bytes}

theorem array_eq {n : Nat} {v w : Array8 n} (h : ofBE v.val = ofBE w.val) : v = w := by
  have hv := toBE_ofBE v.val
  have hw := toBE_ofBE w.val
  rw [v.property, h] at hv
  rw [w.property] at hw
  exact Subtype.ext (hv.symm.trans hw)

theorem tryFrom_eq {n : Nat} {slice : Bytes} (h : slice.length = n) : tryFrom n slice = .ok ⟨slice, h⟩ := dif_pos h

theorem ofBE_array_lt (w : Array8 32) : ofBE w.val < 2 ^ 256 := by
  have hlt := ofBE_lt w.val
  rwa [w.property] at hlt

theorem getRange_ok {i n : Nat} {slice : Bytes} (h : getRange data i (i + n) = some slice) : slice.length = n := by
  rw [getRange] at h
  split at h
  · rename_i hlen
    rw [← Option.some.inj h, List.length_take, List.length_drop]
    omega
  · exact nomatch h

/-- The first four bytes of a string that has them. -/
theorem getSoliditySelector_ok {s : Array8 4} : getSoliditySelector data = .ok s ↔ ∃ rest, data = s.val ++ rest := by
  simp only [getSoliditySelector, getRange, Nat.zero_le, true_and, List.drop_zero, Nat.sub_zero]
  split
  · rename_i hlen
    change tryFrom 4 (data.take 4) = .ok s ↔ _
    rw [tryFrom_eq (List.length_take_of_le hlen)]
    constructor
    · intro h
      exact ⟨data.drop 4, by rw [← Except.ok.inj h, List.take_append_drop]⟩
    · rintro ⟨rest, rfl⟩
      exact congrArg _ (Subtype.ext (List.take_left' s.property))
  · rename_i hlen
    refine ⟨nofun, fun ⟨rest, h⟩ => absurd ?_ hlen⟩
    rw [h, List.length_append, s.property]
    exact Nat.le_add_right 4 _

/-- The argument is the word that stands at its place, however it is decoded. -/
theorem getSolidityArg_ok {index : Nat} {w : Array8 32} :
    getSolidityArg data index = .ok w ↔ wordAt data (4 + 32 * index) = some (ofBE w.val) := by
  have hsub : 4 + 32 * index + 32 - (4 + 32 * index) = 32 := by omega
  simp only [getSolidityArg, getRange, Nat.le_add_right, true_and, hsub, wordAt]
  split
  · rename_i hlen
    have hword : ((data.drop (4 + 32 * index)).take 32).length = 32 := by
      rw [List.length_take, List.length_drop]
      omega
    change tryFrom 32 _ = .ok w ↔ _
    rw [tryFrom_eq hword]
    constructor
    · intro h
      rw [← Except.ok.inj h]
    · intro h
      exact congrArg _ (array_eq (Option.some.inj h))
  · constructor
    · intro h
      cases h
    · intro h
      cases h

theorem halves_eq (w : Array8 32) : ∃ h l, halves w = .ok (h, l) ∧ l < 2 ^ 128 ∧ ofBE w.val = h * 2 ^ 128 + l := by
  have hfst : (w.val.take 16).length = 16 := by
    rw [List.length_take, w.property]
    rfl
  have hsnd : (w.val.drop 16).length = 16 := by
    rw [List.length_drop, w.property]
  refine ⟨ofBE (w.val.take 16), ofBE (w.val.drop 16), ?_, ?_, ?_⟩
  · rw [halves, tryFrom_eq hfst, tryFrom_eq hsnd]
    rfl
  · have hlt := ofBE_lt (w.val.drop 16)
    rwa [hsnd] at hlt
  · have happ := ofBE_append (w.val.take 16) (w.val.drop 16)
    rwa [List.take_append_drop, hsnd] at happ

theorem decodeSolidityBool_ok {w : Array8 32} {b : Bool} :
    decodeSolidityBool w = .ok b ↔ ofBE w.val = b.toNat := by
  obtain ⟨h, l, he, hl, hw⟩ := halves_eq w
  have hval : decodeSolidityBool w = .ok b ↔ h = 0 ∧ l = b.toNat := by
    rw [decodeSolidityBool, he]
    clear he hl hw
    match h, l, b with
    | 0, 0, false => exact ⟨fun _ => ⟨rfl, rfl⟩, fun _ => rfl⟩
    | 0, 0, true => exact ⟨nofun, nofun⟩
    | 0, 1, false => exact ⟨nofun, nofun⟩
    | 0, 1, true => exact ⟨fun _ => ⟨rfl, rfl⟩, fun _ => rfl⟩
    | 0, n + 2, false => exact ⟨nofun, nofun⟩
    | 0, n + 2, true => exact ⟨nofun, nofun⟩
    | n + 1, l, b => exact ⟨nofun, nofun⟩
  have hb := b.toNat_lt
  rw [hval, hw]
  omega

theorem decodeSolidityUint_ok {k : Nat} {e : CallDataError} (hk : k < 128) {w : Array8 32} {n : BitVec k} :
    decodeSolidityUint k e w = .ok n ↔ ofBE w.val = n.toNat := by
  obtain ⟨h, l, he, hl, hw⟩ := halves_eq w
  have hpow : 2 ^ k < 2 ^ 128 := Nat.pow_lt_pow_right (by decide) hk
  have hn := n.isLt
  rw [decodeSolidityUint, he, hw]
  change (if 0 < h ∨ 2 ^ k - 1 < l then .error (.err e) else .ok (BitVec.ofNat k l) : Result (BitVec k)) = _ ↔ _
  split
  · exact ⟨nofun, fun heq => by omega⟩
  · rename_i hin
    have hlk : l < 2 ^ k := by omega
    constructor
    · intro heq
      rw [← Except.ok.inj heq, BitVec.toNat_ofNat, Nat.mod_eq_of_lt hlk]
      omega
    · intro heq
      refine congrArg _ (BitVec.eq_of_toNat_eq ?_)
      rw [BitVec.toNat_ofNat, Nat.mod_eq_of_lt hlk]
      omega

theorem newFromArray_toNat (w : Array8 32) : (newFromArray w).toNat = ofBE w.val := by
  rw [newFromArray, BitVec.toNat_ofNat, Nat.mod_eq_of_lt (ofBE_array_lt w)]

theorem leading_zeros (w : Array8 32) :
    ((List.range 12).all fun i => w.val[i]? == some 0) = true ↔ w.val.take 12 = List.replicate 12 0 := by
  rw [List.ext_getElem?_iff, List.all_eq_true]
  simp only [List.mem_range, beq_iff_eq, List.getElem?_take, List.getElem?_replicate]
  constructor
  · intro h i
    split
    · exact h i ‹_›
    · rfl
  · intro h i hi
    simpa only [if_pos hi] using h i

/-- A word below `2 ^ 160` is one whose first twelve bytes are zero. -/
theorem leading_zeros_iff (w : Array8 32) :
    ((List.range 12).all fun i => w.val[i]? == some 0) = true ↔ ofBE w.val < 2 ^ 160 := by
  have hfst : (w.val.take 12).length = 12 := by
    rw [List.length_take, w.property]
    rfl
  have hsnd : (w.val.drop 12).length = 20 := by
    rw [List.length_drop, w.property]
  have hself := toBE_ofBE (w.val.take 12)
  have hlow := ofBE_lt (w.val.drop 12)
  have happ := ofBE_append (w.val.take 12) (w.val.drop 12)
  rw [List.take_append_drop] at happ
  rw [hfst] at hself
  rw [hsnd] at hlow happ
  rw [leading_zeros]
  constructor
  · intro h
    rw [h, show ofBE (List.replicate 12 0) = 0 from rfl] at happ
    omega
  · intro h
    have hzero : ofBE (w.val.take 12) = 0 := by omega
    rw [← hself, hzero]
    rfl

theorem decodeSolidityAddress_ok {w : Array8 32} {k : Pubkey} :
    decodeSolidityAddress w = .ok k ↔ ofBE w.val = k.toNat ∧ k.toNat < 2 ^ 160 := by
  rw [decodeSolidityAddress]
  split
  · rename_i hz
    rw [leading_zeros_iff] at hz
    constructor
    · intro h
      rw [← Except.ok.inj h, newFromArray_toNat]
      exact ⟨rfl, hz⟩
    · rintro ⟨hk, -⟩
      exact congrArg _ (BitVec.eq_of_toNat_eq ((newFromArray_toNat w).trans hk))
  · rename_i hz
    rw [leading_zeros_iff] at hz
    exact ⟨nofun, fun ⟨hk, hlt⟩ => absurd (hk ▸ hlt) hz⟩

/-- An argument of a type whose values `a` with `Q a` have the word `v a`. -/
theorem checked_arg_ok {dec : Array8 32 → Result α} {v : α → Nat} {Q : α → Prop}
    (hdec : ∀ w a, dec w = .ok a ↔ ofBE w.val = v a ∧ Q a) {f : α → Result β} {b : β} {index : Nat} :
    (getSolidityArg data index >>= fun w => dec w >>= f) = .ok b ↔
      ∃ a, wordAt data (4 + 32 * index) = some (v a) ∧ Q a ∧ f a = .ok b := by
  simp only [except_bind_ok, getSolidityArg_ok, hdec]
  constructor
  · rintro ⟨w, hw, a, ⟨ha, hq⟩, hf⟩
    exact ⟨a, ha ▸ hw, hq, hf⟩
  · rintro ⟨a, hw, hq, hf⟩
    have hslice := hw
    rw [wordAt] at hslice
    split at hslice
    · rename_i hlen
      have hword : ((data.drop (4 + 32 * index)).take 32).length = 32 := by
        rw [List.length_take, List.length_drop]
        omega
      have ha := Option.some.inj hslice
      exact ⟨⟨_, hword⟩, ha.symm ▸ hw, a, ⟨ha, hq⟩, hf⟩
    · cases hslice

theorem arg_ok {dec : Array8 32 → Result α} {v : α → Nat} (hdec : ∀ w a, dec w = .ok a ↔ ofBE w.val = v a)
    {f : α → Result β} {b : β} {index : Nat} :
    (getSolidityArg data index >>= fun w => dec w >>= f) = .ok b ↔
      ∃ a, wordAt data (4 + 32 * index) = some (v a) ∧ f a = .ok b := by
  rw [checked_arg_ok fun w a => (hdec w a).trans (and_iff_left trivial).symm]
  simp only [true_and]

theorem exists_array (k : Hash) : ∃ w, newFromArray w = k := by
  refine ⟨⟨toBE 32 k.toNat, length_toBE 32 _⟩, BitVec.eq_of_toNat_eq ?_⟩
  rw [newFromArray_toNat]
  exact ofBE_word k.isLt

/-- An array that is taken as it is. -/
theorem array_arg_ok {f : Array8 32 → Result β} {b : β} {index : Nat} :
    getSolidityArg data index >>= f = .ok b ↔
      ∃ w, wordAt data (4 + 32 * index) = some (newFromArray w).toNat ∧ f w = .ok b := by
  simp only [except_bind_ok, getSolidityArg_ok, newFromArray_toNat]

theorem encodeInstructionData_ok [Codec α] {sha256 : Bytes → Array8 32} {a : α} {str : String} {d : Bytes} :
    encodeInstructionData sha256 a str = .ok d ↔ d = discriminator sha256 str ++ tryToVec a :=
  ⟨fun h => (Except.ok.inj h).symm, fun h => congrArg _ h.symm⟩

/-- The words of a list stand at the places of the arguments from the `k`-th on. -/
def Reads (data : Bytes) : Nat → List Nat → Prop
  | _, [] => True
  | k, n :: ns => wordAt data (4 + 32 * k) = some n ∧ Reads data (k + 1) ns

theorem reads_iff_wordAt {k : Nat} {ns : List Nat} :
    Reads data k ns ↔ ∀ i n, ns[i]? = some n → wordAt data (4 + 32 * (k + i)) = some n := by
  induction ns generalizing k with
  | nil => exact ⟨fun _ _ _ => nofun, fun _ => trivial⟩
  | cons x ns ih =>
      rw [Reads, ih]
      constructor
      · rintro ⟨hx, hns⟩ i n hn
        cases i with
        | zero => exact hx.trans hn
        | succ i =>
            rw [show k + (i + 1) = k + 1 + i by omega]
            exact hns i n hn
      · intro h
        refine ⟨h 0 x rfl, fun i n hn => ?_⟩
        rw [show k + 1 + i = k + (i + 1) by omega]
        exact h (i + 1) n hn

theorem reads_iff {ns : List Nat} (hns : ∀ n ∈ ns, n < 2 ^ 256) {s rest : Bytes} (hs : s.length = 4) :
    Reads (s ++ rest) 0 ns ↔ ∃ tail, rest = words ns ++ tail := by
  have hword (k : Nat) : wordAt (s ++ rest) (4 + 32 * (0 + k)) = wordAt rest (32 * k) := by
    rw [Nat.zero_add, ← hs, wordAt_append_right]
  simp only [reads_iff_wordAt, hword]
  constructor
  · exact fun h => ⟨_, words_of_wordAt h⟩
  · rintro ⟨tail, rfl⟩ k n hk
    exact wordAt_words hns tail hk

end Steps

section Dispatch

variable {sha256 : Bytes → Array8 32} {data d : Bytes}

/-- The branch of each message. -/
def Instruction.translate (sha256 : Bytes → Array8 32) (data : Bytes) : Instruction → Result Bytes
  | pauseDeposits => do
      let pause ← decodeSolidityBool (← getSolidityArg data 0)
      encodeInstructionData sha256 pause "global:pause_deposits"
  | pauseFills => do
      let pause ← decodeSolidityBool (← getSolidityArg data 0)
      encodeInstructionData sha256 pause "global:pause_fills"
  | setCrossDomainAdmin => do
      let newCrossDomainAdmin ← decodeSolidityAddress (← getSolidityArg data 0)
      encodeInstructionData sha256 newCrossDomainAdmin "global:set_cross_domain_admin"
  | setEnableRoute => do
      let originToken := newFromArray (← getSolidityArg data 0)
      let destinationChainId ← decodeSolidityUint64 (← getSolidityArg data 1)
      let enabled ← decodeSolidityBool (← getSolidityArg data 2)
      encodeInstructionData sha256 (originToken, destinationChainId, enabled) "global:set_enable_route"
  | relayRootBundle => do
      let relayerRefundRoot := newFromArray (← getSolidityArg data 0)
      let slowRelayRoot := newFromArray (← getSolidityArg data 1)
      encodeInstructionData sha256 (relayerRefundRoot, slowRelayRoot) "global:relay_root_bundle"
  | emergencyDeleteRootBundle => do
      let rootId ← decodeSolidityUint32 (← getSolidityArg data 0)
      encodeInstructionData sha256 rootId "global:emergency_delete_root_bundle"

theorem translate_ok {i : Instruction} : i.translate sha256 data = .ok d ↔
    ∃ m : RootMessage, m.instruction = i ∧ Reads data 0 m.arguments ∧ d = m.instructionData sha256 := by
  constructor
  · intro h
    cases i with
    | pauseDeposits =>
        obtain ⟨b, hn, hd⟩ := (arg_ok fun _ _ => decodeSolidityBool_ok).mp h
        exact ⟨.pauseDeposits b, rfl, ⟨hn, trivial⟩, encodeInstructionData_ok.mp hd⟩
    | pauseFills =>
        obtain ⟨b, hn, hd⟩ := (arg_ok fun _ _ => decodeSolidityBool_ok).mp h
        exact ⟨.pauseFills b, rfl, ⟨hn, trivial⟩, encodeInstructionData_ok.mp hd⟩
    | setCrossDomainAdmin =>
        obtain ⟨k, hn, hk, hd⟩ := (checked_arg_ok fun _ _ => decodeSolidityAddress_ok).mp h
        have hword : (k.setWidth 160).toNat = k.toNat := by
          rw [BitVec.toNat_setWidth, Nat.mod_eq_of_lt hk]
        have hback : (k.setWidth 160).setWidth 256 = k := by
          apply BitVec.eq_of_toNat_eq
          rw [BitVec.toNat_setWidth, hword, Nat.mod_eq_of_lt k.isLt]
        refine ⟨.setCrossDomainAdmin (k.setWidth 160), rfl, ⟨hword ▸ hn, trivial⟩, ?_⟩
        rw [encodeInstructionData_ok.mp hd, RootMessage.instructionData, RootMessage.args, hback]
        rfl
    | setEnableRoute =>
        obtain ⟨t, ht, h⟩ := array_arg_ok.mp h
        obtain ⟨c, hn, h⟩ := (arg_ok fun _ _ => decodeSolidityUint_ok (by decide)).mp h
        obtain ⟨b, hb, hd⟩ := (arg_ok fun _ _ => decodeSolidityBool_ok).mp h
        exact ⟨.setEnableRoute (newFromArray t) c b, rfl, ⟨ht, hn, hb, trivial⟩, encodeInstructionData_ok.mp hd⟩
    | relayRootBundle =>
        obtain ⟨r, hr, h⟩ := array_arg_ok.mp h
        obtain ⟨s, hs, hd⟩ := array_arg_ok.mp h
        exact ⟨.relayRootBundle (newFromArray r) (newFromArray s), rfl, ⟨hr, hs, trivial⟩,
          encodeInstructionData_ok.mp hd⟩
    | emergencyDeleteRootBundle =>
        obtain ⟨k, hn, hd⟩ := (arg_ok fun _ _ => decodeSolidityUint_ok (by decide)).mp h
        exact ⟨.emergencyDeleteRootBundle k, rfl, ⟨hn, trivial⟩, encodeInstructionData_ok.mp hd⟩
  · rintro ⟨m, rfl, hr, rfl⟩
    cases m with
    | pauseDeposits b =>
        exact (arg_ok fun _ _ => decodeSolidityBool_ok).mpr ⟨b, hr.1, rfl⟩
    | pauseFills b =>
        exact (arg_ok fun _ _ => decodeSolidityBool_ok).mpr ⟨b, hr.1, rfl⟩
    | setCrossDomainAdmin a =>
        have ha : (a.setWidth 256).toNat = a.toNat := by
          rw [BitVec.toNat_setWidth, Nat.mod_eq_of_lt (lt_trans a.isLt (by decide))]
        exact (checked_arg_ok fun _ _ => decodeSolidityAddress_ok).mpr
          ⟨a.setWidth 256, ha.symm ▸ hr.1, ha.symm ▸ a.isLt, rfl⟩
    | setEnableRoute t c b =>
        obtain ⟨ht, hc, hb, -⟩ := hr
        obtain ⟨t, rfl⟩ := exists_array t
        refine array_arg_ok.mpr ⟨t, ht, (arg_ok fun _ _ => decodeSolidityUint_ok (by decide)).mpr ⟨c, hc, ?_⟩⟩
        exact (arg_ok fun _ _ => decodeSolidityBool_ok).mpr ⟨b, hb, rfl⟩
    | relayRootBundle r s =>
        obtain ⟨r, rfl⟩ := exists_array r
        obtain ⟨s, rfl⟩ := exists_array s
        exact array_arg_ok.mpr ⟨r, hr.1, array_arg_ok.mpr ⟨s, hr.2.1, rfl⟩⟩
    | emergencyDeleteRootBundle k =>
        exact (arg_ok fun _ _ => decodeSolidityUint_ok (by decide)).mpr ⟨k, hr.1, rfl⟩

/-- The selector of each message. -/
def Instruction.selector : Instruction → Bytes
  | pauseDeposits => [115, 139, 98, 229]
  | pauseFills => [153, 204, 41, 104]
  | setCrossDomainAdmin => [222, 126, 186, 120]
  | setEnableRoute => [240, 105, 1, 44]
  | relayRootBundle => [73, 58, 79, 132]
  | emergencyDeleteRootBundle => [138, 120, 96, 206]

theorem selector_eq (i : Instruction) : encodeSoliditySelector i.signature = i.selector := by
  cases i <;> decide +kernel

theorem length_selector (i : Instruction) : (encodeSoliditySelector i.signature).length = 4 := by
  rw [selector_eq]
  cases i <;> rfl

theorem translateMessage_eq : translateMessage sha256 data = getSoliditySelector data >>= fun s =>
    if s.val = encodeSoliditySelector (Instruction.signature .pauseDeposits) then
      Instruction.translate sha256 data .pauseDeposits
    else if s.val = encodeSoliditySelector (Instruction.signature .pauseFills) then
      Instruction.translate sha256 data .pauseFills
    else if s.val = encodeSoliditySelector (Instruction.signature .setCrossDomainAdmin) then
      Instruction.translate sha256 data .setCrossDomainAdmin
    else if s.val = encodeSoliditySelector (Instruction.signature .setEnableRoute) then
      Instruction.translate sha256 data .setEnableRoute
    else if s.val = encodeSoliditySelector (Instruction.signature .relayRootBundle) then
      Instruction.translate sha256 data .relayRootBundle
    else if s.val = encodeSoliditySelector (Instruction.signature .emergencyDeleteRootBundle) then
      Instruction.translate sha256 data .emergencyDeleteRootBundle
    else .error (.err .unsupportedSelector) := rfl

theorem translateMessage_selected (i : Instruction) (rest : Bytes) :
    translateMessage sha256 (encodeSoliditySelector i.signature ++ rest) =
      i.translate sha256 (encodeSoliditySelector i.signature ++ rest) := by
  have hs : getSoliditySelector (encodeSoliditySelector i.signature ++ rest) =
      .ok ⟨encodeSoliditySelector i.signature, length_selector i⟩ := getSoliditySelector_ok.mpr ⟨rest, rfl⟩
  rw [translateMessage_eq, hs]
  change (if encodeSoliditySelector i.signature = _ then _ else _) = _
  simp only [selector_eq]
  cases i <;> rfl

theorem translateMessage_ok : translateMessage sha256 data = .ok d ↔
    ∃ i rest, data = encodeSoliditySelector (Instruction.signature i) ++ rest ∧ i.translate sha256 data = .ok d := by
  constructor
  · intro h
    rw [translateMessage_eq, except_bind_ok] at h
    obtain ⟨s, hs, h⟩ := h
    obtain ⟨rest, hdata⟩ := getSoliditySelector_ok.mp hs
    split_ifs at h with h₁ h₂ h₃ h₄ h₅ h₆
    · exact ⟨.pauseDeposits, rest, h₁ ▸ hdata, h⟩
    · exact ⟨.pauseFills, rest, h₂ ▸ hdata, h⟩
    · exact ⟨.setCrossDomainAdmin, rest, h₃ ▸ hdata, h⟩
    · exact ⟨.setEnableRoute, rest, h₄ ▸ hdata, h⟩
    · exact ⟨.relayRootBundle, rest, h₅ ▸ hdata, h⟩
    · exact ⟨.emergencyDeleteRootBundle, rest, h₆ ▸ hdata, h⟩
  · rintro ⟨i, rest, rfl, h⟩
    rw [translateMessage_selected, h]

end Dispatch

section Panics

variable {α β : Type} {data : Bytes}

theorem bind_ne_panic {x : Result α} {f : α → Result β} (hx : x ≠ .error .panic) (hf : ∀ a, f a ≠ .error .panic) :
    x >>= f ≠ .error .panic := by
  cases x with
  | error e => exact fun h => hx (congrArg _ (Except.error.inj h))
  | ok a => exact hf a

theorem slice_ne_panic {i n : Nat} {e : CallDataError} :
    (okOr (getRange data i (i + n)) e >>= tryFrom n) ≠ .error .panic := by
  cases hs : getRange data i (i + n) with
  | none => exact nofun
  | some slice =>
      change tryFrom n slice ≠ _
      rw [tryFrom_eq (getRange_ok hs)]
      exact nofun

theorem decodeSolidityBool_ne_panic (w : Array8 32) : decodeSolidityBool w ≠ .error .panic := by
  obtain ⟨h, l, he, -, -⟩ := halves_eq w
  rw [decodeSolidityBool, he]
  match h, l with
  | 0, 0 => exact nofun
  | 0, 1 => exact nofun
  | 0, n + 2 => exact nofun
  | n + 1, l => exact nofun

theorem decodeSolidityUint_ne_panic {k : Nat} {e : CallDataError} (w : Array8 32) :
    decodeSolidityUint k e w ≠ .error .panic := by
  obtain ⟨h, l, he, -, -⟩ := halves_eq w
  rw [decodeSolidityUint, he]
  change (if 0 < h ∨ 2 ^ k - 1 < l then .error (.err e) else .ok (BitVec.ofNat k l) : Result (BitVec k)) ≠ _
  split <;> exact nofun

theorem decodeSolidityAddress_ne_panic (w : Array8 32) : decodeSolidityAddress w ≠ .error .panic := by
  rw [decodeSolidityAddress]
  split <;> exact nofun

theorem translate_ne_panic {sha256 : Bytes → Array8 32} (i : Instruction) :
    i.translate sha256 data ≠ .error .panic := by
  cases i with
  | pauseDeposits =>
      exact bind_ne_panic slice_ne_panic fun w => bind_ne_panic (decodeSolidityBool_ne_panic w) fun _ => nofun
  | pauseFills =>
      exact bind_ne_panic slice_ne_panic fun w => bind_ne_panic (decodeSolidityBool_ne_panic w) fun _ => nofun
  | setCrossDomainAdmin =>
      exact bind_ne_panic slice_ne_panic fun w => bind_ne_panic (decodeSolidityAddress_ne_panic w) fun _ => nofun
  | setEnableRoute =>
      refine bind_ne_panic slice_ne_panic fun t => bind_ne_panic slice_ne_panic fun c => ?_
      refine bind_ne_panic (decodeSolidityUint_ne_panic c) fun _ => bind_ne_panic slice_ne_panic fun w => ?_
      exact bind_ne_panic (decodeSolidityBool_ne_panic w) fun _ => nofun
  | relayRootBundle =>
      exact bind_ne_panic slice_ne_panic fun r => bind_ne_panic slice_ne_panic fun s => nofun
  | emergencyDeleteRootBundle =>
      exact bind_ne_panic slice_ne_panic fun w => bind_ne_panic (decodeSolidityUint_ne_panic w) fun _ => nofun

theorem translateMessage_ne_panic (sha256 : Bytes → Array8 32) : translateMessage sha256 data ≠ .error .panic := by
  rw [translateMessage_eq]
  refine bind_ne_panic slice_ne_panic fun s => ?_
  split_ifs
  all_goals first | exact translate_ne_panic _ | exact nofun

end Panics

section RoundTrip

variable (sha256 : Bytes → Array8 32)

theorem bool_lt_word (b : Bool) : b.toNat < 2 ^ 256 := lt_trans b.toNat_lt (by decide)

theorem arguments_lt (m : RootMessage) : ∀ n ∈ m.arguments, n < 2 ^ 256 := by
  cases m with
  | pauseDeposits b => exact List.forall_mem_singleton.mpr (bool_lt_word b)
  | pauseFills b => exact List.forall_mem_singleton.mpr (bool_lt_word b)
  | setCrossDomainAdmin a => exact List.forall_mem_singleton.mpr (toNat_lt_word (by decide) a)
  | setEnableRoute t c b =>
      refine List.forall_mem_cons.mpr ⟨t.isLt, List.forall_mem_cons.mpr ⟨toNat_lt_word (by decide) c, ?_⟩⟩
      exact List.forall_mem_singleton.mpr (bool_lt_word b)
  | relayRootBundle r s => exact List.forall_mem_cons.mpr ⟨r.isLt, List.forall_mem_singleton.mpr s.isLt⟩
  | emergencyDeleteRootBundle i => exact List.forall_mem_singleton.mpr (toNat_lt_word (by decide) i)

theorem ofArgs_args (m : RootMessage) : .ofArgs m.instruction m.args = m := by
  cases m with
  | setCrossDomainAdmin a =>
      refine congrArg RootMessage.setCrossDomainAdmin (BitVec.eq_of_toNat_eq ?_)
      change ((a.setWidth 256).setWidth 160).toNat = a.toNat
      rw [BitVec.toNat_setWidth, BitVec.toNat_setWidth, Nat.mod_eq_of_lt (toNat_lt_word (by decide) a),
        Nat.mod_eq_of_lt a.isLt]
  | _ => rfl

theorem readBack_instructionData (m : RootMessage) : m.instruction.readBack (m.instructionData sha256) = some m := by
  have hlen : (discriminator sha256 m.instruction.name).length = 8 := by
    rw [discriminator, List.length_take, (sha256 _).property]
    rfl
  have hargs := deserialize_tryToVec m.args []
  rw [List.append_nil] at hargs
  rw [Instruction.readBack, RootMessage.instructionData, List.drop_left' hlen, hargs]
  exact congrArg _ (ofArgs_args m)

/-- The program accepts what starts with an encoded message, and makes of it the
instruction that the message is for, with the message's values. -/
theorem translateMessage_iff (data : Bytes) :
    (∀ d, translateMessage sha256 data = .ok d ↔
      ∃ m : RootMessage, ∃ rest, data = m.encodeWithSignature ++ rest ∧ d = m.instructionData sha256) ∧
    (∀ m : RootMessage, m.instruction.readBack (m.instructionData sha256) = some m) ∧
    translateMessage sha256 data ≠ .error .panic := by
  refine ⟨fun d => ?_, readBack_instructionData sha256, translateMessage_ne_panic sha256⟩
  rw [translateMessage_ok]
  constructor
  · rintro ⟨i, rest, hdata, h⟩
    obtain ⟨m, rfl, hr, hd⟩ := translate_ok.mp h
    rw [hdata, reads_iff (arguments_lt m) (length_selector _)] at hr
    obtain ⟨tail, rfl⟩ := hr
    exact ⟨m, tail, by rw [hdata, RootMessage.encodeWithSignature, List.append_assoc], hd⟩
  · rintro ⟨m, rest, rfl, hd⟩
    rw [RootMessage.encodeWithSignature, List.append_assoc]
    refine ⟨m.instruction, _, rfl, translate_ok.mpr ⟨m, rfl, ?_, hd⟩⟩
    rw [reads_iff (arguments_lt m) (length_selector _)]
    exact ⟨rest, rfl⟩

end RoundTrip

end Across.MessageTranslation
