import Across.Splices
import Across.SvmTypes
import Across.CallExec

namespace Across.InstructionParams

open WordBytes CallExec CallExec.Exec SvmTypes Splices

inductive Error
  | accountAlreadyInUse
  | rentNotPaid
  | paramsWriteOverflow
deriving DecidableEq

/-- Each signer has one account for instruction parameters. `rest` holds the accounts
of others, among them all lamports. -/
structure Accounts (W : Type) where
  instructionParams : Pubkey → Option Bytes
  rest : W

structure Runtime (W : Type) where
  payRent : Pubkey → Nat → W → Option W
  returnRent : Pubkey → W → W

abbrev Instr (W α : Type) := Exec (Accounts W) Empty Error α

section Program

variable {W : Type} (R : Runtime W)

def setInstructionParams (signer : Pubkey) (data : Option Bytes) : Instr W Unit :=
  update fun b => { b with instructionParams := Function.update b.instructionParams signer data }

/-- A new account is filled with zeros. -/
def initializeInstructionParams (signer : Pubkey) (totalSize : U32) : Instr W Unit := do
  let b ← read
  require (b.instructionParams signer = none) .accountAlreadyInUse
  match R.payRent signer totalSize.toNat b.rest with
  | none => revert .rentNotPaid
  | some w => do
      update fun b => { b with rest := w }
      setInstructionParams signer (some (List.replicate totalSize.toNat 0))

/-- The end is counted in 64 bits, so it does not wrap. An account that does not exist
has no data, and stays so. -/
def writeInstructionParamsFragment (signer : Pubkey) (offset : U32) (fragment : Bytes) : Instr W Unit := do
  let b ← read
  let data := (b.instructionParams signer).getD []
  let start := offset.toNat
  require (start + fragment.length ≤ data.length) .paramsWriteOverflow
  setInstructionParams signer ((b.instructionParams signer).map fun data => splice data start fragment)

def closeInstructionParams (signer : Pubkey) : Instr W Unit := do
  update fun b => { b with rest := R.returnRent signer b.rest }
  setInstructionParams signer none

inductive Instruction
  | initializeInstructionParams (signer : Pubkey) (totalSize : U32)
  | writeInstructionParamsFragment (signer : Pubkey) (offset : U32) (fragment : Bytes)
  | closeInstructionParams (signer : Pubkey)

inductive Input (W : Type)
  | instruction (i : Instruction)
  | elsewhere (f : W → W)

def process : Instruction → Instr W Unit
  | .initializeInstructionParams signer totalSize => initializeInstructionParams R signer totalSize
  | .writeInstructionParamsFragment signer offset fragment => writeInstructionParamsFragment signer offset fragment
  | .closeInstructionParams signer => closeInstructionParams R signer

/-- A failed instruction leaves all accounts as they were. -/
def input : Input W → Instr W Unit
  | .instruction i => do
      let _ ← attempt (process R i)
      pure ()
  | .elsewhere f => update fun b => { b with rest := f b.rest }

def run (inputs : List (Input W)) : Instr W Unit := forEach (input R) inputs

def Instruction.signer : Instruction → Pubkey
  | .initializeInstructionParams signer _ => signer
  | .writeInstructionParamsFragment signer _ _ => signer
  | .closeInstructionParams signer => signer

/-- The inputs that the account of `k` depends on. -/
def signedBy (k : Pubkey) : Input W → Bool
  | .instruction i => decide (i.signer = k)
  | .elsewhere _ => false

def write (k : Pubkey) (w : U32 × Bytes) : Input W := .instruction (.writeInstructionParamsFragment k w.1 w.2)

end Program

section Steps

variable {W : Type} {R : Runtime W} {b b' : Accounts W} {u : Unit} {k : Pubkey}

theorem initializeInstructionParams_ok {n : U32} (h : Ok (initializeInstructionParams R k n) b u b') :
    b.instructionParams k = none ∧ b'.instructionParams k = some (List.replicate n.toNat 0) := by
  simp only [initializeInstructionParams, read_bind_ok, require_bind_ok] at h
  obtain ⟨hn, h⟩ := h
  split at h
  · exact ((revert_ok _ _ _ _).mp h).elim
  · simp only [setInstructionParams, update_bind_ok, update_ok] at h
    subst h
    exact ⟨hn, Function.update_self _ _ _⟩

/-- The accounts after a write that succeeds. -/
def written (b : Accounts W) (k : Pubkey) (offset : U32) (fragment : Bytes) : Accounts W :=
  { b with
    instructionParams := Function.update b.instructionParams k
      ((b.instructionParams k).map fun data => splice data offset.toNat fragment) }

theorem written_self (b : Accounts W) (k : Pubkey) (offset : U32) (fragment : Bytes) :
    (written b k offset fragment).instructionParams k =
      (b.instructionParams k).map fun data => splice data offset.toNat fragment := Function.update_self _ _ _

theorem writeInstructionParamsFragment_ok {offset : U32} {fragment : Bytes} :
    Ok (writeInstructionParamsFragment k offset fragment) b u b' ↔
      offset.toNat + fragment.length ≤ ((b.instructionParams k).getD []).length ∧ b' = written b k offset fragment := by
  simp only [writeInstructionParamsFragment, setInstructionParams, read_bind_ok, require_bind_ok, update_ok]
  rw [eq_comm (b := b')]
  rfl

theorem writeInstructionParamsFragment_overflow {offset : U32} {fragment : Bytes}
    (h : ((b.instructionParams k).getD []).length < offset.toNat + fragment.length) :
    (writeInstructionParamsFragment k offset fragment b).result = .error .paramsWriteOverflow := by
  simp only [writeInstructionParamsFragment]
  rw [result_read_bind, result_require_bind, if_neg (Nat.not_le.mpr h)]

theorem process_other {i : Instruction} (hi : i.signer ≠ k) (h : Ok (process R i) b u b') :
    b'.instructionParams k = b.instructionParams k := by
  cases i with
  | initializeInstructionParams signer n =>
      simp only [process, initializeInstructionParams, read_bind_ok, require_bind_ok] at h
      obtain ⟨-, h⟩ := h
      split at h
      · exact ((revert_ok _ _ _ _).mp h).elim
      · simp only [setInstructionParams, update_bind_ok, update_ok] at h
        subst h
        exact Function.update_of_ne hi.symm _ _
  | writeInstructionParamsFragment signer offset fragment =>
      obtain ⟨-, rfl⟩ := writeInstructionParamsFragment_ok.mp h
      exact Function.update_of_ne hi.symm _ _
  | closeInstructionParams signer =>
      simp only [process, closeInstructionParams, setInstructionParams, update_bind_ok, update_ok] at h
      subst h
      exact Function.update_of_ne hi.symm _ _

/-- An instruction that is sent either takes effect, or fails and leaves all as it was. -/
theorem input_instruction_ok {i : Instruction} (h : Ok (input R (.instruction i)) b u b') :
    Ok (process R i) b () b' ∨ Reverts (process R i) b ∧ b' = b := by
  simp only [input, bind_ok, attempt_ok, pure_ok] at h
  obtain ⟨_, _, ⟨_, -, hok⟩ | ⟨e, -, he, rfl⟩, -, rfl⟩ := h
  · exact .inl hok
  · exact .inr ⟨⟨e, he⟩, rfl⟩

theorem input_other {i : Input W} (hi : signedBy k i = false) (h : Ok (input R i) b u b') :
    b'.instructionParams k = b.instructionParams k := by
  cases i with
  | instruction i =>
      rcases input_instruction_ok h with hp | ⟨-, rfl⟩
      · exact process_other (of_decide_eq_false hi) hp
      · rfl
  | elsewhere f =>
      obtain rfl := (update_ok _ _ _ _).mp h
      rfl

theorem input_write {w : U32 × Bytes} {data : Bytes} (hb : b.instructionParams k = some data)
    (hfit : w.1.toNat + w.2.length ≤ data.length) (h : Ok (input R (write k w)) b u b') :
    b'.instructionParams k = some (splice data w.1.toNat w.2) := by
  have hdata : w.1.toNat + w.2.length ≤ ((b.instructionParams k).getD []).length := by rwa [hb]
  have hok : Ok (process R (.writeInstructionParamsFragment k w.1 w.2)) b () (written b k w.1 w.2) :=
    writeInstructionParamsFragment_ok.mpr ⟨hdata, rfl⟩
  rcases input_instruction_ok h with hp | ⟨hr, -⟩
  · obtain ⟨-, rfl⟩ := hp.unique hok
    rw [written_self, hb, Option.map_some]
  · exact absurd hok ((reverts_iff _ _).mp hr _ _)

theorem input_returns (R : Runtime W) (i : Input W) (b : Accounts W) : ∃ b', Ok (input R i) b () b' := by
  cases i with
  | instruction i =>
      obtain ⟨r, b', h⟩ := attempt_returns (process R i) b
      exact ⟨b', (bind_ok _ _ _ _ _).mpr ⟨r, b', h, (pure_ok _ _ _ _).mpr ⟨rfl, rfl⟩⟩⟩
  | elsewhere f => exact ⟨_, (update_ok _ _ _ _).mpr rfl⟩

/-- The account of `k` holds what its own writes made of it, whatever others did in between. -/
theorem run_writes {is : List (Input W)} {ws : List (U32 × Bytes)} {data : Bytes}
    (hi : is.filter (signedBy k) = ws.map (write k)) (hfit : ∀ w ∈ ws, w.1.toNat + w.2.length ≤ data.length)
    (hb : b.instructionParams k = some data) (h : Ok (run R is) b u b') :
    b'.instructionParams k = some (spliceAll data (ws.map fun w => (w.1.toNat, w.2))) := by
  induction is generalizing b ws data with
  | nil =>
      obtain rfl := List.map_eq_nil_iff.mp hi.symm
      obtain rfl := (forEach_nil_ok _ _ _ _).mp h
      exact hb
  | cons i is ih =>
      obtain ⟨b₁, h₁, htail⟩ := (forEach_cons_ok _ _ _ _ _ _).mp h
      cases hs : signedBy k i with
      | false =>
          rw [List.filter_cons_of_neg (by rw [hs]; exact Bool.false_ne_true)] at hi
          exact ih hi hfit ((input_other hs h₁).trans hb) htail
      | true =>
          rw [List.filter_cons_of_pos hs] at hi
          obtain ⟨w, ws, rfl, rfl, hrest⟩ := List.map_eq_cons_iff.mp hi.symm
          have hw := hfit w List.mem_cons_self
          have hkept : ∀ v ∈ ws, v.1.toNat + v.2.length ≤ (splice data w.1.toNat w.2).length := by
            intro v hv
            rw [length_splice hw]
            exact hfit v (List.mem_cons_of_mem _ hv)
          have hlast := ih hrest.symm hkept (input_write hb hw h₁) htail
          exact hlast

end Steps

section Theorems

variable {W : Type} {b b' : Accounts W} {u : Unit} {k : Pubkey}

/-- The arguments of the writes of consecutive pieces. -/
def fragments (pieces : List Bytes) : List (U32 × Bytes) :=
  (placed 0 pieces).map fun w => (BitVec.ofNat 32 w.1, w.2)

theorem fragments_placed {pieces : List Bytes} (h : pieces.flatten.length < 2 ^ 32) :
    ((fragments pieces).map fun w => (w.1.toNat, w.2)) = placed 0 pieces := by
  rw [fragments, List.map_map]
  refine (List.map_congr_left fun w hw => ?_).trans (List.map_id _)
  have hfits := (placed_partOf pieces [] hw).fits
  rw [List.nil_append] at hfits
  have hlt : w.1 < 2 ^ 32 := by omega
  refine Prod.ext ?_ rfl
  exact (BitVec.toNat_ofNat _ _).trans (Nat.mod_eq_of_lt hlt)

theorem written_outside {offset : U32} {fragment data : Bytes} (hb : b.instructionParams k = some data)
    (h : Ok (writeInstructionParamsFragment k offset fragment) b u b') :
    ∃ data', b'.instructionParams k = some data' ∧ data'.length = data.length ∧
      (∀ j, offset.toNat ≤ j → j < offset.toNat + fragment.length → data'[j]? = fragment[j - offset.toNat]?) ∧
      ∀ j, j < offset.toNat ∨ offset.toNat + fragment.length ≤ j → data'[j]? = data[j]? := by
  obtain ⟨hfit, rfl⟩ := writeInstructionParamsFragment_ok.mp h
  rw [hb] at hfit
  refine ⟨splice data offset.toNat fragment, ?_, length_splice hfit, fun j hle hlt => ?_, fun j hj => ?_⟩
  · rw [written_self, hb, Option.map_some]
  · exact getElem?_splice_inside hfit hle hlt
  · exact getElem?_splice_outside hfit hj

/-- A string that is written in pieces, in any order and between whatever others do,
is in the account at the end. A write past the end fails and changes nothing, and any
other write changes the bytes of its range alone. -/
theorem fragments_give_string (R : Runtime W) :
    (∀ (s : Bytes) (pieces : List Bytes) (k : Pubkey) (n : U32) (ws : List (U32 × Bytes)) (is : List (Input W))
      (b b₀ : Accounts W), pieces.flatten = s → n.toNat = s.length →
      ws.Perm (fragments pieces) → is.filter (signedBy k) = ws.map (write k) →
      Ok (initializeInstructionParams R k n) b () b₀ →
      ∃ b', Ok (run R is) b₀ () b' ∧ b'.instructionParams k = some s) ∧
    ∀ (b : Accounts W) (k : Pubkey) (offset : U32) (fragment : Bytes),
      (((b.instructionParams k).getD []).length < offset.toNat + fragment.length →
        (writeInstructionParamsFragment k offset fragment b).result = .error .paramsWriteOverflow ∧
        ∀ b', Ok (input R (write k (offset, fragment))) b () b' → b' = b) ∧
      (offset.toNat + fragment.length ≤ ((b.instructionParams k).getD []).length →
        ∃ b', Ok (writeInstructionParamsFragment k offset fragment) b () b') ∧
      ∀ b', Ok (writeInstructionParamsFragment k offset fragment) b () b' →
        b'.rest = b.rest ∧ (∀ k' ≠ k, b'.instructionParams k' = b.instructionParams k') ∧
        (b.instructionParams k = none → b'.instructionParams k = none) ∧
        ∀ data, b.instructionParams k = some data → ∃ data', b'.instructionParams k = some data' ∧
          data'.length = data.length ∧
          (∀ j, offset.toNat ≤ j → j < offset.toNat + fragment.length → data'[j]? = fragment[j - offset.toNat]?) ∧
          ∀ j, j < offset.toNat ∨ offset.toNat + fragment.length ≤ j → data'[j]? = data[j]? := by
  constructor
  · rintro s pieces k n ws is b b₀ rfl hn hw hi hinit
    obtain ⟨b', h⟩ := forEach_returns (input_returns R) is b₀
    refine ⟨b', h, ?_⟩
    have hplaced := hw.map fun w => (w.1.toNat, w.2)
    rw [fragments_placed (hn ▸ n.isLt)] at hplaced
    have hzeros := (initializeInstructionParams_ok hinit).2
    have hlen : (List.replicate n.toNat (0 : UInt8)).length = pieces.flatten.length := by rw [List.length_replicate, hn]
    have hfit : ∀ w ∈ ws, w.1.toNat + w.2.length ≤ (List.replicate n.toNat (0 : UInt8)).length := by
      intro w hmem
      rw [hlen]
      exact (placed_partOf pieces [] (hplaced.mem_iff.mp (List.mem_map_of_mem hmem))).fits
    rw [run_writes hi hfit hzeros h, spliceAll_placed hplaced hlen]
  · intro b k offset fragment
    refine ⟨fun hlt => ⟨writeInstructionParamsFragment_overflow hlt, fun b' h => ?_⟩, fun hfit => ?_, fun b' h => ?_⟩
    · rcases input_instruction_ok h with hp | ⟨-, rfl⟩
      · exact absurd (writeInstructionParamsFragment_ok.mp hp).1 (Nat.not_le.mpr hlt)
      · rfl
    · exact ⟨_, writeInstructionParamsFragment_ok.mpr ⟨hfit, rfl⟩⟩
    · obtain ⟨-, rfl⟩ := writeInstructionParamsFragment_ok.mp h
      refine ⟨rfl, fun k' hk' => Function.update_of_ne hk' _ _, fun hnone => ?_, fun data hb => written_outside hb h⟩
      rw [written_self, hnone, Option.map_none]

end Theorems

end Across.InstructionParams
