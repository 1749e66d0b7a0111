import Across.Abi
import Across.CallExec
import Across.WhileLoop

namespace Across.CctpAdapter

open Abi CallExec WhileLoop

inductive Error
  | callFailed
  | overflow

/-- The contracts that the adapter calls, over their state `X`. A call fails or
changes the state; `allowance` is what the adapter has granted. -/
structure Outside (X : Type) where
  allowance : Address → Address → X → Uint256
  approve : Address → Address → Uint256 → X → Option X
  localMinter : Address → X → Option Address
  burnLimitsPerMessage : Address → Address → X → Option Uint256
  depositForBurn : Address → Uint256 → Uint32 → Bytes32 → Address → X → Option X

structure CircleCCTPAdapter where
  recipientCircleDomainId : Uint32
  usdcToken : Address
  cctpTokenMessenger : Address

/-- The variables of the loop, with the amounts that have been deposited. -/
structure Loop (X : Type) where
  remainingAmount : Uint256
  outside : X
  deposits : List Nat

section Contract

variable {X : Type} (O : Outside X) (c : CircleCCTPAdapter)

def call {α : Type} (o : Option α) : Except Error α :=
  match o with
  | none => .error .callFailed
  | some a => .ok a

def addressToBytes32 (addr : Address) : Bytes32 := addr.setWidth 256

def safeIncreaseAllowance (token spender : Address) (value : Uint256) (x : X) : Except Error X :=
  let oldAllowance := O.allowance token spender x
  if oldAllowance.toNat + value.toNat < 2 ^ 256 then call (O.approve token spender (oldAllowance + value) x)
  else .error .overflow

def partAmountOf (burnLimit remainingAmount : Uint256) : Uint256 :=
  if burnLimit.toNat < remainingAmount.toNat then burnLimit else remainingAmount

/-- One round of the loop. -/
def depositPart (burnLimit : Uint256) (recipient : Bytes32) (s : Loop X) : Except Error (Loop X) := do
  let partAmount := partAmountOf burnLimit s.remainingAmount
  let x ← call (O.depositForBurn c.cctpTokenMessenger partAmount c.recipientCircleDomainId recipient c.usdcToken
    s.outside)
  if partAmount.toNat ≤ s.remainingAmount.toNat then
    pure ⟨s.remainingAmount - partAmount, x, s.deposits ++ [partAmount.toNat]⟩
  else .error .overflow

/-- What comes before the loop: the approval, and the limit that the minter reports. -/
def approveAndRead (amount : Uint256) (x : X) : Except Error (Uint256 × X) := do
  let x ← safeIncreaseAllowance O c.usdcToken c.cctpTokenMessenger amount x
  let cctpMinter ← call (O.localMinter c.cctpTokenMessenger x)
  let burnLimit ← call (O.burnLimitsPerMessage cctpMinter c.usdcToken x)
  pure (burnLimit, x)

/-- `none` where the loop needs more than `n` rounds. -/
def transferUsdc (recipient : Address) (amount : Uint256) (n : Nat) (x : X) : Option (Except Error (Loop X)) :=
  match approveAndRead O c amount x with
  | .error e => some (.error e)
  | .ok (burnLimit, x) =>
      whileLoop (fun s => decide (0 < s.remainingAmount.toNat))
        (depositPart O c burnLimit (addressToBytes32 recipient)) n
        ⟨amount, x, []⟩

end Contract

section Partition

variable {X : Type} {O : Outside X} {c : CircleCCTPAdapter} {x x' : X} {amount burnLimit : Uint256}
  {recipient : Bytes32} {s s' : Loop X}

/-- What the adapter relies on: an approval sets the allowance, a deposit pulls its
amount, and a deposit of nothing reverts. -/
structure Standard (O : Outside X) (c : CircleCCTPAdapter) : Prop where
  approve : ∀ {v x x'}, O.approve c.usdcToken c.cctpTokenMessenger v x = some x' →
    O.allowance c.usdcToken c.cctpTokenMessenger x' = v
  depositForBurn : ∀ {v r x x'},
    O.depositForBurn c.cctpTokenMessenger v c.recipientCircleDomainId r c.usdcToken x = some x' →
      (O.allowance c.usdcToken c.cctpTokenMessenger x).toNat =
        (O.allowance c.usdcToken c.cctpTokenMessenger x').toNat + v.toNat
  depositNothing : ∀ r x, O.depositForBurn c.cctpTokenMessenger 0 c.recipientCircleDomainId r c.usdcToken x = none

def granted (O : Outside X) (c : CircleCCTPAdapter) (x : X) : Nat :=
  (O.allowance c.usdcToken c.cctpTokenMessenger x).toNat

theorem call_ok {α : Type} {o : Option α} {a : α} : call o = .ok a ↔ o = some a := by
  cases o with
  | none => exact ⟨nofun, nofun⟩
  | some b => exact ⟨fun h => congrArg _ (Except.ok.inj h), fun h => congrArg _ (Option.some.inj h)⟩

theorem partAmountOf_toNat (burnLimit remainingAmount : Uint256) :
    (partAmountOf burnLimit remainingAmount).toNat = min remainingAmount.toNat burnLimit.toNat := by
  rw [partAmountOf]
  split <;> omega

/-- A round deposits as much of the rest as the limit allows. -/
theorem depositPart_ok (h : depositPart O c burnLimit recipient s = .ok s') :
    O.depositForBurn c.cctpTokenMessenger (partAmountOf burnLimit s.remainingAmount) c.recipientCircleDomainId
      recipient c.usdcToken s.outside = some s'.outside ∧
    s'.remainingAmount.toNat = s.remainingAmount.toNat - min s.remainingAmount.toNat burnLimit.toNat ∧
    s'.deposits = s.deposits ++ [min s.remainingAmount.toNat burnLimit.toNat] := by
  have hpart := partAmountOf_toNat burnLimit s.remainingAmount
  simp only [depositPart, except_bind_ok, call_ok] at h
  obtain ⟨x, hx, h⟩ := h
  split at h
  · rename_i hle
    obtain rfl := Except.ok.inj h
    rw [← hpart]
    exact ⟨hx, BitVec.toNat_sub_of_le (BitVec.le_def.mpr hle), rfl⟩
  · exact nomatch h

/-- What holds while the parts of an amount are deposited. -/
structure Deposited (O : Outside X) (c : CircleCCTPAdapter) (amount burnLimit g : Nat) (s : Loop X) : Prop where
  parts : s.deposits ++ chunks burnLimit s.remainingAmount.toNat = chunks burnLimit amount
  allowance : granted O c s.outside = g + s.remainingAmount.toNat

theorem Deposited.step {g a : Nat} (hstd : Standard O c) (hlimit : 0 < burnLimit.toNat)
    (hs : Deposited O c a burnLimit.toNat g s) (hpos : 0 < s.remainingAmount.toNat)
    (h : depositPart O c burnLimit recipient s = .ok s') : Deposited O c a burnLimit.toNat g s' ∧
      s'.remainingAmount.toNat < s.remainingAmount.toNat := by
  obtain ⟨hpull, hrest, hdeposits⟩ := depositPart_ok h
  have hgranted : granted O c s.outside = granted O c s'.outside + min s.remainingAmount.toNat burnLimit.toNat := by
    rw [← partAmountOf_toNat]
    exact hstd.depositForBurn hpull
  refine ⟨⟨?_, ?_⟩, by omega⟩
  · have hchunks := chunks_pos hlimit hpos
    rw [← hrest] at hchunks
    rw [hdeposits, List.append_assoc, List.singleton_append, ← hchunks]
    exact hs.parts
  · have hg := hs.allowance
    omega

theorem approveAndRead_ok (hstd : Standard O c) (h : approveAndRead O c amount x = .ok (burnLimit, x')) :
    granted O c x' = granted O c x + amount.toNat := by
  simp only [approveAndRead, safeIncreaseAllowance, except_bind_ok, call_ok] at h
  obtain ⟨x₁, happrove, _, -, _, -, h⟩ := h
  obtain ⟨-, rfl⟩ := Prod.mk.inj (Except.ok.inj h)
  split at happrove
  · rename_i hlt
    rw [granted, hstd.approve (call_ok.mp happrove), BitVec.toNat_add, Nat.mod_eq_of_lt hlt]
    rfl
  · exact nomatch happrove

variable (O c) in
/-- The loop of `_transferUsdc`. -/
def Ended (burnLimit : Uint256) (recipient : Bytes32) : Loop X → Except Error (Loop X) → Prop :=
  Ends (fun s => decide (0 < s.remainingAmount.toNat)) (depositPart O c burnLimit recipient)

theorem ended_ok {g : Nat} (hstd : Standard O c) (hlimit : 0 < burnLimit.toNat)
    (hx : granted O c x = g + amount.toNat) (h : Ended O c burnLimit recipient ⟨amount, x, []⟩ (.ok s)) :
    s.deposits = chunks burnLimit.toNat amount.toNat ∧ granted O c s.outside = g := by
  obtain ⟨n, hn⟩ := h
  have hstart : Deposited O c amount.toNat burnLimit.toNat g ⟨amount, x, []⟩ := ⟨rfl, hx⟩
  rcases whileLoop_invariant (fun t t' ht hc hb => (ht.step hstd hlimit (of_decide_eq_true hc) hb).1) hstart hn with
    ⟨t, he, ht, hc⟩ | ⟨_, _, he, -⟩
  · obtain rfl := Except.ok.inj he
    have hz : s.remainingAmount.toNat = 0 := Nat.eq_zero_of_not_pos (of_decide_eq_false hc)
    obtain ⟨hparts, hallowance⟩ := ht
    rw [hz, chunks_zero, List.append_nil] at hparts
    rw [hz, Nat.add_zero] at hallowance
    exact ⟨hparts, hallowance⟩
  · cases he

theorem ended {g : Nat} {r : Bytes32} (hstd : Standard O c) (hlimit : 0 < burnLimit.toNat)
    (hx : granted O c x = g + amount.toNat) : ∃ e, Ended O c burnLimit r ⟨amount, x, []⟩ e := by
  have hstart : Deposited O c amount.toNat burnLimit.toNat g ⟨amount, x, []⟩ := ⟨rfl, hx⟩
  exact ends_of_measure (fun t => t.remainingAmount.toNat)
    (fun t t' ht hc hb => ht.step hstd hlimit (of_decide_eq_true hc) hb) hstart

/-- A messenger that takes every part that the limit and the allowance permit. -/
def Takes (O : Outside X) (c : CircleCCTPAdapter) (burnLimit : Uint256) (recipient : Bytes32) : Prop :=
  ∀ v x, 0 < v.toNat → v.toNat ≤ burnLimit.toNat → v.toNat ≤ granted O c x →
    ∃ x', O.depositForBurn c.cctpTokenMessenger v c.recipientCircleDomainId recipient c.usdcToken x = some x'

theorem depositPart_taken {a g : Nat} (hlimit : 0 < burnLimit.toNat) (htakes : Takes O c burnLimit recipient)
    (hs : Deposited O c a burnLimit.toNat g s) (hpos : 0 < s.remainingAmount.toNat) :
    ∃ s', depositPart O c burnLimit recipient s = .ok s' := by
  have hpart := partAmountOf_toNat burnLimit s.remainingAmount
  have hallowance := hs.allowance
  obtain ⟨x', hx'⟩ := htakes (partAmountOf burnLimit s.remainingAmount) s.outside (by omega) (by omega) (by omega)
  simp only [depositPart, except_bind_ok, call_ok]
  exact ⟨_, x', hx', if_pos (by omega)⟩

theorem ended_taken {g : Nat} (hstd : Standard O c) (hlimit : 0 < burnLimit.toNat)
    (hx : granted O c x = g + amount.toNat) (htakes : Takes O c burnLimit recipient) :
    ∃ s, Ended O c burnLimit recipient ⟨amount, x, []⟩ (.ok s) := by
  obtain ⟨r, n, hn⟩ := ended (r := recipient) hstd hlimit hx
  have hstart : Deposited O c amount.toNat burnLimit.toNat g ⟨amount, x, []⟩ := ⟨rfl, hx⟩
  rcases whileLoop_invariant (fun t t' ht hc hb => (ht.step hstd hlimit (of_decide_eq_true hc) hb).1) hstart hn with
    ⟨t, rfl, -⟩ | ⟨t, e, -, ht, hc, hb⟩
  · exact ⟨t, n, hn⟩
  · obtain ⟨t', ht'⟩ := depositPart_taken hlimit htakes ht (of_decide_eq_true hc)
    exact nomatch hb.symm.trans ht'

/-- The loop ends for a positive limit, and what it deposits is the amount in parts
of the limit. For a limit of zero its first deposit reverts. -/
theorem transferUsdc_partitions (O : Outside X) (c : CircleCCTPAdapter) (hstd : Standard O c) (recipient : Address)
    (amount burnLimit : Uint256) (x x' : X) (hread : approveAndRead O c amount x = .ok (burnLimit, x')) :
    (0 < burnLimit.toNat →
      (∃ n r, transferUsdc O c recipient amount n x = some r) ∧
      (Takes O c burnLimit (addressToBytes32 recipient) → ∃ n s, transferUsdc O c recipient amount n x = some (.ok s)) ∧
      ∀ n s, transferUsdc O c recipient amount n x = some (.ok s) →
        (∀ v ∈ s.deposits, 0 < v ∧ v ≤ burnLimit.toNat) ∧ s.deposits.sum = amount.toNat ∧
        s.deposits.length = (amount.toNat + burnLimit.toNat - 1) / burnLimit.toNat ∧
        granted O c s.outside = granted O c x) ∧
    (burnLimit.toNat = 0 → 0 < amount.toNat → ∃ n e, transferUsdc O c recipient amount n x = some (.error e)) := by
  have hgranted := approveAndRead_ok hstd hread
  have hloop (n : Nat) : transferUsdc O c recipient amount n x =
      whileLoop (fun s => decide (0 < s.remainingAmount.toNat)) (depositPart O c burnLimit (addressToBytes32 recipient))
        n ⟨amount, x', []⟩ := by
    rw [transferUsdc, hread]
  simp only [hloop]
  refine ⟨fun hlimit => ⟨?_, ?_, ?_⟩, fun hzero hpos => ?_⟩
  · obtain ⟨r, n, hn⟩ := ended (r := addressToBytes32 recipient) hstd hlimit hgranted
    exact ⟨n, r, hn⟩
  · intro htakes
    obtain ⟨s, n, hn⟩ := ended_taken hstd hlimit hgranted htakes
    exact ⟨n, s, hn⟩
  · intro n s hn
    obtain ⟨hdeposits, hallowance⟩ := ended_ok hstd hlimit hgranted ⟨n, hn⟩
    rw [hdeposits]
    exact ⟨fun v hv => mem_chunks hlimit hv, sum_chunks, length_chunks hlimit, hallowance⟩
  · have hpart : partAmountOf burnLimit amount = 0 := by
      apply BitVec.eq_of_toNat_eq
      rw [partAmountOf_toNat, hzero]
      exact Nat.min_zero _
    have hfails : depositPart O c burnLimit (addressToBytes32 recipient) ⟨amount, x', []⟩ = .error .callFailed := by
      rw [depositPart, hpart, hstd.depositNothing]
      rfl
    have hends : Ended O c burnLimit (addressToBytes32 recipient) ⟨amount, x', []⟩ (.error .callFailed) :=
      Ends.fail (decide_eq_true hpos) hfails
    obtain ⟨n, hn⟩ := hends
    exact ⟨n, _, hn⟩

end Partition

section Samples

/-- The state is the allowance. A deposit is at most 40. -/
def sampleOutside : Outside Uint256 where
  allowance _ _ x := x
  approve _ _ v _ := some v
  localMinter _ _ := some 9
  burnLimitsPerMessage _ _ _ := some 40
  depositForBurn _ v _ _ _ x := if 0 < v.toNat ∧ v.toNat ≤ 40 ∧ v.toNat ≤ x.toNat then some (x - v) else none

def sampleAdapter : CircleCCTPAdapter := ⟨3, 7, 8⟩

theorem sampleOutside_standard : Standard sampleOutside sampleAdapter := by
  refine ⟨fun h => (Option.some.inj h).symm, fun {v r x x'} h => ?_, fun _ _ => rfl⟩
  simp only [sampleOutside, Option.ite_none_right_eq_some] at h
  obtain ⟨⟨-, -, hle⟩, h⟩ := h
  rw [← Option.some.inj h]
  change x.toNat = (x - v).toNat + v.toNat
  rw [BitVec.toNat_sub_of_le (BitVec.le_def.mpr hle)]
  omega

theorem sampleTransfer_partitions : ∃ s, transferUsdc sampleOutside sampleAdapter 5 100 4 1 = some (.ok s) ∧
    s.deposits = [40, 40, 20] ∧ s.deposits.sum = 100 ∧ s.deposits.length = (100 + 40 - 1) / 40 ∧
    granted sampleOutside sampleAdapter s.outside = 1 := by
  have hread : approveAndRead sampleOutside sampleAdapter 100 1 = .ok (40, 101) := rfl
  have hs : transferUsdc sampleOutside sampleAdapter 5 100 4 1 = some (.ok ⟨0, 1, [40, 40, 20]⟩) := by rfl
  obtain ⟨hpositive, -⟩ :=
    transferUsdc_partitions sampleOutside sampleAdapter sampleOutside_standard 5 100 40 1 101 hread
  obtain ⟨-, -, hparts⟩ := hpositive (by decide)
  obtain ⟨-, hsum, hlength, hgranted⟩ := hparts _ _ hs
  exact ⟨_, hs, rfl, hsum, hlength, hgranted⟩

end Samples

end Across.CctpAdapter
