import Across.SpokeBooks
import Across.SpokeFunds
import Across.OrderWitness

namespace Across.DepositIds

open WordBytes Abi Keccak CallExec CallExec.Exec SpokeTypes SpokeState SpokePool SpokeRules SpokeLedger SpokeBooks
  OrderWitness

variable {W : Type}

/-- What the id of an unsafe deposit is made of. -/
structure Origin where
  msgSender : Address
  depositor : Address
  depositNonce : Uint256
deriving DecidableEq

def Origin.packed (o : Origin) : Bytes :=
  toBE 20 o.msgSender.toNat ++ toBE 20 o.depositor.toNat ++ word o.depositNonce.toNat

def Origin.id (o : Origin) : Uint256 := getUnsafeDepositId o.msgSender o.depositor o.depositNonce

/-- The packed encoding has three fields of fixed width. -/
theorem Origin.packed_injective {o₁ o₂ : Origin} (h : o₁.packed = o₂.packed) : o₁ = o₂ := by
  obtain ⟨s₁, d₁, n₁⟩ := o₁
  obtain ⟨s₂, d₂, n₂⟩ := o₂
  have hlt : ∀ x : Address, x.toNat < 256 ^ 20 := fun x => x.isLt.trans_eq (by decide)
  simp only [packed, List.append_assoc] at h
  obtain ⟨hs, h⟩ := toBE_append_inj (hlt s₁) (hlt s₂) h
  obtain ⟨hd, hn⟩ := toBE_append_inj (hlt d₁) (hlt d₂) h
  obtain rfl : s₁ = s₂ := BitVec.eq_of_toNat_eq hs
  obtain rfl : d₁ = d₂ := BitVec.eq_of_toNat_eq hd
  obtain rfl : n₁ = n₂ := BitVec.eq_of_toNat_eq (word_injective n₁.isLt n₂.isLt hn)
  rfl

def originOf (r : Frame W) : Option Origin :=
  match r.call with
  | .unsafeDepositV3 d n => some ⟨r.msg.sender, d.depositor, n⟩
  | _ => none

def origins (frames : List (Frame W)) : List Origin := frames.filterMap originOf

def relayPreimage (chainId : Uint256) (r : V3RelayData) : Bytes :=
  encode [.tail (encode r.parts), .word chainId.toNat]

theorem relayPreimage_injective {c₁ c₂ : Uint256} {r₁ r₂ : V3RelayData}
    (h : relayPreimage c₁ r₁ = relayPreimage c₂ r₂) : r₁ = r₂ := by
  have htail : encode r₁.parts = encode r₂.parts := by
    simp only [relayPreimage, encode, headWords, tails, List.append_nil] at h
    obtain ⟨-, h⟩ := List.append_inj h (by simp)
    exact h
  have hread := decodeRelayData_encode r₁
  rw [htail, decodeRelayData_encode] at hread
  exact (Option.some.inj hread).symm

def safeDeposits (t : List TraceItem) : List V3FundsDeposited :=
  t.filterMap fun
    | .event call (.v3FundsDeposited e) => if isSafeDeposit call = true then some e else none
    | _ => none

theorem safeIds_eq_map (t : List TraceItem) : safeIds t = (safeDeposits t).map V3FundsDeposited.depositId := by
  rw [safeIds, safeDeposits, List.map_filterMap]
  congr 1
  funext x
  cases x with
  | event call e =>
      cases e with
      | v3FundsDeposited e =>
          by_cases hs : isSafeDeposit call = true
          · simp only [hs, if_true, Option.map_some]
          · simp [hs]
      | _ => rfl
  | _ => rfl

theorem safeIds_sorted {Made : Msg → Call → Prop} {L L' : Ledger} {t : List TraceItem} (h : Posted Made L t L') :
    (safeIds t).Pairwise (fun a b => a.toNat < b.toNat) ∧ ∀ id ∈ safeIds t, id.toNat < 2 ^ 32 := by
  obtain ⟨hids, hcount⟩ := h.safeIds_eq
  constructor
  · have hsorted : ((safeIds t).map BitVec.toNat).Pairwise (· < ·) := by
      rw [hids]
      exact List.pairwise_lt_range'
    exact List.pairwise_map.mp hsorted
  · intro id hid
    have hmem : id.toNat ∈ (safeIds t).map BitVec.toNat := List.mem_map_of_mem hid
    rw [hids, List.mem_range'_1] at hmem
    have hlt := L'.numberOfDeposits.isLt
    omega

theorem exists_origin {frames : List (Frame W)} {L L' : Ledger} {t : List TraceItem}
    (h : Posted (MadeIn frames) L t L') {d : DepositV3} {k : Uint256} {e : V3FundsDeposited}
    (he : .event (.unsafeDepositV3 d k) (.v3FundsDeposited e) ∈ t) :
    ∃ o ∈ origins frames, o.depositor = d.depositor ∧ o.depositNonce = k ∧ e.depositId = o.id := by
  obtain ⟨msg, ⟨r, hr, rfl, hcall⟩, hid⟩ := h.unsafeId he
  refine ⟨⟨r.msg.sender, d.depositor, k⟩, ?_, rfl, rfl, hid⟩
  refine List.mem_filterMap.mpr ⟨r, hr, ?_⟩
  rw [originOf, hcall]

/-- Along every run, whatever mix of entry points it uses: the ids of the safe
deposits increase and stay below `2 ^ 32`, none of them is the id of an unsafe
deposit, the id of an unsafe deposit determines its origin, and relays of
different safe deposits have different hashes. -/
theorem deposit_ids_distinct (V : Variant W) (H : Host W) (n : Nat) (inputs : List (Input W)) (s : World W)
    (hfree : ∀ o₁ ∈ origins (run V H n inputs s).frames, ∀ o₂ ∈ origins (run V H n inputs s).frames,
      NoCollision o₁.packed o₂.packed)
    (hhigh : ∀ o ∈ origins (run V H n inputs s).frames, 2 ^ 32 ≤ (keccak256 o.packed).toNat) :
    ∃ s' t, Ok (run V H n inputs) s () s' ∧ s'.trace = s.trace ++ t ∧
      (safeIds t).Pairwise (fun a b => a.toNat < b.toNat) ∧ (∀ id ∈ safeIds t, id.toNat < 2 ^ 32) ∧
      (∀ d k e, .event (.unsafeDepositV3 d k) (.v3FundsDeposited e) ∈ t → e.depositId ∉ safeIds t) ∧
      (∀ d k e, .event (.unsafeDepositV3 d k) (.v3FundsDeposited e) ∈ t →
        ∃ o ∈ origins (run V H n inputs s).frames, o.depositor = d.depositor ∧ o.depositNonce = k ∧
          e.depositId = o.id ∧ ∀ o' ∈ origins (run V H n inputs s).frames, o'.id = o.id → o' = o) ∧
      (safeDeposits t).Pairwise fun e₁ e₂ => ∀ c₁ c₂ r₁ r₂, r₁.depositId = e₁.depositId →
        r₂.depositId = e₂.depositId → NoCollision (relayPreimage c₁ r₁) (relayPreimage c₂ r₂) →
          getV3RelayHash c₁ r₁ ≠ getV3RelayHash c₂ r₂ := by
  obtain ⟨s', hrun⟩ := run_returns V H n inputs s
  obtain ⟨t, ht, hp, -⟩ := (run_booked hrun).history
  obtain ⟨hsorted, hlow⟩ := safeIds_sorted hp
  refine ⟨s', t, hrun, ht, hsorted, hlow, ?_, ?_, ?_⟩
  · intro d k e he hsafe
    obtain ⟨o, ho, -, -, hid⟩ := exists_origin hp he
    have hbound := hlow _ hsafe
    rw [hid] at hbound
    exact absurd (hhigh o ho) (Nat.not_le.mpr hbound)
  · intro d k e he
    obtain ⟨o, ho, hd, hk, hid⟩ := exists_origin hp he
    exact ⟨o, ho, hd, hk, hid, fun o' ho' h => Origin.packed_injective (hfree o' ho' o ho h)⟩
  · rw [safeIds_eq_map, List.pairwise_map] at hsorted
    refine hsorted.imp ?_
    intro e₁ e₂ hlt c₁ c₂ r₁ r₂ h₁ h₂ hnc hhash
    have hr : r₁ = r₂ := relayPreimage_injective (hnc hhash)
    rw [← h₁, ← h₂, hr] at hlt
    exact absurd hlt (Nat.lt_irrefl _)

open SpokeFunds

/-- A legacy deposit and an unsafe one, both by account 4. -/
def sampleInputs : List (Input (Erc20.Token Address × Nat)) :=
  [.transact 1000 ⟨4, 0⟩ (.deposit ⟨4, 4, 5, 20, 137, 0, 1000, ⟨[], nil_fits⟩⟩),
    .transact 1001 ⟨4, 0⟩ (.unsafeDepositV3 ⟨6, 6, 5, 5, 10, 9, 137, 0, 1001, 2000, 0, ⟨[], nil_fits⟩⟩ 7)]

def sampleWorld : World (Erc20.Token Address × Nat) :=
  ⟨sampleStorage, 1000, (⟨100, fun a => if a = 4 then 50 else 0⟩, 0), []⟩

theorem sampleInputs_origins :
    origins (run sampleVariant sampleHost 1 sampleInputs sampleWorld).frames = [⟨4, 6, 7⟩] := by
  decide +kernel

theorem sampleInputs_distinct : ∃ s' t, Ok (run sampleVariant sampleHost 1 sampleInputs) sampleWorld () s' ∧
    s'.trace = sampleWorld.trace ++ t ∧ (safeIds t).Pairwise (fun a b => a.toNat < b.toNat) ∧
    ∀ d k e, .event (.unsafeDepositV3 d k) (.v3FundsDeposited e) ∈ t → e.depositId ∉ safeIds t := by
  have hfree : ∀ o₁ ∈ origins (run sampleVariant sampleHost 1 sampleInputs sampleWorld).frames,
      ∀ o₂ ∈ origins (run sampleVariant sampleHost 1 sampleInputs sampleWorld).frames,
        NoCollision o₁.packed o₂.packed := by
    rw [sampleInputs_origins]
    intro o₁ h₁ o₂ h₂ _
    rw [List.mem_singleton.mp h₁, List.mem_singleton.mp h₂]
  have hhigh : ∀ o ∈ origins (run sampleVariant sampleHost 1 sampleInputs sampleWorld).frames,
      2 ^ 32 ≤ (keccak256 o.packed).toNat := by
    rw [sampleInputs_origins]
    decide +kernel
  obtain ⟨s', t, hrun, ht, hsorted, -, hunsafe, -⟩ :=
    deposit_ids_distinct sampleVariant sampleHost 1 sampleInputs sampleWorld hfree hhigh
  exact ⟨s', t, hrun, ht, hsorted, hunsafe⟩

end Across.DepositIds
