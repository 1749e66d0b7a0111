import Across.OrderOriginData

namespace Across.OrderWitness

open WordBytes Abi Keccak CallExec CallExec.Exec SpokeTypes SpokeState SpokePool OrderDepositor OrderOriginData
  PausedFills

def NoCollision (a b : Bytes) : Prop := keccak256 a = keccak256 b → a = b

/-- The hash that the user signs as the witness of a Permit2 transfer. -/
def witness (order : GaslessCrossChainOrder) (d : AcrossOrderData) : Bytes32 := hashOrder order (hashOrderData d)

/-- No collision between the strings that are hashed for the two witnesses. -/
structure CollisionFree (o₁ o₂ : GaslessCrossChainOrder) (d₁ d₂ : AcrossOrderData) : Prop where
  order : NoCollision (orderPreimage o₁ (hashOrderData d₁)) (orderPreimage o₂ (hashOrderData d₂))
  orderData : NoCollision (orderDataPreimage d₁) (orderDataPreimage d₂)
  message : NoCollision d₁.message.val d₂.message.val

/-- The values that a user chooses and a deposit uses. -/
structure SameChoices (o₁ o₂ : GaslessCrossChainOrder) (d₁ d₂ : AcrossOrderData) : Prop where
  acrossOrderData : d₁ = d₂
  user : o₁.user = o₂.user
  nonce : o₁.nonce = o₂.nonce
  openDeadline : o₁.openDeadline = o₂.openDeadline
  fillDeadline : o₁.fillDeadline = o₂.fillDeadline
  orderDataType : o₁.orderDataType = o₂.orderDataType

section Preimages

variable {o₁ o₂ : GaslessCrossChainOrder} {d₁ d₂ : AcrossOrderData}

theorem orderPreimage_inj {h₁ h₂ : Bytes32} (h : orderPreimage o₁ h₁ = orderPreimage o₂ h₂) :
    o₁.user = o₂.user ∧ o₁.nonce = o₂.nonce ∧ o₁.openDeadline = o₂.openDeadline ∧
      o₁.fillDeadline = o₂.fillDeadline ∧ h₁ = h₂ := by
  have hb : ∀ (o : GaslessCrossChainOrder) (k : Bytes32), ∀ n ∈ [crossChainOrderTypeHash.toNat,
      o.originSettler.toNat, o.user.toNat, o.nonce.toNat, o.originChainId.toNat, o.openDeadline.toNat,
      o.fillDeadline.toNat, k.toNat], n < 2 ^ 256 := by
    intro o k n hn
    simp only [List.mem_cons, List.not_mem_nil, or_false] at hn
    rcases hn with rfl | rfl | rfl | rfl | rfl | rfl | rfl | rfl
    all_goals exact toNat_lt_word (by decide) _
  have hl := words_injective (hb o₁ h₁) (hb o₂ h₂) h
  simp only [List.cons.injEq, BitVec.toNat_inj, and_true, true_and] at hl
  obtain ⟨-, hu, hn, -, ho, hf, hd⟩ := hl
  exact ⟨hu, hn, ho, hf, hd⟩

/-- The hashed order data has neither the exclusive relayer nor the nonce of
the deposit in it. -/
theorem orderDataPreimage_inj (h : orderDataPreimage d₁ = orderDataPreimage d₂) :
    d₁.inputToken = d₂.inputToken ∧ d₁.inputAmount = d₂.inputAmount ∧ d₁.outputToken = d₂.outputToken ∧
      d₁.outputAmount = d₂.outputAmount ∧ d₁.destinationChainId = d₂.destinationChainId ∧
      d₁.recipient = d₂.recipient ∧ d₁.exclusivityPeriod = d₂.exclusivityPeriod ∧
      keccak256 d₁.message.val = keccak256 d₂.message.val := by
  have hb : ∀ d : AcrossOrderData, ∀ n ∈ [acrossOrderDataTypeHash.toNat, d.inputToken.toNat, d.inputAmount.toNat,
      d.outputToken.toNat, d.outputAmount.toNat, d.destinationChainId.toNat, d.recipient.toNat,
      d.exclusivityPeriod.toNat, (keccak256 d.message.val).toNat], n < 2 ^ 256 := by
    intro d n hn
    simp only [List.mem_cons, List.not_mem_nil, or_false] at hn
    rcases hn with rfl | rfl | rfl | rfl | rfl | rfl | rfl | rfl | rfl
    all_goals exact toNat_lt_word (by decide) _
  have hl := words_injective (hb d₁) (hb d₂) h
  simpa only [List.cons.injEq, BitVec.toNat_inj, and_true, true_and] using hl

end Preimages

variable {W : Type}

/-- Two accepted orders with the same witness agree in everything the user
chose exactly when they agree in the two values that the witness leaves out. -/
theorem same_witness_same_choices_iff (V : Variant W) (S : Settler W) {o₁ o₂ : GaslessCrossChainOrder}
    {b₁ b₂ : Bytes} {d₁ d₂ : AcrossOrderData} {f₁ f₂ : AcrossOriginFillerData} {r₁ r₂ : ResolvedCrossChainOrder}
    {s₁ s₂ t₁ t₂ : World W} (h₁ : Ok (resolveFor V S o₁ b₁) s₁ (r₁, d₁, f₁) t₁)
    (h₂ : Ok (resolveFor V S o₂ b₂) s₂ (r₂, d₂, f₂) t₂) (hc : CollisionFree o₁ o₂ d₁ d₂)
    (hw : witness o₁ d₁ = witness o₂ d₂) :
    SameChoices o₁ o₂ d₁ d₂ ↔ d₁.exclusiveRelayer = d₂.exclusiveRelayer ∧ d₁.depositNonce = d₂.depositNonce := by
  constructor
  · intro h
    rw [h.acrossOrderData]
    exact ⟨rfl, rfl⟩
  · rintro ⟨hx, hn⟩
    obtain ⟨hu, hno, hod, hfd, hd⟩ := orderPreimage_inj (hc.order hw)
    obtain ⟨e₁, e₂, e₃, e₄, e₅, e₆, e₇, e₈⟩ := orderDataPreimage_inj (hc.orderData hd)
    have hm : d₁.message = d₂.message := Subtype.ext (hc.message e₈)
    have hdata : d₁ = d₂ := by
      cases d₁
      cases d₂
      simp only [AcrossOrderData.mk.injEq]
      exact ⟨e₁, e₂, e₃, e₄, e₅, e₆, hx, hn, e₇, hm⟩
    obtain ⟨-, -, -, ht₁, -⟩ := resolveFor_ok h₁
    obtain ⟨-, -, -, ht₂, -⟩ := resolveFor_ok h₂
    exact ⟨hdata, hu, hno, hod, hfd, ht₁.trans ht₂.symm⟩

section Sample

/-- Order data that differ in the nonce of the deposit alone. -/
def noncedOrderData (depositNonce : Uint256) : AcrossOrderData :=
  { sampleOrderData 0 with depositNonce := depositNonce }

def noncedOrder (depositNonce : Uint256) : GaslessCrossChainOrder :=
  ⟨11, 6, 1, 1, 5000, 6000, acrossOrderDataTypeHash, (noncedOrderData depositNonce).encoded⟩

theorem noncedOrder_accepted (depositNonce : Uint256) :
    ∃ r, Ok (resolveFor samplePool sampleSettler (noncedOrder depositNonce) (word 3)) depositWorld
      (r, noncedOrderData depositNonce, ⟨3⟩) depositWorld := by
  have hf : decode (noncedOrder depositNonce).orderData (word 3) = some (noncedOrderData depositNonce, ⟨3⟩) := by
    have hw : uintAt 160 (word 3) 0 = some (3 : Address) := by
      have h := wordAt_word (n := 3) (by decide) []
      rw [List.append_nil] at h
      exact uintAt_of_wordAt h
    simp only [decode, decodeFillerData, noncedOrder, decodeOrderData_encoded, hw, bind, Option.bind_some]
  refine ⟨resolved samplePool sampleSettler 6 3 1 5000 6000 (noncedOrderData depositNonce) depositWorld, ?_⟩
  refine (bind_ok _ _ _ _ _).mpr ⟨(), depositWorld, (require_ok _ _ _ _ _).mpr ⟨rfl, rfl⟩, ?_⟩
  refine (bind_ok _ _ _ _ _).mpr ⟨(), depositWorld, (require_ok _ _ _ _ _).mpr ⟨rfl, rfl⟩, ?_⟩
  refine (bind_ok _ _ _ _ _).mpr ⟨(), depositWorld, (require_ok _ _ _ _ _).mpr ⟨rfl, rfl⟩, ?_⟩
  simp only [hf]
  rfl

theorem noncedOrder_preimages (m n : Uint256) :
    orderDataPreimage (noncedOrderData m) = orderDataPreimage (noncedOrderData n) ∧
      orderPreimage (noncedOrder m) (hashOrderData (noncedOrderData m)) =
        orderPreimage (noncedOrder n) (hashOrderData (noncedOrderData n)) := by
  have hd : orderDataPreimage (noncedOrderData m) = orderDataPreimage (noncedOrderData n) := by
    simp only [orderDataPreimage, noncedOrderData]
  refine ⟨hd, ?_⟩
  simp only [orderPreimage, hashOrderData, hd, noncedOrder]

theorem noncedOrder_collisionFree (m n : Uint256) :
    CollisionFree (noncedOrder m) (noncedOrder n) (noncedOrderData m) (noncedOrderData n) :=
  ⟨fun _ => (noncedOrder_preimages m n).2, fun _ => (noncedOrder_preimages m n).1, fun _ => rfl⟩

theorem noncedOrder_witness (m n : Uint256) :
    witness (noncedOrder m) (noncedOrderData m) = witness (noncedOrder n) (noncedOrderData n) := by
  rw [witness, witness, hashOrder, hashOrder, (noncedOrder_preimages m n).2]

theorem noncedOrder_choices_iff :
    witness (noncedOrder 1) (noncedOrderData 1) = witness (noncedOrder 2) (noncedOrderData 2) ∧
      (SameChoices (noncedOrder 1) (noncedOrder 2) (noncedOrderData 1) (noncedOrderData 2) ↔
        (noncedOrderData 1).exclusiveRelayer = (noncedOrderData 2).exclusiveRelayer ∧
          (noncedOrderData 1).depositNonce = (noncedOrderData 2).depositNonce) := by
  obtain ⟨r₁, h₁⟩ := noncedOrder_accepted 1
  obtain ⟨r₂, h₂⟩ := noncedOrder_accepted 2
  have hw := noncedOrder_witness 1 2
  exact ⟨hw, same_witness_same_choices_iff samplePool sampleSettler h₁ h₂ (noncedOrder_collisionFree 1 2) hw⟩

/-- A filler can submit either of two orders under the one signature that the
user gave for one of them. -/
theorem noncedOrder_witness_collides :
    (∃ r₁ r₂, Ok (resolveFor samplePool sampleSettler (noncedOrder 1) (word 3)) depositWorld
        (r₁, noncedOrderData 1, ⟨3⟩) depositWorld ∧
      Ok (resolveFor samplePool sampleSettler (noncedOrder 2) (word 3)) depositWorld
        (r₂, noncedOrderData 2, ⟨3⟩) depositWorld) ∧
    CollisionFree (noncedOrder 1) (noncedOrder 2) (noncedOrderData 1) (noncedOrderData 2) ∧
    witness (noncedOrder 1) (noncedOrderData 1) = witness (noncedOrder 2) (noncedOrderData 2) ∧
    ¬ SameChoices (noncedOrder 1) (noncedOrder 2) (noncedOrderData 1) (noncedOrderData 2) := by
  obtain ⟨r₁, h₁⟩ := noncedOrder_accepted 1
  obtain ⟨r₂, h₂⟩ := noncedOrder_accepted 2
  refine ⟨⟨r₁, r₂, h₁, h₂⟩, noncedOrder_collisionFree 1 2, noncedOrder_witness 1 2, fun h => ?_⟩
  exact absurd (congrArg AcrossOrderData.depositNonce h.acrossOrderData) (by decide)

end Sample

end Across.OrderWitness
