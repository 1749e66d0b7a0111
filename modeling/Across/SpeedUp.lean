import Across.Exclusivity
import Across.OrderWitness

namespace Across.SpeedUp

open WordBytes Abi Keccak CallExec CallExec.Exec SpokeTypes SpokeState SpokePool SpokeRules PausedFills OrderWitness
  FillAgreement Exclusivity

variable {W X : Type} {V : Variant W} {H : Host W} {s s' : World W} {u : Unit}

section Initialization

/-- `__EIP712_init` of the pool. -/
def eip712Init (name version : String) : Code W Unit :=
  setPool fun p => { p with hashedName := keccak256 (utf8 name), hashedVersion := keccak256 (utf8 version) }

/-- `__SpokePool_init`, run by the call that initializes the proxy. -/
def spokePoolInit (call : Call) (initialDepositId : Uint32) (crossDomainAdmin withdrawalRecipient : Address) :
    Code W Unit := do
  setPool fun p => { p with numberOfDeposits := initialDepositId }
  eip712Init "ACROSS-V2" "1.0.0"
  setPool fun p => { p with entered := false }
  setCrossDomainAdmin call crossDomainAdmin
  setWithdrawalRecipient call withdrawalRecipient

/-- The name and version that every pool signs with. -/
structure SignsAsAcross (p : Storage) : Prop where
  name : p.hashedName = keccak256 (utf8 "ACROSS-V2")
  version : p.hashedVersion = keccak256 (utf8 "1.0.0")

theorem SignsAsAcross.same {p q : Storage} (h : SignsAsAcross p) (hg : SameGuards p q) : SignsAsAcross q :=
  ⟨hg.hashedName.trans h.name, hg.hashedVersion.trans h.version⟩

theorem spokePoolInit_signs {call : Call} {i : Uint32} {a r : Address} (h : Ok (spokePoolInit call i a r) s u s') :
    SignsAsAcross s'.pool := by
  simp only [spokePoolInit, eip712Init, setPool, setCrossDomainAdmin, setWithdrawalRecipient, emit, bind_ok, update_ok,
    require_ok] at h
  obtain ⟨_, _, rfl, _, _, rfl, _, _, rfl, _, _, ⟨_, _, ⟨-, rfl⟩, _, _, rfl, rfl⟩, _, _, ⟨-, rfl⟩, _, _, rfl, rfl⟩ := h
  exact ⟨rfl, rfl⟩

/-- The promise that every call of the pool starts with that name and version. -/
def signing : Guarantee (World W) (Frame W) where
  rel _ _ := True
  frame r := SignsAsAcross r.pre.pool
  refl _ := trivial
  trans _ _ := trivial
  base s := SignsAsAcross s.pool

theorem signing_base {s s' : World W} (hg : SameGuards s.pool s'.pool) (h : (signing (W := W)).base s) :
    (signing (W := W)).base s' := SignsAsAcross.same h hg

theorem signing_rules (V : Variant W) (H : Host W) : Rules V H signing where
  base := signing_base
  rest _ _ := trivial
  external _ _ := trivial
  guard _ _ := trivial
  set _ _ := trivial
  request _ _ := trivial
  fill _ _ _ _ _ _ _ _ _ _ _ _ _ := trivial
  books _ _ _ _ _ _ _ _ := trivial
  owner _ _ hb := ⟨hb.name, hb.version⟩
  process hs _ := processMessageFromRoot_keeps (G := signing) (fun _ _ hb => ⟨hb.name, hb.version⟩) (fun _ _ hb => hb)
    (fun _ _ => trivial) (fun _ _ _ _ => trivial) (hs _) _ _ _ _

/-- The states that calls of an initialized pool start from, in any run. -/
def Reached (V : Variant W) (H : Host W) (s : World W) : Prop :=
  ∃ w call i a r w₁ n inputs, Ok (spokePoolInit call i a r) w () w₁ ∧
    ∃ f ∈ (run V H n inputs w₁).frames, f.pre = s

theorem Reached.signs (h : Reached V H s) : SignsAsAcross s.pool := by
  obtain ⟨w, call, i, a, r, w₁, n, inputs, hinit, f, hf, rfl⟩ := h
  have hG := signing_rules V H
  have hk : Keeps signing (run V H n inputs) := run_keeps (H := H) hG.base hG.rest (fun _ _ => trivial)
    (exec_keeps hG (fun _ _ _ _ hb _ => hb) n) inputs
  exact hk.frames (fun _ _ => trivial) (spokePoolInit_signs hinit) f hf

end Initialization

section Digest

variable {st₁ st₂ : Storage} {d₁ d₂ c₁ c₂ : Uint256} {u₁ u₂ : UpdatedDeposit}

/-- The hash that a depositor signs to update a deposit. -/
def updateDigest (st : Storage) (depositId originChainId : Uint256) (u : UpdatedDeposit) : Bytes32 :=
  hashTypedDataV4 st (updateV3DepositStructHash depositId originChainId u) originChainId

theorem updateDigest_signed {p q : Storage} (hp : SignsAsAcross p) (hq : SignsAsAcross q) (d c : Uint256)
    (u : UpdatedDeposit) : updateDigest p d c u = updateDigest q d c u := by
  simp only [updateDigest, hashTypedDataV4, domainSeparatorV4, hp.name, hp.version, hq.name, hq.version]

def typedPreimage (st : Storage) (d c : Uint256) (u : UpdatedDeposit) : Bytes :=
  [0x19, 0x01] ++ word (domainSeparatorV4 st c).toNat ++ word (updateV3DepositStructHash d c u).toNat

def structPreimage (d c : Uint256) (u : UpdatedDeposit) : Bytes :=
  words [updateV3DepositDetailsHash.toNat, d.toNat, c.toNat, u.updatedOutputAmount.toNat, u.updatedRecipient.toNat,
    (keccak256 u.updatedMessage.val).toNat]

/-- No collision between the strings that are hashed for two updates. -/
structure CollisionFree (st₁ st₂ : Storage) (d₁ d₂ c₁ c₂ : Uint256) (u₁ u₂ : UpdatedDeposit) : Prop where
  typedData : NoCollision (typedPreimage st₁ d₁ c₁ u₁) (typedPreimage st₂ d₂ c₂ u₂)
  struct : NoCollision (structPreimage d₁ c₁ u₁) (structPreimage d₂ c₂ u₂)
  message : NoCollision u₁.updatedMessage.val u₂.updatedMessage.val

/-- The terms that a depositor signs. -/
structure SameTerms (d₁ d₂ c₁ c₂ : Uint256) (u₁ u₂ : UpdatedDeposit) : Prop where
  depositId : d₁ = d₂
  originChainId : c₁ = c₂
  updatedOutputAmount : u₁.updatedOutputAmount = u₂.updatedOutputAmount
  updatedRecipient : u₁.updatedRecipient = u₂.updatedRecipient
  updatedMessage : u₁.updatedMessage = u₂.updatedMessage

theorem typedPreimage_inj (h : typedPreimage st₁ d₁ c₁ u₁ = typedPreimage st₂ d₂ c₂ u₂) :
    updateV3DepositStructHash d₁ c₁ u₁ = updateV3DepositStructHash d₂ c₂ u₂ := by
  have hw := (List.append_inj' h (by rw [length_word, length_word])).2
  exact BitVec.eq_of_toNat_eq (word_injective (toNat_lt_word le_rfl _) (toNat_lt_word le_rfl _) hw)

theorem structPreimage_inj (h : structPreimage d₁ c₁ u₁ = structPreimage d₂ c₂ u₂) :
    d₁ = d₂ ∧ c₁ = c₂ ∧ u₁.updatedOutputAmount = u₂.updatedOutputAmount ∧
      u₁.updatedRecipient = u₂.updatedRecipient ∧
      keccak256 u₁.updatedMessage.val = keccak256 u₂.updatedMessage.val := by
  have hb : ∀ (d c : Uint256) (u : UpdatedDeposit), ∀ n ∈ [updateV3DepositDetailsHash.toNat, d.toNat, c.toNat,
      u.updatedOutputAmount.toNat, u.updatedRecipient.toNat, (keccak256 u.updatedMessage.val).toNat], n < 2 ^ 256 := by
    intro d c u n hn
    simp only [List.mem_cons, List.not_mem_nil, or_false] at hn
    rcases hn with rfl | rfl | rfl | rfl | rfl | rfl
    all_goals exact toNat_lt_word (by decide) _
  have hl := words_injective (hb d₁ c₁ u₁) (hb d₂ c₂ u₂) h
  simp only [List.cons.injEq, BitVec.toNat_inj, and_true, true_and] at hl
  exact hl

/-- The hashes are peeled off from the outside: the typed data, the struct, the message. -/
theorem updateDigest_inj (hc : CollisionFree st₁ st₂ d₁ d₂ c₁ c₂ u₁ u₂)
    (h : updateDigest st₁ d₁ c₁ u₁ = updateDigest st₂ d₂ c₂ u₂) : SameTerms d₁ d₂ c₁ c₂ u₁ u₂ := by
  have hstruct := typedPreimage_inj (hc.typedData h)
  obtain ⟨hd, hchain, hamount, hrecipient, hmessage⟩ := structPreimage_inj (hc.struct hstruct)
  exact ⟨hd, hchain, hamount, hrecipient, Subtype.ext (hc.message hmessage)⟩

end Digest

section Signature

variable {recover : Bytes32 → Bytes → Option Address} {a : Address} {d : Uint256} {x : UpdatedDeposit} {msg : Msg}
  {n : Nat}

/-- The signature of an account without code is checked by recovering its signer. -/
def Recovers (recover : Bytes32 → Bytes → Option Address) (H : Host W) : Prop :=
  ∀ (s : World W) (a : Address) (digest : Bytes32) (signature : Bytes), H.isContract s.rest a = false →
    H.isValidSignatureNow s a digest signature = decide (recover digest signature = some a)

/-- The signature of an update is one by the account `a` for this deposit. -/
def SignedBy (recover : Bytes32 → Bytes → Option Address) (st : Storage) (a : Address)
    (depositId originChainId : Uint256) (x : UpdatedDeposit) : Prop :=
  recover (updateDigest st depositId originChainId x) x.depositorSignature.val = some a

instance {st : Storage} {c : Uint256} : Decidable (SignedBy recover st a d c x) := inferInstanceAs (Decidable (_ = _))

theorem verify_ok {c : Uint256} (hr : Recovers recover H) (ha : H.isContract s.rest a = false) :
    Ok (verifyUpdateV3DepositMessage H a d c x) s u s' ↔ SignedBy recover s.pool a d c x ∧ s = s' := by
  rw [verifyUpdateV3DepositMessage, read_bind_ok, require_ok, hr s a _ _ ha, decide_eq_true_iff]
  rfl

theorem verify_result {c : Uint256} {f : Unit → Code W Unit} (hr : Recovers recover H)
    (ha : H.isContract s.rest a = false) : ((verifyUpdateV3DepositMessage H a d c x >>= f) s).result =
      if SignedBy recover s.pool a d c x then (f () s).result else .error .invalidDepositorSignature := by
  by_cases h : SignedBy recover s.pool a d c x
  · rw [if_pos h]
    exact result_bind_ok ((verify_ok hr ha).mpr ⟨h, rfl⟩)
  · rw [if_neg h]
    refine result_bind_error ?_
    rw [verifyUpdateV3DepositMessage, result_read_bind, hr s a _ _ ha, require, if_neg]
    · rfl
    · exact fun hd => h (of_decide_eq_true hd)

theorem nonReentrant_returns {m : Code W Unit} {t : World W} (hg : s.pool.entered = false)
    (h : Ok m { s with pool := { s.pool with entered := true } } () t) : ∃ s', Ok (nonReentrant m) s () s' := by
  simp only [nonReentrant, setPool, read_bind_ok, require_bind_ok, update_bind_ok]
  exact ⟨_, hg, (bind_ok _ _ _ _ _).mpr ⟨(), t, h, (update_ok _ _ _ _).mpr rfl⟩⟩

theorem speedUpV3Deposit_accepts (hr : Recovers recover H) (ha : H.isContract s.rest a = false) (hv : msg.value = 0)
    (hg : s.pool.entered = false) : (∃ s', Ok (exec V H (n + 1) msg (.speedUpV3Deposit a d x)) s () s') ↔
      SignedBy recover s.pool a d V.chainId x := by
  have hcheck (t : World W) : Ok (verifyUpdateV3DepositMessage H a d V.chainId x)
      { s with pool := { s.pool with entered := true } } () t ↔ SignedBy recover s.pool a d V.chainId x ∧
        { s with pool := { s.pool with entered := true } } = t := verify_ok hr ha
  constructor
  · rintro ⟨s', h⟩
    obtain ⟨t, hbody, -⟩ := nonReentrant_ok (exec_dispatch h)
    obtain ⟨_, _, hsig, -⟩ := (bind_ok _ _ _ _ _).mp hbody
    exact ((hcheck _).mp hsig).1
  · intro h
    obtain ⟨s', hs'⟩ := nonReentrant_returns (m := do
        verifyUpdateV3DepositMessage H a d V.chainId x
        emit (.speedUpV3Deposit a d x) (.requestedSpeedUpV3Deposit x.updatedOutputAmount d a x.updatedRecipient
          x.updatedMessage x.depositorSignature)) hg
      ((bind_ok _ _ _ _ _).mpr ⟨(), _, (hcheck _).mpr ⟨h, rfl⟩, (update_ok _ _ _ _).mpr rfl⟩)
    exact ⟨s', (exec_result hv).trans hs'⟩

theorem fillV3RelayWithUpdatedDeposit_accepts {r : V3RelayData} {c : Uint256} (hr : Recovers recover H)
    (ha : H.isContract s.rest r.depositor = false) (hv : msg.value = 0) (hg : s.pool.entered = false)
    (hp : s.pool.pausedFills = false) (hx : ¬ Reserved msg r s) :
    RevertsWith (exec V H (n + 1) msg (.fillV3RelayWithUpdatedDeposit r c x)) s .invalidDepositorSignature ↔
      ¬ SignedBy recover s.pool r.depositor r.depositId r.originChainId x := by
  have hopen : ¬ Reserved msg r { s with pool := { s.pool with entered := true } } := hx
  have ha₁ : H.isContract ({ s with pool := { s.pool with entered := true } } : World W).rest r.depositor = false := ha
  rw [RevertsWith, exec_result hv]
  simp only [dispatch, fillV3RelayWithUpdatedDeposit]
  rw [guarded_result hg hp, checkExclusivity_result, if_neg hopen, verify_result hr ha₁]
  change (Except.map _ (if SignedBy recover s.pool r.depositor r.depositId r.originChainId x then _ else _) = _) ↔ _
  by_cases hsig : SignedBy recover s.pool r.depositor r.depositId r.originChainId x
  · rw [if_pos hsig]
    refine ⟨fun h => ?_, fun hne => absurd hsig hne⟩
    exact absurd h (map_ne_error fun he => (fillRelayV3_fails _ _ he).ne.2 rfl)
  · rw [if_neg hsig]
    exact ⟨fun _ => hsig, fun _ => rfl⟩

/-- What the pool of the origin chain accepts as an update of a deposit, the pool of any
other chain accepts as the update of its relay, and the other way round. The hash that
is signed determines the deposit, its chain and the new terms. -/
theorem update_signature_carries_over {V' : Variant X} {H' : Host X} {y : World X} (hs : Reached V H s)
    (hy : Reached V' H' y) (hr : Recovers recover H) (hr' : Recovers recover H') (ha : H.isContract s.rest a = false)
    (ha' : H'.isContract y.rest a = false) :
    (∀ (d : Uint256) (x : UpdatedDeposit) (r : V3RelayData), r.depositor = a → r.depositId = d →
      r.originChainId = V.chainId →
        (∀ n msg, msg.value = 0 → s.pool.entered = false →
          ((∃ s', Ok (exec V H (n + 1) msg (.speedUpV3Deposit a d x)) s () s') ↔
            SignedBy recover s.pool a d V.chainId x)) ∧
        (Ok (verifyUpdateV3DepositMessage H a d V.chainId x) s () s ↔ SignedBy recover s.pool a d V.chainId x) ∧
        (Ok (verifyUpdateV3DepositMessage H' r.depositor r.depositId r.originChainId x) y () y ↔
          SignedBy recover s.pool a d V.chainId x) ∧
        ∀ n msg c, msg.value = 0 → y.pool.entered = false → y.pool.pausedFills = false → ¬ Reserved msg r y →
          (RevertsWith (exec V' H' (n + 1) msg (.fillV3RelayWithUpdatedDeposit r c x)) y .invalidDepositorSignature ↔
            ¬ SignedBy recover s.pool a d V.chainId x)) ∧
    ∀ d₁ d₂ c₁ c₂ x₁ x₂, CollisionFree s.pool y.pool d₁ d₂ c₁ c₂ x₁ x₂ →
      updateDigest s.pool d₁ c₁ x₁ = updateDigest y.pool d₂ c₂ x₂ → SameTerms d₁ d₂ c₁ c₂ x₁ x₂ := by
  refine ⟨?_, fun _ _ _ _ _ _ hc h => updateDigest_inj hc h⟩
  rintro d x r rfl rfl hchain
  have hsame : SignedBy recover y.pool r.depositor r.depositId r.originChainId x ↔
      SignedBy recover s.pool r.depositor r.depositId V.chainId x := by
    rw [SignedBy, SignedBy, hchain, updateDigest_signed hy.signs hs.signs]
  refine ⟨fun n msg hv hg => speedUpV3Deposit_accepts hr ha hv hg, ?_, ?_, fun n msg c hv hg hp hx => ?_⟩
  · rw [verify_ok hr ha, and_iff_left rfl]
  · rw [verify_ok hr' ha', and_iff_left rfl, hsame]
  · rw [fillV3RelayWithUpdatedDeposit_accepts hr' ha' hv hg hp hx, hsame]

end Signature

def sampleUpdate : UpdatedDeposit := ⟨90, 6, ⟨[], nil_fits⟩, ⟨List.replicate 65 1, by decide⟩⟩

def sampleDeployed : World Unit where
  pool := { sampleWorld.pool with
    crossDomainAdmin := 9
    withdrawalRecipient := 9
    hashedName := keccak256 (utf8 "ACROSS-V2")
    hashedVersion := keccak256 (utf8 "1.0.0") }
  time := 0
  rest := ()
  trace := [.event .receive (.setXDomainAdmin 9), .event .receive (.setWithdrawalRecipient 9)]

/-- Account 4 has signed the sample update of deposit 0 on chain 1. -/
def sampleRecover (digest : Bytes32) (signature : Bytes) : Option Address :=
  if digest = updateDigest sampleDeployed.pool 0 1 sampleUpdate ∧ signature = sampleUpdate.depositorSignature.val then
    some 4
  else none

def sampleAccounts : Host Unit := { willing with
  isContract := fun _ _ => false
  isValidSignatureNow := fun _ a digest signature => decide (sampleRecover digest signature = some a) }

theorem sampleDeployed_reached (V : Variant Unit) : Reached V sampleAccounts { sampleDeployed with time := 1 } :=
  ⟨sampleWorld, .receive, 0, 9, 9, sampleDeployed, 1, [.transact 1 ⟨8, 0⟩ .receive], rfl, _, List.mem_cons_self, rfl⟩

def sampleUpdated : V3RelayData := ⟨4, 7, 0, 4, 5, 100, 99, 1, 0, 1000, 0, ⟨[], nil_fits⟩⟩

/-- The update is accepted on chain 1 and, for the relay of the deposit, on chain 2. -/
theorem sampleUpdate_carries_over : ∃ s',
    Ok (exec samplePool sampleAccounts 1 ⟨8, 0⟩ (.speedUpV3Deposit 4 0 sampleUpdate))
      { sampleDeployed with time := 1 } () s' ∧
    ¬ RevertsWith (exec { samplePool with chainId := 2 } sampleAccounts 1 ⟨8, 0⟩
      (.fillV3RelayWithUpdatedDeposit sampleUpdated 10 sampleUpdate)) { sampleDeployed with time := 1 }
      .invalidDepositorSignature ∧
    SameTerms 0 0 1 1 sampleUpdate sampleUpdate := by
  have hsigned : SignedBy sampleRecover sampleDeployed.pool 4 0 1 sampleUpdate := if_pos ⟨rfl, rfl⟩
  have hr : Recovers sampleRecover sampleAccounts := fun _ _ _ _ _ => rfl
  obtain ⟨hcalls, hterms⟩ := update_signature_carries_over (a := 4) (sampleDeployed_reached samplePool)
    (sampleDeployed_reached { samplePool with chainId := 2 }) hr hr rfl rfl
  obtain ⟨hspeedUp, -, -, hfill⟩ := hcalls 0 sampleUpdate sampleUpdated rfl rfl rfl
  obtain ⟨s', hs'⟩ := (hspeedUp 0 ⟨8, 0⟩ rfl rfl).mpr hsigned
  refine ⟨s', hs', fun h => ?_, hterms 0 0 1 1 _ _ ⟨fun _ => rfl, fun _ => rfl, fun _ => rfl⟩ rfl⟩
  exact (hfill 0 ⟨8, 0⟩ 10 rfl rfl rfl (by decide)).mp h hsigned

end Across.SpeedUp
