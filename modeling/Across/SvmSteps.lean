import Across.SvmProgram

namespace Across.SvmSteps

open CallExec CallExec.Exec SvmTypes SvmState SvmProgram

variable {W : Type} {R : Runtime W} {b b' : Bank W} {u : Unit}

@[simp] theorem loaded_ok {α : Type} {o : Option α} {a : α} :
    Ok (loaded o : Instr W α) b a b' ↔ o = some a ∧ b = b' := by
  cases o with
  | none => simp [loaded]
  | some x => simp [loaded]

@[simp] theorem invoke_ok {f : W → Option W} {e : Error} {x : Item} :
    Ok (invoke f e x) b u b' ↔ ∃ w, f b.rest = some w ∧ { b with rest := w, trace := b.trace ++ [x] } = b' := by
  simp only [invoke, bind_ok, read_ok]
  constructor
  · rintro ⟨_, _, ⟨rfl, rfl⟩, h⟩
    cases hf : f b.rest with
    | none => simp [hf] at h
    | some w =>
        rw [hf] at h
        exact ⟨w, rfl, (update_ok _ _ _ _).mp h⟩
  · rintro ⟨w, hf, rfl⟩
    refine ⟨b, b, ⟨rfl, rfl⟩, ?_⟩
    rw [hf]
    exact (update_ok _ _ _ _).mpr rfl

@[simp] theorem getCurrentTime_ok {t : U32} :
    Ok (getCurrentTime : Instr W U32) b t b' ↔ BitVec.ofInt 32 b.clock = t ∧ b = b' := by
  simp [getCurrentTime, and_comm]

theorem loaded_bind_ok {α β : Type} {o : Option α} {f : α → Instr W β} {c : β} :
    Ok (loaded o >>= f) b c b' ↔ ∃ a, o = some a ∧ Ok (f a) b c b' := by
  rw [bind_ok]
  constructor
  · rintro ⟨a, _, h, hf⟩
    obtain ⟨ha, rfl⟩ := loaded_ok.mp h
    exact ⟨a, ha, hf⟩
  · rintro ⟨a, ha, hf⟩
    exact ⟨a, b, loaded_ok.mpr ⟨ha, rfl⟩, hf⟩

theorem invoke_bind_ok {β : Type} {g : W → Option W} {e : Error} {x : Item} {f : Unit → Instr W β} {c : β} :
    Ok (invoke g e x >>= f) b c b' ↔
      ∃ w, g b.rest = some w ∧ Ok (f ()) { b with rest := w, trace := b.trace ++ [x] } c b' := by
  rw [bind_ok]
  constructor
  · rintro ⟨_, _, h, hf⟩
    obtain ⟨w, hw, rfl⟩ := invoke_ok.mp h
    exact ⟨w, hw, hf⟩
  · rintro ⟨w, hw, hf⟩
    exact ⟨(), _, invoke_ok.mpr ⟨w, hw, rfl⟩, hf⟩

theorem getCurrentTime_bind_ok {β : Type} {f : U32 → Instr W β} {c : β} :
    Ok (getCurrentTime >>= f) b c b' ↔ Ok (f (BitVec.ofInt 32 b.clock)) b c b' := by
  have hm : ∀ (t : U32) (s : Bank W), Ok getCurrentTime b t s ↔ True ∧ BitVec.ofInt 32 b.clock = t ∧ b = s :=
    fun t s => by
    rw [getCurrentTime_ok, true_and]
  rw [check_bind_ok hm, true_and]

section Failures

variable {P : Error → Prop}

theorem loaded_fails {α : Type} {o : Option α} (h : P .accountNotInitialized) : FailsWith P (loaded o : Instr W α) := by
  cases o with
  | none => exact .revert h
  | some a => exact .pure a

theorem invoke_fails {f : W → Option W} {e : Error} {y : Item} (he : P e) : FailsWith P (invoke f e y) := by
  refine .bind .read fun b => ?_
  split
  · exact .revert he
  · exact .update _

end Failures

theorem checkMint_ok {mint tokenProgram expected : Pubkey} : Ok (checkMint R mint tokenProgram expected) b u b' ↔
    (mint = expected ∧ R.mintProgram b.rest mint = some tokenProgram) ∧ b = b' := by
  simp only [checkMint, read_bind_ok, require_bind_ok, require_ok, and_assoc]

theorem checkMint_bind_ok {β : Type} {mint tokenProgram expected : Pubkey} {f : Unit → Instr W β} {c : β} :
    Ok (checkMint R mint tokenProgram expected >>= f) b c b' ↔
      (mint = expected ∧ R.mintProgram b.rest mint = some tokenProgram) ∧ Ok (f ()) b c b' :=
  check_bind_ok fun x s => by rw [checkMint_ok, eq_self, true_and]

theorem checkAssociated_ok {key mint authority tokenProgram : Pubkey} :
    Ok (checkAssociated R key mint authority tokenProgram) b u b' ↔
      (key = R.associatedTokenAddress authority mint tokenProgram ∧
        ∃ a, R.tokenAccount b.rest key = some a ∧ a.authority = authority ∧ a.tokenProgram = tokenProgram) ∧
      b = b' := by
  simp only [checkAssociated, read_bind_ok, require_bind_ok, loaded_bind_ok, require_ok]
  constructor
  · rintro ⟨hk, a, ha, hp, rfl⟩
    exact ⟨⟨hk, a, ha, hp⟩, rfl⟩
  · rintro ⟨⟨hk, a, ha, hp⟩, rfl⟩
    exact ⟨hk, a, ha, hp, rfl⟩

theorem checkAssociated_bind_ok {β : Type} {key mint authority tokenProgram : Pubkey} {f : Unit → Instr W β} {c : β} :
    Ok (checkAssociated R key mint authority tokenProgram >>= f) b c b' ↔
      (key = R.associatedTokenAddress authority mint tokenProgram ∧
        ∃ a, R.tokenAccount b.rest key = some a ∧ a.authority = authority ∧ a.tokenProgram = tokenProgram) ∧
      Ok (f ()) b c b' :=
  check_bind_ok fun x s => by rw [checkAssociated_ok, eq_self, true_and]

/-- A missing account is created, at the payer's cost. -/
def opening (o : Option FillStatusAccount) (h : Hash) (payer : Pubkey) : List Item :=
  match o with
  | none => [.created (.fills h) payer]
  | some _ => []

theorem mem_opening {o : Option FillStatusAccount} {h : Hash} {payer : Pubkey} {y : Item}
    (hy : y ∈ opening o h payer) : y = .created (.fills h) payer := by
  cases o with
  | none => exact List.mem_singleton.mp hy
  | some a => cases hy

theorem initFillStatus_ok {h : Hash} {payer : Pubkey} {a : FillStatusAccount}
    (hk : Ok (initFillStatus R h payer) b a b') :
    (b.fillStatuses h = some a ∨ b.fillStatuses h = none ∧ a.status = .unfilled) ∧
      ∃ w t, b' = { b with
        fillStatuses := Function.update b.fillStatuses h (some a), rest := w, trace := b.trace ++ t } ∧
        t = opening (b.fillStatuses h) h payer := by
  simp only [initFillStatus, bind_ok, read_ok] at hk
  obtain ⟨_, _, ⟨rfl, rfl⟩, hk⟩ := hk
  cases hs : b.fillStatuses h with
  | some c =>
      rw [hs] at hk
      obtain ⟨rfl, rfl⟩ := (pure_ok _ _ _ _).mp hk
      refine ⟨.inl rfl, b.rest, [], ?_, rfl⟩
      rw [List.append_nil, ← hs, Function.update_eq_self]
  | none =>
      simp only [hs, create, setFillStatus, bind_ok, invoke_ok, update_ok, pure_ok] at hk
      obtain ⟨_, _, ⟨w, -, rfl⟩, _, _, rfl, rfl, rfl⟩ := hk
      exact ⟨.inr ⟨rfl, rfl⟩, w, [.created (.fills h) payer], rfl, rfl⟩

theorem initTransferLiability_ok {mint payer : Pubkey} {l : TransferLiability}
    (hk : Ok (initTransferLiability R mint payer) b l b') :
    (b.transferLiabilities mint = some l ∨ b.transferLiabilities mint = none ∧ l = ⟨0⟩) ∧
      ∃ w t, b' = { b with
        transferLiabilities := Function.update b.transferLiabilities mint (some l), rest := w, trace := b.trace ++ t } ∧
        ∀ x ∈ t, x = .created (.transferLiability mint) payer := by
  simp only [initTransferLiability, bind_ok, read_ok] at hk
  obtain ⟨_, _, ⟨rfl, rfl⟩, hk⟩ := hk
  cases hs : b.transferLiabilities mint with
  | some c =>
      rw [hs] at hk
      obtain ⟨rfl, rfl⟩ := (pure_ok _ _ _ _).mp hk
      refine ⟨.inl rfl, b.rest, [], ?_, fun _ hx => absurd hx List.not_mem_nil⟩
      rw [List.append_nil, ← hs, Function.update_eq_self]
  | none =>
      simp only [hs, create, setTransferLiability, bind_ok, invoke_ok, update_ok, pure_ok] at hk
      obtain ⟨_, _, ⟨w, -, rfl⟩, _, _, rfl, rfl, rfl⟩ := hk
      exact ⟨.inr ⟨rfl, rfl⟩, w, [.created (.transferLiability mint) payer], rfl, fun _ => List.mem_singleton.mp⟩

def seconds (clock : Int) : Nat := (BitVec.ofInt 32 clock : U32).toNat

def now (b : Bank W) : Nat := seconds b.clock

section Fills

/-- What the instructions for one relay find in its account. A missing account is
made, and is then unfilled. -/
def Found (o : Option FillStatusAccount) (a : FillStatusAccount) : Prop := o = some a ∨ o = none ∧ a.status = .unfilled

/-- What a step leaves behind when all it does to the program's accounts is to
write the status of one fill. -/
def wroteFill (b : Bank W) (h : Hash) (a : Option FillStatusAccount) (w : W) (t : List Item) : Bank W :=
  { b with fillStatuses := Function.update b.fillStatuses h a, rest := w, trace := b.trace ++ t }

theorem fillV3Relay_ok {x : FillV3Relay} (h : Ok (fillV3Relay R x) b u b') :
    x.relayHash = getV3RelayHash x.relayData b.state.chainId ∧ now b ≤ x.relayData.fillDeadline.toNat ∧
      ∃ a, Found (b.fillStatuses x.relayHash) a ∧ a.status ≠ .filled ∧ ∃ w t p,
        t = opening (b.fillStatuses x.relayHash) x.relayHash x.signer ∧
        (p = [] ∨ p = [.transferred (.fill x.relayHash) x.mintAccount x.relayerTokenAccount x.recipientTokenAccount
          x.relayData.outputAmount]) ∧
        b' = wroteFill b x.relayHash (some ⟨.filled, x.signer⟩) w (t ++ p ++ [.emitted (.filledV3Relay x.relayData
          x.repaymentChainId x.repaymentAddress x.relayData.outputAmount (fillTypeOf a.status))]) := by
  simp only [fillV3Relay, read_bind_ok, require_bind_ok, checkMint_bind_ok, loaded_bind_ok,
    checkAssociated_bind_ok] at h
  obtain ⟨-, -, _, -, -, -, h⟩ := h
  obtain ⟨a, s₁, hinit, h⟩ := (bind_ok _ _ _ _ _).mp h
  obtain ⟨hfound, w, t, rfl, ht⟩ := initFillStatus_ok hinit
  simp only [require_bind_ok, getCurrentTime_bind_ok] at h
  obtain ⟨hhash, -, hdead, hst, h⟩ := h
  obtain ⟨_, s₂, hpay, h⟩ := (bind_ok _ _ _ _ _).mp h
  simp only [setFillStatus, emit, update_bind_ok, update_ok] at h
  subst h
  refine ⟨hhash, hdead, a, hfound, hst, ?_⟩
  rcases (when_ok _ _ _ _ _).mp hpay with ⟨-, hpay⟩ | ⟨-, rfl⟩
  · simp only [transferChecked, invoke_ok] at hpay
    obtain ⟨w', -, rfl⟩ := hpay
    refine ⟨w', t, _, ht, .inr rfl, ?_⟩
    simp only [wroteFill, Function.update_idem, List.append_assoc]
  · refine ⟨w, t, [], ht, .inl rfl, ?_⟩
    simp only [wroteFill, Function.update_idem, List.append_assoc, List.append_nil]

theorem requestV3SlowFill_ok {x : RequestV3SlowFill} (h : Ok (requestV3SlowFill R x) b u b') :
    x.relayHash = getV3RelayHash x.relayData b.state.chainId ∧ now b ≤ x.relayData.fillDeadline.toNat ∧
      ∃ a, Found (b.fillStatuses x.relayHash) a ∧ a.status = .unfilled ∧ ∃ w t,
        t = opening (b.fillStatuses x.relayHash) x.relayHash x.signer ∧
        b' = wroteFill b x.relayHash (some ⟨.requestedSlowFill, x.signer⟩) w
          (t ++ [.emitted (.requestedV3SlowFill x.relayData)]) := by
  simp only [requestV3SlowFill, read_bind_ok, require_bind_ok] at h
  obtain ⟨-, h⟩ := h
  obtain ⟨a, s₁, hinit, h⟩ := (bind_ok _ _ _ _ _).mp h
  obtain ⟨hfound, w, t, rfl, ht⟩ := initFillStatus_ok hinit
  simp only [require_bind_ok, getCurrentTime_bind_ok, setFillStatus, emit, update_bind_ok, update_ok] at h
  obtain ⟨hhash, -, hdead, hst, rfl⟩ := h
  refine ⟨hhash, hdead, a, hfound, hst, w, t, ht, ?_⟩
  simp only [wroteFill, Function.update_idem, List.append_assoc]

theorem executeV3SlowRelayLeaf_ok {x : ExecuteV3SlowRelayLeaf} (h : Ok (executeV3SlowRelayLeaf R x) b u b') :
    x.relayHash = getV3RelayHash x.slowFillLeaf.relayData b.state.chainId ∧
      now b ≤ x.slowFillLeaf.relayData.fillDeadline.toNat ∧
      ∃ a, b.fillStatuses x.relayHash = some a ∧ a.status ≠ .filled ∧ ∃ w,
        b' = wroteFill b x.relayHash (some ⟨.filled, a.relayer⟩) w
          [.transferred (.fill x.relayHash) x.mint x.vault x.recipientTokenAccount x.slowFillLeaf.updatedOutputAmount,
            .emitted (.filledV3Relay x.slowFillLeaf.relayData 0 0 x.slowFillLeaf.updatedOutputAmount .slowFill)] := by
  simp only [executeV3SlowRelayLeaf, read_bind_ok, loaded_bind_ok, require_bind_ok, checkMint_bind_ok,
    checkAssociated_bind_ok, getCurrentTime_bind_ok, transferChecked, invoke_bind_ok, setFillStatus, emit,
    update_bind_ok, update_ok] at h
  obtain ⟨_, -, a, ha, hhash, -, -, -, -, hdead, hst, w, -, rfl⟩ := h
  refine ⟨hhash, hdead, a, ha, hst, w, ?_⟩
  simp only [wroteFill, List.append_assoc]
  rfl

theorem closeFillPda_ok {x : CloseFillPda} (h : Ok (closeFillPda R x) b u b') :
    x.relayHash = getV3RelayHash x.relayData b.state.chainId ∧ x.relayData.fillDeadline.toNat < now b ∧
      ∃ a, b.fillStatuses x.relayHash = some a ∧ x.signer = a.relayer ∧ ∃ w,
        b' = wroteFill b x.relayHash none w [.closed (.fills x.relayHash) x.signer] := by
  simp only [closeFillPda, read_bind_ok, loaded_bind_ok, require_bind_ok, getCurrentTime_bind_ok, setFillStatus, close,
    update_bind_ok, update_ok] at h
  obtain ⟨a, ha, hs, hhash, hdead, rfl⟩ := h
  exact ⟨hhash, hdead, a, ha, hs, _, rfl⟩

end Fills

section Claims

def wroteClaim (b : Bank W) (mint tokenAccount : Pubkey) (a : Option ClaimAccount) (w : W) (t : List Item) : Bank W :=
  { b with
    claimAccounts := Function.update b.claimAccounts mint (Function.update (b.claimAccounts mint) tokenAccount a)
    rest := w
    trace := b.trace ++ t }

theorem initializeClaimAccount_ok {x : InitializeClaimAccount} (h : Ok (initializeClaimAccount R x) b u b') :
    b.claimAccounts x.mint x.tokenAccount = none ∧ ∃ w, b' = wroteClaim b x.mint x.tokenAccount (some ⟨0, x.signer⟩) w
      [.created (.claimAccount x.mint x.tokenAccount) x.signer] := by
  simp only [initializeClaimAccount, create, setClaimAccount, read_bind_ok, require_bind_ok, invoke_bind_ok,
    update_ok] at h
  obtain ⟨hn, w, -, rfl⟩ := h
  exact ⟨hn, w, rfl⟩

theorem claimRelayerRefund_ok {x : ClaimRelayerRefund} (h : Ok (claimRelayerRefund R x) b u b') :
    ∃ a, b.claimAccounts x.mint x.tokenAccount = some a ∧ ∃ w, b' = wroteClaim b x.mint x.tokenAccount none w
      [.transferred .claim x.mint x.vault x.tokenAccount a.amount,
        .emitted (.claimedRelayerRefund x.mint a.amount x.tokenAccount),
        .closed (.claimAccount x.mint x.tokenAccount) x.initializer] := by
  simp only [claimRelayerRefund, read_bind_ok, loaded_bind_ok, require_bind_ok, checkAssociated_bind_ok,
    checkMint_bind_ok, transferChecked, invoke_bind_ok, setClaimAccount, close, emit, update_bind_ok, update_ok] at h
  obtain ⟨a, ha, -, -, -, _, -, -, -, w, -, rfl⟩ := h
  refine ⟨a, ha, R.returnRent (.claimAccount x.mint x.tokenAccount) x.initializer w, ?_⟩
  simp only [wroteClaim, List.append_assoc]
  rfl

theorem closeClaimAccount_ok {x : CloseClaimAccount} (h : Ok (closeClaimAccount R x) b u b') :
    ∃ a, b.claimAccounts x.mint x.tokenAccount = some a ∧ a.amount = 0 ∧ ∃ w,
      b' = wroteClaim b x.mint x.tokenAccount none w [.closed (.claimAccount x.mint x.tokenAccount) x.signer] := by
  simp only [closeClaimAccount, read_bind_ok, loaded_bind_ok, require_bind_ok, setClaimAccount, close, update_bind_ok,
    update_ok] at h
  obtain ⟨a, ha, -, hz, rfl⟩ := h
  exact ⟨a, ha, hz, _, rfl⟩

theorem bridgeTokensToHubPool_ok {x : BridgeTokensToHubPool} (h : Ok (bridgeTokensToHubPool R x) b u b') :
    ∃ l, b.transferLiabilities x.mint = some l ∧ x.amount.toNat ≤ l.pendingToHubPool.toNat ∧ ∃ w, b' = { b with
      transferLiabilities := Function.update b.transferLiabilities x.mint (some ⟨l.pendingToHubPool - x.amount⟩)
      rest := w
      trace := b.trace ++ [.burned x.mint x.amount, .emitted (.bridgedToHubPool x.amount x.mint)] } := by
  simp only [bridgeTokensToHubPool, read_bind_ok, checkMint_bind_ok, loaded_bind_ok, checkAssociated_bind_ok,
    require_bind_ok, setTransferLiability, invoke_bind_ok, emit, update_bind_ok, update_ok] at h
  obtain ⟨-, l, hl, -, hle, w, -, rfl⟩ := h
  refine ⟨l, hl, hle, w, ?_⟩
  simp only [List.append_assoc]
  rfl

/-- The refund loop: each entry is paid out at once or added to its claim account. -/
inductive Refunded (mint vault : Pubkey) : Bank W → List (Pubkey × U64) → Bank W → Prop
  | nil (b : Bank W) : Refunded mint vault b [] b
  | direct {b b' : Bank W} {account : Pubkey} {amount : U64} {rs : List (Pubkey × U64)} (w : W)
      (h : Refunded mint vault { b with
        rest := w, trace := b.trace ++ [.transferred .refund mint vault account amount] } rs b') :
      Refunded mint vault b ((account, amount) :: rs) b'
  | deferred {b b' : Bank W} {account : Pubkey} {amount : U64} {rs : List (Pubkey × U64)} {a : ClaimAccount}
      (ha : b.claimAccounts mint account = some a) (hlt : a.amount.toNat + amount.toNat < 2 ^ 64)
      (h : Refunded mint vault
        (wroteClaim b mint account (some { a with amount := a.amount + amount }) b.rest []) rs b') :
      Refunded mint vault b ((account, amount) :: rs) b'

theorem tryFromRemainingAccount_ok {infos : List AccountInfo} {i : Nat} {account mint tokenProgram : Pubkey}
    {a : RefundAccount} (h : tryFromRemainingAccount R b infos i account mint tokenProgram = .ok a) :
    a = .tokenAccount account ∨ ∃ c, b.claimAccounts mint account = some c ∧ a = .claimAccount c := by
  unfold tryFromRemainingAccount at h
  split at h
  · cases h
  · rename_i info _
    split at h
    · rename_i x hx
      obtain rfl := Except.ok.inj h
      rcases Option.or_eq_some_iff.mp hx with hx | ⟨-, hx⟩
      · left
        unfold tryTokenAccount at hx
        split at hx
        · cases hx
        · simp only [Option.bind_eq_bind, Option.bind_eq_some_iff, Option.ite_none_right_eq_some] at hx
          obtain ⟨_, -, ⟨-, rfl, -⟩, ha⟩ := hx
          exact (Option.some.inj ha).symm
      · right
        unfold tryClaimAccount at hx
        split at hx
        · cases hx
        · simp only [Option.bind_eq_bind, Option.bind_eq_some_iff, Option.ite_none_right_eq_some] at hx
          obtain ⟨c, hc, ⟨rfl, rfl, -⟩, ha⟩ := hx
          exact ⟨c, hc, (Option.some.inj ha).symm⟩
    · cases h

theorem refundFrom_ok {x : ExecuteRelayerRefundLeaf} {i : Nat} {rs : List (Pubkey × U64)} {d : Bool}
    (h : Ok (refundFrom R x i rs) b d b') : Refunded x.mint x.vault b rs b' := by
  induction rs generalizing i b d with
  | nil =>
      obtain ⟨-, rfl⟩ := (pure_ok _ _ _ _).mp h
      exact .nil b
  | cons r rs ih =>
      obtain ⟨account, amount⟩ := r
      simp only [refundFrom, refund, bind_ok, read_ok, pure_ok] at h
      obtain ⟨_, _, ⟨_, _, ⟨rfl, rfl⟩, hr⟩, _, _, hrest, -, rfl⟩ := h
      split at hr
      · exact ((revert_ok _ _ _ _).mp hr).elim
      · rename_i k hk
        rcases tryFromRemainingAccount_ok hk with hk | ⟨_, -, hk⟩
        · obtain rfl := RefundAccount.tokenAccount.inj hk
          simp only [transferChecked, bind_ok, invoke_ok, pure_ok] at hr
          obtain ⟨_, _, ⟨w, -, rfl⟩, -, rfl⟩ := hr
          exact .direct w (ih hrest)
        · cases hk
      · rename_i a hk
        rcases tryFromRemainingAccount_ok hk with hk | ⟨_, ha, hk⟩
        · cases hk
        · obtain rfl := RefundAccount.claimAccount.inj hk
          simp only [setClaimAccount, bind_ok, require_ok, update_ok, pure_ok] at hr
          obtain ⟨_, _, ⟨hlt, rfl⟩, _, _, rfl, -, rfl⟩ := hr
          refine .deferred ha hlt ?_
          simp only [wroteClaim, List.append_nil]
          exact ih hrest

theorem Refunded.frame {mint vault : Pubkey} {rs : List (Pubkey × U64)} (h : Refunded mint vault b rs b') :
    b'.clock = b.clock ∧ b'.state = b.state ∧ b'.fillStatuses = b.fillStatuses ∧ b'.rootBundles = b.rootBundles ∧
      b'.transferLiabilities = b.transferLiabilities := by
  induction h with
  | nil b => exact ⟨rfl, rfl, rfl, rfl, rfl⟩
  | direct w h ih => exact ih
  | deferred ha hlt h ih => exact ih

theorem Refunded.trace {mint vault : Pubkey} {rs : List (Pubkey × U64)} (h : Refunded mint vault b rs b') :
    ∃ t, b'.trace = b.trace ++ t ∧ ∀ y ∈ t, ∃ account amount, y = .transferred .refund mint vault account amount := by
  induction h with
  | nil b => exact ⟨[], (List.append_nil _).symm, fun _ hy => absurd hy List.not_mem_nil⟩
  | direct w h ih =>
      obtain ⟨t, ht, hall⟩ := ih
      refine ⟨_ :: t, by rw [ht, List.append_assoc]; rfl, fun y hy => ?_⟩
      rcases List.mem_cons.mp hy with rfl | hy
      · exact ⟨_, _, rfl⟩
      · exact hall y hy
  | deferred ha hlt h ih =>
      obtain ⟨t, ht, hall⟩ := ih
      rw [wroteClaim, List.append_nil] at ht
      exact ⟨t, ht, hall⟩

end Claims

section Bundles

/-- An execution of a refund leaf, between the accounts before and after it. -/
structure Executed (x : ExecuteRelayerRefundLeaf) (b b' : Bank W) : Prop where
  mint : x.mint = x.relayerRefundLeaf.mintPublicKey
  chainId : x.relayerRefundLeaf.chainId = b.state.chainId
  lengths : x.relayerRefundLeaf.refundAccounts.length = x.relayerRefundLeaf.refundAmounts.length
  same : b'.clock = b.clock ∧ b'.state = b.state ∧ b'.fillStatuses = b.fillStatuses
  bundle : ∃ r, b.rootBundles x.rootBundleId = some r ∧
    verifyMerkleProof r.relayerRefundRoot x.relayerRefundLeaf.toKeccakHash x.proof = true ∧
    isClaimed r.claimedBitmap x.relayerRefundLeaf.leafId = false ∧
    b'.rootBundles = Function.update b.rootBundles x.rootBundleId (some { r with
      claimedBitmap := setClaimed r.claimedBitmap x.relayerRefundLeaf.leafId
      dataLen := max (rootBundleSpace + x.relayerRefundLeaf.leafId.toNat / 8) r.dataLen })
  liability : ∃ l, (b.transferLiabilities x.mint = some l ∨ b.transferLiabilities x.mint = none ∧ l = ⟨0⟩) ∧
    l.pendingToHubPool.toNat + x.relayerRefundLeaf.amountToReturn.toNat < 2 ^ 64 ∧
    b'.transferLiabilities = Function.update b.transferLiabilities x.mint
      (some ⟨l.pendingToHubPool + x.relayerRefundLeaf.amountToReturn⟩)
  refunds : ∃ c c' : Bank W, c.claimAccounts = b.claimAccounts ∧ c'.claimAccounts = b'.claimAccounts ∧
    Refunded x.mint x.vault c (x.relayerRefundLeaf.refundAccounts.zip x.relayerRefundLeaf.refundAmounts) c' ∧
    (∃ t, c.trace = b.trace ++ t ∧ ∀ y ∈ t, y = .resized (.rootBundle x.rootBundleId) x.signer ∨
      y = .created (.transferLiability x.mint) x.signer) ∧
    ∃ d, b'.trace = c'.trace ++ [.emitted (.executedRelayerRefundRoot x.rootBundleId x.relayerRefundLeaf d x.signer)]

theorem resize_ok {p : Prop} [Decidable p] {account : Pda} {payer : Pubkey} {space : Nat}
    (h : Ok (when p (resize R account payer space)) b u b') :
    ∃ w t, b' = { b with rest := w, trace := b.trace ++ t } ∧ ∀ y ∈ t, y = .resized account payer := by
  rcases (when_ok _ _ _ _ _).mp h with ⟨-, h⟩ | ⟨-, rfl⟩
  · simp only [resize, invoke_ok] at h
    obtain ⟨w, -, rfl⟩ := h
    exact ⟨w, [.resized account payer], rfl, fun _ => List.mem_singleton.mp⟩
  · exact ⟨b.rest, [], by rw [List.append_nil], fun _ hy => absurd hy List.not_mem_nil⟩

theorem addPending_ok {mint : Pubkey} {l : TransferLiability} {amount : U64} (hl : b.transferLiabilities mint = some l)
    (h : Ok (when (0 < amount.toNat) (addPending mint l amount)) b u b') :
    l.pendingToHubPool.toNat + amount.toNat < 2 ^ 64 ∧ b' = { b with
      transferLiabilities := Function.update b.transferLiabilities mint (some ⟨l.pendingToHubPool + amount⟩) } := by
  rcases (when_ok _ _ _ _ _).mp h with ⟨-, h⟩ | ⟨hz, rfl⟩
  · simp only [addPending, setTransferLiability, require_bind_ok, update_ok] at h
    obtain ⟨hlt, rfl⟩ := h
    exact ⟨hlt, rfl⟩
  · have h0 : amount = 0#64 := BitVec.eq_of_toNat_eq (Nat.eq_zero_of_not_pos hz)
    refine ⟨?_, ?_⟩
    · rw [h0]
      exact l.pendingToHubPool.isLt
    · rw [h0, BitVec.add_zero, ← hl, Function.update_eq_self]

theorem executeRelayerRefundLeaf_ok {x : ExecuteRelayerRefundLeaf} (h : Ok (executeRelayerRefundLeaf R x) b u b') :
    Executed x b b' := by
  simp only [executeRelayerRefundLeaf, read_bind_ok, loaded_bind_ok] at h
  obtain ⟨r, hr, h⟩ := h
  obtain ⟨_, _, hresize, h⟩ := (bind_ok _ _ _ _ _).mp h
  obtain ⟨w, t, rfl, ht⟩ := resize_ok hresize
  simp only [checkAssociated_bind_ok, checkMint_bind_ok] at h
  obtain ⟨-, ⟨hm, -⟩, h⟩ := h
  obtain ⟨l, _, hinit, h⟩ := (bind_ok _ _ _ _ _).mp h
  obtain ⟨hl, w', t', rfl, ht'⟩ := initTransferLiability_ok hinit
  simp only [require_bind_ok, setRootBundle, update_bind_ok] at h
  obtain ⟨hv, hch, hc, hlen, h⟩ := h
  obtain ⟨_, c', hloop, h⟩ := (bind_ok _ _ _ _ _).mp h
  have hpaid := refundFrom_ok hloop
  obtain ⟨hk, hs, hf, hb, hlia⟩ := hpaid.frame
  obtain ⟨_, _, hpend, h⟩ := (bind_ok _ _ _ _ _).mp h
  obtain ⟨hlt, rfl⟩ := addPending_ok (by rw [hlia]; exact Function.update_self _ _ _) hpend
  simp only [emit, update_bind_ok, require_ok] at h
  obtain ⟨-, rfl⟩ := h
  refine ⟨hm, hch, hlen, ⟨hk, hs, hf⟩, ⟨r, hr, hv, hc, hb⟩, ⟨l, hl, hlt, ?_⟩,
    ⟨_, c', ?_, ?_, hpaid, ⟨t ++ t', ?_, ?_⟩, _, rfl⟩⟩
  · simp only [hlia, Function.update_idem]
  · rfl
  · rfl
  · simp only [List.append_assoc]
  · intro y hy
    rcases List.mem_append.mp hy with hy | hy
    · exact .inl (ht y hy)
    · exact .inr (ht' y hy)

theorem Executed.trace {x : ExecuteRelayerRefundLeaf} (h : Executed x b b') :
    ∃ t d, b'.trace = b.trace ++
      (t ++ [.emitted (.executedRelayerRefundRoot x.rootBundleId x.relayerRefundLeaf d x.signer)]) ∧
      ∀ y ∈ t, y = .resized (.rootBundle x.rootBundleId) x.signer ∨ y = .created (.transferLiability x.mint) x.signer ∨
        ∃ account amount, y = .transferred .refund x.mint x.vault account amount := by
  obtain ⟨c, c', -, -, hpaid, ⟨t, ht, hall⟩, d, hd⟩ := h.refunds
  obtain ⟨t', ht', hall'⟩ := hpaid.trace
  refine ⟨t ++ t', d, ?_, ?_⟩
  · rw [hd, ht', ht, List.append_assoc, List.append_assoc, List.append_assoc]
  · intro y hy
    rcases List.mem_append.mp hy with hy | hy
    · rcases hall y hy with hy | hy
      · exact .inl hy
      · exact .inr (.inl hy)
    · exact .inr (.inr (hall' y hy))

theorem relayRootBundle_ok {x : RelayRootBundle} (h : Ok (relayRootBundle R x) b u b') :
    b.rootBundles b.state.rootBundleId = none ∧ b.state.rootBundleId.toNat + 1 < 2 ^ 32 ∧ ∃ w, b' = { b with
      state := { b.state with rootBundleId := b.state.rootBundleId + 1 }
      rootBundles := Function.update b.rootBundles b.state.rootBundleId
        (some ⟨x.relayerRefundRoot, x.slowRelayRoot, [], rootBundleSpace⟩)
      rest := w
      trace := b.trace ++ [.created (.rootBundle b.state.rootBundleId) x.payer,
        .emitted (.relayedRootBundle b.state.rootBundleId x.relayerRefundRoot x.slowRelayRoot)] } := by
  simp only [relayRootBundle, read_bind_ok, require_bind_ok, create, invoke_bind_ok, setRootBundle, emit,
    update_bind_ok, update_ok] at h
  obtain ⟨-, hn, w, -, hlt, rfl⟩ := h
  refine ⟨hn, hlt, w, ?_⟩
  simp only [List.append_assoc]
  rfl

theorem emergencyDeleteRootBundle_ok {x : EmergencyDeleteRootBundle}
    (h : Ok (emergencyDeleteRootBundle R x) b u b') : (∃ r, b.rootBundles x.rootBundleId = some r) ∧ ∃ w, b' = { b with
      rootBundles := Function.update b.rootBundles x.rootBundleId none
      rest := w
      trace := b.trace ++ [.emitted (.emergencyDeleteRootBundle x.rootBundleId),
        .closed (.rootBundle x.rootBundleId) x.closer] } := by
  simp only [emergencyDeleteRootBundle, read_bind_ok, require_bind_ok, loaded_bind_ok, close, setRootBundle, emit,
    update_bind_ok, update_ok] at h
  obtain ⟨-, r, hr, rfl⟩ := h
  refine ⟨⟨r, hr⟩, R.returnRent (.rootBundle x.rootBundleId) x.closer b.rest, ?_⟩
  simp only [List.append_assoc]
  rfl

theorem pauseFills_ok {x : PauseFills} (h : Ok (pauseFills R x) b u b') : b' = { b with
    state := { b.state with pausedFills := x.pause }, trace := b.trace ++ [.emitted (.pausedFills x.pause)] } := by
  simp only [pauseFills, emit, read_bind_ok, require_bind_ok, update_bind_ok, update_ok] at h
  obtain ⟨-, rfl⟩ := h
  rfl

end Bundles

section Runs

theorem input_ok {i : Input W} (h : Ok (input R i) b u b') :
    (∃ ix, i.action = .instruction ix ∧ Ok (process R ix) { b with clock := i.time } () b') ∨
      ∃ w, b' = { b with clock := i.time, rest := w } := by
  simp only [input, bind_ok, update_ok] at h
  obtain ⟨_, _, rfl, h⟩ := h
  split at h
  · rename_i ix hix
    simp only [bind_ok, attempt_ok, pure_ok] at h
    obtain ⟨_, _, hp | ⟨_, -, -, rfl⟩, -, rfl⟩ := h
    · obtain ⟨_, -, hp⟩ := hp
      exact .inl ⟨ix, hix, hp⟩
    · exact .inr ⟨b.rest, rfl⟩
  · obtain rfl := (update_ok _ _ _ _).mp h
    exact .inr ⟨_, rfl⟩

theorem input_of_ok {ix : Instruction} {t : Int} (h : Ok (process R ix) { b with clock := t } () b') :
    Ok (input R ⟨t, .instruction ix⟩) b () b' := by
  have ha : Ok (attempt (process R ix)) { b with clock := t } (.ok ()) b' := (attempt_ok _ _ _ _).mpr
    (.inl ⟨(), rfl, h⟩)
  simp only [input, update_bind_ok]
  exact (bind_ok _ _ _ _ _).mpr ⟨.ok (), b', ha, (pure_ok _ _ _ _).mpr ⟨rfl, rfl⟩⟩

theorem input_of_reverts {ix : Instruction} {t : Int} (hr : Reverts (process R ix) { b with clock := t })
    (h : Ok (input R ⟨t, .instruction ix⟩) b u b') : b' = { b with clock := t } := by
  simp only [input, bind_ok, update_ok, attempt_ok, pure_ok] at h
  obtain ⟨_, _, rfl, _, _, ⟨_, -, hok⟩ | ⟨_, -, -, rfl⟩, -, rfl⟩ := h
  · exact absurd hok ((reverts_iff _ _).mp hr _ _)
  · rfl

theorem input_returns (R : Runtime W) (i : Input W) (b : Bank W) : ∃ b', Ok (input R i) b () b' := by
  simp only [input, bind_ok, update_ok]
  cases i.action with
  | instruction ix =>
      obtain ⟨r, b', h⟩ := attempt_returns (process R ix) { b with clock := i.time }
      exact ⟨b', (), _, rfl, (bind_ok _ _ _ _ _).mpr ⟨r, b', h, (pure_ok _ _ _ _).mpr ⟨rfl, rfl⟩⟩⟩
  | elsewhere f => exact ⟨_, (), _, rfl, (update_ok _ _ _ _).mpr rfl⟩

theorem run_returns (R : Runtime W) (inputs : List (Input W)) (b : Bank W) : ∃ b', Ok (run R inputs) b () b' :=
  forEach_returns (input_returns R) inputs b

theorem run_invariant {I : List (Input W) → Bank W → Prop}
    (hstep : ∀ {i is b b'}, I (i :: is) b → Ok (input R i) b () b' → I is b') {inputs : List (Input W)} (h : I inputs b)
    (hr : Ok (run R inputs) b () b') : I [] b' := by
  induction inputs generalizing b with
  | nil =>
      obtain rfl := (forEach_nil_ok _ _ _ _).mp hr
      exact h
  | cons i is ih =>
      obtain ⟨b₁, hi, his⟩ := (forEach_cons_ok _ _ _ _ _ _).mp hr
      exact ih (hstep h hi) his

end Runs

end Across.SvmSteps
