import Across.SvmSpoke
import Across.SvmSteps

namespace Across.SvmCalls

open WordBytes CallExec CallExec.Exec Borsh Codec SvmTypes SvmState SvmProgram SvmSteps MessageTranslation Sha256
  SvmSpoke

variable {W : Type} {P : Programs W} {a a' : Accounts W} {u : Unit}

section Primitives

variable {α β : Type} {c : β}

theorem onBank_ok {m : Instr W α} {x : α} :
    Ok (onBank m : Code W α) a x a' ↔ ∃ b, Ok m a.bank x b ∧ { a with bank := b } = a' := zoom_ok

/-- A check of the bank's accounts is one of all accounts. -/
theorem onBank_bind_ok {m : Instr W α} {f : α → Code W β} {p : Prop} {x : α}
    (hm : ∀ y b, Ok m a.bank y b ↔ p ∧ x = y ∧ a.bank = b) : Ok (onBank m >>= f) a c a' ↔ p ∧ Ok (f x) a c a' := by
  refine check_bind_ok fun y t => ?_
  rw [onBank_ok]
  constructor
  · rintro ⟨b, h, rfl⟩
    obtain ⟨hp, rfl, rfl⟩ := (hm y b).mp h
    exact ⟨hp, rfl, rfl⟩
  · rintro ⟨hp, rfl, rfl⟩
    exact ⟨a.bank, (hm x a.bank).mpr ⟨hp, rfl, rfl⟩, rfl⟩

theorem onBank_loaded_bind_ok {o : Option α} {f : α → Code W β} :
    Ok (onBank (loaded o) >>= f) a c a' ↔ ∃ x, o = some x ∧ Ok (f x) a c a' := by
  cases o with
  | none =>
      simp only [bind_ok, onBank_ok, loaded_ok, reduceCtorEq, false_and, exists_false]
  | some x =>
      rw [onBank_bind_ok (p := True) (x := x) fun y b => by rw [loaded_ok, Option.some.injEq, true_and], true_and]
      constructor
      · intro h
        exact ⟨x, rfl, h⟩
      · rintro ⟨y, hy, h⟩
        cases hy
        exact h

theorem onBank_getCurrentTime_bind_ok {f : U32 → Code W β} :
    Ok (onBank getCurrentTime >>= f) a c a' ↔ Ok (f (BitVec.ofInt 32 a.bank.clock)) a c a' := by
  rw [onBank_bind_ok (p := True) fun y b => by rw [getCurrentTime_ok, true_and], true_and]

theorem onBank_checkMint_bind_ok {mint tokenProgram expected : Pubkey} {f : Unit → Code W β} :
    Ok (onBank (checkMint P.toRuntime mint tokenProgram expected) >>= f) a c a' ↔
      (mint = expected ∧ P.mintProgram a.bank.rest mint = some tokenProgram) ∧ Ok (f ()) a c a' :=
  onBank_bind_ok fun y b => by rw [checkMint_ok, eq_self, true_and]

/-- The account is the token account of `authority` for the mint. -/
def IsAssociated (P : Programs W) (w : W) (key mint authority tokenProgram : Pubkey) : Prop :=
  key = P.associatedTokenAddress authority mint tokenProgram ∧
    ∃ t, P.tokenAccount w key = some t ∧ t.authority = authority ∧ t.tokenProgram = tokenProgram

theorem onBank_checkAssociated_bind_ok {key mint authority tokenProgram : Pubkey} {f : Unit → Code W β} :
    Ok (onBank (checkAssociated P.toRuntime key mint authority tokenProgram) >>= f) a c a' ↔
      IsAssociated P a.bank.rest key mint authority tokenProgram ∧ Ok (f ()) a c a' :=
  onBank_bind_ok fun y b => by rw [checkAssociated_ok, eq_self, true_and]; rfl

theorem loadState_bind_ok {f : Unit → Code W β} : Ok (loadState >>= f) a c a' ↔ a.live = true ∧ Ok (f ()) a c a' :=
  check_bind_ok fun y t => by rw [loadState, read_bind_ok, require_ok, eq_self, true_and]

theorem requireOwner_bind_ok {signer : Pubkey} {f : Unit → Code W β} : Ok (requireOwner P signer >>= f) a c a' ↔
    (signer = a.bank.state.owner ∨ signer = P.selfAuthority) ∧ Ok (f ()) a c a' :=
  check_bind_ok fun y t => by
    rw [requireOwner, read_bind_ok, require_ok, isLocalOrRemoteOwner, decide_eq_true_iff, eq_self, true_and]

theorem callOut_ok {f : W → Option W} {e : SvmState.Error} {x : Entry} : Ok (callOut f e x) a u a' ↔
    ∃ w, f a.bank.rest = some w ∧ { a with bank := { a.bank with rest := w }, log := a.log ++ [x] } = a' := by
  rw [callOut, read_bind_ok]
  cases f a.bank.rest with
  | none => simp
  | some w => simp

theorem callOut_bind_ok {g : W → Option W} {e : SvmState.Error} {x : Entry} {f : Unit → Code W β} :
    Ok (callOut g e x >>= f) a c a' ↔ ∃ w, g a.bank.rest = some w ∧
      Ok (f ()) { a with bank := { a.bank with rest := w }, log := a.log ++ [x] } c a' := by
  rw [bind_ok]
  constructor
  · rintro ⟨_, _, h, hf⟩
    obtain ⟨w, hw, rfl⟩ := callOut_ok.mp h
    exact ⟨w, hw, hf⟩
  · rintro ⟨w, hw, hf⟩
    exact ⟨(), _, callOut_ok.mpr ⟨w, hw, rfl⟩, hf⟩

end Primitives

section Admin

/-- The accounts after the state is made from the values of `x`. -/
def founded (x : Initialize) (a : Accounts W) (w : W) : Accounts W := { a with
  bank := { a.bank with
    state := ⟨false, x.signer, x.chainId, x.remoteDomain, x.crossDomainAdmin, 0⟩, rest := w }
  live := true
  pausedDeposits := false
  numberOfDeposits := x.initialNumberOfDeposits
  depositQuoteTimeBuffer := x.depositQuoteTimeBuffer
  fillDeadlineBuffer := x.fillDeadlineBuffer
  log := a.log ++ [.opened .state x.signer] }

theorem initializeState_ok {x : Initialize} : Ok (initializeState P x) a u a' ↔ a.live = false ∧ x.seed = 0 ∧
    ∃ w, P.openAccount x.signer .state a.bank.rest = some w ∧ a' = founded x a w := by
  simp only [initializeState, SvmSpoke.openAccount, read_bind_ok, require_bind_ok, callOut_bind_ok, update_ok]
  constructor
  · rintro ⟨hlive, w, hw, hseed, rfl⟩
    exact ⟨hlive.resolve_left (not_not_intro hseed), hseed, w, hw, rfl⟩
  · rintro ⟨hlive, hseed, w, hw, rfl⟩
    exact ⟨.inr hlive, w, hw, hseed, rfl⟩

theorem pauseDeposits_ok {x : PauseDeposits} : Ok (pauseDeposits P x) a u a' ↔
    (x.signer = a.bank.state.owner ∨ x.signer = P.selfAuthority) ∧
      a' = { a with pausedDeposits := x.pause, log := a.log ++ [.pausedDeposits x.pause] } := by
  simp only [pauseDeposits, SvmSpoke.record, requireOwner_bind_ok, update_bind_ok, update_ok, eq_comm]

theorem transferOwnership_ok {x : TransferOwnership} : Ok (transferOwnership x) a u a' ↔
    x.signer = a.bank.state.owner ∧
      a' = { a with bank := { a.bank with state := { a.bank.state with owner := x.newOwner } } } := by
  simp only [transferOwnership, setState, read_bind_ok, require_bind_ok, update_ok, eq_comm]

theorem setCrossDomainAdmin_ok {x : SetCrossDomainAdmin} : Ok (setCrossDomainAdmin P x) a u a' ↔
    (x.signer = a.bank.state.owner ∨ x.signer = P.selfAuthority) ∧ a' = { a with
      bank := { a.bank with state := { a.bank.state with crossDomainAdmin := x.crossDomainAdmin } }
      log := a.log ++ [.setXDomainAdmin x.crossDomainAdmin] } := by
  simp only [setCrossDomainAdmin, setState, SvmSpoke.record, requireOwner_bind_ok, update_bind_ok, update_ok, eq_comm]

/-- The accounts that an instruction opens before it starts. -/
def Opens (a a' : Accounts W) : Prop :=
  ∃ w t, a' = { a with bank := { a.bank with rest := w }, log := a.log ++ t } ∧ ∀ x ∈ t, ∃ o p, x = .opened o p

theorem opens_self (a : Accounts W) : Opens a a :=
  ⟨a.bank.rest, [], by rw [List.append_nil], fun _ hx => absurd hx List.not_mem_nil⟩

theorem openAccount_opens {payer : Pubkey} {o : Opened} (h : Ok (openAccount P payer o) a u a') : Opens a a' := by
  obtain ⟨w, -, rfl⟩ := callOut_ok.mp h
  exact ⟨w, [.opened o payer], rfl, fun _ hx => ⟨o, payer, List.mem_singleton.mp hx⟩⟩

theorem initRoute_opens {payer token : Pubkey} {chain : U64} (h : Ok (initRoute P payer token chain) a u a') :
    Opens a a' := by
  rw [initRoute, read_bind_ok] at h
  split at h
  · obtain ⟨-, rfl⟩ := (pure_ok _ _ _ _).mp h
    exact opens_self a
  · exact openAccount_opens h

theorem initVault_opens {payer vault mint tokenProgram : Pubkey}
    (h : Ok (initVault P payer vault mint tokenProgram) a u a') : Opens a a' := by
  rw [initVault, read_bind_ok] at h
  split at h
  · obtain ⟨-, rfl⟩ := (pure_ok _ _ _ _).mp h
    exact opens_self a
  · exact openAccount_opens h

theorem Opens.trans {a'' : Accounts W} (h : Opens a a') (h' : Opens a' a'') : Opens a a'' := by
  obtain ⟨w, t, rfl, ht⟩ := h
  obtain ⟨w', t', rfl, ht'⟩ := h'
  refine ⟨w', t ++ t', by simp only [List.append_assoc], fun x hx => ?_⟩
  rcases List.mem_append.mp hx with hx | hx
  · exact ht x hx
  · exact ht' x hx

theorem setEnableRoute_ok {x : SetEnableRoute} (h : Ok (setEnableRoute P x) a u a') :
    (x.signer = a.bank.state.owner ∨ x.signer = P.selfAuthority) ∧ x.originTokenMint = x.originToken ∧
      ∃ t, Opens a t ∧ IsAssociated P t.bank.rest x.vault x.originTokenMint P.stateKey x.tokenProgram ∧ a' = { t with
        routes := Function.update t.routes x.originToken
          (Function.update (t.routes x.originToken) x.destinationChainId (some x.enabled))
        log := t.log ++ [.enabledDepositRoute x.originToken x.destinationChainId x.enabled] } := by
  simp only [setEnableRoute, requireOwner_bind_ok] at h
  obtain ⟨hs, h⟩ := h
  obtain ⟨_, t₁, hroute, h⟩ := (bind_ok _ _ _ _ _).mp h
  obtain ⟨_, t, hvault, h⟩ := (bind_ok _ _ _ _ _).mp h
  simp only [onBank_checkAssociated_bind_ok, onBank_checkMint_bind_ok, setRoute, SvmSpoke.record, update_bind_ok,
    update_ok] at h
  obtain ⟨hv, ⟨hm, -⟩, rfl⟩ := h
  exact ⟨hs, hm, t, (initRoute_opens hroute).trans (initVault_opens hvault), hv, rfl⟩

end Admin

section Deposits

/-- What a deposit needs at the time of its block. -/
structure Acceptable (P : Programs W) (x : DepositV3) (a : Accounts W) : Prop where
  route : a.routes x.inputToken x.destinationChainId = some true
  unpaused : a.pausedDeposits = false
  mint : x.mint = x.inputToken ∧ P.mintProgram a.bank.rest x.mint = some x.tokenProgram
  payer : P.tokenAccount a.bank.rest x.userTokenAccount = some ⟨x.mint, x.signer, x.tokenProgram⟩
  vault : IsAssociated P a.bank.rest x.vault x.mint P.stateKey x.tokenProgram
  quote : x.quoteTimestamp.toNat ≤ now a.bank ∧ now a.bank ≤ x.quoteTimestamp.toNat + a.depositQuoteTimeBuffer.toNat
  deadline : now a.bank ≤ x.fillDeadline.toNat ∧ x.fillDeadline.toNat ≤ now a.bank + a.fillDeadlineBuffer.toNat
  time : now a.bank + a.fillDeadlineBuffer.toNat < 2 ^ 32
  count : a.numberOfDeposits.toNat + 1 < 2 ^ 32

theorem depositV3_ok {x : DepositV3} : Ok (depositV3 P x) a u a' ↔ Acceptable P x a ∧
    ∃ w, P.transferChecked x.mint x.userTokenAccount x.vault x.signer x.inputAmount a.bank.rest = some w ∧ a' = { a with
      bank := { a.bank with rest := w }
      numberOfDeposits := a.numberOfDeposits + 1
      log := a.log ++ [.transferred x.mint x.userTokenAccount x.vault x.inputAmount,
        .v3FundsDeposited (x.event (a.numberOfDeposits + 1))] } := by
  simp only [depositV3, read_bind_ok, onBank_loaded_bind_ok, require_bind_ok, onBank_checkAssociated_bind_ok,
    onBank_checkMint_bind_ok, onBank_getCurrentTime_bind_ok, callOut_bind_ok, SvmSpoke.record, update_bind_ok,
    update_ok]
  constructor
  · rintro ⟨e, hroute, ⟨m, s, k⟩, ht, hp, ⟨hm, hs, hk⟩, hv, hmint, rfl, hq, hqb, hd, htime, hdb, w, hw, hc, rfl⟩
    obtain ⟨rfl, rfl, rfl⟩ : x.mint = m ∧ x.signer = s ∧ x.tokenProgram = k := ⟨hm.symm, hs.symm, hk.symm⟩
    refine ⟨⟨hroute, hp, hmint, ht, hv, ⟨hq, ?_⟩, ⟨hd, hdb⟩, htime, hc⟩, w, hw, ?_⟩
    · exact Nat.sub_le_iff_le_add'.mp hqb
    · simp only [List.append_assoc]
      rfl
  · rintro ⟨hx, w, hw, rfl⟩
    refine ⟨true, hx.route, _, hx.payer, hx.unpaused, ⟨rfl, rfl, rfl⟩, hx.vault, hx.mint, rfl, hx.quote.1, ?_,
      hx.deadline.1, hx.time, hx.deadline.2, w, hw, hx.count, ?_⟩
    · exact Nat.sub_le_iff_le_add'.mpr hx.quote.2
    · simp only [List.append_assoc]
      rfl

end Deposits

end Across.SvmCalls
