import Across.SvmOrders

namespace Across.SvmDeposits

open CallExec CallExec.Exec SvmTypes SvmState SvmSteps MessageTranslation SvmSpoke SvmCalls SvmOrders

variable {W : Type} {P : Programs W} {a a' : Accounts W} {u : Unit}

section Logs

def depositOf : Entry → Option V3FundsDeposited
  | .v3FundsDeposited e => some e
  | _ => none

def deposits (t : List Entry) : List V3FundsDeposited := t.filterMap depositOf

/-- What the program takes of a mint. -/
def pulled (mint : Pubkey) : Entry → Nat
  | .transferred m _ _ amount => if m = mint then amount.toNat else 0
  | _ => 0

/-- What a deposit is of a mint. -/
def deposited (mint : Pubkey) : Entry → Nat
  | .v3FundsDeposited e => if e.inputToken = mint then e.inputAmount.toNat else 0
  | _ => 0

def isQuiet : Entry → Bool
  | .transferred .. | .v3FundsDeposited _ => false
  | _ => true

/-- The deposits of the log `t` have the ids after `first` up to `last`, one after the
other, and what they are of has been taken, and put in the token account of the
state. -/
structure Numbered (P : Programs W) (first : Nat) (t : List Entry) (last : Nat) : Prop where
  ids : (deposits t).map (fun e => e.depositId.toNat) = List.range' (first + 1) (deposits t).length
  count : last = first + (deposits t).length
  taken : ∀ mint, (t.map (pulled mint)).sum = (t.map (deposited mint)).sum
  vaults : ∀ mint src dst amount, .transferred mint src dst amount ∈ t →
    ∃ tokenProgram, dst = P.associatedTokenAddress P.stateKey mint tokenProgram

variable {t t' : List Entry} {first last last' : Nat}

theorem deposits_quiet (ht : ∀ e ∈ t, isQuiet e = true) : deposits t = [] := by
  refine List.filterMap_eq_nil_iff.mpr fun e he => ?_
  have hq := ht e he
  cases e with
  | v3FundsDeposited _ => cases hq
  | _ => rfl

theorem Numbered.quiet (ht : ∀ e ∈ t, isQuiet e = true) : Numbered P first t first := by
  have hnone := deposits_quiet ht
  have hpull : ∀ mint, ∀ e ∈ t, pulled mint e = 0 ∧ deposited mint e = 0 := by
    intro mint e he
    have hq := ht e he
    cases e with
    | transferred _ _ _ _ | v3FundsDeposited _ => cases hq
    | _ => exact ⟨rfl, rfl⟩
  refine ⟨?_, ?_, fun mint => ?_, fun mint src dst amount he => ?_⟩
  · rw [hnone]
    rfl
  · rw [hnone]
    rfl
  · rw [List.map_congr_left fun e he => (hpull mint e he).1, List.map_congr_left fun e he => (hpull mint e he).2]
  · cases ht _ he

theorem Numbered.append (h : Numbered P first t last) (h' : Numbered P last t' last') :
    Numbered P first (t ++ t') last' := by
  have hd : deposits (t ++ t') = deposits t ++ deposits t' := List.filterMap_append
  refine ⟨?_, ?_, fun mint => ?_, fun mint src dst amount he => ?_⟩
  · rw [hd, List.map_append, List.length_append, h.ids, h'.ids, h.count, Nat.add_right_comm, List.range'_append_1]
  · rw [hd, List.length_append, h'.count, h.count, Nat.add_assoc]
  · rw [List.map_append, List.map_append, List.sum_append, List.sum_append, h.taken, h'.taken]
  · rcases List.mem_append.mp he with he | he
    · exact h.vaults _ _ _ _ he
    · exact h'.vaults _ _ _ _ he

end Logs

section Steps

/-- What the log of a deposit is. -/
def entries (x : DepositV3) (depositId : U32) : List Entry :=
  [.transferred x.mint x.userTokenAccount x.vault x.inputAmount, .v3FundsDeposited (x.event depositId)]

theorem Numbered.deposit {x : DepositV3} (hx : Acceptable P x a) :
    Numbered P a.numberOfDeposits.toNat (entries x (a.numberOfDeposits + 1)) (a.numberOfDeposits + 1).toNat := by
  have hnext : (a.numberOfDeposits + 1).toNat = a.numberOfDeposits.toNat + 1 := BitVec.toNat_add_of_lt hx.count
  refine ⟨?_, hnext, fun mint => ?_, fun mint src dst amount he => ?_⟩
  · change [(a.numberOfDeposits + 1).toNat] = [a.numberOfDeposits.toNat + 1]
    rw [hnext]
  · change (if x.mint = mint then x.inputAmount.toNat else 0) + (0 + 0) =
      0 + ((if x.inputToken = mint then x.inputAmount.toNat else 0) + 0)
    rw [hx.mint.1]
    omega
  · rcases List.mem_pair.mp he with he | he
    · injection he with hm _ hd _
      exact ⟨x.tokenProgram, by rw [hd, hm]; exact hx.vault.1⟩
    · cases he

/-- What an instruction of a program that has its state does to the log. -/
inductive Writes (P : Programs W) (j : SvmSpoke.Instruction) (a a' : Accounts W) : Prop
  | quiet (t : List Entry) (hlog : a'.log = a.log ++ t) (ht : ∀ e ∈ t, isQuiet e = true)
      (hn : a'.numberOfDeposits = a.numberOfDeposits)
  | deposit (x : DepositV3) (hj : j = .depositV3 x) (hx : Acceptable P x a)
      (hlog : a'.log = a.log ++ entries x (a.numberOfDeposits + 1))
      (hn : a'.numberOfDeposits = a.numberOfDeposits + 1)

theorem Writes.one {j : SvmSpoke.Instruction} {e : Entry} (hlog : a'.log = a.log ++ [e]) (he : isQuiet e = true)
    (hn : a'.numberOfDeposits = a.numberOfDeposits) : Writes P j a a' :=
  .quiet [e] hlog (List.forall_mem_singleton.mpr he) hn

theorem Writes.nothing {j : SvmSpoke.Instruction} (hlog : a'.log = a.log)
    (hn : a'.numberOfDeposits = a.numberOfDeposits) : Writes P j a a' :=
  .quiet [] (by rw [hlog, List.append_nil]) (fun _ he => absurd he List.not_mem_nil) hn

theorem execute_writes {j : SvmSpoke.Instruction} (hl : a.live = true) (h : Ok (execute P j) a u a') :
    Writes P j a a' := by
  cases j with
  | initializeState x =>
      obtain ⟨hnone, -⟩ := initializeState_ok.mp h
      cases hl.symm.trans hnone
  | pauseDeposits x =>
      obtain ⟨-, h⟩ := loadState_bind_ok.mp h
      obtain ⟨-, rfl⟩ := pauseDeposits_ok.mp h
      exact .one rfl rfl rfl
  | transferOwnership x =>
      obtain ⟨-, h⟩ := loadState_bind_ok.mp h
      obtain ⟨-, rfl⟩ := transferOwnership_ok.mp h
      exact .nothing rfl rfl
  | setCrossDomainAdmin x =>
      obtain ⟨-, h⟩ := loadState_bind_ok.mp h
      obtain ⟨-, rfl⟩ := setCrossDomainAdmin_ok.mp h
      exact .one rfl rfl rfl
  | setEnableRoute x =>
      obtain ⟨-, h⟩ := loadState_bind_ok.mp h
      obtain ⟨-, -, _, ⟨w, t, rfl, ht⟩, -, rfl⟩ := setEnableRoute_ok h
      refine .quiet _ (List.append_assoc _ _ _) (fun e he => ?_) rfl
      rcases List.mem_append.mp he with he | he
      · obtain ⟨o, p, rfl⟩ := ht e he
        rfl
      · rw [List.mem_singleton.mp he]
        rfl
  | depositV3 x =>
      obtain ⟨-, h⟩ := loadState_bind_ok.mp h
      obtain ⟨hx, w, -, rfl⟩ := depositV3_ok.mp h
      exact .deposit x rfl hx rfl rfl
  | spoke i =>
      obtain ⟨_, t, hload, h⟩ := (bind_ok _ _ _ _ _).mp h
      obtain ⟨b, -, rfl⟩ := onBank_ok.mp h
      obtain rfl := loadWhen_ok hload
      exact .nothing rfl rfl

/-- A deposit of an input, and what it was made on. -/
structure Made (P : Programs W) (a : Accounts W) (i : Input W) (e : V3FundsDeposited) : Prop where
  call : ∃ x, i.action = .call (.direct (.depositV3 x)) ∧ Acceptable P x (tick a i.time) ∧
    e = x.event (a.numberOfDeposits + 1)

variable {i : Input W}

/-- The log of one input. -/
structure Logged (P : Programs W) (a : Accounts W) (i : Input W) (t : List Entry) (a' : Accounts W) : Prop where
  log : a'.log = a.log ++ t
  numbered : Numbered P a.numberOfDeposits.toNat t a'.numberOfDeposits.toNat
  made : ∀ e ∈ deposits t, Made P a i e

theorem Writes.logged {j : SvmSpoke.Instruction} (h : Writes P j (tick a i.time) a')
    (hi : ∀ x, j = .depositV3 x → i.action = .call (.direct j)) : ∃ t, Logged P a i t a' := by
  cases h with
  | quiet t hlog ht hn =>
      refine ⟨t, hlog, ?_, fun e he => ?_⟩
      · rw [hn]
        exact .quiet ht
      · rw [deposits_quiet ht] at he
        exact absurd he List.not_mem_nil
  | deposit x hj hx hlog hn =>
      refine ⟨_, hlog, ?_, fun e he => ⟨x, hj ▸ hi x hj, hx, List.mem_singleton.mp he⟩⟩
      rw [hn]
      exact Numbered.deposit (a := tick a i.time) hx

theorem Logged.nothing (hlog : a'.log = a.log) (hn : a'.numberOfDeposits = a.numberOfDeposits) :
    Logged P a i [] a' := by
  refine ⟨by rw [hlog, List.append_nil], ?_, fun e he => absurd he List.not_mem_nil⟩
  rw [hn]
  exact .quiet fun _ he => absurd he List.not_mem_nil

theorem step_logged (hl : a.live = true) : ∃ t, Logged P a i t (step P a i) := by
  cases hi : i.action with
  | elsewhere f =>
      refine ⟨[], .nothing ?_ ?_⟩ <;> simp only [step, hi] <;> rfl
  | call c =>
      cases hr : (process P c (tick a i.time)).result with
      | error e =>
          refine ⟨[], .nothing ?_ ?_⟩ <;> simp only [step, hi, hr] <;> rfl
      | ok p =>
          have hstep : step P a i = p.2 := by simp only [step, hi, hr]
          rw [hstep]
          cases c with
          | direct j =>
              have hw : Writes P j (tick a i.time) p.2 := execute_writes hl hr
              exact hw.logged fun _ _ => hi
          | message x =>
              obtain ⟨-, -, m, rest, -, hexec⟩ := handleReceiveMessage_ok.mp hr
              have hw := execute_writes (a := tick a i.time) hl hexec
              refine hw.logged fun y hy => ?_
              have horder := orderOf_signedBy P.selfAuthority x.remainingAccounts m.instruction m.args
              rw [hy] at horder
              cases horder

theorem run_logged (is : List (Input W)) (hl : a.live = true) : ∃ t, (run P a is).log = a.log ++ t ∧
    Numbered P a.numberOfDeposits.toNat t (run P a is).numberOfDeposits.toNat ∧
    ∀ e ∈ deposits t, ∃ before i after, is = before ++ i :: after ∧ Made P (run P a before) i e := by
  induction is generalizing a with
  | nil =>
      refine ⟨[], (List.append_nil _).symm, .quiet fun _ he => absurd he List.not_mem_nil, fun e he => ?_⟩
      exact absurd he List.not_mem_nil
  | cons i is ih =>
      obtain ⟨t, ht⟩ := step_logged (P := P) (i := i) hl
      have hnext : (step P a i).live = true := step_live hl
      obtain ⟨t', hlog, hnum, hmade⟩ := ih hnext
      refine ⟨t ++ t', ?_, ht.numbered.append hnum, fun e he => ?_⟩
      · change (run P (step P a i) is).log = _
        rw [hlog, ht.log, List.append_assoc]
      · rw [deposits, List.filterMap_append] at he
        rcases List.mem_append.mp he with he | he
        · exact ⟨[], i, is, rfl, ht.made e he⟩
        · obtain ⟨before, j, after, rfl, hj⟩ := hmade e he
          exact ⟨i :: before, j, after, rfl, hj⟩

/-- Along every run the ids of the deposits go up one by one from the number that the
state was made with, none is used twice and none wraps. What the deposits of a
mint are in all is what the program took, into its own token accounts. Each was
made by a `deposit_v3` of the run, on a route that was open, while deposits were
not paused, and with its times in the windows. -/
theorem deposits_numbered (P : Programs W) (w : W) (inputs : List (Input W)) :
    Dormant (run P (blank w) inputs) ∨ ∃ before i x after, inputs = before ++ i :: after ∧
      i.action = .call (.direct (.initializeState x)) ∧ ∃ t,
        (run P (blank w) inputs).log = .opened .state x.signer :: t ∧
        Numbered P x.initialNumberOfDeposits.toNat t (run P (blank w) inputs).numberOfDeposits.toNat ∧
        ∀ e ∈ deposits t, ∃ pre j post, inputs = pre ++ j :: post ∧ Made P (run P (blank w) pre) j e := by
  rcases run_dormant (P := P) inputs (blank_dormant w) with hd | ⟨before, i, x, after, rfl, hi, hx⟩
  · exact .inl hd
  · obtain ⟨t, hlog, hnum, hmade⟩ := run_logged (P := P) after hx.live
    have hrun : run P (blank w) (before ++ i :: after) = run P (step P (run P (blank w) before) i) after :=
      run_append before (i :: after)
    have hstart : (step P (run P (blank w) before) i).log = [.opened .state x.signer] ∧
        (step P (run P (blank w) before) i).numberOfDeposits = x.initialNumberOfDeposits := by
      obtain ⟨-, d, w', hd, heq⟩ := hx
      rw [heq]
      refine ⟨?_, rfl⟩
      change d.log ++ _ = _
      rw [hd.log, List.nil_append]
    rw [hstart.1] at hlog
    rw [hstart.2] at hnum
    rw [hrun]
    refine .inr ⟨before, i, x, after, rfl, hi, t, hlog, hnum, fun e he => ?_⟩
    obtain ⟨pre, j, post, rfl, hj⟩ := hmade e he
    refine ⟨before ++ i :: pre, j, post, by rw [List.append_assoc, List.cons_append], ?_⟩
    rw [run_append]
    exact hj

end Steps

end Across.SvmDeposits
