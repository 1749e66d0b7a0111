import Mathlib.Algebra.BigOperators.Finprod
import Across.SvmSteps

namespace Across.SvmRefunds

open CallExec CallExec.Exec SvmTypes SvmState SvmProgram SvmSteps

variable {W : Type} {R : Runtime W} {b b' : Bank W} {u : Unit}

section Sums

def total (f : Item → Nat) (t : List Item) : Nat := (t.map f).sum

@[simp] theorem total_nil (f : Item → Nat) : total f [] = 0 := rfl

@[simp] theorem total_cons (f : Item → Nat) (y : Item) (t : List Item) : total f (y :: t) = f y + total f t :=
  List.sum_cons

@[simp] theorem total_append (f : Item → Nat) (t t' : List Item) : total f (t ++ t') = total f t + total f t' := by
  rw [total, List.map_append, List.sum_append, total, total]

theorem total_quiet {f : Item → Nat} {t : List Item} (ht : ∀ y ∈ t, f y = 0) : total f t = 0 := by
  apply List.sum_eq_zero
  intro n hn
  obtain ⟨y, hy, rfl⟩ := List.mem_map.mp hn
  exact ht y hy

def share (account : Pubkey) (rs : List (Pubkey × U64)) : Nat :=
  (rs.map fun r => if r.1 = account then r.2.toNat else 0).sum

theorem share_cons (a account : Pubkey) (amount : U64) (rs : List (Pubkey × U64)) :
    share a ((account, amount) :: rs) = (if a = account then amount.toNat else 0) + share a rs := by
  simp only [share, List.map_cons, List.sum_cons, eq_comm]

theorem finite_pubkey : Finite Pubkey := Finite.of_injective BitVec.toFin fun _ _ => BitVec.eq_of_toFin_eq

theorem finsum_ite (k : Pubkey) (n : Nat) : ∑ᶠ account, (if k = account then n else 0) = n := by
  rw [finsum_eq_single _ k fun _ hne => if_neg (Ne.symm hne), if_pos rfl]

theorem finsum_total {f : Pubkey → Item → Nat} {g : Item → Nat} {t : List Item}
    (hf : ∀ y ∈ t, ∑ᶠ account, f account y = g y) : ∑ᶠ account, total (f account) t = total g t := by
  have := finite_pubkey
  induction t with
  | nil => simp
  | cons y t ih =>
      simp only [total_cons]
      rw [finsum_add_distrib (Set.toFinite _) (Set.toFinite _), hf y List.mem_cons_self,
        ih fun z hz => hf z (List.mem_cons_of_mem y hz)]

theorem finsum_share (rs : List (Pubkey × U64)) : ∑ᶠ account, share account rs = (rs.map fun r => r.2.toNat).sum := by
  have := finite_pubkey
  induction rs with
  | nil => simp [share]
  | cons r rs ih =>
      simp only [share, List.map_cons, List.sum_cons] at ih ⊢
      rw [finsum_add_distrib (Set.toFinite _) (Set.toFinite _), finsum_ite, ih]

end Sums

section Ledger

def refundsTo (mint account : Pubkey) : Item → Nat
  | .emitted (.executedRelayerRefundRoot _ leaf _ _) =>
      if leaf.mintPublicKey = mint then share account (leaf.refundAccounts.zip leaf.refundAmounts) else 0
  | _ => 0

def transfersTo (purpose : Purpose) (mint account : Pubkey) : Item → Nat
  | .transferred p m _ dst amount => if p = purpose ∧ m = mint ∧ dst = account then amount.toNat else 0
  | _ => 0

def refunds (mint : Pubkey) : Item → Nat
  | .emitted (.executedRelayerRefundRoot _ leaf _ _) =>
      if leaf.mintPublicKey = mint then (leaf.refundAmounts.map BitVec.toNat).sum else 0
  | _ => 0

def transfers (purpose : Purpose) (mint : Pubkey) : Item → Nat
  | .transferred p m _ _ amount => if p = purpose ∧ m = mint then amount.toNat else 0
  | _ => 0

def returned (mint : Pubkey) : Item → Nat
  | .emitted (.executedRelayerRefundRoot _ leaf _ _) =>
      if leaf.mintPublicKey = mint then leaf.amountToReturn.toNat else 0
  | _ => 0

def bridged (mint : Pubkey) : Item → Nat
  | .burned m amount => if m = mint then amount.toNat else 0
  | _ => 0

def amountOf : Option ClaimAccount → Nat
  | none => 0
  | some a => a.amount.toNat

/-- What a claim account holds. A missing account holds nothing. -/
def held (b : Bank W) (mint account : Pubkey) : Nat := amountOf (b.claimAccounts mint account)

def pendingOf : Option TransferLiability → Nat
  | none => 0
  | some l => l.pendingToHubPool.toNat

def pending (b : Bank W) (mint : Pubkey) : Nat := pendingOf (b.transferLiabilities mint)

def Paired : Item → Prop
  | .emitted (.executedRelayerRefundRoot _ leaf _ _) => leaf.refundAccounts.length = leaf.refundAmounts.length
  | _ => True

/-- A stretch of history and what it does to the claim accounts and liabilities. -/
structure Books (b b' : Bank W) (t : List Item) : Prop where
  trace : b'.trace = b.trace ++ t
  paired : ∀ y ∈ t, Paired y
  refunds : ∀ m a, total (refundsTo m a) t + held b m a =
    total (transfersTo .refund m a) t + total (transfersTo .claim m a) t + held b' m a
  returns : ∀ m, total (returned m) t + pending b m = pending b' m + total (bridged m) t

def Quiet : Item → Prop
  | .emitted (.executedRelayerRefundRoot _ _ _ _) => False
  | .transferred (.fill _) _ _ _ _ => True
  | .transferred _ _ _ _ _ => False
  | .burned _ _ => False
  | _ => True

section Quiet

variable {y : Item}

theorem Quiet.paired (hy : Quiet y) : Paired y := by
  unfold Paired
  split
  · exact hy.elim
  · trivial

theorem Quiet.refundsTo (hy : Quiet y) (m a : Pubkey) : refundsTo m a y = 0 := by
  unfold SvmRefunds.refundsTo
  split
  · exact hy.elim
  · rfl

theorem Quiet.transfersTo {p : Purpose} (hy : Quiet y) (hp : p = .refund ∨ p = .claim) (m a : Pubkey) :
    transfersTo p m a y = 0 := by
  unfold SvmRefunds.transfersTo
  split
  · rename_i q _ _ _ _
    apply if_neg
    rintro ⟨rfl, -, -⟩
    rcases hp with rfl | rfl
    · exact hy
    · exact hy
  · rfl

theorem Quiet.returned (hy : Quiet y) (m : Pubkey) : returned m y = 0 := by
  unfold SvmRefunds.returned
  split
  · exact hy.elim
  · rfl

theorem Quiet.bridged (hy : Quiet y) (m : Pubkey) : bridged m y = 0 := by
  unfold SvmRefunds.bridged
  split
  · exact hy.elim
  · rfl

end Quiet

theorem Books.of_quiet {t : List Item} (hc : b'.claimAccounts = b.claimAccounts)
    (hl : b'.transferLiabilities = b.transferLiabilities) (ht : b'.trace = b.trace ++ t) (hq : ∀ y ∈ t, Quiet y) :
    Books b b' t := by
  have hzero : ∀ {f : Item → Nat}, (∀ y, Quiet y → f y = 0) → total f t = 0 := fun hf =>
    total_quiet fun y hy => hf y (hq y hy)
  refine ⟨ht, fun y hy => (hq y hy).paired, fun m a => ?_, fun m => ?_⟩
  · rw [hzero fun y hy => hy.refundsTo m a, hzero fun y hy => hy.transfersTo (.inl rfl) m a,
      hzero fun y hy => hy.transfersTo (.inr rfl) m a, held, held, hc]
  · rw [hzero fun y hy => hy.returned m, hzero fun y hy => hy.bridged m, pending, pending, hl, Nat.zero_add,
      Nat.add_zero]

theorem Books.trans {c : Bank W} {t t' : List Item} (h : Books b c t) (h' : Books c b' t') : Books b b' (t ++ t') := by
  refine ⟨?_, ?_, fun m a => ?_, fun m => ?_⟩
  · rw [h'.trace, h.trace, List.append_assoc]
  · intro y hy
    rcases List.mem_append.mp hy with hy | hy
    · exact h.paired y hy
    · exact h'.paired y hy
  · have h₁ := h.refunds m a
    have h₂ := h'.refunds m a
    simp only [total_append]
    omega
  · have h₁ := h.returns m
    have h₂ := h'.returns m
    simp only [total_append]
    omega

end Ledger

section Steps

variable {mint account : Pubkey}

theorem held_wroteClaim {o : Option ClaimAccount} {w : W} {t : List Item} (m a : Pubkey) :
    held (wroteClaim b mint account o w t) m a = if m = mint ∧ a = account then amountOf o else held b m a := by
  unfold held wroteClaim
  by_cases hm : m = mint
  · subst hm
    by_cases ha : a = account
    · subst ha
      simp
    · simp [ha]
  · simp [hm]

theorem transfersTo_self {p : Purpose} {src : Pubkey} {amount : U64} (m a : Pubkey) :
    transfersTo p m a (.transferred p mint src account amount) = if m = mint ∧
      a = account then amount.toNat else 0 := by
  simp only [transfersTo, true_and, eq_comm]

theorem initializeClaimAccount_books {x : InitializeClaimAccount} (h : Ok (initializeClaimAccount R x) b u b') :
    ∃ t, Books b b' t := by
  obtain ⟨hn, w, rfl⟩ := initializeClaimAccount_ok h
  refine ⟨_, rfl, by simp [Paired], fun m a => ?_, fun m => by simp [returned, bridged, pending, wroteClaim]⟩
  rw [held_wroteClaim]
  split
  · rename_i hma
    obtain ⟨rfl, rfl⟩ := hma
    simp [refundsTo, transfersTo, held, hn, amountOf]
  · simp [refundsTo, transfersTo]

theorem claimRelayerRefund_books {x : ClaimRelayerRefund} (h : Ok (claimRelayerRefund R x) b u b') :
    ∃ t, Books b b' t := by
  obtain ⟨c, hc, w, rfl⟩ := claimRelayerRefund_ok h
  refine ⟨_, rfl, by simp [Paired], fun m a => ?_, fun m => by simp [returned, bridged, pending, wroteClaim]⟩
  rw [held_wroteClaim]
  simp only [total_cons, total_nil, transfersTo_self]
  split
  · rename_i hma
    obtain ⟨rfl, rfl⟩ := hma
    simp [refundsTo, transfersTo, held, hc, amountOf]
  · simp [refundsTo, transfersTo]

theorem closeClaimAccount_books {x : CloseClaimAccount} (h : Ok (closeClaimAccount R x) b u b') :
    ∃ t, Books b b' t := by
  obtain ⟨c, hc, hz, w, rfl⟩ := closeClaimAccount_ok h
  refine ⟨_, rfl, by simp [Paired], fun m a => ?_, fun m => by simp [returned, bridged, pending, wroteClaim]⟩
  rw [held_wroteClaim]
  split
  · rename_i hma
    obtain ⟨rfl, rfl⟩ := hma
    simp [refundsTo, transfersTo, held, hc, hz, amountOf]
  · simp [refundsTo, transfersTo]

theorem pending_update {l : TransferLiability} (m : Pubkey)
    (hb : b'.transferLiabilities = Function.update b.transferLiabilities mint (some l)) :
    pending b' m = if m = mint then l.pendingToHubPool.toNat else pending b m := by
  unfold pending
  rw [hb]
  by_cases hm : m = mint
  · subst hm
    simp [pendingOf]
  · simp [hm]

theorem bridgeTokensToHubPool_books {x : BridgeTokensToHubPool} (h : Ok (bridgeTokensToHubPool R x) b u b') :
    ∃ t, Books b b' t := by
  obtain ⟨l, hl, hle, w, hb⟩ := bridgeTokensToHubPool_ok h
  have hp := fun m => pending_update (b := b) m (congrArg Bank.transferLiabilities hb)
  subst hb
  refine ⟨_, rfl, by simp [Paired], fun m a => by simp [refundsTo, transfersTo, held], fun m => ?_⟩
  rw [hp]
  split
  · rename_i hm
    subst hm
    have hsub : (l.pendingToHubPool - x.amount).toNat = l.pendingToHubPool.toNat - x.amount.toNat :=
      BitVec.toNat_sub_of_le hle
    simp [returned, bridged, pending, hl, pendingOf, hsub]
    omega
  · rename_i hm
    simp [returned, bridged, Ne.symm hm]

/-- The loop pays or defers each entry, whatever is listed twice. -/
theorem refunded_shares {vault : Pubkey} {rs : List (Pubkey × U64)} (h : Refunded mint vault b rs b') (m a : Pubkey) :
    ∃ t, b'.trace = b.trace ++ t ∧ (if m = mint then share a rs else 0) + held b m a =
      total (transfersTo .refund m a) t + held b' m a := by
  induction h with
  | nil b => exact ⟨[], (List.append_nil _).symm, by simp [share]⟩
  | @direct b b' account amount rs w h ih =>
      obtain ⟨t, ht, hsum⟩ := ih
      refine ⟨_ :: t, by rw [ht, List.append_assoc]; rfl, ?_⟩
      rw [total_cons, transfersTo_self, share_cons]
      change (if m = mint then share a rs else 0) + held b m a = _ at hsum
      by_cases hm : m = mint
      · by_cases ha : a = account
        · simp only [hm, ha, and_self, if_true] at hsum ⊢
          omega
        · simp only [hm, ha, and_false, if_true, if_false] at hsum ⊢
          omega
      · simp only [hm, false_and, if_false] at hsum ⊢
        omega
  | @deferred b b' account amount rs c hc hlt h ih =>
      obtain ⟨t, ht, hsum⟩ := ih
      rw [wroteClaim, List.append_nil] at ht
      refine ⟨t, ht, ?_⟩
      have hadd : (c.amount + amount).toNat = c.amount.toNat + amount.toNat := BitVec.toNat_add_of_lt hlt
      rw [held_wroteClaim] at hsum
      rw [share_cons]
      by_cases hm : m = mint
      · by_cases ha : a = account
        · subst hm ha
          have hheld : held b m a = c.amount.toNat := by rw [held, hc, amountOf]
          simp only [and_self, if_true, amountOf, hadd] at hsum ⊢
          omega
        · simp only [hm, ha, and_false, if_true, if_false] at hsum ⊢
          omega
      · simp only [hm, false_and, if_false] at hsum ⊢
        omega

theorem total_refunded {vault : Pubkey} {t : List Item} {f : Item → Nat}
    (ht : ∀ y ∈ t, ∃ account amount, y = .transferred .refund mint vault account amount)
    (hf : ∀ account amount, f (.transferred .refund mint vault account amount) = 0) : total f t = 0 := by
  apply total_quiet
  intro y hy
  obtain ⟨account, amount, rfl⟩ := ht y hy
  exact hf account amount

theorem executed_parts {x : ExecuteRelayerRefundLeaf} (h : Executed x b b') : ∃ t₀ t₁ d,
    b'.trace = b.trace ++ (t₀ ++ t₁ ++
      [.emitted (.executedRelayerRefundRoot x.rootBundleId x.relayerRefundLeaf d x.signer)]) ∧
    (∀ y ∈ t₀, Quiet y) ∧ (∀ y ∈ t₁, ∃ account amount, y = .transferred .refund x.mint x.vault account amount) ∧
    ∀ m a, (if m = x.mint then share a
      (x.relayerRefundLeaf.refundAccounts.zip x.relayerRefundLeaf.refundAmounts) else 0) +
      held b m a = total (transfersTo .refund m a) t₁ + held b' m a := by
  obtain ⟨c, c', hc, hc', hpaid, ⟨t₀, ht₀, hall⟩, d, hd⟩ := h.refunds
  obtain ⟨t₁, ht₁, hrefund⟩ := hpaid.trace
  refine ⟨t₀, t₁, d, ?_, ?_, hrefund, fun m a => ?_⟩
  · rw [hd, ht₁, ht₀, List.append_assoc, List.append_assoc, List.append_assoc]
  · intro y hy
    rcases hall y hy with rfl | rfl <;> trivial
  · obtain ⟨t₂, ht₂, hsum⟩ := refunded_shares hpaid m a
    obtain rfl := List.append_cancel_left (ht₁.symm.trans ht₂)
    rw [held, held, hc, hc'] at hsum
    exact hsum

theorem executeRelayerRefundLeaf_books {x : ExecuteRelayerRefundLeaf} (h : Ok (executeRelayerRefundLeaf R x) b u b') :
    ∃ t, Books b b' t := by
  have hx := executeRelayerRefundLeaf_ok h
  obtain ⟨t₀, t₁, d, ht, hquiet, hrefund, hsum⟩ := executed_parts hx
  have hzero : ∀ {f : Item → Nat}, (∀ y, Quiet y → f y = 0) → total f t₀ = 0 := fun hf =>
    total_quiet fun y hy => hf y (hquiet y hy)
  refine ⟨_, ht, ?_, fun m a => ?_, fun m => ?_⟩
  · intro y hy
    rcases List.mem_append.mp hy with hy | hy
    · rcases List.mem_append.mp hy with hy | hy
      · exact (hquiet y hy).paired
      · obtain ⟨_, _, rfl⟩ := hrefund y hy
        trivial
    · rw [List.mem_singleton.mp hy]
      exact hx.lengths
  · have hlisted : total (refundsTo m a) t₁ = 0 := total_refunded hrefund fun _ _ => rfl
    have hclaimed : total (transfersTo .claim m a) t₁ = 0 := total_refunded hrefund fun _ _ => by simp [transfersTo]
    have hm := hsum m a
    simp only [total_append, total_cons, total_nil, hlisted, hclaimed, hzero fun y hy => hy.refundsTo m a,
      hzero fun y hy => hy.transfersTo (.inl rfl) m a, hzero fun y hy => hy.transfersTo (.inr rfl) m a]
    simp only [refundsTo, transfersTo, ← hx.mint, eq_comm (b := m)] at hm ⊢
    omega
  · obtain ⟨l, hl, hlt, hb⟩ := hx.liability
    have hreturned : total (returned m) t₁ = 0 := total_refunded hrefund fun _ _ => rfl
    have hbridged : total (bridged m) t₁ = 0 := total_refunded hrefund fun _ _ => rfl
    have hadd : (l.pendingToHubPool + x.relayerRefundLeaf.amountToReturn).toNat =
        l.pendingToHubPool.toNat + x.relayerRefundLeaf.amountToReturn.toNat := BitVec.toNat_add_of_lt hlt
    simp only [total_append, total_cons, total_nil, hreturned, hbridged, hzero fun y hy => hy.returned m,
      hzero fun y hy => hy.bridged m, pending_update m hb]
    simp only [returned, bridged, ← hx.mint, eq_comm (b := m), hadd]
    split
    · rename_i hm
      have hold : pending b m = l.pendingToHubPool.toNat := by
        rw [pending, hm]
        rcases hl with hl | ⟨hl, rfl⟩
        · rw [hl, pendingOf]
        · rw [hl]
          rfl
      omega
    · omega

theorem process_books {ix : Instruction} (h : Ok (process R ix) b u b') : ∃ t, Books b b' t := by
  cases ix with
  | fillV3Relay x =>
      obtain ⟨-, -, _, -, -, _, t, p, rfl, hp, rfl⟩ := fillV3Relay_ok h
      refine ⟨_, .of_quiet rfl rfl rfl fun y hy => ?_⟩
      rcases List.mem_append.mp hy with hy | hy
      · rcases List.mem_append.mp hy with hy | hy
        · rw [mem_opening hy]
          trivial
        · rcases hp with rfl | rfl
          · cases hy
          · rw [List.mem_singleton.mp hy]
            trivial
      · rw [List.mem_singleton.mp hy]
        trivial
  | closeFillPda x =>
      obtain ⟨-, -, _, -, -, _, rfl⟩ := closeFillPda_ok h
      exact ⟨_, .of_quiet rfl rfl rfl (by simp [Quiet])⟩
  | requestV3SlowFill x =>
      obtain ⟨-, -, _, -, -, _, t, rfl, rfl⟩ := requestV3SlowFill_ok h
      refine ⟨_, .of_quiet rfl rfl rfl fun y hy => ?_⟩
      rcases List.mem_append.mp hy with hy | hy
      · rw [mem_opening hy]
        trivial
      · rw [List.mem_singleton.mp hy]
        trivial
  | executeV3SlowRelayLeaf x =>
      obtain ⟨-, -, _, -, -, _, rfl⟩ := executeV3SlowRelayLeaf_ok h
      exact ⟨_, .of_quiet rfl rfl rfl (by simp [Quiet])⟩
  | executeRelayerRefundLeaf x => exact executeRelayerRefundLeaf_books h
  | initializeClaimAccount x => exact initializeClaimAccount_books h
  | claimRelayerRefund x => exact claimRelayerRefund_books h
  | closeClaimAccount x => exact closeClaimAccount_books h
  | bridgeTokensToHubPool x => exact bridgeTokensToHubPool_books h
  | relayRootBundle x =>
      obtain ⟨-, -, _, rfl⟩ := relayRootBundle_ok h
      exact ⟨_, .of_quiet rfl rfl rfl (by simp [Quiet])⟩
  | emergencyDeleteRootBundle x =>
      obtain ⟨-, _, rfl⟩ := emergencyDeleteRootBundle_ok h
      exact ⟨_, .of_quiet rfl rfl rfl (by simp [Quiet])⟩
  | pauseFills x =>
      obtain rfl := pauseFills_ok h
      exact ⟨_, .of_quiet rfl rfl rfl (by simp [Quiet])⟩

theorem input_books {i : Input W} (h : Ok (input R i) b u b') : ∃ t, Books b b' t := by
  rcases input_ok h with ⟨ix, -, hp⟩ | ⟨w, rfl⟩
  · obtain ⟨t, ht⟩ := process_books hp
    exact ⟨t, ht.trace, ht.paired, ht.refunds, ht.returns⟩
  · exact ⟨[], .of_quiet rfl rfl (List.append_nil _).symm fun _ hy => absurd hy List.not_mem_nil⟩

end Steps

section Theorems

theorem finsum_refundsTo {y : Item} (hy : Paired y) (m : Pubkey) : ∑ᶠ a, refundsTo m a y = refunds m y := by
  unfold refundsTo refunds
  split
  · split
    · rw [finsum_share]
      have hsnd := congrArg (List.map BitVec.toNat) (List.map_snd_zip (Nat.le_of_eq (Eq.symm hy)))
      rw [List.map_map] at hsnd
      exact congrArg List.sum hsnd
    · exact finsum_zero
  · exact finsum_zero

theorem finsum_transfersTo (p : Purpose) (m : Pubkey) (y : Item) : ∑ᶠ a, transfersTo p m a y = transfers p m y := by
  unfold transfersTo transfers
  split
  · rename_i q n _ dst amount
    by_cases h : q = p ∧ n = m
    · simp only [h.1, h.2, true_and, and_self, if_true]
      exact finsum_ite dst amount.toNat
    · rw [if_neg h]
      have hne : ∀ a, ¬ (q = p ∧ n = m ∧ dst = a) := fun a ha => h ⟨ha.1, ha.2.1⟩
      simp only [hne, if_false, finsum_zero]
  · exact finsum_zero

end Theorems

end Across.SvmRefunds
