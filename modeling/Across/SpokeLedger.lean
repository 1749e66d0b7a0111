import Across.SpokePool
import Mathlib.Data.List.Basic

namespace Across.SpokeLedger

open Abi Keccak MerkleProof SpokeTypes SpokeState SpokePool

section Bitmap

variable (bitmap : Nat → Nat) (i j : Nat)

theorem testBit_mask : (1 <<< i).testBit j = decide (i = j) := by
  rw [Nat.one_shiftLeft, Nat.testBit_two_pow]

theorem isClaimed_eq : isClaimed bitmap i = (bitmap (i / 256)).testBit (i % 256) := by
  rw [isClaimed, Bool.eq_iff_iff, decide_eq_true_iff]
  constructor
  · intro h
    have hbit := congrArg (fun x => Nat.testBit x (i % 256)) h
    simpa only [Nat.testBit_and, testBit_mask, decide_true, Bool.and_true] using hbit
  · intro h
    apply Nat.eq_of_testBit_eq
    intro k
    rw [Nat.testBit_and, testBit_mask]
    by_cases hk : i % 256 = k
    · subst hk
      rw [h, Bool.true_and]
    · simp only [hk, decide_false, Bool.and_false]

theorem isClaimed_setClaimed : isClaimed (setClaimed bitmap i) j = (isClaimed bitmap j || decide (j = i)) := by
  rw [isClaimed_eq, isClaimed_eq, setClaimed]
  by_cases hd : j / 256 = i / 256
  · rw [hd, Function.update_self, Nat.testBit_or, testBit_mask]
    congr 1
    rw [Bool.eq_iff_iff, decide_eq_true_iff, decide_eq_true_iff]
    omega
  · rw [Function.update_of_ne hd, decide_eq_false fun h => hd (by rw [h]), Bool.or_false]

end Bitmap

/-- The part of the storage that the pool's events account for. -/
structure Ledger where
  rootBundles : List RootBundle
  numberOfDeposits : Uint32

def ledger (p : Storage) : Ledger := ⟨p.rootBundles, p.numberOfDeposits⟩

def isSafeDeposit : Call → Bool
  | .deposit _ | .depositFor _ | .depositV3 _ | .depositV3Now _ _ | .depositExclusive _ => true
  | _ => false

/-- One entry of the ledger: an event of the history with the change it accounts
for. `Made` are the calls that can be the origin of an entry. -/
inductive Posts (Made : Msg → Call → Prop) : Ledger → TraceItem → Ledger → Prop
  | relayed {L : Ledger} (r s : Bytes32) :
      Posts Made L (.event (.relayRootBundle r s) (.relayedRootBundle (BitVec.ofNat 32 L.rootBundles.length) r s))
        { L with rootBundles := L.rootBundles ++ [⟨s, r, fun _ => 0⟩] }
  | deleted {L : Ledger} {i : Uint256} (hi : i.toNat < L.rootBundles.length) :
      Posts Made L (.event (.emergencyDeleteRootBundle i) (.emergencyDeleteRootBundle i))
        { L with rootBundles := L.rootBundles.modify i.toNat fun b => ⟨0, 0, b.claimedBitmap⟩ }
  | executed {L : Ledger} {b : RootBundle} {i : Uint32} {leaf : RelayerRefundLeaf} {proof : List Bytes32} {msg : Msg}
      (hm : Made msg (.executeRelayerRefundLeaf i leaf proof)) (hb : L.rootBundles[i.toNat]? = some b)
      (hv : verifyRelayerRefund b.relayerRefundRoot leaf proof = true)
      (hc : isClaimed b.claimedBitmap leaf.leafId.toNat = false) :
      Posts Made L (.event (.executeRelayerRefundLeaf i leaf proof) (.executedRelayerRefundRoot i leaf msg.sender))
        { L with
          rootBundles := L.rootBundles.modify i.toNat fun b =>
            { b with claimedBitmap := setClaimed b.claimedBitmap leaf.leafId.toNat } }
  | deposited {L : Ledger} {call : Call} {e : V3FundsDeposited} (hs : isSafeDeposit call = true)
      (hn : L.numberOfDeposits.toNat + 1 < 2 ^ 32) (hid : e.depositId = L.numberOfDeposits.setWidth 256) :
      Posts Made L (.event call (.v3FundsDeposited e)) { L with numberOfDeposits := L.numberOfDeposits + 1 }
  | depositedUnsafe {L : Ledger} {d : DepositV3} {n : Uint256} {msg : Msg} {e : V3FundsDeposited}
      (hm : Made msg (.unsafeDepositV3 d n)) (hid : e.depositId = getUnsafeDepositId msg.sender d.depositor n) :
      Posts Made L (.event (.unsafeDepositV3 d n) (.v3FundsDeposited e)) L

def isEntry : TraceItem → Bool
  | .event _ (.relayedRootBundle _ _ _) | .event _ (.emergencyDeleteRootBundle _)
  | .event _ (.executedRelayerRefundRoot _ _ _) | .event _ (.v3FundsDeposited _) => true
  | _ => false

/-- A stretch of history leads from one ledger to another. -/
inductive Posted (Made : Msg → Call → Prop) : Ledger → List TraceItem → Ledger → Prop
  | nil (L : Ledger) : Posted Made L [] L
  | skip {L L' : Ledger} {x : TraceItem} {t : List TraceItem} (hx : isEntry x = false) (h : Posted Made L t L') :
      Posted Made L (x :: t) L'
  | post {L L₁ L' : Ledger} {x : TraceItem} {t : List TraceItem} (hx : Posts Made L x L₁)
      (h : Posted Made L₁ t L') : Posted Made L (x :: t) L'

section Posted

variable {Made : Msg → Call → Prop} {L L₁ L' L'' : Ledger} {x : TraceItem} {t t' : List TraceItem}

theorem Posts.isEntry (h : Posts Made L x L') : isEntry x = true := by
  cases h <;> rfl

theorem Posted.append (h : Posted Made L t L') (h' : Posted Made L' t' L'') : Posted Made L (t ++ t') L'' := by
  induction h with
  | nil L => exact h'
  | skip hx _ ih => exact .skip hx (ih h')
  | post hx _ ih => exact .post hx (ih h')

theorem Posted.quiet (L : Ledger) (ht : ∀ x ∈ t, isEntry x = false) : Posted Made L t L := by
  induction t with
  | nil => exact .nil L
  | cons x t ih => exact .skip (ht x List.mem_cons_self) (ih fun y hy => ht y (List.mem_cons_of_mem _ hy))

theorem Posted.of_quiet (h : Posted Made L t L') (ht : ∀ x ∈ t, SpokeLedger.isEntry x = false) : L' = L := by
  induction h with
  | nil L => rfl
  | skip hx _ ih => exact ih fun y hy => ht y (List.mem_cons_of_mem _ hy)
  | post hx _ ih =>
      have hq := ht _ List.mem_cons_self
      rw [hx.isEntry] at hq
      cases hq

theorem Posted.split {t₁ t₂ : List TraceItem} (h : Posted Made L (t₁ ++ t₂) L') :
    ∃ M, Posted Made L t₁ M ∧ Posted Made M t₂ L' := by
  induction t₁ generalizing L with
  | nil => exact ⟨L, .nil L, h⟩
  | cons y t₁ ih =>
      cases h with
      | skip hy h =>
          obtain ⟨M, h₁, h₂⟩ := ih h
          exact ⟨M, .skip hy h₁, h₂⟩
      | post hy h =>
          obtain ⟨M, h₁, h₂⟩ := ih h
          exact ⟨M, .post hy h₁, h₂⟩

end Posted

section Bundles

variable {Made : Msg → Call → Prop} {L L' : Ledger} {x : TraceItem} {t : List TraceItem} {b b' b'' : RootBundle}

/-- What can become of a root bundle. Its index is its own for good: the roots
stay until they are deleted, and a claimed leaf stays claimed. -/
structure Kept (b b' : RootBundle) : Prop where
  roots : b'.relayerRefundRoot = b.relayerRefundRoot ∧ b'.slowRelayRoot = b.slowRelayRoot ∨
    b'.relayerRefundRoot = 0 ∧ b'.slowRelayRoot = 0
  claimed : ∀ l, isClaimed b.claimedBitmap l = true → isClaimed b'.claimedBitmap l = true

theorem Kept.refl (b : RootBundle) : Kept b b := ⟨.inl ⟨rfl, rfl⟩, fun _ h => h⟩

theorem Kept.trans (h : Kept b b') (h' : Kept b' b'') : Kept b b'' := by
  refine ⟨?_, fun l hl => h'.claimed l (h.claimed l hl)⟩
  rcases h'.roots with ⟨hr, hs⟩ | hz
  · rw [hr, hs]
    exact h.roots
  · exact .inr hz

theorem exists_kept_modify {f : RootBundle → RootBundle} (hf : ∀ b, Kept b (f b)) {bs : List RootBundle} {i k : Nat}
    (hb : bs[k]? = some b) : ∃ b', (bs.modify i f)[k]? = some b' ∧ Kept b b' := by
  by_cases hik : i = k
  · exact ⟨f b, by simp [hb, hik], hf b⟩
  · exact ⟨b, by simp [hb, hik], .refl b⟩

theorem deleted_kept (b : RootBundle) : Kept b ⟨0, 0, b.claimedBitmap⟩ := ⟨.inr ⟨rfl, rfl⟩, fun _ h => h⟩

theorem claimed_kept (l : Nat) (b : RootBundle) : Kept b { b with claimedBitmap := setClaimed b.claimedBitmap l } := by
  refine ⟨.inl ⟨rfl, rfl⟩, fun k hk => ?_⟩
  rw [isClaimed_setClaimed, hk, Bool.true_or]

theorem Posts.kept (h : Posts Made L x L') {k : Nat} (hb : L.rootBundles[k]? = some b) :
    ∃ b', L'.rootBundles[k]? = some b' ∧ Kept b b' := by
  cases h with
  | relayed r s =>
      refine ⟨b, ?_, .refl b⟩
      rw [List.getElem?_append_left (List.getElem?_eq_some_iff.mp hb).1]
      exact hb
  | deleted _ => exact exists_kept_modify deleted_kept hb
  | executed _ _ _ _ => exact exists_kept_modify (claimed_kept _) hb
  | deposited _ _ _ | depositedUnsafe _ _ => exact ⟨b, hb, .refl b⟩

theorem Posted.kept (h : Posted Made L t L') {k : Nat} (hb : L.rootBundles[k]? = some b) :
    ∃ b', L'.rootBundles[k]? = some b' ∧ Kept b b' := by
  induction h generalizing b with
  | nil L => exact ⟨b, hb, .refl b⟩
  | skip _ _ ih => exact ih hb
  | post hx _ ih =>
      obtain ⟨b₁, hb₁, hk₁⟩ := hx.kept hb
      obtain ⟨b₂, hb₂, hk₂⟩ := ih hb₁
      exact ⟨b₂, hb₂, hk₁.trans hk₂⟩

def relays (t : List TraceItem) : Nat :=
  t.countP fun
    | .event _ (.relayedRootBundle _ _ _) => true
    | _ => false

theorem Posted.length_eq (h : Posted Made L t L') : L'.rootBundles.length = L.rootBundles.length + relays t := by
  induction h with
  | nil L => rfl
  | @skip L L' x t hx _ ih =>
      rw [ih, relays, relays, List.countP_cons_of_neg]
      intro hr
      cases x with
      | event call e =>
          cases e with
          | relayedRootBundle _ _ _ => cases hx
          | _ => cases hr
      | _ => cases hr
  | @post L L₁ L' x t hx _ ih =>
      rw [ih]
      cases hx with
      | relayed r s =>
          simp only [relays, List.countP_cons, List.length_append, List.length_singleton, if_true]
          omega
      | deleted _ | executed _ _ _ _ => simp [relays]
      | deposited _ _ _ | depositedUnsafe _ _ => simp [relays]

theorem Posted.relayed (h : Posted Made L t L') {t₁ t₂ : List TraceItem} {call : Call} {id : Uint32} {r s : Bytes32}
    (ht : t = t₁ ++ .event call (.relayedRootBundle id r s) :: t₂) :
    id = BitVec.ofNat 32 (L.rootBundles.length + relays t₁) ∧
      ∃ b', L'.rootBundles[L.rootBundles.length + relays t₁]? = some b' ∧ Kept ⟨s, r, fun _ => 0⟩ b' := by
  rw [ht] at h
  obtain ⟨M, h₁, h⟩ := h.split
  rw [← h₁.length_eq]
  cases h with
  | skip hx _ => cases hx
  | post hx h =>
      cases hx with
      | relayed =>
          refine ⟨rfl, h.kept ?_⟩
          exact List.getElem?_concat_length

/-- The executions of leaf `l` of bundle `i` in a stretch of history. -/
def executions (i l : Uint32) (t : List TraceItem) : List RelayerRefundLeaf :=
  t.filterMap fun
    | .event _ (.executedRelayerRefundRoot j leaf _) => if j = i ∧ leaf.leafId = l then some leaf else none
    | _ => none

variable {i l : Uint32}

theorem executions_skip (hx : isEntry x = false) : executions i l (x :: t) = executions i l t := by
  apply List.filterMap_cons_none
  cases x with
  | event call e =>
      cases e with
      | executedRelayerRefundRoot _ _ _ => cases hx
      | _ => rfl
  | _ => rfl

theorem executions_quiet (ht : ∀ x ∈ t, isEntry x = false) : executions i l t = [] := by
  induction t with
  | nil => rfl
  | cons x t ih =>
      rw [executions_skip (ht x List.mem_cons_self)]
      exact ih fun y hy => ht y (List.mem_cons_of_mem _ hy)

def Claimed (L : Ledger) (i l : Uint32) : Prop :=
  ∃ b, L.rootBundles[i.toNat]? = some b ∧ isClaimed b.claimedBitmap l.toNat = true

theorem Posts.claimed (h : Posts Made L x L') (hc : Claimed L i l) : Claimed L' i l := by
  obtain ⟨b, hb, hc⟩ := hc
  obtain ⟨b', hb', hk⟩ := h.kept hb
  exact ⟨b', hb', hk.claimed _ hc⟩

theorem Posts.executes (h : Posts Made L x L') :
    executions i l (x :: t) = executions i l t ∨
      ∃ leaf, executions i l (x :: t) = leaf :: executions i l t ∧ ¬ Claimed L i l ∧ Claimed L' i l := by
  cases h with
  | @executed b j leaf proof msg hm hb hv hc =>
      by_cases hj : j = i ∧ leaf.leafId = l
      · obtain ⟨rfl, rfl⟩ := hj
        refine .inr ⟨leaf, by simp [executions], ?_, ?_⟩
        · rintro ⟨b', hb', hc'⟩
          rw [hb] at hb'
          obtain rfl := Option.some.inj hb'
          rw [hc] at hc'
          cases hc'
        · refine ⟨{ b with claimedBitmap := setClaimed b.claimedBitmap leaf.leafId.toNat }, ?_, ?_⟩
          · simp [hb]
          · rw [isClaimed_setClaimed, decide_eq_true rfl, Bool.or_true]
      · exact .inl (by simp [executions, hj])
  | relayed _ _ | deleted _ | deposited _ _ _ | depositedUnsafe _ _ => exact .inl rfl

theorem Posted.executions_of_claimed (h : Posted Made L t L') (hc : Claimed L i l) : executions i l t = [] := by
  induction h with
  | nil L => rfl
  | skip hx _ ih =>
      rw [executions_skip hx]
      exact ih hc
  | post hx _ ih =>
      rcases hx.executes with he | ⟨_, _, hn, _⟩
      · rw [he]
        exact ih (hx.claimed hc)
      · exact absurd hc hn

theorem Posted.executions_once (h : Posted Made L t L') : (executions i l t).length ≤ 1 := by
  induction h with
  | nil L => exact Nat.zero_le 1
  | skip hx _ ih =>
      rw [executions_skip hx]
      exact ih
  | post hx ht ih =>
      rcases hx.executes with he | ⟨leaf, he, _, hc⟩
      · rw [he]
        exact ih
      · rw [he, ht.executions_of_claimed hc]
        exact le_rfl

/-- A bundle without a refund root, as deletion leaves it. -/
def Deleted (L : Ledger) (k : Nat) : Prop := ∃ b, L.rootBundles[k]? = some b ∧ b.relayerRefundRoot = 0

theorem Posts.deleted_kept (h : Posts Made L x L') {k : Nat} (hd : Deleted L k) : Deleted L' k := by
  obtain ⟨b, hb, hz⟩ := hd
  obtain ⟨b', hb', hk⟩ := h.kept hb
  refine ⟨b', hb', ?_⟩
  rcases hk.roots with ⟨hr, -⟩ | ⟨hr, -⟩
  · rw [hr, hz]
  · exact hr

/-- Whoever executes a leaf of a deleted bundle has a proof for the zero root. -/
theorem Posted.forged_of_deleted (h : Posted Made L t L') (hd : Deleted L i.toNat) {leaf : RelayerRefundLeaf}
    (hl : leaf ∈ executions i l t) :
    ∃ msg proof, Made msg (.executeRelayerRefundLeaf i leaf proof) ∧ verifyRelayerRefund 0 leaf proof = true := by
  induction h with
  | nil L => exact absurd hl List.not_mem_nil
  | skip hx _ ih =>
      rw [executions_skip hx] at hl
      exact ih hd hl
  | @post L L₁ L' x t hx _ ih =>
      by_cases hin : leaf ∈ executions i l t
      · exact ih (hx.deleted_kept hd) hin
      · cases hx with
        | @executed b j leaf' proof msg hm hb hv hc =>
            by_cases hj : j = i ∧ leaf'.leafId = l
            · obtain ⟨rfl, rfl⟩ := hj
              have he : leaf = leaf' := by
                simp only [executions, List.filterMap_cons, and_self, if_true, List.mem_cons] at hl
                exact hl.resolve_right hin
              subst he
              obtain ⟨b', hb', hz⟩ := hd
              rw [hb] at hb'
              obtain rfl := Option.some.inj hb'
              rw [hz] at hv
              exact ⟨msg, proof, hm, hv⟩
            · simp only [executions, List.filterMap_cons, if_neg hj] at hl
              exact absurd hl hin
        | relayed _ _ | deleted _ | deposited _ _ _ | depositedUnsafe _ _ => exact absurd hl hin

theorem Posted.deleted (h : Posted Made L t L') {t₁ t₂ : List TraceItem} {call : Call} {j : Uint256}
    (ht : t = t₁ ++ .event call (.emergencyDeleteRootBundle j) :: t₂) :
    ∃ M, Deleted M j.toNat ∧ Posted Made M t₂ L' := by
  rw [ht] at h
  obtain ⟨M, -, h⟩ := h.split
  cases h with
  | skip hx _ => cases hx
  | post hx h =>
      refine ⟨_, ?_, h⟩
      cases hx with
      | deleted hj =>
          obtain ⟨b, hb⟩ : ∃ b, M.rootBundles[j.toNat]? = some b := ⟨_, List.getElem?_eq_getElem hj⟩
          exact ⟨⟨0, 0, b.claimedBitmap⟩, by simp [hb], rfl⟩

end Bundles

section Deposits

variable {Made : Msg → Call → Prop} {L L' : Ledger} {x : TraceItem} {t : List TraceItem}

def safeIds (t : List TraceItem) : List Uint256 :=
  t.filterMap fun
    | .event call (.v3FundsDeposited e) => if isSafeDeposit call = true then some e.depositId else none
    | _ => none

theorem safeIds_skip (hx : isEntry x = false) : safeIds (x :: t) = safeIds t := by
  apply List.filterMap_cons_none
  cases x with
  | event call e =>
      cases e with
      | v3FundsDeposited _ => cases hx
      | _ => rfl
  | _ => rfl

theorem Posts.safeIds (h : Posts Made L x L') :
    SpokeLedger.safeIds (x :: t) = SpokeLedger.safeIds t ∧ L'.numberOfDeposits = L.numberOfDeposits ∨
      L.numberOfDeposits.toNat + 1 < 2 ^ 32 ∧ L'.numberOfDeposits = L.numberOfDeposits + 1 ∧
        SpokeLedger.safeIds (x :: t) = L.numberOfDeposits.setWidth 256 :: SpokeLedger.safeIds t := by
  cases h with
  | deposited hs hn hid => exact .inr ⟨hn, rfl, by simp [SpokeLedger.safeIds, hs, hid]⟩
  | relayed _ _ | deleted _ | executed _ _ _ _ | depositedUnsafe _ _ => exact .inl ⟨rfl, rfl⟩

theorem Posted.safeIds_eq (h : Posted Made L t L') :
    (SpokeLedger.safeIds t).map BitVec.toNat = List.range' L.numberOfDeposits.toNat (SpokeLedger.safeIds t).length ∧
      L'.numberOfDeposits.toNat = L.numberOfDeposits.toNat + (SpokeLedger.safeIds t).length := by
  induction h with
  | nil L => exact ⟨rfl, rfl⟩
  | skip hx _ ih =>
      rw [safeIds_skip hx]
      exact ih
  | @post L L₁ L' x t hx _ ih =>
      rcases hx.safeIds with ⟨hi, hn⟩ | ⟨hn, hL, hi⟩
      · rw [hi, ← hn]
        exact ih
      · have hone : (L.numberOfDeposits + 1).toNat = L.numberOfDeposits.toNat + 1 := by
          rw [BitVec.toNat_add]
          exact Nat.mod_eq_of_lt hn
        have hw : (L.numberOfDeposits.setWidth 256).toNat = L.numberOfDeposits.toNat :=
          BitVec.toNat_setWidth_of_le (by decide)
        rw [hL, hone] at ih
        obtain ⟨hids, hcount⟩ := ih
        rw [hi, List.map_cons, List.length_cons, List.range'_succ, hids, hw]
        exact ⟨rfl, by omega⟩

theorem Posted.unsafeId (h : Posted Made L t L') {d : DepositV3} {n : Uint256} {e : V3FundsDeposited}
    (he : .event (.unsafeDepositV3 d n) (.v3FundsDeposited e) ∈ t) :
    ∃ msg, Made msg (.unsafeDepositV3 d n) ∧ e.depositId = getUnsafeDepositId msg.sender d.depositor n := by
  induction h with
  | nil L => exact absurd he List.not_mem_nil
  | skip hx _ ih =>
      rcases List.mem_cons.mp he with rfl | he
      · cases hx
      · exact ih he
  | post hx _ ih =>
      rcases List.mem_cons.mp he with rfl | he
      · cases hx with
        | depositedUnsafe hm hid => exact ⟨_, hm, hid⟩
        | deposited hs _ _ => cases hs
      · exact ih he

end Deposits

end Across.SpokeLedger
