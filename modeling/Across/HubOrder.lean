import Across.HubLegs
import Across.HubProposals

namespace Across.HubOrder

open Abi CallExec CallExec.Exec Erc20 Checked HubState HubPool HubRun HubRules HubRefine HubSteps HubLegs HubProposals
open ClaimedBits

/-- A call that executes a leaf, with what the adapter answers to it. -/
structure Execution where
  answers : Answers
  msg : Msg
  leaf : PoolRebalanceLeaf
  proof : List Bytes32

def execute (D : Deployment) (a : Execution) : HubCode Unit := executeRootBundle D a.answers a.msg a.leaf a.proof

def executeTwice (D : Deployment) (a b : Execution) : HubCode Unit := do
  execute D a
  execute D b

/-- Both fail, or both succeed with the same state but for the log, and with the
same bond paid out. -/
def SameOutcome (m m' : HubCode Unit) (w : World) : Prop :=
  ((∃ w₁, Ok m w () w₁) ↔ ∃ w₂, Ok m' w () w₂) ∧
    ∀ w₁ w₂, Ok m w () w₁ → Ok m' w () w₂ → SameState w₁ w₂ ∧ payouts w w₁ = payouts w w₂

section SameState

variable {D : Deployment} {w w' : World}

theorem releaseBond_same {a : Address} {u : Unit} {v : World} (hs : SameState w v) (h : Ok (releaseBond D a) w u w') :
    ∃ v', Ok (releaseBond D a) v u v' ∧ SameState w' v' := by
  obtain ⟨hc, x, hx, rfl⟩ := releaseBond_ok.mp h
  rw [← hs.hub, ← hs.code] at hc
  rw [← hs.hub, ← hs.tokens] at hx
  refine ⟨_, releaseBond_ok.mpr ⟨hc, x, hx, rfl⟩, hs.hub, ?_, hs.code, hs.lpTokens, hs.time⟩
  simp only [logged, putToken, hs.tokens, hs.hub]

end SameState

section Pairs

variable {D : Deployment} {a b : Execution} {w w' w'' : World} {u : Unit} {p : RootBundle} {ls : List Leg}

/-- What is checked of a leaf, but for its claim, is the same in two states. -/
structure SameChecks (w w' : World) : Prop where
  paused : w'.hub.paused = w.hub.paused
  contracts : w'.hub.crossChainContracts = w.hub.crossChainContracts
  deadline : w'.hub.rootBundleProposal.challengePeriodEndTimestamp =
    w.hub.rootBundleProposal.challengePeriodEndTimestamp
  root : w'.hub.rootBundleProposal.poolRebalanceRoot = w.hub.rootBundleProposal.poolRebalanceRoot
  code : w'.code = w.code
  time : w'.time = w.time

theorem SameChecks.symm (h : SameChecks w w') : SameChecks w' w :=
  ⟨h.paused.symm, h.contracts.symm, h.deadline.symm, h.root.symm, h.code.symm, h.time.symm⟩

theorem SameChecks.executable {A : Answers} {leaf : PoolRebalanceLeaf} {proof : List Bytes32} (hs : SameChecks w w')
    (h : Executable A leaf proof w) (hc : isClaimed1D w'.hub.rootBundleProposal.claimedBitMap leaf.leafId = false) :
    Executable A leaf proof w' where
  unpaused := by rw [hs.paused, h.unpaused]
  late := by
    rw [hs.deadline, hs.time]
    exact h.late
  unclaimed := hc
  proof := by rw [hs.root, h.proof]
  spokePool := by
    rw [hs.contracts]
    exact h.spokePool
  adapter := by rw [hs.contracts, hs.code, h.adapter]
  message := h.message

theorem sameChecks_moved {i n : Uint8}
    (h : Moved D (putProposal w (claim w.hub.rootBundleProposal i n)) ls w') : SameChecks w w' := by
  refine ⟨?_, ?_, ?_, ?_, h.code, h.time⟩
  all_goals
    rw [h.hub]
    rfl

def claimBoth (p : RootBundle) (i j n : Uint8) : RootBundle :=
  { p with claimedBitMap := setClaimed1D (setClaimed1D p.claimedBitMap i) j, unclaimedPoolRebalanceLeafCount := n }

/-- The execution of two leaves, without regard to their order: `w'` is the state
it leads to, up to the log. -/
structure Pair (D : Deployment) (a b : Execution) (w w' : World) : Prop where
  first : Executable a.answers a.leaf a.proof w
  second : Executable b.answers b.leaf b.proof w
  ne : a.leaf.leafId ≠ b.leaf.leafId
  moves : ∃ ls ms n v, n.toNat + 2 = w.hub.rootBundleProposal.unclaimedPoolRebalanceLeafCount.toNat ∧
    Legs D a.answers a.leaf w ls ∧ Legs D b.answers b.leaf w ms ∧
    Moved D (putProposal w (claimBoth w.hub.rootBundleProposal a.leaf.leafId b.leaf.leafId n)) (ls ++ ms) v ∧
    (n ≠ 0 ∧ v = w' ∨ n = 0 ∧ Ok (releaseBond D w.hub.rootBundleProposal.proposer) v () w')

theorem Pair.symm (h : Pair D a b w w') : Pair D b a w w' := by
  obtain ⟨ls, ms, n, v, hn, hl, hm, hv, hr⟩ := h.moves
  refine ⟨h.second, h.first, h.ne.symm, ms, ls, n, v, hn, hm, hl, ?_, hr⟩
  have hclaim : claimBoth w.hub.rootBundleProposal b.leaf.leafId a.leaf.leafId n =
      claimBoth w.hub.rootBundleProposal a.leaf.leafId b.leaf.leafId n := by
    rw [claimBoth, claimBoth, setClaimed1D_comm]
  rw [hclaim]
  exact hv.perm List.perm_append_comm

theorem legs_putProposal {A : Answers} {leaf : PoolRebalanceLeaf} :
    Legs D A leaf (putProposal w p) ls ↔ Legs D A leaf w ls := by
  refine and_congr_right fun _ => ?_
  constructor
  · exact fun h => h.imp fun _ _ h => ⟨h.token, h.route, h.bridge, h.sent, h.product, h.protocolFees, h.lpFees⟩
  · exact fun h => h.imp fun _ _ h => ⟨h.token, h.route, h.bridge, h.sent, h.product, h.protocolFees, h.lpFees⟩

theorem noWrap_putProposal {leaf : PoolRebalanceLeaf} (h : NoWrap w leaf) : NoWrap (putProposal w p) leaf := h

section First

variable {v : World} {m n : Uint8} {ms : List Leg}

/-- The second leaf finds the proposal as the claim of the first one left it. -/
theorem proposal_of_first (hv : Moved D (putProposal w (claim w.hub.rootBundleProposal a.leaf.leafId n)) ls v) :
    v.hub.rootBundleProposal = claim w.hub.rootBundleProposal a.leaf.leafId n := by
  rw [hv.hub]
  rfl

theorem claim_after_first (hv : Moved D (putProposal w (claim w.hub.rootBundleProposal a.leaf.leafId n)) ls v) :
    claim (logged v (.rootBundleExecuted a.leaf a.msg.sender)).hub.rootBundleProposal b.leaf.leafId m =
      claimBoth w.hub.rootBundleProposal a.leaf.leafId b.leaf.leafId m := by
  change claim v.hub.rootBundleProposal _ _ = _
  rw [proposal_of_first hv]
  rfl

theorem proposer_after_first (hv : Moved D (putProposal w (claim w.hub.rootBundleProposal a.leaf.leafId n)) ls v) :
    (logged v (.rootBundleExecuted a.leaf a.msg.sender)).hub.rootBundleProposal.proposer =
      w.hub.rootBundleProposal.proposer := by
  change v.hub.rootBundleProposal.proposer = _
  rw [proposal_of_first hv]
  rfl

theorem count_after_first (hv : Moved D (putProposal w (claim w.hub.rootBundleProposal a.leaf.leafId n)) ls v) :
    (logged v (.rootBundleExecuted a.leaf a.msg.sender)).hub.rootBundleProposal.unclaimedPoolRebalanceLeafCount =
      n := by
  change v.hub.rootBundleProposal.unclaimedPoolRebalanceLeafCount = _
  rw [proposal_of_first hv]
  rfl

theorem moved_after_first (hv : Moved D (putProposal w (claim w.hub.rootBundleProposal a.leaf.leafId n)) ls v)
    (p : RootBundle) :
    Moved D (putProposal w p) ls (putProposal (logged v (.rootBundleExecuted a.leaf a.msg.sender)) p) :=
  (hv.logged _).putProposal p

theorem noWrap_after_first (hv : Moved D (putProposal w (claim w.hub.rootBundleProposal a.leaf.leafId n)) ls v)
    (hb : NoWrap w b.leaf) :
    NoWrap (putProposal (logged v (.rootBundleExecuted a.leaf a.msg.sender)) p) b.leaf :=
  NoWrap.moved (noWrap_putProposal (noWrap_putProposal hb)) (moved_after_first hv p)

theorem legs_after_first (hv : Moved D (putProposal w (claim w.hub.rootBundleProposal a.leaf.leafId n)) ls v) :
    Legs D b.answers b.leaf (putProposal (logged v (.rootBundleExecuted a.leaf a.msg.sender)) p) ms ↔
      Legs D b.answers b.leaf w ms :=
  (Legs.moved (moved_after_first hv p)).trans (legs_putProposal.trans legs_putProposal)

end First

theorem pair_of_ok (ha : NoWrap w a.leaf) (hb : NoWrap w b.leaf) (h : Ok (executeTwice D a b) w u w') :
    ∃ w₁, Pair D a b w w₁ ∧ SameState w₁ w' := by
  obtain ⟨_, w₁, h₁, h₂⟩ := (bind_ok _ _ _ _ _).mp h
  obtain ⟨he₁, n, v, v', hn, hsend, hrel, rfl⟩ := executeRootBundle_iff.mp h₁
  obtain ⟨he₂, m, x, x', hm, hsend', hrel', rfl⟩ := executeRootBundle_iff.mp h₂
  obtain ⟨ls, hls, hv⟩ := sendTokens_moved (noWrap_putProposal ha) hsend
  -- The second leaf needs one more to be claimed, so the first was not the last.
  have hne : n ≠ 0 := by
    rintro rfl
    rcases hrel with ⟨h0, -⟩ | ⟨-, hrel⟩
    · exact h0 rfl
    · obtain ⟨-, y, -, rfl⟩ := releaseBond_ok.mp hrel
      have hcount : v.hub.rootBundleProposal.unclaimedPoolRebalanceLeafCount = 0 := count_after_first hv
      change _ = v.hub.rootBundleProposal.unclaimedPoolRebalanceLeafCount.toNat at hm
      rw [hcount] at hm
      cases hm
  obtain rfl : v = v' := by
    rcases hrel with ⟨-, h⟩ | ⟨h0, -⟩
    · exact h
    · exact absurd h0 hne
  have hsame : SameChecks w v := sameChecks_moved hv
  have hunclaimed : isClaimed1D v.hub.rootBundleProposal.claimedBitMap b.leaf.leafId = false := he₂.unclaimed
  rw [proposal_of_first hv, claim, isClaimed1D_eq, getLsbD_setClaimed1D, Bool.or_eq_false_iff] at hunclaimed
  obtain ⟨hfree, hids⟩ := hunclaimed
  rw [← isClaimed1D_eq] at hfree
  have hne' : a.leaf.leafId ≠ b.leaf.leafId := by
    intro hab
    rw [hab, decide_eq_false_iff_not] at hids
    exact hids rfl
  have hlogged : SameChecks v (logged v (.rootBundleExecuted a.leaf a.msg.sender)) := ⟨rfl, rfl, rfl, rfl, rfl, rfl⟩
  have he₂' : Executable b.answers b.leaf b.proof v := hlogged.symm.executable he₂ he₂.unclaimed
  have hcount : m.toNat + 2 = w.hub.rootBundleProposal.unclaimedPoolRebalanceLeafCount.toNat := by
    rw [count_after_first hv] at hm
    change m.toNat + 1 = n.toNat at hm
    omega
  rw [claim_after_first hv] at hsend'
  obtain ⟨ms, hms, hx⟩ := sendTokens_moved (noWrap_after_first hv hb) hsend'
  have hmoved := (moved_after_first hv (claimBoth w.hub.rootBundleProposal a.leaf.leafId b.leaf.leafId m)).trans hx
  refine ⟨x', ⟨he₁, hsame.symm.executable he₂' hfree, hne', ls, ms, m, x, hcount, ?_, ?_, hmoved, ?_⟩,
    sameState_logged _ _⟩
  · exact legs_putProposal.mp hls
  · exact (legs_after_first hv).mp hms
  · rw [proposer_after_first hv] at hrel'
    exact hrel'

/-- Two leaves that can be executed are executed in either order. -/
theorem Pair.ok (h : Pair D a b w w') (ha : NoWrap w a.leaf) (hb : NoWrap w b.leaf) :
    ∃ w'', Ok (executeTwice D a b) w () w'' ∧ SameState w' w'' := by
  obtain ⟨ls, ms, m, x, hm, hls, hms, hx, hrel⟩ := h.moves
  obtain ⟨n, hn⟩ : ∃ n : Uint8, n.toNat + (1 : Uint8).toNat =
      w.hub.rootBundleProposal.unclaimedPoolRebalanceLeafCount.toNat := by
    apply exists_toNat_sub
    change 1 ≤ _
    omega
  change n.toNat + 1 = _ at hn
  have hne : n ≠ 0 := by
    rintro rfl
    change 0 + 1 = _ at hn
    omega
  have hfirst := hx.putProposal (claim w.hub.rootBundleProposal a.leaf.leafId n)
  obtain ⟨v, hsend, hv, hrest⟩ := sendTokens_legs (noWrap_putProposal ha) (legs_putProposal.mpr hls) hfirst
  have h₁ : Ok (execute D a) w () (logged v (.rootBundleExecuted a.leaf a.msg.sender)) :=
    executeRootBundle_iff.mpr ⟨h.first, n, v, v, hn, hsend, .inl ⟨hne, rfl⟩, rfl⟩
  have hvb := moved_after_first hv (claimBoth w.hub.rootBundleProposal a.leaf.leafId b.leaf.leafId m)
  have hleft : Moved D (putProposal (logged v (.rootBundleExecuted a.leaf a.msg.sender))
      (claimBoth w.hub.rootBundleProposal a.leaf.leafId b.leaf.leafId m)) (ms ++ []) x := by
    rw [List.append_nil]
    exact hvb.cancel hx
  obtain ⟨y, hsend', hy, -⟩ := sendTokens_legs (noWrap_after_first hv hb) ((legs_after_first hv).mpr hms) hleft
  have hxy : SameState x y := hx.unique (hvb.trans hy)
  have hcount : m.toNat + 1 =
      (logged v
        (.rootBundleExecuted a.leaf a.msg.sender)).hub.rootBundleProposal.unclaimedPoolRebalanceLeafCount.toNat := by
    rw [count_after_first hv]
    omega
  have hunclaimed : isClaimed1D v.hub.rootBundleProposal.claimedBitMap b.leaf.leafId = false := by
    rw [proposal_of_first hv, claim, isClaimed1D_eq, getLsbD_setClaimed1D, Bool.or_eq_false_iff, ← isClaimed1D_eq]
    exact ⟨h.second.unclaimed, decide_eq_false fun hc => h.ne (BitVec.eq_of_toNat_eq hc.symm)⟩
  have hlogged : SameChecks v (logged v (.rootBundleExecuted a.leaf a.msg.sender)) := ⟨rfl, rfl, rfl, rfl, rfl, rfl⟩
  have he₂ := hlogged.executable ((sameChecks_moved hv).executable h.second hunclaimed) hunclaimed
  have hpay : ∃ y', SameState w' y' ∧ (m ≠ 0 ∧ y = y' ∨ m = 0 ∧
      Ok (releaseBond D w.hub.rootBundleProposal.proposer) y () y') := by
    rcases hrel with ⟨h0, rfl⟩ | ⟨h0, hrel⟩
    · exact ⟨y, hxy, .inl ⟨h0, rfl⟩⟩
    · obtain ⟨y', hy', hs⟩ := releaseBond_same hxy hrel
      exact ⟨y', hs, .inr ⟨h0, hy'⟩⟩
  obtain ⟨y', hs, hpay⟩ := hpay
  rw [← claim_after_first hv] at hsend'
  rw [← proposer_after_first hv] at hpay
  have h₂ : Ok (execute D b) (logged v (.rootBundleExecuted a.leaf a.msg.sender)) ()
      (logged y' (.rootBundleExecuted b.leaf b.msg.sender)) :=
    executeRootBundle_iff.mpr ⟨he₂, m, y, y', hcount, hsend', hpay, rfl⟩
  exact ⟨_, (bind_ok _ _ _ _ _).mpr ⟨(), _, h₁, h₂⟩, hs.trans (sameState_logged _ _)⟩

theorem executeTwice_payouts (h : Ok (executeTwice D a b) w u w') :
    payouts w w' = if w.hub.rootBundleProposal.unclaimedPoolRebalanceLeafCount.toNat = 2 then
      [bondTo w w.hub.rootBundleProposal.proposer] else [] := by
  obtain ⟨_, w₁, h₁, h₂⟩ := (bind_ok _ _ _ _ _).mp h
  obtain ⟨l, hl, hpay⟩ := executeRootBundle_log h₁
  obtain ⟨k, hk, hpay'⟩ := executeRootBundle_log h₂
  have hchange := executeRootBundle_change h₁
  have hchange' := executeRootBundle_change h₂
  cases hchange with
  | apart hop => cases hop
  | executed _ _ n _ _ hn hp hs _ =>
      cases hchange' with
      | apart hop => cases hop
      | executed _ _ m _ _ hm _ _ _ =>
          have hcount : w₁.hub.rootBundleProposal.unclaimedPoolRebalanceLeafCount = n := by rw [hp]
          have hproposer :
              bondTo w₁ w₁.hub.rootBundleProposal.proposer = bondTo w w.hub.rootBundleProposal.proposer := by
            rw [bondTo, bondTo, hs.bondToken, hs.bondAmount, hp]
          rw [hcount] at hm hpay'
          rw [hproposer] at hpay'
          have hlog : w'.log = w.log ++ (l ++ k) := by rw [hk, hl, List.append_assoc]
          rw [payouts_eq hlog, List.filterMap_append, hpay, hpay', if_neg (by omega), ← hn, List.nil_append]
          simp only [Nat.reduceEqDiff]

theorem sameOutcome_twice (ha : NoWrap w a.leaf) (hb : NoWrap w b.leaf) :
    SameOutcome (executeTwice D a b) (executeTwice D b a) w := by
  have hswap : ∀ a b w₁, NoWrap w a.leaf → NoWrap w b.leaf → Ok (executeTwice D a b) w () w₁ →
      ∃ w₂, Ok (executeTwice D b a) w () w₂ ∧ SameState w₁ w₂ := by
    intro a b w₁ ha hb h
    obtain ⟨w', hp, hs⟩ := pair_of_ok ha hb h
    obtain ⟨w₂, hok, hs'⟩ := hp.symm.ok hb ha
    exact ⟨w₂, hok, hs.symm.trans hs'⟩
  refine ⟨⟨fun ⟨w₁, h⟩ => ?_, fun ⟨w₂, h⟩ => ?_⟩, fun w₁ w₂ h₁ h₂ => ⟨?_, ?_⟩⟩
  · obtain ⟨w₂, h₂, -⟩ := hswap a b w₁ ha hb h
    exact ⟨w₂, h₂⟩
  · obtain ⟨w₁, h₁, -⟩ := hswap b a w₂ hb ha h
    exact ⟨w₁, h₁⟩
  · obtain ⟨w₃, h₃, hs⟩ := hswap a b w₁ ha hb h₁
    obtain ⟨-, rfl⟩ := h₂.unique h₃
    exact hs
  · rw [executeTwice_payouts h₁, executeTwice_payouts h₂]

structure Permuted (w : World) (a b : Execution) : Prop where
  answers : b.answers = a.answers
  chainId : b.leaf.chainId = a.leaf.chainId
  groupIndex : b.leaf.groupIndex = a.leaf.groupIndex
  leafId : b.leaf.leafId = a.leaf.leafId
  entries : (entriesOf a.leaf).Perm (entriesOf b.leaf)
  lengths : a.leaf.l1Tokens.length = b.leaf.l1Tokens.length
  proofs : verifyPoolRebalance w.hub.rootBundleProposal.poolRebalanceRoot a.leaf a.proof = true ∧
    verifyPoolRebalance w.hub.rootBundleProposal.poolRebalanceRoot b.leaf b.proof = true

theorem Permuted.symm (h : Permuted w a b) : Permuted w b a :=
  ⟨h.answers.symm, h.chainId.symm, h.groupIndex.symm, h.leafId.symm, h.entries.symm, h.lengths.symm, h.proofs.symm⟩

theorem Permuted.noWrap (h : Permuted w a b) (ha : NoWrap w a.leaf) : NoWrap w b.leaf :=
  fun e he => ha e (h.entries.mem_iff.mpr he)

theorem Permuted.executable (h : Permuted w a b) (ha : Executable a.answers a.leaf a.proof w) :
    Executable b.answers b.leaf b.proof w where
  unpaused := ha.unpaused
  late := ha.late
  unclaimed := by
    rw [h.leafId]
    exact ha.unclaimed
  proof := h.proofs.2
  spokePool := by
    rw [h.chainId]
    exact ha.spokePool
  adapter := by
    rw [h.chainId]
    exact ha.adapter
  message := by
    rw [h.groupIndex, h.answers]
    exact ha.message

theorem Permuted.legs (h : Permuted w a b) (hl : Legs D a.answers a.leaf w' ls) :
    ∃ ms, Legs D b.answers b.leaf w' ms ∧ ls.Perm ms := by
  obtain ⟨hlen, hl⟩ := hl
  obtain ⟨ms, hms, hperm⟩ := List.perm_comp_forall₂ h.entries.symm hl
  refine ⟨ms, ⟨?_, ?_⟩, hperm.symm⟩
  · rw [← h.entries.length_eq, hlen, h.lengths]
  · rw [h.answers, h.chainId]
    exact hms

theorem Permuted.execute (h : Permuted w a b) (ha : NoWrap w a.leaf) (hok : Ok (execute D a) w () w') :
    ∃ w'', Ok (execute D b) w () w'' ∧ SameState w' w'' := by
  obtain ⟨he, n, v, v', hn, hsend, hrel, rfl⟩ := executeRootBundle_iff.mp hok
  obtain ⟨ls, hls, hv⟩ := sendTokens_moved (noWrap_putProposal ha) hsend
  obtain ⟨ms, hms, hperm⟩ := h.legs hls
  have hv' : Moved D (putProposal w (claim w.hub.rootBundleProposal a.leaf.leafId n)) (ms ++ []) v := by
    rw [List.append_nil]
    exact hv.perm hperm
  obtain ⟨x, hsend', hx, -⟩ := sendTokens_legs (noWrap_putProposal (h.noWrap ha)) hms hv'
  have hs : SameState v x := hv.unique (hx.perm hperm.symm)
  have hpay : ∃ x', SameState v' x' ∧ (n ≠ 0 ∧ x = x' ∨ n = 0 ∧
      Ok (releaseBond D w.hub.rootBundleProposal.proposer) x () x') := by
    rcases hrel with ⟨h0, rfl⟩ | ⟨h0, hrel⟩
    · exact ⟨x, hs, .inl ⟨h0, rfl⟩⟩
    · obtain ⟨x', hx', hs'⟩ := releaseBond_same hs hrel
      exact ⟨x', hs', .inr ⟨h0, hx'⟩⟩
  obtain ⟨x', hs', hpay⟩ := hpay
  rw [← h.leafId] at hsend'
  refine ⟨logged x' (.rootBundleExecuted b.leaf b.msg.sender), ?_, ?_⟩
  · exact executeRootBundle_iff.mpr ⟨h.executable he, n, x, x', hn, hsend', hpay, rfl⟩
  · exact ((sameState_logged _ _).symm.trans hs').trans (sameState_logged _ _)

theorem sameOutcome_permuted (h : Permuted w a b) (ha : NoWrap w a.leaf) :
    SameOutcome (HubOrder.execute D a) (HubOrder.execute D b) w := by
  refine ⟨⟨fun ⟨w₁, h₁⟩ => ?_, fun ⟨w₂, h₂⟩ => ?_⟩, fun w₁ w₂ h₁ h₂ => ⟨?_, ?_⟩⟩
  · obtain ⟨w₂, h₂, -⟩ := h.execute ha h₁
    exact ⟨w₂, h₂⟩
  · obtain ⟨w₁, h₁, -⟩ := h.symm.execute (h.noWrap ha) h₂
    exact ⟨w₁, h₁⟩
  · obtain ⟨w₃, h₃, hs⟩ := h.execute ha h₁
    obtain ⟨-, rfl⟩ := h₂.unique h₃
    exact hs
  · obtain ⟨l, hl, hpay⟩ := executeRootBundle_log h₁
    obtain ⟨k, hk, hpay'⟩ := executeRootBundle_log h₂
    rw [payouts_eq hl, payouts_eq hk, hpay, hpay']

end Pairs

section Samples

/-- Two leaves of one tree: the first sends one token, the second has fees. -/
def sampleSend : PoolRebalanceLeaf := ⟨10, [0], [1], [0], 1, 0, [5]⟩

def sampleFee (fees : Uint256) : PoolRebalanceLeaf := ⟨10, [fees], [0], [0], 1, 1, [5]⟩

def leafHash (leaf : PoolRebalanceLeaf) : Bytes32 := Keccak.keccak256 (encode [.tail (encode leaf.parts)])

def sampleSending (fees : Uint256) : Execution := ⟨sampleAnswers, ⟨9, 0⟩, sampleSend, [leafHash (sampleFee fees)]⟩

def sampleCapture (fees : Uint256) : Execution := ⟨sampleAnswers, ⟨9, 0⟩, sampleFee fees, [leafHash sampleSend]⟩

def samplePairRoot (fees : Uint256) : Bytes32 := MerkleProof.hashPair (leafHash sampleSend) (leafHash (sampleFee fees))

/-- The utilized reserves of token 5 are at the top of their range, and a bundle of
three leaves is past its challenge period. -/
def sampleFull (fees : Uint256) : World :=
  run sampleDeployment sampleWorld (sampleDeposit ++
    [sampleCall 3 (.haircutReserves 5 0x8000000000000000000000000000000000000000000000000000000000000001),
     sampleCall 3 (.setCrossChainContracts 10 8 13), sampleCall 3 (.setPoolRebalanceRoute 10 5 14),
     sampleCall 3 (.setBond 6 1), sampleCall 7 (.proposeRootBundle [] 3 (samplePairRoot fees) 0 0), .advance 7201])

def wrappingFees : Uint256 := 0x8000000000000000000000000000000000000000000000000000000000000000

theorem sampleFull_proposal : (sampleFull wrappingFees).hub.rootBundleProposal =
    ⟨samplePairRoot wrappingFees, 0, 0, 0, 7, 3, 8200⟩ := rfl

theorem sampleFull_routes : (sampleFull wrappingFees).hub.poolRebalanceRoutes =
    Function.update (fun _ => 0) (poolRebalanceRouteKey 5 10) 14 := rfl

theorem sampleSend_verifies (fees : Uint256) :
    verifyPoolRebalance (samplePairRoot fees) sampleSend [leafHash (sampleFee fees)] = true :=
  MerkleProof.verify_left (leafHash sampleSend) (leafHash (sampleFee fees))

theorem sampleFee_verifies (fees : Uint256) :
    verifyPoolRebalance (samplePairRoot fees) (sampleFee fees) [leafHash sampleSend] = true :=
  MerkleProof.verify_right (leafHash sampleSend) (leafHash (sampleFee fees))

/-- Comparing the routes as functions spares the hash of their key. -/
theorem sampleRoute {w : World} (h : w.hub.poolRebalanceRoutes = (sampleFull wrappingFees).hub.poolRebalanceRoutes) :
    w.hub.poolRebalanceRoutes (poolRebalanceRouteKey 5 10) ≠ 0 := by
  rw [h, sampleFull_routes, Function.update_self]
  decide

/-- The send overflows the utilized reserves. -/
theorem sampleSending_fails (w : World) :
    ¬ Ok (execute sampleDeployment (sampleSending wrappingFees)) (sampleFull wrappingFees) () w := by
  intro h
  obtain ⟨-, n, v, -, -, hsend, -⟩ := executeRootBundle_iff.mp h
  obtain ⟨v', hfirst, -⟩ := (forEach_cons_ok _ 0 [] _ _ _).mp hsend
  obtain ⟨t, k, fees, v'', ht, hk, -, -, hsending, -⟩ := sendToken_iff.mp hfirst
  obtain rfl : 5 = t := Option.some.inj ht
  obtain rfl : 1 = k := Option.some.inj hk
  simp only [sending, bind_ok, read_ok, when_ok, checkedSub_ok, signedAdd_ok (show 0 < 256 by decide),
    setPool_ok] at hsending
  rcases hsending with ⟨-, _, x, hr, _, _, ⟨rfl, rfl⟩, y, _, ⟨hy, rfl⟩, -⟩ | ⟨hneg, -⟩
  · obtain ⟨_, _, -, -, -, -, rfl⟩ := relayTokens_ok hr
    have hlt : y.toInt < 2 ^ 255 := BitVec.toInt_lt
    have htop : ((sampleFull wrappingFees).hub.pooledTokens 5).utilizedReserves.toInt +
      (1 : Int256).toInt = 2 ^ 255 := by
      decide
    have hy' : y.toInt = ((sampleFull wrappingFees).hub.pooledTokens 5).utilizedReserves.toInt +
      (1 : Int256).toInt := hy
    omega
  · exact hneg (by decide)

def sampleCaptured : World :=
  logged (logged (putPool (putProposal (sampleFull wrappingFees) ⟨samplePairRoot wrappingFees, 0, 0, 2, 7, 2, 8200⟩) 5
    { (sampleFull wrappingFees).hub.pooledTokens 5 with
      undistributedLpFees := wrappingFees
      utilizedReserves := 0xffffffffffffffffffffffffffffffffffffffffffffffffffffffffffffffff })
    (.lpFeesCaptured 5 wrappingFees)) (.rootBundleExecuted (sampleFee wrappingFees) 9)

theorem sampleCapture_executes :
    Ok (execute sampleDeployment (sampleCapture wrappingFees)) (sampleFull wrappingFees) () sampleCaptured := by
  have hclaim : claim (sampleFull wrappingFees).hub.rootBundleProposal (sampleFee wrappingFees).leafId 2 =
      ⟨samplePairRoot wrappingFees, 0, 0, 2, 7, 2, 8200⟩ := by
    rw [sampleFull_proposal, claim]
    have hbits : setClaimed1D 0 (sampleFee wrappingFees).leafId = 2 := by decide
    rw [hbits]
  have hcontracts : (sampleFull wrappingFees).hub.crossChainContracts 10 = ⟨8, 13⟩ := rfl
  refine executeRootBundle_iff.mpr ⟨⟨rfl, by decide, ?_, ?_, ?_, ?_, ?_⟩, 2, _, _, rfl, ?_,
    .inl ⟨by decide, rfl⟩, rfl⟩
  · rw [sampleFull_proposal]
    decide
  · rw [sampleFull_proposal]
    exact sampleFee_verifies wrappingFees
  · have hspoke : (⟨8, 13⟩ : CrossChainContract).spokePool ≠ 0 := by decide
    exact hcontracts ▸ hspoke
  · change (sampleFull wrappingFees).code ((sampleFull wrappingFees).hub.crossChainContracts 10).adapter = true
    rw [hcontracts]
    rfl
  · intro hg
    exact absurd hg (by decide)
  · change Ok _ (putProposal _ (claim (sampleFull wrappingFees).hub.rootBundleProposal
      (sampleFee wrappingFees).leafId 2)) _ _
    rw [hclaim]
    exact sendTokens_one rfl rfl rfl (sampleRoute rfl) (sending_zero _ _ _ _) rfl

theorem sampleSending_executes : ∃ w,
    Ok (execute sampleDeployment (sampleSending wrappingFees)) sampleCaptured () w := by
  have hprop : sampleCaptured.hub.rootBundleProposal = ⟨samplePairRoot wrappingFees, 0, 0, 2, 7, 2, 8200⟩ := rfl
  have hcontracts : sampleCaptured.hub.crossChainContracts 10 = ⟨8, 13⟩ := rfl
  have hcode : sampleCaptured.code 8 = true := rfl
  have hfits : Fits sampleDeployment (putProposal sampleCaptured (claim sampleCaptured.hub.rootBundleProposal 0 1))
      ⟨5, 12, 1, 0, 0⟩ := ⟨by decide, by decide, by decide, by decide, by decide, by decide⟩
  obtain ⟨w, hsending⟩ := sending_returns (A := sampleAnswers) (n := 1) (t := 5) rfl hfits (by decide)
    (.inl ⟨by decide, rfl, rfl, rfl⟩)
  refine ⟨logged w (.rootBundleExecuted sampleSend 9), executeRootBundle_iff.mpr
    ⟨⟨rfl, by decide, ?_, ?_, ?_, ?_, nofun⟩,
    1, w, w, rfl, ?_, .inl ⟨by decide, rfl⟩, rfl⟩⟩
  · rw [hprop]
    decide
  · rw [hprop]
    exact sampleSend_verifies wrappingFees
  · have hspoke : (⟨8, 13⟩ : CrossChainContract).spokePool ≠ 0 := by decide
    exact hcontracts ▸ hspoke
  · change sampleCaptured.code (sampleCaptured.hub.crossChainContracts 10).adapter = true
    rw [hcontracts, hcode]
  · exact sendTokens_one rfl rfl rfl (sampleRoute rfl) hsending (allocateLpAndProtocolFees_zero _ _)

end Samples

end Across.HubOrder
