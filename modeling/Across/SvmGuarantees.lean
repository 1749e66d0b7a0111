import Across.SvmBundles
import Across.SvmFills
import Across.SvmLeaves
import Across.SvmOrders
import Across.SvmRefunds

namespace Across.SvmGuarantees

open CallExec CallExec.Exec SvmTypes SvmState SvmSteps SvmSpoke SvmCalls SvmOrders
open SvmProgram hiding Input Action Instruction process run
open SvmBundles hiding initialised executed deleted
open SvmFills hiding relaysOf sampleRelay sampleHash
open SvmRefunds hiding bridged
open SvmLeaves hiding sampleRelay sampleHash

variable {W : Type} {P : Programs W} {a a' : Accounts W} {b b' : Bank W} {u : Unit} {i : SvmSpoke.Input W}
  {is : List (SvmSpoke.Input W)}

section Bank

/-- A change of the bank that only those in charge and other programs see. -/
structure Aside (b b' : Bank W) : Prop where
  same : ∃ s w, b' = { b with state := s, rest := w }
  rootBundleId : b'.state.rootBundleId = b.state.rootBundleId
  chainId : b'.state.chainId = b.state.chainId

theorem aside_rest (b : Bank W) (w : W) : Aside b { b with rest := w } := ⟨⟨b.state, w, rfl⟩, rfl, rfl⟩

/-- What an instruction does to the bank. -/
inductive BankStep (P : Programs W) (o : Option SvmProgram.Instruction) (a a' : Accounts W) : Prop
  | spoke (ix : SvmProgram.Instruction) (ho : o = some ix)
      (h : Ok (SvmProgram.process P.toRuntime ix) a.bank () a'.bank)
  | aside (h : Aside a.bank a'.bank)
  | founded (x : Initialize) (w : W) (hl : a.live = false) (h : a' = founded x a w)

def bankPart : SvmSpoke.Instruction → Option SvmProgram.Instruction
  | .spoke ix => some ix
  | _ => none

theorem execute_bank {j : SvmSpoke.Instruction} (h : Ok (execute P j) a u a') : BankStep P (bankPart j) a a' := by
  cases j with
  | initializeState x =>
      obtain ⟨hl, -, w, -, ha⟩ := initializeState_ok.mp h
      exact .founded x w hl ha
  | pauseDeposits x =>
      obtain ⟨-, h⟩ := loadState_bind_ok.mp h
      obtain ⟨-, rfl⟩ := pauseDeposits_ok.mp h
      exact .aside (aside_rest a.bank a.bank.rest)
  | transferOwnership x =>
      obtain ⟨-, h⟩ := loadState_bind_ok.mp h
      obtain ⟨-, rfl⟩ := transferOwnership_ok.mp h
      exact .aside ⟨⟨_, a.bank.rest, rfl⟩, rfl, rfl⟩
  | setCrossDomainAdmin x =>
      obtain ⟨-, h⟩ := loadState_bind_ok.mp h
      obtain ⟨-, rfl⟩ := setCrossDomainAdmin_ok.mp h
      exact .aside ⟨⟨_, a.bank.rest, rfl⟩, rfl, rfl⟩
  | setEnableRoute x =>
      obtain ⟨-, h⟩ := loadState_bind_ok.mp h
      obtain ⟨-, -, _, ⟨w, t, rfl, -⟩, -, rfl⟩ := setEnableRoute_ok h
      exact .aside (aside_rest a.bank w)
  | depositV3 x =>
      obtain ⟨-, h⟩ := loadState_bind_ok.mp h
      obtain ⟨-, w, -, rfl⟩ := depositV3_ok.mp h
      exact .aside (aside_rest a.bank w)
  | spoke ix =>
      obtain ⟨_, t, hload, h⟩ := (bind_ok _ _ _ _ _).mp h
      obtain ⟨c, hc, rfl⟩ := onBank_ok.mp h
      obtain rfl := loadWhen_ok hload
      exact .spoke ix rfl hc

/-- The instruction of the bank that an input ends in. -/
def bankInstruction (P : Programs W) (i : SvmSpoke.Input W) : Option SvmProgram.Instruction :=
  match i.action with
  | .elsewhere _ => none
  | .call c => (ends P c).bind bankPart

/-- The relays that an input names. -/
def relaysOf (P : Programs W) (i : SvmSpoke.Input W) : List V3RelayData := (bankInstruction P i).toList.flatMap relays

theorem step_bank : BankStep P (bankInstruction P i) (tick a i.time) (step P a i) := by
  cases hi : i.action with
  | elsewhere f =>
      simp only [step, hi]
      exact .aside (aside_rest _ _)
  | call c =>
      simp only [bankInstruction, hi]
      cases hr : (process P c (tick a i.time)).result with
      | error e =>
          simp only [step, hi, hr]
          exact .aside (aside_rest _ _)
      | ok p =>
          simp only [step, hi, hr]
          cases c with
          | direct j => exact execute_bank hr
          | message x =>
              obtain ⟨-, -, m, rest, hbody, hexec⟩ := handleReceiveMessage_ok.mp hr
              rw [ends_message hbody]
              exact execute_bank hexec

theorem BankStep.clock {o : Option SvmProgram.Instruction} (h : BankStep P o a a') : a'.bank.clock = a.bank.clock := by
  cases h with
  | spoke ix ho h => exact (process_kept h).clock
  | aside h =>
      obtain ⟨⟨s, w, hb⟩, -, -⟩ := h
      rw [hb]
  | founded x w hl h => rw [h, SvmCalls.founded]

/-- Nothing but the instructions of the bank touches its books, also before the
state is made. -/
theorem BankStep.books {o : Option SvmProgram.Instruction} (h : BankStep P o a a') :
    ∃ t, Books a.bank a'.bank t := by
  cases h with
  | spoke ix ho h => exact process_books h
  | aside h =>
      obtain ⟨⟨s, w, hb⟩, -, -⟩ := h
      rw [hb]
      exact ⟨[], .of_quiet rfl rfl (List.append_nil _).symm fun _ hy => absurd hy List.not_mem_nil⟩
  | founded x w hl h =>
      rw [h]
      exact ⟨[], .of_quiet rfl rfl (List.append_nil _).symm fun _ hy => absurd hy List.not_mem_nil⟩

theorem run_books (P : Programs W) (a : Accounts W) (is : List (SvmSpoke.Input W)) :
    ∃ t, Books a.bank (run P a is).bank t := by
  induction is generalizing a with
  | nil => exact ⟨[], .of_quiet rfl rfl (List.append_nil _).symm fun _ hy => absurd hy List.not_mem_nil⟩
  | cons i is ih =>
      obtain ⟨t, ht⟩ := (step_bank (P := P) (a := a) (i := i)).books
      obtain ⟨t', ht'⟩ := ih (step P a i)
      have hstep : Books a.bank (step P a i).bank t := ⟨ht.trace, ht.paired, ht.refunds, ht.returns⟩
      exact ⟨_, hstep.trans ht'⟩

end Bank

section Guarantees

variable {rs : List V3RelayData} {c : U64}

/-- What holds of the bank while the inputs `is` are still to come: the relays to come
are among `rs`. -/
structure Standing (P : Programs W) (rs : List V3RelayData) (c : U64) (is : List (SvmSpoke.Input W))
    (a : Accounts W) : Prop where
  live : a.live = true
  chainId : a.bank.state.chainId = c
  clock : (a.bank.clock :: is.map SvmSpoke.Input.time).Pairwise fun s t => seconds s ≤ seconds t
  named : ∀ i ∈ is, relaysOf P i ⊆ rs
  stands : ∀ h, Stands rs c h a.bank
  guarded : Guarded a.bank

theorem Aside.stands {h : Hash} (ha : Aside b b') (hs : Stands rs c h b) : Stands rs c h b' := by
  obtain ⟨⟨s, w, rfl⟩, -, -⟩ := ha
  exact hs

theorem Aside.guarded (ha : Aside b b') (hg : Guarded b) : Guarded b' := by
  obtain ⟨⟨s, w, rfl⟩, hid, -⟩ := ha
  exact hg.quiet rfl hid (List.append_nil _).symm fun _ hy => absurd hy List.not_mem_nil

theorem Standing.step (h : Standing P rs c (i :: is) a) (hd : Distinct rs c) : Standing P rs c is (step P a i) := by
  obtain ⟨hl, rfl, hclock, hnamed, hs, hg⟩ := h
  have hle : seconds a.bank.clock ≤ seconds i.time := List.rel_of_pairwise_cons hclock List.mem_cons_self
  have hrest : ∀ j ∈ is, relaysOf P j ⊆ rs := fun j hj => hnamed j (List.mem_cons_of_mem i hj)
  have hticked : ∀ h, Stands rs a.bank.state.chainId h (tick a i.time).bank := fun h =>
    (hs h).tick (w := a.bank.rest) hle
  have hguarded : Guarded (tick a i.time).bank := hg.tick i.time a.bank.rest
  have hlive : (SvmSpoke.step P a i).live = true := step_live hl
  have hbank := step_bank (P := P) (a := a) (i := i)
  have htail : ((SvmSpoke.step P a i).bank.clock :: is.map SvmSpoke.Input.time).Pairwise
      fun s t => seconds s ≤ seconds t := by
    rw [hbank.clock]
    exact (List.pairwise_cons.mp hclock).2
  cases hbank with
  | spoke ix hix hok =>
      have hk := process_kept hok
      have hrs : relays ix ⊆ rs := by
        have hsub := hnamed i List.mem_cons_self
        rw [relaysOf, hix] at hsub
        simpa using hsub
      refine ⟨hlive, hk.chainId, htail, hrest, fun h => ?_, (process_bundles hok).guarded hguarded⟩
      exact (hticked h).step hd hk.clock ((hk.moves h).mono hrs)
  | aside haside =>
      exact ⟨hlive, haside.chainId, htail, hrest, fun h => haside.stands (hticked h), haside.guarded hguarded⟩
  | founded x w hnone _ => cases hl.symm.trans hnone

theorem Standing.run (h : Standing P rs c is a) (hd : Distinct rs c) : Standing P rs c [] (run P a is) := by
  induction is generalizing a with
  | nil => exact h
  | cons i is ih => exact ih (h.step hd)

/-- Before the state is made the history says nothing of relays and bundles. -/
theorem claimItem_silent {y : Item} (hy : isClaimItem y = true) (c : U64) (h : Hash) :
    mark c h y = none ∧ Silent y := by
  unfold isClaimItem at hy
  split at hy
  · exact ⟨rfl, rfl, rfl, rfl⟩
  · exact ⟨rfl, rfl, rfl, rfl⟩
  · cases hy

theorem dormant_marks (hd : Dormant a) (c : U64) (h : Hash) : marks c h a.bank.trace = [] :=
  marks_quiet fun y hy => (claimItem_silent (hd.trace y hy) c h).1

theorem dormant_guarded (hd : Dormant a) : Guarded a.bank := by
  have hsilent : ∀ y ∈ a.bank.trace, Silent y := fun y hy => (claimItem_silent (hd.trace y hy) 0 0).2
  have hstart : Guarded { a.bank with trace := [] } := by
    refine ⟨fun id r hr => ?_, fun id hid => ?_, List.Pairwise.nil, fun id l hl => ?_, List.nodup_nil, fun id hid => ?_,
      List.Pairwise.nil⟩
    · cases (hd.rootBundles id).symm.trans hr
    · cases hid
    · cases hl
    · cases hid
  exact hstart.quiet rfl rfl (List.nil_append _).symm hsilent

theorem founded_standing {x : Initialize} (hx : Founded x a) (hc : a.bank.state.chainId = c)
    (hclock : (a.bank.clock :: is.map SvmSpoke.Input.time).Pairwise fun s t => seconds s ≤ seconds t)
    (hn : ∀ i ∈ is, relaysOf P i ⊆ rs) : Standing P rs c is a := by
  have hl := hx.live
  obtain ⟨-, d, w, hd, rfl⟩ := hx
  refine ⟨hl, hc, hclock, hn, fun h => ?_, ?_⟩
  · unfold Stands
    rw [founded]
    simp only [hd.fillStatuses]
    exact .inl (dormant_marks hd c h)
  · have hguarded : Guarded d.bank := dormant_guarded hd
    exact hguarded.quiet rfl hd.rootBundleId.symm (List.append_nil _).symm fun _ hy => absurd hy List.not_mem_nil

theorem run_chainId (hl : a.live = true) : (run P a is).bank.state.chainId = a.bank.state.chainId := by
  induction is generalizing a with
  | nil => rfl
  | cons i is ih =>
      have hstep : (SvmSpoke.step P a i).bank.state.chainId = a.bank.state.chainId := by
        cases step_bank (P := P) (a := a) (i := i) with
        | spoke ix hix hok => exact (process_kept hok).chainId
        | aside haside => exact haside.chainId
        | founded x w hnone _ => cases hl.symm.trans hnone
      exact (ih (step_live hl)).trans hstep

/-- Account 32 fills a relay and closes its account, and fills it once more. -/
def sampleFillInputs : List (SvmSpoke.Input (Pubkey → Nat)) :=
  sampleInputs 7 8 ++ sampleFills.map fun i =>
    ⟨i.time, match i.action with
      | .instruction ix => .call (.direct (.spoke ix))
      | .elsewhere f => .elsewhere f⟩

theorem sampleFillInputs_relays :
    ∀ r ∈ sampleFillInputs.flatMap (relaysOf samplePrograms), r = SvmFills.sampleRelay := by
  have hmessage : ∀ x, ends samplePrograms (.message
      ⟨99, 0, 4, (MessageTranslation.RootMessage.relayRootBundle 7 8).encodeWithSignature, 1, x⟩) =
        some (signedBy 2 x .relayRootBundle (7, 8)) := fun x =>
    ends_message (m := .relayRootBundle 7 8) (List.append_nil _).symm
  have hlist : sampleFillInputs.flatMap (relaysOf samplePrograms) =
      [SvmFills.sampleRelay, SvmFills.sampleRelay, SvmFills.sampleRelay] := by
    simp only [sampleFillInputs, sampleInputs, sampleFills, List.map_cons, List.map_nil, List.cons_append,
      List.nil_append, List.flatMap_cons, List.flatMap_nil, relaysOf, bankInstruction, hmessage]
    rfl
  rw [hlist]
  simp

end Guarantees

section Payouts

/-- An order of the run brought the roots of a bundle, and no later one deleted it. -/
def Brought (P : Programs W) (remoteDomain : U32) (s : Settings) (orders : List Issue) (id : U32)
    (roots : Hash × Hash) : Prop :=
  ∃ pre c post, orders = pre ++ ⟨c, .relayRootBundle roots.1 roots.2⟩ :: post ∧
    Authorised P remoteDomain (obeyAll s pre) ⟨c, .relayRootBundle roots.1 roots.2⟩ ∧
    (obeyAll s pre).rootBundleId = id ∧ ∀ y ∈ post, y.order ≠ .emergencyDeleteRootBundle id

/-- A bundle that no order has touched is as it was, and otherwise the last order to
touch it brought it. -/
theorem roots_traced {s : Settings} {orders : List Issue} {id : U32} {roots : Hash × Hash}
    (h : (obeyAll s orders).roots id = some roots) (hs : s.roots id = none) : ∃ pre c post,
      orders = pre ++ ⟨c, .relayRootBundle roots.1 roots.2⟩ :: post ∧ (obeyAll s pre).rootBundleId = id ∧
      ∀ y ∈ post, y.order ≠ .emergencyDeleteRootBundle id := by
  induction orders using List.reverseRecOn with
  | nil => cases hs.symm.trans h
  | append_singleton orders y ih =>
      have hlast : obeyAll s (orders ++ [y]) = obey (obeyAll s orders) y.order := List.foldl_concat _ _ _ _
      rw [hlast] at h
      have hold (hr : (obeyAll s orders).roots id = some roots) (hy : y.order ≠ .emergencyDeleteRootBundle id) :
          ∃ pre c post, orders ++ [y] = pre ++ ⟨c, .relayRootBundle roots.1 roots.2⟩ :: post ∧
            (obeyAll s pre).rootBundleId = id ∧ ∀ z ∈ post, z.order ≠ .emergencyDeleteRootBundle id := by
        obtain ⟨pre, c, post, rfl, hid, hpost⟩ := ih hr
        refine ⟨pre, c, post ++ [y], List.append_assoc _ _ _, hid, fun z hz => ?_⟩
        rcases List.mem_append.mp hz with hz | hz
        · exact hpost z hz
        · rw [List.mem_singleton.mp hz]
          exact hy
      obtain ⟨c, o⟩ := y
      cases o with
      | relayRootBundle r l =>
          by_cases hid : (obeyAll s orders).rootBundleId = id
          · simp only [obey, hid, Function.update_self] at h
            obtain rfl := Option.some.inj h
            exact ⟨orders, c, [], rfl, hid, fun _ hz => absurd hz List.not_mem_nil⟩
          · simp only [obey, Function.update_of_ne (Ne.symm hid)] at h
            exact hold h nofun
      | emergencyDeleteRootBundle k =>
          by_cases hid : k = id
          · simp only [obey, hid, Function.update_self] at h
            cases h
          · simp only [obey, Function.update_of_ne (Ne.symm hid)] at h
            exact hold h fun hk => hid (Order.emergencyDeleteRootBundle.inj hk)
      | pauseDeposits _ | pauseFills _ | setCrossDomainAdmin _ | setEnableRoute _ _ _ | transferOwnership _ =>
          exact hold h nofun

/-- The state was made with chain `c` in the run, and an authorised order brought
the roots of the bundle since. -/
def Ordered (P : Programs W) (w : W) (inputs : List (SvmSpoke.Input W)) (c : U64) (id : U32) (roots : Hash × Hash) :
    Prop :=
  ∃ before i x after, inputs = before ++ i :: after ∧ i.action = .call (.direct (.initializeState x)) ∧
    x.chainId = c ∧ Brought P x.remoteDomain (initialSettings x)
      (issues P (step P (run P (blank w) before) i) after) id roots

theorem bundle_ordered {w : W} {inputs : List (SvmSpoke.Input W)} {id : U32} {r : RootBundle}
    (hu : Unforged P inputs) (hr : (run P (blank w) inputs).bank.rootBundles id = some r) :
    Ordered P w inputs (run P (blank w) inputs).bank.state.chainId id (rootsOf r) := by
  rcases run_dormant (P := P) inputs (blank_dormant w) with hdormant | ⟨before, i, x, after, rfl, hi, hx⟩
  · cases (hdormant.rootBundles id).symm.trans hr
  · have hafter : Unforged P after := fun j hj => hu j (List.mem_append_right _ (List.mem_cons_of_mem _ hj))
    obtain ⟨hconst, hset, hauth⟩ := run_governed hx.live hafter
    have hrun : run P (blank w) (before ++ i :: after) = run P (step P (run P (blank w) before) i) after :=
      run_append before (i :: after)
    have hdomain : (step P (run P (blank w) before) i).bank.state.remoteDomain = x.remoteDomain :=
      congrArg Constants.remoteDomain hx.constants
    rw [hx.settings] at hset hauth
    rw [hdomain] at hauth
    have hroots : (obeyAll (initialSettings x) (issues P (step P (run P (blank w) before) i) after)).roots id =
        some (rootsOf r) := by
      rw [← hset, ← hrun]
      simp only [settings, hr, Option.map_some]
    obtain ⟨pre, c, post, horders, hid, hpost⟩ := roots_traced hroots rfl
    refine ⟨before, i, x, after, rfl, hi, ?_, pre, c, post, horders, hauth pre _ post horders, hid, hpost⟩
    rw [hrun]
    exact (congrArg Constants.chainId (hconst.trans hx.constants)).symm

/-- Whatever a caller proves is proved against roots that the owner or the remote
owner has ordered, under the id of that order, and that nobody has deleted. A
refund leaf and a slow fill are for the chain that the state was made with. -/
theorem payouts_ordered (P : Programs W) (w : W) (inputs : List (SvmSpoke.Input W)) (hu : Unforged P inputs) (t : Int)
    (a' : Accounts W) :
    (∀ x, Ok (process P (.direct (.spoke (.executeRelayerRefundLeaf x)))) (tick (run P (blank w) inputs) t) () a' →
      ∃ roots, Ordered P w inputs x.relayerRefundLeaf.chainId x.rootBundleId roots ∧
        verifyMerkleProof roots.1 x.relayerRefundLeaf.toKeccakHash x.proof = true) ∧
    ∀ x, Ok (process P (.direct (.spoke (.executeV3SlowRelayLeaf x)))) (tick (run P (blank w) inputs) t) () a' →
      ∃ roots c, Ordered P w inputs c x.rootBundleId roots ∧ verifyMerkleProof roots.2
        (V3SlowFill.toKeccakHash ⟨x.slowFillLeaf.relayData, c, x.slowFillLeaf.updatedOutputAmount⟩) x.proof = true := by
  constructor
  · intro x h
    obtain ⟨-, b, hb, -⟩ := (execute_spoke_ok rfl).mp h
    have hx := executeRelayerRefundLeaf_ok hb
    obtain ⟨r, hr, hv, -, -⟩ := hx.bundle
    have hordered := bundle_ordered hu hr
    rw [hx.chainId]
    exact ⟨rootsOf r, hordered, hv⟩
  · intro x h
    obtain ⟨-, b, hb, -⟩ := (execute_spoke_ok rfl).mp h
    obtain ⟨r, hr, hv⟩ := executeV3SlowRelayLeaf_verified hb
    exact ⟨rootsOf r, _, bundle_ordered hu hr, hv⟩

def sampleLeaf : RelayerRefundLeaf := ⟨0, 7, [10], 0, 5, [1021]⟩

/-- The tree of the bundle is this leaf. -/
def samplePayout : ExecuteRelayerRefundLeaf := ⟨32, 1001, 5, 6, 0, sampleLeaf, [], [⟨.key 1021, true⟩]⟩

theorem samplePayout_ok : ∃ a', Ok (process samplePrograms (.direct (.spoke (.executeRelayerRefundLeaf samplePayout))))
    (tick (sampleRelayed sampleLeaf.toKeccakHash 8) 12) () a' := by
  have hproof : verifyMerkleProof sampleLeaf.toKeccakHash sampleLeaf.toKeccakHash [] = true := decide_eq_true rfl
  have hrun : ∃ b, Ok (executeRelayerRefundLeaf samplePrograms.toRuntime samplePayout)
      (tick (sampleRelayed sampleLeaf.toKeccakHash 8) 12).bank () b := by
    simp only [executeRelayerRefundLeaf, read_bind_ok]
    refine bind_returns rfl (bind_returns rfl (bind_returns rfl (bind_returns rfl (bind_returns rfl ?_))))
    exact bind_returns (a := ()) ((require_ok _ _ _ _ _).mpr ⟨hproof, rfl⟩) ⟨_, rfl⟩
  obtain ⟨b, hb⟩ := hrun
  exact ⟨_, (execute_spoke_ok rfl).mpr ⟨rfl, b, hb, rfl⟩⟩

theorem samplePayout_ordered : ∃ roots,
    Ordered samplePrograms (fun _ => 100) (sampleInputs sampleLeaf.toKeccakHash 8) 7 0 roots ∧
      verifyMerkleProof roots.1 sampleLeaf.toKeccakHash [] = true := by
  obtain ⟨a', ha⟩ := samplePayout_ok
  rw [← sampleInputs_run] at ha
  exact (payouts_ordered samplePrograms (fun _ => 100) (sampleInputs sampleLeaf.toKeccakHash 8)
    (sampleInputs_unforged _ _) 12 a').1 samplePayout ha

end Payouts

end Across.SvmGuarantees
