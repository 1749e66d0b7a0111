import Across.SvmSteps

namespace Across.SvmBundles

open CallExec CallExec.Exec SvmTypes SvmState SvmProgram SvmSteps

variable {W : Type} {R : Runtime W} {b b' : Bank W} {u : Unit}

section Bitmap

variable {bits : List UInt8} {i j : U32}

/-- The byte at `k`, zero past the end. -/
def byteAt (bits : List UInt8) (k : Nat) : UInt8 := bits[k]?.getD 0

theorem byteAt_rightpad (n k : Nat) : byteAt (bits.rightpad n 0) k = byteAt bits k := by
  unfold byteAt List.rightpad
  by_cases hk : k < bits.length
  · rw [List.getElem?_append_left hk]
  · rw [List.getElem?_append_right (Nat.not_lt.mp hk), List.getElem?_replicate,
      List.getElem?_eq_none (Nat.not_lt.mp hk)]
    split <;> rfl

theorem byteAt_modify {f : UInt8 → UInt8} {n : Nat} (hn : n < bits.length) (k : Nat) :
    byteAt (bits.modify n f) k = if n = k then f (byteAt bits k) else byteAt bits k := by
  unfold byteAt
  rw [List.getElem?_modify]
  by_cases hk : n = k
  · subst hk
    simp [hn]
  · simp [hk]

theorem byteAt_setClaimed (bits : List UInt8) (i : U32) (k : Nat) : byteAt (setClaimed bits i) k =
    if i.toNat / 8 = k then byteAt bits k ||| bitMask i else byteAt bits k := by
  have hlt : i.toNat / 8 < (bits.rightpad (i.toNat / 8 + 1) 0).length := by
    rw [List.rightpad, List.length_append, List.length_replicate]
    omega
  rw [setClaimed, byteAt_modify hlt, byteAt_rightpad]

theorem toBitVec_mask : ∀ n : Fin 8, (1 <<< UInt8.ofNat n.val : UInt8).toBitVec = BitVec.twoPow 8 n.val := by
  decide

theorem toBitVec_bitMask (i : U32) : (bitMask i).toBitVec = BitVec.twoPow 8 (i.toNat % 8) :=
  toBitVec_mask ⟨i.toNat % 8, Nat.mod_lt _ (by decide)⟩

theorem and_bitMask_iff (x : UInt8) (j : U32) :
    x &&& bitMask j = bitMask j ↔ x.toBitVec.getLsbD (j.toNat % 8) = true := by
  rw [← UInt8.toBitVec_inj, UInt8.toBitVec_and, toBitVec_bitMask, BitVec.and_twoPow]
  have hpos : (0#8) ≠ BitVec.twoPow 8 (j.toNat % 8) := by
    intro h
    have hbit := congrArg (fun y => BitVec.getLsbD y (j.toNat % 8)) h
    simp [Nat.mod_lt] at hbit
  cases x.toBitVec.getLsbD (j.toNat % 8) with
  | true => simp
  | false => simpa using hpos

theorem isClaimed_iff (bits : List UInt8) (j : U32) :
    isClaimed bits j = true ↔ (byteAt bits (j.toNat / 8)).toBitVec.getLsbD (j.toNat % 8) = true := by
  unfold isClaimed byteAt
  cases bits[j.toNat / 8]? with
  | none => simp
  | some x => rw [decide_eq_true_iff, and_bitMask_iff, Option.getD_some]

theorem isClaimed_setClaimed (bits : List UInt8) (i j : U32) :
    isClaimed (setClaimed bits i) j = true ↔ i = j ∨ isClaimed bits j = true := by
  rw [isClaimed_iff, isClaimed_iff, byteAt_setClaimed]
  by_cases hbyte : i.toNat / 8 = j.toNat / 8
  · rw [if_pos hbyte, UInt8.toBitVec_or, toBitVec_bitMask, BitVec.getLsbD_or, BitVec.getLsbD_twoPow, Bool.or_eq_true]
    have hbit : (decide (i.toNat % 8 < 8) && decide (i.toNat % 8 = j.toNat % 8)) = true ↔ i = j := by
      rw [Bool.and_eq_true, decide_eq_true_iff, decide_eq_true_iff]
      constructor
      · rintro ⟨-, hmod⟩
        apply BitVec.eq_of_toNat_eq
        omega
      · rintro rfl
        exact ⟨Nat.mod_lt _ (by decide), rfl⟩
    rw [hbit, or_comm]
  · rw [if_neg hbyte]
    have hne : i ≠ j := fun h => hbyte (by rw [h])
    simp only [hne, false_or]

end Bitmap

section Ids

def initialised : Item → Option U32
  | .created (.rootBundle id) _ => some id
  | _ => none

def executed : Item → Option (U32 × U32)
  | .emitted (.executedRelayerRefundRoot id leaf _ _) => some (id, leaf.leafId)
  | _ => none

def deleted : Item → Option U32
  | .emitted (.emergencyDeleteRootBundle id) => some id
  | _ => none

def initialisations (t : List Item) : List U32 := t.filterMap initialised

def executions (t : List Item) : List (U32 × U32) := t.filterMap executed

def deletions (t : List Item) : List U32 := t.filterMap deleted

def Silent (y : Item) : Prop := initialised y = none ∧ executed y = none ∧ deleted y = none

/-- No leaf of a bundle is executed after its deletion. -/
def Apart (y z : Item) : Prop := ∀ id, deleted y = some id → ∀ l, executed z ≠ some (id, l)

/-- What the history and the existing bundles have in common. -/
structure Guarded (b : Bank W) : Prop where
  known : ∀ id r, b.rootBundles id = some r → id.toNat < b.state.rootBundleId.toNat
  initialised : ∀ id ∈ initialisations b.trace, id.toNat < b.state.rootBundleId.toNat
  increasing : (initialisations b.trace).Pairwise (· < ·)
  executed : ∀ id l, (id, l) ∈ executions b.trace → id.toNat < b.state.rootBundleId.toNat ∧
    ∀ r, b.rootBundles id = some r → isClaimed r.claimedBitmap l = true
  once : (executions b.trace).Nodup
  deleted : ∀ id ∈ deletions b.trace, id.toNat < b.state.rootBundleId.toNat ∧ b.rootBundles id = none
  apart : b.trace.Pairwise Apart

theorem filterMap_silent {α : Type} {f : Item → Option α} {t : List Item} (ht : ∀ y ∈ t, f y = none) :
    t.filterMap f = [] :=
  List.filterMap_eq_nil_iff.mpr ht

theorem apart_append {t t' : List Item} (ht : t.Pairwise Apart) (he : ∀ y ∈ t', SvmBundles.executed y = none) :
    (t ++ t').Pairwise Apart := by
  have hright : ∀ (y : Item), ∀ z ∈ t', Apart y z := by
    intro y z hz id _ l h
    rw [he z hz] at h
    cases h
  refine List.pairwise_append.mpr ⟨ht, List.pairwise_of_forall_mem_list ?_, fun y _ => hright y⟩
  exact fun y _ z hz => hright y z hz

theorem Guarded.quiet {t : List Item} (hg : Guarded b) (hr : b'.rootBundles = b.rootBundles)
    (hs : b'.state.rootBundleId = b.state.rootBundleId) (ht : b'.trace = b.trace ++ t) (hq : ∀ y ∈ t, Silent y) :
    Guarded b' := by
  have hi : initialisations b'.trace = initialisations b.trace := by
    rw [ht, initialisations, List.filterMap_append, filterMap_silent fun y hy => (hq y hy).1, List.append_nil,
      initialisations]
  have he : executions b'.trace = executions b.trace := by
    rw [ht, executions, List.filterMap_append, filterMap_silent fun y hy => (hq y hy).2.1, List.append_nil, executions]
  have hd : deletions b'.trace = deletions b.trace := by
    rw [ht, deletions, List.filterMap_append, filterMap_silent fun y hy => (hq y hy).2.2, List.append_nil, deletions]
  refine ⟨?_, ?_, ?_, ?_, ?_, ?_, ?_⟩
  · rw [hr, hs]
    exact hg.known
  · rw [hi, hs]
    exact hg.initialised
  · rw [hi]
    exact hg.increasing
  · rw [he, hr, hs]
    exact hg.executed
  · rw [he]
    exact hg.once
  · rw [hd, hr, hs]
    exact hg.deleted
  · rw [ht]
    exact apart_append hg.apart fun y hy => (hq y hy).2.1

end Ids

section Steps

theorem execution_silent {x : ExecuteRelayerRefundLeaf} (hx : Executed x b b') : ∃ t d, b'.trace = b.trace ++
    (t ++ [.emitted (.executedRelayerRefundRoot x.rootBundleId x.relayerRefundLeaf d x.signer)]) ∧
    ∀ y ∈ t, Silent y := by
  obtain ⟨t, d, ht, hall⟩ := hx.trace
  refine ⟨t, d, ht, fun y hy => ?_⟩
  rcases hall y hy with rfl | rfl | ⟨_, _, rfl⟩ <;> exact ⟨rfl, rfl, rfl⟩

theorem executions_of_executed {x : ExecuteRelayerRefundLeaf} (hx : Executed x b b') :
    executions b'.trace = executions b.trace ++ [(x.rootBundleId, x.relayerRefundLeaf.leafId)] := by
  obtain ⟨t, d, ht, hsilent⟩ := execution_silent hx
  simp [ht, executions, filterMap_silent fun y hy => (hsilent y hy).2.1, executed]

theorem execution_keeps_claims {x : ExecuteRelayerRefundLeaf} (hx : Executed x b b') {id : U32} {r' : RootBundle}
    (hr' : b'.rootBundles id = some r') : ∃ r, b.rootBundles id = some r ∧
      ∀ l, isClaimed r.claimedBitmap l = true → isClaimed r'.claimedBitmap l = true := by
  obtain ⟨r, hr, -, -, hset⟩ := hx.bundle
  rw [hset] at hr'
  by_cases hid : id = x.rootBundleId
  · rw [hid, Function.update_self] at hr'
    obtain rfl := Option.some.inj hr'
    exact ⟨r, by rw [hid, hr], fun l hl => (isClaimed_setClaimed _ _ _).mpr (.inr hl)⟩
  · rw [Function.update_of_ne hid] at hr'
    exact ⟨r', hr', fun _ hl => hl⟩

theorem execution_claims {x : ExecuteRelayerRefundLeaf} (hx : Executed x b b') {r' : RootBundle}
    (hr' : b'.rootBundles x.rootBundleId = some r') :
    isClaimed r'.claimedBitmap x.relayerRefundLeaf.leafId = true := by
  obtain ⟨r, -, -, -, hset⟩ := hx.bundle
  rw [hset, Function.update_self] at hr'
  obtain rfl := Option.some.inj hr'
  exact (isClaimed_setClaimed _ _ _).mpr (.inl rfl)

theorem executeRelayerRefundLeaf_guarded {x : ExecuteRelayerRefundLeaf} (hg : Guarded b)
    (h : Ok (executeRelayerRefundLeaf R x) b u b') : Guarded b' := by
  have hx := executeRelayerRefundLeaf_ok h
  obtain ⟨r, hr, -, hfree, hset⟩ := hx.bundle
  obtain ⟨t, d, ht, hsilent⟩ := execution_silent hx
  have hi : initialisations b'.trace = initialisations b.trace := by
    simp [ht, initialisations, filterMap_silent fun y hy => (hsilent y hy).1, initialised]
  have he := executions_of_executed hx
  have hd : deletions b'.trace = deletions b.trace := by
    simp [ht, deletions, filterMap_silent fun y hy => (hsilent y hy).2.2, deleted]
  have hs : b'.state = b.state := hx.same.2.1
  have hlive : ∀ id ∈ deletions b.trace, id ≠ x.rootBundleId := by
    rintro _ hid rfl
    rw [(hg.deleted _ hid).2] at hr
    cases hr
  refine ⟨?_, ?_, ?_, ?_, ?_, ?_, ?_⟩
  · intro id r' hr'
    obtain ⟨r₀, hr₀, -⟩ := execution_keeps_claims hx hr'
    rw [hs]
    exact hg.known id r₀ hr₀
  · rw [hi, hs]
    exact hg.initialised
  · rw [hi]
    exact hg.increasing
  · intro id l hmem
    rw [he] at hmem
    rw [hs]
    rcases List.mem_append.mp hmem with hmem | hmem
    · obtain ⟨hlt, hclaimed⟩ := hg.executed id l hmem
      refine ⟨hlt, fun r' hr' => ?_⟩
      obtain ⟨r₀, hr₀, hmono⟩ := execution_keeps_claims hx hr'
      exact hmono l (hclaimed r₀ hr₀)
    · obtain ⟨rfl, rfl⟩ := Prod.mk.inj (List.mem_singleton.mp hmem)
      exact ⟨hg.known _ r hr, fun _ => execution_claims hx⟩
  · rw [he]
    refine List.nodup_append.mpr ⟨hg.once, List.pairwise_singleton _ _, ?_⟩
    rintro _ hmem _ hone rfl
    obtain rfl := List.mem_singleton.mp hone
    rw [(hg.executed _ _ hmem).2 r hr] at hfree
    cases hfree
  · intro id hid
    rw [hd] at hid
    obtain ⟨hlt, hnone⟩ := hg.deleted id hid
    rw [hs, hset, Function.update_of_ne (hlive id hid)]
    exact ⟨hlt, hnone⟩
  · rw [ht, ← List.append_assoc]
    refine List.pairwise_append.mpr
      ⟨apart_append hg.apart fun y hy => (hsilent y hy).2.1, List.pairwise_singleton _ _, ?_⟩
    intro y hy z hz id hdel l hex
    rw [List.mem_singleton.mp hz] at hex
    obtain ⟨rfl, -⟩ := Prod.mk.inj (Option.some.inj hex)
    rcases List.mem_append.mp hy with hy | hy
    · exact hlive _ (List.mem_filterMap.mpr ⟨y, hy, hdel⟩) rfl
    · rw [(hsilent y hy).2.2] at hdel
      cases hdel

theorem relayRootBundle_guarded {x : RelayRootBundle} (hg : Guarded b) (h : Ok (relayRootBundle R x) b u b') :
    Guarded b' := by
  obtain ⟨hn, hlt, w, hb⟩ := relayRootBundle_ok h
  have hset : b'.rootBundles = Function.update b.rootBundles b.state.rootBundleId
      (some ⟨x.relayerRefundRoot, x.slowRelayRoot, [], rootBundleSpace⟩) := congrArg Bank.rootBundles hb
  have hcount : b'.state.rootBundleId.toNat = b.state.rootBundleId.toNat + 1 := by
    rw [hb]
    exact BitVec.toNat_add_of_lt hlt
  have hi : initialisations b'.trace = initialisations b.trace ++ [b.state.rootBundleId] := by
    simp [hb, initialisations, initialised]
  have he : executions b'.trace = executions b.trace := by simp [hb, executions, executed]
  have hd : deletions b'.trace = deletions b.trace := by simp [hb, deletions, deleted]
  have hold : ∀ id : U32, id.toNat < b.state.rootBundleId.toNat → b'.rootBundles id = b.rootBundles id := by
    intro id hid
    rw [hset]
    apply Function.update_of_ne
    rintro rfl
    exact Nat.lt_irrefl _ hid
  refine ⟨?_, ?_, ?_, ?_, ?_, ?_, ?_⟩
  · intro id r hr
    rw [hcount]
    by_cases hid : id = b.state.rootBundleId
    · rw [hid]
      exact Nat.lt_succ_self _
    · rw [hset, Function.update_of_ne hid] at hr
      exact Nat.lt_succ_of_lt (hg.known id r hr)
  · intro id hid
    rw [hi] at hid
    rw [hcount]
    rcases List.mem_append.mp hid with hid | hid
    · exact Nat.lt_succ_of_lt (hg.initialised id hid)
    · rw [List.mem_singleton.mp hid]
      exact Nat.lt_succ_self _
  · rw [hi]
    refine List.pairwise_append.mpr ⟨hg.increasing, List.pairwise_singleton _ _, fun id hid id' hid' => ?_⟩
    rw [List.mem_singleton.mp hid']
    exact hg.initialised id hid
  · intro id l hmem
    rw [he] at hmem
    obtain ⟨hid, hclaimed⟩ := hg.executed id l hmem
    rw [hcount, hold id hid]
    exact ⟨Nat.lt_succ_of_lt hid, hclaimed⟩
  · rw [he]
    exact hg.once
  · intro id hid
    rw [hd] at hid
    obtain ⟨hlt', hnone⟩ := hg.deleted id hid
    rw [hcount, hold id hlt']
    exact ⟨Nat.lt_succ_of_lt hlt', hnone⟩
  · rw [hb]
    exact apart_append hg.apart (by simp [executed])

theorem emergencyDeleteRootBundle_guarded {x : EmergencyDeleteRootBundle} (hg : Guarded b)
    (h : Ok (emergencyDeleteRootBundle R x) b u b') : Guarded b' := by
  obtain ⟨⟨r, hr⟩, w, hb⟩ := emergencyDeleteRootBundle_ok h
  have hset : b'.rootBundles = Function.update b.rootBundles x.rootBundleId none := congrArg Bank.rootBundles hb
  have hs : b'.state = b.state := by rw [hb]
  have hi : initialisations b'.trace = initialisations b.trace := by simp [hb, initialisations, initialised]
  have he : executions b'.trace = executions b.trace := by simp [hb, executions, executed]
  have hd : deletions b'.trace = deletions b.trace ++ [x.rootBundleId] := by simp [hb, deletions, deleted]
  have hgone : b'.rootBundles x.rootBundleId = none := by rw [hset, Function.update_self]
  have hold : ∀ id, id ≠ x.rootBundleId → b'.rootBundles id = b.rootBundles id := by
    intro id hid
    rw [hset, Function.update_of_ne hid]
  have hfewer : ∀ id r', b'.rootBundles id = some r' → b.rootBundles id = some r' := by
    intro id r' hr'
    by_cases hid : id = x.rootBundleId
    · rw [hid, hgone] at hr'
      cases hr'
    · rwa [hold id hid] at hr'
  refine ⟨?_, ?_, ?_, ?_, ?_, ?_, ?_⟩
  · intro id r' hr'
    rw [hs]
    exact hg.known id r' (hfewer id r' hr')
  · rw [hi, hs]
    exact hg.initialised
  · rw [hi]
    exact hg.increasing
  · intro id l hmem
    rw [he] at hmem
    obtain ⟨hlt, hclaimed⟩ := hg.executed id l hmem
    rw [hs]
    exact ⟨hlt, fun r' hr' => hclaimed r' (hfewer id r' hr')⟩
  · rw [he]
    exact hg.once
  · intro id hid
    rw [hd] at hid
    rw [hs]
    rcases List.mem_append.mp hid with hid | hid
    · obtain ⟨hlt, hnone⟩ := hg.deleted id hid
      refine ⟨hlt, ?_⟩
      by_cases hx : id = x.rootBundleId
      · rw [hx, hgone]
      · rw [hold id hx, hnone]
    · rw [List.mem_singleton.mp hid]
      exact ⟨hg.known _ r hr, hgone⟩
  · rw [hb]
    exact apart_append hg.apart (by simp [executed])

/-- What a successful instruction can do to the bundles. -/
inductive BundleStep (R : Runtime W) (b b' : Bank W) : Prop
  | quiet (t : List Item) (hr : b'.rootBundles = b.rootBundles)
      (hs : b'.state.rootBundleId = b.state.rootBundleId) (ht : b'.trace = b.trace ++ t) (hq : ∀ y ∈ t, Silent y)
  | executed (x : ExecuteRelayerRefundLeaf) (h : Ok (executeRelayerRefundLeaf R x) b () b')
  | relayed (x : RelayRootBundle) (h : Ok (relayRootBundle R x) b () b')
  | deleted (x : EmergencyDeleteRootBundle) (h : Ok (emergencyDeleteRootBundle R x) b () b')

theorem process_bundles {ix : Instruction} (h : Ok (process R ix) b () b') : BundleStep R b b' := by
  cases ix with
  | fillV3Relay x =>
      obtain ⟨-, -, _, -, -, _, t, p, rfl, hp, rfl⟩ := fillV3Relay_ok h
      refine .quiet _ rfl rfl rfl fun y hy => ?_
      rcases List.mem_append.mp hy with hy | hy
      · rcases List.mem_append.mp hy with hy | hy
        · rw [mem_opening hy]
          exact ⟨rfl, rfl, rfl⟩
        · rcases hp with rfl | rfl
          · cases hy
          · rw [List.mem_singleton.mp hy]
            exact ⟨rfl, rfl, rfl⟩
      · rw [List.mem_singleton.mp hy]
        exact ⟨rfl, rfl, rfl⟩
  | closeFillPda x =>
      obtain ⟨-, -, _, -, -, _, rfl⟩ := closeFillPda_ok h
      exact .quiet _ rfl rfl rfl (by simp [Silent, initialised, executed, deleted])
  | requestV3SlowFill x =>
      obtain ⟨-, -, _, -, -, _, t, rfl, rfl⟩ := requestV3SlowFill_ok h
      refine .quiet _ rfl rfl rfl fun y hy => ?_
      rcases List.mem_append.mp hy with hy | hy
      · rw [mem_opening hy]
        exact ⟨rfl, rfl, rfl⟩
      · rw [List.mem_singleton.mp hy]
        exact ⟨rfl, rfl, rfl⟩
  | executeV3SlowRelayLeaf x =>
      obtain ⟨-, -, _, -, -, _, rfl⟩ := executeV3SlowRelayLeaf_ok h
      exact .quiet _ rfl rfl rfl (by simp [Silent, initialised, executed, deleted])
  | executeRelayerRefundLeaf x => exact .executed x h
  | initializeClaimAccount x =>
      obtain ⟨-, _, rfl⟩ := initializeClaimAccount_ok h
      exact .quiet _ rfl rfl rfl (by simp [Silent, initialised, executed, deleted])
  | claimRelayerRefund x =>
      obtain ⟨_, -, _, rfl⟩ := claimRelayerRefund_ok h
      exact .quiet _ rfl rfl rfl (by simp [Silent, initialised, executed, deleted])
  | closeClaimAccount x =>
      obtain ⟨_, -, -, _, rfl⟩ := closeClaimAccount_ok h
      exact .quiet _ rfl rfl rfl (by simp [Silent, initialised, executed, deleted])
  | bridgeTokensToHubPool x =>
      obtain ⟨_, -, -, _, rfl⟩ := bridgeTokensToHubPool_ok h
      exact .quiet _ rfl rfl rfl (by simp [Silent, initialised, executed, deleted])
  | relayRootBundle x => exact .relayed x h
  | emergencyDeleteRootBundle x => exact .deleted x h
  | pauseFills x =>
      obtain rfl := pauseFills_ok h
      exact .quiet _ rfl rfl rfl (by simp [Silent, initialised, executed, deleted])

theorem BundleStep.guarded (h : BundleStep R b b') (hg : Guarded b) : Guarded b' := by
  cases h with
  | quiet t hr hs ht hq => exact hg.quiet hr hs ht hq
  | executed x h => exact executeRelayerRefundLeaf_guarded hg h
  | relayed x h => exact relayRootBundle_guarded hg h
  | deleted x h => exact emergencyDeleteRootBundle_guarded hg h

theorem Guarded.tick (hg : Guarded b) (t : Int) (w : W) : Guarded { b with clock := t, rest := w } :=
  ⟨hg.known, hg.initialised, hg.increasing, hg.executed, hg.once, hg.deleted, hg.apart⟩

theorem input_guarded {i : Input W} (hg : Guarded b) (h : Ok (input R i) b u b') : Guarded b' := by
  rcases input_ok h with ⟨ix, -, hp⟩ | ⟨w, rfl⟩
  · exact (process_bundles hp).guarded (hg.tick i.time b.rest)
  · exact hg.tick i.time w

theorem initialized_guarded (owner : Pubkey) (c : U64) (remoteDomain : U32) (crossDomainAdmin : Pubkey) (clock : Int)
    (w : W) : Guarded (initialized owner c remoteDomain crossDomainAdmin clock w) := by
  refine ⟨?_, ?_, List.Pairwise.nil, ?_, List.nodup_nil, ?_, List.Pairwise.nil⟩
  · intro id r hr
    cases hr
  · intro id hid
    cases hid
  · intro id l hl
    cases hl
  · intro id hid
    cases hid

end Steps

section Theorems

/-- Why an execution cannot succeed: the bundle is gone, the leaf is done, or a
check of the leaf fails. -/
inductive Refused (x : ExecuteRelayerRefundLeaf) (b : Bank W) : Prop
  | deleted (h : x.rootBundleId ∈ deletions b.trace)
  | executed (h : (x.rootBundleId, x.relayerRefundLeaf.leafId) ∈ executions b.trace)
  | proof (h : ∀ r, b.rootBundles x.rootBundleId = some r →
      verifyMerkleProof r.relayerRefundRoot x.relayerRefundLeaf.toKeccakHash x.proof = false)
  | chainId (h : x.relayerRefundLeaf.chainId ≠ b.state.chainId)
  | lengths (h : x.relayerRefundLeaf.refundAccounts.length ≠ x.relayerRefundLeaf.refundAmounts.length)

theorem Refused.reverts {x : ExecuteRelayerRefundLeaf} (hx : Refused x b) (hg : Guarded b) :
    Reverts (executeRelayerRefundLeaf R x) b := by
  apply (reverts_iff _ _).mpr
  intro _ b' h
  have he := executeRelayerRefundLeaf_ok h
  obtain ⟨r, hr, hproof, hfree, -⟩ := he.bundle
  cases hx with
  | deleted hd =>
      rw [(hg.deleted _ hd).2] at hr
      cases hr
  | executed hx =>
      rw [(hg.executed _ _ hx).2 r hr] at hfree
      cases hfree
  | proof hp =>
      rw [hp r hr] at hproof
      cases hproof
  | chainId hc => exact hc he.chainId
  | lengths hl => exact hl he.lengths

end Theorems

end Across.SvmBundles
