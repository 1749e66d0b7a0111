import Across.SvmBundles

namespace Across.BundleSizes

open WordBytes Keccak Borsh CallExec CallExec.Exec SvmTypes SvmState SvmProgram SvmSteps SvmBundles

section Account

/-- A longer account is filled up with zeros. -/
def realloc (newLen : Nat) (data : Bytes) : Bytes := (data.take newLen).rightpad newLen 0

/-- The fields of a bundle, after the eight bytes that mark the type of an account. -/
abbrev Stored := U64 × Hash × Hash × Vector8

/-- The fields are written over the front of the account, and have to fit it. -/
def trySerialize (discriminator : U64) (r : RootBundle) (data : Bytes) : Except Error Bytes :=
  if h : r.claimedBitmap.length < 2 ^ 32 then
    let x : Stored := (discriminator, r.relayerRefundRoot, r.slowRelayRoot, ⟨r.claimedBitmap, h⟩)
    let bytes := Codec.tryToVec x
    if bytes.length ≤ data.length then .ok (bytes ++ data.drop bytes.length) else .error .accountDidNotSerialize
  else .error .accountDidNotSerialize

/-- The bytes after the fields are ignored. -/
def tryDeserialize (discriminator : U64) (data : Bytes) : Option RootBundle := do
  let (x, _) ← (Codec.deserialize data : Option (Stored × Bytes))
  if x.1 = discriminator then some ⟨x.2.1, x.2.2.1, x.2.2.2.val, data.length⟩ else none

variable {discriminator : U64} {data : Bytes} {r : RootBundle}

theorem length_realloc {n : Nat} (h : data.length ≤ n) : (realloc n data).length = n := by
  rw [realloc, List.take_of_length_le h, List.rightpad, List.length_append, List.length_replicate]
  omega

theorem prefix_realloc {n : Nat} (h : data.length ≤ n) : data <+: realloc n data := by
  rw [realloc, List.take_of_length_le h]
  exact List.prefix_append _ _

theorem length_stored (x : Stored) : (Codec.tryToVec x).length = 8 + 32 + 32 + 4 + x.2.2.2.val.length := by
  change (toLE 8 _ ++ (toBE 32 _ ++ (toBE 32 _ ++ (toLE 4 _ ++ _)))).length = _
  simp only [List.length_append, length_toLE, length_toBE]
  omega

/-- Writing succeeds exactly when the account is long enough, and keeps its length. -/
theorem trySerialize_ok (discriminator : U64) (hlt : r.claimedBitmap.length < 2 ^ 32)
    (hfit : 8 + 32 + 32 + 4 + r.claimedBitmap.length ≤ data.length) :
    ∃ data', trySerialize discriminator r data = .ok data' ∧ data'.length = data.length ∧
      tryDeserialize discriminator data' = some { r with dataLen := data.length } := by
  let x : Stored := (discriminator, r.relayerRefundRoot, r.slowRelayRoot, ⟨r.claimedBitmap, hlt⟩)
  have hx : (Codec.tryToVec x).length ≤ data.length := by rwa [length_stored]
  have hlen : (Codec.tryToVec x ++ data.drop (Codec.tryToVec x).length).length = data.length := by
    rw [List.length_append, List.length_drop]
    omega
  refine ⟨_, ?_, hlen, ?_⟩
  · rw [trySerialize, dif_pos hlt]
    exact if_pos hx
  · rw [tryDeserialize, Codec.deserialize_tryToVec, hlen]
    exact if_pos rfl

theorem length_of_tryDeserialize (h : tryDeserialize discriminator data = some r) : data.length = r.dataLen := by
  simp only [tryDeserialize, Option.bind_eq_bind, Option.bind_eq_some_iff, Option.ite_none_right_eq_some] at h
  obtain ⟨_, -, -, h⟩ := h
  exact congrArg RootBundle.dataLen (Option.some.inj h)

end Account

section Sizes

/-- The bundle after the leaf `i` is executed. -/
def withClaim (r : RootBundle) (i : U32) : RootBundle :=
  { r with
    claimedBitmap := setClaimed r.claimedBitmap i
    dataLen := max (rootBundleSpace + i.toNat / 8) r.dataLen }

/-- The leaves `e` are claimed, and the largest of them alone decides the sizes. -/
structure Sized (e : Set U32) (r : RootBundle) : Prop where
  claimed : ∀ l, isClaimed r.claimedBitmap l = true ↔ l ∈ e
  bitmap : ∀ k, r.claimedBitmap.length ≤ k ↔ ∀ l ∈ e, l.toNat / 8 < k
  dataLen : ∀ k, r.dataLen ≤ k ↔ rootBundleSpace ≤ k ∧ ∀ l ∈ e, rootBundleSpace + l.toNat / 8 ≤ k

variable {e e' : Set U32} {r r' : RootBundle}

theorem length_setClaimed (bits : List UInt8) (i : U32) :
    (setClaimed bits i).length = max bits.length (i.toNat / 8 + 1) := by
  rw [setClaimed, List.length_modify, List.rightpad, List.length_append, List.length_replicate]
  omega

theorem sized_empty (root slowRoot : Hash) : Sized ∅ ⟨root, slowRoot, [], rootBundleSpace⟩ where
  claimed l := iff_of_false Bool.false_ne_true (Set.notMem_empty l)
  bitmap _ := iff_of_true (Nat.zero_le _) fun l hl => absurd hl (Set.notMem_empty l)
  dataLen _ := (and_iff_left fun l hl => absurd hl (Set.notMem_empty l)).symm

theorem Sized.withClaim (hs : Sized e r) (i : U32) : Sized (insert i e) (withClaim r i) where
  claimed l := by
    rw [Set.mem_insert_iff, ← hs.claimed l]
    exact (isClaimed_setClaimed _ _ _).trans (or_congr_left eq_comm)
  bitmap k := by
    rw [Set.forall_mem_insert, ← hs.bitmap k]
    change (setClaimed r.claimedBitmap i).length ≤ k ↔ _
    rw [length_setClaimed]
    omega
  dataLen k := by
    rw [Set.forall_mem_insert, and_left_comm, ← hs.dataLen k]
    exact Nat.max_le

theorem sized_foldl (ls : List U32) (hs : Sized e r) : Sized ({l | l ∈ ls} ∪ e) (ls.foldl withClaim r) := by
  induction ls generalizing e r with
  | nil =>
      have he : {l : U32 | l ∈ []} ∪ e = e := by simp
      rwa [he]
  | cons i ls ih =>
      have he : {l | l ∈ i :: ls} ∪ e = {l | l ∈ ls} ∪ insert i e := by
        ext l
        change l ∈ i :: ls ∨ l ∈ e ↔ l ∈ ls ∨ l ∈ insert i e
        rw [List.mem_cons, Set.mem_insert_iff, or_assoc, or_left_comm]
      rw [he]
      exact ih (hs.withClaim i)

/-- The account has room for all claimed bits. -/
theorem Sized.fits (hs : Sized e r) : 8 + 32 + 32 + 4 + r.claimedBitmap.length ≤ r.dataLen := by
  obtain ⟨hspace, hleaves⟩ := (hs.dataLen r.dataLen).mp le_rfl
  have hlen : r.claimedBitmap.length ≤ r.dataLen - 76 := by
    refine (hs.bitmap _).mpr fun l hl => ?_
    have hl := hleaves l hl
    unfold rootBundleSpace at hl
    omega
  unfold rootBundleSpace at hspace
  omega

theorem Sized.length_lt (hs : Sized e r) : r.claimedBitmap.length < 2 ^ 32 := by
  have hlen : r.claimedBitmap.length ≤ 2 ^ 29 := (hs.bitmap _).mpr fun l _ => by
    have hl := l.isLt
    omega
  omega

theorem Sized.dataLen_mono (hs : Sized e r) (hs' : Sized e' r') (he : e ⊆ e') : r.dataLen ≤ r'.dataLen := by
  obtain ⟨hspace, hleaves⟩ := (hs'.dataLen r'.dataLen).mp le_rfl
  exact (hs.dataLen _).mpr ⟨hspace, fun l hl => hleaves l (he hl)⟩

/-- The account of the bundle can be written, whatever it held, and reads back as the bundle. -/
def Storable (discriminator : U64) (r : RootBundle) : Prop :=
  ∀ data : Bytes, data.length = r.dataLen → ∃ data', trySerialize discriminator r data = .ok data' ∧
    data'.length = r.dataLen ∧ tryDeserialize discriminator data' = some r

theorem Sized.storable (hs : Sized e r) (discriminator : U64) : Storable discriminator r := by
  intro data hdata
  have hfit := hs.fits
  rw [← hdata] at hfit
  obtain ⟨data', hser, hlen, hread⟩ := trySerialize_ok discriminator hs.length_lt hfit
  rw [hdata] at hlen hread
  exact ⟨data', hser, hlen, hread⟩

end Sizes

section Runs

variable {W : Type} {R : Runtime W} {b b' : Bank W} {u : Unit}

def executedLeaves (t : List Item) (id : U32) : Set U32 := {l | (id, l) ∈ executions t}

/-- All bundles have the sizes that their executed leaves give them. -/
structure Fitting (b : Bank W) : Prop where
  guarded : Guarded b
  sized : ∀ id r, b.rootBundles id = some r → Sized (executedLeaves b.trace id) r

theorem executed_bundle {x : ExecuteRelayerRefundLeaf} (h : Ok (executeRelayerRefundLeaf R x) b u b') :
    ∃ r, b.rootBundles x.rootBundleId = some r ∧ b'.rootBundles =
      Function.update b.rootBundles x.rootBundleId (some (withClaim r x.relayerRefundLeaf.leafId)) := by
  obtain ⟨r, hr, -, -, hset⟩ := (executeRelayerRefundLeaf_ok h).bundle
  exact ⟨r, hr, hset⟩

theorem executedLeaves_executed {x : ExecuteRelayerRefundLeaf} (h : Ok (executeRelayerRefundLeaf R x) b u b')
    (id : U32) : executedLeaves b'.trace id = if id = x.rootBundleId
      then insert x.relayerRefundLeaf.leafId (executedLeaves b.trace id) else executedLeaves b.trace id := by
  ext l
  change (id, l) ∈ executions b'.trace ↔ _
  rw [executions_of_executed (executeRelayerRefundLeaf_ok h), List.mem_append, List.mem_singleton, Prod.mk.injEq]
  by_cases hid : id = x.rootBundleId
  · rw [if_pos hid, Set.mem_insert_iff, or_comm]
    simp only [hid, true_and]
    rfl
  · rw [if_neg hid]
    simp only [hid, false_and, or_false]
    rfl

theorem executedLeaves_silent {t : List Item} (ht : b'.trace = b.trace ++ t) (hq : ∀ y ∈ t, executed y = none)
    (id : U32) : executedLeaves b'.trace id = executedLeaves b.trace id := by
  simp only [executedLeaves, ht, executions, List.filterMap_append, filterMap_silent hq, List.append_nil]

theorem executed_fitting {x : ExecuteRelayerRefundLeaf} (hf : Fitting b)
    (h : Ok (executeRelayerRefundLeaf R x) b u b') : Fitting b' := by
  refine ⟨executeRelayerRefundLeaf_guarded hf.guarded h, fun id r' hr' => ?_⟩
  obtain ⟨r, hr, hset⟩ := executed_bundle h
  rw [hset] at hr'
  rw [executedLeaves_executed h]
  by_cases hid : id = x.rootBundleId
  · rw [hid, Function.update_self] at hr'
    obtain rfl := Option.some.inj hr'
    rw [if_pos hid, hid]
    exact (hf.sized _ r hr).withClaim _
  · rw [Function.update_of_ne hid] at hr'
    rw [if_neg hid]
    exact hf.sized id r' hr'

theorem relayed_fitting {x : RelayRootBundle} (hf : Fitting b) (h : Ok (relayRootBundle R x) b u b') : Fitting b' := by
  refine ⟨relayRootBundle_guarded hf.guarded h, fun id r' hr' => ?_⟩
  obtain ⟨-, -, w, rfl⟩ := relayRootBundle_ok h
  change Function.update b.rootBundles _ _ id = some r' at hr'
  rw [executedLeaves_silent rfl (by simp [executed])]
  by_cases hid : id = b.state.rootBundleId
  · rw [hid, Function.update_self] at hr'
    obtain rfl := Option.some.inj hr'
    -- no leaf of a bundle is executed before the bundle exists
    have hnone : executedLeaves b.trace id = ∅ := by
      ext l
      refine iff_of_false (fun hl => ?_) (Set.notMem_empty l)
      have hlt := (hf.guarded.executed id l hl).1
      rw [hid] at hlt
      exact Nat.lt_irrefl _ hlt
    rw [hnone]
    exact sized_empty _ _
  · rw [Function.update_of_ne hid] at hr'
    exact hf.sized id r' hr'

theorem deleted_fitting {x : EmergencyDeleteRootBundle} (hf : Fitting b)
    (h : Ok (emergencyDeleteRootBundle R x) b u b') : Fitting b' := by
  refine ⟨emergencyDeleteRootBundle_guarded hf.guarded h, fun id r' hr' => ?_⟩
  obtain ⟨-, w, rfl⟩ := emergencyDeleteRootBundle_ok h
  change Function.update b.rootBundles _ _ id = some r' at hr'
  rw [executedLeaves_silent rfl (by simp [executed])]
  by_cases hid : id = x.rootBundleId
  · rw [hid, Function.update_self] at hr'
    cases hr'
  · rw [Function.update_of_ne hid] at hr'
    exact hf.sized id r' hr'

theorem step_fitting (hf : Fitting b) (h : BundleStep R b b') : Fitting b' := by
  cases h with
  | quiet t hr hs ht hq =>
      refine ⟨hf.guarded.quiet hr hs ht hq, fun id r hb => ?_⟩
      rw [hr] at hb
      rw [executedLeaves_silent ht fun y hy => (hq y hy).2.1]
      exact hf.sized id r hb
  | executed x h => exact executed_fitting hf h
  | relayed x h => exact relayed_fitting hf h
  | deleted x h => exact deleted_fitting hf h

theorem executedLeaves_mono (h : BundleStep R b b') (id : U32) :
    executedLeaves b.trace id ⊆ executedLeaves b'.trace id := by
  cases h with
  | quiet t hr hs ht hq => exact (executedLeaves_silent ht (fun y hy => (hq y hy).2.1) id).superset
  | executed x h =>
      rw [executedLeaves_executed h]
      split
      · exact Set.subset_insert _ _
      · exact subset_rfl
  | relayed x h =>
      obtain ⟨-, -, w, rfl⟩ := relayRootBundle_ok h
      exact (executedLeaves_silent rfl (by simp [executed]) id).superset
  | deleted x h =>
      obtain ⟨-, w, rfl⟩ := emergencyDeleteRootBundle_ok h
      exact (executedLeaves_silent rfl (by simp [executed]) id).superset

theorem Fitting.tick (hf : Fitting b) (t : Int) (w : W) : Fitting { b with clock := t, rest := w } :=
  ⟨hf.guarded.tick t w, hf.sized⟩

theorem input_step {i : Input W} (h : Ok (input R i) b u b') :
    (∃ t w, b' = { b with clock := t, rest := w }) ∨ BundleStep R { b with clock := i.time } b' := by
  rcases input_ok h with ⟨ix, -, hp⟩ | ⟨w, rfl⟩
  · exact .inr (process_bundles hp)
  · exact .inl ⟨i.time, w, rfl⟩

theorem input_fitting {i : Input W} (hf : Fitting b) (h : Ok (input R i) b u b') : Fitting b' := by
  rcases input_step h with ⟨t, w, rfl⟩ | h
  · exact hf.tick t w
  · exact step_fitting (hf.tick i.time b.rest) h

section Failures

variable {P : Error → Prop}

theorem checkMint_fails {mint tokenProgram expected : Pubkey} (h : P .invalidMint) :
    FailsWith P (checkMint R mint tokenProgram expected) :=
  .bind .read fun _ => .bind (.require h) fun _ => .require h

theorem checkAssociated_fails {key mint authority tokenProgram : Pubkey} (h : P .constraintAssociated)
    (hn : P .accountNotInitialized) : FailsWith P (checkAssociated R key mint authority tokenProgram) :=
  .bind .read fun _ => .bind (.require h) fun _ => .bind (loaded_fails hn) fun _ => .require h

theorem initTransferLiability_fails {mint payer : Pubkey} (h : P .rentNotPaid) :
    FailsWith P (initTransferLiability R mint payer) := by
  refine .bind .read fun b => ?_
  split
  · exact .pure _
  · exact .bind (invoke_fails h) fun _ => .bind (.update _) fun _ => .pure _

theorem refundFrom_fails {x : ExecuteRelayerRefundLeaf} {i : Nat} {rs : List (Pubkey × U64)}
    (hk : P .accountNotEnoughKeys) (hi : ∀ n, P (.invalidRefund n)) (hc : P .cpiFailed) (ho : P .overflow) :
    FailsWith P (refundFrom R x i rs) := by
  induction rs generalizing i with
  | nil => exact .pure false
  | cons r rs ih =>
      refine .bind (.bind .read fun b => ?_) fun _ => .bind ih fun _ => .pure _
      split
      · rename_i e he
        refine .revert ?_
        unfold tryFromRemainingAccount at he
        split at he
        · obtain rfl := Except.error.inj he
          exact hk
        · split at he
          · cases he
          · obtain rfl := Except.error.inj he
            exact hi i
      · exact .bind (invoke_fails hc) fun _ => .pure _
      · exact .bind (.require ho) fun _ => .bind (.update _) fun _ => .pure _

/-- In an execution the bundle always fits its account. -/
theorem executeRelayerRefundLeaf_serializes {x : ExecuteRelayerRefundLeaf} (hf : Fitting b) :
    (executeRelayerRefundLeaf R x b).result ≠ .error .accountDidNotSerialize := by
  intro h
  simp only [executeRelayerRefundLeaf] at h
  rw [result_read_bind] at h
  cases hr : b.rootBundles x.rootBundleId with
  | none =>
      rw [hr, loaded, result_bind_error rfl] at h
      cases h
  | some r =>
      rw [hr, result_bind_ok (loaded_ok.mpr ⟨rfl, rfl⟩)] at h
      have hfits : 8 + 32 + 32 + 4 + (setClaimed r.claimedBitmap x.relayerRefundLeaf.leafId).length ≤
          max (rootBundleSpace + x.relayerRefundLeaf.leafId.toNat / 8) r.dataLen :=
        ((hf.sized _ r hr).withClaim x.relayerRefundLeaf.leafId).fits
      refine (?_ : FailsWith (· ≠ Error.accountDidNotSerialize) _) b _ h rfl
      refine .bind (.when (invoke_fails (by decide))) fun _ =>
        .bind (checkAssociated_fails (by decide) (by decide)) fun _ => .bind (checkMint_fails (by decide)) fun _ =>
        .bind (initTransferLiability_fails (by decide)) fun l => .bind (.require (by decide)) fun _ =>
        .bind (.require (by decide)) fun _ => .bind (.require (by decide)) fun _ => .bind (.update _) fun _ =>
        .bind (.require (by decide)) fun _ =>
        .bind (refundFrom_fails (by decide) (fun _ => by rintro ⟨⟩) (by decide) (by decide)) fun d =>
        .bind (.when (.bind (.require (by decide)) fun _ => .update _)) fun _ => .bind (.update _) fun _ => ?_
      rw [require, if_pos hfits]
      exact .pure ()

end Failures

end Runs

section Theorems

variable {W : Type} {R : Runtime W} {b b' : Bank W}

/-- What the execution of a leaf does to its bundle, and to the account that holds it. -/
structure Grown (discriminator : U64) (i : U32) (r r' : RootBundle) : Prop where
  bitmap : r'.claimedBitmap = setClaimed r.claimedBitmap i
  dataLen : r'.dataLen = max (rootBundleSpace + i.toNat / 8) r.dataLen
  fits : 8 + 32 + 32 + 4 + r'.claimedBitmap.length ≤ r'.dataLen
  written : ∀ data, tryDeserialize discriminator data = some r → data <+: realloc r'.dataLen data ∧
    ∃ data', trySerialize discriminator r' (realloc r'.dataLen data) = .ok data' ∧
      tryDeserialize discriminator data' = some r'

theorem Sized.grown {e : Set U32} {r : RootBundle} (hs : Sized e r) (discriminator : U64) (i : U32) :
    Grown discriminator i r (BundleSizes.withClaim r i) := by
  refine ⟨rfl, rfl, (hs.withClaim i).fits, fun data hdata => ?_⟩
  have hle : data.length ≤ (BundleSizes.withClaim r i).dataLen := by
    rw [length_of_tryDeserialize hdata]
    exact Nat.le_max_right _ _
  obtain ⟨data', hser, -, hread⟩ := (hs.withClaim i).storable discriminator _ (length_realloc hle)
  exact ⟨prefix_realloc hle, data', hser, hread⟩

theorem step_grows {id : U32} {r r' : RootBundle} (hf : Fitting b) (h : BundleStep R b b')
    (hr : b.rootBundles id = some r) (hr' : b'.rootBundles id = some r') : r.dataLen ≤ r'.dataLen ∧
      ∀ l, isClaimed r.claimedBitmap l = true → isClaimed r'.claimedBitmap l = true := by
  have hs := hf.sized id r hr
  have hs' := (step_fitting hf h).sized id r' hr'
  have hsub := executedLeaves_mono h id
  exact ⟨hs.dataLen_mono hs' hsub, fun l hl => (hs'.claimed l).mpr (hsub ((hs.claimed l).mp hl))⟩

theorem input_grows {i : Input W} {id : U32} {r r' : RootBundle} (hf : Fitting b) (h : Ok (input R i) b () b')
    (hr : b.rootBundles id = some r) (hr' : b'.rootBundles id = some r') : r.dataLen ≤ r'.dataLen ∧
      ∀ l, isClaimed r.claimedBitmap l = true → isClaimed r'.claimedBitmap l = true := by
  rcases input_step h with ⟨t, w, rfl⟩ | h
  · obtain rfl := Option.some.inj (hr.symm.trans hr')
    exact ⟨le_rfl, fun _ hl => hl⟩
  · exact step_grows (hf.tick i.time b.rest) h hr hr'

/-- In every run the account of each bundle has room for its bitmap, which is as long
as the largest executed leaf needs, so an execution never fails to write the bundle
back, and what is written gives all claimed bits back. No account shrinks. -/
theorem bundles_fit_accounts (R : Runtime W) (inputs : List (Input W)) (owner : Pubkey) (c : U64) (remoteDomain : U32)
    (crossDomainAdmin : Pubkey) (clock : Int) (w : W) (discriminator : U64) :
    ∃ b, Ok (run R inputs) (initialized owner c remoteDomain crossDomainAdmin clock w) () b ∧
      (∀ root slowRoot (ls : List U32), Sized {l | l ∈ ls} (ls.foldl withClaim ⟨root, slowRoot, [], rootBundleSpace⟩)) ∧
      (∀ id r, b.rootBundles id = some r → Sized (executedLeaves b.trace id) r ∧ Storable discriminator r ∧
        8 + 32 + 32 + 4 + r.claimedBitmap.length ≤ r.dataLen) ∧
      (∀ x t, (executeRelayerRefundLeaf R x { b with clock := t }).result ≠ .error .accountDidNotSerialize) ∧
      (∀ x t b', Ok (executeRelayerRefundLeaf R x) { b with clock := t } () b' →
        ∃ r r', b.rootBundles x.rootBundleId = some r ∧ b'.rootBundles x.rootBundleId = some r' ∧
          Grown discriminator x.relayerRefundLeaf.leafId r r') ∧
      ∀ i b', Ok (input R i) b () b' → ∀ id r r', b.rootBundles id = some r → b'.rootBundles id = some r' →
        r.dataLen ≤ r'.dataLen ∧ ∀ l, isClaimed r.claimedBitmap l = true → isClaimed r'.claimedBitmap l = true := by
  obtain ⟨b, hrun⟩ := run_returns R inputs (initialized owner c remoteDomain crossDomainAdmin clock w)
  have hstart : Fitting (initialized owner c remoteDomain crossDomainAdmin clock w) := by
    refine ⟨initialized_guarded _ _ _ _ _ _, ?_⟩
    intro id r hr
    cases hr
  have hf : Fitting b := run_invariant (I := fun _ => Fitting) input_fitting hstart hrun
  refine ⟨b, hrun, fun root slowRoot ls => ?_, fun id r hr => ?_, fun x t => ?_, fun x t b' h => ?_,
    fun i b' h id r r' hr hr' => ?_⟩
  · have hs := sized_foldl ls (sized_empty root slowRoot)
    rwa [Set.union_empty] at hs
  · have hs := hf.sized id r hr
    exact ⟨hs, hs.storable discriminator, hs.fits⟩
  · exact executeRelayerRefundLeaf_serializes (hf.tick t b.rest)
  · obtain ⟨r, hr, hset⟩ := executed_bundle h
    refine ⟨r, withClaim r x.relayerRefundLeaf.leafId, hr, ?_, (hf.sized _ r hr).grown discriminator _⟩
    rw [hset, Function.update_self]
  · exact input_grows hf h hr hr'

end Theorems

end Across.BundleSizes
