import Across.FillLifecycle
import Across.PausedFills

namespace Across.SettlerFill

open WordBytes Abi Keccak CallExec CallExec.Exec SpokeTypes SpokeState SpokePool SpokeRules FillLifecycle
  PausedFills

structure AcrossDestinationFillerData where
  repaymentChainId : Uint256

def AcrossDestinationFillerData.encoded (d : AcrossDestinationFillerData) : Bytes :=
  encode [.word d.repaymentChainId.toNat]

/-- The twelve fields of the relay as the depositor contract encodes them into
its fill instruction: as twelve arguments, without the offset that a struct
argument would start with. -/
def originData (r : V3RelayData) : Bytes := encode r.parts

section Layout

variable (r : V3RelayData) (c : Uint256)

def packedLength : Nat := 448 + (r.message.val.length + padding r.message.val.length)

theorem length_packed :
    (originData r ++ (AcrossDestinationFillerData.mk c).encoded).length = packedLength r := by
  have hp : r.parts.length = 12 := rfl
  have ht : tails r.parts = encodeBytes r.message.val := by
    rw [V3RelayData.parts, tails_words]
    simp only [tails, List.append_nil]
  simp only [originData, AcrossDestinationFillerData.encoded, List.length_append, length_encode, hp, ht,
    length_encodeBytes, List.length_singleton, tails, List.length_nil, packedLength]
  omega

/-- The calldata of the delegatecall: the offset and the length of the packed
bytes come before the relay data. -/
theorem fillCalldata_eq : fillCalldata (originData r) (AcrossDestinationFillerData.mk c).encoded =
    words ([32, packedLength r] ++ r.members ++ [384]) ++ (encodeBytes r.message.val ++ word c.toNat) := by
  have hd : 32 ∣ (originData r ++ (AcrossDestinationFillerData.mk c).encoded).length := by
    have h := padding_dvd r.message.val.length
    rw [length_packed, packedLength]
    omega
  have he : (AcrossDestinationFillerData.mk c).encoded = word c.toNat := by
    simp [AcrossDestinationFillerData.encoded, encode, headWords, tails]
  have ho : originData r = words (r.members ++ [384]) ++ encodeBytes r.message.val := r.encode_parts
  have hf : ∀ bs, fillCalldata (originData r) bs = word 32 ++ encodeBytes (originData r ++ bs) := by
    intro bs
    simp [fillCalldata, encode, headWords, tails]
  rw [hf, encodeBytes, pad32_of_dvd hd, length_packed, he, ho]
  simp only [words_append, words_cons, words_nil, List.append_nil, List.append_assoc]

theorem length_fillCalldata :
    (fillCalldata (originData r) (AcrossDestinationFillerData.mk c).encoded).length = 64 + packedLength r := by
  have hm : r.members.length = 11 := rfl
  simp only [fillCalldata_eq, List.length_append, length_words, List.length_cons, List.length_nil, hm,
    length_encodeBytes, length_word, packedLength]
  omega

theorem wordAt_fillCalldata {i n : Nat} (hi : ([32, packedLength r] ++ r.members ++ [384])[i]? = some n) :
    wordAt (fillCalldata (originData r) (AcrossDestinationFillerData.mk c).encoded) (32 * i) = some n := by
  have hb : r.message.val.length < 2 ^ 64 := r.message.property
  have hp : padding r.message.val.length < 32 := Nat.mod_lt _ (by decide)
  rw [fillCalldata_eq]
  refine wordAt_words (fun k hk => ?_) _ hi
  simp only [List.mem_append, List.mem_cons, List.not_mem_nil, or_false] at hk
  rcases hk with ((rfl | rfl) | hk) | rfl
  · decide
  · have hl : packedLength r < 448 + (2 ^ 64 + 32) := by
      rw [packedLength]
      omega
    exact lt_trans hl (by decide)
  · exact r.members_lt k hk
  · decide

theorem wordAt_fillCalldata_last :
    wordAt (fillCalldata (originData r) (AcrossDestinationFillerData.mk c).encoded) (32 + packedLength r) =
      some c.toNat := by
  have hl : (words ([32, packedLength r] ++ r.members ++ [384]) ++ encodeBytes r.message.val).length + 0 =
      32 + packedLength r := by
    have hm : r.members.length = 11 := rfl
    simp only [List.length_append, length_words, List.length_cons, List.length_nil, hm, length_encodeBytes,
      packedLength]
    omega
  have hw := wordAt_word c.isLt []
  rw [List.append_nil] at hw
  rw [fillCalldata_eq, ← List.append_assoc, ← hl, wordAt_append_right]
  exact hw

end Layout

/-- The decoder reads every field one word too early. The relay it finds is
never the one that was packed: all fields of that relay would have to equal
the length of the packed bytes, and its message would end past the calldata. -/
theorem decode_fillCalldata_ne (r : V3RelayData) (c : Uint256) :
    decodeFillV3Relay (fillCalldata (originData r) (AcrossDestinationFillerData.mk c).encoded) ≠ some (r, c) := by
  intro h
  have hw : ∀ i n, ([32, packedLength r] ++ r.members ++ [384])[i]? = some n → wordAt
      (fillCalldata (originData r) (AcrossDestinationFillerData.mk c).encoded) (32 * i) = some n :=
    fun i n => wordAt_fillCalldata r c
  have hlast := wordAt_fillCalldata_last r c
  have hlen := length_fillCalldata r c
  generalize fillCalldata (originData r) (AcrossDestinationFillerData.mk c).encoded = cd at h hw hlast hlen
  obtain ⟨base, hbase, hc, hr⟩ := decodeFillV3Relay_some h
  obtain rfl : base = 32 := offsetAt_some (hw 0 32 rfl) hbase
  obtain ⟨h₁, h₂, h₃, h₄, h₅, h₆, h₇, h₈, h₉, h₁₀, h₁₁, off, h₁₂, h₁₃⟩ := decodeRelayData_some hr
  have e₁ := uintAt_some (hw 1 _ rfl) h₁
  have e₂ := uintAt_some (hw 2 _ rfl) h₂
  have e₃ := uintAt_some (hw 3 _ rfl) h₃
  have e₄ := uintAt_some (hw 4 _ rfl) h₄
  have e₅ := uintAt_some (hw 5 _ rfl) h₅
  have e₆ := uintAt_some (hw 6 _ rfl) h₆
  have e₇ := uintAt_some (hw 7 _ rfl) h₇
  have e₈ := uintAt_some (hw 8 _ rfl) h₈
  have e₉ := uintAt_some (hw 9 _ rfl) h₉
  have e₁₀ := uintAt_some (hw 10 _ rfl) h₁₀
  have e₁₁ := uintAt_some (hw 11 _ rfl) h₁₁
  have e₁₂ := offsetAt_some (hw 12 _ rfl) h₁₂
  have ec := uintAt_some (hw 1 _ rfl) hc
  have hoff : off = packedLength r := by omega
  rw [hoff] at h₁₃
  have hfit := bytesAt_fits hlast h₁₃
  rw [hlen, ← ec] at hfit
  simp only [packedLength] at hfit
  omega

section Agreement

variable {W : Type}

/-- The settler's call that fills `r`: the order is identified by the hash of
the data that its depositor published. -/
def fillCall (r : V3RelayData) (c : Uint256) : Call :=
  .fill (keccak256 (originData r)) (originData r) (AcrossDestinationFillerData.mk c).encoded

def filledEvents (t : List TraceItem) : List FilledV3Relay :=
  t.filterMap fun
    | .event _ (.filledV3Relay f) => some f
    | _ => none

/-- The settler's call does what `fillV3Relay` does: it succeeds in the same
states, and leaves the same statuses, the same world outside the pool and the
same events. The call is given the one level of the call stack that its
delegatecall takes. -/
structure Agrees (V : Variant W) (H : Host W) (n : Nat) (msg : Msg) (s : World W) (r : V3RelayData)
    (c : Uint256) : Prop where
  success : (∃ s', Ok (exec V H (n + 1) msg (fillCall r c)) s () s') ↔
    ∃ s', Ok (exec V H n msg (.fillV3Relay r c)) s () s'
  effect : ∀ s₁ s₂, Ok (exec V H (n + 1) msg (fillCall r c)) s () s₁ →
    Ok (exec V H n msg (.fillV3Relay r c)) s () s₂ →
    s₁.pool.fillStatuses = s₂.pool.fillStatuses ∧ s₁.rest = s₂.rest ∧
      filledEvents s₁.trace = filledEvents s₂.trace

variable {V : Variant W} {H : Host W} {n : Nat} {msg : Msg} {s s' : World W} {r : V3RelayData} {c : Uint256}

theorem exec_fillV3Relay_event (h : Ok (exec V H n msg (.fillV3Relay r c)) s () s') :
    ∃ f fs, filledEvents s'.trace = filledEvents s.trace ++ f :: fs ∧ f.relay = r ∧ f.repaymentChainId = c := by
  cases n with
  | zero => exact ((revert_ok _ _ _ _).mp h).elim
  | succ n =>
      have hn : ∀ msg call, Keeps (lifecycle V) (enter H (exec V H n) msg call) :=
        enter_keeps (fun _ _ => trivial) FillLifecycle.rest_extends (exec_lifecycle V H n)
      obtain ⟨_, t, hx, hf⟩ := (bind_ok _ _ _ _ _).mp (exec_dispatch h)
      simp only [checkExclusivity, bind_ok, read_ok, require_ok] at hx
      obtain ⟨_, _, ⟨rfl, rfl⟩, -, rfl⟩ := hx
      obtain ⟨-, cs, -, q, hq, -⟩ := fillRelayV3_paying hn hf
      refine ⟨fillEvent ⟨r, getV3RelayHash V.chainId r, r.outputAmount, r.recipient, r.message, c⟩ msg.sender
        false (s.pool.fillStatuses (getV3RelayHash V.chainId r)), filledEvents q, ?_, rfl, rfl⟩
      rw [hq]
      simp only [filledEvents, afterFill, List.filterMap_append, List.append_assoc]
      rfl

theorem exec_fillCall (h : Ok (exec V H (n + 1) msg (fillCall r c)) s () s') :
    Ok (exec V H n msg (decodeFillCall (originData r) (AcrossDestinationFillerData.mk c).encoded)) s () s' :=
  (fill_decodes (exec_dispatch h)).2

theorem effects_differ {s₁ s₂ : World W} (h₁ : Ok (exec V H (n + 1) msg (fillCall r c)) s () s₁)
    (h₂ : Ok (exec V H n msg (.fillV3Relay r c)) s () s₂) :
    filledEvents s₁.trace ≠ filledEvents s₂.trace := by
  intro he
  have hi := exec_fillCall h₁
  simp only [decodeFillCall] at hi
  split at hi
  · rename_i g d hd
    obtain ⟨f₁, fs₁, hf₁, hg, hd'⟩ := exec_fillV3Relay_event hi
    obtain ⟨f₂, fs₂, hf₂, hr, hc⟩ := exec_fillV3Relay_event h₂
    rw [hf₁, hf₂] at he
    obtain ⟨hf, -⟩ := List.cons.inj (List.append_cancel_left he)
    apply decode_fillCalldata_ne r c
    rw [hd, ← hg, ← hd', hf, hr, hc]
  · exact exec_undecodable n hi

theorem Agrees.fails (h : Agrees V H n msg s r c) :
    (¬ ∃ s', Ok (exec V H (n + 1) msg (fillCall r c)) s () s') ∧
      ¬ ∃ s', Ok (exec V H n msg (.fillV3Relay r c)) s () s' := by
  refine ⟨fun ⟨s₁, h₁⟩ => ?_, fun ⟨s₂, h₂⟩ => ?_⟩
  · obtain ⟨s₂, h₂⟩ := h.success.mp ⟨s₁, h₁⟩
    exact effects_differ h₁ h₂ (h.effect s₁ s₂ h₁ h₂).2.2
  · obtain ⟨s₁, h₁⟩ := h.success.mpr ⟨s₂, h₂⟩
    exact effects_differ h₁ h₂ (h.effect s₁ s₂ h₁ h₂).2.2

theorem relay_open (V : Variant W) (r : V3RelayData) (w : W) :
    ¬ RelayRefused V r.exclusiveRelayer r (⟨⟨0, 0, 0, false, false, [], fun _ _ => false, fun _ => .unfilled, 0,
      false, 0, 0, false, 0, 0⟩, 0, w, []⟩ : World W) := by
  rintro (⟨-, h⟩ | h | h)
  · exact h rfl
  · exact absurd h (Nat.not_lt_zero _)
  · cases h

/-- The settler's call never does what `fillV3Relay` does. The two agree only
where both fail for reasons of their own, and no relay is such that they always
do. Under any other order id the settler's call reverts. -/
theorem fill_agrees_iff_refused [Inhabited W] (V : Variant W) (r : V3RelayData) (c : Uint256) :
    (∀ msg (s : World W), (∀ H n, Agrees V H n msg s r c) ↔
      Refused V msg s (.fillV3Relay r c) ∧ Refused V msg s (fillCall r c)) ∧
    (∃ msg, ∃ s : World W, ¬ ∀ H n, Agrees V H n msg s r c) ∧
    ∀ H n msg (s : World W) o, o ≠ keccak256 (originData r) →
      Reverts (exec V H n msg (.fill o (originData r) (AcrossDestinationFillerData.mk c).encoded)) s := by
  refine ⟨fun msg s => ⟨fun h => ?_, fun h H n => ?_⟩, ?_, fun H n msg s o ho => ?_⟩
  · obtain ⟨hf, hd⟩ := (h willing 1).fails
    refine ⟨by_contra fun hr => hd ?_, by_contra fun hr => hf ?_⟩
    · simp only [Refused, not_or, not_not] at hr
      obtain ⟨s', hs', -⟩ := exec_fillV3Relay_willing 0 msg hr.1 c hr.2
      exact ⟨s', hs'⟩
    · simp only [fillCall, Refused, not_or, not_not, not_forall] at hr
      obtain ⟨hv, -, g, d, hg, hg'⟩ := hr
      obtain ⟨s', hs', -⟩ := exec_fill_willing 0 hv rfl hg hg'
      exact ⟨s', hs'⟩
  · have h₁ : ∀ s', ¬ Ok (exec V H (n + 1) msg (fillCall r c)) s () s' :=
      fun s' hs' => exec_fill_not_refused (n + 1) hs' h.2
    have h₂ : ∀ s', ¬ Ok (exec V H n msg (.fillV3Relay r c)) s () s' :=
      fun s' hs' => exec_fillV3Relay_not_refused n hs' h.1
    refine ⟨⟨?_, ?_⟩, fun s₁ _ hs₁ _ => absurd hs₁ (h₁ s₁)⟩
    · rintro ⟨s', hs'⟩
      exact absurd hs' (h₁ s')
    · rintro ⟨s', hs'⟩
      exact absurd hs' (h₂ s')
  · refine ⟨⟨r.exclusiveRelayer, 0⟩, ⟨⟨0, 0, 0, false, false, [], fun _ _ => false, fun _ => .unfilled, 0, false,
      0, 0, false, 0, 0⟩, 0, default, []⟩, fun h => ?_⟩
    refine (h willing 1).fails.2 ?_
    obtain ⟨s', hs', -⟩ := exec_fillV3Relay_willing (V := V) 0 ⟨r.exclusiveRelayer, 0⟩ rfl c
      (relay_open V r default)
    exact ⟨s', hs'⟩
  · refine (reverts_iff _ _).mpr fun u s' h => ?_
    exact exec_fill_not_refused n h (.inr (.inl (Ne.symm ho)))

/-- The relay of account 6 to account 7 is filled by `fillV3Relay`, while the
settler's call for the same relay reads another exclusive relayer and reverts. -/
theorem sampleRelay_fill_disagrees :
    ¬ Agrees samplePool willing 1 ⟨8, 0⟩ { sampleWorld with time := 2 } sampleRelay 1 := by
  intro h
  refine h.fails.2 ?_
  obtain ⟨s', hs', -⟩ := exec_fillV3Relay_willing (V := samplePool) 0 ⟨8, 0⟩ rfl 1
    (sampleRelay_open { sampleWorld with time := 2 } rfl fun _ => rfl)
  exact ⟨s', hs'⟩

end Agreement

end Across.SettlerFill
