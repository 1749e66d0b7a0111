import Across.LeafBatches

namespace Across.AdminScope

open Abi CallExec CallExec.Exec SpokeTypes SpokeState SpokePool SpokeRules AdminMessages LeafBatches

variable {W : Type}

section History

def afterItem (a : Settings) : TraceItem → Settings
  | .event _ e => a.after e
  | _ => a

/-- From `s` to `s'` the settings change by the events of the history and by nothing
else, and each of these events is one of a call in `P`, for the history before it. -/
def Accounted (P : List TraceItem → Call → Prop) (s s' : World W) : Prop :=
  ∃ t, s'.trace = s.trace ++ t ∧ settings s'.pool = t.foldl afterItem (settings s.pool) ∧
    ∀ l call e l', t = l ++ .event call e :: l' → isSetting e = true → P (s.trace ++ l) call

variable {P Q : List TraceItem → Call → Prop} {s s' s'' : World W}

theorem after_of_not_setting {e : Event} (he : isSetting e = false) (a : Settings) : a.after e = a := by
  cases e with
  | setXDomainAdmin _ | setWithdrawalRecipient _ | setFxChild _ | setPolygonTokenBridger _ | pausedFills _
  | pausedDeposits _ | relayedRootBundle _ _ _ | emergencyDeleteRootBundle _ => cases he
  | _ => rfl

theorem Accounted.same (ht : s'.trace = s.trace) (hs : settings s'.pool = settings s.pool) : Accounted P s s' := by
  refine ⟨[], ?_, hs, fun l call e l' h => ?_⟩
  · rw [ht, List.append_nil]
  · exact absurd (congrArg List.length h) (by simp)

theorem Accounted.item {i : TraceItem} (ht : s'.trace = s.trace ++ [i])
    (hs : settings s'.pool = afterItem (settings s.pool) i)
    (hP : ∀ call e, i = .event call e → isSetting e = true → P s.trace call) : Accounted P s s' := by
  refine ⟨[i], ht, hs, fun l call e l' h he => ?_⟩
  cases l with
  | nil =>
      rw [List.append_nil]
      exact hP call e (List.cons.inj h).1 he
  | cons _ l => exact absurd (congrArg List.length h) (by simp)

theorem Accounted.trans (h : Accounted P s s') (k : Accounted P s' s'') : Accounted P s s'' := by
  obtain ⟨t, ht, hs, hP⟩ := h
  obtain ⟨u, hu, hs', hP'⟩ := k
  refine ⟨t ++ u, ?_, ?_, fun l call e l' hsplit he => ?_⟩
  · rw [hu, ht, List.append_assoc]
  · rw [hs', hs, List.foldl_append]
  · rcases List.append_eq_append_iff.mp hsplit with ⟨a, rfl, ha⟩ | ⟨c, hc, hl⟩
    · have hcall := hP' a call e l' ha he
      rwa [ht, List.append_assoc] at hcall
    · cases c with
      | nil =>
          rw [List.append_nil] at hc
          have hcall := hP' [] call e l' hl.symm he
          rwa [ht, hc, List.append_nil] at hcall
      | cons x c =>
          obtain ⟨rfl, -⟩ := List.cons.inj hl
          exact hP l call e c hc he

theorem Accounted.mono (h : Accounted P s s') (hPQ : ∀ l call, P l call → Q l call) : Accounted Q s s' := by
  obtain ⟨t, ht, hs, hP⟩ := h
  exact ⟨t, ht, hs, fun l call e l' hsplit he => hPQ _ _ (hP l call e l' hsplit he)⟩

def Passed (V : Variant W) (fs : List (Frame W)) (l : List TraceItem) (call : Call) : Prop :=
  ∃ f ∈ fs, f.call = call ∧ f.pre.trace = l ∧ V.requireAdminSender f.msg f.pre = true

/-- The promise that settings change only by calls that have passed the check. -/
def administered (V : Variant W) (fs : List (Frame W)) : Guarantee (World W) (Frame W) where
  rel := Accounted (Passed V fs)
  frame r := ∀ post, r.post = .ok post → Accounted (Passed V fs) r.pre post
  refl _ := .same rfl rfl
  trans := .trans
  given r := r ∈ fs

theorem administered_blind (V : Variant W) (fs : List (Frame W)) : FillBlind (administered V fs) where
  base _ _ := trivial
  rest _ _ := .same rfl rfl
  external _ _ _ := .item rfl rfl nofun
  status h := by
    obtain rfl := (update_ok _ _ _ _).mp h
    exact .item rfl rfl nofun
  filled s call f := .item rfl rfl fun _ _ h he => by
    injection h with _ h
    rw [← h] at he
    cases he

theorem administered_sound (V : Variant W) (H : Host W) (fs : List (Frame W)) : Sound V H (administered V fs) where
  base _ _ := trivial
  rest _ _ := .same rfl rfl
  pool _ _ _ hs := .same rfl hs
  event s call e hs _ := by
    refine .item rfl (after_of_not_setting hs _).symm fun _ _ h he => ?_
    injection h with _ h
    rw [← h, hs] at he
    cases he
  set {s p call e} ha _ hw := by
    refine .item rfl hw.settings fun _ _ h he => ?_
    injection h with hcall h
    obtain ⟨f, hf, hc, ht, hp⟩ := ha (h ▸ he)
    exact ⟨f, hf, hc.trans hcall, ht, hp⟩
  external _ _ := .item rfl rfl nofun
  request _ h := (administered_blind V fs).status h
  fill hn _ _ _ _ _ _ _ _ _ _ h hg := (fillRelayV3_blind (administered_blind V fs) hn _ _ _ _ _).rel h hg
  owner _ _ _ := trivial

theorem exec_administered (V : Variant W) (H : Host W) (fs : List (Frame W)) (n : Nat) (msg : Msg) (call : Call) :
    Keeps (administered V fs) (exec V H n msg call) := by
  refine exec_keeps ((administered_sound V H fs).rules fun _ => trivial)
    (fun n msg call s _ hrel post hp => ?_) n msg call
  exact hrel post (ok_of_recorded hp.symm)

theorem run_administered (V : Variant W) (H : Host W) (n : Nat) (inputs : List (Input W)) (fs : List (Frame W)) :
    Keeps (administered V fs) (run V H n inputs) := by
  have hb := administered_blind V fs
  exact run_keeps (H := H) hb.base hb.rest (fun _ _ => Accounted.same rfl rfl) (exec_administered V H fs n) inputs

end History

section Scope

mutual

/-- The calls that a message gets to: it is one itself, and its lists have others. -/
def reached : Call → List Call
  | .multicall data => .multicall data :: reachedAll data
  | .tryMulticall data => .tryMulticall data :: reachedAll data
  | m => [m]

def reachedAll : List Call → List Call
  | [] => []
  | m :: data => reached m ++ reachedAll data

end

/-- The message is a call of the functions for the hub pool, maybe in lists. -/
def Administrative (data : Call) : Prop := ∀ m ∈ reached data, isBatch m = true ∨ isAdmin m = true

variable {V : Variant W} {H : Host W} {n : Nat} {msg : Msg} {data : Call} {fs : List (Frame W)}

theorem reached_self (m : Call) : m ∈ reached m := by
  cases m with
  | multicall _ | tryMulticall _ => exact List.mem_cons_self
  | _ => exact List.mem_singleton.mpr rfl

theorem reachedAll_mem {ms : List Call} {m : Call} (hm : m ∈ ms) : ∀ c ∈ reached m, c ∈ reachedAll ms := by
  induction ms with
  | nil => exact absurd hm List.not_mem_nil
  | cons m' ms ih =>
      intro c hc
      rw [reachedAll, List.mem_append]
      rcases List.mem_cons.mp hm with rfl | hm
      · exact .inl hc
      · exact .inr (ih hm c hc)

def sent (msg : Msg) (P : Call → Prop) : Guarantee (World W) (Frame W) where
  rel _ _ := True
  frame r := r.msg = msg ∧ P r.call
  refl _ := trivial
  trans _ _ := trivial

/-- Functions of the admin call no other account, so the calls made for a message are
those that the message gets to. -/
theorem exec_sent {P : Call → Prop} (n : Nat) (msg : Msg) : ∀ m, Administrative m → (∀ c ∈ reached m, P c) →
    Keeps (sent msg P) (exec V H n msg m) := by
  induction n with
  | zero => exact fun _ _ _ => Keeps.revert _
  | succ n ih =>
      intro m ha hP
      have hlist : ∀ ms, (∀ c ∈ reachedAll ms, c ∈ reached m) → ∀ c ∈ ms, Keeps (sent msg P) (exec V H n msg c) := by
        intro ms hms c hc
        have hsub : ∀ d ∈ reached c, d ∈ reached m := fun d hd => hms d (reachedAll_mem hc d hd)
        exact ih c (fun d hd => ha d (hsub d hd)) fun d hd => hP d (hsub d hd)
      have hbatch : ∀ {k : Code W Unit}, Keeps (sent msg P) k → ∀ s,
          KeepsAt (sent msg P) (record (Frame.mk msg m) k) s :=
        fun hk s => Keeps.record_at (fun _ => hk s) fun _ _ => ⟨rfl, hP m (reached_self m)⟩
      cases m with
      | multicall ms =>
          refine hbatch (Keeps.bind (Keeps.require _ _) fun _ => Keeps.bind (Keeps.require _ _) fun _ => ?_)
          exact Keeps.forEach_mem (hlist ms fun c hc => List.mem_cons_of_mem _ hc)
      | tryMulticall ms =>
          refine hbatch (Keeps.bind (Keeps.require _ _) fun _ => Keeps.bind (Keeps.require _ _) fun _ => ?_)
          refine Keeps.forEach_mem fun c hc => Keeps.bind (Keeps.attempt ?_) fun _ => Keeps.pure ()
          exact hlist ms (fun c hc => List.mem_cons_of_mem _ hc) c hc
      | _ =>
          intro s
          have hadm := (ha _ (reached_self _)).resolve_left nofun
          refine ⟨fun _ _ => trivial, fun _ _ _ => trivial, fun _ _ r hr => ?_⟩
          obtain ⟨hmsg, hcall, -⟩ := exec_admin_frames hadm hr
          exact ⟨hmsg, hcall ▸ hP _ (reached_self _)⟩

/-- The call of record `r` is made while the pool executes a message of the hub pool. -/
def InMessage (V : Variant W) (H : Host W) (fs : List (Frame W)) (r : Frame W) : Prop :=
  ∃ q ∈ fs, ∃ data, FromRoot q data ∧ ∃ k, r ∈ (exec V H k q.msg data (validated q.pre)).frames

/-- The promise that the validation flag is down between transactions, and only up
while a message is executed. -/
def inScope (V : Variant W) (H : Host W) (fs : List (Frame W)) : Guarantee (World W) (Frame W) where
  rel _ _ := True
  frame r := r.pre.pool.callValidated = false ∨ InMessage V H fs r
  refl _ := trivial
  trans _ _ := trivial
  given r := r ∈ fs
  base s := s.pool.callValidated = false

theorem inScope_rules (V : Variant W) (H : Host W) (fs : List (Frame W)) : Rules V H (inScope V H fs) where
  base h hb := h.callValidated.trans hb
  rest _ _ := trivial
  external _ _ := trivial
  guard _ _ := trivial
  set _ _ := trivial
  request _ _ := trivial
  fill _ _ _ _ _ _ _ _ _ _ _ _ _ := trivial
  books _ _ _ _ _ _ _ _ := trivial
  owner _ _ hb := hb
  process {n msg root data s} _ h := by
    obtain ⟨q, hq, rfl, hc, rfl⟩ := h
    refine ⟨fun _ _ => trivial, fun h _ _ => ?_, fun _ _ r hr => .inr ?_⟩
    · obtain ⟨-, -, -, t, -, rfl⟩ := processMessageFromRoot_ok.mp h
      rfl
    · obtain ⟨hf, rfl, hin⟩ := processMessageFromRoot_frames hr
      exact ⟨q, hq, data, ⟨hc, hf⟩, n, hin⟩

theorem run_inScope (V : Variant W) (H : Host W) (n : Nat) (inputs : List (Input W)) (fs : List (Frame W)) :
    Keeps (inScope V H fs) (run V H n inputs) := by
  have hG := inScope_rules V H fs
  exact run_keeps (H := H) hG.base hG.rest (fun _ _ => trivial) (exec_keeps hG (fun _ _ _ _ hb _ => .inl hb) n) inputs

end Scope

section Theorems

/-- A message of the hub pool gets to the call, and has made it when the history of
the pool is `l`. -/
def ByMessage (V : Variant W) (H : Host W) (fs : List (Frame W)) (l : List TraceItem) (call : Call) : Prop :=
  ∃ q ∈ fs, ∃ data, FromRoot q data ∧ call ∈ reached data ∧
    ∃ k, ∃ f ∈ (exec V H k q.msg data (validated q.pre)).frames,
      f.msg = q.msg ∧ f.call = call ∧ f.pre.trace = l ∧ f.pre.pool.callValidated = true

/-- The validation flag of the Polygon pool is down before and after every
transaction, and the settings change only in the calls that messages of the hub
pool are about. -/
theorem admin_changes_scoped (V : Variant W) (H : Host W) (n : Nat) {i : Uint32}
    {admin recipient fxChild bridger : Address}
    {inputs : List (Input W)} {s₀ s : World W}
    (hi : spokePoolInit .polygon i admin recipient fxChild bridger = .ok s₀.pool)
    (hr : Ok (run (chainPool .polygon V) H n inputs) s₀ () s)
    (hm : ∀ q ∈ (run (chainPool .polygon V) H n inputs s₀).frames, ∀ data, FromRoot q data → Administrative data) :
    (∀ before after t, inputs = before ++ after → Ok (run (chainPool .polygon V) H n before) s₀ () t →
      t.pool.callValidated = false) ∧
    Accounted (ByMessage (chainPool .polygon V) H (run (chainPool .polygon V) H n inputs s₀).frames) s₀ s ∧
    ∀ r ∈ (run (chainPool .polygon V) H n inputs s₀).frames, ∀ post, r.post = .ok post →
      Accounted (ByMessage (chainPool .polygon V) H (run (chainPool .polygon V) H n inputs s₀).frames) r.pre post := by
  have h₀ : s₀.pool.callValidated = false := (spokePoolInit_idle hi).callValidated
  have hscope := (run_inScope (chainPool .polygon V) H n inputs
    (run (chainPool .polygon V) H n inputs s₀).frames).frames
    (fun _ h => h) h₀
  -- a call that passes the check does so with the flag up, so it is part of a message
  have hby : ∀ l call, Passed (chainPool .polygon V) (run (chainPool .polygon V) H n inputs s₀).frames l call →
      ByMessage (chainPool .polygon V) H (run (chainPool .polygon V) H n inputs s₀).frames l call := by
    rintro l call ⟨f, hf, hc, ht, hp⟩
    rcases hscope f hf with hv | ⟨q, hq, data, hroot, k, hin⟩
    · exact absurd (hv.symm.trans hp) nofun
    · have hsent : Keeps (sent q.msg fun c => c ∈ reached data) (exec (chainPool .polygon V) H k q.msg data) :=
        exec_sent k q.msg data (hm q hq data hroot) fun _ h => h
      obtain ⟨hmsg, hcall⟩ := hsent.frames (fun _ _ => trivial) trivial f hin
      exact ⟨q, hq, data, hroot, hc ▸ hcall, k, f, hin, hmsg, hc, ht, hp⟩
  have hadm := run_administered (chainPool .polygon V) H n inputs (run (chainPool .polygon V) H n inputs s₀).frames
  refine ⟨fun before after t hsplit ht => ?_, ?_, fun r hr post hp => ?_⟩
  · exact (run_inScope (chainPool .polygon V) H n before (run (chainPool .polygon V) H n inputs s₀).frames s₀).base ht
      (fun r hr => hsplit ▸ frames_forEach_append after hr) h₀
  · exact (hadm.rel hr fun _ h => h).mono hby
  · exact (hadm.frames (fun _ h => h) trivial r hr post hp).mono hby

open PausedFills

/-- A list that stops fills, tries to delete a root bundle that is not there, and sets
a new admin. -/
def sampleData : Call :=
  .multicall [.pauseFills true, .tryMulticall [.emergencyDeleteRootBundle 3, .setCrossDomainAdmin 7]]

def sampleMessage : List (Input Unit) := [.transact 1 ⟨8, 0⟩ (.processMessageFromRoot 5 sampleData)]

theorem sampleData_administrative : Administrative sampleData := by
  intro m hm
  simp only [sampleData, reached, reachedAll, List.mem_cons, List.mem_append, List.not_mem_nil, or_false] at hm
  rcases hm with rfl | rfl | rfl | rfl | rfl
  · exact .inl rfl
  · exact .inr rfl
  · exact .inl rfl
  · exact .inr rfl
  · exact .inr rfl

theorem sampleMessage_administrative :
    ∀ q ∈ (run (chainPool .polygon samplePool) willing 4 sampleMessage (sampleStart .polygon)).frames, ∀ data,
      FromRoot q data → Administrative data := by
  have hcalls : (run (chainPool .polygon samplePool) willing 4 sampleMessage
    (sampleStart .polygon)).frames.map Frame.call =
      .processMessageFromRoot 5 sampleData :: reached sampleData := rfl
  rintro q hq data ⟨hc, -⟩
  have hmem := List.mem_map_of_mem (f := Frame.call) hq
  rw [hcalls, hc] at hmem
  rcases List.mem_cons.mp hmem with h | h
  · injection h with _ h
    exact h ▸ sampleData_administrative
  · simp [sampleData, reached, reachedAll] at h

theorem sampleMessage_scoped : ∃ s,
    Ok (run (chainPool .polygon samplePool) willing 4 sampleMessage) (sampleStart .polygon) () s ∧
      s.pool.pausedFills = true ∧ s.pool.crossDomainAdmin = 7 ∧ s.pool.callValidated = false ∧
      Accounted (ByMessage (chainPool .polygon samplePool) willing
        (run (chainPool .polygon samplePool) willing 4 sampleMessage (sampleStart .polygon)).frames)
          (sampleStart .polygon) s := by
  obtain ⟨s, hs, hp, ha⟩ : ∃ s,
      Ok (run (chainPool .polygon samplePool) willing 4 sampleMessage) (sampleStart .polygon) () s ∧
        s.pool.pausedFills = true ∧ s.pool.crossDomainAdmin = 7 := ⟨_, rfl, rfl, rfl⟩
  obtain ⟨hflag, hall, -⟩ := admin_changes_scoped samplePool willing 4 (sampleStart_init .polygon) hs
    sampleMessage_administrative
  exact ⟨s, hs, hp, ha, hflag sampleMessage [] s rfl hs, hall⟩

end Theorems

end Across.AdminScope
