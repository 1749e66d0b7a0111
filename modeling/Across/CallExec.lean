import Mathlib.Logic.Basic

namespace Across.CallExec

variable {σ φ ε α β ι : Type}

/-- What running a piece of contract code gives: the records of the calls it
made, kept even when the code reverts, and either the reason of the revert or
a value and the state reached. -/
structure Outcome (σ φ ε α : Type) where
  frames : List φ
  result : Except ε (α × σ)

/-- Contract code over a state. An error carries no state, so whoever runs the
code and survives its revert is left with the state it started from. -/
def Exec (σ φ ε α : Type) : Type := σ → Outcome σ φ ε α

namespace Exec

protected def pure (a : α) : Exec σ φ ε α := fun s => ⟨[], .ok (a, s)⟩

protected def bind (m : Exec σ φ ε α) (f : α → Exec σ φ ε β) : Exec σ φ ε β := fun s =>
  match (m s).result with
  | .ok (a, s') => ⟨(m s).frames ++ (f a s').frames, (f a s').result⟩
  | .error e => ⟨(m s).frames, .error e⟩

instance : Monad (Exec σ φ ε) where
  pure := Exec.pure
  bind := Exec.bind

def revert (e : ε) : Exec σ φ ε α := fun _ => ⟨[], .error e⟩

def read : Exec σ φ ε σ := fun s => ⟨[], .ok (s, s)⟩

def update (f : σ → σ) : Exec σ φ ε Unit := fun s => ⟨[], .ok ((), f s)⟩

def require (p : Prop) [Decidable p] (e : ε) : Exec σ φ ε Unit :=
  if p then Exec.pure () else revert e

def when (p : Prop) [Decidable p] (m : Exec σ φ ε Unit) : Exec σ φ ε Unit :=
  if p then m else Exec.pure ()

/-- An array access, which reverts out of bounds. -/
def nth (e : ε) (as : List α) (i : Nat) : Exec σ φ ε α :=
  match as[i]? with
  | none => revert e
  | some a => Exec.pure a

/-- A low-level call: its revert is handed to the caller as a value. -/
def attempt (m : Exec σ φ ε α) : Exec σ φ ε (Except ε α) := fun s =>
  match (m s).result with
  | .ok (a, s') => ⟨(m s).frames, .ok (.ok a, s')⟩
  | .error e => ⟨(m s).frames, .ok (.error e, s)⟩

def record (r : σ → Except ε σ → φ) (m : Exec σ φ ε α) : Exec σ φ ε α := fun s =>
  ⟨r s ((m s).result.map Prod.snd) :: (m s).frames, (m s).result⟩

def forEach (f : ι → Exec σ φ ε Unit) : List ι → Exec σ φ ε Unit
  | [] => Exec.pure ()
  | i :: is => Exec.bind (f i) fun _ => forEach f is

/-- Code over a part of a larger state, with its errors among those of the larger code. -/
def zoom {τ δ : Type} (get : τ → σ) (set : σ → τ → τ) (fail : ε → δ) (m : Exec σ φ ε α) : Exec τ φ δ α := fun t =>
  ⟨(m (get t)).frames, match (m (get t)).result with
    | .ok (a, s) => .ok (a, set s t)
    | .error e => .error (fail e)⟩

end Exec

open Exec

def Ok (m : Exec σ φ ε α) (s : σ) (a : α) (s' : σ) : Prop := (m s).result = .ok (a, s')

def Reverts (m : Exec σ φ ε α) (s : σ) : Prop := ∃ e, (m s).result = .error e

theorem except_bind_ok {x : Except ε α} {f : α → Except ε β} {b : β} :
    x >>= f = .ok b ↔ ∃ a, x = .ok a ∧ f a = .ok b := by
  cases x with
  | error e => exact ⟨nofun, fun ⟨_, h, _⟩ => nomatch h⟩
  | ok a => exact ⟨fun h => ⟨a, rfl, h⟩, fun ⟨_, ha, h⟩ => Except.ok.inj ha ▸ h⟩

theorem reverts_iff (m : Exec σ φ ε α) (s : σ) : Reverts m s ↔ ∀ a s', ¬ Ok m s a s' := by
  unfold Reverts Ok
  cases (m s).result with
  | error e => simp
  | ok p => simpa using ⟨p.1, p.2, rfl⟩

theorem Ok.unique {m : Exec σ φ ε α} {s s' t' : σ} {a b : α} (h : Ok m s a s') (k : Ok m s b t') :
    a = b ∧ s' = t' := by
  have he := h.symm.trans k
  simpa using he

@[simp] theorem pure_ok (a b : α) (s s' : σ) :
    Ok (Pure.pure a : Exec σ φ ε α) s b s' ↔ a = b ∧ s = s' := by
  simp [Ok, Pure.pure, Exec.pure]

@[simp] theorem bind_ok (m : Exec σ φ ε α) (f : α → Exec σ φ ε β) (s s'' : σ) (b : β) :
    Ok (m >>= f) s b s'' ↔ ∃ a s', Ok m s a s' ∧ Ok (f a) s' b s'' := by
  simp only [Ok, Bind.bind, Exec.bind]
  split
  · rename_i a s' h
    simp [h, and_assoc]
  · rename_i e h
    simp [h]

@[simp] theorem revert_ok (e : ε) (s s' : σ) (a : α) :
    Ok (revert e : Exec σ φ ε α) s a s' ↔ False := by
  simp [Ok, revert]

@[simp] theorem read_ok (s s' t : σ) : Ok (read : Exec σ φ ε σ) s t s' ↔ s = t ∧ s = s' := by
  simp [Ok, Exec.read]

@[simp] theorem update_ok (f : σ → σ) (s s' : σ) (u : Unit) :
    Ok (update f : Exec σ φ ε Unit) s u s' ↔ f s = s' := by
  simp [Ok, Exec.update]

@[simp] theorem require_ok (p : Prop) [Decidable p] (e : ε) (s s' : σ) (u : Unit) :
    Ok (require p e : Exec σ φ ε Unit) s u s' ↔ p ∧ s = s' := by
  by_cases hp : p <;> simp [require, hp, Ok, Exec.pure, revert]

@[simp] theorem when_ok (p : Prop) [Decidable p] (m : Exec σ φ ε Unit) (s s' : σ) (u : Unit) :
    Ok (when p m) s u s' ↔ (p ∧ Ok m s () s') ∨ (¬ p ∧ s = s') := by
  by_cases hp : p <;> simp [when, hp, Ok, Exec.pure]

theorem zoom_ok {τ δ : Type} {get : τ → σ} {set : σ → τ → τ} {fail : ε → δ} {m : Exec σ φ ε α} {t t' : τ} {a : α} :
    Ok (zoom get set fail m) t a t' ↔ ∃ s, Ok m (get t) a s ∧ set s t = t' := by
  simp only [Ok, zoom]
  split
  · rename_i b s h
    simp [h, and_assoc]
  · rename_i e h
    simp [h]

/-- Code that looks at the state and leaves it alone. -/
theorem check_bind_ok {m : Exec σ φ ε α} {f : α → Exec σ φ ε β} {p : Prop} {s s' : σ} {a : α} {b : β}
    (hm : ∀ x t, Ok m s x t ↔ p ∧ a = x ∧ s = t) : Ok (m >>= f) s b s' ↔ p ∧ Ok (f a) s b s' := by
  rw [bind_ok]
  constructor
  · rintro ⟨x, t, h, k⟩
    obtain ⟨hp, rfl, rfl⟩ := (hm x t).mp h
    exact ⟨hp, k⟩
  · rintro ⟨hp, k⟩
    exact ⟨a, s, (hm a s).mpr ⟨hp, rfl, rfl⟩, k⟩

theorem read_bind_ok (f : σ → Exec σ φ ε β) (s s' : σ) (b : β) : Ok (read >>= f) s b s' ↔ Ok (f s) s b s' := by
  have hm : ∀ x t, Ok (read : Exec σ φ ε σ) s x t ↔ True ∧ s = x ∧ s = t := fun x t => by rw [read_ok, true_and]
  rw [check_bind_ok hm, true_and]

theorem require_bind_ok (p : Prop) [Decidable p] (e : ε) (f : Unit → Exec σ φ ε β) (s s' : σ) (b : β) :
    Ok (require p e >>= f) s b s' ↔ p ∧ Ok (f ()) s b s' :=
  check_bind_ok fun x t => by rw [require_ok, eq_self, true_and]

theorem update_bind_ok (g : σ → σ) (f : Unit → Exec σ φ ε β) (s s' : σ) (b : β) :
    Ok (update g >>= f) s b s' ↔ Ok (f ()) (g s) b s' := by
  rw [bind_ok]
  constructor
  · rintro ⟨_, _, h, k⟩
    obtain rfl := (update_ok _ _ _ _).mp h
    exact k
  · intro k
    exact ⟨(), g s, (update_ok _ _ _ _).mpr rfl, k⟩

@[simp] theorem nth_ok (e : ε) (as : List α) (i : Nat) (s s' : σ) (a : α) :
    Ok (nth e as i : Exec σ φ ε α) s a s' ↔ as[i]? = some a ∧ s = s' := by
  cases h : as[i]? with
  | none => simp [nth, h, Ok, revert]
  | some b => simp [nth, h, Ok, Exec.pure]

@[simp] theorem attempt_ok (m : Exec σ φ ε α) (s s' : σ) (r : Except ε α) :
    Ok (attempt m) s r s' ↔
      (∃ a, r = .ok a ∧ Ok m s a s') ∨ ∃ e, r = .error e ∧ (m s).result = .error e ∧ s = s' := by
  simp only [Ok, attempt]
  split
  · rename_i a t h
    cases r <;> simp [h]
  · rename_i e h
    cases r <;> simp [h]

@[simp] theorem record_ok (r : σ → Except ε σ → φ) (m : Exec σ φ ε α) (s s' : σ) (a : α) :
    Ok (record r m) s a s' ↔ Ok m s a s' := Iff.rfl

@[simp] theorem forEach_nil_ok (f : ι → Exec σ φ ε Unit) (s s' : σ) (u : Unit) :
    Ok (forEach f []) s u s' ↔ s = s' := by
  simp [forEach, Ok, Exec.pure]

@[simp] theorem forEach_cons_ok (f : ι → Exec σ φ ε Unit) (i : ι) (is : List ι) (s s'' : σ) (u : Unit) :
    Ok (forEach f (i :: is)) s u s'' ↔ ∃ s', Ok (f i) s () s' ∧ Ok (forEach f is) s' u s'' := by
  change Ok (f i >>= fun _ => forEach f is) s u s'' ↔ _
  rw [bind_ok]
  exact ⟨fun ⟨_, t, h⟩ => ⟨t, h⟩, fun ⟨t, h⟩ => ⟨(), t, h⟩⟩

theorem exists_ok {m : Exec σ φ ε Unit} {s : σ} (h : (m s).result.isOk = true) : ∃ s', Ok m s () s' := by
  cases hm : (m s).result with
  | error e =>
      rw [hm] at h
      cases h
  | ok r => exact ⟨r.2, hm⟩

theorem bind_returns {m : Exec σ φ ε α} {f : α → Exec σ φ ε β} {s s' : σ} {a : α} {b : β} (hm : Ok m s a s')
    (hf : ∃ s'', Ok (f a) s' b s'') : ∃ s'', Ok (m >>= f) s b s'' := by
  obtain ⟨s'', hf⟩ := hf
  exact ⟨s'', (bind_ok _ _ _ _ _).mpr ⟨a, s', hm, hf⟩⟩

theorem when_returns {p : Prop} [Decidable p] {m : Exec σ φ ε Unit} {s : σ} (hm : p → ∃ s', Ok m s () s') :
    ∃ s', Ok (when p m) s () s' := by
  by_cases hp : p
  · obtain ⟨s', hm⟩ := hm hp
    exact ⟨s', (when_ok _ _ _ _ _).mpr (.inl ⟨hp, hm⟩)⟩
  · exact ⟨s, (when_ok _ _ _ _ _).mpr (.inr ⟨hp, rfl⟩)⟩

theorem bind_when_returns {p : Prop} [Decidable p] {m : Exec σ φ ε Unit} {f : Unit → Exec σ φ ε β} {s : σ} {b : β}
    (hm : p → ∃ s', Ok m s () s') (hf : ∀ s', Ok (when p m) s () s' → ∃ s'', Ok (f ()) s' b s'') :
    ∃ s'', Ok (when p m >>= f) s b s'' := by
  obtain ⟨s', h⟩ := when_returns hm
  exact bind_returns h (hf s' h)

theorem attempt_returns (m : Exec σ φ ε α) (s : σ) : ∃ r s', Ok (attempt m) s r s' := by
  cases hm : (m s).result with
  | ok r => exact ⟨.ok r.1, r.2, (attempt_ok _ _ _ _).mpr (.inl ⟨r.1, rfl, hm⟩)⟩
  | error e => exact ⟨.error e, s, (attempt_ok _ _ _ _).mpr (.inr ⟨e, rfl, hm, rfl⟩)⟩

theorem forEach_returns {f : ι → Exec σ φ ε Unit} (hf : ∀ i s, ∃ s', Ok (f i) s () s') (is : List ι) :
    ∀ s, ∃ s', Ok (forEach f is) s () s' := by
  induction is with
  | nil => exact fun s => ⟨s, (forEach_nil_ok _ _ _ _).mpr rfl⟩
  | cons i is ih =>
      intro s
      obtain ⟨t, ht⟩ := hf i s
      obtain ⟨s', hs'⟩ := ih t
      exact ⟨s', (forEach_cons_ok _ _ _ _ _ _).mpr ⟨t, ht, hs'⟩⟩

theorem mem_frames_bind {m : Exec σ φ ε α} {f : α → Exec σ φ ε β} {s : σ} {r : φ}
    (h : r ∈ ((m >>= f) s).frames) :
    r ∈ (m s).frames ∨ ∃ a s', Ok m s a s' ∧ r ∈ (f a s').frames := by
  simp only [Bind.bind, Exec.bind] at h
  split at h
  · rename_i a s' hm
    rcases List.mem_append.mp h with h | h
    · exact .inl h
    · exact .inr ⟨a, s', hm, h⟩
  · exact .inl h

theorem frames_bind_left {m : Exec σ φ ε α} (f : α → Exec σ φ ε β) {s : σ} {r : φ} (h : r ∈ (m s).frames) :
    r ∈ ((m >>= f) s).frames := by
  simp only [Bind.bind, Exec.bind]
  split
  · exact List.mem_append_left _ h
  · exact h

theorem frames_bind_right {m : Exec σ φ ε α} {f : α → Exec σ φ ε β} {s s' : σ} {a : α} {r : φ}
    (hm : Ok m s a s') (h : r ∈ (f a s').frames) : r ∈ ((m >>= f) s).frames := by
  simp only [Ok] at hm
  simp only [Bind.bind, Exec.bind, hm]
  exact List.mem_append_right _ h

theorem frames_read_bind (f : σ → Exec σ φ ε β) (s : σ) : ((read >>= f) s).frames = (f s s).frames := rfl

theorem frames_update_bind (g : σ → σ) (f : Unit → Exec σ φ ε β) (s : σ) :
    ((update g >>= f) s).frames = (f () (g s)).frames := rfl

theorem mem_frames_require_bind {p : Prop} [Decidable p] {e : ε} {f : Unit → Exec σ φ ε β} {s : σ} {r : φ}
    (h : r ∈ ((require p e >>= f) s).frames) : p ∧ r ∈ (f () s).frames := by
  by_cases hp : p
  · rw [require, if_pos hp] at h
    exact ⟨hp, h⟩
  · rw [require, if_neg hp] at h
    exact absurd h List.not_mem_nil

theorem frames_attempt (m : Exec σ φ ε α) (s : σ) : (attempt m s).frames = (m s).frames := by
  simp only [attempt]
  split <;> rfl

theorem frames_forEach_snoc {f : ι → Exec σ φ ε Unit} {is : List ι} {i : ι} {s s' : σ} {r : φ}
    (hs : Ok (forEach f is) s () s') (h : r ∈ (f i s').frames) : r ∈ (forEach f (is ++ [i]) s).frames := by
  induction is generalizing s with
  | nil =>
      obtain rfl := (forEach_nil_ok _ _ _ _).mp hs
      exact frames_bind_left (fun _ => forEach f []) h
  | cons j is ih =>
      obtain ⟨t, ht, hs⟩ := (forEach_cons_ok _ _ _ _ _ _).mp hs
      exact frames_bind_right (f := fun _ => forEach f (is ++ [i])) ht (ih hs)

theorem frames_forEach_append {f : ι → Exec σ φ ε Unit} {is : List ι} (js : List ι) {s : σ} {r : φ}
    (h : r ∈ (forEach f is s).frames) : r ∈ (forEach f (is ++ js) s).frames := by
  induction is generalizing s with
  | nil => exact absurd h List.not_mem_nil
  | cons i is ih =>
      rcases mem_frames_bind (f := fun _ => forEach f is) h with h | ⟨_, t, ht, h⟩
      · exact frames_bind_left (fun _ => forEach f (is ++ js)) h
      · exact frames_bind_right (f := fun _ => forEach f (is ++ js)) ht (ih h)

section Results

variable {s : σ}

theorem result_bind_ok {m : Exec σ φ ε α} {f : α → Exec σ φ ε β} {a : α} {s' : σ} (h : Ok m s a s') :
    ((m >>= f) s).result = (f a s').result := by
  simp only [Ok] at h
  simp only [Bind.bind, Exec.bind, h]

theorem result_bind_error {m : Exec σ φ ε α} {f : α → Exec σ φ ε β} {e : ε} (h : (m s).result = .error e) :
    ((m >>= f) s).result = .error e := by
  simp only [Bind.bind, Exec.bind, h]

theorem result_require_bind {p : Prop} [Decidable p] {e : ε} {f : Unit → Exec σ φ ε β} :
    ((require p e >>= f) s).result = if p then (f () s).result else .error e := by
  by_cases hp : p
  · rw [if_pos hp]
    exact result_bind_ok ((require_ok p e s s ()).mpr ⟨hp, rfl⟩)
  · rw [if_neg hp]
    refine result_bind_error ?_
    rw [require, if_neg hp]
    rfl

theorem result_read_bind {f : σ → Exec σ φ ε β} : ((read >>= f) s).result = (f s s).result := rfl

theorem result_update_bind {g : σ → σ} {f : Unit → Exec σ φ ε β} : ((update g >>= f) s).result = (f () (g s)).result :=
  rfl

def FailsWith (P : ε → Prop) (m : Exec σ φ ε α) : Prop := ∀ s e, (m s).result = .error e → P e

variable {P : ε → Prop}

theorem FailsWith.mono {Q : ε → Prop} {m : Exec σ φ ε α} (h : ∀ e, P e → Q e) (hm : FailsWith P m) : FailsWith Q m :=
  fun s e he => h e (hm s e he)

theorem FailsWith.pure (a : α) : FailsWith P (Pure.pure a : Exec σ φ ε α) := fun _ _ h => nomatch h

theorem FailsWith.read : FailsWith P (read : Exec σ φ ε σ) := fun _ _ h => nomatch h

theorem FailsWith.update (f : σ → σ) : FailsWith P (update f : Exec σ φ ε Unit) := fun _ _ h => nomatch h

theorem FailsWith.revert {e : ε} (he : P e) : FailsWith P (revert e : Exec σ φ ε α) := by
  intro _ _ h
  cases h
  exact he

theorem FailsWith.require {p : Prop} [Decidable p] {e : ε} (he : P e) :
    FailsWith P (require p e : Exec σ φ ε Unit) := by
  by_cases hp : p
  · rw [Exec.require, if_pos hp]
    exact .pure ()
  · rw [Exec.require, if_neg hp]
    exact .revert he

theorem FailsWith.attempt (m : Exec σ φ ε α) : FailsWith P (attempt m) := by
  intro s e h
  simp only [Exec.attempt] at h
  split at h
  · cases h
  · cases h

theorem FailsWith.bind {m : Exec σ φ ε α} {f : α → Exec σ φ ε β} (hm : FailsWith P m) (hf : ∀ a, FailsWith P (f a)) :
    FailsWith P (m >>= f) := by
  intro s e h
  cases hr : (m s).result with
  | error d =>
      rw [result_bind_error hr] at h
      cases h
      exact hm s e hr
  | ok r =>
      rw [result_bind_ok hr] at h
      exact hf r.1 r.2 e h

theorem FailsWith.ite {p : Prop} [Decidable p] {m k : Exec σ φ ε α} (hm : FailsWith P m) (hk : FailsWith P k) :
    FailsWith P (if p then m else k) := by
  split
  · exact hm
  · exact hk

theorem FailsWith.when {p : Prop} [Decidable p] {m : Exec σ φ ε Unit} (hm : FailsWith P m) : FailsWith P (when p m) :=
  .ite hm (.pure ())

end Results

/-- The code succeeds and every call it makes, reverted ones included, is in `P`. -/
def Succeeds (P : φ → Prop) (m : Exec σ φ ε α) (s : σ) (a : α) (s' : σ) : Prop :=
  Ok m s a s' ∧ ∀ r ∈ (m s).frames, P r

section Succeeds

variable {P : φ → Prop} {s s' s'' t : σ} {u : Unit}

theorem Succeeds.of_ok {m : Exec σ φ ε α} {a : α} (h : Ok m s a s') (hm : (m s).frames = []) :
    Succeeds P m s a s' := by
  refine ⟨h, fun r hr => ?_⟩
  rw [hm] at hr
  exact absurd hr List.not_mem_nil

@[simp] theorem bind_succeeds {m : Exec σ φ ε α} {f : α → Exec σ φ ε β} {b : β} :
    Succeeds P (m >>= f) s b s'' ↔ ∃ a s', Succeeds P m s a s' ∧ Succeeds P (f a) s' b s'' := by
  constructor
  · rintro ⟨h, hP⟩
    obtain ⟨a, s', h₁, h₂⟩ := (bind_ok _ _ _ _ _).mp h
    refine ⟨a, s', ⟨h₁, fun r hr => hP r (frames_bind_left f hr)⟩, h₂, fun r hr => ?_⟩
    exact hP r (frames_bind_right h₁ hr)
  · rintro ⟨a, s', ⟨h₁, hP₁⟩, h₂, hP₂⟩
    refine ⟨(bind_ok _ _ _ _ _).mpr ⟨a, s', h₁, h₂⟩, fun r hr => ?_⟩
    rcases mem_frames_bind hr with hr | ⟨a', t, h, hr⟩
    · exact hP₁ r hr
    · obtain ⟨rfl, rfl⟩ := h.unique h₁
      exact hP₂ r hr

@[simp] theorem pure_succeeds {a b : α} : Succeeds P (Pure.pure a : Exec σ φ ε α) s b s' ↔ a = b ∧ s = s' := by
  refine ⟨fun h => (pure_ok _ _ _ _).mp h.1, fun h => .of_ok ((pure_ok _ _ _ _).mpr h) rfl⟩

@[simp] theorem revert_succeeds {e : ε} {a : α} : Succeeds P (revert e : Exec σ φ ε α) s a s' ↔ False :=
  ⟨fun h => (revert_ok _ _ _ _).mp h.1, False.elim⟩

@[simp] theorem read_succeeds : Succeeds P (read : Exec σ φ ε σ) s t s' ↔ s = t ∧ s = s' :=
  ⟨fun h => (read_ok _ _ _).mp h.1, fun h => .of_ok ((read_ok _ _ _).mpr h) rfl⟩

@[simp] theorem update_succeeds {f : σ → σ} : Succeeds P (update f : Exec σ φ ε Unit) s u s' ↔ f s = s' :=
  ⟨fun h => (update_ok _ _ _ _).mp h.1, fun h => .of_ok ((update_ok _ _ _ _).mpr h) rfl⟩

@[simp] theorem require_succeeds {p : Prop} [Decidable p] {e : ε} :
    Succeeds P (require p e : Exec σ φ ε Unit) s u s' ↔ p ∧ s = s' := by
  refine ⟨fun h => (require_ok _ _ _ _ _).mp h.1, fun h => .of_ok ((require_ok _ _ _ _ _).mpr h) ?_⟩
  rw [require, if_pos h.1]
  rfl

theorem read_bind_succeeds {f : σ → Exec σ φ ε β} {b : β} :
    Succeeds P (read >>= f) s b s' ↔ Succeeds P (f s) s b s' := by
  rw [bind_succeeds]
  constructor
  · rintro ⟨_, _, h, k⟩
    obtain ⟨rfl, rfl⟩ := read_succeeds.mp h
    exact k
  · intro k
    exact ⟨s, s, read_succeeds.mpr ⟨rfl, rfl⟩, k⟩

theorem update_bind_succeeds {g : σ → σ} {f : Unit → Exec σ φ ε β} {b : β} :
    Succeeds P (update g >>= f) s b s' ↔ Succeeds P (f ()) (g s) b s' := by
  rw [bind_succeeds]
  constructor
  · rintro ⟨_, _, h, k⟩
    obtain rfl := update_succeeds.mp h
    exact k
  · intro k
    exact ⟨(), g s, update_succeeds.mpr rfl, k⟩

theorem require_bind_succeeds {p : Prop} [Decidable p] {e : ε} {f : Unit → Exec σ φ ε β} {b : β} :
    Succeeds P (require p e >>= f) s b s' ↔ p ∧ Succeeds P (f ()) s b s' := by
  rw [bind_succeeds]
  constructor
  · rintro ⟨_, _, h, k⟩
    obtain ⟨hp, rfl⟩ := require_succeeds.mp h
    exact ⟨hp, k⟩
  · rintro ⟨hp, k⟩
    exact ⟨(), s, require_succeeds.mpr ⟨hp, rfl⟩, k⟩

end Succeeds

/-- What code promises to the code around it, as long as every call it makes is
as `given`: a relation between the states before and after any successful run;
that the states between its calls satisfy `base`, once the first one does; and
then a property of every call it makes, reverted ones included. -/
structure Guarantee (σ φ : Type) where
  rel : σ → σ → Prop
  frame : φ → Prop
  refl : ∀ s, rel s s
  trans : ∀ {s t u}, rel s t → rel t u → rel s u
  given : φ → Prop := fun _ => True
  base : σ → Prop := fun _ => True

structure KeepsAt (G : Guarantee σ φ) (m : Exec σ φ ε α) (s : σ) : Prop where
  rel : ∀ {a s'}, Ok m s a s' → (∀ r ∈ (m s).frames, G.given r) → G.rel s s'
  base : ∀ {a s'}, Ok m s a s' → (∀ r ∈ (m s).frames, G.given r) → G.base s → G.base s'
  frames : (∀ r ∈ (m s).frames, G.given r) → G.base s → ∀ r ∈ (m s).frames, G.frame r

def Keeps (G : Guarantee σ φ) (m : Exec σ φ ε α) : Prop := ∀ s, KeepsAt G m s

/-- The same promises with nothing said of the states before and after. -/
def Guarantee.anyRel (G : Guarantee σ φ) : Guarantee σ φ where
  rel _ _ := True
  frame := G.frame
  refl _ := trivial
  trans _ _ := trivial
  given := G.given
  base := G.base

namespace Keeps

variable {G : Guarantee σ φ} {s s' : σ}

theorem rel {m : Exec σ φ ε α} {a : α} (hm : Keeps G m) (h : Ok m s a s') (hg : ∀ r ∈ (m s).frames, G.given r) :
    G.rel s s' := (hm s).rel h hg

theorem frames {m : Exec σ φ ε α} (hm : Keeps G m) (hg : ∀ r ∈ (m s).frames, G.given r) (hb : G.base s) :
    ∀ r ∈ (m s).frames, G.frame r := (hm s).frames hg hb

theorem anyRel {m : Exec σ φ ε α} (hm : Keeps G m) : Keeps G.anyRel m :=
  fun s => ⟨fun _ _ => trivial, (hm s).base, (hm s).frames⟩

theorem of_anyRel {m : Exec σ φ ε α} (hm : Keeps G.anyRel m)
    (h : ∀ s a s', Ok m s a s' → (∀ r ∈ (m s).frames, G.given r) → G.rel s s') : Keeps G m :=
  fun s => ⟨h s _ _, (hm s).base, (hm s).frames⟩

theorem of_frames {m : Exec σ φ ε α} (hm : (m s).frames = []) (hr : ∀ {a s'}, Ok m s a s' → G.rel s s')
    (hb : ∀ {a s'}, Ok m s a s' → G.base s → G.base s') : KeepsAt G m s := by
  refine ⟨fun h _ => hr h, fun h _ => hb h, fun _ _ r h => ?_⟩
  rw [hm] at h
  exact absurd h List.not_mem_nil

protected theorem pure (a : α) : Keeps G (Pure.pure a : Exec σ φ ε α) := by
  intro s
  apply of_frames rfl
  · intro _ s' h
    obtain ⟨-, rfl⟩ := (pure_ok _ _ _ _).mp h
    exact G.refl _
  · intro _ s' h hb
    obtain ⟨-, rfl⟩ := (pure_ok _ _ _ _).mp h
    exact hb

theorem bind_at {m : Exec σ φ ε α} {f : α → Exec σ φ ε β} (hm : KeepsAt G m s)
    (hf : ∀ a t, Ok m s a t → KeepsAt G (f a) t) : KeepsAt G (m >>= f) s where
  rel h hg := by
    obtain ⟨a, t, h₁, h₂⟩ := (bind_ok _ _ _ _ _).mp h
    apply G.trans (hm.rel h₁ fun r hr => hg r (frames_bind_left f hr))
    exact (hf a t h₁).rel h₂ fun r hr => hg r (frames_bind_right h₁ hr)
  base h hg hb := by
    obtain ⟨a, t, h₁, h₂⟩ := (bind_ok _ _ _ _ _).mp h
    apply (hf a t h₁).base h₂ fun r hr => hg r (frames_bind_right h₁ hr)
    exact hm.base h₁ (fun r hr => hg r (frames_bind_left f hr)) hb
  frames hg hb r h := by
    have hgm : ∀ r ∈ (m s).frames, G.given r := fun r hr => hg r (frames_bind_left f hr)
    rcases mem_frames_bind h with h | ⟨a, t, h₁, h⟩
    · exact hm.frames hgm hb r h
    · exact (hf a t h₁).frames (fun r hr => hg r (frames_bind_right h₁ hr)) (hm.base h₁ hgm hb) r h

protected theorem bind {m : Exec σ φ ε α} {f : α → Exec σ φ ε β} (hm : Keeps G m)
    (hf : ∀ a, Keeps G (f a)) : Keeps G (m >>= f) :=
  fun s => bind_at (hm s) fun a t _ => hf a t

protected theorem revert (e : ε) : Keeps G (revert e : Exec σ φ ε α) :=
  fun _ => of_frames rfl (fun h => ((revert_ok _ _ _ _).mp h).elim) fun h => ((revert_ok _ _ _ _).mp h).elim

protected theorem read : Keeps G (read : Exec σ φ ε σ) := by
  intro s
  apply of_frames rfl
  · intro _ s' h
    obtain ⟨-, rfl⟩ := (read_ok _ _ _).mp h
    exact G.refl _
  · intro _ s' h hb
    obtain ⟨-, rfl⟩ := (read_ok _ _ _).mp h
    exact hb

theorem update_at {f : σ → σ} (hf : G.rel s (f s)) (hb : G.base s → G.base (f s)) :
    KeepsAt G (update f : Exec σ φ ε Unit) s := by
  apply of_frames rfl
  · intro _ s' h
    obtain rfl := (update_ok _ _ _ _).mp h
    exact hf
  · intro _ s' h
    obtain rfl := (update_ok _ _ _ _).mp h
    exact hb

protected theorem update {f : σ → σ} (hf : ∀ s, G.rel s (f s)) (hb : ∀ s, G.base s → G.base (f s)) :
    Keeps G (update f : Exec σ φ ε Unit) := fun s => update_at (hf s) (hb s)

protected theorem require (p : Prop) [Decidable p] (e : ε) :
    Keeps G (require p e : Exec σ φ ε Unit) := by
  unfold require
  split
  · exact Keeps.pure ()
  · exact Keeps.revert e

protected theorem ite {p : Prop} [Decidable p] {m n : Exec σ φ ε α} (hm : Keeps G m)
    (hn : Keeps G n) : Keeps G (if p then m else n) := by
  split
  · exact hm
  · exact hn

protected theorem when {p : Prop} [Decidable p] {m : Exec σ φ ε Unit} (hm : Keeps G m) :
    Keeps G (when p m) := by
  unfold when
  split
  · exact hm
  · exact Keeps.pure ()

protected theorem nth (e : ε) (as : List α) (i : Nat) : Keeps G (nth e as i : Exec σ φ ε α) := by
  unfold nth
  split
  · exact Keeps.revert e
  · exact Keeps.pure _

protected theorem attempt {m : Exec σ φ ε α} (hm : Keeps G m) : Keeps G (attempt m) := by
  intro s
  refine ⟨fun h hg => ?_, fun h hg hb => ?_, fun hg hb => ?_⟩
  · rw [frames_attempt] at hg
    rcases (attempt_ok _ _ _ _).mp h with ⟨a, -, h⟩ | ⟨e, -, -, rfl⟩
    · exact hm.rel h hg
    · exact G.refl _
  · rw [frames_attempt] at hg
    rcases (attempt_ok _ _ _ _).mp h with ⟨a, -, h⟩ | ⟨e, -, -, rfl⟩
    · exact (hm s).base h hg hb
    · exact hb
  · rw [frames_attempt] at hg ⊢
    exact hm.frames hg hb

theorem record_at {r : σ → Except ε σ → φ} {m : Exec σ φ ε α}
    (hm : (∀ q ∈ (record r m s).frames, G.given q) → KeepsAt G m s)
    (hr : (∀ q ∈ (record r m s).frames, G.given q) → G.base s → G.frame (r s ((m s).result.map Prod.snd))) :
    KeepsAt G (record r m) s where
  rel h hg := (hm hg).rel ((record_ok _ _ _ _ _).mp h) fun q hq => hg q (List.mem_cons_of_mem _ hq)
  base h hg hb := (hm hg).base ((record_ok _ _ _ _ _).mp h) (fun q hq => hg q (List.mem_cons_of_mem _ hq)) hb
  frames hg hb q h := by
    rcases List.mem_cons.mp h with rfl | h
    · exact hr hg hb
    · exact (hm hg).frames (fun q hq => hg q (List.mem_cons_of_mem _ hq)) hb q h

theorem forEach_mem {f : ι → Exec σ φ ε Unit} {is : List ι} (hf : ∀ i ∈ is, Keeps G (f i)) :
    Keeps G (forEach f is) := by
  induction is with
  | nil => exact Keeps.pure ()
  | cons i is ih =>
      exact Keeps.bind (hf i List.mem_cons_self) fun _ => ih fun j hj => hf j (List.mem_cons_of_mem _ hj)

protected theorem forEach {f : ι → Exec σ φ ε Unit} (hf : ∀ i, Keeps G (f i)) (is : List ι) :
    Keeps G (forEach f is) := forEach_mem fun i _ => hf i

end Keeps

end Across.CallExec
