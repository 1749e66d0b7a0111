import Across.CallExec

namespace Across.Callbacks

open CallExec CallExec.Exec

variable {σ τ ω ι φ ψ ε ζ α : Type}

/-- What the other accounts do when a contract in state `σ` calls one of them. They
write `ω`, which is theirs, and return or revert, or they first make a call `ι` of the
contract and go on from its result. -/
inductive Behaviour (σ ω ι : Type)
  | halt (ok : Bool) (w : ω)
  | invoke (w : ω) (call : ι) (resume : Bool → σ → Behaviour σ ω ι)

section Run

variable (write : ω → σ → σ) (enter : ι → Exec σ φ ε Unit) (failed : ε)

def Behaviour.run : Behaviour σ ω ι → Exec σ φ ε Unit
  | .halt true w => update (write w)
  | .halt false _ => revert failed
  | .invoke w call resume => do
      update (write w)
      let r ← attempt (enter call)
      let s ← read
      (resume r.toBool s).run

/-- What others cannot break while the contract is in `P`: a relation that is kept by
whatever they write, and by their calls of the contract. -/
structure Respected (P : σ → Prop) (R : σ → σ → Prop) : Prop where
  refl : ∀ s, R s s
  trans : ∀ {s t u}, R s t → R t u → R s u
  stays : ∀ {s t}, P s → R s t → P t
  write : ∀ s w, R s (write w s)
  enter : ∀ {i s u t}, P s → Ok (enter i) s u t → R s t

end Run

variable {write : ω → σ → σ} {enter : ι → Exec σ φ ε Unit} {failed : ε} {P : σ → Prop} {R : σ → σ → Prop}

theorem Respected.run (hr : Respected write enter P R) {b : Behaviour σ ω ι} {s s' : σ} {u : Unit} (hp : P s)
    (h : Ok (b.run write enter failed) s u s') : R s s' := by
  induction b generalizing s with
  | halt ok w =>
      cases ok with
      | true =>
          obtain rfl := (update_ok _ _ _ _).mp h
          exact hr.write s w
      | false => exact ((revert_ok _ _ _ _).mp h).elim
  | invoke w call resume ih =>
      rw [Behaviour.run, update_bind_ok] at h
      obtain ⟨r, t, hc, h⟩ := (bind_ok _ _ _ _ _).mp h
      rw [read_bind_ok] at h
      have hw : R s (write w s) := hr.write s w
      have hcall : R (write w s) t := by
        rcases (attempt_ok _ _ _ _).mp hc with ⟨_, -, hok⟩ | ⟨_, -, -, rfl⟩
        · exact hr.enter (hr.stays hp hw) hok
        · exact hr.refl _
      have hfirst := hr.trans hw hcall
      exact hr.trans hfirst (ih r.toBool t (hr.stays hp hfirst) h)

/-- The code of another contract, run on its part of the state. -/
def within (get : σ → τ) (set : τ → σ → σ) (failed : ε) (m : Exec τ ψ ζ α) : Exec σ φ ε α := fun s =>
  match (m (get s)).result with
  | .ok (a, t) => ⟨[], .ok (a, set t s)⟩
  | .error _ => ⟨[], .error failed⟩

theorem within_ok {get : σ → τ} {set : τ → σ → σ} {m : Exec τ ψ ζ α} {a : α} {s s' : σ} :
    Ok (within get set failed m : Exec σ φ ε α) s a s' ↔ ∃ t, Ok m (get s) a t ∧ s' = set t s := by
  simp only [Ok, within]
  cases (m (get s)).result with
  | error e =>
      constructor
      · intro h
        cases h
      · rintro ⟨_, h, -⟩
        cases h
  | ok r =>
      simp only [Except.ok.injEq, Prod.ext_iff]
      constructor
      · rintro ⟨rfl, rfl⟩
        exact ⟨r.2, ⟨rfl, rfl⟩, rfl⟩
      · rintro ⟨t, ⟨rfl, rfl⟩, rfl⟩
        exact ⟨rfl, rfl⟩

/-- A loop whose rounds change nothing changes nothing. -/
theorem forEach_still {f : ι → Exec σ φ ε Unit} {is : List ι} {s s' : σ} {u : Unit}
    (hf : ∀ i t, Ok (f i) s () t → t = s) (h : Ok (forEach f is) s u s') : s' = s := by
  induction is with
  | nil => exact ((forEach_nil_ok _ _ _ _).mp h).symm
  | cons i is ih =>
      obtain ⟨t, ht, hrest⟩ := (forEach_cons_ok _ _ _ _ _ _).mp h
      rw [hf i t ht] at hrest
      exact ih hrest

end Across.Callbacks
