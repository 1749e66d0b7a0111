import Mathlib.Algebra.GroupWithZero.Nat
import Mathlib.Data.Nat.Basic
import Mathlib.Order.Basic

namespace Across.WhileLoop

section Loops

variable {σ ε : Type} {cond : σ → Bool} {body : σ → Except ε σ} {s s' : σ} {r : Except ε σ} {e : ε}

/-- At most `n` rounds of a loop, and `none` where these are not enough. -/
def whileLoop (cond : σ → Bool) (body : σ → Except ε σ) : Nat → σ → Option (Except ε σ)
  | 0, _ => none
  | n + 1, s =>
      if cond s = true then
        match body s with
        | .error e => some (.error e)
        | .ok s' => whileLoop cond body n s'
      else some (.ok s)

/-- The loop ends with `r`. -/
def Ends (cond : σ → Bool) (body : σ → Except ε σ) (s : σ) (r : Except ε σ) : Prop :=
  ∃ n, whileLoop cond body n s = some r

theorem Ends.done (h : cond s = false) : Ends cond body s (.ok s) :=
  ⟨1, if_neg (by rw [h]; exact Bool.false_ne_true)⟩

theorem Ends.fail (h : cond s = true) (hb : body s = .error e) : Ends cond body s (.error e) := by
  refine ⟨1, ?_⟩
  rw [whileLoop, if_pos h, hb]

theorem Ends.round (h : cond s = true) (hb : body s = .ok s') (hr : Ends cond body s' r) : Ends cond body s r := by
  obtain ⟨n, hn⟩ := hr
  refine ⟨n + 1, ?_⟩
  rw [whileLoop, if_pos h, hb]
  exact hn

/-- What every round keeps holds at the end. Either the condition is then false, or
the last round has failed. -/
theorem whileLoop_invariant {I : σ → Prop} (hI : ∀ s s', I s → cond s = true → body s = .ok s' → I s') {n : Nat}
    (hs : I s) (h : whileLoop cond body n s = some r) :
    (∃ s', r = .ok s' ∧ I s' ∧ cond s' = false) ∨
      ∃ s' e, r = .error e ∧ I s' ∧ cond s' = true ∧ body s' = .error e := by
  induction n generalizing s with
  | zero => cases h
  | succ n ih =>
      rw [whileLoop] at h
      split at h
      · rename_i hc
        split at h
        · rename_i e hb
          exact .inr ⟨s, e, (Option.some.inj h).symm, hs, hc, hb⟩
        · rename_i s₁ hb
          exact ih (hI s s₁ hs hc hb) h
      · rename_i hc
        exact .inl ⟨s, (Option.some.inj h).symm, hs, Bool.not_eq_true _ ▸ hc⟩

/-- A loop with a measure that every round lowers comes to an end. -/
theorem ends_of_measure {I : σ → Prop} (μ : σ → Nat)
    (hI : ∀ s s', I s → cond s = true → body s = .ok s' → I s' ∧ μ s' < μ s) (hs : I s) :
    ∃ r, Ends cond body s r := by
  induction hm : μ s using Nat.strong_induction_on generalizing s with
  | _ m ih =>
      cases hc : cond s with
      | false => exact ⟨_, .done hc⟩
      | true =>
          cases hb : body s with
          | error e => exact ⟨_, .fail hc hb⟩
          | ok s' =>
              obtain ⟨hs', hlt⟩ := hI s s' hs hc hb
              obtain ⟨r, hr⟩ := ih (μ s') (hm ▸ hlt) hs' rfl
              exact ⟨r, .round hc hb hr⟩

end Loops

section Chunks

variable {k n : Nat}

/-- `n` in parts of `k`, with what is left over at the end. -/
def chunks (k n : Nat) : List Nat := List.replicate (n / k) k ++ if n % k = 0 then [] else [n % k]

theorem chunks_zero : chunks k 0 = [] := by
  rw [chunks, Nat.zero_div, Nat.zero_mod, if_pos rfl]
  rfl

theorem chunks_pos (hk : 0 < k) (hn : 0 < n) : chunks k n = min n k :: chunks k (n - min n k) := by
  rcases Nat.lt_or_ge n k with hlt | hle
  · rw [Nat.min_eq_left hlt.le, Nat.sub_self, chunks_zero, chunks, Nat.div_eq_of_lt hlt, Nat.mod_eq_of_lt hlt,
      if_neg hn.ne']
    rfl
  · rw [Nat.min_eq_right hle, chunks, chunks, Nat.div_eq_sub_div hk hle, Nat.mod_eq_sub_mod hle,
      List.replicate_succ]
    rfl

theorem sum_chunks : (chunks k n).sum = n := by
  have hself := Nat.div_add_mod n k
  rw [chunks, List.sum_append, List.sum_replicate_nat, Nat.mul_comm]
  split
  · rename_i hz
    rwa [hz] at hself
  · rwa [List.sum_singleton]

theorem mem_chunks (hk : 0 < k) {p : Nat} (hp : p ∈ chunks k n) : 0 < p ∧ p ≤ k := by
  rcases List.mem_append.mp hp with hp | hp
  · rw [List.eq_of_mem_replicate hp]
    exact ⟨hk, Nat.le_refl k⟩
  · split at hp
    · cases hp
    · rename_i hz
      rw [List.mem_singleton.mp hp]
      exact ⟨Nat.pos_of_ne_zero hz, (Nat.mod_lt n hk).le⟩

/-- The number of parts is the quotient, rounded up. -/
theorem length_chunks (hk : 0 < k) : (chunks k n).length = (n + k - 1) / k := by
  have hself := Nat.div_add_mod n k
  have hmod := Nat.mod_lt n hk
  have hsplit : n + k - 1 = k * (n / k) + (n % k + k - 1) := by omega
  rw [chunks, List.length_append, List.length_replicate, hsplit, Nat.mul_add_div hk]
  split
  · rename_i hz
    rw [hz, Nat.zero_add, Nat.div_eq_of_lt (Nat.sub_lt hk Nat.one_pos)]
    rfl
  · have hone : (n % k + k - 1) / k = 1 := Nat.div_eq_of_lt_le (by omega) (by omega)
    rw [hone]
    rfl

end Chunks

end Across.WhileLoop
