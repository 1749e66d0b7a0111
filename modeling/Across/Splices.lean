import Mathlib.Logic.Basic

namespace Across.Splices

variable {α : Type} {xs ys s : List α} {i k : Nat}

/-- `ys` written over `xs`, from position `i` on. -/
def splice (xs : List α) (i : Nat) (ys : List α) : List α := xs.take i ++ ys ++ xs.drop (i + ys.length)

theorem length_splice (h : i + ys.length ≤ xs.length) : (splice xs i ys).length = xs.length := by
  simp only [splice, List.length_append, List.length_take, List.length_drop]
  omega

theorem getElem?_splice_inside (h : i + ys.length ≤ xs.length) (hi : i ≤ k) (hk : k < i + ys.length) :
    (splice xs i ys)[k]? = ys[k - i]? := by
  have htake : (xs.take i).length = i := List.length_take_of_le (by omega)
  rw [splice, List.append_assoc, List.getElem?_append_right (by omega), htake, List.getElem?_append_left (by omega)]

theorem getElem?_splice_outside (h : i + ys.length ≤ xs.length) (hk : k < i ∨ i + ys.length ≤ k) :
    (splice xs i ys)[k]? = xs[k]? := by
  have htake : (xs.take i).length = i := List.length_take_of_le (by omega)
  rcases hk with hk | hk
  · rw [splice, List.append_assoc, List.getElem?_append_left (by omega), List.getElem?_take_of_lt hk]
  · have hlen : (xs.take i ++ ys).length = i + ys.length := by rw [List.length_append, htake]
    rw [splice, List.getElem?_append_right (by omega), hlen, List.getElem?_drop]
    congr 1
    omega

/-- Consecutive pieces, each with the position where it starts. -/
def placed : Nat → List (List α) → List (Nat × List α)
  | _, [] => []
  | i, p :: ps => (i, p) :: placed (i + p.length) ps

def Covers (w : Nat × List α) (k : Nat) : Prop := w.1 ≤ k ∧ k < w.1 + w.2.length

/-- The piece is what `s` has at its place. -/
structure PartOf (s : List α) (w : Nat × List α) : Prop where
  fits : w.1 + w.2.length ≤ s.length
  agrees : ∀ k, Covers w k → w.2[k - w.1]? = s[k]?

theorem placed_partOf (ps : List (List α)) (s : List α) {w : Nat × List α} (hw : w ∈ placed s.length ps) :
    PartOf (s ++ ps.flatten) w := by
  induction ps generalizing s with
  | nil => cases hw
  | cons p ps ih =>
      rw [List.flatten_cons]
      rcases List.mem_cons.mp hw with rfl | hw
      · constructor
        · simp only [List.length_append]
          omega
        · intro k hk
          have hle : s.length ≤ k := hk.1
          have hlt : k < s.length + p.length := hk.2
          rw [List.getElem?_append_right hle, List.getElem?_append_left]
          omega
      · rw [← List.length_append] at hw
        rw [← List.append_assoc]
        exact ih (s ++ p) hw

theorem exists_placed_covers (ps : List (List α)) (hi : i ≤ k) (hk : k < i + ps.flatten.length) :
    ∃ w ∈ placed i ps, Covers w k := by
  induction ps generalizing i with
  | nil => exact absurd hk (Nat.not_lt.mpr hi)
  | cons p ps ih =>
      rw [List.flatten_cons, List.length_append] at hk
      by_cases hp : k < i + p.length
      · exact ⟨(i, p), List.mem_cons_self, hi, hp⟩
      · obtain ⟨w, hw, hc⟩ := ih (Nat.not_lt.mp hp) (by omega)
        exact ⟨w, List.mem_cons_of_mem _ hw, hc⟩

def spliceAll (xs : List α) (ws : List (Nat × List α)) : List α := ws.foldl (fun xs w => splice xs w.1 w.2) xs

/-- Where all pieces are parts of one list, a piece that is written never undoes another. -/
theorem spliceAll_eq {ws : List (Nat × List α)} (hlen : xs.length = s.length) (hp : ∀ w ∈ ws, PartOf s w)
    (hc : ∀ k < s.length, xs[k]? = s[k]? ∨ ∃ w ∈ ws, Covers w k) : spliceAll xs ws = s := by
  induction ws generalizing xs with
  | nil =>
      apply List.ext_getElem?
      intro k
      by_cases hk : k < s.length
      · rcases hc k hk with h | ⟨w, hw, -⟩
        · exact h
        · cases hw
      · rw [List.getElem?_eq_none (Nat.not_lt.mp hk)]
        exact List.getElem?_eq_none (Nat.le_trans (Nat.le_of_eq hlen) (Nat.not_lt.mp hk))
  | cons w ws ih =>
      have hw := hp w List.mem_cons_self
      have hfit : w.1 + w.2.length ≤ xs.length := hlen.symm ▸ hw.fits
      refine ih ((length_splice hfit).trans hlen) (fun v hv => hp v (List.mem_cons_of_mem _ hv)) fun k hk => ?_
      by_cases hcov : Covers w k
      · left
        rw [getElem?_splice_inside hfit hcov.1 hcov.2]
        exact hw.agrees k hcov
      · have hout : k < w.1 ∨ w.1 + w.2.length ≤ k := by
          unfold Covers at hcov
          omega
        rw [getElem?_splice_outside hfit hout]
        rcases hc k hk with h | ⟨v, hv, hvk⟩
        · exact .inl h
        · rcases List.mem_cons.mp hv with rfl | hv
          · exact absurd hvk hcov
          · exact .inr ⟨v, hv, hvk⟩

/-- The pieces of a list, written in any order, give the list. -/
theorem spliceAll_placed {ps : List (List α)} {ws : List (Nat × List α)} (hw : ws.Perm (placed 0 ps))
    (hlen : xs.length = ps.flatten.length) : spliceAll xs ws = ps.flatten := by
  refine spliceAll_eq hlen (fun w hmem => placed_partOf ps [] (hw.mem_iff.mp hmem)) fun k hk => .inr ?_
  obtain ⟨w, hmem, hcov⟩ := exists_placed_covers ps (Nat.zero_le k) (by rwa [Nat.zero_add])
  exact ⟨w, hw.mem_iff.mpr hmem, hcov⟩

example : spliceAll [0, 0, 0, 0] [(3, [4]), (0, [1]), (1, [2, 3])] = [1, 2, 3, 4] := by decide

end Across.Splices
