import Mathlib.Data.Nat.Basic
import Mathlib.Tactic.Ring

namespace Across.ShareRate

variable {k v s r x b ρ u u' d d' : Nat}

/-- The price of one share in units of `1 / k`, rounded down: `s` shares stand
for the value `v`. -/
def rate (k v s : Nat) : Nat := v * k / s

theorem rate_mul_le : rate k v s * s ≤ v * k := Nat.div_mul_le_self _ _

theorem le_rate (hs : 0 < s) (h : r * s ≤ v * k) : r ≤ rate k v s := (Nat.le_div_iff_mul_le hs).mpr h

/-- Shares issued at the price `r`, rounded down, do not lower the price below
`r`. -/
theorem backed_issue (h : r * s ≤ v * k) : r * (s + x * k / r) ≤ (v + x) * k := by
  have hx : r * (x * k / r) ≤ x * k := Nat.mul_div_le _ _
  calc r * (s + x * k / r) = r * s + r * (x * k / r) := Nat.mul_add _ _ _
    _ ≤ v * k + x * k := Nat.add_le_add h hx
    _ = (v + x) * k := (Nat.add_mul _ _ _).symm

theorem redeem_le (hb : b ≤ s) (h : r * s ≤ v * k) : b * r / k ≤ v := by
  have hbr : b * r ≤ v * k := by
    calc b * r = r * b := Nat.mul_comm _ _
      _ ≤ r * s := Nat.mul_le_mul_left _ hb
      _ ≤ v * k := h
  exact Nat.div_le_of_le_mul (by rwa [Nat.mul_comm k])

theorem backed_redeem (h : r * s ≤ v * k) : r * (s - b) ≤ (v - b * r / k) * k := by
  have hx : b * r / k * k ≤ b * r := Nat.div_mul_le_self _ _
  rw [Nat.mul_sub, Nat.sub_mul, Nat.mul_comm r b]
  omega

/-- Redeeming the shares that were just issued for `x` returns no more than `x`. -/
theorem issue_redeem (hs : 0 < s) : x * k / rate k v s * rate k (v + x) (s + x * k / rate k v s) / k ≤ x := by
  have hm : x * k / rate k v s * rate k v s ≤ x * k := Nat.div_mul_le_self _ _
  generalize x * k / rate k v s = m at hm ⊢
  have hr : rate k (v + x) (s + m) * (s + m) ≤ (v + x) * k := rate_mul_le
  generalize rate k (v + x) (s + m) = r at hr ⊢
  have hpos : 0 < s + m := Nat.add_pos_left hs m
  refine Nat.div_le_of_le_mul ?_
  rcases Nat.le_total (m * v) (x * s) with h | h
  · -- The new shares are no more than their part of the value.
    refine Nat.le_of_mul_le_mul_right ?_ hpos
    calc m * r * (s + m) = m * (r * (s + m)) := Nat.mul_assoc _ _ _
      _ ≤ m * ((v + x) * k) := Nat.mul_le_mul_left _ hr
      _ = k * (m * v + m * x) := by ring
      _ ≤ k * (x * s + m * x) := Nat.mul_le_mul_left _ (Nat.add_le_add_right h _)
      _ = k * x * (s + m) := by ring
  · -- They are more, so the price has not risen.
    have hfall : r * s ≤ v * k := by
      refine Nat.le_of_mul_le_mul_right ?_ hpos
      calc r * s * (s + m) = r * (s + m) * s := by ring
        _ ≤ (v + x) * k * s := Nat.mul_le_mul_right _ hr
        _ = k * (v * s + x * s) := by ring
        _ ≤ k * (v * s + m * v) := Nat.mul_le_mul_left _ (Nat.add_le_add_left h _)
        _ = v * k * (s + m) := by ring
    calc m * r ≤ m * rate k v s := Nat.mul_le_mul_left _ (le_rate hs hfall)
      _ ≤ x * k := hm
      _ = k * x := Nat.mul_comm _ _

/-- At a price that has not fallen, what `b` shares were redeemed for buys no more
than `b` shares. -/
theorem redeem_issue {r' : Nat} (h : r ≤ r') : b * r / k * k / r' ≤ b := by
  refine Nat.div_le_of_le_mul ?_
  calc b * r / k * k ≤ b * r := Nat.div_mul_le_self _ _
    _ ≤ b * r' := Nat.mul_le_mul_left _ h
    _ = r' * b := Nat.mul_comm _ _

/-- What a reserve `u` pays out in the time `d` at the rate `ρ / k`: never more
than the reserve. -/
def streamed (k ρ u d : Nat) : Nat := min (u * ρ * d / k) u

theorem streamed_le : streamed k ρ u d ≤ u := Nat.min_le_right _ _

theorem streamed_mono (hu : u ≤ u') (hd : d ≤ d') : streamed k ρ u d ≤ streamed k ρ u' d' := by
  have hp : u * ρ * d ≤ u' * ρ * d' := Nat.mul_le_mul (Nat.mul_le_mul_right _ hu) hd
  have hq : u * ρ * d / k ≤ u' * ρ * d' / k := Nat.div_le_div_right hp
  exact le_min ((Nat.min_le_left _ _).trans hq) ((Nat.min_le_right _ _).trans hu)

theorem streamed_lt {m : Nat} (hk : 0 < k) (h : u * ρ * d < m * k) : streamed k ρ u d < m := by
  have hq : u * ρ * d / k < m := (Nat.div_lt_iff_lt_mul hk).mpr h
  exact (Nat.min_le_left _ _).trans_lt hq

/-- What stays in the reserve after the time `d`. -/
def remaining (k ρ u d : Nat) : Nat := u - streamed k ρ u d

theorem remaining_le : remaining k ρ u d ≤ u := Nat.sub_le _ _

theorem streamed_add_remaining : streamed k ρ u d + remaining k ρ u d = u := Nat.add_sub_cancel' streamed_le

theorem remaining_eq : remaining k ρ u d = u - u * ρ * d / k := by
  rw [remaining, streamed]
  omega

/-- Paying out at a time in between never leaves less in the end: the second payment
is taken of a smaller reserve, and each is rounded down on its own. -/
theorem remaining_split : remaining k ρ u (d + d') ≤ remaining k ρ (remaining k ρ u d) d' := by
  have hle : remaining k ρ u d ≤ u := remaining_le
  have hsnd : remaining k ρ u d * ρ * d' / k ≤ u * ρ * d' / k :=
    Nat.div_le_div_right (Nat.mul_le_mul_right _ (Nat.mul_le_mul_right _ hle))
  have hsum : u * ρ * d / k + u * ρ * d' / k ≤ u * ρ * (d + d') / k := by
    rw [Nat.mul_add]
    exact Nat.div_add_div_le_add_div
  have hfst : remaining k ρ u d = u - u * ρ * d / k := remaining_eq
  rw [remaining_eq, remaining_eq (u := remaining k ρ u d)]
  omega

theorem remaining_eq_zero (hk : 0 < k) : remaining k ρ u d = 0 ↔ u = 0 ∨ k ≤ ρ * d := by
  rw [remaining_eq, Nat.sub_eq_zero_iff_le, Nat.le_div_iff_mul_le hk, Nat.mul_assoc]
  rcases Nat.eq_zero_or_pos u with rfl | hu
  · simp
  · rw [Nat.mul_le_mul_left_iff hu]
    exact ⟨.inr, fun h => h.resolve_left hu.ne'⟩

end Across.ShareRate
