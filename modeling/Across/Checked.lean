import Across.CallExec
import Mathlib.Data.BitVec
import Mathlib.Tactic.Ring

namespace Across.Checked

open CallExec CallExec.Exec

variable {σ φ ε : Type} {w : Nat}

/-- Unsigned arithmetic that reverts where the result does not fit. -/
def checkedAdd (e : ε) (a b : BitVec w) : Exec σ φ ε (BitVec w) := do
  require (a.toNat + b.toNat < 2 ^ w) e
  pure (a + b)

def checkedSub (e : ε) (a b : BitVec w) : Exec σ φ ε (BitVec w) := do
  require (b.toNat ≤ a.toNat) e
  pure (a - b)

def checkedMul (e : ε) (a b : BitVec w) : Exec σ φ ε (BitVec w) := do
  require (a.toNat * b.toNat < 2 ^ w) e
  pure (a * b)

def checkedDiv (e : ε) (a b : BitVec w) : Exec σ φ ε (BitVec w) := do
  require (b.toNat ≠ 0) e
  pure (a / b)

def signedAdd (e : ε) (a b : BitVec w) : Exec σ φ ε (BitVec w) := do
  require (-2 ^ (w - 1) ≤ a.toInt + b.toInt ∧ a.toInt + b.toInt < 2 ^ (w - 1)) e
  pure (a + b)

def signedSub (e : ε) (a b : BitVec w) : Exec σ φ ε (BitVec w) := do
  require (-2 ^ (w - 1) ≤ a.toInt - b.toInt ∧ a.toInt - b.toInt < 2 ^ (w - 1)) e
  pure (a - b)

variable {e : ε} {a b c : BitVec w} {s s' : σ}

@[simp] theorem checkedAdd_ok :
    Ok (checkedAdd e a b : Exec σ φ ε _) s c s' ↔ c.toNat = a.toNat + b.toNat ∧ s = s' := by
  simp only [checkedAdd, bind_ok, require_ok, pure_ok]
  constructor
  · rintro ⟨_, _, ⟨h, rfl⟩, rfl, rfl⟩
    exact ⟨by rw [BitVec.toNat_add, Nat.mod_eq_of_lt h], rfl⟩
  · rintro ⟨hc, rfl⟩
    have hlt := c.isLt
    refine ⟨(), s, ⟨by omega, rfl⟩, BitVec.eq_of_toNat_eq ?_, rfl⟩
    rw [BitVec.toNat_add, hc, Nat.mod_eq_of_lt (by omega)]

@[simp] theorem checkedSub_ok :
    Ok (checkedSub e a b : Exec σ φ ε _) s c s' ↔ c.toNat + b.toNat = a.toNat ∧ s = s' := by
  simp only [checkedSub, bind_ok, require_ok, pure_ok]
  constructor
  · rintro ⟨_, _, ⟨h, rfl⟩, rfl, rfl⟩
    exact ⟨by rw [BitVec.toNat_sub_of_le (BitVec.le_def.mpr h)]; omega, rfl⟩
  · rintro ⟨hc, rfl⟩
    have hle : b.toNat ≤ a.toNat := by omega
    refine ⟨(), s, ⟨hle, rfl⟩, BitVec.eq_of_toNat_eq ?_, rfl⟩
    rw [BitVec.toNat_sub_of_le (BitVec.le_def.mpr hle)]
    omega

@[simp] theorem checkedMul_ok :
    Ok (checkedMul e a b : Exec σ φ ε _) s c s' ↔ c.toNat = a.toNat * b.toNat ∧ s = s' := by
  simp only [checkedMul, bind_ok, require_ok, pure_ok]
  constructor
  · rintro ⟨_, _, ⟨h, rfl⟩, rfl, rfl⟩
    exact ⟨by rw [BitVec.toNat_mul, Nat.mod_eq_of_lt h], rfl⟩
  · rintro ⟨hc, rfl⟩
    have hlt := c.isLt
    rw [hc] at hlt
    refine ⟨(), s, ⟨hlt, rfl⟩, BitVec.eq_of_toNat_eq ?_, rfl⟩
    rw [BitVec.toNat_mul, hc, Nat.mod_eq_of_lt hlt]

@[simp] theorem checkedDiv_ok :
    Ok (checkedDiv e a b : Exec σ φ ε _) s c s' ↔
      b.toNat ≠ 0 ∧ c.toNat = a.toNat / b.toNat ∧ s = s' := by
  simp only [checkedDiv, bind_ok, require_ok, pure_ok]
  constructor
  · rintro ⟨_, _, ⟨h, rfl⟩, rfl, rfl⟩
    exact ⟨h, BitVec.toNat_udiv, rfl⟩
  · rintro ⟨h, hc, rfl⟩
    exact ⟨(), s, ⟨h, rfl⟩, BitVec.eq_of_toNat_eq (by rw [BitVec.toNat_udiv, hc]), rfl⟩

theorem bmod_of_range (hw : 0 < w) {n : Int} (h₁ : -2 ^ (w - 1) ≤ n) (h₂ : n < 2 ^ (w - 1)) :
    n.bmod (2 ^ w) = n := by
  obtain ⟨v, rfl⟩ : ∃ v, w = v + 1 := ⟨w - 1, by omega⟩
  simp only [Nat.add_sub_cancel] at h₁ h₂
  have hp : ((2 ^ (v + 1) : Nat) : Int) = 2 * 2 ^ v := by
    push_cast
    ring
  apply Int.bmod_eq_of_le
  · rw [hp]
    omega
  · rw [hp]
    omega

theorem exists_toNat_add (h : a.toNat + b.toNat < 2 ^ w) : ∃ x : BitVec w, x.toNat = a.toNat + b.toNat :=
  ⟨a + b, by rw [BitVec.toNat_add, Nat.mod_eq_of_lt h]⟩

theorem exists_toNat_sub (h : b.toNat ≤ a.toNat) : ∃ x : BitVec w, x.toNat + b.toNat = a.toNat :=
  ⟨a - b, by rw [BitVec.toNat_sub_of_le (BitVec.le_def.mpr h)]; omega⟩

theorem exists_toInt_add (hw : 0 < w) (h₁ : -2 ^ (w - 1) ≤ a.toInt + b.toInt) (h₂ : a.toInt + b.toInt < 2 ^ (w - 1)) :
    ∃ x : BitVec w, x.toInt = a.toInt + b.toInt :=
  ⟨a + b, by rw [BitVec.toInt_add, bmod_of_range hw h₁ h₂]⟩

theorem toInt_range (x : BitVec w) : -2 ^ (w - 1) ≤ x.toInt ∧ x.toInt < 2 ^ (w - 1) :=
  ⟨BitVec.le_toInt x, BitVec.toInt_lt⟩

theorem signedAdd_ok (hw : 0 < w) :
    Ok (signedAdd e a b : Exec σ φ ε _) s c s' ↔ c.toInt = a.toInt + b.toInt ∧ s = s' := by
  simp only [signedAdd, bind_ok, require_ok, pure_ok]
  constructor
  · rintro ⟨_, _, ⟨h, rfl⟩, rfl, rfl⟩
    exact ⟨by rw [BitVec.toInt_add, bmod_of_range hw h.1 h.2], rfl⟩
  · rintro ⟨hc, rfl⟩
    have hr := toInt_range c
    rw [hc] at hr
    refine ⟨(), s, ⟨hr, rfl⟩, BitVec.eq_of_toInt_eq ?_, rfl⟩
    rw [BitVec.toInt_add, hc, bmod_of_range hw hr.1 hr.2]

theorem signedSub_ok (hw : 0 < w) :
    Ok (signedSub e a b : Exec σ φ ε _) s c s' ↔ c.toInt = a.toInt - b.toInt ∧ s = s' := by
  simp only [signedSub, bind_ok, require_ok, pure_ok]
  constructor
  · rintro ⟨_, _, ⟨h, rfl⟩, rfl, rfl⟩
    exact ⟨by rw [BitVec.toInt_sub, bmod_of_range hw h.1 h.2], rfl⟩
  · rintro ⟨hc, rfl⟩
    have hr := toInt_range c
    rw [hc] at hr
    refine ⟨(), s, ⟨hr, rfl⟩, BitVec.eq_of_toInt_eq ?_, rfl⟩
    rw [BitVec.toInt_sub, hc, bmod_of_range hw hr.1 hr.2]

end Across.Checked
