import Mathlib.Algebra.Group.Nat.Defs
import Mathlib.Logic.Function.Basic

namespace Across.Erc20

structure Token (α : Type) where
  supply : BitVec 256
  balance : α → BitVec 256

variable {α : Type} [DecidableEq α]

namespace Token

def empty : Token α := ⟨0, fun _ => 0⟩

def credit (t : Token α) (a : α) (amount : BitVec 256) : Option (α → BitVec 256) :=
  if (t.balance a).toNat + amount.toNat < 2 ^ 256 then
    some (Function.update t.balance a (t.balance a + amount))
  else none

def transfer (t : Token α) (src dst : α) (amount : BitVec 256) : Option (Token α) := do
  if (t.balance src).toNat < amount.toNat then none else
  let debited := { t with balance := Function.update t.balance src (t.balance src - amount) }
  let balance ← debited.credit dst amount
  some { t with balance }

def mint (t : Token α) (dst : α) (amount : BitVec 256) : Option (Token α) := do
  if t.supply.toNat + amount.toNat < 2 ^ 256 then
    let balance ← t.credit dst amount
    some ⟨t.supply + amount, balance⟩
  else none

def burn (t : Token α) (src : α) (amount : BitVec 256) : Option (Token α) :=
  if amount.toNat ≤ (t.balance src).toNat ∧ amount.toNat ≤ t.supply.toNat then
    some ⟨t.supply - amount, Function.update t.balance src (t.balance src - amount)⟩
  else none

end Token

variable {t t' : Token α} {src dst : α} {amount : BitVec 256}

theorem credit_some {b : α → BitVec 256} (h : t.credit dst amount = some b) (x : α) :
    (b x).toNat = (t.balance x).toNat + if x = dst then amount.toNat else 0 := by
  simp only [Token.credit] at h
  split at h
  · rename_i hlt
    obtain rfl := Option.some.inj h
    by_cases hx : x = dst
    · subst hx
      rw [Function.update_self, if_pos rfl, BitVec.toNat_add, Nat.mod_eq_of_lt hlt]
    · rw [Function.update_of_ne hx, if_neg hx, Nat.add_zero]
  · cases h

/-- What a transfer does to the balance of every account, the two parties of
it and one account that is both included. -/
theorem transfer_some (h : t.transfer src dst amount = some t') :
    t'.supply = t.supply ∧ amount.toNat ≤ (t.balance src).toNat ∧ ∀ x,
      (t'.balance x).toNat + (if x = src then amount.toNat else 0) =
        (t.balance x).toNat + if x = dst then amount.toNat else 0 := by
  simp only [Token.transfer] at h
  split at h
  · cases h
  · rename_i hle
    obtain ⟨b, hb, h⟩ := Option.bind_eq_some_iff.mp h
    obtain rfl := Option.some.inj h
    refine ⟨rfl, Nat.not_lt.mp hle, fun x => ?_⟩
    rw [credit_some hb x]
    by_cases hx : x = src
    · subst hx
      have hs : (t.balance x - amount).toNat = (t.balance x).toNat - amount.toNat :=
        BitVec.toNat_sub_of_le (BitVec.le_def.mpr (Nat.not_lt.mp hle))
      simp only [Function.update_self, if_true, hs]
      omega
    · simp only [Function.update_of_ne hx, if_neg hx, Nat.add_zero]

theorem transfer_returns (hn : amount.toNat ≤ (t.balance src).toNat)
    (hd : (t.balance dst).toNat + amount.toNat < 2 ^ 256) : ∃ y, t.transfer src dst amount = some y := by
  have hsub : (t.balance src - amount).toNat = (t.balance src).toNat - amount.toNat :=
    BitVec.toNat_sub_of_le (BitVec.le_def.mpr hn)
  have hfits : (Function.update t.balance src (t.balance src - amount) dst).toNat + amount.toNat < 2 ^ 256 := by
    by_cases h : dst = src
    · rw [h, Function.update_self, hsub]
      have := (t.balance src).isLt
      omega
    · rw [Function.update_of_ne h]
      exact hd
  simp only [Token.transfer, if_neg (Nat.not_lt.mpr hn), Token.credit, if_pos hfits]
  exact ⟨_, rfl⟩

theorem mint_some (h : t.mint dst amount = some t') :
    t'.supply.toNat = t.supply.toNat + amount.toNat ∧ ∀ x,
      (t'.balance x).toNat = (t.balance x).toNat + if x = dst then amount.toNat else 0 := by
  simp only [Token.mint] at h
  split at h
  · rename_i hlt
    obtain ⟨b, hb, h⟩ := Option.bind_eq_some_iff.mp h
    obtain rfl := Option.some.inj h
    refine ⟨?_, credit_some hb⟩
    rw [BitVec.toNat_add, Nat.mod_eq_of_lt hlt]
  · cases h

theorem burn_some (h : t.burn src amount = some t') :
    t'.supply.toNat + amount.toNat = t.supply.toNat ∧ ∀ x,
      (t'.balance x).toNat + (if x = src then amount.toNat else 0) = (t.balance x).toNat := by
  simp only [Token.burn] at h
  split at h
  · rename_i hle
    obtain rfl := Option.some.inj h
    have hb : (t.balance src - amount).toNat = (t.balance src).toNat - amount.toNat :=
      BitVec.toNat_sub_of_le (BitVec.le_def.mpr hle.1)
    have hs : (t.supply - amount).toNat = t.supply.toNat - amount.toNat :=
      BitVec.toNat_sub_of_le (BitVec.le_def.mpr hle.2)
    refine ⟨by rw [hs]; omega, fun x => ?_⟩
    by_cases hx : x = src
    · subst hx
      simp only [Function.update_self, if_true, hb]
      omega
    · simp only [Function.update_of_ne hx, if_neg hx, Nat.add_zero]
  · cases h

end Across.Erc20
