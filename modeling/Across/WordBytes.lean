import Mathlib.Data.List.Basic
import Mathlib.Data.List.Induction
import Mathlib.Tactic.Ring

namespace Across.WordBytes

abbrev Bytes := List UInt8

/-- The `k` bytes of `n`, most significant first. Higher digits are dropped. -/
def toBE : Nat → Nat → Bytes
  | 0, _ => []
  | k + 1, n => toBE k (n / 256) ++ [UInt8.ofNat (n % 256)]

def ofBE (bs : Bytes) : Nat := bs.foldl (fun acc b => acc * 256 + b.toNat) 0

/-- A 256-bit word as the 32 bytes it occupies in calldata and in hash preimages. -/
def word (n : Nat) : Bytes := toBE 32 n

def words (ns : List Nat) : Bytes := ns.flatMap word

def padding (n : Nat) : Nat := (32 - n % 32) % 32

def pad32 (bs : Bytes) : Bytes := bs ++ List.replicate (padding bs.length) 0

/-- Read a word; reading past the end of the string fails. -/
def wordAt (bs : Bytes) (off : Nat) : Option Nat :=
  if off + 32 ≤ bs.length then some (ofBE ((bs.drop off).take 32)) else none

@[simp] theorem length_toBE (k n : Nat) : (toBE k n).length = k := by
  induction k generalizing n with
  | zero => rfl
  | succ k ih => simp [toBE, ih]

@[simp] theorem length_word (n : Nat) : (word n).length = 32 := length_toBE 32 n

@[simp] theorem length_words (ns : List Nat) : (words ns).length = 32 * ns.length := by
  induction ns with
  | nil => rfl
  | cons n ns ih =>
      simp only [words, List.flatMap_cons, List.length_append, length_word, List.length_cons] at ih ⊢
      omega

@[simp] theorem words_nil : words [] = [] := rfl

@[simp] theorem words_cons (n : Nat) (ns : List Nat) : words (n :: ns) = word n ++ words ns := rfl

theorem words_append (ms ns : List Nat) : words (ms ++ ns) = words ms ++ words ns := by
  simp [words]

theorem ofBE_snoc (bs : Bytes) (b : UInt8) : ofBE (bs ++ [b]) = ofBE bs * 256 + b.toNat := by
  simp [ofBE]

theorem ofBE_toBE (k n : Nat) : ofBE (toBE k n) = n % 256 ^ k := by
  induction k generalizing n with
  | zero => simp [toBE, ofBE, Nat.mod_one]
  | succ k ih =>
      have hb : (UInt8.ofNat (n % 256)).toNat = n % 256 := by
        rw [UInt8.toNat_ofNat']
        exact Nat.mod_eq_of_lt (Nat.mod_lt n (by decide))
      rw [toBE, ofBE_snoc, ih, hb, pow_succ', Nat.mod_mul]
      ring

theorem ofBE_append (as bs : Bytes) : ofBE (as ++ bs) = ofBE as * 256 ^ bs.length + ofBE bs := by
  induction bs using List.reverseRecOn with
  | nil => simp [ofBE]
  | append_singleton bs b ih =>
      rw [← List.append_assoc, ofBE_snoc, ofBE_snoc, ih, List.length_append, List.length_singleton, pow_succ]
      ring

theorem ofBE_lt (bs : Bytes) : ofBE bs < 256 ^ bs.length := by
  induction bs using List.reverseRecOn with
  | nil => exact Nat.one_pos
  | append_singleton bs b ih =>
      have hb := b.toNat_lt
      rw [ofBE_snoc, List.length_append, List.length_singleton, pow_succ]
      omega

theorem toBE_ofBE (bs : Bytes) : toBE bs.length (ofBE bs) = bs := by
  induction bs using List.reverseRecOn with
  | nil => rfl
  | append_singleton bs b ih =>
      have hb := b.toNat_lt
      have hq : (ofBE bs * 256 + b.toNat) / 256 = ofBE bs := by omega
      have hm : (ofBE bs * 256 + b.toNat) % 256 = b.toNat := by omega
      rw [ofBE_snoc, List.length_append, List.length_singleton, toBE, hq, ih, hm, UInt8.ofNat_toNat]

theorem toBE_injective {k m n : Nat} (hm : m < 256 ^ k) (hn : n < 256 ^ k) (h : toBE k m = toBE k n) : m = n := by
  rw [← Nat.mod_eq_of_lt hm, ← ofBE_toBE, h, ofBE_toBE, Nat.mod_eq_of_lt hn]

theorem toNat_lt_word {w : Nat} (hw : w ≤ 256) (x : BitVec w) : x.toNat < 2 ^ 256 :=
  lt_of_lt_of_le x.isLt (Nat.pow_le_pow_right (by decide) hw)

theorem toBE_append_inj {k m n : Nat} (hm : m < 256 ^ k) (hn : n < 256 ^ k) {bs cs : Bytes}
    (h : toBE k m ++ bs = toBE k n ++ cs) : m = n ∧ bs = cs := by
  obtain ⟨hk, hr⟩ := List.append_inj h (by rw [length_toBE, length_toBE])
  exact ⟨toBE_injective hm hn hk, hr⟩

theorem ofBE_word {n : Nat} (h : n < 2 ^ 256) : ofBE (word n) = n := by
  rw [word, ofBE_toBE]
  exact Nat.mod_eq_of_lt (lt_of_lt_of_eq h (by norm_num))

theorem word_injective {m n : Nat} (hm : m < 2 ^ 256) (hn : n < 2 ^ 256) (h : word m = word n) :
    m = n := by
  rw [← ofBE_word hm, h, ofBE_word hn]

@[simp] theorem length_pad32 (bs : Bytes) : (pad32 bs).length = bs.length + padding bs.length := by
  simp [pad32]

theorem padding_dvd (n : Nat) : 32 ∣ n + padding n := by
  unfold padding
  omega

theorem pad32_of_dvd {bs : Bytes} (h : 32 ∣ bs.length) : pad32 bs = bs := by
  have hz : padding bs.length = 0 := by unfold padding; omega
  simp [pad32, hz]

theorem take_pad32 (bs rest : Bytes) : (pad32 bs ++ rest).take bs.length = bs := by
  rw [pad32, List.append_assoc, List.take_left]

theorem wordAt_append_right (pre bs : Bytes) (off : Nat) :
    wordAt (pre ++ bs) (pre.length + off) = wordAt bs off := by
  have hd : (pre ++ bs).drop (pre.length + off) = bs.drop off := by
    rw [List.drop_append]
    simp
  have hl : pre.length + off + 32 ≤ (pre ++ bs).length ↔ off + 32 ≤ bs.length := by
    rw [List.length_append]
    omega
  simp only [wordAt, hd, hl]

theorem wordAt_word {n : Nat} (h : n < 2 ^ 256) (rest : Bytes) :
    wordAt (word n ++ rest) 0 = some n := by
  have ht : ((word n ++ rest).drop 0).take 32 = word n := by
    rw [List.drop_zero, ← length_word n, List.take_left]
  have hl : 0 + 32 ≤ (word n ++ rest).length := by
    rw [List.length_append, length_word]
    omega
  simp only [wordAt, hl, ↓reduceIte, ht, ofBE_word h]

theorem wordAt_words {ns : List Nat} (hns : ∀ n ∈ ns, n < 2 ^ 256) (rest : Bytes) {i n : Nat}
    (hi : ns[i]? = some n) : wordAt (words ns ++ rest) (32 * i) = some n := by
  induction ns generalizing i with
  | nil => simp at hi
  | cons m ns ih =>
      cases i with
      | zero =>
          obtain rfl : m = n := by simpa using hi
          rw [words_cons, List.append_assoc]
          exact wordAt_word (hns m (by simp)) _
      | succ i =>
          have hn : 32 * (i + 1) = (word m).length + 32 * i := by rw [length_word]; omega
          rw [words_cons, List.append_assoc, hn, wordAt_append_right]
          exact ih (fun k hk => hns k (by simp [hk])) (by simpa using hi)

theorem words_of_wordAt {ns : List Nat} {bs : Bytes} (h : ∀ i n, ns[i]? = some n → wordAt bs (32 * i) = some n) :
    bs = words ns ++ bs.drop (32 * ns.length) := by
  induction ns generalizing bs with
  | nil => rfl
  | cons n ns ih =>
      have hfirst := h 0 n rfl
      rw [wordAt] at hfirst
      split at hfirst
      · rename_i hlen
        have hn := Option.some.inj hfirst
        have htake : (bs.take 32).length = 32 := by
          rw [List.length_take]
          omega
        have hword : word n = bs.take 32 := by
          have hself := toBE_ofBE (bs.take 32)
          rw [htake] at hself
          rw [← hn, Nat.mul_zero, List.drop_zero, word, hself]
        have hdrop : ∀ i m, ns[i]? = some m → wordAt (bs.drop 32) (32 * i) = some m := by
          intro i m hm
          have hnext := h (i + 1) m hm
          have hoff : 32 * (i + 1) = (bs.take 32).length + 32 * i := by omega
          rwa [← List.take_append_drop 32 bs, hoff, wordAt_append_right] at hnext
        have hrest := ih hdrop
        rw [words_cons, hword, List.append_assoc, List.length_cons, Nat.mul_succ, Nat.add_comm, ← List.drop_drop,
          ← hrest, List.take_append_drop]
      · cases hfirst

end Across.WordBytes
