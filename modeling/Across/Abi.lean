import Across.WordBytes
import Mathlib.Data.List.Forall2

namespace Across.Abi

open WordBytes

abbrev Address := BitVec 160

abbrev Uint256 := BitVec 256

abbrev Uint32 := BitVec 32

abbrev Bytes32 := BitVec 256

/-- A component of an encoded tuple: a static word, or a dynamic component
given by the encoding that its offset points to. -/
inductive Part
  | word (n : Nat)
  | tail (bs : Bytes)

/-- The head section, one word for each component. The first dynamic
component is placed `off` bytes after the start of the tuple. -/
def headWords (off : Nat) : List Part → List Nat
  | [] => []
  | .word n :: ps => n :: headWords off ps
  | .tail bs :: ps => off :: headWords (off + bs.length) ps

def tails : List Part → Bytes
  | [] => []
  | .word _ :: ps => tails ps
  | .tail bs :: ps => bs ++ tails ps

def encode (ps : List Part) : Bytes := words (headWords (32 * ps.length) ps) ++ tails ps

def encodeBytes (bs : Bytes) : Bytes := word bs.length ++ pad32 bs

def encodeArray (ns : List Nat) : Bytes := word ns.length ++ words ns

/-- A byte string of a length that calldata and memory can hold. -/
abbrev Blob := {bs : Bytes // bs.length < 2 ^ 64}

theorem nil_fits : ([] : Bytes).length < 2 ^ 64 := Nat.two_pow_pos 64

def offsetAt (bs : Bytes) (off : Nat) : Option Nat := do
  let n ← wordAt bs off
  if n < 2 ^ 64 then some n else none

/-- Read a `w`-bit unsigned value. A word with other high bits is rejected. -/
def uintAt (w : Nat) (bs : Bytes) (off : Nat) : Option (BitVec w) := do
  let n ← wordAt bs off
  if n < 2 ^ w then some (BitVec.ofNat w n) else none

def bytesAt (bs : Bytes) (off : Nat) : Option Blob := do
  let n ← wordAt bs off
  if h : n < 2 ^ 64 ∧ off + 32 + n ≤ bs.length then
    some ⟨(bs.drop (off + 32)).take n, lt_of_le_of_lt (List.length_take_le _ _) h.1⟩
  else none

@[simp] theorem length_headWords (off : Nat) (ps : List Part) :
    (headWords off ps).length = ps.length := by
  induction ps generalizing off with
  | nil => rfl
  | cons p ps ih => cases p <;> simp [headWords, ih]

@[simp] theorem length_encode (ps : List Part) :
    (encode ps).length = 32 * ps.length + (tails ps).length := by
  simp [encode]

@[simp] theorem length_encodeBytes (bs : Bytes) :
    (encodeBytes bs).length = 32 + (bs.length + padding bs.length) := by
  simp [encodeBytes]

theorem headWords_words (ns : List Nat) (ps : List Part) (off : Nat) :
    headWords off (ns.map Part.word ++ ps) = ns ++ headWords off ps := by
  induction ns with
  | nil => rfl
  | cons n ns ih => simp only [List.map_cons, List.cons_append, headWords, ih]

theorem tails_words (ns : List Nat) (ps : List Part) : tails (ns.map Part.word ++ ps) = tails ps := by
  induction ns with
  | nil => rfl
  | cons n ns ih => simp only [List.map_cons, List.cons_append, tails, ih]

theorem words_injective {ms ns : List Nat} (hms : ∀ n ∈ ms, n < 2 ^ 256)
    (hns : ∀ n ∈ ns, n < 2 ^ 256) (h : words ms = words ns) : ms = ns := by
  induction ms generalizing ns with
  | nil =>
      have hl := congrArg List.length h
      simp only [words_nil, List.length_nil, length_words] at hl
      exact (List.length_eq_zero_iff.mp (by omega)).symm
  | cons m ms ih =>
      cases ns with
      | nil => exact absurd (congrArg List.length h) (by simp)
      | cons n ns =>
          rw [words_cons, words_cons] at h
          obtain ⟨hw, hr⟩ := List.append_inj h (by simp)
          have hmn := word_injective (hms m (by simp)) (hns n (by simp)) hw
          rw [hmn, ih (fun k hk => hms k (by simp [hk])) (fun k hk => hns k (by simp [hk])) hr]

theorem offsetAt_of_wordAt {bs : Bytes} {off n : Nat} (h : wordAt bs off = some n)
    (hn : n < 2 ^ 64) : offsetAt bs off = some n := by
  simp only [offsetAt, h, hn, bind, Option.bind_some, ↓reduceIte]

theorem uintAt_of_wordAt {w : Nat} {bs : Bytes} {off : Nat} {x : BitVec w}
    (h : wordAt bs off = some x.toNat) : uintAt w bs off = some x := by
  simp only [uintAt, h, x.isLt, bind, Option.bind_some, ↓reduceIte, BitVec.ofNat_toNat,
    BitVec.setWidth_eq]

theorem uintAt_some {w : Nat} {bs : Bytes} {off n : Nat} (h : wordAt bs off = some n)
    {x : BitVec w} (hx : uintAt w bs off = some x) : n = x.toNat := by
  simp only [uintAt, h, bind, Option.bind_some] at hx
  split at hx
  · rename_i hn
    obtain rfl := Option.some.inj hx
    rw [BitVec.toNat_ofNat, Nat.mod_eq_of_lt hn]
  · cases hx

theorem offsetAt_some {bs : Bytes} {off n m : Nat} (h : wordAt bs off = some n)
    (hm : offsetAt bs off = some m) : m = n := by
  simp only [offsetAt, h, bind, Option.bind_some] at hm
  split at hm
  · exact (Option.some.inj hm).symm
  · cases hm

theorem bytesAt_fits {bs : Bytes} {off n : Nat} (h : wordAt bs off = some n) {b : Blob}
    (hb : bytesAt bs off = some b) : off + 32 + n ≤ bs.length := by
  simp only [bytesAt, h, bind, Option.bind_some] at hb
  split at hb
  · rename_i hn
    exact hn.2
  · cases hb

theorem bytesAt_encodeBytes (pre : Bytes) (bs : Blob) (rest : Bytes) :
    bytesAt (pre ++ (encodeBytes bs.val ++ rest)) pre.length = some bs := by
  have hlt : bs.val.length < 2 ^ 256 := lt_trans bs.property (by decide)
  have hw : wordAt (pre ++ (encodeBytes bs.val ++ rest)) pre.length = some bs.val.length := by
    have h := wordAt_append_right pre (encodeBytes bs.val ++ rest) 0
    rw [Nat.add_zero] at h
    rw [h, encodeBytes, List.append_assoc]
    exact wordAt_word hlt _
  have hd : (pre ++ (encodeBytes bs.val ++ rest)).drop (pre.length + 32) = pad32 bs.val ++ rest := by
    rw [List.drop_append, List.drop_of_length_le (by omega), Nat.add_sub_cancel_left,
      List.nil_append, encodeBytes, List.append_assoc, ← length_word bs.val.length,
      List.drop_left]
  have hb : bs.val.length < 2 ^ 64 ∧
      pre.length + 32 + bs.val.length ≤ (pre ++ (encodeBytes bs.val ++ rest)).length := by
    refine ⟨bs.property, ?_⟩
    simp only [List.length_append, length_encodeBytes]
    omega
  simp only [bytesAt, hw, bind, Option.bind_some, dif_pos hb, hd, take_pad32]

section Injectivity

/-- The two components are both static or both dynamic. -/
inductive SameKind : Part → Part → Prop
  | word (m n : Nat) : SameKind (.word m) (.word n)
  | tail (bs cs : Bytes) : SameKind (.tail bs) (.tail cs)

/-- The static components fit their words. -/
def WordsFit (ps : List Part) : Prop := ∀ n, .word n ∈ ps → n < 2 ^ 256

variable {ps qs : List Part} {off : Nat}

theorem headWords_lt (hw : WordsFit ps) (ht : off + (tails ps).length < 2 ^ 256) :
    ∀ n ∈ headWords off ps, n < 2 ^ 256 := by
  induction ps generalizing off with
  | nil => simp [headWords]
  | cons p ps ih =>
      have hw' : WordsFit ps := fun n hn => hw n (List.mem_cons_of_mem p hn)
      intro n hn
      cases p with
      | word m =>
          rcases List.mem_cons.mp hn with rfl | hn
          · exact hw n List.mem_cons_self
          · exact ih hw' ht n hn
      | tail bs =>
          rw [tails, List.length_append] at ht
          rcases List.mem_cons.mp hn with rfl | hn
          · omega
          · exact ih hw' (by omega) n hn

theorem headWords_off (hk : List.Forall₂ SameKind ps qs) {off' : Nat} (h : headWords off ps = headWords off' qs) :
    off = off' ∨ tails ps = [] ∧ tails qs = [] := by
  induction hk with
  | nil => exact .inr ⟨rfl, rfl⟩
  | cons hk _ ih =>
      cases hk with
      | word m n => exact ih (List.cons.inj h).2
      | tail bs cs => exact .inl (List.cons.inj h).1

theorem parts_inj (hk : List.Forall₂ SameKind ps qs) (hh : headWords off ps = headWords off qs)
    (ht : tails ps = tails qs) : ps = qs := by
  induction hk generalizing off with
  | nil => rfl
  | cons hk hks ih =>
      cases hk with
      | word m n =>
          obtain ⟨rfl, hrest⟩ := List.cons.inj hh
          rw [ih hrest ht]
      | tail bs cs =>
          have hrest := (List.cons.inj hh).2
          rcases headWords_off hks hrest with hoff | ⟨hp, hq⟩
          · obtain ⟨rfl, htails⟩ := List.append_inj ht (Nat.add_left_cancel hoff)
            rw [ih hrest htails]
          · rw [tails, tails, hp, hq, List.append_nil, List.append_nil] at ht
            subst ht
            rw [ih hrest (hp.trans hq.symm)]

/-- Tuples of one type with equal encodings are equal. -/
theorem encode_inj (hk : List.Forall₂ SameKind ps qs) (hp : WordsFit ps) (hq : WordsFit qs)
    (hlt : (encode ps).length < 2 ^ 256) (h : encode ps = encode qs) : ps = qs := by
  have hl : ps.length = qs.length := hk.length_eq
  have hlt' : (encode qs).length < 2 ^ 256 := by rwa [← h]
  rw [length_encode] at hlt hlt'
  rw [encode, encode] at h
  obtain ⟨hh, ht⟩ := List.append_inj h (by rw [length_words, length_words, length_headWords, length_headWords, hl])
  have hheads := words_injective (headWords_lt hp hlt) (headWords_lt hq hlt') hh
  rw [hl] at hheads
  exact parts_inj hk hheads ht

theorem encodeArray_inj {ms ns : List Nat} (hms : ∀ n ∈ ms, n < 2 ^ 256) (hns : ∀ n ∈ ns, n < 2 ^ 256)
    (h : encodeArray ms = encodeArray ns) : ms = ns :=
  words_injective hms hns (List.append_inj h (by rw [length_word, length_word])).2

end Injectivity

end Across.Abi
