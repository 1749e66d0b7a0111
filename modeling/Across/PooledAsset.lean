import Across.ShareRate
import Mathlib.Algebra.BigOperators.Group.List.Basic
import Mathlib.Algebra.Order.Ring.Int

namespace Across.PooledAsset

open ShareRate

/-- Rates are counted in units of `10 ^ (-18)`. -/
def unit : Nat := 10 ^ 18

/-- The share of the reserved fees that is paid out each second. -/
def feeRate : Nat := 1500000000000

def signed (n : Nat) : Int := (n : Int).bmod (2 ^ 256)

theorem signed_of_lt {n : Nat} (h : n < 2 ^ 255) : signed n = n := by
  apply Int.bmod_eq_of_le
  · omega
  · omega

theorem signed_multiple (n : Nat) : ∃ q : Int, signed n = n + 2 ^ 256 * q := by
  have h : signed n + _ = _ := Int.bmod_add_bdiv (n : Int) (2 ^ 256)
  generalize (n : Int).bdiv (2 ^ 256) = q at h
  refine ⟨-q, ?_⟩
  omega

/-- One token in the books of the pool: what it counts as its reserves, the LP
tokens issued against them, and the tokens that it really holds. `held` is the
bond of a proposal that these include. -/
@[ext] structure Asset where
  liquid : Nat
  utilized : Int
  undistributed : Nat
  lastUpdate : Nat
  supply : Nat
  balance : Nat
  held : Nat
  time : Nat

/-- The moves of value that a change of the books records. -/
inductive Label
  | added (amount : Nat)
  | removed (amount : Nat)
  | captured (amount : Nat)
  | haircut (amount : Int)
  | paid (amount : Nat)
  | rated
  | ticked
  | opened

def Label.net : Label → Int
  | .added n => n
  | .removed n => -n
  | .captured n => n
  | .haircut n => -n
  | _ => 0

def net (ls : List Label) : Int := (ls.map Label.net).sum

@[simp] theorem net_nil : net [] = 0 := rfl

@[simp] theorem net_cons (l : Label) (ls : List Label) : net (l :: ls) = l.net + net ls := List.sum_cons

theorem net_append (ls ms : List Label) : net (ls ++ ms) = net ls + net ms := by
  rw [net, List.map_append, List.sum_append]
  rfl

namespace Asset

def reserves (a : Asset) : Int := a.liquid + a.utilized

/-- What the issued LP tokens stand for. -/
def equity (a : Asset) : Int := a.reserves - a.undistributed

/-- The fees that the next update will hand out. -/
def accumulated (a : Asset) : Nat := streamed unit feeRate a.undistributed (a.time - a.lastUpdate)

/-- Everything the books promise to pay from the pool is there. -/
def Solvent (a : Asset) : Prop := a.liquid + a.held ≤ a.balance

end Asset

/-- What an update of the books leaves alone. -/
structure SameHoldings (a b : Asset) : Prop where
  supply : b.supply = a.supply
  balance : b.balance = a.balance
  held : b.held = a.held
  time : b.time = a.time

structure Accrues (a b : Asset) : Prop where
  small : a.undistributed * feeRate < 2 ^ 256
  fits : a.undistributed * feeRate * (a.time - a.lastUpdate) < 2 ^ 256
  undistributed : b.undistributed = a.undistributed - a.accumulated
  lastUpdate : b.lastUpdate = a.time % 2 ^ 32
  liquid : b.liquid = a.liquid
  utilized : b.utilized = a.utilized
  same : SameHoldings a b

/-- Tokens beyond the liquid reserves count as returned from the utilized
ones. -/
structure Syncs (a b : Asset) : Prop where
  covered : a.held ≤ a.balance
  result : b = if a.liquid < a.balance - a.held then
      { a with
        liquid := a.balance - a.held
        utilized := a.utilized - signed (a.balance - a.held - a.liquid) }
    else a

def numerator (a : Asset) : Int := signed a.liquid + a.utilized - signed a.undistributed

inductive Rated (a : Asset) : Nat → Asset → Prop
  | unissued (h : a.supply = 0) : Rated a unit a
  | issued (h : 0 < a.supply) {b c : Asset} (hb : Accrues a b) (hc : Syncs b c) (v : Nat)
      (hv : numerator c = v) (fits : v * unit < 2 ^ 256) : Rated a (rate unit v a.supply) c

/-- The sends and the fees of one executed leaf, in order. -/
inductive Legs : Asset → List Label → Asset → Prop
  | nil (a : Asset) : Legs a [] a
  | send {a b : Asset} {ls : List Label} (n : Nat) (hl : n ≤ a.liquid) (hb : n ≤ a.balance)
      (rest : Legs { a with liquid := a.liquid - n, utilized := a.utilized + n, balance := a.balance - n } ls b) :
      Legs a ls b
  | capture {a b : Asset} {ls : List Label} (n : Nat)
      (rest : Legs { a with undistributed := a.undistributed + n, utilized := a.utilized + signed n } ls b) :
      Legs a (.captured n :: ls) b

/-- Everything that can happen to one token. -/
inductive Act : Asset → List Label → Asset → Prop
  | idle (a : Asset) : Act a [] a
  | tick (a : Asset) (now : Nat) (h : a.time ≤ now) : Act a [.ticked] { a with time := now }
  | receive (a : Asset) (n : Nat) : Act a [] { a with balance := a.balance + n }
  | pay (a : Asset) (n : Nat) (h : n ≤ a.balance) : Act a [.paid n] { a with balance := a.balance - n }
  | open (a : Asset) (h : a.supply = 0) : Act a [.opened] { a with lastUpdate := a.time % 2 ^ 32 }
  | sync {a b : Asset} (h : Syncs a b) : Act a [] b
  | quote {a b : Asset} {r : Nat} (h : Rated a r b) : Act a [.rated] b
  | add {a b : Asset} {r : Nat} (h : Rated a r b) (x : Nat) (fits : x * unit < 2 ^ 256) :
      Act a [.rated, .added x] { b with
        liquid := b.liquid + x, supply := b.supply + x * unit / r, balance := b.balance + x }
  | remove {a b : Asset} {r : Nat} (h : Rated a r b) (n : Nat) (hs : n ≤ b.supply)
      (hl : n * r / unit ≤ b.liquid) (hb : n * r / unit ≤ b.balance) :
      Act a [.rated, .removed (n * r / unit)] { b with
        liquid := b.liquid - n * r / unit, supply := b.supply - n, balance := b.balance - n * r / unit }
  | haircut (a : Asset) (n : Int) : Act a [.haircut n] { a with utilized := a.utilized - n }
  | bondIn (a : Asset) (n : Nat) (h : a.held = 0) : Act a [] { a with balance := a.balance + n, held := n }
  | bondOut (a : Asset) (h : a.held ≤ a.balance) : Act a [] { a with balance := a.balance - a.held, held := 0 }
  | leaf {a b : Asset} {ls : List Label} (h : Legs a ls b) : Act a ls b
  | lastLeaf {a b : Asset} {ls : List Label} (h : Legs a ls b) (hb : b.held ≤ b.balance) :
      Act a ls { b with balance := b.balance - b.held, held := 0 }

variable {a b c : Asset} {ls ms : List Label} {r n : Nat}

theorem Act.congr (h : Act a ls b) (hb : c = b) : Act a ls c := hb ▸ h

theorem Legs.trans (h : Legs a ls b) (k : Legs b ms c) : Legs a (ls ++ ms) c := by
  induction h with
  | nil a => exact k
  | send n hl hb rest ih => exact .send n hl hb (ih k)
  | capture n rest ih => exact .capture n (ih k)

theorem Syncs.cases (h : Syncs a b) :
    (a.liquid + a.held < a.balance ∧ b = { a with
      liquid := a.balance - a.held
      utilized := a.utilized - signed (a.balance - a.held - a.liquid) }) ∨
    (a.balance ≤ a.liquid + a.held ∧ b = a) := by
  have hc := h.covered
  have hr := h.result
  split at hr
  · exact .inl ⟨by omega, hr⟩
  · exact .inr ⟨by omega, hr⟩

theorem Syncs.same (h : Syncs a b) : SameHoldings a b ∧ b.undistributed = a.undistributed ∧
    b.lastUpdate = a.lastUpdate := by
  rcases h.cases with ⟨-, rfl⟩ | ⟨-, rfl⟩
  · exact ⟨⟨rfl, rfl, rfl, rfl⟩, rfl, rfl⟩
  · exact ⟨⟨rfl, rfl, rfl, rfl⟩, rfl, rfl⟩

theorem SameHoldings.trans (h : SameHoldings a b) (k : SameHoldings b c) : SameHoldings a c :=
  ⟨k.supply.trans h.supply, k.balance.trans h.balance, k.held.trans h.held, k.time.trans h.time⟩

theorem Rated.same (h : Rated a r b) : SameHoldings a b := by
  cases h with
  | unissued _ => exact ⟨rfl, rfl, rfl, rfl⟩
  | issued _ hb hc _ _ _ => exact hb.same.trans hc.same.1

section Conservation

theorem Accrues.reserves (h : Accrues a b) : b.reserves = a.reserves := by
  simp only [Asset.reserves]
  rw [h.liquid, h.utilized]

theorem Accrues.equity (h : Accrues a b) : b.equity = a.equity + a.accumulated := by
  have hle : a.accumulated ≤ a.undistributed := streamed_le
  rw [Asset.equity, h.reserves, h.undistributed, Asset.equity]
  omega

/-- Without a wrap of the surplus, a sync only moves value between the two
reserves. -/
theorem Syncs.reserves (h : Syncs a b) (hs : a.balance < 2 ^ 255) : b.reserves = a.reserves := by
  rcases h.cases with ⟨hlt, rfl⟩ | ⟨-, rfl⟩
  · simp only [Asset.reserves]
    rw [signed_of_lt (by omega)]
    omega
  · rfl

theorem Syncs.reserves_multiple (h : Syncs a b) : ∃ q : Int, b.reserves = a.reserves + 2 ^ 256 * q := by
  rcases h.cases with ⟨hlt, rfl⟩ | ⟨-, rfl⟩
  · obtain ⟨q, hq⟩ := signed_multiple (a.balance - a.held - a.liquid)
    refine ⟨-q, ?_⟩
    simp only [Asset.reserves]
    omega
  · exact ⟨0, by omega⟩

theorem Rated.reserves (h : Rated a r b) (hs : a.balance < 2 ^ 255) : b.reserves = a.reserves := by
  cases h with
  | unissued _ => rfl
  | issued _ hb hc _ _ _ => rw [hc.reserves (by rwa [hb.same.balance]), hb.reserves]

theorem Legs.reserves (h : Legs a ls b) (hf : ∀ n, .captured n ∈ ls → n < 2 ^ 255) :
    b.reserves = a.reserves + net ls := by
  induction h with
  | nil a => rw [net_nil, Int.add_zero]
  | send n hl hb rest ih =>
      rw [ih hf]
      simp only [Asset.reserves]
      omega
  | capture n rest ih =>
      rw [ih fun m hm => hf m (List.mem_cons_of_mem _ hm), net_cons]
      simp only [Asset.reserves, Label.net]
      rw [signed_of_lt (hf n List.mem_cons_self)]
      omega

/-- The reserves change by what is added, removed, captured and cut, and by
nothing else. -/
theorem Act.reserves (h : Act a ls b) (hs : a.balance < 2 ^ 255)
    (hf : ∀ n, .captured n ∈ ls → n < 2 ^ 255) : b.reserves = a.reserves + net ls := by
  cases h with
  | idle | receive | bondIn | bondOut => simp only [Asset.reserves, net_nil, Int.add_zero]
  | tick | pay | «open» => simp only [Asset.reserves, net_cons, net_nil, Label.net, Int.add_zero]
  | sync h => rw [net_nil, Int.add_zero, h.reserves hs]
  | quote h =>
      rw [← h.reserves hs]
      simp only [net_cons, net_nil, Label.net, Int.add_zero]
  | add h x _ =>
      rw [← h.reserves hs]
      simp only [Asset.reserves, net_cons, net_nil, Label.net]
      omega
  | remove h n _ hl _ =>
      rw [← h.reserves hs]
      simp only [Asset.reserves, net_cons, net_nil, Label.net]
      omega
  | haircut n =>
      simp only [Asset.reserves, net_cons, net_nil, Label.net]
      omega
  | leaf h => exact h.reserves hf
  | lastLeaf h _ => exact h.reserves hf

end Conservation

section Equity

theorem Accrues.undistributed_lt (h : Accrues a b) : b.undistributed < 2 ^ 255 := by
  have hs := h.small
  rw [h.undistributed]
  simp only [feeRate] at hs
  omega

theorem Syncs.liquid_lt (h : Syncs a b) (hs : a.balance < 2 ^ 255) (hl : a.liquid < 2 ^ 255) :
    b.liquid < 2 ^ 255 := by
  rcases h.cases with ⟨-, rfl⟩ | ⟨-, rfl⟩
  · simp only
    omega
  · exact hl

theorem numerator_eq (hl : a.liquid < 2 ^ 255) (hu : a.undistributed < 2 ^ 255) :
    numerator a = a.equity := by
  rw [numerator, signed_of_lt hl, signed_of_lt hu]
  rfl

theorem Syncs.equity (h : Syncs a b) (hs : a.balance < 2 ^ 255) : b.equity = a.equity := by
  rw [Asset.equity, h.reserves hs, h.same.2.1]
  rfl

theorem numerator_of_equity (hb : Accrues a b) (hc : Syncs b c) (hs : a.balance < 2 ^ 255)
    (hl : a.liquid < 2 ^ 255) : numerator c = c.equity ∧ c.equity = a.equity + a.accumulated := by
  have hsb : b.balance < 2 ^ 255 := by rwa [hb.same.balance]
  have hlb : b.liquid < 2 ^ 255 := by rwa [hb.liquid]
  have hu : c.undistributed < 2 ^ 255 := by
    rw [hc.same.2.1]
    exact hb.undistributed_lt
  exact ⟨numerator_eq (hc.liquid_lt hsb hlb) hu, (hc.equity hsb).trans hb.equity⟩

theorem Rated.equity (h : Rated a r b) (hs : a.balance < 2 ^ 255) (hl : a.liquid < 2 ^ 255)
    (h0 : 0 ≤ a.equity) : 0 ≤ b.equity := by
  cases h with
  | unissued _ => exact h0
  | issued _ hb hc _ _ _ =>
      rw [(numerator_of_equity hb hc hs hl).2]
      omega

theorem Rated.redeem_le (h : Rated a r b) (hs : a.balance < 2 ^ 255) (hl : a.liquid < 2 ^ 255)
    (h0 : 0 ≤ a.equity) (hn : n ≤ b.supply) : ((n * r / unit : Nat) : Int) ≤ b.equity := by
  have hsame := h.same.supply
  cases h with
  | unissued hu =>
      have hz : n = 0 := by omega
      rw [hz, Nat.zero_mul, Nat.zero_div]
      exact h0
  | issued hp hb hc v hv fits =>
      have he : b.equity = v := by rw [← hv, (numerator_of_equity hb hc hs hl).1]
      have hle : n * rate unit v a.supply / unit ≤ v :=
        ShareRate.redeem_le (hn.trans_eq hsame) rate_mul_le
      omega

theorem Legs.equity (h : Legs a ls b) (hf : ∀ n, .captured n ∈ ls → n < 2 ^ 255) : b.equity = a.equity := by
  induction h with
  | nil a => rfl
  | send n hl hb rest ih =>
      rw [ih hf]
      simp only [Asset.equity, Asset.reserves]
      omega
  | capture n rest ih =>
      rw [ih fun m hm => hf m (List.mem_cons_of_mem _ hm)]
      simp only [Asset.equity, Asset.reserves]
      rw [signed_of_lt (hf n List.mem_cons_self)]
      omega

theorem Act.equity (h : Act a ls b) (hs : a.balance < 2 ^ 255) (hl : a.liquid < 2 ^ 255)
    (hf : ∀ n, .captured n ∈ ls → n < 2 ^ 255) (hh : ∀ n, .haircut n ∈ ls → n ≤ a.equity)
    (h0 : 0 ≤ a.equity) : 0 ≤ b.equity := by
  cases h with
  | idle | tick | receive | pay | «open» | bondIn | bondOut => exact h0
  | sync h => exact (h.equity hs).symm ▸ h0
  | quote h => exact h.equity hs hl h0
  | add h x _ =>
      have hb := h.equity hs hl h0
      simp only [Asset.equity, Asset.reserves] at hb ⊢
      omega
  | remove h n hn hx _ =>
      have hr := h.redeem_le hs hl h0 hn
      simp only [Asset.equity, Asset.reserves] at hr ⊢
      omega
  | haircut n =>
      have hn := hh n List.mem_cons_self
      simp only [Asset.equity, Asset.reserves] at hn ⊢
      omega
  | leaf h => exact (h.equity hf).symm ▸ h0
  | lastLeaf h _ => exact (h.equity hf).symm ▸ h0

end Equity

section Solvency

theorem Syncs.solvent (h : Syncs a b) : b.Solvent ∨ b = a := by
  rcases h.cases with ⟨hlt, rfl⟩ | ⟨-, rfl⟩
  · have hc := h.covered
    left
    simp only [Asset.Solvent]
    omega
  · exact .inr rfl

theorem Rated.solvent (h : Rated a r b) (h0 : a.Solvent) : b.Solvent := by
  cases h with
  | unissued _ => exact h0
  | issued _ hb hc _ _ _ =>
      rcases hc.solvent with hs | rfl
      · exact hs
      · rw [Asset.Solvent, hb.liquid, hb.same.held, hb.same.balance]
        exact h0

theorem Legs.solvent (h : Legs a ls b) (h0 : a.Solvent) : b.Solvent ∧ b.held = a.held := by
  induction h with
  | nil a => exact ⟨h0, rfl⟩
  | send n hl hb rest ih =>
      apply ih
      simp only [Asset.Solvent] at h0 ⊢
      omega
  | capture n rest ih => exact ih h0

theorem Legs.captures (h : Legs a ls b) : ∀ l ∈ ls, ∃ n, l = .captured n := by
  induction h with
  | nil a => simp
  | send n hl hb rest ih => exact ih
  | capture n rest ih =>
      intro l hl
      rcases List.mem_cons.mp hl with rfl | hl
      · exact ⟨n, rfl⟩
      · exact ih l hl

theorem Act.paid_le (h : Act a ls b) (hn : .paid n ∈ ls) : n ≤ a.balance := by
  cases h with
  | pay m hm =>
      obtain rfl : n = m := by simpa using hn
      exact hm
  | leaf h | lastLeaf h _ =>
      obtain ⟨m, hm⟩ := h.captures _ hn
      cases hm
  | _ => simp at hn

/-- A payment that is not a withdrawal has to leave what the books promise. -/
theorem Act.solvent (h : Act a ls b) (hp : ∀ n, .paid n ∈ ls → a.liquid + a.held + n ≤ a.balance)
    (h0 : a.Solvent) : b.Solvent := by
  cases h with
  | idle | tick | «open» | haircut => exact h0
  | receive n =>
      simp only [Asset.Solvent] at h0 ⊢
      omega
  | pay n h =>
      have hn := hp n List.mem_cons_self
      simp only [Asset.Solvent]
      omega
  | sync h =>
      rcases h.solvent with hs | rfl
      · exact hs
      · exact h0
  | quote h => exact h.solvent h0
  | add h x _ =>
      have hb := h.solvent h0
      simp only [Asset.Solvent] at hb ⊢
      omega
  | remove h n _ hl hx =>
      have hb := h.solvent h0
      simp only [Asset.Solvent] at hb ⊢
      omega
  | bondIn n hn =>
      simp only [Asset.Solvent] at h0 ⊢
      omega
  | bondOut hb =>
      simp only [Asset.Solvent] at h0 ⊢
      omega
  | leaf h => exact (h.solvent h0).1
  | lastLeaf h _ =>
      have hb := (h.solvent h0).1
      simp only [Asset.Solvent] at hb ⊢
      omega

end Solvency

section Backing

/-- The price `r` is covered by what the LP tokens stand for, counted with the
fees that the next update hands out. The books may be off by a multiple of the
word size. -/
def Backed (r : Nat) (a : Asset) : Prop :=
  ∃ v q : Int, v = a.equity + 2 ^ 256 * q ∧ v < 2 ^ 198 ∧ r * a.supply ≤ (v + a.accumulated) * unit

theorem Accrues.accumulated_lt (h : Accrues a b) : a.accumulated < 2 ^ 197 := by
  apply streamed_lt
  · decide
  · exact h.fits.trans_le (by decide)

theorem numerator_multiple (a : Asset) : ∃ q : Int, numerator a = a.equity + 2 ^ 256 * q := by
  obtain ⟨p, hp⟩ := signed_multiple a.liquid
  obtain ⟨q, hq⟩ := signed_multiple a.undistributed
  refine ⟨p - q, ?_⟩
  rw [numerator, hp, hq]
  simp only [Asset.equity, Asset.reserves]
  omega

theorem Syncs.equity_multiple (h : Syncs a b) : ∃ q : Int, b.equity = a.equity + 2 ^ 256 * q := by
  obtain ⟨q, hq⟩ := h.reserves_multiple
  refine ⟨q, ?_⟩
  simp only [Asset.equity]
  rw [hq, h.same.2.1]
  omega

theorem Rated.value (h : Rated a r b) (hs : 0 < a.supply) :
    ∃ v : Nat, ∃ p q : Int, v = a.equity + a.accumulated + 2 ^ 256 * p ∧ v = b.equity + 2 ^ 256 * q ∧
      v < 2 ^ 197 ∧ a.accumulated < 2 ^ 197 ∧ r = rate unit v a.supply := by
  cases h with
  | unissued hz => omega
  | issued _ hb hc v hv fits =>
      obtain ⟨p, hp⟩ := hc.equity_multiple
      obtain ⟨q, hq⟩ := numerator_multiple b
      have he := hb.equity
      refine ⟨v, p + q, q, by omega, by omega, ?_, hb.accumulated_lt, rfl⟩
      simp only [unit] at fits
      omega

theorem Rated.backed (h : Rated a r b) (hs : 0 < a.supply) : Backed r a := by
  obtain ⟨v, p, q, ha, -, hv, hacc, rfl⟩ := h.value hs
  refine ⟨v - a.accumulated, p, by omega, by omega, ?_⟩
  rw [Int.sub_add_cancel]
  exact_mod_cast rate_mul_le

theorem Backed.value (h : Backed r a) {r' : Nat} (hr : Rated a r' b) (hs : 0 < a.supply) :
    ∃ v : Nat, ∃ q : Int, v = b.equity + 2 ^ 256 * q ∧ v < 2 ^ 197 ∧ r * a.supply ≤ v * unit ∧
      r' = rate unit v a.supply := by
  obtain ⟨m, q₀, hm, hlt, hle⟩ := h
  obtain ⟨v, p, q, ha, hb, hv, hacc, rfl⟩ := hr.value hs
  -- Both are residues of the same number, and neither is large or negative.
  have hpos : 0 ≤ m + a.accumulated := by
    by_contra hneg
    have hz : (0 : Int) ≤ r * a.supply := Int.mul_nonneg (Int.natCast_nonneg _) (Int.natCast_nonneg _)
    have hu : (0 : Int) < unit := by decide
    have hlt : (m + a.accumulated) * unit < 0 := Int.mul_neg_of_neg_of_pos (by omega) hu
    omega
  have hv' : m + a.accumulated = v := by omega
  rw [hv'] at hle
  exact ⟨v, q, hb, hv, by exact_mod_cast hle, rfl⟩

theorem Backed.le_rate (h : Backed r a) {r' : Nat} (hr : Rated a r' b) (hs : 0 < a.supply) : r ≤ r' := by
  obtain ⟨v, -, -, -, hle, rfl⟩ := h.value hr hs
  exact ShareRate.le_rate hs hle

theorem Backed.of_value {v : Nat} {q : Int} (he : v = a.equity + 2 ^ 256 * q) (hv : v < 2 ^ 198)
    (h : r * a.supply ≤ v * unit) : Backed r a := by
  refine ⟨v, q, he, by omega, ?_⟩
  have hle : (r * a.supply : Int) ≤ v * unit := by exact_mod_cast h
  have hu : (v * unit : Int) ≤ (v + a.accumulated) * unit :=
    Int.mul_le_mul_of_nonneg_right (by omega) (by decide)
  exact hle.trans hu

theorem Backed.mono {q : Int} (h : Backed r a) (he : b.equity = a.equity + 2 ^ 256 * q)
    (hs : b.supply = a.supply) (hacc : a.accumulated ≤ b.accumulated) : Backed r b := by
  obtain ⟨m, p, hm, hlt, hle⟩ := h
  refine ⟨m, p - q, by omega, hlt, ?_⟩
  have hu : ((m + a.accumulated) * unit : Int) ≤ (m + b.accumulated) * unit :=
    Int.mul_le_mul_of_nonneg_right (by omega) (by decide)
  rw [hs]
  exact hle.trans hu

theorem Legs.backed (h : Legs a ls b) (h0 : Backed r a) : Backed r b := by
  induction h with
  | nil a => exact h0
  | send n hl hb rest ih =>
      apply ih
      refine h0.mono (q := 0) ?_ rfl le_rfl
      simp only [Asset.equity, Asset.reserves]
      omega
  | @capture a b ls n rest ih =>
      apply ih
      obtain ⟨q, hq⟩ := signed_multiple n
      refine h0.mono (q := q) ?_ rfl (streamed_mono (Nat.le_add_right _ _) le_rfl)
      simp only [Asset.equity, Asset.reserves]
      omega

/-- Every rounding goes the way of the pool, so a price that is backed stays
backed. -/
theorem Act.backed (h : Act a ls b) (hh : ∀ n, .haircut n ∉ ls) (hs : 0 < a.supply)
    (h0 : Backed r a) : Backed r b := by
  cases h with
  | idle | receive | pay | bondIn | bondOut => exact h0
  | tick now h =>
      refine h0.mono (q := 0) (by simp [Asset.equity, Asset.reserves]) rfl (streamed_mono le_rfl ?_)
      exact Nat.sub_le_sub_right h _
  | «open» h => omega
  | sync h =>
      obtain ⟨q, hq⟩ := h.equity_multiple
      obtain ⟨hsame, hu, hl⟩ := h.same
      refine h0.mono hq hsame.supply (le_of_eq ?_)
      rw [Asset.accumulated, Asset.accumulated, hu, hl, hsame.time]
  | quote h =>
      obtain ⟨v, q, he, hv, hle, -⟩ := h0.value h hs
      refine .of_value he (by omega) ?_
      rwa [h.same.supply]
  | add h x fits =>
      obtain ⟨v, q, he, hv, hle, rfl⟩ := h0.value h hs
      have hr : r ≤ rate unit v a.supply := ShareRate.le_rate hs hle
      have hx : x < 2 ^ 197 := by
        simp only [unit] at fits
        omega
      have hb := backed_issue (x := x) (rate_mul_le (k := unit) (v := v) (s := a.supply))
      refine .of_value (v := v + x) (q := q) ?_ (by omega) ?_
      · simp only [Asset.equity, Asset.reserves] at he ⊢
        omega
      · simp only [h.same.supply]
        exact (Nat.mul_le_mul_right _ hr).trans hb
  | remove h n hn hx hb =>
      obtain ⟨v, q, he, hv, hle, rfl⟩ := h0.value h hs
      have hr : r ≤ rate unit v a.supply := ShareRate.le_rate hs hle
      rw [h.same.supply] at hn
      have hxv := ShareRate.redeem_le hn (rate_mul_le (k := unit) (v := v))
      have hbk := backed_redeem (b := n) (rate_mul_le (k := unit) (v := v) (s := a.supply))
      generalize n * rate unit v a.supply / unit = x at hx hb hxv hbk ⊢
      refine .of_value (v := v - x) (q := q) ?_ (by omega) ?_
      · simp only [Asset.equity, Asset.reserves] at he ⊢
        omega
      · simp only [h.same.supply]
        exact (Nat.mul_le_mul_right _ hr).trans hbk
  | haircut n => exact absurd List.mem_cons_self (hh n)
  | leaf h => exact h.backed h0
  | lastLeaf h _ => exact h.backed h0

end Backing

section Quiet

/-- Two states of the books that give the same rate: the reserves are the same
up to a multiple of the word size, which no returned rate can tell. -/
structure SameBooks (a b : Asset) : Prop where
  supply : b.supply = a.supply
  time : b.time = a.time
  undistributed : b.undistributed = a.undistributed
  lastUpdate : b.lastUpdate = a.lastUpdate
  reserves : ∃ q : Int, b.reserves = a.reserves + 2 ^ 256 * q

structure Grown (n : Nat) (a b : Asset) : Prop where
  supply : b.supply = a.supply
  time : b.time = a.time
  lastUpdate : b.lastUpdate = a.lastUpdate
  undistributed : b.undistributed = a.undistributed + n
  reserves : ∃ q : Int, b.reserves = a.reserves + n + 2 ^ 256 * q

theorem Grown.refl (a : Asset) : Grown 0 a a := ⟨rfl, rfl, rfl, rfl, 0, by omega⟩

theorem Grown.trans {m : Nat} (h : Grown n a b) (k : Grown m b c) : Grown (n + m) a c := by
  obtain ⟨p, hp⟩ := h.reserves
  obtain ⟨q, hq⟩ := k.reserves
  refine ⟨k.supply.trans h.supply, k.time.trans h.time, k.lastUpdate.trans h.lastUpdate, ?_, p + q, by omega⟩
  rw [k.undistributed, h.undistributed, Nat.add_assoc]

theorem Grown.sameBooks (h : Grown 0 a b) : SameBooks a b := by
  obtain ⟨q, hq⟩ := h.reserves
  exact ⟨h.supply, h.time, h.undistributed, h.lastUpdate, q, by omega⟩

theorem SameBooks.grown (h : SameBooks a b) : Grown 0 a b := by
  obtain ⟨q, hq⟩ := h.reserves
  exact ⟨h.supply, h.time, h.lastUpdate, h.undistributed, q, by omega⟩

theorem SameBooks.refl (a : Asset) : SameBooks a a := (Grown.refl a).sameBooks

theorem SameBooks.trans (h : SameBooks a b) (k : SameBooks b c) : SameBooks a c := (h.grown.trans k.grown).sameBooks

def Label.fees : Label → Nat
  | .captured n => n
  | _ => 0

def fees (ls : List Label) : Nat := (ls.map Label.fees).sum

@[simp] theorem fees_nil : fees [] = 0 := rfl

@[simp] theorem fees_cons (l : Label) (ls : List Label) : fees (l :: ls) = l.fees + fees ls := List.sum_cons

theorem Legs.grown (h : Legs a ls b) : Grown (fees ls) a b := by
  induction h with
  | nil a => exact .refl a
  | @send a b ls n hl hb rest ih =>
      have hsend : Grown 0 a { a with
          liquid := a.liquid - n, utilized := a.utilized + n, balance := a.balance - n } := by
        refine ⟨rfl, rfl, rfl, rfl, 0, ?_⟩
        simp only [Asset.reserves]
        omega
      exact Nat.zero_add (fees ls) ▸ hsend.trans ih
  | @capture a b ls n rest ih =>
      obtain ⟨q, hq⟩ := signed_multiple n
      have hcap : Grown n a { a with undistributed := a.undistributed + n, utilized := a.utilized + signed n } := by
        refine ⟨rfl, rfl, rfl, rfl, q, ?_⟩
        simp only [Asset.reserves]
        omega
      exact hcap.trans ih

theorem Act.grown (h : Act a ls b) (hq : ∀ l ∈ ls, (∃ n, l = .captured n) ∨ ∃ n, l = .paid n) :
    Grown (fees ls) a b := by
  have hl : ∀ l ∈ ls, (∀ n, l ≠ .captured n) → (∀ n, l ≠ .paid n) → False := by
    intro l hl hc hp
    rcases hq l hl with ⟨n, hn⟩ | ⟨n, hn⟩
    · exact hc n hn
    · exact hp n hn
  cases h with
  | idle | receive | pay | bondIn | bondOut => exact ⟨rfl, rfl, rfl, rfl, 0, by simp [Asset.reserves, Label.fees]⟩
  | sync h =>
      obtain ⟨hs, hu, hl⟩ := h.same
      obtain ⟨q, hq⟩ := h.reserves_multiple
      exact ⟨hs.supply, hs.time, hl, hu, q, by simp only [hq, fees_nil]; omega⟩
  | tick | «open» | quote | haircut => exact (hl _ List.mem_cons_self nofun nofun).elim
  | add | remove => exact (hl _ List.mem_cons_self nofun nofun).elim
  | leaf h => exact h.grown
  | lastLeaf h _ =>
      obtain ⟨hs, ht, hl, hu, hr⟩ := h.grown
      exact ⟨hs, ht, hl, hu, hr⟩

theorem Act.sameBooks (h : Act a ls b) (hq : ∀ l ∈ ls, ∃ n, l = .paid n) : SameBooks a b := by
  have hzero : fees ls = 0 := by
    apply List.sum_eq_zero
    intro x hx
    obtain ⟨l, hl, rfl⟩ := List.mem_map.mp hx
    obtain ⟨n, rfl⟩ := hq l hl
    rfl
  have hg := h.grown fun l hl => .inr (hq l hl)
  rw [hzero] at hg
  exact hg.sameBooks

/-- Captured fees count as if they had been there since the last update: the rate
rises by what they would have paid out since. -/
theorem Grown.rate (h : Grown n a b) {r' : Nat} {a' b' : Asset} (ha : Rated a r a') (hb : Rated b r' b')
    (hs : 0 < a.supply) : a.accumulated ≤ b.accumulated ∧ ∃ v : Nat, r = rate unit v a.supply ∧
      r' = rate unit (v + (b.accumulated - a.accumulated)) a.supply := by
  obtain ⟨v, p, -, hv, -, hlt, -, rfl⟩ := ha.value hs
  obtain ⟨v', p', -, hv', -, hlt', hacc', rfl⟩ := hb.value (h.supply ▸ hs)
  obtain ⟨q, hq⟩ := h.reserves
  have hacc : a.accumulated ≤ b.accumulated := by
    apply streamed_mono
    · rw [h.undistributed]
      exact Nat.le_add_right _ _
    · rw [h.time, h.lastUpdate]
  have hu := h.undistributed
  refine ⟨hacc, v, rfl, ?_⟩
  simp only [Asset.equity] at hv hv'
  have : v' = v + (b.accumulated - a.accumulated) := by omega
  rw [this, h.supply]

theorem SameBooks.rate_eq (h : SameBooks a b) {r' : Nat} {a' b' : Asset} (ha : Rated a r a')
    (hb : Rated b r' b') : r = r' := by
  by_cases hs : a.supply = 0
  · cases ha with
    | issued hp => omega
    | unissued =>
        cases hb with
        | unissued => rfl
        | issued hp =>
            have := h.supply
            omega
  · obtain ⟨-, v, rfl, rfl⟩ := h.grown.rate ha hb (by omega)
    have hacc : b.accumulated = a.accumulated := by
      rw [Asset.accumulated, h.undistributed, h.time, h.lastUpdate]
      rfl
    rw [hacc, Nat.sub_self, Nat.add_zero]

end Quiet

section RoundTrips

/-- An update leaves no fees to hand out at the same time, as long as the time fits the
word in which it is kept. -/
theorem Rated.settled (h : Rated a r b) (hs : 0 < a.supply) (ht : a.time < 2 ^ 32) : b.accumulated = 0 := by
  cases h with
  | unissued hz => omega
  | issued _ hb hc _ _ _ =>
      obtain ⟨hsame, -, hl⟩ := hc.same
      rw [Asset.accumulated, hsame.time, hb.same.time, hl, hb.lastUpdate, Nat.mod_eq_of_lt ht, Nat.sub_self, streamed,
        Nat.mul_zero, Nat.zero_div, Nat.zero_min]

theorem Rated.add_remove (h : Rated a r b) (hs : 0 < a.supply) (ht : a.time < 2 ^ 32) {x : Nat}
    (fits : x * unit < 2 ^ 256)
    {r' : Nat} (k : Rated { b with
      liquid := b.liquid + x, supply := b.supply + x * unit / r, balance := b.balance + x } r' c) :
    x * unit / r * r' / unit ≤ x := by
  have hnone : b.accumulated = 0 := h.settled hs ht
  obtain ⟨v, -, q, -, hv, hlt, -, rfl⟩ := h.value hs
  rw [h.same.supply] at k
  obtain ⟨v', p, -, hv', -, hlt', -, rfl⟩ := k.value (Nat.add_pos_left hs _)
  have hx : x < 2 ^ 197 := by
    simp only [unit] at fits
    omega
  -- The value is kept up to a multiple of the word size, and neither is near it.
  have hnext : v' = v + x := by
    simp only [Asset.accumulated, Asset.equity, Asset.reserves] at hnone hv hv'
    omega
  rw [hnext]
  exact issue_redeem hs

theorem Rated.remove_add (h : Rated a r b) (hs : 0 < a.supply) (hn : n < b.supply) (hl : n * r / unit ≤ b.liquid)
    (hb : n * r / unit ≤ b.balance) {r' : Nat} (k : Rated { b with
      liquid := b.liquid - n * r / unit, supply := b.supply - n, balance := b.balance - n * r / unit } r' c) :
    n * r / unit * unit / r' ≤ n := by
  have hback := (Act.remove h n hn.le hl hb).backed (by simp) hs (h.backed hs)
  exact redeem_issue (hback.le_rate k (Nat.sub_pos_of_lt hn))

end RoundTrips

end Across.PooledAsset
