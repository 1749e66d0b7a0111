import Across.DepositFunds

namespace Across.DepositPulls

open Abi CallExec CallExec.Exec Erc20 SpokeTypes SpokeState SpokePool SpokeRules SpokeFunds DepositFunds

variable {W : Type}

/-- The ledgers of the tokens, as their `balanceOf` tells them. -/
abbrev Books (W : Type) := Address → W → Token Address

/-- Tokens change hands in the book of one token, and no other book changes. -/
structure Moves (book : Books W) (token src dst : Address) (amount : Uint256) (w w' : W) : Prop where
  moved : (book token w).transfer src dst amount = some (book token w')
  others : ∀ t, t ≠ token → book t w' = book t w

/-- The pool's pull of a standard token moves tokens or fails, and calls nobody. -/
def Pulls (H : Host W) (book : Books W) (token : Address) : Prop :=
  ∀ s src dst amount, ∃ ok w, H.behave (.safeTransferFrom token src dst amount) s = .halt ok w ∧
    (ok = true → Moves book token src dst amount s.rest w)

section Pulls

variable {V : Variant W} {H : Host W} {book : Books W} {enter : Msg → Call → Code W Unit} {token : Address}

namespace Moves

variable {src dst : Address} {amount : Uint256} {w w' : W}

theorem paid (h : Moves book token src dst amount w w') (hne : src ≠ dst) :
    tokens (book token) w' src + amount.toNat = tokens (book token) w src := by
  obtain ⟨-, -, hmoves⟩ := transfer_some h.moved
  have hsrc := hmoves src
  rw [if_pos rfl, if_neg hne] at hsrc
  exact hsrc

theorem received (h : Moves book token src dst amount w w') (hne : src ≠ dst) :
    tokens (book token) w' dst = tokens (book token) w dst + amount.toNat := by
  obtain ⟨-, -, hmoves⟩ := transfer_some h.moved
  have hdst := hmoves dst
  rw [if_neg hne.symm, if_pos rfl] at hdst
  exact hdst

theorem kept (h : Moves book token src dst amount w w') {t : Address} (ht : t ≠ token) (a : Address) :
    tokens (book t) w' a = tokens (book t) w a := by
  rw [tokens, h.others t ht, tokens]

/-- What comes before and changes no book makes no difference. -/
theorem before (h : Moves book token src dst amount w w') {w₀ : W} (hb : ∀ t, book t w = book t w₀) :
    Moves book token src dst amount w₀ w' := by
  refine ⟨?_, fun t ht => (h.others t ht).trans (hb t)⟩
  rw [← hb token]
  exact h.moved

theorem after (h : Moves book token src dst amount w w') {w₁ : W} (hb : ∀ t, book t w₁ = book t w') :
    Moves book token src dst amount w w₁ := by
  refine ⟨?_, fun t ht => (hb t).trans (h.others t ht)⟩
  rw [hb token]
  exact h.moved

end Moves

variable {s s' : World W} {u : Unit} {msg : Msg} {call : Call} {d : DepositV3}

theorem depositV3Internal_pulls {id : Uint256} (hp : Pulls H book d.inputToken) (hz : msg.value = 0)
    (h : Ok (depositV3Internal V H (externalCall H enter) msg call d id) s u s') :
    Moves book d.inputToken msg.sender V.self d.inputAmount s.rest s'.rest ∧
      Emits call d.inputToken d.inputAmount s s' := by
  obtain ⟨s₂, e, ⟨-, hpos, -⟩ | ⟨-, -, h₂⟩, htoken, hamount, rfl⟩ := depositV3Internal_funding h
  · omega
  · simp only [safeTransferFrom, read_bind_ok, require_bind_ok] at h₂
    obtain ⟨w, hmoves, rfl⟩ := externalCall_halts (fun s => hp s msg.sender V.self d.inputAmount) h₂.2
    exact ⟨hmoves, .of_trace rfl rfl htoken hamount⟩

/-- A deposit that comes without value moves exactly its input amount from the
depositing account to the pool. -/
theorem depositV3_pulls {n : Nat} {sender : Address} (hp : Pulls H book d.inputToken)
    (h : Ok (SpokePool.enter H (exec V H n) ⟨sender, 0⟩ (.depositV3 d)) s u s') :
    Moves book d.inputToken sender V.self d.inputAmount s.rest s'.rest ∧
      Emits (.depositV3 d) d.inputToken d.inputAmount s s' := by
  rw [SpokePool.enter, read_bind_ok, if_pos rfl] at h
  replace h := (update_bind_ok _ _ _ _ _).mp h
  cases n with
  | zero => exact ((revert_ok _ _ _ _).mp h).elim
  | succ n =>
      obtain ⟨t, hbody, rfl⟩ := nonReentrant_ok (exec_dispatch h)
      obtain ⟨_, _, hid, h⟩ := (bind_ok _ _ _ _ _).mp (unpausedDeposits_ok hbody)
      obtain ⟨-, -, rfl⟩ := nextDepositId_ok hid
      exact depositV3Internal_pulls hp rfl h

end Pulls

section Ledgers

/-- Standard tokens at all addresses, with their allowances. -/
structure Ledgers where
  books : Address → Token Address
  allowances : Address → Address → Address → Uint256

variable (l : Ledgers)

def Ledgers.bookOf (token : Address) (l : Ledgers) : Token Address := l.books token

def Ledgers.setBook (token : Address) (t : Token Address) : Ledgers :=
  { l with books := Function.update l.books token t }

def Ledgers.setAllowance (token owner spender : Address) (amount : Uint256) : Ledgers :=
  { l with
    allowances := Function.update l.allowances token
      (Function.update (l.allowances token) owner (Function.update (l.allowances token owner) spender amount)) }

def Ledgers.transfer (token src dst : Address) (amount : Uint256) : Option Ledgers :=
  ((l.books token).transfer src dst amount).map (l.setBook token)

def Ledgers.transferFrom (token spender src dst : Address) (amount : Uint256) : Option Ledgers :=
  if amount.toNat ≤ (l.allowances token src spender).toNat then
    (l.setAllowance token src spender (l.allowances token src spender - amount)).transfer token src dst amount
  else none

def Ledgers.increaseAllowance (token owner spender : Address) (amount : Uint256) : Option Ledgers :=
  if (l.allowances token owner spender).toNat + amount.toNat < 2 ^ 256 then
    some (l.setAllowance token owner spender (l.allowances token owner spender + amount))
  else none

variable {l} {l' : Ledgers} {token spender src dst owner : Address} {amount : Uint256}

theorem Ledgers.transfer_moves (h : l.transfer token src dst amount = some l') :
    Moves Ledgers.bookOf token src dst amount l l' := by
  obtain ⟨t, ht, rfl⟩ := Option.map_eq_some_iff.mp h
  have hbook : Ledgers.bookOf token (l.setBook token t) = t := Function.update_self _ _ _
  refine ⟨?_, fun x hx => Function.update_of_ne hx _ _⟩
  rw [hbook]
  exact ht

theorem Ledgers.transferFrom_moves (h : l.transferFrom token spender src dst amount = some l') :
    Moves Ledgers.bookOf token src dst amount l l' := by
  rw [Ledgers.transferFrom] at h
  split at h
  · exact (Ledgers.transfer_moves h).before fun _ => rfl
  · cases h

theorem Ledgers.increaseAllowance_books (h : l.increaseAllowance token owner spender amount = some l')
    (t : Address) : Ledgers.bookOf t l' = Ledgers.bookOf t l := by
  rw [Ledgers.increaseAllowance] at h
  split at h
  · obtain rfl := Option.some.inj h
    rfl
  · cases h

/-- A pool at account 1 whose tokens are in the ledgers. -/
def samplePool : Variant Ledgers where
  self := 1
  chainId := 10
  wrappedNativeToken := 2
  depositQuoteTimeBuffer := 3600
  fillDeadlineBuffer := 21600
  requireAdminSender msg _ := decide (msg.sender = 3)
  preExecuteLeafHook _ _ := []
  bridgeTokensToHubPool _ amount token _ := .ok [.safeTransfer token 9 amount]

theorem samplePool_self_ne : samplePool.self ≠ 9 := by decide

def haltWith (l : Ledgers) : Option Ledgers → Callee Ledgers
  | some l' => .halt true l'
  | none => .halt false l

def sampleHost : Host Ledgers where
  behave c s := match c with
    | .safeTransferFrom token src dst amount => haltWith s.rest (s.rest.transferFrom token 1 src dst amount)
    | .safeTransfer token dst amount => haltWith s.rest (s.rest.transfer token 1 dst amount)
    | _ => .halt true s.rest
  pay _ _ l := some l
  isContract _ a := decide (a = 5 ∨ a = 6)
  nativeBalance _ := 0
  isValidSignatureNow _ _ _ _ := false

theorem haltWith_halts (l : Ledgers) (r : Option Ledgers) :
    ∃ ok l', haltWith l r = .halt ok l' ∧ (ok = true → r = some l') := by
  cases r with
  | none => exact ⟨false, l, rfl, nofun⟩
  | some l' => exact ⟨true, l', rfl, fun _ => rfl⟩

theorem sampleHost_pulls (token : Address) : Pulls sampleHost Ledgers.bookOf token := by
  intro s src dst amount
  obtain ⟨ok, l', hhalt, hsome⟩ := haltWith_halts s.rest (s.rest.transferFrom token 1 src dst amount)
  exact ⟨ok, l', hhalt, fun hok => Ledgers.transferFrom_moves (hsome hok)⟩

end Ledgers

end Across.DepositPulls
