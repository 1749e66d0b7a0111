import Across.SpokeRules
import Across.Erc20

namespace Across.SpokeFunds

open Abi CallExec CallExec.Exec Erc20 SpokeTypes SpokeState SpokePool SpokeRules

variable {W : Type}

/-- A token that does what the standard says, with its balances as `book` reads
them. A transfer moves tokens or fails; it calls nobody and leaves the native
balance of the pool alone. -/
structure StandardToken (V : Variant W) (H : Host W) (token : Address) (book : W → Token Address) : Prop where
  transfer : ∀ s dst amount, ∃ ok w, H.behave (.safeTransfer token dst amount) s = .halt ok w ∧
    (ok = true → (book s.rest).transfer V.self dst amount = some (book w) ∧
      H.nativeBalance w = H.nativeBalance s.rest)
  transferFrom : ∀ s src dst amount, ∃ ok w, H.behave (.safeTransferFrom token src dst amount) s = .halt ok w ∧
    (ok = true → (book s.rest).transfer src dst amount = some (book w) ∧
      H.nativeBalance w = H.nativeBalance s.rest)

/-- The wrapped native token mints for the pool what the pool pays in. -/
structure Wraps (V : Variant W) (H : Host W) (book : W → Token Address) : Prop where
  deposit : ∀ s value, ∃ ok w, H.behave (.wrappedDeposit value) s = .halt ok w ∧
    (ok = true → (book s.rest).mint V.self (BitVec.ofNat 256 value) = some (book w) ∧
      H.nativeBalance w + value = H.nativeBalance s.rest)

/-- The value of a call reaches the pool and moves no tokens. -/
structure PaysIn (H : Host W) (book : W → Token Address) : Prop where
  pay : ∀ src value w w', H.pay src value w = some w' →
    H.nativeBalance w' = H.nativeBalance w + value ∧ book w' = book w

def tokens (book : W → Token Address) (w : W) (a : Address) : Nat := ((book w).balance a).toNat

variable {V : Variant W} {H : Host W} {token : Address} {book : W → Token Address} {enter : Msg → Call → Code W Unit}
  {s s' : World W} {o : Option Bytes32} {u : Unit}

theorem externalCall_halts {c : ExternalCall} {Q : World W → W → Prop}
    (hc : ∀ s, ∃ ok w, H.behave c s = .halt ok w ∧ (ok = true → Q s w))
    (h : Ok (externalCall H enter o c) s u s') :
    ∃ w, Q { s with trace := s.trace ++ [.external o c] } w ∧
      s' = { s with rest := w, trace := s.trace ++ [.external o c] } := by
  obtain ⟨ok, w, hb, hq⟩ := hc { s with trace := s.trace ++ [.external o c] }
  simp only [externalCall, bind_ok, update_ok, read_ok] at h
  obtain ⟨_, _, rfl, _, _, ⟨rfl, rfl⟩, h⟩ := h
  rw [hb] at h
  cases ok with
  | false => exact ((revert_ok _ _ _ _).mp h).elim
  | true =>
      obtain rfl := (update_ok _ _ _ _).mp h
      exact ⟨w, hq rfl, rfl⟩

theorem safeTransfer_moves (ht : StandardToken V H token book) {dst : Address} {amount : Uint256}
    (h : Ok (safeTransfer H (externalCall H enter) o token dst amount) s u s') :
    (book s.rest).transfer V.self dst amount = some (book s'.rest) ∧
      ∃ w, s' = { s with rest := w, trace := s.trace ++ [.external o (.safeTransfer token dst amount)] } := by
  simp only [safeTransfer, bind_ok, read_ok, require_ok] at h
  obtain ⟨_, _, ⟨rfl, rfl⟩, _, _, ⟨-, rfl⟩, h⟩ := h
  obtain ⟨w, hmove, rfl⟩ := externalCall_halts (fun s => ht.transfer s dst amount) h
  exact ⟨hmove.1, w, rfl⟩

theorem safeTransferFrom_pulls (ht : StandardToken V H token book) {src : Address} {amount : Uint256}
    (hs : src ≠ V.self) (h : Ok (safeTransferFrom H (externalCall H enter) o token src V.self amount) s u s') :
    tokens book s'.rest V.self = tokens book s.rest V.self + amount.toNat ∧
      H.nativeBalance s'.rest = H.nativeBalance s.rest ∧
      ∃ w, s' = { s with
        rest := w, trace := s.trace ++ [.external o (.safeTransferFrom token src V.self amount)] } := by
  simp only [safeTransferFrom, bind_ok, read_ok, require_ok] at h
  obtain ⟨_, _, ⟨rfl, rfl⟩, _, _, ⟨-, rfl⟩, h⟩ := h
  obtain ⟨w, ⟨hmove, hnative⟩, rfl⟩ := externalCall_halts (fun s => ht.transferFrom s src V.self amount) h
  obtain ⟨-, -, hbal⟩ := transfer_some hmove
  have hb := hbal V.self
  rw [if_neg hs.symm, if_pos rfl] at hb
  exact ⟨hb, hnative, w, rfl⟩

theorem wrappedDeposit_mints (hw : Wraps V H book) {amount : Uint256} {value : Nat} (hv : value = amount.toNat)
    (h : Ok (externalCall H enter o (.wrappedDeposit value)) s u s') :
    tokens book s'.rest V.self = tokens book s.rest V.self + amount.toNat ∧
      H.nativeBalance s'.rest + value = H.nativeBalance s.rest ∧
      ∃ w, s' = { s with rest := w, trace := s.trace ++ [.external o (.wrappedDeposit value)] } := by
  obtain ⟨w, ⟨hmint, hnative⟩, rfl⟩ := externalCall_halts (fun s => hw.deposit s value) h
  have hb := (mint_some hmint).2 V.self
  rw [if_pos rfl, hv, BitVec.ofNat_toNat, BitVec.setWidth_eq] at hb
  exact ⟨hb, hnative, w, rfl⟩

/-- A chain with the token 5 and a pool at account 1, whose bridge is a transfer to
account 9. The second part of a state is the native balance of the pool. -/
def sampleVariant : Variant (Token Address × Nat) where
  self := 1
  chainId := 10
  wrappedNativeToken := 2
  depositQuoteTimeBuffer := 3600
  fillDeadlineBuffer := 21600
  requireAdminSender msg _ := decide (msg.sender = 3)
  preExecuteLeafHook _ _ := []
  bridgeTokensToHubPool _ amount token _ := .ok [.safeTransfer token 9 amount]

def afterMove (w : Token Address × Nat) : Option (Token Address) → Callee (Token Address × Nat)
  | some t => .halt true (t, w.2)
  | none => .halt false w

def sampleHost : Host (Token Address × Nat) where
  behave c s := match c with
    | .safeTransfer _ dst amount => afterMove s.rest (s.rest.1.transfer 1 dst amount)
    | .safeTransferFrom _ src dst amount => afterMove s.rest (s.rest.1.transfer src dst amount)
    | _ => .halt true s.rest
  pay _ value w := some (w.1, w.2 + value)
  isContract _ a := decide (a = 5)
  nativeBalance w := w.2
  isValidSignatureNow _ _ _ _ := false

theorem afterMove_halts (w : Token Address × Nat) (r : Option (Token Address)) :
    ∃ ok w', afterMove w r = .halt ok w' ∧ (ok = true → r = some w'.1 ∧ w'.2 = w.2) := by
  cases r with
  | none => exact ⟨false, w, rfl, nofun⟩
  | some t => exact ⟨true, (t, w.2), rfl, fun _ => ⟨rfl, rfl⟩⟩

theorem sampleHost_standard : StandardToken sampleVariant sampleHost 5 Prod.fst where
  transfer s dst amount := afterMove_halts s.rest (s.rest.1.transfer 1 dst amount)
  transferFrom s src dst amount := afterMove_halts s.rest (s.rest.1.transfer src dst amount)

theorem sampleHost_paysIn : PaysIn sampleHost Prod.fst where
  pay _ _ _ _ h := by
    obtain rfl := Option.some.inj h
    exact ⟨rfl, rfl⟩

def sampleStorage : Storage where
  crossDomainAdmin := 3
  withdrawalRecipient := 9
  numberOfDeposits := 0
  pausedFills := false
  pausedDeposits := false
  rootBundles := []
  enabledDepositRoutes _ _ := true
  fillStatuses _ := .unfilled
  owner := 0
  entered := false
  hashedName := 0
  hashedVersion := 0

end Across.SpokeFunds
