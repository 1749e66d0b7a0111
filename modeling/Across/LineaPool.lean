import Across.FillFunds
import Across.RefundLeaves

namespace Across.LineaPool

open WordBytes Abi Keccak CallExec CallExec.Exec SpokeTypes SpokeState SpokePool SpokeRules SpokeFunds SpokeBooks
open RefundLeaves FillFunds

variable {W : Type}

section Contract

/-- The three contracts that the admin of a Linea pool has set, and what their view
functions and that of a token return. -/
structure Linea (W : Type) where
  l2MessageService : Address
  l2TokenBridge : Address
  l2UsdcBridge : Address
  minimumFeeInWei : World W → Uint256
  sender : World W → Address
  usdc : World W → Address
  allowance : World W → Address → Address → Address → Uint256

def selector (signature : String) : Bytes := (word (keccak256 (utf8 signature)).toNat).take 4

def sendMessage (dst : Address) (fee : Nat) (data : Bytes) : Bytes :=
  selector "sendMessage(address,uint256,bytes)" ++ encode [.word dst.toNat, .word fee, .tail (encodeBytes data)]

def depositTo (amount : Uint256) (dst : Address) : Bytes :=
  selector "depositTo(uint256,address)" ++ encode [.word amount.toNat, .word dst.toNat]

def bridgeToken (token : Address) (amount : Uint256) (recipient : Address) : Bytes :=
  selector "bridgeToken(address,uint256,address)" ++
    encode [.word token.toNat, .word amount.toNat, .word recipient.toNat]

def approve (spender : Address) (amount : Nat) : Bytes :=
  selector "approve(address,uint256)" ++ encode [.word spender.toNat, .word amount]

variable (H : Host W) (L : Linea W) (V : Variant W)

def depositEthToWeth (s : World W) : List ExternalCall :=
  if 0 < H.nativeBalance s.rest then [.wrappedDeposit (H.nativeBalance s.rest)] else []

def preExecuteLeafHook (l2TokenAddress : Address) (s : World W) : List ExternalCall :=
  if l2TokenAddress = V.wrappedNativeToken then depositEthToWeth H s else []

/-- The call that raises an allowance. The sum is checked, and so is the token's code. -/
def safeIncreaseAllowance (token spender : Address) (value : Uint256) (s : World W) : Except Error ExternalCall :=
  if H.isContract s.rest token = false then .error (.message "Address: call to non-contract")
  else if (L.allowance s token V.self spender).toNat + value.toNat < 2 ^ 256 then
    .ok (.bridge token 0 (approve spender ((L.allowance s token V.self spender).toNat + value.toNat)))
  else .error .panic

def bridgeTokensToHubPool (msg : Msg) (amountToReturn : Uint256) (l2TokenAddress : Address) (s : World W) :
    Except Error (List ExternalCall) :=
  let minFee := L.minimumFeeInWei s
  if msg.value ≠ minFee.toNat then .error (.message "MESSAGE_FEE_MISMATCH")
  else if l2TokenAddress = V.wrappedNativeToken then
    -- `msg.value` has been wrapped with the rest of the native balance
    if amountToReturn.toNat + msg.value < 2 ^ 256 then
      .ok [.wrappedWithdraw (BitVec.ofNat 256 (amountToReturn.toNat + msg.value)),
        .bridge L.l2MessageService (amountToReturn.toNat + msg.value)
          (sendMessage s.pool.withdrawalRecipient msg.value [])]
    else .error .panic
  else if l2TokenAddress = L.usdc s then do
    let approval ← safeIncreaseAllowance H L V l2TokenAddress L.l2UsdcBridge amountToReturn s
    .ok [approval, .bridge L.l2UsdcBridge msg.value (depositTo amountToReturn s.pool.withdrawalRecipient)]
  else do
    let approval ← safeIncreaseAllowance H L V l2TokenAddress L.l2TokenBridge amountToReturn s
    .ok [approval, .bridge L.l2TokenBridge msg.value
      (bridgeToken l2TokenAddress amountToReturn s.pool.withdrawalRecipient)]

def requireAdminSender (msg : Msg) (s : World W) : Bool :=
  decide (L.sender s = s.pool.crossDomainAdmin ∧ msg.sender = L.l2MessageService)

/-- The pool of Linea. Its immutables are those of `V`. -/
def lineaPool : Variant W := { V with
  requireAdminSender := requireAdminSender L
  preExecuteLeafHook := preExecuteLeafHook H V
  bridgeTokensToHubPool := bridgeTokensToHubPool H L V
  validateMulticallData := fun _ => true
  hasFxChild := false }

end Contract

section Effects

variable (V : Variant W) (H : Host W) (P : Purse W)

/-- Over the whole of a call, calls back included, the pool's wrapped tokens stay and
its native currency falls by `value`. -/
def Gives (c : ExternalCall) (value : Nat) : Prop :=
  ∀ k s s', Ok (externalCall H (enter H (exec V H k)) none c) s () s' →
    P.tokens s'.rest V.self = P.tokens s.rest V.self ∧ P.native s'.rest V.self + value = P.native s.rest V.self

/-- What the execution of a leaf relies on outside the pool, with `P` for the wrapped
native token and the native currency. The message service and the bridges take exactly
the value they are handed, and another token moves neither of the two. -/
structure Surroundings (L : Linea W) (token : Address) : Prop where
  native : Outside V H P V.wrappedNativeToken
  balance : ∀ w, H.nativeBalance w < 2 ^ 256
  message : ∀ dst fee value, Gives V H P (.bridge L.l2MessageService value (sendMessage dst fee [])) value
  transfer : token ≠ V.wrappedNativeToken → ∀ dst amount, Gives V H P (.safeTransfer token dst amount) 0
  approval : token ≠ V.wrappedNativeToken → ∀ spender amount,
    Gives V H P (.bridge token 0 (approve spender amount)) 0
  usdcBridge : token ≠ V.wrappedNativeToken → ∀ amount dst value,
    Gives V H P (.bridge L.l2UsdcBridge value (depositTo amount dst)) value
  tokenBridge : token ≠ V.wrappedNativeToken → ∀ amount dst value,
    Gives V H P (.bridge L.l2TokenBridge value (bridgeToken token amount dst)) value

/-- The pool's wrapped tokens and native currency together. -/
def holdings (w : W) : Nat := P.tokens w V.self + P.native w V.self

variable {V H P} {L : Linea W} {token : Address} {n : Nat} {s s' : World W} {u : Unit}

theorem deposit_holdings (hA : Surroundings V H P L token) {value : Nat} (hv : value < 2 ^ 256)
    (h : Ok (externalCall H (enter H (exec V H n)) none (.wrappedDeposit value)) s u s') :
    holdings V P s'.rest = holdings V P s.rest := by
  have hn : (BitVec.ofNat 256 value).toNat = value := Nat.mod_eq_of_lt hv
  rw [← hn] at h
  obtain ⟨w, hw, rfl⟩ := externalCall_halts (fun s => hA.native.wrapped.deposit s (BitVec.ofNat 256 value)) h
  have hin : Wrapped V H P V.wrappedNativeToken value s.rest w := by
    rw [hn] at hw
    exact hw
  obtain ⟨ht, hnative⟩ := Wrapped.pool hin hA.native.wrapped.other
  rw [if_pos rfl] at ht
  simp only [holdings]
  omega

theorem hook_holdings (hA : Surroundings V H P L token)
    (h : Ok (forEach (externalCall H (enter H (exec V H n)) none) (preExecuteLeafHook H V token s)) s () s') :
    holdings V P s'.rest = holdings V P s.rest := by
  unfold preExecuteLeafHook depositEthToWeth at h
  split at h
  · split at h
    · obtain ⟨t, hd, hnil⟩ := (forEach_cons_ok _ _ _ _ _ _).mp h
      obtain rfl := (forEach_nil_ok _ _ _ _).mp hnil
      exact deposit_holdings hA (hA.balance _) hd
    · obtain rfl := (forEach_nil_ok _ _ _ _).mp h
      rfl
  · obtain rfl := (forEach_nil_ok _ _ _ _).mp h
    rfl

theorem safeTransfer_holdings (hA : Surroundings V H P L token) {dst : Address} (hd : dst ≠ V.self) {amount : Uint256}
    (h : Ok (safeTransfer H (externalCall H (enter H (exec V H n))) none token dst amount) s () s') :
    holdings V P s'.rest + (if token = V.wrappedNativeToken then amount.toNat else 0) = holdings V P s.rest := by
  by_cases hw : token = V.wrappedNativeToken
  · subst hw
    have hs := safeTransfer_shifts hA.native.plain h
    have ht := hs.tokens V.self
    have hnative := hs.native V.self
    rw [Pi.sub_apply, amountAt_self, amountAt_of_ne hd.symm] at ht
    rw [Pi.zero_apply] at hnative
    rw [if_pos rfl]
    simp only [holdings]
    omega
  · simp only [safeTransfer, bind_ok, read_ok, require_ok] at h
    obtain ⟨_, _, ⟨rfl, rfl⟩, _, _, ⟨-, rfl⟩, h⟩ := h
    obtain ⟨ht, hnative⟩ := hA.transfer hw dst amount n _ _ h
    rw [if_neg hw]
    simp only [holdings]
    omega

theorem refunds_holdings (hA : Surroundings V H P L token) {rs : List (Address × Uint256)}
    (hrs : ∀ r ∈ rs, r.1 ≠ V.self)
    (h : Ok (forEach (fun r : Address × Uint256 => if 0 < r.2.toNat then
      safeTransfer H (externalCall H (enter H (exec V H n))) none token r.1 r.2 else Pure.pure ()) rs) s u s') :
    holdings V P s'.rest + (if token = V.wrappedNativeToken then total rs else 0) = holdings V P s.rest := by
  induction rs generalizing s with
  | nil =>
      obtain rfl := (forEach_nil_ok _ _ _ _).mp h
      rw [total, List.map_nil, List.sum_nil, ite_self, Nat.add_zero]
  | cons r rs ih =>
      obtain ⟨t, hr, h⟩ := (forEach_cons_ok _ _ _ _ _ _).mp h
      have hrest := ih (fun q hq => hrs q (List.mem_cons_of_mem _ hq)) h
      have hone : holdings V P t.rest + (if token = V.wrappedNativeToken then r.2.toNat else 0) =
          holdings V P s.rest := by
        by_cases hpos : 0 < r.2.toNat
        · rw [if_pos hpos] at hr
          exact safeTransfer_holdings hA (hrs r List.mem_cons_self) hr
        · rw [if_neg hpos] at hr
          obtain ⟨-, rfl⟩ := (pure_ok _ _ _ _).mp hr
          rw [Nat.eq_zero_of_not_pos hpos, ite_self, Nat.add_zero]
      have hsum : total (r :: rs) = r.2.toNat + total rs := by rw [total, total, List.map_cons, List.sum_cons]
      rw [hsum]
      by_cases hw : token = V.wrappedNativeToken
      · rw [if_pos hw] at hrest hone ⊢
        omega
      · rw [if_neg hw] at hrest hone ⊢
        omega

end Effects

section Fees

/-- The call that carries the message fee: the message itself, which brings the returned
amount along, or the call of the bridge that sends it. -/
inductive PaysFee (L : Linea W) (V : Variant W) (leaf : RelayerRefundLeaf) (fee : Nat) : ExternalCall → Prop
  | message (dst : Address) (hw : leaf.l2TokenAddress = V.wrappedNativeToken) :
      PaysFee L V leaf fee (.bridge L.l2MessageService (leaf.amountToReturn.toNat + fee) (sendMessage dst fee []))
  | usdcBridge (dst : Address) (hw : leaf.l2TokenAddress ≠ V.wrappedNativeToken) :
      PaysFee L V leaf fee (.bridge L.l2UsdcBridge fee (depositTo leaf.amountToReturn dst))
  | tokenBridge (dst : Address) (hw : leaf.l2TokenAddress ≠ V.wrappedNativeToken) :
      PaysFee L V leaf fee (.bridge L.l2TokenBridge fee (bridgeToken leaf.l2TokenAddress leaf.amountToReturn dst))

/-- The pool has paid for the leaf out of its wrapped tokens and native currency exactly
if these are what the leaf is in, and whatever the caller sent has gone on as the fee. -/
structure Settles (V : Variant W) (P : Purse W) (L : Linea W) (msg : Msg) (leaf : RelayerRefundLeaf)
    (s s' : World W) : Prop where
  wrapped : leaf.l2TokenAddress = V.wrappedNativeToken →
    holdings V P s'.rest + (total (refunds leaf) + leaf.amountToReturn.toNat) = holdings V P s.rest
  other : leaf.l2TokenAddress ≠ V.wrappedNativeToken → holdings V P s'.rest = holdings V P s.rest
  fee : 0 < msg.value → ∃ c t, PaysFee L V leaf msg.value c ∧ s'.trace = s.trace ++ t ∧ .external none c ∈ t

variable {V : Variant W} {H : Host W} {P : Purse W} {L : Linea W} {leaf : RelayerRefundLeaf} {msg : Msg} {n : Nat}
  {s s' : World W} {u : Unit}

theorem enter_books (V : Variant W) (H : Host W) (n : Nat) (msg : Msg) (call : Call) :
    Keeps (books fun _ _ => True) (enter H (exec V H n) msg call) :=
  enter_keeps (books_blind _).base (books_blind _).rest (exec_books (fun _ _ => True) V H n) msg call

theorem history_extends {α : Type} {m : Code W α} {a : α} (hk : Keeps (books fun _ _ => True) m) (h : Ok m s a s') :
    ∃ t, s'.trace = s.trace ++ t := by
  obtain ⟨t, ht, -⟩ := ((hk s).rel h fun _ _ => trivial).history
  exact ⟨t, ht⟩

theorem externalCall_extends (c : ExternalCall) :
    Keeps (books fun _ _ => True) (externalCall H (enter H (exec V H n)) none c) :=
  externalCall_books (enter_books V H n) c

theorem externalCall_records {c : ExternalCall} (h : Ok (externalCall H (enter H (exec V H n)) none c) s u s') :
    ∃ t, s'.trace = s.trace ++ .external none c :: t := by
  simp only [externalCall, update_bind_ok, read_bind_ok] at h
  have hk := runCallee_keeps (books_blind _).base (books_blind _).rest (enter_books V H n)
    (H.behave c { s with trace := s.trace ++ [.external none c] })
  obtain ⟨t, ht⟩ := history_extends hk h
  refine ⟨t, ?_⟩
  rw [ht, List.append_assoc]
  rfl

theorem safeIncreaseAllowance_ok {token spender : Address} {value : Uint256} {c : ExternalCall}
    (h : safeIncreaseAllowance H L V token spender value s = .ok c) :
    ∃ amount, c = .bridge token 0 (approve spender amount) := by
  unfold safeIncreaseAllowance at h
  split at h
  · cases h
  · split at h
    · exact ⟨_, (Except.ok.inj h).symm⟩
    · cases h

/-- The calls of the hook: the one before the fee is paid, and the one that pays it. -/
theorem bridgeTokensToHubPool_eq {calls : List ExternalCall}
    (h : bridgeTokensToHubPool H L V msg leaf.amountToReturn leaf.l2TokenAddress s = .ok calls) :
    ∃ c d, calls = [c, d] ∧ PaysFee L V leaf msg.value d ∧
      (leaf.l2TokenAddress = V.wrappedNativeToken → leaf.amountToReturn.toNat + msg.value < 2 ^ 256 ∧
        c = .wrappedWithdraw (BitVec.ofNat 256 (leaf.amountToReturn.toNat + msg.value))) ∧
      (leaf.l2TokenAddress ≠ V.wrappedNativeToken → ∃ spender amount,
        c = .bridge leaf.l2TokenAddress 0 (approve spender amount)) := by
  simp only [bridgeTokensToHubPool] at h
  split at h
  · cases h
  · split at h
    · rename_i hw
      split at h
      · rename_i hlt
        exact ⟨_, _, (Except.ok.inj h).symm, .message _ hw, fun _ => ⟨hlt, rfl⟩, fun hne => absurd hw hne⟩
      · cases h
    · rename_i hw
      split at h
      · obtain ⟨c, hc, h⟩ := except_bind_ok.mp h
        obtain ⟨amount, rfl⟩ := safeIncreaseAllowance_ok hc
        exact ⟨_, _, (Except.ok.inj h).symm, .usdcBridge _ hw, fun he => absurd he hw, fun _ => ⟨_, amount, rfl⟩⟩
      · obtain ⟨c, hc, h⟩ := except_bind_ok.mp h
        obtain ⟨amount, rfl⟩ := safeIncreaseAllowance_ok hc
        exact ⟨_, _, (Except.ok.inj h).symm, .tokenBridge _ hw, fun he => absurd he hw, fun _ => ⟨_, amount, rfl⟩⟩

theorem fee_holdings {c d : ExternalCall} {s₁ : World W} (hA : Surroundings V H P L leaf.l2TokenAddress)
    (hd : PaysFee L V leaf msg.value d)
    (hwrapped : leaf.l2TokenAddress = V.wrappedNativeToken → leaf.amountToReturn.toNat + msg.value < 2 ^ 256 ∧
      c = .wrappedWithdraw (BitVec.ofNat 256 (leaf.amountToReturn.toNat + msg.value)))
    (hother : leaf.l2TokenAddress ≠ V.wrappedNativeToken → ∃ spender amount,
      c = .bridge leaf.l2TokenAddress 0 (approve spender amount))
    (h₁ : Ok (externalCall H (enter H (exec V H n)) none c) s () s₁)
    (h₂ : Ok (externalCall H (enter H (exec V H n)) none d) s₁ () s') :
    holdings V P s'.rest + (if leaf.l2TokenAddress = V.wrappedNativeToken then leaf.amountToReturn.toNat else 0) +
      msg.value = holdings V P s.rest := by
  have happroval (hw : leaf.l2TokenAddress ≠ V.wrappedNativeToken) :
      holdings V P s₁.rest = holdings V P s.rest := by
    obtain ⟨spender, amount, rfl⟩ := hother hw
    obtain ⟨ht, hn⟩ := hA.approval hw spender amount n _ _ h₁
    simp only [holdings]
    omega
  cases hd with
  | message dst hw =>
      obtain ⟨hlt, rfl⟩ := hwrapped hw
      have hval : (BitVec.ofNat 256 (leaf.amountToReturn.toNat + msg.value)).toNat =
          leaf.amountToReturn.toNat + msg.value := Nat.mod_eq_of_lt hlt
      have hs := wrappedWithdraw_shifts hA.native rfl h₁
      have ht := hs.tokens V.self
      have hn := hs.native V.self
      rw [Pi.neg_apply, amountAt_self, hval] at ht
      rw [Pi.sub_apply, amountAt_self, amountAt_of_ne hA.native.wrapped.other.symm, hval] at hn
      obtain ⟨ht', hn'⟩ := hA.message dst msg.value _ n _ _ h₂
      rw [if_pos hw]
      simp only [holdings]
      omega
  | usdcBridge dst hw =>
      have hsame := happroval hw
      obtain ⟨ht, hn⟩ := hA.usdcBridge hw leaf.amountToReturn dst msg.value n _ _ h₂
      rw [if_neg hw]
      simp only [holdings] at hsame ⊢
      omega
  | tokenBridge dst hw =>
      have hsame := happroval hw
      obtain ⟨ht, hn⟩ := hA.tokenBridge hw leaf.amountToReturn dst msg.value n _ _ h₂
      rw [if_neg hw]
      simp only [holdings] at hsame ⊢
      omega

theorem bridge_settles (hV : V.bridgeTokensToHubPool = bridgeTokensToHubPool H L V)
    (hA : Surroundings V H P L leaf.l2TokenAddress)
    (h : Ok (SpokePool.bridgeTokensToHubPool V (externalCall H (enter H (exec V H n))) msg leaf.amountToReturn
      leaf.l2TokenAddress) s () s') :
    holdings V P s'.rest + (if leaf.l2TokenAddress = V.wrappedNativeToken then leaf.amountToReturn.toNat else 0) +
        msg.value = holdings V P s.rest ∧
      ∃ d t, PaysFee L V leaf msg.value d ∧ s'.trace = s.trace ++ t ∧ .external none d ∈ t := by
  simp only [SpokePool.bridgeTokensToHubPool, read_bind_ok, hV] at h
  cases hc : bridgeTokensToHubPool H L V msg leaf.amountToReturn leaf.l2TokenAddress s with
  | error e =>
      rw [hc] at h
      exact ((revert_ok _ _ _ _).mp h).elim
  | ok calls =>
      rw [hc] at h
      obtain ⟨c, d, rfl, hd, hwrapped, hother⟩ := bridgeTokensToHubPool_eq hc
      obtain ⟨s₁, h₁, h⟩ := (forEach_cons_ok _ _ _ _ _ _).mp h
      obtain ⟨s₂, h₂, h⟩ := (forEach_cons_ok _ _ _ _ _ _).mp h
      obtain rfl := (forEach_nil_ok _ _ _ _).mp h
      refine ⟨fee_holdings hA hd hwrapped hother h₁ h₂, d, ?_⟩
      obtain ⟨t₁, ht₁⟩ := history_extends (externalCall_extends c) h₁
      obtain ⟨t₂, ht₂⟩ := externalCall_records h₂
      refine ⟨t₁ ++ .external none d :: t₂, hd, ?_, List.mem_append_right _ List.mem_cons_self⟩
      rw [ht₂, ht₁, List.append_assoc]

theorem paid_in (hA : NativeCurrency V H P) (hs : msg.sender ≠ V.self) {run : Msg → Call → Code W Unit} {call : Call}
    (h : Ok (enter H run msg call) s u s') :
    ∃ w, holdings V P w = holdings V P s.rest + msg.value ∧ Ok (run msg call) { s with rest := w } u s' := by
  simp only [enter, read_bind_ok] at h
  split at h
  · exact ((revert_ok _ _ _ _).mp h).elim
  · rename_i w hw
    rw [update_bind_ok] at h
    refine ⟨w, ?_, h⟩
    by_cases hv : msg.value = 0
    · rw [if_pos hv] at hw
      rw [← Option.some.inj hw, hv, Nat.add_zero]
    · rw [if_neg hv] at hw
      have hshift := hA.pay _ _ _ _ hw
      have ht := hshift.tokens V.self
      have hn := hshift.native V.self
      rw [Pi.zero_apply] at ht
      rw [Pi.sub_apply, amountAt_self, amountAt_of_ne hs.symm] at hn
      simp only [holdings]
      omega

/-- What an execution takes from the pool, the caller's value included. -/
theorem execution_holdings {i : Uint32} {proof : List Bytes32}
    (hh : V.preExecuteLeafHook = preExecuteLeafHook H V)
    (hb : V.bridgeTokensToHubPool = bridgeTokensToHubPool H L V) (hA : Surroundings V H P L leaf.l2TokenAddress)
    (hself : ∀ a ∈ leaf.refundAddresses, a ≠ V.self)
    (h : Ok (exec V H n msg (.executeRelayerRefundLeaf i leaf proof)) s () s') :
    holdings V P s'.rest +
          (if leaf.l2TokenAddress = V.wrappedNativeToken then total (refunds leaf) + leaf.amountToReturn.toNat else 0) +
        (if 0 < leaf.amountToReturn.toNat then msg.value else 0) = holdings V P s.rest ∧
      (0 < leaf.amountToReturn.toNat →
        ∃ d t, PaysFee L V leaf msg.value d ∧ s'.trace = s.trace ++ t ∧ .external none d ∈ t) := by
  obtain ⟨k, s₁, s₂, s₃, s₄, hp⟩ := execution_parts h
  have hhook := hp.hook
  rw [hh] at hhook
  have h₁ := hook_holdings hA hhook
  change _ = holdings V P s.rest at h₁
  have hrs : ∀ r ∈ refunds leaf, r.1 ≠ V.self := fun r hr => hself r.1 (List.of_mem_zip hr).1
  have h₃ := refunds_holdings hA hrs hp.refunds
  rw [hp.claimed.1, h₁] at h₃
  obtain ⟨t₁, ht₁⟩ := history_extends (Keeps.forEach externalCall_extends _) hhook
  obtain ⟨t₃, ht₃⟩ := history_extends (Keeps.forEach (fun r : Address × Uint256 =>
    Keeps.ite (safeTransfer_keeps externalCall_extends leaf.l2TokenAddress r.1 r.2) (Keeps.pure ())) _) hp.refunds
  obtain ⟨t, ht⟩ := hp.trace
  have hbridged := hp.bridged
  rw [hp.rest]
  by_cases hpos : 0 < leaf.amountToReturn.toNat
  · rw [if_pos hpos] at hbridged ⊢
    obtain ⟨h₄, d, t₄, hd, ht₄, hmem⟩ := bridge_settles hb hA hbridged
    refine ⟨?_, fun _ => ⟨d, t₁ ++ (t₃ ++ (t₄ ++ t)), hd, ?_, ?_⟩⟩
    · split
      · rename_i hw
        rw [if_pos hw] at h₃ h₄
        omega
      · rename_i hw
        rw [if_neg hw] at h₃ h₄
        omega
    · rw [ht, ht₄, ht₃, hp.claimed.2, ht₁]
      simp only [List.append_assoc]
    · exact List.mem_append_right _ (List.mem_append_right _ (List.mem_append_left _ hmem))
  · rw [if_neg hpos] at hbridged ⊢
    subst hbridged
    refine ⟨?_, fun hn => absurd hn hpos⟩
    rw [Nat.eq_zero_of_not_pos hpos]
    exact h₃

/-- The pool settles a leaf exactly, with the whole of the caller's value paid on,
unless the leaf returns nothing and the caller sends a value all the same. -/
theorem execution_settles_iff {i : Uint32} {proof : List Bytes32}
    (hA : Surroundings (lineaPool H L V) H P L leaf.l2TokenAddress) (hs : msg.sender ≠ V.self)
    (hself : ∀ a ∈ leaf.refundAddresses, a ≠ V.self)
    (h : Ok (enter H (exec (lineaPool H L V) H n) msg (.executeRelayerRefundLeaf i leaf proof)) s () s') :
    Settles (lineaPool H L V) P L msg leaf s s' ↔ 0 < leaf.amountToReturn.toNat ∨ msg.value = 0 := by
  obtain ⟨w, hin, hexec⟩ := paid_in hA.native.currency hs h
  obtain ⟨hout, hfee⟩ := execution_holdings rfl rfl hA hself hexec
  change _ = holdings (lineaPool H L V) P w at hout
  rw [hin] at hout
  constructor
  · rintro ⟨hwrapped, hother, -⟩
    by_contra hcond
    obtain ⟨hreturn, hvalue⟩ := not_or.mp hcond
    rw [if_neg hreturn] at hout
    by_cases hw : leaf.l2TokenAddress = (lineaPool H L V).wrappedNativeToken
    · have hkept := hwrapped hw
      rw [if_pos hw] at hout
      omega
    · have hkept := hother hw
      rw [if_neg hw] at hout
      omega
  · intro hcond
    have hpaid : (if 0 < leaf.amountToReturn.toNat then msg.value else 0) = msg.value := by
      rcases hcond with hreturn | hvalue
      · exact if_pos hreturn
      · rw [hvalue, ite_self]
    rw [hpaid] at hout
    refine ⟨fun hw => ?_, fun hw => ?_, fun hvalue => ?_⟩
    · rw [if_pos hw] at hout
      omega
    · rw [if_neg hw] at hout
      omega
    · exact hfee (hcond.resolve_right (Nat.ne_of_gt hvalue))

end Fees

section Sample

open Erc20

/-- The message service at account 30 charges 3. -/
def sampleLinea : Linea (Token Address × Token Address) where
  l2MessageService := 30
  l2TokenBridge := 31
  l2UsdcBridge := 32
  minimumFeeInWei _ := 3
  sender _ := 3
  usdc _ := 33
  allowance _ _ _ _ := 0

/-- A call of a bridge takes its value out of the pool at account 1. -/
def sampleLineaHost : Host (Token Address × Token Address) := { sampleFillHost with
  behave := fun c s => match c with
    | .bridge target value _ =>
        if value < 2 ^ 256 then
          haltWith s.rest ((s.rest.2.transfer 1 target (BitVec.ofNat 256 value)).map fun c => (s.rest.1, c))
        else .halt false s.rest
    | c => sampleFillHost.behave c s }

def sampleLineaPool : Variant (Token Address × Token Address) := lineaPool sampleLineaHost sampleLinea sampleFillPool

theorem sampleLinea_shifts {dt dn : Address → Int} {w w' : Token Address × Token Address}
    (h : Shifts sampleFillHost samplePurse dt dn w w') : Shifts sampleLineaHost samplePurse dt dn w w' :=
  ⟨h.tokens, h.native, h.code⟩

theorem sampleLinea_halts {c : ExternalCall} {s : World (Token Address × Token Address)} {dt dn : Address → Int}
    (h : ∃ ok w, sampleLineaHost.behave c s = .halt ok w ∧
      (ok = true → Shifts sampleFillHost samplePurse dt dn s.rest w)) :
    ∃ ok w, sampleLineaHost.behave c s = .halt ok w ∧
      (ok = true → Shifts sampleLineaHost samplePurse dt dn s.rest w) := by
  obtain ⟨ok, w, hb, hs⟩ := h
  exact ⟨ok, w, hb, fun hok => sampleLinea_shifts (hs hok)⟩

theorem sampleLineaHost_outside : Outside sampleLineaPool sampleLineaHost samplePurse 2 where
  plain := {
    transfer := fun s dst amount => sampleLinea_halts (sampleFillHost_plain.transfer s dst amount)
    transferFrom := fun s src dst amount => sampleLinea_halts (sampleFillHost_plain.transferFrom s src dst amount) }
  currency := {
    pool := fun _ => rfl
    pay := fun src value w w' h => sampleLinea_shifts (sampleFillHost_currency.pay src value w w' h)
    sendValue := fun s dst amount hc => sampleLinea_halts (sampleFillHost_currency.sendValue s dst amount hc) }
  wrapped := {
    other := by decide
    deposit := fun s amount => sampleLinea_halts (sampleFillHost_wrapped.deposit s amount)
    withdraw := fun ht s amount => by
      rcases sampleFillHost_wrapped.withdraw ht s amount with hf | ⟨w, resume, hb, hs, hr⟩
      · exact .inl hf
      · exact .inr ⟨w, resume, hb, sampleLinea_shifts hs, hr⟩ }

theorem sampleLinea_gives {target : Address} (ht : target ≠ 1) (value : Nat) (data : Bytes) :
    Gives sampleLineaPool sampleLineaHost samplePurse (.bridge target value data) value := by
  intro k s s' h
  have hhalts : ∀ s, ∃ ok w, sampleLineaHost.behave (.bridge target value data) s = .halt ok w ∧
      (ok = true → samplePurse.tokens w 1 = samplePurse.tokens s.rest 1 ∧
        samplePurse.native w 1 + value = samplePurse.native s.rest 1) := by
    intro s
    simp only [sampleLineaHost]
    split
    · rename_i hv
      refine haltWith_halts fun w hw => ?_
      obtain ⟨c, hc, rfl⟩ := Option.map_eq_some_iff.mp hw
      have hbal := (transfer_some hc).2.2 1
      rw [if_pos rfl, if_neg ht.symm, BitVec.toNat_ofNat, Nat.mod_eq_of_lt hv] at hbal
      exact ⟨rfl, hbal⟩
    · exact ⟨false, s.rest, rfl, nofun⟩
  obtain ⟨w, hw, rfl⟩ := externalCall_halts hhalts h
  exact hw

theorem sampleLinea_surroundings : Surroundings sampleLineaPool sampleLineaHost samplePurse sampleLinea 2 where
  native := sampleLineaHost_outside
  balance w := (w.2.balance 1).isLt
  message dst fee value := sampleLinea_gives (by decide) value _
  transfer h := absurd rfl h
  approval h := absurd rfl h
  usdcBridge h := absurd rfl h
  tokenBridge h := absurd rfl h

/-- A refund of 5 wrapped tokens to account 21, and an amount for the hub pool. -/
def sampleRefundLeaf (amountToReturn : Uint256) : RelayerRefundLeaf := ⟨amountToReturn, 10, [5], 0, 2, [21]⟩

/-- The pool holds 50 wrapped tokens and 20 of the native currency. -/
def sampleRefundWorld (leaf : RelayerRefundLeaf) : World (Token Address × Token Address) where
  pool := { sampleStorage with
    rootBundles := [⟨0, keccak256 (encode [.tail (encode leaf.parts)]), fun _ => 0⟩] }
  time := 1000
  rest := (⟨500, fun a => if a = 1 then 50 else 0⟩, ⟨0, fun a => if a = 1 then 20 else if a = 2 then 500 else
    if a = 8 then 10 else 0⟩)
  trace := []

theorem sampleRefund_settles : ∃ s', Ok (enter sampleLineaHost (exec sampleLineaPool sampleLineaHost 2) ⟨8, 3⟩
      (.executeRelayerRefundLeaf 0 (sampleRefundLeaf 7) [])) (sampleRefundWorld (sampleRefundLeaf 7)) () s' ∧
    Settles sampleLineaPool samplePurse sampleLinea ⟨8, 3⟩ (sampleRefundLeaf 7) (sampleRefundWorld (sampleRefundLeaf 7))
      s' := by
  obtain ⟨s', h⟩ : ∃ s', Ok (enter sampleLineaHost (exec sampleLineaPool sampleLineaHost 2) ⟨8, 3⟩
      (.executeRelayerRefundLeaf 0 (sampleRefundLeaf 7) [])) (sampleRefundWorld (sampleRefundLeaf 7)) () s' :=
    exists_ok (by decide +kernel)
  have hA : Surroundings (lineaPool sampleLineaHost sampleLinea sampleFillPool) sampleLineaHost samplePurse sampleLinea
      (sampleRefundLeaf 7).l2TokenAddress := sampleLinea_surroundings
  refine ⟨s', h, (execution_settles_iff hA (by decide) ?_ h).mpr (.inl (by decide))⟩
  intro a ha
  rw [List.mem_singleton.mp ha]
  decide

/-- With nothing to return, a value of 1 stays with the pool. -/
theorem sampleRefund_keeps_value :
    Surroundings sampleLineaPool sampleLineaHost samplePurse sampleLinea (sampleRefundLeaf 0).l2TokenAddress ∧
    ∃ s', Ok (enter sampleLineaHost (exec sampleLineaPool sampleLineaHost 2) ⟨8, 1⟩
        (.executeRelayerRefundLeaf 0 (sampleRefundLeaf 0) [])) (sampleRefundWorld (sampleRefundLeaf 0)) () s' ∧
      holdings sampleLineaPool samplePurse s'.rest + 5 =
        holdings sampleLineaPool samplePurse (sampleRefundWorld (sampleRefundLeaf 0)).rest + 1 ∧
      ¬ Settles sampleLineaPool samplePurse sampleLinea ⟨8, 1⟩ (sampleRefundLeaf 0)
        (sampleRefundWorld (sampleRefundLeaf 0)) s' := by
  obtain ⟨s', h⟩ : ∃ s', Ok (enter sampleLineaHost (exec sampleLineaPool sampleLineaHost 2) ⟨8, 1⟩
      (.executeRelayerRefundLeaf 0 (sampleRefundLeaf 0) [])) (sampleRefundWorld (sampleRefundLeaf 0)) () s' :=
    exists_ok (by decide +kernel)
  obtain ⟨w, hin, hexec⟩ := paid_in sampleLineaHost_outside.currency (by decide) h
  have hself : ∀ a ∈ (sampleRefundLeaf 0).refundAddresses, a ≠ sampleLineaPool.self := by
    intro a ha
    rw [List.mem_singleton.mp ha]
    decide
  have hout := (execution_holdings (L := sampleLinea) rfl rfl sampleLinea_surroundings hself hexec).1
  change holdings sampleLineaPool samplePurse s'.rest + 5 + 0 = holdings sampleLineaPool samplePurse w at hout
  have hkept : holdings sampleLineaPool samplePurse s'.rest + 5 =
      holdings sampleLineaPool samplePurse (sampleRefundWorld (sampleRefundLeaf 0)).rest + 1 := hout.trans hin
  refine ⟨sampleLinea_surroundings, s', h, hkept, fun hsettles => ?_⟩
  have hpaid : holdings sampleLineaPool samplePurse s'.rest + 5 = _ := hsettles.wrapped rfl
  omega

end Sample

end Across.LineaPool
