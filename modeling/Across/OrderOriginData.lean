import Across.OrderDepositor
import Across.PausedFills

namespace Across.OrderOriginData

open WordBytes Abi Keccak CallExec CallExec.Exec SpokeTypes SpokeState SpokePool SpokeRules OrderDepositor
  PausedFills

variable {W : Type}

/-- The two ways to open an order. -/
inductive Opening
  | openFor (order : GaslessCrossChainOrder) (signature fillerData : Bytes)
  | «open» (msgSender : Address) (order : OnchainCrossChainOrder)

def opening (V : Variant W) (S : Settler W) (pool : Msg → Call → Code W Unit) : Opening → Code W Open
  | .openFor order signature fillerData => openFor V S pool order signature fillerData
  | .open msgSender order => «open» V S pool msgSender order

def Opening.acrossOrderData : Opening → Option AcrossOrderData
  | .openFor order _ _ => decodeOrderData order.orderData
  | .open _ order => decodeOrderData order.orderData

/-- The calls between the resolution of an order and its deposit: they bring the
user's funds to the depositor contract and let the pool take them. -/
def funding (V : Variant W) (S : Settler W) (pool : Msg → Call → Code W Unit) (d : AcrossOrderData) :
    Opening → Code W Unit
  | .openFor order signature _ => do
      processPermit2Order S pool order d signature
      settlerCall S pool (.safeIncreaseAllowance d.inputToken V.self d.inputAmount)
  | .open msgSender _ => do
      settlerCall S pool (.safeTransferFrom d.inputToken msgSender S.self d.inputAmount)
      settlerCall S pool (.safeIncreaseAllowance d.inputToken V.self d.inputAmount)

/-- The relay that a deposit on chain `chainId` asks for. -/
def relayOf (chainId : Uint256) (e : V3FundsDeposited) : V3RelayData :=
  ⟨e.depositor, e.recipient, e.exclusiveRelayer, e.inputToken, e.outputToken, e.inputAmount, e.outputAmount,
    chainId, e.depositId, e.fillDeadline, e.exclusivityDeadline, e.message⟩

section Deposit

variable {V : Variant W} {H : Host W} {ext : Option Bytes32 → ExternalCall → Code W Unit} {msg : Msg} {call : Call}
  {s s' : World W}

def exclusivityDeadlineOf (parameter : Uint32) (time : Nat) : Uint32 :=
  if 0 < parameter.toNat ∧ parameter.toNat ≤ maxExclusivityPeriodSeconds then
    BitVec.ofNat 32 (parameter.toNat + currentTime32 time)
  else parameter

theorem exclusivityDeadline_ok {parameter deadline : Uint32} {time : Nat}
    (h : Ok (exclusivityDeadline parameter time) s deadline s') :
    exclusivityDeadlineOf parameter time = deadline ∧ s = s' := by
  unfold exclusivityDeadline at h
  by_cases hp : 0 < parameter.toNat ∧ parameter.toNat ≤ maxExclusivityPeriodSeconds
  · rw [if_pos hp] at h
    simp only [bind_ok, require_ok, pure_ok] at h
    obtain ⟨_, _, ⟨-, rfl⟩, rfl, rfl⟩ := h
    exact ⟨if_pos hp, rfl⟩
  · rw [if_neg hp, pure_ok] at h
    obtain ⟨rfl, rfl⟩ := h
    exact ⟨if_neg hp, rfl⟩

/-- The parameter is the deadline unless it is read as an offset from a clock
that is not at zero. -/
theorem exclusivityDeadlineOf_eq_iff (parameter : Uint32) (time : Nat) :
    exclusivityDeadlineOf parameter time = parameter ↔
      parameter.toNat = 0 ∨ maxExclusivityPeriodSeconds < parameter.toNat ∨ currentTime32 time = 0 := by
  have hp := parameter.isLt
  have ht : currentTime32 time < 2 ^ 32 := Nat.mod_lt _ (by decide)
  unfold exclusivityDeadlineOf
  by_cases h : 0 < parameter.toNat ∧ parameter.toNat ≤ maxExclusivityPeriodSeconds
  · rw [if_pos h, ← BitVec.toNat_inj, BitVec.toNat_ofNat]
    omega
  · rw [if_neg h]
    refine ⟨fun _ => ?_, fun _ => rfl⟩
    omega

def depositEvent (d : DepositV3) (depositId : Uint256) (deadline : Uint32) : V3FundsDeposited :=
  ⟨d.inputToken, d.outputToken, d.inputAmount, d.outputAmount, d.destinationChainId, depositId,
    d.quoteTimestamp, d.fillDeadline, deadline, d.depositor, d.recipient, d.exclusiveRelayer, d.message⟩

theorem depositV3Internal_event {d : DepositV3} {depositId : Uint256} {u : Unit}
    (h : Ok (depositV3Internal V H ext msg call d depositId) s u s') :
    ∃ t, s'.trace = t ++ [.event call (.v3FundsDeposited
      (depositEvent d depositId (exclusivityDeadlineOf d.exclusivityParameter s.time)))] := by
  obtain ⟨s₀, _, h₀, h⟩ := (bind_ok _ _ _ _ _).mp h
  obtain ⟨rfl, rfl⟩ := (read_ok _ _ _).mp h₀
  obtain ⟨_, _, h₁, h⟩ := (bind_ok _ _ _ _ _).mp h
  obtain ⟨-, rfl⟩ := (require_ok _ _ _ _ _).mp h₁
  obtain ⟨_, _, h₂, h⟩ := (bind_ok _ _ _ _ _).mp h
  obtain ⟨-, rfl⟩ := (require_ok _ _ _ _ _).mp h₂
  obtain ⟨_, _, h₃, h⟩ := (bind_ok _ _ _ _ _).mp h
  obtain ⟨-, rfl⟩ := (require_ok _ _ _ _ _).mp h₃
  obtain ⟨_, _, h₄, h⟩ := (bind_ok _ _ _ _ _).mp h
  obtain ⟨-, rfl⟩ := (require_ok _ _ _ _ _).mp h₄
  obtain ⟨deadline, _, h₅, h⟩ := (bind_ok _ _ _ _ _).mp h
  obtain ⟨rfl, rfl⟩ := exclusivityDeadline_ok h₅
  obtain ⟨_, _, h₆, h⟩ := (bind_ok _ _ _ _ _).mp h
  obtain ⟨-, rfl⟩ := (require_ok _ _ _ _ _).mp h₆
  have he : ∀ t : World W, Ok (emit call (.v3FundsDeposited (depositEvent d depositId
      (exclusivityDeadlineOf d.exclusivityParameter s.time)))) t u s' →
      ∃ q, s'.trace = q ++ [.event call (.v3FundsDeposited
        (depositEvent d depositId (exclusivityDeadlineOf d.exclusivityParameter s.time)))] := by
    intro t ht
    obtain rfl := (update_ok _ _ _ _).mp ht
    exact ⟨t.trace, rfl⟩
  split at h
  · obtain ⟨_, _, -, h⟩ := (bind_ok _ _ _ _ _).mp h
    obtain ⟨_, t, -, h⟩ := (bind_ok _ _ _ _ _).mp h
    exact he t h
  · obtain ⟨_, _, -, h⟩ := (bind_ok _ _ _ _ _).mp h
    obtain ⟨_, t, -, h⟩ := (bind_ok _ _ _ _ _).mp h
    exact he t h

/-- The event of the deposit that an order becomes. Its id is the one that
`computeDepositId` gives in the state the deposit starts from. -/
theorem exec_depositCall_event (S : Settler W) {n : Nat} {d : DepositV3} {depositNonce : Uint256} {u : Unit}
    (h : Ok (exec V H n ⟨S.self, 0⟩ (depositCall d depositNonce)) s u s') :
    ∃ t, s'.trace = t ++ [.event (depositCall d depositNonce) (.v3FundsDeposited
      (depositEvent d (computeDepositId S depositNonce d.depositor s)
        (exclusivityDeadlineOf d.exclusivityParameter s.time)))] := by
  cases n with
  | zero => exact ((revert_ok _ _ _ _).mp h).elim
  | succ n =>
      have hd := exec_dispatch h
      by_cases hz : depositNonce = 0
      · rw [depositCall, if_pos hz] at hd ⊢
        obtain ⟨t, ht, rfl⟩ := nonReentrant_ok hd
        obtain ⟨i, t', hi, hi'⟩ := (bind_ok _ _ _ _ _).mp (unpausedDeposits_ok ht)
        obtain ⟨-, rfl, rfl⟩ := nextDepositId_ok hi
        obtain ⟨q, hq⟩ := depositV3Internal_event hi'
        exact ⟨q, by rw [computeDepositId, if_pos hz]; exact hq⟩
      · rw [depositCall, if_neg hz] at hd ⊢
        obtain ⟨t, ht, rfl⟩ := nonReentrant_ok hd
        obtain ⟨q, hq⟩ := depositV3Internal_event (unpausedDeposits_ok ht)
        exact ⟨q, by rw [computeDepositId, if_neg hz]; exact hq⟩

end Deposit

section Time

/-- The clock stands still during a transaction. -/
def sameTime : Guarantee (World W) (Frame W) where
  rel s s' := s'.time = s.time
  frame _ := True
  refl _ := rfl
  trans h k := k.trans h

theorem sameTime_free : Free (sameTime : Guarantee (World W) (Frame W)) :=
  ⟨fun _ _ => trivial, fun _ _ => rfl, fun _ _ => rfl, fun _ _ => rfl⟩

theorem settlerCall_sameTime (V : Variant W) (H : Host W) (S : Settler W) (n : Nat) (c : SettlerCall) :
    Keeps sameTime (settlerCall S (enter H (exec V H n)) c) := by
  have he : ∀ msg call, Keeps sameTime (exec V H n msg call) :=
    exec_keeps ((sameTime_free.sound fun _ _ _ => trivial).rules fun _ => trivial) (fun _ _ _ _ _ _ => trivial) n
  refine Keeps.bind Keeps.read fun s => ?_
  exact runCallee_keeps sameTime_free.base (fun _ _ => rfl) (enter_keeps sameTime_free.base (fun _ _ => rfl) he) _

theorem funding_sameTime (V : Variant W) (H : Host W) (S : Settler W) (n : Nat) (d : AcrossOrderData)
    (x : Opening) : Keeps sameTime (funding V S (enter H (exec V H n)) d x) := by
  cases x with
  | openFor order signature fillerData =>
      exact Keeps.bind (settlerCall_sameTime V H S n _) fun _ => settlerCall_sameTime V H S n _
  | «open» msgSender order =>
      exact Keeps.bind (settlerCall_sameTime V H S n _) fun _ => settlerCall_sameTime V H S n _

end Time

section Opening

variable {V : Variant W} {S : Settler W} {pool : Msg → Call → Code W Unit} {s s' : World W}

def promised (V : Variant W) (S : Settler W) (depositor exclusiveRelayer : Address) (d : AcrossOrderData)
    (fillDeadline : Uint32) (s : World W) : V3RelayData :=
  ⟨depositor, d.recipient, exclusiveRelayer, d.inputToken, d.outputToken, d.inputAmount, d.outputAmount,
    V.chainId, computeDepositId S d.depositNonce depositor s, fillDeadline, d.exclusivityPeriod, d.message⟩

theorem resolved_originData (depositor exclusiveRelayer : Address) (originChainId : BitVec 64)
    (openDeadline fillDeadline : Uint32) (d : AcrossOrderData) (s : World W) :
    (resolved V S depositor exclusiveRelayer originChainId openDeadline fillDeadline d s).fillInstruction.originData
      = encode (promised V S depositor exclusiveRelayer d fillDeadline s).parts := rfl

theorem opening_ok {x : Opening} {o : Open} (h : Ok (opening V S pool x) s o s') :
    ∃ d depositor exclusiveRelayer quoteTimestamp fillDeadline t, x.acrossOrderData = some d ∧
      Ok (funding V S pool d x) s () t ∧
      Ok (pool ⟨S.self, 0⟩ (depositCall
        (depositArgs depositor exclusiveRelayer d quoteTimestamp fillDeadline) d.depositNonce)) t () s' ∧
      o.resolvedOrder.fillInstruction.originData =
        encode (promised V S depositor exclusiveRelayer d fillDeadline s).parts := by
  cases x with
  | openFor order signature fillerData =>
      obtain ⟨⟨r, d, f⟩, s₁, hr, h⟩ := (bind_ok _ _ _ _ _).mp h
      obtain ⟨_, t₁, hp, h⟩ := (bind_ok _ _ _ _ _).mp h
      obtain ⟨_, _, hq, h⟩ := (bind_ok _ _ _ _ _).mp h
      obtain ⟨-, rfl⟩ := (require_ok _ _ _ _ _).mp hq
      obtain ⟨_, t₂, hc, h⟩ := (bind_ok _ _ _ _ _).mp h
      obtain ⟨rfl, rfl⟩ := (pure_ok _ _ _ _).mp h
      obtain ⟨_, t, ha, hd⟩ := (bind_ok _ _ _ _ _).mp hc
      obtain ⟨rfl, -, -, -, hdec, rfl⟩ := resolveFor_ok hr
      exact ⟨_, _, _, _, _, t, hdec, (bind_ok _ _ _ _ _).mpr ⟨(), t₁, hp, ha⟩, hd, resolved_originData ..⟩
  | «open» msgSender order =>
      obtain ⟨⟨r, d⟩, s₁, hr, h⟩ := (bind_ok _ _ _ _ _).mp h
      obtain ⟨_, t₁, hp, h⟩ := (bind_ok _ _ _ _ _).mp h
      obtain ⟨_, _, hrd, h⟩ := (bind_ok _ _ _ _ _).mp h
      obtain ⟨rfl, rfl⟩ := (read_ok _ _ _).mp hrd
      obtain ⟨_, _, hq, h⟩ := (bind_ok _ _ _ _ _).mp h
      obtain ⟨-, rfl⟩ := (require_ok _ _ _ _ _).mp hq
      obtain ⟨_, t₂, hc, h⟩ := (bind_ok _ _ _ _ _).mp h
      obtain ⟨rfl, rfl⟩ := (pure_ok _ _ _ _).mp h
      obtain ⟨_, t, ha, hd⟩ := (bind_ok _ _ _ _ _).mp hc
      obtain ⟨rfl, hdec, rfl⟩ := resolve_ok hr
      exact ⟨_, _, _, _, _, t, hdec, (bind_ok _ _ _ _ _).mpr ⟨(), t₁, hp, ha⟩, hd, resolved_originData ..⟩

theorem computeDepositId_eq_iff (depositNonce : Uint256) (depositor : Address) (t : World W) :
    computeDepositId S depositNonce depositor s = computeDepositId S depositNonce depositor t ↔
      depositNonce ≠ 0 ∨ t.pool.numberOfDeposits = s.pool.numberOfDeposits := by
  unfold computeDepositId
  by_cases hz : depositNonce = 0
  · rw [if_pos hz, if_pos hz]
    have hw : ∀ x : Uint32, (x.setWidth 256).toNat = x.toNat := fun x => by
      rw [BitVec.toNat_setWidth, Nat.mod_eq_of_lt (lt_trans x.isLt (by decide))]
    rw [← BitVec.toNat_inj, hw, hw, BitVec.toNat_inj]
    exact ⟨fun h => .inr h.symm, fun h => (h.resolve_left (not_not.mpr hz)).symm⟩
  · rw [if_neg hz, if_neg hz]
    exact ⟨fun _ => .inl hz, fun _ => rfl⟩

theorem promised_eq_iff (depositor exclusiveRelayer : Address) (d : AcrossOrderData)
    (quoteTimestamp fillDeadline : Uint32) (s t : World W) :
    promised V S depositor exclusiveRelayer d fillDeadline s = relayOf V.chainId
      (depositEvent (depositArgs depositor exclusiveRelayer d quoteTimestamp fillDeadline)
        (computeDepositId S d.depositNonce depositor t) (exclusivityDeadlineOf d.exclusivityPeriod t.time)) ↔
    (d.exclusivityPeriod.toNat = 0 ∨ maxExclusivityPeriodSeconds < d.exclusivityPeriod.toNat ∨
      currentTime32 t.time = 0) ∧
    (d.depositNonce ≠ 0 ∨ t.pool.numberOfDeposits = s.pool.numberOfDeposits) := by
  have hid := computeDepositId_eq_iff (S := S) (s := s) d.depositNonce depositor t
  have hex := exclusivityDeadlineOf_eq_iff d.exclusivityPeriod t.time
  simp only [promised, relayOf, depositEvent, depositArgs, V3RelayData.mk.injEq, true_and, and_true]
  constructor
  · rintro ⟨hi, he⟩
    exact ⟨hex.mp he.symm, hid.mp hi⟩
  · rintro ⟨he, hi⟩
    exact ⟨hid.mpr hi, (hex.mpr he).symm⟩

/-- The order asks for no exclusivity, or gives its end as a timestamp, or the
clock is at zero; and its deposit id is either derived from a nonce or not
overtaken by deposits made while its funds are moved. -/
structure Settled (V : Variant W) (S : Settler W) (pool : Msg → Call → Code W Unit) (x : Opening)
    (d : AcrossOrderData) (s : World W) : Prop where
  exclusivity : d.exclusivityPeriod.toNat = 0 ∨ maxExclusivityPeriodSeconds < d.exclusivityPeriod.toNat ∨
    currentTime32 s.time = 0
  depositId : d.depositNonce ≠ 0 ∨
    ∀ t, Ok (funding V S pool d x) s () t → t.pool.numberOfDeposits = s.pool.numberOfDeposits

/-- The data published for fillers describes the deposit that the same
transaction makes exactly when the order is settled in this sense. -/
theorem originData_matches_iff_settled (V : Variant W) (H : Host W) (S : Settler W) (n : Nat) (x : Opening)
    {s s' : World W} {o : Open} (h : Ok (opening V S (enter H (exec V H n)) x) s o s') :
    ∃ d depositor exclusiveRelayer quoteTimestamp fillDeadline e t, x.acrossOrderData = some d ∧
      s'.trace = t ++ [.event (depositCall (depositArgs depositor exclusiveRelayer d quoteTimestamp fillDeadline)
        d.depositNonce) (.v3FundsDeposited e)] ∧
      (decodeRelayData o.resolvedOrder.fillInstruction.originData 0 = some (relayOf V.chainId e) ↔
        Settled V S (enter H (exec V H n)) x d s) := by
  obtain ⟨d, depositor, relayer, quote, deadline, t, hx, hf, hd, ho⟩ := opening_ok h
  obtain ⟨q, hq⟩ := exec_depositCall_event S (enter_ok rfl hd)
  refine ⟨d, depositor, relayer, quote, deadline, _, q, hx, hq, ?_⟩
  have htime : t.time = s.time := (funding_sameTime V H S n d x).rel hf fun _ _ => trivial
  rw [ho, decodeRelayData_encode, Option.some.injEq]
  refine (promised_eq_iff depositor relayer d quote deadline s t).trans ?_
  rw [htime]
  constructor
  · rintro ⟨he, hi⟩
    refine ⟨he, hi.imp id fun hc t' ht' => ?_⟩
    rw [← (hf.unique ht').2]
    exact hc
  · rintro ⟨he, hi⟩
    exact ⟨he, hi.imp id fun hc => hc t hf⟩

end Opening

section Sample

/-- An order of account 6 that gives account 3 an exclusivity of `period`. -/
def sampleOrderData (period : Uint32) : AcrossOrderData :=
  ⟨4, 100, 5, 99, 10, 7, 3, 0, period, ⟨[], nil_fits⟩⟩

def sampleOpening (period : Uint32) : Opening :=
  .open 6 ⟨2000, acrossOrderDataTypeHash, (sampleOrderData period).encoded⟩

def sampleSettler : Settler Unit := ⟨11, 3600, fun _ => 1, fun _ _ => .halt true ()⟩

def depositWorld : World Unit :=
  { sampleWorld with
    time := 1000
    pool := { sampleWorld.pool with enabledDepositRoutes := fun _ _ => true } }

theorem sampleOpening_opens (period : Uint32) (hp : period = 0 ∨ period = 10) :
    ∃ o s', Ok (opening samplePool sampleSettler (enter willing (exec samplePool willing 1))
      (sampleOpening period)) depositWorld o s' := by
  have hr : Ok (resolve samplePool sampleSettler 6 ⟨2000, acrossOrderDataTypeHash, (sampleOrderData period).encoded⟩)
      depositWorld (resolved samplePool sampleSettler 6 3 (samplePool.chainId.setWidth 64)
        (BitVec.ofNat 32 (2 ^ 32 - 1)) 2000 (sampleOrderData period) depositWorld, sampleOrderData period)
      depositWorld := by
    refine (bind_ok _ _ _ _ _).mpr ⟨(), depositWorld, (require_ok _ _ _ _ _).mpr ⟨rfl, rfl⟩, ?_⟩
    simp only [decodeOrderData_encoded]
    rfl
  rcases hp with rfl | rfl
  · exact ⟨_, _, (bind_ok _ _ _ _ _).mpr ⟨_, _, hr, rfl⟩⟩
  · exact ⟨_, _, (bind_ok _ _ _ _ _).mpr ⟨_, _, hr, rfl⟩⟩

theorem sampleOpening_zero_matches_iff :
    ∃ o s', Ok (opening samplePool sampleSettler (enter willing (exec samplePool willing 1))
      (sampleOpening 0)) depositWorld o s' ∧
      ∃ d depositor exclusiveRelayer quoteTimestamp fillDeadline e t,
        (sampleOpening 0).acrossOrderData = some d ∧
        s'.trace = t ++ [.event (depositCall (depositArgs depositor exclusiveRelayer d quoteTimestamp fillDeadline)
          d.depositNonce) (.v3FundsDeposited e)] ∧
        (decodeRelayData o.resolvedOrder.fillInstruction.originData 0 = some (relayOf samplePool.chainId e) ↔
          Settled samplePool sampleSettler (enter willing (exec samplePool willing 1)) (sampleOpening 0) d
            depositWorld) := by
  obtain ⟨o, s', h⟩ := sampleOpening_opens 0 (.inl rfl)
  exact ⟨o, s', h, originData_matches_iff_settled samplePool willing sampleSettler 1 (sampleOpening 0) h⟩

/-- With an exclusivity of ten seconds at time 1000 the order promises a relay
whose exclusivity ended at time 10, while the deposit has it end at 1010. -/
theorem sampleOpening_ten_mismatches :
    ∃ o s' call e t, Ok (opening samplePool sampleSettler (enter willing (exec samplePool willing 1))
      (sampleOpening 10)) depositWorld o s' ∧ s'.trace = t ++ [.event call (.v3FundsDeposited e)] ∧
      decodeRelayData o.resolvedOrder.fillInstruction.originData 0 ≠ some (relayOf samplePool.chainId e) := by
  obtain ⟨o, s', h⟩ := sampleOpening_opens 10 (.inr rfl)
  obtain ⟨d, depositor, relayer, quote, deadline, t, hx, hf, hd, ho⟩ := opening_ok h
  obtain ⟨q, hq⟩ := exec_depositCall_event sampleSettler (enter_ok rfl hd)
  refine ⟨o, s', _, _, q, h, hq, ?_⟩
  obtain rfl : sampleOrderData 10 = d := Option.some.inj ((decodeOrderData_encoded _).symm.trans hx)
  have htime : t.time = 1000 :=
    (funding_sameTime samplePool willing sampleSettler 1 (sampleOrderData 10) (sampleOpening 10)).rel hf
      fun _ _ => trivial
  rw [ho, decodeRelayData_encode, ne_eq, Option.some.injEq]
  refine fun he => absurd ((promised_eq_iff depositor relayer (sampleOrderData 10) quote deadline _ t).mp he).1 ?_
  rw [htime]
  decide

end Sample

end Across.OrderOriginData
