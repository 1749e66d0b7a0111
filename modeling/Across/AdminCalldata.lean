import Across.AdminMessages
import Across.MessageTranslation

namespace Across.AdminCalldata

open WordBytes Abi SpokeTypes SpokeState AdminMessages MessageTranslation

/-- The functions for the hub pool alone. -/
inductive AdminFunction
  | pauseDeposits
  | pauseFills
  | setCrossDomainAdmin
  | setWithdrawalRecipient
  | setEnableRoute
  | relayRootBundle
  | emergencyDeleteRootBundle
  | setFxChild
  | setPolygonTokenBridger

namespace AdminFunction

def all : List AdminFunction :=
  [pauseDeposits, pauseFills, setCrossDomainAdmin, setWithdrawalRecipient, setEnableRoute, relayRootBundle,
    emergencyDeleteRootBundle, setFxChild, setPolygonTokenBridger]

def signature : AdminFunction → String
  | pauseDeposits => "pauseDeposits(bool)"
  | pauseFills => "pauseFills(bool)"
  | setCrossDomainAdmin => "setCrossDomainAdmin(address)"
  | setWithdrawalRecipient => "setWithdrawalRecipient(address)"
  | setEnableRoute => "setEnableRoute(address,uint256,bool)"
  | relayRootBundle => "relayRootBundle(bytes32,bytes32)"
  | emergencyDeleteRootBundle => "emergencyDeleteRootBundle(uint256)"
  | setFxChild => "setFxChild(address)"
  | setPolygonTokenBridger => "setPolygonTokenBridger(address)"

def selector : AdminFunction → Bytes
  | pauseDeposits => [115, 139, 98, 229]
  | pauseFills => [153, 204, 41, 104]
  | setCrossDomainAdmin => [222, 126, 186, 120]
  | setWithdrawalRecipient => [252, 138, 88, 79]
  | setEnableRoute => [39, 39, 81, 199]
  | relayRootBundle => [73, 58, 79, 132]
  | emergencyDeleteRootBundle => [138, 120, 96, 206]
  | setFxChild => [184, 108, 253, 207]
  | setPolygonTokenBridger => [19, 251, 119, 238]

end AdminFunction

def boolAt (bs : Bytes) (off : Nat) : Option Bool := do
  let b ← uintAt 1 bs off
  some (decide (b = 1))

/-- The compiler's decoder of the arguments. -/
def AdminFunction.decode (args : Bytes) : AdminFunction → Option Call
  | pauseDeposits => do some (.pauseDeposits (← boolAt args 0))
  | pauseFills => do some (.pauseFills (← boolAt args 0))
  | setCrossDomainAdmin => do some (.setCrossDomainAdmin (← uintAt 160 args 0))
  | setWithdrawalRecipient => do some (.setWithdrawalRecipient (← uintAt 160 args 0))
  | setEnableRoute => do some (.setEnableRoute (← uintAt 160 args 0) (← uintAt 256 args 32) (← boolAt args 64))
  | relayRootBundle => do some (.relayRootBundle (← uintAt 256 args 0) (← uintAt 256 args 32))
  | emergencyDeleteRootBundle => do some (.emergencyDeleteRootBundle (← uintAt 256 args 0))
  | setFxChild => do some (.setFxChild (← uintAt 160 args 0))
  | setPolygonTokenBridger => do some (.setPolygonTokenBridger (← uintAt 160 args 0))

/-- The function that the dispatcher of the pool selects for the calldata. -/
def decodeAdmin (data : Bytes) : Option Call := do
  let f ← AdminFunction.all.find? fun f => decide (encodeSoliditySelector f.signature = data.take 4)
  f.decode (data.drop 4)

/-- An admin function with the words of its arguments. -/
def encoded : Call → Option (AdminFunction × List Nat)
  | .pauseDeposits b => some (.pauseDeposits, [b.toNat])
  | .pauseFills b => some (.pauseFills, [b.toNat])
  | .setCrossDomainAdmin a => some (.setCrossDomainAdmin, [a.toNat])
  | .setWithdrawalRecipient a => some (.setWithdrawalRecipient, [a.toNat])
  | .setEnableRoute t c b => some (.setEnableRoute, [t.toNat, c.toNat, b.toNat])
  | .relayRootBundle r s => some (.relayRootBundle, [r.toNat, s.toNat])
  | .emergencyDeleteRootBundle i => some (.emergencyDeleteRootBundle, [i.toNat])
  | .setFxChild a => some (.setFxChild, [a.toNat])
  | .setPolygonTokenBridger a => some (.setPolygonTokenBridger, [a.toNat])
  | _ => none

def calldata (f : AdminFunction) (arguments : List Nat) : Bytes := encodeSoliditySelector f.signature ++ words arguments

section RoundTrip

variable {m : Call} {f : AdminFunction} {ns : List Nat}

theorem selector_eq (f : AdminFunction) : encodeSoliditySelector f.signature = f.selector := by
  cases f <;> decide +kernel

theorem length_selector (f : AdminFunction) : f.selector.length = 4 := by
  cases f <;> rfl

theorem find_selector (f : AdminFunction) :
    AdminFunction.all.find? (fun g => decide (encodeSoliditySelector g.signature = f.selector)) = some f := by
  simp only [selector_eq]
  cases f <;> rfl

theorem boolAt_of_wordAt {bs : Bytes} {off : Nat} {b : Bool} (h : wordAt bs off = some b.toNat) :
    boolAt bs off = some b := by
  have hword : wordAt bs off = some (BitVec.ofBool b).toNat := by rw [h, BitVec.toNat_ofBool]
  rw [boolAt, uintAt_of_wordAt hword]
  cases b <;> rfl

theorem encoded_lt (h : encoded m = some (f, ns)) : ∀ n ∈ ns, n < 2 ^ 256 := by
  cases m with
  | pauseDeposits b | pauseFills b =>
      obtain ⟨-, rfl⟩ := Prod.mk.inj (Option.some.inj h)
      exact List.forall_mem_singleton.mpr (bool_lt_word b)
  | setCrossDomainAdmin a | setWithdrawalRecipient a | setFxChild a | setPolygonTokenBridger a
  | emergencyDeleteRootBundle a =>
      obtain ⟨-, rfl⟩ := Prod.mk.inj (Option.some.inj h)
      exact List.forall_mem_singleton.mpr (toNat_lt_word (by decide) a)
  | setEnableRoute t c b =>
      obtain ⟨-, rfl⟩ := Prod.mk.inj (Option.some.inj h)
      refine List.forall_mem_cons.mpr ⟨toNat_lt_word (by decide) t, List.forall_mem_cons.mpr ⟨c.isLt, ?_⟩⟩
      exact List.forall_mem_singleton.mpr (bool_lt_word b)
  | relayRootBundle r s =>
      obtain ⟨-, rfl⟩ := Prod.mk.inj (Option.some.inj h)
      exact List.forall_mem_cons.mpr ⟨r.isLt, List.forall_mem_singleton.mpr s.isLt⟩
  | _ => cases h

theorem decode_words (h : encoded m = some (f, ns)) (rest : Bytes) : f.decode (words ns ++ rest) = some m := by
  have hw : ∀ i n, ns[i]? = some n → wordAt (words ns ++ rest) (32 * i) = some n :=
    fun i n => wordAt_words (encoded_lt h) rest
  cases m with
  | pauseDeposits b | pauseFills b =>
      obtain ⟨rfl, rfl⟩ := Prod.mk.inj (Option.some.inj h)
      rw [AdminFunction.decode, boolAt_of_wordAt (hw 0 _ rfl)]
      rfl
  | setCrossDomainAdmin a | setWithdrawalRecipient a | setFxChild a | setPolygonTokenBridger a
  | emergencyDeleteRootBundle a =>
      obtain ⟨rfl, rfl⟩ := Prod.mk.inj (Option.some.inj h)
      rw [AdminFunction.decode, uintAt_of_wordAt (hw 0 _ rfl)]
      rfl
  | setEnableRoute t c b =>
      obtain ⟨rfl, rfl⟩ := Prod.mk.inj (Option.some.inj h)
      rw [AdminFunction.decode, uintAt_of_wordAt (hw 0 _ rfl), uintAt_of_wordAt (hw 1 _ rfl),
        boolAt_of_wordAt (hw 2 _ rfl)]
      rfl
  | relayRootBundle r s =>
      obtain ⟨rfl, rfl⟩ := Prod.mk.inj (Option.some.inj h)
      rw [AdminFunction.decode, uintAt_of_wordAt (hw 0 _ rfl), uintAt_of_wordAt (hw 1 _ rfl)]
      rfl
  | _ => cases h

/-- The pool reads an admin function off its calldata, whatever follows. -/
theorem decodeAdmin_calldata (h : encoded m = some (f, ns)) (rest : Bytes) :
    decodeAdmin (calldata f ns ++ rest) = some m := by
  have hlen := length_selector f
  rw [decodeAdmin, calldata, selector_eq, List.append_assoc, List.take_left' hlen, List.drop_left' hlen,
    find_selector]
  exact decode_words h rest

theorem isAdmin_of_decodeAdmin {data : Bytes} (h : decodeAdmin data = some m) : isAdmin m = true := by
  obtain ⟨f, -, h⟩ := Option.bind_eq_some_iff.mp h
  cases f with
  | setEnableRoute =>
      obtain ⟨_, -, h⟩ := Option.bind_eq_some_iff.mp h
      obtain ⟨_, -, h⟩ := Option.bind_eq_some_iff.mp h
      obtain ⟨_, -, h⟩ := Option.bind_eq_some_iff.mp h
      obtain rfl := Option.some.inj h
      rfl
  | relayRootBundle =>
      obtain ⟨_, -, h⟩ := Option.bind_eq_some_iff.mp h
      obtain ⟨_, -, h⟩ := Option.bind_eq_some_iff.mp h
      obtain rfl := Option.some.inj h
      rfl
  | _ =>
      obtain ⟨_, -, h⟩ := Option.bind_eq_some_iff.mp h
      obtain rfl := Option.some.inj h
      rfl

end RoundTrip

end Across.AdminCalldata
