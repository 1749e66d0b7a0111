import Across.HubSteps

namespace Across.BondToken

open Abi CallExec CallExec.Exec Erc20 Checked HubState HubPool HubRules HubSteps

/-- The storage of `BondToken` beyond that of the token it extends. -/
structure Bond where
  proposers : Address → Bool
  owner : Address

/-- The check that `transferFrom` makes before it falls back to the base token. -/
def transferPermitted (b : Bond) (hubPool : Address) (h : Hub) (src dst : Address) : Bool :=
  if dst = hubPool then b.proposers src || decide (h.rootBundleProposal.proposer ≠ src) else true

/-- The answers of a chain where `token` is the bond token: what the pool pulls of
it has to pass the check, in the state that the pool is in when it pulls. -/
def spending (D : Deployment) (token : Address) (b : Bond) (A : Answers) : Answers :=
  { A with approved := fun s t src amount =>
      A.approved s t src amount && (decide (t ≠ token) || transferPermitted b D.self s.hub src D.self) }

structure System where
  world : World
  bond : Bond

inductive Input
  | hub (input : HubRun.Input)
  | setProposer (sender proposer : Address) (enabled : Bool)
  | transferOwnership (sender newOwner : Address)

/-- A transfer of the bond token goes through `transferFrom` as well. -/
def step (D : Deployment) (token : Address) (s : System) : Input → System
  | .hub (.call msg A op) => { s with world := HubRun.step D s.world (.call msg (spending D token s.bond A) op) }
  | .hub (.transfer t src dst amount) =>
      if t = token ∧ transferPermitted s.bond D.self s.world.hub src dst = false then s
      else { s with world := HubRun.step D s.world (.transfer t src dst amount) }
  | .hub i => { s with world := HubRun.step D s.world i }
  | .setProposer sender proposer enabled =>
      if sender = s.bond.owner then
        { s with bond := { s.bond with proposers := Function.update s.bond.proposers proposer enabled } }
      else s
  | .transferOwnership sender newOwner =>
      if sender = s.bond.owner then { s with bond := { s.bond with owner := newOwner } } else s

def run (D : Deployment) (token : Address) (s : System) (is : List Input) : System := is.foldl (step D token) s

variable {D : Deployment} {token : Address} {b : Bond} {A : Answers} {msg : Msg} {w w' : World} {u : Unit}

theorem spending_approved {t src : Address} {n : Uint256} : (spending D token b A).approved w t src n = true ↔
    A.approved w t src n = true ∧ (t = token → b.proposers src = true ∨ w.hub.rootBundleProposal.proposer ≠ src) := by
  rw [spending, Bool.and_eq_true, Bool.or_eq_true, transferPermitted, if_pos rfl, Bool.or_eq_true, decide_eq_true_eq,
    decide_eq_true_eq]
  refine and_congr_right fun _ => ?_
  by_cases ht : t = token
  · simp [ht]
  · simp [ht]

/-- The bond is pulled after the proposer has been stored. -/
theorem proposer_permitted {ns : List Uint256} {n : Uint8} {r₁ r₂ r₃ : Bytes32} (ht : w.hub.bondToken = token)
    (h : Ok (proposeRootBundle D (spending D token b A) msg ns n r₁ r₂ r₃) w u w') :
    b.proposers msg.sender = true := by
  simp only [proposeRootBundle, bind_ok, noActiveRequests_ok, unpaused_ok, require_ok, read_ok, checkedAdd_ok,
    setProposal_ok, safeTransferFrom_ok, emit_ok] at h
  obtain ⟨_, _, ⟨-, rfl⟩, _, _, ⟨-, rfl⟩, _, _, ⟨-, rfl⟩, _, _, ⟨rfl, rfl⟩, e, _, ⟨-, rfl⟩, _, _, rfl, _, _,
    ⟨happroved, -⟩, -⟩ := h
  rcases (spending_approved.mp happroved).2 ht with hp | hne
  · exact hp
  · exact absurd rfl hne

/-- The disputer's bond is pulled after the proposal has been deleted, so the check
has no say in a dispute. -/
theorem dispute_unaffected (hs : msg.sender ≠ 0) :
    Ok (disputeRootBundle D (spending D token b A) msg) w u w' ↔ Ok (disputeRootBundle D A msg) w u w' := by
  have hpull : ∀ v v' : World, v.hub.rootBundleProposal = .zero → ∀ t n,
      (Ok (safeTransferFrom D (spending D token b A) t msg.sender n) v () v' ↔
        Ok (safeTransferFrom D A t msg.sender n) v () v') := by
    intro v v' hv t n
    rw [safeTransferFrom_ok, safeTransferFrom_ok, spending_approved, hv]
    constructor
    · exact fun h => ⟨h.1.1, h.2⟩
    · exact fun h => ⟨⟨h.1, fun _ => .inr hs.symm⟩, h.2⟩
  rw [disputeRootBundle_iff, disputeRootBundle_iff]
  constructor
  · rintro ⟨ht, h | ⟨hc, ho, hd, w₁, w₂, w₃, e, he, h₁, h₂, h₃, hw⟩⟩
    · exact ⟨ht, .inl h⟩
    · exact ⟨ht, .inr ⟨hc, ho, hd, w₁, w₂, w₃, e, he, h₁, (hpull _ _ rfl _ _).mp h₂, h₃, hw⟩⟩
  · rintro ⟨ht, h | ⟨hc, ho, hd, w₁, w₂, w₃, e, he, h₁, h₂, h₃, hw⟩⟩
    · exact ⟨ht, .inl h⟩
    · exact ⟨ht, .inr ⟨hc, ho, hd, w₁, w₂, w₃, e, he, h₁, (hpull _ _ rfl _ _).mpr h₂, h₃, hw⟩⟩

/-- In every state that a run reaches, who proposes a bundle is a permitted
proposer, and the check decides no dispute. Nobody can call from the zero address. -/
theorem permission_checks_proposals_only (D : Deployment) (token : Address) (s : System) (is : List Input) (msg : Msg)
    (A : Answers) (w' : World) :
    (∀ ns n r₁ r₂ r₃, (run D token s is).world.hub.bondToken = token →
      Ok (HubRun.dispatch D (spending D token (run D token s is).bond A) msg (.proposeRootBundle ns n r₁ r₂ r₃))
        (run D token s is).world () w' → (run D token s is).bond.proposers msg.sender = true) ∧
    (msg.sender ≠ 0 →
      (Ok (HubRun.dispatch D (spending D token (run D token s is).bond A) msg .disputeRootBundle)
        (run D token s is).world () w' ↔
      Ok (HubRun.dispatch D A msg .disputeRootBundle) (run D token s is).world () w')) := by
  constructor
  · intro ns n r₁ r₂ r₃ ht h
    exact proposer_permitted ht (HubRun.dispatch_ok.mp h).2.2
  · intro hne
    rw [HubRun.dispatch_ok, HubRun.dispatch_ok]
    exact and_congr_right fun _ => and_congr_right fun _ => dispute_unaffected hne

/-- Account 7 proposes with the owner's permission and disputes without it. -/
def sampleSystem : System := ⟨HubRun.sampleWorld, ⟨fun _ => false, 9⟩⟩

def samplePermission : List Input :=
  [.setProposer 9 7 true, .hub (HubRun.sampleCall 3 (.setBond 6 100))]

def sampleWithdrawal : List Input :=
  samplePermission ++ [.hub (HubRun.sampleCall 7 (.proposeRootBundle [] 1 0 0 0)), .setProposer 9 7 false]

theorem sampleWithdrawal_disputable :
    (run HubRun.sampleDeployment 6 sampleSystem samplePermission).bond.proposers 7 = true ∧
    (run HubRun.sampleDeployment 6 sampleSystem sampleWithdrawal).bond.proposers 7 = false ∧
    ∃ w', Ok (HubRun.dispatch HubRun.sampleDeployment (spending HubRun.sampleDeployment 6
        (run HubRun.sampleDeployment 6 sampleSystem sampleWithdrawal).bond HubRun.sampleAnswers) ⟨7, 0⟩
        .disputeRootBundle) (run HubRun.sampleDeployment 6 sampleSystem sampleWithdrawal).world () w' := by
  refine ⟨?_, by decide, ?_⟩
  · obtain ⟨w', h⟩ : ∃ w', Ok (HubRun.dispatch HubRun.sampleDeployment (spending HubRun.sampleDeployment 6
        (run HubRun.sampleDeployment 6 sampleSystem samplePermission).bond HubRun.sampleAnswers) ⟨7, 0⟩
        (.proposeRootBundle [] 1 0 0 0)) (run HubRun.sampleDeployment 6 sampleSystem samplePermission).world () w' :=
      exists_ok (by decide)
    exact (permission_checks_proposals_only _ 6 sampleSystem samplePermission ⟨7, 0⟩ _ w').1 _ _ _ _ _ (by decide) h
  · obtain ⟨w', h⟩ : ∃ w', Ok (HubRun.dispatch HubRun.sampleDeployment HubRun.sampleAnswers ⟨7, 0⟩
        .disputeRootBundle) (run HubRun.sampleDeployment 6 sampleSystem sampleWithdrawal).world () w' :=
      exists_ok (by decide)
    exact ⟨w', ((permission_checks_proposals_only _ 6 sampleSystem sampleWithdrawal ⟨7, 0⟩ _ w').2 (by decide)).mpr h⟩

end Across.BondToken
