import Mathlib.Data.List.Flatten
import Mathlib.Data.List.Perm.Subperm
import Mathlib.Logic.Function.Basic
import Mathlib.Logic.Relation

namespace Across.Mailbox

variable {S ι R M : Type}

/-- A sender that posts messages, and receivers that take messages one by one and
act on their own in between. -/
structure Protocol (S ι R M : Type) where
  post : S → S → List M → Prop
  receive : ι → M → R → R → Prop
  act : ι → R → R → Prop

/-- `pending` are the messages on their way, and `posted` and `received` the history. -/
structure State (S ι R M : Type) where
  sender : S
  receivers : ι → R
  posted : List M
  pending : List M
  received : List (ι × M)

def start (s : S) (r : ι → R) : State S ι R M := ⟨s, r, [], [], []⟩

/-- Messages can be delayed, overtaken and lost. They are not altered, forged or repeated. -/
inductive Step [DecidableEq ι] (P : Protocol S ι R M) : State S ι R M → State S ι R M → Prop
  | post {x : State S ι R M} {s : S} {ms : List M} (h : P.post x.sender s ms) :
      Step P x { x with sender := s, posted := x.posted ++ ms, pending := x.pending ++ ms }
  | deliver {x : State S ι R M} {i : ι} {m : M} {ms ns : List M} {r : R} (hm : x.pending = ms ++ m :: ns)
      (h : P.receive i m (x.receivers i) r) :
      Step P x { x with
        receivers := Function.update x.receivers i r, pending := ms ++ ns, received := x.received ++ [(i, m)] }
  | lose {x : State S ι R M} {m : M} {ms ns : List M} (hm : x.pending = ms ++ m :: ns) :
      Step P x { x with pending := ms ++ ns }
  | act {x : State S ι R M} {i : ι} {r : R} (h : P.act i (x.receivers i) r) :
      Step P x { x with receivers := Function.update x.receivers i r }

def Reaches [DecidableEq ι] (P : Protocol S ι R M) : State S ι R M → State S ι R M → Prop :=
  Relation.ReflTransGen (Step P)

variable [DecidableEq ι]

/-- What a receiver has taken, in its order. -/
def mail (x : State S ι R M) (i : ι) : List M :=
  x.received.filterMap fun p => if p.1 = i then some p.2 else none

variable {P : Protocol S ι R M} {x y : State S ι R M} {s : S} {r : ι → R} {i : ι}

theorem mail_sublist (x : State S ι R M) (i : ι) : (mail x i).Sublist (x.received.map Prod.snd) := by
  rw [mail]
  induction x.received with
  | nil => exact .slnil
  | cons p ps ih =>
      by_cases hp : p.1 = i
      · simp only [List.filterMap_cons, if_pos hp, List.map_cons]
        exact ih.cons_cons p.2
      · simp only [List.filterMap_cons, if_neg hp, List.map_cons]
        exact ih.cons p.2

theorem mail_snoc_self (x : State S ι R M) (i : ι) (m : M) (rs : ι → R) (ms : List M) :
    mail { x with receivers := rs, pending := ms, received := x.received ++ [(i, m)] } i = mail x i ++ [m] := by
  simp [mail]

theorem mail_snoc_of_ne (x : State S ι R M) {i j : ι} (h : j ≠ i) (m : M) (rs : ι → R) (ms : List M) :
    mail { x with receivers := rs, pending := ms, received := x.received ++ [(j, m)] } i = mail x i := by
  simp [mail, h]

theorem Step.conserved (h : Step P x y) (hx : (x.received.map Prod.snd ++ x.pending).Subperm x.posted) :
    (y.received.map Prod.snd ++ y.pending).Subperm y.posted := by
  cases h with
  | @post s ms h =>
      rw [← List.append_assoc]
      exact hx.append (List.Subperm.refl ms)
  | @deliver i m ms ns r hm h =>
      refine List.Perm.subperm ?_ |>.trans hx
      rw [hm, List.map_append, List.append_assoc]
      have hmove : (m :: (ms ++ ns)).Perm (ms ++ m :: ns) := List.perm_middle.symm
      exact hmove.append_left (x.received.map Prod.snd)
  | @lose m ms ns hm =>
      refine List.Sublist.subperm ?_ |>.trans hx
      rw [hm]
      exact ((List.sublist_cons_self m ns).append_left ms).append_left _
  | act h => exact hx

/-- What has arrived and what is still on its way was all posted, each message as
often at most as it was posted. -/
theorem Reaches.conserved (h : Reaches P (start s r) x) :
    (x.received.map Prod.snd ++ x.pending).Subperm x.posted := by
  induction h with
  | refl => exact List.Subperm.refl []
  | tail _ hs ih => exact hs.conserved ih

theorem Reaches.received_subperm (h : Reaches P (start s r) x) : (x.received.map Prod.snd).Subperm x.posted :=
  (List.sublist_append_left _ _).subperm.trans h.conserved

theorem Reaches.posted_of_mail (h : Reaches P (start s r) x) {m : M} (hm : m ∈ mail x i) : m ∈ x.posted :=
  h.received_subperm.subset ((mail_sublist x i).subset hm)

/-- An invariant of the sender and what it has posted. -/
theorem Reaches.posts {I : S → List M → Prop} (h : Reaches P (start s r) x) (h₀ : I s [])
    (hp : ∀ {s s' ms ns}, I s ms → P.post s s' ns → I s' (ms ++ ns)) : I x.sender x.posted := by
  induction h with
  | refl => exact h₀
  | tail _ hs ih =>
      cases hs with
      | post h => exact hp ih h
      | deliver _ _ | lose _ | act _ => exact ih

/-- An invariant of a receiver and what it has taken. -/
theorem Reaches.receives {I : R → List M → Prop} (h : Reaches P (start s r) x) (h₀ : I (r i) [])
    (hr : ∀ {r r' ms m}, I r ms → P.receive i m r r' → I r' (ms ++ [m]))
    (ha : ∀ {r r' ms}, I r ms → P.act i r r' → I r' ms) : I (x.receivers i) (mail x i) := by
  induction h with
  | refl => exact h₀
  | @tail y z _ hs ih =>
      cases hs with
      | post _ | lose _ => exact ih
      | @deliver j m ms ns r hm h =>
          by_cases hj : j = i
          · subst hj
            rw [mail_snoc_self]
            change I (Function.update y.receivers j r j) _
            rw [Function.update_self]
            exact hr ih h
          · rw [mail_snoc_of_ne _ hj]
            change I (Function.update y.receivers j r i) _
            rw [Function.update_of_ne (Ne.symm hj)]
            exact ih
      | @act j r h =>
          by_cases hj : j = i
          · subst hj
            change I (Function.update y.receivers j r j) _
            rw [Function.update_self]
            exact ha ih h
          · change I (Function.update y.receivers j r i) _
            rw [Function.update_of_ne (Ne.symm hj)]
            exact ih

section Relays

variable {S' κ T N : Type}

/-- A receiver that sends messages of its own for those that it takes, and the
receivers behind it. `own` is what it does without a message. -/
structure Relay (M S κ T N : Type) where
  handle : M → S → S → List N → Prop
  own : S → S → Prop
  receive : κ → N → T → T → Prop
  act : κ → T → T → Prop

namespace Relay

/-- The protocol behind a relay, for somebody who does not see what it takes. -/
def onward (Q : Relay M S' κ T N) : Protocol S' κ T N where
  post s s' ns := (∃ m, Q.handle m s s' ns) ∨ Q.own s s' ∧ ns = []
  receive := Q.receive
  act := Q.act

/-- What happens behind a relay that takes no message. -/
def alone (Q : Relay M S' κ T N) : Protocol S' κ T N where
  post s s' ns := Q.own s s' ∧ ns = []
  receive := Q.receive
  act := Q.act

variable [DecidableEq κ]

/-- The relay with all that is behind it, as the one receiver of a sender. -/
def fed (Q : Relay M S' κ T N) (post : S → S → List M → Prop) : Protocol S Unit (State S' κ T N) M where
  post := post
  receive _ m y z := ∃ s ns, Q.handle m y.sender s ns ∧
    z = { y with sender := s, posted := y.posted ++ ns, pending := y.pending ++ ns }
  act _ y z := Step Q.alone y z

variable {Q : Relay M S' κ T N} {post : S → S → List M → Prop} {x : State S Unit (State S' κ T N) M}
  {y z : State S' κ T N} {s' : S'} {t : κ → T}

theorem step_onward (h : Step Q.alone y z) : Step Q.onward y z := by
  cases h with
  | post h => exact .post (.inr h)
  | deliver hm h => exact .deliver hm h
  | lose hm => exact .lose hm
  | act h => exact .act h

/-- Everything behind the relay follows the rules of a mailbox. -/
theorem reaches_onward (h : Reaches (Q.fed post) (start s fun _ => start s' t) x) :
    Reaches Q.onward (start s' t) (x.receivers ()) := by
  refine h.receives (I := fun y _ => Reaches Q.onward (start s' t) y) (i := ()) .refl ?_ ?_
  · rintro y z _ m hy ⟨s, ns, hhandle, rfl⟩
    exact hy.tail (.post (.inl ⟨m, hhandle⟩))
  · intro y z _ hy hz
    exact hy.tail (step_onward hz)

/-- An invariant of the relay, what it has taken and what it has sent for that. -/
theorem handles {I : S' → List M → List N → Prop} (h : Reaches (Q.fed post) (start s fun _ => start s' t) x)
    (h₀ : I s' [] []) (hh : ∀ {s s'' m ms ns ns'}, I s ms ns → Q.handle m s s'' ns' → I s'' (ms ++ [m]) (ns ++ ns'))
    (ho : ∀ {s s'' ms ns}, I s ms ns → Q.own s s'' → I s'' ms ns) :
    I (x.receivers ()).sender (mail x ()) (x.receivers ()).posted := by
  refine h.receives (I := fun y ms => I y.sender ms y.posted) (i := ()) h₀ ?_ ?_
  · rintro y z ms m hy ⟨s, ns, hhandle, rfl⟩
    exact hh hy hhandle
  · intro y z ms hy hz
    cases hz with
    | @post s ns h =>
        obtain ⟨hown, rfl⟩ := h
        change I s ms (y.posted ++ [])
        rw [List.append_nil]
        exact ho hy hown
    | deliver _ _ | lose _ | act _ => exact hy

/-- What arrives behind a relay was sent to it, when the relay sends for a message
`m` at most what `f m` says, seen through `g`. -/
theorem arrives_subperm {O : Type} {g : N → O} {f : M → List O}
    (h : Reaches (Q.fed post) (start s fun _ => start s' t) x)
    (hf : ∀ {m s s'' ns}, Q.handle m s s'' ns → (ns.map g).Sublist (f m)) :
    ((x.receivers ()).received.map fun p => g p.2).Subperm (x.posted.flatMap f) := by
  have hsent : ((x.receivers ()).posted.map g).Sublist ((mail x ()).flatMap f) := by
    refine handles (I := fun _ ms ns => (ns.map g).Sublist (ms.flatMap f)) h .slnil ?_ fun hns _ => hns
    intro s s'' m ms ns ns' hns hhandle
    rw [List.flatMap_append, List.flatMap_cons, List.flatMap_nil, List.append_nil, List.map_append]
    exact hns.append (hf hhandle)
  have hmail : (mail x ()).Subperm x.posted := (mail_sublist x ()).subperm.trans h.received_subperm
  obtain ⟨ms, hperm, hsub⟩ := hmail
  have hflat : ((mail x ()).flatMap f).Subperm (x.posted.flatMap f) :=
    (hperm.symm.flatMap_right f).subperm.trans (hsub.flatMap f).subperm
  have hlast : ((x.receivers ()).received.map fun p => g p.2).Subperm ((x.receivers ()).posted.map g) := by
    obtain ⟨ns, hsame, hless⟩ := (reaches_onward h).received_subperm
    refine ⟨ns.map g, ?_, hless.map g⟩
    have hall := hsame.map g
    rwa [List.map_map] at hall
  exact hlast.trans (hsent.subperm.trans hflat)

end Relay

end Relays

end Across.Mailbox
