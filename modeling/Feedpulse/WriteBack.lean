import Feedpulse.Transition
import Mathlib.Logic.Function.Basic

/-!
# Values that are read, changed and written back

A client takes a view of what is stored, works out what becomes of it, and writes that back in a
step of its own. Between the two, other clients and other writers take their steps. What a client
writes is made of what it has seen: `stored_of_run` is the rule that says so for a whole run.
-/

namespace Feedpulse

universe u

/-- What is stored, and who writes to it. -/
structure WriteBack where
  /-- what is stored -/
  Stored : Type u
  /-- what a client asks for -/
  Request : Type u
  /-- what a client sees of what is stored -/
  View : Type u
  /-- what the world adds when a client writes -/
  Moment : Type u
  /-- the steps of other writers -/
  Other : Type u
  /-- what a client with a request sees -/
  view : Request → Stored → View
  /-- what a client leaves when it writes -/
  back : Request → View → Moment → Stored → Stored
  /-- the step of another writer, if it is possible -/
  other : Other → Stored → Option Stored

namespace WriteBack

variable (m : WriteBack.{u})

/-- A step of the clients or of another writer. Clients are numbered. -/
inductive Action
  /-- another writer -/
  | other (o : m.Other)
  /-- a client reads -/
  | read (client : Nat) (r : m.Request)
  /-- a client writes back -/
  | write (client : Nat) (t : m.Moment)

/-- What is stored, and what the clients between their two steps have asked for and seen. -/
structure State where
  /-- what is stored -/
  stored : m.Stored
  /-- requests and views of the clients that have not written yet -/
  pending : Nat → Option (m.Request × m.View)

/-- One step. -/
def step (s : m.State) : m.Action → Option m.State
  | .other o => (m.other o s.stored).map fun stored => { s with stored := stored }
  | .read client r =>
    match s.pending client with
    | some _ => none
    | none => some { s with
        pending := Function.update s.pending client (some (r, m.view r s.stored)) }
  | .write client t =>
    (s.pending client).map fun seen =>
      { stored := m.back seen.1 seen.2 t s.stored
        pending := Function.update s.pending client none }

variable {m} {s s' s₁ s₂ s₃ : m.State} {client : Nat} {r : m.Request} {t : m.Moment}

/-! ## Steps -/

/-- A client that reads keeps what it sees. -/
theorem step_read (h : step m s (.read client r) = some s') :
    s'.stored = s.stored ∧ s'.pending client = some (r, m.view r s.stored) := by
  rw [step] at h
  split at h
  · cases h
  · obtain rfl := Option.some.inj h
    exact ⟨rfl, Function.update_self ..⟩

/-- A client that writes puts back what it has made of its view. -/
theorem step_write {v : m.View} (hpending : s.pending client = some (r, v))
    (h : step m s (.write client t) = some s') : s'.stored = m.back r v t s.stored := by
  rw [step, hpending] at h
  obtain rfl := Option.some.inj h
  rfl

/-- What a client has seen stays with it until it writes. -/
theorem step_pending {seen : m.Request × m.View} {a : m.Action}
    (hpending : s.pending client = some seen) (ha : ∀ t, a ≠ .write client t)
    (h : step m s a = some s') : s'.pending client = some seen := by
  cases a with
  | other o =>
    obtain ⟨stored, -, rfl⟩ := Option.map_eq_some_iff.mp h
    exact hpending
  | read client' r' =>
    rw [step] at h
    split at h
    · cases h
    · rename_i hnone
      obtain rfl := Option.some.inj h
      have hne : client ≠ client' := by
        rintro rfl
        cases hpending.symm.trans hnone
      exact (Function.update_of_ne hne ..).trans hpending
  | write client' t' =>
    obtain ⟨seen', -, rfl⟩ := Option.map_eq_some_iff.mp h
    have hne : client ≠ client' := by
      rintro rfl
      exact ha t' rfl
    exact (Function.update_of_ne hne ..).trans hpending

/-! ## Interleavings -/

/-- The steps of two programs in some order that keeps the order of each. -/
inductive Interleaves {α : Type u} : List α → List α → List α → Prop
  /-- both are done -/
  | nil : Interleaves [] [] []
  /-- the first takes a step -/
  | left {a : α} {xs ys zs : List α} (h : Interleaves xs ys zs) :
    Interleaves (a :: xs) ys (a :: zs)
  /-- the second takes a step -/
  | right {a : α} {xs ys zs : List α} (h : Interleaves xs ys zs) :
    Interleaves xs (a :: ys) (a :: zs)

namespace Interleaves

variable {α : Type u} {x y a b c d : α} {xs ys zs : List α}

theorem eq_right (h : Interleaves [] ys zs) : zs = ys := by
  induction ys generalizing zs with
  | nil =>
    cases h
    rfl
  | cons y ys ih =>
    cases h with
    | right h => rw [ih h]

theorem eq_left (h : Interleaves xs [] zs) : zs = xs := by
  induction xs generalizing zs with
  | nil =>
    cases h
    rfl
  | cons x xs ih =>
    cases h with
    | left h => rw [ih h]

/-- One of the two takes the first step. -/
theorem cases_cons (h : Interleaves (x :: xs) (y :: ys) zs) :
    (∃ zs', zs = x :: zs' ∧ Interleaves xs (y :: ys) zs') ∨
      ∃ zs', zs = y :: zs' ∧ Interleaves (x :: xs) ys zs' := by
  cases h with
  | left h => exact .inl ⟨_, rfl, h⟩
  | right h => exact .inr ⟨_, rfl, h⟩

/-- The interleavings of two steps with one. -/
theorem two_one (h : Interleaves [a, b] [c] zs) :
    zs = [a, b, c] ∨ zs = [a, c, b] ∨ zs = [c, a, b] := by
  rcases h.cases_cons with ⟨zs₁, rfl, h₁⟩ | ⟨zs₁, rfl, h₁⟩
  · rcases h₁.cases_cons with ⟨zs₂, rfl, h₂⟩ | ⟨zs₂, rfl, h₂⟩
    · exact .inl (by rw [h₂.eq_right])
    · exact .inr (.inl (by rw [h₂.eq_left]))
  · exact .inr (.inr (by rw [h₁.eq_left]))

/-- The interleavings of one step with two. -/
theorem one_two (h : Interleaves [a] [c, d] zs) :
    zs = [a, c, d] ∨ zs = [c, a, d] ∨ zs = [c, d, a] := by
  rcases h.cases_cons with ⟨zs₁, rfl, h₁⟩ | ⟨zs₁, rfl, h₁⟩
  · exact .inl (by rw [h₁.eq_right])
  · rcases h₁.cases_cons with ⟨zs₂, rfl, h₂⟩ | ⟨zs₂, rfl, h₂⟩
    · exact .inr (.inl (by rw [h₂.eq_right]))
    · exact .inr (.inr (by rw [h₂.eq_left]))

/-- The interleavings of two steps with two: one after the other, or both begun before one is
done. -/
theorem two_two (h : Interleaves [a, b] [c, d] zs) :
    (zs = [a, b, c, d] ∨ zs = [c, d, a, b]) ∨ (zs = [a, c, b, d] ∨ zs = [c, a, b, d]) ∨
      zs = [a, c, d, b] ∨ zs = [c, a, d, b] := by
  rcases h.cases_cons with ⟨zs₁, rfl, h₁⟩ | ⟨zs₁, rfl, h₁⟩
  · rcases h₁.one_two with rfl | rfl | rfl
    · exact .inl (.inl rfl)
    · exact .inr (.inl (.inl rfl))
    · exact .inr (.inr (.inl rfl))
  · rcases h₁.two_one with rfl | rfl | rfl
    · exact .inr (.inl (.inr rfl))
    · exact .inr (.inr (.inr rfl))
    · exact .inl (.inr rfl)

end Interleaves

/-! ## Runs -/

/-- A client keeps what it has seen through every run in which it does not write. -/
theorem run_pending {seen : m.Request × m.View} {actions : List m.Action}
    (hpending : s.pending client = some seen) (hactions : ∀ t, .write client t ∉ actions)
    (h : Transition.run (step m) s actions = some s') : s'.pending client = some seen := by
  refine Transition.run_invariant_of_forall (I := fun s => s.pending client = some seen)
    (P := fun a => ∀ t, a ≠ .write client t) (fun _ _ _ ha hs hstep => step_pending hs ha hstep)
    (fun a ha t heq => hactions t (by rw [← heq]; exact ha)) hpending h

/-- **What a client writes is made of what it saw**, whatever happens between its steps. -/
theorem stored_of_run {actions : List m.Action} {s₁' : m.State}
    (hread : step m s₁ (.read client r) = some s₁')
    (hrun : Transition.run (step m) s₁' actions = some s₂)
    (hactions : ∀ t, .write client t ∉ actions)
    (hwrite : step m s₂ (.write client t) = some s₃) :
    s₃.stored = m.back r (m.view r s₁.stored) t s₂.stored :=
  step_write (run_pending (step_read hread).2 hactions hrun) hwrite

/-- Reads leave what is stored as it is. -/
theorem stored_of_run_reads {actions : List m.Action}
    (hactions : ∀ a ∈ actions, ∃ c q, a = .read c q)
    (h : Transition.run (step m) s actions = some s') : s'.stored = s.stored := by
  refine Transition.run_invariant_of_forall (I := fun s' => s'.stored = s.stored)
    (P := fun a => ∃ c q, a = .read c q) ?_ hactions rfl h
  rintro s₁ _ s₂ ⟨c, q, rfl⟩ hs hstep
  rw [(step_read hstep).1, hs]

end WriteBack

end Feedpulse
