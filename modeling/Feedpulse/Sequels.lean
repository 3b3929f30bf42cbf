import Feedpulse.Program

/-!
# Programs that finish what they start

Some calls are the first half of something: a status is written, and the job it announces is
added next. `Leads` says of the rest of a program that the second half comes next, unless
something fails, and `Chained` that this is so wherever the program issues a first half. Both
are predicates on what is left of a program, so that they hold of a process between two calls.
-/

namespace Feedpulse

universe u v

namespace Prog

variable {E C : Type u} {R : C → Type u} {α β : Type u} {ι : Type v}

/-! ## What comes next -/

/-- Unless a call fails, the next call that is not `quiet` is a `goal`. -/
def Leads (quiet goal : C → Prop) : Prog E C R α → Prop
  | call c k => goal c ∨ (quiet c ∧ ∀ x, Leads quiet goal (k (.ok x)))
  | _ => False

section Leads

variable {quiet goal : C → Prop}

theorem leads_invoke {c : C} (h : goal c) : Leads quiet goal (invoke c : Prog E C R (R c)) :=
  .inl h

theorem Leads.bind {p : Prog E C R α} (h : Leads quiet goal p) (f : α → Prog E C R β) :
    Leads quiet goal (p >>= f) := by
  induction p with
  | ret a => exact h.elim
  | throw e => exact h.elim
  | call c k ih => exact h.imp_right (And.imp_right fun hk x => ih _ (hk x))

theorem Leads.tryCatch {p : Prog E C R α} (h : Leads quiet goal p)
    (handler : E → Prog E C R α) : Leads quiet goal (tryCatch p handler) := by
  induction p with
  | ret a => exact h.elim
  | throw e => exact h.elim
  | call c k ih => exact h.imp_right (And.imp_right fun hk x => ih _ (hk x))

theorem Leads.attempt {p : Prog E C R α} (h : Leads quiet goal p) :
    Leads quiet goal p.attempt := by
  induction p with
  | ret a => exact h.elim
  | throw e => exact h.elim
  | call c k ih => exact h.imp_right (And.imp_right fun hk x => ih _ (hk x))

/-- A quiet call in front. -/
theorem leads_of_quiet {c : C} {f : R c → Prog E C R β} (h : quiet c)
    (hf : ∀ x, Leads quiet goal (f x)) :
    Leads quiet goal ((invoke c : Prog E C R (R c)) >>= f) :=
  .inr ⟨h, hf⟩

/-- Where a call leads to the goal, it is a goal, or quiet. -/
theorem leads_call {c : C} {k : Except E (R c) → Prog E C R α}
    (h : Leads quiet goal (call c k)) : goal c ∨ (quiet c ∧ ∀ x, Leads quiet goal (k (.ok x))) :=
  h

end Leads

/-! ## Wherever a first half is issued -/

/-- After a call of the first kind the program leads to one of the second, for every pair of
kinds `i`. -/
def Chained (first : ι → C → Prop) (quiet : C → Prop) (second : ι → C → Prop) :
    Prog E C R α → Prop
  | call c k =>
    (∀ i, first i c → ∀ x, Leads quiet (second i) (k (.ok x))) ∧
      ∀ r, Chained first quiet second (k r)
  | _ => True

section Chained

variable {first : ι → C → Prop} {quiet : C → Prop} {second : ι → C → Prop}

theorem chained_pure (a : α) : Chained first quiet second (pure a : Prog E C R α) := trivial

theorem chained_throw (e : E) :
    Chained first quiet second (MonadExcept.throw e : Prog E C R α) := trivial

/-- A program that issues no first half. -/
theorem chained_of_issues {p : Prog E C R α} (h : Issues (fun c => ∀ i, ¬ first i c) p) :
    Chained first quiet second p := by
  induction p with
  | ret a => trivial
  | throw e => trivial
  | call c k ih =>
    obtain ⟨hc, hk⟩ := issues_call.mp h
    exact ⟨fun i hi => absurd hi (hc i), fun r => ih r (hk r)⟩

theorem chained_invoke {c : C} (h : ∀ i, ¬ first i c) :
    Chained first quiet second (invoke c : Prog E C R (R c)) :=
  chained_of_issues (issues_invoke h)

theorem Chained.ite {c : Prop} [Decidable c] {p q : Prog E C R α}
    (hp : c → Chained first quiet second p) (hq : ¬ c → Chained first quiet second q) :
    Chained first quiet second (if c then p else q) := by
  by_cases h : c
  · rw [if_pos h]
    exact hp h
  · rw [if_neg h]
    exact hq h

theorem Chained.bind {p : Prog E C R α} {f : α → Prog E C R β}
    (hp : Chained first quiet second p) (hf : ∀ a, Chained first quiet second (f a)) :
    Chained first quiet second (p >>= f) := by
  induction p with
  | ret a => exact hf a
  | throw e => trivial
  | call c k ih => exact ⟨fun i hi x => (hp.1 i hi x).bind f, fun r => ih r (hp.2 r)⟩

theorem Chained.tryCatch {p : Prog E C R α} {handler : E → Prog E C R α}
    (hp : Chained first quiet second p) (hh : ∀ e, Chained first quiet second (handler e)) :
    Chained first quiet second (tryCatch p handler) := by
  induction p with
  | ret a => trivial
  | throw e => exact hh e
  | call c k ih => exact ⟨fun i hi x => (hp.1 i hi x).tryCatch handler, fun r => ih r (hp.2 r)⟩

theorem Chained.attempt {p : Prog E C R α} (hp : Chained first quiet second p) :
    Chained first quiet second p.attempt := by
  induction p with
  | ret a => trivial
  | throw e => trivial
  | call c k ih => exact ⟨fun i hi x => (hp.1 i hi x).attempt, fun r => ih r (hp.2 r)⟩

/-- The first half itself, with what follows. -/
theorem chained_of_first {c : C} {f : R c → Prog E C R β}
    (h : ∀ i, first i c → ∀ x, Leads quiet (second i) (f x))
    (hf : ∀ x, Chained first quiet second (f x)) :
    Chained first quiet second ((invoke c : Prog E C R (R c)) >>= f) := by
  refine ⟨h, fun r => ?_⟩
  cases r with
  | ok x => exact hf x
  | error e => trivial

end Chained

end Prog

end Feedpulse
