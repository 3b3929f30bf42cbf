import Mathlib.Logic.Basic
import Mathlib.Data.List.Basic

/-!
# Transition systems with an executable step

A system is a partial step function `step : S → A → Option S`: the action `a` is
enabled in the state `s` when `step s a` is `some s'`. Everything here is about
finite runs of such a function.

* `run` executes a list of actions;
* `Always P` says that `P` holds in every state a run visits;
* `Along C` says that `C` holds of every step a run takes;
* `run_invariant`, `always_of_along` are the induction rules: what a step
  preserves (possibly under a condition on that step), a run preserves;
* `always_iff_along` is the exact version: if, under an invariant, `P` survives a
  step precisely when the step meets `C`, then a run stays in `P` precisely when
  all its steps meet `C`.
-/

namespace Feedpulse

universe u v

namespace Transition

variable {S : Type u} {A : Type v} (step : S → A → Option S)

/-! ## Runs -/

/-- Execute a list of actions; `none` as soon as one of them is not enabled. -/
def run : S → List A → Option S
  | s, [] => some s
  | s, a :: as => (step s a).bind fun s' => run s' as

/-- `P` holds in every state visited when `as` is executed from `s` (the run may
stop early at an action that is not enabled). -/
def Always (P : S → Prop) : S → List A → Prop
  | s, [] => P s
  | s, a :: as => P s ∧ ∀ s', step s a = some s' → Always P s' as

/-- `C` holds of every step taken when `as` is executed from `s`. -/
def Along (C : S → A → S → Prop) : S → List A → Prop
  | _, [] => True
  | s, a :: as => ∀ s', step s a = some s' → C s a s' ∧ Along C s' as

/-- Whether a decidable condition holds along a run can be tested by executing the run. -/
instance decidableAlong {C : S → A → S → Prop} [∀ s a s', Decidable (C s a s')] :
    ∀ s as, Decidable (Along step C s as)
  | _, [] => isTrue trivial
  | s, a :: as =>
    match h : step s a with
    | none => isTrue fun _ h' => nomatch h.symm.trans h'
    | some s' =>
      haveI := decidableAlong (C := C) s' as
      decidable_of_iff (C s a s' ∧ Along step C s' as)
        ⟨fun hC _ ht => Option.some.inj (h.symm.trans ht) ▸ hC, fun hC => hC s' h⟩

/-- Whether a decidable predicate holds in all visited states can be tested by executing the
run. -/
instance decidableAlways {P : S → Prop} [DecidablePred P] :
    ∀ s as, Decidable (Always step P s as)
  | s, [] => inferInstanceAs (Decidable (P s))
  | s, a :: as =>
    match h : step s a with
    | none => decidable_of_iff (P s) ⟨fun hP => ⟨hP, fun _ h' => nomatch h.symm.trans h'⟩, And.left⟩
    | some s' =>
      haveI := decidableAlways (P := P) s' as
      decidable_of_iff (P s ∧ Always step P s' as)
        ⟨fun hP => ⟨hP.1, fun _ ht => Option.some.inj (h.symm.trans ht) ▸ hP.2⟩,
          fun hP => ⟨hP.1, hP.2 s' h⟩⟩

/-- Some run from a state in `init` ends in `s`. -/
def Reachable (init : S → Prop) (s : S) : Prop :=
  ∃ s₀ as, init s₀ ∧ run step s₀ as = some s

variable {step}

@[simp] theorem run_nil (s : S) : run step s [] = some s := rfl

@[simp] theorem run_cons (s : S) (a : A) (as : List A) :
    run step s (a :: as) = (step s a).bind fun s' => run step s' as := rfl

/-- Inversion for a nonempty run. -/
theorem run_cons_eq_some {s t : S} {a : A} {as : List A}
    (h : run step s (a :: as) = some t) :
    ∃ s', step s a = some s' ∧ run step s' as = some t :=
  Option.bind_eq_some_iff.mp h

/-- A run over a concatenation is a run over the second part from where the
first part ended. -/
theorem run_append (s : S) (as bs : List A) :
    run step s (as ++ bs) = (run step s as).bind fun s' => run step s' bs := by
  induction as generalizing s with
  | nil => rfl
  | cons a as ih =>
    rw [List.cons_append, run_cons, run_cons]
    rcases h : step s a with _ | s'
    · rfl
    · exact ih s'

/-! ## Invariants -/

/-- What every step preserves, every run preserves. -/
theorem run_invariant {I : S → Prop} (hstep : ∀ s a s', I s → step s a = some s' → I s')
    {s t : S} {as : List A} (hs : I s) (h : run step s as = some t) : I t := by
  induction as generalizing s with
  | nil =>
    obtain rfl := Option.some.inj h
    exact hs
  | cons a as ih =>
    obtain ⟨s', ha, h'⟩ := run_cons_eq_some h
    exact ih (hstep s a s' hs ha) h'

/-- What the admitted steps preserve, every run of admitted steps preserves. -/
theorem run_invariant_of_forall {I : S → Prop} {P : A → Prop}
    (hstep : ∀ s a s', P a → I s → step s a = some s' → I s')
    {s t : S} {as : List A} (has : ∀ a ∈ as, P a) (hs : I s) (h : run step s as = some t) :
    I t := by
  induction as generalizing s with
  | nil =>
    obtain rfl := Option.some.inj h
    exact hs
  | cons a as ih =>
    obtain ⟨s', ha, h'⟩ := run_cons_eq_some h
    exact ih (fun b hb => has b (List.mem_cons_of_mem a hb))
      (hstep s a s' (has a List.mem_cons_self) hs ha) h'

/-- An inductive invariant holds in every reachable state. -/
theorem Reachable.invariant {init I : S → Prop} (hinit : ∀ s, init s → I s)
    (hstep : ∀ s a s', I s → step s a = some s' → I s') {s : S}
    (h : Reachable step init s) : I s := by
  obtain ⟨s₀, as, h₀, hrun⟩ := h
  exact run_invariant hstep (hinit s₀ h₀) hrun

/-- Reachability is closed under further steps. -/
theorem Reachable.snoc {init : S → Prop} {s s' : S} {a : A}
    (h : Reachable step init s) (ha : step s a = some s') : Reachable step init s' := by
  obtain ⟨s₀, as, h₀, hrun⟩ := h
  refine ⟨s₀, as ++ [a], h₀, ?_⟩
  rw [run_append, hrun]
  simp [ha]

/-- **Conditional invariants.** If a step that meets `C` preserves `I`, then a run
all of whose steps meet `C` stays in `I`. -/
theorem always_of_along {I : S → Prop} {C : S → A → S → Prop}
    (hstep : ∀ s a s', I s → step s a = some s' → C s a s' → I s')
    {s : S} {as : List A} (hs : I s) (h : Along step C s as) : Always step I s as := by
  induction as generalizing s with
  | nil => exact hs
  | cons a as ih =>
    refine ⟨hs, fun s' ha => ?_⟩
    obtain ⟨hC, hrest⟩ := h s' ha
    exact ih (hstep s a s' hs ha hC) hrest

/-- What holds of every step from a state in `P` holds along a run that stays in `P`. -/
theorem Always.along {P : S → Prop} {C : S → A → S → Prop} {s : S} {as : List A}
    (h : Always step P s as) (hC : ∀ s a s', P s → step s a = some s' → C s a s') :
    Along step C s as := by
  induction as generalizing s with
  | nil => trivial
  | cons a as ih =>
    intro s' ha
    exact ⟨hC s a s' h.1 ha, ih (h.2 s' ha)⟩

/-- What holds of every step between states in `P` holds along a run that stays in `P`. -/
theorem Always.along_next {P : S → Prop} {C : S → A → S → Prop} {s : S} {as : List A}
    (h : Always step P s as)
    (hC : ∀ s a s', P s → P s' → step s a = some s' → C s a s') :
    Along step C s as := by
  induction as generalizing s with
  | nil => trivial
  | cons a as ih =>
    intro s' ha
    have hrest := h.2 s' ha
    have hP' : P s' := by
      cases as with
      | nil => exact hrest
      | cons => exact hrest.1
    exact ⟨hC s a s' h.1 hP' ha, ih hrest⟩

/-- What holds of every action of a run holds along it. -/
theorem along_of_forall {P : A → Prop} {as : List A} (h : ∀ a ∈ as, P a) (s : S) :
    Along step (fun _ a _ => P a) s as := by
  induction as generalizing s with
  | nil => trivial
  | cons a as ih =>
    intro s' _
    exact ⟨h a List.mem_cons_self, ih (fun b hb => h b (List.mem_cons_of_mem a hb)) s'⟩

/-- `Always` is monotone in the predicate. -/
theorem Always.mono {P Q : S → Prop} (hPQ : ∀ s, P s → Q s) {s : S} {as : List A}
    (h : Always step P s as) : Always step Q s as := by
  induction as generalizing s with
  | nil => exact hPQ s h
  | cons a as ih => exact ⟨hPQ s h.1, fun s' ha => ih (h.2 s' ha)⟩

/-- A predicate that holds in every visited state holds in the last one. -/
theorem Always.last {P : S → Prop} {s t : S} {as : List A} (h : Always step P s as)
    (hrun : run step s as = some t) : P t := by
  induction as generalizing s with
  | nil =>
    obtain rfl := Option.some.inj hrun
    exact h
  | cons a as ih =>
    obtain ⟨s', ha, h'⟩ := run_cons_eq_some hrun
    exact ih (h.2 s' ha) h'

/-- `Along` is monotone in the step condition, under an invariant of the run. -/
theorem Along.mono {J : S → Prop} {C D : S → A → S → Prop}
    (hJ : ∀ s a s', J s → step s a = some s' → J s')
    (hCD : ∀ s a s', J s → step s a = some s' → C s a s' → D s a s')
    {s : S} {as : List A} (hs : J s) (h : Along step C s as) : Along step D s as := by
  induction as generalizing s with
  | nil => trivial
  | cons a as ih =>
    intro s' ha
    obtain ⟨hC, hrest⟩ := h s' ha
    exact ⟨hCD s a s' hs ha hC, ih (hJ s a s' hs ha) hrest⟩

/-- Two conditions at once. -/
theorem Along.and {C D : S → A → S → Prop} {s : S} {as : List A} (h : Along step C s as)
    (h' : Along step D s as) : Along step (fun s a s' => C s a s' ∧ D s a s') s as := by
  induction as generalizing s with
  | nil => trivial
  | cons a as ih =>
    intro s' ha
    exact ⟨⟨(h s' ha).1, (h' s' ha).1⟩, ih (h s' ha).2 (h' s' ha).2⟩

/-- Two conditions that agree under an invariant hold along the same runs. -/
theorem along_congr (J : S → Prop) {C D : S → A → S → Prop}
    (hJ : ∀ s a s', J s → step s a = some s' → J s')
    (hCD : ∀ s a s', J s → step s a = some s' → (C s a s' ↔ D s a s'))
    {s : S} {as : List A} (hs : J s) : Along step C s as ↔ Along step D s as :=
  ⟨Along.mono hJ (fun s a s' hJs ha => (hCD s a s' hJs ha).mp) hs,
    Along.mono hJ (fun s a s' hJs ha => (hCD s a s' hJs ha).mpr) hs⟩

/-- A condition that holds along a run holds of its last step. -/
theorem Along.last {C : S → A → S → Prop} {s t t' : S} {as : List A} {a : A}
    (h : Along step C s (as ++ [a])) (hrun : run step s as = some t)
    (ha : step t a = some t') : C t a t' := by
  induction as generalizing s with
  | nil =>
    obtain rfl := Option.some.inj hrun
    exact (h t' ha).1
  | cons b as ih =>
    obtain ⟨s', hb, h'⟩ := run_cons_eq_some hrun
    exact ih (h s' hb).2 h'

/-- Where a condition does not hold along a run, some step of the run fails it. -/
theorem exists_step_of_not_along {C : S → A → S → Prop} {s t : S} {as : List A}
    (hrun : run step s as = some t) (h : ¬ Along step C s as) :
    ∃ bs b cs u u', as = bs ++ b :: cs ∧ run step s bs = some u ∧ step u b = some u' ∧
      ¬ C u b u' := by
  induction as generalizing s with
  | nil => exact absurd trivial h
  | cons a as ih =>
    obtain ⟨s', ha, h'⟩ := run_cons_eq_some hrun
    by_cases hC : C s a s'
    · have hrest : ¬ Along step C s' as := by
        intro hrest
        refine h fun s'' ha' => ?_
        obtain rfl := Option.some.inj (ha.symm.trans ha')
        exact ⟨hC, hrest⟩
      obtain ⟨bs, b, cs, u, u', rfl, hbs, hb, hn⟩ := ih h' hrest
      exact ⟨a :: bs, b, cs, u, u', rfl, by simp [ha, hbs], hb, hn⟩
    · exact ⟨[], a, as, s, s', rfl, rfl, ha, hC⟩

/-- **Exactness.** If, under the invariant `J`, a state of `I` steps into `I`
precisely by the steps that meet `C`, then a run from `I` visits only states of
`I` precisely when all its steps meet `C`. -/
theorem always_iff_along {J I : S → Prop} {C : S → A → S → Prop}
    (hJ : ∀ s a s', J s → step s a = some s' → J s')
    (hstep : ∀ s a s', J s → I s → step s a = some s' → (I s' ↔ C s a s'))
    {s : S} {as : List A} (hJs : J s) (hIs : I s) :
    Always step I s as ↔ Along step C s as := by
  induction as generalizing s with
  | nil => exact iff_of_true hIs trivial
  | cons a as ih =>
    constructor
    · intro h s' ha
      have hI' : I s' := by
        cases as with
        | nil => exact h.2 s' ha
        | cons => exact (h.2 s' ha).1
      exact ⟨(hstep s a s' hJs hIs ha).mp hI',
        (ih (hJ s a s' hJs ha) hI').mp (h.2 s' ha)⟩
    · intro h
      refine ⟨hIs, fun s' ha => ?_⟩
      obtain ⟨hC, hrest⟩ := h s' ha
      have hI' : I s' := (hstep s a s' hJs hIs ha).mpr hC
      exact (ih (hJ s a s' hJs ha) hI').mpr hrest

end Transition

end Feedpulse
