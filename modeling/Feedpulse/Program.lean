import Mathlib.Logic.Basic

/-!
# Programs that interact with their environment

`Prog E C R α` is the free monad over calls: a program either returns a value,
throws an error, or issues a call `c` and continues with the answer, which is
either a reply of type `R c` or an error. Programs are written in `do` notation
(`invoke` is a call whose error propagates, `try … catch` is `MonadExcept`) and
are inert data: an interpreter decides how calls are answered, and one process of
a concurrent system is just the program it still has to execute.

Two ways of quantifying over the executions of a program are defined by recursion
on it, each with its rules for `bind`, `tryCatch`, `attempt` and weakening:

* `Meets allowed answers p post s` — *every* execution from the state `s` in which
  calls are answered according to `answers` issues only `allowed` calls, and ends
  within `post`;
* `Can answers p post s` — *some* such execution ends within `post`.

`exec answer p s` is the one execution from `s` in which calls are answered by a function.

The state need not be the state of the world: with a ghost state it becomes a
protocol that one process follows while others run (`Meets.simulate` relates the
two), and without any it only confines the calls (`Confined`).
-/

namespace Feedpulse

universe u

/-- A program over the calls `C` with replies `R`, errors `E` and result `α`. -/
inductive Prog (E : Type u) (C : Type u) (R : C → Type u) (α : Type u) : Type u
  /-- finished with a value -/
  | ret (a : α)
  /-- finished with an error -/
  | throw (e : E)
  /-- issue a call and continue with its answer -/
  | call (c : C) (k : Except E (R c) → Prog E C R α)

namespace Prog

variable {E C : Type u} {R : C → Type u} {α β : Type u} {S : Type u}

/-! ## The monad -/

/-- Sequencing: an error skips the continuation. -/
protected def bind : Prog E C R α → (α → Prog E C R β) → Prog E C R β
  | ret a, f => f a
  | throw e, _ => throw e
  | call c k, f => call c fun r => (k r).bind f

/-- Handle the error a program ends with. -/
protected def tryCatch : Prog E C R α → (E → Prog E C R α) → Prog E C R α
  | ret a, _ => ret a
  | throw e, h => h e
  | call c k, h => call c fun r => (k r).tryCatch h

instance : Monad (Prog E C R) where
  pure := ret
  bind := Prog.bind

instance : MonadExcept E (Prog E C R) where
  throw := throw
  tryCatch := Prog.tryCatch

/-- A call whose error propagates to the caller. -/
def invoke (c : C) : Prog E C R (R c) :=
  call c fun
    | .ok r => ret r
    | .error e => throw e

/-- Run a program and hand its outcome, value or error, to the caller. -/
def attempt : Prog E C R α → Prog E C R (Except E α)
  | ret a => ret (.ok a)
  | throw e => ret (.error e)
  | call c k => call c fun r => (k r).attempt

/-- `try { p } finally { final }`: an error of `final` takes the place of the outcome of `p`. -/
def finallyDo (p : Prog E C R α) (final : Prog E C R PUnit) : Prog E C R α :=
  p.attempt.bind fun outcome => final.bind fun _ =>
    match outcome with
    | .ok a => ret a
    | .error e => throw e

@[simp] theorem pure_eq (a : α) : (pure a : Prog E C R α) = ret a := rfl

@[simp] theorem ret_bind (a : α) (f : α → Prog E C R β) : ret a >>= f = f a := rfl

@[simp] theorem throw_bind (e : E) (f : α → Prog E C R β) :
    (throw e : Prog E C R α) >>= f = throw e := rfl

@[simp] theorem call_bind (c : C) (k : Except E (R c) → Prog E C R α)
    (f : α → Prog E C R β) : call c k >>= f = call c fun r => k r >>= f := rfl

@[simp] theorem ret_tryCatch (a : α) (h : E → Prog E C R α) :
    tryCatch (ret a : Prog E C R α) h = ret a := rfl

@[simp] theorem throw_tryCatch (e : E) (h : E → Prog E C R α) :
    tryCatch (throw e : Prog E C R α) h = h e := rfl

@[simp] theorem call_tryCatch (c : C) (k : Except E (R c) → Prog E C R α)
    (h : E → Prog E C R α) :
    tryCatch (call c k) h = call c fun r => tryCatch (k r) h := rfl

@[simp] theorem bind_ret (p : Prog E C R α) : p >>= ret = p := by
  induction p with
  | ret a => rfl
  | throw e => rfl
  | call c k ih => exact congrArg (call c) (funext ih)

/-- Associativity. -/
theorem bind_assoc' {γ : Type u} (p : Prog E C R α) (f : α → Prog E C R β)
    (g : β → Prog E C R γ) : (p >>= f) >>= g = p >>= fun a => f a >>= g := by
  induction p with
  | ret a => rfl
  | throw e => rfl
  | call c k ih => exact congrArg (call c) (funext ih)

instance : LawfulMonad (Prog E C R) :=
  LawfulMonad.mk' _ bind_ret (fun _ _ => rfl) bind_assoc'

/-! ## Every execution -/

/-- Every execution of the program from `s`, with calls answered according to
`answers`, issues only calls that are `allowed` in the state they are issued in,
and every execution that ends does so within `post`. -/
def Meets (allowed : S → C → Prop) (answers : S → (c : C) → Except E (R c) → S → Prop) :
    Prog E C R α → (Except E α → S → Prop) → S → Prop
  | ret a, post, s => post (.ok a) s
  | throw e, post, s => post (.error e) s
  | call c k, post, s =>
    allowed s c ∧ ∀ r s', answers s c r s' → Meets allowed answers (k r) post s'

section Meets

variable {allowed : S → C → Prop} {answers : S → (c : C) → Except E (R c) → S → Prop}

@[simp] theorem meets_ret {a : α} {post : Except E α → S → Prop} {s : S} :
    Meets allowed answers (ret a) post s ↔ post (.ok a) s := Iff.rfl

@[simp] theorem meets_throw {e : E} {post : Except E α → S → Prop} {s : S} :
    Meets allowed answers (throw e) post s ↔ post (.error e) s := Iff.rfl

@[simp] theorem meets_call {c : C} {k : Except E (R c) → Prog E C R α}
    {post : Except E α → S → Prop} {s : S} :
    Meets allowed answers (call c k) post s ↔
      allowed s c ∧ ∀ r s', answers s c r s' → Meets allowed answers (k r) post s' :=
  Iff.rfl

/-- Weakening of the postcondition. -/
theorem Meets.mono {p : Prog E C R α} {post post' : Except E α → S → Prop} {s : S}
    (h : Meets allowed answers p post s) (hpost : ∀ r s, post r s → post' r s) :
    Meets allowed answers p post' s := by
  induction p generalizing s with
  | ret a => exact hpost _ s h
  | throw e => exact hpost _ s h
  | call c k ih => exact ⟨h.1, fun r s' hr => ih r (h.2 r s' hr)⟩

/-- Two postconditions at once. -/
theorem Meets.and {p : Prog E C R α} {post post' : Except E α → S → Prop} {s : S}
    (h : Meets allowed answers p post s) (h' : Meets allowed answers p post' s) :
    Meets allowed answers p (fun r s => post r s ∧ post' r s) s := by
  induction p generalizing s with
  | ret a => exact ⟨h, h'⟩
  | throw e => exact ⟨h, h'⟩
  | call c k ih => exact ⟨h.1, fun r s' hr => ih r (h.2 r s' hr) (h'.2 r s' hr)⟩

/-- What every answer preserves, every execution preserves. -/
theorem meets_of_invariant {Q : S → Prop}
    (hstep : ∀ s c r s', Q s → answers s c r s' → Q s') (p : Prog E C R α) {s : S} (hs : Q s) :
    Meets (fun _ _ => True) answers p (fun _ s => Q s) s := by
  induction p generalizing s with
  | ret a => exact hs
  | throw e => exact hs
  | call c k ih => exact ⟨trivial, fun r s' hr => ih r (hstep s c r s' hs hr)⟩

/-- Fewer answers, more allowed calls. -/
theorem Meets.weaken {allowed' : S → C → Prop}
    {answers' : S → (c : C) → Except E (R c) → S → Prop} {p : Prog E C R α}
    {post : Except E α → S → Prop} {s : S} (h : Meets allowed answers p post s)
    (hallowed : ∀ s c, allowed s c → allowed' s c)
    (hanswers : ∀ s c r s', answers' s c r s' → answers s c r s') :
    Meets allowed' answers' p post s := by
  induction p generalizing s with
  | ret a => exact h
  | throw e => exact h
  | call c k ih =>
    exact ⟨hallowed s c h.1, fun r s' hr => ih r (h.2 r s' (hanswers s c r s' hr))⟩

/-- The executions of a sequence. -/
theorem meets_bind {p : Prog E C R α} {f : α → Prog E C R β}
    {post : Except E β → S → Prop} {s : S} :
    Meets allowed answers (p >>= f) post s ↔
      Meets allowed answers p (fun r s' => match r with
        | .ok a => Meets allowed answers (f a) post s'
        | .error e => post (.error e) s') s := by
  induction p generalizing s with
  | ret a => exact Iff.rfl
  | throw e => exact Iff.rfl
  | call c k ih =>
    exact and_congr_right' (forall_congr' fun r => forall_congr' fun s' =>
      imp_congr_right fun _ => ih r)

/-- The executions of a `try … catch`. -/
theorem meets_tryCatch {p : Prog E C R α} {h : E → Prog E C R α}
    {post : Except E α → S → Prop} {s : S} :
    Meets allowed answers (tryCatch p h) post s ↔
      Meets allowed answers p (fun r s' => match r with
        | .ok a => post (.ok a) s'
        | .error e => Meets allowed answers (h e) post s') s := by
  induction p generalizing s with
  | ret a => exact Iff.rfl
  | throw e => exact Iff.rfl
  | call c k ih =>
    exact and_congr_right' (forall_congr' fun r => forall_congr' fun s' =>
      imp_congr_right fun _ => ih r)

/-- A sequence, by way of what holds in between. -/
theorem Meets.bind {p : Prog E C R α} {f : α → Prog E C R β} {mid : Except E α → S → Prop}
    {post : Except E β → S → Prop} {s : S} (hp : Meets allowed answers p mid s)
    (hok : ∀ a s', mid (.ok a) s' → Meets allowed answers (f a) post s')
    (herror : ∀ e s', mid (.error e) s' → post (.error e) s') :
    Meets allowed answers (p >>= f) post s := by
  refine meets_bind.mpr (hp.mono fun r s' hr => ?_)
  cases r with
  | ok a => exact hok a s' hr
  | error e => exact herror e s' hr

/-- A `try … catch`, by way of what the body leaves. -/
theorem Meets.tryCatch {p : Prog E C R α} {h : E → Prog E C R α} {mid : Except E α → S → Prop}
    {post : Except E α → S → Prop} {s : S} (hp : Meets allowed answers p mid s)
    (hok : ∀ a s', mid (.ok a) s' → post (.ok a) s')
    (herror : ∀ e s', mid (.error e) s' → Meets allowed answers (h e) post s') :
    Meets allowed answers (tryCatch p h) post s := by
  refine meets_tryCatch.mpr (hp.mono fun r s' hr => ?_)
  cases r with
  | ok a => exact hok a s' hr
  | error e => exact herror e s' hr

/-- The executions of a program whose outcome is collected. -/
theorem meets_attempt {p : Prog E C R α} {post : Except E (Except E α) → S → Prop} {s : S} :
    Meets allowed answers p.attempt post s ↔
      Meets allowed answers p (fun r s' => post (.ok r) s') s := by
  induction p generalizing s with
  | ret a => exact Iff.rfl
  | throw e => exact Iff.rfl
  | call c k ih =>
    exact and_congr_right' (forall_congr' fun r => forall_congr' fun s' =>
      imp_congr_right fun _ => ih r)

/-- A `try … finally`, by way of what the body leaves. -/
theorem Meets.finallyDo {p : Prog E C R α} {final : Prog E C R PUnit}
    {mid post : Except E α → S → Prop} {s : S} (hp : Meets allowed answers p mid s)
    (hfinal : ∀ r s', mid r s' → Meets allowed answers final
      (fun r' t => (r' = .ok PUnit.unit → post r t) ∧ ∀ e, r' = .error e → post (.error e) t) s') :
    Meets allowed answers (finallyDo p final) post s := by
  have hattempt : Meets allowed answers p.attempt
      (fun r s' => ∃ outcome, r = .ok outcome ∧ mid outcome s') s :=
    meets_attempt.mpr (hp.mono fun r s' hr => ⟨r, rfl, hr⟩)
  refine hattempt.bind ?_ ?_
  · rintro outcome s' ⟨outcome', houtcome, hmid⟩
    obtain rfl := Except.ok.inj houtcome
    refine (hfinal outcome s' hmid).bind ?_ ?_
    · rintro ⟨⟩ t ⟨hpost, -⟩
      cases outcome with
      | ok a => exact hpost rfl
      | error e => exact hpost rfl
    · rintro e t ⟨-, hpost⟩
      exact hpost e rfl
  · rintro e s' ⟨_, h, -⟩
    cases h

/-- **Simulation.** If the relation `rel` between concrete and abstract states survives
every answer to an allowed call, with an abstract answer to match, what holds of the
abstract executions holds of the concrete ones. -/
theorem Meets.simulate {S' : Type u} (rel : S' → S → Prop)
    {answers' : S' → (c : C) → Except E (R c) → S' → Prop} {p : Prog E C R α}
    {post : Except E α → S → Prop} {s' : S'} {s : S} (h : Meets allowed answers p post s)
    (hrel : rel s' s)
    (hanswers : ∀ s' s c r t', rel s' s → allowed s c → answers' s' c r t' →
      ∃ t, answers s c r t ∧ rel t' t) :
    Meets (fun _ _ => True) answers' p (fun r t' => ∃ t, rel t' t ∧ post r t) s' := by
  induction p generalizing s s' with
  | ret a => exact ⟨s, hrel, h⟩
  | throw e => exact ⟨s, hrel, h⟩
  | call c k ih =>
    refine ⟨trivial, fun r t' hr => ?_⟩
    obtain ⟨t, ht, hrel'⟩ := hanswers s' s c r t' hrel h.1 hr
    exact ih r (h.2 r t ht) hrel'

/-- The executions of a single call. -/
theorem meets_invoke {c : C} {post : Except E (R c) → S → Prop} {s : S} :
    Meets allowed answers (invoke c) post s ↔
      allowed s c ∧ ∀ r s', answers s c r s' → post r s' := by
  refine and_congr_right' (forall_congr' fun r => forall_congr' fun s' =>
    imp_congr_right fun _ => ?_)
  cases r <;> exact Iff.rfl

end Meets

/-! ## Some execution -/

/-- Some execution of the program from `s`, with calls answered according to
`answers`, ends within `post`. -/
def Can (answers : S → (c : C) → Except E (R c) → S → Prop) :
    Prog E C R α → (Except E α → S → Prop) → S → Prop
  | ret a, post, s => post (.ok a) s
  | throw e, post, s => post (.error e) s
  | call c k, post, s => ∃ r s', answers s c r s' ∧ Can answers (k r) post s'

section Can

variable {answers : S → (c : C) → Except E (R c) → S → Prop}

@[simp] theorem can_ret {a : α} {post : Except E α → S → Prop} {s : S} :
    Can answers (ret a) post s ↔ post (.ok a) s := Iff.rfl

@[simp] theorem can_throw {e : E} {post : Except E α → S → Prop} {s : S} :
    Can answers (throw e) post s ↔ post (.error e) s := Iff.rfl

@[simp] theorem can_call {c : C} {k : Except E (R c) → Prog E C R α}
    {post : Except E α → S → Prop} {s : S} :
    Can answers (call c k) post s ↔ ∃ r s', answers s c r s' ∧ Can answers (k r) post s' :=
  Iff.rfl

/-- Some execution ends within `post` exactly when not every execution ends
outside it. -/
theorem can_iff_not_meets {p : Prog E C R α} {post : Except E α → S → Prop} {s : S} :
    Can answers p post s ↔
      ¬ Meets (fun _ _ => True) answers p (fun r s' => ¬ post r s') s := by
  induction p generalizing s with
  | ret a => exact not_not.symm
  | throw e => exact not_not.symm
  | call c k ih => simp only [can_call, meets_call, true_and, ih, not_forall, exists_prop]

/-- What every execution meets, the execution that can be found meets, too. -/
theorem Meets.of_can {allowed : S → C → Prop} {p : Prog E C R α}
    {post post' : Except E α → S → Prop} {s : S} (h : Meets allowed answers p post s)
    (h' : Can answers p post' s) : ∃ r s', post r s' ∧ post' r s' := by
  induction p generalizing s with
  | ret a => exact ⟨.ok a, s, h, h'⟩
  | throw e => exact ⟨.error e, s, h, h'⟩
  | call c k ih =>
    obtain ⟨r, s', hr, hk⟩ := h'
    exact ih r (h.2 r s' hr) hk

/-- Weakening of the postcondition. -/
theorem Can.mono {p : Prog E C R α} {post post' : Except E α → S → Prop} {s : S}
    (h : Can answers p post s) (hpost : ∀ r s, post r s → post' r s) :
    Can answers p post' s := by
  rw [can_iff_not_meets] at h ⊢
  exact fun hall => h (hall.mono fun r s' hn hp => hn (hpost r s' hp))

/-- The executions of a sequence. -/
theorem can_bind {p : Prog E C R α} {f : α → Prog E C R β}
    {post : Except E β → S → Prop} {s : S} :
    Can answers (p >>= f) post s ↔
      Can answers p (fun r s' => match r with
        | .ok a => Can answers (f a) post s'
        | .error e => post (.error e) s') s := by
  induction p generalizing s with
  | ret a => exact Iff.rfl
  | throw e => exact Iff.rfl
  | call c k ih => exact exists_congr fun r => exists_congr fun s' =>
      and_congr_right fun _ => ih r

/-- The executions of a `try … catch`. -/
theorem can_tryCatch {p : Prog E C R α} {h : E → Prog E C R α}
    {post : Except E α → S → Prop} {s : S} :
    Can answers (tryCatch p h) post s ↔
      Can answers p (fun r s' => match r with
        | .ok a => post (.ok a) s'
        | .error e => Can answers (h e) post s') s := by
  induction p generalizing s with
  | ret a => exact Iff.rfl
  | throw e => exact Iff.rfl
  | call c k ih => exact exists_congr fun r => exists_congr fun s' =>
      and_congr_right fun _ => ih r

/-- The executions of a program whose outcome is collected. -/
theorem can_attempt {p : Prog E C R α} {post : Except E (Except E α) → S → Prop} {s : S} :
    Can answers p.attempt post s ↔ Can answers p (fun r s' => post (.ok r) s') s := by
  induction p generalizing s with
  | ret a => exact Iff.rfl
  | throw e => exact Iff.rfl
  | call c k ih => exact exists_congr fun r => exists_congr fun s' =>
      and_congr_right fun _ => ih r

/-- The executions of a single call. -/
theorem can_invoke {c : C} {post : Except E (R c) → S → Prop} {s : S} :
    Can answers (invoke c) post s ↔ ∃ r s', answers s c r s' ∧ post r s' := by
  refine exists_congr fun r => exists_congr fun s' => and_congr_right fun _ => ?_
  cases r <;> exact Iff.rfl

end Can

/-! ## State-free executions -/

/-- Every execution, with each call answered by any reply `answers` admits for it,
issues only `allowed` calls and ends within `post`. This is the form in which the
program of one process is constrained while other processes change the state. -/
abbrev Confined (allowed : C → Prop) (answers : (c : C) → Except E (R c) → Prop)
    (p : Prog E C R α) (post : Except E α → Prop) : Prop :=
  Meets (S := PUnit) (fun _ c => allowed c) (fun _ c r _ => answers c r) p
    (fun r _ => post r) PUnit.unit

/-- One step of a confined program. -/
theorem confined_call {allowed : C → Prop} {answers : (c : C) → Except E (R c) → Prop}
    {c : C} {k : Except E (R c) → Prog E C R α} {post : Except E α → Prop} :
    Confined allowed answers (call c k) post ↔
      allowed c ∧ ∀ r, answers c r → Confined allowed answers (k r) post := by
  constructor
  · intro h
    exact ⟨h.1, fun r hr => h.2 r PUnit.unit hr⟩
  · intro h
    exact ⟨h.1, fun r _ hr => h.2 r hr⟩

/-! ## Footprints -/

/-- The program issues only `allowed` calls, whatever it is answered. -/
abbrev Issues (allowed : C → Prop) (p : Prog E C R α) : Prop :=
  Confined allowed (fun _ _ => True) p fun _ => True

section Issues

variable {allowed : C → Prop}

theorem issues_ret (a : α) : Issues allowed (ret a : Prog E C R α) := trivial

theorem issues_pure (a : α) : Issues allowed (pure a : Prog E C R α) := trivial

theorem issues_throw (e : E) : Issues allowed (throw e : Prog E C R α) := trivial

theorem issues_throw' (e : E) : Issues allowed (MonadExcept.throw e : Prog E C R α) := trivial

theorem issues_invoke {c : C} (h : allowed c) : Issues allowed (invoke c : Prog E C R (R c)) :=
  meets_invoke.mpr ⟨h, fun _ _ _ => trivial⟩

theorem Issues.ite {c : Prop} [Decidable c] {p q : Prog E C R α} (hp : c → Issues allowed p)
    (hq : ¬ c → Issues allowed q) : Issues allowed (if c then p else q) := by
  by_cases h : c
  · rw [if_pos h]
    exact hp h
  · rw [if_neg h]
    exact hq h

theorem Issues.bind {p : Prog E C R α} {f : α → Prog E C R β} (hp : Issues allowed p)
    (hf : ∀ a, Issues allowed (f a)) : Issues allowed (p >>= f) := by
  refine meets_bind.mpr (hp.mono fun r s _ => ?_)
  cases r with
  | ok a => exact hf a
  | error e => trivial

theorem Issues.tryCatch {p : Prog E C R α} {h : E → Prog E C R α} (hp : Issues allowed p)
    (hh : ∀ e, Issues allowed (h e)) : Issues allowed (tryCatch p h) := by
  refine meets_tryCatch.mpr (hp.mono fun r s _ => ?_)
  cases r with
  | ok a => trivial
  | error e => exact hh e

theorem Issues.attempt {p : Prog E C R α} (hp : Issues allowed p) :
    Issues allowed p.attempt :=
  meets_attempt.mpr hp

/-- A larger footprint. -/
theorem Issues.mono {allowed' : C → Prop} {p : Prog E C R α} (hp : Issues allowed p)
    (h : ∀ c, allowed c → allowed' c) : Issues allowed' p :=
  Meets.weaken hp (fun _ c hc => h c hc) fun _ _ _ _ h => h

/-- A footprint can be assumed of the executions. -/
theorem Issues.confine {answers : S → (c : C) → Except E (R c) → S → Prop} {p : Prog E C R α}
    {post : Except E α → S → Prop} {s : S} (hp : Issues allowed p)
    (h : Meets (fun _ _ => True) answers p post s) :
    Meets (fun _ c => allowed c) answers p post s := by
  induction p generalizing s with
  | ret a => exact h
  | throw e => exact h
  | call c k ih =>
    exact ⟨hp.1, fun r s' hr => ih r (hp.2 r PUnit.unit trivial) (h.2 r s' hr)⟩

/-- What every answer to an allowed call preserves holds whenever a call is issued, and at
the end: wherever the program is broken off. -/
theorem Issues.throughout {answers : S → (c : C) → Except E (R c) → S → Prop} {Q : S → Prop}
    {p : Prog E C R α} (hp : Issues allowed p)
    (hstep : ∀ s c r s', allowed c → Q s → answers s c r s' → Q s') {s : S} (hs : Q s) :
    Meets (fun s _ => Q s) answers p (fun _ s => Q s) s := by
  induction p generalizing s with
  | ret a => exact hs
  | throw e => exact hs
  | call c k ih =>
    exact ⟨hs, fun r s' hr =>
      ih r (hp.2 r PUnit.unit trivial) (hstep s c r s' hp.1 hs hr)⟩

/-- What every answer to an allowed call preserves, every execution preserves. -/
theorem Issues.meets {answers : S → (c : C) → Except E (R c) → S → Prop} {Q : S → Prop}
    {p : Prog E C R α} (hp : Issues allowed p)
    (hstep : ∀ s c r s', allowed c → Q s → answers s c r s' → Q s') {s : S} (hs : Q s) :
    Meets (fun _ _ => True) answers p (fun _ s => Q s) s :=
  (hp.throughout hstep hs).weaken (fun _ _ _ => trivial) fun _ _ _ _ h => h

/-- What is left of a program stays within its footprint. -/
theorem issues_call {c : C} {k : Except E (R c) → Prog E C R α} :
    Issues allowed (call c k) ↔ allowed c ∧ ∀ r, Issues allowed (k r) :=
  confined_call.trans (and_congr_right' (forall_congr' fun _ => forall_const _))

end Issues

/-! ## Deterministic executions -/

/-- The execution of the program from `s` with calls answered by a function, if every call
has an answer. -/
def exec (answer : S → (c : C) → Option (Except E (R c) × S)) :
    Prog E C R α → S → Option (Except E α × S)
  | ret a, s => some (.ok a, s)
  | throw e, s => some (.error e, s)
  | call c k, s => (answer s c).bind fun r => exec answer (k r.1) r.2

section Exec

variable {answer : S → (c : C) → Option (Except E (R c) × S)} {s s' : S}

@[simp] theorem exec_ret (a : α) :
    exec answer (ret a : Prog E C R α) s = some (.ok a, s) := rfl

@[simp] theorem exec_pure (a : α) :
    exec answer (pure a : Prog E C R α) s = some (.ok a, s) := rfl

@[simp] theorem exec_throw (e : E) :
    exec answer (throw e : Prog E C R α) s = some (.error e, s) := rfl

/-- A sequence whose first part returns. -/
theorem exec_bind_ok {p : Prog E C R α} {f : α → Prog E C R β} {a : α}
    (h : exec answer p s = some (.ok a, s')) :
    exec answer (p >>= f) s = exec answer (f a) s' := by
  induction p generalizing s with
  | ret b =>
    cases h
    rfl
  | throw e => cases h
  | call c k ih =>
    obtain ⟨⟨r, t⟩, hanswer, hrest⟩ := Option.bind_eq_some_iff.mp h
    rw [call_bind, exec, hanswer]
    exact ih r hrest

/-- A sequence whose first part fails. -/
theorem exec_bind_error {p : Prog E C R α} {f : α → Prog E C R β} {e : E}
    (h : exec answer p s = some (.error e, s')) :
    exec answer (p >>= f) s = some (.error e, s') := by
  induction p generalizing s with
  | ret b => cases h
  | throw e' =>
    cases h
    rfl
  | call c k ih =>
    obtain ⟨⟨r, t⟩, hanswer, hrest⟩ := Option.bind_eq_some_iff.mp h
    rw [call_bind, exec, hanswer]
    exact ih r hrest

/-- A `try` whose body returns. -/
theorem exec_tryCatch_ok {p : Prog E C R α} {handler : E → Prog E C R α} {a : α}
    (h : exec answer p s = some (.ok a, s')) :
    exec answer (tryCatch p handler) s = some (.ok a, s') := by
  induction p generalizing s with
  | ret b =>
    cases h
    rfl
  | throw e => cases h
  | call c k ih =>
    obtain ⟨⟨r, t⟩, hanswer, hrest⟩ := Option.bind_eq_some_iff.mp h
    rw [call_tryCatch, exec, hanswer]
    exact ih r hrest

/-- A `try` whose body fails. -/
theorem exec_tryCatch_error {p : Prog E C R α} {handler : E → Prog E C R α} {e : E}
    (h : exec answer p s = some (.error e, s')) :
    exec answer (tryCatch p handler) s = exec answer (handler e) s' := by
  induction p generalizing s with
  | ret b => cases h
  | throw e' =>
    cases h
    rfl
  | call c k ih =>
    obtain ⟨⟨r, t⟩, hanswer, hrest⟩ := Option.bind_eq_some_iff.mp h
    rw [call_tryCatch, exec, hanswer]
    exact ih r hrest

/-- A program whose outcome is collected. -/
theorem exec_attempt {p : Prog E C R α} {r : Except E α}
    (h : exec answer p s = some (r, s')) :
    exec answer p.attempt s = some (.ok r, s') := by
  induction p generalizing s with
  | ret b =>
    cases h
    rfl
  | throw e =>
    cases h
    rfl
  | call c k ih =>
    obtain ⟨⟨reply, t⟩, hanswer, hrest⟩ := Option.bind_eq_some_iff.mp h
    rw [attempt, exec, hanswer]
    exact ih reply hrest

/-- A single call. -/
theorem exec_invoke {c : C} {r : Except E (R c)} (h : answer s c = some (r, s')) :
    exec answer (invoke c) s = some (r, s') := by
  rw [invoke, exec, h]
  cases r <;> rfl

/-- A sequence that returns is one whose first part does. -/
theorem exec_bind_returns {p : Prog E C R α} {f : α → Prog E C R β} {b : β}
    (h : exec answer (p >>= f) s = some (.ok b, s')) :
    ∃ a s₁, exec answer p s = some (.ok a, s₁) ∧ exec answer (f a) s₁ = some (.ok b, s') := by
  induction p generalizing s with
  | ret a => exact ⟨a, s, rfl, h⟩
  | throw e => cases h
  | call c k ih =>
    rw [call_bind, exec] at h
    obtain ⟨r, hr, h⟩ := Option.bind_eq_some_iff.mp h
    obtain ⟨a, s₁, hp, hf⟩ := ih r.1 h
    exact ⟨a, s₁, by rw [exec, hr]; exact hp, hf⟩

/-- A call that has to wait. -/
theorem exec_invoke_bind_of_waits {c : C} {f : R c → Prog E C R α} (h : answer s c = none) :
    exec answer (invoke c >>= f) s = none := by
  rw [invoke, call_bind, exec, h]
  rfl

/-- A `try … finally` whose `finally` returns. -/
theorem exec_finallyDo {p : Prog E C R α} {final : Prog E C R PUnit} {r : Except E α} {s'' : S}
    (h : exec answer p s = some (r, s')) (hfinal : exec answer final s' = some (.ok ⟨⟩, s'')) :
    exec answer (finallyDo p final) s = some (r, s'') := by
  have hattempt : exec answer (p.attempt >>= fun outcome => final >>= fun _ =>
      match outcome with
      | .ok a => ret a
      | .error e => throw e) s = some (r, s'') := by
    rw [exec_bind_ok (exec_attempt h), exec_bind_ok hfinal]
    cases r <;> rfl
  exact hattempt

end Exec

end Prog

end Feedpulse
