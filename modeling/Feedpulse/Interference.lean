import Feedpulse.Program

/-!
# Programs among other processes

Between two calls of a process the others change the state. What they may do to it is the `rely`
of the process, what it may call itself is `allowed`. `Follows` says of the rest of a program
that, whatever the others do within `rely`, it issues only calls that are allowed when they are
executed, and ends within its postcondition. It survives what the others do (`Follows.disturb`)
and passes to the rest of the program with each answer (`Follows.answer`), so that it holds of a
process at every moment of a run.
-/

namespace Feedpulse

universe u

namespace Prog

variable {E C : Type u} {R : C → Type u} {α β : Type u} {S : Type u}

/-- The others act, then the call is answered. -/
def Among (rely : S → S → Prop) (answers : S → (c : C) → Except E (R c) → S → Prop) :
    S → (c : C) → Except E (R c) → S → Prop :=
  fun s c r s' => ∃ t, rely s t ∧ answers t c r s'

/-- Whatever the others do, the call is allowed. -/
def Stably (rely : S → S → Prop) (allowed : S → C → Prop) : S → C → Prop :=
  fun s c => ∀ t, rely s t → allowed t c

/-- Every execution of the program among the others issues allowed calls only, and ends within
`post`. -/
abbrev Follows (rely : S → S → Prop) (allowed : S → C → Prop)
    (answers : S → (c : C) → Except E (R c) → S → Prop) (p : Prog E C R α)
    (post : Except E α → S → Prop) : S → Prop :=
  Meets (Stably rely allowed) (Among rely answers) p post

/-- What the others may do: nothing, or one thing after another. -/
structure Rely (rely : S → S → Prop) : Prop where
  /-- nothing happens -/
  refl : ∀ s, rely s s
  /-- one thing after another -/
  trans : ∀ {s t u}, rely s t → rely t u → rely s u

/-- The others cannot make it false. -/
def Stable (rely : S → S → Prop) (P : S → Prop) : Prop := ∀ s t, rely s t → P s → P t

section Follows

variable {rely : S → S → Prop} {allowed : S → C → Prop}
  {answers : S → (c : C) → Except E (R c) → S → Prop}

theorem Stable.and {P Q : S → Prop} (hP : Stable rely P) (hQ : Stable rely Q) :
    Stable rely fun s => P s ∧ Q s :=
  fun s t hr h => ⟨hP s t hr h.1, hQ s t hr h.2⟩

/-! ## Along a run -/

/-- **The others do not disturb a program** that follows its protocol, if they cannot make its
postcondition false. -/
theorem Follows.disturb (hrely : Rely rely) {p : Prog E C R α} {post : Except E α → S → Prop}
    (hpost : ∀ r, Stable rely (post r)) {s t : S} (h : Follows rely allowed answers p post s)
    (hr : rely s t) : Follows rely allowed answers p post t := by
  cases p with
  | ret a => exact hpost _ s t hr h
  | throw e => exact hpost _ s t hr h
  | call c k =>
    refine ⟨fun u hu => h.1 u (hrely.trans hr hu), ?_⟩
    rintro r s' ⟨u, hu, ha⟩
    exact h.2 r s' ⟨u, hrely.trans hr hu, ha⟩

/-- The call that comes next is allowed. -/
theorem Follows.next_allowed (hrely : Rely rely) {c : C} {k : Except E (R c) → Prog E C R α}
    {post : Except E α → S → Prop} {s : S}
    (h : Follows rely allowed answers (call c k) post s) : allowed s c :=
  h.1 s (hrely.refl s)

/-- **The rest of a program follows its protocol** after each answer. -/
theorem Follows.answer (hrely : Rely rely) {c : C} {k : Except E (R c) → Prog E C R α}
    {post : Except E α → S → Prop} {s s' : S} {r : Except E (R c)}
    (h : Follows rely allowed answers (call c k) post s) (ha : answers s c r s') :
    Follows rely allowed answers (k r) post s' :=
  h.2 r s' ⟨s, hrely.refl s, ha⟩

/-! ## Single calls -/

/-- A call in a state the others cannot leave. -/
theorem follows_invoke {c : C} {P : S → Prop} (hP : Stable rely P)
    {post : Except E (R c) → S → Prop} {s : S} (hs : P s)
    (hallowed : ∀ t, P t → allowed t c)
    (hanswers : ∀ t r s', P t → answers t c r s' → post r s') :
    Follows rely allowed answers (invoke c) post s := by
  refine meets_invoke.mpr ⟨fun t ht => hallowed t (hP s t ht hs), ?_⟩
  rintro r s' ⟨t, ht, ha⟩
  exact hanswers t r s' (hP s t ht hs) ha

/-- A program whose calls are all allowed, and keep what the others cannot make false. -/
theorem Issues.follows {kind : C → Prop} {P : S → Prop} (hP : Stable rely P)
    {p : Prog E C R α} (hp : Issues kind p)
    (hallowed : ∀ t c, kind c → P t → allowed t c)
    (hanswers : ∀ t c r s', kind c → P t → answers t c r s' → P s') {s : S} (hs : P s) :
    Follows rely allowed answers p (fun _ s' => P s') s := by
  induction p generalizing s with
  | ret a => exact hs
  | throw e => exact hs
  | call c k ih =>
    obtain ⟨hc, hk⟩ := issues_call.mp hp
    refine ⟨fun t ht => hallowed t c hc (hP s t ht hs), ?_⟩
    rintro r s' ⟨t, ht, ha⟩
    exact ih r (hk r) (hanswers t c r s' hc (hP s t ht hs) ha)

/-- What is known of the calls of a program can be added to its protocol. -/
theorem Issues.and_follows {kind : C → Prop} {p : Prog E C R α} {post : Except E α → S → Prop}
    {s : S} (hp : Issues kind p) (h : Follows rely allowed answers p post s) :
    Follows rely (fun s c => kind c ∧ allowed s c) answers p post s := by
  induction p generalizing s with
  | ret a => exact h
  | throw e => exact h
  | call c k ih =>
    obtain ⟨hc, hk⟩ := issues_call.mp hp
    exact ⟨fun t ht => ⟨hc, h.1 t ht⟩, fun r s' hr => ih r (hk r) (h.2 r s' hr)⟩

/-- What neither the others nor the calls make false still holds at the end. -/
theorem Follows.and_kept {P : S → Prop} (hP : Stable rely P)
    (hanswers : ∀ t c r s', P t → answers t c r s' → P s') {p : Prog E C R α}
    {post : Except E α → S → Prop} {s : S} (h : Follows rely allowed answers p post s)
    (hs : P s) : Follows rely allowed answers p (fun r s' => post r s' ∧ P s') s := by
  induction p generalizing s with
  | ret a => exact ⟨h, hs⟩
  | throw e => exact ⟨h, hs⟩
  | call c k ih =>
    refine ⟨h.1, ?_⟩
    rintro r s' ⟨t, ht, ha⟩
    exact ih r (h.2 r s' ⟨t, ht, ha⟩) (hanswers t c r s' (hP s t ht hs) ha)

/-- A `try … catch` between two states of the same kind. -/
theorem follows_tryCatch {P : S → Prop} {p : Prog E C R α} {handler : E → Prog E C R α} {s : S}
    (hp : Follows rely allowed answers p (fun _ s' => P s') s)
    (hh : ∀ e s', P s' → Follows rely allowed answers (handler e) (fun _ s' => P s') s') :
    Follows rely allowed answers (tryCatch p handler) (fun _ s' => P s') s :=
  Meets.tryCatch hp (fun _ _ hs => hs) hh

end Follows

end Prog

end Feedpulse
