import Mathlib.Logic.Function.Basic
import Mathlib.Data.List.Basic

/-!
# Shared ledgers with transactions

Several writers contribute entries to keys of a shared ledger. A writer sees what has been
committed and its own pending contributions; it commits them all at once or drops them; and
it contributes to a key only while no other writer has a pending contribution there.

* `Consistent` says what follows for the keys: the first visible contribution to a key opens
  it and no other does, and contributions carry the same tag exactly if they go to one key.
  `consistent_contribute`, `consistent_commit` and `consistent_abort` are the step lemmas.
* `value` is what the contributions to a key amount to, when the first creates a value and
  each later one is merged into it; `value_rec` is its induction rule.
-/

namespace Feedpulse

universe u v w x

/-- A ledger of the writers `ι` with entries `C`. -/
structure Ledger (ι : Type u) (C : Type v) where
  /-- the committed contributions, in order -/
  committed : List C
  /-- what each writer has contributed since its last commit -/
  pending : ι → List C

namespace Ledger

variable {ι : Type u} {C : Type v} {κ : Type w} {τ : Type x}

/-! ## Contributions to a key -/

section On

variable [DecidableEq κ] (key : C → κ) (opens : C → Bool)

/-- The contributions to a key. -/
def on (k : κ) (cs : List C) : List C := cs.filter fun c => key c = k

variable {key opens}

@[simp] theorem mem_on {k : κ} {cs : List C} {c : C} : c ∈ on key k cs ↔ c ∈ cs ∧ key c = k := by
  simp [on]

@[simp] theorem on_append (k : κ) (cs ds : List C) :
    on key k (cs ++ ds) = on key k cs ++ on key k ds := List.filter_append ..

theorem on_singleton_self (c : C) : on key (key c) [c] = [c] := by simp [on]

theorem on_singleton_of_ne {k : κ} {c : C} (h : key c ≠ k) : on key k [c] = [] := by
  simp [on, h]

theorem on_eq_nil {k : κ} {cs : List C} : on key k cs = [] ↔ ∀ c ∈ cs, key c ≠ k := by
  simp [on]

variable (opens)

/-- The first entry of a list opens, and no other does. -/
def FirstOpens : List C → Prop
  | [] => True
  | c :: cs => opens c = true ∧ ∀ d ∈ cs, opens d = false

variable {opens}

theorem FirstOpens.append_singleton {cs : List C} {c : C} (h : FirstOpens opens cs)
    (hc : opens c = true ↔ cs = []) : FirstOpens opens (cs ++ [c]) := by
  cases cs with
  | nil => exact ⟨hc.mpr rfl, fun d hd => absurd hd List.not_mem_nil⟩
  | cons b cs =>
    refine ⟨h.1, fun d hd => ?_⟩
    rcases List.mem_append.mp hd with hd | hd
    · exact h.2 d hd
    · obtain rfl := List.mem_singleton.mp hd
      rw [← Bool.not_eq_true, hc]
      exact List.cons_ne_nil _ _

theorem FirstOpens.of_append {cs ds : List C} (h : FirstOpens opens (cs ++ ds)) :
    FirstOpens opens cs := by
  cases cs with
  | nil => trivial
  | cons c cs => exact ⟨h.1, fun d hd => h.2 d (List.mem_append_left _ hd)⟩

/-- **Exactly one** entry opens. -/
theorem FirstOpens.countP_eq_one {cs : List C} (h : FirstOpens opens cs) (hne : cs ≠ []) :
    cs.countP opens = 1 := by
  cases cs with
  | nil => exact absurd rfl hne
  | cons c cs =>
    rw [List.countP_cons_of_pos h.1, List.countP_eq_zero.mpr fun d hd => by simp [h.2 d hd]]

end On

/-! ## States and steps -/

/-- What a writer sees. -/
def visible (s : Ledger ι C) (i : ι) : List C := s.committed ++ s.pending i

/-- The contribution is in the ledger, committed or pending. -/
def Has (s : Ledger ι C) (c : C) : Prop := c ∈ s.committed ∨ ∃ i, c ∈ s.pending i

theorem has_of_visible {s : Ledger ι C} {i : ι} {c : C} (h : c ∈ s.visible i) : s.Has c :=
  (List.mem_append.mp h).imp id fun h => ⟨i, h⟩

/-- The ledger nobody has written to. -/
def empty : Ledger ι C := { committed := [], pending := fun _ => [] }

section Steps

variable [DecidableEq ι]

/-- A writer contributes an entry. -/
def contribute (s : Ledger ι C) (i : ι) (c : C) : Ledger ι C :=
  { s with pending := Function.update s.pending i (s.pending i ++ [c]) }

/-- A writer commits. -/
def commit (s : Ledger ι C) (i : ι) : Ledger ι C :=
  { committed := s.visible i, pending := Function.update s.pending i [] }

/-- A writer drops what it has not committed. -/
def abort (s : Ledger ι C) (i : ι) : Ledger ι C :=
  { s with pending := Function.update s.pending i [] }

@[simp] theorem contribute_committed (s : Ledger ι C) (i : ι) (c : C) :
    (s.contribute i c).committed = s.committed := rfl

@[simp] theorem contribute_pending_self (s : Ledger ι C) (i : ι) (c : C) :
    (s.contribute i c).pending i = s.pending i ++ [c] := Function.update_self ..

theorem contribute_pending_of_ne {s : Ledger ι C} {i j : ι} {c : C} (h : j ≠ i) :
    (s.contribute i c).pending j = s.pending j := Function.update_of_ne h ..

theorem visible_contribute_self (s : Ledger ι C) (i : ι) (c : C) :
    (s.contribute i c).visible i = s.visible i ++ [c] := by
  simp [visible]

theorem visible_contribute_of_ne {s : Ledger ι C} {i j : ι} {c : C} (h : j ≠ i) :
    (s.contribute i c).visible j = s.visible j := by
  simp [visible, contribute_pending_of_ne h]

@[simp] theorem commit_committed (s : Ledger ι C) (i : ι) :
    (s.commit i).committed = s.visible i := rfl

@[simp] theorem commit_pending_self (s : Ledger ι C) (i : ι) : (s.commit i).pending i = [] :=
  Function.update_self ..

theorem commit_pending_of_ne {s : Ledger ι C} {i j : ι} (h : j ≠ i) :
    (s.commit i).pending j = s.pending j := Function.update_of_ne h ..

@[simp] theorem abort_committed (s : Ledger ι C) (i : ι) :
    (s.abort i).committed = s.committed := rfl

@[simp] theorem abort_pending_self (s : Ledger ι C) (i : ι) : (s.abort i).pending i = [] :=
  Function.update_self ..

theorem abort_pending_of_ne {s : Ledger ι C} {i j : ι} (h : j ≠ i) :
    (s.abort i).pending j = s.pending j := Function.update_of_ne h ..

theorem has_contribute {s : Ledger ι C} {i : ι} {c d : C} :
    (s.contribute i c).Has d ↔ s.Has d ∨ d = c := by
  constructor
  · rintro (h | ⟨j, h⟩)
    · exact .inl (.inl h)
    · by_cases hj : j = i
      · subst hj
        rw [contribute_pending_self] at h
        rcases List.mem_append.mp h with h | h
        · exact .inl (.inr ⟨j, h⟩)
        · exact .inr (List.mem_singleton.mp h)
      · rw [contribute_pending_of_ne hj] at h
        exact .inl (.inr ⟨j, h⟩)
  · rintro ((h | ⟨j, h⟩) | rfl)
    · exact .inl h
    · refine .inr ⟨j, ?_⟩
      by_cases hj : j = i
      · subst hj
        rw [contribute_pending_self]
        exact List.mem_append_left _ h
      · rw [contribute_pending_of_ne hj]
        exact h
    · refine .inr ⟨i, ?_⟩
      rw [contribute_pending_self]
      exact List.mem_append_right _ (List.mem_singleton.mpr rfl)

theorem has_of_commit {s : Ledger ι C} {i : ι} {d : C} (h : (s.commit i).Has d) : s.Has d := by
  rcases h with h | ⟨j, h⟩
  · exact has_of_visible h
  · by_cases hj : j = i
    · subst hj
      rw [commit_pending_self] at h
      exact absurd h List.not_mem_nil
    · rw [commit_pending_of_ne hj] at h
      exact .inr ⟨j, h⟩

theorem has_of_abort {s : Ledger ι C} {i : ι} {d : C} (h : (s.abort i).Has d) : s.Has d := by
  rcases h with h | ⟨j, h⟩
  · exact .inl h
  · by_cases hj : j = i
    · subst hj
      rw [abort_pending_self] at h
      exact absurd h List.not_mem_nil
    · rw [abort_pending_of_ne hj] at h
      exact .inr ⟨j, h⟩

end Steps

/-! ## Consistency -/

section Consistent

variable [DecidableEq κ] (key : C → κ) (tag : C → τ) (opens : C → Bool)

/-- What holds of every state of the ledger. -/
structure Consistent (s : Ledger ι C) : Prop where
  /-- no two writers have pending contributions to one key -/
  exclusive : ∀ i j, i ≠ j → ∀ c ∈ s.pending i, ∀ d ∈ s.pending j, key c ≠ key d
  /-- to every writer, the first contribution to a key opens it, and no other does -/
  opened : ∀ i k, FirstOpens opens (on key k (s.visible i))
  /-- to every writer, contributions to one key carry one tag -/
  tagged : ∀ i, ∀ c ∈ s.visible i, ∀ d ∈ s.visible i, key c = key d → tag c = tag d
  /-- contributions with one tag go to one key -/
  separate : ∀ c d, s.Has c → s.Has d → tag c = tag d → key c = key d

variable {key tag opens}

theorem consistent_empty : (empty : Ledger ι C).Consistent key tag opens where
  exclusive _ _ _ _ hc := absurd hc List.not_mem_nil
  opened _ _ := trivial
  tagged _ _ hc := absurd hc List.not_mem_nil
  separate c d hc := by
    rcases hc with hc | ⟨_, hc⟩
    · exact absurd hc List.not_mem_nil
    · exact absurd hc List.not_mem_nil

variable {s : Ledger ι C} {i : ι}

/-- What the committed contributions to a key look like. -/
theorem Consistent.firstOpens_committed [Nonempty ι] (h : s.Consistent key tag opens) (k : κ) :
    FirstOpens opens (on key k s.committed) := by
  obtain ⟨i⟩ := ‹Nonempty ι›
  have hi := h.opened i k
  rw [visible, on_append] at hi
  exact hi.of_append

/-- Of two writers, at most one has pending contributions to a key. -/
theorem Consistent.on_pending_eq_nil (h : s.Consistent key tag opens) {j : ι} (hne : i ≠ j)
    (k : κ) : on key k (s.pending i) = [] ∨ on key k (s.pending j) = [] := by
  by_cases hi : on key k (s.pending i) = []
  · exact .inl hi
  · right
    rw [on_eq_nil] at hi ⊢
    push Not at hi
    obtain ⟨c, hc, rfl⟩ := hi
    exact fun d hd hkey => h.exclusive i j hne c hc d hd hkey.symm

variable [DecidableEq ι]

/-- A contribution to a key nobody else holds, which opens the key under a fresh tag exactly
if it is the first one there, and carries the tag of the key otherwise. -/
theorem consistent_contribute {c : C} (h : s.Consistent key tag opens)
    (hfree : ∀ j, j ≠ i → ∀ d ∈ s.pending j, key d ≠ key c)
    (hopens : opens c = true ↔ on key (key c) (s.visible i) = [])
    (htag : ∀ d ∈ s.visible i, key d = key c → tag d = tag c)
    (hfresh : opens c = true → ∀ d, s.Has d → tag d ≠ tag c) :
    (s.contribute i c).Consistent key tag opens where
  exclusive j j' hne a ha b hb := by
    by_cases hj : j = i
    · subst hj
      rw [contribute_pending_of_ne (Ne.symm hne)] at hb
      rw [contribute_pending_self] at ha
      rcases List.mem_append.mp ha with ha | ha
      · exact h.exclusive _ _ hne a ha b hb
      · obtain rfl := List.mem_singleton.mp ha
        exact (hfree j' (Ne.symm hne) b hb).symm
    · rw [contribute_pending_of_ne hj] at ha
      by_cases hj' : j' = i
      · subst hj'
        rw [contribute_pending_self] at hb
        rcases List.mem_append.mp hb with hb | hb
        · exact h.exclusive _ _ hne a ha b hb
        · obtain rfl := List.mem_singleton.mp hb
          exact hfree j hj a ha
      · rw [contribute_pending_of_ne hj'] at hb
        exact h.exclusive _ _ hne a ha b hb
  opened j k := by
    by_cases hj : j = i
    · subst hj
      rw [visible_contribute_self, on_append]
      by_cases hk : key c = k
      · subst hk
        rw [on_singleton_self]
        exact (h.opened j _).append_singleton hopens
      · rw [on_singleton_of_ne hk, List.append_nil]
        exact h.opened j k
    · rw [visible_contribute_of_ne hj]
      exact h.opened j k
  tagged j a ha b hb hkey := by
    by_cases hj : j = i
    · subst hj
      rw [visible_contribute_self] at ha hb
      rcases List.mem_append.mp ha with ha' | ha' <;> rcases List.mem_append.mp hb with hb' | hb'
      · exact h.tagged j a ha' b hb' hkey
      · rw [List.mem_singleton.mp hb'] at hkey ⊢
        exact htag a ha' hkey
      · rw [List.mem_singleton.mp ha'] at hkey ⊢
        exact (htag b hb' hkey.symm).symm
      · rw [List.mem_singleton.mp ha', List.mem_singleton.mp hb']
    · rw [visible_contribute_of_ne hj] at ha hb
      exact h.tagged j a ha b hb hkey
  separate a b ha hb htags := by
    -- a contribution with the tag of the new one goes to the same key
    have hnew : ∀ d, s.Has d → tag d = tag c → key d = key c := by
      intro d hd heq
      by_cases ho : opens c = true
      · exact absurd heq (hfresh ho d hd)
      · rw [hopens, on_eq_nil] at ho
        push Not at ho
        obtain ⟨e, he, hkey⟩ := ho
        have := h.separate d e hd (has_of_visible he) (heq.trans (htag e he hkey).symm)
        exact this.trans hkey
    rcases has_contribute.mp ha with ha' | rfl
    · rcases has_contribute.mp hb with hb' | rfl
      · exact h.separate a b ha' hb' htags
      · exact hnew a ha' htags
    · rcases has_contribute.mp hb with hb' | rfl
      · exact (hnew b hb' htags.symm).symm
      · rfl

/-- A commit keeps the ledger consistent. -/
theorem consistent_commit (h : s.Consistent key tag opens) :
    (s.commit i).Consistent key tag opens where
  exclusive j j' hne a ha b hb := by
    by_cases hj : j = i
    · subst hj
      rw [commit_pending_self] at ha
      exact absurd ha List.not_mem_nil
    · by_cases hj' : j' = i
      · subst hj'
        rw [commit_pending_self] at hb
        exact absurd hb List.not_mem_nil
      · rw [commit_pending_of_ne hj] at ha
        rw [commit_pending_of_ne hj'] at hb
        exact h.exclusive j j' hne a ha b hb
  opened j k := by
    rw [visible, commit_committed]
    by_cases hj : j = i
    · subst hj
      rw [commit_pending_self, List.append_nil]
      exact h.opened j k
    · rw [commit_pending_of_ne hj, on_append]
      -- one of the two writers has nothing at this key
      rcases h.on_pending_eq_nil (Ne.symm hj) k with hi | hj'
      · have hk := h.opened j k
        rw [visible, on_append] at hk ⊢
        rw [hi, List.append_nil]
        exact hk
      · rw [hj', List.append_nil]
        exact h.opened i k
  tagged j a ha b hb hkey := by
    rw [visible, commit_committed] at ha hb
    by_cases hj : j = i
    · subst hj
      rw [commit_pending_self, List.append_nil] at ha hb
      exact h.tagged j a ha b hb hkey
    · rw [commit_pending_of_ne hj] at ha hb
      have hcommitted : ∀ c ∈ s.committed, c ∈ s.visible j :=
        fun c hc => List.mem_append_left _ hc
      have hpending : ∀ c ∈ s.pending j, c ∈ s.visible j :=
        fun c hc => List.mem_append_right _ hc
      rcases List.mem_append.mp ha with ha | ha <;> rcases List.mem_append.mp hb with hb | hb
      · exact h.tagged i a ha b hb hkey
      · rcases List.mem_append.mp ha with ha | ha
        · exact h.tagged j a (hcommitted a ha) b (hpending b hb) hkey
        · exact absurd hkey (h.exclusive i j (Ne.symm hj) a ha b hb)
      · rcases List.mem_append.mp hb with hb | hb
        · exact h.tagged j a (hpending a ha) b (hcommitted b hb) hkey
        · exact absurd hkey.symm (h.exclusive i j (Ne.symm hj) b hb a ha)
      · exact h.tagged j a (hpending a ha) b (hpending b hb) hkey
  separate a b ha hb := h.separate a b (has_of_commit ha) (has_of_commit hb)

/-- Dropping contributions keeps the ledger consistent. -/
theorem consistent_abort (h : s.Consistent key tag opens) :
    (s.abort i).Consistent key tag opens := by
  have hsub : ∀ j, ∀ c ∈ (s.abort i).pending j, c ∈ s.pending j := by
    intro j c hc
    by_cases hj : j = i
    · subst hj
      rw [abort_pending_self] at hc
      exact absurd hc List.not_mem_nil
    · rw [abort_pending_of_ne hj] at hc
      exact hc
  have hvisible : ∀ j, ∀ c ∈ (s.abort i).visible j, c ∈ s.visible j := by
    intro j c hc
    exact List.mem_append.mpr ((List.mem_append.mp hc).imp_right (hsub j c))
  refine ⟨fun j j' hne a ha b hb => h.exclusive j j' hne a (hsub j a ha) b (hsub j' b hb),
    fun j k => ?_, fun j a ha b hb => h.tagged j a (hvisible j a ha) b (hvisible j b hb),
    fun a b ha hb => h.separate a b (has_of_abort ha) (has_of_abort hb)⟩
  by_cases hj : j = i
  · subst hj
    have hk := h.opened j k
    rw [visible, on_append] at hk
    rw [visible, abort_pending_self, abort_committed, List.append_nil]
    exact hk.of_append
  · rw [visible, abort_pending_of_ne hj]
    exact h.opened j k

end Consistent

/-! ## Values -/

section Value

variable {V : Type w} (init : C → V) (merge : V → C → V)

/-- What a list of contributions amounts to: the first creates a value, each later one is
merged into it. -/
def value : List C → Option V
  | [] => none
  | c :: cs => some (cs.foldl merge (init c))

variable {init merge}

theorem value_eq_none {cs : List C} : value init merge cs = none ↔ cs = [] := by
  cases cs <;> simp [value]

theorem value_append_of_eq_some {cs ds : List C} {v : V} (h : value init merge cs = some v) :
    value init merge (cs ++ ds) = some (ds.foldl merge v) := by
  cases cs with
  | nil => cases h
  | cons c cs =>
    obtain rfl := Option.some.inj h
    simp [value]

/-- **Induction on contributions**: what the first contribution establishes and every merge
extends, holds of the value. -/
theorem value_rec {P : List C → V → Prop} (hinit : ∀ c, P [c] (init c))
    (hmerge : ∀ cs c v, P cs v → P (cs ++ [c]) (merge v c)) {cs : List C} {v : V}
    (h : value init merge cs = some v) : P cs v := by
  have hfold : ∀ (ds cs : List C) (v : V), P cs v → P (cs ++ ds) (ds.foldl merge v) := by
    intro ds
    induction ds with
    | nil =>
      intro cs v hP
      rw [List.append_nil]
      exact hP
    | cons d ds ih =>
      intro cs v hP
      have := ih (cs ++ [d]) (merge v d) (hmerge cs d v hP)
      rw [List.append_assoc] at this
      exact this
  cases cs with
  | nil => cases h
  | cons c cs =>
    obtain rfl := Option.some.inj h
    exact hfold cs [c] (init c) (hinit c)

end Value

end Ledger

end Feedpulse
