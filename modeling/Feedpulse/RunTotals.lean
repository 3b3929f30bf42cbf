import Feedpulse.Transition

/-!
# Sums over runs

`total` adds up a cost over the steps of a run. `total_add_le` is the rule of amortised accounting:
if no step takes more out of a stock than is there or is put in by it, a run takes no more out of it
than was there at first or has been put in on the way.
-/

namespace Feedpulse

universe u v

namespace Transition

variable {S : Type u} {A : Type v} (step : S → A → Option S)

/-- The costs of the steps of a run, which ends at an action that is not enabled. -/
def total (cost : S → A → Nat) : S → List A → Nat
  | _, [] => 0
  | s, a :: as =>
    match step s a with
    | none => 0
    | some s' => cost s a + total cost s' as

variable {step} {cost : S → A → Nat} {s s' t : S} {a : A} {as : List A}

@[simp] theorem total_nil : total step cost s [] = 0 := rfl

theorem total_cons (h : step s a = some s') :
    total step cost s (a :: as) = cost s a + total step cost s' as := by
  simp [total, h]

/-- What holds in every state holds in the first one. -/
theorem Always.first {P : S → Prop} (h : Always step P s as) : P s := by
  cases as with
  | nil => exact h
  | cons a as => exact h.1

/-- **Amortised accounting**, for runs that stay in `P`. -/
theorem total_add_le (I P : S → Prop) {taken added : S → A → Nat} (stock : S → Nat)
    (hstep : ∀ s a s', I s → P s → P s' → step s a = some s' →
      I s' ∧ taken s a + stock s' ≤ stock s + added s a)
    (hs : I s) (hP : Always step P s as) (hrun : run step s as = some t) :
    total step taken s as + stock t ≤ stock s + total step added s as := by
  induction as generalizing s with
  | nil =>
    obtain rfl := Option.some.inj hrun
    simp
  | cons a as ih =>
    obtain ⟨s', ha, hrest⟩ := run_cons_eq_some hrun
    obtain ⟨hs', hle⟩ := hstep s a s' hs hP.1 (hP.2 s' ha).first ha
    have hrest' := ih hs' (hP.2 s' ha) hrest
    rw [total_cons ha, total_cons ha]
    omega

/-- What costs nothing under an invariant costs nothing over a run. -/
theorem total_eq_zero (I : S → Prop) {C : A → Prop}
    (hstep : ∀ s a s', C a → I s → step s a = some s' → I s' ∧ cost s a = 0)
    (hs : I s) (hC : ∀ a ∈ as, C a) : total step cost s as = 0 := by
  induction as generalizing s with
  | nil => rfl
  | cons a as ih =>
    rcases ha : step s a with _ | s'
    · simp [total, ha]
    · obtain ⟨hs', hzero⟩ := hstep s a s' (hC a List.mem_cons_self) hs ha
      rw [total_cons ha, hzero, ih hs' fun b hb => hC b (List.mem_cons_of_mem a hb)]

end Transition

end Feedpulse
