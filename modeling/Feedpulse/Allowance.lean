import Mathlib.Data.Finset.Card
import Mathlib.Algebra.Order.Group.Int

/-!
# A counted allowance

Holders claim slots of a limited allowance through a counter that is incremented first and
read afterwards: the slot is granted when the counter is still within the limit, and a claim
that overshoots is to be given back. `Allowance` keeps the counter together with who holds
what, and `Within` is the invariant that ties them together: while slots are given back only
by those who hold them, and no slot is given back once it is spent, no more than the limit is
ever spent.
-/

namespace Feedpulse

universe u

/-- The counter of an allowance, and what has become of the claims it has counted. -/
structure Allowance (H : Type u) where
  /-- the counter -/
  value : Int
  /-- who holds a slot that is not spent -/
  granted : Finset H
  /-- who has overshot and has not given the claim back -/
  overshot : Finset H
  /-- the slots that were spent -/
  spent : Nat

namespace Allowance

variable {H : Type u} {limit : Nat} {a : Allowance H} {h : H}

/-- Nothing is counted. -/
def empty : Allowance H := { value := 0, granted := ∅, overshot := ∅, spent := 0 }

/-- The holder has a claim that is counted. -/
def Holds (h : H) (a : Allowance H) : Prop := h ∈ a.granted ∨ h ∈ a.overshot

/-- Every claim that was not given back is counted, and what was granted is within the
limit. -/
structure Within (limit : Nat) (a : Allowance H) : Prop where
  /-- a claim is granted or has overshot -/
  disjoint : Disjoint a.granted a.overshot
  /-- the claims are counted -/
  counted : (a.spent + a.granted.card + a.overshot.card : Int) ≤ a.value
  /-- what was granted -/
  bounded : a.spent + a.granted.card ≤ limit

theorem within_empty : (empty : Allowance H).Within limit :=
  ⟨Finset.disjoint_empty_left _, by simp [empty], by simp [empty]⟩

/-- What is spent is within the limit. -/
theorem Within.spent_le (ha : a.Within limit) : a.spent ≤ limit :=
  le_trans (Nat.le_add_right ..) ha.bounded

variable [DecidableEq H]

/-- Increment first; the slot is granted if the counter is within the limit. -/
def reserve (limit : Nat) (h : H) (a : Allowance H) : Allowance H :=
  if a.value + 1 ≤ limit then { a with value := a.value + 1, granted := insert h a.granted }
  else { a with value := a.value + 1, overshot := insert h a.overshot }

/-- Use a granted slot. -/
def spend (h : H) (a : Allowance H) : Allowance H :=
  { a with granted := a.granted.erase h, spent := a.spent + 1 }

/-- Give a claim back. -/
def giveBack (h : H) (a : Allowance H) : Allowance H :=
  { a with value := a.value - 1, granted := a.granted.erase h, overshot := a.overshot.erase h }

/-- A holder disappears; the counter keeps its claim. -/
def drop (h : H) (a : Allowance H) : Allowance H :=
  { a with granted := a.granted.erase h, overshot := a.overshot.erase h }

/-! ### What the operations change -/

@[simp] theorem value_reserve : (a.reserve limit h).value = a.value + 1 := by
  unfold reserve
  split <;> rfl

@[simp] theorem spent_reserve : (a.reserve limit h).spent = a.spent := by
  unfold reserve
  split <;> rfl

@[simp] theorem mem_granted_reserve {p : H} :
    p ∈ (a.reserve limit h).granted ↔ (p = h ∧ a.value + 1 ≤ limit) ∨ p ∈ a.granted := by
  unfold reserve
  split <;> simp [*]

@[simp] theorem mem_over_reserve {p : H} :
    p ∈ (a.reserve limit h).overshot ↔ (p = h ∧ ¬ a.value + 1 ≤ limit) ∨ p ∈ a.overshot := by
  unfold reserve
  split <;> simp [*]

@[simp] theorem mem_granted_spend {p : H} :
    p ∈ (a.spend h).granted ↔ p ≠ h ∧ p ∈ a.granted := Finset.mem_erase

@[simp] theorem mem_granted_giveBack {p : H} :
    p ∈ (a.giveBack h).granted ↔ p ≠ h ∧ p ∈ a.granted := Finset.mem_erase

@[simp] theorem mem_over_giveBack {p : H} :
    p ∈ (a.giveBack h).overshot ↔ p ≠ h ∧ p ∈ a.overshot := Finset.mem_erase

@[simp] theorem mem_granted_drop {p : H} :
    p ∈ (a.drop h).granted ↔ p ≠ h ∧ p ∈ a.granted := Finset.mem_erase

@[simp] theorem mem_over_drop {p : H} :
    p ∈ (a.drop h).overshot ↔ p ≠ h ∧ p ∈ a.overshot := Finset.mem_erase

/-! ### What the operations keep -/

theorem Within.reserve (ha : a.Within limit) (hh : ¬ a.Holds h) :
    (a.reserve limit h).Within limit := by
  obtain ⟨hgranted, hover⟩ := not_or.mp hh
  obtain ⟨hdisjoint, hcounted, hbounded⟩ := ha
  unfold Allowance.reserve
  split
  · rename_i hle
    refine ⟨?_, ?_, ?_⟩
    · simpa [hover] using hdisjoint
    · simp only [Finset.card_insert_of_notMem hgranted]
      omega
    · simp only [Finset.card_insert_of_notMem hgranted]
      omega
  · refine ⟨?_, ?_, hbounded⟩
    · simpa [hgranted] using hdisjoint
    · simp only [Finset.card_insert_of_notMem hover]
      omega

theorem Within.spend (ha : a.Within limit) (hh : h ∈ a.granted) :
    (a.spend h).Within limit := by
  obtain ⟨hdisjoint, hcounted, hbounded⟩ := ha
  have hcard := Finset.card_erase_add_one hh
  refine ⟨?_, ?_, ?_⟩
  · exact hdisjoint.mono_left (Finset.erase_subset ..)
  · simp only [Allowance.spend]
    omega
  · simp only [Allowance.spend]
    omega

theorem Within.giveBack (ha : a.Within limit) (hh : a.Holds h) :
    (a.giveBack h).Within limit := by
  obtain ⟨hdisjoint, hcounted, hbounded⟩ := ha
  have hgranted : (a.granted.erase h).card ≤ a.granted.card := Finset.card_erase_le
  have hcards : (a.granted.erase h).card + (a.overshot.erase h).card + 1
      = a.granted.card + a.overshot.card := by
    rcases hh with hh | hh
    · have hcard := Finset.card_erase_add_one hh
      rw [Finset.erase_eq_of_notMem (Finset.disjoint_left.mp hdisjoint hh)]
      omega
    · have hcard := Finset.card_erase_add_one hh
      rw [Finset.erase_eq_of_notMem (Finset.disjoint_right.mp hdisjoint hh)]
      omega
  refine ⟨?_, ?_, ?_⟩
  · exact (hdisjoint.mono_left (Finset.erase_subset ..)).mono_right (Finset.erase_subset ..)
  · simp only [Allowance.giveBack]
    omega
  · simp only [Allowance.giveBack]
    omega

theorem Within.drop (ha : a.Within limit) (h : H) : (a.drop h).Within limit := by
  obtain ⟨hdisjoint, hcounted, hbounded⟩ := ha
  have hgranted : (a.granted.erase h).card ≤ a.granted.card := Finset.card_erase_le
  have hover : (a.overshot.erase h).card ≤ a.overshot.card := Finset.card_erase_le
  refine ⟨?_, ?_, ?_⟩
  · exact (hdisjoint.mono_left (Finset.erase_subset ..)).mono_right (Finset.erase_subset ..)
  · simp only [Allowance.drop]
    omega
  · simp only [Allowance.drop]
    omega

end Allowance

end Feedpulse
