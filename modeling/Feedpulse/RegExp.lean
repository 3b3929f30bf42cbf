import Mathlib.Data.List.Basic
import Mathlib.Data.List.Infix

/-!
# Patterns with guarded ends

The fragment of regular expressions that looks for a fixed text: characters that stand for
themselves, and the two negative lookarounds, which look at the character before or after the
place that has been reached. Characters and classes of characters are arbitrary.
-/

namespace Feedpulse

namespace RegExp

/-- A term of a pattern. -/
inductive Term (α κ : Type) where
  /-- a character that stands for itself -/
  | char (c : α)
  /-- `(?<!…)`: no character of the class directly before -/
  | notBehind (cls : κ)
  /-- `(?!…)`: no character of the class directly after -/
  | notAhead (cls : κ)
  deriving DecidableEq, Repr

/-- A pattern: terms in a row. -/
abbrev Pattern (α κ : Type) := List (Term α κ)

variable {α κ : Type} [DecidableEq α] (inClass : κ → α → Bool)

/-- There is no character of the class on this side. -/
def free (cls : κ) : Option α → Bool
  | none => true
  | some c => !inClass cls c

/-- The pattern matches at the place between `prev` and the rest of the text. -/
def matchesAt : Pattern α κ → Option α → List α → Bool
  | [], _, _ => true
  | .char c :: terms, _, d :: ds => c = d && matchesAt terms (some d) ds
  | .char _ :: _, _, [] => false
  | .notBehind cls :: terms, prev, rest => free inClass cls prev && matchesAt terms prev rest
  | .notAhead cls :: terms, prev, rest => free inClass cls rest.head? && matchesAt terms prev rest

/-- `pattern.test(text)`, from the place between `prev` and the rest of the text on. -/
def testFrom (pattern : Pattern α κ) : Option α → List α → Bool
  | prev, [] => matchesAt inClass pattern prev []
  | prev, c :: cs => matchesAt inClass pattern prev (c :: cs) || testFrom pattern (some c) cs

/-- `pattern.test(text)`. -/
def test (pattern : Pattern α κ) (text : List α) : Bool := testFrom inClass pattern none text

/-- The character before the place behind `passed`, if `prev` is the one before `passed`. -/
def lastOf (prev : Option α) : List α → Option α
  | [] => prev
  | c :: cs => lastOf (some c) cs

omit [DecidableEq α] in
theorem lastOf_none (cs : List α) : lastOf none cs = cs.getLast? := by
  have hsome : ∀ (c : α) (cs : List α), lastOf (some c) cs = (c :: cs).getLast? := by
    intro c cs
    induction cs generalizing c with
    | nil => rfl
    | cons d ds ih => rw [lastOf, ih, List.getLast?_cons_cons]
  cases cs with
  | nil => rfl
  | cons c cs => exact hsome c cs

/-- Characters that stand for themselves match the text they spell. -/
theorem matchesAt_chars {phrase : List α} {terms : Pattern α κ} {prev : Option α} {rest : List α} :
    matchesAt inClass (phrase.map .char ++ terms) prev rest = true ↔
      ∃ after, rest = phrase ++ after ∧
        matchesAt inClass terms (lastOf prev phrase) after = true := by
  induction phrase generalizing prev rest with
  | nil => simp [lastOf]
  | cons c cs ih =>
    cases rest with
    | nil => simp [matchesAt]
    | cons d ds =>
      simp only [List.map_cons, List.cons_append, matchesAt, Bool.and_eq_true, decide_eq_true_eq,
        ih, List.cons.injEq, lastOf]
      constructor
      · rintro ⟨rfl, after, rfl, h⟩
        exact ⟨after, ⟨rfl, rfl⟩, h⟩
      · rintro ⟨after, ⟨rfl, rfl⟩, h⟩
        exact ⟨rfl, after, rfl, h⟩

/-- A pattern is found exactly if it matches at some place of the text. -/
theorem testFrom_iff {pattern : Pattern α κ} {prev : Option α} {text : List α} :
    testFrom inClass pattern prev text = true ↔
      ∃ before rest, text = before ++ rest ∧
        matchesAt inClass pattern (lastOf prev before) rest = true := by
  induction text generalizing prev with
  | nil =>
    constructor
    · intro h
      exact ⟨[], [], rfl, h⟩
    · rintro ⟨before, rest, heq, h⟩
      obtain ⟨rfl, rfl⟩ := List.append_eq_nil_iff.mp heq.symm
      exact h
  | cons c cs ih =>
    simp only [testFrom, Bool.or_eq_true, ih]
    constructor
    · rintro (h | ⟨before, rest, rfl, h⟩)
      · exact ⟨[], c :: cs, rfl, h⟩
      · exact ⟨c :: before, rest, rfl, h⟩
    · rintro ⟨before, rest, heq, h⟩
      cases before with
      | nil =>
        cases heq
        exact .inl h
      | cons d ds =>
        obtain ⟨rfl, rfl⟩ := List.cons.inj heq
        exact .inr ⟨ds, rest, rfl, h⟩

/-! ## Whole expressions -/

/-- The phrase occurs in the text with nothing that belongs to a word directly before or after
the occurrence. -/
def OccursAlone (inWord : α → Bool) (phrase text : List α) : Prop :=
  ∃ before after, text = before ++ phrase ++ after ∧
    (∀ c ∈ before.getLast?, inWord c = false) ∧ ∀ c ∈ after.head?, inWord c = false

omit [DecidableEq α] in
theorem free_iff {cls : κ} {side : Option α} :
    free inClass cls side = true ↔ ∀ c ∈ side, inClass cls c = false := by
  cases side with
  | none => simp [free]
  | some c => simp [free]

/-- The pattern that looks for a phrase as a whole expression. -/
def guarded (cls : κ) (phrase : List α) : Pattern α κ :=
  .notBehind cls :: (phrase.map .char ++ [.notAhead cls])

/-- **A guarded phrase is found exactly if it occurs as a whole expression.** -/
theorem test_guarded {cls : κ} {phrase text : List α} :
    test inClass (guarded cls phrase) text = true ↔ OccursAlone (inClass cls) phrase text := by
  rw [test, testFrom_iff]
  simp only [guarded, matchesAt, Bool.and_eq_true, matchesAt_chars, free_iff, and_true, lastOf_none]
  constructor
  · rintro ⟨before, rest, rfl, hbefore, after, rfl, hafter⟩
    exact ⟨before, after, by rw [List.append_assoc], hbefore, hafter⟩
  · rintro ⟨before, after, rfl, hbefore, hafter⟩
    exact ⟨before, phrase ++ after, by rw [List.append_assoc], hbefore, after, rfl, hafter⟩

end RegExp

end Feedpulse
