import Mathlib.Data.List.Basic

/-!
# Patterns of repeated classes

The fragment of regular expressions that needs no nesting: classes of characters in a row, each
once, at most once or any number of times, and the lookahead that forbids a class. Repetitions
are greedy and give characters back, the last one first, when what follows does not match. A
match keeps what every piece has consumed, so that a group is a piece or several in a row.
-/

namespace Feedpulse

universe u

/-- A piece of a pattern. -/
inductive Piece (α : Type u) where
  /-- a character of the class -/
  | one (cls : α → Bool)
  /-- at most one character of the class -/
  | opt (cls : α → Bool)
  /-- characters of the class -/
  | many (cls : α → Bool)
  /-- `(?!…)`: no character of the class directly after -/
  | notAhead (cls : α → Bool)

namespace Piece

variable {α : Type u}

/-- `a+` -/
def plus (cls : α → Bool) : List (Piece α) := [.one cls, .many cls]

/-- What a match has consumed, one text a piece, and what is left. -/
abbrev Match (α : Type u) := List (List α) × List α

/-- What a piece has consumed, in front of the match of those after it. -/
def keep (consumed : List α) (m : Match α) : Match α := (consumed :: m.1, m.2)

/-- As many characters of the class as possible, so that the rest still matches. -/
def greedy (next : List α → Option (Match α)) (cls : α → Bool) : List α → Option (Match α)
  | [] => (next []).map (keep [])
  | c :: cs =>
    if cls c then
      ((greedy next cls cs).map fun m => (m.1.modifyHead (c :: ·), m.2)).or
        ((next (c :: cs)).map (keep []))
    else (next (c :: cs)).map (keep [])

/-- The pattern matches at the beginning of the text. -/
def matchHere : List (Piece α) → List α → Option (Match α)
  | [], text => some ([], text)
  | .one _ :: _, [] => none
  | .one cls :: pieces, c :: cs => if cls c then (matchHere pieces cs).map (keep [c]) else none
  | .opt _ :: pieces, [] => (matchHere pieces []).map (keep [])
  | .opt cls :: pieces, c :: cs =>
    if cls c then
      ((matchHere pieces cs).map (keep [c])).or ((matchHere pieces (c :: cs)).map (keep []))
    else (matchHere pieces (c :: cs)).map (keep [])
  | .many cls :: pieces, text => greedy (matchHere pieces) cls text
  | .notAhead cls :: pieces, text =>
    if text.head?.any cls then none else (matchHere pieces text).map (keep [])

/-- `pattern.exec(text)`: the first match in the text. -/
def find (pattern : List (Piece α)) : List α → Option (Match α)
  | [] => matchHere pattern []
  | c :: cs => (matchHere pattern (c :: cs)).or (find pattern cs)

/-- All matches in the text, each after the one before, where `here` matches at the beginning of
a text and never without consuming a character. The number is of characters to skip. -/
def allMatches (here : List α → Option (Match α)) : Nat → List α → List (Match α)
  | _, [] => []
  | skip + 1, _ :: cs => allMatches here skip cs
  | 0, c :: cs =>
    match here (c :: cs) with
    | none => allMatches here 0 cs
    | some m => m :: allMatches here (m.1.flatten.length - 1) cs

/-! ## Repetitions -/

variable {next : List α → Option (Match α)} {cls : α → Bool} {xs rest : List α} {m : Match α}

/-- A repetition takes all it can, if the rest matches after it. -/
theorem greedy_append (hxs : ∀ x ∈ xs, cls x = true) (hrest : ∀ c ∈ rest.head?, cls c = false)
    (hnext : next rest = some m) : greedy next cls (xs ++ rest) = some (keep xs m) := by
  induction xs with
  | nil =>
    cases rest with
    | nil => rw [List.nil_append, greedy, hnext, Option.map_some]
    | cons c cs =>
      rw [List.nil_append, greedy, if_neg (by simp [hrest c rfl]), hnext, Option.map_some]
  | cons x xs ih =>
    rw [List.cons_append, greedy, if_pos (hxs x List.mem_cons_self),
      ih fun y hy => hxs y (List.mem_cons_of_mem x hy)]
    rfl

/-- A repetition does not match if the rest matches after none of the characters it may take. -/
theorem greedy_eq_none (hrest : ∀ c ∈ rest.head?, cls c = false)
    (hnext : ∀ ys zs, xs = ys ++ zs → next (zs ++ rest) = none) :
    greedy next cls (xs ++ rest) = none := by
  induction xs with
  | nil =>
    have hnone := hnext [] [] rfl
    rw [List.nil_append] at hnone ⊢
    cases rest with
    | nil => rw [greedy, hnone, Option.map_none]
    | cons c cs => rw [greedy, if_neg (by simp [hrest c rfl]), hnone, Option.map_none]
  | cons x xs ih =>
    have hnone := hnext [] (x :: xs) rfl
    have hlater := ih fun ys zs hsplit => hnext (x :: ys) zs (by rw [hsplit, List.cons_append])
    rw [List.cons_append] at hnone ⊢
    rw [greedy, hlater, hnone]
    split <;> rfl

/-! ## All matches -/

variable {here : List α → Option (Match α)}

theorem allMatches_skip : allMatches here xs.length (xs ++ rest) = allMatches here 0 rest := by
  induction xs with
  | nil => rfl
  | cons x xs ih => exact ih

/-- What is matched is skipped. -/
theorem allMatches_append (hxs : xs ≠ []) (hm : m.1.flatten = xs)
    (hhere : here (xs ++ rest) = some m) :
    allMatches here 0 (xs ++ rest) = m :: allMatches here 0 rest := by
  obtain ⟨x, xs, rfl⟩ := List.exists_cons_of_ne_nil hxs
  rw [List.cons_append] at hhere ⊢
  rw [allMatches, hhere]
  refine congrArg (m :: ·) ?_
  rw [hm, List.length_cons, Nat.add_sub_cancel]
  exact allMatches_skip

/-- What no match begins with is passed over. -/
theorem allMatches_pass (hhere : ∀ c ∈ xs, ∀ cs, here (c :: cs) = none) :
    allMatches here 0 (xs ++ rest) = allMatches here 0 rest := by
  induction xs with
  | nil => rfl
  | cons x xs ih =>
    rw [List.cons_append, allMatches, hhere x List.mem_cons_self]
    exact ih fun c hc => hhere c (List.mem_cons_of_mem x hc)

end Piece

/-! ## Replacing a text -/

section Replace

variable {α : Type u} [DecidableEq α]

/-- `text.replace(/part/g, by)` for a part that is nonempty. The number is of characters to
skip. -/
def replaceAll (part subst : List α) : Nat → List α → List α
  | _, [] => []
  | skip + 1, _ :: cs => replaceAll part subst skip cs
  | 0, c :: cs =>
    if part.isPrefixOf (c :: cs) then subst ++ replaceAll part subst (part.length - 1) cs
    else c :: replaceAll part subst 0 cs

variable {x : α} {part subst xs rest : List α}

theorem replaceAll_skip : replaceAll part subst xs.length (xs ++ rest)
    = replaceAll part subst 0 rest := by
  induction xs with
  | nil => rfl
  | cons y xs ih => exact ih

/-- The part is replaced. -/
theorem replaceAll_part :
    replaceAll (x :: part) subst 0 (x :: part ++ rest)
      = subst ++ replaceAll (x :: part) subst 0 rest := by
  have hprefix : (x :: part).isPrefixOf (x :: part ++ rest) = true :=
    List.isPrefixOf_iff_prefix.mpr (List.prefix_append _ _)
  rw [List.cons_append] at hprefix ⊢
  rw [replaceAll, if_pos hprefix, List.length_cons, Nat.add_sub_cancel, replaceAll_skip]

/-- What does not begin the part is left alone. -/
theorem replaceAll_pass (hxs : x ∉ xs) :
    replaceAll (x :: part) subst 0 (xs ++ rest)
      = xs ++ replaceAll (x :: part) subst 0 rest := by
  induction xs with
  | nil => rfl
  | cons y xs ih =>
    have hne : x ≠ y := fun heq => hxs (heq ▸ List.mem_cons_self)
    rw [List.cons_append, replaceAll, if_neg, ih fun hmem => hxs (List.mem_cons_of_mem y hmem),
      List.cons_append]
    simp [List.isPrefixOf, hne]

end Replace

end Feedpulse
