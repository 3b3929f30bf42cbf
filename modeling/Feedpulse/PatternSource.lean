import Feedpulse.RegExp
import Feedpulse.Text

/-!
# Patterns as `new RegExp(source, 'u')` reads them

The part of the grammar that escaped text and the guards around it need. Under the `u` flag a
syntax character never stands for itself without a backslash, and a backslash is an error before
anything that need not be escaped; whatever else the grammar has is not read here.
-/

namespace Feedpulse

namespace RegExp

/-- The characters with a meaning of their own: `SyntaxCharacter`. -/
def syntaxCharacters : List Char :=
  ['^', '$', '\\', '.', '*', '+', '?', '(', ')', '[', ']', '{', '}', '|']

/-- The one class that is read: `[\p{L}\p{N}]`. -/
inductive WordClass where
  /-- letters and digits -/
  | letterOrNumber
  deriving DecidableEq, Repr

/-- The source of a negative lookbehind. -/
def notBehindSource : List Char := "(?<![\\p{L}\\p{N}])".toList

/-- The source of a negative lookahead. -/
def notAheadSource : List Char := "(?![\\p{L}\\p{N}])".toList

/-- The pattern with this source, unless it is an error or not in the fragment. -/
def parse : List Char → Option (Pattern Char WordClass)
  | [] => some []
  | c :: cs =>
    if Text.startsWith (c :: cs) notBehindSource then
      (parse (cs.drop (notBehindSource.length - 1))).map (.notBehind .letterOrNumber :: ·)
    else if Text.startsWith (c :: cs) notAheadSource then
      (parse (cs.drop (notAheadSource.length - 1))).map (.notAhead .letterOrNumber :: ·)
    else if c = '\\' then
      match cs with
      | [] => none
      | d :: ds =>
        if d ∈ syntaxCharacters ∨ d = '/' then (parse ds).map (.char d :: ·) else none
    else if c ∈ syntaxCharacters then none
    else (parse cs).map (.char c :: ·)
termination_by cs => cs.length
decreasing_by
  all_goals simp only [List.length_cons, List.length_drop]; omega

theorem parse_cons (c : Char) (cs : List Char) :
    parse (c :: cs)
      = if Text.startsWith (c :: cs) notBehindSource then
          (parse (cs.drop (notBehindSource.length - 1))).map (.notBehind .letterOrNumber :: ·)
        else if Text.startsWith (c :: cs) notAheadSource then
          (parse (cs.drop (notAheadSource.length - 1))).map (.notAhead .letterOrNumber :: ·)
        else if c = '\\' then
          match cs with
          | [] => none
          | d :: ds =>
            if d ∈ syntaxCharacters ∨ d = '/' then (parse ds).map (.char d :: ·) else none
        else if c ∈ syntaxCharacters then none
        else (parse cs).map (.char c :: ·) := by
  rw [parse.eq_def]

/-! ## Guards -/

theorem append_source {source : List Char} {c : Char} {rest cs : List Char}
    (h : source = c :: rest) : source ++ cs = c :: (rest ++ cs) := by
  rw [h, List.cons_append]

/-- What follows a source is left when the source is dropped. -/
theorem drop_source {source : List Char} {c : Char} {rest cs : List Char}
    (h : source = c :: rest) : (rest ++ cs).drop (source.length - 1) = cs := by
  subst h
  simp

theorem parse_notBehind (cs : List Char) :
    parse (notBehindSource ++ cs) = (parse cs).map (.notBehind .letterOrNumber :: ·) := by
  have hsource : notBehindSource = '(' :: notBehindSource.drop 1 := by decide
  have hstart : Text.startsWith (notBehindSource ++ cs) notBehindSource = true :=
    Text.startsWith_iff.mpr (List.prefix_append _ _)
  have hlist : notBehindSource ++ cs = '(' :: (notBehindSource.drop 1 ++ cs) :=
    append_source hsource
  rw [hlist] at hstart ⊢
  rw [parse_cons, if_pos hstart, drop_source hsource]

theorem parse_notAhead (cs : List Char) :
    parse (notAheadSource ++ cs) = (parse cs).map (.notAhead .letterOrNumber :: ·) := by
  have hsource : notAheadSource = '(' :: notAheadSource.drop 1 := by decide
  have hstart : Text.startsWith (notAheadSource ++ cs) notAheadSource = true :=
    Text.startsWith_iff.mpr (List.prefix_append _ _)
  have hlist : notAheadSource ++ cs = '(' :: (notAheadSource.drop 1 ++ cs) :=
    append_source hsource
  -- the two lookarounds differ in their third character
  have hother : ¬Text.startsWith (notAheadSource ++ cs) notBehindSource = true := by
    intro h
    obtain ⟨rest, h⟩ := Text.startsWith_iff.mp h
    have hthird : ∀ {source rest : List Char}, 2 < source.length →
        (source ++ rest)[2]? = source[2]? := fun hlength => List.getElem?_append_left hlength
    have h := congrArg (fun text : List Char => text[2]?) h
    rw [hthird (by decide), hthird (by decide +kernel)] at h
    exact absurd h (by decide)
  rw [hlist] at hstart hother ⊢
  rw [parse_cons, if_neg hother, if_pos hstart, drop_source hsource]

/-! ## Escaped text -/

/-- Neither guard begins with this character. -/
theorem startsWith_guard {c : Char} {cs source : List Char} (h : c ≠ '(')
    (hsource : source.head? = some '(') : ¬Text.startsWith (c :: cs) source = true := by
  cases source with
  | nil => cases hsource
  | cons d ds =>
    cases hsource
    simp [Text.startsWith, h]

theorem parse_cons_of_ne {c : Char} (h : c ≠ '(') (cs : List Char) :
    parse (c :: cs)
      = if c = '\\' then
          match cs with
          | [] => none
          | d :: ds =>
            if d ∈ syntaxCharacters ∨ d = '/' then (parse ds).map (.char d :: ·) else none
        else if c ∈ syntaxCharacters then none
        else (parse cs).map (.char c :: ·) := by
  rw [parse_cons, if_neg (startsWith_guard h (by decide)),
    if_neg (startsWith_guard h (by decide))]

/-- A backslash makes a syntax character stand for itself. -/
theorem parse_escape {c : Char} (h : c ∈ syntaxCharacters) (cs : List Char) :
    parse ('\\' :: c :: cs) = (parse cs).map (.char c :: ·) := by
  rw [parse_cons_of_ne (by decide)]
  simp [h]

/-- Any other character stands for itself without one. -/
theorem parse_plain {c : Char} (h : c ∉ syntaxCharacters) (cs : List Char) :
    parse (c :: cs) = (parse cs).map (.char c :: ·) := by
  have hparen : c ≠ '(' := by
    rintro rfl
    exact h (by decide)
  have hbackslash : c ≠ '\\' := by
    rintro rfl
    exact h (by decide)
  rw [parse_cons_of_ne hparen, if_neg hbackslash, if_neg h]

/-- **Text whose syntax characters have backslashes is read as that text.** -/
theorem parse_escaped (text rest : List Char) :
    parse (text.flatMap (fun c => if c ∈ syntaxCharacters then ['\\', c] else [c]) ++ rest)
      = (parse rest).map (text.map .char ++ ·) := by
  induction text with
  | nil => simp
  | cons c cs ih =>
    rw [List.flatMap_cons, List.append_assoc]
    by_cases h : c ∈ syntaxCharacters
    · rw [if_pos h, List.cons_append, List.singleton_append, parse_escape h, ih, Option.map_map]
      rfl
    · rw [if_neg h, List.singleton_append, parse_plain h, ih, Option.map_map]
      rfl

end RegExp

end Feedpulse
