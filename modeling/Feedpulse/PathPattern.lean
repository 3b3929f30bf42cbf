import Mathlib.Data.List.Basic
import Mathlib.Data.List.TakeWhile

/-!
# Path patterns

A pattern is a list of segments, each a literal text or a parameter, which stands for any text
without a slash but the empty one. Two ways of reading patterns are compared: whether letters
are folded, and whether a slash is allowed at the end of a path or taken off before.
-/

namespace Feedpulse

namespace PathPattern

/-- A segment of a pattern. -/
inductive Segment
  /-- a text, letter by letter -/
  | literal (text : List Char)
  /-- some text, `[^/]+` -/
  | param
  deriving DecidableEq, Repr

/-- A literal is not empty. -/
def Segment.proper : Segment → Bool
  | literal text => !text.isEmpty
  | param => true

/-- The text is that of the literal, letter by letter. -/
def sameText (same : Char → Char → Bool) : List Char → List Char → Bool
  | [], [] => true
  | c :: cs, d :: ds => same c d && sameText same cs ds
  | _, _ => false

/-- A text that the segment stands for. -/
def Segment.accepts (same : Char → Char → Bool) : Segment → List Char → Bool
  | literal text, found => sameText same text found
  | param, found => !found.isEmpty

/-- The path is one of the pattern, with a slash at its end if that is tolerated. -/
def accepts (same : Char → Char → Bool) (trailing : Bool) : List Segment → List Char → Bool
  | [], path => path = [] || (trailing && path = ['/'])
  | _ :: _, [] => false
  | s :: ss, c :: rest =>
    c = '/' && s.accepts same (rest.takeWhile fun c => c ≠ '/') &&
      accepts same trailing ss (rest.dropWhile fun c => c ≠ '/')

/-- A letter is itself. -/
def exactly (c d : Char) : Bool := c = d

/-- Letters are folded. -/
def folded (c d : Char) : Bool := c.toLower = d.toLower

/-- The slash at the end of a path is taken off, unless it is all of it. -/
def stripSlash (path : List Char) : List Char :=
  if 1 < path.length && path.getLast? = some '/' then path.dropLast else path

variable {same same' : Char → Char → Bool}

/-! ## Segments -/

theorem sameText_mono (h : ∀ c d, same c d = true → same' c d = true) {text found : List Char}
    (ht : sameText same text found = true) : sameText same' text found = true := by
  induction text generalizing found with
  | nil =>
    cases found with
    | nil => rfl
    | cons d ds => cases ht
  | cons c cs ih =>
    cases found with
    | nil => cases ht
    | cons d ds =>
      obtain ⟨hc, hcs⟩ := Bool.and_eq_true_iff.mp ht
      exact Bool.and_eq_true_iff.mpr ⟨h c d hc, ih hcs⟩

theorem Segment.accepts_mono (h : ∀ c d, same c d = true → same' c d = true) {s : Segment}
    {found : List Char} (hs : s.accepts same found = true) : s.accepts same' found = true := by
  cases s with
  | literal text => exact sameText_mono h hs
  | param => exact hs

/-- A proper segment does not stand for the empty text. -/
theorem Segment.ne_nil_of_accepts {s : Segment} (hp : s.proper = true) {found : List Char}
    (h : s.accepts same found = true) : found ≠ [] := by
  rintro rfl
  cases s with
  | literal text =>
    cases text with
    | nil => cases hp
    | cons c cs => cases h
  | param => cases h

/-! ## Paths -/

section Paths

variable {trailing : Bool} {s : Segment} {ss : List Segment} {path : List Char}

/-- The end of a segment: nothing is left, or a slash and more. -/
def AtSlash (rest : List Char) : Prop := rest = [] ∨ ∃ cs, rest = '/' :: cs

theorem slash_not_mem_takeWhile (rest : List Char) : '/' ∉ rest.takeWhile fun c => c ≠ '/' :=
  fun h => absurd (List.mem_takeWhile_imp h) (by decide)

theorem atSlash_dropWhile (rest : List Char) : AtSlash (rest.dropWhile fun c => c ≠ '/') := by
  induction rest with
  | nil => exact .inl rfl
  | cons c rest ih =>
    by_cases hc : c = '/'
    · subst hc
      exact .inr ⟨rest, rfl⟩
    · simpa [List.dropWhile_cons, hc] using ih

/-- Reading a segment that ends with the path or at a slash. -/
theorem takeWhile_append_slash {found rest : List Char} (hfound : '/' ∉ found)
    (hrest : AtSlash rest) :
    ((found ++ rest).takeWhile fun c => c ≠ '/') = found ∧
      ((found ++ rest).dropWhile fun c => c ≠ '/') = rest := by
  have hall : ∀ c ∈ found, decide (c ≠ '/') = true :=
    fun c hc => decide_eq_true fun h => hfound (h ▸ hc)
  rw [List.takeWhile_append_of_pos hall, List.dropWhile_append_of_pos hall]
  rcases hrest with rfl | ⟨cs, rfl⟩
  · exact ⟨List.append_nil found, rfl⟩
  · exact ⟨List.append_nil found, rfl⟩

/-- **A path of a pattern** is a slash, its first segment, and a path of the others. -/
theorem accepts_cons : accepts same trailing (s :: ss) path = true ↔
    ∃ found rest, path = '/' :: (found ++ rest) ∧ '/' ∉ found ∧ AtSlash rest ∧
      s.accepts same found = true ∧ accepts same trailing ss rest = true := by
  constructor
  · intro h
    cases path with
    | nil => cases h
    | cons c rest =>
      simp only [accepts, Bool.and_eq_true, decide_eq_true_eq] at h
      obtain ⟨⟨rfl, hs⟩, hss⟩ := h
      exact ⟨_, _, by rw [List.takeWhile_append_dropWhile], slash_not_mem_takeWhile rest,
        atSlash_dropWhile rest, hs, hss⟩
  · rintro ⟨found, rest, rfl, hfound, hrest, hs, hss⟩
    obtain ⟨htake, hdrop⟩ := takeWhile_append_slash hfound hrest
    simp only [accepts, htake, hdrop, hs, hss, decide_true, Bool.and_self]

theorem accepts_mono (h : ∀ c d, same c d = true → same' c d = true)
    (hp : accepts same trailing ss path = true) : accepts same' trailing ss path = true := by
  induction ss generalizing path with
  | nil => exact hp
  | cons s ss ih =>
    obtain ⟨found, rest, hpath, hfound, hrest, hs, hss⟩ := accepts_cons.mp hp
    exact accepts_cons.mpr ⟨found, rest, hpath, hfound, hrest, s.accepts_mono h hs, ih hss⟩

theorem atSlash_of_accepts (h : accepts same trailing ss path = true) : AtSlash path := by
  cases ss with
  | nil =>
    simp only [accepts, Bool.or_eq_true, Bool.and_eq_true, decide_eq_true_eq] at h
    rcases h with rfl | ⟨-, rfl⟩
    · exact .inl rfl
    · exact .inr ⟨[], rfl⟩
  | cons s ss =>
    obtain ⟨found, rest, rfl, -⟩ := accepts_cons.mp h
    exact .inr ⟨_, rfl⟩

/-- Where a slash is tolerated, a path may have one more or not. -/
theorem accepts_trailing : accepts same true ss path = true ↔
    accepts same false ss path = true ∨
      ∃ q, path = q ++ ['/'] ∧ accepts same false ss q = true := by
  induction ss generalizing path with
  | nil => simp [accepts]
  | cons s ss ih =>
    constructor
    · intro h
      obtain ⟨found, rest, rfl, hfound, hrest, hs, hss⟩ := accepts_cons.mp h
      rcases ih.mp hss with hexact | ⟨q, rfl, hq⟩
      · exact .inl (accepts_cons.mpr ⟨found, rest, rfl, hfound, hrest, hs, hexact⟩)
      · refine .inr ⟨'/' :: (found ++ q), by simp, accepts_cons.mpr ?_⟩
        exact ⟨found, q, rfl, hfound, atSlash_of_accepts hq, hs, hq⟩
    · rintro (h | ⟨q, rfl, h⟩)
      · obtain ⟨found, rest, rfl, hfound, hrest, hs, hss⟩ := accepts_cons.mp h
        exact accepts_cons.mpr ⟨found, rest, rfl, hfound, hrest, hs, ih.mpr (.inl hss)⟩
      · obtain ⟨found, rest, rfl, hfound, hrest, hs, hss⟩ := accepts_cons.mp h
        have hslash : accepts same true ss (rest ++ ['/']) = true :=
          ih.mpr (.inr ⟨rest, rfl, hss⟩)
        exact accepts_cons.mpr ⟨found, rest ++ ['/'], by simp, hfound,
          atSlash_of_accepts hslash, hs, hslash⟩

/-- A path of proper segments does not end with a slash. -/
theorem getLast?_ne_slash (hp : ∀ s ∈ ss, Segment.proper s = true)
    (h : accepts same false ss path = true) : path.getLast? ≠ some '/' := by
  induction ss generalizing path with
  | nil =>
    simp only [accepts, Bool.false_and, Bool.or_false, decide_eq_true_eq] at h
    rw [h]
    simp
  | cons s ss ih =>
    obtain ⟨found, rest, rfl, hfound, hrest, hs, hss⟩ := accepts_cons.mp h
    have hne := s.ne_nil_of_accepts (hp s List.mem_cons_self) hs
    have hlast := ih (fun t ht => hp t (List.mem_cons_of_mem _ ht)) hss
    rw [← List.cons_append, List.getLast?_append]
    rcases hl : rest.getLast? with _ | c
    · -- the path ends with this segment
      obtain ⟨c, hc⟩ := Option.ne_none_iff_exists'.mp (mt List.getLast?_eq_none_iff.mp hne)
      rw [Option.none_or, List.getLast?_cons, hc]
      intro hslash
      obtain rfl : c = '/' := Option.some.inj hslash
      exact hfound (List.mem_of_getLast? hc)
    · rw [hl] at hlast
      exact hlast

/-- **Tolerating a slash is taking it off**, for paths with a proper segment. -/
theorem accepts_stripSlash (hp : ∀ s ∈ ss, Segment.proper s = true) (hne : ss ≠ []) :
    accepts same false ss (stripSlash path) = accepts same true ss path := by
  rw [Bool.eq_iff_iff, accepts_trailing]
  have hlong : ∀ q, accepts same false ss q = true → q ≠ [] := by
    rintro q hq rfl
    cases ss with
    | nil => exact hne rfl
    | cons s ss => cases hq
  constructor
  · intro h
    unfold stripSlash at h
    split at h
    · rename_i hslash
      simp only [Bool.and_eq_true, decide_eq_true_eq] at hslash
      exact .inr ⟨path.dropLast, (List.dropLast_append_getLast? '/' hslash.2).symm, h⟩
    · exact .inl h
  · unfold stripSlash
    rintro (h | ⟨q, rfl, h⟩)
    · rw [if_neg]
      · exact h
      · simp only [Bool.and_eq_true, decide_eq_true_eq, not_and]
        exact fun _ => getLast?_ne_slash hp h
    · rw [if_pos]
      · rw [List.dropLast_concat]
        exact h
      · have hpos : 0 < q.length := List.length_pos_iff.mpr (hlong q h)
        simp only [List.length_append, List.length_singleton, List.getLast?_append,
          List.getLast?_singleton, Bool.and_eq_true, decide_eq_true_eq]
        exact ⟨by omega, rfl⟩

/-! ## Overlapping patterns -/

/-- Two patterns with a path in common, as far as their literals tell. -/
def overlap (same : Char → Char → Bool) : List Segment → List Segment → Bool
  | [], [] => true
  | .literal text :: ss, .literal text' :: ss' => sameText same text text' && overlap same ss ss'
  | _ :: ss, _ :: ss' => overlap same ss ss'
  | _, _ => false

theorem sameText_euclidean (h : ∀ c d e, same c e = true → same d e = true → same c d = true)
    {text text' found : List Char} (ht : sameText same text found = true)
    (ht' : sameText same text' found = true) : sameText same text text' = true := by
  induction text generalizing text' found with
  | nil =>
    cases found with
    | nil =>
      cases text' with
      | nil => rfl
      | cons d ds => cases ht'
    | cons e es => cases ht
  | cons c cs ih =>
    cases found with
    | nil => cases ht
    | cons e es =>
      cases text' with
      | nil => cases ht'
      | cons d ds =>
        obtain ⟨hc, hcs⟩ := Bool.and_eq_true_iff.mp ht
        obtain ⟨hd, hds⟩ := Bool.and_eq_true_iff.mp ht'
        exact Bool.and_eq_true_iff.mpr ⟨h c d e hc hd, ih hcs hds⟩

/-- Nothing is left where a proper segment begins. -/
theorem not_accepts_end (hp : Segment.proper s = true)
    (h : accepts same trailing [] path = true) : accepts same' trailing (s :: ss) path = false := by
  rw [← Bool.not_eq_true]
  intro hcons
  obtain ⟨found, rest, rfl, -, -, hs, -⟩ := accepts_cons.mp hcons
  simp only [accepts, Bool.or_eq_true, Bool.and_eq_true, decide_eq_true_eq, List.cons.injEq,
    List.append_eq_nil_iff, reduceCtorEq, false_or, true_and] at h
  exact s.ne_nil_of_accepts hp hs h.2.1

/-- Patterns with a path in common overlap. -/
theorem overlap_of_accepts (h : ∀ c d e, same c e = true → same d e = true → same c d = true)
    {ss' : List Segment} (hp : ∀ s ∈ ss, Segment.proper s = true)
    (hp' : ∀ s ∈ ss', Segment.proper s = true) (hs : accepts same trailing ss path = true)
    (hs' : accepts same trailing ss' path = true) : overlap same ss ss' = true := by
  induction ss generalizing ss' path with
  | nil =>
    cases ss' with
    | nil => rfl
    | cons s' ss' =>
      rw [not_accepts_end (hp' s' List.mem_cons_self) hs] at hs'
      cases hs'
  | cons s ss ih =>
    cases ss' with
    | nil =>
      rw [not_accepts_end (hp s List.mem_cons_self) hs'] at hs
      cases hs
    | cons s' ss' =>
      cases path with
      | nil => cases hs
      | cons c rest =>
        simp only [accepts, Bool.and_eq_true] at hs hs'
        have hrest := ih (fun t ht => hp t (List.mem_cons_of_mem _ ht))
          (fun t ht => hp' t (List.mem_cons_of_mem _ ht)) hs.2 hs'.2
        cases s with
        | param => exact hrest
        | literal text =>
          cases s' with
          | param => exact hrest
          | literal text' =>
            exact Bool.and_eq_true_iff.mpr
              ⟨sameText_euclidean h hs.1.2 hs'.1.2, hrest⟩

end Paths

end PathPattern

end Feedpulse
