import Feedpulse.KeywordMatch
import Feedpulse.PatternSource

/-!
# The memo of compiled keywords

The matcher of classification rules as the source computes it: a keyword is normalised, escaped
and compiled, and what was compiled is kept in a memo until the memo is full. Whatever the memo
holds by then, a rule matches exactly if an include keyword occurs as a whole expression and no
exclude keyword does.
-/

namespace Feedpulse

namespace KeywordMatch

/-! ## Patterns -/

/-- `escapeRegExp`: the characters of `/[.*+?^${}()|[\]\\]/g` get a backslash. -/
def escapeRegExp (value : List Char) : List Char :=
  value.flatMap fun c =>
    if c ∈ ['.', '*', '+', '?', '^', '$', '{', '}', '(', ')', '|', '[', ']', '\\'] then ['\\', c]
    else [c]

/-- A compiled pattern. -/
abbrev PhrasePattern := RegExp.Pattern Char RegExp.WordClass

/-- The source of the pattern for a phrase. -/
def phraseSource (normalizedPhrase : String) : List Char :=
  RegExp.notBehindSource ++ (escapeRegExp normalizedPhrase.toList ++ RegExp.notAheadSource)

/-- What the memo keeps for a phrase: nothing for the empty one, else the pattern. -/
def compilePhrase (normalizedPhrase : String) : Except String (Option PhrasePattern) :=
  if normalizedPhrase ≠ "" then
    match RegExp.parse (phraseSource normalizedPhrase) with
    | some pattern => .ok (some pattern)
    | none => .error "Invalid regular expression"
  else .ok none

/-! ## The memo -/

/-- `MAX_COMPILED_PHRASE_PATTERNS`. -/
def maxCompiledPhrasePatterns : Nat := 5000

/-- `compiledPhrasePatterns`. -/
structure PhraseMemo where
  /-- what is kept for each phrase, in insertion order -/
  entries : List (String × Option PhrasePattern)
  deriving DecidableEq, Repr

namespace PhraseMemo

/-- A memo without entries. -/
def empty : PhraseMemo := { entries := [] }

/-- `compiledPhrasePatterns.size`. -/
def size (memo : PhraseMemo) : Nat := memo.entries.length

/-- `compiledPhrasePatterns.get(phrase)`. -/
def get (memo : PhraseMemo) (phrase : String) : Option (Option PhrasePattern) :=
  (memo.entries.find? fun entry => decide (entry.1 = phrase)).map Prod.snd

/-- `compiledPhrasePatterns.set(phrase, compiled)`: a key that is there keeps its place. -/
def set (memo : PhraseMemo) (phrase : String) (compiled : Option PhrasePattern) : PhraseMemo :=
  if memo.entries.any fun entry => decide (entry.1 = phrase) then
    { entries := memo.entries.map fun entry =>
        if entry.1 = phrase then (phrase, compiled) else entry }
  else { entries := memo.entries ++ [(phrase, compiled)] }

end PhraseMemo

/-! ## Matching -/

/-- A rule's keyword lists: `KeywordRule`. -/
structure KeywordRule where
  /-- one of these has to occur -/
  includeKeywords : List String
  /-- none of these may -/
  excludeKeywords : List String
  deriving DecidableEq, Repr

/-- A function that may read and write the memo and may throw. -/
abbrev Memoized (α : Type) := PhraseMemo → Except String α × PhraseMemo

variable (rt : Runtime)

/-- The class of a lookaround. -/
def inWordClass : RegExp.WordClass → Char → Bool
  | .letterOrNumber => rt.isLetterOrNumber

/-- `phrasePattern`. -/
def phrasePattern (keyword : String) : Memoized (Option PhrasePattern) := fun memo =>
  let normalizedPhrase := normalizeSearchText rt keyword
  match memo.get normalizedPhrase with
  | some cached => (.ok cached, memo)
  | none =>
    match compilePhrase normalizedPhrase with
    | .error message => (.error message, memo)
    | .ok compiled =>
      let memo := if maxCompiledPhrasePatterns ≤ memo.size then .empty else memo
      (.ok compiled, memo.set normalizedPhrase compiled)

/-- `keywordMatches`, with the memo. -/
def keywordMatchesMemo (normalizedHaystack keyword : String) : Memoized Bool := fun memo =>
  match phrasePattern rt keyword memo with
  | (.error message, memo) => (.error message, memo)
  | (.ok none, memo) => (.ok false, memo)
  | (.ok (some pattern), memo) =>
    (.ok (RegExp.test (inWordClass rt) pattern normalizedHaystack.toList), memo)

/-- `keywords.some((keyword) => keywordMatches(normalizedHaystack, keyword))`. -/
def someKeywordMatches (normalizedHaystack : String) : List String → Memoized Bool
  | [], memo => (.ok false, memo)
  | keyword :: keywords, memo =>
    match keywordMatchesMemo rt normalizedHaystack keyword memo with
    | (.error message, memo) => (.error message, memo)
    | (.ok true, memo) => (.ok true, memo)
    | (.ok false, memo) => someKeywordMatches normalizedHaystack keywords memo

/-- `ruleMatchesNormalizedText`, with the memo. -/
def ruleMatchesMemo (normalizedHaystack : String) (rule : KeywordRule) : Memoized Bool :=
  fun memo =>
    match someKeywordMatches rt normalizedHaystack rule.includeKeywords memo with
    | (.error message, memo) => (.error message, memo)
    | (.ok false, memo) => (.ok false, memo)
    | (.ok true, memo) =>
      match someKeywordMatches rt normalizedHaystack rule.excludeKeywords memo with
      | (.error message, memo) => (.error message, memo)
      | (.ok excluded, memo) => (.ok !excluded, memo)

/-- `entryMatchesRule`. -/
def entryMatchesRule (text : String) (rule : KeywordRule) : Memoized Bool :=
  ruleMatchesMemo rt (normalizeSearchText rt text) rule

/-- A call of one of the exported functions. -/
inductive MatchCall where
  /-- `keywordMatches` -/
  | keywordMatches (normalizedHaystack keyword : String)
  /-- `ruleMatchesNormalizedText` -/
  | ruleMatchesNormalizedText (normalizedHaystack : String) (rule : KeywordRule)
  /-- `entryMatchesRule` -/
  | entryMatchesRule (text : String) (rule : KeywordRule)
  deriving DecidableEq, Repr

/-- What a call makes of the memo. -/
def MatchCall.memoAfter : MatchCall → PhraseMemo → PhraseMemo
  | .keywordMatches haystack keyword, memo => (keywordMatchesMemo rt haystack keyword memo).2
  | .ruleMatchesNormalizedText haystack rule, memo => (ruleMatchesMemo rt haystack rule memo).2
  | .entryMatchesRule text rule, memo => (KeywordMatch.entryMatchesRule rt text rule memo).2

/-- The memo of a process after some calls. -/
def memoAfter (calls : List MatchCall) : PhraseMemo :=
  calls.foldl (fun memo call => call.memoAfter rt memo) .empty

/-! ## What the memo holds -/

theorem escapeRegExp_eq (value : List Char) :
    escapeRegExp value
      = value.flatMap fun c => if c ∈ RegExp.syntaxCharacters then ['\\', c] else [c] := by
  have hsame : ∀ c : Char,
      c ∈ ['.', '*', '+', '?', '^', '$', '{', '}', '(', ')', '|', '[', ']', '\\'] ↔
        c ∈ RegExp.syntaxCharacters := by
    intro c
    exact ⟨fun h => List.Subset.trans (by decide) (List.Subset.refl _) h,
      fun h => List.Subset.trans (by decide) (List.Subset.refl _) h⟩
  simp only [escapeRegExp, hsame]

/-- **Escaping is complete.** Every phrase compiles, to the pattern that looks for this phrase
between guards. -/
theorem parse_phraseSource (normalizedPhrase : String) :
    RegExp.parse (phraseSource normalizedPhrase)
      = some (RegExp.guarded .letterOrNumber normalizedPhrase.toList) := by
  have hahead : RegExp.parse RegExp.notAheadSource = some [.notAhead .letterOrNumber] := by
    have h := RegExp.parse_notAhead []
    rwa [List.append_nil, RegExp.parse] at h
  rw [phraseSource, RegExp.parse_notBehind, escapeRegExp_eq, RegExp.parse_escaped, hahead]
  rfl

/-- The pattern of a phrase. -/
def patternOf (normalizedPhrase : String) : Option PhrasePattern :=
  if normalizedPhrase ≠ "" then
    some (RegExp.guarded .letterOrNumber normalizedPhrase.toList)
  else none

theorem compilePhrase_eq (normalizedPhrase : String) :
    compilePhrase normalizedPhrase = .ok (patternOf normalizedPhrase) := by
  simp only [compilePhrase, patternOf, parse_phraseSource]
  split <;> rfl

/-- The invariant of the memo: it holds the pattern of each of its phrases, and it is bounded. -/
structure PhraseMemo.Sound (memo : PhraseMemo) : Prop where
  /-- what is kept for a phrase is its pattern -/
  compiled : ∀ entry ∈ memo.entries, entry.2 = patternOf entry.1
  /-- there are no more entries than the limit -/
  bounded : memo.size ≤ maxCompiledPhrasePatterns

theorem PhraseMemo.sound_empty : PhraseMemo.empty.Sound :=
  ⟨fun _ h => (List.not_mem_nil h).elim, Nat.zero_le _⟩

/-- A hit is the pattern of the phrase. -/
theorem PhraseMemo.Sound.get {memo : PhraseMemo} (h : memo.Sound) {phrase : String}
    {cached : Option PhrasePattern} (hget : memo.get phrase = some cached) :
    cached = patternOf phrase := by
  obtain ⟨entry, hfind, rfl⟩ := Option.map_eq_some_iff.mp hget
  have hphrase := List.find?_some hfind
  rw [decide_eq_true_eq] at hphrase
  rw [← hphrase]
  exact h.compiled entry (List.mem_of_find?_eq_some hfind)

/-- After a miss the pattern is added. -/
theorem PhraseMemo.Sound.set {memo : PhraseMemo} (h : memo.Sound) {phrase : String}
    (hget : memo.get phrase = none) (hroom : memo.size < maxCompiledPhrasePatterns) :
    (memo.set phrase (patternOf phrase)).Sound := by
  have habsent : ¬(memo.entries.any fun entry => decide (entry.1 = phrase)) = true := by
    have hfind := List.find?_eq_none.mp (Option.map_eq_none_iff.mp hget)
    intro hany
    obtain ⟨entry, hmem, heq⟩ := List.any_eq_true.mp hany
    exact hfind entry hmem heq
  rw [PhraseMemo.set, if_neg habsent]
  refine ⟨?_, ?_⟩
  · intro entry hmem
    rcases List.mem_append.mp hmem with hmem | hmem
    · exact h.compiled entry hmem
    · rw [List.mem_singleton.mp hmem]
  · rw [PhraseMemo.size, List.length_append, List.length_singleton]
    exact hroom

variable {rt}

/-- A function returns this value and leaves a sound memo, whatever sound memo it finds. -/
def Memoized.Returns {α : Type} (f : Memoized α) (value : α) : Prop :=
  ∀ memo : PhraseMemo, memo.Sound → ∃ memo' : PhraseMemo, f memo = (.ok value, memo') ∧ memo'.Sound

theorem phrasePattern_returns (keyword : String) :
    (phrasePattern rt keyword).Returns (patternOf (normalizeSearchText rt keyword)) := by
  intro memo h
  simp only [phrasePattern]
  rcases hget : memo.get (normalizeSearchText rt keyword) with _ | cached
  · rw [compilePhrase_eq]
    refine ⟨_, rfl, ?_⟩
    split
    · exact PhraseMemo.sound_empty.set rfl (by decide)
    · exact h.set hget (by omega)
  · exact ⟨memo, by rw [h.get hget], h⟩

/-! ## Matching, with and without the memo -/

/-- The matcher without the memo looks for a whole expression. -/
theorem containsPhrase_iff {phrase : List Char} (hphrase : phrase ≠ []) {prev : Option Char}
    {text : List Char} :
    containsPhrase rt phrase prev text = true ↔
      ∃ before after, text = before ++ phrase ++ after ∧
        boundary rt (RegExp.lastOf prev before) = true ∧ boundary rt after.head? = true := by
  induction text generalizing prev with
  | nil =>
    constructor
    · intro h
      cases h
    · rintro ⟨before, after, heq, -⟩
      have hnil := (List.append_eq_nil_iff.mp (List.append_eq_nil_iff.mp heq.symm).1).2
      exact absurd hnil hphrase
  | cons c cs ih =>
    simp only [containsPhrase, Bool.or_eq_true, Bool.and_eq_true, ih]
    constructor
    · rintro (⟨⟨hbefore, hstart⟩, hafter⟩ | ⟨before, after, rfl, hbefore, hafter⟩)
      · obtain ⟨after, heq⟩ := Text.startsWith_iff.mp hstart
        rw [← heq, List.drop_left] at hafter
        exact ⟨[], after, heq.symm, hbefore, hafter⟩
      · exact ⟨c :: before, after, rfl, hbefore, hafter⟩
    · rintro ⟨before, after, heq, hbefore, hafter⟩
      cases before with
      | nil =>
        rw [heq]
        refine .inl ⟨⟨hbefore, Text.startsWith_iff.mpr (List.prefix_append _ _)⟩, ?_⟩
        rw [List.nil_append, List.drop_left]
        exact hafter
      | cons d ds =>
        obtain ⟨rfl, rfl⟩ := List.cons.inj heq
        exact .inr ⟨ds, after, rfl, hbefore, hafter⟩

theorem boundary_iff {side : Option Char} :
    boundary rt side = true ↔ ∀ c ∈ side, rt.isLetterOrNumber c = false := by
  cases side with
  | none => simp [boundary]
  | some c => simp [boundary]

/-- The keyword occurs in the text: it has a phrase, and the phrase occurs there as a whole
expression. -/
def Occurs (rt : Runtime) (keyword normalizedText : String) : Prop :=
  normalizeSearchText rt keyword ≠ "" ∧
    RegExp.OccursAlone rt.isLetterOrNumber (normalizeSearchText rt keyword).toList
      normalizedText.toList

/-- The matcher without the memo finds exactly the keywords that occur. -/
theorem keywordMatches_iff {normalizedHaystack keyword : String} :
    keywordMatches rt normalizedHaystack keyword = true ↔
      Occurs rt keyword normalizedHaystack := by
  have hempty : (normalizeSearchText rt keyword).toList = [] ↔
      normalizeSearchText rt keyword = "" := String.toList_eq_nil_iff
  simp only [keywordMatches, Occurs, Bool.and_eq_true, Bool.not_eq_true', List.isEmpty_eq_false_iff,
    ne_eq, hempty]
  refine and_congr_right fun hphrase => ?_
  rw [containsPhrase_iff (fun h => hphrase (hempty.mp h))]
  simp only [RegExp.lastOf_none, boundary_iff, RegExp.OccursAlone]

/-- The matcher with the memo returns what the one without it does. -/
theorem keywordMatchesMemo_returns (normalizedHaystack keyword : String) :
    (keywordMatchesMemo rt normalizedHaystack keyword).Returns
      (keywordMatches rt normalizedHaystack keyword) := by
  intro memo h
  have hpattern : (phrasePattern rt keyword).Returns (patternOf (normalizeSearchText rt keyword)) :=
    phrasePattern_returns keyword
  obtain ⟨memo', heq, h'⟩ := hpattern memo h
  refine ⟨memo', ?_, h'⟩
  have hiff : keywordMatches rt normalizedHaystack keyword = true ↔
      Occurs rt keyword normalizedHaystack := keywordMatches_iff
  simp only [keywordMatchesMemo, heq, patternOf]
  by_cases hphrase : normalizeSearchText rt keyword = ""
  · rw [if_neg (not_not_intro hphrase), Bool.eq_false_iff.mpr fun hm => (hiff.mp hm).1 hphrase]
  · rw [if_pos hphrase]
    have hsame : RegExp.test (inWordClass rt)
        (RegExp.guarded .letterOrNumber (normalizeSearchText rt keyword).toList)
          normalizedHaystack.toList = keywordMatches rt normalizedHaystack keyword := by
      rw [Bool.eq_iff_iff, hiff, RegExp.test_guarded]
      exact ⟨fun halone => ⟨hphrase, halone⟩, fun hoccurs => hoccurs.2⟩
    exact congrArg (fun found => (Except.ok found, memo')) hsame

theorem someKeywordMatches_returns (normalizedHaystack : String) (keywords : List String) :
    (someKeywordMatches rt normalizedHaystack keywords).Returns
      (keywords.any (keywordMatches rt normalizedHaystack)) := by
  induction keywords with
  | nil =>
    intro memo h
    exact ⟨memo, rfl, h⟩
  | cons keyword keywords ih =>
    intro memo h
    have hfirst : (keywordMatchesMemo rt normalizedHaystack keyword).Returns _ :=
      keywordMatchesMemo_returns normalizedHaystack keyword
    obtain ⟨memo₁, heq, h₁⟩ := hfirst memo h
    simp only [someKeywordMatches, heq, List.any_cons]
    rcases keywordMatches rt normalizedHaystack keyword with _ | _
    · simpa only [Bool.false_or] using ih memo₁ h₁
    · exact ⟨memo₁, rfl, h₁⟩

theorem ruleMatchesMemo_returns (normalizedHaystack : String) (rule : KeywordRule) :
    (ruleMatchesMemo rt normalizedHaystack rule).Returns
      (ruleMatchesNormalizedText rt normalizedHaystack rule.includeKeywords
        rule.excludeKeywords) := by
  intro memo h
  have hsome : ∀ keywords, (someKeywordMatches rt normalizedHaystack keywords).Returns
      (keywords.any (keywordMatches rt normalizedHaystack)) :=
    someKeywordMatches_returns normalizedHaystack
  obtain ⟨memo₁, heq₁, h₁⟩ := hsome rule.includeKeywords memo h
  simp only [ruleMatchesMemo, heq₁, ruleMatchesNormalizedText]
  rcases rule.includeKeywords.any (keywordMatches rt normalizedHaystack) with _ | _
  · exact ⟨memo₁, rfl, h₁⟩
  · obtain ⟨memo₂, heq₂, h₂⟩ := hsome rule.excludeKeywords memo₁ h₁
    simp only [heq₂, Bool.true_and]
    exact ⟨memo₂, rfl, h₂⟩

/-- A call keeps the memo sound. -/
theorem MatchCall.sound_memoAfter (call : MatchCall) {memo : PhraseMemo} (h : memo.Sound) :
    (call.memoAfter rt memo).Sound := by
  have hkeep : ∀ {f : Memoized Bool} {value : Bool}, f.Returns value → (f memo).2.Sound := by
    intro f value hf
    obtain ⟨memo', heq, h'⟩ := hf memo h
    rw [heq]
    exact h'
  cases call with
  | keywordMatches haystack keyword => exact hkeep (keywordMatchesMemo_returns haystack keyword)
  | ruleMatchesNormalizedText haystack rule => exact hkeep (ruleMatchesMemo_returns haystack rule)
  | entryMatchesRule text rule =>
    exact hkeep (ruleMatchesMemo_returns (normalizeSearchText rt text) rule)

/-- The memo is sound after any calls. -/
theorem sound_memoAfter (calls : List MatchCall) : (memoAfter rt calls).Sound := by
  have hrun : ∀ (calls : List MatchCall) (memo : PhraseMemo), memo.Sound →
      (calls.foldl (fun memo call => call.memoAfter rt memo) memo).Sound := by
    intro calls
    induction calls with
    | nil => exact fun _ h => h
    | cons call calls ih => exact fun memo h => ih _ (call.sound_memoAfter h)
  exact hrun calls .empty PhraseMemo.sound_empty

/-- **Rule matching is what it is meant to be.** Whatever was matched before, a rule matches a
text exactly if one of its include keywords occurs in the normalised text and none of its
exclude keywords does. -/
theorem entryMatchesRule_iff (earlier : List MatchCall) (text : String) (rule : KeywordRule) :
    ∃ matched, (entryMatchesRule rt text rule (memoAfter rt earlier)).1 = .ok matched ∧
      (matched = true ↔
        (∃ keyword ∈ rule.includeKeywords, Occurs rt keyword (normalizeSearchText rt text)) ∧
        ¬∃ keyword ∈ rule.excludeKeywords, Occurs rt keyword (normalizeSearchText rt text)) := by
  have hrule : (ruleMatchesMemo rt (normalizeSearchText rt text) rule).Returns _ :=
    ruleMatchesMemo_returns (normalizeSearchText rt text) rule
  obtain ⟨memo', heq, -⟩ := hrule (memoAfter rt earlier) (sound_memoAfter earlier)
  refine ⟨_, congrArg Prod.fst heq, ?_⟩
  simp only [ruleMatchesNormalizedText, Bool.and_eq_true, Bool.not_eq_true', List.any_eq_true,
    List.any_eq_false, keywordMatches_iff, not_exists, not_and]

end KeywordMatch

end Feedpulse
