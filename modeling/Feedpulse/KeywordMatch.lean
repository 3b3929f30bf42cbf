import Feedpulse.Config

/-!
# Keyword matching

The text normaliser shared by rules and search, and the matcher of classification
rules: an include keyword has to occur as a whole expression, and no exclude
keyword may. Here the pattern of a phrase is matched directly; how the source compiles it
and keeps what it compiled is in `KeywordMemo`.
-/

namespace Feedpulse

namespace KeywordMatch

variable (rt : Runtime)

/-- The Combining Diacritical Marks block. -/
def isCombiningMark (c : Char) : Bool :=
  0x300 ≤ c.toNat && c.toNat ≤ 0x36f

/-- `normalizeSearchText`. -/
def normalizeSearchText (value : String) : String :=
  let decomposed := (rt.normalizeNFD value).toList.filter fun c => !isCombiningMark c
  let lower := (rt.toLowerCase (String.ofList decomposed)).toList
  String.ofList (Text.trimChars (Text.collapseWhitespace false lower))

/-- The lookarounds of the pattern: no letter or digit on this side. -/
def boundary : Option Char → Bool
  | none => true
  | some c => !rt.isLetterOrNumber c

/-- The pattern for `phrase` matches somewhere in the text, of which `prev` is the
character before. -/
def containsPhrase (phrase : List Char) : Option Char → List Char → Bool
  | _, [] => false
  | prev, c :: cs =>
    (boundary rt prev && Text.startsWith (c :: cs) phrase &&
        boundary rt ((c :: cs).drop phrase.length).head?) ||
      containsPhrase phrase (some c) cs

/-- `keywordMatches`: a keyword that normalises to nothing never matches. -/
def keywordMatches (normalizedHaystack keyword : String) : Bool :=
  let phrase := (normalizeSearchText rt keyword).toList
  !phrase.isEmpty && containsPhrase rt phrase none normalizedHaystack.toList

/-- `ruleMatchesNormalizedText`. -/
def ruleMatchesNormalizedText (normalizedHaystack : String)
    (includeKeywords excludeKeywords : List String) : Bool :=
  includeKeywords.any (keywordMatches rt normalizedHaystack) &&
    !excludeKeywords.any (keywordMatches rt normalizedHaystack)

end KeywordMatch

end Feedpulse
