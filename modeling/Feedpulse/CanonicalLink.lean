import Feedpulse.FeedUrl
import Mathlib.Data.List.Sort

/-!
# The canonical form of an article link

Computed twice: by `canonicalizeArticleLink` for every alert that is written, and by
`feedpulse_canonicalize_article_link`, the function with which migration 0018 recomputed the
column for the rows there were. The URL parser of the runtime and `lower` of the database are
parameters.
-/

namespace Feedpulse

/-- The functions `canonicalizeArticleLink` needs of the runtime. -/
structure LinkRuntime extends UrlRuntime where
  /-- `parsed.search = value` -/
  setSearch : ParsedUrl → String → ParsedUrl

namespace CanonicalLink

/-- `TRACKING_PARAM_DENYLIST`. -/
def trackingParamDenylist : List String :=
  ["fbclid", "gclid", "mc_cid", "mc_eid", "ref", "ref_src", "at_medium", "at_campaign",
    "__twitter_impression"]

/-- A name in lower case is the one of a tracking parameter. -/
def isTrackingName (lowerName : List Char) : Bool :=
  Text.startsWith lowerName "utm_".toList ||
    trackingParamDenylist.contains (String.ofList lowerName)

/-- The name of a pair: `pair.split('=', 1)[0]`, and `split_part(pair, '=', 1)`. -/
def nameOf (pair : List Char) : List Char := pair.takeWhile fun c => c ≠ '='

/-- `+` and `%20` both mean a space: `QUERY_ESCAPES`. -/
def escapePlus (pair : List Char) : List Char :=
  pair.flatMap fun c => if c = '+' then "%20".toList else [c]

/-- Everything before the first hash sign. -/
def withoutFragment (value : List Char) : List Char := value.takeWhile fun c => c ≠ '#'

/-- Everything before the first question mark. -/
def beforeQuery (value : List Char) : List Char := value.takeWhile fun c => c ≠ '?'

/-- Everything after the first question mark; empty if there is none. -/
def afterQuery (value : List Char) : List Char := (value.dropWhile fun c => c ≠ '?').drop 1

/-- The slashes of a path: runs are collapsed, trailing ones dropped, the root stays. -/
def normalizePath (pathname : List Char) : List Char :=
  let collapsed := FeedUrl.collapseSlashes false pathname
  if collapsed = ['/'] then ['/'] else FeedUrl.dropTrailingSlashes collapsed

/-- `authority.replace(/:80$/, '')`. -/
def dropSuffix (suffix authority : List Char) : List Char :=
  if suffix <:+ authority then authority.take (authority.length - suffix.length) else authority

/-- The default port of a scheme is dropped. -/
def stripDefaultPort (scheme authority : List Char) : List Char :=
  if scheme = "http://".toList then dropSuffix ":80".toList authority
  else if scheme = "https://".toList then dropSuffix ":443".toList authority
  else authority

/-- A character of a scheme after the first one. -/
def isSchemeChar (c : Char) : Bool :=
  c.isAlphanum || c = '+' || c = '.' || c = '-'

/-- The match of `^[a-zA-Z][a-zA-Z0-9+.-]*:\/\/`: the scheme with its slashes, and the rest. -/
def splitScheme (value : List Char) : Option (List Char × List Char) :=
  let letters := value.takeWhile isSchemeChar
  let rest := value.dropWhile isSchemeChar
  if letters.head?.any Char.isAlpha && Text.startsWith rest "://".toList then
    some (letters ++ "://".toList, rest.drop 3)
  else none

/-- The lexicographic order. -/
def lexLe : List Nat → List Nat → Bool
  | [], _ => true
  | _ :: _, [] => false
  | m :: ms, n :: ns => m < n || (m = n && lexLe ms ns)

theorem lexLe_total (a b : List Nat) : lexLe a b = true ∨ lexLe b a = true := by
  induction a generalizing b with
  | nil => exact .inl rfl
  | cons m ms ih =>
    cases b with
    | nil => exact .inr rfl
    | cons n ns =>
      simp only [lexLe, Bool.or_eq_true, Bool.and_eq_true, decide_eq_true_eq]
      rcases Nat.lt_trichotomy m n with hlt | rfl | hgt
      · exact .inl (.inl hlt)
      · rcases ih ns with h | h
        · exact .inl (.inr ⟨rfl, h⟩)
        · exact .inr (.inr ⟨rfl, h⟩)
      · exact .inr (.inl hgt)

theorem lexLe_trans {a b c : List Nat} (hab : lexLe a b = true) (hbc : lexLe b c = true) :
    lexLe a c = true := by
  induction a generalizing b c with
  | nil => rfl
  | cons m ms ih =>
    cases b with
    | nil => cases hab
    | cons n ns =>
      cases c with
      | nil => cases hbc
      | cons k ks =>
        simp only [lexLe, Bool.or_eq_true, Bool.and_eq_true, decide_eq_true_eq] at hab hbc ⊢
        rcases hab with hlt | ⟨rfl, hab⟩
        · rcases hbc with hlt' | ⟨rfl, -⟩
          · exact .inl (hlt.trans hlt')
          · exact .inl hlt
        · rcases hbc with hlt' | ⟨rfl, hbc⟩
          · exact .inl hlt'
          · exact .inr ⟨rfl, ih hab hbc⟩

/-! ## The function of the program -/

section TypeScript

variable (rt : LinkRuntime)

/-- `isTrackingParam`. -/
def isTrackingParam (name : List Char) : Bool :=
  isTrackingName (rt.toLowerCase (String.ofList name)).toList

/-- The UTF-16 code units of a character. -/
def utf16Units (c : Char) : List Nat :=
  if c.toNat < 0x10000 then [c.toNat]
  else [0xd800 + (c.toNat - 0x10000) / 0x400, 0xdc00 + (c.toNat - 0x10000) % 0x400]

/-- The order in which `Array.prototype.sort` puts strings: by UTF-16 code units. -/
def unitsLe (a b : List Char) : Bool := lexLe (a.flatMap utf16Units) (b.flatMap utf16Units)

/-- `rawQueryOf`: the query of the original input. -/
def rawQueryOf (value : List Char) : List Char := afterQuery (withoutFragment value)

/-- The pairs `canonicalizeQuery` keeps, rewritten, in order. -/
def keptPairs (rawQuery : List Char) : List (List Char) :=
  (((rawQuery.splitOn '&').filter fun pair => pair ≠ [] && !isTrackingParam rt (nameOf pair)).map
    escapePlus).insertionSort fun a b => unitsLe a b

/-- `canonicalizeQuery`. -/
def canonicalizeQuery (rawQuery : List Char) : List Char :=
  if rawQuery = [] then [] else ['&'].intercalate (keptPairs rt rawQuery)

/-- A base with a query behind it, if there is one. -/
def withQuery (base query : List Char) : List Char :=
  if query = [] then base else base ++ '?' :: query

/-- `canonicalizeWithoutParser`, for what the URL parser rejects. -/
def canonicalizeWithoutParser (value : List Char) : Option (List Char) :=
  let withoutFragment := Text.trimChars (withoutFragment value)
  if withoutFragment = [] then none
  else
    let beforeQuery := beforeQuery withoutFragment
    let rawQuery := rawQueryOf withoutFragment
    let (scheme, remainder) := (splitScheme beforeQuery).getD ([], beforeQuery)
    let scheme := (rt.toLowerCase (String.ofList scheme)).toList
    let authority := stripDefaultPort scheme
      (rt.toLowerCase (String.ofList (remainder.takeWhile fun c => c ≠ '/'))).toList
    let path := normalizePath (remainder.dropWhile fun c => c ≠ '/')
    let canonical := withQuery (scheme ++ authority ++ path) (canonicalizeQuery rt rawQuery)
    if canonical = [] then none else some canonical

/-- The setters `canonicalizeArticleLink` applies to a parsed link, in order. -/
def canonicalParts (parsed : ParsedUrl) : ParsedUrl :=
  let parsed := rt.setHash parsed ""
  let parsed := rt.setHostname parsed (rt.toLowerCase parsed.hostname)
  let parsed :=
    if FeedUrl.isDefaultPort parsed.protocol parsed.port then rt.setPort parsed "" else parsed
  let parsed := rt.setPathname parsed (String.ofList (normalizePath parsed.pathname.toList))
  rt.setSearch parsed ""

/-- `canonicalizeArticleLink`. -/
def canonicalizeArticleLink (link : Option String) : Option String :=
  match link with
  | none => none
  | some link =>
    let trimmed := Text.trim link
    if trimmed = "" then none
    else match rt.parseUrl trimmed with
      | none => (canonicalizeWithoutParser rt trimmed.toList).map String.ofList
      | some parsed =>
        let base := rt.urlToString (canonicalParts rt parsed)
        let query := canonicalizeQuery rt (rawQueryOf trimmed.toList)
        some (String.ofList (withQuery base.toList query))

end TypeScript

/-! ## The function of the migration -/

section Sql

variable (lower : String → String)

/-- `btrim(text)`: only blanks are removed. -/
def btrim (cs : List Char) : List Char :=
  ((cs.dropWhile fun c => c = ' ').reverse.dropWhile fun c => c = ' ').reverse

/-- The order of `COLLATE "C"`: by the bytes of the UTF-8 encoding, which is the order of the
code points. -/
def codePointsLe (a b : List Char) : Bool := lexLe (a.map Char.toNat) (b.map Char.toNat)

/-- `lower(split_part(pair, '=', 1))` is neither like `utm\_%` nor in the list. -/
def isTrackingPair (pair : List Char) : Bool :=
  isTrackingName (lower (String.ofList (nameOf pair))).toList

/-- The pairs that are aggregated, in order. `string_to_array(NULLIF(raw_query, ''), '&')` has
no elements for an empty query, and elements that are empty are left out. -/
def keptPairsSql (rawQuery : List Char) : List (List Char) :=
  (((rawQuery.splitOn '&').filter fun pair => pair ≠ [] && !isTrackingPair lower pair).map
    escapePlus).insertionSort fun a b => codePointsLe a b

/-- `string_agg`: null without rows, which is treated like the empty string. -/
def keptQuery (rawQuery : List Char) : List Char := ['&'].intercalate (keptPairsSql lower rawQuery)

/-- `feedpulse_canonicalize_article_link`. -/
def feedpulseCanonicalizeArticleLink (input : Option String) : Option String :=
  match input with
  | none => none
  | some input =>
    let candidate := btrim (withoutFragment input.toList)
    if candidate = [] then none
    else
      let rawQuery := afterQuery candidate
      let candidate := beforeQuery candidate
      let (scheme, remainder) := (splitScheme candidate).getD ([], candidate)
      let scheme := (lower (String.ofList scheme)).toList
      let authority := stripDefaultPort scheme
        (lower (String.ofList (remainder.takeWhile fun c => c ≠ '/'))).toList
      let pathPart := normalizePath (remainder.dropWhile fun c => c ≠ '/')
      let canonical := withQuery (scheme ++ authority ++ pathPart) (keptQuery lower rawQuery)
      if canonical = [] then none else some (String.ofList canonical)

end Sql

/-! ## Samples -/

/-- `lower` as it is on ASCII text. -/
def lowerAscii (s : String) : String := String.ofList (s.toList.map Char.toLower)

example : feedpulseCanonicalizeArticleLink lowerAscii (some "HTTPS://h:443//a/?ref=x#top")
    = some "https://h/a" := by decide

end CanonicalLink

end Feedpulse
