import Std.Data.String.ToNat
import Feedpulse.CanonicalKey
import Feedpulse.FeedUrlNormalForm

/-!
# Links to web pages, and the bases of their canonical forms

A link of the usual form, `scheme://host[:port]/path[?query][#fragment]`, is taken apart in the
same way by the URL parser of the runtime and by the regular expressions of the migration, so
both canonical forms have the same base. What is left is the query: the migration sees it
without the blanks at its end.
-/

namespace Feedpulse

namespace CanonicalLink

open FeedUrl (NoDotSegments normalizedPath)

/-! ## Links -/

/-- A character of a plain host name. -/
def isHostChar (c : Char) : Bool := c.isAlphanum || c = '-' || c = '.'

/-- A label that the URL parser takes for a number. -/
def isNumericLabel (label : List Char) : Bool :=
  (label ≠ [] && label.all Char.isDigit) ||
    (Text.startsWith (label.map Char.toLower) "0x".toList &&
      (label.drop 2).all fun c => c.isDigit || ('a' ≤ c.toLower && c.toLower ≤ 'f'))

/-- The last label of a host name; a dot at its end does not count. -/
def lastLabel (host : List Char) : List Char :=
  if host.getLast? = some '.' then ((host.dropLast.splitOn '.').getLast?).getD []
  else ((host.splitOn '.').getLast?).getD []

/-- A label in the ASCII form of an international one. -/
def isAceLabel (label : List Char) : Bool :=
  Text.startsWith (label.map Char.toLower) "xn--".toList

/-- The visible characters that are not left as they are in a path: the quotation mark, the hash
sign, angle brackets, the question mark, the backslash, the circumflex, the grave accent and
braces. -/
def pathDelimiters : List Nat :=
  [0x22, 0x23, 0x3c, 0x3e, 0x3f, 0x5c, 0x5e, 0x60, 0x7b, 0x7d]

/-- A character of a path that the URL serializer leaves as it is. -/
def isPathChar (c : Char) : Bool :=
  0x21 ≤ c.toNat && c.toNat ≤ 0x7e && !(pathDelimiters.contains c.toNat)

/-- A link `scheme://host[:port]/path[?query][#fragment]`. -/
structure LinkText where
  /-- the scheme -/
  scheme : List Char
  /-- the host -/
  host : List Char
  /-- the port -/
  port : Option Nat
  /-- the path, with its slash -/
  path : List Char
  /-- the query, without its question mark -/
  query : Option (List Char)
  /-- the fragment, without its hash sign -/
  fragment : Option (List Char)

namespace LinkText

variable (l : LinkText)

/-- The port, with its colon. -/
def portChars : List Char := l.port.elim [] fun n => ':' :: Nat.toDigits 10 n

/-- What stands before the query. -/
def part : List Char := l.scheme ++ ("://".toList ++ (l.host ++ l.portChars ++ l.path))

/-- The query, with its question mark. -/
def queryChars : List Char := l.query.elim [] fun q => '?' :: q

/-- The fragment, with its hash sign. -/
def fragmentChars : List Char := l.fragment.elim [] fun f => '#' :: f

/-- The characters of the link. -/
def chars : List Char := l.part ++ l.queryChars ++ l.fragmentChars

/-- The link. -/
def text : String := String.ofList l.chars

/-- The scheme in lower case. -/
def lowerScheme : List Char := l.scheme.map Char.toLower

/-- The host in lower case. -/
def lowerHost : List Char := l.host.map Char.toLower

/-- The port is the default one of the scheme. -/
def hasDefaultPort : Bool :=
  (l.lowerScheme = "http".toList && l.port = some 80) ||
    (l.lowerScheme = "https".toList && l.port = some 443)

/-- The port that is kept, with its colon. -/
def keptPort : List Char := if l.hasDefaultPort then [] else l.portChars

/-- The base of the canonical form. -/
def base : List Char :=
  l.lowerScheme ++ ("://".toList ++ (l.lowerHost ++ l.keptPort ++ normalizePath l.path))

end LinkText

/-- A path that the URL serializer leaves as it is. -/
structure PlainPath (path : List Char) : Prop where
  /-- it begins with a slash -/
  absolute : path.head? = some '/'
  /-- its characters are left as they are -/
  chars : ∀ c ∈ path, isPathChar c = true
  /-- it has no dot segments -/
  clean : NoDotSegments path

/-- The slashes of a path can be normalised. -/
theorem PlainPath.normalizePath {path : List Char} (h : PlainPath path) :
    PlainPath (normalizePath path) where
  absolute := FeedUrl.head?_normalizedPath h.absolute
  chars c hc := h.chars c (FeedUrl.mem_normalizedPath h.absolute hc)
  clean := h.clean.normalizedPath

/-- A link of the usual form: the labels `xn--…` of its host can be decoded, and the URL
serializer leaves its path as it is. -/
structure PlainLink (decodable : List Char → Prop) extends LinkText where
  /-- the scheme is one of the web, in any letter case -/
  scheme_web : toLinkText.lowerScheme = "http".toList ∨ toLinkText.lowerScheme = "https".toList
  /-- the host is not empty -/
  host_ne : host ≠ []
  /-- it is plain -/
  host_plain : ∀ c ∈ host, isHostChar c = true
  /-- it is no address -/
  host_name : isNumericLabel (lastLabel host) = false
  /-- it can be decoded -/
  host_decodable : ∀ label ∈ host.splitOn '.', isAceLabel label = true → decodable label
  /-- the port is one -/
  port_le : ∀ n ∈ port, n ≤ 65535
  /-- the serializer leaves the path as it is -/
  path_plain : PlainPath path
  /-- the fragment begins after the query -/
  query_clean : ∀ q ∈ query, '#' ∉ q
  /-- there are no blanks around the link -/
  trimmed : Text.trimChars toLinkText.chars = toLinkText.chars

/-! ## Characters -/

/-- What a test finds of the characters of a text. -/
theorem forall_mem_of_all {p : Char → Prop} [DecidablePred p] {cs : List Char}
    (h : cs.all (fun c => p c) = true) : ∀ c ∈ cs, p c := by
  simpa using h

theorem ne_of_isHostChar {c d : Char} (hc : isHostChar c = true) (hd : isHostChar d = false) :
    c ≠ d := by
  rintro rfl
  rw [hc] at hd
  cases hd

theorem ne_of_isPathChar {c d : Char} (hc : isPathChar c = true) (hd : isPathChar d = false) :
    c ≠ d := by
  rintro rfl
  rw [hc] at hd
  cases hd

theorem isAlphanum_lt {c : Char} (h : c.isAlphanum = true) : c.toNat < 128 := by
  change ((decide (c.val ≥ 'A'.val ∧ c.val ≤ 'Z'.val) ||
    decide (c.val ≥ 'a'.val) && decide (c.val ≤ 'z'.val)) ||
    decide (c.val ≥ '0'.val) && decide (c.val ≤ '9'.val)) = true at h
  simp only [Bool.or_eq_true, Bool.and_eq_true, decide_eq_true_eq] at h
  simp only [UInt32.le_iff_toNat_le, Char.toNat] at h ⊢
  rcases h with (⟨-, h⟩ | ⟨-, h⟩) | ⟨-, h⟩
  · exact lt_of_le_of_lt h (by decide)
  · exact lt_of_le_of_lt h (by decide)
  · exact lt_of_le_of_lt h (by decide)

theorem isHostChar_lt {c : Char} (h : isHostChar c = true) : c.toNat < 128 := by
  simp only [isHostChar, Bool.or_eq_true, decide_eq_true_eq] at h
  rcases h with (h | rfl) | rfl
  · exact isAlphanum_lt h
  · decide
  · decide

/-- The digits of a port. -/
theorem isDigit_of_mem_toDigits {n : Nat} {c : Char} (h : c ∈ Nat.toDigits 10 n) :
    c.isDigit = true :=
  Nat.isDigit_of_mem_toDigits (by decide) (by decide) h

theorem isHostChar_of_isDigit {c : Char} (h : c.isDigit = true) : isHostChar c = true := by
  simp [isHostChar, Char.isAlphanum, h]

/-- A letter that has a small form is one. -/
theorem isAlpha_of_toLower {c : Char} (h : c.toLower.isAlpha = true) : c.isAlpha = true := by
  unfold Char.toLower at h
  split at h
  · rename_i hupper
    have hu : c.isUpper = true := by
      change decide (c.val ≥ 'A'.val ∧ c.val ≤ 'Z'.val) = true
      simpa using hupper
    change (c.isUpper || c.isLower) = true
    rw [hu, Bool.true_or]
  · exact h

namespace PlainLink

variable {decodable : List Char → Prop} (l : PlainLink decodable)

theorem isAlpha_of_mem_scheme {c : Char} (h : c ∈ l.scheme) : c.isAlpha = true := by
  refine isAlpha_of_toLower ?_
  have hmem : c.toLower ∈ l.lowerScheme := List.mem_map_of_mem h
  have hall : ∀ d ∈ l.lowerScheme, d.isAlpha = true := by
    rcases l.scheme_web with hweb | hweb <;> rw [hweb] <;> exact forall_mem_of_all (by decide)
  exact hall _ hmem

theorem isSchemeChar_of_mem_scheme {c : Char} (h : c ∈ l.scheme) : isSchemeChar c = true := by
  simp [isSchemeChar, Char.isAlphanum, l.isAlpha_of_mem_scheme h]

theorem scheme_ne : l.scheme ≠ [] := by
  intro h
  rcases l.scheme_web with hweb | hweb <;> rw [LinkText.lowerScheme, h] at hweb <;> cases hweb

/-- The characters of the port. -/
theorem mem_portChars {c : Char} (h : c ∈ l.portChars) : c = ':' ∨ c.isDigit = true := by
  rw [LinkText.portChars] at h
  rcases hport : l.port with _ | n
  · rw [hport] at h
    cases h
  · rw [hport] at h
    exact (List.mem_cons.mp h).imp_right isDigit_of_mem_toDigits

/-- The characters before the query. -/
theorem mem_part {c : Char} (h : c ∈ l.part) :
    isSchemeChar c = true ∨ c = ':' ∨ c = '/' ∨ isHostChar c = true ∨ isPathChar c = true := by
  simp only [LinkText.part, List.mem_append] at h
  rcases h with h | h | (h | h) | h
  · exact .inl (l.isSchemeChar_of_mem_scheme h)
  · have hall : ∀ d ∈ "://".toList, d = ':' ∨ d = '/' := forall_mem_of_all (by decide)
    rcases hall c h with h | h
    · exact .inr (.inl h)
    · exact .inr (.inr (.inl h))
  · exact .inr (.inr (.inr (.inl (l.host_plain c h))))
  · rcases l.mem_portChars h with h | h
    · exact .inr (.inl h)
    · exact .inr (.inr (.inr (.inl (isHostChar_of_isDigit h))))
  · exact .inr (.inr (.inr (.inr (l.path_plain.chars c h))))

/-- Neither a query nor a fragment begins before its place, and no blank stands there. -/
theorem not_mem_part {d : Char} (hd : d = '?' ∨ d = '#' ∨ d = ' ') : d ∉ l.part := by
  intro h
  have hmem := l.mem_part h
  rcases hd with rfl | rfl | rfl <;> revert hmem <;> decide

theorem part_ne : l.part ≠ [] := fun h => l.scheme_ne (List.append_eq_nil_iff.mp h).1

theorem not_mem_queryChars : '#' ∉ l.queryChars := by
  rw [LinkText.queryChars]
  rcases hq : l.query with _ | q
  · exact List.not_mem_nil
  · exact fun h => (List.mem_cons.mp h).elim (fun h => by cases h) (l.query_clean q hq)

/-- The part of a link before the fragment. -/
theorem withoutFragment_chars : withoutFragment l.chars = l.part ++ l.queryChars := by
  have hbody : ∀ c ∈ l.part ++ l.queryChars, (decide (c ≠ '#')) = true := by
    intro c hc
    refine decide_eq_true fun he => ?_
    subst he
    rcases List.mem_append.mp hc with hc | hc
    · exact l.not_mem_part (.inr (.inl rfl)) hc
    · exact l.not_mem_queryChars hc
  rw [withoutFragment, LinkText.chars, List.takeWhile_append_of_pos hbody, LinkText.fragmentChars]
  rcases l.fragment with _ | f
  · exact List.append_nil _
  · exact List.append_nil _

theorem beforeQuery_part (rest : List Char) (hrest : rest = [] ∨ ∃ q, rest = '?' :: q) :
    beforeQuery (l.part ++ rest) = l.part := by
  have hall : ∀ c ∈ l.part, (decide (c ≠ '?')) = true :=
    fun c hc => decide_eq_true fun he => l.not_mem_part (.inl rfl) (he ▸ hc)
  rw [beforeQuery, List.takeWhile_append_of_pos hall]
  rcases hrest with rfl | ⟨q, rfl⟩
  · exact List.append_nil _
  · exact List.append_nil _

theorem afterQuery_part (rest : List Char) : afterQuery (l.part ++ rest) = afterQuery rest := by
  have hall : ∀ c ∈ l.part, (decide (c ≠ '?')) = true :=
    fun c hc => decide_eq_true fun he => l.not_mem_part (.inl rfl) (he ▸ hc)
  rw [afterQuery, List.dropWhile_append_of_pos hall]
  rfl

/-- The query as the program reads it. -/
theorem rawQueryOf_chars : rawQueryOf l.chars = l.query.getD [] := by
  rw [rawQueryOf, l.withoutFragment_chars, l.afterQuery_part, LinkText.queryChars]
  rcases l.query with _ | q
  · rfl
  · rfl

/-! ## The base in the migration -/

/-- The scheme is split off. -/
theorem splitScheme_part : splitScheme l.part
    = some (l.scheme ++ "://".toList, l.host ++ l.portChars ++ l.path) := by
  have hall : ∀ c ∈ l.scheme, isSchemeChar c = true := fun c => l.isSchemeChar_of_mem_scheme
  have hcolon : isSchemeChar ':' = false := by decide
  have htake : l.part.takeWhile isSchemeChar = l.scheme := by
    rw [LinkText.part, List.takeWhile_append_of_pos hall]
    simp [hcolon]
  have hdrop : l.part.dropWhile isSchemeChar
      = "://".toList ++ (l.host ++ l.portChars ++ l.path) := by
    rw [LinkText.part, List.dropWhile_append_of_pos hall]
    simp [hcolon]
  have hhead : l.scheme.head?.any Char.isAlpha = true := by
    obtain ⟨c, cs, hscheme⟩ := List.exists_cons_of_ne_nil l.scheme_ne
    have hc : c ∈ l.scheme := by
      rw [hscheme]
      exact List.mem_cons_self
    rw [hscheme]
    exact l.isAlpha_of_mem_scheme hc
  have hslashes : Text.startsWith ("://".toList ++ (l.host ++ l.portChars ++ l.path))
      "://".toList = true := Text.startsWith_iff.mpr (List.prefix_append _ _)
  simp only [splitScheme, htake, hdrop, hhead, hslashes, Bool.and_self, if_true]
  rfl

/-- The authority ends where the path begins. -/
theorem takeWhile_authority : (l.host ++ l.portChars ++ l.path).takeWhile (fun c => c ≠ '/')
    = l.host ++ l.portChars ∧
      (l.host ++ l.portChars ++ l.path).dropWhile (fun c => c ≠ '/') = l.path := by
  have hall : ∀ c ∈ l.host ++ l.portChars, (decide (c ≠ '/')) = true := by
    intro c hc
    refine decide_eq_true ?_
    rcases List.mem_append.mp hc with hc | hc
    · exact ne_of_isHostChar (l.host_plain c hc) (by decide)
    · rcases l.mem_portChars hc with rfl | hc
      · decide
      · exact ne_of_isHostChar (isHostChar_of_isDigit hc) (by decide)
  obtain ⟨rest, hpath⟩ := List.head?_eq_some_iff.mp l.path_plain.absolute
  rw [List.takeWhile_append_of_pos hall, List.dropWhile_append_of_pos hall, hpath]
  exact ⟨List.append_nil _, rfl⟩

end PlainLink

/-- The part after the last separator is determined. -/
theorem eq_of_append_cons {sep : Char} {a b c d : List Char} (hc : sep ∉ c) (hd : sep ∉ d)
    (h : a ++ sep :: c = b ++ sep :: d) : c = d := by
  have hlast : ∀ {x y : List Char}, sep ∉ y →
      (x ++ sep :: y).reverse.takeWhile (fun e => e ≠ sep) = y.reverse := by
    intro x y hy
    have hall : ∀ e ∈ y.reverse, (decide (e ≠ sep)) = true := fun e he =>
      decide_eq_true fun heq => hy (heq ▸ List.mem_reverse.mp he)
    rw [List.reverse_append, List.reverse_cons, List.append_assoc,
      List.takeWhile_append_of_pos hall]
    simp
  have hreverse := hlast (x := a) hc
  rw [h, hlast hd] at hreverse
  exact List.reverse_injective hreverse.symm

theorem toDigits_injective {m n : Nat} (h : Nat.toDigits 10 m = Nat.toDigits 10 n) : m = n := by
  refine Nat.repr_injective ?_
  rw [Nat.repr_eq_ofList_toDigits, Nat.repr_eq_ofList_toDigits, h]

theorem dropSuffix_append (suffix front : List Char) :
    dropSuffix suffix (front ++ suffix) = front := by
  rw [dropSuffix, if_pos (List.suffix_append _ _)]
  simp

/-- A port is dropped if it is the one of the suffix. -/
theorem dropSuffix_port {host : List Char} (hhost : ':' ∉ host) (n : Nat) (port : Option Nat) :
    dropSuffix (':' :: Nat.toDigits 10 n) (host ++ port.elim [] fun m => ':' :: Nat.toDigits 10 m)
      = host ++ if port = some n then [] else port.elim [] fun m => ':' :: Nat.toDigits 10 m := by
  have hdigits : ∀ m, ':' ∉ Nat.toDigits 10 m := fun m h => by
    have hdigit := isDigit_of_mem_toDigits h
    revert hdigit
    decide
  rcases port with _ | m
  · have hnot : ¬(':' :: Nat.toDigits 10 n) <:+ host ++ [] := by
      rintro ⟨front, h⟩
      rw [List.append_nil] at h
      exact hhost (h ▸ List.mem_append_right _ List.mem_cons_self)
    have hnone : ¬(none : Option Nat) = some n := fun h => by cases h
    rw [if_neg hnone]
    exact if_neg hnot
  · by_cases hmn : m = n
    · subst hmn
      rw [if_pos rfl, List.append_nil]
      exact dropSuffix_append _ _
    · have hnot : ¬(':' :: Nat.toDigits 10 n) <:+ host ++ ':' :: Nat.toDigits 10 m := by
        rintro ⟨front, h⟩
        exact hmn (toDigits_injective (eq_of_append_cons (hdigits n) (hdigits m) h).symm)
      have hne : ¬some m = some n := fun h => hmn (Option.some.inj h)
      rw [if_neg hne]
      exact if_neg hnot

/-- The lower case of the database goes character by character, on ASCII letters as usual. -/
structure LowersCharwise (lower : String → String) (lowerChar : Char → Char) : Prop where
  /-- it goes character by character -/
  map : ∀ text, (lower text).toList = text.toList.map lowerChar
  /-- on ASCII as usual -/
  ascii : ∀ c : Char, c.toNat < 128 → lowerChar c = c.toLower

theorem LowersCharwise.map_ascii {lower : String → String} {lowerChar : Char → Char}
    (h : LowersCharwise lower lowerChar) {cs : List Char} (hcs : ∀ c ∈ cs, c.toNat < 128) :
    (lower (String.ofList cs)).toList = cs.map Char.toLower := by
  rw [h.map, String.toList_ofList]
  exact List.map_congr_left fun c hc => h.ascii c (hcs c hc)

namespace PlainLink

variable {decodable : List Char → Prop} (l : PlainLink decodable)

theorem not_mem_lowerHost : ':' ∉ l.lowerHost := by
  intro h
  obtain ⟨c, hc, hlower⟩ := List.mem_map.mp h
  rcases Text.toLower_cases c with hsame | ⟨hlow, -⟩
  · rw [hsame] at hlower
    exact ne_of_isHostChar (l.host_plain c hc) (by decide) hlower
  · rw [hlower] at hlow
    exact absurd hlow (by decide)

theorem map_toLower_portChars : l.portChars.map Char.toLower = l.portChars := by
  refine (List.map_congr_left fun c hc => ?_).trans (List.map_id _)
  rcases l.mem_portChars hc with rfl | hc
  · rfl
  · have hupper : ¬(c.val ≥ 'A'.val ∧ c.val ≤ 'Z'.val) := by
      rintro ⟨hlow, -⟩
      simp only [Char.isDigit, Bool.and_eq_true, decide_eq_true_eq] at hc
      exact absurd (UInt32.le_trans hlow hc.2) (by decide)
    exact dif_neg hupper

/-- The default port goes. -/
theorem stripDefaultPort_authority :
    stripDefaultPort (l.lowerScheme ++ "://".toList) (l.lowerHost ++ l.portChars)
      = l.lowerHost ++ l.keptPort := by
  have h80 : ":80".toList = ':' :: Nat.toDigits 10 80 := by decide
  have h443 : ":443".toList = ':' :: Nat.toDigits 10 443 := by decide
  rcases l.scheme_web with hweb | hweb
  · have hscheme : l.lowerScheme ++ "://".toList = "http://".toList := by
      rw [hweb]
      decide
    have hdefault : l.hasDefaultPort = decide (l.port = some 80) := by
      simp [LinkText.hasDefaultPort, hweb]
    rw [stripDefaultPort, if_pos hscheme, h80, LinkText.portChars,
      dropSuffix_port l.not_mem_lowerHost, LinkText.keptPort, hdefault]
    simp [LinkText.portChars]
  · have hscheme : l.lowerScheme ++ "://".toList = "https://".toList := by
      rw [hweb]
      decide
    have hne : ¬"https://".toList = "http://".toList := by decide
    have hdefault : l.hasDefaultPort = decide (l.port = some 443) := by
      simp [LinkText.hasDefaultPort, hweb]
    rw [stripDefaultPort, hscheme, if_neg hne, if_pos rfl, h443, LinkText.portChars,
      dropSuffix_port l.not_mem_lowerHost, LinkText.keptPort, hdefault]
    simp [LinkText.portChars]

end PlainLink

/-- A text without the blanks at its end. -/
def dropBlanks (cs : List Char) : List Char := (cs.reverse.dropWhile fun c => c = ' ').reverse

theorem dropBlanks_eq_self {cs : List Char} (h : cs.getLast? ≠ some ' ') : dropBlanks cs = cs := by
  rw [dropBlanks]
  rcases hrev : cs.reverse with _ | ⟨c, rest⟩
  · simpa using hrev.symm
  · have hc : c ≠ ' ' := by
      intro hc
      rw [← List.head?_reverse, hrev, hc] at h
      exact h rfl
    rw [List.dropWhile_cons_of_neg (by simpa using hc), ← hrev, List.reverse_reverse]

/-- The blanks at the end of a text are those of its last part. -/
theorem dropBlanks_append {a b : List Char} (hb : ∃ c ∈ b, c ≠ ' ') :
    dropBlanks (a ++ b) = a ++ dropBlanks b := by
  obtain ⟨c, hc, hne⟩ := hb
  have hdrop : ¬((b.reverse.dropWhile fun c => c = ' ').isEmpty = true) := by
    intro h
    have hall := List.dropWhile_eq_nil_iff.mp (List.isEmpty_iff.mp h)
    exact hne (of_decide_eq_true (hall c (List.mem_reverse.mpr hc)))
  rw [dropBlanks, List.reverse_append, List.dropWhile_append, if_neg hdrop, List.reverse_append,
    List.reverse_reverse]
  rfl

namespace PlainLink

variable {decodable : List Char → Prop} (l : PlainLink decodable)

/-- The migration trims what stands before the fragment: only the query can lose blanks. -/
theorem btrim_body : btrim (l.part ++ l.queryChars)
    = l.part ++ l.query.elim [] fun q => '?' :: dropBlanks q := by
  have hfront : (l.part ++ l.queryChars).dropWhile (fun c => c = ' ') = l.part ++ l.queryChars := by
    obtain ⟨c, cs, hpart⟩ := List.exists_cons_of_ne_nil l.part_ne
    have hc : c ≠ ' ' := by
      intro hc
      refine l.not_mem_part (d := ' ') (.inr (.inr rfl)) ?_
      rw [hpart, hc]
      exact List.mem_cons_self
    rw [hpart, List.cons_append, List.dropWhile_cons_of_neg (by simpa using hc)]
  have hbtrim : btrim (l.part ++ l.queryChars) = dropBlanks (l.part ++ l.queryChars) := by
    rw [btrim, hfront, dropBlanks]
  rw [hbtrim, LinkText.queryChars]
  rcases l.query with _ | q
  · refine dropBlanks_eq_self fun h => ?_
    rw [Option.elim_none, List.append_nil] at h
    exact l.not_mem_part (.inr (.inr rfl)) (List.mem_of_getLast? h)
  · have hquery : dropBlanks ('?' :: q) = '?' :: dropBlanks q := by
      by_cases hq : ∃ c ∈ q, c ≠ ' '
      · exact dropBlanks_append (a := ['?']) hq
      · push Not at hq
        have hnil : dropBlanks q = [] := by
          rw [dropBlanks, List.dropWhile_eq_nil_iff.mpr fun c hc =>
            decide_eq_true (hq c (List.mem_reverse.mp hc))]
          rfl
        have hdrop : (q.reverse.dropWhile fun c => c = ' ') = [] :=
          List.reverse_eq_nil_iff.mp hnil
        rw [hnil, dropBlanks, List.reverse_cons, List.dropWhile_append, hdrop]
        rfl
    change dropBlanks (l.part ++ '?' :: q) = l.part ++ '?' :: dropBlanks q
    rw [dropBlanks_append ⟨'?', List.mem_cons_self, by decide⟩, hquery]

/-- **The form of the migration**: the base, with the query without the blanks at its end. -/
theorem feedpulseCanonicalizeArticleLink_text {lower : String → String} {lowerChar : Char → Char}
    (hlower : LowersCharwise lower lowerChar) :
    feedpulseCanonicalizeArticleLink lower (some l.text)
      = some (String.ofList
          (withQuery l.base (keptQuery lower (dropBlanks (l.query.getD []))))) := by
  obtain ⟨q, hq⟩ : ∃ q, q = l.query.elim [] fun q => '?' :: dropBlanks q := ⟨_, rfl⟩
  have hcandidate : btrim (withoutFragment l.text.toList) = l.part ++ q := by
    rw [LinkText.text, String.toList_ofList, l.withoutFragment_chars, l.btrim_body, hq]
  have hshape : q = [] ∨ ∃ q', q = '?' :: q' := by
    rw [hq]
    rcases l.query with _ | q'
    · exact .inl rfl
    · exact .inr ⟨_, rfl⟩
  have hafter : afterQuery (l.part ++ q) = dropBlanks (l.query.getD []) := by
    rw [l.afterQuery_part, hq]
    rcases l.query with _ | q'
    · rfl
    · rfl
  have hne : ¬l.part ++ q = [] := fun h => l.part_ne (List.append_eq_nil_iff.mp h).1
  have hslashes : ∀ c ∈ "://".toList, c.toNat < 128 := forall_mem_of_all (by decide)
  have hscheme : (lower (String.ofList (l.scheme ++ "://".toList))).toList
      = l.lowerScheme ++ "://".toList := by
    rw [hlower.map_ascii, List.map_append]
    · rfl
    · intro c hc
      rcases List.mem_append.mp hc with hc | hc
      · exact isAlphanum_lt (by simp [Char.isAlphanum, l.isAlpha_of_mem_scheme hc])
      · exact hslashes c hc
  have hauthority : (lower (String.ofList (l.host ++ l.portChars))).toList
      = l.lowerHost ++ l.portChars := by
    rw [hlower.map_ascii, List.map_append, l.map_toLower_portChars]
    · rfl
    · intro c hc
      rcases List.mem_append.mp hc with hc | hc
      · exact isHostChar_lt (l.host_plain c hc)
      · rcases l.mem_portChars hc with rfl | hc
        · decide
        · exact isHostChar_lt (isHostChar_of_isDigit hc)
  have hcanonical : l.lowerScheme ++ "://".toList ++ (l.lowerHost ++ l.keptPort)
      ++ normalizePath l.path = l.base := by
    simp [LinkText.base]
  have hbase : ∀ query, ¬withQuery l.base query = [] := by
    intro query h
    have hlength := congrArg List.length h
    unfold withQuery at hlength
    split at hlength <;> simp [LinkText.base] at hlength
  simp only [feedpulseCanonicalizeArticleLink, hcandidate, if_neg hne, hafter,
    l.beforeQuery_part q hshape, l.splitScheme_part, Option.getD_some, hscheme,
    l.takeWhile_authority.1, l.takeWhile_authority.2, hauthority, l.stripDefaultPort_authority,
    hcanonical, if_neg (hbase _)]

end PlainLink

/-! ## The base in the program -/

/-- The URL the parser makes of a link; it encodes query and fragment in its own way. -/
def LinkText.url (l : LinkText) (path : List Char) (search hash : String) : ParsedUrl where
  protocol := String.ofList (l.lowerScheme ++ [':'])
  userinfo := ""
  hostname := String.ofList l.lowerHost
  port := String.ofList (l.keptPort.drop 1)
  pathname := String.ofList path
  search := search
  hash := hash

/-- The URL of a plain link, the path of which may have been set. -/
def IsPlainUrl (decodable : List Char → Prop) (url : ParsedUrl) : Prop :=
  ∃ (l : PlainLink decodable) (path : List Char) (search hash : String),
    PlainPath path ∧ url = l.url path search hash

/-- What the URL standard says of plain links, and what is relied on of lower case. -/
structure ReadsPlainLinks (rt : LinkRuntime) (decodable : List Char → Prop) : Prop where
  /-- a plain link is parsed; its scheme and its host are put into lower case, and its default
  port is dropped -/
  parse : ∀ l : PlainLink decodable,
    ∃ search hash, rt.parseUrl l.text = some (l.url l.path search hash)
  /-- setting the empty fragment removes the fragment -/
  setHash_empty : ∀ url, IsPlainUrl decodable url → rt.setHash url "" = { url with hash := "" }
  /-- the host a URL has can be set -/
  setHostname_self : ∀ url, IsPlainUrl decodable url → rt.setHostname url url.hostname = url
  /-- a plain path is set as it is -/
  setPathname_eq : ∀ url, IsPlainUrl decodable url → ∀ path, PlainPath path →
    rt.setPathname url (String.ofList path) = { url with pathname := String.ofList path }
  /-- setting the empty query removes the query -/
  setSearch_empty : ∀ url, IsPlainUrl decodable url →
    rt.setSearch url "" = { url with search := "" }
  /-- how a URL without query and fragment is serialised -/
  toString_eq : ∀ url, IsPlainUrl decodable url → url.search = "" → url.hash = "" →
    (rt.urlToString url).toList = url.protocol.toList ++ ("//".toList ++ (url.hostname.toList ++
      (if url.port = "" then [] else ':' :: url.port.toList) ++ url.pathname.toList))
  /-- ASCII letters have their usual small forms -/
  lower_ascii : ∀ text : List Char, (∀ c ∈ text, c.toNat < 128) →
    rt.toLowerCase (String.ofList text) = String.ofList (text.map Char.toLower)
  /-- apart from `k`, which is also the small form of the Kelvin sign, an ASCII character is the
  small form of ASCII characters only -/
  lower_eq : ∀ text whole : List Char, (∀ c ∈ whole, c.toNat < 128 ∧ c ≠ 'k') →
    (rt.toLowerCase (String.ofList text) = String.ofList whole ↔ text.map Char.toLower = whole)
  /-- the small form of a dotted capital `I` begins with `i` -/
  lower_prefix : ∀ text start : List Char, (∀ c ∈ start, c.toNat < 128 ∧ c ≠ 'k' ∧ c ≠ 'i') →
    (start <+: (rt.toLowerCase (String.ofList text)).toList ↔ start <+: text.map Char.toLower)

namespace PlainLink

variable {decodable : List Char → Prop} (l : PlainLink decodable)

theorem isPlainUrl {path : List Char} (h : PlainPath path) (search hash : String) :
    IsPlainUrl decodable (l.url path search hash) := ⟨l, path, search, hash, h, rfl⟩

/-- The default port has been dropped. -/
theorem isDefaultPort_url (path : List Char) (search hash : String) :
    FeedUrl.isDefaultPort (l.url path search hash).protocol (l.url path search hash).port
      = false := by
  have hprotocol : ∀ text : String, String.ofList (l.lowerScheme ++ [':']) = text →
      l.lowerScheme = text.toList.dropLast := by
    rintro text rfl
    rw [String.toList_ofList, List.dropLast_concat]
  have hport : ∀ n : Nat, String.ofList (l.keptPort.drop 1) = String.ofList (Nat.toDigits 10 n) →
      l.port = some n ∧ l.hasDefaultPort = false := by
    intro n h
    have hdigits := String.ofList_injective h
    rw [LinkText.keptPort] at hdigits
    split at hdigits
    · exact absurd hdigits.symm Nat.toDigits_ne_nil
    · rename_i hdefault
      rw [LinkText.portChars] at hdigits
      rcases hport : l.port with _ | m
      · rw [hport] at hdigits
        exact absurd hdigits.symm Nat.toDigits_ne_nil
      · rw [hport] at hdigits
        rw [toDigits_injective hdigits]
        exact ⟨rfl, by simpa using hdefault⟩
  rw [Bool.eq_false_iff]
  intro h
  simp only [FeedUrl.isDefaultPort, LinkText.url, Bool.or_eq_true, Bool.and_eq_true] at h
  rcases h with ⟨hscheme, h⟩ | ⟨hscheme, h⟩
  · obtain ⟨hsome, hdefault⟩ := hport 80 ((of_decide_eq_true h).trans (by decide))
    have hweb : l.lowerScheme = "http".toList :=
      (hprotocol _ (of_decide_eq_true hscheme)).trans (by decide)
    simp [LinkText.hasDefaultPort, hweb, hsome] at hdefault
  · obtain ⟨hsome, hdefault⟩ := hport 443 ((of_decide_eq_true h).trans (by decide))
    have hweb : l.lowerScheme = "https".toList :=
      (hprotocol _ (of_decide_eq_true hscheme)).trans (by decide)
    simp [LinkText.hasDefaultPort, hweb, hsome] at hdefault

theorem lowerHost_lt {c : Char} (h : c ∈ l.lowerHost) : c.toNat < 128 := by
  obtain ⟨d, hd, rfl⟩ := List.mem_map.mp h
  rcases Text.toLower_cases d with hsame | ⟨-, hhigh⟩
  · rw [hsame]
    exact isHostChar_lt (l.host_plain d hd)
  · omega

/-- The setters leave scheme, host and port. -/
theorem canonicalParts_url {rt : LinkRuntime} (hrt : ReadsPlainLinks rt decodable)
    (search hash : String) :
    canonicalParts rt (l.url l.path search hash) = l.url (normalizePath l.path) "" "" := by
  have hhash : rt.setHash (l.url l.path search hash) "" = l.url l.path search "" :=
    hrt.setHash_empty _ (l.isPlainUrl l.path_plain search hash)
  have hlower : rt.toLowerCase (l.url l.path search "").hostname
      = (l.url l.path search "").hostname := by
    have htwice : l.lowerHost.map Char.toLower = l.lowerHost := by
      rw [LinkText.lowerHost, List.map_map]
      exact List.map_congr_left fun c _ => Text.toLower_toLower c
    refine (hrt.lower_ascii l.lowerHost fun c hc => l.lowerHost_lt hc).trans ?_
    rw [htwice]
    rfl
  have hpath : rt.setPathname (l.url l.path search "")
      (String.ofList (normalizePath (l.url l.path search "").pathname.toList))
      = l.url (normalizePath l.path) search "" := by
    have hpathname : (l.url l.path search "").pathname.toList = l.path := String.toList_ofList
    rw [hpathname]
    exact hrt.setPathname_eq _ (l.isPlainUrl l.path_plain search "") _ l.path_plain.normalizePath
  have hsearch : rt.setSearch (l.url (normalizePath l.path) search "") ""
      = l.url (normalizePath l.path) "" "" :=
    hrt.setSearch_empty _ (l.isPlainUrl l.path_plain.normalizePath search "")
  simp only [canonicalParts, hhash, hlower,
    hrt.setHostname_self _ (l.isPlainUrl l.path_plain search ""), l.isDefaultPort_url,
    Bool.false_eq_true, if_false, hpath, hsearch]

/-- The serialised URL is the base. -/
theorem urlToString_url {rt : LinkRuntime} (hrt : ReadsPlainLinks rt decodable) :
    (rt.urlToString (l.url (normalizePath l.path) "" "")).toList = l.base := by
  have hport : (if (l.url (normalizePath l.path) "" "").port = "" then []
      else ':' :: (l.url (normalizePath l.path) "" "").port.toList) = l.keptPort := by
    change (if String.ofList (l.keptPort.drop 1) = "" then []
      else ':' :: (String.ofList (l.keptPort.drop 1)).toList) = l.keptPort
    rw [String.toList_ofList, LinkText.keptPort]
    split
    · rfl
    · rw [LinkText.portChars]
      rcases l.port with _ | n
      · rfl
      · have hne : ¬String.ofList (Nat.toDigits 10 n) = "" := fun h =>
          Nat.toDigits_ne_nil (String.ofList_injective h)
        exact if_neg hne
  rw [hrt.toString_eq _ (l.isPlainUrl l.path_plain.normalizePath "" "") rfl rfl, hport]
  simp [LinkText.url, LinkText.base]

/-- **The form of the program**: the base, with the query. -/
theorem canonicalizeArticleLink_text {rt : LinkRuntime} (hrt : ReadsPlainLinks rt decodable) :
    canonicalizeArticleLink rt (some l.text)
      = some (String.ofList (withQuery l.base (canonicalizeQuery rt (l.query.getD [])))) := by
  obtain ⟨search, hash, hparse⟩ := hrt.parse l
  have htrim : Text.trim l.text = l.text := by
    rw [Text.trim, LinkText.text, String.toList_ofList, l.trimmed]
  have hne : ¬l.text = "" := by
    intro h
    have hchars : l.chars = [] := String.ofList_injective h
    exact l.part_ne (List.append_eq_nil_iff.mp (List.append_eq_nil_iff.mp hchars).1).1
  have hquery : rawQueryOf l.text.toList = l.query.getD [] := by
    rw [LinkText.text, String.toList_ofList, l.rawQueryOf_chars]
  simp only [canonicalizeArticleLink, htrim, if_neg hne, hparse, l.canonicalParts_url hrt,
    l.urlToString_url hrt, hquery]

/-- **The two forms differ in the query only.** -/
theorem forms_eq_iff {rt : LinkRuntime} {lower : String → String} {lowerChar : Char → Char}
    (hrt : ReadsPlainLinks rt decodable) (hlower : LowersCharwise lower lowerChar) :
    canonicalizeArticleLink rt (some l.text) = feedpulseCanonicalizeArticleLink lower (some l.text)
      ↔ canonicalizeQuery rt (l.query.getD [])
          = keptQuery lower (dropBlanks (l.query.getD [])) := by
  rw [l.canonicalizeArticleLink_text hrt, l.feedpulseCanonicalizeArticleLink_text hlower,
    Option.some.injEq]
  constructor
  · intro h
    have hwith := String.ofList_injective h
    have hbase : ∀ {q q' : List Char}, withQuery l.base q = withQuery l.base q' → q = q' := by
      intro q q' h
      unfold withQuery at h
      split at h <;> split at h
      · simp [*]
      · exact absurd (congrArg List.length h) (by simp)
      · exact absurd (congrArg List.length h) (by simp)
      · exact (List.cons.inj (List.append_cancel_left h)).2
    exact hbase hwith
  · intro h
    rw [h]

end PlainLink

end CanonicalLink

end Feedpulse
