import Feedpulse.FeedUrl
import Mathlib.Data.List.Chain
import Mathlib.Data.List.TakeWhile

/-!
# The normal form of the URL of a feed

`normalizeFeedUrl` applied to its own result changes nothing. The steps it takes are the
runtime's, so that the statement rests on `Whatwg`: what the URL standard says of the URLs of
web pages, above all that a serialised URL is parsed back as it was, and that a path without
dot segments is set as it is given. What is left to show is that the steps of the program do
not undo each other: a path whose slashes are collapsed and whose last slash is dropped keeps
its form, and has no segment that the path before did not have.
-/

namespace Feedpulse

namespace FeedUrl

/-! ## Paths -/

/-- A slash does not follow a slash. -/
def NoDoubleSlash (cs : List Char) : Prop := cs.IsChain fun a b => ¬(a = '/' ∧ b = '/')

theorem noDoubleSlash_cons {c : Char} {cs : List Char} (h : NoDoubleSlash cs)
    (hc : c = '/' → cs.head? ≠ some '/') : NoDoubleSlash (c :: cs) := by
  cases cs with
  | nil => exact List.IsChain.singleton c
  | cons d ds =>
    exact List.IsChain.cons_cons (fun ⟨hslash, hd⟩ => hc hslash (by rw [hd]; rfl)) h

/-- Within a run of slashes, no further one is written. -/
theorem head?_collapseSlashes (cs : List Char) : (collapseSlashes true cs).head? ≠ some '/' := by
  induction cs with
  | nil => simp [collapseSlashes]
  | cons c cs ih =>
    rw [collapseSlashes]
    split
    · exact ih
    · rename_i hc
      simpa using hc

theorem noDoubleSlash_collapseSlashes (inRun : Bool) (cs : List Char) :
    NoDoubleSlash (collapseSlashes inRun cs) := by
  induction cs generalizing inRun with
  | nil => exact List.IsChain.nil
  | cons c cs ih =>
    rw [collapseSlashes]
    split
    · split
      · exact ih true
      · exact noDoubleSlash_cons (ih true) fun _ => head?_collapseSlashes cs
    · rename_i hc
      exact noDoubleSlash_cons (ih false) fun h => absurd h hc

/-- Collapsing changes nothing where no slash follows a slash. -/
theorem collapseSlashes_eq_self {cs : List Char} (h : NoDoubleSlash cs) (inRun : Bool)
    (hrun : inRun = true → cs.head? ≠ some '/') : collapseSlashes inRun cs = cs := by
  induction cs generalizing inRun with
  | nil => rfl
  | cons c cs ih =>
    have htail : NoDoubleSlash cs := h.tail
    rw [collapseSlashes]
    split
    · rename_i hc
      have hnext : cs.head? ≠ some '/' := by
        cases cs with
        | nil => simp
        | cons d ds =>
          have hd := (List.isChain_cons_cons.mp h).1
          simpa [hc] using hd
      rw [if_neg (fun hin => hrun hin (by rw [hc]; rfl)), ih htail true fun _ => hnext, hc]
    · rw [ih htail false (by simp)]

/-- What is dropped at the end of a path are slashes. -/
theorem dropTrailingSlashes_append (cs : List Char) :
    ∃ slashes, cs = dropTrailingSlashes cs ++ slashes ∧ ∀ c ∈ slashes, c = '/' := by
  refine ⟨(cs.reverse.takeWhile fun c => c = '/').reverse, ?_, ?_⟩
  · rw [dropTrailingSlashes, ← List.reverse_append, List.takeWhile_append_dropWhile,
      List.reverse_reverse]
  · intro c hc
    simpa using List.mem_takeWhile_imp (List.mem_reverse.mp hc)

theorem getLast?_dropTrailingSlashes (cs : List Char) :
    (dropTrailingSlashes cs).getLast? ≠ some '/' := by
  rw [dropTrailingSlashes, List.getLast?_reverse]
  intro h
  have hne : cs.reverse.dropWhile (fun c => c = '/') ≠ [] := by
    intro hnil
    simp [hnil] at h
  have hhead := List.head_dropWhile_not (fun c : Char => decide (c = '/')) hne
  rw [List.head?_eq_some_head hne, Option.some.injEq] at h
  simp [h] at hhead

theorem dropTrailingSlashes_eq_self {cs : List Char} (h : cs.getLast? ≠ some '/') :
    dropTrailingSlashes cs = cs := by
  rw [dropTrailingSlashes]
  rcases hrev : cs.reverse with _ | ⟨c, rest⟩
  · simpa using hrev.symm
  · have hc : c ≠ '/' := by
      intro hc
      rw [← List.head?_reverse, hrev, hc] at h
      exact h rfl
    rw [List.dropWhile_cons_of_neg (by simpa using hc), ← hrev, List.reverse_reverse]

/-! ## Segments -/

/-- The segments of a path. -/
def pathSegments (cs : List Char) : List (List Char) := cs.splitOn '/'

/-- A segment the URL standard resolves: `.` and `..`, whose dots may be percent-encoded. -/
def isDotSegment (segment : List Char) : Bool :=
  [".", "%2e", "..", ".%2e", "%2e.", "%2e%2e"].contains (String.ofList (segment.map Char.toLower))

/-- No segment of a path is resolved. -/
def NoDotSegments (cs : List Char) : Prop :=
  ∀ segment ∈ pathSegments cs, isDotSegment segment = false

theorem isDotSegment_nil : isDotSegment [] = false := by decide +kernel

theorem pathSegments_slash (cs : List Char) : pathSegments ('/' :: cs) = [] :: pathSegments cs := by
  rw [pathSegments, List.splitOn_cons_eq_if_modifyHead]
  rfl

theorem pathSegments_cons {c : Char} (hc : c ≠ '/') (cs : List Char) :
    pathSegments (c :: cs) = (pathSegments cs).modifyHead (List.cons c) := by
  rw [pathSegments, List.splitOn_cons_eq_if_modifyHead, if_neg (by simpa using hc)]
  rfl

theorem exists_pathSegments (cs : List Char) : ∃ head tail, pathSegments cs = head :: tail := by
  rcases h : pathSegments cs with _ | ⟨head, tail⟩
  · exact absurd h (List.splitOn_ne_nil '/' cs)
  · exact ⟨head, tail, rfl⟩

/-- Collapsing slashes leaves the first segment, and of the others removes empty ones. -/
theorem pathSegments_collapseSlashes (cs : List Char) :
    (∃ head tail tail', pathSegments cs = head :: tail ∧
      pathSegments (collapseSlashes false cs) = head :: tail' ∧
        ∀ segment ∈ tail', segment = [] ∨ segment ∈ tail) ∧
    ∀ segment ∈ pathSegments (collapseSlashes true cs),
      segment = [] ∨ segment ∈ pathSegments cs := by
  induction cs with
  | nil => exact ⟨⟨[], [], [], rfl, rfl, nofun⟩, fun segment h => .inr h⟩
  | cons c cs ih =>
    obtain ⟨⟨head, tail, tail', hcs, hfalse, htail⟩, htrue⟩ := ih
    by_cases hc : c = '/'
    · subst hc
      have hwritten : collapseSlashes false ('/' :: cs) = '/' :: collapseSlashes true cs := by
        simp [collapseSlashes]
      have hskipped : collapseSlashes true ('/' :: cs) = collapseSlashes true cs := by
        simp [collapseSlashes]
      rw [hwritten, hskipped, pathSegments_slash, pathSegments_slash]
      refine ⟨⟨[], _, _, rfl, rfl, htrue⟩, fun segment h => ?_⟩
      exact (htrue segment h).imp_right (List.mem_cons_of_mem [])
    · have hkept : ∀ inRun, collapseSlashes inRun (c :: cs) = c :: collapseSlashes false cs := by
        simp [collapseSlashes, hc]
      rw [hkept, hkept, pathSegments_cons hc, pathSegments_cons hc, hcs, hfalse]
      refine ⟨⟨c :: head, tail, tail', rfl, rfl, htail⟩, fun segment h => ?_⟩
      rcases List.mem_cons.mp h with rfl | h
      · exact .inr List.mem_cons_self
      · exact (htail segment h).imp_right (List.mem_cons_of_mem _)

theorem NoDotSegments.collapseSlashes {cs : List Char} (h : NoDotSegments cs) :
    NoDotSegments (collapseSlashes false cs) := by
  obtain ⟨⟨head, tail, tail', hcs, hfalse, htail⟩, -⟩ := pathSegments_collapseSlashes cs
  rw [NoDotSegments, hcs] at h
  rw [NoDotSegments, hfalse]
  intro segment hmem
  rcases List.mem_cons.mp hmem with rfl | hmem
  · exact h _ List.mem_cons_self
  · rcases htail segment hmem with rfl | hmem
    · exact isDotSegment_nil
    · exact h _ (List.mem_cons_of_mem _ hmem)

theorem NoDotSegments.dropTrailingSlashes {cs : List Char} (h : NoDotSegments cs) :
    NoDotSegments (dropTrailingSlashes cs) := by
  obtain ⟨slashes, hcs, hslashes⟩ := dropTrailingSlashes_append cs
  rcases slashes with _ | ⟨c, rest⟩
  · rw [List.append_nil] at hcs
    exact hcs ▸ h
  · have hc : c = '/' := hslashes c List.mem_cons_self
    intro segment hmem
    refine h segment ?_
    rw [hcs, hc, pathSegments, List.splitOn_append_cons_self]
    exact List.mem_append_left _ hmem

/-! ## The normal form of a path -/

/-- The normal form of a path, on characters. -/
def normalizedPath (cs : List Char) : List Char :=
  if collapseSlashes false cs = ['/'] then ['/']
  else dropTrailingSlashes (collapseSlashes false cs)

theorem normalizePathname_toList (pathname : String) :
    (normalizePathname pathname).toList = normalizedPath pathname.toList :=
  String.toList_ofList

theorem normalizedPath_idem (cs : List Char) :
    normalizedPath (normalizedPath cs) = normalizedPath cs := by
  by_cases hroot : collapseSlashes false cs = ['/']
  · rw [normalizedPath.eq_1 cs, if_pos hroot]
    rfl
  · rw [normalizedPath.eq_1 cs, if_neg hroot]
    have hdouble : NoDoubleSlash (dropTrailingSlashes (collapseSlashes false cs)) := by
      obtain ⟨slashes, hcs, -⟩ := dropTrailingSlashes_append (collapseSlashes false cs)
      have hchain := noDoubleSlash_collapseSlashes false cs
      rw [NoDoubleSlash, hcs] at hchain
      exact hchain.left_of_append
    have hlast := getLast?_dropTrailingSlashes (collapseSlashes false cs)
    rw [normalizedPath, collapseSlashes_eq_self hdouble false nofun,
      dropTrailingSlashes_eq_self hlast, if_neg]
    intro h
    exact hlast (by rw [h]; rfl)

theorem mem_collapseSlashes {c : Char} {inRun : Bool} {cs : List Char}
    (h : c ∈ collapseSlashes inRun cs) : c ∈ cs := by
  induction cs generalizing inRun with
  | nil => exact h
  | cons d cs ih =>
    rw [collapseSlashes] at h
    split at h
    · split at h
      · exact List.mem_cons_of_mem _ (ih h)
      · rename_i hd _
        rw [hd]
        exact (List.mem_cons.mp h).elim (fun h => h ▸ List.mem_cons_self)
          fun h => List.mem_cons_of_mem _ (ih h)
    · exact (List.mem_cons.mp h).elim (fun h => h ▸ List.mem_cons_self)
        fun h => List.mem_cons_of_mem _ (ih h)

theorem mem_normalizedPath {c : Char} {cs : List Char} (habsolute : cs.head? = some '/')
    (h : c ∈ normalizedPath cs) : c ∈ cs := by
  rw [normalizedPath] at h
  split at h
  · rw [List.mem_singleton.mp h]
    exact List.mem_of_mem_head? habsolute
  · obtain ⟨slashes, hcs, -⟩ := dropTrailingSlashes_append (collapseSlashes false cs)
    have hmem : c ∈ collapseSlashes false cs := by
      rw [hcs]
      exact List.mem_append_left _ h
    exact mem_collapseSlashes hmem

theorem NoDotSegments.normalizedPath {cs : List Char} (h : NoDotSegments cs) :
    NoDotSegments (normalizedPath cs) := by
  rw [FeedUrl.normalizedPath]
  split
  · unfold NoDotSegments
    decide +kernel
  · exact h.collapseSlashes.dropTrailingSlashes

theorem head?_normalizedPath {cs : List Char} (h : cs.head? = some '/') :
    (normalizedPath cs).head? = some '/' := by
  have hcollapsed : (collapseSlashes false cs).head? = some '/' := by
    rcases cs with _ | ⟨c, cs⟩
    · cases h
    · rw [Option.some.inj h]
      rfl
  rw [normalizedPath]
  split
  · rfl
  · rename_i hroot
    obtain ⟨slashes, hcs, hslashes⟩ := dropTrailingSlashes_append (collapseSlashes false cs)
    rcases hdropped : dropTrailingSlashes (collapseSlashes false cs) with _ | ⟨c, rest⟩
    · -- only slashes were collapsed, so that a single one was left
      exfalso
      rw [hdropped, List.nil_append] at hcs
      have hdouble := noDoubleSlash_collapseSlashes false cs
      rw [hcs] at hdouble hroot hcollapsed
      rcases slashes with _ | ⟨c, _ | ⟨d, rest⟩⟩
      · cases hcollapsed
      · exact hroot (by rw [hslashes c List.mem_cons_self])
      · exact (List.isChain_cons_cons.mp hdouble).1
          ⟨hslashes c List.mem_cons_self, hslashes d (List.mem_cons_of_mem _ List.mem_cons_self)⟩
    · rw [hcs, hdropped] at hcollapsed
      exact hcollapsed

end FeedUrl

/-! ## The URL standard -/

namespace UrlRuntime

/-- The URLs a program can hold: a parsed text, changed by setters. -/
inductive IsUrl (rt : UrlRuntime) : ParsedUrl → Prop
  /-- `new URL(text)` -/
  | parsed {text : String} {url : ParsedUrl} (h : rt.parseUrl text = some url) : rt.IsUrl url
  /-- `url.protocol = value` -/
  | setProtocol {url : ParsedUrl} (value : String) (h : rt.IsUrl url) :
    rt.IsUrl (rt.setProtocol url value)
  /-- `url.hostname = value` -/
  | setHostname {url : ParsedUrl} (value : String) (h : rt.IsUrl url) :
    rt.IsUrl (rt.setHostname url value)
  /-- `url.port = value` -/
  | setPort {url : ParsedUrl} (value : String) (h : rt.IsUrl url) : rt.IsUrl (rt.setPort url value)
  /-- `url.pathname = value` -/
  | setPathname {url : ParsedUrl} (value : String) (h : rt.IsUrl url) :
    rt.IsUrl (rt.setPathname url value)
  /-- `url.hash = value` -/
  | setHash {url : ParsedUrl} (value : String) (h : rt.IsUrl url) : rt.IsUrl (rt.setHash url value)

/-- The URL of a web page. -/
structure IsWeb (rt : UrlRuntime) (url : ParsedUrl) : Prop where
  /-- it is a URL -/
  isUrl : rt.IsUrl url
  /-- of a scheme with a host and a path -/
  protocol : url.protocol = "http:" ∨ url.protocol = "https:"

/-- What the URL standard says of the URLs of web pages. -/
structure Whatwg (rt : UrlRuntime) : Prop where
  /-- the empty text is no URL -/
  parse_empty : rt.parseUrl "" = none
  /-- schemes are in lower case -/
  protocol_lower : ∀ url, rt.IsUrl url → rt.toLowerCase url.protocol = url.protocol
  /-- so are hosts -/
  hostname_lower : ∀ url, rt.IsWeb url → rt.toLowerCase url.hostname = url.hostname
  /-- the default port is not kept -/
  port : ∀ url, rt.IsWeb url → FeedUrl.isDefaultPort url.protocol url.port = false
  /-- a path begins with a slash -/
  pathname_absolute : ∀ url, rt.IsWeb url → url.pathname.toList.head? = some '/'
  /-- dot segments are removed -/
  pathname_clean : ∀ url, rt.IsWeb url → FeedUrl.NoDotSegments url.pathname.toList
  /-- the scheme a URL has can be set -/
  setProtocol_self : ∀ url, rt.IsWeb url → rt.setProtocol url url.protocol = url
  /-- so can the host -/
  setHostname_self : ∀ url, rt.IsWeb url → rt.setHostname url url.hostname = url
  /-- a path without dot segments is set as it is, if its characters are those of a path -/
  setPathname_eq : ∀ url, rt.IsWeb url → ∀ pathname : String,
    pathname.toList.head? = some '/' → FeedUrl.NoDotSegments pathname.toList →
    (∀ c ∈ pathname.toList, c ∈ url.pathname.toList) →
      rt.setPathname url pathname = { url with pathname := pathname }
  /-- setting the empty fragment removes the fragment -/
  setHash_empty : ∀ url, rt.IsWeb url → rt.setHash url "" = { url with hash := "" }
  /-- a serialised URL is parsed back -/
  parse_toString : ∀ url, rt.IsWeb url → rt.parseUrl (rt.urlToString url) = some url
  /-- there are no blanks around a serialised URL -/
  trim_toString : ∀ url, rt.IsWeb url → Text.trim (rt.urlToString url) = rt.urlToString url

end UrlRuntime

namespace FeedUrl

section Whatwg

variable {rt : UrlRuntime} {allowPrivateHosts : Bool}

/-- What the setters make of the URL of a web page. -/
theorem normalizeParts_eq (hrt : rt.Whatwg) {url : ParsedUrl} (h : rt.IsWeb url) :
    normalizeParts rt url
      = { url with pathname := normalizePathname url.pathname, hash := "" } := by
  have hpathname : rt.setPathname url (normalizePathname url.pathname)
      = { url with pathname := normalizePathname url.pathname } := by
    refine hrt.setPathname_eq url h _ ?_ ?_ ?_
    · rw [normalizePathname_toList]
      exact head?_normalizedPath (hrt.pathname_absolute url h)
    · rw [normalizePathname_toList]
      exact (hrt.pathname_clean url h).normalizedPath
    · intro c hc
      rw [normalizePathname_toList] at hc
      exact mem_normalizedPath (hrt.pathname_absolute url h) hc
  have hweb : rt.IsWeb { url with pathname := normalizePathname url.pathname } :=
    ⟨hpathname ▸ .setPathname _ h.isUrl, h.protocol⟩
  simp only [normalizeParts, hrt.protocol_lower url h.isUrl, hrt.setProtocol_self url h,
    hrt.hostname_lower url h, hrt.setHostname_self url h, hrt.port url h, Bool.false_eq_true,
    if_false, hpathname, hrt.setHash_empty _ hweb]

theorem isWeb_normalizeParts (hrt : rt.Whatwg) {url : ParsedUrl} (h : rt.IsWeb url) :
    rt.IsWeb (normalizeParts rt url) := by
  refine ⟨?_, ?_⟩
  · have hport : ∀ parsed : ParsedUrl, rt.IsUrl parsed → rt.IsUrl
        (if isDefaultPort (rt.toLowerCase url.protocol) parsed.port then rt.setPort parsed ""
          else parsed) := by
      intro parsed hparsed
      split
      · exact .setPort _ hparsed
      · exact hparsed
    exact .setHash _ (.setPathname _ (hport _ (.setHostname _ (.setProtocol _ h.isUrl))))
  · rw [normalizeParts_eq hrt h]
    exact h.protocol

/-- The URL of which a text is the normal form. -/
theorem normalizeFeedUrl_eq_ok (hrt : rt.Whatwg) {input normalizedUrl : String}
    (h : normalizeFeedUrl rt allowPrivateHosts input = .ok normalizedUrl) :
    ∃ url, rt.IsWeb url ∧ isSafePublicUrl rt allowPrivateHosts url = true ∧
      normalizedUrl = rt.urlToString (normalizeParts rt url) := by
  simp only [normalizeFeedUrl] at h
  split at h
  · cases h
  split at h
  · cases h
  rename_i url hparse
  have hurl : rt.IsUrl url := .parsed hparse
  rw [hrt.protocol_lower url hurl] at h
  split at h
  · cases h
  rename_i hprotocol
  split at h
  · cases h
  rename_i hsafe
  refine ⟨url, ⟨hurl, ?_⟩, by simpa using hsafe, (Except.ok.inj h).symm⟩
  simpa [imp_iff_not_or] using hprotocol

/-- **A normal form is its own normal form.** -/
theorem normalizeFeedUrl_idem (hrt : rt.Whatwg) {input normalizedUrl : String}
    (h : normalizeFeedUrl rt allowPrivateHosts input = .ok normalizedUrl) :
    normalizeFeedUrl rt allowPrivateHosts normalizedUrl = .ok normalizedUrl := by
  obtain ⟨url, hweb, hsafe, rfl⟩ := normalizeFeedUrl_eq_ok hrt h
  have hnormal := isWeb_normalizeParts hrt hweb
  have hparse := hrt.parse_toString _ hnormal
  have hne : rt.urlToString (normalizeParts rt url) ≠ "" := by
    intro hempty
    rw [hempty, hrt.parse_empty] at hparse
    cases hparse
  -- scheme and host are the ones that were checked
  have hsafe' : isSafePublicUrl rt allowPrivateHosts (normalizeParts rt url) = true := by
    rw [normalizeParts_eq hrt hweb]
    exact hsafe
  have hagain : normalizeParts rt (normalizeParts rt url) = normalizeParts rt url := by
    rw [normalizeParts_eq hrt hnormal, normalizeParts_eq hrt hweb, ParsedUrl.mk.injEq]
    refine ⟨rfl, rfl, rfl, rfl, ?_, rfl, rfl⟩
    rw [← String.toList_inj, normalizePathname_toList, normalizePathname_toList,
      normalizedPath_idem]
  have hprotocol : ¬((decide (rt.toLowerCase (normalizeParts rt url).protocol ≠ "http:") &&
      decide (rt.toLowerCase (normalizeParts rt url).protocol ≠ "https:")) = true) := by
    rw [hrt.protocol_lower _ hnormal.isUrl]
    rcases hnormal.protocol with hhttp | hhttps <;> simp [*]
  simp only [normalizeFeedUrl, hrt.trim_toString _ hnormal, if_neg hne, hparse, if_neg hprotocol,
    hsafe', hagain, Bool.not_true, Bool.false_eq_true, if_false]

end Whatwg

end FeedUrl

end Feedpulse
