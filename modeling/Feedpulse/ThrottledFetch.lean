import Feedpulse.BodyReading
import Feedpulse.Calls
import Feedpulse.FeedFailure
import Feedpulse.RequestPacing
import Mathlib.Data.List.Infix

/-!
# Throttled fetches

A 429, or a 503 that says when to come back, makes the fetcher fail with a message that quotes
the URL of the feed and the `Retry-After` header. `ProcessFeedJob` classifies it by looking for
words in it, so the words can also come from what is quoted: `throttled_transient_iff` says when
a throttled fetch is transient whatever the error count, and `throttled_feed_paused` is a feed
that is paused for a word in its URL.
-/

namespace Feedpulse

/-! ## The fetcher -/

/-- What the fetcher reads of a response. -/
structure FeedResponse extends BodyResponse where
  /-- status -/
  statusCode : Nat
  /-- `Retry-After` -/
  retryAfter : Option String
  /-- `ETag` -/
  etag : Option String
  /-- `Last-Modified` -/
  lastModified : Option String

namespace HttpFeedFetcher

/-- `THROTTLED_STATUS_CODES`. -/
def throttledStatusCodes : List Nat := [429, 503]

/-- The message of the error for a throttled fetch. -/
def throttleMessage (statusCode : Nat) (url : String) (retryAfterHeader : Option String) :
    String :=
  "Rate limited (" ++ toString statusCode ++ ") for " ++ url ++ ", retry after " ++
    retryAfterHeader.getD "exponential backoff"

/-- What `fetch` makes of a response: what it returns, or the message of its error. -/
def receive (rt : RateRuntime) (bodies : BodyRuntime) (maxBytes : Nat) (url : String)
    (durationMs : Nat) (response : FeedResponse) : Except String FetchResponse :=
  let retryAfterHeader := DomainRateLimiter.parseRetryAfter rt response.retryAfter
  if response.statusCode = 429 ||
      (throttledStatusCodes.contains response.statusCode && retryAfterHeader ≠ none) then
    .error (throttleMessage response.statusCode url retryAfterHeader)
  else
    let returned (body : String) : FetchResponse :=
      { statusCode := response.statusCode
        body := body
        etag := response.etag
        lastModified := response.lastModified
        durationMs := durationMs }
    if response.statusCode = 304 then .ok (returned "")
    else
      match SafeFetch.readBodyWithLimit bodies response.toBodyResponse maxBytes none with
      | .ok body => .ok (returned body)
      | .error e => .error e.message

end HttpFeedFetcher

/-! ## Words in a text that is put together -/

section Words

variable {α : Type} {word front back : List α}

/-- A word does not lie across a seam at which none of its beginnings ends. -/
theorem infix_append_iff_of_apart
    (h : ∀ overlap, overlap <:+ front → overlap <+: word → overlap = []) :
    word <:+: front ++ back ↔ word <:+: front ∨ word <:+: back := by
  constructor
  · rintro ⟨before, after, heq⟩
    rw [List.append_assoc] at heq
    rcases List.append_eq_append_iff.mp heq with ⟨rest, hfront, hrest⟩ | ⟨rest, -, hback⟩
    · rcases List.append_eq_append_iff.mp hrest with ⟨rest', hrest', -⟩ | ⟨rest', hword, hback⟩
      · refine .inl ⟨before, rest', ?_⟩
        rw [hfront, hrest', List.append_assoc]
      · have hempty : rest = [] := h rest ⟨before, hfront.symm⟩ ⟨rest', hword.symm⟩
        subst hempty
        exact .inr ⟨[], after, by rw [hback, hword]; rfl⟩
    · exact .inr ⟨rest, after, by rw [hback, List.append_assoc]⟩
  · rintro (hfront | hback)
    · exact hfront.trans (List.prefix_append front back).isInfix
    · exact hback.trans (List.suffix_append front back).isInfix

/-- A word without a character does not lie across that character. -/
theorem infix_append_cons_iff {c : α} (h : c ∉ word) :
    word <:+: front ++ c :: back ↔ word <:+: front ∨ word <:+: back := by
  have hsplit : front ++ c :: back = (front ++ [c]) ++ back := by
    rw [List.append_assoc]
    rfl
  have hend : word <:+: front ++ [c] ↔ word <:+: front := by
    rw [List.infix_concat_iff]
    refine or_iff_right_of_imp fun hsuffix => ?_
    rcases List.suffix_concat_iff.mp hsuffix with rfl | ⟨t, rfl, -⟩
    · exact List.nil_infix
    · exact absurd (List.mem_append_right t (List.mem_singleton_self c)) h
  rw [hsplit, infix_append_iff_of_apart, hend]
  intro overlap hsuffix hpre
  rcases List.suffix_concat_iff.mp hsuffix with rfl | ⟨t, rfl, -⟩
  · rfl
  · exact absurd (hpre.subset (List.mem_append_right t (List.mem_singleton_self c))) h

/-- No end of the first text but the empty one begins the word. -/
def Apart [DecidableEq α] (word front : List α) : Bool :=
  front.tails.all fun overlap => overlap.isEmpty || !overlap.isPrefixOf word

theorem infix_append_iff_of_checked [DecidableEq α] (h : Apart word front = true) :
    word <:+: front ++ back ↔ word <:+: front ∨ word <:+: back := by
  refine infix_append_iff_of_apart fun overlap hsuffix hpre => ?_
  have hoverlap := List.all_eq_true.mp h overlap ((List.mem_tails _ _).mpr hsuffix)
  rw [List.isPrefixOf_iff_prefix.mpr hpre, Bool.not_true, Bool.or_false] at hoverlap
  exact List.isEmpty_iff.mp hoverlap

end Words

namespace FeedFailure

/-! ## Words the classification looks for -/

/-- The words of the terminal categories. -/
def terminalMarkers : List String :=
  ["status 404", "status 410", "feed not recognized as rss", "unsafe_host", "unsafe_protocol",
    "feed_url_host_not_allowed", "feed_body_too_large", "unable to parse xml",
    "invalid character in", "attribute without value"]

/-- The words of a failed name resolution. -/
def dnsMarkers : List String := ["could not resolve host", "enotfound", "eai_again"]

/-- The words of all categories. -/
def markers : List String := terminalMarkers ++ "status 403" :: dnsMarkers

/-- None of the words occurs in the text, in whatever case. -/
def Unmarked (rt : Runtime) (text : String) : Prop :=
  ∀ marker ∈ markers, Text.includes (rt.toLowerCase text) marker = false

instance (rt : Runtime) (text : String) : Decidable (Unmarked rt text) :=
  inferInstanceAs (Decidable (∀ marker ∈ markers, _))

/-- A failure is transient whatever the error count exactly if its message has none of the
words. -/
theorem transient_iff_unmarked {rt : Runtime} {message : String} :
    (∀ errorCount, detectFeedFailureCategory rt message errorCount = .transient) ↔
      Unmarked rt message := by
  constructor
  · intro h
    have hfive := h 5
    simp only [detectFeedFailureCategory, isDnsResolutionFailure, Nat.le_refl, decide_true,
      Bool.and_true, Nat.reduceLeDiff] at hfive
    simp only [Unmarked, markers, terminalMarkers, dnsMarkers, List.cons_append, List.nil_append,
      List.forall_mem_cons]
    split at hfive
    · cases hfive
    split at hfive
    · cases hfive
    split at hfive
    · cases hfive
    split at hfive
    · cases hfive
    split at hfive
    · cases hfive
    rename_i h404 hinvalid hxml h403 hdns
    simp only [Bool.or_eq_true, not_or, Bool.not_eq_true] at h404 hinvalid hxml h403 hdns
    obtain ⟨⟨hfeed, ⟨hhost, hprotocol⟩, hallowed⟩, hlarge⟩ := hinvalid
    exact ⟨h404.1, h404.2, hfeed, hhost, hprotocol, hallowed, hlarge, hxml.1.1, hxml.1.2, hxml.2,
      h403, hdns.1.1, hdns.1.2, hdns.2, fun _ h => absurd h List.not_mem_nil⟩
  · intro h errorCount
    simp only [Unmarked, markers, terminalMarkers, dnsMarkers, List.cons_append, List.nil_append,
      List.forall_mem_cons] at h
    simp [detectFeedFailureCategory, isDnsResolutionFailure, h]

/-- How a text is lowered: ASCII letter by letter, and on both sides of a blank or a comma on its
own, since what a letter becomes depends on the letters it stands among at most. -/
structure LowersWords (lower : String → String) : Prop where
  /-- ASCII texts -/
  ascii : ∀ text : String, (∀ c ∈ text.toList, c.toNat < 128) →
    (lower text).toList = text.toList.map Char.toLower
  /-- a blank -/
  blank : ∀ a b, lower (a ++ " " ++ b) = lower a ++ " " ++ lower b
  /-- a comma -/
  comma : ∀ a b, lower (a ++ "," ++ b) = lower a ++ "," ++ lower b

/-! ## The message of a throttled fetch -/

variable {rt : Runtime}

theorem includes_eq_false_iff {text marker : String} :
    Text.includes text marker = false ↔ ¬marker.toList <:+: text.toList := by
  rw [← Text.includes_iff, Bool.not_eq_true]

/-- An ASCII text that has none of the words, and ends in the beginning of none. -/
def Seamless (front : List Char) : Bool :=
  front.all (fun c => c.toNat < 128) && markers.all fun marker =>
    Apart marker.toList (front.map Char.toLower) &&
      !Text.includesChars marker.toList (front.map Char.toLower)

/-- The words behind a blank are those of the text, if there are none before it. -/
theorem unmarked_append_of_seamless (hlower : LowersWords rt.toLowerCase) {front back : String}
    (hfront : Seamless (front.toList ++ [' ']) = true) :
    Unmarked rt (front ++ " " ++ back) ↔ Unmarked rt back := by
  simp only [Seamless, Bool.and_eq_true, List.all_eq_true, decide_eq_true_eq, List.map_append,
    List.map_cons, List.map_nil, Bool.not_eq_true', ← Bool.not_eq_true, Text.includesChars_iff]
    at hfront
  have hlowerBlank : ' '.toLower = ' ' := rfl
  rw [hlowerBlank] at hfront
  have hascii : ∀ c ∈ front.toList, c.toNat < 128 := fun c hc =>
    hfront.1 c (List.mem_append_left _ hc)
  refine forall₂_congr fun marker hmarker => ?_
  obtain ⟨hapart, hnot⟩ := hfront.2 marker hmarker
  have htext : (rt.toLowerCase (front ++ " " ++ back)).toList
      = (front.toList.map Char.toLower ++ [' ']) ++ (rt.toLowerCase back).toList := by
    rw [hlower.blank, String.toList_append, String.toList_append, hlower.ascii front hascii]
    rfl
  rw [includes_eq_false_iff, includes_eq_false_iff, htext, infix_append_iff_of_checked hapart,
    or_iff_right hnot]

/-- No word of the classification contains a comma. -/
theorem unmarked_append_comma (hlower : LowersWords rt.toLowerCase) {front back : String} :
    Unmarked rt (front ++ "," ++ back) ↔ Unmarked rt front ∧ Unmarked rt back := by
  have hcomma : ∀ marker ∈ markers, ',' ∉ marker.toList := by decide
  simp only [Unmarked, ← forall₂_and]
  refine forall₂_congr fun marker hmarker => ?_
  have htext : (rt.toLowerCase (front ++ "," ++ back)).toList
      = (rt.toLowerCase front).toList ++ ',' :: (rt.toLowerCase back).toList := by
    rw [hlower.comma, String.toList_append, String.toList_append, List.append_assoc]
    rfl
  rw [includes_eq_false_iff, includes_eq_false_iff, includes_eq_false_iff, htext,
    infix_append_cons_iff (hcomma marker hmarker), not_or]

/-- An ASCII text without the words. -/
theorem unmarked_of_ascii (hlower : LowersWords rt.toLowerCase) {text : String}
    (hascii : text.toList.all (fun c => c.toNat < 128) = true)
    (htext : markers.all (fun marker =>
      !Text.includesChars marker.toList (text.toList.map Char.toLower)) = true) :
    Unmarked rt text := by
  simp only [List.all_eq_true, decide_eq_true_eq, Bool.not_eq_true', ← Bool.not_eq_true,
    Text.includesChars_iff] at hascii htext
  intro marker hmarker
  rw [includes_eq_false_iff, hlower.ascii text hascii]
  exact htext marker hmarker

/-- **The message of a throttled fetch** has one of the words exactly if what it quotes has. -/
theorem unmarked_throttleMessage (hlower : LowersWords rt.toLowerCase) {statusCode : Nat}
    (hstatus : statusCode = 429 ∨ statusCode = 503) {url : String}
    {retryAfterHeader : Option String} :
    Unmarked rt (HttpFeedFetcher.throttleMessage statusCode url retryAfterHeader) ↔
      Unmarked rt url ∧ ∀ text ∈ retryAfterHeader, Unmarked rt text := by
  have hquoted : Unmarked rt (retryAfterHeader.getD "exponential backoff") ↔
      ∀ text ∈ retryAfterHeader, Unmarked rt text := by
    cases retryAfterHeader with
    | none => exact iff_of_true (unmarked_of_ascii hlower (by decide) (by decide)) (by simp)
    | some text => simp
  have hretry : Unmarked rt (" retry after" ++ " " ++ retryAfterHeader.getD "exponential backoff")
      ↔ Unmarked rt (retryAfterHeader.getD "exponential backoff") :=
    unmarked_append_of_seamless hlower (by decide)
  have hfront : ∀ front : String, Seamless (front.toList ++ [' ']) = true →
      (Unmarked rt (front ++ " " ++ (url ++ "," ++ (" retry after" ++ " " ++
          retryAfterHeader.getD "exponential backoff"))) ↔
        Unmarked rt url ∧ ∀ text ∈ retryAfterHeader, Unmarked rt text) := by
    intro front hseamless
    rw [unmarked_append_of_seamless hlower hseamless, unmarked_append_comma hlower, hretry,
      hquoted]
  have hmessage : HttpFeedFetcher.throttleMessage statusCode url retryAfterHeader
      = ("Rate limited (" ++ toString statusCode ++ ") for") ++ " " ++ (url ++ "," ++
        (" retry after" ++ " " ++ retryAfterHeader.getD "exponential backoff")) := by
    have hcomma : ", retry after " = "," ++ (" retry after" ++ " ") := rfl
    have hfor : ") for " = ") for" ++ " " := rfl
    unfold HttpFeedFetcher.throttleMessage
    rw [hcomma, hfor]
    simp only [String.append_assoc]
  rw [hmessage]
  rcases hstatus with rfl | rfl
  · exact hfront _ (by decide)
  · exact hfront _ (by decide)

end FeedFailure

namespace HttpFeedFetcher

open FeedFailure
open DomainRateLimiter (nodeRuntime)

/-! ## Throttled fetches -/

variable (rt : RateRuntime) (bodies : BodyRuntime) (maxBytes : Nat) (url : String)

/-- The fetcher takes the response for a throttled one. -/
def Throttles (response : FeedResponse) : Prop :=
  response.statusCode = 429 ∨
    (response.statusCode = 503 ∧ DomainRateLimiter.parseRetryAfter rt response.retryAfter ≠ none)

/-- What is needed of a throttled answer: none of the words occurs in the URL, or in the header
that is quoted; an answer whose header cannot be read has a body within the limit. -/
structure Harmless (response : FeedResponse) : Prop where
  /-- what is quoted -/
  quoted : Throttles rt response → Unmarked rt.toRuntime url ∧
    ∀ text ∈ DomainRateLimiter.parseRetryAfter rt response.retryAfter, Unmarked rt.toRuntime text
  /-- an answer that is read on -/
  read : ¬Throttles rt response →
    SafeFetch.DeclaredWithin response.contentLength maxBytes ∧
      response.body.bytes.length ≤ maxBytes

variable {rt bodies maxBytes url} {response : FeedResponse} {durationMs : Nat}

theorem receive_of_throttles (h : Throttles rt response) :
    receive rt bodies maxBytes url durationMs response =
      .error (throttleMessage response.statusCode url
        (DomainRateLimiter.parseRetryAfter rt response.retryAfter)) := by
  refine if_pos ?_
  rcases h with h | ⟨h, hsome⟩
  · simp [h]
  · simp [h, throttledStatusCodes, hsome]

/-- An answer that is not taken for a throttled one fails only because of its body. -/
theorem receive_of_not_throttles (h : ¬Throttles rt response) (hstatus : response.statusCode = 503)
    {message : String} :
    receive rt bodies maxBytes url durationMs response = .error message ↔
      ¬(SafeFetch.DeclaredWithin response.contentLength maxBytes ∧
          response.body.bytes.length ≤ maxBytes) ∧ message = "feed_body_too_large" := by
  have hnone : DomainRateLimiter.parseRetryAfter rt response.retryAfter = none :=
    Classical.not_not.mp fun hsome => h (.inr ⟨hstatus, hsome⟩)
  have hthrottled : ¬(response.statusCode = 429 ||
      (throttledStatusCodes.contains response.statusCode &&
        DomainRateLimiter.parseRetryAfter rt response.retryAfter ≠ none)) = true := by
    simp [hstatus, hnone]
  have h304 : ¬response.statusCode = 304 := by simp [hstatus]
  rw [receive, if_neg hthrottled, if_neg h304]
  rcases SafeFetch.readBodyWithLimit_cases bodies response.toBodyResponse maxBytes none
    with ⟨hwithin, hok⟩ | ⟨hexceeds, herror⟩
  · rw [hok]
    exact iff_of_false (by simp) fun hmessage => hmessage.1 hwithin
  · rw [herror]
    simp only [Except.error.injEq, BodyTooLargeError.message]
    exact ⟨fun heq => ⟨hexceeds, heq.symm⟩, fun hmessage => hmessage.2.symm⟩

/-- **A throttled fetch is transient**, whatever the error count, exactly if no word of the
classification occurs in what its message quotes. -/
theorem throttled_transient_iff (hlower : LowersWords rt.toLowerCase)
    (hanswer : response.statusCode = 429 ∨
      (response.statusCode = 503 ∧ response.retryAfter ≠ none)) :
    (∀ message, receive rt bodies maxBytes url durationMs response = .error message →
        ∀ errorCount, detectFeedFailureCategory rt.toRuntime message errorCount = .transient) ↔
      Harmless rt maxBytes url response := by
  have hstatus : response.statusCode = 429 ∨ response.statusCode = 503 :=
    hanswer.imp_right And.left
  by_cases hthrottles : Throttles rt response
  · rw [receive_of_throttles hthrottles]
    have hmessage : Unmarked rt.toRuntime (throttleMessage response.statusCode url
        (DomainRateLimiter.parseRetryAfter rt response.retryAfter)) ↔ _ :=
      unmarked_throttleMessage hlower hstatus
    constructor
    · intro h
      refine ⟨fun _ => hmessage.mp (transient_iff_unmarked.mp (h _ rfl)), fun hnot => ?_⟩
      exact absurd hthrottles hnot
    · rintro ⟨hquoted, -⟩ message herror
      rw [← Except.error.inj herror]
      exact transient_iff_unmarked.mpr (hmessage.mpr (hquoted hthrottles))
  · have h503 : response.statusCode = 503 := hstatus.resolve_left fun h => hthrottles (.inl h)
    simp only [receive_of_not_throttles hthrottles h503]
    constructor
    · intro h
      refine ⟨fun hthrottles' => absurd hthrottles' hthrottles, fun _ => ?_⟩
      by_contra hexceeds
      have hunmarked := transient_iff_unmarked.mp (h _ ⟨hexceeds, rfl⟩) "feed_body_too_large"
        (by decide)
      rw [includes_eq_false_iff, hlower.ascii _ (by simp)] at hunmarked
      exact hunmarked (by decide)
    · rintro ⟨-, hread⟩ message ⟨hexceeds, -⟩
      exact absurd (hread hthrottles) hexceeds

/-- ASCII letters are lowered one by one. -/
theorem lowersWords_lowerAscii : LowersWords CanonicalLink.lowerAscii where
  ascii text _ := by simp [CanonicalLink.lowerAscii]
  blank a b := by
    have hblank : ' '.toLower = ' ' := rfl
    apply String.toList_injective
    simp [CanonicalLink.lowerAscii, hblank]
  comma a b := by
    have hcomma : ','.toLower = ',' := rfl
    apply String.toList_injective
    simp [CanonicalLink.lowerAscii, hcomma]

/-- An answer to slow down. -/
def slowDown : FeedResponse :=
  { contentLength := none
    contentType := none
    body := .buffer []
    statusCode := 429
    retryAfter := some "120"
    etag := none
    lastModified := none }

/-- A feed that is told to slow down is tried again. -/
theorem throttled_transient_iff_slowDown :
    ∃ message, receive nodeRuntime SafeFetch.asciiRuntime 1024 "https://a.example/rss" 5 slowDown
        = .error message ∧
      ∀ errorCount, detectFeedFailureCategory nodeRuntime.toRuntime message errorCount
        = .transient := by
  have hharmless : Harmless nodeRuntime 1024 "https://a.example/rss" slowDown :=
    ⟨fun _ => ⟨by decide, by decide⟩, fun h => absurd (.inl rfl) h⟩
  refine ⟨_, rfl, ?_⟩
  exact (throttled_transient_iff lowersWords_lowerAscii (.inl rfl)).mpr hharmless _
    (rfl : receive nodeRuntime SafeFetch.asciiRuntime 1024 "https://a.example/rss" 5 slowDown = _)

/-- A feed with one of the words in its URL is paused when it is told to slow down. -/
theorem throttled_feed_paused :
    ∃ message, receive nodeRuntime SafeFetch.asciiRuntime 1024 "https://a.example/unsafe_host.xml" 5
        slowDown = .error message ∧
      detectFeedFailureCategory nodeRuntime.toRuntime message 1 = .terminalInvalidFeed ∧
      (classifyFeedFailure nodeRuntime.toRuntime message 1 300 0).status = .paused :=
  ⟨_, rfl, by decide +kernel, by decide +kernel⟩

end HttpFeedFetcher

end Feedpulse
