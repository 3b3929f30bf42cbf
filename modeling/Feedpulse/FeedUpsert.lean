import Feedpulse.FeedUrlNormalForm
import Feedpulse.OpmlClassification
import Feedpulse.OpmlFrames

/-!
# Feeds by their normal form

The apply job of an OPML import brings in a feed by `upsertFeed`: it inserts a row, and if
one of the two unique indexes is in the way, it looks for the row that is, first by hash, then
by URL, and compares the normal form of what it finds. `upsertFeed_resolves` says what comes of
it when no other transaction writes: the job ends with a feed of the tenant whose URL has the
normal form, a row is new exactly if the tenant had none, and neither error of the lookup
occurs. It holds of every table that an earlier insertion can have left, also of rows without
a hash, because a normal form is its own.
-/

namespace Feedpulse

namespace ProcessOpmlApplyJob

open FeedUrl

variable (cfg : OpmlConfig) (rt : OpmlRuntime)

/-- The hash a row keeps, if any, is that of the normal form of its URL. -/
def KeepsHash (feed : FeedRow) : Prop :=
  feed.normalizedUrlHash = none ∨
    ∃ url, normalizeFeedUrl rt.toUrlRuntime cfg.allowPrivateFeedHosts feed.url = .ok url ∧
      feed.normalizedUrlHash = some (buildNormalizedFeedUrlHash rt.toUrlRuntime url)

/-- The rows of `feeds` agree with the unique indexes, and with the hashes they keep. -/
structure Consistent (feeds : List FeedRow) : Prop where
  /-- no row stands in the way of another one -/
  unique : feeds.Pairwise fun f g =>
    OpmlImports.feedConflicts g.tenantId g.url g.normalizedUrlHash f = false
  /-- hashes are those of the normal forms -/
  hashes : ∀ feed ∈ feeds, KeepsHash cfg rt feed

/-- What `upsertFeed` is for: from the feeds of all tenants to those after it, it leads to a
feed of this tenant with this normal form. -/
structure Resolved (tenantId candidate : String) (feeds feeds' : List FeedRow)
    (result : UpsertFeedResult) : Prop where
  /-- no collision is reported -/
  collision : result.collision = false
  /-- a row is created exactly if the tenant has none with the hash or the URL -/
  created_iff : result.created = true ↔
    ¬ProcessOpmlParseJob.Owns tenantId feeds
      (buildNormalizedFeedUrlHash rt.toUrlRuntime candidate) candidate
  /-- the rows there were stay as they are -/
  rows : ∃ row, feeds' = if result.created then feeds ++ [row] else feeds
  /-- the feed is one of the tenant, and has the normal form -/
  feed : ∃ feed ∈ feeds', feed.id = result.feedId ∧ feed.tenantId = tenantId ∧
    normalizeFeedUrl rt.toUrlRuntime cfg.allowPrivateFeedHosts feed.url = .ok candidate

/-- The answer to a call of a process that runs alone, when nothing fails. -/
def answerAlone (pid jitter : Nat) (w : OpmlWorld) (c : OpmlCall) :
    Option (Except String c.Reply × OpmlWorld) :=
  c.answer pid w (.ok (.random jitter))

variable {cfg : OpmlConfig} {rt : OpmlRuntime}

/-! ## The rows found -/

theorem owns_iff_conflict {tenantId hash url : String} {feeds : List FeedRow} :
    ProcessOpmlParseJob.Owns tenantId feeds hash url ↔
      feeds.any (OpmlImports.feedConflicts tenantId url (some hash)) = true := by
  simp only [ProcessOpmlParseJob.Owns, List.any_eq_true, OpmlImports.feedConflicts,
    Bool.and_eq_true, Bool.or_eq_true, decide_eq_true_eq, Option.isSome_some, true_and]
  exact exists_congr fun _ => and_congr_right fun _ => and_congr_right fun _ => or_comm

/-- The lookup finds a row of the tenant with the hash or with the URL. -/
theorem findFeedByHashOrUrl_eq_some {tenantId hash url : String} {feeds : List FeedRow}
    {feed : FeedRow} (h : OpmlImports.findFeedByHashOrUrl tenantId hash url feeds = some feed) :
    feed ∈ feeds ∧ feed.tenantId = tenantId ∧
      (feed.normalizedUrlHash = some hash ∨ feed.url = url) := by
  rcases Option.or_eq_some_iff.mp h with h | ⟨-, h⟩
  · have hfound := List.find?_some h
    simp only [Bool.and_eq_true, decide_eq_true_eq] at hfound
    exact ⟨List.mem_of_find?_eq_some h, hfound.1, .inl hfound.2⟩
  · have hfound := List.find?_some h
    simp only [Bool.and_eq_true, decide_eq_true_eq] at hfound
    exact ⟨List.mem_of_find?_eq_some h, hfound.1, .inr hfound.2⟩

/-- The lookup finds a row wherever there is one. -/
theorem findFeedByHashOrUrl_of_owns {tenantId hash url : String} {feeds : List FeedRow}
    (h : ProcessOpmlParseJob.Owns tenantId feeds hash url) :
    ∃ feed, OpmlImports.findFeedByHashOrUrl tenantId hash url feeds = some feed := by
  obtain ⟨feed, hmem, htenant, hkey⟩ := h
  rw [← Option.isSome_iff_exists, OpmlImports.findFeedByHashOrUrl, Option.isSome_or,
    Bool.or_eq_true, List.find?_isSome, List.find?_isSome]
  rcases hkey with hhash | hurl
  · exact .inl ⟨feed, hmem, by simp [htenant, hhash]⟩
  · exact .inr ⟨feed, hmem, by simp [htenant, hurl]⟩

/-- A row with the hash or the URL of a normal form has this normal form. -/
theorem normalizeFeedUrl_of_key (hrt : rt.toUrlRuntime.Whatwg)
    (hsha : Function.Injective rt.sha256Hex) {source candidate : String} {feed : FeedRow}
    (hcandidate : normalizeFeedUrl rt.toUrlRuntime cfg.allowPrivateFeedHosts source
      = .ok candidate)
    (hkeeps : KeepsHash cfg rt feed)
    (hkey : feed.normalizedUrlHash
        = some (buildNormalizedFeedUrlHash rt.toUrlRuntime candidate) ∨ feed.url = candidate) :
    normalizeFeedUrl rt.toUrlRuntime cfg.allowPrivateFeedHosts feed.url = .ok candidate := by
  rcases hkey with hhash | hurl
  · rcases hkeeps with hnone | ⟨url, hurl, hkept⟩
    · rw [hnone] at hhash
      cases hhash
    · have hsame : url = candidate := hsha (Option.some.inj (hkept.symm.trans hhash))
      rw [hurl, hsame]
  · rw [hurl]
    exact normalizeFeedUrl_idem hrt hcandidate

/-- A new row keeps the table consistent. -/
theorem Consistent.concat {feeds : List FeedRow} {row : FeedRow} (h : Consistent cfg rt feeds)
    (hrow : KeepsHash cfg rt row)
    (hfree : feeds.any (OpmlImports.feedConflicts row.tenantId row.url row.normalizedUrlHash)
      = false) : Consistent cfg rt (feeds ++ [row]) where
  unique := by
    refine List.pairwise_append.mpr ⟨h.unique, List.pairwise_singleton _ _, ?_⟩
    intro f hf g hg
    rw [List.mem_singleton.mp hg]
    exact Bool.eq_false_iff.mpr fun hconflict =>
      Bool.eq_false_iff.mp hfree (List.any_eq_true.mpr ⟨f, hf, hconflict⟩)
  hashes feed hfeed := by
    rcases List.mem_append.mp hfeed with hfeed | hfeed
    · exact h.hashes feed hfeed
    · rw [List.mem_singleton.mp hfeed]
      exact hrow

/-! ## Statements in a transaction -/

section Alone

variable {w : OpmlWorld} {pid jitter : Nat} {t : OpmlTxn} {s : OpmlStatement}

/-- A statement that only reads. -/
theorem exec_read (htxn : w.opmlTxn pid = some t) (hlive : t.aborted = false) {reply : s.Reply}
    (heval : s.eval t.startedAt w.sequences (w.view t) = (.ok reply, none)) :
    Prog.exec (answerAlone pid jitter) (opmlStatement .client s) w = some (.ok reply, w) := by
  refine Prog.exec_invoke ?_
  change w.onClient pid s = _
  simp only [OpmlWorld.onClient, htxn, hlive, heval, Bool.false_eq_true, if_false]

/-- A statement that writes, when no other transaction has written. -/
theorem exec_write (htxn : w.opmlTxn pid = some t) (hlive : t.aborted = false)
    (hquiet : ∀ other ∈ w.otherOpmlTxns pid, other.writes = []) {reply : s.Reply}
    {x : OpmlWrite}
    (heval : s.eval t.startedAt w.sequences (w.view t) = (.ok reply, some x)) :
    ∃ w', Prog.exec (answerAlone pid jitter) (opmlStatement .client s) w
        = some (.ok reply, w') ∧
      w'.opmlTxn pid = some { t with writes := t.writes ++ [x] } ∧
      w'.view { t with writes := t.writes ++ [x] } = x.apply t.startedAt (w.view t) := by
  have hfree : w.blocked (w.otherOpmlTxns pid) x = false := by
    rw [OpmlWorld.blocked, List.any_eq_false]
    intro other hother
    simp [hquiet other hother]
  refine ⟨{ w.setOpmlTxn pid { t with writes := t.writes ++ [x] } with
      sequences := x.advance w.sequences }, ?_, OpmlWorld.opmlTxn_setOpmlTxn _, ?_⟩
  · refine Prog.exec_invoke ?_
    change w.onClient pid s = _
    simp only [OpmlWorld.onClient, htxn, hlive, heval, hfree, Bool.false_eq_true, if_false]
  · exact OpmlTables.applyAll_append t.startedAt t.writes [x] w.tables

theorem exec_random {bound : Nat} (h : jitter < bound) :
    Prog.exec (answerAlone pid jitter) (ofCore (random bound)) w = some (.ok jitter, w) := by
  have hanswer : answerAlone pid jitter w (.core (.random bound)) = some (.ok jitter, w) := by
    simp [answerAlone, OpmlCall.answer, Call.answer, Call.serve, h]
  rw [random, Prog.invoke, ofCore, Prog.exec, hanswer]
  rfl

end Alone

/-! ## The upsert -/

section Upsert

variable {w : OpmlWorld} {pid jitter : Nat} {t : OpmlTxn} {tenantId candidate : String}

/-- A row is in the way: it is looked for, and what is found has the normal form. -/
theorem upsertFeed_of_owns (hjitter : jitter < max 1 cfg.opmlInitialJitterMaxSeconds)
    (htxn : w.opmlTxn pid = some t) (hlive : t.aborted = false)
    (howns : ProcessOpmlParseJob.Owns tenantId (w.view t).feeds
      (buildNormalizedFeedUrlHash rt.toUrlRuntime candidate) candidate)
    (hnormal : ∀ feed ∈ (w.view t).feeds, feed.normalizedUrlHash
        = some (buildNormalizedFeedUrlHash rt.toUrlRuntime candidate) ∨ feed.url = candidate →
      normalizeFeedUrl rt.toUrlRuntime cfg.allowPrivateFeedHosts feed.url = .ok candidate) :
    ∃ result, Prog.exec (answerAlone pid jitter) (upsertFeed cfg rt tenantId candidate) w
        = some (.ok result, w) ∧
      Resolved cfg rt tenantId candidate (w.view t).feeds (w.view t).feeds result := by
  have hinsert : (OpmlStatement.insertFeedOrNothing tenantId candidate
      (buildNormalizedFeedUrlHash rt.toUrlRuntime candidate) jitter).eval t.startedAt
        w.sequences (w.view t) = (.ok none, none) := by
    simp only [OpmlStatement.eval, owns_iff_conflict.mp howns, if_true]
  obtain ⟨feed, hfound⟩ := findFeedByHashOrUrl_of_owns howns
  obtain ⟨hmem, htenant, hkey⟩ := findFeedByHashOrUrl_eq_some hfound
  have hsame := hnormal feed hmem hkey
  have hlookup : (OpmlStatement.findFeedByHashOrUrl tenantId
      (buildNormalizedFeedUrlHash rt.toUrlRuntime candidate) candidate).eval t.startedAt
        w.sequences (w.view t) = (.ok (some feed), none) := by
    simp only [OpmlStatement.eval, hfound]
  refine ⟨{ feedId := feed.id, created := false, collision := false }, ?_, ?_⟩
  · rw [upsertFeed, Prog.exec_bind_ok (exec_random hjitter),
      Prog.exec_bind_ok (exec_read htxn hlive hinsert)]
    dsimp only
    rw [Prog.exec_bind_ok (exec_read htxn hlive hlookup)]
    simp [hsame]
  · exact
      { collision := rfl
        created_iff := by simp [howns]
        rows := ⟨feed, by simp⟩
        feed := ⟨feed, hmem, rfl, htenant, hsame⟩ }

/-- No row is in the way: one is created, with the candidate itself as its URL. -/
theorem upsertFeed_of_free (hjitter : jitter < max 1 cfg.opmlInitialJitterMaxSeconds)
    (htxn : w.opmlTxn pid = some t) (hlive : t.aborted = false)
    (hquiet : ∀ other ∈ w.otherOpmlTxns pid, other.writes = [])
    (hfree : ¬ProcessOpmlParseJob.Owns tenantId (w.view t).feeds
      (buildNormalizedFeedUrlHash rt.toUrlRuntime candidate) candidate)
    (hidem : normalizeFeedUrl rt.toUrlRuntime cfg.allowPrivateFeedHosts candidate
      = .ok candidate)
    (hfeeds : Consistent cfg rt (w.view t).feeds) :
    ∃ result w' t', Prog.exec (answerAlone pid jitter) (upsertFeed cfg rt tenantId candidate) w
        = some (.ok result, w') ∧
      w'.opmlTxn pid = some t' ∧ t'.aborted = false ∧
      Resolved cfg rt tenantId candidate (w.view t).feeds (w'.view t').feeds result ∧
      Consistent cfg rt (w'.view t').feeds := by
  have hnone : (w.view t).feeds.any (OpmlImports.feedConflicts tenantId candidate
      (some (buildNormalizedFeedUrlHash rt.toUrlRuntime candidate))) = false :=
    Bool.eq_false_iff.mpr fun h => hfree (owns_iff_conflict.mpr h)
  let row := OpmlImports.newFeed t.startedAt w.sequences.feedId tenantId candidate
    (some (buildNormalizedFeedUrlHash rt.toUrlRuntime candidate)) 1800 .active jitter
  have hinsert : (OpmlStatement.insertFeedOrNothing tenantId candidate
      (buildNormalizedFeedUrlHash rt.toUrlRuntime candidate) jitter).eval t.startedAt
        w.sequences (w.view t) = (.ok (some row), some (.insertFeed row)) := by
    simp only [OpmlStatement.eval, hnone, Bool.false_eq_true, if_false, row]
  obtain ⟨w', hexec, htxn', hview⟩ := exec_write htxn hlive hquiet hinsert
  have hrows : (w'.view { t with writes := t.writes ++ [.insertFeed row] }).feeds
      = (w.view t).feeds ++ [row] := by
    rw [hview]
    rfl
  refine ⟨{ feedId := row.id, created := true, collision := false }, w', _, ?_, htxn', hlive,
    ?_, ?_⟩
  · rw [upsertFeed, Prog.exec_bind_ok (exec_random hjitter), Prog.exec_bind_ok hexec]
    rfl
  · exact
      { collision := rfl
        created_iff := by simp [hfree]
        rows := ⟨row, by simpa using hrows⟩
        feed := ⟨row, by rw [hrows]; simp, rfl, rfl, hidem⟩ }
  · rw [hrows]
    exact hfeeds.concat (.inr ⟨candidate, hidem, rfl⟩) hnone

/-- **An upsert resolves the feed by its normal form.** Normal forms are their own, and if no
other transaction writes, the result of an upsert is a feed of the tenant with the normal form
of the candidate, new exactly if the tenant had no row with its hash or its URL; no collision is
reported, and a row that stood in the way is found. -/
theorem upsertFeed_resolves (hrt : rt.toUrlRuntime.Whatwg)
    (hsha : Function.Injective rt.sha256Hex) {source : String}
    (hcandidate : normalizeFeedUrl rt.toUrlRuntime cfg.allowPrivateFeedHosts source
      = .ok candidate)
    (hfeeds : Consistent cfg rt (w.view t).feeds)
    (hjitter : jitter < max 1 cfg.opmlInitialJitterMaxSeconds)
    (htxn : w.opmlTxn pid = some t) (hlive : t.aborted = false)
    (hquiet : ∀ other ∈ w.otherOpmlTxns pid, other.writes = []) :
    normalizeFeedUrl rt.toUrlRuntime cfg.allowPrivateFeedHosts candidate = .ok candidate ∧
    ∃ result w' t', Prog.exec (answerAlone pid jitter) (upsertFeed cfg rt tenantId candidate) w
        = some (.ok result, w') ∧
      w'.opmlTxn pid = some t' ∧ t'.aborted = false ∧
      Resolved cfg rt tenantId candidate (w.view t).feeds (w'.view t').feeds result ∧
      Consistent cfg rt (w'.view t').feeds := by
  have hidem := normalizeFeedUrl_idem hrt hcandidate
  refine ⟨hidem, ?_⟩
  by_cases howns : ProcessOpmlParseJob.Owns tenantId (w.view t).feeds
      (buildNormalizedFeedUrlHash rt.toUrlRuntime candidate) candidate
  · obtain ⟨result, hexec, hresolved⟩ := upsertFeed_of_owns hjitter htxn hlive howns
      fun feed hmem => normalizeFeedUrl_of_key hrt hsha hcandidate (hfeeds.hashes feed hmem)
    exact ⟨result, w, t, hexec, htxn, hlive, hresolved, hfeeds⟩
  · exact upsertFeed_of_free hjitter htxn hlive hquiet howns hidem hfeeds

end Upsert

/-! ## Two rows of one feed -/

/-- A path of the site: no segment of it is resolved, and it has no blanks. -/
def isSitePath (cs : List Char) : Bool :=
  cs.head? = some '/' && (pathSegments cs).all (fun segment => !isDotSegment segment) &&
    cs.all fun c => !Text.isWhitespace c

theorem isSitePath_iff {cs : List Char} : isSitePath cs = true ↔
    cs.head? = some '/' ∧ NoDotSegments cs ∧ ∀ c ∈ cs, Text.isWhitespace c = false := by
  simp [isSitePath, NoDotSegments, and_assoc]

/-- A URL of the site. -/
def siteUrl (pathname : String) : ParsedUrl :=
  { protocol := "https:", userinfo := "", hostname := "a.example", port := "",
    pathname := pathname, search := "", hash := "" }

/-- The site as it stands before a path. -/
def siteOrigin : List Char :=
  ['h', 't', 't', 'p', 's', ':', '/', '/', 'a', '.', 'e', 'x', 'a', 'm', 'p', 'l', 'e']

/-- The runtime, as it answers on the URLs of one site. -/
def siteRuntime : OpmlRuntime :=
  { OpmlSystem.importDeployment.rt with
    sha256Hex := fun text =>
      if text = "https://a.example/rss" then
        "f14074e5979b9d9b10708b8eee032b459cfd96c70af86119a067bb5d5d450784"
      else "sha256:" ++ text
    parseUrl := fun text =>
      if text.toList.take 17 = siteOrigin && isSitePath (text.toList.drop 17) then
        some (siteUrl (String.ofList (text.toList.drop 17)))
      else none
    setProtocol := fun url _ => url
    setHostname := fun url _ => url
    setPort := fun url _ => url
    setPathname := fun url pathname =>
      if isSitePath pathname.toList then { url with pathname := pathname } else url
    setHash := fun url _ => url
    urlToString := fun url => String.ofList (siteOrigin ++ url.pathname.toList) }

theorem siteRuntime_parseUrl (text : String) : siteRuntime.parseUrl text
    = if text.toList.take 17 = siteOrigin && isSitePath (text.toList.drop 17) then
        some (siteUrl (String.ofList (text.toList.drop 17)))
      else none := rfl

theorem siteRuntime_isUrl {url : ParsedUrl} (h : siteRuntime.toUrlRuntime.IsUrl url) :
    ∃ pathname : String, isSitePath pathname.toList = true ∧ url = siteUrl pathname := by
  induction h with
  | @parsed text url h =>
    obtain ⟨hsite, hurl⟩ := Option.ite_none_right_eq_some.mp h
    refine ⟨_, ?_, (Option.some.inj hurl).symm⟩
    rw [String.toList_ofList]
    exact (Bool.and_eq_true_iff.mp hsite).2
  | setProtocol value h ih => exact ih
  | setHostname value h ih => exact ih
  | setPort value h ih => exact ih
  | @setPathname url value h ih =>
    obtain ⟨pathname, hpath, rfl⟩ := ih
    by_cases hvalue : isSitePath value.toList = true
    · exact ⟨value, hvalue, if_pos hvalue⟩
    · exact ⟨pathname, hpath, if_neg hvalue⟩
  | setHash value h ih => exact ih

theorem trim_siteUrl {pathname : String} (h : isSitePath pathname.toList = true) :
    Text.trim (String.ofList (siteOrigin ++ pathname.toList))
      = String.ofList (siteOrigin ++ pathname.toList) := by
  have hne : pathname.toList ≠ [] := by
    intro hnil
    simp [isSitePath, hnil] at h
  rw [Text.trim, String.toList_ofList, Text.trimChars_eq_self.mpr]
  refine ⟨by simp [siteOrigin, Text.isWhitespace], fun c hc => (isSitePath_iff.mp h).2.2 c ?_⟩
  rw [List.getLast?_append_of_ne_nil _ hne] at hc
  exact List.mem_of_getLast? hc

theorem siteRuntime_whatwg : siteRuntime.toUrlRuntime.Whatwg where
  parse_empty := by decide +kernel
  protocol_lower url h := rfl
  hostname_lower url h := rfl
  port url h := by
    obtain ⟨pathname, -, rfl⟩ := siteRuntime_isUrl h.isUrl
    exact (by decide : isDefaultPort "https:" "" = false)
  pathname_absolute url h := by
    obtain ⟨pathname, hpath, rfl⟩ := siteRuntime_isUrl h.isUrl
    exact (isSitePath_iff.mp hpath).1
  pathname_clean url h := by
    obtain ⟨pathname, hpath, rfl⟩ := siteRuntime_isUrl h.isUrl
    exact (isSitePath_iff.mp hpath).2.1
  setProtocol_self url h := rfl
  setHostname_self url h := rfl
  setPathname_eq url h pathname habsolute hclean hchars := by
    obtain ⟨old, hpath, rfl⟩ := siteRuntime_isUrl h.isUrl
    exact if_pos (isSitePath_iff.mpr
      ⟨habsolute, hclean, fun c hc => (isSitePath_iff.mp hpath).2.2 c (hchars c hc)⟩)
  setHash_empty url h := by
    obtain ⟨pathname, -, rfl⟩ := siteRuntime_isUrl h.isUrl
    rfl
  parse_toString url h := by
    obtain ⟨pathname, hpath, rfl⟩ := siteRuntime_isUrl h.isUrl
    have htext : (siteRuntime.urlToString (siteUrl pathname)).toList
        = siteOrigin ++ pathname.toList := String.toList_ofList
    have htake : (siteOrigin ++ pathname.toList).take 17 = siteOrigin := List.take_left' rfl
    have hdrop : (siteOrigin ++ pathname.toList).drop 17 = pathname.toList :=
      List.drop_left' rfl
    rw [siteRuntime_parseUrl, htext, htake, hdrop, if_pos (by simp [hpath]),
      String.ofList_toList]
  trim_toString url h := by
    obtain ⟨pathname, hpath, rfl⟩ := siteRuntime_isUrl h.isUrl
    exact trim_siteUrl hpath

theorem siteRuntime_sha256Hex : Function.Injective siteRuntime.sha256Hex := by
  have hother : ∀ text : String,
      "f14074e5979b9d9b10708b8eee032b459cfd96c70af86119a067bb5d5d450784" ≠ "sha256:" ++ text := by
    intro text h
    have hhead := congrArg (fun s : String => s.toList.head?) h
    simp at hhead
  intro a b h
  simp only [siteRuntime] at h
  split at h
  · split at h
    · simp [*]
    · exact absurd h (hother b)
  · split at h
    · exact absurd h.symm (hother a)
    · simpa using h

/-- A row that kept the URL it was registered with, and one without a hash. -/
def twoRows : List FeedRow := [
  OpmlImports.newFeed 0 1 "t" "https://a.example//rss/"
    (some "f14074e5979b9d9b10708b8eee032b459cfd96c70af86119a067bb5d5d450784") 1800 .active 0,
  OpmlImports.newFeed 0 2 "t" "https://a.example/rss" none 1800 .active 0]

/-- The transaction of a job that has not written yet. -/
def applyingTxn : OpmlTxn := { aborted := false, startedAt := 0, writes := [] }

/-- A job that has opened its transaction. -/
def applyingWorld : OpmlWorld :=
  { OpmlSystem.noImports.world with
    core := { OpmlSystem.noImports.world.core with feeds := twoRows }
    opmlTxns := [(0, applyingTxn)] }

theorem quiet_applyingWorld : ∀ other ∈ applyingWorld.otherOpmlTxns 0, other.writes = [] := by
  intro other h
  simp [OpmlWorld.otherOpmlTxns, applyingWorld] at h

theorem normalizeFeedUrl_site : normalizeFeedUrl siteRuntime.toUrlRuntime
    OpmlSystem.importDeployment.config.allowPrivateFeedHosts "https://a.example//rss/"
      = .ok "https://a.example/rss" := by
  decide +kernel

theorem consistent_applyingWorld : Consistent OpmlSystem.importDeployment.config siteRuntime
    (applyingWorld.view applyingTxn).feeds where
  unique := by decide +kernel
  hashes feed hfeed := by
    rcases List.mem_cons.mp hfeed with rfl | hfeed
    · exact .inr ⟨"https://a.example/rss", normalizeFeedUrl_site, by decide +kernel⟩
    · rw [List.mem_singleton.mp hfeed]
      exact .inl rfl

/-- A feed of the tenant is found for the normal form that both rows have. -/
theorem upsertFeed_resolves_twoRows :
    normalizeFeedUrl siteRuntime.toUrlRuntime
        OpmlSystem.importDeployment.config.allowPrivateFeedHosts "https://a.example/rss"
        = .ok "https://a.example/rss" ∧
      ∃ result w' t', Prog.exec (answerAlone 0 0)
          (upsertFeed OpmlSystem.importDeployment.config siteRuntime "t" "https://a.example/rss")
          applyingWorld = some (.ok result, w') ∧
        w'.opmlTxn 0 = some t' ∧ t'.aborted = false ∧
        Resolved OpmlSystem.importDeployment.config siteRuntime "t" "https://a.example/rss"
          (applyingWorld.view applyingTxn).feeds (w'.view t').feeds result ∧
        Consistent OpmlSystem.importDeployment.config siteRuntime (w'.view t').feeds :=
  upsertFeed_resolves (w := applyingWorld) (t := applyingTxn) siteRuntime_whatwg
    siteRuntime_sha256Hex normalizeFeedUrl_site consistent_applyingWorld (by decide) rfl rfl
    quiet_applyingWorld

end ProcessOpmlApplyJob

end Feedpulse
