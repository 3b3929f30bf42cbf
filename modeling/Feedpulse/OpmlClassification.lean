import Feedpulse.OpmlJobs

/-!
# How the items of a preview are classified

An item of a preview is invalid, a duplicate of an earlier one, a feed the tenant already has, or
new. `ProcessOpmlParseJob` marks the duplicates with the hashes it has seen and finds the feeds
in a map by hash; the feeds that the query returns because of their URL alone are in that map
under another hash, or under none. The classification is right exactly if every feed the tenant
has of an item can be found by the hash of the item.
-/

namespace Feedpulse

namespace ProcessOpmlParseJob

variable (cfg : OpmlConfig) (rt : OpmlRuntime)

/-! ## What the classification is for -/

/-- Hash and normal form of the URL of an item, if it has one. -/
def normalForm (item : ParsedOpmlItem) : Option (String × String) :=
  match FeedUrl.normalizeFeedUrl rt.toUrlRuntime cfg.allowPrivateFeedHosts item.sourceXmlUrl with
  | .ok url => some (FeedUrl.buildNormalizedFeedUrlHash rt.toUrlRuntime url, url)
  | .error _ => none

/-- The item is valid and has this hash. -/
def HasHash (hash : String) (item : ParsedOpmlItem) : Prop :=
  ∃ url, normalForm cfg rt item = some (hash, url)

/-- The item is valid, and no earlier one has its hash. -/
def FirstOfHash (earlier : List ParsedOpmlItem) (item : ParsedOpmlItem) (hash url : String) :
    Prop :=
  normalForm cfg rt item = some (hash, url) ∧ ¬∃ other ∈ earlier, HasHash cfg rt hash other

/-- The tenant has a feed with this hash or this URL. -/
def Owns (tenantId : String) (feeds : List FeedRow) (hash url : String) : Prop :=
  ∃ feed ∈ feeds, feed.tenantId = tenantId ∧
    (feed.normalizedUrlHash = some hash ∨ feed.url = url)

/-- The input of an item row is that of the parsed item, with the right status. -/
structure ClassifiedAs (tenantId : String) (feeds : List FeedRow) (earlier : List ParsedOpmlItem)
    (item : ParsedOpmlItem) (row : OpmlImportItemInput) : Prop where
  /-- it is the row of the item -/
  source : row.title = item.title ∧ row.outlinePath = item.outlinePath ∧
    row.sourceXmlUrl = item.sourceXmlUrl
  /-- invalid items are those whose URL is rejected -/
  invalid_iff : row.itemStatus = .invalid ↔ ∃ message,
    FeedUrl.normalizeFeedUrl rt.toUrlRuntime cfg.allowPrivateFeedHosts item.sourceXmlUrl
      = .error message
  /-- duplicates are valid, and an earlier valid item has their hash -/
  duplicate_iff : row.itemStatus = .duplicate ↔
    ∃ hash, HasHash cfg rt hash item ∧ ∃ other ∈ earlier, HasHash cfg rt hash other
  /-- existing feeds are the first of their hash, and the tenant has them -/
  existing_iff : row.itemStatus = .existing ↔
    ∃ hash url, FirstOfHash cfg rt earlier item hash url ∧ Owns tenantId feeds hash url
  /-- the others are new -/
  new_iff : row.itemStatus = .new ↔
    ∃ hash url, FirstOfHash cfg rt earlier item hash url ∧ ¬Owns tenantId feeds hash url

/-- The rows are those of the items, in order, each classified after the items before it. -/
def Classified (tenantId : String) (feeds : List FeedRow) :
    List ParsedOpmlItem → List ParsedOpmlItem → List OpmlImportItemInput → Prop
  | _, [], [] => True
  | earlier, item :: items, row :: rows =>
    ClassifiedAs cfg rt tenantId feeds earlier item row ∧
      Classified tenantId feeds (earlier ++ [item]) items rows
  | _, _, _ => False

/-- The tenant's feed of an item can be found by the hash of the item: a feed of the tenant has
that hash, and its URL the normal form of the item. -/
def FoundByHash (tenantId : String) (feeds : List FeedRow) (hash url : String) : Prop :=
  ∃ feed, existingByHash (feeds.filter fun f => f.tenantId = tenantId) hash = some feed ∧
    FeedUrl.normalizeFeedUrl rt.toUrlRuntime cfg.allowPrivateFeedHosts feed.url = .ok url

/-- Every feed the tenant already has of an item can be found by its hash. -/
def Recognised (tenantId : String) (feeds : List FeedRow) :
    List ParsedOpmlItem → List ParsedOpmlItem → Prop
  | _, [] => True
  | earlier, item :: items =>
    (∀ hash url, FirstOfHash cfg rt earlier item hash url → Owns tenantId feeds hash url →
        FoundByHash cfg rt tenantId feeds hash url) ∧
      Recognised tenantId feeds (earlier ++ [item]) items

/-- The runtime makes no empty hash and no empty URL. -/
structure NoEmptyText : Prop where
  /-- hashes have 64 digits -/
  hash : ∀ text, rt.sha256Hex text ≠ ""
  /-- a URL begins with its protocol -/
  url : ∀ parsed, rt.urlToString parsed ≠ ""

variable {cfg rt} {tenantId : String} {feeds : List FeedRow} {earlier : List ParsedOpmlItem}
  {item : ParsedOpmlItem}

/-! ## Items on their own -/

theorem normalForm_eq_none_iff : normalForm cfg rt item = none ↔ ∃ message,
    FeedUrl.normalizeFeedUrl rt.toUrlRuntime cfg.allowPrivateFeedHosts item.sourceXmlUrl
      = .error message := by
  rw [normalForm]
  rcases FeedUrl.normalizeFeedUrl rt.toUrlRuntime cfg.allowPrivateFeedHosts item.sourceXmlUrl
    with message | url
  · simp
  · simp

theorem classifyLocalItem_of_none (h : normalForm cfg rt item = none) :
    ∃ message, classifyLocalItem cfg rt item =
      { title := item.title
        outlinePath := item.outlinePath
        sourceXmlUrl := item.sourceXmlUrl
        normalizedUrl := none
        normalizedUrlHash := none
        itemStatus := .invalid
        validationError := some message } := by
  obtain ⟨message, h⟩ := normalForm_eq_none_iff.mp h
  exact ⟨message, by rw [classifyLocalItem, h]⟩

theorem classifyLocalItem_of_some {hash url : String}
    (h : normalForm cfg rt item = some (hash, url)) :
    classifyLocalItem cfg rt item =
      { title := item.title
        outlinePath := item.outlinePath
        sourceXmlUrl := item.sourceXmlUrl
        normalizedUrl := some url
        normalizedUrlHash := some hash
        itemStatus := .new
        validationError := none } := by
  rw [normalForm] at h
  rcases hnormal : FeedUrl.normalizeFeedUrl rt.toUrlRuntime cfg.allowPrivateFeedHosts
    item.sourceXmlUrl with message | url'
  · rw [hnormal] at h
    cases h
  · rw [hnormal] at h
    cases h
    rw [classifyLocalItem, hnormal]

/-- A hash and a normal form are not empty. -/
theorem NoEmptyText.normalForm (hrt : NoEmptyText rt) {hash url : String}
    (h : normalForm cfg rt item = some (hash, url)) : hash ≠ "" ∧ url ≠ "" := by
  rw [ProcessOpmlParseJob.normalForm] at h
  rcases hnormal : FeedUrl.normalizeFeedUrl rt.toUrlRuntime cfg.allowPrivateFeedHosts
    item.sourceXmlUrl with message | url'
  · rw [hnormal] at h
    cases h
  · rw [hnormal] at h
    cases h
    refine ⟨hrt.hash _, ?_⟩
    simp only [FeedUrl.normalizeFeedUrl] at hnormal
    split at hnormal
    · cases hnormal
    · split at hnormal
      · cases hnormal
      · split at hnormal
        · cases hnormal
        · split at hnormal
          · cases hnormal
          · obtain rfl := Except.ok.inj hnormal
            exact hrt.url _

/-- An item that is the first of its hash has one hash. -/
theorem FirstOfHash.unique {hash url hash' url' : String}
    (h : FirstOfHash cfg rt earlier item hash url)
    (h' : FirstOfHash cfg rt earlier item hash' url') : hash = hash' ∧ url = url' := by
  have heq := h.1.symm.trans h'.1
  simpa using heq

/-! ## Drafts -/

/-- What the first pass makes of an item. -/
inductive Drafted (cfg : OpmlConfig) (rt : OpmlRuntime) (earlier : List ParsedOpmlItem)
    (item : ParsedOpmlItem) : OpmlImportItemInput → Prop
  /-- its URL is rejected -/
  | invalid : normalForm cfg rt item = none →
    Drafted cfg rt earlier item (classifyLocalItem cfg rt item)
  /-- an earlier item has its hash -/
  | duplicate {hash url : String} : normalForm cfg rt item = some (hash, url) →
    (∃ other ∈ earlier, HasHash cfg rt hash other) →
    Drafted cfg rt earlier item { classifyLocalItem cfg rt item with
      itemStatus := .duplicate, validationError := some "duplicate_within_opml" }
  /-- it is the first of its hash -/
  | first {hash url : String} : FirstOfHash cfg rt earlier item hash url →
    Drafted cfg rt earlier item (classifyLocalItem cfg rt item)

/-- The hashes seen so far are those of the earlier items. -/
def Seen (cfg : OpmlConfig) (rt : OpmlRuntime) (earlier : List ParsedOpmlItem)
    (seenHashes : List String) : Prop :=
  ∀ hash, hash ∈ seenHashes ↔ ∃ other ∈ earlier, HasHash cfg rt hash other

theorem Seen.skip {seenHashes : List String} (h : Seen cfg rt earlier seenHashes)
    (hitem : ∀ hash, HasHash cfg rt hash item → ∃ other ∈ earlier, HasHash cfg rt hash other) :
    Seen cfg rt (earlier ++ [item]) seenHashes := by
  intro hash
  rw [h hash]
  constructor
  · rintro ⟨other, hother, hhash⟩
    exact ⟨other, List.mem_append_left _ hother, hhash⟩
  · rintro ⟨other, hother, hhash⟩
    rcases List.mem_append.mp hother with hother' | hother'
    · exact ⟨other, hother', hhash⟩
    · rw [List.mem_singleton] at hother'
      subst hother'
      exact hitem hash hhash

theorem Seen.cons {seenHashes : List String} (h : Seen cfg rt earlier seenHashes)
    {hash url : String} (hitem : normalForm cfg rt item = some (hash, url)) :
    Seen cfg rt (earlier ++ [item]) (hash :: seenHashes) := by
  intro hash'
  rw [List.mem_cons, h hash']
  constructor
  · rintro (rfl | ⟨other, hother, hhash⟩)
    · exact ⟨item, List.mem_append_right _ (List.mem_singleton_self item), url, hitem⟩
    · exact ⟨other, List.mem_append_left _ hother, hhash⟩
  · rintro ⟨other, hother, hhash⟩
    rcases List.mem_append.mp hother with hother' | hother'
    · exact .inr ⟨other, hother', hhash⟩
    · rw [List.mem_singleton] at hother'
      subst hother'
      obtain ⟨url', hhash⟩ := hhash
      have heq := hitem.symm.trans hhash
      simp only [Option.some.injEq, Prod.mk.injEq] at heq
      exact .inl heq.1.symm

/-- **One item of the first pass.** -/
theorem markDuplicates_cons (hrt : NoEmptyText rt) {seenHashes : List String}
    (hseen : Seen cfg rt earlier seenHashes) (rest : List OpmlImportItemInput) :
    ∃ draft seenHashes', markDuplicates seenHashes (classifyLocalItem cfg rt item :: rest)
        = draft :: markDuplicates seenHashes' rest ∧
      Drafted cfg rt earlier item draft ∧ Seen cfg rt (earlier ++ [item]) seenHashes' := by
  rcases hitem : normalForm cfg rt item with _ | ⟨hash, url⟩
  · obtain ⟨message, hlocal⟩ := classifyLocalItem_of_none hitem
    refine ⟨classifyLocalItem cfg rt item, seenHashes, ?_, .invalid hitem, hseen.skip ?_⟩
    · rw [hlocal]
      rfl
    · rintro hash ⟨url, hhash⟩
      rw [hitem] at hhash
      cases hhash
  · have hlocal := classifyLocalItem_of_some hitem
    have hhash : hashOf (classifyLocalItem cfg rt item) = some hash := by
      rw [hlocal, hashOf]
      exact Option.filter_some_pos (decide_eq_true (hrt.normalForm hitem).1)
    have hstatus : (classifyLocalItem cfg rt item).itemStatus = .new := by rw [hlocal]
    by_cases hcontains : hash ∈ seenHashes
    · refine ⟨_, seenHashes, ?_, .duplicate hitem ((hseen hash).mp hcontains), hseen.skip ?_⟩
      · simp only [markDuplicates, hstatus, hhash, List.contains_iff_mem, hcontains, if_true]
      · rintro hash' ⟨url', hhash'⟩
        rw [hitem] at hhash'
        cases hhash'
        exact (hseen hash).mp hcontains
    · refine ⟨_, hash :: seenHashes, ?_, .first ⟨hitem, ?_⟩, hseen.cons hitem⟩
      · simp only [markDuplicates, hstatus, hhash, List.contains_iff_mem, hcontains, if_false]
      · exact fun hother => hcontains ((hseen hash).mpr hother)

/-! ## The second pass -/

variable {existing : List FeedRow} {draft : OpmlImportItemInput}

/-- An item that is not the first of its hash is left as it is, and rightly so. -/
theorem Drafted.classified_of_not_first (h : Drafted cfg rt earlier item draft)
    (hnot : ∀ hash url, ¬FirstOfHash cfg rt earlier item hash url) :
    classifyExisting cfg rt existing draft = .ok draft ∧
      ClassifiedAs cfg rt tenantId feeds earlier item draft := by
  cases h with
  | invalid hnone =>
    have hmessage := normalForm_eq_none_iff.mp hnone
    obtain ⟨message, hlocal⟩ := classifyLocalItem_of_none hnone
    rw [hlocal]
    refine ⟨rfl, ⟨rfl, rfl, rfl⟩, iff_of_true rfl hmessage, iff_of_false (by simp) ?_,
      iff_of_false (by simp) ?_, iff_of_false (by simp) ?_⟩
    · rintro ⟨hash, ⟨url, hhash⟩, -⟩
      rw [hnone] at hhash
      cases hhash
    · rintro ⟨hash, url, hfirst, -⟩
      exact hnot hash url hfirst
    · rintro ⟨hash, url, hfirst, -⟩
      exact hnot hash url hfirst
  | @duplicate hash url hitem hother =>
    rw [classifyLocalItem_of_some hitem]
    refine ⟨rfl, ⟨rfl, rfl, rfl⟩, iff_of_false (by simp) ?_,
      iff_of_true rfl ⟨hash, ⟨url, hitem⟩, hother⟩, iff_of_false (by simp) ?_,
      iff_of_false (by simp) ?_⟩
    · intro hmessage
      rw [normalForm_eq_none_iff.mpr hmessage] at hitem
      cases hitem
    · rintro ⟨hash, url, hfirst, -⟩
      exact hnot hash url hfirst
    · rintro ⟨hash, url, hfirst, -⟩
      exact hnot hash url hfirst
  | first hfirst => exact absurd hfirst (hnot _ _)

/-- The draft of an item that is the first of its hash is new. -/
theorem Drafted.eq_of_first (h : Drafted cfg rt earlier item draft) {hash url : String}
    (hfirst : FirstOfHash cfg rt earlier item hash url) :
    classifyLocalItem cfg rt item = draft := by
  cases h with
  | invalid _ => rfl
  | @duplicate hash' url' hitem hother =>
    rw [hfirst.1] at hitem
    cases hitem
    exact absurd hother hfirst.2
  | first _ => rfl

/-- What a row of an item that is the first of its hash has to be. -/
theorem classifiedAs_first {hash url : String} (hfirst : FirstOfHash cfg rt earlier item hash url)
    {row : OpmlImportItemInput} (hsource : row.title = item.title ∧
      row.outlinePath = item.outlinePath ∧ row.sourceXmlUrl = item.sourceXmlUrl) :
    ClassifiedAs cfg rt tenantId feeds earlier item row ↔
      (Owns tenantId feeds hash url ∧ row.itemStatus = .existing) ∨
        (¬Owns tenantId feeds hash url ∧ row.itemStatus = .new) := by
  have hvalid : ¬∃ message, FeedUrl.normalizeFeedUrl rt.toUrlRuntime cfg.allowPrivateFeedHosts
      item.sourceXmlUrl = .error message := by
    intro hmessage
    have hnone := normalForm_eq_none_iff.mpr hmessage
    rw [hfirst.1] at hnone
    cases hnone
  have hsingle : ¬∃ hash', HasHash cfg rt hash' item ∧
      ∃ other ∈ earlier, HasHash cfg rt hash' other := by
    rintro ⟨hash', ⟨url', hhash⟩, hother⟩
    rw [hfirst.1] at hhash
    cases hhash
    exact hfirst.2 hother
  have howns : (∃ hash' url', FirstOfHash cfg rt earlier item hash' url' ∧
      Owns tenantId feeds hash' url') ↔ Owns tenantId feeds hash url := by
    constructor
    · rintro ⟨hash', url', hfirst', hown⟩
      obtain ⟨rfl, rfl⟩ := hfirst.unique hfirst'
      exact hown
    · exact fun hown => ⟨hash, url, hfirst, hown⟩
  have hnew : (∃ hash' url', FirstOfHash cfg rt earlier item hash' url' ∧
      ¬Owns tenantId feeds hash' url') ↔ ¬Owns tenantId feeds hash url := by
    constructor
    · rintro ⟨hash', url', hfirst', hown⟩
      obtain ⟨rfl, rfl⟩ := hfirst.unique hfirst'
      exact hown
    · exact fun hown => ⟨hash, url, hfirst, hown⟩
  constructor
  · intro h
    by_cases hown : Owns tenantId feeds hash url
    · exact .inl ⟨hown, h.existing_iff.mpr (howns.mpr hown)⟩
    · exact .inr ⟨hown, h.new_iff.mpr (hnew.mpr hown)⟩
  · rintro (⟨hown, hstatus⟩ | ⟨hown, hstatus⟩)
    · refine ⟨hsource, ?_, ?_, ?_, ?_⟩
      · exact iff_of_false (by simp [hstatus]) hvalid
      · exact iff_of_false (by simp [hstatus]) hsingle
      · exact iff_of_true hstatus (howns.mpr hown)
      · exact iff_of_false (by simp [hstatus]) fun h => hnew.mp h hown
    · refine ⟨hsource, ?_, ?_, ?_, ?_⟩
      · exact iff_of_false (by simp [hstatus]) hvalid
      · exact iff_of_false (by simp [hstatus]) hsingle
      · exact iff_of_false (by simp [hstatus]) fun h => hown (howns.mp h)
      · exact iff_of_true hstatus (hnew.mpr hown)

/-- A feed that is found by a hash has it, and belongs to the tenant. -/
theorem owns_of_existingByHash {hash url : String} {feed : FeedRow}
    (h : existingByHash (feeds.filter fun f => f.tenantId = tenantId) hash = some feed) :
    Owns tenantId feeds hash url := by
  have hmem := List.mem_of_find?_eq_some h
  have hhash := List.find?_some h
  rw [List.mem_reverse, List.mem_filter] at hmem
  exact ⟨feed, hmem.1, of_decide_eq_true hmem.2, .inl (of_decide_eq_true hhash)⟩

/-- **One item of the second pass** is classified as it should be exactly if the tenant's feed,
should there be one, is found by its hash. -/
theorem Drafted.classified_iff (hrt : NoEmptyText rt) (h : Drafted cfg rt earlier item draft)
    (hexisting : ∀ hash url, FirstOfHash cfg rt earlier item hash url →
      existingByHash existing hash
        = existingByHash (feeds.filter fun f => f.tenantId = tenantId) hash) :
    (∃ row, classifyExisting cfg rt existing draft = .ok row ∧
        ClassifiedAs cfg rt tenantId feeds earlier item row) ↔
      ∀ hash url, FirstOfHash cfg rt earlier item hash url → Owns tenantId feeds hash url →
        FoundByHash cfg rt tenantId feeds hash url := by
  by_cases hnot : ∀ hash url, ¬FirstOfHash cfg rt earlier item hash url
  · have hdraft : classifyExisting cfg rt existing draft = .ok draft ∧
        ClassifiedAs cfg rt tenantId feeds earlier item draft := h.classified_of_not_first hnot
    exact iff_of_true ⟨draft, hdraft⟩ fun hash url hfirst => absurd hfirst (hnot hash url)
  · obtain ⟨hash, url, hfirst⟩ : ∃ hash url, FirstOfHash cfg rt earlier item hash url := by
      by_contra hno
      exact hnot fun hash url hfirst => hno ⟨hash, url, hfirst⟩
    obtain rfl := h.eq_of_first hfirst
    have hlocal := classifyLocalItem_of_some hfirst.1
    obtain ⟨hhash, hurl⟩ := hrt.normalForm hfirst.1
    -- only this hash and this URL are in question
    have honly : (∀ hash url, FirstOfHash cfg rt earlier item hash url →
        Owns tenantId feeds hash url → FoundByHash cfg rt tenantId feeds hash url) ↔
          (Owns tenantId feeds hash url → FoundByHash cfg rt tenantId feeds hash url) := by
      constructor
      · exact fun hall => hall hash url hfirst
      · intro hone hash' url' hfirst'
        obtain ⟨rfl, rfl⟩ := hfirst.unique hfirst'
        exact hone
    rw [honly, hlocal]
    simp only [classifyExisting, hashOf, urlOf, Option.filter_some, hhash, hurl, ne_eq,
      not_false_eq_true, decide_true, if_true, hexisting hash url hfirst]
    rcases hfound : existingByHash (feeds.filter fun f => f.tenantId = tenantId) hash
      with _ | feed
    · have hnotFound : ¬FoundByHash cfg rt tenantId feeds hash url := by
        rintro ⟨feed, hfeed, -⟩
        rw [hfound] at hfeed
        cases hfeed
      simp only [Except.ok.injEq, exists_eq_left']
      rw [classifiedAs_first hfirst ⟨rfl, rfl, rfl⟩]
      simp [hnotFound]
    · have hown : Owns tenantId feeds hash url := owns_of_existingByHash hfound
      have hiff : FoundByHash cfg rt tenantId feeds hash url ↔
          FeedUrl.normalizeFeedUrl rt.toUrlRuntime cfg.allowPrivateFeedHosts feed.url
            = .ok url := by
        constructor
        · rintro ⟨feed', hfeed', hnormal⟩
          obtain rfl := Option.some.inj (hfound.symm.trans hfeed')
          exact hnormal
        · exact fun hnormal => ⟨feed, hfound, hnormal⟩
      rw [hiff]
      simp only [hown, true_implies]
      rcases FeedUrl.normalizeFeedUrl rt.toUrlRuntime cfg.allowPrivateFeedHosts feed.url
        with message | found
      · simp [Except.map]
      · simp only [Except.map, Except.ok.injEq, exists_eq_left']
        by_cases hsame : found = url
        · rw [if_neg (not_not_intro hsame), classifiedAs_first hfirst ⟨rfl, rfl, rfl⟩]
          exact iff_of_true (.inl ⟨hown, rfl⟩) hsame
        · rw [if_pos hsame, classifiedAs_first hfirst ⟨rfl, rfl, rfl⟩]
          simp [hsame]

/-! ## All items -/

/-- The rows that the query returns are those in which a hash of the document is found, or a
normal form. -/
theorem existingByHash_existingFeeds {hashes urls : List String} {hash : String}
    (h : hash ∈ hashes) :
    existingByHash (OpmlImports.existingFeeds tenantId hashes urls feeds) hash
      = existingByHash (feeds.filter fun f => f.tenantId = tenantId) hash := by
  simp only [existingByHash, OpmlImports.existingFeeds, ← List.filter_reverse, List.find?_filter]
  refine congrArg (fun p => List.find? p feeds.reverse) (funext fun f => ?_)
  by_cases hhash : f.normalizedUrlHash = some hash
  · simp [hhash, h]
  · simp [hhash]

/-- Marking duplicates changes neither hashes nor normal forms. -/
theorem normalizedCandidates_markDuplicates (seenHashes : List String)
    (items : List OpmlImportItemInput) :
    normalizedCandidates (markDuplicates seenHashes items) = normalizedCandidates items := by
  induction items generalizing seenHashes with
  | nil => rfl
  | cons item items ih =>
    have hcons : ∀ {item' : OpmlImportItemInput} {items' : List OpmlImportItemInput},
        hashOf item' = hashOf item → urlOf item' = urlOf item →
        normalizedCandidates items' = normalizedCandidates items →
        normalizedCandidates (item' :: items') = normalizedCandidates (item :: items) := by
      intro item' items' hhash hurl hrest
      simp only [normalizedCandidates] at hrest
      simp only [normalizedCandidates, List.filterMap_cons, hhash, hurl, hrest]
    rw [markDuplicates]
    split
    · split
      · exact hcons rfl rfl (ih _)
      · exact hcons rfl rfl (ih _)
    · exact hcons rfl rfl (ih _)

/-- The candidates of the query are the hashes and normal forms of the valid items. -/
theorem normalizedCandidates_map (hrt : NoEmptyText rt) (items : List ParsedOpmlItem) :
    normalizedCandidates (items.map (classifyLocalItem cfg rt))
      = items.filterMap (normalForm cfg rt) := by
  rw [normalizedCandidates, List.filterMap_map]
  refine congrArg (fun f => List.filterMap f items) (funext fun item => ?_)
  rcases hitem : normalForm cfg rt item with _ | ⟨hash, url⟩
  · obtain ⟨message, hlocal⟩ := classifyLocalItem_of_none hitem
    simp [hlocal, hashOf]
  · obtain ⟨hhash, hurl⟩ := hrt.normalForm hitem
    simp only [Function.comp_apply, classifyLocalItem_of_some hitem, hashOf, urlOf,
      Option.filter_some, hhash, hurl, ne_eq, not_false_eq_true, decide_true, if_true,
      Option.bind_some, Option.map_some]

/-- A pass over a list succeeds if it succeeds at each item. -/
theorem mapM_cons_eq_ok {f : OpmlImportItemInput → Except String OpmlImportItemInput}
    {draft : OpmlImportItemInput} {drafts rows : List OpmlImportItemInput} :
    (draft :: drafts).mapM f = .ok rows ↔
      ∃ row rows', f draft = .ok row ∧ drafts.mapM f = .ok rows' ∧ rows = row :: rows' := by
  rw [List.mapM_cons]
  rcases f draft with message | row
  · simp [bind, Except.bind]
  · rcases drafts.mapM f with message | rows'
    · simp [bind, Except.bind]
    · simp [bind, Except.bind, pure, Except.pure, eq_comm]

/-- **The whole classification** is right exactly if every feed the tenant has of an item can be
found by the hash of the item. -/
theorem classified_iff (hrt : NoEmptyText rt) {items : List ParsedOpmlItem}
    {seenHashes : List String} (hseen : Seen cfg rt earlier seenHashes)
    (hexisting : ∀ hash, (∃ item ∈ items, HasHash cfg rt hash item) →
      existingByHash existing hash
        = existingByHash (feeds.filter fun f => f.tenantId = tenantId) hash) :
    (∃ rows, (markDuplicates seenHashes (items.map (classifyLocalItem cfg rt))).mapM
          (classifyExisting cfg rt existing) = .ok rows ∧
        Classified cfg rt tenantId feeds earlier items rows) ↔
      Recognised cfg rt tenantId feeds earlier items := by
  induction items generalizing earlier seenHashes with
  | nil => exact iff_of_true ⟨[], rfl, trivial⟩ trivial
  | cons item items ih =>
    obtain ⟨draft, seenHashes', hcons, hdraft, hseen'⟩ :=
      markDuplicates_cons hrt hseen (items.map (classifyLocalItem cfg rt))
    have hfirst := hdraft.classified_iff hrt fun hash url hfirst =>
      hexisting hash ⟨item, List.mem_cons_self, url, hfirst.1⟩
    have hrest := ih hseen' fun hash ⟨other, hother, hhash⟩ =>
      hexisting hash ⟨other, List.mem_cons_of_mem item hother, hhash⟩
    rw [Recognised, ← hfirst, ← hrest, List.map_cons, hcons]
    constructor
    · rintro ⟨rows, hrows, hclassified⟩
      obtain ⟨row, rows', hrow, hrows', rfl⟩ := mapM_cons_eq_ok.mp hrows
      exact ⟨⟨row, hrow, hclassified.1⟩, rows', hrows', hclassified.2⟩
    · rintro ⟨⟨row, hrow, hitem⟩, rows, hrows, hitems⟩
      exact ⟨row :: rows, mapM_cons_eq_ok.mpr ⟨row, rows, hrow, hrows, rfl⟩, hitem, hitems⟩

end ProcessOpmlParseJob

end Feedpulse
