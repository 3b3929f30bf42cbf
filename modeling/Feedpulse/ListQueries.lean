import Feedpulse.Entries
import Feedpulse.Feeds
import Feedpulse.KeywordMatch
import Feedpulse.LikePattern
import Feedpulse.Paging

/-!
# Lists

The queries of the list endpoints: a `WHERE` clause of the filters that are given, an order, and
a page of it. A search text goes into a pattern of `ILIKE` as it is, so a search is for the text
itself only if it has no character with a meaning there (`search_filters_exact_iff`), and the
orders of feeds and rules leave rows of one transaction tied, so their pages enumerate them only
if none ends between two such rows (`pages_enumerate_iff`).
-/

namespace Feedpulse

open LikePattern (ilike search Plain KeepsSpecial ilike_search_iff)

/-! ## Queries -/

/-- A row with the column a list is ordered by. -/
structure Created (ρ : Type) where
  /-- the other columns -/
  row : ρ
  /-- `created_at` -/
  createdAt : Nat
  deriving DecidableEq, Repr

/-- A database takes a text as a parameter if it has no character U+0000. -/
def isParameter (text : String) : Bool := !text.toList.contains '\x00'

/-- What `paginatedResponse` answers about the page: `has_next`. -/
def hasNext (page pageSize total : Nat) : Bool := page * pageSize < total

/-- `text ILIKE '%' || query || '%'`, where `lower` is the lower case of the database. -/
def containsIlike (lower : Char → Char) (text query : String) : Bool :=
  ilike lower text.toList (search query.toList)

section Select

variable {ρ : Type} [DecidableEq ρ] (parameters : List String)

/-- The rows that satisfy a clause, if the database takes the parameters. -/
def selectWhere (clause : ρ → Bool) (rows : List ρ) : Option (List ρ) :=
  if parameters.all isParameter then some (rows.filter clause) else none

/-- A page of the rows that satisfy a clause, in an order the database chooses, and their total
number. -/
def selectPage (clause : Created ρ → Bool) (page pageSize : Nat) (rows order : List (Created ρ)) :
    Option (List (Created ρ) × Nat) :=
  (selectWhere parameters clause rows).bind fun found =>
    if Paging.IsOrder Created.createdAt found order then
      some (Paging.pageOf page pageSize order, found.length)
    else none

end Select

namespace FeedsRepository

/-- The filters of `list`. -/
structure ListFilters where
  /-- the tenant -/
  tenantId : String
  /-- only feeds in this status -/
  status : Option FeedStatus
  /-- only feeds whose URL this is searched for in -/
  query : Option String
  deriving DecidableEq, Repr

variable (lower : Char → Char)

/-- The `WHERE` clause of `list`. -/
def ListFilters.clause (filters : ListFilters) (feed : Created FeedRow) : Bool :=
  feed.row.tenantId = filters.tenantId &&
    filters.status.all (fun status => feed.row.status = status) &&
    (filters.query.filter (fun q => q ≠ "")).all fun q => containsIlike lower feed.row.url q

/-- The feeds `list` makes its pages of. -/
def found (filters : ListFilters) (feeds : List (Created FeedRow)) :
    Option (List (Created FeedRow)) :=
  selectWhere filters.query.toList (filters.clause lower) feeds

/-- `list`. -/
def list (filters : ListFilters) (page pageSize : Nat) (feeds order : List (Created FeedRow)) :
    Option (List (Created FeedRow) × Nat) :=
  selectPage filters.query.toList (filters.clause lower) page pageSize feeds order

end FeedsRepository

namespace RulesRepository

/-- The filters of `list`. -/
structure ListFilters where
  /-- the tenant -/
  tenantId : String
  /-- only active or inactive rules -/
  isActive : Option Bool
  /-- only rules whose name this is searched for in -/
  query : Option String
  deriving DecidableEq, Repr

variable (lower : Char → Char)

/-- The `WHERE` clause of `list`. -/
def ListFilters.clause (filters : ListFilters) (rule : Created RuleRow) : Bool :=
  rule.row.tenantId = filters.tenantId &&
    filters.isActive.all (fun isActive => rule.row.isActive = isActive) &&
    (filters.query.filter (fun q => q ≠ "")).all fun q => containsIlike lower rule.row.name q

/-- The rules `list` makes its pages of. -/
def found (filters : ListFilters) (rules : List (Created RuleRow)) :
    Option (List (Created RuleRow)) :=
  selectWhere filters.query.toList (filters.clause lower) rules

/-- `list`. -/
def list (filters : ListFilters) (page pageSize : Nat) (rules order : List (Created RuleRow)) :
    Option (List (Created RuleRow) × Nat) :=
  selectPage filters.query.toList (filters.clause lower) page pageSize rules order

end RulesRepository

namespace EntriesRepository

/-- The filters of `list`; instants are milliseconds. -/
structure ListFilters where
  /-- the tenant -/
  tenantId : String
  /-- only entries of this feed -/
  feedId : Option Nat
  /-- only entries in whose document this is searched for -/
  search : Option String
  /-- only entries from this instant on -/
  since : Option Nat
  /-- only entries up to this instant -/
  upTo : Option Nat
  deriving DecidableEq, Repr

/-- An entry with the columns that `list` looks at. -/
structure ListedEntry where
  /-- the entry -/
  row : EntryRow
  /-- `normalized_search_document` -/
  document : String
  /-- `published_at` -/
  publishedAt : Option Nat
  /-- `fetched_at` -/
  fetchedAt : Nat
  deriving DecidableEq, Repr

/-- `COALESCE(published_at, fetched_at)`. -/
def ListedEntry.instant (e : ListedEntry) : Nat := e.publishedAt.getD e.fetchedAt

variable (rt : Runtime) (lower : Char → Char)

/-- The search text of the filters, normalised. -/
def ListFilters.searchText (filters : ListFilters) : Option String :=
  (filters.search.filter fun text => text ≠ "").map (KeywordMatch.normalizeSearchText rt)

/-- The `WHERE` clause of `list`. -/
def ListFilters.clause (filters : ListFilters) (e : ListedEntry) : Bool :=
  e.row.tenantId = filters.tenantId &&
    (filters.feedId.filter (fun id => id ≠ 0)).all (fun id => e.row.feedId = id) &&
    (filters.searchText rt).all (fun text => containsIlike lower e.document text) &&
    filters.since.all (fun since => since ≤ e.instant) &&
    filters.upTo.all fun upTo => e.instant ≤ upTo

/-- The entries `list` makes its pages of. -/
def found (filters : ListFilters) (entries : List ListedEntry) : Option (List ListedEntry) :=
  selectWhere (filters.searchText rt).toList (filters.clause rt lower) entries

end EntriesRepository

/-! ## Searches -/

variable {rt : Runtime} {lower : Char → Char}

/-- A filter that is added to a clause finds what another condition finds, in every table of rows
of a kind, exactly if the database takes it and the conditions agree on these rows. -/
theorem selectWhere_exact_iff {ρ : Type} {parameters : List String} {clause base wanted : ρ → Bool}
    (kind : ρ → Prop) :
    (∀ rows : List ρ, (∀ r ∈ rows, kind r) →
        selectWhere parameters clause rows = some ((rows.filter base).filter wanted)) ↔
      parameters.all isParameter = true ∧ ∀ r, kind r → clause r = (base r && wanted r) := by
  constructor
  · intro h
    have hall : parameters.all isParameter = true := by
      by_contra hnot
      have hnil := h [] fun _ hr => nomatch hr
      rw [selectWhere, if_neg hnot] at hnil
      cases hnil
    refine ⟨hall, fun r hr => ?_⟩
    have hone := h [r] fun r' hr' => List.mem_singleton.mp hr' ▸ hr
    rw [selectWhere, if_pos hall] at hone
    have hfilter := Option.some.inj hone
    rw [List.filter_filter] at hfilter
    have hmem : (r ∈ [r].filter clause) ↔ r ∈ [r].filter fun r => wanted r && base r := by
      rw [hfilter]
    simp only [List.mem_filter, List.mem_singleton, true_and] at hmem
    rw [Bool.eq_iff_iff, hmem, Bool.and_comm]
  · rintro ⟨hall, h⟩ rows hrows
    rw [selectWhere, if_pos hall, List.filter_filter]
    refine congrArg some (List.filter_congr fun r hr => ?_)
    rw [h r (hrows r hr), Bool.and_comm]

/-- What a search adds to a clause. -/
def searched (lower : Char → Char) (q text : String) : Bool :=
  ((some q).filter fun q => q ≠ "").all fun q => containsIlike lower text q

/-- The search text occurs in a text, ignoring case. -/
def occurs (lower : Char → Char) (q text : String) : Bool :=
  Text.includesChars (q.toList.map lower) (text.toList.map lower)

/-- A search that is left out because its text is empty finds what contains it, which is
everything. -/
theorem searched_iff {q text : String} (h : KeepsSpecial lower) :
    searched lower q text = true ↔ ilike lower text.toList (search q.toList) = true := by
  unfold searched
  by_cases hq : q = ""
  · subst hq
    refine iff_of_true rfl ?_
    have hplain : Plain "".toList := by decide
    rw [ilike, LikePattern.search_map h]
    exact (LikePattern.like_search_iff ((LikePattern.plain_map_iff h).mpr hplain)).mpr
      List.nil_infix
  · rw [Option.filter_some_pos (by simpa using hq), Option.all_some, containsIlike]

theorem searched_eq_iff {q text : String} (h : KeepsSpecial lower) :
    searched lower q text = occurs lower q text ↔
      (ilike lower text.toList (search q.toList) = true ↔
        q.toList.map lower <:+: text.toList.map lower) := by
  rw [Bool.eq_iff_iff, searched_iff h, occurs, Text.includesChars_iff]

/-- A search finds the texts of a kind in which its text occurs, exactly if none of its
characters has a meaning. -/
theorem searched_exact_iff {q : String} (h : KeepsSpecial lower) {kind : String → Prop}
    (hkind : ∀ text : String, text.toList = LikePattern.sample q.toList → kind text) :
    (∀ text, kind text → searched lower q text = occurs lower q text) ↔ Plain q.toList := by
  have hchars : (∀ text, kind text → searched lower q text = occurs lower q text) ↔
      ∀ text, kind (String.ofList text) → (ilike lower text (search q.toList) = true ↔
        q.toList.map lower <:+: text.map lower) := by
    constructor
    · intro hall text htext
      have hiff := (searched_eq_iff h).mp (hall (String.ofList text) htext)
      rwa [String.toList_ofList] at hiff
    · intro hall text htext
      refine (searched_eq_iff h).mpr (hall text.toList ?_)
      rwa [String.ofList_toList]
  rw [hchars]
  exact ilike_search_iff h (hkind _ String.toList_ofList)

/-- A list whose clause is made of a search and the clause of the other filters. -/
structure SearchedList (φ ρ : Type) where
  /-- the text that is searched for -/
  text : String
  /-- where it is searched for -/
  textOf : ρ → String
  /-- the parameters of the query -/
  parameters : φ → List String
  /-- the clause -/
  clause : φ → ρ → Bool
  /-- the clause without the search -/
  others : φ → ρ → Bool

/-- The clause is that of the other filters, and the search; the other filters do not look at the
text that is searched. -/
structure SearchedList.Splits {φ ρ : Type} (list : SearchedList φ ρ) (lower : Char → Char) :
    Prop where
  /-- the text is the only parameter that the database could refuse -/
  parameters : ∀ filters, (list.parameters filters).all isParameter = isParameter list.text
  /-- the clause is split -/
  clause : ∀ filters r,
    list.clause filters r = (list.others filters r && searched lower list.text (list.textOf r))
  /-- there is a row for every text -/
  row : ∀ text, ∃ filters r, list.others filters r = true ∧ list.textOf r = text

/-- Such a list finds what the text occurs in exactly if none of its characters has a meaning and
the database takes it. -/
theorem SearchedList.Splits.exact_iff {φ ρ : Type} {list : SearchedList φ ρ}
    (h : list.Splits lower) (hlower : KeepsSpecial lower) (kind : String → Prop)
    (hkind : ∀ text : String, text.toList = LikePattern.sample list.text.toList → kind text) :
    (∀ filters rows, (∀ r ∈ rows, kind (list.textOf r)) →
        selectWhere (list.parameters filters) (list.clause filters) rows
          = some ((rows.filter (list.others filters)).filter fun r =>
            occurs lower list.text (list.textOf r))) ↔
      Plain list.text.toList ∧ isParameter list.text = true := by
  rw [← searched_exact_iff hlower hkind]
  constructor
  · intro hall
    have hfilters := fun filters =>
      (selectWhere_exact_iff fun r => kind (list.textOf r)).mp (hall filters)
    constructor
    · intro text htext
      obtain ⟨filters, r, hothers, rfl⟩ := h.row text
      have hr := (hfilters filters).2 r htext
      rw [h.clause, hothers, Bool.true_and, Bool.true_and] at hr
      exact hr
    · obtain ⟨filters, -⟩ := h.row ""
      rw [← h.parameters filters]
      exact (hfilters filters).1
  · rintro ⟨hexact, hparameter⟩ filters
    refine (selectWhere_exact_iff fun r => kind (list.textOf r)).mpr
      ⟨(h.parameters filters).trans hparameter, fun r hr => ?_⟩
    rw [h.clause, hexact _ hr]

/-- A row for a URL. -/
def feedWithUrl (url : String) : Created FeedRow where
  row :=
    { id := 1
      tenantId := "t"
      url := url
      status := .active
      etag := none
      lastModified := none
      lastCheckedAt := none
      nextCheckAt := 0
      pollIntervalSeconds := 900
      errorCount := 0
      lastError := none
      avgResponseMs := none
      claimedAt := none
      updatedAt := 0 }
  createdAt := 0

/-- A row for a name. -/
def ruleWithName (name : String) : Created RuleRow where
  row :=
    { id := 1
      tenantId := "t"
      name := name
      includeKeywords := ["a"]
      excludeKeywords := []
      isActive := true }
  createdAt := 0

/-- A row for a document. -/
def entryWithDocument (document : String) : EntriesRepository.ListedEntry where
  row :=
    { id := 1
      tenantId := "t"
      feedId := 1
      entry :=
        { title := some document
          link := none
          guid := none
          content := none
          publishedAt := none
          contentHash := "c" } }
  document := document
  publishedAt := none
  fetchedAt := 0

/-- The feeds list with a query. -/
def feedsQuery (lower : Char → Char) (q : String) :
    SearchedList FeedsRepository.ListFilters (Created FeedRow) where
  text := q
  textOf feed := feed.row.url
  parameters _ := [q]
  clause filters := FeedsRepository.ListFilters.clause lower { filters with query := some q }
  others filters := FeedsRepository.ListFilters.clause lower { filters with query := none }

theorem feedsQuery_splits (lower : Char → Char) (q : String) :
    (feedsQuery lower q).Splits lower where
  parameters _ := Bool.and_true _
  clause filters feed := by
    change (_ && searched lower q feed.row.url) = ((_ && true) && _)
    rw [Bool.and_true]
    rfl
  row url := ⟨{ tenantId := "t", status := none, query := none }, feedWithUrl url, rfl, rfl⟩

/-- The rules list with a query. -/
def rulesQuery (lower : Char → Char) (q : String) :
    SearchedList RulesRepository.ListFilters (Created RuleRow) where
  text := q
  textOf rule := rule.row.name
  parameters _ := [q]
  clause filters := RulesRepository.ListFilters.clause lower { filters with query := some q }
  others filters := RulesRepository.ListFilters.clause lower { filters with query := none }

theorem rulesQuery_splits (lower : Char → Char) (q : String) :
    (rulesQuery lower q).Splits lower where
  parameters _ := Bool.and_true _
  clause filters rule := by
    change (_ && searched lower q rule.row.name) = ((_ && true) && _)
    rw [Bool.and_true]
    rfl
  row name := ⟨{ tenantId := "t", isActive := none, query := none }, ruleWithName name, rfl, rfl⟩

/-- The entries list with a search. -/
def entriesSearch (rt : Runtime) (lower : Char → Char) (q : String) :
    SearchedList EntriesRepository.ListFilters EntriesRepository.ListedEntry where
  text := KeywordMatch.normalizeSearchText rt q
  textOf e := e.document
  parameters filters :=
    (EntriesRepository.ListFilters.searchText rt { filters with search := some q }).toList
  clause filters := EntriesRepository.ListFilters.clause rt lower { filters with search := some q }
  others filters := EntriesRepository.ListFilters.clause rt lower { filters with search := none }

/-- An empty search is left out, like one for a text that normalises to nothing. -/
theorem searchText_all_eq (hlower : KeepsSpecial lower)
    (hempty : KeywordMatch.normalizeSearchText rt "" = "") (q document : String) :
    ((((some q).filter fun text => text ≠ "").map (KeywordMatch.normalizeSearchText rt)).all
        fun text => containsIlike lower document text)
      = searched lower (KeywordMatch.normalizeSearchText rt q) document := by
  by_cases hq : q = ""
  · subst hq
    rw [hempty]
    rfl
  · rw [Option.filter_some_pos (by simpa using hq), Option.map_some, Option.all_some,
      Bool.eq_iff_iff, searched_iff hlower, containsIlike]

theorem entriesSearch_splits (hlower : KeepsSpecial lower)
    (hempty : KeywordMatch.normalizeSearchText rt "" = "") (q : String) :
    (entriesSearch rt lower q).Splits lower where
  parameters filters := by
    change ((((some q).filter fun text => text ≠ "").map
      (KeywordMatch.normalizeSearchText rt)).toList).all isParameter
        = isParameter (KeywordMatch.normalizeSearchText rt q)
    by_cases hq : q = ""
    · subst hq
      rw [hempty]
      rfl
    · rw [Option.filter_some_pos (by simpa using hq)]
      exact Bool.and_true _
  clause filters e := by
    have hmoved : ∀ tenant feed since upTo found : Bool, (tenant && feed && found && since && upTo)
        = ((tenant && feed && true && since && upTo) && found) := by decide
    change (_ && _ && (((some q).filter fun text => text ≠ "").map
      (KeywordMatch.normalizeSearchText rt)).all _ && _ && _) = _
    rw [searchText_all_eq hlower hempty]
    exact hmoved ..
  row document :=
    ⟨{ tenantId := "t", feedId := none, search := none, since := none, upTo := none },
      entryWithDocument document, rfl, rfl⟩

/-- The sample of a text that is as the database writes it in lower case is so too. -/
theorem lower_sample {text q : String} (hlower : KeepsSpecial lower)
    (h : ∀ c ∈ q.toList, lower c = c) (htext : text.toList = LikePattern.sample q.toList) :
    ∀ c ∈ text.toList, lower c = c := by
  intro c hc
  rw [htext] at hc
  rcases LikePattern.mem_sample hc with hc | rfl
  · exact h c hc
  · exact hlower '%' (.inl (.inl rfl))

/-- In lower case, ignoring case makes no difference. -/
theorem occurs_eq_includes {q text : String} (hq : ∀ c ∈ q.toList, lower c = c)
    (htext : ∀ c ∈ text.toList, lower c = c) : occurs lower q text = Text.includes text q := by
  rw [occurs, Text.includes, (List.map_congr_left hq).trans (List.map_id _),
    (List.map_congr_left htext).trans (List.map_id _)]

/-- **The searches of the lists find what contains the text**, under any other filters, exactly
if the text, normalised for entries, has no character with a meaning in a pattern and none that
the database refuses. -/
theorem search_filters_exact_iff (hlower : KeepsSpecial lower)
    (hempty : KeywordMatch.normalizeSearchText rt "" = "")
    (hnormal : ∀ text, ∀ c ∈ (KeywordMatch.normalizeSearchText rt text).toList, lower c = c)
    (q : String) :
    ((∀ (filters : EntriesRepository.ListFilters) (entries : List EntriesRepository.ListedEntry),
          (∀ e ∈ entries, ∀ c ∈ e.document.toList, lower c = c) →
          EntriesRepository.found rt lower { filters with search := some q } entries
            = some ((entries.filter (EntriesRepository.ListFilters.clause rt lower
                { filters with search := none })).filter
              fun e => Text.includes e.document (KeywordMatch.normalizeSearchText rt q))) ↔
        Plain (KeywordMatch.normalizeSearchText rt q).toList ∧
          isParameter (KeywordMatch.normalizeSearchText rt q) = true) ∧
      ((∀ (filters : FeedsRepository.ListFilters) (feeds : List (Created FeedRow)),
          FeedsRepository.found lower { filters with query := some q } feeds
            = some ((feeds.filter
                (FeedsRepository.ListFilters.clause lower { filters with query := none })).filter
              fun feed => occurs lower q feed.row.url)) ↔
        Plain q.toList ∧ isParameter q = true) ∧
      ((∀ (filters : RulesRepository.ListFilters) (rules : List (Created RuleRow)),
          RulesRepository.found lower { filters with query := some q } rules
            = some ((rules.filter
                (RulesRepository.ListFilters.clause lower { filters with query := none })).filter
              fun rule => occurs lower q rule.row.name)) ↔
        Plain q.toList ∧ isParameter q = true) := by
  refine ⟨?_, ?_, ?_⟩
  · refine Iff.trans ?_ ((entriesSearch_splits hlower hempty q).exact_iff hlower
      (fun text => ∀ c ∈ text.toList, lower c = c)
      fun _ htext => lower_sample hlower (hnormal q) htext)
    refine forall_congr' fun filters => forall_congr' fun entries =>
      forall_congr' fun hentries => ?_
    have hwanted : ((entries.filter (EntriesRepository.ListFilters.clause rt lower
          { filters with search := none })).filter
        fun e => Text.includes e.document (KeywordMatch.normalizeSearchText rt q))
          = (entries.filter ((entriesSearch rt lower q).others filters)).filter fun e =>
            occurs lower (entriesSearch rt lower q).text ((entriesSearch rt lower q).textOf e) :=
      List.filter_congr fun e he =>
        (occurs_eq_includes (hnormal q) (hentries e (List.mem_of_mem_filter he))).symm
    rw [hwanted]
    rfl
  · refine Iff.trans ?_ ((feedsQuery_splits lower q).exact_iff hlower (fun _ => True)
      fun _ _ => trivial)
    exact forall_congr' fun filters => forall_congr' fun feeds =>
      ⟨fun h _ => h, fun h => h fun _ _ => trivial⟩
  · refine Iff.trans ?_ ((rulesQuery_splits lower q).exact_iff hlower (fun _ => True)
      fun _ _ => trivial)
    exact forall_congr' fun filters => forall_congr' fun rules =>
      ⟨fun h _ => h, fun h => h fun _ _ => trivial⟩

/-! ## Searches in ASCII -/

/-- Collapsing blanks brings no characters but blanks. -/
theorem mem_collapseWhitespace {c : Char} {inRun : Bool} {cs : List Char}
    (h : c ∈ Text.collapseWhitespace inRun cs) : c ∈ cs ∨ c = ' ' := by
  induction cs generalizing inRun with
  | nil => cases h
  | cons d cs ih =>
    rw [Text.collapseWhitespace] at h
    split at h
    · split at h
      · exact (ih h).imp_left (List.mem_cons_of_mem d)
      · rcases List.mem_cons.mp h with rfl | h
        · exact .inr rfl
        · exact (ih h).imp_left (List.mem_cons_of_mem d)
    · rcases List.mem_cons.mp h with rfl | h
      · exact .inl List.mem_cons_self
      · exact (ih h).imp_left (List.mem_cons_of_mem d)

/-- Lower case of ASCII changes no character with a meaning, and makes none. -/
theorem keepsSpecial_toLower : KeepsSpecial Char.toLower := by
  intro c h
  rcases Text.toLower_cases c with hc | ⟨hlow, -⟩
  · exact hc
  · rcases h with (rfl | rfl | rfl) | h
    · rfl
    · rfl
    · rfl
    · rcases h with h | h | h
      · exact absurd (h ▸ hlow) (by decide)
      · exact absurd (h ▸ hlow) (by decide)
      · exact absurd (h ▸ hlow) (by decide)

/-- A runtime whose lower case is that of ASCII. -/
def asciiRuntime : Runtime where
  toLowerCase := fun text => String.ofList (text.toList.map Char.toLower)
  normalizeNFD := id
  isLetterOrNumber := Char.isAlphanum
  sha256Hex := id
  parseDate := fun _ => none
  parseFeed := fun _ => .ok []
  decipher := fun _ _ _ _ _ _ => none

theorem toLower_normalizeSearchText (text : String) :
    ∀ c ∈ (KeywordMatch.normalizeSearchText asciiRuntime text).toList, c.toLower = c := by
  intro c hc
  rw [KeywordMatch.normalizeSearchText, String.toList_ofList] at hc
  rcases mem_collapseWhitespace (Text.mem_of_mem_trimChars hc) with hc | rfl
  · change c ∈ (String.ofList (List.map Char.toLower _)).toList at hc
    rw [String.toList_ofList] at hc
    obtain ⟨d, -, rfl⟩ := List.mem_map.mp hc
    exact Text.toLower_toLower d
  · rfl

/-- A plain search. -/
theorem search_filters_exact_iff_rss :
    FeedsRepository.found Char.toLower { tenantId := "t", status := none, query := some "RSS" }
        [feedWithUrl "https://a.example/rss", feedWithUrl "https://a.example/atom"]
      = some [feedWithUrl "https://a.example/rss"] := by
  have hsearch := (@search_filters_exact_iff asciiRuntime Char.toLower keepsSpecial_toLower
    (by decide) toLower_normalizeSearchText "RSS").2.1.mpr ⟨by decide, by decide⟩
  refine (hsearch { tenantId := "t", status := none, query := none } _).trans ?_
  decide

/-- A search for a percentage finds a number that begins with the same digits, and a search with
an underscore finds a text that has another character in its place. -/
theorem patterns_searched :
    EntriesRepository.found asciiRuntime Char.toLower
          { tenantId := "t", feedId := none, search := some "100%", since := none, upTo := none }
          [entryWithDocument "1000 reasons"] = some [entryWithDocument "1000 reasons"] ∧
      Text.includes "1000 reasons" (KeywordMatch.normalizeSearchText asciiRuntime "100%") = false ∧
      FeedsRepository.found Char.toLower { tenantId := "t", status := none, query := some "a_b" }
          [feedWithUrl "https://h/a-b"] = some [feedWithUrl "https://h/a-b"] ∧
      occurs Char.toLower "a_b" "https://h/a-b" = false ∧
      RulesRepository.found Char.toLower { tenantId := "t", isActive := none, query := some "a_b" }
          [ruleWithName "a-b"] = some [ruleWithName "a-b"] ∧
      occurs Char.toLower "a_b" "a-b" = false := by
  decide

end Feedpulse
