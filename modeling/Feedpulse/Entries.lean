import Feedpulse.Config
import Feedpulse.Table

/-!
# Articles, rules and fetch logs

The rows ingestion reads and writes besides feeds and alerts, and the step from an
item of a parsed feed to the entry that is inserted for it.
-/

namespace Feedpulse

/-- A row of `rules`. -/
structure RuleRow where
  /-- primary key -/
  id : Nat
  /-- owner of the rule -/
  tenantId : String
  /-- display name -/
  name : String
  /-- one of these has to occur -/
  includeKeywords : List String
  /-- none of these may occur -/
  excludeKeywords : List String
  /-- whether ingestion evaluates the rule -/
  isActive : Bool
  deriving DecidableEq, Repr

/-- An item of a feed, normalised for insertion. -/
structure NormalizedEntry where
  /-- trimmed title -/
  title : Option String
  /-- trimmed link -/
  link : Option String
  /-- trimmed guid, or the link in its place -/
  guid : Option String
  /-- trimmed content -/
  content : Option String
  /-- publication instant as an ISO string -/
  publishedAt : Option String
  /-- hash of link, guid and publication instant -/
  contentHash : String
  deriving DecidableEq, Repr

/-- A row of `entries`. -/
structure EntryRow where
  /-- primary key -/
  id : Nat
  /-- owner of the feed -/
  tenantId : String
  /-- the feed -/
  feedId : Nat
  /-- the article -/
  entry : NormalizedEntry
  deriving DecidableEq, Repr

/-- A row of `fetch_logs`. -/
structure FetchLogRow where
  /-- the feed -/
  feedId : Nat
  /-- owner of the feed -/
  tenantId : String
  /-- status of the response -/
  statusCode : Option Nat
  /-- duration of the fetch -/
  responseTimeMs : Option Nat
  /-- whether the fetch failed -/
  error : Bool
  /-- message of the failure -/
  errorMessage : Option String
  deriving DecidableEq, Repr

namespace Entries

variable (rt : Runtime)

/-- `normalizePublishedAt`. -/
def normalizePublishedAt (value : Option String) : Option String :=
  if Text.truthy value then value.bind rt.parseDate else none

/-- The text `content_hash` is computed from. -/
def contentHashText (link guid publishedAt : Option String) : String :=
  link.getD "" ++ "|" ++ guid.getD "" ++ "|" ++ publishedAt.getD ""

/-- The normalisation of one item in `ProcessFeedJobUseCase`. -/
def normalizeItem (item : FeedItem) : NormalizedEntry :=
  let title := item.title.map Text.trim
  let link := item.link.map Text.trim
  let guid := Text.orElse (item.guid.map Text.trim) (Text.orElse link none)
  let content := (item.contentSnippet.map Text.trim).or (item.content.map Text.trim)
  let publishedAt := normalizePublishedAt rt (item.isoDate.or item.pubDate)
  { title := title
    link := link
    guid := guid
    content := content
    publishedAt := publishedAt
    contentHash := rt.sha256Hex (contentHashText link guid publishedAt) }

/-- The unique constraints on `(feed_id, guid)` and `(feed_id, content_hash)`: the row
excludes an entry of the feed. A null guid conflicts with nothing. -/
def conflicts (feedId : Nat) (e : NormalizedEntry) (row : EntryRow) : Bool :=
  row.feedId = feedId &&
    ((e.guid.isSome && row.entry.guid = e.guid) || row.entry.contentHash = e.contentHash)

end Entries

end Feedpulse
