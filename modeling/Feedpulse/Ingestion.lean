import Feedpulse.Delivery
import Feedpulse.FeedFailure
import Feedpulse.KeywordMatch

/-!
# Ingestion: one fetch job

`ProcessFeedJobUseCase`: fetch a feed, insert its new entries, match them against the
tenant's rules, upsert the alerts and report back, all in one transaction; then hand
the created alerts to delivery. Whatever goes wrong is classified and reported, and
fails the job only if it is transient.
-/

namespace Feedpulse

/-- The result of a fetch job. -/
structure FeedJobResult where
  /-- entries inserted -/
  insertedEntries : Nat
  /-- alerts created -/
  createdAlerts : Nat
  /-- status of the response, zero after a failure -/
  statusCode : Nat
  deriving DecidableEq, Repr

namespace ProcessFeedJob

variable (rt : Runtime) (canonicalizeArticleLink : Option String → Option String)

/-- The rules that match an entry, and the map entry of the result. -/
def matchEntry (rules : List RuleRow) (row : EntryRow) : Option (Nat × List Nat) :=
  let haystack := KeywordMatch.normalizeSearchText rt
    (row.entry.title.getD "" ++ " " ++ row.entry.content.getD "")
  let matchingRuleIds := (rules.filter fun rule =>
    KeywordMatch.ruleMatchesNormalizedText rt haystack rule.includeKeywords
      rule.excludeKeywords).map RuleRow.id
  if matchingRuleIds.isEmpty then none else some (row.id, matchingRuleIds)

/-- `deliverAlerts`: an alert whose hand-over fails is skipped. -/
def deliverAlerts : List Nat → Program Unit
  | [] => pure ()
  | alertId :: alertIds => do
    tryCatch
      (do
        let _ ← DeliverAlert.executeIngestion alertId)
      fun _ => pure ()
    deliverAlerts alertIds

/-- The report of a successful fetch. -/
def successReport (feed : FeedRow) (response : FetchResponse) (now : Nat) : Feeds.AfterFetch :=
  { feedId := feed.id
    etag := response.etag
    lastModified := response.lastModified
    status := .active
    errorCount := 0
    lastError := none
    avgResponseMs := some response.durationMs
    nextCheckAt := now + feed.pollIntervalSeconds * 1000 }

/-- The fetch log of a successful fetch. -/
def successLog (feed : FeedRow) (response : FetchResponse) : FetchLogRow :=
  { feedId := feed.id
    tenantId := feed.tenantId
    statusCode := some response.statusCode
    responseTimeMs := some response.durationMs
    error := false
    errorMessage := none }

/-- From `BEGIN` to `COMMIT`: the number of inserted entries, and the created alerts. -/
def transaction (feed : FeedRow) (response : FetchResponse)
    (normalizedEntries : List NormalizedEntry) : Program (Nat × List UpsertedAlert) := do
  IngestClient.begin
  let insertedEntries ← insertMany feed.tenantId feed.id normalizedEntries
  let activeRules ← listActive feed.tenantId
  let matchesByEntry := insertedEntries.filterMap (matchEntry rt activeRules)
  let alertOutcome ←
    AlertsRepository.createForEntryWithRules canonicalizeArticleLink matchesByEntry
  IngestClient.recordFetchLog (successLog feed response)
  let now ← clock
  IngestClient.updateAfterFetch (successReport feed response now)
  IngestClient.commit
  pure (insertedEntries.length, alertOutcome.created)

/-- The `try` around the transaction: the created alerts are handed to delivery after
the commit, still inside. -/
def store (feed : FeedRow) (response : FetchResponse)
    (normalizedEntries : List NormalizedEntry) : Program FeedJobResult := do
  IngestClient.connect
  tryFinally
    (tryCatch
      (do
        let (inserted, created) ←
          transaction rt canonicalizeArticleLink feed response normalizedEntries
        deliverAlerts (created.map UpsertedAlert.id)
        pure
          { insertedEntries := inserted
            createdAlerts := created.length
            statusCode := response.statusCode })
      fun error => do
        IngestClient.rollback
        throw error)
    IngestClient.release

/-- A `304`: nothing new. The log and the report are two statements of their own. -/
def notModified (feed : FeedRow) (response : FetchResponse) : Program FeedJobResult := do
  feedCall (.recordFetchLog (successLog feed response))
  let now ← clock
  FeedsRepository.updateAfterFetch (successReport feed response now)
  pure { insertedEntries := 0, createdAlerts := 0, statusCode := response.statusCode }

/-- The body of the outer `try`. -/
def fetchAndStore (feed : FeedRow) : Program FeedJobResult := do
  let response : FetchResponse ← netCall (.fetchFeed feed.url feed.etag feed.lastModified)
  if response.statusCode = 304 then notModified feed response
  else if 400 ≤ response.statusCode then
    throw ("Feed fetch failed with status " ++ toString response.statusCode)
  else match rt.parseFeed response.body with
    | .error message => throw message
    | .ok items =>
      store rt canonicalizeArticleLink feed response (items.map (Entries.normalizeItem rt))

/-- The report of a failed fetch. -/
def failureReport (feed : FeedRow) (c : FeedFailureClassification) (now : Nat) :
    Feeds.AfterFetch :=
  { feedId := feed.id
    etag := none
    lastModified := none
    status := c.status
    errorCount := feed.errorCount + 1
    lastError := some c.lastError
    avgResponseMs := none
    nextCheckAt := now + c.nextCheckInSeconds * 1000 }

/-- The fetch log of a failed fetch. -/
def failureLog (feed : FeedRow) (message : String) : FetchLogRow :=
  { feedId := feed.id
    tenantId := feed.tenantId
    statusCode := none
    responseTimeMs := none
    error := true
    errorMessage := some message }

/-- The outer `catch`: classify, log and report; the error is rethrown if it is
transient. -/
def handleFailure (feed : FeedRow) (message : String) : Program FeedJobResult := do
  let nextErrorCount := feed.errorCount + 1
  let category := FeedFailure.detectFeedFailureCategory rt message nextErrorCount
  let jitter ← random
    (FeedFailure.jitterBound category feed.pollIntervalSeconds nextErrorCount)
  let classification := FeedFailure.classifyFeedFailure rt message nextErrorCount
    feed.pollIntervalSeconds jitter
  feedCall (.recordFetchLog (failureLog feed message))
  let now ← clock
  FeedsRepository.updateAfterFetch (failureReport feed classification now)
  if classification.shouldRethrow then throw message
  else pure { insertedEntries := 0, createdAlerts := 0, statusCode := 0 }

/-- `execute`. -/
def execute (feedId : Nat) : Program FeedJobResult := do
  assertSchemaReady
  match ← FeedsRepository.findByIdForWorker feedId with
  | none => throw "feed_not_found"
  | some feed =>
    tryCatch (fetchAndStore rt canonicalizeArticleLink feed) (handleFailure rt feed)

end ProcessFeedJob

end Feedpulse
