import Feedpulse.TelegramDigests

/-!
# The scheduler and the tenant's feed actions

One tick of `SchedulerRunner`: release stuck claims, claim the due feeds and enqueue
a job for each, flush the digests. And the requests by which a tenant changes,
disables or checks a feed.
-/

namespace Feedpulse

/-! ## The scheduler tick -/

namespace Scheduler

variable (config : AppConfig) (rt : Runtime)

/-- `DEFAULT_STUCK_FEED_THRESHOLD_SECONDS`. -/
def defaultStuckFeedThresholdSeconds : Nat := 300

/-- `resolveThresholdSeconds`. -/
def resolveThresholdSeconds : Nat :=
  if 0 < config.schedulerStuckFeedThresholdSeconds then
    config.schedulerStuckFeedThresholdSeconds
  else defaultStuckFeedThresholdSeconds

/-- `ReleaseStuckFeedsUseCase.execute`. -/
def releaseStuckFeeds : Program Nat := do
  assertSchemaReady
  FeedsRepository.releaseStuckFeeds (resolveThresholdSeconds config)

/-- The job the scheduler enqueues for a claimed feed. -/
def scheduledJob (feed : FeedRow) (queuedAt : Nat) : FetchFeedJobData :=
  { feedId := feed.id, queuedAt := queuedAt, attempt := 1, source := .scheduler }

/-- `Promise.all` over the claimed feeds. The enqueues address different job ids and every
one runs to its end, whether or not another is rejected, so they are taken in
sequence with their outcomes collected. -/
def enqueueAll (queuedAt : Nat) :
    List FeedRow → Program (List (Except String FetchFeedEnqueueResult))
  | [] => pure []
  | feed :: feeds => do
    let result ← (FetchFeedQueue.enqueue (scheduledJob feed queuedAt)).attempt
    let results ← enqueueAll queuedAt feeds
    pure (result :: results)

/-- The results of the enqueues, or the first rejection. -/
def allResults :
    List (Except String FetchFeedEnqueueResult) → Except String (List FetchFeedEnqueueResult)
  | [] => .ok []
  | .error e :: _ => .error e
  | .ok r :: rest => (allResults rest).map fun rs => r :: rs

/-- `ScheduleDueFeedsUseCase.execute`: how many jobs were added, and how many were
deduplicated. -/
def scheduleDueFeeds : Program (Nat × Nat) := do
  assertSchemaReady
  let feeds ← FeedsRepository.claimDueFeeds config.schedulerBatchSize
  let queuedAt ← clock
  let results ← enqueueAll queuedAt feeds
  match allResults results with
  | .error e => throw e
  | .ok results =>
    let deduplicated := results.countP fun r => r.deduplicated
    pure (feeds.length - deduplicated, deduplicated)

/-- `tick`: every stage runs, whatever happens to the others. -/
def tick : Program Unit := do
  let _ ← (releaseStuckFeeds config).attempt
  let _ ← (scheduleDueFeeds config).attempt
  let _ ← (TelegramDigests.execute config rt).attempt

end Scheduler

/-! ## The tenant's feed actions -/

namespace FeedActions

/-- `UpdateFeedUseCase.execute`. -/
def updateFeed (tenantId : String) (id : Nat) (status : Option FeedStatus)
    (pollIntervalSeconds : Option Nat) : Program FeedRow := do
  match ← FeedsRepository.update tenantId id status pollIntervalSeconds with
  | none => throw "feed_not_found"
  | some feed => pure feed

/-- `DisableFeedUseCase.execute`. -/
def disableFeed (id : Nat) (tenantId : String) : Program Unit := do
  let disabled ← FeedsRepository.disable id tenantId
  if disabled then pure () else throw "feed_not_found"

/-- `CheckFeedNowStatus`. -/
inductive CheckFeedNowStatus
  /-- a job was added -/
  | queued
  /-- the feed is claimed, or the job was there -/
  | alreadyQueued
  deriving DecidableEq, Repr

/-- `CheckFeedNowUseCase.execute`. -/
def checkFeedNow (id : Nat) (tenantId : String) : Program CheckFeedNowStatus := do
  match ← FeedsRepository.findByIdForTenant id tenantId with
  | none => throw "feed_not_found"
  | some _ =>
    if ← FeedsRepository.isClaimed id tenantId then pure .alreadyQueued
    else
      let queuedAt ← clock
      let enqueued ← FetchFeedQueue.enqueue
        { feedId := id, queuedAt := queuedAt, attempt := 0, source := .manual }
      pure (if enqueued.deduplicated then .alreadyQueued else .queued)

end FeedActions

end Feedpulse
