import Feedpulse.Calls

/-!
# Repositories and queues

The methods of the repositories, queues and clients as programs: most are a single
call, some are several statements with computation in between.
-/

namespace Feedpulse

/-! ## Issuing calls -/

/-- A feed statement. -/
def feedCall (c : FeedCall) : Program c.Reply := Prog.invoke (Call.feed c)

/-- An ingestion statement. -/
def ingestCall (c : IngestCall) : Program c.Reply := Prog.invoke (Call.ingest c)

/-- An alert statement. -/
def alertCall (c : AlertCall) : Program c.Reply := Prog.invoke (Call.alert c)

/-- A queue operation. -/
def queueCall (c : QueueCall) : Program c.Reply := Prog.invoke (Call.queue c)

/-- A Redis command. -/
def redisCall (c : RedisCall) : Program c.Reply := Prog.invoke (Call.redis c)

/-- A request to the outside world. -/
def netCall (c : NetCall) : Program c.Reply := Prog.invoke (Call.net c)

/-! ## Runtime -/

/-- `assertSchemaReady`. -/
def assertSchemaReady : Program Unit := Prog.invoke Call.assertSchemaReady

/-- `Date.now()`. -/
def clock : Program Nat := Prog.invoke Call.clock

/-- `Math.floor(Math.random() * bound)`. -/
def random (bound : Nat) : Program Nat := Prog.invoke (Call.random bound)

/-- `try { body } finally { final }`. -/
def tryFinally {α : Type} (body : Program α) (final : Program Unit) : Program α := do
  let outcome ← body.attempt
  final
  match outcome with
  | .ok a => pure a
  | .error e => throw e

/-! ## Feeds -/

namespace FeedsRepository

/-- `claimDueFeeds`. -/
def claimDueFeeds (limit : Nat) : Program (List FeedRow) :=
  if limit = 0 then throw "scheduler_batch_size_invalid"
  else feedCall (.claimDueFeeds limit)

/-- `releaseStuckFeeds`. -/
def releaseStuckFeeds (staleThresholdSeconds : Nat) : Program Nat :=
  if staleThresholdSeconds = 0 then throw "scheduler_stuck_threshold_invalid"
  else feedCall (.releaseStuckFeeds staleThresholdSeconds)

/-- `isClaimed`. -/
def isClaimed (id : Nat) (tenantId : String) : Program Bool :=
  feedCall (.isClaimed id tenantId)

/-- `findByIdForWorker`. -/
def findByIdForWorker (id : Nat) : Program (Option FeedRow) :=
  feedCall (.findByIdForWorker id)

/-- `findByIdForTenant`, which `findById` is with a tenant. -/
def findByIdForTenant (id : Nat) (tenantId : String) : Program (Option FeedRow) :=
  feedCall (.findByIdForTenant id tenantId)

/-- When a feed is due after `update`: at once when it is re-activated, an interval
from now when an active feed changes its interval, else as before. -/
def nextCheckAfterUpdate (current : FeedRow) (status : FeedStatus)
    (pollIntervalSeconds now : Nat) : Nat :=
  if status = .active && current.status ≠ .active then now
  else if status = .active && pollIntervalSeconds ≠ current.pollIntervalSeconds then
    now + pollIntervalSeconds * 1000
  else current.nextCheckAt

/-- `update`: read the row, fill in what the caller left out, write all three columns. -/
def update (tenantId : String) (id : Nat) (status : Option FeedStatus)
    (pollIntervalSeconds : Option Nat) : Program (Option FeedRow) := do
  match ← findByIdForTenant id tenantId with
  | none => pure none
  | some current =>
    let status := status.getD current.status
    let pollIntervalSeconds := pollIntervalSeconds.getD current.pollIntervalSeconds
    let now ← clock
    feedCall (.update
      { id := id
        tenantId := tenantId
        status := status
        pollIntervalSeconds := pollIntervalSeconds
        nextCheckAt := nextCheckAfterUpdate current status pollIntervalSeconds now })

/-- `disable`. -/
def disable (id : Nat) (tenantId : String) : Program Bool := do
  let updated ← update tenantId id (some .paused) none
  pure updated.isSome

/-- `updateAfterFetch` on the pool. -/
def updateAfterFetch (u : Feeds.AfterFetch) : Program Unit :=
  feedCall (.updateAfterFetch u)

end FeedsRepository

/-! ## Ingestion transaction -/

namespace IngestClient

/-- `getPool().connect()`. -/
def connect : Program Unit := ingestCall .connect

/-- `client.query('BEGIN')`. -/
def begin : Program Unit := ingestCall .begin

/-- `client.query('COMMIT')`. -/
def commit : Program Unit := ingestCall .commit

/-- `client.query('ROLLBACK')`. -/
def rollback : Program Unit := ingestCall .rollback

/-- `client.release()`. -/
def release : Program Unit := ingestCall .release

/-- `updateAfterFetch` with the client as executor. -/
def updateAfterFetch (u : Feeds.AfterFetch) : Program Unit :=
  ingestCall (.updateAfterFetch u)

/-- `recordFetchLog` with the client as executor. -/
def recordFetchLog (row : FetchLogRow) : Program Unit :=
  ingestCall (.recordFetchLog row)

end IngestClient

/-- `EntriesRepository.insertMany`: one insert per entry; conflicting ones are skipped. -/
def insertMany (tenantId : String) (feedId : Nat) :
    List NormalizedEntry → Program (List EntryRow)
  | [] => pure []
  | entry :: entries => do
    let row : Option EntryRow ← ingestCall (.insertEntry tenantId feedId entry)
    let created ← insertMany tenantId feedId entries
    pure (row.toList ++ created)

/-- `RulesRepository.listActive`. -/
def listActive (tenantId : String) : Program (List RuleRow) :=
  ingestCall (.listActive tenantId)

/-! ## Alerts -/

/-- `AlertUpsertOutcome`. -/
structure AlertUpsertOutcome where
  /-- alerts this batch inserted -/
  created : List UpsertedAlert
  /-- alerts that existed before -/
  ruleSetExtended : List UpsertedAlert
  deriving DecidableEq, Repr

namespace AlertsRepository

/-- `createForEntryWithRules`: one query for the entries, one upsert for the groups. -/
def createForEntryWithRules (canonicalizeArticleLink : Option String → Option String)
    (matchesByEntry : MatchesByEntry) : Program AlertUpsertOutcome := do
  let entryIds := AlertUpsert.matchedEntryIds matchesByEntry
  if entryIds.isEmpty then pure { created := [], ruleSetExtended := [] }
  else
    let rows : List EntryLink ← ingestCall (.entriesByIds entryIds)
    let upserts := AlertUpsert.upsertRows canonicalizeArticleLink matchesByEntry rows
    if upserts.isEmpty then pure { created := [], ruleSetExtended := [] }
    else
      let result : List UpsertedAlert ← ingestCall (.upsertAlerts upserts)
      pure
        { created := result.filter fun r => r.inserted
          ruleSetExtended := result.filter fun r => !r.inserted }

/-- `findByIdForWorker`. -/
def findByIdForWorker (id : Nat) : Program (Option AlertNotificationRecord) :=
  alertCall (.findByIdForWorker id)

/-- `findByIdForTenant`. -/
def findByIdForTenant (id : Nat) (tenantId : String) :
    Program (Option AlertNotificationRecord) :=
  alertCall (.findByIdForTenant id tenantId)

/-- A single-row update of an alert whose row count is not looked at. -/
def write (id : Nat) (s : AlertWrite) : Program Unit := do
  let _ : Nat ← alertCall (.write id s)

/-- `markDeliveryQueued`. -/
def markDeliveryQueued (id : Nat) : Program Unit := write id .markDeliveryQueued

/-- `markDeliveryDisabled`. -/
def markDeliveryDisabled (id : Nat) : Program Unit := write id .markDeliveryDisabled

/-- `markSent`: whether a row was updated. -/
def markSent (id attemptNumber : Nat) : Program Bool := do
  let rowCount : Nat ← alertCall (.write id (.markSent attemptNumber))
  pure (0 < rowCount)

/-- `markDeliveryFailure`. -/
def markDeliveryFailure (id attemptNumber : Nat) (error : String) (willRetry : Bool) :
    Program Unit := write id (.markDeliveryFailure attemptNumber error willRetry)

/-- `markChannelDelivered`. -/
def markChannelDelivered (id : Nat) (channel : DeliveryChannel) : Program Unit :=
  write id (.markChannelDelivered channel)

/-- `markChannelFailed`. -/
def markChannelFailed (id : Nat) (channel : DeliveryChannel) : Program Unit :=
  write id (.markChannelFailed channel)

/-- `checkAllChannelsDelivered`. -/
def checkAllChannelsDelivered (id : Nat) (config : World.ChannelConfig) : Program Bool :=
  alertCall (.checkAllChannelsDelivered id config)

/-- `markDeliveryRetryPending`. -/
def markDeliveryRetryPending (id attemptNumber : Nat) : Program Unit :=
  write id (.markDeliveryRetryPending attemptNumber)

/-- `computeNextDigestWindow`: the next full ten minutes. -/
def computeNextDigestWindow (now : Nat) : Nat :=
  (now + (600000 - 1)) / 600000 * 600000

/-- The inserts of `queueTelegramDigestItems`. -/
def insertDigestItems (alertId : Nat) (tenantId : String) (scheduledFor : Nat) :
    List String → Program Unit
  | [] => pure ()
  | chatId :: chatIds => do
    alertCall (.insertDigestItem tenantId alertId chatId scheduledFor)
    insertDigestItems alertId tenantId scheduledFor chatIds

/-- `queueTelegramDigestItems`. -/
def queueTelegramDigestItems (alertId : Nat) (tenantId : String) (chatIds : List String) :
    Program Unit := do
  if chatIds.isEmpty then pure ()
  else
    let now ← clock
    insertDigestItems alertId tenantId (computeNextDigestWindow now) chatIds

/-- `TelegramDigestGroup`. -/
structure TelegramDigestGroup where
  /-- the tenant -/
  tenantId : String
  /-- the chat -/
  chatId : String
  /-- end of the window of the first item -/
  scheduledFor : Nat
  /-- the due items -/
  items : List World.DigestItemView
  deriving DecidableEq, Repr

/-- The second loop of `listDueTelegramDigestGroups`: groups without items are left out. -/
def loadDigestGroups (nowIso : Nat) :
    List World.DigestGroupKey → Program (List TelegramDigestGroup)
  | [] => pure []
  | group :: groups => do
    let items : List World.DigestItemView ←
      alertCall (.listGroupItems nowIso group.tenantId group.chatId)
    let rest ← loadDigestGroups nowIso groups
    match items with
    | [] => pure rest
    | firstItem :: _ =>
      pure ({ tenantId := group.tenantId
              chatId := group.chatId
              scheduledFor := firstItem.scheduledFor
              items := items } :: rest)

/-- `listDueTelegramDigestGroups`. -/
def listDueTelegramDigestGroups (nowIso maxGroups : Nat) :
    Program (List TelegramDigestGroup) := do
  let groups : List World.DigestGroupKey ← alertCall (.listDueGroups nowIso maxGroups)
  loadDigestGroups nowIso groups

/-- The first loop of `markTelegramDigestGroupSent`. -/
def markItemsSent : List World.DigestItemView → Program Unit
  | [] => pure ()
  | item :: items => do
    alertCall (.markDigestItemSent item.digestItemId)
    markItemsSent items

/-- The second loop of `markTelegramDigestGroupSent`. -/
def convergeAlerts : List Nat → Program (List Nat)
  | [] => pure []
  | alertId :: alertIds => do
    let converged : Option Nat ← alertCall (.convergeTelegram alertId)
    let rest ← convergeAlerts alertIds
    pure (converged.toList ++ rest)

/-- `markTelegramDigestGroupSent`: the ids of the alerts it converged. -/
def markTelegramDigestGroupSent (items : List World.DigestItemView) : Program (List Nat) := do
  if items.isEmpty then pure []
  else
    markItemsSent items
    convergeAlerts (AlertUpsert.addAll [] (items.map World.DigestItemView.alertId))

/-- `reconcileTelegramDigestDeliveryStatus`. -/
def reconcileTelegramDigestDeliveryStatus : Program (List Nat) :=
  alertCall .reconcileTelegram

end AlertsRepository

/-- `SettingsRepository.getByTenantId`. -/
def getByTenantId (tenantId : String) : Program (Option TenantSettings) :=
  Prog.invoke (Call.getSettings tenantId)

/-! ## Queues -/

/-- `FetchFeedEnqueueResult`. -/
structure FetchFeedEnqueueResult where
  /-- the id of the job -/
  jobId : String
  /-- whether the queue already held a job with this id -/
  deduplicated : Bool
  deriving DecidableEq, Repr

namespace FetchFeedQueue

/-- `buildJobId`: manual checks carry the time of the request. -/
def buildJobId (job : FetchFeedJobData) (now : Nat) : String :=
  match job.source with
  | .manual => buildQueueJobId "feed" (toString job.feedId ++ "-manual-" ++ toString now)
  | .scheduler => scheduledJobId job.feedId

/-- `queue.getJob`. -/
def getJob (jobId : String) : Program (Option (Job String FetchFeedJobData)) :=
  queueCall (.getFetchJob jobId)

/-- `queue.add`. -/
def add (jobId : String) (job : FetchFeedJobData) : Program Unit :=
  queueCall (.addFetchJob jobId job)

/-- `enqueue`: jobs of the scheduler are deduplicated against whatever job the queue
knows under their id. -/
def enqueue (job : FetchFeedJobData) : Program FetchFeedEnqueueResult := do
  match job.source with
  | .manual =>
    let now ← clock
    let jobId := buildJobId job now
    add jobId job
    pure { jobId := jobId, deduplicated := false }
  | .scheduler =>
    let jobId := scheduledJobId job.feedId
    match ← getJob jobId with
    | some _ => pure { jobId := jobId, deduplicated := true }
    | none =>
      add jobId job
      pure { jobId := jobId, deduplicated := false }

end FetchFeedQueue

/-- `AlertDeliveryQueue.enqueue`. -/
def AlertDeliveryQueue.enqueue (job : AlertDeliveryJobData) : Program Unit :=
  queueCall (.addAlertJob (alertJobId job.alertId) job)

end Feedpulse
