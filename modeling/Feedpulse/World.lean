import Feedpulse.AlertUpsert
import Feedpulse.Entries
import Feedpulse.Feeds
import Feedpulse.JobQueue
import Feedpulse.Settings

/-!
# The shared state

Everything the processes of the service share: the PostgreSQL tables, the open
transactions of ingestion, the Redis counters of the email quota, and the two job
queues. A transaction keeps what it has written to itself until it commits, and
holds the keys it has inserted or extended against other transactions.

The writes of a transaction take effect when it commits. Until then it holds locks on
the rows of `feeds` it reports on: a claim skips them, other writers wait. Locks on
rows of `alerts` are not modelled: a transaction only extends the rules of an existing
row, a column that nobody else writes.
-/

namespace Feedpulse

/-! ## Queues -/

/-- `buildQueueJobId`. -/
def buildQueueJobId (pre identifier : String) : String := pre ++ "-" ++ identifier

/-- `FetchFeedJobData.source`. -/
inductive FetchSource
  /-- a tick of the scheduler -/
  | scheduler
  /-- a tenant's check-now request -/
  | manual
  deriving DecidableEq, Repr

/-- `FetchFeedJobData`. -/
structure FetchFeedJobData where
  /-- the feed to fetch -/
  feedId : Nat
  /-- when the job was enqueued -/
  queuedAt : Nat
  /-- attempt counter of the producer -/
  attempt : Nat
  /-- who enqueued the job -/
  source : FetchSource
  deriving DecidableEq, Repr

/-- The source of a delivery request. -/
inductive DeliverySource
  /-- the ingestion worker -/
  | ingestion
  /-- a tenant's send request -/
  | manual
  deriving DecidableEq, Repr

/-- `AlertDeliveryJobData`. -/
structure AlertDeliveryJobData where
  /-- the alert to deliver -/
  alertId : Nat
  /-- when the job was enqueued -/
  queuedAt : Nat
  /-- who enqueued the job -/
  source : DeliverySource
  deriving DecidableEq, Repr

/-- The options `FetchFeedQueue` is created with; stalled jobs get the default of one
more run. -/
def fetchQueueOptions : QueueOptions :=
  { attempts := 3, removeOnComplete := true, removeOnFail := 100, maxStalledCount := 1 }

/-- The options `AlertDeliveryQueue` is created with. -/
def alertQueueOptions : QueueOptions :=
  { attempts := 4, removeOnComplete := true, removeOnFail := 100, maxStalledCount := 1 }

/-- The queue of fetch jobs. -/
abbrev FetchQueue := JobQueue String FetchFeedJobData fetchQueueOptions

/-- The queue of delivery jobs. -/
abbrev AlertQueue := JobQueue String AlertDeliveryJobData alertQueueOptions

/-- The id of a delivery job. -/
def alertJobId (alertId : Nat) : String := buildQueueJobId "alert" (toString alertId)

/-- The id of a fetch job of the scheduler. -/
def scheduledJobId (feedId : Nat) : String := buildQueueJobId "feed" (toString feedId)

/-! ## State -/

/-- A row of `telegram_digest_items`. -/
structure DigestItemRow where
  /-- primary key -/
  id : Nat
  /-- owner of the alert -/
  tenantId : String
  /-- the alert -/
  alertId : Nat
  /-- the chat -/
  chatId : String
  /-- end of the digest window -/
  scheduledFor : Nat
  /-- when the digest went out -/
  sentAt : Option Nat
  /-- creation time -/
  createdAt : Nat
  deriving DecidableEq, Repr

/-- A Redis counter of the email quota. -/
structure EmailCounter where
  /-- the tenant of the key -/
  tenantId : String
  /-- the UTC day of the key -/
  day : Nat
  /-- the count -/
  value : Int
  /-- when the key expires -/
  expiresAt : Option Nat
  deriving DecidableEq, Repr

/-- What an open transaction has written. -/
structure Txn where
  /-- inserted entries -/
  entries : List EntryRow
  /-- inserted or extended alerts -/
  alerts : List AlertRow
  /-- inserted fetch logs -/
  fetchLogs : List FetchLogRow
  /-- reports of finished fetches -/
  feedUpdates : List Feeds.AfterFetch

/-- The transaction that has written nothing. -/
def Txn.empty : Txn := { entries := [], alerts := [], fetchLogs := [], feedUpdates := [] }

/-- The shared state. -/
structure World where
  /-- the clock, in milliseconds -/
  now : Nat
  /-- table `feeds` -/
  feeds : List FeedRow
  /-- table `entries` -/
  entries : List EntryRow
  /-- table `rules` -/
  rules : List RuleRow
  /-- table `fetch_logs` -/
  fetchLogs : List FetchLogRow
  /-- table `alerts` -/
  alerts : List AlertRow
  /-- table `telegram_digest_items` -/
  digestItems : List DigestItemRow
  /-- table `tenant_settings` -/
  settings : List TenantSettingsRow
  /-- the Redis counters of the email quota -/
  emailCounters : List EmailCounter
  /-- the queue of fetch jobs -/
  fetchQueue : FetchQueue
  /-- the queue of delivery jobs -/
  alertQueue : AlertQueue
  /-- the open transactions, by process -/
  txns : List (Nat × Txn)
  /-- the sequence behind `entries.id` -/
  nextEntryId : Nat
  /-- the sequence behind `alerts.id` -/
  nextAlertId : Nat
  /-- the sequence behind `telegram_digest_items.id` -/
  nextDigestItemId : Nat

namespace World

/-! ## Transactions -/

/-- The open transaction of a process. -/
def txn (w : World) (pid : Nat) : Option Txn :=
  (Table.lookup Prod.fst pid w.txns).map Prod.snd

/-- Replace or open the transaction of a process. -/
def setTxn (w : World) (pid : Nat) (t : Txn) : World :=
  { w with txns := (pid, t) :: w.txns.filter fun p => p.1 ≠ pid }

/-- Close the transaction of a process without effect. -/
def dropTxn (w : World) (pid : Nat) : World :=
  { w with txns := w.txns.filter fun p => p.1 ≠ pid }

/-- The transactions of the other processes. -/
def otherTxns (w : World) (pid : Nat) : List Txn :=
  (w.txns.filter fun p => p.1 ≠ pid).map Prod.snd

/-- One of the transactions has reported on a feed, and holds the lock on its row. -/
def lockedBy (ts : List Txn) (f : FeedRow) : Bool :=
  ts.any fun t => t.feedUpdates.any fun u => u.feedId = f.id

/-- No open transaction holds the lock on a row that satisfies `p`. -/
def unlocked (w : World) (p : FeedRow → Bool) : Bool :=
  w.feeds.all fun f => !(p f && lockedBy (w.txns.map Prod.snd) f)

/-- `INSERT INTO entries … ON CONFLICT DO NOTHING` inside the transaction of `pid`; it
waits for another transaction that has inserted a conflicting entry. -/
def insertEntry (w : World) (pid : Nat) (tenantId : String) (feedId : Nat)
    (e : NormalizedEntry) : Option (Option EntryRow × World) :=
  match w.txn pid with
  | none => none
  | some t =>
    if (w.otherTxns pid).any fun o => o.entries.any (Entries.conflicts feedId e) then none
    else if (w.entries ++ t.entries).any (Entries.conflicts feedId e) then some (none, w)
    else
      let row := { id := w.nextEntryId, tenantId := tenantId, feedId := feedId, entry := e }
      some (some row,
        { w.setTxn pid { t with entries := t.entries ++ [row] } with
          nextEntryId := w.nextEntryId + 1 })

/-- The first query of `createForEntryWithRules`, `ORDER BY id`. -/
def entriesByIds (w : World) (t : Txn) (ids : List Nat) : List EntryLink :=
  ((w.entries ++ t.entries).filter fun e => e.id ∈ ids).map
      (fun e => { id := e.id, tenantId := e.tenantId, link := e.entry.link })
    |>.insertionSort fun e f => e.id ≤ f.id

/-- Write a row into the staged alerts, replacing the version with its key. -/
def stageAlert (a : AlertRow) (staged : List AlertRow) : List AlertRow :=
  match Table.lookup AlertUpsert.alertKey (AlertUpsert.alertKey a) staged with
  | none => staged ++ [a]
  | some _ => Table.updateWhere
      (fun b => AlertUpsert.alertKey b = AlertUpsert.alertKey a) (fun _ => a) staged

/-- The rows of one upsert statement, in order: the sequence, the staged alerts and
the `RETURNING` rows. -/
def upsertAll (now : Nat) (committed : List AlertRow) :
    List UpsertRow → Nat → List AlertRow → List UpsertedAlert × Nat × List AlertRow
  | [], nextId, staged => ([], nextId, staged)
  | u :: us, nextId, staged =>
    let found := (Table.lookup AlertUpsert.alertKey (AlertUpsert.rowKey u) staged).or
      (Table.lookup AlertUpsert.alertKey (AlertUpsert.rowKey u) committed)
    let (row, inserted) := AlertUpsert.upsertRow now nextId found u
    let nextId' := if inserted then nextId + 1 else nextId
    let (out, next, staged') := upsertAll now committed us nextId' (stageAlert row staged)
    ({ id := row.id, entryId := row.entryId, ruleId := row.ruleId, inserted := inserted } :: out,
      next, staged')

/-- `INSERT INTO alerts … ON CONFLICT … DO UPDATE` inside the transaction of `pid`; it
waits for another transaction that holds one of the keys. -/
def upsertAlerts (w : World) (pid : Nat) (rows : List UpsertRow) :
    Option (List UpsertedAlert × World) :=
  match w.txn pid with
  | none => none
  | some t =>
    if (w.otherTxns pid).any fun o =>
        o.alerts.any fun a => (rows.map AlertUpsert.rowKey).contains (AlertUpsert.alertKey a) then
      none
    else
      let (out, next, staged) := upsertAll w.now w.alerts rows w.nextAlertId t.alerts
      some (out, { w.setTxn pid { t with alerts := staged } with nextAlertId := next })

/-- What a committed alert row does to the table: a new row is added, the rules of an
existing one are replaced. -/
def commitAlert (alerts : List AlertRow) (a : AlertRow) : List AlertRow :=
  match Table.lookup AlertRow.id a.id alerts with
  | none => alerts ++ [a]
  | some _ => Table.updateWhere (fun b => b.id = a.id)
      (fun b => { b with matchedRules := a.matchedRules }) alerts

/-- `COMMIT`: the writes of the transaction become visible. -/
def commitTxn (w : World) (pid : Nat) : World :=
  match w.txn pid with
  | none => w
  | some t =>
    { w.dropTxn pid with
      entries := w.entries ++ t.entries
      alerts := t.alerts.foldl commitAlert w.alerts
      fetchLogs := w.fetchLogs ++ t.fetchLogs
      feeds := t.feedUpdates.foldl (fun fs u => Feeds.updateAfterFetch w.now u fs) w.feeds }

/-! ## Alerts -/

end World

/-- `AlertNotificationRecord`: an alert with its article and its first rule. -/
structure AlertNotificationRecord where
  /-- the alert -/
  alert : AlertRow
  /-- the article -/
  entry : EntryRow
  /-- the rule shown to the reader -/
  rule : RuleRow
  deriving DecidableEq, Repr

namespace World

/-- `COALESCE(matched_rules[1], rule_id)`. -/
def shownRule (a : AlertRow) : Nat := a.matchedRules.headD a.ruleId

/-- `mapAlert`: without matched rules the primary rule stands in. -/
def mapAlert (a : AlertRow) (e : EntryRow) (r : RuleRow) : AlertNotificationRecord :=
  { alert := if a.matchedRules.isEmpty then { a with matchedRules := [a.ruleId] } else a
    entry := e
    rule := r }

/-- The joins of `ALERT_DETAIL_SELECT`. -/
def alertDetail (w : World) (a : AlertRow) : Option AlertNotificationRecord :=
  match Table.lookup EntryRow.id a.entryId w.entries,
      Table.lookup RuleRow.id (shownRule a) w.rules with
  | some e, some r => some (mapAlert a e r)
  | _, _ => none

/-- `findByIdForWorker`. -/
def findAlertForWorker (w : World) (id : Nat) : Option AlertNotificationRecord :=
  (Table.lookup AlertRow.id id w.alerts).bind w.alertDetail

/-- `findByIdForTenant`. -/
def findAlertForTenant (w : World) (id : Nat) (tenantId : String) :
    Option AlertNotificationRecord :=
  (w.alerts.find? fun a => a.id = id && a.tenantId = tenantId).bind w.alertDetail

/-- A single-row update of an alert. -/
def writeAlert (w : World) (id : Nat) (s : AlertWrite) : World :=
  { w with alerts := Table.updateWhere (fun a => a.id = id) (s.apply w.now) w.alerts }

/-- The configuration `checkAllChannelsDelivered` is asked about. -/
structure ChannelConfig where
  /-- the webhook has to be delivered -/
  hasWebhook : Bool
  /-- the email has to be delivered -/
  hasEmail : Bool
  /-- the Telegram message has to be delivered -/
  hasTelegram : Bool
  deriving DecidableEq, Repr

/-- Every channel of the configuration is delivered. -/
def allDelivered (c : ChannelConfig) (a : AlertRow) : Bool :=
  (!c.hasWebhook || a.webhookDeliveryStatus = .sent) &&
    (!c.hasEmail || a.emailDeliveryStatus = .sent) &&
    (!c.hasTelegram || a.telegramDeliveryStatus = .sent)

/-- `checkAllChannelsDelivered`; false if there is no such alert. -/
def checkAllChannelsDelivered (w : World) (id : Nat) (c : ChannelConfig) : Bool :=
  ((Table.lookup AlertRow.id id w.alerts).map (allDelivered c)).getD false

/-! ## Digests -/

/-- An unsent item whose window has ended. -/
def due (nowIso : Nat) (i : DigestItemRow) : Bool :=
  i.sentAt.isNone && i.scheduledFor ≤ nowIso

/-- `INSERT INTO telegram_digest_items … ON CONFLICT (alert_id, chat_id) DO NOTHING`. -/
def insertDigestItem (w : World) (tenantId : String) (alertId : Nat) (chatId : String)
    (scheduledFor : Nat) : World :=
  if w.digestItems.any fun i => i.alertId = alertId && i.chatId = chatId then w
  else
    { w with
      digestItems := w.digestItems ++
        [{ id := w.nextDigestItemId
           tenantId := tenantId
           alertId := alertId
           chatId := chatId
           scheduledFor := scheduledFor
           sentAt := none
           createdAt := w.now }]
      nextDigestItemId := w.nextDigestItemId + 1 }

/-- A group of due items: tenant, chat, and the earliest end of a window. -/
structure DigestGroupKey where
  /-- the tenant -/
  tenantId : String
  /-- the chat -/
  chatId : String
  /-- `MIN(scheduled_for)` -/
  earliest : Nat
  deriving DecidableEq, Repr

/-- `GROUP BY tenant_id, chat_id`. -/
def dueGroups (nowIso : Nat) (items : List DigestItemRow) : List DigestGroupKey :=
  let dueItems := items.filter (due nowIso)
  ((dueItems.map fun i => (i.tenantId, i.chatId)).dedup).map fun g =>
    { tenantId := g.1
      chatId := g.2
      earliest := ((dueItems.filter fun i => i.tenantId = g.1 && i.chatId = g.2).map
        DigestItemRow.scheduledFor).min?.getD 0 }

/-- A due item with its article, as the second query of
`listDueTelegramDigestGroups` reads it. -/
structure DigestItemView where
  /-- the item -/
  digestItemId : Nat
  /-- end of the window -/
  scheduledFor : Nat
  /-- the alert -/
  alertId : Nat
  /-- title of the article -/
  title : Option String
  /-- link of the article -/
  link : Option String
  /-- content of the article -/
  snippet : Option String
  deriving DecidableEq, Repr

/-- The due items of a group with their articles, `ORDER BY created_at, id`. -/
def dueGroupItems (w : World) (nowIso : Nat) (tenantId chatId : String) : List DigestItemView :=
  let items := (w.digestItems.filter fun i =>
      due nowIso i && i.tenantId = tenantId && i.chatId = chatId).insertionSort
    fun i j => i.createdAt < j.createdAt ∨ (i.createdAt = j.createdAt ∧ i.id ≤ j.id)
  items.filterMap fun i =>
    (Table.lookup AlertRow.id i.alertId w.alerts).bind fun a =>
      (Table.lookup EntryRow.id a.entryId w.entries).map fun e =>
        { digestItemId := i.id
          scheduledFor := i.scheduledFor
          alertId := i.alertId
          title := e.entry.title
          link := e.entry.link
          snippet := e.entry.content }

/-- `UPDATE telegram_digest_items SET sent_at = NOW() … AND sent_at IS NULL`. -/
def markDigestItemSent (w : World) (id : Nat) : World :=
  { w with
    digestItems := Table.updateWhere (fun i => i.id = id && i.sentAt.isNone)
      (fun i => { i with sentAt := some w.now }) w.digestItems }

/-- Some item of the alert has not been sent. -/
def hasUnsentItem (items : List DigestItemRow) (alertId : Nat) : Bool :=
  items.any fun i => i.alertId = alertId && i.sentAt.isNone

/-- Some item of the alert has been sent. -/
def hasSentItem (items : List DigestItemRow) (alertId : Nat) : Bool :=
  items.any fun i => i.alertId = alertId && i.sentAt.isSome

/-- Mark the Telegram channel of an alert as delivered. -/
def deliverTelegram (now : Nat) (a : AlertRow) : AlertRow :=
  { a with telegramDeliveryStatus := .sent, lastDeliveryAttemptAt := some now }

/-- The `WHERE` clause of the convergence in `markTelegramDigestGroupSent`. -/
def converges (items : List DigestItemRow) (alertId : Nat) (a : AlertRow) : Bool :=
  a.id = alertId && a.telegramDeliveryStatus ≠ .sent && !hasUnsentItem items a.id

/-- The `WHERE` clause of `reconcileTelegramDigestDeliveryStatus`. -/
def reconciles (items : List DigestItemRow) (a : AlertRow) : Bool :=
  a.telegramDeliveryStatus = .pending && hasSentItem items a.id && !hasUnsentItem items a.id

/-- The convergence of one alert; the reply is its id if it was converged now. -/
def convergeTelegram (w : World) (alertId : Nat) : Option Nat × World :=
  ((w.alerts.find? (converges w.digestItems alertId)).map AlertRow.id,
    { w with
      alerts := Table.updateWhere (converges w.digestItems alertId) (deliverTelegram w.now)
        w.alerts })

/-- `reconcileTelegramDigestDeliveryStatus`. -/
def reconcileTelegram (w : World) : List Nat × World :=
  ((w.alerts.filter (reconciles w.digestItems)).map AlertRow.id,
    { w with
      alerts := Table.updateWhere (reconciles w.digestItems) (deliverTelegram w.now) w.alerts })

/-! ## Redis counters -/

/-- The counter of a key, unless it has expired. -/
def liveCounter (w : World) (tenantId : String) (day : Nat) : Option EmailCounter :=
  w.emailCounters.find? fun c => c.tenantId = tenantId && c.day = day &&
    (match c.expiresAt with
      | none => true
      | some t => w.now < t)

/-- Write the counter of a key. -/
def setCounter (w : World) (c : EmailCounter) : World :=
  { w with
    emailCounters := c :: w.emailCounters.filter fun d =>
      !(d.tenantId = c.tenantId && d.day = c.day) }

/-- `INCRBY key delta`: a missing or expired key counts from zero, without expiry. -/
def addToCounter (w : World) (tenantId : String) (day : Nat) (delta : Int) : Int × World :=
  match w.liveCounter tenantId day with
  | none => (delta, w.setCounter
      { tenantId := tenantId, day := day, value := delta, expiresAt := none })
  | some c => (c.value + delta, w.setCounter { c with value := c.value + delta })

/-- `EXPIRE key ttl`. -/
def expireCounter (w : World) (tenantId : String) (day ttlSeconds : Nat) : World :=
  match w.liveCounter tenantId day with
  | none => w
  | some c => w.setCounter { c with expiresAt := some (w.now + ttlSeconds * 1000) }

end World

end Feedpulse
