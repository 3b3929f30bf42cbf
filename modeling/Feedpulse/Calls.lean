import Feedpulse.World
import Feedpulse.Program

/-!
# Calls

The programs of the service act on the shared state and on the outside world only
through calls: SQL statements, Redis commands, queue operations, HTTP requests, the
clock. This file lists them by the component they address, with the type of their
replies, and says what each does to the state (`serve`). Where the reply is not
determined by the state (ties, jitters, responses), the environment supplies a
`Choice`, which `serve` checks.

A call can also fail (`Outcome`): it may be refused, so that it has no effect, or its
answer may be lost after it took effect.
-/

namespace Feedpulse

/-- What the feed fetcher returns. -/
structure FetchResponse where
  /-- status of the response -/
  statusCode : Nat
  /-- body of the response -/
  body : String
  /-- `ETag` header -/
  etag : Option String
  /-- `Last-Modified` header -/
  lastModified : Option String
  /-- duration of the request -/
  durationMs : Nat
  deriving DecidableEq, Repr

/-- The payload of a Telegram message. -/
inductive TelegramMessage
  /-- one alert -/
  | alert (record : AlertNotificationRecord)
  /-- the digest of a group -/
  | digest (tenantId : String) (items : List World.DigestItemView)
  deriving DecidableEq, Repr

/-! ## The families of calls -/

/-- `FeedsRepository`, and the fetch log outside a transaction. -/
inductive FeedCall
  /-- claim the next batch of due feeds -/
  | claimDueFeeds (limit : Nat)
  /-- release claims older than a threshold -/
  | releaseStuckFeeds (staleThresholdSeconds : Nat)
  /-- whether a feed of the tenant is claimed -/
  | isClaimed (id : Nat) (tenantId : String)
  /-- read a feed across tenants -/
  | findByIdForWorker (id : Nat)
  /-- read a feed of the tenant -/
  | findByIdForTenant (id : Nat) (tenantId : String)
  /-- the `UPDATE` of the tenant's update -/
  | update (u : Feeds.FeedUpdate)
  /-- report a finished fetch -/
  | updateAfterFetch (u : Feeds.AfterFetch)
  /-- insert a fetch log -/
  | recordFetchLog (row : FetchLogRow)

/-- The connection and the transaction of an ingestion job. -/
inductive IngestCall
  /-- check out a connection -/
  | connect
  /-- `BEGIN` -/
  | begin
  /-- `COMMIT` -/
  | commit
  /-- `ROLLBACK` -/
  | rollback
  /-- return the connection -/
  | release
  /-- insert one entry -/
  | insertEntry (tenantId : String) (feedId : Nat) (e : NormalizedEntry)
  /-- the active rules of a tenant -/
  | listActive (tenantId : String)
  /-- the entries of a batch -/
  | entriesByIds (ids : List Nat)
  /-- upsert the alerts of a batch -/
  | upsertAlerts (rows : List UpsertRow)
  /-- insert a fetch log -/
  | recordFetchLog (row : FetchLogRow)
  /-- report a finished fetch -/
  | updateAfterFetch (u : Feeds.AfterFetch)

/-- `AlertsRepository`, as delivery uses it. -/
inductive AlertCall
  /-- read an alert across tenants -/
  | findByIdForWorker (id : Nat)
  /-- read an alert of the tenant -/
  | findByIdForTenant (id : Nat) (tenantId : String)
  /-- update one alert -/
  | write (id : Nat) (s : AlertWrite)
  /-- ask whether the configured channels are delivered -/
  | checkAllChannelsDelivered (id : Nat) (config : World.ChannelConfig)
  /-- queue one alert for the digest of one chat -/
  | insertDigestItem (tenantId : String) (alertId : Nat) (chatId : String) (scheduledFor : Nat)
  /-- the groups of due digest items -/
  | listDueGroups (nowIso maxGroups : Nat)
  /-- the due items of one group -/
  | listGroupItems (nowIso : Nat) (tenantId chatId : String)
  /-- mark one digest item sent -/
  | markDigestItemSent (id : Nat)
  /-- converge the Telegram channel of one alert -/
  | convergeTelegram (alertId : Nat)
  /-- converge the Telegram channel of every flushed alert -/
  | reconcileTelegram

/-- The job queues. -/
inductive QueueCall
  /-- look up a fetch job -/
  | getFetchJob (jobId : String)
  /-- add a fetch job -/
  | addFetchJob (jobId : String) (data : FetchFeedJobData)
  /-- add a delivery job -/
  | addAlertJob (jobId : String) (data : AlertDeliveryJobData)

/-- The Redis commands of the email quota, on the key of a tenant and a UTC day. -/
inductive RedisCall
  /-- `INCR` -/
  | incr (tenantId : String) (day : Nat)
  /-- `DECR` -/
  | decr (tenantId : String) (day : Nat)
  /-- `EXPIRE` -/
  | expire (tenantId : String) (day ttlSeconds : Nat)

/-- Requests to the outside world. -/
inductive NetCall
  /-- fetch a feed -/
  | fetchFeed (url : String) (etag lastModified : Option String)
  /-- deliver an alert to a webhook -/
  | postWebhook (url : String) (record : AlertNotificationRecord)
  /-- send an alert by mail -/
  | postEmail (recipients : List String) (record : AlertNotificationRecord)
  /-- send a Telegram message with the bot of the token -/
  | telegramSendMessage (token chatId : String) (message : TelegramMessage)

/-- Everything a program can ask for. -/
inductive Call
  /-- feeds -/
  | feed (c : FeedCall)
  /-- ingestion transaction -/
  | ingest (c : IngestCall)
  /-- alerts -/
  | alert (c : AlertCall)
  /-- tenant settings -/
  | getSettings (tenantId : String)
  /-- job queues -/
  | queue (c : QueueCall)
  /-- email quota -/
  | redis (c : RedisCall)
  /-- outside world -/
  | net (c : NetCall)
  /-- check that the schema is migrated -/
  | assertSchemaReady
  /-- `Date.now()` -/
  | clock
  /-- `Math.floor(Math.random() * bound)` -/
  | random (bound : Nat)

/-! ## Replies -/

/-- The reply to a feed statement. -/
abbrev FeedCall.Reply : FeedCall → Type
  | claimDueFeeds _ => List FeedRow
  | releaseStuckFeeds _ => Nat
  | isClaimed .. => Bool
  | findByIdForWorker _ => Option FeedRow
  | findByIdForTenant .. => Option FeedRow
  | update _ => Option FeedRow
  | updateAfterFetch _ => Unit
  | recordFetchLog _ => Unit

/-- The reply to an ingestion statement. -/
abbrev IngestCall.Reply : IngestCall → Type
  | connect | begin | commit | rollback | release => Unit
  | insertEntry .. => Option EntryRow
  | listActive _ => List RuleRow
  | entriesByIds _ => List EntryLink
  | upsertAlerts _ => List UpsertedAlert
  | recordFetchLog _ => Unit
  | updateAfterFetch _ => Unit

/-- The reply to an alert statement. -/
abbrev AlertCall.Reply : AlertCall → Type
  | findByIdForWorker _ => Option AlertNotificationRecord
  | findByIdForTenant .. => Option AlertNotificationRecord
  | write .. => Nat
  | checkAllChannelsDelivered .. => Bool
  | insertDigestItem .. => Unit
  | listDueGroups .. => List World.DigestGroupKey
  | listGroupItems .. => List World.DigestItemView
  | markDigestItemSent _ => Unit
  | convergeTelegram _ => Option Nat
  | reconcileTelegram => List Nat

/-- The reply to a queue operation. -/
abbrev QueueCall.Reply : QueueCall → Type
  | getFetchJob _ => Option (Job String FetchFeedJobData)
  | addFetchJob .. => Unit
  | addAlertJob .. => Unit

/-- The reply to a Redis command. -/
abbrev RedisCall.Reply : RedisCall → Type
  | incr .. => Int
  | decr .. => Int
  | expire .. => Unit

/-- The reply to a request. -/
abbrev NetCall.Reply : NetCall → Type
  | fetchFeed .. => FetchResponse
  | _ => Unit

/-- The reply to a call. -/
abbrev Call.Reply : Call → Type
  | feed c => c.Reply
  | ingest c => c.Reply
  | alert c => c.Reply
  | getSettings _ => Option TenantSettings
  | queue c => c.Reply
  | redis c => c.Reply
  | net c => c.Reply
  | assertSchemaReady => Unit
  | clock => Nat
  | random _ => Nat

/-- A program of the service. Errors are their messages. -/
abbrev Program (α : Type) := Prog String Call Call.Reply α

/-! ## What calls do -/

/-- What the environment decides about a reply. -/
inductive Choice
  /-- nothing: the state determines the reply -/
  | none
  /-- a claim: rows locked elsewhere, chosen rows in order, jitters by feed -/
  | claim (skipped : List Nat) (picks : List FeedRow) (jitters : List (Nat × Nat))
  /-- the groups a `LIMIT` chooses -/
  | groups (picks : List World.DigestGroupKey)
  /-- a response -/
  | response (r : FetchResponse)
  /-- a random number -/
  | random (n : Nat)
  deriving DecidableEq, Repr

/-- Feed statements. A claim skips rows that are locked; the other statements wait for
the rows they are about to change. -/
def FeedCall.serve (w : World) (ch : Choice) : (c : FeedCall) → Option (c.Reply × World)
  | claimDueFeeds limit =>
    match ch with
    | .claim skipped picks jitters =>
      if w.unlocked fun f => f.id ∉ skipped then
        (Feeds.claimDueFeeds w.now limit skipped picks jitters w.feeds).map fun r =>
          (r.1, { w with feeds := r.2 })
      else none
    | _ => none
  | releaseStuckFeeds threshold =>
    if w.unlocked (Feeds.stuck w.now threshold) then
      some ((Feeds.releaseStuckFeeds w.now threshold w.feeds).1,
        { w with feeds := (Feeds.releaseStuckFeeds w.now threshold w.feeds).2 })
    else none
  | isClaimed id tenantId => some (Feeds.isClaimed id tenantId w.feeds, w)
  | findByIdForWorker id => some (Feeds.findByIdForWorker id w.feeds, w)
  | findByIdForTenant id tenantId => some (Feeds.findByIdForTenant id tenantId w.feeds, w)
  | update u =>
    if w.unlocked fun f => f.id = u.id && f.tenantId = u.tenantId then
      some (Feeds.findByIdForTenant u.id u.tenantId (Feeds.applyUpdate w.now u w.feeds),
        { w with feeds := Feeds.applyUpdate w.now u w.feeds })
    else none
  | updateAfterFetch u =>
    if w.unlocked fun f => f.id = u.feedId then
      some ((), { w with feeds := Feeds.updateAfterFetch w.now u w.feeds })
    else none
  | recordFetchLog row => some ((), { w with fetchLogs := w.fetchLogs ++ [row] })

/-- Statements of the ingestion transaction of the process `pid`. The rules are read on
another connection, outside the transaction. -/
def IngestCall.serve (pid : Nat) (w : World) : (c : IngestCall) → Option (c.Reply × World)
  | connect => some ((), w)
  | begin => some ((), w.setTxn pid Txn.empty)
  | commit => some ((), w.commitTxn pid)
  | rollback => some ((), w.dropTxn pid)
  | release => some ((), w.dropTxn pid)
  | insertEntry tenantId feedId e => w.insertEntry pid tenantId feedId e
  | listActive tenantId =>
    some ((w.rules.filter fun r => r.tenantId = tenantId && r.isActive).insertionSort
      fun r s => r.id ≤ s.id, w)
  | entriesByIds ids => (w.txn pid).map fun t => (w.entriesByIds t ids, w)
  | upsertAlerts rows => w.upsertAlerts pid rows
  | recordFetchLog row =>
    (w.txn pid).map fun t => ((), w.setTxn pid { t with fetchLogs := t.fetchLogs ++ [row] })
  | updateAfterFetch u =>
    if w.feeds.any fun f => f.id = u.feedId && World.lockedBy (w.otherTxns pid) f then none
    else (w.txn pid).map fun t =>
      ((), w.setTxn pid { t with feedUpdates := t.feedUpdates ++ [u] })

/-- Alert statements. -/
def AlertCall.serve (w : World) (ch : Choice) : (c : AlertCall) → Option (c.Reply × World)
  | findByIdForWorker id => some (w.findAlertForWorker id, w)
  | findByIdForTenant id tenantId => some (w.findAlertForTenant id tenantId, w)
  | write id s => some (w.alerts.countP fun a => a.id = id, w.writeAlert id s)
  | checkAllChannelsDelivered id config => some (w.checkAllChannelsDelivered id config, w)
  | insertDigestItem tenantId alertId chatId scheduledFor =>
    some ((), w.insertDigestItem tenantId alertId chatId scheduledFor)
  | listDueGroups nowIso maxGroups =>
    match ch with
    | .groups picks =>
      if Table.IsTop (fun g h => g.earliest ≤ h.earliest) maxGroups
          (World.dueGroups nowIso w.digestItems) picks then some (picks, w)
      else none
    | _ => none
  | listGroupItems nowIso tenantId chatId => some (w.dueGroupItems nowIso tenantId chatId, w)
  | markDigestItemSent id => some ((), w.markDigestItemSent id)
  | convergeTelegram alertId => some (w.convergeTelegram alertId)
  | reconcileTelegram => some w.reconcileTelegram

/-- Queue operations. -/
def QueueCall.serve (w : World) : (c : QueueCall) → c.Reply × World
  | getFetchJob jobId => (w.fetchQueue.getJob jobId, w)
  | addFetchJob jobId data => ((), { w with fetchQueue := w.fetchQueue.add jobId data })
  | addAlertJob jobId data => ((), { w with alertQueue := w.alertQueue.add jobId data })

/-- Redis commands. -/
def RedisCall.serve (w : World) : (c : RedisCall) → c.Reply × World
  | incr tenantId day => w.addToCounter tenantId day 1
  | decr tenantId day => w.addToCounter tenantId day (-1)
  | expire tenantId day ttlSeconds => ((), w.expireCounter tenantId day ttlSeconds)

/-- Requests: only their success is modelled, a refusal is an `Outcome`. -/
def NetCall.serve (ch : Choice) : (c : NetCall) → Option c.Reply
  | fetchFeed .. =>
    match ch with
    | .response r => some r
    | _ => none
  | postWebhook .. => some ()
  | postEmail .. => some ()
  | telegramSendMessage .. => some ()

/-- What a call of the process `pid` does when it succeeds; `none` if it has to wait, or
if the choice does not fit. -/
def Call.serve (pid : Nat) (w : World) (ch : Choice) : (c : Call) → Option (c.Reply × World)
  | feed c => c.serve w ch
  | ingest c => c.serve pid w
  | alert c => c.serve w ch
  | getSettings tenantId => some (Settings.getByTenantId tenantId w.settings, w)
  | queue c => some (c.serve w)
  | redis c => some (c.serve w)
  | net c => (c.serve ch).map fun r => (r, w)
  | assertSchemaReady => some ((), w)
  | clock => some (w.now, w)
  | random bound =>
    match ch with
    | .random n => if n < bound then some (n, w) else none
    | _ => none

/-- The groups that are listed are an answer to the `LIMIT`. -/
theorem AlertCall.listDueGroups_eq_some {w w' : World} {ch : Choice} {nowIso maxGroups : Nat}
    {picks : List World.DigestGroupKey}
    (h : (AlertCall.listDueGroups nowIso maxGroups).serve w ch = some (picks, w')) :
    Table.IsTop (fun g h : World.DigestGroupKey => g.earliest ≤ h.earliest) maxGroups
      (World.dueGroups nowIso w.digestItems) picks ∧ w' = w := by
  cases ch with
  | groups chosen =>
    change (if _ then some (chosen, w) else none) = some (picks, w') at h
    split at h
    · rename_i htop
      cases h
      exact ⟨htop, rfl⟩
    · cases h
  | _ => cases h

/-! ## Failures -/

/-- How the environment answers a call. -/
inductive Outcome
  /-- it succeeds -/
  | ok (ch : Choice)
  /-- it fails without effect -/
  | refused (error : String)
  /-- it takes effect, but the caller sees an error -/
  | lost (ch : Choice) (error : String)
  deriving DecidableEq, Repr

/-- The call takes effect, whether or not its answer arrives. -/
def Outcome.takesEffect : Outcome → Bool
  | ok _ => true
  | refused _ => false
  | lost .. => true

/-- The call takes effect, and its reply arrives. -/
def Outcome.arrives : Outcome → Bool
  | ok _ => true
  | _ => false

/-- What the environment decides, if the call takes effect. -/
def Outcome.choice? : Outcome → Option Choice
  | ok ch => some ch
  | refused _ => none
  | lost ch _ => some ch

/-- The calls that cannot fail: the clock, the random source, and returning a
connection to the pool. -/
def Call.infallible : Call → Bool
  | clock => true
  | random _ => true
  | ingest .release => true
  | _ => false

/-- Answer a call of the process `pid`. -/
def Call.answer (pid : Nat) (w : World) (out : Outcome) (c : Call) :
    Option (Except String c.Reply × World) :=
  match out with
  | .ok ch => (c.serve pid w ch).map fun r => (.ok r.1, r.2)
  | .refused error => if c.infallible then none else some (.error error, w)
  | .lost ch error =>
    if c.infallible then none else (c.serve pid w ch).map fun r => (.error error, r.2)

/-- A call that takes effect has the effect of its success. -/
theorem Call.serve_of_choice {pid : Nat} {w w' : World} {out : Outcome} {ch : Choice} {c : Call}
    {r : Except String c.Reply} (hch : out.choice? = some ch)
    (h : c.answer pid w out = some (r, w')) : ∃ a, c.serve pid w ch = some (a, w') := by
  cases out with
  | ok ch' =>
    obtain rfl := Option.some.inj hch
    obtain ⟨⟨a, w''⟩, hs, he⟩ := Option.map_eq_some_iff.mp h
    cases he
    exact ⟨a, hs⟩
  | refused error => cases hch
  | lost ch' error =>
    obtain rfl := Option.some.inj hch
    obtain ⟨-, h⟩ := Option.ite_none_left_eq_some.mp h
    obtain ⟨⟨a, w''⟩, hs, he⟩ := Option.map_eq_some_iff.mp h
    cases he
    exact ⟨a, hs⟩

/-- A reply is the one of a call that succeeds. -/
theorem Call.serve_of_ok {pid : Nat} {w w' : World} {out : Outcome} {c : Call} {a : c.Reply}
    (h : c.answer pid w out = some (.ok a, w')) :
    ∃ ch, out = .ok ch ∧ c.serve pid w ch = some (a, w') := by
  cases out with
  | ok ch =>
    obtain ⟨⟨b, w''⟩, hs, he⟩ := Option.map_eq_some_iff.mp h
    cases he
    exact ⟨ch, rfl, hs⟩
  | refused error =>
    unfold answer at h
    obtain ⟨-, h⟩ := Option.ite_none_left_eq_some.mp h
    cases h
  | lost ch error =>
    unfold answer at h
    obtain ⟨-, h⟩ := Option.ite_none_left_eq_some.mp h
    obtain ⟨b, -, he⟩ := Option.map_eq_some_iff.mp h
    cases he

/-- A call is answered by a reply together with its effect, or by an error with or
without it. -/
theorem Call.answer_cases {pid : Nat} {w w' : World} {out : Outcome} {c : Call}
    {r : Except String c.Reply} (h : c.answer pid w out = some (r, w')) :
    (∃ error, out = .refused error ∧ r = .error error ∧ w' = w ∧ c.infallible = false) ∨
      ∃ ch a, c.serve pid w ch = some (a, w') ∧
        ((r = .ok a ∧ out = .ok ch) ∨
          ∃ error, r = .error error ∧ out = .lost ch error ∧ c.infallible = false) := by
  cases out with
  | ok ch =>
    obtain ⟨⟨a, w''⟩, hs, he⟩ := Option.map_eq_some_iff.mp h
    cases he
    exact .inr ⟨ch, a, hs, .inl ⟨rfl, rfl⟩⟩
  | refused error =>
    unfold answer at h
    dsimp only at h
    split at h
    · cases h
    · rename_i hf
      cases h
      exact .inl ⟨error, rfl, rfl, rfl, by simpa using hf⟩
  | lost ch error =>
    unfold answer at h
    dsimp only at h
    split at h
    · cases h
    · rename_i hf
      obtain ⟨⟨a, w''⟩, hs, he⟩ := Option.map_eq_some_iff.mp h
      cases he
      exact .inr ⟨ch, a, hs, .inr ⟨error, rfl, rfl, by simpa using hf⟩⟩

/-- The same without what the environment has decided. -/
theorem Call.answer_eq_some {pid : Nat} {w w' : World} {out : Outcome} {c : Call}
    {r : Except String c.Reply} (h : c.answer pid w out = some (r, w')) :
    (∃ error, r = .error error ∧ w' = w ∧ c.infallible = false) ∨
      ∃ ch a, c.serve pid w ch = some (a, w') ∧
        (r = .ok a ∨ ∃ error, r = .error error ∧ c.infallible = false) := by
  rcases Call.answer_cases h with ⟨error, -, hrest⟩ | ⟨ch, a, hs, hr⟩
  · exact .inl ⟨error, hrest⟩
  · exact .inr ⟨ch, a, hs, hr.imp And.left fun ⟨error, he, _, hf⟩ => ⟨error, he, hf⟩⟩

end Feedpulse
