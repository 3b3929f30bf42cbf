import Feedpulse.FeedUrl
import Feedpulse.OpmlImports
import Feedpulse.Repositories

/-!
# Calls of the OPML import

The shared state with the tables and queues of the OPML import, and the calls by which its
programs act on it. A statement runs on the pool, where it takes effect at once, or on a
client inside a transaction, where it takes effect when the transaction commits. A
transaction sees what it has written; a statement that would change what another
transaction has changed waits for it. After an error inside a transaction PostgreSQL refuses
every further statement until the transaction is rolled back, and its `COMMIT` rolls back.
-/

namespace Feedpulse

/-! ## Queues -/

/-- `OpmlParsePreviewJobData`. -/
structure OpmlParsePreviewJobData where
  /-- the import to parse -/
  importId : Nat
  /-- the document -/
  opmlXml : String
  deriving DecidableEq, Repr

/-- `OpmlApplyImportJobData`. -/
structure OpmlApplyImportJobData where
  /-- the import to apply -/
  importId : Nat
  /-- when it was confirmed -/
  requestedAt : Nat
  deriving DecidableEq, Repr

/-- The options `OpmlParsePreviewQueue` is created with. -/
def opmlParseQueueOptions : QueueOptions :=
  { attempts := 3, removeOnComplete := true, removeOnFail := 100, maxStalledCount := 1 }

/-- The options `OpmlApplyImportQueue` is created with. -/
def opmlApplyQueueOptions : QueueOptions :=
  { attempts := 4, removeOnComplete := true, removeOnFail := 100, maxStalledCount := 1 }

/-- The queue of parse jobs. -/
abbrev OpmlParseQueue := JobQueue String OpmlParsePreviewJobData opmlParseQueueOptions

/-- The queue of apply jobs. -/
abbrev OpmlApplyQueue := JobQueue String OpmlApplyImportJobData opmlApplyQueueOptions

/-- The id of a parse job. -/
def opmlParseJobId (importId : Nat) : String := buildQueueJobId "opml-parse" (toString importId)

/-- The id of an apply job. -/
def opmlApplyJobId (importId : Nat) : String := buildQueueJobId "opml-apply" (toString importId)

/-! ## State -/

/-- An open transaction of the OPML import. -/
structure OpmlTxn where
  /-- a statement has failed -/
  aborted : Bool
  /-- when the transaction began, which is what `NOW()` returns in it -/
  startedAt : Nat
  /-- what it has written, in order -/
  writes : List OpmlWrite

/-- The sequences behind the primary keys. -/
structure OpmlSequences where
  /-- the next `opml_imports.id` -/
  importId : Nat
  /-- the next `opml_import_items.id` -/
  itemId : Nat
  /-- the next `feeds.id` -/
  feedId : Nat
  deriving DecidableEq, Repr

/-- The shared state, with what the OPML import adds to it. -/
structure OpmlWorld where
  /-- the rest of the service -/
  core : World
  /-- table `opml_imports` -/
  imports : List OpmlImportRow
  /-- table `opml_import_items` -/
  items : List OpmlImportItemRow
  /-- the queue of parse jobs -/
  parseQueue : OpmlParseQueue
  /-- the queue of apply jobs -/
  applyQueue : OpmlApplyQueue
  /-- the open transactions, by process -/
  opmlTxns : List (Nat × OpmlTxn)
  /-- the sequences -/
  sequences : OpmlSequences

namespace OpmlWorld

/-- The committed tables. -/
def tables (w : OpmlWorld) : OpmlTables :=
  { feeds := w.core.feeds, imports := w.imports, items := w.items }

/-- Replace the committed tables. -/
def setTables (w : OpmlWorld) (t : OpmlTables) : OpmlWorld :=
  { w with core := { w.core with feeds := t.feeds }, imports := t.imports, items := t.items }

/-- The open transaction of a process. -/
def opmlTxn (w : OpmlWorld) (pid : Nat) : Option OpmlTxn :=
  (Table.lookup Prod.fst pid w.opmlTxns).map Prod.snd

/-- Open or replace the transaction of a process. -/
def setOpmlTxn (w : OpmlWorld) (pid : Nat) (t : OpmlTxn) : OpmlWorld :=
  { w with opmlTxns := (pid, t) :: w.opmlTxns.filter fun p => p.1 ≠ pid }

/-- Close the transaction of a process without effect. -/
def dropOpmlTxn (w : OpmlWorld) (pid : Nat) : OpmlWorld :=
  { w with opmlTxns := w.opmlTxns.filter fun p => p.1 ≠ pid }

/-- The transactions of the other processes. -/
def otherOpmlTxns (w : OpmlWorld) (pid : Nat) : List OpmlTxn :=
  (w.opmlTxns.filter fun p => p.1 ≠ pid).map Prod.snd

/-- What a transaction sees: the committed tables under its own changes. -/
def view (w : OpmlWorld) (t : OpmlTxn) : OpmlTables :=
  w.tables.applyAll t.startedAt t.writes

/-- Mark the transaction of a process as failed. -/
def abortOpmlTxn (w : OpmlWorld) (pid : Nat) : OpmlWorld :=
  match w.opmlTxn pid with
  | none => w
  | some t => w.setOpmlTxn pid { t with aborted := true }

/-- `COMMIT`: the changes become visible; after an error it is a `ROLLBACK`. -/
def commitOpmlTxn (w : OpmlWorld) (pid : Nat) : OpmlWorld :=
  match w.opmlTxn pid with
  | none => w
  | some t =>
    if t.aborted then w.dropOpmlTxn pid else (w.dropOpmlTxn pid).setTables (w.view t)

end OpmlWorld

/-! ## Statements -/

/-- Where a statement runs. -/
inductive Executor
  /-- on a connection of the pool, in a transaction of its own -/
  | pool
  /-- on the client, in the transaction of the job -/
  | client
  deriving DecidableEq, Repr

/-- The input of `createImport`. -/
structure CreateImportRow where
  /-- owner of the import -/
  tenantId : String
  /-- name of the uploaded file -/
  fileName : String
  /-- size of the uploaded file -/
  fileSizeBytes : Nat
  /-- checksum of the uploaded file -/
  sourceChecksum : String
  deriving DecidableEq, Repr

/-- The statements of `OpmlImportsRepository` and of its two jobs, and those of
`FeedsRepository` by which feeds come in. -/
inductive OpmlStatement
  /-- `findImportByIdForTenant` -/
  | findImportByIdForTenant (importId : Nat) (tenantId : String)
  /-- `findImportByIdForWorker` -/
  | findImportByIdForWorker (importId : Nat)
  /-- `getImportTenantId` -/
  | getImportTenantId (importId : Nat)
  /-- `createImport` -/
  | createImport (input : CreateImportRow)
  /-- `markImportStatus` -/
  | markImportStatus (u : OpmlStatusUpdate)
  /-- the deletion of `replaceImportItems` -/
  | deleteItems (importId : Nat)
  /-- the insertion of `replaceImportItems` -/
  | insertItem (tenantId : String) (importId : Nat) (input : OpmlImportItemInput)
  /-- `findExistingFeedsByHash` -/
  | findExistingFeedsByHash (tenantId : String) (hashes urls : List String)
  /-- `listNewCandidateItems` -/
  | listNewCandidateItems (importId : Nat)
  /-- the insertion of `upsertFeed`, `ON CONFLICT DO NOTHING` -/
  | insertFeedOrNothing (tenantId url normalizedHash : String) (jitterSeconds : Nat)
  /-- the lookup of `upsertFeed` -/
  | findFeedByHashOrUrl (tenantId normalizedHash url : String)
  /-- `markItemImported` -/
  | markItemImported (itemId feedId : Nat)
  /-- `markItemFailed` -/
  | markItemFailed (itemId : Nat) (validationError : String)
  /-- `countItemsByStatus` -/
  | countItemsByStatus (importId : Nat)
  /-- the insertion of `FeedsRepository.create` -/
  | createFeed (tenantId url : String) (normalizedUrlHash : Option String)
    (pollIntervalSeconds : Nat) (status : FeedStatus)
  /-- the count of `FeedsRepository.list` without further filters -/
  | countFeeds (tenantId : String)

namespace OpmlStatement

/-- The reply to a statement. -/
abbrev Reply : OpmlStatement → Type
  | findImportByIdForTenant .. => Option OpmlImportRow
  | findImportByIdForWorker _ => Option OpmlImportRow
  | getImportTenantId _ => Option String
  | createImport _ => OpmlImportRow
  | markImportStatus _ => Option OpmlImportRow
  | deleteItems _ => Unit
  | insertItem .. => Unit
  | findExistingFeedsByHash .. => List FeedRow
  | listNewCandidateItems _ => List OpmlImportItemRow
  | insertFeedOrNothing .. => Option FeedRow
  | findFeedByHashOrUrl .. => Option FeedRow
  | markItemImported .. => Unit
  | markItemFailed .. => Unit
  | countItemsByStatus _ => OpmlItemStatus → Nat
  | createFeed .. => FeedRow
  | countFeeds _ => Nat

end OpmlStatement

namespace OpmlImports

/-- The row `createImport` inserts. -/
def newImport (now id : Nat) (input : CreateImportRow) : OpmlImportRow :=
  { id := id
    tenantId := input.tenantId
    status := .uploaded
    fileName := input.fileName
    fileSizeBytes := input.fileSizeBytes
    sourceChecksum := some input.sourceChecksum
    errorMessage := none
    totalItems := 0
    validItems := 0
    duplicateItems := 0
    existingItems := 0
    invalidItems := 0
    importedItems := 0
    uploadedAt := now
    confirmedAt := none
    completedAt := none }

/-- The row an insertion into `feeds` adds, due after a delay. -/
def newFeed (now id : Nat) (tenantId url : String) (normalizedUrlHash : Option String)
    (pollIntervalSeconds : Nat) (status : FeedStatus) (delaySeconds : Nat) : FeedRow :=
  { id := id
    tenantId := tenantId
    url := url
    status := status
    etag := none
    lastModified := none
    lastCheckedAt := none
    nextCheckAt := now + delaySeconds * 1000
    pollIntervalSeconds := pollIntervalSeconds
    errorCount := 0
    lastError := none
    avgResponseMs := none
    claimedAt := none
    updatedAt := now
    normalizedUrlHash := normalizedUrlHash }

/-- The violation of a unique index, SQLSTATE 23505. -/
def uniqueViolation : String := "duplicate key value violates unique constraint"

end OpmlImports

/-- What a statement answers, and what it writes, on the tables as it sees them. -/
def OpmlStatement.eval (now : Nat) (ids : OpmlSequences) (t : OpmlTables) :
    (s : OpmlStatement) → Except String s.Reply × Option OpmlWrite
  | findImportByIdForTenant importId tenantId =>
    (.ok (t.imports.find? fun r => r.id = importId && r.tenantId = tenantId), none)
  | findImportByIdForWorker importId =>
    (.ok (Table.lookup OpmlImportRow.id importId t.imports), none)
  | getImportTenantId importId =>
    (.ok ((Table.lookup OpmlImportRow.id importId t.imports).map OpmlImportRow.tenantId), none)
  | createImport input =>
    let row := OpmlImports.newImport now ids.importId input
    (.ok row, some (.insertImport row))
  | markImportStatus u =>
    (.ok ((Table.lookup OpmlImportRow.id u.importId t.imports).map (u.apply now)),
      some (.markImportStatus u))
  | deleteItems importId => (.ok (), some (.deleteItems importId))
  | insertItem tenantId importId input =>
    if OpmlImports.itemRejected importId input t.items then
      (.error "new row violates a constraint of opml_import_items", none)
    else (.ok (), some (.insertItem
      { id := ids.itemId, tenantId := tenantId, importId := importId, input := input,
        feedId := none }))
  | findExistingFeedsByHash tenantId hashes urls =>
    (.ok (OpmlImports.existingFeeds tenantId hashes urls t.feeds), none)
  | listNewCandidateItems importId => (.ok (OpmlImports.newCandidateItems importId t.items), none)
  | insertFeedOrNothing tenantId url normalizedHash jitterSeconds =>
    if t.feeds.any (OpmlImports.feedConflicts tenantId url (some normalizedHash)) then
      (.ok none, none)
    else
      let row := OpmlImports.newFeed now ids.feedId tenantId url (some normalizedHash) 1800 .active
        jitterSeconds
      (.ok (some row), some (.insertFeed row))
  | findFeedByHashOrUrl tenantId normalizedHash url =>
    (.ok (OpmlImports.findFeedByHashOrUrl tenantId normalizedHash url t.feeds), none)
  | markItemImported itemId feedId => (.ok (), some (.markItemImported itemId feedId))
  | markItemFailed itemId validationError =>
    (.ok (), some (.markItemFailed itemId validationError))
  | countItemsByStatus importId => (.ok (OpmlImports.countItems importId t.items), none)
  | createFeed tenantId url normalizedUrlHash pollIntervalSeconds status =>
    if t.feeds.any (OpmlImports.feedConflicts tenantId url normalizedUrlHash) then
      (.error OpmlImports.uniqueViolation, none)
    else
      let row := OpmlImports.newFeed now ids.feedId tenantId url normalizedUrlHash
        pollIntervalSeconds status 0
      (.ok row, some (.insertFeed row))
  | countFeeds tenantId => (.ok (OpmlImports.countFeeds tenantId t.feeds), none)

namespace OpmlWrite

/-- The sequences after a change. -/
def advance (ids : OpmlSequences) : OpmlWrite → OpmlSequences
  | insertImport _ => { ids with importId := ids.importId + 1 }
  | insertItem _ => { ids with itemId := ids.itemId + 1 }
  | insertFeed _ => { ids with feedId := ids.feedId + 1 }
  | _ => ids

/-- The rows of `opml_import_items` a change concerns. -/
def touchesItem (i : OpmlImportItemRow) : OpmlWrite → Bool
  | deleteItems importId => i.importId = importId
  | markItemImported itemId _ => i.id = itemId
  | markItemFailed itemId _ => i.id = itemId
  | _ => false

/-- A change has to wait for one that another transaction has made: they concern the same
row, or insert rows with the same key. -/
def waitsFor (t : OpmlTables) : OpmlWrite → OpmlWrite → Bool
  | markImportStatus u, markImportStatus v => u.importId = v.importId
  | insertFeed f, insertFeed g =>
    OpmlImports.feedConflicts f.tenantId f.url f.normalizedUrlHash g
  | insertItem i, insertItem j => i.importId = j.importId && i.input.normalizedUrlHash.isSome &&
    i.input.normalizedUrlHash = j.input.normalizedUrlHash
  | x, y => t.items.any fun i => x.touchesItem i && y.touchesItem i

end OpmlWrite

namespace OpmlWorld

/-- A change would have to wait for one of the transactions. -/
def blocked (w : OpmlWorld) (ts : List OpmlTxn) (x : OpmlWrite) : Bool :=
  ts.any fun t => t.writes.any fun y => x.waitsFor w.tables y

/-- A statement on the pool. -/
def onPool (w : OpmlWorld) (s : OpmlStatement) : Option (Except String s.Reply × OpmlWorld) :=
  match s.eval w.core.now w.sequences w.tables with
  | (reply, none) => some (reply, w)
  | (reply, some x) =>
    if w.blocked (w.opmlTxns.map Prod.snd) x then none
    else some (reply, { w.setTables (x.apply w.core.now w.tables) with
      sequences := x.advance w.sequences })

/-- A statement in the transaction of the process `pid`. -/
def onClient (w : OpmlWorld) (pid : Nat) (s : OpmlStatement) :
    Option (Except String s.Reply × OpmlWorld) :=
  match w.opmlTxn pid with
  | none => none
  | some t =>
    if t.aborted then
      some (.error
        "current transaction is aborted, commands ignored until end of transaction block",
        w)
    else match s.eval t.startedAt w.sequences (w.view t) with
      | (.error e, _) => some (.error e, w.abortOpmlTxn pid)
      | (.ok reply, none) => some (.ok reply, w)
      | (.ok reply, some x) =>
        if w.blocked (w.otherOpmlTxns pid) x then none
        else some (.ok reply, { w.setOpmlTxn pid { t with writes := t.writes ++ [x] } with
          sequences := x.advance w.sequences })

end OpmlWorld

/-! ## Calls -/

/-- Everything a program of the OPML import can ask for. -/
inductive OpmlCall
  /-- a call of the rest of the service -/
  | core (c : Call)
  /-- check out a connection -/
  | connect
  /-- `BEGIN` -/
  | begin
  /-- `COMMIT` -/
  | commit
  /-- `ROLLBACK` -/
  | rollback
  /-- return the connection -/
  | release
  /-- a statement -/
  | statement (ex : Executor) (s : OpmlStatement)
  /-- add a parse job -/
  | addParseJob (jobId : String) (data : OpmlParsePreviewJobData)
  /-- add an apply job -/
  | addApplyJob (jobId : String) (data : OpmlApplyImportJobData)

namespace OpmlCall

/-- The reply to a call. -/
abbrev Reply : OpmlCall → Type
  | core c => c.Reply
  | connect | begin | commit | rollback | release => Unit
  | statement _ s => s.Reply
  | addParseJob .. => Unit
  | addApplyJob .. => Unit

/-- What a call of the process `pid` does when nothing outside the database fails; `none` if
it has to wait. Calls of the rest of the service are answered there. -/
def serve (pid : Nat) (w : OpmlWorld) : (c : OpmlCall) → Option (Except String c.Reply × OpmlWorld)
  | core _ => none
  | connect => some (.ok (), w)
  | begin => some (.ok (),
    w.setOpmlTxn pid { aborted := false, startedAt := w.core.now, writes := [] })
  | commit => some (.ok (), w.commitOpmlTxn pid)
  | rollback => some (.ok (), w.dropOpmlTxn pid)
  | release => some (.ok (), w.dropOpmlTxn pid)
  | statement .pool s => w.onPool s
  | statement .client s => w.onClient pid s
  | addParseJob jobId data => some (.ok (), { w with parseQueue := w.parseQueue.add jobId data })
  | addApplyJob jobId data => some (.ok (), { w with applyQueue := w.applyQueue.add jobId data })

/-- The calls that cannot fail: returning a connection to the pool. -/
def infallible : OpmlCall → Bool
  | release => true
  | _ => false

/-- The call is made on the connection of the job. -/
def onConnection : OpmlCall → Bool
  | begin | commit | rollback | statement .client _ => true
  | _ => false

/-- An error on the connection of a job fails its transaction. -/
def afterError (pid : Nat) (c : OpmlCall) (w : OpmlWorld) : OpmlWorld :=
  if c.onConnection then w.abortOpmlTxn pid else w

/-- Answer a call that is not one of the rest of the service. -/
def answerOwn (pid : Nat) (w : OpmlWorld) (out : Outcome) (c : OpmlCall) :
    Option (Except String c.Reply × OpmlWorld) :=
  match out with
  | .ok _ => c.serve pid w
  | .refused error => if c.infallible then none else some (.error error, c.afterError pid w)
  | .lost _ error =>
    if c.infallible then none
    else (c.serve pid w).map fun r => (.error error, c.afterError pid r.2)

/-- Answer a call of the process `pid`. -/
def answer (pid : Nat) (w : OpmlWorld) (out : Outcome) :
    (c : OpmlCall) → Option (Except String c.Reply × OpmlWorld)
  | core c => (c.answer pid w.core out).map fun r => (r.1, { w with core := r.2 })
  | connect => answerOwn pid w out connect
  | begin => answerOwn pid w out begin
  | commit => answerOwn pid w out commit
  | rollback => answerOwn pid w out rollback
  | release => answerOwn pid w out release
  | statement ex s => answerOwn pid w out (statement ex s)
  | addParseJob jobId data => answerOwn pid w out (addParseJob jobId data)
  | addApplyJob jobId data => answerOwn pid w out (addApplyJob jobId data)

end OpmlCall

/-- A program of the OPML import. -/
abbrev OpmlProgram (α : Type) := Prog String OpmlCall OpmlCall.Reply α

/-- A program of the rest of the service. -/
def ofCore {α : Type} : Program α → OpmlProgram α
  | .ret a => .ret a
  | .throw e => .throw e
  | .call c k => .call (.core c) fun r => ofCore (k r)

end Feedpulse
