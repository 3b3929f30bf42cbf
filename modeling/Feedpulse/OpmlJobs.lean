import Feedpulse.OpmlCalls

/-!
# The programs of the OPML import

`CreateOpmlImportUseCase`, `ProcessOpmlParseJobUseCase`, `ConfirmOpmlImportUseCase` and
`ProcessOpmlApplyJobUseCase`, and `RegisterFeedUseCase`, the other way in which feeds come
in. The timers of the jobs are left out: they only feed metrics.
-/

namespace Feedpulse

/-! ## Configuration and runtime -/

/-- The settings read by the OPML import and the registration of feeds. -/
structure OpmlConfig where
  /-- `OPML_UPLOAD_MAX_BYTES` -/
  opmlUploadMaxBytes : Nat
  /-- `OPML_INITIAL_JITTER_MAX_SECONDS` -/
  opmlInitialJitterMaxSeconds : Nat
  /-- `MAX_FEEDS_PER_TENANT`, zero for no limit -/
  maxFeedsPerTenant : Nat
  /-- `ALLOW_PRIVATE_FEED_HOSTS` -/
  allowPrivateFeedHosts : Bool

/-- `ParsedOpmlItem`. -/
structure ParsedOpmlItem where
  /-- title of the outline -/
  title : Option String
  /-- titles on the way to the outline -/
  outlinePath : Option String
  /-- URL as it stands in the document -/
  sourceXmlUrl : String
  deriving DecidableEq, Repr

/-- The functions the OPML programs call. -/
structure OpmlRuntime extends UrlRuntime where
  /-- `extractOpmlItems` with a limit on bytes and one on tags -/
  extractOpmlItems : String → Nat → Nat → Except String (List ParsedOpmlItem)
  /-- SHA-256 of bytes, in hexadecimal -/
  sha256HexOfBytes : List UInt8 → String
  /-- `content.toString('utf8')` -/
  decodeUtf8 : List UInt8 → String

/-! ## Issuing calls -/

/-- A statement on the pool or on the client. -/
def opmlStatement (ex : Executor) (s : OpmlStatement) : OpmlProgram s.Reply :=
  Prog.invoke (OpmlCall.statement ex s)

/-- Another call. -/
def opmlCall (c : OpmlCall) : OpmlProgram c.Reply := Prog.invoke c

/-- `try { body } finally { final }`. -/
def finallyDo {α : Type} (body : OpmlProgram α) (final : OpmlProgram Unit) : OpmlProgram α := do
  let outcome ← body.attempt
  final
  match outcome with
  | .ok a => pure a
  | .error e => throw e

theorem finallyDo_eq {α : Type} (body : OpmlProgram α) (final : OpmlProgram Unit) :
    finallyDo body final = Prog.finallyDo body final := by
  rw [finallyDo, Prog.finallyDo]
  refine congrArg (Prog.bind _) (funext fun outcome => congrArg (Prog.bind _) (funext fun _ => ?_))
  cases outcome with
  | ok a => rfl
  | error e => rfl

/-- The executions of a `try … finally`, by way of what the body leaves. -/
theorem meets_finallyDo {α S : Type} {allowed : S → OpmlCall → Prop}
    {answers : S → (c : OpmlCall) → Except String c.Reply → S → Prop} {body : OpmlProgram α}
    {final : OpmlProgram Unit} {mid post : Except String α → S → Prop} {s : S}
    (hbody : Prog.Meets allowed answers body mid s)
    (hfinal : ∀ r s', mid r s' → Prog.Meets allowed answers final
      (fun r' t => (r' = .ok () → post r t) ∧ ∀ e, r' = .error e → post (.error e) t) s') :
    Prog.Meets allowed answers (finallyDo body final) post s := by
  rw [finallyDo_eq]
  exact Prog.Meets.finallyDo hbody hfinal

namespace OpmlImportsRepository

/-- `findImportById`: an import of the tenant, or of any tenant if none is given. -/
def findImportById (importId : Nat) (tenantId : Option String) :
    OpmlProgram (Option OpmlImportRow) :=
  match tenantId with
  | none => opmlStatement .pool (.findImportByIdForWorker importId)
  | some tenantId => opmlStatement .pool (.findImportByIdForTenant importId tenantId)

/-- `getImportOrThrow`. -/
def getImportOrThrow (importId : Nat) (tenantId : Option String) : OpmlProgram OpmlImportRow := do
  match ← findImportById importId tenantId with
  | none => throw "opml_import_not_found"
  | some row => pure row

/-- `getImportOrThrowForWorker`. -/
def getImportOrThrowForWorker (importId : Nat) : OpmlProgram OpmlImportRow :=
  getImportOrThrow importId none

/-- `getImportTenantId`. -/
def getImportTenantId (importId : Nat) (ex : Executor) : OpmlProgram String := do
  match ← opmlStatement ex (.getImportTenantId importId) with
  | none => throw "opml_import_not_found"
  | some tenantId => pure tenantId

/-- `markImportStatus`. -/
def markImportStatus (u : OpmlStatusUpdate) (ex : Executor) : OpmlProgram OpmlImportRow := do
  match ← opmlStatement ex (.markImportStatus u) with
  | none => throw "opml_import_not_found"
  | some row => pure row

/-- The insertions of `replaceImportItems`. -/
def insertItems (tenantId : String) (importId : Nat) :
    List OpmlImportItemInput → OpmlProgram Unit
  | [] => pure ()
  | item :: items => do
    opmlStatement .client (.insertItem tenantId importId item)
    insertItems tenantId importId items

/-- `replaceImportItems`. -/
def replaceImportItems (importId : Nat) (items : List OpmlImportItemInput) :
    OpmlProgram Unit := do
  let tenantId ← getImportTenantId importId .client
  opmlStatement .client (.deleteItems importId)
  insertItems tenantId importId items

end OpmlImportsRepository

open OpmlImportsRepository

/-! ## Upload -/

/-- The input of `CreateOpmlImportUseCase`. -/
structure CreateOpmlImportInput where
  /-- the tenant, `'legacy'` if none is given -/
  tenantId : Option String
  /-- name of the file -/
  fileName : String
  /-- declared type of the file -/
  mimeType : String
  /-- bytes of the file -/
  content : List UInt8
  deriving DecidableEq, Repr

/-- What an upload is answered. -/
structure CreateOpmlImportResult where
  /-- the import -/
  id : Nat
  /-- its status -/
  status : OpmlImportStatus
  /-- whether the parse job was enqueued -/
  parseQueued : Bool
  deriving DecidableEq, Repr

namespace CreateOpmlImport

variable (cfg : OpmlConfig) (rt : OpmlRuntime)

/-- `ALLOWED_MIME_TYPES`. -/
def allowedMimeTypes : List String :=
  ["text/xml", "application/xml", "text/x-opml", "application/octet-stream"]

/-- `text.endsWith(suffix)`. -/
def endsWith (text suffix : String) : Bool :=
  Text.startsWith text.toList.reverse suffix.toList.reverse

/-- `validateUpload`: the message of the refusal, if any. -/
def validateUpload (input : CreateOpmlImportInput) : Option String :=
  if input.content.length = 0 then some "opml_file_required"
  else if cfg.opmlUploadMaxBytes < input.content.length then some "opml_file_too_large"
  else
    let lowerFileName := rt.toLowerCase input.fileName
    let extensionLooksValid := endsWith lowerFileName ".opml" || endsWith lowerFileName ".xml"
    let mimeLooksValid := allowedMimeTypes.contains (rt.toLowerCase input.mimeType)
    if !extensionLooksValid && !mimeLooksValid then some "opml_file_invalid_type" else none

/-- `OpmlParsePreviewQueue.enqueue`. -/
def enqueueParse (job : OpmlParsePreviewJobData) : OpmlProgram Unit :=
  opmlCall (.addParseJob (opmlParseJobId job.importId) job)

/-- `execute`. -/
def execute (input : CreateOpmlImportInput) : OpmlProgram CreateOpmlImportResult := do
  match validateUpload cfg rt input with
  | some message => throw message
  | none =>
    let created : OpmlImportRow ← opmlStatement .pool (.createImport
      { tenantId := input.tenantId.getD "legacy"
        fileName := input.fileName
        fileSizeBytes := input.content.length
        sourceChecksum := rt.sha256HexOfBytes input.content })
    enqueueParse { importId := created.id, opmlXml := rt.decodeUtf8 input.content }
    pure { id := created.id, status := created.status, parseQueued := true }

end CreateOpmlImport

/-! ## Preview -/

namespace ProcessOpmlParseJob

variable (cfg : OpmlConfig) (rt : OpmlRuntime)

/-- `MAX_OUTLINE_TAGS`. -/
def maxOutlineTags : Nat := 20000

/-- `classifyLocalItem`: valid items are new until something else is known. -/
def classifyLocalItem (item : ParsedOpmlItem) : OpmlImportItemInput :=
  match FeedUrl.normalizeFeedUrl rt.toUrlRuntime cfg.allowPrivateFeedHosts item.sourceXmlUrl with
  | .ok normalizedUrl =>
    { title := item.title
      outlinePath := item.outlinePath
      sourceXmlUrl := item.sourceXmlUrl
      normalizedUrl := some normalizedUrl
      normalizedUrlHash := some (FeedUrl.buildNormalizedFeedUrlHash rt.toUrlRuntime normalizedUrl)
      itemStatus := .new
      validationError := none }
  | .error message =>
    { title := item.title
      outlinePath := item.outlinePath
      sourceXmlUrl := item.sourceXmlUrl
      normalizedUrl := none
      normalizedUrlHash := none
      itemStatus := .invalid
      validationError := some message }

/-- The hash of an item; the empty string is falsy. -/
def hashOf (item : OpmlImportItemInput) : Option String :=
  item.normalizedUrlHash.filter fun hash => hash ≠ ""

/-- The normal form of an item; the empty string is falsy. -/
def urlOf (item : OpmlImportItemInput) : Option String :=
  item.normalizedUrl.filter fun url => url ≠ ""

/-- The `map` that finds duplicates, with the hashes seen so far. -/
def markDuplicates : List String → List OpmlImportItemInput → List OpmlImportItemInput
  | _, [] => []
  | seenHashes, item :: rest =>
    match item.itemStatus, hashOf item with
    | .new, some hash =>
      if seenHashes.contains hash then
        { item with
          itemStatus := .duplicate, validationError := some "duplicate_within_opml" } ::
            markDuplicates seenHashes rest
      else item :: markDuplicates (hash :: seenHashes) rest
    | _, _ => item :: markDuplicates seenHashes rest

/-- The items with a normal form, as their hashes and normal forms. -/
def normalizedCandidates (draftItems : List OpmlImportItemInput) : List (String × String) :=
  draftItems.filterMap fun item => (hashOf item).bind fun hash => (urlOf item).map fun url =>
    (hash, url)

/-- `map.get(hash)` on the map `findExistingFeedsByHash` builds: a later row replaces an
earlier one with the same hash. -/
def existingByHash (rows : List FeedRow) (hash : String) : Option FeedRow :=
  rows.reverse.find? fun f => f.normalizedUrlHash = some hash

/-- The second `map`: a new item whose feed the tenant has becomes an existing one. It fails
if the URL of the feed found has no normal form. -/
def classifyExisting (existing : List FeedRow) (item : OpmlImportItemInput) :
    Except String OpmlImportItemInput :=
  match item.itemStatus, hashOf item, urlOf item with
  | .new, some hash, some url =>
    match existingByHash existing hash with
    | none => .ok item
    | some feed =>
      (FeedUrl.normalizeFeedUrl rt.toUrlRuntime cfg.allowPrivateFeedHosts feed.url).map fun found =>
        if found ≠ url then
          { item with
            itemStatus := .invalid
            validationError := some "normalized_hash_collision_detected"
            normalizedUrl := none
            normalizedUrlHash := none }
        else { item with itemStatus := .existing }
  | _, _, _ => .ok item

/-- The counters of the preview. -/
def counters (items : List OpmlImportItemInput) : OpmlCounters :=
  { totalItems := some items.length
    validItems := some (items.countP fun item => item.itemStatus ≠ .invalid)
    duplicateItems := some (items.countP fun item => item.itemStatus = .duplicate)
    existingItems := some (items.countP fun item => item.itemStatus = .existing)
    invalidItems := some (items.countP fun item => item.itemStatus = .invalid) }

/-- `findExistingFeedsByHash`: no query without candidates. -/
def findExistingFeedsByHash (tenantId : String) (candidates : List (String × String)) :
    OpmlProgram (List FeedRow) :=
  if candidates.isEmpty then pure []
  else opmlStatement .client (.findExistingFeedsByHash tenantId
    (candidates.map Prod.fst).dedup (candidates.map Prod.snd).dedup)

/-- From `BEGIN` to `COMMIT`. -/
def transaction (tenantId : String) (job : OpmlParsePreviewJobData) : OpmlProgram Unit := do
  opmlCall .begin
  let _ ← markImportStatus { importId := job.importId, status := .parsing } .client
  match rt.extractOpmlItems job.opmlXml cfg.opmlUploadMaxBytes maxOutlineTags with
  | .error message => throw message
  | .ok parsedItems =>
    let draftItems := markDuplicates [] (parsedItems.map (classifyLocalItem cfg rt))
    let existing ← findExistingFeedsByHash tenantId (normalizedCandidates draftItems)
    match draftItems.mapM (classifyExisting cfg rt existing) with
    | .error message => throw message
    | .ok items =>
      replaceImportItems job.importId items
      let _ ← markImportStatus
        { importId := job.importId, status := .previewReady, counters := counters items } .client
      opmlCall .commit

/-- The `try` around the transaction. -/
def run (tenantId : String) (job : OpmlParsePreviewJobData) : OpmlProgram Unit := do
  opmlCall .connect
  finallyDo
    (tryCatch (transaction cfg rt tenantId job) fun message => do
      opmlCall .rollback
      let _ ← markImportStatus
        { importId := job.importId, status := .failedValidation, errorMessage := some message }
        .pool)
    (opmlCall .release)

/-- `execute`: only an uploaded import, or one left in parsing, is parsed. -/
def execute (job : OpmlParsePreviewJobData) : OpmlProgram Unit := do
  let current ← getImportOrThrowForWorker job.importId
  let tenantId ← getImportTenantId job.importId .pool
  if current.status ≠ .uploaded && current.status ≠ .parsing then pure ()
  else if OpmlImportStatus.canTransition current.status .parsing then run cfg rt tenantId job
  else throw (OpmlImportStatus.invalidTransition current.status .parsing)

end ProcessOpmlParseJob

/-! ## Confirmation -/

/-- What a confirmation is answered. -/
inductive ConfirmStatus
  /-- the apply job was enqueued -/
  | queued
  /-- the import had been confirmed before -/
  | alreadyConfirmed
  deriving DecidableEq, Repr

namespace ConfirmOpmlImport

/-- `OpmlApplyImportQueue.enqueue`. -/
def enqueueApply (job : OpmlApplyImportJobData) : OpmlProgram Unit :=
  opmlCall (.addApplyJob (opmlApplyJobId job.importId) job)

/-- `execute`: the id of the import, and whether it was confirmed now. -/
def execute (importId : Nat) (tenantId : String) : OpmlProgram (Nat × ConfirmStatus) := do
  let current ← getImportOrThrow importId (some tenantId)
  if current.status = .importing || current.status = .completed then
    pure (current.id, .alreadyConfirmed)
  else if current.status ≠ .previewReady then throw "opml_import_not_ready_for_confirm"
  else
    let updated ← markImportStatus
      { importId := importId, status := .importing, confirmed := true } .pool
    let now : Nat ← ofCore clock
    enqueueApply { importId := importId, requestedAt := now }
    pure (updated.id, .queued)

end ConfirmOpmlImport

/-! ## Apply -/

/-- The result of `upsertFeed`. -/
structure UpsertFeedResult where
  /-- the feed -/
  feedId : Nat
  /-- whether it was created now -/
  created : Bool
  /-- whether the feed found has another URL -/
  collision : Bool
  deriving DecidableEq, Repr

/-- What the apply loop has counted. -/
structure ApplyTally where
  /-- items imported -/
  importedItems : Nat
  /-- items failed -/
  failedItems : Nat
  /-- feeds created, in order -/
  createdFeedIds : List Nat
  deriving DecidableEq, Repr

namespace ProcessOpmlApplyJob

variable (cfg : OpmlConfig) (rt : OpmlRuntime)

/-- `upsertFeed`. -/
def upsertFeed (tenantId normalizedUrl : String) : OpmlProgram UpsertFeedResult := do
  let normalizedHash := FeedUrl.buildNormalizedFeedUrlHash rt.toUrlRuntime normalizedUrl
  let jitterSeconds : Nat ← ofCore (random (max 1 cfg.opmlInitialJitterMaxSeconds))
  let inserted : Option FeedRow ← opmlStatement .client
    (.insertFeedOrNothing tenantId normalizedUrl normalizedHash jitterSeconds)
  match inserted with
  | some row => pure { feedId := row.id, created := true, collision := false }
  | none =>
    let found : Option FeedRow ← opmlStatement .client
      (.findFeedByHashOrUrl tenantId normalizedHash normalizedUrl)
    match found with
    | none => throw "opml_feed_lookup_after_conflict_failed"
    | some existing =>
      match FeedUrl.normalizeFeedUrl rt.toUrlRuntime cfg.allowPrivateFeedHosts existing.url with
      | .error message => throw message
      | .ok existingUrl =>
        pure
          { feedId := existing.id, created := false, collision := existingUrl ≠ normalizedUrl }

/-- `markItemFailed` on the client. -/
def markItemFailed (itemId : Nat) (validationError : String) : OpmlProgram Unit :=
  opmlStatement .client (.markItemFailed itemId validationError)

/-- One round of the loop with an item that has a normalised URL: the `try` and its
`catch`. -/
def applyUrl (tenantId : String) (item : OpmlImportItemRow) (normalizedUrl : String)
    (tally : ApplyTally) : OpmlProgram ApplyTally :=
  tryCatch
    (do
      let upsert ← upsertFeed cfg rt tenantId normalizedUrl
      if upsert.collision then
        markItemFailed item.id "normalized_hash_collision_detected"
        pure { tally with failedItems := tally.failedItems + 1 }
      else
        opmlStatement .client (.markItemImported item.id upsert.feedId)
        pure
          { tally with
            importedItems := tally.importedItems + 1
            createdFeedIds :=
              if upsert.created then tally.createdFeedIds ++ [upsert.feedId]
              else tally.createdFeedIds })
    fun message => do
      markItemFailed item.id message
      pure { tally with failedItems := tally.failedItems + 1 }

/-- One round of the loop. -/
def applyItem (tenantId : String) (item : OpmlImportItemRow) (tally : ApplyTally) :
    OpmlProgram ApplyTally :=
  match item.input.normalizedUrl with
  | none => do
    markItemFailed item.id "missing_normalized_url"
    pure { tally with failedItems := tally.failedItems + 1 }
  | some normalizedUrl =>
    -- the empty string is falsy, too
    if normalizedUrl = "" then do
      markItemFailed item.id "missing_normalized_url"
      pure { tally with failedItems := tally.failedItems + 1 }
    else applyUrl cfg rt tenantId item normalizedUrl tally

/-- The loop over the candidates. -/
def applyItems (tenantId : String) :
    List OpmlImportItemRow → ApplyTally → OpmlProgram ApplyTally
  | [], tally => pure tally
  | item :: items, tally => do
    let tally ← applyItem cfg rt tenantId item tally
    applyItems tenantId items tally

/-- The final status write. -/
def finalUpdate (importId : Nat) (tally : ApplyTally) (grouped : OpmlItemStatus → Nat) :
    OpmlStatusUpdate :=
  { importId := importId
    status := if 0 < tally.failedItems then .failed else .completed
    errorMessage :=
      if 0 < tally.failedItems then
        some ("partial_import_failure:" ++ toString tally.failedItems)
      else none
    completed := true
    counters :=
      { importedItems := some tally.importedItems
        invalidItems := some (grouped .invalid)
        duplicateItems := some (grouped .duplicate)
        existingItems := some (grouped .existing)
        validItems :=
          some (grouped .new + grouped .existing + grouped .duplicate + grouped .imported)
        totalItems :=
          some (grouped .new + grouped .existing + grouped .duplicate + grouped .invalid +
            grouped .imported + grouped .failed) } }

/-- From `BEGIN` to `COMMIT`: the feeds created. -/
def transaction (tenantId : String) (importId : Nat) : OpmlProgram (List Nat) := do
  opmlCall .begin
  let candidates : List OpmlImportItemRow ← opmlStatement .client (.listNewCandidateItems importId)
  let tally ← applyItems cfg rt tenantId candidates
    { importedItems := 0, failedItems := 0, createdFeedIds := [] }
  let grouped : OpmlItemStatus → Nat ← opmlStatement .client (.countItemsByStatus importId)
  let _ ← markImportStatus (finalUpdate importId tally grouped) .client
  opmlCall .commit
  pure tally.createdFeedIds

/-- The loop after the commit. No source is given, which counts as not manual. -/
def enqueueFeeds : List Nat → OpmlProgram Unit
  | [] => pure ()
  | feedId :: feedIds => do
    let now : Nat ← ofCore clock
    let _ ← ofCore (FetchFeedQueue.enqueue
      { feedId := feedId, queuedAt := now, attempt := 0, source := .scheduler })
    enqueueFeeds feedIds

/-- The `try` around the transaction: the fetch jobs are enqueued after the commit, still
inside. -/
def run (tenantId : String) (importId : Nat) : OpmlProgram Unit := do
  opmlCall .connect
  finallyDo
    (tryCatch
      (do
        let createdFeedIds ← transaction cfg rt tenantId importId
        enqueueFeeds createdFeedIds)
      fun message => do
        opmlCall .rollback
        let _ ← markImportStatus
          { importId := importId, status := .failed, errorMessage := some message } .pool)
    (opmlCall .release)

/-- `execute`. -/
def execute (job : OpmlApplyImportJobData) : OpmlProgram Unit := do
  let current ← getImportOrThrowForWorker job.importId
  let tenantId ← getImportTenantId job.importId .pool
  if current.status = .completed then pure ()
  else if current.status = .importing then run cfg rt tenantId job.importId
  else if OpmlImportStatus.canTransition current.status .importing then
    let _ ← markImportStatus
      { importId := job.importId, status := .importing, confirmed := true } .pool
    run cfg rt tenantId job.importId
  else throw (OpmlImportStatus.invalidTransition current.status .importing)

end ProcessOpmlApplyJob

/-! ## Registration -/

/-- The input of `RegisterFeedUseCase`. -/
structure RegisterFeedInput where
  /-- the tenant -/
  tenantId : String
  /-- the URL to fetch -/
  url : String
  /-- seconds between two checks, 1800 if none are given -/
  pollIntervalSeconds : Option Nat
  /-- status, active if none is given -/
  status : Option FeedStatus
  deriving DecidableEq, Repr

namespace RegisterFeed

variable (cfg : OpmlConfig) (rt : OpmlRuntime)

/-- The message of the refusal beyond the cap. -/
def feedLimitReached (maxFeeds : Nat) : String :=
  "Feed limit reached for this tenant (" ++ toString maxFeeds ++
    " feeds). Remove feeds or raise MAX_FEEDS_PER_TENANT."

/-- `assertQuotaAvailable`. Of the page and the total `list` reads, only the total is used. -/
def assertQuotaAvailable (tenantId : String) : OpmlProgram Unit := do
  if cfg.maxFeedsPerTenant = 0 then pure ()
  else
    let total : Nat ← opmlStatement .pool (.countFeeds tenantId)
    if total < cfg.maxFeedsPerTenant then pure ()
    else throw (feedLimitReached cfg.maxFeedsPerTenant)

/-- `FeedsRepository.create`: a conflict has a message of its own. -/
def create (tenantId url : String) (pollIntervalSeconds : Nat) (status : FeedStatus) :
    OpmlProgram FeedRow :=
  tryCatch
    (opmlStatement .pool (.createFeed tenantId url
      (FeedUrl.buildNormalizedUrlHashOrNull rt.toUrlRuntime cfg.allowPrivateFeedHosts url)
      pollIntervalSeconds status))
    fun message =>
      throw (if message = OpmlImports.uniqueViolation then "feed_already_exists" else message)

/-- `execute`. -/
def execute (input : RegisterFeedInput) : OpmlProgram FeedRow := do
  if FeedUrl.isSafePublicUrlText rt.toUrlRuntime cfg.allowPrivateFeedHosts input.url then
    assertQuotaAvailable cfg input.tenantId
    create cfg rt input.tenantId input.url (input.pollIntervalSeconds.getD 1800)
      (input.status.getD .active)
  else throw "unsafe_feed_url"

end RegisterFeed

end Feedpulse
