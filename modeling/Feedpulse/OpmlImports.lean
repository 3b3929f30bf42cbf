import Feedpulse.Feeds

/-!
# The tables of an OPML import

An import is a row of `opml_imports` with a status, and the items of the uploaded document
in `opml_import_items`. The status table says which changes of status are meant to happen;
the statements of `OpmlImportsRepository` write whatever they are told to.
-/

namespace Feedpulse

/-! ## The status of an import -/

/-- `OPML_IMPORT_STATUSES`. -/
inductive OpmlImportStatus
  /-- the document has been stored -/
  | uploaded
  /-- the document is being parsed -/
  | parsing
  /-- the items can be looked at and confirmed -/
  | previewReady
  /-- the tenant has confirmed the import -/
  | importing
  /-- every item was imported -/
  | completed
  /-- the document could not be parsed -/
  | failedValidation
  /-- the import failed, as a whole or in part -/
  | failed
  deriving DecidableEq, Repr

namespace OpmlImportStatus

/-- The text of a status. -/
def text : OpmlImportStatus → String
  | uploaded => "uploaded"
  | parsing => "parsing"
  | previewReady => "preview_ready"
  | importing => "importing"
  | completed => "completed"
  | failedValidation => "failed_validation"
  | failed => "failed"

/-- `VALID_OPML_IMPORT_STATUS_TRANSITIONS`. -/
def validTransitions : OpmlImportStatus → List OpmlImportStatus
  | uploaded => [parsing, failedValidation]
  | parsing => [previewReady, failedValidation]
  | previewReady => [importing, failed]
  | importing => [completed, failed]
  | completed => []
  | failedValidation => []
  | failed => []

/-- `canTransitionOpmlImportStatus`. -/
def canTransition (current next : OpmlImportStatus) : Bool :=
  current = next || (validTransitions current).contains next

@[simp] theorem canTransition_self (st : OpmlImportStatus) : canTransition st st = true := by
  simp [canTransition]

/-- The message of `assertValidOpmlImportStatusTransition`. -/
def invalidTransition (current next : OpmlImportStatus) : String :=
  "invalid_opml_import_status_transition:" ++ current.text ++ "->" ++ next.text

/-- `completed`, `failed` and `failed_validation` are final. -/
theorem eq_of_canTransition_completed {next : OpmlImportStatus}
    (h : canTransition completed next = true) : next = completed := by
  cases next <;> simp_all [canTransition, validTransitions]

end OpmlImportStatus

/-- `opml_import_items.item_status`. -/
inductive OpmlItemStatus
  /-- to be imported -/
  | new
  /-- the tenant already has the feed -/
  | existing
  /-- the document has the feed before -/
  | duplicate
  /-- the URL is not one of a feed -/
  | invalid
  /-- imported -/
  | imported
  /-- not imported -/
  | failed
  deriving DecidableEq, Repr

/-! ## Rows -/

/-- A row of `opml_imports`. -/
structure OpmlImportRow where
  /-- primary key -/
  id : Nat
  /-- owner of the import -/
  tenantId : String
  /-- status -/
  status : OpmlImportStatus
  /-- name of the uploaded file -/
  fileName : String
  /-- size of the uploaded file -/
  fileSizeBytes : Nat
  /-- checksum of the uploaded file -/
  sourceChecksum : Option String
  /-- message of the last failure -/
  errorMessage : Option String
  /-- number of items -/
  totalItems : Nat
  /-- number of items that are not invalid -/
  validItems : Nat
  /-- number of duplicates within the document -/
  duplicateItems : Nat
  /-- number of feeds the tenant already has -/
  existingItems : Nat
  /-- number of invalid items -/
  invalidItems : Nat
  /-- number of imported items -/
  importedItems : Nat
  /-- when the document was uploaded -/
  uploadedAt : Nat
  /-- when the tenant confirmed the import -/
  confirmedAt : Option Nat
  /-- when the import ended -/
  completedAt : Option Nat
  deriving DecidableEq, Repr

/-- `OpmlImportItemInput`. -/
structure OpmlImportItemInput where
  /-- title of the outline -/
  title : Option String
  /-- titles on the way to the outline -/
  outlinePath : Option String
  /-- URL as it stands in the document -/
  sourceXmlUrl : String
  /-- normal form of the URL -/
  normalizedUrl : Option String
  /-- hash of the normal form -/
  normalizedUrlHash : Option String
  /-- status -/
  itemStatus : OpmlItemStatus
  /-- why the item is invalid, a duplicate or failed -/
  validationError : Option String
  deriving DecidableEq, Repr

/-- A row of `opml_import_items`. -/
structure OpmlImportItemRow where
  /-- primary key -/
  id : Nat
  /-- owner of the import -/
  tenantId : String
  /-- the import -/
  importId : Nat
  /-- what was parsed -/
  input : OpmlImportItemInput
  /-- the feed, once the item is imported -/
  feedId : Option Nat
  deriving DecidableEq, Repr

/-! ## Statements -/

/-- The counters `markImportStatus` may be given. -/
structure OpmlCounters where
  /-- `totalItems` -/
  totalItems : Option Nat := none
  /-- `validItems` -/
  validItems : Option Nat := none
  /-- `duplicateItems` -/
  duplicateItems : Option Nat := none
  /-- `existingItems` -/
  existingItems : Option Nat := none
  /-- `invalidItems` -/
  invalidItems : Option Nat := none
  /-- `importedItems` -/
  importedItems : Option Nat := none
  deriving DecidableEq, Repr

/-- The input of `markImportStatus`. -/
structure OpmlStatusUpdate where
  /-- the import -/
  importId : Nat
  /-- the status to write -/
  status : OpmlImportStatus
  /-- the message to write, if any -/
  errorMessage : Option String := none
  /-- set `confirmed_at`, unless it is set -/
  confirmed : Bool := false
  /-- set `completed_at` -/
  completed : Bool := false
  /-- the counters to write, if any -/
  counters : OpmlCounters := {}
  deriving DecidableEq, Repr

/-- The `SET` clause of `markImportStatus`: `COALESCE` keeps what is not given. -/
def OpmlStatusUpdate.apply (now : Nat) (u : OpmlStatusUpdate) (r : OpmlImportRow) :
    OpmlImportRow :=
  { r with
    status := u.status
    errorMessage := u.errorMessage.or r.errorMessage
    totalItems := u.counters.totalItems.getD r.totalItems
    validItems := u.counters.validItems.getD r.validItems
    duplicateItems := u.counters.duplicateItems.getD r.duplicateItems
    existingItems := u.counters.existingItems.getD r.existingItems
    invalidItems := u.counters.invalidItems.getD r.invalidItems
    importedItems := u.counters.importedItems.getD r.importedItems
    confirmedAt := if u.confirmed then r.confirmedAt.or (some now) else r.confirmedAt
    completedAt := if u.completed then some now else r.completedAt }

/-- The tables an OPML transaction reads and writes. -/
structure OpmlTables where
  /-- table `feeds` -/
  feeds : List FeedRow
  /-- table `opml_imports` -/
  imports : List OpmlImportRow
  /-- table `opml_import_items` -/
  items : List OpmlImportItemRow

/-- A change to the tables. -/
inductive OpmlWrite
  /-- an import is created -/
  | insertImport (row : OpmlImportRow)
  /-- `markImportStatus` -/
  | markImportStatus (u : OpmlStatusUpdate)
  /-- `DELETE FROM opml_import_items WHERE import_id = $1` -/
  | deleteItems (importId : Nat)
  /-- an item is inserted -/
  | insertItem (row : OpmlImportItemRow)
  /-- `markItemImported` -/
  | markItemImported (itemId feedId : Nat)
  /-- `markItemFailed` -/
  | markItemFailed (itemId : Nat) (validationError : String)
  /-- a feed is created -/
  | insertFeed (row : FeedRow)

namespace OpmlImports

/-- The `SET` clause of `markItemImported`. -/
def setImported (feedId : Nat) (i : OpmlImportItemRow) : OpmlImportItemRow :=
  { i with input := { i.input with itemStatus := .imported }, feedId := some feedId }

/-- The `SET` clause of `markItemFailed`. -/
def setFailed (validationError : String) (i : OpmlImportItemRow) : OpmlImportItemRow :=
  { i with
    input := { i.input with itemStatus := .failed, validationError := some validationError } }

end OpmlImports

/-- What a change does to the tables. -/
def OpmlWrite.apply (now : Nat) : OpmlWrite → OpmlTables → OpmlTables
  | insertImport row, t => { t with imports := t.imports ++ [row] }
  | markImportStatus u, t =>
    { t with imports := Table.updateWhere (fun r => r.id = u.importId) (u.apply now) t.imports }
  | deleteItems importId, t => { t with items := t.items.filter fun i => i.importId ≠ importId }
  | insertItem row, t => { t with items := t.items ++ [row] }
  | markItemImported itemId feedId, t =>
    { t with
      items := Table.updateWhere (fun i => i.id = itemId) (OpmlImports.setImported feedId)
        t.items }
  | markItemFailed itemId validationError, t =>
    { t with
      items := Table.updateWhere (fun i => i.id = itemId) (OpmlImports.setFailed validationError)
        t.items }
  | insertFeed row, t => { t with feeds := t.feeds ++ [row] }

/-- The changes of a transaction that began at `now`, in order. -/
def OpmlTables.applyAll (now : Nat) (ws : List OpmlWrite) (t : OpmlTables) : OpmlTables :=
  ws.foldl (fun t w => w.apply now t) t

@[simp] theorem OpmlTables.applyAll_nil (now : Nat) (t : OpmlTables) : t.applyAll now [] = t :=
  rfl

theorem OpmlTables.applyAll_append (now : Nat) (ws vs : List OpmlWrite) (t : OpmlTables) :
    t.applyAll now (ws ++ vs) = (t.applyAll now ws).applyAll now vs := by
  simp [applyAll]

namespace OpmlImports

/-! ## Reading -/

/-- A row of `feeds` stands in the way of an insertion: one of the unique indexes on
`(tenant_id, url)` and `(tenant_id, normalized_url_hash)` has its key. -/
def feedConflicts (tenantId url : String) (normalizedUrlHash : Option String) (f : FeedRow) :
    Bool :=
  f.tenantId = tenantId &&
    (f.url = url || (normalizedUrlHash.isSome && f.normalizedUrlHash = normalizedUrlHash))

/-- The `WHERE` clause of `findExistingFeedsByHash`. -/
def existingFeeds (tenantId : String) (hashes urls : List String) (feeds : List FeedRow) :
    List FeedRow :=
  feeds.filter fun f => f.tenantId = tenantId &&
    (f.normalizedUrlHash.any (hashes.contains ·) || urls.contains f.url)

/-- The lookup of `upsertFeed`: by hash, else by URL. The unique indexes leave at most one
row of either kind. -/
def findFeedByHashOrUrl (tenantId normalizedHash url : String) (feeds : List FeedRow) :
    Option FeedRow :=
  (feeds.find? fun f => f.tenantId = tenantId && f.normalizedUrlHash = some normalizedHash).or
    (feeds.find? fun f => f.tenantId = tenantId && f.url = url)

/-- `listNewCandidateItems`, `ORDER BY id`. -/
def newCandidateItems (importId : Nat) (items : List OpmlImportItemRow) :
    List OpmlImportItemRow :=
  (items.filter fun i => i.importId = importId && i.input.itemStatus = .new).insertionSort
    fun i j => i.id ≤ j.id

/-- `countItemsByStatus` for one status; the statuses without items are absent from the
result of the query, and read as zero. -/
def countItems (importId : Nat) (items : List OpmlImportItemRow) (status : OpmlItemStatus) : Nat :=
  items.countP fun i => i.importId = importId && i.input.itemStatus = status

/-- The number of feeds a tenant owns. -/
def countFeeds (tenantId : String) (feeds : List FeedRow) : Nat :=
  feeds.countP fun f => f.tenantId = tenantId

/-- An item breaks a constraint of its table: the normalised URL is missing, or another item
of the import that is not a duplicate has its hash. -/
def itemRejected (importId : Nat) (input : OpmlImportItemInput) (items : List OpmlImportItemRow) :
    Bool :=
  (input.itemStatus ≠ .invalid &&
      (input.normalizedUrl.isNone || input.normalizedUrlHash.isNone)) ||
    (input.itemStatus ≠ .duplicate && input.normalizedUrlHash.isSome &&
      items.any fun i => i.importId = importId && i.input.itemStatus ≠ .duplicate &&
        i.input.normalizedUrlHash = input.normalizedUrlHash)

end OpmlImports

end Feedpulse
