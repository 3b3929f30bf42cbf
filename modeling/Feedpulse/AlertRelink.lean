import Feedpulse.CanonicalLink
import Feedpulse.World

/-!
# Migration 0018

The statements of `0018_alerts_canonical_relink_and_index_cleanup.sql`, one after the other,
on the tables they read and write. A statement that violates a constraint aborts the
migration. The canonicaliser is a parameter.
-/

namespace Feedpulse

/-- The tables the migration reads and writes. -/
structure AlertTables where
  /-- table `entries` -/
  entries : List EntryRow
  /-- table `alerts` -/
  alerts : List AlertRow
  /-- table `telegram_digest_items` -/
  digestItems : List DigestItemRow
  deriving DecidableEq, Repr

/-- A row of `alert_dedupe_plan`. -/
structure DedupePlanRow where
  /-- the alert -/
  id : Nat
  /-- its owner -/
  tenantId : String
  /-- `COALESCE(canonical_link, 'entry:' || entry_id)` -/
  dedupeKey : String
  /-- place within the group, from the oldest on -/
  rowNum : Nat
  /-- the oldest alert of the group -/
  survivorId : Nat
  /-- the rules of the alert -/
  effectiveRules : List Nat
  deriving DecidableEq, Repr

namespace AlertRelink

open AlertUpsert

/-! ## Steps 1 and 2: recanonicalise -/

/-- Step 2 on one row. -/
def recanonicalizeRow (canonicalize : Option String → Option String) (entries : List EntryRow)
    (a : AlertRow) : AlertRow :=
  match Table.lookup EntryRow.id a.entryId entries with
  | none => a
  | some e =>
    if a.canonicalLink = canonicalize e.entry.link then a
    else { a with canonicalLink := canonicalize e.entry.link }

/-- Step 2. The indexes in its way were dropped by step 1. -/
def recanonicalize (canonicalize : Option String → Option String) (t : AlertTables) :
    AlertTables :=
  { t with alerts := t.alerts.map (recanonicalizeRow canonicalize t.entries) }

/-! ## Step 3: the plan -/

/-- `PARTITION BY tenant_id, COALESCE(canonical_link, 'entry:' || entry_id)`: the group of a
key. -/
def group (key : String × String) (alerts : List AlertRow) : List AlertRow :=
  alerts.filter fun a => alertKey a = key

/-- `ORDER BY created_at ASC, id ASC`. -/
def before (a b : AlertRow) : Bool :=
  a.createdAt < b.createdAt || (a.createdAt = b.createdAt && a.id < b.id)

/-- `ROW_NUMBER()`: one more than the rows of the group that come before. -/
def rowNum (alerts : List AlertRow) (a : AlertRow) : Nat :=
  (group (alertKey a) alerts).countP (fun b => before b a) + 1

/-- `FIRST_VALUE(id) … ORDER BY row_num`. -/
def survivorId (alerts : List AlertRow) (a : AlertRow) : Nat :=
  (((group (alertKey a) alerts).find? fun b => rowNum alerts b = 1).map AlertRow.id).getD a.id

/-- `CASE WHEN COALESCE(cardinality(matched_rules), 0) > 0 …`. -/
def effectiveRules (a : AlertRow) : List Nat :=
  if 0 < a.matchedRules.length then a.matchedRules else [a.ruleId]

/-- Step 3. -/
def dedupePlan (alerts : List AlertRow) : List DedupePlanRow :=
  alerts.map fun a =>
    { id := a.id
      tenantId := a.tenantId
      dedupeKey := (alertKey a).2
      rowNum := rowNum alerts a
      survivorId := survivorId alerts a
      effectiveRules := effectiveRules a }

/-! ## Step 4: the rules -/

/-- `array_agg(DISTINCT rule ORDER BY rule)` over the plan rows with a survivor. -/
def unionRules (plan : List DedupePlanRow) (id : Nat) : List Nat :=
  ((plan.filter fun p => p.survivorId = id).flatMap DedupePlanRow.effectiveRules).dedup
    |>.insertionSort (· ≤ ·)

/-- Step 4. -/
def foldRules (plan : List DedupePlanRow) (t : AlertTables) : AlertTables :=
  { t with
    alerts := t.alerts.map fun a =>
      if plan.any fun p => p.survivorId = a.id then
        { a with matchedRules := unionRules plan a.id }
      else a }

/-! ## Step 5: the digest items -/

/-- The survivor has an item for the chat already. -/
def hasItem (items : List DigestItemRow) (alertId : Nat) (chatId : String) : Bool :=
  items.any fun i => i.alertId = alertId && i.chatId = chatId

/-- The plan row by which an item moves. The subquery sees the table as it was before the
statement. -/
def movedBy (plan : List DedupePlanRow) (items : List DigestItemRow) (i : DigestItemRow) :
    Option DedupePlanRow :=
  plan.find? fun p => i.alertId = p.id && 1 < p.rowNum && !hasItem items p.survivorId i.chatId

/-- `UNIQUE (alert_id, chat_id)`. -/
def UniqueItems (items : List DigestItemRow) : Prop :=
  (items.map fun i => (i.alertId, i.chatId)).Nodup

instance : DecidablePred UniqueItems := fun _ => List.nodupDecidable _

/-- Step 5 on one row. -/
def moveItem (plan : List DedupePlanRow) (items : List DigestItemRow) (i : DigestItemRow) :
    DigestItemRow :=
  match movedBy plan items i with
  | none => i
  | some p => { i with alertId := p.survivorId }

/-- The items as step 5 leaves them. -/
def movedItems (plan : List DedupePlanRow) (items : List DigestItemRow) : List DigestItemRow :=
  items.map (moveItem plan items)

/-- Step 5. -/
def moveDigestItems (plan : List DedupePlanRow) (t : AlertTables) : Option AlertTables :=
  if UniqueItems (movedItems plan t.digestItems) then
    some { t with digestItems := movedItems plan t.digestItems }
  else none

/-! ## Steps 6 and 7: the duplicates -/

/-- The plan has the alert removed. -/
def removed (plan : List DedupePlanRow) (id : Nat) : Bool :=
  plan.any fun p => p.id = id && 1 < p.rowNum

/-- Step 6. The items of an alert go with it, `ON DELETE CASCADE`. -/
def deleteDuplicates (plan : List DedupePlanRow) (t : AlertTables) : AlertTables :=
  { t with
    alerts := t.alerts.filter fun a => !removed plan a.id
    digestItems := t.digestItems.filter fun i => !removed plan i.alertId }

/-- Step 7: the index cannot be created over duplicates. -/
def createUniqueIndex (t : AlertTables) : Option AlertTables :=
  if (t.alerts.map alertKey).Nodup then some t else none

/-- Steps 4 to 7, by a plan. -/
def applyPlan (plan : List DedupePlanRow) (t : AlertTables) : Option AlertTables :=
  (moveDigestItems plan (foldRules plan t)).bind fun t =>
    createUniqueIndex (deleteDuplicates plan t)

/-- The migration. -/
def migrate (canonicalize : Option String → Option String) (t : AlertTables) :
    Option AlertTables :=
  let t := recanonicalize canonicalize t
  applyPlan (dedupePlan t.alerts) t

/-! ## Admitted states -/

/-- The constraints in force before the migration on which it rests. -/
structure Admitted (t : AlertTables) : Prop where
  /-- the primary key of `alerts` -/
  alertIds : (t.alerts.map AlertRow.id).Nodup
  /-- `alerts.entry_id` refers to `entries` -/
  entryRefs : ∀ a ∈ t.alerts, ∃ e ∈ t.entries, e.id = a.entryId
  /-- `UNIQUE (alert_id, chat_id)` -/
  items : UniqueItems t.digestItems
  /-- `telegram_digest_items.alert_id` refers to `alerts` -/
  alertRefs : ∀ i ∈ t.digestItems, ∃ a ∈ t.alerts, a.id = i.alertId

/-- `idx_alerts_tenant_canonical_link_unique`, which step 1 drops. -/
def OldIndex (t : AlertTables) : Prop :=
  ((t.alerts.filter fun a => a.canonicalLink.isSome).map fun a =>
    (a.tenantId, a.canonicalLink)).Nodup

instance : DecidablePred OldIndex := fun _ => List.nodupDecidable _

/-! ## Samples -/

/-- An article of the tenant, from one of its feeds. -/
def article (id : Nat) (link : String) : EntryRow :=
  { id := id
    tenantId := "t"
    feedId := id
    entry :=
      { title := none
        link := some link
        guid := some link
        content := none
        publishedAt := none
        contentHash := link } }

/-- An alert on an article, not delivered yet. -/
def articleAlert (id ruleId : Nat) (canonicalLink : String) : AlertRow :=
  { id := id
    tenantId := "t"
    entryId := id
    ruleId := ruleId
    matchedRules := []
    canonicalLink := some canonicalLink
    sent := false
    sentAt := none
    deliveryStatus := .pending
    deliveryAttempts := 0
    lastDeliveryAttemptAt := none
    lastDeliveryError := none
    lastDeliveryQueuedAt := none
    createdAt := id
    webhookDeliveryStatus := .pending
    telegramDeliveryStatus := .pending
    emailDeliveryStatus := .pending }

/-- A digest item for an alert. -/
def alertItem (id alertId : Nat) (chatId : String) : DigestItemRow :=
  { id := id, tenantId := "t", alertId := alertId, chatId := chatId, scheduledFor := 0,
    sentAt := none, createdAt := 0 }

/-- One article in three feeds, under three spellings of its link, with an alert each. -/
def threeAlerts (digestItems : List DigestItemRow) : AlertTables :=
  { entries := [article 1 "https://h/a", article 2 "https://h/a/", article 3 "https://h/a?ref=x"]
    alerts := [articleAlert 1 7 "https://h/a", articleAlert 2 5 "https://h/a/",
      articleAlert 3 7 "https://h/a?ref=x"]
    digestItems := digestItems }

/-- The canonicaliser of the migration, on ASCII text. -/
def canonicalizeAscii : Option String → Option String :=
  CanonicalLink.feedpulseCanonicalizeArticleLink CanonicalLink.lowerAscii

end AlertRelink

end Feedpulse
