import Feedpulse.Alerts
import Mathlib.Data.List.Sort
import Mathlib.Data.List.Dedup

/-!
# One alert per article: the upsert of a batch

`createForEntryWithRules` collapses the matched entries of a batch that share a
dedupe key, and hands the groups to one `INSERT … ON CONFLICT DO UPDATE`. This file
holds the in-memory half (`upsertRows`) and the effect of the statement on one row
(`insertRow`, `extendRow`, `upsertRow`). The canonicaliser of article links is a
parameter throughout.
-/

namespace Feedpulse

/-- What the first query reads of an entry. -/
structure EntryLink where
  /-- the entry -/
  id : Nat
  /-- its owner -/
  tenantId : String
  /-- its link -/
  link : Option String
  deriving DecidableEq, Repr

/-- `matchesByEntry`: the matching rules of every entry, in insertion order. -/
abbrev MatchesByEntry := List (Nat × List Nat)

/-- A group of entries that share a dedupe key. -/
structure PendingUpsert where
  /-- owner of the entries -/
  tenantId : String
  /-- the first entry of the group -/
  entryId : Nat
  /-- the rules collected so far, without duplicates -/
  ruleIds : List Nat
  /-- canonical form of the link, if it has one -/
  canonicalLink : Option String
  deriving DecidableEq, Repr

/-- One row of the `INSERT … SELECT FROM unnest(…)`. -/
structure UpsertRow where
  /-- `tenant_id` -/
  tenantId : String
  /-- `entry_id` -/
  entryId : Nat
  /-- `rule_id`: the smallest matched rule -/
  ruleId : Nat
  /-- `matched_rules`, sorted -/
  matchedRules : List Nat
  /-- `canonical_link` -/
  canonicalLink : Option String
  deriving DecidableEq, Repr

/-- `CreatedAlert`, as a row of the `RETURNING` clause. -/
structure UpsertedAlert where
  /-- the alert -/
  id : Nat
  /-- its article -/
  entryId : Nat
  /-- its primary rule -/
  ruleId : Nat
  /-- whether this statement inserted it (`xmax = 0`) -/
  inserted : Bool
  deriving DecidableEq, Repr

namespace AlertUpsert

/-! ## Grouping a batch -/

/-- `'entry:' || id`, the key of an article without a canonical link. -/
def entryKey (entryId : Nat) : String := "entry:" ++ toString entryId

/-- `Set.prototype.add` for every element of a list. -/
def addAll (set : List Nat) : List Nat → List Nat
  | [] => set
  | r :: rs => addAll (if r ∈ set then set else set ++ [r]) rs

/-- The entry ids with at least one matching rule. -/
def matchedEntryIds (matchesByEntry : MatchesByEntry) : List Nat :=
  (matchesByEntry.filter fun m => !m.2.isEmpty).map Prod.fst

/-- `matchesByEntry.get(id)`, the empty list standing for `undefined`. -/
def rulesOf (matchesByEntry : MatchesByEntry) (id : Nat) : List Nat :=
  ((matchesByEntry.find? fun m => m.1 = id).map Prod.snd).getD []

section Group

variable (canonicalizeArticleLink : Option String → Option String)

/-- The in-memory dedupe key: tenant, unit separator, canonical link or entry. -/
def dedupeKey (row : EntryLink) : String :=
  row.tenantId ++ "\x1f" ++ (canonicalizeArticleLink row.link).getD (entryKey row.id)

/-- Add the rules of an entry to the group with its key, or open a new group. -/
def addToGroups (row : EntryLink) (ruleIds : List Nat) :
    List (String × PendingUpsert) → List (String × PendingUpsert)
  | [] =>
    [(dedupeKey canonicalizeArticleLink row,
      { tenantId := row.tenantId
        entryId := row.id
        ruleIds := addAll [] ruleIds
        canonicalLink := canonicalizeArticleLink row.link })]
  | (key, pending) :: rest =>
    if key = dedupeKey canonicalizeArticleLink row then
      (key, { pending with ruleIds := addAll pending.ruleIds ruleIds }) :: rest
    else (key, pending) :: addToGroups row ruleIds rest

/-- The loop over the entries: entries without matching rules are skipped. -/
def groupRows (matchesByEntry : MatchesByEntry) :
    List (String × PendingUpsert) → List EntryLink → List (String × PendingUpsert)
  | upserts, [] => upserts
  | upserts, row :: rows =>
    if (rulesOf matchesByEntry row.id).isEmpty then groupRows matchesByEntry upserts rows
    else groupRows matchesByEntry
      (addToGroups canonicalizeArticleLink row (rulesOf matchesByEntry row.id) upserts) rows

/-- The row of the statement for one group; a group without rules has none. -/
def toUpsertRow (pending : PendingUpsert) : Option UpsertRow :=
  match pending.ruleIds.insertionSort (· ≤ ·) with
  | [] => none
  | primaryRuleId :: rest => some
    { tenantId := pending.tenantId
      entryId := pending.entryId
      ruleId := primaryRuleId
      matchedRules := primaryRuleId :: rest
      canonicalLink := pending.canonicalLink }

/-- The rows of the upsert statement for a batch. -/
def upsertRows (matchesByEntry : MatchesByEntry) (rows : List EntryLink) : List UpsertRow :=
  (groupRows canonicalizeArticleLink matchesByEntry [] rows).filterMap fun g => toUpsertRow g.2

end Group

/-! ## The statement on one row -/

/-- The expression of the unique index: the tenant and
`COALESCE(canonical_link, 'entry:' || entry_id)`. -/
def indexKey (tenantId : String) (canonicalLink : Option String) (entryId : Nat) :
    String × String :=
  (tenantId, canonicalLink.getD (entryKey entryId))

/-- The index key of a stored alert. -/
def alertKey (a : AlertRow) : String × String :=
  indexKey a.tenantId a.canonicalLink a.entryId

/-- The index key of a row of the statement. -/
def rowKey (u : UpsertRow) : String × String :=
  indexKey u.tenantId u.canonicalLink u.entryId

/-- `ARRAY(SELECT DISTINCT unnest(a || b) ORDER BY 1)`. -/
def mergeRules (a b : List Nat) : List Nat :=
  (a ++ b).dedup.insertionSort (· ≤ ·)

/-- The alert a statement inserts, with the defaults of the table. -/
def insertRow (now id : Nat) (u : UpsertRow) : AlertRow :=
  { id := id
    tenantId := u.tenantId
    entryId := u.entryId
    ruleId := u.ruleId
    matchedRules := u.matchedRules
    canonicalLink := u.canonicalLink
    sent := false
    sentAt := none
    deliveryStatus := .pending
    deliveryAttempts := 0
    lastDeliveryAttemptAt := none
    lastDeliveryError := none
    lastDeliveryQueuedAt := none
    createdAt := now
    webhookDeliveryStatus := .pending
    telegramDeliveryStatus := .pending
    emailDeliveryStatus := .pending }

/-- `DO UPDATE SET matched_rules = …`. -/
def extendRow (a : AlertRow) (u : UpsertRow) : AlertRow :=
  { a with matchedRules := mergeRules a.matchedRules u.matchedRules }

/-- The row a statement leaves under the key of `u`, given the row it finds there,
and whether it inserted it. -/
def upsertRow (now nextId : Nat) (found : Option AlertRow) (u : UpsertRow) : AlertRow × Bool :=
  match found with
  | none => (insertRow now nextId u, true)
  | some a => (extendRow a u, false)

@[simp] theorem alertKey_insertRow (now id : Nat) (u : UpsertRow) :
    alertKey (insertRow now id u) = rowKey u := rfl

@[simp] theorem alertKey_extendRow (a : AlertRow) (u : UpsertRow) :
    alertKey (extendRow a u) = alertKey a := rfl

theorem mem_mergeRules {a b : List Nat} {r : Nat} : r ∈ mergeRules a b ↔ r ∈ a ∨ r ∈ b := by
  simp [mergeRules, List.mem_insertionSort, List.mem_dedup]

theorem nodup_mergeRules (a b : List Nat) : (mergeRules a b).Nodup :=
  ((List.perm_insertionSort _ _).nodup_iff).mpr (List.nodup_dedup _)

theorem sorted_mergeRules (a b : List Nat) : (mergeRules a b).Pairwise (· ≤ ·) :=
  List.pairwise_insertionSort _ _

end AlertUpsert

end Feedpulse
