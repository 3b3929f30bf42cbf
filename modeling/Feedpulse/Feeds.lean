import Feedpulse.Table
import Feedpulse.Text
import Mathlib.Data.List.Sort

/-!
# The feeds table

The statements of `FeedsRepository`, each as a function on the rows of the table:
the scheduler's claim and its compensation, the tenant's update, and the report
of a finished fetch. Instants are milliseconds.
-/

namespace Feedpulse

/-! ## Rows -/

/-- `feeds.status`. -/
inductive FeedStatus
  /-- fetched on schedule -/
  | active
  /-- not fetched, unless it was paused automatically -/
  | paused
  /-- the last fetch failed; fetched on schedule -/
  | error
  deriving DecidableEq, Repr

/-- A row of `feeds`. -/
structure FeedRow where
  /-- primary key -/
  id : Nat
  /-- owner of the feed -/
  tenantId : String
  /-- where the feed is fetched from -/
  url : String
  /-- scheduling status -/
  status : FeedStatus
  /-- `ETag` of the last response -/
  etag : Option String
  /-- `Last-Modified` of the last response -/
  lastModified : Option String
  /-- when the last fetch reported back -/
  lastCheckedAt : Option Nat
  /-- when the feed is due -/
  nextCheckAt : Nat
  /-- seconds between two checks -/
  pollIntervalSeconds : Nat
  /-- consecutive failures -/
  errorCount : Nat
  /-- message of the last failure -/
  lastError : Option String
  /-- duration of the last fetch -/
  avgResponseMs : Option Nat
  /-- set while the scheduler holds a claim -/
  claimedAt : Option Nat
  /-- last modification -/
  updatedAt : Nat
  /-- hash of the normalised URL, unless the URL has no normal form -/
  normalizedUrlHash : Option String := none
  deriving DecidableEq, Repr

namespace Feeds

/-- `AUTO_PAUSED_ERROR_PREFIX`, the prefix `AUTO_PAUSED_ERROR_PATTERN` matches. -/
def autoPausedErrorPrefix : String := "auto-paused:"

/-- `last_error LIKE 'auto-paused:%'`; `NULL LIKE …` is not true. -/
def isAutoPausedError : Option String → Bool
  | none => false
  | some e => Text.hasPrefix e autoPausedErrorPrefix

/-- `CLAIM_PRIORITY_BY_STATUS`. -/
def claimPriorityByStatus : FeedStatus → Nat
  | .active => 0
  | .error => 1
  | .paused => 2

/-- `MAX_CLAIM_JITTER_SECONDS`. -/
def maxClaimJitterSeconds : Nat := 300

/-- The largest jitter in seconds the claim may add: `RANDOM()` times
`LEAST(300, poll_interval_seconds * 0.2)`, rounded to the nearest integer. -/
def maxClaimJitter (pollIntervalSeconds : Nat) : Nat :=
  min maxClaimJitterSeconds ((2 * pollIntervalSeconds + 5) / 10)

/-! ## Claims -/

/-- The `WHERE` clause of the claim: due, unclaimed, and active, in error or paused
automatically. -/
def claimable (now : Nat) (f : FeedRow) : Bool :=
  f.nextCheckAt ≤ now && f.claimedAt.isNone &&
    (f.status = .active || f.status = .error ||
      (f.status = .paused && isAutoPausedError f.lastError))

/-- The `ORDER BY` of the claim: priority of the status, then how long overdue. -/
def claimLe (f g : FeedRow) : Bool :=
  claimPriorityByStatus f.status < claimPriorityByStatus g.status ||
    (claimPriorityByStatus f.status = claimPriorityByStatus g.status &&
      f.nextCheckAt ≤ g.nextCheckAt)

/-- The rows `FOR UPDATE SKIP LOCKED` can choose from, when other transactions hold
locks on the rows in `skipped`. -/
def claimCandidates (now : Nat) (skipped : List Nat) (feeds : List FeedRow) : List FeedRow :=
  feeds.filter fun f => claimable now f && f.id ∉ skipped

/-- What the claim writes into a chosen row, with the jitter drawn for it. -/
def claim (now jitter : Nat) (f : FeedRow) : FeedRow :=
  { f with
    nextCheckAt := now + (f.pollIntervalSeconds + jitter) * 1000
    claimedAt := some now
    updatedAt := now }

/-- The in-memory order of the claimed rows. -/
def claimedLe (f g : FeedRow) : Prop :=
  claimPriorityByStatus f.status < claimPriorityByStatus g.status ∨
    (claimPriorityByStatus f.status = claimPriorityByStatus g.status ∧ f.id ≤ g.id)

instance : DecidableRel claimedLe := fun _ _ => inferInstanceAs (Decidable (_ ∨ _))

/-- The jitter drawn for a row. -/
def jitterOf (jitters : List (Nat × Nat)) (id : Nat) : Nat :=
  ((jitters.find? fun p => p.1 = id).map Prod.snd).getD 0

/-- `claimDueFeeds`: one statement selects and claims. The database decides which
rows are locked elsewhere, how ties are broken (`picks`) and the jitters. The result
is the claimed rows in scheduling order, and the new table. -/
def claimDueFeeds (now limit : Nat) (skipped : List Nat) (picks : List FeedRow)
    (jitters : List (Nat × Nat)) (feeds : List FeedRow) :
    Option (List FeedRow × List FeedRow) :=
  if Table.IsTop claimLe limit (claimCandidates now skipped feeds) picks ∧
      ∀ f ∈ picks, jitterOf jitters f.id ≤ maxClaimJitter f.pollIntervalSeconds then
    let ids := picks.map FeedRow.id
    let feeds' := Table.updateWhere (fun f => f.id ∈ ids)
      (fun f => claim now (jitterOf jitters f.id) f) feeds
    some ((feeds'.filter fun f => f.id ∈ ids).insertionSort claimedLe, feeds')
  else none

/-- The `WHERE` clause of `releaseStuckFeeds`. -/
def stuck (now staleThresholdSeconds : Nat) (f : FeedRow) : Bool :=
  match f.claimedAt with
  | none => false
  | some at_ => at_ + staleThresholdSeconds * 1000 < now

/-- `releaseStuckFeeds`: drop claims older than the threshold and make the feeds due. -/
def releaseStuckFeeds (now staleThresholdSeconds : Nat) (feeds : List FeedRow) :
    Nat × List FeedRow :=
  (feeds.countP (stuck now staleThresholdSeconds),
    Table.updateWhere (stuck now staleThresholdSeconds)
      (fun f => { f with claimedAt := none, nextCheckAt := now, updatedAt := now }) feeds)

/-! ## Lookups -/

/-- `findByIdForWorker`. -/
def findByIdForWorker (id : Nat) (feeds : List FeedRow) : Option FeedRow :=
  Table.lookup FeedRow.id id feeds

/-- `findByIdForTenant`. -/
def findByIdForTenant (id : Nat) (tenantId : String) (feeds : List FeedRow) : Option FeedRow :=
  feeds.find? fun f => f.id = id && f.tenantId = tenantId

/-- `isClaimed` for a caller with a tenant. -/
def isClaimed (id : Nat) (tenantId : String) (feeds : List FeedRow) : Bool :=
  feeds.any fun f => f.id = id && f.claimedAt.isSome && f.tenantId = tenantId

/-! ## Updates -/

/-- The columns the tenant's `update` statement writes. -/
structure FeedUpdate where
  /-- the feed -/
  id : Nat
  /-- the tenant the statement is scoped to -/
  tenantId : String
  /-- the new status -/
  status : FeedStatus
  /-- the new poll interval -/
  pollIntervalSeconds : Nat
  /-- when the feed is due -/
  nextCheckAt : Nat
  deriving DecidableEq, Repr

/-- The `UPDATE` of `update`. -/
def applyUpdate (now : Nat) (u : FeedUpdate) (feeds : List FeedRow) : List FeedRow :=
  Table.updateWhere (fun f => f.id = u.id && f.tenantId = u.tenantId)
    (fun f => { f with
      status := u.status
      pollIntervalSeconds := u.pollIntervalSeconds
      nextCheckAt := u.nextCheckAt
      updatedAt := now }) feeds

/-- What `updateAfterFetch` is told. -/
structure AfterFetch where
  /-- the feed -/
  feedId : Nat
  /-- the new `ETag`, if the response carried one -/
  etag : Option String
  /-- the new `Last-Modified`, if the response carried one -/
  lastModified : Option String
  /-- the new status -/
  status : FeedStatus
  /-- the new error count -/
  errorCount : Nat
  /-- the new error message -/
  lastError : Option String
  /-- the duration of the fetch, if it was measured -/
  avgResponseMs : Option Nat
  /-- when the feed is due -/
  nextCheckAt : Nat
  deriving DecidableEq, Repr

/-- The assignments of `updateAfterFetch`: validators and duration are kept when not
supplied, the claim is released. -/
def AfterFetch.apply (now : Nat) (u : AfterFetch) (f : FeedRow) : FeedRow :=
  { f with
    etag := u.etag.or f.etag
    lastModified := u.lastModified.or f.lastModified
    status := u.status
    errorCount := u.errorCount
    lastError := u.lastError
    avgResponseMs := u.avgResponseMs.or f.avgResponseMs
    lastCheckedAt := some now
    nextCheckAt := u.nextCheckAt
    claimedAt := none
    updatedAt := now }

/-- `updateAfterFetch`. -/
def updateAfterFetch (now : Nat) (u : AfterFetch) (feeds : List FeedRow) : List FeedRow :=
  Table.updateWhere (fun f => f.id = u.feedId) (u.apply now) feeds

@[simp] theorem claim_id (now jitter : Nat) (f : FeedRow) : (claim now jitter f).id = f.id := rfl

@[simp] theorem claim_status (now jitter : Nat) (f : FeedRow) :
    (claim now jitter f).status = f.status := rfl

@[simp] theorem claim_lastError (now jitter : Nat) (f : FeedRow) :
    (claim now jitter f).lastError = f.lastError := rfl

@[simp] theorem apply_id (now : Nat) (u : AfterFetch) (f : FeedRow) :
    (u.apply now f).id = f.id := rfl

/-- A row that is paused, and not automatically, is not claimed. -/
theorem not_claimable_of_paused {now : Nat} {f : FeedRow} (hs : f.status = .paused)
    (he : isAutoPausedError f.lastError = false) : claimable now f = false := by
  simp [claimable, hs, he]

/-- The rows a claim returns are claimed versions of claimable rows, and the table
changes only there. -/
theorem claimDueFeeds_eq_some {now limit : Nat} {skipped : List Nat} {picks : List FeedRow}
    {jitters : List (Nat × Nat)} {feeds claimed feeds' : List FeedRow}
    (h : claimDueFeeds now limit skipped picks jitters feeds = some (claimed, feeds')) :
    (∀ f ∈ picks, f ∈ feeds ∧ claimable now f = true) ∧
      feeds' = Table.updateWhere (fun f => f.id ∈ picks.map FeedRow.id)
        (fun f => claim now (jitterOf jitters f.id) f) feeds ∧
      ∀ f, f ∈ claimed ↔ f ∈ feeds' ∧ f.id ∈ picks.map FeedRow.id := by
  unfold claimDueFeeds at h
  split at h
  · rename_i hok
    simp only [Option.some.injEq, Prod.mk.injEq] at h
    obtain ⟨rfl, rfl⟩ := h
    refine ⟨fun f hf => ?_, rfl, fun f => ?_⟩
    · have := hok.1.2.1 f hf
      simp only [claimCandidates, List.mem_filter, Bool.and_eq_true] at this
      exact ⟨this.1, this.2.1⟩
    · simp [List.mem_insertionSort, List.mem_filter]
  · cases h

/-- The rows a claim picks are an answer to its `ORDER BY … LIMIT`, and it returns them
sorted in memory. -/
theorem claimDueFeeds_isTop {now limit : Nat} {skipped : List Nat} {picks : List FeedRow}
    {jitters : List (Nat × Nat)} {feeds claimed feeds' : List FeedRow}
    (h : claimDueFeeds now limit skipped picks jitters feeds = some (claimed, feeds')) :
    Table.IsTop claimLe limit (claimCandidates now skipped feeds) picks ∧
      claimed = (feeds'.filter fun f => f.id ∈ picks.map FeedRow.id).insertionSort claimedLe := by
  unfold claimDueFeeds at h
  split at h
  · rename_i hok
    simp only [Option.some.injEq, Prod.mk.injEq] at h
    obtain ⟨rfl, rfl⟩ := h
    exact ⟨hok.1, rfl⟩
  · cases h

theorem mem_claimCandidates {now : Nat} {skipped : List Nat} {feeds : List FeedRow}
    {f : FeedRow} :
    f ∈ claimCandidates now skipped feeds ↔
      f ∈ feeds ∧ claimable now f = true ∧ f.id ∉ skipped := by
  simp [claimCandidates]

/-- The `WHERE` clause of the claim, spelled out. -/
theorem claimable_iff {now : Nat} {f : FeedRow} :
    claimable now f = true ↔ f.nextCheckAt ≤ now ∧ f.claimedAt = none ∧
      (f.status = .active ∨ f.status = .error ∨
        (f.status = .paused ∧ isAutoPausedError f.lastError = true)) := by
  simp [claimable, and_assoc, or_assoc]

instance : Std.Total claimedLe where
  total f g := by
    unfold claimedLe
    omega

instance : IsTrans FeedRow claimedLe where
  trans f g h hfg hgh := by
    unfold claimedLe at *
    omega

end Feeds

end Feedpulse
