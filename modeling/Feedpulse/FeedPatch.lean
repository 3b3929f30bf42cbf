import Feedpulse.Repositories
import Feedpulse.WriteBack

/-!
# Patches of a feed

`FeedsRepository.update` reads the row, fills in what the caller left out and writes three columns
back, and the scheduler and the reports of the fetches write to the row in between.
`patch_frames_iff` says exactly when a patch leaves a column alone that it was not asked to change,
and `auto_pause_undone` is a change of the interval that undoes a pause.

The database keeps instants to the microsecond, and the application sees milliseconds of them.
-/

namespace Feedpulse

open Feeds

namespace FeedPatch

/-! ## The stored row -/

/-- An instant of the database. -/
structure Instant where
  /-- whole milliseconds -/
  millis : Nat
  /-- microseconds beyond them -/
  micros : Fin 1000
  deriving DecidableEq, Repr

/-- The instant in microseconds. -/
def Instant.toMicros (t : Instant) : Nat := t.millis * 1000 + t.micros

/-- A stored row of `feeds`, with the microseconds the application does not see. -/
structure StoredFeed where
  /-- the row the application sees -/
  row : FeedRow
  /-- microseconds of `next_check_at` -/
  nextCheckMicros : Fin 1000
  /-- microseconds of `claimed_at` -/
  claimedMicros : Fin 1000
  deriving DecidableEq, Repr

/-- `next_check_at`. -/
def StoredFeed.nextCheckAt (f : StoredFeed) : Instant where
  millis := f.row.nextCheckAt
  micros := f.nextCheckMicros

/-- `claimed_at`. -/
def StoredFeed.claimedAt (f : StoredFeed) : Option Instant :=
  f.row.claimedAt.map fun millis => { millis := millis, micros := f.claimedMicros }

/-! ## The other writers -/

/-- The statements that write to the row besides a patch. -/
inductive Writer
  /-- `claimDueFeeds` chooses the row at an instant and draws a jitter for it -/
  | claimDueFeeds (now : Instant) (jitter : Nat)
  /-- `releaseStuckFeeds` at an instant -/
  | releaseStuckFeeds (now : Instant) (staleThresholdSeconds : Nat)
  /-- `updateAfterFetch` at an instant -/
  | updateAfterFetch (now : Instant) (u : AfterFetch)

/-- What the statement makes of the row, if its `WHERE` clause holds of it. -/
def Writer.write : Writer → StoredFeed → Option StoredFeed
  | .claimDueFeeds now jitter, f =>
    if f.nextCheckAt.toMicros ≤ now.toMicros ∧
        claimable now.millis f.row = true ∧
        jitter ≤ maxClaimJitter f.row.pollIntervalSeconds then
      some
        { row := claim now.millis jitter f.row
          nextCheckMicros := now.micros
          claimedMicros := now.micros }
    else none
  | .releaseStuckFeeds now staleThresholdSeconds, f =>
    if f.claimedAt.any fun claimed =>
        claimed.toMicros + staleThresholdSeconds * 1000000 < now.toMicros then
      some
        { row :=
            { f.row with
              claimedAt := none
              nextCheckAt := now.millis
              updatedAt := now.millis }
          nextCheckMicros := now.micros
          claimedMicros := f.claimedMicros }
    else none
  | .updateAfterFetch now u, f =>
    if u.feedId = f.row.id then
      some { f with row := u.apply now.millis f.row, nextCheckMicros := 0 }
    else none

/-! ## Patches -/

/-- What a caller of `update` supplies. -/
structure Patch where
  /-- the new status -/
  status : Option FeedStatus
  /-- the new interval -/
  pollIntervalSeconds : Option Nat
  deriving DecidableEq, Repr

variable (p : Patch) (current : FeedRow)

/-- The columns `update` writes, made of the row it has read and the clock of the process. -/
def Patch.update (clock : Nat) : FeedUpdate :=
  let status := p.status.getD current.status
  let pollIntervalSeconds := p.pollIntervalSeconds.getD current.pollIntervalSeconds
  { id := current.id
    tenantId := current.tenantId
    status := status
    pollIntervalSeconds := pollIntervalSeconds
    nextCheckAt :=
      FeedsRepository.nextCheckAfterUpdate current status pollIntervalSeconds clock }

/-- The patch re-activates the feed it has read. -/
def Patch.Reactivates : Prop := p.status = some .active ∧ current.status ≠ .active

/-- The patch changes the interval it has read. -/
def Patch.ChangesInterval : Prop :=
  ∃ seconds, p.pollIntervalSeconds = some seconds ∧ seconds ≠ current.pollIntervalSeconds

/-- The statement of `update` on the row: instants are written in whole milliseconds. -/
def written (u : FeedUpdate) (now : Instant) (f : StoredFeed) : StoredFeed :=
  { f with
    row :=
      { f.row with
        status := u.status
        pollIntervalSeconds := u.pollIntervalSeconds
        nextCheckAt := u.nextCheckAt
        updatedAt := now.millis }
    nextCheckMicros := 0 }

/-- Patches read a feed and write it back, while the other statements write to it. A patch is
written at an instant of the database, with the clock its process has read before. -/
abbrev patching : WriteBack where
  Stored := StoredFeed
  Request := Patch
  View := FeedRow
  Moment := Nat × Instant
  Other := Writer
  view _ f := f.row
  back p current moment f := written (p.update current moment.1) moment.2 f
  other := Writer.write

/-- `update` reads the row of the tenant and writes what the patch makes of it. -/
theorem update_eq (tenantId : String) (id : Nat) :
    FeedsRepository.update tenantId id p.status p.pollIntervalSeconds
      = FeedsRepository.findByIdForTenant id tenantId >>= fun found =>
          found.elim (pure none) fun current => clock >>= fun now =>
            feedCall (.update { p.update current now with id := id, tenantId := tenantId }) := by
  refine congrArg _ (funext fun found => ?_)
  cases found with
  | none => rfl
  | some current => rfl

/-- The statement of `update` on a table that holds the row. -/
theorem applyUpdate_singleton {u : FeedUpdate} {now : Instant} {f : StoredFeed}
    (hid : f.row.id = u.id) (htenant : f.row.tenantId = u.tenantId) :
    applyUpdate now.millis u [f.row] = [(written u now f).row] := by
  simp [applyUpdate, Table.updateWhere, written, hid, htenant]

/-! ## Frames -/

variable {p current}

/-- A patch that neither re-activates nor changes the interval writes the due time it has read. -/
theorem nextCheckAt_update (hactive : ¬p.Reactivates current)
    (hinterval : ¬p.ChangesInterval current) (clock : Nat) :
    (p.update current clock).nextCheckAt = current.nextCheckAt := by
  change FeedsRepository.nextCheckAfterUpdate current (p.status.getD current.status)
    (p.pollIntervalSeconds.getD current.pollIntervalSeconds) clock = _
  have hsame : p.pollIntervalSeconds.getD current.pollIntervalSeconds
      = current.pollIntervalSeconds := by
    rcases hseconds : p.pollIntervalSeconds with _ | seconds
    · rfl
    · by_contra hne
      exact hinterval ⟨seconds, hseconds, hne⟩
  have hnot : ¬(p.status.getD current.status = .active ∧ current.status ≠ .active) := by
    rintro ⟨hstatus, hcurrent⟩
    rcases hsupplied : p.status with _ | status
    · rw [hsupplied] at hstatus
      exact hcurrent hstatus
    · rw [hsupplied] at hstatus
      exact hactive ⟨hsupplied.trans (congrArg some hstatus), hcurrent⟩
  rw [FeedsRepository.nextCheckAfterUpdate, if_neg (by simpa using hnot), hsame,
    if_neg (by simp)]

/-- The columns the patch was not asked to change are the same in both rows. The patch has seen
`current`. -/
structure Patch.Frames (p : Patch) (current : FeedRow) (f f' : StoredFeed) : Prop where
  /-- the status, if none was supplied -/
  status : p.status = none → f'.row.status = f.row.status
  /-- the interval, if none was supplied -/
  pollIntervalSeconds : p.pollIntervalSeconds = none →
    f'.row.pollIntervalSeconds = f.row.pollIntervalSeconds
  /-- the due time, if neither a re-activation nor a change of the interval was asked for -/
  nextCheckAt : ¬p.Reactivates current → ¬p.ChangesInterval current →
    f'.nextCheckAt = f.nextCheckAt

/-- The columns the patch was not asked to change have kept the values of the row that was read,
and the due time is a whole number of milliseconds. -/
structure Patch.Undisturbed (p : Patch) (f f' : StoredFeed) : Prop where
  /-- nobody has changed the status -/
  status : p.status = none → f'.row.status = f.row.status
  /-- nobody has changed the interval -/
  pollIntervalSeconds : p.pollIntervalSeconds = none →
    f'.row.pollIntervalSeconds = f.row.pollIntervalSeconds
  /-- nobody has moved the due time -/
  nextCheckAt : ¬p.Reactivates f.row → ¬p.ChangesInterval f.row →
    f'.row.nextCheckAt = f.row.nextCheckAt ∧ f'.nextCheckMicros = 0

/-- The instant that is written back is the stored one exactly if they agree on the milliseconds
and there are no microseconds. -/
theorem nextCheckAt_written {u : FeedUpdate} {now : Instant} {f : StoredFeed} :
    (written u now f).nextCheckAt = f.nextCheckAt ↔
      f.row.nextCheckAt = u.nextCheckAt ∧ f.nextCheckMicros = 0 := by
  simp only [StoredFeed.nextCheckAt, written, Instant.mk.injEq]
  exact and_congr eq_comm eq_comm

/-- One write: the row that was read is `f`, and `f'` is the one before the write. -/
theorem frames_written_iff {f f' : StoredFeed} {clock : Nat} {now : Instant} :
    p.Frames f.row f' (written (p.update f.row clock) now f') ↔ p.Undisturbed f f' := by
  have hstatus : p.status = none →
      (written (p.update f.row clock) now f').row.status = f.row.status := by
    intro hnone
    change p.status.getD f.row.status = f.row.status
    rw [hnone, Option.getD_none]
  have hinterval : p.pollIntervalSeconds = none →
      (written (p.update f.row clock) now f').row.pollIntervalSeconds
        = f.row.pollIntervalSeconds := by
    intro hnone
    change p.pollIntervalSeconds.getD f.row.pollIntervalSeconds = f.row.pollIntervalSeconds
    rw [hnone, Option.getD_none]
  have hdue : ¬p.Reactivates f.row → ¬p.ChangesInterval f.row →
      ((written (p.update f.row clock) now f').nextCheckAt = f'.nextCheckAt ↔
        f'.row.nextCheckAt = f.row.nextCheckAt ∧ f'.nextCheckMicros = 0) := by
    intro hactive hchange
    rw [nextCheckAt_written, nextCheckAt_update hactive hchange]
  constructor
  · intro h
    refine ⟨fun hnone => ?_, fun hnone => ?_, fun hactive hchange => ?_⟩
    · rw [← h.status hnone, hstatus hnone]
    · rw [← h.pollIntervalSeconds hnone, hinterval hnone]
    · exact (hdue hactive hchange).mp (h.nextCheckAt hactive hchange)
  · intro h
    refine ⟨fun hnone => ?_, fun hnone => ?_, fun hactive hchange => ?_⟩
    · rw [hstatus hnone, h.status hnone]
    · rw [hinterval hnone, h.pollIntervalSeconds hnone]
    · exact (hdue hactive hchange).mpr (h.nextCheckAt hactive hchange)

variable {s₁ s₁' s₂ s₃ : WriteBack.State patching} {call : Nat}
  {between : List (WriteBack.Action patching)} {moment : Nat × Instant}

/-- **A patch leaves alone what it was not asked to change**, in every run of patches, claims,
releases and reports, exactly if these columns have after the read kept their values and the due
time is a whole number of milliseconds. -/
theorem patch_frames_iff (hread : WriteBack.step patching s₁ (.read call p) = some s₁')
    (hrun : Transition.run (WriteBack.step patching) s₁' between = some s₂)
    (hbetween : ∀ moment, .write call moment ∉ between)
    (hwrite : WriteBack.step patching s₂ (.write call moment) = some s₃) :
    p.Frames s₁.stored.row s₂.stored s₃.stored ↔ p.Undisturbed s₁.stored s₂.stored := by
  rw [WriteBack.stored_of_run hread hrun hbetween hwrite]
  exact frames_written_iff

/-! ## Runs -/

/-- A feed that has failed and is being fetched. -/
def fetched : StoredFeed where
  row :=
    { id := 1
      tenantId := "t"
      url := "https://a.example/rss"
      status := .error
      etag := none
      lastModified := none
      lastCheckedAt := none
      nextCheckAt := 900000
      pollIntervalSeconds := 900
      errorCount := 9
      lastError := none
      avgResponseMs := none
      claimedAt := some 0
      updatedAt := 0 }
  nextCheckMicros := 0
  claimedMicros := 0

/-- The fetch reports that the feed is to be paused. -/
def pausingReport : AfterFetch where
  feedId := 1
  etag := none
  lastModified := none
  status := .paused
  errorCount := 10
  lastError := some "auto-paused: gone"
  avgResponseMs := none
  nextCheckAt := 86400000

/-- Nobody has read anything yet. -/
def start : WriteBack.State patching where
  stored := fetched
  pending _ := none

/-- A change of the interval. -/
def slower : Patch where
  status := none
  pollIntervalSeconds := some 1800

/-- Nothing happens between read and write: a change of the interval keeps the status. -/
theorem patch_frames_iff_undisturbed : ∃ s₁ s₂ : WriteBack.State patching,
    WriteBack.step patching start (.read 1 slower) = some s₁ ∧
      WriteBack.step patching s₁ (.write 1 (5, { millis := 7, micros := 0 })) = some s₂ ∧
      slower.Frames start.stored.row s₁.stored s₂.stored := by
  obtain ⟨s₁, hread, hstored, hpending⟩ : ∃ s₁ : WriteBack.State patching,
      WriteBack.step patching start (.read 1 slower) = some s₁ ∧ s₁.stored = fetched ∧
        s₁.pending 1 = some (slower, fetched.row) := ⟨_, rfl, rfl, rfl⟩
  obtain ⟨s₂, hwrite⟩ : ∃ s₂, WriteBack.step patching s₁
      (.write 1 (5, { millis := 7, micros := 0 })) = some s₂ := by
    rw [WriteBack.step, hpending]
    exact ⟨_, rfl⟩
  refine ⟨s₁, s₂, hread, hwrite,
    (patch_frames_iff hread rfl (fun _ h => absurd h List.not_mem_nil) hwrite).mpr ?_⟩
  rw [hstored]
  exact ⟨fun _ => rfl, fun _ => rfl, fun _ _ => ⟨rfl, rfl⟩⟩

/-- The feed is paused by the report of a fetch while its interval is being changed: the change
makes the feed what it was before, and its check is due as before. -/
theorem auto_pause_undone : ∃ s₁ s₂ s₃ : WriteBack.State patching,
    WriteBack.step patching start (.read 1 slower) = some s₁ ∧
      WriteBack.step patching s₁ (.other
        (.updateAfterFetch { millis := 6, micros := 0 } pausingReport)) = some s₂ ∧
      WriteBack.step patching s₂ (.write 1 (5, { millis := 7, micros := 0 })) = some s₃ ∧
      s₂.stored.row.status = .paused ∧ s₃.stored.row.status = .error :=
  ⟨_, _, _, rfl, rfl, rfl, rfl, rfl⟩

end FeedPatch

end Feedpulse
