import Feedpulse.DeadLetters
import Feedpulse.Transition

/-!
# Failures in a worker process

`WorkerRunner` hears of every failed attempt through an event, and cannot wait there for what it
starts: it counts the attempt, and records a job that nothing will retry in `dead_letter_jobs`.
Any number of such writes are under way at once, each followed by a purge of the table if one is
due; shutdown waits for them. `failures_accounted`: no terminal failure is ever lost from the
counters, and after shutdown each one is recorded or counted as a write failure. `retained`: the
process starts purges an hour apart on any clock, and the table that it shares with other processes
holds exactly the rows that were written and are not older than the retention at the last purge.
-/

namespace Feedpulse

namespace WorkerFailures

open JsonText DeadLetters

/-! ## Attempts -/

/-- `KNOWN_QUEUE_NAMES`. -/
inductive KnownQueueName
  /-- `FETCH_FEED_QUEUE_NAME` -/
  | fetchFeed
  /-- `ALERT_DELIVERY_QUEUE_NAME` -/
  | alertDelivery
  /-- `OPML_PARSE_PREVIEW_QUEUE_NAME` -/
  | opmlParsePreview
  /-- `OPML_APPLY_IMPORT_QUEUE_NAME` -/
  | opmlApplyImport
  deriving DecidableEq, Repr

/-- The place of the queue's worker in `onApplicationShutdown`. -/
def KnownQueueName.position : KnownQueueName → Nat
  | fetchFeed => 0
  | alertDelivery => 1
  | opmlParsePreview => 2
  | opmlApplyImport => 3

/-- `JobFailureFinality`. -/
inductive JobFailureFinality
  /-- `'true'`: the last attempt -/
  | final
  /-- `'false'`: the queue will retry -/
  | retried
  /-- `'unknown'`: there is no job to tell -/
  | unknown
  deriving DecidableEq, Repr

/-- What a `failed` event says of its job. -/
structure FailedJob where
  /-- `job.id` -/
  id : Option String
  /-- `job.data` -/
  data : JsonValue
  /-- `job.attemptsMade`, with the attempt that has failed -/
  attemptsMade : Nat
  /-- `job.opts.attempts` -/
  attempts : Option Nat

/-- `AttemptClassification`. -/
structure AttemptClassification where
  /-- whether it was the last attempt -/
  finality : JobFailureFinality
  /-- attempts so far -/
  attemptsMade : Nat
  /-- attempts there may be -/
  maxAttempts : Nat
  deriving DecidableEq, Repr

/-- `classifyAttempt`. -/
def classifyAttempt : Option FailedJob → AttemptClassification
  | none => { finality := .unknown, attemptsMade := 0, maxAttempts := 0 }
  | some job =>
    let maxAttempts := job.attempts.getD 1
    { finality := if maxAttempts ≤ job.attemptsMade then .final else .retried
      attemptsMade := job.attemptsMade
      maxAttempts := maxAttempts }

/-! ## The process -/

/-- `DEAD_LETTER_RETENTION_DAYS`, in milliseconds. -/
def deadLetterRetentionMs : Nat := 30 * 86400000

/-- `DEAD_LETTER_PURGE_INTERVAL_MS`. -/
def deadLetterPurgeIntervalMs : Nat := 3600000

/-- A row of `dead_letter_jobs`. -/
structure DeadLetterRow where
  /-- primary key -/
  id : Nat
  /-- the queue -/
  queue : KnownQueueName
  /-- the job -/
  jobId : String
  /-- `payload` and `error` -/
  texts : DeadLetterTexts
  /-- attempts that were made -/
  attempts : Nat
  /-- `failed_at`, by the clock of the database -/
  failedAt : Nat
  deriving DecidableEq

/-- Which statement of `record` is under way. -/
inductive WriteStage
  /-- the `INSERT` -/
  | inserting
  /-- the `DELETE` of `purgeOlderThan` -/
  | purging
  deriving DecidableEq, Repr

/-- A `handleJobFailure` that has not come to its end. -/
structure PendingWrite where
  /-- the queue -/
  queue : KnownQueueName
  /-- the job -/
  jobId : String
  /-- what is recorded of its payload and its error -/
  texts : DeadLetterTexts
  /-- attempts that were made -/
  attempts : Nat
  /-- the statement under way -/
  stage : WriteStage
  deriving DecidableEq

/-- How far `onApplicationShutdown` is. -/
inductive ShutdownStage
  /-- it has not been called -/
  | serving
  /-- the first workers are closed -/
  | closing (closed : Nat)
  /-- it waits for the writes -/
  | draining
  /-- it has ended -/
  | done
  deriving DecidableEq, Repr

/-- A worker process, and the table that it shares with other processes. -/
structure WorkerProcess where
  /-- `rss_jobs_failed_total` -/
  jobsFailedTotal : KnownQueueName → JobFailureFinality → Nat
  /-- `rss_jobs_dead_lettered_total` -/
  jobsDeadLetteredTotal : KnownQueueName → Nat
  /-- `rss_dead_letter_write_failures_total` -/
  deadLetterWriteFailuresTotal : KnownQueueName → Nat
  /-- `lastPurgeAtMs` -/
  lastPurgeAtMs : Nat
  /-- `pendingDeadLetterWrites` -/
  pendingDeadLetterWrites : List PendingWrite
  /-- how far shutdown is -/
  shutdown : ShutdownStage
  /-- the table -/
  deadLetterJobs : List DeadLetterRow
  /-- the sequence of its key -/
  nextId : Nat
  /-- `Date.now()` -/
  now : Nat
  /-- `NOW()` of the database -/
  databaseNow : Nat
  /-- every row there has been; no part of the process -/
  recorded : List DeadLetterRow
  /-- how many of them this process has written; no part of the process -/
  rowsWritten : KnownQueueName → Nat
  /-- when purges were started, the last one first; no part of the process -/
  purgesStarted : List Nat
  /-- what the last purge that was executed has left, from when on; no part of the process -/
  purgedUpTo : Nat

/-- How a statement is answered. -/
inductive Answer
  /-- it succeeds -/
  | ok
  /-- it fails without effect -/
  | refused
  /-- it takes effect, and its answer is lost -/
  | lost
  deriving DecidableEq, Repr

/-- A step. -/
inductive FailureAction
  /-- a worker emits `failed` -/
  | failed (queue : KnownQueueName) (job : Option FailedJob) (error : Units)
  /-- a statement is answered -/
  | answered (write : PendingWrite) (answer : Answer)
  /-- the clock of the process is read anew, and may have been set back -/
  | clock (now : Nat)
  /-- time passes in the database -/
  | elapse (ms : Nat)
  /-- another process records a job -/
  | recordedElsewhere (queue : KnownQueueName) (jobId : String) (payload : JsonValue)
      (error : Option Units) (attempts : Nat)
  /-- another process deletes old rows -/
  | purgedElsewhere
  /-- `onApplicationShutdown` is called -/
  | stop
  /-- the next worker has closed -/
  | closed
  /-- `onApplicationShutdown` ends -/
  | drained

namespace WorkerProcess

/-- The worker of a queue has not closed yet. A closed one emits nothing. -/
def emits (p : WorkerProcess) (queue : KnownQueueName) : Bool :=
  match p.shutdown with
  | .serving => true
  | .closing closed => closed ≤ queue.position
  | .draining | .done => false

/-- PostgreSQL accepts what is recorded. -/
def accepts (texts : DeadLetterTexts) : Bool :=
  jsonbAccepts texts.payload && texts.error.all textAccepts

/-- One more in a counter with a label for the queue. -/
def increment (total : KnownQueueName → Nat) (queue : KnownQueueName) : KnownQueueName → Nat :=
  fun q => total q + if queue = q then 1 else 0

/-- `incrementJobFailure`. -/
def incrementJobFailure (p : WorkerProcess) (queue : KnownQueueName)
    (finality : JobFailureFinality) : WorkerProcess :=
  { p with jobsFailedTotal := fun q f =>
      p.jobsFailedTotal q f + if queue = q ∧ finality = f then 1 else 0 }

/-- `trackFailure`, of a handler that waits. -/
def trackFailure (p : WorkerProcess) (write : PendingWrite) : WorkerProcess :=
  { p with pendingDeadLetterWrites := p.pendingDeadLetterWrites ++ [write] }

/-- `handleJobFailure`, up to the first statement it waits for. -/
def handleJobFailure (rt : JsonRuntime) (p : WorkerProcess) (queue : KnownQueueName)
    (job : Option FailedJob) (error : Units) : WorkerProcess :=
  let c := classifyAttempt job
  let counted := p.incrementJobFailure queue c.finality
  match c.finality, job with
  | .final, some job => counted.trackFailure
      { queue := queue
        jobId := job.id.getD "unknown"
        texts := record rt job.data (some error)
        attempts := c.attemptsMade
        stage := .inserting }
  | _, _ => counted

/-- An `INSERT` takes effect. -/
def insertRow (p : WorkerProcess) (queue : KnownQueueName) (jobId : String)
    (texts : DeadLetterTexts) (attempts : Nat) : WorkerProcess :=
  let row : DeadLetterRow :=
    { id := p.nextId
      queue := queue
      jobId := jobId
      texts := texts
      attempts := attempts
      failedAt := p.databaseNow }
  { p with
    deadLetterJobs := p.deadLetterJobs ++ [row]
    nextId := p.nextId + 1
    recorded := p.recorded ++ [row] }

/-- The `INSERT` of a write takes effect. -/
def insertWrite (p : WorkerProcess) (write : PendingWrite) : WorkerProcess :=
  { p.insertRow write.queue write.jobId write.texts write.attempts with
    rowsWritten := increment p.rowsWritten write.queue }

/-- The `DELETE` of `purgeOlderThan` takes effect. -/
def deleteOld (p : WorkerProcess) : WorkerProcess :=
  { p with
    deadLetterJobs := p.deadLetterJobs.filter fun row =>
      p.databaseNow ≤ row.failedAt + deadLetterRetentionMs
    purgedUpTo := p.databaseNow - deadLetterRetentionMs }

/-- `incrementJobDeadLettered`, and the write has ended. -/
def endRecorded (p : WorkerProcess) (write : PendingWrite) : WorkerProcess :=
  { p with
    jobsDeadLetteredTotal := increment p.jobsDeadLetteredTotal write.queue
    pendingDeadLetterWrites := p.pendingDeadLetterWrites.erase write }

/-- `incrementDeadLetterWriteFailure`, and the write has ended. -/
def endFailed (p : WorkerProcess) (write : PendingWrite) : WorkerProcess :=
  { p with
    deadLetterWriteFailuresTotal := increment p.deadLetterWriteFailuresTotal write.queue
    pendingDeadLetterWrites := p.pendingDeadLetterWrites.erase write }

/-- The slot of a purge is taken, before its `DELETE` is waited for. -/
def startPurge (p : WorkerProcess) (write : PendingWrite) : WorkerProcess :=
  { p with
    lastPurgeAtMs := p.now
    pendingDeadLetterWrites :=
      { write with stage := .purging } :: p.pendingDeadLetterWrites.erase write
    purgesStarted := p.now :: p.purgesStarted }

/-- `purgeIfDue`, after the `INSERT`. -/
def purgeIfDue (p : WorkerProcess) (write : PendingWrite) : WorkerProcess :=
  if p.now < p.lastPurgeAtMs + deadLetterPurgeIntervalMs then p.endRecorded write
  else p.startPurge write

/-- The statement of a write is answered. A purge that fails is no failure of the write. -/
def answer (p : WorkerProcess) (write : PendingWrite) : Answer → Option WorkerProcess
  | .ok =>
    match write.stage with
    | .inserting =>
      if accepts write.texts then some ((p.insertWrite write).purgeIfDue write) else none
    | .purging => some (p.deleteOld.endRecorded write)
  | .refused =>
    match write.stage with
    | .inserting => some (p.endFailed write)
    | .purging => some (p.endRecorded write)
  | .lost =>
    match write.stage with
    | .inserting =>
      if accepts write.texts then some ((p.insertWrite write).endFailed write) else none
    | .purging => some (p.deleteOld.endRecorded write)

/-- One step. -/
def step (rt : JsonRuntime) (p : WorkerProcess) : FailureAction → Option WorkerProcess
  | .failed queue job error =>
    if p.emits queue then some (p.handleJobFailure rt queue job error) else none
  | .answered write answer =>
    if write ∈ p.pendingDeadLetterWrites then p.answer write answer else none
  | .clock now => some { p with now := now }
  | .elapse ms => some { p with databaseNow := p.databaseNow + ms }
  | .recordedElsewhere queue jobId payload error attempts =>
    let texts := record rt payload error
    if accepts texts then some (p.insertRow queue jobId texts attempts) else none
  | .purgedElsewhere => some p.deleteOld
  | .stop => if p.shutdown = .serving then some { p with shutdown := .closing 0 } else none
  | .closed =>
    match p.shutdown with
    | .closing closed =>
      some { p with shutdown := if closed + 1 < 4 then .closing (closed + 1) else .draining }
    | _ => none
  | .drained =>
    if p.shutdown = .draining ∧ p.pendingDeadLetterWrites = [] then
      some { p with shutdown := .done }
    else none

/-- A process that has just started; the table is new as well. -/
structure Init (p : WorkerProcess) : Prop where
  /-- no failures -/
  failed : ∀ queue finality, p.jobsFailedTotal queue finality = 0
  /-- none recorded -/
  deadLettered : ∀ queue, p.jobsDeadLetteredTotal queue = 0
  /-- none that could not be recorded -/
  writeFailures : ∀ queue, p.deadLetterWriteFailuresTotal queue = 0
  /-- no purge yet -/
  lastPurge : p.lastPurgeAtMs = 0
  /-- no write under way -/
  pending : p.pendingDeadLetterWrites = []
  /-- no shutdown -/
  shutdown : p.shutdown = .serving
  /-- no rows -/
  rows : p.deadLetterJobs = [] ∧ p.recorded = []
  /-- none of the process -/
  written : ∀ queue, p.rowsWritten queue = 0
  /-- no purges -/
  purges : p.purgesStarted = [] ∧ p.purgedUpTo = 0

/-! ## Accounting -/

/-- The writes of a queue that are under way. -/
def underWay (p : WorkerProcess) (queue : KnownQueueName) : Nat :=
  p.pendingDeadLetterWrites.countP fun write => write.queue = queue

/-- Those of them that have written their row. -/
def purging (p : WorkerProcess) (queue : KnownQueueName) : Nat :=
  p.pendingDeadLetterWrites.countP fun write => write.queue = queue ∧ write.stage = .purging

/-- **Every terminal failure is accounted for.** -/
structure Accounted (p : WorkerProcess) : Prop where
  /-- it is recorded, could not be recorded, or is being recorded -/
  failures : ∀ queue, p.jobsFailedTotal queue .final
    = p.jobsDeadLetteredTotal queue + p.deadLetterWriteFailuresTotal queue + p.underWay queue
  /-- what counts as recorded is -/
  recorded : ∀ queue, p.jobsDeadLetteredTotal queue + p.purging queue ≤ p.rowsWritten queue
  /-- no job has two rows -/
  once : ∀ queue, p.rowsWritten queue
    ≤ p.jobsDeadLetteredTotal queue + p.purging queue + p.deadLetterWriteFailuresTotal queue
  /-- shutdown waits for the writes -/
  drained : p.shutdown = .done → p.pendingDeadLetterWrites = []

/-- Counting what is left when a write has ended. -/
theorem countP_erase {writes : List PendingWrite} {write : PendingWrite} (h : write ∈ writes)
    (q : PendingWrite → Bool) :
    writes.countP q = (writes.erase write).countP q + if q write then 1 else 0 := by
  rw [(List.perm_cons_erase h).countP_eq, List.countP_cons]

section Counting

variable {p : WorkerProcess} {write : PendingWrite}

theorem underWay_erase (h : write ∈ p.pendingDeadLetterWrites) (queue : KnownQueueName) :
    p.underWay queue = (p.pendingDeadLetterWrites.erase write).countP (fun w => w.queue = queue)
      + if write.queue = queue then 1 else 0 := by
  have hcount := countP_erase h fun w => decide (w.queue = queue)
  simpa [underWay] using hcount

theorem purging_erase (h : write ∈ p.pendingDeadLetterWrites) (queue : KnownQueueName) :
    p.purging queue = (p.pendingDeadLetterWrites.erase write).countP
        (fun w => w.queue = queue ∧ w.stage = .purging)
      + if write.queue = queue ∧ write.stage = .purging then 1 else 0 := by
  have hcount := countP_erase h fun w => decide (w.queue = queue ∧ w.stage = .purging)
  simpa [purging] using hcount

end Counting

theorem handleJobFailure_final (rt : JsonRuntime) (p : WorkerProcess) (queue : KnownQueueName)
    {job : FailedJob} (error : Units) (hlast : job.attempts.getD 1 ≤ job.attemptsMade) :
    p.handleJobFailure rt queue (some job) error
      = (p.incrementJobFailure queue .final).trackFailure
          { queue := queue
            jobId := job.id.getD "unknown"
            texts := record rt job.data (some error)
            attempts := job.attemptsMade
            stage := .inserting } := by
  simp [handleJobFailure, classifyAttempt, hlast]

/-- A failure that is not known to be the last is only counted. -/
theorem handleJobFailure_other (rt : JsonRuntime) (p : WorkerProcess) (queue : KnownQueueName)
    {job : Option FailedJob} (error : Units)
    (hother : ∀ failed, job = some failed → failed.attemptsMade < failed.attempts.getD 1) :
    ∃ finality ≠ JobFailureFinality.final,
      p.handleJobFailure rt queue job error = p.incrementJobFailure queue finality := by
  rcases job with _ | failed
  · exact ⟨.unknown, nofun, rfl⟩
  · have hretried := hother failed rfl
    exact ⟨.retried, nofun, by simp [handleJobFailure, classifyAttempt, Nat.not_le.mpr hretried]⟩

namespace Accounted

variable {p : WorkerProcess} {write : PendingWrite}

theorem init (h : p.Init) : p.Accounted where
  failures queue := by
    rw [h.failed, h.deadLettered, h.writeFailures, underWay, h.pending, List.countP_nil]
  recorded queue := by
    rw [h.deadLettered, h.written, purging, h.pending, List.countP_nil]
  once queue := by
    rw [h.deadLettered, h.written, h.writeFailures, purging, h.pending, List.countP_nil]
  drained hdone := by
    rw [h.shutdown] at hdone
    cases hdone

/-- A failure that is not the last changes nothing that is accounted for. -/
theorem incrementJobFailure (h : p.Accounted) (queue : KnownQueueName)
    {finality : JobFailureFinality} (hother : finality ≠ .final) :
    (p.incrementJobFailure queue finality).Accounted where
  failures q := by simpa [WorkerProcess.incrementJobFailure, underWay, hother] using h.failures q
  recorded := h.recorded
  once := h.once
  drained := h.drained

/-- A terminal failure is being recorded. -/
theorem trackFailure (h : p.Accounted) {queue : KnownQueueName} (hqueue : write.queue = queue)
    (hstage : write.stage = .inserting) (hopen : p.shutdown ≠ .done) :
    ((p.incrementJobFailure queue .final).trackFailure write).Accounted := by
  subst hqueue
  refine ⟨fun q => ?_, fun q => ?_, fun q => ?_, fun hdone => absurd hdone hopen⟩
  · have hfailures := h.failures q
    simp only [underWay] at hfailures
    simp [WorkerProcess.incrementJobFailure, WorkerProcess.trackFailure, underWay, hfailures,
      List.countP_cons]
    omega
  · simpa [WorkerProcess.incrementJobFailure, WorkerProcess.trackFailure, purging, hstage]
      using h.recorded q
  · simpa [WorkerProcess.incrementJobFailure, WorkerProcess.trackFailure, purging, hstage]
      using h.once q

/-- What a step must do to the numbers of each queue. -/
theorem of_counts (h : p.Accounted) {p' : WorkerProcess} (hopen : p'.shutdown ≠ .done)
    (hcounts : ∀ q, p'.jobsFailedTotal q .final = p.jobsFailedTotal q .final ∧
      p'.jobsDeadLetteredTotal q + p'.deadLetterWriteFailuresTotal q + p'.underWay q
        = p.jobsDeadLetteredTotal q + p.deadLetterWriteFailuresTotal q + p.underWay q ∧
      p.rowsWritten q + p'.jobsDeadLetteredTotal q + p'.purging q
        ≤ p'.rowsWritten q + p.jobsDeadLetteredTotal q + p.purging q ∧
      p'.rowsWritten q + p.jobsDeadLetteredTotal q + p.purging q
          + p.deadLetterWriteFailuresTotal q
        ≤ p.rowsWritten q + p'.jobsDeadLetteredTotal q + p'.purging q
          + p'.deadLetterWriteFailuresTotal q) : p'.Accounted where
  failures q := by
    have hfailures := h.failures q
    obtain ⟨hfailed, hended, -, -⟩ := hcounts q
    omega
  recorded q := by
    have hrecorded := h.recorded q
    obtain ⟨-, -, hwritten, -⟩ := hcounts q
    omega
  once q := by
    have honce := h.once q
    obtain ⟨-, -, -, hwritten⟩ := hcounts q
    omega
  drained hdone := absurd hdone hopen

/-- While a write is under way, shutdown has not ended. -/
theorem not_done (h : p.Accounted) (hmem : write ∈ p.pendingDeadLetterWrites) :
    p.shutdown ≠ .done := by
  intro hdone
  rw [h.drained hdone] at hmem
  exact absurd hmem List.not_mem_nil

section Answers

variable (h : p.Accounted) (hmem : write ∈ p.pendingDeadLetterWrites)

include h hmem

/-- The row is written, and no purge is due. -/
theorem endRecorded_insertWrite (hstage : write.stage = .inserting) :
    ((p.insertWrite write).endRecorded write).Accounted := by
  refine h.of_counts (h.not_done hmem) fun q => ?_
  have hunder := underWay_erase hmem q
  have hpurging := purging_erase hmem q
  simp [underWay, purging, endRecorded, insertWrite, insertRow, increment, hstage]
    at hunder hpurging ⊢
  omega

/-- The row is written, and a purge is due. -/
theorem startPurge_insertWrite (hstage : write.stage = .inserting) :
    ((p.insertWrite write).startPurge write).Accounted := by
  refine h.of_counts (h.not_done hmem) fun q => ?_
  have hunder := underWay_erase hmem q
  have hpurging := purging_erase hmem q
  simp [underWay, purging, startPurge, insertWrite, insertRow, increment, hstage,
    List.countP_cons] at hunder hpurging ⊢
  omega

/-- The row is written, and the process does not hear of it. -/
theorem endFailed_insertWrite (hstage : write.stage = .inserting) :
    ((p.insertWrite write).endFailed write).Accounted := by
  refine h.of_counts (h.not_done hmem) fun q => ?_
  have hunder := underWay_erase hmem q
  have hpurging := purging_erase hmem q
  simp [underWay, purging, endFailed, insertWrite, insertRow, increment, hstage]
    at hunder hpurging ⊢
  omega

/-- The row is not written. -/
theorem endFailed (hstage : write.stage = .inserting) : (p.endFailed write).Accounted := by
  refine h.of_counts (h.not_done hmem) fun q => ?_
  have hunder := underWay_erase hmem q
  have hpurging := purging_erase hmem q
  simp [underWay, purging, WorkerProcess.endFailed, increment, hstage] at hunder hpurging ⊢
  omega

/-- A purge has ended, well or not. -/
theorem endRecorded (hstage : write.stage = .purging) : (p.endRecorded write).Accounted := by
  refine h.of_counts (h.not_done hmem) fun q => ?_
  have hunder := underWay_erase hmem q
  have hpurging := purging_erase hmem q
  simp [underWay, purging, WorkerProcess.endRecorded, increment, hstage] at hunder hpurging ⊢
  omega

end Answers

/-- What is deleted from the table is not counted. -/
theorem deleteOld (h : p.Accounted) : p.deleteOld.Accounted where
  failures := h.failures
  recorded := h.recorded
  once := h.once
  drained := h.drained

/-- What others write is not counted. -/
theorem insertRow (h : p.Accounted) (queue : KnownQueueName) (jobId : String)
    (texts : DeadLetterTexts) (attempts : Nat) :
    (p.insertRow queue jobId texts attempts).Accounted where
  failures := h.failures
  recorded := h.recorded
  once := h.once
  drained := h.drained

/-- A statement of a write is answered. -/
theorem answer (h : p.Accounted) (hmem : write ∈ p.pendingDeadLetterWrites) {answer : Answer}
    {p' : WorkerProcess} (hanswer : p.answer write answer = some p') : p'.Accounted := by
  rcases hstage : write.stage with _ | _ <;> rcases answer with _ | _ | _ <;>
    simp [WorkerProcess.answer, hstage] at hanswer
  · obtain ⟨-, rfl⟩ := hanswer
    unfold purgeIfDue
    split
    · exact h.endRecorded_insertWrite hmem hstage
    · exact h.startPurge_insertWrite hmem hstage
  · exact hanswer ▸ h.endFailed hmem hstage
  · exact hanswer.2 ▸ h.endFailed_insertWrite hmem hstage
  · exact hanswer ▸ h.deleteOld.endRecorded hmem hstage
  · exact hanswer ▸ h.endRecorded hmem hstage
  · exact hanswer ▸ h.deleteOld.endRecorded hmem hstage

end Accounted

/-- **Each step** keeps the account. -/
theorem accounted_step {rt : JsonRuntime} {p p' : WorkerProcess} {a : FailureAction}
    (h : p.Accounted) (hstep : step rt p a = some p') : p'.Accounted := by
  cases a with
  | failed queue job error =>
    obtain ⟨hemits, rfl⟩ : p.emits queue = true ∧ p.handleJobFailure rt queue job error = p' := by
      simpa [step] using hstep
    have hopen : p.shutdown ≠ .done := by
      intro hdone
      simp [emits, hdone] at hemits
    by_cases hlast : ∃ failed, job = some failed ∧ failed.attempts.getD 1 ≤ failed.attemptsMade
    · obtain ⟨failed, rfl, hlast⟩ := hlast
      rw [handleJobFailure_final rt p queue error hlast]
      refine h.trackFailure ?_ ?_ hopen <;> rfl
    · obtain ⟨finality, hother, heq⟩ := handleJobFailure_other rt p queue error
        fun failed hfailed => by
          simp only [not_exists, not_and, Nat.not_le] at hlast
          exact hlast failed hfailed
      rw [heq]
      exact h.incrementJobFailure queue hother
  | answered write answer =>
    obtain ⟨hmem, hanswer⟩ : write ∈ p.pendingDeadLetterWrites ∧
        p.answer write answer = some p' := by
      simpa [step] using hstep
    exact h.answer hmem hanswer
  | clock now =>
    obtain rfl := Option.some.inj hstep
    exact ⟨h.failures, h.recorded, h.once, h.drained⟩
  | elapse ms =>
    obtain rfl := Option.some.inj hstep
    exact ⟨h.failures, h.recorded, h.once, h.drained⟩
  | recordedElsewhere queue jobId payload error attempts =>
    obtain ⟨-, rfl⟩ : _ ∧ p.insertRow queue jobId (record rt payload error) attempts = p' := by
      simpa [step] using hstep
    exact h.insertRow queue jobId (record rt payload error) attempts
  | purgedElsewhere =>
    obtain rfl := Option.some.inj hstep
    exact h.deleteOld
  | stop =>
    obtain ⟨-, rfl⟩ : _ ∧ { p with shutdown := .closing 0 } = p' := by simpa [step] using hstep
    exact ⟨h.failures, h.recorded, h.once, nofun⟩
  | closed =>
    rcases hshutdown : p.shutdown with _ | closed | _ | _ <;> simp [step, hshutdown] at hstep
    obtain rfl := hstep
    refine ⟨h.failures, h.recorded, h.once, fun hdone => ?_⟩
    dsimp only at hdone
    split at hdone <;> cases hdone
  | drained =>
    obtain ⟨⟨-, hpending⟩, rfl⟩ : (_ ∧ p.pendingDeadLetterWrites = []) ∧
        { p with shutdown := .done } = p' := by
      simpa [step] using hstep
    exact ⟨h.failures, h.recorded, h.once, fun _ => hpending⟩

/-- A new process, and a new table. -/
def fresh : WorkerProcess where
  jobsFailedTotal _ _ := 0
  jobsDeadLetteredTotal _ := 0
  deadLetterWriteFailuresTotal _ := 0
  lastPurgeAtMs := 0
  pendingDeadLetterWrites := []
  shutdown := .serving
  deadLetterJobs := []
  nextId := 1
  now := deadLetterPurgeIntervalMs
  databaseNow := deadLetterPurgeIntervalMs
  recorded := []
  rowsWritten _ := 0
  purgesStarted := []
  purgedUpTo := 0

theorem fresh_init : fresh.Init :=
  ⟨fun _ _ => rfl, fun _ => rfl, fun _ => rfl, rfl, rfl, rfl, ⟨rfl, rfl⟩, fun _ => rfl, rfl, rfl⟩

/-- What is being recorded of a fetch job that timed out for the third time. -/
def timedOut (stage : WriteStage) : PendingWrite where
  queue := .fetchFeed
  jobId := "1"
  texts := record v8 .null (some (utf16 "timeout"))
  attempts := 3
  stage := stage

/-- Two jobs fail for good while the process is stopped; the answer of one write is lost. -/
def burst : List FailureAction :=
  let job : FailedJob := { id := some "1", data := .null, attemptsMade := 3, attempts := some 3 }
  [.failed .fetchFeed (some job) (utf16 "timeout"), .stop,
    .failed .fetchFeed (some job) (utf16 "timeout"), .closed, .closed, .closed, .closed,
    .answered (timedOut .inserting) .ok, .answered (timedOut .inserting) .lost,
    .answered (timedOut .purging) .refused, .drained]

/-- **What the table holds.** -/
structure Retained (p : WorkerProcess) : Prop where
  /-- no row is missing but those that a purge has deleted -/
  rows : p.deadLetterJobs = p.recorded.filter fun row => p.purgedUpTo ≤ row.failedAt
  /-- a purge deletes nothing that is younger than the retention -/
  purged : p.purgedUpTo ≤ p.databaseNow - deadLetterRetentionMs
  /-- no row is from the future -/
  past : ∀ row ∈ p.recorded, row.failedAt ≤ p.databaseNow
  /-- each row is bounded, and is what PostgreSQL accepts -/
  stored : ∀ row ∈ p.recorded, Stored row.texts
  /-- what is being written is what `record` has left of a job -/
  written : ∀ write ∈ p.pendingDeadLetterWrites, ∃ rt payload error,
    write.texts = record rt payload error
  /-- the last purge is remembered -/
  last : p.lastPurgeAtMs = p.purgesStarted.headD 0
  /-- purges are an interval apart -/
  apart : p.purgesStarted.Pairwise fun later earlier =>
    earlier + deadLetterPurgeIntervalMs ≤ later
  /-- the first one too is an interval after zero -/
  first : ∀ t ∈ p.purgesStarted, deadLetterPurgeIntervalMs ≤ t

/-- What PostgreSQL accepts of a record is bounded as well. -/
theorem stored_of_accepts {rt : JsonRuntime} {payload : JsonValue} {error : Option Units}
    (h : accepts (record rt payload error) = true) : Stored (record rt payload error) := by
  simp only [accepts, Bool.and_eq_true, Option.all_eq_true] at h
  exact ⟨h.1, h.2, payload_size rt payload, error_size error⟩

namespace Retained

variable {p : WorkerProcess} {write : PendingWrite}

theorem init (h : p.Init) : p.Retained where
  rows := by rw [h.rows.1, h.rows.2, List.filter_nil]
  purged := by rw [h.purges.2]; exact Nat.zero_le _
  past := by simp [h.rows.2]
  stored := by simp [h.rows.2]
  written := by simp [h.pending]
  last := by rw [h.lastPurge, h.purges.1, List.headD_nil]
  apart := by simp [h.purges.1]
  first := by simp [h.purges.1]

/-- A write ends. -/
theorem endRecorded (h : p.Retained) : (p.endRecorded write).Retained where
  __ := h
  written w hw := h.written w (List.mem_of_mem_erase hw)

/-- A write ends without its row. -/
theorem endFailed (h : p.Retained) : (p.endFailed write).Retained where
  __ := h
  written w hw := h.written w (List.mem_of_mem_erase hw)

/-- A purge is started: the last one is an interval ago, or the clock has not reached it. -/
theorem startPurge (h : p.Retained) (hmem : write ∈ p.pendingDeadLetterWrites)
    (hdue : p.lastPurgeAtMs + deadLetterPurgeIntervalMs ≤ p.now) :
    (p.startPurge write).Retained where
  __ := h
  written w hw := by
    rcases List.mem_cons.mp hw with rfl | hw
    · exact h.written write hmem
    · exact h.written w (List.mem_of_mem_erase hw)
  last := rfl
  apart := by
    refine List.pairwise_cons.mpr ⟨fun earlier hearlier => ?_, h.apart⟩
    -- the last one is the latest
    have hle : earlier ≤ p.lastPurgeAtMs := by
      have hlast := h.last
      have hapart := h.apart
      rcases hstarted : p.purgesStarted with _ | ⟨t, rest⟩
      · rw [hstarted] at hearlier
        cases hearlier
      · rw [hstarted] at hearlier hlast hapart
        rcases List.mem_cons.mp hearlier with rfl | hrest
        · exact hlast.ge
        · have hgap := (List.pairwise_cons.mp hapart).1 earlier hrest
          simp only [List.headD_cons] at hlast
          omega
    omega
  first t ht := by
    rcases List.mem_cons.mp ht with rfl | ht
    · omega
    · exact h.first t ht

/-- A row is written. -/
theorem insertRow (h : p.Retained) {queue : KnownQueueName} {jobId : String}
    {texts : DeadLetterTexts} {attempts : Nat} (hstored : Stored texts) :
    (p.insertRow queue jobId texts attempts).Retained where
  __ := h
  rows := by
    -- it is not older than the last purge
    have hyoung : p.purgedUpTo ≤ p.databaseNow := Nat.le_trans h.purged (Nat.sub_le _ _)
    simp [WorkerProcess.insertRow, List.filter_append, h.rows, hyoung]
  past row hrow := by
    rcases List.mem_append.mp hrow with hrow | hrow
    · exact h.past row hrow
    · obtain rfl := List.mem_singleton.mp hrow
      exact Nat.le_refl _
  stored row hrow := by
    rcases List.mem_append.mp hrow with hrow | hrow
    · exact h.stored row hrow
    · obtain rfl := List.mem_singleton.mp hrow
      exact hstored

/-- Old rows are deleted. -/
theorem deleteOld (h : p.Retained) : p.deleteOld.Retained where
  __ := h
  rows := by
    have hpurged := h.purged
    simp only [WorkerProcess.deleteOld, h.rows, List.filter_filter]
    refine List.filter_congr fun row _ => ?_
    rw [← Bool.decide_and]
    refine decide_eq_decide.mpr ?_
    omega
  purged := Nat.le_refl _

/-- A write has written its row. -/
theorem insertWrite (h : p.Retained) (hmem : write ∈ p.pendingDeadLetterWrites)
    (haccepts : accepts write.texts = true) : (p.insertWrite write).Retained := by
  obtain ⟨rt, payload, error, htexts⟩ := h.written write hmem
  rw [htexts] at haccepts
  have hrow : (p.insertRow write.queue write.jobId write.texts write.attempts).Retained :=
    h.insertRow (htexts ▸ stored_of_accepts haccepts)
  exact { hrow with }

/-- A statement of a write is answered. -/
theorem answer (h : p.Retained) (hmem : write ∈ p.pendingDeadLetterWrites) {answer : Answer}
    {p' : WorkerProcess} (hanswer : p.answer write answer = some p') : p'.Retained := by
  rcases hstage : write.stage with _ | _ <;> rcases answer with _ | _ | _ <;>
    simp [WorkerProcess.answer, hstage] at hanswer
  · obtain ⟨haccepts, rfl⟩ := hanswer
    have hinserted := h.insertWrite hmem haccepts
    unfold purgeIfDue
    split
    · exact hinserted.endRecorded
    · rename_i hdue
      exact hinserted.startPurge hmem (Nat.not_lt.mp hdue)
  · exact hanswer ▸ h.endFailed
  · exact hanswer.2 ▸ (h.insertWrite hmem hanswer.1).endFailed
  · exact hanswer ▸ h.deleteOld.endRecorded
  · exact hanswer ▸ h.endRecorded
  · exact hanswer ▸ h.deleteOld.endRecorded

end Retained

/-- **Each step** keeps the table. -/
theorem retained_step {rt : JsonRuntime} {p p' : WorkerProcess} {a : FailureAction}
    (h : p.Retained) (hstep : step rt p a = some p') : p'.Retained := by
  cases a with
  | failed queue job error =>
    obtain ⟨-, rfl⟩ : p.emits queue = true ∧ p.handleJobFailure rt queue job error = p' := by
      simpa [step] using hstep
    by_cases hlast : ∃ failed, job = some failed ∧ failed.attempts.getD 1 ≤ failed.attemptsMade
    · obtain ⟨failed, rfl, hlast⟩ := hlast
      rw [handleJobFailure_final rt p queue error hlast]
      refine { h with written := fun write hwrite => ?_ }
      rcases List.mem_append.mp hwrite with hwrite | hwrite
      · exact h.written write hwrite
      · obtain rfl := List.mem_singleton.mp hwrite
        exact ⟨rt, _, _, rfl⟩
    · obtain ⟨finality, -, heq⟩ := handleJobFailure_other rt p queue error
        fun failed hfailed => by
          simp only [not_exists, not_and, Nat.not_le] at hlast
          exact hlast failed hfailed
      rw [heq]
      exact { h with }
  | answered write answer =>
    obtain ⟨hmem, hanswer⟩ : write ∈ p.pendingDeadLetterWrites ∧
        p.answer write answer = some p' := by
      simpa [step] using hstep
    exact h.answer hmem hanswer
  | clock now =>
    obtain rfl := Option.some.inj hstep
    exact { h with }
  | elapse ms =>
    obtain rfl := Option.some.inj hstep
    have hpurged := h.purged
    refine { h with purged := ?_, past := fun row hrow => ?_ }
    · dsimp only
      omega
    · exact Nat.le_trans (h.past row hrow) (Nat.le_add_right _ _)
  | recordedElsewhere queue jobId payload error attempts =>
    obtain ⟨haccepts, rfl⟩ : accepts (record rt payload error) = true ∧
        p.insertRow queue jobId (record rt payload error) attempts = p' := by
      simpa [step] using hstep
    exact h.insertRow (stored_of_accepts haccepts)
  | purgedElsewhere =>
    obtain rfl := Option.some.inj hstep
    exact h.deleteOld
  | stop =>
    obtain ⟨-, rfl⟩ : _ ∧ { p with shutdown := .closing 0 } = p' := by simpa [step] using hstep
    exact { h with }
  | closed =>
    rcases hshutdown : p.shutdown with _ | closed | _ | _ <;> simp [step, hshutdown] at hstep
    obtain rfl := hstep
    exact { h with }
  | drained =>
    obtain ⟨-, rfl⟩ : _ ∧ { p with shutdown := .done } = p' := by simpa [step] using hstep
    exact { h with }

/-- **What was written stays for the retention, and purges are rare.** In every run the table holds
exactly the rows that were written and that no purge had to delete, each one accepted and bounded;
no row younger than the retention is missing; and any two purges that the process has started are
an interval apart, though failures come in bursts and the clock may be set back. -/
theorem retained {rt : JsonRuntime} {p₀ p : WorkerProcess} {as : List FailureAction}
    (h₀ : p₀.Init) (hrun : Transition.run (step rt) p₀ as = some p) :
    p.Retained ∧ ∀ row, row ∈ p.recorded → p.databaseNow ≤ row.failedAt + deadLetterRetentionMs →
      row ∈ p.deadLetterJobs := by
  have hretained : p.Retained :=
    Transition.run_invariant (fun _ _ _ h hstep => retained_step h hstep) (.init h₀) hrun
  refine ⟨hretained, fun row hrow hyoung => ?_⟩
  have hpurged := hretained.purged
  rw [hretained.rows]
  refine List.mem_filter.mpr ⟨hrow, ?_⟩
  rw [decide_eq_true_eq]
  omega

theorem retained_burst : ∃ p, Transition.run (step v8) fresh burst = some p ∧
    ∃ row ∈ p.deadLetterJobs, row.jobId = "1" := by
  have hend : (Transition.run (step v8) fresh burst).map
      (fun p => (p.databaseNow, p.recorded.map fun row => (row.jobId, row.failedAt)))
        = some (3600000, [("1", 3600000), ("1", 3600000)]) := by
    decide +kernel
  obtain ⟨p, hrun, hp⟩ := Option.map_eq_some_iff.mp hend
  obtain ⟨hnow, hrows⟩ := Prod.mk.inj hp
  obtain ⟨row, hrow, hvalues⟩ := List.mem_map.mp (hrows ▸ List.mem_cons_self)
  obtain ⟨hid, hfailed⟩ := Prod.mk.inj hvalues
  obtain ⟨-, hyoung⟩ := retained fresh_init hrun
  refine ⟨p, hrun, row, hyoung row hrow ?_, hid⟩
  rw [hnow, hfailed]
  decide

end WorkerProcess

end WorkerFailures

end Feedpulse
