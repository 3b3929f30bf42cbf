import Mathlib.Data.List.Nodup
import Mathlib.Data.List.Basic

/-!
# A Redis-backed job queue

The contract of a job queue with retained jobs: every job has an id, a state and
an attempt counter; a job whose id is still known to the queue cannot be added a
second time; completed jobs are removed when the queue is configured so, failed
ones are kept up to a bound, the oldest leaving first.

* `JobQueue` carries what no operation breaks: ids are unique, and a queue that
  removes completed jobs holds none.
* `add`, `take`, `promote`, `complete`, `fail`, `stall` are the operations. A worker
  holds a job under a lock token; once the lock is lost (`stall`), its reports
  have no effect.
* Each operation has one lemma that describes it through `getJob`, so that no
  argument outside this file looks at the list of jobs.
-/

namespace Feedpulse

universe u v

/-! ## Jobs -/

/-- The life cycle of a job. -/
inductive JobState
  /-- ready to be taken by a worker -/
  | waiting
  /-- held by a worker -/
  | active
  /-- waiting for its backoff to elapse -/
  | delayed
  /-- finished successfully -/
  | completed
  /-- out of attempts, or stalled too often -/
  | failed
  deriving DecidableEq, Repr

/-- A job with its bookkeeping. -/
structure Job (K : Type u) (D : Type v) where
  /-- the id under which the queue knows the job -/
  id : K
  /-- the payload -/
  data : D
  /-- where the job is in its life cycle -/
  state : JobState
  /-- how many attempts have ended -/
  attemptsMade : Nat
  /-- how often a worker lost the job -/
  stalledCounter : Nat
  /-- the lock token of the worker that holds the job -/
  token : Option Nat

/-- The options a queue is created with. -/
structure QueueOptions where
  /-- how often a job is attempted before it fails for good -/
  attempts : Nat
  /-- whether a completed job leaves the queue -/
  removeOnComplete : Bool
  /-- how many failed jobs are retained -/
  removeOnFail : Nat
  /-- how often a job may stall before it fails for good -/
  maxStalledCount : Nat

namespace Job

variable {K : Type u} {D : Type v}

/-- A freshly added job. -/
def new (id : K) (data : D) : Job K D :=
  { id := id, data := data, state := .waiting, attemptsMade := 0, stalledCounter := 0,
    token := none }

/-- The job will still run: it is waiting, active or delayed. -/
def Live (j : Job K D) : Prop :=
  j.state = .waiting ∨ j.state = .active ∨ j.state = .delayed

instance (j : Job K D) : Decidable j.Live :=
  inferInstanceAs (Decidable (_ ∨ _))

@[simp] theorem new_id (id : K) (data : D) : (new id data).id = id := rfl

@[simp] theorem new_data (id : K) (data : D) : (new id data).data = data := rfl

@[simp] theorem new_state (id : K) (data : D) : (new id data).state = .waiting := rfl

theorem new_live (id : K) (data : D) : (new id data).Live := .inl rfl

/-- A job that is neither completed nor live has failed. -/
theorem live_or_failed {j : Job K D} (h : j.state ≠ .completed) :
    j.Live ∨ j.state = .failed := by
  unfold Live
  cases hj : j.state <;> simp_all

theorem not_completed_of_live {j : Job K D} (h : j.Live) : j.state ≠ .completed := by
  rcases h with h | h | h <;> rw [h] <;> decide

theorem not_failed_of_live {j : Job K D} (h : j.Live) : j.state ≠ .failed := by
  rcases h with h | h | h <;> rw [h] <;> decide

end Job

/-! ## Queues -/

/-- A queue created with the options `opts`. The jobs stand in the order in which
they were added, failed ones in the order in which they failed. -/
structure JobQueue (K : Type u) (D : Type v) (opts : QueueOptions) where
  /-- the retained jobs -/
  jobs : List (Job K D)
  /-- ids are unique -/
  nodup : (jobs.map Job.id).Nodup
  /-- completed jobs are gone if they are to be removed -/
  cleaned : opts.removeOnComplete = true → ∀ j ∈ jobs, j.state ≠ .completed

namespace JobQueue

variable {K : Type u} {D : Type v} {opts : QueueOptions}

/-- The queue without jobs. -/
def empty : JobQueue K D opts :=
  ⟨[], List.nodup_nil, fun _ _ h => absurd h List.not_mem_nil⟩

/-! ### Raw updates

The three ways an operation changes the list of jobs, with the proof that the
invariants survive. -/

/-- Drop the first `n` failed jobs. -/
def dropFailed : Nat → List (Job K D) → List (Job K D)
  | _, [] => []
  | 0, js => js
  | n + 1, j :: js => if j.state = .failed then dropFailed n js else j :: dropFailed (n + 1) js

theorem dropFailed_sublist (n : Nat) (js : List (Job K D)) :
    (dropFailed n js).Sublist js := by
  induction js generalizing n with
  | nil => cases n <;> exact List.Sublist.refl _
  | cons j js ih =>
    cases n with
    | zero => exact List.Sublist.refl _
    | succ n =>
      unfold dropFailed
      split
      · exact (ih n).cons j
      · exact (ih (n + 1)).cons_cons j

/-- Only failed jobs are dropped. -/
theorem mem_dropFailed_of_ne_failed {n : Nat} {js : List (Job K D)} {j : Job K D}
    (hj : j ∈ js) (hs : j.state ≠ .failed) : j ∈ dropFailed n js := by
  induction js generalizing n with
  | nil => exact absurd hj List.not_mem_nil
  | cons i js ih =>
    cases n with
    | zero => exact hj
    | succ n =>
      unfold dropFailed
      rcases List.mem_cons.mp hj with rfl | hj'
      · rw [if_neg hs]
        exact List.mem_cons_self
      · split
        · exact ih hj'
        · exact List.mem_cons_of_mem _ (ih hj')

/-- Keep a sublist of the jobs. -/
def restrict (q : JobQueue K D opts) (js : List (Job K D)) (h : js.Sublist q.jobs) :
    JobQueue K D opts :=
  ⟨js, q.nodup.sublist (h.map Job.id), fun hc j hj => q.cleaned hc j (h.subset hj)⟩

/-- Append a job whose id is not in use. -/
def append (q : JobQueue K D opts) (j : Job K D) (hid : j.id ∉ q.jobs.map Job.id)
    (hj : j.state ≠ .completed) : JobQueue K D opts where
  jobs := q.jobs ++ [j]
  nodup := by
    rw [List.map_append, List.map_singleton, List.nodup_append]
    refine ⟨q.nodup, List.nodup_singleton _, ?_⟩
    rintro a ha b hb rfl
    rw [List.mem_singleton] at hb
    exact hid (hb ▸ ha)
  cleaned := by
    intro hc i hi
    rcases List.mem_append.mp hi with hi | hi
    · exact q.cleaned hc i hi
    · rw [List.mem_singleton] at hi
      exact hi ▸ hj

variable [DecidableEq K]

/-- Change one job in place. -/
def update (q : JobQueue K D opts) (id : K) (f : Job K D → Job K D)
    (hid : ∀ j, (f j).id = j.id)
    (hf : opts.removeOnComplete = true → ∀ j, (f j).state ≠ .completed) :
    JobQueue K D opts where
  jobs := q.jobs.map fun j => if j.id = id then f j else j
  nodup := by
    have h : (q.jobs.map fun j => if j.id = id then f j else j).map Job.id
        = q.jobs.map Job.id := by
      rw [List.map_map]
      refine List.map_congr_left fun j _ => ?_
      change (if j.id = id then f j else j).id = j.id
      split
      · exact hid j
      · rfl
    rw [h]
    exact q.nodup
  cleaned := by
    intro hc i hi
    obtain ⟨j, hj, rfl⟩ := List.mem_map.mp hi
    split
    · exact hf hc j
    · exact q.cleaned hc j hj

/-- Remove one job. -/
def remove (q : JobQueue K D opts) (id : K) : JobQueue K D opts :=
  q.restrict (q.jobs.filter fun j => j.id ≠ id) List.filter_sublist

/-! ### Lookup -/

/-- The retained job with the given id, in whatever state it is. -/
def getJob (q : JobQueue K D opts) (id : K) : Option (Job K D) :=
  q.jobs.find? fun j => j.id = id

/-- A job with this id will still run. -/
def HasLive (q : JobQueue K D opts) (id : K) : Prop :=
  ∃ j, q.getJob id = some j ∧ j.Live

/-- A job with this id is retained as failed. -/
def HasFailed (q : JobQueue K D opts) (id : K) : Prop :=
  ∃ j, q.getJob id = some j ∧ j.state = .failed

instance (q : JobQueue K D opts) (id : K) : Decidable (q.HasLive id) :=
  inferInstanceAs (Decidable (∃ j ∈ q.getJob id, j.Live))

instance (q : JobQueue K D opts) (id : K) : Decidable (q.HasFailed id) :=
  inferInstanceAs (Decidable (∃ j ∈ q.getJob id, j.state = .failed))

/-- `getJob` finds exactly the retained jobs. -/
theorem getJob_eq_some {q : JobQueue K D opts} {id : K} {j : Job K D} :
    q.getJob id = some j ↔ j ∈ q.jobs ∧ j.id = id := by
  constructor
  · intro h
    exact ⟨List.mem_of_find?_eq_some h, by simpa using List.find?_some h⟩
  · rintro ⟨hj, rfl⟩
    rcases h : q.getJob j.id with _ | i
    · exact absurd (List.find?_eq_none.mp h j hj) (by simp)
    · have hi : i.id = j.id := by simpa using List.find?_some h
      rw [List.inj_on_of_nodup_map q.nodup (List.mem_of_find?_eq_some h) hj hi]

theorem getJob_eq_none {q : JobQueue K D opts} {id : K} :
    q.getJob id = none ↔ id ∉ q.jobs.map Job.id := by
  simp [getJob]

theorem id_of_getJob {q : JobQueue K D opts} {id : K} {j : Job K D}
    (h : q.getJob id = some j) : j.id = id := (getJob_eq_some.mp h).2

theorem mem_of_getJob {q : JobQueue K D opts} {id : K} {j : Job K D}
    (h : q.getJob id = some j) : j ∈ q.jobs := (getJob_eq_some.mp h).1

/-- Two queues that retain the same jobs answer alike. -/
theorem getJob_congr {q q' : JobQueue K D opts} {id : K}
    (h : ∀ j, j.id = id → (j ∈ q'.jobs ↔ j ∈ q.jobs)) : q'.getJob id = q.getJob id := by
  refine Option.ext fun j => ?_
  simp only [getJob_eq_some]
  exact ⟨fun ⟨hj, hid⟩ => ⟨(h j hid).mp hj, hid⟩, fun ⟨hj, hid⟩ => ⟨(h j hid).mpr hj, hid⟩⟩

/-- **A retained job that will not run has failed**, if completed jobs are removed. -/
theorem hasLive_or_hasFailed (hopts : opts.removeOnComplete = true)
    {q : JobQueue K D opts} {id : K} {j : Job K D} (h : q.getJob id = some j) :
    q.HasLive id ∨ q.HasFailed id := by
  have hj : j.state ≠ .completed := q.cleaned hopts j (getJob_eq_some.mp h).1
  rcases Job.live_or_failed hj with hl | hf
  · exact .inl ⟨j, h, hl⟩
  · exact .inr ⟨j, h, hf⟩

theorem not_hasFailed_of_hasLive {q : JobQueue K D opts} {id : K} (h : q.HasLive id) :
    ¬ q.HasFailed id := by
  obtain ⟨j, hj, hl⟩ := h
  rintro ⟨i, hi, hf⟩
  obtain rfl := Option.some.inj (hj.symm.trans hi)
  exact Job.not_failed_of_live hl hf

@[simp] theorem getJob_empty (id : K) : (empty : JobQueue K D opts).getJob id = none := rfl

theorem getJob_update {q : JobQueue K D opts} {id id' : K} {f : Job K D → Job K D}
    {hid : ∀ j, (f j).id = j.id}
    {hf : opts.removeOnComplete = true → ∀ j, (f j).state ≠ .completed} :
    (q.update id f hid hf).getJob id' =
      if id' = id then (q.getJob id).map f else q.getJob id' := by
  refine Option.ext fun j => ?_
  rw [getJob_eq_some]
  simp only [update, List.mem_map]
  split
  · rename_i h
    subst h
    rw [Option.map_eq_some_iff]
    constructor
    · rintro ⟨⟨i, hi, rfl⟩, hj⟩
      by_cases hii : i.id = id'
      · exact ⟨i, getJob_eq_some.mpr ⟨hi, hii⟩, (if_pos hii).symm⟩
      · rw [if_neg hii] at hj
        exact absurd hj hii
    · rintro ⟨i, hi, rfl⟩
      obtain ⟨hi, hii⟩ := getJob_eq_some.mp hi
      exact ⟨⟨i, hi, if_pos hii⟩, (hid i).trans hii⟩
  · rename_i hne
    rw [getJob_eq_some]
    constructor
    · rintro ⟨⟨i, hi, rfl⟩, hj⟩
      by_cases hii : i.id = id
      · rw [if_pos hii, hid] at hj
        exact absurd (hj.symm.trans hii) hne
      · rw [if_neg hii] at hj ⊢
        exact ⟨hi, hj⟩
    · rintro ⟨hj, hj'⟩
      exact ⟨⟨j, hj, if_neg fun h => hne (hj'.symm.trans h)⟩, hj'⟩

theorem getJob_remove {q : JobQueue K D opts} {id id' : K} :
    (q.remove id).getJob id' = if id' = id then none else q.getJob id' := by
  split
  · rename_i h
    rw [getJob_eq_none, h]
    simp [remove, restrict]
  · rename_i h
    refine getJob_congr fun j hj => ?_
    simp [remove, restrict, hj, h]

theorem getJob_append {q : JobQueue K D opts} {j : Job K D}
    {hid : j.id ∉ q.jobs.map Job.id} {hj : j.state ≠ .completed} {id : K} :
    (q.append j hid hj).getJob id = if id = j.id then some j else q.getJob id := by
  split
  · rename_i h
    rw [getJob_eq_some]
    exact ⟨List.mem_append_right _ (List.mem_singleton.mpr rfl), h.symm⟩
  · rename_i h
    refine getJob_congr fun i hi => ?_
    have hij : i ≠ j := by
      rintro rfl
      exact h hi.symm
    simp [append, hij]

/-! ### Operations -/

/-- Add a job; nothing happens if the queue still knows a job with this id. -/
def add (q : JobQueue K D opts) (id : K) (data : D) : JobQueue K D opts :=
  if h : q.getJob id = none then
    q.append (Job.new id data) (getJob_eq_none.mp h)
      (Job.not_completed_of_live (Job.new_live id data))
  else q

/-- A worker takes a waiting job under the lock token `t`. -/
def take (q : JobQueue K D opts) (id : K) (t : Nat) : Option (Job K D × JobQueue K D opts) :=
  match q.getJob id with
  | some j =>
    if j.state = .waiting then
      some (j, q.update id (fun j => { j with state := .active, token := some t })
        (fun _ => rfl) (by simp))
    else none
  | none => none

/-- The backoff of a delayed job elapses. -/
def promote (q : JobQueue K D opts) (id : K) : Option (JobQueue K D opts) :=
  match q.getJob id with
  | some j =>
    if j.state = .delayed then
      some (q.update id (fun j => { j with state := .waiting }) (fun _ => rfl) (by simp))
    else none
  | none => none

/-- Whether the worker with the lock token `t` holds the job. -/
def HeldBy (q : JobQueue K D opts) (id : K) (t : Nat) : Prop :=
  ∃ j, q.getJob id = some j ∧ j.state = .active ∧ j.token = some t

instance (q : JobQueue K D opts) (id : K) (t : Nat) : Decidable (q.HeldBy id t) :=
  inferInstanceAs (Decidable (∃ j ∈ q.getJob id, j.state = .active ∧ j.token = some t))

/-- The worker with the lock token `t` reports success. -/
def complete (q : JobQueue K D opts) (id : K) (t : Nat) : JobQueue K D opts :=
  if q.HeldBy id t then
    if h : opts.removeOnComplete = true then q.remove id
    else q.update id (fun j => { j with state := .completed, token := none }) (fun _ => rfl)
      (fun hc => absurd hc h)
  else q

/-- Retain a job as failed, evicting the oldest failed jobs beyond the bound. -/
def moveToFailed (q : JobQueue K D opts) (j : Job K D) : JobQueue K D opts :=
  let kept := (q.remove j.id).append { j with state := .failed, token := none }
    (getJob_eq_none.mp (by simp [getJob_remove])) (by simp)
  let failed := kept.jobs.countP fun j => j.state = .failed
  kept.restrict (dropFailed (failed - opts.removeOnFail) kept.jobs) (dropFailed_sublist _ _)

/-- The worker with the lock token `t` reports a failed attempt: the job is
retried after a backoff, or retained as failed after its last attempt. -/
def fail (q : JobQueue K D opts) (id : K) (t : Nat) : JobQueue K D opts :=
  match q.getJob id with
  | some j =>
    if q.HeldBy id t then
      if j.attemptsMade + 1 < opts.attempts then
        q.update id
          (fun j => { j with state := .delayed, attemptsMade := j.attemptsMade + 1, token := none })
          (fun _ => rfl) (by simp)
      else q.moveToFailed { j with attemptsMade := j.attemptsMade + 1 }
    else q
  | none => q

/-- The lock of an active job expires: it is run again, or retained as failed if
it stalled too often. -/
def stall (q : JobQueue K D opts) (id : K) : Option (JobQueue K D opts) :=
  match q.getJob id with
  | some j =>
    if j.state = .active then
      if j.stalledCounter + 1 ≤ opts.maxStalledCount then
        some (q.update id
          (fun j => { j with
            state := .waiting, stalledCounter := j.stalledCounter + 1, token := none })
          (fun _ => rfl) (by simp))
      else some (q.moveToFailed { j with stalledCounter := j.stalledCounter + 1 })
    else none
  | none => none

/-! ### What the operations do -/

/-- `add` creates a waiting job exactly when the id is unknown. -/
theorem getJob_add (q : JobQueue K D opts) (id id' : K) (data : D) :
    (q.add id data).getJob id' =
      if id' = id then some ((q.getJob id).getD (Job.new id data)) else q.getJob id' := by
  unfold add
  split
  · rename_i h
    rw [getJob_append, h]
    rfl
  · rename_i h
    obtain ⟨j, hj⟩ := Option.ne_none_iff_exists'.mp h
    rw [hj]
    split
    · rename_i h'
      rw [h', hj]
      rfl
    · rfl

/-- **Adding under a known id is a no-op.** -/
theorem add_of_getJob {q : JobQueue K D opts} {id : K} {j : Job K D} (data : D)
    (h : q.getJob id = some j) : q.add id data = q := by
  unfold add
  rw [dif_neg (by rw [h]; exact Option.some_ne_none j)]

/-- A job after an addition was there before, or is the new one. -/
theorem getJob_add_eq_some {q : JobQueue K D opts} {id id' : K} {data : D} {i : Job K D}
    (h : (q.add id data).getJob id' = some i) :
    q.getJob id' = some i ∨ (id' = id ∧ q.getJob id = none ∧ i = Job.new id data) := by
  rw [getJob_add] at h
  split at h
  · rename_i hid
    subst hid
    rcases hq : q.getJob id' with _ | j
    · rw [hq] at h
      exact .inr ⟨rfl, rfl, (Option.some.inj h).symm⟩
    · rw [hq] at h
      exact .inl h
  · exact .inl h

/-- **What `add` leaves behind**: a job that will run, unless a failed one was
retained under the id (completed ones being removed). -/
theorem hasLive_add_iff (hopts : opts.removeOnComplete = true) (q : JobQueue K D opts)
    (id : K) (data : D) : (q.add id data).HasLive id ↔ ¬ q.HasFailed id := by
  rcases h : q.getJob id with _ | j
  · refine iff_of_true ⟨Job.new id data, ?_, Job.new_live id data⟩ ?_
    · rw [getJob_add, if_pos rfl, h]
      rfl
    · rintro ⟨i, hi, -⟩
      rw [h] at hi
      cases hi
  · rw [add_of_getJob data h]
    constructor
    · exact not_hasFailed_of_hasLive
    · exact fun hnf => (hasLive_or_hasFailed hopts h).resolve_right hnf

/-- Inversion for `take`. -/
theorem take_eq_some {q q' : JobQueue K D opts} {id : K} {t : Nat} {j : Job K D}
    (h : q.take id t = some (j, q')) :
    q.getJob id = some j ∧ j.state = .waiting ∧ ∀ id', q'.getJob id' =
      if id' = id then some { j with state := .active, token := some t } else q.getJob id' := by
  unfold take at h
  split at h
  · rename_i i hi
    split at h
    · rename_i hw
      simp only [Option.some.injEq, Prod.mk.injEq] at h
      obtain ⟨rfl, rfl⟩ := h
      refine ⟨hi, hw, fun id' => ?_⟩
      rw [getJob_update, hi]
      rfl
    · cases h
  · cases h

/-- Inversion for `promote`. -/
theorem promote_eq_some {q q' : JobQueue K D opts} {id : K} (h : q.promote id = some q') :
    ∃ j, q.getJob id = some j ∧ j.state = .delayed ∧ ∀ id', q'.getJob id' =
      if id' = id then some { j with state := .waiting } else q.getJob id' := by
  unfold promote at h
  split at h
  · rename_i j hj
    split at h
    · rename_i hd
      obtain rfl := Option.some.inj h
      refine ⟨j, hj, hd, fun id' => ?_⟩
      rw [getJob_update, hj]
      rfl
    · cases h
  · cases h

/-- A report without the lock changes nothing. -/
theorem complete_of_not_heldBy {q : JobQueue K D opts} {id : K} {t : Nat}
    (h : ¬ q.HeldBy id t) : q.complete id t = q := by
  unfold complete
  rw [if_neg h]

/-- Completing under the lock removes the job, if the queue is configured so. -/
theorem getJob_complete (hopts : opts.removeOnComplete = true) {q : JobQueue K D opts}
    {id : K} {t : Nat} (h : q.HeldBy id t) (id' : K) :
    (q.complete id t).getJob id' = if id' = id then none else q.getJob id' := by
  unfold complete
  rw [if_pos h, dif_pos hopts, getJob_remove]

/-- Failing a job touches no other one, except that failed ones may be evicted;
the job itself is afterwards retained as failed, or evicted at once. -/
theorem getJob_moveToFailed {q : JobQueue K D opts} {j i : Job K D} {id : K}
    (h : (q.moveToFailed j).getJob id = some i) :
    (id = j.id ∧ i = { j with state := .failed, token := none }) ∨
      (id ≠ j.id ∧ q.getJob id = some i) := by
  have hmem := getJob_eq_some.mp h
  have hkept := (dropFailed_sublist _ _).subset hmem.1
  have hi := getJob_eq_some.mpr ⟨hkept, hmem.2⟩
  rw [getJob_append] at hi
  split at hi
  · rename_i hij
    exact .inl ⟨hij, (Option.some.inj hi).symm⟩
  · rename_i hij
    rw [getJob_remove, if_neg hij] at hi
    exact .inr ⟨hij, hi⟩

/-- Failing a job evicts no job that will still run. -/
theorem getJob_moveToFailed_of_ne {q : JobQueue K D opts} {j i : Job K D} {id : K}
    (hid : id ≠ j.id) (h : q.getJob id = some i) (hi : i.state ≠ .failed) :
    (q.moveToFailed j).getJob id = some i := by
  refine getJob_eq_some.mpr ⟨mem_dropFailed_of_ne_failed ?_ hi, id_of_getJob h⟩
  refine mem_of_getJob (?_ : getJob _ id = some i)
  rw [getJob_append, if_neg hid, getJob_remove, if_neg hid]
  exact h

/-- A failed attempt without the lock changes nothing. -/
theorem fail_of_not_heldBy {q : JobQueue K D opts} {id : K} {t : Nat}
    (h : ¬ q.HeldBy id t) : q.fail id t = q := by
  unfold fail
  split
  · exact if_neg h
  · rfl

/-- A failed attempt that is not the last one delays the job. -/
theorem getJob_fail_of_lt {q : JobQueue K D opts} {j : Job K D} {id : K} {t : Nat}
    (hj : q.getJob id = some j) (h : q.HeldBy id t) (hlt : j.attemptsMade + 1 < opts.attempts)
    (id' : K) : (q.fail id t).getJob id' =
      if id' = id then
        some { j with state := .delayed, attemptsMade := j.attemptsMade + 1, token := none }
      else q.getJob id' := by
  unfold fail
  rw [hj]
  dsimp only
  rw [if_pos h, if_pos hlt, getJob_update, hj]
  rfl

/-- The last failed attempt retains the job as failed. -/
theorem fail_of_le {q : JobQueue K D opts} {j : Job K D} {id : K} {t : Nat}
    (hj : q.getJob id = some j) (h : q.HeldBy id t) (hle : opts.attempts ≤ j.attemptsMade + 1) :
    q.fail id t = q.moveToFailed { j with attemptsMade := j.attemptsMade + 1 } := by
  unfold fail
  rw [hj]
  dsimp only
  rw [if_pos h, if_neg (by omega)]

/-- Inversion for `stall`. -/
theorem stall_eq_some {q q' : JobQueue K D opts} {id : K} (h : q.stall id = some q') :
    ∃ j, q.getJob id = some j ∧ j.state = .active ∧
      ((j.stalledCounter + 1 ≤ opts.maxStalledCount ∧ ∀ id', q'.getJob id' =
          if id' = id then
            some { j with
              state := .waiting, stalledCounter := j.stalledCounter + 1, token := none }
          else q.getJob id') ∨
        (opts.maxStalledCount < j.stalledCounter + 1 ∧
          q' = q.moveToFailed { j with stalledCounter := j.stalledCounter + 1 })) := by
  unfold stall at h
  split at h
  · rename_i j hj
    split at h
    · rename_i ha
      refine ⟨j, hj, ha, ?_⟩
      split at h
      · rename_i hle
        obtain rfl := Option.some.inj h
        refine .inl ⟨hle, fun id' => ?_⟩
        rw [getJob_update, hj]
        rfl
      · rename_i hlt
        exact .inr ⟨by omega, (Option.some.inj h).symm⟩
    · cases h
  · cases h

/-! ### Jobs keep their id and their payload -/

/-- Every job of `q'` is a job of `q` at another point of its life. -/
def Stems (q q' : JobQueue K D opts) : Prop :=
  ∀ id i, q'.getJob id = some i → ∃ j, q.getJob id = some j ∧ j.data = i.data

theorem Stems.refl (q : JobQueue K D opts) : q.Stems q := fun _ i hi => ⟨i, hi, rfl⟩

/-- A job that is replaced by a version of itself. -/
theorem stems_of_getJob {q q' : JobQueue K D opts} {id : K} {j i : Job K D}
    (hj : q.getJob id = some j)
    (h : ∀ id', q'.getJob id' = if id' = id then some i else q.getJob id')
    (hd : j.data = i.data) : q.Stems q' := by
  intro id' k hk
  rw [h] at hk
  split at hk
  · rename_i hid
    obtain rfl := Option.some.inj hk
    exact ⟨j, hid ▸ hj, hd⟩
  · exact ⟨k, hk, rfl⟩

theorem stems_moveToFailed {q : JobQueue K D opts} {j i : Job K D} {id : K}
    (hj : q.getJob id = some j) (hid : i.id = id) (hd : j.data = i.data) :
    q.Stems (q.moveToFailed i) := by
  intro id' k hk
  rcases getJob_moveToFailed hk with ⟨rfl, rfl⟩ | ⟨-, hk⟩
  · exact ⟨j, hid ▸ hj, hd⟩
  · exact ⟨k, hk, rfl⟩

theorem stems_take {q q' : JobQueue K D opts} {id : K} {t : Nat} {j : Job K D}
    (h : q.take id t = some (j, q')) : q.Stems q' := by
  obtain ⟨hj, -, h'⟩ := take_eq_some h
  exact stems_of_getJob hj h' rfl

theorem stems_promote {q q' : JobQueue K D opts} {id : K} (h : q.promote id = some q') :
    q.Stems q' := by
  obtain ⟨j, hj, -, h'⟩ := promote_eq_some h
  exact stems_of_getJob hj h' rfl

theorem stems_complete (hopts : opts.removeOnComplete = true) (q : JobQueue K D opts) (id : K)
    (t : Nat) : q.Stems (q.complete id t) := by
  by_cases h : q.HeldBy id t
  · intro id' i hi
    rw [getJob_complete hopts h] at hi
    split at hi
    · cases hi
    · exact ⟨i, hi, rfl⟩
  · rw [complete_of_not_heldBy h]
    exact Stems.refl q

theorem stems_fail (q : JobQueue K D opts) (id : K) (t : Nat) : q.Stems (q.fail id t) := by
  by_cases h : q.HeldBy id t
  · have ⟨j, hj, _⟩ := h
    by_cases hlt : j.attemptsMade + 1 < opts.attempts
    · exact stems_of_getJob hj (getJob_fail_of_lt hj h hlt) rfl
    · have hid : j.id = id := id_of_getJob hj
      rw [fail_of_le hj h (by omega)]
      exact stems_moveToFailed hj hid rfl
  · rw [fail_of_not_heldBy h]
    exact Stems.refl q

theorem stems_stall {q q' : JobQueue K D opts} {id : K} (h : q.stall id = some q') :
    q.Stems q' := by
  obtain ⟨j, hj, -, ⟨-, h'⟩ | ⟨-, rfl⟩⟩ := stall_eq_some h
  · exact stems_of_getJob hj h' rfl
  · have hid : j.id = id := id_of_getJob hj
    exact stems_moveToFailed hj hid rfl

/-- What relates the id and the payload of every job still does so afterwards. -/
theorem Stems.forall {q q' : JobQueue K D opts} (h : q.Stems q') (P : K → D → Prop)
    (hP : ∀ j ∈ q.jobs, P j.id j.data) : ∀ j ∈ q'.jobs, P j.id j.data := by
  intro i hi
  obtain ⟨j, hj, hd⟩ := h i.id i (getJob_eq_some.mpr ⟨hi, rfl⟩)
  obtain ⟨hj, hid⟩ := getJob_eq_some.mp hj
  rw [← hd, ← hid]
  exact hP j hj

/-! ### Live jobs come from live jobs -/

/-- Every job of `q'` that will still run would have run in `q`, with the same payload. -/
def Continues (q q' : JobQueue K D opts) : Prop :=
  ∀ id i, q'.getJob id = some i → i.Live → ∃ j, q.getJob id = some j ∧ j.data = i.data ∧ j.Live

theorem Continues.refl (q : JobQueue K D opts) : q.Continues q := fun _ i hi hl => ⟨i, hi, rfl, hl⟩

/-- A live job that is replaced by a version of itself. -/
theorem continues_of_getJob {q q' : JobQueue K D opts} {id : K} {j i : Job K D}
    (hj : q.getJob id = some j) (hl : j.Live)
    (h : ∀ id', q'.getJob id' = if id' = id then some i else q.getJob id')
    (hd : j.data = i.data) : q.Continues q' := by
  intro id' k hk hkl
  rw [h] at hk
  split at hk
  · rename_i hid
    obtain rfl := Option.some.inj hk
    exact ⟨j, hid ▸ hj, hd, hl⟩
  · exact ⟨k, hk, rfl, hkl⟩

theorem continues_moveToFailed (q : JobQueue K D opts) (j : Job K D) :
    q.Continues (q.moveToFailed j) := by
  intro id i hi hl
  rcases getJob_moveToFailed hi with ⟨-, rfl⟩ | ⟨-, hi⟩
  · exact absurd rfl (Job.not_failed_of_live hl)
  · exact ⟨i, hi, rfl, hl⟩

theorem continues_take {q q' : JobQueue K D opts} {id : K} {t : Nat} {j : Job K D}
    (h : q.take id t = some (j, q')) : q.Continues q' := by
  obtain ⟨hj, hw, h'⟩ := take_eq_some h
  exact continues_of_getJob hj (.inl hw) h' rfl

theorem continues_promote {q q' : JobQueue K D opts} {id : K} (h : q.promote id = some q') :
    q.Continues q' := by
  obtain ⟨j, hj, hd, h'⟩ := promote_eq_some h
  exact continues_of_getJob hj (.inr (.inr hd)) h' rfl

theorem continues_complete (hopts : opts.removeOnComplete = true) (q : JobQueue K D opts)
    (id : K) (t : Nat) : q.Continues (q.complete id t) := by
  by_cases h : q.HeldBy id t
  · intro id' i hi hl
    rw [getJob_complete hopts h] at hi
    split at hi
    · cases hi
    · exact ⟨i, hi, rfl, hl⟩
  · rw [complete_of_not_heldBy h]
    exact Continues.refl q

theorem continues_fail (q : JobQueue K D opts) (id : K) (t : Nat) : q.Continues (q.fail id t) := by
  by_cases h : q.HeldBy id t
  · have ⟨j, hj, ha, _⟩ := h
    by_cases hlt : j.attemptsMade + 1 < opts.attempts
    · exact continues_of_getJob hj (.inr (.inl ha)) (getJob_fail_of_lt hj h hlt) rfl
    · rw [fail_of_le hj h (by omega)]
      exact continues_moveToFailed q _
  · rw [fail_of_not_heldBy h]
    exact Continues.refl q

theorem continues_stall {q q' : JobQueue K D opts} {id : K} (h : q.stall id = some q') :
    q.Continues q' := by
  obtain ⟨j, hj, ha, ⟨-, h'⟩ | ⟨-, rfl⟩⟩ := stall_eq_some h
  · exact continues_of_getJob hj (.inr (.inl ha)) h' rfl
  · exact continues_moveToFailed q _

/-! ### Held jobs -/

/-- The worker with the lock token `t` holds a job with this payload. -/
def Holds (q : JobQueue K D opts) (id : K) (t : Nat) (data : D) : Prop :=
  ∃ j, q.getJob id = some j ∧ j.state = .active ∧ j.token = some t ∧ j.data = data

/-- Two workers do not hold one job. -/
theorem Holds.unique {q : JobQueue K D opts} {id : K} {t t' : Nat} {data data' : D}
    (h : q.Holds id t data) (h' : q.Holds id t' data') : t = t' := by
  obtain ⟨j, hj, -, ht, -⟩ := h
  obtain ⟨j', hj', -, ht', -⟩ := h'
  obtain rfl := Option.some.inj (hj.symm.trans hj')
  exact Option.some.inj (ht.symm.trans ht')

/-- What leaves a job alone leaves it held. -/
theorem Holds.congr {q q' : JobQueue K D opts} {id : K} {t : Nat} {data : D}
    (h : q.Holds id t data) (hq : q'.getJob id = q.getJob id) : q'.Holds id t data := by
  obtain ⟨j, hj, hrest⟩ := h
  exact ⟨j, hq.trans hj, hrest⟩

/-- An active job is not replaced by an operation on a job in another state. -/
theorem Holds.of_ne_active {q q' : JobQueue K D opts} {id id' : K} {t : Nat} {data : D}
    {j i : Job K D} (h : q.Holds id t data) (hj : q.getJob id' = some j) (hs : j.state ≠ .active)
    (hq : ∀ k, q'.getJob k = if k = id' then some i else q.getJob k) : q'.Holds id t data := by
  refine h.congr ((hq id).trans (if_neg ?_))
  rintro rfl
  obtain ⟨j', hj', ha, -⟩ := h
  obtain rfl := Option.some.inj (hj.symm.trans hj')
  exact hs ha

theorem Holds.moveToFailed {q : JobQueue K D opts} {id : K} {t : Nat} {data : D} {i : Job K D}
    (h : q.Holds id t data) (hid : id ≠ i.id) : (q.moveToFailed i).Holds id t data := by
  obtain ⟨j, hj, ha, hrest⟩ := h
  exact ⟨j, getJob_moveToFailed_of_ne hid hj (by rw [ha]; decide), ha, hrest⟩

theorem Holds.take {q q' : JobQueue K D opts} {id id' : K} {t t' : Nat} {data : D}
    {j : Job K D} (h : q.Holds id t data) (ht : q.take id' t' = some (j, q')) :
    q'.Holds id t data := by
  obtain ⟨hj, hw, hq⟩ := take_eq_some ht
  exact h.of_ne_active hj (by rw [hw]; decide) hq

/-- Taking a job is holding it. -/
theorem holds_take {q q' : JobQueue K D opts} {id : K} {t : Nat} {j : Job K D}
    (h : q.take id t = some (j, q')) : q'.Holds id t j.data := by
  obtain ⟨-, -, hq⟩ := take_eq_some h
  exact ⟨_, (hq id).trans (if_pos rfl), rfl, rfl, rfl⟩

theorem Holds.promote {q q' : JobQueue K D opts} {id id' : K} {t : Nat} {data : D}
    (h : q.Holds id t data) (hp : q.promote id' = some q') : q'.Holds id t data := by
  obtain ⟨j, hj, hd, hq⟩ := promote_eq_some hp
  exact h.of_ne_active hj (by rw [hd]; decide) hq

theorem Holds.add {q : JobQueue K D opts} {id id' : K} {t : Nat} {data data' : D}
    (h : q.Holds id t data) : (q.add id' data').Holds id t data := by
  refine h.congr ?_
  rw [getJob_add]
  split
  · rename_i hid
    obtain ⟨j, hj, -⟩ := h
    rw [← hid, hj]
    rfl
  · rfl

/-- A job is out of reach of other workers' lock tokens. -/
theorem Holds.not_heldBy {q : JobQueue K D opts} {id : K} {t t' : Nat} {data : D}
    (h : q.Holds id t data) (hne : t ≠ t') : ¬ q.HeldBy id t' := by
  rintro ⟨j, hj, ha, ht⟩
  exact hne (h.unique ⟨j, hj, ha, ht, rfl⟩)

theorem Holds.complete (hopts : opts.removeOnComplete = true) {q : JobQueue K D opts} {id id' : K}
    {t t' : Nat} {data : D} (h : q.Holds id t data) (hne : t ≠ t') :
    (q.complete id' t').Holds id t data := by
  by_cases hheld : q.HeldBy id' t'
  · refine h.congr ((getJob_complete hopts hheld id).trans (if_neg ?_))
    rintro rfl
    exact h.not_heldBy hne hheld
  · rw [complete_of_not_heldBy hheld]
    exact h

theorem Holds.fail {q : JobQueue K D opts} {id id' : K} {t t' : Nat} {data : D}
    (h : q.Holds id t data) (hne : t ≠ t') : (q.fail id' t').Holds id t data := by
  by_cases hheld : q.HeldBy id' t'
  · have ⟨j, hj, _⟩ := hheld
    have hid : id ≠ id' := by
      rintro rfl
      exact h.not_heldBy hne hheld
    by_cases hlt : j.attemptsMade + 1 < opts.attempts
    · exact h.congr ((getJob_fail_of_lt hj hheld hlt id).trans (if_neg hid))
    · have hjid : j.id = id' := id_of_getJob hj
      rw [fail_of_le hj hheld (by omega)]
      exact h.moveToFailed (by simpa [hjid] using hid)
  · rw [fail_of_not_heldBy hheld]
    exact h

theorem Holds.stall {q q' : JobQueue K D opts} {id id' : K} {t : Nat} {data : D}
    (h : q.Holds id t data) (hid : id ≠ id') (hs : q.stall id' = some q') :
    q'.Holds id t data := by
  obtain ⟨j, hj, -, ⟨-, hq⟩ | ⟨-, rfl⟩⟩ := stall_eq_some hs
  · exact h.congr ((hq id).trans (if_neg hid))
  · have hjid : j.id = id' := id_of_getJob hj
    exact h.moveToFailed (by simpa [hjid] using hid)

/-! ### Payloads -/

/-- Adding a job that satisfies the relation keeps it. -/
theorem forall_add {q : JobQueue K D opts} {id : K} {data : D} (P : K → D → Prop)
    (hP : ∀ j ∈ q.jobs, P j.id j.data) (h : P id data) :
    ∀ j ∈ (q.add id data).jobs, P j.id j.data := by
  intro i hi
  have hi' := getJob_eq_some.mpr ⟨hi, rfl⟩
  rw [getJob_add] at hi'
  split at hi'
  · rename_i hid
    rcases hq : q.getJob id with _ | j
    · rw [hq] at hi'
      obtain rfl := Option.some.inj hi'
      exact h
    · rw [hq] at hi'
      obtain rfl := Option.some.inj hi'
      exact hP _ (getJob_eq_some.mp hq).1
  · exact hP i (getJob_eq_some.mp hi').1

/-- Where the id determines, or is determined by, a part `f` of the payload, a live job
with that part is the live job with that id. -/
theorem exists_live_iff_hasLive {α : Type*} {q : JobQueue K D opts} (f : D → α) {key : α → K}
    (hkey : Function.Injective key) (hq : ∀ j ∈ q.jobs, j.id = key (f j.data)) (a : α) :
    (∃ j ∈ q.jobs, j.Live ∧ f j.data = a) ↔ q.HasLive (key a) := by
  constructor
  · rintro ⟨j, hj, hl, rfl⟩
    exact ⟨j, getJob_eq_some.mpr ⟨hj, hq j hj⟩, hl⟩
  · rintro ⟨j, hj, hl⟩
    obtain ⟨hj, hid⟩ := getJob_eq_some.mp hj
    exact ⟨j, hj, hl, hkey ((hq j hj).symm.trans hid)⟩

/-! ### Live jobs go on, and few fail -/

section Fates

variable {q q' : JobQueue K D opts} {id id' : K} {t : Nat}

/-- The attempt of the worker that holds the job is the last one. -/
def LastAttempt (q : JobQueue K D opts) (id : K) (t : Nat) : Prop :=
  q.HeldBy id t ∧ ∃ j, q.getJob id = some j ∧ opts.attempts ≤ j.attemptsMade + 1

/-- The job has stalled as often as it may. -/
def LastStall (q : JobQueue K D opts) (id : K) : Prop :=
  ∃ j, q.getJob id = some j ∧ opts.maxStalledCount < j.stalledCounter + 1

/-- The job has failed, or another worker than the one with the lock token `t` holds it. -/
def Withheld (q : JobQueue K D opts) (id : K) (t : Nat) : Prop :=
  ∃ j, q.getJob id = some j ∧ (j.state = .failed ∨ j.state = .active ∧ j.token ≠ some t)

instance : Decidable (q.LastAttempt id t) :=
  inferInstanceAs (Decidable (_ ∧ ∃ j ∈ q.getJob id, _))

instance : Decidable (q.LastStall id) := inferInstanceAs (Decidable (∃ j ∈ q.getJob id, _))

instance : Decidable (q.Withheld id t) := inferInstanceAs (Decidable (∃ j ∈ q.getJob id, _))

theorem HasFailed.withheld (h : q.HasFailed id) (t : Nat) : q.Withheld id t := by
  obtain ⟨j, hj, hf⟩ := h
  exact ⟨j, hj, .inl hf⟩

theorem HeldBy.withheld (h : q.HeldBy id t) {u : Nat} (hu : t ≠ u) : q.Withheld id u := by
  obtain ⟨j, hj, ha, ht⟩ := h
  refine ⟨j, hj, .inr ⟨ha, fun htoken => hu ?_⟩⟩
  exact Option.some.inj (ht.symm.trans htoken)

theorem HeldBy.hasLive (h : q.HeldBy id t) : q.HasLive id := by
  obtain ⟨j, hj, ha, -⟩ := h
  exact ⟨j, hj, .inr (.inl ha)⟩

/-- A queue that leaves the jobs as they are, but for one that goes on living. -/
theorem hasLive_of_getJob {i : Job K D} (hi : i.Live)
    (hq : ∀ k, q'.getJob k = if k = id then some i else q.getJob k) (h : q.HasLive id') :
    q'.HasLive id' := by
  by_cases hid : id' = id
  · exact ⟨i, (hq id').trans (if_pos hid), hi⟩
  · obtain ⟨j, hj, hl⟩ := h
    exact ⟨j, ((hq id').trans (if_neg hid)).trans hj, hl⟩

/-- A queue that leaves the jobs as they are, but for one that has not failed. -/
theorem hasFailed_of_getJob {i : Job K D} (hi : i.state ≠ .failed)
    (hq : ∀ k, q'.getJob k = if k = id then some i else q.getJob k) (h : q'.HasFailed id') :
    q.HasFailed id' := by
  obtain ⟨j, hj, hf⟩ := h
  rw [hq] at hj
  split at hj
  · obtain rfl := Option.some.inj hj
    exact absurd hf hi
  · exact ⟨j, hj, hf⟩

/-- Moving a job to the failed ones leaves the other live jobs. -/
theorem hasLive_moveToFailed {j : Job K D} (hid : id' ≠ j.id) (h : q.HasLive id') :
    (q.moveToFailed j).HasLive id' := by
  obtain ⟨i, hi, hl⟩ := h
  exact ⟨i, getJob_moveToFailed_of_ne hid hi (Job.not_failed_of_live hl), hl⟩

theorem hasFailed_moveToFailed {j : Job K D} (h : (q.moveToFailed j).HasFailed id') :
    id' = j.id ∨ q.HasFailed id' := by
  obtain ⟨i, hi, hf⟩ := h
  rcases getJob_moveToFailed hi with ⟨hid, -⟩ | ⟨-, hi⟩
  · exact .inl hid
  · exact .inr ⟨i, hi, hf⟩

theorem HasLive.add {data : D} (h : q.HasLive id') : (q.add id data).HasLive id' := by
  obtain ⟨j, hj, hl⟩ := h
  refine ⟨j, ?_, hl⟩
  rw [getJob_add]
  split
  · rename_i hid
    rw [← hid, hj]
    rfl
  · exact hj

theorem HasFailed.of_add {data : D} (h : (q.add id data).HasFailed id') : q.HasFailed id' := by
  obtain ⟨j, hj, hf⟩ := h
  rcases getJob_add_eq_some hj with hj | ⟨-, -, rfl⟩
  · exact ⟨j, hj, hf⟩
  · cases hf

theorem HasLive.take {j : Job K D} (h : q.HasLive id') (ht : q.take id t = some (j, q')) :
    q'.HasLive id' := by
  obtain ⟨-, -, hq⟩ := take_eq_some ht
  exact hasLive_of_getJob (.inr (.inl rfl)) hq h

theorem HasFailed.of_take {j : Job K D} (ht : q.take id t = some (j, q'))
    (h : q'.HasFailed id') : q.HasFailed id' := by
  obtain ⟨-, -, hq⟩ := take_eq_some ht
  exact hasFailed_of_getJob (fun hf => by cases hf) hq h

theorem HasLive.promote (h : q.HasLive id') (hp : q.promote id = some q') : q'.HasLive id' := by
  obtain ⟨j, -, -, hq⟩ := promote_eq_some hp
  exact hasLive_of_getJob (.inl rfl) hq h

theorem HasFailed.of_promote (hp : q.promote id = some q') (h : q'.HasFailed id') :
    q.HasFailed id' := by
  obtain ⟨j, -, -, hq⟩ := promote_eq_some hp
  exact hasFailed_of_getJob (fun hf => by cases hf) hq h

theorem HasLive.complete (hopts : opts.removeOnComplete = true) (h : q.HasLive id')
    (hid : id' ≠ id) : (q.complete id t).HasLive id' := by
  by_cases hheld : q.HeldBy id t
  · obtain ⟨j, hj, hl⟩ := h
    exact ⟨j, ((getJob_complete hopts hheld id').trans (if_neg hid)).trans hj, hl⟩
  · rwa [complete_of_not_heldBy hheld]

theorem HasFailed.of_complete (hopts : opts.removeOnComplete = true)
    (h : (q.complete id t).HasFailed id') : q.HasFailed id' := by
  by_cases hheld : q.HeldBy id t
  · obtain ⟨j, hj, hf⟩ := h
    rw [getJob_complete hopts hheld] at hj
    split at hj
    · cases hj
    · exact ⟨j, hj, hf⟩
  · rwa [complete_of_not_heldBy hheld] at h

/-- A failed attempt that is not the last one. -/
theorem HasLive.fail (h : q.HasLive id') (hlast : id' = id → ¬q.LastAttempt id t) :
    (q.fail id t).HasLive id' := by
  by_cases hheld : q.HeldBy id t
  · have ⟨j, hj, _⟩ := hheld
    by_cases hlt : j.attemptsMade + 1 < opts.attempts
    · exact hasLive_of_getJob (.inr (.inr rfl)) (getJob_fail_of_lt hj hheld hlt) h
    · have hjid : j.id = id := id_of_getJob hj
      rw [fail_of_le hj hheld (by omega)]
      refine hasLive_moveToFailed (fun hid => ?_) h
      exact hlast (hid.trans hjid) ⟨hheld, j, hj, by omega⟩
  · rwa [fail_of_not_heldBy hheld]

theorem HasFailed.of_fail (h : (q.fail id t).HasFailed id') :
    (id' = id ∧ q.LastAttempt id t) ∨ q.HasFailed id' := by
  by_cases hheld : q.HeldBy id t
  · have ⟨j, hj, _⟩ := hheld
    by_cases hlt : j.attemptsMade + 1 < opts.attempts
    · refine .inr (hasFailed_of_getJob (fun hf => ?_) (getJob_fail_of_lt hj hheld hlt) h)
      cases hf
    · have hjid : j.id = id := id_of_getJob hj
      rw [fail_of_le hj hheld (by omega)] at h
      exact (hasFailed_moveToFailed h).imp_left fun hid =>
        ⟨hid.trans hjid, hheld, j, hj, by omega⟩
  · exact .inr (by rwa [fail_of_not_heldBy hheld] at h)

/-- A stall that is not the last one. -/
theorem HasLive.stall (h : q.HasLive id') (hs : q.stall id = some q')
    (hlast : id' = id → ¬q.LastStall id) : q'.HasLive id' := by
  obtain ⟨j, hj, -, ⟨-, hq⟩ | ⟨hlt, rfl⟩⟩ := stall_eq_some hs
  · exact hasLive_of_getJob (.inl rfl) hq h
  · have hjid : j.id = id := id_of_getJob hj
    exact hasLive_moveToFailed (fun hid => hlast (hid.trans hjid) ⟨j, hj, hlt⟩) h

theorem HasFailed.of_stall (hs : q.stall id = some q') (h : q'.HasFailed id') :
    (id' = id ∧ q.LastStall id) ∨ q.HasFailed id' := by
  obtain ⟨j, hj, -, ⟨-, hq⟩ | ⟨hlt, rfl⟩⟩ := stall_eq_some hs
  · exact .inr (hasFailed_of_getJob (fun hf => by cases hf) hq h)
  · have hjid : j.id = id := id_of_getJob hj
    exact (hasFailed_moveToFailed h).imp_left fun hid => ⟨hid.trans hjid, j, hj, hlt⟩

/-- The worker with the lock token `t` holds the job `j`. -/
def HoldsJob (q : JobQueue K D opts) (id : K) (t : Nat) (j : Job K D) : Prop :=
  q.getJob id = some j ∧ j.state = .active ∧ j.token = some t

/-- A queue that leaves the jobs as they are, but for one the worker does not hold. -/
theorem holdsJob_of_getJob {i j : Job K D} (hi : i.state = .active → i.token ≠ some t)
    (hq : ∀ k, q'.getJob k = if k = id then some i else q.getJob k)
    (h : q'.HoldsJob id' t j) : q.HoldsJob id' t j := by
  obtain ⟨hj, ha, ht⟩ := h
  rw [hq] at hj
  split at hj
  · obtain rfl := Option.some.inj hj
    exact absurd ht (hi ha)
  · exact ⟨hj, ha, ht⟩

theorem holdsJob_of_moveToFailed {i j : Job K D} (h : (q.moveToFailed i).HoldsJob id t j) :
    q.HoldsJob id t j := by
  obtain ⟨hj, ha, ht⟩ := h
  rcases getJob_moveToFailed hj with ⟨-, rfl⟩ | ⟨-, hj⟩
  · cases ht
  · exact ⟨hj, ha, ht⟩

theorem HoldsJob.of_add {data : D} {j : Job K D} (h : (q.add id data).HoldsJob id' t j) :
    q.HoldsJob id' t j := by
  obtain ⟨hj, ha, ht⟩ := h
  rcases getJob_add_eq_some hj with hj | ⟨-, -, rfl⟩
  · exact ⟨hj, ha, ht⟩
  · cases ht

theorem HoldsJob.of_take {u : Nat} {i j : Job K D} (ht : q.take id u = some (i, q'))
    (hu : t ≠ u) (h : q'.HoldsJob id' t j) : q.HoldsJob id' t j := by
  obtain ⟨-, -, hq⟩ := take_eq_some ht
  exact holdsJob_of_getJob (fun _ htoken => hu (Option.some.inj htoken).symm) hq h

/-- The job that was taken. -/
theorem holdsJob_take {i j : Job K D} (ht : q.take id t = some (i, q'))
    (h : q'.HoldsJob id t j) : j = { i with state := .active, token := some t } := by
  obtain ⟨-, -, hq⟩ := take_eq_some ht
  obtain ⟨hj, -⟩ := h
  rw [hq, if_pos rfl] at hj
  exact (Option.some.inj hj).symm

theorem HoldsJob.of_promote {j : Job K D} (hp : q.promote id = some q')
    (h : q'.HoldsJob id' t j) : q.HoldsJob id' t j := by
  obtain ⟨i, -, -, hq⟩ := promote_eq_some hp
  exact holdsJob_of_getJob (fun ha => by cases ha) hq h

theorem HoldsJob.of_complete (hopts : opts.removeOnComplete = true) {u : Nat} {j : Job K D}
    (h : (q.complete id u).HoldsJob id' t j) : q.HoldsJob id' t j := by
  by_cases hheld : q.HeldBy id u
  · obtain ⟨hj, ha, ht⟩ := h
    rw [getJob_complete hopts hheld] at hj
    split at hj
    · cases hj
    · exact ⟨hj, ha, ht⟩
  · rwa [complete_of_not_heldBy hheld] at h

theorem HoldsJob.of_fail {u : Nat} {j : Job K D} (h : (q.fail id u).HoldsJob id' t j) :
    q.HoldsJob id' t j := by
  by_cases hheld : q.HeldBy id u
  · have ⟨i, hi, _⟩ := hheld
    by_cases hlt : i.attemptsMade + 1 < opts.attempts
    · exact holdsJob_of_getJob (fun ha => by cases ha) (getJob_fail_of_lt hi hheld hlt) h
    · rw [fail_of_le hi hheld (by omega)] at h
      exact holdsJob_of_moveToFailed h
  · rwa [fail_of_not_heldBy hheld] at h

theorem HoldsJob.of_stall {j : Job K D} (hs : q.stall id = some q') (h : q'.HoldsJob id' t j) :
    q.HoldsJob id' t j := by
  obtain ⟨i, hi, -, ⟨-, hq⟩ | ⟨-, rfl⟩⟩ := stall_eq_some hs
  · exact holdsJob_of_getJob (fun ha => by cases ha) hq h
  · exact holdsJob_of_moveToFailed h

theorem HeldBy.of_add {data : D} (h : (q.add id data).HeldBy id' t) : q.HeldBy id' t :=
  h.imp fun _ => HoldsJob.of_add

theorem HeldBy.of_take {u : Nat} {j : Job K D} (ht : q.take id u = some (j, q')) (hu : t ≠ u)
    (h : q'.HeldBy id' t) : q.HeldBy id' t :=
  h.imp fun _ => HoldsJob.of_take ht hu

theorem HeldBy.of_promote (hp : q.promote id = some q') (h : q'.HeldBy id' t) :
    q.HeldBy id' t :=
  h.imp fun _ => HoldsJob.of_promote hp

theorem HeldBy.of_complete (hopts : opts.removeOnComplete = true) {u : Nat}
    (h : (q.complete id u).HeldBy id' t) : q.HeldBy id' t :=
  h.imp fun _ => HoldsJob.of_complete hopts

theorem HeldBy.of_fail {u : Nat} (h : (q.fail id u).HeldBy id' t) : q.HeldBy id' t :=
  h.imp fun _ => HoldsJob.of_fail

theorem HeldBy.of_stall (hs : q.stall id = some q') (h : q'.HeldBy id' t) : q.HeldBy id' t :=
  h.imp fun _ => HoldsJob.of_stall hs

end Fates

end JobQueue

end Feedpulse
