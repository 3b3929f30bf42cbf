import Feedpulse.Ingestion
import Feedpulse.Scheduling
import Feedpulse.Transition

/-!
# The running system

Processes over the shared state. A process is a role and the program it still has to
execute; it is started by a tick of the scheduler, by a tenant's request or by a
worker that takes a job, advances one call at a time in any interleaving with the
others, and can crash between any two calls. When the process of a worker ends, the
queue is told whether its job succeeded; when a worker crashes, the lock on its job
expires at some point and the queue hands the job out again.
-/

namespace Feedpulse

/-! ## Processes -/

/-- What a process was started for. -/
inductive Role
  /-- a tick of the scheduler -/
  | scheduler
  /-- a tenant's request -/
  | request
  /-- a worker on a fetch job -/
  | fetchWorker (jobId : String) (feedId : Nat)
  /-- a worker on a delivery job -/
  | deliveryWorker (jobId : String) (input : DeliveryInput)
  deriving DecidableEq, Repr

/-- A process: its role, and the rest of its program. -/
structure Process where
  /-- what the process was started for -/
  role : Role
  /-- what it still has to execute -/
  prog : Program Unit

/-- The state of the system. -/
structure System where
  /-- the shared state -/
  world : World
  /-- the running processes -/
  procs : Nat → Option Process

/-- What stays fixed while the system runs. -/
structure Deployment where
  /-- the configuration -/
  config : AppConfig
  /-- the runtime and the third-party packages -/
  rt : Runtime
  /-- the canonicaliser of article links -/
  canonicalizeArticleLink : Option String → Option String

/-- A tenant's request. -/
inductive Request
  /-- `PATCH /feeds/:id` -/
  | updateFeed (tenantId : String) (id : Nat) (status : Option FeedStatus)
    (pollIntervalSeconds : Option Nat)
  /-- `DELETE /feeds/:id` -/
  | disableFeed (id : Nat) (tenantId : String)
  /-- `POST /feeds/:id/check-now` -/
  | checkFeedNow (id : Nat) (tenantId : String)
  /-- `POST /alerts/:id/send` -/
  | sendAlert (alertId : Nat) (tenantId : Option String)
  deriving DecidableEq, Repr

/-- A step of the system. -/
inductive Action
  /-- time passes -/
  | elapse (ms : Nat)
  /-- a scheduler starts a tick -/
  | tick (pid : Nat)
  /-- a request arrives -/
  | request (pid : Nat) (r : Request)
  /-- a worker takes a fetch job -/
  | takeFetch (pid : Nat) (jobId : String)
  /-- a worker takes a delivery job -/
  | takeDelivery (pid : Nat) (jobId : String)
  /-- the next call of a process is answered -/
  | advance (pid : Nat) (out : Outcome)
  /-- a process that has ended leaves -/
  | finish (pid : Nat)
  /-- a process dies -/
  | crash (pid : Nat)
  /-- the backoff of a fetch job elapses -/
  | promoteFetch (jobId : String)
  /-- the backoff of a delivery job elapses -/
  | promoteDelivery (jobId : String)
  /-- the lock on a fetch job expires -/
  | stallFetch (jobId : String)
  /-- the lock on a delivery job expires -/
  | stallDelivery (jobId : String)
  /-- a tenant saves its settings -/
  | saveSettings (row : TenantSettingsRow)
  deriving DecidableEq, Repr

namespace System

/-- Put a process into the table, or remove one. -/
def setProc (procs : Nat → Option Process) (pid : Nat) (p : Option Process) :
    Nat → Option Process :=
  fun q => if q = pid then p else procs q

@[simp] theorem setProc_self (procs : Nat → Option Process) (pid : Nat) (p : Option Process) :
    setProc procs pid p pid = p := if_pos rfl

theorem setProc_of_ne {procs : Nat → Option Process} {pid q : Nat} {p : Option Process}
    (h : q ≠ pid) : setProc procs pid p q = procs q := if_neg h

/-- Forget the result of a program. -/
def ignore {α : Type} (p : Program α) : Program Unit := do
  let _ ← p

section Step

variable (d : Deployment)

/-- The program of a request. -/
def requestProgram : Request → Program Unit
  | .updateFeed tenantId id status pollIntervalSeconds =>
    ignore (FeedActions.updateFeed tenantId id status pollIntervalSeconds)
  | .disableFeed id tenantId => FeedActions.disableFeed id tenantId
  | .checkFeedNow id tenantId => ignore (FeedActions.checkFeedNow id tenantId)
  | .sendAlert alertId tenantId => ignore (DeliverAlert.executeManual alertId tenantId)

/-- The program of a worker on a fetch job. -/
def fetchProgram (feedId : Nat) : Program Unit :=
  ignore (ProcessFeedJob.execute d.rt d.canonicalizeArticleLink feedId)

/-- What the delivery worker passes on from its job. -/
def deliveryInput (job : Job String AlertDeliveryJobData) : DeliveryInput :=
  { alertId := job.data.alertId
    attemptNumber := job.attemptsMade + 1
    willRetry := job.attemptsMade + 1 < alertQueueOptions.attempts }

/-- Start a process, if its id is free. -/
def start (s : System) (pid : Nat) (role : Role) (prog : Program Unit) : Option System :=
  match s.procs pid with
  | none => some { s with procs := setProc s.procs pid (some { role := role, prog := prog }) }
  | some _ => none

/-- Tell the queue how the job of an ended process went. -/
def report (w : World) (pid : Nat) (role : Role) (succeeded : Bool) : World :=
  match role with
  | .fetchWorker jobId _ =>
    { w with
      fetchQueue :=
        if succeeded then w.fetchQueue.complete jobId pid else w.fetchQueue.fail jobId pid }
  | .deliveryWorker jobId _ =>
    { w with
      alertQueue :=
        if succeeded then w.alertQueue.complete jobId pid else w.alertQueue.fail jobId pid }
  | _ => w

/-- One step. -/
def step (s : System) : Action → Option System
  | .elapse ms => some { s with world := { s.world with now := s.world.now + ms } }
  | .tick pid => s.start pid .scheduler (Scheduler.tick d.config d.rt)
  | .request pid r => s.start pid .request (requestProgram r)
  | .takeFetch pid jobId =>
    (s.world.fetchQueue.take jobId pid).bind fun (job, q) =>
      { s with world := { s.world with fetchQueue := q } }.start pid
        (.fetchWorker jobId job.data.feedId) (fetchProgram d job.data.feedId)
  | .takeDelivery pid jobId =>
    (s.world.alertQueue.take jobId pid).bind fun (job, q) =>
      { s with world := { s.world with alertQueue := q } }.start pid
        (.deliveryWorker jobId (deliveryInput job))
        (ProcessAlertDelivery.execute d.config d.rt (deliveryInput job))
  | .advance pid out =>
    match s.procs pid with
    | some ⟨role, .call c k⟩ =>
      (c.answer pid s.world out).map fun (r, w) =>
        { world := w, procs := setProc s.procs pid (some ⟨role, k r⟩) }
    | _ => none
  | .finish pid =>
    match s.procs pid with
    | some ⟨role, .ret ()⟩ =>
      some { world := report s.world pid role true, procs := setProc s.procs pid none }
    | some ⟨role, .throw _⟩ =>
      some { world := report s.world pid role false, procs := setProc s.procs pid none }
    | _ => none
  | .crash pid =>
    match s.procs pid with
    | some _ => some { world := s.world.dropTxn pid, procs := setProc s.procs pid none }
    | none => none
  | .promoteFetch jobId =>
    (s.world.fetchQueue.promote jobId).map fun q =>
      { s with world := { s.world with fetchQueue := q } }
  | .promoteDelivery jobId =>
    (s.world.alertQueue.promote jobId).map fun q =>
      { s with world := { s.world with alertQueue := q } }
  | .stallFetch jobId =>
    (s.world.fetchQueue.stall jobId).map fun q =>
      { s with world := { s.world with fetchQueue := q } }
  | .stallDelivery jobId =>
    (s.world.alertQueue.stall jobId).map fun q =>
      { s with world := { s.world with alertQueue := q } }
  | .saveSettings row =>
    some { s with world := { s.world with
      settings := row :: s.world.settings.filter fun r => r.tenantId ≠ row.tenantId } }

end Step

/-! ## Inversion

One lemma per kind of step, so that no invariant has to unfold `step`. -/

variable {d : Deployment} {s s' : System}

/-- Inversion for `start`. -/
theorem start_eq_some {pid : Nat} {role : Role} {prog : Program Unit}
    (h : s.start pid role prog = some s') :
    s.procs pid = none ∧
      s' = { s with procs := setProc s.procs pid (some { role := role, prog := prog }) } := by
  unfold start at h
  split at h
  · rename_i hp
    exact ⟨hp, (Option.some.inj h).symm⟩
  · cases h

/-- Inversion for `takeFetch`. -/
theorem takeFetch_eq_some {pid : Nat} {jobId : String}
    (h : step d s (.takeFetch pid jobId) = some s') :
    ∃ job q, s.world.fetchQueue.take jobId pid = some (job, q) ∧ s.procs pid = none ∧
      s' = { world := { s.world with fetchQueue := q },
             procs := setProc s.procs pid (some { role := .fetchWorker jobId job.data.feedId,
                                                  prog := fetchProgram d job.data.feedId }) } := by
  obtain ⟨⟨job, q⟩, ht, hs⟩ := Option.bind_eq_some_iff.mp h
  obtain ⟨hp, rfl⟩ := start_eq_some hs
  exact ⟨job, q, ht, hp, rfl⟩

/-- Inversion for `takeDelivery`. -/
theorem takeDelivery_eq_some {pid : Nat} {jobId : String}
    (h : step d s (.takeDelivery pid jobId) = some s') :
    ∃ job q, s.world.alertQueue.take jobId pid = some (job, q) ∧ s.procs pid = none ∧
      s' = { world := { s.world with alertQueue := q },
             procs := setProc s.procs pid
               (some { role := .deliveryWorker jobId (deliveryInput job),
                       prog := ProcessAlertDelivery.execute d.config d.rt (deliveryInput job) })
           } := by
  obtain ⟨⟨job, q⟩, ht, hs⟩ := Option.bind_eq_some_iff.mp h
  obtain ⟨hp, rfl⟩ := start_eq_some hs
  exact ⟨job, q, ht, hp, rfl⟩

/-- Inversion for `advance`. -/
theorem advance_eq_some {pid : Nat} {out : Outcome} (h : step d s (.advance pid out) = some s') :
    ∃ role c k r w, s.procs pid = some ⟨role, .call c k⟩ ∧
      c.answer pid s.world out = some (r, w) ∧
      s' = { world := w, procs := setProc s.procs pid (some ⟨role, k r⟩) } := by
  simp only [step] at h
  split at h
  · rename_i role c k hp
    obtain ⟨⟨r, w⟩, ha, rfl⟩ := Option.map_eq_some_iff.mp h
    exact ⟨role, c, k, r, w, hp, ha, rfl⟩
  · cases h

/-- The next call of a known process is answered. -/
theorem advance_of_call {pid : Nat} {out : Outcome} {role : Role} {c : Call}
    {k : Except String c.Reply → Program Unit} (hp : s.procs pid = some ⟨role, .call c k⟩)
    (h : step d s (.advance pid out) = some s') :
    ∃ r w, c.answer pid s.world out = some (r, w) ∧
      s' = { world := w, procs := setProc s.procs pid (some ⟨role, k r⟩) } := by
  simp only [step, hp] at h
  obtain ⟨⟨r, w⟩, ha, rfl⟩ := Option.map_eq_some_iff.mp h
  exact ⟨r, w, ha, rfl⟩

/-- Inversion for `finish`. -/
theorem finish_eq_some {pid : Nat} (h : step d s (.finish pid) = some s') :
    ∃ role prog, s.procs pid = some ⟨role, prog⟩ ∧
      ((prog = .ret () ∧
          s' = { world := report s.world pid role true, procs := setProc s.procs pid none }) ∨
        ∃ e, prog = .throw e ∧
          s' = { world := report s.world pid role false, procs := setProc s.procs pid none }) := by
  simp only [step] at h
  split at h
  · rename_i role hp
    exact ⟨role, _, hp, .inl ⟨rfl, (Option.some.inj h).symm⟩⟩
  · rename_i role e hp
    exact ⟨role, _, hp, .inr ⟨e, rfl, (Option.some.inj h).symm⟩⟩
  · cases h

/-- Inversion for `crash`. -/
theorem crash_eq_some {pid : Nat} (h : step d s (.crash pid) = some s') :
    ∃ p, s.procs pid = some p ∧
      s' = { world := s.world.dropTxn pid, procs := setProc s.procs pid none } := by
  simp only [step] at h
  split at h
  · rename_i p hp
    exact ⟨p, hp, (Option.some.inj h).symm⟩
  · cases h

/-! ## What a step does to the processes -/

/-- The processes an action can start, with the job a worker takes. -/
inductive Launch (d : Deployment) (w : World) : Action → Nat → Role → Program Unit → Prop
  /-- a scheduler starts a tick -/
  | tick (pid : Nat) : Launch d w (.tick pid) pid .scheduler (Scheduler.tick d.config d.rt)
  /-- a request arrives -/
  | request (pid : Nat) (r : Request) :
    Launch d w (.request pid r) pid .request (requestProgram r)
  /-- a worker takes a fetch job -/
  | fetch (pid : Nat) (jobId : String) (job : Job String FetchFeedJobData)
    (hj : w.fetchQueue.getJob jobId = some job) :
    Launch d w (.takeFetch pid jobId) pid (.fetchWorker jobId job.data.feedId)
      (fetchProgram d job.data.feedId)
  /-- a worker takes a delivery job -/
  | delivery (pid : Nat) (jobId : String) (job : Job String AlertDeliveryJobData)
    (hj : w.alertQueue.getJob jobId = some job) :
    Launch d w (.takeDelivery pid jobId) pid (.deliveryWorker jobId (deliveryInput job))
      (ProcessAlertDelivery.execute d.config d.rt (deliveryInput job))

/-- The ways in which a step changes the table of processes. -/
inductive ProcStep (d : Deployment) (s : System) : Action → (Nat → Option Process) → Prop
  /-- no process is concerned -/
  | stay (a : Action) : ProcStep d s a s.procs
  /-- a process starts under a free id -/
  | launch (a : Action) (pid : Nat) (role : Role) (prog : Program Unit)
    (hfree : s.procs pid = none) (hl : Launch d s.world a pid role prog) :
    ProcStep d s a (setProc s.procs pid (some ⟨role, prog⟩))
  /-- the next call of a process is answered -/
  | advance (pid : Nat) (out : Outcome) (role : Role) (c : Call)
    (k : Except String c.Reply → Program Unit) (r : Except String c.Reply) (w : World)
    (hp : s.procs pid = some ⟨role, .call c k⟩) (ha : c.answer pid s.world out = some (r, w)) :
    ProcStep d s (.advance pid out) (setProc s.procs pid (some ⟨role, k r⟩))
  /-- a process ends or dies -/
  | leave (a : Action) (pid : Nat) : ProcStep d s a (setProc s.procs pid none)

/-- **There are no other changes.** -/
theorem procs_step {a : Action} (h : step d s a = some s') : ProcStep d s a s'.procs := by
  cases a with
  | tick pid =>
    obtain ⟨hp, rfl⟩ := start_eq_some h
    exact .launch _ pid _ _ hp (.tick pid)
  | request pid r =>
    obtain ⟨hp, rfl⟩ := start_eq_some h
    exact .launch _ pid _ _ hp (.request pid r)
  | takeFetch pid jobId =>
    obtain ⟨job, q, ht, hp, rfl⟩ := takeFetch_eq_some h
    exact .launch _ pid _ _ hp (.fetch pid jobId job (JobQueue.take_eq_some ht).1)
  | takeDelivery pid jobId =>
    obtain ⟨job, q, ht, hp, rfl⟩ := takeDelivery_eq_some h
    exact .launch _ pid _ _ hp (.delivery pid jobId job (JobQueue.take_eq_some ht).1)
  | advance pid out =>
    obtain ⟨role, c, k, r, w, hp, ha, rfl⟩ := advance_eq_some h
    exact .advance pid out role c k r w hp ha
  | finish pid =>
    obtain ⟨role, prog, -, ⟨-, rfl⟩ | ⟨e, -, rfl⟩⟩ := finish_eq_some h
    · exact .leave _ pid
    · exact .leave _ pid
  | crash pid =>
    obtain ⟨p, -, rfl⟩ := crash_eq_some h
    exact .leave _ pid
  | promoteFetch jobId => obtain ⟨q, -, rfl⟩ := Option.map_eq_some_iff.mp h; exact .stay _
  | promoteDelivery jobId => obtain ⟨q, -, rfl⟩ := Option.map_eq_some_iff.mp h; exact .stay _
  | stallFetch jobId => obtain ⟨q, -, rfl⟩ := Option.map_eq_some_iff.mp h; exact .stay _
  | stallDelivery jobId => obtain ⟨q, -, rfl⟩ := Option.map_eq_some_iff.mp h; exact .stay _
  | elapse ms => obtain rfl := Option.some.inj h; exact .stay _
  | saveSettings row => obtain rfl := Option.some.inj h; exact .stay _

/-- A process after a step was there before it, has just been started, or has just got an
answer. -/
theorem process_step {a : Action} {pid : Nat} {p : Process} (h : step d s a = some s')
    (hp : s'.procs pid = some p) :
    (s.procs pid = some p ∧ ∀ out, a ≠ .advance pid out) ∨
      (s.procs pid = none ∧ Launch d s.world a pid p.role p.prog) ∨
      ∃ out c k r, a = .advance pid out ∧ s.procs pid = some ⟨p.role, .call c k⟩ ∧
        c.answer pid s.world out = some (r, s'.world) ∧ p.prog = k r := by
  have hproc := procs_step h
  by_cases hadvance : ∃ out, a = .advance pid out
  · obtain ⟨out, rfl⟩ := hadvance
    obtain ⟨role, c, k, r, w, hcall, ha, rfl⟩ := advance_eq_some h
    dsimp only at hp
    rw [setProc_self] at hp
    obtain rfl := Option.some.inj hp
    exact .inr (.inr ⟨out, c, k, r, rfl, hcall, ha, rfl⟩)
  · have hne : ∀ out, a ≠ .advance pid out := fun out heq => hadvance ⟨out, heq⟩
    generalize s'.procs = procs at hproc hp
    cases hproc with
    | stay => exact .inl ⟨hp, hne⟩
    | launch _ q role prog hfree hl =>
      by_cases hq : pid = q
      · subst hq
        rw [setProc_self] at hp
        obtain rfl := Option.some.inj hp
        exact .inr (.inl ⟨hfree, hl⟩)
      · rw [setProc_of_ne hq] at hp
        exact .inl ⟨hp, hne⟩
    | advance q out role c k r w hcall ha =>
      have hq : pid ≠ q := by
        rintro rfl
        exact hne out rfl
      rw [setProc_of_ne hq] at hp
      exact .inl ⟨hp, hne⟩
    | leave _ q =>
      by_cases hq : pid = q
      · subst hq
        rw [setProc_self] at hp
        cases hp
      · rw [setProc_of_ne hq] at hp
        exact .inl ⟨hp, hne⟩

/-- What holds of every process holds after one was replaced by such a process. -/
theorem forall_setProc {P : Process → Prop} {procs : Nat → Option Process} {pid : Nat}
    {p : Option Process} (h : ∀ q r, procs q = some r → P r) (hp : ∀ r, p = some r → P r) :
    ∀ q r, setProc procs pid p q = some r → P r := by
  intro q r hq
  by_cases hpid : q = pid
  · subst hpid
    rw [setProc_self] at hq
    exact hp r hq
  · rw [setProc_of_ne hpid] at hq
    exact h q r hq

/-- **Process invariants**: what holds of every process that starts, and survives its next
call, holds of every process. -/
theorem forall_procs_step (P : Process → Prop) {a : Action} (h : step d s a = some s')
    (hs : ∀ pid p, s.procs pid = some p → P p)
    (hlaunch : ∀ pid role prog, Launch d s.world a pid role prog → P ⟨role, prog⟩)
    (hadvance : ∀ role c (k : Except String c.Reply → Program Unit) r,
      P ⟨role, .call c k⟩ → P ⟨role, k r⟩) :
    ∀ pid p, s'.procs pid = some p → P p := by
  have hp := procs_step h
  generalize s'.procs = procs at hp
  cases hp with
  | stay => exact hs
  | launch _ pid role prog hfree hl =>
    refine forall_setProc hs fun r hr => ?_
    obtain rfl := Option.some.inj hr
    exact hlaunch pid role prog hl
  | advance pid out role c k r w hp ha =>
    refine forall_setProc hs fun q hq => ?_
    obtain rfl := Option.some.inj hq
    exact hadvance role c k r (hs pid _ hp)
  | leave _ pid => exact forall_setProc hs fun r hr => by cases hr

/-! ## What a step does to the shared state -/

/-- The call a step makes take effect, with the process that issued it. -/
def executedCall (s : System) : Action → Option (Nat × Call)
  | .advance pid out =>
    match s.procs pid with
    | some ⟨_, .call c _⟩ => if out.takesEffect then some (pid, c) else none
    | _ => none
  | _ => none

/-- Inversion for `executedCall`. -/
theorem executedCall_eq_some {s : System} {a : Action} {pid : Nat} {c : Call}
    (h : s.executedCall a = some (pid, c)) :
    ∃ out role k, a = .advance pid out ∧ s.procs pid = some ⟨role, .call c k⟩ := by
  cases a with
  | advance q out =>
    simp only [executedCall] at h
    split at h
    · rename_i role c' k hp
      obtain ⟨-, h⟩ := Option.ite_none_right_eq_some.mp h
      obtain ⟨rfl, rfl⟩ := Prod.mk.inj (Option.some.inj h)
      exact ⟨out, role, k, rfl, hp⟩
    · cases h
  | _ => cases h

/-- The ways in which a step that executes no call changes the shared state. -/
inductive QuietStep (w : World) : World → Prop
  /-- nothing changes -/
  | refl : QuietStep w w
  /-- time passes -/
  | elapse (ms : Nat) : QuietStep w { w with now := w.now + ms }
  /-- the fetch queue moves on -/
  | fetchQueue (q : FetchQueue) (h : w.fetchQueue.Stems q) :
    QuietStep w { w with fetchQueue := q }
  /-- the delivery queue moves on -/
  | alertQueue (q : AlertQueue) (h : w.alertQueue.Stems q) :
    QuietStep w { w with alertQueue := q }
  /-- a transaction dies with its process -/
  | dropTxn (pid : Nat) : QuietStep w (w.dropTxn pid)
  /-- settings are saved -/
  | settings (rows : List TenantSettingsRow) : QuietStep w { w with settings := rows }

theorem report_quietStep (w : World) (pid : Nat) (role : Role) (succeeded : Bool) :
    QuietStep w (report w pid role succeeded) := by
  cases role with
  | scheduler => exact .refl
  | request => exact .refl
  | fetchWorker jobId feedId =>
    refine .fetchQueue _ ?_
    split
    · exact w.fetchQueue.stems_complete rfl jobId pid
    · exact w.fetchQueue.stems_fail jobId pid
  | deliveryWorker jobId input =>
    refine .alertQueue _ ?_
    split
    · exact w.alertQueue.stems_complete rfl jobId pid
    · exact w.alertQueue.stems_fail jobId pid

/-- **Every step executes a call, or is quiet.** -/
theorem step_effect {a : Action} (h : step d s a = some s') :
    (∃ pid c ch r, s.executedCall a = some (pid, c) ∧
        c.serve pid s.world ch = some (r, s'.world)) ∨
      (s.executedCall a = none ∧ QuietStep s.world s'.world) := by
  cases a with
  | elapse ms =>
    obtain rfl := Option.some.inj h
    exact .inr ⟨rfl, .elapse ms⟩
  | tick pid =>
    obtain ⟨-, rfl⟩ := start_eq_some h
    exact .inr ⟨rfl, .refl⟩
  | request pid r =>
    obtain ⟨-, rfl⟩ := start_eq_some h
    exact .inr ⟨rfl, .refl⟩
  | takeFetch pid jobId =>
    obtain ⟨job, q, ht, -, rfl⟩ := takeFetch_eq_some h
    exact .inr ⟨rfl, .fetchQueue q (JobQueue.stems_take ht)⟩
  | takeDelivery pid jobId =>
    obtain ⟨job, q, ht, -, rfl⟩ := takeDelivery_eq_some h
    exact .inr ⟨rfl, .alertQueue q (JobQueue.stems_take ht)⟩
  | advance pid out =>
    obtain ⟨role, c, k, r, w, hp, ha, rfl⟩ := advance_eq_some h
    -- a refused call takes no effect; one whose answer is lost does, unseen
    cases out with
    | ok ch =>
      obtain ⟨⟨x, w'⟩, hs, he⟩ := Option.map_eq_some_iff.mp ha
      cases he
      exact .inl ⟨pid, c, ch, x, by simp [executedCall, hp, Outcome.takesEffect], hs⟩
    | refused error =>
      rcases Call.answer_eq_some ha with ⟨-, -, rfl, -⟩ | ⟨ch, x, hs, hr⟩
      · exact .inr ⟨by simp [executedCall, hp, Outcome.takesEffect], .refl⟩
      · simp only [Call.answer] at ha
        split at ha
        · cases ha
        · cases ha
          exact .inr ⟨by simp [executedCall, hp, Outcome.takesEffect], .refl⟩
    | lost ch error =>
      simp only [Call.answer] at ha
      split at ha
      · cases ha
      · obtain ⟨⟨x, w'⟩, hs, he⟩ := Option.map_eq_some_iff.mp ha
        cases he
        exact .inl ⟨pid, c, ch, x, by simp [executedCall, hp, Outcome.takesEffect], hs⟩
  | finish pid =>
    obtain ⟨role, prog, -, ⟨-, rfl⟩ | ⟨e, -, rfl⟩⟩ := finish_eq_some h
    · exact .inr ⟨rfl, report_quietStep ..⟩
    · exact .inr ⟨rfl, report_quietStep ..⟩
  | crash pid =>
    obtain ⟨p, -, rfl⟩ := crash_eq_some h
    exact .inr ⟨rfl, .dropTxn pid⟩
  | promoteFetch jobId =>
    obtain ⟨q, hq, rfl⟩ := Option.map_eq_some_iff.mp h
    exact .inr ⟨rfl, .fetchQueue q (JobQueue.stems_promote hq)⟩
  | promoteDelivery jobId =>
    obtain ⟨q, hq, rfl⟩ := Option.map_eq_some_iff.mp h
    exact .inr ⟨rfl, .alertQueue q (JobQueue.stems_promote hq)⟩
  | stallFetch jobId =>
    obtain ⟨q, hq, rfl⟩ := Option.map_eq_some_iff.mp h
    exact .inr ⟨rfl, .fetchQueue q (JobQueue.stems_stall hq)⟩
  | stallDelivery jobId =>
    obtain ⟨q, hq, rfl⟩ := Option.map_eq_some_iff.mp h
    exact .inr ⟨rfl, .alertQueue q (JobQueue.stems_stall hq)⟩
  | saveSettings row =>
    obtain rfl := Option.some.inj h
    exact .inr ⟨rfl, .settings _⟩

/-! ## Initial states -/

/-- A freshly started system: any feeds, rules, articles and settings, but no alerts, no
jobs and no processes. -/
structure Init (s : System) : Prop where
  /-- no process runs -/
  procs : ∀ pid, s.procs pid = none
  /-- no transaction is open -/
  txns : s.world.txns = []
  /-- there are no alerts -/
  alerts : s.world.alerts = []
  /-- there are no digest items -/
  digestItems : s.world.digestItems = []
  /-- the fetch queue is empty -/
  fetchQueue : s.world.fetchQueue = JobQueue.empty
  /-- the delivery queue is empty -/
  alertQueue : s.world.alertQueue = JobQueue.empty

/-! ## A small deployment

The runs that show a property to fail all start here: one feed with one article, one
rule that matches it, and a shared webhook. -/

/-- A deployment with a shared webhook and no other channel. The runtime answers as it
does on the one article there is. -/
def webhookDeployment : Deployment where
  config :=
    { schedulerBatchSize := 10
      schedulerStuckFeedThresholdSeconds := 300
      webhookNotifierUrl := some "https://hooks.example/alerts"
      resendApiKey := none
      resendFromEmail := none
      resendDailyLimit := 0
      telegramBotToken := none
      tenantSecretsMasterKey := none }
  rt :=
    { toLowerCase := id
      normalizeNFD := id
      isLetterOrNumber := fun c => c.isAlphanum
      sha256Hex := fun _ => "565d240f5343e625ae579a4d45a770f1f02c6368b5ed4d06da4fbe6f47c28866"
      parseDate := fun _ => none
      parseFeed := fun _ => .ok [
        { title := some "go", link := none, guid := none, contentSnippet := none,
          content := none, isoDate := none, pubDate := none }]
      decipher := fun _ _ _ _ _ _ => none }
  canonicalizeArticleLink := fun _ => none

/-- The feed, due for a check. -/
def dueFeed : FeedRow :=
  { id := 1
    tenantId := "t"
    url := "https://feeds.example/rss"
    status := .active
    etag := none
    lastModified := none
    lastCheckedAt := none
    nextCheckAt := 0
    pollIntervalSeconds := 1800
    errorCount := 0
    lastError := none
    avgResponseMs := none
    claimedAt := none
    updatedAt := 0 }

/-- The state before anything has run. -/
def oneFeed : System where
  world :=
    { now := 1000000
      feeds := [dueFeed]
      entries := []
      rules := [
        { id := 1, tenantId := "t", name := "go", includeKeywords := ["go"],
          excludeKeywords := [], isActive := true }]
      fetchLogs := []
      alerts := []
      digestItems := []
      settings := []
      emailCounters := []
      fetchQueue := JobQueue.empty
      alertQueue := JobQueue.empty
      txns := []
      nextEntryId := 1
      nextAlertId := 1
      nextDigestItemId := 1 }
  procs := fun _ => none

theorem oneFeed_init : oneFeed.Init := ⟨fun _ => rfl, rfl, rfl, rfl, rfl, rfl⟩

/-- The next `n` calls of a process succeed. -/
def proceed (pid n : Nat) : List Action := List.replicate n (.advance pid (.ok .none))

/-- A tick that claims the given feeds, none of which has a job, in a state without due
digests. -/
def schedulerTick (pid : Nat) (feeds : List FeedRow) : List Action :=
  .tick pid :: proceed pid 3 ++ [.advance pid (.ok (.claim [] feeds []))] ++
    proceed pid (1 + 2 * feeds.length + 2) ++ [.advance pid (.ok (.groups [])), .finish pid]

/-- The response with the article. -/
def articleResponse : FetchResponse :=
  { statusCode := 200, body := "<rss/>", etag := none, lastModified := none, durationMs := 10 }

/-- A worker takes the job of the feed and fetches the article. -/
def fetchArticle (pid : Nat) : List Action :=
  .takeFetch pid "feed-1" :: proceed pid 2 ++ [.advance pid (.ok (.response articleResponse))]

/-- The feed is claimed, the article is stored, and its alert is handed to delivery. -/
def ingestArticle : List Action :=
  schedulerTick 1 [dueFeed] ++ fetchArticle 2 ++ proceed 2 15 ++ [.finish 2]

/-- A worker takes the delivery job of the alert, posts the webhook, and marks the
channel and the alert. -/
def deliverAlert (pid : Nat) : List Action :=
  .takeDelivery pid "alert-1" :: proceed pid 6

end System

end Feedpulse
