import Feedpulse.FeedDispatch

/-!
# At most one fetch job per feed

A check-now request looks at the claim of the feed and then adds a job under an id of its
own; the scheduler claims the feed and then adds a job under the id of the feed. Neither
looks at the jobs that are there. `exclusive_of_orderly` says which runs have at most one
fetch job per feed all the same: those in which no check passes, and no claim is made, while
another job of the feed is there or on its way. `check_stacked` is a run in which two checks
are accepted one after the other.
-/

namespace Feedpulse

open Prog

/-! ## Who is about to add a job -/

/-- The feed a call adds a fetch job for. -/
def addedFeed : Call → Option Nat
  | .queue (.addFetchJob _ data) => some data.feedId
  | _ => none

/-- The answer admits a fetch job of the feed: a check finds the feed unclaimed, or a claim
returns it. -/
def Admits (f : Nat) (c : Call) (r : Except String c.Reply) : Prop :=
  match c, r with
  | .feed (.isClaimed id _), .ok false => id = f
  | .feed (.claimDueFeeds _), .ok claimed => ∃ g ∈ claimed, g.id = f
  | _, _ => False

/-- The program adds no fetch job of the feed, unless an answer to come admits one. -/
def Spares (f : Nat) (p : Program Unit) : Prop :=
  Confined (fun c => addedFeed c ≠ some f) (fun c r => ¬ Admits f c r) p fun _ => True

/-- The program adds at most one fetch job from here, or none if it has added one. -/
def AddsOnce (p : Program Unit) (done : Bool) : Prop :=
  Meets (fun done c => (addedFeed c).isSome = true → done = false)
    (fun done c _ done' => done' = (done || (addedFeed c).isSome)) p (fun _ _ => True) done

section Programs

variable {f : Nat}

theorem spares_of_issues {α : Type} {p : Program α} (h : Issues (fun c => addedFeed c ≠ some f) p) :
    Confined (fun c => addedFeed c ≠ some f) (fun c r => ¬ Admits f c r) p fun _ => True :=
  Meets.weaken h (fun _ _ hc => hc) fun _ _ _ _ _ => trivial

/-- What is left of a program that spares the feed spares it, unless the answer admits a job. -/
theorem Spares.next {c : Call} {k : Except String c.Reply → Program Unit}
    (h : Spares f (.call c k)) {r : Except String c.Reply} (hr : ¬ Admits f c r) :
    Spares f (k r) :=
  h.2 r PUnit.unit hr

theorem Spares.addedFeed_ne {c : Call} {k : Except String c.Reply → Program Unit}
    (h : Spares f (.call c k)) : addedFeed c ≠ some f :=
  h.1

/-- A program that has added its job adds no other. -/
theorem spares_of_addsOnce {p : Program Unit} (h : AddsOnce p true) : Spares f p := by
  induction p with
  | ret a => trivial
  | throw e => trivial
  | call c k ih =>
    have hnone : addedFeed c = none := by
      rcases ha : addedFeed c with _ | g
      · rfl
      · exact absurd (h.1 (by simp [ha])) (by simp)
    refine confined_call.mpr ⟨by simp [hnone], fun r _ => ih r (h.2 r true ?_)⟩
    simp

theorem addsOnce_of_issues {α : Type} {p : Program α} (h : Issues (fun c => addedFeed c = none) p)
    (done : Bool) :
    Meets (fun done c => (addedFeed c).isSome = true → done = false)
      (fun done c _ done' => done' = (done || (addedFeed c).isSome)) p (fun _ _ => True) done := by
  have hall : Meets (fun _ _ => True)
      (fun done c _ done' => done' = (done || (addedFeed c).isSome)) p (fun _ _ => True) done :=
    meets_of_invariant (fun _ _ _ _ _ _ => trivial) p trivial
  refine (h.confine hall).weaken (fun _ c hc hsome => ?_) fun _ _ _ _ h => h
  rw [hc] at hsome
  cases hsome

theorem addedFeed_eq_some {c : Call} :
    addedFeed c = some f ↔
      ∃ jobId data, c = .queue (.addFetchJob jobId data) ∧ data.feedId = f := by
  constructor
  · intro h
    unfold addedFeed at h
    split at h
    · rename_i jobId data
      exact ⟨jobId, data, rfl, Option.some.inj h⟩
    · cases h
  · rintro ⟨jobId, data, rfl, rfl⟩
    rfl

/-- Calls among which there is no addition of a fetch job. -/
theorem addedFeed_eq_none {allowed : Call → Prop}
    (hall : ∀ jobId data, ¬ allowed (.queue (.addFetchJob jobId data))) (c : Call)
    (h : allowed c) : addedFeed c = none := by
  rcases hc : addedFeed c with _ | g
  · rfl
  · obtain ⟨jobId, data, rfl, -⟩ := addedFeed_eq_some.mp hc
    exact absurd h (hall jobId data)

theorem handsOver_addedFeed (c : Call) (h : HandsOver c) : addedFeed c = none :=
  addedFeed_eq_none (fun _ _ h => h) c h

theorem sweeps_addedFeed (c : Call) (h : Sweeps c) : addedFeed c = none :=
  addedFeed_eq_none (fun _ _ h => h) c h

theorem update_adds (tenantId : String) (id : Nat) (status : Option FeedStatus)
    (pollIntervalSeconds : Option Nat) :
    Issues (fun c => addedFeed c = none)
      (FeedsRepository.update tenantId id status pollIntervalSeconds) := by
  refine Issues.bind (issues_invoke rfl) fun current => ?_
  cases current with
  | none => exact issues_pure _
  | some current => exact Issues.bind (issues_invoke rfl) fun now => issues_invoke rfl

/-- A request other than a check adds no fetch job. -/
theorem request_adds {r : Request} (h : ∀ id tenantId, r ≠ .checkFeedNow id tenantId) :
    Issues (fun c => addedFeed c = none) (System.requestProgram r) := by
  cases r with
  | updateFeed tenantId id status pollIntervalSeconds =>
    refine Issues.bind (Issues.bind (update_adds ..) fun feed => ?_) fun _ => issues_pure _
    cases feed with
    | none => exact issues_throw' _
    | some feed => exact issues_pure _
  | disableFeed id tenantId =>
    refine Issues.bind (Issues.bind (update_adds ..) fun _ => issues_pure _) fun _ => ?_
    exact Issues.ite (fun _ => issues_pure _) fun _ => issues_throw' _
  | checkFeedNow id tenantId => exact absurd rfl (h id tenantId)
  | sendAlert alertId tenantId =>
    exact Issues.bind (executeManual_issues handsOver_addedFeed ..) fun _ => issues_pure _

/-- A check adds a job of its own feed, once the feed was found unclaimed. -/
theorem checkFeedNow_spares (id : Nat) (tenantId : String) :
    Spares f (System.requestProgram (.checkFeedNow id tenantId)) := by
  refine meets_bind.mpr (meets_bind.mpr (meets_invoke.mpr ⟨nofun, fun r _ _ => ?_⟩))
  rcases r with e | _ | feed
  · trivial
  · trivial
  refine meets_bind.mpr (meets_invoke.mpr ⟨nofun, fun r _ hr => ?_⟩)
  rcases r with e | _ | _
  · trivial
  · -- the check passed: the job is of another feed
    have hid : id ≠ f := hr
    have hrest : Issues (fun c => addedFeed c ≠ some f) (do
        let queuedAt ← clock
        let enqueued ← FetchFeedQueue.enqueue
          { feedId := id, queuedAt := queuedAt, attempt := 0, source := .manual }
        pure (if enqueued.deduplicated then FeedActions.CheckFeedNowStatus.alreadyQueued
          else .queued)) := by
      refine Issues.bind (issues_invoke nofun) fun queuedAt => ?_
      refine Issues.bind (Issues.bind (issues_invoke nofun) fun now => ?_) fun _ => issues_pure _
      refine Issues.bind (issues_invoke ?_) fun _ => issues_pure _
      exact fun h => hid (Option.some.inj h)
    refine (spares_of_issues hrest).mono fun r _ _ => ?_
    cases r <;> trivial
  · trivial

theorem request_spares (r : Request) : Spares f (System.requestProgram r) := by
  by_cases h : ∀ id tenantId, r ≠ .checkFeedNow id tenantId
  · exact spares_of_issues ((request_adds h).mono fun c hc => by simp [hc])
  · push Not at h
    obtain ⟨id, tenantId, rfl⟩ := h
    exact checkFeedNow_spares id tenantId

/-- A request adds at most one fetch job. -/
theorem request_addsOnce (r : Request) : AddsOnce (System.requestProgram r) false := by
  by_cases h : ∀ id tenantId, r ≠ .checkFeedNow id tenantId
  · exact addsOnce_of_issues (request_adds h) false
  · push Not at h
    obtain ⟨id, tenantId, rfl⟩ := h
    refine meets_bind.mpr (meets_bind.mpr (meets_invoke.mpr ⟨nofun, fun r done hr => ?_⟩))
    obtain rfl : done = false := hr
    rcases r with e | _ | feed
    · trivial
    · trivial
    refine meets_bind.mpr (meets_invoke.mpr ⟨nofun, fun r done hr => ?_⟩)
    obtain rfl : done = false := hr
    rcases r with e | _ | _
    · trivial
    · refine meets_bind.mpr (meets_invoke.mpr ⟨nofun, fun r done hr => ?_⟩)
      obtain rfl : done = false := hr
      cases r with
      | error e => trivial
      | ok queuedAt =>
        refine meets_bind.mpr (meets_bind.mpr (meets_invoke.mpr ⟨nofun, fun r done hr => ?_⟩))
        obtain rfl : done = false := hr
        cases r with
        | error e => trivial
        | ok now =>
          refine meets_bind.mpr (meets_invoke.mpr ⟨fun _ => rfl, fun r done _ => ?_⟩)
          cases r <;> trivial
    · trivial

theorem enqueueAll_adds {queuedAt : Nat} {feeds : List FeedRow} (h : ∀ g ∈ feeds, g.id ≠ f) :
    Issues (fun c => addedFeed c ≠ some f) (Scheduler.enqueueAll queuedAt feeds) := by
  induction feeds with
  | nil => exact issues_pure _
  | cons feed feeds ih =>
    refine Issues.bind (Issues.attempt ?_) fun _ =>
      Issues.bind (ih fun g hg => h g (List.mem_cons_of_mem feed hg)) fun _ => issues_pure _
    refine Issues.bind (issues_invoke nofun) fun found => ?_
    cases found with
    | some job => exact issues_pure _
    | none =>
      refine Issues.bind (issues_invoke ?_) fun _ => issues_pure _
      exact fun hid => h feed List.mem_cons_self (Option.some.inj hid)

/-- The scheduler adds jobs of the feeds it has claimed. -/
theorem scheduleDueFeeds_spares (config : AppConfig) :
    Confined (fun c => addedFeed c ≠ some f) (fun c r => ¬ Admits f c r)
      (Scheduler.scheduleDueFeeds config) fun _ => True := by
  refine meets_bind.mpr (meets_invoke.mpr ⟨nofun, fun r _ _ => ?_⟩)
  cases r with
  | error e => trivial
  | ok _ =>
    refine meets_bind.mpr ?_
    unfold FeedsRepository.claimDueFeeds
    split
    · trivial
    · refine meets_invoke.mpr ⟨nofun, fun r _ hr => ?_⟩
      cases r with
      | error e => trivial
      | ok feeds =>
        have hfeeds : ∀ g ∈ feeds, g.id ≠ f := fun g hg hid => hr ⟨g, hg, hid⟩
        refine spares_of_issues (Issues.bind (issues_invoke nofun) fun queuedAt =>
          Issues.bind (enqueueAll_adds hfeeds) fun results => ?_)
        split
        · exact issues_throw' _
        · exact issues_pure _

/-- So does a tick. -/
theorem tick_spares (config : AppConfig) (rt : Runtime) :
    Spares f (Scheduler.tick config rt) := by
  have hrelease : Issues (fun c => addedFeed c ≠ some f) (Scheduler.releaseStuckFeeds config) := by
    refine Issues.bind (issues_invoke nofun) fun _ => ?_
    exact Issues.ite (fun _ => issues_throw' _) fun _ => issues_invoke nofun
  have hdigests : Issues (fun c => addedFeed c ≠ some f) (TelegramDigests.execute config rt) :=
    (digests_issues config rt).mono fun c hc => by simp [sweeps_addedFeed c hc]
  refine meets_bind.mpr (meets_attempt.mpr ?_)
  refine (spares_of_issues hrelease).mono fun _ _ _ => ?_
  refine meets_bind.mpr (meets_attempt.mpr ?_)
  refine (scheduleDueFeeds_spares config).mono fun _ _ _ => ?_
  refine meets_bind.mpr (meets_attempt.mpr ?_)
  exact (spares_of_issues hdigests).mono fun _ _ _ => trivial

/-- **A process that starts spares every feed.** -/
theorem spares_of_launch {d : Deployment} {w : World} {a : Action} {pid : Nat} {role : Role}
    {prog : Program Unit} (h : System.Launch d w a pid role prog) : Spares f prog := by
  cases h with
  | tick => exact tick_spares ..
  | request pid r => exact request_spares r
  | fetch pid jobId job =>
    have hp : Issues (Role.fetchWorker jobId job.data.feedId).MayIssue
        (System.fetchProgram d job.data.feedId) :=
      Issues.bind (fetchWorker_issues ..) fun _ => issues_pure _
    exact spares_of_issues (hp.mono fun c hc => by
      simp [addedFeed_eq_none (fun _ _ h => h) c hc])
  | delivery pid jobId job =>
    have hp : Issues (Role.deliveryWorker jobId (System.deliveryInput job)).MayIssue
        (ProcessAlertDelivery.execute d.config d.rt (System.deliveryInput job)) :=
      deliveryWorker_issues ..
    exact spares_of_issues (hp.mono fun c hc => by
      simp [addedFeed_eq_none (fun _ _ h => h) c hc])

end Programs

namespace System

open Transition

variable {d : Deployment} {s s' : System}

/-! ## Orderly runs -/

/-- The step answers a check of the feed: it is not claimed. -/
def passesCheck (s : System) (pid f : Nat) : Action → Bool
  | .advance q (.ok _) =>
    q = pid &&
      match s.procs q with
      | some ⟨_, .call (.feed (.isClaimed id tenantId)) _⟩ =>
        id = f && !Feeds.isClaimed id tenantId s.world.feeds
      | _ => false
  | _ => false

/-- No process other than `pid` is past its check or its claim of the feed without having
added the job. -/
def OthersSpare (s : System) (pid f : Nat) : Prop :=
  ∀ q p, q ≠ pid → s.procs q = some p → Spares f p.prog

/-- No check of a feed passes while a job of the feed will run or is about to be added; no
feed is claimed while a job with an id of a check will run, or is about to be added; no
worker loses its lock while it runs. -/
structure Orderly (s : System) (a : Action) : Prop where
  /-- checks -/
  check : ∀ pid f, s.passesCheck pid f a = true → ¬ s.HasFetchJob f ∧ s.OthersSpare pid f
  /-- claims -/
  claim : ∀ pid f, s.claims pid f a = true →
    (∀ j ∈ s.world.fetchQueue.jobs, j.Live → j.data.feedId = f → j.id = scheduledJobId f) ∧
      s.OthersSpare pid f
  /-- locks -/
  lock : ∀ jobId, a = .stallFetch jobId →
    ∀ pid f prog, s.procs pid ≠ some ⟨.fetchWorker jobId f, prog⟩

/-- The step adds the job of a tenant's check of the feed. -/
def AcceptsCheck (s : System) (a : Action) (f : Nat) : Prop :=
  ∃ pid prog c, s.procs pid = some ⟨.request, prog⟩ ∧ s.executedCall a = some (pid, c) ∧
    addedFeed c = some f

/-- At most one job of each feed will run, and at most one worker runs one. -/
structure OneFetchJob (s : System) : Prop where
  /-- jobs -/
  jobs : ∀ i ∈ s.world.fetchQueue.jobs, ∀ j ∈ s.world.fetchQueue.jobs, i.Live → j.Live →
    i.data.feedId = j.data.feedId → i = j
  /-- workers -/
  workers : ∀ f p q jobId jobId' prog prog', s.procs p = some ⟨.fetchWorker jobId f, prog⟩ →
    s.procs q = some ⟨.fetchWorker jobId' f, prog'⟩ → p = q

/-! ## The invariant -/

/-- The process is past its check or its claim of the feed without having added the job. -/
def Enqueues (s : System) (pid f : Nat) : Prop :=
  ∃ p, s.procs pid = some p ∧ ¬ Spares f p.prog

/-- What an orderly run keeps. -/
structure Exclusive (s : System) : Prop where
  /-- every process keeps to its role -/
  roles : s.RolesKept
  /-- a request adds at most one job -/
  once : ∀ pid prog, s.procs pid = some ⟨.request, prog⟩ → ∃ done, AddsOnce prog done
  /-- a worker holds its job -/
  held : ∀ pid jobId f prog, s.procs pid = some ⟨.fetchWorker jobId f, prog⟩ →
    ∃ data : FetchFeedJobData, data.feedId = f ∧ s.world.fetchQueue.Holds jobId pid data
  /-- one process at a time is about to add a job of a feed -/
  sole : ∀ f p q, s.Enqueues p f → s.Enqueues q f → p = q
  /-- while it is, the only job of the feed is one that the scheduler will find -/
  free : ∀ f pid p, s.procs pid = some p → ¬ Spares f p.prog →
    ∀ j ∈ s.world.fetchQueue.jobs, j.Live → j.data.feedId = f →
      p.role = .scheduler ∧ j.id = scheduledJobId f
  /-- at most one job of each feed will run -/
  one : ∀ i ∈ s.world.fetchQueue.jobs, ∀ j ∈ s.world.fetchQueue.jobs, i.Live → j.Live →
    i.data.feedId = j.data.feedId → i = j

theorem exclusive_of_init (h : s.Init) : s.Exclusive := by
  have hno : ∀ pid p, s.procs pid ≠ some p := by
    intro pid p hp
    rw [h.procs] at hp
    cases hp
  have hjobs : ∀ j ∈ s.world.fetchQueue.jobs, False := by
    intro j hj
    rw [h.fetchQueue] at hj
    cases hj
  exact
    { roles := rolesKept_of_init h
      once := fun pid prog hp => absurd hp (hno pid _)
      held := fun pid jobId f prog hp => absurd hp (hno pid _)
      sole := fun f p q ⟨P, hP, _⟩ => absurd hP (hno p P)
      free := fun f pid p hp => absurd hp (hno pid p)
      one := fun i hi => (hjobs i hi).elim }

/-- The workers follow from the jobs they hold. -/
theorem Exclusive.oneFetchJob (h : s.Exclusive) : s.OneFetchJob := by
  refine ⟨h.one, fun f p q jobId jobId' prog prog' hp hq => ?_⟩
  obtain ⟨data, hf, hheld⟩ := h.held p jobId f prog hp
  obtain ⟨data', hf', hheld'⟩ := h.held q jobId' f prog' hq
  have ⟨i, hi, hia, _, hid⟩ := hheld
  have ⟨j, hj, hja, _, hjd⟩ := hheld'
  obtain ⟨hi', rfl⟩ := JobQueue.getJob_eq_some.mp hi
  obtain ⟨hj', rfl⟩ := JobQueue.getJob_eq_some.mp hj
  have hfeed : i.data.feedId = j.data.feedId := by rw [hid, hjd, hf, hf']
  obtain rfl := h.one i hi' j hj' (.inr (.inl hia)) (.inr (.inl hja)) hfeed
  exact hheld.unique hheld'

/-! ## Steps -/

/-- The queue after the report of an ended process. -/
theorem report_fetchQueue (w : World) (pid : Nat) (role : Role) (succeeded : Bool) :
    w.fetchQueue.Continues (report w pid role succeeded).fetchQueue ∧
      ∀ jobId q data, q ≠ pid → w.fetchQueue.Holds jobId q data →
        (report w pid role succeeded).fetchQueue.Holds jobId q data := by
  cases role with
  | fetchWorker jobId' f =>
    cases succeeded with
    | true =>
      exact ⟨JobQueue.continues_complete rfl _ _ _, fun _ _ _ hne hh => hh.complete rfl hne⟩
    | false => exact ⟨JobQueue.continues_fail _ _ _, fun _ _ _ hne hh => hh.fail hne⟩
  | _ => exact ⟨JobQueue.Continues.refl _, fun _ _ _ _ hh => hh⟩

/-- The steps that leave the fetch queue alone. -/
theorem fetchQueue_of_quiet {a : Action} (h : step d s a = some s')
    (ha : match a with
      | .advance .. | .takeFetch .. | .finish _ | .promoteFetch _ | .stallFetch _ => False
      | _ => True) :
    s'.world.fetchQueue = s.world.fetchQueue := by
  cases a with
  | elapse ms =>
    obtain rfl := Option.some.inj h
    rfl
  | tick pid =>
    obtain ⟨-, rfl⟩ := start_eq_some h
    rfl
  | request pid r =>
    obtain ⟨-, rfl⟩ := start_eq_some h
    rfl
  | takeDelivery pid jobId =>
    obtain ⟨job, q, -, -, rfl⟩ := takeDelivery_eq_some h
    rfl
  | crash pid =>
    obtain ⟨p, -, rfl⟩ := crash_eq_some h
    rfl
  | promoteDelivery jobId =>
    obtain ⟨q, -, rfl⟩ := Option.map_eq_some_iff.mp h
    rfl
  | stallDelivery jobId =>
    obtain ⟨q, -, rfl⟩ := Option.map_eq_some_iff.mp h
    rfl
  | saveSettings row =>
    obtain rfl := Option.some.inj h
    rfl
  | _ => exact ha.elim

/-- An answer adds the job of the call it answers, or leaves the queue alone. -/
theorem advance_fetchQueue {q : Nat} {out : Outcome} (h : step d s (.advance q out) = some s') :
    (∃ pid jobId data, s.executedCall (.advance q out)
          = some (pid, .queue (.addFetchJob jobId data)) ∧
        s'.world.fetchQueue = s.world.fetchQueue.add jobId data) ∨
      ((∀ pid c, s.executedCall (.advance q out) = some (pid, c) → addedFeed c = none) ∧
        s'.world.fetchQueue = s.world.fetchQueue) := by
  rcases step_effect h with ⟨pid, c, ch, r, hx, hserve⟩ | ⟨hx, -⟩
  · rcases fetchQueue_effect (serve_effect hserve) with hq | ⟨jobId, data, rfl, hq⟩
    · rcases hc : addedFeed c with _ | f
      · refine .inr ⟨fun pid' c' hx' => ?_, hq⟩
        obtain ⟨-, rfl⟩ := Prod.mk.inj (Option.some.inj (hx.symm.trans hx'))
        exact hc
      · obtain ⟨jobId, data, rfl, -⟩ := addedFeed_eq_some.mp hc
        have hw := (Prod.mk.inj (Option.some.inj hserve)).2
        exact .inl ⟨pid, jobId, data, hx, by rw [← hw]⟩
    · exact .inl ⟨pid, jobId, data, hx, hq⟩
  · refine .inr ⟨fun pid' c' hx' => absurd (hx.symm.trans hx') nofun, ?_⟩
    obtain ⟨role, c, k, r, w, hp, ha, rfl⟩ := advance_eq_some h
    rcases Call.answer_eq_some ha with ⟨error, -, rfl, -⟩ | ⟨ch, x, hserve, -⟩
    · rfl
    · cases out with
      | refused e =>
        obtain ⟨-, ha⟩ := Option.ite_none_left_eq_some.mp ha
        cases ha
        rfl
      | ok ch => simp [executedCall, hp, Outcome.takesEffect] at hx
      | lost ch e => simp [executedCall, hp, Outcome.takesEffect] at hx

/-- A step adds the job of the call it executes, or adds none. -/
theorem fetchQueue_step {a : Action} (h : step d s a = some s') :
    (∃ pid jobId data, s.executedCall a = some (pid, .queue (.addFetchJob jobId data)) ∧
        s'.world.fetchQueue = s.world.fetchQueue.add jobId data) ∨
      s.world.fetchQueue.Continues s'.world.fetchQueue := by
  cases a with
  | advance q out =>
    rcases advance_fetchQueue h with hadd | ⟨-, hq⟩
    · exact .inl hadd
    · rw [hq]
      exact .inr (JobQueue.Continues.refl _)
  | takeFetch pid jobId =>
    obtain ⟨job, q, ht, -, rfl⟩ := takeFetch_eq_some h
    exact .inr (JobQueue.continues_take ht)
  | finish pid =>
    obtain ⟨role, prog, -, ⟨-, rfl⟩ | ⟨e, -, rfl⟩⟩ := finish_eq_some h
    · exact .inr (report_fetchQueue ..).1
    · exact .inr (report_fetchQueue ..).1
  | promoteFetch jobId =>
    obtain ⟨q, hq, rfl⟩ := Option.map_eq_some_iff.mp h
    exact .inr (JobQueue.continues_promote hq)
  | stallFetch jobId =>
    obtain ⟨q, hq, rfl⟩ := Option.map_eq_some_iff.mp h
    exact .inr (JobQueue.continues_stall hq)
  | _ =>
    refine .inr ?_
    rw [fetchQueue_of_quiet h (by simp)]
    exact JobQueue.Continues.refl _

/-- A worker keeps the job it holds until it ends, or loses the lock. -/
theorem holds_step {a : Action} (h : step d s a = some s') {jobId : String} {pid : Nat}
    {data : FetchFeedJobData} (hend : a ≠ .finish pid) (hlock : a ≠ .stallFetch jobId)
    (hh : s.world.fetchQueue.Holds jobId pid data) :
    s'.world.fetchQueue.Holds jobId pid data := by
  cases a with
  | advance q out =>
    rcases advance_fetchQueue h with ⟨_, jobId', data', -, hq⟩ | ⟨-, hq⟩
    · rw [hq]
      exact hh.add
    · rw [hq]
      exact hh
  | takeFetch q jobId' =>
    obtain ⟨job, q, ht, -, rfl⟩ := takeFetch_eq_some h
    exact hh.take ht
  | finish q =>
    have hne : pid ≠ q := by
      rintro rfl
      exact hend rfl
    obtain ⟨role, prog, -, ⟨-, rfl⟩ | ⟨e, -, rfl⟩⟩ := finish_eq_some h
    · exact (report_fetchQueue ..).2 jobId pid data hne hh
    · exact (report_fetchQueue ..).2 jobId pid data hne hh
  | promoteFetch jobId' =>
    obtain ⟨q, hq, rfl⟩ := Option.map_eq_some_iff.mp h
    exact hh.promote hq
  | stallFetch jobId' =>
    obtain ⟨q, hq, rfl⟩ := Option.map_eq_some_iff.mp h
    refine hh.stall ?_ hq
    rintro rfl
    exact hlock rfl
  | _ =>
    rw [fetchQueue_of_quiet h (by simp)]
    exact hh

/-- An answer that admits a job of the feed is a passed check, or a claim by a scheduler. -/
theorem admits_step {pid f : Nat} {out : Outcome} {role : Role} {c : Call}
    {k : Except String c.Reply → Program Unit} {r : Except String c.Reply} {w : World}
    (hroles : s.RolesKept) (hp : s.procs pid = some ⟨role, .call c k⟩)
    (ha : c.answer pid s.world out = some (r, w)) (hadm : Admits f c r) :
    s.passesCheck pid f (.advance pid out) = true ∨
      (s.claims pid f (.advance pid out) = true ∧ role = .scheduler) := by
  unfold Admits at hadm
  split at hadm
  · rename_i id tenantId
    left
    obtain ⟨ch, rfl, hserve⟩ := Call.serve_of_ok ha
    obtain rfl := hadm
    have hfalse : Feeds.isClaimed id tenantId s.world.feeds = false :=
      (Prod.mk.inj (Option.some.inj hserve)).1
    simp [passesCheck, hp, hfalse]
  · rename_i limit claimed
    obtain ⟨g, hg, hid⟩ := hadm
    right
    have hrole : role = .scheduler := by
      have hmay := (issues_call.mp (hroles pid _ hp)).1
      cases role with
      | scheduler => rfl
      | _ => exact hmay.elim
    refine ⟨?_, hrole⟩
    obtain ⟨ch, rfl, hserve⟩ := Call.serve_of_ok ha
    cases ch with
    | claim skipped picks jitters =>
      obtain ⟨-, hserve⟩ := Option.ite_none_right_eq_some.mp hserve
      obtain ⟨⟨claimed', feeds⟩, hc, he⟩ := Option.map_eq_some_iff.mp hserve
      obtain ⟨rfl, -⟩ := Prod.mk.inj he
      have hin := (((Feeds.claimDueFeeds_eq_some hc).2.2 g).mp hg).2
      obtain ⟨p, hpick, hpid⟩ := List.mem_map.mp hin
      simp only [claims, hp, decide_true, Bool.true_and, Bool.and_true, List.any_eq_true,
        decide_eq_true_eq]
      exact ⟨p, hpick, hpid.trans hid⟩
    | _ => cases hserve
  · exact hadm.elim

/-- A process that is about to add a job of the feed was so before the step, or the step
admits it. -/
theorem enqueues_step {a : Action} (h : step d s a = some s') (hroles : s.RolesKept)
    {q f : Nat} {p : Process} (hq : s'.procs q = some p) (hn : ¬ Spares f p.prog) :
    ∃ p₀, s.procs q = some p₀ ∧ p₀.role = p.role ∧
      (¬ Spares f p₀.prog ∨ s.passesCheck q f a = true ∨
        (s.claims q f a = true ∧ p.role = .scheduler)) := by
  have hp := procs_step h
  generalize s'.procs = procs at hp hq
  cases hp with
  | stay => exact ⟨p, hq, rfl, .inl hn⟩
  | launch _ pid role prog hfree hl =>
    by_cases hpid : q = pid
    · subst hpid
      rw [setProc_self] at hq
      obtain rfl := Option.some.inj hq
      exact absurd (spares_of_launch hl) hn
    · rw [setProc_of_ne hpid] at hq
      exact ⟨p, hq, rfl, .inl hn⟩
  | advance pid out role c k r w hp ha =>
    by_cases hpid : q = pid
    · subst hpid
      rw [setProc_self] at hq
      obtain rfl := Option.some.inj hq
      refine ⟨_, hp, rfl, ?_⟩
      by_cases hadm : Admits f c r
      · exact .inr (admits_step hroles hp ha hadm)
      · exact .inl fun hs => hn (hs.next hadm)
    · rw [setProc_of_ne hpid] at hq
      exact ⟨p, hq, rfl, .inl hn⟩
  | leave _ pid =>
    by_cases hpid : q = pid
    · subst hpid
      rw [setProc_self] at hq
      cases hq
    · rw [setProc_of_ne hpid] at hq
      exact ⟨p, hq, rfl, .inl hn⟩

theorem advance_of_passesCheck {pid f : Nat} {a : Action} (h : s.passesCheck pid f a = true) :
    ∃ out, a = .advance pid out := by
  cases a with
  | advance q out =>
    cases out with
    | ok ch =>
      simp only [passesCheck, Bool.and_eq_true, decide_eq_true_eq] at h
      exact ⟨_, by rw [h.1]⟩
    | _ => cases h
  | _ => cases h

theorem advance_of_claims {pid f : Nat} {a : Action} (h : s.claims pid f a = true) :
    ∃ out, a = .advance pid out := by
  unfold claims at h
  split at h
  · simp only [Bool.and_eq_true, decide_eq_true_eq] at h
    exact ⟨_, by rw [h.1.1]⟩
  · cases h

/-- **One process at a time.** -/
theorem sole_step {a : Action} (h : step d s a = some s') (hs : s.Exclusive) (ha : s.Orderly a)
    {f p q : Nat} (hp : s'.Enqueues p f) (hq : s'.Enqueues q f) : p = q := by
  -- a process that the step admits is the one that advances, and no other is under way
  have hadm : ∀ p q, (s.passesCheck p f a = true ∨ s.claims p f a = true) → q ≠ p →
      ¬ s.Enqueues q f ∧ ¬ (s.passesCheck q f a = true ∨ s.claims q f a = true) := by
    rintro p q hcase hne
    have hadv : ∀ p, s.passesCheck p f a = true ∨ s.claims p f a = true →
        ∃ out, a = .advance p out := fun p hp =>
      hp.elim advance_of_passesCheck advance_of_claims
    have hothers : s.OthersSpare p f :=
      hcase.elim (fun h => (ha.check p f h).2) fun h => (ha.claim p f h).2
    refine ⟨fun ⟨P, hP, hn⟩ => hn (hothers q P hne hP), fun hq => hne ?_⟩
    obtain ⟨out, rfl⟩ := hadv p hcase
    obtain ⟨out', he⟩ := hadv q hq
    cases he
    rfl
  obtain ⟨P, hP, hnP⟩ := hp
  obtain ⟨Q, hQ, hnQ⟩ := hq
  obtain ⟨P₀, hP₀, -, hcaseP⟩ := enqueues_step h hs.roles hP hnP
  obtain ⟨Q₀, hQ₀, -, hcaseQ⟩ := enqueues_step h hs.roles hQ hnQ
  by_contra hne
  rcases hcaseP with hP' | hP'
  · rcases hcaseQ with hQ' | hQ'
    · exact hne (hs.sole f p q ⟨P₀, hP₀, hP'⟩ ⟨Q₀, hQ₀, hQ'⟩)
    · exact (hadm q p (hQ'.imp_right And.left) hne).1 ⟨P₀, hP₀, hP'⟩
  · have hn := hadm p q (hP'.imp_right And.left) (Ne.symm hne)
    rcases hcaseQ with hQ' | hQ'
    · exact hn.1 ⟨Q₀, hQ₀, hQ'⟩
    · exact hn.2 (hQ'.imp_right And.left)

/-- A live job that was there before the step, in the same guise. -/
theorem exists_of_continues {q q' : FetchQueue} (h : q.Continues q')
    {j : Job String FetchFeedJobData} (hj : j ∈ q'.jobs) (hl : j.Live) :
    ∃ i ∈ q.jobs, i.id = j.id ∧ i.data = j.data ∧ i.Live := by
  obtain ⟨i, hi, hd, hil⟩ := h j.id j (JobQueue.getJob_eq_some.mpr ⟨hj, rfl⟩) hl
  obtain ⟨hi, hid⟩ := JobQueue.getJob_eq_some.mp hi
  exact ⟨i, hi, hid, hd, hil⟩

/-- Jobs with one id are one job. -/
theorem job_ext {q : FetchQueue} {i j : Job String FetchFeedJobData} (hi : i ∈ q.jobs)
    (hj : j ∈ q.jobs) (h : i.id = j.id) : i = j :=
  List.inj_on_of_nodup_map q.nodup hi hj h

/-- What a step that adds no job keeps. -/
theorem free_one_of_continues {a : Action} (h : step d s a = some s') (hs : s.Exclusive)
    (ha : s.Orderly a) (hq : s.world.fetchQueue.Continues s'.world.fetchQueue) :
    (∀ f pid p, s'.procs pid = some p → ¬ Spares f p.prog →
        ∀ j ∈ s'.world.fetchQueue.jobs, j.Live → j.data.feedId = f →
          p.role = .scheduler ∧ j.id = scheduledJobId f) ∧
      ∀ i ∈ s'.world.fetchQueue.jobs, ∀ j ∈ s'.world.fetchQueue.jobs, i.Live → j.Live →
        i.data.feedId = j.data.feedId → i = j := by
  refine ⟨fun f pid p hp hn j hj hl hf => ?_, fun i hi j hj hil hjl hf => ?_⟩
  · obtain ⟨i, hi, hid, hd, hil⟩ := exists_of_continues hq hj hl
    have hif : i.data.feedId = f := by rw [hd, hf]
    obtain ⟨p₀, hp₀, hrole, hold | hcheck | ⟨hclaim, hsched⟩⟩ := enqueues_step h hs.roles hp hn
    · obtain ⟨hr, hname⟩ := hs.free f pid p₀ hp₀ hold i hi hil hif
      exact ⟨hrole ▸ hr, hid ▸ hname⟩
    · exact absurd ⟨i, hi, hil, hif⟩ (ha.check pid f hcheck).1
    · exact ⟨hsched, hid ▸ (ha.claim pid f hclaim).1 i hi hil hif⟩
  · obtain ⟨i', hi', hiid, hid, hil'⟩ := exists_of_continues hq hi hil
    obtain ⟨j', hj', hjid, hjd, hjl'⟩ := exists_of_continues hq hj hjl
    obtain rfl := hs.one i' hi' j' hj' hil' hjl' (by rw [hid, hjd, hf])
    exact job_ext hi hj (hiid.symm.trans hjid)

/-- The call of a process that adds a job, and what is left of the process after it. -/
theorem add_of_executedCall {a : Action} (h : step d s a = some s') {pid : Nat} {jobId : String}
    {data : FetchFeedJobData}
    (hx : s.executedCall a = some (pid, .queue (.addFetchJob jobId data))) :
    (∀ q f, s.passesCheck q f a = false ∧ s.claims q f a = false) ∧
      ∃ role k r, s.procs pid = some ⟨role, .call (.queue (.addFetchJob jobId data)) k⟩ ∧
        s'.procs = setProc s.procs pid (some ⟨role, k r⟩) := by
  obtain ⟨out, role, k, rfl, hp⟩ := executedCall_eq_some hx
  obtain ⟨r, w, -, rfl⟩ := advance_of_call hp h
  refine ⟨fun q f => ?_, role, k, r, hp, rfl⟩
  constructor
  · cases out <;> simp [passesCheck, hp]
  · cases out with
    | ok ch => cases ch <;> simp [claims, hp]
    | _ => rfl

/-- What the addition of a job keeps. -/
theorem free_one_of_add {a : Action} (h : step d s a = some s') (hs : s.Exclusive)
    {pid : Nat} {jobId : String} {data : FetchFeedJobData}
    (hx : s.executedCall a = some (pid, .queue (.addFetchJob jobId data)))
    (hq : s'.world.fetchQueue = s.world.fetchQueue.add jobId data) :
    (∀ f pid p, s'.procs pid = some p → ¬ Spares f p.prog →
        ∀ j ∈ s'.world.fetchQueue.jobs, j.Live → j.data.feedId = f →
          p.role = .scheduler ∧ j.id = scheduledJobId f) ∧
      ∀ i ∈ s'.world.fetchQueue.jobs, ∀ j ∈ s'.world.fetchQueue.jobs, i.Live → j.Live →
        i.data.feedId = j.data.feedId → i = j := by
  obtain ⟨hnoAdmit, role, k, r, hp, hprocs⟩ := add_of_executedCall h hx
  have hadds : ¬ Spares data.feedId (.call (.queue (.addFetchJob jobId data)) k) :=
    fun hsp => hsp.addedFeed_ne rfl
  have hmay : role.MayIssue (.queue (.addFetchJob jobId data)) :=
    (issues_call.mp (hs.roles pid _ hp)).1
  -- a live job is an old one, or has the id of the new one
  have hjobs : ∀ j ∈ s'.world.fetchQueue.jobs, j.Live →
      j ∈ s.world.fetchQueue.jobs ∨ (j.id = jobId ∧ j.data.feedId = data.feedId) := by
    intro j hj _
    rw [hq] at hj
    have hget := JobQueue.getJob_eq_some.mpr ⟨hj, rfl⟩
    rcases JobQueue.getJob_add_eq_some hget with hold | ⟨hid, -, hnew⟩
    · exact .inl (JobQueue.getJob_eq_some.mp hold).1
    · exact .inr ⟨hid, by rw [hnew]; rfl⟩
  -- so the live jobs of the feed all have that id
  have hid : ∀ j ∈ s'.world.fetchQueue.jobs, j.Live → j.data.feedId = data.feedId →
      j.id = jobId := by
    intro j hj hl hf
    rcases hjobs j hj hl with hold | ⟨hid, -⟩
    · obtain ⟨hrole, hname⟩ := hs.free data.feedId pid _ hp hadds j hold hl hf
      obtain rfl : role = .scheduler := hrole
      have hadded : jobId = scheduledJobId data.feedId := hmay
      rw [hname, hadded]
    · exact hid
  refine ⟨fun f q p hqp hn j hj hl hf => ?_, fun i hi j hj hil hjl hf => ?_⟩
  · obtain ⟨p₀, hp₀, hrole, hold | hcheck | ⟨hclaim, -⟩⟩ := enqueues_step h hs.roles hqp hn
    · by_cases hfeed : f = data.feedId
      · subst hfeed
        -- the process is the one that adds the job
        obtain rfl : q = pid := hs.sole _ q pid ⟨p₀, hp₀, hold⟩ ⟨_, hp, hadds⟩
        rw [hprocs, setProc_self] at hqp
        obtain rfl := Option.some.inj hqp
        cases role with
        | scheduler => exact ⟨rfl, (hid j hj hl hf).trans hmay⟩
        | request =>
          obtain ⟨done, honce⟩ := hs.once q _ hp
          obtain rfl : done = false := honce.1 rfl
          exact absurd (spares_of_addsOnce (honce.2 r true rfl)) hn
        | fetchWorker => exact hmay.elim
        | deliveryWorker => exact hmay.elim
      · rcases hjobs j hj hl with hj' | ⟨-, hf'⟩
        · obtain ⟨hr, hname⟩ := hs.free f q p₀ hp₀ hold j hj' hl hf
          exact ⟨hrole ▸ hr, hname⟩
        · exact absurd (hf.symm.trans hf') hfeed
    · rw [(hnoAdmit q f).1] at hcheck
      cases hcheck
    · rw [(hnoAdmit q f).2] at hclaim
      cases hclaim
  · by_cases hfeed : i.data.feedId = data.feedId
    · exact job_ext hi hj
        ((hid i hi hil hfeed).trans (hid j hj hjl (hf.symm.trans hfeed)).symm)
    · rcases hjobs i hi hil with hi' | ⟨-, hf'⟩
      · rcases hjobs j hj hjl with hj' | ⟨-, hf'⟩
        · exact hs.one i hi' j hj' hil hjl hf
        · exact absurd (hf.trans hf') hfeed
      · exact absurd hf' hfeed

/-- The kind of request-adding and worker processes after a step. -/
theorem once_step {a : Action} (h : step d s a = some s') (hs : s.Exclusive) {pid : Nat}
    {prog : Program Unit} (hp : s'.procs pid = some ⟨.request, prog⟩) :
    ∃ done, AddsOnce prog done := by
  have hproc := procs_step h
  generalize s'.procs = procs at hproc hp
  cases hproc with
  | stay => exact hs.once pid prog hp
  | launch _ q role p hfree hl =>
    by_cases hq : pid = q
    · subst hq
      rw [setProc_self] at hp
      cases hp
      cases hl with
      | request _ r => exact ⟨false, request_addsOnce r⟩
    · rw [setProc_of_ne hq] at hp
      exact hs.once pid prog hp
  | advance q out role c k r w hq' ha =>
    by_cases hq : pid = q
    · subst hq
      rw [setProc_self] at hp
      cases hp
      obtain ⟨done, hdone⟩ := hs.once pid _ hq'
      exact ⟨_, hdone.2 r _ rfl⟩
    · rw [setProc_of_ne hq] at hp
      exact hs.once pid prog hp
  | leave _ q =>
    by_cases hq : pid = q
    · subst hq
      rw [setProc_self] at hp
      cases hp
    · rw [setProc_of_ne hq] at hp
      exact hs.once pid prog hp

/-- A worker after a step was there before it, or has just taken its job. -/
theorem fetchWorker_step {a : Action} (h : step d s a = some s') {pid f : Nat} {jobId : String}
    {prog : Program Unit} (hp : s'.procs pid = some ⟨.fetchWorker jobId f, prog⟩) :
    (∃ prog₀, s.procs pid = some ⟨.fetchWorker jobId f, prog₀⟩ ∧ a ≠ .finish pid) ∨
      ∃ job : Job String FetchFeedJobData, a = .takeFetch pid jobId ∧ job.data.feedId = f ∧
        s'.world.fetchQueue.Holds jobId pid job.data := by
  by_cases hend : a = .finish pid
  · subst hend
    have hnone : s'.procs pid = none := by
      obtain ⟨role, prog', -, ⟨-, rfl⟩ | ⟨e, -, rfl⟩⟩ := finish_eq_some h
      · exact setProc_self ..
      · exact setProc_self ..
    rw [hnone] at hp
    cases hp
  have hproc := procs_step h
  generalize hprocs : s'.procs = procs at hproc hp
  cases hproc with
  | stay => exact .inl ⟨prog, hp, hend⟩
  | launch _ q role p hfree hl =>
    by_cases hq : pid = q
    · subst hq
      rw [setProc_self] at hp
      cases hp
      cases hl with
      | fetch _ _ job hj =>
        obtain ⟨job', q, ht, -, rfl⟩ := takeFetch_eq_some h
        obtain rfl := Option.some.inj ((JobQueue.take_eq_some ht).1.symm.trans hj)
        exact .inr ⟨job', rfl, rfl, JobQueue.holds_take ht⟩
    · rw [setProc_of_ne hq] at hp
      exact .inl ⟨prog, hp, hend⟩
  | advance q out role c k r w hq' ha =>
    by_cases hq : pid = q
    · subst hq
      rw [setProc_self] at hp
      cases hp
      exact .inl ⟨_, hq', hend⟩
    · rw [setProc_of_ne hq] at hp
      exact .inl ⟨prog, hp, hend⟩
  | leave _ q =>
    by_cases hq : pid = q
    · subst hq
      rw [setProc_self] at hp
      cases hp
    · rw [setProc_of_ne hq] at hp
      exact .inl ⟨prog, hp, hend⟩

/-- **What an orderly step keeps.** -/
theorem exclusive_step {a : Action} (hs : s.Exclusive) (ha : s.Orderly a)
    (h : step d s a = some s') : s'.Exclusive := by
  have hfree : (∀ f pid p, s'.procs pid = some p → ¬ Spares f p.prog →
        ∀ j ∈ s'.world.fetchQueue.jobs, j.Live → j.data.feedId = f →
          p.role = .scheduler ∧ j.id = scheduledJobId f) ∧
      ∀ i ∈ s'.world.fetchQueue.jobs, ∀ j ∈ s'.world.fetchQueue.jobs, i.Live → j.Live →
        i.data.feedId = j.data.feedId → i = j := by
    rcases fetchQueue_step h with ⟨pid, jobId, data, hx, hq⟩ | hq
    · exact free_one_of_add h hs hx hq
    · exact free_one_of_continues h hs ha hq
  refine ⟨rolesKept_step hs.roles h, fun pid prog hp => once_step h hs hp, ?_,
    fun f p q hp hq => sole_step h hs ha hp hq, hfree.1, hfree.2⟩
  intro pid jobId f prog hp
  rcases fetchWorker_step h hp with ⟨prog₀, hp₀, hend⟩ | ⟨job, -, hf, hheld⟩
  · obtain ⟨data, hf, hheld⟩ := hs.held pid jobId f prog₀ hp₀
    refine ⟨data, hf, holds_step h hend (fun hlock => ?_) hheld⟩
    exact ha.lock jobId hlock pid f prog₀ hp₀
  · exact ⟨job.data, hf, hheld⟩

/-- A check is accepted only when no job of the feed will run. -/
theorem Exclusive.not_hasFetchJob {a : Action} {f : Nat} (hs : s.Exclusive)
    (h : s.AcceptsCheck a f) : ¬ s.HasFetchJob f := by
  rintro ⟨j, hj, hl, hf⟩
  obtain ⟨pid, prog, c, hp, hx, hadds⟩ := h
  obtain ⟨out, role, k, rfl, hp'⟩ := executedCall_eq_some hx
  obtain ⟨rfl, rfl⟩ := Process.mk.inj (Option.some.inj (hp.symm.trans hp'))
  obtain ⟨hrole, -⟩ := hs.free f pid _ hp (fun hsp => hsp.addedFeed_ne hadds) j hj hl hf
  cases hrole

/-- **At most one fetch job per feed, along every orderly run.** No check is accepted for a
feed while a job of the feed is waiting, delayed or running, at most one job of each feed
will run at any time, and at most one worker runs one. -/
theorem exclusive_of_orderly {s₀ : System} {as : List Action} (h₀ : s₀.Init)
    (has : Along (step d) (fun s a _ => s.Orderly a) s₀ as) :
    Along (step d) (fun s a _ => ∀ f, s.AcceptsCheck a f → ¬ s.HasFetchJob f) s₀ as ∧
      Always (step d) OneFetchJob s₀ as := by
  have hstep : ∀ s a s', Exclusive s → step d s a = some s' → s.Orderly a → s'.Exclusive :=
    fun _ _ _ hs h ha => exclusive_step hs ha h
  have hrun : Always (step d) Exclusive s₀ as := always_of_along hstep (exclusive_of_init h₀) has
  refine ⟨?_, hrun.mono fun s hs => hs.oneFetchJob⟩
  exact hrun.along fun s a s' hs h f hacc => hs.not_hasFetchJob hacc

/-- A check of the feed, up to the addition of its job. -/
def checkNow (pid : Nat) : List Action := .request pid (.checkFeedNow 1 "t") :: proceed pid 4

/-- A step of the only process, before there is a job, is orderly. -/
theorem orderly_of_alone {pid : Nat} {a : Action} (halone : ∀ q, q ≠ pid → s.procs q = none)
    (hjobs : s.world.fetchQueue.jobs = [])
    (ha : (∃ r, a = .request pid r) ∨ ∃ out, a = .advance pid out) : s.Orderly a := by
  have hno : ∀ j ∈ s.world.fetchQueue.jobs, False := by simp [hjobs]
  have hothers : ∀ q f, (∃ out, a = .advance q out) → s.OthersSpare q f := by
    rintro q f ⟨out, rfl⟩ q' p hne hp
    rcases ha with ⟨r, ha⟩ | ⟨out', ha⟩
    · cases ha
    · cases ha
      rw [halone q' hne] at hp
      cases hp
  refine ⟨fun q f h => ⟨?_, hothers q f (advance_of_passesCheck h)⟩,
    fun q f h => ⟨fun j hj => (hno j hj).elim, hothers q f (advance_of_claims h)⟩, ?_⟩
  · rintro ⟨j, hj, -⟩
    exact hno j hj
  · rintro jobId rfl
    rcases ha with ⟨r, ha⟩ | ⟨out, ha⟩ <;> cases ha

/-- So is a run of such steps. -/
theorem along_orderly_of_alone {pid : Nat} {as : List Action}
    (halone : ∀ q, q ≠ pid → s.procs q = none)
    (has : ∀ a ∈ as, (∃ r, a = .request pid r) ∨ ∃ out, a = .advance pid out)
    (hjobs : Along (step d) (fun s _ _ => s.world.fetchQueue.jobs = []) s as) :
    Along (step d) (fun s a _ => s.Orderly a) s as := by
  induction as generalizing s with
  | nil => trivial
  | cons a as ih =>
    intro s' h
    have hact := has a List.mem_cons_self
    refine ⟨orderly_of_alone halone (hjobs s' h).1 hact,
      ih (fun q hq => ?_) (fun b hb => has b (List.mem_cons_of_mem a hb)) (hjobs s' h).2⟩
    rcases hact with ⟨r, rfl⟩ | ⟨out, rfl⟩
    · obtain ⟨-, rfl⟩ := start_eq_some h
      exact (setProc_of_ne hq).trans (halone q hq)
    · obtain ⟨role, c, k, r, w, -, -, rfl⟩ := advance_eq_some h
      exact (setProc_of_ne hq).trans (halone q hq)

/-- One check of the feed. -/
theorem exclusive_oneFeed :
    oneFeed.Init ∧
      Along (step webhookDeployment) (fun s a _ => s.Orderly a) oneFeed
        (checkNow 1 ++ proceed 1 1) ∧
      Along (step webhookDeployment) (fun s a _ => ∀ f, s.AcceptsCheck a f → ¬ s.HasFetchJob f)
        oneFeed (checkNow 1 ++ proceed 1 1) ∧
      Always (step webhookDeployment) OneFetchJob oneFeed (checkNow 1 ++ proceed 1 1) := by
  have horderly : Along (step webhookDeployment) (fun s a _ => s.Orderly a) oneFeed
      (checkNow 1 ++ proceed 1 1) := by
    refine along_orderly_of_alone (fun (q : Nat) (_ : q ≠ 1) => rfl) ?_ ?_
    · simp [checkNow, proceed]
    · decide
  exact ⟨oneFeed_init, horderly, exclusive_of_orderly oneFeed_init horderly⟩

/-- A check of the feed, and another one a millisecond later. -/
def checkTwice : List Action :=
  checkNow 1 ++ proceed 1 1 ++ [.finish 1, .elapse 1] ++ checkNow 2

/-- Two workers take the two jobs. -/
def takeBoth : List Action :=
  [.takeFetch 3 "feed-1-manual-1000000", .takeFetch 4 "feed-1-manual-1000001"]

/-- **Two checks are accepted one after the other**, although the first job is still waiting,
and two workers then fetch the feed at the same time. -/
theorem check_stacked :
    oneFeed.Init ∧
      ¬ Along (step webhookDeployment)
        (fun s a _ => ∀ f, s.AcceptsCheck a f → ¬ s.HasFetchJob f) oneFeed
        (checkTwice ++ [.advance 2 (.ok .none)]) ∧
      ¬ Always (step webhookDeployment) OneFetchJob oneFeed
        (checkTwice ++ .advance 2 (.ok .none) :: takeBoth) := by
  refine ⟨oneFeed_init, fun h => ?_, fun h => ?_⟩
  · have hrun : ((run (step webhookDeployment) oneFeed checkTwice).bind fun s =>
        (step webhookDeployment s (.advance 2 (.ok .none))).map fun _ =>
          ((s.procs 2).map Process.role,
            (s.executedCall (.advance 2 (.ok .none))).map fun x => addedFeed x.2,
            decide (s.HasFetchJob 1))) = some (some .request, some (some 1), true) := by decide
    obtain ⟨s, hs, hrun⟩ := Option.bind_eq_some_iff.mp hrun
    obtain ⟨s', hs', hrun⟩ := Option.map_eq_some_iff.mp hrun
    simp only [Prod.mk.injEq, Option.map_eq_some_iff, decide_eq_true_eq] at hrun
    obtain ⟨⟨⟨_, prog⟩, hp, rfl⟩, ⟨⟨q, c⟩, hx, hadds⟩, hjob⟩ := hrun
    obtain ⟨out, role, k, ha, hp'⟩ := executedCall_eq_some hx
    cases ha
    exact h.last hs hs' 1 ⟨2, prog, c, hp, hx, hadds⟩ hjob
  · have hrun : (run (step webhookDeployment) oneFeed
        (checkTwice ++ .advance 2 (.ok .none) :: takeBoth)).map (fun s =>
          ((s.procs 3).map Process.role, (s.procs 4).map Process.role)) =
        some (some (.fetchWorker "feed-1-manual-1000000" 1),
          some (.fetchWorker "feed-1-manual-1000001" 1)) := by decide
    obtain ⟨s, hs, hroles⟩ := Option.map_eq_some_iff.mp hrun
    simp only [Prod.mk.injEq, Option.map_eq_some_iff] at hroles
    obtain ⟨⟨⟨_, p₃⟩, hp₃, rfl⟩, ⟨_, p₄⟩, hp₄, rfl⟩ := hroles
    exact absurd ((h.last hs).workers 1 3 4 _ _ p₃ p₄ hp₃ hp₄) (by decide)

end System

end Feedpulse
