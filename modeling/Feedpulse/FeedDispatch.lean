import Feedpulse.Footprints
import Feedpulse.Frames
import Std.Data.String.ToNat

/-!
# A claimed feed and its fetch job

The scheduler claims due feeds and enqueues a job for each under an id that depends on
nothing but the feed; a job the queue still knows under that id makes the enqueue a no-op.
`dispatch_iff` says that in every run of ticks and workers the claimed feeds get a job that
will run precisely if no enqueue is answered while a failed job of the feed is retained;
`claimed_after_exhaustion` is a run in which one is.
-/

namespace Feedpulse

open Prog

/-- Different feeds have different job ids. -/
theorem scheduledJobId_injective : Function.Injective scheduledJobId := fun _ _ h =>
  Nat.repr_injective ((String.append_right_inj _).mp h)

/-! ## Every claimed feed is enqueued -/

namespace Scheduler

/-- The answer to a lookup or an addition settles the enqueue of the first feed still to
be enqueued; a lookup that finds nothing leaves it open. -/
def Enqueued (todo : List Nat) (c : Call) (r : Except String c.Reply) (todo' : List Nat) : Prop :=
  match c, r with
  | .queue (.getFetchJob _), .ok none => todo' = todo
  | _, _ => todo' = todo.tail

/-- The next call concerns the first feed still to be enqueued. -/
def Enqueues (todo : List Nat) (c : Call) : Prop :=
  ∃ f, todo.head? = some f ∧
    (c = .queue (.getFetchJob (scheduledJobId f)) ∨
      ∃ data, c = .queue (.addFetchJob (scheduledJobId f) data) ∧ data.feedId = f)

/-- **The enqueues of a tick** address the claimed feeds one after the other, and none is
left out, whatever becomes of the others. -/
theorem enqueueAll_meets (queuedAt : Nat) (feeds : List FeedRow) :
    Meets Enqueues Enqueued (enqueueAll queuedAt feeds) (fun _ todo => todo = [])
      (feeds.map FeedRow.id) := by
  induction feeds with
  | nil => simp [enqueueAll]
  | cons feed feeds ih =>
    have hrest : ∀ result : Except String FetchFeedEnqueueResult,
        Meets Enqueues Enqueued (do
            let results ← enqueueAll queuedAt feeds
            pure (result :: results))
          (fun _ todo => todo = []) (feeds.map FeedRow.id) := fun result =>
      meets_bind.mpr (ih.mono fun r todo h => by cases r <;> exact h)
    refine meets_bind.mpr (meets_attempt.mpr ?_)
    refine meets_bind.mpr (meets_invoke.mpr ⟨⟨feed.id, rfl, .inl rfl⟩, fun r todo hr => ?_⟩)
    rcases r with e | _ | job
    · obtain rfl : todo = feeds.map FeedRow.id := hr
      exact hrest _
    · obtain rfl : todo = feed.id :: feeds.map FeedRow.id := hr
      refine meets_bind.mpr (meets_invoke.mpr ⟨⟨feed.id, rfl, .inr ⟨_, rfl, rfl⟩⟩, ?_⟩)
      intro r todo hr
      obtain rfl : todo = feeds.map FeedRow.id := by cases r <;> exact hr
      cases r with
      | error e => exact hrest _
      | ok u => exact hrest _
    · obtain rfl : todo = feeds.map FeedRow.id := hr
      exact hrest _

end Scheduler

namespace System

open Transition

variable {d : Deployment} {s s' : System}

/-! ## Claims and answers -/

/-- The process an action starts. -/
def starts : Action → Option Nat
  | .tick pid => some pid
  | .request pid _ => some pid
  | .takeFetch pid _ => some pid
  | .takeDelivery pid _ => some pid
  | _ => none

/-- The step is a claim of the process that returns the feed. -/
def claims (s : System) (pid feedId : Nat) : Action → Bool
  | .advance q (.ok (.claim _ picks _)) =>
    q = pid && picks.any (fun f => f.id = feedId) &&
      match s.procs q with
      | some ⟨_, .call (.feed (.claimDueFeeds _)) _⟩ => true
      | _ => false
  | _ => false

/-- The step answers the process's enqueue of the feed: the job is found, or added. -/
def answersEnqueue (s : System) (pid feedId : Nat) : Action → Bool
  | .advance q (.ok _) =>
    q = pid &&
      match s.procs q with
      | some ⟨_, .call (.queue (.getFetchJob jobId)) _⟩ =>
        jobId = scheduledJobId feedId && (s.world.fetchQueue.getJob jobId).isSome
      | some ⟨_, .call (.queue (.addFetchJob jobId _)) _⟩ => jobId = scheduledJobId feedId
      | _ => false
  | _ => false

/-- A fetch job of the feed will run. -/
def HasFetchJob (s : System) (feedId : Nat) : Prop :=
  ∃ j ∈ s.world.fetchQueue.jobs, j.Live ∧ j.data.feedId = feedId

instance (feedId : Nat) : Decidable (s.HasFetchJob feedId) :=
  inferInstanceAs (Decidable (∃ j ∈ s.world.fetchQueue.jobs, _))

/-- In the run `as` the process `pid` claims the feed while no job of the feed will run, and
its enqueue is answered by the action `b`, which leads from `t` to `t'`. -/
def Dispatches (d : Deployment) (s₀ : System) (as : List Action) (pid feedId : Nat)
    (t : System) (b : Action) (t' : System) : Prop :=
  ∃ xs a ys zs s s', as = xs ++ a :: ys ++ b :: zs ∧
    run (step d) s₀ xs = some s ∧ step d s a = some s' ∧
    s.claims pid feedId a = true ∧ ¬ s.HasFetchJob feedId ∧
    run (step d) s' ys = some t ∧ (∀ c ∈ ys, starts c ≠ some pid) ∧
    step d t b = some t' ∧ t.answersEnqueue pid feedId b = true

/-- The run is made of ticks and workers, without requests. -/
def NoRequests (as : List Action) : Prop := ∀ a ∈ as, ∀ pid r, a ≠ .request pid r

/-! ## Fetch jobs stand under the ids of their feeds -/

/-- The id of a fetch job of the scheduler with this payload. -/
def NamedAfterFeed (jobId : String) (data : FetchFeedJobData) : Prop :=
  jobId = scheduledJobId data.feedId

/-- No process serves a request, and every fetch job stands under the id of its feed. -/
structure Scheduled (s : System) : Prop where
  /-- every process keeps to its role -/
  roles : s.RolesKept
  /-- no process serves a request -/
  noRequests : ∀ pid p, s.procs pid = some p → p.role ≠ .request
  /-- every fetch job stands under the id of its feed -/
  named : ∀ j ∈ s.world.fetchQueue.jobs, NamedAfterFeed j.id j.data

theorem scheduled_of_init (h : s.Init) : s.Scheduled where
  roles := rolesKept_of_init h
  noRequests := fun pid p hp => by
    rw [h.procs] at hp
    cases hp
  named := fun j hj => by
    rw [h.fetchQueue] at hj
    cases hj

/-- Of the calls, only adding a job changes the fetch queue. -/
theorem fetchQueue_effect {pid : Nat} {c : Call} {w w' : World} (h : CallEffect pid w c w') :
    w'.fetchQueue = w.fetchQueue ∨ ∃ jobId data, c = .queue (.addFetchJob jobId data) ∧
      w'.fetchQueue = w.fetchQueue.add jobId data := by
  cases h with
  | addFetchJob jobId data => exact .inr ⟨jobId, data, rfl, rfl⟩
  | commit =>
    refine .inl ?_
    unfold World.commitTxn
    split <;> rfl
  | _ => exact .inl rfl

/-- Without requests, a job may be added only under the id of its feed. -/
theorem namedAfterFeed_of_mayIssue {role : Role} {jobId : String} {data : FetchFeedJobData}
    (hrole : role ≠ .request) (h : role.MayIssue (.queue (.addFetchJob jobId data))) :
    NamedAfterFeed jobId data := by
  cases role with
  | scheduler => exact h
  | request => exact absurd rfl hrole
  | fetchWorker => exact h.elim
  | deliveryWorker => exact h.elim

theorem scheduled_step {a : Action} (hreq : ∀ pid r, a ≠ .request pid r) (hs : s.Scheduled)
    (h : step d s a = some s') : s'.Scheduled where
  roles := rolesKept_step hs.roles h
  noRequests := by
    refine forall_procs_step (fun p => p.role ≠ .request) h hs.noRequests ?_ ?_
    · intro pid role prog hl
      cases hl with
      | request pid r => exact absurd rfl (hreq pid r)
      | _ => exact Role.noConfusion
    · exact fun _ _ _ _ hp => hp
  named := by
    rcases step_effect h with ⟨pid, c, ch, r, he, hc⟩ | ⟨-, hq⟩
    · rcases fetchQueue_effect (serve_effect hc) with hq | ⟨jobId, data, rfl, hq⟩
      · rw [hq]
        exact hs.named
      · obtain ⟨p, hp, hmay⟩ := mayIssue_of_executedCall hs.roles he
        rw [hq]
        exact JobQueue.forall_add NamedAfterFeed hs.named
          (namedAfterFeed_of_mayIssue (hs.noRequests pid p hp) hmay)
    · generalize s'.world = w' at hq
      cases hq with
      | fetchQueue q hq => exact hq.forall NamedAfterFeed hs.named
      | _ => exact hs.named

/-- In a run of ticks and workers a job of the feed will run exactly if the job with its id
will. -/
theorem hasFetchJob_iff (hs : s.Scheduled) (feedId : Nat) :
    s.HasFetchJob feedId ↔ s.world.fetchQueue.HasLive (scheduledJobId feedId) :=
  JobQueue.exists_live_iff_hasLive FetchFeedJobData.feedId scheduledJobId_injective hs.named
    feedId

/-! ## One answer -/

/-- **An answered enqueue** leaves a job that will run, unless a failed one is retained. -/
theorem answersEnqueue_step {a : Action} {pid feedId : Nat}
    (ha : s.answersEnqueue pid feedId a = true) (h : step d s a = some s') :
    s'.world.fetchQueue.HasLive (scheduledJobId feedId) ↔
      ¬ s.world.fetchQueue.HasFailed (scheduledJobId feedId) := by
  cases a with
  | advance q out =>
    obtain ⟨role, c, k, r, w, hp, hc, rfl⟩ := advance_eq_some h
    cases out with
    | ok ch =>
      simp only [answersEnqueue, hp, Bool.and_eq_true] at ha
      obtain ⟨-, ha⟩ := ha
      split at ha
      · rename_i role' jobId k' heq
        cases heq
        -- the job is found: the queue stays as it is
        simp only [Bool.and_eq_true, decide_eq_true_eq, Option.isSome_iff_exists] at ha
        obtain ⟨rfl, j, hj⟩ := ha
        cases hc
        constructor
        · exact JobQueue.not_hasFailed_of_hasLive
        · exact fun hn => (JobQueue.hasLive_or_hasFailed rfl hj).resolve_right hn
      · rename_i role' jobId data k' heq
        cases heq
        -- the job is added
        obtain rfl := of_decide_eq_true ha
        cases hc
        exact JobQueue.hasLive_add_iff rfl _ _ data
      · cases ha
    | _ => cases ha
  | _ => cases ha

/-! ## Runs -/

/-- **In a run of ticks and workers every claimed feed without a job gets one that will run,
exactly if no enqueue of such a feed is answered while a failed job of the feed is
retained.** -/
theorem dispatch_iff {s₀ : System} (h₀ : s₀.Init) {as : List Action} (has : NoRequests as) :
    (∀ pid feedId t b t', Dispatches d s₀ as pid feedId t b t' → t'.HasFetchJob feedId) ↔
      ∀ pid feedId t b t', Dispatches d s₀ as pid feedId t b t' →
        ¬ t.world.fetchQueue.HasFailed (scheduledJobId feedId) := by
  refine forall_congr' fun pid => forall_congr' fun feedId => forall_congr' fun t =>
    forall_congr' fun b => forall_congr' fun t' => imp_congr_right ?_
  rintro ⟨xs, a, ys, zs, s, s', rfl, hxs, ha, -, -, hys, -, hb, hans⟩
  have hstep : ∀ s a s', (∀ pid r, a ≠ .request pid r) → Scheduled s →
      step d s a = some s' → Scheduled s' := fun _ _ _ hreq hs h => scheduled_step hreq hs h
  have hs : s.Scheduled := run_invariant_of_forall hstep (fun c hc => has c (by simp [hc]))
    (scheduled_of_init h₀) hxs
  have ht : t.Scheduled := run_invariant_of_forall hstep (fun c hc => has c (by simp [hc]))
    (hstep s a s' (has a (by simp)) hs ha) hys
  rw [hasFetchJob_iff (hstep t b t' (has b (by simp)) ht hb)]
  exact answersEnqueue_step hans hb

/-- The tick that claims the feed, and the answers to its enqueue. -/
theorem dispatch_oneFeed :
    oneFeed.Init ∧ NoRequests (schedulerTick 1 [dueFeed]) ∧
      ((∀ pid feedId t b t', Dispatches webhookDeployment oneFeed (schedulerTick 1 [dueFeed])
          pid feedId t b t' → t'.HasFetchJob feedId) ↔
        ∀ pid feedId t b t', Dispatches webhookDeployment oneFeed (schedulerTick 1 [dueFeed])
          pid feedId t b t' → ¬ t.world.fetchQueue.HasFailed (scheduledJobId feedId)) := by
  have hreq : NoRequests (schedulerTick 1 [dueFeed]) := by
    intro a ha pid r
    rintro rfl
    simp [schedulerTick, proceed] at ha
  exact ⟨oneFeed_init, hreq, dispatch_iff oneFeed_init hreq⟩

/-- An attempt to fetch the feed that fails transiently. -/
def failFetch (pid : Nat) : List Action :=
  .takeFetch pid "feed-1" :: proceed pid 2 ++
    [.advance pid (.refused "fetch_timeout"), .advance pid (.ok (.random 0))] ++
    proceed pid 3 ++ [.finish pid]

/-- The feed after three such attempts, when it is due again. -/
def failedFeed : FeedRow :=
  { dueFeed with
    status := .error
    lastCheckedAt := some 1000000
    nextCheckAt := 8200000
    errorCount := 3
    lastError := some "fetch_timeout"
    updatedAt := 1000000 }

/-- All three attempts fail; hours later, a tick begins. -/
def exhaustFetch : List Action :=
  schedulerTick 1 [dueFeed] ++ failFetch 2 ++ [.promoteFetch "feed-1"] ++ failFetch 3 ++
    [.promoteFetch "feed-1"] ++ failFetch 4 ++ [.elapse 9000000] ++ .tick 5 :: proceed 5 3

/-- The tick claims the feed. -/
def claimFailedFeed : Action := .advance 5 (.ok (.claim [] [failedFeed] []))

/-- **A feed whose fetch job is exhausted is claimed and never fetched again**: the enqueue
is answered with the failed job. -/
theorem claimed_after_exhaustion :
    oneFeed.Init ∧
      NoRequests (exhaustFetch ++ claimFailedFeed :: proceed 5 1 ++ .advance 5 (.ok .none) :: []) ∧
      ¬ ∀ pid feedId t b t', Dispatches webhookDeployment oneFeed
        (exhaustFetch ++ claimFailedFeed :: proceed 5 1 ++ .advance 5 (.ok .none) :: [])
          pid feedId t b t' → t'.HasFetchJob feedId := by
  refine ⟨oneFeed_init, ?_, fun h => ?_⟩
  · intro a ha pid r
    rintro rfl
    simp [exhaustFetch, schedulerTick, failFetch, proceed, claimFailedFeed] at ha
  have hrun : ((run (step webhookDeployment) oneFeed exhaustFetch).bind fun s =>
      (step webhookDeployment s claimFailedFeed).bind fun s' =>
        (run (step webhookDeployment) s' (proceed 5 1)).bind fun t =>
          (step webhookDeployment t (.advance 5 (.ok .none))).map fun t' =>
            (s.claims 5 1 claimFailedFeed, decide (s.HasFetchJob 1),
              t.answersEnqueue 5 1 (.advance 5 (.ok .none)), decide (t'.HasFetchJob 1)))
      = some (true, false, true, false) := by decide
  obtain ⟨s, hs, hrun⟩ := Option.bind_eq_some_iff.mp hrun
  obtain ⟨s', hs', hrun⟩ := Option.bind_eq_some_iff.mp hrun
  obtain ⟨t, ht, hrun⟩ := Option.bind_eq_some_iff.mp hrun
  obtain ⟨t', ht', hrun⟩ := Option.map_eq_some_iff.mp hrun
  simp only [Prod.mk.injEq, decide_eq_false_iff_not] at hrun
  obtain ⟨hclaims, hno, hans, hno'⟩ := hrun
  refine hno' (h 5 1 t _ t' ⟨exhaustFetch, claimFailedFeed, proceed 5 1, [], s, s', rfl, hs, hs',
    hclaims, hno, ht, ?_, ht', hans⟩)
  simp [proceed, starts]

end System

end Feedpulse
