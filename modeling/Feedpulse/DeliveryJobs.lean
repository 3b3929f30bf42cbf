import Feedpulse.AwaitedAlerts
import Feedpulse.DeliveryFlags
import Feedpulse.HandOvers
import Feedpulse.QueuedAnswer

/-!
# A job for every alert that waits

An alert whose status is `queued` or `retrying` waits for a worker, so a job should be there for
it. `delivery_awaited` says for which runs one always is, unless the alert is being handed over
at that moment: those whose steps are `Careful`. A worker's settings leave no channel out, its
last attempt reads the alert and writes that it gives up, no hand-over is broken off while nobody
else sees to the alert, and no job fails by losing its lock while its alert waits.
-/

namespace Feedpulse

open Prog ProcessAlertDelivery

/-- The process has ended, and with its report the job ends, too: it has returned, or its job
has no attempt left. -/
def Process.concludes (jobId : String) : Process → Bool
  | ⟨.deliveryWorker id _, .ret _⟩ => id = jobId
  | ⟨.deliveryWorker id input, .throw _⟩ => id = jobId && !input.willRetry
  | _ => false

theorem Process.concludes_call {jobId : String} {role : Role} {c : Call}
    {k : Except String c.Reply → Program Unit} :
    Process.concludes jobId ⟨role, .call c k⟩ = false := by
  cases role <;> rfl

/-- The process has ended where `EndsSettled` says that its alert does not wait. -/
theorem Process.role_of_concludes {jobId : String} {p : Process}
    (h : p.concludes jobId = true) : ∃ input, p.role = .deliveryWorker jobId input ∧
      ∀ w, EndsSettled input w p.prog → ¬ w.Awaits input.alertId := by
  obtain ⟨role, prog⟩ := p
  cases role with
  | deliveryWorker id input =>
    cases prog with
    | ret a =>
      obtain rfl : id = jobId := of_decide_eq_true h
      exact ⟨input, rfl, fun w hend => hend⟩
    | throw e =>
      obtain ⟨hid, hretry⟩ := Bool.and_eq_true_iff.mp h
      obtain rfl : id = jobId := of_decide_eq_true hid
      exact ⟨input, rfl, fun w hend => hend (by simpa using hretry)⟩
    | call c k => cases h
  | _ => cases h

namespace System

open Transition

variable {d : Deployment} {s s' : System} {pid id : Nat} {jobId : String}

/-! ## Who sees to an alert -/

/-- A process hands the alert over: it has written the status, and adds the job next. -/
def HandsOver (s : System) (pid id : Nat) : Prop := ∃ p ∈ s.procs pid, HandingOver id p.prog

/-- The worker that holds the job has ended it, and will report so. -/
def Concluding (s : System) (jobId : String) : Prop :=
  ∃ j ∈ s.world.alertQueue.getJob jobId, j.state = .active ∧
    ∃ pid ∈ j.token, ∃ p ∈ s.procs pid, p.concludes jobId = true

instance : Decidable (s.Concluding jobId) :=
  inferInstanceAs (Decidable (∃ j ∈ s.world.alertQueue.getJob jobId, _))

/-- The alert has a job that will run, and no worker is about to end it. -/
def Owed (s : System) (id : Nat) : Prop :=
  s.world.alertQueue.HasLive (alertJobId id) ∧ ¬ s.Concluding (alertJobId id)

/-- Someone sees to the alert, if it waits. -/
def Served (s : System) (id : Nat) : Prop :=
  s.world.Awaits id → s.Owed id ∨ ∃ pid, s.HandsOver pid id

/-- Someone else than the process sees to the alert. -/
def SeenTo (s : System) (pid id : Nat) : Prop := s.Owed id ∨ ∃ q, q ≠ pid ∧ s.HandsOver q id

/-- The process holds the job it works on. -/
def HoldsItsJob (s : System) (pid : Nat) : Role → Prop
  | .deliveryWorker jobId _ => s.world.alertQueue.HeldBy jobId pid
  | _ => False

instance (role : Role) : Decidable (s.HoldsItsJob pid role) := by
  cases role <;> unfold HoldsItsJob <;> infer_instance

/-! ## Careful steps -/

/-- How a call may be answered while alerts wait. -/
structure CarefulCall (d : Deployment) (s : System) (pid : Nat) (role : Role) (out : Outcome)
    (c : Call) : Prop where
  /-- the settings a worker reads leave no channel of its alert out -/
  reads : ∀ jobId input, role = .deliveryWorker jobId input → s.HoldsItsJob pid role →
    ∀ a, s.world.alertRow input.alertId = some a → ReadsUnstuck d.config d.rt a s.world c
  /-- the last attempt reads what it has to, and its giving up is written -/
  last : ∀ jobId input, role = .deliveryWorker jobId input → s.HoldsItsJob pid role →
    input.willRetry = false → Misses s.world out c = false
  /-- a process that announces an attempt goes on to the hand-over, or holds the job; or the
  alert is seen to without it -/
  announces : ∀ id w, c = .alert (.write id w) → w.Announces = true → out.takesEffect = true →
    (w = .markDeliveryQueued ∧ out.arrives = true) ∨ s.HoldsItsJob pid role ∨
      s.world.Awaits id ∨ s.SeenTo pid id
  /-- a hand-over leaves a job that will run, unless the alert is seen to without it -/
  handsOver : ∀ jobId data, c = .queue (.addAlertJob jobId data) → s.world.Awaits data.alertId →
    s.SeenTo pid data.alertId ∨
      (out.takesEffect = true ∧ ¬ s.world.alertQueue.HasFailed jobId ∧ ¬ s.Concluding jobId)

/-- A step that abandons no alert that waits. -/
def Careful (d : Deployment) (s : System) : Action → Prop
  | .advance pid out => ∀ role c k, s.procs pid = some ⟨role, .call c k⟩ →
    CarefulCall d s pid role out c
  | .crash pid => ∀ id, s.HandsOver pid id → s.world.Awaits id → s.SeenTo pid id
  | .stallDelivery jobId => s.world.alertQueue.LastStall jobId →
    ∀ id, jobId = alertJobId id → s.world.Awaits id → ∃ pid, s.HandsOver pid id
  | _ => True

/-! ## Held jobs and drifting rows -/

/-- A worker holds after a step what it has held before, or has just taken. -/
theorem holdsJob_of_step {a : Action} {j : Job String AlertDeliveryJobData}
    (h : step d s a = some s') (htake : ∀ jobId, a ≠ .takeDelivery pid jobId)
    (hj : s'.world.alertQueue.HoldsJob jobId pid j) :
    s.world.alertQueue.HoldsJob jobId pid j := by
  cases a with
  | advance q out =>
    obtain ⟨role, c, k, r, w, -, ha, rfl⟩ := advance_eq_some h
    rcases Call.answer_eq_some ha with ⟨error, -, rfl, -⟩ | ⟨ch, x, hserve, -⟩
    · exact hj
    -- of the calls only `add` touches the queue, and a new job has no holder
    · rcases alertQueue_effect (serve_effect hserve) with hq | ⟨jobId', data, -, hq⟩
      · rw [hq] at hj
        exact hj
      · rw [hq] at hj
        exact hj.of_add
  | takeDelivery q jobId' =>
    obtain ⟨job, q', ht, -, rfl⟩ := takeDelivery_eq_some h
    refine JobQueue.HoldsJob.of_take ht ?_ hj
    rintro rfl
    exact htake jobId' rfl
  | finish q =>
    -- the end of a delivery completes its job or gives it back
    have hreport : ∀ role succeeded,
        (report s.world q role succeeded).alertQueue.HoldsJob jobId pid j →
          s.world.alertQueue.HoldsJob jobId pid j := by
      intro role succeeded hj
      cases role with
      | deliveryWorker jobId' input =>
        cases succeeded with
        | true => exact JobQueue.HoldsJob.of_complete rfl hj
        | false => exact JobQueue.HoldsJob.of_fail hj
      | _ => exact hj
    obtain ⟨role, prog, -, ⟨-, rfl⟩ | ⟨e, -, rfl⟩⟩ := finish_eq_some h
    · exact hreport _ _ hj
    · exact hreport _ _ hj
  | promoteDelivery jobId' =>
    obtain ⟨q, hq, rfl⟩ := Option.map_eq_some_iff.mp h
    exact JobQueue.HoldsJob.of_promote hq hj
  | stallDelivery jobId' =>
    obtain ⟨q, hq, rfl⟩ := Option.map_eq_some_iff.mp h
    exact JobQueue.HoldsJob.of_stall hq hj
  | tick q =>
    obtain ⟨-, rfl⟩ := start_eq_some h
    exact hj
  | request q r =>
    obtain ⟨-, rfl⟩ := start_eq_some h
    exact hj
  | takeFetch q jobId' =>
    obtain ⟨job, q, -, -, rfl⟩ := takeFetch_eq_some h
    exact hj
  | crash q =>
    obtain ⟨p, -, rfl⟩ := crash_eq_some h
    exact hj
  | promoteFetch jobId' =>
    obtain ⟨q, -, rfl⟩ := Option.map_eq_some_iff.mp h
    exact hj
  | stallFetch jobId' =>
    obtain ⟨q, -, rfl⟩ := Option.map_eq_some_iff.mp h
    exact hj
  | elapse ms =>
    obtain rfl := Option.some.inj h
    exact hj
  | saveSettings row =>
    obtain rfl := Option.some.inj h
    exact hj

/-- A process that is there takes no job. -/
theorem ne_takeDelivery {a : Action} {p : Process} (h : step d s a = some s')
    (hp : s.procs pid = some p) (jobId : String) : a ≠ .takeDelivery pid jobId := by
  rintro rfl
  obtain ⟨job, q, -, hfree, -⟩ := takeDelivery_eq_some h
  cases hfree.symm.trans hp

theorem alerts_of_quiet {w w' : World} (h : QuietStep w w') : w'.alerts = w.alerts := by
  cases h <;> rfl

/-- Rows drift, whatever a step does. -/
theorem drifts_step {a : Action} (h : step d s a = some s') :
    World.RowsKeep Drifts s.world s'.world := by
  rcases step_effect h with ⟨q, c, ch, r, -, hserve⟩ | ⟨-, hq⟩
  · exact World.drifts_effect (serve_effect hserve)
  · exact World.rowsKeep_of_alerts World.rowRelation_drifts (alerts_of_quiet hq)

theorem awaits_of_alerts {w w' : World} (h : w'.alerts = w.alerts) :
    w'.Awaits id ↔ w.Awaits id := by
  unfold World.Awaits World.alertRow
  rw [h]

/-- An alert starts to wait with an answer to a process that writes to it. -/
theorem awaits_step {a : Action} (hfresh : s.world.StagedFresh) (h : step d s a = some s')
    (hw : s'.world.Awaits id) (hno : ¬ s.world.Awaits id) :
    ∃ (pid : Nat) (out : Outcome) (role : Role) (w : AlertWrite)
      (k : Except String Nat → Program Unit), a = .advance pid out ∧
      s.procs pid = some ⟨role, .call (.alert (.write id w)) k⟩ ∧ w.Announces = true ∧
      out.takesEffect = true := by
  rcases step_effect h with ⟨pid, c, ch, r, he, hserve⟩ | ⟨-, hq⟩
  · rcases World.awaits_of_effect (serve_effect hserve) hfresh hw with hw | ⟨w, rfl, hann⟩
    · exact absurd hw hno
    · obtain ⟨out, role, k, rfl, hp⟩ := executedCall_eq_some he
      refine ⟨pid, out, role, w, k, rfl, hp, hann, ?_⟩
      simp only [executedCall, hp] at he
      exact (Option.ite_none_right_eq_some.mp he).1
  · exact absurd ((awaits_of_alerts (alerts_of_quiet hq)).mp hw) hno

/-! ## What holds in every state -/

/-- Every alert that waits is seen to, and every worker that holds its job is on the way to
settle its alert. -/
structure Serving (d : Deployment) (s : System) : Prop where
  /-- every process keeps to its role -/
  roles : s.RolesKept
  /-- delivery jobs stand under the ids of their alerts -/
  named : s.AlertJobsNamed
  /-- staged alerts are fresh, or versions of rows -/
  fresh : s.world.StagedFresh
  /-- hand-overs are finished -/
  handOvers : s.HandsOversWell
  /-- a worker knows the job it holds, and its attempt is under way -/
  workers : ∀ pid jobId input prog, s.procs pid = some ⟨.deliveryWorker jobId input, prog⟩ →
    jobId = alertJobId input.alertId ∧ ∀ j, s.world.alertQueue.HoldsJob jobId pid j →
      deliveryInput j = input ∧ UnderWay d.config d.rt input s.world prog
  /-- an alert that waits is seen to -/
  served : ∀ id, s.Served id

theorem serving_of_init (h : s.Init) : Serving d s where
  roles := rolesKept_of_init h
  named := by
    intro j hj
    rw [h.alertQueue] at hj
    cases hj
  fresh := by
    intro p hp
    rw [h.txns] at hp
    cases hp
  handOvers := handsOversWell_of_init h
  workers := by
    intro pid jobId input prog hp
    rw [h.procs] at hp
    cases hp
  served := by
    rintro id ⟨a, ha, -⟩
    rw [World.alertRow, h.alerts] at ha
    cases ha

/-- The attempts of the workers that hold their jobs, after a step. -/
theorem Serving.attempt_step {a : Action} {input : DeliveryInput} {prog : Program Unit}
    {j : Job String AlertDeliveryJobData} (hs : Serving d s) (hcare : s.Careful d a)
    (h : step d s a = some s') (hp : s'.procs pid = some ⟨.deliveryWorker jobId input, prog⟩)
    (hj : s'.world.alertQueue.HoldsJob jobId pid j) :
    deliveryInput j = input ∧ UnderWay d.config d.rt input s'.world prog ∧
      ((∃ out, a = .advance pid out) → EndsSettled input s'.world prog) := by
  rcases process_step h hp with ⟨hp₀, hne⟩ | ⟨-, hl⟩ | ⟨out, c, k, r, rfl, hp₀, ha, rfl⟩
  · have hheld := holdsJob_of_step h (ne_takeDelivery h hp₀) hj
    obtain ⟨hinput, hunder⟩ := (hs.workers pid jobId input prog hp₀).2 j hheld
    exact ⟨hinput, hunder.drift (drifts_step h), fun ⟨out, heq⟩ => absurd heq (hne out)⟩
  · cases hl with
    | delivery _ _ job hjob =>
      obtain ⟨job', q, ht, -, rfl⟩ := takeDelivery_eq_some h
      obtain rfl := Option.some.inj ((JobQueue.take_eq_some ht).1.symm.trans hjob)
      obtain rfl := JobQueue.holdsJob_take ht hj
      refine ⟨rfl, .inl rfl, ?_⟩
      rintro ⟨out, heq⟩
      cases heq
  · have hheld := holdsJob_of_step h (ne_takeDelivery h hp₀) hj
    obtain ⟨hinput, hunder⟩ := (hs.workers pid jobId input _ hp₀).2 j hheld
    have hcall := hcare _ c k hp₀
    have hholds : s.HoldsItsJob pid (.deliveryWorker jobId input) := ⟨j, hheld⟩
    obtain ⟨hunder', hend⟩ := hunder.answer (issues_call.mp (hs.roles pid _ hp₀)).1
      (hcall.reads jobId input rfl hholds) (hcall.last jobId input rfl hholds) ha
    exact ⟨hinput, hunder', fun _ => hend⟩

/-- A delivery worker after a step works on the job of its alert. -/
theorem Serving.jobId_step {a : Action} {input : DeliveryInput} {prog : Program Unit}
    (hs : Serving d s) (h : step d s a = some s')
    (hp : s'.procs pid = some ⟨.deliveryWorker jobId input, prog⟩) :
    jobId = alertJobId input.alertId := by
  rcases process_step h hp with ⟨hp₀, -⟩ | ⟨-, hl⟩ | ⟨out, c, k, r, rfl, hp₀, ha, rfl⟩
  · exact (hs.workers pid jobId input prog hp₀).1
  · cases hl with
    | delivery _ _ job hjob =>
      obtain ⟨hmem, hid⟩ := JobQueue.getJob_eq_some.mp hjob
      exact hid.symm.trans (hs.named job hmem)
  · exact (hs.workers pid jobId input _ hp₀).1

/-- A worker that is about to end the job of an alert was so before, or the alert does not
wait. -/
theorem Serving.concluding_step {a : Action} (hs : Serving d s) (hcare : s.Careful d a)
    (h : step d s a = some s') (hc : s'.Concluding (alertJobId id)) :
    s.Concluding (alertJobId id) ∨ ¬ s'.world.Awaits id := by
  obtain ⟨j, hj, hactive, pid, htoken, p, hp, hconcludes⟩ := hc
  obtain ⟨role, prog⟩ := p
  obtain ⟨input, hrole, hsettled⟩ := Process.role_of_concludes hconcludes
  dsimp only at hrole hsettled
  subst hrole
  have hheld : s'.world.alertQueue.HoldsJob (alertJobId id) pid j := ⟨hj, hactive, htoken⟩
  have hid : id = input.alertId := alertJobId_injective (hs.jobId_step h hp)
  rcases process_step h hp with ⟨hp₀, -⟩ | ⟨-, hl⟩ | ⟨out, c, k, r, rfl, -⟩
  · obtain ⟨hj₀, hactive₀, htoken₀⟩ := holdsJob_of_step h (ne_takeDelivery h hp₀) hheld
    exact .inl ⟨j, hj₀, hactive₀, pid, htoken₀, _, hp₀, hconcludes⟩
  · cases hl with
    | delivery => cases hconcludes
  · obtain ⟨-, -, hend⟩ := hs.attempt_step hcare h hp hheld
    rw [hid]
    exact .inr (hsettled _ (hend ⟨out, rfl⟩))

/-- The report of a worker that has ended leaves the job of an alert alone, unless it holds
and ends it. -/
theorem hasLive_report {role : Role} {prog : Program Unit} (succeeded : Bool)
    (hs : Serving d s) (howed : s.Owed id) (hp : s.procs pid = some ⟨role, prog⟩)
    (hprog : if succeeded then prog = .ret () else ∃ e, prog = .throw e) :
    (report s.world pid role succeeded).alertQueue.HasLive (alertJobId id) := by
  obtain ⟨hlive, hno⟩ := howed
  cases role with
  | deliveryWorker jobId input =>
    cases succeeded with
    | true =>
      obtain rfl : prog = .ret () := hprog
      by_cases hid : alertJobId id = jobId
      · subst hid
        have hheld : ¬ s.world.alertQueue.HeldBy (alertJobId id) pid := by
          rintro ⟨j, hj, hactive, htoken⟩
          exact hno ⟨j, hj, hactive, pid, htoken, _, hp, decide_eq_true rfl⟩
        change (s.world.alertQueue.complete (alertJobId id) pid).HasLive _
        rwa [JobQueue.complete_of_not_heldBy hheld]
      · exact hlive.complete rfl hid
    | false =>
      obtain ⟨e, rfl⟩ : ∃ e, prog = .throw e := hprog
      refine JobQueue.HasLive.fail hlive fun hid hlast => ?_
      subst hid
      obtain ⟨⟨j, hj, hactive, htoken⟩, i, hi, hle⟩ := hlast
      obtain rfl := Option.some.inj (hj.symm.trans hi)
      obtain ⟨rfl, -⟩ := (hs.workers pid _ input _ hp).2 j ⟨hj, hactive, htoken⟩
      refine hno ⟨j, hj, hactive, pid, htoken, _, hp, ?_⟩
      have hretry : (deliveryInput j).willRetry = false := decide_eq_false (by omega)
      simp [Process.concludes, hretry]
  | _ => exact hlive

/-! ## Who sees to an alert after a step -/

/-- A process that is about to call stays, if the step is none of its own. -/
theorem HandsOver.stays {a : Action} (h : s.HandsOver pid id) (hstep : step d s a = some s')
    (hadvance : ∀ out, a ≠ .advance pid out) (hcrash : a ≠ .crash pid) :
    s'.HandsOver pid id := by
  obtain ⟨p, hp, hover⟩ := h
  have hsome : ∀ {q : Nat} {p' : Option Process}, pid ≠ q → setProc s.procs q p' pid = some p :=
    fun hq => (setProc_of_ne hq).trans hp
  have hfree : ∀ {q : Nat}, s.procs q = none → pid ≠ q := by
    rintro q hq rfl
    cases hq.symm.trans hp
  refine ⟨p, ?_, hover⟩
  cases a with
  | advance q out =>
    obtain ⟨role, c, k, r, w, -, -, rfl⟩ := advance_eq_some hstep
    refine hsome ?_
    rintro rfl
    exact hadvance out rfl
  | crash q =>
    obtain ⟨p', -, rfl⟩ := crash_eq_some hstep
    refine hsome ?_
    rintro rfl
    exact hcrash rfl
  | finish q =>
    -- a process that hands an alert over has not ended
    have hq : pid ≠ q := by
      rintro rfl
      obtain ⟨role, prog, hp', ⟨rfl, -⟩ | ⟨e, rfl, -⟩⟩ := finish_eq_some hstep
      · obtain rfl := Option.some.inj (hp'.symm.trans hp)
        exact hover
      · obtain rfl := Option.some.inj (hp'.symm.trans hp)
        exact hover
    obtain ⟨role, prog, -, ⟨-, rfl⟩ | ⟨e, -, rfl⟩⟩ := finish_eq_some hstep
    · exact hsome hq
    · exact hsome hq
  | tick q =>
    obtain ⟨hq, rfl⟩ := start_eq_some hstep
    exact hsome (hfree hq)
  | request q r =>
    obtain ⟨hq, rfl⟩ := start_eq_some hstep
    exact hsome (hfree hq)
  | takeFetch q jobId =>
    obtain ⟨job, _, -, hq, rfl⟩ := takeFetch_eq_some hstep
    exact hsome (hfree hq)
  | takeDelivery q jobId =>
    obtain ⟨job, _, -, hq, rfl⟩ := takeDelivery_eq_some hstep
    exact hsome (hfree hq)
  | promoteFetch jobId => obtain ⟨q, -, rfl⟩ := Option.map_eq_some_iff.mp hstep; exact hp
  | promoteDelivery jobId => obtain ⟨q, -, rfl⟩ := Option.map_eq_some_iff.mp hstep; exact hp
  | stallFetch jobId => obtain ⟨q, -, rfl⟩ := Option.map_eq_some_iff.mp hstep; exact hp
  | stallDelivery jobId => obtain ⟨q, -, rfl⟩ := Option.map_eq_some_iff.mp hstep; exact hp
  | elapse ms => obtain rfl := Option.some.inj hstep; exact hp
  | saveSettings row => obtain rfl := Option.some.inj hstep; exact hp

/-- **A job that is owed goes on living**, until its alert is settled. -/
theorem Serving.owed_step {a : Action} (hs : Serving d s) (hcare : s.Careful d a)
    (h : step d s a = some s') (howed : s.Owed id) : s'.Served id := by
  intro hawaits
  -- no worker has come to the end of the job
  have hno : ¬ s'.Concluding (alertJobId id) := fun hc =>
    (hs.concluding_step hcare h hc).elim howed.2 fun hn => hn hawaits
  suffices hlive : s'.world.alertQueue.HasLive (alertJobId id) ∨ ∃ pid, s'.HandsOver pid id from
    hlive.imp_left fun hlive => ⟨hlive, hno⟩
  cases a with
  | advance q out =>
    obtain ⟨role, c, k, r, w, -, ha, rfl⟩ := advance_eq_some h
    rcases Call.answer_eq_some ha with ⟨error, -, rfl, -⟩ | ⟨ch, x, hserve, -⟩
    · exact .inl howed.1
    · rcases alertQueue_effect (serve_effect hserve) with hq | ⟨jobId', data, -, hq⟩
      · exact .inl (by rw [hq]; exact howed.1)
      · exact .inl (by rw [hq]; exact howed.1.add)
  | takeDelivery q jobId =>
    obtain ⟨job, q', ht, -, rfl⟩ := takeDelivery_eq_some h
    exact .inl (howed.1.take ht)
  | finish q =>
    obtain ⟨role, prog, hp, ⟨hprog, rfl⟩ | ⟨e, hprog, rfl⟩⟩ := finish_eq_some h
    · exact .inl (hasLive_report true hs howed hp hprog)
    · exact .inl (hasLive_report false hs howed hp ⟨e, hprog⟩)
  | promoteDelivery jobId =>
    obtain ⟨q, hq, rfl⟩ := Option.map_eq_some_iff.mp h
    exact .inl (howed.1.promote hq)
  | stallDelivery jobId =>
    obtain ⟨q, hq, rfl⟩ := Option.map_eq_some_iff.mp h
    by_cases hlast : alertJobId id = jobId ∧ s.world.alertQueue.LastStall jobId
    · exact .inr (hcare hlast.2 id hlast.1.symm hawaits)
    · exact .inl (howed.1.stall hq fun hid hl => hlast ⟨hid, hl⟩)
  | tick q =>
    obtain ⟨-, rfl⟩ := start_eq_some h
    exact .inl howed.1
  | request q r =>
    obtain ⟨-, rfl⟩ := start_eq_some h
    exact .inl howed.1
  | takeFetch q jobId =>
    obtain ⟨job, q, -, -, rfl⟩ := takeFetch_eq_some h
    exact .inl howed.1
  | crash q =>
    obtain ⟨p, -, rfl⟩ := crash_eq_some h
    exact .inl howed.1
  | promoteFetch jobId =>
    obtain ⟨q, -, rfl⟩ := Option.map_eq_some_iff.mp h
    exact .inl howed.1
  | stallFetch jobId =>
    obtain ⟨q, -, rfl⟩ := Option.map_eq_some_iff.mp h
    exact .inl howed.1
  | elapse ms =>
    obtain rfl := Option.some.inj h
    exact .inl howed.1
  | saveSettings row =>
    obtain rfl := Option.some.inj h
    exact .inl howed.1

/-- An alert that is seen to without the process still is, after a step of the process. -/
theorem Serving.seenTo_step {a : Action} (hs : Serving d s) (hcare : s.Careful d a)
    (h : step d s a = some s') (hseen : s.SeenTo pid id)
    (ha : (∃ out, a = .advance pid out) ∨ a = .crash pid) : s'.Served id := by
  rcases hseen with howed | ⟨q, hq, hover⟩
  · exact hs.owed_step hcare h howed
  · refine fun _ => .inr ⟨q, hover.stays h ?_ ?_⟩
    · rintro out rfl
      rcases ha with ⟨out', heq⟩ | heq
      · cases heq
        exact hq rfl
      · cases heq
    · rintro rfl
      rcases ha with ⟨out', heq⟩ | heq
      · cases heq
      · cases heq
        exact hq rfl

/-- **The next call of a process that hands an alert over.** -/
theorem Serving.handsOver_advance {out : Outcome} (hs : Serving d s)
    (hcare : s.Careful d (.advance pid out)) (h : step d s (.advance pid out) = some s')
    (hover : s.HandsOver pid id) : s'.Served id := by
  intro hawaits
  have hstep := h
  obtain ⟨role, c, k, r, w, hp, ha, rfl⟩ := advance_eq_some h
  obtain ⟨p, hp', hover⟩ := hover
  obtain rfl := Option.some.inj (hp.symm.trans hp')
  rcases leads_call hover with hgoal | ⟨rfl, hnext⟩
  · -- the job is added
    cases c with
    | queue c =>
      cases c with
      | addAlertJob jobId data =>
        obtain rfl : data.alertId = id := hgoal
        have hid : jobId = alertJobId data.alertId :=
          jobId_of_mayIssue (issues_call.mp (hs.roles pid _ hp)).1
        have hcall := hcare role _ k hp
        have halerts : w.alerts = s.world.alerts := by
          rcases Call.answer_eq_some ha with ⟨e, -, rfl, -⟩ | ⟨ch, x, hserve, -⟩
          · rfl
          · cases hserve
            rfl
        rcases hcall.handsOver jobId data rfl ((awaits_of_alerts halerts).mp hawaits) with
          hseen | ⟨heffect, hfailed, hconcluding⟩
        · exact hs.seenTo_step hcare hstep hseen (.inl ⟨out, rfl⟩) hawaits
        · subst hid
          refine .inl ⟨?_, fun hc => ?_⟩
          · rcases Call.answer_cases ha with ⟨e, rfl, -, -⟩ | ⟨ch, x, hserve, -⟩
            · cases heffect
            · cases hserve
              exact (JobQueue.hasLive_add_iff rfl _ _ data).mpr hfailed
          · exact (hs.concluding_step hcare hstep hc).elim hconcluding fun hn => hn hawaits
      | _ => exact hgoal.elim
    | _ => exact hgoal.elim
  · -- the clock is read
    rcases Call.answer_eq_some ha with ⟨e, -, -, hf⟩ | ⟨ch, x, -, rfl | ⟨e, -, hf⟩⟩
    · cases hf
    · exact .inr ⟨pid, _, setProc_self .., hnext x⟩
    · cases hf

/-- **An alert that starts to wait.** -/
theorem Serving.announced_step {out : Outcome} {role : Role} {w : AlertWrite}
    {k : Except String Nat → Program Unit} (hs : Serving d s)
    (hcare : s.Careful d (.advance pid out)) (h : step d s (.advance pid out) = some s')
    (hp : s.procs pid = some ⟨role, .call (.alert (.write id w)) k⟩)
    (hann : w.Announces = true) (heffect : out.takesEffect = true)
    (hno : ¬ s.world.Awaits id) : s'.Served id := by
  intro hawaits
  have hcall := hcare role (.alert (.write id w)) k hp
  rcases hcall.announces id w rfl hann heffect with ⟨rfl, harrives⟩ | hholds | hbefore | hseen
  · -- the process goes on to add the job
    obtain ⟨role', c', k', r, world, hp', ha, rfl⟩ := advance_eq_some h
    cases hp.symm.trans hp'
    obtain ⟨hfirst, -⟩ := hs.handOvers pid _ hp
    rcases Call.answer_cases ha with ⟨e, rfl, -, -⟩ | ⟨ch, x, -, ⟨rfl, rfl⟩ | ⟨e, -, rfl, -⟩⟩
    · cases heffect
    · exact .inr ⟨pid, _, setProc_self .., hfirst id rfl x⟩
    · cases harrives
  · -- the worker holds the job, and has not ended it
    cases role with
    | deliveryWorker jobId input =>
      have hmay := (issues_call.mp (hs.roles pid _ hp)).1
      obtain rfl : id = input.alertId := hmay.1
      obtain rfl := (hs.workers pid jobId input _ hp).1
      refine hs.owed_step hcare h ⟨JobQueue.HeldBy.hasLive hholds, ?_⟩ hawaits
      rintro ⟨j, hj, -, t, ht, p, hp', hconcludes⟩
      obtain ⟨j', hj', -, ht'⟩ := hholds
      obtain rfl := Option.some.inj (hj.symm.trans hj')
      obtain rfl := Option.some.inj (ht.symm.trans ht')
      obtain rfl := Option.some.inj (hp.symm.trans hp')
      rw [Process.concludes_call] at hconcludes
      cases hconcludes
    | _ => exact hholds.elim
  · exact absurd hbefore hno
  · exact hs.seenTo_step hcare h hseen (.inl ⟨out, rfl⟩) hawaits

/-- **A careful step leaves every alert that waits seen to.** -/
theorem Serving.served_step {a : Action} (hs : Serving d s) (hcare : s.Careful d a)
    (h : step d s a = some s') (id : Nat) : s'.Served id := by
  intro hawaits
  by_cases hbefore : s.world.Awaits id
  · rcases hs.served id hbefore with howed | ⟨pid, hover⟩
    · exact hs.owed_step hcare h howed hawaits
    · by_cases hadvance : ∃ out, a = .advance pid out
      · obtain ⟨out, rfl⟩ := hadvance
        exact hs.handsOver_advance hcare h hover hawaits
      · by_cases hcrash : a = .crash pid
        · subst hcrash
          exact hs.seenTo_step hcare h (hcare id hover hbefore) (.inr rfl) hawaits
        · exact .inr ⟨pid, hover.stays h (fun out heq => hadvance ⟨out, heq⟩) hcrash⟩
  · obtain ⟨pid, out, role, w, k, rfl, hp, hann, heffect⟩ :=
      awaits_step hs.fresh h hawaits hbefore
    exact hs.announced_step hcare h hp hann heffect hbefore hawaits

theorem serving_step {a : Action} (hs : Serving d s) (h : step d s a = some s')
    (hcare : s.Careful d a) : Serving d s' where
  roles := rolesKept_step hs.roles h
  named := alertJobsNamed_step hs.roles hs.named h
  fresh := stagedFresh_step hs.fresh h
  handOvers := handsOversWell_step hs.handOvers h
  workers := fun _ _ _ _ hp => ⟨hs.jobId_step h hp, fun _ hj =>
    (hs.attempt_step hcare h hp hj).imp_right And.left⟩
  served := hs.served_step hcare h

/-! ## Runs -/

/-- A test for careful calls, where no alert is handed over by two processes at once. -/
def carefulCall? (d : Deployment) (s : System) (pid : Nat) (role : Role) (out : Outcome)
    (c : Call) : Bool :=
  (match role, c with
    | .deliveryWorker _ input, .getSettings tenantId =>
      (s.world.alertRow input.alertId).all fun a =>
        !decide (LeavesOut d.config d.rt a (Settings.getByTenantId tenantId s.world.settings))
    | _, _ => true) &&
  (match role with
    | .deliveryWorker _ input => input.willRetry || !Misses s.world out c
    | _ => true) &&
  match c with
  | .alert (.write _ w) => !w.Announces || (w = .markDeliveryQueued && out.arrives) ||
      decide (s.HoldsItsJob pid role)
  | .queue (.addAlertJob jobId _) => out.takesEffect &&
      !decide (s.world.alertQueue.HasFailed jobId) && !decide (s.Concluding jobId)
  | _ => true

/-- A test for careful steps, where no process dies and no worker loses its lock. -/
def careful? (d : Deployment) (s : System) : Action → Bool
  | .advance pid out =>
    match s.procs pid with
    | some ⟨role, .call c _⟩ => carefulCall? d s pid role out c
    | _ => true
  | .crash _ => false
  | .stallDelivery _ => false
  | _ => true

theorem carefulCall_of_test {role : Role} {out : Outcome} {c : Call}
    (h : carefulCall? d s pid role out c = true) : CarefulCall d s pid role out c := by
  obtain ⟨h, hcall⟩ := Bool.and_eq_true_iff.mp h
  obtain ⟨hreads, hlast⟩ := Bool.and_eq_true_iff.mp h
  refine ⟨?_, ?_, ?_, ?_⟩
  · rintro jobId input rfl - a ha tenantId rfl
    dsimp only at hreads
    rw [ha] at hreads
    simpa using hreads
  · rintro jobId input rfl - hretry
    dsimp only at hlast
    rw [hretry] at hlast
    simpa using hlast
  · rintro id w rfl hann -
    dsimp only at hcall
    rw [hann] at hcall
    simp only [Bool.not_true, Bool.false_or, Bool.or_eq_true, Bool.and_eq_true,
      decide_eq_true_eq] at hcall
    exact hcall.imp_right .inl
  · rintro jobId data rfl -
    simp only [Bool.and_eq_true, Bool.not_eq_true', decide_eq_false_iff_not] at hcall
    exact .inr ⟨hcall.1.1, hcall.1.2, hcall.2⟩

theorem careful_of_test {a : Action} (h : careful? d s a = true) : s.Careful d a := by
  cases a with
  | advance pid out =>
    intro role c k hp
    refine carefulCall_of_test ?_
    simpa only [careful?, hp] using h
  | crash pid => cases h
  | stallDelivery jobId => cases h
  | _ => trivial

/-- The article is stored, the first attempt to deliver its alert fails, the second does not. -/
def deliverAtSecondAttempt : List Action :=
  ingestArticle ++ failDelivery 3 ++ .promoteDelivery "alert-1" :: deliverAlert 4 ++ [.finish 4]

end System

end Feedpulse
