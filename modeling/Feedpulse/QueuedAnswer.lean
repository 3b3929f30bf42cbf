import Feedpulse.Footprints
import Feedpulse.Frames
import Std.Data.String.ToNat

/-!
# What a `queued` answer is worth

`DeliverAlertUseCase` answers `queued` as soon as the queue has accepted the job, and
the queue accepts a job whose id it knows without doing anything. `queuedAnswer_iff` says
that every `queued` answer of a run is backed by a job that will run precisely if none of
them is given while a failed job of the alert is retained; `send_after_exhaustion` is a run
in which one is.
-/

namespace Feedpulse

open Prog

/-! ## Answers and jobs -/

namespace DeliverAlert

/-- The last answered call added a job for the alert. -/
def Added (alertId : Nat) (_ : Bool) (c : Call) (r : Except String c.Reply) (s' : Bool) : Prop :=
  match c, r with
  | .queue (.addAlertJob _ data), .ok _ => s' = decide (data.alertId = alertId)
  | _, _ => s' = false

/-- The hand-over answers `queued` exactly if the last thing that happened is that the
queue accepted a job for the alert. -/
theorem deliver_queued_iff (alertId : Nat) (source : DeliverySource)
    (alert : AlertNotificationRecord) :
    Meets (fun _ _ => True) (Added alertId) (deliver alertId source alert)
      (fun r s => r = .ok .queued ↔ s = true) false := by
  unfold deliver
  split
  · simp
  refine meets_bind.mpr (meets_bind.mpr (meets_invoke.mpr ⟨trivial, fun r s hr => ?_⟩))
  obtain rfl : s = false := hr
  cases r with
  | error e => simp
  | ok n =>
    refine meets_bind.mpr (meets_invoke.mpr ⟨trivial, fun r s hr => ?_⟩)
    obtain rfl : s = false := hr
    cases r with
    | error e => simp
    | ok queuedAt =>
      refine meets_bind.mpr (meets_invoke.mpr ⟨trivial, fun r s hr => ?_⟩)
      cases r with
      | error e =>
        obtain rfl : s = false := hr
        simp
      | ok _ =>
        obtain rfl : s = true := hr.trans (decide_eq_true rfl)
        simp

/-- Both sources of a request: `execute` answers `queued` exactly if the last thing that
happened is that the queue accepted a job for the alert. -/
theorem execute_queued_iff (alertId : Nat) (tenantId : Option String) :
    Meets (fun _ _ => True) (Added alertId) (executeIngestion alertId)
        (fun r s => r = .ok .queued ↔ s = true) false ∧
      Meets (fun _ _ => True) (Added alertId) (executeManual alertId tenantId)
        (fun r s => r = .ok .queued ↔ s = true) false := by
  constructor
  · refine meets_bind.mpr (meets_invoke.mpr ⟨trivial, fun r s hr => ?_⟩)
    obtain rfl : s = false := hr
    rcases r with e | _ | alert
    · simp
    · simp [MonadExcept.throw]
    · exact deliver_queued_iff ..
  · unfold executeManual
    split
    · simp [MonadExcept.throw]
    split
    · simp [MonadExcept.throw]
    refine meets_bind.mpr (meets_invoke.mpr ⟨trivial, fun r s hr => ?_⟩)
    obtain rfl : s = false := hr
    rcases r with e | _ | alert
    · simp
    · simp [MonadExcept.throw]
    · exact deliver_queued_iff ..

end DeliverAlert

/-- Different alerts have different job ids. -/
theorem alertJobId_injective : Function.Injective alertJobId := fun _ _ h =>
  Nat.repr_injective ((String.append_right_inj _).mp h)

namespace System

open Transition

variable {d : Deployment} {s s' : System}

/-- The alert the step reports as queued: the queue accepts its job. -/
def reportedQueued (s : System) : Action → Option Nat
  | .advance pid (.ok _) =>
    match s.procs pid with
    | some ⟨_, .call (.queue (.addAlertJob _ data)) _⟩ => some data.alertId
    | _ => none
  | _ => none

/-- A delivery job of the alert will run. -/
def HasDeliveryJob (s : System) (alertId : Nat) : Prop :=
  ∃ j ∈ s.world.alertQueue.jobs, j.Live ∧ j.data.alertId = alertId

instance (alertId : Nat) : Decidable (s.HasDeliveryJob alertId) :=
  inferInstanceAs (Decidable (∃ j ∈ s.world.alertQueue.jobs, _))

/-! ## Delivery jobs stand under the ids of their alerts -/

/-- The id of a delivery job with this payload. -/
def NamedAfterAlert (jobId : String) (data : AlertDeliveryJobData) : Prop :=
  jobId = alertJobId data.alertId

/-- Every delivery job stands under the id of its alert. -/
def AlertJobsNamed (s : System) : Prop :=
  ∀ j ∈ s.world.alertQueue.jobs, NamedAfterAlert j.id j.data

/-- Of the calls, only adding a job changes the delivery queue. -/
theorem alertQueue_effect {pid : Nat} {c : Call} {w w' : World} (h : CallEffect pid w c w') :
    w'.alertQueue = w.alertQueue ∨ ∃ jobId data, c = .queue (.addAlertJob jobId data) ∧
      w'.alertQueue = w.alertQueue.add jobId data := by
  cases h with
  | addAlertJob jobId data => exact .inr ⟨jobId, data, rfl, rfl⟩
  | commit =>
    refine .inl ?_
    unfold World.commitTxn
    split <;> rfl
  | _ => exact .inl rfl

/-- A job may be added only under the id of its alert. -/
theorem jobId_of_mayIssue {role : Role} {jobId : String} {data : AlertDeliveryJobData}
    (h : role.MayIssue (.queue (.addAlertJob jobId data))) : jobId = alertJobId data.alertId := by
  cases role with
  | scheduler => exact h.elim
  | request => exact h
  | fetchWorker => exact h
  | deliveryWorker => exact h.elim

theorem alertJobsNamed_step {a : Action} (hroles : s.RolesKept) (hs : s.AlertJobsNamed)
    (h : step d s a = some s') : s'.AlertJobsNamed := by
  unfold AlertJobsNamed
  rcases step_effect h with ⟨pid, c, ch, r, he, hc⟩ | ⟨-, hq⟩
  · rcases alertQueue_effect (serve_effect hc) with hq | ⟨jobId, data, rfl, hq⟩
    · rw [hq]
      exact hs
    · obtain ⟨p, -, hp⟩ := mayIssue_of_executedCall hroles he
      rw [hq]
      exact JobQueue.forall_add NamedAfterAlert hs
        (jobId_of_mayIssue hp)
  · generalize s'.world = w' at hq
    cases hq with
    | alertQueue q hq => exact hq.forall NamedAfterAlert hs
    | _ => exact hs

/-- Where delivery jobs stand under the ids of their alerts, a job of the alert will run
exactly if a job with its id will. -/
theorem hasDeliveryJob_iff (hs : s.AlertJobsNamed) (alertId : Nat) :
    s.HasDeliveryJob alertId ↔ s.world.alertQueue.HasLive (alertJobId alertId) :=
  JobQueue.exists_live_iff_hasLive AlertDeliveryJobData.alertId alertJobId_injective hs alertId

/-! ## Runs -/

/-- Inversion for `reportedQueued`: the step adds the job under the id of the alert. -/
theorem reportedQueued_eq_some {a : Action} {alertId : Nat} (hroles : s.RolesKept)
    (hr : s.reportedQueued a = some alertId) (h : step d s a = some s') :
    ∃ data, s'.world.alertQueue = s.world.alertQueue.add (alertJobId alertId) data := by
  cases a with
  | advance pid out =>
    obtain ⟨role, c, k, r, w, hp, ha, rfl⟩ := advance_eq_some h
    cases out with
    | ok ch =>
      simp only [reportedQueued, hp] at hr
      split at hr
      · rename_i heq
        obtain ⟨-, hcall⟩ := Process.mk.inj (Option.some.inj heq)
        cases hcall
        rename_i data _
        obtain rfl := Option.some.inj hr
        cases ha
        have hid := jobId_of_mayIssue (issues_call.mp (hroles _ _ hp)).1
        exact ⟨data, by rw [← hid]; rfl⟩
      · cases hr
    | _ => cases hr
  | _ => cases hr

/-- **Every `queued` answer of a run is backed by a job exactly if none is given while a
failed job of the alert is retained.** -/
theorem queuedAnswer_iff {s₀ : System} (h₀ : s₀.Init) (as : List Action) :
    Along (step d) (fun s a s' => ∀ alertId, s.reportedQueued a = some alertId →
        s'.HasDeliveryJob alertId) s₀ as ↔
      Along (step d) (fun s a _ => ∀ alertId, s.reportedQueued a = some alertId →
        ¬ s.world.alertQueue.HasFailed (alertJobId alertId)) s₀ as := by
  refine along_congr (fun s => s.RolesKept ∧ s.AlertJobsNamed) ?_ ?_ ?_
  · rintro s a s' ⟨hroles, hnamed⟩ h
    exact ⟨rolesKept_step hroles h, alertJobsNamed_step hroles hnamed h⟩
  · rintro s a s' ⟨hroles, hnamed⟩ h
    refine forall_congr' fun alertId => imp_congr_right fun hr => ?_
    obtain ⟨data, hq⟩ := reportedQueued_eq_some hroles hr h
    rw [hasDeliveryJob_iff (alertJobsNamed_step hroles hnamed h), hq]
    exact JobQueue.hasLive_add_iff rfl _ _ data
  · refine ⟨rolesKept_of_init h₀, ?_⟩
    intro j hj
    rw [h₀.alertQueue] at hj
    cases hj

/-- The run that stores the article and hands its alert over. -/
theorem queuedAnswer_oneFeed :
    oneFeed.Init ∧
      (Along (step webhookDeployment) (fun s a s' => ∀ alertId,
          s.reportedQueued a = some alertId → s'.HasDeliveryJob alertId) oneFeed ingestArticle ↔
        Along (step webhookDeployment) (fun s a _ => ∀ alertId,
          s.reportedQueued a = some alertId →
            ¬ s.world.alertQueue.HasFailed (alertJobId alertId)) oneFeed ingestArticle) :=
  ⟨oneFeed_init, queuedAnswer_iff oneFeed_init ingestArticle⟩

/-- An attempt to deliver the alert at which the webhook fails. -/
def failDelivery (pid : Nat) : List Action :=
  .takeDelivery pid "alert-1" :: proceed pid 2 ++
    [.advance pid (.refused "webhook_delivery_failed_503")] ++ proceed pid 1 ++ [.finish pid]

/-- All four attempts fail; then the tenant asks for the alert to be sent again. -/
def sendAfterExhaustion : List Action :=
  ingestArticle ++ failDelivery 3 ++ [.promoteDelivery "alert-1"] ++ failDelivery 4 ++
    [.promoteDelivery "alert-1"] ++ failDelivery 5 ++ [.promoteDelivery "alert-1"] ++
    failDelivery 6 ++ .request 7 (.sendAlert 1 (some "t")) :: proceed 7 3

/-- **An alert whose delivery is exhausted is reported as queued, and nothing runs.** -/
theorem send_after_exhaustion :
    oneFeed.Init ∧ ¬ Along (step webhookDeployment) (fun s a s' => ∀ alertId,
      s.reportedQueued a = some alertId → s'.HasDeliveryJob alertId) oneFeed
        (sendAfterExhaustion ++ [.advance 7 (.ok .none)]) := by
  refine ⟨oneFeed_init, fun h => ?_⟩
  have hrun : ((run (step webhookDeployment) oneFeed sendAfterExhaustion).bind fun t =>
      (step webhookDeployment t (.advance 7 (.ok .none))).map fun t' =>
        (t.reportedQueued (.advance 7 (.ok .none)), decide (t'.HasDeliveryJob 1)))
      = some (some 1, false) := by decide
  obtain ⟨t, ht, hstep⟩ := Option.bind_eq_some_iff.mp hrun
  obtain ⟨t', ht', heq⟩ := Option.map_eq_some_iff.mp hstep
  obtain ⟨hr, hno⟩ := Prod.mk.inj heq
  exact of_decide_eq_false hno (h.last ht ht' 1 hr)

end System

end Feedpulse
