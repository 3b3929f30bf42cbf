import Feedpulse.Footprints
import Feedpulse.Sequels

/-!
# Hand-overs under way

An alert is handed to delivery in two steps: its status is written, and its job is added. What a
process still has to do says whether it is between the two (`HandingOver`), and
`handsOverWell_step` says that every process that writes the status goes on to add the job,
unless something fails.
-/

namespace Feedpulse

open Prog

variable {α β : Type}

/-! ## The two steps -/

/-- The alert whose status the call writes, to hand it over. -/
def Call.handedOver? : Call → Option Nat
  | .alert (.write id .markDeliveryQueued) => some id
  | _ => none

/-- The call adds the delivery job of the alert. -/
def Call.AddsJobOf (id : Nat) : Call → Prop
  | .queue (.addAlertJob _ data) => data.alertId = id
  | _ => False

/-- The program is between the two steps: unless something fails, it adds the job next. -/
def HandingOver (id : Nat) (p : Program α) : Prop := Leads (· = .clock) (Call.AddsJobOf id) p

/-- The program adds the job of every alert whose status it writes. -/
def HandsOverWell (p : Program α) : Prop :=
  Chained (fun (id : Nat) (c : Call) => c.handedOver? = some id) (· = .clock) Call.AddsJobOf p

theorem handsOverWell_of_issues {p : Program α} (h : Issues (fun c => c.handedOver? = none) p) :
    HandsOverWell p :=
  chained_of_issues (h.mono fun c hc id hid => by rw [hc] at hid; cases hid)

theorem handsOverWell_invoke {c : Call} (h : c.handedOver? = none) :
    HandsOverWell (invoke c : Program c.Reply) :=
  handsOverWell_of_issues (issues_invoke h)

/-! ## Hand-over -/

theorem deliver_handsOverWell (alertId : Nat) (source : DeliverySource)
    (alert : AlertNotificationRecord) :
    HandsOverWell (DeliverAlert.deliver alertId source alert) := by
  unfold DeliverAlert.deliver
  split
  · exact chained_pure _
  · change HandsOverWell ((AlertsRepository.write alertId .markDeliveryQueued) >>= _)
    rw [AlertsRepository.write, bind_assoc']
    refine chained_of_first (fun id hid n => ?_) fun n => ?_
    · obtain rfl := Option.some.inj hid
      exact leads_of_quiet rfl fun queuedAt => .inl rfl
    · refine Chained.bind (chained_pure _) fun _ => ?_
      refine Chained.bind (handsOverWell_invoke rfl) fun queuedAt => ?_
      exact Chained.bind (handsOverWell_invoke rfl) fun _ => chained_pure _

theorem executeIngestion_handsOverWell (alertId : Nat) :
    HandsOverWell (DeliverAlert.executeIngestion alertId) := by
  refine Chained.bind (handsOverWell_invoke rfl) fun alert => ?_
  cases alert with
  | none => exact chained_throw _
  | some alert => exact deliver_handsOverWell ..

theorem executeManual_handsOverWell (alertId : Nat) (tenantId : Option String) :
    HandsOverWell (DeliverAlert.executeManual alertId tenantId) := by
  cases tenantId with
  | none => exact chained_throw _
  | some tenantId =>
    unfold DeliverAlert.executeManual
    dsimp only
    split
    · exact chained_throw _
    · refine Chained.bind (handsOverWell_invoke rfl) fun alert => ?_
      cases alert with
      | none => exact chained_throw _
      | some alert => exact deliver_handsOverWell ..

/-! ## Fetch workers -/

section Fetch

variable (rt : Runtime) (canonicalizeArticleLink : Option String → Option String)

theorem insertMany_handsOverWell (tenantId : String) (id : Nat) (entries : List NormalizedEntry) :
    HandsOverWell (insertMany tenantId id entries) := by
  induction entries with
  | nil => exact chained_pure _
  | cons entry entries ih =>
    exact Chained.bind (handsOverWell_invoke rfl) fun _ => Chained.bind ih fun _ => chained_pure _

theorem createForEntryWithRules_handsOverWell (matchesByEntry : MatchesByEntry) :
    HandsOverWell
      (AlertsRepository.createForEntryWithRules canonicalizeArticleLink matchesByEntry) := by
  refine Chained.ite (fun _ => chained_pure _) fun _ => ?_
  refine Chained.bind (handsOverWell_invoke rfl) fun rows => ?_
  refine Chained.ite (fun _ => chained_pure _) fun _ => ?_
  exact Chained.bind (handsOverWell_invoke rfl) fun _ => chained_pure _

theorem transaction_handsOverWell (feed : FeedRow) (response : FetchResponse)
    (entries : List NormalizedEntry) :
    HandsOverWell
      (ProcessFeedJob.transaction rt canonicalizeArticleLink feed response entries) := by
  refine Chained.bind (handsOverWell_invoke rfl) fun _ => ?_
  refine Chained.bind (insertMany_handsOverWell ..) fun inserted => ?_
  refine Chained.bind (handsOverWell_invoke rfl) fun rules => ?_
  refine Chained.bind (createForEntryWithRules_handsOverWell ..) fun outcome => ?_
  refine Chained.bind (handsOverWell_invoke rfl) fun _ => ?_
  refine Chained.bind (handsOverWell_invoke rfl) fun now => ?_
  refine Chained.bind (handsOverWell_invoke rfl) fun _ => ?_
  exact Chained.bind (handsOverWell_invoke rfl) fun _ => chained_pure _

theorem deliverAlerts_handsOverWell (alertIds : List Nat) :
    HandsOverWell (ProcessFeedJob.deliverAlerts alertIds) := by
  induction alertIds with
  | nil => exact chained_pure _
  | cons alertId alertIds ih =>
    refine Chained.bind (Chained.tryCatch ?_ fun _ => chained_pure _) fun _ => ih
    exact Chained.bind (executeIngestion_handsOverWell _) fun _ => chained_pure _

theorem store_handsOverWell (feed : FeedRow) (response : FetchResponse)
    (entries : List NormalizedEntry) :
    HandsOverWell (ProcessFeedJob.store rt canonicalizeArticleLink feed response entries) := by
  refine Chained.bind (handsOverWell_invoke rfl) fun _ => ?_
  refine Chained.bind (Chained.attempt (Chained.tryCatch ?_ fun _ => ?_)) fun outcome => ?_
  · refine Chained.bind (transaction_handsOverWell ..) fun r => ?_
    exact Chained.bind (deliverAlerts_handsOverWell _) fun _ => chained_pure _
  · exact Chained.bind (handsOverWell_invoke rfl) fun _ => chained_throw _
  · refine Chained.bind (handsOverWell_invoke rfl) fun _ => ?_
    cases outcome with
    | ok a => exact chained_pure _
    | error e => exact chained_throw _

theorem fetchAndStore_handsOverWell (feed : FeedRow) :
    HandsOverWell (ProcessFeedJob.fetchAndStore rt canonicalizeArticleLink feed) := by
  refine Chained.bind (handsOverWell_invoke rfl) fun response => ?_
  refine Chained.ite (fun _ => ?_) fun _ => Chained.ite (fun _ => chained_throw _) fun _ => ?_
  · refine Chained.bind (handsOverWell_invoke rfl) fun _ => ?_
    refine Chained.bind (handsOverWell_invoke rfl) fun now => ?_
    exact Chained.bind (handsOverWell_invoke rfl) fun _ => chained_pure _
  · split
    · exact chained_throw _
    · exact store_handsOverWell ..

theorem handleFailure_handsOverWell (feed : FeedRow) (message : String) :
    HandsOverWell (ProcessFeedJob.handleFailure rt feed message) := by
  refine Chained.bind (handsOverWell_invoke rfl) fun jitter => ?_
  refine Chained.bind (handsOverWell_invoke rfl) fun _ => ?_
  refine Chained.bind (handsOverWell_invoke rfl) fun now => ?_
  refine Chained.bind (handsOverWell_invoke rfl) fun _ => ?_
  exact Chained.ite (fun _ => chained_throw _) fun _ => chained_pure _

theorem execute_handsOverWell (feedId : Nat) :
    HandsOverWell (ProcessFeedJob.execute rt canonicalizeArticleLink feedId) := by
  refine Chained.bind (handsOverWell_invoke rfl) fun _ => ?_
  refine Chained.bind (handsOverWell_invoke rfl) fun feed => ?_
  cases feed with
  | none => exact chained_throw _
  | some feed =>
    exact Chained.tryCatch (fetchAndStore_handsOverWell ..) fun _ => handleFailure_handsOverWell ..

end Fetch

/-! ## Requests -/

theorem update_handsOverWell (tenantId : String) (id : Nat) (status : Option FeedStatus)
    (pollIntervalSeconds : Option Nat) :
    HandsOverWell (FeedsRepository.update tenantId id status pollIntervalSeconds) := by
  refine Chained.bind (handsOverWell_invoke rfl) fun current => ?_
  cases current with
  | none => exact chained_pure _
  | some current =>
    exact Chained.bind (handsOverWell_invoke rfl) fun now => handsOverWell_invoke rfl

theorem checkFeedNow_handsOverWell (id : Nat) (tenantId : String) :
    HandsOverWell (FeedActions.checkFeedNow id tenantId) := by
  refine Chained.bind (handsOverWell_invoke rfl) fun feed => ?_
  cases feed with
  | none => exact chained_throw _
  | some feed =>
    refine Chained.bind (handsOverWell_invoke rfl) fun claimed => ?_
    refine Chained.ite (fun _ => chained_pure _) fun _ => ?_
    refine Chained.bind (handsOverWell_invoke rfl) fun queuedAt => ?_
    refine Chained.bind (Chained.bind (handsOverWell_invoke rfl) fun now => ?_) fun _ =>
      chained_pure _
    exact Chained.bind (handsOverWell_invoke rfl) fun _ => chained_pure _

theorem request_handsOverWell (r : Request) : HandsOverWell (System.requestProgram r) := by
  cases r with
  | updateFeed tenantId id status pollIntervalSeconds =>
    refine Chained.bind (Chained.bind (update_handsOverWell ..) fun feed => ?_) fun _ =>
      chained_pure _
    cases feed with
    | none => exact chained_throw _
    | some feed => exact chained_pure _
  | disableFeed id tenantId =>
    refine Chained.bind (Chained.bind (update_handsOverWell ..) fun _ => chained_pure _) fun _ => ?_
    exact Chained.ite (fun _ => chained_pure _) fun _ => chained_throw _
  | checkFeedNow id tenantId =>
    exact Chained.bind (checkFeedNow_handsOverWell ..) fun _ => chained_pure _
  | sendAlert alertId tenantId =>
    exact Chained.bind (executeManual_handsOverWell ..) fun _ => chained_pure _

/-! ## Every process -/

/-- Neither the scheduler nor a delivery worker hands alerts over. -/
theorem handedOver_of_mayIssue {role : Role} {c : Call} (h : role.MayIssue c)
    (hrole : role = .scheduler ∨ ∃ jobId input, role = .deliveryWorker jobId input) :
    c.handedOver? = none := by
  cases c with
  | alert c =>
    cases c with
    | write id s =>
      rcases hrole with rfl | ⟨jobId, input, rfl⟩
      · exact h.elim
      · cases s with
        | markDeliveryQueued => exact absurd rfl h.2.1
        | _ => rfl
    | _ => rfl
  | _ => rfl

namespace System

variable {d : Deployment} {s s' : System}

/-- Every process finishes the hand-overs it starts. -/
def HandsOversWell (s : System) : Prop := ∀ pid p, s.procs pid = some p → HandsOverWell p.prog

theorem handsOversWell_of_init (h : s.Init) : s.HandsOversWell := by
  intro pid p hp
  rw [h.procs] at hp
  cases hp

theorem handsOversWell_step {a : Action} (hs : s.HandsOversWell) (h : step d s a = some s') :
    s'.HandsOversWell := by
  refine forall_procs_step (fun p => HandsOverWell p.prog) h hs ?_ fun _ _ _ r hp => hp.2 r
  intro pid role prog hl
  cases hl with
  | tick =>
    exact handsOverWell_of_issues ((scheduler_issues ..).mono fun _ hc =>
      handedOver_of_mayIssue hc (.inl rfl))
  | request pid r => exact request_handsOverWell r
  | fetch pid jobId job =>
    exact Chained.bind (execute_handsOverWell ..) fun _ => chained_pure _
  | delivery pid jobId job =>
    exact handsOverWell_of_issues ((deliveryWorker_issues _ _ jobId).mono fun _ hc =>
      handedOver_of_mayIssue hc (.inr ⟨_, _, rfl⟩))

end System

end Feedpulse
