import Feedpulse.TenantIsolation

/-!
# Requests of a tenant

A request carries the tenant of its credentials, and ids that the tenant has made up. What it
reads, writes and queues is by id; `requests_confined` says that it is the tenant's own
nevertheless: in every run, whatever else happens between two steps of a request, it changes no
row of another tenant, queues jobs for feeds and alerts of its tenant only, and is told of no
others.
-/

namespace Feedpulse

open Prog

namespace Table

/-- An update does not concern the rows that are looked at. -/
theorem filter_updateWhere {ρ : Type} {p q : ρ → Bool} {f : ρ → ρ} {rows : List ρ}
    (h : ∀ r ∈ rows, p r = true → q r = false ∧ q (f r) = false) :
    (updateWhere p f rows).filter q = rows.filter q := by
  induction rows with
  | nil => rfl
  | cons r rows ih =>
    have hrest := ih fun r' hr' => h r' (List.mem_cons_of_mem _ hr')
    change ((if p r then f r else r) :: updateWhere p f rows).filter q = _
    by_cases hp : p r = true
    · obtain ⟨hq, hqf⟩ := h r List.mem_cons_self hp
      rw [if_pos hp, List.filter_cons_of_neg (by simp [hqf]),
        List.filter_cons_of_neg (by simp [hq]), hrest]
    · rw [if_neg hp, List.filter_cons, List.filter_cons, hrest]

end Table

/-! ## What a request may do -/

/-- The tenant of a request. -/
def Request.tenant : Request → Option String
  | .updateFeed tenantId .. => some tenantId
  | .disableFeed _ tenantId => some tenantId
  | .checkFeedNow _ tenantId => some tenantId
  | .sendAlert _ tenantId => tenantId

/-- The call concerns feeds and alerts of the tenant. -/
def Call.Concerns (tenantId : String) (w : World) : Call → Prop
  | .feed (.findByIdForTenant _ tenantId') => tenantId' = tenantId
  | .feed (.isClaimed _ tenantId') => tenantId' = tenantId
  | .feed (.update u) => u.tenantId = tenantId
  | .alert (.findByIdForTenant _ tenantId') => tenantId' = tenantId
  | .alert (.write id _) => w.AlertOf tenantId id
  | .queue (.addFetchJob _ data) => (data.feedId, tenantId) ∈ w.feedOwners
  | .queue (.addAlertJob _ data) => w.AlertOf tenantId data.alertId
  | .clock => True
  | _ => False

/-- The reply tells of feeds and alerts of the tenant only. -/
def Call.TellsOf (tenantId : String) : (c : Call) → c.Reply → Prop
  | .feed (.findByIdForTenant ..), found => ∀ f, found = some f → f.tenantId = tenantId
  | .feed (.update _), found => ∀ f, found = some f → f.tenantId = tenantId
  | .alert (.findByIdForTenant ..), found =>
    ∀ record, found = some record → record.OfTenant tenantId
  | _, _ => True

namespace World

/-- The rows of the other tenants, and all that is not of one tenant, stay as they are; jobs are
added for the tenant. -/
structure OthersKept (tenantId : String) (w w' : World) : Prop where
  /-- feeds -/
  feeds : w'.feeds.filter (fun f => f.tenantId ≠ tenantId)
    = w.feeds.filter fun f => f.tenantId ≠ tenantId
  /-- alerts -/
  alerts : w'.alerts.filter (fun a => a.tenantId ≠ tenantId)
    = w.alerts.filter fun a => a.tenantId ≠ tenantId
  /-- jobs that fetch feeds -/
  fetchQueue : ∀ jobId j, w'.fetchQueue.getJob jobId = some j →
    w.fetchQueue.getJob jobId = some j ∨ (j.data.feedId, tenantId) ∈ w.feedOwners
  /-- jobs that deliver alerts -/
  alertQueue : ∀ jobId j, w'.alertQueue.getJob jobId = some j →
    w.alertQueue.getJob jobId = some j ∨ w.AlertOf tenantId j.data.alertId
  /-- jobs are not replaced -/
  jobs : (∀ jobId j, w.fetchQueue.getJob jobId = some j →
      w'.fetchQueue.getJob jobId = some j) ∧
    ∀ jobId j, w.alertQueue.getJob jobId = some j → w'.alertQueue.getJob jobId = some j
  /-- everything else -/
  rest : w' = { w with
    feeds := w'.feeds, alerts := w'.alerts, fetchQueue := w'.fetchQueue
    alertQueue := w'.alertQueue }

theorem OthersKept.refl (tenantId : String) (w : World) : w.OthersKept tenantId w :=
  ⟨rfl, rfl, fun _ _ h => .inl h, fun _ _ h => .inl h, ⟨fun _ _ h => h, fun _ _ h => h⟩, rfl⟩

variable {saved : TenantSettingsRow → Prop} {tenantId : String} {pid : Nat} {w w' : World}
  {c : Call}

/-- Adding a job leaves the others. -/
theorem getJob_of_add {D : Type} {opts : QueueOptions} {q : JobQueue String D opts}
    {id jobId : String} {data : D} {j : Job String D} (h : q.getJob jobId = some j) :
    (q.add id data).getJob jobId = some j := by
  rw [JobQueue.getJob_add]
  split
  · rename_i heq
    rw [← heq, h, Option.getD_some]
  · exact h

/-- **A call that concerns the tenant** leaves what is the others' alone. -/
theorem othersKept_of_concerns (h : w.Partitioned saved) (hc : c.Concerns tenantId w)
    (he : CallEffect pid w c w') : w.OthersKept tenantId w' := by
  cases he with
  | none => exact .refl tenantId w
  | updateFeed u =>
    have htenant : u.tenantId = tenantId := hc
    refine ⟨Table.filter_updateWhere fun f _ hf => ?_, rfl, fun _ _ h => .inl h,
      fun _ _ h => .inl h, ⟨fun _ _ h => h, fun _ _ h => h⟩, rfl⟩
    rw [Bool.and_eq_true, decide_eq_true_eq, decide_eq_true_eq] at hf
    simp [hf.2, htenant]
  | writeAlert id s =>
    obtain ⟨a, ha, htenant⟩ : w.AlertOf tenantId id := hc
    refine ⟨rfl, Table.filter_updateWhere fun b hb hid => ?_, fun _ _ h => .inl h,
      fun _ _ h => .inl h, ⟨fun _ _ h => h, fun _ _ h => h⟩, rfl⟩
    -- no alert of another tenant has the id
    have hsame : b.tenantId = a.tenantId := h.tenants.keys.owner b a (.inl hb)
      (.inl (Table.mem_of_lookup ha)) ((of_decide_eq_true hid).trans (Table.key_of_lookup ha).symm)
    simp [hsame, htenant]
  | addFetchJob jobId data =>
    refine ⟨rfl, rfl, fun id j hj => ?_, fun _ _ h => .inl h,
      ⟨fun _ _ h => getJob_of_add h, fun _ _ h => h⟩, rfl⟩
    rcases JobQueue.getJob_add_eq_some hj with hold | ⟨-, -, rfl⟩
    · exact .inl hold
    · exact .inr hc
  | addAlertJob jobId data =>
    refine ⟨rfl, rfl, fun _ _ h => .inl h, fun id j hj => ?_,
      ⟨fun _ _ h => h, fun _ _ h => getJob_of_add h⟩, rfl⟩
    rcases JobQueue.getJob_add_eq_some hj with hold | ⟨-, -, rfl⟩
    · exact .inl hold
    · exact .inr hc
  | converge c p hconverge => rcases hconverge with rfl | ⟨alertId, rfl⟩ <;> exact hc.elim
  | _ => exact hc.elim

theorem feed_of_findByIdForTenant {id : Nat} {feeds : List FeedRow} {f : FeedRow}
    (h : Feeds.findByIdForTenant id tenantId feeds = some f) :
    f ∈ feeds ∧ f.id = id ∧ f.tenantId = tenantId := by
  have hkey := List.find?_some h
  rw [Bool.and_eq_true, decide_eq_true_eq, decide_eq_true_eq] at hkey
  exact ⟨List.mem_of_find?_eq_some h, hkey⟩

/-- An alert that is found for a tenant is one of the tenant, and shows what is the tenant's. -/
theorem TenantsApart.findAlertForTenant (h : w.TenantsApart) (hentries : EntriesApart w.entries)
    (hrules : (w.rules.map RuleRow.id).Nodup) {id : Nat} {record : AlertNotificationRecord}
    (hr : w.findAlertForTenant id tenantId = some record) :
    record.OfTenant tenantId ∧ w.AlertOf tenantId id := by
  obtain ⟨a, ha, hdetail⟩ := Option.bind_eq_some_iff.mp hr
  have hkey := List.find?_some ha
  rw [Bool.and_eq_true, decide_eq_true_eq, decide_eq_true_eq] at hkey
  have hmem := List.mem_of_find?_eq_some ha
  obtain ⟨record', hrecord', -, -, -, hown⟩ := h.alertDetail hentries hrules hmem
  obtain rfl := Option.some.inj (hdetail.symm.trans hrecord')
  refine ⟨hkey.2 ▸ hown, ?_⟩
  -- the row under the id is another version of none but this alert
  have hne : Table.lookup AlertRow.id a.id w.alerts ≠ none := Table.lookup_ne_none_of_mem hmem
  obtain ⟨b, hb⟩ := Option.ne_none_iff_exists'.mp hne
  refine ⟨b, hkey.1 ▸ hb, ?_⟩
  have hsame := h.keys.owner b a (.inl (Table.mem_of_lookup hb)) (.inl hmem)
    (Table.key_of_lookup hb)
  exact hsame.trans hkey.2

/-- The reply to a call that concerns the tenant tells of no other. -/
theorem tellsOf_of_concerns (h : w.Partitioned saved) (hc : c.Concerns tenantId w) {ch : Choice}
    {a : c.Reply} (hs : c.serve pid w ch = some (a, w')) : c.TellsOf tenantId a := by
  unfold Call.TellsOf
  split
  · rename_i id tenantId' feed
    obtain rfl : tenantId' = tenantId := hc
    obtain ⟨rfl, -⟩ := Prod.mk.inj (Option.some.inj hs)
    exact fun f hf => (feed_of_findByIdForTenant hf).2.2
  · rename_i u feed
    have htenant : u.tenantId = tenantId := hc
    obtain ⟨-, hs⟩ := Option.ite_none_right_eq_some.mp hs
    obtain ⟨rfl, -⟩ := Prod.mk.inj (Option.some.inj hs)
    exact fun f hf => htenant ▸ (feed_of_findByIdForTenant hf).2.2
  · rename_i id tenantId' found
    obtain rfl : tenantId' = tenantId := hc
    obtain ⟨rfl, -⟩ := Prod.mk.inj (Option.some.inj hs)
    exact fun record hrecord =>
      (h.tenants.findAlertForTenant h.distinct.apart h.rules hrecord).1
  · trivial

end World

/-! ## Programs -/

namespace TenantIsolation

open World

section Requests

variable {config : AppConfig} {rt : Runtime} {saved : TenantSettingsRow → Prop} {pid : Nat}
  {w : World} {tenantId : String}

/-- The rest of a request concerns its tenant. -/
abbrev Confines (config : AppConfig) (rt : Runtime) (saved : TenantSettingsRow → Prop) (pid : Nat)
    (r : Request) {α : Type} (p : Program α) (post : Except String α → World → Prop) :
    World → Prop :=
  Follows (Elsewhere pid) (fun w c => ∃ tenantId, r.tenant = some tenantId ∧ c.Concerns tenantId w)
    ((isolation config rt saved).Answered pid) p post

/-- Calls that name the tenant. -/
def Names (tenantId : String) : Call → Prop
  | .feed (.findByIdForTenant _ tenantId') => tenantId' = tenantId
  | .feed (.isClaimed _ tenantId') => tenantId' = tenantId
  | .feed (.update u) => u.tenantId = tenantId
  | .clock => True
  | _ => False

theorem concerns_of_names {c : Call} (h : Names tenantId c) : c.Concerns tenantId w := by
  unfold Names at h
  split at h <;> first | exact h | exact h.elim

theorem update_names (id : Nat) (status : Option FeedStatus) (pollIntervalSeconds : Option Nat) :
    Issues (Names tenantId) (FeedsRepository.update tenantId id status pollIntervalSeconds) := by
  refine Issues.bind (issues_invoke rfl) fun found => ?_
  cases found with
  | none => exact issues_pure _
  | some current =>
    exact Issues.bind (issues_invoke trivial) fun now => issues_invoke rfl

/-- Calls of a request that name its tenant. -/
theorem named_confines {r : Request} (hr : r.tenant = some tenantId) {α : Type} {p : Program α}
    (hp : Issues (Names tenantId) p) (w : World) :
    Confines config rt saved pid r p (fun _ _ => True) w :=
  hp.follows stable_true (fun _ _ hc _ => ⟨tenantId, hr, concerns_of_names hc⟩)
    (fun _ _ _ _ _ _ _ => trivial) trivial

theorem checkFeedNow_confines (id : Nat) (w : World) :
    Confines config rt saved pid (.checkFeedNow id tenantId)
      (FeedActions.checkFeedNow id tenantId) (fun _ _ => True) w := by
  have hpersist : Persistent fun v => (id, tenantId) ∈ v.feedOwners :=
    { call := fun he h => (feedOwners_effect he).symm ▸ h
      quiet := fun hquiet h => by cases hquiet <;> exact h }
  have hfind : Confines config rt saved pid (.checkFeedNow id tenantId)
      (FeedsRepository.findByIdForTenant id tenantId)
      (fun r w' => ∀ feed, r = .ok (some feed) → (id, tenantId) ∈ w'.feedOwners) w := by
    refine follows_invoke stable_true trivial (fun _ _ => ⟨tenantId, rfl, rfl⟩) ?_
    rintro v r v' - ha feed rfl
    obtain ⟨ch, -, hserve⟩ := ha.serve
    obtain ⟨hfound, rfl⟩ := Prod.mk.inj (Option.some.inj hserve)
    obtain ⟨hmem, rfl, rfl⟩ := feed_of_findByIdForTenant hfound
    exact List.mem_map.mpr ⟨feed, hmem, rfl⟩
  refine hfind.bind (fun found w₁ h₁ => ?_) fun _ _ _ => trivial
  cases found with
  | none => trivial
  | some feed =>
    have hrest : Issues (fun c => Names tenantId c ∨ ∃ jobId data, data.feedId = id ∧
        c = .queue (.addFetchJob jobId data)) (do
          if ← FeedsRepository.isClaimed id tenantId then
            pure FeedActions.CheckFeedNowStatus.alreadyQueued
          else
            let queuedAt ← clock
            let enqueued ← FetchFeedQueue.enqueue
              { feedId := id, queuedAt := queuedAt, attempt := 0, source := .manual }
            pure (if enqueued.deduplicated then .alreadyQueued else .queued)) := by
      refine Issues.bind (issues_invoke (.inl rfl)) fun claimed => ?_
      refine Issues.ite (fun _ => issues_pure _) fun _ => ?_
      refine Issues.bind (issues_invoke (.inl trivial)) fun queuedAt => ?_
      refine Issues.bind (Issues.bind (issues_invoke (.inl trivial)) fun now => ?_)
        fun _ => issues_pure _
      exact Issues.bind (issues_invoke (.inr ⟨_, _, rfl, rfl⟩)) fun _ => issues_pure _
    refine (hrest.follows hpersist.stable ?_ (fun _ _ _ _ _ hv ha => hpersist.call ha.effect hv)
      (h₁ feed rfl)).mono fun _ _ _ => trivial
    rintro v c (hc | ⟨jobId, data, rfl, rfl⟩) hv
    · exact ⟨tenantId, rfl, concerns_of_names hc⟩
    · exact ⟨tenantId, rfl, hv⟩

theorem sendAlert_confines (alertId : Nat) (tenant : Option String) (w : World) :
    Confines config rt saved pid (.sendAlert alertId tenant)
      (DeliverAlert.executeManual alertId tenant) (fun _ _ => True) w := by
  unfold DeliverAlert.executeManual
  cases tenant with
  | none => trivial
  | some tenantId =>
    dsimp only
    split
    · trivial
    have hfind : Confines config rt saved pid (.sendAlert alertId (some tenantId))
        (AlertsRepository.findByIdForTenant alertId tenantId)
        (fun r w' => ∀ record, r = .ok (some record) → w'.AlertOf tenantId alertId) w := by
      refine follows_invoke stable_true trivial (fun _ _ => ⟨tenantId, rfl, rfl⟩) ?_
      rintro v r v' - ha record rfl
      obtain ⟨ch, -, hserve⟩ := ha.serve
      obtain ⟨hfound, rfl⟩ := Prod.mk.inj (Option.some.inj hserve)
      exact (ha.1.tenants.findAlertForTenant ha.1.distinct.apart ha.1.rules hfound).2
    refine hfind.bind (fun found w₁ h₁ => ?_) fun _ _ _ => trivial
    cases found with
    | none => trivial
    | some record =>
      have hdeliver : Issues (fun c => c = .clock ∨ (∃ s, c = .alert (.write alertId s)) ∨
          ∃ jobId data, data.alertId = alertId ∧ c = .queue (.addAlertJob jobId data))
          (DeliverAlert.deliver alertId .manual record) := by
        unfold DeliverAlert.deliver AlertsRepository.markDeliveryDisabled
          AlertsRepository.markDeliveryQueued AlertsRepository.write AlertDeliveryQueue.enqueue
        refine Issues.ite (fun _ => issues_pure _) fun _ => Issues.ite (fun _ => ?_) fun _ => ?_
        · refine Issues.bind (Issues.bind (issues_invoke (.inr (.inl ⟨_, rfl⟩))) fun _ => ?_)
            fun _ => issues_pure _
          exact issues_pure _
        · refine Issues.bind (Issues.bind (issues_invoke (.inr (.inl ⟨_, rfl⟩))) fun _ => ?_)
            fun _ => ?_
          · exact issues_pure _
          · refine Issues.bind (issues_invoke (.inl rfl)) fun now => ?_
            exact Issues.bind (issues_invoke (.inr (.inr ⟨_, _, rfl, rfl⟩))) fun _ => issues_pure _
      refine (hdeliver.follows persistent_alertOf.stable ?_
        (fun _ _ _ _ _ hv ha => persistent_alertOf.call ha.effect hv) (h₁ record rfl)).mono
          fun _ _ _ => trivial
      rintro v c (rfl | ⟨s, rfl⟩ | ⟨jobId, data, rfl, rfl⟩) hv
      · exact ⟨tenantId, rfl, trivial⟩
      · exact ⟨tenantId, rfl, hv⟩
      · exact ⟨tenantId, rfl, hv⟩

/-- **A request** concerns its tenant. -/
theorem request_confines (r : Request) (w : World) :
    Confines config rt saved pid r (System.requestProgram r) (fun _ _ => True) w := by
  cases r with
  | updateFeed tenantId id status pollIntervalSeconds =>
    refine named_confines rfl (Issues.bind (Issues.bind (update_names ..) fun found => ?_)
      fun _ => issues_pure _) w
    cases found with
    | none => exact issues_throw' _
    | some feed => exact issues_pure _
  | disableFeed id tenantId =>
    refine named_confines rfl (Issues.bind (Issues.bind (update_names ..) fun found => ?_)
      fun disabled => ?_) w
    · exact issues_pure _
    · exact Issues.ite (fun _ => issues_pure _) fun _ => issues_throw' _
  | checkFeedNow id tenantId =>
    exact (checkFeedNow_confines id w).bind (fun _ _ _ => trivial) fun _ _ _ => trivial
  | sendAlert alertId tenant =>
    exact (sendAlert_confines alertId tenant w).bind (fun _ _ _ => trivial) fun _ _ _ => trivial

end Requests

end TenantIsolation

/-! ## Runs -/

namespace System

open Transition TenantIsolation World

variable {d : Deployment} {s s' : System}

/-- The process under the id, if it handles a request, handles this one. -/
def Handles (d : Deployment) (saved : TenantSettingsRow → Prop) (pid : Nat) (r : Request)
    (s : System) : Prop :=
  (isolation d.config d.rt saved).Abides s ∧ ∀ prog, s.procs pid = some ⟨.request, prog⟩ →
    Confines d.config d.rt saved pid r prog (fun _ _ => True) s.world

/-- A step that starts no other request under the id. -/
theorem handles_step {saved : TenantSettingsRow → Prop} {pid : Nat} {r : Request} {a : Action}
    (hs : s.Handles d saved pid r) (ha : ∀ r', a ≠ .request pid r')
    (hsaved : ∀ row, a = .saveSettings row → saved row) (h : step d s a = some s') :
    s'.Handles d saved pid r := by
  have hrun : run (step d) s [a] = some s' := by rw [run_cons, h]; rfl
  refine ⟨isolation_run hs.1 (fun row hrow => ?_) hrun, fun prog hp => ?_⟩
  · exact hsaved row (List.mem_singleton.mp hrow).symm
  rcases process_step h hp with ⟨hold, hne⟩ | ⟨-, hl⟩ | ⟨out, c, k, res, rfl, hold, hanswer, heq⟩
  · exact (hs.2 prog hold).disturb (rely_elsewhere pid) (fun _ _ _ _ h => h)
      (elsewhere_step h hp hne)
  · cases hl with
    | request _ r' => exact absurd rfl (ha r')
  · obtain rfl : prog = k res := heq
    exact (hs.2 _ hold).answer (rely_elsewhere pid) ⟨hs.1.holds, out, trivial, hanswer⟩

/-- **Requests keep to their tenant**: in every run, after a request has arrived, and for as long
as its process has not been given another, each call of it changes no row of another tenant,
queues jobs for the tenant's feeds and alerts only, and is told of none but the tenant's. -/
theorem requests_confined {s₀ : System} (h₀ : s₀.Init) (hs : s₀.Stocked)
    {pre post : List Action} {pid : Nat} {r : Request}
    (h : run (step d) s₀ (pre ++ .request pid r :: post) = some s)
    (hlast : ∀ r', .request pid r' ∉ post) {c : Call}
    {k : Except String c.Reply → Program Unit} (hp : s.procs pid = some ⟨.request, .call c k⟩) :
    ∃ tenantId, r.tenant = some tenantId ∧
      (∀ out s', step d s (.advance pid out) = some s' →
        s.world.OthersKept tenantId s'.world) ∧
      ∀ ch a w', c.serve pid s.world ch = some (a, w') → c.TellsOf tenantId a := by
  set saved := Saved s₀ (pre ++ .request pid r :: post) with hsaved
  rw [run_append] at h
  obtain ⟨s₁, hpre, hpost⟩ := Option.bind_eq_some_iff.mp h
  obtain ⟨s₂, hrequest, hpost⟩ := run_cons_eq_some hpost
  have h₁ : (isolation d.config d.rt saved).Abides s₁ :=
    isolation_run (Protocol.abides_of_init h₀ (partitioned_of_init h₀ hs _))
      (fun row hrow => .inr (List.mem_append_left _ hrow)) hpre
  have hrun : run (step d) s₁ [.request pid r] = some s₂ := by rw [run_cons, hrequest]; rfl
  have h₂ : s₂.Handles d saved pid r := by
    refine ⟨isolation_run h₁ (fun row hrow => ?_) hrun, fun prog hprog => ?_⟩
    · cases List.mem_singleton.mp hrow
    · obtain ⟨-, rfl⟩ := start_eq_some hrequest
      dsimp only at hprog
      rw [setProc_self] at hprog
      cases hprog
      exact request_confines r _
  have hall : ∀ a ∈ post, (∀ r', a ≠ .request pid r') ∧
      ∀ row, a = .saveSettings row → saved row := by
    refine fun a ha => ⟨fun r' heq => hlast r' (heq ▸ ha), fun row heq => .inr ?_⟩
    exact List.mem_append_right _ (List.mem_cons_of_mem _ (heq ▸ ha))
  have hend : s.Handles d saved pid r := run_invariant_of_forall
    (fun _ a _ ha hs hstep => handles_step hs ha.1 ha.2 hstep) hall h₂ hpost
  obtain ⟨tenantId, htenant, hconcerns⟩ := (hend.2 _ hp).next_allowed (rely_elsewhere pid)
  refine ⟨tenantId, htenant, fun out s' hstep => ?_, fun ch a w' hserve => ?_⟩
  · obtain ⟨role, c', k', res, w, hp', hanswer, rfl⟩ := advance_eq_some hstep
    cases hp.symm.trans hp'
    rcases Call.answer_eq_some hanswer with ⟨-, -, rfl, -⟩ | ⟨ch, a, hserve, -⟩
    · exact .refl tenantId _
    · exact othersKept_of_concerns hend.1.holds hconcerns (serve_effect hserve)
  · exact tellsOf_of_concerns hend.1.holds hconcerns hserve

/-- The article is stored, and its tenant asks for its alert to be sent. -/
def sendOwn : List Action :=
  ingestArticle ++ .request 4 (.sendAlert 1 (some "t")) :: proceed 4 1

/-- The statement a request is about to execute. -/
def requestWrites? (s : System) (pid : Nat) : Option (Nat × AlertWrite) :=
  match s.procs pid with
  | some ⟨.request, .call (.alert (.write id write)) _⟩ => some (id, write)
  | _ => none

theorem requestWrites?_eq_some {pid id : Nat} {write : AlertWrite}
    (h : s.requestWrites? pid = some (id, write)) :
    ∃ k, s.procs pid = some ⟨.request, .call (.alert (.write id write)) k⟩ := by
  unfold requestWrites? at h
  split at h
  · rename_i k hp
    cases h
    exact ⟨k, hp⟩
  · cases h

theorem requests_confined_sendOwn :
    ∃ s k, run (step webhookDeployment) oneFeed sendOwn = some s ∧
      s.procs 4 = some ⟨.request, .call (.alert (.write 1 .markDeliveryQueued)) k⟩ ∧
      ∃ tenantId, (Request.sendAlert 1 (some "t")).tenant = some tenantId ∧
        (∀ out s', step webhookDeployment s (.advance 4 out) = some s' →
          s.world.OthersKept tenantId s'.world) ∧
        ∀ ch a w', (Call.alert (.write 1 .markDeliveryQueued)).serve 4 s.world ch = some (a, w') →
          (Call.alert (.write 1 .markDeliveryQueued)).TellsOf tenantId a := by
  have hrun : ((run (step webhookDeployment) oneFeed sendOwn).bind fun s => s.requestWrites? 4)
      = some (1, .markDeliveryQueued) := by decide
  obtain ⟨s, hs, hwrite⟩ := Option.bind_eq_some_iff.mp hrun
  obtain ⟨k, hp⟩ := requestWrites?_eq_some hwrite
  refine ⟨s, k, hs, hp, requests_confined oneFeed_init oneFeed_stocked hs (fun r' hr' => ?_) hp⟩
  cases List.eq_of_mem_replicate hr'

end System

end Feedpulse
