import Feedpulse.DeliveryReach
import Feedpulse.QueuedAnswer

/-!
# At most one delivery to each destination

A channel that has delivered an alert is marked sent, and a sent channel is not attempted
again; but Telegram is one channel with many chats, and is marked only when every chat was
reached. `delivered_once` says which runs deliver an alert to each destination at most once:
those in which no attempt reaches one chat and misses another. `chat_reached_twice` is a run
in which an attempt does, and the chat it has reached gets the alert again.
-/

namespace Feedpulse

open Prog

/-! ## One attempt at a time -/

namespace System

variable {d : Deployment} {s s' : System}

/-- The delivery queue after the report of an ended process. -/
theorem holds_report {w : World} {jobId : String} {pid q : Nat} {data : AlertDeliveryJobData}
    (hne : pid ≠ q) (hh : w.alertQueue.Holds jobId pid data) (role : Role) (succeeded : Bool) :
    (report w q role succeeded).alertQueue.Holds jobId pid data := by
  cases role with
  | deliveryWorker jobId' input =>
    cases succeeded with
    | true => exact hh.complete rfl hne
    | false => exact hh.fail hne
  | _ => exact hh

/-- A delivery worker keeps the job it holds until it ends, or loses the lock. -/
theorem holds_alertQueue_step {a : Action} (h : step d s a = some s') {jobId : String} {pid : Nat}
    {data : AlertDeliveryJobData} (hend : a ≠ .finish pid) (hlock : a ≠ .stallDelivery jobId)
    (hh : s.world.alertQueue.Holds jobId pid data) :
    s'.world.alertQueue.Holds jobId pid data := by
  cases a with
  | advance q out =>
    obtain ⟨role, c, k, r, w, -, ha, rfl⟩ := advance_eq_some h
    rcases Call.answer_eq_some ha with ⟨error, -, rfl, -⟩ | ⟨ch, x, hserve, -⟩
    · exact hh
    · rcases alertQueue_effect (serve_effect hserve) with hq | ⟨jobId', data', -, hq⟩
      · rw [hq]
        exact hh
      · rw [hq]
        exact hh.add
  | takeDelivery q jobId' =>
    obtain ⟨job, q, ht, -, rfl⟩ := takeDelivery_eq_some h
    exact hh.take ht
  | finish q =>
    have hne : pid ≠ q := by
      rintro rfl
      exact hend rfl
    obtain ⟨role, prog, -, ⟨-, rfl⟩ | ⟨e, -, rfl⟩⟩ := finish_eq_some h
    · exact holds_report hne hh ..
    · exact holds_report hne hh ..
  | promoteDelivery jobId' =>
    obtain ⟨q, hq, rfl⟩ := Option.map_eq_some_iff.mp h
    exact hh.promote hq
  | stallDelivery jobId' =>
    obtain ⟨q, hq, rfl⟩ := Option.map_eq_some_iff.mp h
    refine hh.stall ?_ hq
    rintro rfl
    exact hlock rfl
  | tick q =>
    obtain ⟨-, rfl⟩ := start_eq_some h
    exact hh
  | request q r =>
    obtain ⟨-, rfl⟩ := start_eq_some h
    exact hh
  | takeFetch q jobId' =>
    obtain ⟨job, q, -, -, rfl⟩ := takeFetch_eq_some h
    exact hh
  | crash q =>
    obtain ⟨p, -, rfl⟩ := crash_eq_some h
    exact hh
  | promoteFetch jobId' =>
    obtain ⟨q, -, rfl⟩ := Option.map_eq_some_iff.mp h
    exact hh
  | stallFetch jobId' =>
    obtain ⟨q, -, rfl⟩ := Option.map_eq_some_iff.mp h
    exact hh
  | elapse ms =>
    obtain rfl := Option.some.inj h
    exact hh
  | saveSettings row =>
    obtain rfl := Option.some.inj h
    exact hh

/-- A delivery worker after a step was there before it, or has just taken its job. -/
theorem deliveryWorker_step {a : Action} (h : step d s a = some s') {pid : Nat}
    {input : DeliveryInput} {jobId : String} {prog : Program Unit}
    (hp : s'.procs pid = some ⟨.deliveryWorker jobId input, prog⟩) :
    (∃ prog₀, s.procs pid = some ⟨.deliveryWorker jobId input, prog₀⟩ ∧ a ≠ .finish pid) ∨
      ∃ job : Job String AlertDeliveryJobData, a = .takeDelivery pid jobId ∧
        deliveryInput job = input ∧ s.world.alertQueue.getJob jobId = some job ∧
        s'.world.alertQueue.Holds jobId pid job.data := by
  by_cases hend : a = .finish pid
  · subst hend
    have hnone : s'.procs pid = none := by
      obtain ⟨role, prog', -, ⟨-, rfl⟩ | ⟨e, -, rfl⟩⟩ := finish_eq_some h
      · exact setProc_self ..
      · exact setProc_self ..
    rw [hnone] at hp
    cases hp
  have hproc := procs_step h
  generalize hprocs : s'.procs = procs at hproc hp
  cases hproc with
  | stay => exact .inl ⟨prog, hp, hend⟩
  | launch _ q role p hfree hl =>
    by_cases hq : pid = q
    · subst hq
      rw [setProc_self] at hp
      cases hp
      cases hl with
      | delivery _ _ job hj =>
        obtain ⟨job', q, ht, -, rfl⟩ := takeDelivery_eq_some h
        obtain rfl := Option.some.inj ((JobQueue.take_eq_some ht).1.symm.trans hj)
        exact .inr ⟨job', rfl, rfl, hj, JobQueue.holds_take ht⟩
    · rw [setProc_of_ne hq] at hp
      exact .inl ⟨prog, hp, hend⟩
  | advance q out role c k r w hq' ha =>
    by_cases hq : pid = q
    · subst hq
      rw [setProc_self] at hp
      cases hp
      exact .inl ⟨_, hq', hend⟩
    · rw [setProc_of_ne hq] at hp
      exact .inl ⟨prog, hp, hend⟩
  | leave _ q =>
    by_cases hq : pid = q
    · subst hq
      rw [setProc_self] at hp
      cases hp
    · rw [setProc_of_ne hq] at hp
      exact .inl ⟨prog, hp, hend⟩

/-- No worker loses its lock while it runs. -/
def KeepsLocks (s : System) (a : Action) : Prop :=
  ∀ jobId, a = .stallDelivery jobId →
    ∀ pid input prog, s.procs pid ≠ some ⟨.deliveryWorker jobId input, prog⟩

/-- Every delivery worker holds the job of its alert. -/
def JobsHeld (s : System) : Prop :=
  ∀ pid jobId input prog, s.procs pid = some ⟨.deliveryWorker jobId input, prog⟩ →
    jobId = alertJobId input.alertId ∧ ∃ data, s.world.alertQueue.Holds jobId pid data

theorem jobsHeld_step {a : Action} (hs : s.JobsHeld) (hnamed : s.AlertJobsNamed)
    (ha : s.KeepsLocks a) (h : step d s a = some s') : s'.JobsHeld := by
  intro pid jobId input prog hp
  rcases deliveryWorker_step h hp with ⟨prog₀, hp₀, hend⟩ | ⟨job, -, rfl, hj, hheld⟩
  · obtain ⟨hid, data, hheld⟩ := hs pid jobId input prog₀ hp₀
    refine ⟨hid, data, holds_alertQueue_step h hend (fun hlock => ?_) hheld⟩
    exact ha jobId hlock pid input prog₀ hp₀
  · obtain ⟨hmem, rfl⟩ := JobQueue.getJob_eq_some.mp hj
    exact ⟨hnamed job hmem, job.data, hheld⟩

/-- **One worker at a time delivers an alert.** -/
theorem JobsHeld.unique (h : s.JobsHeld) {p q : Nat} {jobId jobId' : String}
    {input input' : DeliveryInput} {prog prog' : Program Unit}
    (hp : s.procs p = some ⟨.deliveryWorker jobId input, prog⟩)
    (hq : s.procs q = some ⟨.deliveryWorker jobId' input', prog'⟩)
    (hid : input.alertId = input'.alertId) : p = q := by
  obtain ⟨rfl, data, hheld⟩ := h p jobId input prog hp
  obtain ⟨rfl, data', hheld'⟩ := h q jobId' input' prog' hq
  rw [hid] at hheld
  exact hheld.unique hheld'

/-! ## What a step does to the settings and the sent channels -/

/-- Settings are saved with each chat listed once. -/
def listsChatsOnce : Action → Bool
  | .saveSettings row => row.telegramChatIds.Nodup
  | _ => true

theorem settings_effect {pid : Nat} {w w' : World} {c : Call} (h : CallEffect pid w c w') :
    w'.settings = w.settings := by
  cases h with
  | commit =>
    unfold World.commitTxn
    split <;> rfl
  | _ => rfl

theorem settings_answer {pid : Nat} {w w' : World} {out : Outcome} {c : Call}
    {r : Except String c.Reply} (ha : c.answer pid w out = some (r, w')) :
    w'.settings = w.settings := by
  rcases Call.answer_eq_some ha with ⟨error, -, rfl, -⟩ | ⟨ch, x, hserve, -⟩
  · rfl
  · exact settings_effect (serve_effect hserve)

theorem report_settings (w : World) (pid : Nat) (role : Role) (succeeded : Bool) :
    (report w pid role succeeded).settings = w.settings := by
  cases role <;> rfl

/-- Every saved row lists each chat once. -/
theorem listsChatsOnce_step {a : Action} (ha : listsChatsOnce a = true) (h : step d s a = some s')
    (hs : ∀ row ∈ s.world.settings, row.telegramChatIds.Nodup) :
    ∀ row ∈ s'.world.settings, row.telegramChatIds.Nodup := by
  cases a with
  | saveSettings row =>
    obtain rfl := Option.some.inj h
    intro row' hrow'
    rcases List.mem_cons.mp hrow' with rfl | hrow'
    · exact of_decide_eq_true ha
    · exact hs row' (List.mem_filter.mp hrow').1
  | advance q out =>
    obtain ⟨role, c, k, r, w, -, hans, rfl⟩ := advance_eq_some h
    rw [settings_answer hans]
    exact hs
  | finish q =>
    obtain ⟨role, prog, -, ⟨-, rfl⟩ | ⟨e, -, rfl⟩⟩ := finish_eq_some h
    · rw [report_settings]
      exact hs
    · rw [report_settings]
      exact hs
  | tick q =>
    obtain ⟨-, rfl⟩ := start_eq_some h
    exact hs
  | request q r =>
    obtain ⟨-, rfl⟩ := start_eq_some h
    exact hs
  | takeFetch q jobId =>
    obtain ⟨job, q, -, -, rfl⟩ := takeFetch_eq_some h
    exact hs
  | takeDelivery q jobId =>
    obtain ⟨job, q, -, -, rfl⟩ := takeDelivery_eq_some h
    exact hs
  | crash q =>
    obtain ⟨p, -, rfl⟩ := crash_eq_some h
    exact hs
  | elapse ms =>
    obtain rfl := Option.some.inj h
    exact hs
  | _ =>
    obtain ⟨q, -, rfl⟩ := Option.map_eq_some_iff.mp h
    exact hs

theorem keepsSent_of_quiet {w w' : World} (h : QuietStep w w') : w.KeepsSent w' := by
  cases h with
  | _ => exact World.keepsSent_of_alerts rfl

/-- No step unsends a channel. -/
theorem keepsSent_step {a : Action} (h : step d s a = some s') : s.world.KeepsSent s'.world := by
  rcases step_effect h with ⟨pid, c, ch, r, -, hserve⟩ | ⟨-, hq⟩
  · exact World.keepsSent_effect (serve_effect hserve)
  · exact keepsSent_of_quiet hq

end System

/-! ## Deliveries along a run -/

/-- The deliveries of a run, and the ones of the attempts under way. -/
structure DeliveryLog where
  /-- the alerts that were received, and where -/
  received : List (Nat × Destination)
  /-- what the attempt of each process has reached -/
  reached : Nat → List Destination
  /-- whether the attempt of each process has missed a chat -/
  missed : Nat → Bool

namespace DeliveryLog

/-- Before anything has run. -/
def empty : DeliveryLog := { received := [], reached := fun _ => [], missed := fun _ => false }

/-- A destination is tried. -/
def tried (l : DeliveryLog) (pid id : Nat) (dest : Destination) (takesEffect : Bool) :
    DeliveryLog :=
  if takesEffect then
    { l with
      received := (id, dest) :: l.received
      reached := Function.update l.reached pid (dest :: l.reached pid) }
  else
    { l with missed := Function.update l.missed pid (l.missed pid || dest.channel = .telegram) }

/-- A call is answered. -/
def record (l : DeliveryLog) (pid : Nat) (c : Call) (out : Outcome) : DeliveryLog :=
  match c.delivery? with
  | some (id, dest) => l.tried pid id dest out.takesEffect
  | none => l

/-- A process disappears. -/
def clear (l : DeliveryLog) (pid : Nat) : DeliveryLog :=
  { l with
    reached := Function.update l.reached pid []
    missed := Function.update l.missed pid false }

/-- A step is taken. -/
def after (s : System) (l : DeliveryLog) : Action → DeliveryLog
  | .advance pid out =>
    match s.procs pid with
    | some ⟨_, .call c _⟩ => l.record pid c out
    | _ => l
  | .finish pid => l.clear pid
  | .crash pid => l.clear pid
  | _ => l

end DeliveryLog

/-- A state of the system with its log. -/
structure Traced where
  /-- the state -/
  system : System
  /-- its log -/
  log : DeliveryLog

namespace Traced

open Transition

/-- One step, logged. -/
def step (d : Deployment) (x : Traced) (a : Action) : Option Traced :=
  (System.step d x.system a).map fun s' =>
    { system := s', log := x.log.after x.system a }

/-- No destination has received an alert more than once. -/
def DeliversOnce (x : Traced) : Prop := x.log.received.Nodup

/-- The step is not a failed write to an alert, nor the crash of a process. -/
def writesSucceed (x : Traced) : Action → Bool
  | .advance pid out =>
    match x.system.procs pid, out with
    | some ⟨_, .call (.alert (.write ..)) _⟩, .ok _ => true
    | some ⟨_, .call (.alert (.write ..)) _⟩, _ => false
    | _, _ => true
  | .crash _ => false
  | _ => true

/-- A destination is reached by a message whose answer arrives, and no attempt reaches one chat
and misses another. -/
def reachesAllOrNone (x : Traced) : Action → Bool
  | .advance pid out =>
    match x.system.procs pid with
    | some ⟨_, .call c _⟩ =>
      match c.delivery?, out with
      | some (_, dest), .ok _ => dest.channel ≠ .telegram || !x.log.missed pid
      | some (_, dest), .refused _ =>
        dest.channel ≠ .telegram || (x.log.reached pid).all fun other => other.channel ≠ .telegram
      | some _, .lost .. => false
      | none, _ => true
    | _ => true
  | _ => true

/-! ### The invariant -/

variable {d : Deployment} {x x' : Traced} {pid id : Nat} {v : AttemptView}

/-- What a process has read and done is what the log and the state show of its attempt. -/
structure Shows (x : Traced) (pid id : Nat) (v : AttemptView) : Prop where
  /-- destinations -/
  reached : v.reached = x.log.reached pid
  /-- chats -/
  missed : v.missed = x.log.missed pid
  /-- the alert it has read is there -/
  row : v.known.isSome = true → ∃ a, x.system.world.alertRow id = some a
  /-- what received the alert before was marked sent when it was read -/
  known : ∀ known, v.known = some known → ∀ dest, (id, dest) ∈ x.log.received →
    known dest.channel = true ∨ dest ∈ v.reached
  /-- what it has marked is marked -/
  marked : ∀ channel, v.marked channel = true → x.system.world.SentOn id channel

/-- The process is a worker on the alert. -/
def Delivers (x : Traced) (pid id : Nat) : Prop :=
  ∃ jobId input prog, x.system.procs pid = some ⟨.deliveryWorker jobId input, prog⟩ ∧
    input.alertId = id

/-- What a run keeps in which no attempt reaches one chat and misses another. -/
structure Once (x : Traced) : Prop where
  /-- every process keeps to its role -/
  roles : x.system.RolesKept
  /-- delivery jobs stand under the ids of their alerts -/
  named : x.system.AlertJobsNamed
  /-- every delivery worker holds the job of its alert -/
  held : x.system.JobsHeld
  /-- settings list each chat once -/
  settings : ∀ row ∈ x.system.world.settings, row.telegramChatIds.Nodup
  /-- no destination has received an alert twice -/
  nodup : x.log.received.Nodup
  /-- what has received an alert is marked sent, or its attempt is under way -/
  settled : ∀ id dest, (id, dest) ∈ x.log.received → x.system.world.SentOn id dest.channel ∨
    ∃ pid, x.Delivers pid id ∧ dest ∈ x.log.reached pid
  /-- the attempts -/
  attempts : ∀ pid jobId input prog,
    x.system.procs pid = some ⟨.deliveryWorker jobId input, prog⟩ →
      ∃ v, x.Shows pid input.alertId v ∧
        Meets (AttemptView.Allowed input.alertId) (AttemptView.Answers input.alertId) prog
          (fun _ v' => v'.Settled) v
  /-- nobody else delivers -/
  idle : ∀ pid, (∀ id, ¬ x.Delivers pid id) →
    x.log.reached pid = [] ∧ x.log.missed pid = false

theorem once_of_init {s : System} (h : s.Init)
    (hsettings : ∀ row ∈ s.world.settings, row.telegramChatIds.Nodup) : Once ⟨s, .empty⟩ := by
  have hno : ∀ pid p, s.procs pid ≠ some p := by
    intro pid p hp
    rw [h.procs] at hp
    cases hp
  have hjobs : ∀ j ∈ s.world.alertQueue.jobs, False := by
    intro j hj
    rw [h.alertQueue] at hj
    cases hj
  exact
    { roles := System.rolesKept_of_init h
      named := fun j hj => (hjobs j hj).elim
      held := fun pid _ _ _ hp => absurd hp (hno pid _)
      settings := hsettings
      nodup := List.nodup_nil
      settled := fun _ _ hmem => absurd hmem List.not_mem_nil
      attempts := fun pid _ _ _ hp => absurd hp (hno pid _)
      idle := fun _ _ => ⟨rfl, rfl⟩ }

/-- What is seen of an attempt stays seen while others run. -/
theorem Shows.congr (h : x.Shows pid id v)
    (hsent : x.system.world.KeepsSent x'.system.world)
    (hreached : x'.log.reached pid = x.log.reached pid)
    (hmissed : x'.log.missed pid = x.log.missed pid)
    (hreceived : ∀ dest, (id, dest) ∈ x'.log.received → (id, dest) ∈ x.log.received) :
    x'.Shows pid id v := by
  refine ⟨h.reached.trans hreached.symm, h.missed.trans hmissed.symm, fun hsome => ?_,
    fun known hknown dest hdest => h.known known hknown dest (hreceived dest hdest),
    fun channel hmarked => hsent.sentOn (h.marked channel hmarked)⟩
  obtain ⟨a, ha⟩ := h.row hsome
  obtain ⟨a', ha', -⟩ := hsent id a ha
  exact ⟨a', ha'⟩

/-! ### Steps -/

/-- The parts of the invariant that are not about the log. -/
theorem background_step {a : Action} (hx : x.Once) (hlock : x.system.KeepsLocks a)
    (hchats : System.listsChatsOnce a = true) (h : System.step d x.system a = some x'.system) :
    x'.system.RolesKept ∧ x'.system.AlertJobsNamed ∧ x'.system.JobsHeld ∧
      ∀ row ∈ x'.system.world.settings, row.telegramChatIds.Nodup :=
  ⟨System.rolesKept_step hx.roles h, System.alertJobsNamed_step hx.roles hx.named h,
    System.jobsHeld_step hx.held hx.named hlock h,
    System.listsChatsOnce_step hchats h hx.settings⟩

/-- A step that is not one of a delivery worker, unless it starts one. -/
theorem once_of_others {a : Action} (hx : x.Once) (hlock : x.system.KeepsLocks a)
    (hchats : System.listsChatsOnce a = true) (h : System.step d x.system a = some x'.system)
    (hlog : x'.log = x.log)
    (hforth : ∀ pid jobId input prog,
      x.system.procs pid = some ⟨.deliveryWorker jobId input, prog⟩ →
        x'.system.procs pid = some ⟨.deliveryWorker jobId input, prog⟩)
    (hback : ∀ pid jobId input prog,
      x'.system.procs pid = some ⟨.deliveryWorker jobId input, prog⟩ →
        x.system.procs pid = some ⟨.deliveryWorker jobId input, prog⟩ ∨
          x.system.procs pid = none ∧
            prog = ProcessAlertDelivery.execute d.config d.rt input) : x'.Once := by
  obtain ⟨hroles, hnamed, hheld, hsettings⟩ := background_step hx hlock hchats h
  have hsent := System.keepsSent_step h
  refine ⟨hroles, hnamed, hheld, hsettings, hlog ▸ hx.nodup, fun id dest hmem => ?_,
    fun pid jobId input prog hp => ?_, fun pid hidle => ?_⟩
  · rw [hlog] at hmem
    rcases hx.settled id dest hmem with hs | ⟨pid, ⟨jobId, input, prog, hp, hid⟩, hdest⟩
    · exact .inl (hsent.sentOn hs)
    · exact .inr ⟨pid, ⟨jobId, input, prog, hforth pid jobId input prog hp, hid⟩, hlog ▸ hdest⟩
  · rcases hback pid jobId input prog hp with hp | ⟨hfree, rfl⟩
    · obtain ⟨v, hv, hmeets⟩ := hx.attempts pid jobId input prog hp
      refine ⟨v, hv.congr hsent (by rw [hlog]) (by rw [hlog]) fun dest hdest => ?_, hmeets⟩
      rwa [hlog] at hdest
    · have hnot : ∀ id, ¬ x.Delivers pid id := by
        rintro id ⟨jobId', input', prog', hp', -⟩
        rw [hfree] at hp'
        cases hp'
      obtain ⟨hreached, hmissed⟩ := hx.idle pid hnot
      refine ⟨.start, ⟨?_, ?_, nofun, nofun, nofun⟩, execute_meets input⟩
      · rw [hlog, hreached]
        rfl
      · rw [hlog, hmissed]
        rfl
  · rw [hlog]
    refine hx.idle pid ?_
    rintro id ⟨jobId, input, prog, hp, hid⟩
    exact hidle id ⟨jobId, input, prog, hforth pid jobId input prog hp, hid⟩

/-! #### The call of a delivery worker -/

section Worker

variable {out : Outcome} {jobId : String} {input : DeliveryInput} {c : Call}
  {k : Except String c.Reply → Program Unit} {r : Except String c.Reply}

theorem allowed_delivery {dest : Destination} {id' : Nat} (h : v.Allowed id c)
    (hc : c.delivery? = some (id', dest)) :
    id' = id ∧ dest ∉ v.reached ∧
      ∃ known, v.known = some known ∧ known dest.channel = false := by
  unfold AttemptView.Allowed at h
  split at h
  · cases hc
  · cases hc
  · exact h id' dest hc

/-- While its worker delivers an alert, only what it has reached itself has received the alert
over a channel that was not sent when it read it. -/
theorem Once.received_of_read (hx : x.Once) {prog : Program Unit}
    (hp : x.system.procs pid = some ⟨.deliveryWorker jobId input, prog⟩) {dest : Destination}
    (hmem : (input.alertId, dest) ∈ x.log.received) :
    x.system.world.SentOn input.alertId dest.channel ∨ dest ∈ x.log.reached pid := by
  rcases hx.settled input.alertId dest hmem with hs | ⟨q, ⟨jobId', input', prog', hq, hid⟩, hdest⟩
  · exact .inl hs
  · obtain rfl := hx.held.unique hq hp hid
    exact .inr hdest

/-- The record that is read shows what is sent. -/
theorem read_answer {w : World} {id' : Nat} {record : AlertNotificationRecord}
    (ha : (Call.alert (.findByIdForWorker id')).answer pid w out = some (.ok (some record), w)) :
    record.alert.id = id' ∧ (∃ a, w.alertRow id' = some a) ∧
      ∀ channel, w.SentOn id' channel → record.alert.channelStatus channel = .sent := by
  obtain ⟨ch, -, hserve⟩ := Call.serve_of_ok ha
  have hfind : w.findAlertForWorker id' = some record :=
    (Prod.mk.inj (Option.some.inj hserve)).1
  have hsome : ∃ a, w.alertRow id' = some a := by
    unfold World.findAlertForWorker at hfind
    obtain ⟨a, ha, -⟩ := Option.bind_eq_some_iff.mp hfind
    exact ⟨a, ha⟩
  obtain ⟨a, ha⟩ := hsome
  obtain ⟨rules, hrecord⟩ := World.alert_of_findAlertForWorker ha hfind
  refine ⟨?_, ⟨a, ha⟩, ?_⟩
  · have hid : a.id = id' := World.id_of_alertRow ha
    rw [hrecord]
    exact hid
  · rintro channel ⟨b, hb, hsent⟩
    obtain rfl := Option.some.inj (ha.symm.trans hb)
    rw [hrecord]
    cases channel <;> exact hsent

/-- A call that delivers nothing leaves the view as it is, unless it reads or marks. -/
theorem stays_of_none (hnone : c.delivery? = none) :
    (c.delivery? = none → v = v) ∧
      ∀ id dest, c.delivery? = some (id, dest) → v.Tries dest r.isOk v := by
  refine ⟨fun _ => rfl, fun id dest hc => ?_⟩
  rw [hnone] at hc
  cases hc

/-- What such a call makes of the attempt of its worker. -/
theorem shows_of_none (hx : x.Once)
    (hp : x.system.procs pid = some ⟨.deliveryWorker jobId input, .call c k⟩)
    (ha : c.answer pid x.system.world out = some (r, x'.system.world))
    (hwrites : x.writesSucceed (.advance pid out) = true) (hlog : x'.log = x.log)
    (hv : x.Shows pid input.alertId v) (hallowed : v.Allowed input.alertId c)
    (hsent : x.system.world.KeepsSent x'.system.world) (hnone : c.delivery? = none) :
    ∃ v', AttemptView.Answers input.alertId v c r v' ∧ v'.reached = v.reached ∧
      x'.Shows pid input.alertId v' := by
  have hmay : (Role.deliveryWorker jobId input).MayIssue c :=
    (issues_call.mp (hx.roles pid _ hp)).1
  have hsame : x'.Shows pid input.alertId v :=
    hv.congr hsent (by rw [hlog]) (by rw [hlog]) fun dest hdest => by rwa [hlog] at hdest
  -- only three calls matter: the reading of the alert, the marking of a channel, the settings
  cases c with
  | alert c =>
    cases c with
    | findByIdForWorker id' =>
      rcases r with e | _ | record
      · exact ⟨v, stays_of_none hnone, rfl, hsame⟩
      · exact ⟨v, stays_of_none hnone, rfl, hsame⟩
      · obtain rfl : id' = input.alertId := hmay
        have hworld : x'.system.world = x.system.world := by
          obtain ⟨ch, -, hserve⟩ := Call.serve_of_ok ha
          exact (Prod.mk.inj (Option.some.inj hserve)).2.symm
        rw [hworld] at ha
        obtain ⟨hrecord, hrow, hsentOn⟩ := read_answer ha
        refine ⟨v.read record, ⟨hrecord, rfl⟩, rfl, hsame.reached, hsame.missed,
          fun _ => hworld ▸ hrow, ?_, hsame.marked⟩
        -- what received the alert before it was read is marked in the row that was read
        rintro known hknown dest hdest
        obtain rfl := Option.some.inj hknown
        rw [hlog] at hdest
        rcases hx.received_of_read hp hdest with hs | hreached
        · exact .inl (decide_eq_true (hsentOn _ hs))
        · rw [← hv.reached] at hreached
          exact .inr hreached
    | write id' s =>
      -- writes are assumed to succeed
      have hok : ∃ ch, out = .ok ch := by
        cases out with
        | ok ch => exact ⟨ch, rfl⟩
        | _ => simp [writesSucceed, hp] at hwrites
      obtain ⟨ch, rfl⟩ := hok
      obtain rfl : id' = input.alertId := hmay.1
      simp only [Call.answer, Call.serve, AlertCall.serve, Option.map_some, Option.some.injEq,
        Prod.mk.injEq] at ha
      obtain ⟨rfl, hworld⟩ := ha
      cases s with
      | markChannelDelivered channel =>
        refine ⟨v.mark channel, rfl, rfl, hsame.reached, hsame.missed, hsame.row, hsame.known,
          fun channel' hmarked => ?_⟩
        by_cases hc : channel' = channel
        · subst hc
          obtain ⟨a, ha⟩ := hv.row hallowed
          refine ⟨_, by rw [← hworld, World.alertRow_writeAlert, ha]; rfl, ?_⟩
          cases channel' <;> rfl
        · exact hsame.marked channel' (by simpa [AttemptView.mark, hc] using hmarked)
      | _ => exact ⟨v, stays_of_none hnone, rfl, hsame⟩
    | _ => exact ⟨v, stays_of_none hnone, rfl, hsame⟩
  | getSettings tenantId =>
    rcases r with e | _ | settings
    · exact ⟨v, stays_of_none hnone, rfl, hsame⟩
    · exact ⟨v, stays_of_none hnone, rfl, hsame⟩
    · obtain ⟨ch, -, hserve⟩ := Call.serve_of_ok ha
      have hget : Settings.getByTenantId tenantId x.system.world.settings = some settings :=
        (Prod.mk.inj (Option.some.inj hserve)).1
      obtain ⟨row, hrow, rfl⟩ := Option.map_eq_some_iff.mp hget
      exact ⟨v, ⟨hx.settings row (Table.mem_of_lookup hrow), rfl⟩, rfl, hsame⟩
  | net c =>
    cases c with
    | fetchFeed url etag lastModified => exact ⟨v, stays_of_none hnone, rfl, hsame⟩
    | postWebhook url record => cases hnone
    | postEmail recipients record => cases hnone
    | telegramSendMessage token chatId message =>
      cases message with
      | alert record => cases hnone
      | digest tenantId items => exact ⟨v, stays_of_none hnone, rfl, hsame⟩
  | _ => exact ⟨v, stays_of_none hnone, rfl, hsame⟩

/-- The log after the answer of a call. -/
theorem after_advance (out : Outcome) {role : Role}
    (hp : x.system.procs pid = some ⟨role, .call c k⟩) :
    x.log.after x.system (.advance pid out) = x.log.record pid c out := by
  simp [DeliveryLog.after, hp]

/-- What the answer of a delivery worker's call makes of its attempt, and of the log. -/
structure Advanced (x x' : Traced) (pid id : Nat) (v : AttemptView) (c : Call)
    (r : Except String c.Reply) (v' : AttemptView) : Prop where
  /-- the process sees an answer that it can expect -/
  answers : AttemptView.Answers id v c r v'
  /-- its attempt is the one of the log -/
  shows : x'.Shows pid id v'
  /-- it forgets nothing it has reached -/
  grows : ∀ dest ∈ v.reached, dest ∈ v'.reached
  /-- what received an alert is new, or did so before -/
  received : ∀ id' dest, (id', dest) ∈ x'.log.received →
    (id', dest) ∈ x.log.received ∨ (id' = id ∧ dest ∈ v'.reached)
  /-- no destination has received an alert twice -/
  nodup : x'.log.received.Nodup
  /-- the other attempts stay as they are -/
  others : ∀ q, q ≠ pid →
    x'.log.reached q = x.log.reached q ∧ x'.log.missed q = x.log.missed q

/-- A delivery. -/
theorem advanced_of_delivery {dest : Destination} (hx : x.Once)
    (hp : x.system.procs pid = some ⟨.deliveryWorker jobId input, .call c k⟩)
    (ha : c.answer pid x.system.world out = some (r, x'.system.world))
    (hall : x.reachesAllOrNone (.advance pid out) = true)
    (hlog : x'.log = x.log.record pid c out)
    (hv : x.Shows pid input.alertId v) (hallowed : v.Allowed input.alertId c)
    (hsent : x.system.world.KeepsSent x'.system.world)
    (hc : c.delivery? = some (input.alertId, dest)) :
    ∃ v', Advanced x x' pid input.alertId v c r v' := by
  obtain ⟨-, hnew, known, hknown, hunsent⟩ := allowed_delivery hallowed hc
  have htried : x'.log = x.log.tried pid input.alertId dest out.takesEffect := by
    rw [hlog, DeliveryLog.record, hc]
  -- the attempt read that the channel was unsent, and has not reached it since
  have hfresh : (input.alertId, dest) ∉ x.log.received := by
    intro hmem
    rcases hv.known known hknown dest hmem with hs | hreached
    · rw [hunsent] at hs
      cases hs
    · exact hnew hreached
  have hanswers : ∀ v', v.Tries dest r.isOk v' → AttemptView.Answers input.alertId v c r v' := by
    intro v' htries
    unfold AttemptView.Answers
    split
    · cases hc
    · cases hc
    · cases hc
    · cases hc
    · refine ⟨fun hnone => absurd (hc.symm.trans hnone) nofun, fun id' dest' hc' => ?_⟩
      obtain ⟨-, rfl⟩ := Prod.mk.inj (Option.some.inj (hc.symm.trans hc'))
      exact htries
  simp only [reachesAllOrNone, hp, hc] at hall
  -- a delivery that took effect is logged as received, a refused one as missed
  cases out with
  | ok ch =>
    obtain ⟨⟨a, w⟩, -, he⟩ := Option.map_eq_some_iff.mp ha
    cases he
    have hlog' : x'.log = { x.log with
        received := (input.alertId, dest) :: x.log.received
        reached := Function.update x.log.reached pid (dest :: x.log.reached pid) } := htried
    refine ⟨v.reach dest, hanswers _ ⟨fun htelegram => ?_, rfl⟩, ⟨?_, ?_, fun hsome => ?_,
      fun known' hknown' dest' hdest' => ?_, fun channel hmarked => ?_⟩,
      fun _ hdest => List.mem_cons_of_mem dest hdest, fun id' dest' hmem => ?_, ?_,
      fun q hq => ?_⟩
    · rw [hv.missed]
      simpa [htelegram] using hall
    · simp [hlog', AttemptView.reach, hv.reached]
    · simp [hlog', AttemptView.reach, hv.missed]
    · obtain ⟨b, hb⟩ := hv.row hsome
      obtain ⟨b', hb', -⟩ := hsent _ b hb
      exact ⟨b', hb'⟩
    · rw [hlog'] at hdest'
      rcases List.mem_cons.mp hdest' with heq | hdest'
      · obtain ⟨-, rfl⟩ := Prod.mk.inj heq
        exact .inr List.mem_cons_self
      · exact (hv.known known' hknown' dest' hdest').imp_right
          (List.mem_cons_of_mem dest)
    · exact hsent.sentOn (hv.marked channel hmarked)
    · rw [hlog'] at hmem
      rcases List.mem_cons.mp hmem with heq | hmem
      · obtain ⟨rfl, rfl⟩ := Prod.mk.inj heq
        exact .inr ⟨rfl, List.mem_cons_self⟩
      · exact .inl hmem
    · rw [hlog']
      exact List.nodup_cons.mpr ⟨hfresh, hx.nodup⟩
    · simp [hlog', hq]
  | refused error =>
    have herror : r = .error error := by
      obtain ⟨-, ha⟩ := Option.ite_none_left_eq_some.mp ha
      exact (Prod.mk.inj (Option.some.inj ha)).1.symm
    subst herror
    have hlog' : x'.log = { x.log with
        missed := Function.update x.log.missed pid
          (x.log.missed pid || dest.channel = .telegram) } := htried
    refine ⟨v.miss dest, hanswers _ ⟨fun htelegram => ?_, rfl⟩, ⟨?_, ?_, fun hsome => ?_,
      fun known' hknown' dest' hdest' => ?_, fun channel hmarked => ?_⟩, fun _ hdest => hdest,
      fun id' dest' hmem => ?_, ?_, fun q hq => ?_⟩
    · rw [hv.reached]
      simpa [htelegram] using hall
    · simp [hlog', AttemptView.miss, hv.reached]
    · simp [hlog', AttemptView.miss, hv.missed]
    · obtain ⟨b, hb⟩ := hv.row hsome
      obtain ⟨b', hb', -⟩ := hsent _ b hb
      exact ⟨b', hb'⟩
    · rw [hlog'] at hdest'
      exact hv.known known' hknown' dest' hdest'
    · exact hsent.sentOn (hv.marked channel hmarked)
    · rw [hlog'] at hmem
      exact .inl hmem
    · rw [hlog']
      exact hx.nodup
    · simp [hlog', hq]
  | lost ch error => cases hall

/-- Any call. -/
theorem exists_advanced (hx : x.Once)
    (hp : x.system.procs pid = some ⟨.deliveryWorker jobId input, .call c k⟩)
    (ha : c.answer pid x.system.world out = some (r, x'.system.world))
    (hwrites : x.writesSucceed (.advance pid out) = true)
    (hall : x.reachesAllOrNone (.advance pid out) = true)
    (hlog : x'.log = x.log.record pid c out)
    (hv : x.Shows pid input.alertId v) (hallowed : v.Allowed input.alertId c)
    (hsent : x.system.world.KeepsSent x'.system.world) :
    ∃ v', Advanced x x' pid input.alertId v c r v' := by
  rcases hc : c.delivery? with _ | ⟨id', dest⟩
  · have hsame : x'.log = x.log := by rw [hlog, DeliveryLog.record, hc]
    obtain ⟨v', hanswers, hreached, hshows⟩ :=
      shows_of_none hx hp ha hwrites hsame hv hallowed hsent hc
    refine ⟨v', hanswers, hshows, fun dest hdest => hreached ▸ hdest,
      fun id' dest hmem => .inl ?_, ?_, fun q _ => ?_⟩
    · rwa [hsame] at hmem
    · rw [hsame]
      exact hx.nodup
    · rw [hsame]
      exact ⟨rfl, rfl⟩
  · obtain ⟨rfl, -⟩ := allowed_delivery hallowed hc
    exact advanced_of_delivery hx hp ha hall hlog hv hallowed hsent hc

/-- **The answer of a delivery worker's call.** -/
theorem once_of_advance (hx : x.Once)
    (hp : x.system.procs pid = some ⟨.deliveryWorker jobId input, .call c k⟩)
    (ha : c.answer pid x.system.world out = some (r, x'.system.world))
    (hlock : x.system.KeepsLocks (.advance pid out))
    (hchats : System.listsChatsOnce (.advance pid out) = true)
    (hwrites : x.writesSucceed (.advance pid out) = true)
    (hall : x.reachesAllOrNone (.advance pid out) = true)
    (h : System.step d x.system (.advance pid out) = some x'.system)
    (hprocs : x'.system.procs
      = System.setProc x.system.procs pid (some ⟨.deliveryWorker jobId input, k r⟩))
    (hlog : x'.log = x.log.record pid c out) : x'.Once := by
  obtain ⟨hroles, hnamed, hheld, hsettings⟩ := background_step hx hlock hchats h
  have hsent := System.keepsSent_step h
  obtain ⟨v, hv, hallowed, hnext⟩ := hx.attempts pid jobId input _ hp
  obtain ⟨v', hadv⟩ := exists_advanced hx hp ha hwrites hall hlog hv hallowed hsent
  have hself : x'.system.procs pid = some ⟨.deliveryWorker jobId input, k r⟩ := by
    rw [hprocs, System.setProc_self]
  have hother : ∀ q, q ≠ pid → x'.system.procs q = x.system.procs q := by
    intro q hq
    rw [hprocs, System.setProc_of_ne hq]
  refine ⟨hroles, hnamed, hheld, hsettings, hadv.nodup, fun id dest hmem => ?_,
    fun q jobId' input' prog hq => ?_, fun q hidle => ?_⟩
  · rcases hadv.received id dest hmem with hmem | ⟨rfl, hdest⟩
    · rcases hx.settled id dest hmem with hs | ⟨q, ⟨jobId', input', prog, hq, hid⟩, hdest⟩
      · exact .inl (hsent.sentOn hs)
      · by_cases hne : q = pid
        · subst hne
          obtain ⟨hrole, -⟩ := Process.mk.inj (Option.some.inj (hp.symm.trans hq))
          obtain ⟨rfl, rfl⟩ := Role.deliveryWorker.inj hrole
          refine .inr ⟨q, ⟨jobId, input, k r, hself, hid⟩, ?_⟩
          rw [← hadv.shows.reached]
          rw [← hv.reached] at hdest
          exact hadv.grows dest hdest
        · refine .inr ⟨q, ⟨jobId', input', prog, (hother q hne).trans hq, hid⟩, ?_⟩
          rwa [(hadv.others q hne).1]
    · refine .inr ⟨pid, ⟨jobId, input, k r, hself, rfl⟩, ?_⟩
      rwa [← hadv.shows.reached]
  · by_cases hne : q = pid
    · subst hne
      obtain ⟨hrole, rfl⟩ := Process.mk.inj (Option.some.inj (hself.symm.trans hq))
      obtain ⟨rfl, rfl⟩ := Role.deliveryWorker.inj hrole
      exact ⟨v', hadv.shows, hnext r v' hadv.answers⟩
    · rw [hother q hne] at hq
      obtain ⟨u, hu, hmeets⟩ := hx.attempts q jobId' input' prog hq
      refine ⟨u, hu.congr hsent (hadv.others q hne).1 (hadv.others q hne).2
        fun dest hdest => ?_, hmeets⟩
      rcases hadv.received _ dest hdest with hdest | ⟨hid, -⟩
      · exact hdest
      · exact absurd (hx.held.unique hq hp hid) hne
  · have hne : q ≠ pid := by
      rintro rfl
      exact hidle input.alertId ⟨jobId, input, k r, hself, rfl⟩
    rw [(hadv.others q hne).1, (hadv.others q hne).2]
    refine hx.idle q ?_
    rintro id ⟨jobId', input', prog, hq, hid⟩
    exact hidle id ⟨jobId', input', prog, (hother q hne).trans hq, hid⟩

/-- **The end of a delivery worker**: what it has reached is marked. -/
theorem once_of_end {prog : Program Unit} (hx : x.Once)
    (hp : x.system.procs pid = some ⟨.deliveryWorker jobId input, prog⟩)
    (hend : prog = .ret () ∨ ∃ e, prog = .throw e)
    (hlock : x.system.KeepsLocks (.finish pid))
    (hchats : System.listsChatsOnce (.finish pid) = true)
    (h : System.step d x.system (.finish pid) = some x'.system)
    (hprocs : x'.system.procs = System.setProc x.system.procs pid none)
    (hlog : x'.log = x.log.clear pid) : x'.Once := by
  obtain ⟨hroles, hnamed, hheld, hsettings⟩ := background_step hx hlock hchats h
  have hsent := System.keepsSent_step h
  obtain ⟨v, hv, hmeets⟩ := hx.attempts pid jobId input _ hp
  have hsettled : v.Settled := by
    rcases hend with rfl | ⟨e, rfl⟩
    · exact hmeets
    · exact hmeets
  have hother : ∀ q, q ≠ pid → x'.system.procs q = x.system.procs q := by
    intro q hq
    rw [hprocs, System.setProc_of_ne hq]
  have hreceived : x'.log.received = x.log.received := by
    rw [hlog]
    rfl
  have hlogs : ∀ q, q ≠ pid →
      x'.log.reached q = x.log.reached q ∧ x'.log.missed q = x.log.missed q := by
    intro q hq
    simp [hlog, DeliveryLog.clear, hq]
  have hgone : x'.system.procs pid = none := by rw [hprocs, System.setProc_self]
  refine ⟨hroles, hnamed, hheld, hsettings, hreceived ▸ hx.nodup, fun id dest hmem => ?_,
    fun q jobId' input' prog' hq => ?_, fun q hidle => ?_⟩
  · rw [hreceived] at hmem
    rcases hx.settled id dest hmem with hs | ⟨q, ⟨jobId', input', prog', hq, hid⟩, hdest⟩
    · exact .inl (hsent.sentOn hs)
    · by_cases hne : q = pid
      · subst hne
        obtain ⟨hrole, -⟩ := Process.mk.inj (Option.some.inj (hp.symm.trans hq))
        obtain ⟨rfl, rfl⟩ := Role.deliveryWorker.inj hrole
        rw [← hv.reached] at hdest
        exact .inl (hid ▸ hsent.sentOn (hv.marked _ (hsettled dest hdest)))
      · refine .inr ⟨q, ⟨jobId', input', prog', (hother q hne).trans hq, hid⟩, ?_⟩
        rwa [(hlogs q hne).1]
  · have hne : q ≠ pid := by
      rintro rfl
      rw [hgone] at hq
      cases hq
    rw [hother q hne] at hq
    obtain ⟨u, hu, hrest⟩ := hx.attempts q jobId' input' prog' hq
    refine ⟨u, hu.congr hsent (hlogs q hne).1 (hlogs q hne).2 fun dest hdest => ?_, hrest⟩
    rwa [hreceived] at hdest
  · by_cases hne : q = pid
    · subst hne
      simp [hlog, DeliveryLog.clear]
    · rw [(hlogs q hne).1, (hlogs q hne).2]
      refine hx.idle q ?_
      rintro id ⟨jobId', input', prog', hq, hid⟩
      exact hidle id ⟨jobId', input', prog', (hother q hne).trans hq, hid⟩

end Worker

/-! #### All steps -/

/-- A process that is no delivery worker delivers nothing. -/
theorem delivery_of_mayIssue {role : Role} {c : Call}
    (hrole : ∀ jobId input, role ≠ .deliveryWorker jobId input) (h : role.MayIssue c) :
    c.delivery? = none := by
  cases role with
  | deliveryWorker jobId input => exact absurd rfl (hrole jobId input)
  | _ =>
    unfold Call.delivery?
    split
    · exact h.elim
    · exact h.elim
    · exact h.elim
    · rfl

/-- A process that is no delivery worker starts, goes on, or leaves. -/
theorem once_of_setProc {a : Action} (hx : x.Once) (hlock : x.system.KeepsLocks a)
    (hchats : System.listsChatsOnce a = true) (h : System.step d x.system a = some x'.system)
    (hlog : x'.log = x.log) {p : Option Process}
    (hprocs : x'.system.procs = System.setProc x.system.procs pid p)
    (hbefore : ∀ jobId input prog,
      x.system.procs pid ≠ some ⟨.deliveryWorker jobId input, prog⟩)
    (hafter : ∀ jobId input prog, p = some ⟨.deliveryWorker jobId input, prog⟩ →
      x.system.procs pid = none ∧ prog = ProcessAlertDelivery.execute d.config d.rt input) :
    x'.Once := by
  refine once_of_others hx hlock hchats h hlog (fun q jobId input prog hq => ?_)
    fun q jobId input prog hq => ?_
  · have hne : q ≠ pid := by
      rintro rfl
      exact hbefore jobId input prog hq
    rw [hprocs, System.setProc_of_ne hne]
    exact hq
  · by_cases hne : q = pid
    · subst hne
      rw [hprocs, System.setProc_self] at hq
      exact .inr (hafter jobId input prog hq)
    · rw [hprocs, System.setProc_of_ne hne] at hq
      exact .inl hq

/-- The end of a process that is no delivery worker. -/
theorem clear_of_idle (hx : x.Once) (hidle : ∀ id, ¬ x.Delivers pid id) :
    x.log.clear pid = x.log := by
  obtain ⟨hreached, hmissed⟩ := hx.idle pid hidle
  unfold DeliveryLog.clear
  rw [← hreached, ← hmissed, Function.update_eq_self, Function.update_eq_self]

/-- The answer of a call. -/
theorem once_advance {out : Outcome} {s' : System} (hx : x.Once)
    (hlock : x.system.KeepsLocks (.advance pid out))
    (hchats : System.listsChatsOnce (.advance pid out) = true)
    (hwrites : x.writesSucceed (.advance pid out) = true)
    (hall : x.reachesAllOrNone (.advance pid out) = true)
    (hs : System.step d x.system (.advance pid out) = some s') :
    Once ⟨s', x.log.after x.system (.advance pid out)⟩ := by
  obtain ⟨role, c, k, r, w, hp, ha, rfl⟩ := System.advance_eq_some hs
  have hlog := after_advance out hp
  by_cases hrole : ∃ jobId input, role = .deliveryWorker jobId input
  · obtain ⟨jobId, input, rfl⟩ := hrole
    exact once_of_advance hx hp ha hlock hchats hwrites hall hs rfl hlog
  · have hno : ∀ jobId input, role ≠ .deliveryWorker jobId input :=
      fun jobId input h => hrole ⟨jobId, input, h⟩
    have hnone := delivery_of_mayIssue hno (issues_call.mp (hx.roles pid _ hp)).1
    refine once_of_setProc hx hlock hchats hs ?_ rfl (fun jobId input prog hp' => ?_)
      fun jobId input prog hp' => ?_
    · rw [hlog, DeliveryLog.record, hnone]
    · rw [hp] at hp'
      exact hno jobId input (Process.mk.inj (Option.some.inj hp')).1
    · exact absurd (Process.mk.inj (Option.some.inj hp')).1 (hno jobId input)

/-- The end of a process. -/
theorem once_finish {s' : System} (hx : x.Once) (hlock : x.system.KeepsLocks (.finish pid))
    (hchats : System.listsChatsOnce (.finish pid) = true)
    (hs : System.step d x.system (.finish pid) = some s') :
    Once ⟨s', x.log.after x.system (.finish pid)⟩ := by
  obtain ⟨role, prog, hp, hend⟩ := System.finish_eq_some hs
  have hprocs : s'.procs = System.setProc x.system.procs pid none := by
    rcases hend with ⟨-, rfl⟩ | ⟨e, -, rfl⟩ <;> rfl
  by_cases hrole : ∃ jobId input, role = .deliveryWorker jobId input
  · obtain ⟨jobId, input, rfl⟩ := hrole
    have hdone : prog = .ret () ∨ ∃ e, prog = .throw e :=
      hend.imp (fun h => h.1) fun ⟨e, he, _⟩ => ⟨e, he⟩
    exact once_of_end hx hp hdone hlock hchats hs hprocs rfl
  · have hbefore : ∀ jobId input prog',
        x.system.procs pid ≠ some ⟨.deliveryWorker jobId input, prog'⟩ := by
      intro jobId input prog' hp'
      rw [hp] at hp'
      exact hrole ⟨jobId, input, (Process.mk.inj (Option.some.inj hp')).1⟩
    refine once_of_setProc hx hlock hchats hs (clear_of_idle hx ?_) hprocs hbefore nofun
    rintro id ⟨jobId, input, prog', hp', -⟩
    exact hbefore jobId input prog' hp'

/-- **What a step keeps whose attempt reaches all of its chats or none.** -/
theorem once_step {a : Action} (hx : x.Once) (hlock : x.system.KeepsLocks a)
    (hchats : System.listsChatsOnce a = true) (hwrites : x.writesSucceed a = true)
    (hall : x.reachesAllOrNone a = true) (h : step d x a = some x') : x'.Once := by
  obtain ⟨s', hs, rfl⟩ := Option.map_eq_some_iff.mp h
  have hstay : s'.procs = x.system.procs → x.log.after x.system a = x.log →
      Once ⟨s', x.log.after x.system a⟩ := by
    intro hprocs hlog
    refine once_of_others hx hlock hchats hs hlog (fun q _ _ _ hq => ?_) fun q _ _ _ hq => .inl ?_
    · exact hprocs ▸ hq
    · exact hprocs ▸ hq
  have hlaunch : ∀ pid role prog, x.system.procs pid = none →
      s'.procs = System.setProc x.system.procs pid (some ⟨role, prog⟩) →
      x.log.after x.system a = x.log →
      (∀ jobId input, role = .deliveryWorker jobId input →
        prog = ProcessAlertDelivery.execute d.config d.rt input) →
      Once ⟨s', x.log.after x.system a⟩ := by
    intro pid role prog hfree hprocs hlog hprog
    refine once_of_setProc hx hlock hchats hs hlog hprocs (fun _ _ _ hp => ?_)
      fun jobId input prog' hp => ⟨hfree, ?_⟩
    · rw [hfree] at hp
      cases hp
    · obtain ⟨hrole, rfl⟩ := Process.mk.inj (Option.some.inj hp)
      exact hprog jobId input hrole
  cases a with
  | advance pid out => exact once_advance hx hlock hchats hwrites hall hs
  | finish pid => exact once_finish hx hlock hchats hs
  | crash pid => cases hwrites
  | tick pid =>
    obtain ⟨hfree, rfl⟩ := System.start_eq_some hs
    exact hlaunch pid _ _ hfree rfl rfl nofun
  | request pid r =>
    obtain ⟨hfree, rfl⟩ := System.start_eq_some hs
    exact hlaunch pid _ _ hfree rfl rfl nofun
  | takeFetch pid jobId =>
    obtain ⟨job, q, -, hfree, rfl⟩ := System.takeFetch_eq_some hs
    exact hlaunch pid _ _ hfree rfl rfl nofun
  | takeDelivery pid jobId =>
    obtain ⟨job, q, -, hfree, rfl⟩ := System.takeDelivery_eq_some hs
    refine hlaunch pid _ _ hfree rfl rfl fun jobId' input hrole => ?_
    obtain ⟨-, rfl⟩ := Role.deliveryWorker.inj hrole
    rfl
  | elapse ms =>
    obtain rfl := Option.some.inj hs
    exact hstay rfl rfl
  | saveSettings row =>
    obtain rfl := Option.some.inj hs
    exact hstay rfl rfl
  | promoteFetch jobId =>
    obtain ⟨q, -, rfl⟩ := Option.map_eq_some_iff.mp hs
    exact hstay rfl rfl
  | promoteDelivery jobId =>
    obtain ⟨q, -, rfl⟩ := Option.map_eq_some_iff.mp hs
    exact hstay rfl rfl
  | stallFetch jobId =>
    obtain ⟨q, -, rfl⟩ := Option.map_eq_some_iff.mp hs
    exact hstay rfl rfl
  | stallDelivery jobId =>
    obtain ⟨q, -, rfl⟩ := Option.map_eq_some_iff.mp hs
    exact hstay rfl rfl

/-! ### Runs -/

/-- A deployment that sends Telegram messages, and uses no other channel. -/
def chatDeployment : Deployment :=
  { System.webhookDeployment with
    config :=
      { System.webhookDeployment.config with
        webhookNotifierUrl := none
        telegramBotToken := some "123:shared" } }

/-- The tenant has two chats. -/
def chatRow : TenantSettingsRow :=
  { tenantId := "t"
    webhookNotifierUrl := none
    recipientEmails := []
    telegramChatIds := ["100", "200"]
    telegramDeliveryMode := .instant
    telegramBotTokenCiphertext := none
    telegramBotTokenIv := none
    telegramBotTokenTag := none
    telegramBotTokenKeyVersion := none }

/-- An alert of the tenant is handed to delivery, and a worker takes its job. -/
def takeChatAlert : List Action :=
  .saveSettings chatRow :: System.ingestArticle ++ [.takeDelivery 3 "alert-1"]

/-- It reaches both chats. -/
def reachBoth : List Action := takeChatAlert ++ System.proceed 3 7

/-- It reaches the first chat, but not the second, and the job is retried. -/
def retryAfterMiss : List Action :=
  takeChatAlert ++ System.proceed 3 3 ++
    .advance 3 (.refused "telegram_delivery_failed_403") :: System.proceed 3 1 ++
    [.finish 3, .promoteDelivery "alert-1", .takeDelivery 4 "alert-1"] ++ System.proceed 4 3

end Traced

end Feedpulse
