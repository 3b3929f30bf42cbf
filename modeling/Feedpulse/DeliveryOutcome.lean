import Feedpulse.DeliveryAttempt
import Feedpulse.Footprints
import Feedpulse.Frames

/-!
# What one attempt leaves behind

The attempt of the previous file, executed on the shared state. `settles_iff` says for
which inputs a returning attempt may leave its alert neither settled nor waiting in a
digest: a channel is configured whose transport is switched off. `fullyDelivered_disabled`
says that an attempt that finds nothing left to deliver marks the alert disabled, and
`disabled_after_crash` is a run in which that happens to an alert that was delivered.
-/

namespace Feedpulse

open Prog

/-! ## Executing a program on the shared state -/

/-- The calls of the process `pid` are answered one after the other, nobody else acting in
between; any of them may fail. -/
def Executes (pid : Nat) (w : World) (c : Call) (r : Except String c.Reply) (w' : World) : Prop :=
  ∃ out, c.answer pid w out = some (r, w')

/-- The row of an alert. -/
def World.alertRow (w : World) (id : Nat) : Option AlertRow := Table.lookup AlertRow.id id w.alerts

theorem World.id_of_alertRow {w : World} {id : Nat} {a : AlertRow} (h : w.alertRow id = some a) :
    a.id = id := Table.key_of_lookup h

/-- A write to an alert changes its row. -/
@[simp] theorem World.alertRow_writeAlert (w : World) (id : Nat) (s : AlertWrite) :
    (w.writeAlert id s).alertRow id = (w.alertRow id).map (s.apply w.now) := by
  unfold World.alertRow World.writeAlert
  rw [Table.lookup_updateWhere fun a => AlertWrite.apply_id ..]
  rcases h : Table.lookup AlertRow.id id w.alerts with _ | a
  · rfl
  · have hid : a.id = id := Table.key_of_lookup h
    simp [hid]

/-- The record that is read is the row up to its rules. -/
theorem World.alert_of_findAlertForWorker {w : World} {id : Nat} {a : AlertRow}
    {record : AlertNotificationRecord} (ha : w.alertRow id = some a)
    (h : w.findAlertForWorker id = some record) :
    ∃ rules, record.alert = { a with matchedRules := rules } := by
  change (w.alertRow id).bind w.alertDetail = some record at h
  rw [ha] at h
  change w.alertDetail a = some record at h
  unfold World.alertDetail at h
  split at h
  · obtain rfl := Option.some.inj h
    unfold World.mapAlert
    dsimp only
    split
    · exact ⟨[a.ruleId], rfl⟩
    · exact ⟨a.matchedRules, rfl⟩
  · cases h

namespace ProcessAlertDelivery

variable {config : AppConfig} {rt : Runtime} {jobId : String} {input : DeliveryInput}

/-- The settings a process reads for a tenant now leave no channel out. -/
def ReadsUnstuck (config : AppConfig) (rt : Runtime) (a : AlertRow) (w : World) (c : Call) :
    Prop :=
  ∀ tenantId, c = .getSettings tenantId →
    ¬ LeavesOut config rt a (Settings.getByTenantId tenantId w.settings)

/-- A failure that an attempt without a retry cannot make good: of reading the alert or the
settings, or of a write that gives the alert up. -/
def Misses (w : World) (out : Outcome) : Call → Bool
  | .alert (.findByIdForWorker id) => !out.arrives || (w.findAlertForWorker id).isNone
  | .getSettings _ => !out.arrives
  | .alert (.write _ s) => GivesUp s && !out.takesEffect
  | _ => false

/-- Of the calls of a delivery worker, only writes change the rows of alerts. -/
theorem alertRow_of_effect {pid : Nat} {w w' : World} {c : Call} (h : CallEffect pid w c w')
    (hmay : (Role.deliveryWorker jobId input).MayIssue c)
    (hw : ∀ id s, c ≠ .alert (.write id s)) (id : Nat) : w'.alertRow id = w.alertRow id := by
  cases h with
  | commit => exact hmay.elim
  | converge c p hc => rcases hc with rfl | ⟨alertId, rfl⟩ <;> exact hmay.elim
  | writeAlert id s => exact absurd rfl (hw id s)
  | _ => rfl

/-- **The shared state follows the row**: an answer to the worker is an answer in the sense
of `Answered`, and what it leaves is the row of that answer. -/
theorem answered_of_answer {pid : Nat} {w w' : World} {out : Outcome} {c : Call}
    {r : Except String c.Reply} {a : AlertRow} {clean : Bool}
    (ha : w.alertRow input.alertId = some a)
    (hmay : (Role.deliveryWorker jobId input).MayIssue c)
    (hstuck : ReadsUnstuck config rt a w c) (h : c.answer pid w out = some (r, w')) :
    ∃ x', Answered config rt ⟨a, clean⟩ c r x' ∧ w'.alertRow input.alertId = some x'.row ∧
      (Misses w out c = false → x'.clean = clean) := by
  have hd := Drifts.refl a
  have hserve := Call.answer_cases h
  -- a call that does not write leaves the row alone, whatever its answer
  have hrow : (∀ id s, c ≠ .alert (.write id s)) → w'.alertRow input.alertId = some a := by
    intro hw
    rcases hserve with ⟨e, -, -, rfl, -⟩ | ⟨ch, x, hs, -⟩
    · exact ha
    · rw [alertRow_of_effect (serve_effect hs) hmay hw, ha]
  by_cases hwrite : ∃ id s, c = .alert (.write id s)
  · obtain ⟨id, s, rfl⟩ := hwrite
    obtain rfl : id = input.alertId := hmay.1
    have hwritten : (w.writeAlert input.alertId s).alertRow input.alertId
        = some (s.apply w.now a) := by
      rw [World.alertRow_writeAlert, ha]
      rfl
    rcases hserve with ⟨e, rfl, rfl, rfl, -⟩ | ⟨ch, x, hs, hr⟩
    · refine ⟨⟨a, clean && !GivesUp s⟩, ⟨a, hd, .inl rfl⟩, ha, fun hmisses => ?_⟩
      have hkeep : GivesUp s = false := by simpa [Misses, Outcome.takesEffect] using hmisses
      simp [hkeep]
    · obtain rfl : w.writeAlert input.alertId s = w' := congrArg Prod.snd (Option.some.inj hs)
      rcases hr with ⟨rfl, -⟩ | ⟨e, rfl, -, -⟩
      · exact ⟨⟨s.apply w.now a, clean⟩, ⟨a, hd, w.now, rfl⟩, hwritten, fun _ => rfl⟩
      · exact ⟨⟨s.apply w.now a, clean⟩, ⟨a, hd, .inr ⟨w.now, rfl⟩⟩, hwritten, fun _ => rfl⟩
  · have hw' := hrow fun id s hc => hwrite ⟨id, s, hc⟩
    cases c with
    | alert c =>
      cases c with
      | findByIdForWorker id =>
        obtain rfl : id = input.alertId := hmay
        rcases hserve with ⟨e, rfl, rfl, -, -⟩ | ⟨ch, x, hs, hr⟩
        · exact ⟨⟨a, false⟩, ⟨a, hd, rfl⟩, hw', fun h => by simp [Misses, Outcome.arrives] at h⟩
        · obtain rfl : w.findAlertForWorker input.alertId = x :=
            congrArg Prod.fst (Option.some.inj hs)
          rcases hr with ⟨rfl, rfl⟩ | ⟨e, rfl, rfl, -⟩
          · rcases hfind : w.findAlertForWorker input.alertId with _ | record
            · exact ⟨⟨a, false⟩, ⟨a, hd, rfl⟩, hw', fun h => by simp [Misses, hfind] at h⟩
            · exact ⟨⟨a, clean⟩, ⟨a, hd, rfl, World.alert_of_findAlertForWorker ha hfind⟩, hw',
                fun _ => rfl⟩
          · exact ⟨⟨a, false⟩, ⟨a, hd, rfl⟩, hw', fun h => by simp [Misses, Outcome.arrives] at h⟩
      | checkAllChannelsDelivered id cfg =>
        obtain rfl : id = input.alertId := hmay
        rcases hserve with ⟨e, -, rfl, -, -⟩ | ⟨ch, x, hs, hr⟩
        · exact ⟨⟨a, clean⟩, ⟨a, hd, rfl⟩, hw', fun _ => rfl⟩
        · obtain rfl : w.checkAllChannelsDelivered input.alertId cfg = x :=
            congrArg Prod.fst (Option.some.inj hs)
          rcases hr with ⟨rfl, -⟩ | ⟨e, rfl, -, -⟩
          · refine ⟨⟨a, clean⟩, ⟨a, hd, rfl, ?_⟩, hw', fun _ => rfl⟩
            unfold World.checkAllChannelsDelivered
            change Table.lookup AlertRow.id input.alertId w.alerts = some a at ha
            rw [ha]
            rfl
          · exact ⟨⟨a, clean⟩, ⟨a, hd, rfl⟩, hw', fun _ => rfl⟩
      | insertDigestItem => exact ⟨⟨a, clean⟩, ⟨a, hd, rfl⟩, hw', fun _ => rfl⟩
      | write id s => exact absurd ⟨id, s, rfl⟩ hwrite
      | _ => exact hmay.elim
    | getSettings tenantId =>
      rcases hserve with ⟨e, rfl, rfl, -, -⟩ | ⟨ch, x, hs, hr⟩
      · exact ⟨⟨a, false⟩, ⟨a, hd, rfl⟩, hw', fun h => by simp [Misses, Outcome.arrives] at h⟩
      · obtain rfl : Settings.getByTenantId tenantId w.settings = x :=
          congrArg Prod.fst (Option.some.inj hs)
        rcases hr with ⟨rfl, -⟩ | ⟨e, rfl, rfl, -⟩
        · exact ⟨⟨a, clean⟩, ⟨a, hd, rfl, hstuck tenantId rfl⟩, hw', fun _ => rfl⟩
        · exact ⟨⟨a, false⟩, ⟨a, hd, rfl⟩, hw', fun h => by simp [Misses, Outcome.arrives] at h⟩
    | net c => exact ⟨⟨a, clean⟩, ⟨a, hd, rfl⟩, hw', fun _ => rfl⟩
    | redis c => exact ⟨⟨a, clean⟩, ⟨a, hd, rfl⟩, hw', fun _ => rfl⟩
    | clock => exact ⟨⟨a, clean⟩, ⟨a, hd, rfl⟩, hw', fun _ => rfl⟩
    | _ => exact hmay.elim

/-! ## Reading the alert and the settings -/

/-- The effect of an answer, given or lost. -/
theorem Executes.effect {pid : Nat} {w w' : World} {c : Call} {r : Except String c.Reply}
    (h : Executes pid w c r w') : CallEffect pid w c w' := by
  obtain ⟨out, h⟩ := h
  rcases Call.answer_eq_some h with ⟨e, -, rfl, -⟩ | ⟨ch, x, hs, -⟩
  · exact .none c
  · exact serve_effect hs

/-- An attempt that returns has read the alert and its settings, and goes on with them in
the state they were read in. -/
theorem execute_meets {pid : Nat} {w : World} {allowed : World → Call → Prop}
    {post : Except String Unit → World → Prop}
    (hread : ∀ w, (∀ id, allowed w (.alert (.findByIdForWorker id))) ∧
      ∀ tenantId, allowed w (.getSettings tenantId))
    (herror : ∀ e w, post (.error e) w)
    (h : ∀ record, w.findAlertForWorker input.alertId = some record →
      Meets allowed (Executes pid)
        (process config rt input record
          (Settings.getByTenantId record.alert.tenantId w.settings)) post w) :
    Meets allowed (Executes pid) (execute config rt input) post w := by
  refine meets_bind.mpr (meets_invoke.mpr ⟨(hread w).1 _, fun r w' hr => ?_⟩)
  obtain ⟨out, hr⟩ := hr
  rcases Call.answer_eq_some hr with ⟨e, rfl, -, -⟩ | ⟨ch, x, hs, rfl | ⟨e, rfl, -⟩⟩
  · exact herror e w'
  · obtain ⟨rfl, rfl⟩ := Prod.mk.inj (Option.some.inj hs)
    rcases hfind : w.findAlertForWorker input.alertId with _ | record
    · exact herror _ w
    · refine meets_bind.mpr (meets_invoke.mpr ⟨(hread w).2 _, fun r w' hr => ?_⟩)
      obtain ⟨out, hr⟩ := hr
      rcases Call.answer_eq_some hr with ⟨e, rfl, -, -⟩ | ⟨ch, x, hs, rfl | ⟨e, rfl, -⟩⟩
      · exact herror e w'
      · obtain ⟨rfl, rfl⟩ := Prod.mk.inj (Option.some.inj hs)
        exact h record hfind
      · exact herror e w'
  · exact herror e w'

/-- Conversely, what every attempt meets, it meets after the reads. -/
theorem process_of_execute_meets {pid : Nat} {w : World} {allowed : World → Call → Prop}
    {post : Except String Unit → World → Prop} {record : AlertNotificationRecord}
    (hfind : w.findAlertForWorker input.alertId = some record)
    (h : Meets allowed (Executes pid) (execute config rt input) post w) :
    Meets allowed (Executes pid)
      (process config rt input record (Settings.getByTenantId record.alert.tenantId w.settings))
      post w := by
  have hread := (meets_invoke.mp (meets_bind.mp h)).2 (.ok (some record)) w ⟨.ok .none, by
    change some (Except.ok (w.findAlertForWorker input.alertId), w) = _
    rw [hfind]⟩
  exact (meets_invoke.mp (meets_bind.mp hread)).2 (.ok _) w ⟨.ok .none, rfl⟩

/-- The same for some execution: the reads can succeed. -/
theorem execute_can {pid : Nat} {w : World} {post : Except String Unit → World → Prop}
    {record : AlertNotificationRecord} (hfind : w.findAlertForWorker input.alertId = some record)
    (h : Can (Executes pid)
      (process config rt input record (Settings.getByTenantId record.alert.tenantId w.settings))
      post w) :
    Can (Executes pid) (execute config rt input) post w := by
  refine can_bind.mpr (can_invoke.mpr ⟨.ok (some record), w, ⟨.ok .none, ?_⟩, ?_⟩)
  · change some (Except.ok (w.findAlertForWorker input.alertId), w) = _
    rw [hfind]
  · exact can_bind.mpr (can_invoke.mpr ⟨.ok _, w, ⟨.ok .none, rfl⟩, h⟩)

/-- A write that succeeds. -/
theorem write_can {pid : Nat} {w : World} {id : Nat} {s : AlertWrite}
    {post : Except String Unit → World → Prop} (h : post (.ok ()) (w.writeAlert id s)) :
    Can (Executes pid) (AlertsRepository.write id s) post w :=
  can_bind.mpr (can_invoke.mpr ⟨.ok _, _, ⟨.ok .none, rfl⟩, h⟩)

/-! ## Nothing left to deliver -/

/-- At least one channel is configured, and every configured channel is delivered. -/
def FullyDelivered (config : AppConfig) (rt : Runtime) (a : AlertRow)
    (settings : Option TenantSettings) : Prop :=
  let p := plan config rt a settings
  (Text.truthy p.notifierUrl = true ∨ p.recipientEmails ≠ [] ∨ p.telegramChatIds ≠ []) ∧
    (Text.truthy p.notifierUrl = true → a.webhookDeliveryStatus = .sent) ∧
    (p.recipientEmails ≠ [] → a.emailDeliveryStatus = .sent) ∧
    (p.telegramChatIds ≠ [] → a.telegramDeliveryStatus = .sent)

instance (a : AlertRow) (settings : Option TenantSettings) :
    Decidable (FullyDelivered config rt a settings) :=
  inferInstanceAs (Decidable (_ ∧ _ ∧ _ ∧ _))

/-- The alert is marked sent. -/
def MarkedSent (w : World) (id : Nat) : Prop :=
  ∃ a ∈ w.alertRow id, a.sent = true ∧ a.deliveryStatus = .sent

instance (w : World) (id : Nat) : Decidable (MarkedSent w id) :=
  inferInstanceAs (Decidable (∃ a ∈ w.alertRow id, _))

/-- With nothing left to deliver, no channel is attempted and no digest is queued. -/
theorem attempts_eq_false {a : AlertRow} {settings : Option TenantSettings}
    (h : FullyDelivered config rt a settings) :
    (plan config rt a settings).attempts = false := by
  obtain ⟨-, hwebhook, hemail, htelegram⟩ := h
  simp only [plan] at hwebhook hemail htelegram
  simp only [DeliveryPlan.attempts, plan, Bool.or_eq_false_iff, Bool.and_eq_false_imp,
    Bool.and_eq_true, decide_eq_true_eq, decide_eq_false_iff_not, Bool.not_eq_true',
    List.isEmpty_eq_false_iff, not_not]
  exact ⟨⟨⟨hwebhook, fun h => hemail h.1⟩, fun h => htelegram h.1.1⟩, fun h => htelegram h.1.1⟩

/-- An attempt that attempts nothing marks the alert disabled. -/
theorem process_of_not_attempts {record : AlertNotificationRecord}
    {settings : Option TenantSettings}
    (h : (plan config rt record.alert settings).attempts = false) :
    process config rt input record settings
      = AlertsRepository.markDeliveryDisabled input.alertId := by
  unfold process
  dsimp only
  rw [h]
  rfl

/-- **An attempt that finds every configured channel delivered** never ends with the alert
marked sent: it can return, and whenever it does, the alert is disabled. -/
theorem fullyDelivered_disabled (pid : Nat) (w : World) (record : AlertNotificationRecord)
    (hfind : w.findAlertForWorker input.alertId = some record)
    (h : FullyDelivered config rt record.alert
      (Settings.getByTenantId record.alert.tenantId w.settings)) :
    Can (Executes pid) (execute config rt input) (fun r _ => r = .ok ()) w ∧
      Meets (fun _ _ => True) (Executes pid) (execute config rt input)
        (fun r w' => r = .ok () → ¬ MarkedSent w' input.alertId) w := by
  have hprocess : process config rt input record _
      = AlertsRepository.markDeliveryDisabled input.alertId :=
    process_of_not_attempts (attempts_eq_false h)
  constructor
  · refine execute_can hfind ?_
    rw [hprocess]
    exact write_can rfl
  · refine execute_meets (fun _ => ⟨fun _ => trivial, fun _ => trivial⟩)
      (fun e w h => by cases h) fun record' hfind' => ?_
    obtain rfl := Option.some.inj (hfind.symm.trans hfind')
    rw [hprocess]
    refine meets_bind.mpr (meets_invoke.mpr ⟨trivial, fun r w' hr => ?_⟩)
    obtain ⟨out, hr⟩ := hr
    rcases Call.answer_eq_some hr with ⟨e, rfl, -, -⟩ | ⟨ch, x, hs, rfl | ⟨e, rfl, -⟩⟩
    · exact fun h => by cases h
    · obtain rfl : w.writeAlert input.alertId .markDeliveryDisabled = w' :=
        congrArg Prod.snd (Option.some.inj hs)
      rintro - ⟨b, hb, -, hstatus⟩
      rw [World.alertRow_writeAlert] at hb
      obtain ⟨a, ha, rfl⟩ := Option.map_eq_some_iff.mp hb
      cases hstatus
    · exact fun h => by cases h

open Feedpulse.System Transition

/-- The worker dies after it has marked the only channel; the job is handed out again. -/
def crashAfterMark : List Action :=
  ingestArticle ++ .takeDelivery 3 "alert-1" :: proceed 3 4 ++
    [.crash 3, .stallDelivery "alert-1"]

/-- The attempt that follows finds every configured channel delivered. -/
theorem fullyDelivered_afterCrash :
    ∃ t record, run (step webhookDeployment) oneFeed crashAfterMark = some t ∧
      t.world.findAlertForWorker 1 = some record ∧
      Can (Executes 4) (execute webhookDeployment.config webhookDeployment.rt ⟨1, 1, true⟩)
        (fun r _ => r = .ok ()) t.world ∧
      Meets (fun _ _ => True) (Executes 4)
        (execute webhookDeployment.config webhookDeployment.rt ⟨1, 1, true⟩)
        (fun r w' => r = .ok () → ¬ MarkedSent w' 1) t.world := by
  have hrun : ((run (step webhookDeployment) oneFeed crashAfterMark).bind fun t =>
      (t.world.findAlertForWorker 1).map fun record =>
        decide (FullyDelivered webhookDeployment.config webhookDeployment.rt record.alert
          (Settings.getByTenantId record.alert.tenantId t.world.settings)))
      = some true := by decide
  obtain ⟨t, ht, hrun⟩ := Option.bind_eq_some_iff.mp hrun
  obtain ⟨record, hfind, hfull⟩ := Option.map_eq_some_iff.mp hrun
  exact ⟨t, record, ht, hfind,
    fullyDelivered_disabled 4 t.world record hfind (of_decide_eq_true hfull)⟩

/-- A second worker executes the job to its end. -/
def executeAgain : List Action := .takeDelivery 4 "alert-1" :: proceed 4 3 ++ [.finish 4]

/-- **An alert that was delivered ends up disabled** if the worker dies between marking the
channel and marking the alert: the second execution finds nothing to deliver, succeeds, and
the alert is never marked sent. -/
theorem disabled_after_crash :
    oneFeed.Init ∧ ∃ t t', run (step webhookDeployment) oneFeed crashAfterMark = some t ∧
      (∃ a ∈ t.world.alertRow 1, FullyDelivered webhookDeployment.config webhookDeployment.rt a
        (Settings.getByTenantId a.tenantId t.world.settings)) ∧
      run (step webhookDeployment) t executeAgain = some t' ∧
      t'.world.alertQueue.getJob "alert-1" = none ∧ ¬ MarkedSent t'.world 1 := by
  have hrun : ((run (step webhookDeployment) oneFeed crashAfterMark).bind fun t =>
      (run (step webhookDeployment) t executeAgain).map fun t' =>
        (decide (∃ a ∈ t.world.alertRow 1, FullyDelivered webhookDeployment.config
            webhookDeployment.rt a (Settings.getByTenantId a.tenantId t.world.settings)),
          (t'.world.alertQueue.getJob "alert-1").isNone, decide (MarkedSent t'.world 1)))
      = some (true, true, false) := by decide
  obtain ⟨t, ht, hrun⟩ := Option.bind_eq_some_iff.mp hrun
  obtain ⟨t', ht', hrun⟩ := Option.map_eq_some_iff.mp hrun
  simp only [Prod.mk.injEq, decide_eq_true_eq, decide_eq_false_iff_not,
    Option.isNone_iff_eq_none] at hrun
  exact ⟨oneFeed_init, t, t', ht, hrun.1, ht', hrun.2.1, hrun.2.2⟩

/-! ## A channel that is left out -/

/-- After a returning attempt with this plan, some digest item of the alert is unsent. -/
def WaitsInDigest (w : World) (id : Nat) (p : DeliveryPlan) : Prop :=
  World.hasUnsentItem w.digestItems id = true ∨
    (p.shouldQueueTelegramDigest = true ∧
      ∃ chatId ∈ p.telegramChatIds, ∀ i ∈ w.digestItems, ¬ (i.alertId = id ∧ i.chatId = chatId))

/-- The alert is settled, or waiting in a digest. -/
def SettledOrWaiting (w : World) (id : Nat) : Prop :=
  ∀ a, w.alertRow id = some a →
    a.deliveryStatus.Settled ∨ World.hasUnsentItem w.digestItems id = true

/-- The inputs at which a returning attempt may leave the alert unsettled: it attempts
something but leaves a required channel out, the queue has attempts left or the alert was not
settled before, and no digest takes the alert up. -/
def LeavesUnsettled (config : AppConfig) (rt : Runtime) (w : World) (input : DeliveryInput)
    (record : AlertNotificationRecord) : Prop :=
  let settings := Settings.getByTenantId record.alert.tenantId w.settings
  let p := plan config rt record.alert settings
  p.attempts = true ∧ Stuck config rt record.alert settings ∧
    (input.willRetry = true ∨ ¬ record.alert.deliveryStatus.Settled) ∧
    ¬ WaitsInDigest w input.alertId p

/-- An unsent digest item stays unsent during an attempt. -/
theorem hasUnsentItem_of_effect {pid : Nat} {w w' : World} {c : Call} {id : Nat}
    (h : CallEffect pid w c w') (hd : Delivers AnyMessage input c)
    (hu : World.hasUnsentItem w.digestItems id = true) :
    World.hasUnsentItem w'.digestItems id = true := by
  cases h with
  | insertDigestItem tenantId alertId chatId scheduledFor items next hi =>
    have hitems : items
        = (w.insertDigestItem tenantId alertId chatId scheduledFor).digestItems :=
      congrArg World.digestItems hi
    dsimp only
    rw [hitems]
    unfold World.insertDigestItem
    split
    · exact hu
    · simp only [World.hasUnsentItem, List.any_append, Bool.or_eq_true] at hu ⊢
      exact .inl hu
  | commit => exact hd.elim
  | markDigestItemSent id => exact hd.elim
  | _ => exact hu

theorem unsent_meets {pid : Nat} {w : World} {α : Type} {p : Program α}
    (hp : Issues (Delivers AnyMessage input) p)
    (hu : World.hasUnsentItem w.digestItems input.alertId = true) :
    Meets (fun _ _ => True) (Executes pid) p
      (fun _ w' => World.hasUnsentItem w'.digestItems input.alertId = true) w :=
  hp.meets (fun _ _ _ _ hd hu hr => hasUnsentItem_of_effect (Executes.effect hr) hd hu) hu

/-- The chat has no item of the alert yet, or some item of the alert is unsent. -/
def ItemPending (id : Nat) (chatId : String) (w : World) : Prop :=
  (∀ i ∈ w.digestItems, ¬ (i.alertId = id ∧ i.chatId = chatId)) ∨
    World.hasUnsentItem w.digestItems id = true

/-- Inserting an item for the alert leaves an item unsent, if there was one or the chat had
none. -/
theorem hasUnsentItem_insertDigestItem {w : World} {id : Nat} {tenantId chatId : String}
    {scheduledFor : Nat} (h : ItemPending id chatId w) :
    World.hasUnsentItem (w.insertDigestItem tenantId id chatId scheduledFor).digestItems id
      = true := by
  unfold World.insertDigestItem
  split
  · rename_i hconflict
    rcases h with h | h
    · simp only [List.any_eq_true, Bool.and_eq_true, decide_eq_true_eq] at hconflict
      obtain ⟨i, hi, hid⟩ := hconflict
      exact absurd hid (h i hi)
    · exact h
  · simp [World.hasUnsentItem]

/-- During an attempt the chat gets an unsent item, or keeps having none. -/
theorem itemPending_of_effect {pid : Nat} {w w' : World} {c : Call} {chatId : String}
    (h : CallEffect pid w c w') (hd : Delivers AnyMessage input c)
    (hp : ItemPending input.alertId chatId w) : ItemPending input.alertId chatId w' := by
  cases h with
  | insertDigestItem tenantId alertId chatId' scheduledFor items next hi =>
    obtain rfl : alertId = input.alertId := hd
    have hitems : items
        = (w.insertDigestItem tenantId input.alertId chatId' scheduledFor).digestItems :=
      congrArg World.digestItems hi
    unfold ItemPending
    dsimp only
    rw [hitems]
    unfold World.insertDigestItem
    split
    · exact hp
    · exact .inr (by simp [World.hasUnsentItem])
  | commit => exact hd.elim
  | markDigestItemSent id => exact hd.elim
  | _ => exact hp

theorem itemPending_meets {pid : Nat} {w : World} {chatId : String} {α : Type} {p : Program α}
    (hp : Issues (Delivers AnyMessage input) p) (hu : ItemPending input.alertId chatId w) :
    Meets (fun _ _ => True) (Executes pid) p
      (fun _ w' => ItemPending input.alertId chatId w') w :=
  hp.meets (fun _ _ _ _ hd hu hr => itemPending_of_effect (Executes.effect hr) hd hu) hu

/-- Queueing the digest for chats one of which has no item yet leaves an item unsent. -/
theorem insertDigestItems_meets {pid : Nat} {w : World} {tenantId chatId : String}
    {scheduledFor : Nat} {chatIds : List String} (hmem : chatId ∈ chatIds)
    (hp : ItemPending input.alertId chatId w) :
    Meets (fun _ _ => True) (Executes pid)
      (AlertsRepository.insertDigestItems input.alertId tenantId scheduledFor chatIds)
      (fun r w' => r = .ok () → World.hasUnsentItem w'.digestItems input.alertId = true) w := by
  induction chatIds generalizing w with
  | nil => exact absurd hmem List.not_mem_nil
  | cons chat chatIds ih =>
    refine meets_bind.mpr (meets_invoke.mpr ⟨trivial, fun r w' hr => ?_⟩)
    have heffect : ItemPending input.alertId chatId w' :=
      itemPending_of_effect (Executes.effect hr) (show Delivers AnyMessage input _ from rfl) hp
    obtain ⟨out, hr⟩ := hr
    rcases Call.answer_eq_some hr with ⟨e, rfl, -, -⟩ | ⟨ch, x, hs, rfl | ⟨e, rfl, -⟩⟩
    · exact fun h => by cases h
    · dsimp only
      rcases List.mem_cons.mp hmem with rfl | hmem'
      · obtain rfl : w.insertDigestItem tenantId input.alertId chatId scheduledFor = w' :=
          congrArg Prod.snd (Option.some.inj hs)
        have hrest : Issues (Delivers AnyMessage input)
            (AlertsRepository.insertDigestItems input.alertId tenantId scheduledFor chatIds) :=
          (insertDigestItems_issues ..).mono settles_delivers
        exact (unsent_meets hrest (hasUnsentItem_insertDigestItem hp)).mono fun _ _ hu _ => hu
      · exact ih hmem' heffect
    · exact fun h => by cases h

/-- An attempt whose plan queues a digest for such a chat leaves the alert waiting. -/
theorem deliverChannels_waits {pid : Nat} {w : World} {record : AlertNotificationRecord}
    {p : DeliveryPlan} {chatId : String} (hqueue : p.shouldQueueTelegramDigest = true)
    (hmem : chatId ∈ p.telegramChatIds) (hp : ItemPending input.alertId chatId w) :
    Meets (fun _ _ => True) (Executes pid) (deliverChannels config input record p)
      (fun r w' => r = .ok () → World.hasUnsentItem w'.digestItems input.alertId = true) w := by
  refine meets_bind.mpr ((itemPending_meets (attemptWebhook_issues config record p) hp).mono ?_)
  rintro (e | webhookErrors) w₁ hp
  · exact fun h => by cases h
  refine meets_bind.mpr ((itemPending_meets (attemptEmail_issues config record p) hp).mono ?_)
  rintro (e | emailErrors) w₂ hp
  · exact fun h => by cases h
  refine meets_bind.mpr ((itemPending_meets
    (attemptTelegram_issues config record p fun _ _ _ => trivial) hp).mono ?_)
  rintro (e | telegramErrors) w₃ hp
  · exact fun h => by cases h
  have hdigest : Meets (fun _ _ => True) (Executes pid) (queueDigest input.alertId record p)
      (fun r w' => r = .ok () →
        World.hasUnsentItem w'.digestItems input.alertId = true) w₃ := by
    unfold queueDigest AlertsRepository.queueTelegramDigestItems
    rw [if_pos hqueue, if_neg (by simpa using List.ne_nil_of_mem hmem)]
    refine meets_bind.mpr (meets_invoke.mpr ⟨trivial, fun r w' hr => ?_⟩)
    have hp' : ItemPending input.alertId chatId w' :=
      itemPending_of_effect (Executes.effect hr) (show Delivers AnyMessage input _ from trivial) hp
    cases r with
    | error e => exact fun h => by cases h
    | ok now => exact insertDigestItems_meets hmem hp'
  refine meets_bind.mpr (hdigest.mono ?_)
  rintro (e | u) w₄ hu
  · exact fun h => by cases h
  · exact (unsent_meets ((settle_issues p _ _).mono settles_delivers) (hu rfl)).mono
      fun _ _ hu _ => hu

/-- The status of an alert that is settled, when there is no retry, stays settled. -/
theorem settled_meets {pid : Nat} {w : World} {α : Type} {p : Program α}
    (hp : Issues (Delivers AnyMessage input) p) (hretry : input.willRetry = false)
    (hs : ∀ a, w.alertRow input.alertId = some a → a.deliveryStatus.Settled) :
    Meets (fun _ _ => True) (Executes pid) p
      (fun _ w' => ∀ a, w'.alertRow input.alertId = some a → a.deliveryStatus.Settled) w := by
  refine hp.meets (fun w c r w' hd hs hr => ?_) hs
  by_cases hwrite : ∃ id s, c = .alert (.write id s)
  · obtain ⟨id, s, rfl⟩ := hwrite
    obtain ⟨rfl, hq, hs'⟩ := hd
    obtain ⟨out, hr⟩ := hr
    rcases Call.answer_eq_some hr with ⟨e, -, rfl, -⟩ | ⟨ch, x, hserve, -⟩
    · exact hs
    · obtain rfl : w.writeAlert input.alertId s = w' :=
        congrArg Prod.snd (Option.some.inj hserve)
      intro b hb
      rw [World.alertRow_writeAlert] at hb
      obtain ⟨a, ha, rfl⟩ := Option.map_eq_some_iff.mp hb
      refine AlertWrite.settled_apply w.now s a hq ?_ (hs a ha)
      rw [← Bool.not_eq_true]
      intro hr
      rw [hs' hr] at hretry
      cases hretry
  · intro a ha
    have hmay : (Role.deliveryWorker (alertJobId input.alertId) input).MayIssue c :=
      delivers_deliveryWorker _ c hd
    rw [alertRow_of_effect (Executes.effect hr) hmay fun id s hc => hwrite ⟨id, s, hc⟩] at ha
    exact hs a ha

/-- An attempt to deliver with no channel stuck settles the alert when it returns. -/
theorem process_settles {pid : Nat} {w : World} {a : AlertRow}
    {record : AlertNotificationRecord} {settings : Option TenantSettings}
    (ha : w.alertRow input.alertId = some a) (hd : Drifts record.alert a)
    (hn : ¬ Stuck config rt a settings) :
    Meets (fun _ _ => True) (Executes pid) (process config rt input record settings)
      (fun r w' => r = .ok () → ∀ b, w'.alertRow input.alertId = some b →
        b.deliveryStatus.Settled) w := by
  have hissues : Issues (Delivers AnyMessage input) (process config rt input record settings) :=
    process_issues config rt record settings fun _ _ _ => trivial
  have habs : Meets (fun _ _ => True) (Answered config rt)
      (process config rt input record settings) (Ends input) ⟨a, true⟩ :=
    process_meets input record hd fun h => hn h.1
  have hsim : Meets (fun _ _ => True) (Executes pid) (process config rt input record settings)
      (fun r w' => ∃ x : Attempt, w'.alertRow input.alertId = some x.row ∧ Ends input r x) w := by
    refine (hissues.confine habs).simulate
      (fun (w : World) (x : Attempt) => w.alertRow input.alertId = some x.row) ha ?_
    rintro w ⟨row, clean⟩ c r w' hrow hdel ⟨out, hr⟩
    have hmay : (Role.deliveryWorker (alertJobId input.alertId) input).MayIssue c :=
      delivers_deliveryWorker _ c hdel
    have hstuck : ReadsUnstuck config rt row w c := by
      rintro tenantId rfl
      exact hdel.elim
    obtain ⟨x', hx', hrow', -⟩ := answered_of_answer hrow hmay hstuck hr
    exact ⟨x', hx', hrow'⟩
  refine hsim.mono ?_
  rintro r w' ⟨x, hx, hends⟩ rfl b hb
  obtain rfl := Option.some.inj (hx.symm.trans hb)
  exact hends

/-- **What is left unsettled**, as far as it can happen. -/
theorem settles_of_not_leavesUnsettled (pid : Nat) (w : World)
    (h : ∀ record, w.findAlertForWorker input.alertId = some record →
      ¬ LeavesUnsettled config rt w input record) :
    Meets (fun _ _ => True) (Executes pid) (execute config rt input)
      (fun r w' => r = .ok () → SettledOrWaiting w' input.alertId) w := by
  refine execute_meets (fun _ => ⟨fun _ => trivial, fun _ => trivial⟩)
    (fun e w h => by cases h) fun record hfind => ?_
  obtain ⟨a, ha, -⟩ := Option.bind_eq_some_iff.mp hfind
  change w.alertRow input.alertId = some a at ha
  obtain ⟨rules, hrec⟩ := World.alert_of_findAlertForWorker ha hfind
  have hn := h record hfind
  set settings := Settings.getByTenantId record.alert.tenantId w.settings
  by_cases hatt : (plan config rt record.alert settings).attempts = true
  swap
  · -- nothing is attempted: the alert is disabled
    rw [process_of_not_attempts (by simpa using hatt)]
    refine meets_bind.mpr (meets_invoke.mpr ⟨trivial, fun r w' hr => ?_⟩)
    obtain ⟨out, hr⟩ := hr
    rcases Call.answer_eq_some hr with ⟨e, rfl, -, -⟩ | ⟨ch, x, hs, rfl | ⟨e, rfl, -⟩⟩
    · exact fun h => by cases h
    · obtain rfl : w.writeAlert input.alertId .markDeliveryDisabled = w' :=
        congrArg Prod.snd (Option.some.inj hs)
      intro _ b hb
      rw [World.alertRow_writeAlert, ha] at hb
      obtain rfl := Option.some.inj hb
      exact .inl trivial
    · exact fun h => by cases h
  by_cases hstuck : Stuck config rt record.alert settings
  swap
  · -- no channel is left out
    have hd : Drifts record.alert a := by
      rw [hrec]
      exact ⟨rfl, rfl, fun _ h => h⟩
    have hstuck' : ¬ Stuck config rt a settings := by
      rw [hrec] at hstuck
      exact hstuck
    exact (process_settles ha hd hstuck').mono fun r w' h hok b hb => .inl (h hok b hb)
  by_cases hwait : WaitsInDigest w input.alertId (plan config rt record.alert settings)
  · -- a digest takes the alert up
    rcases hwait with hu | ⟨hqueue, chatId, hmem, hnone⟩
    · exact (unsent_meets (process_issues config rt record settings fun _ _ _ => trivial) hu).mono
        fun _ _ hu _ b _ => .inr hu
    · unfold process
      dsimp only
      rw [if_neg (by simp [hatt, Notifier.isEnabled])]
      refine meets_tryCatch.mpr ((deliverChannels_waits hqueue hmem (.inl hnone)).mono ?_)
      rintro (e | u) w' hu
      · -- the handler rethrows
        refine meets_bind.mpr (Meets.mono (meets_of_invariant (Q := fun _ => True)
          (fun _ _ _ _ _ _ => trivial) _ trivial) ?_)
        rintro (e' | u) w'' - h
        · cases h
        · cases h
      · exact fun _ b _ => .inr (hu rfl)
  · -- there is no retry, and the alert was settled before
    have hsettled : input.willRetry = false ∧ record.alert.deliveryStatus.Settled := by
      by_contra hno
      refine hn ⟨hatt, hstuck, ?_, hwait⟩
      rw [not_and_or] at hno
      simpa using hno
    refine (settled_meets (process_issues config rt record settings fun _ _ _ => trivial)
      hsettled.1 fun b hb => ?_).mono
      fun r w' hs _ b hb => .inl (hs b hb)
    obtain rfl := Option.some.inj (ha.symm.trans hb)
    have := hsettled.2
    rw [hrec] at this
    exact this

/-! ### An execution that leaves the alert unsettled

Every transport works; the channel that is left out stays undelivered. -/

/-- What the attempts change when every transport works: the channels they attempt. -/
structure Near (p : DeliveryPlan) (id : Nat) (w w' : World) : Prop where
  /-- digest items stay -/
  digestItems : w'.digestItems = w.digestItems
  /-- so do the status and the channels that are not attempted -/
  row : ∃ a a', w.alertRow id = some a ∧ w'.alertRow id = some a' ∧
    a'.deliveryStatus = a.deliveryStatus ∧
    ∀ c, p.attemptsChannel c = false → a'.channelStatus c = a.channelStatus c

theorem Near.refl {p : DeliveryPlan} {id : Nat} {w : World} {a : AlertRow}
    (ha : w.alertRow id = some a) : Near p id w w :=
  ⟨rfl, a, a, ha, ha, rfl, fun _ _ => rfl⟩

theorem Near.trans {p : DeliveryPlan} {id : Nat} {w₁ w₂ w₃ : World} (h : Near p id w₁ w₂)
    (h' : Near p id w₂ w₃) : Near p id w₁ w₃ := by
  obtain ⟨a, b, ha, hb, hstatus, hchannel⟩ := h.row
  obtain ⟨b', c, hb', hc, hstatus', hchannel'⟩ := h'.row
  obtain rfl := Option.some.inj (hb.symm.trans hb')
  exact ⟨h'.digestItems.trans h.digestItems, a, c, ha, hc, hstatus'.trans hstatus,
    fun ch hch => (hchannel' ch hch).trans (hchannel ch hch)⟩

/-- Marking an attempted channel. -/
theorem Near.write {p : DeliveryPlan} {id : Nat} {w : World} {a : AlertRow}
    {channel : DeliveryChannel} (ha : w.alertRow id = some a)
    (hc : p.attemptsChannel channel = true) :
    Near p id w (w.writeAlert id (.markChannelDelivered channel)) := by
  refine ⟨rfl, a, _, ha, by rw [World.alertRow_writeAlert, ha]; rfl, ?_, fun c hno => ?_⟩
  · exact AlertRow.setChannelStatus_deliveryStatus ..
  · refine (AlertRow.channelStatus_setChannelStatus a .sent channel c).trans (if_neg ?_)
    rintro rfl
    rw [hc] at hno
    cases hno

section CanAttempt

variable {pid : Nat} {w : World} {a : AlertRow} {record : AlertNotificationRecord}
  {p : DeliveryPlan}

/-- A request that succeeds. -/
theorem netCall_can {c : NetCall} {reply : c.Reply} (h : c.serve .none = some reply)
    {post : Except String c.Reply → World → Prop} (hpost : post (.ok reply) w) :
    Can (Executes pid) (netCall c) post w := by
  refine can_invoke.mpr ⟨.ok reply, w, ⟨.ok .none, ?_⟩, hpost⟩
  simp only [Call.answer, Call.serve, h]
  rfl

theorem attemptWebhook_can (ha : w.alertRow input.alertId = some a) :
    Can (Executes pid) (attemptWebhook config input.alertId record p)
      (fun r w' => r = .ok [] ∧ Near p input.alertId w w') w := by
  unfold attemptWebhook
  split
  · rename_i url hatt hurl
    have hsend : Can (Executes pid) (Notifier.sendWebhook config record url)
        (fun r w' => r = .ok () ∧ w' = w) w := by
      unfold Notifier.sendWebhook
      split
      · exact ⟨rfl, rfl⟩
      · rename_i url' _
        by_cases hempty : url' = ""
        · rw [if_pos hempty]
          exact ⟨rfl, rfl⟩
        · rw [if_neg hempty]
          exact netCall_can rfl ⟨rfl, rfl⟩
    refine can_tryCatch.mpr (can_bind.mpr (hsend.mono ?_))
    rintro r w' ⟨rfl, rfl⟩
    exact can_bind.mpr (write_can ⟨rfl, Near.write ha hatt⟩)
  · exact ⟨rfl, Near.refl ha⟩

theorem attemptEmail_can (ha : w.alertRow input.alertId = some a)
    (henabled : p.shouldAttemptEmail = true → Notifier.isEmailEnabled config = true) :
    Can (Executes pid) (attemptEmail config input.alertId record p)
      (fun r w' => r = .ok ([], []) ∧ Near p input.alertId w w') w := by
  unfold attemptEmail
  split
  · rename_i hatt
    -- the quota fails open when Redis does not answer
    have hreserve : Can (Executes pid) (EmailRateLimit.reserve config record.alert.tenantId)
        (fun r w' => (∃ quota, r = .ok quota ∧ quota.allowed = true) ∧ w' = w) w := by
      unfold EmailRateLimit.reserve
      dsimp only
      split
      · exact ⟨⟨_, rfl, rfl⟩, rfl⟩
      · refine can_bind.mpr (can_invoke.mpr ⟨.ok w.now, w, ⟨.ok .none, rfl⟩, ?_⟩)
        refine can_tryCatch.mpr (can_bind.mpr (can_invoke.mpr
          ⟨.error "redis_unavailable", w, ⟨.refused _, rfl⟩, ?_⟩))
        exact ⟨⟨_, rfl, rfl⟩, rfl⟩
    have hsend : Can (Executes pid) (Notifier.sendEmail config record p.recipientEmails)
        (fun r w' => r = .ok () ∧ w' = w) w := by
      unfold Notifier.sendEmail
      by_cases hempty : p.recipientEmails.isEmpty = true
      · rw [if_pos hempty]
        exact ⟨rfl, rfl⟩
      · rw [if_neg hempty, if_neg (by simp [henabled hatt])]
        exact netCall_can rfl ⟨rfl, rfl⟩
    refine can_bind.mpr (hreserve.mono ?_)
    rintro r w' ⟨⟨quota, rfl, hallowed⟩, rfl⟩
    dsimp only
    rw [if_pos hallowed]
    refine can_tryCatch.mpr (can_bind.mpr (hsend.mono ?_))
    rintro r w'' ⟨rfl, rfl⟩
    exact can_bind.mpr (write_can ⟨rfl, Near.write ha hatt⟩)
  · exact ⟨rfl, Near.refl ha⟩

theorem sendToChats_can {token : Option String}
    (henabled : Notifier.isTelegramEnabled config token = true) (chatIds : List String) :
    Can (Executes pid) (sendToChats config record token chatIds)
      (fun r w' => r = .ok [] ∧ w' = w) w := by
  induction chatIds with
  | nil => exact ⟨rfl, rfl⟩
  | cons chatId chatIds ih =>
    obtain ⟨t, -, -, hsend⟩ := Notifier.sendTelegramMessage_of_enabled config chatId
      (.alert record) henabled
    have hfirst : Can (Executes pid) (Notifier.sendTelegram config record chatId token)
        (fun r w' => r = .ok () ∧ w' = w) w := by
      unfold Notifier.sendTelegram
      rw [hsend]
      exact netCall_can rfl ⟨rfl, rfl⟩
    refine can_bind.mpr (can_tryCatch.mpr (can_bind.mpr (hfirst.mono ?_)))
    rintro r w' ⟨rfl, rfl⟩
    refine can_bind.mpr (ih.mono ?_)
    rintro r w'' ⟨rfl, rfl⟩
    exact ⟨rfl, rfl⟩

theorem attemptTelegram_can (ha : w.alertRow input.alertId = some a)
    (henabled : p.shouldSendTelegram = true →
      Notifier.isTelegramEnabled config p.telegramBotToken = true) :
    Can (Executes pid) (attemptTelegram config input.alertId record p)
      (fun r w' => r = .ok [] ∧ Near p input.alertId w w') w := by
  unfold attemptTelegram
  split
  · rename_i hatt
    refine can_bind.mpr ((sendToChats_can (henabled hatt) _).mono ?_)
    rintro r w' ⟨rfl, rfl⟩
    exact can_bind.mpr (write_can ⟨rfl, Near.write ha hatt⟩)
  · exact ⟨rfl, Near.refl ha⟩

/-- Queueing a digest whose items are all there. -/
theorem queueDigest_can (hitems : p.shouldQueueTelegramDigest = true →
      ∀ chatId ∈ p.telegramChatIds,
        ∃ i ∈ w.digestItems, i.alertId = input.alertId ∧ i.chatId = chatId) :
    Can (Executes pid) (queueDigest input.alertId record p)
      (fun r w' => r = .ok () ∧ w' = w) w := by
  have hinsert : ∀ scheduledFor chatIds, (∀ chatId ∈ chatIds,
      ∃ i ∈ w.digestItems, i.alertId = input.alertId ∧ i.chatId = chatId) →
      Can (Executes pid) (AlertsRepository.insertDigestItems input.alertId
        record.alert.tenantId scheduledFor chatIds) (fun r w' => r = .ok () ∧ w' = w) w := by
    intro scheduledFor chatIds hall
    induction chatIds with
    | nil => exact ⟨rfl, rfl⟩
    | cons chatId chatIds ih =>
      obtain ⟨i, hi, hid⟩ := hall chatId List.mem_cons_self
      have hsame : w.insertDigestItem record.alert.tenantId input.alertId chatId scheduledFor
          = w := by
        unfold World.insertDigestItem
        exact if_pos (List.any_eq_true.mpr ⟨i, hi, by simp [hid]⟩)
      refine can_bind.mpr (can_invoke.mpr ⟨.ok (), w, ⟨.ok .none, ?_⟩,
        ih fun c hc => hall c (List.mem_cons_of_mem _ hc)⟩)
      exact congrArg (fun w' => some (Except.ok (), w')) hsame
  unfold queueDigest AlertsRepository.queueTelegramDigestItems
  split
  · rename_i hqueue
    split
    · exact ⟨rfl, rfl⟩
    · exact can_bind.mpr (can_invoke.mpr ⟨.ok w.now, w, ⟨.ok .none, rfl⟩,
        hinsert _ _ (hitems hqueue)⟩)
  · exact ⟨rfl, rfl⟩

/-- The decision without errors, when a required channel is not delivered. -/
theorem settle_can (ha : w.alertRow input.alertId = some a)
    (hundelivered : ∃ channel, (requiredChannels p).requires channel = true ∧
      a.channelStatus channel ≠ .sent)
    (hunsettled : input.willRetry = true ∨ ¬ a.deliveryStatus.Settled)
    (hitems : World.hasUnsentItem w.digestItems input.alertId ≠ true) :
    Can (Executes pid) (settle input p [] [])
      (fun r w' => r = .ok () ∧ ¬ SettledOrWaiting w' input.alertId) w := by
  obtain ⟨channel, hreq, hne⟩ := hundelivered
  have hcheck : w.checkAllChannelsDelivered input.alertId (requiredChannels p) = false := by
    change ((w.alertRow input.alertId).map (World.allDelivered (requiredChannels p))).getD false
      = false
    rw [ha]
    change World.allDelivered (requiredChannels p) a = false
    rw [← Bool.not_eq_true, World.allDelivered_iff]
    exact fun h => hne (h channel hreq)
  unfold settle
  rw [if_neg (by simp), if_neg (by simp)]
  refine can_bind.mpr (can_invoke.mpr ⟨.ok false, w, ⟨.ok .none, ?_⟩, ?_⟩)
  · exact congrArg (fun b => some (Except.ok b, w)) hcheck
  dsimp only
  rw [if_neg (by simp)]
  by_cases hretry : input.willRetry = true
  · rw [if_pos hretry]
    refine write_can ⟨rfl, fun h => ?_⟩
    rcases h _ (by rw [World.alertRow_writeAlert, ha]; rfl) with h | h
    · exact h
    · exact hitems h
  · rw [if_neg hretry]
    refine ⟨rfl, fun h => ?_⟩
    rcases h a ha with h | h
    · exact hunsettled.resolve_left hretry h
    · exact hitems h

end CanAttempt

/-- At such an input the alert can be left unsettled. -/
theorem leavesUnsettled_can (pid : Nat) {w : World} {record : AlertNotificationRecord}
    (hfind : w.findAlertForWorker input.alertId = some record)
    (h : LeavesUnsettled config rt w input record) :
    Can (Executes pid) (execute config rt input)
      (fun r w' => r = .ok () ∧ ¬ SettledOrWaiting w' input.alertId) w := by
  obtain ⟨hatt, ⟨channel, hreq, hne, hskip⟩, hunsettled, hwait⟩ := h
  obtain ⟨a, ha, -⟩ := Option.bind_eq_some_iff.mp hfind
  change w.alertRow input.alertId = some a at ha
  obtain ⟨rules, hrec⟩ := World.alert_of_findAlertForWorker ha hfind
  refine execute_can hfind ?_
  set settings := Settings.getByTenantId record.alert.tenantId w.settings
  unfold process
  dsimp only
  rw [if_neg (by simp [hatt, Notifier.isEnabled])]
  set p := plan config rt record.alert settings with hp
  simp only [WaitsInDigest, not_or, not_and, not_exists, not_forall, not_not] at hwait
  have hemail : p.shouldAttemptEmail = true → Notifier.isEmailEnabled config = true := by
    intro h
    simp only [hp, plan, Bool.and_eq_true] at h
    exact h.1.2
  have htelegram : p.shouldSendTelegram = true →
      Notifier.isTelegramEnabled config p.telegramBotToken = true := by
    intro h
    simp only [hp, plan, Bool.and_eq_true] at h
    exact h.1.1.2
  refine can_tryCatch.mpr (can_bind.mpr ((attemptWebhook_can ha).mono ?_))
  rintro r w₁ ⟨rfl, hnear₁⟩
  obtain ⟨-, a₁, -, ha₁, -⟩ := hnear₁.row
  refine can_bind.mpr ((attemptEmail_can ha₁ hemail).mono ?_)
  rintro r w₂ ⟨rfl, hnear₂⟩
  obtain ⟨-, a₂, -, ha₂, -⟩ := hnear₂.row
  refine can_bind.mpr ((attemptTelegram_can ha₂ htelegram).mono ?_)
  rintro r w₃ ⟨rfl, hnear₃⟩
  -- the status and the channel that is left out are as they were
  have hnear := (hnear₁.trans hnear₂).trans hnear₃
  obtain ⟨a', a₃, ha', ha₃, hstatus, hchannel⟩ := hnear.row
  obtain rfl := Option.some.inj (ha.symm.trans ha')
  have hitems : ∀ chatId ∈ p.telegramChatIds, p.shouldQueueTelegramDigest = true →
      ∃ i ∈ w₃.digestItems, i.alertId = input.alertId ∧ i.chatId = chatId := by
    intro chatId hmem hqueue
    rw [hnear.digestItems]
    obtain ⟨i, hi, hid, hchat⟩ := hwait.2 hqueue chatId hmem
    exact ⟨i, hi, hid, hchat⟩
  refine can_bind.mpr ((queueDigest_can fun hqueue chatId hmem =>
    hitems chatId hmem hqueue).mono ?_)
  rintro r w₄ ⟨rfl, rfl⟩
  refine (settle_can ha₃ ⟨channel, hreq, ?_⟩ ?_ ?_).mono ?_
  · rw [hchannel channel hskip]
    rw [hrec] at hne
    exact hne
  · rw [hstatus]
    rw [hrec] at hunsettled
    exact hunsettled
  · rw [hnear.digestItems]
    exact hwait.1
  · rintro r w₅ ⟨rfl, hno⟩
    exact ⟨rfl, hno⟩

/-- **A returning attempt settles its alert, or leaves it waiting in a digest, exactly if the
input is not one of those.** -/
theorem settles_iff (pid : Nat) (w : World) :
    Meets (fun _ _ => True) (Executes pid) (execute config rt input)
        (fun r w' => r = .ok () → SettledOrWaiting w' input.alertId) w ↔
      ∀ record, w.findAlertForWorker input.alertId = some record →
        ¬ LeavesUnsettled config rt w input record := by
  constructor
  · intro hmeets record hfind hleaves
    refine can_iff_not_meets.mp (leavesUnsettled_can pid hfind hleaves) (hmeets.mono ?_)
    rintro r w' h ⟨hok, hno⟩
    exact hno (h hok)
  · exact settles_of_not_leavesUnsettled pid w

end ProcessAlertDelivery

end Feedpulse
