import Feedpulse.Footprints
import Feedpulse.Frames
import Feedpulse.Allowance
import Mathlib.Data.List.Find

/-!
# The daily email quota

A delivery worker reserves a mail by incrementing the tenant's counter of the UTC day, sends
it, and gives the reservation back when an error follows. `quota_kept` says which runs send no
more mails under the reservations of a day than the limit: those in which a reservation is
given back only while its mail was not sent, and under the day it was made on.
`mail_sent_twice` is a run in which the reservation of a mail that was sent is given back.
-/

namespace Feedpulse

open Prog

/-! ## Counters -/

/-- What a counter of the quota counts: the mails of a tenant on a UTC day. -/
abbrev QuotaKey := String × Nat

/-- The instant at which the counter of a day may expire, at the earliest. -/
def closing (day : Nat) : Nat := day * 86400000 + EmailRateLimit.counterTtlSeconds * 1000

namespace World

variable {w : World} {tenantId : String} {day : Nat}

/-- The value of a counter; a missing or expired one counts from zero. -/
def counted (w : World) (key : QuotaKey) : Int :=
  ((w.liveCounter key.1 key.2).map EmailCounter.value).getD 0

/-- No counter expires before its day is over. -/
def Lasting (w : World) : Prop :=
  ∀ c ∈ w.emailCounters, ∀ t, c.expiresAt = some t → closing c.day ≤ t

theorem liveCounter_eq_some {c : EmailCounter} (h : w.liveCounter tenantId day = some c) :
    c ∈ w.emailCounters ∧ c.tenantId = tenantId ∧ c.day = day ∧
      ∀ t, c.expiresAt = some t → w.now < t := by
  have hmem := List.mem_of_find?_eq_some h
  have hp := List.find?_some h
  simp only [Bool.and_eq_true, decide_eq_true_eq] at hp
  refine ⟨hmem, hp.1.1, hp.1.2, fun t ht => ?_⟩
  simpa [ht] using hp.2

/-- A counter that has just been written is read back, unless it has expired. -/
theorem liveCounter_setCounter_self {c : EmailCounter}
    (hlive : ∀ t, c.expiresAt = some t → w.now < t) :
    (w.setCounter c).liveCounter c.tenantId c.day = some c := by
  unfold liveCounter setCounter
  rw [List.find?_cons_of_pos]
  rcases ht : c.expiresAt with _ | t
  · simp
  · simpa using hlive t ht

theorem liveCounter_setCounter_of_ne {c : EmailCounter}
    (hne : ¬ (c.tenantId = tenantId ∧ c.day = day)) :
    (w.setCounter c).liveCounter tenantId day = w.liveCounter tenantId day := by
  unfold liveCounter setCounter
  rw [List.find?_cons_of_neg (by simp; tauto), List.find?_filter]
  congr 1
  funext e
  by_cases he : e.tenantId = tenantId ∧ e.day = day
  · obtain ⟨rfl, rfl⟩ := he
    have hkey : (decide (e.tenantId = c.tenantId) && decide (e.day = c.day)) = false := by
      simp only [Bool.and_eq_false_iff, decide_eq_false_iff_not]
      tauto
    simp [hkey]
  · have hkey : (decide (e.tenantId = tenantId) && decide (e.day = day)) = false := by
      simp only [Bool.and_eq_false_iff, decide_eq_false_iff_not]
      tauto
    simp [hkey]

theorem counted_setCounter {c : EmailCounter} (hlive : ∀ t, c.expiresAt = some t → w.now < t)
    (key : QuotaKey) :
    (w.setCounter c).counted key
      = if key = (c.tenantId, c.day) then c.value else w.counted key := by
  unfold counted
  split
  · rename_i hkey
    rw [hkey, liveCounter_setCounter_self hlive]
    rfl
  · rename_i hkey
    rw [liveCounter_setCounter_of_ne]
    rintro ⟨htenant, hday⟩
    exact hkey (Prod.ext htenant.symm hday.symm)

theorem Lasting.setCounter {c : EmailCounter} (h : w.Lasting)
    (hc : ∀ t, c.expiresAt = some t → closing c.day ≤ t) : (w.setCounter c).Lasting := by
  intro e he
  rcases List.mem_cons.mp he with rfl | he
  · exact hc
  · exact h e (List.mem_filter.mp he).1

/-- `INCRBY` adds to the counter it is about, and answers its value. -/
theorem Lasting.addToCounter (h : w.Lasting) (tenantId : String) (day : Nat) (delta : Int) :
    (w.addToCounter tenantId day delta).1 = w.counted (tenantId, day) + delta ∧
      (w.addToCounter tenantId day delta).2.Lasting ∧
      (w.addToCounter tenantId day delta).2.now = w.now ∧
      ∀ key, (w.addToCounter tenantId day delta).2.counted key =
        if key = (tenantId, day) then w.counted (tenantId, day) + delta else w.counted key := by
  unfold World.addToCounter
  rcases hl : w.liveCounter tenantId day with _ | c
  · have hzero : w.counted (tenantId, day) = 0 := by simp [counted, hl]
    refine ⟨by simp [hzero], h.setCounter (by simp), rfl, fun key => ?_⟩
    rw [hzero, zero_add]
    exact counted_setCounter (by simp) key
  · obtain ⟨hc, rfl, rfl, hlive⟩ := liveCounter_eq_some hl
    have hvalue : w.counted (c.tenantId, c.day) = c.value := by simp [counted, hl]
    refine ⟨by simp [hvalue], h.setCounter (h c hc), rfl, fun key => ?_⟩
    rw [hvalue]
    exact counted_setCounter (c := { c with value := c.value + delta }) hlive key

/-- `EXPIRE` leaves the counters as they are, if it leaves them to the end of their day. -/
theorem Lasting.expireCounter {ttlSeconds : Nat} (h : w.Lasting) (tenantId : String)
    (httl : 0 < ttlSeconds)
    (hday : closing day ≤ w.now + ttlSeconds * 1000) :
    (w.expireCounter tenantId day ttlSeconds).Lasting ∧
      (w.expireCounter tenantId day ttlSeconds).now = w.now ∧
      ∀ key, (w.expireCounter tenantId day ttlSeconds).counted key = w.counted key := by
  unfold World.expireCounter
  rcases hl : w.liveCounter tenantId day with _ | c
  · exact ⟨h, rfl, fun _ => rfl⟩
  · obtain ⟨hc, rfl, rfl, -⟩ := liveCounter_eq_some hl
    refine ⟨h.setCounter ?_, rfl, fun key => ?_⟩
    · rintro t ht
      obtain rfl := Option.some.inj ht
      exact hday
    · have hlive : ∀ t, some (w.now + ttlSeconds * 1000) = some t → w.now < t := by
        rintro t ht
        obtain rfl := Option.some.inj ht
        omega
      refine (counted_setCounter hlive key).trans ?_
      split
      · rename_i hkey
        simp [hkey, counted, hl]
      · rfl

/-- While its day lasts, time does not touch a counter. -/
theorem counted_elapse (h : w.Lasting) {ms : Nat} {key : QuotaKey}
    (hopen : w.now + ms < closing key.2) :
    ({ w with now := w.now + ms } : World).counted key = w.counted key := by
  have hsame : ({ w with now := w.now + ms } : World).liveCounter key.1 key.2
      = w.liveCounter key.1 key.2 := by
    unfold liveCounter
    refine List.find?_congr fun c hc => ?_
    by_cases hday : c.day = key.2
    · rcases ht : c.expiresAt with _ | t
      · rfl
      · have hlast := h c hc t ht
        rw [hday] at hlast
        have hafter : w.now + ms < t := by omega
        have hbefore : w.now < t := by omega
        simp [hafter, hbefore]
    · simp [hday]
  unfold counted
  rw [hsame]

end World

/-! ## Reservations -/

/-- What a process has of the quota. -/
inductive Slot
  /-- an increment that overshot the limit, and is to be given back -/
  | overshot (key : QuotaKey)
  /-- a reservation -/
  | granted (key : QuotaKey)
  /-- the reservation of a mail that was sent -/
  | spent (key : QuotaKey)
  deriving DecidableEq, Repr

namespace Slot

/-- The counter. -/
def key : Slot → QuotaKey
  | overshot key => key
  | granted key => key
  | spent key => key

/-- What an increment gives that leaves the counter at `used`. -/
def ofCount (limit : Nat) (key : QuotaKey) (used : Int) : Slot :=
  if used ≤ limit then granted key else overshot key

/-- A mail is sent. -/
def spend : Slot → Slot
  | granted key => spent key
  | slot => slot

@[simp] theorem ofCount_eq_granted {limit : Nat} {key key' : QuotaKey} {used : Int} :
    ofCount limit key used = granted key' ↔ key' = key ∧ used ≤ limit := by
  unfold ofCount
  split <;> simp [*, eq_comm]

@[simp] theorem ofCount_eq_over {limit : Nat} {key key' : QuotaKey} {used : Int} :
    ofCount limit key used = overshot key' ↔ key' = key ∧ ¬ used ≤ limit := by
  unfold ofCount
  split <;> simp [*, eq_comm]

end Slot

/-- What a process has, and when it last looked at the clock. -/
structure QuotaView where
  /-- what it has of the quota -/
  slot : Option Slot
  /-- its last reading of the clock -/
  clock : Nat

namespace QuotaView

/-- What a process may do with the quota: it increments only while it has nothing, gives an
overshoot back where it came from, and sends a mail only under a reservation. -/
def Allowed (v : QuotaView) : Call → Prop
  | .redis (.incr _ day) => v.slot = none ∧ day ≤ EmailRateLimit.utcDay v.clock
  | .redis (.decr tenantId day) =>
    v.slot ≠ none ∧ ∀ key, v.slot = some (.overshot key) → key = (tenantId, day)
  | .redis (.expire _ day ttlSeconds) =>
    day ≤ EmailRateLimit.utcDay v.clock ∧ ttlSeconds = EmailRateLimit.counterTtlSeconds
  | .net (.postEmail ..) => ∃ key, v.slot = some (.granted key)
  | _ => True

/-- What an answer makes of the view, while Redis does not fail. -/
def Answers (limit : Nat) (v : QuotaView) (c : Call) (r : Except String c.Reply)
    (v' : QuotaView) : Prop :=
  match c, r with
  | .clock, .ok now => v' = { v with clock := now }
  | .redis (.incr tenantId day), .ok used =>
    v' = { v with slot := some (Slot.ofCount limit (tenantId, day) used) }
  | .redis (.decr ..), .ok _ => v' = { v with slot := none }
  | .redis (.expire ..), .ok _ => v' = v
  | .redis _, .error _ => False
  | .net (.postEmail ..), _ => v' = v ∨ v' = { v with slot := v.slot.map Slot.spend }
  | _, _ => v' = v

end QuotaView

/-- The program keeps to the quota. -/
abbrev KeepsQuota (limit : Nat) {α : Type} (p : Program α) (post : QuotaView → Prop)
    (v : QuotaView) : Prop :=
  Meets QuotaView.Allowed (QuotaView.Answers limit) p (fun _ v' => post v') v

/-- A call that has nothing to do with the quota. -/
def Unmetered : Call → Prop
  | .redis _ => False
  | .net (.postEmail ..) => False
  | _ => True

section Programs

variable {config : AppConfig} {rt : Runtime} {limit : Nat} {v : QuotaView}

theorem allowed_of_unmetered {c : Call} (h : Unmetered c) : v.Allowed c := by
  unfold QuotaView.Allowed
  split
  all_goals first | exact trivial | exact h.elim

theorem slot_of_unmetered {c : Call} {r : Except String c.Reply} {v' : QuotaView}
    (h : Unmetered c) (hr : QuotaView.Answers limit v c r v') : v'.slot = v.slot := by
  unfold QuotaView.Answers at hr
  split at hr
  all_goals first | exact h.elim | rw [hr]

/-- What has nothing to do with the quota leaves the process what it has. -/
theorem keepsQuota_of_unmetered {α : Type} {p : Program α} (h : Issues Unmetered p) :
    KeepsQuota limit p (fun v' => v'.slot = v.slot) v := by
  have hstep : ∀ v₁ c r v₂, Unmetered c → v₁.slot = v.slot →
      QuotaView.Answers limit v₁ c r v₂ → v₂.slot = v.slot :=
    fun _ _ _ _ hc hs hr => (slot_of_unmetered hc hr).trans hs
  have hslot : Meets (fun _ _ => True) (QuotaView.Answers limit) p
      (fun _ v' => v'.slot = v.slot) v :=
    h.meets (Q := fun v' : QuotaView => v'.slot = v.slot) hstep rfl
  exact (h.confine hslot).weaken (fun _ _ hc => allowed_of_unmetered hc) fun _ _ _ _ hr => hr

theorem write_unmetered (id : Nat) (s : AlertWrite) :
    Issues Unmetered (AlertsRepository.write id s) :=
  Issues.bind (issues_invoke trivial) fun _ => issues_pure _

theorem attemptWebhook_unmetered (alertId : Nat) (record : AlertNotificationRecord)
    (p : DeliveryPlan) :
    Issues Unmetered (ProcessAlertDelivery.attemptWebhook config alertId record p) := by
  have hsend : ∀ url, Issues Unmetered (Notifier.sendWebhook config record url) := by
    intro url
    unfold Notifier.sendWebhook
    split
    · exact issues_pure _
    · exact Issues.ite (fun _ => issues_pure _) fun _ => issues_invoke trivial
  unfold ProcessAlertDelivery.attemptWebhook
  split
  · refine Issues.tryCatch ?_ fun _ => issues_pure _
    exact Issues.bind (hsend _) fun _ => Issues.bind (write_unmetered ..) fun _ => issues_pure _
  · exact issues_pure _

theorem attemptTelegram_unmetered (alertId : Nat) (record : AlertNotificationRecord)
    (p : DeliveryPlan) :
    Issues Unmetered (ProcessAlertDelivery.attemptTelegram config alertId record p) := by
  have hchats : ∀ chatIds, Issues Unmetered
      (ProcessAlertDelivery.sendToChats config record p.telegramBotToken chatIds) := by
    intro chatIds
    induction chatIds with
    | nil => exact issues_pure _
    | cons chatId chatIds ih =>
      refine Issues.bind ?_ fun _ => Issues.bind ih fun _ => issues_pure _
      refine Issues.tryCatch (Issues.bind ?_ fun _ => issues_pure _) fun _ => issues_pure _
      exact sendTelegramMessage_issues _ _ _ _ fun _ _ _ => trivial
  refine Issues.ite (fun _ => ?_) fun _ => issues_pure _
  refine Issues.bind (hchats _) fun errors => ?_
  exact Issues.ite (fun _ => Issues.bind (write_unmetered ..) fun _ => issues_pure _)
    fun _ => issues_pure _

theorem settles_unmetered {input : DeliveryInput} (c : Call) (h : Settles input c) :
    Unmetered c := by
  unfold Unmetered
  split
  · exact h
  · exact h
  · trivial

/-- A process that has something gives it back. -/
theorem giveBack_keepsQuota {tenantId : String} {day : Nat} {slot : Slot}
    (hslot : v.slot = some slot) (hkey : ∀ key, slot = .overshot key → key = (tenantId, day))
    (hday : day ≤ EmailRateLimit.utcDay v.clock) :
    Meets QuotaView.Allowed (QuotaView.Answers limit) (EmailRateLimit.giveBack tenantId day)
      (fun r _ => r = .ok ()) v := by
  refine meets_bind.mpr (meets_invoke.mpr ⟨⟨by simp [hslot], ?_⟩, fun r v₁ hr => ?_⟩)
  · rintro key hover
    exact hkey key (Option.some.inj (hslot.symm.trans hover))
  · cases r with
    | error e => exact hr.elim
    | ok remaining =>
      obtain rfl : v₁ = { v with slot := none } := hr
      dsimp only
      split
      · refine meets_invoke.mpr ⟨⟨hday, rfl⟩, fun r v₂ hr => ?_⟩
        cases r with
        | error e => exact hr.elim
        | ok _ => rfl
      · rfl

/-- The decision after the increment: an overshoot is given back. -/
theorem decide_keepsQuota {tenantId : String} {now : Nat} {used : Int} :
    Meets QuotaView.Allowed (QuotaView.Answers limit)
      (if (limit : Int) < used then do
        EmailRateLimit.giveBack tenantId (EmailRateLimit.utcDay now)
        pure (EmailQuotaDecision.mk false limit limit false)
      else pure (EmailQuotaDecision.mk true limit used false))
      (fun r v' => ∃ quota, r = .ok quota ∧
        (quota.allowed = true → ∃ key, v'.slot = some (.granted key)))
      ⟨some (Slot.ofCount limit (tenantId, EmailRateLimit.utcDay now) used), now⟩ := by
  by_cases hover : (limit : Int) < used
  · rw [if_pos hover]
    have hslot : Slot.ofCount limit (tenantId, EmailRateLimit.utcDay now) used
        = .overshot (tenantId, EmailRateLimit.utcDay now) := if_neg (not_le.mpr hover)
    refine meets_bind.mpr (Meets.mono (giveBack_keepsQuota rfl ?_ le_rfl) fun r v₁ hr => ?_)
    · rintro key hkey
      exact (Slot.overshot.inj (hslot.symm.trans hkey)).symm
    · subst hr
      exact ⟨_, rfl, nofun⟩
  · rw [if_neg hover]
    exact ⟨_, rfl, fun _ => ⟨_, congrArg some (if_pos (not_lt.mp hover))⟩⟩

/-- A reservation that is allowed is one that is held. -/
theorem reserve_keepsQuota (hlimit : 0 < config.resendDailyLimit) {tenantId : String}
    (hslot : v.slot = none) :
    Meets QuotaView.Allowed (QuotaView.Answers config.resendDailyLimit)
      (EmailRateLimit.reserve config tenantId)
      (fun r v' => ∀ quota, r = .ok quota → quota.allowed = true →
        ∃ key, v'.slot = some (.granted key)) v := by
  unfold EmailRateLimit.reserve
  dsimp only
  rw [if_neg (by omega)]
  refine meets_bind.mpr (meets_invoke.mpr ⟨trivial, fun r v₁ hr => ?_⟩)
  cases r with
  | error e => nofun
  | ok now =>
    obtain rfl : v₁ = { v with clock := now } := hr
    have hcount : Meets QuotaView.Allowed (QuotaView.Answers config.resendDailyLimit)
        (do
          let used : Int ← redisCall (.incr tenantId (EmailRateLimit.utcDay now))
          if used = 1 then
            redisCall (.expire tenantId (EmailRateLimit.utcDay now)
              EmailRateLimit.counterTtlSeconds)
          if (config.resendDailyLimit : Int) < used then
            EmailRateLimit.giveBack tenantId (EmailRateLimit.utcDay now)
            pure (EmailQuotaDecision.mk false config.resendDailyLimit config.resendDailyLimit
              false)
          else pure (EmailQuotaDecision.mk true config.resendDailyLimit used false))
        (fun r v' => ∃ quota, r = .ok quota ∧
          (quota.allowed = true → ∃ key, v'.slot = some (.granted key)))
        { v with clock := now } := by
      refine meets_bind.mpr (meets_invoke.mpr ⟨⟨hslot, le_rfl⟩, fun r v₂ hr => ?_⟩)
      cases r with
      | error e => exact hr.elim
      | ok used =>
        obtain rfl : v₂ = ⟨some (Slot.ofCount config.resendDailyLimit
          (tenantId, EmailRateLimit.utcDay now) used), now⟩ := hr
        dsimp only
        split
        · refine meets_bind.mpr (meets_invoke.mpr ⟨⟨le_rfl, rfl⟩, fun r v₃ hr => ?_⟩)
          cases r with
          | error e => exact hr.elim
          | ok _ =>
            obtain rfl := hr
            exact decide_keepsQuota
        · exact decide_keepsQuota
    refine meets_tryCatch.mpr (hcount.mono fun r v' hr => ?_)
    obtain ⟨quota, rfl, hquota⟩ := hr
    intro quota' hr
    obtain rfl := Except.ok.inj hr
    exact hquota

/-- The mail goes out under the reservation, if at all. -/
theorem sendEmail_keepsQuota (record : AlertNotificationRecord) (recipientEmails : List String)
    {key : QuotaKey} (hkey : v.slot = some (.granted key)) :
    KeepsQuota limit (Notifier.sendEmail config record recipientEmails)
      (fun v' => v'.slot = some (.granted key) ∨ v'.slot = some (.spent key)) v := by
  unfold Notifier.sendEmail
  split
  · exact .inl hkey
  · split
    · exact .inl hkey
    · refine meets_invoke.mpr ⟨⟨key, hkey⟩, fun r v₁ hr => ?_⟩
      rcases hr with rfl | rfl
      · exact .inl hkey
      · exact .inr (by simp [hkey, Slot.spend])

/-- A release gives back what the process has. -/
theorem release_keepsQuota {tenantId : String} {slot : Slot} (hslot : v.slot = some slot)
    (hover : ∀ key, slot ≠ .overshot key) :
    KeepsQuota limit (EmailRateLimit.release config tenantId) (fun _ => True) v := by
  unfold EmailRateLimit.release
  split
  · trivial
  · refine meets_bind.mpr (meets_invoke.mpr ⟨trivial, fun r v₁ hr => ?_⟩)
    cases r with
    | error e => trivial
    | ok now =>
      obtain rfl : v₁ = { v with clock := now } := hr
      refine meets_tryCatch.mpr (Meets.mono (giveBack_keepsQuota hslot
        (fun key h => absurd h (hover key)) le_rfl) fun r _ hr => ?_)
      subst hr
      trivial

/-- **The mail within the quota.** -/
theorem attemptEmail_keepsQuota (hlimit : 0 < config.resendDailyLimit) (alertId : Nat)
    (record : AlertNotificationRecord) (p : DeliveryPlan) (hslot : v.slot = none) :
    KeepsQuota config.resendDailyLimit
      (ProcessAlertDelivery.attemptEmail config alertId record p) (fun _ => True) v := by
  unfold ProcessAlertDelivery.attemptEmail
  split
  · refine meets_bind.mpr ((reserve_keepsQuota hlimit hslot).mono fun r v₁ hr => ?_)
    cases r with
    | error e => trivial
    | ok quota =>
      dsimp only
      split
      · rename_i hallowed
        obtain ⟨key, hkey⟩ := hr quota rfl hallowed
        refine meets_tryCatch.mpr (meets_bind.mpr
          ((sendEmail_keepsQuota record _ hkey).mono fun r v₂ hv₂ => ?_))
        have hrelease : ∀ v₃ : QuotaView, v₃.slot = v₂.slot → ∀ message,
            KeepsQuota config.resendDailyLimit (do
              EmailRateLimit.release config record.alert.tenantId
              pure (["email:" ++ message], ([] : List String))) (fun _ => True) v₃ := by
          rintro v₃ hv₃ message
          refine meets_bind.mpr (Meets.mono (?_ : KeepsQuota _ _ (fun _ => True) _)
            fun r _ _ => by cases r <;> trivial)
          rcases hv₂ with hv₂ | hv₂
          · exact release_keepsQuota (hv₃.trans hv₂) nofun
          · exact release_keepsQuota (hv₃.trans hv₂) nofun
        cases r with
        | error message => exact hrelease v₂ rfl message
        | ok _ =>
          refine meets_bind.mpr ((keepsQuota_of_unmetered (write_unmetered ..)).mono
            fun r v₃ hv₃ => ?_)
          cases r with
          | error message => exact hrelease v₃ hv₃ message
          | ok _ => trivial
      · exact (keepsQuota_of_unmetered (Issues.bind (write_unmetered ..)
          fun _ => issues_pure _)).mono fun _ _ _ => trivial
  · trivial

theorem deliverChannels_keepsQuota (hlimit : 0 < config.resendDailyLimit)
    (input : DeliveryInput) (record : AlertNotificationRecord) (p : DeliveryPlan)
    (hslot : v.slot = none) :
    KeepsQuota config.resendDailyLimit
      (ProcessAlertDelivery.deliverChannels config input record p) (fun _ => True) v := by
  refine meets_bind.mpr ((keepsQuota_of_unmetered (attemptWebhook_unmetered ..)).mono
    fun r v₁ hv₁ => ?_)
  cases r with
  | error e => trivial
  | ok webhookErrors =>
    refine meets_bind.mpr ((attemptEmail_keepsQuota hlimit _ _ _ (hv₁.trans hslot)).mono
      fun r v₂ _ => ?_)
    cases r with
    | error e => trivial
    | ok emailErrors =>
      refine (keepsQuota_of_unmetered ?_).mono fun _ _ _ => trivial
      refine Issues.bind (attemptTelegram_unmetered ..) fun telegramErrors => ?_
      exact Issues.bind ((queueDigest_issues record p).mono settles_unmetered) fun _ =>
        (settle_issues p _ _).mono settles_unmetered

/-- **A delivery worker keeps to the quota.** -/
theorem execute_keepsQuota (hlimit : 0 < config.resendDailyLimit) (input : DeliveryInput)
    (hslot : v.slot = none) :
    KeepsQuota config.resendDailyLimit (ProcessAlertDelivery.execute config rt input)
      (fun _ => True) v := by
  refine meets_bind.mpr (meets_invoke.mpr ⟨trivial, fun r v₁ hr => ?_⟩)
  have hv₁ : v₁.slot = none :=
    (slot_of_unmetered (c := .alert (.findByIdForWorker _)) trivial hr).trans hslot
  cases r with
  | error e => trivial
  | ok record =>
    cases record with
    | none => trivial
    | some record =>
      refine meets_bind.mpr (meets_invoke.mpr ⟨trivial, fun r v₂ hr => ?_⟩)
      have hv₂ : v₂.slot = none :=
        (slot_of_unmetered (c := .getSettings _) trivial hr).trans hv₁
      cases r with
      | error e => trivial
      | ok settings =>
        dsimp only [ProcessAlertDelivery.process]
        split
        · exact (keepsQuota_of_unmetered (write_unmetered ..)).mono fun _ _ _ => trivial
        · refine meets_tryCatch.mpr ((deliverChannels_keepsQuota hlimit _ _ _ hv₂).mono
            fun r v₃ _ => ?_)
          cases r with
          | ok _ => trivial
          | error message =>
            refine (keepsQuota_of_unmetered ?_).mono fun _ _ _ => trivial
            exact Issues.bind (write_unmetered ..) fun _ => issues_throw' _

/-- Only delivery workers use the quota. -/
theorem unmetered_of_mayIssue {role : Role} {c : Call}
    (hrole : ∀ jobId input, role ≠ .deliveryWorker jobId input) (h : role.MayIssue c) :
    Unmetered c := by
  cases role with
  | deliveryWorker jobId input => exact absurd rfl (hrole jobId input)
  | _ =>
    unfold Unmetered
    split
    · exact h
    · exact h
    · trivial

/-- A process that starts keeps to the quota. -/
theorem launch_keepsQuota {d : Deployment} (hlimit : 0 < d.config.resendDailyLimit) {w : World}
    {a : Action} {pid : Nat} {role : Role} {prog : Program Unit}
    (h : System.Launch d w a pid role prog) (hslot : v.slot = none) :
    KeepsQuota d.config.resendDailyLimit prog (fun _ => True) v := by
  cases h with
  | tick =>
    exact (keepsQuota_of_unmetered ((scheduler_issues ..).mono fun _ hc =>
      unmetered_of_mayIssue (by simp) hc)).mono fun _ _ _ => trivial
  | request pid r =>
    exact (keepsQuota_of_unmetered ((request_issues r).mono fun _ hc =>
      unmetered_of_mayIssue (by simp) hc)).mono fun _ _ _ => trivial
  | fetch pid jobId job =>
    have hp : Issues (Role.fetchWorker jobId job.data.feedId).MayIssue
        (System.fetchProgram d job.data.feedId) :=
      Issues.bind (fetchWorker_issues ..) fun _ => issues_pure _
    exact (keepsQuota_of_unmetered (hp.mono fun _ hc =>
      unmetered_of_mayIssue (by simp) hc)).mono fun _ _ _ => trivial
  | delivery pid jobId job => exact execute_keepsQuota hlimit _ hslot

end Programs

/-! ## Mails and reservations along a run -/

/-- The reservations that are under way, and the mails that were sent under each counter. -/
structure QuotaLog where
  /-- what each process has -/
  slots : Nat → Option Slot
  /-- the mails sent under the reservations of a counter -/
  sent : QuotaKey → Nat

namespace QuotaLog

/-- Before anything has run. -/
def empty : QuotaLog := { slots := fun _ => none, sent := fun _ => 0 }

/-- What a process has changes. -/
def setSlot (l : QuotaLog) (pid : Nat) (slot : Option Slot) : QuotaLog :=
  { l with slots := Function.update l.slots pid slot }

/-- A mail is sent under what the process has. -/
def send (l : QuotaLog) (pid : Nat) : QuotaLog :=
  match l.slots pid with
  | none => l
  | some slot =>
    { slots := Function.update l.slots pid (some slot.spend)
      sent := Function.update l.sent slot.key (l.sent slot.key + 1) }

/-- A call takes effect. -/
def record (limit : Nat) (w : World) (pid : Nat) (l : QuotaLog) : Call → QuotaLog
  | .redis (.incr tenantId day) =>
    l.setSlot pid (some (.ofCount limit (tenantId, day) (w.addToCounter tenantId day 1).1))
  | .redis (.decr ..) => l.setSlot pid none
  | .net (.postEmail ..) => l.send pid
  | _ => l

/-- A step is taken; what a process has disappears with it. -/
def after (limit : Nat) (s : System) (l : QuotaLog) (a : Action) : QuotaLog :=
  match a, s.executedCall a with
  | .finish pid, _ => l.setSlot pid none
  | .crash pid, _ => l.setSlot pid none
  | _, some (pid, c) => l.record limit s.world pid c
  | _, none => l

end QuotaLog

/-- A state of the system with its log. -/
structure Metered where
  /-- the state -/
  system : System
  /-- its log -/
  log : QuotaLog

namespace Metered

open Transition

variable (d : Deployment)

/-- One step, logged. -/
def step (x : Metered) (a : Action) : Option Metered :=
  (System.step d x.system a).map fun s' =>
    { system := s', log := x.log.after d.config.resendDailyLimit x.system a }

/-- No more mails were sent under the reservations of a day than the limit. -/
def WithinQuota (x : Metered) : Prop := ∀ key, x.log.sent key ≤ d.config.resendDailyLimit

variable {d} {x x' : Metered}

/-- The step is not a failure of Redis. -/
def redisAnswers (x : Metered) : Action → Bool
  | .advance pid out =>
    match x.system.procs pid, out with
    | some ⟨_, .call (.redis _) _⟩, .ok _ => true
    | some ⟨_, .call (.redis _) _⟩, _ => false
    | _, _ => true
  | _ => true

/-- A reservation is given back only if its mail was not sent, and under the day on which it
was made; and the increment of a reservation comes no later than an hour after its day. -/
def returnsUnspent (x : Metered) (a : Action) : Bool :=
  match x.system.executedCall a with
  | some (pid, .redis (.decr tenantId day)) =>
    match x.log.slots pid with
    | some (.spent _) => false
    | some (.granted key) => key = (tenantId, day)
    | _ => true
  | some (_, .redis (.incr _ day)) => x.system.world.now < closing day
  | _ => true

theorem ok_of_redisAnswers {pid : Nat} {out : Outcome} {role : Role} {c : RedisCall}
    {k : Except String c.Reply → Program Unit}
    (h : x.redisAnswers (.advance pid out) = true)
    (hp : x.system.procs pid = some ⟨role, .call (.redis c) k⟩) : ∃ ch, out = .ok ch := by
  cases out with
  | ok ch => exact ⟨ch, rfl⟩
  | _ => simp [redisAnswers, hp] at h

theorem inTime_of_returnsUnspent {a : Action} {pid : Nat} {tenantId : String} {day : Nat}
    (h : x.returnsUnspent a = true)
    (hx : x.system.executedCall a = some (pid, .redis (.incr tenantId day))) :
    x.system.world.now < closing day := by
  simpa [returnsUnspent, hx] using h

/-- What is given back is not spent, and of the day of its reservation. -/
theorem key_of_returnsUnspent {a : Action} {pid : Nat} {tenantId : String} {day : Nat}
    {slot : Slot} (h : x.returnsUnspent a = true)
    (hx : x.system.executedCall a = some (pid, .redis (.decr tenantId day)))
    (hslot : x.log.slots pid = some slot) :
    (∀ key, slot ≠ .spent key) ∧ ∀ key, slot = .granted key → key = (tenantId, day) := by
  cases slot with
  | spent key => simp [returnsUnspent, hx, hslot] at h
  | granted key =>
    have hkey : key = (tenantId, day) := by simpa [returnsUnspent, hx, hslot] using h
    exact ⟨nofun, fun key' he => Slot.granted.inj he ▸ hkey⟩
  | overshot key => exact ⟨nofun, nofun⟩

/-! ### The invariant -/

/-- The claims on each counter are the ones of the log, and the counter counts them while its
day lasts. -/
structure Counts (limit : Nat) (x : Metered) (allowance : QuotaKey → Allowance Nat) : Prop where
  /-- no counter has let in more than the limit -/
  within : ∀ key, (allowance key).Within limit
  /-- reservations -/
  granted : ∀ key pid, pid ∈ (allowance key).granted ↔ x.log.slots pid = some (.granted key)
  /-- overshoots -/
  overshot : ∀ key pid, pid ∈ (allowance key).overshot ↔ x.log.slots pid = some (.overshot key)
  /-- mails -/
  spent : ∀ key, (allowance key).spent = x.log.sent key
  /-- counters -/
  value : ∀ key, x.system.world.now < closing key.2 →
    x.system.world.counted key = (allowance key).value

/-- What a run keeps that returns only what was not spent. -/
structure Kept (limit : Nat) (x : Metered) : Prop where
  /-- counters outlast their day -/
  lasting : x.system.world.Lasting
  /-- the counters count -/
  counts : ∃ allowance, x.Counts limit allowance
  /-- every process keeps to the quota -/
  procs : ∀ pid p, x.system.procs pid = some p → ∃ clock ≤ x.system.world.now,
    KeepsQuota limit p.prog (fun _ => True) ⟨x.log.slots pid, clock⟩
  /-- only processes have reservations -/
  idle : ∀ pid, x.system.procs pid = none → x.log.slots pid = none

theorem kept_of_init {limit : Nat} {s : System} (h : s.Init)
    (hcounters : s.world.emailCounters = []) : Kept limit ⟨s, .empty⟩ := by
  have hno : ∀ c ∈ s.world.emailCounters, False := by simp [hcounters]
  refine ⟨fun c hc => (hno c hc).elim, ⟨fun _ => .empty, ?_⟩, fun pid p hp => ?_, fun _ _ => rfl⟩
  · refine ⟨fun _ => Allowance.within_empty, fun _ _ => ?_, fun _ _ => ?_, fun _ => rfl,
      fun key _ => ?_⟩
    · simp [Allowance.empty, QuotaLog.empty]
    · simp [Allowance.empty, QuotaLog.empty]
    · simp [Allowance.empty, World.counted, World.liveCounter, hcounters]
  · rw [h.procs] at hp
    cases hp

theorem Kept.withinQuota (h : x.Kept d.config.resendDailyLimit) : x.WithinQuota d := by
  obtain ⟨allowance, hcounts⟩ := h.counts
  intro key
  rw [← hcounts.spent key]
  exact (hcounts.within key).spent_le

section Counts

variable {limit : Nat} {allowance : QuotaKey → Allowance Nat} {pid : Nat}

/-- What leaves the log and the open counters alone. -/
theorem Counts.congr (h : x.Counts limit allowance) (hlog : x'.log = x.log)
    (hvalue : ∀ key, x'.system.world.now < closing key.2 →
      x.system.world.now < closing key.2 ∧
        x'.system.world.counted key = x.system.world.counted key) :
    x'.Counts limit allowance := by
  refine ⟨h.within, ?_, ?_, ?_, fun key hopen => ?_⟩
  · simpa only [hlog] using h.granted
  · simpa only [hlog] using h.overshot
  · simpa only [hlog] using h.spent
  · obtain ⟨hopen', hsame⟩ := hvalue key hopen
    rw [hsame, h.value key hopen']

/-- A process without a slot holds nothing. -/
theorem Counts.not_holds (h : x.Counts limit allowance) (hslot : x.log.slots pid = none)
    (key : QuotaKey) : ¬ (allowance key).Holds pid := by
  rintro (hmem | hmem)
  · have := (h.granted key pid).mp hmem
    rw [hslot] at this
    cases this
  · have := (h.overshot key pid).mp hmem
    rw [hslot] at this
    cases this

/-- What a process has changes. -/
theorem Counts.update {allowance' : QuotaKey → Allowance Nat} {slot : Option Slot}
    (h : x.Counts limit allowance)
    (hslots : x'.log.slots = Function.update x.log.slots pid slot)
    (hwithin : ∀ key, (allowance' key).Within limit)
    (hothers : ∀ key p, p ≠ pid → (p ∈ (allowance' key).granted ↔ p ∈ (allowance key).granted) ∧
      (p ∈ (allowance' key).overshot ↔ p ∈ (allowance key).overshot))
    (hgranted : ∀ key, pid ∈ (allowance' key).granted ↔ slot = some (.granted key))
    (hover : ∀ key, pid ∈ (allowance' key).overshot ↔ slot = some (.overshot key))
    (hspent : ∀ key, (allowance' key).spent = x'.log.sent key)
    (hvalue : ∀ key, x'.system.world.now < closing key.2 →
      x'.system.world.counted key = (allowance' key).value) :
    x'.Counts limit allowance' := by
  refine ⟨hwithin, fun key p => ?_, fun key p => ?_, hspent, hvalue⟩
  · by_cases hp : p = pid
    · subst hp
      rw [hgranted key, hslots, Function.update_self]
    · rw [(hothers key p hp).1, hslots, Function.update_of_ne hp, h.granted key p]
  · by_cases hp : p = pid
    · subst hp
      rw [hover key, hslots, Function.update_self]
    · rw [(hothers key p hp).2, hslots, Function.update_of_ne hp, h.overshot key p]

/-- What a process has of one counter changes. -/
theorem Counts.updateAt {key : QuotaKey} {b : Allowance Nat} {slot : Option Slot}
    (h : x.Counts limit allowance)
    (hslots : x'.log.slots = Function.update x.log.slots pid slot)
    (hwithin : b.Within limit)
    (hothers : ∀ p, p ≠ pid → (p ∈ b.granted ↔ p ∈ (allowance key).granted) ∧
      (p ∈ b.overshot ↔ p ∈ (allowance key).overshot))
    (hgranted : pid ∈ b.granted ↔ slot = some (.granted key))
    (hover : pid ∈ b.overshot ↔ slot = some (.overshot key))
    (honly : ∀ key', key' ≠ key → ¬ (allowance key').Holds pid ∧
      slot ≠ some (.granted key') ∧ slot ≠ some (.overshot key'))
    (hspent : x'.log.sent = Function.update x.log.sent key b.spent)
    (hnow : x'.system.world.now = x.system.world.now)
    (hvalue : x.system.world.now < closing key.2 → x'.system.world.counted key = b.value)
    (hcounted : ∀ key', key' ≠ key →
      x'.system.world.counted key' = x.system.world.counted key') :
    x'.Counts limit (Function.update allowance key b) := by
  refine h.update hslots (fun key' => ?_) (fun key' p hp => ?_) (fun key' => ?_) (fun key' => ?_)
    (fun key' => ?_) fun key' hopen => ?_
  all_goals by_cases hkey : key' = key
  · subst hkey
    simpa using hwithin
  · simpa [hkey] using h.within key'
  · subst hkey
    simpa using hothers p hp
  · simp [hkey]
  · subst hkey
    simpa using hgranted
  · obtain ⟨hfree, hne, -⟩ := honly key' hkey
    have hmem : pid ∉ (allowance key').granted := fun hmem => hfree (.inl hmem)
    simp [hkey, hmem, hne]
  · subst hkey
    simpa using hover
  · obtain ⟨hfree, -, hne⟩ := honly key' hkey
    have hmem : pid ∉ (allowance key').overshot := fun hmem => hfree (.inr hmem)
    simp [hkey, hmem, hne]
  · subst hkey
    simp [hspent]
  · simp [hkey, hspent, h.spent key']
  · subst hkey
    rw [hnow] at hopen
    simpa using hvalue hopen
  · rw [hnow] at hopen
    simp [hkey, hcounted key' hkey, h.value key' hopen]

/-- An increment. -/
theorem Counts.incr (key : QuotaKey) (h : x.Counts limit allowance)
    (hslot : x.log.slots pid = none) (hopen : x.system.world.now < closing key.2)
    (hnow : x'.system.world.now = x.system.world.now)
    (hcounted : ∀ key', x'.system.world.counted key' =
      if key' = key then x.system.world.counted key + 1 else x.system.world.counted key')
    (hlog : x'.log = x.log.setSlot pid
      (some (.ofCount limit key (x.system.world.counted key + 1)))) :
    x'.Counts limit (Function.update allowance key ((allowance key).reserve limit pid)) := by
  have hvalue := h.value key hopen
  have hfree := h.not_holds hslot
  obtain ⟨hnotGranted, hnotOver⟩ := not_or.mp (hfree key)
  rw [hvalue] at hlog
  refine h.updateAt (congrArg QuotaLog.slots hlog) ((h.within key).reserve (hfree key))
    (fun p hp => by simp [hp]) (by simp [hnotGranted]) (by simp [hnotOver])
    (fun key' hkey => ⟨hfree key', by simp [hkey], by simp [hkey]⟩) ?_ hnow (fun _ => ?_)
    fun key' hkey => (hcounted key').trans (if_neg hkey)
  · rw [hlog, Allowance.spent_reserve, h.spent key, Function.update_eq_self]
    rfl
  · rw [hcounted key, if_pos rfl, hvalue, Allowance.value_reserve]

/-- What a process has, it holds. -/
theorem Counts.holds {slot : Slot} (h : x.Counts limit allowance)
    (hslot : x.log.slots pid = some slot) (hspent : ∀ key, slot ≠ .spent key) :
    (allowance slot.key).Holds pid ∧ ∀ key, (allowance key).Holds pid → key = slot.key := by
  cases slot with
  | spent key => exact absurd rfl (hspent key)
  | granted key =>
    refine ⟨.inl ((h.granted key pid).mpr hslot), fun key' hheld => ?_⟩
    rcases hheld with hmem | hmem
    · have heq := hslot.symm.trans ((h.granted key' pid).mp hmem)
      exact (Slot.granted.inj (Option.some.inj heq)).symm
    · cases hslot.symm.trans ((h.overshot key' pid).mp hmem)
  | overshot key =>
    refine ⟨.inr ((h.overshot key pid).mpr hslot), fun key' hheld => ?_⟩
    rcases hheld with hmem | hmem
    · cases hslot.symm.trans ((h.granted key' pid).mp hmem)
    · have heq := hslot.symm.trans ((h.overshot key' pid).mp hmem)
      exact (Slot.overshot.inj (Option.some.inj heq)).symm

/-- A claim is given back. -/
theorem Counts.decr {slot : Slot} (h : x.Counts limit allowance)
    (hslot : x.log.slots pid = some slot) (hspent : ∀ key, slot ≠ .spent key)
    (hnow : x'.system.world.now = x.system.world.now)
    (hcounted : ∀ key, x'.system.world.counted key =
      if key = slot.key then x.system.world.counted slot.key - 1
      else x.system.world.counted key)
    (hlog : x'.log = x.log.setSlot pid none) :
    x'.Counts limit
      (Function.update allowance slot.key ((allowance slot.key).giveBack pid)) := by
  obtain ⟨hheld, honly⟩ := h.holds hslot hspent
  refine h.updateAt (congrArg QuotaLog.slots hlog) ((h.within slot.key).giveBack hheld)
    (fun p hp => by simp [hp]) (by simp) (by simp)
    (fun key hkey => ⟨fun hheld' => hkey (honly key hheld'), nofun, nofun⟩) ?_ hnow
    (fun hopen => ?_) fun key hkey => (hcounted key).trans (if_neg hkey)
  · rw [hlog]
    simp [QuotaLog.setSlot, Allowance.giveBack, h.spent slot.key]
  · rw [hcounted slot.key, if_pos rfl, h.value slot.key hopen]
    rfl

/-- A mail is sent. -/
theorem Counts.send {key : QuotaKey} (h : x.Counts limit allowance)
    (hslot : x.log.slots pid = some (.granted key))
    (hworld : x'.system.world = x.system.world) (hlog : x'.log = x.log.send pid) :
    x'.Counts limit (Function.update allowance key ((allowance key).spend pid)) := by
  have hslots : x'.log.slots = Function.update x.log.slots pid (some (.spent key)) := by
    simp [hlog, QuotaLog.send, hslot, Slot.spend]
  have hsent : x'.log.sent = Function.update x.log.sent key (x.log.sent key + 1) := by
    simp [hlog, QuotaLog.send, hslot, Slot.key]
  have hmem : pid ∈ (allowance key).granted := (h.granted key pid).mpr hslot
  have hdisjoint : pid ∉ (allowance key).overshot :=
    Finset.disjoint_left.mp (h.within key).disjoint hmem
  obtain ⟨-, honly⟩ := h.holds hslot nofun
  refine h.updateAt hslots ((h.within key).spend hmem)
    (fun p hp => by simp [hp, Allowance.spend]) (by simp) (by simp [Allowance.spend, hdisjoint])
    (fun key' hkey => ⟨fun hheld' => hkey (honly key' hheld'), nofun, nofun⟩) ?_ (by rw [hworld])
    (fun hopen => ?_) fun key' _ => by rw [hworld]
  · rw [hsent, ← h.spent key]
    rfl
  · rw [hworld, h.value key hopen]
    rfl

/-- A process disappears. -/
theorem Counts.drop (h : x.Counts limit allowance)
    (hlog : x'.log = x.log.setSlot pid none)
    (hvalue : ∀ key, x'.system.world.now < closing key.2 →
      x.system.world.now < closing key.2 ∧
        x'.system.world.counted key = x.system.world.counted key) :
    x'.Counts limit fun key => (allowance key).drop pid := by
  have hslots : x'.log.slots = Function.update x.log.slots pid none := by
    rw [hlog]
    rfl
  refine h.update hslots (fun key => (h.within key).drop pid) (fun key p hp => ?_)
    (fun key => ?_) (fun key => ?_) (fun key => ?_) fun key hopen => ?_
  · simp [hp]
  · simp
  · simp
  · rw [hlog]
    exact h.spent key
  · obtain ⟨hopen', hsame⟩ := hvalue key hopen
    rw [hsame]
    exact h.value key hopen'

end Counts

/-! ### Steps -/

section Steps

variable {limit : Nat} {pid : Nat}

/-- What the answer of a call makes of the state, and of the view of its process. -/
structure Advanced (limit : Nat) (x x' : Metered) (pid : Nat) (v : QuotaView) (c : Call)
    (r : Except String c.Reply) : Prop where
  /-- counters outlast their day -/
  lasting : x'.system.world.Lasting
  /-- the counters count -/
  counts : ∃ allowance, x'.Counts limit allowance
  /-- time does not run backwards -/
  now : x'.system.world.now = x.system.world.now
  /-- the process sees an answer that it can expect -/
  view : ∃ clock ≤ x'.system.world.now,
    QuotaView.Answers limit v c r ⟨x'.log.slots pid, clock⟩
  /-- the other processes keep what they have -/
  others : ∀ q, q ≠ pid → x'.log.slots q = x.log.slots q

/-- The log after an answer. -/
theorem after_advance {limit : Nat} {s : System} {l : QuotaLog} {out : Outcome} {role : Role}
    {c : Call} {k : Except String c.Reply → Program Unit}
    (hp : s.procs pid = some ⟨role, .call c k⟩) :
    l.after limit s (.advance pid out) =
      if out.takesEffect then l.record limit s.world pid c else l := by
  cases out <;> simp [QuotaLog.after, System.executedCall, hp, Outcome.takesEffect]

theorem record_of_unmetered {w : World} {l : QuotaLog} {c : Call} (h : Unmetered c) :
    l.record limit w pid c = l := by
  unfold QuotaLog.record
  split
  all_goals first | rfl | exact h.elim

/-- Calls leave the clock alone, and the counters unless they are about them. -/
theorem counters_effect {w w' : World} {c : Call} (h : CallEffect pid w c w') :
    w'.now = w.now ∧ (Unmetered c → w'.emailCounters = w.emailCounters) := by
  cases h with
  | counters c counters => exact ⟨rfl, fun hc => hc.elim⟩
  | commit =>
    unfold World.commitTxn
    split <;> exact ⟨rfl, fun _ => rfl⟩
  | _ => exact ⟨rfl, fun _ => rfl⟩

theorem counters_answer {w w' : World} {out : Outcome} {c : Call} {r : Except String c.Reply}
    (ha : c.answer pid w out = some (r, w')) (hc : Unmetered c) :
    w'.now = w.now ∧ w'.emailCounters = w.emailCounters := by
  rcases Call.answer_eq_some ha with ⟨error, -, rfl, -⟩ | ⟨ch, x, hserve, -⟩
  · exact ⟨rfl, rfl⟩
  · have heffect := counters_effect (serve_effect hserve)
    exact ⟨heffect.1, heffect.2 hc⟩

/-- The clock shows the time; no other answer matters to the view. -/
theorem view_of_unmetered {w w' : World} {out : Outcome} {c : Call} {r : Except String c.Reply}
    {slot : Option Slot} {clock : Nat} (hc : Unmetered c)
    (ha : c.answer pid w out = some (r, w')) (hclock : clock ≤ w.now) :
    ∃ clock' ≤ w.now, QuotaView.Answers limit ⟨slot, clock⟩ c r ⟨slot, clock'⟩ := by
  unfold QuotaView.Answers
  split
  · rename_i now
    obtain ⟨ch, -, hserve⟩ := Call.serve_of_ok ha
    obtain rfl : w.now = now := (Prod.mk.inj (Option.some.inj hserve)).1
    exact ⟨w.now, le_rfl, rfl⟩
  all_goals first | exact hc.elim | exact ⟨clock, hclock, rfl⟩

theorem counted_congr {w w' : World} (hcounters : w'.emailCounters = w.emailCounters)
    (hnow : w'.now = w.now) (key : QuotaKey) : w'.counted key = w.counted key := by
  unfold World.counted World.liveCounter
  rw [hcounters, hnow]

theorem lasting_congr {w w' : World} (hcounters : w'.emailCounters = w.emailCounters)
    (h : w.Lasting) : w'.Lasting := by
  unfold World.Lasting
  rw [hcounters]
  exact h

/-- A call that is not about the quota. -/
theorem advanced_of_unmetered {out : Outcome} {role : Role} {c : Call}
    {k : Except String c.Reply → Program Unit} {r : Except String c.Reply} {w : World}
    (hx : x.Kept limit) (hp : x.system.procs pid = some ⟨role, .call c k⟩)
    (ha : c.answer pid x.system.world out = some (r, w)) (hc : Unmetered c)
    {clock : Nat} (hclock : clock ≤ x.system.world.now)
    (hworld : x'.system.world = w)
    (hlog : x'.log = x.log.after limit x.system (.advance pid out)) :
    Advanced limit x x' pid ⟨x.log.slots pid, clock⟩ c r := by
  obtain ⟨hnow, hcounters⟩ := counters_answer ha hc
  obtain ⟨allowance, hcounts⟩ := hx.counts
  have hsame : x'.log = x.log := by
    rw [hlog, after_advance hp, record_of_unmetered hc, ite_self]
  subst hworld
  refine ⟨lasting_congr hcounters hx.lasting, ⟨allowance, hcounts.congr hsame fun key hopen => ?_⟩,
    hnow, ?_, fun q _ => by rw [hsame]⟩
  · rw [hnow] at hopen
    exact ⟨hopen, counted_congr hcounters hnow key⟩
  · rw [hsame, hnow]
    exact view_of_unmetered hc ha hclock

/-- A mail. -/
theorem advanced_of_postEmail {out : Outcome} {role : Role} {recipients : List String}
    {record : AlertNotificationRecord}
    {k : Except String (NetCall.postEmail recipients record).Reply → Program Unit}
    {r : Except String (NetCall.postEmail recipients record).Reply} {w : World}
    (hx : x.Kept limit)
    (hp : x.system.procs pid = some ⟨role, .call (.net (.postEmail recipients record)) k⟩)
    (ha : (Call.net (.postEmail recipients record)).answer pid x.system.world out = some (r, w))
    {clock : Nat} (hclock : clock ≤ x.system.world.now)
    (hallowed : QuotaView.Allowed ⟨x.log.slots pid, clock⟩ (.net (.postEmail recipients record)))
    (hworld : x'.system.world = w)
    (hlog : x'.log = x.log.after limit x.system (.advance pid out)) :
    Advanced limit x x' pid ⟨x.log.slots pid, clock⟩ (.net (.postEmail recipients record)) r := by
  obtain ⟨key, hslot⟩ := hallowed
  change x.log.slots pid = some (.granted key) at hslot
  obtain ⟨allowance, hcounts⟩ := hx.counts
  have hsame : w = x.system.world := by
    rcases Call.answer_eq_some ha with ⟨error, -, rfl, -⟩ | ⟨ch, y, hserve, -⟩
    · rfl
    · simp only [Call.serve, NetCall.serve, Option.map_some, Option.some.injEq,
        Prod.mk.injEq] at hserve
      exact hserve.2.symm
  subst hsame
  rw [after_advance hp] at hlog
  by_cases htakes : out.takesEffect = true
  · -- the mail is sent
    rw [if_pos htakes] at hlog
    change x'.log = x.log.send pid at hlog
    have hspent : x'.log.slots pid = some (.spent key) := by
      simp [hlog, QuotaLog.send, hslot, Slot.spend]
    refine ⟨hworld ▸ hx.lasting, ⟨_, hcounts.send hslot hworld hlog⟩, by rw [hworld],
      ⟨clock, by rwa [hworld], .inr ?_⟩, fun q hq => ?_⟩
    · simp [hspent, hslot, Slot.spend]
    · simp [hlog, QuotaLog.send, hslot, hq]
  · -- it is not
    rw [if_neg htakes] at hlog
    refine ⟨hworld ▸ hx.lasting, ⟨allowance, hcounts.congr hlog fun key' hopen => ?_⟩,
      by rw [hworld], ⟨clock, by rwa [hworld], .inl ?_⟩, fun q _ => by rw [hlog]⟩
    · rw [hworld] at hopen ⊢
      exact ⟨hopen, rfl⟩
    · rw [hlog]

/-- A Redis command. -/
theorem advanced_of_redis {out : Outcome} {role : Role} {c : RedisCall}
    {k : Except String c.Reply → Program Unit} {r : Except String c.Reply} {w : World}
    (hx : x.Kept limit) (hp : x.system.procs pid = some ⟨role, .call (.redis c) k⟩)
    (ha : (Call.redis c).answer pid x.system.world out = some (r, w))
    (hredis : x.redisAnswers (.advance pid out) = true)
    (hreturns : x.returnsUnspent (.advance pid out) = true)
    {clock : Nat} (hclock : clock ≤ x.system.world.now)
    (hallowed : QuotaView.Allowed ⟨x.log.slots pid, clock⟩ (.redis c))
    (hworld : x'.system.world = w)
    (hlog : x'.log = x.log.after limit x.system (.advance pid out)) :
    Advanced limit x x' pid ⟨x.log.slots pid, clock⟩ (.redis c) r := by
  obtain ⟨ch, rfl⟩ := ok_of_redisAnswers hredis hp
  simp only [Call.answer, Call.serve, Option.map_some, Option.some.injEq, Prod.mk.injEq] at ha
  obtain ⟨rfl, rfl⟩ := ha
  have hexec : x.system.executedCall (.advance pid (.ok ch)) = some (pid, .redis c) := by
    simp [System.executedCall, hp, Outcome.takesEffect]
  rw [after_advance hp] at hlog
  change x'.log = x.log.record limit x.system.world pid (.redis c) at hlog
  obtain ⟨allowance, hcounts⟩ := hx.counts
  cases c with
  | incr tenantId day =>
    obtain ⟨hslot, -⟩ := hallowed
    change x.log.slots pid = none at hslot
    obtain ⟨hvalue, hlasting, hnow, hcounted⟩ :=
      hx.lasting.addToCounter tenantId day 1
    change x'.log = x.log.setSlot pid (some (.ofCount limit (tenantId, day)
      (x.system.world.addToCounter tenantId day 1).1)) at hlog
    change x'.system.world = (x.system.world.addToCounter tenantId day 1).2 at hworld
    -- the day is still open, so the place that is taken is one of that day
    have hopen : x.system.world.now < closing day := inTime_of_returnsUnspent hreturns hexec
    have hcounts' := Counts.incr (tenantId, day) hcounts hslot hopen
      (by rw [hworld, hnow]) (by rw [hworld]; exact hcounted) (by rw [hlog, hvalue])
    refine ⟨hworld ▸ hlasting, ⟨_, hcounts'⟩, by rw [hworld, hnow],
      ⟨clock, by rwa [hworld, hnow], ?_⟩, fun q hq => ?_⟩
    · simp [QuotaView.Answers, hlog, QuotaLog.setSlot, RedisCall.serve]
    · simp [hlog, QuotaLog.setSlot, hq]
  | decr tenantId day =>
    obtain ⟨hsome, hover⟩ := hallowed
    obtain ⟨slot, hslot⟩ := Option.ne_none_iff_exists'.mp hsome
    change x.log.slots pid = some slot at hslot
    obtain ⟨hspent, hgranted⟩ := key_of_returnsUnspent hreturns hexec hslot
    -- what is given back is what was taken
    have hkey : slot.key = (tenantId, day) := by
      cases slot with
      | overshot key => exact hover key hslot
      | granted key => exact hgranted key rfl
      | spent key => exact absurd rfl (hspent key)
    obtain ⟨-, hlasting, hnow, hcounted⟩ :=
      hx.lasting.addToCounter tenantId day (-1)
    change x'.log = x.log.setSlot pid none at hlog
    change x'.system.world = (x.system.world.addToCounter tenantId day (-1)).2 at hworld
    have hcounts' := hcounts.decr hslot hspent (by rw [hworld, hnow])
      (by rw [hworld, hkey]; exact hcounted) hlog
    refine ⟨hworld ▸ hlasting, ⟨_, hcounts'⟩, by rw [hworld, hnow],
      ⟨clock, by rwa [hworld, hnow], ?_⟩, fun q hq => ?_⟩
    · simp [QuotaView.Answers, hlog, QuotaLog.setSlot]
    · simp [hlog, QuotaLog.setSlot, hq]
  | expire tenantId day ttlSeconds =>
    obtain ⟨hday, rfl⟩ := hallowed
    -- the counter lives longer than its day, so it does not expire while that is open
    have hpast : day * 86400000 ≤ x.system.world.now := by
      have hle : day ≤ x.system.world.now / 86400000 :=
        le_trans hday (Nat.div_le_div_right hclock)
      exact (Nat.le_div_iff_mul_le (by decide)).mp hle
    obtain ⟨hlasting, hnow, hcounted⟩ :=
      hx.lasting.expireCounter tenantId (by decide)
        (Nat.add_le_add_right hpast _)
    change x'.log = x.log at hlog
    change x'.system.world = x.system.world.expireCounter tenantId day
      EmailRateLimit.counterTtlSeconds at hworld
    refine ⟨hworld ▸ hlasting, ⟨allowance, hcounts.congr hlog fun key hopen => ?_⟩,
      by rw [hworld, hnow], ⟨clock, by rwa [hworld, hnow], ?_⟩, fun q _ => by rw [hlog]⟩
    · rw [hworld, hnow] at hopen
      rw [hworld]
      exact ⟨hopen, hcounted key⟩
    · rw [hlog]
      rfl

/-- **An answer keeps the count.** -/
theorem kept_of_advance {out : Outcome} {s' : System} (hx : x.Kept limit)
    (hredis : x.redisAnswers (.advance pid out) = true)
    (hreturns : x.returnsUnspent (.advance pid out) = true)
    (h : System.step d x.system (.advance pid out) = some s') :
    Kept limit ⟨s', x.log.after limit x.system (.advance pid out)⟩ := by
  obtain ⟨role, c, k, r, w, hp, ha, rfl⟩ := System.advance_eq_some h
  obtain ⟨clock, hclock, hallowed, hnext⟩ := hx.procs pid _ hp
  have hadvanced : Advanced limit x
      ⟨{ world := w, procs := System.setProc x.system.procs pid (some ⟨role, k r⟩) },
        x.log.after limit x.system (.advance pid out)⟩ pid ⟨x.log.slots pid, clock⟩ c r := by
    by_cases hc : Unmetered c
    · exact advanced_of_unmetered hx hp ha hc hclock rfl rfl
    · cases c with
      | redis c => exact advanced_of_redis hx hp ha hredis hreturns hclock hallowed rfl rfl
      | net c =>
        cases c with
        | postEmail recipients record =>
          exact advanced_of_postEmail hx hp ha hclock hallowed rfl rfl
        | _ => exact absurd trivial hc
      | _ => exact absurd trivial hc
  obtain ⟨clock', hclock', hview⟩ := hadvanced.view
  refine ⟨hadvanced.lasting, hadvanced.counts, fun q p hq => ?_, fun q hq => ?_⟩
  · by_cases hne : q = pid
    · subst hne
      obtain rfl : (⟨role, k r⟩ : Process) = p := by simpa [System.setProc] using hq
      exact ⟨clock', hclock', hnext r _ hview⟩
    · obtain ⟨clock'', hle, hkeeps⟩ := hx.procs q p (by simpa [System.setProc, hne] using hq)
      rw [hadvanced.others q hne]
      exact ⟨clock'', hle.trans hadvanced.now.ge, hkeeps⟩
  · by_cases hne : q = pid
    · subst hne
      simp [System.setProc] at hq
    · rw [hadvanced.others q hne]
      exact hx.idle q (by simpa [System.setProc, hne] using hq)

/-- A step without a call leaves the open counters alone. -/
theorem quiet_counters {w w' : World} (h : System.QuietStep w w') (hw : w.Lasting) :
    w'.Lasting ∧ w.now ≤ w'.now ∧ ∀ key : QuotaKey, w'.now < closing key.2 →
      w.now < closing key.2 ∧ w'.counted key = w.counted key := by
  cases h with
  | elapse ms =>
    refine ⟨hw, Nat.le_add_right .., fun key hopen => ⟨?_, World.counted_elapse hw hopen⟩⟩
    exact lt_of_le_of_lt (Nat.le_add_right ..) hopen
  | _ => exact ⟨hw, le_rfl, fun key hopen => ⟨hopen, rfl⟩⟩

/-- A process that is still there goes on as before. -/
theorem Kept.of_quiet (hx : x.Kept limit)
    (hq : System.QuietStep x.system.world x'.system.world)
    (hcounts : ∃ allowance, x'.Counts limit allowance)
    (hprocs : ∀ q p, x'.system.procs q = some p →
      (x.system.procs q = some p ∧ x'.log.slots q = x.log.slots q) ∨
        KeepsQuota limit p.prog (fun _ => True) ⟨x'.log.slots q, 0⟩)
    (hidle : ∀ q, x'.system.procs q = none → x'.log.slots q = none) : x'.Kept limit := by
  obtain ⟨hlasting, hnow, -⟩ := quiet_counters hq hx.lasting
  refine ⟨hlasting, hcounts, fun q p hp => ?_, hidle⟩
  rcases hprocs q p hp with ⟨hp', hsame⟩ | hkeeps
  · obtain ⟨clock, hclock, hkeeps⟩ := hx.procs q p hp'
    exact ⟨clock, hclock.trans hnow, hsame ▸ hkeeps⟩
  · exact ⟨0, Nat.zero_le _, hkeeps⟩

/-- The start of a process. -/
theorem kept_of_launch {a : Action} {role : Role} {prog : Program Unit}
    (hlimit : 0 < d.config.resendDailyLimit) (hx : x.Kept d.config.resendDailyLimit)
    (hq : System.QuietStep x.system.world x'.system.world)
    (hl : System.Launch d x.system.world a pid role prog) (hfree : x.system.procs pid = none)
    (hprocs : x'.system.procs = System.setProc x.system.procs pid (some ⟨role, prog⟩))
    (hlog : x'.log = x.log) : x'.Kept d.config.resendDailyLimit := by
  obtain ⟨allowance, hcounts⟩ := hx.counts
  refine hx.of_quiet hq ⟨allowance, hcounts.congr hlog (quiet_counters hq hx.lasting).2.2⟩
    (fun q p hp => ?_) fun q hp => ?_
  · rw [hprocs] at hp
    by_cases hne : q = pid
    · subst hne
      obtain rfl : (⟨role, prog⟩ : Process) = p := by simpa [System.setProc] using hp
      exact .inr (launch_keepsQuota hlimit hl (by rw [hlog]; exact hx.idle q hfree))
    · exact .inl ⟨by simpa [System.setProc, hne] using hp, by rw [hlog]⟩
  · rw [hprocs] at hp
    rw [hlog]
    refine hx.idle q ?_
    by_cases hne : q = pid
    · subst hne
      exact hfree
    · simpa [System.setProc, hne] using hp

/-- The end of a process. -/
theorem kept_of_leave (hx : x.Kept limit)
    (hq : System.QuietStep x.system.world x'.system.world)
    (hprocs : x'.system.procs = System.setProc x.system.procs pid none)
    (hlog : x'.log = x.log.setSlot pid none) : x'.Kept limit := by
  obtain ⟨allowance, hcounts⟩ := hx.counts
  refine hx.of_quiet hq ⟨_, hcounts.drop hlog (quiet_counters hq hx.lasting).2.2⟩
    (fun q p hp => ?_) fun q hp => ?_
  · rw [hprocs] at hp
    by_cases hne : q = pid
    · subst hne
      simp [System.setProc] at hp
    · exact .inl ⟨by simpa [System.setProc, hne] using hp, by simp [hlog, QuotaLog.setSlot, hne]⟩
  · by_cases hne : q = pid
    · subst hne
      simp [hlog, QuotaLog.setSlot]
    · rw [hprocs] at hp
      have hslot := hx.idle q (by simpa [System.setProc, hne] using hp)
      simpa [hlog, QuotaLog.setSlot, hne] using hslot

/-- A step that concerns no process. -/
theorem kept_of_stay (hx : x.Kept limit)
    (hq : System.QuietStep x.system.world x'.system.world)
    (hprocs : x'.system.procs = x.system.procs) (hlog : x'.log = x.log) : x'.Kept limit := by
  obtain ⟨allowance, hcounts⟩ := hx.counts
  refine hx.of_quiet hq ⟨allowance, hcounts.congr hlog (quiet_counters hq hx.lasting).2.2⟩
    (fun q p hp => .inl ⟨hprocs ▸ hp, by rw [hlog]⟩) fun q hp => ?_
  rw [hlog]
  exact hx.idle q (hprocs ▸ hp)

/-- **What a step keeps that gives back only what was not spent.** -/
theorem kept_step {a : Action} (hlimit : 0 < d.config.resendDailyLimit)
    (hx : x.Kept d.config.resendDailyLimit) (hredis : x.redisAnswers a = true)
    (hreturns : x.returnsUnspent a = true) (h : step d x a = some x') :
    x'.Kept d.config.resendDailyLimit := by
  obtain ⟨s', hs, rfl⟩ := Option.map_eq_some_iff.mp h
  have hquiet : x.system.executedCall a = none → System.QuietStep x.system.world s'.world := by
    intro hnone
    rcases System.step_effect hs with ⟨pid, c, ch, r, hx, -⟩ | ⟨-, hq⟩
    · rw [hnone] at hx
      cases hx
    · exact hq
  cases a with
  | advance pid out => exact kept_of_advance hx hredis hreturns hs
  | tick pid =>
    obtain ⟨hfree, rfl⟩ := System.start_eq_some hs
    exact kept_of_launch hlimit hx (hquiet rfl) (.tick pid) hfree rfl rfl
  | request pid r =>
    obtain ⟨hfree, rfl⟩ := System.start_eq_some hs
    exact kept_of_launch hlimit hx (hquiet rfl) (.request pid r) hfree rfl rfl
  | takeFetch pid jobId =>
    obtain ⟨job, q, ht, hfree, rfl⟩ := System.takeFetch_eq_some hs
    exact kept_of_launch hlimit hx (hquiet rfl)
      (.fetch pid jobId job (JobQueue.take_eq_some ht).1) hfree rfl rfl
  | takeDelivery pid jobId =>
    obtain ⟨job, q, ht, hfree, rfl⟩ := System.takeDelivery_eq_some hs
    exact kept_of_launch hlimit hx (hquiet rfl)
      (.delivery pid jobId job (JobQueue.take_eq_some ht).1) hfree rfl rfl
  | finish pid =>
    obtain ⟨role, prog, -, ⟨-, rfl⟩ | ⟨e, -, rfl⟩⟩ := System.finish_eq_some hs
    · exact kept_of_leave hx (hquiet rfl) rfl rfl
    · exact kept_of_leave hx (hquiet rfl) rfl rfl
  | crash pid =>
    obtain ⟨p, -, rfl⟩ := System.crash_eq_some hs
    exact kept_of_leave hx (hquiet rfl) rfl rfl
  | elapse ms =>
    obtain rfl := Option.some.inj hs
    exact kept_of_stay hx (hquiet rfl) rfl rfl
  | promoteFetch jobId =>
    obtain ⟨q, hq, rfl⟩ := Option.map_eq_some_iff.mp hs
    exact kept_of_stay hx (hquiet rfl) rfl rfl
  | promoteDelivery jobId =>
    obtain ⟨q, hq, rfl⟩ := Option.map_eq_some_iff.mp hs
    exact kept_of_stay hx (hquiet rfl) rfl rfl
  | stallFetch jobId =>
    obtain ⟨q, hq, rfl⟩ := Option.map_eq_some_iff.mp hs
    exact kept_of_stay hx (hquiet rfl) rfl rfl
  | stallDelivery jobId =>
    obtain ⟨q, hq, rfl⟩ := Option.map_eq_some_iff.mp hs
    exact kept_of_stay hx (hquiet rfl) rfl rfl
  | saveSettings row =>
    obtain rfl := Option.some.inj hs
    exact kept_of_stay hx (hquiet rfl) rfl rfl

end Steps

/-- **The quota holds along every run that gives back only what was not spent.** For every
tenant and UTC day, no more mails are sent under the reservations of the day than the
limit. -/
theorem quota_kept {s₀ : System} {as : List Action} (hlimit : 0 < d.config.resendDailyLimit)
    (h₀ : s₀.Init) (hcounters : s₀.world.emailCounters = [])
    (hredis : Along (step d) (fun x a _ => x.redisAnswers a = true) ⟨s₀, .empty⟩ as)
    (hreturns : Along (step d) (fun x a _ => x.returnsUnspent a = true) ⟨s₀, .empty⟩ as) :
    Always (step d) (WithinQuota d) ⟨s₀, .empty⟩ as := by
  have hboth := hredis.and hreturns
  have hstep : ∀ x a x', Kept d.config.resendDailyLimit x → step d x a = some x' →
      x.redisAnswers a = true ∧ x.returnsUnspent a = true → Kept d.config.resendDailyLimit x' :=
    fun _ _ _ hx h hC => kept_step hlimit hx hC.1 hC.2 h
  exact (always_of_along hstep (kept_of_init h₀ hcounters) hboth).mono fun _ hx =>
    hx.withinQuota

/-- A deployment that sends one mail a day for each tenant, and uses no other channel. -/
def mailDeployment : Deployment :=
  { System.webhookDeployment with
    config :=
      { System.webhookDeployment.config with
        webhookNotifierUrl := none
        resendApiKey := some "re_key"
        resendFromEmail := some "alerts@feeds.example"
        resendDailyLimit := 1 } }

/-- The tenant wants mails. -/
def mailRow : TenantSettingsRow :=
  { tenantId := "t"
    webhookNotifierUrl := none
    recipientEmails := ["ops@feeds.example"]
    telegramChatIds := []
    telegramDeliveryMode := .instant
    telegramBotTokenCiphertext := none
    telegramBotTokenIv := none
    telegramBotTokenTag := none
    telegramBotTokenKeyVersion := none }

/-- An alert of the tenant is handed to delivery, and a worker sends its mail. -/
def mailAlert : List Action :=
  .saveSettings mailRow :: System.ingestArticle ++
    .takeDelivery 3 "alert-1" :: System.proceed 3 6

theorem quota_kept_mailAlert :
    0 < mailDeployment.config.resendDailyLimit ∧ System.oneFeed.Init ∧
      System.oneFeed.world.emailCounters = [] ∧
      Along (step mailDeployment) (fun x a _ => x.redisAnswers a = true)
        ⟨System.oneFeed, .empty⟩ mailAlert ∧
      Along (step mailDeployment) (fun x a _ => x.returnsUnspent a = true)
        ⟨System.oneFeed, .empty⟩ mailAlert ∧
      Always (step mailDeployment) (WithinQuota mailDeployment)
        ⟨System.oneFeed, .empty⟩ mailAlert := by
  have hredis : Along (step mailDeployment) (fun x a _ => x.redisAnswers a = true)
      ⟨System.oneFeed, .empty⟩ mailAlert := by decide +kernel
  have hreturns : Along (step mailDeployment) (fun x a _ => x.returnsUnspent a = true)
      ⟨System.oneFeed, .empty⟩ mailAlert := by decide +kernel
  exact ⟨by decide, System.oneFeed_init, rfl, hredis, hreturns,
    quota_kept (by decide) System.oneFeed_init rfl hredis hreturns⟩

/-- The mail is sent, but the channel cannot be marked delivered; the job is retried. -/
def retryAfterMail : List Action :=
  mailAlert ++ .advance 3 (.refused "connection terminated") :: System.proceed 3 4 ++
    [.finish 3, .promoteDelivery "alert-1", .takeDelivery 4 "alert-1"] ++ System.proceed 4 6

/-- **The reservation of a mail that was sent is given back**, and a second mail goes out on
the same day under a limit of one. -/
theorem mail_sent_twice :
    0 < mailDeployment.config.resendDailyLimit ∧ System.oneFeed.Init ∧
      System.oneFeed.world.emailCounters = [] ∧
      Along (step mailDeployment) (fun x a _ => x.redisAnswers a = true)
        ⟨System.oneFeed, .empty⟩ retryAfterMail ∧
      ¬ Always (step mailDeployment) (WithinQuota mailDeployment)
        ⟨System.oneFeed, .empty⟩ retryAfterMail := by
  refine ⟨by decide, System.oneFeed_init, rfl, by decide +kernel, fun h => ?_⟩
  have hrun : (run (step mailDeployment) ⟨System.oneFeed, .empty⟩ retryAfterMail).map
      (fun x => x.log.sent ("t", 0)) = some 2 := by decide +kernel
  obtain ⟨x, hx, hsent⟩ := Option.map_eq_some_iff.mp hrun
  have hle : x.log.sent ("t", 0) ≤ 1 := h.last hx ("t", 0)
  omega

end Metered

end Feedpulse
