import Feedpulse.RelinkDigests
import Feedpulse.Delivery
import Feedpulse.System

/-!
# Whether migration 0018 makes delivered articles deliverable again

The survivor of a group is its oldest alert, delivered or not. Where a younger alert has been
delivered and the oldest has not, the migration deletes the record of the delivery
(`delivered_alert_lost`); `migrate_stays_delivered` says for which tables that does not happen.
-/

namespace Feedpulse

/-- The channel is attempted, or the alert queued for its digest. -/
def DeliveryPlan.servesChannel (p : DeliveryPlan) : DeliveryChannel → Bool
  | .webhook => p.shouldAttemptWebhook
  | .telegram => p.shouldSendTelegram || p.shouldQueueTelegramDigest
  | .email => p.shouldAttemptEmail

namespace AlertRelink

open AlertUpsert

variable {canonicalize : Option String → Option String} {t t' : AlertTables}

/-! ## The paths on which an alert is delivered -/

/-- A request to send the alert is answered with `already_sent`. -/
def ManualRefused (a : AlertRow) : Prop :=
  ∀ e r, DeliverAlert.deliver a.id .manual (World.mapAlert a e r) = pure .alreadySent

/-- No attempt of the worker tries the channel. -/
def WorkerSpares (a : AlertRow) (c : DeliveryChannel) : Prop :=
  ∀ config rt settings,
    (ProcessAlertDelivery.plan config rt a settings).servesChannel c = false

/-- No sweep finds a due digest item of the alert. -/
def SweepSpares (t : AlertTables) (a : AlertRow) : Prop :=
  ∀ w : World, w.entries = t.entries → w.alerts = t.alerts → w.digestItems = t.digestItems →
    ∀ nowIso tenantId chatId, ∀ v ∈ w.dueGroupItems nowIso tenantId chatId, v.alertId ≠ a.id

theorem manualRefused_iff {a : AlertRow} : ManualRefused a ↔ a.sent = true := by
  have hmap : ∀ e r, (World.mapAlert a e r).alert.sent = a.sent := by
    intro e r
    unfold World.mapAlert
    dsimp only
    split <;> rfl
  constructor
  · intro h
    have hdeliver := h (article 1 "https://h/a")
      { id := 1, tenantId := "t", name := "go", includeKeywords := [], excludeKeywords := [],
        isActive := true }
    unfold DeliverAlert.deliver at hdeliver
    rw [hmap] at hdeliver
    rcases hs : a.sent with _ | _
    · rw [hs] at hdeliver
      cases hdeliver
    · rfl
  · intro h e r
    unfold DeliverAlert.deliver
    rw [hmap, h]
    rfl

/-- A deployment that uses every channel. -/
def everyChannel : AppConfig :=
  { System.webhookDeployment.config with
    resendApiKey := some "key"
    resendFromEmail := some "alerts@h"
    telegramBotToken := some "123:shared" }

/-- A tenant that uses every channel. -/
def everyDestination : TenantSettings :=
  { tenantId := "t"
    webhookNotifierUrl := none
    recipientEmails := ["me@h"]
    telegramChatIds := ["100"]
    telegramDeliveryMode := .instant
    telegramBotTokenEncrypted := none }

/-- A delivered channel is not attempted, whatever the settings are. -/
theorem servesChannel_of_sent (config : AppConfig) (rt : Runtime)
    (settings : Option TenantSettings) {a : AlertRow} {c : DeliveryChannel}
    (h : a.channelStatus c = .sent) :
    (ProcessAlertDelivery.plan config rt a settings).servesChannel c = false := by
  cases c with
  | webhook =>
    have hs : a.webhookDeliveryStatus = .sent := h
    simp [ProcessAlertDelivery.plan, DeliveryPlan.servesChannel, hs]
  | telegram =>
    have hs : a.telegramDeliveryStatus = .sent := h
    simp [ProcessAlertDelivery.plan, DeliveryPlan.servesChannel, hs]
  | email =>
    have hs : a.emailDeliveryStatus = .sent := h
    simp [ProcessAlertDelivery.plan, DeliveryPlan.servesChannel, hs]

/-- Where every channel is in use, one that is not delivered is attempted. -/
theorem servesChannel_everyChannel {a : AlertRow} {c : DeliveryChannel}
    (h : a.channelStatus c ≠ .sent) :
    (ProcessAlertDelivery.plan everyChannel System.webhookDeployment.rt a
      (some everyDestination)).servesChannel c = true := by
  cases c with
  | webhook =>
    have hs : a.webhookDeliveryStatus ≠ .sent := h
    exact decide_eq_true hs
  | telegram =>
    have hs : a.telegramDeliveryStatus ≠ .sent := h
    change (decide _ || _) = true
    rw [decide_eq_true hs, Bool.true_or]
  | email =>
    have hs : a.emailDeliveryStatus ≠ .sent := h
    exact decide_eq_true hs

theorem workerSpares_iff {a : AlertRow} {c : DeliveryChannel} :
    WorkerSpares a c ↔ a.channelStatus c = .sent := by
  constructor
  · intro h
    by_contra hs
    have hplan := h everyChannel System.webhookDeployment.rt (some everyDestination)
    rw [servesChannel_everyChannel hs] at hplan
    cases hplan
  · exact fun h config rt settings => servesChannel_of_sent config rt settings h

/-- What a sweep reads of a group. -/
theorem mem_dueGroupItems {w : World} {nowIso : Nat} {tenantId chatId : String}
    {v : World.DigestItemView} (h : v ∈ w.dueGroupItems nowIso tenantId chatId) :
    ∃ i ∈ w.digestItems, i.alertId = v.alertId ∧ i.sentAt = none := by
  obtain ⟨i, hi, hview⟩ := List.mem_filterMap.mp h
  rw [List.mem_insertionSort, List.mem_filter] at hi
  obtain ⟨a, -, hview⟩ := Option.bind_eq_some_iff.mp hview
  obtain ⟨e, -, rfl⟩ := Option.map_eq_some_iff.mp hview
  have hdue : World.due nowIso i = true := by
    have hall := hi.2
    simp only [Bool.and_eq_true] at hall
    exact hall.1.1
  refine ⟨i, hi.1, rfl, ?_⟩
  simp only [World.due, Bool.and_eq_true, Option.isNone_iff_eq_none] at hdue
  exact hdue.1

/-- The sweep at the end of an item's window reads the item. -/
theorem exists_mem_dueGroupItems {w : World} {i : DigestItemRow} {e : EntryRow}
    (hi : i ∈ w.digestItems) (hsent : i.sentAt = none)
    (hlookup : ((Table.lookup AlertRow.id i.alertId w.alerts).bind fun a =>
      Table.lookup EntryRow.id a.entryId w.entries) = some e) :
    ∃ v ∈ w.dueGroupItems i.scheduledFor i.tenantId i.chatId, v.alertId = i.alertId := by
  obtain ⟨a, hl, he⟩ := Option.bind_eq_some_iff.mp hlookup
  refine ⟨⟨i.id, i.scheduledFor, i.alertId, e.entry.title, e.entry.link, e.entry.content⟩,
    List.mem_filterMap.mpr ⟨i, ?_, ?_⟩, rfl⟩
  · rw [List.mem_insertionSort, List.mem_filter]
    refine ⟨hi, ?_⟩
    simp [World.due, hsent]
  · rw [hl]
    change Option.map _ (Table.lookup EntryRow.id a.entryId w.entries) = _
    rw [he]
    rfl

theorem sweepSpares_iff (hrefs : ∀ a ∈ t.alerts, ∃ e ∈ t.entries, e.id = a.entryId)
    {a : AlertRow} (ha : a ∈ t.alerts) :
    SweepSpares t a ↔ ∀ i ∈ t.digestItems, i.alertId = a.id → i.sentAt ≠ none := by
  constructor
  · intro h i hi hid hsent
    -- the sweep at the end of the item's window
    let w : World := { System.oneFeed.world with
      entries := t.entries, alerts := t.alerts, digestItems := t.digestItems }
    rcases hl : Table.lookup AlertRow.id i.alertId t.alerts with _ | b
    · exact Table.lookup_eq_none.mp hl a ha hid.symm
    · obtain ⟨e, he, heid⟩ := hrefs b (Table.mem_of_lookup hl)
      rcases hle : Table.lookup EntryRow.id b.entryId t.entries with _ | e'
      · exact Table.lookup_eq_none.mp hle e he heid
      · have hlookup : ((Table.lookup AlertRow.id i.alertId w.alerts).bind fun a =>
            Table.lookup EntryRow.id a.entryId w.entries) = some e' := by
          change Option.bind (Table.lookup AlertRow.id i.alertId t.alerts) _ = _
          rw [hl]
          exact hle
        obtain ⟨v, hv, hvid⟩ := exists_mem_dueGroupItems (w := w) hi hsent hlookup
        exact h w rfl rfl rfl _ _ _ v hv (hvid.trans hid)
  · rintro h w - - hitems nowIso tenantId chatId v hv hid
    obtain ⟨i, hi, halert, hsent⟩ := mem_dueGroupItems hv
    rw [hitems] at hi
    exact h i hi (halert.trans hid) hsent

/-! ## Delivered before, delivered after -/

/-- What has been delivered of a group stays delivered: a sent alert is not sent again on
request, and a delivered channel is not used again. -/
def StaysDelivered (t t' : AlertTables) : Prop :=
  ∀ key, ∀ a ∈ group key t.alerts, ∀ s ∈ group key t'.alerts,
    (a.sent = true → ManualRefused s) ∧
      ∀ c, a.channelStatus c = .sent → WorkerSpares s c ∧ (c = .telegram → SweepSpares t' s)

/-- In every group the oldest alert has what any of its alerts has: it is sent, a channel is
delivered, and, if that is Telegram, an item for every chat with an unsent one, which is not
its own. -/
def OldestDelivered (t : AlertTables) : Prop :=
  ∀ key o, Table.IsFirst before (group key t.alerts) o → ∀ a ∈ group key t.alerts,
    (a.sent = true → o.sent = true) ∧
      ∀ c, a.channelStatus c = .sent → o.channelStatus c = .sent ∧
        (c = .telegram → ∀ i ∈ t.digestItems, i.sentAt = none →
          (∃ b ∈ group key t.alerts, b.id = i.alertId) →
          i.alertId ≠ o.id ∧ hasItem t.digestItems o.id i.chatId = true)

/-- Which unsent items the survivor of a group ends up with. -/
theorem survivor_items_sent (ht : Admitted t) {key : String × String} {o : AlertRow}
    (ho : Table.IsFirst before (group key t.alerts) o) :
    (∀ i ∈ (deduplicated t (movedItems (dedupePlan t.alerts) t.digestItems)).digestItems,
        i.alertId = o.id → i.sentAt ≠ none) ↔
      ∀ i ∈ t.digestItems, i.sentAt = none → (∃ b ∈ group key t.alerts, b.id = i.alertId) →
        i.alertId ≠ o.id ∧ hasItem t.digestItems o.id i.chatId = true := by
  have hn := ht.alertIds
  obtain ⟨hmem, hkey⟩ := mem_group.mp ho.1
  constructor
  · rintro h i hi hsent ⟨b, hb, hid⟩
    obtain ⟨hmemb, rfl⟩ := mem_group.mp hb
    have hmove := moveItem_eq hn t.digestItems hmemb hid ho
    have hkept : removed (dedupePlan t.alerts) o.id = false :=
      (removed_dedupePlan hn hmem).mpr (hkey ▸ ho)
    by_contra hnot
    -- the item ends up with the survivor
    have halert : (moveItem (dedupePlan t.alerts) t.digestItems i).alertId = o.id := by
      rw [hmove]
      by_cases hhas : hasItem t.digestItems o.id i.chatId = true
      · rw [if_pos hhas]
        by_contra hne
        exact hnot ⟨hne, hhas⟩
      · rw [if_neg hhas]
    refine h _ (List.mem_filter.mpr ⟨List.mem_map_of_mem hi, ?_⟩) halert ?_
    · rw [halert, hkept]
      rfl
    · rw [hmove]
      exact hsent
  · intro h i' hi' hid hsent
    obtain ⟨i, hi, rfl⟩ := List.mem_map.mp (List.mem_filter.mp hi').1
    obtain ⟨b, hb, hidb, p, hp⟩ := ht.exists_survivor hi
    rw [moveItem_eq hn t.digestItems hb hidb hp] at hid hsent
    rcases hhas : hasItem t.digestItems p.id i.chatId with _ | _
    · -- it was moved to the survivor
      simp only [hhas, Bool.false_eq_true, if_false] at hid
      obtain rfl := id_inj hn (mem_group.mp hp.1).1 hmem hid
      have hkeyb : alertKey b = key := (mem_group.mp hp.1).2.symm.trans hkey
      have hitem := (h i hi hsent ⟨b, mem_group.mpr ⟨hb, hkeyb⟩, hidb⟩).2
      rw [hhas] at hitem
      cases hitem
    · simp only [hhas, if_true] at hid
      exact (h i hi hsent ⟨o, ho.1, hid.symm⟩).1 hid

/-- **When migration 0018 makes nothing deliverable again.** Where it does not abort, what has
been delivered of a group stays so if and only if the oldest alert of the group has it. -/
theorem migrate_stays_delivered (ht : Admitted t) (h : migrate canonicalize t = some t') :
    StaysDelivered (recanonicalize canonicalize t) t' ↔
      OldestDelivered (recanonicalize canonicalize t) := by
  obtain ⟨-, rfl⟩ := (migrate_eq_some ht).mp h
  have hr : Admitted (recanonicalize canonicalize t) := ht.recanonicalize canonicalize
  change StaysDelivered _ (deduplicated _ (movedItems _
    (recanonicalize canonicalize t).digestItems)) ↔ _
  generalize recanonicalize canonicalize t = r at hr ⊢
  -- the survivor of a group, and what is known of it
  have hsurvivor : ∀ {key o}, Table.IsFirst before (group key r.alerts) o →
      ∃ s, group key (deduplicated r
          (movedItems (dedupePlan r.alerts) r.digestItems)).alerts = [s] ∧
        (ManualRefused s ↔ o.sent = true) ∧ (∀ c, WorkerSpares s c ↔ o.channelStatus c = .sent) ∧
        (SweepSpares (deduplicated r (movedItems (dedupePlan r.alerts) r.digestItems)) s ↔
          ∀ i ∈ r.digestItems, i.sentAt = none → (∃ b ∈ group key r.alerts, b.id = i.alertId) →
            i.alertId ≠ o.id ∧ hasItem r.digestItems o.id i.chatId = true) := by
    intro key o ho
    obtain ⟨rules, -, hgroup⟩ := group_deduplicated hr.alertIds
      (movedItems (dedupePlan r.alerts) r.digestItems) ho
    refine ⟨_, hgroup, manualRefused_iff, fun c => ?_, ?_⟩
    · rw [workerSpares_iff]
      cases c <;> rfl
    · rw [sweepSpares_iff]
      · change (∀ i ∈ _, DigestItemRow.alertId i = o.id → _) ↔ _
        exact survivor_items_sent hr ho
      · intro a ha
        obtain ⟨b, hb, -, -, -, rules, rfl⟩ := exists_of_mem_deduplicated ha
        exact hr.entryRefs b hb
      · exact (mem_group.mp (hgroup ▸ List.mem_singleton_self _)).1
  constructor
  · intro hstays key o ho a ha
    obtain ⟨s, hgroup, hmanual, hworker, hsweep⟩ := hsurvivor ho
    obtain ⟨hsent, hchannels⟩ := hstays key a ha s (hgroup ▸ List.mem_singleton_self s)
    refine ⟨fun h => hmanual.mp (hsent h), fun c hc => ?_⟩
    exact ⟨(hworker c).mp (hchannels c hc).1, fun htelegram =>
      hsweep.mp ((hchannels c hc).2 htelegram)⟩
  · intro holdest key a ha s hs
    obtain ⟨o, ho⟩ := exists_oldest (List.ne_nil_of_mem ha)
    obtain ⟨s', hgroup, hmanual, hworker, hsweep⟩ := hsurvivor ho
    rw [hgroup] at hs
    obtain rfl := List.mem_singleton.mp hs
    obtain ⟨hsent, hchannels⟩ := holdest key o ho a ha
    refine ⟨fun h => hmanual.mpr (hsent h), fun c hc => ?_⟩
    exact ⟨(hworker c).mpr (hchannels c hc).1, fun htelegram =>
      hsweep.mpr ((hchannels c hc).2 htelegram)⟩

/-- Two alerts on an article, of which the older one has been delivered by webhook. -/
def olderDelivered : AlertTables :=
  { entries := [article 1 "https://h/a", article 2 "https://h/a/"]
    alerts :=
      [{ articleAlert 1 7 "https://h/a" with sent := true, webhookDeliveryStatus := .sent },
        articleAlert 2 5 "https://h/a/"]
    digestItems := [] }

theorem migrate_stays_delivered_olderDelivered :
    ∃ t', migrate canonicalizeAscii olderDelivered = some t' ∧
      StaysDelivered (recanonicalize canonicalizeAscii olderDelivered) t' := by
  have ht : Admitted olderDelivered := ⟨by decide, by decide, by decide, by decide⟩
  obtain ⟨t', h⟩ : ∃ t', migrate canonicalizeAscii olderDelivered = some t' :=
    Option.isSome_iff_exists.mp (by decide)
  refine ⟨t', h, (migrate_stays_delivered ht h).mpr ?_⟩
  have hrows : ∀ o ∈ (recanonicalize canonicalizeAscii olderDelivered).alerts,
      rowNum (recanonicalize canonicalizeAscii olderDelivered).alerts o = 1 →
        o.sent = true ∧ o.webhookDeliveryStatus = .sent := by decide
  have hothers : ∀ a ∈ (recanonicalize canonicalizeAscii olderDelivered).alerts,
      a.telegramDeliveryStatus ≠ .sent ∧ a.emailDeliveryStatus ≠ .sent := by decide
  intro key o ho a ha
  obtain ⟨hmem, rfl⟩ := mem_group.mp ho.1
  obtain ⟨hsent, hwebhook⟩ := hrows o hmem ((rowNum_eq_one hmem).mpr ho)
  obtain ⟨htelegram, hemail⟩ := hothers a (mem_group.mp ha).1
  refine ⟨fun _ => hsent, fun c hc => ?_⟩
  cases c with
  | webhook => exact ⟨hwebhook, fun h => by cases h⟩
  | telegram => exact absurd hc htelegram
  | email => exact absurd hc hemail

/-- Two alerts on an article, of which the younger one has been delivered by webhook. -/
def youngerDelivered : AlertTables :=
  { entries := [article 1 "https://h/a", article 2 "https://h/a/"]
    alerts :=
      [articleAlert 1 7 "https://h/a",
        { articleAlert 2 5 "https://h/a/" with sent := true, webhookDeliveryStatus := .sent }]
    digestItems := [] }

/-- The article can be sent again on request, and by webhook. -/
theorem delivered_alert_lost :
    Admitted youngerDelivered ∧ OldIndex youngerDelivered ∧
      ∃ t', migrate canonicalizeAscii youngerDelivered = some t' ∧
        ¬ StaysDelivered (recanonicalize canonicalizeAscii youngerDelivered) t' := by
  obtain ⟨t', h⟩ : ∃ t', migrate canonicalizeAscii youngerDelivered = some t' :=
    Option.isSome_iff_exists.mp (by decide)
  refine ⟨⟨by decide, by decide, by decide, by decide⟩, by decide, t', h, fun hstays => ?_⟩
  obtain ⟨a, ha, hsent⟩ : ∃ a ∈ group ("t", "https://h/a")
      (recanonicalize canonicalizeAscii youngerDelivered).alerts, a.sent = true := by
    decide
  have hleft : ((migrate canonicalizeAscii youngerDelivered).all fun t' =>
      (group ("t", "https://h/a") t'.alerts).any fun s => !s.sent) = true := by decide
  rw [h, Option.all_some, List.any_eq_true] at hleft
  obtain ⟨s, hs, hunsent⟩ := hleft
  have hrefused := manualRefused_iff.mp ((hstays _ a ha s hs).1 hsent)
  rw [hrefused] at hunsent
  cases hunsent

end AlertRelink

end Feedpulse
