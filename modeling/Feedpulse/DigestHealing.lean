import Feedpulse.AlertBatch
import Feedpulse.DeliveryOutcome

/-!
# A flush that is broken off is repaired

`markTelegramDigestGroupSent` marks the items of a group one by one, then converges the
alerts one by one. `Flushing` holds wherever it is broken off; `digest_crash_heals` says that
the reconciliation at the beginning of the next sweep then leaves every alert as a flush that
ran to its end would have left it, and that a second reconciliation finds nothing to do.
-/

namespace Feedpulse

open Prog

namespace World

/-! ## While a group is flushed -/

/-- The alert has digest items. -/
def HasItem (items : List DigestItemRow) (alertId : Nat) : Prop :=
  ∃ i ∈ items, i.alertId = alertId

/-- Every digest item of the alert has been sent. -/
def AllSent (items : List DigestItemRow) (alertId : Nat) : Prop :=
  ∀ i ∈ items, i.alertId = alertId → i.sentAt ≠ none

theorem hasUnsentItem_eq_false {items : List DigestItemRow} {alertId : Nat} :
    hasUnsentItem items alertId = false ↔ AllSent items alertId := by
  simp [hasUnsentItem, AllSent]

/-- Where every item is sent, there is a sent one as soon as there is one. -/
theorem hasSentItem_iff {items : List DigestItemRow} {alertId : Nat}
    (h : AllSent items alertId) : hasSentItem items alertId = true ↔ HasItem items alertId := by
  unfold hasSentItem HasItem
  rw [List.any_eq_true]
  constructor
  · rintro ⟨i, hi, hs⟩
    simp only [Bool.and_eq_true, decide_eq_true_eq] at hs
    exact ⟨i, hi, hs.1⟩
  · rintro ⟨i, hi, hid⟩
    refine ⟨i, hi, ?_⟩
    simp only [Bool.and_eq_true, decide_eq_true_eq]
    exact ⟨hid, Option.isSome_iff_ne_none.mpr (h i hi hid)⟩

/-- What a flush has done to an alert so far: nothing, or it has converged the Telegram
channel, every item of the alert being sent. -/
def Flushed (items : List DigestItemRow) (a b : AlertRow) : Prop :=
  b = a ∨ ((∃ t, b = deliverTelegram t a) ∧ HasItem items a.id ∧ AllSent items a.id)

/-- The state `w₁` is one in which a flush that began in `w` may be broken off. -/
structure Flushing (w w₁ : World) : Prop where
  /-- the digest items belong to the alerts they belonged to -/
  items : w₁.digestItems.map DigestItemRow.alertId = w.digestItems.map DigestItemRow.alertId
  /-- the alerts, row by row -/
  alerts : List.Forall₂ (Flushed w₁.digestItems) w.alerts w₁.alerts

theorem Flushed.id_eq {items : List DigestItemRow} {a b : AlertRow} (h : Flushed items a b) :
    b.id = a.id := by
  rcases h with rfl | ⟨⟨t, rfl⟩, -⟩
  · rfl
  · rfl

theorem hasItem_congr {items items' : List DigestItemRow}
    (h : items'.map DigestItemRow.alertId = items.map DigestItemRow.alertId) {alertId : Nat} :
    HasItem items' alertId ↔ HasItem items alertId := by
  have hmem : ∀ l : List DigestItemRow,
      HasItem l alertId ↔ alertId ∈ l.map DigestItemRow.alertId := fun l => List.mem_map.symm
  rw [hmem, hmem, h]

theorem Flushing.refl (w : World) : w.Flushing w :=
  ⟨rfl, List.forall₂_same.mpr fun _ _ => .inl rfl⟩

/-- Marking an item sent. -/
theorem Flushing.markDigestItemSent {w w₁ : World} (h : w.Flushing w₁) (id : Nat) :
    w.Flushing (w₁.markDigestItemSent id) := by
  have hids : (w₁.markDigestItemSent id).digestItems.map DigestItemRow.alertId
      = w₁.digestItems.map DigestItemRow.alertId :=
    Table.map_updateWhere DigestItemRow.alertId _ fun _ => rfl
  refine ⟨hids.trans h.items, h.alerts.imp fun a b hab => ?_⟩
  rcases hab with rfl | ⟨ht, hitem, hsent⟩
  · exact .inl rfl
  · refine .inr ⟨ht, (hasItem_congr hids).mpr hitem, fun i hi hid => ?_⟩
    -- an item that was sent is still sent
    obtain ⟨j, hj, rfl⟩ := Table.mem_updateWhere.mp hi
    split at hid
    · rw [if_pos ‹_›]
      exact Option.some_ne_none _
    · rw [if_neg ‹_›]
      exact hsent j hj hid

/-- Converging an alert that has items. -/
theorem Flushing.convergeTelegram {w w₁ : World} (h : w.Flushing w₁) {alertId : Nat}
    (hitem : HasItem w.digestItems alertId) : w.Flushing (w₁.convergeTelegram alertId).2 := by
  refine ⟨h.items, List.forall₂_map_right_iff.mpr (h.alerts.imp fun a b hab => ?_)⟩
  by_cases hc : converges w₁.digestItems alertId b = true
  · rw [if_pos hc]
    simp only [converges, Bool.and_eq_true, decide_eq_true_eq, Bool.not_eq_true'] at hc
    obtain ⟨⟨hid, hne⟩, hun⟩ := hc
    rcases hab with rfl | ⟨⟨t, rfl⟩, -, -⟩
    · refine .inr ⟨⟨w₁.now, rfl⟩, ?_, hasUnsentItem_eq_false.mp hun⟩
      exact (hasItem_congr h.items).mpr (hid ▸ hitem)
    · exact absurd rfl hne
  · rw [if_neg hc]
    exact hab

/-- The calls by which a group is flushed, the alerts being the given ones. -/
def Flushes (alertIds : List Nat) : Call → Prop
  | .alert (.markDigestItemSent _) => True
  | .alert (.convergeTelegram alertId) => alertId ∈ alertIds
  | _ => False

theorem Flushing.executes {pid : Nat} {alertIds : List Nat} {w w₁ w₂ : World} {c : Call}
    {r : Except String c.Reply} (hitems : ∀ alertId ∈ alertIds, HasItem w.digestItems alertId)
    (hc : Flushes alertIds c) (h : w.Flushing w₁) (hr : Executes pid w₁ c r w₂) :
    w.Flushing w₂ := by
  obtain ⟨out, hout⟩ := hr
  rcases Call.answer_eq_some hout with ⟨-, -, rfl, -⟩ | ⟨ch, a, hs, -⟩
  · exact h
  cases c with
  | alert c =>
    cases c with
    | markDigestItemSent id =>
      obtain ⟨-, rfl⟩ := Prod.mk.inj (Option.some.inj hs)
      exact h.markDigestItemSent id
    | convergeTelegram alertId =>
      have hw : (w₁.convergeTelegram alertId).2 = w₂ := congrArg Prod.snd (Option.some.inj hs)
      exact hw ▸ h.convergeTelegram (hitems alertId hc)
    | _ => cases hc
  | _ => cases hc

theorem markItemsSent_flushes (alertIds : List Nat) (items : List DigestItemView) :
    Issues (Flushes alertIds) (AlertsRepository.markItemsSent items) := by
  induction items with
  | nil => exact issues_pure _
  | cons item items ih =>
    exact Issues.bind (issues_invoke (c := Call.alert (.markDigestItemSent _)) trivial) fun _ => ih

theorem convergeAlerts_flushes {alertIds ids : List Nat} (h : ∀ id ∈ ids, id ∈ alertIds) :
    Issues (Flushes alertIds) (AlertsRepository.convergeAlerts ids) := by
  induction ids with
  | nil => exact issues_pure _
  | cons id ids ih =>
    have hhead : Flushes alertIds (.alert (.convergeTelegram id)) := h id List.mem_cons_self
    exact Issues.bind (issues_invoke hhead) fun _ =>
      Issues.bind (ih fun i hi => h i (List.mem_cons_of_mem _ hi)) fun _ => issues_pure _

theorem markTelegramDigestGroupSent_flushes (items : List DigestItemView) :
    Issues (Flushes (items.map DigestItemView.alertId))
      (AlertsRepository.markTelegramDigestGroupSent items) := by
  refine Issues.ite (fun _ => issues_pure _) fun _ => ?_
  refine Issues.bind (markItemsSent_flushes _ items) fun _ => convergeAlerts_flushes ?_
  intro id hid
  simpa using (AlertUpsert.mem_addAll.mp hid)

/-! ## The repair -/

/-- What a flush and its repair have made of an alert. -/
structure HealedRow (items : List DigestItemRow) (a b : AlertRow) : Prop where
  /-- it is the same alert -/
  id : b.id = a.id
  /-- the channel is delivered if it was, or if there are items and all of them are sent -/
  channel : a.telegramDeliveryStatus = .pending ∨ a.telegramDeliveryStatus = .sent →
    (b.telegramDeliveryStatus = .sent ↔
      a.telegramDeliveryStatus = .sent ∨ (HasItem items a.id ∧ AllSent items a.id))
  /-- without items nothing happens to it -/
  untouched : ¬ HasItem items a.id → b = a

/-- From `w₁`, a reconciliation repairs what was begun in `w`, and a second one has nothing
to do. -/
def Heals (w w₁ : World) : Prop :=
  ∀ now, ∃ w₂, { w₁ with now := now }.reconcileTelegram.2 = w₂ ∧
    List.Forall₂ (HealedRow w₂.digestItems) w.alerts w₂.alerts ∧
    ∀ later, { w₂ with now := later }.reconcileTelegram = ([], { w₂ with now := later })

/-- An alert that is reconciled. -/
theorem Flushed.healed {items : List DigestItemRow} {a b : AlertRow} (h : Flushed items a b)
    (now : Nat) :
    HealedRow items a (if reconciles items b then deliverTelegram now b else b) := by
  rcases h with rfl | ⟨⟨t, rfl⟩, hitem, hsent⟩
  · by_cases hr : reconciles items b = true
    · rw [if_pos hr]
      simp only [reconciles, Bool.and_eq_true, decide_eq_true_eq, Bool.not_eq_true'] at hr
      obtain ⟨⟨hpending, hsome⟩, hun⟩ := hr
      have hall := hasUnsentItem_eq_false.mp hun
      have hitem := (hasSentItem_iff hall).mp hsome
      exact ⟨rfl, fun _ => iff_of_true rfl (.inr ⟨hitem, hall⟩), fun hno => absurd hitem hno⟩
    · rw [if_neg hr]
      refine ⟨rfl, fun hst => ⟨.inl, ?_⟩, fun _ => rfl⟩
      rintro (hsent | ⟨hitem, hall⟩)
      · exact hsent
      · rcases hst with hpending | hsent
        · exfalso
          apply hr
          simp only [reconciles, Bool.and_eq_true, decide_eq_true_eq, Bool.not_eq_true']
          exact ⟨⟨hpending, (hasSentItem_iff hall).mpr hitem⟩, hasUnsentItem_eq_false.mpr hall⟩
        · exact hsent
  · -- the flush had converged it already
    have hr : reconciles items (deliverTelegram t a) = false := by
      simp [reconciles, deliverTelegram]
    rw [hr]
    exact ⟨rfl, fun _ => iff_of_true rfl (.inr ⟨hitem, hsent⟩), fun hno => absurd hitem hno⟩

/-- A reconciliation that finds no alert to repair. -/
theorem reconcileTelegram_of_none {w : World}
    (h : ∀ a ∈ w.alerts, reconciles w.digestItems a = false) : w.reconcileTelegram = ([], w) := by
  have hfilter : w.alerts.filter (reconciles w.digestItems) = [] :=
    List.filter_eq_nil_iff.mpr fun a ha => by simp [h a ha]
  have hupdate : Table.updateWhere (reconciles w.digestItems) (deliverTelegram w.now) w.alerts
      = w.alerts := by
    refine (List.map_congr_left fun a ha => ?_).trans (List.map_id _)
    simp [h a ha]
  rw [reconcileTelegram, hfilter, hupdate]
  rfl

/-- After a reconciliation there is nothing left to repair. -/
theorem reconcileTelegram_again (w : World) (later : Nat) :
    { w.reconcileTelegram.2 with now := later }.reconcileTelegram
      = ([], { w.reconcileTelegram.2 with now := later }) := by
  refine reconcileTelegram_of_none fun a ha => ?_
  obtain ⟨b, -, rfl⟩ := Table.mem_updateWhere.mp ha
  by_cases hb : reconciles w.digestItems b = true
  · rw [if_pos hb]
    simp [reconciles, deliverTelegram]
  · rw [if_neg hb]
    exact Bool.not_eq_true _ ▸ hb

theorem Flushing.heals {w w₁ : World} (h : w.Flushing w₁) : w.Heals w₁ := by
  intro now
  refine ⟨_, rfl, ?_, reconcileTelegram_again _⟩
  exact List.forall₂_map_right_iff.mpr (h.alerts.imp fun a b hab => hab.healed now)

/-- **A flush that is broken off heals.** Wherever the flush of a group of digest items is
broken off, by a failure or a crash, the next reconciliation leaves an alert delivered exactly
if it was delivered before, or has items and all of them are sent. -/
theorem digest_crash_heals (pid : Nat) (w : World) (items : List DigestItemView)
    (hitems : ∀ item ∈ items, ∃ i ∈ w.digestItems,
      i.id = item.digestItemId ∧ i.alertId = item.alertId) :
    Meets (fun w₁ _ => w.Heals w₁) (Executes pid)
      (AlertsRepository.markTelegramDigestGroupSent items) (fun _ w₁ => w.Heals w₁) w := by
  have hids : ∀ alertId ∈ items.map DigestItemView.alertId, HasItem w.digestItems alertId := by
    intro alertId hid
    obtain ⟨item, hitem, rfl⟩ := List.mem_map.mp hid
    obtain ⟨i, hi, -, heq⟩ := hitems item hitem
    exact ⟨i, hi, heq⟩
  have hflush : Meets (fun w₁ _ => w.Flushing w₁) (Executes pid)
      (AlertsRepository.markTelegramDigestGroupSent items) (fun _ w₁ => w.Flushing w₁) w :=
    (markTelegramDigestGroupSent_flushes items).throughout
      (fun _ _ _ _ hc hw hr => Flushing.executes hids hc hw hr) (Flushing.refl w)
  exact (hflush.mono fun _ _ h => h.heals).weaken (fun _ _ h => h.heals) fun _ _ _ _ h => h

/-- An alert that waits in the digests of two chats. -/
def twoChats : World :=
  { System.oneFeed.world with
    alerts := [AlertUpsert.insertRow 0 1
      { tenantId := "t", entryId := 1, ruleId := 1, matchedRules := [1], canonicalLink := none }]
    digestItems := ["100", "200"].zipIdx.map fun chat =>
      { id := chat.2 + 1, tenantId := "t", alertId := 1, chatId := chat.1, scheduledFor := 600000,
        sentAt := none, createdAt := 0 } }

/-- The digest of the first of them. -/
def firstChat : List DigestItemView :=
  [{ digestItemId := 1, scheduledFor := 600000, alertId := 1, title := some "go", link := none,
     snippet := none }]

/-- The flush of the first of them. -/
theorem digest_crash_heals_twoChats :
    Meets (fun w₁ _ => twoChats.Heals w₁) (Executes 1)
      (AlertsRepository.markTelegramDigestGroupSent firstChat) (fun _ w₁ => twoChats.Heals w₁)
      twoChats :=
  digest_crash_heals 1 twoChats firstChat (by decide)

end World

end Feedpulse
