import Feedpulse.RelinkSurvivors

/-!
# What migration 0018 makes of the digest items

Step 5 asks whether the survivor of a group has an item for a chat, and asks it of the table
as it was before the statement. Two duplicates with an item for one chat are both told to
hand it over, and the second one violates `UNIQUE (alert_id, chat_id)`: the migration aborts
(`three_alerts_abort`). Everywhere else it moves the items as its comment says
(`migrate_keeps_digests`).
-/

namespace Feedpulse

namespace AlertRelink

open AlertUpsert

variable {canonicalize : Option String → Option String} {t t' : AlertTables}

/-- The items of a group for a chat. -/
def chatItems (key : String × String) (chatId : String) (t : AlertTables) : List DigestItemRow :=
  t.digestItems.filter fun i =>
    i.chatId = chatId && (group key t.alerts).any fun a => a.id = i.alertId

/-- Where a group had an item for a chat, it is left with one, which is the survivor's. -/
def KeepsDigests (t t' : AlertTables) : Prop :=
  ∀ key chatId, chatItems key chatId t ≠ [] →
    ∃ i o, Table.IsFirst before (group key t.alerts) o ∧
      chatItems key chatId t' = [i] ∧ i.alertId = o.id

/-- In every group, and for every chat, the survivor has an item or no two duplicates have. -/
def Uncontested (t : AlertTables) : Prop :=
  ∀ key chatId o, Table.IsFirst before (group key t.alerts) o →
    hasItem t.digestItems o.id chatId = true ∨
      ∀ i ∈ chatItems key chatId t, ∀ j ∈ chatItems key chatId t, i = j

/-! ## Step 5 -/

theorem mem_chatItems {key : String × String} {chatId : String} {i : DigestItemRow} :
    i ∈ chatItems key chatId t ↔
      i ∈ t.digestItems ∧ i.chatId = chatId ∧ ∃ a ∈ group key t.alerts, a.id = i.alertId := by
  simp [chatItems]

theorem hasItem_eq_true {items : List DigestItemRow} {alertId : Nat} {chatId : String} :
    hasItem items alertId chatId = true ↔
      ∃ i ∈ items, i.alertId = alertId ∧ i.chatId = chatId := by
  simp [hasItem]

/-- An item goes to the survivor, unless that one has an item for the chat. -/
theorem moveItem_eq {alerts : List AlertRow} (hn : (alerts.map AlertRow.id).Nodup)
    (items : List DigestItemRow) {i : DigestItemRow} {a o : AlertRow} (ha : a ∈ alerts)
    (hid : a.id = i.alertId) (ho : Table.IsFirst before (group (alertKey a) alerts) o) :
    moveItem (dedupePlan alerts) items i =
      { i with alertId := if hasItem items o.id i.chatId then i.alertId else o.id } := by
  unfold moveItem
  rcases hm : movedBy (dedupePlan alerts) items i with _ | p
  · have hrow := List.find?_eq_none.mp hm _ (List.mem_map_of_mem ha)
    rw [survivorId_eq hn ho] at hrow
    by_cases hhas : hasItem items o.id i.chatId = true
    · rw [if_pos hhas]
    · -- the alert is the survivor itself
      have hfirst : rowNum alerts a = 1 := by
        have hpos : 1 ≤ rowNum alerts a := Nat.le_add_left 1 _
        simp only [hid, hhas, Bool.not_false, Bool.and_true, decide_true, Bool.true_and,
          decide_eq_true_eq, not_lt] at hrow
        omega
      obtain rfl := isFirst_unique hn ((rowNum_eq_one ha).mp hfirst) ho
      rw [if_neg hhas, hid]
  · obtain ⟨b, hb, rfl⟩ := List.mem_map.mp (List.mem_of_find?_eq_some hm)
    have hmoved := List.find?_some hm
    simp only [Bool.and_eq_true, decide_eq_true_eq, Bool.not_eq_true'] at hmoved
    obtain ⟨⟨hidb, -⟩, hhas⟩ := hmoved
    obtain rfl := id_inj hn ha hb (hid.trans hidb)
    rw [survivorId_eq hn ho] at hhas ⊢
    rw [hhas]
    rfl

/-- The alert of an item, and the survivor of its group. -/
theorem Admitted.exists_survivor (ht : Admitted t) {i : DigestItemRow} (hi : i ∈ t.digestItems) :
    ∃ a ∈ t.alerts, a.id = i.alertId ∧
      ∃ o, Table.IsFirst before (group (alertKey a) t.alerts) o := by
  obtain ⟨a, ha, hid⟩ := ht.alertRefs i hi
  exact ⟨a, ha, hid, exists_oldest (List.ne_nil_of_mem (mem_group.mpr ⟨ha, rfl⟩))⟩

/-- Items are told apart by their alert and their chat. -/
theorem UniqueItems.inj {items : List DigestItemRow} (h : UniqueItems items) {i j : DigestItemRow}
    (hi : i ∈ items) (hj : j ∈ items) (halert : i.alertId = j.alertId)
    (hchat : i.chatId = j.chatId) : i = j :=
  List.inj_on_of_nodup_map h hi hj (Prod.ext halert hchat)

/-- Step 5 violates the constraint exactly if an item is contested. -/
theorem uniqueItems_movedItems (ht : Admitted t) :
    UniqueItems (movedItems (dedupePlan t.alerts) t.digestItems) ↔ Uncontested t := by
  have hn := ht.alertIds
  constructor
  · intro hunique key chatId o ho
    rcases hhas : hasItem t.digestItems o.id chatId with _ | _
    · refine .inr fun i hi j hj => ?_
      -- both are handed over to the survivor
      have hmove : ∀ x ∈ chatItems key chatId t,
          ((moveItem (dedupePlan t.alerts) t.digestItems x).alertId,
            (moveItem (dedupePlan t.alerts) t.digestItems x).chatId) = (o.id, chatId) := by
        intro x hx
        obtain ⟨-, rfl, a, ha, hid⟩ := mem_chatItems.mp hx
        obtain ⟨hmem, rfl⟩ := mem_group.mp ha
        rw [moveItem_eq hn t.digestItems hmem hid ho, hhas]
        rfl
      unfold UniqueItems movedItems at hunique
      rw [List.map_map] at hunique
      exact List.inj_on_of_nodup_map hunique (mem_chatItems.mp hi).1 (mem_chatItems.mp hj).1
        ((hmove i hi).trans (hmove j hj).symm)
    · exact .inl rfl
  · intro huncontested
    unfold UniqueItems movedItems
    rw [List.map_map]
    refine (List.Nodup.of_map _ ht.items).map_on fun i hi j hj hsame => ?_
    obtain ⟨a, ha, hida, o, ho⟩ := ht.exists_survivor hi
    obtain ⟨b, hb, hidb, p, hp⟩ := ht.exists_survivor hj
    simp only [Function.comp_apply, moveItem_eq hn t.digestItems ha hida ho,
      moveItem_eq hn t.digestItems hb hidb hp, Prod.mk.injEq] at hsame
    obtain ⟨halert, hchat⟩ := hsame
    rcases hhas : hasItem t.digestItems o.id i.chatId with _ | _ <;>
      rcases hhas' : hasItem t.digestItems p.id j.chatId with _ | _ <;>
      simp only [hhas, hhas', if_true, if_false, Bool.false_eq_true] at halert
    · -- both have gone to one survivor
      have hop := id_inj hn (mem_group.mp ho.1).1 (mem_group.mp hp.1).1 halert
      subst hop
      have hkey : alertKey b = alertKey a :=
        (mem_group.mp hp.1).2.symm.trans (mem_group.mp ho.1).2
      rcases huncontested _ i.chatId o ho with h | h
      · rw [hhas] at h
        cases h
      · exact h i (mem_chatItems.mpr ⟨hi, rfl, a, mem_group.mpr ⟨ha, rfl⟩, hida⟩)
          j (mem_chatItems.mpr ⟨hj, hchat.symm, b, mem_group.mpr ⟨hb, hkey⟩, hidb⟩)
    · rw [hasItem_eq_true.mpr ⟨j, hj, halert.symm, hchat.symm⟩] at hhas
      cases hhas
    · rw [hasItem_eq_true.mpr ⟨i, hi, halert, hchat⟩] at hhas'
      cases hhas'
    · exact ht.items.inj hi hj halert hchat

/-! ## Steps 5 and 6 -/

/-- If step 5 does not violate the constraint, every chat of a group keeps one item. -/
theorem keepsDigests_deduplicated (ht : Admitted t)
    (hunique : UniqueItems (movedItems (dedupePlan t.alerts) t.digestItems)) :
    KeepsDigests t (deduplicated t (movedItems (dedupePlan t.alerts) t.digestItems)) := by
  have hn := ht.alertIds
  intro key chatId hne
  obtain ⟨i, hmemi⟩ := List.exists_mem_of_ne_nil _ hne
  obtain ⟨hi, hchat, a, hmema, hid⟩ := mem_chatItems.mp hmemi
  obtain ⟨o, ho⟩ := exists_oldest (List.ne_nil_of_mem hmema)
  obtain ⟨hmem, hkey⟩ := mem_group.mp ho.1
  obtain ⟨ha, rfl⟩ := mem_group.mp hmema
  obtain ⟨rules, -, hgroup⟩ :=
    group_deduplicated hn (movedItems (dedupePlan t.alerts) t.digestItems) ho
  -- an item for the chat that is the survivor's after step 5
  obtain ⟨x, hx, hxo, hxchat⟩ : ∃ x ∈ movedItems (dedupePlan t.alerts) t.digestItems,
      x.alertId = o.id ∧ x.chatId = chatId := by
    rcases hhas : hasItem t.digestItems o.id chatId with _ | _
    · refine ⟨_, List.mem_map_of_mem hi, ?_⟩
      rw [moveItem_eq hn t.digestItems ha hid ho, hchat, hhas]
      exact ⟨rfl, rfl⟩
    · obtain ⟨j, hj, hjo, hjchat⟩ := hasItem_eq_true.mp hhas
      refine ⟨_, List.mem_map_of_mem hj, ?_⟩
      rw [moveItem_eq hn t.digestItems hmem hjo.symm (hkey ▸ ho), hjchat, hhas]
      exact ⟨hjo, rfl⟩
  have hkept : removed (dedupePlan t.alerts) o.id = false :=
    (removed_dedupePlan hn hmem).mpr (hkey ▸ ho)
  refine ⟨x, o, ho, ?_, hxo⟩
  unfold chatItems
  rw [hgroup]
  refine Table.filter_eq_singleton ((List.Nodup.of_map _ hunique).filter _) ?_ fun y hy => ?_
  · refine List.mem_filter.mpr ⟨hx, ?_⟩
    rw [hxo, hkept]
    rfl
  · simp only [List.any_cons, List.any_nil, Bool.or_false, Bool.and_eq_true, decide_eq_true_eq]
    constructor
    · rintro ⟨hychat, hyo⟩
      exact hunique.inj (List.mem_filter.mp hy).1 hx (hyo.symm.trans hxo.symm)
        (hychat.trans hxchat.symm)
    · rintro rfl
      exact ⟨hxchat, hxo.symm⟩

/-- **When migration 0018 treats the digest items right.** It does not abort, and leaves one
item, the survivor's, for every chat for which a group had any, if and only if in every group
the survivor has an item for the chat or no two of the duplicates have. -/
theorem migrate_keeps_digests (ht : Admitted t) :
    (∃ t', migrate canonicalize t = some t' ∧ KeepsDigests (recanonicalize canonicalize t) t') ↔
      Uncontested (recanonicalize canonicalize t) := by
  have hr : Admitted (recanonicalize canonicalize t) := ht.recanonicalize canonicalize
  rw [← uniqueItems_movedItems hr]
  constructor
  · rintro ⟨t', h, -⟩
    exact ((migrate_eq_some ht).mp h).1
  · intro h
    exact ⟨_, (migrate_eq_some ht).mpr ⟨h, rfl⟩, keepsDigests_deduplicated hr h⟩

theorem migrate_keeps_digests_oneItem :
    ∃ t', migrate canonicalizeAscii (threeAlerts [alertItem 1 2 "100"]) = some t' ∧
      KeepsDigests (recanonicalize canonicalizeAscii (threeAlerts [alertItem 1 2 "100"])) t' := by
  refine (migrate_keeps_digests ⟨by decide, by decide, by decide, by decide⟩).mpr ?_
  intro key chatId o _
  refine .inr fun i hi j hj => ?_
  rw [List.mem_singleton.mp (mem_chatItems.mp hi).1, List.mem_singleton.mp (mem_chatItems.mp hj).1]

/-- Two of three alerts have an item for one chat, and the oldest has none. -/
def contestedAlerts : AlertTables :=
  threeAlerts [alertItem 1 2 "100", alertItem 2 3 "100"]

/-- The migration aborts. -/
theorem three_alerts_abort :
    Admitted contestedAlerts ∧ OldIndex contestedAlerts ∧
      migrate canonicalizeAscii contestedAlerts = none ∧
      ¬ ∃ t', migrate canonicalizeAscii contestedAlerts = some t' ∧
        KeepsDigests (recanonicalize canonicalizeAscii contestedAlerts) t' := by
  have hnone : migrate canonicalizeAscii contestedAlerts = none := by decide +kernel
  refine ⟨⟨by decide, by decide, by decide, by decide⟩, by decide, hnone, ?_⟩
  rintro ⟨t', h, -⟩
  rw [hnone] at h
  cases h

end AlertRelink

end Feedpulse
