import Feedpulse.Frames
import Feedpulse.System

/-!
# Delivery state only moves forward

Ten statements write the columns by which an alert and its digest items record their
delivery. `AlertRow.Forward` and `DigestItemRow.Forward` say what none of them undoes;
`delivery_forward` says it of every run of the system.
-/

namespace Feedpulse

/-! ## Rows -/

/-- What has been recorded of the delivery of an alert is still there. -/
structure AlertRow.Forward (a b : AlertRow) : Prop where
  /-- it is the same alert -/
  id : b.id = a.id
  /-- `sent` is not cleared -/
  sent : a.sent = true → b.sent = true
  /-- `sent_at` is set once -/
  sentAt : ∀ t, a.sentAt = some t → b.sentAt = some t
  /-- `delivery_attempts` does not decrease -/
  attempts : a.deliveryAttempts ≤ b.deliveryAttempts
  /-- a delivered channel stays delivered -/
  channels : ∀ c, a.channelStatus c = .sent → b.channelStatus c = .sent

/-- A digest item that has been sent stays so. -/
structure DigestItemRow.Forward (i j : DigestItemRow) : Prop where
  /-- it is the same item -/
  id : j.id = i.id
  /-- of the same alert -/
  alertId : j.alertId = i.alertId
  /-- for the same chat -/
  chatId : j.chatId = i.chatId
  /-- `sent_at` is set once -/
  sentAt : ∀ t, i.sentAt = some t → j.sentAt = some t

namespace AlertRow.Forward

variable {a b c : AlertRow}

theorem refl (a : AlertRow) : Forward a a :=
  ⟨rfl, fun h => h, fun _ h => h, le_rfl, fun _ h => h⟩

theorem trans (h : Forward a b) (h' : Forward b c) : Forward a c where
  id := h'.id.trans h.id
  sent := fun hs => h'.sent (h.sent hs)
  sentAt := fun t ht => h'.sentAt t (h.sentAt t ht)
  attempts := h.attempts.trans h'.attempts
  channels := fun ch hc => h'.channels ch (h.channels ch hc)

end AlertRow.Forward

namespace DigestItemRow.Forward

variable {i j k : DigestItemRow}

theorem refl (i : DigestItemRow) : Forward i i := ⟨rfl, rfl, rfl, fun _ h => h⟩

theorem trans (h : Forward i j) (h' : Forward j k) : Forward i k where
  id := h'.id.trans h.id
  alertId := h'.alertId.trans h.alertId
  chatId := h'.chatId.trans h.chatId
  sentAt := fun t ht => h'.sentAt t (h.sentAt t ht)

end DigestItemRow.Forward

/-! ## Statements -/

namespace AlertWrite

variable (now : Nat) (w : AlertWrite) (a : AlertRow)

/-- No statement changes `sent_at` once it is set. -/
theorem sentAt_apply_of_some {t : Nat} (h : a.sentAt = some t) :
    (w.apply now a).sentAt = some t := by
  cases w
  case markSent => simp [apply, h]
  case markChannelDelivered channel => cases channel <;> exact h
  case markChannelFailed channel =>
    simp only [apply]
    split
    · exact h
    · cases channel <;> exact h
  all_goals exact h

/-- No statement takes attempts back. -/
theorem deliveryAttempts_le_apply : a.deliveryAttempts ≤ (w.apply now a).deliveryAttempts := by
  cases w
  case markChannelDelivered channel => cases channel <;> exact le_rfl
  case markChannelFailed channel =>
    simp only [apply]
    split
    · exact le_rfl
    · cases channel <;> exact le_rfl
  all_goals simp [apply]

/-- **A statement moves its row forward.** -/
theorem forward_apply : AlertRow.Forward a (w.apply now a) where
  id := apply_id now w a
  sent := sent_apply_of_sent now w a
  sentAt := fun _ h => sentAt_apply_of_some now w a h
  attempts := deliveryAttempts_le_apply now w a
  channels := fun _ h => channelStatus_apply_of_sent now w a h

end AlertWrite

/-- So does the convergence of the Telegram channel. -/
theorem forward_deliverTelegram (now : Nat) (a : AlertRow) :
    AlertRow.Forward a (World.deliverTelegram now a) where
  id := rfl
  sent := id
  sentAt := fun _ h => h
  attempts := le_rfl
  channels := by
    intro c h
    cases c with
    | telegram => rfl
    | webhook => exact h
    | email => exact h

namespace World

/-- Two shared states, of which the second has lost nothing of the deliveries recorded in the
first. -/
def Forward (w w' : World) : Prop :=
  Table.Evolves AlertRow.Forward w.alerts w'.alerts ∧
    Table.Evolves DigestItemRow.Forward w.digestItems w'.digestItems

theorem Forward.refl (w : World) : w.Forward w :=
  ⟨.refl AlertRow.Forward.refl _, .refl DigestItemRow.Forward.refl _⟩

theorem Forward.trans {w w' w'' : World} (h : w.Forward w') (h' : w'.Forward w'') :
    w.Forward w'' :=
  ⟨h.1.trans (fun _ _ _ => AlertRow.Forward.trans) h'.1,
    h.2.trans (fun _ _ _ => DigestItemRow.Forward.trans) h'.2⟩

/-- A statement that concerns neither alerts nor digest items. -/
theorem Forward.of_eq {w w' : World} (ha : w'.alerts = w.alerts)
    (hi : w'.digestItems = w.digestItems) : w.Forward w' := by
  unfold Forward
  rw [ha, hi]
  exact Forward.refl w

/-- Committed alerts are added behind the others, or replace the rules of one of them. -/
theorem evolves_commitAlert (alerts : List AlertRow) (a : AlertRow) :
    Table.Evolves AlertRow.Forward alerts (commitAlert alerts a) := by
  unfold commitAlert
  split
  · exact .append AlertRow.Forward.refl _ _
  · refine .updateWhere AlertRow.Forward.refl (fun b _ => ?_) _
    exact ⟨rfl, id, fun _ h => h, le_rfl, fun c h => by cases c <;> exact h⟩

theorem evolves_foldl_commitAlert (staged alerts : List AlertRow) :
    Table.Evolves AlertRow.Forward alerts (staged.foldl commitAlert alerts) := by
  induction staged generalizing alerts with
  | nil => exact .refl AlertRow.Forward.refl _
  | cons a staged ih =>
    exact (evolves_commitAlert alerts a).trans (fun _ _ _ => AlertRow.Forward.trans) (ih _)

/-- A digest item is added behind the others, or not at all. -/
theorem evolves_insertDigestItem (w : World) (tenantId : String) (alertId : Nat)
    (chatId : String) (scheduledFor : Nat) :
    Table.Evolves DigestItemRow.Forward w.digestItems
      (w.insertDigestItem tenantId alertId chatId scheduledFor).digestItems := by
  unfold insertDigestItem
  split
  · exact .refl DigestItemRow.Forward.refl _
  · exact .append DigestItemRow.Forward.refl _ _

/-- **Every call moves the deliveries forward.** -/
theorem forward_effect {pid : Nat} {w w' : World} {c : Call} (h : CallEffect pid w c w') :
    w.Forward w' := by
  cases h with
  | writeAlert id st =>
    refine ⟨.updateWhere AlertRow.Forward.refl (fun a _ => ?_) _,
      .refl DigestItemRow.Forward.refl _⟩
    exact AlertWrite.forward_apply w.now st a
  | converge c p =>
    refine ⟨.updateWhere AlertRow.Forward.refl (fun a _ => ?_) _,
      .refl DigestItemRow.Forward.refl _⟩
    exact forward_deliverTelegram w.now a
  | commit =>
    unfold commitTxn
    split
    · exact Forward.refl w
    · exact ⟨evolves_foldl_commitAlert _ _, .refl DigestItemRow.Forward.refl _⟩
  | insertDigestItem tenantId alertId chatId scheduledFor items next hi =>
    refine ⟨.refl AlertRow.Forward.refl _, ?_⟩
    obtain rfl : items = (w.insertDigestItem tenantId alertId chatId scheduledFor).digestItems :=
      congrArg digestItems hi
    exact evolves_insertDigestItem w ..
  | markDigestItemSent id =>
    refine ⟨.refl AlertRow.Forward.refl _, .updateWhere DigestItemRow.Forward.refl ?_ _⟩
    -- the statement asks for `sent_at IS NULL`
    intro i hi
    refine ⟨rfl, rfl, rfl, fun t ht => ?_⟩
    simp [ht] at hi
  | _ => exact .of_eq rfl rfl

end World

namespace System

variable {d : Deployment} {s s' : System}

/-- So does every step. -/
theorem forward_step {a : Action} (h : step d s a = some s') : s.world.Forward s'.world := by
  rcases step_effect h with ⟨pid, c, ch, r, -, hc⟩ | ⟨-, hq⟩
  · exact World.forward_effect (serve_effect hc)
  · generalize s'.world = w' at hq
    cases hq with
    | dropTxn pid => exact .of_eq rfl rfl
    | _ => exact .of_eq rfl rfl

/-- **Delivery state only moves forward.** Between any two states of a run, every alert keeps
`sent` and `sent_at`, its attempts do not decrease and its delivered channels stay delivered;
every digest item that was sent keeps its `sent_at`. -/
theorem delivery_forward {as : List Action} (h : Transition.run (step d) s as = some s') :
    s.world.Forward s'.world :=
  Transition.run_invariant (I := fun t => s.world.Forward t.world)
    (fun _ _ _ hs ha => hs.trans (forward_step ha)) (.refl s.world) h

/-- The alert of an article, before and after its delivery. -/
theorem delivery_forward_oneFeed :
    ∃ s s', Transition.run (step webhookDeployment) oneFeed ingestArticle = some s ∧
      Transition.run (step webhookDeployment) s (deliverAlert 3) = some s' ∧
      (∃ a ∈ s.world.alerts, a.sent = false ∧ ∃ b ∈ s'.world.alerts, b.sent = true) ∧
      s.world.Forward s'.world := by
  have hrun : ((Transition.run (step webhookDeployment) oneFeed ingestArticle).bind fun s =>
      (Transition.run (step webhookDeployment) s (deliverAlert 3)).map fun s' =>
        (s.world.alerts.map AlertRow.sent, s'.world.alerts.map AlertRow.sent))
      = some ([false], [true]) := by decide +kernel
  obtain ⟨s, hs, hrun⟩ := Option.bind_eq_some_iff.mp hrun
  obtain ⟨s', hs', hrun⟩ := Option.map_eq_some_iff.mp hrun
  obtain ⟨hsent, hsent'⟩ := Prod.mk.inj hrun
  refine ⟨s, s', hs, hs', ?_, delivery_forward hs'⟩
  obtain ⟨a, ha, hf⟩ := List.mem_map.mp (hsent ▸ List.mem_singleton_self false)
  obtain ⟨b, hb, ht⟩ := List.mem_map.mp (hsent' ▸ List.mem_singleton_self true)
  exact ⟨a, ha, hf, b, hb, ht⟩

end System

end Feedpulse
