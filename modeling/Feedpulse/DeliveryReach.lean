import Feedpulse.DeliveryOutcome

/-!
# Which destinations an attempt reaches

An attempt delivers its alert to destinations: an endpoint, a list of recipients, and the chats
of the tenant. `execute_meets` says what an attempt does with them while writes succeed and it
does not reach one chat and miss another: it delivers over no channel that was sent when it
read the alert, to no destination twice, and marks every channel over which it has reached one.
-/

namespace Feedpulse

open Prog

/-! ## What happens to the rows of alerts -/

namespace World

/-- No alert disappears, and its row is followed by one that `R` relates it to. -/
def RowsKeep (R : AlertRow → AlertRow → Prop) (w w' : World) : Prop :=
  ∀ id a, w.alertRow id = some a → ∃ a', w'.alertRow id = some a' ∧ R a a'

/-- A relation between rows that is kept by whatever is no write to an alert. -/
structure RowRelation (R : AlertRow → AlertRow → Prop) : Prop where
  /-- nothing changes -/
  refl : ∀ a, R a a
  /-- one change after the other -/
  trans : ∀ {a b c}, R a b → R b c → R a c
  /-- a commit replaces the rules -/
  rules : ∀ (a : AlertRow) rules, R a { a with matchedRules := rules }
  /-- a digest delivers the Telegram channel -/
  telegram : ∀ now (a : AlertRow), R a (deliverTelegram now a)

section RowsKeep

variable {R : AlertRow → AlertRow → Prop} {w w' : World} (hR : RowRelation R)
include hR

theorem RowsKeep.trans {w'' : World} (h : RowsKeep R w w') (h' : RowsKeep R w' w'') :
    RowsKeep R w w'' := by
  intro id a ha
  obtain ⟨b, hb, hab⟩ := h id a ha
  obtain ⟨c, hc, hbc⟩ := h' id b hb
  exact ⟨c, hc, hR.trans hab hbc⟩

theorem rowsKeep_of_alerts (h : w'.alerts = w.alerts) : RowsKeep R w w' := by
  intro id a ha
  refine ⟨a, ?_, hR.refl a⟩
  unfold alertRow
  rw [h]
  exact ha

/-- An update of some rows. -/
theorem rowsKeep_updateWhere {p : AlertRow → Bool} {f : AlertRow → AlertRow}
    (h : w'.alerts = Table.updateWhere p f w.alerts) (hid : ∀ a, (f a).id = a.id)
    (hf : ∀ a, R a (f a)) : RowsKeep R w w' := by
  intro id a ha
  refine ⟨if p a then f a else a, ?_, ?_⟩
  · change Table.lookup AlertRow.id id w.alerts = some a at ha
    unfold alertRow
    rw [h, Table.lookup_updateWhere hid, ha]
    rfl
  · split
    · exact hf a
    · exact hR.refl a

/-- A commit adds alerts and replaces rules. -/
theorem rowsKeep_commit {staged : List AlertRow}
    (h : w'.alerts = staged.foldl commitAlert w.alerts) : RowsKeep R w w' := by
  induction staged generalizing w with
  | nil => exact rowsKeep_of_alerts hR h
  | cons r staged ih =>
    have hfirst : RowsKeep R w { w with alerts := commitAlert w.alerts r } := by
      unfold commitAlert
      split
      · intro id a ha
        change Table.lookup AlertRow.id id w.alerts = some a at ha
        exact ⟨a, by rw [alertRow, Table.lookup_append, ha]; rfl, hR.refl a⟩
      · exact rowsKeep_updateWhere hR rfl (fun _ => rfl) fun a => hR.rules a _
    exact hfirst.trans hR (ih h)

/-- A call keeps the relation, if its writes do. -/
theorem rowsKeep_effect {pid : Nat} {c : Call} (h : CallEffect pid w c w')
    (hwrite : ∀ id s, c = .alert (.write id s) → ∀ now a, R a (s.apply now a)) :
    RowsKeep R w w' := by
  cases h with
  | writeAlert id s =>
    exact rowsKeep_updateWhere hR rfl (fun _ => AlertWrite.apply_id ..)
      fun a => hwrite id s rfl w.now a
  | converge c p hc =>
    exact rowsKeep_updateWhere hR rfl (fun _ => rfl) fun a => hR.telegram w.now a
  | commit =>
    unfold commitTxn
    split
    · exact rowsKeep_of_alerts hR rfl
    · exact rowsKeep_commit hR rfl
  | _ => exact rowsKeep_of_alerts hR rfl

end RowsKeep

/-! ### Sent channels stay sent -/

/-- The channel of the alert is marked sent. -/
def SentOn (w : World) (id : Nat) (channel : DeliveryChannel) : Prop :=
  ∃ a, w.alertRow id = some a ∧ a.channelStatus channel = .sent

/-- No alert disappears, and no channel that is sent becomes another. -/
def KeepsSent (w w' : World) : Prop :=
  ∀ id a, w.alertRow id = some a → ∃ a', w'.alertRow id = some a' ∧
    ∀ channel, a.channelStatus channel = .sent → a'.channelStatus channel = .sent

variable {w w' : World} {id : Nat} {channel : DeliveryChannel}

theorem deliverTelegram_sent {now : Nat} {a : AlertRow} (h : a.channelStatus channel = .sent) :
    (deliverTelegram now a).channelStatus channel = .sent := by
  cases channel with
  | telegram => rfl
  | _ => exact h

/-- Sent channels stay sent. -/
theorem rowRelation_sent : RowRelation fun a b : AlertRow =>
    ∀ channel, a.channelStatus channel = .sent → b.channelStatus channel = .sent where
  refl := fun _ _ h => h
  trans := fun h h' channel hc => h' channel (h channel hc)
  rules := fun _ _ _ h => h
  telegram := fun _ _ _ h => deliverTelegram_sent h

theorem KeepsSent.sentOn (h : w.KeepsSent w') (hs : w.SentOn id channel) :
    w'.SentOn id channel := by
  obtain ⟨a, ha, hsent⟩ := hs
  obtain ⟨a', ha', hkeep⟩ := h id a ha
  exact ⟨a', ha', hkeep channel hsent⟩

theorem keepsSent_of_alerts (h : w'.alerts = w.alerts) : w.KeepsSent w' :=
  rowsKeep_of_alerts rowRelation_sent h

/-- No call unsends a channel. -/
theorem keepsSent_effect {pid : Nat} {c : Call} (h : CallEffect pid w c w') :
    w.KeepsSent w' :=
  rowsKeep_effect rowRelation_sent h fun _ s _ now a _ =>
    AlertWrite.channelStatus_apply_of_sent now s a

end World

/-! ## Destinations -/

/-- Where an alert is delivered to. -/
inductive Destination
  /-- an endpoint -/
  | webhook (url : String)
  /-- a list of recipients -/
  | email (recipients : List String)
  /-- a Telegram chat -/
  | chat (chatId : String)
  deriving DecidableEq, Repr

/-- The channel of a destination. -/
def Destination.channel : Destination → DeliveryChannel
  | webhook _ => .webhook
  | email _ => .email
  | chat _ => .telegram

/-- The alert a call delivers, and where to. -/
def Call.delivery? : Call → Option (Nat × Destination)
  | .net (.postWebhook url record) => some (record.alert.id, .webhook url)
  | .net (.postEmail recipients record) => some (record.alert.id, .email recipients)
  | .net (.telegramSendMessage _ chatId (.alert record)) => some (record.alert.id, .chat chatId)
  | _ => none

/-! ## What an attempt sees -/

/-- What an attempt has read and done. -/
structure AttemptView where
  /-- the channels that were sent when the alert was read -/
  known : Option (DeliveryChannel → Bool)
  /-- the destinations it has reached -/
  reached : List Destination
  /-- whether it has missed a chat -/
  missed : Bool
  /-- the channels it has marked delivered -/
  marked : DeliveryChannel → Bool

namespace AttemptView

/-- Before anything was read. -/
def start : AttemptView :=
  { known := none, reached := [], missed := false, marked := fun _ => false }

/-- The alert is read. -/
def read (record : AlertNotificationRecord) (v : AttemptView) : AttemptView :=
  { v with known := some fun channel => record.alert.channelStatus channel = .sent }

/-- A destination is reached. -/
def reach (dest : Destination) (v : AttemptView) : AttemptView :=
  { v with reached := dest :: v.reached }

/-- A destination is missed. -/
def miss (dest : Destination) (v : AttemptView) : AttemptView :=
  { v with missed := v.missed || dest.channel = .telegram }

/-- A channel is marked delivered. -/
def mark (channel : DeliveryChannel) (v : AttemptView) : AttemptView :=
  { v with marked := Function.update v.marked channel true }

/-- What an attempt may do: it reads its alert before it delivers anything, marks channels
after that, and delivers its alert to a destination it has not reached, over a channel that
was not sent. -/
def Allowed (alertId : Nat) (v : AttemptView) (c : Call) : Prop :=
  match c with
  | .alert (.findByIdForWorker _) => v.reached = []
  | .alert (.write _ (.markChannelDelivered _)) => v.known.isSome = true
  | c => ∀ id dest, c.delivery? = some (id, dest) →
      id = alertId ∧ dest ∉ v.reached ∧ ∃ known, v.known = some known ∧ known dest.channel = false

/-- A destination is tried: while no attempt reaches one chat and misses another. -/
def Tries (v : AttemptView) (dest : Destination) (ok : Bool) (v' : AttemptView) : Prop :=
  if ok then (dest.channel = .telegram → v.missed = false) ∧ v' = v.reach dest
  else (dest.channel = .telegram → ∀ other ∈ v.reached, other.channel ≠ .telegram) ∧
    v' = v.miss dest

/-- What an answer makes of the view, while writes succeed, settings list each chat once, and
no attempt reaches one chat and misses another. -/
def Answers (alertId : Nat) (v : AttemptView) (c : Call) (r : Except String c.Reply)
    (v' : AttemptView) : Prop :=
  match c, r with
  | .alert (.findByIdForWorker _), .ok (some record) =>
    record.alert.id = alertId ∧ v' = v.read record
  | .alert (.write _ (.markChannelDelivered channel)), .ok _ => v' = v.mark channel
  | .alert (.write ..), .error _ => False
  | .getSettings _, .ok (some settings) => settings.telegramChatIds.Nodup ∧ v' = v
  | c, r =>
    (c.delivery? = none → v' = v) ∧
      ∀ id dest, c.delivery? = some (id, dest) → v.Tries dest r.isOk v'

/-- Every channel that has reached a destination is marked. -/
def Settled (v : AttemptView) : Prop := ∀ dest ∈ v.reached, v.marked dest.channel = true

end AttemptView

/-- A call that neither reads the alert nor marks a channel nor delivers anything. -/
def Neutral (c : Call) : Prop :=
  match c with
  | .alert (.findByIdForWorker _) => False
  | .alert (.write _ (.markChannelDelivered _)) => False
  | c => c.delivery? = none

section Programs

variable {config : AppConfig} {rt : Runtime} {alertId : Nat} {v : AttemptView}

theorem allowed_of_neutral {c : Call} (h : Neutral c) : v.Allowed alertId c := by
  unfold Neutral at h
  unfold AttemptView.Allowed
  split at h
  · exact h.elim
  · exact h.elim
  · rintro id dest hdelivery
    rw [h] at hdelivery
    cases hdelivery

theorem view_of_neutral {c : Call} {r : Except String c.Reply} {v' : AttemptView}
    (h : Neutral c) (hr : v.Answers alertId c r v') : v' = v := by
  have hnone : c.delivery? = none := by
    unfold Neutral at h
    split at h
    · rfl
    · rfl
    · exact h
  unfold AttemptView.Answers at hr
  split at hr
  · exact h.elim
  · exact h.elim
  · exact hr.elim
  · exact hr.2
  · exact hr.1 hnone

/-- What only reads settings and writes the flags of the alert leaves the view alone. -/
theorem meets_of_neutral {α : Type} {p : Program α} (h : Issues Neutral p) :
    Meets (AttemptView.Allowed alertId) (AttemptView.Answers alertId) p
      (fun _ v' => v' = v) v := by
  have hstep : ∀ v₁ c r v₂, Neutral c → v₁ = v → AttemptView.Answers alertId v₁ c r v₂ →
      v₂ = v := fun _ _ _ _ hc hv hr => (view_of_neutral hc hr).trans hv
  have hsame : Meets (fun _ _ => True) (AttemptView.Answers alertId) p
      (fun _ v' => v' = v) v := h.meets (Q := fun v' : AttemptView => v' = v) hstep rfl
  exact (h.confine hsame).weaken (fun _ _ hc => allowed_of_neutral hc) fun _ _ _ _ hr => hr

/-- A delivery over a channel that was not sent. -/
theorem meets_delivery {c : Call} (dest : Destination) {known : DeliveryChannel → Bool}
    (hc : c.delivery? = some (alertId, dest)) (hknown : v.known = some known)
    (hunsent : known dest.channel = false) (hnew : dest ∉ v.reached)
    {post : Except String c.Reply → AttemptView → Prop}
    (hok : (dest.channel = .telegram → v.missed = false) → ∀ a, post (.ok a) (v.reach dest))
    (herror : (dest.channel = .telegram → ∀ other ∈ v.reached, other.channel ≠ .telegram) →
      ∀ e, post (.error e) (v.miss dest)) :
    Meets (AttemptView.Allowed alertId) (AttemptView.Answers alertId) (invoke c) post v := by
  refine meets_invoke.mpr ⟨?_, fun r v' hr => ?_⟩
  · unfold AttemptView.Allowed
    split
    · cases hc
    · cases hc
    · rintro id dest' hdelivery
      obtain ⟨rfl, rfl⟩ := Prod.mk.inj (Option.some.inj (hc.symm.trans hdelivery))
      exact ⟨rfl, hnew, known, hknown, hunsent⟩
  · unfold AttemptView.Answers at hr
    split at hr
    · cases hc
    · cases hc
    · cases hc
    · cases hc
    · have htries := hr.2 alertId dest hc
      cases r with
      | ok a => exact htries.2 ▸ hok htries.1 a
      | error e => exact htries.2 ▸ herror htries.1 e

/-- A channel is marked after its delivery. -/
theorem meets_markChannelDelivered {channel : DeliveryChannel} (hknown : v.known.isSome = true) :
    Meets (AttemptView.Allowed alertId) (AttemptView.Answers alertId)
      (AlertsRepository.markChannelDelivered alertId channel)
      (fun r v' => r = .ok () ∧ v' = v.mark channel) v := by
  refine meets_bind.mpr (meets_invoke.mpr ⟨hknown, fun r v' hr => ?_⟩)
  cases r with
  | error e => exact hr.elim
  | ok n => exact ⟨rfl, hr⟩

theorem settles_neutral {input : DeliveryInput} (c : Call) (h : Settles input c) : Neutral c := by
  unfold Settles at h
  split at h
  · rename_i id s
    cases s with
    | markChannelDelivered channel => exact h.2.2.1 channel rfl
    | _ => rfl
  · rfl
  · rfl
  · rfl
  · exact h.elim

theorem usesQuota_neutral (c : Call) (h : UsesQuota c) : Neutral c := by
  unfold UsesQuota at h
  split at h
  · rfl
  · rfl
  · exact h.elim

/-! ### The channels, one after the other -/

/-- The attempt has read the alert, has not missed a chat, has settled what it has reached, and
has reached no destination over the pending channels. -/
structure Sofar (known : DeliveryChannel → Bool) (pending : List DeliveryChannel)
    (v : AttemptView) : Prop where
  /-- the alert -/
  known_eq : v.known = some known
  /-- chats -/
  missed : v.missed = false
  /-- channels that have reached something are marked -/
  settled : v.Settled
  /-- channels that are pending have reached nothing -/
  unreached : ∀ dest ∈ v.reached, dest.channel ∉ pending

variable {known : DeliveryChannel → Bool} {pending : List DeliveryChannel}
  {channel : DeliveryChannel}

theorem Sofar.skip (h : Sofar known (channel :: pending) v) : Sofar known pending v :=
  ⟨h.known_eq, h.missed, h.settled,
    fun dest hdest hmem => h.unreached dest hdest (List.mem_cons_of_mem channel hmem)⟩

theorem Sofar.mark (h : Sofar known pending v) : Sofar known pending (v.mark channel) := by
  refine ⟨h.known_eq, h.missed, fun dest hdest => ?_, h.unreached⟩
  by_cases hc : dest.channel = channel
  · simp [AttemptView.mark, hc]
  · simpa [AttemptView.mark, hc] using h.settled dest hdest

/-- A destination that is reached and marked. -/
theorem Sofar.reach_mark {dest : Destination} (h : Sofar known (dest.channel :: pending) v)
    (hpending : dest.channel ∉ pending) :
    Sofar known pending ((v.reach dest).mark dest.channel) := by
  refine ⟨h.known_eq, h.missed, fun other hother => ?_, fun other hother => ?_⟩
  · rcases List.mem_cons.mp hother with rfl | hother
    · simp [AttemptView.mark]
    · exact h.skip.mark.settled other hother
  · rcases List.mem_cons.mp hother with rfl | hother
    · exact hpending
    · exact h.skip.unreached other hother

/-- A channel with one destination: it is marked once the destination is reached. -/
theorem meets_channel {α : Type} {send : Program Unit} {result : α} {handler : String → Program α}
    (hv : Sofar known (channel :: pending) v) (hpending : channel ∉ pending)
    (hsend : Meets (AttemptView.Allowed alertId) (AttemptView.Answers alertId) send
      (fun r v' => v' = v ∨
        r = .ok () ∧ ∃ dest : Destination, dest.channel = channel ∧ v' = v.reach dest) v)
    (hhandler : ∀ message, Issues Neutral (handler message)) :
    Meets (AttemptView.Allowed alertId) (AttemptView.Answers alertId)
      (tryCatch (do
        send
        AlertsRepository.markChannelDelivered alertId channel
        pure result) handler) (fun _ v' => Sofar known pending v') v := by
  refine meets_tryCatch.mpr (meets_bind.mpr (hsend.mono fun r v₁ hr => ?_))
  have hmark : v₁.known = some known → Sofar known pending (v₁.mark channel) →
      Meets (AttemptView.Allowed alertId) (AttemptView.Answers alertId)
        (do
          AlertsRepository.markChannelDelivered alertId channel
          pure result)
        (fun r v' => r = .ok result ∧ Sofar known pending v') v₁ := by
    intro hknown hmarked
    refine meets_bind.mpr ((meets_markChannelDelivered (by simp [hknown])).mono fun r v₂ hr => ?_)
    obtain ⟨rfl, rfl⟩ := hr
    exact ⟨rfl, hmarked⟩
  rcases hr with rfl | ⟨rfl, dest, rfl, rfl⟩
  · cases r with
    | ok _ =>
      refine (hmark hv.known_eq hv.skip.mark).mono fun r v' hr => ?_
      obtain ⟨rfl, hv'⟩ := hr
      exact hv'
    | error e =>
      exact (meets_of_neutral (hhandler e)).mono fun _ _ hv' => hv' ▸ hv.skip
  · refine (hmark hv.known_eq (hv.reach_mark hpending)).mono fun r v' hr => ?_
    obtain ⟨rfl, hv'⟩ := hr
    exact hv'

/-- A request over a channel with one destination. -/
theorem meets_send {c : Call} (dest : Destination) (hv : Sofar known (dest.channel :: pending) v)
    (hc : c.delivery? = some (alertId, dest)) (hunsent : known dest.channel = false)
    (hone : dest.channel ≠ .telegram) :
    Meets (AttemptView.Allowed alertId) (AttemptView.Answers alertId) (invoke c)
      (fun r v' => v' = v ∨ (∃ a, r = .ok a) ∧
        ∃ dest' : Destination, dest'.channel = dest.channel ∧ v' = v.reach dest') v := by
  have hnew : dest ∉ v.reached := fun hmem => hv.unreached dest hmem List.mem_cons_self
  have hmiss : v.miss dest = v := by simp [AttemptView.miss, hone]
  refine meets_delivery dest hc hv.known_eq hunsent hnew (fun _ a => ?_) fun _ e => ?_
  · exact .inr ⟨⟨a, rfl⟩, dest, rfl, rfl⟩
  · exact .inl hmiss

/-- The webhook. -/
theorem attemptWebhook_meets {record : AlertNotificationRecord} {p : DeliveryPlan}
    (hv : Sofar known (.webhook :: pending) v) (hpending : .webhook ∉ pending)
    (hrecord : record.alert.id = alertId)
    (hunsent : p.shouldAttemptWebhook = true → known .webhook = false) :
    Meets (AttemptView.Allowed alertId) (AttemptView.Answers alertId)
      (ProcessAlertDelivery.attemptWebhook config alertId record p)
      (fun _ v' => Sofar known pending v') v := by
  unfold ProcessAlertDelivery.attemptWebhook
  split
  · rename_i url hattempt _
    refine meets_channel hv hpending ?_ fun _ => issues_pure _
    unfold Notifier.sendWebhook
    split
    · exact .inl rfl
    · split
      · exact .inl rfl
      · rename_i url' _ _
        refine (meets_send (.webhook url') hv (by simp [Call.delivery?, hrecord])
          (hunsent hattempt) nofun).mono fun r v' hr => ?_
        exact hr.imp_right fun ⟨⟨_, ha⟩, hdest⟩ => ⟨ha, hdest⟩
  · exact hv.skip

/-- The mail. -/
theorem attemptEmail_meets {input : DeliveryInput} {record : AlertNotificationRecord}
    {p : DeliveryPlan} (hv : Sofar known (.email :: pending) v) (hpending : .email ∉ pending)
    (hrecord : record.alert.id = input.alertId)
    (hunsent : p.shouldAttemptEmail = true → known .email = false) :
    Meets (AttemptView.Allowed input.alertId) (AttemptView.Answers input.alertId)
      (ProcessAlertDelivery.attemptEmail config input.alertId record p)
      (fun _ v' => Sofar known pending v') v := by
  unfold ProcessAlertDelivery.attemptEmail
  split
  · rename_i hattempt
    refine meets_bind.mpr ((meets_of_neutral (reserve_issues usesQuota_neutral ..)).mono
      fun r v₁ hv₁ => ?_)
    subst hv₁
    cases r with
    | error e => exact hv.skip
    | ok quota =>
      dsimp only
      split
      · refine meets_channel hv hpending ?_ fun _ =>
          Issues.bind (release_issues usesQuota_neutral ..) fun _ => issues_pure _
        unfold Notifier.sendEmail
        split
        · exact .inl rfl
        · split
          · exact .inl rfl
          · refine (meets_send (.email p.recipientEmails) hv
              (by simp [Call.delivery?, hrecord]) (hunsent hattempt) nofun).mono fun r v' hr => ?_
            exact hr.imp_right fun ⟨⟨_, ha⟩, hdest⟩ => ⟨ha, hdest⟩
      · refine (meets_of_neutral ?_).mono fun _ _ hv' => hv' ▸ hv.skip
        exact Issues.bind ((markChannelFailed_issues _).mono settles_neutral) fun _ =>
          issues_pure _
  · exact hv.skip

/-! ### The chats -/

/-- What the chats make of the view: nothing but chats is reached, and if one is missed no chat
is reached. -/
structure Chatted (chatIds : List String) (errors : List String) (v v' : AttemptView) : Prop where
  /-- the alert is not read again -/
  known : v'.known = v.known
  /-- no channel is marked -/
  marked : v'.marked = v.marked
  /-- only chats are reached -/
  reached : ∀ dest ∈ v'.reached, dest ∈ v.reached ∨ ∃ chatId ∈ chatIds, dest = .chat chatId
  /-- an error is a missed chat -/
  missed : errors ≠ [] → v'.missed = true
  /-- missed chats stay missed -/
  keeps : v.missed = true → v'.missed = true
  /-- chats are reached or missed -/
  coherent : (v.missed = true → ∀ dest ∈ v.reached, dest.channel ≠ .telegram) →
    v'.missed = true → ∀ dest ∈ v'.reached, dest.channel ≠ .telegram

theorem sendToChats_meets {record : AlertNotificationRecord} {token : Option String}
    {chatIds : List String} (hrecord : record.alert.id = alertId)
    (henabled : Notifier.isTelegramEnabled config token = true) (hknown : v.known = some known)
    (hunsent : known .telegram = false) (hnodup : chatIds.Nodup)
    (hnew : ∀ chatId ∈ chatIds, Destination.chat chatId ∉ v.reached) :
    Meets (AttemptView.Allowed alertId) (AttemptView.Answers alertId)
      (ProcessAlertDelivery.sendToChats config record token chatIds)
      (fun r v' => ∃ errors, r = .ok errors ∧ Chatted chatIds errors v v') v := by
  induction chatIds generalizing v with
  | nil =>
    exact ⟨[], rfl, rfl, rfl, fun dest hdest => .inl hdest, fun h => absurd rfl h, id, id⟩
  | cons chatId chatIds ih =>
    obtain ⟨hfirst, hrest⟩ := List.nodup_cons.mp hnodup
    obtain ⟨t, -, -, hsend⟩ :=
      Notifier.sendTelegramMessage_of_enabled config chatId (.alert record) henabled
    -- the first chat is reached or missed
    have hone : Meets (AttemptView.Allowed alertId) (AttemptView.Answers alertId)
        (tryCatch
          (do
            Notifier.sendTelegram config record chatId token
            pure [])
          fun message => pure ["telegram:" ++ chatId ++ ":" ++ message])
        (fun r v' => ∃ errors, r = .ok errors ∧ Chatted [chatId] errors v v') v := by
      refine meets_tryCatch.mpr (meets_bind.mpr ?_)
      unfold Notifier.sendTelegram
      rw [hsend]
      refine meets_delivery (.chat chatId) (by simp [Call.delivery?, hrecord]) hknown
        hunsent (hnew chatId List.mem_cons_self) (fun hmissed _ => ?_) fun hothers e => ?_
      · refine ⟨[], rfl, rfl, rfl, fun dest hdest => ?_, fun h => absurd rfl h, id,
          fun _ hm => ?_⟩
        · rcases List.mem_cons.mp hdest with rfl | hdest
          · exact .inr ⟨chatId, List.mem_singleton_self _, rfl⟩
          · exact .inl hdest
        · rw [AttemptView.reach, hmissed rfl] at hm
          cases hm
      · refine ⟨_, rfl, rfl, rfl, fun dest hdest => .inl hdest, fun _ => ?_, fun _ => ?_,
          fun _ _ => hothers rfl⟩
        · simp [AttemptView.miss, Destination.channel]
        · simp [AttemptView.miss, Destination.channel]
    refine meets_bind.mpr (hone.mono fun r v₁ hr => ?_)
    obtain ⟨errors, rfl, hv₁⟩ := hr
    have hnew₁ : ∀ chat ∈ chatIds, Destination.chat chat ∉ v₁.reached := by
      intro chat hchat hmem
      rcases hv₁.reached _ hmem with hold | ⟨other, hother, heq⟩
      · exact hnew chat (List.mem_cons_of_mem chatId hchat) hold
      · obtain rfl := List.mem_singleton.mp hother
        cases heq
        exact hfirst hchat
    refine meets_bind.mpr ((ih (hv₁.known.trans hknown) hrest hnew₁).mono fun r v₂ hr => ?_)
    obtain ⟨rest, rfl, hv₂⟩ := hr
    refine ⟨errors ++ rest, rfl, hv₂.known.trans hv₁.known, hv₂.marked.trans hv₁.marked,
      fun dest hdest => ?_, fun herrors => ?_, fun h => hv₂.keeps (hv₁.keeps h),
      fun h => hv₂.coherent (hv₁.coherent h)⟩
    · rcases hv₂.reached dest hdest with hdest | ⟨chat, hchat, rfl⟩
      · rcases hv₁.reached dest hdest with hdest | ⟨chat, hchat, rfl⟩
        · exact .inl hdest
        · obtain rfl := List.mem_singleton.mp hchat
          exact .inr ⟨_, List.mem_cons_self, rfl⟩
      · exact .inr ⟨chat, List.mem_cons_of_mem chatId hchat, rfl⟩
    · by_cases hnil : errors = []
      · exact hv₂.missed (by simpa [hnil] using herrors)
      · exact hv₂.keeps (hv₁.missed hnil)

/-- Telegram: the channel is marked if every chat was reached. -/
theorem attemptTelegram_meets {record : AlertNotificationRecord} {p : DeliveryPlan}
    (hv : Sofar known [.telegram] v) (hrecord : record.alert.id = alertId)
    (henabled : p.shouldSendTelegram = true →
      Notifier.isTelegramEnabled config p.telegramBotToken = true)
    (hunsent : p.shouldSendTelegram = true → known .telegram = false)
    (hnodup : p.telegramChatIds.Nodup) :
    Meets (AttemptView.Allowed alertId) (AttemptView.Answers alertId)
      (ProcessAlertDelivery.attemptTelegram config alertId record p)
      (fun _ v' => v'.Settled) v := by
  unfold ProcessAlertDelivery.attemptTelegram
  split
  · rename_i hsend
    have hnew : ∀ chatId ∈ p.telegramChatIds, Destination.chat chatId ∉ v.reached :=
      fun chatId _ hmem => hv.unreached _ hmem List.mem_cons_self
    refine meets_bind.mpr ((sendToChats_meets hrecord (henabled hsend) hv.known_eq
      (hunsent hsend) hnodup hnew).mono fun r v₁ hr => ?_)
    obtain ⟨errors, rfl, hv₁⟩ := hr
    have hothers : ∀ dest ∈ v₁.reached, dest.channel ≠ .telegram →
        v₁.marked dest.channel = true := by
      intro dest hdest hne
      rw [hv₁.marked]
      rcases hv₁.reached dest hdest with hdest | ⟨chatId, -, rfl⟩
      · exact hv.settled dest hdest
      · exact absurd rfl hne
    cases errors with
    | nil =>
      refine meets_bind.mpr ((meets_markChannelDelivered
        (by simp [hv₁.known, hv.known_eq])).mono fun r v₂ hr => ?_)
      obtain ⟨rfl, rfl⟩ := hr
      intro dest hdest
      by_cases hc : dest.channel = .telegram
      · simp [AttemptView.mark, hc]
      · simpa [AttemptView.mark, hc] using hothers dest hdest hc
    | cons error errors =>
      -- a chat was missed, so none was reached
      have hmissed : v₁.missed = true := hv₁.missed (by simp)
      have hnone : v.missed = true → ∀ dest ∈ v.reached, dest.channel ≠ .telegram :=
        fun h => absurd (hv.missed.symm.trans h) (by simp)
      exact fun dest hdest => hothers dest hdest (hv₁.coherent hnone hmissed dest hdest)
  · exact hv.settled

/-! ### The attempt -/

theorem deliverChannels_meets {input : DeliveryInput} {record : AlertNotificationRecord}
    {settings : Option TenantSettings} (hrecord : record.alert.id = input.alertId)
    (hnodup : ∀ row, settings = some row → row.telegramChatIds.Nodup)
    (hv : Sofar known [.webhook, .email, .telegram] v)
    (hknown : ∀ channel, known channel = decide (record.alert.channelStatus channel = .sent)) :
    Meets (AttemptView.Allowed input.alertId) (AttemptView.Answers input.alertId)
      (ProcessAlertDelivery.deliverChannels config input record
        (ProcessAlertDelivery.plan config rt record.alert settings))
      (fun _ v' => v'.Settled) v := by
  have hchats :
      (ProcessAlertDelivery.plan config rt record.alert settings).telegramChatIds.Nodup := by
    cases settings with
    | none => exact List.nodup_nil
    | some row => exact hnodup row rfl
  refine meets_bind.mpr ((attemptWebhook_meets hv (by simp) hrecord fun h => ?_).mono
    fun r v₁ hv₁ => ?_)
  · rw [hknown]
    simp only [ProcessAlertDelivery.plan, Bool.and_eq_true, decide_eq_true_eq] at h
    exact decide_eq_false h.2
  cases r with
  | error e => exact hv₁.settled
  | ok webhookErrors =>
    refine meets_bind.mpr ((attemptEmail_meets hv₁ (by simp) hrecord fun h => ?_).mono
      fun r v₂ hv₂ => ?_)
    · rw [hknown]
      simp only [ProcessAlertDelivery.plan, Bool.and_eq_true, decide_eq_true_eq] at h
      exact decide_eq_false h.2
    cases r with
    | error e => exact hv₂.settled
    | ok emailErrors =>
      refine meets_bind.mpr ((attemptTelegram_meets hv₂ hrecord (fun h => ?_) (fun h => ?_)
        hchats).mono fun r v₃ hv₃ => ?_)
      · simp only [ProcessAlertDelivery.plan, Bool.and_eq_true] at h
        exact h.1.1.2
      · rw [hknown]
        simp only [ProcessAlertDelivery.plan, Bool.and_eq_true, decide_eq_true_eq] at h
        exact decide_eq_false h.2
      cases r with
      | error e => exact hv₃
      | ok telegramErrors =>
        have hrest : Issues Neutral (do
            ProcessAlertDelivery.queueDigest input.alertId record
              (ProcessAlertDelivery.plan config rt record.alert settings)
            ProcessAlertDelivery.settle input
              (ProcessAlertDelivery.plan config rt record.alert settings)
              (webhookErrors ++ emailErrors.1 ++ telegramErrors) emailErrors.2) :=
          Issues.bind ((queueDigest_issues ..).mono settles_neutral) fun _ =>
            (settle_issues ..).mono settles_neutral
        exact (meets_of_neutral hrest).mono fun _ _ hv' => hv' ▸ hv₃

/-- **An attempt marks every channel over which it has reached a destination**, and delivers
over no channel that was sent when it read the alert. -/
theorem execute_meets (input : DeliveryInput) :
    Meets (AttemptView.Allowed input.alertId) (AttemptView.Answers input.alertId)
      (ProcessAlertDelivery.execute config rt input) (fun _ v' => v'.Settled) .start := by
  have hstart : AttemptView.start.Settled := by simp [AttemptView.Settled, AttemptView.start]
  refine meets_bind.mpr (meets_invoke.mpr ⟨rfl, fun r v₁ hr => ?_⟩)
  rcases r with e | _ | record
  · obtain rfl := hr.1 rfl
    exact hstart
  · obtain rfl := hr.1 rfl
    exact hstart
  · obtain ⟨hrecord, rfl⟩ := hr
    have hread : Sofar (fun channel => decide (record.alert.channelStatus channel = .sent))
        [.webhook, .email, .telegram] (AttemptView.start.read record) :=
      ⟨rfl, rfl, by simp [AttemptView.Settled, AttemptView.read, AttemptView.start],
        by simp [AttemptView.read, AttemptView.start]⟩
    have hsettings : ∀ r v', AttemptView.Answers input.alertId (AttemptView.start.read record)
        (.getSettings record.alert.tenantId) r v' → v' = AttemptView.start.read record ∧
          ∀ settings row, r = .ok settings → settings = some row → row.telegramChatIds.Nodup := by
      intro r v' hr
      rcases r with e | _ | row
      · exact ⟨hr.1 rfl, nofun⟩
      · exact ⟨hr.1 rfl, by rintro settings row hr rfl; cases hr⟩
      · exact ⟨hr.2, by rintro settings row hr' rfl; cases hr'; exact hr.1⟩
    refine meets_bind.mpr (meets_invoke.mpr ⟨nofun, fun r v₂ hr => ?_⟩)
    obtain ⟨rfl, hnodup⟩ := hsettings r v₂ hr
    cases r with
    | error e => exact hread.settled
    | ok settings =>
      dsimp only [ProcessAlertDelivery.process]
      split
      · exact (meets_of_neutral (markDeliveryDisabled_issues.mono settles_neutral)).mono
          fun _ _ hv' => hv' ▸ hread.settled
      · refine meets_tryCatch.mpr ((deliverChannels_meets hrecord
          (fun row hrow => hnodup settings row rfl hrow) hread fun _ => rfl).mono
          fun r v₃ hv₃ => ?_)
        cases r with
        | ok _ => exact hv₃
        | error message =>
          refine (meets_of_neutral ?_).mono fun _ _ hv' => hv' ▸ hv₃
          exact Issues.bind ((markDeliveryFailure_issues _ _ id).mono settles_neutral)
            fun _ => issues_throw' _

end Programs

end Feedpulse
