import Feedpulse.Table
import Feedpulse.Text

/-!
# The alerts table

Rows of `alerts`, and the single-row `UPDATE` statements of `AlertsRepository` that
move an alert through delivery. A statement is data (`AlertWrite`) with its effect
on a row (`AlertWrite.apply`), so that what a process may still do to an alert can
be read off the statements it issues.
-/

namespace Feedpulse

/-! ## Rows -/

/-- `alerts.delivery_status`. -/
inductive DeliveryStatus
  /-- created, not handed to delivery yet -/
  | pending
  /-- handed to the delivery queue -/
  | queued
  /-- attempted at least once, to be attempted again -/
  | retrying
  /-- delivered on every channel -/
  | sent
  /-- given up -/
  | failed
  /-- nothing to deliver to -/
  | disabled
  deriving DecidableEq, Repr

/-- The status of one channel of an alert. -/
inductive ChannelStatus
  /-- not delivered -/
  | pending
  /-- delivered -/
  | sent
  /-- given up -/
  | failed
  deriving DecidableEq, Repr

/-- `DeliveryChannel`. -/
inductive DeliveryChannel
  /-- a POST to the tenant's endpoint -/
  | webhook
  /-- a message to every configured chat -/
  | telegram
  /-- a mail to every recipient -/
  | email
  deriving DecidableEq, Repr

/-- A row of `alerts`. -/
structure AlertRow where
  /-- primary key -/
  id : Nat
  /-- owner of the alert -/
  tenantId : String
  /-- the article -/
  entryId : Nat
  /-- the primary rule -/
  ruleId : Nat
  /-- every rule that matched -/
  matchedRules : List Nat
  /-- canonical form of the article's link -/
  canonicalLink : Option String
  /-- delivered on every channel -/
  sent : Bool
  /-- when `sent` was set first -/
  sentAt : Option Nat
  /-- state of the delivery -/
  deliveryStatus : DeliveryStatus
  /-- number of the last attempt -/
  deliveryAttempts : Nat
  /-- time of the last attempt -/
  lastDeliveryAttemptAt : Option Nat
  /-- error of the last attempt -/
  lastDeliveryError : Option String
  /-- when delivery was requested last -/
  lastDeliveryQueuedAt : Option Nat
  /-- creation time -/
  createdAt : Nat
  /-- state of the webhook channel -/
  webhookDeliveryStatus : ChannelStatus
  /-- state of the Telegram channel -/
  telegramDeliveryStatus : ChannelStatus
  /-- state of the email channel -/
  emailDeliveryStatus : ChannelStatus
  deriving DecidableEq, Repr

namespace AlertRow

/-- The column behind a channel (`CHANNEL_DELIVERY_STATUS_COLUMNS`). -/
def channelStatus (a : AlertRow) : DeliveryChannel → ChannelStatus
  | .webhook => a.webhookDeliveryStatus
  | .telegram => a.telegramDeliveryStatus
  | .email => a.emailDeliveryStatus

/-- Assign the column behind a channel. -/
def setChannelStatus (a : AlertRow) (s : ChannelStatus) : DeliveryChannel → AlertRow
  | .webhook => { a with webhookDeliveryStatus := s }
  | .telegram => { a with telegramDeliveryStatus := s }
  | .email => { a with emailDeliveryStatus := s }

@[simp] theorem setChannelStatus_id (a : AlertRow) (s : ChannelStatus) (c : DeliveryChannel) :
    (a.setChannelStatus s c).id = a.id := by cases c <;> rfl

@[simp] theorem setChannelStatus_tenantId (a : AlertRow) (s : ChannelStatus)
    (c : DeliveryChannel) : (a.setChannelStatus s c).tenantId = a.tenantId := by cases c <;> rfl

@[simp] theorem setChannelStatus_entryId (a : AlertRow) (s : ChannelStatus)
    (c : DeliveryChannel) : (a.setChannelStatus s c).entryId = a.entryId := by cases c <;> rfl

@[simp] theorem setChannelStatus_ruleId (a : AlertRow) (s : ChannelStatus)
    (c : DeliveryChannel) : (a.setChannelStatus s c).ruleId = a.ruleId := by cases c <;> rfl

@[simp] theorem setChannelStatus_matchedRules (a : AlertRow) (s : ChannelStatus)
    (c : DeliveryChannel) : (a.setChannelStatus s c).matchedRules = a.matchedRules := by
  cases c <;> rfl

@[simp] theorem setChannelStatus_canonicalLink (a : AlertRow) (s : ChannelStatus)
    (c : DeliveryChannel) : (a.setChannelStatus s c).canonicalLink = a.canonicalLink := by
  cases c <;> rfl

@[simp] theorem setChannelStatus_sent (a : AlertRow) (s : ChannelStatus)
    (c : DeliveryChannel) : (a.setChannelStatus s c).sent = a.sent := by cases c <;> rfl

@[simp] theorem setChannelStatus_deliveryStatus (a : AlertRow) (s : ChannelStatus)
    (c : DeliveryChannel) :
    (a.setChannelStatus s c).deliveryStatus = a.deliveryStatus := by cases c <;> rfl

@[simp] theorem channelStatus_setChannelStatus (a : AlertRow) (s : ChannelStatus)
    (c d : DeliveryChannel) :
    (a.setChannelStatus s c).channelStatus d = if d = c then s else a.channelStatus d := by
  cases c <;> cases d <;> rfl

end AlertRow

/-- The delivery is over: delivered, given up, or nothing to deliver to. -/
def DeliveryStatus.Settled : DeliveryStatus → Prop
  | .sent | .failed | .disabled => True
  | _ => False

instance : DecidablePred DeliveryStatus.Settled := fun s => by
  cases s <;> unfold DeliveryStatus.Settled <;> infer_instance

/-! ## Statements -/

/-- The single-row updates of `AlertsRepository`. -/
inductive AlertWrite
  /-- `markDeliveryQueued` -/
  | markDeliveryQueued
  /-- `markDeliveryDisabled` -/
  | markDeliveryDisabled
  /-- `markSent` -/
  | markSent (attemptNumber : Nat)
  /-- `markDeliveryFailure` -/
  | markDeliveryFailure (attemptNumber : Nat) (error : String) (willRetry : Bool)
  /-- `markChannelDelivered` -/
  | markChannelDelivered (channel : DeliveryChannel)
  /-- `markChannelFailed` -/
  | markChannelFailed (channel : DeliveryChannel)
  /-- `markDeliveryRetryPending` -/
  | markDeliveryRetryPending (attemptNumber : Nat)
  deriving DecidableEq, Repr

namespace AlertWrite

/-- The effect of a statement on the row it matches. -/
def apply (now : Nat) : AlertWrite → AlertRow → AlertRow
  | markDeliveryQueued, a =>
    { a with
      deliveryStatus := if 0 < a.deliveryAttempts then .retrying else .queued
      lastDeliveryQueuedAt := some now }
  | markDeliveryDisabled, a =>
    { a with
      deliveryStatus := .disabled
      lastDeliveryError := some "notifier_disabled"
      lastDeliveryAttemptAt := some now }
  | markSent attemptNumber, a =>
    { a with
      sent := true
      sentAt := a.sentAt.or (some now)
      deliveryStatus := .sent
      deliveryAttempts := max a.deliveryAttempts attemptNumber
      lastDeliveryAttemptAt := some now
      lastDeliveryError := none }
  | markDeliveryFailure attemptNumber error willRetry, a =>
    { a with
      deliveryStatus := if willRetry then .retrying else .failed
      deliveryAttempts := max a.deliveryAttempts attemptNumber
      lastDeliveryAttemptAt := some now
      lastDeliveryError := some error }
  | markChannelDelivered channel, a =>
    { a.setChannelStatus .sent channel with lastDeliveryAttemptAt := some now }
  | markChannelFailed channel, a =>
    -- the guard `<> 'sent'` of the statement: a delivered channel is never demoted
    if a.channelStatus channel = .sent then a
    else { a.setChannelStatus .failed channel with lastDeliveryAttemptAt := some now }
  | markDeliveryRetryPending attemptNumber, a =>
    { a with
      deliveryStatus := .retrying
      deliveryAttempts := max a.deliveryAttempts attemptNumber
      lastDeliveryAttemptAt := some now }

/-- The statements that write `delivery_status` without setting `sent`. -/
def Unsettles : AlertWrite → Prop
  | markDeliveryQueued | markDeliveryDisabled | markDeliveryFailure .. |
    markDeliveryRetryPending _ => True
  | _ => False

instance : DecidablePred Unsettles := fun w => by
  cases w <;> unfold Unsettles <;> infer_instance

/-- The statements that announce another attempt. -/
def Retries : AlertWrite → Bool
  | markDeliveryFailure _ _ willRetry => willRetry
  | markDeliveryRetryPending _ => true
  | _ => false

variable (now : Nat) (w : AlertWrite) (a : AlertRow)

/-- A statement writes neither the identity of an alert nor its rules. -/
theorem apply_identity : (w.apply now a).id = a.id ∧ (w.apply now a).tenantId = a.tenantId ∧
    (w.apply now a).entryId = a.entryId ∧ (w.apply now a).ruleId = a.ruleId ∧
    (w.apply now a).matchedRules = a.matchedRules ∧
    (w.apply now a).canonicalLink = a.canonicalLink := by
  cases w
  case markChannelFailed channel =>
    simp only [apply]
    split <;> simp
  all_goals simp [apply]

@[simp] theorem apply_id : (w.apply now a).id = a.id := (apply_identity now w a).1

@[simp] theorem apply_tenantId : (w.apply now a).tenantId = a.tenantId :=
  (apply_identity now w a).2.1

@[simp] theorem apply_entryId : (w.apply now a).entryId = a.entryId :=
  (apply_identity now w a).2.2.1

@[simp] theorem apply_ruleId : (w.apply now a).ruleId = a.ruleId :=
  (apply_identity now w a).2.2.2.1

@[simp] theorem apply_matchedRules : (w.apply now a).matchedRules = a.matchedRules :=
  (apply_identity now w a).2.2.2.2.1

@[simp] theorem apply_canonicalLink : (w.apply now a).canonicalLink = a.canonicalLink :=
  (apply_identity now w a).2.2.2.2.2

/-- **No statement clears `sent`.** -/
theorem sent_apply_of_sent (h : a.sent = true) : (w.apply now a).sent = true := by
  cases w
  case markChannelFailed channel =>
    simp only [apply]
    split <;> simp [h]
  all_goals simp [apply, h]

/-- No statement takes a delivered channel back. -/
theorem channelStatus_apply_of_sent {channel : DeliveryChannel}
    (h : a.channelStatus channel = .sent) : (w.apply now a).channelStatus channel = .sent := by
  cases w
  case markChannelFailed other =>
    simp only [apply]
    split
    · exact h
    · rename_i hother
      have hne : channel ≠ other := by
        rintro rfl
        exact hother h
      exact (AlertRow.channelStatus_setChannelStatus a .failed other channel).trans
        ((if_neg hne).trans h)
  case markChannelDelivered other =>
    refine (AlertRow.channelStatus_setChannelStatus a .sent other channel).trans ?_
    split
    · rfl
    · exact h
  all_goals cases channel <;> exact h

/-- No statement makes an alert pending again. -/
theorem apply_ne_pending (h : a.deliveryStatus ≠ .pending) :
    (w.apply now a).deliveryStatus ≠ .pending := by
  cases w <;> simp only [apply] <;> (try split) <;> simp_all

/-- A settled alert stays so, unless it is queued or to be attempted again. -/
theorem settled_apply (hq : w ≠ .markDeliveryQueued) (hr : w.Retries = false)
    (h : a.deliveryStatus.Settled) : (w.apply now a).deliveryStatus.Settled := by
  cases w <;> simp only [apply, Retries] at hr ⊢
  case markDeliveryQueued => exact absurd rfl hq
  case markDeliveryFailure attemptNumber error willRetry =>
    rw [hr]
    trivial
  case markChannelDelivered channel =>
    rw [AlertRow.setChannelStatus_deliveryStatus]
    exact h
  case markChannelFailed channel =>
    split
    · exact h
    · rw [AlertRow.setChannelStatus_deliveryStatus]
      exact h
  case markDeliveryRetryPending => cases hr
  all_goals trivial

/-- Exactly the unsettling statements move a row out of the status `sent`. -/
theorem apply_status_of_sent (hs : a.deliveryStatus = .sent) :
    (w.apply now a).deliveryStatus = .sent ↔ ¬ w.Unsettles := by
  cases w <;> simp only [apply, Unsettles] <;> (try split) <;> simp_all

/-- On a row that is not sent, every statement leaves `sent` and the status
consistent. -/
theorem apply_consistent_of_not_sent (h : a.sent = false) :
    (w.apply now a).sent = true → (w.apply now a).deliveryStatus = .sent := by
  cases w <;> simp only [apply] <;> (try split) <;> simp_all

end AlertWrite

end Feedpulse
