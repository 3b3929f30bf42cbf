import Feedpulse.Notifier

/-!
# Alert delivery

`DeliverAlertUseCase` hands an alert to the delivery queue, `ProcessAlertDelivery`
is what the worker runs for a job of that queue: it decides which channels to
attempt, attempts them, and settles the alert.
-/

namespace Feedpulse

/-! ## Handing over -/

/-- The answer of `DeliverAlertUseCase`. -/
inductive DeliverAlertStatus
  /-- handed to the delivery queue -/
  | queued
  /-- delivered before -/
  | alreadySent
  /-- there is no notifier -/
  | disabled
  deriving DecidableEq, Repr

namespace DeliverAlert

/-- The part of `execute` after the lookup. -/
def deliver (alertId : Nat) (source : DeliverySource) (alert : AlertNotificationRecord) :
    Program DeliverAlertStatus := do
  if alert.alert.sent then pure .alreadySent
  else if !Notifier.isEnabled then
    AlertsRepository.markDeliveryDisabled alertId
    pure .disabled
  else
    AlertsRepository.markDeliveryQueued alertId
    let queuedAt ← clock
    AlertDeliveryQueue.enqueue { alertId := alertId, queuedAt := queuedAt, source := source }
    pure .queued

/-- `execute` for ingestion: the alert is read across tenants. -/
def executeIngestion (alertId : Nat) : Program DeliverAlertStatus := do
  match ← AlertsRepository.findByIdForWorker alertId with
  | none => throw "alert_not_found"
  | some alert => deliver alertId .ingestion alert

/-- `execute` for a tenant's request: it must carry the tenant, and the alert is read in
its scope. -/
def executeManual (alertId : Nat) (tenantId : Option String) : Program DeliverAlertStatus := do
  match tenantId with
  | none => throw "missing_tenant_context"
  | some tenantId =>
    if tenantId = "" then throw "missing_tenant_context"
    else match ← AlertsRepository.findByIdForTenant alertId tenantId with
      | none => throw "alert_not_found"
      | some alert => deliver alertId .manual alert

end DeliverAlert

/-! ## Delivering -/

/-- The input of `ProcessAlertDelivery`, taken from the job. -/
structure DeliveryInput where
  /-- the alert -/
  alertId : Nat
  /-- `attemptsMade + 1` -/
  attemptNumber : Nat
  /-- whether the queue has attempts left after this one -/
  willRetry : Bool
  deriving DecidableEq, Repr

/-- What is decided before anything is sent: the destinations, and the channels that
are attempted. -/
structure DeliveryPlan where
  /-- the webhook endpoint -/
  notifierUrl : Option String
  /-- recipients of the mail -/
  recipientEmails : List String
  /-- Telegram chats -/
  telegramChatIds : List String
  /-- instant or digest -/
  telegramDeliveryMode : TelegramDeliveryMode
  /-- the resolved bot token -/
  telegramBotToken : Option String
  /-- whether the webhook is attempted -/
  shouldAttemptWebhook : Bool
  /-- whether the mail is attempted -/
  shouldAttemptEmail : Bool
  /-- whether Telegram messages are attempted -/
  shouldSendTelegram : Bool
  /-- whether the alert is queued for a digest -/
  shouldQueueTelegramDigest : Bool
  deriving DecidableEq, Repr

/-- Some channel is attempted. -/
def DeliveryPlan.attempts (p : DeliveryPlan) : Bool :=
  p.shouldAttemptWebhook || p.shouldAttemptEmail || p.shouldSendTelegram ||
    p.shouldQueueTelegramDigest

namespace ProcessAlertDelivery

variable (config : AppConfig) (rt : Runtime)

/-- The decisions at the top of `execute`. -/
def plan (alert : AlertRow) (settings : Option TenantSettings) : DeliveryPlan :=
  let notifierUrl := (settings.bind TenantSettings.webhookNotifierUrl).or config.webhookNotifierUrl
  let recipientEmails := (settings.map TenantSettings.recipientEmails).getD []
  let telegramChatIds := (settings.map TenantSettings.telegramChatIds).getD []
  let telegramDeliveryMode :=
    (settings.map TenantSettings.telegramDeliveryMode).getD Settings.defaultTelegramDeliveryMode
  let telegramBotToken :=
    TelegramBotTokenResolver.resolveForTenant config rt alert.tenantId settings
  { notifierUrl := notifierUrl
    recipientEmails := recipientEmails
    telegramChatIds := telegramChatIds
    telegramDeliveryMode := telegramDeliveryMode
    telegramBotToken := telegramBotToken
    shouldAttemptWebhook := Text.truthy notifierUrl && alert.webhookDeliveryStatus ≠ .sent
    shouldAttemptEmail :=
      !recipientEmails.isEmpty && Notifier.isEmailEnabled config &&
        alert.emailDeliveryStatus ≠ .sent
    shouldSendTelegram :=
      !telegramChatIds.isEmpty && Notifier.isTelegramEnabled config telegramBotToken &&
        telegramDeliveryMode = .instant && alert.telegramDeliveryStatus ≠ .sent
    shouldQueueTelegramDigest :=
      !telegramChatIds.isEmpty && Notifier.isTelegramEnabled config telegramBotToken &&
        telegramDeliveryMode = .digest10m && alert.telegramDeliveryStatus ≠ .sent }

/-- The webhook, with the retryable errors it adds. -/
def attemptWebhook (alertId : Nat) (record : AlertNotificationRecord) (p : DeliveryPlan) :
    Program (List String) :=
  match p.shouldAttemptWebhook, p.notifierUrl with
  | true, some notifierUrl =>
    tryCatch
      (do
        Notifier.sendWebhook config record notifierUrl
        AlertsRepository.markChannelDelivered alertId .webhook
        pure [])
      fun message => pure ["webhook:" ++ message]
  | _, _ => pure []

/-- The mail within the quota, with the retryable and the terminal errors it adds. -/
def attemptEmail (alertId : Nat) (record : AlertNotificationRecord) (p : DeliveryPlan) :
    Program (List String × List String) := do
  if p.shouldAttemptEmail then
    let quota ← EmailRateLimit.reserve config record.alert.tenantId
    if quota.allowed then
      tryCatch
        (do
          Notifier.sendEmail config record p.recipientEmails
          AlertsRepository.markChannelDelivered alertId .email
          pure ([], []))
        fun message => do
          EmailRateLimit.release config record.alert.tenantId
          pure (["email:" ++ message], [])
    else
      AlertsRepository.markChannelFailed alertId .email
      pure ([], ["email:" ++ EmailRateLimit.emailQuotaExceededReason ++ ":daily_limit_" ++
        toString quota.limit])
  else pure ([], [])

/-- The messages to the chats, with the retryable errors they add. -/
def sendToChats (record : AlertNotificationRecord) (token : Option String) :
    List String → Program (List String)
  | [] => pure []
  | chatId :: chatIds => do
    let errors ← tryCatch
      (do
        Notifier.sendTelegram config record chatId token
        pure [])
      fun message => pure ["telegram:" ++ chatId ++ ":" ++ message]
    let rest ← sendToChats record token chatIds
    pure (errors ++ rest)

/-- Telegram: the channel is delivered when every chat was. -/
def attemptTelegram (alertId : Nat) (record : AlertNotificationRecord) (p : DeliveryPlan) :
    Program (List String) := do
  if p.shouldSendTelegram then
    let errors ← sendToChats config record p.telegramBotToken p.telegramChatIds
    if errors.isEmpty then AlertsRepository.markChannelDelivered alertId .telegram
    pure errors
  else pure []

/-- The digest. -/
def queueDigest (alertId : Nat) (record : AlertNotificationRecord) (p : DeliveryPlan) :
    Program Unit := do
  if p.shouldQueueTelegramDigest then
    AlertsRepository.queueTelegramDigestItems alertId record.alert.tenantId p.telegramChatIds

/-- `'notification_channels_failed:'` and the errors. -/
def channelsFailed (errors : List String) : String :=
  "notification_channels_failed:" ++ Text.join "|" errors

/-- The channels `checkAllChannelsDelivered` is asked about. -/
def requiredChannels (p : DeliveryPlan) : World.ChannelConfig :=
  { hasWebhook := Text.truthy p.notifierUrl
    hasEmail := !p.recipientEmails.isEmpty
    hasTelegram := !p.telegramChatIds.isEmpty && p.telegramDeliveryMode = .instant }

/-- The decision after the attempts. -/
def settle (input : DeliveryInput) (p : DeliveryPlan)
    (channelErrors terminalChannelErrors : List String) : Program Unit := do
  if !channelErrors.isEmpty then
    throw (channelsFailed (channelErrors ++ terminalChannelErrors))
  else if !terminalChannelErrors.isEmpty then
    AlertsRepository.markDeliveryFailure input.alertId input.attemptNumber
      (channelsFailed terminalChannelErrors) false
  else
    let allDelivered ←
      AlertsRepository.checkAllChannelsDelivered input.alertId (requiredChannels p)
    if allDelivered then
      let _ ← AlertsRepository.markSent input.alertId input.attemptNumber
    else if input.willRetry then
      AlertsRepository.markDeliveryRetryPending input.alertId input.attemptNumber

/-- The body of the `try` in `execute`. -/
def deliverChannels (input : DeliveryInput) (record : AlertNotificationRecord)
    (p : DeliveryPlan) : Program Unit := do
  let webhookErrors ← attemptWebhook config input.alertId record p
  let (emailErrors, terminalErrors) ← attemptEmail config input.alertId record p
  let telegramErrors ← attemptTelegram config input.alertId record p
  queueDigest input.alertId record p
  settle input p (webhookErrors ++ emailErrors ++ telegramErrors) terminalErrors

/-- `execute` after the alert and the settings were read. -/
def process (input : DeliveryInput) (record : AlertNotificationRecord)
    (settings : Option TenantSettings) : Program Unit :=
  let p := plan config rt record.alert settings
  if !p.attempts || !Notifier.isEnabled then
    AlertsRepository.markDeliveryDisabled input.alertId
  else
    tryCatch (deliverChannels config input record p) fun message => do
      AlertsRepository.markDeliveryFailure input.alertId input.attemptNumber message
        input.willRetry
      throw message

/-- `execute`. -/
def execute (input : DeliveryInput) : Program Unit := do
  match ← AlertsRepository.findByIdForWorker input.alertId with
  | none => throw "alert_not_found"
  | some record =>
    let settings ← getByTenantId record.alert.tenantId
    process config rt input record settings

end ProcessAlertDelivery

end Feedpulse
