import Feedpulse.Repositories

/-!
# Channels: the notifier and the email quota

`WebhookAlertNotifier` sends through the three channels and says which of them can
be used; `EmailRateLimitService` counts the mails of a tenant per UTC day in Redis
and fails open.
-/

namespace Feedpulse

namespace Notifier

variable (config : AppConfig)

/-- `isEnabled`: always. -/
def isEnabled : Bool := true

/-- `isEmailEnabled`. -/
def isEmailEnabled : Bool :=
  Text.truthy config.resendApiKey && Text.truthy config.resendFromEmail

/-- `isTelegramEnabled`: a tenant token or the shared one. -/
def isTelegramEnabled (telegramBotToken : Option String) : Bool :=
  Text.truthy telegramBotToken || Text.truthy config.telegramBotToken

/-- `sendWebhook`. -/
def sendWebhook (record : AlertNotificationRecord) (destinationUrl : String) :
    Program Unit :=
  match Text.orElse (some destinationUrl) config.webhookNotifierUrl with
  | none => pure ()
  | some url => if url = "" then pure () else netCall (.postWebhook url record)

/-- `sendEmail`. -/
def sendEmail (record : AlertNotificationRecord) (recipientEmails : List String) :
    Program Unit :=
  if recipientEmails.isEmpty then pure ()
  else if !isEmailEnabled config then throw "email_notifier_disabled"
  else netCall (.postEmail recipientEmails record)

/-- `sendTelegramMessage`: the shared token stands in for a missing one. -/
def sendTelegramMessage (chatId : String) (message : TelegramMessage)
    (telegramBotToken : Option String) : Program Unit :=
  match Text.orElse telegramBotToken config.telegramBotToken with
  | none => throw "telegram_notifier_disabled"
  | some token =>
    if token = "" then throw "telegram_notifier_disabled"
    else netCall (.telegramSendMessage token chatId message)

/-- `sendTelegram`. -/
def sendTelegram (record : AlertNotificationRecord) (chatId : String)
    (telegramBotToken : Option String) : Program Unit :=
  sendTelegramMessage config chatId (.alert record) telegramBotToken

/-- `sendTelegramDigest`. -/
def sendTelegramDigest (group : AlertsRepository.TelegramDigestGroup)
    (telegramBotToken : Option String) : Program Unit :=
  sendTelegramMessage config group.chatId (.digest group.tenantId group.items) telegramBotToken

/-- With a usable token the message goes out under the tenant's token if there is one,
else under the shared one. -/
theorem sendTelegramMessage_of_enabled (chatId : String) (message : TelegramMessage)
    {telegramBotToken : Option String}
    (h : isTelegramEnabled config telegramBotToken = true) :
    ∃ token, token ≠ "" ∧ Text.orElse telegramBotToken config.telegramBotToken = some token ∧
      sendTelegramMessage config chatId message telegramBotToken
        = netCall (.telegramSendMessage token chatId message) := by
  unfold isTelegramEnabled at h
  rw [← Text.truthy_orElse] at h
  rcases ho : Text.orElse telegramBotToken config.telegramBotToken with _ | token
  · rw [ho] at h
    cases h
  · have hne : token ≠ "" := by simpa [ho] using h
    refine ⟨token, hne, rfl, ?_⟩
    unfold sendTelegramMessage
    rw [ho]
    exact if_neg hne

end Notifier

/-- `EmailQuotaDecision`. -/
structure EmailQuotaDecision where
  /-- whether the mail may be sent -/
  allowed : Bool
  /-- the daily limit -/
  limit : Nat
  /-- mails counted today, with this one -/
  used : Int
  /-- whether Redis failed and the decision failed open -/
  degraded : Bool
  deriving DecidableEq, Repr

namespace EmailRateLimit

variable (config : AppConfig)

/-- `COUNTER_TTL_SECONDS`. -/
def counterTtlSeconds : Nat := 25 * 60 * 60

/-- `EMAIL_QUOTA_EXCEEDED_REASON`. -/
def emailQuotaExceededReason : String := "quota_exceeded"

/-- The UTC day of an instant, the date part of its ISO string. -/
def utcDay (now : Nat) : Nat := now / 86400000

/-- `giveBack`: undo an increment; a counter at zero gets its expiry again. -/
def giveBack (tenantId : String) (day : Nat) : Program Unit := do
  let remaining : Int ← redisCall (.decr tenantId day)
  if remaining ≤ 0 then redisCall (.expire tenantId day counterTtlSeconds)

/-- `reserve`. -/
def reserve (tenantId : String) : Program EmailQuotaDecision := do
  let limit := config.resendDailyLimit
  if limit = 0 then pure { allowed := true, limit := limit, used := 0, degraded := false }
  else
    let now ← clock
    let day := utcDay now
    tryCatch
      (do
        let used : Int ← redisCall (.incr tenantId day)
        if used = 1 then redisCall (.expire tenantId day counterTtlSeconds)
        if (limit : Int) < used then
          giveBack tenantId day
          pure { allowed := false, limit := limit, used := limit, degraded := false }
        else pure { allowed := true, limit := limit, used := used, degraded := false })
      fun _ => pure { allowed := true, limit := limit, used := 0, degraded := true }

/-- `release`. -/
def release (tenantId : String) : Program Unit := do
  if config.resendDailyLimit = 0 then pure ()
  else
    let now ← clock
    tryCatch (giveBack tenantId (utcDay now)) fun _ => pure ()

end EmailRateLimit

end Feedpulse
