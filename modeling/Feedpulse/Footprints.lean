import Feedpulse.System

/-!
# Who issues which calls

Every process is confined to the calls its role admits: only fetch workers open
transactions, a delivery worker writes only to its own alert, a job enters a queue only
under the id that belongs to it. `mayIssue_of_reachable` says so for every process in every
reachable state; the rest of the file goes through the programs.
-/

namespace Feedpulse

open Prog

/-! ## The footprints of the roles -/

/-- The calls of an alert's hand-over to delivery. -/
def HandsOver : Call → Prop
  | .alert (.findByIdForWorker _) => True
  | .alert (.findByIdForTenant ..) => True
  | .alert (.write _ s) => s = .markDeliveryQueued
  | .queue (.addAlertJob jobId data) => jobId = alertJobId data.alertId
  | .clock => True
  | _ => False

/-- Which Telegram messages may go out under which token. -/
abbrev Messages := String → TelegramMessage → Prop

/-- Any message under any token. -/
def AnyMessage : Messages := fun _ _ => True

/-- The calls of the three channels and the email quota. -/
def UsesChannels (T : Messages) : Call → Prop
  | .net (.postWebhook ..) => True
  | .net (.postEmail ..) => True
  | .net (.telegramSendMessage token _ message) => T token message
  | .redis _ => True
  | .clock => True
  | _ => False

/-- The calls of the email quota. -/
def UsesQuota : Call → Prop
  | .redis _ => True
  | .clock => True
  | _ => False

/-- The calls of an attempt around its deliveries: it writes to its alert, unless it hands it
over or announces an attempt that will not come, and it queues digests. -/
def Settles (input : DeliveryInput) : Call → Prop
  | .alert (.write id s) =>
    id = input.alertId ∧ s ≠ .markDeliveryQueued ∧
      (∀ channel, s ≠ .markChannelDelivered channel) ∧
      (s.Retries = true → input.willRetry = true)
  | .alert (.checkAllChannelsDelivered id _) => id = input.alertId
  | .alert (.insertDigestItem _ alertId _ _) => alertId = input.alertId
  | .clock => True
  | _ => False

/-- The calls of an attempt to deliver, once the alert and the settings were read. -/
def Delivers (T : Messages) (input : DeliveryInput) : Call → Prop
  | .alert (.write id s) =>
    id = input.alertId ∧ s ≠ .markDeliveryQueued ∧ (s.Retries = true → input.willRetry = true)
  | .alert (.checkAllChannelsDelivered id _) => id = input.alertId
  | .alert (.insertDigestItem _ alertId _ _) => alertId = input.alertId
  | c => UsesChannels T c

/-- The calls of a digest sweep. -/
def Sweeps : Call → Prop
  | .alert (.listDueGroups ..) => True
  | .alert (.listGroupItems ..) => True
  | .alert (.markDigestItemSent _) => True
  | .alert (.convergeTelegram _) => True
  | .alert .reconcileTelegram => True
  | .getSettings _ => True
  | .net (.telegramSendMessage _ _ (.digest ..)) => True
  | .clock => True
  | _ => False

/-- The calls a process may issue in its role. -/
def Role.MayIssue : Role → Call → Prop
  | .scheduler, .feed (.claimDueFeeds _) => True
  | .scheduler, .feed (.releaseStuckFeeds _) => True
  | .scheduler, .queue (.getFetchJob _) => True
  | .scheduler, .queue (.addFetchJob jobId data) => jobId = scheduledJobId data.feedId
  | .scheduler, .alert (.listDueGroups ..) => True
  | .scheduler, .alert (.listGroupItems ..) => True
  | .scheduler, .alert (.markDigestItemSent _) => True
  | .scheduler, .alert (.convergeTelegram _) => True
  | .scheduler, .alert .reconcileTelegram => True
  | .scheduler, .getSettings _ => True
  | .scheduler, .assertSchemaReady => True
  | .scheduler, .net (.telegramSendMessage _ _ (.digest ..)) => True
  | .scheduler, .clock => True
  | .scheduler, _ => False
  | .request, .feed (.findByIdForTenant ..) => True
  | .request, .feed (.isClaimed ..) => True
  | .request, .feed (.update _) => True
  | .request, .queue (.addFetchJob _ data) => data.source = .manual
  | .request, c => HandsOver c
  | .fetchWorker .., .feed (.findByIdForWorker _) => True
  | .fetchWorker .., .feed (.updateAfterFetch _) => True
  | .fetchWorker .., .feed (.recordFetchLog _) => True
  | .fetchWorker .., .net (.fetchFeed ..) => True
  | .fetchWorker .., .ingest _ => True
  | .fetchWorker .., .assertSchemaReady => True
  | .fetchWorker .., .random _ => True
  | .fetchWorker .., c => HandsOver c
  | .deliveryWorker _ input, .alert (.findByIdForWorker id) => id = input.alertId
  | .deliveryWorker .., .getSettings _ => True
  | .deliveryWorker _ input, c => Delivers AnyMessage input c

/-! ## Hand-over -/

section HandOver

variable {allowed : Call → Prop} (hall : ∀ c, HandsOver c → allowed c)
include hall

theorem deliver_issues (alertId : Nat) (source : DeliverySource)
    (alert : AlertNotificationRecord) :
    Issues allowed (DeliverAlert.deliver alertId source alert) := by
  refine Issues.mono ?_ hall
  unfold DeliverAlert.deliver
  split
  · exact issues_pure _
  · refine Issues.bind (Issues.bind (issues_invoke rfl) fun _ => issues_pure _) fun _ => ?_
    refine Issues.bind (issues_invoke trivial) fun queuedAt => ?_
    exact Issues.bind (issues_invoke rfl) fun _ => issues_pure _

theorem executeIngestion_issues (alertId : Nat) :
    Issues allowed (DeliverAlert.executeIngestion alertId) := by
  refine Issues.bind (issues_invoke (hall _ trivial)) fun alert => ?_
  cases alert with
  | none => exact issues_throw' _
  | some alert => exact deliver_issues hall ..

theorem executeManual_issues (alertId : Nat) (tenantId : Option String) :
    Issues allowed (DeliverAlert.executeManual alertId tenantId) := by
  cases tenantId with
  | none => exact issues_throw' _
  | some tenantId =>
    unfold DeliverAlert.executeManual
    dsimp only
    split
    · exact issues_throw' _
    · refine Issues.bind (issues_invoke (hall _ trivial)) fun alert => ?_
      cases alert with
      | none => exact issues_throw' _
      | some alert => exact deliver_issues hall ..

end HandOver

/-! ## The email quota -/

section Quota

variable {allowed : Call → Prop} (hall : ∀ c, UsesQuota c → allowed c) (config : AppConfig)
include hall

theorem giveBack_issues (tenantId : String) (day : Nat) :
    Issues allowed (EmailRateLimit.giveBack tenantId day) := by
  refine Issues.bind (issues_invoke (hall _ trivial)) fun remaining => ?_
  exact Issues.ite (fun _ => issues_invoke (hall _ trivial)) fun _ => issues_pure _

theorem reserve_issues (tenantId : String) :
    Issues allowed (EmailRateLimit.reserve config tenantId) := by
  unfold EmailRateLimit.reserve
  dsimp only
  split
  · exact issues_pure _
  · refine Issues.bind (issues_invoke (hall _ trivial)) fun now => ?_
    refine Issues.tryCatch ?_ fun _ => issues_pure _
    refine Issues.bind (issues_invoke (hall _ trivial)) fun used => ?_
    have hdecide : Issues allowed (if (config.resendDailyLimit : Int) < used then do
        EmailRateLimit.giveBack tenantId (EmailRateLimit.utcDay now)
        pure (EmailQuotaDecision.mk false config.resendDailyLimit config.resendDailyLimit false)
      else pure (EmailQuotaDecision.mk true config.resendDailyLimit used false)) :=
      Issues.ite (fun _ => Issues.bind (giveBack_issues hall ..) fun _ => issues_pure _)
        fun _ => issues_pure _
    exact Issues.ite (fun _ => Issues.bind (issues_invoke (hall _ trivial)) fun _ => hdecide)
      fun _ => hdecide

theorem release_issues (tenantId : String) :
    Issues allowed (EmailRateLimit.release config tenantId) := by
  unfold EmailRateLimit.release
  split
  · exact issues_pure _
  · refine Issues.bind (issues_invoke (hall _ trivial)) fun now => ?_
    exact Issues.tryCatch (giveBack_issues hall ..) fun _ => issues_pure _

end Quota

/-! ## Channels -/

section Channels

variable {allowed : Call → Prop} {T : Messages} (hall : ∀ c, UsesChannels T c → allowed c)
  (config : AppConfig)

/-- The message goes out under the given token, or under the shared one in its place. -/
theorem sendTelegramMessage_issues (chatId : String) (message : TelegramMessage)
    (token : Option String)
    (hT : ∀ t, t ≠ "" → Text.orElse token config.telegramBotToken = some t →
      allowed (.net (.telegramSendMessage t chatId message))) :
    Issues allowed (Notifier.sendTelegramMessage config chatId message token) := by
  unfold Notifier.sendTelegramMessage
  split
  · exact issues_throw' _
  · rename_i t ht
    exact Issues.ite (fun _ => issues_throw' _) fun hne => issues_invoke (hT t hne ht)

include hall

theorem sendWebhook_issues (record : AlertNotificationRecord) (url : String) :
    Issues allowed (Notifier.sendWebhook config record url) := by
  unfold Notifier.sendWebhook
  split
  · exact issues_pure _
  · exact Issues.ite (fun _ => issues_pure _) fun _ => issues_invoke (hall _ trivial)

theorem sendEmail_issues (record : AlertNotificationRecord) (recipientEmails : List String) :
    Issues allowed (Notifier.sendEmail config record recipientEmails) := by
  unfold Notifier.sendEmail
  refine Issues.ite (fun _ => issues_pure _) fun _ => ?_
  exact Issues.ite (fun _ => issues_throw' _) fun _ => issues_invoke (hall _ trivial)

theorem sendToChats_issues (record : AlertNotificationRecord) (token : Option String)
    (chatIds : List String)
    (hT : ∀ t, Text.orElse token config.telegramBotToken = some t → T t (.alert record)) :
    Issues allowed (ProcessAlertDelivery.sendToChats config record token chatIds) := by
  induction chatIds with
  | nil => exact issues_pure _
  | cons chatId chatIds ih =>
    refine Issues.bind ?_ fun _ => Issues.bind ih fun _ => issues_pure _
    refine Issues.tryCatch (Issues.bind ?_ fun _ => issues_pure _) fun _ => issues_pure _
    exact sendTelegramMessage_issues _ _ _ _ fun t _ ht => hall _ (hT t ht)

end Channels

/-! ## Delivery workers -/

section Delivery

variable (config : AppConfig) (rt : Runtime) {T : Messages} {input : DeliveryInput}

theorem settles_delivers (c : Call) (h : Settles input c) : Delivers T input c := by
  unfold Settles at h
  split at h
  · exact ⟨h.1, h.2.1, h.2.2.2⟩
  all_goals first | exact h | exact h.elim

theorem usesQuota_channels (c : Call) (h : UsesQuota c) : UsesChannels T c := by
  unfold UsesQuota at h
  split at h
  all_goals first | exact h | exact h.elim

/-- The writes of an attempt other than the one that marks a channel delivered. -/
theorem settles_write {s : AlertWrite} (hs : s ≠ .markDeliveryQueued)
    (hchannel : ∀ channel, s ≠ .markChannelDelivered channel)
    (hr : s.Retries = true → input.willRetry = true) :
    Issues (Settles input) (AlertsRepository.write input.alertId s) :=
  Issues.bind (issues_invoke ⟨rfl, hs, hchannel, hr⟩) fun _ => issues_pure _

theorem markChannelFailed_issues (channel : DeliveryChannel) :
    Issues (Settles input) (AlertsRepository.markChannelFailed input.alertId channel) :=
  settles_write nofun nofun nofun

theorem markChannelDelivered_issues (channel : DeliveryChannel) :
    Issues (Delivers T input) (AlertsRepository.markChannelDelivered input.alertId channel) :=
  Issues.bind (issues_invoke ⟨rfl, nofun, nofun⟩) fun _ => issues_pure _

theorem markDeliveryDisabled_issues :
    Issues (Settles input) (AlertsRepository.markDeliveryDisabled input.alertId) :=
  settles_write nofun nofun nofun

/-- A failure is announced with the retries that are left. -/
theorem markDeliveryFailure_issues (attemptNumber : Nat) (message : String) {willRetry : Bool}
    (h : willRetry = true → input.willRetry = true) :
    Issues (Settles input)
      (AlertsRepository.markDeliveryFailure input.alertId attemptNumber message willRetry) :=
  settles_write nofun nofun h

theorem usesChannels_delivers (c : Call) (h : UsesChannels T c) :
    Delivers T input c := by
  unfold UsesChannels at h
  split at h
  all_goals first | exact h | exact h.elim

theorem attemptWebhook_issues (record : AlertNotificationRecord) (p : DeliveryPlan) :
    Issues (Delivers T input)
      (ProcessAlertDelivery.attemptWebhook config input.alertId record p) := by
  unfold ProcessAlertDelivery.attemptWebhook
  split
  · refine Issues.tryCatch ?_ fun _ => issues_pure _
    refine Issues.bind (sendWebhook_issues usesChannels_delivers ..) fun _ => ?_
    exact Issues.bind (markChannelDelivered_issues _) fun _ => issues_pure _
  · exact issues_pure _

theorem attemptEmail_issues (record : AlertNotificationRecord) (p : DeliveryPlan) :
    Issues (Delivers T input)
      (ProcessAlertDelivery.attemptEmail config input.alertId record p) := by
  have hquota : ∀ c, UsesQuota c → Delivers T input c :=
    fun c hc => usesChannels_delivers c (usesQuota_channels c hc)
  unfold ProcessAlertDelivery.attemptEmail
  split
  · refine Issues.bind (reserve_issues hquota ..) fun quota => ?_
    split
    · refine Issues.tryCatch ?_ fun _ => ?_
      · refine Issues.bind (sendEmail_issues usesChannels_delivers ..) fun _ => ?_
        exact Issues.bind (markChannelDelivered_issues _) fun _ => issues_pure _
      · exact Issues.bind (release_issues hquota ..) fun _ => issues_pure _
    · exact Issues.bind ((markChannelFailed_issues _).mono settles_delivers) fun _ =>
        issues_pure _
  · exact issues_pure _

theorem attemptTelegram_issues (record : AlertNotificationRecord) (p : DeliveryPlan)
    (hT : p.shouldSendTelegram = true → ∀ t,
      Text.orElse p.telegramBotToken config.telegramBotToken = some t → T t (.alert record)) :
    Issues (Delivers T input)
      (ProcessAlertDelivery.attemptTelegram config input.alertId record p) := by
  unfold ProcessAlertDelivery.attemptTelegram
  split
  · rename_i hsend
    refine Issues.bind (sendToChats_issues usesChannels_delivers _ _ _ _ (hT hsend))
      fun errors => ?_
    exact Issues.ite (fun _ => Issues.bind (markChannelDelivered_issues _) fun _ => issues_pure _)
      fun _ => issues_pure _
  · exact issues_pure _

theorem insertDigestItems_issues (tenantId : String) (scheduledFor : Nat)
    (chatIds : List String) :
    Issues (Settles input)
      (AlertsRepository.insertDigestItems input.alertId tenantId scheduledFor chatIds) := by
  induction chatIds with
  | nil => exact issues_pure _
  | cons chatId chatIds ih => exact Issues.bind (issues_invoke rfl) fun _ => ih

theorem queueDigest_issues (record : AlertNotificationRecord) (p : DeliveryPlan) :
    Issues (Settles input)
      (ProcessAlertDelivery.queueDigest input.alertId record p) := by
  unfold ProcessAlertDelivery.queueDigest AlertsRepository.queueTelegramDigestItems
  split
  · split
    · exact issues_pure _
    · exact Issues.bind (issues_invoke trivial) fun _ => insertDigestItems_issues ..
  · exact issues_pure _

theorem settle_issues (p : DeliveryPlan) (errors terminalErrors : List String) :
    Issues (Settles input)
      (ProcessAlertDelivery.settle input p errors terminalErrors) := by
  unfold ProcessAlertDelivery.settle
  split
  · exact issues_throw' _
  · split
    · exact markDeliveryFailure_issues _ _ nofun
    · refine Issues.bind (issues_invoke rfl) fun allDelivered => ?_
      split
      · refine Issues.bind (Issues.bind (issues_invoke ?_) fun _ => issues_pure _) fun _ =>
          issues_pure _
        exact ⟨rfl, nofun, nofun, nofun⟩
      · refine Issues.ite (fun hretry => ?_) fun _ => issues_pure _
        exact settles_write nofun nofun fun _ => hretry

theorem deliverChannels_issues (record : AlertNotificationRecord) (p : DeliveryPlan)
    (hT : p.shouldSendTelegram = true → ∀ t,
      Text.orElse p.telegramBotToken config.telegramBotToken = some t → T t (.alert record)) :
    Issues (Delivers T input)
      (ProcessAlertDelivery.deliverChannels config input record p) := by
  refine Issues.bind (attemptWebhook_issues config record p) fun webhookErrors => ?_
  refine Issues.bind (attemptEmail_issues config record p) fun emailErrors => ?_
  refine Issues.bind (attemptTelegram_issues config record p hT) fun telegramErrors => ?_
  refine Issues.bind ((queueDigest_issues record p).mono settles_delivers) fun _ => ?_
  exact (settle_issues p _ _).mono settles_delivers

theorem process_issues (record : AlertNotificationRecord) (settings : Option TenantSettings)
    (hT : (ProcessAlertDelivery.plan config rt record.alert settings).shouldSendTelegram = true →
      ∀ t, Text.orElse
        (ProcessAlertDelivery.plan config rt record.alert settings).telegramBotToken
        config.telegramBotToken = some t → T t (.alert record)) :
    Issues (Delivers T input)
      (ProcessAlertDelivery.process config rt input record settings) := by
  unfold ProcessAlertDelivery.process
  dsimp only
  split
  · exact markDeliveryDisabled_issues.mono settles_delivers
  · refine Issues.tryCatch (deliverChannels_issues config record _ hT) fun message => ?_
    exact Issues.bind ((markDeliveryFailure_issues _ _ id).mono settles_delivers) fun _ =>
      issues_throw' _

theorem delivers_deliveryWorker (jobId : String) (c : Call) (h : Delivers T input c) :
    (Role.deliveryWorker jobId input).MayIssue c := by
  unfold Delivers UsesChannels at h
  split at h
  · exact h
  · exact h
  · exact h
  · split at h
    all_goals first | exact trivial | exact h.elim

theorem deliveryWorker_issues (jobId : String) :
    Issues (Role.deliveryWorker jobId input).MayIssue
      (ProcessAlertDelivery.execute config rt input) := by
  refine Issues.bind (issues_invoke rfl) fun record => ?_
  cases record with
  | none => exact issues_throw' _
  | some record =>
    refine Issues.bind (issues_invoke trivial) fun settings => ?_
    have hprocess : Issues (Delivers AnyMessage input)
        (ProcessAlertDelivery.process config rt input record settings) :=
      process_issues config rt record settings fun _ _ _ => trivial
    exact hprocess.mono (delivers_deliveryWorker jobId)

end Delivery

/-! ## Fetch workers -/

section Fetch

variable (rt : Runtime) (canonicalizeArticleLink : Option String → Option String)
  {jobId : String} {feedId : Nat}

theorem handsOver_fetch (c : Call) (h : HandsOver c) :
    (Role.fetchWorker jobId feedId).MayIssue c := by
  unfold HandsOver at h
  split at h
  all_goals first | exact h | exact h.elim

theorem insertMany_issues (tenantId : String) (id : Nat) (entries : List NormalizedEntry) :
    Issues (Role.fetchWorker jobId feedId).MayIssue (insertMany tenantId id entries) := by
  induction entries with
  | nil => exact issues_pure _
  | cons entry entries ih =>
    exact Issues.bind (issues_invoke trivial) fun _ => Issues.bind ih fun _ => issues_pure _

theorem createForEntryWithRules_issues (matchesByEntry : MatchesByEntry) :
    Issues (Role.fetchWorker jobId feedId).MayIssue
      (AlertsRepository.createForEntryWithRules canonicalizeArticleLink matchesByEntry) := by
  refine Issues.ite (fun _ => issues_pure _) fun _ => ?_
  refine Issues.bind (issues_invoke trivial) fun rows => ?_
  refine Issues.ite (fun _ => issues_pure _) fun _ => ?_
  exact Issues.bind (issues_invoke trivial) fun _ => issues_pure _

theorem transaction_issues (feed : FeedRow) (response : FetchResponse)
    (entries : List NormalizedEntry) :
    Issues (Role.fetchWorker jobId feedId).MayIssue
      (ProcessFeedJob.transaction rt canonicalizeArticleLink feed response entries) := by
  refine Issues.bind (issues_invoke trivial) fun _ => ?_
  refine Issues.bind (insertMany_issues ..) fun inserted => ?_
  refine Issues.bind (issues_invoke trivial) fun rules => ?_
  refine Issues.bind (createForEntryWithRules_issues ..) fun outcome => ?_
  refine Issues.bind (issues_invoke trivial) fun _ => ?_
  refine Issues.bind (issues_invoke trivial) fun now => ?_
  refine Issues.bind (issues_invoke trivial) fun _ => ?_
  exact Issues.bind (issues_invoke trivial) fun _ => issues_pure _

theorem deliverAlerts_issues (alertIds : List Nat) :
    Issues (Role.fetchWorker jobId feedId).MayIssue (ProcessFeedJob.deliverAlerts alertIds) := by
  induction alertIds with
  | nil => exact issues_pure _
  | cons alertId alertIds ih =>
    refine Issues.bind (Issues.tryCatch ?_ fun _ => issues_pure _) fun _ => ih
    exact Issues.bind (executeIngestion_issues handsOver_fetch _) fun _ => issues_pure _

theorem store_issues (feed : FeedRow) (response : FetchResponse)
    (entries : List NormalizedEntry) :
    Issues (Role.fetchWorker jobId feedId).MayIssue
      (ProcessFeedJob.store rt canonicalizeArticleLink feed response entries) := by
  refine Issues.bind (issues_invoke trivial) fun _ => ?_
  refine Issues.bind (Issues.attempt (Issues.tryCatch ?_ fun _ => ?_)) fun outcome => ?_
  · refine Issues.bind (transaction_issues ..) fun r => ?_
    exact Issues.bind (deliverAlerts_issues _) fun _ => issues_pure _
  · exact Issues.bind (issues_invoke trivial) fun _ => issues_throw' _
  · refine Issues.bind (issues_invoke trivial) fun _ => ?_
    cases outcome with
    | ok a => exact issues_pure _
    | error e => exact issues_throw' _

theorem notModified_issues (feed : FeedRow) (response : FetchResponse) :
    Issues (Role.fetchWorker jobId feedId).MayIssue
      (ProcessFeedJob.notModified feed response) := by
  refine Issues.bind (issues_invoke trivial) fun _ => ?_
  refine Issues.bind (issues_invoke trivial) fun now => ?_
  exact Issues.bind (issues_invoke trivial) fun _ => issues_pure _

theorem fetchAndStore_issues (feed : FeedRow) :
    Issues (Role.fetchWorker jobId feedId).MayIssue
      (ProcessFeedJob.fetchAndStore rt canonicalizeArticleLink feed) := by
  refine Issues.bind (issues_invoke trivial) fun response => ?_
  refine Issues.ite (fun _ => notModified_issues ..) fun _ => ?_
  refine Issues.ite (fun _ => issues_throw' _) fun _ => ?_
  split
  · exact issues_throw' _
  · exact store_issues ..

theorem handleFailure_issues (feed : FeedRow) (message : String) :
    Issues (Role.fetchWorker jobId feedId).MayIssue
      (ProcessFeedJob.handleFailure rt feed message) := by
  refine Issues.bind (issues_invoke trivial) fun jitter => ?_
  refine Issues.bind (issues_invoke trivial) fun _ => ?_
  refine Issues.bind (issues_invoke trivial) fun now => ?_
  refine Issues.bind (issues_invoke trivial) fun _ => ?_
  exact Issues.ite (fun _ => issues_throw' _) fun _ => issues_pure _

theorem fetchWorker_issues (id : Nat) :
    Issues (Role.fetchWorker jobId feedId).MayIssue
      (ProcessFeedJob.execute rt canonicalizeArticleLink id) := by
  refine Issues.bind (issues_invoke trivial) fun _ => ?_
  refine Issues.bind (issues_invoke trivial) fun feed => ?_
  cases feed with
  | none => exact issues_throw' _
  | some feed => exact Issues.tryCatch (fetchAndStore_issues ..) fun _ => handleFailure_issues ..

end Fetch

/-! ## Scheduler ticks -/

section Scheduler

variable (config : AppConfig) (rt : Runtime)

theorem sweeps_scheduler (c : Call) (h : Sweeps c) : Role.scheduler.MayIssue c := by
  unfold Sweeps at h
  split at h
  all_goals first | exact trivial | exact h.elim

theorem releaseStuckFeeds_issues :
    Issues Role.scheduler.MayIssue (Scheduler.releaseStuckFeeds config) := by
  refine Issues.bind (issues_invoke trivial) fun _ => ?_
  exact Issues.ite (fun _ => issues_throw' _) fun _ => issues_invoke trivial

theorem enqueueAll_issues (queuedAt : Nat) (feeds : List FeedRow) :
    Issues Role.scheduler.MayIssue (Scheduler.enqueueAll queuedAt feeds) := by
  induction feeds with
  | nil => exact issues_pure _
  | cons feed feeds ih =>
    refine Issues.bind (Issues.attempt ?_) fun _ => Issues.bind ih fun _ => issues_pure _
    refine Issues.bind (issues_invoke trivial) fun found => ?_
    cases found with
    | some job => exact issues_pure _
    | none => exact Issues.bind (issues_invoke rfl) fun _ => issues_pure _

theorem scheduleDueFeeds_issues :
    Issues Role.scheduler.MayIssue (Scheduler.scheduleDueFeeds config) := by
  refine Issues.bind (issues_invoke trivial) fun _ => ?_
  refine Issues.bind ?_ fun feeds => ?_
  · exact Issues.ite (fun _ => issues_throw' _) fun _ => issues_invoke trivial
  refine Issues.bind (issues_invoke trivial) fun queuedAt => ?_
  refine Issues.bind (enqueueAll_issues ..) fun results => ?_
  split
  · exact issues_throw' _
  · exact issues_pure _

theorem loadDigestGroups_issues (nowIso : Nat) (groups : List World.DigestGroupKey) :
    Issues Sweeps (AlertsRepository.loadDigestGroups nowIso groups) := by
  induction groups with
  | nil => exact issues_pure _
  | cons group groups ih =>
    refine Issues.bind (issues_invoke trivial) fun items => Issues.bind ih fun _ => ?_
    split
    · exact issues_pure _
    · exact issues_pure _

theorem markItemsSent_issues (items : List World.DigestItemView) :
    Issues Sweeps (AlertsRepository.markItemsSent items) := by
  induction items with
  | nil => exact issues_pure _
  | cons item items ih => exact Issues.bind (issues_invoke trivial) fun _ => ih

theorem convergeAlerts_issues (alertIds : List Nat) :
    Issues Sweeps (AlertsRepository.convergeAlerts alertIds) := by
  induction alertIds with
  | nil => exact issues_pure _
  | cons alertId alertIds ih =>
    exact Issues.bind (issues_invoke trivial) fun _ => Issues.bind ih fun _ => issues_pure _

theorem processGroup_issues (group : AlertsRepository.TelegramDigestGroup)
    (acc : DigestSweepResult) :
    Issues Sweeps (TelegramDigests.processGroup config rt group acc) := by
  refine Issues.ite (fun _ => issues_pure _) fun _ => ?_
  refine Issues.bind (issues_invoke trivial) fun settings => ?_
  refine Issues.ite (fun _ => issues_pure _) fun _ => ?_
  refine Issues.tryCatch ?_ fun _ => issues_pure _
  refine Issues.bind (sendTelegramMessage_issues _ _ _ _ fun _ _ _ => trivial) fun _ => ?_
  refine Issues.bind (Issues.ite (fun _ => issues_pure _) fun _ => ?_) fun _ => issues_pure _
  exact Issues.bind (markItemsSent_issues _) fun _ => convergeAlerts_issues _

theorem processGroups_issues (groups : List AlertsRepository.TelegramDigestGroup)
    (acc : DigestSweepResult) :
    Issues Sweeps (TelegramDigests.processGroups config rt groups acc) := by
  induction groups generalizing acc with
  | nil => exact issues_pure _
  | cons group groups ih => exact Issues.bind (processGroup_issues ..) fun acc => ih acc

theorem digests_issues :
    Issues Sweeps (TelegramDigests.execute config rt) := by
  refine Issues.ite (fun _ => issues_pure _) fun _ => ?_
  refine Issues.bind (Issues.tryCatch ?_ fun _ => issues_pure _) fun _ => ?_
  · exact Issues.bind (issues_invoke trivial) fun _ => issues_pure _
  refine Issues.bind (issues_invoke trivial) fun now => ?_
  refine Issues.bind ?_ fun groups => processGroups_issues ..
  exact Issues.bind (issues_invoke trivial) fun _ => loadDigestGroups_issues ..

theorem scheduler_issues : Issues Role.scheduler.MayIssue (Scheduler.tick config rt) := by
  refine Issues.bind (Issues.attempt (releaseStuckFeeds_issues config)) fun _ => ?_
  refine Issues.bind (Issues.attempt (scheduleDueFeeds_issues config)) fun _ => ?_
  exact Issues.bind (Issues.attempt ((digests_issues config rt).mono sweeps_scheduler))
    fun _ => issues_pure _

end Scheduler

/-! ## Requests -/

theorem handsOver_request (c : Call) (h : HandsOver c) : Role.request.MayIssue c := by
  unfold HandsOver at h
  split at h
  all_goals first | exact h | exact h.elim

theorem update_issues (tenantId : String) (id : Nat) (status : Option FeedStatus)
    (pollIntervalSeconds : Option Nat) :
    Issues Role.request.MayIssue
      (FeedsRepository.update tenantId id status pollIntervalSeconds) := by
  refine Issues.bind (issues_invoke trivial) fun current => ?_
  cases current with
  | none => exact issues_pure _
  | some current => exact Issues.bind (issues_invoke trivial) fun now => issues_invoke trivial

theorem checkFeedNow_issues (id : Nat) (tenantId : String) :
    Issues Role.request.MayIssue (FeedActions.checkFeedNow id tenantId) := by
  refine Issues.bind (issues_invoke trivial) fun feed => ?_
  cases feed with
  | none => exact issues_throw' _
  | some feed =>
    refine Issues.bind (issues_invoke trivial) fun claimed => ?_
    refine Issues.ite (fun _ => issues_pure _) fun _ => ?_
    refine Issues.bind (issues_invoke trivial) fun queuedAt => ?_
    refine Issues.bind (Issues.bind (issues_invoke trivial) fun now => ?_) fun _ => issues_pure _
    exact Issues.bind (issues_invoke rfl) fun _ => issues_pure _

theorem request_issues (r : Request) :
    Issues Role.request.MayIssue (System.requestProgram r) := by
  cases r with
  | updateFeed tenantId id status pollIntervalSeconds =>
    refine Issues.bind (Issues.bind (update_issues ..) fun feed => ?_) fun _ => issues_pure _
    cases feed with
    | none => exact issues_throw' _
    | some feed => exact issues_pure _
  | disableFeed id tenantId =>
    refine Issues.bind (Issues.bind (update_issues ..) fun _ => issues_pure _) fun _ => ?_
    exact Issues.ite (fun _ => issues_pure _) fun _ => issues_throw' _
  | checkFeedNow id tenantId =>
    exact Issues.bind (checkFeedNow_issues ..) fun _ => issues_pure _
  | sendAlert alertId tenantId =>
    exact Issues.bind (executeManual_issues handsOver_request ..) fun _ => issues_pure _

/-! ## Every process -/

namespace System

open Transition

variable {d : Deployment} {s s' : System}

/-- Every process keeps to its role. -/
def RolesKept (s : System) : Prop :=
  ∀ pid p, s.procs pid = some p → Issues p.role.MayIssue p.prog

theorem rolesKept_of_init (h : s.Init) : s.RolesKept := by
  intro pid p hp
  rw [h.procs] at hp
  cases hp

theorem rolesKept_step {a : Action} (hs : s.RolesKept) (h : step d s a = some s') :
    s'.RolesKept := by
  refine forall_procs_step (fun p => Issues p.role.MayIssue p.prog) h hs ?_ ?_
  · intro pid role prog hl
    cases hl with
    | tick => exact scheduler_issues ..
    | request pid r => exact request_issues r
    | fetch pid jobId job => exact Issues.bind (fetchWorker_issues ..) fun _ => issues_pure _
    | delivery pid jobId job => exact deliveryWorker_issues ..
  · intro role c k r hp
    exact (issues_call.mp hp).2 r

/-- **The call a step makes take effect is one its process may issue.** -/
theorem mayIssue_of_executedCall {a : Action} {pid : Nat} {c : Call} (hs : s.RolesKept)
    (h : s.executedCall a = some (pid, c)) :
    ∃ p, s.procs pid = some p ∧ p.role.MayIssue c := by
  obtain ⟨out, role, k, -, hp⟩ := executedCall_eq_some h
  exact ⟨_, hp, (issues_call.mp (hs pid _ hp)).1⟩

end System

end Feedpulse
