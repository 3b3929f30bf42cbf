import Feedpulse.Notifier

/-!
# The digest sweep

`ProcessTelegramDigestsUseCase`: repair what earlier sweeps left behind, then send
the due groups, each as one message.
-/

namespace Feedpulse

/-- The counts a sweep reports. -/
structure DigestSweepResult where
  /-- groups sent -/
  processedGroups : Nat
  /-- items sent -/
  sentItems : Nat
  /-- alerts whose Telegram channel was converged -/
  alertsMarkedDelivered : Nat
  deriving DecidableEq, Repr

namespace TelegramDigests

variable (config : AppConfig) (rt : Runtime)

/-- `reconcilePreviousSweeps`: best effort. -/
def reconcilePreviousSweeps : Program Nat :=
  tryCatch
    (do
      let alertIdsDelivered ← AlertsRepository.reconcileTelegramDigestDeliveryStatus
      pure alertIdsDelivered.length)
    fun _ => pure 0

/-- One group: the tenant's settings decide the bot; a failure leaves the group due. -/
def processGroup (group : AlertsRepository.TelegramDigestGroup) (acc : DigestSweepResult) :
    Program DigestSweepResult := do
  if group.items.isEmpty then pure acc
  else
    let settings ← getByTenantId group.tenantId
    let token := TelegramBotTokenResolver.resolveForTenant config rt group.tenantId settings
    if !Notifier.isTelegramEnabled config token then pure acc
    else
      tryCatch
        (do
          Notifier.sendTelegramDigest config group token
          let alertIdsDelivered ← AlertsRepository.markTelegramDigestGroupSent group.items
          pure
            { processedGroups := acc.processedGroups + 1
              sentItems := acc.sentItems + group.items.length
              alertsMarkedDelivered := acc.alertsMarkedDelivered + alertIdsDelivered.length })
        fun _ => pure acc

/-- The loop over the groups. -/
def processGroups :
    List AlertsRepository.TelegramDigestGroup → DigestSweepResult → Program DigestSweepResult
  | [], acc => pure acc
  | group :: groups, acc => do
    let acc ← processGroup config rt group acc
    processGroups groups acc

/-- `execute`, with the default of thirty groups. -/
def execute : Program DigestSweepResult := do
  if !Notifier.isEnabled then
    pure { processedGroups := 0, sentItems := 0, alertsMarkedDelivered := 0 }
  else
    let alertsMarkedDelivered ← reconcilePreviousSweeps
    let now ← clock
    let groups ← AlertsRepository.listDueTelegramDigestGroups now 30
    processGroups config rt groups
      { processedGroups := 0, sentItems := 0, alertsMarkedDelivered := alertsMarkedDelivered }

end TelegramDigests

end Feedpulse
