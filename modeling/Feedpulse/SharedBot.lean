import Feedpulse.DeliveryOutcome

/-!
# The shared bot and tenants whose own bot is lost

A tenant whose stored bot token does not open must not be served by the shared bot. The
resolver keeps to that, but its answer, no token, is what the enablement check and the sender
take for a tenant without a bot of its own. `sharedBot_iff` says when neither a delivery nor a
digest sweep uses the shared bot for such a tenant: if there is no shared bot, or nothing to
send; `alert_sent_by_sharedBot` is a delivery that does.
-/

namespace Feedpulse

open Prog Transition

/-- The tenant a message is about. -/
def TelegramMessage.tenantId : TelegramMessage → String
  | .alert record => record.alert.tenantId
  | .digest tenantId _ => tenantId

/-- The row stores a bot token that does not open: a part is missing, or decryption fails. -/
def BotLost (config : AppConfig) (rt : Runtime) (row : TenantSettingsRow) : Prop :=
  Text.truthy row.telegramBotTokenCiphertext = true ∧
    ∀ secret ∈ Settings.mapTelegramBotTokenEncrypted row, ∀ token,
      TenantSecrets.decryptTelegramBotToken config rt row.tenantId secret ≠ .ok token

/-- The tenant's settings row stores a bot token that does not open. -/
def World.BotLost (config : AppConfig) (rt : Runtime) (w : World) (tenantId : String) : Prop :=
  ∃ row ∈ Table.lookup TenantSettingsRow.tenantId tenantId w.settings,
    Feedpulse.BotLost config rt row

/-- The messages that do not go out under the shared token on behalf of a tenant whose bot
is lost. -/
def KeepsApart (config : AppConfig) (rt : Runtime) (w : World) : Messages :=
  fun token message =>
    config.telegramBotToken = some token → ¬ w.BotLost config rt message.tenantId

/-- The calls that do not use the shared bot for a tenant whose bot is lost. -/
def SparesSharedBot (config : AppConfig) (rt : Runtime) (w : World) (c : Call) : Prop :=
  ∀ token chatId message, c = .net (.telegramSendMessage token chatId message) →
    KeepsApart config rt w token message

section SharedBot

variable {config : AppConfig} {rt : Runtime} {w : World}

/-! ## The token of such a tenant -/

/-- With a lost bot, whatever is resolved falls back to the shared token. -/
theorem orElse_resolve_of_botLost {tenantId : String} (h : w.BotLost config rt tenantId) :
    Text.orElse (TelegramBotTokenResolver.resolveForTenant config rt tenantId
      (Settings.getByTenantId tenantId w.settings)) config.telegramBotToken
      = config.telegramBotToken := by
  obtain ⟨row, hrow, -, hlost⟩ := h
  obtain rfl : row.tenantId = tenantId := Table.key_of_lookup hrow
  have hrow : Table.lookup TenantSettingsRow.tenantId row.tenantId w.settings = some row := hrow
  simp only [Settings.getByTenantId, hrow, Option.map_some,
    TelegramBotTokenResolver.resolveForTenant,
    TelegramBotTokenResolver.resolveDetailedForTenant, Option.bind_some,
    Settings.mapTenantSettings]
  rcases hs : Settings.mapTelegramBotTokenEncrypted row with _ | secret
  · exact Text.orElse_self _
  · dsimp only
    rcases hd : TenantSecrets.decryptTelegramBotToken config rt row.tenantId secret with
      reason | token
    · rfl
    · exact absurd hd (hlost secret hs token)

/-- With a lost bot, Telegram counts as enabled exactly if there is a shared token. -/
theorem isTelegramEnabled_of_botLost {tenantId : String} (h : w.BotLost config rt tenantId) :
    Notifier.isTelegramEnabled config (TelegramBotTokenResolver.resolveForTenant config rt
      tenantId (Settings.getByTenantId tenantId w.settings))
      = Text.truthy config.telegramBotToken := by
  unfold Notifier.isTelegramEnabled
  rw [← Text.truthy_orElse, orElse_resolve_of_botLost h]

/-- A message keeps apart if there is no shared token, or the tenant has its bot. -/
theorem keepsApart_of {token : String} {message : TelegramMessage} (ht : token ≠ "")
    (h : Text.truthy config.telegramBotToken = true → ¬ w.BotLost config rt message.tenantId) :
    KeepsApart config rt w token message := by
  intro hglobal
  refine h ?_
  rw [hglobal]
  simpa using ht

theorem spares_of_usesChannels (c : Call) (h : UsesChannels (KeepsApart config rt w) c) :
    SparesSharedBot config rt w c := by
  rintro token chatId message rfl
  exact h

theorem sparesSharedBot_of_delivers {input : DeliveryInput} (c : Call)
    (h : Delivers (KeepsApart config rt w) input c) : SparesSharedBot config rt w c := by
  rintro token chatId message rfl
  exact h

/-! ## Deliveries -/

/-- The delivery sends messages for a tenant whose bot is lost: there is a shared token, the
alert is to be sent to some chat at once, and has not been. -/
def DeliversByShared (config : AppConfig) (rt : Runtime) (w : World) (input : DeliveryInput) :
    Prop :=
  Text.truthy config.telegramBotToken = true ∧
    ∃ record ∈ w.findAlertForWorker input.alertId, w.BotLost config rt record.alert.tenantId ∧
      let p := ProcessAlertDelivery.plan config rt record.alert
        (Settings.getByTenantId record.alert.tenantId w.settings)
      p.telegramChatIds ≠ [] ∧ p.telegramDeliveryMode = .instant ∧
        record.alert.telegramDeliveryStatus ≠ .sent

/-- A delivery that does not, spares the shared bot. -/
theorem execute_spares (pid : Nat) {input : DeliveryInput}
    (h : ¬ DeliversByShared config rt w input) :
    Meets (fun _ c => SparesSharedBot config rt w c) (Executes pid)
      (ProcessAlertDelivery.execute config rt input) (fun _ _ => True) w := by
  refine ProcessAlertDelivery.execute_meets (fun _ => ⟨fun _ => ?_, fun _ => ?_⟩)
    (fun _ _ => trivial) fun record hfind => ?_
  · rintro token chatId message hc
    cases hc
  · rintro token chatId message hc
    cases hc
  have hissues : Issues (Delivers (KeepsApart config rt w) input)
      (ProcessAlertDelivery.process config rt input record
        (Settings.getByTenantId record.alert.tenantId w.settings)) := by
    refine process_issues config rt record _ fun hsend t _ hglobal hlost => ?_
    -- a message of a tenant without its bot is one of those excluded
    simp only [ProcessAlertDelivery.plan, Bool.and_eq_true, decide_eq_true_eq,
      Bool.not_eq_true', List.isEmpty_eq_false_iff] at hsend
    obtain ⟨⟨⟨hchats, henabled⟩, hmode⟩, hstatus⟩ := hsend
    change w.BotLost config rt record.alert.tenantId at hlost
    rw [isTelegramEnabled_of_botLost hlost] at henabled
    exact h ⟨henabled, record, hfind, hlost, hchats, hmode, hstatus⟩
  exact (hissues.mono sparesSharedBot_of_delivers).confine
    (meets_of_invariant (Q := fun _ => True) (fun _ _ _ _ _ _ => trivial) _ trivial)

/-- A delivery that does, uses it. -/
theorem not_execute_spares (pid : Nat) {input : DeliveryInput}
    (h : DeliversByShared config rt w input) :
    ¬ Meets (fun _ c => SparesSharedBot config rt w c) (Executes pid)
      (ProcessAlertDelivery.execute config rt input) (fun _ _ => True) w := by
  intro hmeets
  obtain ⟨hglobal, record, hfind, hlost, hchats, hmode, hstatus⟩ := h
  obtain ⟨a, ha, -⟩ := Option.bind_eq_some_iff.mp hfind
  change w.alertRow input.alertId = some a at ha
  have hprocess := ProcessAlertDelivery.process_of_execute_meets hfind hmeets
  set settings := Settings.getByTenantId record.alert.tenantId w.settings with hsettings
  set p := ProcessAlertDelivery.plan config rt record.alert settings with hp
  have henabled : Notifier.isTelegramEnabled config p.telegramBotToken = true := by
    rw [hp]
    exact (isTelegramEnabled_of_botLost hlost).trans hglobal
  have hsend : p.shouldSendTelegram = true := by
    simp only [hp, ProcessAlertDelivery.plan, Bool.and_eq_true, decide_eq_true_eq,
      Bool.not_eq_true', List.isEmpty_eq_false_iff]
    exact ⟨⟨⟨hchats, henabled⟩, hmode⟩, hstatus⟩
  have hemail : p.shouldAttemptEmail = true → Notifier.isEmailEnabled config = true := by
    intro h
    simp only [hp, ProcessAlertDelivery.plan, Bool.and_eq_true] at h
    exact h.1.2
  unfold ProcessAlertDelivery.process at hprocess
  dsimp only at hprocess
  rw [← hp, if_neg (by simp [DeliveryPlan.attempts, hsend, Notifier.isEnabled])] at hprocess
  -- webhook and mail can succeed, so that the messages come next
  obtain ⟨-, w₁, hrest, rfl, hnear₁⟩ := (meets_bind.mp (meets_tryCatch.mp hprocess)).of_can
    (ProcessAlertDelivery.attemptWebhook_can ha)
  obtain ⟨-, a₁, -, ha₁, -⟩ := hnear₁.row
  obtain ⟨-, w₂, hrest, rfl, hnear₂⟩ := (meets_bind.mp hrest).of_can
    (ProcessAlertDelivery.attemptEmail_can ha₁ hemail)
  have htelegram := meets_bind.mp hrest
  unfold ProcessAlertDelivery.attemptTelegram at htelegram
  rw [if_pos hsend] at htelegram
  obtain ⟨chatId, chatIds, hcons⟩ := List.exists_cons_of_ne_nil hchats
  have hchatIds : p.telegramChatIds = chatId :: chatIds := hcons
  rw [hchatIds] at htelegram
  obtain ⟨token, -, horElse, hmessage⟩ :=
    Notifier.sendTelegramMessage_of_enabled config chatId (.alert record) henabled
  have hfirst := meets_bind.mp (meets_tryCatch.mp (meets_bind.mp (meets_bind.mp htelegram)))
  unfold Notifier.sendTelegram at hfirst
  rw [hmessage] at hfirst
  have htoken : config.telegramBotToken = some token := by
    have hor := orElse_resolve_of_botLost hlost
    rw [← hor]
    exact horElse
  exact (meets_invoke.mp hfirst).1 token chatId _ rfl htoken hlost

/-! ## Digest sweeps -/

/-- The sweep sends messages for a tenant whose bot is lost: there is a shared token, and a
group of the tenant with items to send can be among those the sweep lists. -/
def SweepsByShared (config : AppConfig) (rt : Runtime) (w : World) : Prop :=
  Text.truthy config.telegramBotToken = true ∧
    ∃ picks, Table.IsTop (fun g h : World.DigestGroupKey => g.earliest ≤ h.earliest) 30
        (World.dueGroups w.now w.digestItems) picks ∧
      ∃ group ∈ picks, w.BotLost config rt group.tenantId ∧
        w.dueGroupItems w.now group.tenantId group.chatId ≠ []

theorem spares_alertCall (c : AlertCall) : SparesSharedBot config rt w (.alert c) := by
  rintro token chatId message hc
  cases hc

theorem spares_getSettings (tenantId : String) :
    SparesSharedBot config rt w (.getSettings tenantId) := by
  rintro token chatId message hc
  cases hc

theorem spares_clock : SparesSharedBot config rt w .clock := by
  rintro token chatId message hc
  cases hc

/-- A group spares the shared bot if there is none, or its tenant has its own. -/
theorem processGroup_spares {group : AlertsRepository.TelegramDigestGroup}
    (h : Text.truthy config.telegramBotToken = true → ¬ w.BotLost config rt group.tenantId)
    (acc : DigestSweepResult) :
    Issues (SparesSharedBot config rt w) (TelegramDigests.processGroup config rt group acc) := by
  have hitems : ∀ items, Issues (SparesSharedBot config rt w)
      (AlertsRepository.markItemsSent items) := by
    intro items
    induction items with
    | nil => exact issues_pure _
    | cons item items ih =>
      exact Issues.bind (issues_invoke (spares_alertCall _)) fun _ => ih
  have halerts : ∀ alertIds, Issues (SparesSharedBot config rt w)
      (AlertsRepository.convergeAlerts alertIds) := by
    intro alertIds
    induction alertIds with
    | nil => exact issues_pure _
    | cons alertId alertIds ih =>
      refine Issues.bind (issues_invoke (spares_alertCall _)) fun _ => ?_
      exact Issues.bind ih fun _ => issues_pure _
  refine Issues.ite (fun _ => issues_pure _) fun _ => ?_
  refine Issues.bind (issues_invoke (spares_getSettings _)) fun settings => ?_
  refine Issues.ite (fun _ => issues_pure _) fun _ => ?_
  refine Issues.tryCatch ?_ fun _ => issues_pure _
  refine Issues.bind (sendTelegramMessage_issues _ _ _ _
    fun t ht _ => spares_of_usesChannels _ (keepsApart_of ht h)) fun _ => ?_
  refine Issues.bind (Issues.ite (fun _ => issues_pure _) fun _ => ?_) fun _ => issues_pure _
  exact Issues.bind (hitems _) fun _ => halerts _

/-- What the calls before the sending leave as the sweep found it. -/
structure SameDigests (w w' : World) : Prop where
  /-- the clock -/
  now : w'.now = w.now
  /-- the settings -/
  settings : w'.settings = w.settings
  /-- the items -/
  digestItems : w'.digestItems = w.digestItems
  /-- what is read of a group -/
  dueGroupItems : ∀ tenantId chatId,
    w'.dueGroupItems w'.now tenantId chatId = w.dueGroupItems w.now tenantId chatId

theorem SameDigests.refl (w : World) : SameDigests w w := ⟨rfl, rfl, rfl, fun _ _ => rfl⟩

/-- Converging the Telegram channel of alerts does not change what is read of a group. -/
theorem sameDigests_reconcile {w₁ : World} (h : SameDigests w w₁) :
    SameDigests w w₁.reconcileTelegram.2 := by
  refine ⟨h.now, h.settings, h.digestItems, fun tenantId chatId => ?_⟩
  refine Eq.trans ?_ (h.dueGroupItems tenantId chatId)
  unfold World.dueGroupItems World.reconcileTelegram
  dsimp only
  refine List.filterMap_congr fun i _ => ?_
  rw [Table.lookup_updateWhere (f := World.deliverTelegram w₁.now) fun _ => rfl,
    Option.bind_map]
  refine congrArg (Option.bind _) (funext fun a => ?_)
  change Option.map _ (Table.lookup EntryRow.id (if _ then _ else _ : AlertRow).entryId _) = _
  split <;> rfl

/-- The repair of earlier sweeps. -/
theorem reconcilePreviousSweeps_meets (pid : Nat) :
    Meets (fun _ c => SparesSharedBot config rt w c) (Executes pid)
      TelegramDigests.reconcilePreviousSweeps (fun _ w' => SameDigests w w') w := by
  refine meets_tryCatch.mpr (meets_bind.mpr (meets_invoke.mpr ⟨spares_alertCall _, ?_⟩))
  intro r w' hr
  have hsame : SameDigests w w' := by
    obtain ⟨out, hr⟩ := hr
    rcases Call.answer_eq_some hr with ⟨e, -, rfl, -⟩ | ⟨ch, x, hs, -⟩
    · exact SameDigests.refl _
    · obtain rfl : w.reconcileTelegram.2 = w' := congrArg Prod.snd (Option.some.inj hs)
      exact sameDigests_reconcile (SameDigests.refl w)
  cases r with
  | ok ids => exact hsame
  | error e => exact hsame

/-- Every group that is loaded was listed, and has items. -/
theorem loadDigestGroups_meets (pid : Nat) {w' : World} (hw : SameDigests w w')
    (keys : List World.DigestGroupKey) :
    Meets (fun _ c => SparesSharedBot config rt w c) (Executes pid)
      (AlertsRepository.loadDigestGroups w'.now keys)
      (fun r _ => ∀ groups, r = .ok groups → ∀ g ∈ groups, ∃ key ∈ keys,
        key.tenantId = g.tenantId ∧ w.dueGroupItems w.now key.tenantId key.chatId ≠ []) w' := by
  induction keys with
  | nil =>
    intro groups hg g hmem
    obtain rfl := Except.ok.inj hg
    exact absurd hmem List.not_mem_nil
  | cons key keys ih =>
    refine meets_bind.mpr (meets_invoke.mpr ⟨spares_alertCall _, fun r w₂ hr => ?_⟩)
    obtain ⟨out, hr⟩ := hr
    rcases Call.answer_eq_some hr with ⟨e, rfl, -, -⟩ | ⟨ch, x, hs, rfl | ⟨e, rfl, -⟩⟩
    · rintro groups ⟨⟩
    · obtain ⟨rfl, rfl⟩ := Prod.mk.inj (Option.some.inj hs)
      refine meets_bind.mpr (ih.mono ?_)
      rintro (e | rest) w₃ hrest
      · rintro groups ⟨⟩
      have hread := hw.dueGroupItems key.tenantId key.chatId
      rcases hitems : w'.dueGroupItems w'.now key.tenantId key.chatId with _ | ⟨item, items⟩
      · rintro groups ⟨⟩ g hg
        obtain ⟨k, hk, hkey⟩ := hrest rest rfl g hg
        exact ⟨k, List.mem_cons_of_mem _ hk, hkey⟩
      · rintro groups ⟨⟩ g hg
        rcases List.mem_cons.mp hg with rfl | hg
        · refine ⟨key, List.mem_cons_self, rfl, ?_⟩
          rw [← hread, hitems]
          exact List.cons_ne_nil _ _
        · obtain ⟨k, hk, hkey⟩ := hrest rest rfl g hg
          exact ⟨k, List.mem_cons_of_mem _ hk, hkey⟩
    · rintro groups ⟨⟩

/-- A sweep that does not, spares the shared bot. -/
theorem sweep_spares (pid : Nat) (h : ¬ SweepsByShared config rt w) :
    Meets (fun _ c => SparesSharedBot config rt w c) (Executes pid)
      (TelegramDigests.execute config rt) (fun _ _ => True) w := by
  have hlost : Text.truthy config.telegramBotToken = true → ∀ keys,
      Table.IsTop (fun g h : World.DigestGroupKey => g.earliest ≤ h.earliest) 30
        (World.dueGroups w.now w.digestItems) keys → ∀ key ∈ keys,
        w.dueGroupItems w.now key.tenantId key.chatId ≠ [] → ¬ w.BotLost config rt key.tenantId :=
    fun hg keys htop key hkey hitems hlost => h ⟨hg, keys, htop, key, hkey, hlost, hitems⟩
  unfold TelegramDigests.execute
  rw [if_neg (by simp [Notifier.isEnabled])]
  refine meets_bind.mpr ((reconcilePreviousSweeps_meets pid).mono ?_)
  rintro (e | delivered) w₁ hw₁
  · trivial
  refine meets_bind.mpr (meets_invoke.mpr ⟨spares_clock, fun r w₂ hr => ?_⟩)
  obtain ⟨out, hr⟩ := hr
  rcases Call.answer_eq_some hr with ⟨e, rfl, -, -⟩ | ⟨ch, x, hs, rfl | ⟨e, rfl, -⟩⟩
  · trivial
  swap
  · trivial
  obtain ⟨rfl, rfl⟩ := Prod.mk.inj (Option.some.inj hs)
  refine meets_bind.mpr (meets_bind.mpr (meets_invoke.mpr ⟨spares_alertCall _, fun r w₂ hr => ?_⟩))
  obtain ⟨out, hr⟩ := hr
  rcases Call.answer_eq_some hr with ⟨e, rfl, -, -⟩ | ⟨ch, keys, hs, rfl | ⟨e, rfl, -⟩⟩
  · trivial
  swap
  · trivial
  obtain ⟨htop, rfl⟩ := AlertCall.listDueGroups_eq_some hs
  rw [hw₁.now, hw₁.digestItems] at htop
  refine (loadDigestGroups_meets pid hw₁ keys).mono ?_
  rintro (e | groups) w₃ hgroups
  · trivial
  -- no group that was loaded is a group of a tenant whose bot is lost
  have hall : ∀ g ∈ groups, Text.truthy config.telegramBotToken = true →
      ¬ w.BotLost config rt g.tenantId := by
    intro g hg hglobal
    obtain ⟨key, hkey, htenant, hitems⟩ := hgroups groups rfl g hg
    rw [← htenant]
    exact hlost hglobal keys htop key hkey hitems
  have hissues : ∀ acc, Issues (SparesSharedBot config rt w)
      (TelegramDigests.processGroups config rt groups acc) := by
    clear hgroups
    induction groups with
    | nil => exact fun _ => issues_pure _
    | cons g groups ih =>
      refine fun acc => Issues.bind (processGroup_spares (hall g List.mem_cons_self) acc)
        fun acc => ih (fun g hg => hall g (List.mem_cons_of_mem _ hg)) acc
  exact (hissues _).confine (meets_of_invariant (Q := fun _ => True)
    (fun _ _ _ _ _ _ => trivial) _ trivial)

/-! ### A sweep that does -/

/-- The groups as they are loaded when every read succeeds. -/
def loadedGroups (w : World) (nowIso : Nat) :
    List World.DigestGroupKey → List AlertsRepository.TelegramDigestGroup
  | [] => []
  | key :: keys =>
    match w.dueGroupItems nowIso key.tenantId key.chatId with
    | [] => loadedGroups w nowIso keys
    | item :: items =>
      { tenantId := key.tenantId
        chatId := key.chatId
        scheduledFor := item.scheduledFor
        items := item :: items } :: loadedGroups w nowIso keys

theorem loadDigestGroups_can (pid : Nat) (nowIso : Nat) (keys : List World.DigestGroupKey) :
    Can (Executes pid) (AlertsRepository.loadDigestGroups nowIso keys)
      (fun r w' => r = .ok (loadedGroups w nowIso keys) ∧ w' = w) w := by
  induction keys with
  | nil => exact ⟨rfl, rfl⟩
  | cons key keys ih =>
    refine can_bind.mpr (can_invoke.mpr ⟨.ok _, w, ⟨.ok .none, rfl⟩, can_bind.mpr (ih.mono ?_)⟩)
    rintro r w' ⟨rfl, rfl⟩
    rw [loadedGroups]
    dsimp only
    rcases w'.dueGroupItems nowIso key.tenantId key.chatId with _ | ⟨item, items⟩
    · exact ⟨rfl, rfl⟩
    · exact ⟨rfl, rfl⟩

/-- A listed group with items is loaded. -/
theorem exists_loadedGroup {nowIso : Nat} {keys : List World.DigestGroupKey}
    {key : World.DigestGroupKey} (hkey : key ∈ keys)
    (hitems : w.dueGroupItems nowIso key.tenantId key.chatId ≠ []) :
    ∃ g ∈ loadedGroups w nowIso keys, g.tenantId = key.tenantId ∧ g.items ≠ [] := by
  induction keys with
  | nil => exact absurd hkey List.not_mem_nil
  | cons k keys ih =>
    unfold loadedGroups
    rcases List.mem_cons.mp hkey with rfl | hkey
    · rcases hi : w.dueGroupItems nowIso key.tenantId key.chatId with _ | ⟨item, items⟩
      · exact absurd hi hitems
      · exact ⟨_, List.mem_cons_self, rfl, List.cons_ne_nil _ _⟩
    · obtain ⟨g, hg, hgroup⟩ := ih hkey
      split
      · exact ⟨g, hg, hgroup⟩
      · exact ⟨g, List.mem_cons_of_mem _ hg, hgroup⟩

/-- A group whose message is refused stays as it is. -/
theorem processGroup_can (pid : Nat) (group : AlertsRepository.TelegramDigestGroup)
    (acc : DigestSweepResult) :
    Can (Executes pid) (TelegramDigests.processGroup config rt group acc)
      (fun r w' => r = .ok acc ∧ w' = w) w := by
  unfold TelegramDigests.processGroup
  split
  · exact ⟨rfl, rfl⟩
  refine can_bind.mpr (can_invoke.mpr ⟨.ok _, w, ⟨.ok .none, rfl⟩, ?_⟩)
  dsimp only
  set token := TelegramBotTokenResolver.resolveForTenant config rt group.tenantId
    (Settings.getByTenantId group.tenantId w.settings)
  by_cases henabled : Notifier.isTelegramEnabled config token = true
  · rw [if_neg (by simp [henabled])]
    obtain ⟨t, -, -, hsend⟩ := Notifier.sendTelegramMessage_of_enabled config group.chatId
      (.digest group.tenantId group.items) henabled
    refine can_tryCatch.mpr (can_bind.mpr ?_)
    unfold Notifier.sendTelegramDigest
    rw [hsend]
    exact can_invoke.mpr ⟨.error "telegram_unavailable", w, ⟨.refused _, rfl⟩, rfl, rfl⟩
  · rw [if_pos (by simp [henabled])]
    exact ⟨rfl, rfl⟩

theorem processGroups_can (pid : Nat) (groups : List AlertsRepository.TelegramDigestGroup)
    (acc : DigestSweepResult) :
    Can (Executes pid) (TelegramDigests.processGroups config rt groups acc)
      (fun r w' => r = .ok acc ∧ w' = w) w := by
  induction groups with
  | nil => exact ⟨rfl, rfl⟩
  | cons group groups ih =>
    refine can_bind.mpr ((processGroup_can pid group acc).mono ?_)
    rintro r w' ⟨rfl, rfl⟩
    exact ih

theorem processGroups_append (groups groups' : List AlertsRepository.TelegramDigestGroup)
    (acc : DigestSweepResult) :
    TelegramDigests.processGroups config rt (groups ++ groups') acc
      = TelegramDigests.processGroups config rt groups acc >>= fun acc =>
        TelegramDigests.processGroups config rt groups' acc := by
  induction groups generalizing acc with
  | nil => rfl
  | cons group groups ih =>
    change (TelegramDigests.processGroup config rt group acc >>= fun acc =>
      TelegramDigests.processGroups config rt (groups ++ groups') acc) = _
    rw [funext ih]
    exact (bind_assoc' _ _ _).symm

/-- The message of a group of a tenant whose bot is lost goes out under the shared token. -/
theorem not_processGroup_spares (pid : Nat) {group : AlertsRepository.TelegramDigestGroup}
    {acc : DigestSweepResult} {post : Except String DigestSweepResult → World → Prop}
    (hglobal : Text.truthy config.telegramBotToken = true)
    (hlost : w.BotLost config rt group.tenantId) (hitems : group.items ≠ []) :
    ¬ Meets (fun _ c => SparesSharedBot config rt w c) (Executes pid)
      (TelegramDigests.processGroup config rt group acc) post w := by
  intro hmeets
  unfold TelegramDigests.processGroup at hmeets
  rw [if_neg (by simpa using hitems)] at hmeets
  have hsettings := (meets_invoke.mp (meets_bind.mp hmeets)).2 (.ok _) w ⟨.ok .none, rfl⟩
  dsimp only at hsettings
  have henabled := (isTelegramEnabled_of_botLost hlost).trans hglobal
  rw [if_neg (by simp [henabled])] at hsettings
  obtain ⟨token, -, horElse, hmessage⟩ := Notifier.sendTelegramMessage_of_enabled config
    group.chatId (.digest group.tenantId group.items) henabled
  have hsend := meets_bind.mp (meets_tryCatch.mp hsettings)
  unfold Notifier.sendTelegramDigest at hsend
  rw [hmessage] at hsend
  rw [orElse_resolve_of_botLost hlost] at horElse
  exact (meets_invoke.mp hsend).1 token group.chatId _ rfl horElse hlost

/-- A sweep that does, uses it: the messages before may all be refused. -/
theorem not_sweep_spares (pid : Nat) (h : SweepsByShared config rt w) :
    ¬ Meets (fun _ c => SparesSharedBot config rt w c) (Executes pid)
      (TelegramDigests.execute config rt) (fun _ _ => True) w := by
  intro hmeets
  obtain ⟨hglobal, keys, htop, key, hkey, hlost, hitems⟩ := h
  unfold TelegramDigests.execute at hmeets
  rw [if_neg (by simp [Notifier.isEnabled])] at hmeets
  have hreconcile : Can (Executes pid) TelegramDigests.reconcilePreviousSweeps
      (fun r w' => r = .ok 0 ∧ w' = w) w :=
    can_tryCatch.mpr (can_bind.mpr (can_invoke.mpr
      ⟨.error "database_unavailable", w, ⟨.refused _, rfl⟩, rfl, rfl⟩))
  obtain ⟨-, w₁, hrest, rfl, rfl⟩ := (meets_bind.mp hmeets).of_can hreconcile
  have hclock := (meets_invoke.mp (meets_bind.mp hrest)).2 (.ok w₁.now) w₁ ⟨.ok .none, rfl⟩
  have hlist := (meets_invoke.mp (meets_bind.mp (meets_bind.mp hclock))).2 (.ok keys) w₁
    ⟨.ok (.groups keys), by
      change Option.map _ (if _ then some (keys, w₁) else none) = _
      rw [if_pos htop]
      rfl⟩
  obtain ⟨-, w₂, hgroups, rfl, rfl⟩ := hlist.of_can (loadDigestGroups_can pid w₁.now keys)
  obtain ⟨g, hg, htenant, hne⟩ := exists_loadedGroup hkey hitems
  obtain ⟨before, after, hsplit⟩ := List.append_of_mem hg
  change Meets _ _ (TelegramDigests.processGroups config rt (loadedGroups w₂ w₂.now keys) _) _ w₂
    at hgroups
  rw [hsplit, processGroups_append] at hgroups
  obtain ⟨-, w₃, htarget, rfl, rfl⟩ := (meets_bind.mp hgroups).of_can
    (processGroups_can pid before _)
  refine not_processGroup_spares pid hglobal ?_ hne (meets_bind.mp htarget)
  rw [htenant]
  exact hlost

/-- **The shared bot serves a tenant whose own bot is lost exactly if** there is a shared
token and something of the tenant's to send. -/
theorem sharedBot_iff (config : AppConfig) (rt : Runtime) (pid : Nat) (w : World)
    (input : DeliveryInput) :
    (Meets (fun _ c => SparesSharedBot config rt w c) (Executes pid)
        (ProcessAlertDelivery.execute config rt input) (fun _ _ => True) w ↔
      ¬ DeliversByShared config rt w input) ∧
    (Meets (fun _ c => SparesSharedBot config rt w c) (Executes pid)
        (TelegramDigests.execute config rt) (fun _ _ => True) w ↔
      ¬ SweepsByShared config rt w) :=
  ⟨⟨fun hmeets h => not_execute_spares pid h hmeets, execute_spares pid⟩,
    ⟨fun hmeets h => not_sweep_spares pid h hmeets, sweep_spares pid⟩⟩

end SharedBot

namespace System

/-- The deployment of before, with the shared bot in place of the webhook. -/
def sharedBotDeployment : Deployment :=
  { webhookDeployment with
    config := { webhookDeployment.config with
      webhookNotifierUrl := none
      telegramBotToken := some "shared-bot" } }

/-- Settings with a bot token that was encrypted under a master key that is gone. -/
def lostBotRow : TenantSettingsRow :=
  { tenantId := "t"
    webhookNotifierUrl := none
    recipientEmails := []
    telegramChatIds := ["42"]
    telegramDeliveryMode := .instant
    telegramBotTokenCiphertext := some "Y2lwaGVydGV4dA=="
    telegramBotTokenIv := some "aXY="
    telegramBotTokenTag := some "dGFn"
    telegramBotTokenKeyVersion := some 2 }

/-- **The shared bot sends the alert** of a tenant whose token does not decrypt. -/
theorem alert_sent_by_sharedBot :
    oneFeed.Init ∧ ∃ t, run (step sharedBotDeployment) oneFeed
        (.saveSettings lostBotRow :: ingestArticle) = some t ∧
      t.world.BotLost sharedBotDeployment.config sharedBotDeployment.rt "t" ∧
      ¬ Meets (fun _ c => SparesSharedBot sharedBotDeployment.config sharedBotDeployment.rt
          t.world c) (Executes 4)
        (ProcessAlertDelivery.execute sharedBotDeployment.config sharedBotDeployment.rt
          { alertId := 1, attemptNumber := 1, willRetry := true }) (fun _ _ => True) t.world := by
  have hrun : ((run (step sharedBotDeployment) oneFeed
      (.saveSettings lostBotRow :: ingestArticle)).bind fun t =>
        (t.world.findAlertForWorker 1).map fun record =>
          (record.alert.tenantId, t.world.settings, record.alert.telegramDeliveryStatus))
      = some ("t", [lostBotRow], .pending) := by decide
  obtain ⟨t, ht, hrun⟩ := Option.bind_eq_some_iff.mp hrun
  obtain ⟨record, hfind, hrecord⟩ := Option.map_eq_some_iff.mp hrun
  obtain ⟨htenant, hrecord⟩ := Prod.mk.inj hrecord
  obtain ⟨hsettings, hstatus⟩ := Prod.mk.inj hrecord
  have hlost : t.world.BotLost sharedBotDeployment.config sharedBotDeployment.rt "t" := by
    refine ⟨lostBotRow, ?_, rfl, fun secret hsecret token hdecrypt => ?_⟩
    · rw [hsettings]
      rfl
    · obtain rfl := Option.some.inj hsecret
      cases hdecrypt
  refine ⟨oneFeed_init, t, ht, hlost, not_execute_spares 4 ⟨rfl, record, hfind, ?_, ?_⟩⟩
  · rw [htenant]
    exact hlost
  · rw [hstatus, htenant, hsettings]
    exact ⟨List.cons_ne_nil "42" [], rfl, by decide⟩

end System

end Feedpulse
