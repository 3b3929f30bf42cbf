import Feedpulse.AlertBatch
import Feedpulse.FeedJob
import Feedpulse.Protocols
import Feedpulse.TenantRows

/-!
# Tenant isolation

The database does not keep the tenants apart, the processes do: each one passes on the tenant of
what it has read. `tenants_apart`: in every run, whatever belongs to an alert, its article, the
feed, the rules and the digest items, is of the tenant of the alert. `messages_addressed`: a
message shows what is of one tenant only, and goes to a destination that this tenant has saved,
under its own bot or that of the deployment.
-/

namespace Feedpulse

open Prog

/-! ## Destinations -/

section Destinations

variable (config : AppConfig) (rt : Runtime) (saved : TenantSettingsRow → Prop)
  (tenantId : String)

/-- The endpoint is one the tenant has saved, or that of the deployment. -/
def WebhookOf (url : String) : Prop :=
  config.webhookNotifierUrl = some url ∨
    ∃ row, saved row ∧ row.tenantId = tenantId ∧ row.webhookNotifierUrl = some url

/-- The recipients are those the tenant has saved. -/
def RecipientsOf (recipients : List String) : Prop :=
  ∃ row, saved row ∧ row.tenantId = tenantId ∧ row.recipientEmails = recipients

/-- The chat is one the tenant has saved. -/
def ChatOf (chatId : String) : Prop :=
  ∃ row, saved row ∧ row.tenantId = tenantId ∧ chatId ∈ row.telegramChatIds

/-- The token is the one the tenant has saved, or that of the deployment. -/
def BotOf (token : String) : Prop :=
  config.telegramBotToken = some token ∨
    ∃ row secret, saved row ∧ row.tenantId = tenantId ∧
      Settings.mapTelegramBotTokenEncrypted row = some secret ∧
      TenantSecrets.decryptTelegramBotToken config rt tenantId secret = .ok token

/-- The message shows what is of one tenant, and goes to that tenant. -/
def NetCall.Addressed (w : World) : NetCall → Prop
  | .fetchFeed .. => True
  | .postWebhook url record =>
    record.OfTenant record.alert.tenantId ∧ WebhookOf config saved record.alert.tenantId url
  | .postEmail recipients record =>
    record.OfTenant record.alert.tenantId ∧ RecipientsOf saved record.alert.tenantId recipients
  | .telegramSendMessage token chatId (.alert record) =>
    record.OfTenant record.alert.tenantId ∧ ChatOf saved record.alert.tenantId chatId ∧
      BotOf config rt saved record.alert.tenantId token
  | .telegramSendMessage token chatId (.digest tenantId items) =>
    (∀ v ∈ items, w.ShowsOf tenantId v) ∧ ChatOf saved tenantId chatId ∧
      BotOf config rt saved tenantId token

/-- The settings were those of the tenant. -/
def SettingsOf (settings : Option TenantSettings) : Prop :=
  ∀ s, settings = some s → ∃ row, saved row ∧ row.tenantId = tenantId ∧
    s = Settings.mapTenantSettings row

variable {config rt saved tenantId} {settings : Option TenantSettings}

/-- The resolver opens the tenant's own token, or falls back on the deployment. -/
theorem SettingsOf.token (h : SettingsOf saved tenantId settings) {token : String}
    (ht : Text.orElse (TelegramBotTokenResolver.resolveForTenant config rt tenantId settings)
      config.telegramBotToken = some token) : BotOf config rt saved tenantId token := by
  rcases htoken : TelegramBotTokenResolver.resolveForTenant config rt tenantId settings with _ | own
  · rw [htoken] at ht
    exact .inl ht
  rw [htoken] at ht
  by_cases hempty : own = ""
  · refine .inl ?_
    simpa [Text.orElse, hempty] using ht
  obtain rfl : own = token := by simpa [Text.orElse, hempty] using ht
  unfold TelegramBotTokenResolver.resolveForTenant
    TelegramBotTokenResolver.resolveDetailedForTenant at htoken
  split at htoken
  · exact .inl htoken
  · rename_i secret hsecret
    split at htoken
    · rename_i token hdecrypt
      obtain rfl := Option.some.inj htoken
      obtain ⟨s, hs, hencrypted⟩ := Option.bind_eq_some_iff.mp hsecret
      obtain ⟨row, hsaved, htenant, rfl⟩ := h s hs
      exact .inr ⟨row, secret, hsaved, htenant, hencrypted, hdecrypt⟩
    · cases htoken

/-- What is decided before a delivery is decided for the tenant. -/
structure DeliveryPlan.For (config : AppConfig) (rt : Runtime) (saved : TenantSettingsRow → Prop)
    (tenantId : String) (p : DeliveryPlan) : Prop where
  /-- the endpoint -/
  webhook : ∀ url, p.notifierUrl = some url → WebhookOf config saved tenantId url
  /-- the recipients -/
  recipients : p.recipientEmails ≠ [] → RecipientsOf saved tenantId p.recipientEmails
  /-- the chats -/
  chats : ∀ chatId ∈ p.telegramChatIds, ChatOf saved tenantId chatId
  /-- the bot -/
  bot : ∀ token, Text.orElse p.telegramBotToken config.telegramBotToken = some token →
    BotOf config rt saved tenantId token

theorem SettingsOf.plan {alert : AlertRow} (h : SettingsOf saved alert.tenantId settings) :
    (ProcessAlertDelivery.plan config rt alert settings).For config rt saved alert.tenantId := by
  constructor
  · intro url hurl
    rcases Option.or_eq_some_iff.mp hurl with hown | ⟨-, hshared⟩
    · obtain ⟨s, hs, hurl⟩ := Option.bind_eq_some_iff.mp hown
      obtain ⟨row, hsaved, htenant, rfl⟩ := h s hs
      exact .inr ⟨row, hsaved, htenant, hurl⟩
    · exact .inl hshared
  · intro hne
    cases hs : settings with
    | none =>
      rw [hs] at hne
      exact absurd rfl hne
    | some s =>
      obtain ⟨row, hsaved, htenant, rfl⟩ := h s hs
      exact ⟨row, hsaved, htenant, rfl⟩
  · intro chatId hchat
    cases hs : settings with
    | none =>
      rw [hs] at hchat
      cases hchat
    | some s =>
      rw [hs] at hchat
      obtain ⟨row, hsaved, htenant, rfl⟩ := h s hs
      exact ⟨row, hsaved, htenant, hchat⟩
  · exact fun token htoken => h.token htoken

end Destinations

/-! ## The protocol -/

namespace World

/-- The tables of one deployment, with its tenants apart. `saved` are the settings there have
been. -/
structure Partitioned (saved : TenantSettingsRow → Prop) (w : World) : Prop where
  /-- articles are stored once -/
  distinct : w.EntriesDistinct
  /-- the primary key of the rules -/
  rules : (w.rules.map RuleRow.id).Nodup
  /-- what belongs together is of one tenant -/
  tenants : w.TenantsApart
  /-- the settings -/
  settings : ∀ row ∈ w.settings, saved row
  /-- digest items are for chats of their tenants -/
  chats : ∀ i ∈ w.digestItems, ChatOf saved i.tenantId i.chatId

theorem Partitioned.mono {saved saved' : TenantSettingsRow → Prop} {w : World}
    (h : w.Partitioned saved) (hsub : ∀ row, saved row → saved' row) :
    w.Partitioned saved' := by
  refine ⟨h.distinct, h.rules, h.tenants, fun row hrow => hsub row (h.settings row hrow), ?_⟩
  intro i hi
  obtain ⟨row, hsaved, hrest⟩ := h.chats i hi
  exact ⟨row, hsub row hsaved, hrest⟩

end World

namespace TenantIsolation

open World ProcessFeedJob

section Protocol

variable (config : AppConfig) (rt : Runtime) (saved : TenantSettingsRow → Prop)

/-- What a process observes: rows are written for the tenant of what they belong to, messages
are addressed. -/
def Respects (pid : Nat) (w : World) : Call → Prop
  | .net c => c.Addressed config rt saved w
  | .alert (.insertDigestItem tenantId alertId chatId _) =>
    w.AlertOf tenantId alertId ∧ ChatOf saved tenantId chatId
  | c => w.OwnRows pid c

variable {config rt saved} {pid : Nat} {w w' : World} {c : Call}

theorem Respects.ownRows (h : Respects config rt saved pid w c) : w.OwnRows pid c := by
  unfold Respects at h
  split at h
  · trivial
  · exact h.1
  · exact h

theorem partitioned_serve {ch : Choice} {a : c.Reply} (h : w.Partitioned saved)
    (hc : Respects config rt saved pid w c) (hs : c.serve pid w ch = some (a, w')) :
    w'.Partitioned saved := by
  have heffect := serve_effect hs
  refine ⟨h.distinct.serve hs, ?_, h.tenants.serve hc.ownRows hs, ?_, ?_⟩
  · rw [rules_effect heffect]
    exact h.rules
  · rw [System.settings_effect heffect]
    exact h.settings
  · intro i hi
    rcases digestItems_effect heffect hi with ⟨j, hj, htenant, -, hchat⟩ | ⟨scheduledFor, rfl⟩
    · rw [htenant, hchat]
      exact h.chats j hj
    · exact hc.2

theorem partitioned_quiet (h : w.Partitioned saved) (hquiet : System.QuietStep w w')
    (hsettings : ∀ row ∈ w'.settings, row ∈ w.settings ∨ saved row) : w'.Partitioned saved := by
  have htenants := tenantsApart_quiet h.tenants hquiet
  have hdistinct : w'.EntriesDistinct := by
    obtain ⟨hentries, hnext, htxn⟩ := System.entries_quiet hquiet
    exact h.distinct.congr hentries hnext.ge fun q t' ht' => .inr ⟨t', htxn q t' ht', rfl⟩
  have hrest : w'.rules = w.rules ∧ w'.digestItems = w.digestItems := by
    cases hquiet <;> exact ⟨rfl, rfl⟩
  refine ⟨hdistinct, hrest.1 ▸ h.rules, htenants, fun row hrow => ?_, hrest.2 ▸ h.chats⟩
  exact (hsettings row hrow).elim (h.settings row) id

variable (config rt saved)

/-- The tenants stay apart, as long as every process observes it. -/
def isolation : Protocol where
  holds := World.Partitioned saved
  allowed pid _ w c := Respects config rt saved pid w c
  env _ _ := True
  saved := saved
  serve h hc hs := partitioned_serve h hc hs
  quiet := partitioned_quiet

end Protocol

section Programs

variable {config : AppConfig} {rt : Runtime} {saved : TenantSettingsRow → Prop}
  {canonicalizeArticleLink : Option String → Option String} {pid : Nat} {role : Role}
  {w w' : World} {feed : FeedRow}

/-- The rest of the process observes it. -/
abbrev Isolates (config : AppConfig) (rt : Runtime) (saved : TenantSettingsRow → Prop)
    (pid : Nat) {α : Type} (p : Program α) (post : Except String α → World → Prop) :
    World → Prop :=
  Follows (Elsewhere pid) (Respects config rt saved pid)
    ((isolation config rt saved).Answered pid) p post

/-- Calls that concern no tenant, or only the rows they read. -/
def Neutral : Call → Prop
  | .net (.fetchFeed ..) => True
  | .net _ => False
  | .ingest (.insertEntry ..) => False
  | .ingest (.upsertAlerts _) => False
  | .alert (.insertDigestItem ..) => False
  | _ => True

theorem respects_of_neutral {c : Call} (h : Neutral c) : Respects config rt saved pid w c := by
  cases c with
  | net c =>
    cases c with
    | fetchFeed => trivial
    | _ => exact h.elim
  | ingest c =>
    cases c with
    | insertEntry => exact h.elim
    | upsertAlerts => exact h.elim
    | _ => trivial
  | alert c =>
    cases c with
    | insertDigestItem => exact h.elim
    | _ => trivial
  | _ => trivial

/-- A program whose calls are observed while something persistent holds. -/
theorem persistent_isolates {α : Type} {p : Program α} {kind : Call → Prop} {P : World → Prop}
    (hP : Persistent P) (hp : Issues kind p)
    (hkind : ∀ v c, kind c → P v → Respects config rt saved pid v c) (h : P w) :
    Isolates config rt saved pid p (fun _ w' => P w') w :=
  hp.follows hP.stable hkind (fun _ _ _ _ _ hv ha => hP.call ha.effect hv) h

/-- A program of such calls. -/
theorem neutral_isolates {α : Type} {p : Program α} {P : World → Prop} (hP : Persistent P)
    (hp : Issues Neutral p) (h : P w) :
    Isolates config rt saved pid p (fun _ w' => P w') w :=
  persistent_isolates hP hp (fun _ _ hc _ => respects_of_neutral hc) h

theorem persistent_true : Persistent fun _ => True := ⟨fun _ h => h, fun _ h => h⟩

theorem handsOver_neutral (c : Call) (h : HandsOver c) : Neutral c := by
  unfold HandsOver at h
  split at h <;> trivial

theorem request_neutral (c : Call) (h : Role.request.MayIssue c) : Neutral c := by
  unfold Role.MayIssue at h
  split at h <;> first | trivial | exact handsOver_neutral _ h

/-! ## Fetch jobs -/

/-- The feed is one of its tenant. -/
def Known (feed : FeedRow) (w : World) : Prop := (feed.id, feed.tenantId) ∈ w.feedOwners

theorem persistent_known : Persistent (Known feed) where
  call he h := by
    unfold Known at h ⊢
    rwa [feedOwners_effect he]
  quiet hquiet h := by
    cases hquiet <;> exact h

/-- The rules are rules of the tenant. -/
def RulesOf (tenantId : String) (rules : List RuleRow) (w : World) : Prop :=
  ∀ r ∈ rules, r ∈ w.rules ∧ r.tenantId = tenantId

theorem persistent_rulesOf {tenantId : String} {rules : List RuleRow} :
    Persistent (RulesOf tenantId rules) where
  call he h := by
    unfold RulesOf at h ⊢
    rwa [rules_effect he]
  quiet hquiet h := by
    cases hquiet <;> exact h

/-- The transaction is open, and has inserted the rows for the tenant of the feed. -/
structure Collected (pid : Nat) (feed : FeedRow) (rows : List EntryRow) (w : World) : Prop where
  /-- the feed -/
  known : Known feed w
  /-- the tenant -/
  owner : ∀ row ∈ rows, row.tenantId = feed.tenantId
  /-- the transaction -/
  staged : ∃ t, w.txn pid = some t ∧ ∀ row ∈ rows, row ∈ t.entries

theorem stable_collected {rows : List EntryRow} :
    Stable (Elsewhere pid) (Collected pid feed rows) := by
  refine stable_elsewhere (fun _ _ _ _ _ he htxn h => ?_) fun _ _ hquiet htxn h => ?_
  · exact ⟨persistent_known.call he h.known, h.owner, htxn ▸ h.staged⟩
  · exact ⟨persistent_known.quiet hquiet h.known, h.owner, htxn ▸ h.staged⟩

/-- A statement between `BEGIN` and `COMMIT` leaves the transaction open, with what it holds. -/
theorem open_stages {c : Call} {t : Txn} (ht : w.txn pid = some t) (he : CallEffect pid w c w')
    (hc : Stages c) : ∃ t', w'.txn pid = some t' ∧ ∀ e ∈ t.entries, e ∈ t'.entries := by
  have hset : ∀ (t₀ t' : Txn), w.txn pid = some t₀ → t₀.entries = t'.entries →
      ∃ t₁, (w.setTxn pid t').txn pid = some t₁ ∧ ∀ e ∈ t.entries, e ∈ t₁.entries := by
    intro t₀ t' ht₀ heq
    obtain rfl := Option.some.inj (ht.symm.trans ht₀)
    exact ⟨t', (txn_setTxn w pid pid t').trans (if_pos rfl), fun e he => heq ▸ he⟩
  cases he with
  | none => exact ⟨t, ht, fun _ h => h⟩
  | stageEntry tenantId feedId e t₀ row ht₀ =>
    obtain rfl := Option.some.inj (ht.symm.trans ht₀)
    exact ⟨_, (txn_setTxn w pid pid _).trans (if_pos rfl), fun e he => List.mem_append_left _ he⟩
  | stageAlerts rows t₀ ht₀ => exact hset t₀ _ ht₀ rfl
  | stageLog row t₀ ht₀ => exact hset t₀ _ ht₀ rfl
  | stageReport u t₀ ht₀ => exact hset t₀ _ ht₀ rfl
  | _ => exact hc.elim

theorem Collected.effect {rows : List EntryRow} {c : Call} (h : Collected pid feed rows w)
    (he : CallEffect pid w c w') (hc : Stages c) : Collected pid feed rows w' := by
  obtain ⟨t, ht, hrows⟩ := h.staged
  obtain ⟨t', ht', hsub⟩ := open_stages ht he hc
  refine ⟨persistent_known.call he h.known, h.owner, t', ht', fun row hrow => ?_⟩
  exact hsub row (hrows row hrow)

/-- Statements of the transaction that insert nothing. -/
theorem collected_isolates {α : Type} {p : Program α} {rows : List EntryRow}
    (hp : Issues (fun c => Stages c ∧ Neutral c) p) (h : Collected pid feed rows w) :
    Isolates config rt saved pid p (fun _ w' => Collected pid feed rows w') w :=
  hp.follows stable_collected (fun _ _ hc _ => respects_of_neutral hc.2)
    (fun _ _ _ _ hc hv ha => hv.effect ha.effect hc.1) h

theorem begin_isolates (h : Known feed w) :
    Isolates config rt saved pid IngestClient.begin
      (fun r w' => ∀ u, r = .ok u → Collected pid feed [] w') w := by
  refine follows_invoke persistent_known.stable h (fun _ _ => trivial) ?_
  rintro v r v' hk ha u rfl
  obtain ⟨ch, -, hserve⟩ := ha.serve
  obtain ⟨-, rfl⟩ := Prod.mk.inj (Option.some.inj hserve)
  refine ⟨persistent_known.call ha.effect hk, fun _ h => absurd h List.not_mem_nil, Txn.empty, ?_⟩
  exact ⟨(txn_setTxn v pid pid _).trans (if_pos rfl), fun _ h => absurd h List.not_mem_nil⟩

/-- **The articles** are inserted for the tenant of the feed. -/
theorem insertMany_isolates {es : List NormalizedEntry} {done : List EntryRow}
    (h : Collected pid feed done w) :
    Isolates config rt saved pid (insertMany feed.tenantId feed.id es)
      (fun r w' => ∀ rows, r = .ok rows → Collected pid feed (done ++ rows) w') w := by
  induction es generalizing done w with
  | nil =>
    rintro rows hrows
    obtain rfl := Except.ok.inj hrows
    rwa [List.append_nil]
  | cons e es ih =>
    have hinsert : Isolates config rt saved pid
        (ingestCall (.insertEntry feed.tenantId feed.id e))
        (fun r w' => ∀ row : Option EntryRow, r = .ok row →
          Collected pid feed (done ++ row.toList) w') w := by
      refine follows_invoke stable_collected h (fun v hv => hv.known) ?_
      rintro v r v' hv ha row rfl
      obtain ⟨ch, -, hserve⟩ := ha.serve
      have hnext : Collected pid feed done v' := hv.effect ha.effect trivial
      obtain ⟨t, ht, -, ⟨-, rfl, -⟩ | ⟨-, new, -, htenant, -, -, rfl, rfl⟩⟩ :=
        insertEntry_eq_some hserve
      · rwa [Option.toList_none, List.append_nil]
      · obtain ⟨t₀, ht₀, hrows⟩ := hv.staged
        obtain rfl := Option.some.inj (ht.symm.trans ht₀)
        refine ⟨hnext.known, fun row hrow => ?_, _, (txn_setTxn v pid pid _).trans (if_pos rfl), ?_⟩
        · rcases List.mem_append.mp hrow with hrow | hrow
          · exact hv.owner row hrow
          · obtain rfl := List.mem_singleton.mp hrow
            exact htenant
        · intro row hrow
          rcases List.mem_append.mp hrow with hrow | hrow
          · exact List.mem_append_left _ (hrows row hrow)
          · exact List.mem_append_right _ hrow
    refine hinsert.bind (fun row w₁ h₁ => ?_) fun _ _ _ => nofun
    refine (ih (h₁ row rfl)).bind (fun rows w₂ h₂ => ?_) fun _ _ _ => nofun
    intro rows' hrows'
    obtain rfl := Except.ok.inj hrows'
    have hrest := h₂ rows rfl
    rwa [List.append_assoc] at hrest

/-- A group of a batch of the tenant, with rules that satisfy `R`. -/
structure GroupOf (tenantId : String) (rows : List EntryLink) (R : Nat → Prop)
    (p : PendingUpsert) : Prop where
  /-- the tenant -/
  owner : p.tenantId = tenantId
  /-- the article -/
  entry : ∃ l ∈ rows, l.id = p.entryId
  /-- the rules -/
  rules : ∀ r ∈ p.ruleIds, R r

section Groups

open AlertUpsert

variable {tenantId : String} {links : List EntryLink} {R : Nat → Prop}

theorem groupOf_addToGroups {l : EntryLink} (hl : l ∈ links) (howner : l.tenantId = tenantId)
    {ruleIds : List Nat} (hrules : ∀ r ∈ ruleIds, R r) {groups : List (String × PendingUpsert)}
    (h : ∀ g ∈ groups, GroupOf tenantId links R g.2) :
    ∀ g ∈ addToGroups canonicalizeArticleLink l ruleIds groups, GroupOf tenantId links R g.2 := by
  induction groups with
  | nil =>
    intro g hg
    obtain rfl := List.mem_singleton.mp hg
    refine ⟨howner, ⟨l, hl, rfl⟩, fun r hr => ?_⟩
    exact hrules r ((mem_addAll.mp hr).elim (absurd · List.not_mem_nil) id)
  | cons g₀ groups ih =>
    obtain ⟨key, pending⟩ := g₀
    have hpending := h _ List.mem_cons_self
    intro g hg
    unfold addToGroups at hg
    split at hg
    · rcases List.mem_cons.mp hg with rfl | hg
      · refine ⟨hpending.owner, hpending.entry, fun r hr => ?_⟩
        exact (mem_addAll.mp hr).elim (hpending.rules r) (hrules r)
      · exact h g (List.mem_cons_of_mem _ hg)
    · rcases List.mem_cons.mp hg with rfl | hg
      · exact hpending
      · exact ih (fun g hg => h g (List.mem_cons_of_mem _ hg)) g hg

theorem groupOf_groupRows {matchesByEntry : MatchesByEntry}
    (hrules : ∀ id, ∀ r ∈ rulesOf matchesByEntry id, R r) {rows : List EntryLink}
    (hrows : ∀ l ∈ rows, l ∈ links ∧ l.tenantId = tenantId)
    {groups : List (String × PendingUpsert)}
    (h : ∀ g ∈ groups, GroupOf tenantId links R g.2) :
    ∀ g ∈ groupRows canonicalizeArticleLink matchesByEntry groups rows,
      GroupOf tenantId links R g.2 := by
  induction rows generalizing groups with
  | nil => exact h
  | cons l rows ih =>
    have hrest : ∀ l ∈ rows, l ∈ links ∧ l.tenantId = tenantId :=
      fun l hl => hrows l (List.mem_cons_of_mem _ hl)
    obtain ⟨hl, howner⟩ := hrows l List.mem_cons_self
    unfold groupRows
    split
    · exact ih hrest h
    · exact ih hrest (groupOf_addToGroups hl howner (hrules l.id) h)

/-- **The rows of the upsert** are for articles of the batch. -/
theorem upsertRows_of {matchesByEntry : MatchesByEntry}
    (hrules : ∀ id, ∀ r ∈ rulesOf matchesByEntry id, R r)
    (howner : ∀ l ∈ links, l.tenantId = tenantId) {u : UpsertRow}
    (hu : u ∈ upsertRows canonicalizeArticleLink matchesByEntry links) :
    u.tenantId = tenantId ∧ (∃ l ∈ links, l.id = u.entryId) ∧
      ∀ r ∈ u.ruleId :: u.matchedRules, R r := by
  obtain ⟨g, hg, hrow⟩ := List.mem_filterMap.mp hu
  have hgroup : GroupOf tenantId links R g.2 :=
    groupOf_groupRows hrules (fun l hl => ⟨hl, howner l hl⟩)
      (fun g hg => absurd hg List.not_mem_nil) g hg
  obtain ⟨-, htenant, hmatched, hprimary⟩ := toUpsertRow_eq_some hrow
  have hentry : u.entryId = g.2.entryId := by
    unfold toUpsertRow at hrow
    split at hrow
    · cases hrow
    · obtain rfl := Option.some.inj hrow
      rfl
  have hall : ∀ r ∈ u.matchedRules, R r := by
    intro r hr
    rw [hmatched, List.mem_insertionSort] at hr
    exact hgroup.rules r hr
  refine ⟨htenant.trans hgroup.owner, hentry ▸ hgroup.entry, fun r hr => ?_⟩
  rcases List.mem_cons.mp hr with rfl | hr
  · exact hall _ hprimary
  · exact hall r hr

end Groups

/-- The rules of an entry of the batch are among the active ones. -/
theorem mem_rulesOf_match {rules : List RuleRow} {inserted : List EntryRow} {id r : Nat}
    (h : r ∈ AlertUpsert.rulesOf (inserted.filterMap (matchEntry rt rules)) id) :
    ∃ rule ∈ rules, rule.id = r := by
  unfold AlertUpsert.rulesOf at h
  rcases hfind : (inserted.filterMap (matchEntry rt rules)).find? fun m => m.1 = id with _ | m
  · rw [hfind] at h
    cases h
  rw [hfind] at h
  obtain ⟨row, -, hrow⟩ := List.mem_filterMap.mp (List.mem_of_find?_eq_some hfind)
  unfold matchEntry at hrow
  dsimp only at hrow
  split at hrow
  · cases hrow
  · obtain rfl := Option.some.inj hrow
    obtain ⟨rule, hrule, hid⟩ := List.mem_map.mp h
    exact ⟨rule, (List.mem_filter.mp hrule).1, hid⟩

/-- The ids of the batch are those of inserted articles. -/
theorem mem_matchedEntryIds_match {rules : List RuleRow} {inserted : List EntryRow} {id : Nat}
    (h : id ∈ AlertUpsert.matchedEntryIds (inserted.filterMap (matchEntry rt rules))) :
    ∃ row ∈ inserted, row.id = id := by
  obtain ⟨m, hm, rfl⟩ := List.mem_map.mp h
  obtain ⟨row, hrow, hmatch⟩ := List.mem_filterMap.mp (List.mem_filter.mp hm).1
  unfold matchEntry at hmatch
  dsimp only at hmatch
  split at hmatch
  · cases hmatch
  · obtain rfl := Option.some.inj hmatch
    exact ⟨row, hrow, rfl⟩

/-- The statement reads the inserted articles back, and no others. -/
theorem entriesByIds_of {inserted : List EntryRow} {ids : List Nat} {links : List EntryLink}
    (hw : w.Partitioned saved) (h : Collected pid feed inserted w)
    (hids : ∀ id ∈ ids, ∃ row ∈ inserted, row.id = id) {ch : Choice}
    (hserve : (Call.ingest (.entriesByIds ids)).serve pid w ch = some (links, w')) :
    ∀ l ∈ links, l.tenantId = feed.tenantId ∧ ∃ row ∈ inserted, row.id = l.id := by
  obtain ⟨t, ht, hrows⟩ := h.staged
  obtain ⟨t₀, ht₀, hpair⟩ := Option.map_eq_some_iff.mp hserve
  obtain rfl := Option.some.inj (ht.symm.trans ht₀)
  obtain ⟨rfl, -⟩ := Prod.mk.inj hpair
  intro l hl
  unfold World.entriesByIds at hl
  rw [List.mem_insertionSort] at hl
  obtain ⟨e, he, rfl⟩ := List.mem_map.mp hl
  obtain ⟨hmem, hid⟩ := List.mem_filter.mp he
  obtain ⟨row, hrow, hkey⟩ := hids e.id (of_decide_eq_true hid)
  -- no other article has the key of the row
  have hsame : row = e := by
    refine List.inj_on_of_nodup_map (nodup_of_entriesApart (hw.distinct.staged pid t ht)) ?_ hmem
      hkey
    exact List.mem_append_right _ (hrows row hrow)
  exact ⟨hsame ▸ h.owner row hrow, row, hrow, hkey⟩

/-- **The alerts** are for the inserted articles, and the tenant's own rules. -/
theorem createForEntryWithRules_isolates {inserted : List EntryRow} {rules : List RuleRow}
    (h : Collected pid feed inserted w ∧ RulesOf feed.tenantId rules w) :
    Isolates config rt saved pid
      (AlertsRepository.createForEntryWithRules canonicalizeArticleLink
        (inserted.filterMap (matchEntry rt rules)))
      (fun r w' => (∃ a, r = .ok a) → Collected pid feed inserted w') w := by
  have hstable : Stable (Elsewhere pid)
      fun v => Collected pid feed inserted v ∧ RulesOf feed.tenantId rules v :=
    stable_collected.and persistent_rulesOf.stable
  unfold AlertsRepository.createForEntryWithRules
  dsimp only
  split
  · exact fun _ => h.1
  have hread : Isolates config rt saved pid
      (ingestCall (.entriesByIds
        (AlertUpsert.matchedEntryIds (inserted.filterMap (matchEntry rt rules)))))
      (fun r w' => (Collected pid feed inserted w' ∧ RulesOf feed.tenantId rules w') ∧
        ∀ links, r = .ok links → ∀ l ∈ links, l.tenantId = feed.tenantId ∧
          ∃ row ∈ inserted, row.id = l.id) w := by
    refine follows_invoke hstable h (fun _ _ => trivial) ?_
    intro v r v' hv ha
    refine ⟨⟨hv.1.effect ha.effect trivial, persistent_rulesOf.call ha.effect hv.2⟩, ?_⟩
    rintro links rfl
    obtain ⟨ch, -, hserve⟩ := ha.serve
    exact entriesByIds_of ha.1 hv.1 (fun id hid => mem_matchedEntryIds_match hid) hserve
  refine hread.bind (fun links w₁ h₁ => ?_) fun _ _ _ => nofun
  have hlinks := h₁.2 links rfl
  split
  · exact fun _ => h₁.1.1
  have hupsert : Isolates config rt saved pid
      (ingestCall (.upsertAlerts (AlertUpsert.upsertRows canonicalizeArticleLink
        (inserted.filterMap (matchEntry rt rules)) links)))
      (fun _ w' => Collected pid feed inserted w') w₁ := by
    refine follows_invoke hstable h₁.1 ?_ fun _ _ _ hv ha => hv.1.effect ha.effect trivial
    rintro v ⟨hv, hrules⟩ t ht u hu
    obtain ⟨htenant, ⟨l, hl, hid⟩, hall⟩ := upsertRows_of
      (R := fun r => ∃ rule ∈ v.rules, rule.id = r ∧ rule.tenantId = feed.tenantId)
      (fun id r hr => by
        obtain ⟨rule, hrule, hid⟩ := mem_rulesOf_match hr
        exact ⟨rule, (hrules rule hrule).1, hid, (hrules rule hrule).2⟩)
      (fun l hl => (hlinks l hl).1) hu
    obtain ⟨row, hrow, hkey⟩ := (hlinks l hl).2
    obtain ⟨t₀, ht₀, hrows⟩ := hv.staged
    obtain rfl := Option.some.inj (ht.symm.trans ht₀)
    constructor
    · refine ⟨row, List.mem_append_right _ (hrows row hrow), hkey.trans hid, ?_⟩
      rw [htenant]
      exact hv.owner row hrow
    · rw [htenant]
      exact hall
  exact hupsert.bind (fun _ _ h₂ _ => h₂) fun _ _ _ => nofun

/-- From `BEGIN` to `COMMIT`. -/
theorem transaction_isolates {response : FetchResponse} {es : List NormalizedEntry}
    (h : Known feed w) :
    Isolates config rt saved pid
      (transaction rt canonicalizeArticleLink feed response es) (fun _ _ => True) w := by
  refine (begin_isolates h).bind (fun u w₁ h₁ => ?_) fun _ _ _ => trivial
  refine (insertMany_isolates (h₁ u rfl)).bind (fun inserted w₂ h₂ => ?_) fun _ _ _ => trivial
  have hrules : Isolates config rt saved pid (listActive feed.tenantId)
      (fun r w' => ∀ rules, r = .ok rules →
        Collected pid feed inserted w' ∧ RulesOf feed.tenantId rules w') w₂ := by
    refine follows_invoke stable_collected (h₂ inserted rfl) (fun _ _ => trivial) ?_
    rintro v r v' hv ha rules rfl
    obtain ⟨ch, -, hserve⟩ := ha.serve
    refine ⟨hv.effect ha.effect trivial, fun rule hrule => ?_⟩
    obtain ⟨rfl, rfl⟩ := Prod.mk.inj (Option.some.inj hserve)
    rw [List.mem_insertionSort, List.mem_filter, Bool.and_eq_true, decide_eq_true_eq] at hrule
    exact ⟨hrule.1, hrule.2.1⟩
  refine hrules.bind (fun rules w₃ h₃ => ?_) fun _ _ _ => trivial
  refine (createForEntryWithRules_isolates (h₃ rules rfl)).bind (fun outcome w₄ _ => ?_)
    fun _ _ _ => trivial
  refine neutral_isolates persistent_true ?_ trivial
  refine Issues.bind (issues_invoke trivial) fun _ => ?_
  refine Issues.bind (issues_invoke trivial) fun now => ?_
  refine Issues.bind (issues_invoke trivial) fun _ => ?_
  exact Issues.bind (issues_invoke trivial) fun _ => issues_pure _

theorem outside_neutral (c : Call) (h : Outside c) : Neutral c := by
  unfold Outside at h
  split at h <;> first | trivial | exact handsOver_neutral _ h

/-- **A fetch job** keeps to its tenant. -/
theorem execute_isolates (feedId : Nat) (w : World) :
    Isolates config rt saved pid (ProcessFeedJob.execute rt canonicalizeArticleLink feedId)
      (fun _ _ => True) w := by
  have hkeeps : (isolation config rt saved).Keeps pid .scheduler
      (ProcessFeedJob.execute rt canonicalizeArticleLink feedId) (fun _ _ => True) w := by
    refine fetchJob_keeps (K := Known) (fun _ => persistent_known)
      (fun w c hc => respects_of_neutral (outside_neutral c hc))
      (fun feed response es w h => transaction_isolates h) (fun {_ w feed} _ hrow => ?_) feedId w
    exact List.mem_map.mpr ⟨feed, Table.mem_of_lookup hrow, rfl⟩
  exact hkeeps

/-! ## Deliveries -/

/-- The calls of an attempt to deliver an alert of the tenant. -/
def Delivers (config : AppConfig) (rt : Runtime) (saved : TenantSettingsRow → Prop)
    (alertId : Nat) (record : AlertNotificationRecord) : Call → Prop
  | .net (.fetchFeed ..) => True
  | .net (.postWebhook url record') =>
    record' = record ∧ WebhookOf config saved record.alert.tenantId url
  | .net (.postEmail recipients record') =>
    record' = record ∧ RecipientsOf saved record.alert.tenantId recipients
  | .net (.telegramSendMessage token chatId message) =>
    message = .alert record ∧ ChatOf saved record.alert.tenantId chatId ∧
      BotOf config rt saved record.alert.tenantId token
  | .ingest (.insertEntry ..) => False
  | .ingest (.upsertAlerts _) => False
  | .alert (.insertDigestItem tenantId alertId' chatId _) =>
    tenantId = record.alert.tenantId ∧ alertId' = alertId ∧
      ChatOf saved record.alert.tenantId chatId
  | _ => True

theorem respects_of_delivers {alertId : Nat} {record : AlertNotificationRecord} {c : Call}
    (h : Delivers config rt saved alertId record c)
    (hrecord : record.OfTenant record.alert.tenantId)
    (halert : w.AlertOf record.alert.tenantId alertId) : Respects config rt saved pid w c := by
  cases c with
  | net c =>
    cases c with
    | fetchFeed => trivial
    | postWebhook url record' =>
      obtain ⟨rfl, hurl⟩ := h
      exact ⟨hrecord, hurl⟩
    | postEmail recipients record' =>
      obtain ⟨rfl, hrecipients⟩ := h
      exact ⟨hrecord, hrecipients⟩
    | telegramSendMessage token chatId message =>
      obtain ⟨rfl, hchat, hbot⟩ := h
      exact ⟨hrecord, hchat, hbot⟩
  | ingest c =>
    cases c with
    | insertEntry => exact h.elim
    | upsertAlerts => exact h.elim
    | _ => trivial
  | alert c =>
    cases c with
    | insertDigestItem tenantId alertId' chatId scheduledFor =>
      obtain ⟨rfl, rfl, hchat⟩ := h
      exact ⟨halert, hchat⟩
    | _ => trivial
  | _ => trivial

theorem persistent_alertOf {tenantId : String} {id : Nat} :
    Persistent fun w => w.AlertOf tenantId id where
  call he h := h.effect he
  quiet hquiet h := by
    cases hquiet <;> exact h

section Delivery

variable {input : DeliveryInput} {record : AlertNotificationRecord} {p : DeliveryPlan}
  (hp : p.For config rt saved record.alert.tenantId)

theorem quota_delivers (c : Call) (h : UsesQuota c) :
    Delivers config rt saved input.alertId record c := by
  unfold UsesQuota at h
  split at h <;> trivial

theorem write_delivers (id : Nat) (s : AlertWrite) :
    Issues (Delivers config rt saved input.alertId record) (AlertsRepository.write id s) :=
  Issues.bind (issues_invoke trivial) fun _ => issues_pure _

include hp

theorem attemptWebhook_delivers :
    Issues (Delivers config rt saved input.alertId record)
      (ProcessAlertDelivery.attemptWebhook config input.alertId record p) := by
  unfold ProcessAlertDelivery.attemptWebhook
  split
  · rename_i url hattempt hurl
    refine Issues.tryCatch (Issues.bind ?_ fun _ => ?_) fun _ => issues_pure _
    · unfold Notifier.sendWebhook
      split
      · exact issues_pure _
      · rename_i url' hurl'
        refine Issues.ite (fun _ => issues_pure _) fun _ => issues_invoke ⟨rfl, ?_⟩
        unfold Text.orElse at hurl'
        split at hurl'
        · obtain rfl := Option.some.inj hurl'
          exact hp.webhook url hurl
        · exact .inl hurl'
    · exact Issues.bind (write_delivers ..) fun _ => issues_pure _
  · exact issues_pure _

theorem attemptEmail_delivers :
    Issues (Delivers config rt saved input.alertId record)
      (ProcessAlertDelivery.attemptEmail config input.alertId record p) := by
  unfold ProcessAlertDelivery.attemptEmail
  split
  · refine Issues.bind (reserve_issues quota_delivers ..) fun quota => ?_
    split
    · refine Issues.tryCatch (Issues.bind ?_ fun _ => ?_) fun _ => ?_
      · unfold Notifier.sendEmail
        refine Issues.ite (fun _ => issues_pure _) fun hne => ?_
        refine Issues.ite (fun _ => issues_throw' _) fun _ => issues_invoke ⟨rfl, ?_⟩
        exact hp.recipients fun hnil => hne (by rw [hnil]; rfl)
      · exact Issues.bind (write_delivers ..) fun _ => issues_pure _
      · exact Issues.bind (release_issues quota_delivers ..) fun _ => issues_pure _
    · exact Issues.bind (write_delivers ..) fun _ => issues_pure _
  · exact issues_pure _

theorem sendToChats_delivers {chatIds : List String}
    (hchats : ∀ chatId ∈ chatIds, ChatOf saved record.alert.tenantId chatId) :
    Issues (Delivers config rt saved input.alertId record)
      (ProcessAlertDelivery.sendToChats config record p.telegramBotToken chatIds) := by
  induction chatIds with
  | nil => exact issues_pure _
  | cons chatId chatIds ih =>
    refine Issues.bind ?_ fun _ => Issues.bind (ih fun c hc => ?_) fun _ => issues_pure _
    · refine Issues.tryCatch (Issues.bind ?_ fun _ => issues_pure _) fun _ => issues_pure _
      refine sendTelegramMessage_issues _ _ _ _ fun token _ htoken => ?_
      exact ⟨rfl, hchats chatId List.mem_cons_self, hp.bot token htoken⟩
    · exact hchats c (List.mem_cons_of_mem _ hc)

theorem attemptTelegram_delivers :
    Issues (Delivers config rt saved input.alertId record)
      (ProcessAlertDelivery.attemptTelegram config input.alertId record p) := by
  unfold ProcessAlertDelivery.attemptTelegram
  split
  · refine Issues.bind (sendToChats_delivers hp hp.chats) fun errors => ?_
    exact Issues.ite (fun _ => Issues.bind (write_delivers ..) fun _ => issues_pure _)
      fun _ => issues_pure _
  · exact issues_pure _

theorem queueDigest_delivers :
    Issues (Delivers config rt saved input.alertId record)
      (ProcessAlertDelivery.queueDigest input.alertId record p) := by
  have hinsert : ∀ (scheduledFor : Nat) (chatIds : List String),
      (∀ chatId ∈ chatIds, ChatOf saved record.alert.tenantId chatId) →
      Issues (Delivers config rt saved input.alertId record)
        (AlertsRepository.insertDigestItems input.alertId record.alert.tenantId scheduledFor
          chatIds) := by
    intro scheduledFor chatIds hchats
    induction chatIds with
    | nil => exact issues_pure _
    | cons chatId chatIds ih =>
      refine Issues.bind (issues_invoke ⟨rfl, rfl, hchats chatId List.mem_cons_self⟩) fun _ => ?_
      exact ih fun c hc => hchats c (List.mem_cons_of_mem _ hc)
  unfold ProcessAlertDelivery.queueDigest AlertsRepository.queueTelegramDigestItems
  split
  · split
    · exact issues_pure _
    · exact Issues.bind (issues_invoke trivial) fun _ => hinsert _ _ hp.chats
  · exact issues_pure _

end Delivery

theorem settle_delivers {input : DeliveryInput} {record : AlertNotificationRecord}
    (p : DeliveryPlan) (errors terminalErrors : List String) :
    Issues (Delivers config rt saved input.alertId record)
      (ProcessAlertDelivery.settle input p errors terminalErrors) := by
  unfold ProcessAlertDelivery.settle
  refine Issues.ite (fun _ => issues_throw' _) fun _ => ?_
  refine Issues.ite (fun _ => write_delivers ..) fun _ => ?_
  refine Issues.bind (issues_invoke trivial) fun allDelivered => ?_
  refine Issues.ite (fun _ => ?_) fun _ => Issues.ite (fun _ => write_delivers ..) fun _ => ?_
  · refine Issues.bind (Issues.bind (issues_invoke trivial) fun _ => ?_) fun _ => ?_
    · exact issues_pure _
    · exact issues_pure _
  · exact issues_pure _

theorem process_delivers {input : DeliveryInput} {record : AlertNotificationRecord}
    {settings : Option TenantSettings} (h : SettingsOf saved record.alert.tenantId settings) :
    Issues (Delivers config rt saved input.alertId record)
      (ProcessAlertDelivery.process config rt input record settings) := by
  have hp : (ProcessAlertDelivery.plan config rt record.alert settings).For config rt saved
      record.alert.tenantId := h.plan
  unfold ProcessAlertDelivery.process
  dsimp only
  split
  · exact write_delivers ..
  refine Issues.tryCatch ?_ fun message => Issues.bind (write_delivers ..) fun _ => issues_throw' _
  refine Issues.bind (attemptWebhook_delivers hp) fun webhookErrors => ?_
  refine Issues.bind (attemptEmail_delivers hp) fun emailErrors => ?_
  refine Issues.bind (attemptTelegram_delivers hp) fun telegramErrors => ?_
  refine Issues.bind (queueDigest_delivers hp) fun _ => ?_
  exact settle_delivers _ _ _

/-- The settings that are read are those of the tenant. -/
theorem getByTenantId_isolates {tenantId : String} {P : World → Prop} (hP : Persistent P)
    (h : P w) :
    Isolates config rt saved pid (getByTenantId tenantId)
      (fun r w' => P w' ∧ ∀ settings, r = .ok settings → SettingsOf saved tenantId settings) w := by
  refine follows_invoke hP.stable h (fun _ _ => trivial) fun v r v' hv ha => ?_
  refine ⟨hP.call ha.effect hv, ?_⟩
  rintro settings rfl s hs
  obtain ⟨ch, -, hserve⟩ := ha.serve
  obtain ⟨rfl, -⟩ := Prod.mk.inj (Option.some.inj hserve)
  obtain ⟨row, hrow, rfl⟩ := Option.map_eq_some_iff.mp hs
  exact ⟨row, ha.1.settings row (Table.mem_of_lookup hrow), Table.key_of_lookup hrow, rfl⟩

/-- **A delivery** keeps to the tenant of its alert. -/
theorem delivery_isolates (input : DeliveryInput) (w : World) :
    Isolates config rt saved pid (ProcessAlertDelivery.execute config rt input)
      (fun _ _ => True) w := by
  have hread : Isolates config rt saved pid (AlertsRepository.findByIdForWorker input.alertId)
      (fun r w' => ∀ record, r = .ok (some record) → record.OfTenant record.alert.tenantId ∧
        w'.AlertOf record.alert.tenantId input.alertId) w := by
    refine follows_invoke stable_true trivial (fun _ _ => trivial) ?_
    rintro v r v' - ha record rfl
    obtain ⟨ch, -, hserve⟩ := ha.serve
    obtain ⟨hrecord, rfl⟩ := Prod.mk.inj (Option.some.inj hserve)
    exact ha.1.tenants.findAlertForWorker ha.1.distinct.apart ha.1.rules hrecord
  refine hread.bind (fun found w₁ h₁ => ?_) fun _ _ _ => trivial
  cases found with
  | none => trivial
  | some record =>
    obtain ⟨hrecord, halert⟩ := h₁ record rfl
    refine (getByTenantId_isolates persistent_alertOf halert).bind (fun settings w₂ h₂ => ?_)
      fun _ _ _ => trivial
    have hprocess : Issues (Delivers config rt saved input.alertId record)
        (ProcessAlertDelivery.process config rt input record settings) :=
      process_delivers (h₂.2 settings rfl)
    exact (persistent_isolates persistent_alertOf hprocess
      (fun v c hc hv => respects_of_delivers hc hrecord hv) h₂.1).mono fun _ _ _ => trivial

/-! ## Digests -/

/-- The groups are for chats of their tenants, and show what is of their tenants. -/
def GroupsOf (saved : TenantSettingsRow → Prop)
    (groups : List AlertsRepository.TelegramDigestGroup) (w : World) : Prop :=
  ∀ g ∈ groups, ChatOf saved g.tenantId g.chatId ∧ ∀ v ∈ g.items, w.ShowsOf g.tenantId v

theorem persistent_groupsOf {groups : List AlertsRepository.TelegramDigestGroup} :
    Persistent (GroupsOf saved groups) where
  call he h g hg := ⟨(h g hg).1, fun v hv => ((h g hg).2 v hv).effect he⟩
  quiet hquiet h := by
    cases hquiet <;> exact h

theorem persistent_shows {tenantId : String} {items : List DigestItemView} :
    Persistent fun w => ∀ v ∈ items, w.ShowsOf tenantId v where
  call he h v hv := (h v hv).effect he
  quiet hquiet h := by
    cases hquiet <;> exact h

/-- What is due is due for chats of the tenants. -/
theorem chatOf_of_dueGroups {nowIso maxGroups : Nat} {picks : List DigestGroupKey}
    (h : w.Partitioned saved)
    (htop : Table.IsTop (fun g h : DigestGroupKey => g.earliest ≤ h.earliest) maxGroups
      (dueGroups nowIso w.digestItems) picks) :
    ∀ g ∈ picks, ChatOf saved g.tenantId g.chatId := by
  intro g hg
  have hgroup : g ∈ dueGroups nowIso w.digestItems := htop.2.1 g hg
  obtain ⟨key, hkey, rfl⟩ := List.mem_map.mp hgroup
  obtain ⟨i, hi, rfl⟩ := List.mem_map.mp (List.mem_dedup.mp hkey)
  exact h.chats i (List.mem_filter.mp hi).1

theorem loadDigestGroups_isolates {nowIso : Nat} {keys : List DigestGroupKey}
    (hkeys : ∀ g ∈ keys, ChatOf saved g.tenantId g.chatId) (w : World) :
    Isolates config rt saved pid (AlertsRepository.loadDigestGroups nowIso keys)
      (fun r w' => ∀ groups, r = .ok groups → GroupsOf saved groups w') w := by
  induction keys generalizing w with
  | nil =>
    rintro groups hgroups
    obtain rfl := Except.ok.inj hgroups
    exact fun g hg => absurd hg List.not_mem_nil
  | cons key keys ih =>
    have hread : Isolates config rt saved pid
        (alertCall (.listGroupItems nowIso key.tenantId key.chatId))
        (fun r w' => ∀ items, r = .ok items → ∀ v ∈ items, w'.ShowsOf key.tenantId v) w := by
      refine follows_invoke stable_true trivial (fun _ _ => trivial) ?_
      rintro v r v' - ha items rfl
      obtain ⟨ch, -, hserve⟩ := ha.serve
      obtain ⟨rfl, rfl⟩ := Prod.mk.inj (Option.some.inj hserve)
      exact ha.1.tenants.dueGroupItems ha.1.distinct.apart
    refine hread.bind (fun items w₁ h₁ => ?_) fun _ _ _ => nofun
    have hitems := h₁ items rfl
    have hkept : Persistent fun w => ∀ v ∈ items, w.ShowsOf key.tenantId v := persistent_shows
    have hrest := (ih (fun g hg => hkeys g (List.mem_cons_of_mem _ hg)) w₁).and_kept
      hkept.stable (fun _ _ _ _ hv ha => hkept.call ha.effect hv) hitems
    refine hrest.bind (fun rest w₂ h₂ => ?_) fun _ _ _ => nofun
    have hgroups := h₂.1 rest rfl
    cases items with
    | nil =>
      rintro groups hgroups'
      obtain rfl := Except.ok.inj hgroups'
      exact hgroups
    | cons firstItem items =>
      rintro groups hgroups'
      obtain rfl := Except.ok.inj hgroups'
      intro g hg
      rcases List.mem_cons.mp hg with rfl | hg
      · exact ⟨hkeys key List.mem_cons_self, h₂.2⟩
      · exact hgroups g hg

theorem markTelegramDigestGroupSent_neutral (items : List DigestItemView) :
    Issues Neutral (AlertsRepository.markTelegramDigestGroupSent items) := by
  have hmark : ∀ items, Issues Neutral (AlertsRepository.markItemsSent items) := by
    intro items
    induction items with
    | nil => exact issues_pure _
    | cons item items ih => exact Issues.bind (issues_invoke trivial) fun _ => ih
  have hconverge : ∀ alertIds, Issues Neutral (AlertsRepository.convergeAlerts alertIds) := by
    intro alertIds
    induction alertIds with
    | nil => exact issues_pure _
    | cons alertId alertIds ih =>
      exact Issues.bind (issues_invoke trivial) fun _ => Issues.bind ih fun _ => issues_pure _
  refine Issues.ite (fun _ => issues_pure _) fun _ => ?_
  exact Issues.bind (hmark items) fun _ => hconverge _

/-- **A digest** goes to the chat, and under the bot, of the tenant it shows. -/
theorem processGroup_isolates {group : AlertsRepository.TelegramDigestGroup}
    (acc : DigestSweepResult) {groups : List AlertsRepository.TelegramDigestGroup}
    (hmem : group ∈ groups) (h : GroupsOf saved groups w) :
    Isolates config rt saved pid (TelegramDigests.processGroup config rt group acc)
      (fun _ w' => GroupsOf saved groups w') w := by
  unfold TelegramDigests.processGroup
  split
  · exact h
  refine (getByTenantId_isolates persistent_groupsOf h).bind (fun settings w₁ h₁ => ?_)
    fun _ _ h₁ => h₁.1
  have hsettings := h₁.2 settings rfl
  dsimp only
  split
  · exact h₁.1
  refine follows_tryCatch ?_ fun _ _ h₂ => h₂
  have hcalls : Issues (fun c => ∃ token, BotOf config rt saved group.tenantId token ∧
      c = .net (.telegramSendMessage token group.chatId (.digest group.tenantId group.items)))
      (Notifier.sendTelegramDigest config group
        (TelegramBotTokenResolver.resolveForTenant config rt group.tenantId settings)) :=
    sendTelegramMessage_issues _ _ _ _ fun token _ htoken =>
      ⟨token, hsettings.token htoken, rfl⟩
  refine (persistent_isolates persistent_groupsOf hcalls ?_ h₁.1).bind (fun _ w₂ h₂ => ?_)
    fun _ _ h₂ => h₂
  · rintro v c ⟨token, hbot, rfl⟩ hv
    exact ⟨(hv group hmem).2, (hv group hmem).1, hbot⟩
  · refine neutral_isolates persistent_groupsOf (Issues.bind ?_ fun _ => issues_pure _) h₂
    exact markTelegramDigestGroupSent_neutral _

theorem processGroups_isolates {groups todo : List AlertsRepository.TelegramDigestGroup}
    (acc : DigestSweepResult) (hsub : ∀ g ∈ todo, g ∈ groups) (h : GroupsOf saved groups w) :
    Isolates config rt saved pid (TelegramDigests.processGroups config rt todo acc)
      (fun _ w' => GroupsOf saved groups w') w := by
  induction todo generalizing acc w with
  | nil => exact h
  | cons group todo ih =>
    refine (processGroup_isolates acc (hsub group List.mem_cons_self) h).bind
      (fun acc' w₁ h₁ => ?_) fun _ _ h₁ => h₁
    exact ih acc' (fun g hg => hsub g (List.mem_cons_of_mem _ hg)) h₁

theorem digests_isolates (w : World) :
    Isolates config rt saved pid (TelegramDigests.execute config rt) (fun _ _ => True) w := by
  refine (neutral_isolates persistent_true ?_ trivial).bind (fun _ w₁ _ => ?_) fun _ _ _ => trivial
  · refine Issues.tryCatch ?_ fun _ => issues_pure _
    exact Issues.bind (issues_invoke trivial) fun _ => issues_pure _
  refine (neutral_isolates persistent_true ?_ trivial).bind (fun now w₂ _ => ?_)
    fun _ _ _ => trivial
  · exact issues_invoke trivial
  have hlist : Isolates config rt saved pid
      (AlertsRepository.listDueTelegramDigestGroups now 30)
      (fun r w' => ∀ groups, r = .ok groups → GroupsOf saved groups w') w₂ := by
    have hkeys : Isolates config rt saved pid (alertCall (.listDueGroups now 30))
        (fun r _ => ∀ keys, r = .ok keys → ∀ g ∈ keys, ChatOf saved g.tenantId g.chatId) w₂ := by
      refine follows_invoke stable_true trivial (fun _ _ => trivial) ?_
      rintro v r v' - ha keys rfl
      obtain ⟨ch, -, hserve⟩ := ha.serve
      exact chatOf_of_dueGroups ha.1 (AlertCall.listDueGroups_eq_some hserve).1
    refine hkeys.bind (fun keys w₃ h₃ => ?_) fun _ _ _ => nofun
    exact loadDigestGroups_isolates (h₃ keys rfl) w₃
  refine hlist.bind (fun groups w₃ h₃ => ?_) fun _ _ _ => trivial
  exact (processGroups_isolates _ (fun _ h => h) (h₃ groups rfl)).mono fun _ _ _ => trivial

theorem scheduleDueFeeds_neutral : Issues Neutral (Scheduler.scheduleDueFeeds config) := by
  have henqueue : ∀ (queuedAt : Nat) (feeds : List FeedRow),
      Issues Neutral (Scheduler.enqueueAll queuedAt feeds) := by
    intro queuedAt feeds
    induction feeds with
    | nil => exact issues_pure _
    | cons feed feeds ih =>
      refine Issues.bind (Issues.attempt ?_) fun _ => Issues.bind ih fun _ => issues_pure _
      refine Issues.bind (issues_invoke trivial) fun found => ?_
      cases found with
      | some job => exact issues_pure _
      | none => exact Issues.bind (issues_invoke trivial) fun _ => issues_pure _
  refine Issues.bind (issues_invoke trivial) fun _ => ?_
  refine Issues.bind (Issues.ite (fun _ => issues_throw' _) fun _ => ?_) fun feeds => ?_
  · exact issues_invoke trivial
  refine Issues.bind (issues_invoke trivial) fun queuedAt => ?_
  refine Issues.bind (henqueue ..) fun results => ?_
  split
  · exact issues_throw' _
  · exact issues_pure _

/-- **A tick** keeps the tenants apart. -/
theorem tick_isolates (w : World) :
    Isolates config rt saved pid (Scheduler.tick config rt) (fun _ _ => True) w := by
  have hattempt : ∀ {α : Type} {p : Program α} (v : World), Issues Neutral p →
      Isolates config rt saved pid (attempt p) (fun _ _ => True) v :=
    fun v hp => neutral_isolates persistent_true (Issues.attempt hp) trivial
  refine (hattempt w ?_).bind (fun _ w₁ _ => ?_) fun _ _ _ => trivial
  · refine Issues.bind (issues_invoke trivial) fun _ => ?_
    exact Issues.ite (fun _ => issues_throw' _) fun _ => issues_invoke trivial
  refine (hattempt w₁ ?_).bind (fun _ w₂ _ => ?_) fun _ _ _ => trivial
  · exact scheduleDueFeeds_neutral
  have hdigests : Isolates config rt saved pid (attempt (TelegramDigests.execute config rt))
      (fun _ _ => True) w₂ := meets_attempt.mpr (digests_isolates w₂)
  exact hdigests.bind (fun _ _ _ => trivial) fun _ _ _ => trivial

end Programs

end TenantIsolation

/-! ## Runs -/

namespace System

open Transition TenantIsolation

variable {d : Deployment} {s s' : System}

/-- Every process starts by the protocol. -/
theorem launch_isolates {saved : TenantSettingsRow → Prop} {w w' : World} {a : Action}
    {pid : Nat} {role : Role} {prog : Program Unit} (h : Launch d w a pid role prog) :
    (isolation d.config d.rt saved).Keeps pid role prog (fun _ _ => True) w' := by
  cases h with
  | tick => exact tick_isolates w'
  | request _ r =>
    exact neutral_isolates persistent_true ((request_issues r).mono request_neutral) trivial
  | fetch _ jobId job =>
    exact (execute_isolates job.data.feedId w').bind (fun _ _ _ => trivial) fun _ _ _ => trivial
  | delivery _ jobId job => exact delivery_isolates (deliveryInput job) w'

/-- The settings there have been: those from before the run, and those saved in it. -/
def Saved (s₀ : System) (as : List Action) (row : TenantSettingsRow) : Prop :=
  row ∈ s₀.world.settings ∨ .saveSettings row ∈ as

/-- What the database holds before the run: keys are unique, and articles are of the tenant of
their feed. -/
structure Stocked (s₀ : System) : Prop where
  /-- the sequence of the articles -/
  fresh : ∀ e ∈ s₀.world.entries, e.id < s₀.world.nextEntryId
  /-- the unique constraints of the articles -/
  entries : EntriesApart s₀.world.entries
  /-- the primary key of the rules -/
  rules : (s₀.world.rules.map RuleRow.id).Nodup
  /-- the tenants of the articles -/
  owners : ∀ e ∈ s₀.world.entries, (e.feedId, e.tenantId) ∈ s₀.world.feedOwners

theorem partitioned_of_init {s₀ : System} (h₀ : s₀.Init) (hs : s₀.Stocked) (as : List Action) :
    s₀.world.Partitioned (Saved s₀ as) := by
  have hnone : ∀ pid t, s₀.world.txn pid ≠ some t := by
    intro pid t ht
    rw [World.txn, h₀.txns] at ht
    cases ht
  have halert : ∀ a, ¬ s₀.world.HasAlert a := by
    rintro a (ha | ⟨pid, t, ht, -⟩)
    · rw [h₀.alerts] at ha
      cases ha
    · exact hnone pid t ht
  have hitem : ∀ i, i ∉ s₀.world.digestItems := by
    intro i hi
    rw [h₀.digestItems] at hi
    cases hi
  refine ⟨entriesDistinct_of_init h₀ hs.fresh hs.entries, hs.rules, ?_, fun _ => .inl, ?_⟩
  · exact
      { entries := hs.owners
        alerts := fun a ha => absurd (.inl ha) (halert a)
        digestItems := fun i hi => absurd hi (hitem i)
        stagedEntries := fun pid t ht => absurd ht (hnone pid t)
        stagedAlerts := fun pid t ht => absurd ht (hnone pid t)
        keys := ⟨fun a ha => absurd ha (halert a), fun a _ ha => absurd ha (halert a)⟩ }
  · exact fun i hi => absurd hi (hitem i)

/-- Where the settings that are saved are counted, every process keeps to the protocol. -/
theorem isolation_run {saved : TenantSettingsRow → Prop} {t : System}
    (hs : (isolation d.config d.rt saved).Abides s) {as : List Action}
    (hsaved : ∀ row, .saveSettings row ∈ as → saved row) (h : run (step d) s as = some t) :
    (isolation d.config d.rt saved).Abides t := by
  have hexpects : ∀ a ∈ as, ∀ s, (isolation d.config d.rt saved).Expects s a := by
    intro a ha s
    cases a with
    | saveSettings row => exact hsaved row ha
    | advance pid out => exact fun _ _ _ _ => trivial
    | _ => trivial
  exact run_invariant_of_forall (fun _ a _ ha habides hstep =>
    Protocol.abides_step (fun _ _ _ _ _ _ hl => launch_isolates hl) habides hstep (ha _))
    hexpects hs h

/-- In every run, every process keeps to the protocol. -/
theorem isolation_abides {s₀ : System} (h₀ : s₀.Init) (hs : s₀.Stocked) {as : List Action}
    (h : run (step d) s₀ as = some s) :
    (isolation d.config d.rt (Saved s₀ as)).Abides s :=
  isolation_run (Protocol.abides_of_init h₀ (partitioned_of_init h₀ hs as)) (fun _ => .inr) h

/-- **What belongs together is of one tenant**, in every run: an alert, its article, the feed of
the article, the rules that matched, and the digest items of the alert. -/
theorem tenants_apart {s₀ : System} (h₀ : s₀.Init) (hs : s₀.Stocked) {as : List Action}
    (h : run (step d) s₀ as = some s) :
    (∀ a ∈ s.world.alerts, ∃ record, s.world.alertDetail a = some record ∧
      record.alert.id = a.id ∧ record.entry.id = a.entryId ∧ record.OfTenant a.tenantId ∧
      ∃ f ∈ s.world.feeds, f.id = record.entry.feedId ∧ f.tenantId = a.tenantId) ∧
    (∀ a ∈ s.world.alerts, ∀ id ∈ a.ruleId :: a.matchedRules,
      ∃ r ∈ s.world.rules, r.id = id ∧ r.tenantId = a.tenantId) ∧
    ∀ i ∈ s.world.digestItems, (∃ a ∈ s.world.alerts, a.id = i.alertId) ∧
      ∀ a ∈ s.world.alerts, a.id = i.alertId → a.tenantId = i.tenantId := by
  have hpart := (isolation_abides h₀ hs h).holds
  have htenants := hpart.tenants
  refine ⟨fun a ha => ?_, fun a ha => (htenants.alerts a ha).rules, fun i hi => ?_⟩
  · obtain ⟨record, hdetail, hid, hmem, hentry, hown⟩ :=
      htenants.alertDetail hpart.distinct.apart hpart.rules ha
    obtain ⟨f, hf, hkey⟩ := List.mem_map.mp (htenants.entries record.entry hmem)
    obtain ⟨hfeed, htenant⟩ := Prod.mk.inj hkey
    exact ⟨record, hdetail, hid, hentry, hown, f, hf, hfeed, htenant.trans hown.entry⟩
  · obtain ⟨b, hb, htenant⟩ := htenants.digestItems i hi
    have hmem := Table.mem_of_lookup hb
    have hid : b.id = i.alertId := Table.key_of_lookup hb
    refine ⟨⟨b, hmem, hid⟩, fun a ha hkey => ?_⟩
    exact (htenants.keys.owner a b (.inl ha) (.inl hmem) (hkey.trans hid.symm)).trans htenant

theorem oneFeed_stocked : oneFeed.Stocked where
  fresh := fun _ h => absurd h List.not_mem_nil
  entries := List.Pairwise.nil
  rules := by decide
  owners := fun _ h => absurd h List.not_mem_nil

/-- The alert of the small deployment, with its article, its feed and its rule. -/
theorem tenants_apart_oneFeed :
    ∃ s, run (step webhookDeployment) oneFeed ingestArticle = some s ∧
      s.world.alerts.length = 1 ∧
      (∀ a ∈ s.world.alerts, ∃ record, s.world.alertDetail a = some record ∧
        record.alert.id = a.id ∧ record.entry.id = a.entryId ∧ record.OfTenant a.tenantId ∧
        ∃ f ∈ s.world.feeds, f.id = record.entry.feedId ∧ f.tenantId = a.tenantId) ∧
      (∀ a ∈ s.world.alerts, ∀ id ∈ a.ruleId :: a.matchedRules,
        ∃ r ∈ s.world.rules, r.id = id ∧ r.tenantId = a.tenantId) ∧
      ∀ i ∈ s.world.digestItems, (∃ a ∈ s.world.alerts, a.id = i.alertId) ∧
        ∀ a ∈ s.world.alerts, a.id = i.alertId → a.tenantId = i.tenantId := by
  have hrun : ((run (step webhookDeployment) oneFeed ingestArticle).map
      fun s => s.world.alerts.length) = some 1 := by decide
  obtain ⟨s, hs, hone⟩ := Option.map_eq_some_iff.mp hrun
  exact ⟨s, hs, hone, tenants_apart oneFeed_init oneFeed_stocked hs⟩

/-- The tenant has an endpoint of its own. -/
def endpointRow : TenantSettingsRow :=
  { tenantId := "t"
    webhookNotifierUrl := some "https://t.example/alerts"
    recipientEmails := []
    telegramChatIds := []
    telegramDeliveryMode := .instant
    telegramBotTokenCiphertext := none
    telegramBotTokenIv := none
    telegramBotTokenTag := none
    telegramBotTokenKeyVersion := none }

/-- The article is stored, and its alert is about to be posted. -/
def postOwn : List Action :=
  .saveSettings endpointRow :: ingestArticle ++ .takeDelivery 3 "alert-1" :: proceed 3 2

/-- The endpoint a process is about to post to. -/
def postsTo? (s : System) (pid : Nat) : Option String :=
  match s.procs pid with
  | some ⟨_, .call (.net (.postWebhook url _)) _⟩ => some url
  | _ => none

theorem postsTo?_eq_some {pid : Nat} {url : String} (h : s.postsTo? pid = some url) :
    ∃ role record k, s.procs pid = some ⟨role, .call (.net (.postWebhook url record)) k⟩ := by
  unfold postsTo? at h
  split at h
  · rename_i role url' record k hp
    obtain rfl := Option.some.inj h
    exact ⟨role, record, k, hp⟩
  · cases h

end System

end Feedpulse
