import Feedpulse.SharedBot
import Mathlib.Data.Finset.Max
import Mathlib.Data.List.Sort

/-!
# Progress of the digest sweep

A sweep lists the oldest due groups up to a limit, and only then finds out which of them it can
send. Groups without a usable bot, or with a chat that refuses messages, stay due and keep their
place. `sweep_progress_iff` says when a sweep is certain to send some group that can be sent: as
long as fewer than the limit are in its way (`crowding`).
-/

namespace Feedpulse

open Prog

namespace TelegramDigests

variable (config : AppConfig) (rt : Runtime)

/-- `execute`, with the limit of the caller. -/
def executeUpTo (maxGroups : Nat) : Program DigestSweepResult := do
  if !Notifier.isEnabled then
    pure { processedGroups := 0, sentItems := 0, alertsMarkedDelivered := 0 }
  else
    let alertsMarkedDelivered ← reconcilePreviousSweeps
    let now ← clock
    let groups ← AlertsRepository.listDueTelegramDigestGroups now maxGroups
    processGroups config rt groups
      { processedGroups := 0, sentItems := 0, alertsMarkedDelivered := alertsMarkedDelivered }

/-- The default of thirty groups. -/
theorem execute_eq : execute config rt = executeUpTo config rt 30 := rfl

/-! ## What can be sent -/

section Deliverable

variable (accepts : String → Bool) (w : World)

/-- The due groups. -/
def due : List World.DigestGroupKey := World.dueGroups w.now w.digestItems

/-- The tenant has a usable bot, the chat accepts messages, and there are articles to send. -/
def deliverable (key : World.DigestGroupKey) : Bool :=
  Notifier.isTelegramEnabled config (TelegramBotTokenResolver.resolveForTenant config rt
    key.tenantId (Settings.getByTenantId key.tenantId w.settings)) &&
  accepts key.chatId && !(w.dueGroupItems w.now key.tenantId key.chatId).isEmpty

/-- **The groups in the way**: those that cannot be sent and are no younger than the oldest one
that can. -/
def crowding : List World.DigestGroupKey :=
  (due w).filter fun g => !deliverable config rt accepts w g &&
    (due w).all fun h => !deliverable config rt accepts w h || g.earliest ≤ h.earliest

end Deliverable

/-- How calls are answered when nothing fails but the messages to the chats that refuse them. -/
def Answered (accepts : String → Bool) (pid : Nat) (w : World) (c : Call)
    (r : Except String c.Reply) (w' : World) : Prop :=
  (∃ ch a, c.serve pid w ch = some (a, w') ∧ r = .ok a ∧
    ∀ token chatId message, c = .net (.telegramSendMessage token chatId message) →
      accepts chatId = true) ∨
  ∃ token chatId message error, c = .net (.telegramSendMessage token chatId message) ∧
    accepts chatId = false ∧ r = .error error ∧ w' = w

/-- The items are marked as sent. -/
def Sent (items : List World.DigestItemView) (w : World) : Prop :=
  ∀ item ∈ items, ∀ row ∈ w.digestItems, row.id = item.digestItemId → row.sentAt ≠ none

variable {config rt} {accepts : String → Bool} {pid : Nat} {w w' w'' : World}

/-! ## Every execution -/

/-- Items are only ever marked as sent, and neither the time nor the settings change. -/
structure Later (w w' : World) : Prop where
  /-- the clock -/
  now : w'.now = w.now
  /-- the settings -/
  settings : w'.settings = w.settings
  /-- the items -/
  items : ∀ row' ∈ w'.digestItems, ∃ row ∈ w.digestItems, row.id = row'.id ∧
    (row.sentAt ≠ none → row'.sentAt ≠ none)

theorem Later.refl (w : World) : Later w w :=
  ⟨rfl, rfl, fun row hrow => ⟨row, hrow, rfl, id⟩⟩

theorem Later.trans (h : Later w w') (h' : Later w' w'') : Later w w'' := by
  refine ⟨h'.now.trans h.now, h'.settings.trans h.settings, fun row'' hrow'' => ?_⟩
  obtain ⟨row', hrow', hid', hsent'⟩ := h'.items row'' hrow''
  obtain ⟨row, hrow, hid, hsent⟩ := h.items row' hrow'
  exact ⟨row, hrow, hid.trans hid', fun hne => hsent' (hsent hne)⟩

/-- What is sent stays sent. -/
theorem Sent.later {items : List World.DigestItemView} (h : Sent items w) (hlater : Later w w') :
    Sent items w' := by
  intro item hitem row' hrow' hid
  obtain ⟨row, hrow, hsame, hsent⟩ := hlater.items row' hrow'
  exact hsent (h item hitem row hrow (hsame.trans hid))

/-- The alert statements are answered by their effect. -/
theorem meets_alertCall {c : AlertCall} {post : Except String c.Reply → World → Prop} :
    Meets (fun _ _ => True) (Answered accepts pid) (alertCall c) post w ↔
      ∀ ch a w', c.serve w ch = some (a, w') → post (.ok a) w' := by
  refine meets_invoke.trans ⟨fun h ch a w' hserve => ?_, fun h => ⟨trivial, ?_⟩⟩
  · refine h.2 _ _ (.inl ⟨ch, a, hserve, rfl, fun _ _ _ heq => ?_⟩)
    cases heq
  · rintro r w' (⟨ch, a, hserve, rfl, -⟩ | ⟨_, _, _, _, heq, -⟩)
    · exact h ch a w' hserve
    · cases heq

theorem markItemsSent_meets (items : List World.DigestItemView) :
    Meets (fun _ _ => True) (Answered accepts pid) (AlertsRepository.markItemsSent items)
      (fun r w' => r = .ok () ∧ Later w w' ∧ Sent items w') w := by
  induction items generalizing w with
  | nil => exact ⟨rfl, Later.refl w, nofun⟩
  | cons item items ih =>
    refine meets_bind.mpr (meets_alertCall.mpr ?_)
    rintro ch a w₁ hserve
    obtain rfl : w.markDigestItemSent item.digestItemId = w₁ :=
      congrArg Prod.snd (Option.some.inj hserve)
    have hlater : Later w (w.markDigestItemSent item.digestItemId) := by
      refine ⟨rfl, rfl, fun row' hrow' => ?_⟩
      obtain ⟨row, hrow, rfl⟩ := Table.mem_updateWhere.mp hrow'
      refine ⟨row, hrow, ?_, ?_⟩
      · split <;> rfl
      · intro hne
        split
        · exact Option.some_ne_none _
        · exact hne
    have hsent : Sent [item] (w.markDigestItemSent item.digestItemId) := by
      intro item' hitem' row' hrow' hid
      obtain rfl := List.mem_singleton.mp hitem'
      obtain ⟨row, hrow, rfl⟩ := Table.mem_updateWhere.mp hrow'
      split
      · exact Option.some_ne_none _
      · rename_i hkept
        intro hnone
        rw [if_neg hkept] at hid
        exact hkept (by simp [hid, hnone])
    refine ih.mono ?_
    rintro r w₂ ⟨rfl, hlater₂, hsent₂⟩
    refine ⟨rfl, hlater.trans hlater₂, fun item' hitem' => ?_⟩
    rcases List.mem_cons.mp hitem' with rfl | hitem'
    · exact (hsent.later hlater₂) item' List.mem_cons_self
    · exact hsent₂ item' hitem'

theorem convergeAlerts_meets (alertIds : List Nat) :
    Meets (fun _ _ => True) (Answered accepts pid) (AlertsRepository.convergeAlerts alertIds)
      (fun r w' => (∃ ids, r = .ok ids) ∧ Later w w') w := by
  induction alertIds generalizing w with
  | nil => exact ⟨⟨_, rfl⟩, Later.refl w⟩
  | cons alertId alertIds ih =>
    refine meets_bind.mpr (meets_alertCall.mpr ?_)
    rintro ch a w₁ hserve
    obtain rfl : (w.convergeTelegram alertId).2 = w₁ := congrArg Prod.snd (Option.some.inj hserve)
    have hlater : Later w (w.convergeTelegram alertId).2 :=
      ⟨rfl, rfl, fun row hrow => ⟨row, hrow, rfl, id⟩⟩
    refine meets_bind.mpr (ih.mono ?_)
    rintro r w₂ ⟨⟨ids, rfl⟩, hlater₂⟩
    exact ⟨⟨_, rfl⟩, hlater.trans hlater₂⟩

/-- The bot of the tenant can be used, and the chat accepts the message. -/
def sendable (config : AppConfig) (rt : Runtime) (accepts : String → Bool) (w : World)
    (group : AlertsRepository.TelegramDigestGroup) : Bool :=
  Notifier.isTelegramEnabled config (TelegramBotTokenResolver.resolveForTenant config rt
    group.tenantId (Settings.getByTenantId group.tenantId w.settings)) && accepts group.chatId

/-- The token of a group, once its settings are read. -/
theorem meets_getByTenantId {tenantId : String}
    {post : Except String (Option TenantSettings) → World → Prop} :
    Meets (fun _ _ => True) (Answered accepts pid) (getByTenantId tenantId) post w ↔
      post (.ok (Settings.getByTenantId tenantId w.settings)) w := by
  refine meets_invoke.trans ⟨fun h => ?_, fun h => ⟨trivial, ?_⟩⟩
  · refine h.2 _ _ (.inl ⟨.none, _, rfl, rfl, fun _ _ _ heq => ?_⟩)
    cases heq
  · rintro r w' (⟨ch, a, hserve, rfl, -⟩ | ⟨_, _, _, _, heq, -⟩)
    · obtain ⟨rfl, rfl⟩ := Prod.mk.inj (Option.some.inj hserve)
      exact h
    · cases heq

/-- The message of a group is accepted exactly if its chat accepts messages. -/
theorem meets_send {token chatId : String} {message : TelegramMessage}
    {post : Except String Unit → World → Prop}
    (hok : accepts chatId = true → post (.ok ()) w)
    (herror : accepts chatId = false → ∀ error, post (.error error) w) :
    Meets (fun _ _ => True) (Answered accepts pid)
      (netCall (.telegramSendMessage token chatId message)) post w := by
  refine meets_invoke.mpr ⟨trivial, ?_⟩
  rintro r w' (⟨ch, a, hserve, rfl, haccepts⟩ | ⟨_, _, _, error, heq, hrefused, rfl, rfl⟩)
  · obtain ⟨rfl, rfl⟩ := Prod.mk.inj (Option.some.inj hserve)
    exact hok (haccepts _ _ _ rfl)
  · cases heq
    exact herror hrefused error

/-- **One group**: it is sent if it can be. -/
theorem processGroup_meets (group : AlertsRepository.TelegramDigestGroup)
    (hitems : group.items ≠ []) (acc : DigestSweepResult) :
    Meets (fun _ _ => True) (Answered accepts pid) (processGroup config rt group acc)
      (fun r w' => (∃ acc', r = .ok acc') ∧ Later w w' ∧
        (sendable config rt accepts w group = true → Sent group.items w')) w := by
  have hnonempty : group.items.isEmpty = false := by simpa using hitems
  simp only [processGroup, hnonempty, Bool.false_eq_true, if_false]
  refine meets_bind.mpr (meets_getByTenantId.mpr ?_)
  dsimp only
  rcases henabled : Notifier.isTelegramEnabled config (TelegramBotTokenResolver.resolveForTenant
      config rt group.tenantId (Settings.getByTenantId group.tenantId w.settings)) with _ | _
  · simp only [Bool.not_false, if_true]
    refine ⟨⟨_, rfl⟩, Later.refl w, fun hsend => ?_⟩
    simp [sendable, henabled] at hsend
  simp only [Bool.not_true, Bool.false_eq_true, if_false]
  obtain ⟨token, -, -, hmessage⟩ := Notifier.sendTelegramMessage_of_enabled config group.chatId
    (.digest group.tenantId group.items) henabled
  refine meets_tryCatch.mpr (meets_bind.mpr ?_)
  unfold Notifier.sendTelegramDigest
  rw [hmessage]
  refine meets_send (fun haccepts => ?_) fun hrefused error => ?_
  · simp only [AlertsRepository.markTelegramDigestGroupSent, hnonempty, Bool.false_eq_true,
      if_false]
    refine meets_bind.mpr (meets_bind.mpr ((markItemsSent_meets group.items).mono ?_))
    rintro r w₁ ⟨rfl, hlater, hsent⟩
    refine (convergeAlerts_meets _).mono ?_
    rintro r w₂ ⟨⟨ids, rfl⟩, hlater₂⟩
    exact ⟨⟨_, rfl⟩, hlater.trans hlater₂, fun _ => hsent.later hlater₂⟩
  · refine ⟨⟨_, rfl⟩, Later.refl w, fun hsend => ?_⟩
    simp [sendable, henabled, hrefused] at hsend

theorem processGroups_meets (groups : List AlertsRepository.TelegramDigestGroup)
    (hitems : ∀ group ∈ groups, group.items ≠ []) (acc : DigestSweepResult) :
    Meets (fun _ _ => True) (Answered accepts pid) (processGroups config rt groups acc)
      (fun _ w' => Later w w' ∧
        ∀ group ∈ groups, sendable config rt accepts w group = true → Sent group.items w') w := by
  induction groups generalizing w acc with
  | nil => exact ⟨Later.refl w, nofun⟩
  | cons group groups ih =>
    refine meets_bind.mpr
      ((processGroup_meets group (hitems group List.mem_cons_self) acc).mono ?_)
    rintro r w₁ ⟨⟨acc', rfl⟩, hlater, hsent⟩
    refine (ih (fun g hg => hitems g (List.mem_cons_of_mem group hg)) acc').mono ?_
    rintro r w₂ ⟨hlater₂, hsent₂⟩
    refine ⟨hlater.trans hlater₂, fun g hg hsend => ?_⟩
    rcases List.mem_cons.mp hg with rfl | hg
    · exact (hsent hsend).later hlater₂
    · refine hsent₂ g hg ?_
      rw [sendable, hlater.settings]
      exact hsend

/-! ## The groups that are listed -/

/-- The oldest groups that can be listed. -/
abbrev Oldest (maxGroups : Nat) (w : World) (picks : List World.DigestGroupKey) : Prop :=
  Table.IsTop (fun g h : World.DigestGroupKey => g.earliest ≤ h.earliest) maxGroups (due w) picks

theorem mem_crowding {g : World.DigestGroupKey} :
    g ∈ crowding config rt accepts w ↔ g ∈ due w ∧ deliverable config rt accepts w g = false ∧
      ∀ h ∈ due w, deliverable config rt accepts w h = true → g.earliest ≤ h.earliest := by
  simp only [crowding, List.mem_filter, Bool.and_eq_true, Bool.not_eq_true', List.all_eq_true,
    Bool.or_eq_true, decide_eq_true_eq, and_congr_right_iff]
  intro _ _
  refine forall₂_congr fun h _ => ?_
  cases deliverable config rt accepts w h <;> simp

/-- **With fewer groups in the way than the limit**, one that can be sent is listed. -/
theorem exists_deliverable_pick {maxGroups : Nat} {picks : List World.DigestGroupKey}
    (hfew : (crowding config rt accepts w).length < maxGroups)
    (hsome : ∃ key ∈ due w, deliverable config rt accepts w key = true)
    (htop : Oldest maxGroups w picks) :
    ∃ key ∈ picks, deliverable config rt accepts w key = true := by
  by_contra hnone
  obtain ⟨hnodup, hsub, hlength, -, hrest⟩ := htop
  -- the oldest group that can be sent is not listed, so every listed one is in its way
  obtain ⟨key, hkey, hdeliverable⟩ := hsome
  obtain ⟨oldest, holdest, hmin⟩ := Finset.exists_min_image
    ((due w).filter (deliverable config rt accepts w)).toFinset World.DigestGroupKey.earliest
    ⟨key, by simpa using ⟨hkey, hdeliverable⟩⟩
  simp only [List.mem_toFinset, List.mem_filter, and_imp] at holdest hmin
  have hunlisted : oldest ∉ picks := fun hmem => hnone ⟨oldest, hmem, holdest.2⟩
  have hbefore : ∀ r ∈ picks, r.earliest ≤ oldest.earliest := by
    intro r hr
    simpa using ((hrest oldest holdest.1).resolve_left hunlisted) r hr
  have hcrowding : picks.length ≤ (crowding config rt accepts w).length := by
    refine (hnodup.subperm fun r hr => mem_crowding.mpr ⟨hsub r hr, ?_, ?_⟩).length_le
    · simpa using fun hdel => hnone ⟨r, hr, hdel⟩
    · exact fun h hh hdel => (hbefore r hr).trans (hmin h hh hdel)
  have hroom : picks.length + 1 ≤ (due w).length := by
    refine ((List.nodup_cons.mpr ⟨hunlisted, hnodup⟩).subperm fun r hr => ?_).length_le
    rcases List.mem_cons.mp hr with rfl | hr
    · exact holdest.1
    · exact hsub r hr
  omega

theorem nodup_due : (due w).Nodup := by
  refine List.Nodup.map (fun g h heq => ?_) (List.nodup_dedup _)
  exact Prod.ext (congrArg World.DigestGroupKey.tenantId heq)
    (congrArg World.DigestGroupKey.chatId heq)

/-- **With as many in the way as the limit**, it can be that none of those listed can be sent. -/
theorem exists_undeliverable_picks {maxGroups : Nat}
    (hmany : maxGroups ≤ (crowding config rt accepts w).length) :
    ∃ picks, Oldest maxGroups w picks ∧
      ∀ key ∈ picks, deliverable config rt accepts w key = false := by
  set le := fun g h : World.DigestGroupKey => g.earliest ≤ h.earliest
  set sorted := (crowding config rt accepts w).insertionSort le
  have hperm : sorted.Perm (crowding config rt accepts w) := List.perm_insertionSort _ _
  have hmem : ∀ g ∈ sorted.take maxGroups, g ∈ crowding config rt accepts w :=
    fun g hg => hperm.mem_iff.mp (List.mem_of_mem_take hg)
  have htotal : Std.Total le := ⟨fun g h => Nat.le_total _ _⟩
  have htrans : IsTrans World.DigestGroupKey le := ⟨fun _ _ _ => Nat.le_trans⟩
  have hsorted : sorted.Pairwise le := List.pairwise_insertionSort _ _
  have hlength : (crowding config rt accepts w).length ≤ (due w).length :=
    List.length_filter_le _ _
  refine ⟨sorted.take maxGroups, ⟨?_, ?_, ?_, ?_, ?_⟩,
    fun g hg => (mem_crowding.mp (hmem g hg)).2.1⟩
  · exact (hperm.nodup_iff.mpr (nodup_due.filter _)).sublist (List.take_sublist _ _)
  · exact fun g hg => (mem_crowding.mp (hmem g hg)).1
  · rw [List.length_take, hperm.length_eq]
    omega
  · exact (hsorted.sublist (List.take_sublist _ _)).imp fun h => by simpa using h
  · intro c hc
    rcases hdel : deliverable config rt accepts w c with _ | _
    · by_cases hway : c ∈ crowding config rt accepts w
      · -- the groups in the way are taken in their order
        rw [← List.take_append_drop maxGroups sorted] at hperm hsorted
        rcases List.mem_append.mp (hperm.mem_iff.mpr hway) with htake | hdrop
        · exact .inl htake
        · exact .inr fun r hr => by simpa using (List.pairwise_append.mp hsorted).2.2 r hr c hdrop
      · refine .inr fun r hr => ?_
        obtain ⟨h, hh, hdelh, hlt⟩ : ∃ h ∈ due w, deliverable config rt accepts w h = true ∧
            h.earliest < c.earliest := by
          by_contra hall
          push Not at hall
          exact hway (mem_crowding.mpr ⟨hc, hdel, hall⟩)
        simpa using ((mem_crowding.mp (hmem r hr)).2.2 h hh hdelh).trans hlt.le
    · exact .inr fun r hr => by simpa using (mem_crowding.mp (hmem r hr)).2.2 c hc hdel

/-! ## What is loaded -/

theorem loadDigestGroups_loads (nowIso : Nat) (keys : List World.DigestGroupKey) :
    Meets (fun _ _ => True) (Answered accepts pid) (AlertsRepository.loadDigestGroups nowIso keys)
      (fun r w' => r = .ok (loadedGroups w nowIso keys) ∧ w' = w) w := by
  induction keys with
  | nil => exact ⟨rfl, rfl⟩
  | cons key keys ih =>
    refine meets_bind.mpr (meets_alertCall.mpr ?_)
    rintro ch items w₁ hserve
    obtain ⟨rfl, rfl⟩ := Prod.mk.inj (Option.some.inj hserve)
    refine meets_bind.mpr (ih.mono ?_)
    rintro r w₂ ⟨rfl, rfl⟩
    rw [loadedGroups]
    dsimp only
    rcases w₂.dueGroupItems nowIso key.tenantId key.chatId with _ | ⟨item, items⟩
    · exact ⟨rfl, rfl⟩
    · exact ⟨rfl, rfl⟩

/-- **The groups that are loaded** are the listed ones with articles. -/
theorem mem_loadedGroups {nowIso : Nat} {keys : List World.DigestGroupKey}
    {g : AlertsRepository.TelegramDigestGroup} :
    g ∈ loadedGroups w nowIso keys ↔ g.items ≠ [] ∧
      g.scheduledFor = (g.items.head?.map World.DigestItemView.scheduledFor).getD 0 ∧
      ∃ key ∈ keys, key.tenantId = g.tenantId ∧ key.chatId = g.chatId ∧
        w.dueGroupItems nowIso key.tenantId key.chatId = g.items := by
  induction keys with
  | nil => simp [loadedGroups]
  | cons k keys ih =>
    rw [loadedGroups]
    rcases hitems : w.dueGroupItems nowIso k.tenantId k.chatId with _ | ⟨item, items⟩
    · simp only [ih, List.mem_cons, exists_eq_or_imp, hitems]
      refine and_congr_right fun hne => and_congr_right fun _ => ?_
      exact ⟨.inr, fun h => h.resolve_left fun h => hne h.2.2.symm⟩
    · simp only [List.mem_cons, ih, exists_eq_or_imp, hitems]
      constructor
      · rintro (rfl | ⟨hne, hfirst, h⟩)
        · exact ⟨List.cons_ne_nil _ _, rfl, .inl ⟨rfl, rfl, rfl⟩⟩
        · exact ⟨hne, hfirst, .inr h⟩
      · rintro ⟨hne, hfirst, ⟨htenant, hchat, hsame⟩ | h⟩
        · obtain ⟨tenantId, chatId, scheduledFor, items'⟩ := g
          cases htenant
          cases hchat
          cases hsame
          cases hfirst
          exact .inl rfl
        · exact .inr ⟨hne, hfirst, h⟩

/-! ## The sweep -/

theorem due_of_same (h : SameDigests w w') : due w' = due w := by
  simp [due, h.now, h.digestItems]

theorem later_of_same (h : SameDigests w w') : Later w w' :=
  ⟨h.now, h.settings, fun row hrow => ⟨row, h.digestItems ▸ hrow, rfl, id⟩⟩

theorem sendable_of_same (h : SameDigests w w')
    (group : AlertsRepository.TelegramDigestGroup) :
    sendable config rt accepts w' group = sendable config rt accepts w group := by
  simp [sendable, h.settings]

theorem reconcilePreviousSweeps_answered :
    Meets (fun _ _ => True) (Answered accepts pid) reconcilePreviousSweeps
      (fun r w' => (∃ n, r = .ok n) ∧ SameDigests w w') w := by
  refine meets_tryCatch.mpr (meets_bind.mpr (meets_alertCall.mpr ?_))
  rintro ch ids w' hserve
  obtain rfl : w.reconcileTelegram.2 = w' := congrArg Prod.snd (Option.some.inj hserve)
  exact ⟨⟨_, rfl⟩, sameDigests_reconcile (SameDigests.refl w)⟩

/-- A group that can be sent is one whose loaded articles can be sent. -/
theorem deliverable_iff {key : World.DigestGroupKey}
    {group : AlertsRepository.TelegramDigestGroup} (htenant : key.tenantId = group.tenantId)
    (hchat : key.chatId = group.chatId)
    (hitems : w.dueGroupItems w.now key.tenantId key.chatId ≠ []) :
    deliverable config rt accepts w key = sendable config rt accepts w group := by
  have hfull : (w.dueGroupItems w.now key.tenantId key.chatId).isEmpty = false := by
    simpa using hitems
  rw [deliverable, sendable, hfull, htenant, hchat]
  simp

/-- The sweep sends a group that can be sent. -/
def SendsSome (config : AppConfig) (rt : Runtime) (accepts : String → Bool) (w w' : World) :
    Prop :=
  ∃ key ∈ due w, deliverable config rt accepts w key = true ∧
    Sent (w.dueGroupItems w.now key.tenantId key.chatId) w'

/-- With fewer groups in the way than the limit, every sweep sends some group. -/
theorem sends_of_few {maxGroups : Nat}
    (hsome : ∃ key ∈ due w, deliverable config rt accepts w key = true)
    (hfew : (crowding config rt accepts w).length < maxGroups) :
    Meets (fun _ _ => True) (Answered accepts pid) (executeUpTo config rt maxGroups)
      (fun _ w' => SendsSome config rt accepts w w') w := by
  unfold executeUpTo
  rw [if_neg (by simp [Notifier.isEnabled])]
  refine meets_bind.mpr (reconcilePreviousSweeps_answered.mono ?_)
  rintro r w₁ ⟨⟨delivered, rfl⟩, hsame⟩
  refine meets_bind.mpr (meets_invoke.mpr ⟨trivial, ?_⟩)
  rintro r w₂ (⟨ch, now, hserve, rfl, -⟩ | ⟨_, _, _, _, heq, -⟩)
  swap
  · cases heq
  obtain ⟨rfl, rfl⟩ := Prod.mk.inj (Option.some.inj hserve)
  refine meets_bind.mpr (meets_bind.mpr (meets_alertCall.mpr ?_))
  rintro ch keys w₂ hserve
  obtain ⟨htop, rfl⟩ := AlertCall.listDueGroups_eq_some hserve
  have htop : Oldest maxGroups w keys := by
    rw [Oldest, ← due_of_same hsame]
    exact htop
  refine (loadDigestGroups_loads _ keys).mono ?_
  rintro r w₃ ⟨rfl, rfl⟩
  have hload : ∀ g ∈ loadedGroups w₃ w₃.now keys, g.items ≠ [] :=
    fun g hg => (mem_loadedGroups.mp hg).1
  refine (processGroups_meets _ hload _).mono ?_
  rintro r w₄ ⟨-, hsent⟩
  -- one of the listed groups can be sent, and it is loaded
  obtain ⟨key, hkey, hdel⟩ := exists_deliverable_pick hfew hsome htop
  have hread := hsame.dueGroupItems key.tenantId key.chatId
  have hne : w.dueGroupItems w.now key.tenantId key.chatId ≠ [] := by
    simp only [deliverable, Bool.and_eq_true, Bool.not_eq_true', List.isEmpty_eq_false_iff] at hdel
    exact hdel.2
  obtain ⟨first, hfirst⟩ := List.exists_mem_of_ne_nil _ hne
  set group : AlertsRepository.TelegramDigestGroup :=
    { tenantId := key.tenantId
      chatId := key.chatId
      scheduledFor := ((w.dueGroupItems w.now key.tenantId key.chatId).head?.map
        World.DigestItemView.scheduledFor).getD 0
      items := w.dueGroupItems w.now key.tenantId key.chatId }
  have hgroup : group ∈ loadedGroups w₃ w₃.now keys :=
    mem_loadedGroups.mpr ⟨hne, rfl, key, hkey, rfl, rfl, hread⟩
  refine ⟨key, htop.2.1 key hkey, hdel, hsent group hgroup ?_⟩
  rw [sendable_of_same hsame, ← deliverable_iff (w := w) rfl rfl hne]
  exact hdel

/-! ### A sweep that sends nothing -/

/-- Groups that cannot be sent are left as they are. -/
theorem processGroups_stuck (groups : List AlertsRepository.TelegramDigestGroup)
    (hstuck : ∀ g ∈ groups, g.items ≠ [] → sendable config rt accepts w g = false)
    (acc : DigestSweepResult) :
    Can (Answered accepts pid) (processGroups config rt groups acc)
      (fun r w' => r = .ok acc ∧ w' = w) w := by
  induction groups with
  | nil => exact ⟨rfl, rfl⟩
  | cons group groups ih =>
    have hgroup : Can (Answered accepts pid) (processGroup config rt group acc)
        (fun r w' => r = .ok acc ∧ w' = w) w := by
      unfold processGroup
      split
      · exact ⟨rfl, rfl⟩
      rename_i hitems
      have hstuck := hstuck group List.mem_cons_self (by simpa using hitems)
      refine can_bind.mpr (can_invoke.mpr
        ⟨.ok _, w, .inl ⟨.none, _, rfl, rfl, fun _ _ _ heq => ?_⟩, ?_⟩)
      · cases heq
      dsimp only
      rcases henabled : Notifier.isTelegramEnabled config
        (TelegramBotTokenResolver.resolveForTenant config rt group.tenantId
          (Settings.getByTenantId group.tenantId w.settings)) with _ | _
      · exact ⟨rfl, rfl⟩
      · obtain ⟨token, -, -, hmessage⟩ := Notifier.sendTelegramMessage_of_enabled config
          group.chatId (.digest group.tenantId group.items) henabled
        have hrefused : accepts group.chatId = false := by
          simpa [sendable, henabled] using hstuck
        refine can_tryCatch.mpr (can_bind.mpr ?_)
        unfold Notifier.sendTelegramDigest
        rw [hmessage]
        exact can_invoke.mpr ⟨.error "telegram_unavailable", w,
          .inr ⟨token, group.chatId, _, _, rfl, hrefused, rfl, rfl⟩, rfl, rfl⟩
    refine can_bind.mpr (hgroup.mono ?_)
    rintro r w' ⟨rfl, rfl⟩
    exact ih fun g hg => hstuck g (List.mem_cons_of_mem group hg)

theorem loadDigestGroups_answers (nowIso : Nat) (keys : List World.DigestGroupKey) :
    Can (Answered accepts pid) (AlertsRepository.loadDigestGroups nowIso keys)
      (fun r w' => r = .ok (loadedGroups w nowIso keys) ∧ w' = w) w := by
  induction keys with
  | nil => exact ⟨rfl, rfl⟩
  | cons key keys ih =>
    refine can_bind.mpr (can_invoke.mpr
      ⟨.ok _, w, .inl ⟨.none, _, rfl, rfl, fun _ _ _ heq => ?_⟩, can_bind.mpr (ih.mono ?_)⟩)
    · cases heq
    rintro r w' ⟨rfl, rfl⟩
    rw [loadedGroups]
    dsimp only
    rcases w'.dueGroupItems nowIso key.tenantId key.chatId with _ | ⟨item, items⟩
    · exact ⟨rfl, rfl⟩
    · exact ⟨rfl, rfl⟩

/-- The articles of a group are due. -/
theorem unsent_of_mem_dueGroupItems {nowIso : Nat} {tenantId chatId : String}
    {item : World.DigestItemView} (h : item ∈ w.dueGroupItems nowIso tenantId chatId) :
    ∃ row ∈ w.digestItems, row.id = item.digestItemId ∧ row.sentAt = none := by
  simp only [World.dueGroupItems, List.mem_filterMap, List.mem_insertionSort] at h
  obtain ⟨row, hrow, hview⟩ := h
  obtain ⟨hrow, hdue⟩ := List.mem_filter.mp hrow
  obtain ⟨a, -, hview⟩ := Option.bind_eq_some_iff.mp hview
  obtain ⟨e, -, rfl⟩ := Option.map_eq_some_iff.mp hview
  refine ⟨row, hrow, rfl, ?_⟩
  simp only [World.due, Bool.and_eq_true, decide_eq_true_eq] at hdue
  exact Option.isNone_iff_eq_none.mp hdue.1.1.1

/-- With as many groups in the way as the limit, a sweep can send nothing. -/
theorem stuck_of_many {maxGroups : Nat}
    (hmany : maxGroups ≤ (crowding config rt accepts w).length) :
    Can (Answered accepts pid) (executeUpTo config rt maxGroups)
      (fun _ w' => w'.digestItems = w.digestItems) w := by
  obtain ⟨picks, htop, hpicks⟩ := exists_undeliverable_picks hmany
  unfold executeUpTo
  rw [if_neg (by simp [Notifier.isEnabled])]
  have hsame : SameDigests w w.reconcileTelegram.2 := sameDigests_reconcile (SameDigests.refl w)
  refine can_bind.mpr (can_tryCatch.mpr (can_bind.mpr (can_invoke.mpr
    ⟨.ok _, w.reconcileTelegram.2, .inl ⟨.none, _, rfl, rfl, fun _ _ _ heq => ?_⟩, ?_⟩)))
  · cases heq
  refine can_bind.mpr (can_invoke.mpr
    ⟨.ok _, w.reconcileTelegram.2, .inl ⟨.none, _, rfl, rfl, fun _ _ _ heq => ?_⟩, ?_⟩)
  · cases heq
  generalize w.reconcileTelegram.2 = w₁ at hsame ⊢
  have htop₁ : Oldest maxGroups w₁ picks := by
    rw [Oldest, due_of_same hsame]
    exact htop
  refine can_bind.mpr (can_bind.mpr (can_invoke.mpr
    ⟨.ok picks, w₁, .inl ⟨.groups picks, picks, ?_, rfl, fun _ _ _ heq => ?_⟩, ?_⟩))
  · change (if _ then some (picks, w₁) else none) = _
    exact if_pos htop₁
  · cases heq
  refine (loadDigestGroups_answers w₁.now picks).mono ?_
  rintro r w₂ ⟨rfl, rfl⟩
  refine (processGroups_stuck _ (fun g hg hne => ?_) _).mono ?_
  · obtain ⟨-, -, key, hkey, htenant, hchat, hitems⟩ := mem_loadedGroups.mp hg
    rw [sendable_of_same hsame, ← deliverable_iff htenant hchat]
    · exact hpicks key hkey
    · rw [← hsame.dueGroupItems, hitems]
      exact hne
  · rintro r w₃ ⟨-, rfl⟩
    exact hsame.digestItems

/-- What a sweep that sends some group does not leave as it was. -/
theorem not_sendsSome_of_same (h : w'.digestItems = w.digestItems) :
    ¬ SendsSome config rt accepts w w' := by
  rintro ⟨key, -, hdel, hsent⟩
  simp only [deliverable, Bool.and_eq_true, Bool.not_eq_true', List.isEmpty_eq_false_iff] at hdel
  obtain ⟨item, hitem⟩ := List.exists_mem_of_ne_nil _ hdel.2
  obtain ⟨row, hrow, hid, hunsent⟩ := unsent_of_mem_dueGroupItems hitem
  exact hsent item hitem row (h ▸ hrow) hid hunsent

theorem not_sends_of_many {maxGroups : Nat}
    (hmany : maxGroups ≤ (crowding config rt accepts w).length) :
    ¬ Meets (fun _ _ => True) (Answered accepts pid) (executeUpTo config rt maxGroups)
      (fun _ w' => SendsSome config rt accepts w w') w := by
  intro hmeets
  obtain ⟨r, w', hsends, hsame⟩ := hmeets.of_can (stuck_of_many hmany)
  exact not_sendsSome_of_same hsame hsends

/-- **A sweep is certain to send some group exactly if** fewer groups than the limit are in the
way of the oldest one that can be sent. -/
theorem sweep_progress_iff (config : AppConfig) (rt : Runtime) (accepts : String → Bool)
    (pid : Nat) (w : World) (maxGroups : Nat)
    (hsome : ∃ key ∈ due w, deliverable config rt accepts w key = true) :
    Meets (fun _ _ => True) (Answered accepts pid) (executeUpTo config rt maxGroups)
        (fun _ w' => SendsSome config rt accepts w w') w ↔
      (crowding config rt accepts w).length < maxGroups := by
  refine ⟨fun hmeets => ?_, sends_of_few hsome⟩
  by_contra hmany
  exact not_sends_of_many (Nat.le_of_not_lt hmany) hmeets

/-- Thirty chats that refuse messages, and a younger one that accepts them. -/
def thirtyBlocked : World :=
  { System.oneFeed.world with
    now := 700000
    entries := [
      { id := 1, tenantId := "t", feedId := 1
        entry := { title := some "go", link := none, guid := none, content := none,
                   publishedAt := none, contentHash := "h" } }]
    alerts := [AlertUpsert.insertRow 0 1
      { tenantId := "t", entryId := 1, ruleId := 1, matchedRules := [1], canonicalLink := none }]
    digestItems := (List.range 31).map fun n =>
      { id := n + 1, tenantId := "t", alertId := 1, chatId := toString n,
        scheduledFor := 600000 + n, sentAt := none, createdAt := 0 } }

/-- The chat that accepts messages. -/
def acceptsYoungest (chatId : String) : Bool := chatId = "30"

theorem thirtyBlocked_above_default :
    Meets (fun _ _ => True) (Answered acceptsYoungest 1)
        (executeUpTo System.sharedBotDeployment.config System.sharedBotDeployment.rt 31)
        (fun _ w' => SendsSome System.sharedBotDeployment.config System.sharedBotDeployment.rt
          acceptsYoungest thirtyBlocked w') thirtyBlocked ↔
      (crowding System.sharedBotDeployment.config System.sharedBotDeployment.rt acceptsYoungest
        thirtyBlocked).length < 31 :=
  sweep_progress_iff _ _ acceptsYoungest 1 thirtyBlocked 31 (by decide +kernel)

/-- **The youngest chat need not be served** with the default of thirty groups. -/
theorem youngest_starved :
    (∃ key ∈ due thirtyBlocked, deliverable System.sharedBotDeployment.config
        System.sharedBotDeployment.rt acceptsYoungest thirtyBlocked key = true) ∧
      ¬ Meets (fun _ _ => True) (Answered acceptsYoungest 1)
        (execute System.sharedBotDeployment.config System.sharedBotDeployment.rt)
        (fun _ w' => SendsSome System.sharedBotDeployment.config System.sharedBotDeployment.rt
          acceptsYoungest thirtyBlocked w') thirtyBlocked := by
  refine ⟨by decide +kernel, ?_⟩
  rw [execute_eq]
  exact not_sends_of_many (by decide +kernel)

end TelegramDigests

end Feedpulse
