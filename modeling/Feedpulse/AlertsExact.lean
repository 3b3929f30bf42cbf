import Feedpulse.AlertTable
import Feedpulse.TenantIsolation

/-!
# The alerts are exactly the matches

A fetch job inserts articles, matches those it has inserted, and upserts alerts, all in one
transaction. `alerts_exact`: in every run, however the jobs of all feeds interleave, fail, lose
answers, crash and are run again, the alert under a key carries a rule exactly if an article with
this key was stored that the rule matches. No match is missed, none is made up, and there is one
alert for all articles with a key.
-/

namespace Feedpulse

open Prog AlertUpsert

/-! ## Matches -/

/-- The index key of the alert of an article. -/
def articleKey (canonicalizeArticleLink : Option String → Option String) (e : EntryRow) :
    String × String :=
  entryLinkKey canonicalizeArticleLink
    { id := e.id, tenantId := e.tenantId, link := e.entry.link }

/-- The rule is an active one of the tenant, and its keywords match the article. -/
def Hits (rt : Runtime) (rule : RuleRow) (e : EntryRow) : Prop :=
  rule.tenantId = e.tenantId ∧ rule.isActive = true ∧
    KeywordMatch.ruleMatchesNormalizedText rt
      (KeywordMatch.normalizeSearchText rt
        (e.entry.title.getD "" ++ " " ++ e.entry.content.getD ""))
      rule.includeKeywords rule.excludeKeywords = true

/-- One of the articles has the key, and the rule matches it. -/
def Deserves (rt : Runtime) (canonicalizeArticleLink : Option String → Option String)
    (rules : List RuleRow) (articles : EntryRow → Prop) (k : String × String) (id : Nat) : Prop :=
  ∃ e, articles e ∧ articleKey canonicalizeArticleLink e = k ∧
    ∃ rule ∈ rules, rule.id = id ∧ Hits rt rule e

theorem Deserves.mono {rt : Runtime} {canonicalizeArticleLink : Option String → Option String}
    {rules : List RuleRow} {articles articles' : EntryRow → Prop} {k : String × String} {id : Nat}
    (h : Deserves rt canonicalizeArticleLink rules articles k id)
    (hsub : ∀ e, articles e → articles' e) :
    Deserves rt canonicalizeArticleLink rules articles' k id := by
  obtain ⟨e, he, hrest⟩ := h
  exact ⟨e, hsub e he, hrest⟩

/-! ## The invariant -/

namespace World

variable {rt : Runtime} {canonicalizeArticleLink : Option String → Option String}
  {old : List EntryRow} {pid : Nat} {w w' : World} {c : Call}

/-- Alerts carry what the articles stored since `old` deserve, and no more. -/
structure AlertsExact (rt : Runtime) (canonicalizeArticleLink : Option String → Option String)
    (old : List EntryRow) (w : World) : Prop where
  /-- articles are stored once -/
  distinct : w.EntriesDistinct
  /-- there is one alert for a key -/
  unique : w.AlertsUnique
  /-- every alert is for a match -/
  primary : w.PrimaryMatched
  /-- the articles from before -/
  kept : ∀ e ∈ old, e ∈ w.entries
  /-- the stored alerts -/
  carried : ∀ k id, id ∈ rulesUnder w.alerts k ↔
    Deserves rt canonicalizeArticleLink w.rules (fun e => e ∈ w.entries ∧ e ∉ old) k id
  /-- the staged alerts -/
  staged : ∀ pid t, w.txn pid = some t → ∀ k id, id ∈ rulesUnder t.alerts k →
    Deserves rt canonicalizeArticleLink w.rules
      (fun e => e ∈ w.entries ++ t.entries ∧ e ∉ old) k id

/-- What a process observes: it upserts what its articles deserve, and all of it before it
commits them. -/
def Settles (rt : Runtime) (canonicalizeArticleLink : Option String → Option String) (pid : Nat)
    (w : World) : Call → Prop
  | .ingest (.upsertAlerts rows) =>
    (∀ u ∈ rows, u.ruleId ∈ u.matchedRules) ∧
      ∀ t, w.txn pid = some t → ∀ u ∈ rows, ∀ id ∈ u.matchedRules,
        Deserves rt canonicalizeArticleLink w.rules (· ∈ t.entries) (rowKey u) id
  | .ingest .commit =>
    ∀ t, w.txn pid = some t → ∀ k id,
      Deserves rt canonicalizeArticleLink w.rules (· ∈ t.entries) k id →
        id ∈ rulesUnder t.alerts k
  | _ => True

/-- Staged articles are new. -/
theorem AlertsExact.not_old (h : w.AlertsExact rt canonicalizeArticleLink old) {t : Txn}
    (ht : w.txn pid = some t) {e : EntryRow} (he : e ∈ t.entries) : e ∉ old := fun hold =>
  (List.pairwise_append.mp (h.distinct.staged pid t ht)).2.2 e (h.kept e hold) e he (.inl rfl)

/-- What neither stores an article nor writes an alert. -/
theorem AlertsExact.congr (h : w.AlertsExact rt canonicalizeArticleLink old)
    (hdistinct : w'.EntriesDistinct) (hunique : w'.AlertsUnique) (hprimary : w'.PrimaryMatched)
    (hrules : w'.rules = w.rules)
    (hentries : w'.entries = w.entries)
    (halerts : w'.alerts.map AlertRow.core = w.alerts.map AlertRow.core)
    (htxn : ∀ q t', w'.txn q = some t' → t'.alerts = [] ∨ ∃ t, w.txn q = some t ∧
      t'.alerts = t.alerts ∧ ∀ e ∈ t.entries, e ∈ t'.entries) :
    w'.AlertsExact rt canonicalizeArticleLink old := by
  refine ⟨hdistinct, hunique, hprimary, fun e he => hentries ▸ h.kept e he, fun k id => ?_, ?_⟩
  · rw [rulesUnder_eq_of_core halerts, hrules, hentries]
    exact h.carried k id
  · intro q t' ht' k id hid
    rw [hrules, hentries]
    rcases htxn q t' ht' with hnil | ⟨t, ht, heq, hsub⟩
    · rw [hnil] at hid
      cases hid
    · refine (h.staged q t ht k id (heq ▸ hid)).mono fun e he => ⟨?_, he.2⟩
      exact List.mem_append.mpr ((List.mem_append.mp he.1).imp_right (hsub e))

/-- **An upsert** of what the articles of the transaction deserve. -/
theorem AlertsExact.upsertAlerts (h : w.AlertsExact rt canonicalizeArticleLink old)
    {rows : List UpsertRow} {out : List UpsertedAlert}
    (hrows : w.Settles rt canonicalizeArticleLink pid (.ingest (.upsertAlerts rows)))
    (hs : w.upsertAlerts pid rows = some (out, w')) :
    w'.AlertsExact rt canonicalizeArticleLink old := by
  have hunique := h.unique.upsertAlerts hs
  have hserve : (Call.ingest (.upsertAlerts rows)).serve pid w .none = some (out, w') := hs
  have hdistinct := h.distinct.serve hserve
  have hprimary : w'.PrimaryMatched := by
    refine h.primary.serve h.unique (fun rows' heq => ?_) hserve
    cases heq
    exact hrows.1
  obtain ⟨t, ht, -, rfl⟩ := upsertAlerts_eq_some hs
  refine ⟨hdistinct, hunique, hprimary, h.kept, h.carried, fun q t' ht' k id hid => ?_⟩
  change (w.setTxn pid _).txn q = some t' at ht'
  rw [txn_setTxn] at ht'
  split at ht'
  · obtain rfl := Option.some.inj ht'
    rcases mem_rulesUnder_upsertAll hid with hstaged | hcommitted | ⟨u, hu, rfl, hrule⟩
    · exact h.staged pid t ht k id hstaged
    · refine ((h.carried k id).mp hcommitted).mono fun e he => ⟨?_, he.2⟩
      exact List.mem_append_left _ he.1
    · refine (hrows.2 t ht u hu id hrule).mono fun e he => ⟨?_, h.not_old ht he⟩
      exact List.mem_append_right _ he
  · exact h.staged q t' ht' k id hid

/-- **A commit** of articles whose matches are all staged. -/
theorem AlertsExact.commit (h : w.AlertsExact rt canonicalizeArticleLink old)
    (hall : w.Settles rt canonicalizeArticleLink pid (.ingest .commit)) :
    (w.commitTxn pid).AlertsExact rt canonicalizeArticleLink old := by
  have hserve : (Call.ingest .commit).serve pid w .none = some ((), w.commitTxn pid) := rfl
  have hdistinct := h.distinct.serve hserve
  have hunique : (w.commitTxn pid).AlertsUnique := h.unique.commit
  have hprimary : (w.commitTxn pid).PrimaryMatched := primary_commit h.primary h.unique
  rcases ht : w.txn pid with _ | t
  · rwa [commitTxn, ht]
  have hcommit : w.commitTxn pid = { w.dropTxn pid with
      entries := w.entries ++ t.entries
      alerts := t.alerts.foldl commitAlert w.alerts
      fetchLogs := w.fetchLogs ++ t.fetchLogs
      feeds := t.feedUpdates.foldl (fun fs u => Feeds.updateAfterFetch w.now u fs) w.feeds } := by
    rw [commitTxn, ht]
  rw [hcommit] at hdistinct hunique hprimary ⊢
  refine ⟨hdistinct, hunique, hprimary, fun e he => List.mem_append_left _ (h.kept e he), ?_,
    ?_⟩
  · intro k id
    refine (h.unique.mem_rulesUnder_commit ht).trans ⟨?_, ?_⟩
    · rintro (hid | hid)
      · refine ((h.carried k id).mp hid).mono fun e he => ⟨?_, he.2⟩
        exact List.mem_append_left _ he.1
      · exact h.staged pid t ht k id hid
    · rintro ⟨e, ⟨he, hnew⟩, hrest⟩
      rcases List.mem_append.mp he with he | he
      · exact .inl ((h.carried k id).mpr ⟨e, ⟨he, hnew⟩, hrest⟩)
      · exact .inr (hall t ht k id ⟨e, he, hrest⟩)
  · intro q t' ht' k id hid
    change (w.dropTxn pid).txn q = some t' at ht'
    rw [txn_dropTxn] at ht'
    refine (h.staged q t' (Option.ite_none_left_eq_some.mp ht').2 k id hid).mono fun e he => ?_
    refine ⟨?_, he.2⟩
    rcases List.mem_append.mp he.1 with he | he
    · exact List.mem_append_left _ (List.mem_append_left _ he)
    · exact List.mem_append_right _ he

/-- **A call of a process that observes it** keeps the alerts exact. -/
theorem AlertsExact.serve (h : w.AlertsExact rt canonicalizeArticleLink old)
    (hc : w.Settles rt canonicalizeArticleLink pid c) {ch : Choice} {a : c.Reply}
    (hs : c.serve pid w ch = some (a, w')) : w'.AlertsExact rt canonicalizeArticleLink old := by
  have heffect := serve_effect hs
  by_cases hupsert : ∃ rows, c = .ingest (.upsertAlerts rows)
  · obtain ⟨rows, rfl⟩ := hupsert
    exact h.upsertAlerts hc hs
  by_cases hcommit : c = .ingest .commit
  · subst hcommit
    obtain ⟨-, rfl⟩ := Prod.mk.inj (Option.some.inj hs)
    exact h.commit hc
  have hprimary := h.primary.serve h.unique (fun rows hc' => absurd ⟨rows, hc'⟩ hupsert) hs
  refine h.congr (h.distinct.serve hs) (h.unique.serve hs) hprimary (rules_effect heffect) ?_
    (cores_effect heffect hcommit) fun q t' ht' => ?_
  · rcases entries_effect heffect with heq | ⟨t, hc', -, -⟩
    · exact heq
    · exact absurd hc' hcommit
  · rcases txnStep_effect heffect ht' with rfl | ⟨t, ht, -, hstep⟩
    · exact .inl rfl
    · refine .inr ⟨t, ht, ?_⟩
      cases hstep with
      | entry => exact ⟨rfl, fun e he => List.mem_append_left _ he⟩
      | alerts rows hc' => exact absurd ⟨rows, hc'⟩ hupsert
      | _ => exact ⟨rfl, fun _ he => he⟩

theorem alertsExact_quiet (h : w.AlertsExact rt canonicalizeArticleLink old)
    (hquiet : System.QuietStep w w') : w'.AlertsExact rt canonicalizeArticleLink old := by
  obtain ⟨hentries, hnext, htxn⟩ := System.entries_quiet hquiet
  have hdistinct := h.distinct.congr hentries hnext.ge fun q t' ht' =>
    .inr ⟨t', htxn q t' ht', rfl⟩
  have hrest : w'.rules = w.rules ∧ w'.alerts = w.alerts := by
    cases hquiet <;> exact ⟨rfl, rfl⟩
  have hprimary : w'.PrimaryMatched := by
    rintro a (ha | ⟨q, t, ht, ha⟩)
    · exact h.primary a (.inl (hrest.2 ▸ ha))
    · exact h.primary a (.inr ⟨q, t, htxn q t ht, ha⟩)
  exact h.congr hdistinct (alertsUnique_quiet h.unique hquiet) hprimary hrest.1 hentries
    (congrArg _ hrest.2) fun q t' ht' => .inr ⟨t', htxn q t' ht', rfl, fun _ he => he⟩

end World

/-! ## Batches -/

section Batch

variable {rt : Runtime} {canonicalizeArticleLink : Option String → Option String}
  {rules : List RuleRow} {rows : List EntryRow} {e : EntryRow}

namespace ProcessFeedJob

/-- The rules that match an article. -/
def matchingIds (rt : Runtime) (rules : List RuleRow) (e : EntryRow) : List Nat :=
  (rules.filter fun rule => KeywordMatch.ruleMatchesNormalizedText rt
    (KeywordMatch.normalizeSearchText rt
      (e.entry.title.getD "" ++ " " ++ e.entry.content.getD ""))
    rule.includeKeywords rule.excludeKeywords).map RuleRow.id

theorem matchEntry_eq : matchEntry rt rules e =
    if (matchingIds rt rules e).isEmpty then none else some (e.id, matchingIds rt rules e) := rfl

theorem key_matchEntry {m : Nat × List Nat} (h : matchEntry rt rules e = some m) : m.1 = e.id := by
  rw [matchEntry_eq] at h
  obtain ⟨-, h⟩ := Option.ite_none_left_eq_some.mp h
  rw [← Option.some.inj h]

/-- Articles outside the batch have no rules. -/
theorem rulesOf_eq_nil {id : Nat} (h : id ∉ rows.map EntryRow.id) :
    rulesOf (rows.filterMap (matchEntry rt rules)) id = [] := by
  have hnone : (rows.filterMap (matchEntry rt rules)).find? (fun m => m.1 = id) = none := by
    refine List.find?_eq_none.mpr fun m hm hid => h ?_
    obtain ⟨x, hx, hmatch⟩ := List.mem_filterMap.mp hm
    exact List.mem_map.mpr ⟨x, hx, (key_matchEntry hmatch).symm.trans (of_decide_eq_true hid)⟩
  rw [rulesOf, hnone]
  rfl

/-- **The map of the matches** holds, under an article of the batch, the rules that match it. -/
theorem rulesOf_match (hn : (rows.map EntryRow.id).Nodup) (he : e ∈ rows) :
    rulesOf (rows.filterMap (matchEntry rt rules)) e.id = matchingIds rt rules e := by
  induction rows with
  | nil => cases he
  | cons x rows ih =>
    obtain ⟨hx, hrest⟩ := List.nodup_cons.mp hn
    by_cases hempty : (matchingIds rt rules x).isEmpty = true
    · have hnone : matchEntry rt rules x = none := by rw [matchEntry_eq, if_pos hempty]
      rw [List.filterMap_cons_none hnone]
      rcases List.mem_cons.mp he with rfl | he
      · rw [rulesOf_eq_nil hx, List.isEmpty_iff.mp hempty]
      · exact ih hrest he
    · have hsome : matchEntry rt rules x = some (x.id, matchingIds rt rules x) := by
        rw [matchEntry_eq, if_neg hempty]
      rw [List.filterMap_cons_some hsome]
      rcases List.mem_cons.mp he with rfl | he
      · simp [rulesOf]
      · have hne : x.id ≠ e.id := fun hid => hx (hid ▸ List.mem_map_of_mem he)
        rw [← ih hrest he]
        simp [rulesOf, hne]

/-- An article with matching rules is looked up. -/
theorem mem_matchedEntryIds {id : Nat} (he : e ∈ rows) (hid : id ∈ matchingIds rt rules e) :
    e.id ∈ matchedEntryIds (rows.filterMap (matchEntry rt rules)) := by
  have hne : (matchingIds rt rules e).isEmpty = false :=
    List.isEmpty_eq_false_iff.mpr (List.ne_nil_of_mem hid)
  have hsome : matchEntry rt rules e = some (e.id, matchingIds rt rules e) := by
    rw [matchEntry_eq, hne]
    rfl
  refine List.mem_map.mpr ⟨_, List.mem_filter.mpr ⟨List.mem_filterMap.mpr ⟨e, he, hsome⟩, ?_⟩, rfl⟩
  rw [hne]
  rfl

end ProcessFeedJob

open ProcessFeedJob

/-- What the first query reads of an article. -/
def EntryRow.toLink (e : EntryRow) : EntryLink :=
  { id := e.id, tenantId := e.tenantId, link := e.entry.link }

/-- The active rules of the tenant. -/
def ActiveRules (tenantId : String) (active rules : List RuleRow) : Prop :=
  ∀ rule, rule ∈ active ↔ rule ∈ rules ∧ rule.tenantId = tenantId ∧ rule.isActive = true

theorem mem_matchingIds {tenantId : String} {active : List RuleRow}
    (h : ActiveRules tenantId active rules) (howner : e.tenantId = tenantId) {id : Nat} :
    id ∈ matchingIds rt active e ↔ ∃ rule ∈ rules, rule.id = id ∧ Hits rt rule e := by
  unfold matchingIds
  constructor
  · intro hid
    obtain ⟨rule, hrule, hkey⟩ := List.mem_map.mp hid
    obtain ⟨hmem, hmatch⟩ := List.mem_filter.mp hrule
    obtain ⟨hrules, htenant, hactive⟩ := (h rule).mp hmem
    exact ⟨rule, hrules, hkey, htenant.trans howner.symm, hactive, hmatch⟩
  · rintro ⟨rule, hrule, hkey, htenant, hactive, hmatch⟩
    refine List.mem_map.mpr ⟨rule, List.mem_filter.mpr ⟨?_, hmatch⟩, hkey⟩
    exact (h rule).mpr ⟨hrule, htenant.trans howner, hactive⟩

/-- **The statement for a batch** carries, under each key, exactly what its articles deserve. -/
theorem upsertRows_exact {tenantId : String} {active : List RuleRow} {links : List EntryLink}
    (hn : (rows.map EntryRow.id).Nodup) (hactive : ActiveRules tenantId active rules)
    (howner : ∀ e ∈ rows, e.tenantId = tenantId)
    (hlinks : ∀ l, l ∈ links ↔ ∃ e ∈ rows,
      e.id ∈ matchedEntryIds (rows.filterMap (matchEntry rt active)) ∧ e.toLink = l)
    {k : String × String} {id : Nat} :
    (∃ u ∈ upsertRows canonicalizeArticleLink (rows.filterMap (matchEntry rt active)) links,
        rowKey u = k ∧ id ∈ u.matchedRules) ↔
      Deserves rt canonicalizeArticleLink rules (· ∈ rows) k id := by
  let b : IngestionBatch :=
    { tenantId := tenantId
      entries := links.map fun l => (l.id, l.link)
      matchesByEntry := rows.filterMap (matchEntry rt active) }
  have hrows : b.rows = links := by
    unfold IngestionBatch.rows
    rw [List.map_map]
    refine (List.map_congr_left fun l hl => ?_).trans links.map_id
    obtain ⟨e, he, -, rfl⟩ := (hlinks l).mp hl
    simp [b, EntryRow.toLink, howner e he]
  have hstatement : (∃ u ∈ b.statement canonicalizeArticleLink,
      rowKey u = k ∧ id ∈ u.matchedRules) ↔ b.Contributes canonicalizeArticleLink k id :=
    IngestionBatch.mem_statement_rules
  unfold IngestionBatch.statement IngestionBatch.Contributes at hstatement
  rw [hrows] at hstatement
  refine hstatement.trans ⟨?_, ?_⟩
  · rintro ⟨l, hl, hkey, hid⟩
    obtain ⟨e, he, -, rfl⟩ := (hlinks l).mp hl
    change id ∈ rulesOf (rows.filterMap (matchEntry rt active)) e.id at hid
    rw [rulesOf_match hn he, mem_matchingIds hactive (howner e he)] at hid
    exact ⟨e, he, hkey, hid⟩
  · rintro ⟨e, he, hkey, hrule⟩
    have hid : id ∈ matchingIds rt active e := (mem_matchingIds hactive (howner e he)).mpr hrule
    refine ⟨e.toLink, (hlinks _).mpr ⟨e, he, mem_matchedEntryIds he hid, rfl⟩, hkey, ?_⟩
    change id ∈ rulesOf (rows.filterMap (matchEntry rt active)) e.id
    rwa [rulesOf_match hn he]

end Batch

/-! ## The protocol -/

namespace AlertsExact

open World ProcessFeedJob

/-- The alerts stay exact, as long as every process observes it. -/
def exactly (rt : Runtime) (canonicalizeArticleLink : Option String → Option String)
    (old : List EntryRow) : Protocol where
  holds := World.AlertsExact rt canonicalizeArticleLink old
  allowed pid _ w c := w.Settles rt canonicalizeArticleLink pid c
  env _ _ := True
  saved _ := True
  serve h hc hs := h.serve hc hs
  quiet h hquiet _ := alertsExact_quiet h hquiet

section Programs

variable {rt : Runtime} {canonicalizeArticleLink : Option String → Option String}
  {old : List EntryRow} {pid : Nat} {role : Role} {w w' : World} {feed : FeedRow}

/-- The rest of the process observes it. -/
abbrev Keeps (rt : Runtime) (canonicalizeArticleLink : Option String → Option String)
    (old : List EntryRow) (pid : Nat) (role : Role) {α : Type} (p : Program α)
    (post : Except String α → World → Prop) : World → Prop :=
  (exactly rt canonicalizeArticleLink old).Keeps pid role p post

/-- Calls that upsert and commit nothing. -/
def Plain : Call → Prop
  | .ingest (.upsertAlerts _) => False
  | .ingest .commit => False
  | _ => True

theorem settles_of_plain {c : Call} (h : Plain c) :
    w.Settles rt canonicalizeArticleLink pid c := by
  unfold World.Settles
  split <;> trivial

/-- The transaction is open; it has inserted these articles, for the tenant of the feed, and no
alerts yet. -/
structure Gathered (pid : Nat) (feed : FeedRow) (rows : List EntryRow) (w : World) : Prop where
  /-- the tenant -/
  owner : ∀ row ∈ rows, row.tenantId = feed.tenantId
  /-- the transaction -/
  staged : ∃ t, w.txn pid = some t ∧ t.entries = rows ∧ t.alerts = []

theorem stable_gathered {rows : List EntryRow} :
    Stable (Elsewhere pid) (Gathered pid feed rows) :=
  stable_elsewhere (fun _ _ _ _ _ _ htxn h => ⟨h.owner, htxn ▸ h.staged⟩)
    fun _ _ _ htxn h => ⟨h.owner, htxn ▸ h.staged⟩

theorem persistent_activeRules {tenantId : String} {active : List RuleRow} :
    Persistent fun w => ActiveRules tenantId active w.rules where
  call he h := by rwa [rules_effect he]
  quiet hquiet h := by cases hquiet <;> exact h

/-- The transaction may be committed. -/
def Ready (rt : Runtime) (canonicalizeArticleLink : Option String → Option String) (pid : Nat)
    (w : World) : Prop :=
  ∃ t, w.txn pid = some t ∧ ∀ k id,
    Deserves rt canonicalizeArticleLink w.rules (· ∈ t.entries) k id → id ∈ rulesUnder t.alerts k

theorem stable_ready : Stable (Elsewhere pid) (Ready rt canonicalizeArticleLink pid) := by
  refine stable_elsewhere (fun _ _ _ _ _ he htxn h => ?_) fun _ _ hquiet htxn h => ?_
  · unfold Ready
    rw [rules_effect he, htxn]
    exact h
  · unfold Ready
    rw [htxn]
    cases hquiet <;> exact h

theorem begin_keeps (feed : FeedRow) (w : World) :
    Keeps rt canonicalizeArticleLink old pid role IngestClient.begin
      (fun r w' => ∀ u, r = .ok u → Gathered pid feed [] w') w := by
  refine follows_invoke stable_true trivial (fun _ _ => trivial) ?_
  rintro v r v' - ha u rfl
  obtain ⟨ch, -, hserve⟩ := ha.serve
  obtain ⟨-, rfl⟩ := Prod.mk.inj (Option.some.inj hserve)
  exact ⟨fun _ h => absurd h List.not_mem_nil, Txn.empty,
    (txn_setTxn v pid pid _).trans (if_pos rfl), rfl, rfl⟩

/-- **The articles** of the transaction are those that were inserted. -/
theorem insertMany_keeps {es : List NormalizedEntry} {done : List EntryRow}
    (h : Gathered pid feed done w) :
    Keeps rt canonicalizeArticleLink old pid role (insertMany feed.tenantId feed.id es)
      (fun r w' => ∀ rows, r = .ok rows → Gathered pid feed (done ++ rows) w') w := by
  induction es generalizing done w with
  | nil =>
    rintro rows hrows
    obtain rfl := Except.ok.inj hrows
    rwa [List.append_nil]
  | cons e es ih =>
    have hinsert : Keeps rt canonicalizeArticleLink old pid role
        (ingestCall (.insertEntry feed.tenantId feed.id e))
        (fun r w' => ∀ row : Option EntryRow, r = .ok row →
          Gathered pid feed (done ++ row.toList) w') w := by
      refine follows_invoke stable_gathered h (fun _ _ => trivial) ?_
      rintro v r v' hv ha row rfl
      obtain ⟨ch, -, hserve⟩ := ha.serve
      obtain ⟨t, ht, hrows, halerts⟩ := hv.staged
      obtain ⟨t₀, ht₀, -, ⟨-, rfl, rfl⟩ | ⟨-, new, -, htenant, -, -, rfl, rfl⟩⟩ :=
        insertEntry_eq_some hserve
      · rwa [Option.toList_none, List.append_nil]
      · obtain rfl := Option.some.inj (ht.symm.trans ht₀)
        refine ⟨fun row hrow => ?_, _, (txn_setTxn v pid pid _).trans (if_pos rfl), ?_, halerts⟩
        · rcases List.mem_append.mp hrow with hrow | hrow
          · exact hv.owner row hrow
          · obtain rfl := List.mem_singleton.mp hrow
            exact htenant
        · exact congrArg (· ++ [new]) hrows
    refine hinsert.bind (fun row w₁ h₁ => ?_) fun _ _ _ => nofun
    refine (ih (h₁ row rfl)).bind (fun rows w₂ h₂ => ?_) fun _ _ _ => nofun
    intro rows' hrows'
    obtain rfl := Except.ok.inj hrows'
    have hrest := h₂ rows rfl
    rwa [List.append_assoc] at hrest

/-- The rules that are read are the active ones of the tenant. -/
theorem listActive_keeps {inserted : List EntryRow} (h : Gathered pid feed inserted w) :
    Keeps rt canonicalizeArticleLink old pid role (listActive feed.tenantId)
      (fun r w' => ∀ active, r = .ok active →
        Gathered pid feed inserted w' ∧ ActiveRules feed.tenantId active w'.rules) w := by
  refine follows_invoke stable_gathered h (fun _ _ => trivial) ?_
  rintro v r v' hv ha active rfl
  obtain ⟨ch, -, hserve⟩ := ha.serve
  obtain ⟨rfl, rfl⟩ := Prod.mk.inj (Option.some.inj hserve)
  refine ⟨hv, fun rule => ?_⟩
  rw [List.mem_insertionSort, List.mem_filter, Bool.and_eq_true, decide_eq_true_eq]

/-- The query reads back the articles of the batch that have matches. -/
theorem entriesByIds_exact {inserted : List EntryRow} {active : List RuleRow}
    {links : List EntryLink} (hw : w.AlertsExact rt canonicalizeArticleLink old)
    (h : Gathered pid feed inserted w) {ch : Choice}
    (hserve : (Call.ingest (.entriesByIds
      (matchedEntryIds (inserted.filterMap (matchEntry rt active))))).serve pid w ch
        = some (links, w')) :
    w' = w ∧ (inserted.map EntryRow.id).Nodup ∧ ∀ l, l ∈ links ↔ ∃ e ∈ inserted,
      e.id ∈ matchedEntryIds (inserted.filterMap (matchEntry rt active)) ∧ e.toLink = l := by
  obtain ⟨t, ht, rfl, -⟩ := h.staged
  obtain ⟨t₀, ht₀, hpair⟩ := Option.map_eq_some_iff.mp hserve
  obtain rfl := Option.some.inj (ht.symm.trans ht₀)
  obtain ⟨rfl, rfl⟩ := Prod.mk.inj hpair
  have hapart := hw.distinct.staged pid t ht
  refine ⟨rfl, nodup_of_entriesApart (List.pairwise_append.mp hapart).2.1, fun l => ?_⟩
  unfold World.entriesByIds
  rw [List.mem_insertionSort, List.mem_map]
  constructor
  · rintro ⟨e, he, rfl⟩
    obtain ⟨hmem, hid⟩ := List.mem_filter.mp he
    obtain ⟨row, hrow, hkey⟩ := TenantIsolation.mem_matchedEntryIds_match (of_decide_eq_true hid)
    -- no other article has the key of the row
    have hsame : row = e := List.inj_on_of_nodup_map (nodup_of_entriesApart hapart)
      (List.mem_append_right _ hrow) hmem hkey
    exact ⟨e, hsame ▸ hrow, of_decide_eq_true hid, rfl⟩
  · rintro ⟨e, he, hid, rfl⟩
    exact ⟨e, List.mem_filter.mpr ⟨List.mem_append_right _ he, decide_eq_true hid⟩, rfl⟩

/-- Without matches there is nothing to upsert. -/
theorem ready_of_none {inserted : List EntryRow} (h : Gathered pid feed inserted w)
    (hnone : ∀ k id, ¬ Deserves rt canonicalizeArticleLink w.rules (· ∈ inserted) k id) :
    Ready rt canonicalizeArticleLink pid w := by
  obtain ⟨t, ht, rfl, -⟩ := h.staged
  exact ⟨t, ht, fun k id hid => absurd hid (hnone k id)⟩

/-- **The alerts** that are upserted are what the articles deserve, and nothing is left to
upsert. -/
theorem createForEntryWithRules_keeps {inserted : List EntryRow} {active : List RuleRow}
    (h : Gathered pid feed inserted w ∧ ActiveRules feed.tenantId active w.rules) :
    Keeps rt canonicalizeArticleLink old pid role
      (AlertsRepository.createForEntryWithRules canonicalizeArticleLink
        (inserted.filterMap (matchEntry rt active)))
      (fun r w' => ∀ out, r = .ok out → Ready rt canonicalizeArticleLink pid w') w := by
  have hstable : Stable (Elsewhere pid)
      fun v => Gathered pid feed inserted v ∧ ActiveRules feed.tenantId active v.rules :=
    stable_gathered.and persistent_activeRules.stable
  unfold AlertsRepository.createForEntryWithRules
  dsimp only
  split
  · rename_i hempty
    -- no article matches a rule, so none deserves an alert
    refine fun _ _ => ready_of_none h.1 ?_
    rintro k id ⟨e, he, -, hrule⟩
    have hid : id ∈ matchingIds rt active e := (mem_matchingIds h.2 (h.1.owner e he)).mpr hrule
    exact List.ne_nil_of_mem (mem_matchedEntryIds he hid) (List.isEmpty_iff.mp hempty)
  have hread : Keeps rt canonicalizeArticleLink old pid role
      (ingestCall (.entriesByIds (matchedEntryIds (inserted.filterMap (matchEntry rt active)))))
      (fun r w' => ∀ links, r = .ok links →
        (Gathered pid feed inserted w' ∧ ActiveRules feed.tenantId active w'.rules) ∧
        (inserted.map EntryRow.id).Nodup ∧ ∀ l, l ∈ links ↔ ∃ e ∈ inserted,
          e.id ∈ matchedEntryIds (inserted.filterMap (matchEntry rt active)) ∧ e.toLink = l) w := by
    refine follows_invoke hstable h (fun _ _ => trivial) ?_
    rintro v r v' hv ha links rfl
    obtain ⟨ch, -, hserve⟩ := ha.serve
    obtain ⟨rfl, hlinks⟩ := entriesByIds_exact ha.1 hv.1 hserve
    exact ⟨hv, hlinks⟩
  refine hread.bind (fun links w₁ h₁ => ?_) fun _ _ _ => nofun
  obtain ⟨hstate, hn, hlinks⟩ := h₁ links rfl
  -- the rows of the upsert are what the articles deserve, whatever the others have done since
  have hexact : ∀ v, Gathered pid feed inserted v ∧ ActiveRules feed.tenantId active v.rules →
      ∀ k id, (∃ u ∈ upsertRows canonicalizeArticleLink
          (inserted.filterMap (matchEntry rt active)) links, rowKey u = k ∧ id ∈ u.matchedRules) ↔
        Deserves rt canonicalizeArticleLink v.rules (· ∈ inserted) k id :=
    fun v hv k id => upsertRows_exact hn hv.2 hv.1.owner hlinks
  split
  · rename_i hempty
    -- no row is upserted, so no article deserves an alert
    refine fun _ _ => ready_of_none hstate.1 fun k id hid => ?_
    obtain ⟨u, hu, -⟩ := (hexact w₁ hstate k id).mpr hid
    exact List.ne_nil_of_mem hu (List.isEmpty_iff.mp hempty)
  have hwell : ∀ u ∈ upsertRows canonicalizeArticleLink
      (inserted.filterMap (matchEntry rt active)) links, u.ruleId ∈ u.matchedRules := by
    intro u hu
    obtain ⟨g, -, hrow⟩ := List.mem_filterMap.mp hu
    exact (toUpsertRow_eq_some hrow).2.2.2
  have hupsert : Keeps rt canonicalizeArticleLink old pid role
      (ingestCall (.upsertAlerts (upsertRows canonicalizeArticleLink
        (inserted.filterMap (matchEntry rt active)) links)))
      (fun r w' => ∀ out, r = .ok out → Ready rt canonicalizeArticleLink pid w') w₁ := by
    refine follows_invoke hstable hstate (fun v hv => ⟨hwell, fun t ht u hu id hid => ?_⟩) ?_
    · obtain ⟨t₀, ht₀, rfl, -⟩ := hv.1.staged
      obtain rfl := Option.some.inj (ht.symm.trans ht₀)
      exact (hexact v hv _ id).mp ⟨u, hu, rfl, hid⟩
    · rintro v r v' hv ha out rfl
      obtain ⟨ch, -, hserve⟩ := ha.serve
      obtain ⟨t, ht, -, rfl⟩ := upsertAlerts_eq_some hserve
      obtain ⟨t₀, ht₀, rfl, -⟩ := hv.1.staged
      obtain rfl := Option.some.inj (ht.symm.trans ht₀)
      refine ⟨_, (txn_setTxn v pid pid _).trans (if_pos rfl), fun k id hid => ?_⟩
      obtain ⟨u, hu, rfl, hmatched⟩ := (hexact v hv k id).mpr hid
      exact mem_rulesUnder_of_row hu hmatched
  exact hupsert.bind (fun out _ h₂ _ _ => h₂ out rfl) fun _ _ _ => nofun

/-- Statements of the transaction after the upsert leave it ready. -/
theorem ready_keeps {c : Call} (hc : Plain c) (h : Ready rt canonicalizeArticleLink pid w)
    (hready : ∀ v v', Ready rt canonicalizeArticleLink pid v → CallEffect pid v c v' →
      Ready rt canonicalizeArticleLink pid v') :
    Keeps rt canonicalizeArticleLink old pid role (invoke c)
      (fun _ w' => Ready rt canonicalizeArticleLink pid w') w :=
  follows_invoke stable_ready h (fun _ _ => settles_of_plain hc)
    fun v _ v' hv ha => hready v v' hv ha.effect

/-- From `BEGIN` to `COMMIT`. -/
theorem transaction_keeps {response : FetchResponse} {es : List NormalizedEntry} (w : World) :
    Keeps rt canonicalizeArticleLink old pid role
      (transaction rt canonicalizeArticleLink feed response es) (fun _ _ => True) w := by
  refine (begin_keeps feed w).bind (fun u w₁ h₁ => ?_) fun _ _ _ => trivial
  refine (insertMany_keeps (h₁ u rfl)).bind (fun inserted w₂ h₂ => ?_) fun _ _ _ => trivial
  refine (listActive_keeps (h₂ inserted rfl)).bind (fun active w₃ h₃ => ?_) fun _ _ _ => trivial
  refine (createForEntryWithRules_keeps (h₃ active rfl)).bind (fun outcome w₄ h₄ => ?_)
    fun _ _ _ => trivial
  refine (ready_keeps (by trivial) (h₄ outcome rfl) ?_).bind (fun _ w₅ h₅ => ?_)
    fun _ _ _ => trivial
  · rintro v v' ⟨t, ht, hall⟩ he
    cases he with
    | none => exact ⟨t, ht, hall⟩
    | stageLog row t₀ ht₀ =>
      obtain rfl := Option.some.inj (ht.symm.trans ht₀)
      exact ⟨_, (txn_setTxn v pid pid _).trans (if_pos rfl), hall⟩
  refine (ready_keeps (by trivial) h₅ ?_).bind (fun now w₆ h₆ => ?_) fun _ _ _ => trivial
  · rintro v v' hv he
    cases he
    exact hv
  refine (ready_keeps (by trivial) h₆ ?_).bind (fun _ w₇ h₇ => ?_) fun _ _ _ => trivial
  · rintro v v' ⟨t, ht, hall⟩ he
    cases he with
    | none => exact ⟨t, ht, hall⟩
    | stageReport u t₀ ht₀ =>
      obtain rfl := Option.some.inj (ht.symm.trans ht₀)
      exact ⟨_, (txn_setTxn v pid pid _).trans (if_pos rfl), hall⟩
  -- the commit finds the transaction ready
  have hcommit : Keeps rt canonicalizeArticleLink old pid role IngestClient.commit
      (fun _ _ => True) w₇ := by
    refine follows_invoke stable_ready h₇ ?_ fun _ _ _ _ _ => trivial
    rintro v ⟨t₀, ht₀, hall⟩ t ht
    obtain rfl := Option.some.inj (ht.symm.trans ht₀)
    exact hall
  exact hcommit.bind (fun _ _ _ => trivial) fun _ _ _ => trivial

theorem outside_plain (c : Call) (h : Outside c) : Plain c := by
  unfold Outside at h
  split at h <;> first | trivial | (unfold HandsOver at h; split at h <;> trivial)

/-- A process that handles no fetch job upserts and commits nothing. -/
theorem plain_of_mayIssue (c : Call) (h : role.MayIssue c)
    (hrole : ∀ jobId feedId, role ≠ .fetchWorker jobId feedId) : Plain c := by
  cases c with
  | ingest c =>
    cases role with
    | fetchWorker jobId feedId => exact absurd rfl (hrole jobId feedId)
    | _ => exact h.elim
  | _ => trivial

end Programs

end AlertsExact

/-! ## Runs -/

namespace System

open Transition AlertsExact

variable {d : Deployment} {s s' : System}

/-- Every process starts by the protocol. -/
theorem launch_exactly {old : List EntryRow} {w w' : World} {a : Action} {pid : Nat} {role : Role}
    {prog : Program Unit} (h : Launch d w a pid role prog) :
    (exactly d.rt d.canonicalizeArticleLink old).Keeps pid role prog (fun _ _ => True) w' := by
  by_cases hrole : ∃ jobId feedId, role = .fetchWorker jobId feedId
  · obtain ⟨jobId, feedId, rfl⟩ := hrole
    cases h with
    | fetch _ _ job =>
      refine (ProcessFeedJob.fetchJob_keeps (K := fun _ _ => True)
        (fun _ => TenantIsolation.persistent_true)
        (fun w c hc => settles_of_plain (outside_plain c hc))
        (fun feed response es w _ => transaction_keeps w) (fun _ _ => trivial)
        job.data.feedId w').bind (fun _ _ _ => trivial) fun _ _ _ => trivial
  · refine Protocol.keeps_of_issues (launch_issues h) (fun w c hc => settles_of_plain ?_) w'
    exact plain_of_mayIssue c hc fun jobId feedId heq => hrole ⟨jobId, feedId, heq⟩

theorem alertsExact_of_init {rt : Runtime}
    {canonicalizeArticleLink : Option String → Option String} {s₀ : System} (h₀ : s₀.Init)
    (hfresh : ∀ e ∈ s₀.world.entries, e.id < s₀.world.nextEntryId)
    (hentries : EntriesApart s₀.world.entries) :
    s₀.world.AlertsExact rt canonicalizeArticleLink s₀.world.entries := by
  have hnone : ∀ pid t, s₀.world.txn pid ≠ some t := by
    intro pid t ht
    rw [World.txn, h₀.txns] at ht
    cases ht
  have halert : ∀ a, ¬ s₀.world.HasAlert a := by
    rintro a (ha | ⟨pid, t, ht, -⟩)
    · rw [h₀.alerts] at ha
      cases ha
    · exact hnone pid t ht
  have hunique : s₀.world.AlertsUnique :=
    { index := ⟨fun a ha => absurd ha (halert a), fun a _ ha => absurd ha (halert a)⟩
      alerts := by
        rw [h₀.alerts]
        exact List.nodup_nil
      staged := fun pid t ht => absurd ht (hnone pid t)
      others := fun p _ t _ _ ht => absurd ht (hnone p t)
      grown := fun pid t ht => absurd ht (hnone pid t) }
  refine ⟨entriesDistinct_of_init h₀ hfresh hentries, hunique, fun a ha => absurd ha (halert a),
    fun _ he => he, fun k id => ?_, fun pid t ht => absurd ht (hnone pid t)⟩
  rw [h₀.alerts]
  refine iff_of_false List.not_mem_nil ?_
  rintro ⟨e, ⟨he, hnew⟩, -⟩
  exact hnew he

/-- **The alerts are exactly the matches**: in every run, ids and index keys of alerts are unique,
the primary rule of an alert is one of its rules, and the alert under a key carries a rule if and
only if an article with this key was stored in the run that the rule, an active one of the tenant
of the article, matches. -/
theorem alerts_exact {s₀ : System} (h₀ : s₀.Init)
    (hfresh : ∀ e ∈ s₀.world.entries, e.id < s₀.world.nextEntryId)
    (hentries : EntriesApart s₀.world.entries) {as : List Action}
    (h : run (step d) s₀ as = some s) :
    (s.world.alerts.map AlertRow.id).Nodup ∧ (s.world.alerts.map alertKey).Nodup ∧
    (∀ a ∈ s.world.alerts, a.ruleId ∈ a.matchedRules) ∧
    ∀ k id, (∃ a ∈ s.world.alerts, alertKey a = k ∧ id ∈ a.matchedRules) ↔
      ∃ e ∈ s.world.entries, e ∉ s₀.world.entries ∧
        articleKey d.canonicalizeArticleLink e = k ∧
          ∃ rule ∈ s.world.rules, rule.id = id ∧ Hits d.rt rule e := by
  have hexpects : Along (step d) (fun s a _ => (exactly d.rt d.canonicalizeArticleLink
      s₀.world.entries).Expects s a) s₀ as := by
    have hall : ∀ a ∈ as, ∀ s, (exactly d.rt d.canonicalizeArticleLink
        s₀.world.entries).Expects s a := by
      intro a _ s
      cases a with
      | advance pid out => exact fun _ _ _ _ => trivial
      | _ => trivial
    exact (along_of_forall hall s₀).mono (J := fun _ => True) (fun _ _ _ _ _ => trivial)
      (fun s _ _ _ _ ha => ha s) trivial
  have halways := Protocol.always_abides (fun _ _ _ _ _ _ hl => launch_exactly hl) h₀
    (alertsExact_of_init h₀ hfresh hentries) hexpects
  have hexact := (halways.last h).holds
  have hunique := hexact.unique
  refine ⟨?_, hunique.alerts, fun a ha => hexact.primary a (.inl ha), fun k id => ?_⟩
  · have hkeys := List.pairwise_map.mp hunique.alerts
    refine List.pairwise_map.mpr (hkeys.imp_of_mem fun ha hb hne hid => hne ?_)
    exact (hunique.index.agree _ _ (.inl ha) (.inl hb)).mp hid
  · refine (mem_rulesUnder hunique.alerts).symm.trans ((hexact.carried k id).trans ?_)
    unfold Deserves
    simp only [and_assoc]

/-- The article of the small deployment, and its alert. -/
theorem alerts_exact_oneFeed :
    ∃ s, run (step webhookDeployment) oneFeed ingestArticle = some s ∧
      s.world.alerts.length = 1 ∧ s.world.entries.length = 1 ∧
      (s.world.alerts.map AlertRow.id).Nodup ∧ (s.world.alerts.map alertKey).Nodup ∧
      (∀ a ∈ s.world.alerts, a.ruleId ∈ a.matchedRules) ∧
      ∀ k id, (∃ a ∈ s.world.alerts, alertKey a = k ∧ id ∈ a.matchedRules) ↔
        ∃ e ∈ s.world.entries, e ∉ oneFeed.world.entries ∧
          articleKey webhookDeployment.canonicalizeArticleLink e = k ∧
            ∃ rule ∈ s.world.rules, rule.id = id ∧ Hits webhookDeployment.rt rule e := by
  have hrun : ((run (step webhookDeployment) oneFeed ingestArticle).map
      fun s => (s.world.alerts.length, s.world.entries.length)) = some (1, 1) := by decide
  obtain ⟨s, hs, hone⟩ := Option.map_eq_some_iff.mp hrun
  obtain ⟨halerts, hentries⟩ := Prod.mk.inj hone
  exact ⟨s, hs, halerts, hentries, alerts_exact oneFeed_init oneFeed_stocked.fresh
    oneFeed_stocked.entries hs⟩

end System

end Feedpulse
