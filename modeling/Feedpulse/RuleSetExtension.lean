import Feedpulse.AlertDedupe
import Feedpulse.Repositories

/-!
# Alerts whose rules grew

`createForEntryWithRules` reports the alerts that its statement did not insert as those whose
set of rules grew. A conflict alone does not make the set grow: `ruleSetExtended_exact_iff` says
that the report is right exactly if every alert the statement finds lacks one of its rules, and
`known_rule_reported` is a call that reports an alert which gains nothing.
-/

namespace Feedpulse

open AlertUpsert
open Prog (exec exec_invoke exec_bind_ok exec_invoke_bind_of_waits)

/-! ## Keys of a statement -/

namespace AlertUpsert

variable {canonicalizeArticleLink : Option String → Option String}

/-- The groups stand under different keys, and the key of a group is made of its tenant and its
link or entry. -/
structure Keyed (groups : List (String × PendingUpsert)) : Prop where
  /-- the keys are different -/
  nodup : (groups.map Prod.fst).Nodup
  /-- the key of a group in memory is made of its key in the index -/
  key : ∀ g ∈ groups, g.1 = (groupKey g.2).1 ++ "\x1f" ++ (groupKey g.2).2

/-- Adding an entry of any tenant keeps the groups under their keys. -/
theorem keyed_addToGroups {groups : List (String × PendingUpsert)} (h : Keyed groups)
    (row : EntryLink) (ruleIds : List Nat) :
    Keyed (addToGroups canonicalizeArticleLink row ruleIds groups) where
  nodup := by
    rw [keys_addToGroups]
    split
    · exact h.nodup
    · rename_i hno
      rw [List.nodup_append]
      refine ⟨h.nodup, List.nodup_singleton _, ?_⟩
      rintro a ha b hb rfl
      exact hno (List.mem_singleton.mp hb ▸ ha)
  key g hg := by
    rcases mem_addToGroups hg with hg | ⟨hkey, ⟨p, hp, hrules⟩ | ⟨-, hgroup, -⟩⟩
    · exact h.key g hg
    · rw [hrules]
      exact h.key _ hp
    · rw [hkey, hgroup, dedupeKey_eq]
      rfl

theorem keyed_groupRows {matchesByEntry : MatchesByEntry} {rows : List EntryLink}
    {groups : List (String × PendingUpsert)} (h : Keyed groups) :
    Keyed (groupRows canonicalizeArticleLink matchesByEntry groups rows) := by
  induction rows generalizing groups with
  | nil => exact h
  | cons row rows ih =>
    rw [groupRows]
    split
    · exact ih h
    · exact ih (keyed_addToGroups h row _)

/-- **No statement carries a key twice**, whatever tenants its entries belong to. -/
theorem nodup_upsertRows (canonicalizeArticleLink : Option String → Option String)
    (matchesByEntry : MatchesByEntry) (rows : List EntryLink) :
    ((upsertRows canonicalizeArticleLink matchesByEntry rows).map rowKey).Nodup := by
  have hnil : Keyed [] := ⟨List.nodup_nil, fun _ hg => absurd hg List.not_mem_nil⟩
  have h : Keyed (groupRows canonicalizeArticleLink matchesByEntry [] rows) := keyed_groupRows hnil
  refine nodup_rowKey_filterMap (List.Nodup.of_map (fun k : String × String =>
    k.1 ++ "\x1f" ++ k.2) ?_)
  rw [List.map_map]
  refine (List.map_congr_left fun g hg => ?_) ▸ h.nodup
  exact h.key g hg

end AlertUpsert

namespace World

/-! ## The statement -/

/-- What a transaction finds under a key: an alert it has staged, or a committed one. -/
def found (committed staged : List AlertRow) (k : String × String) : Option AlertRow :=
  (Table.lookup alertKey k staged).or (Table.lookup alertKey k committed)

variable {committed staged staged' : List AlertRow} {now nextId nextId' : Nat}
  {out : List UpsertedAlert} {u : UpsertRow}

/-- A row of the `RETURNING` clause. -/
def returned (row : AlertRow × Bool) : UpsertedAlert :=
  { id := row.1.id, entryId := row.1.entryId, ruleId := row.1.ruleId, inserted := row.2 }

theorem key_of_found {k : String × String} {a : AlertRow} (h : found committed staged k = some a) :
    alertKey a = k := by
  rcases Option.or_eq_some_iff.mp h with h | ⟨-, h⟩
  · exact Table.key_of_lookup h
  · exact Table.key_of_lookup h

/-- The row that is written stands under the key of the row of the statement. -/
theorem alertKey_upsertRow (now nextId : Nat) (u : UpsertRow) :
    alertKey (upsertRow now nextId (found committed staged (rowKey u)) u).1 = rowKey u := by
  rcases hfound : found committed staged (rowKey u) with _ | a
  · rfl
  · have hkey : alertKey a = rowKey u := key_of_found hfound
    exact hkey

/-- Staging a row changes what is found under its key. -/
theorem found_stageAlert (a : AlertRow) (k : String × String) :
    found committed (stageAlert a staged) k
      = if alertKey a = k then some a else found committed staged k := by
  rw [found, lookup_stageAlert]
  split
  · rfl
  · rfl

/-- **What a statement reports and leaves**, if no two of its rows have one key: the rows whose
alert exists are not inserted, and extend it; under other keys nothing changes. -/
theorem upsertAll_reports {us : List UpsertRow} (hnodup : (us.map rowKey).Nodup)
    (h : upsertAll now committed us nextId staged = (out, nextId', staged')) :
    (∀ r, r ∈ out ∧ r.inserted = false ↔ ∃ u ∈ us, ∃ a,
        found committed staged (rowKey u) = some a ∧
          r = returned (a, false)) ∧
      (∀ u ∈ us, ∀ a, found committed staged (rowKey u) = some a →
        found committed staged' (rowKey u) = some (extendRow a u)) ∧
      ∀ k, (∀ u ∈ us, rowKey u ≠ k) →
        found committed staged' k = found committed staged k := by
  induction us generalizing nextId nextId' staged out with
  | nil =>
    obtain ⟨rfl, -, rfl⟩ : out = [] ∧ nextId' = nextId ∧ staged' = staged := by
      simpa [upsertAll, eq_comm] using h
    refine ⟨fun r => ?_, fun u hu => absurd hu List.not_mem_nil, fun k _ => rfl⟩
    exact iff_of_false (fun h => absurd h.1 List.not_mem_nil)
      fun ⟨u, hu, _⟩ => absurd hu List.not_mem_nil
  | cons u us ih =>
    obtain ⟨hu, hus⟩ := List.nodup_cons.mp hnodup
    obtain ⟨row, hrow⟩ : ∃ row, row = upsertRow now nextId (found committed staged (rowKey u)) u :=
      ⟨_, rfl⟩
    have hkey : alertKey row.1 = rowKey u := by rw [hrow, alertKey_upsertRow]
    obtain ⟨out₁, next₁, hrest, hout⟩ : ∃ out₁ next₁,
        upsertAll now committed us (if row.2 then nextId + 1 else nextId)
          (stageAlert row.1 staged) = (out₁, next₁, staged') ∧
        out = returned row :: out₁ := by
      rw [hrow]
      rw [upsertAll] at h
      simp only [Prod.mk.injEq] at h
      exact ⟨_, _, Prod.ext rfl (Prod.ext rfl h.2.2), h.1.symm⟩
    -- the row that is staged first shows under its own key only
    have hother : ∀ k, k ≠ rowKey u →
        found committed (stageAlert row.1 staged) k = found committed staged k := by
      intro k hk
      rw [found_stageAlert, hkey, if_neg hk.symm]
    have hlater : ∀ u' ∈ us, rowKey u' ≠ rowKey u := fun u' hu' heq =>
      hu (List.mem_map.mpr ⟨u', hu', heq⟩)
    obtain ⟨hreported, hextended, hkept⟩ := ih hus hrest
    -- and no later row has that key, so it stays
    have hself : found committed staged' (rowKey u) = some row.1 := by
      rw [hkept _ hlater, found_stageAlert, if_pos hkey]
    refine ⟨fun r => ?_, ?_, fun k hk => ?_⟩
    · have htail : r ∈ out₁ ∧ r.inserted = false ↔ ∃ u' ∈ us, ∃ a,
          found committed staged (rowKey u') = some a ∧ r = returned (a, false) := by
        rw [hreported]
        refine exists_congr fun u' => and_congr_right fun hu' => ?_
        rw [hother _ (hlater u' hu')]
      have hhead : (r = returned row ∧ r.inserted = false) ↔ ∃ a,
          found committed staged (rowKey u) = some a ∧ r = returned (a, false) := by
        rcases hfound : found committed staged (rowKey u) with _ | a
        · rw [hfound] at hrow
          refine iff_of_false ?_ fun ⟨_, h, _⟩ => by cases h
          rintro ⟨rfl, hinserted⟩
          rw [hrow] at hinserted
          cases hinserted
        · rw [hfound] at hrow
          rw [hrow]
          constructor
          · rintro ⟨rfl, -⟩
            exact ⟨a, rfl, rfl⟩
          · rintro ⟨a', ha', rfl⟩
            obtain rfl := Option.some.inj ha'
            exact ⟨rfl, rfl⟩
      rw [hout, List.mem_cons, or_and_right, htail, hhead, List.exists_mem_cons_iff]
    · intro u' hu' a ha
      rcases List.mem_cons.mp hu' with rfl | hmem
      · rw [hself, hrow, ha]
        rfl
      · rw [← hother _ (hlater u' hmem)] at ha
        exact hextended u' hmem a ha
    · rw [hkept k fun u' hu' => hk u' (List.mem_cons_of_mem _ hu'),
        hother k (Ne.symm (hk u List.mem_cons_self))]

end World

/-- What the transaction of a process finds under a key. -/
def World.seenAlert (w : World) (pid : Nat) (k : String × String) : Option AlertRow :=
  (w.txn pid).bind fun t => w.foundAlert t k

/-- It finds what it has just staged. -/
theorem World.seenAlert_staged {w : World} {pid : Nat} {t : Txn} {staged : List AlertRow}
    {next : Nat} {k : String × String} :
    World.seenAlert { w.setTxn pid { t with alerts := staged } with nextAlertId := next } pid k
      = World.found w.alerts staged k := by
  have htxn : (w.setTxn pid { t with alerts := staged }).txn pid
      = some { t with alerts := staged } := (World.txn_setTxn ..).trans (if_pos rfl)
  have hseen : (w.setTxn pid { t with alerts := staged }).seenAlert pid k
      = World.found w.alerts staged k := by
    rw [World.seenAlert, htxn]
    rfl
  exact hseen

/-- The rules of an alert have become more. -/
structure AlertRow.Grew (a a' : AlertRow) : Prop where
  /-- none is lost -/
  kept : ∀ r ∈ a.matchedRules, r ∈ a'.matchedRules
  /-- one is new -/
  gained : ∃ r ∈ a'.matchedRules, r ∉ a.matchedRules

namespace AlertsRepository

variable {canonicalizeArticleLink : Option String → Option String}
  {matchesByEntry : MatchesByEntry} {pid : Nat} {w w' : World} {t : Txn}
  {outcome : AlertUpsertOutcome}

/-! ## The call -/

/-- A call of a process whose calls succeed. -/
def served (pid : Nat) (w : World) (c : Call) : Option (Except String c.Reply × World) :=
  c.answer pid w (.ok .none)

/-- The rows of the statement for a batch. -/
def batchRows (canonicalizeArticleLink : Option String → Option String)
    (matchesByEntry : MatchesByEntry) (w : World) (t : Txn) : List UpsertRow :=
  upsertRows canonicalizeArticleLink matchesByEntry
    (w.entriesByIds t (matchedEntryIds matchesByEntry))

/-- The call executes its statement, if there is anything to upsert. -/
theorem createForEntryWithRules_executes (ht : w.txn pid = some t)
    (h : exec (served pid) (createForEntryWithRules canonicalizeArticleLink matchesByEntry) w
      = some (.ok outcome, w')) :
    (batchRows canonicalizeArticleLink matchesByEntry w t = [] ∧
        outcome.ruleSetExtended = [] ∧ w' = w) ∨
      ∃ out, w.upsertAlerts pid (batchRows canonicalizeArticleLink matchesByEntry w t)
          = some (out, w') ∧
        outcome.ruleSetExtended = out.filter fun r => !r.inserted := by
  rw [createForEntryWithRules] at h
  split at h
  · rename_i hempty
    obtain ⟨hout, rfl⟩ := Prod.mk.inj (Option.some.inj h)
    obtain rfl := Except.ok.inj hout
    refine .inl ⟨?_, rfl, rfl⟩
    rw [batchRows, List.isEmpty_iff.mp hempty]
    simp [World.entriesByIds, upsertRows, groupRows]
  · have hread : exec (served pid)
        (ingestCall (.entriesByIds (matchedEntryIds matchesByEntry)) : Program (List EntryLink)) w
          = some (.ok (w.entriesByIds t (matchedEntryIds matchesByEntry)), w) := by
      refine exec_invoke ?_
      simp [served, Call.answer, Call.serve, IngestCall.serve, ht]
    rw [exec_bind_ok hread] at h
    dsimp only at h
    split at h
    · rename_i hempty
      obtain ⟨hout, rfl⟩ := Prod.mk.inj (Option.some.inj h)
      obtain rfl := Except.ok.inj hout
      exact .inl ⟨List.isEmpty_iff.mp hempty, rfl, rfl⟩
    · rcases hupsert : w.upsertAlerts pid (batchRows canonicalizeArticleLink matchesByEntry w t)
        with _ | ⟨out, w₁⟩
      · have hwaits : served pid w (.ingest (.upsertAlerts
            (batchRows canonicalizeArticleLink matchesByEntry w t))) = none := by
          simp [served, Call.answer, Call.serve, IngestCall.serve, hupsert]
        rw [batchRows] at hwaits
        rw [ingestCall, exec_invoke_bind_of_waits hwaits] at h
        cases h
      · have hwrite : exec (served pid) (ingestCall (.upsertAlerts
            (batchRows canonicalizeArticleLink matchesByEntry w t)) : Program (List UpsertedAlert))
            w = some (.ok out, w₁) := by
          refine exec_invoke ?_
          simp [served, Call.answer, Call.serve, IngestCall.serve, hupsert]
        rw [batchRows] at hwrite
        rw [exec_bind_ok hwrite] at h
        obtain ⟨hout, rfl⟩ := Prod.mk.inj (Option.some.inj h)
        obtain rfl := Except.ok.inj hout
        exact .inr ⟨out, rfl, rfl⟩

/-- What the statement reports and leaves, as its transaction sees it. -/
theorem upsertAlerts_reports (ht : w.txn pid = some t) {rows : List UpsertRow}
    {out : List UpsertedAlert} (hnodup : (rows.map rowKey).Nodup)
    (h : w.upsertAlerts pid rows = some (out, w')) :
    (∀ r, r ∈ out ∧ r.inserted = false ↔ ∃ u ∈ rows, ∃ a,
        w.seenAlert pid (rowKey u) = some a ∧ r = World.returned (a, false)) ∧
      (∀ u ∈ rows, ∀ a, w.seenAlert pid (rowKey u) = some a →
        w'.seenAlert pid (rowKey u) = some (extendRow a u)) ∧
      ∀ k, (∀ u ∈ rows, rowKey u ≠ k) → w'.seenAlert pid k = w.seenAlert pid k := by
  have hseen : ∀ k, w.seenAlert pid k = World.found w.alerts t.alerts k := by
    intro k
    rw [World.seenAlert, ht]
    rfl
  rw [World.upsertAlerts, ht] at h
  dsimp only at h
  split at h
  · cases h
  obtain ⟨rfl, rfl⟩ := Prod.mk.inj (Option.some.inj h)
  simp only [hseen, World.seenAlert_staged]
  exact World.upsertAll_reports hnodup rfl

/-- An alert grows exactly if the statement brings a rule that it lacks. -/
theorem grew_extendRow {a : AlertRow} {u : UpsertRow} :
    a.Grew (extendRow a u) ↔ ∃ r ∈ u.matchedRules, r ∉ a.matchedRules := by
  constructor
  · rintro ⟨-, r, hr, hnot⟩
    exact ⟨r, (mem_mergeRules.mp hr).resolve_left hnot, hnot⟩
  · rintro ⟨r, hr, hnot⟩
    exact ⟨fun _ h => mem_mergeRules.mpr (.inl h), r, mem_mergeRules.mpr (.inr hr), hnot⟩

/-- **The report of the alerts whose rules grew is exact** exactly if every alert that the
statement finds under one of its keys lacks one of the rules it brings. -/
theorem ruleSetExtended_exact_iff (ht : w.txn pid = some t)
    (hid : ∀ k k' a b, w.seenAlert pid k = some a → w.seenAlert pid k' = some b → a.id = b.id →
      k = k')
    (h : exec (served pid) (createForEntryWithRules canonicalizeArticleLink matchesByEntry) w
      = some (.ok outcome, w')) :
    (∀ id, (∃ r ∈ outcome.ruleSetExtended, r.id = id) ↔
        ∃ k a a', w.seenAlert pid k = some a ∧ w'.seenAlert pid k = some a' ∧ a.id = id ∧
          a.Grew a') ↔
      ∀ u ∈ batchRows canonicalizeArticleLink matchesByEntry w t, ∀ a,
        w.seenAlert pid (rowKey u) = some a → ∃ r ∈ u.matchedRules, r ∉ a.matchedRules := by
  have hsame : ∀ {k a a'}, w'.seenAlert pid k = w.seenAlert pid k → w.seenAlert pid k = some a →
      w'.seenAlert pid k = some a' → ¬a.Grew a' := by
    intro k a a' heq ha ha' hgrew
    obtain rfl : a = a' := Option.some.inj (ha.symm.trans (heq.symm.trans ha'))
    obtain ⟨r, hr, hnot⟩ := hgrew.gained
    exact hnot hr
  rcases createForEntryWithRules_executes ht h with ⟨hrows, hnone, rfl⟩ | ⟨out, hupsert, hextended⟩
  · rw [hrows, hnone]
    refine iff_of_true (fun id => ?_) fun u hu => absurd hu List.not_mem_nil
    refine iff_of_false (fun ⟨_, hr, _⟩ => absurd hr List.not_mem_nil) ?_
    rintro ⟨k, a, a', ha, ha', -, hgrew⟩
    exact hsame rfl ha ha' hgrew
  · obtain ⟨rows, hrows⟩ : ∃ rows, rows = batchRows canonicalizeArticleLink matchesByEntry w t :=
      ⟨_, rfl⟩
    rw [← hrows] at hupsert ⊢
    have hnodup : (rows.map rowKey).Nodup := by
      rw [hrows]
      exact nodup_upsertRows _ _ _
    obtain ⟨hreported, hextends, hkeeps⟩ := upsertAlerts_reports ht hnodup hupsert
    have hid' : ∀ id, (∃ r ∈ outcome.ruleSetExtended, r.id = id) ↔
        ∃ u ∈ rows, ∃ a, w.seenAlert pid (rowKey u) = some a ∧ a.id = id := by
      intro id
      rw [hextended]
      constructor
      · rintro ⟨r, hr, rfl⟩
        obtain ⟨hmem, hinserted⟩ := List.mem_filter.mp hr
        obtain ⟨u, hu, a, ha, rfl⟩ := (hreported r).mp ⟨hmem, by simpa using hinserted⟩
        exact ⟨u, hu, a, ha, rfl⟩
      · rintro ⟨u, hu, a, ha, rfl⟩
        obtain ⟨hmem, hinserted⟩ := (hreported (World.returned (a, false))).mpr ⟨u, hu, a, ha, rfl⟩
        exact ⟨_, List.mem_filter.mpr ⟨hmem, by simp [hinserted]⟩, rfl⟩
    constructor
    · intro hexact u hu a ha
      obtain ⟨k, b, b', hb, hb', hid₁, hgrew⟩ :=
        (hexact a.id).mp ((hid' a.id).mpr ⟨u, hu, a, ha, rfl⟩)
      obtain rfl := hid k (rowKey u) b a hb ha hid₁
      obtain rfl : a = b := Option.some.inj (ha.symm.trans hb)
      rw [hextends u hu a ha] at hb'
      obtain rfl := Option.some.inj hb'
      exact grew_extendRow.mp hgrew
    · intro hlacks id
      rw [hid']
      constructor
      · rintro ⟨u, hu, a, ha, rfl⟩
        exact ⟨_, a, _, ha, hextends u hu a ha, rfl, grew_extendRow.mpr (hlacks u hu a ha)⟩
      · rintro ⟨k, a, a', ha, ha', rfl, hgrew⟩
        by_contra hnot
        refine hsame (hkeeps k fun u hu hkey => ?_) ha ha' hgrew
        subst hkey
        exact hnot ⟨u, hu, a, ha, rfl⟩

/-- An entry of the article. -/
def articleEntry (id feedId : Nat) : EntryRow where
  id := id
  tenantId := "t"
  feedId := feedId
  entry :=
    { title := none
      link := some "https://h/a"
      guid := none
      content := none
      publishedAt := none
      contentHash := "c" }

/-- The alert of the article, for rule 1. -/
def articleAlert : AlertRow :=
  insertRow 0 1
    { tenantId := "t"
      entryId := 1
      ruleId := 1
      matchedRules := [1]
      canonicalLink := some "https://h/a" }

/-- An article with an alert has been published again in another feed, whose ingestion has just
inserted the new entry. -/
def republished : World :=
  { System.oneFeed.world with
    entries := [articleEntry 1 1]
    alerts := [articleAlert]
    txns := [(1, { Txn.empty with entries := [articleEntry 2 2] })]
    nextEntryId := 3
    nextAlertId := 2 }

/-- There is one alert to be found. -/
theorem seenAlert_republished {k : String × String} {a : AlertRow}
    (h : republished.seenAlert 1 k = some a) : a = articleAlert ∧ k = ("t", "https://h/a") := by
  have hlookup : Table.lookup alertKey k [articleAlert] = some a := h
  obtain rfl := List.mem_singleton.mp (Table.mem_of_lookup hlookup)
  exact ⟨rfl, (Table.key_of_lookup hlookup).symm⟩

/-- A second rule that matches the new entry makes the alert grow, and the report is exact. -/
theorem ruleSetExtended_exact_iff_secondRule :
    ∃ outcome w', exec (served 1) (createForEntryWithRules id [(2, [2])]) republished
        = some (.ok outcome, w') ∧
      ∀ id, (∃ r ∈ outcome.ruleSetExtended, r.id = id) ↔
        ∃ k a a', republished.seenAlert 1 k = some a ∧ w'.seenAlert 1 k = some a' ∧ a.id = id ∧
          a.Grew a' := by
  have hrun : ((exec (served 1) (createForEntryWithRules id [(2, [2])]) republished).any
      fun r => r.1.toOption.isSome) = true := by decide +kernel
  obtain ⟨⟨result, w'⟩, hexec, hok⟩ := (Option.any_eq_true _ _).mp hrun
  rcases result with error | outcome
  · cases hok
  refine ⟨outcome, w', hexec, (ruleSetExtended_exact_iff rfl ?_ hexec).mpr ?_⟩
  · intro k k' a b ha hb _
    rw [(seenAlert_republished ha).2, (seenAlert_republished hb).2]
  · intro u hu a ha
    obtain ⟨rfl, -⟩ := seenAlert_republished ha
    have hrows : ∀ u ∈ batchRows id [(2, [2])] republished
        { Txn.empty with entries := [articleEntry 2 2] }, u.matchedRules = [2] := by decide +kernel
    exact ⟨2, by rw [hrows u hu]; exact List.mem_singleton_self 2, by decide⟩

/-- The rule that matched the article before is all that matches the new entry: the alert is
reported, but nothing has changed. -/
theorem known_rule_reported :
    ∃ outcome w', exec (served 1) (createForEntryWithRules id [(2, [1])]) republished
        = some (.ok outcome, w') ∧
      outcome.ruleSetExtended.map UpsertedAlert.id = [articleAlert.id] ∧
      republished.seenAlert 1 ("t", "https://h/a") = some articleAlert ∧
      w'.seenAlert 1 ("t", "https://h/a") = some articleAlert := by
  have hrun : ((exec (served 1) (createForEntryWithRules id [(2, [1])]) republished).any
      fun r => (r.1.toOption.any fun outcome =>
          outcome.ruleSetExtended.map UpsertedAlert.id = [articleAlert.id]) &&
        decide (r.2.seenAlert 1 ("t", "https://h/a") = some articleAlert)) = true := by
    decide +kernel
  obtain ⟨⟨result, w'⟩, hexec, hok⟩ := (Option.any_eq_true _ _).mp hrun
  simp only [Bool.and_eq_true, decide_eq_true_eq] at hok
  rcases result with error | outcome
  · cases hok.1
  · have hreported : decide (outcome.ruleSetExtended.map UpsertedAlert.id = [articleAlert.id])
        = true := hok.1
    exact ⟨outcome, w', hexec, of_decide_eq_true hreported, by decide +kernel, hok.2⟩

end AlertsRepository

end Feedpulse
