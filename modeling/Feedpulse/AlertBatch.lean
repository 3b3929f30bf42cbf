import Feedpulse.AlertUpsert

/-!
# The rows of a batch

What `upsertRows` makes of the matched entries of one tenant: every row has a key of its own
(`nodup_rowKeys`), and the rows with a key carry exactly the rules that matched an entry with
that key (`mem_statement_rules`), sorted and with the primary rule among them
(`UpsertRow.WellFormed`).
-/

namespace Feedpulse

/-- What an ingestion transaction upserts at once: the matched entries of one tenant, with
their links and rules. -/
structure IngestionBatch where
  /-- the tenant -/
  tenantId : String
  /-- the entries and their links -/
  entries : List (Nat × Option String)
  /-- the rules that matched each entry -/
  matchesByEntry : MatchesByEntry
  deriving DecidableEq, Repr

/-- A row of the statement is one that `upsertRows` can have made. -/
structure UpsertRow.WellFormed (u : UpsertRow) : Prop where
  /-- the rules are sorted, without duplicates -/
  sorted : u.matchedRules.Pairwise (· < ·)
  /-- the primary rule is one of them -/
  primary : u.ruleId ∈ u.matchedRules

namespace AlertUpsert

/-! ## Sets of rules -/

theorem mem_addAll {set rs : List Nat} {r : Nat} : r ∈ addAll set rs ↔ r ∈ set ∨ r ∈ rs := by
  induction rs generalizing set with
  | nil => simp [addAll]
  | cons x rs ih =>
    rw [addAll, ih]
    by_cases hx : x ∈ set
    · rw [if_pos hx, List.mem_cons]
      constructor
      · exact Or.imp_right .inr
      · rintro (h | rfl | h)
        · exact .inl h
        · exact .inl hx
        · exact .inr h
    · rw [if_neg hx, List.mem_append, List.mem_singleton, List.mem_cons, or_assoc]

theorem nodup_addAll {set : List Nat} (h : set.Nodup) (rs : List Nat) :
    (addAll set rs).Nodup := by
  induction rs generalizing set with
  | nil => exact h
  | cons x rs ih =>
    rw [addAll]
    refine ih ?_
    by_cases hx : x ∈ set
    · rw [if_pos hx]
      exact h
    · rw [if_neg hx, List.nodup_append]
      refine ⟨h, List.nodup_singleton x, ?_⟩
      rintro a ha b hb rfl
      exact hx (List.mem_singleton.mp hb ▸ ha)

/-- A sorted list without duplicates is strictly sorted. -/
theorem pairwise_lt_insertionSort {rs : List Nat} (h : rs.Nodup) :
    (rs.insertionSort (· ≤ ·)).Pairwise (· < ·) := by
  have hsorted := List.pairwise_insertionSort (α := Nat) (· ≤ ·) rs
  have hnodup : (rs.insertionSort (· ≤ ·)).Nodup := (List.perm_insertionSort _ _).nodup_iff.mpr h
  exact (hsorted.and hnodup).imp fun hab => Nat.lt_of_le_of_ne hab.1 hab.2

/-! ## Groups -/

section Group

variable {canonicalizeArticleLink : Option String → Option String}

/-- The index key of the rows of a group. -/
def groupKey (p : PendingUpsert) : String × String :=
  indexKey p.tenantId p.canonicalLink p.entryId

/-- The index key of the alert of an entry. -/
def entryLinkKey (canonicalizeArticleLink : Option String → Option String) (row : EntryLink) :
    String × String :=
  indexKey row.tenantId (canonicalizeArticleLink row.link) row.id

/-- The groups of a tenant: they stand under different keys, which are those of their rows,
and have rules. -/
structure Grouped (tenantId : String) (groups : List (String × PendingUpsert)) : Prop where
  /-- the keys are different -/
  nodup : (groups.map Prod.fst).Nodup
  /-- every group is one of the tenant -/
  owner : ∀ g ∈ groups, g.2.tenantId = tenantId
  /-- the key of a group in memory is the key in the index -/
  key : ∀ g ∈ groups, g.1 = tenantId ++ "\x1f" ++ (groupKey g.2).2
  /-- rules are collected without duplicates -/
  rules : ∀ g ∈ groups, g.2.ruleIds.Nodup

theorem dedupeKey_eq {row : EntryLink} :
    dedupeKey canonicalizeArticleLink row
      = row.tenantId ++ "\x1f" ++ (entryLinkKey canonicalizeArticleLink row).2 := rfl

/-- Groups are opened for new keys only. -/
theorem keys_addToGroups (row : EntryLink) (ruleIds : List Nat)
    (groups : List (String × PendingUpsert)) :
    (addToGroups canonicalizeArticleLink row ruleIds groups).map Prod.fst
      = if dedupeKey canonicalizeArticleLink row ∈ groups.map Prod.fst then groups.map Prod.fst
        else groups.map Prod.fst ++ [dedupeKey canonicalizeArticleLink row] := by
  induction groups with
  | nil => rfl
  | cons g groups ih =>
    obtain ⟨key, pending⟩ := g
    unfold addToGroups
    by_cases hkey : key = dedupeKey canonicalizeArticleLink row
    · rw [if_pos hkey, if_pos (by simp [hkey])]
      rfl
    · rw [if_neg hkey, List.map_cons, ih]
      by_cases hmem : dedupeKey canonicalizeArticleLink row ∈ groups.map Prod.fst
      · rw [if_pos hmem]
        exact (if_pos (List.mem_cons_of_mem _ hmem)).symm
      · rw [if_neg hmem, if_neg]
        · rfl
        · simp only [List.map_cons, List.mem_cons, not_or]
          exact ⟨fun h => hkey h.symm, hmem⟩

/-- A group after an entry was added: the group of the entry, or one from before. -/
theorem mem_addToGroups {row : EntryLink} {ruleIds : List Nat}
    {groups : List (String × PendingUpsert)} {g : String × PendingUpsert}
    (h : g ∈ addToGroups canonicalizeArticleLink row ruleIds groups) :
    g ∈ groups ∨ (g.1 = dedupeKey canonicalizeArticleLink row ∧
      ((∃ p, (g.1, p) ∈ groups ∧ g.2 = { p with ruleIds := addAll p.ruleIds ruleIds }) ∨
        (g.2.tenantId = row.tenantId ∧ groupKey g.2 = entryLinkKey canonicalizeArticleLink row ∧
          g.2.ruleIds = addAll [] ruleIds))) := by
  induction groups with
  | nil =>
    obtain rfl := List.mem_singleton.mp h
    exact .inr ⟨rfl, .inr ⟨rfl, rfl, rfl⟩⟩
  | cons g' groups ih =>
    obtain ⟨key, pending⟩ := g'
    unfold addToGroups at h
    by_cases hkey : key = dedupeKey canonicalizeArticleLink row
    · rw [if_pos hkey] at h
      rcases List.mem_cons.mp h with rfl | h
      · exact .inr ⟨hkey, .inl ⟨pending, List.mem_cons_self, rfl⟩⟩
      · exact .inl (List.mem_cons_of_mem _ h)
    · rw [if_neg hkey] at h
      rcases List.mem_cons.mp h with rfl | h
      · exact .inl List.mem_cons_self
      · rcases ih h with h | ⟨hk, ⟨p, hp, hrules⟩ | hnew⟩
        · exact .inl (List.mem_cons_of_mem _ h)
        · exact .inr ⟨hk, .inl ⟨p, List.mem_cons_of_mem _ hp, hrules⟩⟩
        · exact .inr ⟨hk, .inr hnew⟩

/-- Adding an entry of the tenant keeps the groups in order. -/
theorem grouped_addToGroups {tenantId : String} {groups : List (String × PendingUpsert)}
    (h : Grouped tenantId groups) {row : EntryLink} (hrow : row.tenantId = tenantId)
    (ruleIds : List Nat) :
    Grouped tenantId (addToGroups canonicalizeArticleLink row ruleIds groups) where
  nodup := by
    rw [keys_addToGroups]
    split
    · exact h.nodup
    · rename_i hno
      rw [List.nodup_append]
      refine ⟨h.nodup, List.nodup_singleton _, ?_⟩
      rintro a ha b hb rfl
      exact hno (List.mem_singleton.mp hb ▸ ha)
  owner g hg := by
    rcases mem_addToGroups hg with hg | ⟨-, ⟨p, hp, hrules⟩ | ⟨htenant, -⟩⟩
    · exact h.owner g hg
    · rw [hrules]
      exact h.owner _ hp
    · exact htenant.trans hrow
  key g hg := by
    rcases mem_addToGroups hg with hg | ⟨hkey, ⟨p, hp, hrules⟩ | ⟨-, hgroup, -⟩⟩
    · exact h.key g hg
    · rw [hrules]
      exact h.key _ hp
    · rw [hkey, hgroup, dedupeKey_eq, hrow]
  rules g hg := by
    rcases mem_addToGroups hg with hg | ⟨-, ⟨p, hp, hrules⟩ | ⟨-, -, hrules⟩⟩
    · exact h.rules g hg
    · rw [hrules]
      exact nodup_addAll (h.rules _ hp) _
    · rw [hrules]
      exact nodup_addAll List.nodup_nil _

/-- So do all entries of the tenant. -/
theorem grouped_groupRows {tenantId : String} {matchesByEntry : MatchesByEntry}
    {rows : List EntryLink} (hrows : ∀ row ∈ rows, row.tenantId = tenantId)
    {groups : List (String × PendingUpsert)} (h : Grouped tenantId groups) :
    Grouped tenantId (groupRows canonicalizeArticleLink matchesByEntry groups rows) := by
  induction rows generalizing groups with
  | nil => exact h
  | cons row rows ih =>
    unfold AlertUpsert.groupRows
    split
    · exact ih (fun r hr => hrows r (List.mem_cons_of_mem _ hr)) h
    · exact ih (fun r hr => hrows r (List.mem_cons_of_mem _ hr))
        (grouped_addToGroups h (hrows row List.mem_cons_self) _)

/-- In the groups of a tenant, the group with the key of an entry is the one with its index
key. -/
theorem groupKey_eq_of_key {tenantId : String} {groups : List (String × PendingUpsert)}
    (h : Grouped tenantId groups) {row : EntryLink} (hrow : row.tenantId = tenantId)
    {g : String × PendingUpsert} (hg : g ∈ groups)
    (hkey : g.1 = dedupeKey canonicalizeArticleLink row) :
    groupKey g.2 = entryLinkKey canonicalizeArticleLink row := by
  rw [h.key g hg, dedupeKey_eq, hrow, String.append_right_inj] at hkey
  exact Prod.ext ((h.owner g hg).trans hrow.symm) hkey

/-- The group with a key carries a rule. -/
def GroupRule (groups : List (String × PendingUpsert)) (k : String × String) (r : Nat) : Prop :=
  ∃ g ∈ groups, groupKey g.2 = k ∧ r ∈ g.2.ruleIds

/-- Adding an entry adds its rules under its key, and nothing else. -/
theorem groupRule_addToGroups {row : EntryLink} {ruleIds : List Nat}
    {groups : List (String × PendingUpsert)}
    (h : ∀ g ∈ groups, g.1 = dedupeKey canonicalizeArticleLink row →
      groupKey g.2 = entryLinkKey canonicalizeArticleLink row)
    {k : String × String} {r : Nat} :
    GroupRule (addToGroups canonicalizeArticleLink row ruleIds groups) k r ↔
      GroupRule groups k r ∨
        (entryLinkKey canonicalizeArticleLink row = k ∧ r ∈ ruleIds) := by
  unfold GroupRule
  induction groups with
  | nil =>
    simp only [addToGroups, List.mem_singleton, exists_eq_left, mem_addAll, List.not_mem_nil,
      false_or, false_and, exists_false]
    exact Iff.rfl
  | cons g groups ih =>
    obtain ⟨key, pending⟩ := g
    have ih := ih fun g hg => h g (List.mem_cons_of_mem _ hg)
    unfold addToGroups
    by_cases hkey : key = dedupeKey canonicalizeArticleLink row
    · have hgroup : groupKey pending = entryLinkKey canonicalizeArticleLink row :=
        h _ List.mem_cons_self hkey
      have hsame : groupKey { pending with ruleIds := addAll pending.ruleIds ruleIds }
          = groupKey pending := rfl
      rw [if_pos hkey, ← hgroup]
      simp only [List.mem_cons, or_and_right, exists_or, exists_eq_left, mem_addAll, hsame,
        and_or_left]
      exact or_right_comm
    · rw [if_neg hkey]
      simp only [List.mem_cons, or_and_right, exists_or, exists_eq_left, ih, or_assoc]

/-- The groups of a batch carry the rules of its entries. -/
theorem groupRule_groupRows {tenantId : String} {matchesByEntry : MatchesByEntry}
    {rows : List EntryLink} (hrows : ∀ row ∈ rows, row.tenantId = tenantId)
    {groups : List (String × PendingUpsert)} (h : Grouped tenantId groups)
    {k : String × String} {r : Nat} :
    GroupRule (groupRows canonicalizeArticleLink matchesByEntry groups rows) k r ↔
      GroupRule groups k r ∨ ∃ row ∈ rows, entryLinkKey canonicalizeArticleLink row = k ∧
        r ∈ rulesOf matchesByEntry row.id := by
  induction rows generalizing groups with
  | nil => simp [groupRows]
  | cons row rows ih =>
    have hrow := hrows row List.mem_cons_self
    have hrest : ∀ row ∈ rows, row.tenantId = tenantId :=
      fun r hr => hrows r (List.mem_cons_of_mem _ hr)
    simp only [List.mem_cons, or_and_right, exists_or, exists_eq_left]
    unfold groupRows
    by_cases hempty : (rulesOf matchesByEntry row.id).isEmpty = true
    · rw [if_pos hempty, ih hrest h, List.isEmpty_iff.mp hempty]
      simp
    · rw [if_neg hempty, ih hrest (grouped_addToGroups h hrow _),
        groupRule_addToGroups fun g hg hkey => groupKey_eq_of_key h hrow hg hkey, or_assoc]

/-! ## Rows -/

/-- A group with rules has a row, under its key and with its rules. -/
theorem toUpsertRow_eq_some {p : PendingUpsert} {u : UpsertRow} (h : toUpsertRow p = some u) :
    rowKey u = groupKey p ∧ u.tenantId = p.tenantId ∧
      u.matchedRules = p.ruleIds.insertionSort (· ≤ ·) ∧ u.ruleId ∈ u.matchedRules := by
  unfold toUpsertRow at h
  split at h
  · cases h
  · rename_i primaryRuleId rest hsort
    obtain rfl := Option.some.inj h
    exact ⟨rfl, rfl, hsort.symm, List.mem_cons_self⟩

theorem toUpsertRow_eq_none {p : PendingUpsert} (h : toUpsertRow p = none) : p.ruleIds = [] := by
  unfold toUpsertRow at h
  split at h
  · rename_i hsort
    have hperm := List.perm_insertionSort (α := Nat) (· ≤ ·) p.ruleIds
    rw [hsort] at hperm
    exact hperm.symm.eq_nil
  · cases h

/-- The rows of groups under different keys have different keys. -/
theorem nodup_rowKey_filterMap {groups : List (String × PendingUpsert)}
    (h : (groups.map fun g => groupKey g.2).Nodup) :
    ((groups.filterMap fun g => toUpsertRow g.2).map rowKey).Nodup := by
  induction groups with
  | nil => exact List.nodup_nil
  | cons g groups ih =>
    obtain ⟨hg, hrest⟩ := List.nodup_cons.mp h
    rw [List.filterMap_cons]
    rcases hu : toUpsertRow g.2 with _ | u
    · exact ih hrest
    · refine List.nodup_cons.mpr ⟨fun hmem => hg ?_, ih hrest⟩
      obtain ⟨u', hu', hkey⟩ := List.mem_map.mp hmem
      obtain ⟨g', hg', hrow'⟩ := List.mem_filterMap.mp hu'
      refine List.mem_map.mpr ⟨g', hg', ?_⟩
      calc groupKey g'.2 = rowKey u' := (toUpsertRow_eq_some hrow').1.symm
        _ = rowKey u := hkey
        _ = groupKey g.2 := (toUpsertRow_eq_some hu).1

end Group

end AlertUpsert

/-! ## Batches -/

namespace IngestionBatch

open AlertUpsert

variable (canonicalizeArticleLink : Option String → Option String) (b : IngestionBatch)

/-- What the first query reads for the batch. -/
def rows : List EntryLink :=
  b.entries.map fun e => { id := e.1, tenantId := b.tenantId, link := e.2 }

/-- The rows of the statement for the batch. -/
def statement : List UpsertRow := upsertRows canonicalizeArticleLink b.matchesByEntry b.rows

/-- An entry of the batch with this key matched the rule. -/
def Contributes (k : String × String) (r : Nat) : Prop :=
  ∃ row ∈ b.rows, entryLinkKey canonicalizeArticleLink row = k ∧
    r ∈ rulesOf b.matchesByEntry row.id

variable {canonicalizeArticleLink b}

theorem tenantId_of_mem_rows {row : EntryLink} (h : row ∈ b.rows) : row.tenantId = b.tenantId := by
  obtain ⟨e, -, rfl⟩ := List.mem_map.mp h
  rfl

theorem grouped_nil (tenantId : String) : Grouped tenantId [] where
  nodup := List.nodup_nil
  owner _ hg := absurd hg List.not_mem_nil
  key _ hg := absurd hg List.not_mem_nil
  rules _ hg := absurd hg List.not_mem_nil

theorem grouped (canonicalizeArticleLink : Option String → Option String) (b : IngestionBatch) :
    Grouped b.tenantId (groupRows canonicalizeArticleLink b.matchesByEntry [] b.rows) :=
  grouped_groupRows (fun _ => tenantId_of_mem_rows) (grouped_nil _)

/-- **No statement carries a key twice.** -/
theorem nodup_rowKeys (canonicalizeArticleLink : Option String → Option String)
    (b : IngestionBatch) :
    ((b.statement canonicalizeArticleLink).map rowKey).Nodup := by
  have h := grouped canonicalizeArticleLink b
  refine nodup_rowKey_filterMap (List.Nodup.of_map (fun k : String × String =>
    b.tenantId ++ "\x1f" ++ k.2) ?_)
  rw [List.map_map]
  refine (List.map_congr_left fun g hg => ?_) ▸ h.nodup
  exact h.key g hg

/-- **The rows with a key carry the rules contributed to it.** -/
theorem mem_statement_rules {k : String × String} {r : Nat} :
    (∃ u ∈ b.statement canonicalizeArticleLink, rowKey u = k ∧ r ∈ u.matchedRules) ↔
      b.Contributes canonicalizeArticleLink k r := by
  have hgroups : GroupRule
        (groupRows canonicalizeArticleLink b.matchesByEntry [] b.rows) k r ↔
      GroupRule [] k r ∨ b.Contributes canonicalizeArticleLink k r :=
    groupRule_groupRows (fun _ => tenantId_of_mem_rows) (grouped_nil b.tenantId)
  have hnil : ¬ GroupRule [] k r := fun ⟨g, hg, _⟩ => absurd hg List.not_mem_nil
  rw [or_iff_right hnil] at hgroups
  refine Iff.trans ?_ hgroups
  constructor
  · rintro ⟨u, hu, hkey, hr⟩
    obtain ⟨g, hg, hrow⟩ := List.mem_filterMap.mp hu
    obtain ⟨hgroup, -, hrules, -⟩ := toUpsertRow_eq_some hrow
    refine ⟨g, hg, hgroup.symm.trans hkey, ?_⟩
    rw [hrules] at hr
    exact (List.mem_insertionSort _).mp hr
  · rintro ⟨g, hg, hkey, hr⟩
    rcases hu : toUpsertRow g.2 with _ | u
    · rw [toUpsertRow_eq_none hu] at hr
      exact absurd hr List.not_mem_nil
    · obtain ⟨hgroup, -, hrules, -⟩ := toUpsertRow_eq_some hu
      refine ⟨u, List.mem_filterMap.mpr ⟨g, hg, hu⟩, hgroup.trans hkey, ?_⟩
      rw [hrules]
      exact (List.mem_insertionSort _).mpr hr

/-- Every row of the statement is one of the tenant, and well formed. -/
theorem wellFormed_of_mem_statement {u : UpsertRow}
    (h : u ∈ b.statement canonicalizeArticleLink) : u.tenantId = b.tenantId ∧ u.WellFormed := by
  obtain ⟨g, hg, hrow⟩ := List.mem_filterMap.mp h
  obtain ⟨-, htenant, hrules, hprimary⟩ := toUpsertRow_eq_some hrow
  have hgrouped := grouped canonicalizeArticleLink b
  refine ⟨htenant.trans (hgrouped.owner g hg), ⟨?_, hprimary⟩⟩
  rw [hrules]
  exact pairwise_lt_insertionSort (hgrouped.rules g hg)

end IngestionBatch

end Feedpulse
