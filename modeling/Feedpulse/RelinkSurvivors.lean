import Feedpulse.AlertRelink

/-!
# What migration 0018 leaves of a group of alerts

Of every group of alerts with one dedupe key the oldest one survives, with the rules of all of
them (`migrate_deduplicates`); what becomes of a group depends on its alerts alone.
-/

namespace Feedpulse

namespace AlertRelink

open AlertUpsert

variable {canonicalize : Option String → Option String} {alerts : List AlertRow}
  {t t' : AlertTables}

/-! ## The oldest alert -/

theorem before_irrefl (a : AlertRow) : before a a = false := by simp [before]

theorem before_trans (a b c : AlertRow) (h : before a b = true) (h' : before b c = true) :
    before a c = true := by
  simp only [before, Bool.or_eq_true, Bool.and_eq_true, decide_eq_true_eq] at h h' ⊢
  omega

/-- Ids break the ties. -/
theorem id_eq_of_not_before {a b : AlertRow} (h : before a b = false) (h' : before b a = false) :
    a.id = b.id := by
  simp only [before, Bool.or_eq_false_iff, Bool.and_eq_false_iff, decide_eq_false_iff_not] at h h'
  omega

theorem mem_group {key : String × String} {a : AlertRow} :
    a ∈ group key alerts ↔ a ∈ alerts ∧ alertKey a = key := by
  simp [group]

/-- The rows that a group is made of. -/
theorem id_inj (hn : (alerts.map AlertRow.id).Nodup) {a b : AlertRow} (ha : a ∈ alerts)
    (hb : b ∈ alerts) (h : a.id = b.id) : a = b :=
  List.inj_on_of_nodup_map hn ha hb h

/-- A group has one oldest alert. -/
theorem isFirst_unique (hn : (alerts.map AlertRow.id).Nodup) {key : String × String}
    {o o' : AlertRow} (h : Table.IsFirst before (group key alerts) o)
    (h' : Table.IsFirst before (group key alerts) o') : o = o' :=
  h.unique (fun _ hx _ hy hxy hyx =>
    id_inj hn (mem_group.mp hx).1 (mem_group.mp hy).1 (id_eq_of_not_before hxy hyx)) h'

theorem exists_oldest {key : String × String} (h : group key alerts ≠ []) :
    ∃ o, Table.IsFirst before (group key alerts) o :=
  Table.exists_isFirst before_irrefl before_trans h

/-! ## The plan -/

/-- The first row is the oldest alert. -/
theorem rowNum_eq_one {a : AlertRow} (ha : a ∈ alerts) :
    rowNum alerts a = 1 ↔ Table.IsFirst before (group (alertKey a) alerts) a := by
  have hmem : a ∈ group (alertKey a) alerts := mem_group.mpr ⟨ha, rfl⟩
  unfold rowNum Table.IsFirst
  rw [Nat.add_eq_right, List.countP_eq_zero]
  simp [hmem]

/-- The plan has every alert removed that is not the oldest of its group. -/
theorem removed_dedupePlan (hn : (alerts.map AlertRow.id).Nodup) {a : AlertRow}
    (ha : a ∈ alerts) :
    removed (dedupePlan alerts) a.id = false ↔
      Table.IsFirst before (group (alertKey a) alerts) a := by
  rw [← rowNum_eq_one ha, removed, List.any_eq_false]
  constructor
  · intro h
    have hrow := h _ (List.mem_map_of_mem ha)
    simp only [decide_true, Bool.true_and, decide_eq_true_eq, not_lt] at hrow
    have hpos : 1 ≤ rowNum alerts a := Nat.le_add_left 1 _
    omega
  · intro h p hp
    obtain ⟨b, hb, rfl⟩ := List.mem_map.mp hp
    simp only [Bool.and_eq_true, decide_eq_true_eq, not_and, not_lt]
    intro hid
    obtain rfl := id_inj hn hb ha hid
    exact h.le

/-- The survivor of an alert is the oldest one of its group. -/
theorem survivorId_eq (hn : (alerts.map AlertRow.id).Nodup) {a o : AlertRow}
    (ho : Table.IsFirst before (group (alertKey a) alerts) o) : survivorId alerts a = o.id := by
  have hfirst : ∀ b ∈ group (alertKey a) alerts,
      (decide (rowNum alerts b = 1) = true ↔ b = o) := by
    intro b hb
    obtain ⟨hb', hkey⟩ := mem_group.mp hb
    rw [decide_eq_true_eq, rowNum_eq_one hb', hkey]
    constructor
    · exact fun h => isFirst_unique hn h ho
    · rintro rfl
      exact ho
  unfold survivorId
  rcases hfind : (group (alertKey a) alerts).find? fun b => rowNum alerts b = 1 with _ | b
  · exact absurd ((hfirst o ho.1).mpr rfl) (List.find?_eq_none.mp hfind o ho.1)
  · have hrow : decide (rowNum alerts b = 1) = true :=
      List.find?_some (p := fun b => decide (rowNum alerts b = 1)) hfind
    rw [(hfirst b (List.mem_of_find?_eq_some hfind)).mp hrow]
    rfl

/-- Two alerts have one survivor exactly if they are in one group. -/
theorem survivorId_eq_iff (hn : (alerts.map AlertRow.id).Nodup) {a o : AlertRow}
    (ha : a ∈ alerts) (ho : Table.IsFirst before (group (alertKey o) alerts) o) :
    survivorId alerts a = o.id ↔ alertKey a = alertKey o := by
  constructor
  · intro h
    obtain ⟨o', ho'⟩ := exists_oldest (List.ne_nil_of_mem (mem_group.mpr ⟨ha, rfl⟩))
    rw [survivorId_eq hn ho'] at h
    obtain ⟨hmem', hkey'⟩ := mem_group.mp ho'.1
    obtain rfl := id_inj hn hmem' (mem_group.mp ho.1).1 h
    exact hkey'.symm
  · intro h
    rw [← h] at ho
    exact survivorId_eq hn ho

/-! ## The rules -/

/-- The rules are those of the alerts, in order and each once. -/
structure IsRuleUnion (alerts : List AlertRow) (rules : List Nat) : Prop where
  /-- sorted and free of duplicates -/
  sorted : rules.Pairwise (· < ·)
  /-- the effective rules of the alerts -/
  mem : ∀ r, r ∈ rules ↔ ∃ a ∈ alerts, r ∈ effectiveRules a

/-- There is one such list. -/
theorem IsRuleUnion.unique {alerts' : List AlertRow} {rules rules' : List Nat}
    (h : IsRuleUnion alerts rules) (h' : IsRuleUnion alerts' rules')
    (heq : ∀ a, a ∈ alerts ↔ a ∈ alerts') : rules = rules' := by
  have hperm : rules.Perm rules' := by
    refine (List.perm_ext_iff_of_nodup (h.sorted.imp fun h => h.ne)
      (h'.sorted.imp fun h => h.ne)).mpr fun r => ?_
    rw [h.mem, h'.mem]
    exact exists_congr fun a => and_congr_left' (heq a)
  exact hperm.eq_of_pairwise (fun _ _ _ _ h h' => absurd h' h.asymm) h.sorted h'.sorted

/-- Step 4 gathers the rules of the group. -/
theorem isRuleUnion_unionRules (hn : (alerts.map AlertRow.id).Nodup) {o : AlertRow}
    (ho : Table.IsFirst before (group (alertKey o) alerts) o) :
    IsRuleUnion (group (alertKey o) alerts) (unionRules (dedupePlan alerts) o.id) where
  sorted := by
    have hsorted : (unionRules (dedupePlan alerts) o.id).Pairwise (· ≤ ·) :=
      List.pairwise_insertionSort _ _
    have hnodup : (unionRules (dedupePlan alerts) o.id).Nodup :=
      (List.perm_insertionSort _ _).nodup_iff.mpr (List.nodup_dedup _)
    exact (hsorted.and hnodup).imp fun h => lt_of_le_of_ne h.1 h.2
  mem := by
    intro r
    simp only [unionRules, List.mem_insertionSort, List.mem_dedup, List.mem_flatMap,
      List.mem_filter, dedupePlan, List.mem_map, decide_eq_true_eq]
    constructor
    · rintro ⟨-, ⟨⟨a, ha, rfl⟩, hsurvivor⟩, hr⟩
      exact ⟨a, mem_group.mpr ⟨ha, (survivorId_eq_iff hn ha ho).mp hsurvivor⟩, hr⟩
    · rintro ⟨a, ha, hr⟩
      obtain ⟨ha, hkey⟩ := mem_group.mp ha
      exact ⟨_, ⟨⟨a, ha, rfl⟩, (survivorId_eq_iff hn ha ho).mpr hkey⟩, hr⟩

/-! ## The migration as a whole -/

/-- Recanonicalisation changes the canonical link only. -/
theorem recanonicalizeRow_id (entries : List EntryRow) (a : AlertRow) :
    (recanonicalizeRow canonicalize entries a).id = a.id ∧
      (recanonicalizeRow canonicalize entries a).entryId = a.entryId := by
  unfold recanonicalizeRow
  split
  · exact ⟨rfl, rfl⟩
  · split <;> exact ⟨rfl, rfl⟩

/-- It violates no constraint. -/
theorem Admitted.recanonicalize (canonicalize : Option String → Option String)
    (ht : Admitted t) : Admitted (recanonicalize canonicalize t) where
  alertIds := by
    have hids : (AlertRelink.recanonicalize canonicalize t).alerts.map AlertRow.id
        = t.alerts.map AlertRow.id := by
      simp [AlertRelink.recanonicalize, recanonicalizeRow_id]
    exact hids ▸ ht.alertIds
  entryRefs := by
    intro a ha
    obtain ⟨b, hb, rfl⟩ := List.mem_map.mp ha
    rw [(recanonicalizeRow_id t.entries b).2]
    exact ht.entryRefs b hb
  items := ht.items
  alertRefs := by
    intro i hi
    obtain ⟨a, ha, hid⟩ := ht.alertRefs i hi
    exact ⟨_, List.mem_map_of_mem ha, (recanonicalizeRow_id t.entries a).1.trans hid⟩

/-- It gives an alert the canonical form of the link of its article. -/
theorem recanonicalizeRow_eq (canonicalize : Option String → Option String) (ht : Admitted t)
    {a : AlertRow} (ha : a ∈ t.alerts) :
    ∃ e ∈ t.entries, e.id = a.entryId ∧
      recanonicalizeRow canonicalize t.entries a
        = { a with canonicalLink := canonicalize e.entry.link } := by
  obtain ⟨e, he, hid⟩ := ht.entryRefs a ha
  rcases hl : Table.lookup EntryRow.id a.entryId t.entries with _ | e'
  · exact absurd hid (Table.lookup_eq_none.mp hl e he)
  · refine ⟨e', Table.mem_of_lookup hl, Table.key_of_lookup hl, ?_⟩
    simp only [recanonicalizeRow, hl]
    split
    · rename_i hsame
      rw [← hsame]
    · rfl

/-- The tables after step 6, with the items step 5 has left. -/
def deduplicated (t : AlertTables) (items : List DigestItemRow) : AlertTables :=
  deleteDuplicates (dedupePlan t.alerts)
    { foldRules (dedupePlan t.alerts) t with digestItems := items }

/-- An alert is left as it was, but for its rules. -/
theorem exists_of_mem_deduplicated {items : List DigestItemRow} {a : AlertRow}
    (h : a ∈ (deduplicated t items).alerts) :
    ∃ b ∈ t.alerts, removed (dedupePlan t.alerts) b.id = false ∧ a.id = b.id ∧
      alertKey a = alertKey b ∧ ∃ rules, a = { b with matchedRules := rules } := by
  obtain ⟨hmem, hkept⟩ := List.mem_filter.mp h
  obtain ⟨b, hb, rfl⟩ := List.mem_map.mp hmem
  split at hkept
  · rename_i hsurvives
    rw [if_pos hsurvives]
    exact ⟨b, hb, Bool.not_eq_true' _ |>.mp hkept, rfl, rfl, _, rfl⟩
  · rename_i hsurvives
    rw [if_neg hsurvives]
    exact ⟨b, hb, Bool.not_eq_true' _ |>.mp hkept, rfl, rfl, _, rfl⟩

/-- A group without alerts stays without. -/
theorem group_deduplicated_nil {items : List DigestItemRow} {key : String × String}
    (h : group key t.alerts = []) : group key (deduplicated t items).alerts = [] := by
  refine List.eq_nil_iff_forall_not_mem.mpr fun a ha => ?_
  obtain ⟨ha, hkey⟩ := mem_group.mp ha
  obtain ⟨b, hb, -, -, hsame, -⟩ := exists_of_mem_deduplicated ha
  exact List.not_mem_nil (h ▸ mem_group.mpr ⟨hb, hsame.symm.trans hkey⟩)

/-- What is left of a group, by its oldest alert. -/
theorem group_deduplicated (hn : (t.alerts.map AlertRow.id).Nodup) (items : List DigestItemRow)
    {key : String × String} {o : AlertRow} (ho : Table.IsFirst before (group key t.alerts) o) :
    ∃ rules, IsRuleUnion (group key t.alerts) rules ∧
      group key (deduplicated t items).alerts = [{ o with matchedRules := rules }] := by
  obtain ⟨hmem, rfl⟩ := mem_group.mp ho.1
  refine ⟨_, isRuleUnion_unionRules hn ho, ?_⟩
  -- the rows of the group that are left, before their rules are written
  have hleft : (group (alertKey o) t.alerts).filter
      (fun a => !removed (dedupePlan t.alerts) a.id) = [o] := by
    refine Table.filter_eq_singleton ((List.Nodup.of_map _ hn).filter _) ho.1 fun a ha => ?_
    obtain ⟨ha', hkey⟩ := mem_group.mp ha
    rw [Bool.not_eq_true', removed_dedupePlan hn ha', hkey]
    constructor
    · exact fun h => isFirst_unique hn h ho
    · rintro rfl
      exact ho
  have hsurvives : ((dedupePlan t.alerts).any fun p => p.survivorId = o.id) = true := by
    refine List.any_eq_true.mpr ⟨_, List.mem_map_of_mem hmem, ?_⟩
    exact decide_eq_true (survivorId_eq hn ho)
  change ((List.map _ t.alerts).filter _).filter _ = _
  rw [List.filter_filter, List.filter_map]
  have hsplit : t.alerts.filter
      ((fun a => decide (alertKey a = alertKey o) && !removed (dedupePlan t.alerts) a.id) ∘
        fun a => if (dedupePlan t.alerts).any fun p => p.survivorId = a.id then
          { a with matchedRules := unionRules (dedupePlan t.alerts) a.id } else a) = [o] := by
    rw [← hleft, group, List.filter_filter]
    refine List.filter_congr fun a _ => ?_
    simp only [Function.comp_apply]
    split
    · rw [Bool.and_comm]
      rfl
    · rw [Bool.and_comm]
  rw [hsplit, List.map_cons, List.map_nil, if_pos hsurvives]

/-- One alert is left of a group at most. -/
theorem nodup_alertKey_deduplicated (hn : (t.alerts.map AlertRow.id).Nodup)
    (items : List DigestItemRow) : ((deduplicated t items).alerts.map alertKey).Nodup := by
  have hids : ((deduplicated t items).alerts.map AlertRow.id).Nodup := by
    refine List.Nodup.sublist (List.Sublist.map _ List.filter_sublist) ?_
    have hsame : (foldRules (dedupePlan t.alerts) t).alerts.map AlertRow.id
        = t.alerts.map AlertRow.id :=
      Table.map_updateWhere AlertRow.id (f := fun a => { a with
        matchedRules := unionRules (dedupePlan t.alerts) a.id }) t.alerts fun _ => rfl
    exact hsame ▸ hn
  refine (List.Nodup.of_map _ hids).map_on fun a ha b hb hkey => ?_
  obtain ⟨a', ha', -, -, hsame, -⟩ := exists_of_mem_deduplicated ha
  have hne : group (alertKey a) t.alerts ≠ [] :=
    List.ne_nil_of_mem (mem_group.mpr ⟨ha', hsame.symm⟩)
  obtain ⟨o, ho⟩ := exists_oldest hne
  obtain ⟨rules, -, hgroup⟩ := group_deduplicated hn items ho
  have hleft : ∀ x ∈ (deduplicated t items).alerts, alertKey x = alertKey a →
      x = { o with matchedRules := rules } := fun x hx hk =>
    List.mem_singleton.mp (hgroup ▸ mem_group.mpr ⟨hx, hk⟩)
  rw [hleft a ha rfl, hleft b hb hkey.symm]

/-- The migration aborts on digest items or not at all. -/
theorem migrate_eq_some (ht : Admitted t) :
    migrate canonicalize t = some t' ↔
      let r := recanonicalize canonicalize t
      UniqueItems (movedItems (dedupePlan r.alerts) t.digestItems) ∧
        t' = deduplicated r (movedItems (dedupePlan r.alerts) t.digestItems) := by
  have hkeys := nodup_alertKey_deduplicated (ht.recanonicalize canonicalize).alertIds
    (movedItems (dedupePlan (recanonicalize canonicalize t).alerts) t.digestItems)
  constructor
  · intro h
    obtain ⟨u, hu, h⟩ := Option.bind_eq_some_iff.mp h
    obtain ⟨hitems, hu⟩ := Option.ite_none_right_eq_some.mp hu
    obtain ⟨-, h⟩ := Option.ite_none_right_eq_some.mp h
    obtain rfl := Option.some.inj hu
    exact ⟨hitems, (Option.some.inj h).symm⟩
  · rintro ⟨hitems, rfl⟩
    refine Option.bind_eq_some_iff.mpr ⟨_, if_pos hitems, ?_⟩
    exact if_pos hkeys

/-- **Migration 0018 deduplicates correctly.** Where it does not abort, every group there is
after recanonicalisation is left with one alert: the oldest one, with the rules of all, and
otherwise as it was but for the canonical link. What is left depends on the alerts of the
group alone. -/
theorem migrate_deduplicates (ht : Admitted t) (h : migrate canonicalize t = some t')
    (key : String × String) :
    (group key (recanonicalize canonicalize t).alerts = [] → group key t'.alerts = []) ∧
    (group key (recanonicalize canonicalize t).alerts ≠ [] →
      ∃ a ∈ t.alerts, ∃ e ∈ t.entries, e.id = a.entryId ∧
        Table.IsFirst before (group key (recanonicalize canonicalize t).alerts)
          { a with canonicalLink := canonicalize e.entry.link } ∧
        ∃ rules, IsRuleUnion (group key (recanonicalize canonicalize t).alerts) rules ∧
          group key t'.alerts =
            [{ a with canonicalLink := canonicalize e.entry.link, matchedRules := rules }]) ∧
    ∀ u u', Admitted u → migrate canonicalize u = some u' →
      (∀ a, a ∈ group key (recanonicalize canonicalize u).alerts ↔
        a ∈ group key (recanonicalize canonicalize t).alerts) →
      group key u'.alerts = group key t'.alerts := by
  obtain ⟨-, rfl⟩ := (migrate_eq_some ht).mp h
  have hn := (ht.recanonicalize canonicalize).alertIds
  generalize movedItems (dedupePlan (recanonicalize canonicalize t).alerts) t.digestItems = items
  refine ⟨group_deduplicated_nil, fun hne => ?_, fun u u' hu hmu hsame => ?_⟩
  · obtain ⟨o, ho⟩ := exists_oldest hne
    obtain ⟨rules, hrules, hgroup⟩ := group_deduplicated hn items ho
    obtain ⟨a, ha, rfl⟩ := List.mem_map.mp (mem_group.mp ho.1).1
    obtain ⟨e, he, hid, hrow⟩ := recanonicalizeRow_eq canonicalize ht ha
    rw [hrow] at ho hgroup
    exact ⟨a, ha, e, he, hid, ho, rules, hrules, hgroup⟩
  · obtain ⟨-, rfl⟩ := (migrate_eq_some hu).mp hmu
    have hnu := (hu.recanonicalize canonicalize).alertIds
    generalize movedItems (dedupePlan (recanonicalize canonicalize u).alerts) u.digestItems = items'
    by_cases hne : group key (recanonicalize canonicalize t).alerts = []
    · have hnil : group key (recanonicalize canonicalize u).alerts = [] := by
        refine List.eq_nil_iff_forall_not_mem.mpr fun a ha => ?_
        exact List.not_mem_nil (hne ▸ (hsame a).mp ha)
      rw [group_deduplicated_nil hne, group_deduplicated_nil hnil]
    · obtain ⟨o, ho⟩ := exists_oldest hne
      have ho' : Table.IsFirst before (group key (recanonicalize canonicalize u).alerts) o :=
        ⟨(hsame o).mpr ho.1, fun x hx => ho.2 x ((hsame x).mp hx)⟩
      obtain ⟨rules, hrules, hgroup⟩ := group_deduplicated hn items ho
      obtain ⟨rules', hrules', hgroup'⟩ := group_deduplicated hnu items' ho'
      rw [hgroup, hgroup', hrules'.unique hrules hsame]

theorem migrate_deduplicates_threeAlerts :
    ∃ (t' : AlertTables) (a : AlertRow) (rules : List Nat),
      migrate canonicalizeAscii (threeAlerts []) = some t' ∧
      IsRuleUnion (group ("t", "https://h/a")
        (recanonicalize canonicalizeAscii (threeAlerts [])).alerts) rules ∧
      group ("t", "https://h/a") t'.alerts =
        [{ a with canonicalLink := some "https://h/a", matchedRules := rules }] := by
  have ht : Admitted (threeAlerts []) := ⟨by decide, by decide, by decide, by decide⟩
  obtain ⟨t', h⟩ : ∃ t', migrate canonicalizeAscii (threeAlerts []) = some t' :=
    Option.isSome_iff_exists.mp (by decide +kernel)
  obtain ⟨-, hmigrated, -⟩ := migrate_deduplicates ht h ("t", "https://h/a")
  obtain ⟨a, -, e, he, -, -, rules, hrules, hgroup⟩ := hmigrated (by decide +kernel)
  have hlinks : ∀ e ∈ (threeAlerts []).entries,
      canonicalizeAscii e.entry.link = some "https://h/a" := by decide +kernel
  rw [hlinks e he] at hgroup
  exact ⟨t', a, rules, h, hrules, hgroup⟩

end AlertRelink

end Feedpulse
