import Feedpulse.RuleSetExtension
import Feedpulse.TenantRows

/-!
# The table of alerts

Alerts are upserted under a unique index by the transactions of fetch jobs, and take effect when
the transaction commits. `AlertsUnique` says what the index and the waiting of one transaction
for another keep true of the stored and of the staged rows, and `mem_rulesUnder_commit` what a
commit then amounts to: under every key stand the rules that stood there, and those that were
staged there.
-/

namespace Feedpulse

open AlertUpsert

/-- The rules of the alert under a key. -/
def rulesUnder (alerts : List AlertRow) (k : String × String) : List Nat :=
  ((Table.lookup alertKey k alerts).map AlertRow.matchedRules).getD []

/-- What the index and the upserts depend on. -/
def AlertRow.core (a : AlertRow) : Nat × (String × String) × List Nat :=
  (a.id, alertKey a, a.matchedRules)

@[simp] theorem rulesUnder_nil (k : String × String) : rulesUnder [] k = [] := rfl

theorem rulesUnder_of_lookup {alerts : List AlertRow} {k : String × String} {a : AlertRow}
    (h : Table.lookup alertKey k alerts = some a) : rulesUnder alerts k = a.matchedRules := by
  rw [rulesUnder, h, Option.map_some, Option.getD_some]

/-- Where keys are unique, the rules under a key are those of the row with the key. -/
theorem mem_rulesUnder {alerts : List AlertRow} (hn : (alerts.map alertKey).Nodup)
    {k : String × String} {r : Nat} :
    r ∈ rulesUnder alerts k ↔ ∃ a ∈ alerts, alertKey a = k ∧ r ∈ a.matchedRules := by
  constructor
  · intro h
    rcases hlookup : Table.lookup alertKey k alerts with _ | a
    · rw [rulesUnder, hlookup] at h
      cases h
    · rw [rulesUnder_of_lookup hlookup] at h
      exact ⟨a, Table.mem_of_lookup hlookup, Table.key_of_lookup hlookup, h⟩
  · rintro ⟨a, ha, rfl, hr⟩
    rwa [rulesUnder_of_lookup (Table.lookup_of_mem hn ha)]

/-- The rules under a key are read off the cores. -/
theorem rulesUnder_eq_of_core {alerts alerts' : List AlertRow}
    (h : alerts'.map AlertRow.core = alerts.map AlertRow.core) (k : String × String) :
    rulesUnder alerts' k = rulesUnder alerts k := by
  have hfind : ∀ rows : List AlertRow, rulesUnder rows k =
      (((rows.map AlertRow.core).find? fun x => x.2.1 = k).map fun x => x.2.2).getD [] := by
    intro rows
    rw [List.find?_map, Option.map_map]
    rfl
  rw [hfind, hfind, h]

/-! ## The upsert -/

/-- Keys are taken from a sequence, and stand for the keys of the index. -/
structure AlertIndex (alerts : AlertRow → Prop) (next : Nat) : Prop where
  /-- the sequence is ahead -/
  fresh : ∀ a, alerts a → a.id < next
  /-- two rows are of one alert if they have one index key -/
  agree : ∀ a b, alerts a → alerts b → (a.id = b.id ↔ alertKey a = alertKey b)

theorem AlertIndex.of_subset {alerts alerts' : AlertRow → Prop} {next : Nat}
    (h : AlertIndex alerts next)
    (hsub : ∀ a', alerts' a' → ∃ a, alerts a ∧ a.id = a'.id ∧ alertKey a = alertKey a') :
    AlertIndex alerts' next := by
  constructor
  · intro a' ha'
    obtain ⟨a, ha, hid, -⟩ := hsub a' ha'
    exact hid ▸ h.fresh a ha
  · intro a' b' ha' hb'
    obtain ⟨a, ha, hid, hkey⟩ := hsub a' ha'
    obtain ⟨b, hb, hid', hkey'⟩ := hsub b' hb'
    rw [← hid, ← hid', ← hkey, ← hkey']
    exact h.agree a b ha hb

namespace World

section Upsert

variable {now next : Nat} {committed staged : List AlertRow} {us : List UpsertRow}

/-- The rules of the row that is written. -/
theorem mem_upsertRow {u : UpsertRow} {r : Nat} :
    r ∈ (upsertRow now next (found committed staged (rowKey u)) u).1.matchedRules ↔
      r ∈ u.matchedRules ∨
        ∃ b, found committed staged (rowKey u) = some b ∧ r ∈ b.matchedRules := by
  rcases found committed staged (rowKey u) with _ | b
  · simp [upsertRow, insertRow]
  · simp [upsertRow, extendRow, mem_mergeRules, or_comm]

/-- Staging a row replaces the rules under its key. -/
theorem rulesUnder_stageAlert (a : AlertRow) (k : String × String) :
    rulesUnder (stageAlert a staged) k
      = if alertKey a = k then a.matchedRules else rulesUnder staged k := by
  rw [rulesUnder, lookup_stageAlert]
  split
  · rfl
  · rfl

/-- The first row of a statement is staged before the others. -/
theorem staged_upsertAll_cons (u : UpsertRow) :
    (upsertAll now committed (u :: us) next staged).2.2 =
      (upsertAll now committed us
        (if (upsertRow now next (found committed staged (rowKey u)) u).2 then next + 1 else next)
        (stageAlert (upsertRow now next (found committed staged (rowKey u)) u).1 staged)).2.2 :=
  rfl

/-- What an upsert stages is staged under the keys of before, or under those of its rows. -/
theorem key_upsertAll {a : AlertRow} (h : a ∈ (upsertAll now committed us next staged).2.2) :
    alertKey a ∈ staged.map alertKey ∨ alertKey a ∈ us.map rowKey := by
  induction us generalizing next staged with
  | nil => exact .inl (List.mem_map_of_mem h)
  | cons u us ih =>
    rw [staged_upsertAll_cons] at h
    rcases ih h with hold | hrow
    · obtain ⟨b, hb, hkey⟩ := List.mem_map.mp hold
      rcases mem_stageAlert hb with rfl | hb
      · rw [← hkey]
        exact .inr (List.mem_cons.mpr (.inl (alertKey_upsertRow now next u)))
      · exact .inl (hkey ▸ List.mem_map_of_mem hb)
    · exact .inr (List.mem_cons_of_mem _ hrow)

/-- Keys stay unique. -/
theorem nodup_upsertAll (h : (staged.map alertKey).Nodup) :
    ((upsertAll now committed us next staged).2.2.map alertKey).Nodup := by
  induction us generalizing next staged with
  | nil => exact h
  | cons u us ih => exact ih (nodup_stageAlert h)

/-- Staged rows carry the rules that are committed under their keys. -/
def Grown (committed staged : List AlertRow) : Prop :=
  ∀ a ∈ staged, ∀ r ∈ rulesUnder committed (alertKey a), r ∈ a.matchedRules

/-- An upsert extends what it finds. -/
theorem Grown.upsertAll (h : Grown committed staged) :
    Grown committed (upsertAll now committed us next staged).2.2 := by
  induction us generalizing next staged with
  | nil => exact h
  | cons u us ih =>
    rw [staged_upsertAll_cons]
    refine ih fun a ha r hr => ?_
    rcases mem_stageAlert ha with rfl | ha
    · rw [alertKey_upsertRow] at hr
      refine mem_upsertRow.mpr (.inr ?_)
      rcases hstaged : Table.lookup alertKey (rowKey u) staged with _ | b
      · rcases hlookup : Table.lookup alertKey (rowKey u) committed with _ | b
        · rw [rulesUnder, hlookup] at hr
          cases hr
        · rw [rulesUnder_of_lookup hlookup] at hr
          exact ⟨b, by rw [found, hstaged, hlookup]; rfl, hr⟩
      · have hkey : alertKey b = rowKey u := Table.key_of_lookup hstaged
        refine ⟨b, by rw [found, hstaged]; rfl, ?_⟩
        exact h b (Table.mem_of_lookup hstaged) r (hkey ▸ hr)
    · exact h a ha r hr

/-- **What an upsert adds**: under the keys of its rows the rules of these rows, and what is
committed there. -/
theorem mem_rulesUnder_upsertAll {k : String × String} {r : Nat} :
    r ∈ rulesUnder (upsertAll now committed us next staged).2.2 k →
      r ∈ rulesUnder staged k ∨ r ∈ rulesUnder committed k ∨
        ∃ u ∈ us, rowKey u = k ∧ r ∈ u.matchedRules := by
  induction us generalizing next staged with
  | nil => exact .inl
  | cons u us ih =>
    intro h
    rw [staged_upsertAll_cons] at h
    rcases ih h with hstaged | hcommitted | ⟨u', hu', hrow⟩
    · rw [rulesUnder_stageAlert, alertKey_upsertRow] at hstaged
      split at hstaged
      · rename_i hk
        rcases mem_upsertRow.mp hstaged with hr | ⟨b, hb, hr⟩
        · exact .inr (.inr ⟨u, List.mem_cons_self, hk, hr⟩)
        · rw [hk] at hb
          rcases Option.or_eq_some_iff.mp hb with hb | ⟨-, hb⟩
          · exact .inl (rulesUnder_of_lookup hb ▸ hr)
          · exact .inr (.inl (rulesUnder_of_lookup hb ▸ hr))
      · exact .inl hstaged
    · exact .inr (.inl hcommitted)
    · exact .inr (.inr ⟨u', List.mem_cons_of_mem _ hu', hrow⟩)

/-- What is staged stays. -/
theorem rulesUnder_subset_upsertAll {k : String × String} {r : Nat}
    (h : r ∈ rulesUnder staged k) :
    r ∈ rulesUnder (upsertAll now committed us next staged).2.2 k := by
  induction us generalizing next staged with
  | nil => exact h
  | cons u us ih =>
    rw [staged_upsertAll_cons]
    refine ih ?_
    rw [rulesUnder_stageAlert, alertKey_upsertRow]
    split
    · rename_i hk
      refine mem_upsertRow.mpr (.inr ?_)
      rcases hlookup : Table.lookup alertKey k staged with _ | b
      · rw [rulesUnder, hlookup] at h
        cases h
      · rw [rulesUnder_of_lookup hlookup] at h
        exact ⟨b, by rw [found, hk, hlookup]; rfl, h⟩
    · exact h

/-- Every row of the statement leaves its rules under its key. -/
theorem mem_rulesUnder_of_row {u : UpsertRow} (hu : u ∈ us) {r : Nat}
    (hr : r ∈ u.matchedRules) :
    r ∈ rulesUnder (upsertAll now committed us next staged).2.2 (rowKey u) := by
  induction us generalizing next staged with
  | nil => cases hu
  | cons u' us ih =>
    rw [staged_upsertAll_cons]
    rcases List.mem_cons.mp hu with rfl | hu
    · refine rulesUnder_subset_upsertAll ?_
      rw [rulesUnder_stageAlert, alertKey_upsertRow, if_pos rfl]
      exact mem_upsertRow.mpr (.inl hr)
    · exact ih hu

/-- **The upsert keeps the index**, if other transactions hold none of its keys. -/
theorem index_upsertAll {base : AlertRow → Prop} (hcommitted : ∀ a ∈ committed, base a)
    (hfree : ∀ a, base a → a ∈ committed ∨ alertKey a ∉ us.map rowKey)
    (h : AlertIndex (fun a => base a ∨ a ∈ staged) next) :
    AlertIndex (fun a => base a ∨ a ∈ (upsertAll now committed us next staged).2.2)
      (upsertAll now committed us next staged).2.1 := by
  induction us generalizing next staged with
  | nil => exact h
  | cons u us ih =>
    have hrest : ∀ a, base a → a ∈ committed ∨ alertKey a ∉ us.map rowKey := fun a ha =>
      (hfree a ha).imp_right fun hno hmem => hno (List.mem_cons_of_mem _ hmem)
    rcases hfound : found committed staged (rowKey u) with _ | b
    · -- no row has the key of the new one, and none its id
      have hnokey : ∀ a, base a ∨ a ∈ staged → alertKey a ≠ rowKey u := by
        obtain ⟨hstaged, hcommitted⟩ := Option.or_eq_none_iff.mp hfound
        rintro a (ha | ha) hkey
        · rcases hfree a ha with hmem | hno
          · exact Table.lookup_eq_none.mp hcommitted a hmem hkey
          · exact hno (List.mem_cons.mpr (.inl hkey))
        · exact Table.lookup_eq_none.mp hstaged a ha hkey
      have hnew : AlertIndex
          (fun a => base a ∨ a ∈ stageAlert (insertRow now next u) staged) (next + 1) := by
        have hcases : ∀ a, base a ∨ a ∈ stageAlert (insertRow now next u) staged →
            (base a ∨ a ∈ staged) ∨ a = insertRow now next u := by
          rintro a (ha | ha)
          · exact .inl (.inl ha)
          · exact (mem_stageAlert ha).elim .inr fun ha => .inl (.inr ha)
        constructor
        · intro a ha
          rcases hcases a ha with hold | rfl
          · exact Nat.lt_succ_of_lt (h.fresh a hold)
          · exact Nat.lt_succ_self next
        · intro a b ha hb
          rcases hcases a ha with holda | rfl <;> rcases hcases b hb with holdb | rfl
          · exact h.agree a b holda holdb
          · exact iff_of_false (Nat.ne_of_lt (h.fresh a holda)) (hnokey a holda)
          · exact iff_of_false (Nat.ne_of_lt (h.fresh b holdb)).symm (hnokey b holdb).symm
          · exact iff_of_true rfl rfl
      have hall := ih hrest hnew
      have hlookup := hfound
      unfold found at hlookup
      simpa only [upsertAll, hlookup, upsertRow, if_true] using hall
    -- the row that is there keeps its key and its id
    · have hextended : AlertIndex
          (fun a => base a ∨ a ∈ stageAlert (extendRow b u) staged) next := by
        refine h.of_subset ?_
        rintro a (ha | ha)
        · exact ⟨a, .inl ha, rfl, rfl⟩
        · rcases mem_stageAlert ha with rfl | ha
          · refine ⟨b, ?_, rfl, rfl⟩
            rcases Option.or_eq_some_iff.mp hfound with hb | ⟨-, hb⟩
            · exact .inr (Table.mem_of_lookup hb)
            · exact .inl (hcommitted b (Table.mem_of_lookup hb))
          · exact ⟨a, .inr ha, rfl, rfl⟩
      have hall := ih hrest hextended
      have hlookup := hfound
      unfold found at hlookup
      simpa only [upsertAll, hlookup, upsertRow, if_false, Bool.false_eq_true] using hall

end Upsert

/-! ## The invariant -/

/-- The index is unique, of what is stored and of what is staged. -/
structure AlertsUnique (w : World) : Prop where
  /-- keys of rows and keys of the index agree -/
  index : AlertIndex w.HasAlert w.nextAlertId
  /-- the stored alerts -/
  alerts : (w.alerts.map alertKey).Nodup
  /-- the alerts of a transaction -/
  staged : ∀ pid t, w.txn pid = some t → (t.alerts.map alertKey).Nodup
  /-- the alerts of two transactions -/
  others : ∀ p q t t', p ≠ q → w.txn p = some t → w.txn q = some t' →
    ∀ a ∈ t.alerts, ∀ b ∈ t'.alerts, alertKey a ≠ alertKey b
  /-- what is staged extends what is stored -/
  grown : ∀ pid t, w.txn pid = some t → Grown w.alerts t.alerts

variable {pid : Nat} {w w' : World} {c : Call}

/-- What neither stages nor commits a row. -/
theorem AlertsUnique.congr (h : w.AlertsUnique) (hnext : w'.nextAlertId = w.nextAlertId)
    (halerts : w'.alerts.map AlertRow.core = w.alerts.map AlertRow.core)
    (htxn : ∀ q t', w'.txn q = some t' → t'.alerts = [] ∨
      ∃ t, w.txn q = some t ∧ t'.alerts = t.alerts) : w'.AlertsUnique := by
  have hkeys : w'.alerts.map alertKey = w.alerts.map alertKey := by
    have hmap := congrArg (List.map fun x : Nat × (String × String) × List Nat => x.2.1) halerts
    rwa [List.map_map, List.map_map] at hmap
  constructor
  · rw [hnext]
    refine h.index.of_subset ?_
    rintro a' (ha' | ⟨q, t', ht', ha'⟩)
    · have hcore := List.mem_map_of_mem (f := AlertRow.core) ha'
      rw [halerts] at hcore
      obtain ⟨a, ha, heq⟩ := List.mem_map.mp hcore
      obtain ⟨hid, hrest⟩ := Prod.mk.inj heq
      exact ⟨a, .inl ha, hid, (Prod.mk.inj hrest).1⟩
    · rcases htxn q t' ht' with hnil | ⟨t, ht, heq⟩
      · rw [hnil] at ha'
        cases ha'
      · exact ⟨a', .inr ⟨q, t, ht, heq ▸ ha'⟩, rfl, rfl⟩
  · rw [hkeys]
    exact h.alerts
  · intro q t' ht'
    rcases htxn q t' ht' with hnil | ⟨t, ht, heq⟩
    · rw [hnil]
      exact List.nodup_nil
    · rw [heq]
      exact h.staged q t ht
  · intro p q t₁ t₂ hne ht₁ ht₂ a ha b hb
    rcases htxn p t₁ ht₁ with hnil | ⟨t, ht, heq⟩
    · rw [hnil] at ha
      cases ha
    rcases htxn q t₂ ht₂ with hnil | ⟨t', ht', heq'⟩
    · rw [hnil] at hb
      cases hb
    exact h.others p q t t' hne ht ht' a (heq ▸ ha) b (heq' ▸ hb)
  · intro q t' ht' a ha r hr
    rw [rulesUnder_eq_of_core halerts] at hr
    rcases htxn q t' ht' with hnil | ⟨t, ht, heq⟩
    · rw [hnil] at ha
      cases ha
    · exact h.grown q t ht a (heq ▸ ha) r hr

/-- An upsert goes ahead if no other transaction holds one of its keys. -/
theorem upsertAlerts_eq_some {rows : List UpsertRow} {out : List UpsertedAlert}
    (h : w.upsertAlerts pid rows = some (out, w')) :
    ∃ t, w.txn pid = some t ∧
      (∀ q t', q ≠ pid → w.txn q = some t' → ∀ a ∈ t'.alerts, alertKey a ∉ rows.map rowKey) ∧
      w' = { w.setTxn pid { t with
          alerts := (upsertAll w.now w.alerts rows w.nextAlertId t.alerts).2.2 } with
        nextAlertId := (upsertAll w.now w.alerts rows w.nextAlertId t.alerts).2.1 } := by
  unfold upsertAlerts at h
  split at h
  · cases h
  rename_i t ht
  split at h
  · cases h
  rename_i hfree
  obtain ⟨-, rfl⟩ := Prod.mk.inj (Option.some.inj h)
  refine ⟨t, ht, fun q t' hne hq a ha hkey => hfree ?_, rfl⟩
  refine List.any_eq_true.mpr ⟨t', mem_otherTxns hne hq, List.any_eq_true.mpr ⟨a, ha, ?_⟩⟩
  exact List.contains_iff_mem.mpr hkey

/-- **An upsert** waits for the keys it needs. -/
theorem AlertsUnique.upsertAlerts (h : w.AlertsUnique) {rows : List UpsertRow}
    {out : List UpsertedAlert} (hs : w.upsertAlerts pid rows = some (out, w')) :
    w'.AlertsUnique := by
  obtain ⟨t, ht, hfree, rfl⟩ := upsertAlerts_eq_some hs
  set res := upsertAll w.now w.alerts rows w.nextAlertId t.alerts with hres
  have htxn : ∀ q t', ({ w.setTxn pid { t with alerts := res.2.2 } with
      nextAlertId := res.2.1 } : World).txn q = some t' →
      (q = pid ∧ t'.alerts = res.2.2) ∨ (q ≠ pid ∧ w.txn q = some t') := by
    intro q t' ht'
    change (w.setTxn pid _).txn q = some t' at ht'
    rw [txn_setTxn] at ht'
    split at ht'
    · obtain rfl := Option.some.inj ht'
      exact .inl ⟨‹_›, rfl⟩
    · exact .inr ⟨‹_›, ht'⟩
  -- the rows of the others are under other keys
  have hother : ∀ q t', q ≠ pid → w.txn q = some t' → ∀ a ∈ t'.alerts, ∀ b ∈ res.2.2,
      alertKey a ≠ alertKey b := by
    intro q t' hne ht' a ha b hb hkey
    rcases key_upsertAll hb with hstaged | hrow
    · obtain ⟨b', hb', heq⟩ := List.mem_map.mp hstaged
      exact h.others q pid t' t hne ht' ht a ha b' hb' (hkey.trans heq.symm)
    · exact hfree q t' hne ht' a ha (hkey ▸ hrow)
  constructor
  · let base : AlertRow → Prop := fun a =>
      a ∈ w.alerts ∨ ∃ q t', q ≠ pid ∧ w.txn q = some t' ∧ a ∈ t'.alerts
    have hbase : AlertIndex (fun a => base a ∨ a ∈ t.alerts) w.nextAlertId := by
      refine h.index.of_subset ?_
      rintro a ((ha | ⟨q, t', -, ht', ha⟩) | ha)
      · exact ⟨a, .inl ha, rfl, rfl⟩
      · exact ⟨a, .inr ⟨q, t', ht', ha⟩, rfl, rfl⟩
      · exact ⟨a, .inr ⟨pid, t, ht, ha⟩, rfl, rfl⟩
    have hindex : AlertIndex (fun a => base a ∨ a ∈ res.2.2) res.2.1 := index_upsertAll
      (fun a ha => .inl ha) (fun a ha => ha.imp id fun ⟨q, t', hne, ht', ha⟩ =>
        hfree q t' hne ht' a ha) hbase
    refine hindex.of_subset ?_
    rintro a (ha | ⟨q, t', ht', ha⟩)
    · exact ⟨a, .inl (.inl ha), rfl, rfl⟩
    · rcases htxn q t' ht' with ⟨-, heq⟩ | ⟨hne, hold⟩
      · exact ⟨a, .inr (heq ▸ ha), rfl, rfl⟩
      · exact ⟨a, .inl (.inr ⟨q, t', hne, hold, ha⟩), rfl, rfl⟩
  · exact h.alerts
  · intro q t' ht'
    rcases htxn q t' ht' with ⟨-, heq⟩ | ⟨-, hold⟩
    · rw [heq]
      exact nodup_upsertAll (h.staged pid t ht)
    · exact h.staged q t' hold
  · intro p q t₁ t₂ hne ht₁ ht₂ a ha b hb
    rcases htxn p t₁ ht₁ with ⟨rfl, heq⟩ | ⟨hp, hold⟩
    · rcases htxn q t₂ ht₂ with ⟨rfl, -⟩ | ⟨hq, hold'⟩
      · exact absurd rfl hne
      · exact (hother q t₂ hq hold' b hb a (heq ▸ ha)).symm
    · rcases htxn q t₂ ht₂ with ⟨rfl, heq'⟩ | ⟨-, hold'⟩
      · exact hother p t₁ hp hold a ha b (heq' ▸ hb)
      · exact h.others p q t₁ t₂ hne hold hold' a ha b hb
  · intro q t' ht'
    rcases htxn q t' ht' with ⟨-, heq⟩ | ⟨-, hold⟩
    · rw [heq]
      exact (h.grown pid t ht).upsertAll
    · exact h.grown q t' hold

/-! ## The commit -/

theorem AlertsUnique.fits (h : w.AlertsUnique) {t : Txn} (ht : w.txn pid = some t) :
    Fits w.alerts t.alerts := by
  intro a ha r hr
  refine h.index.agree a r ?_ (.inr ⟨pid, t, ht, hr⟩)
  exact (List.mem_append.mp ha).imp id fun ha => ⟨pid, t, ht, ha⟩

/-- **A commit** adds the rules that were staged to those that were stored, key by key. -/
theorem AlertsUnique.mem_rulesUnder_commit (h : w.AlertsUnique) {t : Txn}
    (ht : w.txn pid = some t) {k : String × String} {r : Nat} :
    r ∈ rulesUnder (t.alerts.foldl commitAlert w.alerts) k ↔
      r ∈ rulesUnder w.alerts k ∨ r ∈ rulesUnder t.alerts k := by
  have hlookup := lookup_foldl_commitAlert (h.staged pid t ht) (h.fits ht) k
  rcases hstaged : Table.lookup alertKey k t.alerts with _ | b
  · have hnone : rulesUnder t.alerts k = [] := by rw [rulesUnder, hstaged]; rfl
    rw [hstaged] at hlookup
    rw [rulesUnder, hlookup, hnone]
    simp [rulesUnder]
  · rw [hstaged] at hlookup
    have hrules : (committedRow (Table.lookup alertKey k w.alerts) b).matchedRules
        = b.matchedRules := by
      cases Table.lookup alertKey k w.alerts <;> rfl
    have hkey : alertKey b = k := Table.key_of_lookup hstaged
    rw [rulesUnder_of_lookup hlookup, rulesUnder_of_lookup hstaged, hrules]
    refine ⟨.inr, fun hr => hr.elim (fun hr => ?_) id⟩
    exact h.grown pid t ht b (Table.mem_of_lookup hstaged) r (hkey ▸ hr)

/-- A commit leaves the index unique. -/
theorem AlertsUnique.commit (h : w.AlertsUnique) : (w.commitTxn pid).AlertsUnique := by
  rcases ht : w.txn pid with _ | t
  · rwa [commitTxn, ht]
  have hcommit : w.commitTxn pid = { w.dropTxn pid with
      entries := w.entries ++ t.entries
      alerts := t.alerts.foldl commitAlert w.alerts
      fetchLogs := w.fetchLogs ++ t.fetchLogs
      feeds := t.feedUpdates.foldl (fun fs u => Feeds.updateAfterFetch w.now u fs) w.feeds } := by
    rw [commitTxn, ht]
  rw [hcommit]
  have hold : ∀ q t', (w.dropTxn pid).txn q = some t' → q ≠ pid ∧ w.txn q = some t' := by
    intro q t' ht'
    rw [txn_dropTxn] at ht'
    exact Option.ite_none_left_eq_some.mp ht'
  constructor
  · refine h.index.of_subset ?_
    rintro a' (ha' | ⟨q, t', ht', ha'⟩)
    · obtain ⟨b, hb, x, -, -, rfl⟩ := merged_foldl_commitAlert ha'
      refine ⟨b, ?_, rfl, rfl⟩
      exact (List.mem_append.mp hb).imp id fun hb => ⟨pid, t, ht, hb⟩
    · exact ⟨a', .inr ⟨q, t', (hold q t' ht').2, ha'⟩, rfl, rfl⟩
  · exact nodup_foldl_commitAlert (h.fits ht) h.alerts
  · exact fun q t' ht' => h.staged q t' (hold q t' ht').2
  · exact fun p q t₁ t₂ hne ht₁ ht₂ =>
      h.others p q t₁ t₂ hne (hold p t₁ ht₁).2 (hold q t₂ ht₂).2
  · -- the commit changes nothing under the keys the others have staged
    intro q t' ht' a ha r hr
    obtain ⟨hq, ht'⟩ := hold q t' ht'
    rcases (h.mem_rulesUnder_commit ht).mp hr with hr | hr
    · exact h.grown q t' ht' a ha r hr
    · obtain ⟨b, hb, hkey, -⟩ := (mem_rulesUnder (h.staged pid t ht)).mp hr
      exact absurd hkey.symm (h.others q pid t' t hq ht' ht a ha b hb)

/-! ## Calls -/

/-- Other calls write neither keys nor rules of stored alerts. -/
theorem cores_effect (h : CallEffect pid w c w') (hc : c ≠ .ingest .commit) :
    w'.alerts.map AlertRow.core = w.alerts.map AlertRow.core := by
  cases h with
  | writeAlert id s =>
    refine Table.map_updateWhere AlertRow.core w.alerts fun a => ?_
    simp [AlertRow.core, alertKey]
  | converge c p => exact Table.map_updateWhere AlertRow.core w.alerts fun _ => rfl
  | commit => exact absurd rfl hc
  | _ => rfl

/-- **Every call keeps the index unique.** -/
theorem AlertsUnique.serve (h : w.AlertsUnique) {ch : Choice} {a : c.Reply}
    (hs : c.serve pid w ch = some (a, w')) : w'.AlertsUnique := by
  have heffect := serve_effect hs
  by_cases hupsert : ∃ rows, c = .ingest (.upsertAlerts rows)
  · obtain ⟨rows, rfl⟩ := hupsert
    exact h.upsertAlerts hs
  by_cases hcommit : c = .ingest .commit
  · subst hcommit
    obtain ⟨-, rfl⟩ := Prod.mk.inj (Option.some.inj hs)
    exact h.commit
  refine h.congr (nextAlertId_effect heffect fun rows hc => hupsert ⟨rows, hc⟩)
    (cores_effect heffect hcommit) fun q t' ht' => ?_
  rcases txnStep_effect heffect ht' with rfl | ⟨t, ht, -, hstep⟩
  · exact .inl rfl
  · refine .inr ⟨t, ht, ?_⟩
    cases hstep with
    | alerts rows hc => exact absurd ⟨rows, hc⟩ hupsert
    | _ => rfl

theorem alertsUnique_quiet (h : w.AlertsUnique) (hquiet : System.QuietStep w w') :
    w'.AlertsUnique := by
  cases hquiet with
  | dropTxn pid =>
    refine h.congr rfl rfl fun q t ht => .inr ⟨t, ?_, rfl⟩
    rw [txn_dropTxn] at ht
    exact (Option.ite_none_left_eq_some.mp ht).2
  | _ => exact ⟨h.index, h.alerts, h.staged, h.others, h.grown⟩

/-! ## Primary rules -/

/-- The primary rule of an alert is one of those that matched. -/
def PrimaryMatched (w : World) : Prop := ∀ a, w.HasAlert a → a.ruleId ∈ a.matchedRules

theorem primary_upsertAll {now next : Nat} {committed staged : List AlertRow}
    {us : List UpsertRow} (hus : ∀ u ∈ us, u.ruleId ∈ u.matchedRules)
    (hcommitted : ∀ a ∈ committed, a.ruleId ∈ a.matchedRules)
    (hstaged : ∀ a ∈ staged, a.ruleId ∈ a.matchedRules) :
    ∀ a ∈ (upsertAll now committed us next staged).2.2, a.ruleId ∈ a.matchedRules := by
  induction us generalizing next staged with
  | nil => exact hstaged
  | cons u us ih =>
    rw [staged_upsertAll_cons]
    refine ih (fun u' hu' => hus u' (List.mem_cons_of_mem _ hu')) fun a ha => ?_
    rcases mem_stageAlert ha with rfl | ha
    · rcases hfound : found committed staged (rowKey u) with _ | b
      · exact hus u List.mem_cons_self
      · have hb : b.ruleId ∈ b.matchedRules := by
          rcases Option.or_eq_some_iff.mp hfound with hb | ⟨-, hb⟩
          · exact hstaged b (Table.mem_of_lookup hb)
          · exact hcommitted b (Table.mem_of_lookup hb)
        exact mem_mergeRules.mpr (.inl hb)
    · exact hstaged a ha

/-- A commit keeps the primary rule of a row that it extends. -/
theorem primary_commit (hp : w.PrimaryMatched) (h : w.AlertsUnique) :
    (w.commitTxn pid).PrimaryMatched := by
  rcases ht : w.txn pid with _ | t
  · rwa [commitTxn, ht]
  have hkeys : ((w.commitTxn pid).alerts.map alertKey).Nodup := h.commit.alerts
  have hcommit : w.commitTxn pid = { w.dropTxn pid with
      entries := w.entries ++ t.entries
      alerts := t.alerts.foldl commitAlert w.alerts
      fetchLogs := w.fetchLogs ++ t.fetchLogs
      feeds := t.feedUpdates.foldl (fun fs u => Feeds.updateAfterFetch w.now u fs) w.feeds } := by
    rw [commitTxn, ht]
  rw [hcommit] at hkeys ⊢
  rintro a (ha | ⟨q, t', ht', ha⟩)
  · have hlookup := lookup_foldl_commitAlert (h.staged pid t ht) (h.fits ht) (alertKey a)
    rw [Table.lookup_of_mem hkeys ha] at hlookup
    rcases hstaged : Table.lookup alertKey (alertKey a) t.alerts with _ | r
    · rw [hstaged] at hlookup
      exact hp a (.inl (Table.mem_of_lookup hlookup.symm))
    rw [hstaged] at hlookup
    have hr := Table.mem_of_lookup hstaged
    rcases hstored : Table.lookup alertKey (alertKey a) w.alerts with _ | b
    · rw [hstored] at hlookup
      obtain rfl : a = r := Option.some.inj hlookup
      exact hp a (.inr ⟨pid, t, ht, hr⟩)
    · rw [hstored] at hlookup
      obtain rfl : a = { b with matchedRules := r.matchedRules } := Option.some.inj hlookup
      have hkey : alertKey r = alertKey b := Table.key_of_lookup hstaged
      refine h.grown pid t ht r hr b.ruleId ?_
      have hrules : rulesUnder w.alerts (alertKey b) = b.matchedRules :=
        rulesUnder_of_lookup hstored
      rw [hkey, hrules]
      exact hp b (.inl (Table.mem_of_lookup hstored))
  · refine hp a (.inr ⟨q, t', ?_, ha⟩)
    change (w.dropTxn pid).txn q = some t' at ht'
    rw [txn_dropTxn] at ht'
    exact (Option.ite_none_left_eq_some.mp ht').2

/-- A call keeps the primary rules, if it upserts rows that carry theirs. -/
theorem PrimaryMatched.serve (hp : w.PrimaryMatched) (h : w.AlertsUnique)
    (hc : ∀ rows, c = .ingest (.upsertAlerts rows) → ∀ u ∈ rows, u.ruleId ∈ u.matchedRules)
    {ch : Choice} {a : c.Reply} (hs : c.serve pid w ch = some (a, w')) : w'.PrimaryMatched := by
  have heffect := serve_effect hs
  by_cases hcommit : c = .ingest .commit
  · subst hcommit
    obtain ⟨-, rfl⟩ := Prod.mk.inj (Option.some.inj hs)
    exact primary_commit hp h
  rintro x (hx | ⟨q, t', ht', hx⟩)
  · obtain ⟨b, hb, -, -, -, hrule, hrules⟩ := alerts_effect heffect hcommit x hx
    rw [hrule, hrules]
    exact hp b (.inl hb)
  rcases txnStep_effect heffect ht' with rfl | ⟨t, ht, -, hstep⟩
  · cases hx
  · cases hstep with
    | alerts rows hrows =>
      exact primary_upsertAll (hc rows hrows) (fun a ha => hp a (.inl ha))
        (fun a ha => hp a (.inr ⟨q, t, ht, ha⟩)) x hx
    | _ => exact hp x (.inr ⟨q, _, ht, hx⟩)

end World

end Feedpulse
