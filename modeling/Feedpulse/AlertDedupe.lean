import Feedpulse.AlertBatch
import Feedpulse.Frames
import Feedpulse.Ledger
import Feedpulse.System
import Mathlib.Logic.Function.Basic

/-!
# One alert per article

Any number of ingestion transactions upsert the alerts of their batches, row by row and in any
interleaving, commit or are dropped, while other processes update alerts that are committed.
`oneAlertPerArticle`: in every state of every run, there is exactly one alert per key that a
committed batch contributed to, it carries exactly the rules contributed to its key, exactly
one row of one committed batch reported it as created, and none of another tenant reached it.

The alerts and what is staged of them represent a ledger of rows in the sense of `Ledger`:
`Represents` is the invariant, with one lemma for each kind of step.
-/

namespace Feedpulse

open AlertUpsert

/-! ## The system -/

/-- A row of a statement, with the row its `RETURNING` clause answered. -/
abbrev Contribution := UpsertRow × UpsertedAlert

/-- A statement with the rows that have been upserted. -/
structure ExecutedBatch where
  /-- the batch the statement is for -/
  batch : IngestionBatch
  /-- its rows so far -/
  returned : List Contribution
  deriving DecidableEq, Repr

/-- The ids a statement reports as created. -/
def ExecutedBatch.created (e : ExecutedBatch) : List Nat :=
  (e.returned.filter fun c => c.2.inserted).map fun c => c.2.id

/-- The statements of an open transaction. -/
structure OpenUpserts where
  /-- the statements that have ended -/
  finished : List ExecutedBatch
  /-- the last statement -/
  current : ExecutedBatch
  /-- the rows of the last statement that are still to be upserted -/
  todo : List UpsertRow
  deriving DecidableEq, Repr

/-- All statements of the transaction. -/
def OpenUpserts.executed (o : OpenUpserts) : List ExecutedBatch := o.finished ++ [o.current]

/-- The state: the tables, the open transactions, and the statements that were committed. -/
structure Upserts where
  /-- the shared state -/
  world : World
  /-- the open transactions -/
  running : Nat → Option OpenUpserts
  /-- the committed statements -/
  committed : List ExecutedBatch

/-- A step. -/
inductive UpsertAction
  /-- a transaction begins with a batch -/
  | begin (pid : Nat) (batch : IngestionBatch)
  /-- the transaction goes on with another batch -/
  | next (pid : Nat) (batch : IngestionBatch)
  /-- the next row of its statement is upserted -/
  | upsert (pid : Nat)
  /-- the transaction commits -/
  | commit (pid : Nat)
  /-- the transaction is dropped -/
  | abort (pid : Nat)
  /-- a committed alert is updated -/
  | write (id : Nat) (s : AlertWrite)
  deriving DecidableEq, Repr

namespace Upserts

section Step

variable (canonicalizeArticleLink : Option String → Option String)

/-- One step. -/
def step (s : Upserts) : UpsertAction → Option Upserts
  | .begin pid batch =>
    match s.running pid with
    | none => some
      { s with
        world := s.world.setTxn pid Txn.empty
        running := Function.update s.running pid (some
          { finished := []
            current := { batch := batch, returned := [] }
            todo := batch.statement canonicalizeArticleLink }) }
    | some _ => none
  | .next pid batch =>
    match s.running pid with
    | some ⟨finished, current, []⟩ => some
      { s with
        running := Function.update s.running pid (some
          { finished := finished ++ [current]
            current := { batch := batch, returned := [] }
            todo := batch.statement canonicalizeArticleLink }) }
    | _ => none
  | .upsert pid =>
    match s.running pid with
    | some ⟨finished, current, u :: todo⟩ =>
      (s.world.upsertAlerts pid [u]).map fun (out, w) =>
        { s with
          world := w
          running := Function.update s.running pid (some
            { finished := finished
              current := { current with returned := current.returned ++ out.map fun o => (u, o) }
              todo := todo }) }
    | _ => none
  | .commit pid =>
    match s.running pid with
    | some ⟨finished, current, []⟩ => some
      { world := s.world.commitTxn pid
        running := Function.update s.running pid none
        committed := s.committed ++ (finished ++ [current]) }
    | _ => none
  | .abort pid =>
    match s.running pid with
    | some _ => some
      { s with
        world := s.world.dropTxn pid
        running := Function.update s.running pid none }
    | none => none
  | .write id st => some { s with world := s.world.writeAlert id st }

end Step

/-- The state before any batch: there are no alerts and no open transactions. -/
structure Init (s : Upserts) : Prop where
  /-- no alerts -/
  alerts : s.world.alerts = []
  /-- no transactions -/
  txns : s.world.txns = []
  /-- no open batches -/
  running : ∀ pid, s.running pid = none
  /-- no committed batches -/
  committed : s.committed = []

end Upserts

/-! ## Transactions -/

namespace World

theorem mem_otherTxns {w : World} {pid q : Nat} {t : Txn} (hne : q ≠ pid) (h : w.txn q = some t) :
    t ∈ w.otherTxns pid :=
  List.mem_map.mpr ⟨(q, t), List.mem_filter.mpr ⟨mem_of_txn h, by simpa using hne⟩, rfl⟩

/-- Looking up a key among the staged alerts after a write. -/
theorem lookup_stageAlert (a : AlertRow) (staged : List AlertRow) (k : String × String) :
    Table.lookup alertKey k (stageAlert a staged)
      = if alertKey a = k then some a else Table.lookup alertKey k staged := by
  unfold stageAlert
  split
  · rename_i hnone
    rw [Table.lookup_append]
    by_cases hk : alertKey a = k
    · subst hk
      rw [hnone, if_pos rfl]
      simp [Table.lookup]
    · rw [if_neg hk]
      simp [Table.lookup, hk]
  · rename_i b hb
    unfold Table.lookup Table.updateWhere at *
    rw [List.find?_map]
    have hpred : (fun b => decide (alertKey b = k)) ∘
        (fun b => if decide (alertKey b = alertKey a) = true then a else b)
        = fun b => decide (alertKey b = k) := by
      funext b
      by_cases hb : alertKey b = alertKey a
      · simp [hb]
      · simp [hb]
    rw [hpred]
    by_cases hk : alertKey a = k
    · subst hk
      have hkey : alertKey b = alertKey a := by simpa using List.find?_some hb
      rw [hb, if_pos rfl]
      simp [hkey]
    · rw [if_neg hk]
      rcases hf : staged.find? fun b => decide (alertKey b = k) with _ | c
      · rfl
      · have hkey : alertKey c = k := by simpa using List.find?_some hf
        simp [hkey, Ne.symm hk]

/-- Staging keeps the keys different. -/
theorem nodup_stageAlert {a : AlertRow} {staged : List AlertRow}
    (h : (staged.map alertKey).Nodup) : ((stageAlert a staged).map alertKey).Nodup := by
  unfold stageAlert
  split
  · rename_i hnone
    rw [List.map_append, List.nodup_append]
    refine ⟨h, List.nodup_singleton _, ?_⟩
    rintro k hk k' hk' rfl
    obtain ⟨b, hb, rfl⟩ := List.mem_map.mp hk
    exact Table.lookup_eq_none.mp hnone b hb (List.mem_singleton.mp hk')
  · have hmap : (Table.updateWhere (fun b => decide (alertKey b = alertKey a)) (fun _ => a)
        staged).map alertKey = staged.map alertKey := by
      unfold Table.updateWhere
      rw [List.map_map]
      refine List.map_congr_left fun b _ => ?_
      by_cases hb : alertKey b = alertKey a
      · simp [hb]
      · simp [hb]
    rw [hmap]
    exact h

/-- The row a statement finds under a key: staged by its own transaction, or committed. -/
def foundAlert (w : World) (t : Txn) (k : String × String) : Option AlertRow :=
  (Table.lookup alertKey k t.alerts).or (Table.lookup alertKey k w.alerts)

/-- The upsert of a single row. -/
theorem upsertAlerts_singleton {w w' : World} {pid : Nat} {u : UpsertRow}
    {out : List UpsertedAlert} (h : w.upsertAlerts pid [u] = some (out, w')) :
    ∃ t, w.txn pid = some t ∧
      (∀ q t', q ≠ pid → w.txn q = some t' → ∀ a ∈ t'.alerts, alertKey a ≠ rowKey u) ∧
      let r := upsertRow w.now w.nextAlertId (w.foundAlert t (rowKey u)) u
      out = [{ id := r.1.id, entryId := r.1.entryId, ruleId := r.1.ruleId, inserted := r.2 }] ∧
        w' = { w.setTxn pid { t with alerts := stageAlert r.1 t.alerts } with
          nextAlertId := if r.2 then w.nextAlertId + 1 else w.nextAlertId } := by
  unfold upsertAlerts at h
  split at h
  · cases h
  rename_i t ht
  split at h
  · cases h
  rename_i hfree
  obtain ⟨rfl, rfl⟩ := Prod.mk.inj (Option.some.inj h)
  refine ⟨t, ht, fun q t' hne hq a ha hkey => hfree ?_, rfl, rfl⟩
  refine List.any_eq_true.mpr ⟨t', mem_otherTxns hne hq, List.any_eq_true.mpr ⟨a, ha, ?_⟩⟩
  simp [hkey]

/-- The other transactions do not notice. -/
theorem otherTxns_setTxn (w : World) (pid : Nat) (t : Txn) :
    (w.setTxn pid t).otherTxns pid = w.otherTxns pid := by
  unfold otherTxns setTxn
  simp [List.filter_filter]

theorem setTxn_setTxn (w : World) (pid : Nat) (t t' : Txn) :
    (w.setTxn pid t).setTxn pid t' = w.setTxn pid t' := by
  unfold setTxn
  simp [List.filter_filter]

/-- **A statement is upserted row by row.** -/
theorem upsertAlerts_cons {w w' : World} {pid : Nat} {u u' : UpsertRow} {us : List UpsertRow}
    {out : List UpsertedAlert} (h : w.upsertAlerts pid (u :: u' :: us) = some (out, w')) :
    ∃ o os w₁, w.upsertAlerts pid [u] = some ([o], w₁) ∧
      w₁.upsertAlerts pid (u' :: us) = some (os, w') ∧ out = o :: os := by
  unfold upsertAlerts at h
  split at h
  · cases h
  rename_i t ht
  split at h
  · cases h
  rename_i hfree
  have hblocked : ∀ rows : List UpsertRow, (∀ r ∈ rows, r ∈ u :: u' :: us) →
      ¬ ((w.otherTxns pid).any fun o => o.alerts.any fun a =>
        (rows.map rowKey).contains (alertKey a)) = true := by
    intro rows hrows hany
    refine hfree ?_
    obtain ⟨t', ht', ha⟩ := List.any_eq_true.mp hany
    obtain ⟨a, ha, hkey⟩ := List.any_eq_true.mp ha
    refine List.any_eq_true.mpr ⟨t', ht', List.any_eq_true.mpr ⟨a, ha, ?_⟩⟩
    rw [List.contains_iff_mem] at hkey ⊢
    obtain ⟨r, hr, hk⟩ := List.mem_map.mp hkey
    exact List.mem_map.mpr ⟨r, hrows r hr, hk⟩
  set r := upsertRow w.now w.nextAlertId (w.foundAlert t (rowKey u)) u with hr
  set t₁ : Txn := { t with alerts := stageAlert r.1 t.alerts } with ht₁
  set w₁ : World := { w.setTxn pid t₁ with
    nextAlertId := if r.2 then w.nextAlertId + 1 else w.nextAlertId } with hw₁
  obtain ⟨rfl, rfl⟩ := Prod.mk.inj (Option.some.inj h)
  refine ⟨{ id := r.1.id, entryId := r.1.entryId, ruleId := r.1.ruleId, inserted := r.2 },
    (upsertAll w.now w.alerts (u' :: us) w₁.nextAlertId t₁.alerts).1, w₁, ?_, ?_, rfl⟩
  · unfold upsertAlerts
    rw [ht]
    exact if_neg (hblocked [u] fun v hv => List.mem_singleton.mp hv ▸ List.mem_cons_self)
  · have htxn : w₁.txn pid = some t₁ := (txn_setTxn w pid pid t₁).trans (if_pos rfl)
    have hothers : w₁.otherTxns pid = w.otherTxns pid := otherTxns_setTxn w pid t₁
    unfold upsertAlerts
    rw [htxn]
    refine (if_neg ?_).trans ?_
    · rw [hothers]
      exact hblocked (u' :: us) fun v hv => List.mem_cons_of_mem _ hv
    · have hsame : ∀ (next : Nat) (staged : List AlertRow),
          ({ w₁.setTxn pid { t₁ with alerts := staged } with nextAlertId := next } : World)
            = { w.setTxn pid { t with alerts := staged } with nextAlertId := next } := by
        intro next staged
        change ({ (w.setTxn pid t₁).setTxn pid { t with alerts := staged } with
          nextAlertId := next } : World) = _
        rw [setTxn_setTxn]
      exact congrArg (fun w₂ => some (_, w₂)) (hsame _ _)

/-- Ids and keys of the staged alerts agree, among each other and with the table. -/
def Fits (alerts staged : List AlertRow) : Prop :=
  ∀ a ∈ alerts ++ staged, ∀ r ∈ staged, a.id = r.id ↔ alertKey a = alertKey r

/-- A row after a commit has id and key of a row from before. -/
theorem mem_commitAlert {alerts : List AlertRow} {a r : AlertRow} (h : a ∈ commitAlert alerts r) :
    ∃ b ∈ r :: alerts, b.id = a.id ∧ alertKey b = alertKey a := by
  unfold commitAlert at h
  split at h
  · rcases List.mem_append.mp h with h | h
    · exact ⟨a, List.mem_cons_of_mem _ h, rfl, rfl⟩
    · obtain rfl := List.mem_singleton.mp h
      exact ⟨a, List.mem_cons_self, rfl, rfl⟩
  · obtain ⟨b, hb, rfl⟩ := Table.mem_updateWhere.mp h
    refine ⟨b, List.mem_cons_of_mem _ hb, ?_⟩
    split
    · exact ⟨rfl, rfl⟩
    · exact ⟨rfl, rfl⟩

/-- Committing one of the staged alerts leaves the others fitting. -/
theorem Fits.commitAlert {alerts staged : List AlertRow} {r : AlertRow}
    (h : Fits alerts (r :: staged)) : Fits (World.commitAlert alerts r) staged := by
  intro a ha r' hr'
  rcases List.mem_append.mp ha with ha | ha
  · obtain ⟨b, hb, hid, hkey⟩ := mem_commitAlert ha
    rw [← hid, ← hkey]
    refine h b ?_ r' (List.mem_cons_of_mem _ hr')
    rcases List.mem_cons.mp hb with rfl | hb
    · exact List.mem_append_right _ List.mem_cons_self
    · exact List.mem_append_left _ hb
  · exact h a (List.mem_append_right _ (List.mem_cons_of_mem _ ha)) r' (List.mem_cons_of_mem _ hr')

/-- What a staged alert makes of the one with its key. -/
def committedRow (found : Option AlertRow) (r : AlertRow) : AlertRow :=
  match found with
  | none => r
  | some a => { a with matchedRules := r.matchedRules }

theorem lookup_commitAlert {alerts : List AlertRow} {r : AlertRow}
    (h : ∀ a ∈ alerts, a.id = r.id ↔ alertKey a = alertKey r) (k : String × String) :
    Table.lookup alertKey k (commitAlert alerts r) =
      if alertKey r = k then some (committedRow (Table.lookup alertKey k alerts) r)
      else Table.lookup alertKey k alerts := by
  unfold commitAlert
  split
  · rename_i hnone
    have hno : ∀ a ∈ alerts, alertKey a ≠ alertKey r := fun a ha hkey =>
      Table.lookup_eq_none.mp hnone a ha ((h a ha).mpr hkey)
    rw [Table.lookup_append]
    by_cases hk : alertKey r = k
    · subst hk
      rw [Table.lookup_eq_none.mpr hno, if_pos rfl]
      simp [Table.lookup, committedRow]
    · rw [if_neg hk]
      simp [Table.lookup, hk]
  · rename_i b hb
    have hupdate : Table.lookup alertKey k (Table.updateWhere
          (fun b : AlertRow => decide (b.id = r.id))
          (fun b => { b with matchedRules := r.matchedRules }) alerts)
        = (Table.lookup alertKey k alerts).map fun b =>
          if decide (b.id = r.id) = true then { b with matchedRules := r.matchedRules } else b :=
      Table.lookup_updateWhere fun _ => rfl
    rw [hupdate]
    by_cases hk : alertKey r = k
    · subst hk
      rw [if_pos rfl]
      have hfound : Table.lookup alertKey (alertKey r) alerts ≠ none := by
        intro hnone
        refine Table.lookup_eq_none.mp hnone b (Table.mem_of_lookup hb) ?_
        exact (h b (Table.mem_of_lookup hb)).mp (Table.key_of_lookup hb)
      obtain ⟨a, ha⟩ := Option.ne_none_iff_exists'.mp hfound
      have hid : a.id = r.id := (h a (Table.mem_of_lookup ha)).mpr (Table.key_of_lookup ha)
      rw [ha]
      simp [committedRow, hid]
    · rw [if_neg hk]
      rcases ha : Table.lookup alertKey k alerts with _ | a
      · rfl
      · have hid : a.id ≠ r.id := fun hid => hk
          (((h a (Table.mem_of_lookup ha)).mp hid).symm.trans (Table.key_of_lookup ha))
        simp [hid]

/-- **A commit**: under the key of a staged alert stands what the alert makes of the one that
stood there, under every other key what stood there. -/
theorem lookup_foldl_commitAlert {staged alerts : List AlertRow}
    (hkeys : (staged.map alertKey).Nodup) (h : Fits alerts staged) (k : String × String) :
    Table.lookup alertKey k (staged.foldl commitAlert alerts) =
      match Table.lookup alertKey k staged with
      | none => Table.lookup alertKey k alerts
      | some r => some (committedRow (Table.lookup alertKey k alerts) r) := by
  induction staged generalizing alerts with
  | nil => rfl
  | cons r staged ih =>
    obtain ⟨hr, hstaged⟩ := List.nodup_cons.mp hkeys
    have hfit : ∀ a ∈ alerts, a.id = r.id ↔ alertKey a = alertKey r :=
      fun a ha => h a (List.mem_append_left _ ha) r List.mem_cons_self
    rw [List.foldl_cons, ih hstaged h.commitAlert, lookup_commitAlert hfit]
    by_cases hk : alertKey r = k
    · subst hk
      have hnone : Table.lookup alertKey (alertKey r) staged = none :=
        Table.lookup_eq_none.mpr fun a ha hkey => hr (hkey ▸ List.mem_map_of_mem ha)
      rw [hnone, if_pos rfl]
      simp [Table.lookup]
    · rw [if_neg hk]
      simp [Table.lookup, hk]

/-- A commit keeps the keys different. -/
theorem nodup_foldl_commitAlert {staged alerts : List AlertRow} (h : Fits alerts staged)
    (hn : (alerts.map alertKey).Nodup) :
    ((staged.foldl commitAlert alerts).map alertKey).Nodup := by
  induction staged generalizing alerts with
  | nil => exact hn
  | cons r staged ih =>
    refine ih h.commitAlert ?_
    unfold World.commitAlert
    split
    · rename_i hnone
      rw [List.map_append, List.nodup_append]
      refine ⟨hn, List.nodup_singleton _, ?_⟩
      rintro k hk k' hk' rfl
      obtain ⟨a, ha, rfl⟩ := List.mem_map.mp hk
      refine Table.lookup_eq_none.mp hnone a ha ?_
      exact (h a (List.mem_append_left _ ha) r List.mem_cons_self).mpr (List.mem_singleton.mp hk')
    · have hmap := Table.map_updateWhere alertKey (p := fun b : AlertRow => decide (b.id = r.id))
        (f := fun b => { b with matchedRules := r.matchedRules }) alerts fun _ => rfl
      rw [hmap]
      exact hn

end World

/-! ## What an alert is -/

/-- The part of an alert that upserts determine. -/
structure AlertCore where
  /-- primary key -/
  id : Nat
  /-- owner of the alert -/
  tenantId : String
  /-- the article -/
  entryId : Nat
  /-- the primary rule -/
  ruleId : Nat
  /-- every rule that matched -/
  matchedRules : List Nat
  /-- canonical form of the article's link -/
  canonicalLink : Option String
  deriving DecidableEq, Repr

namespace AlertCore

/-- The part of a row. -/
def ofRow (a : AlertRow) : AlertCore :=
  { id := a.id
    tenantId := a.tenantId
    entryId := a.entryId
    ruleId := a.ruleId
    matchedRules := a.matchedRules
    canonicalLink := a.canonicalLink }

/-- What the first contribution to a key inserts. -/
def init (c : Contribution) : AlertCore := ofRow (insertRow 0 c.2.id c.1)

/-- What a later one makes of it. -/
def merge (v : AlertCore) (c : Contribution) : AlertCore :=
  { v with matchedRules := mergeRules v.matchedRules c.1.matchedRules }

/-- What the contributions to a key amount to. -/
abbrev value (cs : List Contribution) : Option AlertCore := Ledger.value init merge cs

/-- A merge changes the rules only. -/
theorem foldl_merge (cs : List Contribution) (v : AlertCore) :
    cs.foldl merge v = { v with matchedRules := (cs.foldl merge v).matchedRules } := by
  induction cs generalizing v with
  | nil => rfl
  | cons c cs ih => exact ih (merge v c)

/-- The value takes everything but the rules from the first contribution, and carries the
rules of all of them, in order. -/
structure Describes (cs : List Contribution) (v : AlertCore) : Prop where
  /-- the first contribution -/
  head : ∃ c ∈ cs, cs.head? = some c ∧ v.id = c.2.id ∧ v.tenantId = c.1.tenantId ∧
    v.entryId = c.1.entryId ∧ v.ruleId = c.1.ruleId ∧ v.canonicalLink = c.1.canonicalLink
  /-- the rules -/
  rules : ∀ r, r ∈ v.matchedRules ↔ ∃ c ∈ cs, r ∈ c.1.matchedRules
  /-- their order -/
  sorted : (∀ c ∈ cs, c.1.WellFormed) → v.matchedRules.Pairwise (· < ·)

theorem describes_value {cs : List Contribution} {v : AlertCore} (h : value cs = some v) :
    Describes cs v := by
  refine Ledger.value_rec (P := Describes) (fun c => ?_) (fun cs c v hv => ?_) h
  · exact ⟨⟨c, List.mem_singleton.mpr rfl, rfl, rfl, rfl, rfl, rfl, rfl⟩,
      fun r => by simp [init, ofRow, insertRow],
      fun hwf => (hwf c (List.mem_singleton.mpr rfl)).sorted⟩
  · obtain ⟨d, hd, hhead, hv'⟩ := hv.head
    refine ⟨⟨d, List.mem_append_left _ hd, ?_, hv'⟩, fun r => ?_, fun hwf => ?_⟩
    · rw [List.head?_append, hhead]
      rfl
    · change r ∈ mergeRules v.matchedRules c.1.matchedRules ↔ _
      rw [mem_mergeRules, hv.rules]
      simp only [List.mem_append, List.mem_singleton, or_and_right, exists_or, exists_eq_left]
    · exact (sorted_mergeRules _ _).and (nodup_mergeRules _ _) |>.imp
        fun hab => Nat.lt_of_le_of_ne hab.1 hab.2

end AlertCore

/-! ## The ledger behind the tables -/

namespace Upserts

open Ledger AlertCore

/-- The key of a contribution. -/
abbrev contributionKey (c : Contribution) : String × String := rowKey c.1

/-- The alert it went to. -/
abbrev contributionTag (c : Contribution) : Nat := c.2.id

/-- It created the alert. -/
abbrev contributionOpens (c : Contribution) : Bool := c.2.inserted

/-- The contributions of a list of statements. -/
def contributions (es : List ExecutedBatch) : List Contribution :=
  es.flatMap ExecutedBatch.returned

theorem contributions_append (es es' : List ExecutedBatch) :
    contributions (es ++ es') = contributions es ++ contributions es' := List.flatMap_append ..

/-- The contributions of an open transaction, none for a closed one. -/
def pendingOf : Option OpenUpserts → List Contribution
  | none => []
  | some o => contributions o.executed

/-- The ledger of the contributions. -/
def ledger (s : Upserts) : Ledger Nat Contribution :=
  { committed := contributions s.committed, pending := fun pid => pendingOf (s.running pid) }

/-- The tables represent the ledger. -/
structure Represents (s : Upserts) : Prop where
  /-- the ledger is consistent -/
  consistent : s.ledger.Consistent contributionKey contributionTag contributionOpens
  /-- the committed alert with a key is what the committed contributions amount to -/
  alerts : ∀ k, (Table.lookup alertKey k s.world.alerts).map ofRow
    = value (on contributionKey k s.ledger.committed)
  /-- a staged alert is what the contributions its transaction sees amount to -/
  staged : ∀ pid t, s.world.txn pid = some t → ∀ k,
    (Table.lookup alertKey k t.alerts).map ofRow =
      if on contributionKey k (s.ledger.pending pid) = [] then none
      else value (on contributionKey k (s.ledger.visible pid))
  /-- open batches have a transaction -/
  txn : ∀ pid o, s.running pid = some o → (s.world.txn pid).isSome
  /-- committed alerts have different keys -/
  nodup : (s.world.alerts.map alertKey).Nodup
  /-- so have staged ones -/
  stagedNodup : ∀ pid t, s.world.txn pid = some t → (t.alerts.map alertKey).Nodup
  /-- the sequence is ahead of the ids in use -/
  fresh : ∀ c, s.ledger.Has c → c.2.id < s.world.nextAlertId

/-- At the beginning there is nothing to represent. -/
theorem represents_of_init {s : Upserts} (h : s.Init) : s.Represents := by
  have hledger : s.ledger = Ledger.empty := by
    unfold ledger Ledger.empty
    rw [h.committed]
    simp only [h.running]
    rfl
  have htxn : ∀ pid, s.world.txn pid = none := fun pid => by
    unfold World.txn
    rw [h.txns]
    rfl
  refine ⟨?_, fun k => ?_, fun pid t ht => ?_, fun pid o ho => ?_, ?_, fun pid t ht => ?_,
    fun c hc => ?_⟩
  · rw [hledger]
    exact consistent_empty
  · rw [hledger, h.alerts]
    rfl
  · rw [htxn] at ht
    cases ht
  · rw [h.running] at ho
    cases ho
  · rw [h.alerts]
    exact List.nodup_nil
  · rw [htxn] at ht
    cases ht
  · rw [hledger] at hc
    rcases hc with hc | ⟨_, hc⟩
    · exact absurd hc List.not_mem_nil
    · exact absurd hc List.not_mem_nil

variable {canonicalizeArticleLink : Option String → Option String} {s : Upserts}

/-- Replacing an open transaction replaces its contributions. -/
theorem ledger_update (w : World) (running : Nat → Option OpenUpserts) (pid : Nat)
    (o : Option OpenUpserts) (committed : List ExecutedBatch) :
    (Upserts.mk w (Function.update running pid o) committed).ledger
      = { committed := contributions committed
          pending := Function.update (fun q => pendingOf (running q)) pid (pendingOf o) } := by
  refine congrArg (Ledger.mk _) (funext fun q => ?_)
  change pendingOf (Function.update running pid o q) = _
  by_cases hq : q = pid
  · subst hq
    rw [Function.update_self, Function.update_self]
  · rw [Function.update_of_ne hq, Function.update_of_ne hq]

/-- A new statement of a transaction does not contribute anything yet. -/
theorem pendingOf_start (finished : List ExecutedBatch) (batch : IngestionBatch)
    (todo : List UpsertRow) :
    pendingOf (some { finished := finished, current := { batch := batch, returned := [] },
                      todo := todo }) = contributions finished := by
  change contributions (finished ++ [_]) = _
  rw [contributions_append]
  exact List.append_nil _

/-! ### Beginning -/

theorem represents_begin {pid : Nat} {batch : IngestionBatch} (h : s.Represents)
    (hfree : s.running pid = none) (todo : List UpsertRow) :
    Represents
      { s with
        world := s.world.setTxn pid Txn.empty
        running := Function.update s.running pid (some
          { finished := [], current := { batch := batch, returned := [] }, todo := todo }) } := by
  set s' : Upserts := { s with
    world := s.world.setTxn pid Txn.empty
    running := Function.update s.running pid (some
      { finished := [], current := { batch := batch, returned := [] }, todo := todo }) }
  have hpending : s.ledger.pending pid = [] := by
    change pendingOf (s.running pid) = []
    rw [hfree]
    rfl
  have hledger : s'.ledger = s.ledger := by
    refine (ledger_update ..).trans (congrArg (Ledger.mk _) ?_)
    have hsame : contributions [] = pendingOf (s.running pid) := hpending.symm
    rw [pendingOf_start, hsame]
    exact Function.update_eq_self pid fun q => pendingOf (s.running q)
  refine ⟨hledger ▸ h.consistent, fun k => hledger ▸ h.alerts k, fun q t ht k => ?_,
    fun q o ho => ?_, h.nodup, fun q t ht => ?_, hledger ▸ h.fresh⟩
  · rw [hledger]
    change (s.world.setTxn pid Txn.empty).txn q = some t at ht
    rw [World.txn_setTxn] at ht
    by_cases hq : q = pid
    · subst hq
      rw [if_pos rfl] at ht
      obtain rfl := Option.some.inj ht
      rw [hpending]
      rfl
    · rw [if_neg hq] at ht
      exact h.staged q t ht k
  · change ((s.world.setTxn pid Txn.empty).txn q).isSome = true
    change Function.update s.running pid _ q = some o at ho
    rw [World.txn_setTxn]
    by_cases hq : q = pid
    · rw [if_pos hq]
      rfl
    · rw [if_neg hq]
      rw [Function.update_of_ne hq] at ho
      exact h.txn q o ho
  · change (s.world.setTxn pid Txn.empty).txn q = some t at ht
    rw [World.txn_setTxn] at ht
    by_cases hq : q = pid
    · rw [if_pos hq] at ht
      obtain rfl := Option.some.inj ht
      exact List.nodup_nil
    · rw [if_neg hq] at ht
      exact h.stagedNodup q t ht

theorem represents_next {pid : Nat} {batch : IngestionBatch} {finished : List ExecutedBatch}
    {current : ExecutedBatch} (h : s.Represents)
    (hrunning : s.running pid = some ⟨finished, current, []⟩) (todo : List UpsertRow) :
    Represents
      { s with
        running := Function.update s.running pid (some
          { finished := finished ++ [current]
            current := { batch := batch, returned := [] }
            todo := todo }) } := by
  set s' : Upserts := { s with
    running := Function.update s.running pid (some
      { finished := finished ++ [current]
        current := { batch := batch, returned := [] }
        todo := todo }) }
  have hledger : s'.ledger = s.ledger := by
    refine (ledger_update ..).trans (congrArg (Ledger.mk _) ?_)
    have hsame : contributions (finished ++ [current]) = pendingOf (s.running pid) := by
      rw [hrunning]
      rfl
    rw [pendingOf_start, hsame]
    exact Function.update_eq_self pid fun q => pendingOf (s.running q)
  refine ⟨hledger ▸ h.consistent, fun k => hledger ▸ h.alerts k,
    fun q t ht k => hledger ▸ h.staged q t ht k, fun q o ho => ?_, h.nodup, h.stagedNodup,
    hledger ▸ h.fresh⟩
  change Function.update s.running pid _ q = some o at ho
  by_cases hq : q = pid
  · subst hq
    exact h.txn q _ hrunning
  · rw [Function.update_of_ne hq] at ho
    exact h.txn q o ho

/-! ### Dropping -/

theorem represents_abort {pid : Nat} (h : s.Represents) :
    Represents
      { s with
        world := s.world.dropTxn pid
        running := Function.update s.running pid none } := by
  set s' : Upserts := { s with
    world := s.world.dropTxn pid
    running := Function.update s.running pid none }
  have hledger : s'.ledger = s.ledger.abort pid := ledger_update ..
  refine ⟨hledger ▸ consistent_abort h.consistent, fun k => hledger ▸ h.alerts k,
    fun q t ht k => ?_, fun q o ho => ?_, h.nodup, fun q t ht => ?_, fun c hc => ?_⟩
  · change (s.world.dropTxn pid).txn q = some t at ht
    rw [World.txn_dropTxn] at ht
    by_cases hq : q = pid
    · rw [if_pos hq] at ht
      cases ht
    · rw [if_neg hq] at ht
      rw [hledger, Ledger.visible, abort_pending_of_ne hq]
      exact h.staged q t ht k
  · change ((s.world.dropTxn pid).txn q).isSome = true
    change Function.update s.running pid none q = some o at ho
    rw [World.txn_dropTxn]
    by_cases hq : q = pid
    · subst hq
      rw [Function.update_self] at ho
      cases ho
    · rw [if_neg hq]
      rw [Function.update_of_ne hq] at ho
      exact h.txn q o ho
  · change (s.world.dropTxn pid).txn q = some t at ht
    rw [World.txn_dropTxn] at ht
    by_cases hq : q = pid
    · rw [if_pos hq] at ht
      cases ht
    · rw [if_neg hq] at ht
      exact h.stagedNodup q t ht
  · rw [hledger] at hc
    exact h.fresh c (has_of_abort hc)

/-! ### Updates of committed alerts -/

@[simp] theorem ofRow_apply (now : Nat) (st : AlertWrite) (a : AlertRow) :
    ofRow (st.apply now a) = ofRow a := by
  simp [ofRow]

theorem represents_write (h : s.Represents) (id : Nat) (st : AlertWrite) :
    Represents { s with world := s.world.writeAlert id st } := by
  have hkey : ∀ a : AlertRow, alertKey (st.apply s.world.now a) = alertKey a := by
    intro a
    simp [alertKey]
  refine ⟨h.consistent, fun k => ?_, h.staged, h.txn, ?_, h.stagedNodup, h.fresh⟩
  · change (Table.lookup alertKey k (Table.updateWhere _ (st.apply s.world.now) _)).map ofRow = _
    rw [Table.lookup_updateWhere hkey, Option.map_map]
    refine Eq.trans ?_ (h.alerts k)
    refine congrArg (fun f => Option.map f _) (funext fun a => ?_)
    simp only [Function.comp_apply]
    split
    · exact ofRow_apply ..
    · rfl
  · change ((Table.updateWhere _ (st.apply s.world.now) _).map alertKey).Nodup
    rw [Table.map_updateWhere alertKey _ hkey]
    exact h.nodup

/-! ### Upserting a row -/

/-- What a statement finds under a key is what the contributions its transaction sees amount
to. -/
theorem Represents.foundAlert (h : s.Represents) {pid : Nat} {t : Txn}
    (ht : s.world.txn pid = some t) (k : String × String) :
    (s.world.foundAlert t k).map ofRow = value (on contributionKey k (s.ledger.visible pid)) := by
  have hstaged := h.staged pid t ht k
  unfold World.foundAlert
  by_cases hnil : on contributionKey k (s.ledger.pending pid) = []
  · rw [if_pos hnil, Option.map_eq_none_iff] at hstaged
    rw [hstaged, Option.none_or, visible, on_append, hnil, List.append_nil]
    exact h.alerts k
  · rw [if_neg hnil] at hstaged
    rcases hfound : Table.lookup alertKey k t.alerts with _ | a
    · rw [hfound] at hstaged
      have hvisible := value_eq_none.mp hstaged.symm
      rw [visible, on_append] at hvisible
      exact absurd (List.append_eq_nil_iff.mp hvisible).2 hnil
    · rw [hfound] at hstaged
      exact hstaged

/-- It stands under that key. -/
theorem key_of_foundAlert {w : World} {t : Txn} {k : String × String} {a : AlertRow}
    (h : w.foundAlert t k = some a) : alertKey a = k := by
  rcases Option.or_eq_some_iff.mp h with h | ⟨-, h⟩
  · exact Table.key_of_lookup h
  · exact Table.key_of_lookup h

/-- The contributions to a key are what they amount to after another one. -/
theorem value_upsertRow {cs : List Contribution} {found : Option AlertRow} {now next : Nat}
    {u : UpsertRow} {o : UpsertedAlert} (h : found.map ofRow = value cs)
    (ho : o.id = (upsertRow now next found u).1.id) :
    value (cs ++ [(u, o)]) = some (ofRow (upsertRow now next found u).1) := by
  cases found with
  | none =>
    obtain rfl := value_eq_none.mp h.symm
    change some (init (u, o)) = some (ofRow (insertRow now next u))
    unfold init
    rw [ho]
    rfl
  | some a => exact value_append_of_eq_some h.symm

/-- The contribution of an upserted row. -/
theorem ledger_upsert {pid : Nat} {finished : List ExecutedBatch} {current : ExecutedBatch}
    {u : UpsertRow} {todo : List UpsertRow}
    (hrunning : s.running pid = some ⟨finished, current, u :: todo⟩) (w : World)
    (o : UpsertedAlert) :
    (Upserts.mk w (Function.update s.running pid (some
      { finished := finished
        current := { current with returned := current.returned ++ [(u, o)] }
        todo := todo })) s.committed).ledger = s.ledger.contribute pid (u, o) := by
  refine (ledger_update ..).trans (congrArg (Ledger.mk _) ?_)
  refine congrArg (Function.update _ pid) ?_
  have hpending : s.ledger.pending pid = contributions finished ++ current.returned := by
    change pendingOf (s.running pid) = _
    rw [hrunning]
    change contributions (finished ++ [current]) = _
    rw [contributions_append]
    exact congrArg (_ ++ ·) (List.append_nil _)
  rw [hpending]
  change contributions (finished ++ [_]) = _
  rw [contributions_append, List.append_assoc]
  exact congrArg (_ ++ ·) (List.append_nil _)

/-- **An upserted row** is a contribution to the ledger. -/
theorem represents_upsert {pid : Nat} {finished : List ExecutedBatch} {current : ExecutedBatch}
    {u : UpsertRow} {todo : List UpsertRow} {t : Txn} (h : s.Represents)
    (hrunning : s.running pid = some ⟨finished, current, u :: todo⟩)
    (ht : s.world.txn pid = some t)
    (hfree : ∀ q t', q ≠ pid → s.world.txn q = some t' → ∀ a ∈ t'.alerts, alertKey a ≠ rowKey u)
    {r : AlertRow × Bool}
    (hr : r = upsertRow s.world.now s.world.nextAlertId (s.world.foundAlert t (rowKey u)) u)
    {o : UpsertedAlert} (hid : o.id = r.1.id) (hinserted : o.inserted = r.2) :
    Represents
      { s with
        world := { s.world.setTxn pid { t with alerts := World.stageAlert r.1 t.alerts } with
          nextAlertId := if r.2 then s.world.nextAlertId + 1 else s.world.nextAlertId }
        running := Function.update s.running pid (some
          { finished := finished
            current := { current with returned := current.returned ++ [(u, o)] }
            todo := todo }) } := by
  set w' : World := { s.world.setTxn pid { t with alerts := World.stageAlert r.1 t.alerts } with
    nextAlertId := if r.2 then s.world.nextAlertId + 1 else s.world.nextAlertId } with hw'
  have hledger := ledger_upsert hrunning w' o
  set s' : Upserts := { s with
    world := w'
    running := Function.update s.running pid (some
      { finished := finished
        current := { current with returned := current.returned ++ [(u, o)] }
        todo := todo }) }
  change s'.ledger = _ at hledger
  have hfound := h.foundAlert ht (rowKey u)
  have hvalue : value (on contributionKey (rowKey u) (s.ledger.visible pid) ++ [(u, o)])
      = some (ofRow r.1) := by
    rw [hr] at hid ⊢
    exact value_upsertRow hfound hid
  have hkey : alertKey r.1 = rowKey u := by
    rw [hr]
    rcases hf : s.world.foundAlert t (rowKey u) with _ | a
    · rfl
    · exact (alertKey_extendRow a u).trans (key_of_foundAlert hf)
  have hopens : o.inserted = true ↔ on contributionKey (rowKey u) (s.ledger.visible pid) = [] := by
    rw [hinserted, hr]
    rcases hf : s.world.foundAlert t (rowKey u) with _ | a
    · rw [hf] at hfound
      exact iff_of_true rfl (value_eq_none.mp hfound.symm)
    · rw [hf] at hfound
      refine iff_of_false Bool.false_ne_true fun hnil => ?_
      rw [hnil] at hfound
      cases hfound
  -- an extended alert is the one the contributions before went to
  have htag : ∀ d ∈ s.ledger.visible pid, contributionKey d = rowKey u → d.2.id = o.id := by
    intro d hd hdkey
    rcases hf : s.world.foundAlert t (rowKey u) with _ | a
    · rw [hf] at hfound
      exact absurd hdkey (on_eq_nil.mp (value_eq_none.mp hfound.symm) d hd)
    · rw [hf] at hfound
      obtain ⟨c, hc, -, hcid, -⟩ := (describes_value hfound.symm).head
      obtain ⟨hc, hckey⟩ := mem_on.mp hc
      have hoid : o.id = a.id := by
        rw [hid, hr, hf]
        rfl
      rw [hoid]
      exact (h.consistent.tagged pid d hd c hc (hdkey.trans hckey.symm)).trans hcid.symm
  have hnext : r.2 = true → o.id = s.world.nextAlertId := by
    intro hins
    rw [hid, hr]
    rw [hr] at hins
    rcases hf : s.world.foundAlert t (rowKey u) with _ | a
    · rfl
    · rw [hf] at hins
      cases hins
  refine ⟨hledger ▸ consistent_contribute h.consistent ?_ hopens htag ?_, fun k => ?_,
    fun q t' ht' k => ?_, fun q o' ho' => ?_, h.nodup, fun q t' ht' => ?_, fun c hc => ?_⟩
  · -- a key with pending contributions of another transaction is among its staged alerts
    intro q hq d hd hdkey
    rcases hrun : s.running q with _ | o'
    · have hpending : s.ledger.pending q = [] := by
        change pendingOf (s.running q) = []
        rw [hrun]
        rfl
      rw [hpending] at hd
      exact absurd hd List.not_mem_nil
    · obtain ⟨t', ht'⟩ := Option.isSome_iff_exists.mp (h.txn q o' hrun)
      have hstaged := h.staged q t' ht' (rowKey u)
      have hne : on contributionKey (rowKey u) (s.ledger.pending q) ≠ [] := fun hnil =>
        on_eq_nil.mp hnil d hd hdkey
      rw [if_neg hne] at hstaged
      rcases hl : Table.lookup alertKey (rowKey u) t'.alerts with _ | a
      · rw [hl] at hstaged
        have hvisible := value_eq_none.mp hstaged.symm
        rw [visible, on_append] at hvisible
        exact hne (List.append_eq_nil_iff.mp hvisible).2
      · exact hfree q t' hq ht' a (Table.mem_of_lookup hl) (Table.key_of_lookup hl)
  · intro hins d hd hdid
    change o.inserted = true at hins
    rw [hinserted] at hins
    have hlt := h.fresh d hd
    rw [show d.2.id = s.world.nextAlertId from hdid.trans (hnext hins)] at hlt
    exact Nat.lt_irrefl _ hlt
  · rw [hledger]
    exact h.alerts k
  · change (s.world.setTxn pid _).txn q = some t' at ht'
    rw [World.txn_setTxn] at ht'
    by_cases hq : q = pid
    · subst hq
      rw [if_pos rfl] at ht'
      obtain rfl := Option.some.inj ht'
      rw [hledger, visible_contribute_self, contribute_pending_self, World.lookup_stageAlert]
      by_cases hk : alertKey r.1 = k
      · rw [if_pos hk]
        have hck : contributionKey (u, o) = k := hkey.symm.trans hk
        rw [if_neg fun hnil => on_eq_nil.mp hnil (u, o)
          (List.mem_append_right _ (List.mem_singleton.mpr rfl)) hck, on_append, ← hck,
          on_singleton_self]
        exact hvalue.symm
      · have hck : contributionKey (u, o) ≠ k := fun hck => hk (hkey.trans hck)
        rw [if_neg hk, on_append, on_append, on_singleton_of_ne hck, List.append_nil,
          List.append_nil]
        exact h.staged q t ht k
    · rw [if_neg hq] at ht'
      rw [hledger, visible_contribute_of_ne hq, contribute_pending_of_ne hq]
      exact h.staged q t' ht' k
  · change ((s.world.setTxn pid _).txn q).isSome = true
    change Function.update s.running pid _ q = some o' at ho'
    rw [World.txn_setTxn]
    by_cases hq : q = pid
    · rw [if_pos hq]
      rfl
    · rw [if_neg hq]
      rw [Function.update_of_ne hq] at ho'
      exact h.txn q o' ho'
  · change (s.world.setTxn pid _).txn q = some t' at ht'
    rw [World.txn_setTxn] at ht'
    by_cases hq : q = pid
    · rw [if_pos hq] at ht'
      obtain rfl := Option.some.inj ht'
      exact World.nodup_stageAlert (h.stagedNodup pid t ht)
    · rw [if_neg hq] at ht'
      exact h.stagedNodup q t' ht'
  · rw [hledger] at hc
    change c.2.id < if r.2 = true then s.world.nextAlertId + 1 else s.world.nextAlertId
    rcases has_contribute.mp hc with hc | rfl
    · have hlt := h.fresh c hc
      split <;> omega
    · by_cases hins : r.2 = true
      · rw [if_pos hins]
        change o.id < _
        rw [hnext hins]
        exact Nat.lt_succ_self _
      · -- the alert that was extended has a contribution from before
        rw [if_neg hins]
        rw [← hinserted, hopens, on_eq_nil] at hins
        push Not at hins
        obtain ⟨d, hd, hdkey⟩ := hins
        change o.id < _
        rw [← htag d hd hdkey]
        exact h.fresh d (has_of_visible hd)

/-! ### Committing -/

/-- Committed and staged alerts have the id and the key of a contribution their transaction
sees. -/
theorem Represents.exists_contribution (h : s.Represents) {pid : Nat} {t : Txn}
    (ht : s.world.txn pid = some t) {a : AlertRow} (ha : a ∈ s.world.alerts ++ t.alerts) :
    ∃ c ∈ s.ledger.visible pid, c.2.id = a.id ∧ contributionKey c = alertKey a := by
  rcases List.mem_append.mp ha with ha | ha
  · have halerts := h.alerts (alertKey a)
    rw [Table.lookup_of_mem h.nodup ha] at halerts
    obtain ⟨c, hc, -, hid, -⟩ := (describes_value halerts.symm).head
    obtain ⟨hc, hkey⟩ := mem_on.mp hc
    exact ⟨c, List.mem_append_left _ hc, hid.symm, hkey⟩
  · have hstaged := h.staged pid t ht (alertKey a)
    rw [Table.lookup_of_mem (h.stagedNodup pid t ht) ha] at hstaged
    split at hstaged
    · cases hstaged
    obtain ⟨c, hc, -, hid, -⟩ := (describes_value hstaged.symm).head
    obtain ⟨hc, hkey⟩ := mem_on.mp hc
    exact ⟨c, hc, hid.symm, hkey⟩

/-- So ids and keys agree. -/
theorem Represents.fits (h : s.Represents) {pid : Nat} {t : Txn}
    (ht : s.world.txn pid = some t) : World.Fits s.world.alerts t.alerts := by
  intro a ha r hr
  obtain ⟨c, hc, hid, hkey⟩ := h.exists_contribution ht ha
  obtain ⟨d, hd, hid', hkey'⟩ := h.exists_contribution ht (List.mem_append_right _ hr)
  rw [← hid, ← hid', ← hkey, ← hkey']
  exact ⟨h.consistent.separate c d (has_of_visible hc) (has_of_visible hd),
    h.consistent.tagged pid c hc d hd⟩

/-- The alerts after a commit are what the contributions its transaction saw amount to. -/
theorem Represents.lookup_commit (h : s.Represents) {pid : Nat} {t : Txn}
    (ht : s.world.txn pid = some t) (k : String × String) :
    (Table.lookup alertKey k (t.alerts.foldl World.commitAlert s.world.alerts)).map ofRow
      = value (on contributionKey k (s.ledger.visible pid)) := by
  have hstaged := h.staged pid t ht k
  have halerts := h.alerts k
  rw [World.lookup_foldl_commitAlert (h.stagedNodup pid t ht) (h.fits ht), visible, on_append]
  rw [visible, on_append] at hstaged
  rcases hr : Table.lookup alertKey k t.alerts with _ | r
  · rw [hr] at hstaged
    by_cases hnil : on contributionKey k (s.ledger.pending pid) = []
    · rw [hnil, List.append_nil]
      exact halerts
    · rw [if_neg hnil] at hstaged
      exact absurd (List.append_eq_nil_iff.mp (value_eq_none.mp hstaged.symm)).2 hnil
  · rw [hr] at hstaged
    split at hstaged
    · cases hstaged
    rw [← hstaged]
    refine congrArg some ?_
    -- a staged alert differs from the one that it replaces in its rules only
    rcases ha : Table.lookup alertKey k s.world.alerts with _ | a
    · rfl
    · rw [ha] at halerts
      have hvalue := hstaged.trans (value_append_of_eq_some halerts.symm)
      have hrow : ofRow r = { ofRow a with matchedRules := r.matchedRules } := by
        have hfold := Option.some.inj hvalue
        refine hfold.trans ((foldl_merge _ _).trans ?_)
        rw [← hfold]
        rfl
      rw [hrow]
      rfl

/-- **A commit** of the tables is one of the ledger. -/
theorem represents_commit {pid : Nat} {finished : List ExecutedBatch} {current : ExecutedBatch}
    (h : s.Represents) (hrunning : s.running pid = some ⟨finished, current, []⟩) :
    Represents
      { world := s.world.commitTxn pid
        running := Function.update s.running pid none
        committed := s.committed ++ (finished ++ [current]) } := by
  obtain ⟨t, ht⟩ := Option.isSome_iff_exists.mp (h.txn pid _ hrunning)
  have hworld : s.world.commitTxn pid = { s.world.dropTxn pid with
      entries := s.world.entries ++ t.entries
      alerts := t.alerts.foldl World.commitAlert s.world.alerts
      fetchLogs := s.world.fetchLogs ++ t.fetchLogs
      feeds := t.feedUpdates.foldl (fun fs u => Feeds.updateAfterFetch s.world.now u fs)
        s.world.feeds } := by
    unfold World.commitTxn
    rw [ht]
  set s' : Upserts :=
    { world := s.world.commitTxn pid
      running := Function.update s.running pid none
      committed := s.committed ++ (finished ++ [current]) }
  -- what is pending in the ledger are the batches that the transaction has run
  have hledger : s'.ledger = s.ledger.commit pid := by
    refine (ledger_update ..).trans ?_
    have hpending : s.ledger.pending pid = contributions (finished ++ [current]) := by
      change pendingOf (s.running pid) = _
      rw [hrunning]
      rfl
    rw [contributions_append, ← hpending]
    rfl
  have htxn : ∀ q, s'.world.txn q = if q = pid then none else s.world.txn q := by
    intro q
    change (s.world.commitTxn pid).txn q = _
    rw [hworld]
    exact World.txn_dropTxn ..
  refine ⟨hledger ▸ consistent_commit h.consistent, fun k => ?_, fun q t' ht' k => ?_,
    fun q o ho => ?_, ?_, fun q t' ht' => ?_, fun c hc => ?_⟩
  · change (Table.lookup alertKey k (s.world.commitTxn pid).alerts).map ofRow = _
    rw [hledger, hworld]
    exact h.lookup_commit ht k
  · rw [htxn] at ht'
    by_cases hq : q = pid
    · rw [if_pos hq] at ht'
      cases ht'
    rw [if_neg hq] at ht'
    rw [hledger, visible, commit_pending_of_ne hq, commit_committed, h.staged q t' ht' k]
    by_cases hnil : on contributionKey k (s.ledger.pending q) = []
    · rw [if_pos hnil, if_pos hnil]
    · -- then the transaction that commits has nothing at this key
      have hother := (h.consistent.on_pending_eq_nil (Ne.symm hq) k).resolve_right hnil
      rw [if_neg hnil, if_neg hnil, visible, visible, on_append, on_append, on_append, hother,
        List.append_nil]
  · change Function.update s.running pid none q = some o at ho
    rw [htxn]
    by_cases hq : q = pid
    · subst hq
      rw [Function.update_self] at ho
      cases ho
    · rw [if_neg hq]
      rw [Function.update_of_ne hq] at ho
      exact h.txn q o ho
  · change ((s.world.commitTxn pid).alerts.map alertKey).Nodup
    rw [hworld]
    exact World.nodup_foldl_commitAlert (h.fits ht) h.nodup
  · rw [htxn] at ht'
    by_cases hq : q = pid
    · rw [if_pos hq] at ht'
      cases ht'
    · rw [if_neg hq] at ht'
      exact h.stagedNodup q t' ht'
  · rw [hledger] at hc
    change c.2.id < (s.world.commitTxn pid).nextAlertId
    rw [hworld]
    exact h.fresh c (has_of_commit hc)

/-! ## Runs -/

/-- **Every step** keeps the tables and the ledger together. -/
theorem represents_step {a : UpsertAction} {s' : Upserts} (h : s.Represents)
    (hs : s.step canonicalizeArticleLink a = some s') : s'.Represents := by
  cases a with
  | begin pid batch =>
    simp only [step] at hs
    split at hs
    · rename_i hfree
      obtain rfl := Option.some.inj hs
      exact represents_begin h hfree _
    · cases hs
  | next pid batch =>
    simp only [step] at hs
    split at hs
    · rename_i finished current hrunning
      obtain rfl := Option.some.inj hs
      exact represents_next h hrunning _
    · cases hs
  | upsert pid =>
    simp only [step] at hs
    split at hs
    · rename_i finished current u todo hrunning
      obtain ⟨⟨out, w⟩, hw, rfl⟩ := Option.map_eq_some_iff.mp hs
      obtain ⟨t, ht, hfree, rfl, rfl⟩ := World.upsertAlerts_singleton hw
      exact represents_upsert h hrunning ht hfree rfl rfl rfl
    · cases hs
  | commit pid =>
    simp only [step] at hs
    split at hs
    · rename_i finished current hrunning
      obtain rfl := Option.some.inj hs
      exact represents_commit h hrunning
    · cases hs
  | abort pid =>
    simp only [step] at hs
    split at hs
    · obtain rfl := Option.some.inj hs
      exact represents_abort h
    · cases hs
  | write id st =>
    obtain rfl := Option.some.inj hs
    exact represents_write h id st

/-! ### Complete statements -/

/-- The statement has ended: all its rows were upserted. -/
def Complete (canonicalizeArticleLink : Option String → Option String) (e : ExecutedBatch) :
    Prop :=
  e.returned.map Prod.fst = e.batch.statement canonicalizeArticleLink

/-- What has been upserted is recorded. -/
structure Recorded (canonicalizeArticleLink : Option String → Option String) (s : Upserts) :
    Prop where
  /-- committed statements are complete -/
  committed : ∀ e ∈ s.committed, Complete canonicalizeArticleLink e
  /-- so are those that have ended -/
  finished : ∀ pid o, s.running pid = some o → ∀ e ∈ o.finished, Complete canonicalizeArticleLink e
  /-- the rows of the last one that are left complete it -/
  current : ∀ pid o, s.running pid = some o →
    o.current.returned.map Prod.fst ++ o.todo = o.current.batch.statement canonicalizeArticleLink

theorem recorded_of_init (h : s.Init) : s.Recorded canonicalizeArticleLink where
  committed e he := by
    rw [h.committed] at he
    exact absurd he List.not_mem_nil
  finished pid o ho := by
    rw [h.running] at ho
    cases ho
  current pid o ho := by
    rw [h.running] at ho
    cases ho

/-- Replacing an open transaction by a recorded one. -/
theorem Recorded.update (h : s.Recorded canonicalizeArticleLink) {pid : Nat}
    {w : World} {o' : Option OpenUpserts} {committed : List ExecutedBatch}
    (hcommitted : ∀ e ∈ committed, Complete canonicalizeArticleLink e)
    (ho' : ∀ o, o' = some o → (∀ e ∈ o.finished, Complete canonicalizeArticleLink e) ∧
      o.current.returned.map Prod.fst ++ o.todo
        = o.current.batch.statement canonicalizeArticleLink) :
    Recorded canonicalizeArticleLink
      { world := w, running := Function.update s.running pid o', committed := committed } := by
  refine ⟨hcommitted, fun q o ho => ?_, fun q o ho => ?_⟩
  all_goals
    change Function.update s.running pid o' q = some o at ho
    by_cases hq : q = pid
    · subst hq
      rw [Function.update_self] at ho
      first
        | exact (ho' o ho).1
        | exact (ho' o ho).2
    · rw [Function.update_of_ne hq] at ho
      first
        | exact h.finished q o ho
        | exact h.current q o ho

/-- A statement without rows left is complete. -/
theorem Recorded.complete_current (h : s.Recorded canonicalizeArticleLink) {pid : Nat}
    {finished : List ExecutedBatch} {current : ExecutedBatch}
    (hrunning : s.running pid = some ⟨finished, current, []⟩) :
    ∀ e ∈ finished ++ [current], Complete canonicalizeArticleLink e := by
  intro e he
  rcases List.mem_append.mp he with he | he
  · exact h.finished pid _ hrunning e he
  · obtain rfl := List.mem_singleton.mp he
    have hcurrent := h.current pid _ hrunning
    rw [List.append_nil] at hcurrent
    exact hcurrent

theorem recorded_step {a : UpsertAction} {s' : Upserts} (h : s.Recorded canonicalizeArticleLink)
    (hs : s.step canonicalizeArticleLink a = some s') : s'.Recorded canonicalizeArticleLink := by
  cases a with
  | begin pid batch =>
    simp only [step] at hs
    split at hs
    · obtain rfl := Option.some.inj hs
      refine h.update h.committed fun o ho => ?_
      obtain rfl := Option.some.inj ho
      exact ⟨fun e he => absurd he List.not_mem_nil, rfl⟩
    · cases hs
  | next pid batch =>
    simp only [step] at hs
    split at hs
    · rename_i finished current hrunning
      obtain rfl := Option.some.inj hs
      refine h.update h.committed fun o ho => ?_
      obtain rfl := Option.some.inj ho
      exact ⟨h.complete_current hrunning, rfl⟩
    · cases hs
  | upsert pid =>
    simp only [step] at hs
    split at hs
    · rename_i finished current u todo hrunning
      obtain ⟨⟨out, w⟩, hw, rfl⟩ := Option.map_eq_some_iff.mp hs
      obtain ⟨t, ht, hfree, rfl, rfl⟩ := World.upsertAlerts_singleton hw
      refine h.update h.committed fun o ho => ?_
      obtain rfl := Option.some.inj ho
      refine ⟨fun e he => h.finished pid _ hrunning e he, ?_⟩
      have hcurrent := h.current pid _ hrunning
      simpa using hcurrent
    · cases hs
  | commit pid =>
    simp only [step] at hs
    split at hs
    · rename_i finished current hrunning
      obtain rfl := Option.some.inj hs
      refine h.update (fun e he => ?_) fun o ho => by cases ho
      rcases List.mem_append.mp he with he | he
      · exact h.committed e he
      · exact h.complete_current hrunning e he
    · cases hs
  | abort pid =>
    simp only [step] at hs
    split at hs
    · obtain rfl := Option.some.inj hs
      exact h.update h.committed fun o ho => by cases ho
    · cases hs
  | write id st =>
    obtain rfl := Option.some.inj hs
    exact ⟨h.committed, h.finished, h.current⟩

/-! ### What holds of the alerts -/

section Committed

variable (canonicalizeArticleLink)

/-- A committed batch contributed the rule to the key. -/
def Contributed (s : Upserts) (k : String × String) (r : Nat) : Prop :=
  ∃ e ∈ s.committed, e.batch.Contributes canonicalizeArticleLink k r

/-- One alert per article. -/
structure OneAlertPerArticle (s : Upserts) : Prop where
  /-- no two alerts have one key -/
  unique : (s.world.alerts.map alertKey).Nodup
  /-- the keys of alerts are those a committed batch contributed to -/
  keys : ∀ k, (∃ a ∈ s.world.alerts, alertKey a = k) ↔
    ∃ r, s.Contributed canonicalizeArticleLink k r
  /-- exactly one committed statement reports an alert as created, once -/
  created : ∀ a ∈ s.world.alerts, (s.committed.flatMap ExecutedBatch.created).count a.id = 1
  /-- the rules are those contributed to the key -/
  rules : ∀ a ∈ s.world.alerts, ∀ r, r ∈ a.matchedRules ↔
    s.Contributed canonicalizeArticleLink (alertKey a) r
  /-- they are sorted, without duplicates -/
  sorted : ∀ a ∈ s.world.alerts, a.matchedRules.Pairwise (· < ·)
  /-- the primary rule is one of them -/
  primary : ∀ a ∈ s.world.alerts, a.ruleId ∈ a.matchedRules
  /-- no statement, committed or open, carries a key twice -/
  statements : (∀ e ∈ s.committed, (e.returned.map fun c => rowKey c.1).Nodup) ∧
    ∀ pid o, s.running pid = some o → (∀ e ∈ o.finished,
      (e.returned.map fun c => rowKey c.1).Nodup) ∧
      ((o.current.returned.map Prod.fst ++ o.todo).map rowKey).Nodup
  /-- no row of another tenant reached an alert -/
  tenants : ∀ a ∈ s.world.alerts, ∀ e ∈ s.committed, ∀ c ∈ e.returned, c.2.id = a.id →
    e.batch.tenantId = a.tenantId

variable {canonicalizeArticleLink}

/-- The committed contributions are the rows of the committed statements. -/
theorem mem_committed {c : Contribution} :
    c ∈ s.ledger.committed ↔ ∃ e ∈ s.committed, c ∈ e.returned := List.mem_flatMap

/-- They carry the rules that were contributed. -/
theorem Recorded.contributed_iff (h : s.Recorded canonicalizeArticleLink) {k : String × String}
    {r : Nat} : s.Contributed canonicalizeArticleLink k r ↔
      ∃ c ∈ on contributionKey k s.ledger.committed, r ∈ c.1.matchedRules := by
  constructor
  · rintro ⟨e, he, hcontributes⟩
    obtain ⟨u, hu, hkey, hr⟩ := IngestionBatch.mem_statement_rules.mpr hcontributes
    rw [← h.committed e he] at hu
    obtain ⟨c, hc, rfl⟩ := List.mem_map.mp hu
    exact ⟨c, mem_on.mpr ⟨mem_committed.mpr ⟨e, he, hc⟩, hkey⟩, hr⟩
  · rintro ⟨c, hc, hr⟩
    obtain ⟨hc, hkey⟩ := mem_on.mp hc
    obtain ⟨e, he, hc⟩ := mem_committed.mp hc
    refine ⟨e, he, IngestionBatch.mem_statement_rules.mp ⟨c.1, ?_, hkey, hr⟩⟩
    rw [← h.committed e he]
    exact List.mem_map_of_mem hc

/-- A committed contribution is a well-formed row of its tenant. -/
theorem Recorded.wellFormed (h : s.Recorded canonicalizeArticleLink) {e : ExecutedBatch}
    (he : e ∈ s.committed) {c : Contribution} (hc : c ∈ e.returned) :
    c.1.tenantId = e.batch.tenantId ∧ c.1.WellFormed := by
  have hmem : c.1 ∈ e.batch.statement canonicalizeArticleLink := by
    rw [← h.committed e he]
    exact List.mem_map_of_mem hc
  exact IngestionBatch.wellFormed_of_mem_statement hmem

/-- The alert of a key is described by the committed contributions to it. -/
theorem Represents.describes (h : s.Represents) {a : AlertRow} (ha : a ∈ s.world.alerts) :
    Describes (on contributionKey (alertKey a) s.ledger.committed) (ofRow a) := by
  have halerts := h.alerts (alertKey a)
  rw [Table.lookup_of_mem h.nodup ha] at halerts
  exact describes_value halerts.symm

/-- The contributions to the key of an alert are those that went to it. -/
theorem Represents.key_iff_id (h : s.Represents) {a : AlertRow} (ha : a ∈ s.world.alerts)
    {c : Contribution} (hc : c ∈ s.ledger.committed) :
    contributionKey c = alertKey a ↔ c.2.id = a.id := by
  obtain ⟨d, hd, -, hid, -⟩ := (h.describes ha).head
  obtain ⟨hd, hkey⟩ := mem_on.mp hd
  have hvisible : ∀ c ∈ s.ledger.committed, c ∈ s.ledger.visible 0 :=
    fun c hc => List.mem_append_left _ hc
  change a.id = d.2.id at hid
  rw [← hkey, hid]
  exact ⟨h.consistent.tagged 0 c (hvisible c hc) d (hvisible d hd),
    h.consistent.separate c d (.inl hc) (.inl hd)⟩

/-- What statements report as created are the contributions that open their key. -/
theorem flatMap_created (es : List ExecutedBatch) :
    es.flatMap ExecutedBatch.created
      = ((contributions es).filter contributionOpens).map contributionTag := by
  induction es with
  | nil => rfl
  | cons e es ih =>
    change ExecutedBatch.created e ++ es.flatMap ExecutedBatch.created
      = ((e.returned ++ contributions es).filter contributionOpens).map contributionTag
    rw [ih, List.filter_append, List.map_append]
    rfl

/-- One contribution opens the key of an alert. -/
theorem Represents.count_created (h : s.Represents) {a : AlertRow} (ha : a ∈ s.world.alerts) :
    (s.committed.flatMap ExecutedBatch.created).count a.id = 1 := by
  obtain ⟨d, hd, -⟩ := (h.describes ha).head
  have hone := (h.consistent.firstOpens_committed (alertKey a)).countP_eq_one
    (List.ne_nil_of_mem hd)
  rw [flatMap_created, List.count_eq_countP, List.countP_map, List.countP_filter]
  rw [on, List.countP_filter] at hone
  refine Eq.trans (List.countP_congr fun c hc => ?_) hone
  have hiff := h.key_iff_id ha hc
  simp only [Function.comp_apply, Bool.and_eq_true, beq_iff_eq, decide_eq_true_eq]
  rw [hiff, and_comm]

/-- **The alerts** of a state whose tables represent the ledger, and whose statements are
recorded. -/
theorem oneAlertPerArticle_of_represents (h : s.Represents)
    (hrecorded : s.Recorded canonicalizeArticleLink) :
    s.OneAlertPerArticle canonicalizeArticleLink where
  unique := h.nodup
  keys k := by
    constructor
    · rintro ⟨a, ha, rfl⟩
      obtain ⟨c, hc, -⟩ := (h.describes ha).head
      obtain ⟨e, he, hreturned⟩ := mem_committed.mp (mem_on.mp hc).1
      exact ⟨c.1.ruleId, hrecorded.contributed_iff.mpr
        ⟨c, hc, (hrecorded.wellFormed he hreturned).2.primary⟩⟩
    · rintro ⟨r, hr⟩
      obtain ⟨c, hc, -⟩ := hrecorded.contributed_iff.mp hr
      have halerts := h.alerts k
      rcases hl : Table.lookup alertKey k s.world.alerts with _ | a
      · rw [hl] at halerts
        exact absurd (value_eq_none.mp halerts.symm) (List.ne_nil_of_mem hc)
      · exact ⟨a, Table.mem_of_lookup hl, Table.key_of_lookup hl⟩
  created a ha := h.count_created ha
  rules a ha r := ((h.describes ha).rules r).trans hrecorded.contributed_iff.symm
  sorted a ha := by
    refine (h.describes ha).sorted fun c hc => ?_
    obtain ⟨e, he, hreturned⟩ := mem_committed.mp (mem_on.mp hc).1
    exact (hrecorded.wellFormed he hreturned).2
  primary a ha := by
    obtain ⟨c, hc, -, -, -, -, hrule, -⟩ := (h.describes ha).head
    obtain ⟨e, he, hreturned⟩ := mem_committed.mp (mem_on.mp hc).1
    refine ((h.describes ha).rules a.ruleId).mpr ⟨c, hc, ?_⟩
    change a.ruleId = c.1.ruleId at hrule
    rw [hrule]
    exact (hrecorded.wellFormed he hreturned).2.primary
  statements := by
    have hcomplete : ∀ e, Complete canonicalizeArticleLink e →
        (e.returned.map fun c => rowKey c.1).Nodup := by
      intro e he
      have hnodup := IngestionBatch.nodup_rowKeys canonicalizeArticleLink e.batch
      rw [← he, List.map_map] at hnodup
      exact hnodup
    refine ⟨fun e he => hcomplete e (hrecorded.committed e he), fun pid o ho =>
      ⟨fun e he => hcomplete e (hrecorded.finished pid o ho e he), ?_⟩⟩
    rw [hrecorded.current pid o ho]
    exact IngestionBatch.nodup_rowKeys _ _
  tenants a ha e he c hc hid := by
    have hkey := (h.key_iff_id ha (mem_committed.mpr ⟨e, he, hc⟩)).mpr hid
    exact (hrecorded.wellFormed he hc).1.symm.trans (congrArg Prod.fst hkey)

end Committed

/-- Two transactions of one tenant meet at one article: the second waits for the first, extends
its alert, and creates another one for an entry without a link. -/
def interleavedUpserts : List UpsertAction :=
  [.begin 1
    { tenantId := "t"
      entries := [(1, some "https://news.example/article")]
      matchesByEntry := [(1, [2])] },
    .begin 2
    { tenantId := "t"
      entries := [(2, some "https://news.example/article"), (3, none)]
      matchesByEntry := [(2, [1]), (3, [1])] },
    .upsert 1, .commit 1, .upsert 2, .upsert 2, .commit 2]

/-- **A statement of the repository** is a run of its rows: what an upsert of all rows at once
answers and leaves is what upserting them one after the other does. -/
theorem run_statement {pid : Nat} {finished : List ExecutedBatch} {current : ExecutedBatch}
    {u : UpsertRow} {us : List UpsertRow} {out : List UpsertedAlert} {w : World}
    (hrunning : s.running pid = some ⟨finished, current, u :: us⟩)
    (hw : s.world.upsertAlerts pid (u :: us) = some (out, w)) :
    Transition.run (step canonicalizeArticleLink) s (List.replicate (us.length + 1) (.upsert pid))
      = some { s with
          world := w
          running := Function.update s.running pid (some
            { finished := finished
              current := { current with returned := current.returned ++ (u :: us).zip out }
              todo := [] }) } := by
  induction us generalizing s current u out with
  | nil =>
    obtain ⟨t, -, -, rfl, rfl⟩ := World.upsertAlerts_singleton hw
    simp only [List.length_nil, List.replicate_succ, List.replicate_zero, Transition.run_cons]
    simp only [step, hrunning, hw]
    rfl
  | cons u' us ih =>
    obtain ⟨o, os, w₁, hfirst, hrest, rfl⟩ := World.upsertAlerts_cons hw
    rw [List.length_cons, List.replicate_succ, Transition.run_cons]
    have hstep : s.step canonicalizeArticleLink (.upsert pid) = some
        { s with
          world := w₁
          running := Function.update s.running pid (some
            { finished := finished
              current := { current with returned := current.returned ++ [(u, o)] }
              todo := u' :: us }) } := by
      simp only [step, hrunning, hfirst]
      rfl
    rw [hstep, Option.bind_some, ih (Function.update_self ..) hrest]
    simp [Function.update_idem]

end Upserts

end Feedpulse
