import Feedpulse.Protocols

/-!
# The table of articles

Articles are inserted by the transactions of fetch jobs, which take effect one by one when they
commit. What a call does to the table and to the open transactions is said here once, and with
it `entries_distinct`: however the jobs interleave, crash and are run again, no two articles of
a feed ever share their content hash or a guid, neither stored nor staged.
-/

namespace Feedpulse

open Transition

namespace World

variable {pid q : Nat} {w w' : World} {c : Call}

/-! ## Frames -/

/-- Articles are only added, by a commit. -/
theorem entries_effect (h : CallEffect pid w c w') :
    w'.entries = w.entries ∨
      ∃ t, c = .ingest .commit ∧ w.txn pid = some t ∧ w'.entries = w.entries ++ t.entries := by
  cases h with
  | commit =>
    unfold commitTxn
    rcases ht : w.txn pid with _ | t
    · exact .inl rfl
    · exact .inr ⟨t, rfl, rfl, rfl⟩
  | _ => exact .inl rfl

theorem mem_entries_effect (h : CallEffect pid w c w') {e : EntryRow} (he : e ∈ w.entries) :
    e ∈ w'.entries := by
  rcases entries_effect h with heq | ⟨t, -, -, heq⟩
  · exact heq ▸ he
  · exact heq ▸ List.mem_append_left _ he

/-- An insert finds a conflicting row, or stages a new one. -/
theorem insertEntry_eq_some {tenantId : String} {feedId : Nat} {e : NormalizedEntry}
    {a : Option EntryRow} (h : w.insertEntry pid tenantId feedId e = some (a, w')) :
    ∃ t, w.txn pid = some t ∧
      (∀ o ∈ w.otherTxns pid, ∀ row ∈ o.entries, Entries.conflicts feedId e row = false) ∧
      ((∃ row ∈ w.entries ++ t.entries, Entries.conflicts feedId e row = true) ∧ a = none ∧ w' = w ∨
        (∀ row ∈ w.entries ++ t.entries, Entries.conflicts feedId e row = false) ∧
          ∃ row : EntryRow, row.id = w.nextEntryId ∧ row.tenantId = tenantId ∧
            row.feedId = feedId ∧ row.entry = e ∧ a = some row ∧
            w' = { w.setTxn pid { t with entries := t.entries ++ [row] } with
                nextEntryId := w.nextEntryId + 1 }) := by
  unfold insertEntry at h
  rcases ht : w.txn pid with _ | t
  · rw [ht] at h
    cases h
  rw [ht] at h
  obtain ⟨hothers, h⟩ := Option.ite_none_left_eq_some.mp h
  refine ⟨t, rfl, ?_, ?_⟩
  · intro o ho row hrow
    rw [Bool.not_eq_true, List.any_eq_false] at hothers
    have hnone := hothers o ho
    rw [Bool.not_eq_true, List.any_eq_false] at hnone
    simpa using hnone row hrow
  split at h
  · rename_i hany
    obtain ⟨rfl, rfl⟩ := Prod.mk.inj (Option.some.inj h)
    exact .inl ⟨List.any_eq_true.mp hany, rfl, rfl⟩
  · rename_i hany
    obtain ⟨rfl, rfl⟩ := Prod.mk.inj (Option.some.inj h)
    rw [Bool.not_eq_true, List.any_eq_false] at hany
    exact .inr ⟨fun row hrow => by simpa using hany row hrow, _, rfl, rfl, rfl, rfl, rfl, rfl⟩

theorem mem_otherTxns_of_txn {t : Txn} (hne : q ≠ pid) (h : w.txn q = some t) :
    t ∈ w.otherTxns pid :=
  List.mem_map.mpr ⟨(q, t), List.mem_filter.mpr ⟨mem_of_txn h, by simpa using hne⟩, rfl⟩

/-- What a statement makes of the transaction it belongs to. -/
inductive TxnStep (w : World) (c : Call) (t : Txn) : Txn → Prop
  /-- nothing -/
  | same : TxnStep w c t t
  /-- an article is staged -/
  | entry (tenantId : String) (feedId : Nat) (e : NormalizedEntry) (row : EntryRow)
    (hc : c = .ingest (.insertEntry tenantId feedId e)) :
    TxnStep w c t { t with entries := t.entries ++ [row] }
  /-- alerts are staged -/
  | alerts (rows : List UpsertRow) (hc : c = .ingest (.upsertAlerts rows)) :
    TxnStep w c t { t with
      alerts := (upsertAll w.now w.alerts rows w.nextAlertId t.alerts).2.2 }
  /-- a log is staged -/
  | log (row : FetchLogRow) : TxnStep w c t { t with fetchLogs := t.fetchLogs ++ [row] }
  /-- a report is staged -/
  | report (u : Feeds.AfterFetch) (hc : c = .ingest (.updateAfterFetch u)) :
    TxnStep w c t { t with feedUpdates := t.feedUpdates ++ [u] }

/-- **A transaction after a call** is new, or what the call makes of the one before. -/
theorem txnStep_effect (h : CallEffect pid w c w') {q : Nat} {t' : Txn}
    (ht' : w'.txn q = some t') :
    t' = Txn.empty ∨ ∃ t, w.txn q = some t ∧ (t' = t ∨ q = pid) ∧ TxnStep w c t t' := by
  by_cases hq : q = pid
  · subst hq
    have hset : ∀ t₀ : Txn, (w.setTxn q t₀).txn q = some t' → t' = t₀ := by
      intro t₀ hset
      rw [txn_setTxn, if_pos rfl] at hset
      exact (Option.some.inj hset).symm
    have hdrop : (w.dropTxn q).txn q ≠ some t' := by
      rw [txn_dropTxn, if_pos rfl]
      exact nofun
    cases h with
    | begin => exact .inl (hset _ ht')
    | stageEntry tenantId feedId e t row ht =>
      obtain rfl := hset _ ht'
      exact .inr ⟨t, ht, .inr rfl, .entry tenantId feedId e row rfl⟩
    | stageAlerts rows t ht =>
      obtain rfl := hset _ ht'
      exact .inr ⟨t, ht, .inr rfl, .alerts rows rfl⟩
    | stageLog row t ht =>
      obtain rfl := hset _ ht'
      exact .inr ⟨t, ht, .inr rfl, .log row⟩
    | stageReport u t ht =>
      obtain rfl := hset _ ht'
      exact .inr ⟨t, ht, .inr rfl, .report u rfl⟩
    | rollback => exact absurd ht' hdrop
    | release => exact absurd ht' hdrop
    | commit =>
      unfold commitTxn at ht'
      split at ht'
      · exact .inr ⟨t', ht', .inl rfl, .same⟩
      · exact absurd ht' hdrop
    | _ => exact .inr ⟨t', ht', .inl rfl, .same⟩
  · rw [txn_effect h hq] at ht'
    exact .inr ⟨t', ht', .inl rfl, .same⟩

/-- What a call makes of the staged articles: it leaves them, drops them, or inserts one. -/
theorem stagedEntries_effect (h : CallEffect pid w c w') {q : Nat} {t' : Txn}
    (ht' : w'.txn q = some t') (hc : ∀ tenantId feedId e,
      c ≠ .ingest (.insertEntry tenantId feedId e)) :
    t'.entries = [] ∨ ∃ t, w.txn q = some t ∧ t'.entries = t.entries := by
  rcases txnStep_effect h ht' with rfl | ⟨t, ht, -, hstep⟩
  · exact .inl rfl
  · cases hstep with
    | entry tenantId feedId e row hinsert => exact absurd hinsert (hc tenantId feedId e)
    | _ => exact .inr ⟨_, ht, rfl⟩

/-- The sequence behind `entries.id` never goes back. -/
theorem nextEntryId_effect (h : CallEffect pid w c w') : w.nextEntryId ≤ w'.nextEntryId := by
  cases h with
  | stageEntry => exact Nat.le_succ _
  | commit =>
    unfold commitTxn
    split <;> exact Nat.le_refl _
  | _ => exact Nat.le_refl _

end World

/-! ## Unique articles -/

/-- The unique constraints exclude one of the two rows. -/
def EntryRow.Clashes (a b : EntryRow) : Prop :=
  a.id = b.id ∨ Entries.conflicts b.feedId b.entry a = true

theorem EntryRow.Clashes.symm {a b : EntryRow} (h : a.Clashes b) : b.Clashes a := by
  refine h.imp Eq.symm fun h => ?_
  simp only [Entries.conflicts, Bool.and_eq_true, Bool.or_eq_true, decide_eq_true_eq] at h ⊢
  obtain ⟨hfeed, ⟨hsome, hguid⟩ | hhash⟩ := h
  · exact ⟨hfeed.symm, .inl ⟨hguid ▸ hsome, hguid.symm⟩⟩
  · exact ⟨hfeed.symm, .inr hhash.symm⟩

/-- The rows exclude each other. -/
abbrev EntriesApart (rows : List EntryRow) : Prop := rows.Pairwise fun a b => ¬ a.Clashes b

namespace World

/-- The unique constraints hold, of what is stored and of what is staged. -/
structure EntriesDistinct (w : World) : Prop where
  /-- the sequence is ahead of the stored keys -/
  fresh : ∀ e ∈ w.entries, e.id < w.nextEntryId
  /-- the stored articles -/
  apart : EntriesApart w.entries
  /-- the sequence is ahead of the staged keys -/
  stagedFresh : ∀ pid t, w.txn pid = some t → ∀ e ∈ t.entries, e.id < w.nextEntryId
  /-- the articles of a transaction -/
  staged : ∀ pid t, w.txn pid = some t → EntriesApart (w.entries ++ t.entries)
  /-- the articles of two transactions -/
  others : ∀ pid q t t', pid ≠ q → w.txn pid = some t → w.txn q = some t' →
    ∀ e ∈ t.entries, ∀ e' ∈ t'.entries, ¬ e.Clashes e'

variable {pid : Nat} {w w' : World} {c : Call}

/-- What neither stores nor stages an article. -/
theorem EntriesDistinct.congr (h : w.EntriesDistinct) (hentries : w'.entries = w.entries)
    (hnext : w.nextEntryId ≤ w'.nextEntryId)
    (htxn : ∀ q t', w'.txn q = some t' → t'.entries = [] ∨
      ∃ t, w.txn q = some t ∧ t'.entries = t.entries) : w'.EntriesDistinct where
  fresh := fun e he => Nat.lt_of_lt_of_le (h.fresh e (hentries ▸ he)) hnext
  apart := hentries ▸ h.apart
  stagedFresh := by
    intro q t' ht' e he
    rcases htxn q t' ht' with hnil | ⟨t, ht, heq⟩
    · rw [hnil] at he
      cases he
    · exact Nat.lt_of_lt_of_le (h.stagedFresh q t ht e (heq ▸ he)) hnext
  staged := by
    intro q t' ht'
    rw [hentries]
    rcases htxn q t' ht' with hnil | ⟨t, ht, heq⟩
    · rw [hnil, List.append_nil]
      exact h.apart
    · rw [heq]
      exact h.staged q t ht
  others := by
    intro p q t₁ t₂ hne ht₁ ht₂ e he e' he'
    rcases htxn p t₁ ht₁ with hnil | ⟨t, ht, heq⟩
    · rw [hnil] at he
      cases he
    rcases htxn q t₂ ht₂ with hnil | ⟨t', ht', heq'⟩
    · rw [hnil] at he'
      cases he'
    exact h.others p q t t' hne ht ht' e (heq ▸ he) e' (heq' ▸ he')

/-- **A commit** stores what excludes nothing that is stored or staged elsewhere. -/
theorem EntriesDistinct.commit (h : w.EntriesDistinct) {t : Txn} (ht : w.txn pid = some t)
    (hentries : w'.entries = w.entries ++ t.entries) (hnext : w'.nextEntryId = w.nextEntryId)
    (hown : w'.txn pid = none) (hothers : ∀ q, q ≠ pid → w'.txn q = w.txn q) :
    w'.EntriesDistinct := by
  have hold : ∀ q t', w'.txn q = some t' → q ≠ pid ∧ w.txn q = some t' := by
    intro q t' ht'
    have hq : q ≠ pid := by
      rintro rfl
      rw [hown] at ht'
      cases ht'
    exact ⟨hq, (hothers q hq).symm.trans ht'⟩
  constructor
  · intro e he
    rw [hentries] at he
    rw [hnext]
    exact (List.mem_append.mp he).elim (h.fresh e) (h.stagedFresh pid t ht e)
  · rw [hentries]
    exact h.staged pid t ht
  · intro q t' ht' e he
    rw [hnext]
    exact h.stagedFresh q t' (hold q t' ht').2 e he
  · intro q t' ht'
    obtain ⟨hq, ht'⟩ := hold q t' ht'
    rw [hentries]
    refine List.pairwise_append.mpr ⟨h.staged pid t ht, ?_, fun e he e' he' => ?_⟩
    · exact (List.pairwise_append.mp (h.staged q t' ht')).2.1
    · rcases List.mem_append.mp he with he | he
      · exact (List.pairwise_append.mp (h.staged q t' ht')).2.2 e he e' he'
      · exact h.others pid q t t' hq.symm ht ht' e he e' he'
  · intro p q t₁ t₂ hne ht₁ ht₂
    exact h.others p q t₁ t₂ hne (hold p t₁ ht₁).2 (hold q t₂ ht₂).2

/-- **An insert** stages a row that clashes with none. -/
theorem EntriesDistinct.insertEntry (h : w.EntriesDistinct) {tenantId : String} {feedId : Nat}
    {e : NormalizedEntry} {a : Option EntryRow}
    (hs : w.insertEntry pid tenantId feedId e = some (a, w')) : w'.EntriesDistinct := by
  obtain ⟨t, ht, hothers, ⟨-, -, rfl⟩ | ⟨hown, row, hid, -, hfeed, hentry, -, rfl⟩⟩ :=
    insertEntry_eq_some hs
  · exact h
  -- the new row is none of the rows before it
  have hnew : ∀ x : EntryRow, x.id < w.nextEntryId → Entries.conflicts feedId e x = false →
      ¬ x.Clashes row := by
    rintro x hlt hno (hid' | hclash)
    · omega
    · rw [hfeed, hentry, hno] at hclash
      cases hclash
  have hfreshOwn : ∀ x ∈ w.entries ++ t.entries, x.id < w.nextEntryId := fun x hx =>
    (List.mem_append.mp hx).elim (h.fresh x) (h.stagedFresh pid t ht x)
  have htxn : ∀ q t', ({ w.setTxn pid { t with entries := t.entries ++ [row] } with
      nextEntryId := w.nextEntryId + 1 } : World).txn q = some t' →
      (q = pid ∧ t'.entries = t.entries ++ [row]) ∨ (q ≠ pid ∧ w.txn q = some t') := by
    intro q t' ht'
    change (w.setTxn pid _).txn q = some t' at ht'
    rw [txn_setTxn] at ht'
    split at ht'
    · obtain rfl := Option.some.inj ht'
      exact .inl ⟨‹_›, rfl⟩
    · exact .inr ⟨‹_›, ht'⟩
  have hother : ∀ q t', q ≠ pid → w.txn q = some t' → ∀ x ∈ t'.entries, ¬ x.Clashes row := by
    intro q t' hq ht' x hx
    refine hnew x (h.stagedFresh q t' ht' x hx) ?_
    exact hothers t' (mem_otherTxns_of_txn hq ht') x hx
  constructor
  · exact fun x hx => Nat.lt_succ_of_lt (h.fresh x hx)
  · exact h.apart
  · intro q t' ht' x hx
    rcases htxn q t' ht' with ⟨-, heq⟩ | ⟨-, ht'⟩
    · rw [heq] at hx
      rcases List.mem_append.mp hx with hx | hx
      · exact Nat.lt_succ_of_lt (h.stagedFresh pid t ht x hx)
      · obtain rfl := List.mem_singleton.mp hx
        exact hid ▸ Nat.lt_succ_self _
    · exact Nat.lt_succ_of_lt (h.stagedFresh q t' ht' x hx)
  · intro q t' ht'
    change EntriesApart (w.entries ++ t'.entries)
    rcases htxn q t' ht' with ⟨-, heq⟩ | ⟨-, ht'⟩
    · rw [heq, ← List.append_assoc]
      refine List.pairwise_append.mpr ⟨h.staged pid t ht, List.pairwise_singleton _ _, ?_⟩
      intro x hx y hy
      obtain rfl := List.mem_singleton.mp hy
      exact hnew x (hfreshOwn x hx) (hown x hx)
    · exact h.staged q t' ht'
  · intro p q t₁ t₂ hne ht₁ ht₂ x hx y hy
    rcases htxn p t₁ ht₁ with ⟨rfl, heq⟩ | ⟨hp, hold₁⟩
    · rcases htxn q t₂ ht₂ with ⟨rfl, -⟩ | ⟨hq, hold₂⟩
      · exact absurd rfl hne
      · rw [heq] at hx
        rcases List.mem_append.mp hx with hx | hx
        · exact h.others p q t t₂ hne ht hold₂ x hx y hy
        · obtain rfl := List.mem_singleton.mp hx
          exact fun hclash => hother q t₂ hq hold₂ y hy hclash.symm
    · rcases htxn q t₂ ht₂ with ⟨rfl, heq⟩ | ⟨-, hold₂⟩
      · rw [heq] at hy
        rcases List.mem_append.mp hy with hy | hy
        · exact h.others p q t₁ t hne hold₁ ht x hx y hy
        · obtain rfl := List.mem_singleton.mp hy
          exact hother p t₁ hp hold₁ x hx
      · exact h.others p q t₁ t₂ hne hold₁ hold₂ x hx y hy

/-- **A call keeps the unique constraints.** -/
theorem EntriesDistinct.serve (h : w.EntriesDistinct) {ch : Choice} {a : c.Reply}
    (hs : c.serve pid w ch = some (a, w')) : w'.EntriesDistinct := by
  have heffect := serve_effect hs
  by_cases hinsert : ∃ tenantId feedId e, c = .ingest (.insertEntry tenantId feedId e)
  · obtain ⟨tenantId, feedId, e, rfl⟩ := hinsert
    exact h.insertEntry hs
  rcases entries_effect heffect with hentries | ⟨t, rfl, ht, hentries⟩
  · exact h.congr hentries (nextEntryId_effect heffect) fun q t' ht' =>
      stagedEntries_effect heffect ht' fun tenantId feedId e hc =>
        hinsert ⟨tenantId, feedId, e, hc⟩
  · obtain ⟨-, rfl⟩ := Prod.mk.inj (Option.some.inj hs)
    have hcommit : w.commitTxn pid = { w.dropTxn pid with
        entries := w.entries ++ t.entries
        alerts := t.alerts.foldl commitAlert w.alerts
        fetchLogs := w.fetchLogs ++ t.fetchLogs
        feeds := t.feedUpdates.foldl (fun fs u => Feeds.updateAfterFetch w.now u fs) w.feeds } := by
      rw [commitTxn, ht]
    rw [hcommit]
    exact h.commit ht rfl rfl ((txn_dropTxn w pid pid).trans (if_pos rfl)) fun q hq =>
      (txn_dropTxn w pid q).trans (if_neg hq)

end World

/-! ## Runs -/

namespace System

variable {d : Deployment} {s s' : System}

/-- A step that executes no call leaves the articles alone. -/
theorem entries_quiet {w w' : World} (h : QuietStep w w') :
    w'.entries = w.entries ∧ w'.nextEntryId = w.nextEntryId ∧
      ∀ q t, w'.txn q = some t → w.txn q = some t := by
  cases h with
  | dropTxn pid =>
    refine ⟨rfl, rfl, fun q t ht => ?_⟩
    rw [World.txn_dropTxn] at ht
    obtain ⟨-, ht⟩ := Option.ite_none_left_eq_some.mp ht
    exact ht
  | _ => exact ⟨rfl, rfl, fun _ _ ht => ht⟩

theorem entriesDistinct_step {a : Action} (h : step d s a = some s')
    (hs : s.world.EntriesDistinct) : s'.world.EntriesDistinct := by
  rcases step_effect h with ⟨pid, c, ch, r, -, hserve⟩ | ⟨-, hquiet⟩
  · exact hs.serve hserve
  · obtain ⟨hentries, hnext, htxn⟩ := entries_quiet hquiet
    exact hs.congr hentries hnext.ge fun q t' ht' => .inr ⟨t', htxn q t' ht', rfl⟩

theorem entriesDistinct_of_init (h : s.Init)
    (hfresh : ∀ e ∈ s.world.entries, e.id < s.world.nextEntryId)
    (hapart : EntriesApart s.world.entries) : s.world.EntriesDistinct := by
  have hnone : ∀ pid, s.world.txn pid = none := by
    intro pid
    rw [World.txn, h.txns]
    rfl
  refine ⟨hfresh, hapart, ?_, ?_, ?_⟩
  · intro pid t ht
    rw [hnone] at ht
    cases ht
  · intro pid t ht
    rw [hnone] at ht
    cases ht
  · intro pid q t t' _ ht
    rw [hnone] at ht
    cases ht

/-- **No two articles of a feed share a content hash or a guid**, whatever is stored or staged in
the course of a run. -/
theorem entries_distinct {s₀ : System} (h₀ : s₀.Init)
    (hfresh : ∀ e ∈ s₀.world.entries, e.id < s₀.world.nextEntryId)
    (hapart : EntriesApart s₀.world.entries) (as : List Action) :
    Always (step d) (fun s => EntriesApart s.world.entries ∧
      ∀ pid t, s.world.txn pid = some t → EntriesApart (s.world.entries ++ t.entries)) s₀ as := by
  have halong : Along (step d) (fun _ _ _ => True) s₀ as :=
    along_of_forall (fun _ _ => trivial) s₀
  have halways := always_of_along (I := fun s : System => s.world.EntriesDistinct)
    (fun _ _ _ hs hstep _ => entriesDistinct_step hstep hs)
    (entriesDistinct_of_init h₀ hfresh hapart) halong
  exact halways.mono fun s hs => ⟨hs.apart, hs.staged⟩

/-- The article of the small deployment is stored once. -/
theorem entries_distinct_oneFeed :
    ((run (step webhookDeployment) oneFeed ingestArticle).map
        fun s => s.world.entries.length) = some 1 ∧
      Always (step webhookDeployment) (fun s => EntriesApart s.world.entries ∧
        ∀ pid t, s.world.txn pid = some t → EntriesApart (s.world.entries ++ t.entries))
        oneFeed ingestArticle :=
  ⟨by decide, entries_distinct oneFeed_init (fun _ he => absurd he List.not_mem_nil)
    List.Pairwise.nil ingestArticle⟩

end System

end Feedpulse
