import Feedpulse.Calls

/-!
# What a call can change

`CallEffect` lists the effects of calls on the shared state, each with the call that
has it; `serve_effect` says that there are no others. Every invariant of the system
is proved by going through this list instead of unfolding `serve`. The second part
says what holds of the rows a transaction stages and commits.
-/

namespace Feedpulse

open World

/-! ## The effects -/

/-- The effects of a call of the process `pid` in the state `w`. -/
inductive CallEffect (pid : Nat) (w : World) : Call → World → Prop
  /-- the call reads, waits, or addresses the outside world -/
  | none (c : Call) : CallEffect pid w c w
  /-- feeds are claimed -/
  | claim (limit : Nat) (skipped : List Nat) (picks : List FeedRow)
    (jitters : List (Nat × Nat)) (claimed feeds : List FeedRow)
    (h : Feeds.claimDueFeeds w.now limit skipped picks jitters w.feeds = some (claimed, feeds)) :
    CallEffect pid w (.feed (.claimDueFeeds limit)) { w with feeds := feeds }
  /-- stuck claims are released -/
  | releaseStuck (threshold : Nat) : CallEffect pid w (.feed (.releaseStuckFeeds threshold))
    { w with feeds := (Feeds.releaseStuckFeeds w.now threshold w.feeds).2 }
  /-- a tenant updates a feed -/
  | updateFeed (u : Feeds.FeedUpdate) : CallEffect pid w (.feed (.update u))
    { w with feeds := Feeds.applyUpdate w.now u w.feeds }
  /-- a fetch reports outside a transaction -/
  | reportFetch (u : Feeds.AfterFetch) : CallEffect pid w (.feed (.updateAfterFetch u))
    { w with feeds := Feeds.updateAfterFetch w.now u w.feeds }
  /-- a fetch is logged outside a transaction -/
  | logFetch (row : FetchLogRow) : CallEffect pid w (.feed (.recordFetchLog row))
    { w with fetchLogs := w.fetchLogs ++ [row] }
  /-- a transaction begins -/
  | begin : CallEffect pid w (.ingest .begin) (w.setTxn pid Txn.empty)
  /-- a transaction commits -/
  | commit : CallEffect pid w (.ingest .commit) (w.commitTxn pid)
  /-- a transaction is rolled back -/
  | rollback : CallEffect pid w (.ingest .rollback) (w.dropTxn pid)
  /-- a connection is returned -/
  | release : CallEffect pid w (.ingest .release) (w.dropTxn pid)
  /-- an entry is staged -/
  | stageEntry (tenantId : String) (feedId : Nat) (e : NormalizedEntry) (t : Txn)
    (row : EntryRow) (ht : w.txn pid = some t) :
    CallEffect pid w (.ingest (.insertEntry tenantId feedId e))
      { w.setTxn pid { t with entries := t.entries ++ [row] } with
        nextEntryId := w.nextEntryId + 1 }
  /-- alerts are staged -/
  | stageAlerts (rows : List UpsertRow) (t : Txn) (ht : w.txn pid = some t) :
    CallEffect pid w (.ingest (.upsertAlerts rows))
      { w.setTxn pid { t with
          alerts := (upsertAll w.now w.alerts rows w.nextAlertId t.alerts).2.2 } with
        nextAlertId := (upsertAll w.now w.alerts rows w.nextAlertId t.alerts).2.1 }
  /-- a fetch log is staged -/
  | stageLog (row : FetchLogRow) (t : Txn) (ht : w.txn pid = some t) :
    CallEffect pid w (.ingest (.recordFetchLog row))
      (w.setTxn pid { t with fetchLogs := t.fetchLogs ++ [row] })
  /-- a report is staged -/
  | stageReport (u : Feeds.AfterFetch) (t : Txn) (ht : w.txn pid = some t) :
    CallEffect pid w (.ingest (.updateAfterFetch u))
      (w.setTxn pid { t with feedUpdates := t.feedUpdates ++ [u] })
  /-- an alert is updated -/
  | writeAlert (id : Nat) (s : AlertWrite) :
    CallEffect pid w (.alert (.write id s)) (w.writeAlert id s)
  /-- a digest item is inserted -/
  | insertDigestItem (tenantId : String) (alertId : Nat) (chatId : String)
    (scheduledFor : Nat) (items : List DigestItemRow) (next : Nat)
    (hi : { w with digestItems := items, nextDigestItemId := next }
      = w.insertDigestItem tenantId alertId chatId scheduledFor) :
    CallEffect pid w (.alert (.insertDigestItem tenantId alertId chatId scheduledFor))
      { w with digestItems := items, nextDigestItemId := next }
  /-- a digest item is marked sent -/
  | markDigestItemSent (id : Nat) :
    CallEffect pid w (.alert (.markDigestItemSent id)) (w.markDigestItemSent id)
  /-- the Telegram channel of some alerts is converged -/
  | converge (c : AlertCall) (p : AlertRow → Bool)
    (hc : c = .reconcileTelegram ∨ ∃ alertId, c = .convergeTelegram alertId) :
    CallEffect pid w (.alert c)
      { w with alerts := Table.updateWhere p (deliverTelegram w.now) w.alerts }
  /-- a fetch job is added -/
  | addFetchJob (jobId : String) (data : FetchFeedJobData) :
    CallEffect pid w (.queue (.addFetchJob jobId data))
      { w with fetchQueue := w.fetchQueue.add jobId data }
  /-- a delivery job is added -/
  | addAlertJob (jobId : String) (data : AlertDeliveryJobData) :
    CallEffect pid w (.queue (.addAlertJob jobId data))
      { w with alertQueue := w.alertQueue.add jobId data }
  /-- a counter of the email quota changes -/
  | counters (c : RedisCall) (counters : List EmailCounter) :
    CallEffect pid w (.redis c) { w with emailCounters := counters }

section Effect

variable {pid : Nat} {w w' : World} {ch : Choice}

theorem feed_effect {c : FeedCall} {a : c.Reply} (h : c.serve w ch = some (a, w')) :
    CallEffect pid w (.feed c) w' := by
  cases c with
  | claimDueFeeds limit =>
    cases ch with
    | claim skipped picks jitters =>
      obtain ⟨-, h⟩ := Option.ite_none_right_eq_some.mp h
      obtain ⟨r, hr, he⟩ := Option.map_eq_some_iff.mp h
      cases he
      exact .claim limit skipped picks jitters r.1 r.2 hr
    | _ => cases h
  | releaseStuckFeeds threshold =>
    obtain ⟨-, h⟩ := Option.ite_none_right_eq_some.mp h
    cases h
    exact .releaseStuck threshold
  | update u =>
    obtain ⟨-, h⟩ := Option.ite_none_right_eq_some.mp h
    cases h
    exact .updateFeed u
  | updateAfterFetch u =>
    obtain ⟨-, h⟩ := Option.ite_none_right_eq_some.mp h
    cases h
    exact .reportFetch u
  | recordFetchLog row => cases h; exact .logFetch row
  | _ => cases h; exact .none _

theorem ingest_effect {c : IngestCall} {a : c.Reply} (h : c.serve pid w = some (a, w')) :
    CallEffect pid w (.ingest c) w' := by
  cases c with
  | begin => cases h; exact .begin
  | commit => cases h; exact .commit
  | rollback => cases h; exact .rollback
  | release => cases h; exact .release
  | insertEntry tenantId feedId e =>
    change w.insertEntry pid tenantId feedId e = some (a, w') at h
    unfold insertEntry at h
    split at h
    · cases h
    · rename_i t ht
      split at h
      · cases h
      · split at h
        · cases h
          exact .none _
        · cases h
          exact .stageEntry tenantId feedId e t _ ht
  | upsertAlerts rows =>
    change w.upsertAlerts pid rows = some (a, w') at h
    unfold upsertAlerts at h
    split at h
    · cases h
    · rename_i t ht
      split at h
      · cases h
      · cases h
        exact .stageAlerts rows t ht
  | recordFetchLog row =>
    obtain ⟨t, ht, he⟩ := Option.map_eq_some_iff.mp h
    cases he
    exact .stageLog row t ht
  | updateAfterFetch u =>
    obtain ⟨-, h⟩ := Option.ite_none_left_eq_some.mp h
    obtain ⟨t, ht, he⟩ := Option.map_eq_some_iff.mp h
    cases he
    exact .stageReport u t ht
  | entriesByIds ids =>
    obtain ⟨t, -, he⟩ := Option.map_eq_some_iff.mp h
    cases he
    exact .none _
  | connect => cases h; exact .none _
  | listActive tenantId => cases h; exact .none _

theorem alert_effect {c : AlertCall} {a : c.Reply} (h : c.serve w ch = some (a, w')) :
    CallEffect pid w (.alert c) w' := by
  cases c with
  | write id s => cases h; exact .writeAlert id s
  | insertDigestItem tenantId alertId chatId scheduledFor =>
    cases h
    have hi : { w with
        digestItems := (w.insertDigestItem tenantId alertId chatId scheduledFor).digestItems
        nextDigestItemId :=
          (w.insertDigestItem tenantId alertId chatId scheduledFor).nextDigestItemId }
        = w.insertDigestItem tenantId alertId chatId scheduledFor := by
      unfold World.insertDigestItem
      split <;> rfl
    exact hi ▸ .insertDigestItem _ _ _ _ _ _ hi
  | listDueGroups nowIso maxGroups =>
    cases ch with
    | groups picks =>
      change (if _ then some (picks, w) else none) = some (a, w') at h
      split at h
      · cases h
        exact .none _
      · cases h
    | _ => cases h
  | markDigestItemSent id => cases h; exact .markDigestItemSent id
  | convergeTelegram alertId => cases h; exact .converge _ _ (.inr ⟨alertId, rfl⟩)
  | reconcileTelegram => cases h; exact .converge _ _ (.inl rfl)
  | _ => cases h; exact .none _

theorem redis_effect (c : RedisCall) : CallEffect pid w (.redis c) (c.serve w).2 := by
  cases c with
  | incr tenantId day =>
    change CallEffect pid w _ (w.addToCounter tenantId day 1).2
    unfold addToCounter
    split <;> exact .counters _ _
  | decr tenantId day =>
    change CallEffect pid w _ (w.addToCounter tenantId day (-1)).2
    unfold addToCounter
    split <;> exact .counters _ _
  | expire tenantId day ttlSeconds =>
    change CallEffect pid w _ (w.expireCounter tenantId day ttlSeconds)
    unfold expireCounter
    split
    · exact .none _
    · exact .counters _ _

/-- **There are no other effects.** -/
theorem serve_effect {c : Call} {a : c.Reply} (h : c.serve pid w ch = some (a, w')) :
    CallEffect pid w c w' := by
  cases c with
  | feed c => exact feed_effect h
  | ingest c => exact ingest_effect h
  | alert c => exact alert_effect h
  | getSettings tenantId => cases h; exact .none _
  | queue c =>
    cases c with
    | getFetchJob jobId => cases h; exact .none _
    | addFetchJob jobId data => cases h; exact .addFetchJob jobId data
    | addAlertJob jobId data => cases h; exact .addAlertJob jobId data
  | redis c =>
    have he : w' = (c.serve w).2 := by
      have := Option.some.inj h
      exact (congrArg Prod.snd this).symm
    exact he ▸ redis_effect c
  | net c =>
    obtain ⟨r, -, he⟩ := Option.map_eq_some_iff.mp h
    cases he
    exact .none _
  | assertSchemaReady => cases h; exact .none _
  | clock => cases h; exact .none _
  | random bound =>
    cases ch with
    | random n =>
      change (if _ then some (n, w) else none) = some (a, w') at h
      split at h
      · cases h
        exact .none _
      · cases h
    | _ => cases h

end Effect

/-! ## Staged and committed alerts -/

namespace World

variable {pid : Nat} {w : World}

theorem mem_of_txn {t : Txn} (h : w.txn pid = some t) : (pid, t) ∈ w.txns := by
  obtain ⟨⟨q, t'⟩, hl, rfl⟩ := Option.map_eq_some_iff.mp h
  obtain rfl : q = pid := Table.key_of_lookup hl
  exact Table.mem_of_lookup hl

theorem mem_setTxn {t : Txn} {p : Nat × Txn} (h : p ∈ (w.setTxn pid t).txns) :
    p = (pid, t) ∨ p ∈ w.txns := by
  rcases List.mem_cons.mp h with h | h
  · exact .inl h
  · exact .inr (List.mem_filter.mp h).1

theorem mem_dropTxn {p : Nat × Txn} (h : p ∈ (w.dropTxn pid).txns) : p ∈ w.txns :=
  (List.mem_filter.mp h).1

/-- A transaction is what its process has written last. -/
theorem txn_setTxn (w : World) (pid q : Nat) (t : Txn) :
    (w.setTxn pid t).txn q = if q = pid then some t else w.txn q := by
  unfold txn setTxn Table.lookup
  by_cases h : q = pid
  · subst h
    simp
  · rw [if_neg h, List.find?_cons_of_neg (by simpa using Ne.symm h), List.find?_filter]
    congr 2
    funext p
    by_cases hp : p.1 = q
    · simp [hp, h]
    · simp [hp]

/-- A closed transaction is gone, the others are as they were. -/
theorem txn_dropTxn (w : World) (pid q : Nat) :
    (w.dropTxn pid).txn q = if q = pid then none else w.txn q := by
  unfold txn dropTxn Table.lookup
  by_cases h : q = pid
  · subst h
    rw [if_pos rfl, Option.map_eq_none_iff, List.find?_eq_none]
    intro p hp
    have := (List.mem_filter.mp hp).2
    simpa using this
  · rw [if_neg h, List.find?_filter]
    congr 2
    funext p
    by_cases hp : p.1 = q
    · simp [hp, h]
    · simp [hp]

/-- The rows staged by some transaction satisfy `P`. -/
def Staged (w : World) (P : AlertRow → Prop) : Prop :=
  ∀ p ∈ w.txns, ∀ r ∈ p.2.alerts, P r

theorem staged_setTxn {P : AlertRow → Prop} {t : Txn} (hP : w.Staged P)
    (ht : ∀ r ∈ t.alerts, P r) : (w.setTxn pid t).Staged P := by
  intro p hp
  rcases mem_setTxn hp with rfl | hp
  · exact ht
  · exact hP p hp

theorem staged_dropTxn {P : AlertRow → Prop} (hP : w.Staged P) : (w.dropTxn pid).Staged P :=
  fun p hp => hP p (mem_dropTxn hp)

/-- A staged row is the one just written or was staged before. -/
theorem mem_stageAlert {b r : AlertRow} {staged : List AlertRow}
    (h : r ∈ stageAlert b staged) : r = b ∨ r ∈ staged := by
  unfold stageAlert at h
  split at h
  · rcases List.mem_append.mp h with h | h
    · exact .inr h
    · exact .inl (List.mem_singleton.mp h)
  · obtain ⟨r', hr', rfl⟩ := Table.mem_updateWhere.mp h
    split
    · exact .inl rfl
    · exact .inr hr'

/-- What holds of fresh rows and survives an extension holds of every row a statement
stages. -/
theorem forall_upsertAll {P : AlertRow → Prop} {now : Nat} {committed : List AlertRow}
    (hnew : ∀ id u, P (AlertUpsert.insertRow now id u))
    (hext : ∀ b u, b ∈ committed ∨ P b → P (AlertUpsert.extendRow b u))
    {us : List UpsertRow} {nextId : Nat} {staged : List AlertRow} (hP : ∀ r ∈ staged, P r) :
    ∀ r ∈ (upsertAll now committed us nextId staged).2.2, P r := by
  induction us generalizing nextId staged with
  | nil => exact hP
  | cons u us ih =>
    refine ih fun r hr => ?_
    rcases mem_stageAlert hr with rfl | hr
    · rcases hf : (Table.lookup AlertUpsert.alertKey (AlertUpsert.rowKey u) staged).or
        (Table.lookup AlertUpsert.alertKey (AlertUpsert.rowKey u) committed) with _ | b
      · exact hnew nextId u
      · refine hext b u ?_
        rcases Option.or_eq_some_iff.mp hf with hb | ⟨-, hb⟩
        · exact .inr (hP b (Table.mem_of_lookup hb))
        · exact .inl (Table.mem_of_lookup hb)
    · exact hP r hr

/-- What a call of `pid` leaves staged: rows that were staged before, fresh rows, and
extensions. -/
theorem staged_effect {P : AlertRow → Prop} {c : Call} {w' : World}
    (h : CallEffect pid w c w') (hP : w.Staged P)
    (hnew : ∀ id u, P (AlertUpsert.insertRow w.now id u))
    (hext : ∀ b u, b ∈ w.alerts ∨ P b → P (AlertUpsert.extendRow b u)) : w'.Staged P := by
  cases h with
  | begin => exact staged_setTxn hP fun r hr => absurd hr List.not_mem_nil
  | commit =>
    unfold commitTxn
    split
    · exact hP
    · exact staged_dropTxn hP
  | rollback => exact staged_dropTxn hP
  | release => exact staged_dropTxn hP
  | stageEntry tenantId feedId e t row ht => exact staged_setTxn hP (hP _ (mem_of_txn ht))
  | stageAlerts rows t ht =>
    exact staged_setTxn hP (forall_upsertAll hnew hext (hP _ (mem_of_txn ht)))
  | stageLog row t ht => exact staged_setTxn hP (hP _ (mem_of_txn ht))
  | stageReport u t ht => exact staged_setTxn hP (hP _ (mem_of_txn ht))
  | _ => exact hP

/-- A row after a commit is a staged one without a counterpart in the table, or a row of
the table up to its rules. -/
theorem mem_foldl_commitAlert {staged alerts : List AlertRow} {r : AlertRow}
    (h : r ∈ staged.foldl commitAlert alerts) :
    (∃ b ∈ alerts, ∃ rules, r = { b with matchedRules := rules }) ∨
      ∃ b ∈ staged, (∀ x ∈ alerts, x.id ≠ b.id) ∧
        ∃ rules, r = { b with matchedRules := rules } := by
  induction staged generalizing alerts with
  | nil => exact .inl ⟨r, h, r.matchedRules, rfl⟩
  | cons b staged ih =>
    rcases ih h with ⟨x, hx, rules, rfl⟩ | ⟨x, hx, hfresh, hr⟩
    · unfold commitAlert at hx
      split at hx
      · rename_i hl
        rcases List.mem_append.mp hx with hx | hx
        · exact .inl ⟨x, hx, rules, rfl⟩
        · obtain rfl := List.mem_singleton.mp hx
          exact .inr ⟨x, List.mem_cons_self, Table.lookup_eq_none.mp hl, rules, rfl⟩
      · obtain ⟨y, hy, rfl⟩ := Table.mem_updateWhere.mp hx
        refine .inl ⟨y, hy, rules, ?_⟩
        split <;> rfl
    · refine .inr ⟨x, List.mem_cons_of_mem _ hx, fun y hy => ?_, hr⟩
      unfold commitAlert at hfresh
      split at hfresh
      · exact hfresh y (List.mem_append_left _ hy)
      · intro hyx
        by_cases hyb : y.id = b.id
        · refine hfresh { y with matchedRules := b.matchedRules } ?_ hyx
          exact Table.mem_updateWhere.mpr ⟨y, hy, by simp [hyb]⟩
        · exact hfresh y (Table.mem_updateWhere.mpr ⟨y, hy, by simp [hyb]⟩) hyx

/-- Ids of alerts do not leave the table. -/
theorem alert_id_mono {c : Call} {w' : World} (h : CallEffect pid w c w') {id : Nat}
    (hb : ∃ b ∈ w.alerts, b.id = id) : ∃ b ∈ w'.alerts, b.id = id := by
  have hupd : ∀ (p : AlertRow → Bool) (f : AlertRow → AlertRow), (∀ r, (f r).id = r.id) →
      ∀ alerts : List AlertRow, (∃ b ∈ alerts, b.id = id) →
        ∃ b ∈ Table.updateWhere p f alerts, b.id = id := by
    rintro p f hf alerts ⟨b, hb, hid⟩
    refine ⟨if p b then f b else b, Table.mem_updateWhere.mpr ⟨b, hb, rfl⟩, ?_⟩
    split
    · exact (hf b).trans hid
    · exact hid
  have hcommit : ∀ staged alerts : List AlertRow, (∃ b ∈ alerts, b.id = id) →
      ∃ b ∈ staged.foldl commitAlert alerts, b.id = id := by
    intro staged
    induction staged with
    | nil => exact fun _ h => h
    | cons x staged ih =>
      refine fun alerts h => ih _ ?_
      unfold commitAlert
      split
      · obtain ⟨b, hb, hid⟩ := h
        exact ⟨b, List.mem_append_left _ hb, hid⟩
      · exact hupd _ (fun b => { b with matchedRules := x.matchedRules }) (fun _ => rfl) alerts h
  cases h with
  | writeAlert id st => exact hupd _ _ (fun r => AlertWrite.apply_id _ st r) _ hb
  | converge c p => exact hupd p (deliverTelegram w.now) (fun _ => rfl) _ hb
  | commit =>
    unfold commitTxn
    split
    · exact hb
    · exact hcommit _ _ hb
  | _ => exact hb

/-- Staged alerts are versions of rows of the table, or fresh: pending and not sent. -/
def StagedFresh (w : World) : Prop :=
  w.Staged fun r => (∃ b ∈ w.alerts, b.id = r.id) ∨
    (r.sent = false ∧ r.deliveryStatus = .pending)

theorem stagedFresh_effect {c : Call} {w' : World} (h : CallEffect pid w c w')
    (hw : w.StagedFresh) : w'.StagedFresh := by
  have hkeep : ∀ r : AlertRow, (∃ b ∈ w.alerts, b.id = r.id) ∨
      (r.sent = false ∧ r.deliveryStatus = .pending) → (∃ b ∈ w'.alerts, b.id = r.id) ∨
      (r.sent = false ∧ r.deliveryStatus = .pending) :=
    fun r hr => hr.imp_left (alert_id_mono h)
  have hw' : w.Staged fun r => (∃ b ∈ w'.alerts, b.id = r.id) ∨
      (r.sent = false ∧ r.deliveryStatus = .pending) :=
    fun p hp r hr => hkeep r (hw p hp r hr)
  refine staged_effect h hw' (fun id u => .inr ⟨rfl, rfl⟩) ?_
  rintro b u (hb | hb)
  · exact .inl (alert_id_mono h ⟨b, hb, rfl⟩)
  · exact hb

end World

end Feedpulse
