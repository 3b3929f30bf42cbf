import Feedpulse.OpmlClassification
import Feedpulse.OpmlSystem

/-!
# What a parse job stores

A parse job that runs without failures while no other transaction is open leaves a preview: the
items in the order of the document, and counters that are the numbers of its rows. The preview is
right exactly if the classification is; if it is not, either the import has failed, or an item is
stored under another status.
-/

namespace Feedpulse

open Prog (exec exec_invoke exec_bind_ok exec_tryCatch_ok exec_tryCatch_error exec_finallyDo)

/-! ## A process on its own -/

/-- A call of a process whose calls succeed. -/
def answered (pid : Nat) (w : OpmlWorld) (c : OpmlCall) :
    Option (Except String c.Reply × OpmlWorld) :=
  c.answer pid w (.ok .none)

/-- The state while the process is in a transaction and no other one is. -/
def OpmlWorld.inTxn (w : OpmlWorld) (pid : Nat) (t : OpmlTxn) (q : OpmlSequences) : OpmlWorld :=
  { w with opmlTxns := [(pid, t)], sequences := q }

/-- The transaction after one more change. -/
def OpmlTxn.write (t : OpmlTxn) (x : OpmlWrite) : OpmlTxn := { t with writes := t.writes ++ [x] }

section Answers

variable {pid : Nat} {w : OpmlWorld} {t : OpmlTxn} {q : OpmlSequences}

@[simp] theorem OpmlWorld.opmlTxn_inTxn : (w.inTxn pid t q).opmlTxn pid = some t := by
  simp [opmlTxn, inTxn, Table.lookup]

@[simp] theorem OpmlWorld.view_inTxn (t' : OpmlTxn) :
    (w.inTxn pid t q).view t' = w.view t' := rfl

theorem OpmlWorld.setOpmlTxn_inTxn (t' : OpmlTxn) :
    (w.inTxn pid t q).setOpmlTxn pid t' = w.inTxn pid t' q := by
  simp [setOpmlTxn, inTxn]

theorem OpmlWorld.dropOpmlTxn_inTxn :
    (w.inTxn pid t q).dropOpmlTxn pid = { w with opmlTxns := [], sequences := q } := by
  simp [dropOpmlTxn, inTxn]

theorem answered_begin (hquiet : w.opmlTxns = []) :
    answered pid w .begin = some (.ok (), w.inTxn pid
      { aborted := false, startedAt := w.core.now, writes := [] } w.sequences) := by
  simp [answered, OpmlCall.answer, OpmlCall.answerOwn, OpmlCall.serve, OpmlWorld.setOpmlTxn,
    OpmlWorld.inTxn, hquiet]

/-- A change is seen after those before it. -/
theorem OpmlWorld.view_write (w : OpmlWorld) (t : OpmlTxn) (x : OpmlWrite) :
    w.view (t.write x) = x.apply t.startedAt (w.view t) :=
  OpmlTables.applyAll_append t.startedAt t.writes [x] w.tables

/-- A statement that only reads. -/
theorem answered_read (hopen : t.aborted = false) {s : OpmlStatement} {reply : s.Reply}
    (heval : s.eval t.startedAt q (w.view t) = (.ok reply, none)) :
    answered pid (w.inTxn pid t q) (.statement .client s)
      = some (.ok reply, w.inTxn pid t q) := by
  have heval' : s.eval t.startedAt (w.inTxn pid t q).sequences ((w.inTxn pid t q).view t)
      = (.ok reply, none) := heval
  simp only [answered, OpmlCall.answer, OpmlCall.answerOwn, OpmlCall.serve, OpmlWorld.onClient,
    OpmlWorld.opmlTxn_inTxn, hopen, Bool.false_eq_true, if_false, heval']

/-- A statement that writes. -/
theorem answered_write (hopen : t.aborted = false) {s : OpmlStatement} {reply : s.Reply}
    {x : OpmlWrite} (heval : s.eval t.startedAt q (w.view t) = (.ok reply, some x)) :
    answered pid (w.inTxn pid t q) (.statement .client s)
      = some (.ok reply, w.inTxn pid (t.write x) (x.advance q)) := by
  have heval' : s.eval t.startedAt (w.inTxn pid t q).sequences ((w.inTxn pid t q).view t)
      = (.ok reply, some x) := heval
  have hfree : (w.inTxn pid t q).blocked ((w.inTxn pid t q).otherOpmlTxns pid) x = false := by
    simp [OpmlWorld.blocked, OpmlWorld.otherOpmlTxns, OpmlWorld.inTxn]
  simp only [answered, OpmlCall.answer, OpmlCall.answerOwn, OpmlCall.serve, OpmlWorld.onClient,
    OpmlWorld.opmlTxn_inTxn, hopen, Bool.false_eq_true, if_false, heval', hfree,
    OpmlWorld.setOpmlTxn_inTxn]
  rw [OpmlTxn.write, hopen]
  rfl

theorem answered_commit (hopen : t.aborted = false) :
    answered pid (w.inTxn pid t q) .commit
      = some (.ok (), { w with opmlTxns := [], sequences := q }.setTables (w.view t)) := by
  simp [answered, OpmlCall.answer, OpmlCall.answerOwn, OpmlCall.serve, OpmlWorld.commitOpmlTxn,
    hopen, OpmlWorld.dropOpmlTxn_inTxn]

theorem answered_rollback :
    answered pid (w.inTxn pid t q) .rollback
      = some (.ok (), { w with opmlTxns := [], sequences := q }) := by
  simp [answered, OpmlCall.answer, OpmlCall.answerOwn, OpmlCall.serve, OpmlWorld.dropOpmlTxn_inTxn]

theorem answered_release (hquiet : w.opmlTxns = []) :
    answered pid w .release = some (.ok (), w) := by
  have hdrop : w.dropOpmlTxn pid = w := by
    simp only [OpmlWorld.dropOpmlTxn, hquiet, List.filter_nil]
    rw [← hquiet]
  simp [answered, OpmlCall.answer, OpmlCall.answerOwn, OpmlCall.serve, hdrop]

/-- A statement on the pool that only reads. -/
theorem answered_pool_read {s : OpmlStatement} {reply : s.Reply}
    (heval : s.eval w.core.now w.sequences w.tables = (.ok reply, none)) :
    answered pid w (.statement .pool s) = some (.ok reply, w) := by
  simp only [answered, OpmlCall.answer, OpmlCall.answerOwn, OpmlCall.serve, OpmlWorld.onPool,
    heval]

/-- A statement on the pool that writes, while no transaction is open. -/
theorem answered_pool_write (hquiet : w.opmlTxns = []) {s : OpmlStatement} {reply : s.Reply}
    {x : OpmlWrite} (heval : s.eval w.core.now w.sequences w.tables = (.ok reply, some x)) :
    answered pid w (.statement .pool s) = some (.ok reply,
      { w.setTables (x.apply w.core.now w.tables) with sequences := x.advance w.sequences }) := by
  have hfree : w.blocked (w.opmlTxns.map Prod.snd) x = false := by
    simp [OpmlWorld.blocked, hquiet]
  simp only [answered, OpmlCall.answer, OpmlCall.answerOwn, OpmlCall.serve, OpmlWorld.onPool,
    heval, hfree, Bool.false_eq_true, if_false]

end Answers

namespace ProcessOpmlParseJob

variable {cfg : OpmlConfig} {rt : OpmlRuntime} {pid : Nat} {w : OpmlWorld}

/-! ## Rows that can be stored -/

/-- Items that the table accepts one after the other: those that are not invalid have a normal
form, and those that are not duplicates have different hashes. -/
structure Insertable (items : List OpmlImportItemInput) : Prop where
  /-- the check on the normal form -/
  complete : ∀ item ∈ items, item.itemStatus ≠ .invalid →
    item.normalizedUrl.isSome = true ∧ item.normalizedUrlHash.isSome = true
  /-- the unique index -/
  distinct : items.Pairwise fun a b => a.itemStatus ≠ .duplicate → b.itemStatus ≠ .duplicate →
    b.normalizedUrlHash.isSome = true → a.normalizedUrlHash ≠ b.normalizedUrlHash

theorem Insertable.sublist {items items' : List OpmlImportItemInput} (h : Insertable items)
    (hsub : items'.Sublist items) : Insertable items' :=
  ⟨fun item hitem => h.complete item (hsub.subset hitem), h.distinct.sublist hsub⟩

/-- What the second pass leaves of a draft. -/
theorem Drafted.of_classifyExisting {earlier : List ParsedOpmlItem} {item : ParsedOpmlItem}
    {draft row : OpmlImportItemInput} (h : Drafted cfg rt earlier item draft)
    {existing : List FeedRow} (hrow : classifyExisting cfg rt existing draft = .ok row) :
    (row.itemStatus ≠ .invalid →
        row.normalizedUrl.isSome = true ∧ row.normalizedUrlHash.isSome = true) ∧
      (row.itemStatus ≠ .duplicate → ∀ hash, row.normalizedUrlHash = some hash →
        ∃ url, FirstOfHash cfg rt earlier item hash url) := by
  cases h with
  | invalid hnone =>
    obtain ⟨message, hlocal⟩ := classifyLocalItem_of_none hnone
    rw [hlocal] at hrow
    cases hrow
    exact ⟨fun h => absurd rfl h, fun _ _ h => by cases h⟩
  | @duplicate hash url hitem hother =>
    rw [classifyLocalItem_of_some hitem] at hrow
    cases hrow
    exact ⟨fun _ => ⟨rfl, rfl⟩, fun h => absurd rfl h⟩
  | @first hash url hfirst =>
    rw [classifyLocalItem_of_some hfirst.1, classifyExisting] at hrow
    have hkept : ∀ status, row = ⟨item.title, item.outlinePath, item.sourceXmlUrl, some url,
        some hash, status, none⟩ →
        (row.itemStatus ≠ .invalid →
            row.normalizedUrl.isSome = true ∧ row.normalizedUrlHash.isSome = true) ∧
          (row.itemStatus ≠ .duplicate → ∀ hash, row.normalizedUrlHash = some hash →
            ∃ url, FirstOfHash cfg rt earlier item hash url) := by
      rintro status rfl
      refine ⟨fun _ => ⟨rfl, rfl⟩, fun _ hash' hsome => ?_⟩
      cases hsome
      exact ⟨url, hfirst⟩
    split at hrow
    · split at hrow
      · cases hrow
        exact hkept _ rfl
      · rename_i feed _
        rcases hnormal : FeedUrl.normalizeFeedUrl rt.toUrlRuntime cfg.allowPrivateFeedHosts feed.url
          with message | found
        · rw [hnormal] at hrow
          cases hrow
        · simp only [hnormal, Except.map, Except.ok.injEq] at hrow
          split at hrow
          · subst hrow
            exact ⟨fun h => absurd rfl h, fun _ _ h => by cases h⟩
          · exact hkept _ hrow.symm
    · cases hrow
      exact hkept _ rfl

/-- **The rows of a preview can be stored.** -/
theorem insertable_of_mapM (hrt : NoEmptyText rt) {existing : List FeedRow}
    {earlier items : List ParsedOpmlItem} {seenHashes : List String}
    (hseen : Seen cfg rt earlier seenHashes) {rows : List OpmlImportItemInput}
    (hrows : (markDuplicates seenHashes (items.map (classifyLocalItem cfg rt))).mapM
      (classifyExisting cfg rt existing) = .ok rows) :
    Insertable rows ∧ ∀ row ∈ rows, row.itemStatus ≠ .duplicate →
      ∀ hash, row.normalizedUrlHash = some hash →
        ¬∃ other ∈ earlier, HasHash cfg rt hash other := by
  induction items generalizing earlier seenHashes rows with
  | nil =>
    cases hrows
    exact ⟨⟨fun _ h => absurd h List.not_mem_nil, List.Pairwise.nil⟩,
      fun _ h => absurd h List.not_mem_nil⟩
  | cons item items ih =>
    obtain ⟨draft, seenHashes', hcons, hdraft, hseen'⟩ :=
      markDuplicates_cons hrt hseen (items.map (classifyLocalItem cfg rt))
    rw [List.map_cons, hcons] at hrows
    obtain ⟨row, rows', hrow, hrows', rfl⟩ := mapM_cons_eq_ok.mp hrows
    obtain ⟨hinsertable, hfresh⟩ := ih hseen' hrows'
    obtain ⟨hcomplete, hfirst⟩ := hdraft.of_classifyExisting hrow
    refine ⟨⟨?_, List.pairwise_cons.mpr ⟨?_, hinsertable.distinct⟩⟩, ?_⟩
    · intro other hother
      rcases List.mem_cons.mp hother with rfl | hother'
      · exact hcomplete
      · exact hinsertable.complete other hother'
    · intro other hother hrowStatus hotherStatus hsome heq
      obtain ⟨hash, hhash⟩ := Option.isSome_iff_exists.mp hsome
      obtain ⟨url, hitem, -⟩ := hfirst hrowStatus hash (heq.trans hhash)
      exact hfresh other hother hotherStatus hash hhash
        ⟨item, List.mem_append_right _ (List.mem_singleton_self item), url, hitem⟩
    · intro other hother hstatus hash hhash
      rcases List.mem_cons.mp hother with rfl | hother'
      · obtain ⟨url, -, hnone⟩ := hfirst hstatus hash hhash
        exact hnone
      · rintro ⟨earlierItem, hearlier, hhas⟩
        exact hfresh other hother' hstatus hash hhash
          ⟨earlierItem, List.mem_append_left _ hearlier, hhas⟩

/-! ## Storing the rows -/

/-- The items of an import, in the order of the table. -/
def itemsOf (importId : Nat) (items : List OpmlImportItemRow) : List OpmlImportItemInput :=
  (items.filter fun i => i.importId = importId).map OpmlImportItemRow.input

/-- An item that goes well with those stored is accepted. -/
theorem not_itemRejected {importId : Nat} {items : List OpmlImportItemRow}
    {item : OpmlImportItemInput}
    (h : Insertable (itemsOf importId items ++ [item])) :
    OpmlImports.itemRejected importId item items = false := by
  have hcomplete := h.complete item (List.mem_append_right _ (List.mem_singleton_self item))
  have hdistinct := (List.pairwise_append.mp h.distinct).2.2
  rw [OpmlImports.itemRejected, Bool.or_eq_false_iff]
  refine ⟨?_, ?_⟩
  · simpa using hcomplete
  · rw [Bool.eq_false_iff]
    intro hclash
    simp only [Bool.and_eq_true, decide_eq_true_eq, List.any_eq_true] at hclash
    obtain ⟨⟨hstatus, hsome⟩, stored, hstored, ⟨himport, hstatus'⟩, heq⟩ := hclash
    refine hdistinct stored.input ?_ item (List.mem_singleton_self item) hstatus' hstatus hsome heq
    exact List.mem_map_of_mem (List.mem_filter.mpr ⟨hstored, decide_eq_true himport⟩)

/-- **The insertions** store the items after those of the import that are there. -/
theorem exec_insertItems {tenantId : String} {importId : Nat} {items : List OpmlImportItemInput}
    {t : OpmlTxn} {q : OpmlSequences} (hopen : t.aborted = false)
    (h : Insertable (itemsOf importId (w.view t).items ++ items)) :
    ∃ t' q', exec (answered pid) (OpmlImportsRepository.insertItems tenantId importId items)
        (w.inTxn pid t q) = some (.ok (), w.inTxn pid t' q') ∧
      t'.aborted = false ∧ t'.startedAt = t.startedAt ∧
      (w.view t').imports = (w.view t).imports ∧
      itemsOf importId (w.view t').items = itemsOf importId (w.view t).items ++ items := by
  induction items generalizing t q with
  | nil => exact ⟨t, q, rfl, hopen, rfl, rfl, (List.append_nil _).symm⟩
  | cons item items ih =>
    have hitem : Insertable (itemsOf importId (w.view t).items ++ [item]) :=
      h.sublist ((List.Sublist.refl _).append
        (List.singleton_sublist.mpr List.mem_cons_self))
    obtain ⟨stored, himport, hinput, heval⟩ : ∃ stored : OpmlImportItemRow,
        stored.importId = importId ∧ stored.input = item ∧
        (OpmlStatement.insertItem tenantId importId item).eval t.startedAt q (w.view t)
          = (.ok (), some (.insertItem stored)) :=
      ⟨{ id := q.itemId, tenantId := tenantId, importId := importId, input := item,
          feedId := none }, rfl, rfl, by
        simp only [OpmlStatement.eval, not_itemRejected hitem, Bool.false_eq_true, if_false]⟩
    have hexec : exec (answered pid)
        (opmlStatement .client (.insertItem tenantId importId item)) (w.inTxn pid t q) = _ :=
      exec_invoke (answered_write hopen heval)
    have hview := w.view_write t (.insertItem stored)
    have hstored : itemsOf importId (w.view (t.write (.insertItem stored))).items
        = itemsOf importId (w.view t).items ++ [item] := by
      rw [hview]
      simp [OpmlWrite.apply, itemsOf, List.filter_append, himport, hinput]
    obtain ⟨t', q', hrest, hopen', hstarted, himports, hitems⟩ :=
      ih (t := t.write (.insertItem stored)) (q := OpmlWrite.advance q (.insertItem stored)) hopen
        (by rw [hstored, List.append_assoc]; exact h)
    refine ⟨t', q', ?_, hopen', hstarted, ?_, ?_⟩
    · rw [OpmlImportsRepository.insertItems, exec_bind_ok hexec]
      exact hrest
    · rw [himports, hview]
      rfl
    · rw [hitems, hstored, List.append_assoc]
      rfl

/-! ## The transaction -/

variable {job : OpmlParsePreviewJobData} {row : OpmlImportRow} {tenantId : String}

/-- The statuses after an update of the import. -/
theorem lookup_markImportStatus (now : Nat) {t : OpmlTables} {importId : Nat}
    {u : OpmlStatusUpdate}
    (h : Table.lookup OpmlImportRow.id importId t.imports = some row) (hu : u.importId = importId) :
    Table.lookup OpmlImportRow.id importId ((OpmlWrite.markImportStatus u).apply now t).imports
      = some (u.apply now row) := by
  have hrow := Table.key_of_lookup h
  change Table.lookup OpmlImportRow.id importId (Table.updateWhere _ _ t.imports) = _
  have hid : ∀ r, (u.apply now r).id = r.id := fun _ => rfl
  rw [Table.lookup_updateWhere hid, h, hu]
  simp [hrow]

/-- `markImportStatus` in the transaction. -/
theorem exec_markImportStatus {t : OpmlTxn} {q : OpmlSequences} (hopen : t.aborted = false)
    {u : OpmlStatusUpdate}
    (h : Table.lookup OpmlImportRow.id u.importId (w.view t).imports = some row) :
    exec (answered pid) (OpmlImportsRepository.markImportStatus u .client) (w.inTxn pid t q)
      = some (.ok (u.apply t.startedAt row),
        w.inTxn pid (t.write (.markImportStatus u)) q) := by
  have heval : (OpmlStatement.markImportStatus u).eval t.startedAt q (w.view t)
      = (.ok (some (u.apply t.startedAt row)), some (.markImportStatus u)) := by
    simp only [OpmlStatement.eval, h, Option.map_some]
  have hexec : exec (answered pid) (opmlStatement .client (.markImportStatus u)) (w.inTxn pid t q)
      = _ := exec_invoke (answered_write hopen heval)
  rw [OpmlImportsRepository.markImportStatus, exec_bind_ok hexec]
  rfl

/-- `replaceImportItems` in the transaction. -/
theorem exec_replaceImportItems (pid : Nat) {t : OpmlTxn} {q : OpmlSequences}
    (hopen : t.aborted = false) {importId : Nat} {items : List OpmlImportItemInput}
    (hitems : Insertable items)
    (h : Table.lookup OpmlImportRow.id importId (w.view t).imports = some row) :
    ∃ t' q', exec (answered pid) (OpmlImportsRepository.replaceImportItems importId items)
        (w.inTxn pid t q) = some (.ok (), w.inTxn pid t' q') ∧
      t'.aborted = false ∧ t'.startedAt = t.startedAt ∧
      (w.view t').imports = (w.view t).imports ∧
      itemsOf importId (w.view t').items = items := by
  have htenant : exec (answered pid) (OpmlImportsRepository.getImportTenantId importId .client)
      (w.inTxn pid t q) = some (.ok row.tenantId, w.inTxn pid t q) := by
    have heval : (OpmlStatement.getImportTenantId importId).eval t.startedAt q (w.view t)
        = (.ok (some row.tenantId), none) := by
      simp only [OpmlStatement.eval, h, Option.map_some]
    have hexec : exec (answered pid) (opmlStatement .client (.getImportTenantId importId))
        (w.inTxn pid t q) = _ := exec_invoke (answered_read hopen heval)
    rw [OpmlImportsRepository.getImportTenantId, exec_bind_ok hexec]
    rfl
  have hdelete : exec (answered pid) (opmlStatement .client (.deleteItems importId))
      (w.inTxn pid t q) = some (.ok (), w.inTxn pid (t.write (.deleteItems importId)) q) :=
    exec_invoke (answered_write hopen rfl)
  have hview := w.view_write t (.deleteItems importId)
  have hnone : itemsOf importId (w.view (t.write (.deleteItems importId))).items = [] := by
    rw [hview]
    simp [OpmlWrite.apply, itemsOf, List.filter_filter]
  have hdeleted : (t.write (.deleteItems importId)).aborted = false := hopen
  have hinsertable : Insertable
      (itemsOf importId (w.view (t.write (.deleteItems importId))).items ++ items) := by
    rw [hnone]
    exact hitems
  obtain ⟨t', q', hrest, hopen', hstarted, himports, hstored⟩ :=
    exec_insertItems hdeleted hinsertable
  refine ⟨t', q', ?_, hopen', hstarted, ?_, ?_⟩
  · rw [OpmlImportsRepository.replaceImportItems, exec_bind_ok htenant, exec_bind_ok hdelete]
    exact hrest
  · rw [himports, hview]
    rfl
  · rw [hstored, hnone]
    rfl

/-- The feeds `findExistingFeedsByHash` finds. -/
def foundFeeds (tenantId : String) (feeds : List FeedRow) (candidates : List (String × String)) :
    List FeedRow :=
  if candidates.isEmpty then []
  else OpmlImports.existingFeeds tenantId (candidates.map Prod.fst).dedup
    (candidates.map Prod.snd).dedup feeds

theorem exec_findExistingFeedsByHash {t : OpmlTxn} {q : OpmlSequences} (hopen : t.aborted = false)
    (candidates : List (String × String)) :
    exec (answered pid) (findExistingFeedsByHash tenantId candidates) (w.inTxn pid t q)
      = some (.ok (foundFeeds tenantId (w.view t).feeds candidates), w.inTxn pid t q) := by
  rw [findExistingFeedsByHash, foundFeeds]
  split
  · rfl
  · exact exec_invoke (answered_read hopen rfl)

/-- The drafts of a document. -/
def draftsOf (cfg : OpmlConfig) (rt : OpmlRuntime) (items : List ParsedOpmlItem) :
    List OpmlImportItemInput :=
  markDuplicates [] (items.map (classifyLocalItem cfg rt))

/-- The rows of a preview of a document, or the message of the failure. -/
def previewRows (cfg : OpmlConfig) (rt : OpmlRuntime) (tenantId : String) (feeds : List FeedRow)
    (items : List ParsedOpmlItem) : Except String (List OpmlImportItemInput) :=
  (draftsOf cfg rt items).mapM (classifyExisting cfg rt
    (foundFeeds tenantId feeds (normalizedCandidates (draftsOf cfg rt items))))

/-- The counters of an import are the numbers of its rows. -/
structure Counted (row : OpmlImportRow) (items : List OpmlImportItemInput) : Prop where
  /-- all rows -/
  total : row.totalItems = items.length
  /-- rows that are not invalid -/
  valid : row.validItems = items.countP fun item => item.itemStatus ≠ .invalid
  /-- duplicates -/
  duplicate : row.duplicateItems = items.countP fun item => item.itemStatus = .duplicate
  /-- existing feeds -/
  existing : row.existingItems = items.countP fun item => item.itemStatus = .existing
  /-- invalid rows -/
  invalid : row.invalidItems = items.countP fun item => item.itemStatus = .invalid

/-- A preview is stored: its status, its rows, and counters that are the numbers of the rows. -/
structure Stored (w : OpmlWorld) (importId : Nat) (items : List OpmlImportItemInput) : Prop where
  /-- the rows -/
  items_eq : itemsOf importId w.items = items
  /-- the import -/
  row : ∃ row, Table.lookup OpmlImportRow.id importId w.imports = some row ∧
    row.status = .previewReady ∧ Counted row items

/-- The end of the transaction, once the rows are known or cannot be made. -/
def store (importId : Nat) : Except String (List OpmlImportItemInput) → OpmlProgram Unit
  | .error message => throw message
  | .ok items => do
    OpmlImportsRepository.replaceImportItems importId items
    let _ ← OpmlImportsRepository.markImportStatus
      { importId := importId, status := .previewReady, counters := counters items } .client
    opmlCall .commit

/-- The transaction up to the rows: the import is marked, and the feeds are looked up. -/
theorem exec_transaction (pid : Nat) (hquiet : w.opmlTxns = [])
    (hrow : Table.lookup OpmlImportRow.id job.importId w.imports = some row)
    {parsed : List ParsedOpmlItem}
    (hparsed : rt.extractOpmlItems job.opmlXml cfg.opmlUploadMaxBytes maxOutlineTags
      = .ok parsed) :
    ∃ t row', exec (answered pid) (transaction cfg rt tenantId job) w
        = exec (answered pid) (store job.importId (previewRows cfg rt tenantId w.core.feeds parsed))
          (w.inTxn pid t w.sequences) ∧
      t.aborted = false ∧
      Table.lookup OpmlImportRow.id job.importId (w.view t).imports = some row' := by
  have hbegin : exec (answered pid) (opmlCall .begin) w = _ :=
    exec_invoke (answered_begin hquiet)
  obtain ⟨t, ht⟩ : ∃ t : OpmlTxn,
      t = { aborted := false, startedAt := w.core.now, writes := [] } := ⟨_, rfl⟩
  rw [← ht] at hbegin
  have hopen : t.aborted = false := by rw [ht]
  have hempty : w.view t = w.tables := by
    rw [ht]
    rfl
  have hlookup : Table.lookup OpmlImportRow.id job.importId (w.view t).imports = some row := by
    rw [hempty]
    exact hrow
  obtain ⟨u, hu⟩ : ∃ u : OpmlStatusUpdate, u = { importId := job.importId, status := .parsing } :=
    ⟨_, rfl⟩
  have hid : u.importId = job.importId := by rw [hu]
  have hmark : exec (answered pid) (OpmlImportsRepository.markImportStatus u .client)
      (w.inTxn pid t w.sequences) = _ := exec_markImportStatus hopen (by rw [hid]; exact hlookup)
  have hparsing := lookup_markImportStatus t.startedAt hlookup hid
  rw [← w.view_write] at hparsing
  have hopen' : (t.write (.markImportStatus u)).aborted = false := hopen
  have hfound : exec (answered pid) (findExistingFeedsByHash tenantId
      (normalizedCandidates (draftsOf cfg rt parsed)))
      (w.inTxn pid (t.write (.markImportStatus u)) w.sequences) = _ :=
    exec_findExistingFeedsByHash hopen' _
  have hfeeds : (w.view (t.write (.markImportStatus u))).feeds = w.core.feeds := by
    rw [w.view_write, hempty]
    rfl
  rw [hfeeds] at hfound
  refine ⟨t.write (.markImportStatus u), _, ?_, hopen', hparsing⟩
  rw [transaction, exec_bind_ok hbegin, ← hu, exec_bind_ok hmark]
  simp only [hparsed]
  rw [draftsOf] at hfound
  rw [exec_bind_ok hfound, previewRows, draftsOf]
  rcases (markDuplicates [] (parsed.map (classifyLocalItem cfg rt))).mapM _ with message | items
  · rfl
  · rfl

/-- **The rows are stored**, with their counters. -/
theorem exec_store (pid : Nat) {t : OpmlTxn} {q : OpmlSequences} (hopen : t.aborted = false)
    {items : List OpmlImportItemInput} (hinsertable : Insertable items) {importId : Nat}
    (hrow : Table.lookup OpmlImportRow.id importId (w.view t).imports = some row) :
    ∃ w', exec (answered pid) (store importId (.ok items)) (w.inTxn pid t q) = some (.ok (), w') ∧
      w'.opmlTxns = [] ∧ Stored w' importId items := by
  obtain ⟨t', q', hreplace, hopen', -, himports, hstored⟩ :=
    exec_replaceImportItems pid (q := q) hopen hinsertable hrow
  rw [← himports] at hrow
  obtain ⟨u, hu⟩ : ∃ u : OpmlStatusUpdate,
      u = { importId := importId, status := .previewReady, counters := counters items } :=
    ⟨_, rfl⟩
  have hid : u.importId = importId := by rw [hu]
  have hready : exec (answered pid) (OpmlImportsRepository.markImportStatus u .client)
      (w.inTxn pid t' q') = _ := exec_markImportStatus hopen' (by rw [hid]; exact hrow)
  have hdone := lookup_markImportStatus t'.startedAt hrow hid
  rw [← w.view_write] at hdone
  have hopen'' : (t'.write (.markImportStatus u)).aborted = false := hopen'
  have hcommit : exec (answered pid) (opmlCall .commit)
      (w.inTxn pid (t'.write (.markImportStatus u)) q') = _ :=
    exec_invoke (answered_commit hopen'')
  refine ⟨{ w with opmlTxns := [], sequences := q' }.setTables
    (w.view (t'.write (.markImportStatus u))), ?_, rfl, ?_, ?_⟩
  · rw [store, exec_bind_ok hreplace, ← hu, exec_bind_ok hready]
    exact hcommit
  · refine Eq.trans ?_ hstored
    show itemsOf importId (w.view (t'.write (.markImportStatus u))).items = _
    rw [w.view_write]
    rfl
  · refine ⟨_, hdone, ?_, ?_, ?_, ?_, ?_, ?_⟩
    all_goals
      rw [hu]
      rfl

/-! ## The job -/

/-- The import has failed. -/
def Failed (w : OpmlWorld) (importId : Nat) (message : String) : Prop :=
  ∃ row, Table.lookup OpmlImportRow.id importId w.imports = some row ∧
    row.status = .failedValidation ∧ row.errorMessage = some message

/-- `markImportStatus` on the pool. -/
theorem exec_markImportStatus_pool (pid : Nat) (hquiet : w.opmlTxns = []) {u : OpmlStatusUpdate}
    (h : Table.lookup OpmlImportRow.id u.importId w.imports = some row) :
    exec (answered pid) (OpmlImportsRepository.markImportStatus u .pool) w
      = some (.ok (u.apply w.core.now row),
        w.setTables ((OpmlWrite.markImportStatus u).apply w.core.now w.tables)) := by
  have heval : (OpmlStatement.markImportStatus u).eval w.core.now w.sequences w.tables
      = (.ok (some (u.apply w.core.now row)), some (.markImportStatus u)) := by
    simp only [OpmlStatement.eval, OpmlWorld.tables, h, Option.map_some]
  have hexec : exec (answered pid) (opmlStatement .pool (.markImportStatus u)) w = _ :=
    exec_invoke (answered_pool_write hquiet heval)
  rw [OpmlImportsRepository.markImportStatus, exec_bind_ok hexec]
  rfl

/-- **The `try` around the transaction**: the preview is stored, or the import has failed. -/
theorem exec_run (pid : Nat) (hrt : NoEmptyText rt) (hquiet : w.opmlTxns = [])
    (hrow : Table.lookup OpmlImportRow.id job.importId w.imports = some row)
    {parsed : List ParsedOpmlItem}
    (hparsed : rt.extractOpmlItems job.opmlXml cfg.opmlUploadMaxBytes maxOutlineTags
      = .ok parsed) :
    ∃ w', exec (answered pid) (run cfg rt tenantId job) w = some (.ok (), w') ∧
      match previewRows cfg rt tenantId w.core.feeds parsed with
      | .ok items => Stored w' job.importId items
      | .error message => Failed w' job.importId message := by
  have hconnect : exec (answered pid) (opmlCall .connect) w = some (.ok (), w) := exec_invoke rfl
  obtain ⟨t, row', htransaction, hopen, hlookup⟩ :=
    exec_transaction pid hquiet hrow hparsed
  rcases hitems : previewRows cfg rt tenantId w.core.feeds parsed with message | items
  · rw [hitems] at htransaction
    have hrollback : exec (answered pid) (opmlCall .rollback) (w.inTxn pid t w.sequences) = _ :=
      exec_invoke answered_rollback
    obtain ⟨u, hu⟩ : ∃ u : OpmlStatusUpdate, u =
        { importId := job.importId, status := .failedValidation, errorMessage := some message } :=
      ⟨_, rfl⟩
    have hid : u.importId = job.importId := by rw [hu]
    obtain ⟨w₀, hw₀⟩ : ∃ w₀ : OpmlWorld, w₀ = { w with opmlTxns := [] } := ⟨_, rfl⟩
    have hquiet₀ : w₀.opmlTxns = [] := by rw [hw₀]
    have hrow₀ : Table.lookup OpmlImportRow.id job.importId w₀.imports = some row := by
      rw [hw₀]
      exact hrow
    have hmark := exec_markImportStatus_pool pid (u := u) hquiet₀ (by rw [hid]; exact hrow₀)
    have hfailed := lookup_markImportStatus w₀.core.now (t := w₀.tables) hrow₀ hid
    obtain ⟨w', hw'⟩ : ∃ w', w' = w₀.setTables
      ((OpmlWrite.markImportStatus u).apply w₀.core.now w₀.tables) := ⟨_, rfl⟩
    rw [← hw'] at hmark
    have hquiet' : w'.opmlTxns = [] := by
      rw [hw']
      exact hquiet₀
    have hrelease : exec (answered pid) (opmlCall .release) w' = some (.ok (), w') :=
      exec_invoke (answered_release hquiet')
    refine ⟨w', ?_, u.apply w₀.core.now row, ?_, ?_, ?_⟩
    · rw [run, exec_bind_ok hconnect, finallyDo_eq]
      refine exec_finallyDo ?_ hrelease
      rw [exec_tryCatch_error htransaction, exec_bind_ok hrollback, ← hw₀, ← hu,
        exec_bind_ok hmark]
      rfl
    · rw [hw']
      exact hfailed
    · rw [hu]
      rfl
    · rw [hu]
      rfl
  · rw [hitems] at htransaction
    have hseen : Seen cfg rt [] [] := fun hash => by simp
    obtain ⟨w', hstore, hquiet', hstored⟩ :=
      exec_store pid (q := w.sequences) hopen (insertable_of_mapM hrt hseen hitems).1
        hlookup
    have hrelease : exec (answered pid) (opmlCall .release) w' = some (.ok (), w') :=
      exec_invoke (answered_release hquiet')
    refine ⟨w', ?_, hstored⟩
    rw [run, exec_bind_ok hconnect, finallyDo_eq]
    exact exec_finallyDo (exec_tryCatch_ok (htransaction.trans hstore)) hrelease

/-- **The job** stores the preview of an uploaded import, or of one left in parsing, or fails
the import. -/
theorem exec_execute (pid : Nat) (hrt : NoEmptyText rt) (hquiet : w.opmlTxns = [])
    (hrow : Table.lookup OpmlImportRow.id job.importId w.imports = some row)
    (hstatus : row.status = .uploaded ∨ row.status = .parsing) {parsed : List ParsedOpmlItem}
    (hparsed : rt.extractOpmlItems job.opmlXml cfg.opmlUploadMaxBytes maxOutlineTags
      = .ok parsed) :
    ∃ w', exec (answered pid) (execute cfg rt job) w = some (.ok (), w') ∧
      match previewRows cfg rt row.tenantId w.core.feeds parsed with
      | .ok items => Stored w' job.importId items
      | .error message => Failed w' job.importId message := by
  have hfind : exec (answered pid) (OpmlImportsRepository.getImportOrThrowForWorker job.importId) w
      = some (.ok row, w) := by
    have heval : (OpmlStatement.findImportByIdForWorker job.importId).eval w.core.now w.sequences
        w.tables = (.ok (some row), none) := by
      simp only [OpmlStatement.eval, OpmlWorld.tables, hrow]
    have hexec : exec (answered pid) (opmlStatement .pool (.findImportByIdForWorker job.importId)) w
        = _ := exec_invoke (answered_pool_read heval)
    rw [OpmlImportsRepository.getImportOrThrowForWorker, OpmlImportsRepository.getImportOrThrow,
      OpmlImportsRepository.findImportById, exec_bind_ok hexec]
    rfl
  have htenant : exec (answered pid) (OpmlImportsRepository.getImportTenantId job.importId .pool) w
      = some (.ok row.tenantId, w) := by
    have heval : (OpmlStatement.getImportTenantId job.importId).eval w.core.now w.sequences
        w.tables = (.ok (some row.tenantId), none) := by
      simp only [OpmlStatement.eval, OpmlWorld.tables, hrow, Option.map_some]
    have hexec : exec (answered pid) (opmlStatement .pool (.getImportTenantId job.importId)) w
        = _ := exec_invoke (answered_pool_read heval)
    rw [OpmlImportsRepository.getImportTenantId, exec_bind_ok hexec]
    rfl
  have hrun : exec (answered pid) (execute cfg rt job) w
      = exec (answered pid) (run cfg rt row.tenantId job) w := by
    rw [execute, exec_bind_ok hfind, exec_bind_ok htenant]
    rcases hstatus with hstatus | hstatus
    · simp only [hstatus]
      rfl
    · simp only [hstatus]
      rfl
  rw [hrun]
  exact exec_run pid hrt hquiet hrow hparsed

/-- The feeds found for the candidates are those in which a hash of the document is found. -/
theorem existingByHash_foundFeeds (hrt : NoEmptyText rt) {feeds : List FeedRow}
    {items : List ParsedOpmlItem} {hash : String} (h : ∃ item ∈ items, HasHash cfg rt hash item) :
    existingByHash (foundFeeds tenantId feeds (normalizedCandidates (draftsOf cfg rt items))) hash
      = existingByHash (feeds.filter fun f => f.tenantId = tenantId) hash := by
  obtain ⟨item, hitem, url, hnormal⟩ := h
  have hcandidates : normalizedCandidates (draftsOf cfg rt items)
      = items.filterMap (normalForm cfg rt) := by
    rw [draftsOf, normalizedCandidates_markDuplicates, normalizedCandidates_map hrt]
  have hmem : (hash, url) ∈ normalizedCandidates (draftsOf cfg rt items) := by
    rw [hcandidates]
    exact List.mem_filterMap.mpr ⟨item, hitem, hnormal⟩
  have hnonempty : ¬(normalizedCandidates (draftsOf cfg rt items)).isEmpty = true := by
    intro hempty
    rw [List.isEmpty_iff.mp hempty] at hmem
    cases hmem
  rw [foundFeeds, if_neg hnonempty]
  exact existingByHash_existingFeeds (List.mem_dedup.mpr (List.mem_map_of_mem hmem))

/-- **The preview is right exactly if** every feed the tenant already has of an item can be found
by the hash of the item. -/
theorem preview_right_iff (pid : Nat) (hrt : NoEmptyText rt) (hquiet : w.opmlTxns = [])
    (hrow : Table.lookup OpmlImportRow.id job.importId w.imports = some row)
    (hstatus : row.status = .uploaded ∨ row.status = .parsing) {parsed : List ParsedOpmlItem}
    (hparsed : rt.extractOpmlItems job.opmlXml cfg.opmlUploadMaxBytes maxOutlineTags
      = .ok parsed) :
    ∃ w', exec (answered pid) (execute cfg rt job) w = some (.ok (), w') ∧
      ((∃ items, Stored w' job.importId items ∧
          Classified cfg rt row.tenantId w.core.feeds [] parsed items) ↔
        Recognised cfg rt row.tenantId w.core.feeds [] parsed) := by
  obtain ⟨w', hexec, hend⟩ := exec_execute pid hrt hquiet hrow hstatus hparsed
  refine ⟨w', hexec, ?_⟩
  have hseen : Seen cfg rt [] [] := fun hash => by simp
  have hfound : ∀ hash, (∃ item ∈ parsed, HasHash cfg rt hash item) →
      existingByHash (foundFeeds row.tenantId w.core.feeds
        (normalizedCandidates (draftsOf cfg rt parsed))) hash
        = existingByHash (w.core.feeds.filter fun f => f.tenantId = row.tenantId) hash :=
    fun _ h => existingByHash_foundFeeds hrt h
  have hiff : (∃ rows, previewRows cfg rt row.tenantId w.core.feeds parsed = .ok rows ∧
        Classified cfg rt row.tenantId w.core.feeds [] parsed rows) ↔
      Recognised cfg rt row.tenantId w.core.feeds [] parsed := classified_iff hrt hseen hfound
  rw [← hiff]
  rcases hrows : previewRows cfg rt row.tenantId w.core.feeds parsed with message | rows
  · -- nothing is stored
    rw [hrows] at hend
    refine iff_of_false ?_ ?_
    · rintro ⟨items, ⟨-, row', hrow', hready, -⟩, -⟩
      obtain ⟨row'', hrow'', hfailed, -⟩ := hend
      obtain rfl := Option.some.inj (hrow'.symm.trans hrow'')
      rw [hready] at hfailed
      cases hfailed
    · rintro ⟨rows, hok, -⟩
      cases hok
  · rw [hrows] at hend
    constructor
    · rintro ⟨items, hstored, hclassified⟩
      obtain rfl := hend.items_eq.symm.trans hstored.items_eq
      exact ⟨rows, rfl, hclassified⟩
    · rintro ⟨items, hok, hclassified⟩
      obtain rfl := Except.ok.inj hok
      exact ⟨rows, hend, hclassified⟩

/-! ## Samples -/

/-- The runtime of the import of two feeds; other texts have another hash. -/
def previewRuntime : OpmlRuntime :=
  { OpmlSystem.importDeployment.rt with
    sha256Hex := fun text => (OpmlSystem.feedHashes.lookup text).getD
      "e3b0c44298fc1c149afbf4c8996fb92427ae41e4649b934ca495991b7852b855" }

/-- The two feeds of the document. -/
def twoOutlines : List ParsedOpmlItem :=
  OpmlSystem.feedUrls.map fun url =>
    { title := none, outlinePath := none, sourceXmlUrl := url.1 }

/-- A tenant that has the first of the two feeds, and has uploaded the document. -/
def uploadedWorld (normalizedUrlHash : Option String) : OpmlWorld :=
  { OpmlSystem.noImports.world with
    core := { OpmlSystem.noImports.world.core with
      feeds := [OpmlImports.newFeed 0 1 "t" "https://a.example/rss" normalizedUrlHash 1800
        .active 0] }
    imports := [OpmlImports.newImport 0 1
      { tenantId := "t", fileName := "feeds.opml", fileSizeBytes := 7,
        sourceChecksum := "9bc3f07d8bb9644a4c9a9948b4bfcb51fb69893f19422d2cd5e81cf7972c0fe9" }]
    sequences := { importId := 2, itemId := 1, feedId := 2 } }

/-- The job of the upload. -/
def uploadedJob : OpmlParsePreviewJobData := { importId := 1, opmlXml := "<opml/>" }

theorem previewRuntime_noEmptyText : NoEmptyText previewRuntime where
  hash text := by
    show (OpmlSystem.feedHashes.lookup text).getD _ ≠ ""
    simp only [OpmlSystem.feedHashes, List.lookup_cons]
    split
    · decide
    · split
      · decide
      · simp
  url parsed := by
    show parsed.protocol ++ "//" ++ parsed.hostname ++ parsed.pathname ≠ ""
    simp

/-- The hash of the first feed. -/
def firstHash : String := "f14074e5979b9d9b10708b8eee032b459cfd96c70af86119a067bb5d5d450784"

/-- The first outline has the hash and the normal form of the first feed. -/
theorem firstOfHash_twoOutlines :
    ∃ first rest, twoOutlines = first :: rest ∧
      FirstOfHash OpmlSystem.importDeployment.config previewRuntime [] first firstHash
        "https://a.example/rss" :=
  ⟨_, _, rfl, by decide +kernel, fun ⟨_, hother, _⟩ => absurd hother List.not_mem_nil⟩

/-- The second outline is another feed. -/
theorem normalForm_second :
    normalForm OpmlSystem.importDeployment.config previewRuntime
        { title := none, outlinePath := none, sourceXmlUrl := "https://b.example/rss" }
      = some ("ba6758c1251d034aa1a27730d20cb7582eef94cdac3d32373d262c66ecc583d6",
        "https://b.example/rss") := by
  decide +kernel

/-- The tenant's feed has its hash, so it is recognised. -/
theorem preview_right_iff_hashed :
    ∃ w', exec (answered 1) (execute OpmlSystem.importDeployment.config previewRuntime uploadedJob)
        (uploadedWorld (some firstHash)) = some (.ok (), w') ∧
      ∃ items, Stored w' 1 items ∧ Classified OpmlSystem.importDeployment.config previewRuntime "t"
        (uploadedWorld (some firstHash)).core.feeds [] twoOutlines items := by
  have hparsed : previewRuntime.extractOpmlItems uploadedJob.opmlXml
      OpmlSystem.importDeployment.config.opmlUploadMaxBytes maxOutlineTags = .ok twoOutlines := rfl
  have hrow : Table.lookup OpmlImportRow.id uploadedJob.importId
      (uploadedWorld (some firstHash)).imports = some _ := rfl
  obtain ⟨w', hexec, hiff⟩ := preview_right_iff 1 previewRuntime_noEmptyText rfl hrow (.inl rfl)
    hparsed
  refine ⟨w', hexec, hiff.mpr ?_⟩
  refine ⟨?_, ?_, trivial⟩
  · intro hash url hfirst _
    obtain ⟨first, rest, hitems, hfirst'⟩ := firstOfHash_twoOutlines
    obtain rfl := (List.cons.inj hitems).1
    obtain ⟨rfl, rfl⟩ := hfirst.unique hfirst'
    exact ⟨_, rfl, by decide +kernel⟩
  · rintro hash url ⟨hnormal, -⟩ ⟨feed, hfeed, -, howned⟩
    obtain rfl := List.mem_singleton.mp hfeed
    have heq := normalForm_second.symm.trans hnormal
    simp only [Option.some.injEq, Prod.mk.injEq] at heq
    obtain ⟨rfl, rfl⟩ := heq
    exact absurd howned (by decide)

/-- A feed without a hash is not recognised, although its URL is the normal form of the item. -/
theorem unhashed_feed_new :
    ∃ w', exec (answered 1) (execute OpmlSystem.importDeployment.config previewRuntime uploadedJob)
        (uploadedWorld none) = some (.ok (), w') ∧
      ¬∃ items, Stored w' 1 items ∧ Classified OpmlSystem.importDeployment.config previewRuntime
        "t" (uploadedWorld none).core.feeds [] twoOutlines items := by
  have hrun : ((exec (answered 1)
      (execute OpmlSystem.importDeployment.config previewRuntime uploadedJob)
      (uploadedWorld none)).any fun r => r.1 = .ok () &&
        (itemsOf 1 r.2.items).map OpmlImportItemInput.itemStatus = [.new, .new]) = true := by
    decide +kernel
  obtain ⟨⟨r, w'⟩, hexec, hr⟩ := (Option.any_eq_true _ _).mp hrun
  simp only [Bool.and_eq_true, decide_eq_true_eq] at hr
  obtain ⟨rfl, hstatuses⟩ := hr
  refine ⟨w', hexec, ?_⟩
  rintro ⟨items, hstored, hclassified⟩
  obtain ⟨first, rest, hitems, hfirst⟩ := firstOfHash_twoOutlines
  rw [hitems] at hclassified
  rw [hstored.items_eq] at hstatuses
  rcases items with _ | ⟨row, rows⟩
  · cases hstatuses
  · have howns : Owns "t" (uploadedWorld none).core.feeds firstHash "https://a.example/rss" :=
      ⟨_, List.mem_cons_self, rfl, .inr rfl⟩
    have hexisting := hclassified.1.existing_iff.mpr ⟨firstHash, _, hfirst, howns⟩
    have hnew := (List.cons.inj hstatuses).1
    rw [hexisting] at hnew
    cases hnew

end ProcessOpmlParseJob

end Feedpulse
