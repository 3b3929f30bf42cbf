import Feedpulse.OpmlSystem

/-!
# What a call of the OPML import can change

`OpmlEffect` lists the effects of calls on the shared state, each with the call that has
it; `serve_effect` says that there are no others. The rest follows the status of an import
through the changes that calls make to it.
-/

namespace Feedpulse

namespace OpmlWorld

variable {w : OpmlWorld} {pid q : Nat}

/-! ## Transactions -/

@[simp] theorem opmlTxn_setOpmlTxn (t : OpmlTxn) : (w.setOpmlTxn pid t).opmlTxn pid = some t := by
  simp [opmlTxn, setOpmlTxn, Table.lookup]

theorem opmlTxn_setOpmlTxn_of_ne (h : q ≠ pid) (t : OpmlTxn) :
    (w.setOpmlTxn pid t).opmlTxn q = w.opmlTxn q := by
  simp only [opmlTxn, setOpmlTxn, Table.lookup]
  congr 1
  rw [List.find?_cons_of_neg (by simpa using h.symm), List.find?_filter]
  congr 1
  funext p
  by_cases hp : p.1 = q
  · simp [hp, h]
  · simp [hp]

@[simp] theorem opmlTxn_dropOpmlTxn : (w.dropOpmlTxn pid).opmlTxn pid = none := by
  simp [opmlTxn, dropOpmlTxn, Table.lookup]

theorem opmlTxn_dropOpmlTxn_of_ne (h : q ≠ pid) :
    (w.dropOpmlTxn pid).opmlTxn q = w.opmlTxn q := by
  simp only [opmlTxn, dropOpmlTxn, Table.lookup]
  congr 1
  rw [List.find?_filter]
  congr 1
  funext p
  by_cases hp : p.1 = q
  · simp [hp, h]
  · simp [hp]

@[simp] theorem opmlTxn_setTables (t : OpmlTables) :
    (w.setTables t).opmlTxn q = w.opmlTxn q := rfl

/-- A commit closes the transaction. -/
theorem opmlTxn_commitOpmlTxn (w : OpmlWorld) (pid : Nat) :
    (w.commitOpmlTxn pid).opmlTxn pid = none := by
  unfold commitOpmlTxn
  rcases h : w.opmlTxn pid with _ | t
  · exact h
  · dsimp only
    split
    · exact opmlTxn_dropOpmlTxn
    · exact opmlTxn_dropOpmlTxn

theorem opmlTxn_commitOpmlTxn_of_ne (h : q ≠ pid) :
    (w.commitOpmlTxn pid).opmlTxn q = w.opmlTxn q := by
  unfold commitOpmlTxn
  rcases w.opmlTxn pid with _ | t
  · rfl
  · dsimp only
    split
    · exact opmlTxn_dropOpmlTxn_of_ne h
    · exact opmlTxn_dropOpmlTxn_of_ne h

/-- A transaction that has failed keeps what it has written, and nothing else changes. -/
theorem abortOpmlTxn_eq (w : OpmlWorld) (pid : Nat) : w.abortOpmlTxn pid = w ∨
    ∃ t, w.opmlTxn pid = some t ∧
      w.abortOpmlTxn pid = w.setOpmlTxn pid { t with aborted := true } := by
  unfold abortOpmlTxn
  rcases h : w.opmlTxn pid with _ | t
  · exact .inl rfl
  · exact .inr ⟨t, rfl, rfl⟩

@[simp] theorem imports_setOpmlTxn (t : OpmlTxn) : (w.setOpmlTxn pid t).imports = w.imports := rfl

@[simp] theorem imports_dropOpmlTxn : (w.dropOpmlTxn pid).imports = w.imports := rfl

@[simp] theorem imports_abortOpmlTxn : (w.abortOpmlTxn pid).imports = w.imports := by
  rcases abortOpmlTxn_eq w pid with h | ⟨t, -, h⟩
  · rw [h]
  · rw [h]
    rfl

theorem opmlTxn_abortOpmlTxn : (w.abortOpmlTxn pid).opmlTxn pid =
    (w.opmlTxn pid).map fun t => { t with aborted := true } := by
  unfold abortOpmlTxn
  rcases h : w.opmlTxn pid with _ | t
  · exact h
  · exact opmlTxn_setOpmlTxn _

theorem opmlTxn_abortOpmlTxn_of_ne (h : q ≠ pid) :
    (w.abortOpmlTxn pid).opmlTxn q = w.opmlTxn q := by
  rcases abortOpmlTxn_eq w pid with he | ⟨t, -, he⟩
  · rw [he]
  · rw [he, opmlTxn_setOpmlTxn_of_ne h]

end OpmlWorld

/-! ## The effects -/

/-- The changes statements make, on the tables as they see them. -/
inductive OpmlStatement.Writes (now : Nat) (ids : OpmlSequences) (t : OpmlTables) :
    OpmlStatement → OpmlWrite → Prop
  /-- an import is created -/
  | createImport (input : CreateImportRow) :
    Writes now ids t (.createImport input)
      (.insertImport (OpmlImports.newImport now ids.importId input))
  /-- a status is written -/
  | markImportStatus (u : OpmlStatusUpdate) :
    Writes now ids t (.markImportStatus u) (.markImportStatus u)
  /-- the items of an import are deleted -/
  | deleteItems (importId : Nat) : Writes now ids t (.deleteItems importId) (.deleteItems importId)
  /-- an item is inserted -/
  | insertItem (tenantId : String) (importId : Nat) (input : OpmlImportItemInput)
    (h : OpmlImports.itemRejected importId input t.items = false) :
    Writes now ids t (.insertItem tenantId importId input)
      (.insertItem { id := ids.itemId, tenantId := tenantId, importId := importId, input := input,
                     feedId := none })
  /-- a feed of an import is inserted -/
  | insertFeedOrNothing (tenantId url normalizedHash : String) (jitterSeconds : Nat)
    (h : t.feeds.any (OpmlImports.feedConflicts tenantId url (some normalizedHash)) = false) :
    Writes now ids t (.insertFeedOrNothing tenantId url normalizedHash jitterSeconds)
      (.insertFeed (OpmlImports.newFeed now ids.feedId tenantId url (some normalizedHash) 1800
        .active jitterSeconds))
  /-- an item is marked imported -/
  | markItemImported (itemId feedId : Nat) :
    Writes now ids t (.markItemImported itemId feedId) (.markItemImported itemId feedId)
  /-- an item is marked failed -/
  | markItemFailed (itemId : Nat) (validationError : String) :
    Writes now ids t (.markItemFailed itemId validationError)
      (.markItemFailed itemId validationError)
  /-- a feed is registered -/
  | createFeed (tenantId url : String) (normalizedUrlHash : Option String)
    (pollIntervalSeconds : Nat) (status : FeedStatus)
    (h : t.feeds.any (OpmlImports.feedConflicts tenantId url normalizedUrlHash) = false) :
    Writes now ids t (.createFeed tenantId url normalizedUrlHash pollIntervalSeconds status)
      (.insertFeed (OpmlImports.newFeed now ids.feedId tenantId url normalizedUrlHash
        pollIntervalSeconds status 0))

/-- **There are no other changes.** -/
theorem OpmlStatement.writes_of_eval {now : Nat} {ids : OpmlSequences} {t : OpmlTables}
    {s : OpmlStatement} {x : OpmlWrite} (hx : (s.eval now ids t).2 = some x) :
    s.Writes now ids t x := by
  cases s with
  | insertItem tenantId importId input =>
    change (if _ then _ else _ : _ × Option OpmlWrite).2 = _ at hx
    rw [apply_ite Prod.snd] at hx
    obtain ⟨h, hx⟩ := Option.ite_none_left_eq_some.mp hx
    obtain rfl := Option.some.inj hx
    exact .insertItem _ _ _ (by simpa using h)
  | insertFeedOrNothing tenantId url normalizedHash jitterSeconds =>
    change (if _ then _ else _ : _ × Option OpmlWrite).2 = _ at hx
    rw [apply_ite Prod.snd] at hx
    obtain ⟨h, hx⟩ := Option.ite_none_left_eq_some.mp hx
    obtain rfl := Option.some.inj hx
    exact .insertFeedOrNothing _ _ _ _ (Bool.not_eq_true _ ▸ h)
  | createFeed tenantId url normalizedUrlHash pollIntervalSeconds status =>
    change (if _ then _ else _ : _ × Option OpmlWrite).2 = _ at hx
    rw [apply_ite Prod.snd] at hx
    obtain ⟨h, hx⟩ := Option.ite_none_left_eq_some.mp hx
    obtain rfl := Option.some.inj hx
    exact .createFeed _ _ _ _ _ (Bool.not_eq_true _ ▸ h)
  | createImport input =>
    obtain rfl := Option.some.inj hx
    exact .createImport input
  | markImportStatus u =>
    obtain rfl := Option.some.inj hx
    exact .markImportStatus u
  | deleteItems importId =>
    obtain rfl := Option.some.inj hx
    exact .deleteItems importId
  | markItemImported itemId feedId =>
    obtain rfl := Option.some.inj hx
    exact .markItemImported itemId feedId
  | markItemFailed itemId validationError =>
    obtain rfl := Option.some.inj hx
    exact .markItemFailed itemId validationError
  | _ => cases hx

/-- The effects of a call of the process `pid` in the state `w`. -/
inductive OpmlEffect (pid : Nat) (w : OpmlWorld) : OpmlCall → OpmlWorld → Prop
  /-- the call reads, waits, or is refused -/
  | none (c : OpmlCall) : OpmlEffect pid w c w
  /-- something happens in the rest of the service -/
  | core (c : Call) (v : World) : OpmlEffect pid w (.core c) { w with core := v }
  /-- a transaction begins -/
  | begin : OpmlEffect pid w .begin
    (w.setOpmlTxn pid { aborted := false, startedAt := w.core.now, writes := [] })
  /-- a transaction commits -/
  | commit : OpmlEffect pid w .commit (w.commitOpmlTxn pid)
  /-- a transaction is rolled back, or its connection returned -/
  | close (c : OpmlCall) (hc : c = .rollback ∨ c = .release) :
    OpmlEffect pid w c (w.dropOpmlTxn pid)
  /-- a statement on the pool changes the tables -/
  | write (s : OpmlStatement) (x : OpmlWrite)
    (hx : s.Writes w.core.now w.sequences w.tables x) :
    OpmlEffect pid w (.statement .pool s)
      { w.setTables (x.apply w.core.now w.tables) with sequences := x.advance w.sequences }
  /-- a statement on the client stages a change -/
  | stage (s : OpmlStatement) (t : OpmlTxn) (x : OpmlWrite) (ht : w.opmlTxn pid = some t)
    (ha : t.aborted = false) (hx : s.Writes t.startedAt w.sequences (w.view t) x) :
    OpmlEffect pid w (.statement .client s)
      { w.setOpmlTxn pid { t with writes := t.writes ++ [x] } with
        sequences := x.advance w.sequences }
  /-- a statement on the client fails its transaction -/
  | abort (s : OpmlStatement) : OpmlEffect pid w (.statement .client s) (w.abortOpmlTxn pid)
  /-- a parse job is added -/
  | addParse (jobId : String) (data : OpmlParsePreviewJobData) :
    OpmlEffect pid w (.addParseJob jobId data)
      { w with parseQueue := w.parseQueue.add jobId data }
  /-- an apply job is added -/
  | addApply (jobId : String) (data : OpmlApplyImportJobData) :
    OpmlEffect pid w (.addApplyJob jobId data)
      { w with applyQueue := w.applyQueue.add jobId data }

/-- Inversion for a statement on the pool. -/
theorem OpmlWorld.onPool_eq_some {w w' : OpmlWorld} {s : OpmlStatement}
    {r : Except String s.Reply} (h : w.onPool s = some (r, w')) :
    r = (s.eval w.core.now w.sequences w.tables).1 ∧
      (((s.eval w.core.now w.sequences w.tables).2 = none ∧ w' = w) ∨
        ∃ x, (s.eval w.core.now w.sequences w.tables).2 = some x ∧
          w' = { w.setTables (x.apply w.core.now w.tables) with
            sequences := x.advance w.sequences }) := by
  unfold onPool at h
  rcases he : s.eval w.core.now w.sequences w.tables with ⟨reply, _ | x⟩
  · rw [he] at h
    obtain ⟨rfl, rfl⟩ := Prod.mk.inj (Option.some.inj h)
    exact ⟨rfl, .inl ⟨rfl, rfl⟩⟩
  · rw [he] at h
    obtain ⟨-, h⟩ := Option.ite_none_left_eq_some.mp h
    obtain ⟨rfl, rfl⟩ := Prod.mk.inj (Option.some.inj h)
    exact ⟨rfl, .inr ⟨x, rfl, rfl⟩⟩

/-- Inversion for a statement on the client. -/
theorem OpmlWorld.onClient_eq_some {w w' : OpmlWorld} {pid : Nat} {s : OpmlStatement}
    {r : Except String s.Reply} (h : w.onClient pid s = some (r, w')) :
    ∃ t, w.opmlTxn pid = some t ∧
      ((t.aborted = true ∧ w' = w ∧ ∃ e, r = .error e) ∨
        (t.aborted = false ∧ w' = w.abortOpmlTxn pid ∧ ∃ e, r = .error e) ∨
        ∃ a, t.aborted = false ∧ r = .ok a ∧
          (s.eval t.startedAt w.sequences (w.view t)).1 = .ok a ∧
          (((s.eval t.startedAt w.sequences (w.view t)).2 = none ∧ w' = w) ∨
            ∃ x, (s.eval t.startedAt w.sequences (w.view t)).2 = some x ∧
              w.blocked (w.otherOpmlTxns pid) x = false ∧
              w' = { w.setOpmlTxn pid { t with writes := t.writes ++ [x] } with
                sequences := x.advance w.sequences })) := by
  unfold onClient at h
  rcases ht : w.opmlTxn pid with _ | t
  · rw [ht] at h
    cases h
  refine ⟨t, rfl, ?_⟩
  rw [ht] at h
  dsimp only at h
  by_cases ha : t.aborted = true
  · rw [if_pos ha] at h
    obtain ⟨rfl, rfl⟩ := Prod.mk.inj (Option.some.inj h)
    exact .inl ⟨ha, rfl, _, rfl⟩
  · rw [if_neg ha] at h
    rw [Bool.not_eq_true] at ha
    rcases he : s.eval t.startedAt w.sequences (w.view t) with ⟨e | a, x⟩
    · rw [he] at h
      obtain ⟨rfl, rfl⟩ := Prod.mk.inj (Option.some.inj h)
      exact .inr (.inl ⟨ha, rfl, e, rfl⟩)
    · cases x with
      | none =>
        rw [he] at h
        obtain ⟨rfl, rfl⟩ := Prod.mk.inj (Option.some.inj h)
        exact .inr (.inr ⟨a, ha, rfl, rfl, .inl ⟨rfl, rfl⟩⟩)
      | some x =>
        rw [he] at h
        obtain ⟨hb, h⟩ := Option.ite_none_left_eq_some.mp h
        obtain ⟨rfl, rfl⟩ := Prod.mk.inj (Option.some.inj h)
        exact .inr (.inr ⟨a, ha, rfl, rfl, .inr ⟨x, rfl, by simpa using hb, rfl⟩⟩)

/-- **There are no other effects.** -/
theorem OpmlCall.serve_effect {pid : Nat} {w w' : OpmlWorld} {c : OpmlCall}
    {r : Except String c.Reply} (h : c.serve pid w = some (r, w')) : OpmlEffect pid w c w' := by
  cases c with
  | core c => cases h
  | connect =>
    obtain ⟨-, rfl⟩ := Prod.mk.inj (Option.some.inj h)
    exact .none _
  | begin =>
    obtain ⟨-, rfl⟩ := Prod.mk.inj (Option.some.inj h)
    exact .begin
  | commit =>
    obtain ⟨-, rfl⟩ := Prod.mk.inj (Option.some.inj h)
    exact .commit
  | rollback =>
    obtain ⟨-, rfl⟩ := Prod.mk.inj (Option.some.inj h)
    exact .close _ (.inl rfl)
  | release =>
    obtain ⟨-, rfl⟩ := Prod.mk.inj (Option.some.inj h)
    exact .close _ (.inr rfl)
  | statement ex s =>
    cases ex with
    | pool =>
      obtain ⟨-, ⟨-, rfl⟩ | ⟨x, hx, rfl⟩⟩ := OpmlWorld.onPool_eq_some h
      · exact .none _
      · exact .write s x (OpmlStatement.writes_of_eval hx)
    | client =>
      obtain ⟨t, ht, ⟨-, rfl, -⟩ | ⟨-, rfl, -⟩ | ⟨a, ha, -, -, ⟨-, rfl⟩ | ⟨x, hx, -, rfl⟩⟩⟩ :=
        OpmlWorld.onClient_eq_some h
      · exact .none _
      · exact .abort s
      · exact .none _
      · exact .stage s t x ht ha (OpmlStatement.writes_of_eval hx)
  | addParseJob jobId data =>
    obtain ⟨-, rfl⟩ := Prod.mk.inj (Option.some.inj h)
    exact .addParse jobId data
  | addApplyJob jobId data =>
    obtain ⟨-, rfl⟩ := Prod.mk.inj (Option.some.inj h)
    exact .addApply jobId data

/-- The ways in which a call is answered. -/
inductive OpmlAnswer (pid : Nat) (w : OpmlWorld) :
    (c : OpmlCall) → Outcome → Except String c.Reply → OpmlWorld → Prop
  /-- by the rest of the service -/
  | core (c : Call) (out : Outcome) (r : Except String c.Reply) (v : World)
    (h : c.answer pid w.core out = some (r, v)) :
    OpmlAnswer pid w (.core c) out r { w with core := v }
  /-- with its effect -/
  | ok (c : OpmlCall) (ch : Choice) (r : Except String c.Reply) (v : OpmlWorld)
    (h : c.serve pid w = some (r, v)) : OpmlAnswer pid w c (.ok ch) r v
  /-- by an error, without effect -/
  | refused (c : OpmlCall) (error : String) (hc : c.infallible = false) :
    OpmlAnswer pid w c (.refused error) (.error error) (c.afterError pid w)
  /-- by an error, with its effect -/
  | lost (c : OpmlCall) (ch : Choice) (error : String) (r : Except String c.Reply)
    (v : OpmlWorld) (hc : c.infallible = false) (h : c.serve pid w = some (r, v)) :
    OpmlAnswer pid w c (.lost ch error) (.error error) (c.afterError pid v)

theorem OpmlCall.answerOwn_cases {pid : Nat} {w w' : OpmlWorld} {out : Outcome} {c : OpmlCall}
    {r : Except String c.Reply} (h : c.answerOwn pid w out = some (r, w')) :
    OpmlAnswer pid w c out r w' := by
  cases out with
  | ok ch => exact .ok c ch r w' h
  | refused error =>
    obtain ⟨hc, h⟩ := Option.ite_none_left_eq_some.mp h
    obtain ⟨rfl, rfl⟩ := Prod.mk.inj (Option.some.inj h)
    exact .refused c error (by simpa using hc)
  | lost ch error =>
    obtain ⟨hc, h⟩ := Option.ite_none_left_eq_some.mp h
    obtain ⟨⟨r', v⟩, hs, he⟩ := Option.map_eq_some_iff.mp h
    obtain ⟨rfl, rfl⟩ := Prod.mk.inj he
    exact .lost c ch error r' v (by simpa using hc) hs

/-- **Inversion for `answer`.** -/
theorem OpmlCall.answer_cases {pid : Nat} {w w' : OpmlWorld} {out : Outcome} {c : OpmlCall}
    {r : Except String c.Reply} (h : c.answer pid w out = some (r, w')) :
    OpmlAnswer pid w c out r w' := by
  cases c with
  | core c =>
    obtain ⟨⟨r', v⟩, hs, he⟩ := Option.map_eq_some_iff.mp h
    obtain ⟨rfl, rfl⟩ := Prod.mk.inj he
    exact .core c out r' v hs
  | connect => exact answerOwn_cases h
  | begin => exact answerOwn_cases h
  | commit => exact answerOwn_cases h
  | rollback => exact answerOwn_cases h
  | release => exact answerOwn_cases h
  | statement ex s => exact answerOwn_cases h
  | addParseJob jobId data => exact answerOwn_cases h
  | addApplyJob jobId data => exact answerOwn_cases h

/-- The transactions of other processes are left alone. -/
theorem opmlTxn_effect_of_ne {pid q : Nat} {w w' : OpmlWorld} {c : OpmlCall}
    (h : OpmlEffect pid w c w') (hq : q ≠ pid) : w'.opmlTxn q = w.opmlTxn q := by
  cases h with
  | none => rfl
  | core => rfl
  | begin => exact OpmlWorld.opmlTxn_setOpmlTxn_of_ne hq _
  | commit => exact OpmlWorld.opmlTxn_commitOpmlTxn_of_ne hq
  | close => exact OpmlWorld.opmlTxn_dropOpmlTxn_of_ne hq
  | write => rfl
  | stage s t x => exact OpmlWorld.opmlTxn_setOpmlTxn_of_ne hq _
  | abort => exact OpmlWorld.opmlTxn_abortOpmlTxn_of_ne hq
  | addParse => rfl
  | addApply => rfl

theorem opmlTxn_afterError_of_ne {pid q : Nat} {w : OpmlWorld} (c : OpmlCall) (hq : q ≠ pid) :
    (c.afterError pid w).opmlTxn q = w.opmlTxn q := by
  unfold OpmlCall.afterError
  split
  · exact OpmlWorld.opmlTxn_abortOpmlTxn_of_ne hq
  · rfl

theorem opmlTxn_answer_of_ne {pid q : Nat} {w w' : OpmlWorld} {c : OpmlCall} {out : Outcome}
    {r : Except String c.Reply} (h : c.answer pid w out = some (r, w')) (hq : q ≠ pid) :
    w'.opmlTxn q = w.opmlTxn q := by
  cases OpmlCall.answer_cases h with
  | core => rfl
  | ok c ch r v hs => exact opmlTxn_effect_of_ne (OpmlCall.serve_effect hs) hq
  | refused => exact opmlTxn_afterError_of_ne c hq
  | lost c ch error r v _ hs =>
    exact (opmlTxn_afterError_of_ne c hq).trans (opmlTxn_effect_of_ne (OpmlCall.serve_effect hs) hq)

/-! ## Footprints -/

/-- The status update a statement is. -/
def OpmlStatement.update? : OpmlStatement → Option OpmlStatusUpdate
  | markImportStatus u => some u
  | _ => none

/-- The calls by which a job works on items and feeds inside its transaction. -/
def OpmlCall.ItemWork : OpmlCall → Prop
  | core _ => True
  | statement .client s => s.update? = none
  | _ => False

section Footprints

open Prog OpmlImportsRepository

variable {allowed : OpmlCall → Prop} {cfg : OpmlConfig} {rt : OpmlRuntime}

/-- A program of the rest of the service issues its calls there. -/
theorem issues_ofCore {α : Type} (h : ∀ c, allowed (.core c)) (p : Program α) :
    Issues allowed (ofCore p) := by
  induction p with
  | ret a => trivial
  | throw e => trivial
  | call c k ih => exact issues_call.mpr ⟨h c, ih⟩

/-- A `try … finally` issues the calls of both its blocks. -/
theorem issues_finallyDo {α : Type} {body : OpmlProgram α} {final : OpmlProgram Unit}
    (hbody : Issues allowed body) (hfinal : Issues allowed final) :
    Issues allowed (finallyDo body final) :=
  meets_finallyDo hbody fun _ _ _ =>
    Meets.mono hfinal fun _ _ _ => ⟨fun _ => trivial, fun _ _ => trivial⟩

theorem getImportTenantId_issues {importId : Nat} {ex : Executor}
    (h : allowed (.statement ex (.getImportTenantId importId))) :
    Issues allowed (getImportTenantId importId ex) := by
  refine Issues.bind (issues_invoke h) fun row => ?_
  cases row with
  | none => exact issues_throw' _
  | some tenantId => exact issues_pure _

theorem insertItems_issues (tenantId : String) (importId : Nat)
    (items : List OpmlImportItemInput) :
    Issues OpmlCall.ItemWork (insertItems tenantId importId items) := by
  induction items with
  | nil => exact issues_pure _
  | cons item items ih => exact Issues.bind (issues_invoke rfl) fun _ => ih

theorem replaceImportItems_issues (importId : Nat) (items : List OpmlImportItemInput) :
    Issues OpmlCall.ItemWork (replaceImportItems importId items) :=
  Issues.bind (getImportTenantId_issues rfl) fun tenantId =>
    Issues.bind (issues_invoke rfl) fun _ => insertItems_issues tenantId importId items

theorem ProcessOpmlParseJob.findExistingFeedsByHash_issues (tenantId : String)
    (candidates : List (String × String)) :
    Issues OpmlCall.ItemWork (findExistingFeedsByHash tenantId candidates) :=
  Issues.ite (fun _ => issues_pure _) fun _ => issues_invoke rfl

namespace ProcessOpmlApplyJob

theorem upsertFeed_issues (tenantId normalizedUrl : String) :
    Issues OpmlCall.ItemWork (upsertFeed cfg rt tenantId normalizedUrl) := by
  refine Issues.bind (issues_ofCore (fun _ => trivial) _) fun jitterSeconds => ?_
  refine Issues.bind (issues_invoke rfl) fun inserted => ?_
  cases inserted with
  | some row => exact issues_pure _
  | none =>
    refine Issues.bind (issues_invoke rfl) fun found => ?_
    cases found with
    | none => exact issues_throw' _
    | some existing =>
      dsimp only
      split
      · exact issues_throw' _
      · exact issues_pure _

theorem applyItem_issues (tenantId : String) (item : OpmlImportItemRow) (tally : ApplyTally) :
    Issues OpmlCall.ItemWork (applyItem cfg rt tenantId item tally) := by
  have hfailed : ∀ message, Issues OpmlCall.ItemWork (do
      markItemFailed item.id message
      pure { tally with failedItems := tally.failedItems + 1 }) := fun message =>
    Issues.bind (issues_invoke rfl) fun _ => issues_pure _
  unfold applyItem
  split
  · exact hfailed _
  · refine Issues.ite (fun _ => hfailed _) fun _ => Issues.tryCatch ?_ fun message => hfailed _
    refine Issues.bind (upsertFeed_issues _ _) fun upsert => ?_
    exact Issues.ite (fun _ => hfailed _) fun _ =>
      Issues.bind (issues_invoke rfl) fun _ => issues_pure _

theorem applyItems_issues (tenantId : String) (items : List OpmlImportItemRow)
    (tally : ApplyTally) :
    Issues OpmlCall.ItemWork (applyItems cfg rt tenantId items tally) := by
  induction items generalizing tally with
  | nil => exact issues_pure _
  | cons item items ih => exact Issues.bind (applyItem_issues tenantId item tally) fun _ => ih _

theorem enqueueFeeds_issues (feedIds : List Nat) :
    Issues OpmlCall.ItemWork (enqueueFeeds feedIds) := by
  induction feedIds with
  | nil => exact issues_pure _
  | cons feedId feedIds ih =>
    exact Issues.bind (issues_ofCore (fun _ => trivial) _) fun now =>
      Issues.bind (issues_ofCore (fun _ => trivial) _) fun _ => ih

end ProcessOpmlApplyJob

end Footprints

end Feedpulse
