import Feedpulse.OpmlFrames
import Feedpulse.Transition

/-!
# The status history of an import

The programs consult the status table before they write, but the `UPDATE` itself writes
whatever it is told to. This file follows the status of an import through a run: the
statuses a step writes (`statusWrites`) are the ones it moves the row through
(`statusOf_step`), and together they are the history of the import (`history`).
-/

namespace Feedpulse

open OpmlImportStatus

/-! ## The status of a row -/

/-- The status a change writes into an import. -/
def OpmlWrite.statusOf (i : Nat) : OpmlWrite → Option OpmlImportStatus
  | markImportStatus u => if u.importId = i then some u.status else none
  | _ => none

/-- The status of an import. -/
def OpmlTables.statusOf (t : OpmlTables) (i : Nat) : Option OpmlImportStatus :=
  (Table.lookup OpmlImportRow.id i t.imports).map OpmlImportRow.status

/-- A change moves an import to the status it writes. -/
theorem OpmlTables.statusOf_apply {t : OpmlTables} {i : Nat} {st : OpmlImportStatus}
    (h : t.statusOf i = some st) (now : Nat) (x : OpmlWrite) :
    (x.apply now t).statusOf i = some ((x.statusOf i).getD st) := by
  unfold statusOf at h ⊢
  cases x with
  | insertImport row =>
    obtain ⟨r, hr, rfl⟩ := Option.map_eq_some_iff.mp h
    change ((Table.lookup OpmlImportRow.id i (t.imports ++ [row])).map _) = _
    rw [Table.lookup_append, hr]
    rfl
  | markImportStatus u =>
    obtain ⟨r, hr, rfl⟩ := Option.map_eq_some_iff.mp h
    have hid : r.id = i := Table.key_of_lookup hr
    change ((Table.lookup OpmlImportRow.id i (Table.updateWhere _ _ t.imports)).map _) = _
    rw [Table.lookup_updateWhere fun r => (rfl : (u.apply now r).id = r.id), hr]
    by_cases hi : u.importId = i
    · simp [OpmlWrite.statusOf, hid, hi, OpmlStatusUpdate.apply]
    · simp [OpmlWrite.statusOf, hid, hi, Ne.symm hi]
  | deleteItems importId => exact h
  | insertItem row => exact h
  | markItemImported itemId feedId => exact h
  | markItemFailed itemId validationError => exact h
  | insertFeed row => exact h

/-- The changes of a transaction move an import through the statuses they write. -/
theorem OpmlTables.statusOf_applyAll {t : OpmlTables} {i : Nat} {st : OpmlImportStatus}
    (h : t.statusOf i = some st) (now : Nat) (ws : List OpmlWrite) :
    (t.applyAll now ws).statusOf i = some ((ws.filterMap (OpmlWrite.statusOf i)).getLastD st) := by
  induction ws generalizing t st with
  | nil => exact h
  | cons x ws ih =>
    have hx := statusOf_apply h now x
    change ((x.apply now t).applyAll now ws).statusOf i = _
    rw [ih hx]
    rcases hst : OpmlWrite.statusOf i x with _ | st'
    · rw [List.filterMap_cons_none hst]
      rfl
    · rw [List.filterMap_cons_some hst, List.getLastD_cons]
      rfl

namespace OpmlWorld

/-- The committed status of an import. -/
def statusOf (w : OpmlWorld) (i : Nat) : Option OpmlImportStatus := w.tables.statusOf i

theorem statusOf_congr {w w' : OpmlWorld} (h : w'.imports = w.imports) (i : Nat) :
    w'.statusOf i = w.statusOf i := by
  unfold statusOf OpmlTables.statusOf tables
  rw [h]

/-- The changes the transaction of a process would commit. -/
def staged (w : OpmlWorld) (pid : Nat) : List OpmlWrite :=
  match w.opmlTxn pid with
  | none => []
  | some t => if t.aborted then [] else t.writes

/-- A commit moves an import through the statuses its transaction has staged. -/
theorem statusOf_commitOpmlTxn {w : OpmlWorld} {i : Nat} {st : OpmlImportStatus}
    (h : w.statusOf i = some st) (pid : Nat) :
    (w.commitOpmlTxn pid).statusOf i
      = some (((w.staged pid).filterMap (OpmlWrite.statusOf i)).getLastD st) := by
  unfold commitOpmlTxn staged
  rcases w.opmlTxn pid with _ | t
  · exact h
  · dsimp only
    by_cases ha : t.aborted = true
    · rw [if_pos ha, if_pos ha]
      exact h
    · rw [if_neg ha, if_neg ha]
      exact OpmlTables.statusOf_applyAll h t.startedAt t.writes

end OpmlWorld

/-! ## What a step writes -/

/-- The status a statement writes into an import. -/
def OpmlStatement.statusOf (i : Nat) : OpmlStatement → Option OpmlImportStatus
  | markImportStatus u => if u.importId = i then some u.status else none
  | _ => none

theorem OpmlStatement.Writes.statusOf_eq {now : Nat} {ids : OpmlSequences} {t : OpmlTables}
    {s : OpmlStatement} {x : OpmlWrite} (h : s.Writes now ids t x) (i : Nat) :
    x.statusOf i = s.statusOf i := by
  cases h <;> rfl

/-- A statement that changes nothing writes no status. -/
theorem OpmlStatement.statusOf_of_eval {now : Nat} {ids : OpmlSequences} {t : OpmlTables}
    {s : OpmlStatement} (h : (s.eval now ids t).2 = none) (i : Nat) : s.statusOf i = none := by
  cases s with
  | markImportStatus u => cases h
  | _ => rfl

/-- The statuses a call of the process `pid` writes into an import, in order, if it takes
effect. -/
def OpmlCall.statusWrites (pid : Nat) (w : OpmlWorld) (i : Nat) : OpmlCall → List OpmlImportStatus
  | statement .pool s => (s.statusOf i).toList
  | commit => (w.staged pid).filterMap (OpmlWrite.statusOf i)
  | _ => []

/-- A call that takes effect moves an import through the statuses it writes. -/
theorem OpmlCall.statusOf_serve {pid : Nat} {w w' : OpmlWorld} {c : OpmlCall} {i : Nat}
    {st : OpmlImportStatus} {r : Except String c.Reply} (hs : c.serve pid w = some (r, w'))
    (h : w.statusOf i = some st) :
    w'.statusOf i = some ((c.statusWrites pid w i).getLastD st) := by
  cases c with
  | statement ex s =>
    cases ex with
    | pool =>
      obtain ⟨-, ⟨hn, rfl⟩ | ⟨x, hx, rfl⟩⟩ := OpmlWorld.onPool_eq_some hs
      · rw [h, statusWrites, OpmlStatement.statusOf_of_eval hn]
        rfl
      · have happ := OpmlTables.statusOf_apply h w.core.now x
        rw [statusWrites, ← (OpmlStatement.writes_of_eval hx).statusOf_eq]
        refine happ.trans ?_
        rcases OpmlWrite.statusOf i x with _ | st'
        · rfl
        · rfl
    | client =>
      obtain ⟨t, -, ⟨-, rfl, -⟩ | ⟨-, rfl, -⟩ | ⟨a, -, -, -, ⟨-, rfl⟩ | ⟨x, -, -, rfl⟩⟩⟩ :=
        OpmlWorld.onClient_eq_some hs
      · exact h
      · exact (OpmlWorld.statusOf_congr OpmlWorld.imports_abortOpmlTxn i).trans h
      · exact h
      · exact h
  | commit =>
    obtain ⟨-, rfl⟩ := Prod.mk.inj (Option.some.inj hs)
    exact OpmlWorld.statusOf_commitOpmlTxn h pid
  | core c => cases hs
  | connect =>
    obtain ⟨-, rfl⟩ := Prod.mk.inj (Option.some.inj hs)
    exact h
  | begin =>
    obtain ⟨-, rfl⟩ := Prod.mk.inj (Option.some.inj hs)
    exact h
  | rollback =>
    obtain ⟨-, rfl⟩ := Prod.mk.inj (Option.some.inj hs)
    exact h
  | release =>
    obtain ⟨-, rfl⟩ := Prod.mk.inj (Option.some.inj hs)
    exact h
  | addParseJob jobId data =>
    obtain ⟨-, rfl⟩ := Prod.mk.inj (Option.some.inj hs)
    exact h
  | addApplyJob jobId data =>
    obtain ⟨-, rfl⟩ := Prod.mk.inj (Option.some.inj hs)
    exact h

theorem OpmlCall.statusOf_afterError (c : OpmlCall) (pid : Nat) (w : OpmlWorld) (i : Nat) :
    (c.afterError pid w).statusOf i = w.statusOf i := by
  unfold afterError
  split
  · exact OpmlWorld.statusOf_congr OpmlWorld.imports_abortOpmlTxn i
  · rfl

namespace OpmlSystem

variable {d : OpmlDeployment} {s s' : OpmlSystem}

/-- The statuses a step writes into an import, in order. -/
def statusWrites (s : OpmlSystem) (a : OpmlAction) (i : Nat) : List OpmlImportStatus :=
  match a with
  | .advance pid out =>
    match s.procs pid with
    | some ⟨_, .call c _⟩ => if out.takesEffect then c.statusWrites pid s.world i else []
    | _ => []
  | _ => []

theorem report_imports (w : OpmlWorld) (pid : Nat) (role : OpmlRole) (succeeded : Bool) :
    (report w pid role succeeded).imports = w.imports := by
  cases role <;> rfl

/-- **A step moves an import through the statuses it writes.** -/
theorem statusOf_step {a : OpmlAction} (h : step d s a = some s') {i : Nat}
    {st : OpmlImportStatus} (hst : s.world.statusOf i = some st) :
    s'.world.statusOf i = some ((s.statusWrites a i).getLastD st) := by
  cases a with
  | advance pid out =>
    obtain ⟨role, c, k, r, w, hp, ha, rfl⟩ := advance_eq_some h
    have hwrites : s.statusWrites (.advance pid out) i
        = if out.takesEffect then c.statusWrites pid s.world i else [] := by
      simp [statusWrites, hp]
    rw [hwrites]
    cases OpmlCall.answer_cases ha with
    | core c out r v h => cases out <;> exact hst
    | ok c ch r v hs => exact OpmlCall.statusOf_serve hs hst
    | refused c error => exact (c.statusOf_afterError ..).trans hst
    | lost c ch error r v _ hs =>
      exact (c.statusOf_afterError ..).trans (OpmlCall.statusOf_serve hs hst)
  | core a =>
    obtain ⟨t, -, rfl⟩ := core_eq_some h
    exact hst
  | request pid r =>
    obtain ⟨-, rfl⟩ := start_eq_some h
    exact hst
  | takeParse pid jobId =>
    obtain ⟨job, q, -, -, rfl⟩ := takeParse_eq_some h
    exact hst
  | takeApply pid jobId =>
    obtain ⟨job, q, -, -, rfl⟩ := takeApply_eq_some h
    exact hst
  | finish pid =>
    obtain ⟨role, prog, succeeded, -, -, -, rfl⟩ := finish_eq_some h
    exact (OpmlWorld.statusOf_congr (report_imports ..) i).trans hst
  | crash pid =>
    obtain ⟨p, -, rfl⟩ := crash_eq_some h
    exact hst
  | _ =>
    obtain ⟨q, -, rfl⟩ := Option.map_eq_some_iff.mp h
    exact hst

/-! ## Histories -/

/-- The step moves every import along the status table. -/
def FollowsTable (s : OpmlSystem) (a : OpmlAction) : Prop :=
  ∀ i st, s.world.statusOf i = some st →
    (st :: s.statusWrites a i).IsChain fun x y => canTransition x y = true

/-- What the history of an import gains by a step: the statuses written, or the first one. -/
def entered (s : OpmlSystem) (a : OpmlAction) (s' : OpmlSystem) (i : Nat) :
    List OpmlImportStatus :=
  match s.world.statusOf i with
  | some _ => s.statusWrites a i
  | none => (s'.world.statusOf i).toList

/-- The statuses an import goes through in a run. -/
def history (d : OpmlDeployment) (i : Nat) : OpmlSystem → List OpmlAction → List OpmlImportStatus
  | _, [] => []
  | s, a :: as =>
    match step d s a with
    | none => []
    | some s' => s.entered a s' i ++ history d i s' as

/-- Appending to a chain. -/
theorem isChain_append_of_getLastD {α : Type} {R : α → α → Prop} {x : α} {l l' : List α}
    (h : (x :: l).IsChain R) (h' : (l.getLastD x :: l').IsChain R) :
    (x :: (l ++ l')).IsChain R := by
  induction l generalizing x with
  | nil => exact h'
  | cons y l ih =>
    obtain ⟨hxy, hl⟩ := List.isChain_cons_cons.mp h
    rw [List.getLastD_cons] at h'
    exact List.isChain_cons_cons.mpr ⟨hxy, ih hl h'⟩

/-- **Step by step along the table is along the table.** -/
theorem isChain_history {as : List OpmlAction} (i : Nat)
    (h : Transition.Along (step d) (fun s a _ => s.FollowsTable a) s as) :
    ((s.world.statusOf i).toList ++ history d i s as).IsChain
      fun x y => canTransition x y = true := by
  induction as generalizing s with
  | nil =>
    rcases s.world.statusOf i with _ | st
    · exact .nil
    · exact .singleton _
  | cons a as ih =>
    unfold history
    rcases ha : step d s a with _ | s'
    · rcases s.world.statusOf i with _ | st
      · exact .nil
      · exact .singleton _
    · obtain ⟨hfollows, hrest⟩ := h s' ha
      have hih := ih hrest
      dsimp only
      unfold entered
      rcases hst : s.world.statusOf i with _ | st
      · exact hih
      · rw [statusOf_step ha hst] at hih
        exact isChain_append_of_getLastD (l := s.statusWrites a i) (hfollows i st hst) hih

end OpmlSystem

end Feedpulse
