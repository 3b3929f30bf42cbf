import Std.Data.String.ToNat
import Feedpulse.OpmlPreview
import Feedpulse.OpmlWriter

/-!
# The processes of a confirmed import

Who may bring an import to `importing`, who adds its apply job, and what the worker on that job
leaves. The worker of a job ends without an error only when the import has a final status; a
confirmation adds the job only after it has written `importing`; no other process does either.
-/

namespace Feedpulse

/-- Different imports have different apply jobs. -/
theorem opmlApplyJobId_injective : Function.Injective opmlApplyJobId := fun _ _ h =>
  Nat.repr_injective ((String.append_right_inj _).mp h)

/-! ## The end of an import -/

/-- The import has been applied, or its application has failed. -/
def OpmlImportStatus.final : OpmlImportStatus → Bool
  | completed | failed => true
  | _ => false

theorem OpmlImportStatus.final_getLastD {st : OpmlImportStatus} {l : List OpmlImportStatus}
    (hst : st.final = true) (hl : ∀ x ∈ l, x.final = true) : (l.getLastD st).final = true := by
  rw [List.getLastD_eq_getLast?]
  rcases hlast : l.getLast? with _ | x
  · exact hst
  · exact hl x (List.mem_of_getLast? hlast)

namespace OpmlWorld

variable {w w' : OpmlWorld} {pid i : Nat} {c : OpmlCall} {out : Outcome}
  {r : Except String c.Reply}

/-- The import has a row. -/
def Recorded (w : OpmlWorld) (i : Nat) : Prop := ∃ st, w.statusOf i = some st

/-- The import has a final status. -/
def Ended (w : OpmlWorld) (i : Nat) : Prop := ∃ st, w.statusOf i = some st ∧ st.final = true

theorem Ended.not_importing (h : w.Ended i) : w.statusOf i ≠ some .importing := by
  obtain ⟨st, hst, hfinal⟩ := h
  intro himporting
  obtain rfl := Option.some.inj (hst.symm.trans himporting)
  cases hfinal

/-- An answer moves an import through the statuses the call writes, if it takes effect. -/
theorem statusOf_answer {st : OpmlImportStatus} (ha : c.answer pid w out = some (r, w'))
    (hst : w.statusOf i = some st) :
    w'.statusOf i
      = some ((if out.takesEffect then c.statusWrites pid w i else []).getLastD st) := by
  cases OpmlCall.answer_cases ha with
  | core c out r v h => cases out <;> exact hst
  | ok c ch r v hs => exact OpmlCall.statusOf_serve hs hst
  | refused c error => exact (c.statusOf_afterError ..).trans hst
  | lost c ch error r v _ hs =>
    exact (c.statusOf_afterError ..).trans (OpmlCall.statusOf_serve hs hst)

theorem Recorded.answer (h : w.Recorded i) (ha : c.answer pid w out = some (r, w')) :
    w'.Recorded i := by
  obtain ⟨st, hst⟩ := h
  exact ⟨_, statusOf_answer ha hst⟩

/-- A call that writes final statuses only leaves an import at its end. -/
theorem Ended.answer (h : w.Ended i) (ha : c.answer pid w out = some (r, w'))
    (hfinal : ∀ st ∈ c.statusWrites pid w i, st.final = true) : w'.Ended i := by
  obtain ⟨st, hst, hend⟩ := h
  refine ⟨_, statusOf_answer ha hst, OpmlImportStatus.final_getLastD hend ?_⟩
  split
  · exact hfinal
  · exact fun x hx => absurd hx List.not_mem_nil

/-- What the transaction of a process will commit. -/
def TxnAll (w : OpmlWorld) (pid : Nat) (P : OpmlWrite → Prop) : Prop :=
  ∀ t, w.opmlTxn pid = some t → ∀ x ∈ t.writes, P x

theorem TxnAll.congr {P : OpmlWrite → Prop} (h : w.TxnAll pid P)
    (hw : w'.opmlTxn pid = w.opmlTxn pid) : w'.TxnAll pid P := fun t ht => h t (hw.symm.trans ht)

theorem txnAll_of_none {P : OpmlWrite → Prop} (h : w.opmlTxn pid = none) : w.TxnAll pid P := by
  intro t ht
  rw [h] at ht
  cases ht

theorem TxnAll.abort {P : OpmlWrite → Prop} (h : w.TxnAll pid P) :
    (w.abortOpmlTxn pid).TxnAll pid P := by
  intro t ht
  rw [opmlTxn_abortOpmlTxn] at ht
  obtain ⟨t', ht', rfl⟩ := Option.map_eq_some_iff.mp ht
  exact h t' ht'

theorem TxnAll.effect {P : OpmlWrite → Prop} (h : w.TxnAll pid P) (he : OpmlEffect pid w c w')
    (hc : ∀ s now ids t x, c = .statement .client s → s.Writes now ids t x → P x) :
    w'.TxnAll pid P := by
  cases he with
  | begin =>
    intro t ht
    rw [opmlTxn_setOpmlTxn] at ht
    obtain rfl := Option.some.inj ht
    exact fun x hx => absurd hx List.not_mem_nil
  | commit => exact txnAll_of_none ((opmlTxn_commitOpmlTxn w pid))
  | close => exact txnAll_of_none opmlTxn_dropOpmlTxn
  | stage s t x ht ha hx =>
    intro t' ht'
    change (w.setOpmlTxn pid _).opmlTxn pid = some t' at ht'
    rw [opmlTxn_setOpmlTxn] at ht'
    obtain rfl := Option.some.inj ht'
    intro y hy
    rcases List.mem_append.mp hy with hy | hy
    · exact h t ht y hy
    · obtain rfl := List.mem_singleton.mp hy
      exact hc s _ _ _ _ rfl hx
  | abort => exact h.abort
  | _ => exact h

/-- **The transaction of a process** holds what its statements have staged. -/
theorem TxnAll.answer {P : OpmlWrite → Prop} (h : w.TxnAll pid P)
    (ha : c.answer pid w out = some (r, w'))
    (hc : ∀ s now ids t x, c = .statement .client s → s.Writes now ids t x → P x) :
    w'.TxnAll pid P := by
  have herror : ∀ v : OpmlWorld, v.TxnAll pid P → (c.afterError pid v).TxnAll pid P := by
    intro v hv
    unfold OpmlCall.afterError
    split
    · exact hv.abort
    · exact hv
  cases OpmlCall.answer_cases ha with
  | core => exact h
  | ok c ch r v hs => exact h.effect (OpmlCall.serve_effect hs) hc
  | refused c error => exact herror w h
  | lost c ch error r v _ hs => exact herror v (h.effect (OpmlCall.serve_effect hs) hc)

/-- Only one call changes the apply jobs. -/
theorem applyQueue_answer (ha : c.answer pid w out = some (r, w'))
    (hc : ∀ jobId data, c ≠ .addApplyJob jobId data) : w'.applyQueue = w.applyQueue := by
  have habort : ∀ v : OpmlWorld, (v.abortOpmlTxn pid).applyQueue = v.applyQueue := by
    intro v
    rcases v.abortOpmlTxn_eq pid with h | ⟨t, -, h⟩
    · rw [h]
    · rw [h]
      rfl
  have herror : ∀ v : OpmlWorld, (c.afterError pid v).applyQueue = v.applyQueue := by
    intro v
    unfold OpmlCall.afterError
    split
    · exact habort v
    · rfl
  have hserve : ∀ v r', c.serve pid w = some (r', v) → v.applyQueue = w.applyQueue := by
    intro v r' hs
    cases OpmlCall.serve_effect hs with
    | commit =>
      unfold OpmlWorld.commitOpmlTxn
      rcases w.opmlTxn pid with _ | t
      · rfl
      · dsimp only
        split
        · rfl
        · rfl
    | abort => exact habort w
    | addApply jobId data => exact absurd rfl (hc jobId data)
    | _ => rfl
  cases OpmlCall.answer_cases ha with
  | core => rfl
  | ok c ch r v hs => exact hserve _ _ hs
  | refused c error => exact herror w
  | lost c ch error r v _ hs => exact (herror v).trans (hserve _ _ hs)

end OpmlWorld

namespace OpmlSystem

variable {d : OpmlDeployment} {s s' : OpmlSystem} {a : OpmlAction} {i : Nat}

theorem recorded_step (h : step d s a = some s') (hr : s.world.Recorded i) :
    s'.world.Recorded i := by
  obtain ⟨st, hst⟩ := hr
  exact ⟨_, statusOf_step h hst⟩

/-- A step that writes final statuses only leaves an import at its end. -/
theorem ended_step (h : step d s a = some s') (he : s.world.Ended i)
    (hfinal : ∀ st ∈ s.statusWrites a i, st.final = true) : s'.world.Ended i := by
  obtain ⟨st, hst, hend⟩ := he
  exact ⟨_, statusOf_step h hst, OpmlImportStatus.final_getLastD hend hfinal⟩

end OpmlSystem

/-! ## How an import comes to `importing` -/

/-- A change that brings no import to `importing`. -/
def OpmlWrite.Mild : OpmlWrite → Prop
  | markImportStatus u => u.status ≠ .importing
  | insertImport row => row.status ≠ .importing
  | _ => True

theorem OpmlTables.importing_of_apply {t : OpmlTables} {x : OpmlWrite} {now i : Nat}
    (hx : x.statusOf i ≠ some .importing)
    (hrow : ∀ row, x = .insertImport row → row.status ≠ .importing)
    (h : (x.apply now t).statusOf i = some .importing) : t.statusOf i = some .importing := by
  rcases hst : t.statusOf i with _ | st
  · cases x with
    | insertImport row =>
      obtain ⟨r, hr, hstatus⟩ := Option.map_eq_some_iff.mp h
      change Table.lookup OpmlImportRow.id i (t.imports ++ [row]) = some r at hr
      rw [Table.lookup_append, Option.map_eq_none_iff.mp hst, Option.none_or] at hr
      obtain rfl := List.mem_singleton.mp (Table.mem_of_lookup hr)
      exact absurd hstatus (hrow r rfl)
    | markImportStatus u =>
      obtain ⟨r, hr, -⟩ := Option.map_eq_some_iff.mp h
      change Table.lookup OpmlImportRow.id i (Table.updateWhere _ _ t.imports) = some r at hr
      rw [Table.lookup_updateWhere fun r => (rfl : (u.apply now r).id = r.id),
        Option.map_eq_none_iff.mp hst] at hr
      cases hr
    | _ => exact absurd (hst.symm.trans h) (by simp)
  · rw [statusOf_apply hst] at h
    rcases hw : x.statusOf i with _ | st'
    · rwa [hw] at h
    · rw [hw] at h
      exact absurd (hw.trans h) hx

theorem OpmlWrite.Mild.statusOf {x : OpmlWrite} (h : x.Mild) (i : Nat) :
    x.statusOf i ≠ some .importing := by
  cases x with
  | markImportStatus u =>
    intro hw
    have hu : u.importId = i ∧ u.status = .importing := by simpa [OpmlWrite.statusOf] using hw
    exact h hu.2
  | _ => exact fun hw => by cases hw

theorem OpmlWrite.Mild.row {x : OpmlWrite} (h : x.Mild) (row : OpmlImportRow)
    (hx : x = .insertImport row) : row.status ≠ .importing := by
  subst hx
  exact h

theorem OpmlTables.importing_of_applyAll {t : OpmlTables} {ws : List OpmlWrite} {now i : Nat}
    (hws : ∀ x ∈ ws, x.Mild) (h : (t.applyAll now ws).statusOf i = some .importing) :
    t.statusOf i = some .importing := by
  induction ws generalizing t with
  | nil => exact h
  | cons x ws ih =>
    have hx := hws x List.mem_cons_self
    exact importing_of_apply (hx.statusOf i) hx.row
      (ih (t := x.apply now t) (fun y hy => hws y (List.mem_cons_of_mem _ hy)) h)

/-- A statement that writes no `importing` makes mild changes. -/
theorem OpmlStatement.Writes.mild {now : Nat} {ids : OpmlSequences} {t : OpmlTables}
    {s : OpmlStatement} {x : OpmlWrite} (h : s.Writes now ids t x)
    (hs : ∀ u, s.update? = some u → u.status ≠ .importing) : x.Mild := by
  cases h with
  | markImportStatus u => exact hs u rfl
  | createImport input => exact fun h => by cases h
  | _ => trivial

/-- A status write that finds its row. -/
theorem OpmlWorld.statusOf_markImportStatus {w w' : OpmlWorld} {u : OpmlStatusUpdate}
    {row : OpmlImportRow} (h : w.onPool (.markImportStatus u) = some (.ok (some row), w')) :
    w'.statusOf u.importId = some u.status := by
  obtain ⟨hr, ⟨hnone, -⟩ | ⟨x, hx, rfl⟩⟩ := onPool_eq_some h
  · cases hnone
  · obtain rfl := Option.some.inj hx
    obtain ⟨found, hfound, -⟩ := Option.map_eq_some_iff.mp (Except.ok.inj hr).symm
    have hst : w.tables.statusOf u.importId = some found.status := by
      rw [OpmlTables.statusOf, hfound]
      rfl
    refine (OpmlTables.statusOf_apply hst w.core.now (.markImportStatus u)).trans ?_
    simp [OpmlWrite.statusOf]

/-- **Only a status write on the pool brings an import to `importing`.** -/
theorem OpmlEffect.importing {pid i : Nat} {w w' : OpmlWorld} {c : OpmlCall}
    (h : OpmlEffect pid w c w') (hmild : w.TxnAll pid OpmlWrite.Mild)
    (hi : w'.statusOf i = some .importing) :
    w.statusOf i = some .importing ∨ ∃ u, c = .statement .pool (.markImportStatus u) ∧
      u.importId = i ∧ u.status = .importing := by
  cases h with
  | commit =>
    left
    unfold OpmlWorld.commitOpmlTxn at hi
    rcases ht : w.opmlTxn pid with _ | t
    · rw [ht] at hi
      exact hi
    · rw [ht] at hi
      dsimp only at hi
      split at hi
      · exact hi
      · exact OpmlTables.importing_of_applyAll (hmild t ht) hi
  | write s x hx =>
    by_cases hw : x.statusOf i = some .importing
    · rw [hx.statusOf_eq] at hw
      cases s with
      | markImportStatus u =>
        have hu : u.importId = i ∧ u.status = .importing := by
          simpa [OpmlStatement.statusOf] using hw
        exact .inr ⟨u, rfl, hu⟩
      | _ => cases hw
    · refine .inl (OpmlTables.importing_of_apply hw (fun row hrow => ?_) hi)
      subst hrow
      cases hx
      exact fun h => by cases h
  | stage s t x ht ha hx => exact .inl hi
  | abort s =>
    exact .inl ((OpmlWorld.statusOf_congr OpmlWorld.imports_abortOpmlTxn i).symm.trans hi)
  | _ => exact .inl hi

/-! ## The worker of an apply job -/

/-- What a worker knows of its import. -/
structure Applier where
  /-- its open transaction has staged a final status -/
  staged : Bool
  /-- the import has a final status -/
  settled : Bool

/-- A reply that says that the import `i` has a final status. -/
def OpmlStatement.settles (i : Nat) : (s : OpmlStatement) → s.Reply → Bool
  | findImportByIdForWorker importId, row =>
    importId = i && (row : Option OpmlImportRow).any fun r => r.status.final
  | markImportStatus u, row =>
    u.importId = i && u.status.final && (row : Option OpmlImportRow).isSome
  | _, _ => false

namespace Applier

variable {i : Nat} {x y : Applier}

/-- What the worker knows after a call. -/
def after (i : Nat) (x : Applier) : (c : OpmlCall) → Except String c.Reply → Applier
  | .statement .pool s, r =>
    { x with
      settled := (x.settled && s.update?.all fun u => u.status.final) ||
        r.toOption.any (s.settles i) }
  | .statement .client s, r =>
    { x with staged := r.toOption.isSome && (x.staged || s.update?.isSome) }
  | .commit, r => { staged := false, settled := x.settled || (r.toOption.isSome && x.staged) }
  | .begin, _ | .rollback, _ | .release, _ => { x with staged := false }
  | _, _ => x

/-- The calls the worker of the import `i` may issue: it writes the status of no other import,
and stages final ones only. -/
def Lawful (i : Nat) : OpmlCall → Prop
  | .addApplyJob .. => False
  | .statement .pool s => ∀ u, s.update? = some u → u.importId = i
  | .statement .client s => ∀ u, s.update? = some u → u.importId = i ∧ u.status.final = true
  | _ => True

/-- Every execution of the program is one of a worker of the import `i`. -/
abbrev Obeys {α : Type} (i : Nat) (p : OpmlProgram α) (post : Except String α → Applier → Prop)
    (x : Applier) : Prop :=
  Prog.Meets (fun _ c => Lawful i c) (fun x c r y => y = x.after i c r) p post x

/-- What a program knows at its end, if it returns. -/
def Ends {α : Type} (r : Except String α) (y : Applier) : Prop :=
  ∀ a, r = .ok a → y.settled = true

/-- The work on items is lawful, and settles nothing. -/
theorem obeys_of_itemWork {α : Type} {p : OpmlProgram α} (hp : Prog.Issues OpmlCall.ItemWork p) :
    Obeys i p (fun _ y => y.settled = x.settled) x := by
  have hstep : ∀ (y : Applier) (c : OpmlCall) (r : Except String c.Reply) (y' : Applier),
      c.ItemWork → y.settled = x.settled → y' = y.after i c r → y'.settled = x.settled := by
    rintro y c r _ hc hy rfl
    cases c with
    | core c => exact hy
    | statement ex s =>
      cases ex with
      | pool => exact hc.elim
      | client => exact hy
    | _ => exact hc.elim
  refine (hp.confine (hp.meets hstep rfl)).weaken (fun y c hc => ?_) fun _ _ _ _ h => h
  cases c with
  | core c => trivial
  | statement ex s =>
    cases ex with
    | pool => exact hc.elim
    | client =>
      intro u hu
      have hnone : s.update? = none := hc
      rw [hnone] at hu
      cases hu
  | _ => exact hc.elim

/-- A call that says nothing about the import. -/
theorem obeys_call {c : OpmlCall} (hc : Lawful i c)
    (hx : ∀ r, (x.after i c r).settled = x.settled) :
    Obeys i (opmlCall c) (fun _ y => y.settled = x.settled) x := by
  refine Prog.meets_invoke.mpr ⟨hc, ?_⟩
  rintro r _ rfl
  exact hx r

theorem obeys_itemStatement {s : OpmlStatement} (h : s.update? = none) :
    Obeys i (opmlStatement .client s) (fun _ y => y.settled = x.settled) x :=
  obeys_of_itemWork (Prog.issues_invoke (c := OpmlCall.statement .client s) h)

/-- Reading the import. -/
theorem obeys_getImportOrThrowForWorker :
    Obeys i (OpmlImportsRepository.getImportOrThrowForWorker i)
      (fun r y => ∀ row, r = .ok row → row.status.final = true → y.settled = true) x := by
  have hcall : Obeys i (opmlStatement .pool (.findImportByIdForWorker i))
      (fun r y => ∀ row, r = .ok (some row) → row.status.final = true → y.settled = true) x := by
    refine Prog.meets_invoke.mpr ⟨fun u hu => (by cases hu), ?_⟩
    rintro r _ rfl row rfl hrow
    simp [after, OpmlStatement.settles, hrow, Except.toOption]
  refine hcall.bind ?_ ?_
  · rintro (_ | row) y hy
    · rintro row hrow
      cases hrow
    · intro row' hrow
      obtain rfl := Except.ok.inj hrow
      exact hy row rfl
  · rintro e y hy row hrow
    cases hrow

/-- A status write outside the transaction. -/
theorem obeys_markImportStatus_pool {u : OpmlStatusUpdate} (hu : u.importId = i) :
    Obeys i (OpmlImportsRepository.markImportStatus u .pool)
      (fun r y => ∀ row, r = .ok row → u.status.final = true → y.settled = true) x := by
  have hcall : Obeys i (opmlStatement .pool (.markImportStatus u))
      (fun r y => ∀ row, r = .ok (some row) → u.status.final = true → y.settled = true) x := by
    refine Prog.meets_invoke.mpr ⟨?_, ?_⟩
    · intro u' hu'
      obtain rfl := Option.some.inj hu'
      exact hu
    · rintro r _ rfl row rfl hfinal
      simp [after, OpmlStatement.settles, hu, hfinal, Except.toOption]
  refine hcall.bind ?_ ?_
  · rintro (_ | row) y hy
    · rintro row hrow
      cases hrow
    · intro row' _
      exact hy row rfl
  · rintro e y hy row hrow
    cases hrow

/-- A status write inside the transaction. -/
theorem obeys_markImportStatus_client {u : OpmlStatusUpdate} (hu : u.importId = i)
    (hfinal : u.status.final = true) :
    Obeys i (OpmlImportsRepository.markImportStatus u .client)
      (fun r y => ∀ row, r = .ok row → y.staged = true) x := by
  have hcall : Obeys i (opmlStatement .client (.markImportStatus u))
      (fun r y => ∀ row, r = .ok row → y.staged = true) x := by
    refine Prog.meets_invoke.mpr ⟨?_, ?_⟩
    · intro u' hu'
      obtain rfl := Option.some.inj hu'
      exact ⟨hu, hfinal⟩
    · rintro r _ rfl row rfl
      simp [after, OpmlStatement.update?, Except.toOption]
  refine hcall.bind ?_ ?_
  · rintro (_ | row) y hy
    · rintro row hrow
      cases hrow
    · intro row' _
      exact hy (some row) rfl
  · rintro e y hy row hrow
    cases hrow

section Programs

variable {cfg : OpmlConfig} {rt : OpmlRuntime} {tenantId : String}

open ProcessOpmlApplyJob

/-- The transaction, if it returns, has committed a final status. -/
theorem transaction_obeys : Obeys i (transaction cfg rt tenantId i) Ends x := by
  have hnone : ∀ {β : Type} (e : String) (y : Applier), Ends (.error e : Except String β) y :=
    fun e y a ha => by cases ha
  refine (obeys_call (c := .begin) trivial fun _ => rfl).bind ?_ fun e y _ => hnone e y
  rintro ⟨⟩ y -
  refine (obeys_itemStatement rfl).bind ?_ fun e y _ => hnone e y
  intro candidates y _
  refine (obeys_of_itemWork (applyItems_issues _ _ _)).bind ?_ fun e y _ => hnone e y
  intro tally y _
  refine (obeys_itemStatement rfl).bind ?_ fun e y _ => hnone e y
  intro grouped y _
  have hfinal : (finalUpdate i tally grouped).status.final = true := by
    rw [finalUpdate]
    dsimp only
    split
    · rfl
    · rfl
  refine (obeys_markImportStatus_client rfl hfinal).bind ?_ fun e y _ => hnone e y
  intro row y hy
  have hcommit : Obeys i (opmlCall .commit) Ends y := by
    refine Prog.meets_invoke.mpr ⟨trivial, ?_⟩
    rintro r _ rfl a rfl
    simp [after, hy row rfl, Except.toOption]
  refine hcommit.bind ?_ fun e y _ => hnone e y
  rintro ⟨⟩ y hy _ _
  exact hy () rfl

/-- The `try` around the transaction, if it returns, leaves a final status. -/
theorem run_obeys : Obeys i (run cfg rt tenantId i) Ends x := by
  have hnone : ∀ {β : Type} (e : String) (y : Applier), Ends (.error e : Except String β) y :=
    fun e y a ha => by cases ha
  have hbody : ∀ y, Obeys i (do
      let createdFeedIds ← transaction cfg rt tenantId i
      enqueueFeeds createdFeedIds) Ends y := by
    intro y
    refine transaction_obeys.bind ?_ fun e y _ => hnone e y
    intro createdFeedIds y hy
    refine (obeys_of_itemWork (enqueueFeeds_issues createdFeedIds)).mono ?_
    intro r z hz a ha
    exact hz.trans (hy createdFeedIds rfl)
  have hhandler : ∀ message y, Obeys i (do
      opmlCall .rollback
      let _ ← OpmlImportsRepository.markImportStatus
        { importId := i, status := .failed, errorMessage := some message } .pool) Ends y := by
    intro message y
    refine (obeys_call (c := .rollback) trivial fun _ => rfl).bind ?_ fun e z _ => hnone e z
    rintro ⟨⟩ z -
    refine (obeys_markImportStatus_pool rfl).bind ?_ fun e t _ => hnone e t
    intro row t ht _ _
    exact ht row rfl rfl
  refine (obeys_call (c := .connect) trivial fun _ => rfl).bind ?_ fun e y _ => hnone e y
  rintro ⟨⟩ y -
  refine meets_finallyDo
    ((hbody y).tryCatch (fun a z hz => hz) fun message z _ => hhandler message z) ?_
  intro r z hz
  refine (obeys_call (c := .release) trivial fun _ => rfl).mono fun r' t ht => ⟨fun _ => ?_, ?_⟩
  · intro a ha
    exact ht.trans (hz a ha)
  · exact fun e _ => hnone e t

/-- **The worker**: when its program returns, the import has a final status. -/
theorem execute_obeys (job : OpmlApplyImportJobData) :
    Obeys job.importId (execute cfg rt job) Ends x := by
  have hnone : ∀ {β : Type} (e : String) (y : Applier), Ends (.error e : Except String β) y :=
    fun e y a ha => by cases ha
  refine obeys_getImportOrThrowForWorker.bind ?_ fun e y _ => hnone e y
  intro current y hy
  have hread : Obeys job.importId (opmlStatement .pool (.getImportTenantId job.importId))
      (fun _ z => z.settled = y.settled) y := by
    refine Prog.meets_invoke.mpr ⟨fun u hu => (by cases hu), ?_⟩
    rintro r _ rfl
    rcases r with e | a <;>
      simp [after, OpmlStatement.settles, OpmlStatement.update?, Except.toOption]
  have htenant : Obeys job.importId (OpmlImportsRepository.getImportTenantId job.importId .pool)
      (fun _ z => z.settled = y.settled) y := by
    refine hread.bind ?_ fun e z hz => hz
    rintro (_ | tenantId) z hz
    · exact hz
    · exact hz
  refine htenant.bind ?_ fun e z _ => hnone e z
  intro tenantId z hz
  split
  · rename_i hcompleted
    intro _ _
    exact hz.trans (hy current rfl (by rw [hcompleted]; rfl))
  · split
    · exact run_obeys
    · split
      · refine (obeys_markImportStatus_pool rfl).bind ?_ fun e t _ => hnone e t
        intro row t _
        exact run_obeys
      · exact hnone _ _

end Programs

/-! ### The worker and the shared state -/

variable {w w' : OpmlWorld} {pid : Nat} {c : OpmlCall} {out : Outcome} {r : Except String c.Reply}

/-- The last status the transaction of a process would write is a final one. -/
def StagesFinal (w : OpmlWorld) (pid i : Nat) : Prop :=
  ∃ t, w.opmlTxn pid = some t ∧ t.aborted = false ∧
    ∃ st, (t.writes.filterMap (OpmlWrite.statusOf i)).getLast? = some st ∧ st.final = true

/-- What the worker knows is so: the end of its import is safe while it holds the job. -/
structure Sound (w : OpmlWorld) (pid i : Nat) (x : Applier) : Prop where
  /-- the import has a row -/
  recorded : w.Recorded i
  /-- its transaction writes final statuses only -/
  finals : w.TxnAll pid fun y => ∀ st, y.statusOf i = some st → st.final = true
  /-- its transaction has staged a final status -/
  staged : x.staged = true → StagesFinal w pid i
  /-- the import has a final status -/
  settled : x.settled = true → w.applyQueue.HeldBy (opmlApplyJobId i) pid → w.Ended i

/-- A call that is not made on the connection leaves the transaction alone. -/
theorem opmlTxn_of_answer (hc : c.onConnection = false) (hrelease : c ≠ .release)
    (ha : c.answer pid w out = some (r, w')) : w'.opmlTxn pid = w.opmlTxn pid := by
  have herror : ∀ v : OpmlWorld, c.afterError pid v = v := by
    intro v
    rw [OpmlCall.afterError, if_neg (by simp [hc])]
  have hserve : ∀ v r', c.serve pid w = some (r', v) → v.opmlTxn pid = w.opmlTxn pid := by
    intro v r' hs
    cases OpmlCall.serve_effect hs with
    | begin => cases hc
    | commit => cases hc
    | close c hclose =>
      rcases hclose with rfl | rfl
      · cases hc
      · exact absurd rfl hrelease
    | stage => cases hc
    | abort => cases hc
    | _ => rfl
  cases OpmlCall.answer_cases ha with
  | core => rfl
  | ok c ch r v hs => exact hserve _ _ hs
  | refused c error => rw [herror]
  | lost c ch error r v _ hs => rw [herror, hserve _ _ hs]

theorem StagesFinal.congr (h : StagesFinal w pid i) (hw : w'.opmlTxn pid = w.opmlTxn pid) :
    StagesFinal w' pid i := by
  obtain ⟨t, ht, hrest⟩ := h
  exact ⟨t, hw.trans ht, hrest⟩

/-- A reply on the pool that settles the import is right. -/
theorem ended_of_settles {s : OpmlStatement} {a : s.Reply} (hs : s.settles i a = true)
    (ha : w.onPool s = some (.ok a, w')) : w'.Ended i := by
  obtain ⟨hr, hw⟩ := OpmlWorld.onPool_eq_some ha
  cases s with
  | findImportByIdForWorker importId =>
    obtain rfl : w' = w := by
      rcases hw with ⟨-, hw⟩ | ⟨x, hx, -⟩
      · exact hw
      · cases hx
    obtain rfl := Except.ok.inj hr
    simp only [OpmlStatement.settles, Bool.and_eq_true, decide_eq_true_eq, Option.any_eq_true]
      at hs
    obtain ⟨rfl, row, hrow, hfinal⟩ := hs
    exact ⟨row.status, by rw [OpmlWorld.statusOf, OpmlTables.statusOf, hrow]; rfl, hfinal⟩
  | markImportStatus u =>
    simp only [OpmlStatement.settles, Bool.and_eq_true, decide_eq_true_eq] at hs
    obtain ⟨⟨rfl, hfinal⟩, hsome⟩ := hs
    obtain ⟨row, rfl⟩ := Option.isSome_iff_exists.mp hsome
    exact ⟨u.status, OpmlWorld.statusOf_markImportStatus ha, hfinal⟩
  | _ => cases hs

/-- A reply on the client keeps a final status staged, or stages one. -/
theorem stagesFinal_of_onClient {s : OpmlStatement} {a : s.Reply}
    (hlawful : ∀ u, s.update? = some u → u.importId = i ∧ u.status.final = true)
    (hx : StagesFinal w pid i ∨ s.update?.isSome = true)
    (ha : w.onClient pid s = some (.ok a, w')) : StagesFinal w' pid i := by
  obtain ⟨t, ht, ⟨-, -, e, he⟩ | ⟨-, -, e, he⟩ | ⟨b, hopen, -, -, hw⟩⟩ :=
    OpmlWorld.onClient_eq_some ha
  · cases he
  · cases he
  rcases hw with ⟨hnone, rfl⟩ | ⟨x, hwrite, -, rfl⟩
  · refine hx.resolve_right fun hsome => ?_
    rw [OpmlStatement.update?_of_eval hnone] at hsome
    cases hsome
  · have hwrites := OpmlStatement.writes_of_eval hwrite
    refine ⟨{ t with writes := t.writes ++ [x] }, OpmlWorld.opmlTxn_setOpmlTxn _, hopen, ?_⟩
    rw [List.filterMap_append]
    rcases hu : s.update? with _ | u
    · -- the change is none of a status
      obtain ⟨t', ht', -, st, hlast, hfinal⟩ :=
        hx.resolve_right (by rw [hu]; exact Bool.false_ne_true)
      obtain rfl := Option.some.inj (ht.symm.trans ht')
      have hnone : x.statusOf i = none := by
        rw [hwrites.statusOf_eq]
        cases s with
        | markImportStatus u => cases hu
        | _ => rfl
      refine ⟨st, ?_, hfinal⟩
      rw [List.filterMap_cons_none hnone, List.filterMap_nil, List.append_nil]
      exact hlast
    · obtain ⟨hid, hfinal⟩ := hlawful u hu
      have hsome : x.statusOf i = some u.status := by
        rw [hwrites.statusOf_eq]
        cases s with
        | markImportStatus u' =>
          obtain rfl := Option.some.inj hu
          exact if_pos hid
        | _ => cases hu
      refine ⟨u.status, ?_, hfinal⟩
      rw [List.filterMap_cons_some hsome, List.filterMap_nil, List.getLast?_concat]

/-- **What the worker knows stays so.** -/
theorem Sound.answer (h : Sound w pid i x) (hlawful : Lawful i c)
    (ha : c.answer pid w out = some (r, w')) : Sound w' pid i (x.after i c r) := by
  have hrecorded := h.recorded.answer ha
  have hfinals : w'.TxnAll pid fun y => ∀ st, y.statusOf i = some st → st.final = true := by
    refine h.finals.answer ha ?_
    rintro s now ids t y rfl hy st hst
    rw [hy.statusOf_eq] at hst
    cases s with
    | markImportStatus u =>
      have hu : u.importId = i ∧ u.status = st := by
        simpa [OpmlStatement.statusOf] using hst
      exact hu.2 ▸ (hlawful u rfl).2
    | _ => cases hst
  have hqueue : w'.applyQueue = w.applyQueue := by
    refine OpmlWorld.applyQueue_answer ha ?_
    rintro jobId data rfl
    exact hlawful
  -- a settled import stays ended if the statement writes final statuses only
  have hstays : (∀ st ∈ c.statusWrites pid w i, st.final = true) → x.settled = true →
      w'.applyQueue.HeldBy (opmlApplyJobId i) pid → w'.Ended i := by
    intro hwrites hx hheld
    rw [hqueue] at hheld
    exact (h.settled hx hheld).answer ha hwrites
  have hnone : ∀ st ∈ ([] : List OpmlImportStatus), st.final = true :=
    fun st hst => absurd hst List.not_mem_nil
  cases c with
  | addApplyJob jobId data => exact hlawful.elim
  | begin => exact ⟨hrecorded, hfinals, fun hx => (by cases hx), hstays hnone⟩
  | rollback => exact ⟨hrecorded, hfinals, fun hx => (by cases hx), hstays hnone⟩
  | release => exact ⟨hrecorded, hfinals, fun hx => (by cases hx), hstays hnone⟩
  | commit =>
    refine ⟨hrecorded, hfinals, fun hx => (by cases hx), fun hx => ?_⟩
    -- it was settled before, or this commit settles it
    rcases Bool.or_eq_true_iff.mp hx with hx | hx
    · refine hstays (fun st hst => ?_) hx
      obtain ⟨y, hy, hyst⟩ := List.mem_filterMap.mp hst
      rw [OpmlWorld.staged] at hy
      rcases ht : w.opmlTxn pid with _ | t
      · rw [ht] at hy
        cases hy
      · simp only [ht] at hy
        split at hy
        · cases hy
        · exact h.finals t ht y hy st hyst
    · intro _
      obtain ⟨hok, hstaged⟩ := Bool.and_eq_true_iff.mp hx
      obtain ⟨t, ht, hopen, st, hlast, hfinal⟩ := h.staged hstaged
      -- the last status that was staged is the one that the import now has
      obtain ⟨st₀, hst₀⟩ := h.recorded
      have hw : w' = w.commitOpmlTxn pid := by
        cases OpmlCall.answer_cases ha with
        | ok c ch r v hs => exact (Prod.mk.inj (Option.some.inj hs)).2.symm
        | refused c error => cases hok
        | lost c ch error r v hinf hs => cases hok
      refine ⟨st, ?_, hfinal⟩
      rw [hw, OpmlWorld.statusOf_commitOpmlTxn hst₀ pid]
      have hstagedWrites : w.staged pid = t.writes := by
        rw [OpmlWorld.staged, ht]
        simp [hopen]
      rw [hstagedWrites, List.getLastD_eq_getLast?, hlast]
      rfl
  | statement ex s =>
    cases ex with
    | pool =>
      refine ⟨hrecorded, hfinals,
        fun hx => (h.staged hx).congr (opmlTxn_of_answer rfl (by simp) ha), fun hx => ?_⟩
      rcases Bool.or_eq_true_iff.mp hx with hx | hx
      · obtain ⟨hx, hall⟩ := Bool.and_eq_true_iff.mp hx
        refine hstays (fun st hst => ?_) hx
        cases s with
        | markImportStatus u =>
          have hst' : (if u.importId = i then some u.status else none) = some st :=
            Option.mem_toList.mp hst
          obtain ⟨-, hst'⟩ := Option.ite_none_right_eq_some.mp hst'
          obtain rfl := Option.some.inj hst'
          exact hall
        | _ => exact absurd hst List.not_mem_nil
      · intro _
        cases OpmlCall.answer_cases ha with
        | ok c ch r v hs =>
          rcases r with e | a
          · cases hx
          · exact ended_of_settles hx hs
        | refused c error => cases hx
        | lost c ch error r v hinf hs => cases hx
    | client =>
      refine ⟨hrecorded, hfinals, fun hx => ?_, hstays hnone⟩
      obtain ⟨hok, hx⟩ := Bool.and_eq_true_iff.mp hx
      cases OpmlCall.answer_cases ha with
      | ok c ch r v hs =>
        rcases r with e | a
        · cases hok
        · exact stagesFinal_of_onClient hlawful
            ((Bool.or_eq_true_iff.mp hx).imp_left h.staged) hs
      | refused c error => cases hok
      | lost c ch error r v hinf hs => cases hok
  | _ =>
    exact ⟨hrecorded, hfinals,
      fun hx => (h.staged hx).congr (opmlTxn_of_answer rfl (by simp) ha), hstays hnone⟩

end Applier

/-! ## The processes of a confirmation -/

namespace ConfirmOpmlImport

/-- What is left of a confirmation after the read. -/
def writeRest (importId : Nat) : OpmlProgram Unit := OpmlSystem.ignore do
  let updated ← OpmlImportsRepository.markImportStatus
    { importId := importId, status := .importing, confirmed := true } .pool
  let now : Nat ← ofCore clock
  enqueueApply { importId := importId, requestedAt := now }
  pure (updated.id, ConfirmStatus.queued)

/-- What is left of it after the status write. -/
def clockRest (importId id : Nat) : OpmlProgram Unit := OpmlSystem.ignore do
  let now : Nat ← ofCore clock
  enqueueApply { importId := importId, requestedAt := now }
  pure (id, ConfirmStatus.queued)

/-- What is left of it after the clock has been read. -/
def addRest (importId id now : Nat) : OpmlProgram Unit := OpmlSystem.ignore do
  enqueueApply { importId := importId, requestedAt := now }
  pure (id, ConfirmStatus.queued)

end ConfirmOpmlImport

/-- The programs that a confirmation goes through, the last ones only once its import has been
confirmed. -/
inductive Confirming (w : OpmlWorld) : OpmlProgram Unit → Prop
  /-- the request has arrived -/
  | read (importId : Nat) (tenantId : String) :
    Confirming w (OpmlSystem.ignore (ConfirmOpmlImport.execute importId tenantId))
  /-- the status is to be written -/
  | write (importId : Nat) : Confirming w (ConfirmOpmlImport.writeRest importId)
  /-- the status is written -/
  | clock (importId id : Nat) (h : w.Recorded importId) :
    Confirming w (ConfirmOpmlImport.clockRest importId id)
  /-- the job is to be added -/
  | add (importId id now : Nat) (h : w.Recorded importId) :
    Confirming w (ConfirmOpmlImport.addRest importId id now)
  /-- the request is answered -/
  | returned : Confirming w (.ret ())
  /-- the request has failed -/
  | failed (e : String) : Confirming w (.throw e)

theorem Confirming.mono {w w' : OpmlWorld} {prog : OpmlProgram Unit} (h : Confirming w prog)
    (hstays : ∀ i, w.Recorded i → w'.Recorded i) : Confirming w' prog := by
  cases h with
  | read importId tenantId => exact .read importId tenantId
  | write importId => exact .write importId
  | clock importId id h => exact .clock importId id (hstays importId h)
  | add importId id now h => exact .add importId id now (hstays importId h)
  | returned => exact .returned
  | failed e => exact .failed e

/-- The import whose apply job a program adds next, if it does. -/
def nextApply : OpmlProgram Unit → Option Nat
  | .call (.addApplyJob _ data) _ => some data.importId
  | .call (.core .clock) k =>
    match k (.ok (0 : Nat)) with
    | .call (.addApplyJob _ data) _ => some data.importId
    | _ => none
  | _ => none

/-- The calls of a confirmation, with what follows them. -/
inductive Confirming.Call (w : OpmlWorld) :
    (c : OpmlCall) → (Except String c.Reply → OpmlProgram Unit) → Prop
  /-- the import is read -/
  | read (importId : Nat) (tenantId : String) (k) (herror : ∀ e, k (.error e) = .throw e)
    (hok : ∀ row, (∃ e, k (.ok row) = .throw e) ∨ k (.ok row) = .ret () ∨
      k (.ok row) = ConfirmOpmlImport.writeRest importId) :
    Call w (.statement .pool (.findImportByIdForTenant importId tenantId)) k
  /-- the status is written -/
  | write (importId : Nat) (k) (herror : ∀ e, k (.error e) = .throw e)
    (hnone : ∃ e, k (.ok none) = .throw e)
    (hok : ∀ row : OpmlImportRow,
      k (.ok (some row)) = ConfirmOpmlImport.clockRest importId row.id) :
    Call w (.statement .pool (.markImportStatus
      { importId := importId, status := .importing, confirmed := true })) k
  /-- the clock is read -/
  | clock (importId id : Nat) (h : w.Recorded importId) (k)
    (herror : ∀ e, k (.error e) = .throw e)
    (hok : ∀ now : Nat, k (.ok now) = ConfirmOpmlImport.addRest importId id now) :
    Call w (.core .clock) k
  /-- the job is added -/
  | add (importId now : Nat) (h : w.Recorded importId) (k)
    (herror : ∀ e, k (.error e) = .throw e) (hok : k (.ok ()) = .ret ()) :
    Call w (.addApplyJob (opmlApplyJobId importId) { importId := importId, requestedAt := now }) k

theorem Confirming.call {w : OpmlWorld} {c : OpmlCall}
    {k : Except String c.Reply → OpmlProgram Unit} (h : Confirming w (.call c k)) :
    Confirming.Call w c k := by
  generalize hprog : Prog.call c k = prog at h
  cases h with
  | read importId tenantId =>
    cases hprog
    refine .read importId tenantId _ (fun e => rfl) ?_
    rintro (_ | row)
    · exact .inl ⟨_, rfl⟩
    · obtain ⟨id, tenant, status, hrest⟩ := row
      cases status with
      | previewReady => exact .inr (.inr rfl)
      | importing => exact .inr (.inl rfl)
      | completed => exact .inr (.inl rfl)
      | _ => exact .inl ⟨_, rfl⟩
  | write importId =>
    cases hprog
    exact .write importId _ (fun e => rfl) ⟨_, rfl⟩ fun row => rfl
  | clock importId id h =>
    cases hprog
    exact .clock importId id h _ (fun e => rfl) fun now => rfl
  | add importId id now h =>
    cases hprog
    exact .add importId now h _ (fun e => rfl) rfl
  | returned => cases hprog
  | failed e => cases hprog

/-! ## What the processes do -/

/-- Calls that add no apply job and write no `importing`. -/
def OpmlCall.Quiet : OpmlCall → Prop
  | addApplyJob .. => False
  | statement _ s => ∀ u, s.update? = some u → u.status ≠ .importing
  | _ => True

/-- What a process of the import does: it leaves the apply jobs alone, it is a confirmation, or
it is a worker on an apply job. -/
inductive OpmlProcess.Behaves (w : OpmlWorld) (pid : Nat) : OpmlProcess → Prop
  /-- it leaves the apply jobs alone -/
  | quiet (role : OpmlRole) (prog : OpmlProgram Unit) (hrole : ∀ jobId, role ≠ .applyWorker jobId)
    (h : Prog.Issues OpmlCall.Quiet prog) : Behaves w pid ⟨role, prog⟩
  /-- it is a confirmation -/
  | confirm (prog : OpmlProgram Unit) (h : Confirming w prog) : Behaves w pid ⟨.request, prog⟩
  /-- it is a worker -/
  | apply (i : Nat) (prog : OpmlProgram Unit) (x : Applier)
    (hobeys : Applier.Obeys i prog Applier.Ends x) (hsound : Applier.Sound w pid i x) :
    Behaves w pid ⟨.applyWorker (opmlApplyJobId i), prog⟩

/-- The import whose apply job a confirmation adds next. -/
def OpmlProcess.confirming (p : OpmlProcess) : Option Nat :=
  if p.role = .request then nextApply p.prog else none

/-- A process of another kind adds no job. -/
theorem nextApply_of_quiet {prog : OpmlProgram Unit} (h : Prog.Issues OpmlCall.Quiet prog) :
    nextApply prog = none := by
  rw [nextApply.eq_def]
  split
  · exact (Prog.issues_call.mp h).1.elim
  · rename_i k
    have hk := (Prog.issues_call.mp h).2 (.ok (0 : Nat))
    split
    · rename_i heq
      rw [heq] at hk
      exact (Prog.issues_call.mp hk).1.elim
    · rfl
  · rfl

/-- A confirmation that is about to add a job has confirmed its import. -/
theorem Confirming.of_nextApply {w : OpmlWorld} {prog : OpmlProgram Unit} {i : Nat}
    (h : Confirming w prog) (hi : nextApply prog = some i) :
    ∃ id, prog = ConfirmOpmlImport.clockRest i id ∨
      ∃ now, prog = ConfirmOpmlImport.addRest i id now := by
  cases h with
  | read => cases hi
  | write => cases hi
  | clock importId id =>
    obtain rfl : importId = i := Option.some.inj hi
    exact ⟨id, .inl rfl⟩
  | add importId id now =>
    obtain rfl : importId = i := Option.some.inj hi
    exact ⟨id, .inr ⟨now, rfl⟩⟩
  | returned => cases hi
  | failed e => cases hi

namespace OpmlProcess

variable {w w' : OpmlWorld} {pid : Nat} {p : OpmlProcess}

/-- The processes that a step does not concern. -/
theorem Behaves.congr (h : p.Behaves w pid) (hrecorded : ∀ i, w.Recorded i → w'.Recorded i)
    (htxn : w'.opmlTxn pid = w.opmlTxn pid)
    (hheld : ∀ i, w'.applyQueue.HeldBy (opmlApplyJobId i) pid →
      w.applyQueue.HeldBy (opmlApplyJobId i) pid ∧ (w.Ended i → w'.Ended i)) :
    p.Behaves w' pid := by
  cases h with
  | quiet role prog hrole h => exact .quiet role prog hrole h
  | confirm prog h => exact .confirm prog (h.mono hrecorded)
  | apply i prog x hobeys hsound =>
    refine .apply i prog x hobeys ⟨hrecorded i hsound.recorded, hsound.finals.congr htxn,
      fun hx => (hsound.staged hx).congr htxn, fun hx hheld' => ?_⟩
    obtain ⟨hheld, hstays⟩ := hheld i hheld'
    exact hstays (hsound.settled hx hheld)

/-- **A call is answered.** -/
theorem Behaves.answer {role : OpmlRole} {c : OpmlCall}
    {k : Except String c.Reply → OpmlProgram Unit} {out : Outcome} {r : Except String c.Reply}
    (h : Behaves w pid ⟨role, .call c k⟩) (ha : c.answer pid w out = some (r, w')) :
    Behaves w' pid ⟨role, k r⟩ := by
  generalize hprog : Prog.call c k = prog at h
  cases h with
  | quiet role prog hrole h =>
    subst hprog
    exact .quiet role _ hrole ((Prog.issues_call.mp h).2 r)
  | confirm prog h =>
    subst hprog
    refine .confirm _ ?_
    cases h.call with
    | read importId tenantId k herror hok =>
      rcases r with e | row
      · rw [herror]
        exact .failed e
      · rcases hok row with ⟨e, h⟩ | h | h
        · rw [h]
          exact .failed e
        · rw [h]
          exact .returned
        · rw [h]
          exact .write importId
    | write importId k herror hnone hok =>
      rcases r with e | _ | row
      · rw [herror]
        exact .failed e
      · obtain ⟨e, h⟩ := hnone
        rw [h]
        exact .failed e
      · rw [hok]
        refine .clock importId row.id ⟨.importing, ?_⟩
        cases OpmlCall.answer_cases ha with
        | ok c ch r v hs => exact OpmlWorld.statusOf_markImportStatus hs
    | clock importId id hconfirmed k herror hok =>
      rcases r with e | now
      · rw [herror]
        exact .failed e
      · rw [hok]
        exact .add importId id now (hconfirmed.answer ha)
    | add importId now h k herror hok =>
      rcases r with e | ⟨⟩
      · rw [herror]
        exact .failed e
      · rw [hok]
        exact .returned
  | apply i prog x hobeys hsound =>
    subst hprog
    obtain ⟨hlawful, hnext⟩ := hobeys
    exact .apply i _ (x.after i c r) (hnext r _ rfl) (hsound.answer hlawful ha)

/-- No process stages `importing`. -/
theorem Behaves.client {role : OpmlRole} {s : OpmlStatement}
    {k : Except String s.Reply → OpmlProgram Unit}
    (h : Behaves w pid ⟨role, .call (.statement .client s) k⟩) :
    ∀ u, s.update? = some u → u.status ≠ .importing := by
  generalize hprog : (Prog.call (OpmlCall.statement .client s) k : OpmlProgram Unit) = prog at h
  cases h with
  | quiet role prog hrole h =>
    subst hprog
    exact (Prog.issues_call.mp h).1
  | confirm prog h =>
    subst hprog
    cases h.call
  | apply i prog x hobeys hsound =>
    subst hprog
    intro u hu himporting
    have hfinal := (hobeys.1 u hu).2
    rw [himporting] at hfinal
    cases hfinal

/-- **A job is added by a confirmation**, of an import that has been confirmed. -/
theorem Behaves.addApplyJob {role : OpmlRole} {jobId : String} {data : OpmlApplyImportJobData}
    {k : Except String Unit → OpmlProgram Unit}
    (h : Behaves w pid ⟨role, .call (.addApplyJob jobId data) k⟩) :
    jobId = opmlApplyJobId data.importId ∧ w.Recorded data.importId := by
  generalize hprog : (Prog.call (OpmlCall.addApplyJob jobId data) k : OpmlProgram Unit) = prog at h
  cases h with
  | quiet role prog hrole h =>
    subst hprog
    exact (Prog.issues_call.mp h).1.elim
  | confirm prog h =>
    subst hprog
    cases h.call with
    | add importId now hconfirmed k herror hok => exact ⟨rfl, hconfirmed⟩
  | apply i prog x hobeys hsound =>
    subst hprog
    exact hobeys.1.elim

end OpmlProcess

end Feedpulse
