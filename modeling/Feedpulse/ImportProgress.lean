import Feedpulse.ImportProcesses

/-!
# Progress of a confirmed import

A confirmation writes the status first and adds the apply job after that, and a second
confirmation is answered by the status alone. Whatever comes between the two leaves an import
in `importing` that nobody will apply. `confirmed_progresses` says when this does not
happen: unless the job is live anyway, the status write of a confirmation is answered, its job
is added, and it does not die on the way there; nobody disturbs the end of an import while its
job is withheld; and no apply job is given up before the end of its import.
-/

namespace Feedpulse

open Prog (Issues issues_invoke issues_pure issues_throw' exec exec_invoke exec_bind_ok)

/-! ## Careful steps -/

namespace OpmlProcess

/-- The next call of a process brings no import to `importing` without a live apply job, but for
a confirmation whose reply arrives; and a job that is to be added is added. -/
def keeps (q : OpmlApplyQueue) (out : Outcome) (p : OpmlProcess) : Bool :=
  match p.prog with
  | .call (.statement .pool (.markImportStatus u)) _ =>
    u.status ≠ .importing || !out.takesEffect || q.HasLive (opmlApplyJobId u.importId) ||
      (p.role = .request && out.arrives)
  | .call (.addApplyJob jobId _) _ => out.takesEffect || q.HasLive jobId
  | _ => true

/-- The apply job of a worker that has ended with an error. -/
def failedJob (p : OpmlProcess) : Option String :=
  match p.role, p.prog with
  | .applyWorker jobId, .throw _ => some jobId
  | _, _ => none

end OpmlProcess

instance (w : OpmlWorld) (i : Nat) : Decidable (w.Ended i) :=
  inferInstanceAs (Decidable (∃ st ∈ w.statusOf i, st.final = true))

namespace OpmlSystem

variable {d : OpmlDeployment} {s s' : OpmlSystem} {a : OpmlAction} {i : Nat}

/-- A process writes no other status over a final one while the apply job has failed or another
worker holds it. -/
def LeavesEnds (s : OpmlSystem) (pid : Nat) (out : Outcome) : Prop :=
  ∀ row ∈ s.world.imports, s.world.Ended row.id →
    s.world.applyQueue.Withheld (opmlApplyJobId row.id) pid →
      ∀ st ∈ s.statusWrites (.advance pid out) row.id, st.final = true

instance (pid : Nat) (out : Outcome) : Decidable (s.LeavesEnds pid out) :=
  inferInstanceAs (Decidable (∀ row ∈ s.world.imports, _))

/-- The import of an apply job has a final status. -/
def JobEnded (s : OpmlSystem) (jobId : String) : Prop :=
  ∀ j ∈ s.world.applyQueue.getJob jobId, s.world.Ended j.data.importId

instance (jobId : String) : Decidable (s.JobEnded jobId) :=
  inferInstanceAs (Decidable (∀ j ∈ s.world.applyQueue.getJob jobId, _))

/-- **A step that loses no import.** -/
def Careful (s : OpmlSystem) : OpmlAction → Prop
  | .advance pid out =>
    (∀ p ∈ s.procs pid, p.keeps s.world.applyQueue out = true) ∧ s.LeavesEnds pid out
  | .crash pid => ∀ p ∈ s.procs pid, ∀ i ∈ p.confirming,
    s.world.applyQueue.HasLive (opmlApplyJobId i)
  | .finish pid => ∀ p ∈ s.procs pid, ∀ jobId ∈ p.failedJob,
    s.world.applyQueue.LastAttempt jobId pid → s.JobEnded jobId
  | .stallApply jobId => s.world.applyQueue.LastStall jobId → s.JobEnded jobId
  | _ => True

instance (s : OpmlSystem) : (a : OpmlAction) → Decidable (s.Careful a)
  | .advance _ _ => inferInstanceAs (Decidable (_ ∧ _))
  | .crash pid => inferInstanceAs (Decidable (∀ p ∈ s.procs pid, _))
  | .finish pid => inferInstanceAs (Decidable (∀ p ∈ s.procs pid, _))
  | .stallApply jobId => inferInstanceAs (Decidable (s.world.applyQueue.LastStall jobId → _))
  | .core _ | .request .. | .takeParse .. | .takeApply .. | .promoteParse _ | .promoteApply _
  | .stallParse _ => inferInstanceAs (Decidable True)

end OpmlSystem

/-! ## The processes that start -/

/-- Calls that write no status of an import. -/
theorem OpmlCall.quiet_of_update? {ex : Executor} {s : OpmlStatement} (h : s.update? = none) :
    OpmlCall.Quiet (.statement ex s) := by
  intro u hu
  rw [h] at hu
  cases hu

theorem OpmlCall.quiet_of_itemWork {c : OpmlCall} (h : c.ItemWork) : c.Quiet := by
  cases c with
  | statement ex s =>
    cases ex with
    | pool => exact h.elim
    | client => exact quiet_of_update? h
  | core c => trivial
  | _ => exact h.elim

section Quiet

open OpmlImportsRepository

variable {cfg : OpmlConfig} {rt : OpmlRuntime}

theorem markImportStatus_quiet {u : OpmlStatusUpdate} {ex : Executor}
    (hu : u.status ≠ .importing) : Issues OpmlCall.Quiet (markImportStatus u ex) := by
  refine Issues.bind (issues_invoke (c := OpmlCall.statement ex _) ?_) fun row => ?_
  · intro u' hu'
    obtain rfl := Option.some.inj hu'
    exact hu
  · cases row with
    | none => exact issues_throw' _
    | some row => exact issues_pure _

theorem CreateOpmlImport.execute_quiet (input : CreateOpmlImportInput) :
    Issues OpmlCall.Quiet (execute cfg rt input) := by
  unfold execute
  split
  · exact issues_throw' _
  · exact Issues.bind (issues_invoke (OpmlCall.quiet_of_update? rfl)) fun created =>
      Issues.bind (issues_invoke (c := OpmlCall.addParseJob _ _) trivial) fun _ => issues_pure _

theorem RegisterFeed.execute_quiet (input : RegisterFeedInput) :
    Issues OpmlCall.Quiet (execute cfg rt input) := by
  refine Issues.ite (fun _ => ?_) fun _ => issues_throw' _
  refine Issues.bind (Issues.ite (fun _ => issues_pure _) fun _ => ?_) fun _ => ?_
  · exact Issues.bind (issues_invoke (OpmlCall.quiet_of_update? rfl)) fun total =>
      Issues.ite (fun _ => issues_pure _) fun _ => issues_throw' _
  · exact Issues.tryCatch (issues_invoke (OpmlCall.quiet_of_update? rfl)) fun _ => issues_throw' _

/-- The parse job writes statuses, but not `importing`. -/
theorem ProcessOpmlParseJob.execute_quiet (job : OpmlParsePreviewJobData) :
    Issues OpmlCall.Quiet (execute cfg rt job) := by
  have hitems : ∀ {α : Type} {p : OpmlProgram α}, Issues OpmlCall.ItemWork p →
      Issues OpmlCall.Quiet p := fun h => h.mono fun _ => OpmlCall.quiet_of_itemWork
  have htransaction : ∀ tenantId, Issues OpmlCall.Quiet (transaction cfg rt tenantId job) := by
    intro tenantId
    refine Issues.bind (issues_invoke (c := OpmlCall.begin) trivial) fun _ => ?_
    refine Issues.bind (markImportStatus_quiet (by simp)) fun _ => ?_
    split
    · exact issues_throw' _
    · refine Issues.bind (hitems (findExistingFeedsByHash_issues _ _)) fun existing => ?_
      split
      · exact issues_throw' _
      · exact Issues.bind (hitems (replaceImportItems_issues _ _)) fun _ =>
          Issues.bind (markImportStatus_quiet (by simp)) fun _ =>
            issues_invoke (c := OpmlCall.commit) trivial
  have hrun : ∀ tenantId, Issues OpmlCall.Quiet (run cfg rt tenantId job) := by
    intro tenantId
    refine Issues.bind (issues_invoke (c := OpmlCall.connect) trivial) fun _ => issues_finallyDo
      (Issues.tryCatch (htransaction tenantId) fun message => ?_)
      (issues_invoke (c := OpmlCall.release) trivial)
    exact Issues.bind (issues_invoke (c := OpmlCall.rollback) trivial) fun _ =>
      Issues.bind (markImportStatus_quiet (by simp)) fun _ => issues_pure _
  refine Issues.bind (Issues.bind (issues_invoke (OpmlCall.quiet_of_update? rfl)) fun row => ?_)
    fun current => ?_
  · cases row with
    | none => exact issues_throw' _
    | some row => exact issues_pure _
  · refine Issues.bind (getImportTenantId_issues (OpmlCall.quiet_of_update? rfl))
      fun tenantId => ?_
    refine Issues.ite (fun _ => issues_pure _) fun _ => ?_
    exact Issues.ite (fun _ => hrun tenantId) fun _ => issues_throw' _

end Quiet

/-! ## What an answer does to the apply jobs and to `importing` -/

namespace OpmlWorld

variable {w w' : OpmlWorld} {pid i : Nat} {c : OpmlCall} {out : Outcome}
  {r : Except String c.Reply}

/-- An answer leaves the apply jobs as they are, or adds one. -/
theorem applyQueue_answer_cases (ha : c.answer pid w out = some (r, w')) :
    w'.applyQueue = w.applyQueue ∨ ∃ jobId data, c = .addApplyJob jobId data ∧
      w'.applyQueue = w.applyQueue.add jobId data := by
  by_cases hc : ∃ jobId data, c = .addApplyJob jobId data
  · obtain ⟨jobId, data, rfl⟩ := hc
    have hserve : ∀ v r', (OpmlCall.addApplyJob jobId data).serve pid w = some (r', v) →
        v.applyQueue = w.applyQueue.add jobId data := by
      intro v r' hs
      obtain ⟨-, rfl⟩ := Prod.mk.inj (Option.some.inj hs)
      rfl
    cases OpmlCall.answer_cases ha with
    | ok c ch r v hs => exact .inr ⟨jobId, data, rfl, hserve _ _ hs⟩
    | refused c error => exact .inl rfl
    | lost c ch error r v _ hs => exact .inr ⟨jobId, data, rfl, hserve _ _ hs⟩
  · push Not at hc
    exact .inl (applyQueue_answer ha hc)

/-- A job that is added takes effect. -/
theorem applyQueue_addApplyJob {jobId : String} {data : OpmlApplyImportJobData}
    {r : Except String Unit} (hout : out.takesEffect = true)
    (ha : (OpmlCall.addApplyJob jobId data).answer pid w out = some (r, w')) :
    w'.applyQueue = w.applyQueue.add jobId data := by
  cases OpmlCall.answer_cases ha with
  | ok c ch r v hs =>
    obtain ⟨-, rfl⟩ := Prod.mk.inj (Option.some.inj hs)
    rfl
  | refused c error => cases hout
  | lost c ch error r v _ hs =>
    obtain ⟨-, rfl⟩ := Prod.mk.inj (Option.some.inj hs)
    rfl

theorem hasLive_answer {id : String} (h : w.applyQueue.HasLive id)
    (ha : c.answer pid w out = some (r, w')) : w'.applyQueue.HasLive id := by
  rcases applyQueue_answer_cases ha with hq | ⟨jobId, data, -, hq⟩
  · rwa [hq]
  · rw [hq]
    exact h.add

theorem hasFailed_of_answer {id : String} (ha : c.answer pid w out = some (r, w'))
    (h : w'.applyQueue.HasFailed id) : w.applyQueue.HasFailed id := by
  rcases applyQueue_answer_cases ha with hq | ⟨jobId, data, -, hq⟩
  · rwa [hq] at h
  · rw [hq] at h
    exact h.of_add

theorem heldBy_of_answer {id : String} {t : Nat} (ha : c.answer pid w out = some (r, w'))
    (h : w'.applyQueue.HeldBy id t) : w.applyQueue.HeldBy id t := by
  rcases applyQueue_answer_cases ha with hq | ⟨jobId, data, -, hq⟩
  · rwa [hq] at h
  · rw [hq] at h
    exact h.of_add

/-- **Only a status write on the pool brings an import to `importing`.** -/
theorem importing_of_answer (ha : c.answer pid w out = some (r, w'))
    (hmild : w.TxnAll pid OpmlWrite.Mild) (hi : w'.statusOf i = some .importing) :
    w.statusOf i = some .importing ∨ out.takesEffect = true ∧
      ∃ u, c = .statement .pool (.markImportStatus u) ∧ u.importId = i ∧ u.status = .importing := by
  cases OpmlCall.answer_cases ha with
  | core c out r v h => exact .inl hi
  | ok c ch r v hs =>
    exact ((OpmlCall.serve_effect hs).importing hmild hi).imp_right fun h => ⟨rfl, h⟩
  | refused c error => exact .inl ((c.statusOf_afterError ..).symm.trans hi)
  | lost c ch error r v _ hs =>
    have hv := (c.statusOf_afterError ..).symm.trans hi
    exact ((OpmlCall.serve_effect hs).importing hmild hv).imp_right fun h => ⟨rfl, h⟩

/-- A status write that leaves its import with a status has found its row. -/
theorem reply_markImportStatus {u : OpmlStatusUpdate} {r : Except String (Option OpmlImportRow)}
    (hs : w.onPool (.markImportStatus u) = some (r, w')) (hi : w'.Recorded u.importId) :
    ∃ row, r = .ok (some row) := by
  obtain ⟨hr, ⟨hnone, -⟩ | ⟨x, hx, rfl⟩⟩ := onPool_eq_some hs
  · cases hnone
  · obtain rfl := Option.some.inj hx
    rcases hrow : Table.lookup OpmlImportRow.id u.importId w.tables.imports with _ | row
    · obtain ⟨st, hst⟩ := hi
      obtain ⟨found, hfound, -⟩ := Option.map_eq_some_iff.mp hst
      change Table.lookup OpmlImportRow.id u.importId
        (Table.updateWhere _ _ w.tables.imports) = some found at hfound
      rw [Table.lookup_updateWhere fun r => (rfl : (u.apply w.core.now r).id = r.id), hrow]
        at hfound
      cases hfound
    · refine ⟨u.apply w.core.now row, hr.trans ?_⟩
      simp only [OpmlStatement.eval, hrow, Option.map_some]

end OpmlWorld

/-! ## The invariant -/

namespace OpmlSystem

variable {d : OpmlDeployment} {s s' : OpmlSystem} {a : OpmlAction} {i : Nat}

/-- An import in `importing` has an apply job that will run, or a confirmation of it is about to
add one. -/
def Served (s : OpmlSystem) (i : Nat) : Prop :=
  s.world.statusOf i = some .importing → s.world.applyQueue.HasLive (opmlApplyJobId i) ∨
    ∃ pid p, s.procs pid = some p ∧ p.confirming = some i

/-- What a careful run keeps. -/
structure Progressing (s : OpmlSystem) : Prop where
  /-- an apply job has the id of its import, which has a row -/
  named : ∀ j ∈ s.world.applyQueue.jobs,
    j.id = opmlApplyJobId j.data.importId ∧ s.world.Recorded j.data.importId
  /-- the imports of failed jobs have a final status -/
  failed : ∀ i, s.world.applyQueue.HasFailed (opmlApplyJobId i) → s.world.Ended i
  /-- the processes behave -/
  procs : ∀ pid p, s.procs pid = some p → p.Behaves s.world pid
  /-- no transaction will bring an import to `importing` -/
  mild : ∀ pid, s.world.TxnAll pid OpmlWrite.Mild
  /-- only processes have transactions -/
  txns : ∀ pid, s.procs pid = none → s.world.opmlTxn pid = none
  /-- every import in `importing` is served -/
  served : ∀ i, s.Served i

/-- The end of an import whose apply job is withheld from the process is left alone. -/
theorem LeavesEnds.ended {pid : Nat} {out : Outcome} (hends : s.LeavesEnds pid out)
    (h : step d s (.advance pid out) = some s') (hend : s.world.Ended i)
    (hwithheld : s.world.applyQueue.Withheld (opmlApplyJobId i) pid) : s'.world.Ended i := by
  refine ended_step h hend ?_
  have ⟨st, hst, _⟩ := hend
  obtain ⟨row, hrow, -⟩ := Option.map_eq_some_iff.mp hst
  have hid : row.id = i := Table.key_of_lookup hrow
  subst hid
  exact hends row (Table.mem_of_lookup hrow) hend hwithheld

/-- A confirmation whose status write arrives is about to add the job. -/
theorem confirming_of_write {w : OpmlWorld} {pid : Nat} {u : OpmlStatusUpdate}
    {k : Except String (Option OpmlImportRow) → OpmlProgram Unit} {row : OpmlImportRow}
    (h : OpmlProcess.Behaves w pid ⟨.request, .call (.statement .pool (.markImportStatus u)) k⟩)
    (hu : u.status = .importing) :
    OpmlProcess.confirming ⟨.request, k (.ok (some row))⟩ = some u.importId := by
  generalize hprog : (Prog.call (OpmlCall.statement .pool (.markImportStatus u)) k :
    OpmlProgram Unit) = prog at h
  cases h with
  | quiet role prog hrole h =>
    subst hprog
    exact absurd hu ((Prog.issues_call.mp h).1 u rfl)
  | confirm prog h =>
    subst hprog
    cases h.call with
    | write importId k herror hnone hok =>
      rw [hok]
      rfl

/-- **The next call of a confirmation that is about to add the job.** -/
theorem confirming_answer {w w' : OpmlWorld} {pid : Nat} {role : OpmlRole} {c : OpmlCall}
    {k : Except String c.Reply → OpmlProgram Unit} {out : Outcome} {r : Except String c.Reply}
    (h : OpmlProcess.Behaves w pid ⟨role, .call c k⟩)
    (hi : OpmlProcess.confirming ⟨role, .call c k⟩ = some i)
    (hkeeps : OpmlProcess.keeps w.applyQueue out ⟨role, .call c k⟩ = true)
    (hfailed : ¬w.applyQueue.HasFailed (opmlApplyJobId i))
    (ha : c.answer pid w out = some (r, w')) :
    OpmlProcess.confirming ⟨role, k r⟩ = some i ∨ w'.applyQueue.HasLive (opmlApplyJobId i) := by
  obtain ⟨hrole, hnext⟩ := Option.ite_none_right_eq_some.mp hi
  change role = .request at hrole
  change nextApply (.call c k) = some i at hnext
  subst hrole
  generalize hprog : Prog.call c k = prog at h
  cases h with
  | quiet role prog hrole h =>
    subst hprog
    rw [nextApply_of_quiet h] at hnext
    cases hnext
  | confirm prog h =>
    subst hprog
    cases h.call with
    | read => cases hnext
    | write => cases hnext
    | clock importId id hrecorded k herror hok =>
      have himport : nextApply (.call (.core .clock) k) = some importId := by
        simp only [nextApply, hok]
        rfl
      obtain rfl := Option.some.inj (himport.symm.trans hnext)
      -- the clock cannot fail
      obtain ⟨⟨r', v⟩, hs, he⟩ := Option.map_eq_some_iff.mp ha
      obtain ⟨rfl, -⟩ := Prod.mk.inj he
      rcases Call.answer_eq_some hs with ⟨e, -, -, hinf⟩ | ⟨ch, now, -, rfl | ⟨e, -, hinf⟩⟩
      · cases hinf
      · rw [hok]
        exact .inl rfl
      · cases hinf
    | add importId now hrecorded k herror hok =>
      obtain rfl : importId = i := Option.some.inj hnext
      refine .inr ?_
      rcases Bool.or_eq_true_iff.mp hkeeps with hout | hlive
      · rw [OpmlWorld.applyQueue_addApplyJob hout ha]
        exact (JobQueue.hasLive_add_iff rfl _ _ _).mpr hfailed
      · exact OpmlWorld.hasLive_answer (of_decide_eq_true hlive) ha

/-- **A call is answered.** -/
theorem progressing_advance {pid : Nat} {out : Outcome} (hs : s.Progressing)
    (h : step d s (.advance pid out) = some s') (hcareful : s.Careful (.advance pid out)) :
    s'.Progressing := by
  obtain ⟨hkeeps, hends⟩ := hcareful
  have hended : ∀ i, s.world.Ended i → s.world.applyQueue.Withheld (opmlApplyJobId i) pid →
      s'.world.Ended i := fun i => hends.ended h
  obtain ⟨role, c, k, r, w, hp, ha, rfl⟩ := advance_eq_some h
  have hbehaves := hs.procs pid _ hp
  have hkeep := hkeeps _ hp
  refine ⟨?_, ?_, ?_, ?_, ?_, ?_⟩
  · -- the jobs
    have hold : ∀ j ∈ s.world.applyQueue.jobs,
        j.id = opmlApplyJobId j.data.importId ∧ w.Recorded j.data.importId := fun j hj =>
      ⟨(hs.named j hj).1, (hs.named j hj).2.answer ha⟩
    rcases OpmlWorld.applyQueue_answer_cases ha with hq | ⟨jobId, data, rfl, hq⟩
    · exact hq ▸ hold
    · obtain ⟨hid, hrecorded⟩ := hbehaves.addApplyJob
      have hadd := JobQueue.forall_add (q := s.world.applyQueue)
        (fun id data => id = opmlApplyJobId data.importId ∧ w.Recorded data.importId) hold
        ⟨hid, hrecorded.answer ha⟩
      exact hq ▸ hadd
  -- the import of a failed job has ended
  · intro i hfailed
    have hfailed' := OpmlWorld.hasFailed_of_answer ha hfailed
    exact hended i (hs.failed i hfailed') (hfailed'.withheld pid)
  -- the processes: this one by its answer, the others as nothing of theirs changed
  · intro q p hq
    change Function.update s.procs pid _ q = some p at hq
    by_cases hqp : q = pid
    · subst hqp
      rw [Function.update_self] at hq
      obtain rfl := Option.some.inj hq
      exact hbehaves.answer ha
    · rw [Function.update_of_ne hqp] at hq
      refine (hs.procs q p hq).congr (fun i hi => hi.answer ha) (opmlTxn_answer_of_ne ha hqp) ?_
      intro i hheld
      have hheld' := OpmlWorld.heldBy_of_answer ha hheld
      exact ⟨hheld', fun hend => hended i hend (hheld'.withheld hqp)⟩
  · intro q
    by_cases hqp : q = pid
    · subst hqp
      refine (hs.mild q).answer ha ?_
      rintro st now ids t x rfl hx
      exact hx.mild hbehaves.client
    · exact (hs.mild q).congr (opmlTxn_answer_of_ne ha hqp)
  · intro q hq
    change Function.update s.procs pid _ q = none at hq
    by_cases hqp : q = pid
    · subst hqp
      rw [Function.update_self] at hq
      cases hq
    · rw [Function.update_of_ne hqp] at hq
      exact (opmlTxn_answer_of_ne ha hqp).trans (hs.txns q hq)
  -- the imports that are under way have a live job, or a confirmation on its way to one
  · intro i hi
    rcases OpmlWorld.importing_of_answer ha (hs.mild pid) hi with
      hold | ⟨hout, u, rfl, rfl, hu⟩
    · rcases hs.served i hold with hlive | ⟨q, p, hq, hconfirming⟩
      · exact .inl (OpmlWorld.hasLive_answer hlive ha)
      · by_cases hqp : q = pid
        · subst hqp
          obtain rfl := Option.some.inj (hp.symm.trans hq)
          have hfailed : ¬s.world.applyQueue.HasFailed (opmlApplyJobId i) := fun hf =>
            (hs.failed i hf).not_importing hold
          rcases confirming_answer hbehaves hconfirming hkeep hfailed ha with hnext | hlive
          · exact .inr ⟨q, _, Function.update_self .., hnext⟩
          · exact .inl hlive
        · exact .inr ⟨q, p, (Function.update_of_ne hqp ..).trans hq, hconfirming⟩
    · -- the status has just been written
      have hcases : s.world.applyQueue.HasLive (opmlApplyJobId u.importId) ∨
          (role = .request ∧ out.arrives = true) := by
        simpa [OpmlProcess.keeps, hu, hout] using hkeep
      rcases hcases with hlive | ⟨rfl, harrives⟩
      · exact .inl (OpmlWorld.hasLive_answer hlive ha)
      · cases OpmlCall.answer_cases ha with
        | ok c ch r v hserve =>
          obtain ⟨row, rfl⟩ := OpmlWorld.reply_markImportStatus hserve ⟨_, hi⟩
          exact .inr ⟨pid, _, Function.update_self .., confirming_of_write hbehaves hu⟩
        | refused c error => cases harrives
        | lost c ch error r v hinf hserve => cases harrives

/-! ### Steps without an answer -/

/-- What a step without an answer does to the imports and the apply jobs. -/
structure JobStep (w w' : OpmlWorld) : Prop where
  /-- the imports stay as they are -/
  imports : w'.imports = w.imports
  /-- there are no new jobs -/
  stems : w.applyQueue.Stems w'.applyQueue
  /-- a job that fails is one of an import with a final status -/
  failed : ∀ i, w'.applyQueue.HasFailed (opmlApplyJobId i) →
    w.applyQueue.HasFailed (opmlApplyJobId i) ∨ w.Ended i
  /-- a live job of another import stays live -/
  live : ∀ i, ¬w.Ended i → w.applyQueue.HasLive (opmlApplyJobId i) →
    w'.applyQueue.HasLive (opmlApplyJobId i)

theorem jobStep_of_eq {w w' : OpmlWorld} (himports : w'.imports = w.imports)
    (hqueue : w'.applyQueue = w.applyQueue) : JobStep w w' where
  imports := himports
  stems := hqueue ▸ JobQueue.Stems.refl _
  failed _ h := .inl (hqueue ▸ h)
  live _ _ h := hqueue ▸ h

/-- What holds after a step without an answer, from what holds of the processes. -/
theorem Progressing.of_jobStep (hs : s.Progressing) (hw : JobStep s.world s'.world)
    (htxns : ∀ q, s'.world.opmlTxn q = s.world.opmlTxn q ∨ s'.world.opmlTxn q = none)
    (hfree : ∀ q, s'.procs q = none → s'.world.opmlTxn q = none)
    (hprocs : ∀ q p, s'.procs q = some p → p.Behaves s'.world q ∨ s.procs q = some p ∧
      s'.world.opmlTxn q = s.world.opmlTxn q ∧ ∀ i,
        s'.world.applyQueue.HeldBy (opmlApplyJobId i) q →
          s.world.applyQueue.HeldBy (opmlApplyJobId i) q)
    (hconfirming : ∀ q p i, s.procs q = some p → p.confirming = some i →
      s'.procs q = some p ∨ s'.world.applyQueue.HasLive (opmlApplyJobId i)) : s'.Progressing := by
  have hstatus : ∀ i, s'.world.statusOf i = s.world.statusOf i :=
    OpmlWorld.statusOf_congr hw.imports
  have hrecorded : ∀ i, s.world.Recorded i → s'.world.Recorded i := fun i ⟨st, hst⟩ =>
    ⟨st, (hstatus i).trans hst⟩
  have hended : ∀ i, s.world.Ended i → s'.world.Ended i := fun i ⟨st, hst, hfinal⟩ =>
    ⟨st, (hstatus i).trans hst, hfinal⟩
  refine ⟨?_, ?_, ?_, ?_, hfree, ?_⟩
  · exact hw.stems.forall (fun id data => id = opmlApplyJobId data.importId ∧
      s'.world.Recorded data.importId)
        fun j hj => ⟨(hs.named j hj).1, hrecorded _ (hs.named j hj).2⟩
  · intro i hfailed
    exact hended i ((hw.failed i hfailed).elim (hs.failed i) id)
  · intro q p hq
    rcases hprocs q p hq with hbehaves | ⟨hold, htxn, hheld⟩
    · exact hbehaves
    · exact (hs.procs q p hold).congr hrecorded htxn fun i hi => ⟨hheld i hi, hended i⟩
  · intro q
    rcases htxns q with htxn | htxn
    · exact (hs.mild q).congr htxn
    · exact OpmlWorld.txnAll_of_none htxn
  · intro i hi
    rw [hstatus] at hi
    rcases hs.served i hi with hlive | ⟨q, p, hq, hp⟩
    · exact .inl (hw.live i (fun hend => hend.not_importing hi) hlive)
    · rcases hconfirming q p i hq hp with hq' | hlive
      · exact .inr ⟨q, p, hq', hp⟩
      · exact .inl hlive

/-- A step that concerns no process. -/
theorem Progressing.same (hs : s.Progressing) (hw : JobStep s.world s'.world)
    (hprocs : s'.procs = s.procs) (htxns : ∀ q, s'.world.opmlTxn q = s.world.opmlTxn q)
    (hheld : ∀ q i, s'.world.applyQueue.HeldBy (opmlApplyJobId i) q →
      s.world.applyQueue.HeldBy (opmlApplyJobId i) q) : s'.Progressing := by
  refine hs.of_jobStep hw (fun q => .inl (htxns q)) (fun q hq => ?_) (fun q p hq => ?_)
    fun q p i hq _ => ?_
  · rw [hprocs] at hq
    exact (htxns q).trans (hs.txns q hq)
  · rw [hprocs] at hq
    exact .inr ⟨hq, htxns q, hheld q⟩
  · rw [hprocs]
    exact .inl hq

/-- The import of a job has the id the job is named by. -/
theorem Progressing.importId_eq (hs : s.Progressing) {j : Job String OpmlApplyImportJobData}
    (hj : s.world.applyQueue.getJob (opmlApplyJobId i) = some j) : j.data.importId = i := by
  obtain ⟨hmem, hid⟩ := JobQueue.getJob_eq_some.mp hj
  exact opmlApplyJobId_injective ((hs.named j hmem).1.symm.trans hid)

/-- The processes that start behave. -/
theorem Progressing.behaves_launch (hs : s.Progressing) {pid : Nat} {role : OpmlRole}
    {prog : OpmlProgram Unit} {w : OpmlWorld} (hl : Launch d s.world a pid role prog)
    (himports : w.imports = s.world.imports) (htxn : w.opmlTxn pid = none) :
    OpmlProcess.Behaves w pid ⟨role, prog⟩ := by
  have hquiet : ∀ {α : Type} {p : OpmlProgram α}, Issues OpmlCall.Quiet p →
      Issues OpmlCall.Quiet (ignore p) := fun hp => Issues.bind hp fun _ => issues_pure _
  cases hl with
  | request _ r =>
    cases r with
    | create input =>
      exact .quiet _ _ (by simp) (hquiet (CreateOpmlImport.execute_quiet input))
    | confirm importId tenantId => exact .confirm _ (.read importId tenantId)
    | register input =>
      exact .quiet _ _ (by simp) (hquiet (RegisterFeed.execute_quiet input))
  | parse _ jobId job hj =>
    exact .quiet _ _ (by simp) (ProcessOpmlParseJob.execute_quiet job.data)
  | apply _ jobId job hj =>
    obtain ⟨hmem, hid⟩ := JobQueue.getJob_eq_some.mp hj
    obtain ⟨hnamed, st, hst⟩ := hs.named job hmem
    obtain rfl := hid.symm.trans hnamed
    exact .apply job.data.importId _ { staged := false, settled := false }
      (Applier.execute_obeys job.data)
      ⟨⟨st, (OpmlWorld.statusOf_congr himports _).trans hst⟩, OpmlWorld.txnAll_of_none htxn,
        fun hx => (by cases hx), fun hx => (by cases hx)⟩

/-- A process starts. -/
theorem Progressing.launch (hs : s.Progressing) {pid : Nat} {role : OpmlRole}
    {prog : OpmlProgram Unit} {w : OpmlWorld} (hfree : s.procs pid = none)
    (hl : Launch d s.world a pid role prog) (hw : JobStep s.world w)
    (htxns : ∀ q, w.opmlTxn q = s.world.opmlTxn q)
    (hheld : ∀ q i, q ≠ pid → w.applyQueue.HeldBy (opmlApplyJobId i) q →
      s.world.applyQueue.HeldBy (opmlApplyJobId i) q) :
    ({ s with world := w }.setProc pid (some ⟨role, prog⟩)).Progressing := by
  refine hs.of_jobStep hw (fun q => .inl (htxns q)) (fun q hq => ?_) (fun q p hq => ?_)
    fun q p i hq _ => ?_
  · change Function.update s.procs pid _ q = none at hq
    by_cases hqp : q = pid
    · subst hqp
      rw [Function.update_self] at hq
      cases hq
    · rw [Function.update_of_ne hqp] at hq
      exact (htxns q).trans (hs.txns q hq)
  · change Function.update s.procs pid _ q = some p at hq
    by_cases hqp : q = pid
    · subst hqp
      rw [Function.update_self] at hq
      obtain rfl := Option.some.inj hq
      exact .inl (hs.behaves_launch hl hw.imports ((htxns q).trans (hs.txns q hfree)))
    · rw [Function.update_of_ne hqp] at hq
      exact .inr ⟨hq, htxns q, fun i => hheld q i hqp⟩
  · refine .inl ((Function.update_of_ne ?_ ..).trans hq)
    rintro rfl
    rw [hfree] at hq
    cases hq

/-- A process ends or dies. -/
theorem Progressing.leave (hs : s.Progressing) {pid : Nat} {w : OpmlWorld}
    (hw : JobStep s.world w) (htxns : ∀ q, w.opmlTxn q = s.world.opmlTxn q)
    (hheld : ∀ q i, w.applyQueue.HeldBy (opmlApplyJobId i) q →
      s.world.applyQueue.HeldBy (opmlApplyJobId i) q)
    (hconfirming : ∀ p i, s.procs pid = some p → p.confirming = some i →
      w.applyQueue.HasLive (opmlApplyJobId i)) : (s.leave pid w).Progressing := by
  have hdrop : ∀ q, q ≠ pid → (w.dropOpmlTxn pid).opmlTxn q = s.world.opmlTxn q := fun q hqp =>
    (OpmlWorld.opmlTxn_dropOpmlTxn_of_ne hqp).trans (htxns q)
  have hw' : JobStep s.world (s.leave pid w).world := ⟨hw.imports, hw.stems, hw.failed, hw.live⟩
  refine hs.of_jobStep hw' (fun q => ?_) (fun q hq => ?_) (fun q p hq => ?_) fun q p i hq hi => ?_
  · by_cases hqp : q = pid
    · subst hqp
      exact .inr OpmlWorld.opmlTxn_dropOpmlTxn
    · exact .inl (hdrop q hqp)
  · change Function.update s.procs pid none q = none at hq
    by_cases hqp : q = pid
    · subst hqp
      exact OpmlWorld.opmlTxn_dropOpmlTxn
    · rw [Function.update_of_ne hqp] at hq
      exact (hdrop q hqp).trans (hs.txns q hq)
  · change Function.update s.procs pid none q = some p at hq
    by_cases hqp : q = pid
    · subst hqp
      rw [Function.update_self] at hq
      cases hq
    · rw [Function.update_of_ne hqp] at hq
      exact .inr ⟨hq, hdrop q hqp, hheld q⟩
  · by_cases hqp : q = pid
    · subst hqp
      exact .inr (hconfirming p i hq hi)
    · exact .inl ((Function.update_of_ne hqp ..).trans hq)

/-- An apply job that is given up after the end of its import. -/
theorem Progressing.ended_of_jobEnded (hs : s.Progressing) {jobId : String}
    (hend : s.JobEnded jobId) (hid : opmlApplyJobId i = jobId)
    (hj : ∃ j, s.world.applyQueue.getJob jobId = some j) : s.world.Ended i := by
  subst hid
  obtain ⟨j, hj⟩ := hj
  exact hs.importId_eq hj ▸ hend j hj

/-- The worker of an apply job ends without an error. -/
theorem Progressing.jobStep_complete (hs : s.Progressing) {pid : Nat} {jobId : String}
    (hp : s.procs pid = some ⟨.applyWorker jobId, .ret ()⟩) :
    JobStep s.world (report s.world pid (.applyWorker jobId) true) where
  imports := rfl
  stems := JobQueue.stems_complete rfl _ _ _
  failed _ h := .inl (JobQueue.HasFailed.of_complete rfl h)
  live i hend hlive := by
    by_cases hid : opmlApplyJobId i = jobId
    · subst hid
      by_cases hheld : s.world.applyQueue.HeldBy (opmlApplyJobId i) pid
      · have hbehaves := hs.procs pid _ hp
        generalize hjob : opmlApplyJobId i = jobId at hbehaves
        cases hbehaves with
        | quiet role prog hrole h => exact absurd rfl (hrole jobId)
        | apply i' prog x hobeys hsound =>
          obtain rfl := opmlApplyJobId_injective hjob
          exact absurd (hsound.settled (hobeys () rfl) hheld) hend
      · change (s.world.applyQueue.complete (opmlApplyJobId i) pid).HasLive _
        rwa [JobQueue.complete_of_not_heldBy hheld]
    · exact hlive.complete rfl hid

/-- The worker of an apply job ends with an error. -/
theorem Progressing.jobStep_fail (hs : s.Progressing) {pid : Nat} {jobId : String}
    (hend : s.world.applyQueue.LastAttempt jobId pid → s.JobEnded jobId) :
    JobStep s.world (report s.world pid (.applyWorker jobId) false) := by
  have hlast : ∀ i, opmlApplyJobId i = jobId → s.world.applyQueue.LastAttempt jobId pid →
      s.world.Ended i := by
    rintro i hid ⟨hheld, j, hj, hattempts⟩
    exact hs.ended_of_jobEnded (hend ⟨hheld, j, hj, hattempts⟩) hid ⟨j, hj⟩
  refine ⟨rfl, JobQueue.stems_fail _ _ _, fun i h => ?_, fun i hi h => ?_⟩
  · exact (JobQueue.HasFailed.of_fail h).symm.imp_right fun ⟨hid, hattempt⟩ =>
      hlast i hid hattempt
  · exact h.fail fun hid hattempt => hi (hlast i hid hattempt)

/-- The lock on an apply job expires. -/
theorem Progressing.jobStep_stall (hs : s.Progressing) {jobId : String} {q : OpmlApplyQueue}
    (hq : s.world.applyQueue.stall jobId = some q)
    (hend : s.world.applyQueue.LastStall jobId → s.JobEnded jobId) :
    JobStep s.world { s.world with applyQueue := q } := by
  have hlast : ∀ i, opmlApplyJobId i = jobId → s.world.applyQueue.LastStall jobId →
      s.world.Ended i := by
    rintro i hid ⟨j, hj, hstalls⟩
    exact hs.ended_of_jobEnded (hend ⟨j, hj, hstalls⟩) hid ⟨j, hj⟩
  refine ⟨rfl, JobQueue.stems_stall hq, fun i h => ?_, fun i hi h => ?_⟩
  · exact (JobQueue.HasFailed.of_stall hq h).symm.imp_right fun ⟨hid, hstall⟩ =>
      hlast i hid hstall
  · exact h.stall hq fun hid hstall => hi (hlast i hid hstall)

/-- The report of a process that has ended. -/
theorem Progressing.jobStep_report (hs : s.Progressing) {pid : Nat} {role : OpmlRole}
    {prog : OpmlProgram Unit} {succeeded : Bool} (hp : s.procs pid = some ⟨role, prog⟩)
    (hret : succeeded = true → prog = .ret ()) (hthrow : succeeded = false → ∃ e, prog = .throw e)
    (hcareful : s.Careful (.finish pid)) :
    JobStep s.world (report s.world pid role succeeded) := by
  cases role with
  | request => exact jobStep_of_eq rfl rfl
  | parseWorker jobId => exact jobStep_of_eq rfl rfl
  | applyWorker jobId =>
    cases succeeded with
    | true =>
      obtain rfl := hret rfl
      exact hs.jobStep_complete hp
    | false =>
      obtain ⟨e, rfl⟩ := hthrow rfl
      exact hs.jobStep_fail (hcareful _ hp jobId rfl)

/-- Nobody gets hold of an apply job by a report. -/
theorem heldBy_report {w : OpmlWorld} {pid q : Nat} {role : OpmlRole} {succeeded : Bool}
    {id : String} (h : (report w pid role succeeded).applyQueue.HeldBy id q) :
    w.applyQueue.HeldBy id q := by
  cases role with
  | request => exact h
  | parseWorker jobId => exact h
  | applyWorker jobId =>
    cases succeeded with
    | true => exact JobQueue.HeldBy.of_complete rfl h
    | false => exact JobQueue.HeldBy.of_fail h

/-- A process that has ended is not about to add a job. -/
theorem confirming_of_ended {role : OpmlRole} {prog : OpmlProgram Unit} {succeeded : Bool}
    (hret : succeeded = true → prog = .ret ())
    (hthrow : succeeded = false → ∃ e, prog = .throw e) :
    OpmlProcess.confirming ⟨role, prog⟩ = none := by
  have hnext : nextApply prog = none := by
    cases succeeded with
    | true =>
      obtain rfl := hret rfl
      rfl
    | false =>
      obtain ⟨e, rfl⟩ := hthrow rfl
      rfl
  unfold OpmlProcess.confirming
  rw [hnext, ite_self]

/-- **A careful step keeps every import served.** -/
theorem progressing_step (hs : s.Progressing) (h : step d s a = some s') (hcareful : s.Careful a) :
    s'.Progressing := by
  cases a with
  | advance pid out => exact progressing_advance hs h hcareful
  | core a =>
    obtain ⟨t, -, rfl⟩ := core_eq_some h
    exact hs.same (jobStep_of_eq rfl rfl) rfl (fun _ => rfl) fun _ _ hheld => hheld
  | request pid r =>
    obtain ⟨hfree, rfl⟩ := start_eq_some h
    exact hs.launch hfree (.request pid r) (jobStep_of_eq rfl rfl) (fun _ => rfl)
      fun _ _ _ hheld => hheld
  | takeParse pid jobId =>
    obtain ⟨job, q, ht, hfree, rfl⟩ := takeParse_eq_some h
    exact hs.launch (w := { s.world with parseQueue := q }) hfree
      (.parse pid jobId job (JobQueue.take_eq_some ht).1) (jobStep_of_eq rfl rfl) (fun _ => rfl)
      fun _ _ _ hheld => hheld
  | takeApply pid jobId =>
    obtain ⟨job, q, ht, hfree, rfl⟩ := takeApply_eq_some h
    have hstep : JobStep s.world { s.world with applyQueue := q } :=
      ⟨rfl, JobQueue.stems_take ht, fun _ h => .inl (h.of_take ht), fun _ _ h => h.take ht⟩
    exact hs.launch (w := { s.world with applyQueue := q }) hfree
      (.apply pid jobId job (JobQueue.take_eq_some ht).1) hstep (fun _ => rfl)
      fun _ _ hq hheld => hheld.of_take ht hq
  | finish pid =>
    obtain ⟨role, prog, succeeded, hp, hret, hthrow, rfl⟩ := finish_eq_some h
    refine hs.leave (hs.jobStep_report hp hret hthrow hcareful)
      (fun q => by cases role <;> rfl) (fun _ _ => heldBy_report) fun p i hp' hi => ?_
    obtain rfl := Option.some.inj (hp.symm.trans hp')
    rw [confirming_of_ended hret hthrow] at hi
    cases hi
  | crash pid =>
    obtain ⟨p, hp, rfl⟩ := crash_eq_some h
    exact hs.leave (jobStep_of_eq rfl rfl) (fun _ => rfl) (fun _ _ hheld => hheld)
      fun p i hp hi => hcareful p hp i hi
  | promoteParse jobId =>
    obtain ⟨q, -, rfl⟩ := Option.map_eq_some_iff.mp h
    exact hs.same (jobStep_of_eq rfl rfl) rfl (fun _ => rfl) fun _ _ hheld => hheld
  | promoteApply jobId =>
    obtain ⟨q, hq, rfl⟩ := Option.map_eq_some_iff.mp h
    have hstep : JobStep s.world { s.world with applyQueue := q } :=
      ⟨rfl, JobQueue.stems_promote hq, fun _ h => .inl (h.of_promote hq), fun _ _ h => h.promote hq⟩
    exact hs.same hstep rfl (fun _ => rfl) fun _ _ hheld => hheld.of_promote hq
  | stallParse jobId =>
    obtain ⟨q, -, rfl⟩ := Option.map_eq_some_iff.mp h
    exact hs.same (jobStep_of_eq rfl rfl) rfl (fun _ => rfl) fun _ _ hheld => hheld
  | stallApply jobId =>
    obtain ⟨q, hq, rfl⟩ := Option.map_eq_some_iff.mp h
    exact hs.same (hs.jobStep_stall hq hcareful) rfl (fun _ => rfl)
      fun _ _ hheld => hheld.of_stall hq

/-- A system that has just been started. -/
theorem Init.progressing (h : s.Init) : s.Progressing where
  named := by
    rw [h.applyQueue]
    exact fun j hj => absurd hj List.not_mem_nil
  failed := by
    rw [h.applyQueue]
    rintro i ⟨j, hj, -⟩
    cases hj
  procs pid p hp := by
    rw [h.procs] at hp
    cases hp
  mild pid := OpmlWorld.txnAll_of_none (by simp [OpmlWorld.opmlTxn, h.txns, Table.lookup])
  txns pid _ := by simp [OpmlWorld.opmlTxn, h.txns, Table.lookup]
  served i hi := by
    have hnone : s.world.statusOf i = none := by
      simp [OpmlWorld.statusOf, OpmlTables.statusOf, OpmlWorld.tables, h.imports, Table.lookup]
    rw [hnone] at hi
    cases hi

/-! ## Confirming -/

/-- A confirmation of an import in `preview_ready` that does not have to wait leaves it with an
apply job that will run. -/
def Confirmable (s : OpmlSystem) (i : Nat) : Prop :=
  ∀ pid row, Table.lookup OpmlImportRow.id i s.world.imports = some row →
    row.status = .previewReady →
    s.world.blocked (s.world.opmlTxns.map Prod.snd) (.markImportStatus
      { importId := i, status := .importing, confirmed := true }) = false →
    ∃ w, exec (answered pid) (ConfirmOpmlImport.execute i row.tenantId) s.world
        = some (.ok (i, .queued), w) ∧
      w.statusOf i = some .importing ∧ w.applyQueue.HasLive (opmlApplyJobId i)

/-- **A confirmation that does not have to wait** writes the status, and adds the job unless the
queue has kept a failed one. -/
theorem exec_confirm {w : OpmlWorld} {row : OpmlImportRow} (pid : Nat)
    (hrow : Table.lookup OpmlImportRow.id i w.imports = some row)
    (hready : row.status = .previewReady)
    (hfree : w.blocked (w.opmlTxns.map Prod.snd) (.markImportStatus
      { importId := i, status := .importing, confirmed := true }) = false) :
    ∃ w' now, exec (answered pid) (ConfirmOpmlImport.execute i row.tenantId) w
        = some (.ok (i, .queued), w') ∧ w'.statusOf i = some .importing ∧
      w'.applyQueue
        = w.applyQueue.add (opmlApplyJobId i) { importId := i, requestedAt := now } := by
  have hid : row.id = i := Table.key_of_lookup hrow
  have hread : exec (answered pid)
      (OpmlImportsRepository.getImportOrThrow i (some row.tenantId)) w = some (.ok row, w) := by
    have hexec : exec (answered pid)
        (opmlStatement .pool (.findImportByIdForTenant i row.tenantId)) w
        = some (.ok (some row), w) := by
      have hfind : w.imports.find? (fun r => r.id = i && r.tenantId = row.tenantId)
          = some row := by
        obtain ⟨-, before, after, hsplit, hbefore⟩ := List.find?_eq_some_iff_append.mp hrow
        refine List.find?_eq_some_iff_append.mpr ⟨by simp [hid], before, after, hsplit, ?_⟩
        intro r hr
        have hne := hbefore r hr
        simp only [Bool.not_eq_eq_eq_not, Bool.not_true, decide_eq_false_iff_not] at hne
        simp [hne]
      have hpool : w.onPool (.findImportByIdForTenant i row.tenantId)
          = some (.ok (some row), w) := by
        simp only [OpmlWorld.onPool, OpmlStatement.eval, OpmlWorld.tables, hfind]
      exact exec_invoke hpool
    rw [OpmlImportsRepository.getImportOrThrow, OpmlImportsRepository.findImportById,
      exec_bind_ok hexec]
    rfl
  obtain ⟨u, hu⟩ : ∃ u : OpmlStatusUpdate,
      u = { importId := i, status := .importing, confirmed := true } := ⟨_, rfl⟩
  have himport : u.importId = i := by rw [hu]
  have hpool : w.onPool (.markImportStatus u) = some (.ok (some (u.apply w.core.now row)),
      w.setTables ((OpmlWrite.markImportStatus u).apply w.core.now w.tables)) := by
    have heval : (OpmlStatement.markImportStatus u).eval w.core.now w.sequences w.tables
        = (.ok (some (u.apply w.core.now row)), some (.markImportStatus u)) := by
      simp only [OpmlStatement.eval, OpmlWorld.tables, himport, hrow, Option.map_some]
    rw [← hu] at hfree
    simp only [OpmlWorld.onPool, heval, hfree, Bool.false_eq_true, if_false]
    rfl
  have hmark : exec (answered pid) (OpmlImportsRepository.markImportStatus u .pool) w
      = some (.ok (u.apply w.core.now row),
        w.setTables ((OpmlWrite.markImportStatus u).apply w.core.now w.tables)) := by
    have hexec : exec (answered pid) (opmlStatement .pool (.markImportStatus u)) w = _ :=
      exec_invoke hpool
    rw [OpmlImportsRepository.markImportStatus, exec_bind_ok hexec]
    rfl
  obtain ⟨v, hv⟩ : ∃ v, v = w.setTables
    ((OpmlWrite.markImportStatus u).apply w.core.now w.tables) := ⟨_, rfl⟩
  rw [← hv] at hmark hpool
  have hclock : exec (answered pid) (ofCore clock) v = some (.ok v.core.now, v) := rfl
  obtain ⟨q, hq⟩ : ∃ q, q = v.applyQueue.add (opmlApplyJobId i)
    { importId := i, requestedAt := v.core.now } := ⟨_, rfl⟩
  refine ⟨{ v with applyQueue := q }, v.core.now, ?_, ?_, ?_⟩
  · rw [ConfirmOpmlImport.execute, exec_bind_ok hread]
    simp only [hready, reduceCtorEq, decide_false, Bool.or_self, Bool.false_eq_true, if_false,
      ne_eq, not_true_eq_false]
    have hend : exec (answered pid) (do
        ConfirmOpmlImport.enqueueApply { importId := i, requestedAt := v.core.now }
        pure ((u.apply w.core.now row).id, ConfirmStatus.queued)) v
        = some (.ok (row.id, .queued), { v with
          applyQueue := v.applyQueue.add (opmlApplyJobId i)
            { importId := i, requestedAt := v.core.now } }) := rfl
    rw [← hu, exec_bind_ok hmark, exec_bind_ok hclock, hend, hid, hq]
  · have hstatus := OpmlWorld.statusOf_markImportStatus hpool
    rw [himport, hu] at hstatus
    exact hstatus
  · have hqueue : v.applyQueue = w.applyQueue := by
      subst hv
      rfl
    rw [hq, hqueue]

theorem Progressing.confirmable (hs : s.Progressing) (i : Nat) : s.Confirmable i := by
  intro pid row hrow hready hfree
  obtain ⟨w, now, hexec, hstatus, hqueue⟩ := exec_confirm pid hrow hready hfree
  refine ⟨w, hexec, hstatus, ?_⟩
  rw [hqueue]
  refine (JobQueue.hasLive_add_iff rfl _ _ _).mpr fun hfailed => ?_
  -- the imports of failed jobs have a final status
  obtain ⟨st, hst, hfinal⟩ := hs.failed i hfailed
  have hst' : s.world.statusOf i = some row.status := by
    rw [OpmlWorld.statusOf, OpmlTables.statusOf]
    exact congrArg (Option.map OpmlImportRow.status) hrow
  obtain rfl := Option.some.inj (hst.symm.trans hst')
  rw [hready] at hfinal
  cases hfinal

/-! ## Runs -/

/-- **A confirmed import can always make progress.** In every run of careful steps, an import in
`importing` has an apply job that will run, or a confirmation is about to add one; and a
confirmation of an import in `preview_ready` leaves it with such a job. -/
theorem confirmed_progresses {as : List OpmlAction} (hinit : s.Init)
    (h : Transition.Along (step d) (fun s a _ => s.Careful a) s as) :
    Transition.Always (step d) (fun s => ∀ i, s.Served i ∧ s.Confirmable i) s as := by
  have hinvariant : Transition.Always (step d) Progressing s as :=
    Transition.always_of_along (fun _ _ _ hs hstep hcareful => progressing_step hs hstep hcareful)
      hinit.progressing h
  exact hinvariant.mono fun s hs i => ⟨hs.served i, hs.confirmable i⟩

/-- An import that goes well. -/
theorem confirmed_progresses_twoFeeds :
    Transition.Always (step importDeployment) (fun s => ∀ i, s.Served i ∧ s.Confirmable i) noImports
      (upload 1 ++ parse 2 ++ confirm 3 ++ applyUntilCommit 4 ++ enqueueBoth 4) :=
  confirmed_progresses noImports_init (by decide +kernel)

/-- The tenant confirms the import, and the queue refuses the job. -/
def confirmRefused (pid : Nat) : List OpmlAction :=
  .request pid (.confirm 1 "t") :: proceed pid 3 ++
    [.advance pid (.refused "ECONNREFUSED"), .finish pid]

/-- The tenant confirms it again, and is told that it has been confirmed. -/
def confirmAgain (pid : Nat) : List OpmlAction :=
  .request pid (.confirm 1 "t") :: proceed pid 1 ++ [.finish pid]

/-- **An import that nobody will apply**: it is in `importing`, the queue has no job with its id,
the confirmations have ended, and another one adds no job either. -/
theorem confirmed_stuck :
    noImports.Init ∧ ∃ s, Transition.run (step importDeployment) noImports
        (upload 1 ++ parse 2 ++ confirmRefused 3 ++ confirmAgain 3) = some s ∧
      s.world.statusOf 1 = some .importing ∧
      s.world.applyQueue.getJob (opmlApplyJobId 1) = none ∧ s.procs 3 = none ∧
      ∃ w, exec (answered 3) (ConfirmOpmlImport.execute 1 "t") s.world
          = some (.ok (1, .alreadyConfirmed), w) ∧
        w.applyQueue.getJob (opmlApplyJobId 1) = none := by
  have hrun : ((Transition.run (step importDeployment) noImports
      (upload 1 ++ parse 2 ++ confirmRefused 3 ++ confirmAgain 3)).any fun s =>
        decide (s.world.statusOf 1 = some .importing) &&
          (s.world.applyQueue.getJob (opmlApplyJobId 1)).isNone && (s.procs 3).isNone &&
          (exec (answered 3) (ConfirmOpmlImport.execute 1 "t") s.world).any fun r =>
            r.1 = .ok (1, .alreadyConfirmed) &&
              (r.2.applyQueue.getJob (opmlApplyJobId 1)).isNone) = true := by
    decide +kernel
  obtain ⟨s, hs, h⟩ := (Option.any_eq_true _ _).mp hrun
  simp only [Bool.and_eq_true, decide_eq_true_eq, Option.isNone_iff_eq_none] at h
  obtain ⟨⟨⟨hstatus, hjob⟩, hproc⟩, hagain⟩ := h
  obtain ⟨⟨r, w⟩, hexec, hr⟩ := (Option.any_eq_true _ _).mp hagain
  simp only [Bool.and_eq_true, decide_eq_true_eq, Option.isNone_iff_eq_none] at hr
  obtain ⟨rfl, hnone⟩ := hr
  exact ⟨noImports_init, s, hs, hstatus, hjob, hproc, w, hexec, hnone⟩

end OpmlSystem

end Feedpulse
