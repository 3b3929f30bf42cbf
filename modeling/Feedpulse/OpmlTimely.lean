import Mathlib.Data.List.Chain
import Feedpulse.OpmlWriter

/-!
# Which runs keep to the status table

Between the check of a status and the write that follows, the status may have moved on, and
a job that has committed may still fail and write again. `history_follows_table` says that
nothing else breaks the table: in a run in which every status write finds the row as its
writer last saw it, or already with the status written, and in which no process writes a new
status once its own transaction has committed, every import goes through its statuses along
the table. `completed_left` is a run in which the queue refuses a fetch job after the apply
transaction has committed, and the completed import is marked failed.
-/

namespace Feedpulse

open Prog OpmlImportStatus

/-- The system, with the status each process has last seen. -/
structure Sighted where
  /-- the system -/
  sys : OpmlSystem
  /-- the import and the status each process has read, or written outside a transaction; none
  before it has read, and none once its own transaction has committed -/
  seen : Nat → Option (Nat × OpmlImportStatus)

namespace Sighted

variable {d : OpmlDeployment} {t t' : Sighted}

/-- What the processes have seen after a step. -/
def seenAfter (t : Sighted) : OpmlAction → Nat → Option (Nat × OpmlImportStatus)
  | .advance pid out =>
    match t.sys.procs pid with
    | some ⟨_, .call c _⟩ =>
      match c.answer pid t.sys.world out with
      | some (r, _) => Function.update t.seen pid (c.seenAfter out.takesEffect (t.seen pid) r)
      | none => t.seen
    | _ => t.seen
  | .request pid _ | .takeParse pid _ | .takeApply pid _ => Function.update t.seen pid none
  | _ => t.seen

/-- A step of the system, with what the processes have seen. -/
def step (d : OpmlDeployment) (t : Sighted) (a : OpmlAction) : Option Sighted :=
  (OpmlSystem.step d t.sys a).map fun s' => { sys := s', seen := t.seenAfter a }

/-- The status writes of a step are timely: each import they concern already has the first of
the statuses written, or still has the one that the writer has seen. -/
def Timely (t : Sighted) (a : OpmlAction) : Prop :=
  ∀ pid out, a = .advance pid out → ∀ i st next rest, t.sys.world.statusOf i = some st →
    t.sys.statusWrites a i = next :: rest → st = next ∨ t.seen pid = some (i, st)

/-- What `Timely` asks of the row of one import. -/
def timelyFor (t : Sighted) (pid : Nat) (a : OpmlAction) (i : Nat) : Bool :=
  match t.sys.world.statusOf i, t.sys.statusWrites a i with
  | some st, next :: _ => st = next || t.seen pid = some (i, st)
  | _, _ => true

/-- What `Timely` asks of the rows there are. -/
def timelyRows (t : Sighted) : OpmlAction → Bool
  | .advance pid out =>
    t.sys.world.imports.all fun r => t.timelyFor pid (.advance pid out) r.id
  | _ => true

/-- Whether a step is timely can be tested on the rows there are. -/
instance (t : Sighted) (a : OpmlAction) : Decidable (t.Timely a) :=
  decidable_of_iff (t.timelyRows a = true) <| by
    refine ⟨fun h pid out ha i st next rest hst hw => ?_, fun h => ?_⟩
    · subst ha
      obtain ⟨r, hr, -⟩ := Option.map_eq_some_iff.mp hst
      have hrow := List.all_eq_true.mp h r (Table.mem_of_lookup hr)
      have hid : r.id = i := Table.key_of_lookup hr
      rw [hid] at hrow
      simpa [timelyFor, hst, hw] using hrow
    · cases a with
      | advance pid out =>
        refine List.all_eq_true.mpr fun r _ => ?_
        unfold timelyFor
        rcases hst : t.sys.world.statusOf r.id with _ | st
        · rfl
        · rcases hw : t.sys.statusWrites (.advance pid out) r.id with _ | ⟨next, rest⟩
          · rfl
          · simpa using h pid out rfl r.id st next rest hst hw
      | _ => rfl

/-- The system has just been started, and nobody has seen anything. -/
def Init (t : Sighted) : Prop := t.sys.Init ∧ t.seen = fun _ => none

/-- Every process is a lawful writer of its import, and knows what it has staged. -/
structure Writers (t : Sighted) : Prop where
  /-- the processes -/
  procs : ∀ pid p, t.sys.procs pid = some p → ∃ i x, Writer.Obeys i p.prog (fun _ _ => True) x ∧
    x.seen = t.seen pid ∧ t.sys.world.Tracks pid i x.staged
  /-- only processes have transactions -/
  txns : ∀ pid, t.sys.procs pid = none → t.sys.world.opmlTxn pid = none

theorem step_eq_some {a : OpmlAction} (h : step d t a = some t') :
    OpmlSystem.step d t.sys a = some t'.sys ∧ t'.seen = t.seenAfter a := by
  obtain ⟨s', hs, rfl⟩ := Option.map_eq_some_iff.mp h
  exact ⟨hs, rfl⟩

theorem seenAfter_advance {pid : Nat} {out : Outcome} {role : OpmlRole} {c : OpmlCall}
    {k : Except String c.Reply → OpmlProgram Unit} {r : Except String c.Reply} {w : OpmlWorld}
    (hp : t.sys.procs pid = some ⟨role, .call c k⟩)
    (ha : c.answer pid t.sys.world out = some (r, w)) :
    t.seenAfter (.advance pid out)
      = Function.update t.seen pid (c.seenAfter out.takesEffect (t.seen pid) r) := by
  simp only [seenAfter, hp, ha]

/-- The processes that start are lawful writers. -/
theorem obeys_launch {w : OpmlWorld} {a : OpmlAction} {pid : Nat} {role : OpmlRole}
    {prog : OpmlProgram Unit} (h : OpmlSystem.Launch d w a pid role prog) (x : Writer) :
    ∃ i, Writer.Obeys i prog (fun _ _ => True) x := by
  have hignore : ∀ {α : Type} {p : OpmlProgram α} {i : Nat},
      Writer.Obeys i p (fun _ _ => True) x →
        Writer.Obeys i (OpmlSystem.ignore p) (fun _ _ => True) x :=
    fun hp => hp.bind (fun _ _ _ => trivial) fun _ _ _ => trivial
  cases h with
  | request _ r =>
    cases r with
    | create input =>
      exact ⟨0, hignore ((Writer.obeys_of_neutral
        (CreateOpmlImport.execute_neutral input)).mono fun _ _ _ => trivial)⟩
    | confirm importId tenantId =>
      exact ⟨importId, hignore (ConfirmOpmlImport.execute_obeys importId tenantId)⟩
    | register input =>
      exact ⟨0, hignore ((Writer.obeys_of_neutral
        (RegisterFeed.execute_neutral input)).mono fun _ _ _ => trivial)⟩
  | parse _ jobId job hj => exact ⟨_, ProcessOpmlParseJob.execute_obeys job.data⟩
  | apply _ jobId job hj => exact ⟨_, ProcessOpmlApplyJob.execute_obeys job.data⟩

/-- The processes that a step does not concern stay lawful writers. -/
theorem Writers.congr (pid : Nat) (hw : t.Writers)
    (hprocs : ∀ q, q ≠ pid → t'.sys.procs q = t.sys.procs q)
    (hseen : ∀ q, q ≠ pid → t'.seen q = t.seen q)
    (htxns : ∀ q, q ≠ pid → t'.sys.world.opmlTxn q = t.sys.world.opmlTxn q)
    (hpid : ∀ p, t'.sys.procs pid = some p → ∃ i x,
      Writer.Obeys i p.prog (fun _ _ => True) x ∧ x.seen = t'.seen pid ∧
        t'.sys.world.Tracks pid i x.staged)
    (hgone : t'.sys.procs pid = none → t'.sys.world.opmlTxn pid = none) : t'.Writers where
  procs := by
    intro q p hq
    by_cases hqp : q = pid
    · subst hqp
      exact hpid p hq
    · rw [hprocs q hqp] at hq
      obtain ⟨i, x, hobeys, hx, htracks⟩ := hw.procs q p hq
      exact ⟨i, x, hobeys, hx.trans (hseen q hqp).symm, htracks.congr (htxns q hqp)⟩
  txns := by
    intro q hq
    by_cases hqp : q = pid
    · subst hqp
      exact hgone hq
    · rw [htxns q hqp]
      rw [hprocs q hqp] at hq
      exact hw.txns q hq

/-- A step that concerns no process. -/
theorem Writers.same (hw : t.Writers) (hprocs : t'.sys.procs = t.sys.procs)
    (hseen : t'.seen = t.seen)
    (htxns : ∀ q, t'.sys.world.opmlTxn q = t.sys.world.opmlTxn q) : t'.Writers where
  procs := by
    intro q p hq
    rw [hprocs] at hq
    obtain ⟨i, x, hobeys, hx, htracks⟩ := hw.procs q p hq
    exact ⟨i, x, hobeys, hx.trans (congrFun hseen q).symm, htracks.congr (htxns q)⟩
  txns := by
    intro q hq
    rw [hprocs] at hq
    exact (htxns q).trans (hw.txns q hq)

/-- A process starts. -/
theorem Writers.launch {a : OpmlAction} {pid : Nat} {role : OpmlRole} {prog : OpmlProgram Unit}
    (hw : t.Writers) (hfree : t.sys.procs pid = none)
    (hl : OpmlSystem.Launch d t.sys.world a pid role prog)
    (hprocs : t'.sys.procs = Function.update t.sys.procs pid (some ⟨role, prog⟩))
    (hseen : t'.seen = Function.update t.seen pid none)
    (htxns : ∀ q, t'.sys.world.opmlTxn q = t.sys.world.opmlTxn q) : t'.Writers := by
  refine hw.congr pid (fun q hq => ?_) (fun q hq => ?_) (fun q _ => htxns q) ?_ ?_
  · rw [hprocs]
    exact Function.update_of_ne hq ..
  · rw [hseen]
    exact Function.update_of_ne hq ..
  · intro p hp
    rw [hprocs, Function.update_self] at hp
    obtain rfl := Option.some.inj hp
    obtain ⟨i, hobeys⟩ := obeys_launch hl { seen := none, staged := [] }
    refine ⟨i, _, hobeys, ?_, OpmlWorld.tracks_of_none ((htxns pid).trans (hw.txns pid hfree))⟩
    rw [hseen, Function.update_self]
  · intro hp
    rw [hprocs, Function.update_self] at hp
    cases hp

/-- A process ends or dies, and its transaction with it. -/
theorem Writers.leave {pid : Nat} {w : OpmlWorld} (hw : t.Writers)
    (hsys : t'.sys = t.sys.leave pid w) (hseen : t'.seen = t.seen)
    (htxns : ∀ q, w.opmlTxn q = t.sys.world.opmlTxn q) : t'.Writers := by
  have hprocs : t'.sys.procs = Function.update t.sys.procs pid none := by rw [hsys]; rfl
  have hworld : t'.sys.world = w.dropOpmlTxn pid := by rw [hsys]; rfl
  refine hw.congr pid (fun q hq => ?_) (fun q _ => congrFun hseen q) (fun q hq => ?_) ?_ ?_
  · rw [hprocs]
    exact Function.update_of_ne hq ..
  · rw [hworld, OpmlWorld.opmlTxn_dropOpmlTxn_of_ne hq]
    exact htxns q
  · intro p hp
    rw [hprocs, Function.update_self] at hp
    cases hp
  · intro _
    rw [hworld]
    exact OpmlWorld.opmlTxn_dropOpmlTxn

/-- **The processes stay lawful writers.** -/
theorem writers_step {a : OpmlAction} (h : step d t a = some t') (hw : t.Writers) :
    t'.Writers := by
  obtain ⟨hs, hseen⟩ := step_eq_some h
  cases a with
  | core a =>
    obtain ⟨u, -, hsys⟩ := OpmlSystem.core_eq_some hs
    exact hw.same (by rw [hsys]) hseen fun q => by rw [hsys]; rfl
  | request pid r =>
    obtain ⟨hfree, hsys⟩ := OpmlSystem.start_eq_some hs
    exact hw.launch hfree (.request pid r) (by rw [hsys]; rfl) hseen fun q => by rw [hsys]; rfl
  | takeParse pid jobId =>
    obtain ⟨job, q, ht, hfree, hsys⟩ := OpmlSystem.takeParse_eq_some hs
    exact hw.launch hfree (.parse pid jobId job (JobQueue.take_eq_some ht).1) (by rw [hsys]; rfl)
      hseen fun q => by rw [hsys]; rfl
  | takeApply pid jobId =>
    obtain ⟨job, q, ht, hfree, hsys⟩ := OpmlSystem.takeApply_eq_some hs
    exact hw.launch hfree (.apply pid jobId job (JobQueue.take_eq_some ht).1) (by rw [hsys]; rfl)
      hseen fun q => by rw [hsys]; rfl
  | advance pid out =>
    obtain ⟨role, c, k, r, w, hp, ha, hsys⟩ := OpmlSystem.advance_eq_some hs
    rw [seenAfter_advance hp ha] at hseen
    have hprocs : t'.sys.procs = Function.update t.sys.procs pid (some ⟨role, k r⟩) := by
      rw [hsys]
    have hworld : t'.sys.world = w := by rw [hsys]
    obtain ⟨i, x, ⟨hlawful, hnext⟩, hx, htracks⟩ := hw.procs pid _ hp
    obtain ⟨y, hy, hyseen, hytracks⟩ := OpmlCall.answered_of_answer hlawful ha htracks
    refine hw.congr pid (fun q hq => ?_) (fun q hq => ?_) (fun q hq => ?_) ?_ ?_
    · rw [hprocs]
      exact Function.update_of_ne hq ..
    · rw [hseen]
      exact Function.update_of_ne hq ..
    · rw [hworld]
      exact opmlTxn_answer_of_ne ha hq
    · intro p hq
      rw [hprocs, Function.update_self] at hq
      obtain rfl := Option.some.inj hq
      refine ⟨i, y, hnext r y hy, ?_, hworld ▸ hytracks⟩
      rw [hseen, Function.update_self, hyseen, hx]
    · intro hq
      rw [hprocs, Function.update_self] at hq
      cases hq
  | finish pid =>
    obtain ⟨role, prog, succeeded, -, -, -, hsys⟩ := OpmlSystem.finish_eq_some hs
    exact hw.leave hsys hseen fun q => by cases role <;> rfl
  | crash pid =>
    obtain ⟨p, -, hsys⟩ := OpmlSystem.crash_eq_some hs
    exact hw.leave hsys hseen fun q => rfl
  | _ =>
    obtain ⟨q, -, hsys⟩ := Option.map_eq_some_iff.mp hs
    exact hw.same (by rw [← hsys]) hseen fun q => by rw [← hsys]; rfl

theorem Init.writers (h : t.Init) : t.Writers where
  procs := by
    intro pid p hp
    rw [h.1.procs] at hp
    cases hp
  txns := by
    intro pid _
    simp [OpmlWorld.opmlTxn, h.1.txns, Table.lookup]

/-! ## The history of an import -/

/-- **A timely status write follows the table.** -/
theorem Writers.followsTable {a : OpmlAction} (h : step d t a = some t') (hw : t.Writers)
    (ht : t.Timely a) : t.sys.FollowsTable a := by
  obtain ⟨hs, -⟩ := step_eq_some h
  intro j st hst
  cases a with
  | advance pid out =>
    obtain ⟨role, c, k, r, w, hp, -, -⟩ := OpmlSystem.advance_eq_some hs
    obtain ⟨i, x, ⟨hlawful, -⟩, hx, htracks⟩ := hw.procs pid _ hp
    have htimely := ht pid out rfl j st
    rcases hwrites : t.sys.statusWrites (.advance pid out) j with _ | ⟨next, rest⟩
    · exact .singleton _
    have hseen := htimely next rest hst hwrites
    have heff : out.takesEffect = true ∧
        c.statusWrites pid t.sys.world j = next :: rest := by
      simp only [OpmlSystem.statusWrites, hp] at hwrites
      by_cases heff : out.takesEffect = true
      · rw [if_pos heff] at hwrites
        exact ⟨heff, hwrites⟩
      · rw [if_neg heff] at hwrites
        cases hwrites
    -- only two calls write statuses: an update on the pool, and a commit
    cases c with
    | statement ex s =>
      cases ex with
      | client => cases heff.2
      | pool =>
        rcases hu : s.update? with _ | u
        · have hnone : s.statusOf j = none := by
            cases s with
            | markImportStatus u => cases hu
            | _ => rfl
          have hw' := heff.2
          change (s.statusOf j).toList = _ at hw'
          rw [hnone] at hw'
          cases hw'
        · obtain ⟨hid, hcan⟩ := hlawful u hu
          have hall : ∀ u', s.update? = some u' → u'.importId = i := by
            intro u' hu'
            obtain rfl := Option.some.inj (hu.symm.trans hu')
            exact hid
          have hw' := heff.2
          change (s.statusOf j).toList = _ at hw'
          rw [OpmlStatement.statusOf_eq hall j, hu] at hw'
          by_cases hj : j = i
          · subst hj
            rw [if_pos rfl] at hw'
            obtain ⟨rfl, rfl⟩ := List.cons.inj hw'
            refine .cons_cons ?_ (.singleton _)
            rcases hseen with rfl | hseen
            · exact canTransition_self _
            · exact hcan st (hx.trans hseen)
          · rw [if_neg hj] at hw'
            cases hw'
    | commit =>
      have hw' := heff.2
      change (t.sys.world.staged pid).filterMap (OpmlWrite.statusOf j) = _ at hw'
      rcases htracks.filterMap_staged j with hnil | ⟨rfl, hstaged⟩
      · rw [hnil] at hw'
        cases hw'
      · rw [hstaged] at hw'
        obtain ⟨hchain, hfrom⟩ := hlawful
        rw [hw'] at hchain hfrom
        rcases hseen with rfl | hseen
        · exact .cons_cons (canTransition_self _) hchain
        · exact hfrom st (hx.trans hseen)
    | _ => cases heff.2
  | _ => exact .singleton _

/-- What holds along a run of the traced system holds along the run of the system. -/
theorem along_sys {C : OpmlSystem → OpmlAction → Prop} {as : List OpmlAction}
    (h : Transition.Along (step d) (fun t a _ => C t.sys a) t as) :
    Transition.Along (OpmlSystem.step d) (fun s a _ => C s a) t.sys as := by
  induction as generalizing t with
  | nil => trivial
  | cons a as ih =>
    intro s' hs
    have ht : step d t a = some { sys := s', seen := t.seenAfter a } := by
      rw [step, hs]
      rfl
    obtain ⟨hC, hrest⟩ := h _ ht
    exact ⟨hC, ih hrest⟩

/-- **The status table is followed.** In every run whose status writes are timely, the
statuses of every import follow the table; in particular none leaves `completed`. -/
theorem history_follows_table {as : List OpmlAction} (hinit : t.Init)
    (h : Transition.Along (step d) (fun t a _ => t.Timely a) t as) (i : Nat) :
    (OpmlSystem.history d i t.sys as).IsChain (fun x y => canTransition x y = true) ∧
      ∀ before next after, OpmlSystem.history d i t.sys as = before ++ .completed :: next :: after →
        next = .completed := by
  have hfollows : Transition.Along (step d) (fun t a _ => t.sys.FollowsTable a) t as :=
    h.mono (fun _ _ _ hw hs => writers_step hs hw)
      (fun _ _ _ hw hs ht => hw.followsTable hs ht) hinit.writers
  have hchain := OpmlSystem.isChain_history i (along_sys hfollows)
  have hnone : t.sys.world.statusOf i = none := by
    simp [OpmlWorld.statusOf, OpmlTables.statusOf, OpmlWorld.tables, hinit.1.imports,
      Table.lookup]
  rw [hnone] at hchain
  refine ⟨hchain, fun before next after heq => ?_⟩
  rw [Option.toList_none, List.nil_append, heq] at hchain
  have hstep := (List.isChain_append_cons_cons.mp hchain).2.1
  exact eq_of_canTransition_completed hstep

open OpmlSystem in
/-- An import that goes well. -/
theorem history_follows_table_twoFeeds :
    (OpmlSystem.history importDeployment 1 noImports
        (upload 1 ++ parse 2 ++ confirm 3 ++ applyUntilCommit 4 ++ enqueueBoth 4)).IsChain
      (fun x y => canTransition x y = true) :=
  (history_follows_table (t := ⟨noImports, fun _ => none⟩) ⟨noImports_init, rfl⟩
    (by decide +kernel) 1).1

open OpmlSystem in
/-- **A completed import is marked failed**: the transaction has committed, and the queue
refuses the second of the two feeds. -/
theorem completed_left :
    noImports.Init ∧
      OpmlSystem.history importDeployment 1 noImports
        (upload 1 ++ parse 2 ++ confirm 3 ++ applyUntilCommit 4 ++ proceed 4 3 ++
          [.advance 4 (.ok .none), .advance 4 (.refused "ECONNREFUSED")] ++ proceed 4 3) =
        [.uploaded, .parsing, .previewReady, .importing, .completed, .failed] ∧
      canTransition .completed .failed = false :=
  ⟨noImports_init, by decide +kernel, by decide⟩

end Sighted

end Feedpulse
