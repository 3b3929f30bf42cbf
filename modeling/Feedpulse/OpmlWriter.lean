import Feedpulse.OpmlHistory

/-!
# The processes as writers of a status

Every process of the OPML import is the writer of one import: it sees a status, and writes
along the table from there (`Writer.Obeys`). The programs are shown to be such writers one
after the other; `answered_of_answer` says that the shared state answers them as the
protocol says.
-/

namespace Feedpulse

open Prog OpmlImportStatus

/-! ## The protocol of a writer -/

/-- The import and the status that a statement reports. -/
def OpmlStatement.sighted : (s : OpmlStatement) → s.Reply → Option (Nat × OpmlImportStatus)
  | findImportByIdForTenant importId _, row =>
    (row : Option OpmlImportRow).map fun r => (importId, r.status)
  | findImportByIdForWorker importId, row =>
    (row : Option OpmlImportRow).map fun r => (importId, r.status)
  | _, _ => none

/-- The status of its import that a process knows after a call: the last one it has read or
written outside a transaction, and none once its transaction has committed. -/
def OpmlCall.seenAfter (effective : Bool) (seen : Option (Nat × OpmlImportStatus)) :
    (c : OpmlCall) → Except String c.Reply → Option (Nat × OpmlImportStatus)
  | statement .pool s, r => s.update?.elim ((r.toOption.bind s.sighted).or seen) fun u =>
    if effective then some (u.importId, u.status) else seen
  | commit, _ => if effective then none else seen
  | _, _ => seen

/-- The statuses a process has staged after a call. -/
def OpmlCall.stagedAfter (effective : Bool) (staged : List OpmlImportStatus) :
    OpmlCall → List OpmlImportStatus
  | statement .client s =>
    if effective then staged ++ (s.update?.map OpmlStatusUpdate.status).toList else staged
  | begin | commit | rollback | release => if effective then [] else staged
  | _ => staged

theorem OpmlCall.seenAfter_of_update {effective : Bool} {seen : Option (Nat × OpmlImportStatus)}
    {s : OpmlStatement} {u : OpmlStatusUpdate} (h : s.update? = some u)
    (r : Except String s.Reply) :
    (statement .pool s).seenAfter effective seen r
      = if effective then some (u.importId, u.status) else seen := by
  change s.update?.elim _ _ = _
  rw [h]
  rfl

theorem OpmlCall.seenAfter_of_read {effective : Bool} {seen : Option (Nat × OpmlImportStatus)}
    {s : OpmlStatement} (h : s.update? = none) (r : Except String s.Reply) :
    (statement .pool s).seenAfter effective seen r = (r.toOption.bind s.sighted).or seen := by
  change s.update?.elim _ _ = _
  rw [h]
  rfl

theorem OpmlCall.stagedAfter_client {effective : Bool} {staged : List OpmlImportStatus}
    (s : OpmlStatement) : (statement .client s).stagedAfter effective staged
      = if effective then staged ++ (s.update?.map OpmlStatusUpdate.status).toList else staged :=
  rfl

/-- What a process knows of its import, and what its transaction has staged. -/
structure Writer where
  /-- the import and its status as the process last saw it -/
  seen : Option (Nat × OpmlImportStatus)
  /-- the statuses staged in the open transaction -/
  staged : List OpmlImportStatus

namespace Writer

variable {i : Nat} {x y : Writer}

/-- The calls a writer of the import `i` may issue: from the status it has seen, it writes
along the table. -/
def Lawful (i : Nat) (x : Writer) : OpmlCall → Prop
  | .statement .pool s => ∀ u, s.update? = some u → u.importId = i ∧
    ∀ st, x.seen = some (i, st) → canTransition st u.status = true
  | .statement .client s => ∀ u, s.update? = some u → u.importId = i
  | .commit => x.staged.IsChain (fun x y => canTransition x y = true) ∧
    ∀ st, x.seen = some (i, st) →
      (st :: x.staged).IsChain fun x y => canTransition x y = true
  | _ => True

/-- How a call moves a writer: a reply means that it took effect, an error leaves it open. -/
def Answered (x : Writer) (c : OpmlCall) (r : Except String c.Reply) (y : Writer) : Prop :=
  ∃ effective : Bool, ((∃ a, r = .ok a) → effective = true) ∧
    y = { seen := c.seenAfter effective x.seen r, staged := c.stagedAfter effective x.staged }

/-- Every execution of the program is one of a lawful writer of the import `i`. -/
abbrev Obeys {α : Type} (i : Nat) (p : OpmlProgram α) (post : Except String α → Writer → Prop)
    (x : Writer) : Prop :=
  Meets (Lawful i) Answered p post x

/-- Calls that neither write nor read a status. -/
def Neutral : OpmlCall → Prop
  | .core _ | .connect | .addParseJob .. | .addApplyJob .. => True
  | .statement .pool s => s.update? = none ∧ ∀ a, s.sighted a = none
  | .statement .client s => s.update? = none
  | _ => False

theorem Neutral.lawful {c : OpmlCall} (h : Neutral c) : Lawful i x c := by
  cases c with
  | statement ex s =>
    cases ex with
    | pool =>
      intro u hu
      rw [h.1] at hu
      cases hu
    | client =>
      intro u hu
      have hn : s.update? = none := h
      rw [hn] at hu
      cases hu
  | commit => exact h.elim
  | _ => trivial

theorem Neutral.eq_of_answered {c : OpmlCall} {r : Except String c.Reply} (h : Neutral c)
    (ha : Answered x c r y) : y = x := by
  obtain ⟨effective, -, rfl⟩ := ha
  cases c with
  | statement ex s =>
    cases ex with
    | pool =>
      have hseen : (OpmlCall.statement .pool s).seenAfter effective x.seen r = x.seen := by
        rw [OpmlCall.seenAfter_of_read h.1]
        rcases r with e | a
        · rfl
        · exact congrArg (Option.or · x.seen) (h.2 a)
      rw [hseen]
      rfl
    | client =>
      have hn : s.update? = none := h
      have hstaged : (OpmlCall.statement .client s).stagedAfter effective x.staged
          = x.staged := by
        rw [OpmlCall.stagedAfter_client, hn]
        cases effective
        · rfl
        · exact List.append_nil _
      rw [hstaged]
      rfl
  | begin => exact h.elim
  | commit => exact h.elim
  | rollback => exact h.elim
  | release => exact h.elim
  | _ => rfl

/-- A program without status reads and writes leaves the writer as it is. -/
theorem obeys_of_neutral {α : Type} {p : OpmlProgram α} (h : Issues Neutral p) :
    Obeys i p (fun _ y => y = x) x := by
  have hstep : ∀ (y : Writer) c r y', Neutral c → y = x → Answered y c r y' → y' = x := by
    rintro y c r y' hc rfl hy
    exact hc.eq_of_answered hy
  exact (h.confine (h.meets hstep rfl)).weaken (fun y c hc => hc.lawful) fun _ _ _ _ h => h

/-- The work on items is nobody's status. -/
theorem neutral_of_itemWork {c : OpmlCall} (h : c.ItemWork) : Neutral c := by
  cases c with
  | core c => trivial
  | statement ex s =>
    cases ex with
    | pool => exact h.elim
    | client => exact h
  | _ => exact h.elim

/-! ### The calls of the programs -/

/-- Reading an import is seeing its status. -/
theorem obeys_getImportOrThrow (importId : Nat) (tenantId : Option String) :
    Obeys i (OpmlImportsRepository.getImportOrThrow importId tenantId)
      (fun r y => ∀ row, r = .ok row → y.seen = some (importId, row.status)) x := by
  have hfind : Obeys i (OpmlImportsRepository.findImportById importId tenantId)
      (fun r y => ∀ row, r = .ok (some row) → y.seen = some (importId, row.status)) x := by
    cases tenantId with
    | none =>
      refine meets_invoke.mpr ⟨fun u hu => (by cases hu), ?_⟩
      rintro r y ⟨effective, -, rfl⟩ row rfl
      rfl
    | some tenantId =>
      refine meets_invoke.mpr ⟨fun u hu => (by cases hu), ?_⟩
      rintro r y ⟨effective, -, rfl⟩ row rfl
      rfl
  refine hfind.bind ?_ ?_
  · rintro (_ | row) y hy
    · rintro row hrow
      cases hrow
    · intro row' hrow
      obtain rfl := Except.ok.inj hrow
      exact hy row rfl
  · intro e y hy row hrow
    cases hrow

/-- A status write outside a transaction. -/
theorem obeys_markImportStatus_pool {u : OpmlStatusUpdate} (hu : u.importId = i)
    (h : ∀ st, x.seen = some (i, st) → canTransition st u.status = true) :
    Obeys i (OpmlImportsRepository.markImportStatus u .pool)
      (fun r y => ∀ row, r = .ok row → y.seen = some (i, u.status)) x := by
  have hcall : Obeys i (opmlStatement .pool (.markImportStatus u))
      (fun r y => ∀ a, r = .ok a → y.seen = some (i, u.status)) x := by
    refine meets_invoke.mpr ⟨?_, ?_⟩
    · intro u' hu'
      obtain rfl := Option.some.inj hu'
      exact ⟨hu, h⟩
    · rintro r y ⟨effective, heff, rfl⟩ a rfl
      rw [heff ⟨a, rfl⟩, ← hu]
      rfl
  refine hcall.bind ?_ ?_
  · rintro (_ | row) y hy
    · rintro row hrow
      cases hrow
    · intro row' hrow
      exact hy _ rfl
  · intro e y hy row hrow
    cases hrow

/-- A status write inside a transaction. -/
theorem obeys_markImportStatus_client {u : OpmlStatusUpdate} (hu : u.importId = i) :
    Obeys i (OpmlImportsRepository.markImportStatus u .client)
      (fun r y => y.seen = x.seen ∧ ∀ row, r = .ok row → y.staged = x.staged ++ [u.status]) x := by
  have hcall : Obeys i (opmlStatement .client (.markImportStatus u))
      (fun r y => y.seen = x.seen ∧ ∀ a, r = .ok a → y.staged = x.staged ++ [u.status]) x := by
    refine meets_invoke.mpr ⟨?_, ?_⟩
    · intro u' hu'
      obtain rfl := Option.some.inj hu'
      exact hu
    · rintro r y ⟨effective, heff, rfl⟩
      refine ⟨rfl, ?_⟩
      rintro a rfl
      rw [heff ⟨a, rfl⟩]
      rfl
  refine hcall.bind ?_ ?_
  · rintro (_ | row) y ⟨hseen, hy⟩
    · refine ⟨hseen, ?_⟩
      rintro row hrow
      cases hrow
    · exact ⟨hseen, fun row' hrow => hy _ rfl⟩
  · rintro e y ⟨hseen, -⟩
    refine ⟨hseen, ?_⟩
    rintro row hrow
    cases hrow

theorem obeys_connect : Obeys i (opmlCall .connect) (fun _ y => y = x) x :=
  obeys_of_neutral (issues_invoke (c := OpmlCall.connect) trivial)

theorem obeys_getImportTenantId (importId : Nat) :
    Obeys i (OpmlImportsRepository.getImportTenantId importId .pool) (fun _ y => y = x) x :=
  obeys_of_neutral (getImportTenantId_issues
    (show Neutral (.statement .pool (.getImportTenantId importId)) from ⟨rfl, fun _ => rfl⟩))

theorem obeys_itemStatement {s : OpmlStatement} (h : s.update? = none) :
    Obeys i (opmlStatement .client s) (fun _ y => y = x) x :=
  obeys_of_neutral (issues_invoke (c := OpmlCall.statement .client s) h)

theorem obeys_begin : Obeys i (opmlCall .begin)
    (fun r y => y.seen = x.seen ∧ (r = .ok () → y.staged = [])) x := by
  refine meets_invoke.mpr ⟨trivial, ?_⟩
  rintro r y ⟨effective, heff, rfl⟩
  refine ⟨rfl, ?_⟩
  rintro rfl
  rw [heff ⟨_, rfl⟩]
  rfl

theorem obeys_rollback : Obeys i (opmlCall .rollback) (fun _ y => y.seen = x.seen) x := by
  refine meets_invoke.mpr ⟨trivial, ?_⟩
  rintro r y ⟨effective, heff, rfl⟩
  rfl

/-- A commit is lawful if the statuses staged follow the one that was seen. -/
theorem obeys_commit (h : x.staged.IsChain fun x y => canTransition x y = true)
    (hseen : ∀ st, x.seen = some (i, st) →
      (st :: x.staged).IsChain fun x y => canTransition x y = true) :
    Obeys i (opmlCall .commit) (fun _ y => y.seen = x.seen ∨ y.seen = none) x := by
  refine meets_invoke.mpr ⟨⟨h, hseen⟩, ?_⟩
  rintro r y ⟨effective, -, rfl⟩
  cases effective
  · exact .inl rfl
  · exact .inr rfl

/-- The handler of a job: it rolls back and writes a status that may follow the one seen. -/
theorem obeys_handler {u : OpmlStatusUpdate} (hu : u.importId = i)
    (h : ∀ st, x.seen = some (i, st) → canTransition st u.status = true) :
    Obeys i (do
      opmlCall .rollback
      let _ ← OpmlImportsRepository.markImportStatus u .pool)
      (fun _ _ => True) x := by
  refine obeys_rollback.bind ?_ fun _ _ _ => trivial
  intro _ y hy
  refine (obeys_markImportStatus_pool hu (hy ▸ h)).bind ?_ fun _ _ _ => trivial
  exact fun _ _ _ => trivial

/-- A `try … finally` around a job returns its connection. -/
theorem obeys_finally {body : OpmlProgram Unit} (h : Obeys i body (fun _ _ => True) x) :
    Obeys i (finallyDo body (opmlCall .release)) (fun _ _ => True) x :=
  meets_finallyDo h fun _ _ _ =>
    meets_invoke.mpr ⟨trivial, fun _ _ _ => ⟨fun _ => trivial, fun _ _ => trivial⟩⟩

end Writer

/-! ### The programs -/

section Programs

variable {cfg : OpmlConfig} {rt : OpmlRuntime} {x : Writer}

open Writer

/-- A confirmation follows the table. -/
theorem ConfirmOpmlImport.execute_obeys (importId : Nat) (tenantId : String) :
    Obeys importId (execute importId tenantId) (fun _ _ => True) x := by
  refine (obeys_getImportOrThrow importId (some tenantId)).bind ?_ fun _ _ _ => trivial
  intro current y hy
  have hseen := hy current rfl
  split
  · trivial
  · split
    · trivial
    · rename_i hready
      have hstatus : current.status = .previewReady := by simpa using hready
      rw [hstatus] at hseen
      refine (obeys_markImportStatus_pool rfl ?_).bind ?_ fun _ _ _ => trivial
      · intro st hst
        obtain ⟨-, rfl⟩ := Prod.mk.inj (Option.some.inj (hseen.symm.trans hst))
        rfl
      · intro updated z _
        refine (obeys_of_neutral (Issues.bind (issues_ofCore (fun _ => trivial) _) fun now =>
          Issues.bind (issues_invoke (c := OpmlCall.addApplyJob _ _) trivial) fun _ =>
            issues_pure _)).mono ?_
        exact fun _ _ _ => trivial

/-- An upload writes no status. -/
theorem CreateOpmlImport.execute_neutral (input : CreateOpmlImportInput) :
    Issues Writer.Neutral (execute cfg rt input) := by
  unfold execute
  split
  · exact issues_throw' _
  · exact Issues.bind (issues_invoke ⟨rfl, fun _ => rfl⟩) fun created =>
      Issues.bind (issues_invoke (c := OpmlCall.addParseJob _ _) trivial) fun _ => issues_pure _

/-- A registration writes no status. -/
theorem RegisterFeed.execute_neutral (input : RegisterFeedInput) :
    Issues Writer.Neutral (execute cfg rt input) := by
  refine Issues.ite (fun _ => ?_) fun _ => issues_throw' _
  refine Issues.bind (Issues.ite (fun _ => issues_pure _) fun _ => ?_) fun _ => ?_
  · exact Issues.bind (issues_invoke ⟨rfl, fun _ => rfl⟩) fun total =>
      Issues.ite (fun _ => issues_pure _) fun _ => issues_throw' _
  · exact Issues.tryCatch (issues_invoke ⟨rfl, fun _ => rfl⟩) fun _ => issues_throw' _

/-- What the transaction of a job leaves of the status its process has seen. -/
def KeepsSeen (x : Writer) {α : Type} (_ : Except String α) (y : Writer) : Prop :=
  y.seen = x.seen ∨ y.seen = none

/-- The work on items keeps the status. -/
theorem obeys_of_itemWork {α : Type} {p : OpmlProgram α} {i : Nat}
    (h : Issues OpmlCall.ItemWork p) : Obeys i p (fun _ y => y = x) x :=
  obeys_of_neutral (h.mono fun _ hc => neutral_of_itemWork hc)

theorem ProcessOpmlParseJob.transaction_obeys {tenantId : String} {job : OpmlParsePreviewJobData}
    {st : OpmlImportStatus} (hst : canTransition st .parsing = true)
    (hx : x.seen = some (job.importId, st)) :
    Obeys job.importId (transaction cfg rt tenantId job) (KeepsSeen x) x := by
  refine obeys_begin.bind ?_ fun e y hy => .inl hy.1
  rintro ⟨⟩ y ⟨hseen, hstaged⟩
  refine (obeys_markImportStatus_client rfl).bind ?_ fun e z hz => .inl (hz.1.trans hseen)
  rintro row z ⟨hseen', hstaged'⟩
  have hz : z.staged = [.parsing] := by rw [hstaged' row rfl, hstaged rfl]; rfl
  have hzseen : z.seen = x.seen := hseen'.trans hseen
  split
  · exact .inl hzseen
  · refine (obeys_of_itemWork (findExistingFeedsByHash_issues _ _)).bind ?_
      fun e t ht => .inl (ht ▸ hzseen)
    rintro existing _ rfl
    dsimp only
    split
    · exact .inl hzseen
    · rename_i items _
      refine (obeys_of_itemWork (replaceImportItems_issues _ items)).bind ?_
        fun e t ht => .inl (ht ▸ hzseen)
      rintro ⟨⟩ _ rfl
      refine (obeys_markImportStatus_client rfl).bind ?_ fun e t ht => .inl (ht.1.trans hzseen)
      rintro row' t ⟨htseen, htstaged⟩
      have ht : t.staged = [.parsing, .previewReady] := by rw [htstaged row' rfl, hz]; rfl
      have hchain : ([.parsing, .previewReady] : List OpmlImportStatus).IsChain
          fun x y => canTransition x y = true := .cons_cons rfl (.singleton _)
      refine (obeys_commit (ht ▸ hchain) ?_).mono fun _ v hv => ?_
      · intro st' hst'
        rw [htseen, hzseen, hx] at hst'
        obtain ⟨-, rfl⟩ := Prod.mk.inj (Option.some.inj hst')
        exact ht ▸ .cons_cons hst hchain
      · exact hv.imp_left fun h => h.trans (htseen.trans hzseen)

/-- The parse job follows the table. -/
theorem ProcessOpmlParseJob.run_obeys {tenantId : String} {job : OpmlParsePreviewJobData}
    {st : OpmlImportStatus} (hst : st = .uploaded ∨ st = .parsing)
    (hx : x.seen = some (job.importId, st)) :
    Obeys job.importId (run cfg rt tenantId job) (fun _ _ => True) x := by
  refine obeys_connect.bind ?_ fun _ _ _ => trivial
  rintro ⟨⟩ _ rfl
  have hparsing : canTransition st .parsing = true := by rcases hst with rfl | rfl <;> rfl
  have hfailed : canTransition st .failedValidation = true := by rcases hst with rfl | rfl <;> rfl
  refine obeys_finally ((transaction_obeys hparsing hx).tryCatch (fun _ _ _ => trivial) ?_)
  intro message y hy
  refine obeys_handler rfl fun st' hst' => ?_
  rcases hy with hy | hy
  · rw [hy, hx] at hst'
    obtain ⟨-, rfl⟩ := Prod.mk.inj (Option.some.inj hst')
    exact hfailed
  · rw [hy] at hst'
    cases hst'

theorem ProcessOpmlParseJob.execute_obeys (job : OpmlParsePreviewJobData) :
    Obeys job.importId (execute cfg rt job) (fun _ _ => True) x := by
  refine (obeys_getImportOrThrow job.importId none).bind ?_ fun _ _ _ => trivial
  intro current y hy
  have hseen := hy current rfl
  refine (obeys_getImportTenantId job.importId).bind ?_
    fun _ _ _ => trivial
  rintro tenantId _ rfl
  split
  · trivial
  · rename_i hready
    split
    · refine run_obeys ?_ hseen
      by_contra hn
      simp only [not_or] at hn
      simp [hn] at hready
    · trivial

/-- The apply transaction: the status of the import it ends with follows `importing`. -/
theorem ProcessOpmlApplyJob.transaction_obeys {tenantId : String} {importId : Nat}
    (hx : x.seen = some (importId, .importing)) :
    Obeys importId (transaction cfg rt tenantId importId) (KeepsSeen x) x := by
  refine obeys_begin.bind ?_ fun e y hy => .inl hy.1
  rintro ⟨⟩ y ⟨hseen, hstaged⟩
  refine (obeys_itemStatement rfl).bind ?_ fun e z hz => .inl (hz ▸ hseen)
  rintro candidates _ rfl
  refine (obeys_of_itemWork (applyItems_issues _ _ _)).bind ?_ fun e z hz => .inl (hz ▸ hseen)
  rintro tally _ rfl
  refine (obeys_itemStatement rfl).bind ?_ fun e z hz => .inl (hz ▸ hseen)
  rintro grouped _ rfl
  refine (obeys_markImportStatus_client rfl).bind ?_ fun e z hz => .inl (hz.1.trans hseen)
  rintro row z ⟨hzseen, hzstaged⟩
  have hz : z.staged = [(finalUpdate importId tally grouped).status] := by
    rw [hzstaged row rfl, hstaged rfl]
    rfl
  have hfinal : canTransition .importing (finalUpdate importId tally grouped).status = true := by
    unfold finalUpdate
    dsimp only
    split
    · rfl
    · rfl
  refine (obeys_commit (hz ▸ .singleton _) ?_).bind ?_ fun e t ht => ?_
  · intro st hst
    rw [hzseen, hseen, hx] at hst
    obtain ⟨-, rfl⟩ := Prod.mk.inj (Option.some.inj hst)
    exact hz ▸ .cons_cons hfinal (.singleton _)
  · rintro ⟨⟩ t ht
    exact ht.imp_left fun h => h.trans (hzseen.trans hseen)
  · exact ht.imp_left fun h => h.trans (hzseen.trans hseen)

/-- The apply job follows the table. -/
theorem ProcessOpmlApplyJob.run_obeys {tenantId : String} {importId : Nat}
    (hx : x.seen = some (importId, .importing)) :
    Obeys importId (run cfg rt tenantId importId) (fun _ _ => True) x := by
  have hbody : Obeys importId (do
      let createdFeedIds ← transaction cfg rt tenantId importId
      enqueueFeeds createdFeedIds) (KeepsSeen x) x := by
    refine (transaction_obeys hx).bind ?_ fun e y hy => hy
    intro createdFeedIds y hy
    refine (obeys_of_itemWork (enqueueFeeds_issues createdFeedIds)).mono ?_
    rintro r _ rfl
    exact hy
  refine obeys_connect.bind ?_ fun _ _ _ => trivial
  rintro ⟨⟩ _ rfl
  refine obeys_finally (hbody.tryCatch (fun _ _ _ => trivial) ?_)
  intro message y hy
  refine obeys_handler rfl fun st' hst' => ?_
  rcases hy with hy | hy
  · rw [hy, hx] at hst'
    obtain ⟨-, rfl⟩ := Prod.mk.inj (Option.some.inj hst')
    rfl
  · rw [hy] at hst'
    cases hst'

theorem ProcessOpmlApplyJob.execute_obeys (job : OpmlApplyImportJobData) :
    Obeys job.importId (execute cfg rt job) (fun _ _ => True) x := by
  refine (obeys_getImportOrThrow job.importId none).bind ?_ fun _ _ _ => trivial
  intro current y hy
  have hseen := hy current rfl
  refine (obeys_getImportTenantId job.importId).bind ?_
    fun _ _ _ => trivial
  rintro tenantId _ rfl
  split
  · trivial
  · split
    · rename_i himporting
      exact run_obeys (himporting ▸ hseen)
    · split
      · rename_i hcan
        refine (obeys_markImportStatus_pool rfl ?_).bind ?_ fun _ _ _ => trivial
        · intro st hst
          obtain ⟨-, rfl⟩ := Prod.mk.inj (Option.some.inj (hseen.symm.trans hst))
          exact hcan
        · intro row z hz
          exact run_obeys (hz row rfl)
      · trivial

end Programs

/-! ## The protocol and the shared state -/

namespace OpmlWorld

variable {w w' : OpmlWorld} {pid i : Nat} {staged : List OpmlImportStatus}

/-- The open transaction of a process has staged these statuses of the import `i`, and none of
another import. -/
def Tracks (w : OpmlWorld) (pid i : Nat) (staged : List OpmlImportStatus) : Prop :=
  ∀ t, w.opmlTxn pid = some t → t.aborted = false →
    ∀ j, t.writes.filterMap (OpmlWrite.statusOf j) = if j = i then staged else []

theorem Tracks.congr (h : w.Tracks pid i staged) (hw : w'.opmlTxn pid = w.opmlTxn pid) :
    w'.Tracks pid i staged := fun t ht => h t (hw ▸ ht)

theorem tracks_of_none (h : w.opmlTxn pid = none) : w.Tracks pid i staged := by
  intro t ht
  rw [h] at ht
  cases ht

/-- A failed transaction will commit nothing. -/
theorem tracks_abortOpmlTxn : (w.abortOpmlTxn pid).Tracks pid i staged := by
  intro t ht ha
  rw [opmlTxn_abortOpmlTxn] at ht
  obtain ⟨t', -, rfl⟩ := Option.map_eq_some_iff.mp ht
  cases ha

/-- What a process would commit. -/
theorem Tracks.filterMap_staged (h : w.Tracks pid i staged) (j : Nat) :
    (w.staged pid).filterMap (OpmlWrite.statusOf j) = [] ∨
      (j = i ∧ (w.staged pid).filterMap (OpmlWrite.statusOf j) = staged) := by
  unfold OpmlWorld.staged
  rcases ht : w.opmlTxn pid with _ | t
  · exact .inl rfl
  · dsimp only
    by_cases ha : t.aborted = true
    · rw [if_pos ha]
      exact .inl rfl
    · rw [if_neg ha, h t ht (by simpa using ha) j]
      by_cases hj : j = i
      · rw [if_pos hj]
        exact .inr ⟨hj, rfl⟩
      · rw [if_neg hj]
        exact .inl rfl

end OpmlWorld

open OpmlWorld

theorem OpmlStatement.update?_of_eval {now : Nat} {ids : OpmlSequences} {t : OpmlTables}
    {s : OpmlStatement} (h : (s.eval now ids t).2 = none) : s.update? = none := by
  cases s with
  | markImportStatus u => cases h
  | _ => rfl

/-- A status write of the import `i` writes the status of no other import. -/
theorem OpmlStatement.statusOf_eq {i : Nat} {s : OpmlStatement}
    (h : ∀ u, s.update? = some u → u.importId = i) (j : Nat) :
    s.statusOf j = if j = i then s.update?.map OpmlStatusUpdate.status else none := by
  cases s with
  | markImportStatus u =>
    obtain rfl : u.importId = i := h u rfl
    by_cases hj : j = u.importId
    · simp [statusOf, update?, hj]
    · simp [statusOf, hj, Ne.symm hj]
  | _ => simp [statusOf, update?]

theorem OpmlStatement.Writes.filterMap_statusOf {now : Nat} {ids : OpmlSequences}
    {t : OpmlTables} {s : OpmlStatement} {x : OpmlWrite} {i : Nat} (hx : s.Writes now ids t x)
    (h : ∀ u, s.update? = some u → u.importId = i) (j : Nat) :
    [x].filterMap (OpmlWrite.statusOf j)
      = if j = i then (s.update?.map OpmlStatusUpdate.status).toList else [] := by
  have hst := (hx.statusOf_eq j).trans (OpmlStatement.statusOf_eq h j)
  split
  · rename_i hj
    rw [if_pos hj] at hst
    rcases hu : s.update?.map OpmlStatusUpdate.status with _ | st
    · exact List.filterMap_cons_none (hst.trans hu)
    · exact List.filterMap_cons_some (hst.trans hu)
  · rename_i hj
    rw [if_neg hj] at hst
    exact List.filterMap_cons_none hst

/-- A lawful call stages what its writer says. -/
theorem OpmlCall.tracks_serve {w w' : OpmlWorld} {pid i : Nat} {x : Writer} {c : OpmlCall}
    {r : Except String c.Reply} (hlawful : Writer.Lawful i x c)
    (hs : c.serve pid w = some (r, w')) (h : w.Tracks pid i x.staged) :
    w'.Tracks pid i (c.stagedAfter true x.staged) := by
  cases c with
  | core c => cases hs
  | begin =>
    obtain ⟨-, rfl⟩ := Prod.mk.inj (Option.some.inj hs)
    intro t ht _ j
    rw [opmlTxn_setOpmlTxn] at ht
    obtain rfl := Option.some.inj ht
    exact (ite_self _).symm
  | commit =>
    obtain ⟨-, rfl⟩ := Prod.mk.inj (Option.some.inj hs)
    exact tracks_of_none (opmlTxn_commitOpmlTxn ..)
  | rollback =>
    obtain ⟨-, rfl⟩ := Prod.mk.inj (Option.some.inj hs)
    exact tracks_of_none opmlTxn_dropOpmlTxn
  | release =>
    obtain ⟨-, rfl⟩ := Prod.mk.inj (Option.some.inj hs)
    exact tracks_of_none opmlTxn_dropOpmlTxn
  | statement ex s =>
    cases ex with
    | pool =>
      obtain ⟨-, ⟨-, rfl⟩ | ⟨x, -, rfl⟩⟩ := onPool_eq_some hs
      · exact h
      · exact h
    | client =>
      obtain ⟨t, ht, ⟨ha, rfl, -⟩ | ⟨-, rfl, -⟩ | ⟨a, ha, -, -, ⟨hn, rfl⟩ | ⟨x, hx, -, rfl⟩⟩⟩ :=
        onClient_eq_some hs
      · intro t' ht' ha'
        obtain rfl := Option.some.inj (ht.symm.trans ht')
        rw [ha] at ha'
        cases ha'
      · exact tracks_abortOpmlTxn
      · have hstaged : (statement .client s).stagedAfter true x.staged = x.staged := by
          rw [stagedAfter_client, OpmlStatement.update?_of_eval hn]
          exact List.append_nil _
        rw [hstaged]
        exact h
      · intro t' ht' _ j
        have ht'' : (w.setOpmlTxn pid { t with writes := t.writes ++ [x] }).opmlTxn pid = _ :=
          opmlTxn_setOpmlTxn _
        obtain rfl := Option.some.inj (ht''.symm.trans ht')
        rw [stagedAfter_client, List.filterMap_append, h t ht ha j,
          (OpmlStatement.writes_of_eval hx).filterMap_statusOf hlawful j]
        by_cases hj : j = i
        · rw [if_pos hj, if_pos hj, if_pos hj]
          rfl
        · rw [if_neg hj, if_neg hj, if_neg hj]
          rfl
  | connect =>
    obtain ⟨-, rfl⟩ := Prod.mk.inj (Option.some.inj hs)
    exact h
  | addParseJob jobId data =>
    obtain ⟨-, rfl⟩ := Prod.mk.inj (Option.some.inj hs)
    exact h
  | addApplyJob jobId data =>
    obtain ⟨-, rfl⟩ := Prod.mk.inj (Option.some.inj hs)
    exact h

/-- **The shared state follows the protocol.** -/
theorem OpmlCall.answered_of_answer {w w' : OpmlWorld} {pid i : Nat} {x : Writer} {c : OpmlCall}
    {out : Outcome} {r : Except String c.Reply} (hlawful : Writer.Lawful i x c)
    (ha : c.answer pid w out = some (r, w')) (h : w.Tracks pid i x.staged) :
    ∃ y : Writer, Writer.Answered x c r y ∧
      y.seen = c.seenAfter out.takesEffect x.seen r ∧ w'.Tracks pid i y.staged := by
  refine ⟨{ seen := c.seenAfter out.takesEffect x.seen r
            staged := c.stagedAfter out.takesEffect x.staged },
    ⟨out.takesEffect, ?_, rfl⟩, rfl, ?_⟩
  · rintro ⟨a, rfl⟩
    cases answer_cases ha with
    | core c out r v h =>
      obtain ⟨ch, rfl, -⟩ := Call.serve_of_ok h
      rfl
    | ok => rfl
  · have hidle : ∀ v : OpmlWorld, (c.onConnection = false → v.Tracks pid i
        (c.stagedAfter out.takesEffect x.staged)) →
        (c.afterError pid v).Tracks pid i (c.stagedAfter out.takesEffect x.staged) := by
      intro v hv
      unfold afterError
      split
      · exact tracks_abortOpmlTxn
      · rename_i hc
        exact hv (by simpa using hc)
    cases answer_cases ha with
    | core c out r v _ => exact h
    | ok c ch r v hs => exact tracks_serve hlawful hs h
    | refused c error hinf =>
      refine hidle w fun hc => ?_
      cases c with
      | begin => cases hc
      | commit => cases hc
      | rollback => cases hc
      | release => cases hinf
      | statement ex s =>
        cases ex with
        | client => cases hc
        | pool => exact h
      | _ => exact h
    | lost c ch error r v hinf hs => exact hidle v fun _ => tracks_serve hlawful hs h

end Feedpulse
