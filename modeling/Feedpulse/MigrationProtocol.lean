import Feedpulse.Migrations

/-!
# The protocol of one run

What a run has checked out, locked and written is determined by the answers it got: its view.
Every execution of `applyMigrations` issues each statement on a connection it holds and in a
transaction that is ready for it, passes the files in the order of their names, stops at the
first one that fails, and gives back the lock and both connections before it ends.
-/

namespace Feedpulse

namespace Migrations

/-! ## What a trace says -/

/-- The file a run turns to. -/
def Event.attempted : Event → Option String
  | ⟨.readFile file, _⟩ => some file
  | _ => none

/-- The file whose transaction has committed. -/
def Event.passed : Event → Option String
  | ⟨.commit _ file, .ok _⟩ => some file
  | _ => none

/-- The file whose transaction was to be committed. -/
def Event.committed : Event → Option String
  | ⟨.commit _ file, _⟩ => some file
  | _ => none

/-- The files that were found. -/
def Event.listed : Event → Option (List String)
  | ⟨.readdir, .ok directory⟩ => some (listMigrationFiles directory)
  | _ => none

/-- The files a run has turned to, in order. -/
def attempted (trace : List Event) : List String := trace.filterMap Event.attempted

/-- The files whose transactions have committed. -/
def passed (trace : List Event) : List String := trace.filterMap Event.passed

/-- The files whose transactions were to be committed. -/
def committed (trace : List Event) : List String := trace.filterMap Event.committed

/-- The files a run has found. -/
def listed (trace : List Event) : List String := (trace.findSome? Event.listed).getD []

/-- **A run in order**: it takes the files it has found from the first one on, and turns to the
next one when the one before was committed. -/
structure Orderly (trace : List Event) : Prop where
  /-- the files in their order, none left out -/
  order : attempted trace <+: listed trace
  /-- no file after one that was not committed -/
  stops : ∀ file ∈ (attempted trace).dropLast, file ∈ passed trace

/-- What a trace becomes while a run is at some files, and turns to no other. -/
structure Within (files : List String) (trace trace' : List Event) : Prop where
  /-- no other file -/
  attempted : attempted trace' = attempted trace
  /-- no other list of files -/
  listed : listed trace' = listed trace
  /-- what is committed stays so -/
  passed : ∀ file ∈ passed trace, file ∈ Migrations.passed trace'
  /-- and only these files are committed -/
  committed : ∀ file ∈ committed trace', file ∈ Migrations.committed trace ∨ file ∈ files

section Trace

variable {trace trace' trace'' : List Event} {files : List String} {e : Event}

theorem attempted_append : attempted (trace ++ [e]) = attempted trace ++ e.attempted.toList := by
  rcases h : e.attempted with _ | file <;> simp [attempted, h]

theorem passed_append : passed (trace ++ [e]) = passed trace ++ e.passed.toList := by
  rcases h : e.passed with _ | file <;> simp [passed, h]

theorem committed_append : committed (trace ++ [e]) = committed trace ++ e.committed.toList := by
  rcases h : e.committed with _ | file <;> simp [committed, h]

theorem Within.refl : Within files trace trace :=
  ⟨rfl, rfl, fun _ h => h, fun _ h => .inl h⟩

theorem Within.trans (h : Within files trace trace') (h' : Within files trace' trace'') :
    Within files trace trace'' where
  attempted := h'.attempted.trans h.attempted
  listed := h'.listed.trans h.listed
  passed := fun file hf => h'.passed file (h.passed file hf)
  committed := fun file hf => (h'.committed file hf).elim (h.committed file) .inr

/-- A call that neither turns to a file nor finds any. -/
theorem Within.append (ha : e.attempted = none) (hl : e.listed = none)
    (hc : ∀ file ∈ e.committed, file ∈ files) : Within files trace (trace ++ [e]) where
  attempted := by rw [attempted_append, ha, Option.toList_none, List.append_nil]
  listed := by simp [Migrations.listed, hl]
  passed := fun file hf => by
    rw [passed_append]
    exact List.mem_append_left _ hf
  committed := fun file hf => by
    rw [committed_append] at hf
    rcases List.mem_append.mp hf with hf | hf
    · exact .inl hf
    · exact .inr (hc file (Option.mem_toList.mp hf))

/-- A call that is about no file. -/
theorem quiet_append (ha : e.attempted = none) (hl : e.listed = none) (hc : e.committed = none) :
    Within [] trace (trace ++ [e]) :=
  Within.append ha hl fun _ hf => nomatch hc.symm.trans hf

/-- A run stays in order while it is at some files. -/
theorem Orderly.within (h : Orderly trace) (hw : Within files trace trace') : Orderly trace' where
  order := by
    rw [hw.attempted, hw.listed]
    exact h.order
  stops := fun file hf => by
    rw [hw.attempted] at hf
    exact hw.passed file (h.stops file hf)

end Trace

/-! ## The view of a run -/

/-- How far a transaction is. -/
inductive Progress
  /-- there is none -/
  | none
  /-- it has begun -/
  | begun
  /-- the row of the file was inserted -/
  | claimed (file : String)
  /-- the file has a row -/
  | existing (file : String)
  /-- its checksum is filled in, if it was missing -/
  | filled (file : String)
  /-- the SQL of the file was executed -/
  | executed (file : String)
  /-- a statement has failed -/
  | failed

/-- What a run knows. -/
structure View where
  /-- the connection of the lock -/
  lockClient : Option Nat
  /-- the key of the lock, once it is taken -/
  locked : Option Int
  /-- the connection of a file -/
  client : Option Nat
  /-- the transaction on it -/
  tx : Progress
  /-- the answers so far -/
  trace : List Event

namespace View

/-- At the beginning. -/
def initial : View :=
  { lockClient := none, locked := none, client := none, tx := .none, trace := [] }

/-- What an answer changes. -/
def change (v : View) : (call : MigrationCall) → Except MigrationError call.Reply → View
  | .connect, .ok client =>
    if v.lockClient = none then { v with lockClient := some client }
    else { v with client := some client }
  | .release client, _ =>
    if v.client = some client then { v with client := none } else { v with lockClient := none }
  | .tryAdvisoryLock _ lockKey, .ok locked =>
    if locked then { v with locked := some lockKey } else v
  | .advisoryUnlock .., _ => { v with locked := none }
  | .begin _, .ok _ => { v with tx := .begun }
  | .claim _ file _, .ok rowCount =>
    { v with tx := if rowCount = 0 then .existing file else .claimed file }
  | .claim .., .error _ => { v with tx := .failed }
  | .recorded .., .error _ => { v with tx := .failed }
  | .backfill _ file _, .ok _ => { v with tx := .filled file }
  | .backfill .., .error _ => { v with tx := .failed }
  | .body _ file _, .ok _ => { v with tx := .executed file }
  | .body .., .error _ => { v with tx := .failed }
  | .commit .., _ => { v with tx := .none }
  | .rollback .., _ => { v with tx := .none }
  | _, _ => v

/-- The view after an answer. -/
def after (v : View) (call : MigrationCall) (r : Except MigrationError call.Reply) : View :=
  { v.change call r with trace := v.trace ++ [{ call := call, answer := r }] }

/-- What an answer can be: a connection that was not handed out before, and no error of the
runner's own. -/
def Possible (v : View) : (call : MigrationCall) → Except MigrationError call.Reply → Prop
  | .connect, .ok client => v.lockClient ≠ some client
  | .forever, _ => False
  | _, .ok _ => True
  | _, .error error => ∃ message, error = .failed message

/-- The answers to a run. -/
def Answers (v : View) (call : MigrationCall) (r : Except MigrationError call.Reply)
    (v' : View) : Prop :=
  v.Possible call r ∧ v' = v.after call r

/-- When a call may be issued. -/
def Allowed (v : View) : MigrationCall → Prop
  | .connect => v.client = none ∧ v.tx = .none ∧ (v.lockClient = none → v.locked = none)
  | .release client =>
    (v.client = some client ∧ v.tx = .none) ∨
      (v.client = none ∧ v.lockClient = some client ∧ v.locked = none)
  | .tryAdvisoryLock client _ =>
    v.lockClient = some client ∧ v.locked = none ∧ v.client = none
  | .advisoryUnlock client lockKey =>
    v.lockClient = some client ∧ v.locked = some lockKey ∧ v.client = none
  | .begin client => v.client = some client ∧ v.tx = .none
  | .claim client _ _ => v.client = some client ∧ v.tx = .begun
  | .recorded client file => v.client = some client ∧ v.tx = .existing file
  | .backfill client file _ => v.client = some client ∧ v.tx = .existing file
  | .body client file _ => v.client = some client ∧ v.tx = .claimed file
  | .commit client file =>
    v.client = some client ∧
      (v.tx = .existing file ∨ v.tx = .filled file ∨ v.tx = .executed file)
  | .rollback client _ => v.client = some client
  | _ => True

end View

/-- Every execution of the program from the view `v` is in order, issues what is allowed, and
ends within `post`. -/
abbrev Runs {α : Type} (p : MigrationProgram α) (post : Except MigrationError α → View → Prop)
    (v : View) : Prop :=
  Prog.Meets (fun v call => Orderly v.trace ∧ v.Allowed call) View.Answers p post v

variable {α : Type} {v : View} {call : MigrationCall}

/-- A call and what follows it. -/
theorem runs_ask_bind {f : call.Reply → MigrationProgram α}
    {post : Except MigrationError α → View → Prop} (ho : Orderly v.trace) (ha : v.Allowed call)
    (hok : ∀ reply, v.Possible call (.ok reply) → Runs (f reply) post (v.after call (.ok reply)))
    (herror : ∀ message, post (.error (.failed message))
      (v.after call (.error (.failed message)))) :
    Runs (ask call >>= f) post v := by
  refine Prog.meets_bind.mpr (Prog.meets_invoke.mpr ⟨⟨ho, ha⟩, ?_⟩)
  rintro r _ ⟨hr, rfl⟩
  cases r with
  | ok reply => exact hok reply hr
  | error error =>
    obtain ⟨message, rfl⟩ : ∃ message, error = .failed message := by
      cases call <;> first | exact hr | exact hr.elim
    exact herror message

/-- A call at the end. -/
theorem runs_ask {post : Except MigrationError call.Reply → View → Prop} (ho : Orderly v.trace)
    (ha : v.Allowed call)
    (hok : ∀ reply, v.Possible call (.ok reply) → post (.ok reply) (v.after call (.ok reply)))
    (herror : ∀ message, post (.error (.failed message))
      (v.after call (.error (.failed message)))) :
    Runs (ask call) post v := by
  have h := runs_ask_bind (f := Prog.ret) ho ha (fun reply hr => hok reply hr) herror
  rwa [Prog.bind_ret] at h

/-! ## One file -/

/-- What is the same after a call of a transaction. -/
structure Inside (file : String) (v v' : View) : Prop where
  /-- the connection of the lock -/
  lockClient : v'.lockClient = v.lockClient
  /-- the lock -/
  locked : v'.locked = v.locked
  /-- the connection of the file -/
  client : v'.client = v.client
  /-- the run is still at the file -/
  within : Within [file] v.trace v'.trace

theorem Inside.trans {file : String} {v v' v'' : View} (h : Inside file v v')
    (h' : Inside file v' v'') : Inside file v v'' :=
  ⟨h'.lockClient.trans h.lockClient, h'.locked.trans h.locked, h'.client.trans h.client,
    h.within.trans h'.within⟩

/-- The statements of the transaction of a file. -/
def OfTransaction (file : String) : MigrationCall → Prop
  | .begin _ => True
  | .claim _ f _ | .recorded _ f | .backfill _ f _ | .body _ f _ | .commit _ f
  | .rollback _ f => f = file
  | _ => False

/-- A statement of the transaction of a file leaves the rest of the view alone. -/
theorem inside_after {file : String} {r : Except MigrationError call.Reply}
    (h : OfTransaction file call) : Inside file v (v.after call r) := by
  cases call <;> first | exact h.elim | skip
  all_goals
    refine ⟨?_, ?_, ?_, Within.append rfl rfl ?_⟩
    · cases r <;> rfl
    · cases r <;> rfl
    · cases r <;> rfl
    · simp_all [Event.committed, OfTransaction]

/-- A call other than a `COMMIT`. -/
theorem committed_after {r : Except MigrationError call.Reply}
    (h : Event.committed ⟨call, r⟩ = none) :
    committed (v.after call r).trace = committed v.trace := by
  change committed (v.trace ++ _) = _
  rw [committed_append, h, Option.toList_none, List.append_nil]

/-- A mismatch is one of this file, and nothing was to be committed. -/
def Mismatched (file : String) (v v' : View) (error : MigrationError) : Prop :=
  ∀ version expected actual free, error = .checksumMismatch version expected actual free →
    version = file ∧ committed v'.trace = committed v.trace

/-- What the transaction of a file leaves. -/
structure Tried (file : String) (v : View) (r : Except MigrationError Bool) (v' : View) :
    Prop where
  /-- the run is at the file -/
  inside : Inside file v v'
  /-- without an error the transaction has committed -/
  ok : ∀ applied, r = .ok applied → v'.tx = .none ∧ file ∈ passed v'.trace
  /-- a mismatch comes before the commit -/
  error : ∀ error, r = .error error → Mismatched file v v' error

theorem Tried.failed {file message : String} {v' : View} (h : Inside file v v') :
    Tried file v (.error (.failed message)) v' := by
  refine ⟨h, fun _ h => (nomatch h), fun _ h => ?_⟩
  obtain rfl := Except.error.inj h
  intro _ _ _ _ h
  cases h

/-- `COMMIT` at the end of the `try` block. -/
theorem runs_commit {client : Nat} {file : String} {applied : Bool} {v₀ : View}
    (ho : Orderly v.trace) (hclient : v.client = some client)
    (htx : v.tx = .existing file ∨ v.tx = .filled file ∨ v.tx = .executed file)
    (hinside : Inside file v₀ v) :
    Runs (ask (.commit client file) >>= fun _ => pure applied) (Tried file v₀) v := by
  refine runs_ask_bind ho ⟨hclient, htx⟩ (fun reply _ => ?_)
    fun message => Tried.failed (hinside.trans (inside_after rfl))
  refine ⟨hinside.trans (inside_after rfl), fun _ _ => ⟨rfl, ?_⟩, fun _ h => (nomatch h)⟩
  change file ∈ passed (v.trace ++ _)
  rw [passed_append]
  exact List.mem_append_right _ (Option.mem_toList.mpr rfl)

/-- The `try` block: at its end the transaction has committed, or an error was thrown. -/
theorem runs_claimAndApply {client : Nat} {file sql checksum : String} {files : List String}
    (ho : Orderly v.trace) (hclient : v.client = some client) (htx : v.tx = .begun) :
    Runs (claimAndApply client file sql checksum files) (Tried file v) v := by
  rw [claimAndApply]
  refine runs_ask_bind ho ⟨hclient, htx⟩ (fun rowCount _ => ?_)
    fun message => Tried.failed (inside_after rfl)
  have h₁ : Inside file v (v.after (.claim client file checksum) (.ok rowCount)) :=
    inside_after rfl
  have ho₁ := ho.within h₁.within
  have hclient₁ := h₁.client.trans hclient
  by_cases hcount : rowCount = 0
  · rw [if_pos hcount]
    have htx₁ : (v.after (.claim client file checksum) (.ok rowCount)).tx = .existing file :=
      if_pos hcount
    have hcommitted₁ : committed (v.after (.claim client file checksum) (.ok rowCount)).trace =
        committed v.trace := committed_after rfl
    generalize v.after (.claim client file checksum) (.ok rowCount) = v₁ at *
    refine runs_ask_bind ho₁ ⟨hclient₁, htx₁⟩ (fun recorded _ => ?_)
      fun message => Tried.failed (h₁.trans (inside_after rfl))
    have h₂ : Inside file v₁ (v₁.after (.recorded client file) (.ok recorded)) :=
      inside_after rfl
    have ho₂ := ho₁.within h₂.within
    have hclient₂ := h₂.client.trans hclient₁
    have htx₂ : (v₁.after (.recorded client file) (.ok recorded)).tx = .existing file := htx₁
    have hcommitted₂ :
        committed (v₁.after (.recorded client file) (.ok recorded)).trace = committed v.trace :=
      (committed_after rfl).trans hcommitted₁
    generalize v₁.after (.recorded client file) (.ok recorded) = v₂ at *
    rcases recorded.join with _ | storedChecksum
    · refine runs_ask_bind ho₂ ⟨hclient₂, htx₂⟩ (fun _ _ => ?_)
        fun message => Tried.failed ((h₁.trans h₂).trans (inside_after rfl))
      have h₃ : Inside file v₂ (v₂.after (.backfill client file checksum) (.ok ())) :=
        inside_after rfl
      exact runs_commit (ho₂.within h₃.within) (h₃.client.trans hclient₂) (.inr (.inl rfl))
        ((h₁.trans h₂).trans h₃)
    · dsimp only
      split
      · refine ⟨h₁.trans h₂, fun _ h => (nomatch h), fun _ h => ?_⟩
        obtain rfl := Except.error.inj h
        intro _ _ _ _ h
        cases h
        exact ⟨rfl, hcommitted₂⟩
      · exact runs_commit ho₂ hclient₂ (.inl htx₂) (h₁.trans h₂)
  · rw [if_neg hcount]
    have htx₁ : (v.after (.claim client file checksum) (.ok rowCount)).tx = .claimed file :=
      if_neg hcount
    generalize v.after (.claim client file checksum) (.ok rowCount) = v₁ at *
    refine runs_ask_bind ho₁ ⟨hclient₁, htx₁⟩ (fun _ _ => ?_)
      fun message => Tried.failed (h₁.trans (inside_after rfl))
    have h₂ : Inside file v₁ (v₁.after (.body client file sql) (.ok ())) := inside_after rfl
    exact runs_commit (ho₁.within h₂.within) (h₂.client.trans hclient₁) (.inr (.inr rfl))
      (h₁.trans h₂)

/-- `applyMigration` leaves no transaction behind. -/
theorem runs_applyMigration {client : Nat} {file sql checksum : String} {files : List String}
    (ho : Orderly v.trace) (hclient : v.client = some client) (htx : v.tx = .none) :
    Runs (applyMigration client file sql checksum files)
      (fun r v' => Tried file v r v' ∧ v'.tx = .none) v := by
  rw [applyMigration]
  refine runs_ask_bind ho ⟨hclient, htx⟩ (fun _ _ => ?_)
    fun message => ⟨Tried.failed (inside_after trivial), htx⟩
  have h₁ : Inside file v (v.after (.begin client) (.ok ())) := inside_after trivial
  have hcommitted₁ : committed (v.after (.begin client) (.ok ())).trace = committed v.trace :=
    committed_after rfl
  have htry : Runs (claimAndApply client file sql checksum files)
      (Tried file (v.after (.begin client) (.ok ()))) (v.after (.begin client) (.ok ())) :=
    runs_claimAndApply (ho.within h₁.within) (h₁.client.trans hclient) rfl
  generalize v.after (.begin client) (.ok ()) = v₁ at *
  refine Prog.Meets.tryCatch htry (fun applied v' h => ?_) fun error v' h => ?_
  · refine ⟨⟨h₁.trans h.inside, h.ok, fun _ h => (nomatch h)⟩, ?_⟩
    exact (h.ok applied rfl).1
  · have hinside := h₁.trans h.inside
    refine runs_ask_bind (ho.within hinside.within) (hinside.client.trans hclient)
      (fun _ _ => ?_) fun message => ⟨Tried.failed (hinside.trans (inside_after rfl)), rfl⟩
    refine ⟨⟨hinside.trans (inside_after rfl), fun _ h => (nomatch h), fun e he => ?_⟩, rfl⟩
    obtain rfl := Except.error.inj he
    intro version expected actual free hm
    obtain ⟨rfl, hcommitted⟩ := h.error error rfl version expected actual free hm
    exact ⟨rfl, (committed_after rfl).trans (hcommitted.trans hcommitted₁)⟩

/-! ## The files -/

/-- A run between two files. -/
structure Between (files done : List String) (v : View) : Prop where
  /-- it has the connection of the lock only -/
  lockClient : v.lockClient ≠ none
  /-- no other -/
  client : v.client = none
  /-- and no transaction -/
  tx : v.tx = .none
  /-- it has found the files -/
  listed : listed v.trace = files
  /-- it has turned to the first of them -/
  attempted : attempted v.trace = done
  /-- and passed these -/
  passed : ∀ file ∈ done, file ∈ passed v.trace
  /-- and no other was to be committed -/
  committed : ∀ file ∈ committed v.trace, file ∈ done

theorem Between.orderly {files done rest : List String} (h : Between files done v)
    (hfiles : files = done ++ rest) : Orderly v.trace where
  order := by
    rw [h.attempted, h.listed, hfiles]
    exact List.prefix_append done rest
  stops := fun file hf => by
    rw [h.attempted] at hf
    exact h.passed file (List.dropLast_subset _ hf)

/-- What is left when the loop over the files ends. -/
structure Looped (v : View) (r : Except MigrationError (List String)) (v' : View) : Prop where
  /-- the connection of the lock is checked out -/
  lockClient : v'.lockClient = v.lockClient
  /-- and the lock is held -/
  locked : v'.locked = v.locked
  /-- no other connection is checked out -/
  client : v'.client = none
  /-- there is no transaction -/
  tx : v'.tx = .none
  /-- the files were passed in order -/
  orderly : Orderly v'.trace
  /-- a file whose checksum does not match was not to be committed -/
  mismatch : ∀ file expected actual free,
    r = .error (.checksumMismatch file expected actual free) → file ∉ committed v'.trace

/-- A run at a file. -/
structure At (files done : List String) (file : String) (v : View) : Prop where
  /-- it has the connection of the lock -/
  lockClient : v.lockClient ≠ none
  /-- and no transaction -/
  tx : v.tx = .none
  /-- it has found the files -/
  listed : listed v.trace = files
  /-- it has turned to the first of them and then to this one -/
  attempted : attempted v.trace = done ++ [file]
  /-- it has passed those before -/
  passed : ∀ file ∈ done, file ∈ passed v.trace
  /-- and no file after it was to be committed -/
  committed : ∀ f ∈ committed v.trace, f ∈ done ∨ f = file

section File

variable {files done rest : List String} {file : String}

theorem At.orderly (h : At files done file v) (hfiles : files = done ++ file :: rest) :
    Orderly v.trace where
  order := by
    rw [h.attempted, h.listed, hfiles]
    exact (List.prefix_append_right_inj done).mpr (List.prefix_append [file] rest)
  stops := fun f hf => by
    rw [h.attempted, List.dropLast_concat] at hf
    exact h.passed f hf

/-- A run stays at a file. -/
theorem At.within {v' : View} (h : At files done file v) (hw : Within [file] v.trace v'.trace)
    (hlock : v'.lockClient = v.lockClient) (htx : v'.tx = .none) : At files done file v' where
  lockClient := by
    rw [hlock]
    exact h.lockClient
  tx := htx
  listed := hw.listed.trans h.listed
  attempted := hw.attempted.trans h.attempted
  passed := fun f hf => hw.passed f (h.passed f hf)
  committed := fun f hf => (hw.committed f hf).elim (h.committed f)
    fun hf => .inr (List.mem_singleton.mp hf)

/-- A run that has passed a file is between two. -/
theorem At.between (h : At files done file v) (hclient : v.client = none)
    (hpassed : file ∈ Migrations.passed v.trace) : Between files (done ++ [file]) v where
  lockClient := h.lockClient
  client := hclient
  tx := h.tx
  listed := h.listed
  attempted := h.attempted
  passed := fun f hf => by
    rcases List.mem_append.mp hf with hf | hf
    · exact h.passed f hf
    · rw [List.mem_singleton.mp hf]
      exact hpassed
  committed := fun f hf => List.mem_append.mpr ((h.committed f hf).imp_right List.mem_singleton.mpr)

/-- The file is read. -/
theorem Between.readFile {r : Except MigrationError String} (h : Between files done v) :
    At files done file (v.after (.readFile file) r) where
  lockClient := h.lockClient
  tx := h.tx
  listed := by
    change Migrations.listed (v.trace ++ _) = _
    simpa [Migrations.listed, Event.listed] using h.listed
  attempted := by
    change Migrations.attempted (v.trace ++ _) = _
    rw [attempted_append, h.attempted]
    rfl
  passed := fun f hf => by
    change f ∈ Migrations.passed (v.trace ++ _)
    rw [passed_append]
    exact List.mem_append_left _ (h.passed f hf)
  committed := fun f hf => by
    rw [committed_after rfl] at hf
    exact .inl (h.committed f hf)

/-- What one turn of the loop leaves. -/
structure Turned (files done : List String) (file : String) (v : View)
    (r : Except MigrationError Bool) (v' : View) : Prop where
  /-- the connection of the lock is checked out -/
  lockClient : v'.lockClient = v.lockClient
  /-- and the lock is held -/
  locked : v'.locked = v.locked
  /-- no other connection is checked out -/
  client : v'.client = none
  /-- the run is at the file -/
  at_file : At files done file v'
  /-- without an error the file was passed -/
  ok : ∀ applied, r = .ok applied → file ∈ passed v'.trace
  /-- where its checksum does not match, it was not to be committed -/
  mismatch : ∀ version expected actual free,
    r = .error (.checksumMismatch version expected actual free) →
      version = file ∧ file ∉ committed v'.trace

/-- One turn of the loop. -/
theorem runs_applyFile (rt : Runtime) (h : Between files done v)
    (hfiles : files = done ++ file :: rest) (hnot : file ∉ done) :
    Runs (applyFile rt files file) (Turned files done file v) v := by
  rw [applyFile]
  refine runs_ask_bind (h.orderly hfiles) trivial (fun sql _ => ?_)
    fun message =>
      ⟨rfl, rfl, h.client, h.readFile, fun _ h => (nomatch h), fun _ _ _ _ h => nomatch h⟩
  have hat₁ : At files done file (v.after (.readFile file) (.ok sql)) := h.readFile
  have hnot₁ : file ∉ committed (v.after (.readFile file) (.ok sql)).trace := by
    rw [committed_after rfl]
    exact fun hf => hnot (h.committed file hf)
  have hlock₁ : (v.after (.readFile file) (.ok sql)).lockClient = v.lockClient := rfl
  have hlocked₁ : (v.after (.readFile file) (.ok sql)).locked = v.locked := rfl
  have hclient₁ : (v.after (.readFile file) (.ok sql)).client = none := h.client
  generalize v.after (.readFile file) (.ok sql) = v₁ at *
  have hconnect : ∀ r : Except MigrationError Nat,
      Within [file] v₁.trace (v₁.after .connect r).trace := fun r =>
    Within.append rfl rfl (by simp [Event.committed])
  refine runs_ask_bind (hat₁.orderly hfiles)
    ⟨hclient₁, hat₁.tx, fun hn => (hat₁.lockClient hn).elim⟩
    (fun client _ => ?_) fun message => ?_
  · have hlock₂ : (v₁.after .connect (.ok client)).lockClient = v₁.lockClient := by
      simp [View.after, View.change, hat₁.lockClient]
    have hlocked₂ : (v₁.after .connect (.ok client)).locked = v₁.locked := by
      simp [View.after, View.change, hat₁.lockClient]
    have hclient₂ : (v₁.after .connect (.ok client)).client = some client := by
      simp [View.after, View.change, hat₁.lockClient]
    have htx₂ : (v₁.after .connect (.ok client)).tx = .none := by
      simp [View.after, View.change, hat₁.lockClient, hat₁.tx]
    have hat₂ := hat₁.within (hconnect (.ok client)) hlock₂ htx₂
    have hnot₂ : file ∉ committed (v₁.after .connect (.ok client)).trace := by
      rw [committed_after rfl]
      exact hnot₁
    generalize v₁.after .connect (.ok client) = v₂ at *
    refine Prog.Meets.finallyDo (runs_applyMigration (hat₂.orderly hfiles) hclient₂ htx₂) ?_
    rintro r v' ⟨htried, htx'⟩
    have hat' := hat₂.within htried.inside.within htried.inside.lockClient htx'
    have hclient' : v'.client = some client := htried.inside.client.trans hclient₂
    -- the release is the same whatever it is answered
    have hturned : ∀ answer : Except MigrationError Unit,
        Turned files done file v r (v'.after (.release client) answer) := by
      intro answer
      have hw : Within [file] v'.trace (v'.after (.release client) answer).trace :=
        Within.append rfl rfl (by simp [Event.committed])
      have hlock : (v'.after (.release client) answer).lockClient = v'.lockClient := by
        simp [View.after, View.change, hclient']
      refine ⟨?_, ?_, ?_, hat'.within hw hlock ?_, fun applied hr => ?_, ?_⟩
      · rw [hlock, htried.inside.lockClient, hlock₂, hlock₁]
      · simp [View.after, View.change, hclient', htried.inside.locked, hlocked₂, hlocked₁]
      · simp [View.after, View.change, hclient']
      · simp [View.after, View.change, hclient', htx']
      · exact hw.passed file (htried.ok applied hr).2
      · intro version expected actual free hr
        obtain ⟨rfl, hcommitted⟩ := htried.error _ hr version expected actual free rfl
        refine ⟨rfl, ?_⟩
        rw [committed_after rfl, hcommitted]
        exact hnot₂
    refine runs_ask (hat'.orderly hfiles) (.inl ⟨hclient', htx'⟩) (fun _ _ => ?_) fun message => ?_
    · exact ⟨fun _ => hturned _, fun _ h => (nomatch h)⟩
    · refine ⟨fun h => (nomatch h), fun e he => ?_⟩
      obtain rfl := Except.error.inj he
      have h := hturned (.error (.failed message))
      exact ⟨h.lockClient, h.locked, h.client, h.at_file, fun _ h => (nomatch h),
        fun _ _ _ _ h => nomatch h⟩
  · refine ⟨hlock₁, hlocked₁, hclient₁, hat₁.within (hconnect _) rfl hat₁.tx,
      fun _ h => (nomatch h), fun _ _ _ _ h => nomatch h⟩

/-- **The loop over the files.** -/
theorem runs_applyFiles (rt : Runtime) (h : Between files done v) (hfiles : files = done ++ rest)
    (hn : files.Nodup) : Runs (applyFiles rt files rest) (Looped v) v := by
  induction rest generalizing done v with
  | nil => exact ⟨rfl, rfl, h.client, h.tx, h.orderly hfiles, fun _ _ _ _ h => nomatch h⟩
  | cons file rest ih =>
    have hnot : file ∉ done := by
      rw [hfiles, List.nodup_append] at hn
      exact fun hf => hn.2.2 file hf file List.mem_cons_self rfl
    rw [applyFiles]
    refine (runs_applyFile rt h hfiles hnot).bind (fun applied v₁ h₁ => ?_) fun error v₁ h₁ => ?_
    · have hbetween := h₁.at_file.between h₁.client (h₁.ok applied rfl)
      have hloop := ih hbetween (by rw [hfiles, List.append_assoc, List.singleton_append])
      refine hloop.bind (fun later v₂ h₂ => ?_) fun error v₂ h₂ => ?_
      · exact ⟨h₂.lockClient.trans h₁.lockClient, h₂.locked.trans h₁.locked, h₂.client, h₂.tx,
          h₂.orderly, fun _ _ _ _ h => nomatch h⟩
      · exact ⟨h₂.lockClient.trans h₁.lockClient, h₂.locked.trans h₁.locked, h₂.client, h₂.tx,
          h₂.orderly, h₂.mismatch⟩
    · refine ⟨h₁.lockClient, h₁.locked, h₁.client, h₁.at_file.tx, h₁.at_file.orderly hfiles, ?_⟩
      intro f expected actual free hr
      obtain rfl := Except.error.inj hr
      obtain ⟨rfl, hcommitted⟩ := h₁.mismatch f expected actual free rfl
      exact hcommitted

end File

/-! ## The run -/

/-- A trace before the directory is read. -/
structure Fresh (trace : List Event) : Prop where
  /-- no file was found -/
  listed : trace.findSome? Event.listed = none
  /-- or turned to -/
  attempted : attempted trace = []
  /-- or was to be committed -/
  committed : committed trace = []

theorem Fresh.orderly {trace : List Event} (h : Fresh trace) : Orderly trace where
  order := by
    rw [h.attempted]
    exact List.nil_prefix
  stops := fun file hf => by
    rw [h.attempted] at hf
    cases hf

/-- Most calls leave a trace fresh. -/
theorem Fresh.append {trace : List Event} {e : Event} (h : Fresh trace) (ha : e.attempted = none)
    (hl : e.listed = none) (hc : e.committed = none) : Fresh (trace ++ [e]) where
  listed := by simp [h.listed, hl]
  attempted := by rw [attempted_append, h.attempted, ha, Option.toList_none, List.append_nil]
  committed := by rw [committed_append, h.committed, hc, Option.toList_none, List.append_nil]

/-- A run that has not read the directory. -/
structure Early (lockClient : Nat) (locked : Option Int) (v : View) : Prop where
  /-- it has the connection of the lock -/
  lockClient : v.lockClient = some lockClient
  /-- the lock, or not -/
  locked : v.locked = locked
  /-- no other connection -/
  client : v.client = none
  /-- no transaction -/
  tx : v.tx = .none
  /-- and has done nothing else -/
  fresh : Fresh v.trace

theorem Early.after {lockClient : Nat} {locked locked' : Option Int} (h : Early lockClient locked v)
    {r : Except MigrationError call.Reply} (hlock : (v.after call r).lockClient = v.lockClient)
    (hlocked : (v.after call r).locked = locked') (hclient : (v.after call r).client = v.client)
    (htx : (v.after call r).tx = v.tx) (ha : Event.attempted ⟨call, r⟩ = none)
    (hl : Event.listed ⟨call, r⟩ = none) (hc : Event.committed ⟨call, r⟩ = none) :
    Early lockClient locked' (v.after call r) :=
  ⟨hlock.trans h.lockClient, hlocked, hclient.trans h.client, htx.trans h.tx,
    h.fresh.append ha hl hc⟩

/-- What `acquireAdvisoryLock` leaves: without an error the lock is taken, else it is not. -/
structure Acquired (lockClient : Nat) (lockKey : Int) (r : Except MigrationError Unit)
    (v : View) : Prop where
  /-- the lock is taken -/
  ok : r = .ok () → Early lockClient (some lockKey) v
  /-- it is not -/
  error : ∀ error, r = .error error → Early lockClient none v ∧
    ∀ version expected actual free, error ≠ .checksumMismatch version expected actual free

theorem acquired_failed {lockClient : Nat} {lockKey : Int} {message : String}
    (h : Early lockClient none v) :
    Acquired lockClient lockKey (.error (.failed message)) v := by
  refine ⟨fun h => (nomatch h), fun _ he => ?_⟩
  obtain rfl := Except.error.inj he
  exact ⟨h, fun _ _ _ _ h => nomatch h⟩

/-- The loop of `acquireAdvisoryLock`. -/
theorem runs_lockLoop {lockClient timeoutMs deadline retryDelayMs rounds : Nat} {lockKey : Int}
    (h : Early lockClient none v) :
    Runs (lockLoop lockClient lockKey timeoutMs deadline retryDelayMs rounds)
      (Acquired lockClient lockKey) v := by
  induction rounds generalizing v with
  | zero =>
    refine runs_ask h.fresh.orderly trivial (fun _ hr => hr.elim) fun message => ?_
    exact acquired_failed (h.after rfl h.locked rfl rfl rfl rfl rfl)
  | succ rounds ih =>
    rw [lockLoop]
    refine runs_ask_bind h.fresh.orderly ⟨h.lockClient, h.locked, h.client⟩ (fun locked _ => ?_)
      fun message => acquired_failed (h.after rfl h.locked rfl rfl rfl rfl rfl)
    cases locked with
    | true =>
      exact ⟨fun _ => h.after rfl rfl rfl rfl rfl rfl rfl, fun _ h => (nomatch h)⟩
    | false =>
      have h₁ : Early lockClient none
          (v.after (.tryAdvisoryLock lockClient lockKey) (.ok false)) :=
        h.after rfl h.locked rfl rfl rfl rfl rfl
      generalize v.after (.tryAdvisoryLock lockClient lockKey) (.ok false) = v₁ at *
      refine runs_ask_bind h₁.fresh.orderly trivial (fun now _ => ?_)
        fun message => acquired_failed (h₁.after rfl h₁.locked rfl rfl rfl rfl rfl)
      have h₂ : Early lockClient none (v₁.after .clock (.ok now)) :=
        h₁.after rfl h₁.locked rfl rfl rfl rfl rfl
      generalize v₁.after .clock (.ok now) = v₂ at *
      by_cases hnow : now ≥ deadline
      · rw [if_pos hnow]
        refine ⟨fun h => (nomatch h), fun _ he => ?_⟩
        obtain rfl := Except.error.inj he
        exact ⟨h₂, fun _ _ _ _ h => nomatch h⟩
      · rw [if_neg hnow]
        refine runs_ask_bind h₂.fresh.orderly trivial (fun _ _ => ?_)
          fun message => acquired_failed (h₂.after rfl h₂.locked rfl rfl rfl rfl rfl)
        exact ih (h₂.after rfl h₂.locked rfl rfl rfl rfl rfl)

/-- `acquireAdvisoryLock`. -/
theorem runs_acquireAdvisoryLock {lockClient timeoutMs retryDelayMs rounds : Nat} {lockKey : Int}
    (h : Early lockClient none v) :
    Runs (acquireAdvisoryLock lockClient lockKey timeoutMs retryDelayMs rounds)
      (Acquired lockClient lockKey) v := by
  rw [acquireAdvisoryLock]
  refine runs_ask_bind h.fresh.orderly trivial (fun now _ => ?_)
    fun message => acquired_failed (h.after rfl h.locked rfl rfl rfl rfl rfl)
  exact runs_lockLoop (h.after rfl h.locked rfl rfl rfl rfl rfl)

/-- No file is found twice. -/
theorem nodup_listMigrationFiles (directory : Directory) :
    (listMigrationFiles directory).Nodup := by
  rw [listMigrationFiles, (List.perm_insertionSort _ _).nodup_iff]
  exact directory.nodup.sublist (List.Sublist.map _ List.filter_sublist)

/-- The files are found in the order of their names. -/
theorem pairwise_listMigrationFiles (directory : Directory) :
    (listMigrationFiles directory).Pairwise fun a b => nameLe a b = true := by
  have : Std.Total fun a b : String => nameLe a b = true :=
    ⟨fun _ _ => CanonicalLink.lexLe_total _ _⟩
  have : IsTrans String fun a b => nameLe a b = true :=
    ⟨fun _ _ _ hab hbc => CanonicalLink.lexLe_trans hab hbc⟩
  exact List.pairwise_insertionSort _ _

/-- A run that is in order turns to files in the order of their names, and to none twice. -/
theorem Orderly.pairwise {trace : List Event} (h : Orderly trace) :
    (attempted trace).Pairwise fun a b => nameLe a b = true ∧ a ≠ b := by
  refine List.Pairwise.sublist h.order.sublist ?_
  rw [listed]
  rcases hlisted : trace.findSome? Event.listed with _ | files
  · exact List.Pairwise.nil
  obtain ⟨e, -, he⟩ := List.exists_of_findSome?_eq_some hlisted
  rcases e with ⟨call, answer⟩
  cases call with
  | readdir =>
    cases answer with
    | ok directory =>
      obtain rfl := Option.some.inj he
      exact (pairwise_listMigrationFiles directory).and (nodup_listMigrationFiles directory)
    | error error => cases he
  | _ => cases he

/-- A run that ends before it has read the directory. -/
theorem Early.looped {lockClient : Nat} {locked : Option Int} {v' : View} {message : String}
    (h : Early lockClient locked v) (h' : Early lockClient locked v') :
    Looped v (.error (.failed message)) v' :=
  ⟨h'.lockClient.trans h.lockClient.symm, h'.locked.trans h.locked.symm, h'.client, h'.tx,
    h'.fresh.orderly, fun _ _ _ _ h => nomatch h⟩

/-- What is done under the lock. -/
theorem runs_applyLocked (rt : Runtime) {lockClient : Nat} {locked : Option Int}
    (h : Early lockClient locked v) : Runs (applyLocked rt) (Looped v) v := by
  rw [applyLocked, ensureMigrationsTable, bind_assoc]
  refine runs_ask_bind h.fresh.orderly trivial (fun _ _ => ?_)
    fun message => h.looped (h.after rfl h.locked rfl rfl rfl rfl rfl)
  have h₁ : Early lockClient locked (v.after .createTable (.ok ())) :=
    h.after rfl h.locked rfl rfl rfl rfl rfl
  generalize v.after .createTable (.ok ()) = v₁ at *
  refine runs_ask_bind h₁.fresh.orderly trivial (fun _ _ => ?_)
    fun message => h.looped (h₁.after rfl h₁.locked rfl rfl rfl rfl rfl)
  have h₂ : Early lockClient locked (v₁.after .addColumn (.ok ())) :=
    h₁.after rfl h₁.locked rfl rfl rfl rfl rfl
  generalize v₁.after .addColumn (.ok ()) = v₂ at *
  refine runs_ask_bind h₂.fresh.orderly trivial (fun directory _ => ?_)
    fun message => h.looped (h₂.after rfl h₂.locked rfl rfl rfl rfl rfl)
  have hbetween : Between (listMigrationFiles directory) [] (v₂.after .readdir (.ok directory)) :=
    { lockClient := by
        change v₂.lockClient ≠ none
        rw [h₂.lockClient]
        exact Option.some_ne_none lockClient
      client := h₂.client
      tx := h₂.tx
      listed := by
        change Migrations.listed (v₂.trace ++ _) = _
        simp [Migrations.listed, h₂.fresh.listed, Event.listed]
      attempted := by
        change Migrations.attempted (v₂.trace ++ _) = _
        rw [attempted_append, h₂.fresh.attempted]
        rfl
      passed := fun _ hf => nomatch hf
      committed := fun file hf => by
        rw [committed_after rfl, h₂.fresh.committed] at hf
        exact hf }
  refine (runs_applyFiles rt hbetween rfl (nodup_listMigrationFiles directory)).mono
    fun r v' hr => ?_
  exact ⟨hr.lockClient.trans (h₂.lockClient.trans h.lockClient.symm),
    hr.locked.trans (h₂.locked.trans h.locked.symm), hr.client, hr.tx, hr.orderly, hr.mismatch⟩

/-- **What a run leaves when it ends**, normally or by throwing. -/
structure Finished (r : Except MigrationError (List String)) (v : View) : Prop where
  /-- the connection of the lock was released -/
  lockClient : v.lockClient = none
  /-- and that of the file -/
  client : v.client = none
  /-- the files were passed in order -/
  orderly : Orderly v.trace
  /-- a file whose checksum does not match was not to be committed -/
  mismatch : ∀ file expected actual free,
    r = .error (.checksumMismatch file expected actual free) → file ∉ committed v.trace

/-- What is left before the connection of the lock is released. -/
structure Unlocked (lockClient : Nat) (r : Except MigrationError (List String)) (v : View) :
    Prop where
  /-- the connection of the lock is checked out -/
  lockClient : v.lockClient = some lockClient
  /-- the lock is not held -/
  locked : v.locked = none
  /-- no other connection is checked out -/
  client : v.client = none
  /-- the files were passed in order -/
  orderly : Orderly v.trace
  /-- a file whose checksum does not match was not to be committed -/
  mismatch : ∀ file expected actual free,
    r = .error (.checksumMismatch file expected actual free) → file ∉ committed v.trace

/-- The release of the connection of the lock, whatever it is answered. -/
theorem finished_release {lockClient : Nat} {r : Except MigrationError (List String)}
    {answer : Except MigrationError Unit} (h : Unlocked lockClient r v) :
    Finished r (v.after (.release lockClient) answer) where
  lockClient := by simp [View.after, View.change, h.client]
  client := by simp [View.after, View.change, h.client]
  orderly := h.orderly.within (quiet_append rfl rfl rfl)
  mismatch := fun file expected actual free hr => by
    rw [committed_after rfl]
    exact h.mismatch file expected actual free hr

/-- The release of the lock, whatever it is answered. -/
theorem unlocked_unlock {lockClient : Nat} {lockKey : Int} {v₀ : View}
    {r : Except MigrationError (List String)} {answer : Except MigrationError Unit}
    (h₀ : v₀.lockClient = some lockClient) (h : Looped v₀ r v) :
    Unlocked lockClient r (v.after (.advisoryUnlock lockClient lockKey) answer) where
  lockClient := h.lockClient.trans h₀
  locked := rfl
  client := h.client
  orderly := h.orderly.within (quiet_append rfl rfl rfl)
  mismatch := fun file expected actual free hr => by
    rw [committed_after rfl]
    exact h.mismatch file expected actual free hr

/-- What is done with the connection of the lock. -/
theorem runs_withLock (rt : Runtime) {lockClient timeoutMs retryDelayMs rounds : Nat}
    {lockKey : Int} (h : Early lockClient none v) :
    Runs (do
        acquireAdvisoryLock lockClient lockKey timeoutMs retryDelayMs rounds
        Prog.finallyDo (applyLocked rt) (ask (.advisoryUnlock lockClient lockKey)))
      (Unlocked lockClient) v := by
  refine (runs_acquireAdvisoryLock h).bind (fun _ v₁ h₁ => ?_) fun error v₁ h₁ => ?_
  · have hearly := h₁.ok rfl
    refine Prog.Meets.finallyDo (runs_applyLocked rt hearly) fun r v₂ h₂ => ?_
    refine runs_ask h₂.orderly
      ⟨h₂.lockClient.trans hearly.lockClient, h₂.locked.trans hearly.locked, h₂.client⟩
      (fun _ _ => ⟨fun _ => unlocked_unlock hearly.lockClient h₂, fun _ h => (nomatch h)⟩)
      fun message => ⟨fun h => (nomatch h), fun error he => ?_⟩
    obtain rfl := Except.error.inj he
    have hunlocked : Unlocked lockClient r
        (v₂.after (.advisoryUnlock lockClient lockKey) (.error (.failed message))) :=
      unlocked_unlock hearly.lockClient h₂
    exact ⟨hunlocked.lockClient, hunlocked.locked, hunlocked.client, hunlocked.orderly,
      fun _ _ _ _ h => nomatch h⟩
  · obtain ⟨hearly, hm⟩ := h₁.error error rfl
    refine ⟨hearly.lockClient, hearly.locked, hearly.client, hearly.fresh.orderly, ?_⟩
    intro file expected actual free hr
    exact (hm file expected actual free (Except.error.inj hr)).elim

/-- **Every execution of `applyMigrations` follows the protocol.** -/
theorem runs_applyMigrations (rt : Runtime) (options : ApplyMigrationsOptions) (rounds : Nat) :
    Runs (applyMigrations rt options rounds) Finished View.initial := by
  have hfresh : Fresh View.initial.trace := ⟨rfl, rfl, rfl⟩
  rw [applyMigrations]
  refine runs_ask_bind hfresh.orderly ⟨rfl, rfl, fun _ => rfl⟩ (fun lockClient _ => ?_)
    fun message => ?_
  · have h₁ : Early lockClient none (View.initial.after .connect (.ok lockClient)) :=
      ⟨rfl, rfl, rfl, rfl, hfresh.append rfl rfl rfl⟩
    generalize View.initial.after .connect (.ok lockClient) = v₁ at *
    refine Prog.Meets.finallyDo (runs_withLock rt h₁) fun r v₂ h₂ => ?_
    refine runs_ask h₂.orderly (.inr ⟨h₂.client, h₂.lockClient, h₂.locked⟩)
      (fun _ _ => ⟨fun _ => finished_release h₂, fun _ h => (nomatch h)⟩)
      fun message => ⟨fun h => (nomatch h), fun error he => ?_⟩
    obtain rfl := Except.error.inj he
    have hfinished : Finished r (v₂.after (.release lockClient) (.error (.failed message))) :=
      finished_release h₂
    exact ⟨hfinished.lockClient, hfinished.client, hfinished.orderly, fun _ _ _ _ h => nomatch h⟩
  · exact ⟨rfl, rfl, (hfresh.append rfl rfl rfl).orderly, fun _ _ _ _ h => nomatch h⟩

end Migrations

end Feedpulse
