import Feedpulse.CanonicalLink
import Feedpulse.Program
import Feedpulse.Table
import Feedpulse.Transition
import Mathlib.Logic.Function.Basic

/-!
# Applying the migrations

`applyMigrations` as a program over the statements it issues, and the system in which any number
of its runs share a database: sessions with their transactions and advisory locks, connections
that are checked out of a pool, lost or refused at any statement, and processes that crash. What
the runner prints is left out.
-/

namespace Feedpulse

namespace Migrations

/-! ## Files -/

/-- An entry of a directory. -/
structure DirEntry where
  /-- its name -/
  name : String
  /-- whether it is a file -/
  isFile : Bool
  /-- what the file holds -/
  content : String
  deriving DecidableEq, Repr

/-- A directory: no two of its entries have one name. -/
structure Directory where
  /-- the entries, in the order of the file system -/
  entries : List DirEntry
  /-- their names differ -/
  nodup : (entries.map DirEntry.name).Nodup

/-- `a` is not after `b` in the order of `Array.prototype.sort`. -/
def nameLe (a b : String) : Bool := CanonicalLink.unitsLe a.toList b.toList

/-- `listMigrationFiles`. -/
def listMigrationFiles (directory : Directory) : List String :=
  ((directory.entries.filter fun entry =>
    entry.isFile && ".sql".toList.isSuffixOf entry.name.toList).map DirEntry.name).insertionSort
      fun a b => nameLe a b

/-- `sql.replace(/\r\n/g, '\n')`. -/
def unixLines : List Char → List Char
  | '\r' :: '\n' :: cs => '\n' :: unixLines cs
  | c :: cs => c :: unixLines cs
  | [] => []

/-- `computeMigrationChecksum`. -/
def computeMigrationChecksum (rt : Runtime) (sql : String) : String :=
  rt.sha256Hex (String.ofList (unixLines sql.toList))

/-- The number a file name begins with: `/^(\d+)/`. -/
def versionNumber (file : String) : Option Nat :=
  let digits := file.toList.takeWhile Char.isDigit
  if digits = [] then none
  else some (digits.foldl (fun n c => 10 * n + (c.toNat - '0'.toNat)) 0)

/-- `padStart(width, '0')`. -/
def padStart (width : Nat) (text : String) : String :=
  String.ofList (List.replicate (width - text.length) '0') ++ text

/-- `nextFreeVersion`. -/
def nextFreeVersion (files : List String) : String :=
  let highest := files.foldl (fun highest file => max highest ((versionNumber file).getD 0)) 0
  padStart 4 (toString (highest + 1)) ++ "_<describe_your_change>.sql"

/-! ## Calls -/

/-- What a run can throw. -/
inductive MigrationError
  /-- `MigrationLockTimeoutError` -/
  | lockTimeout (lockKey : Int) (timeoutMs : Nat)
  /-- `MigrationChecksumMismatchError` -/
  | checksumMismatch (version expectedChecksum actualChecksum nextFreeVersion : String)
  /-- the error of a statement, of a connection or of the file system -/
  | failed (message : String)
  deriving DecidableEq, Repr

/-- What a run asks of its environment. A client is the number of a connection. `COMMIT` and
`ROLLBACK` name the file whose transaction they end for the record only. -/
inductive MigrationCall
  /-- `pool.connect()` -/
  | connect
  /-- `client.release()` -/
  | release (client : Nat)
  /-- `SELECT pg_try_advisory_lock($1) AS locked` -/
  | tryAdvisoryLock (client : Nat) (lockKey : Int)
  /-- `SELECT pg_advisory_unlock($1)` -/
  | advisoryUnlock (client : Nat) (lockKey : Int)
  /-- `Date.now()` -/
  | clock
  /-- `delay(ms)` -/
  | delay (ms : Nat)
  /-- what is never answered -/
  | forever
  /-- `CREATE TABLE IF NOT EXISTS schema_migrations` -/
  | createTable
  /-- `ALTER TABLE schema_migrations ADD COLUMN IF NOT EXISTS checksum` -/
  | addColumn
  /-- `readdir(migrationsDir)` -/
  | readdir
  /-- `readFile(join(migrationsDir, file))` -/
  | readFile (file : String)
  /-- `BEGIN` -/
  | begin (client : Nat)
  /-- `INSERT INTO schema_migrations … ON CONFLICT (version) DO NOTHING` -/
  | claim (client : Nat) (file checksum : String)
  /-- `SELECT checksum FROM schema_migrations WHERE version = $1` -/
  | recorded (client : Nat) (file : String)
  /-- `UPDATE schema_migrations SET checksum = $2 WHERE version = $1 AND checksum IS NULL` -/
  | backfill (client : Nat) (file checksum : String)
  /-- the SQL of the file -/
  | body (client : Nat) (file sql : String)
  /-- `COMMIT` -/
  | commit (client : Nat) (file : String)
  /-- `ROLLBACK` -/
  | rollback (client : Nat) (file : String)
  deriving DecidableEq, Repr

/-- What a call is answered. -/
abbrev MigrationCall.Reply : MigrationCall → Type
  | .connect => Nat
  | .tryAdvisoryLock .. => Bool
  | .clock => Nat
  | .readdir => Directory
  | .readFile _ => String
  | .claim .. => Nat
  | .recorded .. => Option (Option String)
  | _ => Unit

/-- The connection a statement is sent on. -/
def MigrationCall.client? : MigrationCall → Option Nat
  | .tryAdvisoryLock client _ | .advisoryUnlock client _ | .begin client | .claim client _ _
  | .recorded client _ | .backfill client _ _ | .body client _ _ | .commit client _
  | .rollback client _ => some client
  | _ => none

/-- Whether a statement can fail while its connection stays. -/
def MigrationCall.canFail : MigrationCall → Bool
  | .rollback .. | .advisoryUnlock .. => false
  | _ => true

/-- A program of the runner. -/
abbrev MigrationProgram (α : Type) := Prog MigrationError MigrationCall MigrationCall.Reply α

/-- A call whose error propagates. -/
def ask (c : MigrationCall) : MigrationProgram c.Reply := Prog.invoke c

/-! ## The runner -/

/-- `MIGRATIONS_ADVISORY_LOCK_KEY`. -/
def migrationsAdvisoryLockKey : Int := 728314509

/-- `DEFAULT_LOCK_TIMEOUT_MS`. -/
def defaultLockTimeoutMs : Nat := 60000

/-- `DEFAULT_LOCK_RETRY_DELAY_MS`. -/
def defaultLockRetryDelayMs : Nat := 500

/-- `ApplyMigrationsOptions`. -/
structure ApplyMigrationsOptions where
  /-- the key of the advisory lock -/
  lockKey : Option Int
  /-- how long another process is waited for -/
  lockTimeoutMs : Option Nat
  /-- how long between two attempts -/
  lockRetryDelayMs : Option Nat
  deriving DecidableEq, Repr

/-- The loop of `acquireAdvisoryLock`. A run that would go through it more than `rounds` times
waits forever. -/
def lockLoop (client : Nat) (lockKey : Int) (timeoutMs deadline retryDelayMs : Nat) :
    Nat → MigrationProgram Unit
  | 0 => ask .forever
  | rounds + 1 => do
    let locked ← ask (.tryAdvisoryLock client lockKey)
    if locked then pure ()
    else
      let now ← ask .clock
      if now ≥ deadline then throw (.lockTimeout lockKey timeoutMs)
      else
        ask (.delay retryDelayMs)
        lockLoop client lockKey timeoutMs deadline retryDelayMs rounds

/-- `acquireAdvisoryLock`. -/
def acquireAdvisoryLock (client : Nat) (lockKey : Int) (timeoutMs retryDelayMs rounds : Nat) :
    MigrationProgram Unit := do
  let now ← ask .clock
  lockLoop client lockKey timeoutMs (now + timeoutMs) retryDelayMs rounds

/-- `ensureMigrationsTable`. -/
def ensureMigrationsTable : MigrationProgram Unit := do
  ask .createTable
  ask .addColumn

/-- The body of the `try` block of `applyMigration`. -/
def claimAndApply (client : Nat) (file sql checksum : String) (files : List String) :
    MigrationProgram Bool := do
  let rowCount ← ask (.claim client file checksum)
  if rowCount = 0 then
    let recorded ← ask (.recorded client file)
    match recorded.join with
    | none => ask (.backfill client file checksum)
    | some storedChecksum =>
      if storedChecksum ≠ checksum then
        throw (.checksumMismatch file storedChecksum checksum (nextFreeVersion files))
    ask (.commit client file)
    pure false
  else
    ask (.body client file sql)
    ask (.commit client file)
    pure true

/-- `applyMigration`. -/
def applyMigration (client : Nat) (file sql checksum : String) (files : List String) :
    MigrationProgram Bool := do
  ask (.begin client)
  tryCatch (claimAndApply client file sql checksum files) fun error => do
    ask (.rollback client file)
    throw error

/-- One turn of the loop over the files: whether the file was applied. -/
def applyFile (rt : Runtime) (files : List String) (file : String) : MigrationProgram Bool := do
  let sql ← ask (.readFile file)
  let client ← ask .connect
  Prog.finallyDo
    (applyMigration client file sql (computeMigrationChecksum rt sql) files)
    (ask (.release client))

/-- The loop over the files. -/
def applyFiles (rt : Runtime) (files : List String) : List String → MigrationProgram (List String)
  | [] => pure []
  | file :: rest => do
    let applied ← applyFile rt files file
    let later ← applyFiles rt files rest
    pure (if applied then file :: later else later)

/-- What `applyMigrations` does with the lock. -/
def applyLocked (rt : Runtime) : MigrationProgram (List String) := do
  ensureMigrationsTable
  let directory ← ask .readdir
  let files := listMigrationFiles directory
  applyFiles rt files files

/-- `applyMigrations`. `locked` is true where the inner `finally` block runs. -/
def applyMigrations (rt : Runtime) (options : ApplyMigrationsOptions) (rounds : Nat) :
    MigrationProgram (List String) := do
  let lockKey := options.lockKey.getD migrationsAdvisoryLockKey
  let lockTimeoutMs := options.lockTimeoutMs.getD defaultLockTimeoutMs
  let lockRetryDelayMs := options.lockRetryDelayMs.getD defaultLockRetryDelayMs
  let lockClient ← ask .connect
  Prog.finallyDo
    (do
      acquireAdvisoryLock lockClient lockKey lockTimeoutMs lockRetryDelayMs rounds
      Prog.finallyDo (applyLocked rt) (ask (.advisoryUnlock lockClient lockKey)))
    (ask (.release lockClient))

/-! ## The database -/

/-- A row of `schema_migrations`. -/
structure MigrationRow where
  /-- primary key -/
  version : String
  /-- the checksum, if one was recorded -/
  checksum : Option String
  deriving DecidableEq, Repr

/-- What a transaction of the runner writes. -/
inductive Write
  /-- the row of a file is inserted -/
  | claim (file checksum : String)
  /-- a missing checksum is filled in -/
  | backfill (file checksum : String)
  /-- the SQL of a file has its effects on the schema -/
  | body (file sql : String)
  deriving DecidableEq, Repr

namespace Write

/-- The file a write is about. -/
def file : Write → String
  | claim file _ | backfill file _ | body file _ => file

/-- The file whose row a write inserts. -/
def claimed : Write → Option String
  | claim file _ => some file
  | _ => none

/-- The file whose checksum a write fills in. -/
def filled : Write → Option String
  | backfill file _ => some file
  | _ => none

/-- The file whose SQL a write is. -/
def executed : Write → Option String
  | body file _ => some file
  | _ => none

/-- What a write makes of `schema_migrations`. -/
def apply (rows : List MigrationRow) : Write → List MigrationRow
  | claim file checksum => rows ++ [{ version := file, checksum := some checksum }]
  | backfill file checksum =>
    Table.updateWhere (fun row => row.version = file && row.checksum = none)
      (fun row => { row with checksum := some checksum }) rows
  | body .. => rows

end Write

/-- The transaction of a session. -/
inductive Transaction
  /-- there is none -/
  | idle
  /-- what it has written so far -/
  | active (writes : List Write)
  /-- a statement has failed -/
  | aborted
  deriving DecidableEq, Repr

/-- A session. -/
structure Session where
  /-- its transaction -/
  tx : Transaction
  /-- the keys of the advisory locks it holds, with the run that took them -/
  locks : List (Int × Nat)
  deriving DecidableEq, Repr

namespace Session

/-- A session no one has used. -/
def clean : Session := { tx := .idle, locks := [] }

/-- What a session has written and not committed. -/
def writes (session : Session) : List Write :=
  match session.tx with
  | .active writes => writes
  | _ => []

/-- A session after a statement has failed. A `COMMIT` that fails ends the transaction. -/
def refuse (call : MigrationCall) (session : Session) : Session :=
  match call, session.tx with
  | .commit .., .active _ => { session with tx := .idle }
  | _, .active _ => { session with tx := .aborted }
  | _, _ => session

end Session

/-- A call with its answer. -/
structure Event where
  /-- the call -/
  call : MigrationCall
  /-- the answer -/
  answer : Except MigrationError call.Reply

/-- The system. The last two fields only record what has happened. -/
structure MigrationSystem where
  /-- whether table `schema_migrations` was created -/
  tableExists : Bool
  /-- its committed rows -/
  rows : List MigrationRow
  /-- the sessions of the connections that are open -/
  sessions : Nat → Option Session
  /-- the run that has checked a connection out -/
  owner : Nat → Option Nat
  /-- the number of the next connection -/
  nextClient : Nat
  /-- the directory of the migrations -/
  directory : Directory
  /-- the clock -/
  now : Nat
  /-- what each run still has to do -/
  runs : Nat → Option (MigrationProgram (List String))
  /-- the number of the next run -/
  nextRun : Nat
  /-- the calls of each run that were answered -/
  trace : Nat → List Event
  /-- the writes that were committed, with the run; the schema is what the SQL among them has
  made of it -/
  log : List (Nat × Write)

/-- How a call is answered. -/
inductive Outcome
  /-- as it should be -/
  | done
  /-- with a connection that was released before -/
  | reuse (client : Nat)
  /-- with an error, and the connection stays -/
  | refused
  /-- not at all: it takes effect, and then the connection is lost -/
  | unanswered
  deriving DecidableEq, Repr

namespace MigrationSystem

/-- Some session other than that of `client` is as `p` says. -/
def otherSession (s : MigrationSystem) (client : Nat) (p : Session → Bool) : Bool :=
  (List.range s.nextClient).any fun other =>
    other ≠ client && (s.sessions other).any p

/-- What `schema_migrations` is after some writes. -/
def visible (s : MigrationSystem) (writes : List Write) : List MigrationRow :=
  writes.foldl Write.apply s.rows

/-- The answer to a statement, what it makes of its session, and the writes it commits; none
while it has to wait for another transaction. Outside a transaction the statements of
`applyMigration` are not issued, and not modelled. -/
def execute (s : MigrationSystem) (run client : Nat) (session : Session) :
    (call : MigrationCall) →
      Option (Except MigrationError call.Reply × Session × List Write)
  | .tryAdvisoryLock _ lockKey =>
    if s.otherSession client fun other => other.locks.any fun lock => lock.1 = lockKey then
      some (.ok false, session, [])
    else some (.ok true, { session with locks := (lockKey, run) :: session.locks }, [])
  | .advisoryUnlock _ lockKey =>
    some (.ok (),
      { session with locks := session.locks.eraseP fun lock => lock.1 = lockKey }, [])
  | .begin _ =>
    match session.tx with
    | .idle => some (.ok (), { session with tx := .active [] }, [])
    | .active _ => some (.ok (), session, [])
    | .aborted => some (.error (.failed "current transaction is aborted"), session, [])
  | .claim _ file checksum =>
    match session.tx with
    | .active writes =>
      if !s.tableExists then
        some (.error (.failed "relation \"schema_migrations\" does not exist"),
          { session with tx := .aborted }, [])
      else if (s.visible writes).any fun row => row.version = file then
        some (.ok (0 : Nat), session, [])
      else if s.otherSession client fun other =>
          other.writes.any fun write => write.claimed = some file then none
      else some (.ok (1 : Nat),
        { session with tx := .active (writes ++ [.claim file checksum]) }, [])
    | _ => some (.error (.failed "current transaction is aborted"), session, [])
  | .recorded _ file =>
    match session.tx with
    | .active writes =>
      some (.ok (((s.visible writes).find? fun row => row.version = file).map
        MigrationRow.checksum), session, [])
    | _ => some (.error (.failed "current transaction is aborted"), session, [])
  | .backfill _ file checksum =>
    match session.tx with
    | .active writes =>
      if (s.visible writes).any fun row => row.version = file && row.checksum = none then
        if s.otherSession client fun other =>
            other.writes.any fun write => write.filled = some file then none
        else some (.ok (),
          { session with tx := .active (writes ++ [.backfill file checksum]) }, [])
      else some (.ok (), session, [])
    | _ => some (.error (.failed "current transaction is aborted"), session, [])
  | .body _ file sql =>
    match session.tx with
    | .active writes =>
      some (.ok (), { session with tx := .active (writes ++ [.body file sql]) }, [])
    | _ => some (.error (.failed "current transaction is aborted"), session, [])
  | .commit _ _ => some (.ok (), { session with tx := .idle }, session.writes)
  | .rollback _ _ => some (.ok (), { session with tx := .idle }, [])
  | _ => none

/-- The system after a statement of a run: the session of the connection, if it is still open,
and the writes that were committed. -/
def afterStatement (s : MigrationSystem) (run client : Nat) (session : Option Session)
    (writes : List Write) : MigrationSystem :=
  { s with
    sessions := Function.update s.sessions client session
    rows := s.visible writes
    log := s.log ++ writes.map fun write => (run, write) }

/-- The answer to a statement on a connection. `ROLLBACK` and the release of a lock fail with
their connection only. -/
def answerStatement (s : MigrationSystem) (run client : Nat) (call : MigrationCall)
    (outcome : Outcome) : Option (Except MigrationError call.Reply × MigrationSystem) :=
  match s.sessions client with
  | none => some (.error (.failed "Connection terminated"), s)
  | some session =>
    match outcome with
    | .done =>
      (s.execute run client session call).map fun (r, session', writes) =>
        (r, s.afterStatement run client (some session') writes)
    | .unanswered =>
      (s.execute run client session call).map fun (_, _, writes) =>
        (.error (.failed "Connection terminated unexpectedly"),
          s.afterStatement run client none writes)
    | .refused =>
      if call.canFail then
        some (.error (.failed "ERROR"),
          s.afterStatement run client (some (session.refuse call)) [])
      else none
    | .reuse _ => none

/-- The answer to another call. -/
def answerOther (s : MigrationSystem) (run : Nat) :
    (call : MigrationCall) → Outcome →
      Option (Except MigrationError call.Reply × MigrationSystem)
  | .connect, .done =>
    some (.ok s.nextClient,
      { s with
        sessions := Function.update s.sessions s.nextClient (some Session.clean)
        owner := Function.update s.owner s.nextClient (some run)
        nextClient := s.nextClient + 1 })
  | .connect, .reuse client =>
    if s.owner client = none && (s.sessions client).isSome then
      some (.ok client, { s with owner := Function.update s.owner client (some run) })
    else none
  | .release client, .done =>
    some (.ok (), { s with owner := Function.update s.owner client none })
  | .clock, .done => some (.ok s.now, s)
  | .delay _, .done => some (.ok (), s)
  | .createTable, .done => some (.ok (), { s with tableExists := true })
  | .createTable, .unanswered =>
    some (.error (.failed "Connection terminated unexpectedly"), { s with tableExists := true })
  | .addColumn, .done =>
    if s.tableExists then some (.ok (), s)
    else some (.error (.failed "relation \"schema_migrations\" does not exist"), s)
  | .addColumn, .unanswered => some (.error (.failed "Connection terminated unexpectedly"), s)
  | .readdir, .done => some (.ok s.directory, s)
  | .readFile file, .done =>
    match s.directory.entries.find? fun entry => entry.name = file with
    | some entry => some (.ok entry.content, s)
    | none => some (.error (.failed "ENOENT: no such file or directory"), s)
  | .connect, .refused | .createTable, .refused | .addColumn, .refused | .readdir, .refused
  | .readFile _, .refused => some (.error (.failed "ERROR"), s)
  | _, _ => none

/-- The answer to a call. -/
def answer (s : MigrationSystem) (run : Nat) (call : MigrationCall) (outcome : Outcome) :
    Option (Except MigrationError call.Reply × MigrationSystem) :=
  match call.client? with
  | some client => s.answerStatement run client call outcome
  | none => s.answerOther run call outcome

/-- A step. -/
inductive Action
  /-- a run starts -/
  | start (options : ApplyMigrationsOptions) (rounds : Nat)
  /-- the call a run has issued is answered -/
  | answer (run : Nat) (outcome : Outcome)
  /-- a run crashes: its connections are closed -/
  | crash (run : Nat)
  /-- a connection is lost -/
  | disconnect (client : Nat)
  /-- the directory changes -/
  | edit (directory : Directory)
  /-- time passes -/
  | tick (n : Nat)

/-- One step. -/
def step (rt : Runtime) (s : MigrationSystem) : Action → Option MigrationSystem
  | .start options rounds =>
    some
      { s with
        runs := Function.update s.runs s.nextRun (some (applyMigrations rt options rounds))
        nextRun := s.nextRun + 1 }
  | .answer run outcome =>
    match s.runs run with
    | some (.call call k) =>
      (s.answer run call outcome).map fun (r, s') =>
        { s' with
          runs := Function.update s'.runs run (some (k r))
          trace := Function.update s'.trace run (s'.trace run ++ [{ call := call, answer := r }]) }
    | _ => none
  | .crash run =>
    match s.runs run with
    | some (.call ..) =>
      some
        { s with
          runs := Function.update s.runs run none
          sessions := fun client => if s.owner client = some run then none else s.sessions client
          owner := fun client => if s.owner client = some run then none else s.owner client }
    | _ => none
  | .disconnect client =>
    some { s with sessions := Function.update s.sessions client none }
  | .edit directory => some { s with directory := directory }
  | .tick n => some { s with now := s.now + n }

/-- At the beginning there is a table without a version twice, and nothing is under way. -/
structure Init (s : MigrationSystem) : Prop where
  /-- the primary key of `schema_migrations` -/
  versions : (s.rows.map MigrationRow.version).Nodup
  /-- no connection is open -/
  sessions : ∀ client, s.sessions client = none
  /-- or checked out -/
  owner : ∀ client, s.owner client = none
  /-- no run has started -/
  runs : ∀ run, s.runs run = none
  /-- or issued anything -/
  trace : ∀ run, s.trace run = []
  /-- or committed anything -/
  log : s.log = []

/-- A run has ended, normally or by throwing. -/
def HasEnded (s : MigrationSystem) (run : Nat) : Prop :=
  (∃ applied, s.runs run = some (.ret applied)) ∨ ∃ error, s.runs run = some (.throw error)

end MigrationSystem

end Migrations

end Feedpulse
