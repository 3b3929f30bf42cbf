import Feedpulse.MigrationProtocol
import Feedpulse.System

/-!
# Each migration is applied exactly once

Any number of runs share the database. A run that follows the protocol has the sessions of its
connections as its view says; a row that was inserted and not committed keeps every other run
from inserting one of the same version. So a file's SQL is committed with its row or not at all,
and once at most, whoever holds the advisory lock.
-/

namespace Feedpulse

open Transition

namespace Migrations

/-! ## Sessions and views -/

/-- The advisory locks of a session. -/
def locksOf (run : Nat) : Option Int → List (Int × Nat)
  | none => []
  | some lockKey => [(lockKey, run)]

/-- The transaction of a session is as far as the view says. -/
def InTransaction : Progress → Transaction → Prop
  | .none, .idle => True
  | .begun, .active writes => writes = []
  | .claimed file, .active writes => ∃ checksum, writes = [.claim file checksum]
  | .existing _, .active writes => writes = []
  | .filled file, .active writes => writes = [] ∨ ∃ checksum, writes = [.backfill file checksum]
  | .executed file, .active writes =>
    ∃ checksum sql, writes = [.claim file checksum, .body file sql]
  | .failed, .aborted => True
  | _, _ => False

/-- **The session of a connection is as the view of its run says.** -/
structure Matches (run : Nat) (v : View) (client : Nat) (session : Session) : Prop where
  /-- on the connection of the lock there is no transaction, and the lock if it is taken -/
  lock : v.lockClient = some client →
    session.tx = .idle ∧ session.locks = locksOf run v.locked
  /-- on that of the file there is the transaction, and no lock -/
  file : v.client = some client → session.locks = [] ∧ InTransaction v.tx session.tx

theorem inTransaction_none {tx : Transaction} (h : InTransaction .none tx) : tx = .idle := by
  cases tx with
  | idle => rfl
  | active writes => exact h.elim
  | aborted => exact h.elim

theorem inTransaction_begun {tx : Transaction} (h : InTransaction .begun tx) :
    tx = .active [] := by
  cases tx with
  | idle => exact h.elim
  | active writes => rw [show writes = [] from h]
  | aborted => exact h.elim

theorem inTransaction_existing {file : String} {tx : Transaction}
    (h : InTransaction (.existing file) tx) : tx = .active [] := by
  cases tx with
  | idle => exact h.elim
  | active writes => rw [show writes = [] from h]
  | aborted => exact h.elim

theorem inTransaction_claimed {file : String} {tx : Transaction}
    (h : InTransaction (.claimed file) tx) :
    ∃ checksum, tx = .active [.claim file checksum] := by
  cases tx with
  | idle => exact h.elim
  | active writes =>
    obtain ⟨checksum, rfl⟩ := h
    exact ⟨checksum, rfl⟩
  | aborted => exact h.elim

variable {s s' : MigrationSystem} {run client : Nat} {session session' : Session}
  {writes : List Write} {v : View} {call : MigrationCall}

/-- A statement that is answered leaves its session as the view says. -/
theorem execute_matches {r : Except MigrationError call.Reply} (ha : v.Allowed call)
    (hc : call.client? = some client) (hd : v.lockClient = some client → v.client ≠ some client)
    (hm : Matches run v client session)
    (h : s.execute run client session call = some (r, session', writes)) :
    v.Possible call r ∧ Matches run (v.after call r) client session' := by
  -- one case a statement: what the view allows tells the transaction that the session is in
  cases call with
  | tryAdvisoryLock c lockKey =>
    obtain rfl := Option.some.inj hc
    obtain ⟨hlock, hlocked, hclient⟩ := ha
    obtain ⟨htx, hlocks⟩ := hm.lock hlock
    rw [MigrationSystem.execute] at h
    split at h
    · cases h
      exact ⟨trivial, fun _ => ⟨htx, hlocks⟩, fun hf => nomatch hclient.symm.trans hf⟩
    · cases h
      -- the lock is granted
      refine ⟨trivial, fun _ => ⟨htx, ?_⟩, fun hf => nomatch hclient.symm.trans hf⟩
      change _ :: session.locks = _
      rw [hlocks, hlocked]
      rfl
  | advisoryUnlock c lockKey =>
    obtain rfl := Option.some.inj hc
    obtain ⟨hlock, hlocked, hclient⟩ := ha
    obtain ⟨htx, hlocks⟩ := hm.lock hlock
    cases h
    refine ⟨trivial, fun _ => ⟨htx, ?_⟩, fun hf => nomatch hclient.symm.trans hf⟩
    rw [hlocks, hlocked]
    simp [locksOf, View.after, View.change]
  | begin c =>
    obtain rfl := Option.some.inj hc
    obtain ⟨hclient, hprogress⟩ := ha
    have hfile := hm.file hclient
    rw [hprogress] at hfile
    rw [MigrationSystem.execute, inTransaction_none hfile.2] at h
    cases h
    exact ⟨trivial, fun hl => (hd hl hclient).elim, fun _ => ⟨hfile.1, rfl⟩⟩
  | claim c file checksum =>
    obtain rfl := Option.some.inj hc
    obtain ⟨hclient, hprogress⟩ := ha
    have hfile := hm.file hclient
    rw [hprogress] at hfile
    rw [MigrationSystem.execute, inTransaction_begun hfile.2] at h
    dsimp only at h
    split at h
    · cases h
      -- no table, a row, or a new one; while another session inserts it the statement waits
      exact ⟨⟨_, rfl⟩, fun hl => (hd hl hclient).elim, fun _ => ⟨hfile.1, trivial⟩⟩
    split at h
    · cases h
      refine ⟨trivial, fun hl => (hd hl hclient).elim, fun _ => ⟨hfile.1, ?_⟩⟩
      rw [inTransaction_begun hfile.2]
      rfl
    split at h
    · cases h
    · cases h
      exact ⟨trivial, fun hl => (hd hl hclient).elim, fun _ => ⟨hfile.1, checksum, rfl⟩⟩
  | recorded c file =>
    obtain rfl := Option.some.inj hc
    obtain ⟨hclient, hprogress⟩ := ha
    have hfile := hm.file hclient
    have htx := hfile.2
    rw [hprogress] at htx
    rw [MigrationSystem.execute, inTransaction_existing htx] at h
    cases h
    exact ⟨trivial, fun hl => (hd hl hclient).elim, fun _ => hfile⟩
  | backfill c file checksum =>
    obtain rfl := Option.some.inj hc
    obtain ⟨hclient, hprogress⟩ := ha
    have hfile := hm.file hclient
    rw [hprogress] at hfile
    rw [MigrationSystem.execute, inTransaction_existing hfile.2] at h
    dsimp only at h
    split at h
    · split at h
      · cases h
      · cases h
        exact ⟨trivial, fun hl => (hd hl hclient).elim,
          fun _ => ⟨hfile.1, .inr ⟨checksum, rfl⟩⟩⟩
    · cases h
      refine ⟨trivial, fun hl => (hd hl hclient).elim, fun _ => ⟨hfile.1, ?_⟩⟩
      rw [inTransaction_existing hfile.2]
      exact .inl rfl
  | body c file sql =>
    obtain rfl := Option.some.inj hc
    obtain ⟨hclient, hprogress⟩ := ha
    have hfile := hm.file hclient
    rw [hprogress] at hfile
    obtain ⟨checksum, htx⟩ := inTransaction_claimed hfile.2
    rw [MigrationSystem.execute, htx] at h
    cases h
    exact ⟨trivial, fun hl => (hd hl hclient).elim, fun _ => ⟨hfile.1, checksum, sql, rfl⟩⟩
  | commit c file =>
    obtain rfl := Option.some.inj hc
    cases h
    exact ⟨trivial, fun hl => (hd hl ha.1).elim, fun _ => ⟨(hm.file ha.1).1, trivial⟩⟩
  | rollback c file =>
    obtain rfl := Option.some.inj hc
    cases h
    exact ⟨trivial, fun hl => (hd hl ha).elim, fun _ => ⟨(hm.file ha).1, trivial⟩⟩
  | _ => cases hc

/-- A statement of a transaction that is refused leaves it aborted. -/
theorem aborted_matches {v' : View} (hclient : v.client = some client)
    (hd : v.lockClient = some client → v.client ≠ some client)
    (hlock : v'.lockClient = v.lockClient) (htx : v'.tx = .failed) (hlocks : session.locks = []) :
    Matches run v' client { session with tx := .aborted } where
  lock := fun hl => (hd (hlock.symm.trans hl) hclient).elim
  file := fun _ => by
    rw [htx]
    exact ⟨hlocks, trivial⟩

/-- A statement that is refused leaves its session as the view says. -/
theorem refuse_matches {message : String} (ha : v.Allowed call)
    (hc : call.client? = some client) (hf : call.canFail = true)
    (hd : v.lockClient = some client → v.client ≠ some client)
    (hm : Matches run v client session) :
    Matches run (v.after call (.error (.failed message))) client (session.refuse call) := by
  -- a refused statement aborts its transaction, a refused `COMMIT` ends it
  cases call with
  | tryAdvisoryLock c lockKey =>
    obtain rfl := Option.some.inj hc
    obtain ⟨hlock, -, hclient⟩ := ha
    have htx := (hm.lock hlock).1
    have hsame : session.refuse (.tryAdvisoryLock c lockKey) = session := by
      simp [Session.refuse, htx]
    rw [hsame]
    exact ⟨fun _ => hm.lock hlock, fun hf => nomatch hclient.symm.trans hf⟩
  | begin c =>
    obtain rfl := Option.some.inj hc
    obtain ⟨hclient, hprogress⟩ := ha
    have hfile := hm.file hclient
    have htx := hfile.2
    rw [hprogress] at htx
    have hsame : session.refuse (.begin c) = session := by
      simp [Session.refuse, inTransaction_none htx]
    rw [hsame]
    exact ⟨fun hl => (hd hl hclient).elim, fun _ => hfile⟩
  | claim c file checksum =>
    obtain rfl := Option.some.inj hc
    obtain ⟨hclient, hprogress⟩ := ha
    obtain ⟨hlocks, htx⟩ := hm.file hclient
    rw [hprogress] at htx
    have hsame : session.refuse (.claim c file checksum) = { session with tx := .aborted } := by
      simp [Session.refuse, inTransaction_begun htx]
    rw [hsame]
    exact aborted_matches hclient hd rfl rfl hlocks
  | recorded c file =>
    obtain rfl := Option.some.inj hc
    obtain ⟨hclient, hprogress⟩ := ha
    obtain ⟨hlocks, htx⟩ := hm.file hclient
    rw [hprogress] at htx
    have hsame : session.refuse (.recorded c file) = { session with tx := .aborted } := by
      simp [Session.refuse, inTransaction_existing htx]
    rw [hsame]
    exact aborted_matches hclient hd rfl rfl hlocks
  | backfill c file checksum =>
    obtain rfl := Option.some.inj hc
    obtain ⟨hclient, hprogress⟩ := ha
    obtain ⟨hlocks, htx⟩ := hm.file hclient
    rw [hprogress] at htx
    have hsame : session.refuse (.backfill c file checksum) = { session with tx := .aborted } := by
      simp [Session.refuse, inTransaction_existing htx]
    rw [hsame]
    exact aborted_matches hclient hd rfl rfl hlocks
  | body c file sql =>
    obtain rfl := Option.some.inj hc
    obtain ⟨hclient, hprogress⟩ := ha
    obtain ⟨hlocks, htx⟩ := hm.file hclient
    rw [hprogress] at htx
    obtain ⟨checksum, hactive⟩ := inTransaction_claimed htx
    have hsame : session.refuse (.body c file sql) = { session with tx := .aborted } := by
      simp [Session.refuse, hactive]
    rw [hsame]
    exact aborted_matches hclient hd rfl rfl hlocks
  | commit c file =>
    obtain rfl := Option.some.inj hc
    obtain ⟨hlocks, htx⟩ := hm.file ha.1
    -- whatever the file came to, its transaction is open
    obtain ⟨writes, hactive⟩ : ∃ writes, session.tx = .active writes := by
      rcases ha.2 with hp | hp | hp <;> rw [hp] at htx
      · exact ⟨[], inTransaction_existing htx⟩
      · cases hs : session.tx with
        | active writes => exact ⟨writes, rfl⟩
        | _ => rw [hs] at htx; exact htx.elim
      · cases hs : session.tx with
        | active writes => exact ⟨writes, rfl⟩
        | _ => rw [hs] at htx; exact htx.elim
    have hsame : session.refuse (.commit c file) = { session with tx := .idle } := by
      simp [Session.refuse, hactive]
    rw [hsame]
    exact ⟨fun hl => (hd hl ha.1).elim, fun _ => ⟨hlocks, trivial⟩⟩
  | advisoryUnlock c lockKey => cases hf
  | rollback c file => cases hf
  | _ => cases hc

/-! ## What an answer does -/

/-- Nothing that the runs share has changed but the table's existence. -/
structure Same (s s' : MigrationSystem) : Prop where
  /-- the sessions -/
  sessions : s'.sessions = s.sessions
  /-- the connections that are checked out -/
  owner : s'.owner = s.owner
  /-- the number of the next one -/
  nextClient : s'.nextClient = s.nextClient
  /-- the rows -/
  rows : s'.rows = s.rows
  /-- what was committed -/
  log : s'.log = s.log
  /-- the runs -/
  runs : s'.runs = s.runs
  /-- the number of the next one -/
  nextRun : s'.nextRun = s.nextRun
  /-- what they were answered -/
  trace : s'.trace = s.trace

theorem Same.refl (s : MigrationSystem) : Same s s := ⟨rfl, rfl, rfl, rfl, rfl, rfl, rfl, rfl⟩

/-- **Everything an answer can be, and what it changes.** -/
inductive Answered (s : MigrationSystem) (run : Nat) :
    (call : MigrationCall) → Except MigrationError call.Reply → MigrationSystem → Prop
  /-- a statement on a connection that was lost -/
  | dead {call : MigrationCall} {client : Nat} (message : String)
    (hc : call.client? = some client) (hs : s.sessions client = none) :
    Answered s run call (.error (.failed message)) s
  /-- a statement that is answered -/
  | statement {call : MigrationCall} {client : Nat} {session session' : Session}
    {writes : List Write} {r : Except MigrationError call.Reply}
    (hc : call.client? = some client) (hs : s.sessions client = some session)
    (he : s.execute run client session call = some (r, session', writes)) :
    Answered s run call r (s.afterStatement run client (some session') writes)
  /-- a statement whose answer is lost with the connection -/
  | lost {call : MigrationCall} {client : Nat} {session session' : Session}
    {writes : List Write} {r : Except MigrationError call.Reply} (message : String)
    (hc : call.client? = some client) (hs : s.sessions client = some session)
    (he : s.execute run client session call = some (r, session', writes)) :
    Answered s run call (.error (.failed message)) (s.afterStatement run client none writes)
  /-- a statement that fails -/
  | refused {call : MigrationCall} {client : Nat} {session : Session} (message : String)
    (hc : call.client? = some client) (hs : s.sessions client = some session)
    (hf : call.canFail = true) :
    Answered s run call (.error (.failed message))
      (s.afterStatement run client (some (session.refuse call)) [])
  /-- a new connection -/
  | connected :
    Answered s run .connect (.ok s.nextClient)
      { s with
        sessions := Function.update s.sessions s.nextClient (some Session.clean)
        owner := Function.update s.owner s.nextClient (some run)
        nextClient := s.nextClient + 1 }
  /-- a connection that was released -/
  | reused {client : Nat} (ho : s.owner client = none) (hs : s.sessions client ≠ none) :
    Answered s run .connect (.ok client)
      { s with owner := Function.update s.owner client (some run) }
  /-- a connection is released -/
  | released {client : Nat} :
    Answered s run (.release client) (.ok ())
      { s with owner := Function.update s.owner client none }
  /-- another call -/
  | quiet {call : MigrationCall} {r : Except MigrationError call.Reply} {s' : MigrationSystem}
    (hv : ∀ v : View, v.Possible call r ∧ v.change call r = v) (hs : Same s s') :
    Answered s run call r s'

theorem answered_statement {outcome : Outcome} {r : Except MigrationError call.Reply}
    (hc : call.client? = some client)
    (h : s.answerStatement run client call outcome = some (r, s')) :
    Answered s run call r s' := by
  rw [MigrationSystem.answerStatement] at h
  rcases hs : s.sessions client with _ | session
  · rw [hs] at h
    cases h
    exact .dead _ hc hs
  · rw [hs] at h
    cases outcome with
    | done =>
      obtain ⟨⟨r', session', writes⟩, he, heq⟩ := Option.map_eq_some_iff.mp h
      cases heq
      exact .statement hc hs he
    | unanswered =>
      obtain ⟨⟨r', session', writes⟩, he, heq⟩ := Option.map_eq_some_iff.mp h
      cases heq
      exact .lost _ hc hs he
    | refused =>
      dsimp only at h
      split at h
      next hf =>
        cases h
        exact .refused _ hc hs hf
      next => cases h
    | reuse c => cases h

theorem answered_other {outcome : Outcome} {r : Except MigrationError call.Reply}
    (hc : call.client? = none) (h : s.answerOther run call outcome = some (r, s')) :
    Answered s run call r s' := by
  -- what is no statement of a session changes nothing shared, but for the pool and the table
  cases call with
  | connect =>
    cases outcome with
    | done =>
      cases h
      exact .connected
    | reuse c =>
      rw [MigrationSystem.answerOther] at h
      split at h
      next hfree =>
        cases h
        simp only [Bool.and_eq_true, decide_eq_true_eq, Option.isSome_iff_ne_none] at hfree
        exact .reused hfree.1 hfree.2
      next => cases h
    | refused =>
      cases h
      exact .quiet (fun _ => ⟨⟨_, rfl⟩, rfl⟩) (.refl s)
    | unanswered => cases h
  | release c =>
    cases outcome with
    | done =>
      cases h
      exact .released
    | _ => cases h
  | clock =>
    cases outcome with
    | done =>
      cases h
      exact .quiet (fun _ => ⟨trivial, rfl⟩) (.refl s)
    | _ => cases h
  | delay ms =>
    cases outcome with
    | done =>
      cases h
      exact .quiet (fun _ => ⟨trivial, rfl⟩) (.refl s)
    | _ => cases h
  | forever => cases outcome <;> cases h
  | createTable =>
    cases outcome with
    | done =>
      cases h
      exact .quiet (fun _ => ⟨trivial, rfl⟩) ⟨rfl, rfl, rfl, rfl, rfl, rfl, rfl, rfl⟩
    | unanswered =>
      cases h
      exact .quiet (fun _ => ⟨⟨_, rfl⟩, rfl⟩) ⟨rfl, rfl, rfl, rfl, rfl, rfl, rfl, rfl⟩
    | refused =>
      cases h
      exact .quiet (fun _ => ⟨⟨_, rfl⟩, rfl⟩) (.refl s)
    | reuse c => cases h
  | addColumn =>
    cases outcome with
    | done =>
      rw [MigrationSystem.answerOther] at h
      split at h
      · cases h
        exact .quiet (fun _ => ⟨trivial, rfl⟩) (.refl s)
      · cases h
        exact .quiet (fun _ => ⟨⟨_, rfl⟩, rfl⟩) (.refl s)
    | unanswered =>
      cases h
      exact .quiet (fun _ => ⟨⟨_, rfl⟩, rfl⟩) (.refl s)
    | refused =>
      cases h
      exact .quiet (fun _ => ⟨⟨_, rfl⟩, rfl⟩) (.refl s)
    | reuse c => cases h
  | readdir =>
    cases outcome with
    | done =>
      cases h
      exact .quiet (fun _ => ⟨trivial, rfl⟩) (.refl s)
    | refused =>
      cases h
      exact .quiet (fun _ => ⟨⟨_, rfl⟩, rfl⟩) (.refl s)
    | _ => cases h
  | readFile file =>
    cases outcome with
    | done =>
      rw [MigrationSystem.answerOther] at h
      split at h
      · cases h
        exact .quiet (fun _ => ⟨trivial, rfl⟩) (.refl s)
      · cases h
        exact .quiet (fun _ => ⟨⟨_, rfl⟩, rfl⟩) (.refl s)
    | refused =>
      cases h
      exact .quiet (fun _ => ⟨⟨_, rfl⟩, rfl⟩) (.refl s)
    | _ => cases h
  | _ => cases hc

/-- An answer is one of these. -/
theorem answered {outcome : Outcome} {r : Except MigrationError call.Reply}
    (h : s.answer run call outcome = some (r, s')) : Answered s run call r s' := by
  rw [MigrationSystem.answer] at h
  rcases hc : call.client? with _ | client
  · rw [hc] at h
    exact answered_other hc h
  · rw [hc] at h
    exact answered_statement hc h

/-! ## Connections -/

/-- **The connections of a run are as its view says.** -/
structure Reflects (s : MigrationSystem) (run : Nat) (v : View) : Prop where
  /-- it has checked out those it knows of -/
  owner : ∀ client, s.owner client = some run ↔
    v.lockClient = some client ∨ v.client = some client
  /-- which are two -/
  distinct : ∀ client, v.lockClient = some client → v.client ≠ some client
  /-- their sessions -/
  sessions : ∀ client session, s.sessions client = some session → Matches run v client session

/-- **The connections that are not checked out are as good as new.** -/
structure Pool (s : MigrationSystem) : Prop where
  /-- without a transaction and without a lock -/
  clean : ∀ client session, s.sessions client = some session → s.owner client = none →
    session = Session.clean
  /-- the next connection is not there yet -/
  fresh : ∀ client, s.nextClient ≤ client → s.sessions client = none ∧ s.owner client = none

/-- What one run leaves the others. -/
structure Frame (run : Nat) (s s' : MigrationSystem) : Prop where
  /-- their connections -/
  owner : ∀ other, other ≠ run → ∀ client,
    s'.owner client = some other ↔ s.owner client = some other
  /-- with their sessions -/
  sessions : ∀ other, other ≠ run → ∀ client, s.owner client = some other →
    s'.sessions client = s.sessions client

/-- The view of a run survives what another run does. -/
theorem Reflects.frame {other : Nat} (h : Reflects s other v) (hf : Frame run s s')
    (hne : other ≠ run) : Reflects s' other v where
  owner := fun client => (hf.owner other hne client).trans (h.owner client)
  distinct := h.distinct
  sessions := fun client session hs => by
    by_cases ho : s.owner client = some other
    · rw [hf.sessions other hne client ho] at hs
      exact h.sessions client session hs
    · rw [h.owner client] at ho
      exact ⟨fun hl => (ho (.inl hl)).elim, fun hl => (ho (.inr hl)).elim⟩

/-- A statement is issued on a connection of the run. -/
theorem known_of_allowed (ha : v.Allowed call) (hc : call.client? = some client) :
    v.lockClient = some client ∨ v.client = some client := by
  cases call <;> cases hc
  case tryAdvisoryLock => exact .inl ha.1
  case advisoryUnlock => exact .inl ha.1
  case rollback => exact .inr ha
  all_goals exact .inr ha.1

/-- A statement leaves the connections of its run as they are. -/
theorem clients_after {r : Except MigrationError call.Reply} (hc : call.client? = some client) :
    (v.after call r).lockClient = v.lockClient ∧ (v.after call r).client = v.client := by
  cases call <;> cases hc
  case tryAdvisoryLock =>
    cases r with
    | error e => exact ⟨rfl, rfl⟩
    | ok locked => cases locked <;> exact ⟨rfl, rfl⟩
  all_goals cases r <;> exact ⟨rfl, rfl⟩

/-- A statement on the connection of the lock is issued while there is no other connection. -/
theorem matches_other_of_lock {v' : View} {other : Nat} (hlock : v.lockClient = some client)
    (hclient : v.client = none) (hlock' : v'.lockClient = v.lockClient)
    (hclient' : v'.client = v.client) (hne : other ≠ client) :
    Matches run v' other session where
  lock := fun hl => (hne (Option.some.inj ((hlock'.symm.trans hl).symm.trans hlock))).elim
  file := fun hf => nomatch hclient.symm.trans (hclient'.symm.trans hf)

/-- A statement on the connection of a file leaves the lock as it is. -/
theorem matches_other_of_file {v' : View} {other : Nat} (hclient : v.client = some client)
    (hlock' : v'.lockClient = v.lockClient) (hlocked' : v'.locked = v.locked)
    (hclient' : v'.client = v.client) (hne : other ≠ client) (hm : Matches run v other session) :
    Matches run v' other session where
  lock := fun hl => by
    rw [hlocked']
    exact hm.lock (hlock'.symm.trans hl)
  file := fun hf => (hne (Option.some.inj ((hclient'.symm.trans hf).symm.trans hclient))).elim

/-- A statement on one connection leaves the session of the other as the view says. -/
theorem matches_other {other : Nat} {r : Except MigrationError call.Reply} (ha : v.Allowed call)
    (hc : call.client? = some client) (hne : other ≠ client)
    (hm : Matches run v other session) : Matches run (v.after call r) other session := by
  obtain ⟨hlock', hclient'⟩ := clients_after (v := v) (r := r) hc
  cases call <;> cases hc
  case tryAdvisoryLock => exact matches_other_of_lock ha.1 ha.2.2 hlock' hclient' hne
  case advisoryUnlock => exact matches_other_of_lock ha.1 ha.2.2 hlock' hclient' hne
  case rollback => exact matches_other_of_file ha hlock' rfl hclient' hne hm
  all_goals
    refine matches_other_of_file ha.1 hlock' ?_ hclient' hne hm
    cases r <;> rfl

/-- A statement keeps the view of its run. -/
theorem Reflects.statement {r : Except MigrationError call.Reply} (h : Reflects s run v)
    (ha : v.Allowed call) (hc : call.client? = some client) (ho : s'.owner = s.owner)
    (hs : ∀ other, other ≠ client → s'.sessions other = s.sessions other)
    (hm : ∀ session', s'.sessions client = some session' →
      Matches run (v.after call r) client session') :
    Reflects s' run (v.after call r) := by
  obtain ⟨hlock', hclient'⟩ := clients_after (v := v) (r := r) hc
  refine ⟨fun other => ?_, fun other hl => ?_, fun other session' hsession => ?_⟩
  · rw [ho, hlock', hclient']
    exact h.owner other
  · rw [hlock'] at hl
    rw [hclient']
    exact h.distinct other hl
  · by_cases hne : other = client
    · subst hne
      exact hm session' hsession
    · rw [hs other hne] at hsession
      exact matches_other ha hc hne (h.sessions other session' hsession)

/-- A statement on a connection of the run leaves the pool as it is. -/
theorem Pool.statement (h : Pool s) (hclient : s.owner client = some run)
    (ho : s'.owner = s.owner) (hn : s'.nextClient = s.nextClient)
    (hs : ∀ other, other ≠ client → s'.sessions other = s.sessions other) : Pool s' where
  clean := fun other session hsession hfree => by
    rw [ho] at hfree
    by_cases hne : other = client
    · subst hne
      cases hclient.symm.trans hfree
    · rw [hs other hne] at hsession
      exact h.clean other session hsession hfree
  fresh := fun other hother => by
    rw [hn] at hother
    obtain ⟨hsession, hfree⟩ := h.fresh other hother
    have hne : other ≠ client := by
      rintro rfl
      cases hclient.symm.trans hfree
    rw [hs other hne, ho]
    exact ⟨hsession, hfree⟩

/-- A statement on a connection of the run leaves the others theirs. -/
theorem frame_statement (hclient : s.owner client = some run) (ho : s'.owner = s.owner)
    (hs : ∀ other, other ≠ client → s'.sessions other = s.sessions other) : Frame run s s' where
  owner := fun other _ c => by rw [ho]
  sessions := fun other hne c hc => by
    refine hs c ?_
    rintro rfl
    exact hne (Option.some.inj (hc.symm.trans hclient))

/-- What an answer leaves: a possible answer, the view after it, a clean pool, and the others as
they were. -/
structure Kept (s : MigrationSystem) (run : Nat) (v : View) (call : MigrationCall)
    (r : Except MigrationError call.Reply) (s' : MigrationSystem) : Prop where
  /-- the answer is possible -/
  possible : v.Possible call r
  /-- the connections are as the view says -/
  reflects : Reflects s' run (v.after call r)
  /-- the pool is clean -/
  pool : Pool s'
  /-- the others have theirs -/
  frame : Frame run s s'

@[simp] theorem afterStatement_self {o : Option Session} :
    (s.afterStatement run client o writes).sessions client = o := by
  simp [MigrationSystem.afterStatement]

theorem afterStatement_of_ne {o : Option Session} {other : Nat} (hne : other ≠ client) :
    (s.afterStatement run client o writes).sessions other = s.sessions other := by
  simp [MigrationSystem.afterStatement, hne]

/-- A statement on a connection of the run. -/
theorem kept_statement {r : Except MigrationError call.Reply} (h : Reflects s run v)
    (hp : Pool s) (ha : v.Allowed call) (hc : call.client? = some client)
    (hr : v.Possible call r) (ho : s'.owner = s.owner) (hn : s'.nextClient = s.nextClient)
    (hs : ∀ other, other ≠ client → s'.sessions other = s.sessions other)
    (hm : ∀ session', s'.sessions client = some session' →
      Matches run (v.after call r) client session') :
    Kept s run v call r s' := by
  have hclient := (h.owner client).mpr (known_of_allowed ha hc)
  exact ⟨hr, h.statement ha hc ho hs hm, hp.statement hclient ho hn hs,
    frame_statement hclient ho hs⟩

/-- An error is possible for every statement. -/
theorem possible_failed (v : View) {message : String} (hc : call.client? = some client) :
    v.Possible call (.error (.failed message)) := by
  cases call <;> cases hc <;> exact ⟨message, rfl⟩

/-- A connection comes out of the pool. -/
theorem kept_connect (h : Reflects s run v) (hp : Pool s) (ha : v.Allowed .connect)
    (hfree : s.owner client = none) (ho : s'.owner = Function.update s.owner client (some run))
    (hs : ∀ other, other ≠ client → s'.sessions other = s.sessions other)
    (hclean : ∀ session, s'.sessions client = some session → session = Session.clean)
    (hn : ∀ other, s'.nextClient ≤ other → other ≠ client ∧ s.nextClient ≤ other) :
    Kept s run v .connect (.ok client) s' := by
  obtain ⟨hclient, htx, hlocked⟩ := ha
  -- a connection that is known is checked out, so the one that comes is another
  have hnew : ∀ known, v.lockClient = some known ∨ v.client = some known → known ≠ client := by
    rintro known hk rfl
    cases hfree.symm.trans ((h.owner known).mpr hk)
  have hother : ∀ other, other ≠ client → s'.owner other = s.owner other := by
    intro other hne
    rw [ho, Function.update_of_ne hne]
  have hself : s'.owner client = some run := by rw [ho, Function.update_self]
  refine ⟨fun hl => hnew client (.inl hl) rfl, ?_, ⟨?_, ?_⟩, ⟨?_, ?_⟩⟩
  · -- the connection of the lock comes first, then that of a file
    by_cases hl : v.lockClient = none
    · have hafter : v.after .connect (.ok client) =
          { v with lockClient := some client
                   trace := v.trace ++ [⟨.connect, .ok client⟩] } := by
        simp [View.after, View.change, hl]
      rw [hafter]
      refine ⟨fun other => ?_, fun other _ hc => ?_, fun other session hsession => ?_⟩
      · by_cases hne : other = client
        · simp [hne, hself]
        · rw [hother other hne, h.owner other, hl, hclient]
          simp [Ne.symm hne]
      · cases hclient.symm.trans hc
      · refine ⟨fun hc => ?_, fun hc => ?_⟩
        · obtain rfl := Option.some.inj hc
          rw [hclean session hsession]
          refine ⟨rfl, ?_⟩
          change [] = locksOf run v.locked
          rw [hlocked hl]
          rfl
        · cases hclient.symm.trans hc
    · have hafter : v.after .connect (.ok client) =
          { v with client := some client
                   trace := v.trace ++ [⟨.connect, .ok client⟩] } := by
        simp [View.after, View.change, hl]
      rw [hafter]
      refine ⟨fun other => ?_, fun other hc => ?_, fun other session hsession => ?_⟩
      · by_cases hne : other = client
        · simp [hne, hself]
        · rw [hother other hne, h.owner other, hclient]
          simp [Ne.symm hne]
      · exact fun hc' => hnew other (.inl hc) (Option.some.inj hc').symm
      · refine ⟨fun hc => ?_, fun hc => ?_⟩
        · rw [hs other (hnew other (.inl hc))] at hsession
          exact (h.sessions other session hsession).lock hc
        · obtain rfl := Option.some.inj hc
          rw [hclean session hsession]
          refine ⟨rfl, ?_⟩
          change InTransaction v.tx .idle
          rw [htx]
          trivial
  -- the pool, and the other runs
  · intro other session hsession hfree'
    have hne : other ≠ client := by
      rintro rfl
      cases hself.symm.trans hfree'
    rw [hs other hne] at hsession
    rw [hother other hne] at hfree'
    exact hp.clean other session hsession hfree'
  · intro other hle
    obtain ⟨hne, hle'⟩ := hn other hle
    rw [hs other hne, hother other hne]
    exact hp.fresh other hle'
  · intro q hq other
    by_cases hne : other = client
    · rw [hne, hself, hfree]
      simp [Ne.symm hq]
    · rw [hother other hne]
  · intro q _ other hc
    refine hs other ?_
    rintro rfl
    cases hfree.symm.trans hc

/-- A connection goes back to the pool. -/
theorem kept_release (h : Reflects s run v) (hp : Pool s) (ha : v.Allowed (.release client)) :
    Kept s run v (.release client) (.ok ())
      { s with owner := Function.update s.owner client none } := by
  have hknown : v.lockClient = some client ∨ v.client = some client := by
    rcases ha with ⟨hc, -⟩ | ⟨-, hl, -⟩
    · exact .inr hc
    · exact .inl hl
  have howner := (h.owner client).mpr hknown
  -- its session is as good as new
  have hclean : ∀ session, s.sessions client = some session → session = Session.clean := by
    intro session hsession
    have hm := h.sessions client session hsession
    rcases ha with ⟨hc, htx⟩ | ⟨-, hl, hlocked⟩
    · obtain ⟨hlocks, hin⟩ := hm.file hc
      rw [htx] at hin
      have hidle := inTransaction_none hin
      cases session
      simp_all [Session.clean]
    · obtain ⟨hidle, hlocks⟩ := hm.lock hl
      rw [hlocked] at hlocks
      cases session
      simp_all [Session.clean, locksOf]
  refine ⟨trivial, ?_, ⟨?_, ?_⟩, ⟨?_, ?_⟩⟩
  · by_cases hc : v.client = some client
    · have hafter : v.after (.release client) (.ok ()) =
          { v with client := none
                   trace := v.trace ++ [⟨.release client, .ok ()⟩] } := by
        simp [View.after, View.change, hc]
      rw [hafter]
      refine ⟨fun other => ?_, fun other _ hf => ?_, fun other session hsession =>
        ⟨(h.sessions other session hsession).lock, fun hf => ?_⟩⟩
      · by_cases hne : other = client
        · subst hne
          simpa using fun hl => h.distinct other hl hc
        · have hother := h.owner other
          rw [hc] at hother
          simpa [Function.update_of_ne hne, Ne.symm hne] using hother
      · cases hf
      · cases hf
    · obtain ⟨hnone, hl, -⟩ := ha.resolve_left fun h => hc h.1
      have hafter : v.after (.release client) (.ok ()) =
          { v with lockClient := none
                   trace := v.trace ++ [⟨.release client, .ok ()⟩] } := by
        simp [View.after, View.change, hc]
      rw [hafter]
      refine ⟨fun other => ?_, fun other hl => ?_, fun other session hsession =>
        ⟨fun hl => ?_, (h.sessions other session hsession).file⟩⟩
      · by_cases hne : other = client
        · subst hne
          simpa using hc
        · have hother := h.owner other
          rw [hl, hnone] at hother
          simpa [Function.update_of_ne hne, Ne.symm hne, hnone] using hother
      · cases hl
      · cases hl
  · intro other session hsession hfree
    by_cases hne : other = client
    · subst hne
      exact hclean session hsession
    · exact hp.clean other session hsession ((Function.update_of_ne hne _ _).symm.trans hfree)
  · intro other hle
    obtain ⟨hsession, hfree⟩ := hp.fresh other hle
    refine ⟨hsession, ?_⟩
    by_cases hne : other = client
    · subst hne
      exact Function.update_self _ _ _
    · exact (Function.update_of_ne hne _ _).trans hfree
  · intro q hq other
    by_cases hne : other = client
    · subst hne
      simp [howner, Ne.symm hq]
    · simp [Function.update_of_ne hne]
  · intro _ _ _ _
    rfl

/-- **What an answer leaves.** -/
theorem kept_of_answered {r : Except MigrationError call.Reply} (h : Reflects s run v)
    (hp : Pool s) (ha : v.Allowed call) (hr : Answered s run call r s') :
    Kept s run v call r s' := by
  cases hr with
  | dead message hc hs =>
    refine kept_statement h hp ha hc (possible_failed v hc) rfl rfl (fun _ _ => rfl) ?_
    intro session' hsession
    cases hs.symm.trans hsession
  | @statement _ client session session' writes _ hc hs he =>
    obtain ⟨hpossible, hm⟩ := execute_matches ha hc (h.distinct client)
      (h.sessions client session hs) he
    refine kept_statement h hp ha hc hpossible rfl rfl
      (fun _ => afterStatement_of_ne) fun session'' hsession => ?_
    rw [afterStatement_self] at hsession
    obtain rfl := Option.some.inj hsession
    exact hm
  | @lost _ client session session' writes _ message hc hs he =>
    refine kept_statement h hp ha hc (possible_failed v hc) rfl rfl
      (fun _ => afterStatement_of_ne) fun session'' hsession => ?_
    rw [afterStatement_self] at hsession
    cases hsession
  | @refused _ client session message hc hs hf =>
    refine kept_statement h hp ha hc (possible_failed v hc) rfl rfl
      (fun _ => afterStatement_of_ne) fun session'' hsession => ?_
    rw [afterStatement_self] at hsession
    obtain rfl := Option.some.inj hsession
    exact refuse_matches ha hc hf (h.distinct client) (h.sessions client session hs)
  | connected =>
    obtain ⟨-, hfree⟩ := hp.fresh s.nextClient le_rfl
    refine kept_connect h hp ha hfree rfl (fun other hne => Function.update_of_ne hne _ _)
      (fun session hsession => ?_) fun other hle => ?_
    · have heq := (Function.update_self s.nextClient (some Session.clean) s.sessions).symm.trans
        hsession
      exact (Option.some.inj heq).symm
    · change s.nextClient + 1 ≤ other at hle
      exact ⟨by omega, by omega⟩
  | @reused client ho hs =>
    refine kept_connect h hp ha ho rfl (fun _ _ => rfl)
      (fun session hsession => hp.clean client session hsession ho) fun other hle => ⟨?_, hle⟩
    rintro rfl
    exact hs (hp.fresh other hle).1
  | released => exact kept_release h hp ha
  | quiet hv hs =>
    obtain ⟨hpossible, hchange⟩ := hv v
    refine ⟨hpossible, ?_, ?_, ?_⟩
    · rw [View.after, hchange]
      refine ⟨fun c => ?_, h.distinct, fun c session hsession => ?_⟩
      · rw [hs.owner]
        exact h.owner c
      · rw [hs.sessions] at hsession
        have hm := h.sessions c session hsession
        exact ⟨hm.lock, hm.file⟩
    · refine ⟨fun c session hsession hfree => ?_, fun c hle => ?_⟩
      · rw [hs.sessions] at hsession
        rw [hs.owner] at hfree
        exact hp.clean c session hsession hfree
      · rw [hs.nextClient] at hle
        rw [hs.sessions, hs.owner]
        exact hp.fresh c hle
    · exact ⟨fun _ _ c => by rw [hs.owner], fun _ _ c _ => by rw [hs.sessions]⟩

/-! ## The database -/

/-- The versions of some rows. -/
def versions (rows : List MigrationRow) : List String := rows.map MigrationRow.version

/-- The files whose SQL was committed. -/
def executedFiles (log : List (Nat × Write)) : List String :=
  log.filterMap fun entry => entry.2.executed

/-- The files whose rows a session has inserted and not committed. -/
def Session.pending (session : Session) : List String := session.writes.filterMap Write.claimed

/-- **What holds of the database after any number of steps from `s₀`.** -/
structure Ledger (s₀ s : MigrationSystem) : Prop where
  /-- the primary key -/
  key : (versions s.rows).Nodup
  /-- a row that was not committed is not there -/
  pending : ∀ client session, s.sessions client = some session → ∀ file ∈ session.pending,
    file ∉ versions s.rows
  /-- and is that of one session -/
  exclusive : ∀ client client' session session' file, s.sessions client = some session →
    s.sessions client' = some session' → file ∈ session.pending → file ∈ session'.pending →
    client = client'
  /-- the rows are what the writes have made of them -/
  table : s.rows = (s.log.map Prod.snd).foldl Write.apply s₀.rows
  /-- a file has a row if it had one before, or if its SQL was committed -/
  recorded : ∀ file, file ∈ versions s.rows ↔
    file ∈ versions s₀.rows ∨ file ∈ executedFiles s.log
  /-- once -/
  once : (executedFiles s.log).Nodup
  /-- and not if it had one before -/
  new : ∀ file ∈ executedFiles s.log, file ∉ versions s₀.rows

variable {s₀ : MigrationSystem}

/-- Nothing is committed, and no session has inserted a row. -/
theorem Ledger.shrink (h : Ledger s₀ s) (hrows : s'.rows = s.rows) (hlog : s'.log = s.log)
    (hs : ∀ client session', s'.sessions client = some session' → session'.pending = [] ∨
      ∃ session, s.sessions client = some session ∧
        ∀ file ∈ session'.pending, file ∈ session.pending) : Ledger s₀ s' where
  key := by
    rw [hrows]
    exact h.key
  pending := fun client session' hsession file hf => by
    rw [hrows]
    rcases hs client session' hsession with hnil | ⟨session, hbefore, hsub⟩
    · rw [hnil] at hf
      cases hf
    · exact h.pending client session hbefore file (hsub file hf)
  exclusive := fun client client' session session' file hsession hsession' hf hf' => by
    rcases hs client session hsession with hnil | ⟨before, hbefore, hsub⟩
    · rw [hnil] at hf
      cases hf
    rcases hs client' session' hsession' with hnil | ⟨before', hbefore', hsub'⟩
    · rw [hnil] at hf'
      cases hf'
    exact h.exclusive client client' before before' file hbefore hbefore' (hsub file hf)
      (hsub' file hf')
  table := by
    rw [hrows, hlog]
    exact h.table
  recorded := fun file => by
    rw [hrows, hlog]
    exact h.recorded file
  once := by
    rw [hlog]
    exact h.once
  new := by
    rw [hlog]
    exact h.new

/-- A row is inserted that is neither there nor inserted by another session. -/
theorem Ledger.claim (file : String) (h : Ledger s₀ s) (hrows : s'.rows = s.rows)
    (hlog : s'.log = s.log)
    (hs : ∀ other, other ≠ client → s'.sessions other = s.sessions other)
    (hself : ∀ session', s'.sessions client = some session' → session'.pending = [file])
    (hnew : file ∉ versions s.rows)
    (halone : ∀ other session, other ≠ client → s.sessions other = some session →
      file ∉ session.pending) : Ledger s₀ s' where
  key := by
    rw [hrows]
    exact h.key
  pending := fun other session' hsession f hf => by
    rw [hrows]
    by_cases hne : other = client
    · subst hne
      rw [hself session' hsession] at hf
      rw [List.mem_singleton.mp hf]
      exact hnew
    · rw [hs other hne] at hsession
      exact h.pending other session' hsession f hf
  exclusive := fun c c' session session' f hc hc' hf hf' => by
    by_cases hne : c = client
    · by_cases hne' : c' = client
      · rw [hne, hne']
      · rw [hne] at hc
        rw [hself session hc, List.mem_singleton] at hf
        rw [hs c' hne'] at hc'
        rw [hf] at hf'
        exact (halone c' session' hne' hc' hf').elim
    · rw [hs c hne] at hc
      by_cases hne' : c' = client
      · rw [hne'] at hc'
        rw [hself session' hc', List.mem_singleton] at hf'
        rw [hf'] at hf
        exact (halone c session hne hc hf).elim
      · rw [hs c' hne'] at hc'
        exact h.exclusive c c' session session' f hc hc' hf hf'
  table := by
    rw [hrows, hlog]
    exact h.table
  recorded := fun f => by
    rw [hrows, hlog]
    exact h.recorded f
  once := by
    rw [hlog]
    exact h.once
  new := by
    rw [hlog]
    exact h.new

/-- A checksum is filled in. -/
theorem Ledger.backfill {file checksum : String} (h : Ledger s₀ s)
    (hrows : s'.rows = Write.apply s.rows (.backfill file checksum))
    (hlog : s'.log = s.log ++ [(run, .backfill file checksum)])
    (hs : ∀ client session', s'.sessions client = some session' → session'.pending = [] ∨
      ∃ session, s.sessions client = some session ∧
        ∀ file ∈ session'.pending, file ∈ session.pending) : Ledger s₀ s' := by
  have hversions : versions s'.rows = versions s.rows := by
    rw [hrows]
    exact Table.map_updateWhere MigrationRow.version s.rows fun _ => rfl
  have hexecuted : executedFiles s'.log = executedFiles s.log := by
    simp [executedFiles, hlog, Write.executed]
  -- as far as the files are concerned, nothing is committed
  have hshrink : Ledger s₀ { s' with rows := s.rows, log := s.log } := h.shrink rfl rfl hs
  refine ⟨?_, ?_, hshrink.exclusive, ?_, ?_, ?_, ?_⟩
  · rw [hversions]
    exact h.key
  · rw [hversions]
    exact hshrink.pending
  · rw [hrows, hlog, List.map_append, List.foldl_append, ← h.table]
    rfl
  · rw [hversions, hexecuted]
    exact h.recorded
  · rw [hexecuted]
    exact h.once
  · rw [hexecuted]
    exact h.new

/-- **A row is committed with the SQL of its file.** -/
theorem Ledger.commit {file checksum sql : String} (h : Ledger s₀ s)
    (hsession : s.sessions client = some session) (hpending : file ∈ session.pending)
    (hrows : s'.rows = Write.apply s.rows (.claim file checksum))
    (hlog : s'.log = s.log ++ [(run, .claim file checksum), (run, .body file sql)])
    (hs : ∀ other, other ≠ client → s'.sessions other = s.sessions other)
    (hself : ∀ session', s'.sessions client = some session' → session'.pending = []) :
    Ledger s₀ s' := by
  have hnew := h.pending client session hsession file hpending
  have hversions : versions s'.rows = versions s.rows ++ [file] := by
    simp [versions, hrows, Write.apply]
  have hexecuted : executedFiles s'.log = executedFiles s.log ++ [file] := by
    simp [executedFiles, hlog, Write.executed]
  have hshrink : Ledger s₀ { s' with rows := s.rows, log := s.log } := by
    refine h.shrink rfl rfl fun other session' hsession' => ?_
    by_cases hne : other = client
    · subst hne
      exact .inl (hself session' hsession')
    · exact .inr ⟨session', (hs other hne).symm.trans hsession', fun _ hf => hf⟩
  have hnotNew : file ∉ executedFiles s.log := fun hf =>
    hnew ((h.recorded file).mpr (.inr hf))
  refine ⟨?_, ?_, hshrink.exclusive, ?_, ?_, ?_, ?_⟩
  · rw [hversions]
    exact List.nodup_append.mpr ⟨h.key, List.nodup_singleton file, fun f hf f' hf' heq =>
      hnew (List.mem_singleton.mp hf' ▸ heq ▸ hf)⟩
  · intro other session' hother f hf hmem
    rw [hversions] at hmem
    rcases List.mem_append.mp hmem with hmem | hmem
    · exact hshrink.pending other session' hother f hf hmem
    · -- another session has inserted the row that is committed
      rw [List.mem_singleton.mp hmem] at hf
      have hne : other ≠ client := by
        rintro rfl
        rw [hself session' hother] at hf
        cases hf
      rw [hs other hne] at hother
      exact hne (h.exclusive other client session' session file hother hsession hf hpending)
  · rw [hrows, hlog, List.map_append, List.foldl_append, ← h.table]
    rfl
  · intro f
    rw [hversions, hexecuted, List.mem_append, List.mem_append, h.recorded f, or_assoc]
  · rw [hexecuted]
    exact List.nodup_append.mpr ⟨h.once, List.nodup_singleton file, fun f hf f' hf' heq =>
      hnotNew (List.mem_singleton.mp hf' ▸ heq ▸ hf)⟩
  · intro f hf
    rw [hexecuted] at hf
    rcases List.mem_append.mp hf with hf | hf
    · exact h.new f hf
    · rw [List.mem_singleton.mp hf]
      exact fun hold => hnew ((h.recorded file).mpr (.inl hold))

/-- Where no other session is as `p` says, none is. -/
theorem forall_of_otherSession {p : Session → Bool} (hp : Pool s)
    (h : s.otherSession client p = false) :
    ∀ other session, other ≠ client → s.sessions other = some session → p session = false := by
  intro other session hne hsession
  have hlt : other < s.nextClient := by
    by_contra hle
    cases (hp.fresh other (Nat.le_of_not_lt hle)).1.symm.trans hsession
  rw [MigrationSystem.otherSession, List.any_eq_false] at h
  have hother := h other (List.mem_range.mpr hlt)
  simpa [hne, hsession] using hother

/-- A statement that commits nothing and inserts nothing. -/
theorem Ledger.statement (h : Ledger s₀ s) (hs : s.sessions client = some session)
    {o : Option Session} (ho : ∀ session'', o = some session'' → session'' = session')
    (hsub : ∀ file ∈ session'.pending, file ∈ session.pending) :
    Ledger s₀ (s.afterStatement run client o []) := by
  refine h.shrink rfl (List.append_nil _) fun other session'' hsession => ?_
  by_cases hne : other = client
  · subst hne
    rw [afterStatement_self] at hsession
    rw [ho session'' hsession]
    exact .inr ⟨session, hs, hsub⟩
  · rw [afterStatement_of_ne hne] at hsession
    exact .inr ⟨session'', hsession, fun _ hf => hf⟩

/-- The row of a file is inserted. -/
theorem Ledger.execute_claim {file checksum : String} {r : Except MigrationError Nat}
    (h : Ledger s₀ s) (hp : Pool s) (hs : s.sessions client = some session)
    (htx : session.tx = .active []) {o : Option Session}
    (ho : ∀ session'', o = some session'' → session'' = session')
    (he : s.execute run client session (.claim client file checksum) =
      some (r, session', writes)) :
    Ledger s₀ (s.afterStatement run client o writes) ∧ writes = [] := by
  rw [MigrationSystem.execute, htx] at he
  dsimp only at he
  split at he
  · cases he
    exact ⟨h.statement hs ho fun _ hf => (nomatch hf), rfl⟩
  split at he
  · cases he
    exact ⟨h.statement hs ho fun _ hf => hf, rfl⟩
  split at he
  · cases he
  next hthere hother =>
    cases he
    refine ⟨?_, rfl⟩
    refine h.claim file rfl (List.append_nil _) (fun _ => afterStatement_of_ne)
      (fun session'' hsession => ?_) ?_ ?_
    · rw [afterStatement_self] at hsession
      rw [ho session'' hsession]
      rfl
    · intro hmem
      obtain ⟨row, hrow, hversion⟩ := List.mem_map.mp hmem
      exact hthere (List.any_eq_true.mpr ⟨row, hrow, decide_eq_true hversion⟩)
    · intro other session'' hne hsession hf
      obtain ⟨write, hwrite, hclaimed⟩ := List.mem_filterMap.mp hf
      have hnone := forall_of_otherSession hp (Bool.not_eq_true _ ▸ hother) other session'' hne
        hsession
      rw [List.any_eq_false] at hnone
      exact hnone write hwrite (decide_eq_true hclaimed)

/-- A transaction commits. -/
theorem Ledger.execute_commit {file : String} (h : Ledger s₀ s)
    (hs : s.sessions client = some session)
    (hp : v.tx = .existing file ∨ v.tx = .filled file ∨ v.tx = .executed file)
    (htx : InTransaction v.tx session.tx) {o : Option Session}
    (ho : ∀ session'', o = some session'' → session'' = { session with tx := .idle }) :
    Ledger s₀ (s.afterStatement run client o session.writes) ∧
      ∀ write ∈ session.writes, write.file = file := by
  have hshrink : ∀ other session'',
      (s.afterStatement run client o session.writes).sessions other = some session'' →
        session''.pending = [] ∨ ∃ before, s.sessions other = some before ∧
          ∀ f ∈ session''.pending, f ∈ before.pending := by
    intro other session'' hsession
    by_cases hne : other = client
    · subst hne
      rw [afterStatement_self] at hsession
      rw [ho session'' hsession]
      exact .inl rfl
    · rw [afterStatement_of_ne hne] at hsession
      exact .inr ⟨session'', hsession, fun _ hf => hf⟩
  have hnothing : session.writes = [] → Ledger s₀ (s.afterStatement run client o session.writes) ∧
      ∀ write ∈ session.writes, write.file = file := by
    intro hwrites
    rw [hwrites] at hshrink ⊢
    exact ⟨h.shrink rfl (List.append_nil _) hshrink, fun _ hw => nomatch hw⟩
  rcases hp with hp | hp | hp <;> rw [hp] at htx
  · refine hnothing ?_
    rw [Session.writes, inTransaction_existing htx]
  · rcases hactive : session.tx with _ | writes | _
    · rw [hactive] at htx
      exact htx.elim
    · rw [hactive] at htx
      rcases htx with rfl | ⟨checksum, rfl⟩
      · exact hnothing (by rw [Session.writes, hactive])
      · have hwrites : session.writes = [.backfill file checksum] := by
          rw [Session.writes, hactive]
        rw [hwrites] at hshrink ⊢
        refine ⟨h.backfill rfl rfl hshrink, fun write hw => ?_⟩
        rw [List.mem_singleton.mp hw]
        rfl
    · rw [hactive] at htx
      exact htx.elim
  · rcases hactive : session.tx with _ | writes | _
    · rw [hactive] at htx
      exact htx.elim
    · rw [hactive] at htx
      obtain ⟨checksum, sql, rfl⟩ := htx
      have hwrites : session.writes = [.claim file checksum, .body file sql] := by
        rw [Session.writes, hactive]
      have hpending : file ∈ session.pending := by simp [Session.pending, hwrites, Write.claimed]
      rw [hwrites]
      refine ⟨h.commit hs hpending rfl rfl (fun _ => afterStatement_of_ne)
        fun session'' hsession => ?_, fun write hw => ?_⟩
      · rw [afterStatement_self] at hsession
        rw [ho session'' hsession]
        rfl
      · rcases List.mem_cons.mp hw with rfl | hw
        · rfl
        · rw [List.mem_singleton.mp hw]
          rfl
    · rw [hactive] at htx
      exact htx.elim

/-- **What a statement does to the database**, and that it commits writes of the file it names
only. -/
theorem Ledger.execute {r : Except MigrationError call.Reply} (h : Ledger s₀ s) (hp : Pool s)
    (ha : v.Allowed call) (hc : call.client? = some client)
    (hm : Matches run v client session) (hs : s.sessions client = some session)
    {o : Option Session} (ho : ∀ session'', o = some session'' → session'' = session')
    (he : s.execute run client session call = some (r, session', writes)) :
    Ledger s₀ (s.afterStatement run client o writes) ∧
      ∀ write ∈ writes, ∀ answer, Event.committed ⟨call, answer⟩ = some write.file := by
  have hnothing (hw : writes = []) (hsub : ∀ file ∈ session'.pending, file ∈ session.pending) :
      Ledger s₀ (s.afterStatement run client o writes) ∧
        ∀ write ∈ writes, ∀ answer, Event.committed ⟨call, answer⟩ = some write.file := by
    subst hw
    exact ⟨h.statement hs ho hsub, fun _ hw => nomatch hw⟩
  cases call with
  | tryAdvisoryLock c lockKey =>
    rw [MigrationSystem.execute] at he
    split at he
    · cases he
      exact hnothing rfl fun _ hf => hf
    · cases he
      exact hnothing rfl fun _ hf => hf
  | advisoryUnlock c lockKey =>
    cases he
    exact hnothing rfl fun _ hf => hf
  | begin c =>
    obtain rfl := Option.some.inj hc
    have htx := (hm.file ha.1).2
    rw [ha.2] at htx
    rw [MigrationSystem.execute, inTransaction_none htx] at he
    cases he
    exact hnothing rfl fun _ hf => nomatch hf
  | claim c file checksum =>
    obtain rfl := Option.some.inj hc
    have htx := (hm.file ha.1).2
    rw [ha.2] at htx
    obtain ⟨hledger, rfl⟩ := h.execute_claim hp hs (inTransaction_begun htx) ho he
    exact ⟨hledger, fun _ hw => nomatch hw⟩
  | recorded c file =>
    obtain rfl := Option.some.inj hc
    have htx := (hm.file ha.1).2
    rw [ha.2] at htx
    rw [MigrationSystem.execute, inTransaction_existing htx] at he
    cases he
    exact hnothing rfl fun _ hf => hf
  | backfill c file checksum =>
    obtain rfl := Option.some.inj hc
    have htx := (hm.file ha.1).2
    rw [ha.2] at htx
    rw [MigrationSystem.execute, inTransaction_existing htx] at he
    dsimp only at he
    split at he
    · split at he
      · cases he
      · cases he
        exact hnothing rfl fun _ hf => nomatch hf
    · cases he
      exact hnothing rfl fun _ hf => hf
  | body c file sql =>
    obtain rfl := Option.some.inj hc
    have htx := (hm.file ha.1).2
    rw [ha.2] at htx
    obtain ⟨checksum, hactive⟩ := inTransaction_claimed htx
    rw [MigrationSystem.execute, hactive] at he
    cases he
    refine hnothing rfl fun f hf => ?_
    have hwrites : session.writes = [.claim file checksum] := by rw [Session.writes, hactive]
    rw [Session.pending, hwrites]
    exact hf
  | commit c file =>
    obtain rfl := Option.some.inj hc
    have htx := (hm.file ha.1).2
    cases he
    obtain ⟨hledger, hfile⟩ := h.execute_commit hs ha.2 htx ho
    refine ⟨hledger, fun write hw answer => ?_⟩
    rw [hfile write hw]
    rfl
  | rollback c file =>
    cases he
    exact hnothing rfl fun _ hf => nomatch hf
  | _ => cases hc

/-! ## Every run of the system -/

/-- What an answer does not touch. -/
theorem answered_runs {r : Except MigrationError call.Reply} (h : Answered s run call r s') :
    s'.runs = s.runs ∧ s'.trace = s.trace ∧ s'.nextRun = s.nextRun := by
  cases h with
  | quiet hv hs => exact ⟨hs.runs, hs.trace, hs.nextRun⟩
  | _ => exact ⟨rfl, rfl, rfl⟩

/-- A statement that fails inserts nothing. -/
theorem pending_refuse {file : String} (hf : file ∈ (session.refuse call).pending) :
    file ∈ session.pending := by
  unfold Session.refuse at hf
  split at hf
  · cases hf
  · cases hf
  · exact hf

/-- What is new in the log after an answer. -/
def Commits (s : MigrationSystem) (run : Nat) (call : MigrationCall) (s' : MigrationSystem) :
    Prop :=
  ∀ entry ∈ s'.log, entry ∈ s.log ∨
    entry.1 = run ∧ ∀ answer, Event.committed ⟨call, answer⟩ = some entry.2.file

theorem commits_of_log (h : s'.log = s.log) : Commits s run call s' := by
  intro entry hentry
  rw [h] at hentry
  exact .inl hentry

theorem commits_afterStatement {o : Option Session}
    (h : ∀ write ∈ writes, ∀ answer, Event.committed ⟨call, answer⟩ = some write.file) :
    Commits s run call (s.afterStatement run client o writes) := by
  intro entry hentry
  rcases List.mem_append.mp hentry with hentry | hentry
  · exact .inl hentry
  · obtain ⟨write, hwrite, rfl⟩ := List.mem_map.mp hentry
    exact .inr ⟨rfl, h write hwrite⟩

/-- **What an answer does to the database.** -/
theorem Ledger.answered {r : Except MigrationError call.Reply} (h : Ledger s₀ s)
    (hv : Reflects s run v) (hp : Pool s) (ha : v.Allowed call) (hr : Answered s run call r s') :
    Ledger s₀ s' ∧ Commits s run call s' := by
  cases hr with
  | dead message hc hs => exact ⟨h, commits_of_log rfl⟩
  | @statement _ client session session' writes _ hc hs he =>
    obtain ⟨hledger, hcommits⟩ := h.execute hp ha hc (hv.sessions client session hs) hs
      (fun _ ho => (Option.some.inj ho).symm) he
    exact ⟨hledger, commits_afterStatement hcommits⟩
  | @lost _ client session session' writes _ message hc hs he =>
    obtain ⟨hledger, hcommits⟩ := h.execute (o := none) hp ha hc (hv.sessions client session hs) hs
      (fun _ ho => (nomatch ho)) he
    exact ⟨hledger, commits_afterStatement hcommits⟩
  | @refused _ client session message hc hs hf =>
    refine ⟨h.statement hs (fun _ ho => (Option.some.inj ho).symm) fun _ => pending_refuse, ?_⟩
    exact commits_of_log (List.append_nil _)
  | connected =>
    refine ⟨h.shrink rfl rfl fun other session hsession => ?_, commits_of_log rfl⟩
    by_cases hne : other = s.nextClient
    · subst hne
      have heq := (Function.update_self s.nextClient (some Session.clean) s.sessions).symm.trans
        hsession
      rw [← Option.some.inj heq]
      exact .inl rfl
    · exact .inr ⟨session, (Function.update_of_ne hne _ _).symm.trans hsession, fun _ hf => hf⟩
  | reused ho hs =>
    exact ⟨h.shrink rfl rfl fun _ session hsession => .inr ⟨session, hsession, fun _ hf => hf⟩,
      commits_of_log rfl⟩
  | released =>
    exact ⟨h.shrink rfl rfl fun _ session hsession => .inr ⟨session, hsession, fun _ hf => hf⟩,
      commits_of_log rfl⟩
  | quiet _ hs =>
    refine ⟨h.shrink hs.rows hs.log fun _ session hsession => .inr ⟨session, ?_, fun _ hf => hf⟩,
      commits_of_log hs.log⟩
    rw [hs.sessions] at hsession
    exact hsession

/-- **What every step preserves.** -/
structure Invariant (s₀ s : MigrationSystem) : Prop where
  /-- a run follows the protocol from a view that is true -/
  runs : ∀ run p, s.runs run = some p →
    ∃ v, Runs p Finished v ∧ Reflects s run v ∧ v.trace = s.trace run
  /-- every run passes the files in order -/
  orderly : ∀ run, Orderly (s.trace run)
  /-- a connection is checked out by a run there is -/
  owned : ∀ client run, s.owner client = some run → s.runs run ≠ none
  /-- the next run has not started -/
  later : ∀ run, s.nextRun ≤ run → s.runs run = none ∧ s.trace run = []
  /-- the connections in the pool are clean -/
  pool : Pool s
  /-- the database -/
  ledger : Ledger s₀ s
  /-- what a run has committed it was told to -/
  commits : ∀ run write, (run, write) ∈ s.log → write.file ∈ committed (s.trace run)

/-- Wherever a run stands, it has passed the files in order. -/
theorem orderly_of_runs {p : MigrationProgram (List String)} (h : Runs p Finished v) :
    Orderly v.trace := by
  cases p with
  | ret applied => exact Finished.orderly h
  | throw error => exact Finished.orderly h
  | call c k => exact h.1.1

/-- A run starts. -/
theorem Invariant.start (rt : Runtime) (h : Invariant s₀ s) (options : ApplyMigrationsOptions)
    (rounds : Nat) :
    Invariant s₀
      { s with
        runs := Function.update s.runs s.nextRun (some (applyMigrations rt options rounds))
        nextRun := s.nextRun + 1 } := by
  obtain ⟨hnone, htrace⟩ := h.later s.nextRun le_rfl
  refine ⟨fun run p hp => ?_, h.orderly, fun client run ho => ?_, fun run hle => ?_,
    ⟨h.pool.clean, h.pool.fresh⟩, ?_, h.commits⟩
  · by_cases hne : run = s.nextRun
    · subst hne
      have heq := (Function.update_self s.nextRun _ s.runs).symm.trans hp
      rw [← Option.some.inj heq]
      refine ⟨View.initial, runs_applyMigrations rt options rounds, ⟨fun client => ?_, ?_, ?_⟩,
        htrace.symm⟩
      · constructor
        · intro ho
          exact (h.owned client s.nextRun ho hnone).elim
        · rintro (hl | hc)
          · cases hl
          · cases hc
      · intro client hl
        cases hl
      · intro client session _
        exact ⟨fun hl => (nomatch hl), fun hc => (nomatch hc)⟩
    · obtain ⟨v, hv, hreflects, ht⟩ := h.runs run p ((Function.update_of_ne hne _ _).symm.trans hp)
      exact ⟨v, hv, ⟨hreflects.owner, hreflects.distinct, hreflects.sessions⟩, ht⟩
  · by_cases hne : run = s.nextRun
    · exact (h.owned client run ho (hne ▸ hnone)).elim
    · intro hn
      exact h.owned client run ho ((Function.update_of_ne hne _ _).symm.trans hn)
  · change s.nextRun + 1 ≤ run at hle
    obtain ⟨hn, ht⟩ := h.later run (by omega)
    exact ⟨(Function.update_of_ne (by omega) _ _).trans hn, ht⟩
  · exact h.ledger.shrink rfl rfl fun _ session hs => .inr ⟨session, hs, fun _ hf => hf⟩

/-- The call a run has issued is answered. -/
theorem Invariant.answer {outcome : Outcome} {r : Except MigrationError call.Reply}
    {k : Except MigrationError call.Reply → MigrationProgram (List String)}
    (h : Invariant s₀ s) (hrun : s.runs run = some (.call call k))
    (hr : s.answer run call outcome = some (r, s')) :
    Invariant s₀
      { s' with
        runs := Function.update s'.runs run (some (k r))
        trace := Function.update s'.trace run
          (s'.trace run ++ [{ call := call, answer := r }]) } := by
  have hanswered := Migrations.answered hr
  obtain ⟨v, hv, hreflects, htrace⟩ := h.runs run _ hrun
  obtain ⟨⟨ho, ha⟩, hk⟩ := hv
  have hkept := kept_of_answered hreflects h.pool ha hanswered
  have hnext := hk r (v.after call r) ⟨hkept.possible, rfl⟩
  obtain ⟨hledger, hcommits⟩ := h.ledger.answered hreflects h.pool ha hanswered
  obtain ⟨hruns, htraces, hnextRun⟩ := answered_runs hanswered
  have hself : Function.update s'.trace run (s'.trace run ++ [⟨call, r⟩]) run =
      (v.after call r).trace := by
    rw [Function.update_self, htraces, ← htrace]
    rfl
  have hother : ∀ other, other ≠ run →
      Function.update s'.trace run (s'.trace run ++ [⟨call, r⟩]) other = s.trace other := by
    intro other hne
    rw [Function.update_of_ne hne, htraces]
  refine ⟨fun q p hp => ?_, fun q => ?_, fun client q hq => ?_, fun q hle => ?_,
    ⟨hkept.pool.clean, hkept.pool.fresh⟩, ?_, fun q write hw => ?_⟩
  · by_cases hne : q = run
    · subst hne
      have heq := (Function.update_self q _ s'.runs).symm.trans hp
      rw [← Option.some.inj heq]
      exact ⟨v.after call r, hnext,
        ⟨hkept.reflects.owner, hkept.reflects.distinct, hkept.reflects.sessions⟩, hself.symm⟩
    · have hp' : s.runs q = some p := by
        rw [← hruns]
        exact (Function.update_of_ne hne _ _).symm.trans hp
      obtain ⟨v', hv', hreflects', htrace'⟩ := h.runs q p hp'
      have hframe := hreflects'.frame hkept.frame hne
      exact ⟨v', hv', ⟨hframe.owner, hframe.distinct, hframe.sessions⟩,
        htrace'.trans (hother q hne).symm⟩
  · change Orderly (Function.update s'.trace run _ q)
    by_cases hne : q = run
    · rw [hne, hself]
      exact orderly_of_runs hnext
    · rw [hother q hne]
      exact h.orderly q
  · change Function.update s'.runs run (some (k r)) q ≠ none
    by_cases hne : q = run
    · rw [hne, Function.update_self]
      exact Option.some_ne_none _
    · rw [Function.update_of_ne hne, hruns]
      exact h.owned client q ((hkept.frame.owner q hne client).mp hq)
  · change s'.nextRun ≤ q at hle
    rw [hnextRun] at hle
    obtain ⟨hn, ht⟩ := h.later q hle
    have hne : q ≠ run := by
      rintro rfl
      cases hn.symm.trans hrun
    refine ⟨?_, (hother q hne).trans ht⟩
    change Function.update s'.runs run (some (k r)) q = none
    rw [Function.update_of_ne hne, hruns]
    exact hn
  · exact hledger.shrink rfl rfl fun _ session hs => .inr ⟨session, hs, fun _ hf => hf⟩
  · change write.file ∈ committed (Function.update s'.trace run _ q)
    by_cases hne : q = run
    · rw [hne, Function.update_self, htraces, committed_append]
      rcases hcommits (q, write) hw with hold | ⟨-, hnew⟩
      · exact List.mem_append_left _ (hne ▸ h.commits q write hold)
      · exact List.mem_append_right _ (Option.mem_toList.mpr (hnew r))
    · rw [hother q hne]
      rcases hcommits (q, write) hw with hold | ⟨hq, -⟩
      · exact h.commits q write hold
      · exact (hne hq).elim

/-- Connections are lost, the directory changes and time passes. -/
theorem Invariant.environment (h : Invariant s₀ s)
    (hs : ∀ client session, s'.sessions client = some session → s.sessions client = some session)
    (ho : s'.owner = s.owner) (hn : s'.nextClient = s.nextClient) (hrows : s'.rows = s.rows)
    (hlog : s'.log = s.log) (hruns : s'.runs = s.runs) (hnextRun : s'.nextRun = s.nextRun)
    (htrace : s'.trace = s.trace) : Invariant s₀ s' where
  runs := fun run p hp => by
    rw [hruns] at hp
    obtain ⟨v, hv, hreflects, ht⟩ := h.runs run p hp
    refine ⟨v, hv, ⟨fun client => ?_, hreflects.distinct, fun client session hsession => ?_⟩, ?_⟩
    · rw [ho]
      exact hreflects.owner client
    · exact hreflects.sessions client session (hs client session hsession)
    · rw [htrace]
      exact ht
  orderly := fun run => by
    rw [htrace]
    exact h.orderly run
  owned := fun client run hc => by
    rw [ho] at hc
    rw [hruns]
    exact h.owned client run hc
  later := fun run hle => by
    rw [hnextRun] at hle
    rw [hruns, htrace]
    exact h.later run hle
  pool :=
    { clean := fun client session hsession hfree => by
        rw [ho] at hfree
        exact h.pool.clean client session (hs client session hsession) hfree
      fresh := fun client hle => by
        rw [hn] at hle
        obtain ⟨hnone, hfree⟩ := h.pool.fresh client hle
        rw [ho]
        refine ⟨Option.eq_none_iff_forall_ne_some.mpr fun session hsession => ?_, hfree⟩
        cases hnone.symm.trans (hs client session hsession) }
  ledger := h.ledger.shrink hrows hlog fun client session hsession =>
    .inr ⟨session, hs client session hsession, fun _ hf => hf⟩
  commits := fun run write hw => by
    rw [hlog] at hw
    rw [htrace]
    exact h.commits run write hw

/-- A run crashes. -/
theorem Invariant.crash (h : Invariant s₀ s) (run : Nat) :
    Invariant s₀
      { s with
        runs := Function.update s.runs run none
        sessions := fun client => if s.owner client = some run then none else s.sessions client
        owner := fun client => if s.owner client = some run then none else s.owner client } := by
  have hsession : ∀ client session,
      (if s.owner client = some run then none else s.sessions client) = some session →
        s.owner client ≠ some run ∧ s.sessions client = some session := by
    intro client session hs
    split at hs
    next => cases hs
    next hne => exact ⟨hne, hs⟩
  have howner : ∀ client other, other ≠ run →
      ((if s.owner client = some run then none else s.owner client) = some other ↔
        s.owner client = some other) := by
    intro client other hne
    split
    next heq =>
      rw [heq]
      simp [Ne.symm hne]
    next => exact Iff.rfl
  refine ⟨fun q p hp => ?_, h.orderly, fun client q hq => ?_, fun q hle => ?_, ⟨?_, ?_⟩, ?_,
    h.commits⟩
  · have hne : q ≠ run := by
      rintro rfl
      cases (Function.update_self q none s.runs).symm.trans hp
    obtain ⟨v, hv, hreflects, ht⟩ := h.runs q p ((Function.update_of_ne hne _ _).symm.trans hp)
    refine ⟨v, hv, ⟨fun client => ?_, hreflects.distinct, fun client session hs => ?_⟩, ht⟩
    · exact (howner client q hne).trans (hreflects.owner client)
    · exact hreflects.sessions client session (hsession client session hs).2
  · have hne : q ≠ run := by
      rintro rfl
      change (if s.owner client = some q then none else s.owner client) = some q at hq
      split at hq
      next => cases hq
      next hne => exact hne hq
    change Function.update s.runs run none q ≠ none
    rw [Function.update_of_ne hne]
    exact h.owned client q ((howner client q hne).mp hq)
  · obtain ⟨hn, ht⟩ := h.later q hle
    refine ⟨?_, ht⟩
    change Function.update s.runs run none q = none
    by_cases hne : q = run
    · rw [hne, Function.update_self]
    · rw [Function.update_of_ne hne]
      exact hn
  · intro client session hs hfree
    obtain ⟨hne, hs⟩ := hsession client session hs
    change (if s.owner client = some run then none else s.owner client) = none at hfree
    rw [if_neg hne] at hfree
    exact h.pool.clean client session hs hfree
  · intro client hle
    obtain ⟨hn, hfree⟩ := h.pool.fresh client hle
    change (if s.owner client = some run then none else s.sessions client) = none ∧
      (if s.owner client = some run then none else s.owner client) = none
    rw [hn, hfree]
    simp
  · exact h.ledger.shrink rfl rfl fun client session hs =>
      .inr ⟨session, (hsession client session hs).2, fun _ hf => hf⟩

/-- **What one step does.** -/
theorem Invariant.step (rt : Runtime) (h : Invariant s₀ s) {a : MigrationSystem.Action}
    (hstep : s.step rt a = some s') : Invariant s₀ s' := by
  cases a with
  | start options rounds =>
    obtain rfl := Option.some.inj hstep
    exact h.start rt options rounds
  | answer run outcome =>
    rw [MigrationSystem.step] at hstep
    split at hstep
    next call k hrun =>
      obtain ⟨⟨r, t⟩, hr, rfl⟩ := Option.map_eq_some_iff.mp hstep
      exact h.answer hrun hr
    next => cases hstep
  | crash run =>
    rw [MigrationSystem.step] at hstep
    split at hstep
    next =>
      obtain rfl := Option.some.inj hstep
      exact h.crash run
    next => cases hstep
  | disconnect client =>
    obtain rfl := Option.some.inj hstep
    refine h.environment (fun other session hs => ?_) rfl rfl rfl rfl rfl rfl rfl
    by_cases hne : other = client
    · subst hne
      cases (Function.update_self other none s.sessions).symm.trans hs
    · exact (Function.update_of_ne hne _ _).symm.trans hs
  | edit directory =>
    obtain rfl := Option.some.inj hstep
    exact h.environment (fun _ _ hs => hs) rfl rfl rfl rfl rfl rfl rfl
  | tick n =>
    obtain rfl := Option.some.inj hstep
    exact h.environment (fun _ _ hs => hs) rfl rfl rfl rfl rfl rfl rfl

/-- At the beginning the invariant holds. -/
theorem invariant_init (h : s.Init) : Invariant s s := by
  have hsessions : ∀ client session, s.sessions client ≠ some session := by
    intro client session hs
    cases (h.sessions client).symm.trans hs
  refine ⟨fun run p hp => ?_, fun run => ?_, fun client run ho => ?_,
    fun run _ => ⟨h.runs run, h.trace run⟩, ⟨fun client session hs => ?_, fun client _ =>
    ⟨h.sessions client, h.owner client⟩⟩, ?_, fun run write hw => ?_⟩
  · cases (h.runs run).symm.trans hp
  · rw [h.trace run]
    exact ⟨List.nil_prefix, fun _ hf => nomatch hf⟩
  · cases (h.owner client).symm.trans ho
  · exact (hsessions client session hs).elim
  · refine ⟨h.versions, fun client session hs => (hsessions client session hs).elim,
      fun client _ session _ _ hs => (hsessions client session hs).elim, ?_, fun file => ?_, ?_, ?_⟩
    · rw [h.log]
      rfl
    · simp [h.log, executedFiles]
    · simp [h.log, executedFiles]
    · simp [h.log, executedFiles]
  · rw [h.log] at hw
    cases hw

/-- **Each migration is applied exactly once**: what holds of every state `s` that is reached
from `s₀`. -/
structure ExactlyOnce (s₀ s : MigrationSystem) : Prop where
  /-- the SQL of a file is committed once at most -/
  once : (executedFiles s.log).Nodup
  /-- exactly the files whose SQL is committed have a row that was not there before -/
  recorded : ∀ file, file ∈ executedFiles s.log ↔
    file ∈ versions s.rows ∧ file ∉ versions s₀.rows
  /-- the rows are what the committed writes have made of them -/
  table : s.rows = (s.log.map Prod.snd).foldl Write.apply s₀.rows
  /-- a run turns to the files in the order of their names -/
  sorted : ∀ run, (attempted (s.trace run)).Pairwise fun a b => nameLe a b = true ∧ a ≠ b
  /-- it leaves none out, and turns to no file after one that was not committed -/
  orderly : ∀ run, Orderly (s.trace run)
  /-- a run that throws for a checksum has committed nothing of that file -/
  mismatch : ∀ run file expected actual free,
    s.runs run = some (.throw (.checksumMismatch file expected actual free)) →
      ∀ write, (run, write) ∈ s.log → write.file ≠ file
  /-- a run that has ended has checked in its connections -/
  released : ∀ run, s.HasEnded run → ∀ client, s.owner client ≠ some run
  /-- and holds no lock -/
  unlocked : ∀ run, s.HasEnded run → ∀ client session lockKey,
    s.sessions client = some session → (lockKey, run) ∉ session.locks

/-- A run that has ended has no connection. -/
theorem Invariant.released (h : Invariant s₀ s) (hended : s.HasEnded run) (client : Nat) :
    s.owner client ≠ some run := by
  intro ho
  obtain ⟨v, hlock, hclient, hreflects⟩ : ∃ v : View, v.lockClient = none ∧ v.client = none ∧
      Reflects s run v := by
    rcases hended with ⟨applied, hrun⟩ | ⟨error, hrun⟩
    · obtain ⟨v, hv, hreflects, -⟩ := h.runs run _ hrun
      exact ⟨v, Finished.lockClient hv, Finished.client hv, hreflects⟩
    · obtain ⟨v, hv, hreflects, -⟩ := h.runs run _ hrun
      exact ⟨v, Finished.lockClient hv, Finished.client hv, hreflects⟩
  rcases (hreflects.owner client).mp ho with hl | hc
  · cases hlock.symm.trans hl
  · cases hclient.symm.trans hc

/-- A lock is held by a session of the run that took it. -/
theorem Invariant.holder (h : Invariant s₀ s) {lockKey : Int}
    (hs : s.sessions client = some session) (hlock : (lockKey, run) ∈ session.locks) :
    s.owner client = some run := by
  rcases ho : s.owner client with _ | other
  · rw [h.pool.clean client session hs ho] at hlock
    cases hlock
  obtain ⟨p, hp⟩ := Option.ne_none_iff_exists'.mp (h.owned client other ho)
  obtain ⟨v, -, hreflects, -⟩ := h.runs other p hp
  have hm := hreflects.sessions client session hs
  rcases (hreflects.owner client).mp ho with hl | hc
  · rw [(hm.lock hl).2] at hlock
    rcases hlocked : v.locked with _ | key
    · rw [hlocked] at hlock
      cases hlock
    · rw [hlocked] at hlock
      cases List.mem_singleton.mp hlock
      rfl
  · rw [(hm.file hc).1] at hlock
    cases hlock

/-- **The migration runner applies each file exactly once**, with any number of runs under any
lock keys, any statement that fails, connections that are lost and processes that crash. -/
theorem migrations_exactly_once (rt : Runtime) {as : List MigrationSystem.Action}
    (h₀ : s₀.Init) (h : Transition.run (MigrationSystem.step rt) s₀ as = some s) :
    ExactlyOnce s₀ s := by
  have hi : Invariant s₀ s :=
    run_invariant (fun _ _ _ hi hstep => Invariant.step rt hi hstep) (invariant_init h₀) h
  refine ⟨hi.ledger.once, fun file => ?_, hi.ledger.table, fun run => (hi.orderly run).pairwise,
    hi.orderly, fun run file expected actual free hrun write hw heq => ?_,
    fun run hended client => hi.released hended client,
    fun run hended client session lockKey hs hlock => ?_⟩
  · constructor
    · intro hf
      exact ⟨(hi.ledger.recorded file).mpr (.inr hf), hi.ledger.new file hf⟩
    · rintro ⟨hrow, hnew⟩
      exact ((hi.ledger.recorded file).mp hrow).resolve_left hnew
  · obtain ⟨v, hv, -, htrace⟩ := hi.runs run _ hrun
    have hnot := Finished.mismatch hv file expected actual free rfl
    rw [htrace, ← heq] at hnot
    exact hnot (hi.commits run write hw)
  · exact hi.released hended client (hi.holder hs hlock)

/-- A directory with two migrations. -/
def twoMigrations : Directory :=
  { entries :=
      [{ name := "0002_b.sql", isFile := true, content := "CREATE TABLE b ();" },
        { name := "notes.md", isFile := true, content := "" },
        { name := "0001_a.sql", isFile := true, content := "CREATE TABLE a ();" }]
    nodup := by decide }

/-- A database before the first migration. -/
def emptyDatabase : MigrationSystem :=
  { tableExists := false
    rows := []
    sessions := fun _ => none
    owner := fun _ => none
    nextClient := 0
    directory := twoMigrations
    now := 0
    runs := fun _ => none
    nextRun := 0
    trace := fun _ => []
    log := [] }

/-- Options with a lock key of one's own. -/
def withLockKey (lockKey : Int) : ApplyMigrationsOptions :=
  { lockKey := some lockKey, lockTimeoutMs := none, lockRetryDelayMs := none }

/-- Two runs under two lock keys: both turn to the first file, the second one waits for the
first one's row. Then the SQL of the second file fails in one run, which ends by throwing, and
the other applies it. -/
def raceUnderTwoKeys : List MigrationSystem.Action :=
  [.start (withLockKey 1) 1, .start (withLockKey 2) 1] ++
    List.replicate 10 (.answer 0 .done) ++ List.replicate 9 (.answer 1 .done) ++
    List.replicate 3 (.answer 0 .done) ++ List.replicate 4 (.answer 1 .done) ++
    List.replicate 4 (.answer 1 .done) ++ [.answer 1 .refused] ++
    List.replicate 4 (.answer 1 .done) ++ List.replicate 9 (.answer 0 .done)

theorem migrations_exactly_once_race :
    ∃ s, Transition.run (MigrationSystem.step System.webhookDeployment.rt) emptyDatabase
        raceUnderTwoKeys = some s ∧
      ExactlyOnce emptyDatabase s ∧
      executedFiles s.log = ["0001_a.sql", "0002_b.sql"] := by
  have hrun : (Transition.run (MigrationSystem.step System.webhookDeployment.rt) emptyDatabase
      raceUnderTwoKeys).map (fun s => executedFiles s.log) =
        some ["0001_a.sql", "0002_b.sql"] := by
    decide +kernel
  obtain ⟨s, h, hexecuted⟩ := Option.map_eq_some_iff.mp hrun
  have hinit : emptyDatabase.Init :=
    ⟨List.nodup_nil, fun _ => rfl, fun _ => rfl, fun _ => rfl, fun _ => rfl, rfl⟩
  exact ⟨s, h, migrations_exactly_once System.webhookDeployment.rt hinit h, hexecuted⟩

end Migrations

end Feedpulse
