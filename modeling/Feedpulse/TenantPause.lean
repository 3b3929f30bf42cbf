import Feedpulse.ClaimSafety
import Feedpulse.Footprints

/-!
# Pauses of a tenant

A feed that its tenant has paused is not fetched on schedule until the tenant lets it, unless a
fetch that was under way reports on it, a PATCH writes an older status back, or the feed had been
paused automatically before. `pause_respected` says that there is no other way; in
`disabled_feed_activated` a fetch ends after the pause.
-/

namespace Feedpulse

open Transition World

/-! ## What a request asks for -/

namespace Request

/-- The tenant pauses the feed. -/
def pauses : Request → Bool
  | .updateFeed _ _ status _ => status = some .paused
  | .disableFeed .. => true
  | _ => false

/-- The tenant gives the feed another status. -/
def resumes : Request → Bool
  | .updateFeed _ _ (some status) _ => status ≠ .paused
  | _ => false

/-- What a request that pauses writes. -/
def Writes (r : Request) (c : Call) : Prop :=
  ∀ u, c = .feed (.update u) → r.pauses = true → u.status = .paused

/-- Every request writes what it asks for. -/
theorem writes_issues (r : Request) : Prog.Issues r.Writes (System.requestProgram r) := by
  by_cases hr : r.pauses = true
  · have hupdate : ∀ (tenantId : String) (id : Nat) (pollIntervalSeconds : Option Nat),
        Prog.Issues r.Writes
          (FeedsRepository.update tenantId id (some .paused) pollIntervalSeconds) := by
      intro tenantId id pollIntervalSeconds
      refine Prog.Issues.bind (Prog.issues_invoke fun u hu => by cases hu) fun current => ?_
      cases current with
      | none => exact Prog.issues_pure _
      | some current =>
        refine Prog.Issues.bind (Prog.issues_invoke fun u hu => by cases hu) fun now => ?_
        refine Prog.issues_invoke fun u hu _ => ?_
        cases hu
        rfl
    cases r with
    | updateFeed tenantId id status pollIntervalSeconds =>
      obtain rfl : status = some .paused := by simpa [pauses] using hr
      refine Prog.Issues.bind (Prog.Issues.bind (hupdate ..) fun feed => ?_)
        fun _ => Prog.issues_pure _
      cases feed with
      | none => exact Prog.issues_throw' _
      | some feed => exact Prog.issues_pure _
    | disableFeed id tenantId =>
      refine Prog.Issues.bind (Prog.Issues.bind (hupdate ..) fun _ => Prog.issues_pure _)
        fun _ => ?_
      exact Prog.Issues.ite (fun _ => Prog.issues_pure _) fun _ => Prog.issues_throw' _
    | checkFeedNow id tenantId => cases hr
    | sendAlert alertId tenantId => cases hr
  · exact (request_issues r).mono fun c _ u _ hpauses => absurd hpauses hr

end Request

/-! ## Pauses along a run -/

/-- What tenants have asked for. -/
structure PauseLog where
  /-- the request each process works on -/
  requests : Nat → Option Request
  /-- the feeds that are paused by their tenant, by id and tenant -/
  paused : Nat → String → Bool

namespace PauseLog

/-- Before anything has run. -/
def empty : PauseLog := { requests := fun _ => none, paused := fun _ _ => false }

/-- A feed is paused by its tenant, or no longer. -/
def set (l : PauseLog) (feedId : Nat) (tenantId : String) (value : Bool) : PauseLog :=
  { l with paused := fun id tenant =>
      if id = feedId ∧ tenant = tenantId then value else l.paused id tenant }

/-- A call of a request takes effect: the tenant's update of the feed, or the job of a manual
check. -/
def executed (l : PauseLog) (pid : Nat) : Call → PauseLog
  | .feed (.update u) =>
    match l.requests pid with
    | some r =>
      if r.pauses then l.set u.id u.tenantId true
      else if r.resumes then l.set u.id u.tenantId false
      else l
    | none => l
  | .queue (.addFetchJob _ data) =>
    match l.requests pid with
    | some (.checkFeedNow _ tenantId) => l.set data.feedId tenantId false
    | _ => l
  | _ => l

/-- A step is taken. -/
def after (s : System) (l : PauseLog) : Action → PauseLog
  | .request pid r => { l with requests := Function.update l.requests pid (some r) }
  | .advance pid out =>
    match s.executedCall (.advance pid out) with
    | some (_, c) => l.executed pid c
    | none => l
  | .finish pid | .crash pid => { l with requests := Function.update l.requests pid none }
  | _ => l

end PauseLog

/-- A state of the system with its log. -/
structure Watched where
  /-- the state -/
  system : System
  /-- its log -/
  log : PauseLog

namespace Watched

variable {d : Deployment} {x x' : Watched}

/-- One step, logged. -/
def step (d : Deployment) (x : Watched) (a : Action) : Option Watched :=
  (System.step d x.system a).map fun s' =>
    { system := s', log := x.log.after x.system a }

/-- The feed is paused by its tenant. -/
def Paused (x : Watched) (f : FeedRow) : Prop := x.log.paused f.id f.tenantId = true

/-- The feeds that are paused by their tenant have the status `paused`. -/
def StayPaused (x : Watched) : Prop :=
  ∀ f ∈ x.system.world.feeds, x.Paused f → f.status = .paused

/-- The step returns no feed from a claim that is paused by its tenant. -/
def ReturnsNone (x : Watched) (a : Action) (_ : Watched) : Prop :=
  ∀ limit skipped claimed, x.system.ReturnsFeeds a limit skipped claimed →
    ∀ f ∈ claimed, ¬ x.Paused f

/-- The step touches a pause: a fetch that was under way reports on the feed, a PATCH that names
no status writes another one back, or a pause leaves the message of an automatic one. -/
inductive TouchesPause (x : Watched) (a : Action) : Prop
  /-- the report of a fetch, outside a transaction -/
  | report (pid : Nat) (u : Feeds.AfterFetch) (f : FeedRow)
    (h : x.system.executedCall a = some (pid, .feed (.updateAfterFetch u)))
    (hf : f ∈ x.system.world.feeds) (hid : f.id = u.feedId) (hpaused : x.Paused f)
  /-- the report of a fetch, by a `COMMIT` -/
  | commit (pid : Nat) (t : Txn) (u : Feeds.AfterFetch) (f : FeedRow)
    (h : x.system.executedCall a = some (pid, .ingest .commit))
    (ht : x.system.world.txn pid = some t) (hu : u ∈ t.feedUpdates)
    (hf : f ∈ x.system.world.feeds) (hid : f.id = u.feedId) (hpaused : x.Paused f)
  /-- a status that was read before -/
  | patch (pid : Nat) (u : Feeds.FeedUpdate) (r : Request) (f : FeedRow)
    (h : x.system.executedCall a = some (pid, .feed (.update u)))
    (hr : x.log.requests pid = some r) (hnone : r.pauses = false ∧ r.resumes = false)
    (hstatus : u.status ≠ .paused) (hf : f ∈ x.system.world.feeds) (hid : f.id = u.id)
    (htenant : f.tenantId = u.tenantId) (hpaused : x.Paused f)
  /-- the feed was paused automatically -/
  | pause (pid : Nat) (u : Feeds.FeedUpdate) (r : Request) (f : FeedRow)
    (h : x.system.executedCall a = some (pid, .feed (.update u)))
    (hr : x.log.requests pid = some r) (hpause : r.pauses = true)
    (hf : f ∈ x.system.world.feeds) (hid : f.id = u.id) (htenant : f.tenantId = u.tenantId)
    (hauto : Feeds.isAutoPausedError f.lastError = true)

/-! ### The invariant -/

/-- What a run keeps in which no step touches a pause. -/
structure Respected (x : Watched) : Prop where
  /-- every process keeps to its role -/
  roles : x.system.RolesKept
  /-- every request writes what it asks for -/
  requests : ∀ pid prog, x.system.procs pid = some ⟨.request, prog⟩ →
    ∃ r, x.log.requests pid = some r ∧ Prog.Issues r.Writes prog
  /-- feeds paused by their tenant cannot be claimed -/
  feeds : ∀ f ∈ x.system.world.feeds, x.Paused f →
    f.status = .paused ∧ Feeds.isAutoPausedError f.lastError = false
  /-- ids are unique -/
  keys : (x.system.world.feeds.map FeedRow.id).Nodup

theorem respected_of_init {s : System} (h : s.Init)
    (hkey : (s.world.feeds.map FeedRow.id).Nodup) : Respected ⟨s, .empty⟩ where
  roles := System.rolesKept_of_init h
  requests pid prog hp := by
    change s.procs pid = _ at hp
    rw [h.procs] at hp
    cases hp
  feeds f _ hpaused := by cases hpaused
  keys := hkey

/-- A claim returns no feed that is paused by its tenant. -/
theorem returnsNone (hx : x.Respected) (a : Action) (x' : Watched) : x.ReturnsNone a x' := by
  rintro limit skipped claimed hreturns g hg hpaused
  cases hreturns with
  | intro pid out _ _ picks jitters _ feeds hp hout hc =>
    obtain ⟨p, hp, rfl⟩ := Feeds.eq_claim_of_mem hx.keys hc hg
    obtain ⟨hmem, hclaimable⟩ := (Feeds.claimDueFeeds_eq_some hc).1 p hp
    obtain ⟨hstatus, hauto⟩ := hx.feeds p hmem hpaused
    rw [Feeds.not_claimable_of_paused hstatus hauto] at hclaimable
    cases hclaimable

/-! ### One step -/

/-- Only updates of a tenant pause feeds. -/
theorem paused_of_executed {l : PauseLog} {pid id : Nat} {tenantId : String} {c : Call}
    (hc : ∀ u, c ≠ .feed (.update u)) (h : (l.executed pid c).paused id tenantId = true) :
    l.paused id tenantId = true := by
  unfold PauseLog.executed at h
  split at h
  · rename_i u
    exact absurd rfl (hc u)
  · split at h
    · simp only [PauseLog.set] at h
      split at h
      · cases h
      · exact h
    · exact h
  · exact h

theorem after_of_executed {s : System} {l : PauseLog} {a : Action} {pid : Nat} {c : Call}
    (h : s.executedCall a = some (pid, c)) : l.after s a = l.executed pid c := by
  obtain ⟨out, role, k, rfl, -⟩ := System.executedCall_eq_some h
  simp only [PauseLog.after, h]

theorem paused_after_of_none {s : System} {l : PauseLog} {a : Action}
    (h : s.executedCall a = none) : (l.after s a).paused = l.paused := by
  cases a with
  | advance pid out => simp only [PauseLog.after, h]
  | _ => rfl

theorem requests_executed (l : PauseLog) (pid : Nat) (c : Call) :
    (l.executed pid c).requests = l.requests := by
  unfold PauseLog.executed
  split
  · split
    · split
      · rfl
      · split
        · rfl
        · rfl
    · rfl
  · split
    · rfl
    · rfl
  · rfl

theorem requests_after_advance (s : System) (l : PauseLog) (pid : Nat) (out : Outcome) :
    (l.after s (.advance pid out)).requests = l.requests := by
  rcases h : s.executedCall (.advance pid out) with _ | ⟨q, c⟩
  · simp only [PauseLog.after, h]
  · rw [after_of_executed h, requests_executed]

/-- The processes that work on a request after one process was replaced. -/
theorem requests_setProc (hx : x.Respected) {q : Nat} {p : Option Process}
    {requests : Nat → Option Request} (hsame : ∀ pid, pid ≠ q → requests pid = x.log.requests pid)
    (hnew : ∀ prog, p = some ⟨.request, prog⟩ →
      ∃ r, requests q = some r ∧ Prog.Issues r.Writes prog) :
    ∀ pid prog, System.setProc x.system.procs q p pid = some ⟨.request, prog⟩ →
      ∃ r, requests pid = some r ∧ Prog.Issues r.Writes prog := by
  intro pid prog hp
  by_cases hq : pid = q
  · subst hq
    rw [System.setProc_self] at hp
    exact hnew prog hp
  · rw [System.setProc_of_ne hq] at hp
    rw [hsame pid hq]
    exact hx.requests pid prog hp

/-- Requests write what they ask for after the step. -/
theorem requests_step (hx : x.Respected) {a : Action} {s' : System}
    (hs : System.step d x.system a = some s') :
    ∀ pid prog, s'.procs pid = some ⟨.request, prog⟩ →
      ∃ r, (x.log.after x.system a).requests pid = some r ∧ Prog.Issues r.Writes prog := by
  cases a with
  | request q r =>
    obtain ⟨-, rfl⟩ := System.start_eq_some hs
    refine requests_setProc hx (fun pid hpid => Function.update_of_ne hpid _ _) ?_
    rintro prog ⟨⟩
    exact ⟨r, Function.update_self .., r.writes_issues⟩
  | advance q out =>
    obtain ⟨role, c, k, reply, w, hp, -, rfl⟩ := System.advance_eq_some hs
    rw [requests_after_advance]
    refine requests_setProc hx (fun _ _ => rfl) ?_
    rintro prog ⟨⟩
    obtain ⟨r, hr, hissues⟩ := hx.requests q _ hp
    exact ⟨r, hr, (Prog.issues_call.mp hissues).2 reply⟩
  | finish q =>
    have hother := requests_setProc hx (q := q) (p := none)
      (fun pid hpid => Function.update_of_ne hpid none x.log.requests) nofun
    obtain ⟨role, prog, -, ⟨-, rfl⟩ | ⟨e, -, rfl⟩⟩ := System.finish_eq_some hs
    · exact hother
    · exact hother
  | crash q =>
    obtain ⟨p, -, rfl⟩ := System.crash_eq_some hs
    exact requests_setProc hx (fun pid hpid => Function.update_of_ne hpid _ _) nofun
  | tick q =>
    obtain ⟨-, rfl⟩ := System.start_eq_some hs
    exact requests_setProc hx (fun _ _ => rfl) nofun
  | takeFetch q jobId =>
    obtain ⟨job, queue, -, -, rfl⟩ := System.takeFetch_eq_some hs
    exact requests_setProc hx (fun _ _ => rfl) nofun
  | takeDelivery q jobId =>
    obtain ⟨job, queue, -, -, rfl⟩ := System.takeDelivery_eq_some hs
    exact requests_setProc hx (fun _ _ => rfl) nofun
  | promoteFetch jobId =>
    obtain ⟨queue, -, rfl⟩ := Option.map_eq_some_iff.mp hs
    exact hx.requests
  | promoteDelivery jobId =>
    obtain ⟨queue, -, rfl⟩ := Option.map_eq_some_iff.mp hs
    exact hx.requests
  | stallFetch jobId =>
    obtain ⟨queue, -, rfl⟩ := Option.map_eq_some_iff.mp hs
    exact hx.requests
  | stallDelivery jobId =>
    obtain ⟨queue, -, rfl⟩ := Option.map_eq_some_iff.mp hs
    exact hx.requests
  | elapse ms =>
    obtain rfl := Option.some.inj hs
    exact hx.requests
  | saveSettings row =>
    obtain rfl := Option.some.inj hs
    exact hx.requests

/-- The feeds a tenant has paused, in a table under a log. -/
def KeptPaused (paused : Nat → String → Bool) (feeds : List FeedRow) : Prop :=
  ∀ f ∈ feeds, paused f.id f.tenantId = true →
    f.status = .paused ∧ Feeds.isAutoPausedError f.lastError = false

/-- Changes of other columns keep pauses. -/
theorem KeptPaused.updateWhere {paused : Nat → String → Bool} {feeds : List FeedRow}
    (h : KeptPaused paused feeds) {p : FeedRow → Bool} {g : FeedRow → FeedRow}
    (hkey : ∀ f, (g f).id = f.id ∧ (g f).tenantId = f.tenantId)
    (hg : ∀ f ∈ feeds, p f = true → paused f.id f.tenantId = true →
      (g f).status = .paused ∧ Feeds.isAutoPausedError (g f).lastError = false) :
    KeptPaused paused (Table.updateWhere p g feeds) := by
  refine Table.forall_updateWhere h fun f hf hp _ hpaused => ?_
  rw [(hkey f).1, (hkey f).2] at hpaused
  exact hg f hf hp hpaused

/-- Reports on feeds that are not paused keep the pauses of the others. -/
theorem KeptPaused.reports {paused : Nat → String → Bool} (now : Nat)
    (us : List Feeds.AfterFetch) {feeds : List FeedRow} (h : KeptPaused paused feeds)
    (hus : ∀ u ∈ us, ∀ f ∈ feeds, f.id = u.feedId → paused f.id f.tenantId = false) :
    KeptPaused paused (us.foldl (fun fs u => Feeds.updateAfterFetch now u fs) feeds) := by
  induction us generalizing feeds with
  | nil => exact h
  | cons u us ih =>
    refine ih ?_ ?_
    · refine h.updateWhere (fun f => ⟨rfl, rfl⟩) fun f hf hid hpaused => ?_
      rw [hus u List.mem_cons_self f hf (by simpa using hid)] at hpaused
      cases hpaused
    · intro v hv
      exact Table.forall_updateWhere
        (P := fun f : FeedRow => f.id = v.feedId → paused f.id f.tenantId = false)
        (hus v (List.mem_cons_of_mem _ hv)) fun _ _ _ hf => hf

theorem feeds_quietStep {w w' : World} (h : System.QuietStep w w') : w'.feeds = w.feeds := by
  cases h <;> rfl

/-- A tenant updates a feed. -/
theorem keptPaused_update (hx : x.Respected) {a : Action} {pid : Nat} {u : Feeds.FeedUpdate}
    (h : x.system.executedCall a = some (pid, .feed (.update u)))
    (hno : ¬x.TouchesPause a) (now : Nat) :
    KeptPaused (x.log.executed pid (.feed (.update u))).paused
      (Feeds.applyUpdate now u x.system.world.feeds) := by
  obtain ⟨p, hp, hmay⟩ := System.mayIssue_of_executedCall hx.roles h
  obtain ⟨out, role, k, rfl, hcall⟩ := System.executedCall_eq_some h
  obtain rfl := Option.some.inj (hp.symm.trans hcall)
  have hrole : role = .request := by
    cases role with
    | request => rfl
    | _ => exact hmay.elim
  subst hrole
  obtain ⟨r, hr, hissues⟩ := hx.requests pid _ hcall
  have hwrites : r.Writes (.feed (.update u)) := (Prog.issues_call.mp hissues).1
  -- the rows the update writes, and the others
  have hrows : ∀ paused : Nat → String → Bool,
      (∀ f ∈ x.system.world.feeds, paused f.id f.tenantId = true →
        ¬(f.id = u.id ∧ f.tenantId = u.tenantId) → x.Paused f) →
      (∀ f ∈ x.system.world.feeds, f.id = u.id → f.tenantId = u.tenantId →
        paused f.id f.tenantId = true →
          u.status = .paused ∧ Feeds.isAutoPausedError f.lastError = false) →
      KeptPaused paused (Feeds.applyUpdate now u x.system.world.feeds) := by
    intro paused hothers hwritten g hg hpaused
    obtain ⟨f, hf, rfl⟩ := Table.mem_updateWhere.mp hg
    split at hpaused
    · rename_i hkey
      rw [if_pos hkey]
      simp only [Bool.and_eq_true, decide_eq_true_eq] at hkey
      exact hwritten f hf hkey.1 hkey.2 hpaused
    · rename_i hkey
      rw [if_neg hkey]
      simp only [Bool.and_eq_true, decide_eq_true_eq] at hkey
      exact hx.feeds f hf (hothers f hf hpaused hkey)
  by_cases hpauses : r.pauses = true
  · have hlog : (x.log.executed pid (.feed (.update u))).paused
        = (x.log.set u.id u.tenantId true).paused := by
      simp only [PauseLog.executed, hr, hpauses, if_true]
    rw [hlog]
    refine hrows _ (fun f _ hpaused hkey => ?_) fun f hf hid htenant _ => ?_
    · rw [PauseLog.set] at hpaused
      exact (if_neg hkey).symm.trans hpaused
    · refine ⟨hwrites u rfl hpauses, ?_⟩
      by_contra hauto
      exact hno (.pause pid u r f h hr hpauses hf hid htenant (by simpa using hauto))
  · by_cases hresumes : r.resumes = true
    · have hlog : (x.log.executed pid (.feed (.update u))).paused
          = (x.log.set u.id u.tenantId false).paused := by
        simp only [PauseLog.executed, hr, hpauses, hresumes, if_true, if_false,
          Bool.false_eq_true]
      rw [hlog]
      refine hrows _ (fun f _ hpaused hkey => ?_) fun f hf hid htenant hpaused => ?_
      · rw [PauseLog.set] at hpaused
        exact (if_neg hkey).symm.trans hpaused
      · simp [PauseLog.set, hid, htenant] at hpaused
    · have hlog : (x.log.executed pid (.feed (.update u))).paused = x.log.paused := by
        simp only [PauseLog.executed, hr, hpauses, hresumes, if_false, Bool.false_eq_true]
      rw [hlog]
      refine hrows _ (fun f _ hpaused _ => hpaused) fun f hf hid htenant hpaused => ?_
      refine ⟨?_, (hx.feeds f hf hpaused).2⟩
      by_contra hstatus
      exact hno (.patch pid u r f h hr ⟨by simpa using hpauses, by simpa using hresumes⟩ hstatus
        hf hid htenant hpaused)

/-- The pauses of the log after a step that does not touch one. -/
theorem keptPaused_step (hx : x.Respected) {a : Action} {s' : System}
    (hs : System.step d x.system a = some s') (hno : ¬x.TouchesPause a) :
    KeptPaused (x.log.after x.system a).paused s'.world.feeds := by
  rcases System.step_effect hs with ⟨pid, c, ch, r, hex, hserve⟩ | ⟨hex, hq⟩
  · rw [after_of_executed hex]
    by_cases hupdate : ∃ u, c = .feed (.update u)
    · obtain ⟨u, rfl⟩ := hupdate
      have hfeeds : s'.world.feeds
          = Feeds.applyUpdate x.system.world.now u x.system.world.feeds := by
        simp only [Call.serve, FeedCall.serve] at hserve
        split at hserve
        · rw [← (Prod.mk.inj (Option.some.inj hserve)).2]
        · cases hserve
      rw [hfeeds]
      exact keptPaused_update hx hex hno _
    · have hc : ∀ u, c ≠ .feed (.update u) := fun u hu => hupdate ⟨u, hu⟩
      -- no feed is paused by other calls
      have hold : ∀ feeds, KeptPaused x.log.paused feeds →
          KeptPaused (x.log.executed pid c).paused feeds :=
        fun feeds h f hf hpaused => h f hf (paused_of_executed hc hpaused)
      refine hold _ ?_
      have hkept : KeptPaused x.log.paused x.system.world.feeds := hx.feeds
      have he := serve_effect hserve
      generalize s'.world = w' at he
      cases he with
      | claim limit skipped picks jitters claimed feeds hclaim =>
        obtain ⟨-, rfl, -⟩ := Feeds.claimDueFeeds_eq_some hclaim
        exact hkept.updateWhere (fun f => ⟨rfl, rfl⟩) fun f hf _ hpaused => hx.feeds f hf hpaused
      | releaseStuck threshold =>
        exact hkept.updateWhere (fun f => ⟨rfl, rfl⟩) fun f hf _ hpaused => hx.feeds f hf hpaused
      | updateFeed u => exact absurd rfl (hc u)
      | reportFetch u =>
        refine hkept.updateWhere (fun f => ⟨rfl, rfl⟩) fun f hf hid hpaused => ?_
        exact absurd (.report pid u f hex hf (by simpa using hid) hpaused) hno
      | commit =>
        unfold World.commitTxn
        split
        · exact hkept
        · rename_i t ht
          refine KeptPaused.reports _ _ hkept fun u hu f hf hid => ?_
          by_contra hpaused
          exact hno (.commit pid t u f hex ht hu hf hid (Bool.eq_true_of_not_eq_false hpaused))
      | _ => exact hkept
  · rw [paused_after_of_none hex, feeds_quietStep hq]
    exact hx.feeds

theorem respected_step (hx : x.Respected) {a : Action} (h : step d x a = some x')
    (hno : ¬x.TouchesPause a) : x'.Respected := by
  obtain ⟨s', hs, rfl⟩ := Option.map_eq_some_iff.mp h
  exact
    { roles := System.rolesKept_step hx.roles hs
      requests := requests_step hx hs
      feeds := keptPaused_step hx hs hno
      keys := by
        change (s'.world.feeds.map FeedRow.id).Nodup
        rw [System.map_id_feeds_step hs]
        exact hx.keys }

/-- **A pause is respected in every run in which no step touches it.** The feeds that their
tenants have paused stay paused, and no claim returns them, until their tenant gives them
another status or asks for a check. -/
theorem pause_respected {s : System} (h : s.Init)
    (hkey : (s.world.feeds.map FeedRow.id).Nodup) {as : List Action}
    (hno : Along (step d) (fun x a _ => ¬x.TouchesPause a) ⟨s, .empty⟩ as) :
    Always (step d) StayPaused ⟨s, .empty⟩ as ∧ Along (step d) ReturnsNone ⟨s, .empty⟩ as := by
  have hinv : Always (step d) Respected ⟨s, .empty⟩ as :=
    always_of_along (fun _ _ _ hx hs hno => respected_step hx hs hno) (respected_of_init h hkey)
      hno
  refine ⟨hinv.mono fun x hx f hf hpaused => (hx.feeds f hf hpaused).1, ?_⟩
  exact hinv.along fun x a x' hx _ => returnsNone hx a x'

/-! ### A fetch that ends after the pause -/

/-- `TouchesPause`, computed. -/
def touchesPause (x : Watched) (a : Action) : Bool :=
  match x.system.executedCall a with
  | some (_, .feed (.updateAfterFetch u)) =>
    x.system.world.feeds.any fun f => f.id = u.feedId && x.log.paused f.id f.tenantId
  | some (pid, .ingest .commit) =>
    match x.system.world.txn pid with
    | none => false
    | some t => t.feedUpdates.any fun u =>
      x.system.world.feeds.any fun f => f.id = u.feedId && x.log.paused f.id f.tenantId
  | some (pid, .feed (.update u)) =>
    match x.log.requests pid with
    | none => false
    | some r => x.system.world.feeds.any fun f => f.id = u.id && f.tenantId = u.tenantId &&
      (!r.pauses && !r.resumes && u.status ≠ .paused && x.log.paused f.id f.tenantId ||
        r.pauses && Feeds.isAutoPausedError f.lastError)
  | _ => false

theorem TouchesPause.computed {a : Action} (h : x.TouchesPause a) : x.touchesPause a = true := by
  cases h with
  | report pid u f h hf hid hpaused =>
    simp only [touchesPause, h, List.any_eq_true]
    exact ⟨f, hf, by simpa [hid] using hid ▸ hpaused⟩
  | commit pid t u f h ht hu hf hid hpaused =>
    simp only [touchesPause, h, ht, List.any_eq_true]
    exact ⟨u, hu, f, hf, by simpa [hid] using hid ▸ hpaused⟩
  | patch pid u r f h hr hnone hstatus hf hid htenant hpaused =>
    simp only [touchesPause, h, hr, List.any_eq_true]
    exact ⟨f, hf, by simpa [hid, htenant, hnone, hstatus] using hid ▸ htenant ▸ hpaused⟩
  | pause pid u r f h hr hpause hf hid htenant hauto =>
    simp only [touchesPause, h, hr, List.any_eq_true]
    exact ⟨f, hf, by simp [hid, htenant, hpause, hauto]⟩

/-- The tenant disables the feed. -/
def disableFeed (pid : Nat) : List Action :=
  .request pid (.disableFeed 1 "t") :: System.proceed pid 3

/-- The feed is disabled, and a tick finds nothing to claim. -/
def disabledThenTick : List Action :=
  disableFeed 3 ++ .finish 3 :: System.schedulerTick 1 []

/-- The pause of a feed that is not being fetched is respected. -/
theorem pause_respected_disabledThenTick :
    Always (step System.webhookDeployment) StayPaused ⟨System.oneFeed, .empty⟩ disabledThenTick ∧
      Along (step System.webhookDeployment) ReturnsNone ⟨System.oneFeed, .empty⟩
        disabledThenTick := by
  have hno : Along (step System.webhookDeployment) (fun x a _ => x.touchesPause a = false)
      ⟨System.oneFeed, .empty⟩ disabledThenTick := by decide +kernel
  refine pause_respected System.oneFeed_init (by decide) (hno.mono (J := fun _ => True)
    (fun _ _ _ _ _ => trivial) (fun x a _ _ _ h htouches => ?_) trivial)
  rw [htouches.computed] at h
  cases h

instance : DecidablePred StayPaused := fun x =>
  inferInstanceAs (Decidable (∀ f ∈ x.system.world.feeds, x.log.paused f.id f.tenantId = true →
    f.status = .paused))

/-- The feed is disabled while it is fetched. -/
def disabledWhileFetched : List Action :=
  System.schedulerTick 1 [System.dueFeed] ++ System.fetchArticle 2 ++ disableFeed 3 ++
    System.proceed 2 10

/-- **A fetch that was under way activates a feed its tenant has disabled.** -/
theorem disabled_feed_activated : ¬∀ (d : Deployment) (s : System) (as : List Action), s.Init →
    (s.world.feeds.map FeedRow.id).Nodup →
      Always (step d) StayPaused ⟨s, .empty⟩ as ∧ Along (step d) ReturnsNone ⟨s, .empty⟩ as := by
  intro h
  have hstay := (h System.webhookDeployment System.oneFeed disabledWhileFetched System.oneFeed_init
    (by decide)).1
  exact absurd hstay (by decide +kernel)

end Watched

end Feedpulse
