import Feedpulse.Transition

/-!
# The scheduler process

`SchedulerRunner` runs a tick, sets a timer, and runs a tick whenever the timer fires: feeds that
are stuck are released, due feeds are enqueued and digests are sent, and what fails is logged. A
tick that takes longer than the interval is not overtaken. Shutdown clears the timer and waits for
the tick in flight, so that nothing is enqueued afterwards. The timer is set when the first tick has
ended, though, also if shutdown has come and gone by then: `quiet_after_shutdown_iff`.
-/

namespace Feedpulse

namespace SchedulerRunner

/-- What a tick is doing. -/
inductive TickStage
  /-- `releaseStuckFeedsUseCase` -/
  | releasing
  /-- `scheduleDueFeedsUseCase` -/
  | scheduling
  /-- `processTelegramDigestsUseCase` -/
  | digesting
  deriving DecidableEq, Repr

/-- The part that follows. A part that fails is logged, and the tick goes on. -/
def TickStage.next : TickStage → Option TickStage
  | releasing => some scheduling
  | scheduling => some digesting
  | digesting => none

/-- How far `start` is. -/
inductive Startup
  /-- it has not been called -/
  | notStarted
  /-- it waits for the first tick -/
  | firstTick
  /-- it has set the timer -/
  | started
  deriving DecidableEq, Repr

/-- How far `onApplicationShutdown` is. -/
inductive Shutdown
  /-- it has not been called -/
  | serving
  /-- it waits for the tick in flight -/
  | awaiting
  /-- it has ended -/
  | ended
  deriving DecidableEq, Repr

/-- The runner. -/
structure Runner where
  /-- how far `start` is -/
  startup : Startup
  /-- whether the interval is set -/
  timer : Bool
  /-- whether `inFlight` is a promise -/
  inFlight : Bool
  /-- the ticks that have begun and not ended -/
  ticks : List TickStage
  /-- how far `onApplicationShutdown` is -/
  shutdown : Shutdown
  /-- shutdown was called before the timer was set; no part of the runner -/
  early : Bool
  /-- how many ticks have begun after shutdown has ended; no part of the runner -/
  late : Nat
  deriving DecidableEq, Repr

/-- A step. -/
inductive RunnerAction
  /-- `start` is called -/
  | start
  /-- the timer fires -/
  | interval
  /-- a part of a tick ends, well or not -/
  | advance (i : Nat)
  /-- `onApplicationShutdown` is called -/
  | stop
  deriving DecidableEq, Repr

namespace Runner

/-- `runTick`: no tick begins while another is in flight. -/
def runTick (r : Runner) : Runner :=
  if r.inFlight then r
  else { r with
    inFlight := true
    ticks := r.ticks ++ [.releasing]
    late := if r.shutdown = .ended then r.late + 1 else r.late }

/-- A tick ends: `inFlight` is cleared, then those who wait for the tick go on, `start` first. -/
def endTick (r : Runner) (i : Nat) : Runner :=
  { r with
    inFlight := false
    ticks := r.ticks.eraseIdx i
    startup := if r.startup = .firstTick then .started else r.startup
    timer := r.timer || r.startup = .firstTick
    shutdown := if r.shutdown = .awaiting then .ended else r.shutdown }

/-- One step. -/
def step (r : Runner) : RunnerAction → Option Runner
  | .start =>
    if r.startup = .notStarted then some { r.runTick with startup := .firstTick } else none
  | .interval => if r.timer then some r.runTick else none
  | .advance i => (r.ticks[i]?).map fun stage =>
    match stage.next with
    | some next => { r with ticks := r.ticks.set i next }
    | none => r.endTick i
  | .stop =>
    if r.shutdown = .serving then
      some { r with
        early := r.startup ≠ .started
        timer := false
        shutdown := if r.inFlight then .awaiting else .ended }
    else none

/-- A new runner. -/
def fresh : Runner where
  startup := .notStarted
  timer := false
  inFlight := false
  ticks := []
  shutdown := .serving
  early := false
  late := 0

/-! ## The invariant -/

/-- **What the guard and the timer keep.** -/
structure Guarded (r : Runner) : Prop where
  /-- ticks do not overlap -/
  single : r.ticks.length = if r.inFlight then 1 else 0
  /-- shutdown waits for a tick -/
  awaited : r.shutdown = .awaiting → r.inFlight = true
  /-- `start` waits for a tick -/
  first : r.startup = .firstTick → r.inFlight = true
  /-- without `start` nothing runs -/
  idle : r.startup = .notStarted → r.timer = false ∧ r.inFlight = false
  /-- once it is set, the timer is cleared by shutdown only -/
  serving : r.shutdown = .serving → r.early = false ∧ (r.startup = .started → r.timer = true)
  /-- shutdown clears a timer that is set, and is too early for one that is not -/
  cleared : r.shutdown ≠ .serving → r.timer = (r.early && r.startup = .started)
  /-- shutdown came early if it came before the timer was set -/
  early : r.shutdown ≠ .serving → r.startup ≠ .started → r.early = true
  /-- ticks begin after shutdown if it came early only -/
  late : r.early = false → r.late = 0
  /-- a tick in flight after shutdown has begun after it -/
  begun : r.shutdown = .ended → r.inFlight = true → 0 < r.late
  /-- no tick begins after shutdown before it has ended -/
  before : r.shutdown ≠ .ended → r.late = 0

theorem guarded_fresh : fresh.Guarded := by
  constructor <;> simp [fresh]

variable {r r' : Runner}

/-- `start` begins the first tick. -/
theorem Guarded.start (h : r.Guarded) (hstartup : r.startup = .notStarted) :
    ({ r.runTick with startup := .firstTick } : Runner).Guarded := by
  obtain ⟨htimer, hflight⟩ := h.idle hstartup
  have hsingle := h.single
  have hserving := h.serving
  have hcleared := h.cleared
  have hearly := h.early
  have hlate := h.late
  have hbefore := h.before
  rw [hflight] at hsingle
  constructor <;> simp [runTick, hflight, htimer, hstartup] at * <;> grind

/-- The timer fires. -/
theorem Guarded.interval (h : r.Guarded) (htimer : r.timer = true) : r.runTick.Guarded := by
  by_cases hflight : r.inFlight = true
  · rw [runTick, if_pos hflight]
    exact h
  have hsingle := h.single
  have hcleared := h.cleared
  have hserving := h.serving
  have hearly := h.early
  have hlate := h.late
  have hbefore := h.before
  have hidle := h.idle
  constructor <;> simp [runTick, hflight, htimer] at * <;> grind

/-- A tick ends. -/
theorem Guarded.endTick (h : r.Guarded) {i : Nat} (hi : i < r.ticks.length) :
    (r.endTick i).Guarded := by
  have hsingle := h.single
  have hflight : r.inFlight = true := by
    by_contra hnot
    rw [if_neg hnot] at hsingle
    omega
  have hcleared := h.cleared
  have hserving := h.serving
  have hearly := h.early
  have hlate := h.late
  have hbefore := h.before
  have hidle := h.idle
  constructor <;> simp [Runner.endTick, hflight] at * <;> grind

/-- Shutdown is called. -/
theorem Guarded.stop (h : r.Guarded) (hserving : r.shutdown = .serving) :
    ({ r with
      early := r.startup ≠ .started
      timer := false
      shutdown := if r.inFlight then .awaiting else .ended } : Runner).Guarded := by
  have hsingle := h.single
  have hfirst := h.first
  have hidle := h.idle
  have hbefore := h.before
  constructor <;> simp [hserving] at * <;> grind

/-- **Each step** keeps the invariant. -/
theorem Guarded.step (h : r.Guarded) {a : RunnerAction} (hstep : r.step a = some r') :
    r'.Guarded := by
  cases a with
  | start =>
    obtain ⟨hstartup, rfl⟩ : r.startup = .notStarted ∧
        { r.runTick with startup := .firstTick } = r' := by
      simpa [Runner.step] using hstep
    exact h.start hstartup
  | interval =>
    obtain ⟨htimer, rfl⟩ : r.timer = true ∧ r.runTick = r' := by simpa [Runner.step] using hstep
    exact h.interval htimer
  | advance i =>
    obtain ⟨stage, hstage, rfl⟩ := Option.map_eq_some_iff.mp hstep
    obtain ⟨hi, -⟩ := List.getElem?_eq_some_iff.mp hstage
    rcases stage.next with _ | next
    · exact h.endTick hi
    · exact { h with single := by rw [List.length_set]; exact h.single }
  | stop =>
    obtain ⟨hserving, hstop⟩ := Option.ite_none_right_eq_some.mp hstep
    obtain rfl := Option.some.inj hstop
    exact h.stop hserving

theorem guarded_of_run {as : List RunnerAction}
    (hrun : Transition.run step fresh as = some r) : r.Guarded :=
  Transition.run_invariant (fun _ _ _ h hstep => h.step hstep) guarded_fresh hrun

/-- What shutdown has ended stays ended, early or not. -/
theorem ended_step {a : RunnerAction} (hended : r.shutdown = .ended)
    (hstep : r.step a = some r') : r'.shutdown = .ended ∧ r'.early = r.early := by
  have htick : r.runTick.shutdown = r.shutdown ∧ r.runTick.early = r.early := by
    unfold runTick
    split <;> exact ⟨rfl, rfl⟩
  cases a with
  | start =>
    obtain ⟨-, rfl⟩ : r.startup = .notStarted ∧
        { r.runTick with startup := .firstTick } = r' := by
      simpa [Runner.step] using hstep
    exact ⟨htick.1.trans hended, htick.2⟩
  | interval =>
    obtain ⟨-, rfl⟩ : r.timer = true ∧ r.runTick = r' := by simpa [Runner.step] using hstep
    exact ⟨htick.1.trans hended, htick.2⟩
  | advance i =>
    obtain ⟨stage, -, rfl⟩ := Option.map_eq_some_iff.mp hstep
    rcases stage.next with _ | next
    · simp [Runner.endTick, hended]
    · exact ⟨hended, rfl⟩
  | stop => simp [Runner.step, hended] at hstep

/-- Without a tick in flight there is none. -/
theorem Guarded.ticks_eq_nil (h : r.Guarded) (hflight : r.inFlight = false) : r.ticks = [] := by
  have hsingle := h.single
  rw [if_neg (Bool.eq_false_iff.mp hflight)] at hsingle
  exact List.length_eq_zero_iff.mp hsingle

/-- **Ticks never overlap, and shutdown is final unless it came too early**: in every run at most
one tick is in flight, and after shutdown has ended no tick is in flight or begins ever again,
exactly if the timer was set when shutdown was called. -/
theorem quiet_after_shutdown_iff {as : List RunnerAction}
    (hrun : Transition.run step fresh as = some r) :
    r.ticks.length ≤ 1 ∧ (r.shutdown = .ended →
      ((∀ bs r', Transition.run step r bs = some r' → r'.ticks = []) ↔ r.early = false)) := by
  have hguarded : r.Guarded :=
    Transition.run_invariant (fun _ _ _ h hstep => h.step hstep) guarded_fresh hrun
  refine ⟨?_, fun hended => ⟨fun hquiet => ?_, fun hearly bs r' hrest => ?_⟩⟩
  · rw [hguarded.single]
    split <;> omega
  · -- a shutdown that came early is followed by a tick
    by_contra hearly
    rw [Bool.not_eq_false] at hearly
    have hflight : r.inFlight = false := by
      by_contra hflight
      rw [Bool.not_eq_false] at hflight
      have hsingle := hguarded.single
      rw [hquiet [] r rfl, if_pos hflight] at hsingle
      cases hsingle
    have hbegins : r.runTick.ticks ≠ [] := by simp [runTick, hflight]
    rcases hstartup : r.startup with _ | _ | _
    · exact hbegins (hquiet [.start] { r.runTick with startup := .firstTick }
        (by simp [Runner.step, hstartup]))
    · rw [hguarded.first hstartup] at hflight
      cases hflight
    · have htimer := hguarded.cleared (by rw [hended]; nofun)
      rw [hearly, hstartup] at htimer
      exact hbegins (hquiet [.interval] r.runTick (by simp [Runner.step, htimer]))
  · obtain ⟨hguarded', hended', hearly'⟩ : r'.Guarded ∧ r'.shutdown = .ended ∧
        r'.early = false := by
      refine Transition.run_invariant (I := fun q => q.Guarded ∧ q.shutdown = .ended ∧
        q.early = false) (fun q a q' hq hstep => ?_) ⟨hguarded, hended, hearly⟩ hrest
      obtain ⟨hshutdown, heq⟩ := ended_step hq.2.1 hstep
      exact ⟨hq.1.step hstep, hshutdown, heq.trans hq.2.2⟩
    refine hguarded'.ticks_eq_nil (Bool.eq_false_iff.mpr fun hflight => ?_)
    have hlate := hguarded'.begun hended' hflight
    rw [hguarded'.late hearly'] at hlate
    exact absurd hlate (Nat.lt_irrefl 0)

/-- Shutdown is called during the first tick, waits for it and ends; the timer is set then, and
fires. -/
def shutdownDuringFirstTick : List RunnerAction :=
  [.start, .advance 0, .stop, .advance 0, .advance 0]

theorem quiet_after_shutdown_iff_early : ∃ r,
    Transition.run step fresh shutdownDuringFirstTick = some r ∧ r.shutdown = .ended ∧
    ¬∀ bs r', Transition.run step r bs = some r' → r'.ticks = [] := by
  have hend : (Transition.run step fresh shutdownDuringFirstTick).map
      (fun r => (r.shutdown, r.early)) = some (.ended, true) := by decide
  obtain ⟨r, hrun, hr⟩ := Option.map_eq_some_iff.mp hend
  obtain ⟨hended, hearly⟩ := Prod.mk.inj hr
  refine ⟨r, hrun, hended, fun hquiet => ?_⟩
  rw [(quiet_after_shutdown_iff hrun).2 hended |>.mp hquiet] at hearly
  cases hearly

end Runner

end SchedulerRunner

end Feedpulse
