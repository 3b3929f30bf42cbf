import Feedpulse.RequestPacing

/-!
# How long a call waits for its slot

A call without competitors waits for the backoff and for at most one interval. What it waits is
bounded exactly as long as no such call meets a deadline that is farther away; the cap of the
backoff is only applied where the backoff is computed, not where a header asks for it.
-/

namespace Feedpulse

namespace DomainRateLimiter

open Transition

variable (rt : RateRuntime) (options : RateLimiterOptions)

/-- The longest wait: the longest backoff and one interval. -/
def longestWait : ℚ := options.maxBackoffMs + options.minIntervalMs

/-- Calls without competitors set their timers for at most the longest wait. -/
structure RateState.WaitsBounded (s : RateState) : Prop where
  /-- those that still wait -/
  waiting : ∀ w ∈ s.waiters, w.alone = true → w.slept ≤ longestWait options
  /-- those that have returned -/
  returned : ∀ p ∈ s.passages, p.alone = true → p.slept ≤ longestWait options

/-- A call without competitors that begins while its host is backed off finds a deadline for
which its timer takes at most the longest wait. -/
def DeadlineNear (s : RateState) (a : RateAction) (_ : RateState) : Prop :=
  match a with
  | .waitForSlot _ url =>
    (∀ w ∈ s.waiters, w.domain ≠ getDomainKey rt url) → 0 < getBackoffRemainingMs rt s url →
      rt.timerDelay (getBackoffRemainingMs rt s url) ≤ longestWait options
  | _ => True

/-- A header asks for at most the longest wait. -/
def RetryAfterNear (s : RateState) (a : RateAction) (_ : RateState) : Prop :=
  match a with
  | .applyBackoff _ retryAfterHeader _ =>
    retryAfterMs rt s.now retryAfterHeader ≤ longestWait options
  | _ => True

/-- A timer is not set for longer than it is asked to, or than a millisecond. -/
def Brief : Prop := ∀ ms, rt.timerDelay ms ≤ max 1 ms

/-- What every run keeps: calls without competitors are alone on their host, and while one waits
out a backoff the last request of its host is older than its call. -/
structure RateState.Tracks (s : RateState) : Prop where
  /-- the clock -/
  clock : 0 ≤ s.now
  /-- the last request lies in the past -/
  past : ∀ domain t, s.lastRequestAt domain = some t → t ≤ s.now
  /-- each call waits once -/
  distinct : ∀ w ∈ s.waiters, ∀ w' ∈ s.waiters, w.pid = w'.pid → w = w'
  /-- a call without competitors is the only one for its host -/
  lone : ∀ w ∈ s.waiters, w.alone = true → ∀ w' ∈ s.waiters, w'.domain = w.domain → w' = w
  /-- its timer is set from a time after the last request -/
  backing : ∀ w ∈ s.waiters, w.alone = true → ∀ backoffRemaining,
    w.stage = .backingOff backoffRemaining →
    (s.lastRequestAt w.domain).getD 0 + w.slept ≤ w.due

instance (s s' : RateState) : (a : RateAction) → Decidable (RetryAfterNear rt options s a s')
  | .applyBackoff _ _ _ => inferInstanceAs (Decidable (_ ≤ _))
  | .tick _ | .waitForSlot _ _ | .wake _ | .clearBackoff _ => inferInstanceAs (Decidable True)

variable {rt options} {s : RateState}

theorem minIntervalMs_pos : 0 < options.minIntervalMs := by
  have hrate : (0 : ℚ) < options.requestsPerSecond := by
    exact_mod_cast options.requestsPerSecond_pos
  exact div_pos (by norm_num) hrate

theorem one_add_minIntervalMs_le : 1 + options.minIntervalMs ≤ longestWait options := by
  have h : (1 : ℚ) ≤ options.maxBackoffMs := by exact_mod_cast options.maxBackoffMs_pos
  unfold longestWait
  linarith

/-- A competitor for a host takes away the claim of a call to be alone. -/
def Waiter.crowd (domain : String) (w : Waiter) : Waiter :=
  if w.domain = domain then { w with alone := false } else w

/-- The calls that wait when a competitor for a host begins. -/
def crowded (domain : String) (waiters : List Waiter) : List Waiter :=
  waiters.map (Waiter.crowd domain)

@[simp] theorem Waiter.crowd_pid (domain : String) (w : Waiter) : (w.crowd domain).pid = w.pid := by
  simp only [Waiter.crowd]
  split <;> rfl

@[simp] theorem Waiter.crowd_domain (domain : String) (w : Waiter) :
    (w.crowd domain).domain = w.domain := by
  simp only [Waiter.crowd]
  split <;> rfl

@[simp] theorem Waiter.crowd_slept (domain : String) (w : Waiter) :
    (w.crowd domain).slept = w.slept := by
  simp only [Waiter.crowd]
  split <;> rfl

/-- No call for the host is alone any more. -/
theorem ne_of_mem_crowded {domain : String} {waiters : List Waiter} {w : Waiter}
    (hw : w ∈ crowded domain waiters) (halone : w.alone = true) : w.domain ≠ domain := by
  obtain ⟨w, -, rfl⟩ := List.mem_map.mp hw
  intro hdomain
  rw [Waiter.crowd_domain] at hdomain
  rw [Waiter.crowd, if_pos hdomain] at halone
  cases halone

namespace RateState.Tracks

theorem of_init (h : s.Init) : s.Tracks := by
  obtain ⟨hclock, hlast, -, hwaiters, -⟩ := h
  refine ⟨hclock, ?_, ?_, ?_, ?_⟩
  · intro domain t ht
    rw [hlast] at ht
    cases ht
  all_goals
    intro w hw
    rw [hwaiters] at hw
    cases hw

theorem lastRequest_le (h : s.Tracks) (domain : String) :
    (s.lastRequestAt domain).getD 0 ≤ s.now := by
  rcases hlast : s.lastRequestAt domain with _ | t
  · exact h.clock
  · exact h.past domain t hlast

/-- A request is recorded for a host for which no call without competitors waits. -/
theorem letThrough (h : s.Tracks) {w : Waiter} {backoffRemaining elapsed : ℚ}
    (hother : ∀ w' ∈ s.waiters, w'.alone = true → w'.domain ≠ w.domain) :
    (letThrough options s w backoffRemaining elapsed).Tracks := by
  refine ⟨h.clock, ?_, h.distinct, h.lone, ?_⟩
  · intro domain t ht
    by_cases hdomain : domain = w.domain
    · subst hdomain
      simp only [DomainRateLimiter.letThrough, Function.update_self, Option.some.injEq] at ht
      exact ht.symm.le
    · exact h.past domain t ((Function.update_of_ne hdomain ..).symm.trans ht)
  · intro w' hw' halone backoffRemaining' hstage
    have hlast : (DomainRateLimiter.letThrough options s w backoffRemaining elapsed).lastRequestAt
        w'.domain = s.lastRequestAt w'.domain :=
      Function.update_of_ne (hother w' hw' halone) ..
    rw [hlast]
    exact h.backing w' hw' halone backoffRemaining' hstage

/-- A call that comes in: a new one, and alone if it is said to be. -/
theorem cons (h : s.Tracks) {w : Waiter} (hpid : ∀ w' ∈ s.waiters, w'.pid ≠ w.pid)
    (halone : w.alone = true → ∀ w' ∈ s.waiters, w'.domain ≠ w.domain)
    (hother : ∀ w' ∈ s.waiters, w'.alone = true → w'.domain ≠ w.domain)
    (hbacking : ∀ backoffRemaining, w.stage = .backingOff backoffRemaining →
      (s.lastRequestAt w.domain).getD 0 + w.slept ≤ w.due) :
    { s with waiters := w :: s.waiters }.Tracks := by
  refine ⟨h.clock, h.past, ?_, ?_, ?_⟩
  · intro u hu v hv huv
    rcases List.mem_cons.mp hu with rfl | hu'
    · rcases List.mem_cons.mp hv with rfl | hv'
      · rfl
      · exact absurd huv.symm (hpid v hv')
    · rcases List.mem_cons.mp hv with rfl | hv'
      · exact absurd huv (hpid u hu')
      · exact h.distinct u hu' v hv' huv
  · intro u hu hua v hv hvu
    rcases List.mem_cons.mp hu with rfl | hu'
    · rcases List.mem_cons.mp hv with rfl | hv'
      · rfl
      · exact absurd hvu (halone hua v hv')
    · rcases List.mem_cons.mp hv with rfl | hv'
      · exact absurd hvu.symm (hother u hu' hua)
      · exact h.lone u hu' hua v hv' hvu
  · intro u hu hua backoffRemaining hstage
    rcases List.mem_cons.mp hu with rfl | hu'
    · exact hbacking backoffRemaining hstage
    · exact h.backing u hu' hua backoffRemaining hstage

/-- Fewer calls. -/
theorem filter (h : s.Tracks) (keep : Waiter → Bool) :
    { s with waiters := s.waiters.filter keep }.Tracks :=
  ⟨h.clock, h.past,
    fun u hu v hv => h.distinct u (List.mem_of_mem_filter hu) v (List.mem_of_mem_filter hv),
    fun u hu hua v hv => h.lone u (List.mem_of_mem_filter hu) hua v (List.mem_of_mem_filter hv),
    fun u hu => h.backing u (List.mem_of_mem_filter hu)⟩

/-- A competitor begins: the calls for its host are no longer alone. -/
theorem crowd (h : s.Tracks) (domain : String) :
    { s with waiters := crowded domain s.waiters }.Tracks := by
  have hkeep : ∀ w : Waiter, (w.crowd domain).alone = true → w.crowd domain = w := by
    intro w hw
    simp only [Waiter.crowd] at hw ⊢
    split at hw
    · cases hw
    · rename_i hdomain
      rw [if_neg hdomain]
  refine ⟨h.clock, h.past, ?_, ?_, ?_⟩
  · intro u hu v hv huv
    obtain ⟨u, hu', rfl⟩ := List.mem_map.mp hu
    obtain ⟨v, hv', rfl⟩ := List.mem_map.mp hv
    rw [Waiter.crowd_pid, Waiter.crowd_pid] at huv
    rw [h.distinct u hu' v hv' huv]
  · intro u hu hua v hv hvu
    obtain ⟨u, hu', rfl⟩ := List.mem_map.mp hu
    obtain ⟨v, hv', rfl⟩ := List.mem_map.mp hv
    rw [Waiter.crowd_domain, Waiter.crowd_domain] at hvu
    have halone : u.alone = true := hkeep u hua ▸ hua
    rw [h.lone u hu' halone v hv' hvu]
  · intro u hu hua
    obtain ⟨u, hu', rfl⟩ := List.mem_map.mp hu
    have heq := hkeep u hua
    rw [heq] at hua ⊢
    exact h.backing u hu' hua

/-- A call reads the last request: it sets its timer for the interval or goes through. -/
theorem enterPacing (h : s.Tracks) {w : Waiter} (hpid : ∀ w' ∈ s.waiters, w'.pid ≠ w.pid)
    (halone : w.alone = true → ∀ w' ∈ s.waiters, w'.domain ≠ w.domain)
    (hother : ∀ w' ∈ s.waiters, w'.alone = true → w'.domain ≠ w.domain)
    (backoffRemaining : ℚ) : (enterPacing rt options s w backoffRemaining).Tracks := by
  simp only [DomainRateLimiter.enterPacing]
  split
  · exact h.cons hpid halone hother fun _ hstage => by cases hstage
  · exact h.letThrough hother

/-- **One step.** -/
theorem step (h : s.Tracks) {a : RateAction} {s' : RateState}
    (hs : step rt options s a = some s') : s'.Tracks := by
  cases a with
  | tick elapsed =>
    obtain ⟨helapsed, hs⟩ := Option.ite_none_right_eq_some.mp hs
    cases hs
    have hnow : s.now ≤ s.now + elapsed := by linarith
    exact ⟨h.clock.trans hnow, fun domain t ht => (h.past domain t ht).trans hnow, h.distinct,
      h.lone, h.backing⟩
  | waitForSlot pid url =>
    obtain ⟨hpid, hs⟩ := Option.ite_none_left_eq_some.mp hs
    cases hs
    have hfresh : ∀ w ∈ crowded (getDomainKey rt url) s.waiters, w.pid ≠ pid := by
      intro w hw heq
      obtain ⟨w, hw', rfl⟩ := List.mem_map.mp hw
      rw [Waiter.crowd_pid] at heq
      exact hpid (List.any_eq_true.mpr ⟨w, hw', decide_eq_true heq⟩)
    have halone : (s.waiters.all fun w => w.domain ≠ getDomainKey rt url) = true →
        ∀ w ∈ crowded (getDomainKey rt url) s.waiters, w.domain ≠ getDomainKey rt url := by
      intro hall w hw
      obtain ⟨w, hw', rfl⟩ := List.mem_map.mp hw
      rw [Waiter.crowd_domain]
      exact of_decide_eq_true (List.all_eq_true.mp hall w hw')
    simp only [waitForSlot]
    split
    · refine (h.crowd (getDomainKey rt url)).cons hfresh halone
        (fun w hw => ne_of_mem_crowded hw) ?_
      intro _ _
      exact add_le_add_left (h.lastRequest_le _) _
    · exact (h.crowd (getDomainKey rt url)).enterPacing hfresh halone
        (fun w hw => ne_of_mem_crowded hw) _
  | wake pid =>
    simp only [DomainRateLimiter.step] at hs
    rcases hfind : s.waiters.find? (fun w => w.pid = pid) with _ | w
    · rw [hfind] at hs
      cases hs
    · rw [hfind] at hs
      obtain ⟨-, hs⟩ := Option.ite_none_right_eq_some.mp hs
      cases hs
      have hw := List.mem_of_find?_eq_some hfind
      have hpid : ∀ w' ∈ s.waiters.filter fun other => other.pid ≠ w.pid, w'.pid ≠ w.pid := by
        intro w' hw'
        exact of_decide_eq_true (List.mem_filter.mp hw').2
      have halone : w.alone = true →
          ∀ w' ∈ s.waiters.filter fun other => other.pid ≠ w.pid, w'.domain ≠ w.domain := by
        intro hwa w' hw' hdomain
        exact hpid w' hw' (congrArg Waiter.pid
          (h.lone w hw hwa w' (List.mem_of_mem_filter hw') hdomain))
      have hother : ∀ w' ∈ s.waiters.filter fun other => other.pid ≠ w.pid,
          w'.alone = true → w'.domain ≠ w.domain := by
        intro w' hw' hwa hdomain
        exact hpid w' hw' (congrArg Waiter.pid
          (h.lone w' (List.mem_of_mem_filter hw') hwa w hw hdomain.symm)).symm
      simp only [resume]
      rcases w.stage with backoffRemaining | ⟨backoffRemaining, lastRequest, elapsed⟩
      · exact (h.filter _).enterPacing hpid halone hother _
      · exact (h.filter _).letThrough hother
  | applyBackoff url retryAfterHeader isRetry =>
    cases hs
    simp only [applyBackoff]
    split
    · exact ⟨h.clock, h.past, h.distinct, h.lone, h.backing⟩
    · exact h
  | clearBackoff url =>
    cases hs
    exact ⟨h.clock, h.past, h.distinct, h.lone, h.backing⟩

end RateState.Tracks

/-! ## The bound -/

namespace RateState.WaitsBounded

theorem of_init (h : s.Init) : s.WaitsBounded options := by
  obtain ⟨-, -, -, hwaiters, hpassages⟩ := h
  refine ⟨?_, ?_⟩
  · rw [hwaiters]
    exact fun _ hw => by cases hw
  · rw [hpassages]
    exact fun _ hp => by cases hp

/-- A call with a bounded wait goes through. -/
theorem letThrough (h : s.WaitsBounded options) {w : Waiter} {backoffRemaining elapsed : ℚ}
    (hw : w.alone = true → w.slept ≤ longestWait options) :
    (letThrough options s w backoffRemaining elapsed).WaitsBounded options := by
  refine ⟨h.waiting, ?_⟩
  intro p hp halone
  rcases List.mem_cons.mp hp with rfl | hp'
  · exact hw halone
  · exact h.returned p hp' halone

/-- The pacing sleep never takes a call without competitors beyond the longest wait: either the
backoff was as long as the interval and there is none, or both together are an interval. -/
theorem enterPacing (hbrief : Brief rt) (h : s.WaitsBounded options) {w : Waiter}
    (hold : w.alone = true → (s.lastRequestAt w.domain).getD 0 + w.slept ≤ s.now)
    (hw : w.alone = true → w.slept ≤ longestWait options) (backoffRemaining : ℚ) :
    (enterPacing rt options s w backoffRemaining).WaitsBounded options := by
  simp only [DomainRateLimiter.enterPacing]
  split
  · rename_i hlt
    refine ⟨?_, h.returned⟩
    intro w' hw' halone
    rcases List.mem_cons.mp hw' with rfl | hw''
    · have hslept := hold halone
      have hdelay := hbrief (options.minIntervalMs - (s.now - (s.lastRequestAt w.domain).getD 0))
      have hlong : 1 + options.minIntervalMs ≤ longestWait options := one_add_minIntervalMs_le
      show w.slept + rt.timerDelay _ ≤ longestWait options
      rcases le_max_iff.mp hdelay with hdelay | hdelay
      · linarith
      · linarith
    · exact h.waiting w' hw'' halone
  · exact h.letThrough hw

/-- Other calls wait, some of which are no longer alone. -/
theorem withWaiters (h : s.WaitsBounded options) {waiters : List Waiter}
    (hwaiters : ∀ w ∈ waiters, w.alone = true → w.slept ≤ longestWait options) :
    { s with waiters := waiters }.WaitsBounded options :=
  ⟨hwaiters, h.returned⟩

/-- **One step.** Exactly the calls that find a near deadline keep the waits bounded. -/
theorem step_iff (hbrief : Brief rt) (ht : s.Tracks) (h : s.WaitsBounded options)
    {a : RateAction} {s' : RateState} (hs : step rt options s a = some s') :
    s'.WaitsBounded options ↔ DeadlineNear rt options s a s' := by
  cases a with
  | tick elapsed =>
    obtain ⟨-, hs⟩ := Option.ite_none_right_eq_some.mp hs
    cases hs
    exact iff_of_true ⟨h.waiting, h.returned⟩ trivial
  | waitForSlot pid url =>
    obtain ⟨-, hs⟩ := Option.ite_none_left_eq_some.mp hs
    cases hs
    -- who is alone after the call has come was alone before
    have hothers : ∀ w ∈ crowded (getDomainKey rt url) s.waiters, w.alone = true →
        w.slept ≤ longestWait options := by
      intro w hw halone
      obtain ⟨w, hw', rfl⟩ := List.mem_map.mp hw
      rw [Waiter.crowd_slept]
      refine h.waiting w hw' ?_
      simp only [Waiter.crowd] at halone
      split at halone
      · cases halone
      · exact halone
    simp only [waitForSlot]
    split
    · rename_i hpositive
      -- the new call backs off: its wait is bounded exactly if the deadline is near
      constructor
      · intro hbounded hfree _
        exact hbounded.waiting _ List.mem_cons_self
          (List.all_eq_true.mpr fun w hw => decide_eq_true (hfree w hw))
      · intro hnear
        refine h.withWaiters ?_
        intro w hw halone
        rcases List.mem_cons.mp hw with rfl | hw'
        · exact hnear (fun w' hw' => of_decide_eq_true (List.all_eq_true.mp halone w' hw'))
            hpositive
        · exact hothers w hw' halone
    · rename_i hzero
      -- the new call is paced at once, for one interval at the most
      have hlong : 1 + options.minIntervalMs ≤ longestWait options := one_add_minIntervalMs_le
      have hinterval : 0 < options.minIntervalMs := minIntervalMs_pos
      refine iff_of_true ?_ fun _ hpositive => absurd hpositive hzero
      refine (h.withWaiters hothers).enterPacing hbrief (fun _ => ?_) (fun _ => ?_) _
      · show (s.lastRequestAt (getDomainKey rt url)).getD 0 + 0 ≤ s.now
        rw [add_zero]
        exact ht.lastRequest_le _
      · show (0 : ℚ) ≤ longestWait options
        linarith
  | wake pid =>
    simp only [DomainRateLimiter.step] at hs
    rcases hfind : s.waiters.find? (fun w => w.pid = pid) with _ | w
    · rw [hfind] at hs
      cases hs
    · rw [hfind] at hs
      obtain ⟨hdue, hs⟩ := Option.ite_none_right_eq_some.mp hs
      cases hs
      refine iff_of_true ?_ trivial
      have hw := List.mem_of_find?_eq_some hfind
      have hwaiting : ∀ w' ∈ s.waiters.filter fun other => other.pid ≠ w.pid,
          w'.alone = true → w'.slept ≤ longestWait options :=
        fun w' hw' => h.waiting w' (List.mem_of_mem_filter hw')
      have hrest := h.withWaiters hwaiting
      simp only [resume]
      rcases hstage : w.stage with backoffRemaining | ⟨backoffRemaining, lastRequest, elapsed⟩
      · exact hrest.enterPacing hbrief
          (fun halone => (ht.backing w hw halone _ hstage).trans hdue) (h.waiting w hw) _
      · exact hrest.letThrough (h.waiting w hw)
  | applyBackoff url retryAfterHeader isRetry =>
    cases hs
    refine iff_of_true ?_ trivial
    simp only [applyBackoff]
    split
    · exact ⟨h.waiting, h.returned⟩
    · exact h
  | clearBackoff url =>
    cases hs
    exact iff_of_true ⟨h.waiting, h.returned⟩ trivial

end RateState.WaitsBounded

/-! ## Deadlines -/

/-- No deadline is farther away than the longest wait. -/
structure RateState.DeadlinesNear (options : RateLimiterOptions) (s : RateState) : Prop where
  /-- the clock -/
  clock : 0 ≤ s.now
  /-- the deadlines -/
  near : ∀ domain deadline, s.backoffUntil domain = some deadline →
    deadline ≤ s.now + longestWait options

namespace RateState.DeadlinesNear

theorem of_init (h : s.Init) : s.DeadlinesNear options := by
  refine ⟨h.1, ?_⟩
  intro domain deadline hdeadline
  rw [h.2.2.1] at hdeadline
  cases hdeadline

/-- The backoff is capped where it is computed; a header is near by assumption. -/
theorem backoffMs_le {domain : String} {retryAfterHeader : Option String} {isRetry : Bool}
    (hnear : retryAfterMs rt s.now retryAfterHeader ≤ longestWait options) :
    backoffMs rt options s domain retryAfterHeader isRetry ≤ longestWait options := by
  have hinterval : 0 < options.minIntervalMs := minIntervalMs_pos
  simp only [backoffMs]
  split
  · refine (min_le_left _ _).trans ?_
    unfold longestWait
    linarith
  · exact hnear

/-- **One step.** Only a header can take a deadline farther away. -/
theorem step (h : s.DeadlinesNear options) {a : RateAction} {s' : RateState}
    (hs : step rt options s a = some s') (hc : RetryAfterNear rt options s a s') :
    s'.DeadlinesNear options := by
  have hpace : ∀ {s : RateState} (w : Waiter) (backoffRemaining : ℚ), s.DeadlinesNear options →
      (enterPacing rt options s w backoffRemaining).DeadlinesNear options := by
    intro s w backoffRemaining h
    simp only [enterPacing]
    split
    · exact ⟨h.clock, h.near⟩
    · exact ⟨h.clock, h.near⟩
  cases a with
  | tick elapsed =>
    obtain ⟨helapsed, hs⟩ := Option.ite_none_right_eq_some.mp hs
    cases hs
    refine ⟨h.clock.trans (by linarith), ?_⟩
    intro domain deadline hdeadline
    have hold := h.near domain deadline hdeadline
    show deadline ≤ s.now + elapsed + longestWait options
    linarith
  | waitForSlot pid url =>
    obtain ⟨-, hs⟩ := Option.ite_none_left_eq_some.mp hs
    cases hs
    simp only [waitForSlot]
    split
    · exact ⟨h.clock, h.near⟩
    · exact hpace _ _ ⟨h.clock, h.near⟩
  | wake pid =>
    simp only [DomainRateLimiter.step] at hs
    rcases hfind : s.waiters.find? (fun w => w.pid = pid) with _ | w
    · rw [hfind] at hs
      cases hs
    · rw [hfind] at hs
      obtain ⟨-, hs⟩ := Option.ite_none_right_eq_some.mp hs
      cases hs
      simp only [resume]
      split
      · exact hpace _ _ ⟨h.clock, h.near⟩
      · exact ⟨h.clock, h.near⟩
  | applyBackoff url retryAfterHeader isRetry =>
    cases hs
    simp only [applyBackoff]
    split
    · refine ⟨h.clock, ?_⟩
      intro domain deadline hdeadline
      by_cases hdomain : domain = getDomainKey rt url
      · subst hdomain
        simp only [Function.update_self, Option.some.injEq] at hdeadline
        have hle : backoffMs rt options s (getDomainKey rt url) retryAfterHeader isRetry
            ≤ longestWait options := backoffMs_le hc
        show deadline ≤ s.now + longestWait options
        linarith
      · exact h.near domain deadline ((Function.update_of_ne hdomain ..).symm.trans hdeadline)
    · exact h
  | clearBackoff url =>
    cases hs
    refine ⟨h.clock, ?_⟩
    intro domain deadline hdeadline
    by_cases hdomain : domain = getDomainKey rt url
    · subst hdomain
      simp only [clearBackoff, Function.update_self] at hdeadline
      cases hdeadline
    · exact h.near domain deadline ((Function.update_of_ne hdomain ..).symm.trans hdeadline)

/-- While deadlines are near, every call finds a near one. -/
theorem deadlineNear (hbrief : Brief rt) (h : s.DeadlinesNear options) (a : RateAction)
    (s' : RateState) : DeadlineNear rt options s a s' := by
  cases a with
  | waitForSlot pid url =>
    intro _ hpositive
    have hlong : 1 + options.minIntervalMs ≤ longestWait options := one_add_minIntervalMs_le
    have hinterval : 0 < options.minIntervalMs := minIntervalMs_pos
    have hremaining : getBackoffRemainingMs rt s url ≤ longestWait options := by
      rcases hdeadline : s.backoffUntil (getDomainKey rt url) with _ | deadline
      · have hclock := h.clock
        simp only [getBackoffRemainingMs, RateState.remaining, hdeadline, Option.getD_none]
        exact max_le (by linarith) (by linarith)
      · have hle := h.near _ deadline hdeadline
        simp only [getBackoffRemainingMs, RateState.remaining, hdeadline, Option.getD_some]
        exact max_le (by linarith) (by linarith)
    exact (hbrief _).trans (max_le (by linarith) hremaining)
  | tick _ => trivial
  | wake _ => trivial
  | applyBackoff _ _ _ => trivial
  | clearBackoff _ => trivial

end RateState.DeadlinesNear

/-- **A call without competitors waits at most the longest backoff and one interval** in exactly
those runs in which such a call never finds a deadline that is farther away; in particular in
those in which no header asks for more. -/
theorem waits_bounded (hbrief : Brief rt) (hinit : s.Init) (as : List RateAction) :
    (Always (step rt options) (fun s => s.WaitsBounded options) s as ↔
      Along (step rt options) (DeadlineNear rt options) s as) ∧
    (Along (step rt options) (RetryAfterNear rt options) s as →
      Always (step rt options) (fun s => s.WaitsBounded options) s as) := by
  have hiff : Always (step rt options) (fun s => s.WaitsBounded options) s as ↔
      Along (step rt options) (DeadlineNear rt options) s as :=
    always_iff_along (fun _ _ _ ht hs => RateState.Tracks.step ht hs)
      (fun _ _ _ ht h hs => RateState.WaitsBounded.step_iff hbrief ht h hs)
      (RateState.Tracks.of_init hinit) (RateState.WaitsBounded.of_init hinit)
  refine ⟨hiff, fun hnear => hiff.mpr ?_⟩
  have hdeadlines := always_of_along
    (fun s a s' hs ha hc => RateState.DeadlinesNear.step hs ha hc)
    (RateState.DeadlinesNear.of_init hinit) hnear
  exact hdeadlines.along fun s a s' hs _ => hs.deadlineNear hbrief a s'

/-! ## Samples -/

theorem brief_nodeRuntime : Brief nodeRuntime := by
  intro ms
  show nodeDelay ms ≤ max 1 ms
  simp only [nodeDelay]
  split
  · exact le_max_left 1 ms
  · exact le_refl _

/-- A 429 without a header, and the call after it. -/
theorem waits_bounded_backoff :
    Always (step nodeRuntime .default) (fun s => s.WaitsBounded .default) started
      [.applyBackoff "http://h" none true, .waitForSlot 1 "http://h", .tick 1000, .wake 1] :=
  (waits_bounded brief_nodeRuntime started_init _).2 (by decide +kernel)

/-- A header that asks for an hour is waited out for an hour. -/
theorem hour_waited :
    started.Init ∧ ∃ s, run (step nodeRuntime .default) started
      [.applyBackoff "http://h" (parseRetryAfter nodeRuntime (some "3600")) true,
        .waitForSlot 1 "http://h"] = some s ∧ ¬s.WaitsBounded .default := by
  have hrun : ((run (step nodeRuntime .default) started
      [.applyBackoff "http://h" (parseRetryAfter nodeRuntime (some "3600")) true,
        .waitForSlot 1 "http://h"]).any fun s =>
          s.waiters.any fun w => w.alone && !decide (w.slept ≤ longestWait .default)) = true := by
    decide +kernel
  obtain ⟨s, hs, hw⟩ := (Option.any_eq_true _ _).mp hrun
  obtain ⟨w, hw, hlong⟩ := List.any_eq_true.mp hw
  refine ⟨started_init, s, hs, fun h => ?_⟩
  simp only [Bool.and_eq_true, Bool.not_eq_true', decide_eq_false_iff_not] at hlong
  exact hlong.2 (h.waiting w hw hlong.1)

end DomainRateLimiter

end Feedpulse
