import Feedpulse.CanonicalKey
import Feedpulse.DomainRateLimiter
import Mathlib.Tactic.Linarith

/-!
# Requests to one host are apart

A call reads the last request, sleeps and records itself without looking again. Requests to one
host stay apart in every run in which no other call for the host goes through between a call's
read and its record; `two_requests_at_once` is a run in which two calls have read the same value.
-/

namespace Feedpulse

namespace DomainRateLimiter

open Transition

variable (rt : RateRuntime) (options : RateLimiterOptions)

/-- Requests to one host were let through at least the interval apart. -/
def RateState.Paced (s : RateState) : Prop :=
  s.passages.Pairwise fun later earlier => later.domain = earlier.domain →
    earlier.instant + options.minIntervalMs ≤ later.instant

instance (s : RateState) : Decidable (s.Paced options) :=
  inferInstanceAs (Decidable (List.Pairwise _ _))

/-- A call that goes on finds the last request it has read, if it has read one. -/
def Waiter.ReadsLast (s : RateState) (w : Waiter) : Prop :=
  match w.stage with
  | .pacing _ lastRequest _ => (s.lastRequestAt w.domain).getD 0 = lastRequest
  | .backingOff _ => True

instance (s : RateState) : (w : Waiter) → Decidable (w.ReadsLast s)
  | { stage := .pacing _ _ _, .. } => inferInstanceAs (Decidable (_ = _))
  | { stage := .backingOff _, .. } => inferInstanceAs (Decidable True)

/-- A call that goes on after its pacing sleep finds the last request it has read: no other call
for its host has gone through meanwhile. -/
def Undisturbed (s : RateState) (a : RateAction) (_ : RateState) : Prop :=
  match a with
  | .wake pid => ∀ w ∈ s.waiters.find? (fun w => w.pid = pid), w.ReadsLast s
  | _ => True

instance (s s' : RateState) : (a : RateAction) → Decidable (Undisturbed s a s')
  | .wake pid =>
    inferInstanceAs (Decidable (∀ w ∈ s.waiters.find? (fun w => w.pid = pid), w.ReadsLast s))
  | .tick _ | .waitForSlot _ _ | .applyBackoff _ _ _ | .clearBackoff _ =>
    inferInstanceAs (Decidable True)

/-- Timers of pacing sleeps fire at their due time or later. -/
def Punctual : Prop := ∀ ms, 0 < ms → ms ≤ options.minIntervalMs → ms ≤ rt.timerDelay ms

/-- The timer of a call that paces fires no earlier than an interval after the request it read. -/
def Waiter.DueAfter (w : Waiter) : Prop :=
  ∀ backoffRemaining lastRequest elapsed,
    w.stage = .pacing backoffRemaining lastRequest elapsed →
    lastRequest + options.minIntervalMs ≤ w.due

/-- What a run keeps: the last request of a host is known, the timers are set for an interval
after it, and the requests are apart. -/
structure RateState.Paces (s : RateState) : Prop where
  /-- the clock -/
  clock : 0 ≤ s.now
  /-- what was let through is not later than the last request -/
  recorded : ∀ p ∈ s.passages, ∃ t, s.lastRequestAt p.domain = some t ∧ p.instant ≤ t
  /-- the last request lies in the past -/
  past : ∀ domain t, s.lastRequestAt domain = some t → t ≤ s.now
  /-- timers -/
  due : ∀ w ∈ s.waiters, w.DueAfter options
  /-- requests are apart -/
  apart : s.Paced options

namespace RateState.Paces

variable {rt options} {s : RateState}

theorem of_init (h : s.Init) : s.Paces options := by
  obtain ⟨hclock, hlast, -, hwaiters, hpassages⟩ := h
  refine ⟨hclock, ?_, ?_, ?_, ?_⟩
  · intro p hp
    rw [hpassages] at hp
    cases hp
  · intro domain t ht
    rw [hlast] at ht
    cases ht
  · intro w hw
    rw [hwaiters] at hw
    cases hw
  · rw [Paced, hpassages]
    exact List.Pairwise.nil

/-- Only waiters with timers set like this come in. -/
theorem withWaiters (h : s.Paces options) {waiters : List Waiter}
    (hwaiters : ∀ w ∈ waiters, w.DueAfter options) :
    { s with waiters := waiters }.Paces options :=
  ⟨h.clock, h.recorded, h.past, hwaiters, h.apart⟩

theorem lastRequest_le (h : s.Paces options) (domain : String) :
    (s.lastRequestAt domain).getD 0 ≤ s.now := by
  rcases hlast : s.lastRequestAt domain with _ | t
  · exact h.clock
  · exact h.past domain t hlast

/-- A request may be let through an interval after the last one of its host. -/
theorem letThrough (h : s.Paces options) {w : Waiter} {backoffRemaining elapsed : ℚ}
    (hfree : ∀ t, s.lastRequestAt w.domain = some t → t + options.minIntervalMs ≤ s.now) :
    (letThrough options s w backoffRemaining elapsed).Paces options := by
  refine ⟨h.clock, ?_, ?_, h.due, ?_⟩
  · intro p hp
    rcases List.mem_cons.mp hp with rfl | hp
    · exact ⟨s.now, Function.update_self .., le_refl _⟩
    · obtain ⟨t, ht, hle⟩ := h.recorded p hp
      by_cases hdomain : p.domain = w.domain
      · refine ⟨s.now, ?_, hle.trans (h.past p.domain t ht)⟩
        simp only [DomainRateLimiter.letThrough, hdomain, Function.update_self]
      · exact ⟨t, (Function.update_of_ne hdomain ..).trans ht, hle⟩
  · intro domain t ht
    by_cases hdomain : domain = w.domain
    · subst hdomain
      simp only [DomainRateLimiter.letThrough, Function.update_self, Option.some.injEq] at ht
      exact ht.symm.le
    · exact h.past domain t ((Function.update_of_ne hdomain ..).symm.trans ht)
  · refine List.Pairwise.cons ?_ h.apart
    intro p hp hdomain
    obtain ⟨t, ht, hle⟩ := h.recorded p hp
    have hdomain : w.domain = p.domain := hdomain
    have := hfree t (hdomain ▸ ht)
    show p.instant + options.minIntervalMs ≤ s.now
    linarith

/-- A call that reads the last request goes through if it is old enough, and else sets its timer
for an interval after it. -/
theorem enterPacing (hpunctual : Punctual rt options) (h : s.Paces options) (w : Waiter)
    (backoffRemaining : ℚ) : (enterPacing rt options s w backoffRemaining).Paces options := by
  have hle := h.lastRequest_le w.domain
  simp only [DomainRateLimiter.enterPacing]
  split
  · rename_i hlt
    refine h.withWaiters ?_
    intro w' hw'
    rcases List.mem_cons.mp hw' with rfl | hw'
    · intro backoffRemaining' lastRequest elapsed hstage
      cases hstage
      have hdelay := hpunctual (options.minIntervalMs - (s.now - (s.lastRequestAt w.domain).getD 0))
        (by linarith) (by linarith)
      show (s.lastRequestAt w.domain).getD 0 + options.minIntervalMs ≤ s.now + rt.timerDelay _
      linarith
    · exact h.due w' hw'
  · rename_i hge
    refine h.letThrough fun t ht => ?_
    rw [ht, Option.getD_some] at hge
    linarith

/-- **One step.** If a call that goes on finds what it has read, requests stay apart. -/
theorem step (hpunctual : Punctual rt options) (h : s.Paces options) {a : RateAction}
    {s' : RateState} (hs : step rt options s a = some s') (hc : Undisturbed s a s') :
    s'.Paces options := by
  cases a with
  | tick elapsed =>
    obtain ⟨helapsed, hs⟩ := Option.ite_none_right_eq_some.mp hs
    cases hs
    have hnow : s.now ≤ s.now + elapsed := by linarith
    exact ⟨h.clock.trans hnow, h.recorded, fun domain t ht => (h.past domain t ht).trans hnow,
      h.due, h.apart⟩
  | waitForSlot pid url =>
    obtain ⟨-, hs⟩ := Option.ite_none_left_eq_some.mp hs
    cases hs
    have hothers : ∀ w ∈ s.waiters.map fun w =>
        if w.domain = getDomainKey rt url then { w with alone := false } else w,
        w.DueAfter options := by
      intro w hw
      obtain ⟨w', hw', rfl⟩ := List.mem_map.mp hw
      split
      · exact h.due w' hw'
      · exact h.due w' hw'
    simp only [waitForSlot]
    split
    · refine h.withWaiters ?_
      intro w hw
      rcases List.mem_cons.mp hw with rfl | hw
      · intro _ _ _ hstage
        cases hstage
      · exact hothers w hw
    · exact (h.withWaiters hothers).enterPacing hpunctual _ _
  | wake pid =>
    simp only [DomainRateLimiter.step] at hs
    rcases hfind : s.waiters.find? (fun w => w.pid = pid) with _ | w
    · rw [hfind] at hs
      cases hs
    · rw [hfind] at hs
      obtain ⟨hdue, hs⟩ := Option.ite_none_right_eq_some.mp hs
      cases hs
      have hw := List.mem_of_find?_eq_some hfind
      have hdues : ∀ w' ∈ s.waiters.filter fun other => other.pid ≠ w.pid, w'.DueAfter options :=
        fun w' hw' => h.due w' (List.mem_of_mem_filter hw')
      have hrest := h.withWaiters hdues
      simp only [resume]
      rcases hstage : w.stage with backoffRemaining | ⟨backoffRemaining, lastRequest, elapsed⟩
      · exact hrest.enterPacing hpunctual _ _
      · refine hrest.letThrough fun t ht => ?_
        -- the timer was set for an interval after the last request, which is still the last one
        have hread : w.ReadsLast s := hc w hfind
        rw [Waiter.ReadsLast, hstage] at hread
        have hset := h.due w hw _ _ _ hstage
        have ht : s.lastRequestAt w.domain = some t := ht
        rw [ht, Option.getD_some] at hread
        show t + options.minIntervalMs ≤ s.now
        linarith
  | applyBackoff url retryAfterHeader isRetry =>
    cases hs
    simp only [applyBackoff]
    split
    · exact ⟨h.clock, h.recorded, h.past, h.due, h.apart⟩
    · exact h
  | clearBackoff url =>
    cases hs
    exact ⟨h.clock, h.recorded, h.past, h.due, h.apart⟩

end RateState.Paces

variable {rt options}

/-- **Requests to one host are apart** in every run in which no call is overtaken by another one
for its host between its read of the last request and its record. -/
theorem requests_apart (hpunctual : Punctual rt options) {s : RateState} (hinit : s.Init)
    {as : List RateAction} (h : Along (step rt options) Undisturbed s as) :
    Always (step rt options) (fun s => s.Paced options) s as := by
  have hpaces := always_of_along
    (fun s a s' hs ha hc => RateState.Paces.step hpunctual hs ha hc)
    (RateState.Paces.of_init hinit) h
  exact hpaces.mono fun s hs => hs.apart

/-! ## Samples -/

/-- `setTimeout` for whole numbers of milliseconds: what is shorter than one or does not fit into
31 bits becomes one millisecond. -/
def nodeDelay (ms : ℚ) : ℚ := if 2147483647 < ms then 1 else max 1 ms

/-- A runtime with one known host, dates that are never valid, and Node's timers. -/
def nodeRuntime : RateRuntime :=
  { CanonicalLink.hostRuntime.toUrlRuntime with
    dateTime := fun _ => none
    timerDelay := nodeDelay }

/-- A process a second after the epoch. -/
def started : RateState :=
  { now := 1000, lastRequestAt := fun _ => none, backoffUntil := fun _ => none, waiters := [],
    passages := [] }

theorem started_init : started.Init := ⟨by decide +kernel, rfl, rfl, rfl, rfl⟩

theorem punctual_default : Punctual nodeRuntime .default := by
  intro ms _ hle
  have hinterval : RateLimiterOptions.default.minIntervalMs = 500 := by decide +kernel
  rw [hinterval] at hle
  have hshort : ¬(2147483647 : ℚ) < ms := by linarith
  show ms ≤ nodeDelay ms
  rw [nodeDelay, if_neg hshort]
  exact le_max_right 1 ms

/-- Three requests, each of which waits for the one before it. -/
theorem requests_apart_three :
    Always (step nodeRuntime .default) (fun s => s.Paced .default) started
      [.waitForSlot 1 "http://h", .waitForSlot 2 "http://h", .tick 500, .wake 2,
        .waitForSlot 3 "http://h", .tick 700, .wake 3] :=
  requests_apart punctual_default started_init (by decide +kernel)

/-- Two calls that read the same last request go through at the same instant. -/
theorem two_requests_at_once :
    started.Init ∧ ∃ s, run (step nodeRuntime .default) started
      [.waitForSlot 1 "http://h", .waitForSlot 2 "http://h", .waitForSlot 3 "http://h",
        .tick 500, .wake 2, .wake 3] = some s ∧ ¬s.Paced .default := by
  have hrun : ((run (step nodeRuntime .default) started
      [.waitForSlot 1 "http://h", .waitForSlot 2 "http://h", .waitForSlot 3 "http://h",
        .tick 500, .wake 2, .wake 3]).any fun s => !decide (s.Paced .default)) = true := by
    decide +kernel
  obtain ⟨s, hs, hn⟩ := (Option.any_eq_true _ _).mp hrun
  refine ⟨started_init, s, hs, ?_⟩
  simpa using hn

end DomainRateLimiter

end Feedpulse
