import Feedpulse.BoundedWait

/-!
# How a backoff grows

The next backoff is doubled from what is left of the one before. A request that is sent after
`waitForSlot` has returned has waited out the one before, so nothing is left and the backoff
starts again from its base. Of throttle responses that meet a deadline that is still in force, a
header replaces it by what it asks for, and the computed backoff never exceeds its cap.
-/

namespace Feedpulse

namespace DomainRateLimiter

open Transition

variable (rt : RateRuntime) (options : RateLimiterOptions)

/-! ## What a throttle response asks for -/

/-- A throttle response does not move a deadline earlier. -/
def NotEarlier (s : RateState) (a : RateAction) (s' : RateState) : Prop :=
  match a with
  | .applyBackoff url _ _ =>
    ∀ deadline, s.backoffUntil (getDomainKey rt url) = some deadline →
      ∃ later, s'.backoffUntil (getDomainKey rt url) = some later ∧ deadline ≤ later
  | _ => True

/-- A header that asks for a backoff asks for what is left of the deadline in force, and where
the backoff is computed, what is left is not more than its cap. -/
def AsksForRest (s : RateState) (a : RateAction) (_ : RateState) : Prop :=
  match a with
  | .applyBackoff url retryAfterHeader isRetry =>
    let requested := retryAfterMs rt s.now retryAfterHeader
    let remaining := s.remaining (getDomainKey rt url)
    (0 < requested → remaining ≤ requested) ∧
      (requested = 0 → isRetry = true → remaining ≤ options.maxBackoffMs)
  | _ => True

instance (s s' : RateState) : (a : RateAction) → Decidable (AsksForRest rt options s a s')
  | .applyBackoff _ _ _ => inferInstanceAs (Decidable ((_ → _) ∧ (_ → _ → _)))
  | .tick _ | .waitForSlot _ _ | .wake _ | .clearBackoff _ => inferInstanceAs (Decidable True)

/-! ## One request after the other -/

/-- The action does not concern the backoff of the host: time passes, a timer fires, or it is
about another host. -/
def Elsewhere (domain : String) : RateAction → Prop
  | .tick _ | .wake _ => True
  | .waitForSlot _ url | .applyBackoff url _ _ | .clearBackoff url => getDomainKey rt url ≠ domain

/-- One request to a host and its response: `waitForSlot` is called and returns, and the request
is answered with 429 and no header. Its deadline was not too far for a timer. -/
structure ThrottledRequest (domain : String) (s s' : RateState) : Prop where
  /-- the calls of it -/
  exists_run : ∃ before pid url between a s₀ s₁ s₂,
    (∀ a ∈ before, Elsewhere rt domain a) ∧ (∀ a ∈ between, Elsewhere rt domain a) ∧
    getDomainKey rt url = domain ∧
    run (step rt options) s before = some s₀ ∧ s₀.remaining domain ≤ 2147483647 ∧
    step rt options s₀ (.waitForSlot pid url) = some s₁ ∧
    run (step rt options) s₁ between = some s₂ ∧ (∀ w ∈ s₂.waiters, w.pid ≠ pid) ∧
    throttle rt url 429 none = some a ∧ step rt options s₂ a = some s'

/-- Requests to a host, one after the other, all of which are throttled. -/
inductive ThrottledRequests (domain : String) : Nat → RateState → RateState → Prop
  /-- none yet -/
  | none (s : RateState) : ThrottledRequests domain 0 s s
  /-- one more -/
  | more {k : Nat} {s s₁ s' : RateState} : ThrottledRequests domain k s s₁ →
    ThrottledRequest rt options domain s₁ s' → ThrottledRequests domain (k + 1) s s'

/-- A timer that can be set for a delay fires after it. -/
def Timely : Prop := ∀ ms, 0 < ms → ms ≤ 2147483647 → ms ≤ rt.timerDelay ms

variable {rt options} {s : RateState}

/-- The call has waited for this deadline, or is still waiting for it. -/
def RateState.WaitsFor (pid : Nat) (deadline : ℚ) (s : RateState) : Prop :=
  deadline ≤ s.now ∨
    ((∃ w ∈ s.waiters, w.pid = pid) ∧ ∀ w ∈ s.waiters, w.pid = pid → deadline ≤ w.due)

namespace RateState.WaitsFor

variable {pid : Nat} {deadline : ℚ}

/-- Calls with other numbers make no difference. -/
theorem enterPacing {w : Waiter} (hw : w.pid ≠ pid) (h : s.WaitsFor pid deadline)
    (backoffRemaining : ℚ) :
    (enterPacing rt options s w backoffRemaining).WaitsFor pid deadline := by
  simp only [DomainRateLimiter.enterPacing]
  split
  · rcases h with h | ⟨⟨v, hv, hpid⟩, hdue⟩
    · exact .inl h
    · refine .inr ⟨⟨v, List.mem_cons_of_mem _ hv, hpid⟩, ?_⟩
      intro u hu hupid
      rcases List.mem_cons.mp hu with rfl | hu'
      · exact absurd hupid hw
      · exact hdue u hu' hupid
  · exact h

/-- A competitor changes nothing but the claim to be alone. -/
theorem crowd (h : s.WaitsFor pid deadline) (domain : String) :
    { s with waiters := crowded domain s.waiters }.WaitsFor pid deadline := by
  rcases h with h | ⟨⟨v, hv, hpid⟩, hdue⟩
  · exact .inl h
  · refine .inr ⟨⟨v.crowd domain, List.mem_map_of_mem hv, by rw [Waiter.crowd_pid, hpid]⟩, ?_⟩
    intro u hu hupid
    obtain ⟨u, hu', rfl⟩ := List.mem_map.mp hu
    rw [Waiter.crowd_pid] at hupid
    have hsame : (u.crowd domain).due = u.due := by
      simp only [Waiter.crowd]
      split <;> rfl
    rw [hsame]
    exact hdue u hu' hupid

/-- **One step** that does not concern the host. -/
theorem step {domain : String} (h : s.WaitsFor pid deadline) {a : RateAction} {s' : RateState}
    (ha : Elsewhere rt domain a) (hs : step rt options s a = some s') :
    s'.WaitsFor pid deadline ∧ s'.backoffUntil domain = s.backoffUntil domain := by
  -- a call that is paced leaves every deadline alone
  have hpace : ∀ (s : RateState) (w : Waiter) (backoffRemaining : ℚ),
      (DomainRateLimiter.enterPacing rt options s w backoffRemaining).backoffUntil
        = s.backoffUntil := by
    intro s w backoffRemaining
    simp only [DomainRateLimiter.enterPacing]
    split <;> rfl
  cases a with
  | tick elapsed =>
    obtain ⟨helapsed, hs⟩ := Option.ite_none_right_eq_some.mp hs
    cases hs
    refine ⟨?_, rfl⟩
    rcases h with h | h
    · refine .inl ?_
      show deadline ≤ s.now + elapsed
      linarith
    · exact .inr h
  | waitForSlot pid' url =>
    obtain ⟨hfresh, hs⟩ := Option.ite_none_left_eq_some.mp hs
    cases hs
    by_cases hpid : pid' = pid
    · -- its number is free, so the call has returned
      subst hpid
      have hpassed : deadline ≤ s.now := by
        rcases h with h | ⟨⟨v, hv, hpid⟩, -⟩
        · exact h
        · exact absurd (List.any_eq_true.mpr ⟨v, hv, decide_eq_true hpid⟩) hfresh
      simp only [waitForSlot]
      split
      · exact ⟨.inl hpassed, rfl⟩
      · refine ⟨.inl ?_, congrFun (hpace _ _ _) domain⟩
        simp only [DomainRateLimiter.enterPacing]
        split <;> exact hpassed
    -- another call only crowds the waiters
    · simp only [waitForSlot]
      split
      · refine ⟨?_, rfl⟩
        rcases h.crowd (getDomainKey rt url) with h | ⟨⟨v, hv, hvpid⟩, hdue⟩
        · exact .inl h
        · refine .inr ⟨⟨v, List.mem_cons_of_mem _ hv, hvpid⟩, ?_⟩
          intro u hu hupid
          rcases List.mem_cons.mp hu with rfl | hu'
          · exact absurd hupid hpid
          · exact hdue u hu' hupid
      · exact ⟨(h.crowd (getDomainKey rt url)).enterPacing hpid _, congrFun (hpace _ _ _) domain⟩
  | wake pid' =>
    simp only [DomainRateLimiter.step] at hs
    rcases hfind : s.waiters.find? (fun w => w.pid = pid') with _ | w
    · rw [hfind] at hs
      cases hs
    · rw [hfind] at hs
      obtain ⟨hdue, hs⟩ := Option.ite_none_right_eq_some.mp hs
      cases hs
      have hw := List.mem_of_find?_eq_some hfind
      refine ⟨?_, ?_⟩
      · by_cases hpid : w.pid = pid
        -- the call itself wakes when it is due, which is not before the deadline
        · have hpassed : deadline ≤ s.now := by
            rcases h with h | ⟨-, hdues⟩
            · exact h
            · exact (hdues w hw hpid).trans hdue
          refine .inl ?_
          simp only [resume]
          split
          · simp only [DomainRateLimiter.enterPacing]
            split <;> exact hpassed
          · exact hpassed
        -- another one wakes, and the call waits on
        · have hrest :
              { s with waiters := s.waiters.filter fun other => other.pid ≠ w.pid }.WaitsFor
                pid deadline := by
            rcases h with h | ⟨⟨v, hv, hvpid⟩, hdues⟩
            · exact .inl h
            · refine .inr ⟨⟨v, List.mem_filter.mpr ⟨hv, ?_⟩, hvpid⟩, ?_⟩
              · rw [hvpid]
                exact decide_eq_true (Ne.symm hpid)
              · exact fun u hu => hdues u (List.mem_of_mem_filter hu)
          simp only [resume]
          split
          · exact hrest.enterPacing hpid _
          · exact hrest
      · simp only [resume]
        split
        · exact congrFun (hpace _ _ _) domain
        · rfl
  | applyBackoff url retryAfterHeader isRetry =>
    cases hs
    -- its host is another one
    have hne : domain ≠ getDomainKey rt url := Ne.symm ha
    simp only [applyBackoff]
    split
    · exact ⟨h, Function.update_of_ne hne ..⟩
    · exact ⟨h, rfl⟩
  | clearBackoff url =>
    cases hs
    have hne : domain ≠ getDomainKey rt url := Ne.symm ha
    exact ⟨h, Function.update_of_ne hne ..⟩

/-- The run lemma. -/
theorem run {domain : String} (h : s.WaitsFor pid deadline) {as : List RateAction}
    {s' : RateState} (has : ∀ a ∈ as, Elsewhere rt domain a)
    (hrun : run (DomainRateLimiter.step rt options) s as = some s') :
    s'.WaitsFor pid deadline ∧ s'.backoffUntil domain = s.backoffUntil domain := by
  refine run_invariant_of_forall
    (I := fun t => t.WaitsFor pid deadline ∧ t.backoffUntil domain = s.backoffUntil domain)
    (fun t a t' ha ht hs => ?_) has ⟨h, rfl⟩ hrun
  obtain ⟨hwaits, hsame⟩ := ht.1.step ha hs
  exact ⟨hwaits, hsame.trans ht.2⟩

end RateState.WaitsFor

/-- A call of `waitForSlot` waits for the deadline of its host. -/
theorem waitsFor_waitForSlot (htimely : Timely rt) {pid : Nat} {url : String} {s' : RateState}
    (hs : step rt options s (.waitForSlot pid url) = some s')
    (hshort : s.remaining (getDomainKey rt url) ≤ 2147483647) :
    s'.WaitsFor pid ((s.backoffUntil (getDomainKey rt url)).getD 0) ∧
      s'.backoffUntil = s.backoffUntil := by
  obtain ⟨hfresh, hs⟩ := Option.ite_none_left_eq_some.mp hs
  cases hs
  have hleft : (s.backoffUntil (getDomainKey rt url)).getD 0 - s.now
      ≤ s.remaining (getDomainKey rt url) := le_max_right _ _
  refine ⟨?_, ?_⟩
  · simp only [waitForSlot]
    split
    · rename_i hpositive
      refine .inr ⟨⟨_, List.mem_cons_self, rfl⟩, ?_⟩
      intro w hw hpid
      rcases List.mem_cons.mp hw with rfl | hw'
      · have hdelay := htimely _ hpositive hshort
        show (s.backoffUntil (getDomainKey rt url)).getD 0
          ≤ s.now + rt.timerDelay (s.remaining (getDomainKey rt url))
        have hdelay : s.remaining (getDomainKey rt url)
          ≤ rt.timerDelay (s.remaining (getDomainKey rt url)) := hdelay
        linarith
      · obtain ⟨w, hw'', rfl⟩ := List.mem_map.mp hw'
        have hpid : (w.crowd (getDomainKey rt url)).pid = pid := hpid
        rw [Waiter.crowd_pid] at hpid
        exact absurd (List.any_eq_true.mpr ⟨w, hw'', decide_eq_true hpid⟩) hfresh
    · rename_i hzero
      have hzero : ¬0 < s.remaining (getDomainKey rt url) := hzero
      refine .inl ?_
      have hpassed : (s.backoffUntil (getDomainKey rt url)).getD 0 ≤ s.now := by linarith
      simp only [enterPacing]
      split <;> exact hpassed
  · simp only [waitForSlot]
    split
    · rfl
    · simp only [enterPacing]
      split <;> rfl

/-- A 429 without a header makes the fetcher apply a computed backoff. -/
theorem throttle_noHeader (url : String) :
    throttle rt url 429 none = some (.applyBackoff url none true) := by
  simp [throttle, parseRetryAfter]

/-- The deadline after a call of `applyBackoff`. -/
theorem applyBackoff_backoffUntil (url : String) (retryAfterHeader : Option String)
    (isRetry : Bool) :
    (applyBackoff rt options s url retryAfterHeader isRetry).backoffUntil (getDomainKey rt url)
      = if 0 < backoffMs rt options s (getDomainKey rt url) retryAfterHeader isRetry then
          some (s.now + backoffMs rt options s (getDomainKey rt url) retryAfterHeader isRetry)
        else s.backoffUntil (getDomainKey rt url) := by
  simp only [applyBackoff]
  split
  · exact Function.update_self ..
  · rfl

/-- **A request that has waited out the backoff starts it again.** What is left of the deadline
is nothing, and twice nothing is less than the base. -/
theorem ThrottledRequest.backoffUntil (htimely : Timely rt) {domain : String} {s' : RateState}
    (h : ThrottledRequest rt options domain s s') :
    s'.backoffUntil domain
      = some (s'.now + min (options.maxBackoffMs : ℚ) options.baseBackoffMs) := by
  obtain ⟨before, pid, url, between, a, s₀, s₁, s₂, -, hbetween, rfl, -, hshort, hcall, hrun,
    hreturned, hthrottle, hs⟩ := h.exists_run
  rw [throttle_noHeader] at hthrottle
  obtain rfl := Option.some.inj hthrottle
  obtain ⟨hwaits, hsame⟩ := waitsFor_waitForSlot htimely hcall hshort
  obtain ⟨hwaits₂, hsame₂⟩ := hwaits.run hbetween hrun
  have hpassed : (s₀.backoffUntil (getDomainKey rt url)).getD 0 ≤ s₂.now := by
    rcases hwaits₂ with h | ⟨⟨w, hw, hpid⟩, -⟩
    · exact h
    · exact absurd hpid (hreturned w hw)
  have hleft : max 0 ((s₂.backoffUntil (getDomainKey rt url)).getD s₂.now - s₂.now) = 0 := by
    rw [hsame₂, hsame]
    rcases hdeadline : s₀.backoffUntil (getDomainKey rt url) with _ | deadline
    · rw [Option.getD_none, sub_self, max_self]
    · rw [hdeadline, Option.getD_some] at hpassed
      rw [Option.getD_some]
      exact max_eq_left (by linarith)
  have hbase : (0 : ℚ) < options.baseBackoffMs := by exact_mod_cast options.baseBackoffMs_pos
  have hmax : (0 : ℚ) < options.maxBackoffMs := by exact_mod_cast options.maxBackoffMs_pos
  have hbackoff : backoffMs rt options s₂ (getDomainKey rt url) none true
      = min (options.maxBackoffMs : ℚ) options.baseBackoffMs := by
    simp only [backoffMs, retryAfterMs, hleft, zero_mul, max_eq_left hbase.le]
    rfl
  cases hs
  have hnow : (applyBackoff rt options s₂ url none true).now = s₂.now := by
    simp only [applyBackoff]
    split <;> rfl
  rw [applyBackoff_backoffUntil, hbackoff, if_pos (lt_min hmax hbase), hnow]

/-- Doubling does not show when only one response was throttled or the base is the cap. -/
theorem growth_iff {k : Nat} :
    (min (options.maxBackoffMs : ℚ) options.baseBackoffMs
      = min (options.maxBackoffMs : ℚ) (options.baseBackoffMs * 2 ^ k)) ↔
      k = 0 ∨ options.maxBackoffMs ≤ options.baseBackoffMs := by
  have hbase : (0 : ℚ) < options.baseBackoffMs := by exact_mod_cast options.baseBackoffMs_pos
  have hpow : (1 : ℚ) ≤ 2 ^ k := one_le_pow₀ (by norm_num)
  constructor
  · intro h
    by_contra hnot
    obtain ⟨hk, hlt⟩ := not_or.mp hnot
    have hlt : (options.baseBackoffMs : ℚ) < options.maxBackoffMs := by
      exact_mod_cast not_le.mp hlt
    have htwo : (2 : ℚ) ≤ 2 ^ k := by
      calc (2 : ℚ) = 2 ^ 1 := (pow_one 2).symm
        _ ≤ 2 ^ k := pow_le_pow_right₀ (by norm_num) (Nat.one_le_iff_ne_zero.mpr hk)
    rw [min_eq_right hlt.le] at h
    have hmin : (options.baseBackoffMs : ℚ) < min (options.maxBackoffMs : ℚ)
        (options.baseBackoffMs * 2 ^ k) := lt_min hlt (by nlinarith)
    exact absurd h hmin.ne
  · rintro (rfl | hle)
    · rw [pow_zero, mul_one]
    · have hle : (options.maxBackoffMs : ℚ) ≤ options.baseBackoffMs := by exact_mod_cast hle
      rw [min_eq_left hle, min_eq_left (hle.trans (by nlinarith))]

/-! ## Any interleaving -/

/-- A deadline in force is not moved earlier by a backoff if that is what is left of it. -/
theorem exists_later_iff {deadline backoff : ℚ} :
    (∀ deadline', some deadline = some deadline' →
      ∃ later, some (s.now + backoff) = some later ∧ deadline' ≤ later) ↔
    deadline - s.now ≤ backoff := by
  constructor
  · intro h
    obtain ⟨later, hlater, hle⟩ := h deadline rfl
    rw [← Option.some.inj hlater] at hle
    linarith
  · intro h deadline' hdeadline
    obtain rfl := Option.some.inj hdeadline
    exact ⟨s.now + backoff, rfl, by linarith⟩

/-- **One throttle response** does not move the deadline earlier exactly if it asks for what is
left of it. -/
theorem notEarlier_iff (hclock : 0 ≤ s.now) {a : RateAction} {s' : RateState}
    (hs : step rt options s a = some s') :
    NotEarlier rt s a s' ↔ AsksForRest rt options s a s' := by
  cases a with
  | tick elapsed => exact Iff.rfl
  | waitForSlot pid url => exact Iff.rfl
  | wake pid => exact Iff.rfl
  | clearBackoff url => exact Iff.rfl
  | applyBackoff url retryAfterHeader isRetry =>
    cases hs
    simp only [NotEarlier, AsksForRest, applyBackoff_backoffUntil]
    have hbase : (0 : ℚ) < options.baseBackoffMs := by exact_mod_cast options.baseBackoffMs_pos
    have hmax : (0 : ℚ) < options.maxBackoffMs := by exact_mod_cast options.maxBackoffMs_pos
    rcases hdeadline : s.backoffUntil (getDomainKey rt url) with _ | deadline
    · -- nothing is left of a deadline that was never set
      have hremaining : s.remaining (getDomainKey rt url) = 0 := by
        simp only [RateState.remaining, hdeadline, Option.getD_none]
        exact max_eq_left (by linarith)
      rw [hremaining]
      exact iff_of_true (fun _ h => by cases h) ⟨le_of_lt, fun _ _ => hmax.le⟩
    · have hremaining : s.remaining (getDomainKey rt url) = max 0 (deadline - s.now) := by
        simp only [RateState.remaining, hdeadline, Option.getD_some]
      have hrest : (0 : ℚ) ≤ max 0 (deadline - s.now) := le_max_left _ _
      have hleft : deadline - s.now ≤ max 0 (deadline - s.now) := le_max_right _ _
      rw [hremaining]
      by_cases hcomputed : retryAfterMs rt s.now retryAfterHeader = 0 ∧ isRetry = true
      · obtain ⟨hzero, hretry⟩ := hcomputed
        have hbackoff : backoffMs rt options s (getDomainKey rt url) retryAfterHeader isRetry
            = min (options.maxBackoffMs : ℚ)
                (max (options.baseBackoffMs : ℚ) (max 0 (deadline - s.now) * 2)) := by
          simp [backoffMs, hzero, hretry, hdeadline]
        have hpositive := lt_min hmax
          (hbase.trans_le (le_max_left _ (max 0 (deadline - s.now) * 2)))
        rw [hbackoff, if_pos hpositive, exists_later_iff, hzero]
        constructor
        · intro hle
          have hcap := hle.trans (min_le_left _ _)
          exact ⟨fun h => absurd h (lt_irrefl 0), fun _ _ => max_le hmax.le hcap⟩
        · rintro ⟨-, hle⟩
          refine le_min (hleft.trans (hle rfl hretry)) ?_
          have hdouble := le_max_right (options.baseBackoffMs : ℚ) (max 0 (deadline - s.now) * 2)
          linarith
      · have hbackoff : backoffMs rt options s (getDomainKey rt url) retryAfterHeader isRetry
            = retryAfterMs rt s.now retryAfterHeader := by
          simp only [backoffMs, Bool.and_eq_true, decide_eq_true_eq, if_neg hcomputed]
        rw [hbackoff]
        by_cases hpositive : 0 < retryAfterMs rt s.now retryAfterHeader
        · rw [if_pos hpositive, exists_later_iff]
          constructor
          · intro hle
            exact ⟨fun _ => max_le hpositive.le hle, fun h => absurd h hpositive.ne'⟩
          · rintro ⟨hle, -⟩
            exact hleft.trans (hle hpositive)
        · -- the deadline stays
          rw [if_neg hpositive]
          refine iff_of_true ?_ ⟨fun h => absurd h hpositive, ?_⟩
          · intro other hother
            exact ⟨other, hother, le_refl other⟩
          · intro hzero hretry
            exact absurd ⟨hzero, hretry⟩ hcomputed

/-- The last of some requests is one. -/
theorem ThrottledRequests.last {domain : String} {k : Nat} {s' : RateState}
    (h : ThrottledRequests rt options domain (k + 1) s s') :
    ∃ s₁, ThrottledRequest rt options domain s₁ s' := by
  cases h with
  | more _ hlast => exact ⟨_, hlast⟩

/-- **The backoff doubles with each throttled request** only as long as there is one of them or
the base is the cap; **a deadline is never moved earlier** in exactly those runs in which each
throttle response asks for what is left of it. -/
theorem backoff_law (htimely : Timely rt) (hinit : s.Init) (as : List RateAction) :
    (∀ domain k s₁ s₂, ThrottledRequests rt options domain (k + 1) s₁ s₂ →
      (s₂.backoffUntil domain = some (s₂.now
          + min (options.maxBackoffMs : ℚ) (options.baseBackoffMs * 2 ^ k)) ↔
        k = 0 ∨ options.maxBackoffMs ≤ options.baseBackoffMs)) ∧
    (Along (step rt options) (NotEarlier rt) s as ↔
      Along (step rt options) (AsksForRest rt options) s as) := by
  refine ⟨?_, ?_⟩
  · intro domain k s₁ s₂ h
    obtain ⟨_, hlast⟩ := h.last
    rw [hlast.backoffUntil htimely, Option.some.injEq, add_right_inj]
    exact growth_iff
  · exact along_congr RateState.Tracks (fun _ _ _ ht hs => ht.step hs)
      (fun _ _ _ ht hs => notEarlier_iff ht.clock hs) (RateState.Tracks.of_init hinit)

/-! ## Samples -/

theorem timely_nodeRuntime : Timely nodeRuntime := by
  intro ms _ hshort
  show ms ≤ nodeDelay ms
  rw [nodeDelay, if_neg (not_lt.mpr hshort)]
  exact le_max_right 1 ms

/-- A request without other calls meanwhile. -/
theorem ThrottledRequest.of_run {pid : Nat} {url : String} (between : List RateAction)
    {s₂ : RateState} (hbetween : ∀ a ∈ between, Elsewhere rt (getDomainKey rt url) a)
    (hshort : s.remaining (getDomainKey rt url) ≤ 2147483647)
    (hfresh : (s.waiters.any fun w => w.pid = pid) = false)
    (hrun : run (step rt options) (waitForSlot rt options s pid url) between = some s₂)
    (hreturned : ∀ w ∈ s₂.waiters, w.pid ≠ pid) :
    ThrottledRequest rt options (getDomainKey rt url) s
      (applyBackoff rt options s₂ url none true) := by
  have hcall : step rt options s (.waitForSlot pid url)
      = some (waitForSlot rt options s pid url) := by
    simp only [step, hfresh, Bool.false_eq_true, if_false]
  exact ⟨⟨[], pid, url, between, .applyBackoff url none true, s, _, s₂,
    fun _ h => absurd h List.not_mem_nil, hbetween, rfl, rfl, hshort, hcall, hrun, hreturned,
    throttle_noHeader url, rfl⟩⟩

/-- A first request that is throttled. -/
def throttledOnce : RateState :=
  applyBackoff nodeRuntime .default (waitForSlot nodeRuntime .default started 1 "http://h")
    "http://h" none true

theorem throttledRequests_one :
    ThrottledRequests nodeRuntime .default (getDomainKey nodeRuntime "http://h") 1 started
      throttledOnce := by
  refine .more (.none started) (ThrottledRequest.of_run []
    (fun _ h => absurd h List.not_mem_nil) (by decide +kernel) (by decide +kernel) rfl ?_)
  decide +kernel

/-- One throttled request, and an interleaving in which a header asks for longer. -/
theorem backoff_law_one :
    throttledOnce.backoffUntil (getDomainKey nodeRuntime "http://h")
        = some (throttledOnce.now + min (60000 : ℚ) (1000 * 2 ^ 0)) ∧
      Along (step nodeRuntime .default) (NotEarlier nodeRuntime) started
        [.applyBackoff "http://h" none true, .tick 200,
          .applyBackoff "http://h" (some "30") true] :=
  have h := backoff_law timely_nodeRuntime started_init
    [.applyBackoff "http://h" none true, .tick 200, .applyBackoff "http://h" (some "30") true]
  ⟨(h.1 _ 0 _ _ throttledRequests_one).mpr (.inl rfl), h.2.mpr (by decide +kernel)⟩

/-- The second of two throttled requests is backed off as briefly as the first. -/
theorem second_backoff_not_doubled :
    started.Init ∧ ∃ s', ThrottledRequests nodeRuntime .default
        (getDomainKey nodeRuntime "http://h") 2 started s' ∧
      s'.backoffUntil (getDomainKey nodeRuntime "http://h")
        ≠ some (s'.now + min (60000 : ℚ) (1000 * 2 ^ 1)) := by
  obtain ⟨s₂, hrun, hreturned⟩ : ∃ s₂, run (step nodeRuntime .default)
      (waitForSlot nodeRuntime .default throttledOnce 2 "http://h") [.tick 1000, .wake 2]
        = some s₂ ∧ (s₂.waiters.all fun w => w.pid ≠ 2) = true :=
    (Option.any_eq_true _ _).mp (by decide +kernel)
  have hreturned : ∀ w ∈ s₂.waiters, w.pid ≠ 2 :=
    fun w hw => of_decide_eq_true (List.all_eq_true.mp hreturned w hw)
  have hsecond := ThrottledRequest.of_run [.tick 1000, .wake 2]
    (by simp [Elsewhere]) (by decide +kernel) (by decide +kernel) hrun hreturned
  refine ⟨started_init, _, throttledRequests_one.more hsecond, ?_⟩
  rw [hsecond.backoffUntil timely_nodeRuntime, Ne, Option.some.injEq, add_right_inj]
  intro h
  rcases (growth_iff (k := 1)).mp h with h | h
  · cases h
  · exact absurd h (by decide)

end DomainRateLimiter

end Feedpulse
