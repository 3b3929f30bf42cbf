import Feedpulse.ClaimJitter
import Feedpulse.ClaimSafety
import Feedpulse.ConditionalFetch
import Feedpulse.RunTotals

/-!
# Overdue feeds are claimed in turn

A claim takes active feeds first, those that have been due longest before the others, and makes
what it takes due later. So an active feed that is overdue can be passed by only while there are
feeds ahead of it, and nothing that runs puts a feed there: the sweep of stuck claims makes its
feeds due now, a fetch job makes its feed due after the time it was told. `claimed_in_turn` is the
account of a run in which a feed waits. What can get ahead is a report by an attempt that was told
the time before the feed was due, and a `PATCH`, which may write back what it read.
-/

namespace Feedpulse

/-! ## Counting rows -/

namespace Table

universe u v

variable {ρ : Type u} {q p : ρ → Bool} {g : ρ → ρ} {rows : List ρ}

/-- An update that brings no row in. -/
theorem countP_updateWhere_le (hg : ∀ r, p r = true → q (g r) = true → q r = true) :
    (updateWhere p g rows).countP q ≤ rows.countP q := by
  rw [updateWhere, List.countP_map]
  refine List.countP_mono_left fun r _ hr => ?_
  by_cases hp : p r = true
  · simp only [Function.comp_apply, hp, if_true] at hr
    exact hg r hp hr
  · simpa [hp] using hr

/-- An update that concerns one row brings at most one in. -/
theorem countP_updateWhere_le_succ {κ : Type v} {key : ρ → κ} {k : κ}
    (hkey : (rows.map key).Nodup) (hp : ∀ r, p r = true → key r = k) :
    (updateWhere p g rows).countP q ≤ rows.countP q + 1 := by
  induction rows with
  | nil => simp [updateWhere]
  | cons r rows ih =>
    obtain ⟨hnew, hkey⟩ := List.nodup_cons.mp hkey
    change List.countP q ((if p r = true then g r else r) :: updateWhere p g rows) ≤ _
    by_cases hr : p r = true
    · -- the other rows have another key
      have hrest : updateWhere p g rows = rows := by
        refine (List.map_congr_left fun r' hr' => ?_).trans (List.map_id rows)
        refine if_neg fun hp' => hnew ?_
        rw [hp r hr, ← hp r' hp']
        exact List.mem_map_of_mem hr'
      rw [if_pos hr, hrest, List.countP_cons, List.countP_cons]
      split <;> split <;> omega
    · have hle := ih hkey
      rw [if_neg hr, List.countP_cons, List.countP_cons]
      omega

/-- An update that takes every row it concerns out takes out at least the rows that are known to
be concerned. -/
theorem length_add_countP_updateWhere_le {picks : List ρ} (hnodup : picks.Nodup)
    (hpicks : ∀ r ∈ picks, r ∈ rows ∧ q r = true ∧ p r = true)
    (hg : ∀ r, p r = true → q (g r) = false) :
    picks.length + (updateWhere p g rows).countP q ≤ rows.countP q := by
  have htaken : picks.length ≤ rows.countP fun r => q r && p r := by
    rw [List.countP_eq_length_filter]
    refine hnodup.length_le_of_subset fun r hr => List.mem_filter.mpr ?_
    obtain ⟨hmem, hq, hp⟩ := hpicks r hr
    exact ⟨hmem, by simp [hq, hp]⟩
  have hleft : (updateWhere p g rows).countP q ≤ rows.countP fun r => q r && !p r := by
    rw [updateWhere, List.countP_map]
    refine List.countP_mono_left fun r _ hr => ?_
    by_cases hp : p r = true
    · simp [hp, hg r hp] at hr
    · simp only [Function.comp_apply, if_neg hp] at hr
      simp [hr, Bool.eq_false_iff.mpr hp]
  have hsplit : rows.countP q
      = (rows.countP fun r => q r && p r) + rows.countP fun r => q r && !p r := by
    rw [List.countP_eq_countP_filter_add rows q p, List.countP_filter, List.countP_filter]
  omega

end Table

/-! ## The queue -/

namespace Feeds

/-- The feed goes before one that has been due `since` then: it is active, and due no later. -/
def goesBefore (since : Nat) (f : FeedRow) : Bool :=
  f.status = .active && f.nextCheckAt ≤ since

/-- How many other feeds go before the feed `id`. -/
def ahead (id since : Nat) (feeds : List FeedRow) : Nat :=
  feeds.countP fun f => f.id ≠ id && goesBefore since f

/-- The report puts its feed there. -/
def AfterFetch.overtakes (since : Nat) (u : AfterFetch) : Bool :=
  u.status = .active && u.nextCheckAt ≤ since

/-- The tenant's update puts its feed there. -/
def FeedUpdate.overtakes (since : Nat) (u : FeedUpdate) : Bool :=
  u.status = .active && u.nextCheckAt ≤ since

section Queue

variable {id since now : Nat} {feeds : List FeedRow} {p : FeedRow → Bool} {g : FeedRow → FeedRow}

/-- An update that puts no feed before the waiting one. -/
theorem ahead_updateWhere_le (hid : ∀ f, (g f).id = f.id)
    (hg : ∀ f, p f = true → goesBefore since (g f) = true → goesBefore since f = true) :
    ahead id since (Table.updateWhere p g feeds) ≤ ahead id since feeds := by
  refine Table.countP_updateWhere_le fun f hp hf => ?_
  rw [hid, Bool.and_eq_true] at hf
  exact Bool.and_eq_true_iff.mpr ⟨hf.1, hg f hp hf.2⟩

/-- An update of one feed, which puts it before the waiting one only if `overtakes`. -/
theorem ahead_updateOne_le {overtakes : Bool} {k : Nat} (hkey : (feeds.map FeedRow.id).Nodup)
    (hp : ∀ f, p f = true → f.id = k) (hid : ∀ f, (g f).id = f.id)
    (hg : ∀ f, goesBefore since (g f) = overtakes) :
    ahead id since (Table.updateWhere p g feeds)
      ≤ ahead id since feeds + if overtakes then 1 else 0 := by
  by_cases hover : overtakes = true
  · rw [if_pos hover]
    exact Table.countP_updateWhere_le_succ hkey hp
  · rw [if_neg hover]
    exact ahead_updateWhere_le hid fun f _ hf => absurd ((hg f).symm.trans hf) hover

theorem ahead_updateAfterFetch_le (hkey : (feeds.map FeedRow.id).Nodup) (u : AfterFetch) :
    ahead id since (updateAfterFetch now u feeds)
      ≤ ahead id since feeds + if u.overtakes since then 1 else 0 :=
  ahead_updateOne_le hkey (fun _ hf => of_decide_eq_true hf) (fun _ => rfl) fun _ => rfl

theorem map_id_updateAfterFetch (u : AfterFetch) :
    (updateAfterFetch now u feeds).map FeedRow.id = feeds.map FeedRow.id :=
  Table.map_updateWhere FeedRow.id feeds fun _ => rfl

theorem ahead_foldl_le (us : List AfterFetch) (hkey : (feeds.map FeedRow.id).Nodup) :
    ahead id since (us.foldl (fun fs u => updateAfterFetch now u fs) feeds)
      ≤ ahead id since feeds + us.countP fun u => u.overtakes since := by
  induction us generalizing feeds with
  | nil => simp
  | cons u us ih =>
    have hkey' : ((updateAfterFetch now u feeds).map FeedRow.id).Nodup := by
      rwa [map_id_updateAfterFetch]
    have hrest := ih hkey'
    have hu : ahead id since (updateAfterFetch now u feeds)
        ≤ ahead id since feeds + if u.overtakes since then 1 else 0 :=
      ahead_updateAfterFetch_le hkey u
    rw [List.foldl_cons, List.countP_cons]
    omega

theorem ahead_applyUpdate_le (hkey : (feeds.map FeedRow.id).Nodup) (u : FeedUpdate) :
    ahead id since (applyUpdate now u feeds)
      ≤ ahead id since feeds + if u.overtakes since then 1 else 0 := by
  refine ahead_updateOne_le hkey (k := u.id) (fun f hf => ?_) (fun _ => rfl) fun _ => rfl
  simp only [Bool.and_eq_true, decide_eq_true_eq] at hf
  exact hf.1

theorem ahead_releaseStuckFeeds_le {threshold : Nat} (hlate : since < now) :
    ahead id since (releaseStuckFeeds now threshold feeds).2 ≤ ahead id since feeds := by
  refine ahead_updateWhere_le (fun _ => rfl) fun f _ hf => ?_
  simp only [goesBefore, Bool.and_eq_true, decide_eq_true_eq] at hf
  omega

section Claim

variable {limit : Nat} {skipped : List Nat} {picks : List FeedRow}
  {jitters : List (Nat × Nat)} {claimed feeds' : List FeedRow}

/-- A claimed feed is due later than any that was overdue. -/
theorem goesBefore_claim {jitter : Nat} {f : FeedRow} (hlate : since < now) :
    goesBefore since (claim now jitter f) = false := by
  refine Bool.and_eq_false_iff.mpr (.inr (decide_eq_false ?_))
  change ¬ now + _ ≤ since
  omega

theorem ahead_claimDueFeeds_le (hlate : since < now)
    (h : claimDueFeeds now limit skipped picks jitters feeds = some (claimed, feeds')) :
    ahead id since feeds' ≤ ahead id since feeds := by
  obtain ⟨-, rfl, -⟩ := claimDueFeeds_eq_some h
  refine ahead_updateWhere_le (fun _ => rfl) fun f _ hf => ?_
  rw [goesBefore_claim hlate] at hf
  cases hf

/-- **A claim that could have returned the overdue feed, and did not, has taken as many feeds as
it may, all of which went before.** -/
theorem limit_add_ahead_le (hkey : (feeds.map FeedRow.id).Nodup) (hlate : since < now)
    (h : claimDueFeeds now limit skipped picks jitters feeds = some (claimed, feeds'))
    {f : FeedRow} (hf : f ∈ feeds) (hstatus : f.status = .active) (hdue : f.nextCheckAt = since)
    (hfree : f.claimedAt = none) (hskip : f.id ∉ skipped) (hnot : f ∉ picks) :
    limit + ahead f.id since feeds' ≤ ahead f.id since feeds := by
  obtain ⟨hpicks, rfl, -⟩ := claimDueFeeds_eq_some h
  obtain ⟨hnodup, hmem, hlen, -, htop⟩ := (claimDueFeeds_isTop h).1
  have hcandidate : f ∈ claimCandidates now skipped feeds :=
    mem_claimCandidates.mpr ⟨hf, claimable_iff.mpr ⟨by omega, hfree, .inl hstatus⟩, hskip⟩
  -- the feed was left over, so the limit was reached
  have hfull : picks.length = limit := by
    have hsub : (f :: picks).length ≤ (claimCandidates now skipped feeds).length := by
      refine (List.nodup_cons.mpr ⟨hnot, hnodup⟩).length_le_of_subset fun r hr => ?_
      rcases List.mem_cons.mp hr with rfl | hr
      · exact hcandidate
      · exact hmem r hr
    rw [List.length_cons] at hsub
    omega
  -- every feed that was taken goes before
  have hbefore : ∀ r ∈ picks, r.id ≠ f.id ∧ goesBefore since r = true := by
    intro r hr
    refine ⟨fun hid => hnot ?_, ?_⟩
    · rwa [← List.inj_on_of_nodup_map hkey (hpicks r hr).1 hf hid]
    · have hle := (htop f hcandidate).resolve_left hnot r hr
      have hclass : claimPriorityByStatus f.status = 0 := by rw [hstatus]; rfl
      simp only [claimLe, hclass, hdue, Bool.or_eq_true, Bool.and_eq_true, decide_eq_true_eq,
        Nat.not_lt_zero, false_or] at hle
      have hactive : r.status = .active := by
        rcases hr' : r.status with _ | _ | _
        · rfl
        · rw [hr'] at hle
          cases hle.1
        · rw [hr'] at hle
          cases hle.1
      simp [goesBefore, hactive, hle.2]
  have hcount : picks.length + ahead f.id since (Table.updateWhere
        (fun r => r.id ∈ picks.map FeedRow.id)
        (fun r => claim now (jitterOf jitters r.id) r) feeds) ≤ ahead f.id since feeds := by
    refine Table.length_add_countP_updateWhere_le hnodup (fun r hr => ?_) fun r _ => ?_
    · obtain ⟨hne, hgoes⟩ := hbefore r hr
      exact ⟨(hpicks r hr).1, by simp [hne, hgoes], decide_eq_true (List.mem_map_of_mem hr)⟩
    · rw [goesBefore_claim hlate, Bool.and_false]
  omega

end Claim

end Queue

end Feeds

/-! ## Programs that are told the time -/

section Prompt

open Prog

/-- The calls that do not write when a feed is due. -/
def SparesSchedule : Call → Prop
  | .feed (.update _) => False
  | .feed (.updateAfterFetch _) => False
  | .ingest (.updateAfterFetch _) => False
  | _ => True

/-- The calls that put no feed before one that has been due since the instant. -/
def Respects (since : Nat) : Call → Prop
  | .feed (.update u) => u.overtakes since = false
  | .feed (.updateAfterFetch u) => u.overtakes since = false
  | .ingest (.updateAfterFetch u) => u.overtakes since = false
  | _ => True

/-- The clock has passed the instant. -/
def TellsLate (since : Nat) : (c : Call) → Except String c.Reply → Prop
  | .clock, .ok now => since < now
  | _, _ => True

/-- Told that the instant has passed, the program puts no feed before. -/
abbrev Prompt (since : Nat) {α : Type} (p : Program α) : Prop :=
  Confined (Respects since) (TellsLate since) p fun _ => True

variable {since : Nat} {α β : Type}

theorem respects_of_sparesSchedule {c : Call} (h : SparesSchedule c) : Respects since c := by
  unfold SparesSchedule at h
  split at h
  · exact h.elim
  · exact h.elim
  · exact h.elim
  · unfold Respects
    split <;> first | trivial | simp_all

theorem prompt_of_issues {p : Program α} (h : Issues SparesSchedule p) : Prompt since p :=
  Meets.weaken h (fun _ _ hc => respects_of_sparesSchedule hc) fun _ _ _ _ _ => trivial

theorem prompt_invoke {c : Call} (h : Respects since c) :
    Prompt since (invoke c : Program c.Reply) :=
  meets_invoke.mpr ⟨h, fun _ _ _ => trivial⟩

theorem Prompt.bind {p : Program α} {f : α → Program β} (hp : Prompt since p)
    (hf : ∀ a, Prompt since (f a)) : Prompt since (p >>= f) :=
  Meets.bind hp (fun a _ _ => hf a) fun _ _ _ => trivial

theorem Prompt.tryCatch {p : Program α} {h : String → Program α} (hp : Prompt since p)
    (hh : ∀ e, Prompt since (h e)) : Prompt since (tryCatch p h) :=
  Meets.tryCatch hp (fun _ _ _ => trivial) fun e _ _ => hh e

/-- What follows `Date.now()` may rely on the instant. -/
theorem prompt_clock_bind {f : Nat → Program β} (hf : ∀ now, since < now → Prompt since (f now)) :
    Prompt since (clock >>= f) := by
  refine meets_bind.mpr (meets_invoke.mpr ⟨trivial, fun r _ hr => ?_⟩)
  cases r with
  | ok now => exact hf now hr
  | error e => trivial

/-- A report that is due some time after a clock that was told late. -/
theorem overtakes_of_later {u : Feeds.AfterFetch} {now delay : Nat} (hnow : since < now)
    (h : u.nextCheckAt = now + delay) : u.overtakes since = false := by
  refine Bool.and_eq_false_iff.mpr (.inr (decide_eq_false ?_))
  omega

end Prompt

/-! ## The programs of the service -/

section Programs

open Prog ProcessFeedJob

variable {since : Nat} {rt : Runtime} {canonicalizeArticleLink : Option String → Option String}

theorem sparesSchedule_of_handsOver (c : Call) (h : HandsOver c) : SparesSchedule c := by
  unfold HandsOver at h
  split at h <;> trivial

theorem sparesSchedule_of_stagesRows (c : Call) (h : StagesRows c) : SparesSchedule c := by
  unfold StagesRows at h
  split at h <;> trivial

theorem sparesSchedule_of_scheduler (c : Call) (h : Role.scheduler.MayIssue c) :
    SparesSchedule c := by
  unfold SparesSchedule
  split <;> first | exact h | trivial

theorem sparesSchedule_of_delivery {jobId : String} {input : DeliveryInput} (c : Call)
    (h : (Role.deliveryWorker jobId input).MayIssue c) : SparesSchedule c := by
  unfold SparesSchedule
  split <;> first | exact h | trivial

theorem transaction_prompt (feed : FeedRow) (response : FetchResponse)
    (entries : List NormalizedEntry) :
    Prompt since (transaction rt canonicalizeArticleLink feed response entries) := by
  refine Prompt.bind (prompt_invoke trivial) fun _ => ?_
  refine Prompt.bind (prompt_of_issues
    ((insertMany_stagesRows ..).mono sparesSchedule_of_stagesRows)) fun inserted => ?_
  refine Prompt.bind (prompt_invoke trivial) fun rules => ?_
  refine Prompt.bind (prompt_of_issues
    ((createForEntryWithRules_stagesRows _).mono sparesSchedule_of_stagesRows)) fun outcome => ?_
  refine Prompt.bind (prompt_invoke trivial) fun _ => ?_
  refine prompt_clock_bind fun now hnow => ?_
  -- the report is due after the clock that was read for it
  refine Prompt.bind (prompt_invoke (overtakes_of_later hnow rfl)) fun _ => ?_
  exact Prompt.bind (prompt_invoke trivial) fun _ => trivial

theorem store_prompt (feed : FeedRow) (response : FetchResponse)
    (entries : List NormalizedEntry) :
    Prompt since (store rt canonicalizeArticleLink feed response entries) := by
  refine Prompt.bind (prompt_invoke trivial) fun _ => ?_
  rw [tryFinally_eq]
  refine Meets.finallyDo (Prompt.tryCatch ?_ fun e => ?_) fun _ _ _ => ?_
  · refine Prompt.bind (transaction_prompt ..) fun r => ?_
    refine Prompt.bind (prompt_of_issues ?_) fun _ => trivial
    exact (deliverAlerts_handsOver _).mono sparesSchedule_of_handsOver
  · exact Prompt.bind (prompt_invoke trivial) fun _ => trivial
  · exact (prompt_invoke (c := .ingest .release) trivial).mono fun _ _ _ =>
      ⟨fun _ => trivial, fun _ _ => trivial⟩

theorem notModified_prompt (feed : FeedRow) (response : FetchResponse) :
    Prompt since (notModified feed response) := by
  refine Prompt.bind (prompt_invoke trivial) fun _ => ?_
  refine prompt_clock_bind fun now hnow => ?_
  exact Prompt.bind (prompt_invoke (overtakes_of_later hnow rfl)) fun _ => trivial

theorem handleFailure_prompt (feed : FeedRow) (message : String) :
    Prompt since (handleFailure rt feed message) := by
  refine Prompt.bind (prompt_invoke trivial) fun jitter => ?_
  refine Prompt.bind (prompt_invoke trivial) fun _ => ?_
  refine prompt_clock_bind fun now hnow => ?_
  refine Prompt.bind (prompt_invoke (overtakes_of_later hnow rfl)) fun _ => ?_
  split <;> trivial

/-- **A fetch job** makes its feed due after the time it was told. -/
theorem fetch_prompt (feedId : Nat) :
    Prompt since (ProcessFeedJob.execute rt canonicalizeArticleLink feedId) := by
  refine Prompt.bind (prompt_invoke trivial) fun _ => ?_
  refine Prompt.bind (prompt_invoke trivial) fun feed => ?_
  cases feed with
  | none => trivial
  | some feed =>
    refine Prompt.tryCatch (Prompt.bind (prompt_invoke trivial) fun response => ?_) fun e =>
      handleFailure_prompt feed e
    split
    · exact notModified_prompt feed response
    split
    · trivial
    split
    · trivial
    · exact store_prompt ..

theorem checkFeedNow_prompt (id : Nat) (tenantId : String) :
    Prompt since (FeedActions.checkFeedNow id tenantId) := by
  refine Prompt.bind (prompt_invoke trivial) fun feed => ?_
  cases feed with
  | none => trivial
  | some feed =>
    refine Prompt.bind (prompt_invoke trivial) fun claimed => ?_
    split
    · trivial
    · refine prompt_clock_bind fun queuedAt _ => ?_
      refine Prompt.bind (Prompt.bind (prompt_invoke trivial) fun found => ?_) fun _ => trivial
      exact Prompt.bind (prompt_invoke trivial) fun _ => trivial

/-- A disabled feed is paused, so it goes before none. -/
theorem disableFeed_prompt (id : Nat) (tenantId : String) :
    Prompt since (FeedActions.disableFeed id tenantId) := by
  refine Prompt.bind (Prompt.bind ?_ fun _ => trivial) fun disabled => ?_
  · refine Prompt.bind (prompt_invoke trivial) fun current => ?_
    cases current with
    | none => trivial
    | some current => exact prompt_clock_bind fun now _ => prompt_invoke rfl
  · split <;> trivial

end Programs

/-! ## Waiting -/

namespace System

open Prog Transition World

variable {d : Deployment} {s s' : System} {id since : Nat}

/-- The feed waits: it is active and unclaimed, and overdue since the instant. -/
structure Waits (id since : Nat) (w : World) : Prop where
  /-- the instant has passed -/
  overdue : since < w.now
  /-- the row -/
  row : ∃ f ∈ w.feeds, f.id = id ∧ f.status = .active ∧ f.nextCheckAt = since ∧ f.claimedAt = none

/-- Whether a feed waits can be tested. -/
instance (id since : Nat) (w : World) : Decidable (Waits id since w) :=
  decidable_of_iff (since < w.now ∧ (w.feeds.any fun f => f.id = id && f.status = .active &&
      f.nextCheckAt = since && f.claimedAt.isNone) = true) <| by
    simp only [List.any_eq_true, Bool.and_eq_true, decide_eq_true_eq, Option.isNone_iff_eq_none,
      and_assoc]
    exact ⟨fun h => ⟨h.1, h.2⟩, fun h => ⟨h.overdue, h.row⟩⟩

/-- How many feeds the claim of a step may return, if the waiting feed could be one of them: its
row is not locked elsewhere. -/
def placesOffered (id : Nat) (s : System) : Action → Nat
  | .advance pid out =>
    match s.claimLimit pid, out.choice? with
    | some limit, some (.claim skipped _ _) => if id ∈ skipped then 0 else limit
    | _, _ => 0
  | _ => 0

/-- The statements of a step that put a feed before the waiting one. -/
def overtaking (since : Nat) (s : System) (a : Action) : Nat :=
  match s.executedCall a with
  | some (_, .feed (.update u)) => if u.overtakes since then 1 else 0
  | some (pid, c) => (s.world.reported pid c).countP fun u => u.overtakes since
  | none => 0

theorem ahead_commitTxn_le {w : World} {pid : Nat} (hkey : (w.feeds.map FeedRow.id).Nodup) :
    Feeds.ahead id since (w.commitTxn pid).feeds ≤ Feeds.ahead id since w.feeds
      + (w.reported pid (.ingest .commit)).countP fun u => u.overtakes since := by
  unfold World.commitTxn World.reported
  rcases w.txn pid with _ | t
  · simp
  · exact Feeds.ahead_foldl_le t.feedUpdates hkey

/-- **What gets ahead** of a waiting feed is counted. -/
theorem ahead_step {a : Action} (hs : step d s a = some s')
    (hkey : (s.world.feeds.map FeedRow.id).Nodup) (hlate : since < s.world.now) :
    Feeds.ahead id since s'.world.feeds
      ≤ Feeds.ahead id since s.world.feeds + overtaking since s a := by
  rcases step_effect hs with ⟨pid, c, ch, r, hx, hserve⟩ | ⟨-, hq⟩
  · have he := serve_effect hserve
    unfold overtaking
    rw [hx]
    generalize s'.world = w' at he
    cases he with
    | claim limit skipped picks jitters claimed feeds hc =>
      exact (Feeds.ahead_claimDueFeeds_le hlate hc).trans (Nat.le_add_right _ _)
    | releaseStuck threshold =>
      exact (Feeds.ahead_releaseStuckFeeds_le hlate).trans (Nat.le_add_right _ _)
    | updateFeed u => exact Feeds.ahead_applyUpdate_le hkey u
    | reportFetch u =>
      have hle : Feeds.ahead id since (Feeds.updateAfterFetch s.world.now u s.world.feeds)
          ≤ Feeds.ahead id since s.world.feeds + if u.overtakes since then 1 else 0 :=
        Feeds.ahead_updateAfterFetch_le hkey u
      simpa [World.reported, List.countP_cons] using hle
    | commit => exact ahead_commitTxn_le hkey
    | _ => exact Nat.le_add_right _ _
  · generalize s'.world = w' at hq
    cases hq <;> exact Nat.le_add_right _ _

/-- A step with places to offer is a claim that did not find the row locked. -/
theorem placesOffered_cases {a : Action} (hs : step d s a = some s')
    (h : placesOffered id s a ≠ 0) :
    ∃ skipped picks jitters claimed feeds, id ∉ skipped ∧
      Feeds.claimDueFeeds s.world.now (placesOffered id s a) skipped picks jitters s.world.feeds
        = some (claimed, feeds) ∧ s'.world.feeds = feeds := by
  cases a with
  | advance pid out =>
    simp only [placesOffered] at h ⊢
    split at h
    · rename_i limit skipped picks jitters hlimit hout
      split at h
      · exact absurd rfl h
      · rename_i hskip
        obtain ⟨role, k, hp⟩ := claimLimit_eq_some hlimit
        obtain ⟨r, w, hans, rfl⟩ := advance_of_call hp hs
        obtain ⟨a, hserve⟩ := Call.serve_of_choice hout hans
        obtain ⟨-, hserve⟩ := Option.ite_none_right_eq_some.mp hserve
        obtain ⟨⟨claimed, feeds⟩, hc, he⟩ := Option.map_eq_some_iff.mp hserve
        cases he
        simp only [if_neg hskip]
        exact ⟨skipped, picks, jitters, claimed, feeds, hskip, hc, rfl⟩
    · exact absurd rfl h
  | _ => exact absurd rfl h

/-- **One step** of a run in which the feed waits takes as many feeds from before it as it has
places to offer. -/
theorem placesOffered_add_ahead_le {a : Action} (hs : step d s a = some s')
    (hkey : (s.world.feeds.map FeedRow.id).Nodup) (hw : Waits id since s.world)
    (hw' : Waits id since s'.world) :
    placesOffered id s a + Feeds.ahead id since s'.world.feeds
      ≤ Feeds.ahead id since s.world.feeds + overtaking since s a := by
  by_cases hoffer : placesOffered id s a = 0
  · rw [hoffer, Nat.zero_add]
    exact ahead_step hs hkey hw.overdue
  · obtain ⟨skipped, picks, jitters, claimed, feeds, hskip, hc, hfeeds⟩ :=
      placesOffered_cases hs hoffer
    obtain ⟨f, hf, rfl, hstatus, hdue, hfree⟩ := hw.row
    -- it was not taken, as it still waits
    have hnot : f ∉ picks := by
      intro hpick
      obtain ⟨f', hf', hid, -, -, hfree'⟩ := hw'.row
      rw [hfeeds, (Feeds.claimDueFeeds_eq_some hc).2.1] at hf'
      obtain ⟨g, -, rfl⟩ := Table.mem_updateWhere.mp hf'
      have hgid : g.id = f.id := by
        split at hid <;> exact hid
      rw [if_pos (decide_eq_true (hgid ▸ List.mem_map_of_mem hpick))] at hfree'
      cases hfree'
    rw [hfeeds]
    exact (Feeds.limit_add_ahead_le hkey hw.overdue hc hf hstatus hdue hfree hskip hnot).trans
      (Nat.le_add_right _ _)

/-! ## Nothing gets ahead -/

/-- The action brings no `PATCH` of a feed. -/
def BringsNoPatch : Action → Prop
  | .request _ (.updateFeed ..) => False
  | _ => True

/-- Nothing that runs has yet to write when a feed is due, and nothing is staged. -/
structure Rested (s : System) : Prop where
  /-- the processes -/
  procs : ∀ pid p, s.procs pid = some p → Issues SparesSchedule p.prog
  /-- the transactions -/
  txns : ∀ pid t, s.world.txn pid = some t → t.feedUpdates = []

/-- The instant has passed, and nothing is under way that was told an earlier time. -/
structure Fresh (since : Nat) (s : System) : Prop where
  /-- the instant has passed -/
  overdue : since < s.world.now
  /-- the processes -/
  prompt : ∀ pid p, s.procs pid = some p → Prompt since p.prog
  /-- the staged reports -/
  staged : ∀ pid t, s.world.txn pid = some t → ∀ u ∈ t.feedUpdates, u.overtakes since = false

theorem Rested.fresh (h : s.Rested) (hlate : since < s.world.now) : Fresh since s where
  overdue := hlate
  prompt pid p hp := prompt_of_issues (h.procs pid p hp)
  staged pid t ht u hu := by
    rw [h.txns pid t ht] at hu
    cases hu

theorem now_effect {pid : Nat} {w w' : World} {c : Call} (h : CallEffect pid w c w') :
    w'.now = w.now := by
  cases h with
  | commit =>
    unfold World.commitTxn
    split <;> rfl
  | _ => rfl

theorem launch_prompt {a : Action} {pid : Nat} {role : Role} {prog : Program Unit}
    (ha : BringsNoPatch a) (hl : Launch d s.world a pid role prog) : Prompt since prog := by
  -- of the requests only `PATCH` can put a feed before the waiting one
  cases hl with
  | tick => exact prompt_of_issues ((scheduler_issues ..).mono sparesSchedule_of_scheduler)
  | request pid r =>
    cases r with
    | updateFeed => exact ha.elim
    | disableFeed id tenantId => exact disableFeed_prompt id tenantId
    | checkFeedNow id tenantId => exact (checkFeedNow_prompt id tenantId).bind fun _ => trivial
    | sendAlert alertId tenantId =>
      refine Prompt.bind (prompt_of_issues ?_) fun _ => trivial
      exact executeManual_issues sparesSchedule_of_handsOver ..
  | fetch pid jobId job => exact (fetch_prompt _).bind fun _ => trivial
  | delivery pid jobId job =>
    exact prompt_of_issues ((deliveryWorker_issues _ _ jobId).mono sparesSchedule_of_delivery)

/-- The answers of the system to the clock. -/
theorem tellsLate_of_answer {pid : Nat} {w w' : World} {out : Outcome} {c : Call}
    {r : Except String c.Reply} (hlate : since < w.now)
    (h : c.answer pid w out = some (r, w')) : TellsLate since c r := by
  unfold TellsLate
  split
  · rename_i now
    obtain ⟨ch, -, hserve⟩ := Call.serve_of_ok h
    obtain ⟨rfl, -⟩ := Prod.mk.inj (Option.some.inj hserve)
    exact hlate
  · trivial

/-- The call of a process that was told the time, and what it takes effect on. -/
theorem Fresh.respects {a : Action} {pid : Nat} {c : Call} (h : Fresh since s)
    (hx : s.executedCall a = some (pid, c)) : Respects since c := by
  obtain ⟨out, role, k, -, hp⟩ := executedCall_eq_some hx
  exact (confined_call.mp (h.prompt pid _ hp)).1

/-- **No step gets a feed ahead** while nothing is under way that was told an earlier time. -/
theorem Fresh.overtaking {a : Action} (h : Fresh since s) : overtaking since s a = 0 := by
  unfold System.overtaking
  split
  · rename_i u hx
    have hu : u.overtakes since = false := h.respects hx
    rw [hu]
    rfl
  · rename_i pid c _ hx
    refine List.countP_eq_zero.mpr fun u hu => ?_
    rw [Bool.not_eq_true]
    unfold World.reported at hu
    split at hu
    · obtain rfl := List.mem_singleton.mp hu
      exact h.respects hx
    · rcases ht : s.world.txn pid with _ | t
      · rw [ht] at hu
        cases hu
      · rw [ht] at hu
        exact h.staged pid t ht u hu
    · cases hu
  · rfl

theorem Fresh.step {a : Action} (h : Fresh since s) (ha : BringsNoPatch a)
    (hs : step d s a = some s') : Fresh since s' := by
  have hprompt : ∀ pid p, s'.procs pid = some p → Prompt since p.prog := by
    intro pid p hp
    rcases process_step hs hp with ⟨hp, -⟩ | ⟨-, hl⟩ | ⟨out, c, k, r, -, hp, hans, hk⟩
    · exact h.prompt pid p hp
    · exact launch_prompt ha hl
    · rw [hk]
      exact (confined_call.mp (h.prompt pid _ hp)).2 r (tellsLate_of_answer h.overdue hans)
  -- only the ingestion stages reports, and the clock does not go back
  rcases step_effect hs with ⟨pid, c, ch, r, hx, hserve⟩ | ⟨-, hq⟩
  · have he : CallEffect pid s.world c s'.world := serve_effect hserve
    refine ⟨(now_effect he).symm ▸ h.overdue, hprompt, fun q t' ht' u hu => ?_⟩
    rcases stagedReports_effect he ht' hu with ⟨t, ht, hold, -⟩ | ⟨-, rfl, -⟩
    · exact h.staged q t ht u hold
    · exact h.respects hx
  · have hworld : since < s'.world.now ∧ ∀ q t, s'.world.txn q = some t →
        ∀ u ∈ t.feedUpdates, u.overtakes since = false := by
      have hover := h.overdue
      have hstaged := h.staged
      generalize s'.world = w' at hq
      cases hq with
      | elapse ms => exact ⟨Nat.lt_add_right ms hover, hstaged⟩
      | dropTxn pid =>
        refine ⟨hover, fun q t ht => ?_⟩
        rw [txn_dropTxn] at ht
        obtain ⟨-, ht⟩ := Option.ite_none_left_eq_some.mp ht
        exact hstaged q t ht
      | _ => exact ⟨hover, hstaged⟩
    exact ⟨hworld.1, hprompt, hworld.2⟩

/-! ## Runs -/

/-- A scheduler that claims one feed at a time. -/
def oneAtATime : Deployment :=
  { webhookDeployment with config := { webhookDeployment.config with schedulerBatchSize := 1 } }

/-- Two feeds are due, one of them for longer. -/
def twoDue : System :=
  { oneFeed with world := { oneFeed.world with
      feeds := [dueFeed, { dueFeed with id := 2, nextCheckAt := 5 }] } }

end System

end Feedpulse
