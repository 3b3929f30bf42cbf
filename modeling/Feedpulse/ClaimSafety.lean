import Feedpulse.Frames
import Feedpulse.System

/-!
# Claims are exclusive

What `claimDueFeeds` returns (`ClaimSafe`): no more feeds than the limit, only feeds
that are due and unclaimed, the more urgent classes first, in order. And what happens
between two claims of one feed: its claim is released, by the report of a fetch or by
the sweep of stuck claims. The invariant behind the second part is `HeldClaim`: the row
is claimed, and no open transaction is about to release it.
-/

namespace Feedpulse

/-! ## One claim -/

namespace Feeds

/-- What one claim at `now` may return, given the rows of the table and the rows that
are locked elsewhere. -/
structure ClaimSafe (now limit : Nat) (skipped : List Nat) (feeds claimed : List FeedRow) :
    Prop where
  /-- the limit is respected -/
  length_le : claimed.length ≤ limit
  /-- every feed was due, unclaimed, and of a class that is fetched -/
  due : ∀ g ∈ claimed, ∃ f ∈ feeds, f.id = g.id ∧ f.status = g.status ∧
    f.nextCheckAt ≤ now ∧ f.claimedAt = none ∧
    (f.status = .active ∨ f.status = .error ∨
      (f.status = .paused ∧ isAutoPausedError f.lastError = true))
  /-- no due feed of a more urgent class was passed over -/
  priority : ∀ f ∈ feeds, claimable now f = true → f.id ∉ skipped →
    (∀ g ∈ claimed, g.id ≠ f.id) →
    ∀ g ∈ claimed, claimPriorityByStatus g.status ≤ claimPriorityByStatus f.status
  /-- the feeds are ordered by class, and by id within a class -/
  ordered : claimed.Pairwise fun f g =>
    claimPriorityByStatus f.status < claimPriorityByStatus g.status ∨
      (claimPriorityByStatus f.status = claimPriorityByStatus g.status ∧ f.id < g.id)

section OneClaim

variable {now limit : Nat} {skipped : List Nat} {picks : List FeedRow}
  {jitters : List (Nat × Nat)} {feeds claimed feeds' : List FeedRow}

/-- A claimed row is the claimed version of a row that was picked. -/
theorem eq_claim_of_mem (hkey : (feeds.map FeedRow.id).Nodup)
    (h : claimDueFeeds now limit skipped picks jitters feeds = some (claimed, feeds'))
    {g : FeedRow} (hg : g ∈ claimed) :
    ∃ f ∈ picks, g = claim now (jitterOf jitters f.id) f := by
  obtain ⟨hpicks, rfl, hmem⟩ := claimDueFeeds_eq_some h
  obtain ⟨hg', hid⟩ := (hmem g).mp hg
  obtain ⟨f, hf, rfl⟩ := Table.mem_updateWhere.mp hg'
  have hfid : f.id ∈ picks.map FeedRow.id := by
    split at hid <;> simpa using hid
  obtain ⟨p, hp, hpid⟩ := List.mem_map.mp hfid
  obtain rfl := List.inj_on_of_nodup_map hkey (hpicks p hp).1 hf hpid
  exact ⟨p, hp, if_pos (by simpa using hfid)⟩

/-- A claim keeps the keys of the table. -/
theorem map_id_claimDueFeeds
    (h : claimDueFeeds now limit skipped picks jitters feeds = some (claimed, feeds')) :
    feeds'.map FeedRow.id = feeds.map FeedRow.id := by
  obtain ⟨-, rfl, -⟩ := claimDueFeeds_eq_some h
  exact Table.map_updateWhere FeedRow.id feeds fun r => rfl

/-- The claimed rows have distinct ids. -/
theorem nodup_claimed (hkey : (feeds.map FeedRow.id).Nodup)
    (h : claimDueFeeds now limit skipped picks jitters feeds = some (claimed, feeds')) :
    (claimed.map FeedRow.id).Nodup := by
  obtain ⟨-, rfl⟩ := claimDueFeeds_isTop h
  have hperm := (List.perm_insertionSort claimedLe
    (feeds'.filter fun f => f.id ∈ picks.map FeedRow.id)).map FeedRow.id
  have hkey' : (feeds'.map FeedRow.id).Nodup := map_id_claimDueFeeds h ▸ hkey
  exact hperm.nodup_iff.mpr (hkey'.sublist (List.filter_sublist.map FeedRow.id))

/-- **A claim is safe**, where ids are unique. -/
theorem claimDueFeeds_safe (hkey : (feeds.map FeedRow.id).Nodup)
    (h : claimDueFeeds now limit skipped picks jitters feeds = some (claimed, feeds')) :
    ClaimSafe now limit skipped feeds claimed := by
  obtain ⟨hpicks, -, hmem⟩ := claimDueFeeds_eq_some h
  obtain ⟨⟨-, -, hlen, -, htop⟩, hsort⟩ := claimDueFeeds_isTop h
  have hnodup := nodup_claimed hkey h
  constructor
  · have hsub : claimed.map FeedRow.id ⊆ picks.map FeedRow.id := by
      intro id hid
      obtain ⟨g, hg, rfl⟩ := List.mem_map.mp hid
      exact ((hmem g).mp hg).2
    have hle := hnodup.length_le_of_subset hsub
    simp only [List.length_map] at hle
    omega
  · intro g hg
    obtain ⟨f, hf, rfl⟩ := eq_claim_of_mem hkey h hg
    obtain ⟨hmemf, hok⟩ := hpicks f hf
    exact ⟨f, hmemf, rfl, rfl, claimable_iff.mp hok⟩
  · intro f hf hok hskip hnot g hg
    obtain ⟨p, hp, rfl⟩ := eq_claim_of_mem hkey h hg
    rcases htop f (mem_claimCandidates.mpr ⟨hf, hok, hskip⟩) with hfp | hle
    · -- a picked row is returned
      have hfid : f.id ∈ picks.map FeedRow.id := List.mem_map_of_mem hfp
      have hrow : f.id ∈ feeds'.map FeedRow.id :=
        map_id_claimDueFeeds h ▸ List.mem_map_of_mem hf
      obtain ⟨r, hr, hrid⟩ := List.mem_map.mp hrow
      exact absurd hrid (hnot r ((hmem r).mpr ⟨hr, hrid ▸ hfid⟩))
    · have := hle p hp
      simp only [claimLe, Bool.or_eq_true, Bool.and_eq_true, decide_eq_true_eq] at this
      change claimPriorityByStatus p.status ≤ _
      omega
  · have hle : claimed.Pairwise claimedLe := by
      rw [hsort]
      exact List.pairwise_insertionSort claimedLe _
    refine (hle.and (List.pairwise_map.mp hnodup)).imp ?_
    rintro f g ⟨hfg, hne⟩
    unfold claimedLe at hfg
    omega

end OneClaim

end Feeds

namespace System

open World

variable {d : Deployment} {s s' : System}

/-! ## Claims and releases in a run -/

/-- The limit of the claim that a process is about to make. -/
def claimLimit (s : System) (pid : Nat) : Option Nat :=
  match s.procs pid with
  | some ⟨_, .call (.feed (.claimDueFeeds limit)) _⟩ => some limit
  | _ => none

theorem claimLimit_eq_some {pid limit : Nat} (h : s.claimLimit pid = some limit) :
    ∃ role k, s.procs pid = some ⟨role, .call (.feed (.claimDueFeeds limit)) k⟩ := by
  unfold claimLimit at h
  split at h
  · rename_i role limit' k hp
    obtain rfl := Option.some.inj h
    exact ⟨role, k, hp⟩
  · cases h

/-- The step is one in which a `claimDueFeeds` takes effect: it returns `claimed`, under
a limit and with the rows `skipped` locked elsewhere. -/
inductive ReturnsFeeds (s : System) : Action → Nat → List Nat → List FeedRow → Prop
  /-- the database answers the statement -/
  | intro (pid : Nat) (out : Outcome) (limit : Nat) (skipped : List Nat)
    (picks : List FeedRow) (jitters : List (Nat × Nat)) (claimed feeds : List FeedRow)
    (hp : s.claimLimit pid = some limit)
    (hout : out.choice? = some (.claim skipped picks jitters))
    (hc : Feeds.claimDueFeeds s.world.now limit skipped picks jitters s.world.feeds
      = some (claimed, feeds)) :
    ReturnsFeeds s (.advance pid out) limit skipped claimed

/-- The step executes an `updateAfterFetch` of the feed, or a `releaseStuckFeeds` that
finds its claim stuck. -/
inductive ReleasesClaim (s : System) (a : Action) (id : Nat) : Prop
  /-- a fetch reports outside a transaction -/
  | report (pid : Nat) (u : Feeds.AfterFetch) (hu : u.feedId = id)
    (h : s.executedCall a = some (pid, .feed (.updateAfterFetch u)))
  /-- a fetch reports inside its transaction -/
  | stage (pid : Nat) (u : Feeds.AfterFetch) (hu : u.feedId = id)
    (h : s.executedCall a = some (pid, .ingest (.updateAfterFetch u)))
  /-- the sweep finds the claim stuck -/
  | sweep (pid threshold : Nat) (f : FeedRow) (hf : f ∈ s.world.feeds) (hid : f.id = id)
    (hstuck : Feeds.stuck s.world.now threshold f = true)
    (h : s.executedCall a = some (pid, .feed (.releaseStuckFeeds threshold)))

/-- The feed is claimed, and no open transaction is about to release the claim. -/
structure HeldClaim (id : Nat) (w : World) : Prop where
  /-- its row is claimed -/
  claimed : ∀ f ∈ w.feeds, f.id = id → f.claimedAt.isSome = true
  /-- no open transaction has reported on it -/
  unreported : ∀ p ∈ w.txns, ∀ u ∈ p.2.feedUpdates, u.feedId ≠ id

/-- Reports on other feeds keep a claim. -/
theorem claimed_updateAfterFetch {id now : Nat} {u : Feeds.AfterFetch} {feeds : List FeedRow}
    (h : ∀ f ∈ feeds, f.id = id → f.claimedAt.isSome = true) (hu : u.feedId ≠ id) :
    ∀ f ∈ Feeds.updateAfterFetch now u feeds, f.id = id → f.claimedAt.isSome = true := by
  refine Table.forall_updateWhere (P := fun f : FeedRow => f.id = id → f.claimedAt.isSome = true)
      h ?_
  intro f _ hp _ hid
  have hfu : f.id = u.feedId := by simpa using hp
  exact absurd (hfu.symm.trans hid) hu

theorem HeldClaim.setTxn {id : Nat} {w : World} (h : HeldClaim id w) (pid : Nat) (t : Txn)
    (ht : ∀ u ∈ t.feedUpdates, u.feedId ≠ id) : HeldClaim id (w.setTxn pid t) := by
  refine ⟨h.claimed, fun p hp => ?_⟩
  rcases mem_setTxn hp with rfl | hp
  · exact ht
  · exact h.unreported p hp

theorem HeldClaim.dropTxn {id pid : Nat} {w : World} (h : HeldClaim id w) :
    HeldClaim id (w.dropTxn pid) :=
  ⟨h.claimed, fun p hp => h.unreported p (mem_dropTxn hp)⟩

/-- What an open transaction has reported is not about the feed. -/
theorem HeldClaim.of_txn {id pid : Nat} {w : World} {t : Txn} (h : HeldClaim id w)
    (ht : w.txn pid = some t) : ∀ u ∈ t.feedUpdates, u.feedId ≠ id :=
  h.unreported _ (mem_of_txn ht)

/-- A commit of reports on other feeds keeps a claim. -/
theorem HeldClaim.commitTxn {id pid : Nat} {w : World} (h : HeldClaim id w) :
    HeldClaim id (w.commitTxn pid) := by
  unfold World.commitTxn
  split
  · exact h
  · rename_i t ht
    refine ⟨?_, h.dropTxn.unreported⟩
    have hu := h.of_txn ht
    have hc := h.claimed
    change ∀ f ∈ t.feedUpdates.foldl (fun fs u => Feeds.updateAfterFetch w.now u fs) w.feeds, _
    generalize w.feeds = feeds at hc
    generalize t.feedUpdates = us at hu
    -- one report after the other
    induction us generalizing feeds with
    | nil => exact hc
    | cons u us ih =>
      exact ih _ (claimed_updateAfterFetch hc (hu u List.mem_cons_self))
        fun v hv => hu v (List.mem_cons_of_mem u hv)

/-- **A claim is held until it is released.** -/
theorem heldClaim_step {id : Nat} {a : Action} (hs : step d s a = some s')
    (h : HeldClaim id s.world) (hno : ¬ ReleasesClaim s a id) : HeldClaim id s'.world := by
  rcases step_effect hs with ⟨pid, c, ch, r, hx, hserve⟩ | ⟨-, hq⟩
  · have he := serve_effect hserve
    generalize s'.world = w' at he
    cases he with
    | claim limit skipped picks jitters claimed feeds hc =>
      refine ⟨?_, h.unreported⟩
      obtain ⟨-, rfl, -⟩ := Feeds.claimDueFeeds_eq_some hc
      exact Table.forall_updateWhere h.claimed fun _ _ _ _ _ => rfl
    | releaseStuck threshold =>
      refine ⟨?_, h.unreported⟩
      refine Table.forall_updateWhere
        (P := fun f : FeedRow => f.id = id → f.claimedAt.isSome = true)
        h.claimed ?_
      intro f hf hstuck _ hid
      exact absurd (.sweep pid threshold f hf hid hstuck hx) hno
    | updateFeed u =>
      exact ⟨Table.forall_updateWhere h.claimed fun _ _ _ hf => hf, h.unreported⟩
    | reportFetch u =>
      have hu : u.feedId ≠ id := fun hu => hno (.report pid u hu hx)
      exact ⟨claimed_updateAfterFetch h.claimed hu, h.unreported⟩
    | stageReport u t ht =>
      have hu : u.feedId ≠ id := fun hu => hno (.stage pid u hu hx)
      refine h.setTxn pid _ fun v hv => ?_
      rcases List.mem_append.mp hv with hv | hv
      · exact h.of_txn ht v hv
      · exact List.mem_singleton.mp hv ▸ hu
    | begin => exact h.setTxn pid Txn.empty fun u hu => absurd hu List.not_mem_nil
    | commit => exact h.commitTxn
    | rollback => exact h.dropTxn
    | release => exact h.dropTxn
    | stageEntry tenantId feedId e t row ht =>
      have hu : ∀ u ∈ t.feedUpdates, u.feedId ≠ id := h.of_txn ht
      have hw := h.setTxn pid { t with entries := t.entries ++ [row] } hu
      exact ⟨hw.claimed, hw.unreported⟩
    | stageAlerts rows t ht =>
      have hu : ∀ u ∈ t.feedUpdates, u.feedId ≠ id := h.of_txn ht
      have hw := h.setTxn pid { t with
        alerts := (upsertAll s.world.now s.world.alerts rows s.world.nextAlertId t.alerts).2.2 } hu
      exact ⟨hw.claimed, hw.unreported⟩
    | stageLog row t ht =>
      have hu : ∀ u ∈ t.feedUpdates, u.feedId ≠ id := h.of_txn ht
      exact h.setTxn pid { t with fetchLogs := t.fetchLogs ++ [row] } hu
    | _ => exact ⟨h.claimed, h.unreported⟩
  · generalize s'.world = w' at hq
    cases hq with
    | dropTxn pid => exact h.dropTxn
    | _ => exact ⟨h.claimed, h.unreported⟩

/-- A claim that takes effect saw the locks of the open transactions, and leaves every
feed it returns with a held claim. -/
theorem heldClaim_of_returnsFeeds {a : Action} {limit : Nat} {skipped : List Nat}
    {claimed : List FeedRow} (hs : step d s a = some s')
    (hc : s.ReturnsFeeds a limit skipped claimed)
    {f : FeedRow} (hf : f ∈ claimed) : HeldClaim f.id s'.world := by
  cases hc with
  | intro pid out _ _ picks jitters _ feeds hp hout hc =>
    obtain ⟨role, k, hp⟩ := claimLimit_eq_some hp
    obtain ⟨r, w, hans, rfl⟩ := advance_of_call hp hs
    obtain ⟨a, hserve⟩ := Call.serve_of_choice hout hans
    obtain ⟨hfree, hserve⟩ := Option.ite_none_right_eq_some.mp hserve
    rw [hc] at hserve
    obtain ⟨-, rfl⟩ := Prod.mk.inj (Option.some.inj hserve)
    obtain ⟨hpicks, hfeeds, hmem⟩ := Feeds.claimDueFeeds_eq_some hc
    have htop := (Feeds.claimDueFeeds_isTop hc).1
    obtain ⟨hf', hid⟩ := (hmem f).mp hf
    constructor
    · intro g hg hgid
      change g ∈ feeds at hg
      rw [hfeeds] at hg
      obtain ⟨g', -, rfl⟩ := Table.mem_updateWhere.mp hg
      split at hgid
      · rename_i hin
        rw [if_pos hin]
        rfl
      · rename_i hin
        exact absurd (by simpa [hgid] using hid) hin
    · -- the picked row was not locked
      obtain ⟨p, hp', hpid⟩ := List.mem_map.mp hid
      have hskip := (Feeds.mem_claimCandidates.mp (htop.2.1 p hp')).2.2
      intro q hq u hu huid
      have hlock : lockedBy (s.world.txns.map Prod.snd) p = true := by
        simp only [lockedBy, List.any_eq_true]
        exact ⟨q.2, List.mem_map_of_mem hq, u, hu, by simp [huid, hpid]⟩
      simp only [unlocked, List.all_eq_true] at hfree
      have := hfree p (hpicks p hp').1
      simp [hskip, hlock] at this

/-- A held claim is not claimed again. -/
theorem not_returnsFeeds_of_heldClaim {a : Action} {limit : Nat} {skipped : List Nat}
    {claimed : List FeedRow} {id : Nat} (hkey : (s.world.feeds.map FeedRow.id).Nodup)
    (h : HeldClaim id s.world) (hc : s.ReturnsFeeds a limit skipped claimed) :
    ∀ g ∈ claimed, g.id ≠ id := by
  cases hc with
  | intro pid out _ _ picks jitters _ feeds hp hout hc =>
    rintro g hg hid
    obtain ⟨f, hf, hfid, -, -, hnone, -⟩ := (Feeds.claimDueFeeds_safe hkey hc).due g hg
    have := h.claimed f hf (hfid.trans hid)
    rw [hnone] at this
    cases this

/-- The ids of the feeds stay as they are. -/
theorem map_id_feeds_step {a : Action} (hs : step d s a = some s') :
    s'.world.feeds.map FeedRow.id = s.world.feeds.map FeedRow.id := by
  rcases step_effect hs with ⟨pid, c, ch, r, -, hserve⟩ | ⟨-, hq⟩
  · have he := serve_effect hserve
    generalize s'.world = w' at he
    cases he with
    | claim limit skipped picks jitters claimed feeds hc => exact Feeds.map_id_claimDueFeeds hc
    | releaseStuck threshold => exact Table.map_updateWhere FeedRow.id _ fun _ => rfl
    | updateFeed u => exact Table.map_updateWhere FeedRow.id _ fun _ => rfl
    | reportFetch u => exact Table.map_updateWhere FeedRow.id _ fun _ => rfl
    | commit =>
      unfold World.commitTxn
      split
      · rfl
      · rename_i t ht
        change (t.feedUpdates.foldl _ s.world.feeds).map FeedRow.id = _
        generalize s.world.feeds = feeds
        induction t.feedUpdates generalizing feeds with
        | nil => rfl
        | cons u us ih =>
          exact (ih _).trans (Table.map_updateWhere FeedRow.id _ fun _ => rfl)
    | _ => rfl
  · generalize s'.world = w' at hq
    cases hq <;> rfl

/-- The ids of the feeds stay unique. -/
theorem nodup_feeds_run {as : List Action} (hkey : (s.world.feeds.map FeedRow.id).Nodup)
    (hrun : Transition.run (step d) s as = some s') : (s'.world.feeds.map FeedRow.id).Nodup :=
  Transition.run_invariant (I := fun s => (s.world.feeds.map FeedRow.id).Nodup)
    (fun _ _ _ h hs => map_id_feeds_step hs ▸ h) hkey hrun

/-! ## All claims -/

/-- **Claims are safe and exclusive.** Ids are unique to begin with, as the primary key
of the table demands. Then every claim of a run is safe, and a feed that it returns is
returned by a later claim only after a step in between has released it. -/
theorem claims_exclusive {s₀ s s₁ : System} {as : List Action} {a : Action} {limit : Nat}
    {skipped : List Nat} {claimed : List FeedRow}
    (hkey : (s₀.world.feeds.map FeedRow.id).Nodup)
    (hrun : Transition.run (step d) s₀ as = some s) (ha : step d s a = some s₁)
    (hc : s.ReturnsFeeds a limit skipped claimed) :
    Feeds.ClaimSafe s.world.now limit skipped s.world.feeds claimed ∧
      ∀ bs s₂ b s₃ limit' skipped' claimed', Transition.run (step d) s₁ bs = some s₂ →
        step d s₂ b = some s₃ → s₂.ReturnsFeeds b limit' skipped' claimed' →
        ∀ f ∈ claimed, ∀ g ∈ claimed', g.id = f.id →
          ∃ cs c es t t', bs = cs ++ c :: es ∧ Transition.run (step d) s₁ cs = some t ∧
            step d t c = some t' ∧ t.ReleasesClaim c f.id := by
  have hkey' := nodup_feeds_run hkey hrun
  refine ⟨?_, ?_⟩
  · cases hc with
    | intro pid out _ _ picks jitters _ feeds hp hout hc =>
      exact Feeds.claimDueFeeds_safe hkey' hc
  · intro bs s₂ b s₃ limit' skipped' claimed' hbs hb hc' f hf g hg hid
    have hheld := heldClaim_of_returnsFeeds ha hc hf
    have hkey₂ : (s₂.world.feeds.map FeedRow.id).Nodup :=
      nodup_feeds_run (map_id_feeds_step ha ▸ hkey') hbs
    by_cases hal : Transition.Along (step d) (fun t c _ => ¬ t.ReleasesClaim c f.id) s₁ bs
    · -- no step released it, so the second claim saw it held
      have hheld₂ := (Transition.always_of_along (I := fun t => HeldClaim f.id t.world)
        (fun _ _ _ h hs hno => heldClaim_step hs h hno) hheld hal).last hbs
      exact absurd hid (not_returnsFeeds_of_heldClaim hkey₂ hheld₂ hc' g hg)
    · obtain ⟨cs, c, es, t, t', rfl, hcs, ht, hn⟩ :=
        Transition.exists_step_of_not_along hbs hal
      exact ⟨cs, c, es, t, t', rfl, hcs, ht, not_not.mp hn⟩

/-- The first claim of a tick over one due feed. -/
theorem claims_exclusive_oneFeed :
    ∃ s s₁, Transition.run (step webhookDeployment) oneFeed (.tick 1 :: proceed 1 3) = some s ∧
      step webhookDeployment s (.advance 1 (.ok (.claim [] [dueFeed] []))) = some s₁ ∧
      s.ReturnsFeeds (.advance 1 (.ok (.claim [] [dueFeed] []))) 10 []
        [Feeds.claim 1000000 0 dueFeed] ∧
      Feeds.ClaimSafe s.world.now 10 [] s.world.feeds [Feeds.claim 1000000 0 dueFeed] := by
  have hrun : ((Transition.run (step webhookDeployment) oneFeed (.tick 1 :: proceed 1 3)).bind
      fun s => (step webhookDeployment s (.advance 1 (.ok (.claim [] [dueFeed] [])))).map fun _ =>
        (s.claimLimit 1,
          Feeds.claimDueFeeds s.world.now 10 [] [dueFeed] [] s.world.feeds))
      = some (some 10,
          some ([Feeds.claim 1000000 0 dueFeed], [Feeds.claim 1000000 0 dueFeed])) := by decide
  obtain ⟨s, hs, hrun⟩ := Option.bind_eq_some_iff.mp hrun
  obtain ⟨s₁, hs₁, hrun⟩ := Option.map_eq_some_iff.mp hrun
  obtain ⟨hlimit, hc⟩ := Prod.mk.inj hrun
  have hret : s.ReturnsFeeds (.advance 1 (.ok (.claim [] [dueFeed] []))) 10 []
      [Feeds.claim 1000000 0 dueFeed] := .intro 1 _ 10 [] _ _ _ _ hlimit rfl hc
  exact ⟨s, s₁, hs, hs₁, hret, (claims_exclusive (by decide) hs hs₁ hret).1⟩

end System

end Feedpulse
