import Feedpulse.FeedJob

/-!
# What becomes of the jitter of a claim

The claim makes a feed due again after its interval and a jitter drawn for it, so that feeds with
one interval do not stay together. The report of a successful fetch makes it due after the
interval alone. `jitter_not_effective`: whatever was drawn for two feeds of one interval that are
claimed together, if they are fetched at the same instant, they are due together again.
-/

namespace Feedpulse

open Prog World

namespace ProcessFeedJob

/-! ## Successful checks -/

/-- The outer `catch` reports a failure, whether or not the statement succeeds. -/
def Event.ReportsFailure (e : Event) : Prop :=
  match e.call with
  | .feed (.updateAfterFetch u) => u.lastError ≠ none
  | _ => False

/-- The attempt has reported a success, and no failure. -/
def Succeeds (x : Attempt) : Prop := Reported x ∧ ∀ e ∈ x.steps, ¬ e.ReportsFailure

/-- A step of an attempt in which `Date.now()` is `instant` until the success is reported. -/
def FetchesAt (pid feedId instant : Nat) (x : Attempt) (c : Call) (r : Except String c.Reply)
    (x' : Attempt) : Prop :=
  Observes pid feedId x c r x' ∧ (c = .clock → ¬ Reported x → x'.world.now = instant)

/-- A row is the one a successful check leaves that found `feed` and took place at `instant`. -/
def Checked (rt : Runtime) (canonicalizeArticleLink : Option String → Option String)
    (feed : FeedRow) (instant : Nat) (row : FeedRow) : Prop :=
  ∃ pid w, Table.lookup FeedRow.id feed.id w.feeds = some feed ∧
    Can (FetchesAt pid feed.id instant) (execute rt canonicalizeArticleLink feed.id)
      (fun _ x => Succeeds x ∧ Table.lookup FeedRow.id feed.id x.world.feeds = some row) ⟨w, []⟩

/-! ## Steps -/

/-- The calls that leave the table of feeds alone. -/
def SparesFeeds : Call → Prop
  | .feed (.recordFetchLog _) => True
  | .feed (.findByIdForWorker _) => True
  | .feed _ => False
  | .ingest .commit => False
  | _ => True

/-- The statements between `BEGIN` and the report. -/
def StagesRows : Call → Prop
  | .ingest (.insertEntry ..) => True
  | .ingest (.listActive _) => True
  | .ingest (.entriesByIds _) => True
  | .ingest (.upsertAlerts _) => True
  | .ingest (.recordFetchLog _) => True
  | .clock => True
  | _ => False

theorem sparesFeeds_of_stagesRows (c : Call) (h : StagesRows c) : SparesFeeds c := by
  unfold StagesRows at h
  split at h <;> trivial

theorem sparesFeeds_of_handsOver (c : Call) (h : HandsOver c) : SparesFeeds c := by
  unfold HandsOver at h
  split at h <;> trivial

theorem feeds_of_spares {pid : Nat} {w w' : World} {c : Call} (h : CallEffect pid w c w')
    (hc : SparesFeeds c) : w'.feeds = w.feeds := by
  cases h with
  | commit => exact hc.elim
  | _ => first | rfl | exact hc.elim

section Steps

variable {pid instant : Nat} {feed : FeedRow} {response : FetchResponse} {x x' : Attempt}
  {c : Call} {r : Except String c.Reply}

/-- The attempt has not reported yet, and the feed is as it was found. -/
def Unreported (feed : FeedRow) (x : Attempt) : Prop :=
  ¬ Reported x ∧ Table.lookup FeedRow.id feed.id x.world.feeds = some feed

/-- The attempt has reported, and the feed is due one interval after `instant`. -/
def DueAgain (feed : FeedRow) (instant : Nat) (x : Attempt) : Prop :=
  Reported x ∧ ∀ row, Table.lookup FeedRow.id feed.id x.world.feeds = some row →
    row.nextCheckAt = instant + feed.pollIntervalSeconds * 1000

/-- **What holds of an attempt** on the feed at `instant`, unless it reports a failure. -/
def Keeps (feed : FeedRow) (instant : Nat) (x : Attempt) : Prop :=
  (∃ e ∈ x.steps, e.ReportsFailure) ∨ Unreported feed x ∨ DueAgain feed instant x

/-- A step that leaves the feeds alone reports nothing, and keeps the row. -/
theorem FetchesAt.spares (hx : FetchesAt pid feed.id instant x c r x') (hc : SparesFeeds c) :
    (Reported x' ↔ Reported x) ∧
      Table.lookup FeedRow.id feed.id x'.world.feeds
        = Table.lookup FeedRow.id feed.id x.world.feeds := by
  obtain ⟨w, out, hm, hs, hcases⟩ := hx.1.cases
  constructor
  · refine ⟨?_, hx.1.reported⟩
    rintro ⟨e, he, hrep⟩
    rw [hs] at he
    rcases List.mem_append.mp he with he | he
    · exact ⟨e, he, hrep⟩
    · obtain rfl := List.mem_singleton.mp he
      obtain ⟨-, hrep⟩ := hrep
      dsimp only at hrep
      split at hrep
      · exact hc.elim
      · exact hc.elim
      · exact hrep.elim
  · rw [← hm.row]
    rcases hcases with ⟨-, hw, -⟩ | ⟨-, ch, a, hserve, -⟩
    · rw [hw]
    · rw [feeds_of_spares (serve_effect hserve) hc]

theorem Unreported.spares (h : Unreported feed x) (hx : FetchesAt pid feed.id instant x c r x')
    (hc : SparesFeeds c) : Unreported feed x' := by
  obtain ⟨hrep, hrow⟩ := hx.spares hc
  exact ⟨fun hr => h.1 (hrep.mp hr), hrow.trans h.2⟩

theorem Keeps.spares (h : Keeps feed instant x) (hx : FetchesAt pid feed.id instant x c r x')
    (hc : SparesFeeds c) : Keeps feed instant x' := by
  obtain ⟨hrep, hrow⟩ := hx.spares hc
  rcases h with ⟨e, he, hf⟩ | h | ⟨hr, hdue⟩
  · obtain ⟨w, out, -, -, hs⟩ := hx.1
    exact .inl ⟨e, hs ▸ List.mem_append_left _ he, hf⟩
  · exact .inr (.inl (h.spares hx hc))
  · exact .inr (.inr ⟨hrep.mpr hr, fun row h => hdue row (hrow ▸ h)⟩)

/-- The report of a failure leaves nothing to keep. -/
theorem keeps_failureReport {u : Feeds.AfterFetch} (hu : u.lastError ≠ none)
    {r : Except String Unit}
    (hx : FetchesAt pid feed.id instant x (.feed (.updateAfterFetch u)) r x') :
    Keeps feed instant x' := by
  obtain ⟨w, out, -, -, hs⟩ := hx.1
  exact .inl ⟨⟨w, .feed (.updateAfterFetch u), out, x'.world⟩,
    hs ▸ List.mem_append_right _ (List.mem_singleton_self _), hu⟩

/-- **The report** makes the feed due after its interval. -/
theorem nextCheckAt_successReport {now : Nat} {feeds : List FeedRow} {row : FeedRow}
    (h : Table.lookup FeedRow.id feed.id feeds = some feed)
    (hrow : Table.lookup FeedRow.id feed.id
      (Feeds.updateAfterFetch now (successReport feed response instant) feeds) = some row) :
    row.nextCheckAt = instant + feed.pollIntervalSeconds * 1000 := by
  have hkey : ∀ f, ((successReport feed response instant).apply now f).id = f.id := fun _ => rfl
  rw [Feeds.updateAfterFetch, Table.lookup_updateWhere hkey, h] at hrow
  obtain rfl := Option.some.inj hrow
  simp [successReport, Feeds.AfterFetch.apply]

/-- The lone report after a `304`. -/
theorem keeps_report {r : Except String Unit} (h : Unreported feed x)
    (hx : FetchesAt pid feed.id instant x
      (.feed (.updateAfterFetch (successReport feed response instant))) r x') :
    Keeps feed instant x' := by
  obtain ⟨w, out, hm, hs, ⟨hout, hw, error, rfl⟩ | ⟨hout, ch, a, hserve, -⟩⟩ := hx.1.cases
  · refine .inr (.inl ⟨?_, ?_⟩)
    · rintro ⟨e, he, hrep⟩
      rw [hs] at he
      rcases List.mem_append.mp he with he | he
      · exact h.1 ⟨e, he, hrep⟩
      · obtain rfl := List.mem_singleton.mp he
        exact Bool.false_ne_true (hout.symm.trans hrep.1)
    · rw [hw, hm.row]
      exact h.2
  · refine .inr (.inr ⟨⟨_, hs ▸ List.mem_append_right _ (List.mem_singleton_self _), hout, rfl⟩,
      fun row hrow => ?_⟩)
    obtain ⟨-, hserve⟩ := Option.ite_none_right_eq_some.mp hserve
    obtain ⟨-, hw⟩ := Prod.mk.inj (Option.some.inj hserve)
    rw [← hw] at hrow
    exact nextCheckAt_successReport (hm.row.trans h.2) hrow

/-! ## The transaction -/

/-- Nothing is reported yet, and the open transaction holds these reports. -/
def Staged (pid : Nat) (feed : FeedRow) (updates : List Feeds.AfterFetch) (x : Attempt) : Prop :=
  Unreported feed x ∧ ∃ t, x.world.txn pid = some t ∧ t.feedUpdates = updates

theorem feedUpdates_of_stagesRows {w w' : World} {t : Txn} (he : CallEffect pid w c w')
    (hc : StagesRows c) (ht : w.txn pid = some t) :
    ∃ t', w'.txn pid = some t' ∧ t'.feedUpdates = t.feedUpdates := by
  have hset : ∀ t' : Txn, (w.setTxn pid t').txn pid = some t' :=
    fun t' => (txn_setTxn w pid pid t').trans (if_pos rfl)
  cases he with
  | none _ => exact ⟨t, ht, rfl⟩
  | stageEntry tenantId id e t₀ row ht₀ =>
    obtain rfl := Option.some.inj (ht.symm.trans ht₀)
    exact ⟨_, hset { t with entries := t.entries ++ [row] }, rfl⟩
  | stageAlerts rows t₀ ht₀ =>
    obtain rfl := Option.some.inj (ht.symm.trans ht₀)
    exact ⟨_, hset { t with
      alerts := (upsertAll w.now w.alerts rows w.nextAlertId t.alerts).2.2 }, rfl⟩
  | stageLog row t₀ ht₀ =>
    obtain rfl := Option.some.inj (ht.symm.trans ht₀)
    exact ⟨_, hset { t with fetchLogs := t.fetchLogs ++ [row] }, rfl⟩
  | _ => exact hc.elim

theorem Staged.stages {updates : List Feeds.AfterFetch} (h : Staged pid feed updates x)
    (hx : FetchesAt pid feed.id instant x c r x') (hc : StagesRows c) :
    Staged pid feed updates x' := by
  refine ⟨h.1.spares hx (sparesFeeds_of_stagesRows c hc), ?_⟩
  obtain ⟨w, out, hm, -, hcases⟩ := hx.1.cases
  obtain ⟨-, t, ht, hupdates⟩ := h
  have htw : w.txn pid = some t := hm.txn.trans ht
  rcases hcases with ⟨-, hw, -⟩ | ⟨-, ch, a, hserve, -⟩
  · rw [hw]
    exact ⟨t, htw, hupdates⟩
  · obtain ⟨t', ht', hsame⟩ := feedUpdates_of_stagesRows (serve_effect hserve) hc htw
    exact ⟨t', ht', hsame.trans hupdates⟩

/-- A `BEGIN` that is answered opens an empty transaction. -/
theorem staged_begin {u : Unit} (h : Unreported feed x)
    (hx : FetchesAt pid feed.id instant x (.ingest .begin) (.ok u) x') :
    Staged pid feed [] x' := by
  refine ⟨h.spares hx trivial, ?_⟩
  obtain ⟨w, out, -, -, ⟨-, -, error, herr⟩ | ⟨-, ch, a, hserve, -⟩⟩ := hx.1.cases
  · cases herr
  · obtain ⟨-, hw⟩ := Prod.mk.inj (Option.some.inj hserve)
    exact ⟨Txn.empty, hw ▸ (txn_setTxn w pid pid _).trans (if_pos rfl), rfl⟩

/-- The report is staged. -/
theorem staged_report {u : Feeds.AfterFetch} {v : Unit} (h : Staged pid feed [] x)
    (hx : FetchesAt pid feed.id instant x (.ingest (.updateAfterFetch u)) (.ok v) x') :
    Staged pid feed [u] x' := by
  refine ⟨h.1.spares hx trivial, ?_⟩
  obtain ⟨w, out, hm, -, ⟨-, -, error, herr⟩ | ⟨-, ch, a, hserve, -⟩⟩ := hx.1.cases
  · cases herr
  · obtain ⟨-, t, ht, hupdates⟩ := h
    have htw : w.txn pid = some t := hm.txn.trans ht
    obtain ⟨-, hserve⟩ := Option.ite_none_left_eq_some.mp hserve
    rw [htw] at hserve
    obtain ⟨-, hw⟩ := Prod.mk.inj (Option.some.inj hserve)
    refine ⟨{ t with feedUpdates := t.feedUpdates ++ [u] },
      hw ▸ (txn_setTxn w pid pid _).trans (if_pos rfl), ?_⟩
    simp [hupdates]

/-- The `COMMIT` reports, or does nothing. -/
theorem keeps_commit {r : Except String Unit}
    (h : Staged pid feed [successReport feed response instant] x)
    (hx : FetchesAt pid feed.id instant x (.ingest .commit) r x') : Keeps feed instant x' := by
  obtain ⟨w, out, hm, hs, ⟨hout, hw, error, rfl⟩ | ⟨hout, ch, a, hserve, -⟩⟩ := hx.1.cases
  · refine .inr (.inl ⟨?_, ?_⟩)
    · rintro ⟨e, he, hrep⟩
      rw [hs] at he
      rcases List.mem_append.mp he with he | he
      · exact h.1.1 ⟨e, he, hrep⟩
      · obtain rfl := List.mem_singleton.mp he
        exact Bool.false_ne_true (hout.symm.trans hrep.1)
    · rw [hw, hm.row]
      exact h.1.2
  · refine .inr (.inr ⟨⟨_, hs ▸ List.mem_append_right _ (List.mem_singleton_self _), hout,
      trivial⟩, fun row hrow => ?_⟩)
    obtain ⟨⟨-, hfeed⟩, t, ht, hupdates⟩ := h
    obtain ⟨-, hw⟩ := Prod.mk.inj (Option.some.inj hserve)
    have hfeeds : x'.world.feeds =
        Feeds.updateAfterFetch w.now (successReport feed response instant) w.feeds := by
      rw [← hw, World.commitTxn, hm.txn.trans ht]
      simp [hupdates]
    rw [hfeeds] at hrow
    exact nextCheckAt_successReport (hm.row.trans hfeed) hrow

/-! ## The attempt -/

section Attempt

variable {rt : Runtime} {canonicalizeArticleLink : Option String → Option String}
  {pid instant : Nat} {feed : FeedRow} {response : FetchResponse} {x : Attempt}

theorem createForEntryWithRules_stagesRows (matchesByEntry : MatchesByEntry) :
    Issues StagesRows
      (AlertsRepository.createForEntryWithRules canonicalizeArticleLink matchesByEntry) := by
  refine Issues.ite (fun _ => issues_pure _) fun _ => ?_
  refine Issues.bind (issues_invoke trivial) fun rows => ?_
  refine Issues.ite (fun _ => issues_pure _) fun _ => ?_
  exact Issues.bind (issues_invoke trivial) fun _ => issues_pure _

theorem insertMany_stagesRows (tenantId : String) (feedId : Nat) (es : List NormalizedEntry) :
    Issues StagesRows (insertMany tenantId feedId es) := by
  induction es with
  | nil => exact issues_pure _
  | cons e es ih =>
    exact Issues.bind (issues_invoke trivial) fun _ => Issues.bind ih fun _ => issues_pure _

/-- A part of the attempt that leaves the feeds alone. -/
theorem meets_spares {α : Type} {p : Program α} (hp : Issues SparesFeeds p)
    (h : Keeps feed instant x) :
    Meets (fun _ _ => True) (FetchesAt pid feed.id instant) p (fun _ x' => Keeps feed instant x')
      x :=
  hp.meets (fun _ _ _ _ hc hQ hx => hQ.spares hx hc) h

/-- A staging part before the rest of the transaction. -/
theorem bind_meets_staged {α β : Type} {p : Program α} {f : α → Program β}
    {updates : List Feeds.AfterFetch} (hp : Issues StagesRows p)
    (h : Staged pid feed updates x)
    (hf : ∀ a x', Staged pid feed updates x' →
      Meets (fun _ _ => True) (FetchesAt pid feed.id instant) (f a)
        (fun _ x' => Keeps feed instant x') x') :
    Meets (fun _ _ => True) (FetchesAt pid feed.id instant) (p >>= f)
      (fun _ x' => Keeps feed instant x') x := by
  have hmid : Meets (fun _ _ => True) (FetchesAt pid feed.id instant) p
      (fun _ x' => Staged pid feed updates x') x :=
    hp.meets (fun _ _ _ _ hc hQ hx => Staged.stages hQ hx hc) h
  exact hmid.bind (fun a x' h' => hf a x' h') fun _ _ h' => .inr (.inl h'.1)

/-- `Date.now()` before the report is `instant`. -/
theorem clock_fetchesAt {now : Nat} {x' : Attempt}
    (h : Unreported feed x) (hx : FetchesAt pid feed.id instant x .clock (.ok now) x') :
    now = instant := by
  rw [← hx.2 rfl h.1]
  obtain ⟨w, out, -, -, ⟨-, -, error, herr⟩ | ⟨-, ch, a, hserve, -, ⟨-, hr⟩ | ⟨-, error, herr⟩⟩⟩ :=
    hx.1.cases
  · cases herr
  · obtain rfl := Except.ok.inj hr
    obtain ⟨hnow, hw⟩ := Prod.mk.inj (Option.some.inj hserve)
    rw [← hw]
    exact hnow.symm
  · cases herr

/-- From `BEGIN` to `COMMIT`. -/
theorem transaction_keeps (normalizedEntries : List NormalizedEntry) (h : Unreported feed x) :
    Meets (fun _ _ => True) (FetchesAt pid feed.id instant)
      (transaction rt canonicalizeArticleLink feed response normalizedEntries)
      (fun _ x' => Keeps feed instant x') x := by
  refine meets_bind.mpr (meets_invoke.mpr ⟨trivial, fun r x₁ hx₁ => ?_⟩)
  cases r with
  | error e => exact .inr (.inl (h.spares hx₁ trivial))
  | ok u =>
    refine bind_meets_staged (insertMany_stagesRows _ _ _) (staged_begin h hx₁)
      fun inserted x₂ h₂ => ?_
    refine bind_meets_staged (issues_invoke trivial) h₂ fun rules x₃ h₃ => ?_
    refine bind_meets_staged (createForEntryWithRules_stagesRows _) h₃ fun outcome x₄ h₄ => ?_
    refine bind_meets_staged (issues_invoke trivial) h₄ fun _ x₅ h₅ => ?_
    refine meets_bind.mpr (meets_invoke.mpr ⟨trivial, fun r x₆ hx₆ => ?_⟩)
    have h₆ := h₅.stages hx₆ trivial
    cases r with
    | error e => exact .inr (.inl h₆.1)
    | ok now =>
      obtain rfl := clock_fetchesAt h₅.1 hx₆
      refine meets_bind.mpr (meets_invoke.mpr ⟨trivial, fun r x₇ hx₇ => ?_⟩)
      cases r with
      | error e => exact .inr (.inl (h₆.1.spares hx₇ trivial))
      | ok v =>
        refine meets_bind.mpr (meets_invoke.mpr ⟨trivial, fun r x₈ hx₈ => ?_⟩)
        have h₈ := keeps_commit (staged_report h₆ hx₇) hx₈
        cases r with
        | error e => exact h₈
        | ok _ => exact h₈

theorem tryFinally_eq {α : Type} (body : Program α) (final : Program Unit) :
    tryFinally body final = Prog.finallyDo body final := by
  refine congrArg (Prog.bind body.attempt) (funext fun outcome => ?_)
  refine congrArg (Prog.bind final) (funext fun _ => ?_)
  cases outcome <;> rfl

/-- The transaction, the hand-over after it, and the roll-back if something failed. -/
theorem store_keeps (normalizedEntries : List NormalizedEntry) (h : Unreported feed x) :
    Meets (fun _ _ => True) (FetchesAt pid feed.id instant)
      (store rt canonicalizeArticleLink feed response normalizedEntries)
      (fun _ x' => Keeps feed instant x') x := by
  refine meets_bind.mpr (meets_invoke.mpr ⟨trivial, fun r x₁ hx₁ => ?_⟩)
  have h₁ := h.spares hx₁ trivial
  cases r with
  | error e => exact .inr (.inl h₁)
  | ok _ =>
    -- the roll-back keeps what the body leaves
    have hcatch : ∀ p : Program FeedJobResult,
        Meets (fun _ _ => True) (FetchesAt pid feed.id instant) p
          (fun _ x' => Keeps feed instant x') x₁ →
        Meets (fun _ _ => True) (FetchesAt pid feed.id instant)
          (tryCatch p fun error => do
            IngestClient.rollback
            MonadExcept.throw error)
          (fun _ x' => Keeps feed instant x') x₁ := by
      refine fun p hp => hp.tryCatch (fun _ _ h => h) fun e x₂ h₂ => ?_
      exact meets_spares (Issues.bind (issues_invoke trivial) fun _ => issues_throw e) h₂
    dsimp only
    rw [tryFinally_eq]
    refine (hcatch _ ?_).finallyDo fun r x₂ h₂ => ?_
    · refine (transaction_keeps normalizedEntries h₁).bind (fun v x₂ h₂ => ?_) fun _ _ h => h
      refine meets_spares (Issues.bind ?_ fun _ => issues_pure _) h₂
      exact (deliverAlerts_handsOver _).mono sparesFeeds_of_handsOver
    · have hrelease : Issues SparesFeeds IngestClient.release := issues_invoke trivial
      refine (meets_spares hrelease h₂).mono fun r' x₃ h₃ => ?_
      exact ⟨fun _ => h₃, fun _ _ => h₃⟩

theorem notModified_keeps (h : Unreported feed x) :
    Meets (fun _ _ => True) (FetchesAt pid feed.id instant) (notModified feed response)
      (fun _ x' => Keeps feed instant x') x := by
  refine meets_bind.mpr (meets_invoke.mpr ⟨trivial, fun r x₁ hx₁ => ?_⟩)
  have h₁ := h.spares hx₁ trivial
  cases r with
  | error e => exact .inr (.inl h₁)
  | ok _ =>
    refine meets_bind.mpr (meets_invoke.mpr ⟨trivial, fun r x₂ hx₂ => ?_⟩)
    have h₂ := h₁.spares hx₂ trivial
    cases r with
    | error e => exact .inr (.inl h₂)
    | ok now =>
      obtain rfl := clock_fetchesAt h₁ hx₂
      refine meets_bind.mpr (meets_invoke.mpr ⟨trivial, fun r x₃ hx₃ => ?_⟩)
      have h₃ := keeps_report h₂ hx₃
      cases r with
      | error e => exact h₃
      | ok _ => exact h₃

/-- The body of the outer `try`. -/
theorem fetchAndStore_keeps (h : Unreported feed x) :
    Meets (fun _ _ => True) (FetchesAt pid feed.id instant)
      (fetchAndStore rt canonicalizeArticleLink feed) (fun _ x' => Keeps feed instant x') x := by
  refine meets_bind.mpr (meets_invoke.mpr ⟨trivial, fun r x₁ hx₁ => ?_⟩)
  have h₁ := h.spares hx₁ trivial
  cases r with
  | error e => exact .inr (.inl h₁)
  | ok response =>
    dsimp only
    split
    · exact notModified_keeps h₁
    split
    · exact .inr (.inl h₁)
    split
    · exact .inr (.inl h₁)
    · exact store_keeps _ h₁

/-- The outer `catch`. -/
theorem handleFailure_keeps (message : String) (h : Keeps feed instant x) :
    Meets (fun _ _ => True) (FetchesAt pid feed.id instant) (handleFailure rt feed message)
      (fun _ x' => Keeps feed instant x') x := by
  have hspares : ∀ c : Call, SparesFeeds c → ∀ x, Keeps feed instant x →
      Meets (fun _ _ => True) (FetchesAt pid feed.id instant) (invoke c)
        (fun _ x' => Keeps feed instant x') x :=
    fun c hc x hx => meets_spares (issues_invoke hc) hx
  refine (hspares (.random _) trivial x h).bind (fun jitter x₁ h₁ => ?_) fun _ _ h => h
  refine (hspares (.feed (.recordFetchLog _)) trivial x₁ h₁).bind (fun _ x₂ h₂ => ?_)
    fun _ _ h => h
  refine (hspares .clock trivial x₂ h₂).bind (fun now x₃ h₃ => ?_) fun _ _ h => h
  refine meets_bind.mpr (meets_invoke.mpr ⟨trivial, fun r x₄ hx₄ => ?_⟩)
  have h₄ := keeps_failureReport (by simp [failureReport]) hx₄
  cases r with
  | error e => exact h₄
  | ok _ => exact meets_spares (Issues.ite (fun _ => issues_throw _) fun _ => issues_pure _) h₄

/-- **Every attempt** on the feed at `instant`. -/
theorem execute_keeps (w : World)
    (hfeed : Table.lookup FeedRow.id feed.id w.feeds = some feed) :
    Meets (fun _ _ => True) (FetchesAt pid feed.id instant)
      (execute rt canonicalizeArticleLink feed.id) (fun _ x' => Keeps feed instant x') ⟨w, []⟩ := by
  have h₀ : Unreported feed ⟨w, []⟩ := ⟨fun ⟨_, he, _⟩ => absurd he List.not_mem_nil, hfeed⟩
  refine meets_bind.mpr (meets_invoke.mpr ⟨trivial, fun r x₁ hx₁ => ?_⟩)
  have h₁ := h₀.spares hx₁ trivial
  cases r with
  | error e => exact .inr (.inl h₁)
  | ok _ =>
    refine meets_bind.mpr (meets_invoke.mpr ⟨trivial, fun r x₂ hx₂ => ?_⟩)
    have h₂ := h₁.spares hx₂ trivial
    cases r with
    | error e => exact .inr (.inl h₂)
    | ok found =>
      obtain rfl := find_observes h₁.2 hx₂.1
      exact Meets.tryCatch (fetchAndStore_keeps h₂) (fun _ _ h => h)
        fun message x₃ h₃ => handleFailure_keeps message h₃

/-- **A successful check** makes the feed due one interval after its instant. -/
theorem nextCheckAt_of_checked {row : FeedRow}
    (h : Checked rt canonicalizeArticleLink feed instant row) :
    row.nextCheckAt = instant + feed.pollIntervalSeconds * 1000 := by
  obtain ⟨pid, w, hfeed, hcan⟩ := h
  obtain ⟨r, x, hkeeps, ⟨hrep, hnofail⟩, hrow⟩ := (execute_keeps w hfeed).of_can hcan
  rcases hkeeps with ⟨e, he, hf⟩ | hun | ⟨-, hdue⟩
  · exact absurd hf (hnofail e he)
  · exact absurd hrep hun.1
  · exact hdue row hrow

end Attempt

/-! ## Two feeds of one interval -/

/-- Some choice of the draws of a claim tells the two feeds apart: they have one interval, are
claimed together and checked successfully at the same instant, and are due at different times. -/
def JitterEffective (rt : Runtime) (canonicalizeArticleLink : Option String → Option String)
    (now limit : Nat) (skipped : List Nat) (picks feeds : List FeedRow)
    (feedId otherId instant : Nat) : Prop :=
  ∃ jitters claimed feeds' f g row other,
    Feeds.claimDueFeeds now limit skipped picks jitters feeds = some (claimed, feeds') ∧
      f ∈ claimed ∧ f.id = feedId ∧ g ∈ claimed ∧ g.id = otherId ∧
      f.pollIntervalSeconds = g.pollIntervalSeconds ∧
      Checked rt canonicalizeArticleLink f instant row ∧
      Checked rt canonicalizeArticleLink g instant other ∧
      row.nextCheckAt ≠ other.nextCheckAt

/-- Nothing of what was drawn is left. -/
theorem due_together {rt : Runtime} {canonicalizeArticleLink : Option String → Option String}
    {f g row other : FeedRow} {instant : Nat}
    (hinterval : f.pollIntervalSeconds = g.pollIntervalSeconds)
    (hf : Checked rt canonicalizeArticleLink f instant row)
    (hg : Checked rt canonicalizeArticleLink g instant other) :
    row.nextCheckAt = other.nextCheckAt := by
  rw [nextCheckAt_of_checked hf, nextCheckAt_of_checked hg, hinterval]

/-- **The jitter of a claim is never effective**, whatever feeds are claimed and whatever is
drawn for them. -/
theorem jitter_not_effective (rt : Runtime)
    (canonicalizeArticleLink : Option String → Option String) (now limit : Nat)
    (skipped : List Nat) (picks feeds : List FeedRow) (feedId otherId instant : Nat) :
    ¬ JitterEffective rt canonicalizeArticleLink now limit skipped picks feeds feedId otherId
      instant := by
  rintro ⟨jitters, claimed, feeds', f, g, row, other, -, -, -, -, -, hinterval, hf, hg, hne⟩
  exact hne (due_together hinterval hf hg)

/-! ### There are successful checks -/

/-- A step in which nothing fails and nobody else does anything. -/
theorem fetchesAt_of_serve {pid feedId instant : Nat} {x : Attempt} {c : Call} {ch : Choice}
    {a : c.Reply} {w : World} (h : c.serve pid x.world ch = some (a, w))
    (hclock : c = .clock → w.now = instant) :
    FetchesAt pid feedId instant x c (.ok a)
      ⟨w, x.steps ++ [⟨x.world, c, .ok ch, w⟩]⟩ := by
  refine ⟨⟨x.world, .ok ch, ⟨rfl, fun _ he _ => he, rfl⟩, ?_, rfl⟩, fun hc _ => hclock hc⟩
  change (c.serve pid x.world ch).map _ = _
  rw [h]
  rfl

/-- The response of a feed that has not changed. -/
def notModifiedResponse : FetchResponse :=
  { statusCode := 304, etag := none, lastModified := none, body := "", durationMs := 10 }

/-- **A check that is answered with `304`**, with no other process around. -/
theorem checked_notModified (rt : Runtime)
    (canonicalizeArticleLink : Option String → Option String) {feed : FeedRow} {w : World}
    (hfeed : Table.lookup FeedRow.id feed.id w.feeds = some feed) (htxns : w.txns = []) :
    Checked rt canonicalizeArticleLink feed w.now
      ((successReport feed notModifiedResponse w.now).apply w.now feed) := by
  have hstep : ∀ (c : Call) (ch : Choice) (a : c.Reply) (w₁ w₂ : World) (steps : List Event),
      c.serve 1 w₁ ch = some (a, w₂) → w₂.now = w.now →
        FetchesAt 1 feed.id w.now ⟨w₁, steps⟩ c (.ok a) ⟨w₂, steps ++ [⟨w₁, c, .ok ch, w₂⟩]⟩ :=
    fun c ch a w₁ w₂ steps hserve hnow => fetchesAt_of_serve hserve fun _ => hnow
  refine ⟨1, w, hfeed, can_bind.mpr (can_invoke.mpr
    ⟨_, _, hstep .assertSchemaReady .none () w w [] rfl rfl, ?_⟩)⟩
  refine can_bind.mpr (can_invoke.mpr ⟨_, _, hstep (.feed (.findByIdForWorker feed.id)) .none
    (some feed) w w _ (congrArg (fun found => some (found, w)) hfeed) rfl, ?_⟩)
  refine can_tryCatch.mpr (can_bind.mpr (can_invoke.mpr ⟨_, _, hstep
    (.net (.fetchFeed feed.url feed.etag feed.lastModified)) (.response notModifiedResponse)
    notModifiedResponse w w _ rfl rfl, ?_⟩))
  have h304 : notModifiedResponse.statusCode = 304 := rfl
  dsimp only
  rw [if_pos h304]
  -- the log, the clock and the report
  set w₁ : World := { w with fetchLogs := w.fetchLogs ++ [successLog feed notModifiedResponse] }
    with hw₁
  set u := successReport feed notModifiedResponse w.now with hu
  have hunlocked : w₁.unlocked (fun f => f.id = feed.id) = true := by
    simp [World.unlocked, World.lockedBy, w₁, htxns]
  refine can_bind.mpr (can_invoke.mpr ⟨_, _, hstep
    (.feed (.recordFetchLog (successLog feed notModifiedResponse))) .none () w w₁ _ rfl rfl, ?_⟩)
  refine can_bind.mpr (can_invoke.mpr ⟨_, _, hstep .clock .none w.now w₁ w₁ _ rfl rfl, ?_⟩)
  refine can_bind.mpr (can_invoke.mpr ⟨_, _, hstep (.feed (.updateAfterFetch u)) .none () w₁
    { w₁ with feeds := Feeds.updateAfterFetch w₁.now u w₁.feeds } _ (if_pos hunlocked) rfl, ?_⟩)
  refine ⟨⟨⟨_, List.mem_append_right _ (List.mem_singleton_self _), rfl, rfl⟩, ?_⟩, ?_⟩
  · intro e he hfailure
    simp only [List.nil_append, List.cons_append, List.mem_cons, List.not_mem_nil, or_false] at he
    rcases he with rfl | rfl | rfl | rfl | rfl | rfl
    · exact hfailure
    · exact hfailure
    · exact hfailure
    · exact hfailure
    · exact hfailure
    · exact hfailure rfl
  · have hkey : ∀ f, (u.apply w₁.now f).id = f.id := fun _ => rfl
    change Table.lookup FeedRow.id feed.id (Table.updateWhere _ (u.apply w₁.now) w.feeds) = _
    rw [Table.lookup_updateWhere hkey, hfeed]
    simp [hu, successReport, hw₁]

/-- Two feeds of one interval, both due. -/
def twins : List FeedRow :=
  [System.dueFeed, { System.dueFeed with id := 2, url := "https://feeds.example/atom" }]

/-- The rows of a claim that draws nothing for the first of them, and five minutes for the
second. -/
def claimedTwins : List FeedRow :=
  [Feeds.claim 1000000 0 System.dueFeed,
    Feeds.claim 1000000 300 { System.dueFeed with id := 2, url := "https://feeds.example/atom" }]

/-- The claim sets the two apart, five seconds later both are checked, and they are due together
again, as they are for every other choice of the draws. -/
theorem twins_due_together :
    Feeds.claimDueFeeds 1000000 10 [] twins [(1, 0), (2, 300)] twins
        = some (claimedTwins, claimedTwins) ∧
      (claimedTwins.map FeedRow.nextCheckAt = [2800000, 3100000] ∧
        ∀ feed ∈ claimedTwins, ∃ row, Checked System.webhookDeployment.rt
          System.webhookDeployment.canonicalizeArticleLink feed 1005000 row) ∧
      ¬ JitterEffective System.webhookDeployment.rt
        System.webhookDeployment.canonicalizeArticleLink 1000000 10 [] twins twins 1 2 1005000 := by
  refine ⟨by decide +kernel, ⟨by decide +kernel, fun feed hfeed => ?_⟩, ?_⟩
  · have hlookup : Table.lookup FeedRow.id feed.id claimedTwins = some feed := by
      rcases List.mem_pair.mp hfeed with rfl | rfl <;> rfl
    exact ⟨_, checked_notModified (w := { System.oneFeed.world with
      now := 1005000
      feeds := claimedTwins }) _ _ hlookup rfl⟩
  · rintro ⟨jitters, claimed, feeds', f, g, row, other, -, -, -, -, -, hinterval, hf, hg, hne⟩
    exact hne (due_together hinterval hf hg)

end Steps

end ProcessFeedJob

end Feedpulse
