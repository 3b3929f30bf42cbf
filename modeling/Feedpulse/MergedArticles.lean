import Feedpulse.AlertDedupe
import Feedpulse.CanonicalLink
import Std.Data.String.ToNat

/-!
# Which articles are merged

The key of an alert is the canonical form of the article's link, or `entry:` and the id of the
article. Both are strings of one column expression, and `entry:5` is the canonical form of a link
too: an article under that link is merged with article 5, if that one has no usable link
(`foreign_articles_merged`). Everywhere else articles are merged exactly if their canonical forms
are the same (`mergesIdentical_iff`).
-/

namespace Feedpulse

namespace Upserts

open AlertUpsert Ledger

/-! ## The alert of an article -/

section Merge

variable (canonicalizeArticleLink : Option String → Option String) (s : Upserts)

/-- A committed batch held the article, with a rule that matched. -/
def Fed (row : EntryLink) : Prop :=
  ∃ e ∈ s.committed, row ∈ e.batch.rows ∧ rulesOf e.batch.matchesByEntry row.id ≠ []

/-- The row of the article's group, in a committed statement, went to the alert. -/
def AlertedBy (row : EntryLink) (alertId : Nat) : Prop :=
  ∃ e ∈ s.committed, row ∈ e.batch.rows ∧ rulesOf e.batch.matchesByEntry row.id ≠ [] ∧
    ∃ g ∈ groupRows canonicalizeArticleLink e.batch.matchesByEntry [] e.batch.rows,
      g.1 = dedupeKey canonicalizeArticleLink row ∧
        ∃ c ∈ e.returned, toUpsertRow g.2 = some c.1 ∧ c.2.id = alertId

/-- Two articles share an alert. -/
def ShareAlert (x y : EntryLink) : Prop :=
  ∃ alertId, s.AlertedBy canonicalizeArticleLink x alertId ∧
    s.AlertedBy canonicalizeArticleLink y alertId

/-- Two articles of a tenant share an alert if and only if their links have one canonical
form. -/
def MergesIdentical : Prop :=
  ∀ x y, s.Fed x → s.Fed y → x.tenantId = y.tenantId → x.id ≠ y.id →
    (s.ShareAlert canonicalizeArticleLink x y ↔
      ∃ link, canonicalizeArticleLink x.link = some link ∧
        canonicalizeArticleLink y.link = some link)

/-- No link of an article has the canonical form `entry:<id>` of another article of the tenant
that has no canonical form. -/
def KeysApart : Prop :=
  ∀ x y, s.Fed x → s.Fed y → x.tenantId = y.tenantId → x.id ≠ y.id →
    canonicalizeArticleLink x.link = some (entryKey y.id) →
      canonicalizeArticleLink y.link ≠ none

variable {canonicalizeArticleLink} {s}

/-- The alert of an article is the one under its key. -/
theorem AlertedBy.contribution {row : EntryLink} {alertId : Nat}
    (h : s.AlertedBy canonicalizeArticleLink row alertId) :
    ∃ c ∈ s.ledger.committed, contributionKey c = entryLinkKey canonicalizeArticleLink row ∧
      contributionTag c = alertId := by
  obtain ⟨e, he, hrow, -, g, hg, hkey, c, hc, hu, hid⟩ := h
  refine ⟨c, mem_committed.mpr ⟨e, he, hc⟩, ?_, hid⟩
  have hgroup := groupKey_eq_of_key (IngestionBatch.grouped canonicalizeArticleLink e.batch)
    (IngestionBatch.tenantId_of_mem_rows hrow) hg hkey
  exact (toUpsertRow_eq_some hu).1.trans hgroup

/-- Every article that was fed has an alert. -/
theorem Fed.alertedBy (hrecorded : s.Recorded canonicalizeArticleLink) {row : EntryLink}
    (h : s.Fed row) : ∃ alertId, s.AlertedBy canonicalizeArticleLink row alertId := by
  obtain ⟨e, he, hrow, hrules⟩ := h
  obtain ⟨r, hr⟩ := List.exists_mem_of_ne_nil _ hrules
  have hgrouped := IngestionBatch.grouped canonicalizeArticleLink e.batch
  -- the group the article was added to
  obtain ⟨g, hg, hkey, hrg⟩ : GroupRule
      (groupRows canonicalizeArticleLink e.batch.matchesByEntry [] e.batch.rows)
      (entryLinkKey canonicalizeArticleLink row) r :=
    (groupRule_groupRows (fun _ => IngestionBatch.tenantId_of_mem_rows)
      (IngestionBatch.grouped_nil e.batch.tenantId)).mpr (.inr ⟨row, hrow, rfl, hr⟩)
  have hdedupe : g.1 = dedupeKey canonicalizeArticleLink row := by
    rw [hgrouped.key g hg, hkey, dedupeKey_eq, IngestionBatch.tenantId_of_mem_rows hrow]
  rcases hu : toUpsertRow g.2 with _ | u
  · rw [toUpsertRow_eq_none hu] at hrg
    exact absurd hrg List.not_mem_nil
  · have hmem : u ∈ e.batch.statement canonicalizeArticleLink :=
      List.mem_filterMap.mpr ⟨g, hg, hu⟩
    rw [← hrecorded.committed e he] at hmem
    obtain ⟨c, hc, rfl⟩ := List.mem_map.mp hmem
    exact ⟨c.2.id, e, he, hrow, hrules, g, hg, hdedupe, c, hc, hu, rfl⟩

/-- Articles share an alert exactly if they have one key. -/
theorem shareAlert_iff {s₀ : Upserts} {as : List UpsertAction} (hinit : s₀.Init)
    (hrun : Transition.run (step canonicalizeArticleLink) s₀ as = some s) {x y : EntryLink}
    (hx : s.Fed x) (hy : s.Fed y) :
    s.ShareAlert canonicalizeArticleLink x y ↔
      entryLinkKey canonicalizeArticleLink x = entryLinkKey canonicalizeArticleLink y := by
  have h := Transition.run_invariant (I := Represents)
    (fun _ _ _ h hs => represents_step h hs) (represents_of_init hinit) hrun
  have hrecorded := Transition.run_invariant (I := Recorded canonicalizeArticleLink)
    (fun _ _ _ h hs => recorded_step h hs) (recorded_of_init hinit) hrun
  constructor
  · rintro ⟨alertId, hax, hay⟩
    obtain ⟨c, hc, hkey, hid⟩ := hax.contribution
    obtain ⟨d, hd, hkey', hid'⟩ := hay.contribution
    rw [← hkey, ← hkey']
    exact h.consistent.separate c d (.inl hc) (.inl hd) (hid.trans hid'.symm)
  · intro hkeys
    obtain ⟨i, hax⟩ := hx.alertedBy hrecorded
    obtain ⟨j, hay⟩ := hy.alertedBy hrecorded
    obtain ⟨c, hc, hkey, hid⟩ := hax.contribution
    obtain ⟨d, hd, hkey', hid'⟩ := hay.contribution
    have htag := h.consistent.tagged 0 c (List.mem_append_left _ hc) d
      (List.mem_append_left _ hd) (hkey.trans (hkeys.trans hkey'.symm))
    obtain rfl : i = j := hid.symm.trans (htag.trans hid')
    exact ⟨i, hax, hay⟩

theorem entryKey_injective : Function.Injective entryKey := fun _ _ h =>
  Nat.repr_injective ((String.append_right_inj _).mp h)

/-- Two articles of a tenant have one key if their canonical forms are the same, or if one has
none and its key is the canonical form of the other. -/
theorem entryLinkKey_eq_iff {x y : EntryLink} (htenant : x.tenantId = y.tenantId)
    (hne : x.id ≠ y.id) :
    entryLinkKey canonicalizeArticleLink x = entryLinkKey canonicalizeArticleLink y ↔
      (∃ link, canonicalizeArticleLink x.link = some link ∧
        canonicalizeArticleLink y.link = some link) ∨
      (canonicalizeArticleLink x.link = some (entryKey y.id) ∧
        canonicalizeArticleLink y.link = none) ∨
      (canonicalizeArticleLink x.link = none ∧
        canonicalizeArticleLink y.link = some (entryKey x.id)) := by
  simp only [entryLinkKey, indexKey, Prod.mk.injEq, htenant, true_and]
  rcases canonicalizeArticleLink x.link with _ | l <;>
    rcases canonicalizeArticleLink y.link with _ | l'
  · -- both keys are made of the ids
    simpa using fun h => hne (entryKey_injective h)
  · simpa using eq_comm
  · simp
  · simp only [Option.getD_some, Option.some.injEq, exists_eq_left', reduceCtorEq, and_false,
      false_and, or_false]
    exact eq_comm

end Merge

/-! ## What is merged -/

variable {rt : LinkRuntime} {s₀ s : Upserts}

/-- **When alerts merge only identical articles.** In a state that any run of batches leaves,
two articles of a tenant share an alert exactly if their links have one canonical form, for
every two of them, if and only if no link has the canonical form `entry:<id>` of another
article of the tenant without a canonical form. -/
theorem mergesIdentical_iff {as : List UpsertAction} (hinit : s₀.Init)
    (hrun : Transition.run (step (CanonicalLink.canonicalizeArticleLink rt)) s₀ as = some s) :
    s.MergesIdentical (CanonicalLink.canonicalizeArticleLink rt) ↔
      s.KeysApart (CanonicalLink.canonicalizeArticleLink rt) := by
  constructor
  · intro h x y hx hy htenant hne hlink hnone
    have hshare := (shareAlert_iff hinit hrun hx hy).mpr
      ((entryLinkKey_eq_iff htenant hne).mpr (.inr (.inl ⟨hlink, hnone⟩)))
    obtain ⟨link, -, hy'⟩ := (h x y hx hy htenant hne).mp hshare
    rw [hnone] at hy'
    cases hy'
  · intro h x y hx hy htenant hne
    rw [shareAlert_iff hinit hrun hx hy, entryLinkKey_eq_iff htenant hne]
    constructor
    · rintro (hsame | ⟨hlink, hnone⟩ | ⟨hnone, hlink⟩)
      · exact hsame
      · exact absurd hnone (h x y hx hy htenant hne hlink)
      · exact absurd hnone (h y x hy hx htenant.symm hne.symm hlink)
    · exact .inl

/-! ## Samples -/

/-- A parser that knows one URL, whose path is opaque: the setters do not touch it. -/
def opaquePath : LinkRuntime :=
  { toRuntime := System.webhookDeployment.rt
    parseUrl := fun text =>
      if text = "entry:5" then some
        { protocol := "entry:", userinfo := "", hostname := "", port := "", pathname := "5",
          search := "", hash := "" }
      else none
    setProtocol := fun parsed _ => parsed
    setHostname := fun parsed _ => parsed
    setPort := fun parsed _ => parsed
    setPathname := fun parsed _ => parsed
    setHash := fun parsed _ => parsed
    setSearch := fun parsed _ => parsed
    urlToString := fun parsed => parsed.protocol ++ parsed.pathname
    isPublicHostname := fun _ => true }

/-- Before any batch. -/
def noUpserts : Upserts :=
  { world := System.oneFeed.world, running := fun _ => none, committed := [] }

theorem noUpserts_init : noUpserts.Init := ⟨rfl, rfl, fun _ => rfl, rfl⟩

/-- An article without a link and one under the link `entry:5`, both of which match a rule. -/
def twoArticles (id id' : Nat) : IngestionBatch :=
  { tenantId := "t"
    entries := [(id, none), (id', some "entry:5")]
    matchesByEntry := [(id, [1]), (id', [2])] }

theorem mergesIdentical_iff_apart :
    ∃ s, Transition.run (step (CanonicalLink.canonicalizeArticleLink opaquePath)) noUpserts
        [.begin 1 (twoArticles 1 2), .upsert 1, .upsert 1, .commit 1] = some s ∧
      s.MergesIdentical (CanonicalLink.canonicalizeArticleLink opaquePath) := by
  have hrun : (Transition.run (step (CanonicalLink.canonicalizeArticleLink opaquePath)) noUpserts
      [.begin 1 (twoArticles 1 2), .upsert 1, .upsert 1, .commit 1]).map
        (fun s => s.committed.map ExecutedBatch.batch) = some [twoArticles 1 2] := by
    decide
  obtain ⟨s, hs, hcommitted⟩ := Option.map_eq_some_iff.mp hrun
  refine ⟨s, hs, (mergesIdentical_iff noUpserts_init hs).mpr ?_⟩
  have hfed : ∀ x, s.Fed x → x ∈ (twoArticles 1 2).rows := by
    rintro x ⟨e, he, hx, -⟩
    have hbatch : e.batch ∈ s.committed.map ExecutedBatch.batch := List.mem_map_of_mem he
    rw [hcommitted] at hbatch
    rwa [List.mem_singleton.mp hbatch] at hx
  have hapart : ∀ x ∈ (twoArticles 1 2).rows, ∀ y ∈ (twoArticles 1 2).rows,
      CanonicalLink.canonicalizeArticleLink opaquePath x.link ≠ some (entryKey y.id) := by
    decide
  exact fun x y hx hy _ _ hlink => absurd hlink (hapart x (hfed x hx) y (hfed y hy))

/-- The two articles have nothing in common, and share an alert. -/
theorem foreign_articles_merged :
    ∃ s, Transition.run (step (CanonicalLink.canonicalizeArticleLink opaquePath)) noUpserts
        [.begin 1 (twoArticles 5 6), .upsert 1, .commit 1] = some s ∧
      ¬ s.MergesIdentical (CanonicalLink.canonicalizeArticleLink opaquePath) := by
  have hrun : (Transition.run (step (CanonicalLink.canonicalizeArticleLink opaquePath)) noUpserts
      [.begin 1 (twoArticles 5 6), .upsert 1, .commit 1]).map
        (fun s => s.committed.map ExecutedBatch.batch) = some [twoArticles 5 6] := by
    decide
  obtain ⟨s, hs, hcommitted⟩ := Option.map_eq_some_iff.mp hrun
  obtain ⟨e, hmap⟩ := List.map_eq_singleton_iff.mp hcommitted
  have hfed : ∀ x ∈ (twoArticles 5 6).rows,
      rulesOf (twoArticles 5 6).matchesByEntry x.id ≠ [] → s.Fed x := by
    intro x hx hrules
    refine ⟨e, hmap.1 ▸ List.mem_singleton_self e, ?_⟩
    rw [hmap.2]
    exact ⟨hx, hrules⟩
  refine ⟨s, hs, fun h => ?_⟩
  have hx : s.Fed { id := 5, tenantId := "t", link := none } := hfed _ (by decide) (by decide)
  have hy : s.Fed { id := 6, tenantId := "t", link := some "entry:5" } :=
    hfed _ (by decide) (by decide)
  have hshare := (shareAlert_iff noUpserts_init hs hx hy).mpr (by decide)
  obtain ⟨link, hlink, -⟩ := (h _ _ hx hy rfl (by decide)).mp hshare
  cases hlink

end Upserts

end Feedpulse
