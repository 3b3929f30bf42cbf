import Feedpulse.FeedKeys

/-!
# The cap on the feeds of a tenant

A registration counts the feeds of its tenant before it adds one; an import that is applied
adds the feeds of all its candidates without counting. So the cap survives every
sequence of operations in which each import that is applied fits into what is left of it.
-/

namespace Feedpulse

open OpmlImportsRepository

/-! ## What an import brings in -/

/-- The URLs of the candidates of an import. -/
def candidateUrls (candidates : List OpmlImportItemRow) : List String :=
  candidates.filterMap fun i => i.input.normalizedUrl.filter fun url => url ≠ ""

/-- The hashes under which the candidates of an import are new feeds of the tenant. -/
def newFeedHashes (rt : UrlRuntime) (tenantId : String) (keys : List FeedKey)
    (candidates : List OpmlImportItemRow) : List String :=
  (((candidateUrls candidates).filter fun url => !keys.any (FeedKey.conflicts tenantId url
    (some (FeedUrl.buildNormalizedFeedUrlHash rt url)))).map
      (FeedUrl.buildNormalizedFeedUrlHash rt)).dedup

/-- The statements that insert a feed. -/
def OpmlStatement.insertsFeed : OpmlStatement → Bool
  | insertFeedOrNothing .. => true
  | createFeed .. => true
  | _ => false

/-- The call does not insert a feed itself. -/
def OpmlCall.BringsNoFeed : OpmlCall → Prop
  | statement _ st => st.insertsFeed = false
  | _ => True

/-- The call cannot make feeds visible. -/
def OpmlCall.Calm (c : OpmlCall) : Prop := c.BringsNoFeed ∧ c ≠ .commit

namespace Intake

variable {s s' : Intake} {pid n : Nat} {cfg : OpmlConfig} {rt : OpmlRuntime}

/-- No tenant owns more than `n` feeds. -/
def Capped (n : Nat) (s : Intake) : Prop :=
  ∀ tenantId, s.keys.countP (fun k => k.tenantId = tenantId) ≤ n

/-- The candidates of an import still fit. -/
def Room (n : Nat) (rt : UrlRuntime) (tenantId : String) (importId : Nat) (s : Intake) : Prop :=
  s.keys.countP (fun k => k.tenantId = tenantId) +
    (newFeedHashes rt tenantId s.keys (OpmlImports.newCandidateItems importId s.items)).length ≤ n

/-- Every execution keeps the cap, wherever it is broken off, and ends within `post`. -/
abbrev UnderCap {α : Type} (n pid : Nat) (p : OpmlProgram α)
    (post : Except String α → Intake → Prop) (s : Intake) : Prop :=
  Prog.Meets (fun s _ => Capped n s) (Answered pid) p post s

/-- Every execution keeps the cap, wherever it is broken off. -/
abbrev KeepsCap {α : Type} (n pid : Nat) (p : OpmlProgram α) (s : Intake) : Prop :=
  UnderCap n pid p (fun _ s => Capped n s) s

/-- The cap is kept before a program has done anything. -/
theorem KeepsCap.capped {α : Type} {p : OpmlProgram α} (h : KeepsCap n pid p s) : s.Capped n := by
  cases p with
  | ret a => exact h
  | throw e => exact h
  | call c k => exact h.1

theorem Capped.congr (h : s.Capped n) (hkeys : s'.keys = s.keys) : s'.Capped n := by
  intro tenantId
  rw [hkeys]
  exact h tenantId

/-- Keys of one tenant for which there is room. -/
theorem Capped.append {new : List FeedKey} {tenantId : String} (h : Capped n s)
    (hkeys : s'.keys = s.keys ++ new) (hnew : ∀ k ∈ new, k.tenantId = tenantId)
    (hroom : s.keys.countP (fun k => k.tenantId = tenantId) + new.length ≤ n) :
    s'.Capped n := by
  intro t
  rw [hkeys, List.countP_append]
  by_cases ht : t = tenantId
  · subst ht
    exact (Nat.add_le_add_left List.countP_le_length _).trans hroom
  · have hzero : new.countP (fun k => decide (k.tenantId = t)) = 0 := by
      refine List.countP_eq_zero.mpr fun k hk => ?_
      rw [hnew k hk]
      simpa using fun h => ht h.symm
    rw [hzero]
    exact h t

/-! ## Calls that bring in no feed -/

/-- Only the two insertions bring in keys. -/
theorem Stages.feedsIn_eq_nil {keys : List FeedKey} {st : OpmlStatement} {x : OpmlWrite}
    (h : Stages keys st x) (hst : st.insertsFeed = false) : OpmlWrite.feedsIn [x] = [] := by
  obtain ⟨now, ids, t, -, hx⟩ := h
  cases hx with
  | insertFeedOrNothing => cases hst
  | createFeed => cases hst
  | _ => rfl

/-- A calm call leaves the keys alone. -/
theorem keys_of_calm {c : OpmlCall} {r : Except String c.Reply} (hc : c.Calm)
    (h : Answered pid s c r s') : s'.keys = s.keys := by
  obtain ⟨m, hm, hs⟩ := h.effect
  have hkeys : m.keys = s.keys := by
    cases hm with
    | commit => exact absurd rfl hc.2
    | write st x now hx =>
      change s.keys ++ _ = _
      rw [hx.feedsIn_eq_nil hc.1, List.append_nil]
    | _ => rfl
  rcases hs with rfl | ⟨rfl, -⟩
  · exact hkeys
  · exact hkeys

/-- Calm programs keep the cap. -/
theorem keepsCap_of_calm {α : Type} {p : OpmlProgram α} (hp : Prog.Issues OpmlCall.Calm p)
    (hs : s.Capped n) : KeepsCap n pid p s :=
  hp.throughout (fun _ _ _ _ hc hq ha => hq.congr (keys_of_calm hc ha)) hs

/-- The transaction of the process brings in no feed. -/
def StagesNone (s : Intake) : Prop :=
  ∀ t, s.txn = some t → t.aborted = false → OpmlWrite.feedsIn t.writes = []

/-- A failed transaction brings in nothing. -/
theorem txn_abort {t : OpmlTxn} (h : s.abort.txn = some t) : t.aborted = true := by
  obtain ⟨t', -, rfl⟩ := Option.map_eq_some_iff.mp h
  rfl

theorem stagesNone_abort : s.abort.StagesNone := by
  intro t ht ha
  rw [txn_abort ht] at ha
  cases ha

/-- Where nothing is inserted, a commit brings in nothing either. -/
theorem Capped.answered {c : OpmlCall} {r : Except String c.Reply} (hc : c.BringsNoFeed)
    (hs : s.Capped n ∧ s.StagesNone) (h : Answered pid s c r s') :
    s'.Capped n ∧ s'.StagesNone := by
  obtain ⟨hcap, hnone⟩ := hs
  obtain ⟨m, hm, hs⟩ := h.effect
  have hmid : m.Capped n ∧ m.StagesNone := by
    cases hm with
    | none => exact ⟨hcap, hnone⟩
    | begin now =>
      refine ⟨hcap, fun t ht _ => ?_⟩
      obtain rfl := Option.some.inj ht
      rfl
    | commit t imports items ht ha =>
      refine ⟨hcap.congr ?_, fun t ht => by cases ht⟩
      change s.keys ++ _ = _
      rw [hnone t ht ha, List.append_nil]
    | close => exact ⟨hcap, fun t ht => by cases ht⟩
    | write st x now hx =>
      refine ⟨hcap.congr ?_, hnone⟩
      change s.keys ++ _ = _
      rw [hx.feedsIn_eq_nil hc, List.append_nil]
    | stage st t x ht ha hx =>
      refine ⟨hcap, fun t' ht' _ => ?_⟩
      obtain rfl := Option.some.inj ht'
      rw [OpmlWrite.feedsIn_append, hnone t ht ha, hx.feedsIn_eq_nil hc]
      rfl
    | abort st => exact ⟨hcap, stagesNone_abort⟩
  rcases hs with rfl | ⟨rfl, -⟩
  · exact hmid
  · exact ⟨hmid.1, stagesNone_abort⟩

/-- Programs that insert no feed keep the cap. -/
theorem keepsCap_of_bringsNoFeed {α : Type} {p : OpmlProgram α}
    (hp : Prog.Issues OpmlCall.BringsNoFeed p) (hs : s.Capped n) (hnone : s.StagesNone) :
    KeepsCap n pid p s := by
  have h : Prog.Meets (fun s _ => s.Capped n ∧ s.StagesNone) (Answered pid) p
      (fun _ s => s.Capped n ∧ s.StagesNone) s :=
    hp.throughout (fun _ _ _ _ hc hq ha => Capped.answered hc hq ha) ⟨hs, hnone⟩
  exact (h.weaken (fun _ _ h => h.1) fun _ _ _ _ h => h).mono fun _ _ h => h.1

end Intake

/-! ## The programs that insert no feed -/

section Programs

open Prog Intake

variable {s : Intake} {pid n : Nat} {cfg : OpmlConfig} {rt : OpmlRuntime}

theorem calm_core (c : Call) : OpmlCall.Calm (.core c) := ⟨trivial, fun h => by cases h⟩

theorem calm_statement {ex : Executor} {st : OpmlStatement} (h : st.insertsFeed = false) :
    OpmlCall.Calm (.statement ex st) := ⟨h, fun h => by cases h⟩

theorem issues_calm_core {α : Type} (p : Program α) : Issues OpmlCall.Calm (ofCore p) :=
  issues_ofCore calm_core p

theorem markImportStatus_calm (u : OpmlStatusUpdate) (ex : Executor) :
    Issues OpmlCall.Calm (markImportStatus u ex) := by
  refine Issues.bind (issues_invoke (calm_statement rfl)) fun row => ?_
  cases row with
  | none => exact issues_throw' _
  | some row => exact issues_pure _

theorem getImportOrThrow_calm (importId : Nat) (tenantId : Option String) :
    Issues OpmlCall.Calm (getImportOrThrow importId tenantId) := by
  refine Issues.bind ?_ fun row => ?_
  · cases tenantId with
    | none => exact issues_invoke (calm_statement rfl)
    | some tenantId => exact issues_invoke (calm_statement rfl)
  · cases row with
    | none => exact issues_throw' _
    | some row => exact issues_pure _

theorem CreateOpmlImport.execute_calm (input : CreateOpmlImportInput) :
    Issues OpmlCall.Calm (execute cfg rt input) := by
  unfold execute
  split
  · exact issues_throw' _
  · exact Issues.bind (issues_invoke (calm_statement rfl)) fun created =>
      Issues.bind (issues_invoke ⟨trivial, fun h => by cases h⟩) fun _ => issues_pure _

theorem ConfirmOpmlImport.execute_calm (importId : Nat) (tenantId : String) :
    Issues OpmlCall.Calm (execute importId tenantId) := by
  refine Issues.bind (getImportOrThrow_calm _ _) fun current => ?_
  refine Issues.ite (fun _ => issues_pure _) fun _ => ?_
  refine Issues.ite (fun _ => issues_throw' _) fun _ => ?_
  exact Issues.bind (markImportStatus_calm _ _) fun updated =>
    Issues.bind (issues_calm_core _) fun now =>
      Issues.bind (issues_invoke ⟨trivial, fun h => by cases h⟩) fun _ => issues_pure _

theorem insertItems_calm (tenantId : String) (importId : Nat)
    (items : List OpmlImportItemInput) :
    Issues OpmlCall.Calm (insertItems tenantId importId items) := by
  induction items with
  | nil => exact issues_pure _
  | cons item items ih =>
    exact Issues.bind (issues_invoke (calm_statement rfl)) fun _ => ih

theorem replaceImportItems_calm (importId : Nat) (items : List OpmlImportItemInput) :
    Issues OpmlCall.Calm (replaceImportItems importId items) :=
  Issues.bind (getImportTenantId_issues (calm_statement rfl)) fun tenantId =>
    Issues.bind (issues_invoke (calm_statement rfl)) fun _ =>
      insertItems_calm tenantId importId items

/-- The parse job inserts no feed. Its transaction commits, so it is not calm. -/
theorem ProcessOpmlParseJob.execute_bringsNoFeed (job : OpmlParsePreviewJobData) :
    Issues OpmlCall.BringsNoFeed (execute cfg rt job) := by
  have hcalm : ∀ {α : Type} {p : OpmlProgram α}, Issues OpmlCall.Calm p →
      Issues OpmlCall.BringsNoFeed p := fun h => h.mono fun _ hc => hc.1
  have htransaction : ∀ tenantId,
      Issues OpmlCall.BringsNoFeed (transaction cfg rt tenantId job) := by
    intro tenantId
    refine Issues.bind (issues_invoke trivial) fun _ => ?_
    refine Issues.bind (hcalm (markImportStatus_calm _ _)) fun _ => ?_
    split
    · exact issues_throw' _
    · refine Issues.bind (Issues.ite (fun _ => issues_pure _) fun _ => issues_invoke rfl)
        fun existing => ?_
      split
      · exact issues_throw' _
      · exact Issues.bind (hcalm (replaceImportItems_calm _ _)) fun _ =>
          Issues.bind (hcalm (markImportStatus_calm _ _)) fun _ => issues_invoke trivial
  have hrun : ∀ tenantId, Issues OpmlCall.BringsNoFeed (run cfg rt tenantId job) := by
    intro tenantId
    refine Issues.bind (issues_invoke trivial) fun _ => issues_finallyDo
      (Issues.tryCatch (htransaction tenantId) fun message => ?_) (issues_invoke trivial)
    exact Issues.bind (issues_invoke trivial) fun _ =>
      Issues.bind (hcalm (markImportStatus_calm _ _)) fun _ => issues_pure _
  refine Issues.bind (hcalm (getImportOrThrow_calm _ _)) fun current => ?_
  refine Issues.bind (hcalm (getImportTenantId_issues (calm_statement rfl))) fun tenantId => ?_
  refine Issues.ite (fun _ => issues_pure _) fun _ => ?_
  exact Issues.ite (fun _ => hrun tenantId) fun _ => issues_throw' _

/-! ## Registration -/

/-- An insertion on the pool adds one key of the tenant, or none. -/
theorem keys_of_createFeed {tenantId url : String} {normalizedUrlHash : Option String}
    {pollIntervalSeconds : Nat} {status : FeedStatus} {s' : Intake} {r : Except String FeedRow}
    (h : Answered pid s (.statement .pool
      (.createFeed tenantId url normalizedUrlHash pollIntervalSeconds status)) r s') :
    ∃ new, s'.keys = s.keys ++ new ∧ (∀ k ∈ new, k.tenantId = tenantId) ∧ new.length ≤ 1 := by
  have hsame : ∃ new, s.keys = s.keys ++ new ∧ (∀ k ∈ new, k.tenantId = tenantId) ∧
      new.length ≤ 1 := ⟨[], (List.append_nil _).symm, by simp, by simp⟩
  obtain ⟨m, hm, hs⟩ := h.effect
  have hmid : ∃ new, m.keys = s.keys ++ new ∧ (∀ k ∈ new, k.tenantId = tenantId) ∧
      new.length ≤ 1 := by
    cases hm with
    | write st x now hx =>
      obtain ⟨now', ids, t, -, hx⟩ := hx
      cases hx with
      | createFeed =>
        exact ⟨_, rfl, by simp [OpmlWrite.feedsIn, FeedRow.key, OpmlImports.newFeed],
          by simp [OpmlWrite.feedsIn]⟩
    | none => exact hsame
    | close => exact hsame
  rcases hs with rfl | ⟨rfl, -⟩
  · exact hmid
  · exact hmid

/-- **A registration keeps the cap**: nothing else inserts feeds between its count and its
insertion. -/
theorem RegisterFeed.execute_keepsCap (input : RegisterFeedInput)
    (hpos : 0 < cfg.maxFeedsPerTenant) (hs : s.Capped cfg.maxFeedsPerTenant) :
    KeepsCap cfg.maxFeedsPerTenant pid (execute cfg rt input) s := by
  unfold execute
  split
  · have hquota : UnderCap cfg.maxFeedsPerTenant pid (assertQuotaAvailable cfg input.tenantId)
        (fun r s' => s'.Capped cfg.maxFeedsPerTenant ∧ (r = .ok () →
          s'.keys.countP (fun k => k.tenantId = input.tenantId) < cfg.maxFeedsPerTenant)) s := by
      unfold assertQuotaAvailable
      rw [if_neg hpos.ne']
      refine meets_bind.mpr (meets_invoke.mpr ⟨hs, fun r s' hr => ?_⟩)
      have hkeys : s'.keys = s.keys := keys_of_calm (calm_statement rfl) hr
      cases r with
      | error e => exact ⟨hs.congr hkeys, fun he => by cases he⟩
      | ok total =>
        obtain ⟨now, ids, t, ht, -, -, heval, -⟩ := hr.pool_ok
        have htotal : total = s.keys.countP fun k => k.tenantId = input.tenantId := by
          rw [← ht, FeedKey.countP_map]
          exact (Except.ok.inj heval).symm
        dsimp only
        split
        · rename_i hlt
          refine ⟨hs.congr hkeys, fun _ => ?_⟩
          rw [hkeys, ← htotal]
          exact hlt
        · exact ⟨hs.congr hkeys, fun he => by cases he⟩
    refine hquota.bind ?_ ?_
    · rintro ⟨⟩ s₁ ⟨hcap, hroom⟩
      refine meets_tryCatch.mpr (meets_invoke.mpr ⟨hcap, fun r s' hr => ?_⟩)
      obtain ⟨new, hkeys, hnew, hlength⟩ := keys_of_createFeed hr
      have hcap' : s'.Capped cfg.maxFeedsPerTenant := by
        refine hcap.append hkeys hnew ?_
        have := hroom rfl
        omega
      cases r with
      | ok row => exact hcap'
      | error e => exact hcap'
    · rintro e s₁ ⟨hcap, -⟩
      exact hcap
  · exact hs

/-! ## The application of an import -/

/-- What the apply loop has staged: feeds of the tenant under different hashes, each of them
one of those the import brings in. -/
structure Filling (tenantId : String) (hashes : List String) (keys : List FeedKey)
    (s : Intake) : Prop where
  /-- the feeds there are stay -/
  keys : s.keys = keys
  /-- the feeds staged -/
  staged : ∀ t, s.txn = some t → t.aborted = false → ∃ staged : List String, staged.Nodup ∧
    (∀ hash ∈ staged, hash ∈ hashes) ∧
    (OpmlWrite.feedsIn t.writes).map FeedKey.normalizedUrlHash = staged.map some ∧
    ∀ k ∈ OpmlWrite.feedsIn t.writes, k.tenantId = tenantId

/-- The calls of the apply loop. -/
def OpmlCall.Fills (rt : UrlRuntime) (tenantId : String) (urls : List String) : OpmlCall → Prop
  | core _ => True
  | statement .client (.insertFeedOrNothing t url hash _) =>
    t = tenantId ∧ hash = FeedUrl.buildNormalizedFeedUrlHash rt url ∧ url ∈ urls
  | statement .client st => st.insertsFeed = false
  | _ => False

/-- A hash that conflicts with no key is not among theirs. -/
theorem not_mem_of_conflicts {tenantId url hash : String} {keys : List FeedKey}
    {staged : List String} (h : keys.any (FeedKey.conflicts tenantId url (some hash)) = false)
    (hmap : keys.map FeedKey.normalizedUrlHash = staged.map some)
    (htenant : ∀ k ∈ keys, k.tenantId = tenantId) : hash ∉ staged := by
  intro hmem
  have hsome : some hash ∈ keys.map FeedKey.normalizedUrlHash := by
    rw [hmap]
    exact List.mem_map_of_mem hmem
  obtain ⟨k, hk, hhash⟩ := List.mem_map.mp hsome
  have hfalse := List.any_eq_false.mp h k hk
  simp [FeedKey.conflicts, htenant k hk, hhash] at hfalse

/-- **A round of the loop stages at most one more of the feeds the import brings in.** -/
theorem Filling.answered {tenantId : String} {keys : List FeedKey}
    {candidates : List OpmlImportItemRow} {s' : Intake} {c : OpmlCall} {r : Except String c.Reply}
    (hc : c.Fills rt.toUrlRuntime tenantId (candidateUrls candidates))
    (hs : Filling tenantId (newFeedHashes rt.toUrlRuntime tenantId keys candidates) keys s)
    (h : Answered pid s c r s') :
    Filling tenantId (newFeedHashes rt.toUrlRuntime tenantId keys candidates) keys s' := by
  obtain ⟨m, hm, hs'⟩ := h.effect
  have habort : ∀ u : Intake, u.keys = keys →
      Filling tenantId (newFeedHashes rt.toUrlRuntime tenantId keys candidates) keys u.abort := by
    refine fun u hu => ⟨hu, fun t ht ha => ?_⟩
    rw [txn_abort ht] at ha
    cases ha
  have hmid : Filling tenantId (newFeedHashes rt.toUrlRuntime tenantId keys candidates) keys m := by
    cases hm with
    | none => exact hs
    | begin now => exact hc.elim
    | commit => exact hc.elim
    | close => exact ⟨hs.keys, fun t ht => by cases ht⟩
    | write => exact hc.elim
    | abort st => exact habort s hs.keys
    | stage st t x ht ha hx =>
      refine ⟨hs.keys, fun t' ht' _ => ?_⟩
      obtain rfl := Option.some.inj ht'
      obtain ⟨staged, hnodup, hmem, hmap, htenant⟩ := hs.staged t ht ha
      dsimp only
      rw [OpmlWrite.feedsIn_append]
      by_cases hst : st.insertsFeed = false
      · rw [hx.feedsIn_eq_nil hst, List.append_nil]
        exact ⟨staged, hnodup, hmem, hmap, htenant⟩
      obtain ⟨now, ids, tables, htables, hx⟩ := hx
      cases hx with
      | insertFeedOrNothing t₀ url hash jitterSeconds hfree =>
        obtain ⟨rfl, rfl, hurl⟩ := hc
        rw [← FeedKey.any_conflicts, htables, List.any_append, Bool.or_eq_false_iff,
          hs.keys] at hfree
        have hnew : FeedUrl.buildNormalizedFeedUrlHash rt.toUrlRuntime url ∈
            newFeedHashes rt.toUrlRuntime t₀ keys candidates :=
          List.mem_dedup.mpr (List.mem_map_of_mem (List.mem_filter.mpr
            ⟨hurl, by rw [hfree.1]; rfl⟩))
        have hfresh := not_mem_of_conflicts hfree.2 hmap htenant
        refine ⟨staged ++ [FeedUrl.buildNormalizedFeedUrlHash rt.toUrlRuntime url], ?_, ?_, ?_, ?_⟩
        · exact (List.nodup_cons.mpr ⟨hfresh, hnodup⟩).perm (List.perm_append_singleton ..).symm
        · intro hash hhash
          rcases List.mem_append.mp hhash with hhash | hhash
          · exact hmem hash hhash
          · rw [List.mem_singleton.mp hhash]
            exact hnew
        · rw [List.map_append, List.map_append, hmap]
          rfl
        · intro k hk
          rcases List.mem_append.mp hk with hk | hk
          · exact htenant k hk
          · rw [List.mem_singleton.mp hk]
            rfl
      | createFeed => exact absurd hc hst
      | _ => exact absurd rfl hst
  rcases hs' with rfl | ⟨rfl, -⟩
  · exact hmid
  · exact habort m hmid.keys

/-- What fits may be committed. -/
theorem Filling.capped_of_commit {tenantId : String} {hashes : List String} {keys : List FeedKey}
    {s' : Intake} {r : Except String Unit} (hs : Filling tenantId hashes keys s)
    (hcap : s.Capped n)
    (hroom : keys.countP (fun k => k.tenantId = tenantId) + hashes.length ≤ n)
    (h : Answered pid s .commit r s') : s'.Capped n := by
  obtain ⟨m, hm, hs'⟩ := h.effect
  have hmid : m.Capped n := by
    cases hm with
    | commit t imports items ht ha =>
      obtain ⟨staged, hnodup, hmem, hmap, htenant⟩ := hs.staged t ht ha
      have hlength : (OpmlWrite.feedsIn t.writes).length = staged.length := by
        have := congrArg List.length hmap
        rwa [List.length_map, List.length_map] at this
      have hle : staged.length ≤ hashes.length := hnodup.length_le_of_subset hmem
      refine hcap.append rfl htenant ?_
      rw [hs.keys, hlength]
      omega
    | none => exact hcap
    | close => exact hcap
  rcases hs' with rfl | ⟨rfl, -⟩
  · exact hmid
  · exact hmid

namespace ProcessOpmlApplyJob

/-- A round of the loop asks for a feed of its own item only. -/
theorem applyItem_fills {tenantId : String} {urls : List String} (item : OpmlImportItemRow)
    (tally : ApplyTally)
    (hurls : ∀ url, item.input.normalizedUrl = some url → url ≠ "" → url ∈ urls) :
    Issues (OpmlCall.Fills rt.toUrlRuntime tenantId urls)
      (applyItem cfg rt tenantId item tally) := by
  have hfailed : ∀ message, Issues (OpmlCall.Fills rt.toUrlRuntime tenantId urls) (do
      markItemFailed item.id message
      pure { tally with failedItems := tally.failedItems + 1 }) := fun message =>
    Issues.bind (issues_invoke rfl) fun _ => issues_pure _
  have hupsert : ∀ url ∈ urls, Issues (OpmlCall.Fills rt.toUrlRuntime tenantId urls)
      (upsertFeed cfg rt tenantId url) := by
    intro url hurl
    refine Issues.bind (issues_ofCore (fun _ => trivial) _) fun jitterSeconds => ?_
    refine Issues.bind (issues_invoke ⟨rfl, rfl, hurl⟩) fun inserted => ?_
    cases inserted with
    | some row => exact issues_pure _
    | none =>
      refine Issues.bind (issues_invoke rfl) fun found => ?_
      cases found with
      | none => exact issues_throw' _
      | some existing =>
        dsimp only
        split
        · exact issues_throw' _
        · exact issues_pure _
  unfold applyItem
  split
  · exact hfailed _
  · rename_i url hurl
    refine Issues.ite (fun _ => hfailed _) fun hne => ?_
    refine Issues.tryCatch (Issues.bind (hupsert url (hurls url hurl hne)) fun upsert => ?_)
      fun message => hfailed _
    exact Issues.ite (fun _ => hfailed _) fun _ =>
      Issues.bind (issues_invoke rfl) fun _ => issues_pure _

theorem applyItems_fills {tenantId : String} {urls : List String}
    (items : List OpmlImportItemRow) (tally : ApplyTally)
    (hurls : ∀ url ∈ candidateUrls items, url ∈ urls) :
    Issues (OpmlCall.Fills rt.toUrlRuntime tenantId urls)
      (applyItems cfg rt tenantId items tally) := by
  induction items generalizing tally with
  | nil => exact issues_pure _
  | cons item items ih =>
    refine Issues.bind (applyItem_fills item tally fun url hurl hne => ?_) fun _ => ih _ ?_
    · refine hurls url (List.mem_filterMap.mpr ⟨item, List.mem_cons_self, ?_⟩)
      rw [hurl]
      exact Option.filter_eq_some_iff.mpr ⟨rfl, by simpa using hne⟩
    · intro url hurl
      obtain ⟨i, hi, hu⟩ := List.mem_filterMap.mp hurl
      exact hurls url (List.mem_filterMap.mpr ⟨i, List.mem_cons_of_mem _ hi, hu⟩)

/-- The rest of the transaction after the candidates have been listed. -/
theorem fill_keepsCap {tenantId : String} {importId : Nat}
    {candidates : List OpmlImportItemRow} {keys : List FeedKey} (hcap : s.Capped n)
    (hs : Filling tenantId (newFeedHashes rt.toUrlRuntime tenantId keys candidates) keys s)
    (hroom : keys.countP (fun k => k.tenantId = tenantId) +
      (newFeedHashes rt.toUrlRuntime tenantId keys candidates).length ≤ n) :
    KeepsCap n pid (do
      let tally ← applyItems cfg rt tenantId candidates
        { importedItems := 0, failedItems := 0, createdFeedIds := [] }
      let grouped : OpmlItemStatus → Nat ← opmlStatement .client (.countItemsByStatus importId)
      let _ ← markImportStatus (finalUpdate importId tally grouped) .client
      opmlCall .commit
      pure tally.createdFeedIds : OpmlProgram (List Nat)) s := by
  let Q : Intake → Prop := fun u => u.Capped n ∧
    Filling tenantId (newFeedHashes rt.toUrlRuntime tenantId keys candidates) keys u
  have hstep : ∀ u c r u', OpmlCall.Fills rt.toUrlRuntime tenantId (candidateUrls candidates) c →
      Q u → Answered pid u c r u' → Q u' := by
    rintro u c r u' hc ⟨hu, hfill⟩ ha
    have hfill' := hfill.answered hc ha
    exact ⟨hu.congr (hfill'.keys.trans hfill.keys.symm), hfill'⟩
  have hphase : ∀ {α : Type} {p : OpmlProgram α} {u : Intake},
      Issues (OpmlCall.Fills rt.toUrlRuntime tenantId (candidateUrls candidates)) p → Q u →
        Meets (fun u _ => u.Capped n) (Answered pid) p (fun _ u => Q u) u := fun hp hu =>
    (hp.throughout hstep hu).weaken (fun _ _ h => h.1) fun _ _ _ _ h => h
  have hgroup : Issues (OpmlCall.Fills rt.toUrlRuntime tenantId (candidateUrls candidates))
      (opmlStatement .client (.countItemsByStatus importId)) := issues_invoke rfl
  have hmark : ∀ u, Issues (OpmlCall.Fills rt.toUrlRuntime tenantId (candidateUrls candidates))
      (markImportStatus u .client) := by
    refine fun u => Issues.bind (issues_invoke rfl) fun row => ?_
    cases row with
    | none => exact issues_throw' _
    | some row => exact issues_pure _
  refine (hphase (applyItems_fills candidates _ fun _ h => h) ⟨hcap, hs⟩).bind ?_ fun _ _ h => h.1
  rintro tally s₁ hs₁
  refine (hphase hgroup hs₁).bind ?_ fun _ _ h => h.1
  rintro grouped s₂ hs₂
  refine (hphase (hmark _) hs₂).bind ?_ fun _ _ h => h.1
  rintro row s₃ ⟨hcap₃, hfill₃⟩
  have hcommit : KeepsCap n pid (opmlCall .commit) s₃ :=
    meets_invoke.mpr ⟨hcap₃, fun r u ha => hfill₃.capped_of_commit hcap₃ hroom ha⟩
  exact hcommit.bind (fun _ _ h => h) fun _ _ h => h

/-- **The transaction keeps the cap where the candidates fit.** -/
theorem transaction_keepsCap {tenantId : String} {importId : Nat} (hcap : s.Capped n)
    (hroom : s.Room n rt.toUrlRuntime tenantId importId) :
    KeepsCap n pid (transaction cfg rt tenantId importId) s := by
  unfold transaction
  have hbegin : UnderCap n pid (opmlCall .begin) (fun r s' => s'.keys = s.keys ∧
      s'.items = s.items ∧ (r = .ok () → ∀ t, s'.txn = some t → t.writes = [])) s := by
    refine meets_invoke.mpr ⟨hcap, fun r s' ha => ?_⟩
    have hsame : s'.keys = s.keys ∧ s'.items = s.items := by
      obtain ⟨m, hm, hs⟩ := ha.effect
      have hmid : m.keys = s.keys ∧ m.items = s.items := by
        cases hm <;> exact ⟨rfl, rfl⟩
      rcases hs with rfl | ⟨rfl, -⟩
      · exact hmid
      · exact hmid
    refine ⟨hsame.1, hsame.2, ?_⟩
    rintro rfl t ht
    obtain ⟨now, rfl⟩ := ha.begin_ok
    obtain rfl := Option.some.inj ht
    rfl
  refine hbegin.bind ?_ fun _ _ h => hcap.congr h.1
  rintro ⟨⟩ s₁ ⟨hkeys₁, hitems₁, hwrites⟩
  have hlist : UnderCap n pid (opmlStatement .client (.listNewCandidateItems importId))
      (fun r s' => s'.Capped n ∧ ∀ candidates, r = .ok candidates →
        candidates = OpmlImports.newCandidateItems importId s.items ∧
          Filling tenantId (newFeedHashes rt.toUrlRuntime tenantId s.keys candidates) s.keys s')
      s₁ := by
    refine meets_invoke.mpr ⟨hcap.congr hkeys₁, fun r s' ha => ?_⟩
    have hkeys := keys_of_calm (calm_statement rfl) ha
    refine ⟨(hcap.congr hkeys₁).congr hkeys, ?_⟩
    rintro candidates rfl
    obtain ⟨txn, now, ids, tables, htxn, -, htables, heval⟩ := ha.client_ok
    have hitems : tables.items = s.items := (htables (hwrites rfl txn htxn)).2.trans hitems₁
    refine ⟨?_, hkeys.trans hkeys₁, fun t ht _ => ⟨[], List.nodup_nil, by simp, ?_⟩⟩
    · rw [← hitems]
      exact (Except.ok.inj heval).symm
    · -- the list itself stages nothing
      have hnone : t.writes = [] := by
        obtain ⟨m, hm, rfl | ⟨-, e, he⟩⟩ := ha.effect
        · cases hm with
          | none => exact hwrites rfl t ht
          | close => cases ht
          | stage st t x ht ha hx =>
            obtain ⟨_, _, _, -, hx⟩ := hx
            cases hx
          | abort =>
            obtain ⟨t', ht', rfl⟩ := Option.map_eq_some_iff.mp ht
            exact hwrites rfl t' ht'
        · cases he
      rw [hnone]
      exact ⟨rfl, by simp [OpmlWrite.feedsIn]⟩
  refine hlist.bind ?_ fun _ _ h => h.1
  rintro candidates s₂ ⟨hcap₂, hcandidates⟩
  obtain ⟨rfl, hfill⟩ := hcandidates candidates rfl
  exact fill_keepsCap hcap₂ hfill hroom

theorem enqueueFeeds_calm (feedIds : List Nat) :
    Issues OpmlCall.Calm (enqueueFeeds feedIds) := by
  induction feedIds with
  | nil => exact issues_pure _
  | cons feedId feedIds ih =>
    exact Issues.bind (issues_calm_core _) fun now => Issues.bind (issues_calm_core _) fun _ => ih

theorem run_keepsCap {tenantId : String} {importId : Nat} (hcap : s.Capped n)
    (hroom : s.Room n rt.toUrlRuntime tenantId importId) :
    KeepsCap n pid (run cfg rt tenantId importId) s := by
  have hhandler : ∀ message, Issues OpmlCall.Calm (do
      opmlCall .rollback
      let _ ← markImportStatus
        { importId := importId, status := .failed, errorMessage := some message } .pool) := by
    intro message
    exact Issues.bind (issues_invoke ⟨trivial, fun h => by cases h⟩) fun _ =>
      Issues.bind (markImportStatus_calm _ _) fun _ => issues_pure _
  have hrelease : Issues OpmlCall.Calm (opmlCall .release) :=
    issues_invoke ⟨trivial, fun h => by cases h⟩
  have hconnect : UnderCap n pid (opmlCall .connect)
      (fun _ s' => s'.keys = s.keys ∧ s'.items = s.items) s := by
    refine meets_invoke.mpr ⟨hcap, fun r s' ha => ?_⟩
    obtain ⟨m, hm, rfl | ⟨rfl, -⟩⟩ := ha.effect
    · cases hm <;> exact ⟨rfl, rfl⟩
    · cases hm <;> exact ⟨rfl, rfl⟩
  refine hconnect.bind ?_ fun _ _ h => hcap.congr h.1
  rintro _ s₁ ⟨hkeys, hitems⟩
  have hroom₁ : s₁.Room n rt.toUrlRuntime tenantId importId := by
    unfold Room
    rw [hkeys, hitems]
    exact hroom
  have hbody : KeepsCap n pid (do
      let createdFeedIds ← transaction cfg rt tenantId importId
      enqueueFeeds createdFeedIds) s₁ :=
    Meets.bind (transaction_keepsCap (hcap.congr hkeys) hroom₁) (fun createdFeedIds u hu =>
      keepsCap_of_calm (enqueueFeeds_calm createdFeedIds) hu) fun _ _ h => h
  have htry := hbody.tryCatch (fun _ _ h => h) fun e u hu => keepsCap_of_calm (hhandler e) hu
  exact meets_finallyDo htry fun r u hu =>
    (keepsCap_of_calm hrelease hu).mono fun _ _ h => ⟨fun _ => h, fun _ _ => h⟩

/-- A status write touches neither feeds nor items. -/
theorem tables_of_markImportStatus {u : OpmlStatusUpdate} {s' : Intake}
    {r : Except String (Option OpmlImportRow)}
    (h : Answered pid s (.statement .pool (.markImportStatus u)) r s') :
    s'.keys = s.keys ∧ s'.items = s.items := by
  refine ⟨keys_of_calm (calm_statement rfl) h, ?_⟩
  obtain ⟨m, hm, hs⟩ := h.effect
  have hitems : m.items = s.items := by
    cases hm with
    | write st x now hx =>
      obtain ⟨_, _, _, -, hx⟩ := hx
      cases hx
      rfl
    | none => rfl
    | close => rfl
  rcases hs with rfl | ⟨rfl, -⟩
  · exact hitems
  · exact hitems

/-- **The application of an import keeps the cap where the candidates fit.** -/
theorem execute_keepsCap (job : OpmlApplyImportJobData) (hcap : s.Capped n)
    (hroom : ∀ row ∈ Table.lookup OpmlImportRow.id job.importId s.imports,
      row.status = .importing ∨ row.status = .previewReady →
        s.Room n rt.toUrlRuntime row.tenantId job.importId) :
    KeepsCap n pid (execute cfg rt job) s := by
  unfold execute
  -- reading the import and its tenant changes nothing
  have hfind : UnderCap n pid (getImportOrThrowForWorker job.importId)
      (fun r s' => s'.Capped n ∧ ∀ current, r = .ok current →
        s' = s ∧ Table.lookup OpmlImportRow.id job.importId s.imports = some current) s := by
    refine meets_bind.mpr (meets_invoke.mpr ⟨hcap, fun r s' ha => ?_⟩)
    have hcap' := hcap.congr (keys_of_calm (calm_statement rfl) ha)
    cases r with
    | error e => exact ⟨hcap', fun _ h => by cases h⟩
    | ok row =>
      obtain ⟨now, ids, t, -, himports, -, heval, hsame⟩ := ha.pool_ok
      have hrow : Table.lookup OpmlImportRow.id job.importId s.imports = row := by
        rw [← himports]
        exact Except.ok.inj heval
      cases row with
      | none => exact ⟨hcap', fun _ h => by cases h⟩
      | some current =>
        refine ⟨hcap', fun current' h => ?_⟩
        obtain rfl := Except.ok.inj h
        exact ⟨hsame rfl, hrow⟩
  refine hfind.bind ?_ fun _ _ h => h.1
  rintro current s₁ ⟨-, hcurrent⟩
  obtain ⟨hs₁, hrow⟩ := hcurrent current rfl
  subst s₁
  have howner : UnderCap n pid (getImportTenantId job.importId .pool)
      (fun r s' => s'.Capped n ∧ ∀ tenantId, r = .ok tenantId →
        s' = s ∧ tenantId = current.tenantId) s := by
    refine meets_bind.mpr (meets_invoke.mpr ⟨hcap, fun r s' ha => ?_⟩)
    have hcap' := hcap.congr (keys_of_calm (calm_statement rfl) ha)
    cases r with
    | error e => exact ⟨hcap', fun _ h => by cases h⟩
    | ok tenantId =>
      obtain ⟨now, ids, t, -, himports, -, heval, hsame⟩ := ha.pool_ok
      have htenant : some current.tenantId = tenantId := by
        have := Except.ok.inj heval
        rw [himports, hrow] at this
        exact this
      subst htenant
      refine ⟨hcap', fun tenantId h => ?_⟩
      exact ⟨hsame rfl, (Except.ok.inj h).symm⟩
  refine howner.bind ?_ fun _ _ h => h.1
  rintro tenantId s₁ ⟨-, htenant⟩
  obtain ⟨hs₁, rfl⟩ := htenant tenantId rfl
  subst s₁
  have hfits := hroom current hrow
  split
  · exact hcap
  split
  -- it is marked already, by the confirmation or an earlier attempt
  · rename_i _ himporting
    exact run_keepsCap hcap (hfits (.inl himporting))
  split
  · rename_i hcompleted himporting hcan
    have hpreview : current.status = .previewReady := by
      revert hcan hcompleted himporting
      cases current.status <;> decide
    -- the job marks it first, which concerns neither feeds nor items
    have hmark : UnderCap n pid (markImportStatus
        { importId := job.importId, status := .importing, confirmed := true } .pool)
        (fun _ s' => s'.keys = s.keys ∧ s'.items = s.items) s := by
      refine meets_bind.mpr (meets_invoke.mpr ⟨hcap, fun r s' ha => ?_⟩)
      have hsame := tables_of_markImportStatus ha
      cases r with
      | error e => exact hsame
      | ok row => cases row <;> exact hsame
    refine hmark.bind ?_ fun _ _ h => hcap.congr h.1
    rintro _ s₁ ⟨hkeys, hitems⟩
    refine run_keepsCap (hcap.congr hkeys) ?_
    unfold Room
    rw [hkeys, hitems]
    exact hfits (.inr hpreview)
  · exact hcap

end ProcessOpmlApplyJob

end Programs

/-! ## Operations one after another -/

/-- The process an action starts. -/
def OpmlAction.starts? : OpmlAction → Option Nat
  | .request pid _ => some pid
  | .takeParse pid _ => some pid
  | .takeApply pid _ => some pid
  | _ => none

/-- The process an action ends. -/
def OpmlAction.ends? : OpmlAction → Option Nat
  | .finish pid => some pid
  | .crash pid => some pid
  | _ => none

namespace OpmlSystem

variable {d : OpmlDeployment} {s s' : OpmlSystem} {n : Nat}

/-- Whose turn it is after an action: an operation starts only when none is going on. -/
def turn (busy : Option Nat) (a : OpmlAction) : Option (Option Nat) :=
  match a.starts? with
  | some pid => if busy = none then some (some pid) else none
  | none => if a.ends?.isSome then some none else some busy

/-- No two operations of the list overlap. -/
def OneAtATime (as : List OpmlAction) : Bool := (Transition.run turn none as).isSome

/-- The condition on an application: the feeds its candidates bring in fit into what is left
of the cap. -/
def Fits (d : OpmlDeployment) (s : OpmlSystem) : OpmlAction → Prop
  | .takeApply _ jobId =>
    ∀ job ∈ s.world.applyQueue.getJob jobId,
      ∀ row ∈ Table.lookup OpmlImportRow.id job.data.importId s.world.imports,
        row.status = .importing ∨ row.status = .previewReady →
          OpmlImports.countFeeds row.tenantId s.world.core.feeds +
            (newFeedHashes d.rt.toUrlRuntime row.tenantId s.world.core.feedKeys
              (OpmlImports.newCandidateItems job.data.importId s.world.items)).length
            ≤ d.config.maxFeedsPerTenant
  | _ => True

instance (d : OpmlDeployment) (s : OpmlSystem) : ∀ a, Decidable (s.Fits d a)
  | .takeApply _ jobId =>
    inferInstanceAs (Decidable (∀ job ∈ s.world.applyQueue.getJob jobId,
      ∀ row ∈ Table.lookup OpmlImportRow.id job.data.importId s.world.imports, _ → _ ≤ _))
  | .core _ | .request .. | .takeParse .. | .advance .. | .finish _ | .crash _
  | .promoteParse _ | .promoteApply _ | .stallParse _ | .stallApply _ => isTrue trivial

/-- No tenant owns more than `n` feeds. -/
def FeedsCapped (n : Nat) (s : OpmlSystem) : Prop :=
  ∀ tenantId, OpmlImports.countFeeds tenantId s.world.core.feeds ≤ n

/-- Nothing of the OPML import is going on. -/
structure Idle (s : OpmlSystem) : Prop where
  /-- no process runs -/
  procs : ∀ pid, s.procs pid = none
  /-- no transaction is open -/
  txns : s.world.opmlTxns = []

/-- At most one process runs; it keeps the cap, and nobody else has a transaction. -/
structure KeepsCap (n : Nat) (busy : Option Nat) (s : OpmlSystem) : Prop where
  /-- the cap -/
  capped : s.FeedsCapped n
  /-- the process -/
  procs : ∀ pid p, s.procs pid = some p →
    busy = some pid ∧ Intake.KeepsCap n pid p.prog (s.world.intake pid)
  /-- the transactions -/
  txns : ∀ pid, s.procs pid = none → s.world.opmlTxn pid = none

theorem FeedsCapped.intake (h : s.FeedsCapped n) (pid : Nat) :
    (s.world.intake pid).Capped n := by
  intro tenantId
  exact (FeedKey.countP_map tenantId s.world.core.feeds).trans_le (h tenantId)

theorem feedsCapped_of_intake {pid : Nat} (h : (s.world.intake pid).Capped n) :
    s.FeedsCapped n := by
  intro tenantId
  exact (FeedKey.countP_map tenantId s.world.core.feeds).symm.trans_le (h tenantId)

/-- The processes that start keep the cap, if an application fits. -/
theorem keepsCap_launch {a : OpmlAction} {pid : Nat} {role : OpmlRole} {prog : OpmlProgram Unit}
    (h : Launch d s.world a pid role prog) (hpos : 0 < d.config.maxFeedsPerTenant)
    (hcap : s.FeedsCapped d.config.maxFeedsPerTenant) (htxn : s.world.opmlTxn pid = none)
    (hfits : s.Fits d a) :
    Intake.KeepsCap d.config.maxFeedsPerTenant pid prog (s.world.intake pid) := by
  have hs := hcap.intake pid
  cases h with
  | request _ r =>
    cases r with
    | create input =>
      exact Intake.keepsCap_of_calm (Prog.Issues.bind (CreateOpmlImport.execute_calm input)
        fun _ => Prog.issues_pure _) hs
    | confirm importId tenantId =>
      exact Intake.keepsCap_of_calm (Prog.Issues.bind
        (ConfirmOpmlImport.execute_calm importId tenantId) fun _ => Prog.issues_pure _) hs
    | register input =>
      exact (RegisterFeed.execute_keepsCap input hpos hs).bind (fun _ _ h => h) fun _ _ h => h
  | parse _ jobId job hj =>
    refine Intake.keepsCap_of_bringsNoFeed
      (ProcessOpmlParseJob.execute_bringsNoFeed job.data) hs fun t ht => ?_
    change s.world.opmlTxn pid = some t at ht
    rw [htxn] at ht
    cases ht
  | apply _ jobId job hj =>
    refine ProcessOpmlApplyJob.execute_keepsCap job.data hs fun row hrow hstatus => ?_
    have hroom := hfits job hj row hrow hstatus
    rw [← FeedKey.countP_map] at hroom
    exact hroom

/-- A process starts when none is running. -/
theorem KeepsCap.launch {pid : Nat} {role : OpmlRole} {prog : OpmlProgram Unit}
    (h : s.KeepsCap n none) (hprog : Intake.KeepsCap n pid prog (s.world.intake pid))
    (hfree : s.procs pid = none)
    (hprocs : s'.procs = Function.update s.procs pid (some ⟨role, prog⟩))
    (hcore : s'.world.core = s.world.core) (hintake : ∀ q, s'.world.intake q = s.world.intake q) :
    s'.KeepsCap n (some pid) where
  capped := by
    intro tenantId
    rw [hcore]
    exact h.capped tenantId
  procs := by
    intro q p hq
    rw [hprocs] at hq
    by_cases hqp : q = pid
    · subst hqp
      rw [Function.update_self] at hq
      obtain rfl := Option.some.inj hq
      rw [hintake]
      exact ⟨rfl, hprog⟩
    · rw [Function.update_of_ne hqp] at hq
      cases (h.procs q p hq).1
  txns := by
    intro q hq
    have hsame : s'.world.opmlTxn q = s.world.opmlTxn q := congrArg Intake.txn (hintake q)
    rw [hsame]
    refine h.txns q ?_
    by_cases hqp : q = pid
    · subst hqp
      exact hfree
    · rwa [hprocs, Function.update_of_ne hqp] at hq

/-- Nothing a process depends on changes. -/
theorem KeepsCap.congr {busy : Option Nat} (h : s.KeepsCap n busy) (hprocs : s'.procs = s.procs)
    (hintake : ∀ q, s'.world.intake q = s.world.intake q) : s'.KeepsCap n busy where
  capped := by
    have hcap : (s'.world.intake 0).Capped n := by
      rw [hintake]
      exact h.capped.intake 0
    exact feedsCapped_of_intake hcap
  procs := by
    intro q p hq
    rw [hprocs] at hq
    rw [hintake]
    exact h.procs q p hq
  txns := by
    intro q hq
    rw [hprocs] at hq
    exact (congrArg Intake.txn (hintake q)).trans (h.txns q hq)

/-- The process that runs is answered. -/
theorem KeepsCap.advance {busy : Option Nat} {pid : Nat} {out : Outcome}
    (h : s.KeepsCap n busy) (hstep : step d s (.advance pid out) = some s') :
    s'.KeepsCap n busy := by
  obtain ⟨role, c, k, r, w, hp, ha, rfl⟩ := advance_eq_some hstep
  obtain ⟨hbusy, -, hnext⟩ := h.procs pid _ hp
  have hprog := hnext r (w.intake pid) ⟨s.world, w, out, rfl, ha, rfl⟩
  refine ⟨feedsCapped_of_intake (Intake.KeepsCap.capped hprog), fun q p hq => ?_,
    fun q hq => ?_⟩
  · change Function.update s.procs pid _ q = some p at hq
    by_cases hqp : q = pid
    · subst hqp
      rw [Function.update_self] at hq
      obtain rfl := Option.some.inj hq
      exact ⟨hbusy, hprog⟩
    · rw [Function.update_of_ne hqp] at hq
      obtain rfl := Option.some.inj (hbusy.symm.trans (h.procs q p hq).1)
      exact absurd rfl hqp
  · change Function.update s.procs pid _ q = none at hq
    by_cases hqp : q = pid
    · subst hqp
      rw [Function.update_self] at hq
      cases hq
    · rw [Function.update_of_ne hqp] at hq
      exact (opmlTxn_answer_of_ne ha hqp).trans (h.txns q hq)

/-- The process that runs ends or dies. -/
theorem KeepsCap.leave {busy : Option Nat} {pid : Nat} {p : OpmlProcess} {w : OpmlWorld}
    (h : s.KeepsCap n busy) (hp : s.procs pid = some p) (hcore : w.core = s.world.core)
    (htxns : w.opmlTxns = s.world.opmlTxns) : (s.leave pid w).KeepsCap n none := by
  obtain ⟨hbusy, hprog⟩ := h.procs pid p hp
  have hothers : ∀ q, q ≠ pid → s.procs q = none := by
    intro q hq
    rcases hpq : s.procs q with _ | p'
    · rfl
    · obtain rfl := Option.some.inj (hbusy.symm.trans (h.procs q p' hpq).1)
      exact absurd rfl hq
  refine ⟨fun tenantId => ?_, fun q p' hq => ?_, fun q _ => ?_⟩
  · change OpmlImports.countFeeds tenantId w.core.feeds ≤ n
    rw [hcore]
    exact h.capped tenantId
  · change Function.update s.procs pid none q = some p' at hq
    by_cases hqp : q = pid
    · subst hqp
      rw [Function.update_self] at hq
      cases hq
    · rw [Function.update_of_ne hqp, hothers q hqp] at hq
      cases hq
  · change (w.dropOpmlTxn pid).opmlTxn q = none
    by_cases hqp : q = pid
    · rw [hqp]
      exact OpmlWorld.opmlTxn_dropOpmlTxn
    · rw [OpmlWorld.opmlTxn_dropOpmlTxn_of_ne hqp]
      have hsame : w.opmlTxn q = s.world.opmlTxn q := by
        unfold OpmlWorld.opmlTxn
        rw [htxns]
      exact hsame.trans (h.txns q (hothers q hqp))

/-- **A step keeps the cap**, if it is its turn and an application fits. -/
theorem KeepsCap.step {busy busy' : Option Nat} {a : OpmlAction}
    (h : s.KeepsCap d.config.maxFeedsPerTenant busy) (hpos : 0 < d.config.maxFeedsPerTenant)
    (hturn : turn busy a = some busy') (hfits : s.Fits d a)
    (hstep : OpmlSystem.step d s a = some s') :
    s'.KeepsCap d.config.maxFeedsPerTenant busy' := by
  have hstart : ∀ {pid}, a.starts? = some pid → busy = none ∧ busy' = some pid := by
    intro pid ha
    unfold turn at hturn
    rw [ha] at hturn
    obtain ⟨hnone, hsome⟩ := Option.ite_none_right_eq_some.mp hturn
    exact ⟨hnone, (Option.some.inj hsome).symm⟩
  cases a with
  | core a =>
    obtain rfl := Option.some.inj hturn
    obtain ⟨t, ht, rfl⟩ := core_eq_some hstep
    exact h.congr rfl fun q => OpmlWorld.intake_congr (System.feedKeys_step ht) rfl rfl rfl
  | request pid r =>
    obtain ⟨rfl, rfl⟩ := hstart rfl
    obtain ⟨hfree, rfl⟩ := start_eq_some hstep
    exact h.launch (keepsCap_launch (.request pid r) hpos h.capped (h.txns pid hfree) hfits) hfree
      rfl rfl fun q => rfl
  | takeParse pid jobId =>
    obtain ⟨rfl, rfl⟩ := hstart rfl
    obtain ⟨job, q, ht, hfree, rfl⟩ := takeParse_eq_some hstep
    exact h.launch (keepsCap_launch (.parse pid jobId job (JobQueue.take_eq_some ht).1) hpos
      h.capped (h.txns pid hfree) hfits) hfree rfl rfl fun q => rfl
  | takeApply pid jobId =>
    obtain ⟨rfl, rfl⟩ := hstart rfl
    obtain ⟨job, q, ht, hfree, rfl⟩ := takeApply_eq_some hstep
    exact h.launch (keepsCap_launch (.apply pid jobId job (JobQueue.take_eq_some ht).1) hpos
      h.capped (h.txns pid hfree) hfits) hfree rfl rfl fun q => rfl
  | advance pid out =>
    obtain rfl := Option.some.inj hturn
    exact h.advance hstep
  | finish pid =>
    obtain rfl := Option.some.inj hturn
    obtain ⟨role, prog, succeeded, hp, -, -, rfl⟩ := finish_eq_some hstep
    exact h.leave hp (by cases role <;> rfl) (by cases role <;> rfl)
  | crash pid =>
    obtain rfl := Option.some.inj hturn
    obtain ⟨p, hp, rfl⟩ := crash_eq_some hstep
    exact h.leave hp rfl rfl
  | _ =>
    obtain rfl := Option.some.inj hturn
    obtain ⟨q, -, rfl⟩ := Option.map_eq_some_iff.mp hstep
    exact h.congr rfl fun q => rfl

/-- Runs whose operations do not overlap. -/
theorem KeepsCap.always {busy : Option Nat} {as : List OpmlAction}
    (h : s.KeepsCap d.config.maxFeedsPerTenant busy) (hpos : 0 < d.config.maxFeedsPerTenant)
    (hturn : (Transition.run turn busy as).isSome = true)
    (hfits : Transition.Along (OpmlSystem.step d) (fun s a _ => s.Fits d a) s as) :
    Transition.Always (OpmlSystem.step d) (FeedsCapped d.config.maxFeedsPerTenant) s as := by
  induction as generalizing s busy with
  | nil => exact h.capped
  | cons a as ih =>
    refine ⟨h.capped, fun s' hs => ?_⟩
    obtain ⟨last, hlast⟩ := Option.isSome_iff_exists.mp hturn
    obtain ⟨busy', hb, hrun⟩ := Transition.run_cons_eq_some hlast
    obtain ⟨hfit, hrest⟩ := hfits s' hs
    exact ih (h.step hpos hb hfit hs) (by rw [hrun]; rfl) hrest

/-- **The cap on feeds is kept.** In every run whose operations do not overlap, and in which
the candidates of every import that is applied fit into what is left of the cap, no tenant
ever owns more feeds than the cap allows. -/
theorem feedCap_kept {as : List OpmlAction} (hpos : 0 < d.config.maxFeedsPerTenant)
    (hidle : s.Idle) (hcap : s.FeedsCapped d.config.maxFeedsPerTenant)
    (hone : OneAtATime as = true)
    (hfits : Transition.Along (OpmlSystem.step d) (fun s a _ => s.Fits d a) s as) :
    Transition.Always (OpmlSystem.step d) (FeedsCapped d.config.maxFeedsPerTenant) s as := by
  have hs : s.KeepsCap d.config.maxFeedsPerTenant none := by
    refine ⟨hcap, fun pid p hp => ?_, fun pid _ => ?_⟩
    · rw [hidle.procs] at hp
      cases hp
    · simp [OpmlWorld.opmlTxn, hidle.txns, Table.lookup]
  exact hs.always hpos hone hfits

/-- The deployment of two feeds, with a cap. -/
def cappedDeployment (maxFeeds : Nat) : OpmlDeployment :=
  { importDeployment with
    config := { importDeployment.config with maxFeedsPerTenant := maxFeeds } }

theorem noImports_idle : noImports.Idle := ⟨fun _ => rfl, rfl⟩

theorem noImports_feedsCapped (n : Nat) : noImports.FeedsCapped n := fun _ => Nat.zero_le n

/-- An import of two feeds under a cap of two. -/
theorem feedCap_kept_two :
    Transition.Always (OpmlSystem.step (cappedDeployment 2)) (FeedsCapped 2) noImports
      (upload 1 ++ parse 2 ++ confirm 3 ++ applyUntilCommit 4 ++ enqueueBoth 4) :=
  feedCap_kept (d := cappedDeployment 2) (by decide) noImports_idle (noImports_feedsCapped 2)
    (by decide +kernel) (by decide +kernel)

/-- **The cap is exceeded**: an import of two feeds under a cap of one. -/
theorem feedCap_exceeded :
    noImports.Idle ∧ noImports.FeedsCapped 1 ∧
      OneAtATime (upload 1 ++ parse 2 ++ confirm 3 ++ applyUntilCommit 4 ++ enqueueBoth 4) = true ∧
      ((Transition.run (OpmlSystem.step (cappedDeployment 1)) noImports
        (upload 1 ++ parse 2 ++ confirm 3 ++ applyUntilCommit 4 ++ enqueueBoth 4)).map
          fun s => OpmlImports.countFeeds "t" s.world.core.feeds) = some 2 :=
  ⟨noImports_idle, noImports_feedsCapped 1, by decide +kernel, by decide +kernel⟩

end OpmlSystem

end Feedpulse
