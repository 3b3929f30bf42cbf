import Feedpulse.EntryTable
import Feedpulse.FeedJob

/-!
# Conditional requests

A fetch sends the validators of the feed, the `ETag` and the `Last-Modified` of an earlier
response, and where the answer is a `304` nothing is stored. So a validator may only be kept of a
document whose articles have been stored. `validators_vouched`: in every run in which servers
answer a `304` with no other validator than the one they were asked about, each validator of a
feed, and each one that is sent, is that of a document received from the feed's URL, every
article of which is stored; however many jobs fetch the feed at once, crash or are run again.
-/

namespace Feedpulse

open Prog

/-! ## Validators -/

/-- The two validators of a document. -/
inductive Validator
  /-- `ETag` -/
  | etag
  /-- `Last-Modified` -/
  | lastModified
  deriving DecidableEq, Repr

/-- One of two headers. -/
def Validator.of (v : Validator) (etag lastModified : Option String) : Option String :=
  match v with
  | .etag => etag
  | .lastModified => lastModified

/-- The validator a response carries. -/
def FetchResponse.validator (r : FetchResponse) (v : Validator) : Option String :=
  v.of r.etag r.lastModified

/-- The validator that is kept of a feed. -/
def FeedRow.validator (f : FeedRow) (v : Validator) : Option String := v.of f.etag f.lastModified

/-- The validator a report supplies. -/
def Feeds.AfterFetch.validator (u : Feeds.AfterFetch) (v : Validator) : Option String :=
  v.of u.etag u.lastModified

@[simp] theorem Validator.of_none (v : Validator) : v.of none none = none := by cases v <;> rfl

/-- `COALESCE`. -/
theorem Feeds.AfterFetch.validator_apply (u : Feeds.AfterFetch) (now : Nat) (f : FeedRow)
    (v : Validator) : (u.apply now f).validator v = (u.validator v).or (f.validator v) := by
  cases v <;> rfl

/-! ## Documents -/

section Vouched

variable {R : String → FetchResponse → Prop} {rt : Runtime} {feedId : Nat} {url : String}

/-- Every article of the document is stored for the feed. -/
def HoldsAll (rt : Runtime) (entries : List EntryRow) (feedId : Nat) (body : String) : Prop :=
  ∃ items, rt.parseFeed body = .ok items ∧
    ∀ item ∈ items, entries.any (Entries.conflicts feedId (Entries.normalizeItem rt item)) = true

/-- The validator is one of a document that was received from the URL, and every article of
which is stored. `R` says what has been received. -/
def Vouched (R : String → FetchResponse → Prop) (rt : Runtime) (entries : List EntryRow)
    (feedId : Nat) (url : String) (v : Validator) (tag : String) : Prop :=
  ∃ response, R url response ∧ response.statusCode < 400 ∧ response.statusCode ≠ 304 ∧
    response.validator v = some tag ∧ HoldsAll rt entries feedId response.body

/-- All validators there are. -/
def AllVouched (R : String → FetchResponse → Prop) (rt : Runtime) (entries : List EntryRow)
    (feedId : Nat) (url : String) (validator : Validator → Option String) : Prop :=
  ∀ v tag, validator v = some tag → Vouched R rt entries feedId url v tag

theorem HoldsAll.mono {entries entries' : List EntryRow} {body : String}
    (h : HoldsAll rt entries feedId body) (hsub : ∀ e ∈ entries, e ∈ entries') :
    HoldsAll rt entries' feedId body := by
  obtain ⟨items, hitems, hall⟩ := h
  refine ⟨items, hitems, fun item hitem => ?_⟩
  obtain ⟨row, hrow, hconflict⟩ := List.any_eq_true.mp (hall item hitem)
  exact List.any_eq_true.mpr ⟨row, hsub row hrow, hconflict⟩

theorem AllVouched.mono {entries entries' : List EntryRow} {validator : Validator → Option String}
    (h : AllVouched R rt entries feedId url validator) (hsub : ∀ e ∈ entries, e ∈ entries') :
    AllVouched R rt entries' feedId url validator := by
  intro v tag htag
  obtain ⟨response, hR, hlow, hne, hv, hall⟩ := h v tag htag
  exact ⟨response, hR, hlow, hne, hv, hall.mono hsub⟩

theorem allVouched_none {entries : List EntryRow} {validator : Validator → Option String}
    (h : ∀ v, validator v = none) : AllVouched R rt entries feedId url validator := by
  intro v tag htag
  rw [h v] at htag
  cases htag

end Vouched

/-! ## The invariant of the tables -/

namespace World

variable {R : String → FetchResponse → Prop} {rt : Runtime} {pid : Nat} {w w' : World} {c : Call}

/-- A report that says nothing about its feed but what is vouched for by the entries. -/
def ReportVouched (R : String → FetchResponse → Prop) (rt : Runtime) (w : World)
    (entries : List EntryRow) (u : Feeds.AfterFetch) : Prop :=
  ∀ f, Table.lookup FeedRow.id u.feedId w.feeds = some f →
    AllVouched R rt entries u.feedId f.url u.validator

/-- Every validator is vouched for: of the feeds by what is stored, of the staged reports by what
their commit will have stored. -/
structure Grounded (R : String → FetchResponse → Prop) (rt : Runtime) (w : World) : Prop where
  /-- the feeds -/
  rows : ∀ id f, Table.lookup FeedRow.id id w.feeds = some f →
    AllVouched R rt w.entries id f.url f.validator
  /-- the reports of open transactions -/
  reports : ∀ pid t, w.txn pid = some t → ∀ u ∈ t.feedUpdates,
    w.ReportVouched R rt (w.entries ++ t.entries) u

/-- The URLs of the feeds are as they were. -/
def SameUrls (w w' : World) : Prop :=
  ∀ id, (Table.lookup FeedRow.id id w'.feeds).map FeedRow.url
    = (Table.lookup FeedRow.id id w.feeds).map FeedRow.url

/-- The reports that take effect with a call. -/
def reported (w : World) (pid : Nat) : Call → List Feeds.AfterFetch
  | .feed (.updateAfterFetch u) => [u]
  | .ingest .commit => ((w.txn pid).map Txn.feedUpdates).getD []
  | _ => []

/-- Feeds that have kept their URLs, and whose validators are the old ones, or reported. -/
structure FeedsFollow (us : List Feeds.AfterFetch) (feeds feeds' : List FeedRow) : Prop where
  /-- the URL -/
  url : ∀ id, (Table.lookup FeedRow.id id feeds').map FeedRow.url
    = (Table.lookup FeedRow.id id feeds).map FeedRow.url
  /-- the validators -/
  validator : ∀ id f', Table.lookup FeedRow.id id feeds' = some f' → ∀ v tag,
    f'.validator v = some tag → (∃ f, Table.lookup FeedRow.id id feeds = some f ∧
      f.validator v = some tag) ∨ ∃ u ∈ us, u.feedId = id ∧ u.validator v = some tag

theorem feedsFollow_refl (us : List Feeds.AfterFetch) (feeds : List FeedRow) :
    FeedsFollow us feeds feeds :=
  ⟨fun _ => rfl, fun _ f' hf' _ _ htag => .inl ⟨f', hf', htag⟩⟩

/-- An update of other columns. -/
theorem feedsFollow_updateWhere {feeds : List FeedRow} {p : FeedRow → Bool}
    {g : FeedRow → FeedRow} (hid : ∀ f, (g f).id = f.id) (hurl : ∀ f, (g f).url = f.url)
    (hv : ∀ f v, (g f).validator v = f.validator v) :
    FeedsFollow [] feeds (Table.updateWhere p g feeds) := by
  constructor
  · intro id
    rw [Table.lookup_updateWhere hid, Option.map_map]
    congr 1
    funext f
    change (if p f then g f else f).url = f.url
    split
    · exact hurl f
    · rfl
  · intro id f' hf' v tag htag
    rw [Table.lookup_updateWhere hid] at hf'
    obtain ⟨f, hf, rfl⟩ := Option.map_eq_some_iff.mp hf'
    refine .inl ⟨f, hf, ?_⟩
    split at htag
    · rwa [hv] at htag
    · exact htag

/-- One report. -/
theorem feedsFollow_updateAfterFetch (now : Nat) (u : Feeds.AfterFetch) (feeds : List FeedRow) :
    FeedsFollow [u] feeds (Feeds.updateAfterFetch now u feeds) := by
  have hid : ∀ f, (u.apply now f).id = f.id := fun _ => rfl
  constructor
  · intro id
    rw [Feeds.updateAfterFetch, Table.lookup_updateWhere hid, Option.map_map]
    congr 1
    funext f
    by_cases hf : f.id = u.feedId <;> simp [hf, Feeds.AfterFetch.apply]
  · intro id f' hf' v tag htag
    rw [Feeds.updateAfterFetch, Table.lookup_updateWhere hid] at hf'
    obtain ⟨f, hf, rfl⟩ := Option.map_eq_some_iff.mp hf'
    split at htag
    · rename_i hfeed
      rw [Feeds.AfterFetch.validator_apply, Option.or_eq_some_iff] at htag
      rcases htag with htag | ⟨-, htag⟩
      · have hkey : f.id = id := Table.key_of_lookup hf
        have hid' : f.id = u.feedId := by simpa using hfeed
        exact .inr ⟨u, List.mem_singleton_self u, hid'.symm.trans hkey, htag⟩
      · exact .inl ⟨f, hf, htag⟩
    · exact .inl ⟨f, hf, htag⟩

/-- One report after the other. -/
theorem FeedsFollow.trans {us us' : List Feeds.AfterFetch} {feeds feeds' feeds'' : List FeedRow}
    (h : FeedsFollow us feeds feeds') (h' : FeedsFollow us' feeds' feeds'') :
    FeedsFollow (us ++ us') feeds feeds'' := by
  refine ⟨fun id => (h'.url id).trans (h.url id), fun id f'' hf'' v tag htag => ?_⟩
  rcases h'.validator id f'' hf'' v tag htag with ⟨f', hf', htag'⟩ | ⟨u, hu, hrest⟩
  · exact (h.validator id f' hf' v tag htag').imp_right fun ⟨u, hu, hrest⟩ =>
      ⟨u, List.mem_append_left _ hu, hrest⟩
  · exact .inr ⟨u, List.mem_append_right _ hu, hrest⟩

theorem feedsFollow_foldl (now : Nat) (us : List Feeds.AfterFetch) (feeds : List FeedRow) :
    FeedsFollow us feeds (us.foldl (fun fs u => Feeds.updateAfterFetch now u fs) feeds) := by
  induction us generalizing feeds with
  | nil => exact feedsFollow_refl [] feeds
  | cons u us ih => exact (feedsFollow_updateAfterFetch now u feeds).trans (ih _)

/-- **What a call does to the feeds.** -/
theorem feeds_effect (h : CallEffect pid w c w') :
    FeedsFollow (w.reported pid c) w.feeds w'.feeds := by
  cases h with
  | claim limit skipped picks jitters claimed feeds h =>
    obtain ⟨-, rfl, -⟩ := Feeds.claimDueFeeds_eq_some h
    exact feedsFollow_updateWhere (fun _ => rfl) (fun _ => rfl) fun _ _ => rfl
  | releaseStuck => exact feedsFollow_updateWhere (fun _ => rfl) (fun _ => rfl) fun _ _ => rfl
  | updateFeed => exact feedsFollow_updateWhere (fun _ => rfl) (fun _ => rfl) fun _ _ => rfl
  | reportFetch u => exact feedsFollow_updateAfterFetch _ u _
  | commit =>
    unfold commitTxn reported
    rcases ht : w.txn pid with _ | t
    · exact feedsFollow_refl _ _
    · exact feedsFollow_foldl ..
  | _ => exact feedsFollow_refl _ _

theorem sameUrls_effect (h : CallEffect pid w c w') : w.SameUrls w' := (feeds_effect h).url

theorem SameUrls.lookup {id : Nat} {f' : FeedRow} (h : w.SameUrls w')
    (hf' : Table.lookup FeedRow.id id w'.feeds = some f') :
    ∃ f, Table.lookup FeedRow.id id w.feeds = some f ∧ f.url = f'.url := by
  have hurl := h id
  rw [hf', Option.map_some] at hurl
  exact Option.map_eq_some_iff.mp hurl.symm

theorem ReportVouched.mono {entries entries' : List EntryRow} {u : Feeds.AfterFetch}
    (h : w.ReportVouched R rt entries u) (hurls : w.SameUrls w')
    (hsub : ∀ e ∈ entries, e ∈ entries') : w'.ReportVouched R rt entries' u := by
  intro f' hf'
  obtain ⟨f, hf, hurl⟩ := hurls.lookup hf'
  exact hurl ▸ (h f hf).mono hsub

/-- What a call may report, and which validators it may send. -/
def Permitted (R : String → FetchResponse → Prop) (rt : Runtime) (pid feedId : Nat) (w : World) :
    Call → Prop
  | .feed (.updateAfterFetch u) => w.ReportVouched R rt w.entries u
  | .ingest (.updateAfterFetch u) =>
    ∀ t, w.txn pid = some t → w.ReportVouched R rt (w.entries ++ t.entries) u
  | .net (.fetchFeed url etag lastModified) =>
    AllVouched R rt w.entries feedId url fun v => v.of etag lastModified
  | _ => True

theorem commit_effect (h : CallEffect pid w (.ingest .commit) w') :
    w' = w ∨ w' = w.commitTxn pid := by
  cases h with
  | none => exact .inl rfl
  | commit => exact .inr rfl

/-- The reports a call makes permanent are vouched for by what is stored then. -/
theorem reported_vouched {feedId : Nat} (h : w.Grounded R rt) (he : CallEffect pid w c w')
    (hne : w' ≠ w) (hc : w.Permitted R rt pid feedId c) :
    ∀ u ∈ w.reported pid c, w.ReportVouched R rt w'.entries u := by
  intro u hu
  unfold reported at hu
  split at hu
  · obtain rfl := List.mem_singleton.mp hu
    have hsame : w.SameUrls w := fun _ => rfl
    exact ReportVouched.mono hc hsame fun e he' => mem_entries_effect he he'
  · rcases commit_effect he with rfl | rfl
    · exact absurd rfl hne
    rcases ht : w.txn pid with _ | t
    · rw [ht] at hu
      cases hu
    · rw [ht] at hu
      have hentries : (w.commitTxn pid).entries = w.entries ++ t.entries := by rw [commitTxn, ht]
      rw [hentries]
      exact h.reports pid t ht u hu
  · cases hu

/-- The reports of the open transactions are the old ones, up to one that is staged. -/
theorem stagedReports_effect (h : CallEffect pid w c w') {q : Nat} {t' : Txn}
    (ht' : w'.txn q = some t') {u : Feeds.AfterFetch} (hu : u ∈ t'.feedUpdates) :
    (∃ t, w.txn q = some t ∧ u ∈ t.feedUpdates ∧ ∀ e ∈ t.entries, e ∈ t'.entries) ∨
      (q = pid ∧ c = .ingest (.updateAfterFetch u) ∧
        ∃ t, w.txn q = some t ∧ t'.entries = t.entries) := by
  rcases txnStep_effect h ht' with rfl | ⟨t, ht, hown, hstep⟩
  · cases hu
  · cases hstep with
    | entry => exact .inl ⟨t, ht, hu, fun e he => List.mem_append_left _ he⟩
    | report u' hc =>
      rcases List.mem_append.mp hu with hu | hu
      · exact .inl ⟨t, ht, hu, fun e he => he⟩
      · obtain rfl := List.mem_singleton.mp hu
        rcases hown with heq | hq
        · have hmem : u ∈ t.feedUpdates := heq ▸ List.mem_append_right _ (List.mem_singleton_self u)
          exact .inl ⟨t, ht, hmem, fun e he => he⟩
        · exact .inr ⟨hq, hc, t, ht, rfl⟩
    | _ => exact .inl ⟨_, ht, hu, fun e he => he⟩

/-- **A permitted call** keeps every validator vouched for. -/
theorem Grounded.effect {feedId : Nat} (h : w.Grounded R rt) (he : CallEffect pid w c w')
    (hc : w.Permitted R rt pid feedId c) : w'.Grounded R rt := by
  by_cases hne : w' = w
  · rwa [hne]
  have hmono : ∀ e ∈ w.entries, e ∈ w'.entries := fun e he' => mem_entries_effect he he'
  constructor
  · intro id f' hf' v tag htag
    obtain ⟨f, hf, hurl⟩ := (sameUrls_effect he).lookup hf'
    rw [← hurl]
    rcases (feeds_effect he).validator id f' hf' v tag htag with
      ⟨f₀, hf₀, hold⟩ | ⟨u, hu, rfl, hnew⟩
    · obtain rfl := Option.some.inj (hf.symm.trans hf₀)
      exact (h.rows id f hf).mono hmono v tag hold
    · exact reported_vouched h he hne hc u hu f hf v tag hnew
  · intro q t' ht' u hu
    rcases stagedReports_effect he ht' hu with ⟨t, ht, hut, hsub⟩ | ⟨rfl, rfl, t, ht, heq⟩
    · refine (h.reports q t ht u hut).mono (sameUrls_effect he) fun e he' => ?_
      rcases List.mem_append.mp he' with he' | he'
      · exact List.mem_append_left _ (hmono e he')
      · exact List.mem_append_right _ (hsub e he')
    · refine ReportVouched.mono (hc t ht) (sameUrls_effect he) fun e he' => ?_
      rw [heq]
      rcases List.mem_append.mp he' with he' | he'
      · exact List.mem_append_left _ (hmono e he')
      · exact List.mem_append_right _ he'

theorem grounded_quiet (h : w.Grounded R rt) (hquiet : System.QuietStep w w') :
    w'.Grounded R rt := by
  cases hquiet with
  | dropTxn pid =>
    refine ⟨h.rows, fun q t ht u hu => ?_⟩
    rw [txn_dropTxn] at ht
    obtain ⟨-, ht⟩ := Option.ite_none_left_eq_some.mp ht
    exact h.reports q t ht u hu
  | _ => exact ⟨h.rows, h.reports⟩

end World

/-! ## One fetch job among others -/

namespace ConditionalFetch

open World ProcessFeedJob

variable {R : String → FetchResponse → Prop} {rt : Runtime}
  {canonicalizeArticleLink : Option String → Option String} {pid : Nat} {w w' : World}
  {feed : FeedRow} {response : FetchResponse}

/-- What a server answers: with a `304`, no validator but the one it was asked about; otherwise,
something that counts as received. -/
def Truthful (R : String → FetchResponse → Prop) (c : Call) (out : Outcome) : Prop :=
  match c, out with
  | .net (.fetchFeed url etag lastModified), .ok (.response r) =>
    if r.statusCode = 304 then ∀ v tag, r.validator v = some tag → v.of etag lastModified = some tag
    else R url r
  | _, _ => True

/-- Only fetch jobs report, and fetch. -/
theorem permitted_of_mayIssue {feedId : Nat} {role : Role} {c : Call} (h : role.MayIssue c)
    (hrole : ∀ jobId feedId, role ≠ .fetchWorker jobId feedId) :
    w.Permitted R rt pid feedId c := by
  unfold World.Permitted
  cases role with
  | fetchWorker jobId feedId => exact absurd rfl (hrole jobId feedId)
  | _ => split <;> first | exact h.elim | trivial

/-- Every validator is vouched for; fetch jobs report, and send, only what is. -/
def vouching (R : String → FetchResponse → Prop) (rt : Runtime) : Protocol where
  holds := World.Grounded R rt
  allowed pid role w c :=
    role.MayIssue c ∧
      match role with
      | .fetchWorker _ feedId => w.Permitted R rt pid feedId c
      | _ => True
  env := Truthful R
  saved _ := True
  serve := by
    rintro pid role w w' c ch r h ⟨hmay, hjob⟩ hserve
    cases role with
    | fetchWorker jobId feedId => exact h.effect (serve_effect hserve) hjob
    | _ =>
      have hpermitted : w.Permitted R rt pid 0 c := permitted_of_mayIssue hmay nofun
      exact h.effect (serve_effect hserve) hpermitted
  quiet h hquiet _ := grounded_quiet h hquiet

/-- The rest of the job reports, and sends, only what is vouched for. -/
abbrev Vouches (R : String → FetchResponse → Prop) (rt : Runtime) (pid feedId : Nat) {α : Type}
    (p : Program α) (post : Except String α → World → Prop) : World → Prop :=
  Follows (Elsewhere pid) (Permitted R rt pid feedId) ((vouching R rt).Answered pid) p post

/-- The feed has been read, and its validators are vouched for. -/
structure Known (R : String → FetchResponse → Prop) (rt : Runtime) (feed : FeedRow) (w : World) :
    Prop where
  /-- it is fetched from its URL -/
  url : (Table.lookup FeedRow.id feed.id w.feeds).map FeedRow.url = some feed.url
  /-- its validators -/
  vouched : AllVouched R rt w.entries feed.id feed.url feed.validator

theorem Known.effect {q : Nat} {c : Call} (h : Known R rt feed w) (he : CallEffect q w c w') :
    Known R rt feed w' :=
  ⟨(sameUrls_effect he feed.id).trans h.url, h.vouched.mono fun _ he' => mem_entries_effect he he'⟩

theorem Known.quiet (h : Known R rt feed w) (hquiet : System.QuietStep w w') :
    Known R rt feed w' := by
  cases hquiet <;> exact ⟨h.url, h.vouched⟩

theorem stable_known : Stable (Elsewhere pid) (Known R rt feed) :=
  Persistent.stable ⟨fun he h => h.effect he, fun hquiet h => h.quiet hquiet⟩

/-- Calls that report no validator, and fetch nothing. -/
def Plain : Call → Prop
  | .feed (.updateAfterFetch u) => ∀ v, u.validator v = none
  | .ingest (.updateAfterFetch _) => False
  | .net (.fetchFeed ..) => False
  | _ => True

theorem permitted_of_plain {feedId : Nat} {c : Call} (hc : Plain c) :
    w.Permitted R rt pid feedId c := by
  unfold World.Permitted
  split
  · exact fun _ _ => allVouched_none hc
  · exact hc.elim
  · exact hc.elim
  · trivial

theorem handsOver_plain (c : Call) (h : HandsOver c) : Plain c := by
  unfold HandsOver at h
  split at h <;> trivial

/-- A program of plain calls. -/
theorem plain_vouches {α : Type} {p : Program α} (hp : Issues Plain p)
    (h : Known R rt feed w) :
    Vouches R rt pid feed.id p (fun _ w' => Known R rt feed w') w :=
  hp.follows stable_known (fun _ _ hc _ => permitted_of_plain hc)
    (fun _ _ _ _ _ hk ha => hk.effect ha.effect) h

/-! ### The transaction -/

/-- The transaction is open and holds the articles. -/
structure Staging (R : String → FetchResponse → Prop) (rt : Runtime) (pid : Nat) (feed : FeedRow)
    (es : List NormalizedEntry) (w : World) : Prop extends Known R rt feed w where
  /-- every article is stored or staged -/
  stored : Stored pid feed.id es w

/-- More articles, and the same transaction. -/
theorem stored_of_txn {es : List NormalizedEntry} (h : Stored pid feed.id es w)
    (hsub : ∀ e ∈ w.entries, e ∈ w'.entries) (htxn : w'.txn pid = w.txn pid) :
    Stored pid feed.id es w' := by
  obtain ⟨t, ht, hes⟩ := h
  refine ⟨t, htxn.trans ht, fun e he => ?_⟩
  obtain ⟨row, hrow, hc⟩ := List.any_eq_true.mp (hes e he)
  refine List.any_eq_true.mpr ⟨row, ?_, hc⟩
  rcases List.mem_append.mp hrow with hrow | hrow
  · exact List.mem_append_left _ (hsub row hrow)
  · exact List.mem_append_right _ hrow

theorem stable_staging {es : List NormalizedEntry} :
    Stable (Elsewhere pid) (Staging R rt pid feed es) := by
  refine stable_elsewhere (fun _ _ _ _ _ he htxn h => ?_) fun _ _ hquiet htxn h => ?_
  · exact ⟨h.toKnown.effect he,
      stored_of_txn h.stored (fun _ he' => mem_entries_effect he he') htxn⟩
  · refine ⟨h.toKnown.quiet hquiet, stored_of_txn h.stored (fun e he => ?_) htxn⟩
    rwa [(System.entries_quiet hquiet).1]

theorem Staging.effect {es : List NormalizedEntry} {c : Call} (h : Staging R rt pid feed es w)
    (he : CallEffect pid w c w') (hc : Stages c) : Staging R rt pid feed es w' :=
  ⟨h.toKnown.effect he, h.stored.stages he hc⟩

/-- Staging statements, up to the report. -/
def StagesPlainly (c : Call) : Prop := Stages c ∧ Plain c

theorem staging_vouches {α : Type} {p : Program α} {es : List NormalizedEntry}
    (hp : Issues StagesPlainly p) (h : Staging R rt pid feed es w) :
    Vouches R rt pid feed.id p (fun _ w' => Staging R rt pid feed es w') w :=
  hp.follows stable_staging (fun _ _ hc _ => permitted_of_plain hc.2)
    (fun _ _ _ _ hc hs ha => hs.effect ha.effect hc.1) h

theorem begin_vouches (h : Known R rt feed w) :
    Vouches R rt pid feed.id IngestClient.begin
      (fun r w' => Known R rt feed w' ∧ (∀ u, r = .ok u → Staging R rt pid feed [] w')) w := by
  refine follows_invoke stable_known h (fun _ _ => permitted_of_plain trivial) ?_
  intro v r v' hk ha
  refine ⟨hk.effect ha.effect, ?_⟩
  rintro u rfl
  refine ⟨hk.effect ha.effect, ?_⟩
  obtain ⟨ch, -, hserve⟩ := ha.serve
  obtain ⟨-, rfl⟩ := Prod.mk.inj (Option.some.inj hserve)
  exact ⟨Txn.empty, (txn_setTxn v pid pid _).trans (if_pos rfl), fun _ he => by cases he⟩

/-- **After the inserts** every article is stored or staged. -/
theorem insertMany_vouches {tenantId : String} {done es : List NormalizedEntry}
    (h : Staging R rt pid feed done w) :
    Vouches R rt pid feed.id (insertMany tenantId feed.id es)
      (fun r w' => Known R rt feed w' ∧
        (∀ rows, r = .ok rows → Staging R rt pid feed (done ++ es) w')) w := by
  induction es generalizing done w with
  | nil =>
    refine ⟨h.toKnown, fun _ _ => ?_⟩
    rwa [List.append_nil]
  | cons e es ih =>
    have hinsert : Vouches R rt pid feed.id
        (ingestCall (.insertEntry tenantId feed.id e))
        (fun r w' => Known R rt feed w' ∧
          (∀ row, r = .ok row → Staging R rt pid feed (done ++ [e]) w')) w := by
      refine follows_invoke stable_staging h (fun _ _ => permitted_of_plain trivial) ?_
      intro v r v' hs ha
      refine ⟨hs.toKnown.effect ha.effect, ?_⟩
      rintro row rfl
      refine ⟨hs.toKnown.effect ha.effect, ?_⟩
      obtain ⟨ch, -, hserve⟩ := ha.serve
      exact stored_insertEntry hserve hs.stored
    refine hinsert.bind (fun row w₁ h₁ => ?_) fun _ _ h₁ => ⟨h₁.1, nofun⟩
    refine (ih (h₁.2 row rfl)).bind (fun rows w₂ h₂ => ?_) fun _ _ h₂ => ⟨h₂.1, nofun⟩
    refine ⟨h₂.1, fun _ _ => ?_⟩
    have hstaged := h₂.2 rows rfl
    rwa [List.append_assoc] at hstaged

/-- The report of the response, after its articles. -/
theorem report_vouches {items : List FeedItem} {now : Nat}
    (hitems : rt.parseFeed response.body = .ok items) (hR : R feed.url response)
    (hlow : response.statusCode < 400) (hne : response.statusCode ≠ 304)
    (h : Staging R rt pid feed (items.map (Entries.normalizeItem rt)) w) :
    Vouches R rt pid feed.id (IngestClient.updateAfterFetch (successReport feed response now))
      (fun _ w' => Known R rt feed w') w := by
  refine follows_invoke stable_staging h ?_ fun _ _ _ hs ha => hs.toKnown.effect ha.effect
  intro v hs t ht f hf
  obtain ⟨t₀, ht₀, hall⟩ := hs.stored
  obtain rfl := Option.some.inj (ht₀.symm.trans ht)
  have hurl := hs.url
  change Table.lookup FeedRow.id feed.id v.feeds = some f at hf
  rw [hf, Option.map_some, Option.some.injEq] at hurl
  rw [hurl]
  intro validator tag htag
  refine ⟨response, hR, hlow, hne, htag, items, hitems, fun item hitem => ?_⟩
  exact hall _ (List.mem_map_of_mem hitem)

theorem createForEntryWithRules_stagesPlainly (matchesByEntry : MatchesByEntry) :
    Issues StagesPlainly
      (AlertsRepository.createForEntryWithRules canonicalizeArticleLink matchesByEntry) := by
  refine Issues.ite (fun _ => issues_pure _) fun _ => ?_
  refine Issues.bind (issues_invoke ⟨trivial, trivial⟩) fun rows => ?_
  refine Issues.ite (fun _ => issues_pure _) fun _ => ?_
  exact Issues.bind (issues_invoke ⟨trivial, trivial⟩) fun _ => issues_pure _

/-- From `BEGIN` to `COMMIT`. -/
theorem transaction_vouches {items : List FeedItem}
    (hitems : rt.parseFeed response.body = .ok items) (hR : R feed.url response)
    (hlow : response.statusCode < 400) (hne : response.statusCode ≠ 304)
    (h : Known R rt feed w) :
    Vouches R rt pid feed.id
      (transaction rt canonicalizeArticleLink feed response
        (items.map (Entries.normalizeItem rt)))
      (fun _ w' => Known R rt feed w') w := by
  refine (begin_vouches h).bind (fun u w₁ h₁ => ?_) fun _ _ h₁ => h₁.1
  refine (insertMany_vouches (h₁.2 u rfl)).bind (fun rows w₂ h₂ => ?_) fun _ _ h₂ => h₂.1
  have hstaged : Staging R rt pid feed (items.map (Entries.normalizeItem rt)) w₂ := h₂.2 rows rfl
  -- rules, alerts, log and clock
  refine (staging_vouches ?_ hstaged).bind (fun rules w₃ h₃ => ?_) fun _ _ h₃ => h₃.toKnown
  · exact issues_invoke ⟨trivial, trivial⟩
  refine (staging_vouches (createForEntryWithRules_stagesPlainly _) h₃).bind
    (fun outcome w₄ h₄ => ?_) fun _ _ h₄ => h₄.toKnown
  refine (staging_vouches ?_ h₄).bind (fun _ w₅ h₅ => ?_) fun _ _ h₅ => h₅.toKnown
  · exact issues_invoke ⟨trivial, trivial⟩
  refine (staging_vouches ?_ h₅).bind (fun now w₆ h₆ => ?_) fun _ _ h₆ => h₆.toKnown
  · exact issues_invoke ⟨trivial, trivial⟩
  refine (report_vouches hitems hR hlow hne h₆).bind (fun _ w₇ h₇ => ?_) fun _ _ h₇ => h₇
  exact plain_vouches (Issues.bind (issues_invoke trivial) fun _ => issues_pure _) h₇

/-! ### The job -/

theorem deliverAlerts_plain (alertIds : List Nat) : Issues Plain (deliverAlerts alertIds) :=
  (deliverAlerts_handsOver alertIds).mono handsOver_plain

theorem store_vouches {items : List FeedItem}
    (hitems : rt.parseFeed response.body = .ok items) (hR : R feed.url response)
    (hlow : response.statusCode < 400) (hne : response.statusCode ≠ 304)
    (h : Known R rt feed w) :
    Vouches R rt pid feed.id
      (store rt canonicalizeArticleLink feed response (items.map (Entries.normalizeItem rt)))
      (fun _ w' => Known R rt feed w') w := by
  refine (plain_vouches ?_ h).bind (fun _ w₁ h₁ => ?_) fun _ _ h₁ => h₁
  · exact issues_invoke trivial
  refine follows_tryFinally (follows_tryCatch ?_ fun _ _ h₂ => ?_) fun _ h₂ => plain_vouches ?_ h₂
  · refine (transaction_vouches hitems hR hlow hne h₁).bind (fun r w₂ h₂ => ?_) fun _ _ h₂ => h₂
    exact plain_vouches (Issues.bind (deliverAlerts_plain _) fun _ => issues_pure _) h₂
  · exact plain_vouches (Issues.bind (issues_invoke trivial) fun _ => issues_throw' _) h₂
  · exact issues_invoke trivial

/-- After a `304` nothing is reported but the validators that were sent. -/
theorem notModified_vouches
    (hsent : ∀ v tag, response.validator v = some tag → feed.validator v = some tag)
    (h : Known R rt feed w) :
    Vouches R rt pid feed.id (notModified feed response) (fun _ w' => Known R rt feed w') w := by
  refine (plain_vouches ?_ h).bind (fun _ w₁ h₁ => ?_) fun _ _ h₁ => h₁
  · exact issues_invoke trivial
  refine (plain_vouches ?_ h₁).bind (fun now w₂ h₂ => ?_) fun _ _ h₂ => h₂
  · exact issues_invoke trivial
  have hreport : Vouches R rt pid feed.id
      (FeedsRepository.updateAfterFetch (successReport feed response now))
      (fun _ w' => Known R rt feed w') w₂ := by
    refine follows_invoke stable_known h₂ ?_ fun _ _ _ hk ha => hk.effect ha.effect
    intro v hk f hf
    have hurl := hk.url
    change Table.lookup FeedRow.id feed.id v.feeds = some f at hf
    rw [hf, Option.map_some, Option.some.injEq] at hurl
    rw [hurl]
    exact fun validator tag htag => hk.vouched validator tag (hsent validator tag htag)
  exact hreport.bind (fun _ _ h₃ => h₃) fun _ _ h₃ => h₃

theorem fetchAndStore_vouches (h : Known R rt feed w) :
    Vouches R rt pid feed.id (fetchAndStore rt canonicalizeArticleLink feed)
      (fun _ w' => Known R rt feed w') w := by
  have hfetch : Vouches R rt pid feed.id
      (netCall (.fetchFeed feed.url feed.etag feed.lastModified))
      (fun r w' => Known R rt feed w' ∧ ∀ response : FetchResponse, r = .ok response →
        if response.statusCode = 304 then
          ∀ v tag, response.validator v = some tag → feed.validator v = some tag
        else R feed.url response) w := by
    refine follows_invoke stable_known h (fun _ hk => hk.vouched) fun v r v' hk ha => ?_
    refine ⟨hk.effect ha.effect, ?_⟩
    rintro response rfl
    obtain ⟨ch, htruth, hserve⟩ := ha.serve
    obtain ⟨a, ha, hpair⟩ := Option.map_eq_some_iff.mp hserve
    obtain ⟨rfl, -⟩ := Prod.mk.inj hpair
    cases ch with
    | response r =>
      obtain rfl := Option.some.inj ha
      exact htruth
    | _ => cases ha
  refine hfetch.bind (fun response w₁ h₁ => ?_) fun _ _ h₁ => h₁.1
  have hresponse := h₁.2 response rfl
  split
  · rename_i h304
    rw [if_pos h304] at hresponse
    exact notModified_vouches hresponse h₁.1
  rename_i h304
  rw [if_neg h304] at hresponse
  split
  · exact h₁.1
  rename_i hlow
  split
  · exact h₁.1
  · rename_i items hitems
    exact store_vouches hitems hresponse (Nat.lt_of_not_le hlow) h304 h₁.1

theorem handleFailure_plain (feed : FeedRow) (message : String) :
    Issues Plain (handleFailure rt feed message) := by
  refine Issues.bind (issues_invoke trivial) fun jitter => ?_
  refine Issues.bind (issues_invoke trivial) fun _ => ?_
  refine Issues.bind (issues_invoke trivial) fun now => ?_
  refine Issues.bind (issues_invoke fun v => Validator.of_none v) fun _ => ?_
  split
  · exact issues_throw' _
  · exact issues_pure _

/-- **A fetch job reports, and sends, only what is vouched for.** -/
theorem execute_vouches (feedId : Nat) (w : World) :
    Vouches R rt pid feedId (ProcessFeedJob.execute rt canonicalizeArticleLink feedId)
      (fun _ _ => True) w := by
  have hready : Vouches R rt pid feedId assertSchemaReady (fun _ _ => True) w :=
    follows_invoke stable_true trivial (fun _ _ => permitted_of_plain trivial) fun _ _ _ _ _ =>
      trivial
  refine hready.bind (fun _ w₁ _ => ?_) fun _ _ _ => trivial
  have hread : Vouches R rt pid feedId (FeedsRepository.findByIdForWorker feedId)
      (fun r w' => ∀ feed, r = .ok (some feed) → feed.id = feedId ∧ Known R rt feed w') w₁ := by
    refine follows_invoke stable_true trivial (fun _ _ => permitted_of_plain trivial) ?_
    rintro v r v' - ha feed rfl
    obtain ⟨ch, -, hserve⟩ := ha.serve
    obtain ⟨hrow, rfl⟩ := Prod.mk.inj (Option.some.inj hserve)
    change Table.lookup FeedRow.id feedId v.feeds = some feed at hrow
    have hid : feed.id = feedId := Table.key_of_lookup hrow
    subst hid
    exact ⟨rfl, by rw [hrow]; rfl, ha.1.rows _ feed hrow⟩
  refine hread.bind (fun found w₂ h₂ => ?_) fun _ _ _ => trivial
  cases found with
  | none => trivial
  | some feed =>
    obtain ⟨rfl, hk⟩ := h₂ feed rfl
    refine Meets.tryCatch (fetchAndStore_vouches hk) (fun _ _ _ => trivial) fun e w₃ h₃ => ?_
    exact (plain_vouches (handleFailure_plain feed e) h₃).mono fun _ _ _ => trivial

end ConditionalFetch

/-! ## Runs -/

namespace System

open Transition ConditionalFetch

variable {R : String → FetchResponse → Prop} {d : Deployment} {s s' : System}

/-- Where the step answers a fetch, it is answered truthfully. -/
def AnswersTruthfully (R : String → FetchResponse → Prop) (s : System) : Action → Prop
  | .advance pid out => ∀ role c k, s.procs pid = some ⟨role, .call c k⟩ → Truthful R c out
  | _ => True

/-- Every process starts by the protocol. -/
theorem launch_vouches {w w' : World} {a : Action} {pid : Nat} {role : Role}
    {prog : Program Unit} (h : Launch d w a pid role prog) :
    (vouching R d.rt).Keeps pid role prog (fun _ _ => True) w' := by
  have hroles := launch_issues h
  cases role with
  | fetchWorker jobId feedId =>
    cases h with
    | fetch pid jobId job hj =>
      have hjob : Vouches R d.rt pid job.data.feedId (fetchProgram d job.data.feedId)
          (fun _ _ => True) w' :=
        (execute_vouches job.data.feedId w').bind (fun _ _ _ => trivial) fun _ _ _ => trivial
      exact hroles.and_follows hjob
  | _ =>
    refine Protocol.keeps_of_issues hroles ?_ w'
    exact fun w c hmay => ⟨hmay, trivial⟩

/-- **Each validator of a feed, and each one that is sent**, is that of a document received from
the feed's URL, every article of which is stored, in every run in which servers answer
truthfully. -/
theorem validators_vouched {s₀ : System} (h₀ : s₀.Init)
    (hrows : ∀ id f, Table.lookup FeedRow.id id s₀.world.feeds = some f →
      AllVouched R d.rt s₀.world.entries id f.url f.validator)
    {as : List Action} (h : Along (step d) (fun s a _ => s.AnswersTruthfully R a) s₀ as) :
    Always (step d) (fun s =>
      (∀ id f, Table.lookup FeedRow.id id s.world.feeds = some f →
        AllVouched R d.rt s.world.entries id f.url f.validator) ∧
      ∀ pid jobId feedId url etag lastModified k,
        s.procs pid = some ⟨.fetchWorker jobId feedId,
          .call (.net (.fetchFeed url etag lastModified)) k⟩ →
        AllVouched R d.rt s.world.entries feedId url fun v => v.of etag lastModified) s₀ as := by
  have hgrounded : s₀.world.Grounded R d.rt := by
    refine ⟨hrows, fun pid t ht => ?_⟩
    rw [World.txn, h₀.txns] at ht
    cases ht
  have halways := Protocol.always_abides (P := vouching R d.rt)
    (fun _ _ _ _ _ _ hl => launch_vouches hl) h₀ hgrounded (h.mono (J := fun _ => True)
      (fun _ _ _ _ _ => trivial) (fun _ a _ _ _ ha => by cases a <;> exact ha) trivial)
  refine halways.mono fun s hs => ⟨hs.holds.rows, ?_⟩
  intro pid jobId feedId url etag lastModified k hp
  exact ((hs.procs pid _ hp).next_allowed (World.rely_elsewhere pid)).2

/-- The article, under a tag. -/
def taggedResponse : FetchResponse := { articleResponse with etag := some "v1" }

/-- The answer that nothing has changed. -/
def unchangedResponse : FetchResponse :=
  { statusCode := 304, body := "", etag := some "v1", lastModified := none, durationMs := 5 }

/-- The feed after its first fetch, at the next check. -/
def taggedFeed : FeedRow :=
  { dueFeed with
    etag := some "v1"
    avgResponseMs := some 10
    lastCheckedAt := some 1000000
    nextCheckAt := 2800000
    updatedAt := 1000000 }

/-- A test for truthful answers, where the article is all that is received. -/
def answersTruthfully? (s : System) : Action → Bool
  | .advance pid out =>
    match s.procs pid, out with
    | some ⟨_, .call (.net (.fetchFeed _ etag lastModified)) _⟩, .ok (.response r) =>
      if r.statusCode = 304 then
        (r.etag = none || r.etag = etag) && (r.lastModified = none || r.lastModified = lastModified)
      else r = taggedResponse
    | _, _ => true
  | _ => true

theorem answersTruthfully_of_test {a : Action} (h : s.answersTruthfully? a = true) :
    s.AnswersTruthfully (fun _ r => r = taggedResponse) a := by
  cases a with
  | advance pid out =>
    intro role c k hp
    simp only [answersTruthfully?, hp] at h
    unfold Truthful
    split
    · rename_i url etag lastModified r
      simp only at h
      split
      · rename_i h304
        simp only [h304, if_true, Bool.and_eq_true, Bool.or_eq_true, decide_eq_true_eq] at h
        intro v tag htag
        cases v with
        | etag => exact h.1.elim (fun hn => by cases hn.symm.trans htag) fun he => he ▸ htag
        | lastModified => exact h.2.elim (fun hn => by cases hn.symm.trans htag) fun he => he ▸ htag
      · rename_i h304
        simpa [h304] using h
    · trivial
  | _ => trivial

/-- The article is fetched under a tag, and half an hour later it has not changed. -/
def fetchTwice : List Action :=
  schedulerTick 1 [dueFeed] ++
    .takeFetch 2 "feed-1" :: proceed 2 2 ++ [.advance 2 (.ok (.response taggedResponse))] ++
    proceed 2 15 ++ [.finish 2, .elapse 1800000] ++
    schedulerTick 1 [taggedFeed] ++
    .takeFetch 2 "feed-1" :: proceed 2 2 ++ [.advance 2 (.ok (.response unchangedResponse))] ++
    proceed 2 3 ++ [.finish 2]

theorem validators_vouched_twice :
    ((run (step webhookDeployment) oneFeed fetchTwice).map
        fun s => s.world.fetchLogs.map FetchLogRow.statusCode) = some [some 200, some 304] ∧
      Always (step webhookDeployment) (fun s =>
        (∀ id f, Table.lookup FeedRow.id id s.world.feeds = some f →
          AllVouched (fun _ r => r = taggedResponse) webhookDeployment.rt s.world.entries id f.url
            f.validator) ∧
        ∀ pid jobId feedId url etag lastModified k,
          s.procs pid = some ⟨.fetchWorker jobId feedId,
            .call (.net (.fetchFeed url etag lastModified)) k⟩ →
          AllVouched (fun _ r => r = taggedResponse) webhookDeployment.rt s.world.entries feedId
            url fun v => v.of etag lastModified) oneFeed fetchTwice := by
  refine ⟨by decide, validators_vouched oneFeed_init ?_ ?_⟩
  · intro id f hf
    have hmem : f ∈ [dueFeed] := Table.mem_of_lookup hf
    obtain rfl := List.mem_singleton.mp hmem
    exact allVouched_none fun v => Validator.of_none v
  · have htest : Along (step webhookDeployment) (fun s a _ => s.answersTruthfully? a = true)
        oneFeed fetchTwice := by decide
    exact htest.mono (J := fun _ => True) (fun _ _ _ _ _ => trivial)
      (fun _ _ _ _ _ h => answersTruthfully_of_test h) trivial

end System

end Feedpulse
