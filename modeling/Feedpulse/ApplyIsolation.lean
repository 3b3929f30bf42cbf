import Feedpulse.FeedKeys
import Feedpulse.FeedUpsert
import Feedpulse.OpmlPreview

/-!
# Items whose upsert fails

The apply job catches the error of an item and goes on with the next one, but all of its items
share one transaction. An error of the database fails that transaction, so the item cannot even
be marked as failed, and everything is rolled back. An error that does not come from the database
leaves the transaction open, and concerns its item only. `apply_isolates_iff` says what this makes
of a job: failing upserts stay with their items exactly if there are none.
-/

namespace Feedpulse

open Prog (exec exec_invoke exec_bind_ok exec_bind_error exec_tryCatch_ok exec_tryCatch_error
  exec_finallyDo)

/-- `findFeedByHashOrUrl`, on the keys of the feeds. -/
def FeedKey.findByHashOrUrl (tenantId normalizedHash url : String) (keys : List FeedKey) :
    Option FeedKey :=
  (keys.find? fun k => k.tenantId = tenantId && k.normalizedUrlHash = some normalizedHash).or
    (keys.find? fun k => k.tenantId = tenantId && k.url = url)

theorem FeedKey.findByHashOrUrl_map (tenantId normalizedHash url : String)
    (feeds : List FeedRow) :
    findByHashOrUrl tenantId normalizedHash url (feeds.map FeedRow.key)
      = (OpmlImports.findFeedByHashOrUrl tenantId normalizedHash url feeds).map FeedRow.key := by
  rw [findByHashOrUrl, List.find?_map, List.find?_map, ← Option.map_or]
  rfl

namespace ProcessOpmlApplyJob

open ProcessOpmlParseJob (exec_markImportStatus exec_markImportStatus_pool lookup_markImportStatus)

/-! ## A job in which some upserts fail -/

/-- What happens to the calls of the job. -/
structure Faults where
  /-- the error of the database that the upsert of a URL raises, if any -/
  raised : String → Option String
  /-- the random source -/
  random : OpmlWorld → Nat → Nat
  /-- its numbers are below the bound -/
  random_lt : ∀ w bound, 0 < bound → random w bound < bound

/-- How a call is answered: all succeed but the upserts that raise an error. -/
def Faults.outcome (f : Faults) (w : OpmlWorld) : OpmlCall → Outcome
  | .statement .client (.insertFeedOrNothing _ url _ _) =>
    match f.raised url with
    | some error => .refused error
    | none => .ok .none
  | .core (.random bound) => .ok (.random (f.random w bound))
  | _ => .ok .none

/-- A call of the process `pid`. -/
def faulted (f : Faults) (pid : Nat) (w : OpmlWorld) (c : OpmlCall) :
    Option (Except String c.Reply × OpmlWorld) :=
  c.answer pid w (f.outcome w c)

/-- The URL of an item for which the loop comes to an upsert. -/
def upsertUrl (item : OpmlImportItemRow) : Option String :=
  item.input.normalizedUrl.filter fun url => url ≠ ""

/-- The upsert of an item raises an error. -/
def Raises (f : Faults) (item : OpmlImportItemRow) : Prop :=
  ∃ url, upsertUrl item = some url ∧ (f.raised url).isSome = true

variable (cfg : OpmlConfig) (rt : OpmlRuntime) (tenantId : String)

/-- The tenant's feed with the hash of a URL, else the one with the URL itself, has the URL as
its normal form. -/
def Clear (keys : List FeedKey) (url : String) : Prop :=
  ∀ key, FeedKey.findByHashOrUrl tenantId (FeedUrl.buildNormalizedFeedUrlHash rt.toUrlRuntime url)
      url keys = some key →
    FeedUrl.normalizeFeedUrl rt.toUrlRuntime cfg.allowPrivateFeedHosts key.url = .ok url

/-- The keys after an insertion that does nothing where a key is in its way. -/
def keysAfter (url : String) (keys : List FeedKey) : List FeedKey :=
  let hash := some (FeedUrl.buildNormalizedFeedUrlHash rt.toUrlRuntime url)
  if keys.any (FeedKey.conflicts tenantId url hash) then keys
  else keys ++ [{ tenantId := tenantId, url := url, normalizedUrlHash := hash }]

/-- Every item has a URL, and none is in conflict with the feeds there are, or with those of the
items before it. -/
def Resolves : List FeedKey → List OpmlImportItemRow → Prop
  | _, [] => True
  | keys, item :: items => ∃ url, upsertUrl item = some url ∧ Clear cfg rt tenantId keys url ∧
    Resolves (keysAfter rt tenantId url keys) items

/-- The item with this id has this status. -/
def HasStatus (itemId : Nat) (status : OpmlItemStatus) (items : List OpmlImportItemRow) : Prop :=
  ∃ row, Table.lookup OpmlImportItemRow.id itemId items = some row ∧
    row.input.itemStatus = status

/-- An item is imported, and its feed stored: one of the tenant with the URL of the item, or
with this URL as its normal form. -/
def ImportedIn (feeds : List FeedRow) (items : List OpmlImportItemRow) (item : OpmlImportItemRow) :
    Prop :=
  ∃ url row, upsertUrl item = some url ∧
    Table.lookup OpmlImportItemRow.id item.id items = some row ∧
    row.input.itemStatus = .imported ∧
    ∃ feed ∈ feeds, row.feedId = some feed.id ∧ feed.tenantId = tenantId ∧
      (feed.url = url ∨
        FeedUrl.normalizeFeedUrl rt.toUrlRuntime cfg.allowPrivateFeedHosts feed.url = .ok url)

/-- Exactly the candidates whose upserts raise an error have failed, and the others are
imported. -/
structure Isolated (f : Faults) (candidates : List OpmlImportItemRow) (w : OpmlWorld) : Prop where
  /-- the candidates that have failed -/
  failed_iff : ∀ item ∈ candidates, HasStatus item.id .failed w.items ↔ Raises f item
  /-- the other candidates -/
  imported : ∀ item ∈ candidates, ¬Raises f item →
    ImportedIn cfg rt tenantId w.core.feeds w.items item

variable {cfg : OpmlConfig} {rt : OpmlRuntime} {tenantId : String}

/-! ## Rounds of the loop -/

section Rounds

variable {item : OpmlImportItemRow} {items rows : List OpmlImportItemRow} {t t' t'' : OpmlTables}

/-- What a round of the loop makes of the tables. -/
structure Round (cfg : OpmlConfig) (rt : OpmlRuntime) (tenantId : String)
    (item : OpmlImportItemRow) (t t' : OpmlTables) : Prop where
  /-- feeds come in -/
  feeds : ∃ added, t'.feeds = t.feeds ++ added
  /-- the other items stay as they are -/
  others : ∀ itemId, itemId ≠ item.id → Table.lookup OpmlImportItemRow.id itemId t'.items
    = Table.lookup OpmlImportItemRow.id itemId t.items
  /-- an item without conflict is imported -/
  imported : ∀ url, upsertUrl item = some url →
    Clear cfg rt tenantId (t.feeds.map FeedRow.key) url →
    ImportedIn cfg rt tenantId t'.feeds t'.items item ∧
      t'.feeds.map FeedRow.key = keysAfter rt tenantId url (t.feeds.map FeedRow.key)
  /-- any other item fails -/
  failed : (∀ url, upsertUrl item = some url →
    ¬Clear cfg rt tenantId (t.feeds.map FeedRow.key) url) → HasStatus item.id .failed t'.items

/-- What the loop makes of the tables. -/
structure Rounds (cfg : OpmlConfig) (rt : OpmlRuntime) (tenantId : String)
    (items : List OpmlImportItemRow) (t t' : OpmlTables) : Prop where
  /-- feeds come in -/
  feeds : ∃ added, t'.feeds = t.feeds ++ added
  /-- the other items stay as they are -/
  others : ∀ itemId, itemId ∉ items.map OpmlImportItemRow.id →
    Table.lookup OpmlImportItemRow.id itemId t'.items
      = Table.lookup OpmlImportItemRow.id itemId t.items
  /-- without conflict, all items are imported -/
  imported : Resolves cfg rt tenantId (t.feeds.map FeedRow.key) items →
    ∀ item ∈ items, ImportedIn cfg rt tenantId t'.feeds t'.items item
  /-- otherwise, one of them fails -/
  failed : ¬Resolves cfg rt tenantId (t.feeds.map FeedRow.key) items →
    ∃ item ∈ items, HasStatus item.id .failed t'.items

/-- An imported item stays one while feeds come in and its row is left alone. -/
theorem ImportedIn.mono (h : ImportedIn cfg rt tenantId t.feeds t.items item)
    (hfeeds : ∃ added, t'.feeds = t.feeds ++ added)
    (hrow : Table.lookup OpmlImportItemRow.id item.id t'.items
      = Table.lookup OpmlImportItemRow.id item.id t.items) :
    ImportedIn cfg rt tenantId t'.feeds t'.items item := by
  obtain ⟨url, row, hurl, hlookup, hstatus, feed, hfeed, hrest⟩ := h
  obtain ⟨added, hadded⟩ := hfeeds
  refine ⟨url, row, hurl, hrow.trans hlookup, hstatus, feed, ?_, hrest⟩
  rw [hadded]
  exact List.mem_append_left _ hfeed

theorem Rounds.nil (t : OpmlTables) : Rounds cfg rt tenantId [] t t where
  feeds := ⟨[], (List.append_nil _).symm⟩
  others _ _ := rfl
  imported _ _ h := absurd h List.not_mem_nil
  failed h := absurd trivial h

/-- Only feeds and items matter. -/
theorem Rounds.congr {t₁ t₁' : OpmlTables} (h : Rounds cfg rt tenantId items t t')
    (hfeeds : t.feeds = t₁.feeds) (hitems : t.items = t₁.items) (hfeeds' : t₁'.feeds = t'.feeds)
    (hitems' : t₁'.items = t'.items) : Rounds cfg rt tenantId items t₁ t₁' := by
  obtain ⟨hadded, hothers, himported, hfailed⟩ := h
  rw [hfeeds, ← hfeeds'] at hadded
  rw [← hitems', hitems] at hothers
  rw [hfeeds, ← hfeeds', ← hitems'] at himported
  rw [hfeeds, ← hitems'] at hfailed
  exact ⟨hadded, hothers, himported, hfailed⟩

/-- A round before the others. -/
theorem Rounds.cons (hfresh : item.id ∉ items.map OpmlImportItemRow.id)
    (hround : Round cfg rt tenantId item t t') (hrounds : Rounds cfg rt tenantId items t' t'') :
    Rounds cfg rt tenantId (item :: items) t t'' where
  feeds := by
    obtain ⟨added, hadded⟩ := hround.feeds
    obtain ⟨added', hadded'⟩ := hrounds.feeds
    exact ⟨added ++ added', by rw [hadded', hadded, List.append_assoc]⟩
  others itemId hitem := by
    obtain ⟨hne, hnot⟩ := not_or.mp (List.mem_cons.not.mp hitem)
    rw [hrounds.others itemId hnot, hround.others itemId hne]
  imported := by
    rintro ⟨url, hurl, hclear, hrest⟩ other hother
    obtain ⟨himported, hkeys⟩ := hround.imported url hurl hclear
    rcases List.mem_cons.mp hother with rfl | hother
    · exact himported.mono hrounds.feeds (hrounds.others _ hfresh)
    · refine hrounds.imported ?_ other hother
      rw [hkeys]
      exact hrest
  failed hnot := by
    by_cases hhead : ∃ url, upsertUrl item = some url ∧
        Clear cfg rt tenantId (t.feeds.map FeedRow.key) url
    · -- the conflict is with a later item
      obtain ⟨url, hurl, hclear⟩ := hhead
      obtain ⟨-, hkeys⟩ := hround.imported url hurl hclear
      obtain ⟨other, hother, hfailed⟩ := hrounds.failed fun hrest =>
        hnot ⟨url, hurl, hclear, by rwa [hkeys] at hrest⟩
      exact ⟨other, List.mem_cons_of_mem _ hother, hfailed⟩
    · obtain ⟨row, hrow, hstatus⟩ := hround.failed fun url hurl hclear =>
        hhead ⟨url, hurl, hclear⟩
      exact ⟨item, List.mem_cons_self, row, (hrounds.others _ hfresh).trans hrow, hstatus⟩

/-- The row of an item after a change of it. -/
theorem lookup_updateItem {g : OpmlImportItemRow → OpmlImportItemRow} (hg : ∀ i, (g i).id = i.id)
    {row : OpmlImportItemRow} {itemId : Nat}
    (h : Table.lookup OpmlImportItemRow.id itemId rows = some row) :
    Table.lookup OpmlImportItemRow.id itemId (Table.updateWhere (fun i => i.id = itemId) g rows)
      = some (g row) := by
  rw [Table.lookup_updateWhere hg, h, Option.map_some, if_pos (by simp [Table.key_of_lookup h])]

/-- The rows of the other items. -/
theorem lookup_updateItem_of_ne {g : OpmlImportItemRow → OpmlImportItemRow}
    (hg : ∀ i, (g i).id = i.id) {itemId other : Nat} (hne : other ≠ itemId) :
    Table.lookup OpmlImportItemRow.id other (Table.updateWhere (fun i => i.id = itemId) g rows)
      = Table.lookup OpmlImportItemRow.id other rows := by
  rw [Table.lookup_updateWhere hg]
  rcases h : Table.lookup OpmlImportItemRow.id other rows with _ | row
  · rfl
  · rw [Option.map_some, if_neg (by simp [Table.key_of_lookup h, hne])]

end Rounds

/-! ## The upsert -/

section Upsert

variable {f : Faults} {pid : Nat} {w : OpmlWorld} {t : OpmlTxn} {q : OpmlSequences}
variable {item : OpmlImportItemRow}

/-- The calls no fault concerns. -/
def Faultless (f : Faults) (c : OpmlCall) : Prop := ∀ w, f.outcome w c = .ok .none

theorem faulted_eq {c : OpmlCall} (h : f.outcome w c = .ok .none) :
    faulted f pid w c = answered pid w c := by
  rw [faulted, answered, h]

/-- A program without upserts runs as if there were no faults. -/
theorem exec_faulted {α : Type} {p : OpmlProgram α} (hp : Prog.Issues (Faultless f) p) :
    exec (faulted f pid) p w = exec (answered pid) p w := by
  induction p generalizing w with
  | ret a => rfl
  | throw e => rfl
  | call c k ih =>
    obtain ⟨hc, hk⟩ := Prog.issues_call.mp hp
    rw [exec, exec, faulted_eq (hc w)]
    rcases answered pid w c with _ | ⟨r, w'⟩
    · rfl
    · exact ih r (hk r)

theorem exec_jitter {bound : Nat} (h : 0 < bound) :
    exec (faulted f pid) (ofCore (random bound)) w = some (.ok (f.random w bound), w) := by
  have hanswer : faulted f pid w (.core (.random bound)) = some (.ok (f.random w bound), w) := by
    simp [faulted, Faults.outcome, OpmlCall.answer, Call.answer, Call.serve,
      f.random_lt w bound h]
  rw [random, Prog.invoke, ofCore, exec, hanswer]
  rfl

/-- An insertion that raises no error is answered as in any other job. -/
theorem faulted_insertFeed {url : String} (h : f.raised url = none) (hash : String)
    (jitter : Nat) (v : OpmlWorld) :
    faulted f pid v (.statement .client (.insertFeedOrNothing tenantId url hash jitter))
      = answered pid v (.statement .client (.insertFeedOrNothing tenantId url hash jitter)) := by
  simp only [faulted, answered, Faults.outcome, h]

/-- What an upsert ends with, from the feeds before it to those after it. -/
def Upserted (cfg : OpmlConfig) (rt : OpmlRuntime) (tenantId url : String)
    (feeds feeds' : List FeedRow) : Except String UpsertFeedResult → Prop
  | .ok upsert =>
    if upsert.collision then ¬Clear cfg rt tenantId (feeds.map FeedRow.key) url
    else Clear cfg rt tenantId (feeds.map FeedRow.key) url ∧
      feeds'.map FeedRow.key = keysAfter rt tenantId url (feeds.map FeedRow.key) ∧
      ∃ feed ∈ feeds', feed.id = upsert.feedId ∧ feed.tenantId = tenantId ∧
        (feed.url = url ∨
          FeedUrl.normalizeFeedUrl rt.toUrlRuntime cfg.allowPrivateFeedHosts feed.url = .ok url)
  | .error _ => ¬Clear cfg rt tenantId (feeds.map FeedRow.key) url

variable (cfg rt tenantId pid)

/-- The feed is new: it is inserted. -/
theorem exec_upsertFeed_free (hopen : t.aborted = false) {url : String}
    (hraised : f.raised url = none)
    (hfree : (w.view t).feeds.any (OpmlImports.feedConflicts tenantId url
      (some (FeedUrl.buildNormalizedFeedUrlHash rt.toUrlRuntime url))) = false) :
    ∃ row upsert q', exec (faulted f pid) (upsertFeed cfg rt tenantId url) (w.inTxn pid t q)
        = some (.ok upsert, w.inTxn pid (t.write (.insertFeed row)) q') ∧
      Upserted cfg rt tenantId url (w.view t).feeds ((w.view t).feeds ++ [row])
        (.ok upsert) := by
  have hjitter : exec (faulted f pid)
      (ofCore (random (max 1 cfg.opmlInitialJitterMaxSeconds))) (w.inTxn pid t q) = _ :=
    exec_jitter (by omega)
  obtain ⟨jitter, hj⟩ : ∃ jitter, jitter =
      f.random (w.inTxn pid t q) (max 1 cfg.opmlInitialJitterMaxSeconds) := ⟨_, rfl⟩
  rw [← hj] at hjitter
  obtain ⟨row, hrow⟩ : ∃ row, row = OpmlImports.newFeed t.startedAt q.feedId tenantId url
      (some (FeedUrl.buildNormalizedFeedUrlHash rt.toUrlRuntime url)) 1800 .active jitter :=
    ⟨_, rfl⟩
  have heval : (OpmlStatement.insertFeedOrNothing tenantId url
      (FeedUrl.buildNormalizedFeedUrlHash rt.toUrlRuntime url) jitter).eval t.startedAt q
        (w.view t) = (.ok (some row), some (.insertFeed row)) := by
    simp only [OpmlStatement.eval, hfree, Bool.false_eq_true, if_false, hrow]
  have hinsert : exec (faulted f pid) (opmlStatement .client (.insertFeedOrNothing tenantId url
      (FeedUrl.buildNormalizedFeedUrlHash rt.toUrlRuntime url) jitter)) (w.inTxn pid t q) = _ :=
    exec_invoke ((faulted_insertFeed hraised _ _ _).trans (answered_write hopen heval))
  refine ⟨row, { feedId := row.id, created := true, collision := false },
    OpmlWrite.advance q (.insertFeed row), ?_, ?_⟩
  · rw [upsertFeed, exec_bind_ok hjitter, exec_bind_ok hinsert]
    rfl
  · have hkey : row.key = ⟨tenantId, url,
        some (FeedUrl.buildNormalizedFeedUrlHash rt.toUrlRuntime url)⟩ := by
      rw [hrow]
      rfl
    rw [Upserted, if_neg Bool.false_ne_true]
    refine ⟨?_, ?_, row, List.mem_append_right _ List.mem_cons_self, rfl, ?_, .inl ?_⟩
    · intro key hfound
      rw [FeedKey.findByHashOrUrl_map] at hfound
      obtain ⟨feed, hfeed, -⟩ := Option.map_eq_some_iff.mp hfound
      obtain ⟨hmem, htenant, hkey⟩ := findFeedByHashOrUrl_eq_some hfeed
      have howns : ProcessOpmlParseJob.Owns tenantId (w.view t).feeds
        (FeedUrl.buildNormalizedFeedUrlHash rt.toUrlRuntime url) url := ⟨feed, hmem, htenant, hkey⟩
      rw [owns_iff_conflict.mp howns] at hfree
      cases hfree
    · rw [← FeedKey.any_conflicts] at hfree
      rw [keysAfter, hfree, List.map_append, List.map_singleton, hkey]
      rfl
    · rw [hrow]
      rfl
    · rw [hrow]
      rfl

/-- A feed stands in the way: it is found, and its normal form decides. -/
theorem exec_upsertFeed_taken (hopen : t.aborted = false) {url : String}
    (hraised : f.raised url = none)
    (htaken : (w.view t).feeds.any (OpmlImports.feedConflicts tenantId url
      (some (FeedUrl.buildNormalizedFeedUrlHash rt.toUrlRuntime url))) = true) :
    ∃ r, exec (faulted f pid) (upsertFeed cfg rt tenantId url) (w.inTxn pid t q)
        = some (r, w.inTxn pid t q) ∧
      Upserted cfg rt tenantId url (w.view t).feeds (w.view t).feeds r := by
  have hjitter : exec (faulted f pid)
      (ofCore (random (max 1 cfg.opmlInitialJitterMaxSeconds))) (w.inTxn pid t q) = _ :=
    exec_jitter (by omega)
  obtain ⟨jitter, hj⟩ : ∃ jitter, jitter =
      f.random (w.inTxn pid t q) (max 1 cfg.opmlInitialJitterMaxSeconds) := ⟨_, rfl⟩
  rw [← hj] at hjitter
  obtain ⟨hash, hhash⟩ : ∃ hash, hash = FeedUrl.buildNormalizedFeedUrlHash rt.toUrlRuntime url :=
    ⟨_, rfl⟩
  rw [← hhash] at htaken
  have heval : (OpmlStatement.insertFeedOrNothing tenantId url hash jitter).eval t.startedAt q
      (w.view t) = (.ok none, none) := by
    simp only [OpmlStatement.eval, htaken, if_true]
  have hinsert : exec (faulted f pid) (opmlStatement .client
      (.insertFeedOrNothing tenantId url hash jitter)) (w.inTxn pid t q) = _ :=
    exec_invoke ((faulted_insertFeed hraised _ _ _).trans (answered_read hopen heval))
  obtain ⟨existing, hexisting⟩ := findFeedByHashOrUrl_of_owns (owns_iff_conflict.mpr htaken)
  obtain ⟨hmem, htenant, -⟩ := findFeedByHashOrUrl_eq_some hexisting
  have hlookup : (OpmlStatement.findFeedByHashOrUrl tenantId hash url).eval t.startedAt q
      (w.view t) = (.ok (some existing), none) := by
    simp only [OpmlStatement.eval, hexisting]
  have hfound : exec (faulted f pid) (opmlStatement .client
      (.findFeedByHashOrUrl tenantId hash url)) (w.inTxn pid t q) = _ :=
    exec_invoke ((faulted_eq rfl).trans (answered_read hopen hlookup))
  have hclear : Clear cfg rt tenantId ((w.view t).feeds.map FeedRow.key) url ↔
      FeedUrl.normalizeFeedUrl rt.toUrlRuntime cfg.allowPrivateFeedHosts existing.url
        = .ok url := by
    rw [Clear, ← hhash, FeedKey.findByHashOrUrl_map, hexisting, Option.map_some]
    exact ⟨fun h => h existing.key rfl, fun h key hkey => Option.some.inj hkey ▸ h⟩
  have hkeys : (w.view t).feeds.map FeedRow.key
      = keysAfter rt tenantId url ((w.view t).feeds.map FeedRow.key) := by
    rw [← FeedKey.any_conflicts] at htaken
    rw [keysAfter, ← hhash, htaken]
    rfl
  have hrun : ∀ r, FeedUrl.normalizeFeedUrl rt.toUrlRuntime cfg.allowPrivateFeedHosts
        existing.url = r →
      exec (faulted f pid) (upsertFeed cfg rt tenantId url) (w.inTxn pid t q)
        = some (r.map fun existingUrl =>
            { feedId := existing.id, created := false, collision := existingUrl ≠ url },
          w.inTxn pid t q) := by
    intro r hnormal
    rw [upsertFeed, exec_bind_ok hjitter, ← hhash, exec_bind_ok hinsert]
    dsimp only
    rw [exec_bind_ok hfound]
    cases r with
    | error message =>
      simp only [hnormal]
      rfl
    | ok existingUrl => simp [hnormal, Except.map]
  rcases hnormal : FeedUrl.normalizeFeedUrl rt.toUrlRuntime cfg.allowPrivateFeedHosts
      existing.url with message | existingUrl
  · rw [hnormal] at hclear
    exact ⟨_, hrun _ hnormal, fun h => by cases hclear.mp h⟩
  · rw [hnormal] at hclear
    refine ⟨_, hrun _ hnormal, ?_⟩
    by_cases hsame : existingUrl = url
    · obtain rfl := hsame
      refine (if_neg (by simp)).mpr ⟨hclear.mpr rfl, hkeys, existing, hmem, rfl, htenant, ?_⟩
      exact .inr hnormal
    · refine (if_pos (by simpa using hsame)).mpr fun h => hsame ?_
      exact Except.ok.inj (hclear.mp h)

/-- **The upsert** of a URL that raises no error leaves the transaction open. -/
theorem exec_upsertFeed (hopen : t.aborted = false) {url : String}
    (hraised : f.raised url = none) :
    ∃ r t' q', exec (faulted f pid) (upsertFeed cfg rt tenantId url) (w.inTxn pid t q)
        = some (r, w.inTxn pid t' q') ∧
      t'.aborted = false ∧ (w.view t').imports = (w.view t).imports ∧
      (w.view t').items = (w.view t).items ∧
      (∃ added, (w.view t').feeds = (w.view t).feeds ++ added) ∧
      Upserted cfg rt tenantId url (w.view t).feeds (w.view t').feeds r := by
  rcases hconflict : (w.view t).feeds.any (OpmlImports.feedConflicts tenantId url
      (some (FeedUrl.buildNormalizedFeedUrlHash rt.toUrlRuntime url))) with _ | _
  · obtain ⟨row, upsert, q', hexec, hupserted⟩ :=
      exec_upsertFeed_free cfg rt tenantId pid (q := q) hopen hraised hconflict
    have hview := w.view_write t (.insertFeed row)
    refine ⟨_, _, q', hexec, hopen, ?_, ?_, ⟨[row], ?_⟩, ?_⟩
    · rw [hview]
      rfl
    · rw [hview]
      rfl
    · rw [hview]
      rfl
    · rw [hview]
      exact hupserted
  · obtain ⟨r, hexec, hupserted⟩ :=
      exec_upsertFeed_taken cfg rt tenantId pid (q := q) hopen hraised hconflict
    exact ⟨r, t, q, hexec, hopen, rfl, rfl, ⟨[], (List.append_nil _).symm⟩, hupserted⟩

end Upsert

/-! ## The loop -/

section Loop

variable {f : Faults} {pid : Nat} {w : OpmlWorld} {t : OpmlTxn} {q : OpmlSequences}
variable {item row : OpmlImportItemRow} {items : List OpmlImportItemRow}

theorem exec_markItemFailed (hopen : t.aborted = false) (itemId : Nat) (message : String) :
    exec (faulted f pid) (markItemFailed itemId message) (w.inTxn pid t q)
      = some (.ok (), w.inTxn pid (t.write (.markItemFailed itemId message)) q) :=
  exec_invoke ((faulted_eq rfl).trans (answered_write hopen rfl))

/-- Once its transaction has failed, the job cannot mark an item. -/
theorem exec_markItemFailed_aborted (haborted : t.aborted = true) (itemId : Nat)
    (message : String) :
    ∃ error, exec (faulted f pid) (markItemFailed itemId message) (w.inTxn pid t q)
      = some (.error error, w.inTxn pid t q) := by
  refine ⟨"current transaction is aborted, commands ignored until end of transaction block",
    exec_invoke ?_⟩
  change (w.inTxn pid t q).onClient pid (.markItemFailed itemId message) = _
  simp only [OpmlWorld.onClient, OpmlWorld.opmlTxn_inTxn, haborted, if_true]

/-- An item that is marked as failed. -/
theorem Round.of_failed {t' : OpmlTxn} {message : String}
    (hrow : Table.lookup OpmlImportItemRow.id item.id (w.view t).items = some row)
    (hfeeds : ∃ added, (w.view t').feeds = (w.view t).feeds ++ added)
    (hitems : (w.view t').items = (w.view t).items)
    (hconflict : ∀ url, upsertUrl item = some url →
      ¬Clear cfg rt tenantId ((w.view t).feeds.map FeedRow.key) url) :
    Round cfg rt tenantId item (w.view t)
      (w.view (t'.write (.markItemFailed item.id message))) := by
  have hview := w.view_write t' (.markItemFailed item.id message)
  have hwritten : (w.view (t'.write (.markItemFailed item.id message))).items
      = Table.updateWhere (fun i => i.id = item.id) (OpmlImports.setFailed message)
        (w.view t).items := by
    rw [hview, ← hitems]
    rfl
  refine ⟨?_, fun itemId hne => ?_, fun url hurl hclear => absurd hclear (hconflict url hurl),
    fun _ => ⟨OpmlImports.setFailed message row, ?_, rfl⟩⟩
  · rw [hview]
    exact hfeeds
  · rw [hwritten]
    exact lookup_updateItem_of_ne (g := OpmlImports.setFailed message) (fun _ => rfl) hne
  · rw [hwritten]
    exact lookup_updateItem (g := OpmlImports.setFailed message) (fun _ => rfl) hrow

/-- An item that is marked as imported. -/
theorem Round.of_imported {t' : OpmlTxn} {url : String} {feed : FeedRow}
    (hrow : Table.lookup OpmlImportItemRow.id item.id (w.view t).items = some row)
    (hfeeds : ∃ added, (w.view t').feeds = (w.view t).feeds ++ added)
    (hitems : (w.view t').items = (w.view t).items) (hurl : upsertUrl item = some url)
    (hclear : Clear cfg rt tenantId ((w.view t).feeds.map FeedRow.key) url)
    (hkeys : (w.view t').feeds.map FeedRow.key
      = keysAfter rt tenantId url ((w.view t).feeds.map FeedRow.key))
    (hfeed : feed ∈ (w.view t').feeds) (htenant : feed.tenantId = tenantId)
    (hnormal : feed.url = url ∨
      FeedUrl.normalizeFeedUrl rt.toUrlRuntime cfg.allowPrivateFeedHosts feed.url = .ok url) :
    Round cfg rt tenantId item (w.view t)
      (w.view (t'.write (.markItemImported item.id feed.id))) := by
  have hview := w.view_write t' (.markItemImported item.id feed.id)
  have hsame : (w.view (t'.write (.markItemImported item.id feed.id))).feeds
      = (w.view t').feeds := by
    rw [hview]
    rfl
  have hwritten : (w.view (t'.write (.markItemImported item.id feed.id))).items
      = Table.updateWhere (fun i => i.id = item.id) (OpmlImports.setImported feed.id)
        (w.view t).items := by
    rw [hview, ← hitems]
    rfl
  refine ⟨?_, fun itemId hne => ?_, fun other hother _ => ?_, fun hnot => ?_⟩
  · rw [hsame]
    exact hfeeds
  · rw [hwritten]
    exact lookup_updateItem_of_ne (g := OpmlImports.setImported feed.id) (fun _ => rfl) hne
  · obtain rfl := Option.some.inj (hurl.symm.trans hother)
    rw [hsame]
    refine ⟨⟨url, OpmlImports.setImported feed.id row, hurl, ?_, rfl, feed, hfeed, rfl, htenant,
      hnormal⟩, hkeys⟩
    rw [hwritten]
    exact lookup_updateItem (g := OpmlImports.setImported feed.id) (fun _ => rfl) hrow
  · exact absurd hclear (hnot url hurl)

/-- An item with a URL comes to an upsert. -/
theorem applyItem_of_some {url : String} (h : upsertUrl item = some url) (tally : ApplyTally) :
    applyItem cfg rt tenantId item tally = applyUrl cfg rt tenantId item url tally := by
  obtain ⟨hurl, hne⟩ := Option.filter_eq_some_iff.mp h
  simp only [applyItem, hurl, if_neg (of_decide_eq_true hne)]

/-- An item without a URL is marked as failed. -/
theorem exec_applyItem_of_none (hopen : t.aborted = false) (h : upsertUrl item = none)
    (tally : ApplyTally) :
    exec (faulted f pid) (applyItem cfg rt tenantId item tally) (w.inTxn pid t q)
      = some (.ok { tally with failedItems := tally.failedItems + 1 },
        w.inTxn pid (t.write (.markItemFailed item.id "missing_normalized_url")) q) := by
  have hmark : exec (faulted f pid) (do
      markItemFailed item.id "missing_normalized_url"
      pure { tally with failedItems := tally.failedItems + 1 }) (w.inTxn pid t q) = _ :=
    exec_bind_ok (exec_markItemFailed hopen item.id _)
  rw [applyItem]
  rcases hurl : item.input.normalizedUrl with _ | url
  · exact hmark
  · have hempty : url = "" := by
      rw [upsertUrl, hurl] at h
      by_contra hne
      simp [Option.filter, hne] at h
    exact (congrArg (fun p => exec (faulted f pid) p _) (if_pos hempty)).trans hmark

variable (cfg rt tenantId pid)

/-- A round with a URL whose upsert raises no error. -/
theorem exec_applyUrl (hopen : t.aborted = false)
    (hrow : Table.lookup OpmlImportItemRow.id item.id (w.view t).items = some row) {url : String}
    (hurl : upsertUrl item = some url) (hraised : f.raised url = none) (tally : ApplyTally) :
    ∃ tally' t' q', exec (faulted f pid) (applyUrl cfg rt tenantId item url tally)
        (w.inTxn pid t q) = some (.ok tally', w.inTxn pid t' q') ∧
      t'.aborted = false ∧ (w.view t').imports = (w.view t).imports ∧
      Round cfg rt tenantId item (w.view t) (w.view t') := by
  obtain ⟨r, t', q', hexec, hopen', himports, hitems, hfeeds, hupserted⟩ :=
    exec_upsertFeed cfg rt tenantId pid (w := w) (q := q) hopen hraised
  have hfailed : ∀ message, ¬Clear cfg rt tenantId ((w.view t).feeds.map FeedRow.key) url →
      (w.view (t'.write (.markItemFailed item.id message))).imports = (w.view t).imports ∧
      Round cfg rt tenantId item (w.view t)
        (w.view (t'.write (.markItemFailed item.id message))) := by
    intro message hconflict
    refine ⟨?_, Round.of_failed hrow hfeeds hitems fun other hother => ?_⟩
    · rw [w.view_write]
      exact himports
    · obtain rfl := Option.some.inj (hurl.symm.trans hother)
      exact hconflict
  rw [applyUrl]
  rcases r with message | upsert
  · -- the handler marks the item
    obtain ⟨himports', hround⟩ := hfailed message hupserted
    refine ⟨{ tally with failedItems := tally.failedItems + 1 },
      t'.write (.markItemFailed item.id message), q', ?_, hopen', himports', hround⟩
    · rw [exec_tryCatch_error (exec_bind_error hexec),
        exec_bind_ok (exec_markItemFailed hopen' item.id message)]
      rfl
  · rcases hcollision : upsert.collision with _ | _
    · rw [Upserted, if_neg (by simp [hcollision])] at hupserted
      obtain ⟨hclear, hkeys, feed, hfeed, hid, htenant, hnormal⟩ := hupserted
      have hmark : exec (faulted f pid) (opmlStatement .client
          (.markItemImported item.id upsert.feedId)) (w.inTxn pid t' q')
            = some (.ok (), w.inTxn pid (t'.write (.markItemImported item.id upsert.feedId)) q') :=
        exec_invoke ((faulted_eq rfl).trans (answered_write hopen' rfl))
      refine ⟨{ tally with
          importedItems := tally.importedItems + 1
          createdFeedIds :=
            if upsert.created then tally.createdFeedIds ++ [upsert.feedId]
            else tally.createdFeedIds },
        t'.write (.markItemImported item.id upsert.feedId), q', exec_tryCatch_ok ?_, hopen', ?_, ?_⟩
      · rw [exec_bind_ok hexec, if_neg (by simp [hcollision]), exec_bind_ok hmark]
        rfl
      · rw [w.view_write]
        exact himports
      · rw [← hid]
        exact Round.of_imported hrow hfeeds hitems hurl hclear hkeys hfeed htenant hnormal
    · rw [Upserted, if_pos hcollision] at hupserted
      obtain ⟨himports', hround⟩ := hfailed "normalized_hash_collision_detected" hupserted
      refine ⟨{ tally with failedItems := tally.failedItems + 1 },
        t'.write (.markItemFailed item.id "normalized_hash_collision_detected"), q',
        exec_tryCatch_ok ?_, hopen', himports', hround⟩
      · rw [exec_bind_ok hexec, if_pos hcollision,
          exec_bind_ok (exec_markItemFailed hopen' item.id _)]
        rfl

/-- **A round** without an error of the database leaves the transaction open. -/
theorem exec_applyItem (hopen : t.aborted = false)
    (hrow : Table.lookup OpmlImportItemRow.id item.id (w.view t).items = some row)
    (hraises : ¬Raises f item) (tally : ApplyTally) :
    ∃ tally' t' q', exec (faulted f pid) (applyItem cfg rt tenantId item tally)
        (w.inTxn pid t q) = some (.ok tally', w.inTxn pid t' q') ∧
      t'.aborted = false ∧ (w.view t').imports = (w.view t).imports ∧
      Round cfg rt tenantId item (w.view t) (w.view t') := by
  rcases hurl : upsertUrl item with _ | url
  · refine ⟨_, _, q, exec_applyItem_of_none hopen hurl tally, hopen, ?_,
      Round.of_failed hrow ⟨[], (List.append_nil _).symm⟩ rfl fun url h => ?_⟩
    · rw [w.view_write]
      rfl
    · rw [hurl] at h
      cases h
  · rw [applyItem_of_some hurl]
    have hraised : f.raised url = none :=
      Option.not_isSome_iff_eq_none.mp fun h => hraises ⟨url, hurl, h⟩
    exact exec_applyUrl cfg rt tenantId pid hopen hrow hurl hraised tally

/-- A round in which the upsert raises an error ends the loop. -/
theorem exec_applyItem_raises (hraises : Raises f item) (tally : ApplyTally) :
    ∃ error t' q', exec (faulted f pid) (applyItem cfg rt tenantId item tally)
        (w.inTxn pid t q) = some (.error error, w.inTxn pid t' q') := by
  obtain ⟨url, hurl, hraised⟩ := hraises
  obtain ⟨error, herror⟩ := Option.isSome_iff_exists.mp hraised
  rw [applyItem_of_some hurl]
  have hjitter : exec (faulted f pid)
      (ofCore (random (max 1 cfg.opmlInitialJitterMaxSeconds))) (w.inTxn pid t q) = _ :=
    exec_jitter (by omega)
  have hinsert : ∀ hash jitter, exec (faulted f pid) (opmlStatement .client
      (.insertFeedOrNothing tenantId url hash jitter)) (w.inTxn pid t q)
        = some (.error error, w.inTxn pid { t with aborted := true } q) := by
    intro hash jitter
    refine exec_invoke ?_
    simp only [faulted, Faults.outcome, herror, OpmlCall.answer, OpmlCall.answerOwn,
      OpmlCall.infallible, OpmlCall.afterError, OpmlCall.onConnection, OpmlWorld.abortOpmlTxn,
      OpmlWorld.opmlTxn_inTxn, OpmlWorld.setOpmlTxn_inTxn, Bool.false_eq_true, if_false, if_true]
  have hupsert : exec (faulted f pid) (upsertFeed cfg rt tenantId url) (w.inTxn pid t q)
      = some (.error error, w.inTxn pid { t with aborted := true } q) := by
    rw [upsertFeed, exec_bind_ok hjitter]
    exact exec_bind_error (hinsert _ _)
  obtain ⟨error', hmark⟩ : ∃ error', exec (faulted f pid) (markItemFailed item.id error)
      (w.inTxn pid { t with aborted := true } q)
        = some (.error error', w.inTxn pid { t with aborted := true } q) :=
    exec_markItemFailed_aborted rfl item.id error
  refine ⟨error', { t with aborted := true }, q, ?_⟩
  rw [applyUrl, exec_tryCatch_error (exec_bind_error hupsert)]
  exact exec_bind_error hmark

/-- **The loop** without errors of the database. -/
theorem exec_applyItems (hopen : t.aborted = false)
    (hrows : ∀ item ∈ items, ∃ row,
      Table.lookup OpmlImportItemRow.id item.id (w.view t).items = some row)
    (hids : (items.map OpmlImportItemRow.id).Nodup) (hraises : ∀ item ∈ items, ¬Raises f item)
    (tally : ApplyTally) :
    ∃ tally' t' q', exec (faulted f pid) (applyItems cfg rt tenantId items tally)
        (w.inTxn pid t q) = some (.ok tally', w.inTxn pid t' q') ∧
      t'.aborted = false ∧ (w.view t').imports = (w.view t).imports ∧
      Rounds cfg rt tenantId items (w.view t) (w.view t') := by
  induction items generalizing tally t q with
  | nil => exact ⟨tally, t, q, rfl, hopen, rfl, Rounds.nil _⟩
  | cons item items ih =>
    obtain ⟨hfresh, hids'⟩ := List.nodup_cons.mp hids
    obtain ⟨row, hrow⟩ := hrows item List.mem_cons_self
    obtain ⟨tally₁, t₁, q₁, hexec, hopen₁, himports, hround⟩ :=
      exec_applyItem cfg rt tenantId pid (q := q) hopen
        hrow (hraises item List.mem_cons_self) tally
    have hrows₁ : ∀ other ∈ items, ∃ row,
        Table.lookup OpmlImportItemRow.id other.id (w.view t₁).items = some row := by
      intro other hother
      rw [hround.others other.id fun h => hfresh (h ▸ List.mem_map_of_mem hother)]
      exact hrows other (List.mem_cons_of_mem _ hother)
    obtain ⟨tally', t', q', hrest, hopen', himports', hrounds⟩ := ih hopen₁ hrows₁ hids'
      (fun other hother => hraises other (List.mem_cons_of_mem _ hother)) tally₁ (q := q₁)
    refine ⟨tally', t', q', ?_, hopen', himports'.trans himports, hrounds.cons hfresh hround⟩
    rw [applyItems, exec_bind_ok hexec]
    exact hrest

/-- **The loop** ends with an error if an upsert raises one. -/
theorem exec_applyItems_raises (hopen : t.aborted = false)
    (hrows : ∀ item ∈ items, ∃ row,
      Table.lookup OpmlImportItemRow.id item.id (w.view t).items = some row)
    (hids : (items.map OpmlImportItemRow.id).Nodup) (hraises : ∃ item ∈ items, Raises f item)
    (tally : ApplyTally) :
    ∃ error t' q', exec (faulted f pid) (applyItems cfg rt tenantId items tally)
        (w.inTxn pid t q) = some (.error error, w.inTxn pid t' q') := by
  induction items generalizing tally t q with
  | nil =>
    obtain ⟨item, hitem, -⟩ := hraises
    cases hitem
  | cons item items ih =>
    by_cases hhead : Raises f item
    · obtain ⟨error, t', q', hexec⟩ := exec_applyItem_raises cfg rt tenantId pid (w := w)
        (t := t) (q := q) hhead tally
      exact ⟨error, t', q', by rw [applyItems]; exact exec_bind_error hexec⟩
    · obtain ⟨hfresh, hids'⟩ := List.nodup_cons.mp hids
      obtain ⟨row, hrow⟩ := hrows item List.mem_cons_self
      obtain ⟨tally₁, t₁, q₁, hexec, hopen₁, -, hround⟩ :=
        exec_applyItem cfg rt tenantId pid (q := q) hopen
          hrow hhead tally
      have hrows₁ : ∀ other ∈ items, ∃ row,
          Table.lookup OpmlImportItemRow.id other.id (w.view t₁).items = some row := by
        intro other hother
        rw [hround.others other.id fun h => hfresh (h ▸ List.mem_map_of_mem hother)]
        exact hrows other (List.mem_cons_of_mem _ hother)
      have hraises' : ∃ other ∈ items, Raises f other := by
        obtain ⟨other, hother, h⟩ := hraises
        rcases List.mem_cons.mp hother with rfl | hother
        · exact absurd h hhead
        · exact ⟨other, hother, h⟩
      obtain ⟨error, t', q', hrest⟩ := ih hopen₁ hrows₁ hids' hraises' tally₁ (q := q₁)
      refine ⟨error, t', q', ?_⟩
      rw [applyItems, exec_bind_ok hexec]
      exact hrest

end Loop

/-! ## The job -/

section Job

variable {f : Faults} {pid : Nat} {w : OpmlWorld} {row : OpmlImportRow} {importId : Nat}

/-- The candidates of an import have different rows, and these are where they are looked up. -/
theorem candidates_lookup (importId : Nat) (hids : (w.items.map OpmlImportItemRow.id).Nodup) :
    ((OpmlImports.newCandidateItems importId w.items).map OpmlImportItemRow.id).Nodup ∧
      ∀ item ∈ OpmlImports.newCandidateItems importId w.items,
        Table.lookup OpmlImportItemRow.id item.id w.items = some item ∧
          item.input.itemStatus = .new := by
  have hperm := List.perm_insertionSort (fun i j : OpmlImportItemRow => i.id ≤ j.id)
    (w.items.filter fun i => i.importId = importId && i.input.itemStatus = .new)
  constructor
  · exact (hperm.map OpmlImportItemRow.id).nodup_iff.mpr
      (hids.sublist (List.filter_sublist.map OpmlImportItemRow.id))
  · intro item hitem
    obtain ⟨hmem, hcandidate⟩ := List.mem_filter.mp (hperm.mem_iff.mp hitem)
    simp only [Bool.and_eq_true, decide_eq_true_eq] at hcandidate
    exact ⟨Table.lookup_of_mem hids hmem, hcandidate.2⟩

/-- A call of the rest of the service. -/
theorem exec_core {α : Type} {c : Call} {k : Except String c.Reply → Program α} {a : c.Reply}
    {v : World} (houtcome : f.outcome w (.core c) = .ok .none)
    (hserve : c.serve pid w.core .none = some (a, v)) :
    exec (faulted f pid) (ofCore (.call c k)) w
      = exec (faulted f pid) (ofCore (k (.ok a))) { w with core := v } := by
  have hanswer : faulted f pid w (.core c) = some (.ok a, { w with core := v }) := by
    simp [faulted, houtcome, OpmlCall.answer, Call.answer, hserve]
  rw [ofCore, exec, hanswer]
  rfl

/-- A fetch job is enqueued without an effect on the tables. -/
theorem exec_enqueue (pid feedId now : Nat) :
    ∃ result w', exec (faulted f pid) (ofCore (FetchFeedQueue.enqueue
        { feedId := feedId, queuedAt := now, attempt := 0, source := .scheduler })) w
        = some (.ok result, w') ∧
      w'.items = w.items ∧ w'.core.feeds = w.core.feeds ∧ w'.opmlTxns = w.opmlTxns := by
  have hget : (Call.queue (.getFetchJob (scheduledJobId feedId))).serve pid w.core .none
      = some (w.core.fetchQueue.getJob (scheduledJobId feedId), w.core) := rfl
  rcases hjob : w.core.fetchQueue.getJob (scheduledJobId feedId) with _ | job
  · rw [hjob] at hget
    exact ⟨_, _, (exec_core rfl hget).trans (exec_core rfl rfl), rfl, rfl, rfl⟩
  · rw [hjob] at hget
    exact ⟨_, _, exec_core rfl hget, rfl, rfl, rfl⟩

/-- The fetch jobs are enqueued without an effect on the tables. -/
theorem exec_enqueueFeeds (pid : Nat) (feedIds : List Nat) :
    ∃ w', exec (faulted f pid) (enqueueFeeds feedIds) w = some (.ok (), w') ∧
      w'.items = w.items ∧ w'.core.feeds = w.core.feeds ∧ w'.opmlTxns = w.opmlTxns := by
  induction feedIds generalizing w with
  | nil => exact ⟨w, rfl, rfl, rfl, rfl⟩
  | cons feedId feedIds ih =>
    have hclock : exec (faulted f pid) (ofCore clock) w = some (.ok w.core.now, w) :=
      exec_core rfl rfl
    obtain ⟨result, w₁, hadd, hitems, hfeeds, htxns⟩ :=
      exec_enqueue (f := f) pid (w := w) feedId w.core.now
    obtain ⟨w', hrest, hitems', hfeeds', htxns'⟩ := ih (w := w₁)
    refine ⟨w', ?_, hitems'.trans hitems, hfeeds'.trans hfeeds, htxns'.trans htxns⟩
    rw [enqueueFeeds, exec_bind_ok hclock, exec_bind_ok hadd]
    exact hrest

/-- Status updates are no upserts. -/
theorem markImportStatus_faultless (u : OpmlStatusUpdate) (ex : Executor) :
    Prog.Issues (Faultless f) (OpmlImportsRepository.markImportStatus u ex) := by
  refine Prog.Issues.bind (Prog.issues_invoke ?_) fun row => ?_
  · intro w
    cases ex with
    | pool => rfl
    | client => rfl
  · cases row with
    | none => exact Prog.issues_throw' _
    | some row => exact Prog.issues_pure row

/-- The loop of a job, from the beginning of its transaction. -/
theorem exec_candidates (pid importId : Nat) (hquiet : w.opmlTxns = []) :
    ∃ t, exec (faulted f pid) (opmlCall .begin) w = some (.ok (), w.inTxn pid t w.sequences) ∧
      exec (faulted f pid) (opmlStatement .client (.listNewCandidateItems importId))
        (w.inTxn pid t w.sequences)
        = some (.ok (OpmlImports.newCandidateItems importId w.items),
          w.inTxn pid t w.sequences) ∧
      t.aborted = false ∧ w.view t = w.tables := by
  have hbegin : exec (faulted f pid) (opmlCall .begin) w = _ :=
    exec_invoke ((faulted_eq rfl).trans (answered_begin hquiet))
  obtain ⟨t, ht⟩ : ∃ t : OpmlTxn,
      t = { aborted := false, startedAt := w.core.now, writes := [] } := ⟨_, rfl⟩
  rw [← ht] at hbegin
  have hopen : t.aborted = false := by rw [ht]
  have hempty : w.view t = w.tables := by
    rw [ht]
    rfl
  have hlist : (OpmlStatement.listNewCandidateItems importId).eval t.startedAt w.sequences
      (w.view t) = (.ok (OpmlImports.newCandidateItems importId w.items), none) := by
    rw [hempty]
    rfl
  exact ⟨t, hbegin, exec_invoke ((faulted_eq rfl).trans (answered_read hopen hlist)), hopen, hempty⟩

variable (cfg rt tenantId pid)

/-- **The transaction** without errors of the database commits what the loop has made. -/
theorem exec_transaction (hquiet : w.opmlTxns = [])
    (hrow : Table.lookup OpmlImportRow.id importId w.imports = some row)
    (hids : (w.items.map OpmlImportItemRow.id).Nodup)
    (hraises : ∀ item ∈ OpmlImports.newCandidateItems importId w.items, ¬Raises f item) :
    ∃ feedIds w', exec (faulted f pid) (transaction cfg rt tenantId importId) w
        = some (.ok feedIds, w') ∧ w'.opmlTxns = [] ∧
      Rounds cfg rt tenantId (OpmlImports.newCandidateItems importId w.items) w.tables
        w'.tables := by
  obtain ⟨t, hbegin, hlist, hopen, hempty⟩ :=
    exec_candidates (f := f) pid importId hquiet
  obtain ⟨hnodup, hlookup⟩ := candidates_lookup importId hids
  have hrows : ∀ item ∈ OpmlImports.newCandidateItems importId w.items, ∃ row,
      Table.lookup OpmlImportItemRow.id item.id (w.view t).items = some row := by
    intro item hitem
    rw [hempty]
    exact ⟨item, (hlookup item hitem).1⟩
  obtain ⟨tally, t', q', hloop, hopen', himports, hrounds⟩ :=
    exec_applyItems cfg rt tenantId pid (q := w.sequences) hopen hrows hnodup hraises
      { importedItems := 0, failedItems := 0, createdFeedIds := [] }
  have hcount : exec (faulted f pid) (opmlStatement .client (.countItemsByStatus importId))
      (w.inTxn pid t' q') = _ := exec_invoke ((faulted_eq rfl).trans (answered_read hopen' rfl))
  obtain ⟨u, hu⟩ : ∃ u, u = finalUpdate importId tally
      (OpmlImports.countItems importId (w.view t').items) := ⟨_, rfl⟩
  have hrow' : Table.lookup OpmlImportRow.id u.importId (w.view t').imports = some row := by
    rw [himports, hempty, hu]
    exact hrow
  have hmark : exec (faulted f pid) (OpmlImportsRepository.markImportStatus u .client)
      (w.inTxn pid t' q') = _ :=
    (exec_faulted (markImportStatus_faultless u .client)).trans
      (exec_markImportStatus hopen' hrow')
  have hopen'' : (t'.write (.markImportStatus u)).aborted = false := hopen'
  have hcommit : exec (faulted f pid) (opmlCall .commit)
      (w.inTxn pid (t'.write (.markImportStatus u)) q') = _ :=
    exec_invoke ((faulted_eq rfl).trans (answered_commit hopen''))
  have hview := w.view_write t' (.markImportStatus u)
  refine ⟨tally.createdFeedIds, { w with opmlTxns := [], sequences := q' }.setTables
    (w.view (t'.write (.markImportStatus u))), ?_, rfl, hrounds.congr ?_ ?_ ?_ ?_⟩
  · rw [transaction, exec_bind_ok hbegin, exec_bind_ok hlist, exec_bind_ok hloop,
      exec_bind_ok hcount, ← hu, exec_bind_ok hmark, exec_bind_ok hcommit]
    rfl
  · rw [hempty]
  · rw [hempty]
  · exact (hview ▸ rfl : (w.view (t'.write (.markImportStatus u))).feeds = (w.view t').feeds)
  · exact (hview ▸ rfl : (w.view (t'.write (.markImportStatus u))).items = (w.view t').items)

/-- **The transaction** ends with an error if an upsert raises one. -/
theorem exec_transaction_raises (hquiet : w.opmlTxns = [])
    (hids : (w.items.map OpmlImportItemRow.id).Nodup)
    (hraises : ∃ item ∈ OpmlImports.newCandidateItems importId w.items, Raises f item) :
    ∃ error t q, exec (faulted f pid) (transaction cfg rt tenantId importId) w
        = some (.error error, w.inTxn pid t q) := by
  obtain ⟨t, hbegin, hlist, hopen, hempty⟩ :=
    exec_candidates (f := f) pid importId hquiet
  obtain ⟨hnodup, hlookup⟩ := candidates_lookup importId hids
  have hrows : ∀ item ∈ OpmlImports.newCandidateItems importId w.items, ∃ row,
      Table.lookup OpmlImportItemRow.id item.id (w.view t).items = some row := by
    intro item hitem
    rw [hempty]
    exact ⟨item, (hlookup item hitem).1⟩
  obtain ⟨error, t', q', hloop⟩ :=
    exec_applyItems_raises cfg rt tenantId pid (q := w.sequences) hopen hrows hnodup hraises
      { importedItems := 0, failedItems := 0, createdFeedIds := [] }
  refine ⟨error, t', q', ?_⟩
  rw [transaction, exec_bind_ok hbegin, exec_bind_ok hlist]
  exact exec_bind_error hloop

/-- **The `try` around the transaction**: the loop is committed, or all of it rolled back. -/
theorem exec_run (hquiet : w.opmlTxns = [])
    (hrow : Table.lookup OpmlImportRow.id importId w.imports = some row)
    (hids : (w.items.map OpmlImportItemRow.id).Nodup) :
    ∃ w', exec (faulted f pid) (run cfg rt tenantId importId) w = some (.ok (), w') ∧
      ((∀ item ∈ OpmlImports.newCandidateItems importId w.items, ¬Raises f item) →
        Rounds cfg rt tenantId (OpmlImports.newCandidateItems importId w.items) w.tables
          w'.tables) ∧
      ((∃ item ∈ OpmlImports.newCandidateItems importId w.items, Raises f item) →
        w'.items = w.items) := by
  have hconnect : exec (faulted f pid) (opmlCall .connect) w = some (.ok (), w) := exec_invoke rfl
  by_cases hraises : ∃ item ∈ OpmlImports.newCandidateItems importId w.items, Raises f item
  · obtain ⟨error, t, q, htransaction⟩ := exec_transaction_raises cfg rt tenantId pid
      hquiet hids hraises
    have hrollback : exec (faulted f pid) (opmlCall .rollback) (w.inTxn pid t q) = _ :=
      exec_invoke ((faulted_eq rfl).trans answered_rollback)
    obtain ⟨w₀, hw₀⟩ : ∃ w₀ : OpmlWorld, w₀ = { w with opmlTxns := [], sequences := q } :=
      ⟨_, rfl⟩
    rw [← hw₀] at hrollback
    obtain ⟨u, hu⟩ : ∃ u : OpmlStatusUpdate, u =
        { importId := importId, status := .failed, errorMessage := some error } := ⟨_, rfl⟩
    have hquiet₀ : w₀.opmlTxns = [] := by rw [hw₀]
    have hrow₀ : Table.lookup OpmlImportRow.id u.importId w₀.imports = some row := by
      rw [hw₀, hu]
      exact hrow
    have hmark : exec (faulted f pid) (OpmlImportsRepository.markImportStatus u .pool) w₀ = _ :=
      (exec_faulted (markImportStatus_faultless u .pool)).trans
        (exec_markImportStatus_pool pid hquiet₀ hrow₀)
    obtain ⟨w', hw'⟩ : ∃ w', w' =
        w₀.setTables ((OpmlWrite.markImportStatus u).apply w₀.core.now w₀.tables) := ⟨_, rfl⟩
    rw [← hw'] at hmark
    have hquiet' : w'.opmlTxns = [] := by
      rw [hw', hw₀]
      rfl
    have hrelease : exec (faulted f pid) (opmlCall .release) w' = _ :=
      exec_invoke ((faulted_eq rfl).trans (answered_release hquiet'))
    refine ⟨w', ?_, fun h => ?_, fun _ => ?_⟩
    · rw [run, exec_bind_ok hconnect, finallyDo_eq]
      refine exec_finallyDo ?_ hrelease
      rw [exec_tryCatch_error (exec_bind_error htransaction), exec_bind_ok hrollback, ← hu,
        exec_bind_ok hmark]
      rfl
    · obtain ⟨item, hitem, hraise⟩ := hraises
      exact absurd hraise (h item hitem)
    · rw [hw', hw₀]
      rfl
  · have hnone : ∀ item ∈ OpmlImports.newCandidateItems importId w.items, ¬Raises f item :=
      fun item hitem h => hraises ⟨item, hitem, h⟩
    obtain ⟨feedIds, w₁, htransaction, hquiet₁, hrounds⟩ := exec_transaction cfg rt
      tenantId pid hquiet hrow hids hnone
    obtain ⟨w', henqueue, hitems, hfeeds, htxns⟩ :=
      exec_enqueueFeeds (f := f) pid (w := w₁) feedIds
    have hrelease : exec (faulted f pid) (opmlCall .release) w' = _ :=
      exec_invoke ((faulted_eq rfl).trans (answered_release (htxns.trans hquiet₁)))
    refine ⟨w', ?_, fun _ => hrounds.congr rfl rfl hfeeds hitems, fun h => absurd h hraises⟩
    rw [run, exec_bind_ok hconnect, finallyDo_eq]
    refine exec_finallyDo (exec_tryCatch_ok ?_) hrelease
    rw [exec_bind_ok htransaction]
    exact henqueue

/-- **The job** runs its transaction if the import may be applied. -/
theorem exec_execute {job : OpmlApplyImportJobData} (hquiet : w.opmlTxns = [])
    (hrow : Table.lookup OpmlImportRow.id job.importId w.imports = some row)
    (hstatus : row.status.canTransition .importing = true)
    (hids : (w.items.map OpmlImportItemRow.id).Nodup) :
    ∃ w', exec (faulted f pid) (execute cfg rt job) w = some (.ok (), w') ∧
      ((∀ item ∈ OpmlImports.newCandidateItems job.importId w.items, ¬Raises f item) →
        Rounds cfg rt row.tenantId (OpmlImports.newCandidateItems job.importId w.items) w.tables
          w'.tables) ∧
      ((∃ item ∈ OpmlImports.newCandidateItems job.importId w.items, Raises f item) →
        w'.items = w.items) := by
  have hfind : exec (faulted f pid)
      (OpmlImportsRepository.getImportOrThrowForWorker job.importId) w
      = some (.ok row, w) := by
    have heval : (OpmlStatement.findImportByIdForWorker job.importId).eval w.core.now w.sequences
        w.tables = (.ok (some row), none) := by
      simp only [OpmlStatement.eval, OpmlWorld.tables, hrow]
    have hexec : exec (faulted f pid) (opmlStatement .pool (.findImportByIdForWorker job.importId))
        w = _ := exec_invoke ((faulted_eq rfl).trans (answered_pool_read heval))
    rw [OpmlImportsRepository.getImportOrThrowForWorker, OpmlImportsRepository.getImportOrThrow,
      OpmlImportsRepository.findImportById, exec_bind_ok hexec]
    rfl
  have htenant : exec (faulted f pid)
      (OpmlImportsRepository.getImportTenantId job.importId .pool) w
      = some (.ok row.tenantId, w) := by
    have heval : (OpmlStatement.getImportTenantId job.importId).eval w.core.now w.sequences
        w.tables = (.ok (some row.tenantId), none) := by
      simp only [OpmlStatement.eval, OpmlWorld.tables, hrow, Option.map_some]
    have hexec : exec (faulted f pid) (opmlStatement .pool (.getImportTenantId job.importId)) w
        = _ := exec_invoke ((faulted_eq rfl).trans (answered_pool_read heval))
    rw [OpmlImportsRepository.getImportTenantId, exec_bind_ok hexec]
    rfl
  have hnot : row.status ≠ .completed := by
    intro hcompleted
    rw [hcompleted] at hstatus
    cases hstatus
  rw [execute, exec_bind_ok hfind, exec_bind_ok htenant, if_neg hnot]
  by_cases himporting : row.status = .importing
  · rw [if_pos himporting]
    exact exec_run cfg rt row.tenantId pid hquiet hrow hids
  · rw [if_neg himporting, if_pos hstatus]
    obtain ⟨u, hu⟩ : ∃ u : OpmlStatusUpdate, u =
        { importId := job.importId, status := .importing, confirmed := true } := ⟨_, rfl⟩
    have hid : u.importId = job.importId := by rw [hu]
    have hmark : exec (faulted f pid) (OpmlImportsRepository.markImportStatus u .pool) w = _ :=
      (exec_faulted (markImportStatus_faultless u .pool)).trans
        (exec_markImportStatus_pool pid hquiet (by rw [hid]; exact hrow))
    obtain ⟨w₁, hw₁⟩ : ∃ w₁, w₁ =
        w.setTables ((OpmlWrite.markImportStatus u).apply w.core.now w.tables) := ⟨_, rfl⟩
    have hrow₁ : Table.lookup OpmlImportRow.id job.importId w₁.imports
        = some (u.apply w.core.now row) := by
      rw [hw₁]
      exact lookup_markImportStatus w.core.now (t := w.tables) hrow hid
    have hitems : w₁.items = w.items := by rw [hw₁]; rfl
    have hfeeds : w₁.core.feeds = w.core.feeds := by rw [hw₁]; rfl
    obtain ⟨w', hrun, hrounds, hrolled⟩ := exec_run cfg rt row.tenantId pid (f := f)
      (by rw [hw₁]; exact hquiet) hrow₁ (by rw [hitems]; exact hids)
    rw [hitems] at hrounds hrolled
    refine ⟨w', ?_, fun h => (hrounds h).congr hfeeds hitems rfl rfl, hrolled⟩
    rw [← hu, exec_bind_ok hmark, ← hw₁]
    exact hrun

end Job

/-- **Errors of the database stay with their items exactly if there are none.** When no upsert
of a candidate raises one, and no candidate lacks a URL or is in conflict with a feed, all
candidates are imported; otherwise some candidate has another status than the errors give it. -/
theorem apply_isolates_iff (cfg : OpmlConfig) (rt : OpmlRuntime) (f : Faults) (pid : Nat)
    {w : OpmlWorld} {job : OpmlApplyImportJobData} {row : OpmlImportRow}
    (hquiet : w.opmlTxns = [])
    (hrow : Table.lookup OpmlImportRow.id job.importId w.imports = some row)
    (hstatus : row.status.canTransition .importing = true)
    (hids : (w.items.map OpmlImportItemRow.id).Nodup) :
    ∃ w', exec (faulted f pid) (execute cfg rt job) w = some (.ok (), w') ∧
      (Isolated cfg rt row.tenantId f (OpmlImports.newCandidateItems job.importId w.items) w' ↔
        (∀ item ∈ OpmlImports.newCandidateItems job.importId w.items, ¬Raises f item) ∧
          Resolves cfg rt row.tenantId w.core.feedKeys
            (OpmlImports.newCandidateItems job.importId w.items)) := by
  obtain ⟨w', hexec, hrounds, hrolled⟩ :=
    exec_execute cfg rt pid (f := f) hquiet hrow hstatus hids
  refine ⟨w', hexec, ?_, ?_⟩
  · intro hisolated
    have hnone : ∀ item ∈ OpmlImports.newCandidateItems job.importId w.items, ¬Raises f item := by
      intro item hitem hraises
      -- the items are as they were, and the candidate is still new
      obtain ⟨stored, hstored, hfailed⟩ := (hisolated.failed_iff item hitem).mpr hraises
      obtain ⟨hlookup, hnew⟩ := (candidates_lookup job.importId hids).2 item hitem
      rw [hrolled ⟨item, hitem, hraises⟩, hlookup] at hstored
      obtain rfl := Option.some.inj hstored
      rw [hnew] at hfailed
      cases hfailed
    refine ⟨hnone, ?_⟩
    by_contra hconflict
    obtain ⟨item, hitem, hfailed⟩ := (hrounds hnone).failed hconflict
    exact hnone item hitem ((hisolated.failed_iff item hitem).mp hfailed)
  · rintro ⟨hnone, hresolves⟩
    have himported := (hrounds hnone).imported hresolves
    refine ⟨fun item hitem => iff_of_false ?_ (hnone item hitem),
      fun item hitem _ => himported item hitem⟩
    rintro ⟨stored, hstored, hfailed⟩
    obtain ⟨url, stored', -, hstored', hstatus', -⟩ := himported item hitem
    obtain rfl := Option.some.inj (hstored.symm.trans hstored')
    rw [hstatus'] at hfailed
    cases hfailed

/-! ## Samples -/

/-- A candidate of the first import. -/
def candidate (id : Nat) (url hash : String) : OpmlImportItemRow :=
  { id := id
    tenantId := "t"
    importId := 1
    input :=
      { title := none
        outlinePath := none
        sourceXmlUrl := url
        normalizedUrl := some url
        normalizedUrlHash := some hash
        itemStatus := .new
        validationError := none }
    feedId := none }

/-- The candidates of an import of two feeds. -/
def twoCandidates : List OpmlImportItemRow := [
  candidate 1 "https://a.example/rss"
    "f14074e5979b9d9b10708b8eee032b459cfd96c70af86119a067bb5d5d450784",
  candidate 2 "https://b.example/rss"
    "ba6758c1251d034aa1a27730d20cb7582eef94cdac3d32373d262c66ecc583d6"]

/-- The row of the import. -/
def confirmedImport : OpmlImportRow :=
  { OpmlImports.newImport 0 1
      { tenantId := "t", fileName := "feeds.opml", fileSizeBytes := 7,
        sourceChecksum := "9bc3f07d8bb9644a4c9a9948b4bfcb51fb69893f19422d2cd5e81cf7972c0fe9" } with
    status := .importing }

/-- Its tenant has confirmed the import. -/
def confirmedWorld : OpmlWorld :=
  { OpmlSystem.noImports.world with
    imports := [confirmedImport]
    items := twoCandidates
    sequences := { importId := 2, itemId := 3, feedId := 1 } }

/-- The job of the import. -/
def confirmedJob : OpmlApplyImportJobData := { importId := 1, requestedAt := 0 }

/-- Upserts of these URLs raise an error. -/
def raising (urls : List String) : Faults where
  raised url := if urls.contains url then some "deadlock detected" else none
  random _ _ := 0
  random_lt _ _ h := h

/-- Without an error of the database, both feeds are imported. -/
theorem apply_isolates_iff_unraised :
    ∃ w', exec (faulted (raising []) 1)
        (execute OpmlSystem.importDeployment.config ProcessOpmlParseJob.previewRuntime confirmedJob)
        confirmedWorld = some (.ok (), w') ∧
      Isolated OpmlSystem.importDeployment.config ProcessOpmlParseJob.previewRuntime "t"
        (raising []) twoCandidates w' := by
  have hrow : Table.lookup OpmlImportRow.id confirmedJob.importId confirmedWorld.imports
      = some confirmedImport := rfl
  have hcandidates : OpmlImports.newCandidateItems confirmedJob.importId confirmedWorld.items
      = twoCandidates := by decide
  obtain ⟨w', hexec, hiff⟩ := apply_isolates_iff
    OpmlSystem.importDeployment.config ProcessOpmlParseJob.previewRuntime (raising []) 1 rfl hrow
    rfl (by decide)
  rw [hcandidates] at hiff
  refine ⟨w', hexec, hiff.mpr ⟨?_, ?_⟩⟩
  · rintro item - ⟨url, -, hraised⟩
    cases hraised
  · refine ⟨"https://a.example/rss", rfl, ?_, "https://b.example/rss", rfl, ?_, trivial⟩
    · intro key hkey
      cases hkey
    · intro key hkey
      have hnone : FeedKey.findByHashOrUrl "t" (FeedUrl.buildNormalizedFeedUrlHash
          ProcessOpmlParseJob.previewRuntime.toUrlRuntime "https://b.example/rss")
          "https://b.example/rss" (keysAfter ProcessOpmlParseJob.previewRuntime "t"
            "https://a.example/rss" confirmedWorld.core.feedKeys) = none := by
        decide +kernel
      cases hkey.symm.trans hnone

/-- An error of the first upsert is not even recorded with its item, and the second item is not
imported. -/
theorem raising_upsert_spreads :
    ∃ w', exec (faulted (raising ["https://a.example/rss"]) 1)
        (execute OpmlSystem.importDeployment.config ProcessOpmlParseJob.previewRuntime confirmedJob)
        confirmedWorld = some (.ok (), w') ∧
      ¬Isolated OpmlSystem.importDeployment.config ProcessOpmlParseJob.previewRuntime "t"
        (raising ["https://a.example/rss"])
        (OpmlImports.newCandidateItems confirmedJob.importId confirmedWorld.items) w' := by
  have hrun : ((exec (faulted (raising ["https://a.example/rss"]) 1)
      (execute OpmlSystem.importDeployment.config ProcessOpmlParseJob.previewRuntime confirmedJob)
      confirmedWorld).any fun r => r.1 = .ok () && r.2.items = twoCandidates) = true := by
    decide +kernel
  obtain ⟨⟨r, w'⟩, hexec, hr⟩ := (Option.any_eq_true _ _).mp hrun
  simp only [Bool.and_eq_true, decide_eq_true_eq] at hr
  obtain ⟨rfl, hitems⟩ := hr
  refine ⟨w', hexec, fun hisolated => ?_⟩
  have hraises : Raises (raising ["https://a.example/rss"])
      (candidate 1 "https://a.example/rss"
        "f14074e5979b9d9b10708b8eee032b459cfd96c70af86119a067bb5d5d450784") :=
    ⟨"https://a.example/rss", rfl, rfl⟩
  have hcandidate : candidate 1 "https://a.example/rss"
      "f14074e5979b9d9b10708b8eee032b459cfd96c70af86119a067bb5d5d450784" ∈
      OpmlImports.newCandidateItems confirmedJob.importId confirmedWorld.items := by
    decide
  obtain ⟨stored, hstored, hfailed⟩ := (hisolated.failed_iff _ hcandidate).mpr hraises
  rw [hitems] at hstored
  obtain rfl := Option.some.inj hstored
  cases hfailed

end ProcessOpmlApplyJob

end Feedpulse
