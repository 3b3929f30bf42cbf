import Feedpulse.RuleSetExtension

/-!
# The identity of an article

The hash of an entry is computed from its link, its guid and its publication instant, joined with
a bar. A link or a guid can contain a bar, so two items can be hashed alike:
`identities_distinct_iff` says which. `shifted_bar_dropped` are two articles of which the second is
dropped.
-/

namespace Feedpulse

open AlertsRepository (served)
open Prog (exec exec_invoke exec_bind_ok exec_invoke_bind_of_waits)

namespace Entries

/-! ## Texts joined with a separator -/

/-- Two texts joined with a separator are the same as two others exactly if they are the same
two, or the separator in the middle is another one. -/
theorem append_separator_eq_iff {α : Type} {c : α} {x y x' y' : List α} :
    x ++ c :: y = x' ++ c :: y' ↔ (x = x' ∧ y = y') ∨
      (∃ m, x' = x ++ c :: m ∧ y = m ++ c :: y') ∨ ∃ m, x = x' ++ c :: m ∧ y' = m ++ c :: y := by
  constructor
  · intro h
    rcases List.append_eq_append_iff.mp h with ⟨rest, hx', hrest⟩ | ⟨rest, hx, hrest⟩
    · cases rest with
      | nil =>
        refine .inl ⟨(List.append_nil x ▸ hx').symm, ?_⟩
        exact (List.cons.inj hrest).2
      | cons d m =>
        obtain ⟨rfl, hy⟩ := List.cons.inj hrest
        exact .inr (.inl ⟨m, hx', hy⟩)
    · cases rest with
      | nil =>
        refine .inl ⟨List.append_nil x' ▸ hx, ?_⟩
        exact (List.cons.inj hrest).2.symm
      | cons d m =>
        obtain ⟨rfl, hy⟩ := List.cons.inj hrest
        exact .inr (.inr ⟨m, hx, hy⟩)
  · rintro (⟨rfl, rfl⟩ | ⟨m, rfl, rfl⟩ | ⟨m, rfl, rfl⟩)
    · rfl
    · simp
    · simp

/-- The last separator tells the texts apart, if those behind it do not contain it. -/
theorem append_separator_inj {α : Type} {c : α} {x y x' y' : List α} (hy : c ∉ y) (hy' : c ∉ y') :
    x ++ c :: y = x' ++ c :: y' ↔ x = x' ∧ y = y' := by
  rw [append_separator_eq_iff]
  refine or_iff_left ?_
  rintro (⟨m, -, rfl⟩ | ⟨m, -, rfl⟩)
  · exact hy (List.mem_append_right m List.mem_cons_self)
  · exact hy' (List.mem_append_right m List.mem_cons_self)

/-! ## Identities -/

/-- What tells two items apart: link, guid and instant, each possibly empty. -/
structure Identity where
  /-- the link -/
  link : String
  /-- the guid -/
  guid : String
  /-- the publication instant -/
  publishedAt : String
  deriving DecidableEq, Repr

/-- The text that is hashed. -/
def Identity.text (i : Identity) : String := i.link ++ "|" ++ i.guid ++ "|" ++ i.publishedAt

/-- The identity of an entry. -/
def identity (e : NormalizedEntry) : Identity :=
  { link := e.link.getD "", guid := e.guid.getD "", publishedAt := e.publishedAt.getD "" }

/-- The link of the one is that of the other with a piece of its guid behind a bar, and the guid
of the other begins with that piece. -/
def Identity.Shifts (i j : Identity) : Prop :=
  ∃ piece, j.link = i.link ++ "|" ++ piece ∧ i.guid = piece ++ "|" ++ j.guid

/-- The identities differ in where a bar stands only. -/
def Identity.Confused (i j : Identity) : Prop :=
  i.publishedAt = j.publishedAt ∧ (i.Shifts j ∨ j.Shifts i)

theorem Identity.toList_text (i : Identity) :
    i.text.toList = (i.link.toList ++ '|' :: i.guid.toList) ++ '|' :: i.publishedAt.toList := by
  simp [text]

theorem shifts_iff {i j : Identity} : i.Shifts j ↔ ∃ m, j.link.toList = i.link.toList ++ '|' :: m ∧
    i.guid.toList = m ++ '|' :: j.guid.toList := by
  constructor
  · rintro ⟨piece, hlink, hguid⟩
    exact ⟨piece.toList, by simp [hlink], by simp [hguid]⟩
  · rintro ⟨m, hlink, hguid⟩
    refine ⟨String.ofList m, ?_, ?_⟩
    · exact String.toList_inj.mp (by simp [hlink])
    · exact String.toList_inj.mp (by simp [hguid])

/-- The link with the piece is the longer one. -/
theorem Identity.Shifts.link_length_lt {i j : Identity} (h : i.Shifts j) :
    i.link.toList.length < j.link.toList.length := by
  obtain ⟨m, hlink, -⟩ := shifts_iff.mp h
  rw [hlink, List.length_append, List.length_cons]
  omega

/-- **Two identities are hashed alike** exactly if they are the same, or differ in where a bar
stands only. -/
theorem text_eq_iff {i j : Identity} (hi : '|' ∉ i.publishedAt.toList)
    (hj : '|' ∉ j.publishedAt.toList) : i.text = j.text ↔ i = j ∨ i.Confused j := by
  rw [← String.toList_inj, i.toList_text, j.toList_text, append_separator_inj hi hj,
    append_separator_eq_iff, ← shifts_iff, ← shifts_iff, String.toList_inj, String.toList_inj,
    String.toList_inj]
  constructor
  · rintro ⟨⟨hlink, hguid⟩ | hshifts, hinstant⟩
    · cases i
      cases j
      simp_all
    · exact .inr ⟨hinstant, hshifts⟩
  · rintro (rfl | ⟨hinstant, hshifts⟩)
    · exact ⟨.inl ⟨rfl, rfl⟩, rfl⟩
    · exact ⟨.inr hshifts, hinstant⟩

/-! ## The backfill -/

/-- The columns of an entry that the backfill hashes. -/
structure StoredEntry where
  /-- `link` -/
  link : Option String
  /-- `guid` -/
  guid : Option String
  /-- `published_at` in microseconds -/
  publishedAt : Option Int
  deriving DecidableEq, Repr

/-- The text `feedpulse_entry_content_hash` hashes; `toChar` writes an instant in milliseconds. -/
def feedpulseEntryContentHashText (toChar : Int → String) (e : StoredEntry) : String :=
  e.link.getD "" ++ "|" ++ e.guid.getD "" ++ "|" ++
    (e.publishedAt.map fun micros => toChar (micros / 1000)).getD ""

/-- The identity of a stored entry as it is written for the hash. -/
def StoredEntry.identity (toChar : Int → String) (e : StoredEntry) : Identity :=
  { link := e.link.getD ""
    guid := e.guid.getD ""
    publishedAt := (e.publishedAt.map fun micros => toChar (micros / 1000)).getD "" }

/-- An instant that may be missing is written without a bar, if instants are. -/
theorem bar_notMem_getD {instant : Option String}
    (h : ∀ text, instant = some text → '|' ∉ text.toList) : '|' ∉ (instant.getD "").toList := by
  rcases hinstant : instant with _ | text
  · exact List.not_mem_nil
  · exact h text hinstant

end Entries

/-! ## Insertion -/

/-- An insert either finds a conflicting entry and changes nothing, or adds its own. -/
theorem World.insertEntry_reports {w w' : World} {pid : Nat} {t : Txn} {tenantId : String}
    {feedId : Nat} {e : NormalizedEntry} {r : Option EntryRow} (ht : w.txn pid = some t)
    (h : w.insertEntry pid tenantId feedId e = some (r, w')) :
    ((w.entries ++ t.entries).any (Entries.conflicts feedId e) = true ∧ r = none ∧ w' = w) ∨
      ((w.entries ++ t.entries).any (Entries.conflicts feedId e) = false ∧
        ∃ row, r = some row ∧ row.feedId = feedId ∧ row.entry = e ∧ w'.entries = w.entries ∧
          w'.txn pid = some { t with entries := t.entries ++ [row] }) := by
  unfold World.insertEntry at h
  rw [ht] at h
  obtain ⟨-, h⟩ := Option.ite_none_left_eq_some.mp h
  split at h
  · rename_i hany
    obtain ⟨rfl, rfl⟩ := Prod.mk.inj (Option.some.inj h)
    exact .inl ⟨hany, rfl, rfl⟩
  · rename_i hany
    obtain ⟨rfl, rfl⟩ := Prod.mk.inj (Option.some.inj h)
    exact .inr ⟨Bool.eq_false_iff.mpr hany, _, rfl, rfl, rfl, rfl,
      (txn_setTxn w pid pid _).trans (if_pos rfl)⟩

namespace Entries

variable {rt : Runtime} {w w' : World} {pid : Nat} {t : Txn} {tenantId : String} {feedId : Nat}

/-- A call that inserts the rest of a batch after one entry. -/
theorem insertMany_cons_executes {e : NormalizedEntry} {entries : List NormalizedEntry}
    {rows : List EntryRow}
    (h : exec (served pid) (insertMany tenantId feedId (e :: entries)) w = some (.ok rows, w')) :
    ∃ r w₁ created, w.insertEntry pid tenantId feedId e = some (r, w₁) ∧
      exec (served pid) (insertMany tenantId feedId entries) w₁ = some (.ok created, w') ∧
      rows = r.toList ++ created := by
  rw [insertMany] at h
  obtain ⟨r, w₁, hwrite, h⟩ := Prog.exec_bind_returns h
  obtain ⟨created, w₂, hrest, h⟩ := Prog.exec_bind_returns h
  obtain ⟨hout, rfl⟩ := Prod.mk.inj (Option.some.inj h)
  refine ⟨r, w₁, created, ?_, hrest, (Except.ok.inj hout).symm⟩
  rcases hinsert : w.insertEntry pid tenantId feedId e with _ | out
  · have hwaits : served pid w (.ingest (.insertEntry tenantId feedId e)) = none := by
      simp [served, Call.answer, Call.serve, IngestCall.serve, hinsert]
    rw [ingestCall, ← bind_pure (Prog.invoke _), exec_invoke_bind_of_waits hwaits] at hwrite
    cases hwrite
  · have hserved : served pid w (.ingest (.insertEntry tenantId feedId e))
        = some (.ok out.1, out.2) := by
      simp [served, Call.answer, Call.serve, IngestCall.serve, hinsert]
    rw [ingestCall, exec_invoke hserved] at hwrite
    obtain ⟨hr, rfl⟩ := Prod.mk.inj (Option.some.inj hwrite)
    rw [← Except.ok.inj hr]

/-- **The second of two entries is dropped** exactly if it has the guid or the hash of the
first, where the feed has no other entries. -/
theorem insertMany_pair {first second : NormalizedEntry} {rows : List EntryRow}
    (ht : w.txn pid = some t) (hfeed : ∀ row ∈ w.entries ++ t.entries, row.feedId ≠ feedId)
    (h : exec (served pid) (insertMany tenantId feedId [first, second]) w
      = some (.ok rows, w')) :
    rows.map EntryRow.entry = [first, second] ↔
      ¬(second.guid.isSome = true ∧ first.guid = second.guid) ∧
        first.contentHash ≠ second.contentHash := by
  obtain ⟨r₁, w₁, created, hfirst, hrest, rfl⟩ := insertMany_cons_executes h
  obtain ⟨r₂, w₂, none', hsecond, hnil, rfl⟩ := insertMany_cons_executes hrest
  obtain rfl : none' = [] := by
    obtain ⟨hout, -⟩ := Prod.mk.inj (Option.some.inj hnil)
    exact (Except.ok.inj hout).symm
  have hfree : ∀ e, (w.entries ++ t.entries).any (conflicts feedId e) = false := by
    intro e
    refine List.any_eq_false.mpr fun row hrow => ?_
    simp [conflicts, hfeed row hrow]
  rcases World.insertEntry_reports ht hfirst with ⟨hany, -, -⟩ | ⟨-, row, rfl, hid, hentry, hw, ht₁⟩
  · rw [hfree first] at hany
    cases hany
  have hconflicts : (w₁.entries ++ (t.entries ++ [row])).any (conflicts feedId second)
      = (second.guid.isSome && decide (first.guid = second.guid)
        || decide (first.contentHash = second.contentHash)) := by
    rw [hw, ← List.append_assoc, List.any_append, hfree second]
    simp [conflicts, hid, hentry]
  have hdropped : ((second.guid.isSome && decide (first.guid = second.guid)
      || decide (first.contentHash = second.contentHash)) = false) ↔
        ¬(second.guid.isSome = true ∧ first.guid = second.guid) ∧
          first.contentHash ≠ second.contentHash := by
    rw [← not_or, Bool.eq_false_iff, ne_eq, Bool.or_eq_true, Bool.and_eq_true,
      decide_eq_true_eq, decide_eq_true_eq]
  rw [← hdropped, ← hconflicts]
  rcases World.insertEntry_reports ht₁ hsecond with
    ⟨hany, rfl, -⟩ | ⟨hany, row', rfl, -, hentry', -⟩
  · rw [hany]
    simp [hentry]
  · rw [hany]
    simp [hentry, hentry']

/-! ## The law -/

/-- The hash is made of the identity. -/
theorem contentHash_normalizeItem (item : FeedItem) :
    (normalizeItem rt item).contentHash = rt.sha256Hex (identity (normalizeItem rt item)).text :=
  rfl

/-- An instant is written as the runtime writes dates. -/
theorem bar_notMem_publishedAt (hiso : ∀ value text, rt.parseDate value = some text →
    '|' ∉ text.toList) (item : FeedItem) :
    '|' ∉ (identity (normalizeItem rt item)).publishedAt.toList := by
  refine bar_notMem_getD fun text htext => ?_
  have hdate : normalizePublishedAt rt (item.isoDate.or item.pubDate) = some text := htext
  unfold normalizePublishedAt at hdate
  split at hdate
  · obtain ⟨value, -, hvalue⟩ := Option.bind_eq_some_iff.mp hdate
    exact hiso value text hvalue
  · cases hdate

/-- **Two items with different identities are hashed differently**, and are both inserted if
their guids differ too, exactly if they do not differ in where a bar stands only. The texts of
the backfill differ exactly if the stored identities, with their instants as they are written,
are different and do not differ in where a bar stands only. -/
theorem identities_distinct_iff (hiso : ∀ value text, rt.parseDate value = some text →
    '|' ∉ text.toList) (hhash : Function.Injective rt.sha256Hex) :
    (∀ a b : FeedItem, ∀ first second, normalizeItem rt a = first → normalizeItem rt b = second →
      identity first ≠ identity second →
        (contentHashText first.link first.guid first.publishedAt
            ≠ contentHashText second.link second.guid second.publishedAt ↔
          ¬(identity first).Confused (identity second)) ∧
        ∀ w w' pid t tenantId feedId rows, w.txn pid = some t →
          (∀ row ∈ w.entries ++ t.entries, row.feedId ≠ feedId) →
          exec (served pid) (insertMany tenantId feedId [first, second]) w
            = some (.ok rows, w') →
          (rows.map EntryRow.entry = [first, second] ↔
            ¬(second.guid.isSome = true ∧ first.guid = second.guid) ∧
              ¬(identity first).Confused (identity second))) ∧
    ∀ toChar : Int → String, (∀ instant, '|' ∉ (toChar instant).toList) →
      ∀ first second : StoredEntry,
        feedpulseEntryContentHashText toChar first ≠ feedpulseEntryContentHashText toChar second ↔
          first.identity toChar ≠ second.identity toChar ∧
            ¬(first.identity toChar).Confused (second.identity toChar) := by
  constructor
  · rintro a b first second rfl rfl hne
    have htext : (identity (normalizeItem rt a)).text = (identity (normalizeItem rt b)).text ↔
        (identity (normalizeItem rt a)).Confused (identity (normalizeItem rt b)) := by
      rw [text_eq_iff (bar_notMem_publishedAt hiso a) (bar_notMem_publishedAt hiso b)]
      exact or_iff_right hne
    refine ⟨not_congr htext, fun w w' pid t tenantId feedId rows ht hfeed h => ?_⟩
    rw [insertMany_pair ht hfeed h, contentHash_normalizeItem, contentHash_normalizeItem, ne_eq,
      hhash.eq_iff, htext]
  · intro toChar hbar first second
    have hinstant : ∀ e : StoredEntry, '|' ∉ (e.identity toChar).publishedAt.toList := by
      intro e
      refine bar_notMem_getD fun text htext => ?_
      obtain ⟨micros, -, rfl⟩ := Option.map_eq_some_iff.mp htext
      exact hbar _
    have htext : (first.identity toChar).text = (second.identity toChar).text ↔ _ :=
      text_eq_iff (hinstant first) (hinstant second)
    rw [← not_or]
    exact not_congr htext

/-- An item with a link and a guid only. -/
def plainItem (link guid : String) : FeedItem where
  title := none
  link := some link
  guid := some guid
  contentSnippet := none
  content := none
  isoDate := none
  pubDate := none

/-- A runtime that knows no dates and whose hash is the text itself. -/
def plainRuntime : Runtime where
  toLowerCase := id
  normalizeNFD := id
  isLetterOrNumber := Char.isAlphanum
  sha256Hex := id
  parseDate := fun _ => none
  parseFeed := fun _ => .ok []
  decipher := fun _ _ _ _ _ _ => none

/-- A fetch of the only feed is inserting its first entries. -/
def firstFetch : World :=
  { System.oneFeed.world with txns := [(1, Txn.empty)] }

/-- The entry of such an item. -/
def plainEntry (link guid : String) : NormalizedEntry :=
  normalizeItem plainRuntime (plainItem link guid)

/-- The text that is hashed for an entry. -/
def hashText (e : NormalizedEntry) : String := contentHashText e.link e.guid e.publishedAt

/-- Two articles with their own links and guids are hashed differently. -/
theorem identities_distinct_iff_twoArticles :
    hashText (plainEntry "https://h/a" "1") ≠ hashText (plainEntry "https://h/b" "2") := by
  have hdates : ∀ value text, plainRuntime.parseDate value = some text → '|' ∉ text.toList := by
    intro value text h
    cases h
  refine ((identities_distinct_iff hdates Function.injective_id).1 (plainItem "https://h/a" "1")
    (plainItem "https://h/b" "2") _ _ rfl rfl (by decide)).1.mpr ?_
  rintro ⟨-, hshifts | hshifts⟩
  · exact absurd hshifts.link_length_lt (by decide)
  · exact absurd hshifts.link_length_lt (by decide)

/-- The guid of an article begins with a piece that another article has behind a bar in its
link: the two are hashed alike, and the second one is dropped. -/
theorem shifted_bar_dropped :
    identity (plainEntry "https://h/?q=a|b" "c") ≠ identity (plainEntry "https://h/?q=a" "b|c") ∧
      (plainEntry "https://h/?q=a|b" "c").guid ≠ (plainEntry "https://h/?q=a" "b|c").guid ∧
      hashText (plainEntry "https://h/?q=a|b" "c") = hashText (plainEntry "https://h/?q=a" "b|c") ∧
      (exec (served 1) (insertMany "t" 1
          [plainEntry "https://h/?q=a|b" "c", plainEntry "https://h/?q=a" "b|c"]) firstFetch).any
        (fun r => r.1.toOption.any fun rows =>
          rows.map EntryRow.entry = [plainEntry "https://h/?q=a|b" "c"]) = true := by
  decide

end Entries

end Feedpulse
