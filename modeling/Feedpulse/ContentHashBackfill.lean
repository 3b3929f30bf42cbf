import Feedpulse.EntryIdentity
import Mathlib.Data.List.Perm.Basic
import Mathlib.Data.List.Nodup

/-!
# The backfill of the content hashes

Migration 0017 gives the entries the hash by which ingestion recognises an article, batch by batch
and under the unique index on `(feed_id, content_hash)`. A hash that some entry holds cannot be
given to another one. An entry that holds the hash of another article gives it up when it gets its
own, and nobody may come after it to take it over: `reidentifies_iff` says when that happens.
-/

namespace Feedpulse

namespace Backfill

open Entries (StoredEntry feedpulseEntryContentHashText)

/-! ## The table -/

/-- A row of `entries`. -/
structure EntryRecord where
  /-- primary key, from a sequence that begins with 1 -/
  id : Nat
  /-- the feed -/
  feedId : Nat
  /-- title -/
  title : Option String
  /-- content -/
  content : Option String
  /-- the columns that are hashed -/
  stored : StoredEntry
  /-- `content_hash` -/
  contentHash : String
  deriving DecidableEq, Repr

/-- What the migration calls. -/
structure Functions where
  /-- `encode(sha256(convert_to(…, 'UTF8')), 'hex')` -/
  sha256Hex : String → String
  /-- `to_char` of an instant in milliseconds -/
  toChar : Int → String

variable (fn : Functions)

/-- `feedpulse_entry_content_hash(e.link, e.guid, e.published_at)`. -/
def entryContentHash (e : EntryRecord) : String :=
  fn.sha256Hex (feedpulseEntryContentHashText fn.toChar e.stored)

/-- The table is as its keys promise. -/
structure Keyed (entries : List EntryRecord) : Prop where
  /-- the primary key -/
  ids : (entries.map EntryRecord.id).Nodup
  /-- the sequence behind it -/
  positive : ∀ e ∈ entries, 0 < e.id
  /-- `UNIQUE (feed_id, content_hash)` -/
  hashes : ∀ e ∈ entries, ∀ x ∈ entries, e.feedId = x.feedId → e.contentHash = x.contentHash →
    e.id = x.id

/-! ## The statement -/

/-- `batch_size`. -/
def batchSize : Nat := 5000

/-- `candidate`: the entries of the batch whose hash is an old one. -/
def candidate (batchStart : Nat) (entries : List EntryRecord) : List EntryRecord :=
  entries.filter fun e => batchStart < e.id && e.id ≤ batchStart + batchSize &&
    e.contentHash ≠ entryContentHash fn e

/-- `deduped`: `DISTINCT ON (feed_id, new_hash)`, ordered by `id`. -/
def deduped (candidates : List EntryRecord) : List EntryRecord :=
  candidates.filter fun d => candidates.all fun c =>
    !(c.feedId = d.feedId && entryContentHash fn c = entryContentHash fn d) || d.id ≤ c.id

/-- `applicable`: those whose new hash no other entry of the feed holds, with this hash. -/
def applicable (entries ds : List EntryRecord) : List (Nat × String) :=
  (ds.filter fun d => entries.all fun x =>
    !(x.feedId = d.feedId && x.contentHash = entryContentHash fn d && x.id ≠ d.id)).map
      fun d => (d.id, entryContentHash fn d)

/-- The violation of the unique index. -/
def uniqueViolation : String :=
  "duplicate key value violates unique constraint \"entries_feed_id_content_hash_key\""

/-- The `SET` clause. -/
def setContentHash (hash : String) (e : EntryRecord) : EntryRecord := { e with contentHash := hash }

/-- The update of one row: the index is checked at once. -/
def updateEntry (id : Nat) (hash : String) (entries : List EntryRecord) :
    Except String (List EntryRecord) :=
  if entries.any fun e => e.id = id && entries.any fun x =>
      x.id ≠ id && x.feedId = e.feedId && x.contentHash = hash then .error uniqueViolation
  else .ok (Table.updateWhere (fun e => e.id = id) (setContentHash hash) entries)

/-- The rows of an `UPDATE … FROM`, one after the other. -/
def updateEntries : List (Nat × String) → List EntryRecord → Except String (List EntryRecord)
  | [], entries => .ok entries
  | (id, hash) :: updates, entries => do
    let entries ← updateEntry id hash entries
    updateEntries updates entries

/-- The body of the loop; the rows are updated in whatever order the plan has. -/
def batch (order : List (Nat × String) → List (Nat × String)) (batchStart : Nat)
    (entries : List EntryRecord) : Except String (List EntryRecord) :=
  updateEntries (order (applicable fn entries (deduped fn (candidate fn batchStart entries))))
    entries

/-! ## The loop -/

/-- `COALESCE(MAX(id), 0)`. -/
def maxId (entries : List EntryRecord) : Nat := (entries.map EntryRecord.id).foldl max 0

/-- `WHILE batch_start <= max_id LOOP`, for at most `fuel` rounds. -/
def loop (order : List (Nat × String) → List (Nat × String)) (last : Nat) :
    Nat → Nat → List EntryRecord → Option (Except String (List EntryRecord))
  | 0, _, _ => none
  | fuel + 1, batchStart, entries =>
    if batchStart ≤ last then
      match batch fn order batchStart entries with
      | .error message => some (.error message)
      | .ok entries => loop order last fuel (batchStart + batchSize) entries
    else some (.ok entries)

/-- The migration. -/
def backfill (order : List (Nat × String) → List (Nat × String)) (fuel : Nat)
    (entries : List EntryRecord) : Option (Except String (List EntryRecord)) :=
  loop fn order (maxId entries) fuel 0 entries

/-! ## The state during the loop -/

/-- The entries with the hashes of a state. -/
def withHashes (hashes : Nat → String) (entries : List EntryRecord) : List EntryRecord :=
  entries.map fun e => setContentHash (hashes e.id) e

/-- The batch in which an entry is updated. -/
def EntryRecord.batch (e : EntryRecord) : Nat := (e.id - 1) / batchSize

/-- Two entries of a feed with the same new hash. -/
def Alike (c e : EntryRecord) : Prop :=
  c.feedId = e.feedId ∧ entryContentHash fn c = entryContentHash fn e

/-- An entry is updated in the batch `k`. -/
structure Applicable (entries : List EntryRecord) (k : Nat) (hashes : Nat → String)
    (e : EntryRecord) : Prop where
  /-- it is in the batch -/
  batch : e.batch = k
  /-- its hash is an old one -/
  old : hashes e.id ≠ entryContentHash fn e
  /-- no such entry with the same new hash comes before it -/
  first : ∀ c ∈ entries, Alike fn c e → c.batch = k → hashes c.id ≠ entryContentHash fn c →
    e.id ≤ c.id
  /-- no other entry of the feed has the hash -/
  free : ∀ x ∈ entries, x.feedId = e.feedId → hashes x.id = entryContentHash fn e → x.id = e.id

/-- What the batch `k` does to the hashes. -/
structure Advance (entries : List EntryRecord) (k : Nat) (hashes hashes' : Nat → String) :
    Prop where
  /-- the applicable entries get their new hash -/
  updated : ∀ e ∈ entries, Applicable fn entries k hashes e →
    hashes' e.id = entryContentHash fn e
  /-- the others keep theirs -/
  kept : ∀ e ∈ entries, ¬Applicable fn entries k hashes e → hashes' e.id = hashes e.id

variable {fn} {entries : List EntryRecord} {k : Nat} {hashes hashes' : Nat → String}

theorem mem_withHashes {x : EntryRecord} :
    x ∈ withHashes hashes entries ↔ ∃ e ∈ entries, setContentHash (hashes e.id) e = x :=
  List.mem_map

theorem maxId_ids {e : EntryRecord} (he : e ∈ entries) : e.id ≤ maxId entries := by
  have h : ∀ (ids : List Nat) (m : Nat),
      m ≤ ids.foldl max m ∧ ∀ id ∈ ids, id ≤ ids.foldl max m := by
    intro ids
    induction ids with
    | nil => exact fun m => ⟨le_rfl, nofun⟩
    | cons id ids ih =>
      intro m
      obtain ⟨hm, hids⟩ := ih (max m id)
      refine ⟨(le_max_left m id).trans hm, fun i hi => ?_⟩
      rcases List.mem_cons.mp hi with rfl | hi
      · exact (le_max_right m i).trans hm
      · exact hids i hi
  exact (h (entries.map EntryRecord.id) 0).2 e.id (List.mem_map_of_mem he)

/-- An entry belongs to the batch `k` if its id is in the range of the round. -/
theorem batch_eq_iff {e : EntryRecord} (hpos : 0 < e.id) :
    e.batch = k ↔ batchSize * k < e.id ∧ e.id ≤ batchSize * k + batchSize := by
  unfold EntryRecord.batch batchSize
  omega

theorem mem_candidate {e : EntryRecord} (hpos : 0 < e.id) (he : e ∈ entries) :
    setContentHash (hashes e.id) e ∈ candidate fn (batchSize * k) (withHashes hashes entries) ↔
      e.batch = k ∧ hashes e.id ≠ entryContentHash fn e := by
  unfold candidate
  rw [List.mem_filter, and_iff_right (mem_withHashes.mpr ⟨e, he, rfl⟩)]
  simp only [Bool.and_eq_true, decide_eq_true_eq]
  rw [batch_eq_iff hpos]
  exact Iff.rfl

/-- **The rows to update** are those of the applicable entries. -/
theorem mem_applicable (hkeyed : Keyed entries) {id : Nat} {hash : String} :
    (id, hash) ∈ applicable fn (withHashes hashes entries) (deduped fn
        (candidate fn (batchSize * k) (withHashes hashes entries))) ↔
      ∃ e ∈ entries, Applicable fn entries k hashes e ∧ e.id = id ∧
        entryContentHash fn e = hash := by
  have hcandidate : ∀ c ∈ candidate fn (batchSize * k) (withHashes hashes entries),
      ∃ e ∈ entries, setContentHash (hashes e.id) e = c ∧ e.batch = k ∧
        hashes e.id ≠ entryContentHash fn e := by
    intro c hc
    obtain ⟨e, he, rfl⟩ := mem_withHashes.mp (List.mem_filter.mp hc).1
    exact ⟨e, he, rfl, (mem_candidate (hkeyed.positive e he) he).mp hc⟩
  unfold applicable
  simp only [List.mem_map, List.mem_filter, deduped, List.all_eq_true, Bool.or_eq_true,
    Bool.not_eq_true', decide_eq_true_eq, Prod.mk.injEq]
  constructor
  · rintro ⟨d, ⟨⟨hd, hfirst⟩, hfree⟩, rfl, rfl⟩
    obtain ⟨e, he, rfl, hbatch, hold⟩ := hcandidate d hd
    refine ⟨e, he, ⟨hbatch, hold, ?_, ?_⟩, rfl, rfl⟩
    · intro c hc halike hcbatch hcold
      have hmem := (mem_candidate (hkeyed.positive c hc) hc).mpr ⟨hcbatch, hcold⟩
      rcases hfirst _ hmem with hother | hle
      · exact absurd (Bool.and_eq_true_iff.mpr
          ⟨decide_eq_true halike.1, decide_eq_true halike.2⟩) (Bool.eq_false_iff.mp hother)
      · exact hle
    · intro x hx hfeed hhash
      have h := hfree _ (mem_withHashes.mpr ⟨x, hx, rfl⟩)
      by_contra hne
      have hall : (setContentHash (hashes x.id) x).feedId
            = (setContentHash (hashes e.id) e).feedId ∧
          (setContentHash (hashes x.id) x).contentHash
            = entryContentHash fn (setContentHash (hashes e.id) e) ∧
          (setContentHash (hashes x.id) x).id ≠ (setContentHash (hashes e.id) e).id :=
        ⟨hfeed, hhash, hne⟩
      simp [hall] at h
  · rintro ⟨e, he, happlicable, rfl, rfl⟩
    refine ⟨setContentHash (hashes e.id) e, ⟨⟨?_, ?_⟩, ?_⟩, rfl, rfl⟩
    · exact (mem_candidate (hkeyed.positive e he) he).mpr ⟨happlicable.batch, happlicable.old⟩
    · intro c hc
      obtain ⟨c, hmem, rfl, hbatch, hold⟩ := hcandidate c hc
      by_cases halike : Alike fn c e
      · exact .inr (happlicable.first c hmem halike hbatch hold)
      · refine .inl (Bool.eq_false_iff.mpr fun hboth => halike ?_)
        obtain ⟨hfeed, hhash⟩ := Bool.and_eq_true_iff.mp hboth
        exact ⟨of_decide_eq_true hfeed, of_decide_eq_true hhash⟩
    · intro x hx
      obtain ⟨x, hmem, rfl⟩ := mem_withHashes.mp hx
      by_contra hclash
      simp only [Bool.not_eq_false, Bool.and_eq_true, decide_eq_true_eq] at hclash
      exact hclash.2 (happlicable.free x hmem hclash.1.1 hclash.1.2)

/-- Every hash is that of the beginning of the round, or the new one of an applicable entry. -/
def Halfway (fn : Functions) (entries : List EntryRecord) (k : Nat)
    (hashes hashes' : Nat → String) : Prop :=
  ∀ e ∈ entries, hashes' e.id = hashes e.id ∨
    (Applicable fn entries k hashes e ∧ hashes' e.id = entryContentHash fn e)

/-- The update of an applicable entry goes through. -/
theorem updateEntry_eq (hkeyed : Keyed entries) (h : Halfway fn entries k hashes hashes')
    {e : EntryRecord} (he : e ∈ entries) (happlicable : Applicable fn entries k hashes e) :
    updateEntry e.id (entryContentHash fn e) (withHashes hashes' entries)
      = .ok (withHashes (Function.update hashes' e.id (entryContentHash fn e)) entries) := by
  have hclash : ((withHashes hashes' entries).any fun y => y.id = e.id &&
      (withHashes hashes' entries).any fun x => x.id ≠ e.id && x.feedId = y.feedId &&
        x.contentHash = entryContentHash fn e) = false := by
    rw [List.any_eq_false]
    intro y hy hclash
    obtain ⟨y, hymem, rfl⟩ := mem_withHashes.mp hy
    simp only [Bool.and_eq_true, decide_eq_true_eq, List.any_eq_true] at hclash
    obtain ⟨hid, x, hx, ⟨hne, hfeed⟩, hhash⟩ := hclash
    obtain ⟨x, hxmem, rfl⟩ := mem_withHashes.mp hx
    obtain rfl := List.inj_on_of_nodup_map hkeyed.ids hymem he hid
    rcases h x hxmem with hsame | ⟨happlicable', hnew⟩
    · exact hne (happlicable.free x hxmem hfeed (hsame.symm.trans hhash))
    · -- two applicable entries with the same new hash
      have halike : Alike fn x y := ⟨hfeed, hnew.symm.trans hhash⟩
      exact hne (le_antisymm
        (happlicable'.first y hymem ⟨halike.1.symm, halike.2.symm⟩ happlicable.batch
          happlicable.old)
        (happlicable.first x hxmem halike happlicable'.batch happlicable'.old))
  rw [updateEntry, if_neg (by rw [hclash]; exact Bool.false_ne_true)]
  refine congrArg Except.ok ?_
  rw [Table.updateWhere, withHashes, withHashes, List.map_map]
  refine List.map_congr_left fun x _ => ?_
  by_cases hid : x.id = e.id
  · simp [setContentHash, hid]
  · simp [setContentHash, hid]

/-- **The updates of a round** go through in any order. -/
theorem updateEntries_eq (hkeyed : Keyed entries) {updates : List (Nat × String)}
    (h : Halfway fn entries k hashes hashes')
    (hupdates : ∀ u ∈ updates, ∃ e ∈ entries, Applicable fn entries k hashes e ∧ e.id = u.1 ∧
      entryContentHash fn e = u.2) :
    ∃ hashes'', updateEntries updates (withHashes hashes' entries)
        = .ok (withHashes hashes'' entries) ∧ Halfway fn entries k hashes hashes'' ∧
      ∀ e ∈ entries, Applicable fn entries k hashes e →
        (hashes' e.id = entryContentHash fn e ∨ (e.id, entryContentHash fn e) ∈ updates) →
        hashes'' e.id = entryContentHash fn e := by
  induction updates generalizing hashes' with
  | nil =>
    refine ⟨hashes', rfl, h, fun e _ _ hnew => ?_⟩
    exact hnew.resolve_right List.not_mem_nil
  | cons u updates ih =>
    obtain ⟨e, he, happlicable, hid, hhash⟩ := hupdates u List.mem_cons_self
    have hhalfway : Halfway fn entries k hashes
        (Function.update hashes' e.id (entryContentHash fn e)) := by
      intro x hx
      by_cases hxid : x.id = e.id
      · obtain rfl := List.inj_on_of_nodup_map hkeyed.ids hx he hxid
        exact .inr ⟨happlicable, Function.update_self ..⟩
      · rw [Function.update_of_ne hxid]
        exact h x hx
    obtain ⟨hashes'', hrun, hhalfway', hdone⟩ :=
      ih hhalfway fun v hv => hupdates v (List.mem_cons_of_mem u hv)
    refine ⟨hashes'', ?_, hhalfway', fun x hx hxapplicable hnew => hdone x hx hxapplicable ?_⟩
    · have hfirst := updateEntry_eq hkeyed h he happlicable
      obtain ⟨id, hash⟩ := u
      obtain rfl : e.id = id := hid
      obtain rfl : entryContentHash fn e = hash := hhash
      rw [updateEntries, hfirst]
      exact hrun
    · by_cases hxid : x.id = e.id
      · obtain rfl := List.inj_on_of_nodup_map hkeyed.ids hx he hxid
        exact .inl (Function.update_self ..)
      · rw [Function.update_of_ne hxid]
        refine hnew.imp_right fun hmem => ?_
        refine (List.mem_cons.mp hmem).resolve_left fun hu => hxid ?_
        rw [hid, ← hu]

/-- **A round** updates the applicable entries, and no others. -/
theorem batch_eq {order : List (Nat × String) → List (Nat × String)}
    (horder : ∀ updates, (order updates).Perm updates) (hkeyed : Keyed entries) :
    ∃ hashes', batch fn order (batchSize * k) (withHashes hashes entries)
        = .ok (withHashes hashes' entries) ∧ Advance fn entries k hashes hashes' := by
  have hmem : ∀ u, u ∈ order (applicable fn (withHashes hashes entries) (deduped fn
      (candidate fn (batchSize * k) (withHashes hashes entries)))) ↔
        ∃ e ∈ entries, Applicable fn entries k hashes e ∧ e.id = u.1 ∧
          entryContentHash fn e = u.2 := fun u =>
    (horder _).mem_iff.trans (mem_applicable hkeyed)
  obtain ⟨hashes', hrun, hhalfway, hdone⟩ := updateEntries_eq hkeyed
    (fun e _ => .inl rfl : Halfway fn entries k hashes hashes) fun u hu => (hmem u).mp hu
  refine ⟨hashes', hrun, fun e he happlicable => ?_, fun e he hnot => ?_⟩
  · exact hdone e he happlicable (.inr ((hmem _).mpr ⟨e, he, happlicable, rfl, rfl⟩))
  · exact (hhalfway e he).resolve_right fun h => hnot h.1

/-! ## Hashes that are given up -/

variable (fn entries) in
/-- An entry gives up its hash. Its new one is held by no entry of the feed, and it is the first
that gets it; or an entry of an earlier batch gives it up, and it is the first after that. -/
inductive GivesUp : EntryRecord → Prop
  /-- the new hash is held by nobody -/
  | first (e : EntryRecord) (he : e ∈ entries)
    (hfree : ∀ x ∈ entries, x.feedId = e.feedId → x.contentHash ≠ entryContentHash fn e)
    (hfirst : ∀ c ∈ entries, Alike fn c e → e.id ≤ c.id) : GivesUp e
  /-- the new hash is given up -/
  | after (holder e : EntryRecord) (hholder : GivesUp holder) (he : e ∈ entries)
    (hfeed : holder.feedId = e.feedId) (hheld : holder.contentHash = entryContentHash fn e)
    (hlater : holder.batch < e.batch)
    (hfirst : ∀ c ∈ entries, Alike fn c e → holder.batch < c.batch → e.id ≤ c.id) : GivesUp e

variable (fn entries) in
/-- **Every hash that is given up is taken over** in a later batch, if it is the new one of an
entry of the feed at all. -/
def TakenOver : Prop :=
  ∀ holder, GivesUp fn entries holder → ∀ e ∈ entries, e.feedId = holder.feedId →
    entryContentHash fn e = holder.contentHash →
      ∃ c ∈ entries, Alike fn c e ∧ holder.batch < c.batch

theorem GivesUp.mem {e : EntryRecord} (h : GivesUp fn entries e) : e ∈ entries := by
  cases h with
  | first _ he => exact he
  | after _ _ _ he => exact he

theorem batch_mono {c e : EntryRecord} (h : c.id ≤ e.id) : c.batch ≤ e.batch :=
  Nat.div_le_div_right (Nat.sub_le_sub_right h 1)

/-- Of some entries one has the least id. -/
theorem exists_first (P : EntryRecord → Prop) (h : ∃ e ∈ entries, P e) :
    ∃ e ∈ entries, P e ∧ ∀ c ∈ entries, P c → e.id ≤ c.id := by
  classical
  have hid : ∃ id, ∃ e ∈ entries, P e ∧ e.id = id := by
    obtain ⟨e, he, hP⟩ := h
    exact ⟨e.id, e, he, hP, rfl⟩
  obtain ⟨e, he, hP, heq⟩ := Nat.find_spec hid
  refine ⟨e, he, hP, fun c hc hPc => ?_⟩
  rw [heq]
  exact Nat.find_min' hid ⟨c, hc, hPc, rfl⟩

/-- A hash that nobody holds is taken by the first entry for which it is the new one. -/
theorem exists_first_givesUp {e : EntryRecord} (he : e ∈ entries)
    (hfree : ∀ x ∈ entries, x.feedId = e.feedId → x.contentHash ≠ entryContentHash fn e) :
    ∃ c, GivesUp fn entries c ∧ Alike fn c e ∧ c.id ≤ e.id := by
  obtain ⟨c, hc, halike, hfirst⟩ :=
    exists_first (fun c => Alike fn c e) ⟨e, he, rfl, rfl⟩
  refine ⟨c, .first c hc ?_ fun x hx hxalike => hfirst x hx ?_, halike, ?_⟩
  · intro x hx hfeed
    rw [halike.2]
    exact hfree x hx (hfeed.trans halike.1)
  · exact ⟨hxalike.1.trans halike.1, hxalike.2.trans halike.2⟩
  · exact hfirst e he ⟨rfl, rfl⟩

/-- A hash that is given up is taken by the first entry in a later batch for which it is the new
one. -/
theorem exists_after_givesUp {holder e : EntryRecord} (hholder : GivesUp fn entries holder)
    (he : e ∈ entries) (hfeed : holder.feedId = e.feedId)
    (hheld : holder.contentHash = entryContentHash fn e) (hlater : holder.batch < e.batch) :
    ∃ c, GivesUp fn entries c ∧ Alike fn c e ∧ c.id ≤ e.id := by
  obtain ⟨c, hc, ⟨halike, hbatch⟩, hfirst⟩ := exists_first
    (fun c => Alike fn c e ∧ holder.batch < c.batch) ⟨e, he, ⟨rfl, rfl⟩, hlater⟩
  refine ⟨c, .after holder c hholder hc ?_ ?_ hbatch fun x hx hxalike hxbatch =>
    hfirst x hx ⟨?_, hxbatch⟩, halike, ?_⟩
  · exact hfeed.trans halike.1.symm
  · exact hheld.trans halike.2.symm
  · exact ⟨hxalike.1.trans halike.1, hxalike.2.trans halike.2⟩
  · exact hfirst e he ⟨⟨rfl, rfl⟩, hlater⟩

/-- A hash comes from an entry that has given it up before. -/
theorem GivesUp.after_holder (hkeyed : Keyed entries) {holder c : EntryRecord}
    (hc : GivesUp fn entries c) (hholder : holder ∈ entries) (hfeed : holder.feedId = c.feedId)
    (hheld : holder.contentHash = entryContentHash fn c) :
    GivesUp fn entries holder ∧ holder.batch < c.batch := by
  cases hc with
  | first _ hmem hfree hfirst => exact absurd hheld (hfree holder hholder hfeed)
  | after holder' _ hholder' hmem hfeed' hheld' hlater hfirst =>
    have hid := hkeyed.hashes holder hholder holder' hholder'.mem (hfeed.trans hfeed'.symm)
      (hheld.trans hheld'.symm)
    obtain rfl := List.inj_on_of_nodup_map hkeyed.ids hholder hholder'.mem hid
    exact ⟨hholder', hlater⟩

/-- A hash is taken by one entry only. -/
theorem GivesUp.id_le (hkeyed : Keyed entries) {c e : EntryRecord} (hc : GivesUp fn entries c)
    (he : GivesUp fn entries e) (halike : Alike fn c e) : e.id ≤ c.id := by
  cases he with
  | first _ _ _ hfirst => exact hfirst c hc.mem halike
  | after holder _ hholder hmem hfeed hheld hlater hfirst =>
    have hbefore := (hc.after_holder hkeyed hholder.mem (hfeed.trans halike.1.symm)
      (hheld.trans halike.2.symm)).2
    exact hfirst c hc.mem halike hbefore

/-! ## The state before each round -/

/-- The hashes before the batch `k`: those of the entries of earlier batches that give up their
hash are the new ones, and all others are as at the beginning. -/
structure Reached (fn : Functions) (entries : List EntryRecord) (k : Nat)
    (hashes : Nat → String) : Prop where
  /-- an entry that has given up its hash has the new one -/
  given : ∀ e ∈ entries, e.batch < k → GivesUp fn entries e →
    hashes e.id = entryContentHash fn e
  /-- all others have theirs -/
  kept : ∀ e ∈ entries, (e.batch < k → ¬GivesUp fn entries e) → hashes e.id = e.contentHash

/-- **An entry is updated in its batch exactly if it gives up its hash.** -/
theorem applicable_iff (hkeyed : Keyed entries) (h : Reached fn entries k hashes)
    {e : EntryRecord} (he : e ∈ entries) (hbatch : e.batch = k) :
    Applicable fn entries k hashes e ↔ GivesUp fn entries e := by
  have hown : hashes e.id = e.contentHash :=
    h.kept e he fun hlt => absurd (hbatch ▸ hlt) (lt_irrefl _)
  constructor
  · intro happlicable
    have hnobody : ∀ x ∈ entries, x.feedId = e.feedId → hashes x.id ≠ entryContentHash fn e := by
      intro x hx hfeed hhash
      have hid := happlicable.free x hx hfeed hhash
      exact happlicable.old (hid ▸ hhash)
    have htaker : ∃ c, GivesUp fn entries c ∧ Alike fn c e ∧ c.id ≤ e.id := by
      by_cases hheld : ∃ holder ∈ entries, holder.feedId = e.feedId ∧
          holder.contentHash = entryContentHash fn e
      · obtain ⟨holder, hholder, hfeed, hheld⟩ := hheld
        have hgiven : holder.batch < k ∧ GivesUp fn entries holder := by
          by_contra hnot
          rw [not_and] at hnot
          exact hnobody holder hholder hfeed ((h.kept holder hholder hnot).trans hheld)
        exact exists_after_givesUp hgiven.2 he hfeed hheld (hbatch ▸ hgiven.1)
      · refine exists_first_givesUp he fun x hx hfeed hhash => hheld ⟨x, hx, hfeed, hhash⟩
    obtain ⟨c, hc, halike, hle⟩ := htaker
    have hcnew := hnobody c hc.mem halike.1
    have hcbatch : c.batch = k := by
      refine le_antisymm (hbatch ▸ batch_mono hle) (not_lt.mp fun hlt => hcnew ?_)
      exact (h.given c hc.mem hlt hc).trans halike.2
    have hge := happlicable.first c hc.mem halike hcbatch (by rw [halike.2]; exact hcnew)
    obtain rfl := List.inj_on_of_nodup_map hkeyed.ids hc.mem he (le_antisymm hle hge)
    exact hc
  · intro hgives
    have hnew : e.contentHash ≠ entryContentHash fn e := fun heq =>
      absurd (hgives.after_holder hkeyed he rfl heq).2 (lt_irrefl _)
    refine ⟨hbatch, hown ▸ hnew, fun c hc halike hcbatch _ => ?_, fun x hx hfeed hhash => ?_⟩
    · cases hgives with
      | first _ _ _ hfirst => exact hfirst c hc halike
      | after holder _ _ _ _ _ hlater hfirst =>
        exact hfirst c hc halike (by rw [hcbatch, ← hbatch]; exact hlater)
    · exfalso
      by_cases hgiven : x.batch < k ∧ GivesUp fn entries x
      · -- an earlier entry would have taken the hash before it
        have halike : Alike fn x e :=
          ⟨hfeed, (h.given x hx hgiven.1 hgiven.2).symm.trans hhash⟩
        have hle := batch_mono (hgiven.2.id_le hkeyed hgives halike)
        omega
      · rw [not_and] at hgiven
        have hheld := (h.kept x hx hgiven).symm.trans hhash
        obtain ⟨hx', hlater⟩ := hgives.after_holder hkeyed hx hfeed hheld
        exact hgiven (hbatch ▸ hlater) hx'

theorem Reached.advance (hkeyed : Keyed entries) (h : Reached fn entries k hashes)
    (hadvance : Advance fn entries k hashes hashes') : Reached fn entries (k + 1) hashes' := by
  refine ⟨fun e he hlt hgives => ?_, fun e he hnot => ?_⟩
  · by_cases hbatch : e.batch = k
    · exact hadvance.updated e he ((applicable_iff hkeyed h he hbatch).mpr hgives)
    · rw [hadvance.kept e he fun happlicable => hbatch happlicable.batch]
      exact h.given e he (by omega) hgives
  · have hkeeps : ¬Applicable fn entries k hashes e := fun happlicable =>
      hnot (by have hbatch := happlicable.batch; omega)
        ((applicable_iff hkeyed h he happlicable.batch).mp happlicable)
    rw [hadvance.kept e he hkeeps]
    exact h.kept e he fun hlt => hnot (by omega)

theorem reached_zero (hkeyed : Keyed entries) :
    ∃ hashes, Reached fn entries 0 hashes ∧ withHashes hashes entries = entries := by
  have hold : ∀ e ∈ entries,
      ((Table.lookup EntryRecord.id e.id entries).map EntryRecord.contentHash).getD ""
        = e.contentHash := by
    intro e he
    rw [Table.lookup_of_mem hkeyed.ids he]
    rfl
  refine ⟨fun id => ((Table.lookup EntryRecord.id id entries).map EntryRecord.contentHash).getD "",
    ⟨fun e he hlt => absurd hlt (Nat.not_lt_zero _), fun e he _ => hold e he⟩, ?_⟩
  unfold withHashes
  conv_rhs => rw [← List.map_id entries]
  refine List.map_congr_left fun e he => ?_
  exact congrArg (fun hash => setContentHash hash e) (hold e he)

/-- **The loop ends**, and no round of it violates the index. -/
theorem loop_eq {order : List (Nat × String) → List (Nat × String)}
    (horder : ∀ updates, (order updates).Perm updates) (hkeyed : Keyed entries) {last : Nat}
    (n : Nat) (hn : k + n = last / batchSize + 1) (h : Reached fn entries k hashes) :
    ∃ hashes', Reached fn entries (last / batchSize + 1) hashes' ∧ ∀ fuel, n < fuel →
      loop fn order last fuel (batchSize * k) (withHashes hashes entries)
        = some (.ok (withHashes hashes' entries)) := by
  induction n generalizing k hashes with
  | zero =>
    obtain rfl : k = last / batchSize + 1 := hn
    refine ⟨hashes, h, fun fuel hfuel => ?_⟩
    obtain ⟨fuel, rfl⟩ := Nat.exists_eq_succ_of_ne_zero (Nat.ne_of_gt hfuel)
    rw [loop, if_neg]
    unfold batchSize
    omega
  | succ n ih =>
    obtain ⟨hashes₁, hbatch, hadvance⟩ := @batch_eq fn entries k hashes order horder hkeyed
    obtain ⟨hashes', hreached, hrest⟩ := ih (by omega) (h.advance hkeyed hadvance)
    refine ⟨hashes', hreached, fun fuel hfuel => ?_⟩
    obtain ⟨fuel, rfl⟩ := Nat.exists_eq_succ_of_ne_zero (by omega : fuel ≠ 0)
    rw [loop, if_pos, hbatch]
    · exact hrest fuel (by omega)
    · unfold batchSize at hn ⊢
      omega

/-! ## The result -/

theorem batch_lt {e : EntryRecord} (he : e ∈ entries) :
    e.batch < maxId entries / batchSize + 1 :=
  Nat.lt_succ_of_le (Nat.div_le_div_right ((Nat.sub_le _ _).trans (maxId_ids he)))

/-- The index still holds. -/
theorem keyed_withHashes (hkeyed : Keyed entries)
    (h : Reached fn entries (maxId entries / batchSize + 1) hashes) :
    Keyed (withHashes hashes entries) := by
  refine ⟨?_, ?_, ?_⟩
  · rw [withHashes, List.map_map]
    exact hkeyed.ids
  · intro x hx
    obtain ⟨e, he, rfl⟩ := mem_withHashes.mp hx
    exact hkeyed.positive e he
  · intro x hx y hy hfeed hhash
    obtain ⟨x, hxmem, rfl⟩ := mem_withHashes.mp hx
    obtain ⟨y, hymem, rfl⟩ := mem_withHashes.mp hy
    change hashes x.id = hashes y.id at hhash
    by_cases hxgives : GivesUp fn entries x
    · have hxhash := h.given x hxmem (batch_lt hxmem) hxgives
      by_cases hygives : GivesUp fn entries y
      · have hyhash := h.given y hymem (batch_lt hymem) hygives
        have halike : Alike fn x y := ⟨hfeed, hxhash.symm.trans (hhash.trans hyhash)⟩
        have hid : x.id = y.id :=
          le_antisymm (hygives.id_le hkeyed hxgives ⟨halike.1.symm, halike.2.symm⟩)
            (hxgives.id_le hkeyed hygives halike)
        exact hid
      · have hyhash := h.kept y hymem fun _ => hygives
        exact absurd (hxgives.after_holder hkeyed hymem hfeed.symm
          (hyhash.symm.trans (hhash.symm.trans hxhash))).1 hygives
    · have hxhash := h.kept x hxmem fun _ => hxgives
      by_cases hygives : GivesUp fn entries y
      · have hyhash := h.given y hymem (batch_lt hymem) hygives
        exact absurd (hygives.after_holder hkeyed hxmem hfeed
          (hxhash.symm.trans (hhash.trans hyhash))).1 hxgives
      · have hyhash := h.kept y hymem fun _ => hygives
        exact hkeyed.hashes x hxmem y hymem hfeed (hxhash.symm.trans (hhash.trans hyhash))

/-- A new hash is held in the end unless it has been given up for good. -/
theorem carried_iff (hkeyed : Keyed entries)
    (h : Reached fn entries (maxId entries / batchSize + 1) hashes) {e : EntryRecord}
    (he : e ∈ entries) :
    (∃ x ∈ entries, x.feedId = e.feedId ∧ hashes x.id = entryContentHash fn e) ↔
      ∀ holder, GivesUp fn entries holder → e.feedId = holder.feedId →
        entryContentHash fn e = holder.contentHash →
          ∃ c ∈ entries, Alike fn c e ∧ holder.batch < c.batch := by
  constructor
  · rintro ⟨x, hx, hfeed, hhash⟩ holder hholder hhfeed hheld
    by_cases hgives : GivesUp fn entries x
    · have hnew := (h.given x hx (batch_lt hx) hgives).symm.trans hhash
      exact ⟨x, hx, ⟨hfeed, hnew⟩, (hgives.after_holder hkeyed hholder.mem
        (hhfeed.symm.trans hfeed.symm) (hheld.symm.trans hnew.symm)).2⟩
    · have hold := (h.kept x hx fun _ => hgives).symm.trans hhash
      have hid := hkeyed.hashes x hx holder hholder.mem (hfeed.trans hhfeed) (hold.trans hheld)
      obtain rfl := List.inj_on_of_nodup_map hkeyed.ids hx hholder.mem hid
      exact absurd hholder hgives
  · intro htaken
    by_cases hheld : ∃ holder ∈ entries, holder.feedId = e.feedId ∧
        holder.contentHash = entryContentHash fn e
    · obtain ⟨holder, hholder, hfeed, hheld⟩ := hheld
      by_cases hgives : GivesUp fn entries holder
      · obtain ⟨c, hc, halike, hlater⟩ := htaken holder hgives hfeed.symm hheld.symm
        obtain ⟨x, hx, hxalike, -⟩ := exists_after_givesUp hgives hc (hfeed.trans halike.1.symm)
          (hheld.trans halike.2.symm) hlater
        exact ⟨x, hx.mem, hxalike.1.trans halike.1, (h.given x hx.mem (batch_lt hx.mem) hx).trans
          (hxalike.2.trans halike.2)⟩
      · exact ⟨holder, hholder, hfeed, (h.kept holder hholder fun _ => hgives).trans hheld⟩
    · obtain ⟨x, hx, hxalike, -⟩ :=
        exists_first_givesUp he fun x hx hfeed hhash => hheld ⟨x, hx, hfeed, hhash⟩
      exact ⟨x, hx.mem, hxalike.1, (h.given x hx.mem (batch_lt hx.mem) hx).trans hxalike.2⟩

/-- **The backfill re-identifies every article exactly if** every hash that is given up is taken
over. In any case it ends, violates no index, and changes nothing but hashes. -/
theorem reidentifies_iff {order : List (Nat × String) → List (Nat × String)}
    (horder : ∀ updates, (order updates).Perm updates) (hkeyed : Keyed entries) :
    ∃ hashes : Nat → String, (∀ fuel, maxId entries / batchSize + 1 < fuel →
        backfill fn order fuel entries = some (.ok (withHashes hashes entries))) ∧
      Keyed (withHashes hashes entries) ∧
      ((∀ e ∈ withHashes hashes entries, ∃! x, x ∈ withHashes hashes entries ∧
          x.feedId = e.feedId ∧ x.contentHash = entryContentHash fn e) ↔ TakenOver fn entries) := by
  obtain ⟨hashes₀, hzero, hstart⟩ := @reached_zero fn entries hkeyed
  obtain ⟨hashes, hreached, hrun⟩ :=
    loop_eq horder hkeyed (maxId entries / batchSize + 1) (Nat.zero_add _) hzero
  have hkeyed' := keyed_withHashes hkeyed hreached
  refine ⟨hashes, fun fuel hfuel => ?_, hkeyed', ?_⟩
  · rw [hstart] at hrun
    exact hrun fuel hfuel
  have hunique : ∀ e ∈ entries, (∃! x, x ∈ withHashes hashes entries ∧
      x.feedId = e.feedId ∧ x.contentHash = entryContentHash fn e) ↔
        ∃ x ∈ entries, x.feedId = e.feedId ∧ hashes x.id = entryContentHash fn e := by
    intro e he
    constructor
    · rintro ⟨x, ⟨hx, hfeed, hhash⟩, -⟩
      obtain ⟨x, hmem, rfl⟩ := mem_withHashes.mp hx
      exact ⟨x, hmem, hfeed, hhash⟩
    · rintro ⟨x, hx, hfeed, hhash⟩
      have hmem : setContentHash (hashes x.id) x ∈ withHashes hashes entries :=
        mem_withHashes.mpr ⟨x, hx, rfl⟩
      refine ⟨_, ⟨hmem, hfeed, hhash⟩, fun y ⟨hy, hyfeed, hyhash⟩ => ?_⟩
      exact List.inj_on_of_nodup_map hkeyed'.ids hy hmem (hkeyed'.hashes y hy _ hmem
        (hyfeed.trans hfeed.symm) (hyhash.trans hhash.symm))
  constructor
  · intro hall holder hholder e he hfeed hheld
    exact (carried_iff hkeyed hreached he).mp
      ((hunique e he).mp (hall (setContentHash (hashes e.id) e)
        (mem_withHashes.mpr ⟨e, he, rfl⟩))) holder hholder hfeed hheld
  · intro htaken e he
    obtain ⟨e, hmem, rfl⟩ := mem_withHashes.mp he
    exact (hunique e hmem).mpr ((carried_iff hkeyed hreached hmem).mpr
      fun holder hholder => htaken holder hholder e hmem)

/-! ## Two entries with one link -/

/-- The hashes of the texts below. -/
def articleFunctions : Functions where
  sha256Hex text :=
    (List.lookup text [
      ("https://a.example/1|https://a.example/1|",
        "a11f8d080eba6c6fed3d68b2d4e89f130eb8091a4ede26da6a07a80fe7e6ea86"),
      ("https://a.example/1|tag:1|",
        "64a78b97ea7e8528885fa3f84559d2b600d02de15265e294e0bfdd655401f87d")]).getD text
  toChar millis := toString millis

/-- An entry whose guid is its link. -/
def linked (id : Nat) : EntryRecord where
  id := id
  feedId := 1
  title := some "First"
  content := none
  stored :=
    { link := some "https://a.example/1", guid := some "https://a.example/1", publishedAt := none }
  contentHash := "3000c79ddfef1f969e7d6e189530d72be19cf0386142cd1cd60ffe60bca42e62"

/-- An entry with the same link, which is its title too: its old hash is the new one of the
other. -/
def titled (id : Nat) : EntryRecord where
  id := id
  feedId := 1
  title := some "https://a.example/1"
  content := none
  stored := { link := some "https://a.example/1", guid := some "tag:1", publishedAt := none }
  contentHash := "a11f8d080eba6c6fed3d68b2d4e89f130eb8091a4ede26da6a07a80fe7e6ea86"

theorem keyed_pair {id id' : Nat} (hid : 0 < id) (hid' : 0 < id') (hne : id ≠ id') :
    Keyed [titled id, linked id'] := by
  refine ⟨?_, ?_, ?_⟩
  · simpa [titled, linked] using hne
  · intro e he
    rcases List.mem_cons.mp he with rfl | he
    · exact hid
    · obtain rfl := List.mem_singleton.mp he
      exact hid'
  · have hhash : (titled 0).contentHash ≠ (linked 0).contentHash := by decide
    intro e he x hx _ heq
    rcases List.mem_cons.mp he with rfl | he <;> rcases List.mem_cons.mp hx with rfl | hx
    · rfl
    · obtain rfl := List.mem_singleton.mp hx
      exact absurd heq hhash
    · obtain rfl := List.mem_singleton.mp he
      exact absurd heq.symm hhash
    · obtain rfl := List.mem_singleton.mp he
      obtain rfl := List.mem_singleton.mp hx
      rfl

/-- The hash is given up in the first batch and taken over in the second. -/
theorem reidentifies_next_batch :
    ∃ hashes : Nat → String, backfill articleFunctions id 3 [titled 1, linked 5001]
        = some (.ok (withHashes hashes [titled 1, linked 5001])) ∧
      ∀ e ∈ withHashes hashes [titled 1, linked 5001],
        ∃! x, x ∈ withHashes hashes [titled 1, linked 5001] ∧ x.feedId = e.feedId ∧
          x.contentHash = entryContentHash articleFunctions e := by
  obtain ⟨hashes, hrun, -, hiff⟩ :=
    @reidentifies_iff articleFunctions [titled 1, linked 5001] id
      (fun updates => List.Perm.refl updates)
      (keyed_pair (by decide) (by decide) (by decide))
  refine ⟨hashes, hrun 3 (by decide), hiff.mpr fun holder hholder e he _ hheld => ?_⟩
  have hlinked : linked 5001 ∈ [titled 1, linked 5001] := List.mem_cons_of_mem _ List.mem_cons_self
  rcases List.mem_cons.mp hholder.mem with rfl | hlast
  · rcases List.mem_cons.mp he with rfl | he
    · exact absurd hheld (by decide)
    · obtain rfl := List.mem_singleton.mp he
      exact ⟨_, hlinked, ⟨rfl, rfl⟩, by decide⟩
  · obtain rfl := List.mem_singleton.mp hlast
    rcases List.mem_cons.mp he with rfl | he
    · exact absurd hheld (by decide)
    · obtain rfl := List.mem_singleton.mp he
      exact absurd hheld (by decide)

/-- **A hash is lost**: in one batch the first entry gives up the hash of the second, which could
not have it yet. -/
theorem hash_lost_in_batch :
    ∃ entries, backfill articleFunctions id 2 [titled 1, linked 2] = some (.ok entries) ∧
      ¬∀ e ∈ entries, ∃ x ∈ entries, x.feedId = e.feedId ∧
        x.contentHash = entryContentHash articleFunctions e := by
  refine ⟨[{ titled 1 with
    contentHash := "64a78b97ea7e8528885fa3f84559d2b600d02de15265e294e0bfdd655401f87d" }, linked 2],
    by decide +kernel, by decide +kernel⟩

end Backfill

end Feedpulse
