import Feedpulse.CanonicalLink
import Mathlib.Data.List.TakeWhile

/-!
# What the canonical form of a link keeps

Two links have the same canonical form exactly when they have the same base and the same pairs
in their queries, counted with repetition and without the pairs of tracking parameters. Sorting
forgets the order only, and joining with `&` forgets nothing.
-/

namespace Feedpulse

namespace CanonicalLink

/-! ## The order of the pairs -/

/-- The order of strings is antisymmetric. -/
theorem lexLe_antisymm {a b : List Nat} (hab : lexLe a b = true) (hba : lexLe b a = true) :
    a = b := by
  induction a generalizing b with
  | nil =>
    cases b with
    | nil => rfl
    | cons n ns => cases hba
  | cons m ms ih =>
    cases b with
    | nil => cases hab
    | cons n ns =>
      simp only [lexLe, Bool.or_eq_true, Bool.and_eq_true, decide_eq_true_eq] at hab hba
      rcases hab with hlt | ⟨rfl, hab⟩
      · omega
      · rcases hba with hlt | ⟨-, hba⟩
        · omega
        · rw [ih hab hba]

/-- No character is a surrogate. -/
theorem toNat_valid (c : Char) :
    c.toNat < 0xd800 ∨ (0xdfff < c.toNat ∧ c.toNat < 0x110000) := by
  have h := c.valid
  unfold UInt32.isValidChar Nat.isValidChar at h
  exact h

/-- Code units determine the text: the first one says how many belong to the first character. -/
theorem flatMap_utf16Units_injective {a b : List Char}
    (h : a.flatMap utf16Units = b.flatMap utf16Units) : a = b := by
  induction a generalizing b with
  | nil =>
    cases b with
    | nil => rfl
    | cons d ds =>
      rw [List.flatMap_cons, utf16Units] at h
      split at h <;> cases h
  | cons c cs ih =>
    cases b with
    | nil =>
      rw [List.flatMap_cons, utf16Units] at h
      split at h <;> cases h
    | cons d ds =>
      have hc := toNat_valid c
      have hd := toNat_valid d
      rw [List.flatMap_cons, List.flatMap_cons, utf16Units, utf16Units] at h
      have hcd : c.toNat = d.toNat ∧ cs.flatMap utf16Units = ds.flatMap utf16Units := by
        split at h <;> split at h
        · obtain ⟨h1, h2⟩ := List.cons.inj h
          exact ⟨h1, h2⟩
        · obtain ⟨h1, -⟩ := List.cons.inj h
          omega
        · obtain ⟨h1, -⟩ := List.cons.inj h
          omega
        · obtain ⟨h1, h2⟩ := List.cons.inj h
          obtain ⟨h3, h4⟩ := List.cons.inj h2
          exact ⟨by omega, h4⟩
      rw [Char.toNat_inj.mp hcd.1, ih hcd.2]

theorem unitsLe_antisymm {a b : List Char} (hab : unitsLe a b = true) (hba : unitsLe b a = true) :
    a = b :=
  flatMap_utf16Units_injective (lexLe_antisymm hab hba)

/-- Sorting by code units forgets the order and nothing else. -/
theorem insertionSort_unitsLe_eq_iff {a b : List (List Char)} :
    a.insertionSort (fun p q => unitsLe p q) = b.insertionSort (fun p q => unitsLe p q) ↔
      a.Perm b := by
  let r : List Char → List Char → Prop := fun p q => unitsLe p q
  have : Std.Total r := ⟨fun p q => lexLe_total _ _⟩
  have : IsTrans (List Char) r := ⟨fun p q t hpq hqt => lexLe_trans hpq hqt⟩
  have : Std.Antisymm r := ⟨fun p q hpq hqp => unitsLe_antisymm hpq hqp⟩
  constructor
  · intro h
    have hperm := List.perm_insertionSort r a
    exact hperm.symm.trans ((List.Perm.of_eq h).trans (List.perm_insertionSort r b))
  · intro h
    refine List.Perm.eq_of_pairwise' (r := r) (List.pairwise_insertionSort r a)
      (List.pairwise_insertionSort r b) ?_
    exact (List.perm_insertionSort r a).trans (h.trans (List.perm_insertionSort r b).symm)

/-! ## Joining -/

/-- Pairs as the query has them: not empty, and without the separator. -/
def Clean (pairs : List (List Char)) : Prop := ∀ p ∈ pairs, p ≠ [] ∧ '&' ∉ p

/-- A joined text has only the characters of its pieces and the separator. -/
theorem mem_intercalate {c sep : Char} {pieces : List (List Char)}
    (h : c ∈ [sep].intercalate pieces) : c = sep ∨ ∃ p ∈ pieces, c ∈ p := by
  induction pieces with
  | nil => cases h
  | cons p ps ih =>
    cases ps with
    | nil =>
      rw [List.intercalate_singleton] at h
      exact .inr ⟨p, List.mem_cons_self, h⟩
    | cons q qs =>
      rw [List.intercalate_cons_cons] at h
      rcases List.mem_append.mp h with h | h
      · rcases List.mem_append.mp h with h | h
        · exact .inr ⟨p, List.mem_cons_self, h⟩
        · exact .inl (List.mem_singleton.mp h)
      · rcases ih h with h | ⟨r, hr, h⟩
        · exact .inl h
        · exact .inr ⟨r, List.mem_cons_of_mem _ hr, h⟩

/-- Joining forgets nothing. -/
theorem intercalate_injective {a b : List (List Char)} (ha : Clean a) (hb : Clean b)
    (h : ['&'].intercalate a = ['&'].intercalate b) : a = b := by
  have hne : ∀ {c : List (List Char)}, Clean c → c ≠ [] → ['&'].intercalate c ≠ [] := by
    intro c hc hne he
    have hsplit := List.splitOn_intercalate '&' (fun l hl => (hc l hl).2) hne
    rw [he, List.splitOn_nil] at hsplit
    refine (hc [] ?_).1 rfl
    rw [← hsplit]
    exact List.mem_singleton_self _
  by_cases hanil : a = []
  · subst hanil
    by_cases hbnil : b = []
    · exact hbnil.symm
    · exact absurd h.symm (hne hb hbnil)
  · by_cases hbnil : b = []
    · subst hbnil
      exact absurd h (hne ha hanil)
    · have hsplit := List.splitOn_intercalate '&' (fun l hl => (ha l hl).2) hanil
      rw [h, List.splitOn_intercalate '&' (fun l hl => (hb l hl).2) hbnil] at hsplit
      exact hsplit.symm

/-- The pieces of a text between separators are free of them. -/
theorem not_mem_of_mem_splitOn {c : Char} {value piece : List Char}
    (h : piece ∈ value.splitOn c) : c ∉ piece := by
  induction value generalizing piece with
  | nil =>
    rw [List.splitOn_nil, List.mem_singleton] at h
    rw [h]
    exact List.not_mem_nil
  | cons d ds ih =>
    rw [List.splitOn_cons_eq_if_modifyHead] at h
    split at h
    · rcases List.mem_cons.mp h with rfl | h
      · exact List.not_mem_nil
      · exact ih h
    · rename_i hd
      rcases hs : ds.splitOn c with _ | ⟨first, rest⟩
      · exact absurd hs (List.splitOn_ne_nil c ds)
      · rw [hs, List.modifyHead_cons] at h
        rcases List.mem_cons.mp h with rfl | h
        · intro hmem
          rcases List.mem_cons.mp hmem with rfl | hmem
          · simp at hd
          · exact ih (hs ▸ List.mem_cons_self) hmem
        · exact ih (hs ▸ List.mem_cons_of_mem _ h)

section Keys

variable (rt : LinkRuntime)

/-- The pairs that survive: not empty, and not those of tracking parameters. -/
def survives (pair : List Char) : Bool := pair ≠ [] && !isTrackingParam rt (nameOf pair)

/-- The surviving pairs among some pairs, with `+` written as `%20`. -/
def survivorsOf (pairs : List (List Char)) : List (List Char) :=
  (pairs.filter (survives rt)).map escapePlus

/-- The surviving pairs of a query. -/
def survivors (rawQuery : List Char) : List (List Char) := survivorsOf rt (rawQuery.splitOn '&')

theorem keptPairs_eq (rawQuery : List Char) :
    keptPairs rt rawQuery = (survivors rt rawQuery).insertionSort fun a b => unitsLe a b := rfl

/-- An empty query has no pairs, so it needs no case of its own. -/
theorem canonicalizeQuery_eq (rawQuery : List Char) :
    canonicalizeQuery rt rawQuery = ['&'].intercalate (keptPairs rt rawQuery) := by
  unfold canonicalizeQuery
  split
  · rename_i h
    subst h
    rfl
  · rfl

/-- Pairs that are not empty stay clean when `+` is rewritten. -/
theorem clean_escapePlus {keep : List Char → Bool} (hkeep : keep [] = false)
    (rawQuery : List Char) : Clean (((rawQuery.splitOn '&').filter keep).map escapePlus) := by
  intro p hp
  obtain ⟨q, hq, rfl⟩ := List.mem_map.mp hp
  obtain ⟨hmem, hkept⟩ := List.mem_filter.mp hq
  have hsep : '&' ∉ q := not_mem_of_mem_splitOn hmem
  have hne : q ≠ [] := by
    intro h
    rw [h, hkeep] at hkept
    cases hkept
  refine ⟨?_, ?_⟩
  · cases q with
    | nil => exact absurd rfl hne
    | cons c cs =>
      rw [escapePlus, List.flatMap_cons]
      split <;> simp
  · intro h
    obtain ⟨c, hc, hmem⟩ := List.mem_flatMap.mp h
    split at hmem
    · revert hmem
      decide
    · rw [List.mem_singleton] at hmem
      exact hsep (hmem ▸ hc)

theorem clean_survivors (rawQuery : List Char) : Clean (survivors rt rawQuery) :=
  clean_escapePlus rfl rawQuery

/-- **Equal queries are equal multisets of surviving pairs.** -/
theorem canonicalizeQuery_eq_iff {q q' : List Char} :
    canonicalizeQuery rt q = canonicalizeQuery rt q' ↔ (survivors rt q).Perm (survivors rt q') := by
  rw [canonicalizeQuery_eq, canonicalizeQuery_eq, keptPairs_eq, keptPairs_eq,
    ← insertionSort_unitsLe_eq_iff]
  have hclean : ∀ q, Clean ((survivors rt q).insertionSort fun a b => unitsLe a b) := by
    intro q p hp
    exact clean_survivors rt q p ((List.mem_insertionSort _).mp hp)
  constructor
  · exact intercalate_injective (hclean q) (hclean q')
  · exact congrArg _

/-! ## Base and query -/

/-- Before the query of a text that has none. -/
theorem beforeQuery_of_not_mem {value : List Char} (h : '?' ∉ value) : beforeQuery value = value :=
  List.takeWhile_eq_self_iff.mpr fun _ hc => decide_eq_true fun he => h (he ▸ hc)

/-- A base with a query falls apart again. -/
theorem beforeQuery_withQuery {base query : List Char} (h : '?' ∉ base) :
    beforeQuery (withQuery base query) = base := by
  unfold withQuery
  split
  · exact beforeQuery_of_not_mem h
  · have hall : ∀ c ∈ base, (decide (c ≠ '?')) = true :=
      fun _ hc => decide_eq_true fun he => h (he ▸ hc)
    rw [beforeQuery, List.takeWhile_append_of_pos hall]
    simp

theorem afterQuery_withQuery {base query : List Char} (h : '?' ∉ base) :
    afterQuery (withQuery base query) = query := by
  have hall : ∀ c ∈ base, (decide (c ≠ '?')) = true :=
    fun _ hc => decide_eq_true fun he => h (he ▸ hc)
  unfold withQuery
  split
  · rename_i hq
    subst hq
    rw [afterQuery, List.dropWhile_eq_nil_iff.mpr hall]
    rfl
  · rw [afterQuery, List.dropWhile_append_of_pos hall]
    simp

/-- The base `canonicalizeWithoutParser` puts together. -/
def fallbackBase (value : List Char) : List Char :=
  let beforeQuery := beforeQuery value
  let (scheme, remainder) := (splitScheme beforeQuery).getD ([], beforeQuery)
  let scheme := (rt.toLowerCase (String.ofList scheme)).toList
  let authority := stripDefaultPort scheme
    (rt.toLowerCase (String.ofList (remainder.takeWhile fun c => c ≠ '/'))).toList
  scheme ++ authority ++ normalizePath (remainder.dropWhile fun c => c ≠ '/')

/-- The part of a link before its fragment, which is trimmed again where the parser rejects the
link. -/
def bodyOf (link : String) : List Char :=
  if (rt.parseUrl (Text.trim link)).isSome then withoutFragment (Text.trim link).toList
  else Text.trimChars (withoutFragment (Text.trim link).toList)

/-- The normalised base of a link. -/
def baseOf (link : String) : List Char :=
  match rt.parseUrl (Text.trim link) with
  | some parsed => (rt.urlToString (canonicalParts rt parsed)).toList
  | none => fallbackBase rt (bodyOf rt link)

/-- The surviving pairs of a link. -/
def survivingPairs (link : String) : List (List Char) := survivors rt (afterQuery (bodyOf rt link))

theorem not_mem_withoutFragment (value : List Char) : '#' ∉ withoutFragment value := by
  intro h
  have hne : decide ('#' ≠ '#') = true := List.mem_takeWhile_imp (p := fun c => decide (c ≠ '#')) h
  exact of_decide_eq_true hne rfl

theorem withoutFragment_of_not_mem {value : List Char} (h : '#' ∉ value) :
    withoutFragment value = value :=
  List.takeWhile_eq_self_iff.mpr fun _ hc => decide_eq_true fun he => h (he ▸ hc)

/-- `canonicalizeWithoutParser` over its base. -/
theorem canonicalizeWithoutParser_unfold (value : List Char) :
    canonicalizeWithoutParser rt value
      = if Text.trimChars (withoutFragment value) = [] then none
        else
          let canonical := withQuery (fallbackBase rt (Text.trimChars (withoutFragment value)))
            (canonicalizeQuery rt (rawQueryOf (Text.trimChars (withoutFragment value))))
          if canonical = [] then none else some canonical := rfl

theorem canonicalizeWithoutParser_eq {value key : List Char}
    (h : canonicalizeWithoutParser rt value = some key) :
    key = withQuery (fallbackBase rt (Text.trimChars (withoutFragment value)))
      (canonicalizeQuery rt (rawQueryOf (Text.trimChars (withoutFragment value)))) := by
  rw [canonicalizeWithoutParser_unfold] at h
  obtain ⟨-, h⟩ := Option.ite_none_left_eq_some.mp h
  obtain ⟨-, h⟩ := Option.ite_none_left_eq_some.mp h
  exact (Option.some.inj h).symm

/-- **The canonical form is the base with the query of the surviving pairs.** -/
theorem canonicalizeArticleLink_eq {link key : String}
    (h : canonicalizeArticleLink rt (some link) = some key) :
    key.toList = withQuery (baseOf rt link)
      (canonicalizeQuery rt (afterQuery (bodyOf rt link))) := by
  simp only [canonicalizeArticleLink] at h
  obtain ⟨-, h⟩ := Option.ite_none_left_eq_some.mp h
  unfold baseOf bodyOf
  rcases hp : rt.parseUrl (Text.trim link) with _ | parsed
  · rw [hp] at h
    obtain ⟨cs, hcs, rfl⟩ := Option.map_eq_some_iff.mp h
    have hraw : rawQueryOf (Text.trimChars (withoutFragment (Text.trim link).toList))
        = afterQuery (Text.trimChars (withoutFragment (Text.trim link).toList)) := by
      rw [rawQueryOf, withoutFragment_of_not_mem fun hmem =>
        not_mem_withoutFragment _ (Text.mem_of_mem_trimChars hmem)]
    rw [String.toList_ofList, canonicalizeWithoutParser_eq rt hcs, hraw]
    rfl
  · rw [hp] at h
    rw [← Option.some.inj h, String.toList_ofList]
    rfl

/-- What the runtime is relied on for: a link is parsed by way of the part before its query,
its base has no question mark, and lowercasing makes none. -/
structure YieldsBase (basePart : List Char → Option (List Char)) : Prop where
  /-- the base comes from the part before the query -/
  parse : ∀ value : String,
    (rt.parseUrl value).map (fun parsed => (rt.urlToString (canonicalParts rt parsed)).toList)
      = basePart (beforeQuery (withoutFragment value.toList))
  /-- it has no question mark -/
  noQuery : ∀ part base, basePart part = some base → '?' ∉ base
  /-- lowercasing makes no question mark -/
  lower : ∀ text : String, '?' ∉ text.toList → '?' ∉ (rt.toLowerCase text).toList

variable {rt} {basePart : List Char → Option (List Char)}

theorem mem_collapseSlashes {c : Char} {inRun : Bool} {cs : List Char}
    (h : c ∈ FeedUrl.collapseSlashes inRun cs) : c ∈ cs := by
  induction cs generalizing inRun with
  | nil => exact h
  | cons d ds ih =>
    rw [FeedUrl.collapseSlashes] at h
    split at h
    · rename_i hd
      split at h
      · exact List.mem_cons_of_mem _ (ih h)
      · rcases List.mem_cons.mp h with rfl | h
        · exact hd ▸ List.mem_cons_self
        · exact List.mem_cons_of_mem _ (ih h)
    · rcases List.mem_cons.mp h with rfl | h
      · exact List.mem_cons_self
      · exact List.mem_cons_of_mem _ (ih h)

/-- A path in normal form has no characters that it did not have before. -/
theorem mem_normalizePath {c : Char} {cs : List Char} (h : c ∈ normalizePath cs) : c ∈ cs := by
  simp only [normalizePath] at h
  split at h
  · rename_i hroot
    exact mem_collapseSlashes (hroot ▸ h)
  · have h := List.mem_reverse.mp ((List.dropWhile_sublist _).subset (List.mem_reverse.mp h))
    exact mem_collapseSlashes h

theorem mem_stripDefaultPort {c : Char} {scheme authority : List Char}
    (h : c ∈ stripDefaultPort scheme authority) : c ∈ authority := by
  have hdrop : ∀ suffix, c ∈ dropSuffix suffix authority → c ∈ authority := by
    intro suffix h
    unfold dropSuffix at h
    split at h
    · exact List.mem_of_mem_take h
    · exact h
  unfold stripDefaultPort at h
  split at h
  · exact hdrop _ h
  · split at h
    · exact hdrop _ h
    · exact h

/-- The scheme and the rest come from the text. -/
theorem mem_of_splitScheme {value scheme remainder : List Char}
    (h : (splitScheme value).getD ([], value) = (scheme, remainder)) {c : Char}
    (hc : c ∉ value) (hslash : c ∉ "://".toList) : c ∉ scheme ∧ c ∉ remainder := by
  simp only [splitScheme] at h
  split at h
  · obtain ⟨rfl, rfl⟩ := Prod.mk.inj h
    refine ⟨fun hmem => ?_, fun hmem => ?_⟩
    · rcases List.mem_append.mp hmem with hmem | hmem
      · exact hc ((List.takeWhile_sublist _).subset hmem)
      · exact hslash hmem
    · exact hc ((List.dropWhile_sublist _).subset (List.mem_of_mem_drop hmem))
  · obtain ⟨rfl, rfl⟩ := Prod.mk.inj h
    exact ⟨List.not_mem_nil, hc⟩

/-- The base put together without the parser has no question mark. -/
theorem not_mem_fallbackBase
    (hlower : ∀ text : String, '?' ∉ text.toList → '?' ∉ (rt.toLowerCase text).toList)
    (value : List Char) : '?' ∉ fallbackBase rt value := by
  have hbefore : '?' ∉ beforeQuery value := by
    intro h
    have hne : decide ('?' ≠ '?') = true :=
      List.mem_takeWhile_imp (p := fun c => decide (c ≠ '?')) h
    exact of_decide_eq_true hne rfl
  have hlower' : ∀ cs : List Char, '?' ∉ cs → '?' ∉ (rt.toLowerCase (String.ofList cs)).toList := by
    intro cs hcs
    exact hlower _ (by rwa [String.toList_ofList])
  rcases hsplit : (splitScheme (beforeQuery value)).getD ([], beforeQuery value)
    with ⟨scheme, remainder⟩
  obtain ⟨hscheme, hremainder⟩ := mem_of_splitScheme hsplit hbefore (by decide)
  simp only [fallbackBase, hsplit]
  intro h
  rcases List.mem_append.mp h with h | h
  · rcases List.mem_append.mp h with h | h
    · exact hlower' _ hscheme h
    · exact hlower' _ (fun h => hremainder ((List.takeWhile_sublist _).subset h))
        (mem_stripDefaultPort h)
  · exact hremainder ((List.dropWhile_sublist _).subset (mem_normalizePath h))

theorem YieldsBase.not_mem_baseOf (h : YieldsBase rt basePart) (link : String) :
    '?' ∉ baseOf rt link := by
  unfold baseOf
  have hparse := h.parse (Text.trim link)
  rcases hp : rt.parseUrl (Text.trim link) with _ | parsed
  · exact not_mem_fallbackBase h.lower _
  · rw [hp] at hparse
    exact h.noQuery _ _ hparse.symm

/-- **Keys are equal exactly when bases and surviving pairs are.** -/
theorem YieldsBase.key_eq_iff (h : YieldsBase rt basePart) {a b ka kb : String}
    (ha : canonicalizeArticleLink rt (some a) = some ka)
    (hb : canonicalizeArticleLink rt (some b) = some kb) :
    ka = kb ↔ baseOf rt a = baseOf rt b ∧ (survivingPairs rt a).Perm (survivingPairs rt b) := by
  have hka := canonicalizeArticleLink_eq rt ha
  have hkb := canonicalizeArticleLink_eq rt hb
  rw [← String.toList_inj, hka, hkb]
  constructor
  · intro heq
    have hbase := congrArg beforeQuery heq
    have hquery := congrArg afterQuery heq
    rw [beforeQuery_withQuery (h.not_mem_baseOf a), beforeQuery_withQuery (h.not_mem_baseOf b)]
      at hbase
    rw [afterQuery_withQuery (h.not_mem_baseOf a), afterQuery_withQuery (h.not_mem_baseOf b)]
      at hquery
    exact ⟨hbase, (canonicalizeQuery_eq_iff rt).mp hquery⟩
  · rintro ⟨hbase, hpairs⟩
    rw [hbase, (canonicalizeQuery_eq_iff rt).mpr hpairs]

/-! ## Links with the same base -/

/-- The query of a link with some pairs. -/
def queryText (pairs : List (List Char)) : List Char :=
  if pairs = [] then [] else '?' :: ['&'].intercalate pairs

/-- The parts of a link: what stands before the query, the pairs of the query, and what stands
from the fragment on. Blanks at the ends of a link do not belong to it. -/
structure LinkParts where
  /-- before the query -/
  part : List Char
  /-- the pairs of the query -/
  pairs : List (List Char)
  /-- from the hash sign on, if there is a fragment -/
  fragment : List Char
  /-- something stands before the query -/
  part_ne : part ≠ []
  /-- the query and the fragment begin later -/
  part_clean : '?' ∉ part ∧ '#' ∉ part
  /-- pairs contain no separator, and no fragment begins in them -/
  pairs_clean : ∀ p ∈ pairs, '&' ∉ p ∧ '#' ∉ p
  /-- a fragment begins with a hash sign -/
  fragment_eq : fragment = [] ∨ ∃ rest, fragment = '#' :: rest
  /-- no blanks before the fragment -/
  trimmed : Text.trimChars (part ++ queryText pairs) = part ++ queryText pairs

namespace LinkParts

/-- A link up to its fragment. -/
def body (l : LinkParts) : List Char := l.part ++ queryText l.pairs

/-- The link. -/
def text (l : LinkParts) : String := String.ofList (l.body ++ l.fragment)

theorem not_mem_body (l : LinkParts) : '#' ∉ l.body := by
  intro h
  rcases List.mem_append.mp h with h | h
  · exact l.part_clean.2 h
  · unfold queryText at h
    split at h
    · cases h
    · rcases List.mem_cons.mp h with h | h
      · cases h
      · rcases mem_intercalate h with h | ⟨p, hp, h⟩
        · cases h
        · exact (l.pairs_clean p hp).2 h

theorem body_ne (l : LinkParts) : l.body ≠ [] := by
  intro h
  exact l.part_ne (List.append_eq_nil_iff.mp h).1

theorem beforeQuery_body (l : LinkParts) : beforeQuery l.body = l.part := by
  have hall : ∀ c ∈ l.part, (decide (c ≠ '?')) = true :=
    fun c hc => decide_eq_true fun he => l.part_clean.1 (he ▸ hc)
  unfold beforeQuery body queryText
  rw [List.takeWhile_append_of_pos hall]
  split
  · rw [List.takeWhile_nil, List.append_nil]
  · rw [List.takeWhile_cons_of_neg (by decide), List.append_nil]

theorem survivors_body (l : LinkParts) :
    survivors rt (afterQuery l.body) = survivorsOf rt l.pairs := by
  have hall : ∀ c ∈ l.part, (decide (c ≠ '?')) = true :=
    fun c hc => decide_eq_true fun he => l.part_clean.1 (he ▸ hc)
  unfold afterQuery body queryText
  rw [List.dropWhile_append_of_pos hall]
  by_cases hp : l.pairs = []
  · rw [if_pos hp, hp]
    rfl
  · rw [if_neg hp, List.dropWhile_cons_of_neg (by decide), List.drop_one, List.tail_cons,
      survivors, List.splitOn_intercalate '&' (fun p h => (l.pairs_clean p h).1) hp]

/-- Trimming a link leaves its body and at most shortens its fragment. -/
theorem exists_trim_text (l : LinkParts) :
    ∃ rest, (Text.trim l.text).toList = l.body ++ rest ∧ (rest = [] ∨ ∃ f, rest = '#' :: f) := by
  have htrimmed : Text.trimChars l.body = l.body := l.trimmed
  unfold Text.trim text
  rw [String.toList_ofList, String.toList_ofList]
  rcases l.fragment_eq with hf | ⟨f, hf⟩
  · rw [hf, List.append_nil]
    exact ⟨[], by rw [htrimmed, List.append_nil], .inl rfl⟩
  · have hhash : ∀ rest, (['#'] ++ rest).dropWhile Text.isWhitespace = ['#'] ++ rest :=
      fun _ => List.dropWhile_cons_of_neg (by decide)
    have hdrop : (l.body ++ '#' :: f).dropWhile Text.isWhitespace = l.body ++ '#' :: f := by
      rw [List.dropWhile_append, Text.dropWhile_of_trimmed htrimmed, if_neg]
      exact fun h => l.body_ne (List.isEmpty_iff.mp h)
    rw [hf, Text.trimChars, hdrop, List.reverse_append, List.reverse_cons, List.append_assoc,
      List.dropWhile_append]
    split
    · refine ⟨['#'], ?_, .inr ⟨[], rfl⟩⟩
      rw [hhash, List.reverse_append, List.reverse_reverse, List.reverse_singleton]
    · refine ⟨'#' :: (f.reverse.dropWhile Text.isWhitespace).reverse, ?_, .inr ⟨_, rfl⟩⟩
      simp

/-- The part of a link before its fragment. -/
theorem withoutFragment_trim (l : LinkParts) :
    withoutFragment (Text.trim l.text).toList = l.body := by
  obtain ⟨rest, htrim, hrest⟩ := l.exists_trim_text
  have hall : ∀ c ∈ l.body, (decide (c ≠ '#')) = true :=
    fun c hc => decide_eq_true fun he => l.not_mem_body (he ▸ hc)
  unfold withoutFragment
  rw [htrim, List.takeWhile_append_of_pos hall]
  rcases hrest with rfl | ⟨f, rfl⟩
  · rw [List.takeWhile_nil, List.append_nil]
  · rw [List.takeWhile_cons_of_neg (by decide), List.append_nil]

theorem trim_text_ne (l : LinkParts) : ¬Text.trim l.text = "" := by
  intro h
  have hbody := l.withoutFragment_trim
  rw [h] at hbody
  exact l.body_ne hbody.symm

/-- The form of a link that the parser rejects. -/
theorem canonicalizeWithoutParser_trim (l : LinkParts) :
    canonicalizeWithoutParser rt (Text.trim l.text).toList
      = let canonical := withQuery (fallbackBase rt l.body)
          (canonicalizeQuery rt (afterQuery l.body))
        if canonical = [] then none else some canonical := by
  have htrimmed : Text.trimChars l.body = l.body := l.trimmed
  rw [canonicalizeWithoutParser_unfold, l.withoutFragment_trim, htrimmed, if_neg l.body_ne,
    rawQueryOf,    withoutFragment_of_not_mem l.not_mem_body]

/-- **The key of a link depends on the part before the query and the surviving pairs only.** -/
theorem key_eq (h : YieldsBase rt basePart) {l l' : LinkParts} (hpart : l.part = l'.part)
    (hpairs : (survivorsOf rt l.pairs).Perm (survivorsOf rt l'.pairs)) :
    canonicalizeArticleLink rt (some l.text) = canonicalizeArticleLink rt (some l'.text) := by
  have hquery : canonicalizeQuery rt (afterQuery l.body)
      = canonicalizeQuery rt (afterQuery l'.body) := by
    rw [canonicalizeQuery_eq_iff, survivors_body, survivors_body]
    exact hpairs
  have hparse := h.parse (Text.trim l.text)
  have hparse' := h.parse (Text.trim l'.text)
  rw [l.withoutFragment_trim, l.beforeQuery_body] at hparse
  rw [l'.withoutFragment_trim, l'.beforeQuery_body, ← hpart, ← hparse] at hparse'
  simp only [canonicalizeArticleLink]
  rw [if_neg l.trim_text_ne, if_neg l'.trim_text_ne]
  -- the parser sees the part before the query only, so it accepts both links or none
  rcases hp : rt.parseUrl (Text.trim l.text) with _ | parsed
  · rw [hp] at hparse'
    rw [Option.map_eq_none_iff.mp hparse']
    have hbase : fallbackBase rt l.body = fallbackBase rt l'.body := by
      unfold fallbackBase
      rw [l.beforeQuery_body, l'.beforeQuery_body, hpart]
    rw [l.canonicalizeWithoutParser_trim, l'.canonicalizeWithoutParser_trim, hbase, hquery]
  · rw [hp] at hparse'
    obtain ⟨parsed', hp', hbase⟩ := Option.map_eq_some_iff.mp hparse'
    rw [hp', rawQueryOf, rawQueryOf, l.withoutFragment_trim, l'.withoutFragment_trim, hquery]
    exact congrArg (fun base => some (String.ofList (withQuery base _))) hbase.symm

end LinkParts

end Keys

/-! ## Samples -/

/-- What the parser makes of a link to the front page of a host. -/
def hostUrl (search hash : String) : ParsedUrl :=
  { protocol := "http:", userinfo := "", hostname := "h", port := "", pathname := "/",
    search := search, hash := hash }

/-- A runtime whose parser knows one host, and which lowercases ASCII letters. -/
def hostRuntime : LinkRuntime where
  toLowerCase := lowerAscii
  normalizeNFD := id
  isLetterOrNumber := Char.isAlphanum
  sha256Hex := id
  parseDate := fun _ => none
  parseFeed := fun _ => .ok []
  decipher := fun _ _ _ _ _ _ => none
  parseUrl := fun value =>
    if beforeQuery (withoutFragment value.toList) = "http://h".toList then
      some (hostUrl (String.ofList ((withoutFragment value.toList).dropWhile fun c => c ≠ '?'))
        (String.ofList (value.toList.dropWhile fun c => c ≠ '#')))
    else none
  setProtocol := fun parsed value => { parsed with protocol := value }
  setHostname := fun parsed value => { parsed with hostname := value }
  setPort := fun parsed value => { parsed with port := value }
  setPathname := fun parsed value => { parsed with pathname := value }
  setHash := fun parsed value => { parsed with hash := value }
  setSearch := fun parsed value => { parsed with search := value }
  urlToString := fun parsed =>
    parsed.protocol ++ "//" ++ parsed.hostname ++ parsed.pathname ++ parsed.search ++ parsed.hash
  isPublicHostname := fun _ => true

theorem toLower_ne_question {c : Char} (h : c ≠ '?') : c.toLower ≠ '?' := by
  rcases Text.toLower_cases c with hc | ⟨hlow, -⟩
  · rw [hc]
    exact h
  · intro heq
    rw [heq] at hlow
    exact absurd hlow (by decide)

theorem canonicalParts_hostUrl (search hash : String) :
    canonicalParts hostRuntime (hostUrl search hash) = hostUrl "" "" := by
  have hhost : lowerAscii "h" = "h" := by decide
  have hport : FeedUrl.isDefaultPort "http:" "" = false := by decide
  have hpath : String.ofList (normalizePath "/".toList) = "/" := by decide
  simp only [canonicalParts, hostRuntime, hostUrl, hhost, if_neg (Bool.eq_false_iff.mp hport)]
  rw [hpath]

theorem yieldsBase_hostRuntime :
    YieldsBase hostRuntime fun part =>
      if part = "http://h".toList then some "http://h/".toList else none where
  parse := by
    intro value
    have htext : (hostRuntime.urlToString (hostUrl "" "")).toList = "http://h/".toList := by
      decide
    by_cases hpart : beforeQuery (withoutFragment value.toList) = "http://h".toList
    · have hparse : hostRuntime.parseUrl value = some _ := if_pos hpart
      rw [hparse, Option.map_some, canonicalParts_hostUrl, htext, if_pos hpart]
    · have hparse : hostRuntime.parseUrl value = none := if_neg hpart
      rw [hparse, Option.map_none, if_neg hpart]
  noQuery := by
    intro part base h
    obtain ⟨-, h⟩ := Option.ite_none_right_eq_some.mp h
    cases h
    decide
  lower := by
    intro text h hmem
    simp only [hostRuntime, lowerAscii, String.toList_ofList] at hmem
    obtain ⟨c, hc, hlower⟩ := List.mem_map.mp hmem
    exact toLower_ne_question (fun he => h (he ▸ hc)) hlower

/-- A link with a tracking parameter and a fragment. -/
def sharedLink : LinkParts where
  part := "http://h".toList
  pairs := ["b=2".toList, "UTM_x=1".toList, "a=1".toList]
  fragment := "#top".toList
  part_ne := by decide
  part_clean := by decide
  pairs_clean := by decide
  fragment_eq := .inr ⟨"top".toList, by decide⟩
  trimmed := by decide

/-- The same link as it was published. -/
def publishedLink : LinkParts where
  part := "http://h".toList
  pairs := ["a=1".toList, "b=2".toList]
  fragment := []
  part_ne := by decide
  part_clean := by decide
  pairs_clean := by decide
  fragment_eq := .inl rfl
  trimmed := by decide

end CanonicalLink

end Feedpulse
