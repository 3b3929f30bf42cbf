import Feedpulse.PlainLinks

/-!
# When the two canonical forms agree

The form of the program and the form of the migration agree on a plain link exactly when three
things hold of its query: the last pair does not end in a blank, or is dropped; the database
finds no tracking parameter that the program does not find; and no two pairs are put in
different orders by UTF-16 code units and by code points.
-/

namespace Feedpulse

namespace CanonicalLink

/-! ## Sorting by two orders -/

/-- **Sorting by two orders** gives the same list exactly if it is the same elements, and the
orders agree on them. -/
theorem insertionSort_eq_iff {α : Type} {r s : α → α → Bool} (rtotal : ∀ p q, r p q ∨ r q p)
    (stotal : ∀ p q, s p q ∨ s q p) (rtrans : ∀ {p q t}, r p q → r q t → r p t)
    (strans : ∀ {p q t}, s p q → s q t → s p t) (rantisymm : ∀ {p q}, r p q → r q p → p = q)
    (santisymm : ∀ {p q}, s p q → s q p → p = q) {a b : List α} :
    a.insertionSort (fun p q => r p q) = b.insertionSort (fun p q => s p q) ↔
      a.Perm b ∧ ∀ p ∈ a, ∀ q ∈ a, r p q = s p q := by
  let r' : α → α → Prop := fun p q => r p q
  let s' : α → α → Prop := fun p q => s p q
  have : Std.Total r' := ⟨rtotal⟩
  have : IsTrans α r' := ⟨fun p q t hpq hqt => rtrans hpq hqt⟩
  have : Std.Total s' := ⟨stotal⟩
  have : IsTrans α s' := ⟨fun p q t hpq hqt => strans hpq hqt⟩
  have : Std.Antisymm s' := ⟨fun p q hpq hqp => santisymm hpq hqp⟩
  have hr : (a.insertionSort r').Pairwise r' := List.pairwise_insertionSort r' a
  have hs : (b.insertionSort s').Pairwise s' := List.pairwise_insertionSort s' b
  have hra : (a.insertionSort r').Perm a := List.perm_insertionSort r' a
  constructor
  · intro h
    change a.insertionSort r' = b.insertionSort s' at h
    have hperm : a.Perm b :=
      hra.symm.trans ((List.Perm.of_eq h).trans (List.perm_insertionSort s' b))
    refine ⟨hperm, fun p hp q hq => ?_⟩
    -- in the sorted list one of the two elements comes first, for both orders
    have hagree : (a.insertionSort r').Pairwise fun p q => r p q = s p q ∧ r q p = s q p := by
      have hboth : (a.insertionSort r').Pairwise fun p q => r' p q ∧ s' p q :=
        hr.and (h ▸ hs)
      refine hboth.imp ?_
      rintro p q ⟨hrpq, hspq⟩
      refine ⟨hrpq.trans hspq.symm, ?_⟩
      rw [Bool.eq_iff_iff]
      constructor
      · intro hrqp
        rw [rantisymm hrpq hrqp] at hspq ⊢
        exact hspq
      · intro hsqp
        rw [santisymm hspq hsqp] at hrpq ⊢
        exact hrpq
    by_cases hpq : p = q
    · subst hpq
      rw [(rtotal p p).elim id id, (stotal p p).elim id id]
    · have : Std.Symm fun p q : α => r p q = s p q ∧ r q p = s q p := ⟨fun _ _ h => ⟨h.2, h.1⟩⟩
      exact (hagree.forall (hra.mem_iff.mpr hp) (hra.mem_iff.mpr hq) hpq).1
  · rintro ⟨hperm, hagree⟩
    have hsorted : (a.insertionSort r').Pairwise s' := by
      refine List.Pairwise.imp_of_mem ?_ hr
      intro p q hp hq hpq
      exact (hagree p (hra.mem_iff.mp hp) q (hra.mem_iff.mp hq)).symm.trans hpq
    exact List.Perm.eq_of_pairwise' (r := s') hsorted hs
      (hra.trans (hperm.trans (List.perm_insertionSort s' b).symm))

/-! ## The two orders -/

/-- A character after the surrogates that has one code unit. -/
def isLate (c : Char) : Bool := 0xe000 ≤ c.toNat && c.toNat < 0x10000

/-- A character with two code units. -/
def isWide (c : Char) : Bool := 0x10000 ≤ c.toNat

/-- Two texts first differ in characters that code units and code points order differently. -/
def ordersDiffer : List Char → List Char → Bool
  | c :: cs, d :: ds =>
    if c = d then ordersDiffer cs ds else (isLate c && isWide d) || (isWide c && isLate d)
  | _, _ => false

example : ordersDiffer "a=～".toList "a=😀".toList = true := by decide

theorem lexLe_append (a b c : List Nat) : lexLe (a ++ b) (a ++ c) = lexLe b c := by
  induction a with
  | nil => rfl
  | cons n ns ih => simpa [lexLe] using ih

/-- Characters in the order of their code points. -/
theorem codePointsLe_cons {c d : Char} (hcd : c ≠ d) (cs ds : List Char) :
    codePointsLe (c :: cs) (d :: ds) = decide (c.toNat < d.toNat) := by
  have hne : c.toNat ≠ d.toNat := fun h => hcd (Char.toNat_inj.mp h)
  simp [codePointsLe, lexLe, hne]

/-- Characters in the order of their code units. -/
theorem unitsLe_cons {c d : Char} (hcd : c ≠ d) (cs ds : List Char) :
    unitsLe (c :: cs) (d :: ds)
      = (decide (c.toNat < d.toNat) != ((isLate c && isWide d) || (isWide c && isLate d))) := by
  have hne : c.toNat ≠ d.toNat := fun h => hcd (Char.toNat_inj.mp h)
  have hc := toNat_valid c
  have hd := toNat_valid d
  have hne' : ¬(c.toNat = d.toNat) := hne
  rw [unitsLe, List.flatMap_cons, List.flatMap_cons, utf16Units, utf16Units]
  by_cases hcw : c.toNat < 0x10000 <;> by_cases hdw : d.toNat < 0x10000
  all_goals
    simp only [hcw, hdw, if_true, if_false, List.cons_append, List.nil_append, lexLe]
    rw [Bool.eq_iff_iff]
    by_cases hlt : c.toNat < d.toNat <;> simp [isLate, isWide, hcw, hdw, hlt, hne'] <;> omega

/-- **The two orders** agree on two texts unless these first differ in two such characters. -/
theorem unitsLe_eq_codePointsLe_iff (a b : List Char) :
    unitsLe a b = codePointsLe a b ↔ ordersDiffer a b = false := by
  induction a generalizing b with
  | nil => exact ⟨fun _ => rfl, fun _ => rfl⟩
  | cons c cs ih =>
    cases b with
    | nil =>
      have hunits : unitsLe (c :: cs) [] = false := by
        rw [unitsLe, List.flatMap_cons, utf16Units]
        split <;> rfl
      exact ⟨fun _ => rfl, fun _ => hunits⟩
    | cons d ds =>
      by_cases hcd : c = d
      · subst hcd
        have hunits : unitsLe (c :: cs) (c :: ds) = unitsLe cs ds := lexLe_append _ _ _
        have hpoints : codePointsLe (c :: cs) (c :: ds) = codePointsLe cs ds :=
          lexLe_append [c.toNat] _ _
        rw [hunits, hpoints, ih, ordersDiffer, if_pos rfl]
      · rw [unitsLe_cons hcd, codePointsLe_cons hcd, ordersDiffer, if_neg hcd]
        cases decide (c.toNat < d.toNat) <;>
          cases (isLate c && isWide d) || (isWide c && isLate d) <;> decide

theorem codePointsLe_antisymm {a b : List Char} (hab : codePointsLe a b = true)
    (hba : codePointsLe b a = true) : a = b :=
  List.map_injective_iff.mpr (fun _ _ h => Char.toNat_inj.mp h) (lexLe_antisymm hab hba)

/-! ## The pairs of a query without the blanks at its end -/

/-- Blanks are dropped behind a character that is none. -/
theorem dropBlanks_cons {c : Char} (hc : c ≠ ' ') (cs : List Char) :
    dropBlanks (c :: cs) = c :: dropBlanks cs := by
  by_cases hblank : ∃ d ∈ cs, d ≠ ' '
  · exact dropBlanks_append (a := [c]) hblank
  · push Not at hblank
    have hdrop : (cs.reverse.dropWhile fun c => c = ' ') = [] :=
      List.dropWhile_eq_nil_iff.mpr fun d hd => decide_eq_true (hblank d (List.mem_reverse.mp hd))
    have hkeep : ([c].dropWhile fun c => c = ' ') = [c] :=
      List.dropWhile_cons_of_neg (by simpa using hc)
    rw [dropBlanks, dropBlanks, List.reverse_cons, List.dropWhile_append, hdrop, hkeep]
    rfl

/-- The last pair of a query. -/
def lastPair (query : List Char) : List Char := ((query.splitOn '&').getLast?).getD []

/-- The pairs of a query before the last one. -/
def frontPairs (query : List Char) : List (List Char) := (query.splitOn '&').dropLast

theorem splitOn_eq (query : List Char) :
    query.splitOn '&' = frontPairs query ++ [lastPair query] := by
  have hne := List.splitOn_ne_nil '&' query
  rw [frontPairs, lastPair, List.getLast?_eq_some_getLast hne, Option.getD_some,
    List.dropLast_append_getLast hne]

/-- **Only the last pair loses blanks.** -/
theorem splitOn_dropBlanks (query : List Char) :
    (dropBlanks query).splitOn '&' = frontPairs query ++ [dropBlanks (lastPair query)] := by
  obtain ⟨front, hfront⟩ : ∃ front, front = frontPairs query := ⟨_, rfl⟩
  obtain ⟨last, hlast⟩ : ∃ last, last = lastPair query := ⟨_, rfl⟩
  have hsplit : query.splitOn '&' = front ++ [last] := by rw [hfront, hlast, splitOn_eq]
  have hclean : ∀ pair ∈ front ++ [last], '&' ∉ pair := by
    intro pair hpair
    rw [← hsplit] at hpair
    exact not_mem_of_mem_splitOn hpair
  have hmem : ∀ {c : Char}, c ∈ dropBlanks last → c ∈ last := by
    intro c hc
    exact List.mem_reverse.mp ((List.dropWhile_sublist _).subset (List.mem_reverse.mp hc))
  have hclean' : ∀ pair ∈ front ++ [dropBlanks last], '&' ∉ pair := by
    intro pair hpair
    rcases List.mem_append.mp hpair with hpair | hpair
    · exact hclean pair (List.mem_append_left _ hpair)
    · rw [List.mem_singleton.mp hpair]
      exact fun h => hclean last (List.mem_append_right _ (List.mem_singleton_self _)) (hmem h)
  have hdrop : dropBlanks query = ['&'].intercalate (front ++ [dropBlanks last]) := by
    have hjoin : query = ['&'].intercalate (front ++ [last]) := by
      rw [← hsplit, List.intercalate_splitOn]
    rw [hjoin]
    clear hfront hlast hsplit hclean hclean' hmem hjoin
    induction front with
    | nil => simp
    | cons pair rest ih =>
      obtain ⟨next, others, hrest⟩ : ∃ next others, rest ++ [last] = next :: others :=
        List.exists_cons_of_ne_nil (by simp)
      obtain ⟨next', others', hrest'⟩ :
          ∃ next others, rest ++ [dropBlanks last] = next :: others :=
        List.exists_cons_of_ne_nil (by simp)
      rw [List.cons_append, List.cons_append, hrest, hrest', List.intercalate_cons_cons,
        List.intercalate_cons_cons, ← hrest, ← hrest', ← ih, List.append_assoc, List.append_assoc,
        dropBlanks_append ⟨'&', List.mem_append_left _ (List.mem_singleton_self _), by decide⟩,
        List.singleton_append, dropBlanks_cons (by decide)]
      rfl
  rw [hdrop, List.splitOn_intercalate '&' hclean' (by simp), hfront, hlast]

/-! ## The pairs that are kept -/

section Pairs

variable (rt : LinkRuntime) (lower : String → String)

/-- The migration keeps a pair. -/
def keepsPair (pair : List Char) : Bool := pair ≠ [] && !isTrackingPair lower pair

theorem keptPairsSql_eq (rawQuery : List Char) :
    keptPairsSql lower rawQuery
      = (((rawQuery.splitOn '&').filter (keepsPair lower)).map escapePlus).insertionSort
          fun a b => codePointsLe a b := rfl

/-- Only ASCII characters have small forms that are. -/
theorem lt_of_toLower_lt {c : Char} (h : c.toLower.toNat < 128) : c.toNat < 128 := by
  unfold Char.toLower at h
  split at h
  · rename_i hupper
    have hhigh : c.toNat ≤ 90 := hupper.2
    omega
  · exact h

/-- A name whose small form is the name of a tracking parameter. -/
theorem isTrackingName_iff {name : List Char} :
    isTrackingName name = true
      ↔ "utm_".toList <+: name ∨ ∃ param ∈ trackingParamDenylist, name = param.toList := by
  rw [isTrackingName, Bool.or_eq_true, Text.startsWith_iff, List.contains_iff_mem]
  refine or_congr_right ⟨fun h => ⟨_, h, String.toList_ofList.symm⟩, ?_⟩
  rintro ⟨param, hmem, rfl⟩
  rwa [String.ofList_toList]

theorem isAscii_of_mem_denylist : ∀ param ∈ trackingParamDenylist, ∀ c ∈ param.toList,
    c.toNat < 128 ∧ c ≠ 'k' ∧ c ≠ ' ' := by
  have hall : ∀ param ∈ trackingParamDenylist,
      param.toList.all (fun c => c.toNat < 128 ∧ c ≠ 'k' ∧ c ≠ ' ') = true := by decide
  exact fun param hmem => forall_mem_of_all (hall param hmem)

variable {rt lower}

/-- The program finds tracking parameters by the small forms of ASCII letters. -/
theorem ReadsPlainLinks.isTrackingParam {decodable : List Char → Prop}
    (hrt : ReadsPlainLinks rt decodable) (name : List Char) :
    isTrackingParam rt name = isTrackingName (name.map Char.toLower) := by
  rw [CanonicalLink.isTrackingParam, Bool.eq_iff_iff, isTrackingName_iff, isTrackingName_iff]
  refine or_congr (hrt.lower_prefix name _ (forall_mem_of_all (by decide))) ?_
  refine exists_congr fun param => and_congr_right fun hmem => ?_
  have hascii := hrt.lower_eq name param.toList fun c hc =>
    ⟨(isAscii_of_mem_denylist param hmem c hc).1, (isAscii_of_mem_denylist param hmem c hc).2.1⟩
  rw [String.ofList_toList] at hascii
  rw [String.toList_inj, hascii]

/-- On texts with an ASCII small form the database agrees. -/
theorem LowersCharwise.map_eq {lowerChar : Char → Char} (h : LowersCharwise lower lowerChar)
    {cs target : List Char} (htarget : ∀ c ∈ target, c.toNat < 128)
    (hcs : cs.map Char.toLower = target) : cs.map lowerChar = target := by
  rw [← hcs]
  refine List.map_congr_left fun c hc => h.ascii c (lt_of_toLower_lt (htarget _ ?_))
  rw [← hcs]
  exact List.mem_map_of_mem hc

/-- **What the program finds, the database finds.** -/
theorem isTrackingPair_of_isTrackingName {lowerChar : Char → Char}
    (hlower : LowersCharwise lower lowerChar) {pair : List Char}
    (h : isTrackingName ((nameOf pair).map Char.toLower) = true) :
    isTrackingPair lower pair = true := by
  rw [isTrackingName_iff] at h
  rw [isTrackingPair, hlower.map, String.toList_ofList, isTrackingName_iff]
  rcases h with hprefix | ⟨param, hmem, hname⟩
  · left
    obtain ⟨front, rest, hsplit, hfront, -⟩ :=
      List.map_eq_append_iff.mp (List.prefix_iff_exists_append_eq.mp hprefix).choose_spec.symm
    rw [hsplit, List.map_append, hlower.map_eq (forall_mem_of_all (by decide)) hfront]
    exact List.prefix_append _ _
  · refine .inr ⟨param, hmem, hlower.map_eq (fun c hc => ?_) hname⟩
    exact (isAscii_of_mem_denylist param hmem c hc).1

/-- The name of a tracking parameter does not end in a blank, unless it is one without it. -/
theorem isTrackingName_of_append {name blanks : List Char} (hblanks : ∀ c ∈ blanks, c = ' ')
    (h : isTrackingName (name ++ blanks) = true) : isTrackingName name = true := by
  induction blanks generalizing name with
  | nil => rwa [List.append_nil] at h
  | cons c cs ih =>
    have hc : c = ' ' := hblanks c List.mem_cons_self
    have hcons : isTrackingName (name ++ [c]) = true := by
      refine ih (fun d hd => hblanks d (List.mem_cons_of_mem _ hd)) ?_
      rwa [List.append_assoc, List.singleton_append]
    rw [isTrackingName_iff, List.prefix_concat_iff] at hcons
    rcases hcons with (hwhole | hprefix) | ⟨param, hmem, hname⟩
    · have hmem : ' ' ∈ "utm_".toList := by
        rw [hwhole, hc]
        exact List.mem_append_right _ (List.mem_singleton_self _)
      exact absurd hmem (by decide)
    · exact isTrackingName_iff.mpr (.inl hprefix)
    · have hblank : ' ' ∈ param.toList := by
        rw [← hname, hc]
        exact List.mem_append_right _ (List.mem_singleton_self _)
      exact absurd rfl (isAscii_of_mem_denylist param hmem ' ' hblank).2.2

theorem exists_dropBlanks (cs : List Char) :
    ∃ blanks, (∀ c ∈ blanks, c = ' ') ∧ cs = dropBlanks cs ++ blanks := by
  refine ⟨(cs.reverse.takeWhile fun c => c = ' ').reverse, fun c hc => ?_, ?_⟩
  · exact of_decide_eq_true
      (List.mem_takeWhile_imp (p := fun c => decide (c = ' ')) (List.mem_reverse.mp hc))
  · rw [dropBlanks, ← List.reverse_append, List.takeWhile_append_dropWhile, List.reverse_reverse]

/-- A text ends in a blank exactly if one can be dropped. -/
theorem dropBlanks_eq_self_iff {cs : List Char} :
    dropBlanks cs = cs ↔ cs.getLast? ≠ some ' ' := by
  refine ⟨fun h hlast => ?_, dropBlanks_eq_self⟩
  obtain ⟨front, rfl⟩ := List.getLast?_eq_some_iff.mp hlast
  have hlength := congrArg List.length h
  have hle := (List.dropWhile_sublist (l := front.reverse) fun c => decide (c = ' ')).length_le
  rw [dropBlanks, List.reverse_append] at hlength
  simp at hlength hle
  omega

/-- The name of a pair loses at most blanks with the pair. -/
theorem exists_nameOf_dropBlanks (pair : List Char) :
    ∃ blanks, (∀ c ∈ blanks, c = ' ') ∧ nameOf pair = nameOf (dropBlanks pair) ++ blanks := by
  obtain ⟨blanks, hblanks, hpair⟩ := exists_dropBlanks pair
  have hkeep : blanks.takeWhile (fun c => c ≠ '=') = blanks := by
    refine List.takeWhile_eq_self_iff.mpr fun c hc => decide_eq_true ?_
    rw [hblanks c hc]
    decide
  by_cases hsign : '=' ∈ dropBlanks pair
  · refine ⟨[], by simp, ?_⟩
    have hlt :
        ((dropBlanks pair).takeWhile fun c => c ≠ '=').length ≠ (dropBlanks pair).length := by
      intro h
      have hall := List.takeWhile_eq_self_iff.mp
        ((List.takeWhile_sublist fun c => decide (c ≠ '=')).eq_of_length h)
      exact of_decide_eq_true (hall '=' hsign) rfl
    rw [List.append_nil]
    conv_lhs => rw [hpair]
    rw [nameOf, List.takeWhile_append, if_neg hlt]
    rfl
  · have hname : nameOf (dropBlanks pair) = dropBlanks pair :=
      List.takeWhile_eq_self_iff.mpr fun c hc => decide_eq_true fun he => hsign (he ▸ hc)
    refine ⟨blanks, hblanks, ?_⟩
    rw [hname]
    conv_lhs => rw [hpair]
    have hall : ∀ c ∈ dropBlanks pair, (decide (c ≠ '=')) = true :=
      fun c hc => decide_eq_true fun he => hsign (he ▸ hc)
    rw [nameOf, List.takeWhile_append_of_pos hall, hkeep]

variable {decodable : List Char → Prop} {lowerChar : Char → Char}

/-- What the migration keeps, the program keeps. -/
theorem survives_of_keepsPair (hrt : ReadsPlainLinks rt decodable)
    (hlower : LowersCharwise lower lowerChar) {pair : List Char}
    (h : keepsPair lower pair = true) : survives rt pair = true := by
  simp only [keepsPair, survives, Bool.and_eq_true, Bool.not_eq_true'] at h ⊢
  refine ⟨h.1, Bool.eq_false_iff.mpr fun htracking => ?_⟩
  rw [hrt.isTrackingParam] at htracking
  rw [isTrackingPair_of_isTrackingName hlower htracking] at h
  exact absurd h.2 (by decide)

/-- The blanks at the end of a pair make no difference to this. -/
theorem survives_of_keepsPair_dropBlanks (hrt : ReadsPlainLinks rt decodable)
    (hlower : LowersCharwise lower lowerChar) {pair : List Char}
    (h : keepsPair lower (dropBlanks pair) = true) : survives rt pair = true := by
  obtain ⟨blanks, hblanks, hname⟩ := exists_nameOf_dropBlanks pair
  simp only [keepsPair, survives, Bool.and_eq_true, Bool.not_eq_true', decide_eq_true_eq] at h ⊢
  refine ⟨fun hpair => h.1 (by rw [hpair]; rfl), Bool.eq_false_iff.mpr fun htracking => ?_⟩
  have hmap : blanks.map Char.toLower = blanks := by
    refine (List.map_congr_left fun c hc => ?_).trans (List.map_id _)
    rw [hblanks c hc]
    rfl
  rw [hrt.isTrackingParam, hname, List.map_append, hmap] at htracking
  rw [isTrackingPair_of_isTrackingName hlower (isTrackingName_of_append hblanks htracking)] at h
  exact absurd h.2 (by decide)

theorem escapePlus_append (a b : List Char) : escapePlus (a ++ b) = escapePlus a ++ escapePlus b :=
  List.flatMap_append

theorem eq_nil_of_escapePlus {cs : List Char} (h : escapePlus cs = []) : cs = [] := by
  cases cs with
  | nil => rfl
  | cons c cs =>
    rw [escapePlus, List.flatMap_cons] at h
    split at h <;> cases h

/-- Dropping blanks shows in the escaped pair. -/
theorem dropBlanks_eq_of_escapePlus {pair : List Char}
    (h : escapePlus pair = escapePlus (dropBlanks pair)) : dropBlanks pair = pair := by
  obtain ⟨blanks, -, hpair⟩ := exists_dropBlanks pair
  have happend : escapePlus pair = escapePlus (dropBlanks pair) ++ escapePlus blanks := by
    rw [← escapePlus_append, ← hpair]
  have hnil : escapePlus blanks = [] := by
    rw [h] at happend
    exact List.self_eq_append_right.mp happend
  rw [eq_nil_of_escapePlus hnil, List.append_nil] at hpair
  exact hpair.symm

/-- A query that both functions read alike. -/
structure ReadAlike (rt : LinkRuntime) (lower : String → String) (query : List Char) : Prop where
  /-- the last pair does not end in a blank, or is dropped -/
  blank : survives rt (lastPair query) = true → (lastPair query).getLast? ≠ some ' '
  /-- the database finds no tracking parameter that the program does not find -/
  names : ∀ pair ∈ query.splitOn '&', survives rt pair = true → isTrackingPair lower pair = false
  /-- no two pairs are put in different orders -/
  order : ∀ p ∈ survivors rt query, ∀ p' ∈ survivors rt query, ordersDiffer p p' = false

/-- The pairs that are kept are the same exactly if no pair is lost and no blank is. -/
theorem kept_perm_iff (hrt : ReadsPlainLinks rt decodable)
    (hlower : LowersCharwise lower lowerChar) (query : List Char) :
    (survivors rt query).Perm
        ((((dropBlanks query).splitOn '&').filter (keepsPair lower)).map escapePlus) ↔
      (survives rt (lastPair query) = true → (lastPair query).getLast? ≠ some ' ') ∧
        ∀ pair ∈ query.splitOn '&', survives rt pair = true →
          isTrackingPair lower pair = false := by
  obtain ⟨front, hfront⟩ : ∃ front, front = frontPairs query := ⟨_, rfl⟩
  obtain ⟨last, hlast⟩ : ∃ last, last = lastPair query := ⟨_, rfl⟩
  have hkeeps : ∀ {pair}, survives rt pair = true → isTrackingPair lower pair = false →
      keepsPair lower pair = true := by
    intro pair hsurvives htracking
    simp only [survives, keepsPair, Bool.and_eq_true, Bool.not_eq_true'] at hsurvives ⊢
    exact ⟨hsurvives.1, htracking⟩
  have hnot : ∀ {pair}, keepsPair lower pair = true → isTrackingPair lower pair = false := by
    intro pair h
    simp only [keepsPair, Bool.and_eq_true, Bool.not_eq_true'] at h
    exact h.2
  have hsublist : (front.filter (keepsPair lower)).Sublist (front.filter (survives rt)) :=
    List.monotone_filter_right front fun pair h => survives_of_keepsPair hrt hlower h
  rw [survivors, survivorsOf, splitOn_dropBlanks, splitOn_eq query, ← hfront, ← hlast,
    List.filter_append, List.filter_append, List.map_append, List.map_append]
  constructor
  · intro hperm
    have hlength := hperm.length_eq
    simp only [List.length_append, List.length_map] at hlength
    have hle := hsublist.length_le
    -- the last pair is kept by both or by none, since the pairs before it are not fewer
    have hboth : keepsPair lower (dropBlanks last) = survives rt last := by
      rcases hk : keepsPair lower (dropBlanks last) with _ | _
      · rcases hs : survives rt last with _ | _
        · rfl
        · simp [hk, hs] at hlength
          omega
      · exact (survives_of_keepsPair_dropBlanks hrt hlower hk).symm
    have hfilter : front.filter (keepsPair lower) = front.filter (survives rt) := by
      refine hsublist.eq_of_length ?_
      simp only [List.filter_cons, List.filter_nil, hboth] at hlength
      split at hlength <;> simpa using hlength.symm
    have hsame : survives rt last = true → dropBlanks last = last := by
      intro hs
      rw [hfilter, List.perm_append_left_iff] at hperm
      simp only [List.filter_cons, List.filter_nil, hboth, hs, if_true, List.map_cons,
        List.map_nil] at hperm
      exact dropBlanks_eq_of_escapePlus (List.singleton_perm_singleton.mp hperm)
    refine ⟨fun hs => dropBlanks_eq_self_iff.mp (hsame hs), fun pair hpair hs => ?_⟩
    rcases List.mem_append.mp hpair with hpair | hpair
    · have hmem : pair ∈ front.filter (survives rt) := List.mem_filter.mpr ⟨hpair, hs⟩
      rw [← hfilter] at hmem
      exact hnot (List.mem_filter.mp hmem).2
    · rw [List.mem_singleton.mp hpair] at hs ⊢
      rw [hs, hsame hs] at hboth
      exact hnot hboth
  · rintro ⟨hblank, hnames⟩
    have hfilter : front.filter (survives rt) = front.filter (keepsPair lower) := by
      refine List.filter_congr fun pair hpair => ?_
      rw [Bool.eq_iff_iff]
      exact ⟨fun hs => hkeeps hs (hnames pair (List.mem_append_left _ hpair) hs),
        survives_of_keepsPair hrt hlower⟩
    have hlastPair : [last].filter (survives rt) = [dropBlanks last].filter (keepsPair lower) := by
      rcases hs : survives rt last with _ | _
      · have hk : keepsPair lower (dropBlanks last) = false := by
          rw [Bool.eq_false_iff]
          intro hk
          rw [survives_of_keepsPair_dropBlanks hrt hlower hk] at hs
          cases hs
        simp [hs, hk]
      · have hk := hkeeps hs
          (hnames last (List.mem_append_right _ (List.mem_singleton_self _)) hs)
        have hdrop := dropBlanks_eq_self (hblank hs)
        simp [hs, hk, hdrop]
    rw [hfilter, hlastPair]

/-- **Both functions keep the same query** exactly if they read it alike. -/
theorem canonicalizeQuery_eq_keptQuery_iff (hrt : ReadsPlainLinks rt decodable)
    (hlower : LowersCharwise lower lowerChar) (query : List Char) :
    canonicalizeQuery rt query = keptQuery lower (dropBlanks query) ↔ ReadAlike rt lower query := by
  have hclean : Clean (keptPairs rt query) := fun p hp =>
    clean_survivors rt query p ((List.mem_insertionSort _).mp hp)
  have hcleanSql : Clean (keptPairsSql lower (dropBlanks query)) := by
    have hclean := clean_escapePlus (show keepsPair lower [] = false from rfl) (dropBlanks query)
    exact fun p hp => hclean p ((List.mem_insertionSort _).mp hp)
  have hjoin : canonicalizeQuery rt query = keptQuery lower (dropBlanks query)
      ↔ keptPairs rt query = keptPairsSql lower (dropBlanks query) := by
    rw [canonicalizeQuery_eq, keptQuery]
    exact ⟨intercalate_injective hclean hcleanSql, congrArg _⟩
  rw [hjoin, keptPairs_eq, keptPairsSql_eq,
    insertionSort_eq_iff (r := unitsLe) (s := codePointsLe) (fun _ _ => lexLe_total _ _)
      (fun _ _ => lexLe_total _ _) lexLe_trans lexLe_trans unitsLe_antisymm codePointsLe_antisymm,
    kept_perm_iff hrt hlower]
  simp only [unitsLe_eq_codePointsLe_iff]
  exact ⟨fun h => ⟨h.1.1, h.1.2, h.2⟩, fun h => ⟨⟨h.blank, h.names⟩, h.order⟩⟩

end Pairs

/-- **The two canonical forms of a plain link** are equal exactly if both functions read its query
alike. -/
theorem PlainLink.forms_agree_iff {decodable : List Char → Prop} (l : PlainLink decodable)
    {rt : LinkRuntime} {lower : String → String} {lowerChar : Char → Char}
    (hrt : ReadsPlainLinks rt decodable) (hlower : LowersCharwise lower lowerChar) :
    canonicalizeArticleLink rt (some l.text) = feedpulseCanonicalizeArticleLink lower (some l.text)
      ↔ ReadAlike rt lower (l.query.getD []) :=
  (l.forms_eq_iff hrt hlower).trans (canonicalizeQuery_eq_keptQuery_iff hrt hlower _)

/-! ## Samples -/

/-- What the URL parser makes of a link without user information. -/
def parsePlainUrl (value : String) : Option ParsedUrl :=
  let body := withoutFragment value.toList
  (splitScheme (beforeQuery body)).map fun (scheme, remainder) =>
    let scheme := scheme.map Char.toLower
    let authority :=
      stripDefaultPort scheme ((remainder.takeWhile fun c => c ≠ '/').map Char.toLower)
    { protocol := String.ofList scheme.dropLast.dropLast
      userinfo := ""
      hostname := String.ofList (authority.takeWhile fun c => c ≠ ':')
      port := String.ofList ((authority.dropWhile fun c => c ≠ ':').drop 1)
      pathname := String.ofList (remainder.dropWhile fun c => c ≠ '/')
      search := String.ofList (body.dropWhile fun c => c ≠ '?')
      hash := String.ofList (value.toList.dropWhile fun c => c ≠ '#') }

/-- A runtime whose parser reads plain links, and which lowercases ASCII letters. -/
def plainRuntime : LinkRuntime where
  toUrlRuntime := {
    hostRuntime.toUrlRuntime with
    parseUrl := parsePlainUrl
    urlToString := fun url => String.ofList (url.protocol.toList ++ ("//".toList ++
      (url.hostname.toList ++ (if url.port = "" then [] else ':' :: url.port.toList) ++
        url.pathname.toList)) ++ url.search.toList ++ url.hash.toList) }
  setSearch := hostRuntime.setSearch

theorem lowersCharwise_lowerAscii : LowersCharwise lowerAscii Char.toLower where
  map _ := String.toList_ofList
  ascii _ _ := rfl

/-- The scheme, the host and the port come apart. -/
theorem parsePlainUrl_text {decodable : List Char → Prop} (l : PlainLink decodable) :
    ∃ search hash, parsePlainUrl l.text = some (l.url l.path search hash) := by
  obtain ⟨query, hquery⟩ : ∃ query, query = l.queryChars := ⟨_, rfl⟩
  have hshape : query = [] ∨ ∃ q, query = '?' :: q := by
    rw [hquery, LinkText.queryChars]
    rcases l.query with _ | q
    · exact .inl rfl
    · exact .inr ⟨q, rfl⟩
  have hbody : withoutFragment l.text.toList = l.part ++ query := by
    rw [LinkText.text, String.toList_ofList, l.withoutFragment_chars, hquery]
  have hprotocol : ((l.scheme ++ "://".toList).map Char.toLower).dropLast.dropLast
      = l.lowerScheme ++ [':'] := by
    have hslashes : "://".toList.map Char.toLower = [':'] ++ ['/'] ++ ['/'] := by decide
    rw [List.map_append, hslashes, ← List.append_assoc, ← List.append_assoc, List.dropLast_concat,
      List.dropLast_concat]
    rfl
  have hlower : (l.scheme ++ "://".toList).map Char.toLower = l.lowerScheme ++ "://".toList := by
    rw [List.map_append]
    rfl
  have hauthority : (l.host ++ l.portChars).map Char.toLower = l.lowerHost ++ l.portChars := by
    rw [List.map_append, l.map_toLower_portChars]
    rfl
  have hhost : ∀ c ∈ l.lowerHost, (decide (c ≠ ':')) = true :=
    fun c hc => decide_eq_true fun he => l.not_mem_lowerHost (he ▸ hc)
  have hport : l.keptPort = [] ∨ ∃ digits, l.keptPort = ':' :: digits := by
    rw [LinkText.keptPort]
    split
    · exact .inl rfl
    · rw [LinkText.portChars]
      rcases l.port with _ | n
      · exact .inl rfl
      · exact .inr ⟨_, rfl⟩
  have htake : (l.lowerHost ++ l.keptPort).takeWhile (fun c => c ≠ ':') = l.lowerHost := by
    rw [List.takeWhile_append_of_pos hhost]
    rcases hport with h | ⟨digits, h⟩ <;> rw [h] <;> exact List.append_nil _
  have hdrop : (l.lowerHost ++ l.keptPort).dropWhile (fun c => c ≠ ':') = l.keptPort := by
    rw [List.dropWhile_append_of_pos hhost]
    rcases hport with h | ⟨digits, h⟩ <;> rw [h] <;> rfl
  refine ⟨String.ofList ((l.part ++ query).dropWhile fun c => c ≠ '?'),
    String.ofList (l.text.toList.dropWhile fun c => c ≠ '#'), ?_⟩
  simp only [parsePlainUrl, hbody, l.beforeQuery_part query hshape, l.splitScheme_part,
    Option.map_some, hprotocol, l.takeWhile_authority.1, l.takeWhile_authority.2, hauthority]
  rw [hlower, l.stripDefaultPort_authority, htake, hdrop]
  rfl

theorem toLowerCase_plainRuntime (text : List Char) :
    plainRuntime.toLowerCase (String.ofList text) = String.ofList (text.map Char.toLower) := by
  change lowerAscii (String.ofList text) = _
  rw [lowerAscii, String.toList_ofList]

theorem urlToString_plainRuntime {url : ParsedUrl} (hsearch : url.search = "")
    (hhash : url.hash = "") :
    (plainRuntime.urlToString url).toList = url.protocol.toList ++ ("//".toList ++
      (url.hostname.toList ++ (if url.port = "" then [] else ':' :: url.port.toList) ++
        url.pathname.toList)) := by
  change (String.ofList _).toList = _
  rw [String.toList_ofList, hsearch, hhash, String.toList_empty, List.append_nil, List.append_nil]

theorem readsPlainLinks_plainRuntime : ReadsPlainLinks plainRuntime fun _ => True where
  parse := parsePlainUrl_text
  setHash_empty _ _ := rfl
  setHostname_self _ _ := rfl
  setPathname_eq _ _ _ _ := rfl
  setSearch_empty _ _ := rfl
  toString_eq _ _ := urlToString_plainRuntime
  lower_ascii text _ := toLowerCase_plainRuntime text
  lower_eq text whole _ := by rw [toLowerCase_plainRuntime, String.ofList_inj]
  lower_prefix text start _ := by rw [toLowerCase_plainRuntime, String.toList_ofList]

/-- A link as it is shared: with a default port, a tracking parameter and a fragment. -/
def sharedPlainLink : PlainLink fun _ => True where
  scheme := "HTTPS".toList
  host := "Example.COM".toList
  port := some 443
  path := "//a/".toList
  query := some "utm_source=x&b=2+ &a=1".toList
  fragment := some "top".toList
  scheme_web := by decide
  host_ne := by decide
  host_plain := forall_mem_of_all (by decide)
  host_name := by decide +kernel
  host_decodable _ _ _ := trivial
  port_le := by decide
  path_plain := ⟨by decide, forall_mem_of_all (by decide),
    by unfold FeedUrl.NoDotSegments; decide +kernel⟩
  query_clean := by decide +kernel
  trimmed := by decide +kernel

theorem forms_agree_iff_shared :
    canonicalizeArticleLink plainRuntime (some sharedPlainLink.text)
      = feedpulseCanonicalizeArticleLink lowerAscii (some sharedPlainLink.text) :=
  (sharedPlainLink.forms_agree_iff readsPlainLinks_plainRuntime lowersCharwise_lowerAscii).mpr
    ⟨by decide +kernel, by decide +kernel, by decide +kernel⟩

/-- A link with a blank before the fragment. -/
def blankPlainLink : PlainLink fun _ => True where
  scheme := "https".toList
  host := "h".toList
  port := none
  path := "/a".toList
  query := some "q=x ".toList
  fragment := some "f".toList
  scheme_web := by decide
  host_ne := by decide
  host_plain := forall_mem_of_all (by decide)
  host_name := by decide +kernel
  host_decodable _ _ _ := trivial
  port_le := by decide
  path_plain := ⟨by decide, forall_mem_of_all (by decide),
    by unfold FeedUrl.NoDotSegments; decide +kernel⟩
  query_clean := by decide +kernel
  trimmed := by decide +kernel

/-- The program trims the link before the fragment is cut off, the migration afterwards. -/
theorem blank_before_fragment_differs :
    blankPlainLink.text = "https://h/a?q=x #f" ∧
    canonicalizeArticleLink plainRuntime (some "https://h/a?q=x #f") = some "https://h/a?q=x " ∧
    feedpulseCanonicalizeArticleLink lowerAscii (some "https://h/a?q=x #f")
      = some "https://h/a?q=x" := by
  decide +kernel

end CanonicalLink

end Feedpulse
