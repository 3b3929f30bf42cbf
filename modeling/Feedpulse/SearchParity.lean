import Feedpulse.KeywordMatch

/-!
# The two search normalisers

`normalizeSearchText` and `feedpulse_normalize_search_text` of migration 0016 take the same five
steps. In the third the runtime follows the default case conversion of Unicode, in which the small
letter of a sigma depends on its neighbours, and the database maps every character on its own.
`normalizers_agree_iff`: this is the only difference on texts whose blanks are those of ASCII.
-/

namespace Feedpulse

namespace SearchParity

open KeywordMatch (isCombiningMark normalizeSearchText)

/-! ## Lower case -/

/-- What Unicode says about characters. -/
structure Casing where
  /-- `Simple_Lowercase_Mapping` -/
  simpleLower : Char → Char
  /-- `Cased` -/
  cased : Char → Bool
  /-- `Case_Ignorable` -/
  caseIgnorable : Char → Bool

variable (u : Casing)

/-- Characters that can be ignored, and then a cased one. -/
def reachesCased : List Char → Bool
  | [] => false
  | c :: cs => u.cased c || (u.caseIgnorable c && reachesCased cs)

/-- `Final_Sigma`, with the characters before in reverse: a word ends here. -/
def finalSigma (before after : List Char) : Bool :=
  reachesCased u before && !reachesCased u after

/-- `toLowercase` of one character: `SpecialCasing.txt` has two entries for all languages that
concern small letters, the sigma and the dotted capital I. -/
def lowerChar (before : List Char) (c : Char) (after : List Char) : List Char :=
  if c = 'Σ' then [if finalSigma u before after then 'ς' else 'σ']
  else if c = 'İ' then ['i', '\u0307']
  else [u.simpleLower c]

/-- `toLowercase` of a text, with the characters before in reverse. -/
def defaultLower : List Char → List Char → List Char
  | _, [] => []
  | before, c :: cs => lowerChar u before c cs ++ defaultLower (c :: before) cs

/-- A capital sigma stands at the end of a word. -/
def EndsInSigma (text : List Char) : Prop :=
  ∃ before after, text = before ++ 'Σ' :: after ∧ finalSigma u before.reverse after = true

/-! ## The database -/

/-- Functions of PostgreSQL. -/
structure PgText where
  /-- `normalize(text, NFD)` -/
  normalizeNFD : String → String
  /-- the class `\s` -/
  isSpace : Char → Bool

/-- `regexp_replace(text, '\s+', ' ', 'g')`. -/
def replaceBlanks (isSpace : Char → Bool) : Bool → List Char → List Char
  | _, [] => []
  | inRun, c :: cs =>
    if isSpace c then
      if inRun then replaceBlanks isSpace true cs else ' ' :: replaceBlanks isSpace true cs
    else c :: replaceBlanks isSpace false cs

/-- `btrim(text)`. -/
def btrim (cs : List Char) : List Char :=
  ((cs.dropWhile (· = ' ')).reverse.dropWhile (· = ' ')).reverse

/-- `feedpulse_normalize_search_text`; `lower` maps every character on its own. -/
def feedpulseNormalizeSearchText (pg : PgText) (input : String) : String :=
  let stripped := (pg.normalizeNFD input).toList.filter fun c => !isCombiningMark c
  String.ofList (btrim (replaceBlanks pg.isSpace false (stripped.map u.simpleLower)))

/-- The decomposed text without its marks. -/
def stripped (rt : Runtime) (text : String) : List Char :=
  (rt.normalizeNFD text).toList.filter fun c => !isCombiningMark c

/-- A blank for one of the two. -/
def isBlank (pg : PgText) (c : Char) : Bool := Text.isWhitespace c || pg.isSpace c

/-- The blanks of a text are those of ASCII. -/
def AsciiBlanks (pg : PgText) (text : String) : Prop :=
  ∀ c ∈ text.toList, isBlank pg c = true → c.toNat < 128

/-- What the two are known to do. -/
structure Documented (rt : Runtime) (pg : PgText) : Prop where
  /-- the decomposition is the same function -/
  decomposition : pg.normalizeNFD = rt.normalizeNFD
  /-- it decomposes the dotted capital I -/
  undotted : ∀ text, 'İ' ∉ (rt.normalizeNFD text).toList
  /-- it makes no blanks of other characters -/
  blanks : ∀ text, AsciiBlanks pg text → AsciiBlanks pg (rt.normalizeNFD text)
  /-- `String.prototype.toLowerCase` is the default conversion -/
  lower : ∀ text, rt.toLowerCase text = String.ofList (defaultLower u [] text.toList)
  /-- the small sigma -/
  sigma : u.simpleLower 'Σ' = 'σ'
  /-- blanks have no case -/
  caseless : ∀ c, isBlank pg c = true ∨ isBlank pg (u.simpleLower c) = true → u.simpleLower c = c
  /-- the two have the same blanks in ASCII -/
  ascii : ∀ c, c.toNat < 128 → pg.isSpace c = Text.isWhitespace c

variable {u} {rt : Runtime} {pg : PgText}

/-! ## Blanks -/

theorem replaceBlanks_eq {cs : List Char} (h : ∀ c ∈ cs, pg.isSpace c = Text.isWhitespace c)
    (inRun : Bool) : replaceBlanks pg.isSpace inRun cs = Text.collapseWhitespace inRun cs := by
  induction cs generalizing inRun with
  | nil => rfl
  | cons c cs ih =>
    have hrest := ih fun d hd => h d (List.mem_cons_of_mem c hd)
    rw [replaceBlanks, Text.collapseWhitespace, h c List.mem_cons_self, hrest, hrest]

/-- What is left of the blanks is a blank of ASCII. -/
theorem blank_of_mem_collapse {cs : List Char} {inRun : Bool} {c : Char}
    (h : c ∈ Text.collapseWhitespace inRun cs) (hblank : Text.isWhitespace c = true) : c = ' ' := by
  induction cs generalizing inRun with
  | nil => cases h
  | cons d cs ih =>
    rw [Text.collapseWhitespace] at h
    split at h
    · split at h
      · exact ih h
      · exact (List.mem_cons.mp h).elim id ih
    · rename_i hd
      rcases List.mem_cons.mp h with rfl | h
      · exact absurd hblank hd
      · exact ih h

theorem dropWhile_congr {α : Type} {p q : α → Bool} {l : List α} (h : ∀ a ∈ l, p a = q a) :
    l.dropWhile p = l.dropWhile q := by
  induction l with
  | nil => rfl
  | cons a l ih =>
    rw [List.dropWhile_cons, List.dropWhile_cons, h a List.mem_cons_self,
      ih fun b hb => h b (List.mem_cons_of_mem a hb)]

/-- On such a text the two trim alike. -/
theorem btrim_collapse (inRun : Bool) (cs : List Char) :
    btrim (Text.collapseWhitespace inRun cs)
      = Text.trimChars (Text.collapseWhitespace inRun cs) := by
  have hsame : ∀ c ∈ Text.collapseWhitespace inRun cs,
      decide (c = ' ') = Text.isWhitespace c := by
    intro c hc
    rcases hblank : Text.isWhitespace c with _ | _
    · refine decide_eq_false fun heq => ?_
      rw [heq] at hblank
      cases hblank
    · exact decide_eq_true (blank_of_mem_collapse hc hblank)
  unfold btrim Text.trimChars
  rw [dropWhile_congr hsame, dropWhile_congr fun c hc => hsame c
    ((List.dropWhile_sublist _).subset (List.mem_reverse.mp hc))]

/-! ## Counting the final sigmas -/

theorem count_collapse {c : Char} (hc : Text.isWhitespace c = false) (inRun : Bool)
    (cs : List Char) : (Text.collapseWhitespace inRun cs).count c = cs.count c := by
  have hspace : ' ' ≠ c := by
    rintro rfl
    cases hc
  induction cs generalizing inRun with
  | nil => rfl
  | cons d cs ih =>
    rw [Text.collapseWhitespace]
    split
    · rename_i hd
      have hne : d ≠ c := by
        rintro rfl
        rw [hc] at hd
        cases hd
      rw [List.count_cons_of_ne hne]
      split
      · exact ih true
      · rw [List.count_cons_of_ne hspace, ih]
    · rw [List.count_cons, List.count_cons, ih]

theorem count_dropWhile {c : Char} (hc : Text.isWhitespace c = false) (cs : List Char) :
    (cs.dropWhile Text.isWhitespace).count c = cs.count c := by
  induction cs with
  | nil => rfl
  | cons d cs ih =>
    rw [List.dropWhile_cons]
    split
    · rename_i hd
      have hne : d ≠ c := by
        rintro rfl
        rw [hc] at hd
        cases hd
      rw [ih, List.count_cons_of_ne hne]
    · rfl

theorem count_trimChars {c : Char} (hc : Text.isWhitespace c = false) (cs : List Char) :
    (Text.trimChars cs).count c = cs.count c := by
  rw [Text.trimChars, List.count_reverse, count_dropWhile hc, List.count_reverse,
    count_dropWhile hc]

/-- Without a sigma at the end of a word, and without a dotted I, every character is mapped on
its own. -/
theorem defaultLower_eq (hsigma : u.simpleLower 'Σ' = 'σ') {before cs : List Char}
    (hundotted : 'İ' ∉ cs)
    (h : ∀ mid after, cs = mid ++ 'Σ' :: after →
      finalSigma u (mid.reverse ++ before) after = false) :
    defaultLower u before cs = cs.map u.simpleLower := by
  induction cs generalizing before with
  | nil => rfl
  | cons c cs ih =>
    have hchar : lowerChar u before c cs = [u.simpleLower c] := by
      unfold lowerChar
      by_cases hc : c = 'Σ'
      · subst hc
        have hnot : finalSigma u before cs = false := h [] cs rfl
        rw [if_pos rfl, hnot, hsigma]
        rfl
      · have hdot : c ≠ 'İ' := fun heq => hundotted (heq ▸ List.mem_cons_self)
        rw [if_neg hc, if_neg hdot]
    rw [defaultLower, hchar, ih fun hmem => hundotted (List.mem_cons_of_mem c hmem)]
    · rfl
    · intro mid after hcs
      have hlonger := h (c :: mid) after (by rw [hcs]; rfl)
      rwa [List.reverse_cons, List.append_assoc] at hlonger

/-- Every character has at least as many final sigmas in its default conversion. -/
theorem count_lowerChar (hsigma : u.simpleLower 'Σ' = 'σ') {before after : List Char} {c : Char}
    (hc : c ≠ 'İ') : [u.simpleLower c].count 'ς' ≤ (lowerChar u before c after).count 'ς' := by
  unfold lowerChar
  by_cases heq : c = 'Σ'
  · rw [if_pos heq, heq, hsigma]
    exact Nat.zero_le _
  · refine Nat.le_of_eq ?_
    rw [if_neg heq, if_neg hc]

theorem count_map_le (hsigma : u.simpleLower 'Σ' = 'σ') {before cs : List Char}
    (hundotted : 'İ' ∉ cs) :
    (cs.map u.simpleLower).count 'ς' ≤ (defaultLower u before cs).count 'ς' := by
  induction cs generalizing before with
  | nil => exact Nat.le_refl _
  | cons c cs ih =>
    rw [defaultLower, List.count_append, List.map_cons, ← List.singleton_append,
      List.count_append]
    exact Nat.add_le_add
      (count_lowerChar hsigma fun heq => hundotted (heq ▸ List.mem_cons_self))
      (ih fun hmem => hundotted (List.mem_cons_of_mem c hmem))

/-- A sigma at the end of a word makes one more. -/
theorem count_map_lt (hsigma : u.simpleLower 'Σ' = 'σ') {before cs : List Char}
    (hundotted : 'İ' ∉ cs) {mid after : List Char} (hcs : cs = mid ++ 'Σ' :: after)
    (hfinal : finalSigma u (mid.reverse ++ before) after = true) :
    (cs.map u.simpleLower).count 'ς' < (defaultLower u before cs).count 'ς' := by
  induction mid generalizing before cs with
  | nil =>
    subst hcs
    have hrest := @count_map_le _ hsigma ('Σ' :: before) after
      fun hmem => hundotted (List.mem_cons_of_mem _ hmem)
    have hlower : lowerChar u before 'Σ' after = ['ς'] := by
      unfold lowerChar
      have hends : finalSigma u before after = true := hfinal
      rw [if_pos rfl, hends]
      rfl
    rw [List.nil_append, defaultLower, List.count_append, hlower, List.map_cons, hsigma,
      List.count_cons_of_ne (by decide), List.count_singleton_self]
    omega
  | cons c mid ih =>
    subst hcs
    rw [List.cons_append] at hundotted ⊢
    have hrest := @ih (c :: before) (mid ++ 'Σ' :: after)
      (fun hmem => hundotted (List.mem_cons_of_mem _ hmem)) rfl (by
        rwa [List.reverse_cons, List.append_assoc] at hfinal)
    have hchar := @count_lowerChar _ hsigma before (mid ++ 'Σ' :: after) c
      fun heq => hundotted (heq ▸ List.mem_cons_self)
    rw [defaultLower, List.count_append, List.map_cons, ← List.singleton_append,
      List.count_append]
    omega

/-! ## Agreement -/

/-- The blanks of the lower-case text are those of ASCII, for both. -/
theorem isSpace_map (h : Documented u rt pg) {text : String} (hblanks : AsciiBlanks pg text) :
    ∀ c ∈ (stripped rt text).map u.simpleLower, pg.isSpace c = Text.isWhitespace c := by
  intro c hc
  obtain ⟨d, hd, rfl⟩ := List.mem_map.mp hc
  rcases hblank : isBlank pg (u.simpleLower d) with _ | _
  · obtain ⟨hts, hpg⟩ := Bool.or_eq_false_iff.mp hblank
    rw [hts, hpg]
  · have hsame := h.caseless d (.inr hblank)
    rw [hsame] at hblank ⊢
    exact h.ascii d (h.blanks text hblanks d (List.mem_filter.mp hd).1 hblank)

/-- The database, in the terms of the runtime. -/
theorem feedpulseNormalizeSearchText_eq (h : Documented u rt pg) {text : String}
    (hblanks : AsciiBlanks pg text) :
    feedpulseNormalizeSearchText u pg text = String.ofList (Text.trimChars
      (Text.collapseWhitespace false ((stripped rt text).map u.simpleLower))) := by
  unfold feedpulseNormalizeSearchText
  rw [h.decomposition]
  change String.ofList (btrim (replaceBlanks pg.isSpace false ((stripped rt text).map _))) = _
  rw [replaceBlanks_eq (isSpace_map h hblanks), btrim_collapse]

theorem normalizeSearchText_eq (h : Documented u rt pg) (text : String) :
    normalizeSearchText rt text = String.ofList (Text.trimChars
      (Text.collapseWhitespace false (defaultLower u [] (stripped rt text)))) := by
  unfold normalizeSearchText
  dsimp only
  rw [h.lower, String.toList_ofList, String.toList_ofList]
  rfl

/-- **The normalisers agree exactly if** no capital sigma stands at the end of a word of the
decomposed text without its marks. -/
theorem normalizers_agree_iff (h : Documented u rt pg) {text : String}
    (hblanks : AsciiBlanks pg text) :
    normalizeSearchText rt text = feedpulseNormalizeSearchText u pg text ↔
      ¬EndsInSigma u (stripped rt text) := by
  have hundotted : 'İ' ∉ stripped rt text := fun hmem =>
    h.undotted text (List.mem_filter.mp hmem).1
  rw [normalizeSearchText_eq h, feedpulseNormalizeSearchText_eq h hblanks]
  constructor
  · rintro hequal ⟨before, after, htext, hfinal⟩
    have hcount := congrArg (fun t => t.toList.count 'ς') hequal
    simp only [String.toList_ofList] at hcount
    rw [count_trimChars rfl, count_trimChars rfl, count_collapse rfl, count_collapse rfl] at hcount
    have hlt := @count_map_lt _ h.sigma [] _ hundotted _ _ htext (by rwa [List.append_nil])
    omega
  · intro hnone
    rw [defaultLower_eq h.sigma hundotted]
    intro mid after htext
    rw [List.append_nil, ← Bool.not_eq_true]
    exact fun hfinal => hnone ⟨mid, after, htext, hfinal⟩

/-! ## Greek texts -/

/-- A Greek capital letter. -/
def isGreekCapital (c : Char) : Bool := 0x391 ≤ c.toNat && c.toNat ≤ 0x3a9 && c.toNat ≠ 0x3a2

/-- The case of Greek letters. -/
def greek : Casing where
  simpleLower c := if isGreekCapital c then Char.ofNat (c.toNat + 32) else c
  cased c := isGreekCapital c || (0x3b1 ≤ c.toNat && c.toNat ≤ 0x3c9)
  caseIgnorable c := c = '\''

/-- The runtime on texts of Greek letters. -/
def greekRuntime : Runtime where
  toLowerCase text := String.ofList (defaultLower greek [] text.toList)
  normalizeNFD text :=
    String.ofList (text.toList.flatMap fun c => if c = 'İ' then ['I', '\u0307'] else [c])
  isLetterOrNumber c := isGreekCapital c
  sha256Hex text := text
  parseDate _ := none
  parseFeed _ := .ok []
  decipher _ _ _ _ _ _ := none

/-- The database on such texts. -/
def greekDatabase : PgText where
  normalizeNFD := greekRuntime.normalizeNFD
  isSpace c := Text.isWhitespace c

theorem mem_decomposed {c : Char} {text : String}
    (h : c ∈ (greekRuntime.normalizeNFD text).toList) :
    (c ∈ text.toList ∧ c ≠ 'İ') ∨ c = 'I' ∨ c = '\u0307' := by
  simp only [greekRuntime, String.toList_ofList, List.mem_flatMap] at h
  obtain ⟨d, hd, hc⟩ := h
  split at hc
  · rcases List.mem_cons.mp hc with rfl | hc
    · exact .inr (.inl rfl)
    · exact .inr (.inr (List.mem_singleton.mp hc))
  · rename_i hne
    obtain rfl := List.mem_singleton.mp hc
    exact .inl ⟨hd, hne⟩

theorem documented_greek : Documented greek greekRuntime greekDatabase where
  decomposition := rfl
  undotted text hmem := by
    rcases mem_decomposed hmem with ⟨-, hne⟩ | heq | heq
    · exact hne rfl
    · exact absurd heq (by decide)
    · exact absurd heq (by decide)
  blanks text hblanks c hc hblank := by
    rcases mem_decomposed hc with ⟨hmem, -⟩ | rfl | rfl
    · exact hblanks c hmem hblank
    · cases hblank
    · cases hblank
  lower _ := rfl
  sigma := by decide
  caseless c hblank := by
    change (if isGreekCapital c then _ else _) = _
    change _ ∨ isBlank _ (if isGreekCapital c then _ else _) = true at hblank
    by_cases hcapital : isGreekCapital c = true
    · exfalso
      rw [if_pos hcapital] at hblank
      simp only [isGreekCapital, Bool.and_eq_true, decide_eq_true_eq] at hcapital
      have hvalid : (c.toNat + 32).isValidChar := .inl (by omega)
      have hlower : (Char.ofNat (c.toNat + 32)).toNat = c.toNat + 32 := by
        rw [Char.ofNat, dif_pos hvalid]
        rfl
      simp only [isBlank, greekDatabase, Bool.or_self, Text.isWhitespace, hlower, Bool.or_eq_true,
        Bool.and_eq_true, decide_eq_true_eq] at hblank
      omega
    · rw [if_neg hcapital]
  ascii _ _ := rfl

/-- A sigma within a word is mapped alike. -/
theorem normalizers_agree_sofia :
    normalizeSearchText greekRuntime "ΣΟΦΙΑ" = feedpulseNormalizeSearchText greek greekDatabase
      "ΣΟΦΙΑ" := by
  refine (normalizers_agree_iff documented_greek fun c hc hblank => ?_).mpr ?_
  · have hletters : ("ΣΟΦΙΑ".toList.all fun c => !isBlank greekDatabase c) = true := by
      decide +kernel
    have hletter := List.all_eq_true.mp hletters c hc
    rw [hblank] at hletter
    cases hletter
  · rintro ⟨before, after, htext, hfinal⟩
    have hword : stripped greekRuntime "ΣΟΦΙΑ" = ['Σ', 'Ο', 'Φ', 'Ι', 'Α'] := by decide +kernel
    rw [hword] at htext
    rcases before with _ | ⟨c, before⟩
    · cases hfinal
    · obtain ⟨-, htail⟩ := List.cons.inj htext
      have hmem : 'Σ' ∈ ['Ο', 'Φ', 'Ι', 'Α'] :=
        htail ▸ List.mem_append_right before List.mem_cons_self
      exact absurd hmem (by decide)

/-- **A word that ends in a sigma** is normalised to two texts. -/
theorem normalizers_differ_logos :
    normalizeSearchText greekRuntime "ΛΟΓΟΣ" ≠ feedpulseNormalizeSearchText greek greekDatabase
      "ΛΟΓΟΣ" := by
  decide +kernel

end SearchParity

end Feedpulse
