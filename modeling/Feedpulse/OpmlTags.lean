import Feedpulse.OpmlDocument

/-!
# Outline tags in a document

The parser's patterns on a rendered forest: the tags that are found are those of the forest, and
the attributes of a tag are found in their order, if no `>` is written as it is in a value.
-/

namespace Feedpulse

namespace Opml

open OpmlParser Piece

/-! ## Tags -/

/-- The pieces before the rest of a tag. -/
def startPieces (slash : Bool) : List (List Char) :=
  [['<'], if slash then ['/'] else [], []] ++ "outline".toList.map (fun c => [c]) ++ [[]]

/-- The beginning of a tag. -/
def tagStart (slash : Bool) : List Char :=
  '<' :: ((if slash then ['/'] else []) ++ "outline".toList)

/-- The beginning of a tag is matched by the beginning of the pattern. -/
theorem matchHere_outlineStart {pieces : List (Piece Char)} {slash : Bool} {rest : List Char}
    (hrest : ∀ c ∈ rest.head?, isWordChar c = false) :
    matchHere (outlineStart ++ pieces) (tagStart slash ++ rest)
      = (matchHere pieces rest).map fun m => (startPieces slash ++ m.1, m.2) := by
  have hahead : rest.head?.any isWordChar = false := by
    cases rest with
    | nil => rfl
    | cons c cs => exact hrest c rfl
  cases slash <;>
    simp [outlineStart, word, tagStart, startPieces, matchHere, greedy, Text.isWhitespace, hahead,
      Option.map_map, keep, Function.comp_def]

/-- The text is the tag of an outline with no `>` before its end. -/
def Outlined (tag : List Char) : Prop :=
  ∃ slash xs, tag = tagStart slash ++ (xs ++ ['>']) ∧ '>' ∉ xs ∧ '<' ∉ xs ∧
    ∀ c ∈ (xs ++ ['>']).head?, isWordChar c = false

/-- A tag is found where it stands. -/
theorem Outlined.matchHere {tag : List Char} (h : Outlined tag) (rest : List Char) :
    ∃ m, Piece.matchHere outlineTag (tag ++ rest) = some m ∧ m.1.flatten = tag := by
  obtain ⟨slash, xs, rfl, hgt, -, hhead⟩ := h
  have hhead' : ∀ c ∈ (xs ++ '>' :: rest).head?, isWordChar c = false := by
    intro c hc
    refine hhead c ?_
    cases xs with
    | nil => exact hc
    | cons x xs => exact hc
  have hend : Piece.matchHere [.many (· ≠ '>'), .one (· = '>')] (xs ++ '>' :: rest)
      = some ([xs, ['>']], rest) := by
    rw [Piece.matchHere]
    refine greedy_append (m := ([['>']], rest)) ?_ ?_ rfl
    · intro c hc
      exact decide_eq_true fun heq => hgt (heq ▸ hc)
    · rintro c hc
      obtain rfl := Option.some.inj hc
      rfl
  refine ⟨(startPieces slash ++ [xs, ['>']], rest), ?_, ?_⟩
  · rw [outlineTag, List.append_assoc, List.append_assoc, List.singleton_append,
      matchHere_outlineStart hhead', hend]
    rfl
  · cases slash <;> simp [startPieces, tagStart]

theorem matchHere_outlineTag_of_ne {c : Char} (hc : c ≠ '<') (cs : List Char) :
    matchHere outlineTag (c :: cs) = none := by
  simp [outlineTag, outlineStart, matchHere, hc]

/-- What stands between the tags is passed over. -/
theorem allMatches_between {xs rest : List Char} (hxs : '<' ∉ xs) :
    allMatches (matchHere outlineTag) 0 (xs ++ rest)
      = allMatches (matchHere outlineTag) 0 rest :=
  allMatches_pass fun _ hc => matchHere_outlineTag_of_ne fun heq => hxs (heq ▸ hc)

/-- **The tags of a text are found**, one after the other. -/
theorem outlineTags_flatMap {tags : List (List Char)} {gap rest : List Char}
    (htags : ∀ tag ∈ tags, Outlined tag) (hgap : '<' ∉ gap) :
    outlineTags (tags.flatMap (· ++ gap) ++ rest) = tags ++ outlineTags rest := by
  induction tags with
  | nil => rfl
  | cons tag tags ih =>
    have hpass := ih fun t ht => htags t (List.mem_cons_of_mem tag ht)
    obtain ⟨m, hm, hflatten⟩ := (htags tag List.mem_cons_self).matchHere
      (gap ++ (tags.flatMap (· ++ gap) ++ rest))
    have hne : tag ≠ [] := by
      obtain ⟨slash, xs, rfl, -⟩ := htags tag List.mem_cons_self
      exact List.cons_ne_nil _ _
    rw [List.flatMap_cons, List.append_assoc, List.append_assoc, outlineTags,
      allMatches_append hne hflatten hm, allMatches_between hgap, List.map_cons, hflatten]
    exact congrArg (tag :: ·) hpass

/-- The rest of the document has no outlines. -/
theorem outlineTags_header (rest : List Char) :
    outlineTags (header ++ rest) = outlineTags rest := rfl

theorem outlineTags_footer : outlineTags footer = [] := rfl

/-! ## The document -/

section Checks

variable {xs rest part : List Char}

/-- What begins with `<` is not in a part without one. -/
theorem includesChars_between (hxs : '<' ∉ xs) :
    Text.includesChars ('<' :: part) (xs ++ rest) = Text.includesChars ('<' :: part) rest := by
  induction xs with
  | nil => rfl
  | cons x xs ih =>
    have hne : x ≠ '<' := fun heq => hxs (heq ▸ List.mem_cons_self)
    rw [List.cons_append, Text.includesChars, ih fun hmem => hxs (List.mem_cons_of_mem x hmem)]
    simp [Text.startsWith, hne]

/-- No declaration begins in a tag. -/
theorem Outlined.includesChars {tag : List Char} (h : Outlined tag) :
    Text.includesChars ['<', '!'] (tag ++ rest) = Text.includesChars ['<', '!'] rest := by
  obtain ⟨slash, ys, rfl, -, hlt, -⟩ := h
  have hstart : Text.includesChars ['<', '!'] (tagStart slash ++ (ys ++ '>' :: rest))
      = Text.includesChars ['<', '!'] (ys ++ '>' :: rest) := by
    cases slash <;> rfl
  rw [List.append_assoc, List.append_assoc, List.singleton_append, hstart,
    includesChars_between hlt]
  rfl

theorem includesChars_flatMap {tags : List (List Char)} {gap : List Char}
    (htags : ∀ tag ∈ tags, Outlined tag) (hgap : '<' ∉ gap) :
    Text.includesChars ['<', '!'] (tags.flatMap (· ++ gap) ++ rest)
      = Text.includesChars ['<', '!'] rest := by
  induction tags with
  | nil => rfl
  | cons tag tags ih =>
    rw [List.flatMap_cons, List.append_assoc, List.append_assoc,
      (htags tag List.mem_cons_self).includesChars, includesChars_between hgap]
    exact ih fun t ht => htags t (List.mem_cons_of_mem tag ht)

/-- Only a capital letter has another lower case. -/
theorem eq_of_toLower_eq {c d : Char} (h : c.toLower = d) (hd : d.toNat < 97) : c = d := by
  rcases Text.toLower_cases c with hsame | ⟨hlow, -⟩
  · exact hsame.symm.trans h
  · rw [h] at hlow
    omega

/-- A declaration in lower case is one in the text. -/
theorem includesChars_of_lower
    (h : Text.includesChars ('<' :: '!' :: part) (xs.map Char.toLower) = true) :
    Text.includesChars ['<', '!'] xs = true := by
  obtain ⟨before, after, hsplit⟩ := Text.includesChars_iff.mp h
  rw [List.append_assoc] at hsplit
  obtain ⟨before', xs', rfl, rfl, htail⟩ := List.map_eq_append_iff.mp hsplit.symm
  obtain ⟨c, xs'', rfl, hc, htail⟩ := List.map_eq_cons_iff.mp htail
  obtain ⟨d, after', rfl, hd, -⟩ := List.map_eq_cons_iff.mp htail
  obtain rfl := eq_of_toLower_eq hc (by decide)
  obtain rfl := eq_of_toLower_eq hd (by decide)
  exact Text.includesChars_iff.mpr ⟨before', after', by simp⟩

end Checks

theorem Blanks.lt_notMem (b : Blanks) : '<' ∉ b.chars := by
  intro hmem
  have hblank := b.blank '<' hmem
  revert hblank
  decide

theorem Blanks.gt_notMem (b : Blanks) : '>' ∉ b.chars := by
  intro hmem
  have hblank := b.blank '>' hmem
  revert hblank
  decide

/-- **A document is what the parser takes for one**: its root is found, nothing is declared, and
the tags are those of the forest. -/
theorem extractOpmlItems_render {f : Forest} {layout : Layout}
    {options : ExtractOpmlItemsOptions} (htags : ∀ tag ∈ f.tags layout.pad, Outlined tag)
    (hbytes : (f.render layout).utf8ByteSize ≤ options.maxBytes.getD defaultMaxOpmlBytes)
    (hlimit : (f.tags layout.pad).length ≤ options.maxOutlineTags.getD defaultMaxOutlineTags) :
    extractOpmlItems (f.render layout) options =
      (readTags ⟨[], []⟩ (f.tags layout.pad) >>= fun s =>
        if s.pathStack ≠ [] then .error "opml_malformed_outline" else .ok s.parsed) := by
  set body := (f.tags layout.pad).flatMap (· ++ layout.gap.chars) with hbody
  have hchars : (f.render layout).toList = header ++ (body ++ footer) := String.toList_ofList
  have htrim : Text.trimChars (header ++ (body ++ footer)) = header ++ (body ++ footer) := by
    refine Text.trimChars_eq_self.mpr ⟨?_, ?_⟩
    · rintro c hc
      obtain rfl := Option.some.inj hc
      decide
    · rw [← List.append_assoc, List.getLast?_append]
      rintro c hc
      obtain rfl := Option.some.inj hc
      decide
  have hroot : Text.includesChars "<opml".toList
      ((header ++ (body ++ footer)).map Char.toLower) = true := by
    rw [List.map_append]
    rfl
  have hnothing : Text.includesChars ['<', '!'] (header ++ (body ++ footer)) = false := by
    refine Eq.trans (b := Text.includesChars ['<', '!'] (body ++ footer)) rfl ?_
    rw [hbody, includesChars_flatMap htags layout.gap.lt_notMem]
    rfl
  have hdeclaration : ∀ part, Text.includesChars ('<' :: '!' :: part)
      ((header ++ (body ++ footer)).map Char.toLower) = false := by
    intro part
    by_contra h
    rw [includesChars_of_lower (by simpa using h)] at hnothing
    cases hnothing
  have hfound : outlineTags (header ++ (body ++ footer)) = f.tags layout.pad := by
    rw [outlineTags_header, hbody, outlineTags_flatMap htags layout.gap.lt_notMem,
      outlineTags_footer, List.append_nil]
  have hvalid : ¬(header ++ (body ++ footer) = [] ∨ ¬Text.includesChars "<opml".toList
      ((header ++ (body ++ footer)).map Char.toLower) = true) := by
    rintro (h | h)
    · exact absurd (List.append_eq_nil_iff.mp h).1 (by decide)
    · exact h hroot
  have hallowed : ¬(Text.includesChars "<!doctype".toList
      ((header ++ (body ++ footer)).map Char.toLower) = true ∨
      Text.includesChars "<!entity".toList
        ((header ++ (body ++ footer)).map Char.toLower) = true) := by
    rintro (h | h)
    · exact Bool.false_ne_true ((hdeclaration _).symm.trans h)
    · exact Bool.false_ne_true ((hdeclaration _).symm.trans h)
  rw [extractOpmlItems]
  dsimp only
  rw [hchars, htrim, if_neg (not_lt.mpr hbytes), if_neg hvalid, if_neg hallowed, hfound,
    if_neg (not_lt.mpr hlimit)]
  split
  · rename_i hempty
    rw [hempty]
    rfl
  · rfl

/-! ## Attributes -/

/-- The attribute is one of those that are written. -/
def Attribute.Named (a : Attribute) : Prop := a.name = "xmlUrl" ∨ a.name = "title" ∨ a.name = "text"

theorem Title.named (t : Title) : t.attribute.Named := by
  rcases t with ⟨name, value⟩
  cases name
  · exact .inr (.inl rfl)
  · exact .inr (.inr rfl)

theorem named_of_mem_titles {title : Option Title} {a : Attribute}
    (h : a ∈ title.toList.map Title.attribute) : a.Named := by
  obtain ⟨t, -, rfl⟩ := List.mem_map.mp h
  exact t.named

theorem Feed.mem_attributes {o : Feed} {a : Attribute} (h : a ∈ o.attributes) :
    a = ⟨"xmlUrl", o.url⟩ ∨ a ∈ o.title.toList.map Title.attribute := by
  unfold Feed.attributes at h
  split at h
  · exact List.mem_cons.mp h
  · exact (List.mem_append.mp h).symm.imp_left List.mem_singleton.mp

theorem Feed.named {o : Feed} {a : Attribute} (h : a ∈ o.attributes) : a.Named := by
  rcases Feed.mem_attributes h with rfl | h
  · exact .inl rfl
  · exact named_of_mem_titles h

/-- The name of an attribute, letter by letter. -/
theorem Attribute.Named.name_eq {a : Attribute} (h : a.Named) :
    ∃ c cs, a.name.toList = c :: cs ∧ isNameStart c = true ∧ ∀ d ∈ cs, isNameChar d = true := by
  rcases h with h | h | h <;> rw [h]
  · exact ⟨'x', "mlUrl".toList, rfl, rfl, by simp [isNameChar]⟩
  · exact ⟨'t', "itle".toList, rfl, rfl, by simp [isNameChar]⟩
  · exact ⟨'t', "ext".toList, rfl, rfl, by simp [isNameChar]⟩

theorem Attribute.Named.notMem_name {a : Attribute} (h : a.Named) {c : Char}
    (hc : c = '<' ∨ c = '>') : c ∉ a.name.toList := by
  rcases h with h | h | h <;> rw [h] <;> rcases hc with rfl | rfl <;> decide

theorem Quote.char_ne (q : Quote) : q.char ≠ '<' ∧ q.char ≠ '>' ∧ q.char ≠ '/' := by
  cases q <;> decide

theorem Attribute.lt_notMem_write {a : Attribute} (h : a.Named) : '<' ∉ a.write := by
  have hquote := a.value.quote.char_ne.1.symm
  simp only [Attribute.write, List.mem_cons, List.mem_append, List.not_mem_nil, or_false, not_or]
  exact ⟨by decide, h.notMem_name (.inl rfl), by decide, hquote, Value.lt_notMem_write, hquote⟩

theorem Attribute.gt_notMem_write {a : Attribute} (h : a.Named) (hvalue : a.value.Unbroken) :
    '>' ∉ a.write := by
  have hquote := a.value.quote.char_ne.2.1.symm
  simp only [Attribute.write, List.mem_cons, List.mem_append, List.not_mem_nil, or_false, not_or]
  exact ⟨by decide, h.notMem_name (.inr rfl), by decide, hquote, hvalue.gt_notMem_write, hquote⟩

theorem isAlphanum_eq (c : Char) :
    c.isAlphanum = ((decide (65 ≤ c.toNat ∧ c.toNat ≤ 90) ||
      (decide (97 ≤ c.toNat) && decide (c.toNat ≤ 122))) ||
      (decide (48 ≤ c.toNat) && decide (c.toNat ≤ 57))) := rfl

/-- No blank belongs to a name. -/
theorem not_nameChar_of_blank {c : Char} (h : Text.isWhitespace c = true) :
    isNameChar c = false := by
  by_contra hname
  have hrange : (65 ≤ c.toNat ∧ c.toNat ≤ 90) ∨ (97 ≤ c.toNat ∧ c.toNat ≤ 122) ∨
      (45 ≤ c.toNat ∧ c.toNat ≤ 58) ∨ c.toNat = 95 := by
    simp only [isNameChar, isAlphanum_eq, Bool.or_eq_true, Bool.not_eq_false, Bool.and_eq_true,
      decide_eq_true_eq] at hname
    rcases hname with (((((hupper | hlower) | hdigit) | rfl) | rfl) | rfl) | rfl
    · exact .inl hupper
    · exact .inr (.inl hlower)
    · omega
    all_goals decide
  simp only [Text.isWhitespace, Bool.or_eq_true, Bool.and_eq_true, decide_eq_true_eq] at h
  omega

/-- No blank belongs to a word. -/
theorem not_wordChar_of_blank {c : Char} (h : Text.isWhitespace c = true) :
    isWordChar c = false := by
  have hname := not_nameChar_of_blank h
  simp only [isNameChar, Bool.or_eq_false_iff, decide_eq_false_iff_not] at hname
  simp [isWordChar, hname]

/-- What stands in a tag after its beginning. -/
def tagRest (pad : Blanks) (attributes : List Attribute) (selfClosing : Bool) : List Char :=
  attributes.flatMap Attribute.write ++ (pad.chars ++ if selfClosing then ['/'] else [])

theorem openTag_eq {pad : Blanks} {attributes : List Attribute} {selfClosing : Bool} :
    openTag pad attributes selfClosing
      = tagStart false ++ (tagRest pad attributes selfClosing ++ ['>']) := by
  unfold openTag tagRest
  cases selfClosing <;> simp only [List.append_assoc] <;> rfl

theorem notMem_tagRest {pad : Blanks} {attributes : List Attribute} {selfClosing : Bool} {c : Char}
    (hattributes : ∀ a ∈ attributes, c ∉ a.write) (hpad : c ∉ pad.chars) (hslash : c ≠ '/') :
    c ∉ tagRest pad attributes selfClosing := by
  simp only [tagRest, List.mem_append, List.mem_flatMap, not_or, not_exists, not_and]
  refine ⟨hattributes, hpad, ?_⟩
  cases selfClosing
  · exact List.not_mem_nil
  · exact List.mem_singleton.not.mpr hslash

/-- No word goes on after the beginning of a tag. -/
theorem head_tagRest {pad : Blanks} {attributes : List Attribute} {selfClosing : Bool} :
    ∀ c ∈ (tagRest pad attributes selfClosing ++ ['>']).head?, isWordChar c = false := by
  unfold tagRest
  rintro c hc
  cases attributes with
  | cons a attributes =>
    obtain rfl := Option.some.inj hc
    rfl
  | nil =>
    rcases pad with ⟨_ | ⟨d, blanks⟩, hblank⟩
    · cases selfClosing <;> obtain rfl := Option.some.inj hc <;> rfl
    · obtain rfl := Option.some.inj hc
      exact not_wordChar_of_blank (hblank d List.mem_cons_self)

/-- The tag of an outline without a `>` in its values. -/
theorem openTag_outlined {pad : Blanks} {attributes : List Attribute} {selfClosing : Bool}
    (hattributes : ∀ a ∈ attributes, a.Named ∧ a.value.Unbroken) :
    Outlined (openTag pad attributes selfClosing) :=
  ⟨false, tagRest pad attributes selfClosing, openTag_eq,
    notMem_tagRest (fun a ha => Attribute.gt_notMem_write (hattributes a ha).1 (hattributes a ha).2)
      pad.gt_notMem (by decide),
    notMem_tagRest (fun a ha => Attribute.lt_notMem_write (hattributes a ha).1) pad.lt_notMem
      (by decide),
    head_tagRest⟩

theorem closeTag_outlined : Outlined closeTag :=
  ⟨true, [], rfl, List.not_mem_nil, List.not_mem_nil, by
    rintro c hc
    obtain rfl := Option.some.inj hc
    rfl⟩

/-- The tags of a forest without a `>` in its values. -/
theorem Forest.tags_outlined {f : Forest} {pad : Blanks} (h : f.Unbroken) :
    ∀ tag ∈ f.tags pad, Outlined tag := by
  have htitles : ∀ {title : Option Title}, (∀ t ∈ title, t.value.Unbroken) →
      ∀ a ∈ title.toList.map Title.attribute, a.Named ∧ a.value.Unbroken := by
    intro title htitle a ha
    refine ⟨named_of_mem_titles ha, ?_⟩
    obtain ⟨t, ht, rfl⟩ := List.mem_map.mp ha
    exact htitle t (Option.mem_toList.mp ht)
  induction f with
  | nil => exact nofun
  | feed o next ih =>
    obtain ⟨hurl, htitle, hnext⟩ := h
    have hfeed : ∀ a ∈ o.attributes, a.Named ∧ a.value.Unbroken := by
      intro a ha
      rcases Feed.mem_attributes ha with rfl | ha
      · exact ⟨.inl rfl, hurl⟩
      · exact htitles htitle a ha
    rw [Forest.tags, List.forall_mem_cons, List.forall_mem_append]
    refine ⟨openTag_outlined hfeed, ?_, ih hnext⟩
    split
    · exact nofun
    · exact List.forall_mem_singleton.mpr closeTag_outlined
  | folder title children next ihc ihn =>
    obtain ⟨htitle, hchildren, hnext⟩ := h
    rw [Forest.tags, List.forall_mem_cons, List.forall_mem_append, List.forall_mem_cons]
    exact ⟨openTag_outlined (htitles htitle), ihc hchildren, closeTag_outlined, ihn hnext⟩

/-! ## Attributes in a tag -/

theorem dropOutlineStart_openTag {pad : Blanks} {attributes : List Attribute}
    {selfClosing : Bool} :
    dropOutlineStart (openTag pad attributes selfClosing)
      = tagRest pad attributes selfClosing ++ ['>'] := by
  have hmatch := @matchHere_outlineStart [] false _ (@head_tagRest pad attributes selfClosing)
  rw [List.append_nil] at hmatch
  rw [dropOutlineStart, openTag_eq, hmatch]
  rfl

/-- The attributes of a tag end with a quote. -/
theorem reverse_attributes {attributes : List Attribute} (h : attributes ≠ []) :
    ∃ (q : Quote) (before : List Char),
      (attributes.flatMap Attribute.write).reverse = q.char :: before := by
  obtain ⟨init, a, rfl⟩ := (List.eq_nil_or_concat attributes).resolve_left h
  have hwrite : a.write = (' ' :: (a.name.toList ++ '=' :: a.value.quote.char :: a.value.write)) ++
      [a.value.quote.char] := by simp [Attribute.write]
  refine ⟨a.value.quote, (init.flatMap Attribute.write ++
    ' ' :: (a.name.toList ++ '=' :: a.value.quote.char :: a.value.write)).reverse, ?_⟩
  rw [List.concat_eq_append, List.flatMap_append, List.flatMap_singleton, hwrite,
    ← List.append_assoc, List.reverse_append]
  rfl

theorem dropTagEnd_slash {tag before : List Char} (h : tag.reverse = '>' :: '/' :: before) :
    dropTagEnd tag = before.reverse := by
  unfold dropTagEnd
  rw [h]
  rfl

theorem dropTagEnd_plain {tag before rest : List Char} (h : tag.reverse = '>' :: before)
    (hdrop : before.dropWhile Text.isWhitespace = rest) (hslash : ∀ c ∈ rest.head?, c ≠ '/') :
    dropTagEnd tag = rest.reverse := by
  simp only [dropTagEnd, h, hdrop]
  rcases rest with _ | ⟨c, cs⟩
  · rfl
  · split
    · rename_i heq
      exact absurd (List.cons.inj heq).1 (hslash c rfl)
    · rfl

/-- The text in which the attributes of a tag are looked for. -/
theorem dropTagEnd_tagRest {pad : Blanks} {attributes : List Attribute} {selfClosing : Bool} :
    dropTagEnd (tagRest pad attributes selfClosing ++ ['>'])
      = attributes.flatMap Attribute.write ++ if selfClosing then pad.chars else [] := by
  unfold tagRest
  cases selfClosing with
  | true =>
    have hreverse : (attributes.flatMap Attribute.write ++ (pad.chars ++ ['/']) ++ ['>']).reverse
        = '>' :: '/' :: (attributes.flatMap Attribute.write ++ pad.chars).reverse := by simp
    exact (dropTagEnd_slash hreverse).trans (List.reverse_reverse _)
  | false =>
    have hblank : ∀ c ∈ pad.chars.reverse, Text.isWhitespace c = true :=
      fun c hc => pad.blank c (List.mem_reverse.mp hc)
    have hreverse : (attributes.flatMap Attribute.write ++ (pad.chars ++ []) ++ ['>']).reverse
        = '>' :: (pad.chars.reverse ++ (attributes.flatMap Attribute.write).reverse) := by simp
    have hdrop : (pad.chars.reverse ++ (attributes.flatMap Attribute.write).reverse).dropWhile
        Text.isWhitespace = (attributes.flatMap Attribute.write).reverse := by
      rw [List.dropWhile_append_of_pos hblank]
      by_cases hnil : attributes = []
      · rw [hnil]
        rfl
      · obtain ⟨q, before, hq⟩ := reverse_attributes hnil
        rw [hq, List.dropWhile_cons_of_neg]
        cases q <;> decide
    simp only [Bool.false_eq_true, if_false]
    rw [dropTagEnd_plain hreverse hdrop, List.reverse_reverse, List.append_nil]
    by_cases hnil : attributes = []
    · rw [hnil]
      exact nofun
    · obtain ⟨q, before, hq⟩ := reverse_attributes hnil
      rw [hq]
      rintro c hc
      obtain rfl := Option.some.inj hc
      exact q.char_ne.2.2

section Quoted

variable {c q q' : Char} {cs v rest : List Char}

/-- A name, a value in these quotes. -/
theorem matchHere_quoted (hc : isNameStart c = true) (hcs : ∀ d ∈ cs, isNameChar d = true)
    (hq : Text.isWhitespace q = false) (hv : q ∉ v) :
    matchHere (quotedAttribute q) (c :: cs ++ '=' :: q :: (v ++ q :: rest))
      = some ([[c], cs, [], ['='], [], [q], v, [q]], rest) := by
  have hvalue : matchHere [.many (· ≠ q), .one (· = q)] (v ++ q :: rest)
      = some ([v, [q]], rest) := by
    rw [matchHere]
    refine greedy_append (m := ([[q]], rest)) ?_ ?_ ?_
    · intro d hd
      exact decide_eq_true fun heq => hv (heq ▸ hd)
    · rintro d hd
      obtain rfl := Option.some.inj hd
      simp
    · simp [matchHere, keep]
  have htail : matchHere [.many Text.isWhitespace, .one (· = '='), .many Text.isWhitespace,
      .one (· = q), .many (· ≠ q), .one (· = q)] ('=' :: q :: (v ++ q :: rest))
      = some ([[], ['='], [], [q], v, [q]], rest) := by
    have hequals : Text.isWhitespace '=' = false := by decide
    rw [matchHere, greedy, hequals, if_neg (by decide), matchHere, if_pos (by simp), matchHere,
      greedy, hq, if_neg (by decide), matchHere, if_pos (by simp), hvalue]
    rfl
  rw [quotedAttribute, List.cons_append, matchHere, if_pos hc, matchHere,
    greedy_append hcs ?_ htail]
  · rfl
  · rintro d hd
    obtain rfl := Option.some.inj hd
    decide

/-- A value in other quotes does not match. -/
theorem matchHere_quoted_eq_none (hcs : ∀ d ∈ cs, isNameChar d = true)
    (hq : Text.isWhitespace q' = false) (hne : q' ≠ q) :
    matchHere (quotedAttribute q) (c :: cs ++ '=' :: q' :: rest) = none := by
  have htail : ∀ ys zs, cs = ys ++ zs →
      matchHere [.many Text.isWhitespace, .one (· = '='), .many Text.isWhitespace,
        .one (· = q), .many (· ≠ q), .one (· = q)] (zs ++ '=' :: q' :: rest) = none := by
    intro ys zs hsplit
    cases zs with
    | nil =>
      have hequals : Text.isWhitespace '=' = false := by decide
      simp [matchHere, greedy, hequals, hq, hne]
    | cons z zs =>
      have hz : isNameChar z = true := by
        refine hcs z ?_
        rw [hsplit]
        exact List.mem_append_right _ List.mem_cons_self
      have hblank : Text.isWhitespace z = false := by
        by_contra h
        rw [not_nameChar_of_blank (by simpa using h)] at hz
        cases hz
      have hequals : z ≠ '=' := by
        rintro rfl
        revert hz
        decide
      simp [matchHere, greedy, hblank, hequals]
  rw [quotedAttribute, List.cons_append, matchHere, matchHere, greedy_eq_none ?_ htail]
  · split <;> rfl
  · rintro d hd
    obtain rfl := Option.some.inj hd
    decide

end Quoted

/-- What a match of an attribute has consumed. -/
def attributePieces (c : Char) (cs : List Char) (v : Value) : List (List Char) :=
  [[c], cs, [], ['='], [], [v.quote.char], v.write, [v.quote.char]]

/-- An attribute is found where it stands. -/
theorem attributeHere_write {v : Value} {c : Char} {cs rest : List Char}
    (hc : isNameStart c = true) (hcs : ∀ d ∈ cs, isNameChar d = true) :
    attributeHere (c :: cs ++ '=' :: v.quote.char :: (v.write ++ v.quote.char :: rest))
      = some (attributePieces c cs v, rest) := by
  have hquote : Text.isWhitespace v.quote.char = false := by
    cases v.quote <;> decide
  have hmatch := @matchHere_quoted c _ cs _ rest hc hcs hquote v.quote_notMem_write
  unfold attributeHere attributePieces
  rcases hq : v.quote with _ | _
  · rw [hq] at hmatch
    exact (congrArg (Option.or · _) hmatch).trans rfl
  · rw [hq] at hmatch
    rw [matchHere_quoted_eq_none (q := '"') hcs (by decide) (by decide)]
    exact hmatch

theorem attributeHere_of_blank {c : Char} (hc : isNameStart c = false) (cs : List Char) :
    attributeHere (c :: cs) = none := by
  simp [attributeHere, quotedAttribute, matchHere, hc]

/-- **The attributes of a tag are found**, in their order. -/
theorem allMatches_attributes {attributes : List Attribute} {blanks : List Char}
    (hattributes : ∀ a ∈ attributes, a.Named)
    (hblanks : ∀ c ∈ blanks, Text.isWhitespace c = true) :
    (allMatches attributeHere 0 (attributes.flatMap Attribute.write ++ blanks)).map attributeOf
      = attributes.map fun a => (a.name.toList, a.value.read) := by
  induction attributes with
  | nil =>
    have hpass : allMatches attributeHere 0 (blanks ++ []) = allMatches attributeHere 0 [] := by
      refine allMatches_pass fun c hc cs => attributeHere_of_blank ?_ cs
      have hname := not_nameChar_of_blank (hblanks c hc)
      simp only [isNameChar, Char.isAlphanum, Bool.or_eq_false_iff] at hname
      simp [isNameStart, hname]
    rw [List.append_nil] at hpass
    rw [List.flatMap_nil, List.nil_append, hpass]
    rfl
  | cons a attributes ih =>
    obtain ⟨c, cs, hname, hc, hcs⟩ := (hattributes a List.mem_cons_self).name_eq
    have hrest := ih fun b hb => hattributes b (List.mem_cons_of_mem a hb)
    set rest := attributes.flatMap Attribute.write ++ blanks with hrest_eq
    have htext : (a :: attributes).flatMap Attribute.write ++ blanks = ' ' ::
        ((attributePieces c cs a.value).flatten ++ rest) := by
      simp [Attribute.write, hname, attributePieces, hrest_eq]
    have hhere : attributeHere ((attributePieces c cs a.value).flatten ++ rest)
        = some (attributePieces c cs a.value, rest) := by
      rw [← attributeHere_write hc hcs]
      simp [attributePieces]
    have hne : (attributePieces c cs a.value).flatten ≠ [] := List.cons_ne_nil _ _
    have hof : attributeOf (attributePieces c cs a.value, rest)
        = (a.name.toList, a.value.read) := by
      rw [hname, ← Value.decode_write]
      simp [attributeOf, attributePieces]
    rw [htext, allMatches, attributeHere_of_blank (by decide)]
    dsimp only
    rw [allMatches_append hne rfl hhere, List.map_cons, hrest, hof, List.map_cons]

/-- **The attributes of a tag**, as the parser takes them. -/
theorem parseAttributes_openTag {pad : Blanks} {attributes : List Attribute} {selfClosing : Bool}
    (hattributes : ∀ a ∈ attributes, a.Named) :
    parseAttributes (openTag pad attributes selfClosing)
      = attributes.map fun a => (a.name.toList, a.value.read) := by
  rw [parseAttributes, dropOutlineStart_openTag, dropTagEnd_tagRest]
  refine allMatches_attributes hattributes ?_
  split
  · exact pad.blank
  · exact nofun

end Opml

end Feedpulse
