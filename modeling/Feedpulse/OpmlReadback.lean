import Feedpulse.OpmlTags

/-!
# Reading OPML back

The parser puts the title of a folder on its stack, and takes one from it at every close tag. The
two agree on the documents in which every folder has a title and the tag of every feed closes
itself: `extractOpmlItems_reads_back_iff`.
-/

namespace Feedpulse

namespace Opml

open OpmlParser Piece

/-! ## Turns of the loop -/

section Turns

variable {pad : Blanks} {s : Outlines}

theorem trim_openTag {attributes : List Attribute} {selfClosing : Bool} :
    Text.trimChars (openTag pad attributes selfClosing) = openTag pad attributes selfClosing := by
  rw [openTag_eq, ← List.append_assoc]
  refine Text.trimChars_eq_self.mpr ⟨?_, ?_⟩
  · rintro c hc
    obtain rfl := Option.some.inj hc
    decide
  · rw [List.getLast?_concat]
    rintro c hc
    obtain rfl := Option.some.inj hc
    decide

theorem not_closing_openTag {attributes : List Attribute} {selfClosing : Bool} :
    matchHere closingTag (openTag pad attributes selfClosing) = none := rfl

/-- What stands before the end of a tag that is not closed. -/
theorem getLast_openTag {attributes : List Attribute} :
    ∀ c ∈ (tagStart false ++ tagRest pad attributes false).getLast?, c ≠ '/' := by
  rcases pad with ⟨chars, hblank⟩
  unfold tagRest
  rcases List.eq_nil_or_concat chars with rfl | ⟨init, d, rfl⟩
  · by_cases hnil : attributes = []
    · rw [hnil]
      intro c hc
      have hlast : c = 'e' := (Option.some.inj hc).symm
      rw [hlast]
      decide
    · obtain ⟨q, before, hq⟩ := reverse_attributes hnil
      have hback := congrArg List.reverse hq
      rw [List.reverse_reverse, List.reverse_cons] at hback
      simp only [Bool.false_eq_true, if_false, List.append_nil, hback]
      rw [← List.append_assoc, List.getLast?_concat]
      rintro c hc
      obtain rfl := Option.some.inj hc
      exact q.char_ne.2.2
  · simp only [Bool.false_eq_true, if_false, List.append_nil, List.concat_eq_append]
    rw [← List.append_assoc, ← List.append_assoc, List.getLast?_concat]
    rintro c hc rfl
    obtain rfl := Option.some.inj hc
    have hslash := hblank '/' (by simp)
    revert hslash
    decide

/-- A tag that is not closed is not taken for one that closes itself. -/
theorem isSuffixOf_openTag {attributes : List Attribute} :
    ['/', '>'].isSuffixOf (openTag pad attributes false) = false := by
  by_contra h
  rw [Bool.not_eq_false, List.isSuffixOf_iff_suffix] at h
  obtain ⟨before, hbefore⟩ := h
  rw [openTag_eq, ← List.append_assoc] at hbefore
  have hlast : before ++ ['/'] = tagStart false ++ tagRest pad attributes false := by
    refine (List.append_left_inj ['>']).mp ?_
    rw [← hbefore, List.append_assoc]
    rfl
  exact @getLast_openTag pad attributes '/'
    (by rw [← hlast, List.getLast?_concat]; rfl) rfl

/-- A close tag takes a title from the stack. -/
theorem readTag_closeTag :
    readTag s closeTag =
      if s.pathStack = [] then .error "opml_malformed_outline"
      else .ok { s with pathStack := s.pathStack.dropLast } := rfl

theorem readTag_openTag {attributes : List Attribute} {selfClosing : Bool}
    (hattributes : ∀ a ∈ attributes, a.Named) :
    readTag s (openTag pad attributes selfClosing) =
      (let read := attributes.map fun a => (a.name.toList, a.value.read)
       if xmlUrlOf read ≠ [] then
        .ok { s with parsed := s.parsed ++ [itemOf s.pathStack (titleOf read) (xmlUrlOf read)] }
      else
        (titleOf read).elim (.ok s) fun title =>
          if ['/', '>'].isSuffixOf (openTag pad attributes selfClosing) then .ok s
          else .ok { s with pathStack := s.pathStack ++ [title] }) := by
  unfold readTag
  dsimp only
  rw [trim_openTag, not_closing_openTag, if_neg (by decide), parseAttributes_openTag hattributes]
  split
  · rfl
  · split <;> rename_i htitle <;> rw [htitle] <;> rfl

theorem trim_nil : Text.trimChars [] = [] := rfl

/-- Reading an attribute of a list, from its end. -/
theorem attribute?_concat {attributes : List (List Char × List Char)} {name key : String}
    {value : List Char} :
    attribute? (attributes ++ [(name.toList, value)]) key =
      if name = key then some value else attribute? attributes key := by
  unfold attribute?
  rw [List.reverse_append, List.reverse_singleton, List.singleton_append, List.find?_cons]
  by_cases hname : name = key
  · rw [if_pos hname, hname, decide_eq_true rfl]
    rfl
  · rw [if_neg hname, decide_eq_false fun h => hname (String.toList_inj.mp h)]

theorem attribute?_one {name key : String} {value : List Char} :
    attribute? [(name.toList, value)] key = if name = key then some value else none :=
  @attribute?_concat [] _ _ _

theorem attribute?_two {name name' key : String} {value value' : List Char} :
    attribute? [(name.toList, value), (name'.toList, value')] key =
      if name' = key then some value' else if name = key then some value else none := by
  rw [← List.singleton_append, attribute?_concat, attribute?_one]

theorem attribute?_nil {key : String} : attribute? [] key = none := rfl

/-- The tag of a feed makes an item. -/
theorem readTag_feed {o : Feed} {selfClosing : Bool} :
    readTag s (openTag pad o.attributes selfClosing) = .ok
      { s with parsed := s.parsed ++
          [itemOf s.pathStack (o.title.map fun t => t.value.read) o.url.read] } := by
  rw [readTag_openTag fun _ => Feed.named]
  have hurl : xmlUrlOf (o.attributes.map fun a => (a.name.toList, a.value.read)) = o.url.read := by
    rcases o with ⟨url, _ | ⟨_ | _, value⟩, _ | _, _⟩ <;>
      simp [-String.reduceToList, xmlUrlOf, attribute?_one, attribute?_two, Feed.attributes,
        Title.attribute, TitleName.write, Value.trim_read]
  have htitle : titleOf (o.attributes.map fun a => (a.name.toList, a.value.read))
      = o.title.map fun t => t.value.read := by
    rcases o with ⟨url, _ | ⟨_ | _, value⟩, _ | _, _⟩ <;>
      simp [-String.reduceToList, titleOf, attribute?_one, attribute?_two, Feed.attributes,
        Title.attribute, TitleName.write, orNull, Value.trim_read, Value.read_ne_nil, trim_nil]
  dsimp only
  rw [hurl, htitle, if_pos Value.read_ne_nil]

/-- The tag of a folder puts its title on the stack. -/
theorem readTag_folder {title : Option Title} :
    readTag s (openTag pad (title.toList.map Title.attribute) false) = .ok
      { s with pathStack := s.pathStack ++ (title.map fun t => t.value.read).toList } := by
  rw [readTag_openTag fun _ => named_of_mem_titles, isSuffixOf_openTag]
  have hurl : xmlUrlOf ((title.toList.map Title.attribute).map fun a =>
      (a.name.toList, a.value.read)) = [] := by
    rcases title with _ | ⟨_ | _, value⟩ <;>
      simp [-String.reduceToList, xmlUrlOf, attribute?_nil, attribute?_one, Title.attribute,
        TitleName.write, trim_nil]
  have htitle : titleOf ((title.toList.map Title.attribute).map fun a =>
      (a.name.toList, a.value.read)) = title.map fun t => t.value.read := by
    rcases title with _ | ⟨_ | _, value⟩ <;>
      simp [-String.reduceToList, titleOf, attribute?_nil, attribute?_one, Title.attribute,
        TitleName.write, orNull, Value.trim_read, Value.read_ne_nil, trim_nil]
  dsimp only
  rw [hurl, htitle, if_neg (not_not.mpr rfl)]
  cases title with
  | none => exact congrArg Except.ok (by rw [Option.map_none, Option.toList_none, List.append_nil])
  | some title => rfl

end Turns

/-! ## Paths -/

/-- A text that is not empty and has no blanks around it. -/
def Solid (text : List Char) : Prop := text ≠ [] ∧ Text.trimChars text = text

theorem Value.read_solid (v : Value) : Solid v.read := ⟨v.read_ne_nil, v.trim_read⟩

theorem solid_intercalate {texts : List (List Char)} {separator : List Char} (hne : texts ≠ [])
    (htexts : ∀ text ∈ texts, Solid text) : Solid (separator.intercalate texts) := by
  induction texts with
  | nil => exact absurd rfl hne
  | cons text texts ih =>
    cases texts with
    | nil => simpa using htexts
    | cons text' texts =>
      obtain ⟨hnil, htrim⟩ := htexts text List.mem_cons_self
      obtain ⟨hnil', htrim'⟩ := ih (List.cons_ne_nil _ _) fun t ht =>
        htexts t (List.mem_cons_of_mem text ht)
      rw [List.intercalate_cons_cons]
      refine ⟨by simp [hnil], ?_⟩
      rw [Text.trimChars_eq_self] at htrim htrim' ⊢
      constructor
      · rw [List.append_assoc, List.head?_append_of_ne_nil _ hnil]
        exact htrim.1
      · rw [List.getLast?_append_of_ne_nil _ hnil']
        exact htrim'.2

/-- The item of a feed below solid titles. -/
theorem itemOf_solid {path : List (List Char)} {title : Option (List Char)} {url : List Char}
    (hpath : ∀ text ∈ path ++ title.toList, Solid text) :
    itemOf path title url =
      { title := title.map String.ofList
        outlinePath :=
          if path ++ title.toList = [] then none
          else some (String.ofList (" / ".toList.intercalate (path ++ title.toList)))
        sourceXmlUrl := String.ofList url } := by
  unfold itemOf outlinePathOf
  congr 1
  split
  · rename_i hnil
    rw [hnil]
    rfl
  · rename_i hne
    obtain ⟨hnil, htrim⟩ := @solid_intercalate _ " / ".toList hne hpath
    rw [htrim, orNull, if_neg hnil]
    rfl

/-! ## Runs of the loop -/

theorem readTags_append {s : Outlines} {tags tags' : List (List Char)} :
    readTags s (tags ++ tags') = readTags s tags >>= fun s' => readTags s' tags' := by
  induction tags generalizing s with
  | nil => rfl
  | cons tag tags ih =>
    rw [List.cons_append, readTags, readTags, bind_assoc]
    exact bind_congr fun s' => ih

/-- The titles of the outlines are kept, and the feeds are added. -/
theorem readTags_forest {f : Forest} {pad : Blanks} {s : Outlines} (htitled : f.Titled)
    (hself : f.SelfClosing) (hpath : ∀ text ∈ s.pathStack, Solid text) :
    readTags s (f.tags pad)
      = .ok { s with parsed := s.parsed ++ f.feedsBy Value.read s.pathStack } := by
  induction f generalizing s with
  | nil =>
    refine congrArg Except.ok ?_
    rw [Forest.feedsBy, List.append_nil]
  | feed o next ih =>
    obtain ⟨hclosing, hself⟩ := hself
    have hitem : ∀ text ∈ s.pathStack ++ (o.title.map fun t => t.value.read).toList,
        Solid text := by
      intro text htext
      rcases List.mem_append.mp htext with htext | htext
      · exact hpath text htext
      · obtain ⟨t, -, rfl⟩ := Option.map_eq_some_iff.mp (Option.mem_toList.mp htext)
        exact t.value.read_solid
    rw [Forest.tags, hclosing, if_pos rfl, List.nil_append, readTags, readTag_feed,
      itemOf_solid hitem]
    refine (ih (s := { s with parsed := s.parsed ++ [_] }) htitled hself hpath).trans ?_
    rw [Forest.feedsBy, List.append_assoc]
    rfl
  | folder title children next ihc ihn =>
    obtain ⟨htitle, hchildren, hnext⟩ := htitled
    obtain ⟨t, rfl⟩ := Option.ne_none_iff_exists'.mp htitle
    have hpath' : ∀ text ∈ s.pathStack ++ [t.value.read], Solid text := by
      intro text htext
      rcases List.mem_append.mp htext with htext | htext
      · exact hpath text htext
      · exact List.mem_singleton.mp htext ▸ t.value.read_solid
    have hopen : readTag s (openTag pad ((some t).toList.map Title.attribute) false)
        = .ok { s with pathStack := s.pathStack ++ [t.value.read] } := readTag_folder
    have hinner := ihc (s := { s with pathStack := s.pathStack ++ [t.value.read] }) hchildren
      hself.1 hpath'
    rw [Forest.tags, readTags, hopen]
    refine Eq.trans (b := readTags { s with pathStack := s.pathStack ++ [t.value.read] }
      (children.tags pad ++ closeTag :: next.tags pad)) rfl ?_
    rw [readTags_append, hinner]
    refine Eq.trans (b := readTag _ closeTag >>= fun s' => readTags s' (next.tags pad)) rfl ?_
    rw [readTag_closeTag, if_neg (by simp)]
    simp only [List.dropLast_concat]
    refine (ihn (s := { s with parsed := s.parsed ++ _ }) hnext hself.2 hpath).trans ?_
    rw [Forest.feedsBy, List.append_assoc]
    rfl

/-- The close tags of a forest. -/
def Forest.closings : Forest → Nat
  | nil => 0
  | feed o next => (if o.selfClosing then 0 else 1) + next.closings
  | folder _ children next => children.closings + 1 + next.closings

/-- The folders with a title. -/
def Forest.titles : Forest → Nat
  | nil => 0
  | feed _ next => next.titles
  | folder title children next => (if title.isSome then 1 else 0) + children.titles + next.titles

theorem readTags_cons_eq_ok {s s' : Outlines} {tag : List Char} {tags : List (List Char)}
    (h : readTags s (tag :: tags) = .ok s') :
    ∃ s₁, readTag s tag = .ok s₁ ∧ readTags s₁ tags = .ok s' := by
  rw [readTags] at h
  rcases hread : readTag s tag with e | s₁
  · rw [hread] at h
    cases h
  · rw [hread] at h
    exact ⟨s₁, rfl, h⟩

theorem length_of_readTag_closeTag {s s' : Outlines} (h : readTag s closeTag = .ok s') :
    s'.pathStack.length + 1 = s.pathStack.length := by
  rw [readTag_closeTag] at h
  split at h
  · cases h
  · rename_i hne
    obtain rfl := Except.ok.inj h
    have hpos := List.length_pos_iff.mpr hne
    simp only [List.length_dropLast]
    omega

/-- Titles are put on the stack by folders with a title, and taken from it by close tags. -/
theorem length_pathStack {f : Forest} {pad : Blanks} {s s' : Outlines}
    (h : readTags s (f.tags pad) = .ok s') :
    s'.pathStack.length + f.closings = s.pathStack.length + f.titles := by
  induction f generalizing s s' with
  | nil =>
    obtain rfl := Except.ok.inj h
    rfl
  | feed o next ih =>
    obtain ⟨s₁, hfeed, h⟩ := readTags_cons_eq_ok h
    rw [readTag_feed] at hfeed
    obtain rfl := Except.ok.inj hfeed
    simp only [Forest.closings, Forest.titles]
    split at h
    · have hrest := ih h
      rw [if_pos ‹_›]
      dsimp only at hrest
      omega
    · obtain ⟨s₂, hclose, h⟩ := readTags_cons_eq_ok h
      have hpop := length_of_readTag_closeTag hclose
      have hrest := ih h
      rw [if_neg ‹_›]
      dsimp only at hpop
      omega
  | folder title children next ihc ihn =>
    obtain ⟨s₁, hfolder, h⟩ := readTags_cons_eq_ok h
    rw [readTag_folder] at hfolder
    obtain rfl := Except.ok.inj hfolder
    rw [readTags_append] at h
    rcases hchildren : readTags { s with pathStack := s.pathStack ++
      (title.map fun t => t.value.read).toList } (children.tags pad) with e | s₂
    · rw [hchildren] at h
      cases h
    · rw [hchildren] at h
      obtain ⟨s₃, hclose, h⟩ := readTags_cons_eq_ok h
      have hpop := length_of_readTag_closeTag hclose
      have hinner := ihc hchildren
      have houter := ihn h
      simp only [Forest.closings, Forest.titles]
      have htitle : (title.map fun t => t.value.read).toList.length
          = if title.isSome then 1 else 0 := by cases title <;> rfl
      rw [List.length_append, htitle] at hinner
      omega

/-- A forest has as many close tags as titles exactly if every folder has a title and the tag of
every feed closes itself. -/
theorem Forest.closings_eq_titles {f : Forest} :
    f.titles ≤ f.closings ∧ (f.closings = f.titles ↔ f.Titled ∧ f.SelfClosing) := by
  induction f with
  | nil => exact ⟨le_rfl, iff_of_true rfl ⟨trivial, trivial⟩⟩
  | feed o next ih =>
    obtain ⟨hle, hiff⟩ := ih
    simp only [closings, titles, Titled, SelfClosing]
    rcases o.selfClosing with _ | _
    · simp only [Bool.false_eq_true, if_false, false_and, and_false, iff_false]
      omega
    · simp only [if_true, Nat.zero_add, true_and]
      exact ⟨hle, hiff⟩
  | folder title children next ihc ihn =>
    obtain ⟨hlec, hiffc⟩ := ihc
    obtain ⟨hlen, hiffn⟩ := ihn
    simp only [closings, titles, Titled, SelfClosing]
    rcases title with _ | t
    · simp only [Option.isSome_none, Bool.false_eq_true, if_false, ne_eq, not_true_eq_false,
        false_and, iff_false]
      omega
    · simp only [Option.isSome_some, if_true, ne_eq, reduceCtorEq, not_false_eq_true, true_and]
      refine ⟨by omega, fun h => ?_, fun ⟨⟨htc, htn⟩, hsc, hsn⟩ => ?_⟩
      · have hc := hiffc.mp (by omega)
        have hn := hiffn.mp (by omega)
        exact ⟨⟨hc.1, hn.1⟩, hc.2, hn.2⟩
      · have hc := hiffc.mpr ⟨htc, hsc⟩
        have hn := hiffn.mpr ⟨htn, hsn⟩
        omega

/-! ## What is read and what is meant -/

/-- A joined path is read as at least as long as it is, and as it is only if no letter of it is
written by its number. -/
theorem length_intercalate_read (separator : List Char) (values : List Value) :
    (separator.intercalate (values.map Value.text)).length
        ≤ (separator.intercalate (values.map Value.read)).length ∧
      ((separator.intercalate (values.map Value.read)).length
          = (separator.intercalate (values.map Value.text)).length →
        ∀ v ∈ values, v.Plain) := by
  induction values with
  | nil => exact ⟨le_rfl, fun _ => nofun⟩
  | cons v values ih =>
    obtain ⟨hle, hplain⟩ := ih
    obtain ⟨hlev, hplainv⟩ := v.length_read
    cases values with
    | nil => simpa using ⟨hlev, hplainv⟩
    | cons v' values =>
      simp only [List.map_cons, List.intercalate_cons_cons, List.length_append] at hle hplain ⊢
      refine ⟨by omega, fun h => ?_⟩
      exact List.forall_mem_cons.mpr ⟨hplainv (by omega), hplain (by omega)⟩

theorem read_eq_text {values : List Value} (h : ∀ v ∈ values, v.Plain) :
    values.map Value.read = values.map Value.text :=
  List.map_congr_left fun v hv => (h v hv).read_eq

theorem length_feedsBy {f : Forest} {view view' : Value → List Char}
    {path path' : List (List Char)} :
    (f.feedsBy view path).length = (f.feedsBy view' path').length := by
  induction f generalizing path path' with
  | nil => rfl
  | feed o next ih => simpa [Forest.feedsBy] using ih
  | folder title children next ihc ihn =>
    rw [Forest.feedsBy, Forest.feedsBy, List.length_append, List.length_append, ihc, ihn]

/-- The values of a title. -/
def titleValues (title : Option Title) : List Value := title.toList.map Title.value

theorem path_append {view : Value → List Char} {ancestors : List Value} {title : Option Title} :
    ancestors.map view ++ (title.map fun t => view t.value).toList
      = (ancestors ++ titleValues title).map view := by
  cases title <;> simp [titleValues]

theorem forall_titleValues {title : Option Title} {P : Value → Prop} :
    (∀ v ∈ titleValues title, P v) ↔ ∀ t ∈ title, P t.value := by
  cases title <;> simp [titleValues]

/-- A path that is read as it is meant. -/
theorem plain_of_path {values : List Value}
    (h : (if values.map Value.read = [] then none
        else some (String.ofList (" / ".toList.intercalate (values.map Value.read))))
      = if values.map Value.text = [] then none
        else some (String.ofList (" / ".toList.intercalate (values.map Value.text)))) :
    ∀ v ∈ values, v.Plain := by
  rcases values with _ | ⟨v, values⟩
  · exact nofun
  · rw [if_neg (by simp), if_neg (by simp)] at h
    refine (length_intercalate_read " / ".toList (v :: values)).2 ?_
    rw [String.ofList_injective (Option.some.inj h)]

/-- The feeds are read as they are meant exactly if no letter of what is read is written by its
number. -/
theorem feedsBy_read_iff {f : Forest} {ancestors : List Value} :
    f.feedsBy Value.read (ancestors.map Value.read)
        = f.feedsBy Value.text (ancestors.map Value.text) ↔
      (f.HasFeed → ∀ v ∈ ancestors, v.Plain) ∧ f.Plain := by
  induction f generalizing ancestors with
  | nil => exact iff_of_true rfl ⟨nofun, trivial⟩
  | feed o next ih =>
    have hnext : next.feedsBy Value.read (ancestors.map Value.read)
        = next.feedsBy Value.text (ancestors.map Value.text) ↔ _ := ih
    simp only [Forest.feedsBy, List.cons.injEq, ParsedOpmlItem.mk.injEq, path_append, hnext,
      Forest.HasFeed, Forest.Plain, true_imp_iff]
    constructor
    · rintro ⟨⟨-, hpath, hurl⟩, -, hplain⟩
      have hvalues := List.forall_mem_append.mp (plain_of_path hpath)
      have hread := congrArg List.length (String.ofList_injective hurl)
      exact ⟨hvalues.1, (Value.length_read _).2 hread, forall_titleValues.mp hvalues.2, hplain⟩
    · rintro ⟨hancestors, hurl, htitle, hplain⟩
      have hvalues := List.forall_mem_append.mpr ⟨hancestors, forall_titleValues.mpr htitle⟩
      refine ⟨⟨?_, ?_, ?_⟩, fun _ => hancestors, hplain⟩
      · cases h : o.title with
        | none => rfl
        | some t => simp [(htitle t (by rw [h]; rfl)).read_eq]
      · rw [read_eq_text hvalues]
      · rw [hurl.read_eq]
  | folder title children next ihc ihn =>
    have hchildren := @ihc (ancestors ++ titleValues title)
    have hnext := @ihn ancestors
    rw [List.forall_mem_append, forall_titleValues] at hchildren
    simp only [Forest.feedsBy, path_append, Forest.HasFeed, Forest.Plain]
    constructor
    · intro h
      obtain ⟨hleft, hright⟩ := List.append_inj h length_feedsBy
      have hc := hchildren.mp hleft
      have hn := hnext.mp hright
      refine ⟨?_, fun hfeed => (hc.1 hfeed).2, hc.2, hn.2⟩
      rintro (hfeed | hfeed)
      · exact (hc.1 hfeed).1
      · exact hn.1 hfeed
    · rintro ⟨hancestors, htitle, hplainc, hplainn⟩
      rw [hchildren.mpr ⟨fun hfeed => ⟨hancestors (.inl hfeed), htitle hfeed⟩, hplainc⟩,
        hnext.mpr ⟨fun hfeed => hancestors (.inr hfeed), hplainn⟩]

/-! ## Reading back -/

/-- **A document is read back exactly if** every folder has a title, the tag of every feed closes
itself and no letter of what is read is written by its number; here no `>` is written as it is in
a value. -/
theorem extractOpmlItems_reads_back_iff {f : Forest} {layout : Layout}
    {options : ExtractOpmlItemsOptions} (hunbroken : f.Unbroken)
    (hbytes : (f.render layout).utf8ByteSize ≤ options.maxBytes.getD defaultMaxOpmlBytes)
    (hlimit : (f.tags layout.pad).length ≤ options.maxOutlineTags.getD defaultMaxOutlineTags) :
    extractOpmlItems (f.render layout) options = .ok f.feeds ↔
      f.Titled ∧ f.SelfClosing ∧ f.Plain := by
  rw [extractOpmlItems_render (Forest.tags_outlined hunbroken) hbytes hlimit]
  have hitems : f.feedsBy Value.read [] = f.feeds ↔ f.Plain := by
    have h := @feedsBy_read_iff f []
    simpa [Forest.feeds] using h
  have hforest : f.Titled → f.SelfClosing → readTags ⟨[], []⟩ (f.tags layout.pad)
      = .ok ⟨[], f.feedsBy Value.read []⟩ :=
    fun htitled hself => readTags_forest htitled hself nofun
  constructor
  · intro h
    rcases hs : readTags ⟨[], []⟩ (f.tags layout.pad) with e | s
    · rw [hs] at h
      cases h
    · have hempty : s.pathStack = [] := by
        by_contra hne
        rw [hs] at h
        change (if s.pathStack ≠ [] then Except.error "opml_malformed_outline"
          else .ok s.parsed) = Except.ok f.feeds at h
        rw [if_pos hne] at h
        cases h
      have hlength := length_pathStack hs
      rw [hempty] at hlength
      obtain ⟨htitled, hself⟩ := f.closings_eq_titles.2.mp (by simpa using hlength)
      rw [hforest htitled hself] at h
      exact ⟨htitled, hself, hitems.mp (Except.ok.inj h)⟩
  · rintro ⟨htitled, hself, hplain⟩
    rw [hforest htitled hself, ← hitems.mpr hplain]
    rfl

/-- `https://a.example/rss`. -/
def siteUrl : Value where
  quote := .double
  letters := "https://a.example/rss".toList.map .literal
  allowed := by decide
  nonempty := by decide
  trimmed := by decide

/-- `R&D`, with an entity. -/
def research : Value where
  quote := .single
  letters := [.literal 'R', .entity .amp, .literal 'D']
  allowed := by decide
  nonempty := by decide
  trimmed := by decide

/-- A folder with a feed. -/
def researchFeeds : Forest :=
  .folder (some ⟨.text, research⟩)
    (.feed ⟨siteUrl, some ⟨.title, research⟩, true, true⟩ .nil) .nil

/-- One line for every tag. -/
def lines : Layout where
  pad := ⟨[' '], fun _ hc => by rw [List.mem_singleton.mp hc]; rfl⟩
  gap := ⟨['\n'], fun _ hc => by rw [List.mem_singleton.mp hc]; rfl⟩

/-- The default limits. -/
def defaultOptions : ExtractOpmlItemsOptions := ⟨none, none⟩

theorem researchFeeds_read_back :
    extractOpmlItems (researchFeeds.render lines) defaultOptions = .ok researchFeeds.feeds := by
  have hunbroken : researchFeeds.Unbroken := by
    simp [researchFeeds, Forest.Unbroken, Value.Unbroken, research, siteUrl, Letter.IsBreak]
  have hplain : researchFeeds.Plain := by
    simp [researchFeeds, Forest.Plain, Value.Plain, research, siteUrl, Letter.IsPlain]
  exact (extractOpmlItems_reads_back_iff hunbroken (by decide +kernel) (by decide +kernel)).mpr
    ⟨⟨nofun, trivial, trivial⟩, ⟨⟨rfl, trivial⟩, trivial⟩, hplain⟩

/-- A feed whose tag is closed by another one. -/
def closedFeed : Forest := .feed ⟨siteUrl, none, true, false⟩ .nil

/-- **A document that is not read back**: the close tag of a feed takes a title from the stack that
was never put there. -/
theorem closedFeed_not_read_back :
    extractOpmlItems (closedFeed.render lines) defaultOptions ≠ .ok closedFeed.feeds := by
  decide +kernel

/-- `a>b`, with the `>` as it is. -/
def brokenUrl : Value where
  quote := .double
  letters := ['a', '>', 'b'].map .literal
  allowed := by decide
  nonempty := by decide
  trimmed := by decide

/-- A `>` in a value cuts the tag, and the feed is lost. -/
example :
    extractOpmlItems ((Forest.feed ⟨brokenUrl, none, true, true⟩ .nil).render lines) defaultOptions
      = .ok [] := by decide +kernel

end Opml

end Feedpulse
