import Feedpulse.OpmlParser

/-!
# OPML documents

Forests of outlines with all the freedom that well-formed XML leaves in writing them: the order
of the attributes, the quotes around their values, how a character of a value is written and how
the tag of a feed is closed.
-/

namespace Feedpulse

namespace Opml

/-! ## Values -/

/-- The predefined entities. -/
inductive Entity
  | quot
  | apos
  | lt
  | gt
  | amp
  deriving DecidableEq, Repr

/-- The character an entity stands for. -/
def Entity.char : Entity → Char
  | quot => '"'
  | apos => '\''
  | lt => '<'
  | gt => '>'
  | amp => '&'

/-- The name of an entity, and what ends it. -/
def Entity.name : Entity → List Char
  | quot => "quot;".toList
  | apos => "apos;".toList
  | lt => "lt;".toList
  | gt => "gt;".toList
  | amp => "amp;".toList

/-- How an entity is written. -/
def Entity.write (e : Entity) : List Char := '&' :: e.name

/-- A character of a value, in the way it is written. -/
inductive Letter
  /-- as it is -/
  | literal (c : Char)
  /-- by its entity -/
  | entity (e : Entity)
  /-- by its number -/
  | reference (hexadecimal : Bool) (c : Char)
  deriving DecidableEq, Repr

namespace Letter

/-- The character. -/
def char : Letter → Char
  | literal c => c
  | entity e => e.char
  | reference _ c => c

/-- The number of a character in a reference. -/
def number (hexadecimal : Bool) (c : Char) : List Char :=
  if hexadecimal then 'x' :: Nat.toDigits 16 c.toNat else Nat.toDigits 10 c.toNat

/-- The text of the letter in the document. -/
def write : Letter → List Char
  | literal c => [c]
  | entity e => e.write
  | reference hexadecimal c => '&' :: '#' :: (number hexadecimal c ++ [';'])

/-- What the parser makes of the letter. -/
def read : Letter → List Char
  | literal c => [c]
  | entity e => [e.char]
  | reference hexadecimal c => (reference hexadecimal c).write

/-- What may stand as it is between quotes. -/
def Allowed (quote : Char) : Letter → Prop
  | literal c => c ≠ '&' ∧ c ≠ '<' ∧ c ≠ quote
  | _ => True

instance (quote : Char) : ∀ letter : Letter, Decidable (letter.Allowed quote)
  | literal _ => inferInstanceAs (Decidable (_ ∧ _))
  | entity _ => isTrue trivial
  | reference .. => isTrue trivial

/-- It is a `>` that is written as it is. -/
def IsBreak : Letter → Prop
  | literal c => c = '>'
  | _ => False

/-- It is not written by its number. -/
def IsPlain : Letter → Prop
  | reference .. => False
  | _ => True

end Letter

/-- The quotes around a value. -/
inductive Quote
  | double
  | single
  deriving DecidableEq, Repr

/-- The character. -/
def Quote.char : Quote → Char
  | double => '"'
  | single => '\''

/-- The value of an attribute: a nonempty text without blanks around it, in the way it is
written. -/
structure Value where
  /-- the quotes -/
  quote : Quote
  /-- the characters -/
  letters : List Letter
  /-- what must be escaped is -/
  allowed : ∀ letter ∈ letters, letter.Allowed quote.char
  /-- there is something -/
  nonempty : letters ≠ []
  /-- there are no blanks around it -/
  trimmed : Text.trimChars (letters.map Letter.char) = letters.map Letter.char

namespace Value

/-- The text. -/
def text (v : Value) : List Char := v.letters.map Letter.char

/-- How it is written. -/
def write (v : Value) : List Char := v.letters.flatMap Letter.write

/-- What the parser makes of it. -/
def read (v : Value) : List Char := v.letters.flatMap Letter.read

/-- No `>` is written as it is. -/
def Unbroken (v : Value) : Prop := ∀ letter ∈ v.letters, ¬letter.IsBreak

/-- No character is written by its number. -/
def Plain (v : Value) : Prop := ∀ letter ∈ v.letters, letter.IsPlain

end Value

/-! ## Outlines -/

/-- The attribute of a title. -/
inductive TitleName
  | title
  | text
  deriving DecidableEq, Repr

/-- The name. -/
def TitleName.write : TitleName → String
  | title => "title"
  | text => "text"

/-- The title of an outline. -/
structure Title where
  /-- its attribute -/
  name : TitleName
  /-- its value -/
  value : Value

/-- An outline with an `xmlUrl`. -/
structure Feed where
  /-- the URL -/
  url : Value
  /-- the title -/
  title : Option Title
  /-- whether the URL stands before the title -/
  urlFirst : Bool
  /-- whether the tag closes itself -/
  selfClosing : Bool

/-- A forest of outlines: nothing, or a feed or a folder before the rest. -/
inductive Forest
  | nil
  | feed (o : Feed) (next : Forest)
  | folder (title : Option Title) (children next : Forest)

/-- An attribute. -/
structure Attribute where
  /-- its name -/
  name : String
  /-- its value -/
  value : Value

/-- How an attribute is written. -/
def Attribute.write (a : Attribute) : List Char :=
  ' ' :: (a.name.toList ++ '=' :: a.value.quote.char :: (a.value.write ++ [a.value.quote.char]))

/-- The attribute of a title. -/
def Title.attribute (t : Title) : Attribute := ⟨t.name.write, t.value⟩

/-- The attributes of a feed, in their order. -/
def Feed.attributes (o : Feed) : List Attribute :=
  if o.urlFirst then ⟨"xmlUrl", o.url⟩ :: o.title.toList.map Title.attribute
  else o.title.toList.map Title.attribute ++ [⟨"xmlUrl", o.url⟩]

/-! ## Rendering -/

/-- Blanks. -/
structure Blanks where
  /-- the characters -/
  chars : List Char
  /-- they are blank -/
  blank : ∀ c ∈ chars, Text.isWhitespace c = true

/-- The blanks between the parts of a document. -/
structure Layout where
  /-- before the end of a tag -/
  pad : Blanks
  /-- after a tag -/
  gap : Blanks

/-- `<outline …>` or `<outline …/>`. -/
def openTag (pad : Blanks) (attributes : List Attribute) (selfClosing : Bool) : List Char :=
  "<outline".toList ++ (attributes.flatMap Attribute.write ++ pad.chars) ++
    (if selfClosing then "/>" else ">").toList

/-- `</outline>`. -/
def closeTag : List Char := "</outline>".toList

/-- The outline tags of a forest. -/
def Forest.tags (pad : Blanks) : Forest → List (List Char)
  | nil => []
  | feed o next =>
    openTag pad o.attributes o.selfClosing ::
      ((if o.selfClosing then [] else [closeTag]) ++ next.tags pad)
  | folder title children next =>
    openTag pad (title.toList.map Title.attribute) false ::
      (children.tags pad ++ closeTag :: next.tags pad)

/-- What stands before the outlines. -/
def header : List Char :=
  "<?xml version=\"1.0\" encoding=\"UTF-8\"?><opml version=\"2.0\"><body>".toList

/-- What stands after the outlines. -/
def footer : List Char := "</body></opml>".toList

/-- The document. -/
def Forest.render (layout : Layout) (f : Forest) : String :=
  String.ofList <|
    header ++ ((f.tags layout.pad).flatMap (· ++ layout.gap.chars) ++ footer)

/-! ## Feeds -/

/-- The feeds of a forest below outlines with these titles, in document order, where `view` says
what a value is taken for. -/
def Forest.feedsBy (view : Value → List Char) : List (List Char) → Forest → List ParsedOpmlItem
  | _, nil => []
  | path, feed o next =>
    let title := o.title.map fun t => view t.value
    let path' := path ++ title.toList
    { title := title.map String.ofList
      outlinePath :=
        if path' = [] then none else some (String.ofList (" / ".toList.intercalate path'))
      sourceXmlUrl := String.ofList (view o.url) } :: feedsBy view path next
  | path, folder title children next =>
    feedsBy view (path ++ (title.map fun t => view t.value).toList) children ++
      feedsBy view path next

/-- The feeds of a forest. -/
def Forest.feeds (f : Forest) : List ParsedOpmlItem := f.feedsBy Value.text []

/-- No `>` is written as it is in a value. -/
def Forest.Unbroken : Forest → Prop
  | nil => True
  | feed o next => o.url.Unbroken ∧ (∀ t ∈ o.title, t.value.Unbroken) ∧ next.Unbroken
  | folder title children next =>
    (∀ t ∈ title, t.value.Unbroken) ∧ children.Unbroken ∧ next.Unbroken

/-- Every folder has a title. -/
def Forest.Titled : Forest → Prop
  | nil => True
  | feed _ next => next.Titled
  | folder title children next => title ≠ none ∧ children.Titled ∧ next.Titled

/-- The tag of every feed closes itself. -/
def Forest.SelfClosing : Forest → Prop
  | nil => True
  | feed o next => o.selfClosing = true ∧ next.SelfClosing
  | folder _ children next => children.SelfClosing ∧ next.SelfClosing

/-- There is a feed. -/
def Forest.HasFeed : Forest → Prop
  | nil => False
  | feed .. => True
  | folder _ children next => children.HasFeed ∨ next.HasFeed

/-- No character of a URL, of the title of a feed or of a folder with feeds is written by its
number. -/
def Forest.Plain : Forest → Prop
  | nil => True
  | feed o next => o.url.Plain ∧ (∀ t ∈ o.title, t.value.Plain) ∧ next.Plain
  | folder title children next =>
    (children.HasFeed → ∀ t ∈ title, t.value.Plain) ∧ children.Plain ∧ next.Plain

/-! ## What a value contains -/

/-- The characters of the markup. -/
def Markup (c : Char) : Prop := c = '<' ∨ c = '>' ∨ c = '"' ∨ c = '\'' ∨ c = '&'

theorem Entity.notMem_name {c : Char} (hc : Markup c) (e : Entity) : c ∉ e.name := by
  rcases hc with rfl | rfl | rfl | rfl | rfl <;> cases e <;> decide

theorem Entity.notMem_write {c : Char} (hc : Markup c) (hamp : c ≠ '&') (e : Entity) :
    c ∉ e.write :=
  List.not_mem_cons_of_ne_of_not_mem hamp (e.notMem_name hc)

/-- No digit belongs to the markup. -/
theorem not_markup_digitChar : ∀ k < 16, ¬Markup (Nat.digitChar k) := by
  unfold Markup
  decide

theorem digitChar_of_mem {b fuel n : Nat} {c : Char} {cs : List Char} (hb : 0 < b)
    (hcs : c ∈ cs → ∃ k < b, c = Nat.digitChar k) (h : c ∈ Nat.toDigitsCore b fuel n cs) :
    ∃ k < b, c = Nat.digitChar k := by
  induction fuel generalizing n cs with
  | zero => exact hcs h
  | succ fuel ih =>
    have hcons : c ∈ Nat.digitChar (n % b) :: cs → ∃ k < b, c = Nat.digitChar k := by
      intro hmem
      rcases List.mem_cons.mp hmem with heq | hmem
      · exact ⟨_, Nat.mod_lt _ hb, heq⟩
      · exact hcs hmem
    rw [Nat.toDigitsCore] at h
    split at h
    · exact hcons h
    · exact ih hcons h

namespace Letter

theorem notMem_number {c : Char} (hc : Markup c) (hexadecimal : Bool) (d : Char) :
    c ∉ number hexadecimal d := by
  have hdigits : ∀ b, 0 < b → b ≤ 16 → c ∉ Nat.toDigits b d.toNat := by
    intro b hpos hle hmem
    obtain ⟨k, hk, rfl⟩ := digitChar_of_mem hpos (absurd · List.not_mem_nil) hmem
    exact not_markup_digitChar k (hk.trans_le hle) hc
  cases hexadecimal with
  | false => exact hdigits 10 (by decide) (by decide)
  | true =>
    refine List.not_mem_cons_of_ne_of_not_mem ?_ (hdigits 16 (by decide) le_rfl)
    rintro rfl
    revert hc
    unfold Markup
    decide

/-- What follows the `&` of a reference. -/
theorem notMem_reference {c : Char} (hc : Markup c) (hexadecimal : Bool) (d : Char) :
    c ∉ '#' :: (number hexadecimal d ++ [';']) := by
  have hends : c ≠ '#' ∧ c ≠ ';' := by
    constructor <;> (rintro rfl; revert hc; unfold Markup; decide)
  rw [List.mem_cons, List.mem_append, List.mem_singleton]
  rintro (heq | hmem | heq)
  · exact hends.1 heq
  · exact notMem_number hc hexadecimal d hmem
  · exact hends.2 heq

/-- The markup in a letter is what is written as it is, and the `&`. -/
theorem notMem_write {c : Char} (hc : Markup c) (hamp : c ≠ '&') {letter : Letter}
    (hletter : letter ≠ literal c) : c ∉ letter.write := by
  cases letter with
  | literal d =>
    rw [write, List.mem_singleton]
    rintro rfl
    exact hletter rfl
  | entity e => exact e.notMem_write hc hamp
  | reference hexadecimal d =>
    exact List.not_mem_cons_of_ne_of_not_mem hamp (notMem_reference hc hexadecimal d)

end Letter

/-! ## Decoding -/

/-- The letter, when these entities have been decoded. -/
def Letter.form (decoded : Entity → Bool) : Letter → List Char
  | literal c => [c]
  | entity e => if decoded e then [e.char] else e.write
  | reference hexadecimal c => (reference hexadecimal c).write

section Decoding

variable {decoded : Entity → Bool} {e : Entity}

/-- The entity is found only where it is written. -/
theorem Entity.isPrefixOf_ne {e' : Entity} (hne : e ≠ e') (rest : List Char) :
    e.write.isPrefixOf (e'.write ++ rest) = false := by
  cases e <;> cases e' <;> first | exact absurd rfl hne | rfl

theorem Entity.isPrefixOf_reference (rest : List Char) :
    e.write.isPrefixOf ('&' :: '#' :: rest) = false := by
  cases e <;> rfl

/-- What only begins as the entity is left alone. -/
theorem Entity.replaceAll_keep {xs rest : List Char}
    (hnot : e.write.isPrefixOf ('&' :: (xs ++ rest)) = false) (hxs : '&' ∉ xs) :
    replaceAll e.write [e.char] 0 ('&' :: xs ++ rest)
      = '&' :: xs ++ replaceAll e.write [e.char] 0 rest := by
  rw [List.cons_append, replaceAll, if_neg (by rw [hnot]; decide), Entity.write,
    replaceAll_pass hxs, List.cons_append]

/-- One `replace` decodes one entity in a letter, while no `&` is decoded yet. -/
theorem Letter.replaceAll_form (hnot : decoded e = false) (hamp : decoded .amp = false)
    {letter : Letter} (hletter : letter ≠ .literal '&') (rest : List Char) :
    replaceAll e.write [e.char] 0 (letter.form decoded ++ rest)
      = letter.form (fun e' => decoded e' || e' = e) ++ replaceAll e.write [e.char] 0 rest := by
  cases letter with
  | literal c =>
    have hne : '&' ≠ c := fun heq => hletter (heq ▸ rfl)
    exact replaceAll_pass (List.mem_singleton.not.mpr hne)
  | entity e' =>
    by_cases hdecoded : decoded e' = true
    · have hne : '&' ≠ e'.char := by
        cases e' with
        | amp => exact absurd hdecoded (by simp [hamp])
        | _ => decide
      simp only [form, hdecoded, Bool.true_or, if_true]
      exact replaceAll_pass (List.mem_singleton.not.mpr hne)
    · by_cases he : e' = e
      · subst he
        simp only [form, hnot, Bool.false_or, decide_true, if_true, Bool.false_eq_true, if_false]
        exact replaceAll_part
      · simp only [form, hdecoded, he, decide_false, Bool.or_false, Bool.false_eq_true, if_false]
        exact Entity.replaceAll_keep (Entity.isPrefixOf_ne (Ne.symm he) rest)
          (e'.notMem_name (by simp [Markup]))
  | reference hexadecimal c =>
    exact Entity.replaceAll_keep (Entity.isPrefixOf_reference _)
      (notMem_reference (by simp [Markup]) hexadecimal c)

/-- One `replace` decodes one entity in a text. -/
theorem replaceAll_letters (hnot : decoded e = false) (hamp : decoded .amp = false)
    {letters : List Letter} (hletters : ∀ letter ∈ letters, letter ≠ .literal '&') :
    replaceAll e.write [e.char] 0 (letters.flatMap (Letter.form decoded))
      = letters.flatMap (Letter.form fun e' => decoded e' || e' = e) := by
  induction letters with
  | nil => rfl
  | cons letter letters ih =>
    rw [List.flatMap_cons, List.flatMap_cons,
      Letter.replaceAll_form hnot hamp (hletters letter List.mem_cons_self),
      ih fun l hl => hletters l (List.mem_cons_of_mem letter hl)]

/-- **Decoding reads every letter**: all entities, and no numbers. -/
theorem decodeXmlEntities_letters {letters : List Letter}
    (hletters : ∀ letter ∈ letters, letter ≠ .literal '&') :
    OpmlParser.decodeXmlEntities (letters.flatMap Letter.write)
      = letters.flatMap Letter.read := by
  have hwrite : Letter.write = Letter.form fun _ => false := by
    funext letter
    cases letter <;> rfl
  have hread : Letter.read = Letter.form fun e => ((((false || e = .quot) || e = .apos) ||
      e = .lt) || e = .gt) || e = .amp := by
    funext letter
    cases letter with
    | entity e => cases e <;> rfl
    | _ => rfl
  rw [hwrite, hread, ← replaceAll_letters (by decide) (by decide) hletters,
    ← replaceAll_letters (by decide) (by decide) hletters,
    ← replaceAll_letters (by decide) (by decide) hletters,
    ← replaceAll_letters (by decide) (by decide) hletters,
    ← replaceAll_letters (by decide) (by decide) hletters]
  rfl

end Decoding

namespace Value

variable {v : Value}

/-- Nothing that must be escaped stands in a value as it is. -/
theorem ne_literal {letter : Letter} (h : letter ∈ v.letters) :
    letter ≠ .literal '&' ∧ letter ≠ .literal '<' ∧ letter ≠ .literal v.quote.char := by
  have hallowed := v.allowed letter h
  refine ⟨?_, ?_, ?_⟩ <;> rintro rfl
  · exact hallowed.1 rfl
  · exact hallowed.2.1 rfl
  · exact hallowed.2.2 rfl

theorem notMem_write_of {c : Char} (hc : Markup c) (hamp : c ≠ '&')
    (h : ∀ letter ∈ v.letters, letter ≠ .literal c) : c ∉ v.write := by
  intro hmem
  obtain ⟨letter, hletter, hmem⟩ := List.mem_flatMap.mp hmem
  exact Letter.notMem_write hc hamp (h letter hletter) hmem

theorem lt_notMem_write : '<' ∉ v.write :=
  notMem_write_of (.inl rfl) (by decide) fun _ h => (ne_literal h).2.1

theorem quote_notMem_write : v.quote.char ∉ v.write := by
  refine notMem_write_of ?_ ?_ fun _ h => (ne_literal h).2.2
  · cases v.quote <;> simp [Markup, Quote.char]
  · cases v.quote <;> decide

theorem Unbroken.gt_notMem_write (h : v.Unbroken) : '>' ∉ v.write := by
  refine notMem_write_of (.inr (.inl rfl)) (by decide) fun letter hletter heq => ?_
  exact h letter hletter (heq ▸ rfl)

/-- What is written for the letters of a value has no blanks around it either. -/
theorem trimmed_flatMap {g : Letter → List Char}
    (hfirst : ∀ letter, ∃ c cs, g letter = c :: cs ∧
      (c = letter.char ∨ Text.isWhitespace c = false))
    (hlast : ∀ letter, ∃ c cs, g letter = cs ++ [c] ∧
      (c = letter.char ∨ Text.isWhitespace c = false)) :
    Text.trimChars (v.letters.flatMap g) = v.letters.flatMap g := by
  obtain ⟨hhead, hend⟩ := Text.trimChars_eq_self.mp v.trimmed
  refine Text.trimChars_eq_self.mpr ⟨?_, ?_⟩
  · obtain ⟨letter, letters, hletters⟩ := List.exists_cons_of_ne_nil v.nonempty
    obtain ⟨c, cs, hg, hc⟩ := hfirst letter
    rw [hletters, List.flatMap_cons, hg]
    rintro d hd
    obtain rfl := Option.some.inj hd
    rcases hc with rfl | hblank
    · exact hhead letter.char (by rw [hletters]; rfl)
    · exact hblank
  · have hletters := (List.dropLast_append_getLast v.nonempty).symm
    obtain ⟨c, cs, hg, hc⟩ := hlast (v.letters.getLast v.nonempty)
    rw [hletters, List.flatMap_append, List.flatMap_singleton, hg, ← List.append_assoc,
      List.getLast?_concat]
    rintro d hd
    obtain rfl := Option.some.inj hd
    rcases hc with rfl | hblank
    · exact hend _ (by rw [List.getLast?_map, List.getLast?_eq_getLast_of_ne_nil v.nonempty]; rfl)
    · exact hblank

theorem trim_write : Text.trimChars v.write = v.write := by
  refine trimmed_flatMap (fun letter => ?_) fun letter => ?_
  · cases letter with
    | literal c => exact ⟨c, [], rfl, .inl rfl⟩
    | entity e => exact ⟨'&', e.name, rfl, .inr (by decide)⟩
    | reference hexadecimal c => exact ⟨'&', _, rfl, .inr (by decide)⟩
  · cases letter with
    | literal c => exact ⟨c, [], rfl, .inl rfl⟩
    | entity e => exact ⟨';', e.write.dropLast, by cases e <;> rfl, .inr (by decide)⟩
    | reference hexadecimal c =>
      exact ⟨';', '&' :: '#' :: Letter.number hexadecimal c, rfl, .inr (by decide)⟩

theorem trim_read : Text.trimChars v.read = v.read := by
  refine trimmed_flatMap (fun letter => ?_) fun letter => ?_
  · cases letter with
    | literal c => exact ⟨c, [], rfl, .inl rfl⟩
    | entity e => exact ⟨e.char, [], rfl, .inl rfl⟩
    | reference hexadecimal c => exact ⟨'&', _, rfl, .inr (by decide)⟩
  · cases letter with
    | literal c => exact ⟨c, [], rfl, .inl rfl⟩
    | entity e => exact ⟨e.char, [], rfl, .inl rfl⟩
    | reference hexadecimal c =>
      exact ⟨';', '&' :: '#' :: Letter.number hexadecimal c, rfl, .inr (by decide)⟩

/-- The value of an attribute, as the parser takes it. -/
theorem decode_write : OpmlParser.decodeXmlEntities (Text.trimChars v.write) = v.read := by
  rw [trim_write]
  exact decodeXmlEntities_letters fun _ h => (ne_literal h).1

/-- A text is read as at least as long as it is, and as exactly as long only if no letter is
written by its number. -/
theorem length_read (v : Value) :
    v.text.length ≤ v.read.length ∧ (v.read.length = v.text.length → v.Plain) := by
  unfold text read Plain
  induction v.letters with
  | nil => exact ⟨le_rfl, fun _ => nofun⟩
  | cons letter letters ih =>
    obtain ⟨hle, hplain⟩ := ih
    rw [List.flatMap_cons, List.length_append, List.map_cons, List.length_cons]
    have hletter : 1 ≤ letter.read.length ∧ (letter.read.length = 1 → letter.IsPlain) := by
      cases letter with
      | literal c => exact ⟨le_rfl, fun _ => trivial⟩
      | entity e => exact ⟨le_rfl, fun _ => trivial⟩
      | reference hexadecimal c =>
        exact ⟨Nat.succ_pos _, fun h => by simp [Letter.read, Letter.write] at h⟩
    refine ⟨by omega, fun h => ?_⟩
    rw [List.forall_mem_cons]
    exact ⟨hletter.2 (by omega), hplain (by omega)⟩

theorem Plain.read_eq (h : v.Plain) : v.read = v.text := by
  unfold read text
  rw [List.map_eq_flatMap]
  refine List.flatMap_congr fun letter hletter => ?_
  cases letter with
  | literal c => rfl
  | entity e => rfl
  | reference hexadecimal c => exact (h _ hletter).elim

theorem text_ne_nil : v.text ≠ [] := fun h => v.nonempty (List.map_eq_nil_iff.mp h)

theorem read_ne_nil : v.read ≠ [] := by
  intro h
  have hle := (length_read v).1
  rw [h] at hle
  exact text_ne_nil (List.eq_nil_of_length_eq_zero (Nat.le_zero.mp hle))

end Value

end Opml

end Feedpulse
