import Feedpulse.CodeUnits

/-!
# The text of a Telegram digest

`sendTelegramDigest` lists the first twelve articles of a group. Titles and snippets are cut to a
length, and the links are not. `text_fits_iff` says which digests are within the limit of Telegram;
one that is not is sent again with the next sweep, and by `not_fits_append` it never gets shorter.
-/

namespace Feedpulse

namespace DigestText

/-! ## Blanks -/

/-- The code units `\s` stands for: there are no others outside the basic plane. -/
def isBlank (u : UInt16) : Bool :=
  let n := u.toNat
  (9 ≤ n && n ≤ 13) || n = 0x20 || n = 0xa0 || n = 0x1680 || (0x2000 ≤ n && n ≤ 0x200a) ||
    n = 0x2028 || n = 0x2029 || n = 0x202f || n = 0x205f || n = 0x3000 || n = 0xfeff

/-- `text.trim()`. -/
def trim (text : Units) : Units :=
  ((text.dropWhile isBlank).reverse.dropWhile isBlank).reverse

/-- `text.replaceAll(/\s+/g, ' ')`. The flag records that the run being read has produced its
blank. -/
def collapseBlanks : Bool → Units → Units
  | _, [] => []
  | inRun, u :: us =>
    if isBlank u then
      if inRun then collapseBlanks true us else 0x20 :: collapseBlanks true us
    else u :: collapseBlanks false us

/-! ## The notifier -/

/-- `TELEGRAM_TITLE_MAX_LENGTH`. -/
def telegramTitleMaxLength : Nat := 120

/-- `TELEGRAM_SNIPPET_MAX_LENGTH`. -/
def telegramSnippetMaxLength : Nat := 180

/-- The most Telegram accepts. -/
def telegramMessageMaxLength : Nat := 4096

/-- `truncate`. -/
def truncate (value : Units) (maxLength : Nat) : Units :=
  if value.length ≤ maxLength then value else value.take (maxLength - 1) ++ utf16 "…"

/-- An item of `TelegramDigestPayload`. -/
structure DigestItem where
  /-- title of the article -/
  title : Option Units
  /-- content of the article -/
  snippet : Option Units
  /-- link of the article -/
  link : Option Units
  deriving DecidableEq, Repr

/-- `TelegramDigestPayload`, as far as the text depends on it. -/
structure TelegramDigestPayload where
  /-- `windowLabel` -/
  windowLabel : Units
  /-- `items` -/
  items : List DigestItem
  deriving DecidableEq, Repr

/-- The content as one line, null if it is blank. -/
def compactOf (content : Option Units) : Option Units :=
  (content.map fun text => trim (collapseBlanks false text)).filter fun text => text ≠ []

/-- `summarizeTelegramContent`: an empty content is blank, too. -/
def summarizeTelegramContent (content : Option Units) : Option Units :=
  (compactOf content).map fun compact => truncate compact telegramSnippetMaxLength

/-- `item.title?.trim() || 'Untitled'`. -/
def titleOf (item : DigestItem) : Units :=
  match (item.title.map trim).filter fun title => title ≠ [] with
  | some title => title
  | none => utf16 "Untitled"

/-- The link, if it is truthy. -/
def linkOf (item : DigestItem) : Option Units := item.link.filter fun link => link ≠ []

/-- The lines of an item. -/
def itemLines (index : Nat) (item : DigestItem) : List Units :=
  [utf16 (toString (index + 1)) ++ utf16 ". " ++ truncate (titleOf item) telegramTitleMaxLength] ++
    (summarizeTelegramContent item.snippet).toList.map (utf16 "   " ++ ·) ++
    (linkOf item).toList.map (utf16 "   🔗 " ++ ·)

/-- The lines of the items, numbered from `index`. -/
def itemsLines : Nat → List DigestItem → List Units
  | _, [] => []
  | index, item :: items => itemLines index item ++ itemsLines (index + 1) items

/-- `lines`. -/
def lines (payload : TelegramDigestPayload) : List Units :=
  [utf16 "📬 Alert digest (" ++ utf16 (toString payload.items.length) ++ utf16 ")",
    payload.windowLabel] ++ itemsLines 0 (payload.items.take 12) ++
    if 12 < payload.items.length then
      [utf16 "…and " ++ utf16 (toString (payload.items.length - 12)) ++ utf16 " more alert(s)."]
    else []

/-- The text `sendTelegramDigest` passes on: `lines.join('\n')`. -/
def text (payload : TelegramDigestPayload) : Units := (utf16 "\n").intercalate (lines payload)

/-! ## Lengths -/

/-- The number of digits of a number. -/
def digits (n : Nat) : Nat := (utf16 (toString n)).length

/-- What an item adds to the length, with the breaks before its lines. -/
def itemLength (index : Nat) (item : DigestItem) : Nat :=
  digits (index + 1) + 3 + min telegramTitleMaxLength (titleOf item).length +
    ((compactOf item.snippet).elim 0 fun compact =>
      4 + min telegramSnippetMaxLength compact.length) +
    (linkOf item).elim 0 fun link => 7 + link.length

/-- What the items add to the length. -/
def itemsLength : Nat → List DigestItem → Nat
  | _, [] => 0
  | index, item :: items => itemLength index item + itemsLength (index + 1) items

/-- What the last line adds to the length. -/
def restLength (n : Nat) : Nat := if 12 < n then digits (n - 12) + 21 else 0

/-- **The limit in terms of the fields**: the titles and the contents of the first twelve articles
up to their maximum, and their links in full. -/
def Fits (payload : TelegramDigestPayload) : Prop :=
  digits payload.items.length + 19 + payload.windowLabel.length +
    itemsLength 0 (payload.items.take 12) + restLength payload.items.length
      ≤ telegramMessageMaxLength

/-- The length of lines with a break before each of them. -/
def brokenLength : List Units → Nat
  | [] => 0
  | line :: ls => line.length + 1 + brokenLength ls

theorem brokenLength_append (ls ms : List Units) :
    brokenLength (ls ++ ms) = brokenLength ls + brokenLength ms := by
  induction ls with
  | nil => simp [brokenLength]
  | cons line ls ih =>
    rw [List.cons_append, brokenLength, brokenLength, ih]
    omega

theorem length_intercalate_cons (line : Units) (ls : List Units) :
    ((utf16 "\n").intercalate (line :: ls)).length = line.length + brokenLength ls := by
  induction ls generalizing line with
  | nil => simp [brokenLength, List.intercalate]
  | cons next ls ih =>
    have hjoin : (utf16 "\n").intercalate (line :: next :: ls)
        = line ++ (utf16 "\n" ++ (utf16 "\n").intercalate (next :: ls)) := by
      simp [List.intercalate, List.intersperse]
    have hbreak : (utf16 "\n").length = 1 := by decide +kernel
    rw [hjoin, List.length_append, List.length_append, ih, hbreak]
    rw [brokenLength]
    omega

theorem length_truncate (value : Units) (maxLength : Nat) (h : 0 < maxLength) :
    (truncate value maxLength).length = min maxLength value.length := by
  have hdots : (utf16 "…").length = 1 := by decide +kernel
  unfold truncate
  split
  · omega
  · rw [List.length_append, List.length_take, hdots]
    omega

theorem brokenLength_itemLines (index : Nat) (item : DigestItem) :
    brokenLength (itemLines index item) = itemLength index item := by
  have hdot : (utf16 ". ").length = 2 := by decide +kernel
  have hindent : (utf16 "   ").length = 3 := by decide +kernel
  have hlink : (utf16 "   🔗 ").length = 6 := by decide +kernel
  have htitle := length_truncate (titleOf item) telegramTitleMaxLength (by decide)
  have hsnippet : brokenLength ((summarizeTelegramContent item.snippet).toList.map
      (utf16 "   " ++ ·)) = (compactOf item.snippet).elim 0 fun compact =>
        4 + min telegramSnippetMaxLength compact.length := by
    unfold summarizeTelegramContent
    rcases compactOf item.snippet with _ | compact
    · rfl
    · have hcut := length_truncate compact telegramSnippetMaxLength (by decide)
      simp only [brokenLength, Option.map_some, Option.toList_some, List.map_cons, List.map_nil,
        List.length_append, hindent, hcut, Option.elim_some]
      omega
  have hlinks : brokenLength ((linkOf item).toList.map (utf16 "   🔗 " ++ ·))
      = (linkOf item).elim 0 fun link => 7 + link.length := by
    rcases linkOf item with _ | link
    · rfl
    · simp only [brokenLength, Option.toList_some, List.map_cons, List.map_nil,
        List.length_append, hlink, Option.elim_some]
      omega
  rw [itemLines, brokenLength_append, brokenLength_append, hsnippet, hlinks, itemLength]
  simp only [brokenLength, List.length_append, hdot, htitle, digits]
  omega

theorem brokenLength_itemsLines (index : Nat) (items : List DigestItem) :
    brokenLength (itemsLines index items) = itemsLength index items := by
  induction items generalizing index with
  | nil => rfl
  | cons item items ih =>
    rw [itemsLines, brokenLength_append, brokenLength_itemLines, ih, itemsLength]

/-- The length of the text, from those of the fields. -/
theorem length_text (payload : TelegramDigestPayload) :
    (text payload).length = digits payload.items.length + 19 + payload.windowLabel.length +
      itemsLength 0 (payload.items.take 12) + restLength payload.items.length := by
  have hhead : (utf16 "📬 Alert digest (").length = 17 := by decide +kernel
  have hclose : (utf16 ")").length = 1 := by decide +kernel
  have hand : (utf16 "…and ").length = 5 := by decide +kernel
  have hmore : (utf16 " more alert(s).").length = 15 := by decide +kernel
  have hrest : brokenLength (if 12 < payload.items.length then
      [utf16 "…and " ++ utf16 (toString (payload.items.length - 12)) ++ utf16 " more alert(s)."]
      else []) = restLength payload.items.length := by
    unfold restLength
    split
    · simp only [brokenLength, List.length_append, hand, hmore, digits]
      omega
    · rfl
  rw [text, lines, List.cons_append, List.cons_append, List.cons_append, List.cons_append,
    length_intercalate_cons, ← List.singleton_append, brokenLength_append, List.nil_append,
    brokenLength_append, brokenLength_itemsLines, hrest]
  simp only [brokenLength, List.length_append, hhead, hclose, digits]
  omega

/-- **Telegram accepts the text exactly if** the fields of the first twelve articles fit. -/
theorem text_fits_iff (payload : TelegramDigestPayload) :
    (text payload).length ≤ telegramMessageMaxLength ↔ Fits payload := by
  rw [length_text]
  exact Iff.rfl

/-- Twelve articles with long titles and contents, and links of a usual length. -/
def longGroup : TelegramDigestPayload where
  windowLabel := utf16 "Ventana hasta 1/6/2026, 8:00:00 UTC"
  items := List.replicate 12 {
    title := some (List.replicate 120 0x61)
    snippet := some (List.replicate 180 0x61)
    link := some (utf16 "https://news.example.com/2026/06/01/a-story") }

theorem digest_refused : ¬∀ payload : TelegramDigestPayload, payload.items ≠ [] →
    (text payload).length ≤ telegramMessageMaxLength := by
  intro h
  have hlength := h longGroup (List.cons_ne_nil _ _)
  rw [length_text] at hlength
  exact absurd hlength (by decide +kernel)

/-! ## Further articles -/

theorem itemsLength_append (index : Nat) (items more : List DigestItem) :
    itemsLength index (items ++ more)
      = itemsLength index items + itemsLength (index + items.length) more := by
  induction items generalizing index with
  | nil => rw [List.nil_append, itemsLength, Nat.zero_add, List.length_nil, Nat.add_zero]
  | cons item items ih =>
    rw [List.cons_append, itemsLength, itemsLength, ih, List.length_cons, Nat.add_assoc index,
      Nat.add_comm 1, Nat.add_assoc]

theorem restLength_mono {m n : Nat} (h : m ≤ n) : restLength m ≤ restLength n := by
  unfold restLength
  by_cases hm : 12 < m
  · rw [if_pos hm, if_pos (Nat.lt_of_lt_of_le hm h)]
    exact Nat.add_le_add_right (length_utf16_toString_mono (Nat.sub_le_sub_right h 12)) 21
  · rw [if_neg hm]
    exact Nat.zero_le _

/-- **A digest that is too long stays so** with every article that is added to the group. -/
theorem not_fits_append {payload : TelegramDigestPayload} (more : List DigestItem)
    (h : ¬Fits payload) : ¬Fits { payload with items := payload.items ++ more } := by
  have hdigits : digits payload.items.length ≤ digits (payload.items ++ more).length :=
    length_utf16_toString_mono (by rw [List.length_append]; omega)
  have hrest : restLength payload.items.length ≤ restLength (payload.items ++ more).length :=
    restLength_mono (by rw [List.length_append]; omega)
  have hitems : itemsLength 0 (payload.items.take 12)
      ≤ itemsLength 0 ((payload.items ++ more).take 12) := by
    rw [List.take_append, itemsLength_append]
    omega
  unfold Fits at h ⊢
  dsimp only
  omega

end DigestText

end Feedpulse
