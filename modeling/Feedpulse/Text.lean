import Mathlib.Data.List.Basic

/-!
# Strings as the runtime sees them

The handful of string operations the program uses, on lists of characters so that
they compute, and the truth value of an optional string: `undefined`, `null` and
the empty string are falsy, which is what `a || b` and `Boolean(a)` test.
-/

namespace Feedpulse

namespace Text

/-! ## Truthiness -/

/-- `Boolean(value)` for an optional string. -/
def truthy : Option String → Bool
  | none => false
  | some s => s ≠ ""

/-- `a || b` for optional strings. -/
def orElse (a b : Option String) : Option String :=
  if truthy a then a else b

@[simp] theorem truthy_none : truthy none = false := rfl

@[simp] theorem truthy_some (s : String) : truthy (some s) = decide (s ≠ "") := rfl

@[simp] theorem orElse_none (b : Option String) : orElse none b = b := rfl

@[simp] theorem orElse_self (a : Option String) : orElse a a = a := by
  unfold orElse
  split <;> rfl

theorem truthy_orElse (a b : Option String) : truthy (orElse a b) = (truthy a || truthy b) := by
  unfold orElse
  split
  · rename_i h
    rw [h, Bool.true_or]
  · rename_i h
    rw [Bool.not_eq_true] at h
    rw [h, Bool.false_or]

/-! ## Searching and trimming -/

/-- `text.startsWith(prefix)` on characters. -/
def startsWith : List Char → List Char → Bool
  | _, [] => true
  | [], _ :: _ => false
  | c :: cs, p :: ps => c = p && startsWith cs ps

theorem startsWith_iff {cs ps : List Char} : startsWith cs ps = true ↔ ps <+: cs := by
  induction cs generalizing ps with
  | nil =>
    cases ps with
    | nil => simp [startsWith]
    | cons p ps => simp [startsWith]
  | cons c cs ih =>
    cases ps with
    | nil => simp [startsWith]
    | cons p ps =>
      rw [startsWith, Bool.and_eq_true, decide_eq_true_eq, ih, List.cons_prefix_cons, eq_comm]

/-- `text.includes(part)` on characters. -/
def includesChars (part : List Char) : List Char → Bool
  | [] => part.isEmpty
  | c :: cs => startsWith (c :: cs) part || includesChars part cs

/-- `text.includes(part)`. -/
def includes (text part : String) : Bool :=
  includesChars part.toList text.toList

theorem includesChars_iff {cs part : List Char} : includesChars part cs = true ↔ part <:+: cs := by
  induction cs with
  | nil => simp [includesChars]
  | cons c cs ih => rw [includesChars, Bool.or_eq_true, startsWith_iff, ih, List.infix_cons_iff]

/-- A text includes what occurs in it as a block. -/
theorem includes_iff {text part : String} :
    includes text part = true ↔ part.toList <:+: text.toList := includesChars_iff

/-- Lower case in ASCII: a character stays as it is, or becomes a small letter. -/
theorem toLower_cases (c : Char) :
    c.toLower = c ∨ (97 ≤ c.toLower.toNat ∧ c.toLower.toNat ≤ 122) := by
  unfold Char.toLower
  split
  · rename_i hupper
    have hlow : 65 ≤ c.val.toNat := hupper.1
    have hhigh : c.val.toNat ≤ 90 := hupper.2
    have hval : (c.val + ('a'.val - 'A'.val)).toNat = c.val.toNat + 32 := by
      rw [UInt32.toNat_add]
      have hshift : ('a'.val - 'A'.val).toNat = 32 := rfl
      omega
    right
    change 97 ≤ (c.val + ('a'.val - 'A'.val)).toNat ∧ (c.val + ('a'.val - 'A'.val)).toNat ≤ 122
    omega
  · exact .inl rfl


theorem toLower_toLower (c : Char) : c.toLower.toLower = c.toLower := by
  rcases toLower_cases c with h | ⟨hlow, -⟩
  · rw [h, h]
  · generalize c.toLower = d at hlow
    unfold Char.toLower
    split
    · rename_i hupper
      have hhigh : d.toNat ≤ 90 := hupper.2
      omega
    · rfl

/-- The characters `\s` stands for, which are also those `trim` removes. -/
def isWhitespace (c : Char) : Bool :=
  let n := c.toNat
  (9 ≤ n && n ≤ 13) || n = 0x20 || n = 0xa0 || n = 0x1680 || (0x2000 ≤ n && n ≤ 0x200a) ||
    n = 0x2028 || n = 0x2029 || n = 0x202f || n = 0x205f || n = 0x3000 || n = 0xfeff

/-- `text.trim()` on characters. -/
def trimChars (cs : List Char) : List Char :=
  ((cs.dropWhile isWhitespace).reverse.dropWhile isWhitespace).reverse

/-- Trimming brings no characters. -/
theorem mem_of_mem_trimChars {c : Char} {cs : List Char} (h : c ∈ trimChars cs) : c ∈ cs := by
  unfold trimChars at h
  have h := (List.dropWhile_sublist _).subset (List.mem_reverse.mp h)
  exact (List.dropWhile_sublist _).subset (List.mem_reverse.mp h)

/-- What is trimmed does not begin with a blank. -/
theorem dropWhile_of_trimmed {cs : List Char} (h : trimChars cs = cs) :
    cs.dropWhile isWhitespace = cs := by
  have hlength : cs.length ≤ (cs.dropWhile isWhitespace).length := by
    calc cs.length = (trimChars cs).length := by rw [h]
      _ ≤ (cs.dropWhile isWhitespace).reverse.length := by
        rw [trimChars, List.length_reverse]
        exact (List.dropWhile_sublist _).length_le
      _ = (cs.dropWhile isWhitespace).length := List.length_reverse
  exact (List.dropWhile_sublist _).eq_of_length_le hlength

theorem dropWhile_eq_self {cs : List Char} :
    cs.dropWhile isWhitespace = cs ↔ ∀ c ∈ cs.head?, isWhitespace c = false := by
  cases cs with
  | nil => exact iff_of_true rfl nofun
  | cons c cs =>
    constructor
    · rintro h d hd
      obtain rfl := Option.some.inj hd
      by_contra hblank
      rw [List.dropWhile_cons_of_pos (by simpa using hblank)] at h
      have hlength := congrArg List.length h
      have hle := (List.dropWhile_sublist (l := cs) isWhitespace).length_le
      rw [List.length_cons] at hlength
      omega
    · intro h
      exact List.dropWhile_cons_of_neg (by simp [h c rfl])

/-- What is trimmed is what neither begins nor ends with a blank. -/
theorem trimChars_eq_self {cs : List Char} :
    trimChars cs = cs ↔ (∀ c ∈ cs.head?, isWhitespace c = false) ∧
      ∀ c ∈ cs.getLast?, isWhitespace c = false := by
  have hlast : cs.reverse.dropWhile isWhitespace = cs.reverse ↔
      ∀ c ∈ cs.getLast?, isWhitespace c = false := by
    rw [dropWhile_eq_self, List.head?_reverse]
  rw [← dropWhile_eq_self, ← hlast]
  constructor
  · intro h
    have hdrop := dropWhile_of_trimmed h
    refine ⟨hdrop, ?_⟩
    rw [trimChars, hdrop] at h
    exact List.reverse_eq_iff.mp h
  · rintro ⟨hdrop, hlast⟩
    rw [trimChars, hdrop, hlast, List.reverse_reverse]

/-- `text.trim()`. -/
def trim (text : String) : String :=
  String.ofList (trimChars text.toList)

/-- `text.replace(/\s+/g, ' ')` on characters: every run of whitespace becomes one
blank. The flag records that the run being read has produced its blank. -/
def collapseWhitespace : Bool → List Char → List Char
  | _, [] => []
  | inRun, c :: cs =>
    if isWhitespace c then
      if inRun then collapseWhitespace true cs else ' ' :: collapseWhitespace true cs
    else c :: collapseWhitespace false cs

/-- The SQL pattern match `text LIKE 'prefix%'`. -/
def hasPrefix (text part : String) : Bool :=
  startsWith text.toList part.toList

/-- `parts.join(separator)`. -/
def join (separator : String) (parts : List String) : String :=
  separator.intercalate parts

end Text

end Feedpulse
