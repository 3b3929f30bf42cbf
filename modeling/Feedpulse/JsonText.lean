import Feedpulse.CodeUnits

/-!
# JSON as text

What `JSON.stringify` makes of a value, and what a `jsonb` column takes of a text. The text of a
value is always well formed: control characters and halves of surrogate pairs are written as
escapes. PostgreSQL refuses the escape of U+0000 and of half a pair, so that a value is accepted
exactly if its strings are `clean` (`run_text`).
-/

namespace Feedpulse

namespace JsonText

/-! ## Code units -/

/-- Half of a surrogate pair. -/
def isSurrogate (u : UInt16) : Bool := isHighSurrogate u || isLowSurrogate u

theorem isHighSurrogate_iff {u : UInt16} :
    isHighSurrogate u = true ↔ 0xd800 ≤ u.toNat ∧ u.toNat < 0xdc00 := by
  simp [isHighSurrogate, UInt16.le_iff_toNat_le, UInt16.lt_iff_toNat_lt]

theorem isLowSurrogate_iff {u : UInt16} :
    isLowSurrogate u = true ↔ 0xdc00 ≤ u.toNat ∧ u.toNat < 0xe000 := by
  simp [isLowSurrogate, UInt16.le_iff_toNat_le, UInt16.lt_iff_toNat_lt]

theorem isSurrogate_iff {u : UInt16} :
    isSurrogate u = true ↔ 0xd800 ≤ u.toNat ∧ u.toNat < 0xe000 := by
  rw [isSurrogate, Bool.or_eq_true, isHighSurrogate_iff, isLowSurrogate_iff]
  omega

/-- Nothing but whole characters, none of which is U+0000. -/
def clean : Units → Bool
  | [] => true
  | [u] => u ≠ 0 && !isSurrogate u
  | u :: v :: us =>
    if isHighSurrogate u && isLowSurrogate v then clean us
    else u ≠ 0 && !isSurrogate u && clean (v :: us)

/-- The bytes of a unit that is not half of a pair. -/
def unitBytes (u : UInt16) : Nat := if u < 0x80 then 1 else if u < 0x800 then 2 else 3

/-- `Buffer.byteLength(text, 'utf8')`: half a pair is written as U+FFFD. -/
def utf8Length : Units → Nat
  | [] => 0
  | [u] => unitBytes u
  | u :: v :: us =>
    if isHighSurrogate u && isLowSurrogate v then 4 + utf8Length us
    else unitBytes u + utf8Length (v :: us)

theorem utf8Length_le (text : Units) : utf8Length text ≤ 3 * text.length := by
  have hunit : ∀ u, unitBytes u ≤ 3 := by
    intro u
    unfold unitBytes
    split
    · omega
    · split <;> omega
  induction text using utf8Length.induct with
  | case1 => simp [utf8Length]
  | case2 u => simpa [utf8Length] using hunit u
  | case3 u v us hpair ih =>
    rw [utf8Length, if_pos hpair]
    simp only [List.length_cons]
    omega
  | case4 u v us hpair ih =>
    have hu := hunit u
    rw [utf8Length, if_neg hpair]
    simp only [List.length_cons] at ih ⊢
    omega

/-! ## Clean texts -/

/-- A unit that stands for itself. -/
def isPlain (u : UInt16) : Bool := u ≠ 0 && !isSurrogate u

theorem isPlain_iff {u : UInt16} :
    isPlain u = true ↔ u ≠ 0 ∧ (u.toNat < 0xd800 ∨ 0xe000 ≤ u.toNat) := by
  rw [isPlain, Bool.and_eq_true, decide_eq_true_eq, Bool.not_eq_true', ← Bool.not_eq_true,
    isSurrogate_iff]
  refine and_congr_right fun _ => ?_
  omega

theorem clean_cons_plain {u : UInt16} (h : isPlain u = true) (text : Units) :
    clean (u :: text) = clean text := by
  have hhigh : isHighSurrogate u = false := by
    simp only [isPlain, isSurrogate, Bool.and_eq_true, Bool.not_eq_true', Bool.or_eq_false_iff] at h
    exact h.2.1
  have hu : (u ≠ 0 && !isSurrogate u) = true := h
  cases text with
  | nil => simpa [clean, isPlain] using h
  | cons v us => rw [clean, hhigh, hu]; simp

/-- A clean text is no part of a pair. -/
theorem clean_append {text : Units} (h : clean text = true) (rest : Units) :
    clean (text ++ rest) = clean rest := by
  induction text using clean.induct with
  | case1 => rfl
  | case2 u => exact clean_cons_plain h rest
  | case3 u v us hpair ih =>
    rw [clean, if_pos hpair] at h
    rw [List.cons_append, List.cons_append, clean, if_pos hpair, ih h]
  | case4 u v us hpair ih =>
    rw [clean, if_neg hpair, Bool.and_eq_true] at h
    rw [List.cons_append, clean_cons_plain h.1, ih h.2]

theorem clean_of_plain {text : Units} (h : ∀ u ∈ text, isPlain u = true) : clean text = true := by
  induction text with
  | nil => rfl
  | cons u us ih =>
    rw [clean_cons_plain (h u List.mem_cons_self)]
    exact ih fun v hv => h v (List.mem_cons_of_mem u hv)

/-- **A cut leaves a clean text clean exactly if** it does not end with the first half of a
pair. -/
theorem clean_take {text : Units} (h : clean text = true) (n : Nat) :
    clean (text.take n) = true ↔ ∀ u ∈ (text.take n).getLast?, isHighSurrogate u = false := by
  induction text using clean.induct generalizing n with
  | case1 => simp [clean]
  | case2 u =>
    have hu : isHighSurrogate u = false := by
      simp only [clean, isSurrogate, Bool.and_eq_true, Bool.not_eq_true', Bool.or_eq_false_iff] at h
      exact h.2.1
    cases n with
    | zero => simp [clean]
    | succ n => simp [h, hu]
  | case3 u v us hpair ih =>
    rw [clean, if_pos hpair] at h
    obtain ⟨hhigh, hlow⟩ := Bool.and_eq_true_iff.mp hpair
    match n with
    | 0 => simp [clean]
    | 1 => simp [clean, isSurrogate, hhigh]
    | n + 2 =>
      -- the pair is whole, and what follows it is cut
      have hv : isHighSurrogate v = false := by
        rw [← Bool.not_eq_true, isHighSurrogate_iff]
        have hv := isLowSurrogate_iff.mp hlow
        omega
      rw [List.take_succ_cons, List.take_succ_cons, clean, if_pos hpair, ih h]
      rcases hrest : us.take n with _ | ⟨w, ws⟩
      · simp [hv]
      · simp
  | case4 u v us hpair ih =>
    rw [clean, if_neg hpair, Bool.and_eq_true] at h
    have hu : isHighSurrogate u = false := by
      have hplain := h.1
      simp only [isSurrogate, Bool.and_eq_true, Bool.not_eq_true', Bool.or_eq_false_iff] at hplain
      exact hplain.2.1
    cases n with
    | zero => simp [clean]
    | succ n =>
      rw [List.take_succ_cons, clean_cons_plain h.1, ih h.2]
      rcases hrest : (v :: us).take n with _ | ⟨w, ws⟩
      · simp [hu]
      · simp

/-! ## Values -/

/-- The text of a number, as `Number.prototype.toString` writes it. -/
structure JsonNumber where
  /-- the text -/
  text : Units
  /-- digits, a sign, a point, an exponent -/
  digits : ∀ u ∈ text, (0x30 ≤ u ∧ u ≤ 0x39) ∨ u = 0x2b ∨ u = 0x2d ∨ u = 0x2e ∨ u = 0x65

mutual

/-- A JSON value. -/
inductive JsonValue
  | null
  | bool (value : Bool)
  | number (value : JsonNumber)
  | string (value : Units)
  | array (items : Items)
  | object (fields : Fields)

/-- The items of an array. -/
inductive Items
  | nil
  | cons (item : JsonValue) (items : Items)

/-- The fields of an object, in the order of enumeration. -/
inductive Fields
  | nil
  | cons (name : Units) (value : JsonValue) (fields : Fields)

end

/-! ## Text -/

/-- A hexadecimal digit. -/
def hexUnit (n : Nat) : UInt16 := UInt16.ofNat (if n < 10 then 0x30 + n else 0x57 + n)

/-- `\uXXXX`. -/
def hexEscape (u : UInt16) : Units :=
  [0x5c, 0x75, hexUnit (u.toNat / 0x1000), hexUnit (u.toNat / 0x100 % 0x10),
    hexUnit (u.toNat / 0x10 % 0x10), hexUnit (u.toNat % 0x10)]

/-- A unit in a string literal, unless it is part of a pair. -/
def escapeUnit (u : UInt16) : Units :=
  if u = 0x08 then [0x5c, 0x62]
  else if u = 0x09 then [0x5c, 0x74]
  else if u = 0x0a then [0x5c, 0x6e]
  else if u = 0x0c then [0x5c, 0x66]
  else if u = 0x0d then [0x5c, 0x72]
  else if u = 0x22 then [0x5c, 0x22]
  else if u = 0x5c then [0x5c, 0x5c]
  else if u < 0x20 || isSurrogate u then hexEscape u
  else [u]

/-- What stands between the quotes. -/
def quoteUnits : Units → Units
  | [] => []
  | [u] => escapeUnit u
  | u :: v :: us =>
    if isHighSurrogate u && isLowSurrogate v then u :: v :: quoteUnits us
    else escapeUnit u ++ quoteUnits (v :: us)

/-- A string literal. -/
def quote (s : Units) : Units := 0x22 :: (quoteUnits s ++ [0x22])

/-- The comma before all items but the first. -/
def comma (first : Bool) : Units := if first then [] else [0x2c]

mutual

/-- The text `JSON.stringify` returns for a value. -/
def JsonValue.text : JsonValue → Units
  | .null => utf16 "null"
  | .bool true => utf16 "true"
  | .bool false => utf16 "false"
  | .number value => value.text
  | .string value => quote value
  | .array items => [0x5b] ++ items.text true ++ [0x5d]
  | .object fields => [0x7b] ++ fields.text true ++ [0x7d]

/-- The items with their commas. -/
def Items.text : Items → Bool → Units
  | .nil, _ => []
  | .cons item items, first => comma first ++ item.text ++ items.text false

/-- The fields with their commas. -/
def Fields.text : Fields → Bool → Units
  | .nil, _ => []
  | .cons name value fields, first =>
    comma first ++ quote name ++ [0x3a] ++ value.text ++ fields.text false

end

mutual

/-- All strings of a value are clean, the names of fields included. -/
def JsonValue.clean : JsonValue → Bool
  | .string value => JsonText.clean value
  | .array items => items.clean
  | .object fields => fields.clean
  | _ => true

/-- All strings of the items are clean. -/
def Items.clean : Items → Bool
  | .nil => true
  | .cons item items => item.clean && items.clean

/-- All strings of the fields are clean. -/
def Fields.clean : Fields → Bool
  | .nil => true
  | .cons name value fields => JsonText.clean name && value.clean && fields.clean

end
/-! ## The text is well formed -/

theorem hexUnit_plain : ∀ n < 16, isPlain (hexUnit n) = true := by decide

/-- The digits of a unit. -/
theorem digits_lt (u : UInt16) : u.toNat / 0x1000 < 16 ∧ u.toNat / 0x100 % 0x10 < 16 ∧
    u.toNat / 0x10 % 0x10 < 16 ∧ u.toNat % 0x10 < 16 := by
  have hu := u.toNat_lt
  omega

theorem hexEscape_plain (u : UInt16) : ∀ v ∈ hexEscape u, isPlain v = true := by
  obtain ⟨hthree, htwo, hone, hzero⟩ := digits_lt u
  intro v hv
  simp only [hexEscape, List.mem_cons, List.not_mem_nil, or_false] at hv
  rcases hv with rfl | rfl | rfl | rfl | rfl | rfl
  · rfl
  · rfl
  · exact hexUnit_plain _ hthree
  · exact hexUnit_plain _ htwo
  · exact hexUnit_plain _ hone
  · exact hexUnit_plain _ hzero

/-- How a unit is written: as an escape of two units, as one of six, or as it is. -/
theorem escapeUnit_cases (u : UInt16) :
    (∃ v, escapeUnit u = [0x5c, v] ∧ v ≠ 0x75 ∧ isPlain v = true ∧ u ≠ 0 ∧
      isSurrogate u = false) ∨
    escapeUnit u = hexEscape u ∨
    (escapeUnit u = [u] ∧ u ≠ 0 ∧ u ≠ 0x5c ∧ isSurrogate u = false) := by
  unfold escapeUnit
  iterate 7
    split
    · rename_i heq
      subst heq
      exact .inl ⟨_, rfl, by decide, rfl, by decide, by decide⟩
  split
  · exact .inr (.inl rfl)
  · rename_i hslash hraw
    simp only [Bool.or_eq_true, decide_eq_true_eq, not_or, Bool.not_eq_true] at hraw
    exact .inr (.inr ⟨rfl, fun heq => hraw.1 (heq ▸ by decide), hslash, hraw.2⟩)

theorem escapeUnit_plain (u : UInt16) : ∀ v ∈ escapeUnit u, isPlain v = true := by
  rcases escapeUnit_cases u with ⟨v, hescape, -, hv, -⟩ | hescape | ⟨hescape, hu, -, hsurrogate⟩
  · rw [hescape]
    intro w hw
    simp only [List.mem_cons, List.not_mem_nil, or_false] at hw
    rcases hw with rfl | rfl
    · rfl
    · exact hv
  · rw [hescape]
    exact hexEscape_plain u
  · simpa [hescape, isPlain, hsurrogate] using hu

theorem clean_quoteUnits (s : Units) : clean (quoteUnits s) = true := by
  induction s using quoteUnits.induct with
  | case1 => rfl
  | case2 u => exact clean_of_plain (escapeUnit_plain u)
  | case3 u v us hpair ih => rw [quoteUnits, if_pos hpair, clean, if_pos hpair, ih]
  | case4 u v us hpair ih =>
    rw [quoteUnits, if_neg hpair, clean_append (clean_of_plain (escapeUnit_plain u)), ih]

theorem clean_quote (s : Units) : clean (quote s) = true := by
  rw [quote, clean_cons_plain (by decide), clean_append (clean_quoteUnits s)]
  decide

theorem JsonNumber.clean_text (n : JsonNumber) : clean n.text = true := by
  refine clean_of_plain fun u hu => isPlain_iff.mpr ?_
  rcases n.digits u hu with ⟨hlow, hhigh⟩ | rfl | rfl | rfl | rfl
  · have hlow : 48 ≤ u.toNat := UInt16.le_iff_toNat_le.mp hlow
    have hhigh : u.toNat ≤ 57 := UInt16.le_iff_toNat_le.mp hhigh
    refine ⟨?_, .inl (by omega)⟩
    rintro rfl
    exact absurd hlow (by decide)
  all_goals decide

theorem clean_comma (first : Bool) : clean (comma first) = true := by cases first <;> rfl

mutual

/-- The text of a value is well formed and has no U+0000, whatever its strings are. -/
theorem JsonValue.clean_text : ∀ j : JsonValue, JsonText.clean j.text = true
  | .null => by decide +kernel
  | .bool true => by decide +kernel
  | .bool false => by decide +kernel
  | .number value => value.clean_text
  | .string value => clean_quote value
  | .array items => by
    rw [JsonValue.text, List.append_assoc, List.singleton_append, clean_cons_plain (by decide),
      clean_append (items.clean_text true)]
    rfl
  | .object fields => by
    rw [JsonValue.text, List.append_assoc, List.singleton_append, clean_cons_plain (by decide),
      clean_append (fields.clean_text true)]
    rfl

theorem Items.clean_text : ∀ (items : Items) (first : Bool),
    JsonText.clean (items.text first) = true
  | .nil, _ => rfl
  | .cons item items, first => by
    rw [Items.text, List.append_assoc, clean_append (clean_comma first),
      clean_append item.clean_text, items.clean_text]

theorem Fields.clean_text : ∀ (fields : Fields) (first : Bool),
    JsonText.clean (fields.text first) = true
  | .nil, _ => rfl
  | .cons name value fields, first => by
    rw [Fields.text, List.append_assoc, List.append_assoc, List.append_assoc,
      clean_append (clean_comma first), clean_append (clean_quote name), List.singleton_append,
      clean_cons_plain (by decide), clean_append value.clean_text, fields.clean_text]

end

/-! ## What `jsonb` accepts -/

/-- Where the reader of a text stands. -/
inductive Scan
  /-- outside of escapes -/
  | text
  /-- after a backslash -/
  | escape
  /-- in the digits of an escape: how many are left, and what was read -/
  | digits (left value : Nat)
  /-- after the escape of the first half of a pair -/
  | high
  /-- after a backslash there -/
  | highEscape
  /-- in the digits of the second half -/
  | lowDigits (left value : Nat)
  deriving DecidableEq, Repr

/-- The value of a hexadecimal digit. -/
def unitValue (u : UInt16) : Option Nat :=
  let n := u.toNat
  if 0x30 ≤ n ∧ n ≤ 0x39 then some (n - 0x30)
  else if 0x61 ≤ n ∧ n ≤ 0x66 then some (n - 0x57)
  else if 0x41 ≤ n ∧ n ≤ 0x46 then some (n - 0x37)
  else none

/-- After an escape: PostgreSQL refuses U+0000, and the second half of a pair without the
first. -/
def escaped (value : Nat) : Option Scan :=
  if value = 0 then none
  else if 0xd800 ≤ value ∧ value < 0xdc00 then some .high
  else if 0xdc00 ≤ value ∧ value < 0xe000 then none
  else some .text

/-- Read a unit; there is no next state if the text is refused. -/
def scan : Scan → UInt16 → Option Scan
  | .text, u => if u = 0 then none else if u = 0x5c then some .escape else some .text
  | .escape, u => some (if u = 0x75 then .digits 4 0 else .text)
  | .digits left value, u =>
    (unitValue u).bind fun digit =>
      if left ≤ 1 then escaped (16 * value + digit)
      else some (.digits (left - 1) (16 * value + digit))
  -- only the escape of the second half may follow
  | .high, u => if u = 0x5c then some .highEscape else none
  | .highEscape, u => if u = 0x75 then some (.lowDigits 4 0) else none
  | .lowDigits left value, u =>
    (unitValue u).bind fun digit =>
      if 1 < left then some (.lowDigits (left - 1) (16 * value + digit))
      else if 0xdc00 ≤ 16 * value + digit ∧ 16 * value + digit < 0xe000 then some .text
      else none

/-- Read a text. -/
def read (state : Scan) (text : Units) : Option Scan := text.foldlM scan state

/-- Whether a JSON text is accepted by a `jsonb` column. -/
def jsonbAccepts (text : Units) : Bool := read .text text = some .text

@[simp] theorem read_nil (state : Scan) : read state [] = some state := rfl

@[simp] theorem read_cons (state : Scan) (u : UInt16) (text : Units) :
    read state (u :: text) = (scan state u).bind fun next => read next text := rfl

@[simp] theorem read_append (state : Scan) (text rest : Units) :
    read state (text ++ rest) = (read state text).bind fun next => read next rest := by
  simp [read, List.foldlM_append]

/-- What is no escape is read over. -/
theorem read_raw {text : Units} (h : ∀ u ∈ text, u ≠ 0 ∧ u ≠ 0x5c) :
    read .text text = some .text := by
  induction text with
  | nil => rfl
  | cons u us ih =>
    obtain ⟨hzero, hslash⟩ := h u List.mem_cons_self
    have hrest := ih fun v hv => h v (List.mem_cons_of_mem u hv)
    simp [scan, hzero, hslash, hrest]

theorem unitValue_hexUnit : ∀ n < 16, unitValue (hexUnit n) = some n := by decide

theorem hex_value (u : UInt16) :
    16 * (16 * (16 * (16 * 0 + u.toNat / 0x1000) + u.toNat / 0x100 % 0x10) +
      u.toNat / 0x10 % 0x10) + u.toNat % 0x10 = u.toNat := by
  omega

/-- A digit of an escape. -/
theorem scan_digit {n : Nat} (h : n < 16) (left value : Nat) :
    scan (.digits left value) (hexUnit n) = if left ≤ 1 then escaped (16 * value + n)
      else some (.digits (left - 1) (16 * value + n)) := by
  rw [scan, unitValue_hexUnit n h, Option.bind_some]

theorem scan_lowDigit {n : Nat} (h : n < 16) (left value : Nat) :
    scan (.lowDigits left value) (hexUnit n) =
      if 1 < left then some (.lowDigits (left - 1) (16 * value + n))
      else if 0xdc00 ≤ 16 * value + n ∧ 16 * value + n < 0xe000 then some .text else none := by
  rw [scan, unitValue_hexUnit n h, Option.bind_some]

/-- The escape of a unit gives back the unit. -/
theorem read_hexEscape (u : UInt16) : read .text (hexEscape u) = escaped u.toNat := by
  obtain ⟨hthree, htwo, hone, hzero⟩ := digits_lt u
  have hbegin : read .text (hexEscape u) = read (.digits 4 0) ((hexEscape u).drop 2) := rfl
  rw [hbegin, hexEscape, List.drop_succ_cons, List.drop_succ_cons, List.drop_zero]
  simp only [read_cons, read_nil, scan_digit hthree, scan_digit htwo, scan_digit hone,
    scan_digit hzero, Nat.reduceLeDiff, if_false, if_true, Nat.reduceSub, Option.bind_some,
    hex_value, Option.bind_fun_some]

/-- **The second half of a pair is the only escape** that may follow the first. -/
theorem read_high_hexEscape {u : UInt16} (h : isLowSurrogate u = false) :
    read .high (hexEscape u) = none := by
  obtain ⟨hthree, htwo, hone, hzero⟩ := digits_lt u
  have hlow : ¬(0xdc00 ≤ u.toNat ∧ u.toNat < 0xe000) := by
    rw [← isLowSurrogate_iff, h]
    exact Bool.false_ne_true
  have hbegin : read .high (hexEscape u) = read (.lowDigits 4 0) ((hexEscape u).drop 2) := rfl
  rw [hbegin, hexEscape, List.drop_succ_cons, List.drop_succ_cons, List.drop_zero]
  simp only [read_cons, read_nil, scan_lowDigit hthree, scan_lowDigit htwo, scan_lowDigit hone,
    scan_lowDigit hzero, Nat.reduceLT, if_false, if_true, Nat.reduceSub, Option.bind_some,
    hex_value, Option.bind_fun_some, hlow, lt_self_iff_false]

theorem escaped_toNat (u : UInt16) :
    escaped u.toNat = if u = 0 || isLowSurrogate u then none
      else if isHighSurrogate u then some .high else some .text := by
  have hzero : u.toNat = 0 ↔ u = 0 := by
    rw [← UInt16.toNat_inj]
    rfl
  simp only [escaped, hzero, ← isHighSurrogate_iff, ← isLowSurrogate_iff]
  by_cases hu : u = 0
  · simp [hu]
  · rcases hhigh : isHighSurrogate u with _ | _
    · simp [hu]
    · have hlow : isLowSurrogate u = false := by
        rw [← Bool.not_eq_true, isLowSurrogate_iff]
        have hrange := isHighSurrogate_iff.mp hhigh
        omega
      simp [hu, hlow]

/-- A unit of a string literal, alone. -/
theorem read_escapeUnit (u : UInt16) :
    read .text (escapeUnit u) = if u = 0 || isLowSurrogate u then none
      else if isHighSurrogate u then some .high else some .text := by
  rcases escapeUnit_cases u with ⟨v, hescape, hv, -, hu, hsurrogate⟩ | hescape |
    ⟨hescape, hu, hslash, hsurrogate⟩
  · obtain ⟨hhigh, hlow⟩ := Bool.or_eq_false_iff.mp hsurrogate
    simp [hescape, scan, hv, hu, hhigh, hlow]
  · rw [hescape, read_hexEscape, escaped_toNat]
  · obtain ⟨hhigh, hlow⟩ := Bool.or_eq_false_iff.mp hsurrogate
    simp [hescape, scan, hslash, hu, hhigh, hlow]

/-- After the first half of a pair no unit is read but the second. -/
theorem read_high_escapeUnit {u : UInt16} (h : isLowSurrogate u = false) (rest : Units) :
    read .high (escapeUnit u ++ rest) = none := by
  rw [read_append]
  rcases escapeUnit_cases u with ⟨v, hescape, hv, -⟩ | hescape | ⟨hescape, -, hslash, -⟩
  · simp [hescape, scan, hv]
  · rw [hescape, read_high_hexEscape h, Option.bind_none]
  · simp [hescape, scan, hslash]

/-- Half of a pair begins no escape. -/
theorem ne_of_surrogate {u : UInt16} (h : isSurrogate u = true) : u ≠ 0 ∧ u ≠ 0x5c := by
  constructor <;> rintro rfl <;> exact absurd h (by decide)

theorem read_high_quoteUnits {v : UInt16} (h : isLowSurrogate v = false) (us rest : Units) :
    read .high (quoteUnits (v :: us) ++ rest) = none := by
  cases us with
  | nil => exact read_high_escapeUnit h rest
  | cons w us =>
    rw [quoteUnits]
    split
    · rename_i hpair
      obtain ⟨hhigh, -⟩ := Bool.and_eq_true_iff.mp hpair
      have hslash := (ne_of_surrogate (Bool.or_eq_true_iff.mpr (.inl hhigh))).2
      simp [scan, hslash]
    · rw [List.append_assoc]
      exact read_high_escapeUnit h _

/-- **A string literal is accepted exactly if** its string is clean. -/
theorem read_quoteUnits (s : Units) :
    read .text (quoteUnits s ++ [0x22]) = if clean s then some .text else none := by
  induction s using quoteUnits.induct with
  | case1 => decide
  | case2 u =>
    rw [quoteUnits, read_append, read_escapeUnit]
    rcases hhigh : isHighSurrogate u <;> rcases hlow : isLowSurrogate u <;>
      by_cases hu : u = 0 <;> simp [hhigh, hlow, hu, clean, isSurrogate, scan]
  | case3 u v us hpair ih =>
    obtain ⟨hhigh, hlow⟩ := Bool.and_eq_true_iff.mp hpair
    have hraw : ∀ w ∈ [u, v], w ≠ 0 ∧ w ≠ 0x5c := by
      intro w hw
      simp only [List.mem_cons, List.not_mem_nil, or_false] at hw
      rcases hw with rfl | rfl
      · exact ne_of_surrogate (Bool.or_eq_true_iff.mpr (.inl hhigh))
      · exact ne_of_surrogate (Bool.or_eq_true_iff.mpr (.inr hlow))
    have hsplit : u :: v :: quoteUnits us ++ [0x22] = [u, v] ++ (quoteUnits us ++ [0x22]) := rfl
    rw [quoteUnits, if_pos hpair, clean, if_pos hpair, ← ih, hsplit, read_append, read_raw hraw,
      Option.bind_some]
  | case4 u v us hpair ih =>
    rw [quoteUnits, if_neg hpair, clean, if_neg hpair, List.append_assoc, read_append,
      read_escapeUnit]
    by_cases hbad : (u = 0 || isLowSurrogate u) = true
    · have hdirty : (u ≠ 0 && !isSurrogate u) = false := by
        rcases Bool.or_eq_true_iff.mp hbad with hu | hlow
        · simp [decide_eq_true_eq.mp hu]
        · simp [isSurrogate, hlow]
      rw [if_pos hbad, hdirty]
      rfl
    rw [if_neg hbad]
    rcases hhigh : isHighSurrogate u with _ | _
    · have hplain : (u ≠ 0 && !isSurrogate u) = true := by
        simp only [Bool.or_eq_true, decide_eq_true_eq, not_or, Bool.not_eq_true] at hbad
        simp [isSurrogate, hhigh, hbad]
      rw [hplain, Bool.true_and, ← ih]
      rfl
    · -- the first half of a pair, without the second
      have hlow : isLowSurrogate v = false := by simpa [hhigh] using hpair
      have hdirty : (u ≠ 0 && !isSurrogate u) = false := by simp [isSurrogate, hhigh]
      rw [hdirty]
      exact read_high_quoteUnits hlow us _

/-- **A string literal.** -/
theorem read_quote (s : Units) :
    read .text (quote s) = if clean s then some .text else none := by
  rw [quote, read_cons, ← read_quoteUnits s]
  rfl

theorem JsonNumber.read_text (n : JsonNumber) : read .text n.text = some .text := by
  refine read_raw fun u hu => ?_
  rcases n.digits u hu with ⟨hlow, hhigh⟩ | rfl | rfl | rfl | rfl
  · constructor
    · rintro rfl
      exact absurd hlow (by decide)
    · rintro rfl
      exact absurd hhigh (by decide)
  all_goals decide

theorem read_comma (first : Bool) : read .text (comma first) = some .text := by
  cases first <;> rfl

/-- A text is read if both its parts are. -/
theorem read_parts {a b : Units} {p q : Bool} (ha : read .text a = if p then some .text else none)
    (hb : read .text b = if q then some .text else none) :
    read .text (a ++ b) = if p && q then some .text else none := by
  rw [read_append, ha]
  cases p
  · rfl
  · exact hb

mutual

/-- **The text of a value is accepted exactly if** its strings are clean. -/
theorem JsonValue.read_text :
    ∀ j : JsonValue, read .text j.text = if j.clean then some .text else none
  | .null => by decide +kernel
  | .bool true => by decide +kernel
  | .bool false => by decide +kernel
  | .number value => value.read_text
  | .string value => read_quote value
  | .array items => by
    have hitems := items.read_text true
    have hclose : read .text [0x5d] = if true then some .text else none := rfl
    rw [JsonValue.text, JsonValue.clean, List.append_assoc, List.singleton_append, read_cons,
      ← Bool.and_true items.clean]
    exact read_parts hitems hclose
  | .object fields => by
    have hfields := fields.read_text true
    have hclose : read .text [0x7d] = if true then some .text else none := rfl
    rw [JsonValue.text, JsonValue.clean, List.append_assoc, List.singleton_append, read_cons,
      ← Bool.and_true fields.clean]
    exact read_parts hfields hclose

theorem Items.read_text : ∀ (items : Items) (first : Bool),
    read .text (items.text first) = if items.clean then some .text else none
  | .nil, _ => rfl
  | .cons item items, first => by
    rw [Items.text, List.append_assoc, read_append, read_comma, Option.bind_some, Items.clean]
    exact read_parts item.read_text (items.read_text false)

theorem Fields.read_text : ∀ (fields : Fields) (first : Bool),
    read .text (fields.text first) = if fields.clean then some .text else none
  | .nil, _ => rfl
  | .cons name value fields, first => by
    have hcolon : read .text [0x3a] = if true then some .text else none := rfl
    have hname := read_parts (read_quote name) hcolon
    have hrest := read_parts hname (read_parts value.read_text (fields.read_text false))
    rw [Fields.text, Fields.clean, List.append_assoc, List.append_assoc, List.append_assoc,
      read_append, read_comma, Option.bind_some]
    simpa [Bool.and_assoc] using hrest

end

/-- **A `jsonb` column accepts a value exactly if** its strings are clean. -/
theorem jsonbAccepts_text (j : JsonValue) : jsonbAccepts j.text = j.clean := by
  rw [jsonbAccepts, j.read_text]
  cases j.clean <;> rfl
/-! ## Lengths -/

theorem length_escapeUnit (u : UInt16) : (escapeUnit u).length ≤ 6 := by
  rcases escapeUnit_cases u with ⟨v, hescape, -⟩ | hescape | ⟨hescape, -⟩ <;>
    simp [hescape, hexEscape]

/-- A unit takes at most six. -/
theorem length_quoteUnits (s : Units) : (quoteUnits s).length ≤ 6 * s.length := by
  induction s using quoteUnits.induct with
  | case1 => simp [quoteUnits]
  | case2 u => simpa [quoteUnits] using length_escapeUnit u
  | case3 u v us hpair ih =>
    rw [quoteUnits, if_pos hpair]
    simp only [List.length_cons]
    omega
  | case4 u v us hpair ih =>
    have hu := length_escapeUnit u
    rw [quoteUnits, if_neg hpair]
    simp only [List.length_append, List.length_cons] at ih ⊢
    omega

end JsonText

end Feedpulse
