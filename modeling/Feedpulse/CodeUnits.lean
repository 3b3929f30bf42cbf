import Feedpulse.CanonicalLink

/-!
# Strings of JavaScript

A string of the runtime is a sequence of UTF-16 code units, which `length` and `slice` count and
cut without regard to surrogate pairs.
-/

namespace Feedpulse

/-- A string of JavaScript. -/
abbrev Units := List UInt16

/-- The code units of a text. -/
def utf16 (text : String) : Units :=
  (text.toList.flatMap CanonicalLink.utf16Units).map UInt16.ofNat

/-- The first half of a surrogate pair. -/
def isHighSurrogate (u : UInt16) : Bool := 0xd800 ≤ u && u < 0xdc00

/-- The second half of a surrogate pair. -/
def isLowSurrogate (u : UInt16) : Bool := 0xdc00 ≤ u && u < 0xe000

/-- A string as it is encoded in UTF-8: halves of pairs become U+FFFD. -/
def toWellFormed : Units → Units
  | [] => []
  | [u] => [if isHighSurrogate u || isLowSurrogate u then 0xfffd else u]
  | u :: v :: us =>
    if isHighSurrogate u && isLowSurrogate v then u :: v :: toWellFormed us
    else (if isHighSurrogate u || isLowSurrogate u then 0xfffd else u) :: toWellFormed (v :: us)

/-- Characters of the basic plane take one unit each. -/
theorem length_utf16 {text : String} (h : ∀ c ∈ text.toList, c.toNat < 0x10000) :
    (utf16 text).length = text.length := by
  rw [utf16, List.length_map, ← String.length_toList]
  generalize text.toList = cs at h
  induction cs with
  | nil => rfl
  | cons c cs ih =>
    rw [List.flatMap_cons, List.length_append, ih fun d hd => h d (List.mem_cons_of_mem c hd),
      CanonicalLink.utf16Units, if_pos (h c List.mem_cons_self), List.length_cons, List.length_nil,
      List.length_cons]
    omega

theorem digit_of_mem_toString {n : Nat} {c : Char} (h : c ∈ (toString n).toList) :
    48 ≤ c.toNat ∧ c.toNat ≤ 57 := by
  have hdigit : c.isDigit = true := by
    rw [show toString n = String.ofList (Nat.toDigits 10 n) from Nat.repr_eq_ofList_toDigits,
      String.toList_ofList] at h
    exact Nat.isDigit_of_mem_toDigits (by decide) (by decide) h
  simp only [Char.isDigit, Bool.and_eq_true, decide_eq_true_eq] at hdigit
  exact ⟨UInt32.le_iff_toNat_le.mp hdigit.1, UInt32.le_iff_toNat_le.mp hdigit.2⟩

/-- A number takes one unit for each digit. -/
theorem length_utf16_toString (n : Nat) : (utf16 (toString n)).length = n.repr.length := by
  refine length_utf16 fun c hc => ?_
  have hdigit := digit_of_mem_toString hc
  omega

/-- A larger number has no fewer digits. -/
theorem length_utf16_toString_mono {m n : Nat} (h : m ≤ n) :
    (utf16 (toString m)).length ≤ (utf16 (toString n)).length := by
  rw [length_utf16_toString, length_utf16_toString,
    Nat.length_repr_le_iff Nat.length_repr_pos]
  exact Nat.lt_of_le_of_lt h ((Nat.length_repr_le_iff Nat.length_repr_pos).mp (Nat.le_refl _))

end Feedpulse
