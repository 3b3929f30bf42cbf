import Mathlib.Data.List.Basic
import Mathlib.Data.List.Infix

/-!
# Hosts of parsed URLs

What the URL standard leaves as the host of a parsed URL: an IPv4 address in dotted decimal
notation, an IPv6 address in brackets, its groups in lower case with the longest run of zeros
compressed, or a domain in ASCII.
-/

namespace Feedpulse

namespace IpHost

/-! ## IPv4 -/

/-- An IPv4 address by its octets. -/
structure Ipv4 where
  /-- first octet -/
  a : Fin 256
  /-- second octet -/
  b : Fin 256
  /-- third octet -/
  c : Fin 256
  /-- fourth octet -/
  d : Fin 256
  deriving DecidableEq, Repr

/-- The IPv4 serializer: dotted decimal. -/
def Ipv4.serialize (address : Ipv4) : List Char :=
  ['.'].intercalate [Nat.toDigits 10 address.a, Nat.toDigits 10 address.b,
    Nat.toDigits 10 address.c, Nat.toDigits 10 address.d]

/-! ## IPv6 -/

/-- An IPv6 address by its eight groups. -/
structure Ipv6 where
  /-- the groups -/
  pieces : List (Fin 65536)
  /-- there are eight -/
  length_pieces : pieces.length = 8
  deriving DecidableEq, Repr

/-- The first one of the longest runs of at least two zeros, with its length; `index` is the
index of the first piece. -/
def longestRun : Nat → List (Fin 65536) → Option (Nat × Nat)
  | _, [] => none
  | index, piece :: pieces =>
    let length := ((piece :: pieces).takeWhile fun p => p = 0).length
    match longestRun (index + 1) pieces with
    | none => if 2 ≤ length then some (index, length) else none
    | some (start, longest) =>
      if 2 ≤ length ∧ longest ≤ length then some (index, length) else some (start, longest)

/-- The loop of the IPv6 serializer, from the piece with this index on. -/
def serializeFrom (compress : Option Nat) : Nat → Bool → List (Fin 65536) → List Char
  | _, _, [] => []
  | index, ignoreZeros, piece :: pieces =>
    if ignoreZeros ∧ piece = 0 then serializeFrom compress (index + 1) true pieces
    else if compress = some index then
      (if index = 0 then [':', ':'] else [':']) ++ serializeFrom compress (index + 1) true pieces
    else
      Nat.toDigits 16 piece ++ (if index = 7 then [] else [':']) ++
        serializeFrom compress (index + 1) false pieces

/-- The IPv6 serializer. -/
def Ipv6.serialize (address : Ipv6) : List Char :=
  serializeFrom ((longestRun 0 address.pieces).map Prod.fst) 0 false address.pieces

/-- `::`. -/
def Ipv6.unspecified : Ipv6 := { pieces := [0, 0, 0, 0, 0, 0, 0, 0], length_pieces := rfl }

/-- `::1`. -/
def Ipv6.loopback : Ipv6 := { pieces := [0, 0, 0, 0, 0, 0, 0, 1], length_pieces := rfl }

/-- Two octets in one group. -/
def pair (high low : Fin 256) : Fin 65536 := ⟨high * 256 + low, by omega⟩

/-- `::ffff:a.b.c.d`. -/
def Ipv6.mapped (address : Ipv4) : Ipv6 where
  pieces := [0, 0, 0, 0, 0, 0xffff, pair address.a address.b, pair address.c address.d]
  length_pieces := rfl

/-- The address `first::last`. -/
def Ipv6.around (first last : Nat) : Ipv6 where
  pieces := [Fin.ofNat 65536 first, 0, 0, 0, 0, 0, 0, Fin.ofNat 65536 last]
  length_pieces := rfl

/-- The first group. -/
def Ipv6.first (address : Ipv6) : Nat := (address.pieces.head?.map Fin.val).getD 0

/-! ## Domains and hosts -/

/-- A character that a parsed domain may have: ASCII, in lower case, and not one of the
forbidden domain code points. -/
def isDomainChar (c : Char) : Bool :=
  0x20 < c.toNat && c.toNat < 0x7f && !c.isUpper &&
    !(['#', '/', ':', '<', '>', '?', '@', '[', '\\', ']', '^', '|', '%'].contains c)

/-- A domain as the host parser leaves it. -/
structure Domain where
  /-- its text -/
  text : List Char
  /-- all characters are allowed -/
  allowed : ∀ c ∈ text, isDomainChar c = true

/-- The host of a parsed URL. -/
inductive Host where
  /-- an IPv4 address -/
  | ipv4 (address : Ipv4)
  /-- an IPv6 address -/
  | ipv6 (address : Ipv6)
  /-- a domain -/
  | domain (name : Domain)

/-- The host serializer: what `URL.hostname` returns. -/
def Host.serialize : Host → List Char
  | .ipv4 address => address.serialize
  | .ipv6 address => '[' :: (address.serialize ++ [']'])
  | .domain name => name.text

example : Ipv6.serialize { pieces := [0xfe80, 0, 0, 1, 0, 0, 0, 0xab], length_pieces := rfl }
    = "fe80:0:0:1::ab".toList := by decide

/-! ## Digits -/

/-- A digit of a group. -/
def isHexDigit (c : Char) : Bool := ('0' ≤ c && c ≤ '9') || ('a' ≤ c && c ≤ 'f')

theorem isHexDigit_digitChar {n : Nat} (h : n < 16) : isHexDigit n.digitChar = true := by
  have hall : ∀ n : Fin 16, isHexDigit (Nat.digitChar n) = true := by decide
  exact hall ⟨n, h⟩

/-- The digits of a number to the base 16 are hexadecimal. -/
theorem isHexDigit_of_mem {n : Nat} {c : Char} (h : c ∈ Nat.toDigits 16 n) :
    isHexDigit c = true := by
  induction n using Nat.strong_induction_on with
  | _ n ih =>
    rcases Nat.lt_or_ge n 16 with hlt | hge
    · rw [Nat.toDigits_of_lt_base hlt, List.mem_singleton] at h
      rw [h]
      exact isHexDigit_digitChar hlt
    · rw [Nat.toDigits_of_base_le (by omega) hge] at h
      rcases List.mem_append.mp h with h | h
      · exact ih (n / 16) (by omega) h
      · rw [List.mem_singleton] at h
        rw [h]
        exact isHexDigit_digitChar (Nat.mod_lt _ (by omega))

/-- Four digits, where the first one is not zero. -/
theorem toDigits_four {n : Nat} (hlow : 4096 ≤ n) (hhigh : n < 65536) :
    Nat.toDigits 16 n
      = [(n / 4096).digitChar, (n / 256 % 16).digitChar, (n / 16 % 16).digitChar,
        (n % 16).digitChar] := by
  rw [Nat.toDigits_of_base_le (by omega) (by omega),
    Nat.toDigits_of_base_le (n := n / 16) (by omega) (by omega),
    Nat.toDigits_of_base_le (n := n / 16 / 16) (by omega) (by omega),
    Nat.toDigits_of_lt_base (n := n / 16 / 16 / 16) (by omega),
    Nat.div_div_eq_div_mul n 16 16, Nat.div_div_eq_div_mul n]
  rfl

/-! ## Serialized groups -/

theorem le_of_longestRun {index start length : Nat} {pieces : List (Fin 65536)}
    (h : longestRun index pieces = some (start, length)) : index ≤ start := by
  induction pieces generalizing index start length with
  | nil => cases h
  | cons piece pieces ih =>
    simp only [longestRun] at h
    rcases hrest : longestRun (index + 1) pieces with _ | ⟨later, longest⟩
    · rw [hrest] at h
      dsimp only at h
      split at h
      · cases h
        exact Nat.le_refl _
      · cases h
    · rw [hrest] at h
      dsimp only at h
      have hlater := ih hrest
      split at h
      · cases h
        exact Nat.le_refl _
      · cases h
        omega

/-- An address whose first group is not zero begins with that group. -/
theorem serialize_of_first {address : Ipv6} (h : address.first ≠ 0) :
    ∃ rest, address.serialize = Nat.toDigits 16 address.first ++ ':' :: rest := by
  obtain ⟨pieces, hlength⟩ := address
  rcases pieces with _ | ⟨piece, pieces⟩
  · cases hlength
  · have hpiece : piece ≠ 0 := by
      rintro rfl
      exact h rfl
    have hcompress : (longestRun 0 (piece :: pieces)).map Prod.fst ≠ some 0 := by
      intro hzero
      obtain ⟨⟨start, length⟩, hrun, rfl⟩ := Option.map_eq_some_iff.mp hzero
      have hnone : ((piece :: pieces).takeWhile fun p => p = 0).length = 0 := by
        rw [List.takeWhile_cons_of_neg (by simpa using hpiece)]
        rfl
      simp only [longestRun, hnone] at hrun
      rcases hrest : longestRun 1 pieces with _ | ⟨later, longest⟩
      · simp [hrest] at hrun
      · have hle := le_of_longestRun hrest
        simp [hrest] at hrun
        omega
    have hfirst : Ipv6.first { pieces := piece :: pieces, length_pieces := hlength } = piece := rfl
    rw [hfirst]
    simp only [Ipv6.serialize]
    rw [serializeFrom, if_neg (fun h => absurd h.1 (by decide)), if_neg hcompress,
      if_neg (by decide), List.append_assoc]
    exact ⟨_, rfl⟩

/-- Groups are written with hexadecimal digits and colons. -/
theorem mem_serializeFrom {compress : Option Nat} {index : Nat} {ignoreZeros : Bool}
    {pieces : List (Fin 65536)} {c : Char}
    (h : c ∈ serializeFrom compress index ignoreZeros pieces) : isHexDigit c = true ∨ c = ':' := by
  induction pieces generalizing index ignoreZeros with
  | nil => cases h
  | cons piece pieces ih =>
    simp only [serializeFrom] at h
    split at h
    · exact ih h
    · split at h
      · rcases List.mem_append.mp h with h | h
        · split at h
          · simp at h
            exact .inr h
          · simp at h
            exact .inr h
        · exact ih h
      · rcases List.mem_append.mp h with h | h
        · rcases List.mem_append.mp h with h | h
          · exact .inl (isHexDigit_of_mem h)
          · split at h
            · cases h
            · simp at h
              exact .inr h
        · exact ih h

theorem mem_serialize {address : Ipv6} {c : Char} (h : c ∈ address.serialize) :
    isHexDigit c = true ∨ c = ':' :=
  mem_serializeFrom h

/-- A mapped address is written with the last two groups in full. -/
theorem serialize_mapped (address : Ipv4) :
    (Ipv6.mapped address).serialize
      = "::ffff:".toList ++ Nat.toDigits 16 (pair address.a address.b) ++
        ':' :: Nat.toDigits 16 (pair address.c address.d) := by
  generalize hhigh : pair address.a address.b = high
  generalize hlow : pair address.c address.d = low
  have hrun : (longestRun 0 [0, 0, 0, 0, 0, 0xffff, high, low]).map Prod.fst = some 0 := by
    by_cases hh : high = 0 <;> by_cases hl : low = 0 <;>
      simp [longestRun, hh, hl, List.takeWhile]
  have hffff : Nat.toDigits 16 (0xffff : Fin 65536) = "ffff".toList := by decide
  have hpre : "::ffff:".toList = ':' :: ':' :: ("ffff".toList ++ [':']) := by decide
  simp only [Ipv6.serialize, Ipv6.mapped, hhigh, hlow, hrun, serializeFrom]
  rw [hffff, hpre]
  simp

end IpHost

end Feedpulse
