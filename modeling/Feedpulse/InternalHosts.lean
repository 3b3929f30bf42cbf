import Feedpulse.CanonicalKey
import Feedpulse.IpHost
import Feedpulse.UrlSafety

/-!
# Hosts that only lead inside

Which literals and names the check of outbound URLs has to refuse, and which of them it does. It
refuses them all but one part of the link-local range: the pattern for `fe80::/10` only looks for
the first of its 64 groups.
-/

namespace Feedpulse

open IpHost

/-! ## The hosts to be refused -/

/-- 0.0.0.0/8, 127.0.0.0/8, 10.0.0.0/8, 172.16.0.0/12, 192.168.0.0/16, 169.254.0.0/16. -/
def IpHost.Ipv4.IsInternal (address : Ipv4) : Prop :=
  address.a = 0 ∨ address.a = 127 ∨ address.a = 10 ∨
    (address.a = 172 ∧ 16 ≤ address.b.val ∧ address.b.val ≤ 31) ∨
    (address.a = 192 ∧ address.b = 168) ∨ (address.a = 169 ∧ address.b = 254)

/-- ::, ::1, fe80::/10, fc00::/7, and the mapped forms of internal IPv4 addresses. -/
def IpHost.Ipv6.IsInternal (address : Ipv6) : Prop :=
  address = .unspecified ∨ address = .loopback ∨
    (0xfe80 ≤ address.first ∧ address.first ≤ 0xfebf) ∨
    (0xfc00 ≤ address.first ∧ address.first ≤ 0xfdff) ∨
    ∃ inner : Ipv4, inner.IsInternal ∧ address = .mapped inner

/-- `localhost` and the names under a reserved suffix, with or without a trailing dot. -/
def IpHost.Domain.IsInternal (name : Domain) : Prop :=
  ∃ text, (name.text = text ∨ name.text = text ++ ['.']) ∧
    (text = "localhost".toList ∨ ∃ suffix ∈ UrlSafety.blockedHostSuffixes, suffix <:+ text)

/-- A host that only leads inside. -/
def IpHost.Host.IsInternal : Host → Prop
  | .ipv4 address => address.IsInternal
  | .ipv6 address => address.IsInternal
  | .domain name => name.IsInternal

/-- A link-local address whose first group is not `fe80`. -/
def IpHost.Host.IsHighLinkLocal : Host → Prop
  | .ipv6 address => 0xfe81 ≤ address.first ∧ address.first ≤ 0xfebf
  | _ => False

instance (address : Ipv6) : Decidable (Host.ipv6 address).IsHighLinkLocal :=
  inferInstanceAs (Decidable (0xfe81 ≤ address.first ∧ address.first ≤ 0xfebf))

/-- What is relied on for lowercasing: text in ASCII is lowered letter by letter. -/
structure LowersAscii (rt : UrlRuntime) : Prop where
  /-- letter by letter -/
  ascii : ∀ text : List Char, (∀ c ∈ text, c.toNat < 128) →
    rt.toLowerCase (String.ofList text) = String.ofList (text.map Char.toLower)

namespace UrlSafety

/-! ## Texts without capitals -/

/-- A character that a host can have, which lowercasing leaves as it is. -/
def isHostChar (c : Char) : Bool := c.toNat < 128 && !c.isUpper

theorem isUpper_eq (c : Char) : c.isUpper = decide (c.val ≥ 65 ∧ c.val ≤ 90) := rfl

theorem toLower_of_isHostChar {c : Char} (h : isHostChar c = true) : c.toLower = c := by
  simp only [isHostChar, Bool.and_eq_true, Bool.not_eq_true', isUpper_eq,
    decide_eq_false_iff_not] at h
  unfold Char.toLower
  rw [dif_neg]
  exact fun hupper => h.2 hupper

theorem map_toLower {text : List Char} (h : ∀ c ∈ text, isHostChar c = true) :
    text.map Char.toLower = text := by
  rw [List.map_congr_left fun c hc => toLower_of_isHostChar (h c hc), List.map_id'']
  intro c
  rfl

variable {rt : UrlRuntime}

theorem LowersAscii.toLowerCase (h : LowersAscii rt) {text : List Char}
    (hchars : ∀ c ∈ text, isHostChar c = true) :
    (rt.toLowerCase (String.ofList text)).toList = text := by
  have hascii : ∀ c ∈ text, c.toNat < 128 := by
    intro c hc
    have hchar := hchars c hc
    simp only [isHostChar, Bool.and_eq_true, decide_eq_true_eq] at hchar
    exact hchar.1
  rw [h.ascii text hascii, map_toLower hchars, String.toList_ofList]

/-- Normalising a host in brackets, or without them. -/
theorem normalizeHostname_eq (h : LowersAscii rt) {text stripped : List Char}
    (hchars : ∀ c ∈ text, isHostChar c = true) (hstrip : stripBrackets text = stripped)
    (hmapped : mappedTail stripped = none) :
    normalizeHostname rt (String.ofList text) = stripped := by
  simp only [normalizeHostname, LowersAscii.toLowerCase h hchars, hstrip, hmapped]

theorem stripBrackets_brackets (text : List Char) :
    stripBrackets ('[' :: (text ++ [']'])) = text := by
  simp [stripBrackets]

theorem stripBrackets_of_not_mem {text : List Char} (hopen : '[' ∉ text) (hclose : ']' ∉ text) :
    stripBrackets text = text := by
  have hhead : text.head? ≠ some '[' := fun h => hopen (List.mem_of_mem_head? h)
  have hlast : text.getLast? ≠ some ']' := fun h => hclose (List.mem_of_mem_getLast? h)
  simp only [stripBrackets, if_neg hhead, if_neg hlast]

/-- What does not begin with a colon is not mapped. -/
theorem mappedTail_of_head {text : List Char} (h : text.head? ≠ some ':') :
    mappedTail text = none := by
  have hstart : Text.startsWith text "::ffff:".toList = false := by
    cases text with
    | nil => rfl
    | cons c cs =>
      have hc : c ≠ ':' := fun he => h (congrArg some he)
      have hlist : "::ffff:".toList = ':' :: ":ffff:".toList := by decide
      rw [hlist, Text.startsWith, decide_eq_false hc, Bool.false_and]
  simp only [mappedTail, hstart, Bool.false_and]
  rfl

/-! ## IPv4 -/

theorem blocked_of_mem {pattern : List Char → Bool} {host : List Char}
    (hpattern : pattern ∈ blockedHosts) (h : pattern host = true) :
    isBlockedHostname host = true := by
  have hany : (blockedHosts.any fun pattern => pattern host) = true :=
    List.any_eq_true.mpr ⟨pattern, hpattern, h⟩
  simp only [isBlockedHostname, hany, if_true]

theorem serialize_cons (address : Ipv4) :
    address.serialize = Nat.toDigits 10 address.a ++ '.' ::
      (Nat.toDigits 10 address.b ++ '.' ::
        (Nat.toDigits 10 address.c ++ '.' :: Nat.toDigits 10 address.d)) := by
  simp [Ipv4.serialize, List.intercalate_cons_cons]

theorem isShortNumber_toDigits (n : Fin 256) : isShortNumber (Nat.toDigits 10 n) = true := by
  have hdigits : ∀ c ∈ Nat.toDigits 10 n.val, isDecimalDigit c = true := by
    intro c hc
    have hdigit := Nat.isDigit_of_mem_toDigits (by decide) (by decide) hc
    simp only [Char.isDigit, Bool.and_eq_true, decide_eq_true_eq] at hdigit
    simp only [isDecimalDigit, Bool.and_eq_true, decide_eq_true_eq]
    exact hdigit
  have hlong : (Nat.toDigits 10 n.val).length ≤ 3 :=
    (Nat.length_toDigits_le_iff (by decide) (by decide)).mpr (by omega)
  have hshort : 1 ≤ (Nat.toDigits 10 n.val).length := Nat.length_toDigits_pos
  simp only [isShortNumber, Bool.and_eq_true, decide_eq_true_eq, List.all_eq_true]
  exact ⟨⟨hshort, hlong⟩, hdigits⟩

theorem not_mem_toDigits {c : Char} (n : Nat) (h : c.isDigit = false) :
    c ∉ Nat.toDigits 10 n := by
  intro hc
  rw [Nat.isDigit_of_mem_toDigits (by decide) (by decide) hc] at h
  cases h

/-- An IPv4 address is written with digits and dots, and begins with a digit. -/
theorem mem_serialize_ipv4 {address : Ipv4} {c : Char} (h : c ∈ address.serialize) :
    c.isDigit = true ∨ c = '.' := by
  have hdigit : ∀ {n : Nat}, c ∈ Nat.toDigits 10 n → c.isDigit = true :=
    Nat.isDigit_of_mem_toDigits (by decide) (by decide)
  rw [serialize_cons] at h
  simp only [List.mem_append, List.mem_cons] at h
  rcases h with h | h | h | h | h | h | h
  · exact .inl (hdigit h)
  · exact .inr h
  · exact .inl (hdigit h)
  · exact .inr h
  · exact .inl (hdigit h)
  · exact .inr h
  · exact .inl (hdigit h)

theorem isHostChar_of_digit {c : Char} (h : c.isDigit = true ∨ c = '.') :
    isHostChar c = true ∧ c ≠ '[' ∧ c ≠ ']' ∧ c ≠ ':' := by
  rcases h with h | rfl
  · simp only [Char.isDigit, Bool.and_eq_true, decide_eq_true_eq] at h
    obtain ⟨hlow, hhigh⟩ := h
    have hlow : 48 ≤ c.toNat := hlow
    have hhigh : c.toNat ≤ 57 := hhigh
    refine ⟨?_, ?_, ?_, ?_⟩
    · have hupper : ¬65 ≤ c.toNat := by omega
      simp only [isHostChar, Bool.and_eq_true, decide_eq_true_eq, Bool.not_eq_true', isUpper_eq,
        decide_eq_false_iff_not]
      exact ⟨by omega, fun h => hupper h.1⟩
    all_goals
      rintro rfl
      revert hhigh
      decide
  · decide

theorem normalizeHostname_ipv4 (h : LowersAscii rt) (address : Ipv4) :
    normalizeHostname rt (String.ofList address.serialize) = address.serialize := by
  have hchar : ∀ c ∈ address.serialize, isHostChar c = true ∧ c ≠ '[' ∧ c ≠ ']' ∧ c ≠ ':' :=
    fun c hc => isHostChar_of_digit (mem_serialize_ipv4 hc)
  refine normalizeHostname_eq h (fun c hc => (hchar c hc).1)
    (stripBrackets_of_not_mem (fun hc => (hchar _ hc).2.1 rfl) fun hc => (hchar _ hc).2.2.1 rfl) ?_
  exact mappedTail_of_head fun hhead => (hchar _ (List.mem_of_mem_head? hhead)).2.2.2 rfl

theorem isThisNetwork_serialize {address : Ipv4} (h : address.a = 0) :
    isThisNetwork address.serialize = true := by
  have hdots : ∀ part ∈ [Nat.toDigits 10 address.a, Nat.toDigits 10 address.b,
      Nat.toDigits 10 address.c, Nat.toDigits 10 address.d], '.' ∉ part := by
    intro part hpart
    simp only [List.mem_cons, List.not_mem_nil, or_false] at hpart
    rcases hpart with rfl | rfl | rfl | rfl <;> exact not_mem_toDigits _ (by decide)
  have hsplit := List.splitOn_intercalate '.' hdots (by simp)
  have hzero : Nat.toDigits 10 address.a = ['0'] := by
    rw [h]
    decide
  rw [isThisNetwork, Ipv4.serialize, hsplit, hzero]
  simp [isShortNumber_toDigits]

/-- The second octets of 172.16.0.0/12 are those of the pattern. -/
theorem isPrivate172_serialize {address : Ipv4} (h : address.a = 172) (hlow : 16 ≤ address.b.val)
    (hhigh : address.b.val ≤ 31) : isPrivate172 address.serialize = true := by
  have hoctets : ∀ n : Fin 256, 16 ≤ n.val → n.val ≤ 31 →
      ∃ c d, Nat.toDigits 10 n = [c, d] ∧ isPrivateSecondOctet c d = true := by
    intro n hlow hhigh
    have hall : ∀ n : Fin 256, 16 ≤ n.val → n.val ≤ 31 → (Nat.toDigits 10 n).length = 2 ∧
        isPrivateSecondOctet ((Nat.toDigits 10 n).getD 0 '0') ((Nat.toDigits 10 n).getD 1 '0')
          = true := by
      decide +kernel
    obtain ⟨hlength, hoctet⟩ := hall n hlow hhigh
    obtain ⟨c, d, hdigits⟩ := List.length_eq_two.mp hlength
    rw [hdigits] at hoctet
    exact ⟨c, d, hdigits, hoctet⟩
  obtain ⟨c, d, hb, hoctet⟩ := hoctets address.b hlow hhigh
  have ha : Nat.toDigits 10 address.a = ['1', '7', '2'] := by
    rw [h]
    decide
  have hprefix : "172.".toList = ['1', '7', '2', '.'] := by decide
  rw [serialize_cons, ha, hb, isPrivate172, hprefix]
  simpa [Text.startsWith] using hoctet

/-- The text of an address begins with its first octet. -/
theorem startsWith_first {address : Ipv4} {part : List Char}
    (h : Nat.toDigits 10 address.a ++ ['.'] = part) :
    Text.startsWith address.serialize part = true := by
  rw [Text.startsWith_iff, serialize_cons, ← h]
  exact ⟨_, by rw [List.append_assoc]; rfl⟩

/-- The text of an address begins with its first two octets. -/
theorem startsWith_second {address : Ipv4} {part : List Char}
    (h : Nat.toDigits 10 address.a ++ '.' :: (Nat.toDigits 10 address.b ++ ['.']) = part) :
    Text.startsWith address.serialize part = true := by
  rw [Text.startsWith_iff, serialize_cons, ← h]
  exact ⟨_, by rw [List.append_assoc, List.cons_append, List.append_assoc]; rfl⟩

/-- Internal IPv4 addresses are refused. -/
theorem blocked_ipv4 {address : Ipv4} (h : address.IsInternal) :
    isBlockedHostname address.serialize = true := by
  rcases h with h | h | h | ⟨h, hlow, hhigh⟩ | ⟨h, h'⟩ | ⟨h, h'⟩
  · exact blocked_of_mem (by simp [blockedHosts]) (isThisNetwork_serialize h)
  · have hmem : (fun host => Text.startsWith host "127.".toList) ∈ blockedHosts := by
      simp [blockedHosts]
    refine blocked_of_mem hmem (startsWith_first ?_)
    rw [h]
    decide
  · have hmem : (fun host => Text.startsWith host "10.".toList) ∈ blockedHosts := by
      simp [blockedHosts]
    refine blocked_of_mem hmem (startsWith_first ?_)
    rw [h]
    decide
  · exact blocked_of_mem (by simp [blockedHosts]) (isPrivate172_serialize h hlow hhigh)
  · have hmem : (fun host => Text.startsWith host "192.168.".toList) ∈ blockedHosts := by
      simp [blockedHosts]
    refine blocked_of_mem hmem (startsWith_second ?_)
    rw [h, h']
    decide
  · have hmem : (fun host => Text.startsWith host "169.254.".toList) ∈ blockedHosts := by
      simp [blockedHosts]
    refine blocked_of_mem hmem (startsWith_second ?_)
    rw [h, h']
    decide

/-! ## IPv6 -/

/-- The characters of a group and the colon need no lowercasing and end no line. -/
theorem isHostChar_of_hex {c : Char} (h : IpHost.isHexDigit c = true ∨ c = ':') :
    isHostChar c = true ∧ isLineTerminator c = false := by
  have hall : ∀ n : Fin 128, IpHost.isHexDigit (Char.ofNat n) = true ∨ Char.ofNat n = ':' →
      isHostChar (Char.ofNat n) = true ∧ isLineTerminator (Char.ofNat n) = false := by
    decide
  have hsmall : c.toNat < 128 := by
    rcases h with h | rfl
    · simp only [IpHost.isHexDigit, Bool.or_eq_true, Bool.and_eq_true, decide_eq_true_eq] at h
      rcases h with ⟨-, h⟩ | ⟨-, h⟩
      · exact Nat.lt_of_le_of_lt (Char.le_def.mp h) (by decide)
      · exact Nat.lt_of_le_of_lt (Char.le_def.mp h) (by decide)
    · decide
  have hc := hall ⟨c.toNat, hsmall⟩
  rw [Char.ofNat_toNat] at hc
  exact hc h

/-- An address in brackets needs no lowercasing. -/
theorem isHostChar_brackets {address : Ipv6} :
    ∀ c ∈ '[' :: (address.serialize ++ [']']), isHostChar c = true := by
  intro c hc
  rcases List.mem_cons.mp hc with rfl | hc
  · decide
  · rcases List.mem_append.mp hc with hc | hc
    · exact (isHostChar_of_hex (mem_serialize hc)).1
    · rw [List.mem_singleton.mp hc]
      decide

/-- The digit of a group is read back. -/
theorem hexDigitValue_digitChar {n : Nat} (h : n < 16) : hexDigitValue n.digitChar = n := by
  have hall : ∀ n : Fin 16, hexDigitValue (Nat.digitChar n) = n := by decide
  exact hall ⟨n, h⟩

/-- A group is read back. -/
theorem parseHex_toDigits (n : Nat) : parseHex (Nat.toDigits 16 n) = n := by
  induction n using Nat.strong_induction_on with
  | _ n ih =>
    rcases Nat.lt_or_ge n 16 with hlt | hge
    · rw [Nat.toDigits_of_lt_base hlt]
      simp [parseHex, hexDigitValue_digitChar hlt]
    · have hrest := ih (n / 16) (by omega)
      rw [parseHex] at hrest
      rw [Nat.toDigits_of_base_le (by omega) hge, parseHex, List.foldl_append, hrest]
      simp only [List.foldl_cons, List.foldl_nil, hexDigitValue_digitChar (Nat.mod_lt n (by omega))]
      omega

theorem isHexGroup_toDigits (n : Fin 65536) : isHexGroup (Nat.toDigits 16 n) = true := by
  have hlong : (Nat.toDigits 16 n.val).length ≤ 4 :=
    (Nat.length_toDigits_le_iff (by decide) (by decide)).mpr (by omega)
  have hshort : 1 ≤ (Nat.toDigits 16 n.val).length := Nat.length_toDigits_pos
  simp only [isHexGroup, Bool.and_eq_true, decide_eq_true_eq, List.all_eq_true]
  exact ⟨⟨hshort, hlong⟩, fun c hc => isHexDigit_of_mem hc⟩

theorem not_mem_toDigits_hex {c : Char} (n : Nat) (h : IpHost.isHexDigit c = false) :
    c ∉ Nat.toDigits 16 n := by
  intro hc
  rw [isHexDigit_of_mem hc] at h
  cases h

/-- The tail of a mapped address, which has no dot and falls into its two groups. -/
theorem mappedTail_groups (high low : Fin 65536) :
    let tail := Nat.toDigits 16 high ++ ':' :: Nat.toDigits 16 low
    mappedTail ("::ffff:".toList ++ tail) = some tail ∧ '.' ∉ tail ∧
      tail.splitOn ':' = [Nat.toDigits 16 high, Nat.toDigits 16 low] := by
  intro tail
  have hchars : ∀ c ∈ tail, IpHost.isHexDigit c = true ∨ c = ':' := by
    intro c hc
    rcases List.mem_append.mp hc with hc | hc
    · exact .inl (isHexDigit_of_mem hc)
    · rcases List.mem_cons.mp hc with rfl | hc
      · exact .inr rfl
      · exact .inl (isHexDigit_of_mem hc)
  refine ⟨?_, ?_, ?_⟩
  · have hdrop : ("::ffff:".toList ++ tail).drop 7 = tail := by
      have hlength : "::ffff:".toList.length = 7 := by decide
      rw [← hlength, List.drop_left]
    have hstart : Text.startsWith ("::ffff:".toList ++ tail) "::ffff:".toList = true :=
      Text.startsWith_iff.mpr (List.prefix_append _ _)
    have hline : tail.any isLineTerminator = false :=
      List.any_eq_false.mpr fun c hc => by simp [(isHostChar_of_hex (hchars c hc)).2]
    have hne : tail.isEmpty = false := by simp [tail]
    simp only [mappedTail, hdrop, hstart, hline, hne]
    rfl
  · intro hdot
    rcases hchars '.' hdot with h | h
    · revert h
      decide
    · cases h
  · have hparts : ∀ part ∈ [Nat.toDigits 16 high, Nat.toDigits 16 low], ':' ∉ part := by
      intro part hpart
      simp only [List.mem_cons, List.not_mem_nil, or_false] at hpart
      rcases hpart with rfl | rfl <;> exact not_mem_toDigits_hex _ (by decide)
    simpa [List.intercalate_cons_cons] using List.splitOn_intercalate ':' hparts (by simp)

/-- A mapped address is normalised to the IPv4 address. -/
theorem normalizeHostname_mapped (h : LowersAscii rt) (address : Ipv4) :
    normalizeHostname rt (String.ofList (Host.ipv6 (.mapped address)).serialize)
      = address.serialize := by
  have ha : (pair address.a address.b).val / 256 = address.a := by
    simp only [pair]
    omega
  have hb : (pair address.a address.b).val % 256 = address.b := by
    simp only [pair]
    omega
  have hc : (pair address.c address.d).val / 256 = address.c := by
    simp only [pair]
    omega
  have hd : (pair address.c address.d).val % 256 = address.d := by
    simp only [pair]
    omega
  obtain ⟨htail, hdot, hsplit⟩ :=
    mappedTail_groups (pair address.a address.b) (pair address.c address.d)
  rw [← List.append_assoc, ← serialize_mapped] at htail
  simp only [normalizeHostname, Host.serialize, LowersAscii.toLowerCase h isHostChar_brackets,
    stripBrackets_brackets, htail, if_neg hdot, hsplit]
  simp only [isHexGroup_toDigits, parseHex_toDigits, ha, hb, hc, hd, Bool.and_self, if_true]
  rfl

/-- The four digits of a first group between `fc00` and `fdff`, or between `fe80` and `febf`. -/
theorem serialize_four {address : Ipv6} (hlow : 0xf000 ≤ address.first) :
    ∃ rest, address.serialize = 'f' :: (address.first / 256 % 16).digitChar ::
      (address.first / 16 % 16).digitChar :: (address.first % 16).digitChar :: ':' :: rest := by
  obtain ⟨rest, hrest⟩ := serialize_of_first (show address.first ≠ 0 by omega)
  have hsmall : address.first < 65536 := by
    rcases hhead : address.pieces.head? with _ | piece
    · simp [Ipv6.first, hhead] at hlow
    · simp [Ipv6.first, hhead]
  have hf : (address.first / 4096).digitChar = 'f' := by
    have h15 : address.first / 4096 = 15 := by omega
    rw [h15]
    rfl
  rw [toDigits_four (by omega) hsmall, hf] at hrest
  exact ⟨rest, hrest⟩

/-- An address that begins with a letter is normalised by taking off its brackets. -/
theorem normalizeHostname_four (h : LowersAscii rt) {address : Ipv6}
    (hlow : 0xf000 ≤ address.first) :
    normalizeHostname rt (String.ofList (Host.ipv6 address).serialize) = address.serialize := by
  refine normalizeHostname_eq h isHostChar_brackets (stripBrackets_brackets _) ?_
  obtain ⟨rest, hrest⟩ := serialize_four hlow
  rw [hrest]
  exact mappedTail_of_head (by simp)

theorem fold_serialize (address : Ipv6) : fold address.serialize = address.serialize :=
  map_toLower fun _ hc => (isHostChar_of_hex (mem_serialize hc)).1

/-- Unique local addresses are refused. -/
theorem blocked_uniqueLocal {address : Ipv6} (hlow : 0xfc00 ≤ address.first)
    (hhigh : address.first ≤ 0xfdff) : isBlockedHostname address.serialize = true := by
  obtain ⟨rest, hrest⟩ := serialize_four (show 0xf000 ≤ address.first by omega)
  have hd : isHexDigit (address.first / 16 % 16).digitChar = true :=
    isHexDigit_digitChar (Nat.mod_lt _ (by omega))
  have he : isHexDigit (address.first % 16).digitChar = true :=
    isHexDigit_digitChar (Nat.mod_lt _ (by omega))
  have hfold := fold_serialize address
  have hletter : address.first / 256 % 16 = 12 ∨ address.first / 256 % 16 = 13 := by omega
  rcases hletter with hletter | hletter
  · have hmem : isUniqueLocal 'c' ∈ blockedHosts := by simp [blockedHosts]
    refine blocked_of_mem hmem ?_
    rw [isUniqueLocal, hfold, hrest, hletter]
    simp [hd, he]
  · have hmem : isUniqueLocal 'd' ∈ blockedHosts := by simp [blockedHosts]
    refine blocked_of_mem hmem ?_
    rw [isUniqueLocal, hfold, hrest, hletter]
    simp [hd, he]

/-- A text that begins differently does not begin with the other one. -/
theorem not_startsWith {host part : List Char} {c : Char} (hhost : host.head? = some c)
    (hpart : part.head?.any (· ≠ c) = true) : ¬Text.startsWith host part = true := by
  cases host with
  | nil => cases hhost
  | cons d ds =>
    cases part with
    | nil => cases hpart
    | cons p ps =>
      cases hhost
      simp only [List.head?_cons, Option.any_some, decide_eq_true_eq] at hpart
      simp [Text.startsWith, Ne.symm hpart]

/-- No pattern matches a text that begins with `fe`, other digits than `80` and a colon. -/
theorem not_blocked_linkLocal {host rest : List Char} {d e : Char}
    (hhost : host = 'f' :: 'e' :: d :: e :: ':' :: rest) (hfold : fold host = host)
    (hchars : ∀ c ∈ host, IpHost.isHexDigit c = true ∨ c = ':') (hne : ¬(d = '8' ∧ e = '0')) :
    isBlockedHostname host = false := by
  have hhead : host.head? = some 'f' := congrArg List.head? hhost
  have hdot : '.' ∉ host := by
    intro h
    rcases hchars '.' h with h | h
    · revert h
      decide
    · cases h
  have hcolon : ':' ∈ host := by
    rw [hhost]
    simp
  have hpatterns : (blockedHosts.any fun pattern => pattern host) = false := by
    rw [List.any_eq_false]
    intro pattern hpattern
    simp only [blockedHosts, List.mem_cons, List.not_mem_nil, or_false] at hpattern
    rcases hpattern with rfl | rfl | rfl | rfl | rfl | rfl | rfl | rfl | rfl | rfl | rfl | rfl
    · intro h
      have h := congrArg List.head? (of_decide_eq_true h)
      rw [hfold, hhead] at h
      exact absurd h (by decide)
    · exact not_startsWith hhead (by decide)
    · exact not_startsWith hhead (by decide)
    · exact not_startsWith hhead (by decide)
    · exact not_startsWith hhead (by decide)
    · intro h
      rw [isPrivate172, Bool.and_eq_true] at h
      exact not_startsWith hhead (by decide) h.1
    · intro h
      have h := congrArg List.head? (of_decide_eq_true h)
      rw [hhead] at h
      exact absurd h (by decide)
    · have hlist : "fe80:".toList = ['f', 'e', '8', '0', ':'] := by decide
      dsimp only
      rw [hfold, hhost, hlist]
      simp only [Text.startsWith, decide_true, Bool.true_and, Bool.and_true, Bool.and_eq_true,
        decide_eq_true_eq]
      exact hne
    · rw [isUniqueLocal, hfold, hhost]
      simp
    · rw [isUniqueLocal, hfold, hhost]
      simp
    · have hwhole : ∀ l ∈ [host], '.' ∉ l := by simpa using hdot
      have hsplit := List.splitOn_intercalate '.' hwhole (by simp)
      rw [List.intercalate_singleton] at hsplit
      rw [isThisNetwork, hsplit]
      simp
    · intro h
      have h := congrArg List.head? (of_decide_eq_true h)
      rw [hhead] at h
      exact absurd h (by decide)
  have hlast : ¬host.getLast? = some '.' := fun h => hdot (List.mem_of_mem_getLast? h)
  have hsuffixes : ¬(blockedHostSuffixes.any fun suffix => suffix <:+ host) = true := by
    intro h
    obtain ⟨suffix, hmem, hsuffix⟩ := List.any_eq_true.mp h
    have hdots : ∀ suffix ∈ blockedHostSuffixes, '.' ∈ suffix := by decide
    exact hdot ((of_decide_eq_true hsuffix).subset (hdots suffix hmem))
  simp only [isBlockedHostname, hpatterns, if_neg hlast, if_neg hsuffixes]
  simp [hcolon]

theorem digitChar_inj {m n : Nat} (hm : m < 16) (hn : n < 16) (h : m.digitChar = n.digitChar) :
    m = n := by
  rw [← hexDigitValue_digitChar hm, h, hexDigitValue_digitChar hn]

/-- Of the link-local addresses those are refused whose first group is `fe80`. -/
theorem blocked_linkLocal {address : Ipv6} (hlow : 0xfe80 ≤ address.first)
    (hhigh : address.first ≤ 0xfebf) :
    isBlockedHostname address.serialize = true ↔ address.first = 0xfe80 := by
  obtain ⟨rest, hrest⟩ := serialize_four (show 0xf000 ≤ address.first by omega)
  have hfold := fold_serialize address
  have he : (address.first / 256 % 16).digitChar = 'e' := by
    have h14 : address.first / 256 % 16 = 14 := by omega
    rw [h14]
    rfl
  rw [he] at hrest
  constructor
  · intro hblocked
    by_contra hfirst
    rw [not_blocked_linkLocal hrest hfold (fun c hc => mem_serialize hc) ?_] at hblocked
    · cases hblocked
    · rintro ⟨hd, hlast⟩
      have h8 : address.first / 16 % 16 = 8 :=
        digitChar_inj (Nat.mod_lt _ (by omega)) (by omega) (hd.trans (by rfl))
      have h0 : address.first % 16 = 0 :=
        digitChar_inj (Nat.mod_lt _ (by omega)) (by omega) (hlast.trans (by rfl))
      omega
  · intro hfirst
    have hmem : (fun host => Text.startsWith (fold host) "fe80:".toList) ∈ blockedHosts := by
      simp [blockedHosts]
    refine blocked_of_mem hmem ?_
    have hlist : "fe80:".toList = ['f', 'e', '8', '0', ':'] := by decide
    rw [hfold, hrest, hfirst, hlist]
    simp [Text.startsWith]

/-! ## Domains -/

theorem isHostChar_of_domain {c : Char} (h : isDomainChar c = true) :
    isHostChar c = true ∧ c ≠ '[' ∧ c ≠ ']' ∧ c ≠ ':' := by
  simp only [isDomainChar, Bool.and_eq_true, decide_eq_true_eq, Bool.not_eq_true'] at h
  obtain ⟨⟨⟨-, hhigh⟩, hupper⟩, hforbidden⟩ := h
  refine ⟨?_, ?_, ?_, ?_⟩
  · simp only [isHostChar, Bool.and_eq_true, decide_eq_true_eq, Bool.not_eq_true']
    exact ⟨by omega, hupper⟩
  all_goals
    rintro rfl
    revert hforbidden
    decide

theorem normalizeHostname_domain (h : LowersAscii rt) (name : Domain) :
    normalizeHostname rt (String.ofList name.text) = name.text := by
  have hchar : ∀ c ∈ name.text, isHostChar c = true ∧ c ≠ '[' ∧ c ≠ ']' ∧ c ≠ ':' :=
    fun c hc => isHostChar_of_domain (name.allowed c hc)
  refine normalizeHostname_eq h (fun c hc => (hchar c hc).1)
    (stripBrackets_of_not_mem (fun hc => (hchar _ hc).2.1 rfl) fun hc => (hchar _ hc).2.2.1 rfl) ?_
  exact mappedTail_of_head fun hhead => (hchar _ (List.mem_of_mem_head? hhead)).2.2.2 rfl

/-- A name under a reserved suffix is refused, with or without a trailing dot. -/
theorem blocked_suffix {text suffix : List Char} (hsuffix : suffix ∈ blockedHostSuffixes)
    (htext : suffix <:+ text) :
    isBlockedHostname text = true ∧ isBlockedHostname (text ++ ['.']) = true := by
  have hnodot : ∀ suffix ∈ blockedHostSuffixes, suffix.getLast? ≠ some '.' := by decide
  have hlast : ¬text.getLast? = some '.' := by
    obtain ⟨label, rfl⟩ := htext
    have hne : suffix ≠ [] := by
      rintro rfl
      revert hsuffix
      decide
    rw [List.getLast?_append_of_ne_nil label hne]
    exact hnodot suffix hsuffix
  have hany : (blockedHostSuffixes.any fun suffix => suffix <:+ text) = true :=
    List.any_eq_true.mpr ⟨suffix, hsuffix, decide_eq_true htext⟩
  refine ⟨?_, ?_⟩
  · simp only [isBlockedHostname, if_neg hlast, hany]
    split <;> rfl
  · simp only [isBlockedHostname, List.getLast?_concat, List.dropLast_concat, if_true, hany]
    split <;> rfl

/-- Names that only lead inside are refused. -/
theorem blocked_domain {name : Domain} (h : name.IsInternal) :
    isBlockedHostname name.text = true := by
  obtain ⟨text, htext, hlocal | ⟨suffix, hsuffix, hunder⟩⟩ := h
  · rcases htext with htext | htext
    · rw [htext, hlocal]
      decide
    · rw [htext, hlocal]
      decide
  · rcases htext with htext | htext
    · rw [htext]
      exact (blocked_suffix hsuffix hunder).1
    · rw [htext]
      exact (blocked_suffix hsuffix hunder).2

/-! ## All hosts -/

/-- A host that only leads inside is blocked, unless it is link-local and not in `fe80`. -/
theorem blocked_iff (h : LowersAscii rt) {host : Host} (hinternal : host.IsInternal) :
    isBlockedHostname (normalizeHostname rt (String.ofList host.serialize)) = true ↔
      ¬host.IsHighLinkLocal := by
  cases host with
  | ipv4 address =>
    rw [Host.serialize, normalizeHostname_ipv4 h]
    exact iff_of_true (blocked_ipv4 hinternal) fun h => h
  | ipv6 address =>
    rcases hinternal with rfl | rfl | ⟨hlow, hhigh⟩ | ⟨hlow, hhigh⟩ | ⟨inner, hinner, rfl⟩
    · rw [Host.serialize, normalizeHostname_eq h isHostChar_brackets (stripBrackets_brackets _)
        (by decide)]
      exact iff_of_true (by decide) (by decide)
    · rw [Host.serialize, normalizeHostname_eq h isHostChar_brackets (stripBrackets_brackets _)
        (by decide)]
      exact iff_of_true (by decide) (by decide)
    · rw [normalizeHostname_four h (by omega), blocked_linkLocal hlow hhigh]
      simp only [Host.IsHighLinkLocal]
      omega
    · rw [normalizeHostname_four h (by omega)]
      refine iff_of_true (blocked_uniqueLocal hlow hhigh) ?_
      simp only [Host.IsHighLinkLocal]
      omega
    · rw [normalizeHostname_mapped h]
      refine iff_of_true (blocked_ipv4 hinner) ?_
      rintro ⟨hlow, -⟩
      cases hlow
  | domain name =>
    rw [Host.serialize, normalizeHostname_domain h]
    exact iff_of_true (blocked_domain hinternal) fun h => h

/-- A URL whose host only leads inside is refused, unless it is an http or https URL to a
link-local address that is not in `fe80`: those the pattern misses. -/
theorem rejected_iff (h : LowersAscii rt) {url : String} {parsed : ParsedUrl} {host : Host}
    (hparse : rt.parseUrl url = some parsed)
    (hhost : parsed.hostname = String.ofList host.serialize) (hinternal : host.IsInternal) :
    (∃ error, assertSafePublicUrlText rt false url = .error error) ↔
      ¬((parsed.protocol = "http:" ∨ parsed.protocol = "https:") ∧ host.IsHighLinkLocal) := by
  have hblocked := blocked_iff h hinternal
  rw [← hhost] at hblocked
  simp only [assertSafePublicUrlText, hparse, assertSafePublicUrl]
  by_cases hprotocol : parsed.protocol = "http:" ∨ parsed.protocol = "https:"
  · have hcheck : ¬(decide (parsed.protocol ≠ "http:") && decide (parsed.protocol ≠ "https:"))
        = true := by
      rcases hprotocol with hp | hp <;> simp [hp]
    rw [if_neg hcheck, if_neg Bool.false_ne_true]
    by_cases hgap : host.IsHighLinkLocal
    · have hnot : ¬isBlockedHostname (normalizeHostname rt parsed.hostname) = true :=
        fun hb => hblocked.mp hb hgap
      have hempty : normalizeHostname rt parsed.hostname ≠ [] := by
        intro hempty
        rw [hempty] at hnot
        exact hnot (by decide)
      rw [if_neg hempty, if_neg hnot]
      refine iff_of_false ?_ fun hn => hn ⟨hprotocol, hgap⟩
      rintro ⟨error, he⟩
      cases he
    · rw [if_pos (hblocked.mpr hgap)]
      refine iff_of_true ⟨.unsafeHost, ?_⟩ fun hn => hgap hn.2
      split <;> rfl
  · have hcheck : (decide (parsed.protocol ≠ "http:") && decide (parsed.protocol ≠ "https:"))
        = true := by
      rw [not_or] at hprotocol
      simp [hprotocol]
    rw [if_pos hcheck]
    exact iff_of_true ⟨.unsafeProtocol, rfl⟩ fun hn => hprotocol hn.1

/-! ## Samples -/

/-- What the parser makes of a URL to the front page of a host. -/
def frontPage (host : Host) : ParsedUrl :=
  { protocol := "http:", userinfo := "", hostname := String.ofList host.serialize, port := "",
    pathname := "/", search := "", hash := "" }

/-- The host of `http://[::FFFF:10.0.0.1]/`. -/
def mappedHost : Host := .ipv6 (.mapped { a := 10, b := 0, c := 0, d := 1 })

/-- The host of `http://[fe81::1]/`. -/
def linkLocalHost : Host :=
  .ipv6 (.around 0xfe81 1)

/-- A runtime whose parser knows two URLs. -/
def literalRuntime : UrlRuntime :=
  { CanonicalLink.hostRuntime.toUrlRuntime with
    parseUrl := fun url =>
      if url = "http://[::FFFF:10.0.0.1]/" then some (frontPage mappedHost)
      else if url = "http://[fe81::1]/" then some (frontPage linkLocalHost)
      else none }

theorem lowersAscii_literalRuntime : LowersAscii literalRuntime where
  ascii := by
    intro text _
    simp only [literalRuntime, CanonicalLink.hostRuntime, CanonicalLink.lowerAscii,
      String.toList_ofList]

theorem rejected_iff_mapped :
    ∃ error, assertSafePublicUrlText literalRuntime false "http://[::FFFF:10.0.0.1]/"
      = .error error :=
  (rejected_iff lowersAscii_literalRuntime
    (show literalRuntime.parseUrl _ = some (frontPage mappedHost) from rfl)
    (show (frontPage mappedHost).hostname = String.ofList mappedHost.serialize from rfl)
    (.inr (.inr (.inr (.inr ⟨_, .inr (.inr (.inl rfl)), rfl⟩))))).mpr
    fun ⟨_, hlow, _⟩ => absurd hlow (by decide)

/-- A link-local address outside `fe80` passes the check. -/
theorem linkLocal_passes :
    literalRuntime.parseUrl "http://[fe81::1]/" = some (frontPage linkLocalHost) ∧
    (frontPage linkLocalHost).hostname = String.ofList linkLocalHost.serialize ∧
    linkLocalHost.IsInternal ∧
    assertSafePublicUrlText literalRuntime false "http://[fe81::1]/"
      = .ok (frontPage linkLocalHost) := by
  refine ⟨by decide, rfl, .inr (.inr (.inl ⟨by decide, by decide⟩)), by decide +kernel⟩

end UrlSafety

end Feedpulse
