import Feedpulse.FeedUrl

/-!
# Which URLs the server may fetch

The check every outbound request goes through: the protocol has to be http or https, and unless
private hosts are allowed the host must not be one of the literals and names that only lead
inside. The check looks at the host as it is written; names are not resolved.
-/

namespace Feedpulse

/-- The errors of `assertSafePublicUrl`. -/
inductive UrlSafetyError where
  /-- `UnsafeProtocolError` -/
  | unsafeProtocol
  /-- `UnsafeHostError` -/
  | unsafeHost
  deriving DecidableEq, Repr

/-- The message of an error. -/
def UrlSafetyError.message : UrlSafetyError → String
  | .unsafeProtocol => "unsafe_protocol"
  | .unsafeHost => "unsafe_host"

namespace UrlSafety

/-! ## Patterns of hosts -/

/-- `\d`. -/
def isDecimalDigit (c : Char) : Bool := '0' ≤ c && c ≤ '9'

/-- `[0-9a-f]`. -/
def isHexDigit (c : Char) : Bool := isDecimalDigit c || ('a' ≤ c && c ≤ 'f')

/-- The letters of a text that is compared with the flag `i`. -/
def fold (host : List Char) : List Char := host.map Char.toLower

/-- `1[6-9]|2[0-9]|3[01]`. -/
def isPrivateSecondOctet : Char → Char → Bool
  | '1', d => '6' ≤ d && d ≤ '9'
  | '2', d => isDecimalDigit d
  | '3', d => d = '0' || d = '1'
  | _, _ => false

/-- `^172\.(1[6-9]|2[0-9]|3[01])\.`. -/
def isPrivate172 (host : List Char) : Bool :=
  Text.startsWith host "172.".toList &&
    match host.drop 4 with
    | c :: d :: '.' :: _ => isPrivateSecondOctet c d
    | _ => false

/-- `^fc[0-9a-f]{2}:` and `^fd[0-9a-f]{2}:`, by the second letter. -/
def isUniqueLocal (letter : Char) (host : List Char) : Bool :=
  match fold host with
  | 'f' :: c :: d :: e :: ':' :: _ => c = letter && isHexDigit d && isHexDigit e
  | _ => false

/-- `\d{1,3}`, all of it. -/
def isShortNumber (part : List Char) : Bool :=
  1 ≤ part.length && part.length ≤ 3 && part.all isDecimalDigit

/-- `^0(\.\d{1,3}){1,3}$`. -/
def isThisNetwork (host : List Char) : Bool :=
  match host.splitOn '.' with
  | first :: parts =>
    first = ['0'] && 1 ≤ parts.length && parts.length ≤ 3 && parts.all isShortNumber
  | [] => false

/-- `BLOCKED_HOSTS`, in order. -/
def blockedHosts : List (List Char → Bool) :=
  [fun host => fold host = "localhost".toList,
    fun host => Text.startsWith host "127.".toList,
    fun host => Text.startsWith host "169.254.".toList,
    fun host => Text.startsWith host "10.".toList,
    fun host => Text.startsWith host "192.168.".toList,
    isPrivate172,
    fun host => host = "::1".toList,
    fun host => Text.startsWith (fold host) "fe80:".toList,
    isUniqueLocal 'c',
    isUniqueLocal 'd',
    isThisNetwork,
    fun host => host = "::".toList]

/-- `BLOCKED_HOST_SUFFIXES`. -/
def blockedHostSuffixes : List (List Char) :=
  [".localhost".toList, ".local".toList, ".internal".toList, ".home.arpa".toList]

/-! ## Normalising a host -/

/-- `replace(/^\[|\]$/g, '')`. -/
def stripBrackets (host : List Char) : List Char :=
  let opened := if host.head? = some '[' then host.drop 1 else host
  if opened.getLast? = some ']' then opened.dropLast else opened

/-- The characters `.` does not match. -/
def isLineTerminator (c : Char) : Bool :=
  c = '\n' || c = '\r' || c.toNat = 0x2028 || c.toNat = 0x2029

/-- `hostname.match(/^::ffff:(.+)$/)?.[1]`. -/
def mappedTail (hostname : List Char) : Option (List Char) :=
  let tail := hostname.drop 7
  if Text.startsWith hostname "::ffff:".toList && !tail.isEmpty &&
      !tail.any isLineTerminator then
    some tail
  else none

/-- `/^[0-9a-f]{1,4}$/`. -/
def isHexGroup (group : List Char) : Bool :=
  1 ≤ group.length && group.length ≤ 4 && group.all isHexDigit

/-- The value of a hexadecimal digit. -/
def hexDigitValue (c : Char) : Nat :=
  if isDecimalDigit c then c.toNat - '0'.toNat else c.toNat - 'a'.toNat + 10

/-- `Number.parseInt(group, 16)` for a hexadecimal group. -/
def parseHex (group : List Char) : Nat :=
  group.foldl (fun value c => 16 * value + hexDigitValue c) 0

/-- Four numbers with dots between them. -/
def dotted (a b c d : Nat) : List Char :=
  ['.'].intercalate [Nat.toDigits 10 a, Nat.toDigits 10 b, Nat.toDigits 10 c, Nat.toDigits 10 d]

variable (rt : UrlRuntime)

/-- `normalizeHostname`. -/
def normalizeHostname (rawHostname : String) : List Char :=
  let hostname := stripBrackets (rt.toLowerCase rawHostname).toList
  match mappedTail hostname with
  | none => hostname
  | some tail =>
    if '.' ∈ tail then tail
    else
      match tail.splitOn ':' with
      | [highGroup, lowGroup] =>
        if isHexGroup highGroup && isHexGroup lowGroup then
          let high := parseHex highGroup
          let low := parseHex lowGroup
          dotted (high / 256) (high % 256) (low / 256) (low % 256)
        else hostname
      | _ => hostname

/-- `isBlockedHostname`. -/
def isBlockedHostname (hostname : List Char) : Bool :=
  if blockedHosts.any fun pattern => pattern hostname then true
  else
    let withoutTrailingDot :=
      if hostname.getLast? = some '.' then hostname.dropLast else hostname
    if blockedHostSuffixes.any fun suffix => suffix <:+ withoutTrailingDot then true
    else !withoutTrailingDot.contains '.' && !withoutTrailingDot.contains ':'

/-- The part of `assertSafePublicUrl` that follows parsing; it returns the URL it was given. -/
def assertSafePublicUrl (allowPrivateHosts : Bool) (parsed : ParsedUrl) :
    Except UrlSafetyError ParsedUrl :=
  if parsed.protocol ≠ "http:" && parsed.protocol ≠ "https:" then .error .unsafeProtocol
  else if allowPrivateHosts then .ok parsed
  else
    let hostname := normalizeHostname rt parsed.hostname
    if hostname = [] then .error .unsafeHost
    else if isBlockedHostname hostname then .error .unsafeHost
    else .ok parsed

/-- `assertSafePublicUrl` for a text. -/
def assertSafePublicUrlText (allowPrivateHosts : Bool) (url : String) :
    Except UrlSafetyError ParsedUrl :=
  match rt.parseUrl url with
  | none => .error .unsafeProtocol
  | some parsed => assertSafePublicUrl rt allowPrivateHosts parsed

/-- What passes is what was checked. -/
theorem eq_of_assertSafePublicUrl {allowPrivateHosts : Bool} {parsed passed : ParsedUrl}
    (h : assertSafePublicUrl rt allowPrivateHosts parsed = .ok passed) : passed = parsed := by
  simp only [assertSafePublicUrl] at h
  split at h
  · cases h
  · split at h
    · exact (Except.ok.inj h).symm
    · split at h
      · cases h
      · split at h
        · cases h
        · exact (Except.ok.inj h).symm

/-- A host may be fetched from: what is left to `isPublicHostname` where the check of hosts is a
parameter. -/
def isPublicHostname (rawHostname : String) : Bool :=
  normalizeHostname rt rawHostname ≠ [] && !isBlockedHostname (normalizeHostname rt rawHostname)

/-- **The two forms of the check agree.** Where the check of hosts is the one of this module,
`isSafePublicUrl` says whether `assertSafePublicUrl` passes. -/
theorem isSafePublicUrl_eq (allowPrivateHosts : Bool) (parsed : ParsedUrl)
    (h : rt.isPublicHostname = isPublicHostname rt) :
    FeedUrl.isSafePublicUrl rt allowPrivateHosts parsed
      = (assertSafePublicUrl rt allowPrivateHosts parsed).toBool := by
  simp only [FeedUrl.isSafePublicUrl, assertSafePublicUrl, h, isPublicHostname]
  split
  · rfl
  · split
    · rfl
    · by_cases hempty : normalizeHostname rt parsed.hostname = []
      · simp [hempty, Except.toBool]
      · rw [if_neg hempty]
        cases hblocked : isBlockedHostname (normalizeHostname rt parsed.hostname) <;>
          simp [hempty, Except.toBool]

end UrlSafety

end Feedpulse
