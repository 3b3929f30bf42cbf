import Feedpulse.CodeUnits
import Feedpulse.Table
import Feedpulse.Text
import Mathlib.Data.List.GetD

/-!
# API keys

A key is stored as its SHA-256 digest. `create` makes a random one, `seedBootstrapApiKey` registers
the one of the environment with every migration run, and a request presents one to `verifyApiKey`.
The hash function is a parameter.
-/

namespace Feedpulse

namespace ApiKeys

/-! ## Bytes as text -/

/-- A digit of `toString('hex')`. -/
def hexDigit (n : Nat) : Char := "0123456789abcdef".toList.getD n '0'

/-- `bytes.toString('hex')`. -/
def toHex (bytes : List UInt8) : List Char :=
  bytes.flatMap fun byte => [hexDigit (byte.toNat / 16), hexDigit (byte.toNat % 16)]

/-- The value of a hexadecimal digit. -/
def hexValue (c : Char) : Option Nat :=
  let n := c.toNat
  if 0x30 ≤ n ∧ n ≤ 0x39 then some (n - 0x30)
  else if 0x61 ≤ n ∧ n ≤ 0x66 then some (n - 0x57)
  else if 0x41 ≤ n ∧ n ≤ 0x46 then some (n - 0x37)
  else none

/-- `Buffer.from(text, 'hex')`, which stops at the first pair that is none of digits. -/
def fromHex : List Char → List UInt8
  | a :: b :: rest =>
    match hexValue a, hexValue b with
    | some high, some low => UInt8.ofNat (16 * high + low) :: fromHex rest
    | _, _ => []
  | _ => []

theorem hexValue_hexDigit : ∀ n < 16, hexValue (hexDigit n) = some n := by decide

/-- Bytes can be read back from their digits. -/
theorem fromHex_toHex (bytes : List UInt8) : fromHex (toHex bytes) = bytes := by
  induction bytes with
  | nil => rfl
  | cons byte bytes ih =>
    have hhigh : byte.toNat / 16 < 16 := Nat.div_lt_of_lt_mul byte.toNat_lt
    have hbyte : 16 * (byte.toNat / 16) + byte.toNat % 16 = byte.toNat := Nat.div_add_mod _ 16
    change fromHex (hexDigit _ :: hexDigit _ :: toHex bytes) = byte :: bytes
    simp [fromHex, hexValue_hexDigit _ hhigh, hexValue_hexDigit _ (Nat.mod_lt _ _), hbyte, ih]

/-- A digit of `toString('base64url')`. -/
def base64urlDigit (n : Nat) : Char :=
  "ABCDEFGHIJKLMNOPQRSTUVWXYZabcdefghijklmnopqrstuvwxyz0123456789-_".toList.getD n 'A'

/-- `bytes.toString('base64url')`: three bytes are four digits, and there is no padding. -/
def base64url : List UInt8 → List Char
  | a :: b :: c :: rest =>
    let n := a.toNat * 0x10000 + b.toNat * 0x100 + c.toNat
    base64urlDigit (n / 0x40000) :: base64urlDigit (n / 0x1000 % 0x40) ::
      base64urlDigit (n / 0x40 % 0x40) :: base64urlDigit (n % 0x40) :: base64url rest
  | [a, b] =>
    let n := a.toNat * 0x400 + b.toNat * 4
    [base64urlDigit (n / 0x1000), base64urlDigit (n / 0x40 % 0x40), base64urlDigit (n % 0x40)]
  | [a] => [base64urlDigit (a.toNat / 4), base64urlDigit (a.toNat % 4 * 16)]
  | [] => []

/-- No digit is a blank. -/
theorem hexDigit_plain (n : Nat) : Text.isWhitespace (hexDigit n) = false := by
  by_cases h : n < 16
  · revert n
    decide
  · rw [hexDigit, List.getD_eq_default _ _ (Nat.le_of_not_lt h)]
    rfl

theorem base64urlDigit_plain (n : Nat) : Text.isWhitespace (base64urlDigit n) = false := by
  by_cases h : n < 64
  · revert n
    decide +kernel
  · rw [base64urlDigit, List.getD_eq_default _ _ (Nat.le_of_not_lt h)]
    rfl

theorem toHex_plain (bytes : List UInt8) : ∀ c ∈ toHex bytes, Text.isWhitespace c = false := by
  intro c hc
  obtain ⟨byte, -, hc⟩ := List.mem_flatMap.mp hc
  simp only [List.mem_cons, List.not_mem_nil, or_false] at hc
  rcases hc with rfl | rfl <;> exact hexDigit_plain _

theorem base64url_plain (bytes : List UInt8) :
    ∀ c ∈ base64url bytes, Text.isWhitespace c = false := by
  induction bytes using base64url.induct with
  | case1 a b c rest ih => simpa [base64url, base64urlDigit_plain] using ih
  | case2 a b => simp [base64url, base64urlDigit_plain]
  | case3 a => simp [base64url, base64urlDigit_plain]
  | case4 => simp [base64url]

/-! ## Keys -/

section Hashing

variable (sha256 : String → List UInt8)

/-- `API_KEY_NAMESPACE`. -/
def apiKeyNamespace : String := "fp"

/-- `API_KEY_PREFIX_LENGTH`. -/
abbrev apiKeyPrefixLength : Nat := 8

/-- `API_KEY_SECRET_BYTES`. -/
abbrev apiKeySecretBytes : Nat := 32

/-- `hashApiKey`; the parameter is `createHash('sha256').update(text, 'utf8').digest()`. -/
def hashApiKey (plaintextKey : String) : String := String.ofList (toHex (sha256 plaintextKey))

/-- `GeneratedApiKey`. -/
structure GeneratedApiKey where
  /-- the key itself -/
  plaintextKey : String
  /-- what an operator knows it by -/
  keyPrefix : Units
  /-- its digest -/
  keyHash : String
  deriving DecidableEq, Repr

/-- The text of `generateApiKey`, from the random bytes. -/
def generatedText (prefixBytes : Vector UInt8 apiKeyPrefixLength)
    (secretBytes : Vector UInt8 apiKeySecretBytes) : String :=
  String.ofList (apiKeyNamespace.toList ++ '_' ::
    ((toHex prefixBytes.toList).take apiKeyPrefixLength ++ '_' :: base64url secretBytes.toList))

/-- `generateApiKey`, from the random bytes. -/
def generateApiKey (prefixBytes : Vector UInt8 apiKeyPrefixLength)
    (secretBytes : Vector UInt8 apiKeySecretBytes) : GeneratedApiKey where
  plaintextKey := generatedText prefixBytes secretBytes
  keyPrefix := utf16 (String.ofList ((toHex prefixBytes.toList).take apiKeyPrefixLength))
  keyHash := hashApiKey sha256 (generatedText prefixBytes secretBytes)

/-- A generated key is not changed by trimming. -/
theorem trim_generatedText (prefixBytes : Vector UInt8 apiKeyPrefixLength)
    (secretBytes : Vector UInt8 apiKeySecretBytes) :
    Text.trim (generatedText prefixBytes secretBytes) = generatedText prefixBytes secretBytes := by
  have hplain : ∀ c ∈ (generatedText prefixBytes secretBytes).toList,
      Text.isWhitespace c = false := by
    intro c hc
    rw [generatedText, String.toList_ofList] at hc
    simp only [List.mem_append, List.mem_cons] at hc
    rcases hc with hc | rfl | hc | rfl | hc
    · have hname : ("fp".toList.all fun c => !Text.isWhitespace c) = true := by decide +kernel
      simpa using List.all_eq_true.mp hname c hc
    · rfl
    · exact toHex_plain _ c (List.mem_of_mem_take hc)
    · rfl
    · exact base64url_plain _ c hc
  have htrim : Text.trimChars (generatedText prefixBytes secretBytes).toList
      = (generatedText prefixBytes secretBytes).toList :=
    Text.trimChars_eq_self.mpr ⟨fun c hc => hplain c (List.mem_of_mem_head? hc),
      fun c hc => hplain c (List.mem_of_getLast? hc)⟩
  rw [Text.trim, htrim, String.ofList_toList]

theorem generatedText_ne (prefixBytes : Vector UInt8 apiKeyPrefixLength)
    (secretBytes : Vector UInt8 apiKeySecretBytes) :
    generatedText prefixBytes secretBytes ≠ "" := by
  intro h
  have hempty := congrArg String.toList h
  rw [generatedText, String.toList_ofList] at hempty
  simp at hempty

/-- `extractApiKeyPrefix`. -/
def extractApiKeyPrefix (plaintextKey : String) : Units :=
  match plaintextKey.toList.splitOn '_' with
  | first :: segment :: _ :: _ =>
    if first = apiKeyNamespace.toList ∧ segment ≠ [] then
      (utf16 (String.ofList segment)).take apiKeyPrefixLength
    else (utf16 plaintextKey).take apiKeyPrefixLength
  | _ => (utf16 plaintextKey).take apiKeyPrefixLength

/-- `hashesMatch`. -/
def hashesMatch (candidateHash storedHash : String) : Bool :=
  let candidate := fromHex candidateHash.toList
  let stored := fromHex storedHash.toList
  if candidate.length = 0 ∨ candidate.length ≠ stored.length then false else candidate = stored

/-- A digest matches itself. -/
theorem hashesMatch_hashApiKey {key : String} (h : (sha256 key).length = 32) :
    hashesMatch (hashApiKey sha256 key) (hashApiKey sha256 key) = true := by
  simp [hashesMatch, hashApiKey, fromHex_toHex, h]

end Hashing

/-! ## The table -/

/-- A row of `api_keys`. -/
structure ApiKeyRow where
  /-- `id` -/
  id : Nat
  /-- `tenant_id` -/
  tenantId : String
  /-- `key_hash`, unique -/
  keyHash : String
  /-- `prefix` -/
  keyPrefix : Units
  /-- `label` -/
  label : Option String
  /-- `created_at` -/
  createdAt : Nat
  /-- `last_used_at` -/
  lastUsedAt : Option Nat
  /-- `revoked_at` -/
  revokedAt : Option Nat
  deriving DecidableEq, Repr

/-- `ApiKeyRecord`. -/
structure ApiKeyRecord where
  /-- id of the row -/
  id : Nat
  /-- whose key it is -/
  tenantId : String
  /-- what an operator knows it by -/
  keyPrefix : Units
  /-- its label -/
  label : Option String
  /-- when it was stored -/
  createdAt : Nat
  /-- when it was last presented -/
  lastUsedAt : Option Nat
  /-- when it was revoked -/
  revokedAt : Option Nat
  deriving DecidableEq, Repr

/-- `mapApiKey`. -/
def mapApiKey (row : ApiKeyRow) : ApiKeyRecord where
  id := row.id
  tenantId := row.tenantId
  keyPrefix := row.keyPrefix
  label := row.label
  createdAt := row.createdAt
  lastUsedAt := row.lastUsedAt
  revokedAt := row.revokedAt

/-- The table with the sequence of its ids. -/
structure ApiKeyTable where
  /-- the rows -/
  rows : List ApiKeyRow
  /-- `nextval` of the sequence -/
  nextId : Nat
  deriving DecidableEq, Repr

/-- The table the migration creates. -/
def emptyTable : ApiKeyTable where
  rows := []
  nextId := 1

/-- PostgreSQL stores no text with U+0000. -/
def storable (text : Units) : Bool := !text.contains 0

/-- Why a row is not inserted. -/
inductive InsertError
  /-- a text cannot be stored: the statement raises -/
  | invalidText
  /-- the unique index on the hash holds the key -/
  | conflict
  deriving DecidableEq, Repr

/-- `INSERT INTO api_keys (tenant_id, key_hash, prefix, label) VALUES …`. A conflict has used up an
id of the sequence. -/
def insertApiKey (table : ApiKeyTable) (now : Nat) (tenantId keyHash : String) (keyPrefix : Units)
    (label : Option String) : ApiKeyTable × Except InsertError ApiKeyRow :=
  if !(storable (utf16 tenantId) && storable keyPrefix &&
      label.all fun text => storable (utf16 text)) then
    (table, .error .invalidText)
  else if table.rows.any fun row => row.keyHash = keyHash then
    ({ table with nextId := table.nextId + 1 }, .error .conflict)
  else
    let row : ApiKeyRow :=
      { id := table.nextId, tenantId, keyHash, keyPrefix := toWellFormed keyPrefix, label,
        createdAt := now, lastUsedAt := none, revokedAt := none }
    ({ rows := table.rows ++ [row], nextId := table.nextId + 1 }, .ok row)

/-! ## The repository -/

section Repository

variable (sha256 : String → List UInt8) (table : ApiKeyTable) (now : Nat)

/-- `findActiveByHash`. -/
def findActiveByHash (keyHash : String) : Option ApiKeyRow :=
  table.rows.find? fun row => row.keyHash = keyHash && row.revokedAt.isNone

/-- `verifyApiKey`, but for the time of last use, which is written on its own. -/
def verifyApiKey (plaintextKey : String) : Option ApiKeyRecord :=
  let trimmed := Text.trim plaintextKey
  if trimmed = "" then none
  else
    let candidateHash := hashApiKey sha256 trimmed
    match findActiveByHash table candidateHash with
    | none => none
    | some found => if hashesMatch candidateHash found.keyHash then some (mapApiKey found) else none

/-- `touchLastUsed`. -/
def touchLastUsed (id : Nat) : ApiKeyTable :=
  { table with
    rows := Table.updateWhere (fun row => row.id = id)
      (fun row => { row with lastUsedAt := some now }) table.rows }

/-- `CreatedApiKey`. -/
structure CreatedApiKey where
  /-- the key, shown once -/
  plaintextKey : String
  /-- its record -/
  record : ApiKeyRecord
  deriving DecidableEq, Repr

/-- `create`; there is no answer if the statement raises. -/
def create (tenantId : String) (label : Option String)
    (prefixBytes : Vector UInt8 apiKeyPrefixLength)
    (secretBytes : Vector UInt8 apiKeySecretBytes) : ApiKeyTable × Option CreatedApiKey :=
  let generated := generateApiKey sha256 prefixBytes secretBytes
  match insertApiKey table now tenantId generated.keyHash generated.keyPrefix label with
  | (table, .ok row) => (table, some ⟨generated.plaintextKey, mapApiKey row⟩)
  | (table, .error _) => (table, none)

/-- `revoke`. -/
def revoke (id : Nat) : ApiKeyTable × Bool :=
  ({ table with
      rows := Table.updateWhere (fun row => row.id = id && row.revokedAt.isNone)
        (fun row => { row with revokedAt := some now }) table.rows },
    table.rows.any fun row => row.id = id && row.revokedAt.isNone)

/-- `seedBootstrapApiKey`; there is no answer if the statement raises. -/
def seedBootstrapApiKey (plaintextKey tenantId : String) (label : Option String) :
    ApiKeyTable × Option Bool :=
  let trimmed := Text.trim plaintextKey
  if trimmed = "" then (table, some false)
  else
    let keyHash := hashApiKey sha256 trimmed
    if table.rows.any fun row => row.keyHash = keyHash then (table, some false)
    else
      match insertApiKey table now tenantId keyHash (extractApiKeyPrefix trimmed)
        (some (label.getD "bootstrap")) with
      | (table, .ok _) => (table, some true)
      -- `ON CONFLICT (key_hash) DO NOTHING`
      | (table, .error .conflict) => (table, some false)
      | (table, .error .invalidText) => (table, none)

end Repository

end ApiKeys

end Feedpulse
