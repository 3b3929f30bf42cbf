import Feedpulse.BoundedMemo
import Feedpulse.KeyVersionUpgrade

/-!
# Derived keys that are kept

`TenantSecretsService` derives the key of a cipher from the master key, which takes scrypt a tenth
of a second, and keeps what it has derived in a memo of the process. The keys of the memo name the
master key by a fingerprint. `served_without_memo`: whatever was asked of a process before, under
whichever master keys, a token is enciphered and deciphered as if each key were derived anew, which
is how the rest of this development speaks of secrets, as long as no two master keys in use have one
fingerprint; and the memo never keeps more than eight keys.
-/

namespace Feedpulse

/-- What the service uses of `node:crypto`. -/
structure CryptoRuntime where
  /-- `createHash('sha256').update(text, 'utf8').digest()` -/
  sha256 : String → List UInt8
  /-- `digest('hex')` of the same hash -/
  sha256Hex : String → String
  /-- `scryptSync` with the salt and the cost of the service -/
  scrypt : String → List UInt8
  /-- AES-256-GCM: key, initialisation vector, plaintext, additional data; the ciphertext and the
  tag -/
  aesEncrypt : List UInt8 → String → String → Option String → String × String
  /-- AES-256-GCM: key, initialisation vector, tag, ciphertext, additional data; the plaintext,
  unless it throws -/
  aesDecrypt : List UInt8 → String → String → String → Option String → Option String

namespace TenantSecrets

/-- `DERIVED_KEY_CACHE_LIMIT`. -/
def derivedKeyCacheLimit : Nat := 8

/-- `derivedKeyCache`. -/
abbrev DerivedKeyCache := BoundedMemo String (List UInt8)

variable (crypto : CryptoRuntime)

/-- The key of a version. -/
def deriveKey (keyVersion : Nat) (masterKey : String) : List UInt8 :=
  if keyVersion = keyVersionLegacySha256 then crypto.sha256 masterKey else crypto.scrypt masterKey

/-- What a key is kept under. -/
def cacheKey (keyVersion : Nat) (masterKey : String) : String :=
  toString keyVersion ++ ":" ++ crypto.sha256Hex masterKey

/-- `getDerivedMasterKeyOrThrow`, with a master key. -/
def getDerivedMasterKey (keyVersion : Nat) (masterKey : String) (cache : DerivedKeyCache) :
    List UInt8 × DerivedKeyCache :=
  cache.fetch derivedKeyCacheLimit (cacheKey crypto keyVersion masterKey)
    fun _ => deriveKey crypto keyVersion masterKey

/-- `encryptTelegramBotToken`, with the memo and the initialisation vector that was drawn. -/
def encryptWithCache (config : AppConfig) (tenantId token iv : String) (cache : DerivedKeyCache) :
    Except String TenantEncryptedSecret × DerivedKeyCache :=
  if tenantId = "" then (.error "tenant_secrets_tenant_id_required", cache)
  else if token = "" then (.error "tenant_telegram_token_empty", cache)
  else match config.tenantSecretsMasterKey with
    | none => (.error "tenant_secrets_master_key_missing", cache)
    | some masterKey =>
      if masterKey = "" then (.error "tenant_secrets_master_key_missing", cache)
      else
        let derived := getDerivedMasterKey crypto currentTenantSecretKeyVersion masterKey cache
        let sealed := crypto.aesEncrypt derived.1 iv token
          (some (buildAdditionalAuthenticatedData tenantId))
        (.ok
          { ciphertext := sealed.1
            iv := iv
            tag := sealed.2
            keyVersion := currentTenantSecretKeyVersion }, derived.2)

/-- `decryptTelegramBotToken`, with the memo and the failure classified. -/
def decryptWithCache (config : AppConfig) (tenantId : String) (secret : TenantEncryptedSecret)
    (cache : DerivedKeyCache) : Except TenantSecretFailureReason String × DerivedKeyCache :=
  if tenantId = "" then (.error .decryptFailed, cache)
  else if secret.keyVersion ∉ supportedKeyVersions then (.error .unknownKeyVersion, cache)
  else match config.tenantSecretsMasterKey with
    | none => (.error .masterKeyMissing, cache)
    | some masterKey =>
      if masterKey = "" then (.error .masterKeyMissing, cache)
      else
        let derived := getDerivedMasterKey crypto secret.keyVersion masterKey cache
        let aad := if secret.keyVersion = keyVersionScryptAad then
          some (buildAdditionalAuthenticatedData tenantId) else none
        match crypto.aesDecrypt derived.1 secret.iv secret.tag secret.ciphertext aad with
        | none => (.error .decryptFailed, derived.2)
        | some plaintext =>
          if plaintext = "" then (.error .decryptFailed, derived.2) else (.ok plaintext, derived.2)

/-- The runtime in which each key is derived anew. -/
def derivingRuntime (rt : Runtime) : SecretsRuntime :=
  { rt with
    encipher := fun masterKey keyVersion iv plaintext aad =>
      crypto.aesEncrypt (deriveKey crypto keyVersion masterKey) iv plaintext aad
    decipher := fun masterKey keyVersion iv tag ciphertext aad =>
      crypto.aesDecrypt (deriveKey crypto keyVersion masterKey) iv tag ciphertext aad }

/-! ## A process -/

/-- A call of the service; the master key is read from the configuration each time. -/
inductive SecretsCall
  /-- `encryptTelegramBotToken` -/
  | encrypt (config : AppConfig) (tenantId token iv : String)
  /-- `decryptTelegramBotToken` -/
  | decrypt (config : AppConfig) (tenantId : String) (secret : TenantEncryptedSecret)

/-- The configuration of a call. -/
def SecretsCall.config : SecretsCall → AppConfig
  | .encrypt config .. => config
  | .decrypt config .. => config

/-- What a call makes of the memo. -/
def SecretsCall.cacheAfter : SecretsCall → DerivedKeyCache → DerivedKeyCache
  | .encrypt config tenantId token iv, cache =>
    (encryptWithCache crypto config tenantId token iv cache).2
  | .decrypt config tenantId secret, cache =>
    (decryptWithCache crypto config tenantId secret cache).2

/-- The memo of a process after some calls. -/
def cacheAfter (calls : List SecretsCall) : DerivedKeyCache :=
  calls.foldl (fun cache call => call.cacheAfter crypto cache) .empty

/-- Fingerprints tell master keys apart. -/
def ToldApart (masterKeys : List String) : Prop :=
  ∀ a ∈ masterKeys, ∀ b ∈ masterKeys, crypto.sha256Hex a = crypto.sha256Hex b → a = b

/-- What is kept under a key is what is derived of the master key it names. -/
def Derived (masterKeys : List String) (key : String) (value : List UInt8) : Prop :=
  ∃ keyVersion ∈ supportedKeyVersions, ∃ masterKey ∈ masterKeys,
    key = cacheKey crypto keyVersion masterKey ∧ value = deriveKey crypto keyVersion masterKey

variable {crypto} {masterKeys : List String} {cache : DerivedKeyCache}

/-- A key of the memo names its version and its fingerprint. -/
theorem cacheKey_inj {keyVersion keyVersion' : Nat} {a b : String}
    (hv : keyVersion ∈ supportedKeyVersions) (hv' : keyVersion' ∈ supportedKeyVersions)
    (h : cacheKey crypto keyVersion a = cacheKey crypto keyVersion' b) :
    keyVersion = keyVersion' ∧ crypto.sha256Hex a = crypto.sha256Hex b := by
  -- one digit, a colon, and the fingerprint
  have hlength : ∀ v ∈ supportedKeyVersions, (toString v).toList.length = 1 := by decide
  have hdigit : ∀ v ∈ supportedKeyVersions, ∀ v' ∈ supportedKeyVersions,
      (toString v).toList = (toString v').toList → v = v' := by decide
  have hchars := congrArg String.toList h
  simp only [cacheKey, String.toList_append, List.append_assoc] at hchars
  obtain ⟨hversion, hrest⟩ := List.append_inj hchars
    ((hlength keyVersion hv).trans (hlength keyVersion' hv').symm)
  exact ⟨hdigit keyVersion hv keyVersion' hv' hversion,
    String.toList_inj.mp (List.append_cancel_left hrest)⟩

/-- **The key that is found or derived** is the one that is derived. -/
theorem getDerivedMasterKey_eq (hapart : ToldApart crypto masterKeys)
    (h : cache.Sound derivedKeyCacheLimit (Derived crypto masterKeys)) {keyVersion : Nat}
    (hversion : keyVersion ∈ supportedKeyVersions) {masterKey : String}
    (hmem : masterKey ∈ masterKeys) :
    (getDerivedMasterKey crypto keyVersion masterKey cache).1
        = deriveKey crypto keyVersion masterKey ∧
      (getDerivedMasterKey crypto keyVersion masterKey cache).2.Sound derivedKeyCacheLimit
        (Derived crypto masterKeys) := by
  refine h.fetch (by decide) ⟨keyVersion, hversion, masterKey, hmem, rfl, rfl⟩ ?_
  rintro cached ⟨keyVersion', hversion', masterKey', hmem', hkey, rfl⟩
  obtain ⟨rfl, hprint⟩ := cacheKey_inj hversion hversion' hkey
  rw [hapart masterKey hmem masterKey' hmem' hprint]

/-- **Enciphering with the memo.** -/
theorem encryptWithCache_eq (rt : Runtime) (hapart : ToldApart crypto masterKeys)
    (h : cache.Sound derivedKeyCacheLimit (Derived crypto masterKeys)) {config : AppConfig}
    (hconfig : ∀ masterKey ∈ config.tenantSecretsMasterKey, masterKey ∈ masterKeys)
    (tenantId token iv : String) :
    (encryptWithCache crypto config tenantId token iv cache).1
        = encryptTelegramBotToken config (derivingRuntime crypto rt) tenantId token iv ∧
      (encryptWithCache crypto config tenantId token iv cache).2.Sound derivedKeyCacheLimit
        (Derived crypto masterKeys) := by
  unfold encryptWithCache encryptTelegramBotToken
  split
  · exact ⟨rfl, h⟩
  split
  · exact ⟨rfl, h⟩
  rcases hmaster : config.tenantSecretsMasterKey with _ | masterKey
  · exact ⟨rfl, h⟩
  dsimp only
  split
  · exact ⟨rfl, h⟩
  obtain ⟨hkey, hsound⟩ := getDerivedMasterKey_eq hapart h
    (by decide : currentTenantSecretKeyVersion ∈ supportedKeyVersions)
    (hconfig masterKey hmaster)
  dsimp only
  rw [hkey]
  exact ⟨rfl, hsound⟩

/-- **Deciphering with the memo.** -/
theorem decryptWithCache_eq (rt : Runtime) (hapart : ToldApart crypto masterKeys)
    (h : cache.Sound derivedKeyCacheLimit (Derived crypto masterKeys)) {config : AppConfig}
    (hconfig : ∀ masterKey ∈ config.tenantSecretsMasterKey, masterKey ∈ masterKeys)
    (tenantId : String) (secret : TenantEncryptedSecret) :
    (decryptWithCache crypto config tenantId secret cache).1
        = decryptTelegramBotToken config (derivingRuntime crypto rt).toRuntime tenantId secret ∧
      (decryptWithCache crypto config tenantId secret cache).2.Sound derivedKeyCacheLimit
        (Derived crypto masterKeys) := by
  unfold decryptWithCache decryptTelegramBotToken
  split
  · exact ⟨rfl, h⟩
  split
  · exact ⟨rfl, h⟩
  rename_i hversion
  rcases hmaster : config.tenantSecretsMasterKey with _ | masterKey
  · exact ⟨rfl, h⟩
  dsimp only
  split
  · exact ⟨rfl, h⟩
  obtain ⟨hkey, hsound⟩ := getDerivedMasterKey_eq hapart h (not_not.mp hversion)
    (hconfig masterKey hmaster)
  dsimp only [derivingRuntime]
  rw [hkey]
  generalize crypto.aesDecrypt _ _ _ _ _ = opened
  rcases opened with _ | plaintext
  · exact ⟨rfl, hsound⟩
  · dsimp only
    split <;> exact ⟨rfl, hsound⟩

/-- The master keys of calls. -/
def masterKeysOf (calls : List SecretsCall) : List String :=
  calls.filterMap fun call => call.config.tenantSecretsMasterKey

theorem sound_cacheAfter (rt : Runtime) (hapart : ToldApart crypto masterKeys)
    {calls : List SecretsCall} (hcalls : ∀ masterKey ∈ masterKeysOf calls, masterKey ∈ masterKeys) :
    (cacheAfter crypto calls).Sound derivedKeyCacheLimit (Derived crypto masterKeys) := by
  have hrun : ∀ (calls : List SecretsCall) (cache : DerivedKeyCache),
      (∀ masterKey ∈ masterKeysOf calls, masterKey ∈ masterKeys) →
      cache.Sound derivedKeyCacheLimit (Derived crypto masterKeys) →
      (calls.foldl (fun cache call => call.cacheAfter crypto cache) cache).Sound
        derivedKeyCacheLimit (Derived crypto masterKeys) := by
    intro calls
    induction calls with
    | nil => exact fun _ _ h => h
    | cons call calls ih =>
      intro cache hcalls h
      have hconfig : ∀ masterKey ∈ call.config.tenantSecretsMasterKey, masterKey ∈ masterKeys :=
        fun masterKey hmaster => hcalls masterKey
          (List.mem_filterMap.mpr ⟨call, List.mem_cons_self, hmaster⟩)
      refine ih _ (fun masterKey hmem => hcalls masterKey ?_) ?_
      · obtain ⟨later, hlater, hmaster⟩ := List.mem_filterMap.mp hmem
        exact List.mem_filterMap.mpr ⟨later, List.mem_cons_of_mem _ hlater, hmaster⟩
      · cases call with
        | encrypt config tenantId token iv =>
          exact (encryptWithCache_eq rt hapart h hconfig ..).2
        | decrypt config tenantId secret =>
          exact (decryptWithCache_eq rt hapart h hconfig ..).2
  exact hrun calls .empty hcalls BoundedMemo.sound_empty

/-- **Keeping the keys changes no answer.** Whatever was asked of the process before, under
whichever master keys, a call is answered as if every key were derived anew, as long as the
fingerprints tell the master keys in use apart; and no more than eight keys are kept. -/
theorem served_without_memo (rt : Runtime) (earlier : List SecretsCall) (call : SecretsCall)
    (hapart : ToldApart crypto (masterKeysOf (call :: earlier))) :
    (∀ config tenantId token iv, call = .encrypt config tenantId token iv →
      (encryptWithCache crypto config tenantId token iv (cacheAfter crypto earlier)).1
        = encryptTelegramBotToken config (derivingRuntime crypto rt) tenantId token iv) ∧
    (∀ config tenantId secret, call = .decrypt config tenantId secret →
      (decryptWithCache crypto config tenantId secret (cacheAfter crypto earlier)).1
        = decryptTelegramBotToken config (derivingRuntime crypto rt).toRuntime tenantId secret) ∧
    (cacheAfter crypto earlier).entries.length ≤ derivedKeyCacheLimit := by
  have hearlier : ∀ masterKey ∈ masterKeysOf earlier,
      masterKey ∈ masterKeysOf (call :: earlier) := by
    intro masterKey hmem
    obtain ⟨other, hother, hmaster⟩ := List.mem_filterMap.mp hmem
    exact List.mem_filterMap.mpr ⟨other, List.mem_cons_of_mem _ hother, hmaster⟩
  have hconfig : ∀ masterKey ∈ call.config.tenantSecretsMasterKey,
      masterKey ∈ masterKeysOf (call :: earlier) := fun masterKey hmaster =>
    List.mem_filterMap.mpr ⟨call, List.mem_cons_self, hmaster⟩
  have hsound := sound_cacheAfter rt hapart hearlier
  refine ⟨?_, ?_, hsound.bounded⟩
  · rintro config tenantId token iv rfl
    exact (encryptWithCache_eq rt hapart hsound hconfig tenantId token iv).1
  · rintro config tenantId secret rfl
    exact (decryptWithCache_eq rt hapart hsound hconfig tenantId secret).1

/-- Keys that are the text behind a digit, and a cipher that puts the key before the text. -/
def toyCrypto : CryptoRuntime where
  sha256 text := 1 :: text.toUTF8.toList
  sha256Hex text := text
  scrypt text := 2 :: text.toUTF8.toList
  aesEncrypt key iv plaintext aad := (toString key ++ iv ++ plaintext, aad.getD "")
  aesDecrypt key iv tag ciphertext aad :=
    if tag = aad.getD "" then some (String.ofList
      (ciphertext.toList.drop (toString key ++ iv).toList.length)) else none

/-- A master key, and another. -/
def rotated : AppConfig := { SecretStore.withMasterKey with tenantSecretsMasterKey := some "b" }

/-- A token is enciphered under each of them. -/
def rotation : List SecretsCall :=
  [.encrypt SecretStore.withMasterKey "t" "123:x" "iv", .encrypt rotated "t" "123:x" "iv"]

theorem served_without_memo_rotated :
    (encryptWithCache toyCrypto rotated "t" "123:y" "iw" (cacheAfter toyCrypto rotation)).1
      = encryptTelegramBotToken rotated (derivingRuntime toyCrypto SecretStore.prefixing.toRuntime)
        "t" "123:y" "iw" := by
  have hapart : ToldApart toyCrypto
      (masterKeysOf (.encrypt rotated "t" "123:y" "iw" :: rotation)) :=
    fun _ _ _ _ h => h
  exact (served_without_memo SecretStore.prefixing.toRuntime rotation _ hapart).1 _ _ _ _ rfl

end TenantSecrets

end Feedpulse
