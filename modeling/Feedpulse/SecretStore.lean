import Feedpulse.Settings
import Feedpulse.Transition
import Mathlib.Logic.Function.Basic

/-!
# Bot tokens in the settings table

The two statements that write the encrypted bot token of a tenant, and the processes that issue
them: settings requests, which set a token, clear it or leave it, and readers, which encrypt a
token anew when they meet one under an old key version. A statement that has been issued takes
effect at any later time, or never.
-/

namespace Feedpulse

/-- The runtime with both directions of the cipher. -/
structure SecretsRuntime extends Runtime where
  /-- AES-256-GCM: master key, key version, initialisation vector, plaintext, additional data;
  the answer is the ciphertext and the tag, in base64 -/
  encipher : String → Nat → String → String → Option String → String × String

/-- What is relied on of the cipher. -/
structure SecretsRuntime.Opens (rt : SecretsRuntime) : Prop where
  /-- deciphering undoes enciphering -/
  undoes : ∀ masterKey version iv plaintext aad,
    rt.decipher masterKey version iv (rt.encipher masterKey version iv plaintext aad).2
      (rt.encipher masterKey version iv plaintext aad).1 aad = some plaintext
  /-- there is no ciphertext of length zero but for the empty plaintext -/
  ciphertext : ∀ masterKey version iv plaintext aad, plaintext ≠ "" →
    (rt.encipher masterKey version iv plaintext aad).1 ≠ ""
  /-- a tag has sixteen bytes -/
  tag : ∀ masterKey version iv plaintext aad,
    (rt.encipher masterKey version iv plaintext aad).2 ≠ ""

namespace TenantSecrets

/-- `CURRENT_TENANT_SECRET_KEY_VERSION`. -/
def currentTenantSecretKeyVersion : Nat := keyVersionScryptAad

/-- `encryptTelegramBotToken`, with the initialisation vector `randomBytes` has drawn. -/
def encryptTelegramBotToken (config : AppConfig) (rt : SecretsRuntime)
    (tenantId token iv : String) : Except String TenantEncryptedSecret :=
  if tenantId = "" then .error "tenant_secrets_tenant_id_required"
  else if token = "" then .error "tenant_telegram_token_empty"
  else match config.tenantSecretsMasterKey with
    | none => .error "tenant_secrets_master_key_missing"
    | some masterKey =>
      if masterKey = "" then .error "tenant_secrets_master_key_missing"
      else
        let enciphered := rt.encipher masterKey currentTenantSecretKeyVersion iv token
          (some (buildAdditionalAuthenticatedData tenantId))
        .ok
          { ciphertext := enciphered.1
            iv := iv
            tag := enciphered.2
            keyVersion := currentTenantSecretKeyVersion }

/-- The secret is the token enciphered for the tenant under the key version it names. -/
def IsMade (config : AppConfig) (rt : SecretsRuntime) (tenantId token : String)
    (secret : TenantEncryptedSecret) : Prop :=
  ∃ masterKey, config.tenantSecretsMasterKey = some masterKey ∧
    rt.encipher masterKey secret.keyVersion secret.iv token
        (if secret.keyVersion = keyVersionScryptAad then
          some (buildAdditionalAuthenticatedData tenantId) else none)
      = (secret.ciphertext, secret.tag)

/-- `needsKeyVersionUpgrade`. -/
def needsKeyVersionUpgrade (secret : TenantEncryptedSecret) : Bool :=
  secret.keyVersion ≠ currentTenantSecretKeyVersion

end TenantSecrets

/-! ## The statements -/

/-- `TenantTelegramBotTokenOperation`. -/
inductive TelegramBotTokenOperation
  /-- the token stays -/
  | unchanged
  /-- the token is removed -/
  | clear
  /-- the token is replaced -/
  | set
  deriving DecidableEq, Repr

/-- The input of `upsertNotifierSettings`. -/
structure NotifierSettings where
  /-- the tenant -/
  tenantId : String
  /-- the tenant's webhook endpoint -/
  webhookNotifierUrl : Option String
  /-- recipients of alert mails -/
  recipientEmails : List String
  /-- chats alerts are sent to -/
  telegramChatIds : List String
  /-- instant messages or digests -/
  telegramDeliveryMode : TelegramDeliveryMode
  /-- what happens to the token -/
  telegramBotTokenOperation : TelegramBotTokenOperation
  /-- the new token -/
  telegramBotTokenEncrypted : Option TenantEncryptedSecret
  deriving DecidableEq, Repr

namespace SettingsRepository

/-- The row the upsert inserts. -/
def insertedRow (input : NotifierSettings) : TenantSettingsRow :=
  { tenantId := input.tenantId
    webhookNotifierUrl := input.webhookNotifierUrl
    recipientEmails := input.recipientEmails
    telegramChatIds := input.telegramChatIds
    telegramDeliveryMode := input.telegramDeliveryMode
    telegramBotTokenCiphertext :=
      input.telegramBotTokenEncrypted.map TenantEncryptedSecret.ciphertext
    telegramBotTokenIv := input.telegramBotTokenEncrypted.map TenantEncryptedSecret.iv
    telegramBotTokenTag := input.telegramBotTokenEncrypted.map TenantEncryptedSecret.tag
    telegramBotTokenKeyVersion := some
      ((input.telegramBotTokenEncrypted.map TenantEncryptedSecret.keyVersion).getD
        Settings.keyVersionWhenNoCiphertext) }

/-- `CASE WHEN $6 = 'set' THEN … WHEN $6 = 'clear' THEN NULL ELSE … END`. -/
def tokenColumn (operation : TelegramBotTokenOperation) (excluded stored : Option String) :
    Option String :=
  match operation with
  | .set => excluded
  | .clear => none
  | .unchanged => stored

/-- What `DO UPDATE SET` makes of a row. -/
def updatedRow (input : NotifierSettings) (row : TenantSettingsRow) : TenantSettingsRow :=
  let excluded := insertedRow input
  let operation := input.telegramBotTokenOperation
  { row with
    webhookNotifierUrl := excluded.webhookNotifierUrl
    recipientEmails := excluded.recipientEmails
    telegramChatIds := excluded.telegramChatIds
    telegramDeliveryMode := excluded.telegramDeliveryMode
    telegramBotTokenCiphertext := tokenColumn operation excluded.telegramBotTokenCiphertext
      row.telegramBotTokenCiphertext
    telegramBotTokenIv := tokenColumn operation excluded.telegramBotTokenIv row.telegramBotTokenIv
    telegramBotTokenTag :=
      tokenColumn operation excluded.telegramBotTokenTag row.telegramBotTokenTag
    telegramBotTokenKeyVersion :=
      if operation = .set then excluded.telegramBotTokenKeyVersion
      else row.telegramBotTokenKeyVersion }

/-- `upsertNotifierSettings`. -/
def upsertNotifierSettings (input : NotifierSettings) (rows : List TenantSettingsRow) :
    List TenantSettingsRow :=
  match Table.lookup TenantSettingsRow.tenantId input.tenantId rows with
  | none => rows ++ [insertedRow input]
  | some _ => Table.updateWhere (fun r => r.tenantId = input.tenantId) (updatedRow input) rows

/-- The `WHERE` clause of `upgradeTelegramBotTokenKeyVersion`. -/
def isExpected (tenantId : String) (expected : TenantEncryptedSecret) (row : TenantSettingsRow) :
    Bool :=
  row.tenantId = tenantId && row.telegramBotTokenCiphertext = some expected.ciphertext &&
    row.telegramBotTokenKeyVersion = some expected.keyVersion

/-- The row with another secret. -/
def withSecret (encrypted : TenantEncryptedSecret) (row : TenantSettingsRow) :
    TenantSettingsRow :=
  { row with
    telegramBotTokenCiphertext := some encrypted.ciphertext
    telegramBotTokenIv := some encrypted.iv
    telegramBotTokenTag := some encrypted.tag
    telegramBotTokenKeyVersion := some encrypted.keyVersion }

/-- `upgradeTelegramBotTokenKeyVersion`. -/
def upgradeTelegramBotTokenKeyVersion (tenantId : String)
    (expected encrypted : TenantEncryptedSecret) (rows : List TenantSettingsRow) :
    List TenantSettingsRow :=
  Table.updateWhere (isExpected tenantId expected) (withSecret encrypted) rows

end SettingsRepository

/-! ## Settings requests -/

/-- The input of `UpdateSettingsUseCase`. A token may be missing, null or a text. -/
structure UpdateSettingsInput where
  /-- the tenant -/
  tenantId : String
  /-- the tenant's webhook endpoint -/
  webhookNotifierUrl : Option String
  /-- recipients of alert mails -/
  recipientEmails : List String
  /-- chats alerts are sent to -/
  telegramChatIds : List String
  /-- instant messages or digests -/
  telegramDeliveryMode : TelegramDeliveryMode
  /-- the new token -/
  telegramBotToken : Option (Option String)
  /-- whether the token is to be removed -/
  clearTelegramBotToken : Bool
  deriving DecidableEq, Repr

namespace UpdateSettings

/-- `resolveTokenOperation`. -/
def resolveTokenOperation (input : UpdateSettingsInput) : TelegramBotTokenOperation :=
  if input.clearTelegramBotToken || input.telegramBotToken = some none then .clear
  else match input.telegramBotToken with
    | some (some token) => if token.length > 0 then .set else .unchanged
    | _ => .unchanged

/-- `execute` up to the statement it issues. The check of the webhook's URL, which can only
refuse the request, is left out. -/
def statement (config : AppConfig) (rt : SecretsRuntime) (input : UpdateSettingsInput)
    (iv : String) : Except String NotifierSettings :=
  let tokenOperation := resolveTokenOperation input
  let settings :=
    { tenantId := input.tenantId
      webhookNotifierUrl := input.webhookNotifierUrl
      recipientEmails := input.recipientEmails
      telegramChatIds := input.telegramChatIds
      telegramDeliveryMode := input.telegramDeliveryMode
      telegramBotTokenOperation := tokenOperation
      telegramBotTokenEncrypted := none }
  if tokenOperation = .set then
    (TenantSecrets.encryptTelegramBotToken config rt input.tenantId
      (input.telegramBotToken.join.getD "") iv).map fun encrypted =>
        { settings with telegramBotTokenEncrypted := some encrypted }
  else .ok settings

end UpdateSettings

/-! ## The system -/

/-- A statement of a settings request that has not taken effect. -/
structure PendingUpdate where
  /-- the statement -/
  settings : NotifierSettings
  /-- the token it sets -/
  token : String
  deriving DecidableEq, Repr

/-- Settings a process has read for a tenant. -/
structure SettingsSnapshot where
  /-- the process -/
  pid : Nat
  /-- the tenant -/
  tenantId : String
  /-- what was read -/
  settings : Option TenantSettings
  deriving DecidableEq, Repr

/-- An upgrade whose statement has not taken effect. -/
structure PendingUpgrade where
  /-- the process -/
  pid : Nat
  /-- the tenant -/
  tenantId : String
  /-- the secret that was read -/
  expected : TenantEncryptedSecret
  /-- what it was deciphered to -/
  plaintext : String
  /-- the secret that is to replace it -/
  encrypted : TenantEncryptedSecret
  deriving DecidableEq, Repr

/-- The settings table and what is under way. The last field only records what
has happened. -/
structure SecretStore where
  /-- table `tenant_settings` -/
  rows : List TenantSettingsRow
  /-- settings that were read and not resolved yet -/
  snapshots : List SettingsSnapshot
  /-- issued settings updates -/
  updates : List PendingUpdate
  /-- issued upgrades -/
  upgrades : List PendingUpgrade
  /-- the token a tenant has set last, none if it has cleared it or never set one -/
  lastSet : String → Option String

/-- A step. -/
inductive SecretAction
  /-- a settings request issues its statement -/
  | request (input : UpdateSettingsInput) (iv : String)
  /-- the statement takes effect -/
  | landUpdate (i : Nat)
  /-- the statement fails, or its process crashes -/
  | dropUpdate (i : Nat)
  /-- a process reads the settings of a tenant -/
  | read (pid : Nat) (tenantId : String)
  /-- it resolves the token, which may issue an upgrade -/
  | resolve (i : Nat) (iv : String)
  /-- the upgrade takes effect, if the row is the expected one -/
  | landUpgrade (i : Nat)
  /-- the upgrade fails, or its process crashes -/
  | dropUpgrade (i : Nat)
  deriving DecidableEq, Repr

namespace SecretStore

variable (config : AppConfig) (rt : SecretsRuntime)

/-- The token a tenant has after a statement. -/
def tokenAfter (u : PendingUpdate) (before : Option String) : Option String :=
  match u.settings.telegramBotTokenOperation with
  | .set => some u.token
  | .clear => none
  | .unchanged => before

/-- `resolveDetailedForTenant` with `scheduleKeyVersionUpgrade`, as far as an upgrade is issued:
a process has one upgrade of a tenant under way at most. -/
def scheduleKeyVersionUpgrade (s : SecretStore) (snapshot : SettingsSnapshot) (iv : String) :
    SecretStore :=
  match snapshot.settings.bind TenantSettings.telegramBotTokenEncrypted with
  | none => s
  | some previous =>
    match TenantSecrets.decryptTelegramBotToken config rt.toRuntime snapshot.tenantId previous with
    | .error _ => s
    | .ok plaintext =>
      if TenantSecrets.needsKeyVersionUpgrade previous &&
          !s.upgrades.any fun u => u.pid = snapshot.pid && u.tenantId = snapshot.tenantId then
        match TenantSecrets.encryptTelegramBotToken config rt snapshot.tenantId plaintext iv with
        | .error _ => s
        | .ok encrypted =>
          { s with
            upgrades := s.upgrades ++
              [{ pid := snapshot.pid
                 tenantId := snapshot.tenantId
                 expected := previous
                 plaintext := plaintext
                 encrypted := encrypted }] }
      else s

/-- One step. Initialisation vectors are not empty. -/
def step (s : SecretStore) : SecretAction → Option SecretStore
  | .request input iv =>
    if iv = "" then none
    else match UpdateSettings.statement config rt input iv with
      | .error _ => some s
      | .ok settings =>
        some
          { s with
            updates := s.updates ++
              [{ settings := settings, token := input.telegramBotToken.join.getD "" }] }
  | .landUpdate i =>
    (s.updates[i]?).map fun u =>
      { s with
        rows := SettingsRepository.upsertNotifierSettings u.settings s.rows
        updates := s.updates.eraseIdx i
        lastSet := Function.update s.lastSet u.settings.tenantId
          (tokenAfter u (s.lastSet u.settings.tenantId)) }
  | .dropUpdate i => (s.updates[i]?).map fun _ => { s with updates := s.updates.eraseIdx i }
  | .read pid tenantId =>
    some
      { s with
        snapshots := s.snapshots ++
          [{ pid := pid, tenantId := tenantId,
             settings := Settings.getByTenantId tenantId s.rows }] }
  | .resolve i iv =>
    if iv = "" then none
    else (s.snapshots[i]?).map fun snapshot =>
      scheduleKeyVersionUpgrade config rt { s with snapshots := s.snapshots.eraseIdx i } snapshot iv
  | .landUpgrade i =>
    (s.upgrades[i]?).map fun u =>
      { s with
        rows := SettingsRepository.upgradeTelegramBotTokenKeyVersion u.tenantId u.expected
          u.encrypted s.rows
        upgrades := s.upgrades.eraseIdx i }
  | .dropUpgrade i => (s.upgrades[i]?).map fun _ => { s with upgrades := s.upgrades.eraseIdx i }

/-- A row holds the token the tenant has set last, or none: it deciphers to the token, and was
made of it under the key version of the row. -/
def Keeps (s : SecretStore) (row : TenantSettingsRow) : Prop :=
  match s.lastSet row.tenantId with
  | none => Settings.mapTelegramBotTokenEncrypted row = none
  | some token => ∃ secret, Settings.mapTelegramBotTokenEncrypted row = some secret ∧
      TenantSecrets.decryptTelegramBotToken config rt.toRuntime row.tenantId secret = .ok token ∧
      TenantSecrets.IsMade config rt row.tenantId token secret

/-- The table holds the tokens the tenants have set last. -/
structure TokensKept (s : SecretStore) : Prop where
  /-- in every row -/
  rows : ∀ row ∈ s.rows, s.Keeps config rt row
  /-- a tenant without a row has none -/
  absent : ∀ tenantId, (∀ row ∈ s.rows, row.tenantId ≠ tenantId) → s.lastSet tenantId = none

/-- At the beginning nothing is under way. -/
structure Init (s : SecretStore) : Prop where
  /-- the table holds the tokens the tenants have set -/
  kept : s.TokensKept config rt
  /-- nothing was read -/
  snapshots : s.snapshots = []
  /-- no update was issued -/
  updates : s.updates = []
  /-- no upgrade was issued -/
  upgrades : s.upgrades = []

end SecretStore

end Feedpulse
