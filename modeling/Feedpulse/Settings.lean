import Feedpulse.Config
import Feedpulse.Table

/-!
# Tenant settings and secrets

The settings row of a tenant, the decryption of its bot token, and the decision
which bot token a tenant's Telegram messages are sent with.
-/

namespace Feedpulse

/-! ## Rows -/

/-- `telegram_delivery_mode`. -/
inductive TelegramDeliveryMode
  /-- one message per alert -/
  | instant
  /-- alerts are collected for ten minutes -/
  | digest10m
  deriving DecidableEq, Repr

/-- `TenantEncryptedSecret`. -/
structure TenantEncryptedSecret where
  /-- the ciphertext in base64 -/
  ciphertext : String
  /-- the initialisation vector in base64 -/
  iv : String
  /-- the authentication tag in base64 -/
  tag : String
  /-- which derivation of the master key was used -/
  keyVersion : Nat
  deriving DecidableEq, Repr

/-- A row of `tenant_settings`. -/
structure TenantSettingsRow where
  /-- primary key -/
  tenantId : String
  /-- the tenant's webhook endpoint -/
  webhookNotifierUrl : Option String
  /-- recipients of alert mails -/
  recipientEmails : List String
  /-- chats alerts are sent to -/
  telegramChatIds : List String
  /-- instant messages or digests -/
  telegramDeliveryMode : TelegramDeliveryMode
  /-- encrypted bot token: ciphertext -/
  telegramBotTokenCiphertext : Option String
  /-- encrypted bot token: initialisation vector -/
  telegramBotTokenIv : Option String
  /-- encrypted bot token: tag -/
  telegramBotTokenTag : Option String
  /-- encrypted bot token: key version -/
  telegramBotTokenKeyVersion : Option Nat
  deriving DecidableEq, Repr

/-- `TenantSettings`, as far as delivery reads it. -/
structure TenantSettings where
  /-- the tenant -/
  tenantId : String
  /-- the tenant's webhook endpoint -/
  webhookNotifierUrl : Option String
  /-- recipients of alert mails -/
  recipientEmails : List String
  /-- chats alerts are sent to -/
  telegramChatIds : List String
  /-- instant messages or digests -/
  telegramDeliveryMode : TelegramDeliveryMode
  /-- the encrypted bot token, if one is stored -/
  telegramBotTokenEncrypted : Option TenantEncryptedSecret
  deriving DecidableEq, Repr

namespace Settings

/-- `DEFAULT_TELEGRAM_DELIVERY_MODE`. -/
def defaultTelegramDeliveryMode : TelegramDeliveryMode := .instant

/-- `KEY_VERSION_WHEN_NO_CIPHERTEXT`. -/
def keyVersionWhenNoCiphertext : Nat := 1

/-- `mapTelegramBotTokenEncrypted`: the secret is there only if all its parts are. -/
def mapTelegramBotTokenEncrypted (row : TenantSettingsRow) : Option TenantEncryptedSecret :=
  match row.telegramBotTokenCiphertext, row.telegramBotTokenIv, row.telegramBotTokenTag with
  | some ciphertext, some iv, some tag =>
    if ciphertext = "" || iv = "" || tag = "" then none
    else some
      { ciphertext := ciphertext
        iv := iv
        tag := tag
        keyVersion := row.telegramBotTokenKeyVersion.getD keyVersionWhenNoCiphertext }
  | _, _, _ => none

/-- `mapTenantSettings`. -/
def mapTenantSettings (row : TenantSettingsRow) : TenantSettings :=
  { tenantId := row.tenantId
    webhookNotifierUrl := row.webhookNotifierUrl
    recipientEmails := row.recipientEmails
    telegramChatIds := row.telegramChatIds
    telegramDeliveryMode := row.telegramDeliveryMode
    telegramBotTokenEncrypted := mapTelegramBotTokenEncrypted row }

/-- `getByTenantId`. -/
def getByTenantId (tenantId : String) (rows : List TenantSettingsRow) : Option TenantSettings :=
  (Table.lookup TenantSettingsRow.tenantId tenantId rows).map mapTenantSettings

end Settings

/-! ## Secrets -/

/-- `TenantSecretFailureReason`. -/
inductive TenantSecretFailureReason
  /-- no master key is configured -/
  | masterKeyMissing
  /-- the ciphertext names an unsupported key version -/
  | unknownKeyVersion
  /-- the ciphertext does not open -/
  | decryptFailed
  deriving DecidableEq, Repr

namespace TenantSecrets

/-- `TENANT_SECRET_KEY_VERSION_LEGACY_SHA256`. -/
def keyVersionLegacySha256 : Nat := 1

/-- `TENANT_SECRET_KEY_VERSION_SCRYPT_AAD`. -/
def keyVersionScryptAad : Nat := 2

/-- `SUPPORTED_KEY_VERSIONS`. -/
def supportedKeyVersions : List Nat := [keyVersionLegacySha256, keyVersionScryptAad]

/-- `buildAdditionalAuthenticatedData`. -/
def buildAdditionalAuthenticatedData (tenantId : String) : String :=
  "feedpulse:telegram_bot_token:" ++ tenantId

/-- `decryptTelegramBotToken`, with the failure classified as `classifyFailure` does. -/
def decryptTelegramBotToken (config : AppConfig) (rt : Runtime) (tenantId : String)
    (secret : TenantEncryptedSecret) : Except TenantSecretFailureReason String :=
  if tenantId = "" then .error .decryptFailed
  else if secret.keyVersion ∉ supportedKeyVersions then .error .unknownKeyVersion
  else match config.tenantSecretsMasterKey with
    | none => .error .masterKeyMissing
    | some masterKey =>
      if masterKey = "" then .error .masterKeyMissing
      else
        let aad := if secret.keyVersion = keyVersionScryptAad then
          some (buildAdditionalAuthenticatedData tenantId) else none
        match rt.decipher masterKey secret.keyVersion secret.iv secret.tag secret.ciphertext
          aad with
        | none => .error .decryptFailed
        | some plaintext => if plaintext = "" then .error .decryptFailed else .ok plaintext

/-- A decrypted token is not empty. -/
theorem decrypt_ne_empty {config : AppConfig} {rt : Runtime} {tenantId token : String}
    {secret : TenantEncryptedSecret}
    (h : decryptTelegramBotToken config rt tenantId secret = .ok token) : token ≠ "" := by
  unfold decryptTelegramBotToken at h
  split at h
  · cases h
  split at h
  · cases h
  split at h
  · cases h
  split at h
  · cases h
  dsimp only at h
  split at h
  · cases h
  split at h
  · cases h
  · rename_i hne
    obtain rfl := Except.ok.inj h
    exact hne

end TenantSecrets

/-! ## The bot token of a tenant -/

/-- `TelegramBotTokenSource`. -/
inductive TelegramBotTokenSource
  /-- the tenant's own bot -/
  | tenant
  /-- the shared bot of the operator -/
  | global
  /-- no bot -/
  | none
  deriving DecidableEq, Repr

/-- `TelegramBotTokenResolution`. -/
structure TelegramBotTokenResolution where
  /-- the token, if there is one -/
  token : Option String
  /-- where it comes from -/
  source : TelegramBotTokenSource
  /-- why the stored token could not be opened -/
  failureReason : Option TenantSecretFailureReason
  deriving DecidableEq, Repr

namespace TelegramBotTokenResolver

/-- `resolveDetailedForTenant`. -/
def resolveDetailedForTenant (config : AppConfig) (rt : Runtime) (tenantId : String)
    (settings : Option TenantSettings) : TelegramBotTokenResolution :=
  match settings.bind TenantSettings.telegramBotTokenEncrypted with
  | none =>
    { token := config.telegramBotToken
      source := if Text.truthy config.telegramBotToken then .global else .none
      failureReason := none }
  | some encrypted =>
    match TenantSecrets.decryptTelegramBotToken config rt tenantId encrypted with
    | .ok token => { token := some token, source := .tenant, failureReason := none }
    | .error reason => { token := none, source := .none, failureReason := some reason }

/-- `resolveForTenant`. -/
def resolveForTenant (config : AppConfig) (rt : Runtime) (tenantId : String)
    (settings : Option TenantSettings) : Option String :=
  (resolveDetailedForTenant config rt tenantId settings).token

/-- **The resolver itself never answers with the shared bot for a tenant whose token
does not open.** -/
theorem resolve_of_decrypt_error {config : AppConfig} {rt : Runtime} {tenantId : String}
    {settings : TenantSettings} {secret : TenantEncryptedSecret}
    {reason : TenantSecretFailureReason}
    (hs : settings.telegramBotTokenEncrypted = some secret)
    (he : TenantSecrets.decryptTelegramBotToken config rt tenantId secret = .error reason) :
    resolveDetailedForTenant config rt tenantId (some settings) =
      { token := none, source := .none, failureReason := some reason } := by
  simp [resolveDetailedForTenant, hs, he]

end TelegramBotTokenResolver

end Feedpulse
