import Feedpulse.SecretStore
import Feedpulse.System

/-!
# Upgrading a key version neither loses nor resurrects a token

A reader that meets a token under an old key version issues a statement that replaces the secret
it has read by a new one. By the time the statement takes effect the tenant may have set another
token or cleared it. What is proved here: a secret under an old version is pinned, the table
holds its ciphertext under its version only as long as its token is the one set last. From that
the table holds, after any run, the tokens the tenants have set last.
-/

namespace Feedpulse

open Transition

namespace TenantSecrets

variable {config : AppConfig} {rt : SecretsRuntime} {tenantId token iv : String}
  {secret : TenantEncryptedSecret}

/-- **A secret that can be stored**: it deciphers to the token it was made of, under the current
version, and none of its columns is empty. -/
structure Seals (config : AppConfig) (rt : SecretsRuntime) (tenantId token : String)
    (secret : TenantEncryptedSecret) : Prop where
  /-- it deciphers to the token -/
  opens : decryptTelegramBotToken config rt.toRuntime tenantId secret = .ok token
  /-- it was made of the token -/
  made : IsMade config rt tenantId token secret
  /-- under the current version -/
  version : secret.keyVersion = currentTenantSecretKeyVersion
  /-- the ciphertext is stored -/
  ciphertext : secret.ciphertext ≠ ""
  /-- the initialisation vector is stored -/
  iv : secret.iv ≠ ""
  /-- the tag is stored -/
  tag : secret.tag ≠ ""

/-- What an encryption that succeeds has checked, and what it answers. -/
theorem encrypt_eq_ok (h : encryptTelegramBotToken config rt tenantId token iv = .ok secret) :
    tenantId ≠ "" ∧ token ≠ "" ∧ ∃ masterKey, config.tenantSecretsMasterKey = some masterKey ∧
      masterKey ≠ "" ∧
      secret.iv = iv ∧ secret.keyVersion = currentTenantSecretKeyVersion ∧
      rt.encipher masterKey currentTenantSecretKeyVersion iv token
        (some (buildAdditionalAuthenticatedData tenantId)) = (secret.ciphertext, secret.tag) := by
  rw [encryptTelegramBotToken] at h
  by_cases ht : tenantId = ""
  · simp [ht] at h
  by_cases hp : token = ""
  · simp [ht, hp] at h
  rw [if_neg ht, if_neg hp] at h
  rcases hk : config.tenantSecretsMasterKey with _ | masterKey
  · simp [hk] at h
  by_cases hm : masterKey = ""
  · simp [hk, hm] at h
  simp only [hk, if_neg hm, Except.ok.injEq] at h
  subst h
  exact ⟨ht, hp, masterKey, rfl, hm, rfl, rfl, rfl⟩

/-- An encryption that succeeds makes a secret that can be stored. -/
theorem seals_of_encrypt (ho : rt.Opens) (hiv : iv ≠ "")
    (h : encryptTelegramBotToken config rt tenantId token iv = .ok secret) :
    Seals config rt tenantId token secret := by
  obtain ⟨ht, hp, masterKey, hk, hm, rfl, hv, he⟩ := encrypt_eq_ok h
  have hu := ho.undoes masterKey currentTenantSecretKeyVersion secret.iv token
    (some (buildAdditionalAuthenticatedData tenantId))
  have hc := ho.ciphertext masterKey currentTenantSecretKeyVersion secret.iv token
    (some (buildAdditionalAuthenticatedData tenantId)) hp
  have hg := ho.tag masterKey currentTenantSecretKeyVersion secret.iv token
    (some (buildAdditionalAuthenticatedData tenantId))
  rw [he] at hu hc hg
  have hs : currentTenantSecretKeyVersion ∈ supportedKeyVersions := by decide
  refine ⟨?_, ⟨masterKey, hk, ?_⟩, hv, hc, hiv, hg⟩
  · rw [decryptTelegramBotToken, if_neg ht, hv, if_neg (not_not.mpr hs), hk]
    dsimp only
    rw [if_neg hm, if_pos (show currentTenantSecretKeyVersion = keyVersionScryptAad from rfl), hu]
    exact if_neg hp
  · rw [hv, if_pos (show currentTenantSecretKeyVersion = keyVersionScryptAad from rfl)]
    exact he

end TenantSecrets

/-! ## Rows and statements -/

namespace SettingsRepository

variable {input : NotifierSettings} {rows : List TenantSettingsRow}
  {row : TenantSettingsRow} {secret : TenantEncryptedSecret}

/-- The four columns of a row are those of a secret. -/
structure Stores (row : TenantSettingsRow) (secret : TenantEncryptedSecret) : Prop where
  /-- the ciphertext -/
  ciphertext : row.telegramBotTokenCiphertext = some secret.ciphertext
  /-- the initialisation vector -/
  iv : row.telegramBotTokenIv = some secret.iv
  /-- the tag -/
  tag : row.telegramBotTokenTag = some secret.tag
  /-- the version -/
  version : row.telegramBotTokenKeyVersion = some secret.keyVersion

/-- A stored secret is read back. -/
theorem Stores.mapped (h : Stores row secret) (hc : secret.ciphertext ≠ "") (hi : secret.iv ≠ "")
    (ht : secret.tag ≠ "") : Settings.mapTelegramBotTokenEncrypted row = some secret := by
  simp [Settings.mapTelegramBotTokenEncrypted, h.ciphertext, h.iv, h.tag, h.version, hc, hi, ht]

/-- A row without a ciphertext has no secret. -/
theorem mapped_of_no_ciphertext (h : row.telegramBotTokenCiphertext = none) :
    Settings.mapTelegramBotTokenEncrypted row = none := by
  simp [Settings.mapTelegramBotTokenEncrypted, h]

theorem stores_withSecret : Stores (withSecret secret row) secret :=
  ⟨rfl, rfl, rfl, rfl⟩

theorem stores_insertedRow (h : input.telegramBotTokenEncrypted = some secret) :
    Stores (insertedRow input) secret := by
  constructor <;> simp [insertedRow, h]

theorem stores_updatedRow (hop : input.telegramBotTokenOperation = .set)
    (h : input.telegramBotTokenEncrypted = some secret) :
    Stores (updatedRow input row) secret := by
  have hs := stores_insertedRow h
  constructor <;> simp [updatedRow, tokenColumn, hop, hs.ciphertext, hs.iv, hs.tag, hs.version]

theorem ciphertext_insertedRow (h : input.telegramBotTokenEncrypted = none) :
    (insertedRow input).telegramBotTokenCiphertext = none := by
  simp [insertedRow, h]

theorem ciphertext_updatedRow_of_clear (hop : input.telegramBotTokenOperation = .clear) :
    (updatedRow input row).telegramBotTokenCiphertext = none := by
  simp [updatedRow, tokenColumn, hop]

/-- An update that leaves the token alone leaves the two columns an upgrade compares alone. -/
theorem compared_updatedRow_of_unchanged (row : TenantSettingsRow)
    (hop : input.telegramBotTokenOperation = .unchanged) :
    (updatedRow input row).telegramBotTokenCiphertext = row.telegramBotTokenCiphertext ∧
      (updatedRow input row).telegramBotTokenKeyVersion = row.telegramBotTokenKeyVersion := by
  simp [updatedRow, tokenColumn, hop]

theorem mapped_updatedRow_of_unchanged (hop : input.telegramBotTokenOperation = .unchanged) :
    Settings.mapTelegramBotTokenEncrypted (updatedRow input row)
      = Settings.mapTelegramBotTokenEncrypted row := by
  simp [Settings.mapTelegramBotTokenEncrypted, updatedRow, tokenColumn, hop]

/-- The rows after an upsert: the inserted one, or the tenant's changed and the others as they
were. -/
theorem mem_upsert {row' : TenantSettingsRow} (h : row' ∈ upsertNotifierSettings input rows) :
    (row' = insertedRow input ∧ ∀ row ∈ rows, row.tenantId ≠ input.tenantId) ∨
      (row' ∈ rows ∧ row'.tenantId ≠ input.tenantId) ∨
      ∃ row ∈ rows, row.tenantId = input.tenantId ∧ row' = updatedRow input row := by
  rw [upsertNotifierSettings] at h
  rcases hl : Table.lookup TenantSettingsRow.tenantId input.tenantId rows with _ | found
  · rw [hl] at h
    have hnone := Table.lookup_eq_none.mp hl
    rcases List.mem_append.mp h with hr | hr
    · exact .inr (.inl ⟨hr, hnone row' hr⟩)
    · exact .inl ⟨List.mem_singleton.mp hr, hnone⟩
  · rw [hl] at h
    obtain ⟨row, hr, rfl⟩ := Table.mem_updateWhere.mp h
    by_cases ht : row.tenantId = input.tenantId
    · exact .inr (.inr ⟨row, hr, ht, by simp [ht]⟩)
    · exact .inr (.inl (by simp [ht, hr]))

/-- A tenant without a row after an upsert had none before, and is not the tenant of the
upsert. -/
theorem absent_of_absent_upsert {tenantId : String}
    (h : ∀ row ∈ upsertNotifierSettings input rows, row.tenantId ≠ tenantId) :
    tenantId ≠ input.tenantId ∧ ∀ row ∈ rows, row.tenantId ≠ tenantId := by
  rw [upsertNotifierSettings] at h
  rcases hl : Table.lookup TenantSettingsRow.tenantId input.tenantId rows with _ | found
  · rw [hl] at h
    refine ⟨?_, fun row hr => h row (List.mem_append_left _ hr)⟩
    have hne := h (insertedRow input) (List.mem_append_right _ List.mem_cons_self)
    exact Ne.symm hne
  · rw [hl] at h
    have hrows : ∀ row ∈ rows, row.tenantId ≠ tenantId := by
      intro row hr
      have hne := h _ (Table.mem_updateWhere.mpr ⟨row, hr, rfl⟩)
      by_cases ht : row.tenantId = input.tenantId
      · simpa [ht, updatedRow] using hne
      · simpa [ht] using hne
    refine ⟨?_, hrows⟩
    rintro rfl
    exact hrows found (Table.mem_of_lookup hl) (Table.key_of_lookup hl)

/-- The rows after an upgrade: the expected ones with the new secret, the others as they were. -/
theorem mem_upgrade {tenantId : String} {expected : TenantEncryptedSecret}
    {row' : TenantSettingsRow}
    (h : row' ∈ upgradeTelegramBotTokenKeyVersion tenantId expected secret rows) :
    row' ∈ rows ∨ ∃ row ∈ rows, row.tenantId = tenantId ∧
      row.telegramBotTokenCiphertext = some expected.ciphertext ∧
      row.telegramBotTokenKeyVersion = some expected.keyVersion ∧
      row' = withSecret secret row := by
  obtain ⟨row, hr, rfl⟩ := Table.mem_updateWhere.mp h
  by_cases he : isExpected tenantId expected row = true
  · rw [if_pos he]
    simp only [isExpected, Bool.and_eq_true, decide_eq_true_eq] at he
    exact .inr ⟨row, hr, he.1.1, he.1.2, he.2, rfl⟩
  · rw [if_neg he]
    exact .inl hr

/-- An upgrade neither adds nor removes a tenant. -/
theorem absent_of_absent_upgrade {tenantId tenant : String} {expected : TenantEncryptedSecret}
    (h : ∀ row ∈ upgradeTelegramBotTokenKeyVersion tenantId expected secret rows,
      row.tenantId ≠ tenant) :
    ∀ row ∈ rows, row.tenantId ≠ tenant := by
  intro row hr
  have hne := h _ (Table.mem_updateWhere.mpr ⟨row, hr, rfl⟩)
  by_cases he : isExpected tenantId expected row = true
  · simpa [he, withSecret] using hne
  · simpa [he] using hne

end SettingsRepository

/-! ## The invariant -/

namespace SecretStore

open TenantSecrets SettingsRepository

variable {config : AppConfig} {rt : SecretsRuntime} {s s' : SecretStore}

/-- **A secret is pinned to a token**: where the table has its ciphertext under its version for
the tenant, the token is the one the tenant has set last. -/
def Pins (s : SecretStore) (tenantId : String) (secret : TenantEncryptedSecret)
    (token : String) : Prop :=
  ∀ row ∈ s.rows, row.tenantId = tenantId →
    row.telegramBotTokenCiphertext = some secret.ciphertext →
    row.telegramBotTokenKeyVersion = some secret.keyVersion →
    s.lastSet tenantId = some token

/-- An issued update carries a secret made of the token it sets, and none if it sets none. -/
structure Issued (config : AppConfig) (rt : SecretsRuntime) (u : PendingUpdate) : Prop where
  /-- it sets a token -/
  set : u.settings.telegramBotTokenOperation = .set →
    ∃ secret, u.settings.telegramBotTokenEncrypted = some secret ∧
      Seals config rt u.settings.tenantId u.token secret
  /-- it does not -/
  other : u.settings.telegramBotTokenOperation ≠ .set →
    u.settings.telegramBotTokenEncrypted = none

/-- An issued upgrade replaces a pinned secret under an old version by one of the same token. -/
structure Sound (config : AppConfig) (rt : SecretsRuntime) (s : SecretStore)
    (u : PendingUpgrade) : Prop where
  /-- what it replaces is not under the current version -/
  old : u.expected.keyVersion ≠ currentTenantSecretKeyVersion
  /-- and is pinned -/
  pins : s.Pins u.tenantId u.expected u.plaintext
  /-- the new secret is made of the same token -/
  seals : Seals config rt u.tenantId u.plaintext u.encrypted

/-- **What every step preserves.** -/
structure Invariant (config : AppConfig) (rt : SecretsRuntime) (s : SecretStore) : Prop where
  /-- the table holds the tokens set last -/
  kept : s.TokensKept config rt
  /-- an old secret that was read is pinned to what it deciphers to -/
  snapshots : ∀ p ∈ s.snapshots, ∀ secret token,
    p.settings.bind TenantSettings.telegramBotTokenEncrypted = some secret →
    secret.keyVersion ≠ currentTenantSecretKeyVersion →
    decryptTelegramBotToken config rt.toRuntime p.tenantId secret = .ok token →
    s.Pins p.tenantId secret token
  /-- the issued updates -/
  updates : ∀ u ∈ s.updates, Issued config rt u
  /-- the issued upgrades -/
  upgrades : ∀ u ∈ s.upgrades, Sound config rt s u

/-- Whether a row keeps the token depends on its secret and on the token. -/
theorem Keeps.congr {row row' : TenantSettingsRow} (h : s.Keeps config rt row)
    (ht : row'.tenantId = row.tenantId)
    (hm : Settings.mapTelegramBotTokenEncrypted row' = Settings.mapTelegramBotTokenEncrypted row)
    (hl : s'.lastSet row.tenantId = s.lastSet row.tenantId) : s'.Keeps config rt row' := by
  rw [Keeps] at h ⊢
  rw [ht, hm, hl]
  exact h

/-- A row with a secret made of the token set last. -/
theorem keeps_of_stores {row : TenantSettingsRow} {secret : TenantEncryptedSecret}
    (token : String) (hs : Stores row secret) (hseals : Seals config rt row.tenantId token secret)
    (hl : s.lastSet row.tenantId = some token) : s.Keeps config rt row := by
  rw [Keeps, hl]
  exact ⟨secret, hs.mapped hseals.ciphertext hseals.iv hseals.tag, hseals.opens, hseals.made⟩

/-- A row without a ciphertext, where the tenant has no token. -/
theorem keeps_of_none {row : TenantSettingsRow} (hc : row.telegramBotTokenCiphertext = none)
    (hl : s.lastSet row.tenantId = none) : s.Keeps config rt row := by
  rw [Keeps, hl]
  exact mapped_of_no_ciphertext hc

/-- A secret that a row is read back as deciphers to the token set last only. -/
theorem Keeps.lastSet_eq {row : TenantSettingsRow} {secret : TenantEncryptedSecret}
    {token : String} (h : s.Keeps config rt row)
    (hm : Settings.mapTelegramBotTokenEncrypted row = some secret)
    (hd : decryptTelegramBotToken config rt.toRuntime row.tenantId secret = .ok token) :
    s.lastSet row.tenantId = some token := by
  rw [Keeps] at h
  rcases hl : s.lastSet row.tenantId with _ | last
  · rw [hl] at h
    rw [h] at hm
    cases hm
  · rw [hl] at h
    obtain ⟨secret', hm', hd', -⟩ := h
    obtain rfl := Option.some.inj (hm.symm.trans hm')
    rw [Except.ok.inj (hd.symm.trans hd')]

/-! ## An update takes effect -/

section Update

variable {u : PendingUpdate}
  (hrows : s'.rows = upsertNotifierSettings u.settings s.rows)
  (hlast : s'.lastSet = Function.update s.lastSet u.settings.tenantId
    (tokenAfter u (s.lastSet u.settings.tenantId)))

include hlast in
/-- The token of another tenant stays. -/
theorem lastSet_other {tenantId : String} (hne : tenantId ≠ u.settings.tenantId) :
    s'.lastSet tenantId = s.lastSet tenantId := by
  rw [hlast, Function.update_of_ne hne]

include hlast in
/-- The token of the tenant is the one after the statement. -/
theorem lastSet_self :
    s'.lastSet u.settings.tenantId = tokenAfter u (s.lastSet u.settings.tenantId) := by
  rw [hlast, Function.update_self]

include hrows hlast in
/-- **After an update the table holds the tokens set last.** -/
theorem tokensKept_upsert (hk : s.TokensKept config rt) (hu : Issued config rt u) :
    s'.TokensKept config rt := by
  have hself := lastSet_self hlast
  refine ⟨fun row' hr' => ?_, fun tenantId habs => ?_⟩
  · rw [hrows] at hr'
    rcases mem_upsert hr' with ⟨rfl, hnone⟩ | ⟨hr, hne⟩ | ⟨row, hr, ht, rfl⟩
    · rcases hop : u.settings.telegramBotTokenOperation with _ | _ | _
      · -- there was no row, so there was no token to leave alone
        refine keeps_of_none (ciphertext_insertedRow (hu.other (by simp [hop]))) ?_
        refine hself.trans ?_
        rw [tokenAfter, hop]
        exact hk.absent _ hnone
      · refine keeps_of_none (ciphertext_insertedRow (hu.other (by simp [hop]))) ?_
        refine hself.trans ?_
        rw [tokenAfter, hop]
      · obtain ⟨secret, he, hseals⟩ := hu.set hop
        refine keeps_of_stores u.token (stores_insertedRow he) hseals ?_
        refine hself.trans ?_
        rw [tokenAfter, hop]
    · exact (hk.rows row' hr).congr rfl rfl (lastSet_other hlast hne)
    · rcases hop : u.settings.telegramBotTokenOperation with _ | _ | _
      · refine (hk.rows row hr).congr rfl (mapped_updatedRow_of_unchanged hop) ?_
        rw [ht, hself, tokenAfter, hop]
      · refine keeps_of_none (ciphertext_updatedRow_of_clear hop) ?_
        change s'.lastSet row.tenantId = none
        rw [ht, hself, tokenAfter, hop]
      · obtain ⟨secret, he, hseals⟩ := hu.set hop
        refine keeps_of_stores u.token (stores_updatedRow hop he) ?_ ?_
        · rw [← ht] at hseals
          exact hseals
        · change s'.lastSet row.tenantId = some u.token
          rw [ht, hself, tokenAfter, hop]
  · rw [hrows] at habs
    obtain ⟨hne, hbefore⟩ := absent_of_absent_upsert habs
    rw [lastSet_other hlast hne]
    exact hk.absent tenantId hbefore

include hrows hlast in
/-- An update keeps an old secret pinned: a new token comes under the current version, a cleared
one leaves no ciphertext, and one that stays is the one that was set last before. -/
theorem Pins.upsert {tenantId token : String} {secret : TenantEncryptedSecret}
    (h : s.Pins tenantId secret token) (hu : Issued config rt u)
    (hold : secret.keyVersion ≠ currentTenantSecretKeyVersion) :
    s'.Pins tenantId secret token := by
  intro row' hr' ht' hc hv
  rw [hrows] at hr'
  have hset {row : TenantSettingsRow} (hop : u.settings.telegramBotTokenOperation = .set)
      (hstores : ∀ made, u.settings.telegramBotTokenEncrypted = some made → Stores row made)
      (hv : row.telegramBotTokenKeyVersion = some secret.keyVersion) : False := by
    obtain ⟨made, he, hseals⟩ := hu.set hop
    rw [(hstores made he).version, hseals.version] at hv
    exact hold (Option.some.inj hv).symm
  rcases mem_upsert hr' with ⟨rfl, -⟩ | ⟨hr, hne⟩ | ⟨row, hr, ht, rfl⟩
  · by_cases hop : u.settings.telegramBotTokenOperation = .set
    · exact (hset hop (fun _ => stores_insertedRow) hv).elim
    · rw [ciphertext_insertedRow (hu.other hop)] at hc
      cases hc
  · rw [ht'] at hne
    rw [lastSet_other hlast hne]
    exact h row' hr ht' hc hv
  · rcases hop : u.settings.telegramBotTokenOperation with _ | _ | _
    · obtain ⟨hc', hv'⟩ := compared_updatedRow_of_unchanged row hop
      have hlast' : s'.lastSet u.settings.tenantId = s.lastSet u.settings.tenantId := by
        rw [lastSet_self hlast, tokenAfter, hop]
      have htenant : tenantId = u.settings.tenantId := ht'.symm.trans ht
      rw [htenant, hlast', ← htenant]
      exact h row hr (ht.trans htenant.symm) (hc'.symm.trans hc) (hv'.symm.trans hv)
    · rw [ciphertext_updatedRow_of_clear hop] at hc
      cases hc
    · exact (hset hop (fun _ => stores_updatedRow hop) hv).elim

end Update

/-! ## An upgrade takes effect -/

section Upgrade

variable {u : PendingUpgrade}
  (hrows : s'.rows = upgradeTelegramBotTokenKeyVersion u.tenantId u.expected u.encrypted s.rows)
  (hlast : s'.lastSet = s.lastSet)

include hrows hlast

/-- **After an upgrade the table holds the tokens set last**: the row it finds holds what it has
read, and what it has read is pinned to the token of the new secret. -/
theorem tokensKept_upgrade (hk : s.TokensKept config rt) (hu : Sound config rt s u) :
    s'.TokensKept config rt := by
  refine ⟨fun row' hr' => ?_, fun tenantId habs => ?_⟩
  · rw [hrows] at hr'
    rcases mem_upgrade hr' with hr | ⟨row, hr, ht, hc, hv, rfl⟩
    · exact (hk.rows row' hr).congr rfl rfl (by rw [hlast])
    · refine keeps_of_stores u.plaintext stores_withSecret ?_ ?_
      · have hseals := hu.seals
        rw [← ht] at hseals
        exact hseals
      · change s'.lastSet row.tenantId = some u.plaintext
        rw [hlast, ht]
        exact hu.pins row hr ht hc hv
  · rw [hrows] at habs
    rw [hlast]
    exact hk.absent tenantId (absent_of_absent_upgrade habs)

/-- An upgrade keeps an old secret pinned: it writes under the current version. -/
theorem Pins.upgrade {tenantId token : String} {secret : TenantEncryptedSecret}
    (h : s.Pins tenantId secret token) (hu : Sound config rt s u)
    (hold : secret.keyVersion ≠ currentTenantSecretKeyVersion) :
    s'.Pins tenantId secret token := by
  intro row' hr' ht' hc hv
  rw [hrows] at hr'
  rw [hlast]
  rcases mem_upgrade hr' with hr | ⟨row, hr, ht, -, -, rfl⟩
  · exact h row' hr ht' hc hv
  · rw [stores_withSecret.version, hu.seals.version] at hv
    exact (hold (Option.some.inj hv).symm).elim

end Upgrade

/-! ## Steps -/

/-- A change of the table that keeps it sound and old secrets pinned keeps the invariant, when
what is under way was under way before. -/
theorem Invariant.of_table (hi : s.Invariant config rt) (hk : s'.TokensKept config rt)
    (hpins : ∀ tenantId secret token, secret.keyVersion ≠ currentTenantSecretKeyVersion →
      s.Pins tenantId secret token → s'.Pins tenantId secret token)
    (hsnapshots : ∀ p ∈ s'.snapshots, p ∈ s.snapshots)
    (hupdates : ∀ u ∈ s'.updates, u ∈ s.updates)
    (hupgrades : ∀ u ∈ s'.upgrades, u ∈ s.upgrades) : s'.Invariant config rt where
  kept := hk
  snapshots := fun p hp secret token he hold hd =>
    hpins _ _ _ hold (hi.snapshots p (hsnapshots p hp) secret token he hold hd)
  updates := fun u hu => hi.updates u (hupdates u hu)
  upgrades := fun u hu =>
    have hsound := hi.upgrades u (hupgrades u hu)
    ⟨hsound.old, hpins _ _ _ hsound.old hsound.pins, hsound.seals⟩

/-- Where neither the table nor the tokens change, the table stays sound. -/
theorem TokensKept.congr (h : s.TokensKept config rt) (hrows : s'.rows = s.rows)
    (hlast : s'.lastSet = s.lastSet) : s'.TokensKept config rt := by
  refine ⟨fun row hr => ?_, fun tenantId habs => ?_⟩
  · rw [hrows] at hr
    exact (h.rows row hr).congr rfl rfl (by rw [hlast])
  · rw [hrows] at habs
    rw [hlast]
    exact h.absent tenantId habs

/-- Where neither the table nor the tokens change, secrets stay pinned. -/
theorem Pins.congr {tenantId token : String} {secret : TenantEncryptedSecret}
    (h : s.Pins tenantId secret token) (hrows : s'.rows = s.rows)
    (hlast : s'.lastSet = s.lastSet) : s'.Pins tenantId secret token := by
  intro row hr
  rw [hrows] at hr
  rw [hlast]
  exact h row hr

/-- Giving up something under way keeps the invariant. -/
theorem Invariant.of_drop (hi : s.Invariant config rt) (hrows : s'.rows = s.rows)
    (hlast : s'.lastSet = s.lastSet)
    (hsnapshots : ∀ p ∈ s'.snapshots, p ∈ s.snapshots)
    (hupdates : ∀ u ∈ s'.updates, u ∈ s.updates)
    (hupgrades : ∀ u ∈ s'.upgrades, u ∈ s.upgrades) : s'.Invariant config rt :=
  hi.of_table (hi.kept.congr hrows hlast) (fun _ _ _ _ h => h.congr hrows hlast)
    hsnapshots hupdates hupgrades

/-- What a settings request issues. -/
theorem issued_statement (ho : rt.Opens) {input : UpdateSettingsInput} {iv : String}
    {settings : NotifierSettings} (hiv : iv ≠ "")
    (h : UpdateSettings.statement config rt input iv = .ok settings) :
    Issued config rt { settings := settings, token := input.telegramBotToken.join.getD "" } := by
  rw [UpdateSettings.statement] at h
  by_cases hop : UpdateSettings.resolveTokenOperation input = .set
  · rw [if_pos hop] at h
    rcases he : encryptTelegramBotToken config rt input.tenantId
        (input.telegramBotToken.join.getD "") iv with _ | encrypted
    · rw [he] at h
      cases h
    · rw [he] at h
      obtain rfl := Except.ok.inj h
      exact ⟨fun _ => ⟨encrypted, rfl, seals_of_encrypt ho hiv he⟩, fun hne => (hne hop).elim⟩
  · rw [if_neg hop] at h
    obtain rfl := Except.ok.inj h
    exact ⟨fun h => (hop h).elim, fun _ => rfl⟩

/-- A reader that issues an upgrade issues a sound one. -/
theorem Invariant.schedule (ho : rt.Opens) (hi : s.Invariant config rt) {p : SettingsSnapshot}
    {iv : String} (hiv : iv ≠ "")
    (hp : ∀ secret token,
      p.settings.bind TenantSettings.telegramBotTokenEncrypted = some secret →
      secret.keyVersion ≠ currentTenantSecretKeyVersion →
      decryptTelegramBotToken config rt.toRuntime p.tenantId secret = .ok token →
      s.Pins p.tenantId secret token) :
    (s.scheduleKeyVersionUpgrade config rt p iv).Invariant config rt := by
  rw [scheduleKeyVersionUpgrade]
  rcases he : p.settings.bind TenantSettings.telegramBotTokenEncrypted with _ | previous
  · exact hi
  dsimp only
  rcases hd : decryptTelegramBotToken config rt.toRuntime p.tenantId previous with _ | plaintext
  · exact hi
  dsimp only
  split
  next hneeds =>
    have hold : previous.keyVersion ≠ currentTenantSecretKeyVersion := by
      simp only [needsKeyVersionUpgrade, Bool.and_eq_true, decide_eq_true_eq] at hneeds
      exact hneeds.1
    rcases hn : encryptTelegramBotToken config rt p.tenantId plaintext iv with _ | encrypted
    · exact hi
    refine ⟨hi.kept.congr rfl rfl, hi.snapshots, hi.updates, fun u hu => ?_⟩
    rcases List.mem_append.mp hu with hu | hu
    · have hsound := hi.upgrades u hu
      exact ⟨hsound.old, hsound.pins, hsound.seals⟩
    · obtain rfl := List.mem_singleton.mp hu
      exact ⟨hold, hp previous plaintext he hold hd, seals_of_encrypt ho hiv hn⟩
  next => exact hi

/-- A reader that reads a row reads a secret of the token set last. -/
theorem TokensKept.pins_of_read (h : s.TokensKept config rt) {tenantId token : String}
    {secret : TenantEncryptedSecret}
    (he : (Settings.getByTenantId tenantId s.rows).bind TenantSettings.telegramBotTokenEncrypted
      = some secret)
    (hd : decryptTelegramBotToken config rt.toRuntime tenantId secret = .ok token) :
    s.Pins tenantId secret token := by
  rw [Settings.getByTenantId] at he
  rcases hl : Table.lookup TenantSettingsRow.tenantId tenantId s.rows with _ | row
  · rw [hl] at he
    cases he
  rw [hl] at he
  intro _ _ _ _ _
  have hkey := Table.key_of_lookup hl
  rw [← hkey]
  refine (h.rows row (Table.mem_of_lookup hl)).lastSet_eq he ?_
  rw [hkey]
  exact hd

/-- **What one step does.** -/
theorem Invariant.step (ho : rt.Opens) (hi : s.Invariant config rt) {a : SecretAction}
    (h : s.step config rt a = some s') : s'.Invariant config rt := by
  cases a with
  | request input iv =>
    rw [SecretStore.step] at h
    by_cases hiv : iv = ""
    · rw [if_pos hiv] at h
      cases h
    rw [if_neg hiv] at h
    rcases hs : UpdateSettings.statement config rt input iv with _ | settings
    · rw [hs] at h
      obtain rfl := Option.some.inj h
      exact hi
    · rw [hs] at h
      obtain rfl := Option.some.inj h
      refine ⟨hi.kept.congr rfl rfl, hi.snapshots, fun u hu => ?_, fun u hu => ?_⟩
      · rcases List.mem_append.mp hu with hu | hu
        · exact hi.updates u hu
        · obtain rfl := List.mem_singleton.mp hu
          exact issued_statement ho hiv hs
      · have hsound := hi.upgrades u hu
        exact ⟨hsound.old, hsound.pins, hsound.seals⟩
  | landUpdate i =>
    obtain ⟨u, hu, rfl⟩ := Option.map_eq_some_iff.mp h
    have hissued := hi.updates u (List.mem_of_getElem? hu)
    exact hi.of_table (tokensKept_upsert rfl rfl hi.kept hissued)
      (fun _ _ _ hold hp => hp.upsert rfl rfl hissued hold)
      (fun _ hp => hp) (fun _ hu => List.mem_of_mem_eraseIdx hu) (fun _ hu => hu)
  | dropUpdate i =>
    obtain ⟨u, hu, rfl⟩ := Option.map_eq_some_iff.mp h
    exact hi.of_drop rfl rfl (fun _ hp => hp) (fun _ hu => List.mem_of_mem_eraseIdx hu)
      (fun _ hu => hu)
  | read pid tenantId =>
    obtain rfl := Option.some.inj h
    refine ⟨hi.kept.congr rfl rfl, fun p hp secret token he hold hd => ?_, hi.updates,
      fun u hu => ?_⟩
    · rcases List.mem_append.mp hp with hp | hp
      · exact hi.snapshots p hp secret token he hold hd
      · obtain rfl := List.mem_singleton.mp hp
        exact hi.kept.pins_of_read he hd
    · have hsound := hi.upgrades u hu
      exact ⟨hsound.old, hsound.pins, hsound.seals⟩
  | resolve i iv =>
    rw [SecretStore.step] at h
    by_cases hiv : iv = ""
    · rw [if_pos hiv] at h
      cases h
    rw [if_neg hiv] at h
    obtain ⟨p, hp, rfl⟩ := Option.map_eq_some_iff.mp h
    have hdrop : Invariant config rt { s with snapshots := s.snapshots.eraseIdx i } :=
      hi.of_drop rfl rfl (fun _ hq => List.mem_of_mem_eraseIdx hq) (fun _ hu => hu)
        (fun _ hu => hu)
    refine hdrop.schedule ho hiv fun secret token he hold hd => ?_
    exact hi.snapshots p (List.mem_of_getElem? hp) secret token he hold hd
  | landUpgrade i =>
    obtain ⟨u, hu, rfl⟩ := Option.map_eq_some_iff.mp h
    have hsound := hi.upgrades u (List.mem_of_getElem? hu)
    refine hi.of_table (tokensKept_upgrade rfl rfl hi.kept hsound)
      (fun tenantId secret token hold hp => ?_)
      (fun _ hp => hp) (fun _ hu => hu) (fun _ hu => List.mem_of_mem_eraseIdx hu)
    refine Pins.upgrade (u := u) ?_ ?_ hp hsound hold
    · rfl
    · rfl
  | dropUpgrade i =>
    obtain ⟨u, hu, rfl⟩ := Option.map_eq_some_iff.mp h
    exact hi.of_drop rfl rfl (fun _ hp => hp) (fun _ hu => hu)
      (fun _ hu => List.mem_of_mem_eraseIdx hu)

/-- At the beginning the invariant holds. -/
theorem Init.invariant (h : s.Init config rt) : s.Invariant config rt where
  kept := h.kept
  snapshots := by simp [h.snapshots]
  updates := by simp [h.updates]
  upgrades := by simp [h.upgrades]

/-- **The lazy upgrade of key versions neither loses nor resurrects a token.** After any run of
settings requests and readers, in any order of their statements, every row deciphers to the token
its tenant has set last, and has none if the tenant has cleared it; and its key version is the
one its ciphertext was made under. -/
theorem upgrade_keeps_tokens (ho : rt.Opens) {s₀ : SecretStore} {as : List SecretAction}
    (h₀ : s₀.Init config rt) (h : run (SecretStore.step config rt) s₀ as = some s) :
    s.TokensKept config rt :=
  (run_invariant (fun _ _ _ hi hstep => Invariant.step ho hi hstep) h₀.invariant h).kept

/-! ## A cipher, and a race -/

/-- The tag of `prefixing`. -/
def tagOf (version : Nat) (aad : Option String) : String :=
  "tag:" ++ toString version ++ ":" ++ aad.getD ""

/-- A cipher that puts the initialisation vector before the text, and opens what has its tag. -/
def prefixing : SecretsRuntime :=
  { System.webhookDeployment.rt with
    encipher := fun _ version iv plaintext aad => (iv ++ plaintext, tagOf version aad)
    decipher := fun _ version iv tag ciphertext aad =>
      if tag = tagOf version aad then
        some (String.ofList (ciphertext.toList.drop iv.toList.length))
      else none }

theorem prefixing_opens : prefixing.Opens where
  undoes := fun _ _ iv plaintext _ => by simp [prefixing]
  ciphertext := fun _ _ iv plaintext _ h => by simp [prefixing, h]
  tag := fun _ _ _ _ _ => by simp [prefixing, tagOf]

/-- A deployment with a master key. -/
def withMasterKey : AppConfig :=
  { System.webhookDeployment.config with tenantSecretsMasterKey := some "master" }

/-- A tenant whose token is stored under the first version. -/
def oldToken : SecretStore :=
  { rows :=
      [{ tenantId := "t"
         webhookNotifierUrl := none
         recipientEmails := []
         telegramChatIds := ["100"]
         telegramDeliveryMode := .instant
         telegramBotTokenCiphertext := some "iv0:123:old"
         telegramBotTokenIv := some "iv0:"
         telegramBotTokenTag := some "tag:1:"
         telegramBotTokenKeyVersion := some 1 }]
    snapshots := []
    updates := []
    upgrades := []
    lastSet := fun tenantId => if tenantId = "t" then some "123:old" else none }

/-- A settings request of the tenant. -/
def tokenRequest (telegramBotToken : Option (Option String)) : UpdateSettingsInput :=
  { tenantId := "t"
    webhookNotifierUrl := none
    recipientEmails := []
    telegramChatIds := ["100"]
    telegramDeliveryMode := .instant
    telegramBotToken := telegramBotToken
    clearTelegramBotToken := false }

theorem oldToken_init : oldToken.Init withMasterKey prefixing where
  kept := by
    refine ⟨fun row hr => ?_, fun tenantId habs => ?_⟩
    · obtain rfl := List.mem_singleton.mp hr
      refine ⟨⟨"iv0:123:old", "iv0:", "tag:1:", 1⟩, ?_, ?_, "master", rfl, ?_⟩
      · decide
      · decide
      · decide
    · exact if_neg fun h => habs _ List.mem_cons_self h.symm
  snapshots := rfl
  updates := rfl
  upgrades := rfl

/-- Two readers race with the tenant: one upgrades the token, the tenant then clears it and sets
another, and the upgrade of the other reader changes nothing. -/
theorem upgrade_keeps_tokens_race :
    ∃ s, run (SecretStore.step withMasterKey prefixing) oldToken
        [.read 1 "t", .read 2 "t", .resolve 0 "iv1:", .resolve 0 "iv2:", .landUpgrade 0,
          .request (tokenRequest (some none)) "iv3:", .landUpdate 0,
          .request (tokenRequest (some (some "456:new"))) "iv4:", .landUpdate 0,
          .landUpgrade 0] = some s ∧
      s.TokensKept withMasterKey prefixing ∧
      s.rows.map Settings.mapTelegramBotTokenEncrypted =
        [some ⟨"iv4:456:new", "iv4:", "tag:2:feedpulse:telegram_bot_token:t", 2⟩] := by
  have hrun : (run (SecretStore.step withMasterKey prefixing) oldToken
        [.read 1 "t", .read 2 "t", .resolve 0 "iv1:", .resolve 0 "iv2:", .landUpgrade 0,
          .request (tokenRequest (some none)) "iv3:", .landUpdate 0,
          .request (tokenRequest (some (some "456:new"))) "iv4:", .landUpdate 0,
          .landUpgrade 0]).map (fun s => s.rows.map Settings.mapTelegramBotTokenEncrypted) =
      some [some ⟨"iv4:456:new", "iv4:", "tag:2:feedpulse:telegram_bot_token:t", 2⟩] := by
    decide
  obtain ⟨s, h, hrows⟩ := Option.map_eq_some_iff.mp hrun
  exact ⟨s, h, upgrade_keeps_tokens prefixing_opens oldToken_init h, hrows⟩

end SecretStore

end Feedpulse
