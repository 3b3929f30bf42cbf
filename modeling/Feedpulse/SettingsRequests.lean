import Feedpulse.KeyVersionUpgrade
import Feedpulse.UrlSafety
import Feedpulse.CanonicalLink
import Mathlib.Data.Option.Basic

/-!
# Settings that are put back

A client of the settings API reads the settings of its tenant, changes some and sends all of them
again: what it leaves alone goes through the transforms and checks of a request once more.
`settings_round_trip` says that this is safe: in every run, what is shown of any tenant is accepted
when it is sent again, and nothing changes by it, neither for the tenant nor for another.
-/

namespace Feedpulse

/-- The runtime, with the validators of `class-validator`. -/
structure SettingsRuntime extends SecretsRuntime, UrlRuntime where
  /-- `isURL`, with the options of the field -/
  isUrl : String → Bool
  /-- `isEmail` -/
  isEmail : String → Bool

/-- A field of a JSON body, as far as the transforms tell values apart. -/
inductive BodyField
  /-- `undefined` -/
  | missing
  /-- `null` -/
  | null
  /-- a truth value -/
  | bool (value : Bool)
  /-- a text -/
  | text (value : String)
  /-- an array: what `String` makes of each item -/
  | items (texts : List String)
  /-- a number or an object -/
  | other
  deriving DecidableEq, Repr

/-- The body of a settings request. -/
structure UpdateSettingsBody where
  /-- `webhook_notifier_url` -/
  webhookNotifierUrl : BodyField
  /-- `recipient_emails` -/
  recipientEmails : BodyField
  /-- `telegram_chat_ids` -/
  telegramChatIds : BodyField
  /-- `telegram_delivery_mode` -/
  telegramDeliveryMode : BodyField
  /-- `telegram_bot_token` -/
  telegramBotToken : BodyField
  /-- `telegram_bot_token_clear` -/
  telegramBotTokenClear : BodyField
  deriving DecidableEq, Repr

/-- `UpdateSettingsDto`, when it is valid. Where the source tells `undefined` from `null`, `none` is
`undefined`. -/
structure UpdateSettingsDto where
  /-- `webhook_notifier_url` -/
  webhookNotifierUrl : Option (Option String)
  /-- `recipient_emails` -/
  recipientEmails : Option (List String)
  /-- `telegram_chat_ids` -/
  telegramChatIds : Option (List String)
  /-- `telegram_delivery_mode` -/
  telegramDeliveryMode : Option TelegramDeliveryMode
  /-- `telegram_bot_token` -/
  telegramBotToken : Option (Option String)
  /-- `telegram_bot_token_clear` -/
  telegramBotTokenClear : Option Bool
  deriving DecidableEq, Repr

/-- What a settings request is answered with. -/
structure SettingsView where
  /-- `webhookNotifierUrl` -/
  webhookNotifierUrl : Option String
  /-- `recipientEmails` -/
  recipientEmails : List String
  /-- `telegramChatIds` -/
  telegramChatIds : List String
  /-- `telegramDeliveryMode` -/
  telegramDeliveryMode : TelegramDeliveryMode
  /-- `telegramBotTokenConfigured` -/
  telegramBotTokenConfigured : Bool
  deriving DecidableEq, Repr

namespace UpdateSettings

variable (rt : SettingsRuntime)

/-! ## Transforms -/

/-- A text without blanks around it; `null` if nothing is left. -/
def trimmedText : BodyField → Option (Option String)
  | .null => some none
  | .text value => some (if Text.trim value = "" then none else some (Text.trim value))
  | _ => none

/-- `normalizeOptionalUrl`. -/
def normalizeOptionalUrl (value : BodyField) : Option (Option String) := trimmedText value

/-- `normalizeOptionalString`. -/
def normalizeOptionalString (value : BodyField) : Option (Option String) := trimmedText value

/-- `value.split(/[\n,]/g).map(trim).filter(Boolean)`. -/
def splitText (value : String) : List String :=
  ((value.toList.splitOnP fun c => c = '\n' || c = ',').map fun part =>
    String.ofList (Text.trimChars part)).filter fun part => part ≠ ""

/-- The tokens of a list; none if `IsArray` refuses the value, and `undefined` stays. -/
def tokens : BodyField → Option (Option (List String))
  | .null => some (some [])
  | .missing => some none
  | .items texts => some (some texts)
  | .text value => some (some (splitText value))
  | .bool _ | .other => none

/-- What `parseRecipientEmails` makes of tokens. -/
def cleanEmails (tokens : List String) : List String :=
  ((tokens.map fun email => rt.toLowerCase (Text.trim email)).filter
    fun email => email ≠ "").eraseDups

/-- `parseRecipientEmails`. -/
def parseRecipientEmails (value : BodyField) : Option (Option (List String)) :=
  (tokens value).map (Option.map (cleanEmails rt))

/-- `/^-?\d+$/`. -/
def isChatId (text : String) : Bool :=
  let digits := if text.toList.head? = some '-' then text.toList.drop 1 else text.toList
  !digits.isEmpty && digits.all UrlSafety.isDecimalDigit

/-- What `parseTelegramChatIds` makes of tokens. -/
def cleanChatIds (tokens : List String) : List String :=
  (((tokens.map Text.trim).filter fun chatId => chatId ≠ "").filter isChatId).eraseDups

/-- `parseTelegramChatIds`. -/
def parseTelegramChatIds (value : BodyField) : Option (Option (List String)) :=
  (tokens value).map (Option.map cleanChatIds)

/-- `TELEGRAM_DELIVERY_MODES`. -/
def modeText : TelegramDeliveryMode → String
  | .instant => "instant"
  | .digest10m => "digest_10m"

/-- `normalizeDeliveryMode` and `IsIn`; none if the value is refused. -/
def normalizeDeliveryMode : BodyField → Option (Option TelegramDeliveryMode)
  | .missing | .null => some none
  | .text value =>
    let normalized := rt.toLowerCase (Text.trim value)
    if normalized = modeText .instant then some (some .instant)
    else if normalized = modeText .digest10m then some (some .digest10m)
    else none
  | _ => none

/-- `normalizeBoolean` and `IsBoolean`; none if the value is refused. -/
def normalizeBoolean : BodyField → Option (Option Bool)
  | .missing | .null => some none
  | .bool value => some (some value)
  | .text value =>
    let normalized := rt.toLowerCase (Text.trim value)
    if normalized = "true" then some (some true)
    else if normalized = "false" then some (some false)
    else none
  | _ => none

/-! ## Requests -/

/-- The transforms and validators of `UpdateSettingsDto`; none is a bad request. -/
def validate (body : UpdateSettingsBody) : Option UpdateSettingsDto := do
  let url := normalizeOptionalUrl body.webhookNotifierUrl
  guard (url.join.all rt.isUrl)
  let emails ← parseRecipientEmails rt body.recipientEmails
  guard ((emails.getD []).all rt.isEmail)
  let chatIds ← parseTelegramChatIds body.telegramChatIds
  guard ((chatIds.getD []).all isChatId)
  let mode ← normalizeDeliveryMode rt body.telegramDeliveryMode
  let clear ← normalizeBoolean rt body.telegramBotTokenClear
  return {
    webhookNotifierUrl := url
    recipientEmails := emails
    telegramChatIds := chatIds
    telegramDeliveryMode := mode
    telegramBotToken := normalizeOptionalString body.telegramBotToken
    telegramBotTokenClear := clear }

/-- `SettingsController.update`, up to the use case. -/
def update (tenantId : String) (payload : UpdateSettingsDto) : UpdateSettingsInput where
  tenantId := tenantId
  webhookNotifierUrl := payload.webhookNotifierUrl.getD none
  recipientEmails := payload.recipientEmails.getD []
  telegramChatIds := payload.telegramChatIds.getD []
  telegramDeliveryMode :=
    payload.telegramDeliveryMode.getD Settings.defaultTelegramDeliveryMode
  telegramBotToken := payload.telegramBotToken
  clearTelegramBotToken := payload.telegramBotTokenClear.getD false

/-- The check of the webhook's URL in `execute`. -/
def isSafeWebhook (allowPrivateHosts : Bool) (url : Option String) : Bool :=
  !Text.truthy url ||
    (UrlSafety.assertSafePublicUrlText rt.toUrlRuntime allowPrivateHosts (url.getD "")).isOk

/-- A request that reaches the statement: valid, and with a webhook that may be called. -/
def accept (allowPrivateHosts : Bool) (tenantId : String) (body : UpdateSettingsBody) :
    Option UpdateSettingsInput := do
  let payload ← validate rt body
  let input := update tenantId payload
  guard (isSafeWebhook rt allowPrivateHosts input.webhookNotifierUrl)
  return input

/-- `GetSettingsUseCase`. -/
def getSettings (tenantId : String) (rows : List TenantSettingsRow) : SettingsView :=
  let settings := Settings.getByTenantId tenantId rows
  { webhookNotifierUrl := settings.bind TenantSettings.webhookNotifierUrl
    recipientEmails := (settings.map TenantSettings.recipientEmails).getD []
    telegramChatIds := (settings.map TenantSettings.telegramChatIds).getD []
    telegramDeliveryMode := (settings.map TenantSettings.telegramDeliveryMode).getD
      Settings.defaultTelegramDeliveryMode
    telegramBotTokenConfigured :=
      (settings.bind TenantSettings.telegramBotTokenEncrypted).isSome }

/-- What is shown, sent again: the token is not shown, and not sent. -/
def putBack (view : SettingsView) : UpdateSettingsBody where
  webhookNotifierUrl := (view.webhookNotifierUrl.map BodyField.text).getD .null
  recipientEmails := .items view.recipientEmails
  telegramChatIds := .items view.telegramChatIds
  telegramDeliveryMode := .text (modeText view.telegramDeliveryMode)
  telegramBotToken := .missing
  telegramBotTokenClear := .missing

/-! ## What is clean stays clean -/

/-- What is relied on of `toLowerCase`: it has nothing to do twice, and makes no blanks. -/
structure LowersOnce : Prop where
  /-- lowercase text stays as it is -/
  lower_lower : ∀ text, rt.toLowerCase (rt.toLowerCase text) = rt.toLowerCase text
  /-- what is trimmed stays trimmed -/
  trim_lower : ∀ text, Text.trim text = text →
    Text.trim (rt.toLowerCase text) = rt.toLowerCase text
  /-- ASCII without capitals stays as it is -/
  lower_ascii : ∀ text : String, (∀ c ∈ text.toList, c.toNat < 128 ∧ c.toLower = c) →
    rt.toLowerCase text = text

section Lists

variable {α : Type} [DecidableEq α]

theorem nodup_eraseDups (xs : List α) : xs.eraseDups.Nodup := by
  induction h : xs.length using Nat.strong_induction_on generalizing xs with
  | _ n ih =>
    rcases xs with _ | ⟨x, xs⟩
    · exact List.nodup_nil
    · rw [List.eraseDups_cons, List.nodup_cons]
      refine ⟨?_, ih _ ?_ _ rfl⟩
      · rw [List.mem_eraseDups]
        simp
      · have hle := List.length_filter_le (fun y => !y == x) xs
        rw [List.length_cons] at h
        omega

theorem eraseDups_of_nodup {xs : List α} (h : xs.Nodup) : xs.eraseDups = xs := by
  induction xs with
  | nil => rfl
  | cons x xs ih =>
    obtain ⟨hx, hxs⟩ := List.nodup_cons.mp h
    have hfilter : xs.filter (fun y => !y == x) = xs := by
      refine List.filter_eq_self.mpr fun y hy => ?_
      have hne : y ≠ x := fun he => hx (he ▸ hy)
      simpa using hne
    rw [List.eraseDups_cons, hfilter, ih hxs]

end Lists

theorem trimChars_trimChars (cs : List Char) :
    Text.trimChars (Text.trimChars cs) = Text.trimChars cs := by
  refine Text.trimChars_eq_self.mpr ⟨fun c hc => ?_, fun c hc => ?_⟩
  · -- the first character is the first that is no blank
    have hprefix : Text.trimChars cs <+: cs.dropWhile Text.isWhitespace :=
      List.reverse_suffix.mp (by
        rw [Text.trimChars, List.reverse_reverse]
        exact List.dropWhile_suffix _)
    have hfirst := List.head?_dropWhile_not Text.isWhitespace cs
    obtain ⟨rest, hrest⟩ := hprefix
    rcases htrim : Text.trimChars cs with _ | ⟨d, ds⟩
    · rw [htrim] at hc
      cases hc
    · rw [htrim] at hc hrest
      rw [← hrest] at hfirst
      obtain rfl := Option.some.inj hc
      exact hfirst
  · rw [Text.trimChars, List.getLast?_reverse] at hc
    have hlast := List.head?_dropWhile_not Text.isWhitespace
      (cs.dropWhile Text.isWhitespace).reverse
    rw [Option.mem_def.mp hc] at hlast
    exact hlast

theorem trim_trim (text : String) : Text.trim (Text.trim text) = Text.trim text := by
  rw [Text.trim, Text.trim, String.toList_ofList, trimChars_trimChars]

variable {rt}

/-- **Recipients that were cleaned** are not cleaned further. -/
theorem cleanEmails_cleanEmails (h : LowersOnce rt) (emails : List String) :
    cleanEmails rt (cleanEmails rt emails) = cleanEmails rt emails := by
  have hclean : ∀ email ∈ cleanEmails rt emails,
      email ≠ "" ∧ rt.toLowerCase (Text.trim email) = email := by
    intro email hemail
    rw [cleanEmails, List.mem_eraseDups] at hemail
    obtain ⟨hmem, hne⟩ := List.mem_filter.mp hemail
    obtain ⟨token, -, rfl⟩ := List.mem_map.mp hmem
    refine ⟨of_decide_eq_true hne, ?_⟩
    rw [h.trim_lower _ (trim_trim token), h.lower_lower]
  have hmap : (cleanEmails rt emails).map (fun email => rt.toLowerCase (Text.trim email))
      = cleanEmails rt emails :=
    (List.map_congr_left fun email hemail => (hclean email hemail).2).trans (List.map_id _)
  rw [cleanEmails, hmap, List.filter_eq_self.mpr fun email hemail =>
    decide_eq_true (hclean email hemail).1]
  exact eraseDups_of_nodup (nodup_eraseDups _)

/-- **Chats that were cleaned** are not cleaned further. -/
theorem cleanChatIds_cleanChatIds (chatIds : List String) :
    cleanChatIds (cleanChatIds chatIds) = cleanChatIds chatIds := by
  have hclean : ∀ chatId ∈ cleanChatIds chatIds,
      chatId ≠ "" ∧ Text.trim chatId = chatId ∧ isChatId chatId = true := by
    intro chatId hchat
    rw [cleanChatIds, List.mem_eraseDups] at hchat
    obtain ⟨hmem, hdigits⟩ := List.mem_filter.mp hchat
    obtain ⟨hmem, hne⟩ := List.mem_filter.mp hmem
    obtain ⟨token, -, rfl⟩ := List.mem_map.mp hmem
    exact ⟨of_decide_eq_true hne, trim_trim token, hdigits⟩
  have hmap : (cleanChatIds chatIds).map Text.trim = cleanChatIds chatIds :=
    (List.map_congr_left fun chatId hchat => (hclean chatId hchat).2.1).trans (List.map_id _)
  rw [cleanChatIds, hmap, List.filter_eq_self.mpr fun chatId hchat =>
    decide_eq_true (hclean chatId hchat).1, List.filter_eq_self.mpr fun chatId hchat =>
    (hclean chatId hchat).2.2]
  exact eraseDups_of_nodup (nodup_eraseDups _)

/-! ## Accepted settings -/

variable {allowPrivateHosts : Bool} {tenantId : String} {body : UpdateSettingsBody}
  {input : UpdateSettingsInput}

/-- **Settings that can be sent again**: each is clean, valid and safe. -/
structure Clean (rt : SettingsRuntime) (allowPrivateHosts : Bool) (url : Option String)
    (emails chatIds : List String) : Prop where
  /-- the webhook is trimmed, and its URL is valid -/
  trimmed : ∀ text ∈ url, text ≠ "" ∧ Text.trim text = text ∧ rt.isUrl text = true
  /-- it may be called -/
  safe : isSafeWebhook rt allowPrivateHosts url = true
  /-- the recipients are clean -/
  cleaned : cleanEmails rt emails = emails
  /-- and valid -/
  valid : ∀ email ∈ emails, rt.isEmail email = true
  /-- the chats are clean -/
  chats : cleanChatIds chatIds = chatIds

theorem trimmed_of_trimmedText {value : BodyField} {text : String}
    (h : trimmedText value = some (some text)) : text ≠ "" ∧ Text.trim text = text := by
  cases value with
  | text value =>
    obtain ⟨hne, rfl⟩ : Text.trim value ≠ "" ∧ Text.trim value = text := by
      simpa [trimmedText] using h
    exact ⟨hne, trim_trim value⟩
  | _ => cases h

theorem isChatId_of_clean {chatIds : List String} (h : cleanChatIds chatIds = chatIds) :
    ∀ chatId ∈ chatIds, isChatId chatId = true := by
  intro chatId hchat
  rw [← h, cleanChatIds, List.mem_eraseDups] at hchat
  exact (List.mem_filter.mp hchat).2

/-- What `validate` has checked. -/
theorem validate_eq_some {payload : UpdateSettingsDto} (h : validate rt body = some payload) :
    payload.webhookNotifierUrl = normalizeOptionalUrl body.webhookNotifierUrl ∧
      payload.webhookNotifierUrl.join.all rt.isUrl = true ∧
      parseRecipientEmails rt body.recipientEmails = some payload.recipientEmails ∧
      (payload.recipientEmails.getD []).all rt.isEmail = true ∧
      parseTelegramChatIds body.telegramChatIds = some payload.telegramChatIds := by
  simp only [validate, Option.bind_eq_bind, Option.bind_eq_some_iff, Option.guard_eq_some',
    Option.pure_def, Option.some.injEq] at h
  obtain ⟨-, hurl, emails, hemails, -, hvalid, chatIds, hchatIds, -, -, mode, -, clear, -, rfl⟩ := h
  exact ⟨rfl, hurl, hemails, hvalid, hchatIds⟩

/-- **What is accepted is clean.** -/
theorem clean_of_accept (hlow : LowersOnce rt)
    (h : accept rt allowPrivateHosts tenantId body = some input) :
    input.tenantId = tenantId ∧ Clean rt allowPrivateHosts input.webhookNotifierUrl
      input.recipientEmails input.telegramChatIds := by
  simp only [accept, Option.bind_eq_bind, Option.bind_eq_some_iff, Option.guard_eq_some',
    Option.pure_def, Option.some.injEq] at h
  obtain ⟨payload, hpayload, -, hsafe, rfl⟩ := h
  obtain ⟨hurl, hisUrl, hemails, hisEmail, hchatIds⟩ := validate_eq_some hpayload
  refine ⟨rfl, fun text htext => ?_, hsafe, ?_, List.all_eq_true.mp hisEmail, ?_⟩
  · have hwebhook : payload.webhookNotifierUrl = some (some text) := by
      have hgetD : payload.webhookNotifierUrl.getD none = some text := htext
      rcases hurl' : payload.webhookNotifierUrl with _ | url
      · rw [hurl'] at hgetD
        cases hgetD
      · rw [hurl'] at hgetD
        exact congrArg some hgetD
    rw [hwebhook] at hurl hisUrl
    obtain ⟨hne, htrim⟩ := trimmed_of_trimmedText hurl.symm
    exact ⟨hne, htrim, hisUrl⟩
  · obtain ⟨tokens, -, heq⟩ := Option.map_eq_some_iff.mp hemails
    change cleanEmails rt (payload.recipientEmails.getD []) = payload.recipientEmails.getD []
    rw [← heq]
    cases tokens with
    | none => rfl
    | some tokens => exact cleanEmails_cleanEmails hlow tokens
  · obtain ⟨tokens, -, heq⟩ := Option.map_eq_some_iff.mp hchatIds
    change cleanChatIds (payload.telegramChatIds.getD []) = payload.telegramChatIds.getD []
    rw [← heq]
    cases tokens with
    | none => rfl
    | some tokens => exact cleanChatIds_cleanChatIds tokens

/-- The request that puts a view back. -/
def puttingBack (tenantId : String) (view : SettingsView) : UpdateSettingsInput where
  tenantId := tenantId
  webhookNotifierUrl := view.webhookNotifierUrl
  recipientEmails := view.recipientEmails
  telegramChatIds := view.telegramChatIds
  telegramDeliveryMode := view.telegramDeliveryMode
  telegramBotToken := none
  clearTelegramBotToken := false

/-- **What is clean is accepted as it is.** -/
theorem accept_putBack (hlow : LowersOnce rt) {view : SettingsView}
    (h : Clean rt allowPrivateHosts view.webhookNotifierUrl view.recipientEmails
      view.telegramChatIds) :
    accept rt allowPrivateHosts tenantId (putBack view) = some (puttingBack tenantId view) := by
  have hurl : (normalizeOptionalUrl ((view.webhookNotifierUrl.map BodyField.text).getD .null))
      = some view.webhookNotifierUrl := by
    rcases hwebhook : view.webhookNotifierUrl with _ | url
    · rfl
    · obtain ⟨hne, htrim, -⟩ := h.trimmed url hwebhook
      simp [normalizeOptionalUrl, trimmedText, htrim, hne]
  have hisUrl : view.webhookNotifierUrl.all rt.isUrl = true := by
    rw [Option.all_eq_true]
    exact fun url hwebhook => (h.trimmed url hwebhook).2.2
  have hdelivery : normalizeDeliveryMode rt (.text (modeText view.telegramDeliveryMode))
      = some (some view.telegramDeliveryMode) := by
    have htrim : Text.trim (modeText view.telegramDeliveryMode)
        = modeText view.telegramDeliveryMode := by
      cases view.telegramDeliveryMode <;> decide
    have hlower : rt.toLowerCase (modeText view.telegramDeliveryMode)
        = modeText view.telegramDeliveryMode := by
      have hascii : (modeText view.telegramDeliveryMode).toList.all
          (fun c => decide (c.toNat < 128) && c.toLower == c) = true := by
        cases view.telegramDeliveryMode <;> rfl
      refine hlow.lower_ascii _ fun c hc => ?_
      simpa using List.all_eq_true.mp hascii c hc
    rw [normalizeDeliveryMode, htrim, hlower]
    cases view.telegramDeliveryMode <;> rfl
  have hvalid : validate rt (putBack view) = some
      { webhookNotifierUrl := some view.webhookNotifierUrl
        recipientEmails := some view.recipientEmails
        telegramChatIds := some view.telegramChatIds
        telegramDeliveryMode := some view.telegramDeliveryMode
        telegramBotToken := none
        telegramBotTokenClear := none } := by
    have hchatIds := isChatId_of_clean h.chats
    simp [validate, putBack, hurl, parseRecipientEmails, parseTelegramChatIds, tokens, h.cleaned,
      h.chats, hdelivery, normalizeBoolean, normalizeOptionalString, trimmedText, hisUrl, guard]
    rw [if_pos h.valid, Option.bind_some, if_pos hchatIds, Option.bind_some]
  simp [accept, hvalid, UpdateSettings.update, puttingBack, h.safe, guard]

/-- The statement of a request writes the settings of the request. -/
theorem statement_eq_ok {config : AppConfig} {iv : String} {settings : NotifierSettings}
    (h : statement config rt.toSecretsRuntime input iv = .ok settings) :
    settings.tenantId = input.tenantId ∧ settings.webhookNotifierUrl = input.webhookNotifierUrl ∧
      settings.recipientEmails = input.recipientEmails ∧
      settings.telegramChatIds = input.telegramChatIds := by
  unfold statement at h
  dsimp only at h
  split at h
  · rcases hencrypted : TenantSecrets.encryptTelegramBotToken config rt.toSecretsRuntime
      input.tenantId (input.telegramBotToken.join.getD "") iv with message | encrypted
    · rw [hencrypted] at h
      cases h
    · rw [hencrypted] at h
      obtain rfl := Except.ok.inj h
      exact ⟨rfl, rfl, rfl, rfl⟩
  · obtain rfl := Except.ok.inj h
    exact ⟨rfl, rfl, rfl, rfl⟩

/-- The statement that puts a view back. -/
def puttingBackStatement (tenantId : String) (view : SettingsView) : NotifierSettings where
  tenantId := tenantId
  webhookNotifierUrl := view.webhookNotifierUrl
  recipientEmails := view.recipientEmails
  telegramChatIds := view.telegramChatIds
  telegramDeliveryMode := view.telegramDeliveryMode
  telegramBotTokenOperation := .unchanged
  telegramBotTokenEncrypted := none

theorem statement_puttingBack (config : AppConfig) (view : SettingsView) (iv : String) :
    statement config rt.toSecretsRuntime (puttingBack tenantId view) iv
      = .ok (puttingBackStatement tenantId view) := rfl

end UpdateSettings

/-! ## Runs -/

namespace SecretStore

open UpdateSettings SettingsRepository Transition

/-- **Whatever the table shows can be sent again**, now and after the updates under way. -/
structure Presentable (rt : SettingsRuntime) (allowPrivateHosts : Bool) (s : SecretStore) :
    Prop where
  /-- the rows are clean -/
  rows : ∀ row ∈ s.rows, Clean rt allowPrivateHosts row.webhookNotifierUrl row.recipientEmails
    row.telegramChatIds
  /-- `tenant_id` is the primary key -/
  keys : (s.rows.map TenantSettingsRow.tenantId).Nodup
  /-- what is under way is clean -/
  updates : ∀ u ∈ s.updates, Clean rt allowPrivateHosts u.settings.webhookNotifierUrl
    u.settings.recipientEmails u.settings.telegramChatIds

variable {rt : SettingsRuntime} {allowPrivateHosts : Bool} {config : AppConfig}
  {s s' : SecretStore}

/-- An upsert keeps the key. -/
theorem keys_upsert {rows : List TenantSettingsRow} (input : NotifierSettings)
    (h : (rows.map TenantSettingsRow.tenantId).Nodup) :
    ((upsertNotifierSettings input rows).map TenantSettingsRow.tenantId).Nodup := by
  unfold upsertNotifierSettings
  split
  · rename_i hnone
    rw [List.map_append, List.nodup_append]
    refine ⟨h, List.nodup_singleton _, fun tenantId htenant other hother => ?_⟩
    obtain ⟨row, hrow, rfl⟩ := List.mem_map.mp htenant
    obtain rfl := List.mem_singleton.mp hother
    exact Table.lookup_eq_none.mp hnone row hrow
  · rwa [Table.map_updateWhere]
    exact fun _ => rfl

theorem keys_upgrade (tenantId : String) (expected encrypted : TenantEncryptedSecret)
    (rows : List TenantSettingsRow) :
    (upgradeTelegramBotTokenKeyVersion tenantId expected encrypted rows).map
      TenantSettingsRow.tenantId = rows.map TenantSettingsRow.tenantId :=
  Table.map_updateWhere _ rows fun _ => rfl

/-- Scheduling an upgrade touches neither the table nor the updates. -/
theorem rows_scheduleKeyVersionUpgrade (rt : SettingsRuntime) (config : AppConfig)
    (s : SecretStore) (snapshot : SettingsSnapshot) (iv : String) :
    (scheduleKeyVersionUpgrade config rt.toSecretsRuntime s snapshot iv).rows = s.rows ∧
      (scheduleKeyVersionUpgrade config rt.toSecretsRuntime s snapshot iv).updates
        = s.updates := by
  unfold scheduleKeyVersionUpgrade
  split
  · exact ⟨rfl, rfl⟩
  · split
    · exact ⟨rfl, rfl⟩
    · split
      · split <;> exact ⟨rfl, rfl⟩
      · exact ⟨rfl, rfl⟩

theorem Presentable.congr (h : s.Presentable rt allowPrivateHosts) (hrows : s'.rows = s.rows)
    (hupdates : ∀ u ∈ s'.updates, u ∈ s.updates) : s'.Presentable rt allowPrivateHosts where
  rows := hrows ▸ h.rows
  keys := hrows ▸ h.keys
  updates u hu := h.updates u (hupdates u hu)

/-- **Each step** keeps the table presentable, if a request it starts was accepted. -/
theorem Presentable.step (hlow : LowersOnce rt) (h : s.Presentable rt allowPrivateHosts)
    {a : SecretAction} (ha : ∀ input iv, a = .request input iv →
      ∃ body, accept rt allowPrivateHosts input.tenantId body = some input)
    (hstep : SecretStore.step config rt.toSecretsRuntime s a = some s') :
    s'.Presentable rt allowPrivateHosts := by
  cases a with
  | request input iv =>
    obtain ⟨body, hbody⟩ := ha input iv rfl
    obtain ⟨-, hclean⟩ := clean_of_accept hlow hbody
    obtain ⟨-, hstep⟩ := Option.ite_none_left_eq_some.mp hstep
    split at hstep
    · obtain rfl := Option.some.inj hstep
      exact h
    · rename_i settings hsettings
      obtain rfl := Option.some.inj hstep
      obtain ⟨-, hurl, hemails, hchatIds⟩ := statement_eq_ok hsettings
      refine ⟨h.rows, h.keys, fun u hu => ?_⟩
      rcases List.mem_append.mp hu with hu | hu
      · exact h.updates u hu
      · obtain rfl := List.mem_singleton.mp hu
        rw [hurl, hemails, hchatIds]
        exact hclean
  | landUpdate i =>
    obtain ⟨u, hu, rfl⟩ := Option.map_eq_some_iff.mp hstep
    have hclean := h.updates u (List.mem_of_getElem? hu)
    refine ⟨fun row hrow => ?_, keys_upsert u.settings h.keys,
      fun v hv => h.updates v (List.mem_of_mem_eraseIdx hv)⟩
    rcases mem_upsert hrow with ⟨rfl, -⟩ | ⟨hold, -⟩ | ⟨old, -, -, rfl⟩
    · exact hclean
    · exact h.rows row hold
    · exact hclean
  | dropUpdate i =>
    obtain ⟨u, -, rfl⟩ := Option.map_eq_some_iff.mp hstep
    exact h.congr rfl fun v hv => List.mem_of_mem_eraseIdx hv
  | read pid tenantId =>
    obtain rfl := Option.some.inj hstep
    exact h.congr rfl fun v hv => hv
  | resolve i iv =>
    obtain ⟨-, hstep⟩ := Option.ite_none_left_eq_some.mp hstep
    obtain ⟨snapshot, -, rfl⟩ := Option.map_eq_some_iff.mp hstep
    have hsame := rows_scheduleKeyVersionUpgrade rt config
      { s with snapshots := s.snapshots.eraseIdx i } snapshot iv
    exact h.congr hsame.1 fun v hv => hsame.2 ▸ hv
  | landUpgrade i =>
    obtain ⟨u, -, rfl⟩ := Option.map_eq_some_iff.mp hstep
    refine ⟨fun row hrow => ?_, ?_, h.updates⟩
    · rcases mem_upgrade hrow with hold | ⟨old, hold, -, -, -, rfl⟩
      · exact h.rows row hold
      · exact h.rows old hold
    · exact keys_upgrade u.tenantId u.expected u.encrypted s.rows ▸ h.keys
  | dropUpgrade i =>
    obtain ⟨u, -, rfl⟩ := Option.map_eq_some_iff.mp hstep
    exact h.congr rfl fun v hv => hv

/-- A row to which what it shows is sent again. -/
theorem upsert_puttingBack {rows : List TenantSettingsRow} {row : TenantSettingsRow}
    (hkeys : (rows.map TenantSettingsRow.tenantId).Nodup) (hrow : row ∈ rows) :
    upsertNotifierSettings
        (puttingBackStatement row.tenantId (getSettings row.tenantId rows)) rows = rows := by
  have hlookup : Table.lookup TenantSettingsRow.tenantId row.tenantId rows = some row :=
    Table.lookup_of_mem hkeys hrow
  have hview : getSettings row.tenantId rows
      = { webhookNotifierUrl := row.webhookNotifierUrl
          recipientEmails := row.recipientEmails
          telegramChatIds := row.telegramChatIds
          telegramDeliveryMode := row.telegramDeliveryMode
          telegramBotTokenConfigured :=
            (Settings.mapTelegramBotTokenEncrypted row).isSome } := by
    simp [getSettings, Settings.getByTenantId, hlookup, Settings.mapTenantSettings]
  have hsame : updatedRow (puttingBackStatement row.tenantId (getSettings row.tenantId rows)) row
      = row := by
    rw [hview]
    rfl
  unfold upsertNotifierSettings
  simp only [puttingBackStatement, hlookup]
  refine (List.map_congr_left fun other hother => ?_).trans (List.map_id _)
  dsimp only [id]
  split
  · rename_i htenant
    -- the row of the tenant is the only one
    obtain rfl := List.inj_on_of_nodup_map hkeys hother hrow (of_decide_eq_true htenant)
    exact hsame
  · rfl

/-- The row of a tenant that had none. -/
theorem getByTenantId_append {rows : List TenantSettingsRow} (row : TenantSettingsRow)
    (hnone : Table.lookup TenantSettingsRow.tenantId row.tenantId rows = none) (tenant : String) :
    Settings.getByTenantId tenant (rows ++ [row])
      = if row.tenantId = tenant then some (Settings.mapTenantSettings row)
        else Settings.getByTenantId tenant rows := by
  unfold Settings.getByTenantId
  rw [Table.lookup_append]
  split
  · rename_i htenant
    subst htenant
    rw [hnone]
    simp [Table.lookup]
  · rename_i htenant
    simp [Table.lookup, htenant]

/-- A tenant without a row to which the defaults are sent. -/
theorem getByTenantId_puttingBack {rows : List TenantSettingsRow} {tenantId : String}
    (hnone : Table.lookup TenantSettingsRow.tenantId tenantId rows = none) (tenant : String) :
    getSettings tenant (upsertNotifierSettings
        (puttingBackStatement tenantId (getSettings tenantId rows)) rows)
      = getSettings tenant rows ∧
    (Settings.getByTenantId tenant (upsertNotifierSettings
        (puttingBackStatement tenantId (getSettings tenantId rows)) rows)).bind
        TenantSettings.telegramBotTokenEncrypted
      = (Settings.getByTenantId tenant rows).bind TenantSettings.telegramBotTokenEncrypted := by
  have habsent : Settings.getByTenantId tenantId rows = none := by
    rw [Settings.getByTenantId, hnone, Option.map_none]
  have hrows : upsertNotifierSettings (puttingBackStatement tenantId (getSettings tenantId rows))
      rows = rows ++ [insertedRow (puttingBackStatement tenantId (getSettings tenantId rows))] := by
    simp only [upsertNotifierSettings, puttingBackStatement, hnone]
  have hfound : Settings.getByTenantId tenant
      (rows ++ [insertedRow (puttingBackStatement tenantId (getSettings tenantId rows))])
        = if tenantId = tenant then some (Settings.mapTenantSettings
            (insertedRow (puttingBackStatement tenantId (getSettings tenantId rows))))
          else Settings.getByTenantId tenant rows :=
    getByTenantId_append _ hnone tenant
  rw [hrows]
  by_cases htenant : tenantId = tenant
  · subst htenant
    rw [if_pos rfl] at hfound
    rw [getSettings, hfound]
    simp [getSettings, habsent, Settings.mapTenantSettings, insertedRow, puttingBackStatement,
      Settings.mapTelegramBotTokenEncrypted]
  · rw [if_neg htenant] at hfound
    rw [getSettings, hfound]
    exact ⟨rfl, rfl⟩

/-- **Settings that are sent back change nothing.** In every run of settings requests, readers and
upgrades, in any order and with any of them lost, what is shown of a tenant is accepted when it is
sent again; the statement it issues leaves what is shown of every tenant and every tenant's bot
token as they are, and the table itself if the tenant has a row. -/
theorem settings_round_trip (hlow : LowersOnce rt) {s₀ : SecretStore} {as : List SecretAction}
    (h₀ : s₀.Presentable rt allowPrivateHosts)
    (has : ∀ input iv, .request input iv ∈ as →
      ∃ body, accept rt allowPrivateHosts input.tenantId body = some input)
    (hrun : run (SecretStore.step config rt.toSecretsRuntime) s₀ as = some s)
    (tenantId : String) :
    ∃ input settings,
      accept rt allowPrivateHosts tenantId (putBack (getSettings tenantId s.rows)) = some input ∧
      (∀ iv, statement config rt.toSecretsRuntime input iv = .ok settings) ∧
      (∀ tenant, getSettings tenant (upsertNotifierSettings settings s.rows)
        = getSettings tenant s.rows) ∧
      (∀ tenant, ((Settings.getByTenantId tenant (upsertNotifierSettings settings s.rows)).bind
          TenantSettings.telegramBotTokenEncrypted)
        = (Settings.getByTenantId tenant s.rows).bind TenantSettings.telegramBotTokenEncrypted) ∧
      ((∃ row ∈ s.rows, row.tenantId = tenantId) →
        upsertNotifierSettings settings s.rows = s.rows) := by
  have hs : s.Presentable rt allowPrivateHosts := run_invariant_of_forall
    (fun _ _ _ ha hs hstep => Presentable.step hlow hs ha hstep)
    (fun a ha input iv heq => has input iv (heq ▸ ha)) h₀ hrun
  have hclean : Clean rt allowPrivateHosts (getSettings tenantId s.rows).webhookNotifierUrl
      (getSettings tenantId s.rows).recipientEmails
      (getSettings tenantId s.rows).telegramChatIds := by
    unfold getSettings Settings.getByTenantId
    rcases hlookup : Table.lookup TenantSettingsRow.tenantId tenantId s.rows with _ | row
    · exact ⟨nofun, rfl, rfl, nofun, rfl⟩
    · exact hs.rows row (Table.mem_of_lookup hlookup)
  refine ⟨_, _, accept_putBack hlow hclean, fun iv => statement_puttingBack config _ iv, ?_⟩
  rcases hlookup : Table.lookup TenantSettingsRow.tenantId tenantId s.rows with _ | row
  · refine ⟨fun tenant => (getByTenantId_puttingBack hlookup tenant).1,
      fun tenant => (getByTenantId_puttingBack hlookup tenant).2, ?_⟩
    rintro ⟨row, hrow, htenant⟩
    exact absurd htenant (Table.lookup_eq_none.mp hlookup row hrow)
  · obtain rfl := Table.key_of_lookup hlookup
    have hsame := upsert_puttingBack hs.keys (Table.mem_of_lookup hlookup)
    rw [hsame]
    exact ⟨fun _ => rfl, fun _ => rfl, fun _ => rfl⟩

/-- A runtime that lowercases ASCII and knows one host. -/
def oneHost : SettingsRuntime :=
  { prefixing with
    toLowerCase := CanonicalLink.lowerAscii
    parseUrl := fun url =>
      if url = "https://hooks.test/a" then some
        { protocol := "https:", userinfo := "", hostname := "hooks.test", port := ""
          pathname := "/a", search := "", hash := "" }
      else none
    setProtocol := fun parsed value => { parsed with protocol := value }
    setHostname := fun parsed value => { parsed with hostname := value }
    setPort := fun parsed value => { parsed with port := value }
    setPathname := fun parsed value => { parsed with pathname := value }
    setHash := fun parsed value => { parsed with hash := value }
    urlToString := fun parsed => parsed.protocol ++ "//" ++ parsed.hostname ++ parsed.pathname
    isPublicHostname := fun host => host = "hooks.test"
    isUrl := fun url => url.toList.contains '/'
    isEmail := fun email => email.toList.contains '@' }

theorem oneHost_lowersOnce : LowersOnce oneHost where
  lower_lower text := by
    change CanonicalLink.lowerAscii (CanonicalLink.lowerAscii text) = CanonicalLink.lowerAscii text
    unfold CanonicalLink.lowerAscii
    rw [String.toList_ofList, List.map_map]
    exact congrArg String.ofList (List.map_congr_left fun c _ => Text.toLower_toLower c)
  trim_lower text htrim := by
    have hblank : ∀ c : Char, Text.isWhitespace c = false →
        Text.isWhitespace c.toLower = false := by
      intro c hc
      rcases Text.toLower_cases c with heq | ⟨hlow, hhigh⟩
      · rw [heq]
        exact hc
      · simp only [Text.isWhitespace, Bool.or_eq_false_iff, Bool.and_eq_false_iff,
          decide_eq_false_iff_not]
        omega
    have hchars : Text.trimChars text.toList = text.toList := by
      rw [← String.toList_ofList (l := Text.trimChars text.toList)]
      exact congrArg String.toList htrim
    obtain ⟨hfirst, hlast⟩ := Text.trimChars_eq_self.mp hchars
    change String.ofList (Text.trimChars (String.ofList (text.toList.map Char.toLower)).toList)
      = String.ofList (text.toList.map Char.toLower)
    rw [String.toList_ofList, Text.trimChars_eq_self.mpr]
    constructor
    · intro c hc
      rw [List.head?_map] at hc
      obtain ⟨d, hd, rfl⟩ := Option.map_eq_some_iff.mp hc
      exact hblank d (hfirst d hd)
    · intro c hc
      rw [List.getLast?_map] at hc
      obtain ⟨d, hd, rfl⟩ := Option.map_eq_some_iff.mp hc
      exact hblank d (hlast d hd)
  lower_ascii text hascii := by
    change String.ofList (text.toList.map Char.toLower) = text
    rw [List.map_congr_left fun c hc => (hascii c hc).2, List.map_id', String.ofList_toList]

/-- Settings as a user types them. -/
def typedBody : UpdateSettingsBody where
  webhookNotifierUrl := .text " https://hooks.test/a "
  recipientEmails := .text "Ops@x.test, dev@x.test\nops@x.test"
  telegramChatIds := .items [" -100 ", "all", "-100"]
  telegramDeliveryMode := .missing
  telegramBotToken := .text "  "
  telegramBotTokenClear := .null

/-- The request they become. -/
def typedInput : UpdateSettingsInput where
  tenantId := "t"
  webhookNotifierUrl := some "https://hooks.test/a"
  recipientEmails := ["ops@x.test", "dev@x.test"]
  telegramChatIds := ["-100"]
  telegramDeliveryMode := .instant
  telegramBotToken := some none
  clearTelegramBotToken := false

theorem accept_typedBody : accept oneHost false "t" typedBody = some typedInput := by
  decide +kernel

theorem oldToken_presentable : oldToken.Presentable oneHost false where
  rows row hrow := by
    obtain rfl := List.mem_singleton.mp hrow
    exact ⟨nofun, rfl, rfl, nofun, by decide +kernel⟩
  keys := List.nodup_singleton _
  updates := nofun

theorem settings_round_trip_typed : ∃ s,
    run (SecretStore.step withMasterKey oneHost.toSecretsRuntime) oldToken
      [.request typedInput "iv1:", .landUpdate 0] = some s ∧
    getSettings "t" s.rows = ⟨some "https://hooks.test/a", ["ops@x.test", "dev@x.test"], ["-100"],
      .instant, false⟩ ∧
    ∃ input settings,
      accept oneHost false "t" (putBack (getSettings "t" s.rows)) = some input ∧
      (∀ iv, statement withMasterKey oneHost.toSecretsRuntime input iv = .ok settings) ∧
      upsertNotifierSettings settings s.rows = s.rows := by
  have hend : (run (SecretStore.step withMasterKey oneHost.toSecretsRuntime) oldToken
      [.request typedInput "iv1:", .landUpdate 0]).map
        (fun s => (getSettings "t" s.rows, s.rows.map TenantSettingsRow.tenantId)) = some
      (⟨some "https://hooks.test/a", ["ops@x.test", "dev@x.test"], ["-100"], .instant, false⟩,
        ["t"]) := by
    decide +kernel
  obtain ⟨s, hrun, hs⟩ := Option.map_eq_some_iff.mp hend
  obtain ⟨hview, htenants⟩ := Prod.mk.inj hs
  obtain ⟨input, settings, haccept, hstatement, -, -, hsame⟩ :=
    settings_round_trip oneHost_lowersOnce oldToken_presentable (fun input iv hmem => by
      rcases List.mem_cons.mp hmem with heq | hmem
      · obtain ⟨rfl, -⟩ := SecretAction.request.inj heq
        exact ⟨typedBody, accept_typedBody⟩
      · cases List.mem_singleton.mp hmem) hrun "t"
  have hrow : "t" ∈ s.rows.map TenantSettingsRow.tenantId := htenants ▸ List.mem_cons_self
  exact ⟨s, hrun, hview, input, settings, haccept, hstatement, hsame (List.mem_map.mp hrow)⟩

end SecretStore

end Feedpulse
