import Feedpulse.Text

/-!
# Configuration and the code outside the repository

`AppConfig` holds the environment settings the modelled services read
(`AppConfigService`). `Runtime` holds the functions of the JavaScript runtime and
of third-party packages that the services call; nothing is assumed of them here,
so every result holds whatever they compute.
-/

namespace Feedpulse

/-- The settings read by the modelled services. -/
structure AppConfig where
  /-- `SCHEDULER_BATCH_SIZE` -/
  schedulerBatchSize : Nat
  /-- `SCHEDULER_STUCK_FEED_THRESHOLD_SECONDS` -/
  schedulerStuckFeedThresholdSeconds : Nat
  /-- `WEBHOOK_NOTIFIER_URL` -/
  webhookNotifierUrl : Option String
  /-- `RESEND_API_KEY` -/
  resendApiKey : Option String
  /-- `RESEND_FROM_EMAIL` -/
  resendFromEmail : Option String
  /-- `RESEND_DAILY_LIMIT` -/
  resendDailyLimit : Nat
  /-- `TELEGRAM_BOT_TOKEN` -/
  telegramBotToken : Option String
  /-- `TENANT_SECRETS_MASTER_KEY` -/
  tenantSecretsMasterKey : Option String

/-- One item of a parsed feed, as `rss-parser` hands it over. -/
structure FeedItem where
  /-- the title, if the item has one -/
  title : Option String
  /-- the link, if the item has one -/
  link : Option String
  /-- the guid after `normalizeRawGuid` -/
  guid : Option String
  /-- the plain-text content -/
  contentSnippet : Option String
  /-- the raw content -/
  content : Option String
  /-- the publication date as an ISO string -/
  isoDate : Option String
  /-- the publication date as written in the feed -/
  pubDate : Option String
  deriving DecidableEq, Repr

/-- Functions of the runtime and of third-party packages. -/
structure Runtime where
  /-- `String.prototype.toLowerCase` -/
  toLowerCase : String → String
  /-- `String.prototype.normalize('NFD')` -/
  normalizeNFD : String → String
  /-- the character classes `\p{L}` and `\p{N}` -/
  isLetterOrNumber : Char → Bool
  /-- `createHash('sha256').update(text).digest('hex')` -/
  sha256Hex : String → String
  /-- `new Date(value).toISOString()`, if `value` is a valid date -/
  parseDate : String → Option String
  /-- `Parser.parseString`: the items of a feed, or the message of the parse error -/
  parseFeed : String → Except String (List FeedItem)
  /-- AES-256-GCM with the key of a version derived from the master key: master key,
  key version, initialisation vector, tag, ciphertext, additional data -/
  decipher : String → Nat → String → String → String → Option String → Option String

end Feedpulse
