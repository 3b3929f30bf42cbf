import Feedpulse.Config
import Feedpulse.Feeds
import Mathlib.Algebra.Order.Ring.Nat

/-!
# Classifying a failed fetch

`ProcessFeedJobUseCase` turns the message of whatever went wrong into a category,
and the category into the status, the error text and the delay it reports for the
feed. Delays carry a random jitter, drawn below a bound that depends on the
category.
-/

namespace Feedpulse

/-- `FeedFailureCategory`. -/
inductive FeedFailureCategory
  /-- the feed is gone -/
  | terminalNotFound
  /-- the URL does not serve a feed, or must not be fetched -/
  | terminalInvalidFeed
  /-- the feed is not well-formed XML -/
  | terminalInvalidXml
  /-- the host has not resolved for a while -/
  | autoPausedDns
  /-- the host has refused access for a while -/
  | autoPausedBlocked
  /-- anything else: the job is retried -/
  | transient
  deriving DecidableEq, Repr

/-- `FeedFailureClassification`. -/
structure FeedFailureClassification where
  /-- the category -/
  category : FeedFailureCategory
  /-- the status reported for the feed -/
  status : FeedStatus
  /-- the delay until the next check -/
  nextCheckInSeconds : Nat
  /-- the error text reported for the feed -/
  lastError : String
  /-- whether the job fails, so that the queue retries it -/
  shouldRethrow : Bool
  deriving DecidableEq, Repr

namespace FeedFailure

/-- `DNS_AUTO_PAUSE_DELAY_SECONDS`. -/
def dnsAutoPauseDelaySeconds : Nat := 12 * 60 * 60

/-- `BLOCKED_AUTO_PAUSE_DELAY_SECONDS`. -/
def blockedAutoPauseDelaySeconds : Nat := 14 * 60 * 60

/-- `isDnsResolutionFailure`, on a lower-cased message. -/
def isDnsResolutionFailure (normalized : String) : Bool :=
  Text.includes normalized "could not resolve host" || Text.includes normalized "enotfound" ||
    Text.includes normalized "eai_again"

/-- `detectFeedFailureCategory`. -/
def detectFeedFailureCategory (rt : Runtime) (message : String) (errorCount : Nat) :
    FeedFailureCategory :=
  let normalized := rt.toLowerCase message
  let has := Text.includes normalized
  let unsupported := has "feed not recognized as rss"
  let hardXml := has "unable to parse xml" || has "invalid character in" ||
    has "attribute without value"
  let unsafeTarget := has "unsafe_host" || has "unsafe_protocol" ||
    has "feed_url_host_not_allowed"
  let oversizedBody := has "feed_body_too_large"
  if has "status 404" || has "status 410" then .terminalNotFound
  else if unsupported || unsafeTarget || oversizedBody then .terminalInvalidFeed
  else if hardXml then .terminalInvalidXml
  else if has "status 403" && 5 ≤ errorCount then .autoPausedBlocked
  else if isDnsResolutionFailure normalized && 3 ≤ errorCount then .autoPausedDns
  else .transient

/-- The deterministic part of `computeErrorBackoffSeconds`: the poll interval doubled
with every error up to the sixth, capped at six hours. -/
def errorBackoffBase (pollIntervalSeconds errorCount : Nat) : Nat :=
  min (pollIntervalSeconds * 2 ^ (max 1 (min errorCount 6) - 1)) (6 * 60 * 60)

/-- The bound below which the jitter of a category is drawn. -/
def jitterBound (category : FeedFailureCategory) (pollIntervalSeconds errorCount : Nat) : Nat :=
  match category with
  | .autoPausedDns | .autoPausedBlocked => 30 * 60
  | _ => min (15 * 60) (max 1 (errorBackoffBase pollIntervalSeconds errorCount * 15 / 100))

/-- `classifyFeedFailure`, with the jitter that was drawn. -/
def classifyFeedFailure (rt : Runtime) (message : String)
    (errorCount pollIntervalSeconds jitter : Nat) : FeedFailureClassification :=
  match detectFeedFailureCategory rt message errorCount with
  | .autoPausedDns =>
    { category := .autoPausedDns
      status := .paused
      nextCheckInSeconds := dnsAutoPauseDelaySeconds + jitter
      lastError := Feeds.autoPausedErrorPrefix ++ " " ++ message
      shouldRethrow := false }
  | .autoPausedBlocked =>
    { category := .autoPausedBlocked
      status := .paused
      nextCheckInSeconds := blockedAutoPauseDelaySeconds + jitter
      lastError := Feeds.autoPausedErrorPrefix ++ " " ++ message
      shouldRethrow := false }
  | .transient =>
    { category := .transient
      status := .error
      nextCheckInSeconds := errorBackoffBase pollIntervalSeconds errorCount + jitter
      lastError := message
      shouldRethrow := true }
  | category =>
    { category := category
      status := .paused
      nextCheckInSeconds := errorBackoffBase pollIntervalSeconds errorCount + jitter
      lastError := message
      shouldRethrow := false }

/-- **Only transient failures are retried**, and only they leave the feed in the
status `error`. -/
theorem shouldRethrow_iff (rt : Runtime) (message : String)
    (errorCount pollIntervalSeconds jitter : Nat) :
    let c := classifyFeedFailure rt message errorCount pollIntervalSeconds jitter
    (c.shouldRethrow = true ↔ c.category = .transient) ∧
      (c.status = .error ↔ c.category = .transient) ∧ (c.status ≠ .error → c.status = .paused) := by
  unfold classifyFeedFailure
  cases detectFeedFailureCategory rt message errorCount <;> simp

/-- A failed fetch never reports the feed as active. -/
theorem classify_status_ne_active (rt : Runtime) (message : String)
    (errorCount pollIntervalSeconds jitter : Nat) :
    (classifyFeedFailure rt message errorCount pollIntervalSeconds jitter).status ≠ .active := by
  unfold classifyFeedFailure
  cases detectFeedFailureCategory rt message errorCount <;> simp

end FeedFailure

end Feedpulse
