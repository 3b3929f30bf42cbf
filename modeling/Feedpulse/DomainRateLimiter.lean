import Feedpulse.Transition
import Feedpulse.FeedUrl
import Mathlib.Algebra.Order.Ring.Rat
import Mathlib.Logic.Function.Basic

/-!
# Pacing requests to one host

`DomainRateLimiter` keeps, for each host name, the instant of the last request and the deadline
of a backoff. A call of `waitForSlot` waits out the backoff, then reads the last request and
sleeps until the interval has passed, then records itself; what lies between two `await`s runs
without interruption, and anything may happen while it sleeps. Instants are in milliseconds, and
`setTimeout` is a parameter: how long it sleeps for a delay.
-/

namespace Feedpulse

/-- `DomainRateLimiterOptions`, positive as the configuration makes them. -/
structure RateLimiterOptions where
  /-- requests a second and host -/
  requestsPerSecond : Nat
  /-- longest backoff -/
  maxBackoffMs : Nat
  /-- first backoff -/
  baseBackoffMs : Nat
  /-- the rate is positive -/
  requestsPerSecond_pos : 0 < requestsPerSecond
  /-- the longest backoff is positive -/
  maxBackoffMs_pos : 0 < maxBackoffMs
  /-- the first backoff is positive -/
  baseBackoffMs_pos : 0 < baseBackoffMs

/-- The options when none are given. -/
def RateLimiterOptions.default : RateLimiterOptions where
  requestsPerSecond := 2
  maxBackoffMs := 60000
  baseBackoffMs := 1000
  requestsPerSecond_pos := by decide
  maxBackoffMs_pos := by decide
  baseBackoffMs_pos := by decide

/-- `minIntervalMs`. -/
def RateLimiterOptions.minIntervalMs (options : RateLimiterOptions) : ℚ :=
  1000 / options.requestsPerSecond

/-- The functions the limiter needs of the runtime. -/
structure RateRuntime extends UrlRuntime where
  /-- `new Date(text).getTime()`, unless it is not a number -/
  dateTime : String → Option ℚ
  /-- how long `setTimeout` sleeps for a delay -/
  timerDelay : ℚ → ℚ

namespace DomainRateLimiter

/-! ## Headers -/

/-- `Number.parseInt(text, 10)`: blanks and a sign, then digits up to the first other character;
`none` is not a number. -/
def parseInt (text : List Char) : Option Int :=
  let trimmed := text.dropWhile Text.isWhitespace
  let negative := trimmed.head? = some '-'
  let unsigned := if trimmed.head? = some '-' ∨ trimmed.head? = some '+' then trimmed.drop 1
    else trimmed
  let digits := unsigned.takeWhile Char.isDigit
  if digits = [] then none
  else
    let value : Int := Nat.ofDigitChars 10 digits 0
    some (if negative then -value else value)

/-- `DomainRateLimiter.parseRetryAfter`. -/
def parseRetryAfter (rt : RateRuntime) (header : Option String) : Option String :=
  match header with
  | none => none
  | some header =>
    if header = "" then none
    else
      let trimmed := rt.toLowerCase (Text.trim header)
      if trimmed ≠ "" && trimmed.toList.all Char.isDigit then some trimmed
      else if Text.includes trimmed "," || Text.includes trimmed "gmt" ||
          Text.includes trimmed "utc" then
        some (Text.trim header)
      else none

/-- The backoff a `Retry-After` header asks for at an instant; zero if there is none or it cannot
be read. -/
def retryAfterMs (rt : RateRuntime) (now : ℚ) (retryAfterHeader : Option String) : ℚ :=
  match retryAfterHeader with
  | none => 0
  | some header =>
    match parseInt header.toList with
    | some seconds => seconds * 1000
    | none =>
      match rt.dateTime header with
      | some retryDate => max 0 (retryDate - now)
      | none => 0

/-! ## The state -/

/-- Where a call of `waitForSlot` sleeps, with its local constants. -/
inductive Stage where
  /-- it waits out the backoff -/
  | backingOff (backoffRemaining : ℚ)
  /-- it has read the last request and waits for the interval to pass -/
  | pacing (backoffRemaining lastRequest elapsed : ℚ)
  deriving DecidableEq, Repr

/-- A call of `waitForSlot` that has not returned. -/
structure Waiter where
  /-- which call -/
  pid : Nat
  /-- host name of its URL -/
  domain : String
  /-- where it sleeps -/
  stage : Stage
  /-- when its timer fires -/
  due : ℚ
  /-- how long its timers have been set for so far -/
  slept : ℚ
  /-- no other call for the host has been waiting or begun since it began -/
  alone : Bool
  deriving DecidableEq, Repr

/-- A request that was let through. -/
structure Passage where
  /-- host name -/
  domain : String
  /-- instant -/
  instant : ℚ
  /-- what `waitForSlot` returned -/
  returned : ℚ
  /-- how long its timers had been set for -/
  slept : ℚ
  /-- no other call for the host was waiting or began meanwhile -/
  alone : Bool
  deriving DecidableEq, Repr

/-- The limiter of a process, its calls, and the requests it has let through. -/
structure RateState where
  /-- `Date.now()` -/
  now : ℚ
  /-- `lastRequestAt` -/
  lastRequestAt : String → Option ℚ
  /-- `backoffUntil` -/
  backoffUntil : String → Option ℚ
  /-- the calls of `waitForSlot` that sleep -/
  waiters : List Waiter
  /-- what was let through, last first -/
  passages : List Passage

/-- The state of a process that has just started. -/
def RateState.Init (s : RateState) : Prop :=
  0 ≤ s.now ∧ s.lastRequestAt = (fun _ => none) ∧ s.backoffUntil = (fun _ => none) ∧
    s.waiters = [] ∧ s.passages = []

/-- What can happen. -/
inductive RateAction where
  /-- time passes -/
  | tick (elapsed : ℚ)
  /-- `waitForSlot` is called -/
  | waitForSlot (pid : Nat) (url : String)
  /-- the timer of a call fires -/
  | wake (pid : Nat)
  /-- `applyBackoff` is called -/
  | applyBackoff (url : String) (retryAfterHeader : Option String) (isRetry : Bool)
  /-- `clearBackoff` is called -/
  | clearBackoff (url : String)
  deriving DecidableEq, Repr

variable (rt : RateRuntime) (options : RateLimiterOptions)

/-- `getDomainKey`. -/
def getDomainKey (url : String) : String :=
  match rt.parseUrl url with
  | some parsed => parsed.hostname
  | none => url

/-- `isBackingOff`. -/
def isBackingOff (s : RateState) (url : String) : Bool :=
  s.now < (s.backoffUntil (getDomainKey rt url)).getD 0

/-- The time that is left of the backoff of a domain. -/
def RateState.remaining (s : RateState) (domain : String) : ℚ :=
  max 0 ((s.backoffUntil domain).getD 0 - s.now)

/-- `getBackoffRemainingMs`. -/
def getBackoffRemainingMs (s : RateState) (url : String) : ℚ :=
  s.remaining (getDomainKey rt url)

/-- The backoff `applyBackoff` sets; nothing is set unless it is positive. -/
def backoffMs (s : RateState) (domain : String) (retryAfterHeader : Option String)
    (isRetry : Bool) : ℚ :=
  let requested := retryAfterMs rt s.now retryAfterHeader
  if requested = 0 && isRetry then
    let currentBackoff := (s.backoffUntil domain).getD s.now
    let previousBackoffMs := max 0 (currentBackoff - s.now)
    min (options.maxBackoffMs : ℚ) (max (options.baseBackoffMs : ℚ) (previousBackoffMs * 2))
  else requested

/-- `applyBackoff`. -/
def applyBackoff (s : RateState) (url : String) (retryAfterHeader : Option String)
    (isRetry : Bool) : RateState :=
  let domain := getDomainKey rt url
  let backoff := backoffMs rt options s domain retryAfterHeader isRetry
  if 0 < backoff then
    { s with backoffUntil := Function.update s.backoffUntil domain (some (s.now + backoff)) }
  else s

/-- `clearBackoff`. -/
def clearBackoff (s : RateState) (url : String) : RateState :=
  { s with backoffUntil := Function.update s.backoffUntil (getDomainKey rt url) none }

/-- The end of `waitForSlot`: the request is recorded. -/
def letThrough (s : RateState) (w : Waiter) (backoffRemaining elapsed : ℚ) : RateState :=
  { s with
    lastRequestAt := Function.update s.lastRequestAt w.domain (some s.now)
    passages :=
      { domain := w.domain, instant := s.now,
        returned := max 0 (options.minIntervalMs - elapsed) + backoffRemaining,
        slept := w.slept, alone := w.alone } :: s.passages }

/-- `waitForSlot` after the backoff, up to its next `await` or its end. -/
def enterPacing (s : RateState) (w : Waiter) (backoffRemaining : ℚ) : RateState :=
  let lastRequest := (s.lastRequestAt w.domain).getD 0
  let elapsed := s.now - lastRequest
  if elapsed < options.minIntervalMs then
    let delay := rt.timerDelay (options.minIntervalMs - elapsed)
    { s with
      waiters :=
        { w with
          stage := .pacing backoffRemaining lastRequest elapsed, due := s.now + delay,
          slept := w.slept + delay } :: s.waiters }
  else letThrough options s w backoffRemaining elapsed

/-- `waitForSlot` up to its first `await` or its end. Another call for the host is a competitor
of those that wait, and they of it. -/
def waitForSlot (s : RateState) (pid : Nat) (url : String) : RateState :=
  let domain := getDomainKey rt url
  let backoffRemaining := getBackoffRemainingMs rt s url
  let alone := s.waiters.all fun w => w.domain ≠ domain
  let others := s.waiters.map fun w =>
    if w.domain = domain then { w with alone := false } else w
  let s := { s with waiters := others }
  let delay := rt.timerDelay backoffRemaining
  if 0 < backoffRemaining then
    { s with
      waiters :=
        { pid, domain, stage := .backingOff backoffRemaining, due := s.now + delay,
          slept := delay, alone } :: s.waiters }
  else
    enterPacing rt options s
      { pid, domain, stage := .backingOff 0, due := s.now, slept := 0, alone } backoffRemaining

/-- The call goes on after its timer has fired. -/
def resume (s : RateState) (w : Waiter) : RateState :=
  let s := { s with waiters := s.waiters.filter fun other => other.pid ≠ w.pid }
  match w.stage with
  | .backingOff backoffRemaining => enterPacing rt options s w backoffRemaining
  | .pacing backoffRemaining _ elapsed => letThrough options s w backoffRemaining elapsed

/-- One step. A timer fires at its due time or later. -/
def step (s : RateState) : RateAction → Option RateState
  | .tick elapsed => if 0 ≤ elapsed then some { s with now := s.now + elapsed } else none
  | .waitForSlot pid url =>
    if s.waiters.any fun w => w.pid = pid then none
    else some (waitForSlot rt options s pid url)
  | .wake pid =>
    match s.waiters.find? fun w => w.pid = pid with
    | none => none
    | some w => if w.due ≤ s.now then some (resume rt options s w) else none
  | .applyBackoff url retryAfterHeader isRetry =>
    some (applyBackoff rt options s url retryAfterHeader isRetry)
  | .clearBackoff url => some (clearBackoff rt s url)

/-- The call of `applyBackoff` that the fetcher makes for a response, if it makes one: for a 429
always, for a 503 if the origin said when to come back. -/
def throttle (url : String) (statusCode : Nat) (retryAfter : Option String) :
    Option RateAction :=
  let retryAfterHeader := parseRetryAfter rt retryAfter
  if statusCode = 429 || ([429, 503].contains statusCode && retryAfterHeader ≠ none) then
    some (.applyBackoff url retryAfterHeader (statusCode = 429))
  else none

end DomainRateLimiter

end Feedpulse
