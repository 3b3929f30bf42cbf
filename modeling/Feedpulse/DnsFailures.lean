import Feedpulse.ThrottledFetch

/-!
# Hosts that do not resolve

`mapFetchError` of the feed validation looks for a failed name resolution in the cause of an
error, `ProcessFeedJob` in its message. `classifiers_agree_iff` says for which errors they come
to the same result; `undici_unresolved` is the error that `fetch` throws, for which they do not.
-/

namespace Feedpulse

/-! ## Errors -/

/-- `error.cause`, as `readCauseCode` looks at it. -/
inductive ErrorCause where
  /-- no object -/
  | absent
  /-- an object, with its `code` if that is a string -/
  | object (code : Option String)
  deriving DecidableEq, Repr

/-- What a fetch throws. -/
inductive Thrown where
  /-- `UnsafeProtocolError` -/
  | unsafeProtocol
  /-- `UnsafeHostError` -/
  | unsafeHost
  /-- `TooManyRedirectsError` -/
  | tooManyRedirects
  /-- `InvalidRedirectError` -/
  | invalidRedirect
  /-- `BodyTooLargeError` -/
  | bodyTooLarge
  /-- any other `Error` -/
  | error (name message : String) (cause : ErrorCause)
  /-- something that is no `Error` -/
  | value
  deriving DecidableEq, Repr

/-- The message that `ProcessFeedJob` reads of it. -/
def Thrown.message : Thrown → String
  | .unsafeProtocol => "unsafe_protocol"
  | .unsafeHost => "unsafe_host"
  | .tooManyRedirects => "too_many_redirects"
  | .invalidRedirect => "invalid_redirect_location"
  | .bodyTooLarge => "feed_body_too_large"
  | .error _ message _ => message
  | .value => "Unknown fetch failure"

namespace ValidateFeedUrl

/-- The values of `ValidateFeedUrlErrorCode` for thrown errors. -/
inductive ErrorCode where
  /-- `unsafe_protocol` -/
  | unsafeProtocol
  /-- `unsafe_host` -/
  | unsafeHost
  /-- `too_many_redirects` -/
  | tooManyRedirects
  /-- `invalid_redirect` -/
  | invalidRedirect
  /-- `response_too_large` -/
  | responseTooLarge
  /-- `timeout` -/
  | timeout
  /-- `dns_failure` -/
  | dnsFailure
  /-- `connection_refused` -/
  | connectionRefused
  /-- `tls_error` -/
  | tlsError
  /-- `unknown` -/
  | unknown
  deriving DecidableEq, Repr

/-- `readCauseCode`. -/
def readCauseCode : ErrorCause → Option String
  | .absent => none
  | .object code => code

/-- `mapFetchError`. -/
def mapFetchError (rt : Runtime) : Thrown → ErrorCode
  | .unsafeProtocol => .unsafeProtocol
  | .unsafeHost => .unsafeHost
  | .tooManyRedirects => .tooManyRedirects
  | .invalidRedirect => .invalidRedirect
  | .bodyTooLarge => .responseTooLarge
  | .value => .unknown
  | .error name message cause =>
    if name = "AbortError" || name = "TimeoutError" then .timeout
    else
      let message := rt.toLowerCase message
      let causeCode := readCauseCode cause
      let has := Text.includes message
      if causeCode = some "ENOTFOUND" || causeCode = some "EAI_AGAIN" || has "getaddrinfo" then
        .dnsFailure
      else if causeCode = some "ECONNREFUSED" || has "econnrefused" then .connectionRefused
      else if causeCode.any (Text.hasPrefix · "ERR_TLS") || causeCode = some "CERT_HAS_EXPIRED" ||
          causeCode = some "DEPTH_ZERO_SELF_SIGNED_CERT" ||
          causeCode = some "UNABLE_TO_VERIFY_LEAF_SIGNATURE" || has "certificate" || has "tls" ||
          has "ssl" then
        .tlsError
      else if causeCode = some "ETIMEDOUT" || causeCode = some "UND_ERR_CONNECT_TIMEOUT" ||
          has "timeout" then
        .timeout
      else .unknown

open FeedFailure

variable {rt : Runtime}

/-! ## Where the failure shows -/

/-- The error shows the failed resolution in its cause, or names the call that failed. -/
def ShowsInCause (rt : Runtime) : Thrown → Prop
  | .error name message cause =>
    (name ≠ "AbortError" ∧ name ≠ "TimeoutError") ∧
      (readCauseCode cause = some "ENOTFOUND" ∨ readCauseCode cause = some "EAI_AGAIN" ∨
        Text.includes (rt.toLowerCase message) "getaddrinfo" = true)
  | _ => False

/-- The message shows the failed resolution, and is not one of a feed that has refused access
for a while. -/
def ShowsInMessage (rt : Runtime) (message : String) (errorCount : Nat) : Prop :=
  (∃ marker ∈ dnsMarkers, Text.includes (rt.toLowerCase message) marker = true) ∧
    ¬(Text.includes (rt.toLowerCase message) "status 403" = true ∧ 5 ≤ errorCount)

theorem mapFetchError_eq_dnsFailure {thrown : Thrown} :
    mapFetchError rt thrown = .dnsFailure ↔ ShowsInCause rt thrown := by
  cases thrown with
  | error name message cause =>
    rw [ShowsInCause, mapFetchError]
    by_cases hname : name = "AbortError" ∨ name = "TimeoutError"
    · rw [if_pos (by simpa using hname)]
      exact iff_of_false (by simp) fun h => h.1.1 (hname.resolve_right h.1.2)
    · rw [if_neg (by simpa using hname)]
      rw [not_or] at hname
      by_cases hcause : readCauseCode cause = some "ENOTFOUND" ∨
          readCauseCode cause = some "EAI_AGAIN" ∨
          Text.includes (rt.toLowerCase message) "getaddrinfo" = true
      · rw [if_pos (by simpa [or_assoc] using hcause)]
        exact iff_of_true rfl ⟨hname, hcause⟩
      · rw [if_neg (by simpa [or_assoc] using hcause)]
        refine iff_of_false ?_ fun h => hcause h.2
        split_ifs <;> simp
  | unsafeProtocol => simp [mapFetchError, ShowsInCause]
  | unsafeHost => simp [mapFetchError, ShowsInCause]
  | tooManyRedirects => simp [mapFetchError, ShowsInCause]
  | invalidRedirect => simp [mapFetchError, ShowsInCause]
  | bodyTooLarge => simp [mapFetchError, ShowsInCause]
  | value => simp [mapFetchError, ShowsInCause]

/-- A message without the words of a terminal category. -/
def NotTerminal (rt : Runtime) (message : String) : Prop :=
  ∀ marker ∈ terminalMarkers, Text.includes (rt.toLowerCase message) marker = false

instance (rt : Runtime) (message : String) : Decidable (NotTerminal rt message) :=
  inferInstanceAs (Decidable (∀ marker ∈ terminalMarkers, _))

theorem detect_eq_autoPausedDns {message : String} {errorCount : Nat}
    (hterminal : NotTerminal rt message) (hcount : 3 ≤ errorCount) :
    detectFeedFailureCategory rt message errorCount = .autoPausedDns ↔
      ShowsInMessage rt message errorCount := by
  simp only [NotTerminal, terminalMarkers, List.forall_mem_cons] at hterminal
  simp only [detectFeedFailureCategory, hterminal, Bool.or_false, Bool.false_eq_true, if_false]
  by_cases h403 : Text.includes (rt.toLowerCase message) "status 403" = true ∧ 5 ≤ errorCount
  · rw [if_pos (by simpa using h403)]
    exact iff_of_false (by simp) fun h => h.2 h403
  · rw [if_neg (by simpa using h403)]
    have hdns : (isDnsResolutionFailure (rt.toLowerCase message) && decide (3 ≤ errorCount)) = true
        ↔ ∃ marker ∈ dnsMarkers, Text.includes (rt.toLowerCase message) marker = true := by
      simp [isDnsResolutionFailure, dnsMarkers, hcount, or_assoc]
    rw [ShowsInMessage, ← hdns]
    split
    · rename_i h
      exact iff_of_true rfl ⟨h, h403⟩
    · rename_i h
      exact iff_of_false (by simp) fun hshows => h hshows.1

/-! ## The two classifiers -/

/-- **The two classifiers agree** on an error exactly if it shows the failed resolution both in
its cause and in its message, or in neither. -/
theorem classifiers_agree_iff {thrown : Thrown} {errorCount : Nat}
    (hterminal : NotTerminal rt thrown.message) (hcount : 3 ≤ errorCount) :
    (mapFetchError rt thrown = .dnsFailure ↔
        detectFeedFailureCategory rt thrown.message errorCount = .autoPausedDns) ↔
      ((ShowsInCause rt thrown ∧ ShowsInMessage rt thrown.message errorCount) ∨
        (¬ShowsInCause rt thrown ∧ ¬ShowsInMessage rt thrown.message errorCount)) := by
  rw [mapFetchError_eq_dnsFailure, detect_eq_autoPausedDns hterminal hcount]
  exact iff_iff_and_or_not_and_not

/-- The error of Node's resolver shows both. -/
theorem classifiers_agree_iff_getaddrinfo :
    mapFetchError DomainRateLimiter.nodeRuntime.toRuntime
        (.error "Error" "getaddrinfo ENOTFOUND a.example" (.object none)) = .dnsFailure ↔
      detectFeedFailureCategory DomainRateLimiter.nodeRuntime.toRuntime
        "getaddrinfo ENOTFOUND a.example" 3 = .autoPausedDns := by
  have hterminal : NotTerminal DomainRateLimiter.nodeRuntime.toRuntime
      (Thrown.error "Error" "getaddrinfo ENOTFOUND a.example" (.object none)).message := by
    decide
  have hshows : ShowsInMessage DomainRateLimiter.nodeRuntime.toRuntime
      "getaddrinfo ENOTFOUND a.example" 3 :=
    ⟨⟨"enotfound", by decide, by decide⟩, by decide⟩
  have hcause : ShowsInCause DomainRateLimiter.nodeRuntime.toRuntime
      (.error "Error" "getaddrinfo ENOTFOUND a.example" (.object none)) :=
    ⟨by decide, .inr (.inr (by decide))⟩
  exact (classifiers_agree_iff hterminal (Nat.le_refl 3)).mpr (.inl ⟨hcause, hshows⟩)

/-- The error that `fetch` throws for a host that does not resolve shows it in its cause only. -/
theorem undici_unresolved :
    mapFetchError DomainRateLimiter.nodeRuntime.toRuntime
        (.error "TypeError" "fetch failed" (.object (some "ENOTFOUND"))) = .dnsFailure ∧
      detectFeedFailureCategory DomainRateLimiter.nodeRuntime.toRuntime
        (Thrown.error "TypeError" "fetch failed" (.object (some "ENOTFOUND"))).message 3
          = .transient := by
  decide

end ValidateFeedUrl

end Feedpulse
