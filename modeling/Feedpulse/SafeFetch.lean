import Feedpulse.UrlSafety

/-!
# Following redirects

`safeFetch` against a server that may answer anything: every hop is checked before it is
requested, the number of hops is bounded, and a body that was dropped stays dropped. The server
is a strategy that sees all requests made so far; what a run leaves is the trace of what happened
and the outcome.
-/

namespace Feedpulse

/-- The functions `safeFetch` needs of the runtime. -/
structure FetchRuntime extends UrlRuntime where
  /-- `new URL(location, base)`, if it does not throw -/
  resolveUrl : String → ParsedUrl → Option ParsedUrl
  /-- `String.prototype.toUpperCase` -/
  toUpperCase : String → String

namespace SafeFetch

/-- `DEFAULT_MAX_REDIRECTS`. -/
def defaultMaxRedirects : Nat := 5

/-- `REDIRECT_STATUSES`. -/
def redirectStatuses : List Nat := [301, 302, 303, 307, 308]

/-- `RequestInit`, with bodies `β`; what else it has (headers, signal) is `γ`. -/
structure RequestInit (β γ : Type) where
  /-- method, `GET` if it is left out -/
  method : Option String
  /-- body -/
  body : Option β
  /-- what `fetch` does about redirects -/
  redirect : Option String
  /-- everything else -/
  rest : γ
  deriving DecidableEq, Repr

/-- A response. -/
structure Response where
  /-- status code -/
  status : Nat
  /-- header `location` -/
  location : Option String
  deriving DecidableEq, Repr

/-- A request: URL and init. -/
structure Request (β γ : Type) where
  /-- URL as it is sent -/
  url : String
  /-- method, body and the rest -/
  init : RequestInit β γ
  deriving DecidableEq, Repr

/-- What happens during a run. -/
inductive Event (β γ : Type) where
  /-- `assertSafePublicUrl` returned this URL -/
  | passed (url : ParsedUrl)
  /-- a request is sent -/
  | requested (request : Request β γ)
  /-- the answer to it -/
  | answered (response : Response)

/-- The errors `safeFetch` throws. -/
inductive SafeFetchError where
  /-- the error of `assertSafePublicUrl` -/
  | blocked (error : UrlSafetyError)
  /-- `InvalidRedirectError` -/
  | invalidRedirect (location : Option String)
  /-- `TooManyRedirectsError` -/
  | tooManyRedirects (maxRedirects : Nat)
  /-- `fetch` itself failed -/
  | network (message : String)
  deriving DecidableEq, Repr

/-- `SafeFetchResult`. -/
structure SafeFetchResult where
  /-- the last response -/
  response : Response
  /-- the URL it came from -/
  finalUrl : String
  /-- number of redirects that were followed -/
  redirectCount : Nat
  deriving DecidableEq, Repr

/-- A server: it knows all requests so far, the last one included, and answers or fails. -/
abbrev Server (β γ : Type) := List (Request β γ) → Except String Response

/-- A run: what happened, and the outcome. -/
structure Run (β γ : Type) where
  /-- what happened, in order -/
  trace : List (Event β γ)
  /-- the value returned or the error thrown -/
  outcome : Except SafeFetchError SafeFetchResult

variable {β γ : Type}

/-- A run with something before it. -/
def Run.after (events : List (Event β γ)) (run : Run β γ) : Run β γ :=
  { run with trace := events ++ run.trace }

variable (rt : FetchRuntime)

/-- Whether a redirect with this status turns the request into a `GET`. -/
def downgrades (init : RequestInit β γ) (status : Nat) : Bool :=
  let method := rt.toUpperCase (init.method.getD "GET")
  status = 303 || ((status = 301 || status = 302) && method = "POST")

/-- `downgradeAfterRedirect`. -/
def downgradeAfterRedirect (init : RequestInit β γ) (status : Nat) : RequestInit β γ :=
  if downgrades rt init status then { init with body := none, method := some "GET" } else init

/-- The target of a redirect: `InvalidRedirectError` if there is none. -/
def redirectTarget (currentUrl : ParsedUrl) (location : Option String) :
    Except SafeFetchError ParsedUrl :=
  match location with
  | none => .error (.invalidRedirect none)
  | some text =>
    if text = "" || Text.trim text = "" then .error (.invalidRedirect location)
    else
      match rt.resolveUrl text currentUrl with
      | none => .error (.invalidRedirect location)
      | some target => .ok target

/-- The loop of `safeFetch`, with as many hops as are left. -/
def followRedirects (server : Server β γ) (allowPrivateHosts : Bool) (maxRedirects : Nat) :
    Nat → List (Request β γ) → ParsedUrl → RequestInit β γ → Run β γ
  | 0, _, _, _ => { trace := [], outcome := .error (.tooManyRedirects maxRedirects) }
  | hopsLeft + 1, earlier, currentUrl, currentInit =>
    let request : Request β γ := { url := rt.urlToString currentUrl, init := currentInit }
    match server (earlier ++ [request]) with
    | .error message =>
      { trace := [.requested request], outcome := .error (.network message) }
    | .ok response =>
      if response.status ∉ redirectStatuses then
        { trace := [.requested request, .answered response]
          outcome := .ok
            { response, finalUrl := rt.urlToString currentUrl, redirectCount := earlier.length } }
      else
        match redirectTarget rt currentUrl response.location with
        | .error error =>
          { trace := [.requested request, .answered response], outcome := .error error }
        | .ok target =>
          match UrlSafety.assertSafePublicUrl rt.toUrlRuntime allowPrivateHosts target with
          | .error error =>
            { trace := [.requested request, .answered response]
              outcome := .error (.blocked error) }
          | .ok passed =>
            (followRedirects server allowPrivateHosts maxRedirects hopsLeft
              (earlier ++ [request]) passed
              (downgradeAfterRedirect rt currentInit response.status)).after
                [.requested request, .answered response, .passed passed]

/-- `safeFetch`. -/
def safeFetch (server : Server β γ) (url : String) (init : RequestInit β γ)
    (allowPrivateHosts : Bool) (maxRedirects : Nat) : Run β γ :=
  match UrlSafety.assertSafePublicUrlText rt.toUrlRuntime allowPrivateHosts url with
  | .error error => { trace := [], outcome := .error (.blocked error) }
  | .ok currentUrl =>
    (followRedirects rt server allowPrivateHosts maxRedirects (maxRedirects + 1) [] currentUrl
      { init with redirect := some "manual" }).after [.passed currentUrl]

/-! ## What a trace keeps -/

/-- The requests of a trace. -/
def requests (trace : List (Event β γ)) : List (Request β γ) :=
  trace.filterMap fun event =>
    match event with
    | .requested request => some request
    | _ => none

/-- Directly before every request its URL has passed the check. -/
def Checked (allowPrivateHosts : Bool) (trace : List (Event β γ)) : Prop :=
  ∀ pre request post, trace = pre ++ .requested request :: post →
    ∃ pre' url, pre = pre' ++ [.passed url] ∧ request.url = rt.urlToString url ∧
      UrlSafety.assertSafePublicUrl rt.toUrlRuntime allowPrivateHosts url = .ok url

/-- After a redirect that turned a request into a `GET`, no request has a body. -/
def KeepsBodyless (trace : List (Event β γ)) : Prop :=
  ∀ pre request response post,
    trace = pre ++ .requested request :: .answered response :: post →
    response.status ∈ redirectStatuses → downgrades rt request.init response.status = true →
    ∀ later, .requested later ∈ post → later.init.body = none

/-- A value that is returned belongs to the last request, whose answer was no redirect. -/
def Settles (run : Run β γ) : Prop :=
  ∀ result, run.outcome = .ok result →
    result.response.status ∉ redirectStatuses ∧
    ∃ pre request, run.trace = pre ++ [.requested request, .answered result.response] ∧
      request.url = result.finalUrl

/-- A run that never leaves the safe set. -/
structure StaysSafe (allowPrivateHosts : Bool) (maxRedirects : Nat) (run : Run β γ) : Prop where
  /-- every URL is checked directly before it is requested -/
  checked : Checked rt allowPrivateHosts run.trace
  /-- there are at most `maxRedirects + 1` requests -/
  bounded : (requests run.trace).length ≤ maxRedirects + 1
  /-- the result is the answer to the last request and no redirect -/
  settled : Settles run
  /-- a body that was dropped stays dropped -/
  bodyless : KeepsBodyless rt run.trace

/-! ## One hop -/

variable {rt}

/-- What one hop can do: fail, end the run, or go on with a URL that has passed the check. -/
theorem followRedirects_cases (server : Server β γ) (allowPrivateHosts : Bool)
    (maxRedirects hopsLeft : Nat) (earlier : List (Request β γ)) (currentUrl : ParsedUrl)
    (currentInit : RequestInit β γ) {run : Run β γ}
    (hrun : followRedirects rt server allowPrivateHosts maxRedirects (hopsLeft + 1) earlier
      currentUrl currentInit = run) :
    let request : Request β γ := { url := rt.urlToString currentUrl, init := currentInit }
    (run.trace = [.requested request] ∧ ∃ message, run.outcome = .error (.network message)) ∨
    (∃ response, run.trace = [.requested request, .answered response] ∧
      ∀ result, run.outcome = .ok result → result.response = response ∧
        response.status ∉ redirectStatuses ∧ result.finalUrl = request.url) ∨
    ∃ response passed, response.status ∈ redirectStatuses ∧
      UrlSafety.assertSafePublicUrl rt.toUrlRuntime allowPrivateHosts passed = .ok passed ∧
      run = (followRedirects rt server allowPrivateHosts maxRedirects hopsLeft
        (earlier ++ [request]) passed
        (downgradeAfterRedirect rt currentInit response.status)).after
          [.requested request, .answered response, .passed passed] := by
  intro request
  subst hrun
  simp only [followRedirects]
  rcases server (earlier ++ [request]) with message | response
  · exact .inl ⟨rfl, message, rfl⟩
  · refine .inr ?_
    by_cases hstatus : response.status ∈ redirectStatuses
    · simp only [hstatus, not_true_eq_false, if_false]
      rcases redirectTarget rt currentUrl response.location with error | target
      · exact .inl ⟨response, rfl, fun result h => by cases h⟩
      · dsimp only
        rcases hpassed : UrlSafety.assertSafePublicUrl rt.toUrlRuntime allowPrivateHosts target
          with error | passed
        · exact .inl ⟨response, rfl, fun result h => by cases h⟩
        · have heq := UrlSafety.eq_of_assertSafePublicUrl rt.toUrlRuntime hpassed
          subst heq
          exact .inr ⟨response, passed, hstatus, hpassed, rfl⟩
    · simp only [hstatus, not_false_eq_true, if_true]
      refine .inl ⟨response, rfl, fun result h => ?_⟩
      cases h
      exact ⟨rfl, hstatus, rfl⟩

/-- The trace of a hop that is followed by others is checked if theirs is. -/
theorem Checked.hop {allowPrivateHosts : Bool} {url : ParsedUrl} {request : Request β γ}
    (events : List (Event β γ)) {rest : List (Event β γ)}
    (hurl : UrlSafety.assertSafePublicUrl rt.toUrlRuntime allowPrivateHosts url = .ok url)
    (hrequest : request.url = rt.urlToString url)
    (hevents : ∀ later, .requested later ∉ events) (hrest : Checked rt allowPrivateHosts rest) :
    Checked rt allowPrivateHosts (.passed url :: .requested request :: (events ++ rest)) := by
  intro pre later post heq
  rcases pre with _ | ⟨first, _ | ⟨second, pre⟩⟩
  · cases heq
  · cases heq
    exact ⟨[], url, rfl, hrequest, hurl⟩
  · simp only [List.cons_append, List.cons.injEq] at heq
    obtain ⟨rfl, rfl, heq⟩ := heq
    -- the request does not lie among the events, so they are a prefix of what comes before it
    rcases List.append_eq_append_iff.mp heq with ⟨more, rfl, hpost⟩ | ⟨more, rfl, hpost⟩
    · obtain ⟨pre', u, rfl, hu⟩ := hrest more later post hpost
      exact ⟨.passed url :: .requested request :: (events ++ pre'), u, by simp, hu⟩
    · cases more with
      | nil =>
        obtain ⟨pre', u, hpre, -⟩ := hrest [] later post (by simpa using hpost.symm)
        cases pre' <;> cases hpre
      | cons event more =>
        obtain ⟨rfl, -⟩ := List.cons.inj hpost
        exact absurd (List.mem_append_right _ List.mem_cons_self) (hevents later)

theorem checked_nil {allowPrivateHosts : Bool} :
    Checked rt allowPrivateHosts ([] : List (Event β γ)) := by
  intro pre request post heq
  cases pre <;> cases heq

/-- The first hop of a trace loses no body; the hops after it have none if it was dropped. -/
theorem KeepsBodyless.hop {request : Request β γ} {response : Response} {url : ParsedUrl}
    {rest : List (Event β γ)} (hrest : KeepsBodyless rt rest)
    (hfirst : downgrades rt request.init response.status = true →
      ∀ later, .requested later ∈ rest → later.init.body = none) :
    KeepsBodyless rt (.requested request :: .answered response :: .passed url :: rest) := by
  intro pre request' response' post heq hstatus hdowngrades later hlater
  rcases pre with _ | ⟨first, _ | ⟨second, _ | ⟨third, pre⟩⟩⟩
  · cases heq
    rcases List.mem_cons.mp hlater with hlater | hlater
    · cases hlater
    · exact hfirst hdowngrades later hlater
  · cases heq
  · cases heq
  · simp only [List.cons_append, List.cons.injEq] at heq
    exact hrest pre request' response' post heq.2.2.2 hstatus hdowngrades later hlater

/-- A trace of at most one hop loses no body. -/
theorem keepsBodyless_single {request : Request β γ} {rest : List (Event β γ)}
    (hrest : rest = [] ∨ ∃ response, rest = [.answered response]) :
    KeepsBodyless rt (.requested request :: rest) := by
  intro pre request' response' post heq _ _ later hlater
  rcases hrest with rfl | ⟨response, rfl⟩
  · rcases pre with _ | ⟨first, pre⟩
    · cases heq
    · cases pre <;> cases heq
  · rcases pre with _ | ⟨first, _ | ⟨second, pre⟩⟩
    · cases heq
      cases hlater
    · cases heq
    · cases pre <;> cases heq

/-- Without a body there is none after a redirect either. -/
theorem body_downgradeAfterRedirect {init : RequestInit β γ} {status : Nat}
    (h : init.body = none ∨ downgrades rt init status = true) :
    (downgradeAfterRedirect rt init status).body = none := by
  simp only [downgradeAfterRedirect]
  split
  · rfl
  · rename_i hdowngrades
    exact h.resolve_right hdowngrades

/-! ## Whole runs -/

/-- What the loop keeps, for a URL that has passed the check. -/
structure LoopSafe (rt : FetchRuntime) (allowPrivateHosts : Bool) (currentUrl : ParsedUrl)
    (currentInit : RequestInit β γ) (hops : Nat) (run : Run β γ) : Prop where
  /-- every URL is checked directly before it is requested -/
  checked : Checked rt allowPrivateHosts (.passed currentUrl :: run.trace)
  /-- there is at most one request a hop -/
  bounded : (requests run.trace).length ≤ hops
  /-- the result is the answer to the last request and no redirect -/
  settled : Settles run
  /-- a body that was dropped stays dropped -/
  bodyless : KeepsBodyless rt run.trace
  /-- a body that is not there does not come back -/
  noBody : currentInit.body = none → ∀ later, .requested later ∈ run.trace → later.init.body = none

/-- By induction on the hops that are left: each hop is checked, and the next one starts from a
URL that has passed the check. -/
theorem loopSafe_followRedirects (server : Server β γ) (allowPrivateHosts : Bool)
    (maxRedirects hops : Nat) (earlier : List (Request β γ)) {currentUrl : ParsedUrl}
    (currentInit : RequestInit β γ)
    (hurl : UrlSafety.assertSafePublicUrl rt.toUrlRuntime allowPrivateHosts currentUrl
      = .ok currentUrl) :
    LoopSafe rt allowPrivateHosts currentUrl currentInit hops
      (followRedirects rt server allowPrivateHosts maxRedirects hops earlier currentUrl
        currentInit) := by
  induction hops generalizing earlier currentUrl currentInit with
  | zero =>
    refine ⟨?_, Nat.le_refl 0, ?_, ?_, ?_⟩
    · intro pre request post heq
      rcases pre with _ | ⟨first, pre⟩
      · cases heq
      · cases pre <;> cases heq
    · intro result h
      cases h
    · intro pre request response post heq
      cases pre <;> cases heq
    · intro _ later h
      cases h
  | succ hopsLeft ih =>
    set request : Request β γ := { url := rt.urlToString currentUrl, init := currentInit }
      with hrequest
    generalize hrun : followRedirects rt server allowPrivateHosts maxRedirects (hopsLeft + 1)
      earlier currentUrl currentInit = run
    rcases followRedirects_cases server allowPrivateHosts maxRedirects hopsLeft earlier currentUrl
        currentInit hrun with ⟨htrace, message, hout⟩ | ⟨response, htrace, hout⟩ |
        ⟨response, passed, hstatus, hpassed, rfl⟩
    · -- the request itself failed
      rw [← hrequest] at htrace
      refine ⟨?_, ?_, ?_, ?_, ?_⟩
      · rw [htrace]
        exact Checked.hop [] hurl rfl (fun _ h => by cases h) checked_nil
      · rw [htrace]
        exact Nat.le_add_left 1 hopsLeft
      · intro result h
        rw [hout] at h
        cases h
      · rw [htrace]
        exact keepsBodyless_single (.inl rfl)
      · intro hbody later h
        rw [htrace, List.mem_singleton] at h
        cases h
        exact hbody
    · -- the last request: its answer is the result, or the target is refused
      rw [← hrequest] at htrace
      refine ⟨?_, ?_, ?_, ?_, ?_⟩
      · rw [htrace]
        exact Checked.hop [.answered response] hurl rfl
          (fun _ h => by simp at h) checked_nil
      · rw [htrace]
        exact Nat.le_add_left 1 hopsLeft
      · intro result h
        obtain ⟨hresponse, hstatus, hfinal⟩ := hout result h
        rw [hresponse]
        exact ⟨hstatus, [], request, htrace, hfinal.symm⟩
      · rw [htrace]
        exact keepsBodyless_single (.inr ⟨response, rfl⟩)
      · intro hbody later h
        rw [htrace] at h
        rcases List.mem_cons.mp h with h | h
        · cases h
          exact hbody
        · simp at h
    · -- a redirect that is followed
      have hnext := ih (earlier ++ [request])
        (downgradeAfterRedirect rt currentInit response.status) hpassed
      refine ⟨?_, ?_, ?_, ?_, ?_⟩
      · exact Checked.hop [.answered response] hurl rfl (fun _ h => by simp at h)
          hnext.checked
      · exact Nat.succ_le_succ hnext.bounded
      · intro result h
        obtain ⟨hout, pre, last, htrace, hfinal⟩ := hnext.settled result h
        refine ⟨hout, [.requested request, .answered response, .passed passed] ++ pre, last, ?_,
          hfinal⟩
        rw [Run.after, htrace, List.append_assoc]
      · exact KeepsBodyless.hop hnext.bodyless fun hdowngrades =>
          hnext.noBody (body_downgradeAfterRedirect (.inr hdowngrades))
      · intro hbody later h
        rcases List.mem_append.mp h with h | h
        · rcases List.mem_cons.mp h with h | h
          · cases h
            exact hbody
          · simp at h
        · exact hnext.noBody (body_downgradeAfterRedirect (.inl hbody)) later h

/-- **`safeFetch` never leaves the safe set.** Whatever the server answers, every URL has passed
the check directly before it is requested, there are at most `maxRedirects + 1` requests, a
result is the answer to the last of them and no redirect, and a body that a redirect dropped is
never sent again. -/
theorem safeFetch_staysSafe (server : Server β γ) (url : String) (init : RequestInit β γ)
    (allowPrivateHosts : Bool) (maxRedirects : Nat) :
    StaysSafe rt allowPrivateHosts maxRedirects
      (safeFetch rt server url init allowPrivateHosts maxRedirects) := by
  simp only [safeFetch]
  rcases hurl : UrlSafety.assertSafePublicUrlText rt.toUrlRuntime allowPrivateHosts url
    with error | currentUrl
  · refine ⟨checked_nil, Nat.zero_le _, (fun result h => by cases h), ?_⟩
    intro pre request response post heq
    cases pre <;> cases heq
  · have hpassed : UrlSafety.assertSafePublicUrl rt.toUrlRuntime allowPrivateHosts currentUrl
        = .ok currentUrl := by
      simp only [UrlSafety.assertSafePublicUrlText] at hurl
      rcases hparse : rt.parseUrl url with _ | parsed
      · rw [hparse] at hurl
        cases hurl
      · rw [hparse] at hurl
        have heq := UrlSafety.eq_of_assertSafePublicUrl rt.toUrlRuntime hurl
        subst heq
        exact hurl
    have hloop := loopSafe_followRedirects server allowPrivateHosts maxRedirects
      (maxRedirects + 1) [] { init with redirect := some "manual" } hpassed
    refine ⟨hloop.checked, hloop.bounded, ?_, ?_⟩
    · intro result h
      obtain ⟨hstatus, pre, last, htrace, hfinal⟩ := hloop.settled result h
      dsimp only
      exact ⟨hstatus, .passed currentUrl :: pre, last,
        congrArg (List.cons (Event.passed currentUrl)) htrace, hfinal⟩
    · intro pre request response post heq hstatus hdowngrades later hlater
      rcases pre with _ | ⟨first, pre⟩
      · cases heq
      · simp only [Run.after, List.cons_append, List.nil_append, List.cons.injEq] at heq
        exact hloop.bodyless pre request response post heq.2 hstatus hdowngrades later hlater

end SafeFetch

end Feedpulse
