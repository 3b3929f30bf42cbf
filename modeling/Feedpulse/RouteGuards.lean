import Feedpulse.Routing

/-!
# The guards and the router

`AuthGuard` and `RateLimitGuard` read the path of a request themselves, letter by letter, where
the router folds letters. A request under another spelling of `/api/` reaches its handler without
authentication and without being charged (`upper_case_unguarded`). `guards_agree_iff` says for
which requests guards and router agree.
-/

namespace Feedpulse

open PathPattern

/-! ## Authentication -/

/-- `GUARDED_PATH_PREFIX`, and `RATE_LIMITED_PATH_PREFIX`. -/
def guardedPathPrefix : String := "/api/"

/-- `PUBLIC_API_PATHS`. -/
def publicApiPaths : List String := ["/api/v1/auth/dashboard-config"]

namespace AuthGuard

/-- `resolvePath`. -/
def resolvePath (request : RoutedRequest) : String :=
  if request.path ≠ "" then request.path
  else String.ofList (request.url.toList.takeWhile fun c => c ≠ '?')

/-- Whether `canActivate` authenticates the request. -/
def authenticates (request : RoutedRequest) : Bool :=
  let path := resolvePath request
  !(!Text.hasPrefix path guardedPathPrefix || publicApiPaths.contains path)

end AuthGuard

/-! ## Rate limits -/

/-- `RateLimitPolicyName`. -/
inductive RateLimitPolicyName
  /-- the budget of all routes -/
  | default
  /-- the budget of the routes that enqueue or fetch -/
  | write
  deriving DecidableEq, Repr

/-- The limits of `RateLimitOptions`; zero disables a bucket. -/
structure RateLimitOptions where
  /-- requests per window -/
  defaultLimit : Nat
  /-- requests per window to the write routes -/
  writeLimit : Nat
  deriving DecidableEq, Repr

/-- The limit of a policy. -/
def RateLimitOptions.limit (options : RateLimitOptions) : RateLimitPolicyName → Nat
  | .default => options.defaultLimit
  | .write => options.writeLimit

/-- `UNLIMITED_PATHS`. -/
def unlimitedPaths : List String := ["/health", "/ready", "/live", "/metrics"]

/-- `WRITE_ROUTE_RULES`, `[^/]+` being a parameter. -/
def writeRouteRules : List (HttpMethod × String) :=
  [(.post, "/api/v1/feeds/:id/check-now"),
    (.post, "/api/v1/feeds/validate"),
    (.post, "/api/v1/opml/imports"),
    (.post, "/api/v1/opml/imports/:id/confirm"),
    (.post, "/api/v1/alerts/:id/send")]

namespace RateLimitGuard

/-- `resolvePath`. -/
def resolvePath (request : RoutedRequest) : String :=
  let raw := if request.path ≠ "" then request.path else request.url
  String.ofList (stripSlash (raw.toList.takeWhile fun c => c ≠ '?'))

/-- `resolvePolicyFromRoute`. -/
def resolvePolicyFromRoute (method : HttpMethod) (path : String) : RateLimitPolicyName :=
  if writeRouteRules.any fun rule =>
      rule.1 = method && accepts exactly false (patternOf rule.2) path.toList then
    .write
  else .default

/-- `RATE_LIMIT_SKIP_METADATA`: no handler or controller carries it. -/
def skipMetadata (_ : Handler) : Bool := false

/-- `RATE_LIMIT_POLICY_METADATA`: no handler or controller carries it. -/
def policyMetadata (_ : Handler) : Option RateLimitPolicyName := none

/-- The policy whose bucket `canActivate` charges, if any. -/
def charged (options : RateLimitOptions) (handler : Handler) (request : RoutedRequest) :
    Option RateLimitPolicyName :=
  let path := resolvePath request
  if !Text.hasPrefix path guardedPathPrefix || unlimitedPaths.contains path then none
  else if skipMetadata handler then none
  else
    let policy := (policyMetadata handler).getD (resolvePolicyFromRoute request.method path)
    if options.limit policy = 0 then none else some policy

end RateLimitGuard

/-! ## What the guards should do -/

/-- The policy of a handler: the write budget for the routes the rules list. -/
def Handler.policy (h : Handler) : RateLimitPolicyName :=
  if writeRouteRules.any fun rule => rule.1 = h.route.1 && patternOf rule.2 = h.pattern then .write
  else .default

/-- The guards treat the request as one for the handler: it is authenticated unless the handler
is the public one, and its bucket is charged unless that is disabled. -/
structure GuardsAgree (request : RoutedRequest) (h : Handler) : Prop where
  /-- authentication -/
  auth : AuthGuard.authenticates request = true ↔ h ≠ .dashboardConfig
  /-- the bucket -/
  charge : ∀ options, RateLimitGuard.charged options h request =
    if options.limit h.policy = 0 then none else some h.policy

/-- The path is spelled as the guards expect it: the prefix; for a write route, everything but
the parameters; for the public route, all of it. -/
structure SpelledAsListed (request : RoutedRequest) (h : Handler) : Prop where
  /-- the prefix -/
  listed : Text.hasPrefix request.path guardedPathPrefix = true
  /-- the literals of a write route -/
  write : h.policy = .write → accepts exactly true h.pattern request.path.toList = true
  /-- the public route -/
  dashboard : h = .dashboardConfig → request.path ∈ publicApiPaths

/-! ## Paths the router has accepted -/

namespace Handler

variable {h : Handler} {request : RoutedRequest}

theorem path_ne_nil (hh : h.handles request = true) : request.path.toList ≠ [] := by
  intro hnil
  obtain ⟨-, hp⟩ := Bool.and_eq_true_iff.mp hh
  rw [hnil] at hp
  rcases hpattern : h.pattern with _ | ⟨s, ss⟩
  · exact h.pattern_ne_nil hpattern
  · rw [hpattern] at hp
    cases hp

theorem path_ne_empty (hh : h.handles request = true) : request.path ≠ "" := fun hempty =>
  path_ne_nil hh (hempty ▸ rfl)

/-- `AuthGuard` reads the path of the router. -/
theorem authPath (hh : h.handles request = true) :
    AuthGuard.resolvePath request = request.path :=
  if_pos (path_ne_empty hh)

/-- `RateLimitGuard` reads it without the slash at its end. -/
theorem rateLimitPath (hh : h.handles request = true) :
    RateLimitGuard.resolvePath request = String.ofList (stripSlash request.path.toList) := by
  unfold RateLimitGuard.resolvePath
  have hall : ∀ c ∈ request.path.toList, decide (c ≠ '?') = true :=
    fun c hc => decide_eq_true fun h => request.noQuery (h ▸ hc)
  rw [if_pos (path_ne_empty hh)]
  dsimp only
  rw [List.takeWhile_eq_self_iff.mpr hall]

/-- The slash at the end of a path is not part of the prefix. -/
theorem hasPrefix_stripSlash (hh : h.handles request = true) (hapi : h.underApi = true) :
    Text.hasPrefix (String.ofList (stripSlash request.path.toList)) guardedPathPrefix
      = Text.hasPrefix request.path guardedPathPrefix := by
  obtain ⟨-, hp⟩ := Bool.and_eq_true_iff.mp hh
  rw [Bool.eq_iff_iff]
  unfold Text.hasPrefix
  rw [String.toList_ofList, Text.startsWith_iff, Text.startsWith_iff]
  unfold stripSlash
  split
  · rename_i hslash
    simp only [Bool.and_eq_true, decide_eq_true_eq] at hslash
    have hpath := List.dropLast_append_getLast? '/' hslash.2
    generalize request.path.toList.dropLast = q at hpath ⊢
    rw [← hpath, List.prefix_concat_iff]
    constructor
    · exact .inr
    · rintro (hall | hbegins)
      · -- nothing but the prefix is not a path of the API
        have hroot : ∀ h ∈ all, h.underApi = true →
            accepts folded true h.pattern guardedPathPrefix.toList = false := by decide +kernel
        rw [← hpath, ← hall, hroot h h.mem_all hapi] at hp
        cases hp
      · exact hbegins
  · exact Iff.rfl

/-- Every write route is the route of a handler. -/
theorem exists_of_mem_writeRouteRules {rule : HttpMethod × String}
    (hr : rule ∈ writeRouteRules) :
    ∃ h : Handler, h.route.1 = rule.1 ∧ h.pattern = patternOf rule.2 := by
  have hall : ∀ rule ∈ writeRouteRules, ∃ h ∈ all, h.route.1 = rule.1 ∧
      h.pattern = patternOf rule.2 := by decide +kernel
  obtain ⟨h, -, hh⟩ := hall rule hr
  exact ⟨h, hh⟩

/-- **The policy of a request** is `write` exactly for the handlers of write routes, under the
spelling of their rules. -/
theorem resolvePolicy_eq_write (hh : h.handles request = true) :
    RateLimitGuard.resolvePolicyFromRoute request.method
        (String.ofList (stripSlash request.path.toList)) = .write ↔
      h.policy = .write ∧ accepts exactly true h.pattern request.path.toList = true := by
  obtain ⟨hs, hp⟩ := Bool.and_eq_true_iff.mp hh
  simp only [RateLimitGuard.resolvePolicyFromRoute, policy, String.toList_ofList,
    ite_eq_left_iff, reduceCtorEq, imp_false, not_not, List.any_eq_true, Bool.and_eq_true,
    decide_eq_true_eq]
  constructor
  · rintro ⟨rule, hrule, hmethod, hexact⟩
    obtain ⟨h', hroute, hpattern⟩ := exists_of_mem_writeRouteRules hrule
    rw [← hpattern, accepts_pattern_stripSlash] at hexact
    have hserves : h'.serves request.method = true := by
      simp [serves, hroute, hmethod]
    obtain rfl : h' = h := handles_unique
      (Bool.and_eq_true_iff.mpr ⟨hserves, accepts_mono exactly_folded hexact⟩) hh
    exact ⟨⟨rule, hrule, hroute.symm, hpattern.symm⟩, hexact⟩
  · rintro ⟨⟨rule, hrule, hroute, hpattern⟩, hexact⟩
    refine ⟨rule, hrule, ?_, ?_⟩
    · have hpost : ∀ rule ∈ writeRouteRules, rule.1 ≠ .get := by decide
      simp only [serves, Bool.or_eq_true, Bool.and_eq_true, decide_eq_true_eq] at hs
      rcases hs with hs | ⟨hget, -⟩
      · exact hroute.trans hs
      · exact absurd (hroute.trans hget) (hpost rule hrule)
    · rw [hpattern, accepts_pattern_stripSlash]
      exact hexact

/-- The public path belongs to the public handler. -/
theorem eq_dashboardConfig (hh : h.handles request = true)
    (hpublic : request.path ∈ publicApiPaths) :
    h = .dashboardConfig := by
  obtain ⟨-, hp⟩ := Bool.and_eq_true_iff.mp hh
  have hall : ∀ h ∈ all, ∀ path ∈ publicApiPaths,
      accepts folded true h.pattern path.toList = true → h = .dashboardConfig := by decide +kernel
  exact hall h h.mem_all _ hpublic hp

/-- What `RateLimitGuard` charges for a request of the API. -/
theorem charged_eq (hh : h.handles request = true) (hapi : h.underApi = true)
    (options : RateLimitOptions) :
    RateLimitGuard.charged options h request =
      if Text.hasPrefix request.path guardedPathPrefix = true then
        let policy := RateLimitGuard.resolvePolicyFromRoute request.method
          (String.ofList (stripSlash request.path.toList))
        if options.limit policy = 0 then none else some policy
      else none := by
  have hbegins := hasPrefix_stripSlash hh hapi
  unfold RateLimitGuard.charged
  rw [rateLimitPath hh]
  dsimp only
  rcases hguarded : Text.hasPrefix request.path guardedPathPrefix with _ | _
  · rw [hbegins, hguarded]
    rfl
  · have hunlimited : unlimitedPaths.contains
        (String.ofList (stripSlash request.path.toList)) = false := by
      -- the unlimited paths are not under the prefix
      have hall : ∀ path ∈ unlimitedPaths, Text.hasPrefix path guardedPathPrefix = false := by
        decide +kernel
      rw [← Bool.not_eq_true, List.contains_iff_mem]
      intro hmem
      have hno := hall _ hmem
      rw [hbegins, hguarded] at hno
      cases hno
    rw [hbegins, hguarded, hunlimited]
    rfl

end Handler

/-! ## Agreement -/

/-- **When guards and router agree.** A request that the router dispatches to a handler under
`api/v1` is authenticated unless the handler is the public one, and charged to the bucket of the
handler, if and only if its path is spelled as the guards list it. -/
theorem guards_agree_iff {request : RoutedRequest} {h : Handler}
    (hdispatch : dispatch request = some h) (hapi : h.underApi = true) :
    GuardsAgree request h ↔ SpelledAsListed request h := by
  have hh := handles_of_dispatch hdispatch
  have hcharged := Handler.charged_eq hh hapi
  have hpolicy := Handler.resolvePolicy_eq_write hh
  have hauth : AuthGuard.authenticates request = true ↔
      Text.hasPrefix request.path guardedPathPrefix = true ∧ request.path ∉ publicApiPaths := by
    unfold AuthGuard.authenticates
    rw [Handler.authPath hh]
    simp
  constructor
  · intro hagree
    have hone : ∀ policy, (⟨1, 1⟩ : RateLimitOptions).limit policy ≠ 0 := by
      intro policy
      cases policy <;> decide
    have hcharge := hagree.charge ⟨1, 1⟩
    rw [hcharged, if_neg (hone h.policy)] at hcharge
    have hlisted : Text.hasPrefix request.path guardedPathPrefix = true := by
      by_contra hno
      rw [if_neg hno] at hcharge
      cases hcharge
    rw [if_pos hlisted] at hcharge
    dsimp only at hcharge
    rw [if_neg (hone _)] at hcharge
    refine ⟨hlisted, fun hwrite => ?_, fun hpublic => ?_⟩
    · exact (hpolicy.mp ((Option.some.inj hcharge).trans hwrite)).2
    · by_contra hno
      exact hagree.auth.mp (hauth.mpr ⟨hlisted, hno⟩) hpublic
  · intro hspelled
    refine ⟨?_, fun options => ?_⟩
    · rw [hauth]
      constructor
      · rintro ⟨-, hno⟩ hpublic
        exact hno (hspelled.dashboard hpublic)
      · exact fun hne => ⟨hspelled.listed, fun hpath => hne (Handler.eq_dashboardConfig hh hpath)⟩
    · have hsame : RateLimitGuard.resolvePolicyFromRoute request.method
          (String.ofList (stripSlash request.path.toList)) = h.policy := by
        rcases hp : h.policy with _ | _
        · rcases hr : RateLimitGuard.resolvePolicyFromRoute request.method
            (String.ofList (stripSlash request.path.toList)) with _ | _
          · rfl
          · rw [(hpolicy.mp hr).1] at hp
            cases hp
        · exact hpolicy.mpr ⟨hp, hspelled.write hp⟩
      rw [hcharged, if_pos hspelled.listed, hsame]

/-- A request of a client. -/
def plainRequest (method : HttpMethod) (path : String) (h : '?' ∉ path.toList := by decide) :
    RoutedRequest :=
  { method := method, path := path, url := path, noQuery := h }

theorem guards_agree_iff_trailingSlash :
    GuardsAgree (plainRequest .post "/api/v1/feeds/7/check-now/") .checkFeedNow := by
  refine (guards_agree_iff (h := .checkFeedNow) (by decide +kernel) (by decide +kernel)).mpr ?_
  exact ⟨by decide +kernel, fun _ => by decide +kernel, fun h => by cases h⟩

/-- The handler is reached without authentication, and no bucket is charged. -/
theorem upper_case_unguarded :
    dispatch (plainRequest .get "/API/v1/feeds") = some .listFeeds ∧
      ¬ GuardsAgree (plainRequest .get "/API/v1/feeds") .listFeeds := by
  refine ⟨by decide +kernel, fun hagree => ?_⟩
  have hopen : AuthGuard.authenticates (plainRequest .get "/API/v1/feeds") = false := by
    decide +kernel
  rw [hagree.auth.mpr (by decide)] at hopen
  cases hopen

end Feedpulse
