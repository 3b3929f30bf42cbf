import Feedpulse.Config
import Feedpulse.Text
import Mathlib

/-!
# Authentication of requests

`HttpAuthService` decides which tenant a request belongs to: by an API key, or by a Clerk
session token. The signature of a token is not checked; its session id is looked up at Clerk
instead. `tenant_eq_iff` says when two tokens for one session lead to one tenant: when their
unsigned organisation claims agree. `tenant_chosen_by_claim` are two tokens for one session
that lead to two tenants.
-/

namespace Feedpulse

/-! ## JSON -/

/-- A value, as `JSON.parse` returns it. Literals out of range become infinities. -/
inductive Json
  /-- `null` -/
  | null
  /-- `true` or `false` -/
  | bool (b : Bool)
  /-- a number -/
  | number (n : WithBot (WithTop ℚ))
  /-- a string -/
  | string (s : String)
  /-- an array -/
  | array (items : List Json)
  /-- an object with its members -/
  | object (members : List (String × Json))

namespace Json

/-- `value.name`, undefined for anything but an object with such a member. -/
def member (name : String) : Json → Option Json
  | object members => (members.find? fun m => m.1 = name).map Prod.snd
  | _ => none

/-- `Boolean(value)`. -/
def truthy : Option Json → Bool
  | none => false
  | some null => false
  | some (bool b) => b
  | some (number n) => n ≠ ((0 : ℚ) : WithBot (WithTop ℚ))
  | some (string s) => s ≠ ""
  | some (array _) => true
  | some (object _) => true

/-- `value === s`. -/
def isString (s : String) : Option Json → Bool
  | some (string t) => t = s
  | _ => false

theorem isString_eq_true {s : String} {value : Option Json} :
    isString s value = true ↔ value = some (.string s) := by
  unfold isString
  split
  · simp
  · rename_i hno
    refine iff_of_false (by simp) fun h => hno s h

end Json

/-! ## Environment -/

/-- The part of the configuration authentication reads. -/
structure AuthConfig where
  /-- `ENABLE_AUTH` -/
  enableAuth : Bool
  /-- `AUTH_PROVIDER` -/
  authProvider : String
  /-- `CLERK_SECRET_KEY` -/
  clerkSecretKey : Option String
  /-- `CLERK_API_URL` -/
  clerkApiUrl : String

/-- Functions of the runtime. -/
structure AuthRuntime where
  /-- `String.prototype.toLowerCase` -/
  toLowerCase : String → String
  /-- `createHash('sha256').update(text).digest('hex')` -/
  sha256Hex : String → String
  /-- `Buffer.from(value, 'base64').toString('utf8')` -/
  base64ToUtf8 : String → String
  /-- `JSON.parse`, if it does not throw -/
  parseJson : String → Option Json
  /-- `String(value)` -/
  stringOf : Option Json → String

/-- The response of Clerk to the lookup of a session. -/
structure SessionResponse where
  /-- `response.ok` -/
  ok : Bool
  /-- `response.json()` -/
  json : Except String Json

/-- What a request meets outside the process. -/
structure AuthEnvironment where
  /-- `Date.now()` -/
  now : Nat
  /-- `GET` a session, with the `authorization` header -/
  fetchSession : String → String → Except String SessionResponse
  /-- `ApiKeysRepository.verifyApiKey`: the tenant of a stored key -/
  verifyApiKey : String → Except String (Option String)

/-! ## The session verifier -/

/-- `ClerkTokenClaims`, with the types they have before they are checked. -/
structure ClerkTokenClaims where
  /-- the subject -/
  sub : String
  /-- the session id -/
  sid : Option Json
  /-- the organisation -/
  orgId : Option Json
  /-- the expiry -/
  exp : Option Json

/-- `VerifiedClerkSession`. -/
structure VerifiedClerkSession where
  /-- the user -/
  subject : String
  /-- the organisation -/
  orgId : Option String
  deriving DecidableEq, Repr

namespace ClerkSessionVerifier

section Verify

variable (config : AuthConfig) (rt : AuthRuntime) (env : AuthEnvironment)

/-- `token.split('.')`. -/
def segments (token : String) : List String := (token.toList.splitOn '.').map String.ofList

/-- What `decodeBase64Url` replaces a character by. -/
def normalizeBase64Url (c : Char) : Char :=
  if c = '-' then '+' else if c = '_' then '/' else c

/-- `decodeBase64Url`. Header values have no characters outside the basic plane. -/
def decodeBase64Url (value : String) : String :=
  let normalized := value.toList.map normalizeBase64Url
  let padded := normalized ++ ['=', '=', '='].drop ((normalized.length + 3) % 4)
  rt.base64ToUtf8 (String.ofList padded)

/-- `parseJwtClaims`. -/
def parseJwtClaims (token : String) : Except String ClerkTokenClaims :=
  match segments token with
  | [_, payloadSegment, _] =>
    match rt.parseJson (decodeBase64Url rt payloadSegment) with
    | none => .error "invalid_clerk_token_payload"
    | some payload =>
      match payload.member "sub" with
      | some (.string sub) =>
        if sub = "" then .error "invalid_clerk_token_subject"
        else .ok
          { sub := sub
            sid := payload.member "sid"
            orgId := payload.member "org_id"
            exp := payload.member "exp" }
      | _ => .error "invalid_clerk_token_subject"
  | _ => .error "invalid_clerk_token"

/-- `typeof claims.exp === 'number' && claims.exp < now`. -/
def isExpired (claims : ClerkTokenClaims) (now : Nat) : Bool :=
  match claims.exp with
  | some (.number n) => n < ((now : ℚ) : WithBot (WithTop ℚ))
  | _ => false

/-- The address of the session at Clerk. -/
def sessionUrl (claims : ClerkTokenClaims) : String :=
  config.clerkApiUrl ++ "/v1/sessions/" ++ rt.stringOf claims.sid

/-- The organisation a token names: a nonempty string. -/
def organization (claims : ClerkTokenClaims) : Option String :=
  match claims.orgId with
  | some (.string orgId) => if orgId = "" then none else some orgId
  | _ => none

/-- The lookup of the session and its checks. -/
def lookupSession (claims : ClerkTokenClaims) (secretKey : String) :
    Except String VerifiedClerkSession :=
  match env.fetchSession (sessionUrl config rt claims) ("Bearer " ++ secretKey) with
  | .error message => .error message
  | .ok response =>
    if !response.ok then .error "clerk_session_invalid"
    else match response.json with
      | .error message => .error message
      | .ok .null => .error "Cannot read properties of null (reading 'status')"
      | .ok body =>
        if !Json.isString "active" (body.member "status") ||
            !Json.isString claims.sub (body.member "user_id") then
          .error "clerk_session_not_active"
        else .ok { subject := claims.sub, orgId := organization claims }

/-- `verify` after the claims were read. -/
def verifyClaims (claims : ClerkTokenClaims) : Except String VerifiedClerkSession :=
  if isExpired claims (env.now / 1000) then .error "clerk_token_expired"
  else if !Json.truthy claims.sid then .error "clerk_session_missing_sid"
  else match config.clerkSecretKey with
    | none => .error "clerk_secret_key_missing"
    | some secretKey =>
      if secretKey = "" then .error "clerk_secret_key_missing"
      else lookupSession config rt env claims secretKey

/-- `verify`. -/
def verify (token : String) : Except String VerifiedClerkSession :=
  match parseJwtClaims rt token with
  | .error message => .error message
  | .ok claims => verifyClaims config rt env claims

end Verify

section Lemmas

variable {config : AuthConfig} {rt : AuthRuntime} {env : AuthEnvironment}

/-- A token with claims has three segments. -/
theorem length_segments_of_parse {token : String} {claims : ClerkTokenClaims}
    (h : parseJwtClaims rt token = .ok claims) : (segments token).length = 3 := by
  unfold parseJwtClaims at h
  split at h
  · rename_i hs
    rw [hs]
    rfl
  · cases h

/-- An accepted session is active, its user is the subject of the token, and its
organisation is the one the token names. -/
theorem lookupSession_eq_ok {claims : ClerkTokenClaims} {secretKey : String}
    {session : VerifiedClerkSession}
    (h : lookupSession config rt env claims secretKey = .ok session) :
    (∃ response body,
      env.fetchSession (sessionUrl config rt claims) ("Bearer " ++ secretKey) = .ok response ∧
        response.json = .ok body ∧ body.member "status" = some (.string "active") ∧
        body.member "user_id" = some (.string claims.sub)) ∧
      session = { subject := claims.sub, orgId := organization claims } := by
  unfold lookupSession at h
  split at h
  · cases h
  rename_i response hresponse
  split at h
  · cases h
  split at h
  · cases h
  · cases h
  rename_i body _ hbody
  split at h
  · cases h
  rename_i hchecks
  simp only [Bool.or_eq_true, Bool.not_eq_true', not_or, Bool.not_eq_false,
    Json.isString_eq_true] at hchecks
  exact ⟨⟨response, body, hresponse, hbody, hchecks⟩, (Except.ok.inj h).symm⟩

/-- A verified session is what the lookup found. -/
theorem verifyClaims_eq_ok {claims : ClerkTokenClaims} {session : VerifiedClerkSession}
    (h : verifyClaims config rt env claims = .ok session) :
    ∃ secretKey, config.clerkSecretKey = some secretKey ∧
      lookupSession config rt env claims secretKey = .ok session := by
  unfold verifyClaims at h
  split at h
  · cases h
  split at h
  · cases h
  split at h
  · cases h
  rename_i secretKey hkey
  split at h
  · cases h
  exact ⟨secretKey, hkey, h⟩

/-- A token that is accepted was accepted with its claims. -/
theorem verify_of_parse {token : String} {claims : ClerkTokenClaims}
    (h : parseJwtClaims rt token = .ok claims) :
    verify config rt env token = verifyClaims config rt env claims := by
  unfold verify
  rw [h]

end Lemmas

end ClerkSessionVerifier

/-! ## Tenants -/

/-- `LEGACY_TENANT_ID`. -/
def legacyTenantId : String := "legacy"

/-- `createHash('sha256').update(principal).digest('hex').slice(0, 24)`. -/
def hashPrefix (rt : AuthRuntime) (principal : String) : List Char :=
  (rt.sha256Hex principal).toList.take 24

/-- `deriveTenantIdFromClerkPrincipal`. -/
def deriveTenantIdFromClerkPrincipal (rt : AuthRuntime) (principal : String) : String :=
  "ck_" ++ String.ofList (hashPrefix rt principal)

/-- The prefixes of the hashes of two different principals collide. -/
def PrefixesCollide (rt : AuthRuntime) (p q : String) : Prop :=
  p ≠ q ∧ hashPrefix rt p = hashPrefix rt q

/-- Tenants are equal if principals are, or if their hashes collide. -/
theorem derive_eq_iff {rt : AuthRuntime} {p q : String} :
    deriveTenantIdFromClerkPrincipal rt p = deriveTenantIdFromClerkPrincipal rt q ↔
      p = q ∨ PrefixesCollide rt p q := by
  have hhash : deriveTenantIdFromClerkPrincipal rt p = deriveTenantIdFromClerkPrincipal rt q ↔
      hashPrefix rt p = hashPrefix rt q := by
    unfold deriveTenantIdFromClerkPrincipal
    rw [String.append_right_inj, String.ofList_inj]
  rw [hhash]
  constructor
  · intro h
    by_cases hpq : p = q
    · exact .inl hpq
    · exact .inr ⟨hpq, h⟩
  · rintro (rfl | ⟨-, h⟩)
    · rfl
    · exact h

/-! ## The service -/

/-- A request, as far as authentication reads and writes it. -/
structure HttpRequest where
  /-- the `authorization` header -/
  authorization : Option String
  /-- the `x-api-key` header -/
  xApiKey : Option String
  /-- the tenant, once it is known -/
  tenantId : Option String
  /-- the API key the request was authenticated with -/
  apiKey : Option String
  deriving DecidableEq, Repr

namespace HttpAuth

section Service

variable (config : AuthConfig) (rt : AuthRuntime) (env : AuthEnvironment)

/-- `getBearerTokenFromRequest`. -/
def getBearerTokenFromRequest (request : HttpRequest) : Option String :=
  match request.authorization with
  | none => none
  | some authorization =>
    if Text.hasPrefix (rt.toLowerCase authorization) "bearer " then
      let value := Text.trim (String.ofList (authorization.toList.drop 7))
      if value = "" then none else some value
    else none

/-- `getApiKeyFromRequest`: a bearer token without a dot, or the header. -/
def getApiKeyFromRequest (request : HttpRequest) : Option String :=
  let xApiKey := match request.xApiKey with
    | none => none
    | some value => if Text.trim value = "" then none else some (Text.trim value)
  match getBearerTokenFromRequest rt request with
  | none => xApiKey
  | some bearer => if bearer.toList.contains '.' then xApiKey else some bearer

/-- `looksLikeJwt`. -/
def looksLikeJwt (value : String) : Bool :=
  (ClerkSessionVerifier.segments value).length = 3

/-- `normalizedProvider`. -/
def normalizedProvider : String := rt.toLowerCase (Text.trim config.authProvider)

/-- `supportsApiKey`. -/
def supportsApiKey : Bool :=
  normalizedProvider config rt = "api_key" || normalizedProvider config rt = "clerk_api_key"

/-- `supportsClerk`. -/
def supportsClerk : Bool :=
  normalizedProvider config rt = "clerk" || normalizedProvider config rt = "clerk_api_key"

/-- `authenticateApiKey`. -/
def authenticateApiKey (request : HttpRequest) (apiKey : String) : Except String HttpRequest :=
  match env.verifyApiKey apiKey with
  | .error message => .error message
  | .ok none => .error "invalid_api_key"
  | .ok (some tenantId) => .ok { request with apiKey := some apiKey, tenantId := some tenantId }

/-- The Clerk path of `authenticateRequest`. -/
def authenticateClerk (request : HttpRequest) (bearerToken : String) :
    Except String HttpRequest :=
  match ClerkSessionVerifier.verify config rt env bearerToken with
  | .error message => .error message
  | .ok verified =>
    let principal := verified.orgId.getD verified.subject
    .ok { request with tenantId := some (deriveTenantIdFromClerkPrincipal rt principal) }

/-- `authenticateRequest` with the bearer token. -/
def authenticateBearer (request : HttpRequest) : Except String HttpRequest :=
  match getBearerTokenFromRequest rt request with
  | none => .error "auth_required"
  | some bearerToken =>
    if supportsClerk config rt && looksLikeJwt bearerToken then
      authenticateClerk config rt env request bearerToken
    else if supportsApiKey config rt && !looksLikeJwt bearerToken then
      authenticateApiKey env request bearerToken
    else .error "auth_required"

/-- `authenticateRequest`. -/
def authenticateRequest (request : HttpRequest) : Except String HttpRequest :=
  if !config.enableAuth then .ok { request with tenantId := some legacyTenantId }
  else if Text.truthy request.tenantId then .ok request
  else
    match getApiKeyFromRequest rt request with
    | none => authenticateBearer config rt env request
    | some apiKey =>
      if supportsApiKey config rt then authenticateApiKey env request apiKey
      else authenticateBearer config rt env request

/-- The tenant the request is resolved to, if it is authenticated. -/
def resolvedTenantId (request : HttpRequest) : Except String (Option String) :=
  (authenticateRequest config rt env request).map HttpRequest.tenantId

/-! ## Requests that Clerk authenticates -/

/-- A request that carries a token with these claims, which the session verifier accepts. -/
structure AcceptedByClerk (request : HttpRequest) (token : String) (claims : ClerkTokenClaims) :
    Prop where
  /-- authentication is on -/
  enableAuth : config.enableAuth = true
  /-- no tenant has been attached to the request -/
  noTenantId : Text.truthy request.tenantId = false
  /-- the request does not authenticate by an API key -/
  noApiKey : getApiKeyFromRequest rt request = none ∨ supportsApiKey config rt = false
  /-- it carries the token -/
  bearer : getBearerTokenFromRequest rt request = some token
  /-- Clerk is a provider -/
  supportsClerk : supportsClerk config rt = true
  /-- the claims are those of the token -/
  parse : ClerkSessionVerifier.parseJwtClaims rt token = .ok claims
  /-- the verifier accepts the token -/
  accepted : ∃ session, ClerkSessionVerifier.verify config rt env token = .ok session

end Service

/-- Two tokens for the same session and subject, looked up with the same response. -/
structure SameSession (config : AuthConfig) (rt : AuthRuntime) (env₁ env₂ : AuthEnvironment)
    (c₁ c₂ : ClerkTokenClaims) : Prop where
  /-- the session id -/
  sid : c₁.sid = c₂.sid
  /-- the subject -/
  sub : c₁.sub = c₂.sub
  /-- the response of Clerk -/
  response : env₁.fetchSession (ClerkSessionVerifier.sessionUrl config rt c₁)
    = env₂.fetchSession (ClerkSessionVerifier.sessionUrl config rt c₂)

/-- The organisations the tokens name agree; a token without one stands for its subject. -/
def OrganizationsAgree (c₁ c₂ : ClerkTokenClaims) : Prop :=
  (ClerkSessionVerifier.organization c₁).getD c₁.sub
    = (ClerkSessionVerifier.organization c₂).getD c₂.sub

section Tenants

variable {config : AuthConfig} {rt : AuthRuntime} {env env₁ env₂ : AuthEnvironment}
  {request r₁ r₂ : HttpRequest} {token t₁ t₂ : String} {claims c₁ c₂ : ClerkTokenClaims}

/-- The tenant of such a request is derived from the organisation its token names. -/
theorem resolvedTenantId_of_accepted (h : AcceptedByClerk config rt env request token claims) :
    resolvedTenantId config rt env request = .ok (some (deriveTenantIdFromClerkPrincipal rt
      ((ClerkSessionVerifier.organization claims).getD claims.sub))) := by
  obtain ⟨session, hverify⟩ := h.accepted
  have hclaims := hverify
  rw [ClerkSessionVerifier.verify_of_parse h.parse] at hclaims
  obtain ⟨secretKey, -, hlookup⟩ := ClerkSessionVerifier.verifyClaims_eq_ok hclaims
  obtain ⟨-, rfl⟩ := ClerkSessionVerifier.lookupSession_eq_ok hlookup
  have hjwt : looksLikeJwt token = true :=
    decide_eq_true (ClerkSessionVerifier.length_segments_of_parse h.parse)
  have hbearer : authenticateBearer config rt env request
      = authenticateClerk config rt env request token := by
    unfold authenticateBearer
    rw [h.bearer]
    exact if_pos (by rw [h.supportsClerk, hjwt]; rfl)
  have hrequest : authenticateRequest config rt env request
      = authenticateBearer config rt env request := by
    unfold authenticateRequest
    rw [if_neg (by simp [h.enableAuth]), if_neg (by simp [h.noTenantId])]
    rcases h.noApiKey with hnone | hno
    · rw [hnone]
    · split
      · rfl
      · exact if_neg (by simp [hno])
  unfold resolvedTenantId
  rw [hrequest, hbearer]
  unfold authenticateClerk
  rw [hverify]
  rfl

/-- **Two accepted tokens for one session lead to one tenant exactly if** the organisations
they name agree, up to collisions of the hash. -/
theorem tenant_eq_iff (h₁ : AcceptedByClerk config rt env₁ r₁ t₁ c₁)
    (h₂ : AcceptedByClerk config rt env₂ r₂ t₂ c₂) (h : SameSession config rt env₁ env₂ c₁ c₂) :
    resolvedTenantId config rt env₁ r₁ = resolvedTenantId config rt env₂ r₂ ↔
      OrganizationsAgree c₁ c₂ ∨
        PrefixesCollide rt ((ClerkSessionVerifier.organization c₁).getD c₁.sub)
          ((ClerkSessionVerifier.organization c₂).getD c₁.sub) := by
  rw [resolvedTenantId_of_accepted h₁, resolvedTenantId_of_accepted h₂, Except.ok.injEq,
    Option.some.injEq, derive_eq_iff, OrganizationsAgree, h.sub]

end Tenants

/-! ## Two tokens for one session -/

/-- Authentication by Clerk. -/
def clerkConfig : AuthConfig :=
  { enableAuth := true
    authProvider := "clerk"
    clerkSecretKey := some "sk_test"
    clerkApiUrl := "https://api.clerk.example" }

/-- The payload of an honest token. -/
def honestPayload : Json :=
  .object [("sub", .string "user_2abc"), ("sid", .string "sess_1")]

/-- The payload of a token to which an organisation was added. -/
def forgedPayload : Json :=
  .object [("sub", .string "user_2abc"), ("sid", .string "sess_1"),
    ("org_id", .string "org_2xyz")]

/-- The honest payload as text. -/
def honestText : String := "\x7b\"sub\":\"user_2abc\",\"sid\":\"sess_1\"\x7d"

/-- The forged payload as text. -/
def forgedText : String :=
  "\x7b\"sub\":\"user_2abc\",\"sid\":\"sess_1\",\"org_id\":\"org_2xyz\"\x7d"

/-- The runtime, as it answers on the strings of the two requests. -/
def tokenRuntime : AuthRuntime where
  toLowerCase s := String.ofList (s.toList.map Char.toLower)
  sha256Hex s :=
    if s = "org_2xyz" then "5ef038b204ba79004db6b7ee9858c01ca54ffdd8160391368bd69eabe2339f88"
    else "9ef1275adf8c85cf1bb6144d89b02d64f29b97b6c83afb7c682cbd5786201dbd"
  base64ToUtf8 s :=
    if s = "eyJzdWIiOiJ1c2VyXzJhYmMiLCJzaWQiOiJzZXNzXzEifQ==" then honestText else forgedText
  parseJson s := if s = honestText then some honestPayload else some forgedPayload
  stringOf _ := "sess_1"

/-- Clerk knows the session as an active one of the user. -/
def clerkEnvironment : AuthEnvironment where
  now := 1700000000000
  fetchSession _ _ := .ok
    { ok := true
      json := .ok (.object [("status", .string "active"), ("user_id", .string "user_2abc")]) }
  verifyApiKey _ := .ok none

/-- A request with a bearer token. -/
def bearerRequest (token : String) : HttpRequest :=
  { authorization := some ("bearer " ++ token), xApiKey := none, tenantId := none, apiKey := none }

/-- The honest token, unsigned. -/
def honestToken : String := "eyJhbGciOiJub25lIn0.eyJzdWIiOiJ1c2VyXzJhYmMiLCJzaWQiOiJzZXNzXzEifQ."

/-- The forged token, unsigned. -/
def forgedToken : String :=
  "eyJhbGciOiJub25lIn0.eyJzdWIiOiJ1c2VyXzJhYmMiLCJzaWQiOiJzZXNzXzEiLCJvcmdfaWQiOiJvcmdfMnh5eiJ9."

/-- The claims of the two tokens. -/
def tokenClaims (orgId : Option Json) : ClerkTokenClaims :=
  { sub := "user_2abc", sid := some (.string "sess_1"), orgId := orgId, exp := none }

theorem supportsClerk_clerkConfig : supportsClerk clerkConfig tokenRuntime = true := by
  decide

/-- A bearer token without blanks around it is read back from the header. -/
theorem getBearerTokenFromRequest_bearerRequest {token : String} (hne : token ≠ "")
    (htrim : Text.trimChars token.toList = token.toList) :
    getBearerTokenFromRequest tokenRuntime (bearerRequest token) = some token := by
  have hprefix : Text.hasPrefix (tokenRuntime.toLowerCase ("bearer " ++ token)) "bearer "
      = true := by
    have hword : "bearer ".toList.map Char.toLower = "bearer ".toList := by decide
    simp only [Text.hasPrefix, tokenRuntime, String.toList_ofList, String.toList_append,
      List.map_append, hword, Text.startsWith_iff]
    exact List.prefix_append _ _
  have hdrop : ("bearer " ++ token).toList.drop 7 = token.toList := by
    rw [String.toList_append]
    exact List.drop_left' (by decide)
  have hvalue : Text.trim (String.ofList (("bearer " ++ token).toList.drop 7)) = token := by
    rw [hdrop, Text.trim, String.toList_ofList, htrim, String.ofList_toList]
  simp only [getBearerTokenFromRequest, bearerRequest, hprefix, if_true, hvalue, if_neg hne]

theorem honestToken_toList : honestToken.toList =
    ['e', 'y', 'J', 'h', 'b', 'G', 'c', 'i', 'O', 'i', 'J', 'u', 'b', '2', '5', 'l', 'I', 'n',
     '0', '.', 'e', 'y', 'J', 'z', 'd', 'W', 'I', 'i', 'O', 'i', 'J', '1', 'c', '2', 'V', 'y',
     'X', 'z', 'J', 'h', 'Y', 'm', 'M', 'i', 'L', 'C', 'J', 'z', 'a', 'W', 'Q', 'i', 'O', 'i',
     'J', 'z', 'Z', 'X', 'N', 'z', 'X', 'z', 'E', 'i', 'f', 'Q', '.'] :=
  String.toList_ofList

theorem honestToken_bearer :
    getBearerTokenFromRequest tokenRuntime (bearerRequest honestToken) = some honestToken := by
  refine getBearerTokenFromRequest_bearerRequest ?_ ?_
  · rw [Ne, ← String.toList_inj, honestToken_toList]
    simp
  · rw [honestToken_toList]
    rfl

theorem honestToken_parse :
    ClerkSessionVerifier.parseJwtClaims tokenRuntime honestToken
      = .ok (tokenClaims none) := by
  have hsegments : ClerkSessionVerifier.segments honestToken = ["eyJhbGciOiJub25lIn0",
      "eyJzdWIiOiJ1c2VyXzJhYmMiLCJzaWQiOiJzZXNzXzEifQ", ""] := by
    rw [ClerkSessionVerifier.segments, honestToken_toList]
    rfl
  rw [ClerkSessionVerifier.parseJwtClaims, hsegments]
  rfl

theorem forgedToken_toList : forgedToken.toList =
    ['e', 'y', 'J', 'h', 'b', 'G', 'c', 'i', 'O', 'i', 'J', 'u', 'b', '2', '5', 'l', 'I', 'n',
     '0', '.', 'e', 'y', 'J', 'z', 'd', 'W', 'I', 'i', 'O', 'i', 'J', '1', 'c', '2', 'V', 'y',
     'X', 'z', 'J', 'h', 'Y', 'm', 'M', 'i', 'L', 'C', 'J', 'z', 'a', 'W', 'Q', 'i', 'O', 'i',
     'J', 'z', 'Z', 'X', 'N', 'z', 'X', 'z', 'E', 'i', 'L', 'C', 'J', 'v', 'c', 'm', 'd', 'f',
     'a', 'W', 'Q', 'i', 'O', 'i', 'J', 'v', 'c', 'm', 'd', 'f', 'M', 'n', 'h', '5', 'e', 'i',
     'J', '9', '.'] :=
  String.toList_ofList

theorem forgedToken_bearer :
    getBearerTokenFromRequest tokenRuntime (bearerRequest forgedToken) = some forgedToken := by
  refine getBearerTokenFromRequest_bearerRequest ?_ ?_
  · rw [Ne, ← String.toList_inj, forgedToken_toList]
    simp
  · rw [forgedToken_toList]
    rfl

theorem forgedToken_parse :
    ClerkSessionVerifier.parseJwtClaims tokenRuntime forgedToken
      = .ok (tokenClaims (some (.string "org_2xyz"))) := by
  have hsegments : ClerkSessionVerifier.segments forgedToken = ["eyJhbGciOiJub25lIn0",
      "eyJzdWIiOiJ1c2VyXzJhYmMiLCJzaWQiOiJzZXNzXzEiLCJvcmdfaWQiOiJvcmdfMnh5eiJ9", ""] := by
    rw [ClerkSessionVerifier.segments, forgedToken_toList]
    rfl
  rw [ClerkSessionVerifier.parseJwtClaims, hsegments]
  rfl

theorem honestToken_accepted :
    AcceptedByClerk clerkConfig tokenRuntime clerkEnvironment (bearerRequest honestToken)
      honestToken (tokenClaims none) where
  enableAuth := rfl
  noTenantId := rfl
  noApiKey := .inl (by
    rw [getApiKeyFromRequest, honestToken_bearer]
    simp [honestToken_toList, bearerRequest])
  bearer := honestToken_bearer
  supportsClerk := supportsClerk_clerkConfig
  parse := honestToken_parse
  accepted := by
    rw [ClerkSessionVerifier.verify_of_parse honestToken_parse]
    exact ⟨⟨"user_2abc", none⟩, rfl⟩

theorem forgedToken_accepted :
    AcceptedByClerk clerkConfig tokenRuntime clerkEnvironment (bearerRequest forgedToken)
      forgedToken (tokenClaims (some (.string "org_2xyz"))) where
  enableAuth := rfl
  noTenantId := rfl
  noApiKey := .inl (by
    rw [getApiKeyFromRequest, forgedToken_bearer]
    simp [forgedToken_toList, bearerRequest])
  bearer := forgedToken_bearer
  supportsClerk := supportsClerk_clerkConfig
  parse := forgedToken_parse
  accepted := by
    rw [ClerkSessionVerifier.verify_of_parse forgedToken_parse]
    exact ⟨⟨"user_2abc", some "org_2xyz"⟩, rfl⟩

theorem tokens_sameSession (orgId orgId' : Option Json) :
    SameSession clerkConfig tokenRuntime clerkEnvironment clerkEnvironment (tokenClaims orgId)
      (tokenClaims orgId') :=
  ⟨rfl, rfl, rfl⟩

/-- The exact condition at the two tokens. -/
theorem tenant_eq_iff_tokens :
    resolvedTenantId clerkConfig tokenRuntime clerkEnvironment (bearerRequest honestToken)
        = resolvedTenantId clerkConfig tokenRuntime clerkEnvironment (bearerRequest forgedToken) ↔
      OrganizationsAgree (tokenClaims none) (tokenClaims (some (.string "org_2xyz"))) ∨
        PrefixesCollide tokenRuntime "user_2abc" "org_2xyz" :=
  tenant_eq_iff honestToken_accepted forgedToken_accepted (tokens_sameSession _ _)

/-- **An unsigned claim chooses the tenant**: two tokens for one session, both accepted with
one response, lead to two tenants. -/
theorem tenant_chosen_by_claim :
    AcceptedByClerk clerkConfig tokenRuntime clerkEnvironment (bearerRequest honestToken)
        honestToken (tokenClaims none) ∧
      AcceptedByClerk clerkConfig tokenRuntime clerkEnvironment (bearerRequest forgedToken)
        forgedToken (tokenClaims (some (.string "org_2xyz"))) ∧
      SameSession clerkConfig tokenRuntime clerkEnvironment clerkEnvironment (tokenClaims none)
        (tokenClaims (some (.string "org_2xyz"))) ∧
      resolvedTenantId clerkConfig tokenRuntime clerkEnvironment (bearerRequest honestToken)
        = .ok (some "ck_9ef1275adf8c85cf1bb6144d") ∧
      resolvedTenantId clerkConfig tokenRuntime clerkEnvironment (bearerRequest forgedToken)
        = .ok (some "ck_5ef038b204ba79004db6b7ee") := by
  refine ⟨honestToken_accepted, forgedToken_accepted, tokens_sameSession _ _, ?_, ?_⟩
  · rw [resolvedTenantId_of_accepted honestToken_accepted]
    rfl
  · rw [resolvedTenantId_of_accepted forgedToken_accepted]
    rfl

end HttpAuth

end Feedpulse
