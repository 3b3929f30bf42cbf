import Feedpulse.FixedWindow
import Feedpulse.RouteGuards

/-!
# The inbound rate limiter

`RateLimitGuard` charges every request below `/api/` to a bucket, and refuses it when the counter
of the bucket has passed the limit. The counters are in Redis, or in the process if the connection
cannot run scripts. `limiter_exact` says which requests are admitted, for both stores. Both are
taken to drop a counter at the instant it expires.
-/

namespace Feedpulse

namespace InboundRateLimit

open FixedWindow

/-! ## Buckets -/

/-- The policy in a key. -/
def policyText : RateLimitPolicyName → String
  | .default => "default"
  | .write => "write"

/-- Who is charged. -/
inductive Scope
  /-- an authenticated request -/
  | tenant (id : String)
  /-- another one -/
  | ip (address : String)
  deriving DecidableEq, Repr

/-- The scope in a key. -/
def Scope.text : Scope → String
  | .tenant id => "tenant:" ++ id
  | .ip address => "ip:" ++ address

/-- What `resolveScope` reads of a request. -/
structure Request where
  /-- `request.tenantId` -/
  tenantId : Option String
  /-- `request.ip` -/
  ip : Option String
  /-- `request.socket?.remoteAddress` -/
  remoteAddress : Option String
  deriving DecidableEq, Repr

/-- `resolveScope`. -/
def resolveScope (request : Request) : Scope :=
  match request.tenantId with
  | some id =>
    if id ≠ "" then .tenant id
    else .ip (request.ip.getD (request.remoteAddress.getD "unknown"))
  | none => .ip (request.ip.getD (request.remoteAddress.getD "unknown"))

/-- What a request is charged to. -/
structure Bucket where
  /-- the budget -/
  policy : RateLimitPolicyName
  /-- its owner -/
  scope : Scope
  deriving DecidableEq, Repr

/-- `KEY_PREFIX`. -/
def keyPrefix : String := "feedpulse:ratelimit"

/-- The key of a bucket in the store. -/
def Bucket.key (bucket : Bucket) : String :=
  keyPrefix ++ ":" ++ policyText bucket.policy ++ ":" ++ bucket.scope.text

/-- Every bucket has a key of its own. -/
theorem Bucket.key_injective : Function.Injective Bucket.key := by
  rintro ⟨policy, scope⟩ ⟨policy', scope'⟩ h
  have hkey := congrArg String.toList h
  cases policy <;> cases policy' <;> cases scope <;> cases scope' <;>
    simp [Bucket.key, keyPrefix, policyText, Scope.text, ← String.toList_inj] at hkey ⊢
  all_goals exact hkey

/-! ## The stores -/

/-- `RateLimitConsumption`. -/
structure RateLimitConsumption where
  /-- hits of the window, this one included -/
  totalHits : Nat
  /-- milliseconds until the window rolls over -/
  resetAfterMs : Nat
  deriving DecidableEq, Repr

/-- What Redis stores under a key. -/
structure RedisEntry where
  /-- the number -/
  hits : Nat
  /-- when the key expires, if it does -/
  expiresAtMs : Option Nat
  deriving DecidableEq, Repr

/-- The keys of Redis. -/
abbrev RedisDb := String → Option RedisEntry

/-- The entry of a key, unless it has expired. -/
def RedisDb.get (db : RedisDb) (now : Nat) (key : String) : Option RedisEntry :=
  (db key).filter fun entry => entry.expiresAtMs.all (now < ·)

/-- `INCR`, which keeps the expiry of a key. -/
def RedisDb.incr (db : RedisDb) (now : Nat) (key : String) : Nat × RedisDb :=
  match db.get now key with
  | none => (1, Function.update db key (some { hits := 1, expiresAtMs := none }))
  | some entry =>
    (entry.hits + 1, Function.update db key (some { entry with hits := entry.hits + 1 }))

/-- `PEXPIRE`. -/
def RedisDb.pexpire (db : RedisDb) (now : Nat) (key : String) (ms : Nat) : RedisDb :=
  match db.get now key with
  | none => db
  | some entry => Function.update db key (some { entry with expiresAtMs := some (now + ms) })

/-- `PTTL`. -/
def RedisDb.pttl (db : RedisDb) (now : Nat) (key : String) : Int :=
  match db.get now key with
  | none => -2
  | some entry =>
    match entry.expiresAtMs with
    | none => -1
    | some time => (time : Int) - now

/-- `CONSUME_SCRIPT`. -/
def consumeScript (db : RedisDb) (now : Nat) (key : String) (windowMs : Nat) :
    Nat × Int × RedisDb :=
  let (hits, db) := db.incr now key
  let db := if hits = 1 then db.pexpire now key windowMs else db
  (hits, db.pttl now key, db)

/-- `toPositiveNumber`, for the integers of a reply. -/
def toPositiveNumber (value : Int) : Option Nat := if 0 < value then some value.toNat else none

/-- `RedisRateLimitStore.consume`. -/
def redisConsume (db : RedisDb) (now : Nat) (key : String) (windowMs : Nat) :
    Except String RateLimitConsumption × RedisDb :=
  let (hits, ttl, db) := consumeScript db now key windowMs
  match toPositiveNumber hits with
  | none => (.error "rate_limit_store_unexpected_reply", db)
  | some totalHits =>
    (.ok { totalHits, resetAfterMs := (toPositiveNumber ttl).getD windowMs }, db)

/-- An entry of `windows`. -/
structure MemoryWindow where
  /-- hits so far -/
  hits : Nat
  /-- end of the window -/
  expiresAtMs : Nat
  deriving DecidableEq, Repr

/-- `windows`. -/
abbrev MemoryWindows := String → Option MemoryWindow

/-- `evictExpired`. -/
def evictExpired (windows : MemoryWindows) (now : Nat) : MemoryWindows := fun key =>
  (windows key).filter fun window => now < window.expiresAtMs

/-- `MemoryRateLimitStore.consume`. -/
def memoryConsume (windows : MemoryWindows) (now : Nat) (key : String) (windowMs : Nat) :
    Except String RateLimitConsumption × MemoryWindows :=
  let fresh : Except String RateLimitConsumption × MemoryWindows :=
    (.ok { totalHits := 1, resetAfterMs := windowMs },
      Function.update (evictExpired windows now) key
        (some { hits := 1, expiresAtMs := now + windowMs }))
  match windows key with
  | none => fresh
  | some existing =>
    if now < existing.expiresAtMs then
      (.ok { totalHits := existing.hits + 1, resetAfterMs := existing.expiresAtMs - now },
        Function.update windows key (some { existing with hits := existing.hits + 1 }))
    else fresh

/-! ## The guard -/

/-- `RateLimitOptions`. -/
structure BucketOptions extends RateLimitOptions where
  /-- length of a window -/
  windowMs : Nat
  deriving DecidableEq, Repr

/-- The headers of an answer that was charged. -/
structure RateLimitHeaders where
  /-- `X-RateLimit-Limit` -/
  limit : Nat
  /-- `X-RateLimit-Remaining` -/
  remaining : Nat
  /-- `X-RateLimit-Reset` -/
  resetSeconds : Nat
  deriving DecidableEq, Repr

/-- How `canActivate` ends. -/
inductive Decision
  /-- the policy has no limit -/
  | unlimited
  /-- the store failed, and the request is let through -/
  | unavailable
  /-- within the limit -/
  | admitted (headers : RateLimitHeaders)
  /-- `rate_limit_exceeded`, with `Retry-After` and a message -/
  | refused (headers : RateLimitHeaders) (retryAfter : Nat) (message : String)
  deriving DecidableEq, Repr

/-- Whether the request is served. -/
def Decision.admits : Decision → Bool
  | .refused _ _ _ => false
  | _ => true

/-- What the guard makes of a consumption. -/
def judge (options : BucketOptions) (policy : RateLimitPolicyName)
    (consumption : RateLimitConsumption) : Decision :=
  let limit := options.limit policy
  let resetSeconds := max 1 ((consumption.resetAfterMs + 999) / 1000)
  let headers := { limit, remaining := limit - consumption.totalHits, resetSeconds }
  if limit < consumption.totalHits then
    .refused headers resetSeconds
      ("Rate limit exceeded for the " ++ policyText policy ++ " budget (" ++ toString limit ++
        " requests per " ++ toString ((options.windowMs + 500) / 1000) ++ "s). Retry in " ++
        toString resetSeconds ++ "s.")
  else .admitted headers

section Guard

variable {σ : Type} (consume : σ → Nat → String → Nat → Except String RateLimitConsumption × σ)
  (options : BucketOptions)

/-- `canActivate`, from the policy on. -/
def canActivate (s : σ) (now : Nat) (bucket : Bucket) : Decision × σ :=
  let limit := options.limit bucket.policy
  if limit ≤ 0 then (.unlimited, s)
  else
    match consume s now bucket.key options.windowMs with
    | (.error _, s) => (.unavailable, s)
    | (.ok consumption, s) => (judge options bucket.policy consumption, s)

/-- Serve requests: the decisions, with their buckets. -/
def serve : σ → List (Nat × Bucket) → List (Bucket × Decision)
  | _, [] => []
  | s, (now, bucket) :: requests =>
    (bucket, (canActivate consume options s now bucket).1) ::
      serve (canActivate consume options s now bucket).2 requests

/-- The store after the requests. -/
def stored : σ → List (Nat × Bucket) → σ
  | s, [] => s
  | s, (now, bucket) :: requests => stored (canActivate consume options s now bucket).2 requests

end Guard

/-! ## The stores count in windows -/

/-- A store that keeps one counter for each key. -/
structure Counts {σ : Type}
    (consume : σ → Nat → String → Nat → Except String RateLimitConsumption × σ)
    (content : σ → String → Option Counter) (sound : σ → Prop) : Prop where
  /-- it answers what the counter shows -/
  answer : ∀ s now key length, sound s → (consume s now key length).1 = .ok
    { totalHits := (hit length (content s key) now).hits
      resetAfterMs := (hit length (content s key) now).expiresAt - now }
  /-- it counts the hit, and may drop what has expired -/
  next : ∀ s now key length, sound s → ∀ now', now ≤ now' → ∀ k,
    live now' (content (consume s now key length).2 k)
      = live now' (Function.update (content s) key (some (hit length (content s key) now)) k)
  /-- it keeps its invariant -/
  sound : ∀ s now key length, sound s → sound (consume s now key length).2

/-- The counters of Redis. -/
def redisContent (db : RedisDb) (key : String) : Option Counter :=
  (db key).bind fun entry =>
    entry.expiresAtMs.map fun time => { hits := entry.hits, expiresAt := time }

/-- **No counter lives without an expiry**, and none is zero. -/
def Expiring (db : RedisDb) : Prop :=
  ∀ key entry, db key = some entry → entry.expiresAtMs ≠ none ∧ 0 < entry.hits

/-- A counter as an entry of Redis. -/
def entryOf (c : Counter) : RedisEntry := { hits := c.hits, expiresAtMs := some c.expiresAt }

/-- A counter of Redis, as the commands see it. -/
theorem redis_get {db : RedisDb} (h : Expiring db) (now : Nat) (key : String) :
    db.get now key = (live now (redisContent db key)).map entryOf := by
  unfold RedisDb.get redisContent
  rcases hentry : db key with _ | ⟨hits, _ | time⟩
  · rfl
  · exact absurd rfl (h key _ hentry).1
  · by_cases hlive : now < time <;> simp [hlive, Option.filter, entryOf]

theorem get_update (db : RedisDb) (now : Nat) (key : String) (entry : RedisEntry) :
    RedisDb.get (Function.update db key (some entry)) now key
      = if entry.expiresAtMs.all (now < ·) then some entry else none := by
  simp [RedisDb.get, Option.filter]

/-- `PTTL` after the script. -/
theorem pttl_update (db : RedisDb) (now : Nat) (key : String) (c : Counter) :
    toPositiveNumber (RedisDb.pttl (Function.update db key (some (entryOf c))) now key)
      = if now < c.expiresAt then some (c.expiresAt - now) else none := by
  unfold RedisDb.pttl
  rw [get_update]
  by_cases hlive : now < c.expiresAt
  · have hsub : ((c.expiresAt : Int) - now).toNat = c.expiresAt - now := by omega
    simp [entryOf, hlive, toPositiveNumber, hsub]
  · simp [entryOf, hlive, toPositiveNumber]

/-- **The script counts a hit**, and gives the key an expiry if it was not there. -/
theorem consumeScript_eq {db : RedisDb} (h : Expiring db) (now : Nat) (key : String)
    (length : Nat) : consumeScript db now key length =
      ((hit length (redisContent db key) now).hits,
        RedisDb.pttl (Function.update db key
          (some (entryOf (hit length (redisContent db key) now)))) now key,
        Function.update db key (some (entryOf (hit length (redisContent db key) now)))) := by
  have hget := redis_get h now key
  rcases hlive : live now (redisContent db key) with _ | c
  · -- the first hit of a window: `INCR` makes the key, `PEXPIRE` gives it its expiry
    have hhit : hit length (redisContent db key) now
        = { hits := 1, expiresAt := now + length } := by rw [hit, hlive]
    have hincr : db.incr now key
        = (1, Function.update db key (some { hits := 1, expiresAtMs := none })) := by
      rw [RedisDb.incr, hget, hlive, Option.map_none]
    simp [consumeScript, hincr, RedisDb.pexpire, get_update, hhit, entryOf]
  · have hhit : hit length (redisContent db key) now = { c with hits := c.hits + 1 } := by
      rw [hit, hlive]
    have hincr : db.incr now key = (c.hits + 1, Function.update db key
        (some (entryOf { c with hits := c.hits + 1 }))) := by
      rw [RedisDb.incr, hget, hlive, Option.map_some]
      rfl
    have hpos : c.hits ≠ 0 := by
      have hsome : db.get now key = some (entryOf c) := by rw [hget, hlive, Option.map_some]
      have hentry : db key = some (entryOf c) := (Option.filter_eq_some_iff.mp hsome).1
      exact Nat.ne_of_gt (h key _ hentry).2
    simp [consumeScript, hincr, hhit, hpos]

theorem redisContent_update (db : RedisDb) (key : String) (c : Counter) :
    redisContent (Function.update db key (some (entryOf c)))
      = Function.update (redisContent db) key (some c) := by
  funext k
  by_cases hk : k = key
  · subst hk
    simp [redisContent, entryOf]
  · simp [redisContent, hk]

/-- **Redis counts in windows.** -/
theorem redis_counts : Counts redisConsume redisContent Expiring where
  answer db now key length h := by
    have hpos : toPositiveNumber ((hit length (redisContent db key) now).hits : Int)
        = some (hit length (redisContent db key) now).hits := by
      have hhits := hit_pos length (redisContent db key) now
      simp [toPositiveNumber, hhits]
    have hreset : (if now < (hit length (redisContent db key) now).expiresAt then
        some ((hit length (redisContent db key) now).expiresAt - now) else none).getD length
          = (hit length (redisContent db key) now).expiresAt - now := by
      -- without a time to live, the script has just started a window of no length
      rcases hit_expiresAt length (redisContent db key) now with hlive | hnew
      · simp [hlive]
      · split
        · rfl
        · rw [Option.getD_none]
          omega
    simp only [redisConsume, consumeScript_eq h, pttl_update, hpos, hreset]
  next db now key length h now' _ k := by
    have hpos := hit_pos length (redisContent db key) now
    simp [redisConsume, consumeScript_eq h, toPositiveNumber, hpos, redisContent_update]
  sound db now key length h := by
    have hpos := hit_pos length (redisContent db key) now
    have hafter : (redisConsume db now key length).2 = Function.update db key
        (some (entryOf (hit length (redisContent db key) now))) := by
      simp [redisConsume, consumeScript_eq h, toPositiveNumber, hpos]
    intro k entry hentry
    rw [hafter] at hentry
    by_cases hk : k = key
    · subst hk
      rw [Function.update_self] at hentry
      obtain rfl := Option.some.inj hentry
      exact ⟨Option.some_ne_none _, hpos⟩
    · rw [Function.update_of_ne hk] at hentry
      exact h k entry hentry

/-- The counters of the process. -/
def memoryContent (windows : MemoryWindows) (key : String) : Option Counter :=
  (windows key).map fun window => { hits := window.hits, expiresAt := window.expiresAtMs }

/-- What is evicted has expired. -/
theorem live_evictExpired (windows : MemoryWindows) {now now' : Nat} (h : now ≤ now')
    (key : String) :
    live now' (memoryContent (evictExpired windows now) key)
      = live now' (memoryContent windows key) := by
  unfold memoryContent evictExpired
  rcases windows key with _ | window
  · rfl
  · by_cases hnow : now < window.expiresAtMs
    · simp [Option.filter, hnow]
    · have hlater : ¬now' < window.expiresAtMs := by omega
      simp [Option.filter, hnow, hlater]

/-- **The process counts in windows.** -/
theorem memory_counts : Counts memoryConsume memoryContent fun _ => True where
  answer windows now key length _ := by
    rcases hwindow : windows key with _ | window
    · simp [memoryConsume, memoryContent, hwindow, hit]
    · by_cases hlive : now < window.expiresAtMs <;>
        simp [memoryConsume, memoryContent, hwindow, hit, hlive]
  next windows now key length _ now' hle k := by
    have hfresh : live now' (memoryContent (Function.update (evictExpired windows now) key
        (some { hits := 1, expiresAtMs := now + length })) k)
          = live now' (Function.update (memoryContent windows) key
              (some { hits := 1, expiresAt := now + length }) k) := by
      by_cases hk : k = key
      · subst hk
        simp [memoryContent]
      · have hevict := live_evictExpired windows hle k
        simpa [memoryContent, hk] using hevict
    rcases hwindow : windows key with _ | window
    · simpa [memoryConsume, memoryContent, hwindow, hit] using hfresh
    · by_cases hlive : now < window.expiresAtMs
      · by_cases hk : k = key
        · subst hk
          simp [memoryConsume, memoryContent, hwindow, hit, hlive]
        · simp [memoryConsume, memoryContent, hwindow, hit, hlive, hk]
      · simpa [memoryConsume, memoryContent, hwindow, hit, hlive] using hfresh
  sound _ _ _ _ _ := trivial

/-! ## The stores agree -/

/-- A store that is nothing but its counters. -/
def counterConsume (counters : String → Option Counter) (now : Nat) (key : String)
    (length : Nat) : Except String RateLimitConsumption × (String → Option Counter) :=
  (.ok { totalHits := (hit length (counters key) now).hits
         resetAfterMs := (hit length (counters key) now).expiresAt - now },
    Function.update counters key (some (hit length (counters key) now)))

section Agreement

variable {σ : Type} {consume : σ → Nat → String → Nat → Except String RateLimitConsumption × σ}
  {content : σ → String → Option Counter} {sound : σ → Prop} (options : BucketOptions)

/-- From some time on, a store has the counters that still count. -/
def Simulates (content : σ → String → Option Counter) (now : Nat) (s : σ)
    (counters : String → Option Counter) : Prop :=
  ∀ now', now ≤ now' → ∀ key, live now' (content s key) = live now' (counters key)

/-- **One request**: the same decision, and the same counters from then on. -/
theorem canActivate_simulates (hcounts : Counts consume content sound) {s : σ} {now : Nat}
    {counters : String → Option Counter} (hsound : sound s)
    (hsim : Simulates content now s counters) (bucket : Bucket) :
    (canActivate consume options s now bucket).1
        = (canActivate counterConsume options counters now bucket).1 ∧
      sound (canActivate consume options s now bucket).2 ∧
      Simulates content now (canActivate consume options s now bucket).2
        (canActivate counterConsume options counters now bucket).2 := by
  unfold canActivate
  by_cases hlimit : options.limit bucket.policy ≤ 0
  · simpa only [hlimit, if_true] using ⟨trivial, hsound, hsim⟩
  have hhit : hit options.windowMs (content s bucket.key) now
      = hit options.windowMs (counters bucket.key) now :=
    hit_congr (hsim now (Nat.le_refl now) bucket.key)
  have hanswer := hcounts.answer s now bucket.key options.windowMs hsound
  have hnext := hcounts.next s now bucket.key options.windowMs hsound
  have hkept := hcounts.sound s now bucket.key options.windowMs hsound
  rcases hconsume : consume s now bucket.key options.windowMs with ⟨answer, s'⟩
  rw [hconsume] at hanswer hnext hkept
  dsimp only at hanswer hkept
  subst hanswer
  simp only [hlimit, if_false, counterConsume, hhit, true_and]
  refine ⟨hkept, fun now' hle k => ?_⟩
  rw [hnext now' hle k, hhit]
  by_cases hk : k = bucket.key
  · rw [hk, Function.update_self, Function.update_self]
  · rw [Function.update_of_ne hk, Function.update_of_ne hk, hsim now' hle k]

/-- **A run**: a store that counts in windows decides like its counters alone. -/
theorem serve_eq (hcounts : Counts consume content sound) {s : σ} {now : Nat}
    {counters : String → Option Counter} {requests : List (Nat × Bucket)} (hsound : sound s)
    (hsim : Simulates content now s counters) (hnow : ∀ r ∈ requests, now ≤ r.1)
    (hsorted : requests.Pairwise fun r r' => r.1 ≤ r'.1) :
    serve consume options s requests = serve counterConsume options counters requests ∧
      sound (stored consume options s requests) := by
  induction requests generalizing s now counters with
  | nil => exact ⟨rfl, hsound⟩
  | cons r requests ih =>
    obtain ⟨time, bucket⟩ := r
    obtain ⟨hlater, hsorted⟩ := List.pairwise_cons.mp hsorted
    have hle : now ≤ time := hnow _ List.mem_cons_self
    obtain ⟨hdecision, hsound', hsim'⟩ := canActivate_simulates options hcounts hsound
      (fun now' hle' => hsim now' (Nat.le_trans hle hle')) bucket
    obtain ⟨hserve, hstored⟩ := ih hsound' hsim' hlater hsorted
    rw [serve, serve, stored, hdecision, hserve]
    exact ⟨rfl, hstored⟩

end Agreement

/-! ## Which requests are admitted -/

/-- The times of the requests to a bucket. -/
def timesOf (bucket : Bucket) (requests : List (Nat × Bucket)) : List Nat :=
  (requests.filter fun r => r.2 = bucket).map Prod.fst

/-- The decisions on the requests to a bucket. -/
def decisionsOf (bucket : Bucket) (decisions : List (Bucket × Decision)) : List Decision :=
  (decisions.filter fun d => d.1 = bucket).map Prod.snd

/-- The decision on a hit, from the counter after it. -/
def decideHit (options : BucketOptions) (policy : RateLimitPolicyName) (time : Nat)
    (c : Counter) : Decision :=
  judge options policy { totalHits := c.hits, resetAfterMs := c.expiresAt - time }

/-- The decisions on the requests to a bucket, from their times alone. -/
def bucketDecisions (options : BucketOptions) (bucket : Bucket) (counter : Option Counter)
    (times : List Nat) : List Decision :=
  if options.limit bucket.policy ≤ 0 then times.map fun _ => .unlimited
  else List.zipWith (decideHit options bucket.policy) times
    (shown options.windowMs counter times)

/-- One request, charged to the counters. -/
theorem canActivate_counters (options : BucketOptions) (counters : String → Option Counter)
    (now : Nat) (bucket : Bucket) :
    canActivate counterConsume options counters now bucket =
      if options.limit bucket.policy ≤ 0 then (.unlimited, counters)
      else (decideHit options bucket.policy now
          (hit options.windowMs (counters bucket.key) now),
        Function.update counters bucket.key
          (some (hit options.windowMs (counters bucket.key) now))) := by
  unfold canActivate
  by_cases hlimit : options.limit bucket.policy ≤ 0
  · simp only [hlimit, if_true]
  · simp only [hlimit, if_false]
    rfl

/-- **A bucket is charged on its own**: what the others are charged does not matter. -/
theorem decisionsOf_serve (options : BucketOptions) (bucket : Bucket)
    (counters : String → Option Counter) (requests : List (Nat × Bucket)) :
    decisionsOf bucket (serve counterConsume options counters requests)
      = bucketDecisions options bucket (counters bucket.key) (timesOf bucket requests) := by
  induction requests generalizing counters with
  | nil =>
    unfold bucketDecisions
    split <;> rfl
  | cons r requests ih =>
    obtain ⟨time, b⟩ := r
    rw [serve, canActivate_counters]
    by_cases hb : b = bucket
    · subst hb
      have hdecisions : ∀ d rest, decisionsOf b ((b, d) :: rest) = d :: decisionsOf b rest := by
        simp [decisionsOf]
      have htimes : timesOf b ((time, b) :: requests) = time :: timesOf b requests := by
        simp [timesOf]
      rw [hdecisions, htimes, ih]
      by_cases hlimit : options.limit b.policy ≤ 0
      · simp [bucketDecisions, hlimit]
      · simp [bucketDecisions, hlimit, shown]
    · have hdecisions : ∀ d rest,
          decisionsOf bucket ((b, d) :: rest) = decisionsOf bucket rest := by
        simp [decisionsOf, hb]
      have htimes : timesOf bucket ((time, b) :: requests) = timesOf bucket requests := by
        simp [timesOf, hb]
      have hkey : bucket.key ≠ b.key := fun heq => hb (Bucket.key_injective heq).symm
      rw [hdecisions, htimes, ih]
      by_cases hlimit : options.limit b.policy ≤ 0
      · rw [if_pos hlimit]
      · rw [if_neg hlimit]
        dsimp only
        rw [Function.update_of_ne hkey]

theorem admits_decideHit (options : BucketOptions) (policy : RateLimitPolicyName) (time : Nat)
    (c : Counter) :
    (decideHit options policy time c).admits = decide (c.hits ≤ options.limit policy) := by
  by_cases hlimit : c.hits ≤ options.limit policy
  · simp [decideHit, judge, Decision.admits, hlimit, Nat.not_lt.mpr hlimit]
  · simp [decideHit, judge, Decision.admits, hlimit, Nat.lt_of_not_le hlimit]

/-- The first requests of a window, up to a limit. -/
def firstAdmitted (limit requests : Nat) : List Bool :=
  List.replicate (min limit requests) true ++ List.replicate (requests - limit) false

theorem map_le_range' (limit requests : Nat) :
    (List.range' 1 requests).map (fun n => decide (n ≤ limit))
      = firstAdmitted limit requests := by
  refine List.ext_getElem ?_ fun i hi _ => ?_
  · simp [firstAdmitted]
    omega
  · by_cases hfirst : i < min limit requests
    · have hle : 1 + i ≤ limit := by omega
      simp [firstAdmitted, hfirst, hle]
    · have hi : i < requests := by simpa using hi
      have hgt : ¬1 + i ≤ limit := by omega
      simp [firstAdmitted, List.getElem_append, hfirst, hgt]

/-- **In each window exactly the first requests are admitted**, as many as the limit says. -/
theorem admits_bucketDecisions (options : BucketOptions) {bucket : Bucket}
    (hlimit : 0 < options.limit bucket.policy) (times : List Nat) :
    (bucketDecisions options bucket none times).map Decision.admits
      = (windows options.windowMs times).flatMap fun window =>
          firstAdmitted (options.limit bucket.policy) window.length := by
  have hadmits : ∀ counter : Option Counter,
      (List.zipWith (decideHit options bucket.policy) times
          (shown options.windowMs counter times)).map Decision.admits
        = (counts options.windowMs counter times).map
            fun n => decide (n ≤ options.limit bucket.policy) := by
    induction times with
    | nil => exact fun _ => rfl
    | cons time times ih =>
      intro counter
      rw [shown, counts, List.zipWith_cons_cons, List.map_cons, List.map_cons, ih,
        admits_decideHit]
  rw [bucketDecisions, if_neg (Nat.not_le.mpr hlimit), hadmits, counts_eq, List.map_flatMap]
  simp only [map_le_range']

/-- **The rate limiter is exact, and its stores agree**: they decide alike, no counter of Redis is
without an expiry, in each window of a bucket exactly the first requests are admitted, and the
decisions on a bucket depend on the times of its own requests. -/
theorem limiter_exact (options : BucketOptions) (requests : List (Nat × Bucket))
    (hsorted : requests.Pairwise fun r r' => r.1 ≤ r'.1) :
    serve memoryConsume options (fun _ => none) requests
        = serve redisConsume options (fun _ => none) requests ∧
      (∀ key entry, stored redisConsume options (fun _ => none) requests key = some entry →
        entry.expiresAtMs ≠ none) ∧
      (∀ bucket, 0 < options.limit bucket.policy →
        (decisionsOf bucket (serve redisConsume options (fun _ => none) requests)).map
            Decision.admits
          = (windows options.windowMs (timesOf bucket requests)).flatMap fun window =>
              firstAdmitted (options.limit bucket.policy) window.length) ∧
      ∀ bucket requests', requests'.Pairwise (fun r r' => r.1 ≤ r'.1) →
        timesOf bucket requests' = timesOf bucket requests →
          decisionsOf bucket (serve redisConsume options (fun _ => none) requests')
            = decisionsOf bucket (serve redisConsume options (fun _ => none) requests) := by
  have hredis : ∀ requests : List (Nat × Bucket), (requests.Pairwise fun r r' => r.1 ≤ r'.1) →
      serve redisConsume options (fun _ => none) requests
          = serve counterConsume options (fun _ => none) requests ∧
        Expiring (stored redisConsume options (fun _ => none) requests) := fun requests hsorted =>
    serve_eq options redis_counts (fun _ _ h => nomatch h) (fun _ _ _ => rfl)
      (fun _ _ => Nat.zero_le _) hsorted
  have hmemory : serve memoryConsume options (fun _ => none) requests
      = serve counterConsume options (fun _ => none) requests :=
    (serve_eq options memory_counts trivial (fun _ _ _ => rfl) (fun _ _ => Nat.zero_le _)
      hsorted).1
  refine ⟨hmemory.trans (hredis requests hsorted).1.symm, ?_, ?_, ?_⟩
  · exact fun key entry hentry => ((hredis requests hsorted).2 key entry hentry).1
  · intro bucket hlimit
    rw [(hredis requests hsorted).1, decisionsOf_serve]
    exact admits_bucketDecisions options hlimit _
  · intro bucket requests' hsorted' htimes
    rw [(hredis requests' hsorted').1, (hredis requests hsorted).1, decisionsOf_serve,
      decisionsOf_serve, htimes]

/-- Two requests in a window of a second. -/
def sampleOptions : BucketOptions where
  defaultLimit := 2
  writeLimit := 1
  windowMs := 1000

/-- A tenant sends four requests, and another address one in between. -/
def sampleRequests : List (Nat × Bucket) :=
  [(0, ⟨.default, .tenant "a"⟩), (10, ⟨.default, .ip "192.0.2.1"⟩), (20, ⟨.default, .tenant "a"⟩),
    (999, ⟨.default, .tenant "a"⟩), (1000, ⟨.default, .tenant "a"⟩)]

theorem sample_third_refused :
    (decisionsOf ⟨.default, .tenant "a"⟩
      (serve redisConsume sampleOptions (fun _ => none) sampleRequests)).map Decision.admits
        = [true, true, false, true] := by
  rw [(limiter_exact sampleOptions sampleRequests (by decide)).2.2.1 _ (by decide)]
  simp [timesOf, sampleRequests, windows, sampleOptions, firstAdmitted, RateLimitOptions.limit]

end InboundRateLimit

end Feedpulse
