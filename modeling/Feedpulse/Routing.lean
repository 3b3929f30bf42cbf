import Feedpulse.PathPattern
import Feedpulse.Text

/-!
# The routes of the API

The handlers of the controllers with their routes, and how Express finds the one for a request:
letters are folded, one slash at the end is tolerated, and a `HEAD` request is served by the
handler for `GET`.
-/

namespace Feedpulse

open PathPattern

/-- The methods of requests. -/
inductive HttpMethod
  /-- `GET` -/
  | get
  /-- `HEAD` -/
  | head
  /-- `POST` -/
  | post
  /-- `PUT` -/
  | put
  /-- `PATCH` -/
  | patch
  /-- `DELETE` -/
  | delete
  /-- any other one -/
  | other
  deriving DecidableEq, Repr

/-- A request as the router and the guards see it. -/
structure RoutedRequest where
  /-- its method -/
  method : HttpMethod
  /-- the path of its target -/
  path : String
  /-- the whole target -/
  url : String
  /-- a path ends where the query begins -/
  noQuery : '?' ∉ path.toList

/-- The handlers of the controllers. -/
inductive Handler
  /-- `AuthController.getDashboardConfig` -/
  | dashboardConfig
  /-- `FeedsController.create` -/
  | createFeed
  /-- `FeedsController.validate` -/
  | validateFeed
  /-- `FeedsController.list` -/
  | listFeeds
  /-- `FeedsController.getById` -/
  | feedById
  /-- `FeedsController.update` -/
  | updateFeed
  /-- `FeedsController.checkNow` -/
  | checkFeedNow
  /-- `FeedsController.remove` -/
  | removeFeed
  /-- `RulesController.create` -/
  | createRule
  /-- `RulesController.batchCreate` -/
  | batchCreateRules
  /-- `RulesController.list` -/
  | listRules
  /-- `RulesController.getById` -/
  | ruleById
  /-- `RulesController.update` -/
  | updateRule
  /-- `RulesController.remove` -/
  | removeRule
  /-- `SettingsController.get` -/
  | getSettings
  /-- `SettingsController.update` -/
  | updateSettings
  /-- `EntriesController.list` -/
  | listEntries
  /-- `AlertsController.list` -/
  | listAlerts
  /-- `AlertsController.getById` -/
  | alertById
  /-- `AlertsController.send` -/
  | sendAlert
  /-- `HealthController.health` -/
  | health
  /-- `HealthController.readiness` -/
  | readiness
  /-- `HealthController.metrics` -/
  | metrics
  /-- `HealthController.opsSummary` -/
  | opsSummary
  /-- `OpmlImportsController.upload` -/
  | uploadOpml
  /-- `OpmlImportsController.preview` -/
  | previewOpml
  /-- `OpmlImportsController.confirm` -/
  | confirmOpml
  /-- `OpmlImportsController.status` -/
  | opmlStatus
  deriving DecidableEq, Repr

namespace Handler

/-- The method and the path a handler is registered under. -/
def route : Handler → HttpMethod × String
  | dashboardConfig => (.get, "/api/v1/auth/dashboard-config")
  | createFeed => (.post, "/api/v1/feeds")
  | validateFeed => (.post, "/api/v1/feeds/validate")
  | listFeeds => (.get, "/api/v1/feeds")
  | feedById => (.get, "/api/v1/feeds/:id")
  | updateFeed => (.patch, "/api/v1/feeds/:id")
  | checkFeedNow => (.post, "/api/v1/feeds/:id/check-now")
  | removeFeed => (.delete, "/api/v1/feeds/:id")
  | createRule => (.post, "/api/v1/rules")
  | batchCreateRules => (.post, "/api/v1/rules/batch")
  | listRules => (.get, "/api/v1/rules")
  | ruleById => (.get, "/api/v1/rules/:id")
  | updateRule => (.patch, "/api/v1/rules/:id")
  | removeRule => (.delete, "/api/v1/rules/:id")
  | getSettings => (.get, "/api/v1/settings")
  | updateSettings => (.put, "/api/v1/settings")
  | listEntries => (.get, "/api/v1/entries")
  | listAlerts => (.get, "/api/v1/alerts")
  | alertById => (.get, "/api/v1/alerts/:id")
  | sendAlert => (.post, "/api/v1/alerts/:id/send")
  | health => (.get, "/health")
  | readiness => (.get, "/ready")
  | metrics => (.get, "/metrics")
  | opsSummary => (.get, "/api/v1/ops/summary")
  | uploadOpml => (.post, "/api/v1/opml/imports")
  | previewOpml => (.get, "/api/v1/opml/imports/:id/preview")
  | confirmOpml => (.post, "/api/v1/opml/imports/:id/confirm")
  | opmlStatus => (.get, "/api/v1/opml/imports/:id/status")

/-- The handlers in the order in which their modules register them. -/
def all : List Handler :=
  [dashboardConfig, createFeed, validateFeed, listFeeds, feedById, updateFeed, checkFeedNow,
    removeFeed, createRule, batchCreateRules, listRules, ruleById, updateRule, removeRule,
    getSettings, updateSettings, listEntries, listAlerts, alertById, sendAlert, health, readiness,
    metrics, opsSummary, uploadOpml, previewOpml, confirmOpml, opmlStatus]

theorem mem_all (h : Handler) : h ∈ all := by
  cases h <;> decide

end Handler

/-- The pattern of a registered path: a segment with a colon is a parameter. -/
def patternOf (path : String) : List Segment :=
  ((path.toList.splitOn '/').filter fun text => !text.isEmpty).map fun text =>
    if text.head? = some ':' then .param else .literal text

namespace Handler

/-- The pattern of a handler. -/
def pattern (h : Handler) : List Segment := patternOf h.route.2

/-- The handler is registered under `api/v1`. -/
def underApi (h : Handler) : Bool := Text.hasPrefix h.route.2 "/api/v1/"

/-- The method of the handler is that of the request. -/
def serves (h : Handler) (method : HttpMethod) : Bool :=
  h.route.1 = method || (h.route.1 = .get && method = .head)

/-- The router finds the handler for the request. Parameters that cannot be decoded, for which
it answers with an error, are not told apart. -/
def handles (h : Handler) (request : RoutedRequest) : Bool :=
  h.serves request.method && accepts folded true h.pattern request.path.toList

end Handler

/-- The handler of a request: the first one registered. -/
def dispatch (request : RoutedRequest) : Option Handler :=
  Handler.all.find? fun h => h.handles request

/-! ## One handler for a request -/

/-- The segments of a pattern are proper. -/
theorem proper_of_mem_patternOf {path : String} {s : Segment} (h : s ∈ patternOf path) :
    s.proper = true := by
  obtain ⟨text, htext, rfl⟩ := List.mem_map.mp h
  obtain ⟨-, hne⟩ := List.mem_filter.mp htext
  split
  · rfl
  · exact hne

theorem exactly_folded (c d : Char) (h : exactly c d = true) : folded c d = true := by
  obtain rfl := of_decide_eq_true h
  exact decide_eq_true rfl

theorem folded_euclidean (c d e : Char) (h : folded c e = true) (h' : folded d e = true) :
    folded c d = true :=
  decide_eq_true ((of_decide_eq_true h).trans (of_decide_eq_true h').symm)

namespace Handler

variable {h h' : Handler} {request : RoutedRequest}

theorem pattern_ne_nil (h : Handler) : h.pattern ≠ [] := by
  have hall : ∀ h ∈ all, h.pattern ≠ [] := by decide +kernel
  exact hall h h.mem_all

/-- The router tolerates a slash where others take it off. -/
theorem accepts_pattern_stripSlash (h : Handler) (same : Char → Char → Bool) (path : List Char) :
    accepts same false h.pattern (stripSlash path) = accepts same true h.pattern path :=
  accepts_stripSlash (fun _ => proper_of_mem_patternOf) h.pattern_ne_nil

/-- Two handlers for one method serve the same requests. -/
theorem method_eq_of_serves {method : HttpMethod} (hs : h.serves method = true)
    (hs' : h'.serves method = true) : h.route.1 = h'.route.1 := by
  simp only [serves, Bool.or_eq_true, Bool.and_eq_true, decide_eq_true_eq] at hs hs'
  rcases hs with rfl | ⟨hg, rfl⟩
  · rcases hs' with hs' | ⟨-, hhead⟩
    · exact hs'.symm
    · have hall : ∀ h ∈ all, h.route.1 ≠ .head := by decide
      exact absurd hhead (hall h h.mem_all)
  · rcases hs' with hs' | ⟨hg', -⟩
    · have hall : ∀ h ∈ all, h.route.1 ≠ .head := by decide
      exact absurd hs' (hall h' h'.mem_all)
    · exact hg.trans hg'.symm

/-- No two routes for one method overlap. -/
theorem eq_of_overlap (hmethod : h.route.1 = h'.route.1)
    (hover : overlap folded h.pattern h'.pattern = true) : h = h' := by
  have hall : ∀ h ∈ all, ∀ h' ∈ all, h.route.1 = h'.route.1 →
      overlap folded h.pattern h'.pattern = true → h = h' := by decide +kernel
  exact hall h h.mem_all h' h'.mem_all hmethod hover

/-- **A request has one handler**, whatever the order of registration. -/
theorem handles_unique (hh : h.handles request = true) (hh' : h'.handles request = true) :
    h = h' := by
  obtain ⟨hs, hp⟩ := Bool.and_eq_true_iff.mp hh
  obtain ⟨hs', hp'⟩ := Bool.and_eq_true_iff.mp hh'
  exact eq_of_overlap (method_eq_of_serves hs hs') (overlap_of_accepts folded_euclidean
    (fun _ => proper_of_mem_patternOf) (fun _ => proper_of_mem_patternOf) hp hp')

end Handler

theorem handles_of_dispatch {request : RoutedRequest} {h : Handler}
    (hd : dispatch request = some h) : h.handles request = true := by
  exact List.find?_some (p := fun h : Handler => h.handles request) hd

theorem dispatch_eq_some {request : RoutedRequest} {h : Handler} :
    dispatch request = some h ↔ h.handles request = true := by
  constructor
  · exact handles_of_dispatch
  · intro hh
    rcases hd : dispatch request with _ | h'
    · exact absurd hh (List.find?_eq_none.mp hd h h.mem_all)
    · rw [Handler.handles_unique hh (handles_of_dispatch hd)]

end Feedpulse
