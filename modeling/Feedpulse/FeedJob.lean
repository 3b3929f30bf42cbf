import Feedpulse.Frames
import Feedpulse.Footprints

/-!
# A fetch job is atomic

One attempt of `ProcessFeedJob`, with every call of it succeeding, failing, or failing
after it took effect, while other processes do as they like as long as they leave the
feed alone. `execute_atomic`: an attempt whose report never became permanent leaves no
entries and no alerts, keeps the validators of the feed, adds one error log, counts one
error and releases the claim; and the validators for a response with a body change in the
very `COMMIT` that stores its entries.
-/

namespace Feedpulse

open Prog World

namespace ProcessFeedJob

/-! ## Attempts -/

/-- A step of an attempt: a call, how it was answered, and the shared state around it. -/
structure Event where
  /-- the shared state before the call -/
  before : World
  /-- the call -/
  call : Call
  /-- how the environment answered it -/
  out : Outcome
  /-- the shared state after the call -/
  after : World

/-- An attempt under way. -/
structure Attempt where
  /-- the shared state -/
  world : World
  /-- the steps so far -/
  steps : List Event

/-- What other processes may do between two steps of an attempt: anything, except touch
the feed, its stored entries, or the transaction of the attempt. -/
structure Meanwhile (pid feedId : Nat) (w w' : World) : Prop where
  /-- the row of the feed stays -/
  row : Table.lookup FeedRow.id feedId w'.feeds = Table.lookup FeedRow.id feedId w.feeds
  /-- the entries of the feed stay -/
  entries : ∀ e ∈ w.entries, e.feedId = feedId → e ∈ w'.entries
  /-- the transaction stays -/
  txn : w'.txn pid = w.txn pid

/-- The next step of an attempt. -/
def Observes (pid feedId : Nat) (x : Attempt) (c : Call) (r : Except String c.Reply)
    (x' : Attempt) : Prop :=
  ∃ w out, Meanwhile pid feedId x.world w ∧ c.answer pid w out = some (r, x'.world) ∧
    x'.steps = x.steps ++ [⟨w, c, out, x'.world⟩]

/-- The error rows of `fetch_logs`. -/
def errorLogs (w : World) : List FetchLogRow := w.fetchLogs.filter FetchLogRow.error

/-- The stored validators of a feed. -/
def validators (feedId : Nat) (w : World) : Option (Option String × Option String) :=
  (Table.lookup FeedRow.id feedId w.feeds).map fun f => (f.etag, f.lastModified)

namespace Event

/-- The step leaves entries, alerts and error logs alone. -/
structure Quiet (e : Event) : Prop where
  /-- no entry is added -/
  entries : e.after.entries = e.before.entries
  /-- no alert is changed -/
  alerts : e.after.alerts = e.before.alerts
  /-- no error is logged -/
  logs : errorLogs e.after = errorLogs e.before

/-- A `COMMIT` takes effect. -/
def Commits (e : Event) : Prop := e.call = .ingest .commit ∧ e.out.takesEffect = true

/-- The report of a successful fetch becomes permanent: by the `COMMIT`, or as the lone
statement after a `304`. -/
def Reports (e : Event) : Prop :=
  e.out.takesEffect = true ∧
    match e.call with
    | .ingest .commit => True
    | .feed (.updateAfterFetch u) => u.lastError = none
    | _ => False

/-- The feed was read. -/
def Reads (feedId : Nat) (e : Event) : Prop :=
  e.call = .feed (.findByIdForWorker feedId) ∧ ∃ ch, e.out = .ok ch

/-- One of the two writes of the failure handler is not answered with success. -/
def FailsHandler (e : Event) : Prop :=
  (∀ ch, e.out ≠ .ok ch) ∧
    match e.call with
    | .feed (.recordFetchLog row) => row.error = true
    | .feed (.updateAfterFetch u) => u.lastError ≠ none
    | _ => False

/-- The response the step received. -/
def response? (e : Event) : Option FetchResponse :=
  match e.call, e.out with
  | .net (.fetchFeed ..), .ok (.response r) => some r
  | _, _ => none

/-- A `COMMIT` takes effect, after which every entry of the response is stored. -/
def Stores (rt : Runtime) (feedId : Nat) (response : FetchResponse) (e : Event) : Prop :=
  e.Commits ∧ ∃ items, rt.parseFeed response.body = .ok items ∧
    ∀ item ∈ items,
      e.after.entries.any (Entries.conflicts feedId (Entries.normalizeItem rt item)) = true

end Event

/-- The responses an attempt has received. -/
def responses (steps : List Event) : List FetchResponse := steps.filterMap Event.response?

theorem responses_append (steps : List Event) (e : Event) :
    responses (steps ++ [e]) = responses steps ++ e.response?.toList := by
  rw [responses, List.filterMap_append, responses]
  rcases h : e.response? with _ | response <;> simp [h]

/-- Only a fetch receives a response. -/
theorem Event.response?_eq_none {e : Event}
    (h : ∀ url etag lastModified, e.call ≠ .net (.fetchFeed url etag lastModified)) :
    e.response? = none := by
  unfold response?
  split
  · rename_i url etag lastModified _ hc _
    exact absurd hc (h url etag lastModified)
  · rfl

/-- No other process has done anything between the steps. -/
def Undisturbed : World → List Event → World → Prop
  | w, [], w' => w' = w
  | w, e :: es, w' => e.before = w ∧ Undisturbed e.after es w'

/-- What a failed attempt does on its way. -/
structure LogsOnce (feed : FeedRow) (steps : List Event) : Prop where
  /-- no step touches entries or alerts -/
  tables : ∀ e ∈ steps, e.after.entries = e.before.entries ∧ e.after.alerts = e.before.alerts
  /-- exactly one step logs an error, and one -/
  errorLog : ∃ pre e post message, steps = pre ++ e :: post ∧
    errorLogs e.after = errorLogs e.before ++ [failureLog feed message] ∧
    ∀ e' ∈ pre ++ post, errorLogs e'.after = errorLogs e'.before

/-- What a failed attempt leaves behind. -/
structure Restored (feed : FeedRow) (w : World) (x : Attempt) : Prop
    extends LogsOnce feed x.steps where
  /-- the feed keeps its validators, counts one more error, and is not claimed -/
  row : ∃ feed', Table.lookup FeedRow.id feed.id x.world.feeds = some feed' ∧
    feed'.etag = feed.etag ∧ feed'.lastModified = feed.lastModified ∧
    feed'.errorCount = feed.errorCount + 1 ∧ feed'.claimedAt = none
  /-- without other processes, the tables are as before, up to one error log -/
  undisturbed : Undisturbed w x.steps x.world → x.world.entries = w.entries ∧
    x.world.alerts = w.alerts ∧
    ∃ message, errorLogs x.world = errorLogs w ++ [failureLog feed message]

/-- Where the validators of the feed change, a `304` said so, or the entries of the response
are stored by the same `COMMIT`. -/
def ValidatorsAtomic (rt : Runtime) (feedId : Nat) (steps : List Event) : Prop :=
  ∀ e ∈ steps, validators feedId e.after ≠ validators feedId e.before →
    ∃ response, responses steps = [response] ∧
      (response.statusCode = 304 ∨ e.Stores rt feedId response)

/-! ## Steps -/

section Steps

variable {pid feedId : Nat} {x x' : Attempt} {c : Call} {r : Except String c.Reply}

/-- A step has no effect and fails, or has the effect of its call. -/
theorem Observes.cases (h : Observes pid feedId x c r x') :
    ∃ w out, Meanwhile pid feedId x.world w ∧ x'.steps = x.steps ++ [⟨w, c, out, x'.world⟩] ∧
      ((out.takesEffect = false ∧ x'.world = w ∧ ∃ error, r = .error error) ∨
        (out.takesEffect = true ∧ ∃ ch a, c.serve pid w ch = some (a, x'.world) ∧
          out.choice? = some ch ∧
          ((out = .ok ch ∧ r = .ok a) ∨ (out ≠ .ok ch ∧ ∃ error, r = .error error)))) := by
  obtain ⟨w, out, hm, ha, hs⟩ := h
  refine ⟨w, out, hm, hs, ?_⟩
  cases out with
  | ok ch =>
    obtain ⟨⟨a, w'⟩, hserve, he⟩ := Option.map_eq_some_iff.mp ha
    cases he
    exact .inr ⟨rfl, ch, a, hserve, rfl, .inl ⟨rfl, rfl⟩⟩
  | refused error =>
    obtain ⟨-, ha⟩ := Option.ite_none_left_eq_some.mp ha
    cases ha
    exact .inl ⟨rfl, rfl, error, rfl⟩
  | lost ch error =>
    obtain ⟨-, ha⟩ := Option.ite_none_left_eq_some.mp ha
    obtain ⟨⟨a, w'⟩, hserve, he⟩ := Option.map_eq_some_iff.mp ha
    cases he
    exact .inr ⟨rfl, ch, a, hserve, rfl, .inr ⟨nofun, error, rfl⟩⟩

/-- The calls that leave feeds, entries, alerts and error logs alone, and fetch nothing. -/
def Silent : Call → Prop
  | .feed (.recordFetchLog row) => row.error = false
  | .feed (.findByIdForWorker _) => True
  | .feed _ => False
  | .ingest .commit => False
  | .ingest _ => True
  | .net (.fetchFeed ..) => False
  | .assertSchemaReady => True
  | .clock => True
  | .random _ => True
  | _ => False

/-- What a silent call leaves as it is. -/
structure SameTables (w w' : World) : Prop where
  /-- feeds -/
  feeds : w'.feeds = w.feeds
  /-- entries -/
  entries : w'.entries = w.entries
  /-- alerts -/
  alerts : w'.alerts = w.alerts
  /-- error logs -/
  logs : errorLogs w' = errorLogs w

theorem sameTables_of_silent {w w' : World} (h : CallEffect pid w c w') (hc : Silent c) :
    SameTables w w' := by
  cases h with
  | logFetch row =>
    refine ⟨rfl, rfl, rfl, ?_⟩
    have hrow : row.error = false := hc
    simp [errorLogs, hrow]
  | none _ => exact ⟨rfl, rfl, rfl, rfl⟩
  | begin => exact ⟨rfl, rfl, rfl, rfl⟩
  | rollback => exact ⟨rfl, rfl, rfl, rfl⟩
  | release => exact ⟨rfl, rfl, rfl, rfl⟩
  | stageEntry => exact ⟨rfl, rfl, rfl, rfl⟩
  | stageAlerts => exact ⟨rfl, rfl, rfl, rfl⟩
  | stageLog => exact ⟨rfl, rfl, rfl, rfl⟩
  | stageReport => exact ⟨rfl, rfl, rfl, rfl⟩
  | _ => exact hc.elim

end Steps

/-! ## What is tracked along an attempt -/

section Tracks

variable {rt : Runtime} {pid : Nat} {feed : FeedRow} {resp : List FetchResponse}
  {x x' : Attempt} {c : Call} {r : Except String c.Reply}

/-- The invariant of an attempt on `feed` that has received `resp`: as long as no report is
permanent, nothing has happened; and the validators have changed only where they may. -/
structure Tracks (rt : Runtime) (feed : FeedRow) (resp : List FetchResponse) (x : Attempt) :
    Prop where
  /-- the responses received -/
  responses : responses x.steps = resp
  /-- nothing has happened without a report -/
  quiet : (∀ e ∈ x.steps, ¬ e.Reports) →
    (∀ e ∈ x.steps, e.Quiet) ∧ Table.lookup FeedRow.id feed.id x.world.feeds = some feed
  /-- where the validators may change -/
  validators : ∀ e ∈ x.steps, validators feed.id e.after ≠ validators feed.id e.before →
    ∃ response, resp = [response] ∧ (response.statusCode = 304 ∨ e.Stores rt feed.id response)

/-- One more step, which receives no response. -/
theorem Tracks.append (h : Tracks rt feed resp x) {e : Event} (hs : x'.steps = x.steps ++ [e])
    (hresp : e.response? = none)
    (hquiet : ¬ e.Reports → e.Quiet ∧ Table.lookup FeedRow.id feed.id x'.world.feeds
      = Table.lookup FeedRow.id feed.id x.world.feeds)
    (hval : ProcessFeedJob.validators feed.id e.after
        ≠ ProcessFeedJob.validators feed.id e.before →
      ∃ response, resp = [response] ∧
        (response.statusCode = 304 ∨ e.Stores rt feed.id response)) :
    Tracks rt feed resp x' := by
  constructor
  · rw [hs, responses_append, hresp, h.responses]
    exact List.append_nil resp
  · intro hno
    rw [hs] at hno ⊢
    obtain ⟨hq, hrow⟩ := h.quiet fun f hf => hno f (List.mem_append_left _ hf)
    obtain ⟨hqe, hsame⟩ := hquiet (hno e (by simp))
    refine ⟨fun f hf => ?_, hsame.trans hrow⟩
    rcases List.mem_append.mp hf with hf | hf
    · exact hq f hf
    · exact List.mem_singleton.mp hf ▸ hqe
  · intro f hf
    rw [hs] at hf
    rcases List.mem_append.mp hf with hf | hf
    · exact h.validators f hf
    · exact List.mem_singleton.mp hf ▸ hval

/-- Some step of the attempt has reported. -/
def Reported (x : Attempt) : Prop := ∃ e ∈ x.steps, e.Reports

theorem Reported.mono (h : Reported x) {e : Event} (hs : x'.steps = x.steps ++ [e]) :
    Reported x' := by
  obtain ⟨f, hf, hr⟩ := h
  exact ⟨f, hs ▸ List.mem_append_left _ hf, hr⟩

theorem Observes.reported (h : Observes pid feed.id x c r x') (hr : Reported x) : Reported x' := by
  obtain ⟨w, out, -, -, hs⟩ := h
  exact hr.mono hs

/-- A step without effect, or with the effect of a silent call, changes no table. -/
theorem sameTables_of_observes {w : World} {out : Outcome} (hc : Silent c)
    (h : (out.takesEffect = false ∧ x'.world = w ∧ ∃ error, r = .error error) ∨
      (out.takesEffect = true ∧ ∃ ch a, c.serve pid w ch = some (a, x'.world) ∧
        out.choice? = some ch ∧
        ((out = .ok ch ∧ r = .ok a) ∨ (out ≠ .ok ch ∧ ∃ error, r = .error error)))) :
    SameTables w x'.world := by
  rcases h with ⟨-, hw, -⟩ | ⟨-, ch, a, hserve, -⟩
  · rw [hw]
    exact ⟨rfl, rfl, rfl, rfl⟩
  · exact sameTables_of_silent (serve_effect hserve) hc

/-- A silent call receives nothing and reports nothing. -/
theorem response?_of_silent {w w' : World} {out : Outcome} (hc : Silent c) :
    (⟨w, c, out, w'⟩ : Event).response? = none := by
  refine Event.response?_eq_none fun url etag lastModified => ?_
  rintro rfl
  exact hc

/-- **Silent calls keep track.** -/
theorem Tracks.silent (h : Tracks rt feed resp x) (hx : Observes pid feed.id x c r x')
    (hc : Silent c) : Tracks rt feed resp x' := by
  obtain ⟨w, out, hm, hs, hcases⟩ := hx.cases
  have ht := sameTables_of_observes hc hcases
  refine h.append hs (response?_of_silent hc) (fun _ => ⟨⟨ht.entries, ht.alerts, ht.logs⟩, ?_⟩) ?_
  · rw [ht.feeds]
    exact hm.row
  · intro hne
    exact absurd (by simp [ProcessFeedJob.validators, ht.feeds]) hne

/-- A silent program keeps track. -/
theorem Tracks.meets_silent {α : Type} {p : Program α} (hp : Issues Silent p)
    (h : Tracks rt feed resp x) :
    Meets (fun _ _ => True) (Observes pid feed.id) p (fun _ x' => Tracks rt feed resp x') x :=
  hp.meets (fun _ _ _ _ hc hQ hx => Tracks.silent hQ hx hc) h

/-- What the hand-over to delivery does keeps track once the report is permanent. -/
theorem Tracks.handsOver (h : Tracks rt feed resp x) (hrep : Reported x)
    (hx : Observes pid feed.id x c r x') (hc : HandsOver c) : Tracks rt feed resp x' := by
  obtain ⟨w, out, hm, hs, hcases⟩ := hx.cases
  have hfeeds : x'.world.feeds = w.feeds := by
    rcases hcases with ⟨-, hw, -⟩ | ⟨-, ch, a, hserve, -⟩
    · rw [hw]
    · have he := serve_effect hserve
      generalize x'.world = w' at he
      cases he <;> first | rfl | exact hc.elim
  have hresp : (⟨w, c, out, x'.world⟩ : Event).response? = none := by
    refine Event.response?_eq_none fun url etag lastModified => ?_
    rintro rfl
    exact hc
  obtain ⟨e, he, hrepe⟩ := hrep
  constructor
  · rw [hs, responses_append, hresp, h.responses]
    exact List.append_nil resp
  · intro hno
    exact absurd hrepe (hno e (hs ▸ List.mem_append_left _ he))
  · intro f hf
    rw [hs] at hf
    rcases List.mem_append.mp hf with hf | hf
    · exact h.validators f hf
    · obtain rfl := List.mem_singleton.mp hf
      intro hne
      exact absurd (by simp [ProcessFeedJob.validators, hfeeds]) hne

end Tracks

/-! ## The transaction -/

section Transaction

variable {rt : Runtime} {pid : Nat} {feed : FeedRow} {resp : List FetchResponse}
  {x x' : Attempt} {c : Call} {r : Except String c.Reply}

/-- The transaction is open, and each of the entries is stored or staged. -/
def Stored (pid feedId : Nat) (es : List NormalizedEntry) (w : World) : Prop :=
  ∃ t, w.txn pid = some t ∧
    ∀ e ∈ es, (w.entries ++ t.entries).any (Entries.conflicts feedId e) = true

/-- The statements between `BEGIN` and `COMMIT`. -/
def Stages : Call → Prop
  | .ingest (.insertEntry ..) => True
  | .ingest (.listActive _) => True
  | .ingest (.entriesByIds _) => True
  | .ingest (.upsertAlerts _) => True
  | .ingest (.recordFetchLog _) => True
  | .ingest (.updateAfterFetch _) => True
  | .clock => True
  | _ => False

theorem silent_of_stages (c : Call) (h : Stages c) : Silent c := by
  unfold Stages at h
  split at h <;> trivial

theorem Stored.meanwhile {feedId : Nat} {es : List NormalizedEntry} {w w' : World}
    (h : Stored pid feedId es w) (hm : Meanwhile pid feedId w w') : Stored pid feedId es w' := by
  obtain ⟨t, ht, hes⟩ := h
  refine ⟨t, hm.txn.trans ht, fun e he => ?_⟩
  obtain ⟨row, hrow, hc⟩ := List.any_eq_true.mp (hes e he)
  refine List.any_eq_true.mpr ⟨row, ?_, hc⟩
  rcases List.mem_append.mp hrow with hrow | hrow
  · have hfeed : row.feedId = feedId := by
      simp only [Entries.conflicts, Bool.and_eq_true, decide_eq_true_eq] at hc
      exact hc.1
    exact List.mem_append_left _ (hm.entries row hrow hfeed)
  · exact List.mem_append_right _ hrow

/-- A transaction that has only grown still holds what it held. -/
theorem Stored.setTxn {feedId : Nat} {es : List NormalizedEntry} {w : World} {t : Txn}
    (h : Stored pid feedId es w) (ht : w.txn pid = some t) (t' : Txn)
    (hsub : ∀ row ∈ t.entries, row ∈ t'.entries) : Stored pid feedId es (w.setTxn pid t') := by
  obtain ⟨t₀, ht₀, hes⟩ := h
  obtain rfl := Option.some.inj (ht₀.symm.trans ht)
  refine ⟨t', (txn_setTxn w pid pid t').trans (if_pos rfl), fun e he => ?_⟩
  obtain ⟨row, hrow, hc⟩ := List.any_eq_true.mp (hes e he)
  refine List.any_eq_true.mpr ⟨row, ?_, hc⟩
  rcases List.mem_append.mp hrow with hrow | hrow
  · exact List.mem_append_left _ hrow
  · exact List.mem_append_right _ (hsub row hrow)

theorem Stored.stages {feedId : Nat} {es : List NormalizedEntry} {w w' : World}
    (h : Stored pid feedId es w) (he : CallEffect pid w c w') (hc : Stages c) :
    Stored pid feedId es w' := by
  cases he with
  | none _ => exact h
  | stageEntry tenantId id e t row ht =>
    have hsub : ∀ r ∈ t.entries, r ∈ t.entries ++ [row] := fun r hr => List.mem_append_left _ hr
    exact h.setTxn ht { t with entries := t.entries ++ [row] } hsub
  | stageAlerts rows t ht =>
    exact h.setTxn ht { t with
      alerts := (upsertAll w.now w.alerts rows w.nextAlertId t.alerts).2.2 } fun _ hr => hr
  | stageLog row t ht =>
    exact h.setTxn ht { t with fetchLogs := t.fetchLogs ++ [row] } fun _ hr => hr
  | stageReport u t ht =>
    exact h.setTxn ht { t with feedUpdates := t.feedUpdates ++ [u] } fun _ hr => hr
  | _ => exact hc.elim

/-- A staging step keeps track, and what is stored. -/
theorem Observes.stages {es : List NormalizedEntry} (hx : Observes pid feed.id x c r x')
    (hc : Stages c) (h : Tracks rt feed resp x ∧ Stored pid feed.id es x.world) :
    Tracks rt feed resp x' ∧ Stored pid feed.id es x'.world := by
  refine ⟨h.1.silent hx (silent_of_stages c hc), ?_⟩
  obtain ⟨w, out, hm, -, ⟨-, hw, -⟩ | ⟨-, ch, a, hserve, -⟩⟩ := hx.cases
  · exact hw ▸ h.2.meanwhile hm
  · exact (h.2.meanwhile hm).stages (serve_effect hserve) hc

theorem meets_stages {α : Type} {p : Program α} {es : List NormalizedEntry}
    (hp : Issues Stages p) (h : Tracks rt feed resp x ∧ Stored pid feed.id es x.world) :
    Meets (fun _ _ => True) (Observes pid feed.id) p
      (fun _ x' => Tracks rt feed resp x' ∧ Stored pid feed.id es x'.world) x :=
  hp.meets (fun _ _ _ _ hc hQ hx => Observes.stages hx hc hQ) h

/-- An insert that takes effect leaves its entry stored or staged. -/
theorem stored_insertEntry {tenantId : String} {feedId : Nat} {e : NormalizedEntry}
    {es : List NormalizedEntry} {w w' : World} {a : Option EntryRow}
    (hw : w.insertEntry pid tenantId feedId e = some (a, w')) (h : Stored pid feedId es w) :
    Stored pid feedId (es ++ [e]) w' := by
  obtain ⟨t, ht, hes⟩ := h
  unfold World.insertEntry at hw
  rw [ht] at hw
  obtain ⟨-, hw⟩ := Option.ite_none_left_eq_some.mp hw
  split at hw
  · rename_i hany
    obtain ⟨-, rfl⟩ := Prod.mk.inj (Option.some.inj hw)
    refine ⟨t, ht, fun n hn => ?_⟩
    rcases List.mem_append.mp hn with hn | hn
    · exact hes n hn
    · exact List.mem_singleton.mp hn ▸ hany
  · obtain ⟨-, rfl⟩ := Prod.mk.inj (Option.some.inj hw)
    refine ⟨{ t with entries := t.entries ++ [_] }, (txn_setTxn w pid pid _).trans (if_pos rfl),
      fun n hn => ?_⟩
    change (w.entries ++ (t.entries ++ [_])).any (Entries.conflicts feedId n) = true
    rw [← List.append_assoc, List.any_append, Bool.or_eq_true]
    rcases List.mem_append.mp hn with hn | hn
    · exact .inl (hes n hn)
    · obtain rfl := List.mem_singleton.mp hn
      right
      simp [Entries.conflicts]

/-- After all inserts of a batch, each of its entries is stored or staged. -/
theorem insertMany_meets {tenantId : String} {done es : List NormalizedEntry}
    (h : Tracks rt feed resp x ∧ Stored pid feed.id done x.world) :
    Meets (fun _ _ => True) (Observes pid feed.id) (insertMany tenantId feed.id es)
      (fun r x' => Tracks rt feed resp x' ∧
        ((∃ rows, r = .ok rows) → Stored pid feed.id (done ++ es) x'.world)) x := by
  induction es generalizing done x with
  | nil => exact ⟨h.1, fun _ => by simpa using h.2⟩
  | cons e es ih =>
    refine meets_bind.mpr (meets_invoke.mpr ⟨trivial, fun r x' hx => ?_⟩)
    have hstep := hx.stages trivial h
    cases r with
    | error err => exact ⟨hstep.1, by rintro ⟨rows, hr⟩; cases hr⟩
    | ok row =>
      have hnext : Stored pid feed.id (done ++ [e]) x'.world := by
        obtain ⟨w, out, hm, -, ⟨-, -, error, herr⟩ | ⟨-, ch, a, hserve, -⟩⟩ := hx.cases
        · cases herr
        · exact stored_insertEntry hserve (h.2.meanwhile hm)
      refine meets_bind.mpr ((ih ⟨hstep.1, hnext⟩).mono fun r x'' hr => ?_)
      cases r with
      | error err => exact ⟨hr.1, by rintro ⟨rows, hr'⟩; cases hr'⟩
      | ok rows =>
        refine ⟨hr.1, fun _ => ?_⟩
        have := hr.2 ⟨rows, rfl⟩
        rwa [List.append_assoc] at this

end Transaction

/-! ## The attempt -/

section Attempt

variable {rt : Runtime} {canonicalizeArticleLink : Option String → Option String} {pid : Nat}
  {feed : FeedRow} {response : FetchResponse} {resp : List FetchResponse} {x x' : Attempt}

theorem createForEntryWithRules_stages (matchesByEntry : MatchesByEntry) :
    Issues Stages
      (AlertsRepository.createForEntryWithRules canonicalizeArticleLink matchesByEntry) := by
  refine Issues.ite (fun _ => issues_pure _) fun _ => ?_
  refine Issues.bind (issues_invoke trivial) fun rows => ?_
  refine Issues.ite (fun _ => issues_pure _) fun _ => ?_
  exact Issues.bind (issues_invoke trivial) fun _ => issues_pure _

/-- A `BEGIN` that is answered opens the transaction. -/
theorem stored_begin {u : Unit}
    (hx : Observes pid feed.id x (.ingest .begin) (.ok u) x') : Stored pid feed.id [] x'.world := by
  obtain ⟨w, out, -, -, ⟨-, -, error, herr⟩ | ⟨-, ch, a, hserve, -⟩⟩ := hx.cases
  · cases herr
  · obtain ⟨-, hw⟩ := Prod.mk.inj (Option.some.inj hserve)
    exact ⟨Txn.empty, hw ▸ (txn_setTxn w pid pid _).trans (if_pos rfl), fun _ h => by cases h⟩

/-- **The `COMMIT` stores the entries of the response** and reports, or does nothing. -/
theorem commit_observes {items : List FeedItem} {r : Except String Unit}
    (hitems : rt.parseFeed response.body = .ok items)
    (h : Tracks rt feed [response] x ∧
      Stored pid feed.id (items.map (Entries.normalizeItem rt)) x.world)
    (hx : Observes pid feed.id x (.ingest .commit) r x') :
    Tracks rt feed [response] x' ∧ ((∃ v, r = .ok v) → Reported x') := by
  obtain ⟨w, out, hm, hs, ⟨hout, hw, error, rfl⟩ | ⟨hout, ch, a, hserve, -⟩⟩ := hx.cases
  · -- refused
    refine ⟨h.1.append hs rfl (fun _ => ⟨?_, ?_⟩) ?_, by rintro ⟨v, hv⟩; cases hv⟩
    · rw [hw]
      exact ⟨rfl, rfl, rfl⟩
    · rw [hw]
      exact hm.row
    · intro hne
      exact absurd (by rw [hw]) hne
  · -- in effect
    have hrep : (⟨w, .ingest .commit, out, x'.world⟩ : Event).Reports := ⟨hout, trivial⟩
    refine ⟨h.1.append hs rfl (fun hno => absurd hrep hno) fun _ => ?_,
      fun _ => ⟨_, hs ▸ List.mem_append_right _ (List.mem_singleton_self _), hrep⟩⟩
    refine ⟨response, rfl, .inr ⟨⟨rfl, hout⟩, items, hitems, fun item hitem => ?_⟩⟩
    obtain ⟨t, ht, hes⟩ := h.2.meanwhile hm
    obtain ⟨-, hw⟩ := Prod.mk.inj (Option.some.inj hserve)
    have hentries : x'.world.entries = w.entries ++ t.entries := by
      rw [← hw]
      unfold World.commitTxn
      rw [ht]
    change x'.world.entries.any _ = true
    rw [hentries]
    exact hes _ (List.mem_map_of_mem hitem)

/-- An ended part of the attempt keeps track, and has reported if it returned. -/
def Reports {α : Type} (rt : Runtime) (feed : FeedRow) (resp : List FetchResponse)
    (r : Except String α) (x : Attempt) : Prop :=
  Tracks rt feed resp x ∧ ((∃ a, r = .ok a) → Reported x)

theorem reports_error {α : Type} {e : String} (h : Tracks rt feed resp x) :
    Reports (α := α) rt feed resp (.error e) x :=
  ⟨h, by rintro ⟨a, ha⟩; cases ha⟩

/-- A staging part before the rest of the transaction. -/
theorem bind_meets_stages {α β : Type} {p : Program α} {f : α → Program β}
    {es : List NormalizedEntry} (hp : Issues Stages p)
    (h : Tracks rt feed resp x ∧ Stored pid feed.id es x.world)
    (hf : ∀ a x', Tracks rt feed resp x' ∧ Stored pid feed.id es x'.world →
      Meets (fun _ _ => True) (Observes pid feed.id) (f a) (Reports rt feed resp) x') :
    Meets (fun _ _ => True) (Observes pid feed.id) (p >>= f) (Reports rt feed resp) x := by
  refine meets_bind.mpr ((meets_stages hp h).mono fun r x' h' => ?_)
  cases r with
  | ok a => exact hf a x' h'
  | error e => exact reports_error h'.1

/-- From `BEGIN` to `COMMIT`. -/
theorem transaction_meets {items : List FeedItem}
    (hitems : rt.parseFeed response.body = .ok items) (h : Tracks rt feed [response] x) :
    Meets (fun _ _ => True) (Observes pid feed.id)
      (transaction rt canonicalizeArticleLink feed response
        (items.map (Entries.normalizeItem rt)))
      (Reports rt feed [response]) x := by
  refine meets_bind.mpr (meets_invoke.mpr ⟨trivial, fun r x₁ hx => ?_⟩)
  have h₁ : Tracks rt feed [response] x₁ := h.silent hx trivial
  cases r with
  | error e => exact reports_error h₁
  | ok u =>
    refine meets_bind.mpr ((insertMany_meets ⟨h₁, stored_begin hx⟩).mono fun r x₂ h₂ => ?_)
    cases r with
    | error e => exact reports_error h₂.1
    | ok inserted =>
      -- rules, alerts, log and report are staged one after the other
      refine bind_meets_stages ?_ ⟨h₂.1, h₂.2 ⟨inserted, rfl⟩⟩ fun rules x₃ h₃ => ?_
      · exact issues_invoke trivial
      refine bind_meets_stages (createForEntryWithRules_stages _) h₃ fun outcome x₄ h₄ => ?_
      refine bind_meets_stages ?_ h₄ fun _ x₅ h₅ => ?_
      · exact issues_invoke trivial
      refine bind_meets_stages ?_ h₅ fun now x₆ h₆ => ?_
      · exact issues_invoke trivial
      refine bind_meets_stages ?_ h₆ fun _ x₇ h₇ => ?_
      · exact issues_invoke trivial
      refine meets_bind.mpr (meets_invoke.mpr ⟨trivial, fun r x₈ hx₈ => ?_⟩)
      have h₈ := commit_observes hitems h₇ hx₈
      cases r with
      | error e => exact reports_error h₈.1
      | ok _ => exact ⟨h₈.1, fun _ => h₈.2 ⟨_, rfl⟩⟩

theorem deliverAlerts_handsOver (alertIds : List Nat) :
    Issues HandsOver (deliverAlerts alertIds) := by
  induction alertIds with
  | nil => exact issues_pure _
  | cons alertId alertIds ih =>
    refine Issues.bind (Issues.tryCatch ?_ fun _ => issues_pure _) fun _ => ih
    exact Issues.bind (executeIngestion_issues (fun _ h => h) _) fun _ => issues_pure _

/-- The transaction, the hand-over after it, and the roll-back if something failed. -/
theorem store_meets {items : List FeedItem} (hitems : rt.parseFeed response.body = .ok items)
    (h : Tracks rt feed [response] x) :
    Meets (fun _ _ => True) (Observes pid feed.id)
      (store rt canonicalizeArticleLink feed response (items.map (Entries.normalizeItem rt)))
      (Reports rt feed [response]) x := by
  refine meets_bind.mpr (meets_invoke.mpr ⟨trivial, fun r x₁ hx => ?_⟩)
  have h₁ : Tracks rt feed [response] x₁ := h.silent hx trivial
  cases r with
  | error e => exact reports_error h₁
  | ok _ =>
    refine meets_bind.mpr (meets_attempt.mpr (meets_tryCatch.mpr ?_))
    refine meets_bind.mpr ((transaction_meets hitems h₁).mono fun r x₂ h₂ => ?_)
    -- whatever the outcome, the connection is returned and the outcome kept
    have hfinal : ∀ (outcome : Except String FeedJobResult) (x₃ : Attempt),
        Reports rt feed [response] outcome x₃ →
        Meets (fun _ _ => True) (Observes pid feed.id)
          (do
            IngestClient.release
            match outcome with
            | .ok a => pure a
            | .error e => MonadExcept.throw e)
          (Reports rt feed [response]) x₃ := by
      intro outcome x₃ h₃
      refine meets_bind.mpr (meets_invoke.mpr ⟨trivial, fun r x₄ hx₄ => ?_⟩)
      have h₄ : Tracks rt feed [response] x₄ := h₃.1.silent hx₄ trivial
      cases r with
      | error e => exact reports_error h₄
      | ok _ =>
        cases outcome with
        | ok a => exact ⟨h₄, fun _ => hx₄.reported (h₃.2 ⟨a, rfl⟩)⟩
        | error e => exact reports_error h₄
    cases r with
    | error e =>
      refine meets_bind.mpr (meets_invoke.mpr ⟨trivial, fun r x₃ hx₃ => ?_⟩)
      have h₃ : Tracks rt feed [response] x₃ := h₂.1.silent hx₃ trivial
      cases r with
      | error e' => exact hfinal (.error e') x₃ (reports_error h₃)
      | ok _ => exact hfinal (.error e) x₃ (reports_error h₃)
    | ok v =>
      obtain ⟨inserted, created⟩ := v
      have hrep : Tracks rt feed [response] x₂ ∧ Reported x₂ := ⟨h₂.1, h₂.2 ⟨_, rfl⟩⟩
      have hdeliver : Meets (fun _ _ => True) (Observes pid feed.id)
          (deliverAlerts (created.map UpsertedAlert.id))
          (fun _ x' => Tracks rt feed [response] x' ∧ Reported x') x₂ :=
        (deliverAlerts_handsOver _).meets (fun _ _ _ _ hc hQ hx =>
          ⟨hQ.1.handsOver hQ.2 hx hc, hx.reported hQ.2⟩) hrep
      refine meets_bind.mpr (hdeliver.mono fun r x₃ h₃ => ?_)
      cases r with
      | ok _ => exact hfinal (.ok _) x₃ ⟨h₃.1, fun _ => h₃.2⟩
      | error e =>
        refine meets_bind.mpr (meets_invoke.mpr ⟨trivial, fun r x₄ hx₄ => ?_⟩)
        have h₄ : Tracks rt feed [response] x₄ := h₃.1.silent hx₄ trivial
        cases r with
        | error e' => exact hfinal (.error e') x₄ (reports_error h₄)
        | ok _ => exact hfinal (.error e) x₄ (reports_error h₄)

/-- The lone report after a `304`. -/
theorem report_observes {now : Nat} {r : Except String Unit} (h304 : response.statusCode = 304)
    (h : Tracks rt feed [response] x)
    (hx : Observes pid feed.id x (.feed (.updateAfterFetch (successReport feed response now)))
      r x') :
    Reports rt feed [response] r x' := by
  obtain ⟨w, out, hm, hs, ⟨hout, hw, error, rfl⟩ | ⟨hout, ch, a, hserve, -⟩⟩ := hx.cases
  · refine reports_error (h.append hs rfl (fun _ => ⟨?_, ?_⟩) ?_)
    · rw [hw]
      exact ⟨rfl, rfl, rfl⟩
    · rw [hw]
      exact hm.row
    · intro hne
      exact absurd (by rw [hw]) hne
  · have hrep : (⟨w, .feed (.updateAfterFetch (successReport feed response now)), out,
        x'.world⟩ : Event).Reports := ⟨hout, rfl⟩
    exact ⟨h.append hs rfl (fun hno => absurd hrep hno) fun _ => ⟨response, rfl, .inl h304⟩,
      fun _ => ⟨_, hs ▸ List.mem_append_right _ (List.mem_singleton_self _), hrep⟩⟩

theorem notModified_meets (h304 : response.statusCode = 304)
    (h : Tracks rt feed [response] x) :
    Meets (fun _ _ => True) (Observes pid feed.id) (notModified feed response)
      (Reports rt feed [response]) x := by
  refine meets_bind.mpr (meets_invoke.mpr ⟨trivial, fun r x₁ hx₁ => ?_⟩)
  have h₁ : Tracks rt feed [response] x₁ := h.silent hx₁ rfl
  cases r with
  | error e => exact reports_error h₁
  | ok _ =>
    refine meets_bind.mpr (meets_invoke.mpr ⟨trivial, fun r x₂ hx₂ => ?_⟩)
    have h₂ : Tracks rt feed [response] x₂ := h₁.silent hx₂ trivial
    cases r with
    | error e => exact reports_error h₂
    | ok now =>
      refine meets_bind.mpr (meets_invoke.mpr ⟨trivial, fun r x₃ hx₃ => ?_⟩)
      have h₃ := report_observes h304 h₂ hx₃
      cases r with
      | error e => exact reports_error h₃.1
      | ok _ => exact ⟨h₃.1, fun _ => h₃.2 ⟨_, rfl⟩⟩

/-- The fetch receives a response, or fails. -/
theorem fetch_observes {url : String} {etag lastModified : Option String}
    {r : Except String FetchResponse} (h : Tracks rt feed [] x)
    (hx : Observes pid feed.id x (.net (.fetchFeed url etag lastModified)) r x') :
    match r with
    | .ok response => Tracks rt feed [response] x'
    | .error _ => Tracks rt feed [] x' := by
  obtain ⟨w, out, hm, hs, hcases⟩ := hx.cases
  have hw : x'.world = w := by
    rcases hcases with ⟨-, hw, -⟩ | ⟨-, ch, a, hserve, -⟩
    · exact hw
    · obtain ⟨b, -, hb⟩ := Option.map_eq_some_iff.mp hserve
      exact (Prod.mk.inj hb).2.symm
  -- the step changes nothing, and there was no response before it
  have hlast : ∀ resp, responses x'.steps = resp → Tracks rt feed resp x' := by
    intro resp hresp
    refine ⟨hresp, fun hno => ?_, fun f hf hne => ?_⟩
    · rw [hs] at hno ⊢
      obtain ⟨hq, hrow⟩ := h.quiet fun f hf => hno f (List.mem_append_left _ hf)
      refine ⟨fun f hf => ?_, by rw [hw]; exact hm.row.trans hrow⟩
      rcases List.mem_append.mp hf with hf | hf
      · exact hq f hf
      · obtain rfl := List.mem_singleton.mp hf
        rw [hw]
        exact ⟨rfl, rfl, rfl⟩
    · rw [hs] at hf
      rcases List.mem_append.mp hf with hf | hf
      · obtain ⟨response, hnil, -⟩ := h.validators f hf hne
        cases hnil
      · obtain rfl := List.mem_singleton.mp hf
        exact absurd (by rw [hw]) hne
  have hresp := responses_append x.steps
    ⟨w, .net (.fetchFeed url etag lastModified), out, x'.world⟩
  rw [← hs, h.responses] at hresp
  rcases hcases with ⟨hout, -, error, rfl⟩ |
    ⟨-, ch, a, hserve, hch, ⟨rfl, rfl⟩ | ⟨hout, error, rfl⟩⟩
  · refine hlast [] (hresp.trans ?_)
    cases out with
    | ok ch => cases hout
    | refused e => rfl
    | lost ch e => rfl
  · refine hlast [a] (hresp.trans ?_)
    obtain ⟨b, hb, he⟩ := Option.map_eq_some_iff.mp hserve
    cases ch with
    | response b' =>
      obtain rfl := Option.some.inj hb
      obtain ⟨rfl, -⟩ := Prod.mk.inj he
      rfl
    | _ => cases hb
  · refine hlast [] (hresp.trans ?_)
    cases out with
    | ok ch' => exact absurd (congrArg Outcome.ok (Option.some.inj hch)) hout
    | refused e => rfl
    | lost ch e => rfl

/-- The body of the outer `try`. -/
theorem fetchAndStore_meets (h : Tracks rt feed [] x) :
    Meets (fun _ _ => True) (Observes pid feed.id)
      (fetchAndStore rt canonicalizeArticleLink feed)
      (fun r x' => ∃ resp, Reports rt feed resp r x') x := by
  refine meets_bind.mpr (meets_invoke.mpr ⟨trivial, fun r x₁ hx₁ => ?_⟩)
  have h₁ := fetch_observes h hx₁
  cases r with
  | error e => exact ⟨[], reports_error h₁⟩
  | ok response =>
    have hlift : ∀ p : Program FeedJobResult,
        Meets (fun _ _ => True) (Observes pid feed.id) p (Reports rt feed [response]) x₁ →
        Meets (fun _ _ => True) (Observes pid feed.id) p
          (fun r x' => ∃ resp, Reports rt feed resp r x') x₁ :=
      fun p hp => hp.mono fun _ _ hr => ⟨[response], hr⟩
    refine hlift _ ?_
    by_cases h304 : response.statusCode = 304
    · simp only [if_pos h304]
      exact notModified_meets h304 h₁
    · simp only [if_neg h304]
      by_cases h400 : 400 ≤ response.statusCode
      · simp only [if_pos h400]
        exact reports_error h₁
      · simp only [if_neg h400]
        rcases hitems : rt.parseFeed response.body with message | items
        · exact reports_error h₁
        · exact store_meets hitems h₁

end Attempt

/-! ## The failure handler -/

section Failure

variable {rt : Runtime} {canonicalizeArticleLink : Option String → Option String} {pid : Nat}
  {feed : FeedRow} {resp : List FetchResponse} {w : World} {x x' : Attempt}

theorem undisturbed_append {w w' : World} {es es' : List Event} :
    Undisturbed w (es ++ es') w' ↔ ∃ w₁, Undisturbed w es w₁ ∧ Undisturbed w₁ es' w' := by
  induction es generalizing w with
  | nil => simp [Undisturbed]
  | cons e es ih => simp [Undisturbed, ih, and_assoc]

/-- What no step changes is as before, if no other process has done anything. -/
theorem Undisturbed.eq {α : Type} {f : World → α} {w w' : World} {es : List Event}
    (h : Undisturbed w es w') (hf : ∀ e ∈ es, f e.after = f e.before) : f w' = f w := by
  induction es generalizing w with
  | nil =>
    obtain rfl := h
    rfl
  | cons e es ih =>
    obtain ⟨rfl, h⟩ := h
    exact (ih h fun e' he' => hf e' (List.mem_cons_of_mem e he')).trans (hf e List.mem_cons_self)

theorem Tracks.validatorsAtomic (h : Tracks rt feed resp x) :
    ValidatorsAtomic rt feed.id x.steps := by
  intro e he hne
  rw [h.responses]
  exact h.validators e he hne

/-- A step that leaves the validators alone and receives no response. -/
theorem ValidatorsAtomic.append {steps : List Event} {e : Event}
    (h : ValidatorsAtomic rt feed.id steps) (hresp : e.response? = none)
    (hsame : validators feed.id e.after = validators feed.id e.before) :
    ValidatorsAtomic rt feed.id (steps ++ [e]) := by
  intro f hf hne
  rw [responses_append, hresp, Option.toList_none, List.append_nil]
  rcases List.mem_append.mp hf with hf | hf
  · exact h f hf hne
  · obtain rfl := List.mem_singleton.mp hf
    exact absurd hsame hne

/-- The call cannot fail, and changes no table. -/
theorem Observes.infallible {c : Call} {r : Except String c.Reply}
    (hx : Observes pid feed.id x c r x') (hc : c.infallible = true) : ∃ a, r = .ok a := by
  obtain ⟨w, out, -, ha, -⟩ := hx
  rcases Call.answer_eq_some ha with ⟨-, -, -, hno⟩ | ⟨ch, a, -, hr | ⟨-, -, hno⟩⟩
  · rw [hc] at hno
    cases hno
  · exact ⟨a, hr⟩
  · rw [hc] at hno
    cases hno

/-- The report of a failure keeps the validators. -/
theorem validators_failureReport {c : FeedFailureClassification} {now feedId : Nat}
    {w w' : World}
    (hw : w'.feeds = Feeds.updateAfterFetch w.now (failureReport feed c now) w.feeds) :
    validators feedId w' = validators feedId w := by
  have hkey : ∀ f, ((failureReport feed c now).apply w.now f).id = f.id := fun _ => rfl
  rw [validators, hw, Feeds.updateAfterFetch, Table.lookup_updateWhere hkey, Option.map_map,
    validators]
  congr 1
  funext f
  by_cases hid : f.id = (failureReport feed c now).feedId
  · simp [hid, Feeds.AfterFetch.apply, failureReport]
  · simp [hid]

/-- The row after the report of a failure. -/
theorem lookup_failureReport {c : FeedFailureClassification} {now now' : Nat}
    {feeds : List FeedRow} (h : Table.lookup FeedRow.id feed.id feeds = some feed) :
    Table.lookup FeedRow.id feed.id (Feeds.updateAfterFetch now' (failureReport feed c now) feeds)
      = some ((failureReport feed c now).apply now' feed) := by
  have hkey : ∀ f, ((failureReport feed c now).apply now' f).id = f.id := fun _ => rfl
  rw [Feeds.updateAfterFetch, Table.lookup_updateWhere hkey, h]
  simp [failureReport]

/-- After quiet steps, one that logs the error. -/
theorem logsOnce_of_quiet {steps : List Event} {e : Event} {message : String}
    (hq : ∀ e ∈ steps, e.Quiet) (he : e.after.entries = e.before.entries)
    (ha : e.after.alerts = e.before.alerts)
    (hlog : errorLogs e.after = errorLogs e.before ++ [failureLog feed message]) :
    LogsOnce feed (steps ++ [e]) := by
  refine ⟨fun f hf => ?_, steps, e, [], message, rfl, hlog, fun f hf => ?_⟩
  · rcases List.mem_append.mp hf with hf | hf
    · exact ⟨(hq f hf).entries, (hq f hf).alerts⟩
    · exact List.mem_singleton.mp hf ▸ ⟨he, ha⟩
  · rw [List.append_nil] at hf
    exact (hq f hf).logs

/-- One more quiet step. -/
theorem LogsOnce.append {steps : List Event} {e : Event} (h : LogsOnce feed steps)
    (he : e.Quiet) : LogsOnce feed (steps ++ [e]) := by
  obtain ⟨htables, pre, f, post, message, rfl, hlog, hrest⟩ := h
  refine ⟨fun g hg => ?_, pre, f, post ++ [e], message, by simp, hlog, fun g hg => ?_⟩
  · rcases List.mem_append.mp hg with hg | hg
    · exact htables g hg
    · exact List.mem_singleton.mp hg ▸ ⟨he.entries, he.alerts⟩
  · rw [← List.append_assoc] at hg
    rcases List.mem_append.mp hg with hg | hg
    · exact hrest g hg
    · exact List.mem_singleton.mp hg ▸ he.logs

/-- Without other processes, the steps add up. -/
theorem LogsOnce.undisturbed (h : LogsOnce feed x.steps) (hu : Undisturbed w x.steps x.world) :
    x.world.entries = w.entries ∧ x.world.alerts = w.alerts ∧
      ∃ message, errorLogs x.world = errorLogs w ++ [failureLog feed message] := by
  refine ⟨hu.eq fun e he => (h.tables e he).1, hu.eq fun e he => (h.tables e he).2, ?_⟩
  obtain ⟨pre, e, post, message, hsteps, hlog, hrest⟩ := h.errorLog
  rw [hsteps] at hu
  obtain ⟨w₁, hpre, rfl, hpost⟩ := undisturbed_append.mp hu
  refine ⟨message, ?_⟩
  rw [hpost.eq fun f hf => hrest f (List.mem_append_right pre hf), hlog,
    hpre.eq fun f hf => hrest f (List.mem_append_left post hf)]

/-- The end of an attempt: what it leaves behind if it read the feed, its report never
became permanent and the writes of its failure handler succeeded. -/
def Ends (rt : Runtime) (feed : FeedRow) (w : World) (x : Attempt) : Prop :=
  ((∃ e ∈ x.steps, e.Reads feed.id) → (∀ e ∈ x.steps, ¬ e.Reports) →
      (∀ e ∈ x.steps, ¬ e.FailsHandler) → Restored feed w x) ∧
    ValidatorsAtomic rt feed.id x.steps

/-- Past the point where the handler has logged the error. -/
structure Logged (rt : Runtime) (feed : FeedRow) (x : Attempt) : Prop where
  /-- where the validators have changed -/
  validators : ValidatorsAtomic rt feed.id x.steps
  /-- what has happened, if there was no report -/
  logsOnce : (∀ e ∈ x.steps, ¬ e.Reports) →
    LogsOnce feed x.steps ∧ Table.lookup FeedRow.id feed.id x.world.feeds = some feed

/-- A call that is answered with an error was not answered with success. -/
theorem Observes.out_ne_ok {c : Call} {error : String}
    (hx : Observes pid feed.id x c (.error error) x') :
    ∃ e, x'.steps = x.steps ++ [e] ∧ e.call = c ∧ ∀ ch, e.out ≠ .ok ch := by
  obtain ⟨v, out, hm, hs, hcases⟩ := hx.cases
  refine ⟨_, hs, rfl, ?_⟩
  rintro ch rfl
  rcases hcases with ⟨hout, -⟩ | ⟨-, ch', a, -, hch, ⟨-, hr⟩ | ⟨hout, -⟩⟩
  · cases hout
  · cases hr
  · exact hout (congrArg Outcome.ok (Option.some.inj hch))

/-- The handler logs the error. -/
theorem log_observes {message : String} {r : Except String Unit} (h : Tracks rt feed resp x)
    (hx : Observes pid feed.id x (.feed (.recordFetchLog (failureLog feed message))) r x') :
    match r with
    | .ok _ => Logged rt feed x'
    | .error _ => Ends rt feed w x' := by
  obtain ⟨v, out, hm, hs, hcases⟩ := hx.cases
  have hv : x'.world.feeds = v.feeds := by
    rcases hcases with ⟨-, hw, -⟩ | ⟨-, ch, a, hserve, -⟩
    · rw [hw]
    · rw [← (Prod.mk.inj (Option.some.inj hserve)).2]
  have hval : ValidatorsAtomic rt feed.id x'.steps := by
    rw [hs]
    refine h.validatorsAtomic.append rfl ?_
    unfold validators
    rw [hv]
  rcases hcases with ⟨hout, -, error, rfl⟩ |
    ⟨-, ch, a, hserve, hch, ⟨rfl, rfl⟩ | ⟨hout, error, rfl⟩⟩
  · refine ⟨fun _ _ hok => absurd ?_ (hok _ (hs ▸ List.mem_append_right _
      (List.mem_singleton_self _))), hval⟩
    refine ⟨?_, rfl⟩
    rintro ch rfl
    cases hout
  · refine ⟨hval, fun hno => ?_⟩
    rw [hs] at hno ⊢
    obtain ⟨hq, hrow⟩ := h.quiet fun e he => hno e (List.mem_append_left _ he)
    have hw := (Prod.mk.inj (Option.some.inj hserve)).2
    have hlog : errorLogs x'.world = errorLogs v ++ [failureLog feed message] := by
      rw [← hw]
      simp [errorLogs, failureLog]
    refine ⟨logsOnce_of_quiet hq ?_ ?_ hlog, ?_⟩
    · rw [← hw]
    · rw [← hw]
    · rw [hv]
      exact hm.row.trans hrow
  · refine ⟨fun _ _ hok => absurd ?_ (hok _ (hs ▸ List.mem_append_right _
      (List.mem_singleton_self _))), hval⟩
    refine ⟨?_, rfl⟩
    rintro ch' rfl
    exact hout (congrArg Outcome.ok (Option.some.inj hch))

/-- The handler reads the clock. -/
theorem Logged.clock {r : Except String Nat} (h : Logged rt feed x)
    (hx : Observes pid feed.id x .clock r x') : Logged rt feed x' := by
  obtain ⟨v, out, hm, hs, hcases⟩ := hx.cases
  have hc : Silent .clock := trivial
  have ht : SameTables v x'.world := sameTables_of_observes hc hcases
  constructor
  · rw [hs]
    refine h.validators.append rfl ?_
    unfold ProcessFeedJob.validators
    rw [ht.feeds]
  · intro hno
    rw [hs] at hno ⊢
    obtain ⟨hlogs, hrow⟩ := h.logsOnce fun e he => hno e (List.mem_append_left _ he)
    refine ⟨hlogs.append ⟨ht.entries, ht.alerts, ht.logs⟩, ?_⟩
    rw [ht.feeds]
    exact hm.row.trans hrow

/-- The handler reports the failure. -/
theorem failureReport_observes {c : FeedFailureClassification} {now : Nat}
    {r : Except String Unit} (h : Logged rt feed x)
    (hx : Observes pid feed.id x (.feed (.updateAfterFetch (failureReport feed c now))) r x') :
    Ends rt feed w x' := by
  obtain ⟨v, out, hm, hs, hcases⟩ := hx.cases
  have hlast : ∀ e ∈ [(⟨v, .feed (.updateAfterFetch (failureReport feed c now)), out,
      x'.world⟩ : Event)], e ∈ x'.steps := fun e he => hs ▸ List.mem_append_right _ he
  rcases hcases with ⟨hout, hw, error, rfl⟩ | ⟨-, ch, a, hserve, hch, hr⟩
  · refine ⟨fun _ _ hok => absurd ?_ (hok _ (hlast _ (List.mem_singleton_self _))), ?_⟩
    · refine ⟨?_, by simp [failureReport]⟩
      rintro ch rfl
      cases hout
    · rw [hs]
      exact h.validators.append rfl (by rw [hw])
  · obtain ⟨-, hserve⟩ := Option.ite_none_right_eq_some.mp hserve
    have hw := (Prod.mk.inj (Option.some.inj hserve)).2
    have hfeeds : x'.world.feeds
        = Feeds.updateAfterFetch v.now (failureReport feed c now) v.feeds := by rw [← hw]
    refine ⟨fun _ hno _ => ?_, ?_⟩
    · rw [hs] at hno
      obtain ⟨hlogs, hrow⟩ := h.logsOnce fun e he => hno e (List.mem_append_left _ he)
      have hq : (⟨v, .feed (.updateAfterFetch (failureReport feed c now)), out,
          x'.world⟩ : Event).Quiet := by
        rw [← hw]
        exact ⟨rfl, rfl, rfl⟩
      have hlogs' : LogsOnce feed x'.steps := hs ▸ hlogs.append hq
      refine ⟨hlogs', ?_, hlogs'.undisturbed⟩
      refine ⟨(failureReport feed c now).apply v.now feed, ?_, rfl, rfl, rfl, rfl⟩
      rw [hfeeds]
      exact lookup_failureReport (hm.row.trans hrow)
    · rw [hs]
      exact h.validators.append rfl (validators_failureReport hfeeds)

/-- **The handler restores the feed.** -/
theorem handleFailure_meets {message : String} (h : Tracks rt feed resp x) :
    Meets (fun _ _ => True) (Observes pid feed.id) (handleFailure rt feed message)
      (fun _ x' => Ends rt feed w x') x := by
  refine meets_bind.mpr (meets_invoke.mpr ⟨trivial, fun r x₁ hx₁ => ?_⟩)
  obtain ⟨jitter, rfl⟩ := hx₁.infallible rfl
  have h₁ : Tracks rt feed resp x₁ := h.silent hx₁ trivial
  refine meets_bind.mpr (meets_invoke.mpr ⟨trivial, fun r x₂ hx₂ => ?_⟩)
  have h₂ := log_observes (w := w) h₁ hx₂
  cases r with
  | error e => exact h₂
  | ok _ =>
    refine meets_bind.mpr (meets_invoke.mpr ⟨trivial, fun r x₃ hx₃ => ?_⟩)
    obtain ⟨now, rfl⟩ := hx₃.infallible rfl
    refine meets_bind.mpr (meets_invoke.mpr ⟨trivial, fun r x₄ hx₄ => ?_⟩)
    have h₄ := failureReport_observes (w := w) (Logged.clock h₂ hx₃) hx₄
    cases r with
    | error e => exact h₄
    | ok _ =>
      dsimp only
      split
      · exact h₄
      · exact h₄

/-! ## All attempts -/

/-- The feed that is read is the one that is there. -/
theorem find_observes {found : Option FeedRow}
    (hrow : Table.lookup FeedRow.id feed.id x.world.feeds = some feed)
    (hx : Observes pid feed.id x (.feed (.findByIdForWorker feed.id)) (.ok found) x') :
    found = some feed := by
  obtain ⟨v, out, hm, -, hcases⟩ := hx.cases
  rcases hcases with ⟨-, -, error, herr⟩ | ⟨-, ch, a, hserve, -, ⟨-, hr⟩ | ⟨-, error, herr⟩⟩
  · cases herr
  · obtain rfl := Except.ok.inj hr
    have hfound := (Prod.mk.inj (Option.some.inj hserve)).1
    exact hfound.symm.trans (hm.row.trans hrow)
  · cases herr

/-- An attempt that has not read the feed ends well. -/
theorem ends_of_tracks (h : Tracks rt feed resp x) (hno : ∀ e ∈ x.steps, ¬ e.Reads feed.id) :
    Ends rt feed w x :=
  ⟨fun ⟨e, he, hr⟩ => absurd hr (hno e he), h.validatorsAtomic⟩

/-- An attempt that has reported ends well. -/
theorem ends_of_reported (h : Tracks rt feed resp x) (hrep : Reported x) : Ends rt feed w x := by
  obtain ⟨e, he, hr⟩ := hrep
  exact ⟨fun _ hno _ => absurd hr (hno e he), h.validatorsAtomic⟩

end Failure

/-- **A fetch job is atomic.** In whatever way the calls of an attempt are answered, if it
has read the feed, no report of it became permanent and the two writes of its failure
handler succeeded, it leaves what `Restored` says; and the validators of the feed change
only as `ValidatorsAtomic` says. -/
theorem execute_atomic (rt : Runtime) (canonicalizeArticleLink : Option String → Option String)
    (pid : Nat) (w : World) (feed : FeedRow)
    (hfeed : Table.lookup FeedRow.id feed.id w.feeds = some feed) :
    Meets (fun _ _ => True) (Observes pid feed.id) (execute rt canonicalizeArticleLink feed.id)
      (fun _ x => ((∃ e ∈ x.steps, e.Reads feed.id) → (∀ e ∈ x.steps, ¬ e.Reports) →
          (∀ e ∈ x.steps, ¬ e.FailsHandler) → Restored feed w x) ∧
        ValidatorsAtomic rt feed.id x.steps) ⟨w, []⟩ := by
  have h₀ : Tracks rt feed [] ⟨w, []⟩ :=
    ⟨rfl, fun _ => ⟨fun _ h => absurd h List.not_mem_nil, hfeed⟩,
      fun _ h => absurd h List.not_mem_nil⟩
  refine meets_bind.mpr (meets_invoke.mpr ⟨trivial, fun r x₁ hx₁ => ?_⟩)
  have h₁ : Tracks rt feed [] x₁ := h₀.silent hx₁ trivial
  obtain ⟨e₁, hs₁, hc₁⟩ : ∃ e, x₁.steps = [e] ∧ e.call = .assertSchemaReady := by
    obtain ⟨v, out, -, -, hs⟩ := hx₁
    exact ⟨_, hs, rfl⟩
  have hno₁ : ∀ f ∈ x₁.steps, ¬ f.Reads feed.id ∧ ¬ f.Reports := by
    intro f hf
    rw [hs₁] at hf
    obtain rfl := List.mem_singleton.mp hf
    constructor
    · rintro ⟨hc, -⟩
      rw [hc₁] at hc
      cases hc
    · rintro ⟨-, hrep⟩
      rw [hc₁] at hrep
      exact hrep
  cases r with
  | error e => exact ends_of_tracks h₁ fun f hf => (hno₁ f hf).1
  | ok _ =>
    refine meets_bind.mpr (meets_invoke.mpr ⟨trivial, fun r x₂ hx₂ => ?_⟩)
    have h₂ : Tracks rt feed [] x₂ := h₁.silent hx₂ trivial
    cases r with
    | error e =>
      refine ends_of_tracks h₂ fun f hf => ?_
      obtain ⟨g, hs, -, hout⟩ := hx₂.out_ne_ok
      rw [hs] at hf
      rcases List.mem_append.mp hf with hf | hf
      · exact (hno₁ f hf).1
      · obtain rfl := List.mem_singleton.mp hf
        rintro ⟨-, ch, hok⟩
        exact hout ch hok
    | ok found =>
      obtain rfl := find_observes (h₁.quiet fun f hf => (hno₁ f hf).2).2 hx₂
      refine meets_tryCatch.mpr ((fetchAndStore_meets h₂).mono fun r x₃ h₃ => ?_)
      obtain ⟨resp, ht, hrep⟩ := h₃
      cases r with
      | ok a => exact ends_of_reported ht (hrep ⟨a, rfl⟩)
      | error e => exact handleFailure_meets ht

/-- Every attempt on the feed of the small deployment. -/
theorem execute_atomic_oneFeed :
    Table.lookup FeedRow.id System.dueFeed.id System.oneFeed.world.feeds = some System.dueFeed ∧
      Meets (fun _ _ => True) (Observes 2 System.dueFeed.id)
        (execute System.webhookDeployment.rt System.webhookDeployment.canonicalizeArticleLink
          System.dueFeed.id)
        (fun _ x => ((∃ e ∈ x.steps, e.Reads System.dueFeed.id) →
            (∀ e ∈ x.steps, ¬ e.Reports) → (∀ e ∈ x.steps, ¬ e.FailsHandler) →
            Restored System.dueFeed System.oneFeed.world x) ∧
          ValidatorsAtomic System.webhookDeployment.rt System.dueFeed.id x.steps)
        ⟨System.oneFeed.world, []⟩ :=
  ⟨by decide, execute_atomic _ _ 2 _ System.dueFeed (by decide)⟩

end ProcessFeedJob

end Feedpulse
