import Feedpulse.OpmlJobs
import Feedpulse.System
import Mathlib.Logic.Function.Basic

/-!
# The OPML import as a running system

The processes of the OPML import beside those of the rest of the service: uploads,
confirmations and registrations of tenants, and the workers on the parse and apply jobs.
They run over the shared state in any interleaving; every call can fail, with or without
effect, and every process can die between two calls.
-/

namespace Feedpulse

/-! ## Processes -/

/-- What a process was started for. -/
inductive OpmlRole
  /-- a tenant's request -/
  | request
  /-- a worker on a parse job -/
  | parseWorker (jobId : String)
  /-- a worker on an apply job -/
  | applyWorker (jobId : String)
  deriving DecidableEq, Repr

/-- A process: its role, and the rest of its program. -/
structure OpmlProcess where
  /-- what the process was started for -/
  role : OpmlRole
  /-- what it still has to execute -/
  prog : OpmlProgram Unit

/-- The state of the system. -/
structure OpmlSystem where
  /-- the shared state -/
  world : OpmlWorld
  /-- the processes of the rest of the service -/
  coreProcs : Nat → Option Process
  /-- the processes of the OPML import -/
  procs : Nat → Option OpmlProcess

/-- What stays fixed while the system runs. -/
structure OpmlDeployment where
  /-- the rest of the service -/
  core : Deployment
  /-- the configuration -/
  config : OpmlConfig
  /-- the runtime and the functions outside the model -/
  rt : OpmlRuntime

/-- A tenant's request. -/
inductive OpmlRequest
  /-- `POST /opml/imports` -/
  | create (input : CreateOpmlImportInput)
  /-- `POST /opml/imports/:id/confirm` -/
  | confirm (importId : Nat) (tenantId : String)
  /-- `POST /feeds` -/
  | register (input : RegisterFeedInput)
  deriving DecidableEq, Repr

/-- A step of the system. -/
inductive OpmlAction
  /-- a step of the rest of the service -/
  | core (a : Action)
  /-- a request arrives -/
  | request (pid : Nat) (r : OpmlRequest)
  /-- a worker takes a parse job -/
  | takeParse (pid : Nat) (jobId : String)
  /-- a worker takes an apply job -/
  | takeApply (pid : Nat) (jobId : String)
  /-- the next call of a process is answered -/
  | advance (pid : Nat) (out : Outcome)
  /-- a process that has ended leaves -/
  | finish (pid : Nat)
  /-- a process dies -/
  | crash (pid : Nat)
  /-- the backoff of a parse job elapses -/
  | promoteParse (jobId : String)
  /-- the backoff of an apply job elapses -/
  | promoteApply (jobId : String)
  /-- the lock on a parse job expires -/
  | stallParse (jobId : String)
  /-- the lock on an apply job expires -/
  | stallApply (jobId : String)
  deriving DecidableEq, Repr

namespace OpmlSystem

/-- Forget the result of a program. -/
def ignore {α : Type} (p : OpmlProgram α) : OpmlProgram Unit := do
  let _ ← p

section Step

variable (d : OpmlDeployment)

/-- The program of a request. -/
def requestProgram : OpmlRequest → OpmlProgram Unit
  | .create input => ignore (CreateOpmlImport.execute d.config d.rt input)
  | .confirm importId tenantId => ignore (ConfirmOpmlImport.execute importId tenantId)
  | .register input => ignore (RegisterFeed.execute d.config d.rt input)

/-- Put a process into the table, or remove one. -/
def setProc (s : OpmlSystem) (pid : Nat) (p : Option OpmlProcess) : OpmlSystem :=
  { s with procs := Function.update s.procs pid p }

/-- Start a process, if its id is free. -/
def start (s : OpmlSystem) (pid : Nat) (role : OpmlRole) (prog : OpmlProgram Unit) :
    Option OpmlSystem :=
  match s.procs pid with
  | none => some (s.setProc pid (some { role := role, prog := prog }))
  | some _ => none

/-- Tell the queue how the job of an ended process went. -/
def report (w : OpmlWorld) (pid : Nat) (role : OpmlRole) (succeeded : Bool) : OpmlWorld :=
  match role with
  | .request => w
  | .parseWorker jobId =>
    { w with
      parseQueue :=
        if succeeded then w.parseQueue.complete jobId pid else w.parseQueue.fail jobId pid }
  | .applyWorker jobId =>
    { w with
      applyQueue :=
        if succeeded then w.applyQueue.complete jobId pid else w.applyQueue.fail jobId pid }

/-- A process is gone, and its connection with it. -/
def leave (s : OpmlSystem) (pid : Nat) (w : OpmlWorld) : OpmlSystem :=
  { s with world := w.dropOpmlTxn pid, procs := Function.update s.procs pid none }

/-- One step. -/
def step (s : OpmlSystem) : OpmlAction → Option OpmlSystem
  | .core a =>
    (System.step d.core { world := s.world.core, procs := s.coreProcs } a).map fun s' =>
      { s with world := { s.world with core := s'.world }, coreProcs := s'.procs }
  | .request pid r => s.start pid .request (requestProgram d r)
  | .takeParse pid jobId =>
    (s.world.parseQueue.take jobId pid).bind fun (job, q) =>
      { s with world := { s.world with parseQueue := q } }.start pid (.parseWorker jobId)
        (ProcessOpmlParseJob.execute d.config d.rt job.data)
  | .takeApply pid jobId =>
    (s.world.applyQueue.take jobId pid).bind fun (job, q) =>
      { s with world := { s.world with applyQueue := q } }.start pid (.applyWorker jobId)
        (ProcessOpmlApplyJob.execute d.config d.rt job.data)
  | .advance pid out =>
    match s.procs pid with
    | some ⟨role, .call c k⟩ =>
      (c.answer pid s.world out).map fun (r, w) =>
        { s with world := w, procs := Function.update s.procs pid (some ⟨role, k r⟩) }
    | _ => none
  | .finish pid =>
    match s.procs pid with
    | some ⟨role, .ret ()⟩ => some (s.leave pid (report s.world pid role true))
    | some ⟨role, .throw _⟩ => some (s.leave pid (report s.world pid role false))
    | _ => none
  | .crash pid =>
    match s.procs pid with
    | some _ => some (s.leave pid s.world)
    | none => none
  | .promoteParse jobId =>
    (s.world.parseQueue.promote jobId).map fun q =>
      { s with world := { s.world with parseQueue := q } }
  | .promoteApply jobId =>
    (s.world.applyQueue.promote jobId).map fun q =>
      { s with world := { s.world with applyQueue := q } }
  | .stallParse jobId =>
    (s.world.parseQueue.stall jobId).map fun q =>
      { s with world := { s.world with parseQueue := q } }
  | .stallApply jobId =>
    (s.world.applyQueue.stall jobId).map fun q =>
      { s with world := { s.world with applyQueue := q } }

end Step

/-! ## Inversion -/

variable {d : OpmlDeployment} {s s' : OpmlSystem}

/-- Inversion for a step of the rest of the service. -/
theorem core_eq_some {a : Action} (h : step d s (.core a) = some s') :
    ∃ t, System.step d.core { world := s.world.core, procs := s.coreProcs } a = some t ∧
      s' = { s with world := { s.world with core := t.world }, coreProcs := t.procs } := by
  obtain ⟨t, ht, rfl⟩ := Option.map_eq_some_iff.mp h
  exact ⟨t, ht, rfl⟩

/-- Inversion for `start`. -/
theorem start_eq_some {pid : Nat} {role : OpmlRole} {prog : OpmlProgram Unit}
    (h : s.start pid role prog = some s') :
    s.procs pid = none ∧ s' = s.setProc pid (some { role := role, prog := prog }) := by
  unfold start at h
  split at h
  · rename_i hp
    exact ⟨hp, (Option.some.inj h).symm⟩
  · cases h

/-- Inversion for `takeParse`. -/
theorem takeParse_eq_some {pid : Nat} {jobId : String}
    (h : step d s (.takeParse pid jobId) = some s') :
    ∃ job q, s.world.parseQueue.take jobId pid = some (job, q) ∧ s.procs pid = none ∧
      s' = { s with world := { s.world with parseQueue := q } }.setProc pid
        (some ⟨.parseWorker jobId, ProcessOpmlParseJob.execute d.config d.rt job.data⟩) := by
  obtain ⟨⟨job, q⟩, ht, hs⟩ := Option.bind_eq_some_iff.mp h
  obtain ⟨hp, rfl⟩ := start_eq_some hs
  exact ⟨job, q, ht, hp, rfl⟩

/-- Inversion for `takeApply`. -/
theorem takeApply_eq_some {pid : Nat} {jobId : String}
    (h : step d s (.takeApply pid jobId) = some s') :
    ∃ job q, s.world.applyQueue.take jobId pid = some (job, q) ∧ s.procs pid = none ∧
      s' = { s with world := { s.world with applyQueue := q } }.setProc pid
        (some ⟨.applyWorker jobId, ProcessOpmlApplyJob.execute d.config d.rt job.data⟩) := by
  obtain ⟨⟨job, q⟩, ht, hs⟩ := Option.bind_eq_some_iff.mp h
  obtain ⟨hp, rfl⟩ := start_eq_some hs
  exact ⟨job, q, ht, hp, rfl⟩

/-- Inversion for `advance`. -/
theorem advance_eq_some {pid : Nat} {out : Outcome} (h : step d s (.advance pid out) = some s') :
    ∃ role c k r w, s.procs pid = some ⟨role, .call c k⟩ ∧
      c.answer pid s.world out = some (r, w) ∧
      s' = { s with world := w, procs := Function.update s.procs pid (some ⟨role, k r⟩) } := by
  simp only [step] at h
  split at h
  · rename_i role c k hp
    obtain ⟨⟨r, w⟩, ha, rfl⟩ := Option.map_eq_some_iff.mp h
    exact ⟨role, c, k, r, w, hp, ha, rfl⟩
  · cases h

/-- Inversion for `finish`. -/
theorem finish_eq_some {pid : Nat} (h : step d s (.finish pid) = some s') :
    ∃ role prog succeeded, s.procs pid = some ⟨role, prog⟩ ∧
      (succeeded = true → prog = .ret ()) ∧ (succeeded = false → ∃ e, prog = .throw e) ∧
      s' = s.leave pid (report s.world pid role succeeded) := by
  simp only [step] at h
  split at h
  · rename_i role hp
    exact ⟨role, _, true, hp, fun _ => rfl, fun hf => (by cases hf), (Option.some.inj h).symm⟩
  · rename_i role e hp
    exact ⟨role, _, false, hp, fun hf => (by cases hf), fun _ => ⟨e, rfl⟩,
      (Option.some.inj h).symm⟩
  · cases h

/-- Inversion for `crash`. -/
theorem crash_eq_some {pid : Nat} (h : step d s (.crash pid) = some s') :
    ∃ p, s.procs pid = some p ∧ s' = s.leave pid s.world := by
  simp only [step] at h
  split at h
  · rename_i p hp
    exact ⟨p, hp, (Option.some.inj h).symm⟩
  · cases h

/-! ## What a step does to the processes -/

/-- The processes an action can start. -/
inductive Launch (d : OpmlDeployment) (w : OpmlWorld) :
    OpmlAction → Nat → OpmlRole → OpmlProgram Unit → Prop
  /-- a request arrives -/
  | request (pid : Nat) (r : OpmlRequest) :
    Launch d w (.request pid r) pid .request (requestProgram d r)
  /-- a worker takes a parse job -/
  | parse (pid : Nat) (jobId : String) (job : Job String OpmlParsePreviewJobData)
    (hj : w.parseQueue.getJob jobId = some job) :
    Launch d w (.takeParse pid jobId) pid (.parseWorker jobId)
      (ProcessOpmlParseJob.execute d.config d.rt job.data)
  /-- a worker takes an apply job -/
  | apply (pid : Nat) (jobId : String) (job : Job String OpmlApplyImportJobData)
    (hj : w.applyQueue.getJob jobId = some job) :
    Launch d w (.takeApply pid jobId) pid (.applyWorker jobId)
      (ProcessOpmlApplyJob.execute d.config d.rt job.data)

/-- The ways in which a step changes the table of processes. -/
inductive ProcStep (d : OpmlDeployment) (s : OpmlSystem) :
    OpmlAction → (Nat → Option OpmlProcess) → Prop
  /-- no process is concerned -/
  | stay (a : OpmlAction) (ha : ∀ pid out, a ≠ .advance pid out) : ProcStep d s a s.procs
  /-- a process starts under a free id -/
  | launch (a : OpmlAction) (pid : Nat) (role : OpmlRole) (prog : OpmlProgram Unit)
    (hfree : s.procs pid = none) (hl : Launch d s.world a pid role prog) :
    ProcStep d s a (Function.update s.procs pid (some ⟨role, prog⟩))
  /-- the next call of a process is answered -/
  | advance (pid : Nat) (out : Outcome) (role : OpmlRole) (c : OpmlCall)
    (k : Except String c.Reply → OpmlProgram Unit) (r : Except String c.Reply) (w : OpmlWorld)
    (hp : s.procs pid = some ⟨role, .call c k⟩) (ha : c.answer pid s.world out = some (r, w)) :
    ProcStep d s (.advance pid out) (Function.update s.procs pid (some ⟨role, k r⟩))
  /-- a process ends or dies -/
  | leave (a : OpmlAction) (pid : Nat) (ha : a = .finish pid ∨ a = .crash pid) :
    ProcStep d s a (Function.update s.procs pid none)

/-- **There are no other changes.** -/
theorem procs_step {a : OpmlAction} (h : step d s a = some s') : ProcStep d s a s'.procs := by
  cases a with
  | core a =>
    obtain ⟨t, -, rfl⟩ := core_eq_some h
    exact .stay _ fun pid out ha => by cases ha
  | request pid r =>
    obtain ⟨hp, rfl⟩ := start_eq_some h
    exact .launch _ pid _ _ hp (.request pid r)
  | takeParse pid jobId =>
    obtain ⟨job, q, ht, hp, rfl⟩ := takeParse_eq_some h
    exact .launch _ pid _ _ hp (.parse pid jobId job (JobQueue.take_eq_some ht).1)
  | takeApply pid jobId =>
    obtain ⟨job, q, ht, hp, rfl⟩ := takeApply_eq_some h
    exact .launch _ pid _ _ hp (.apply pid jobId job (JobQueue.take_eq_some ht).1)
  | advance pid out =>
    obtain ⟨role, c, k, r, w, hp, ha, rfl⟩ := advance_eq_some h
    exact .advance pid out role c k r w hp ha
  | finish pid =>
    obtain ⟨role, prog, succeeded, -, -, -, rfl⟩ := finish_eq_some h
    exact .leave _ pid (.inl rfl)
  | crash pid =>
    obtain ⟨p, -, rfl⟩ := crash_eq_some h
    exact .leave _ pid (.inr rfl)
  | promoteParse jobId =>
    obtain ⟨q, -, rfl⟩ := Option.map_eq_some_iff.mp h
    exact .stay _ fun pid out ha => by cases ha
  | promoteApply jobId =>
    obtain ⟨q, -, rfl⟩ := Option.map_eq_some_iff.mp h
    exact .stay _ fun pid out ha => by cases ha
  | stallParse jobId =>
    obtain ⟨q, -, rfl⟩ := Option.map_eq_some_iff.mp h
    exact .stay _ fun pid out ha => by cases ha
  | stallApply jobId =>
    obtain ⟨q, -, rfl⟩ := Option.map_eq_some_iff.mp h
    exact .stay _ fun pid out ha => by cases ha

/-! ## Initial states -/

/-- A system that has just been started: anything may be in the tables of the rest of the
service, but there are no imports, no jobs and no processes. -/
structure Init (s : OpmlSystem) : Prop where
  /-- no process of the OPML import runs -/
  procs : ∀ pid, s.procs pid = none
  /-- no transaction of the OPML import is open -/
  txns : s.world.opmlTxns = []
  /-- there are no imports -/
  imports : s.world.imports = []
  /-- there are no items -/
  items : s.world.items = []
  /-- the parse queue is empty -/
  parseQueue : s.world.parseQueue = JobQueue.empty
  /-- the apply queue is empty -/
  applyQueue : s.world.applyQueue = JobQueue.empty

/-! ## An import of two feeds -/

/-- The URLs of two feeds, as the runtime parses them. -/
def feedUrls : List (String × ParsedUrl) :=
  ["a.example", "b.example"].map fun hostname =>
    ("https://" ++ hostname ++ "/rss",
      { protocol := "https:", userinfo := "", hostname := hostname, port := "",
        pathname := "/rss", search := "", hash := "" })

/-- The hashes of their normal forms. -/
def feedHashes : List (String × String) := [
  ("https://a.example/rss", "f14074e5979b9d9b10708b8eee032b459cfd96c70af86119a067bb5d5d450784"),
  ("https://b.example/rss", "ba6758c1251d034aa1a27730d20cb7582eef94cdac3d32373d262c66ecc583d6")]

/-- A deployment whose runtime knows two feeds, and a document with both. -/
def importDeployment : OpmlDeployment where
  core := System.webhookDeployment
  config :=
    { opmlUploadMaxBytes := 1048576
      opmlInitialJitterMaxSeconds := 60
      maxFeedsPerTenant := 0
      allowPrivateFeedHosts := false }
  rt :=
    { System.webhookDeployment.rt with
      sha256Hex := fun text => (feedHashes.lookup text).getD text
      parseUrl := fun text => feedUrls.lookup text
      setProtocol := fun url protocol => { url with protocol := protocol }
      setHostname := fun url hostname => { url with hostname := hostname }
      setPort := fun url port => { url with port := port }
      setPathname := fun url pathname => { url with pathname := pathname }
      setHash := fun url hash => { url with hash := hash }
      urlToString := fun url => url.protocol ++ "//" ++ url.hostname ++ url.pathname
      isPublicHostname := fun _ => true
      extractOpmlItems := fun _ _ _ => .ok <| feedUrls.map fun url =>
        { title := none, outlinePath := none, sourceXmlUrl := url.1 }
      sha256HexOfBytes := fun _ =>
        "9bc3f07d8bb9644a4c9a9948b4bfcb51fb69893f19422d2cd5e81cf7972c0fe9"
      decodeUtf8 := fun _ => "<opml/>" }

/-- The state before anything has run. -/
def noImports : OpmlSystem where
  world :=
    { core := { System.oneFeed.world with feeds := [], rules := [] }
      imports := []
      items := []
      parseQueue := JobQueue.empty
      applyQueue := JobQueue.empty
      opmlTxns := []
      sequences := { importId := 1, itemId := 1, feedId := 1 } }
  coreProcs := fun _ => none
  procs := fun _ => none

theorem noImports_init : noImports.Init := ⟨fun _ => rfl, rfl, rfl, rfl, rfl, rfl⟩

/-- The next `n` calls of a process succeed. -/
def proceed (pid n : Nat) : List OpmlAction := List.replicate n (.advance pid (.ok .none))

/-- The tenant uploads the document. -/
def upload (pid : Nat) : List OpmlAction :=
  .request pid (.create
    { tenantId := some "t", fileName := "feeds.opml", mimeType := "text/x-opml",
      content := [60, 111, 112, 109, 108, 47, 62] }) :: proceed pid 2 ++ [.finish pid]

/-- A worker parses it. -/
def parse (pid : Nat) : List OpmlAction :=
  .takeParse pid (opmlParseJobId 1) :: proceed pid 13 ++ [.finish pid]

/-- The tenant confirms the import. -/
def confirm (pid : Nat) : List OpmlAction :=
  .request pid (.confirm 1 "t") :: proceed pid 4 ++ [.finish pid]

/-- A worker applies it, up to the commit. -/
def applyUntilCommit (pid : Nat) : List OpmlAction :=
  .takeApply pid (opmlApplyJobId 1) :: proceed pid 5 ++
    (.advance pid (.ok (.random 0)) :: proceed pid 2) ++
    (.advance pid (.ok (.random 0)) :: proceed pid 2) ++ proceed pid 3

/-- The two new feeds are enqueued, and the worker ends. -/
def enqueueBoth (pid : Nat) : List OpmlAction := proceed pid 7 ++ [.finish pid]

end OpmlSystem

end Feedpulse
