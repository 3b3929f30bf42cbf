import Feedpulse.DeliveryOnce
import Feedpulse.FeedJob
import Feedpulse.Interference
import Mathlib.Logic.Relation

/-!
# Protocols of the processes

An invariant of the tables often holds because every process keeps to a protocol: it writes
something only after it has read something else. A `Protocol` says what holds of the tables, what
a process may call, and that calls it may make keep what holds. `abides_step` is the induction
step of every such argument: if each process that starts keeps to the protocol, whatever the
other processes do in the meantime, then the tables are as the protocol says after every step.
-/

namespace Feedpulse

open Prog

/-! ## The other processes -/

namespace World

variable {pid : Nat} {w w' : World}

/-- A call leaves the transactions of the other processes alone. -/
theorem txn_effect {q : Nat} {c : Call} (h : CallEffect q w c w') (hne : pid ≠ q) :
    w'.txn pid = w.txn pid := by
  have hset : ∀ t : Txn, (w.setTxn q t).txn pid = w.txn pid := fun t =>
    (txn_setTxn w q pid t).trans (if_neg hne)
  have hdrop : (w.dropTxn q).txn pid = w.txn pid := (txn_dropTxn w q pid).trans (if_neg hne)
  cases h with
  | begin => exact hset _
  | stageEntry => exact hset _
  | stageAlerts => exact hset _
  | stageLog => exact hset _
  | stageReport => exact hset _
  | rollback => exact hdrop
  | release => exact hdrop
  | commit =>
    unfold commitTxn
    split
    · rfl
    · exact hdrop
  | _ => rfl

/-- What happens while the process waits: another process has a call served, or the queues, the
clock or the settings move on. -/
inductive OtherStep (pid : Nat) (w w' : World) : Prop
  /-- another process has a call served -/
  | call (q : Nat) (c : Call) (ch : Choice) (r : c.Reply) (hne : q ≠ pid)
    (h : c.serve q w ch = some (r, w'))
  /-- no call is served -/
  | quiet (h : System.QuietStep w w') (ht : w'.txn pid = w.txn pid)

/-- What may happen while the process waits. -/
def Elsewhere (pid : Nat) : World → World → Prop := Relation.ReflTransGen (OtherStep pid)

theorem rely_elsewhere (pid : Nat) : Rely (Elsewhere pid) where
  refl := fun _ => .refl
  trans := fun h h' => h.trans h'

/-- What neither a call of another process nor a quiet step makes false. -/
theorem stable_elsewhere {P : World → Prop}
    (hcall : ∀ q c w w', q ≠ pid → CallEffect q w c w' → w'.txn pid = w.txn pid → P w → P w')
    (hquiet : ∀ w w', System.QuietStep w w' → w'.txn pid = w.txn pid → P w → P w') :
    Stable (Elsewhere pid) P := by
  intro w w' h hw
  induction h with
  | refl => exact hw
  | tail _ hstep ih =>
    cases hstep with
    | call q c ch r hne hserve =>
      have heffect := serve_effect hserve
      exact hcall q c _ _ hne heffect (txn_effect heffect hne.symm) ih
    | quiet hquiet' ht => exact hquiet _ _ hquiet' ht ih

theorem stable_true : Stable (Elsewhere pid) fun _ => True := fun _ _ _ h => h

/-- What no call makes false, and no quiet step. -/
structure Persistent (P : World → Prop) : Prop where
  /-- calls of any process -/
  call : ∀ {q c w w'}, CallEffect q w c w' → P w → P w'
  /-- quiet steps -/
  quiet : ∀ {w w'}, System.QuietStep w w' → P w → P w'

theorem Persistent.stable {P : World → Prop} (h : Persistent P) : Stable (Elsewhere pid) P :=
  stable_elsewhere (fun _ _ _ _ _ he _ hw => h.call he hw) fun _ _ hquiet _ hw => h.quiet hquiet hw

theorem Persistent.and {P Q : World → Prop} (hP : Persistent P) (hQ : Persistent Q) :
    Persistent fun w => P w ∧ Q w :=
  ⟨fun he h => ⟨hP.call he h.1, hQ.call he h.2⟩,
    fun hquiet h => ⟨hP.quiet hquiet h.1, hQ.quiet hquiet h.2⟩⟩

end World

namespace System

open World

variable {d : Deployment} {s s' : System}

/-- A process that starts keeps to its role. -/
theorem launch_issues {w : World} {a : Action} {pid : Nat} {role : Role} {prog : Program Unit}
    (h : Launch d w a pid role prog) : Issues role.MayIssue prog := by
  cases h with
  | tick => exact scheduler_issues ..
  | request pid r => exact request_issues r
  | fetch pid jobId job => exact Issues.bind (fetchWorker_issues ..) fun _ => issues_pure _
  | delivery pid jobId job => exact deliveryWorker_issues ..

/-- **What a step does to a process it does not answer.** -/
theorem elsewhere_step {a : Action} {pid : Nat} {p : Process} (h : step d s a = some s')
    (hp : s'.procs pid = some p) (hne : ∀ out, a ≠ .advance pid out) :
    Elsewhere pid s.world s'.world := by
  refine .single ?_
  by_cases hcrash : ∃ q, a = .crash q
  · obtain ⟨q, rfl⟩ := hcrash
    obtain ⟨-, -, rfl⟩ := crash_eq_some h
    have hq : pid ≠ q := by
      rintro rfl
      dsimp only at hp
      rw [setProc_self] at hp
      cases hp
    exact .quiet (.dropTxn q) ((txn_dropTxn s.world q pid).trans (if_neg hq))
  rcases step_effect h with ⟨q, c, ch, r, hexec, hserve⟩ | ⟨-, hquiet⟩
  · obtain ⟨out, role, k, rfl, -⟩ := executedCall_eq_some hexec
    refine .call q c ch r ?_ hserve
    rintro rfl
    exact hne out rfl
  · refine .quiet hquiet ?_
    cases a with
    | crash q => exact absurd ⟨q, rfl⟩ hcrash
    | advance q out =>
      obtain ⟨role, c, k, r, w, -, ha, rfl⟩ := advance_eq_some h
      have hq : pid ≠ q := by
        rintro rfl
        exact hne out rfl
      rcases Call.answer_eq_some ha with ⟨-, -, rfl, -⟩ | ⟨ch, a, hserve, -⟩
      · rfl
      · exact txn_effect (serve_effect hserve) hq
    | finish q =>
      obtain ⟨role, prog, -, ⟨-, rfl⟩ | ⟨e, -, rfl⟩⟩ := finish_eq_some h
      · cases role <;> rfl
      · cases role <;> rfl
    | takeFetch q jobId =>
      obtain ⟨job, queue, -, -, rfl⟩ := takeFetch_eq_some h
      rfl
    | takeDelivery q jobId =>
      obtain ⟨job, queue, -, -, rfl⟩ := takeDelivery_eq_some h
      rfl
    | tick q =>
      obtain ⟨-, rfl⟩ := start_eq_some h
      rfl
    | request q r =>
      obtain ⟨-, rfl⟩ := start_eq_some h
      rfl
    | elapse | saveSettings =>
      obtain rfl := Option.some.inj h
      rfl
    | promoteFetch | promoteDelivery | stallFetch | stallDelivery =>
      obtain ⟨queue, -, rfl⟩ := Option.map_eq_some_iff.mp h
      rfl

/-- Settings change only where a tenant saves them. -/
theorem settings_step {a : Action} (h : step d s a = some s') :
    ∀ row ∈ s'.world.settings, row ∈ s.world.settings ∨ a = .saveSettings row := by
  intro row hrow
  cases a with
  | saveSettings saved =>
    obtain rfl := Option.some.inj h
    rcases List.mem_cons.mp hrow with rfl | hrow
    · exact .inr rfl
    · exact .inl (List.mem_filter.mp hrow).1
  | advance q out =>
    obtain ⟨role, c, k, r, w, -, ha, rfl⟩ := advance_eq_some h
    exact .inl (settings_answer ha ▸ hrow)
  | finish q =>
    obtain ⟨role, prog, -, ⟨-, rfl⟩ | ⟨e, -, rfl⟩⟩ := finish_eq_some h
    · exact .inl (report_settings .. ▸ hrow)
    · exact .inl (report_settings .. ▸ hrow)
  | crash q =>
    obtain ⟨-, -, rfl⟩ := crash_eq_some h
    exact .inl hrow
  | takeFetch q jobId =>
    obtain ⟨job, queue, -, -, rfl⟩ := takeFetch_eq_some h
    exact .inl hrow
  | takeDelivery q jobId =>
    obtain ⟨job, queue, -, -, rfl⟩ := takeDelivery_eq_some h
    exact .inl hrow
  | tick q =>
    obtain ⟨-, rfl⟩ := start_eq_some h
    exact .inl hrow
  | request q r =>
    obtain ⟨-, rfl⟩ := start_eq_some h
    exact .inl hrow
  | elapse ms =>
    obtain rfl := Option.some.inj h
    exact .inl hrow
  | promoteFetch | promoteDelivery | stallFetch | stallDelivery =>
    obtain ⟨queue, -, rfl⟩ := Option.map_eq_some_iff.mp h
    exact .inl hrow

end System

/-- A `try … finally` between two states of the same kind. -/
theorem follows_tryFinally {S α : Type} {rely : S → S → Prop} {allowed : S → Call → Prop}
    {answers : S → (c : Call) → Except String c.Reply → S → Prop} {P : S → Prop}
    {body : Program α} {final : Program Unit} {s : S}
    (hbody : Follows rely allowed answers body (fun _ s' => P s') s)
    (hfinal : ∀ s', P s' → Follows rely allowed answers final (fun _ s' => P s') s') :
    Follows rely allowed answers (tryFinally body final) (fun _ s' => P s') s := by
  have hattempt : Follows rely allowed answers (attempt body) (fun _ s' => P s') s :=
    meets_attempt.mpr hbody
  refine hattempt.bind (fun outcome s₁ h₁ => ?_) fun _ _ h₁ => h₁
  refine (hfinal s₁ h₁).bind (fun _ s₂ h₂ => ?_) fun _ _ h₂ => h₂
  cases outcome with
  | ok a => exact h₂
  | error e => exact h₂

/-! ## Protocols -/

/-- What holds of the tables, and what the processes have to do with it. -/
structure Protocol where
  /-- what holds of the tables -/
  holds : World → Prop
  /-- what a process may call in its role -/
  allowed : Nat → Role → World → Call → Prop
  /-- how the environment answers -/
  env : Call → Outcome → Prop
  /-- what tenants save -/
  saved : TenantSettingsRow → Prop
  /-- calls that are allowed keep what holds -/
  serve : ∀ {pid role w w' c ch} {r : Call.Reply c}, holds w → allowed pid role w c →
    c.serve pid w ch = some (r, w') → holds w'
  /-- so does what happens without a call -/
  quiet : ∀ {w w'}, holds w → System.QuietStep w w' →
    (∀ row ∈ w'.settings, row ∈ w.settings ∨ saved row) → holds w'

namespace Protocol

variable (P : Protocol) {pid : Nat} {role : Role} {w w' : World}

/-- The answer to a call while the tables are as the protocol says. -/
def Answered (pid : Nat) (w : World) (c : Call) (r : Except String c.Reply) (w' : World) : Prop :=
  P.holds w ∧ ∃ out, P.env c out ∧ c.answer pid w out = some (r, w')

/-- The rest of a process keeps to the protocol among the others. -/
abbrev Keeps (pid : Nat) (role : Role) {α : Type} (p : Program α)
    (post : Except String α → World → Prop) : World → Prop :=
  Follows (World.Elsewhere pid) (P.allowed pid role) (P.Answered pid) p post

variable {P}

theorem Answered.effect {c : Call} {r : Except String c.Reply} (h : P.Answered pid w c r w') :
    CallEffect pid w c w' := by
  obtain ⟨-, out, -, ha⟩ := h
  rcases Call.answer_eq_some ha with ⟨-, -, rfl, -⟩ | ⟨ch, a, hserve, -⟩
  · exact .none c
  · exact serve_effect hserve

/-- A reply is that of a call that succeeds. -/
theorem Answered.serve {c : Call} {a : c.Reply} (h : P.Answered pid w c (.ok a) w') :
    ∃ ch, P.env c (.ok ch) ∧ c.serve pid w ch = some (a, w') := by
  obtain ⟨-, out, henv, ha⟩ := h
  obtain ⟨ch, rfl, hserve⟩ := Call.serve_of_ok ha
  exact ⟨ch, henv, hserve⟩

/-- A program whose calls are allowed everywhere. -/
theorem keeps_of_issues {α : Type} {p : Program α} {kind : Call → Prop} (hp : Issues kind p)
    (h : ∀ w c, kind c → P.allowed pid role w c) (w : World) :
    P.Keeps pid role p (fun _ _ => True) w :=
  hp.follows World.stable_true (fun w c hc _ => h w c hc) (fun _ _ _ _ _ _ _ => trivial) trivial

/-- The tables are as the protocol says, and every process keeps to it. -/
structure Abides (P : Protocol) (s : System) : Prop where
  /-- the tables -/
  holds : P.holds s.world
  /-- the processes -/
  procs : ∀ pid p, s.procs pid = some p → P.Keeps pid p.role p.prog (fun _ _ => True) s.world

theorem abides_of_init {s : System} (h : s.Init) (hw : P.holds s.world) : P.Abides s := by
  refine ⟨hw, fun pid p hp => ?_⟩
  rw [h.procs] at hp
  cases hp

/-- Calls are answered, and settings saved, as the protocol expects. -/
def Expects (P : Protocol) (s : System) : Action → Prop
  | .advance pid out => ∀ role c k, s.procs pid = some ⟨role, .call c k⟩ → P.env c out
  | .saveSettings row => P.saved row
  | _ => True

variable {d : Deployment} {s s' : System}

/-- **If every process starts by the protocol, all keep to it**, and the tables are as it says. -/
theorem abides_step
    (hlaunch : ∀ w w' a pid role prog, System.Launch d w a pid role prog →
      P.Keeps pid role prog (fun _ _ => True) w')
    {a : Action} (hs : P.Abides s) (h : System.step d s a = some s') (henv : P.Expects s a) :
    P.Abides s' := by
  constructor
  · rcases System.step_effect h with ⟨pid, c, ch, r, hexec, hserve⟩ | ⟨-, hquiet⟩
    · obtain ⟨out, role, k, -, hp⟩ := System.executedCall_eq_some hexec
      exact P.serve hs.holds ((hs.procs pid _ hp).next_allowed (World.rely_elsewhere pid)) hserve
    · refine P.quiet hs.holds hquiet fun row hrow => ?_
      refine (System.settings_step h row hrow).imp_right ?_
      rintro rfl
      exact henv
  · intro pid p hp
    rcases System.process_step h hp with ⟨hold, hne⟩ | ⟨-, hl⟩ | ⟨out, c, k, r, rfl, hold, ha, heq⟩
    · exact (hs.procs pid p hold).disturb (World.rely_elsewhere pid) (fun _ _ _ _ h => h)
        (System.elsewhere_step h hp hne)
    · exact hlaunch _ _ _ _ _ _ hl
    · rw [heq]
      exact (hs.procs pid _ hold).answer (World.rely_elsewhere pid)
        ⟨hs.holds, out, henv _ c k hold, ha⟩

/-- **In every run from a fresh start** whose answers are as the protocol expects, the tables are
as it says and every process keeps to it. -/
theorem always_abides
    (hlaunch : ∀ w w' a pid role prog, System.Launch d w a pid role prog →
      P.Keeps pid role prog (fun _ _ => True) w')
    {s₀ : System} (h₀ : s₀.Init) (hw : P.holds s₀.world) {as : List Action}
    (h : Transition.Along (System.step d) (fun s a _ => P.Expects s a) s₀ as) :
    Transition.Always (System.step d) P.Abides s₀ as :=
  Transition.always_of_along (fun _ _ _ hs hstep henv => abides_step hlaunch hs hstep henv)
    (abides_of_init h₀ hw) h

end Protocol

/-! ## Fetch jobs -/

namespace Protocol

open World

variable {P : Protocol} {pid : Nat} {role : Role} {w : World}

/-- Calls that are allowed while something persistent holds. -/
theorem keeps_of_persistent {α : Type} {p : Program α} {kind : Call → Prop} {K : World → Prop}
    (hK : Persistent K) (hp : Issues kind p)
    (hkind : ∀ v c, kind c → K v → P.allowed pid role v c) (h : K w) :
    P.Keeps pid role p (fun _ w' => K w') w :=
  hp.follows hK.stable hkind (fun _ _ _ _ _ hv ha => hK.call ha.effect hv) h

end Protocol

namespace ProcessFeedJob

open World

/-- The calls of a fetch job outside its transaction. -/
def Outside : Call → Prop
  | .assertSchemaReady => True
  | .random _ => True
  | .feed (.findByIdForWorker _) => True
  | .feed (.recordFetchLog _) => True
  | .feed (.updateAfterFetch _) => True
  | .net (.fetchFeed ..) => True
  | .ingest .connect => True
  | .ingest .rollback => True
  | .ingest .release => True
  | c => HandsOver c

theorem handsOver_outside (c : Call) (h : HandsOver c) : Outside c := by
  unfold HandsOver at h
  split at h <;> trivial

section Execute

variable {P : Protocol} {pid : Nat} {role : Role} {rt : Runtime}
  {canonicalizeArticleLink : Option String → Option String} {K : FeedRow → World → Prop}
  (hK : ∀ feed, Persistent (K feed))
  (houtside : ∀ w c, Outside c → P.allowed pid role w c)
  (htransaction : ∀ feed response es w, K feed w →
    P.Keeps pid role (transaction rt canonicalizeArticleLink feed response es)
      (fun _ _ => True) w)
include houtside

/-- A program that stays outside the transaction. -/
theorem outside_keeps {α : Type} {p : Program α} {w : World} (hp : Issues Outside p) :
    P.Keeps pid role p (fun _ _ => True) w :=
  Protocol.keeps_of_issues hp houtside w

theorem fetchJobFailure_keeps (feed : FeedRow) (message : String) (w : World) :
    P.Keeps pid role (handleFailure rt feed message) (fun _ _ => True) w := by
  refine outside_keeps houtside (Issues.bind (issues_invoke trivial) fun jitter => ?_)
  refine Issues.bind (issues_invoke trivial) fun _ => ?_
  refine Issues.bind (issues_invoke trivial) fun now => ?_
  refine Issues.bind (issues_invoke trivial) fun _ => ?_
  exact Issues.ite (fun _ => issues_throw' _) fun _ => issues_pure _

include hK htransaction

theorem fetchJobStore_keeps {feed : FeedRow} {response : FetchResponse} {es : List NormalizedEntry}
    {w : World} (h : K feed w) :
    P.Keeps pid role (store rt canonicalizeArticleLink feed response es) (fun _ _ => True) w := by
  have hconnect : P.Keeps pid role IngestClient.connect (fun _ w' => K feed w') w :=
    Protocol.keeps_of_persistent (hK feed) (issues_invoke (trivial : Outside (.ingest .connect)))
      (fun v c hc _ => houtside v c hc) h
  refine hconnect.bind (fun _ w₁ h₁ => ?_) fun _ _ _ => trivial
  have hrollback : ∀ (e : String), Issues Outside
      (do IngestClient.rollback; MonadExcept.throw e : Program FeedJobResult) :=
    fun _ => Issues.bind (issues_invoke trivial) fun _ => issues_throw' _
  refine follows_tryFinally (follows_tryCatch ?_ fun e w₂ _ => ?_) fun w₃ _ => ?_
  · refine (htransaction feed response es w₁ h₁).bind (fun r w₂ _ => ?_) fun _ _ _ => trivial
    refine outside_keeps houtside (Issues.bind ?_ fun _ => issues_pure _)
    exact (deliverAlerts_handsOver _).mono handsOver_outside
  · exact outside_keeps houtside (hrollback e)
  · exact outside_keeps houtside (issues_invoke trivial)

theorem fetchJobBody_keeps {feed : FeedRow} {w : World} (h : K feed w) :
    P.Keeps pid role (fetchAndStore rt canonicalizeArticleLink feed) (fun _ _ => True) w := by
  have hfetch : P.Keeps pid role
      (netCall (.fetchFeed feed.url feed.etag feed.lastModified) : Program FetchResponse)
      (fun _ w' => K feed w') w :=
    Protocol.keeps_of_persistent (hK feed)
      (issues_invoke (trivial : Outside (.net (.fetchFeed feed.url feed.etag feed.lastModified))))
      (fun v c hc _ => houtside v c hc) h
  refine hfetch.bind (fun response w₁ h₁ => ?_) fun _ _ _ => trivial
  split
  · refine outside_keeps houtside (Issues.bind (issues_invoke trivial) fun _ => ?_)
    refine Issues.bind (issues_invoke trivial) fun now => ?_
    exact Issues.bind (issues_invoke trivial) fun _ => issues_pure _
  split
  · trivial
  split
  · trivial
  · exact fetchJobStore_keeps hK houtside htransaction h₁

/-- **A fetch job keeps to a protocol** that its transaction keeps to, and that allows whatever it
calls outside. `K` is what is known of the feed that was read. -/
theorem fetchJob_keeps
    (hread : ∀ {feedId w feed}, P.holds w → Feeds.findByIdForWorker feedId w.feeds = some feed →
      K feed w)
    (feedId : Nat) (w : World) :
    P.Keeps pid role (execute rt canonicalizeArticleLink feedId) (fun _ _ => True) w := by
  have hschema : P.Keeps pid role assertSchemaReady (fun _ _ => True) w :=
    outside_keeps houtside (issues_invoke trivial)
  refine hschema.bind (fun _ w₁ _ => ?_) fun _ _ _ => trivial
  have hfind : P.Keeps pid role (FeedsRepository.findByIdForWorker feedId)
      (fun r w' => ∀ feed, r = .ok (some feed) → K feed w') w₁ := by
    refine follows_invoke stable_true trivial (fun v _ => houtside v _ trivial) ?_
    rintro v r v' - ha feed rfl
    obtain ⟨ch, -, hserve⟩ := ha.serve
    obtain ⟨hrow, rfl⟩ := Prod.mk.inj (Option.some.inj hserve)
    exact hread ha.1 hrow
  refine hfind.bind (fun found w₂ h₂ => ?_) fun _ _ _ => trivial
  cases found with
  | none => trivial
  | some feed =>
    refine Meets.tryCatch (fetchJobBody_keeps hK houtside htransaction (h₂ feed rfl))
      (fun _ _ _ => trivial) ?_
    exact fun e w₃ _ => fetchJobFailure_keeps houtside feed e w₃

end Execute

end ProcessFeedJob

end Feedpulse
