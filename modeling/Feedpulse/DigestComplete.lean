import Feedpulse.DeliveryForward
import Feedpulse.DeliveryOnce
import Feedpulse.DigestHealing

/-!
# Which digests are complete

`queueTelegramDigestItems` inserts one item per chat, each by a statement of its own, while
sweeps flush whatever items there are. `digests_complete` says that the alerts that a run
converges have reached every chat exactly if, whenever one is converged, every chat it was
ever queued for has its item; and that this is so in every run in which no queueing is broken
off and none is overtaken by a flush of its own alert. `digest_chat_lost` is a run in which a
worker dies between two inserts, and the second chat never hears of the alert.
-/

namespace Feedpulse

open Transition

/-- The inserts of digest items that a program is about to make, alert and chat, in order. -/
def pendingInserts : Program Unit → List (Nat × String)
  | .call (.alert (.insertDigestItem _ alertId chatId _)) k =>
    (alertId, chatId) :: pendingInserts (k (.ok ()))
  | _ => []

/-- A program that is about to insert an item. -/
theorem pendingInserts_ne_nil {c : Call} {k : Except String c.Reply → Program Unit}
    (h : pendingInserts (.call c k) ≠ []) :
    ∃ tenantId alertId chatId scheduledFor,
      c = .alert (.insertDigestItem tenantId alertId chatId scheduledFor) := by
  unfold pendingInserts at h
  split at h
  · rename_i tenantId alertId chatId scheduledFor k' heq
    obtain ⟨rfl, -⟩ := Prog.call.inj heq
    exact ⟨tenantId, alertId, chatId, scheduledFor, rfl⟩
  · exact absurd rfl h

namespace World

/-- The alert has an item for the chat. -/
def Itemized (w : World) (x : Nat × String) : Prop :=
  ∃ i ∈ w.digestItems, i.alertId = x.1 ∧ i.chatId = x.2

/-- The digest with the alert has gone out to the chat. -/
def Reached (w : World) (x : Nat × String) : Prop :=
  ∃ i ∈ w.digestItems, i.alertId = x.1 ∧ i.chatId = x.2 ∧ i.sentAt ≠ none

instance (w : World) (x : Nat × String) : Decidable (w.Itemized x) :=
  inferInstanceAs (Decidable (∃ i ∈ w.digestItems, _))

instance (w : World) (x : Nat × String) : Decidable (w.Reached x) :=
  inferInstanceAs (Decidable (∃ i ∈ w.digestItems, _))

/-- Items are not lost. -/
theorem Itemized.forward {w w' : World} {x : Nat × String} (h : w.Itemized x)
    (hw : w.Forward w') : w'.Itemized x := by
  obtain ⟨i, hi, halert, hchat⟩ := h
  obtain ⟨j, hj, hij⟩ := hw.2.exists_of_mem hi
  exact ⟨j, hj, hij.alertId.trans halert, hij.chatId.trans hchat⟩

/-- An insert leaves an item, be it the one that was there. -/
theorem itemized_insertDigestItem (w : World) (tenantId : String) (alertId : Nat)
    (chatId : String) (scheduledFor : Nat) :
    (w.insertDigestItem tenantId alertId chatId scheduledFor).Itemized (alertId, chatId) := by
  unfold insertDigestItem
  split
  · rename_i h
    obtain ⟨i, hi, hkey⟩ := List.any_eq_true.mp h
    simp only [Bool.and_eq_true, decide_eq_true_eq] at hkey
    exact ⟨i, hi, hkey⟩
  · exact ⟨_, List.mem_append_right _ (List.mem_singleton_self _), rfl, rfl⟩

end World

/-- The statement makes the Telegram channel of the alert delivered: it flushes a digest, or
reconciles, and its `WHERE` clause holds of the row. -/
def Call.converges (items : List DigestItemRow) (r : AlertRow) : Call → Bool
  | .alert (.convergeTelegram alertId) => World.converges items alertId r
  | .alert .reconcileTelegram => World.reconciles items r
  | _ => false

namespace System

variable {d : Deployment} {s s' : System}

/-- The alerts whose Telegram channel a step makes delivered, as the flush of a digest or as a
reconciliation. -/
def convergedAlerts (s : System) (a : Action) : List Nat :=
  ((s.executedCall a).map fun x =>
    (s.world.alerts.filter fun r => x.2.converges s.world.digestItems r).map AlertRow.id).getD []

/-- An alert is converged when all its items are sent, and the items stay as they are. -/
theorem allSent_of_converged {a : Action} {id : Nat} (hid : id ∈ s.convergedAlerts a)
    (h : step d s a = some s') :
    World.AllSent s.world.digestItems id ∧ s'.world.digestItems = s.world.digestItems := by
  rcases step_effect h with ⟨pid, c, ch, reply, he, hs⟩ | ⟨hn, -⟩
  · rw [convergedAlerts, he] at hid
    obtain ⟨r, hr, rfl⟩ := List.mem_map.mp hid
    have hconv : c.converges s.world.digestItems r = true := (List.mem_filter.mp hr).2
    cases c with
    | alert c =>
      cases c with
      | convergeTelegram alertId =>
        have hw : (s.world.convergeTelegram alertId).2 = s'.world :=
          congrArg Prod.snd (Option.some.inj hs)
        simp only [Call.converges, World.converges, Bool.and_eq_true, Bool.not_eq_true'] at hconv
        refine ⟨World.hasUnsentItem_eq_false.mp hconv.2, ?_⟩
        rw [← hw]
        rfl
      | reconcileTelegram =>
        have hw : s.world.reconcileTelegram.2 = s'.world := congrArg Prod.snd (Option.some.inj hs)
        simp only [Call.converges, World.reconciles, Bool.and_eq_true, Bool.not_eq_true'] at hconv
        refine ⟨World.hasUnsentItem_eq_false.mp hconv.2, ?_⟩
        rw [← hw]
        rfl
      | _ => cases hconv
    | _ => cases hconv
  · rw [convergedAlerts, hn] at hid
    cases hid

end System

/-- The system, with the chats that alerts have been queued for. -/
structure Queueing where
  /-- the system -/
  sys : System
  /-- the alerts and chats of the lists passed to `queueTelegramDigestItems` so far -/
  passed : List (Nat × String)

namespace Queueing

variable {d : Deployment} {t t' : Queueing}

/-- What a step passes to `queueTelegramDigestItems`: a process has got the answer after which
it inserts the items. -/
def passedBy (s' : System) : Action → List (Nat × String)
  | .advance pid _ => ((s'.procs pid).map fun p => pendingInserts p.prog).getD []
  | _ => []

/-- A step of the system, with what it passes to `queueTelegramDigestItems`. -/
def step (d : Deployment) (t : Queueing) (a : Action) : Option Queueing :=
  (System.step d t.sys a).map fun s' => { sys := s', passed := t.passed ++ passedBy s' a }

/-- Every alert that the step converges has reached all chats it was queued for. -/
def Complete (t : Queueing) (a : Action) (t' : Queueing) : Prop :=
  ∀ id ∈ t.sys.convergedAlerts a, ∀ x ∈ t.passed, x.1 = id → t'.sys.world.Reached x

/-- Every insert for an alert that the step converges has taken effect. -/
def Inserted (t : Queueing) (a : Action) : Prop :=
  ∀ id ∈ t.sys.convergedAlerts a, ∀ x ∈ t.passed, x.1 = id → t.sys.world.Itemized x

instance (t : Queueing) (a : Action) (t' : Queueing) : Decidable (t.Complete a t') :=
  inferInstanceAs (Decidable (∀ id ∈ t.sys.convergedAlerts a, _))

instance (t : Queueing) (a : Action) : Decidable (t.Inserted a) :=
  inferInstanceAs (Decidable (∀ id ∈ t.sys.convergedAlerts a, _))

/-- The step breaks no queueing off and overtakes none. -/
structure Unbroken (t : Queueing) (a : Action) : Prop where
  /-- no process dies between its inserts -/
  crash : ∀ pid p, a = .crash pid → t.sys.procs pid = some p → pendingInserts p.prog = []
  /-- no insert fails -/
  insert : ∀ pid out p, a = .advance pid out → t.sys.procs pid = some p →
    pendingInserts p.prog ≠ [] → ∃ ch, out = .ok ch
  /-- no alert is converged while items of it are being inserted -/
  overtake : ∀ id ∈ t.sys.convergedAlerts a, ∀ pid p, t.sys.procs pid = some p →
    ∀ x ∈ pendingInserts p.prog, x.1 ≠ id

/-- Every chat an alert was queued for has its item, or a process is about to insert it. -/
def Accounted (t : Queueing) : Prop :=
  ∀ x ∈ t.passed, t.sys.world.Itemized x ∨
    ∃ pid p, t.sys.procs pid = some p ∧ x ∈ pendingInserts p.prog

theorem step_eq_some {a : Action} (h : step d t a = some t') :
    System.step d t.sys a = some t'.sys ∧ t'.passed = t.passed ++ passedBy t'.sys a := by
  obtain ⟨s', hs, rfl⟩ := Option.map_eq_some_iff.mp h
  exact ⟨hs, rfl⟩

/-- The next insert of a queueing takes effect, and the others are left. -/
theorem pending_advance {s s' : System} {pid : Nat} {ch : Choice} {p : Process}
    (h : System.step d s (.advance pid (.ok ch)) = some s') (hp : s.procs pid = some p)
    {x : Nat × String} (hx : x ∈ pendingInserts p.prog) :
    s'.world.Itemized x ∨ ∃ q, s'.procs pid = some q ∧ x ∈ pendingInserts q.prog := by
  obtain ⟨role, c, k, r, w, hp', ha, rfl⟩ := System.advance_eq_some h
  obtain rfl := Option.some.inj (hp.symm.trans hp')
  obtain ⟨⟨reply, w'⟩, hs, he⟩ := Option.map_eq_some_iff.mp ha
  obtain ⟨rfl, rfl⟩ := Prod.mk.inj he
  obtain ⟨tenantId, alertId, chatId, scheduledFor, rfl⟩ :=
    pendingInserts_ne_nil (List.ne_nil_of_mem hx)
  have hw : s.world.insertDigestItem tenantId alertId chatId scheduledFor = w' :=
    congrArg Prod.snd (Option.some.inj hs)
  rcases List.mem_cons.mp hx with rfl | hx
  · exact .inl (hw ▸ s.world.itemized_insertDigestItem tenantId alertId chatId scheduledFor)
  · exact .inr ⟨⟨role, k (.ok ())⟩, System.setProc_self .., hx⟩

/-- An insert that was about to be made has been made, or is still about to be made. -/
theorem pending_step {a : Action} (h : System.step d t.sys a = some t'.sys) (hu : t.Unbroken a)
    {pid : Nat} {p : Process} (hp : t.sys.procs pid = some p) {x : Nat × String}
    (hx : x ∈ pendingInserts p.prog) :
    t'.sys.world.Itemized x ∨ ∃ q, t'.sys.procs pid = some q ∧ x ∈ pendingInserts q.prog := by
  have hkeep : t'.sys.procs pid = t.sys.procs pid →
      t'.sys.world.Itemized x ∨ ∃ q, t'.sys.procs pid = some q ∧ x ∈ pendingInserts q.prog :=
    fun he => .inr ⟨p, he.trans hp, hx⟩
  -- a process that starts takes a free id
  have hfree : ∀ {q : Nat}, t.sys.procs q = none → pid ≠ q := by
    rintro q hq rfl
    rw [hp] at hq
    cases hq
  generalize t'.sys = s' at h hkeep ⊢
  cases a with
  | tick q =>
    obtain ⟨hq, rfl⟩ := System.start_eq_some h
    exact hkeep (System.setProc_of_ne (hfree hq))
  | request q r =>
    obtain ⟨hq, rfl⟩ := System.start_eq_some h
    exact hkeep (System.setProc_of_ne (hfree hq))
  | takeFetch q jobId =>
    obtain ⟨job, queue, -, hq, rfl⟩ := System.takeFetch_eq_some h
    exact hkeep (System.setProc_of_ne (hfree hq))
  | takeDelivery q jobId =>
    obtain ⟨job, queue, -, hq, rfl⟩ := System.takeDelivery_eq_some h
    exact hkeep (System.setProc_of_ne (hfree hq))
  | advance q out =>
    by_cases hpid : pid = q
    · subst hpid
      obtain ⟨ch, rfl⟩ := hu.insert pid out p rfl hp (List.ne_nil_of_mem hx)
      exact pending_advance h hp hx
    · obtain ⟨role, c, k, r, w, -, -, rfl⟩ := System.advance_eq_some h
      exact hkeep (System.setProc_of_ne hpid)
  | finish q =>
    obtain ⟨role, prog, hq, ⟨rfl, rfl⟩ | ⟨e, rfl, rfl⟩⟩ := System.finish_eq_some h
    all_goals
      by_cases hpid : pid = q
      · subst hpid
        obtain rfl := Option.some.inj (hp.symm.trans hq)
        cases hx
      · exact hkeep (System.setProc_of_ne hpid)
  | crash q =>
    obtain ⟨p', hq, rfl⟩ := System.crash_eq_some h
    by_cases hpid : pid = q
    · subst hpid
      rw [hu.crash pid p rfl hp] at hx
      cases hx
    · exact hkeep (System.setProc_of_ne hpid)
  | elapse ms =>
    obtain rfl := Option.some.inj h
    exact hkeep rfl
  | saveSettings row =>
    obtain rfl := Option.some.inj h
    exact hkeep rfl
  | _ =>
    obtain ⟨queue, -, rfl⟩ := Option.map_eq_some_iff.mp h
    exact hkeep rfl

/-- **Nothing is forgotten** unless a queueing is broken off. -/
theorem accounted_step {a : Action} (h : step d t a = some t') (hu : t.Unbroken a)
    (ht : t.Accounted) : t'.Accounted := by
  obtain ⟨hs, hpassed⟩ := step_eq_some h
  intro x hx
  rw [hpassed] at hx
  rcases List.mem_append.mp hx with hx | hx
  · rcases ht x hx with hitem | ⟨pid, p, hp, hpending⟩
    · exact .inl (hitem.forward (System.forward_step hs))
    · rcases pending_step hs hu hp hpending with hitem | ⟨q, hq, hxq⟩
      · exact .inl hitem
      · exact .inr ⟨pid, q, hq, hxq⟩
  · -- the list that was passed on just now
    cases a with
    | advance pid out =>
      change x ∈ ((t'.sys.procs pid).map fun p => pendingInserts p.prog).getD [] at hx
      rcases hp : t'.sys.procs pid with _ | p
      · rw [hp] at hx
        cases hx
      · rw [hp] at hx
        exact .inr ⟨pid, p, hp, hx⟩
    | _ => cases hx

/-- Where nothing is forgotten, an alert that is not overtaken has all its items. -/
theorem Accounted.inserted {a : Action} (ht : t.Accounted) (hu : t.Unbroken a) :
    t.Inserted a := by
  intro id hc x hx hid
  rcases ht x hx with hitem | ⟨pid, p, hp, hpending⟩
  · exact hitem
  · exact absurd hid (hu.overtake id hc pid p hp x hpending)

/-- A convergence is complete exactly if every insert for its alert has taken effect. -/
theorem complete_iff {a : Action} (h : step d t a = some t') : t.Complete a t' ↔ t.Inserted a := by
  obtain ⟨hs, -⟩ := step_eq_some h
  refine forall_congr' fun id => forall_congr' fun hc => forall_congr' fun x =>
    imp_congr_right fun _ => forall_congr' fun hid => ?_
  obtain ⟨hsent, hitems⟩ := System.allSent_of_converged hc hs
  unfold World.Reached World.Itemized
  rw [hitems]
  constructor
  · rintro ⟨i, hi, halert, hchat, -⟩
    exact ⟨i, hi, halert, hchat⟩
  · rintro ⟨i, hi, halert, hchat⟩
    exact ⟨i, hi, halert, hchat, hsent i hi (halert.trans hid)⟩

/-- **When digests are complete.** The alerts a run converges have reached every chat they
were queued for exactly if no insert is missing when they are converged; none is missing if no
queueing is broken off or overtaken. -/
theorem digests_complete (s : System) (as : List Action) :
    (Along (step d) (fun t a t' => t.Complete a t') ⟨s, []⟩ as ↔
        Along (step d) (fun t a _ => t.Inserted a) ⟨s, []⟩ as) ∧
      (Along (step d) (fun t a _ => t.Unbroken a) ⟨s, []⟩ as →
        Along (step d) (fun t a t' => t.Complete a t') ⟨s, []⟩ as) := by
  have hiff : ∀ {t : Queueing}, Along (step d) (fun t a t' => t.Complete a t') t as ↔
      Along (step d) (fun t a _ => t.Inserted a) t as := by
    intro t
    refine along_congr (fun _ => True) (fun _ _ _ _ _ => trivial) ?_ trivial
    intro t a t' _ h
    exact complete_iff h
  refine ⟨hiff, fun hunbroken => hiff.mpr ?_⟩
  -- as long as nothing is broken off, every list is accounted for
  have hstart : Accounted ⟨s, []⟩ := fun x hx => by cases hx
  have hall := always_of_along (fun _ _ _ ht h hu => accounted_step h hu ht) hstart hunbroken
  have hboth := hunbroken.and (hall.along (C := fun t _ _ => t.Accounted) fun _ _ _ ht _ => ht)
  exact hboth.mono (J := fun _ => True) (fun _ _ _ _ _ => trivial)
    (fun _ _ _ _ _ h => h.2.inserted h.1) trivial

/-! ## Two chats -/

/-- A tenant with two chats gets a digest of its alert; a worker takes the delivery job and is
about to insert the items. -/
def takeDigestAlert : List Action :=
  .saveSettings { Traced.chatRow with telegramDeliveryMode := .digest10m } ::
    System.ingestArticle ++ .takeDelivery 3 "alert-1" :: System.proceed 3 3

/-- Ten minutes later a sweep sends the digest of a chat. -/
def sweepChat (pid : Nat) (chatId : String) : List Action :=
  .tick pid :: System.proceed pid 3 ++ [.advance pid (.ok (.claim [] [] []))] ++
    System.proceed pid 3 ++
    [.advance pid (.ok (.groups [{ tenantId := "t", chatId := chatId, earliest := 1200000 }]))] ++
    System.proceed pid 5

/-- Both items are inserted, and both digests go out. -/
theorem digests_complete_twoChats :
    Along (step Traced.chatDeployment) (fun t a t' => t.Complete a t') ⟨System.oneFeed, []⟩
      (takeDigestAlert ++ System.proceed 3 2 ++ .elapse 600000 ::
        .tick 4 :: System.proceed 4 3 ++ [.advance 4 (.ok (.claim [] [] []))] ++
        System.proceed 4 3 ++
        [.advance 4 (.ok (.groups [
          { tenantId := "t", chatId := "100", earliest := 1200000 },
          { tenantId := "t", chatId := "200", earliest := 1200000 }]))] ++ System.proceed 4 10) :=
  (digests_complete _ _).1.mpr (by decide +kernel)

/-- **A chat never hears of the alert**: the worker dies between the two inserts, the sweep
sends the only item there is, and the channel counts as delivered. -/
theorem digest_chat_lost :
    System.oneFeed.Init ∧
      ¬ Along (step Traced.chatDeployment) (fun t a t' => t.Complete a t') ⟨System.oneFeed, []⟩
        (takeDigestAlert ++ System.proceed 3 1 ++ [.crash 3, .elapse 600000] ++
          sweepChat 4 "100") :=
  ⟨System.oneFeed_init, by decide +kernel⟩

end Queueing

end Feedpulse
