import Feedpulse.DeliveryForward
import Feedpulse.DeliveryFlags

/-!
# The counter of sent alerts

A worker counts an alert when `markSent` reports its first successful delivery. The statement
behind it reports every row it finds, so that a second delivery is counted again.
`counted_once` says when no alert is counted twice: as long as no `markSent` is answered for an
alert that is sent already; `counted_twice` is a run in which two workers overlap.
-/

namespace Feedpulse

open Transition

namespace System

/-- The alert whose first successful delivery the step reports: `markSent` returns `true`, for a
row with the id was updated. -/
def reportsFirst (s : System) : Action → Option Nat
  | .advance pid (.ok _) =>
    match s.procs pid with
    | some ⟨_, .call (.alert (.write id (.markSent _))) _⟩ =>
      if 0 < s.world.alerts.countP fun a => a.id = id then some id else none
    | _ => none
  | _ => none

/-- The step reports the first delivery of an alert that is sent already. -/
def ReportsAgain (s : System) (a : Action) : Prop :=
  ∃ id ∈ s.reportsFirst a, ∃ r ∈ s.world.alerts, r.id = id ∧ r.sent = true

instance (s : System) (a : Action) : Decidable (s.ReportsAgain a) :=
  inferInstanceAs (Decidable (∃ id ∈ s.reportsFirst a, _))

/-- The step executes a `markSent` whose answer is lost. -/
def LosesMark (s : System) (a : Action) : Prop :=
  ∃ pid id attemptNumber ch error,
    s.executedCall a = some (pid, .alert (.write id (.markSent attemptNumber))) ∧
      a = .advance pid (.lost ch error)

variable {d : Deployment} {s s' : System}

/-- `markSent` asks how many rows it has updated. -/
theorem markSent_eq (id attemptNumber : Nat) :
    AlertsRepository.markSent id attemptNumber =
      alertCall (.write id (.markSent attemptNumber)) >>= fun rowCount =>
        pure (decide (0 < (rowCount : Nat))) := rfl

/-- Inversion for `reportsFirst`: the alert is there, and the step marks it sent. -/
theorem reportsFirst_eq_some {a : Action} {id : Nat} (hr : s.reportsFirst a = some id)
    (h : step d s a = some s') :
    (∃ r ∈ s.world.alerts, r.id = id) ∧
      ∃ attemptNumber, s'.world = s.world.writeAlert id (.markSent attemptNumber) := by
  cases a with
  | advance pid out =>
    obtain ⟨role, c, k, r, w, hp, ha, rfl⟩ := advance_eq_some h
    cases out with
    | ok ch =>
      simp only [reportsFirst, hp] at hr
      split at hr
      · rename_i heq
        obtain ⟨-, hcall⟩ := Process.mk.inj (Option.some.inj heq)
        cases hcall
        split at hr
        · rename_i hcount
          obtain rfl := Option.some.inj hr
          obtain ⟨r, hr, hid⟩ := List.countP_pos_iff.mp hcount
          cases ha
          exact ⟨⟨r, hr, of_decide_eq_true hid⟩, _, rfl⟩
        · cases hr
      · cases hr
    | _ => cases hr
  | _ => cases hr

end System

/-! ## Counting along a run -/

/-- A state of the system with the increments of `rss_alerts_sent_total` for each alert. -/
structure Counted where
  /-- the state -/
  system : System
  /-- the increments -/
  alertsSent : Nat → Nat

namespace Counted

variable {d : Deployment} {x x' : Counted}

/-- One step, counted. -/
def step (d : Deployment) (x : Counted) (a : Action) : Option Counted :=
  (System.step d x.system a).map fun s' =>
    { system := s'
      alertsSent :=
        match x.system.reportsFirst a with
        | some id => Function.update x.alertsSent id (x.alertsSent id + 1)
        | none => x.alertsSent }

/-- No alert has been counted more than once. -/
def CountsOnce (x : Counted) : Prop := ∀ id, x.alertsSent id ≤ 1

/-- Every alert that was counted is sent. -/
def CountsSent (x : Counted) : Prop :=
  ∀ id, 0 < x.alertsSent id → ∃ r ∈ x.system.world.alerts, r.id = id ∧ r.sent = true

/-- Inversion for `step`: an alert is counted, or none. -/
theorem step_cases {a : Action} (h : step d x a = some x') :
    System.step d x.system a = some x'.system ∧
      ((∃ id, x.system.reportsFirst a = some id ∧
          x'.alertsSent = Function.update x.alertsSent id (x.alertsSent id + 1)) ∨
        (x.system.reportsFirst a = none ∧ x'.alertsSent = x.alertsSent)) := by
  obtain ⟨s', hs', rfl⟩ := Option.map_eq_some_iff.mp h
  refine ⟨hs', ?_⟩
  rcases hr : x.system.reportsFirst a with _ | id
  · exact .inr ⟨rfl, rfl⟩
  · exact .inl ⟨id, rfl, rfl⟩

/-- **A counted alert stays sent.** -/
theorem countsSent_step {a : Action} (hx : x.CountsSent) (h : step d x a = some x') :
    x'.CountsSent := by
  obtain ⟨hs, hcases⟩ := step_cases h
  have hkeep : ∀ id, (∃ r ∈ x.system.world.alerts, r.id = id ∧ r.sent = true) →
      ∃ r ∈ x'.system.world.alerts, r.id = id ∧ r.sent = true := by
    rintro id ⟨r, hr, hid, hsent⟩
    obtain ⟨r', hr', hforward⟩ := (System.forward_step hs).1.exists_of_mem hr
    exact ⟨r', hr', hforward.id.trans hid, hforward.sent hsent⟩
  intro id hpos
  rcases hcases with ⟨id', hreport, halerts⟩ | ⟨-, halerts⟩
  · by_cases hid : id = id'
    · subst hid
      obtain ⟨⟨r, hr, hid⟩, attemptNumber, hw⟩ := System.reportsFirst_eq_some hreport hs
      rw [hw]
      refine ⟨AlertWrite.apply x.system.world.now (.markSent attemptNumber) r,
        Table.mem_updateWhere.mpr ⟨r, hr, by simp [hid]⟩, ?_, rfl⟩
      exact (AlertWrite.apply_id _ _ r).trans hid
    · rw [halerts, Function.update_of_ne hid] at hpos
      exact hkeep id (hx id hpos)
  · rw [halerts] at hpos
    exact hkeep id (hx id hpos)

/-- **A step counts no alert twice** unless it reports one that is sent already. -/
theorem countsOnce_step {a : Action} (hx : x.CountsOnce) (hsent : x.CountsSent)
    (ha : ¬ x.system.ReportsAgain a) (h : step d x a = some x') : x'.CountsOnce := by
  obtain ⟨hs, ⟨id', hreport, halerts⟩ | ⟨-, halerts⟩⟩ := step_cases h
  · intro id
    by_cases hid : id = id'
    · subst hid
      have hzero : x.alertsSent id = 0 := by
        by_contra hne
        exact ha ⟨id, hreport, hsent id (Nat.pos_of_ne_zero hne)⟩
      rw [halerts, Function.update_self, hzero]
    · rw [halerts, Function.update_of_ne hid]
      exact hx id
  · intro id
    rw [halerts]
    exact hx id

/-! ## The other direction -/

/-- Every alert that is sent was counted. -/
def SentCounted (x : Counted) : Prop :=
  ∀ r ∈ x.system.world.alerts, r.sent = true → 0 < x.alertsSent r.id

end Counted

namespace AlertWrite

/-- Only `markSent` sets `sent`. -/
theorem sent_of_apply {now : Nat} {st : AlertWrite} {a : AlertRow}
    (h : (st.apply now a).sent = true) :
    a.sent = true ∨ ∃ attemptNumber, st = .markSent attemptNumber := by
  cases st with
  | markSent attemptNumber => exact .inr ⟨attemptNumber, rfl⟩
  | markChannelFailed channel =>
    refine .inl ?_
    simp only [apply] at h
    split at h
    · exact h
    · simpa using h
  | _ =>
    refine .inl ?_
    simpa [apply] using h

end AlertWrite

namespace Counted

variable {d : Deployment} {x x' : Counted}

/-- The rows that are sent after a call were so before, or are those of a `markSent`. -/
theorem sent_of_serve {pid : Nat} {w w' : World} {ch : Choice} {c : Call} {a : c.Reply}
    (h : c.serve pid w ch = some (a, w')) (hfresh : w.StagedFresh) :
    ∀ r' ∈ w'.alerts, r'.sent = true →
      (∃ r ∈ w.alerts, r.id = r'.id ∧ r.sent = true) ∨
        ∃ attemptNumber, c = .alert (.write r'.id (.markSent attemptNumber)) := by
  cases serve_effect h with
  | writeAlert id st =>
    intro r' hr' hsent
    obtain ⟨r, hr, rfl⟩ := Table.mem_updateWhere.mp hr'
    split at hsent
    · rename_i hid
      rw [if_pos hid]
      have hid : r.id = id := of_decide_eq_true hid
      rcases AlertWrite.sent_of_apply hsent with hsent | ⟨attemptNumber, rfl⟩
      · exact .inl ⟨r, hr, (AlertWrite.apply_id _ _ r).symm, hsent⟩
      · refine .inr ⟨attemptNumber, ?_⟩
        rw [AlertWrite.apply_id, hid]
    · rename_i hid
      rw [if_neg hid]
      exact .inl ⟨r, hr, rfl, hsent⟩
  | converge c p =>
    intro r' hr' hsent
    obtain ⟨r, hr, rfl⟩ := Table.mem_updateWhere.mp hr'
    refine .inl ⟨r, hr, ?_, ?_⟩
    · split <;> rfl
    · split at hsent <;> exact hsent
  | commit =>
    unfold World.commitTxn
    split
    · exact fun r hr hsent => .inl ⟨r, hr, rfl, hsent⟩
    · rename_i t ht
      intro r' hr' hsent
      rcases World.mem_foldl_commitAlert hr' with ⟨b, hb, rules, rfl⟩ | ⟨b, hb, hnew, rules, rfl⟩
      · exact .inl ⟨b, hb, rfl, hsent⟩
      · rcases hfresh _ (World.mem_of_txn ht) b hb with ⟨y, hy, hid⟩ | ⟨hf, -⟩
        · exact absurd hid (hnew y hy)
        · change b.sent = true at hsent
          rw [hf] at hsent
          cases hsent
  | _ => exact fun r hr hsent => .inl ⟨r, hr, rfl, hsent⟩

/-- What is sent is counted, as long as no answer is lost. -/
theorem sentCounted_step {a : Action} (hfresh : x.system.world.StagedFresh) (hx : x.SentCounted)
    (ha : ¬ x.system.LosesMark a) (h : step d x a = some x') : x'.SentCounted := by
  obtain ⟨hs, hcases⟩ := step_cases h
  have hmono : ∀ id, 0 < x.alertsSent id → 0 < x'.alertsSent id := by
    intro id hpos
    rcases hcases with ⟨id', -, halerts⟩ | ⟨-, halerts⟩
    · by_cases hid : id = id'
      · subst hid
        rw [halerts, Function.update_self]
        omega
      · rwa [halerts, Function.update_of_ne hid]
    · rwa [halerts]
  intro r' hr' hsent
  rcases System.step_effect hs with ⟨pid, c, ch, r, hexec, hserve⟩ | ⟨hexec, hq⟩
  · rcases sent_of_serve hserve hfresh r' hr' hsent with ⟨r, hr, hid, hsent⟩ | ⟨n, rfl⟩
    · exact hmono _ (hid ▸ hx r hr hsent)
    · -- the answer of the `markSent` arrives, and the row is counted
      obtain ⟨out, role, k, rfl, hp⟩ := System.executedCall_eq_some hexec
      have hrow : ∃ r ∈ x.system.world.alerts, r.id = r'.id := by
        have hw : x.system.world.writeAlert r'.id (.markSent n) = x'.system.world :=
          congrArg Prod.snd (Option.some.inj hserve)
        rw [← hw] at hr'
        obtain ⟨r, hr, heq⟩ := Table.mem_updateWhere.mp hr'
        refine ⟨r, hr, ?_⟩
        split at heq
        · exact (AlertWrite.apply_id _ _ r).symm.trans (congrArg AlertRow.id heq.symm)
        · exact congrArg AlertRow.id heq.symm
      have hreport : x.system.reportsFirst (.advance pid out) = some r'.id := by
        cases out with
        | ok ch =>
          have hcount : 0 < x.system.world.alerts.countP fun a => a.id = r'.id := by
            obtain ⟨r, hr, hid⟩ := hrow
            exact List.countP_pos_iff.mpr ⟨r, hr, decide_eq_true hid⟩
          simp only [System.reportsFirst, hp, hcount, if_true]
        | refused error => simp [System.executedCall, hp, Outcome.takesEffect] at hexec
        | lost ch error => exact absurd ⟨pid, r'.id, n, ch, error, hexec, rfl⟩ ha
      rcases hcases with ⟨id, hid, halerts⟩ | ⟨hnone, -⟩
      · obtain rfl := Option.some.inj (hreport.symm.trans hid)
        rw [halerts, Function.update_self]
        omega
      · cases hnone.symm.trans hreport
  · have halerts : x'.system.world.alerts = x.system.world.alerts := by
      generalize x'.system.world = w' at hq
      cases hq <;> rfl
    exact hmono _ (hx r' (halerts ▸ hr') hsent)

/-- If no answer is lost, an alert that is reported again is counted twice. -/
theorem not_reportsAgain {a : Action} (hx : x.SentCounted) (honce : x'.CountsOnce)
    (h : step d x a = some x') : ¬ x.system.ReportsAgain a := by
  rintro ⟨id, hreport, r, hr, rfl, hsent⟩
  obtain ⟨-, ⟨id', hid, halerts⟩ | ⟨hnone, -⟩⟩ := step_cases h
  · obtain rfl := Option.some.inj (hreport.symm.trans hid)
    have hcounted := hx r hr hsent
    have htwice := honce r.id
    rw [halerts, Function.update_self] at htwice
    omega
  · cases hnone.symm.trans hreport

/-! ## Runs -/

/-- Before anything has run. -/
def initial (s : System) : Counted := { system := s, alertsSent := fun _ => 0 }

/-- **No alert is counted twice in a run that never reports a sent alert again**, and in a run
without lost answers only then. -/
theorem counted_once {s₀ : System} (h₀ : s₀.Init) (as : List Action) :
    (Along (step d) (fun x a _ => ¬ x.system.ReportsAgain a) (initial s₀) as →
      Always (step d) CountsOnce (initial s₀) as) ∧
    (Along (step d) (fun x a _ => ¬ x.system.LosesMark a) (initial s₀) as →
      Always (step d) CountsOnce (initial s₀) as →
        Along (step d) (fun x a _ => ¬ x.system.ReportsAgain a) (initial s₀) as) := by
  have honce : (initial s₀).CountsOnce := fun id => Nat.zero_le 1
  refine ⟨fun hnever => ?_, fun hkept halways => ?_⟩
  · refine (always_of_along (I := fun x => x.CountsOnce ∧ x.CountsSent) ?_ ⟨honce, ?_⟩
      hnever).mono fun x hx => hx.1
    · rintro x a x' ⟨hx, hsent⟩ h ha
      exact ⟨countsOnce_step hx hsent ha h, countsSent_step hsent h⟩
    · intro id hpos
      cases hpos
  · have hinv : Always (step d) (fun x => x.CountsOnce ∧ x.SentCounted ∧
        x.system.world.StagedFresh) (initial s₀) as := by
      refine always_of_along ?_ ⟨honce, ?_, ?_⟩
        (hkept.and (halways.along_next (C := fun _ _ x' => x'.CountsOnce)
          fun _ _ _ _ honce' _ => honce'))
      · rintro x a x' ⟨-, hx, hfresh⟩ h ⟨ha, honce'⟩
        exact ⟨honce', sentCounted_step hfresh hx ha h,
          System.stagedFresh_step hfresh (step_cases h).1⟩
      · intro r hr
        change r ∈ s₀.world.alerts at hr
        rw [h₀.alerts] at hr
        cases hr
      · intro p hp
        change p ∈ s₀.world.txns at hp
        rw [h₀.txns] at hp
        cases hp
    exact hinv.along_next fun x a x' hx hx' h => not_reportsAgain hx.2.1 hx'.1 h

/-- One worker delivers the alert of an article. -/
theorem counted_once_oneFeed :
    System.oneFeed.Init ∧
      Along (step System.webhookDeployment) (fun x a _ => ¬ x.system.ReportsAgain a)
        (initial System.oneFeed) (System.ingestArticle ++ System.deliverAlert 3) ∧
      Always (step System.webhookDeployment) CountsOnce (initial System.oneFeed)
        (System.ingestArticle ++ System.deliverAlert 3) := by
  have hnever : Along (step System.webhookDeployment) (fun x a _ => ¬ x.system.ReportsAgain a)
      (initial System.oneFeed) (System.ingestArticle ++ System.deliverAlert 3) := by
    decide +kernel
  exact ⟨System.oneFeed_init, hnever, (counted_once System.oneFeed_init _).1 hnever⟩

/-- A worker has read the alert when it loses the lock of its job; another one delivers the
alert, and then so does the first. -/
def overlappingWorkers : List Action :=
  System.ingestArticle ++ .takeDelivery 3 "alert-1" :: System.proceed 3 2 ++
    [.stallDelivery "alert-1"] ++ System.deliverAlert 4 ++ System.proceed 3 4

/-- **Two workers that overlap count the alert twice.** -/
theorem counted_twice :
    System.oneFeed.Init ∧
      ¬ Always (step System.webhookDeployment) CountsOnce (initial System.oneFeed)
        overlappingWorkers := by
  refine ⟨System.oneFeed_init, fun h => ?_⟩
  have hrun : (run (step System.webhookDeployment) (initial System.oneFeed)
      overlappingWorkers).map (fun x => x.alertsSent 1) = some 2 := by decide +kernel
  obtain ⟨x, hx, hcount⟩ := Option.map_eq_some_iff.mp hrun
  have honce := h.last hx 1
  omega

end Counted

end Feedpulse
