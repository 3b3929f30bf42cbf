import Feedpulse.Frames
import Feedpulse.System

/-!
# The flag `sent` and the delivery status

An alert that is sent should say so in its delivery status. Four of the statements
that write `delivery_status` do not look at `sent`; `flagsConsistent_iff` says that a
run stays consistent precisely as long as none of them lands on a row that is sent,
and `manualSend_after_delivery` is a run in which one does: a manual send reads the
alert before the worker delivers it and writes afterwards.
-/

namespace Feedpulse

namespace System

open Transition

variable {d : Deployment} {s s' : System}

/-! ## The property and the offending step -/

/-- Every alert that is sent has the delivery status `sent`. -/
def FlagsConsistent (s : System) : Prop :=
  ∀ a ∈ s.world.alerts, a.sent = true → a.deliveryStatus = .sent

instance (s : System) : Decidable s.FlagsConsistent :=
  inferInstanceAs (Decidable (∀ a ∈ s.world.alerts, _))

/-- The step executes `markDeliveryQueued`, `markDeliveryDisabled`, `markDeliveryFailure` or
`markDeliveryRetryPending` on a row that is sent already. -/
def UnsettlesSentAlert (s : System) (a : Action) : Prop :=
  ∃ pid id w, s.executedCall a = some (pid, .alert (.write id w)) ∧ w.Unsettles ∧
    ∃ r ∈ s.world.alerts, r.id = id ∧ r.sent = true

/-! ## One step -/

/-- Staged alerts stay versions of rows, or fresh. -/
theorem stagedFresh_step {a : Action} (hs : s.world.StagedFresh)
    (h : step d s a = some s') : s'.world.StagedFresh := by
  rcases step_effect h with ⟨pid, c, ch, r, -, hc⟩ | ⟨-, hq⟩
  · exact World.stagedFresh_effect (serve_effect hc) hs
  · generalize s'.world = w' at hq
    cases hq with
    | dropTxn pid => exact World.staged_dropTxn hs
    | _ => exact hs

/-- Of a call, exactly an unsettling write on a sent row breaks the consistency of the
flags. -/
theorem consistent_serve {pid : Nat} {w w' : World} {ch : Choice} {c : Call} {a : c.Reply}
    (h : c.serve pid w ch = some (a, w')) (hfresh : w.StagedFresh)
    (hw : ∀ a ∈ w.alerts, a.sent = true → a.deliveryStatus = .sent) :
    (∀ a ∈ w'.alerts, a.sent = true → a.deliveryStatus = .sent) ↔
      ¬ ∃ id st, c = .alert (.write id st) ∧ st.Unsettles ∧
        ∃ r ∈ w.alerts, r.id = id ∧ r.sent = true := by
  constructor
  · rintro hw' ⟨id, st, rfl, hu, r, hr, hid, hsent⟩
    obtain rfl : w.writeAlert id st = w' := congrArg Prod.snd (Option.some.inj h)
    have hmem : st.apply w.now r ∈ (w.writeAlert id st).alerts :=
      Table.mem_updateWhere.mpr ⟨r, hr, by simp [hid]⟩
    have := hw' _ hmem (AlertWrite.sent_apply_of_sent _ _ _ hsent)
    exact (AlertWrite.apply_status_of_sent _ _ _ (hw r hr hsent)).mp this hu
  · intro hn
    cases serve_effect h with
    | writeAlert id st =>
      refine Table.forall_updateWhere hw fun r hr hid hrow hsent => ?_
      have hid : r.id = id := of_decide_eq_true hid
      rcases hrs : r.sent with _ | _
      · exact AlertWrite.apply_consistent_of_not_sent w.now st r hrs hsent
      · exact (AlertWrite.apply_status_of_sent w.now st r (hrow hrs)).mpr
          fun hu => hn ⟨id, st, rfl, hu, r, hr, hid, hrs⟩
    | converge c p => exact Table.forall_updateWhere hw fun r _ _ hrow => hrow
    | commit =>
      unfold World.commitTxn
      split
      · exact hw
      · rename_i t ht
        intro r hr hsent
        rcases World.mem_foldl_commitAlert hr with ⟨b, hb, rules, rfl⟩ | ⟨b, hb, hnew, rules, rfl⟩
        · exact hw b hb hsent
        · rcases hfresh _ (World.mem_of_txn ht) b hb with ⟨x, hx, hid⟩ | ⟨hf, -⟩
          · exact absurd hid (hnew x hx)
          · change b.sent = true at hsent
            rw [hf] at hsent
            cases hsent
    | _ => exact hw

/-- A step keeps the flags consistent exactly if it is not an offending one. -/
theorem consistent_step {a : Action} (hfresh : s.world.StagedFresh) (hs : s.FlagsConsistent)
    (h : step d s a = some s') : s'.FlagsConsistent ↔ ¬ s.UnsettlesSentAlert a := by
  rcases step_effect h with ⟨pid, c, ch, r, he, hc⟩ | ⟨he, hq⟩
  · refine (consistent_serve hc hfresh hs).trans (not_congr ?_)
    unfold UnsettlesSentAlert
    rw [he]
    constructor
    · rintro ⟨id, w, rfl, hw⟩
      exact ⟨pid, id, w, rfl, hw⟩
    · rintro ⟨_, id, w, hcall, hw⟩
      exact ⟨id, w, (Prod.mk.inj (Option.some.inj hcall)).2, hw⟩
  · refine iff_of_true ?_ ?_
    · unfold FlagsConsistent
      generalize s'.world = w' at hq
      cases hq <;> exact hs
    · rintro ⟨pid, id, w, hcall, -⟩
      rw [he] at hcall
      cases hcall

/-! ## Runs -/

/-- **The flags stay consistent exactly in the runs without an offending step.** -/
theorem flagsConsistent_iff {s₀ : System} (h₀ : s₀.Init) (as : List Action) :
    Always (step d) FlagsConsistent s₀ as ↔
      Along (step d) (fun s a _ => ¬ s.UnsettlesSentAlert a) s₀ as := by
  refine always_iff_along (fun _ _ _ hs h => stagedFresh_step hs h)
    (fun _ _ _ hfresh hs h => consistent_step hfresh hs h) ?_ ?_
  · intro p hp
    rw [h₀.txns] at hp
    cases hp
  · intro a ha
    rw [h₀.alerts] at ha
    cases ha

/-- The run that stores the article and hands its alert over. -/
theorem flagsConsistent_oneFeed :
    oneFeed.Init ∧ (Always (step webhookDeployment) FlagsConsistent oneFeed ingestArticle ↔
      Along (step webhookDeployment) (fun s a _ => ¬ s.UnsettlesSentAlert a) oneFeed
        ingestArticle) :=
  ⟨oneFeed_init, flagsConsistent_iff oneFeed_init ingestArticle⟩

/-- A manual send reads the alert; a worker delivers it; the send marks it queued. -/
def lateManualSend : List Action :=
  ingestArticle ++ .request 3 (.sendAlert 1 (some "t")) :: proceed 3 1 ++ deliverAlert 4 ++
    proceed 3 1

/-- **A manual send can overtake the delivery** and leave a sent alert queued. -/
theorem manualSend_after_delivery :
    oneFeed.Init ∧ ¬ Always (step webhookDeployment) FlagsConsistent oneFeed lateManualSend := by
  refine ⟨oneFeed_init, fun h => ?_⟩
  have hrun : ((run (step webhookDeployment) oneFeed lateManualSend).map
      fun s => decide s.FlagsConsistent) = some false := by decide
  obtain ⟨t, ht, hf⟩ := Option.map_eq_some_iff.mp hrun
  exact of_decide_eq_false hf (h.last ht)

end System

end Feedpulse
