import Feedpulse.DeliveryReach

/-!
# Alerts that wait for a worker

An alert whose status is `queued` or `retrying` waits for a worker. An alert starts to wait by a
write only (`awaits_of_effect`), and an attempt that is under way stops it, whatever the other
processes do to its row: `UnderWay.answer` follows the attempt from one call to the next.
-/

namespace Feedpulse

open Prog

/-- The alert waits for a worker. -/
def DeliveryStatus.Awaiting (s : DeliveryStatus) : Prop := s = .queued ∨ s = .retrying

instance : DecidablePred DeliveryStatus.Awaiting := fun s =>
  inferInstanceAs (Decidable (s = .queued ∨ s = .retrying))

theorem DeliveryStatus.not_awaiting_of_settled {s : DeliveryStatus} (h : s.Settled) :
    ¬ s.Awaiting := by
  rintro (rfl | rfl) <;> exact h.elim

/-- The statements after which an alert may wait for a worker. -/
def AlertWrite.Announces : AlertWrite → Bool
  | .markDeliveryQueued => true
  | s => s.Retries

/-- Only those statements make an alert wait. -/
theorem AlertWrite.awaiting_apply {now : Nat} {s : AlertWrite} {a : AlertRow}
    (h : (s.apply now a).deliveryStatus.Awaiting) :
    a.deliveryStatus.Awaiting ∨ s.Announces = true := by
  cases s with
  | markDeliveryQueued => exact .inr rfl
  | markDeliveryRetryPending => exact .inr rfl
  | markDeliveryDisabled => rcases h with h | h <;> cases h
  | markSent => rcases h with h | h <;> cases h
  | markDeliveryFailure attemptNumber error willRetry =>
    cases willRetry with
    | true => exact .inr rfl
    | false => rcases h with h | h <;> cases h
  | markChannelDelivered channel =>
    refine .inl ?_
    rwa [apply, AlertRow.setChannelStatus_deliveryStatus] at h
  | markChannelFailed channel =>
    refine .inl ?_
    simp only [apply] at h
    split at h
    · exact h
    · rwa [AlertRow.setChannelStatus_deliveryStatus] at h

/-! ## The rows of alerts -/

namespace World

open ProcessAlertDelivery (Drifts)

/-- Rows drift, whatever a call does. -/
theorem rowRelation_drifts : RowRelation Drifts where
  refl := Drifts.refl
  trans := Drifts.trans
  rules := fun _ _ => ⟨rfl, rfl, fun _ h => h⟩
  telegram := fun _ _ => ⟨rfl, rfl, fun _ h => deliverTelegram_sent h⟩

/-- What is no write leaves the status alone. -/
theorem rowRelation_status :
    RowRelation fun a b : AlertRow => b.deliveryStatus = a.deliveryStatus where
  refl := fun _ => rfl
  trans := fun h h' => h'.trans h
  rules := fun _ _ => rfl
  telegram := fun _ _ => rfl

theorem drifts_effect {pid : Nat} {w w' : World} {c : Call} (h : CallEffect pid w c w') :
    RowsKeep Drifts w w' :=
  rowsKeep_effect rowRelation_drifts h fun _ s _ now a =>
    ⟨AlertWrite.apply_id now s a, AlertWrite.apply_tenantId now s a,
      fun _ => AlertWrite.channelStatus_apply_of_sent now s a⟩

variable {pid : Nat} {w w' : World} {id : Nat}

/-- A write to another alert. -/
theorem alertRow_writeAlert_of_ne {id' : Nat} (h : id ≠ id') (s : AlertWrite) :
    (w.writeAlert id' s).alertRow id = w.alertRow id := by
  change Table.lookup AlertRow.id id (Table.updateWhere _ _ w.alerts) = _
  rw [Table.lookup_updateWhere fun r => AlertWrite.apply_id _ s r]
  change (w.alertRow id).map _ = w.alertRow id
  rcases ha : w.alertRow id with _ | a
  · rfl
  · have hid : a.id = id := id_of_alertRow ha
    rw [Option.map_some, if_neg (by simpa [hid] using h)]

/-- The alert waits for a worker. -/
def Awaits (w : World) (id : Nat) : Prop := ∃ a ∈ w.alertRow id, a.deliveryStatus.Awaiting

instance (w : World) (id : Nat) : Decidable (w.Awaits id) :=
  inferInstanceAs (Decidable (∃ a ∈ w.alertRow id, _))

/-- An alert that appears is pending. -/
theorem pending_of_effect {c : Call} {a : AlertRow} (h : CallEffect pid w c w')
    (hfresh : w.StagedFresh) (hnone : w.alertRow id = none) (ha : w'.alertRow id = some a) :
    a.deliveryStatus = .pending := by
  cases h with
  | writeAlert id' s =>
    by_cases hid : id = id'
    · rw [← hid, alertRow_writeAlert, hnone] at ha
      cases ha
    · rw [alertRow_writeAlert_of_ne hid, hnone] at ha
      cases ha
  | converge c p hc =>
    have hkey : ∀ r : AlertRow, (deliverTelegram w.now r).id = r.id := fun _ => rfl
    rw [alertRow, Table.lookup_updateWhere hkey] at ha
    change (w.alertRow id).map _ = some a at ha
    rw [hnone] at ha
    cases ha
  | commit =>
    unfold commitTxn at ha
    split at ha
    · rw [hnone] at ha
      cases ha
    · rename_i t ht
      have hid : a.id = id := Table.key_of_lookup ha
      have hnew : ∀ x ∈ w.alerts, x.id ≠ id := Table.lookup_eq_none.mp hnone
      rcases mem_foldl_commitAlert (Table.mem_of_lookup ha) with ⟨b, hb, rules, rfl⟩ |
        ⟨b, hb, -, rules, rfl⟩
      · exact absurd hid (hnew b hb)
      · rcases hfresh _ (mem_of_txn ht) b hb with ⟨x, hx, hxid⟩ | ⟨-, hpending⟩
        · exact absurd (hxid.trans hid) (hnew x hx)
        · exact hpending
  | _ => cases hnone.symm.trans ha

/-- **An alert starts to wait by a write only.** -/
theorem awaits_of_effect {c : Call} (h : CallEffect pid w c w') (hfresh : w.StagedFresh)
    (hw : w'.Awaits id) :
    w.Awaits id ∨ ∃ s, c = .alert (.write id s) ∧ s.Announces = true := by
  obtain ⟨b, hb, hawaits⟩ := hw
  rcases ha : w.alertRow id with _ | a
  · rw [pending_of_effect h hfresh ha hb] at hawaits
    rcases hawaits with hawaits | hawaits <;> cases hawaits
  by_cases hwrite : ∃ id' s, c = .alert (.write id' s)
  · obtain ⟨id', s, rfl⟩ := hwrite
    cases h with
    | none => exact .inl ⟨b, hb, hawaits⟩
    | converge c p hc => rcases hc with hc | ⟨alertId, hc⟩ <;> cases hc
    | writeAlert =>
      by_cases hid : id = id'
      · subst hid
        rw [alertRow_writeAlert, ha] at hb
        obtain rfl := Option.some.inj hb
        exact (AlertWrite.awaiting_apply hawaits).imp (fun h => ⟨a, ha, h⟩)
          fun hs => ⟨s, rfl, hs⟩
      · refine .inl ⟨b, ?_, hawaits⟩
        rwa [alertRow_writeAlert_of_ne hid] at hb
  · obtain ⟨b', hb', hstatus⟩ := rowsKeep_effect rowRelation_status h
      (fun id' s hc => absurd ⟨id', s, hc⟩ hwrite) id a ha
    obtain rfl := Option.some.inj (hb.symm.trans hb')
    exact .inl ⟨a, ha, by rwa [hstatus] at hawaits⟩

end World

/-! ## Attempts under way -/

namespace ProcessAlertDelivery

variable {config : AppConfig} {rt : Runtime} {jobId : String} {input : DeliveryInput} {w w' : World}

/-- What is left of an attempt leaves the alert settled when it ends for good: it has not read
the alert yet, or knows its row. -/
def UnderWay (config : AppConfig) (rt : Runtime) (input : DeliveryInput) (w : World) :
    Program Unit → Prop
  | .call c k => (.call c k : Program Unit) = execute config rt input ∨
      ∃ a clean, w.alertRow input.alertId = some a ∧ (input.willRetry = false → clean = true) ∧
        Meets (fun _ _ => True) (Answered config rt) (.call c k : Program Unit) (Ends input)
          ⟨a, clean⟩
  | _ => True

/-- Where an attempt has ended for good, its alert does not wait. -/
def EndsSettled (input : DeliveryInput) (w : World) : Program Unit → Prop
  | .ret _ => ¬ w.Awaits input.alertId
  | .throw _ => input.willRetry = false → ¬ w.Awaits input.alertId
  | .call .. => True

/-- Whatever the others do to the row, the attempt goes on as it would have. -/
theorem UnderWay.drift {p : Program Unit} (h : UnderWay config rt input w p)
    (hw : World.RowsKeep Drifts w w') : UnderWay config rt input w' p := by
  cases p with
  | call c k =>
    refine h.imp_right ?_
    rintro ⟨a, clean, ha, hclean, hmeets⟩
    obtain ⟨b, hb, hd⟩ := hw input.alertId a ha
    refine ⟨b, clean, hb, hclean, hmeets.1, fun r x' hr => hmeets.2 r x' ?_⟩
    obtain ⟨row, hrow, hr⟩ := hr
    exact ⟨row, hd.trans hrow, hr⟩
  | ret => trivial
  | throw => trivial

theorem not_awaits_of_settled {a : AlertRow} (ha : w.alertRow input.alertId = some a)
    (h : a.deliveryStatus.Settled) : ¬ w.Awaits input.alertId := by
  rintro ⟨b, hb, hawaits⟩
  obtain rfl := Option.some.inj (ha.symm.trans hb)
  exact DeliveryStatus.not_awaiting_of_settled h hawaits

/-- Of an alert that is not there nothing can be read, and the attempt fails. -/
theorem execute_of_missing {pid : Nat} {out : Outcome} {c : Call}
    {k : Except String c.Reply → Program Unit} {r : Except String c.Reply}
    (heq : (.call c k : Program Unit) = execute config rt input)
    (hnone : w.alertRow input.alertId = none) (h : c.answer pid w out = some (r, w')) :
    Misses w out c = true ∧ ∃ e, k r = .throw e := by
  cases heq
  have hfind : w.findAlertForWorker input.alertId = none := by
    change (w.alertRow input.alertId).bind w.alertDetail = none
    rw [hnone]
    rfl
  refine ⟨by simp [Misses, hfind], ?_⟩
  rcases Call.answer_eq_some h with ⟨e, rfl, -, -⟩ | ⟨ch, x, hs, rfl | ⟨e, rfl, -⟩⟩
  · exact ⟨e, rfl⟩
  · obtain rfl : w.findAlertForWorker input.alertId = x := congrArg Prod.fst (Option.some.inj hs)
    rw [hfind]
    exact ⟨_, rfl⟩
  · exact ⟨e, rfl⟩

/-- **An answer to the worker** keeps the attempt under way, or ends it with the alert settled,
if it leaves no channel out and, without a retry, misses nothing. -/
theorem UnderWay.answer {pid : Nat} {out : Outcome} {c : Call}
    {k : Except String c.Reply → Program Unit} {r : Except String c.Reply}
    (hu : UnderWay config rt input w (.call c k))
    (hmay : (Role.deliveryWorker jobId input).MayIssue c)
    (hstuck : ∀ a, w.alertRow input.alertId = some a → ReadsUnstuck config rt a w c)
    (hlast : input.willRetry = false → Misses w out c = false)
    (h : c.answer pid w out = some (r, w')) :
    UnderWay config rt input w' (k r) ∧ EndsSettled input w' (k r) := by
  rcases hrow : w.alertRow input.alertId with _ | a
  · -- only the first call finds no row
    rcases hu with heq | ⟨a, clean, ha, -⟩
    · obtain ⟨hmisses, e, he⟩ := execute_of_missing heq hrow h
      rw [he]
      refine ⟨trivial, fun hretry => ?_⟩
      rw [hlast hretry] at hmisses
      cases hmisses
    · cases hrow.symm.trans ha
  · have hmeets : ∃ clean, (input.willRetry = false → clean = true) ∧
        Meets (fun _ _ => True) (Answered config rt) (.call c k : Program Unit) (Ends input)
          ⟨a, clean⟩ := by
      rcases hu with heq | ⟨b, clean, hb, hclean, hmeets⟩
      · exact ⟨true, fun _ => rfl, heq ▸ execute_settles input ⟨a, true⟩⟩
      · obtain rfl := Option.some.inj (hrow.symm.trans hb)
        exact ⟨clean, hclean, hmeets⟩
    obtain ⟨clean, hclean, -, hmeets⟩ := hmeets
    obtain ⟨x', hanswered, hrow', hkeep⟩ := answered_of_answer hrow hmay (hstuck a hrow) h
    have hrest := hmeets r x' hanswered
    have hclean' : input.willRetry = false → x'.clean = true := fun hretry =>
      (hkeep (hlast hretry)).trans (hclean hretry)
    revert hrest
    rcases k r with ⟨⟩ | e | ⟨c', k'⟩
    · exact fun hend => ⟨trivial, not_awaits_of_settled hrow' hend⟩
    · exact fun hend => ⟨trivial, fun hretry =>
        not_awaits_of_settled hrow' (hend hretry (hclean' hretry))⟩
    · exact fun hrest => ⟨.inr ⟨x'.row, x'.clean, hrow', hclean', hrest⟩, trivial⟩

end ProcessAlertDelivery

end Feedpulse
