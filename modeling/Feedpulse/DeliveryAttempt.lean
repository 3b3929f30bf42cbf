import Feedpulse.Delivery
import Feedpulse.Program

/-!
# One attempt to deliver an alert

What one execution of `ProcessAlertDelivery` does to its alert, while other processes may
mark channels of the alert as delivered. `execute_settles`: if no required channel is
left out, an attempt that returns leaves the alert settled, and so does an attempt that
throws without a retry, provided that it could read the alert and the settings and that
its giving up was written.
-/

namespace Feedpulse

open Prog

/-! ## Required and attempted channels -/

/-- The channel has to be delivered. -/
def World.ChannelConfig.requires (c : World.ChannelConfig) : DeliveryChannel → Bool
  | .webhook => c.hasWebhook
  | .telegram => c.hasTelegram
  | .email => c.hasEmail

theorem World.allDelivered_iff {c : World.ChannelConfig} {a : AlertRow} :
    World.allDelivered c a = true ↔
      ∀ channel, c.requires channel = true → a.channelStatus channel = .sent := by
  constructor
  · intro h channel hreq
    cases channel <;>
      simp_all [World.allDelivered, World.ChannelConfig.requires, AlertRow.channelStatus]
  · intro h
    have hw := h .webhook
    have he := h .email
    have ht := h .telegram
    simp only [World.ChannelConfig.requires, AlertRow.channelStatus] at hw he ht
    simp only [World.allDelivered, Bool.and_eq_true, Bool.or_eq_true, decide_eq_true_eq,
      Bool.not_eq_true', ← Bool.not_eq_true]
    tauto

/-- The channel is attempted; a digest is not an attempt. -/
def DeliveryPlan.attemptsChannel (p : DeliveryPlan) : DeliveryChannel → Bool
  | .webhook => p.shouldAttemptWebhook
  | .telegram => p.shouldSendTelegram
  | .email => p.shouldAttemptEmail

namespace ProcessAlertDelivery

variable (config : AppConfig) (rt : Runtime)

/-- Some channel has to be delivered, is not, and is not attempted either: its transport
is switched off. -/
def Stuck (a : AlertRow) (settings : Option TenantSettings) : Prop :=
  ∃ channel, (requiredChannels (plan config rt a settings)).requires channel = true ∧
    a.channelStatus channel ≠ .sent ∧
    (plan config rt a settings).attemptsChannel channel = false

/-- The alert as it was before anything of it was delivered. -/
def unsent (a : AlertRow) : AlertRow :=
  { a with
    webhookDeliveryStatus := .pending
    telegramDeliveryStatus := .pending
    emailDeliveryStatus := .pending }

/-- Some channel that is configured has its transport, so the alert can be attempted. -/
def HasTransport (a : AlertRow) (settings : Option TenantSettings) : Prop :=
  (plan config rt (unsent a) settings).attempts = true

/-- A required channel is left out while others are attempted. -/
def LeavesOut (a : AlertRow) (settings : Option TenantSettings) : Prop :=
  Stuck config rt a settings ∧ HasTransport config rt a settings

instance (a : AlertRow) (settings : Option TenantSettings) :
    Decidable (Stuck config rt a settings) :=
  decidable_of_iff (∃ channel ∈ [DeliveryChannel.webhook, .telegram, .email],
      (requiredChannels (plan config rt a settings)).requires channel = true ∧
        a.channelStatus channel ≠ .sent ∧
        (plan config rt a settings).attemptsChannel channel = false)
    ⟨fun ⟨channel, _, h⟩ => ⟨channel, h⟩,
      fun ⟨channel, h⟩ => ⟨channel, by cases channel <;> simp, h⟩⟩

instance (a : AlertRow) (settings : Option TenantSettings) :
    Decidable (LeavesOut config rt a settings) :=
  inferInstanceAs (Decidable (_ ∧ (plan config rt (unsent a) settings).attempts = true))

/-- Nothing is attempted for an alert that cannot be attempted. -/
theorem hasTransport_of_attempts {a b : AlertRow} {settings : Option TenantSettings}
    (htenant : b.tenantId = a.tenantId) (h : (plan config rt a settings).attempts = true) :
    HasTransport config rt b settings := by
  simp only [HasTransport, DeliveryPlan.attempts, plan, unsent, htenant, Bool.or_eq_true,
    Bool.and_eq_true] at h ⊢
  refine h.imp (Or.imp (Or.imp (And.imp_right fun _ => rfl) (And.imp_right fun _ => rfl))
    (And.imp_right fun _ => rfl)) (And.imp_right fun _ => rfl)

/-! ## The row of an alert under way -/

/-- What other processes may do to the row in the meantime. -/
structure Drifts (a b : AlertRow) : Prop where
  /-- the row stays the row of the alert -/
  id : b.id = a.id
  /-- the owner stays -/
  tenantId : b.tenantId = a.tenantId
  /-- delivered channels stay delivered -/
  sent : ∀ c, a.channelStatus c = .sent → b.channelStatus c = .sent

theorem Drifts.refl (a : AlertRow) : Drifts a a := ⟨rfl, rfl, fun _ h => h⟩

theorem Drifts.trans {a b c : AlertRow} (h : Drifts a b) (h' : Drifts b c) : Drifts a c :=
  ⟨h'.id.trans h.id, h'.tenantId.trans h.tenantId, fun ch hc => h'.sent ch (h.sent ch hc)⟩

/-- A channel that is required without being stuck is delivered by now, or attempted by the
plan made when the alert was read. -/
theorem sent_or_attempts_of_not_stuck {a b : AlertRow} {settings : Option TenantSettings}
    (h : Drifts a b) (hn : ¬ Stuck config rt b settings) {channel : DeliveryChannel}
    (hreq : (requiredChannels (plan config rt a settings)).requires channel = true) :
    b.channelStatus channel = .sent ∨
      (plan config rt a settings).attemptsChannel channel = true := by
  by_cases hsent : b.channelStatus channel = .sent
  · exact .inl hsent
  · have hunsent : a.channelStatus channel ≠ .sent := fun hc => hsent (h.sent channel hc)
    right
    rw [← Bool.not_eq_false]
    intro hatt
    refine hn ⟨channel, ?_, hsent, ?_⟩
    · cases channel <;>
        simpa [World.ChannelConfig.requires, requiredChannels, plan, h.tenantId] using hreq
    · cases channel <;> simp only [AlertRow.channelStatus] at hsent hunsent <;>
        simpa [DeliveryPlan.attemptsChannel, plan, h.tenantId, hsent, hunsent] using hatt

/-! ## Answers, seen from the row -/

/-- An attempt under way: the row of its alert, and whether reading the alert and the
settings and every write that gives the alert up have succeeded so far. -/
structure Attempt where
  /-- the row of the alert -/
  row : AlertRow
  /-- nothing of the kind has failed -/
  clean : Bool

/-- The writes that end the delivery of an alert without having delivered it. -/
def GivesUp : AlertWrite → Bool
  | .markDeliveryDisabled => true
  | .markDeliveryFailure _ _ willRetry => !willRetry
  | _ => false

/-- How a call is answered, as far as the row is concerned. Other processes may have
changed it since the last answer; a failed write may have taken effect. The settings
read leave no channel out. -/
def Answered (x : Attempt) (c : Call) (r : Except String c.Reply) (x' : Attempt) : Prop :=
  ∃ row, Drifts x.row row ∧
    match c, r with
    | .alert (.findByIdForWorker _), .ok (some record) =>
      x' = ⟨row, x.clean⟩ ∧ ∃ rules, record.alert = { row with matchedRules := rules }
    | .alert (.findByIdForWorker _), _ => x' = ⟨row, false⟩
    | .getSettings _, .ok settings => x' = ⟨row, x.clean⟩ ∧ ¬ LeavesOut config rt row settings
    | .getSettings _, .error _ => x' = ⟨row, false⟩
    | .alert (.write _ s), .ok _ => ∃ now, x' = ⟨s.apply now row, x.clean⟩
    | .alert (.write _ s), .error _ =>
      x' = ⟨row, x.clean && !GivesUp s⟩ ∨ ∃ now, x' = ⟨s.apply now row, x.clean⟩
    | .alert (.checkAllChannelsDelivered _ c), .ok b =>
      x' = ⟨row, x.clean⟩ ∧ b = World.allDelivered c row
    | _, _ => x' = ⟨row, x.clean⟩

variable {config rt}

/-- No answer takes a delivered channel back. -/
theorem sent_of_answered {x x' : Attempt} {c : Call} {r : Except String c.Reply}
    (h : Answered config rt x c r x') {channel : DeliveryChannel}
    (hs : x.row.channelStatus channel = .sent) : x'.row.channelStatus channel = .sent := by
  obtain ⟨row, hd, h⟩ := h
  have hrow := hd.sent channel hs
  split at h
  · obtain ⟨rfl, -⟩ := h
    exact hrow
  · obtain rfl := h
    exact hrow
  · obtain ⟨rfl, -⟩ := h
    exact hrow
  · obtain rfl := h
    exact hrow
  · obtain ⟨now, rfl⟩ := h
    exact AlertWrite.channelStatus_apply_of_sent now _ row hrow
  · obtain rfl | ⟨now, rfl⟩ := h
    · exact hrow
    · exact AlertWrite.channelStatus_apply_of_sent now _ row hrow
  · obtain ⟨rfl, -⟩ := h
    exact hrow
  · obtain rfl := h
    exact hrow

/-- What was delivered in `x` still is in `x'`. -/
def Keeps (x x' : Attempt) : Prop :=
  ∀ c, x.row.channelStatus c = .sent → x'.row.channelStatus c = .sent

/-- The channels delivered so far stay delivered during a program. -/
theorem keeps_meets {α : Type} (p : Program α) (x : Attempt) :
    Meets (fun _ _ => True) (Answered config rt) p (fun _ x' => Keeps x x') x :=
  meets_of_invariant (fun _ _ _ _ hQ hr c hc => sent_of_answered hr (hQ c hc)) p fun _ h => h

/-- Every program meets the trivial postcondition. -/
theorem meets_true {α : Type} (p : Program α) (x : Attempt) :
    Meets (fun _ _ => True) (Answered config rt) p (fun _ _ => True) x :=
  meets_of_invariant (fun _ _ _ _ _ _ => trivial) p trivial

/-- What a failed write leaves: it may have taken effect all the same. -/
def FailedWrite (s : AlertWrite) (x x' : Attempt) : Prop :=
  ∃ row, x' = ⟨row, x.clean && !GivesUp s⟩ ∨ ∃ now, x' = ⟨s.apply now row, x.clean⟩

/-- A failed write that gives the alert up has settled it, or the attempt is not clean. -/
theorem FailedWrite.settled {s : AlertWrite} {x x' : Attempt} (h : FailedWrite s x x')
    (hs : GivesUp s = true) (hclean : x'.clean = true) : x'.row.deliveryStatus.Settled := by
  obtain ⟨row, rfl | ⟨now, rfl⟩⟩ := h
  · simp [hs] at hclean
  · cases s <;> simp_all [GivesUp, AlertWrite.apply, DeliveryStatus.Settled]

/-- A single write to the alert. -/
theorem write_meets {id : Nat} {s : AlertWrite} {post : Except String Unit → Attempt → Prop}
    {x : Attempt}
    (hok : ∀ row now, Drifts x.row row → post (.ok ()) ⟨s.apply now row, x.clean⟩)
    (herror : ∀ e x', FailedWrite s x x' → post (.error e) x') :
    Meets (fun _ _ => True) (Answered config rt) (AlertsRepository.write id s) post x := by
  refine meets_bind.mpr (meets_invoke.mpr ⟨trivial, fun r x' hr => ?_⟩)
  obtain ⟨row, hd, hr⟩ := hr
  cases r with
  | ok n =>
    obtain ⟨now, rfl⟩ := hr
    exact hok row now hd
  | error e => exact herror e x' ⟨row, hr⟩

/-! ## The channels -/

variable (input : DeliveryInput) (record : AlertNotificationRecord) (p : DeliveryPlan)

/-- Without an error, an attempted webhook is delivered. -/
theorem attemptWebhook_meets (x : Attempt) (hurl : p.shouldAttemptWebhook = true →
      p.notifierUrl.isSome = true) :
    Meets (fun _ _ => True) (Answered config rt)
      (attemptWebhook config input.alertId record p)
      (fun r x' => r = .ok [] → p.attemptsChannel .webhook = true →
        x'.row.channelStatus .webhook = .sent) x := by
  unfold attemptWebhook
  split
  · refine meets_tryCatch.mpr (meets_bind.mpr ((meets_true _ x).mono fun r x _ => ?_))
    cases r with
    | error e => simp
    | ok u =>
      refine meets_bind.mpr (write_meets (fun row now hd => ?_) fun e x' _ => ?_)
      · exact fun _ _ => rfl
      · simp
  · rename_i hno
    intro _ hatt
    obtain ⟨url, hu⟩ := Option.isSome_iff_exists.mp (hurl hatt)
    exact absurd hu (hno url hatt)

/-- Without an error, an attempted mail is delivered. -/
theorem attemptEmail_meets (x : Attempt) :
    Meets (fun _ _ => True) (Answered config rt)
      (attemptEmail config input.alertId record p)
      (fun r x' => r = .ok ([], []) → p.attemptsChannel .email = true →
        x'.row.channelStatus .email = .sent) x := by
  unfold attemptEmail
  split
  · refine meets_bind.mpr ((meets_true _ x).mono fun r x _ => ?_)
    cases r with
    | error e => simp
    | ok quota =>
      dsimp only
      split
      · refine meets_tryCatch.mpr (meets_bind.mpr ((meets_true _ x).mono fun r x _ => ?_))
        cases r with
        | error e =>
          refine meets_bind.mpr ((meets_true _ x).mono fun r x _ => ?_)
          cases r <;> simp
        | ok u =>
          refine meets_bind.mpr (write_meets (fun row now hd => ?_) fun e x' _ => ?_)
          · exact fun _ _ => rfl
          · refine meets_bind.mpr ((meets_true _ x').mono fun r x _ => ?_)
            cases r <;> simp
      · refine meets_bind.mpr ((meets_true _ x).mono fun r x _ => ?_)
        cases r <;> simp
  · rename_i hno
    exact fun _ hatt => absurd hatt hno

/-- Without an error, attempted messages are delivered. -/
theorem attemptTelegram_meets (x : Attempt) :
    Meets (fun _ _ => True) (Answered config rt)
      (attemptTelegram config input.alertId record p)
      (fun r x' => r = .ok [] → p.attemptsChannel .telegram = true →
        x'.row.channelStatus .telegram = .sent) x := by
  unfold attemptTelegram
  split
  · refine meets_bind.mpr ((meets_true _ x).mono fun r x _ => ?_)
    cases r with
    | error e => simp
    | ok errors =>
      dsimp only
      by_cases herrors : errors.isEmpty = true
      · rw [if_pos herrors]
        refine meets_bind.mpr (write_meets (fun row now hd => ?_) fun e x' _ => ?_)
        · exact fun _ _ => rfl
        · simp
      · rw [if_neg herrors]
        intro h
        simp at h
        simp [h] at herrors
  · rename_i hno
    exact fun _ hatt => absurd hatt hno

/-! ## The whole attempt -/

/-- The decision after the attempts settles the alert, if every required channel is
delivered unless there was an error. -/
theorem settle_meets {errors terminalErrors : List String} {x : Attempt}
    (h : errors = [] → terminalErrors = [] → ∀ c, (requiredChannels p).requires c = true →
      x.row.channelStatus c = .sent) :
    Meets (fun _ _ => True) (Answered config rt) (settle input p errors terminalErrors)
      (fun r x' => r = .ok () → x'.row.deliveryStatus.Settled) x := by
  unfold settle
  by_cases herrors : errors = []
  · rw [if_neg (by simp [herrors])]
    by_cases hterminal : terminalErrors = []
    · rw [if_neg (by simp [hterminal])]
      refine meets_bind.mpr (meets_invoke.mpr ⟨trivial, fun r x' hr => ?_⟩)
      obtain ⟨row, hd, hr⟩ := hr
      cases r with
      | error e => simp
      | ok b =>
        obtain ⟨rfl, hb⟩ := hr
        obtain rfl : b = true := hb.trans (World.allDelivered_iff.mpr fun c hc =>
          hd.sent c (h herrors hterminal c hc))
        refine meets_bind.mpr (meets_bind.mpr (meets_invoke.mpr ⟨trivial, fun r x' hr => ?_⟩))
        obtain ⟨row, hd, hr⟩ := hr
        cases r with
        | error e => simp
        | ok n =>
          obtain ⟨now, rfl⟩ := hr
          exact fun _ => trivial
    · rw [if_pos (by simpa using hterminal)]
      exact write_meets (fun row now hd _ => trivial) fun e x' _ h => by cases h
  · rw [if_pos (by simpa using herrors)]
    exact fun h => by cases h

/-- The attempts and the decision. -/
theorem deliverChannels_meets {x : Attempt}
    (hurl : p.shouldAttemptWebhook = true → p.notifierUrl.isSome = true)
    (h : ∀ c, (requiredChannels p).requires c = true →
      x.row.channelStatus c = .sent ∨ p.attemptsChannel c = true) :
    Meets (fun _ _ => True) (Answered config rt) (deliverChannels config input record p)
      (fun r x' => r = .ok () → x'.row.deliveryStatus.Settled) x := by
  refine meets_bind.mpr (((attemptWebhook_meets input record p x hurl).and
    (keeps_meets _ x)).mono ?_)
  rintro (e | webhookErrors) x₁ ⟨hwebhook, hkeep₁⟩
  · exact fun h => by cases h
  refine meets_bind.mpr (((attemptEmail_meets input record p x₁).and
    (keeps_meets _ x₁)).mono ?_)
  rintro (e | ⟨emailErrors, terminalErrors⟩) x₂ ⟨hemail, hkeep₂⟩
  · exact fun h => by cases h
  refine meets_bind.mpr (((attemptTelegram_meets input record p x₂).and
    (keeps_meets _ x₂)).mono ?_)
  rintro (e | telegramErrors) x₃ ⟨htelegram, hkeep₃⟩
  · exact fun h => by cases h
  refine meets_bind.mpr ((keeps_meets _ x₃).mono ?_)
  rintro (e | u) x₄ hkeep₄
  · exact fun h => by cases h
  refine settle_meets input p fun herrors hterminal c hreq => ?_
  simp only [List.append_eq_nil_iff] at herrors
  obtain ⟨⟨rfl, rfl⟩, rfl⟩ := herrors
  obtain rfl := hterminal
  -- a required channel was delivered before, or by its attempt
  rcases h c hreq with hsent | hatt
  · exact hkeep₄ c (hkeep₃ c (hkeep₂ c (hkeep₁ c hsent)))
  · cases c with
    | webhook => exact hkeep₄ _ (hkeep₃ _ (hkeep₂ _ (hwebhook rfl hatt)))
    | telegram => exact hkeep₄ _ (htelegram rfl hatt)
    | email => exact hkeep₄ _ (hkeep₃ _ (hemail rfl hatt))

/-- How an attempt ends: a return leaves the alert settled, and so does an error without a
retry, if nothing failed that must not. -/
def Ends (r : Except String Unit) (x : Attempt) : Prop :=
  match r with
  | .ok _ => x.row.deliveryStatus.Settled
  | .error _ => input.willRetry = false → x.clean = true → x.row.deliveryStatus.Settled

/-- The attempt after the alert and the settings were read. -/
theorem process_meets {settings : Option TenantSettings} {x : Attempt}
    (hd : Drifts record.alert x.row) (hn : ¬ LeavesOut config rt x.row settings) :
    Meets (fun _ _ => True) (Answered config rt) (process config rt input record settings)
      (Ends input) x := by
  unfold process
  dsimp only
  split
  · exact write_meets (fun row now hd => trivial) fun e x' hx' _ hclean => hx'.settled rfl hclean
  · rename_i hattempts
    have hattempts : (plan config rt record.alert settings).attempts = true := by
      simpa [Notifier.isEnabled] using hattempts
    have hstuck : ¬ Stuck config rt x.row settings := fun h =>
      hn ⟨h, hasTransport_of_attempts config rt hd.tenantId hattempts⟩
    have hplan : (plan config rt record.alert settings).shouldAttemptWebhook = true →
        (plan config rt record.alert settings).notifierUrl.isSome = true := by
      intro h
      simp only [plan, Bool.and_eq_true] at h ⊢
      cases hurl : (settings.bind TenantSettings.webhookNotifierUrl).or config.webhookNotifierUrl
      · rw [hurl] at h
        simp at h
      · rfl
    refine meets_tryCatch.mpr ((deliverChannels_meets input record _ hplan fun c hc =>
      sent_or_attempts_of_not_stuck config rt hd hstuck hc).mono ?_)
    rintro (message | u) x' hx'
    · refine meets_bind.mpr (write_meets (fun row now hd => ?_) fun e x'' hx'' => ?_)
      · intro hretry _
        simp [AlertWrite.apply, hretry, DeliveryStatus.Settled]
      · intro hretry hclean
        exact hx''.settled (by simp [GivesUp, hretry]) hclean
    · exact hx' rfl

/-- **One attempt** leaves the alert settled when it returns, if no required channel is left
out; and when it throws without a retry, if nothing failed that must not. -/
theorem execute_settles (x : Attempt) :
    Meets (fun _ _ => True) (Answered config rt) (execute config rt input) (Ends input) x := by
  refine meets_bind.mpr (meets_invoke.mpr ⟨trivial, fun r x' hr => ?_⟩)
  obtain ⟨row, -, hr⟩ := hr
  rcases r with e | _ | record
  · obtain rfl := hr
    exact fun _ hclean => by cases hclean
  · obtain rfl := hr
    exact fun _ hclean => by cases hclean
  obtain ⟨rfl, rules, hrules⟩ := hr
  refine meets_bind.mpr (meets_invoke.mpr ⟨trivial, fun r x' hr => ?_⟩)
  obtain ⟨row', hd, hr⟩ := hr
  cases r with
  | error e =>
    obtain rfl := hr
    exact fun _ hclean => by cases hclean
  | ok settings =>
    obtain ⟨rfl, hn⟩ := hr
    refine process_meets input record ⟨?_, ?_, fun c hc => ?_⟩ hn
    · rw [hrules]
      exact hd.id
    · rw [hrules]
      exact hd.tenantId
    · rw [hrules] at hc
      exact hd.sent c hc

end ProcessAlertDelivery

end Feedpulse
