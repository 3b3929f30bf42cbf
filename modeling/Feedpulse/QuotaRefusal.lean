import Feedpulse.EmailQuota

/-!
# Refusals of the email quota

`reserve` increments the counter first and gives the increment back when it overshoots, so the
counter is for a while above what has been granted. A release in that while makes a slot free
that the next `reserve` does not get: `refused_too_early` is such a run. `refused_when_full` says
that this is the only way: if nobody increments the counter while overshoots alone keep it at the
limit, every refusal is one of a full quota.
-/

namespace Feedpulse

open Prog Transition

namespace QuotaCalls

/-! ## Claims -/

/-- What a call, or the reservation it was granted, has of the quota. -/
inductive Claim
  /-- nothing yet -/
  | idle
  /-- a reservation -/
  | granted
  /-- an increment that overshot the limit, and is to be given back -/
  | overshot
  /-- the overshoot was given back -/
  | refused
  /-- the reservation was given back -/
  | released
  deriving DecidableEq, Repr

/-- What the answer to a call makes of the claim. -/
def Claim.after (limit : Nat) (v : Claim) (c : Call) (r : Except String c.Reply) : Claim :=
  match c, r with
  | .redis (.incr ..), .ok used => if used ≤ limit then granted else overshot
  | .redis (.decr ..), .ok _ => if v = overshot then refused else released
  | _, _ => v

variable (tenantId : String) (day limit : Nat)

/-- What a call of the service may do: it increments the counter of the day while it has nothing,
and gives back what it has. -/
def Claim.Allowed (v : Claim) : Call → Prop
  | .clock => True
  | .redis (.incr tenant d) => v = idle ∧ tenant = tenantId ∧ d = day
  | .redis (.decr tenant d) => (v = granted ∨ v = overshot) ∧ tenant = tenantId ∧ d = day
  | .redis (.expire tenant d ttlSeconds) =>
    tenant = tenantId ∧ d = day ∧ ttlSeconds = EmailRateLimit.counterTtlSeconds
  | _ => False

/-- What the answers are on the day, while Redis does not fail. -/
def Claim.Answers (v : Claim) (c : Call) (r : Except String c.Reply) (v' : Claim) : Prop :=
  (∃ a, r = .ok a) ∧ v' = v.after limit c r ∧
    match c, r with
    | .clock, .ok now => EmailRateLimit.utcDay now = day
    | _, _ => True

/-- The program keeps to what it has. -/
abbrev Keeps {α : Type} (p : Program α) (post : Except String α → Claim → Prop) (v : Claim) :
    Prop :=
  Meets (Claim.Allowed tenantId day) (Claim.Answers day limit) p post v

variable {tenantId day limit} {config : AppConfig} {v : Claim}

/-- What is held is given back. -/
theorem giveBack_keeps (hv : v = .granted ∨ v = .overshot) :
    Keeps tenantId day limit (EmailRateLimit.giveBack tenantId day)
      (fun r v' => r = .ok () ∧ v' = if v = .overshot then .refused else .released) v := by
  refine meets_bind.mpr (meets_invoke.mpr ⟨⟨hv, rfl, rfl⟩, fun r v₁ hr => ?_⟩)
  obtain ⟨⟨remaining, rfl⟩, rfl, -⟩ := hr
  dsimp only
  split
  · refine meets_invoke.mpr ⟨⟨rfl, rfl, rfl⟩, fun r v₂ hr => ?_⟩
    obtain ⟨⟨_, rfl⟩, rfl, -⟩ := hr
    exact ⟨rfl, rfl⟩
  · exact ⟨rfl, rfl⟩

/-- The decision: an overshoot is given back, and the call refused. -/
theorem decide_keeps {used : Int} :
    Keeps tenantId day limit
      (if (limit : Int) < used then do
        EmailRateLimit.giveBack tenantId day
        pure (EmailQuotaDecision.mk false limit limit false)
      else pure (EmailQuotaDecision.mk true limit used false))
      (fun r v' => ∃ quota, r = .ok quota ∧ (quota.allowed = false → v' = .refused))
      (if used ≤ limit then .granted else .overshot) := by
  by_cases hover : (limit : Int) < used
  · rw [if_pos hover, if_neg (not_le.mpr hover)]
    refine meets_bind.mpr ((giveBack_keeps (.inr rfl)).mono fun r v₁ hr => ?_)
    obtain ⟨rfl, rfl⟩ := hr
    exact ⟨_, rfl, fun _ => rfl⟩
  · rw [if_neg hover]
    exact ⟨_, rfl, nofun⟩

/-- A call of `reserve` that is refused has overshot. -/
theorem reserve_keeps :
    Keeps tenantId day config.resendDailyLimit (EmailRateLimit.reserve config tenantId)
      (fun r v' => ∀ quota, r = .ok quota → quota.allowed = false → v' = .refused) .idle := by
  unfold EmailRateLimit.reserve
  dsimp only
  split
  · rintro quota hr hallowed
    obtain rfl := Except.ok.inj hr
    cases hallowed
  · refine meets_bind.mpr (meets_invoke.mpr ⟨trivial, fun r v₁ hr => ?_⟩)
    obtain ⟨⟨now, rfl⟩, rfl, rfl⟩ := hr
    refine meets_tryCatch.mpr (Meets.mono ?_ fun r v' (hr : ∃ quota : EmailQuotaDecision,
      r = .ok quota ∧ (quota.allowed = false → v' = Claim.refused)) => ?_)
    · refine meets_bind.mpr (meets_invoke.mpr ⟨⟨rfl, rfl, rfl⟩, fun r v₂ hr => ?_⟩)
      obtain ⟨⟨used, rfl⟩, rfl, -⟩ := hr
      dsimp only
      split
      · refine meets_bind.mpr (meets_invoke.mpr ⟨⟨rfl, rfl, rfl⟩, fun r v₃ hr => ?_⟩)
        obtain ⟨⟨_, rfl⟩, rfl, -⟩ := hr
        exact decide_keeps
      · exact decide_keeps
    · obtain ⟨quota, rfl, hquota⟩ := hr
      rintro quota' hr
      obtain rfl := Except.ok.inj hr
      exact hquota

/-- A release gives the reservation back. -/
theorem release_keeps :
    Keeps tenantId day config.resendDailyLimit (EmailRateLimit.release config tenantId)
      (fun _ _ => True) .granted := by
  unfold EmailRateLimit.release
  split
  · trivial
  · refine meets_bind.mpr (meets_invoke.mpr ⟨trivial, fun r v₁ hr => ?_⟩)
    obtain ⟨⟨now, rfl⟩, rfl, rfl⟩ := hr
    refine meets_tryCatch.mpr ((giveBack_keeps (.inl rfl)).mono fun r v' hr => ?_)
    obtain ⟨rfl, -⟩ := hr
    trivial

/-! ## Calls in flight -/

variable (tenantId day config)

/-- The calls of the service for a tenant on a day. -/
structure State where
  /-- the database and Redis -/
  world : World
  /-- what is left of the calls that were made, and what they have answered in the end -/
  running : Nat → Option (Program (Option EmailQuotaDecision))
  /-- what the calls have of the quota -/
  claims : Nat → Claim
  /-- the numbers of the calls that were made -/
  started : Finset Nat

/-- A step of the calls in flight. -/
inductive Action
  /-- time passes -/
  | tick (ms : Nat)
  /-- `reserve` is called -/
  | reserve (n : Nat)
  /-- `release` is called, for a reservation that was granted -/
  | release (n : Nat)
  /-- the next command of a call is executed -/
  | proceed (n : Nat)
  deriving DecidableEq, Repr

/-- The call has returned a reservation. -/
def isAllowed : Option (Program (Option EmailQuotaDecision)) → Bool
  | some (.ret (some decision)) => decision.allowed
  | _ => false

/-- A number is taken by another program. -/
def State.run (s : State) (n : Nat) (p : Program (Option EmailQuotaDecision)) (v : Claim) : State :=
  { s with
    running := Function.update s.running n (some p)
    claims := Function.update s.claims n v
    started := insert n s.started }

/-- One step on the day; Redis does not fail. -/
def step (s : State) : Action → Option State
  | .tick ms =>
    if EmailRateLimit.utcDay (s.world.now + ms) = day then
      some { s with world := { s.world with now := s.world.now + ms } }
    else none
  | .reserve n =>
    if n ∈ s.started then none
    else some (s.run n (EmailRateLimit.reserve config tenantId >>= fun d => pure (some d)) .idle)
  | .release n =>
    if isAllowed (s.running n) ∧ s.claims n = .granted then
      some (s.run n (EmailRateLimit.release config tenantId >>= fun _ => pure none) .granted)
    else none
  | .proceed n =>
    match s.running n with
    | some (.call c k) =>
      (c.answer n s.world (.ok .none)).map fun r =>
        { s.run n (k r.1) ((s.claims n).after config.resendDailyLimit c r.1) with world := r.2 }
    | _ => none

/-- The reservations that were granted and not released. -/
def State.granted (s : State) : Finset Nat := s.started.filter fun n => s.claims n = .granted

/-- The increments that overshot the limit and were not given back. -/
def State.overshot (s : State) : Finset Nat := s.started.filter fun n => s.claims n = .overshot

/-- No call has been made on the day. -/
def initial (w : World) : State where
  world := w
  running _ := none
  claims _ := .idle
  started := ∅

/-! ## The counter -/

/-- The claim is in the counter. -/
def Claim.counts (v : Claim) : Bool := v = granted || v = overshot

/-- The calls whose claim is in the counter. -/
def State.counting (s : State) : Finset Nat := s.started.filter fun n => (s.claims n).counts

variable {tenantId day config} {s s' : State} {n : Nat} {p : Program (Option EmailQuotaDecision)}
  {w w' : World} {c : Call} {r : Except String c.Reply}

theorem card_counting (s : State) : s.counting.card = s.granted.card + s.overshot.card := by
  have hsplit : s.counting = s.granted ∪ s.overshot := by
    rw [State.granted, State.overshot, ← Finset.filter_or, State.counting]
    simp [Claim.counts]
  rw [hsplit, Finset.card_union_of_disjoint]
  rw [Finset.disjoint_left]
  intro m hgranted hovershot
  have hm := (Finset.mem_filter.mp hgranted).2
  rw [(Finset.mem_filter.mp hovershot).2] at hm
  cases hm

theorem mem_counting {m : Nat} :
    m ∈ s.counting ↔ m ∈ s.started ∧ (s.claims m).counts = true := Finset.mem_filter

theorem counting_run :
    (s.run n p v).counting = if v.counts then insert n s.counting else s.counting.erase n := by
  ext m
  have hmem : m ∈ (s.run n p v).counting ↔
      m ∈ insert n s.started ∧ (Function.update s.claims n v m).counts = true := mem_counting
  rw [hmem]
  by_cases hm : m = n
  · subst hm
    rw [Function.update_self, and_iff_right (Finset.mem_insert_self ..)]
    split
    · rename_i hv
      exact iff_of_true hv (Finset.mem_insert_self ..)
    · rename_i hv
      exact iff_of_false hv (Finset.notMem_erase m _)
  · rw [Function.update_of_ne hm, Finset.mem_insert, or_iff_right hm, ← mem_counting]
    split
    · rw [Finset.mem_insert, or_iff_right hm]
    · rw [Finset.mem_erase, and_iff_right hm]

/-- How many a command adds to the counter. -/
def delta : Call → Int
  | .redis (.incr ..) => 1
  | .redis (.decr ..) => -1
  | _ => 0

/-- A command that is allowed counts what the call has afterwards. -/
theorem card_counting_run {limit : Nat} (hn : n ∈ s.started)
    (hallowed : (s.claims n).Allowed tenantId day c) (hr : ∃ a, r = .ok a) :
    ((s.run n p ((s.claims n).after limit c r)).counting.card : Int)
      = s.counting.card + delta c := by
  obtain ⟨a, rfl⟩ := hr
  have hsame : ((s.run n p (s.claims n)).counting.card : Int) = s.counting.card := by
    rw [counting_run]
    split
    · rename_i hv
      rw [Finset.insert_eq_of_mem (mem_counting.mpr ⟨hn, hv⟩)]
    · rename_i hv
      rw [Finset.erase_eq_of_notMem fun h => hv (mem_counting.mp h).2]
  unfold Claim.Allowed at hallowed
  split at hallowed
  · exact hsame.trans (add_zero _).symm
  · obtain ⟨hidle, -, -⟩ := hallowed
    have hnot : n ∉ s.counting := by
      intro h
      have hcounts := (mem_counting.mp h).2
      rw [hidle] at hcounts
      cases hcounts
    rw [counting_run, if_pos, Finset.card_insert_of_notMem hnot]
    · rfl
    · change (if a ≤ (limit : Int) then Claim.granted else Claim.overshot).counts = true
      split <;> rfl
  · obtain ⟨hholds, -, -⟩ := hallowed
    have hmem : n ∈ s.counting := by
      refine mem_counting.mpr ⟨hn, ?_⟩
      rcases hholds with hv | hv
      · rw [hv]
        rfl
      · rw [hv]
        rfl
    have hcard := Finset.card_erase_add_one hmem
    rw [counting_run, if_neg]
    · change ((s.counting.erase n).card : Int) = s.counting.card + (-1)
      omega
    · change ¬(if s.claims n = .overshot then Claim.refused else Claim.released).counts = true
      split <;> decide
  · exact hsame.trans (add_zero _).symm
  · exact hallowed.elim

/-- An expiry that is set on the day lasts longer than the day. -/
theorem closing_le {now : Nat} (hday : EmailRateLimit.utcDay now = day) :
    closing day ≤ now + EmailRateLimit.counterTtlSeconds * 1000 := by
  unfold EmailRateLimit.utcDay at hday
  unfold closing
  omega

/-- On the day the counters do not expire. -/
theorem lt_closing {now : Nat} (hday : EmailRateLimit.utcDay now = day) : now < closing day := by
  unfold EmailRateLimit.utcDay at hday
  unfold closing EmailRateLimit.counterTtlSeconds
  omega

/-- What a command answers on the day, and what it does to the counter. -/
theorem answer_spec (hlasting : w.Lasting) (hday : EmailRateLimit.utcDay w.now = day)
    (hallowed : v.Allowed tenantId day c) (h : c.answer n w (.ok .none) = some (r, w')) :
    v.Answers day limit c r (v.after limit c r) ∧ w'.Lasting ∧ w'.now = w.now ∧
      w'.counted (tenantId, day) = w.counted (tenantId, day) + delta c := by
  unfold Claim.Allowed at hallowed
  split at hallowed
  · obtain ⟨rfl, rfl⟩ := Prod.mk.inj (Option.some.inj h)
    exact ⟨⟨⟨_, rfl⟩, rfl, hday⟩, hlasting, rfl, (add_zero _).symm⟩
  · obtain ⟨-, rfl, rfl⟩ := hallowed
    obtain ⟨rfl, rfl⟩ := Prod.mk.inj (Option.some.inj h)
    obtain ⟨-, hlasting', hnow, hcounted⟩ := hlasting.addToCounter _ _ 1
    exact ⟨⟨⟨_, rfl⟩, rfl, trivial⟩, hlasting', hnow, (hcounted _).trans (if_pos rfl)⟩
  · obtain ⟨-, rfl, rfl⟩ := hallowed
    obtain ⟨rfl, rfl⟩ := Prod.mk.inj (Option.some.inj h)
    obtain ⟨-, hlasting', hnow, hcounted⟩ := hlasting.addToCounter _ _ (-1)
    exact ⟨⟨⟨_, rfl⟩, rfl, trivial⟩, hlasting', hnow, (hcounted _).trans (if_pos rfl)⟩
  · obtain ⟨rfl, rfl, rfl⟩ := hallowed
    obtain ⟨rfl, rfl⟩ := Prod.mk.inj (Option.some.inj h)
    obtain ⟨hlasting', hnow, hcounted⟩ := hlasting.expireCounter _ (by decide)
      (closing_le hday)
    exact ⟨⟨⟨_, rfl⟩, rfl, trivial⟩, hlasting', hnow, (hcounted _).trans (add_zero _).symm⟩
  · exact hallowed.elim

/-! ## Runs -/

/-- A call that is refused has given an overshoot back. -/
def Refusal (r : Except String (Option EmailQuotaDecision)) (v : Claim) : Prop :=
  ∀ decision, r = .ok (some decision) → decision.allowed = false → v = .refused

/-- The counter is at most what the calls have, and these keep to it. -/
structure Inv (tenantId : String) (day : Nat) (config : AppConfig) (s : State) : Prop where
  /-- the counters outlast their day -/
  lasting : s.world.Lasting
  /-- the day lasts -/
  today : EmailRateLimit.utcDay s.world.now = day
  /-- the counter -/
  counted : s.world.counted (tenantId, day) ≤ s.counting.card
  /-- the calls were made -/
  started : ∀ n p, s.running n = some p → n ∈ s.started
  /-- what is left of a call keeps to what the call has -/
  keeps : ∀ n p, s.running n = some p →
    Keeps tenantId day config.resendDailyLimit p Refusal (s.claims n)

/-- A call takes a step. -/
theorem Inv.run (h : Inv tenantId day config s) (hlasting : w.Lasting)
    (hday : EmailRateLimit.utcDay w.now = day)
    (hcounted : w.counted (tenantId, day) ≤ (s.run n p v).counting.card)
    (hkeeps : Keeps tenantId day config.resendDailyLimit p Refusal v) :
    Inv tenantId day config { s.run n p v with world := w } where
  lasting := hlasting
  today := hday
  counted := hcounted
  started m q hm := by
    change Function.update s.running n (some p) m = some q at hm
    by_cases hmn : m = n
    · exact hmn ▸ Finset.mem_insert_self ..
    · rw [Function.update_of_ne hmn] at hm
      exact Finset.mem_insert_of_mem (h.started m q hm)
  keeps m q hm := by
    change Function.update s.running n (some p) m = some q at hm
    change Keeps tenantId day config.resendDailyLimit q Refusal (Function.update s.claims n v m)
    by_cases hmn : m = n
    · subst hmn
      rw [Function.update_self] at hm ⊢
      exact Option.some.inj hm ▸ hkeeps
    · rw [Function.update_of_ne hmn] at hm ⊢
      exact h.keeps m q hm

/-- A call that returns its reservation was made. -/
theorem exists_of_isAllowed {q : Option (Program (Option EmailQuotaDecision))}
    (h : isAllowed q = true) : ∃ p, q = some p := by
  cases q with
  | none => cases h
  | some p => exact ⟨p, rfl⟩

/-- **The counter is at most what the calls have**, after every step. -/
theorem Inv.step {a : Action} (h : Inv tenantId day config s)
    (hstep : QuotaCalls.step tenantId day config s a = some s') :
    Inv tenantId day config s' := by
  cases a with
  | tick ms =>
    obtain ⟨hday, hs⟩ := Option.ite_none_right_eq_some.mp hstep
    obtain rfl := Option.some.inj hs
    refine ⟨h.lasting, hday, ?_, h.started, h.keeps⟩
    have hsame : ({ s.world with now := s.world.now + ms } : World).counted (tenantId, day)
        = s.world.counted (tenantId, day) := World.counted_elapse h.lasting (lt_closing hday)
    exact hsame.trans_le h.counted
  | reserve n =>
    obtain ⟨hn, hs⟩ := Option.ite_none_left_eq_some.mp hstep
    obtain rfl := Option.some.inj hs
    refine h.run h.lasting h.today ?_ ?_
    · have hnot : n ∉ s.counting := fun hmem => hn (mem_counting.mp hmem).1
      rw [counting_run, if_neg (by decide), Finset.erase_eq_of_notMem hnot]
      exact h.counted
    · refine meets_bind.mpr (reserve_keeps.mono fun r v' hr => ?_)
      cases r with
      | error e => rintro decision herror; cases herror
      | ok quota =>
        rintro decision hdecision
        obtain rfl := Option.some.inj (Except.ok.inj hdecision)
        exact hr quota rfl
  | release n =>
    obtain ⟨⟨hallowed, hclaim⟩, hs⟩ := Option.ite_none_right_eq_some.mp hstep
    obtain rfl := Option.some.inj hs
    obtain ⟨p, hp⟩ := exists_of_isAllowed hallowed
    refine h.run h.lasting h.today ?_ ?_
    · have hmem : n ∈ s.counting := mem_counting.mpr ⟨h.started n p hp, by rw [hclaim]; rfl⟩
      rw [counting_run, if_pos (by decide), Finset.insert_eq_of_mem hmem]
      exact h.counted
    · refine meets_bind.mpr (release_keeps.mono fun r v' _ => ?_)
      cases r with
      | error e => rintro decision herror; cases herror
      | ok _ => rintro decision hdecision; cases hdecision
  | proceed n =>
    rw [QuotaCalls.step] at hstep
    split at hstep
    · rename_i c k hrunning
      obtain ⟨⟨r, w⟩, hanswer, rfl⟩ := Option.map_eq_some_iff.mp hstep
      obtain ⟨hallowed, hnext⟩ := h.keeps n _ hrunning
      obtain ⟨hr, hlasting, hnow, hcounted⟩ := answer_spec h.lasting h.today hallowed hanswer
      refine h.run hlasting (hnow ▸ h.today) ?_ (hnext r _ hr)
      rw [hcounted, card_counting_run (h.started n _ hrunning) hallowed hr.1]
      have := h.counted
      omega
    · cases hstep

/-! ## Refusals -/

/-- The next command of the call increments the counter. -/
def isIncrement : Option (Program (Option EmailQuotaDecision)) → Bool
  | some (.call (.redis (.incr ..)) _) => true
  | _ => false

/-- If a slot is free when the call increments the counter, the overshoots that were not given back
leave one free too. -/
def Unhindered (limit n : Nat) (s : State) (a : Action) (_ : State) : Prop :=
  a = .proceed n → isIncrement (s.running n) → s.granted.card < limit →
    s.granted.card + s.overshot.card < limit

instance (limit n : Nat) (a : Action) : Decidable (Unhindered limit n s a s') := by
  unfold Unhindered
  infer_instance

/-- The call has overshot the limit. -/
def State.Overshot (s : State) (n : Nat) : Prop :=
  s.claims n = .overshot ∨ s.claims n = .refused

/-- Only an increment makes an overshoot, and then the calls have more than the limit. -/
theorem increments_of_after {limit : Nat} (hlasting : w.Lasting)
    (hallowed : v.Allowed tenantId day c) (h : c.answer n w (.ok .none) = some (r, w'))
    (hbefore : ¬(v = .overshot ∨ v = .refused))
    (hafter : v.after limit c r = .overshot ∨ v.after limit c r = .refused) :
    c = .redis (.incr tenantId day) ∧ (limit : Int) ≤ w.counted (tenantId, day) := by
  unfold Claim.Allowed at hallowed
  split at hallowed
  · exact absurd hafter hbefore
  · rename_i tenant today
    obtain ⟨-, rfl, rfl⟩ := hallowed
    obtain ⟨rfl, rfl⟩ := Prod.mk.inj (Option.some.inj h)
    obtain ⟨hused, -⟩ := hlasting.addToCounter tenant today 1
    refine ⟨rfl, ?_⟩
    by_contra hfree
    have hfits : (w.addToCounter tenant today 1).1 ≤ limit := by omega
    have hgranted : v.after limit (.redis (.incr tenant today))
        (.ok (w.addToCounter tenant today 1).1) = .granted := if_pos hfits
    rw [show RedisCall.serve w (.incr tenant today) = w.addToCounter tenant today 1 from rfl,
      hgranted] at hafter
    rcases hafter with hafter | hafter <;> cases hafter
  · obtain ⟨hholds, -, -⟩ := hallowed
    obtain ⟨rfl, rfl⟩ := Prod.mk.inj (Option.some.inj h)
    rcases hholds with rfl | rfl
    · rcases hafter with hafter | hafter <;> cases hafter
    · exact absurd (.inl rfl) hbefore
  · obtain ⟨rfl, rfl⟩ := Prod.mk.inj (Option.some.inj h)
    exact absurd hafter hbefore
  · exact hallowed.elim

/-- A call overshoots in the step in which it increments the counter, and if it is not hindered
there, all slots are granted then. -/
theorem full_of_overshot {a : Action} (h : Inv tenantId day config s)
    (hstep : step tenantId day config s a = some s') (hbefore : ¬s.Overshot n)
    (hafter : s'.Overshot n) (hunhindered : Unhindered config.resendDailyLimit n s a s') :
    config.resendDailyLimit ≤ s.granted.card := by
  have hkept : ∀ {m u}, (Function.update s.claims m u n = .overshot ∨
      Function.update s.claims m u n = .refused) → m = n ∧ (u = .overshot ∨ u = .refused) := by
    intro m u hm
    by_cases hmn : n = m
    · rw [hmn, Function.update_self] at hm
      exact ⟨hmn.symm, hm⟩
    · rw [Function.update_of_ne hmn] at hm
      exact absurd hm hbefore
  cases a with
  | tick ms =>
    obtain ⟨-, hs⟩ := Option.ite_none_right_eq_some.mp hstep
    obtain rfl := Option.some.inj hs
    exact absurd hafter hbefore
  | reserve m =>
    obtain ⟨-, hs⟩ := Option.ite_none_left_eq_some.mp hstep
    obtain rfl := Option.some.inj hs
    rcases (hkept hafter).2 with hidle | hidle <;> cases hidle
  | release m =>
    obtain ⟨-, hs⟩ := Option.ite_none_right_eq_some.mp hstep
    obtain rfl := Option.some.inj hs
    rcases (hkept hafter).2 with hgranted | hgranted <;> cases hgranted
  | proceed m =>
    rw [step] at hstep
    split at hstep
    · rename_i c k hrunning
      obtain ⟨⟨r, w⟩, hanswer, rfl⟩ := Option.map_eq_some_iff.mp hstep
      obtain ⟨rfl, hclaim⟩ := hkept hafter
      obtain ⟨rfl, hfull⟩ := increments_of_after h.lasting (h.keeps m _ hrunning).1 hanswer
        hbefore hclaim
      have hcounted := h.counted
      have hcard := card_counting s
      by_contra hfree
      have := hunhindered rfl (by rw [hrunning]; rfl) (not_le.mp hfree)
      omega
    · cases hstep

/-- Before the first call, the counter is at most zero. -/
theorem inv_initial (hlasting : w.Lasting) (hday : EmailRateLimit.utcDay w.now = day)
    (hempty : w.counted (tenantId, day) ≤ 0) : Inv tenantId day config (initial w) where
  lasting := hlasting
  today := hday
  counted := hempty
  started _ _ h := by cases h
  keeps _ _ h := by cases h

/-- **A refusal is one of a full quota**: if the increment of a call of `reserve` is not hindered
by overshoots, and the call answers that no mail is allowed, then at some instant of the call as
many reservations as the limit were granted and not released. -/
theorem refused_when_full {before during : List Action} {s₂ : State}
    {decision : EmailQuotaDecision} (hlasting : w.Lasting)
    (hday : EmailRateLimit.utcDay w.now = day) (hempty : w.counted (tenantId, day) ≤ 0)
    (hbefore : run (step tenantId day config) (initial w) before = some s)
    (hreserve : step tenantId day config s (.reserve n) = some s')
    (hduring : run (step tenantId day config) s' during = some s₂)
    (hanswer : s₂.running n = some (.ret (some decision))) (hrefused : decision.allowed = false)
    (hunhindered : Along (step tenantId day config) (Unhindered config.resendDailyLimit n)
      s' during) :
    ¬Always (step tenantId day config) (fun m => m.granted.card < config.resendDailyLimit)
      s' during := by
  intro hfree
  have hinv : Inv tenantId day config s' :=
    (run_invariant (fun _ _ _ h hs => h.step hs) (inv_initial hlasting hday hempty) hbefore).step
      hreserve
  have hidle : ¬s'.Overshot n := by
    obtain ⟨-, hs⟩ := Option.ite_none_left_eq_some.mp hreserve
    obtain rfl := Option.some.inj hs
    rintro (h | h) <;> exact absurd ((Function.update_self ..).symm.trans h) (by decide)
  have hlow : Along (step tenantId day config)
      (fun m _ _ => m.granted.card < config.resendDailyLimit) s' during :=
    hfree.along fun _ _ _ h _ => h
  have hstep : ∀ u a u', Inv tenantId day config u ∧ ¬u.Overshot n →
      step tenantId day config u a = some u' →
      Unhindered config.resendDailyLimit n u a u' ∧ u.granted.card < config.resendDailyLimit →
      Inv tenantId day config u' ∧ ¬u'.Overshot n := by
    rintro u a u' ⟨hu, hnot⟩ hs ⟨hunhindered, hfree⟩
    refine ⟨hu.step hs, fun hafter => ?_⟩
    exact absurd (full_of_overshot hu hs hnot hafter hunhindered) (not_le.mpr hfree)
  obtain ⟨hinv₂, hnot⟩ :=
    (always_of_along hstep ⟨hinv, hidle⟩ (hunhindered.and hlow)).last hduring
  exact hnot (.inr (hinv₂.keeps n _ hanswer decision rfl hrefused))

/-- The deployment sends one mail a day for each tenant. -/
def oneMail : AppConfig := Metered.mailDeployment.config

/-- Nobody has counted a mail yet. -/
def uncounted : World := System.oneFeed.world

/-- The only mail of the day is reserved. -/
def reserveOnly : List Action := .reserve 0 :: List.replicate 3 (.proceed 0)

/-- The next call increments the counter and gives the increment back. -/
def secondCall : List Action := List.replicate 3 (.proceed 1)

/-- With the only mail reserved, the next call is refused. -/
theorem refused_when_full_reserved :
    ∃ s s' s₂ decision, run (step "t" 0 oneMail) (initial uncounted) reserveOnly = some s ∧
      step "t" 0 oneMail s (.reserve 1) = some s' ∧
      run (step "t" 0 oneMail) s' secondCall = some s₂ ∧
      s₂.running 1 = some (.ret (some decision)) ∧ decision.allowed = false ∧
      ¬Always (step "t" 0 oneMail) (fun m => m.granted.card < oneMail.resendDailyLimit) s'
        secondCall := by
  refine ⟨_, _, _, _, rfl, rfl, rfl, rfl, rfl, ?_⟩
  exact refused_when_full (w := uncounted) (n := 1) nofun rfl (by decide)
    (rfl : run (step "t" 0 oneMail) (initial uncounted) reserveOnly = _) rfl rfl rfl rfl
    (by decide +kernel)

/-- A second call overshoots the limit of one, and then the reservation is given back. -/
def releaseAfterOvershoot : List Action :=
  reserveOnly ++ [.reserve 1, .proceed 1, .proceed 1, .release 0, .proceed 0, .proceed 0]

/-- The third call is refused. -/
def thirdCall : List Action := List.replicate 3 (.proceed 2)

/-- **A call is refused while nothing is granted.** -/
theorem refused_too_early :
    ∃ s s' s₂ decision,
      run (step "t" 0 oneMail) (initial uncounted) releaseAfterOvershoot = some s ∧
      step "t" 0 oneMail s (.reserve 2) = some s' ∧
      run (step "t" 0 oneMail) s' thirdCall = some s₂ ∧
      s₂.running 2 = some (.ret (some decision)) ∧ decision.allowed = false ∧
      Always (step "t" 0 oneMail) (fun m => m.granted.card < oneMail.resendDailyLimit) s'
        thirdCall :=
  ⟨_, _, _, _, rfl, rfl, rfl, rfl, rfl, by decide +kernel⟩

end QuotaCalls

end Feedpulse
