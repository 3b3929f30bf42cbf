import Feedpulse.DeliveryReach
import Feedpulse.EntryTable

/-!
# The rows of the tenants

Feeds, articles, rules, alerts and digest items carry their tenant, next to the keys of the rows
they belong to; the foreign keys are of one column each, and do not say that the tenants agree.
`TenantsApart` says that they do, of what is stored and of what the open transactions have
staged, and `TenantsApart.serve` what a process has to observe to keep it so.
-/

namespace Feedpulse

open AlertUpsert

/-! ## Owners -/

/-- An article and rules of one tenant. -/
structure OfTenant (rules : List RuleRow) (entries : List EntryRow) (tenantId : String)
    (entryId : Nat) (ruleIds : List Nat) : Prop where
  /-- the article -/
  entry : ∃ e ∈ entries, e.id = entryId ∧ e.tenantId = tenantId
  /-- the rules -/
  rules : ∀ id ∈ ruleIds, ∃ r ∈ rules, r.id = id ∧ r.tenantId = tenantId

theorem OfTenant.mono {rules : List RuleRow} {entries entries' : List EntryRow}
    {tenantId : String} {entryId : Nat} {ruleIds : List Nat}
    (h : OfTenant rules entries tenantId entryId ruleIds) (hsub : ∀ e ∈ entries, e ∈ entries') :
    OfTenant rules entries' tenantId entryId ruleIds := by
  obtain ⟨e, he, hrest⟩ := h.entry
  exact ⟨⟨e, hsub e he, hrest⟩, h.rules⟩

/-- The alert is for an article of its tenant, and rules of its tenant matched. -/
abbrev AlertRow.Coherent (rules : List RuleRow) (entries : List EntryRow) (a : AlertRow) : Prop :=
  OfTenant rules entries a.tenantId a.entryId (a.ruleId :: a.matchedRules)

/-- So it is with a row of the upsert. -/
abbrev UpsertRow.Coherent (rules : List RuleRow) (entries : List EntryRow) (u : UpsertRow) :
    Prop :=
  OfTenant rules entries u.tenantId u.entryId (u.ruleId :: u.matchedRules)

/-- The rules of one alert can be given to another of the same tenant. -/
theorem AlertRow.Coherent.replace {rules : List RuleRow} {entries : List EntryRow}
    {a b : AlertRow} (ha : a.Coherent rules entries) (hb : b.Coherent rules entries)
    (h : b.tenantId = a.tenantId) :
    { a with matchedRules := b.matchedRules }.Coherent rules entries := by
  refine ⟨ha.entry, fun id hid => ?_⟩
  rcases List.mem_cons.mp hid with rfl | hid
  · exact ha.rules _ List.mem_cons_self
  · exact h ▸ hb.rules id (List.mem_cons_of_mem _ hid)

/-- Keys are taken from a sequence, and stand for alerts of one tenant. -/
structure AlertKeys (alerts : AlertRow → Prop) (next : Nat) : Prop where
  /-- the sequence is ahead -/
  fresh : ∀ a, alerts a → a.id < next
  /-- one tenant -/
  owner : ∀ a b, alerts a → alerts b → a.id = b.id → a.tenantId = b.tenantId

theorem AlertKeys.of_subset {alerts alerts' : AlertRow → Prop} {next : Nat}
    (h : AlertKeys alerts next)
    (hsub : ∀ a', alerts' a' → ∃ a, alerts a ∧ a.id = a'.id ∧ a.tenantId = a'.tenantId) :
    AlertKeys alerts' next := by
  constructor
  · intro a' ha'
    obtain ⟨a, ha, hid, -⟩ := hsub a' ha'
    exact hid ▸ h.fresh a ha
  · intro a' b' ha' hb' heq
    obtain ⟨a, ha, hid, htenant⟩ := hsub a' ha'
    obtain ⟨b, hb, hid', htenant'⟩ := hsub b' hb'
    rw [← htenant, ← htenant']
    exact h.owner a b ha hb (hid.trans (heq.trans hid'.symm))

/-! ## The upsert -/

namespace World

/-- What the upsert finds under the key of a row is an alert of the same tenant. -/
theorem found_tenantId {committed staged : List AlertRow} {u : UpsertRow} {b : AlertRow}
    (h : (Table.lookup alertKey (rowKey u) staged).or
      (Table.lookup alertKey (rowKey u) committed) = some b) :
    (b ∈ staged ∨ b ∈ committed) ∧ b.tenantId = u.tenantId := by
  rcases Option.or_eq_some_iff.mp h with hb | ⟨-, hb⟩
  · exact ⟨.inl (Table.mem_of_lookup hb), congrArg Prod.fst (Table.key_of_lookup hb)⟩
  · exact ⟨.inr (Table.mem_of_lookup hb), congrArg Prod.fst (Table.key_of_lookup hb)⟩

theorem coherent_extendRow {rules : List RuleRow} {entries : List EntryRow} {b : AlertRow}
    {u : UpsertRow} (hb : b.Coherent rules entries) (hu : u.Coherent rules entries)
    (h : b.tenantId = u.tenantId) : (extendRow b u).Coherent rules entries := by
  refine ⟨hb.entry, fun id hid => ?_⟩
  rcases List.mem_cons.mp hid with rfl | hid
  · exact hb.rules _ List.mem_cons_self
  · rcases mem_mergeRules.mp hid with hid | hid
    · exact hb.rules id (List.mem_cons_of_mem _ hid)
    · exact h ▸ hu.rules id (List.mem_cons_of_mem _ hid)

/-- **Coherent rows** are upserted into coherent alerts. -/
theorem coherent_upsertAll {rules : List RuleRow} {entries : List EntryRow} {now : Nat}
    {committed : List AlertRow} (hcommitted : ∀ a ∈ committed, a.Coherent rules entries)
    {us : List UpsertRow} (hus : ∀ u ∈ us, u.Coherent rules entries) {next : Nat}
    {staged : List AlertRow} (hstaged : ∀ a ∈ staged, a.Coherent rules entries) :
    ∀ a ∈ (upsertAll now committed us next staged).2.2, a.Coherent rules entries := by
  induction us generalizing next staged with
  | nil => exact hstaged
  | cons u us ih =>
    refine ih (fun u' hu' => hus u' (List.mem_cons_of_mem _ hu')) fun a ha => ?_
    have hu := hus u List.mem_cons_self
    rcases mem_stageAlert ha with rfl | ha
    · rcases hfound : (Table.lookup alertKey (rowKey u) staged).or
        (Table.lookup alertKey (rowKey u) committed) with _ | b
      · exact hu
      · obtain ⟨hb, htenant⟩ := found_tenantId hfound
        exact coherent_extendRow (hb.elim (hstaged b) (hcommitted b)) hu htenant
    · exact hstaged a ha

/-- The keys of new alerts are new. -/
theorem AlertKeys.upsertAll {base : AlertRow → Prop} {now : Nat} {committed : List AlertRow}
    (hbase : ∀ a ∈ committed, base a) {us : List UpsertRow} {next : Nat}
    {staged : List AlertRow} (h : AlertKeys (fun a => base a ∨ a ∈ staged) next) :
    AlertKeys (fun a => base a ∨ a ∈ (World.upsertAll now committed us next staged).2.2)
      (World.upsertAll now committed us next staged).2.1 := by
  induction us generalizing next staged with
  | nil => exact h
  | cons u us ih =>
    rcases hfound : (Table.lookup alertKey (rowKey u) staged).or
      (Table.lookup alertKey (rowKey u) committed) with _ | b
    · have hnew : AlertKeys
          (fun a => base a ∨ a ∈ stageAlert (insertRow now next u) staged) (next + 1) := by
        have hcases : ∀ a, base a ∨ a ∈ stageAlert (insertRow now next u) staged →
            (base a ∨ a ∈ staged) ∨ a = insertRow now next u := by
          rintro a (ha | ha)
          · exact .inl (.inl ha)
          · exact (mem_stageAlert ha).elim .inr fun ha => .inl (.inr ha)
        constructor
        · intro a ha
          rcases hcases a ha with hold | rfl
          · exact Nat.lt_succ_of_lt (h.fresh a hold)
          · exact Nat.lt_succ_self next
        · intro a b ha hb hid
          rcases hcases a ha with holda | rfl <;> rcases hcases b hb with holdb | rfl
          · exact h.owner a b holda holdb hid
          · exact absurd hid (Nat.ne_of_lt (h.fresh a holda))
          · exact absurd hid.symm (Nat.ne_of_lt (h.fresh b holdb))
          · rfl
      have hrest := ih hnew
      simpa only [World.upsertAll, hfound, upsertRow, if_true] using hrest
    · have hextended : AlertKeys
          (fun a => base a ∨ a ∈ stageAlert (extendRow b u) staged) next := by
        refine h.of_subset ?_
        rintro a (ha | ha)
        · exact ⟨a, .inl ha, rfl, rfl⟩
        · rcases mem_stageAlert ha with rfl | ha
          · obtain ⟨hb, -⟩ := found_tenantId hfound
            exact ⟨b, hb.elim .inr fun hb => .inl (hbase b hb), rfl, rfl⟩
          · exact ⟨a, .inr ha, rfl, rfl⟩
      have hrest := ih hextended
      simpa only [World.upsertAll, hfound, upsertRow, if_false, Bool.false_eq_true] using hrest

/-! ## The commit -/

/-- A row after a commit is one from before with the rules of a row of its id. -/
theorem merged_foldl_commitAlert {staged alerts : List AlertRow} {r : AlertRow}
    (h : r ∈ staged.foldl commitAlert alerts) :
    ∃ b ∈ alerts ++ staged, ∃ x ∈ alerts ++ staged, x.id = b.id ∧
      r = { b with matchedRules := x.matchedRules } := by
  induction staged generalizing alerts with
  | nil => exact ⟨r, List.mem_append_left _ h, r, List.mem_append_left _ h, rfl, rfl⟩
  | cons c staged ih =>
    have hone : ∀ y ∈ commitAlert alerts c ++ staged, ∃ b ∈ alerts ++ c :: staged,
        ∃ x ∈ alerts ++ c :: staged, x.id = b.id ∧
          y = { b with matchedRules := x.matchedRules } := by
      have hmem : c ∈ alerts ++ c :: staged := List.mem_append_right _ List.mem_cons_self
      intro y hy
      rcases List.mem_append.mp hy with hy | hy
      · unfold commitAlert at hy
        split at hy
        · rcases List.mem_append.mp hy with hy | hy
          · exact ⟨y, List.mem_append_left _ hy, y, List.mem_append_left _ hy, rfl, rfl⟩
          · obtain rfl := List.mem_singleton.mp hy
            exact ⟨y, hmem, y, hmem, rfl, rfl⟩
        · obtain ⟨b, hb, rfl⟩ := Table.mem_updateWhere.mp hy
          have hb' := List.mem_append_left (c :: staged) hb
          by_cases hid : b.id = c.id
          · exact ⟨b, hb', c, hmem, hid.symm, by simp [hid]⟩
          · exact ⟨b, hb', b, hb', rfl, by simp [hid]⟩
      · have hy' := List.mem_append_right alerts (List.mem_cons_of_mem c hy)
        exact ⟨y, hy', y, hy', rfl, rfl⟩
    obtain ⟨b, hb, x, hx, hid, rfl⟩ := ih h
    obtain ⟨b₀, hb₀, y₀, -, -, rfl⟩ := hone b hb
    obtain ⟨x₀, -, y, hy, hidy, rfl⟩ := hone x hx
    exact ⟨b₀, hb₀, y, hy, hidy.trans hid, rfl⟩

/-! ## The invariant -/

/-- The tenant of each feed. -/
def feedOwners (w : World) : List (Nat × String) := w.feeds.map fun f => (f.id, f.tenantId)

/-- The alert is one of the tenant. -/
def AlertOf (w : World) (tenantId : String) (id : Nat) : Prop :=
  ∃ a ∈ w.alertRow id, a.tenantId = tenantId

/-- The alert is stored, or staged. -/
def HasAlert (w : World) (a : AlertRow) : Prop :=
  a ∈ w.alerts ∨ ∃ pid t, w.txn pid = some t ∧ a ∈ t.alerts

/-- What belongs together is of one tenant. -/
structure TenantsApart (w : World) : Prop where
  /-- articles are of the tenant of their feed -/
  entries : ∀ e ∈ w.entries, (e.feedId, e.tenantId) ∈ w.feedOwners
  /-- alerts are of the tenant of their article and their rules -/
  alerts : ∀ a ∈ w.alerts, a.Coherent w.rules w.entries
  /-- digest items are of the tenant of their alert -/
  digestItems : ∀ i ∈ w.digestItems, w.AlertOf i.tenantId i.alertId
  /-- the articles of open transactions -/
  stagedEntries : ∀ pid t, w.txn pid = some t → ∀ e ∈ t.entries,
    (e.feedId, e.tenantId) ∈ w.feedOwners
  /-- the alerts of open transactions -/
  stagedAlerts : ∀ pid t, w.txn pid = some t → ∀ a ∈ t.alerts,
    a.Coherent w.rules (w.entries ++ t.entries)
  /-- the keys of alerts -/
  keys : AlertKeys w.HasAlert w.nextAlertId

/-- What a process observes. -/
def OwnRows (pid : Nat) (w : World) : Call → Prop
  | .ingest (.insertEntry tenantId feedId _) => (feedId, tenantId) ∈ w.feedOwners
  | .ingest (.upsertAlerts rows) =>
    ∀ t, w.txn pid = some t → ∀ u ∈ rows, u.Coherent w.rules (w.entries ++ t.entries)
  | .alert (.insertDigestItem tenantId alertId _ _) => w.AlertOf tenantId alertId
  | _ => True

/-! ### Frames -/

variable {pid : Nat} {w w' : World} {c : Call}

/-- Feeds stay with their tenants. -/
theorem feedOwners_effect (h : CallEffect pid w c w') : w'.feedOwners = w.feedOwners := by
  have hupdate : ∀ (p : FeedRow → Bool) (g : FeedRow → FeedRow) (feeds : List FeedRow),
      (∀ f, (g f).id = f.id ∧ (g f).tenantId = f.tenantId) →
        (Table.updateWhere p g feeds).map (fun f => (f.id, f.tenantId))
          = feeds.map fun f => (f.id, f.tenantId) := by
    intro p g feeds hg
    exact Table.map_updateWhere (fun f : FeedRow => (f.id, f.tenantId)) feeds fun f =>
      Prod.ext (hg f).1 (hg f).2
  cases h with
  | claim limit skipped picks jitters claimed feeds h =>
    obtain ⟨-, rfl, -⟩ := Feeds.claimDueFeeds_eq_some h
    exact hupdate _ _ _ fun _ => ⟨rfl, rfl⟩
  | releaseStuck => exact hupdate _ _ _ fun _ => ⟨rfl, rfl⟩
  | updateFeed => exact hupdate _ _ _ fun _ => ⟨rfl, rfl⟩
  | reportFetch => exact hupdate _ _ _ fun _ => ⟨rfl, rfl⟩
  | commit =>
    unfold commitTxn
    split
    · rfl
    · rename_i t ht
      have hall : ∀ (us : List Feeds.AfterFetch) (feeds : List FeedRow),
          (us.foldl (fun fs u => Feeds.updateAfterFetch w.now u fs) feeds).map
            (fun f => (f.id, f.tenantId)) = feeds.map fun f => (f.id, f.tenantId) := by
        intro us
        induction us with
        | nil => exact fun _ => rfl
        | cons u us ih => exact fun feeds => (ih _).trans (hupdate _ _ _ fun _ => ⟨rfl, rfl⟩)
      exact hall _ _
  | _ => rfl

/-- The processes do not edit rules. -/
theorem rules_effect (h : CallEffect pid w c w') : w'.rules = w.rules := by
  cases h with
  | commit =>
    unfold commitTxn
    split <;> rfl
  | _ => rfl

/-- Alerts stay with their tenant and article. -/
theorem alertOf_effect (h : CallEffect pid w c w') :
    RowsKeep (fun a b : AlertRow => b.tenantId = a.tenantId ∧ b.entryId = a.entryId) w w' := by
  have hR : RowRelation fun a b : AlertRow =>
      b.tenantId = a.tenantId ∧ b.entryId = a.entryId :=
    { refl := fun _ => ⟨rfl, rfl⟩
      trans := fun h h' => ⟨h'.1.trans h.1, h'.2.trans h.2⟩
      rules := fun _ _ => ⟨rfl, rfl⟩
      telegram := fun _ _ => ⟨rfl, rfl⟩ }
  exact rowsKeep_effect hR h fun _ s _ now a =>
    ⟨AlertWrite.apply_tenantId now s a, AlertWrite.apply_entryId now s a⟩

theorem AlertOf.effect {tenantId : String} {id : Nat} (h : w.AlertOf tenantId id)
    (he : CallEffect pid w c w') : w'.AlertOf tenantId id := by
  obtain ⟨a, ha, htenant⟩ := h
  obtain ⟨a', ha', hkept, -⟩ := alertOf_effect he id a ha
  exact ⟨a', ha', hkept.trans htenant⟩

/-! ### Calls -/

/-- The keys of alerts, where no alert is staged. -/
theorem TenantsApart.keys_congr (h : w.TenantsApart) (hnext : w'.nextAlertId = w.nextAlertId)
    (halerts : ∀ a' ∈ w'.alerts, ∃ a, w.HasAlert a ∧ a.id = a'.id ∧ a.tenantId = a'.tenantId)
    (htxn : ∀ q t', w'.txn q = some t' → t'.alerts = [] ∨
      ∃ t, w.txn q = some t ∧ t'.alerts = t.alerts) : AlertKeys w'.HasAlert w'.nextAlertId := by
  rw [hnext]
  refine h.keys.of_subset ?_
  rintro a' (ha' | ⟨q, t', ht', ha'⟩)
  · exact halerts a' ha'
  · rcases htxn q t' ht' with hnil | ⟨t, ht, heq⟩
    · rw [hnil] at ha'
      cases ha'
    · exact ⟨a', .inr ⟨q, t, ht, heq ▸ ha'⟩, rfl, rfl⟩

/-- What neither stages nor commits a row. -/
theorem TenantsApart.congr (h : w.TenantsApart) (hfeeds : w'.feedOwners = w.feedOwners)
    (hrules : w'.rules = w.rules) (hentries : w'.entries = w.entries)
    (halerts : ∀ a' ∈ w'.alerts, ∃ a ∈ w.alerts, a'.id = a.id ∧ a'.tenantId = a.tenantId ∧
      a'.entryId = a.entryId ∧ a'.ruleId = a.ruleId ∧ a'.matchedRules = a.matchedRules)
    (hitems : ∀ i ∈ w'.digestItems, w'.AlertOf i.tenantId i.alertId)
    (hnext : w'.nextAlertId = w.nextAlertId)
    (htxn : ∀ q t', w'.txn q = some t' → t' = Txn.empty ∨
      ∃ t, w.txn q = some t ∧ t'.entries = t.entries ∧ t'.alerts = t.alerts) :
    w'.TenantsApart where
  entries := by
    rw [hentries, hfeeds]
    exact h.entries
  alerts := by
    intro a' ha'
    obtain ⟨a, ha, -, htenant, hentry, hrule, hmatched⟩ := halerts a' ha'
    have hcoherent := h.alerts a ha
    rwa [AlertRow.Coherent, htenant, hentry, hrule, hmatched, hrules, hentries]
  digestItems := hitems
  stagedEntries := by
    intro q t' ht' e he
    rw [hfeeds]
    rcases htxn q t' ht' with rfl | ⟨t, ht, heq, -⟩
    · cases he
    · exact h.stagedEntries q t ht e (heq ▸ he)
  stagedAlerts := by
    intro q t' ht' a ha
    rw [hrules, hentries]
    rcases htxn q t' ht' with rfl | ⟨t, ht, hes, has⟩
    · cases ha
    · rw [hes]
      exact h.stagedAlerts q t ht a (has ▸ ha)
  keys := by
    refine h.keys_congr hnext (fun a' ha' => ?_) fun q t' ht' => ?_
    · obtain ⟨a, ha, hid, htenant, -⟩ := halerts a' ha'
      exact ⟨a, .inl ha, hid.symm, htenant.symm⟩
    · rcases htxn q t' ht' with rfl | ⟨t, ht, -, has⟩
      · exact .inl rfl
      · exact .inr ⟨t, ht, has⟩

/-- **An insert** of an article of the feed's tenant. -/
theorem TenantsApart.insertEntry (h : w.TenantsApart) {tenantId : String} {feedId : Nat}
    {e : NormalizedEntry} {a : Option EntryRow} (hown : (feedId, tenantId) ∈ w.feedOwners)
    (hs : w.insertEntry pid tenantId feedId e = some (a, w')) : w'.TenantsApart := by
  obtain ⟨t, ht, -, ⟨-, -, rfl⟩ | ⟨-, row, -, htenant, hfeed, -, -, rfl⟩⟩ := insertEntry_eq_some hs
  · exact h
  have htxn : ∀ q t', ({ w.setTxn pid { t with entries := t.entries ++ [row] } with
      nextEntryId := w.nextEntryId + 1 } : World).txn q = some t' →
      ∃ t₀, w.txn q = some t₀ ∧ t'.alerts = t₀.alerts ∧
        ((q = pid ∧ t'.entries = t₀.entries ++ [row]) ∨ t'.entries = t₀.entries) := by
    intro q t' ht'
    change (w.setTxn pid _).txn q = some t' at ht'
    rw [txn_setTxn] at ht'
    split at ht'
    · obtain rfl := Option.some.inj ht'
      rename_i hq
      exact ⟨t, hq ▸ ht, rfl, .inl ⟨hq, rfl⟩⟩
    · exact ⟨t', ht', rfl, .inr rfl⟩
  constructor
  · exact h.entries
  · exact h.alerts
  · exact h.digestItems
  · intro q t' ht' x hx
    obtain ⟨t₀, ht₀, -, ⟨rfl, heq⟩ | heq⟩ := htxn q t' ht'
    · rw [heq] at hx
      rcases List.mem_append.mp hx with hx | hx
      · exact h.stagedEntries q t₀ ht₀ x hx
      · obtain rfl := List.mem_singleton.mp hx
        rw [htenant, hfeed]
        exact hown
    · exact h.stagedEntries q t₀ ht₀ x (heq ▸ hx)
  · intro q t' ht' x hx
    obtain ⟨t₀, ht₀, has, hes⟩ := htxn q t' ht'
    refine (h.stagedAlerts q t₀ ht₀ x (has ▸ hx)).mono fun y hy => ?_
    rcases List.mem_append.mp hy with hy | hy
    · exact List.mem_append_left _ hy
    · refine List.mem_append_right _ ?_
      rcases hes with ⟨-, heq⟩ | heq
      · exact heq ▸ List.mem_append_left _ hy
      · exact heq ▸ hy
  · refine h.keys_congr rfl (fun a' ha' => ⟨a', .inl ha', rfl, rfl⟩) fun q t' ht' => ?_
    obtain ⟨t₀, ht₀, has, -⟩ := htxn q t' ht'
    exact .inr ⟨t₀, ht₀, has⟩

/-- **An upsert** of coherent rows. -/
theorem TenantsApart.upsertAlerts (h : w.TenantsApart) {rows : List UpsertRow} {t : Txn}
    (ht : w.txn pid = some t)
    (hrows : ∀ u ∈ rows, u.Coherent w.rules (w.entries ++ t.entries)) :
    { w.setTxn pid { t with
        alerts := (upsertAll w.now w.alerts rows w.nextAlertId t.alerts).2.2 } with
      nextAlertId := (upsertAll w.now w.alerts rows w.nextAlertId t.alerts).2.1 }.TenantsApart := by
  set out := upsertAll w.now w.alerts rows w.nextAlertId t.alerts with hout
  have htxn : ∀ q t', ({ w.setTxn pid { t with alerts := out.2.2 } with
      nextAlertId := out.2.1 } : World).txn q = some t' →
      (q = pid ∧ t' = { t with alerts := out.2.2 }) ∨ (q ≠ pid ∧ w.txn q = some t') := by
    intro q t' ht'
    change (w.setTxn pid _).txn q = some t' at ht'
    rw [txn_setTxn] at ht'
    split at ht'
    · exact .inl ⟨‹_›, (Option.some.inj ht').symm⟩
    · exact .inr ⟨‹_›, ht'⟩
  constructor
  · exact h.entries
  · exact h.alerts
  · exact h.digestItems
  · intro q t' ht'
    rcases htxn q t' ht' with ⟨rfl, rfl⟩ | ⟨-, hold⟩
    · exact h.stagedEntries q t ht
    · exact h.stagedEntries q t' hold
  · intro q t' ht'
    rcases htxn q t' ht' with ⟨rfl, rfl⟩ | ⟨-, hold⟩
    · refine coherent_upsertAll (fun a ha => (h.alerts a ha).mono fun e he => ?_) hrows
        (h.stagedAlerts q t ht)
      exact List.mem_append_left _ he
    · exact h.stagedAlerts q t' hold
  · have hbase : AlertKeys (fun a => w.HasAlert a ∨ a ∈ t.alerts) w.nextAlertId := by
      refine h.keys.of_subset ?_
      rintro a (ha | ha)
      · exact ⟨a, ha, rfl, rfl⟩
      · exact ⟨a, .inr ⟨pid, t, ht, ha⟩, rfl, rfl⟩
    refine (AlertKeys.upsertAll (fun a ha => .inl ha) hbase).of_subset ?_
    rintro a (ha | ⟨q, t', ht', ha⟩)
    · exact ⟨a, .inl (.inl ha), rfl, rfl⟩
    · rcases htxn q t' ht' with ⟨rfl, rfl⟩ | ⟨-, hold⟩
      · exact ⟨a, .inr ha, rfl, rfl⟩
      · exact ⟨a, .inl (.inr ⟨q, t', hold, ha⟩), rfl, rfl⟩

/-- **A commit.** -/
theorem TenantsApart.commit (h : w.TenantsApart) : (w.commitTxn pid).TenantsApart := by
  have heffect : CallEffect pid w (.ingest .commit) (w.commitTxn pid) := .commit
  have hfeeds := feedOwners_effect heffect
  rcases ht : w.txn pid with _ | t
  · rwa [commitTxn, ht]
  have hcommit : w.commitTxn pid = { w.dropTxn pid with
      entries := w.entries ++ t.entries
      alerts := t.alerts.foldl commitAlert w.alerts
      fetchLogs := w.fetchLogs ++ t.fetchLogs
      feeds := t.feedUpdates.foldl (fun fs u => Feeds.updateAfterFetch w.now u fs) w.feeds } := by
    rw [commitTxn, ht]
  rw [hcommit] at hfeeds heffect ⊢
  have hold : ∀ q t', (w.dropTxn pid).txn q = some t' → w.txn q = some t' := by
    intro q t' ht'
    rw [txn_dropTxn] at ht'
    exact (Option.ite_none_left_eq_some.mp ht').2
  -- every row, and every row its rules may come from, was coherent before
  have hsome : ∀ a ∈ w.alerts ++ t.alerts,
      w.HasAlert a ∧ a.Coherent w.rules (w.entries ++ t.entries) := by
    intro a ha
    rcases List.mem_append.mp ha with ha | ha
    · exact ⟨.inl ha, (h.alerts a ha).mono fun e he => List.mem_append_left _ he⟩
    · exact ⟨.inr ⟨pid, t, ht, ha⟩, h.stagedAlerts pid t ht a ha⟩
  constructor
  · intro e he
    rw [hfeeds]
    exact (List.mem_append.mp he).elim (h.entries e) (h.stagedEntries pid t ht e)
  · intro a ha
    obtain ⟨b, hb, x, hx, hid, rfl⟩ := merged_foldl_commitAlert ha
    obtain ⟨hasb, hcb⟩ := hsome b hb
    obtain ⟨hasx, hcx⟩ := hsome x hx
    exact hcb.replace hcx (h.keys.owner x b hasx hasb hid)
  · exact fun i hi => (h.digestItems i hi).effect heffect
  · intro q t' ht' e he
    rw [hfeeds]
    exact h.stagedEntries q t' (hold q t' ht') e he
  · intro q t' ht' a ha
    refine (h.stagedAlerts q t' (hold q t' ht') a ha).mono fun e he => ?_
    rcases List.mem_append.mp he with he | he
    · exact List.mem_append_left _ (List.mem_append_left _ he)
    · exact List.mem_append_right _ he
  · refine h.keys_congr rfl (fun a' ha' => ?_) fun q t' ht' => .inr ⟨t', hold q t' ht', rfl⟩
    obtain ⟨b, hb, x, -, -, rfl⟩ := merged_foldl_commitAlert ha'
    exact ⟨b, (hsome b hb).1, rfl, rfl⟩

/-- The alerts after a call that commits nothing. -/
theorem alerts_effect (h : CallEffect pid w c w') (hc : c ≠ .ingest .commit) :
    ∀ a' ∈ w'.alerts, ∃ a ∈ w.alerts, a'.id = a.id ∧ a'.tenantId = a.tenantId ∧
      a'.entryId = a.entryId ∧ a'.ruleId = a.ruleId ∧ a'.matchedRules = a.matchedRules := by
  intro a' ha'
  cases h with
  | writeAlert id s =>
    obtain ⟨a, ha, rfl⟩ := Table.mem_updateWhere.mp ha'
    refine ⟨a, ha, ?_⟩
    split <;> simp
  | converge c p =>
    obtain ⟨a, ha, rfl⟩ := Table.mem_updateWhere.mp ha'
    refine ⟨a, ha, ?_⟩
    split <;> exact ⟨rfl, rfl, rfl, rfl, rfl⟩
  | commit => exact absurd rfl hc
  | _ => exact ⟨a', ha', rfl, rfl, rfl, rfl, rfl⟩

/-- A digest item was there before the call, or is inserted by it. -/
theorem digestItems_effect (h : CallEffect pid w c w') {i : DigestItemRow}
    (hi : i ∈ w'.digestItems) :
    (∃ j ∈ w.digestItems, i.tenantId = j.tenantId ∧ i.alertId = j.alertId ∧ i.chatId = j.chatId) ∨
      ∃ scheduledFor,
        c = .alert (.insertDigestItem i.tenantId i.alertId i.chatId scheduledFor) := by
  cases h with
  | insertDigestItem tenantId alertId chatId scheduledFor items next hins =>
    have hitems : items = (w.insertDigestItem tenantId alertId chatId scheduledFor).digestItems :=
      congrArg digestItems hins
    change i ∈ items at hi
    rw [hitems] at hi
    unfold World.insertDigestItem at hi
    split at hi
    · exact .inl ⟨i, hi, rfl, rfl, rfl⟩
    · rcases List.mem_append.mp hi with hi | hi
      · exact .inl ⟨i, hi, rfl, rfl, rfl⟩
      · obtain rfl := List.mem_singleton.mp hi
        exact .inr ⟨scheduledFor, rfl⟩
  | markDigestItemSent id =>
    obtain ⟨j, hj, rfl⟩ := Table.mem_updateWhere.mp hi
    refine .inl ⟨j, hj, ?_⟩
    split <;> exact ⟨rfl, rfl, rfl⟩
  | commit =>
    unfold commitTxn at hi
    split at hi <;> exact .inl ⟨i, hi, rfl, rfl, rfl⟩
  | _ => exact .inl ⟨i, hi, rfl, rfl, rfl⟩

/-- Keys of alerts are used up by upserts only. -/
theorem nextAlertId_effect (h : CallEffect pid w c w')
    (hc : ∀ rows, c ≠ .ingest (.upsertAlerts rows)) : w'.nextAlertId = w.nextAlertId := by
  cases h with
  | stageAlerts rows => exact absurd rfl (hc rows)
  | commit =>
    unfold commitTxn
    split <;> rfl
  | _ => rfl

/-- **A call of a process that observes it** keeps the tenants apart. -/
theorem TenantsApart.serve (h : w.TenantsApart) (hown : w.OwnRows pid c) {ch : Choice}
    {a : c.Reply} (hs : c.serve pid w ch = some (a, w')) : w'.TenantsApart := by
  have heffect := serve_effect hs
  by_cases hinsert : ∃ tenantId feedId e, c = .ingest (.insertEntry tenantId feedId e)
  · obtain ⟨tenantId, feedId, e, rfl⟩ := hinsert
    exact h.insertEntry hown hs
  by_cases hupsert : ∃ rows, c = .ingest (.upsertAlerts rows)
  · obtain ⟨rows, rfl⟩ := hupsert
    cases heffect with
    | none => exact h
    | stageAlerts _ t ht => exact h.upsertAlerts ht (hown t ht)
  by_cases hcommit : c = .ingest .commit
  · subst hcommit
    obtain ⟨-, rfl⟩ := Prod.mk.inj (Option.some.inj hs)
    exact h.commit
  refine h.congr (feedOwners_effect heffect) (rules_effect heffect) ?_
    (alerts_effect heffect hcommit) (fun i hi => ?_)
    (nextAlertId_effect heffect fun rows hc => hupsert ⟨rows, hc⟩) fun q t' ht' => ?_
  · rcases entries_effect heffect with heq | ⟨t, hc, -, -⟩
    · exact heq
    · exact absurd hc hcommit
  · rcases digestItems_effect heffect hi with ⟨j, hj, htenant, halert, -⟩ | ⟨scheduledFor, rfl⟩
    · rw [htenant, halert]
      exact (h.digestItems j hj).effect heffect
    · exact hown.effect heffect
  · rcases txnStep_effect heffect ht' with rfl | ⟨t, ht, -, hstep⟩
    · exact .inl rfl
    · refine .inr ⟨t, ht, ?_⟩
      cases hstep with
      | entry tenantId feedId e row hc => exact absurd ⟨tenantId, feedId, e, hc⟩ hinsert
      | alerts rows hc => exact absurd ⟨rows, hc⟩ hupsert
      | _ => exact ⟨rfl, rfl⟩

theorem tenantsApart_quiet (h : w.TenantsApart) (hquiet : System.QuietStep w w') :
    w'.TenantsApart := by
  cases hquiet with
  | dropTxn pid =>
    have hold : ∀ q t, (w.dropTxn pid).txn q = some t → w.txn q = some t := by
      intro q t ht
      rw [txn_dropTxn] at ht
      exact (Option.ite_none_left_eq_some.mp ht).2
    refine h.congr rfl rfl rfl (fun a ha => ⟨a, ha, rfl, rfl, rfl, rfl, rfl⟩) h.digestItems rfl ?_
    exact fun q t ht => .inr ⟨t, hold q t ht, rfl, rfl⟩
  | _ => exact ⟨h.entries, h.alerts, h.digestItems, h.stagedEntries, h.stagedAlerts, h.keys⟩

/-! ## What readers find -/

theorem nodup_of_entriesApart {entries : List EntryRow} (h : EntriesApart entries) :
    (entries.map EntryRow.id).Nodup :=
  List.pairwise_map.mpr (h.imp fun hab hid => hab (.inl hid))

end World

/-- Everything that is shown is of the tenant. -/
structure AlertNotificationRecord.OfTenant (tenantId : String) (record : AlertNotificationRecord) :
    Prop where
  /-- the alert -/
  alert : record.alert.tenantId = tenantId
  /-- the article -/
  entry : record.entry.tenantId = tenantId
  /-- the rule -/
  rule : record.rule.tenantId = tenantId

namespace World

variable {pid : Nat} {w w' : World} {c : Call}

/-- **An alert can be shown**, and shows what is of its tenant. -/
theorem TenantsApart.alertDetail (h : w.TenantsApart) (hentries : EntriesApart w.entries)
    (hrules : (w.rules.map RuleRow.id).Nodup) {a : AlertRow} (ha : a ∈ w.alerts) :
    ∃ record, w.alertDetail a = some record ∧ record.alert.id = a.id ∧
      record.entry ∈ w.entries ∧ record.entry.id = a.entryId ∧ record.OfTenant a.tenantId := by
  obtain ⟨⟨e, he, hid, htenant⟩, hmatched⟩ := h.alerts a ha
  have hshown : shownRule a ∈ a.ruleId :: a.matchedRules := by
    unfold shownRule
    cases a.matchedRules with
    | nil => exact List.mem_cons_self
    | cons r rs => exact List.mem_cons_of_mem _ List.mem_cons_self
  obtain ⟨r, hr, hrid, hrtenant⟩ := hmatched _ hshown
  have hentry : Table.lookup EntryRow.id a.entryId w.entries = some e :=
    hid ▸ Table.lookup_of_mem (nodup_of_entriesApart hentries) he
  have hrule : Table.lookup RuleRow.id (shownRule a) w.rules = some r :=
    hrid ▸ Table.lookup_of_mem hrules hr
  refine ⟨mapAlert a e r, ?_, ?_, he, hid, ?_, htenant, hrtenant⟩
  · rw [World.alertDetail, hentry, hrule]
  · unfold mapAlert
    dsimp only
    split <;> rfl
  · unfold mapAlert
    dsimp only
    split <;> rfl

/-- A worker that reads an alert gets rows of one tenant. -/
theorem TenantsApart.findAlertForWorker (h : w.TenantsApart) (hentries : EntriesApart w.entries)
    (hrules : (w.rules.map RuleRow.id).Nodup) {id : Nat} {record : AlertNotificationRecord}
    (hr : w.findAlertForWorker id = some record) :
    record.OfTenant record.alert.tenantId ∧ w.AlertOf record.alert.tenantId id := by
  obtain ⟨a, ha, hdetail⟩ := Option.bind_eq_some_iff.mp hr
  obtain ⟨record', hrecord', -, -, -, hown⟩ :=
    h.alertDetail hentries hrules (Table.mem_of_lookup ha)
  obtain rfl := Option.some.inj (hdetail.symm.trans hrecord')
  have htenant : record.alert.tenantId = a.tenantId := hown.alert
  rw [htenant]
  exact ⟨hown, a, ha, rfl⟩

/-- The item shows an article under an alert of the tenant. -/
def ShowsOf (w : World) (tenantId : String) (v : DigestItemView) : Prop :=
  ∃ a ∈ w.alertRow v.alertId, a.tenantId = tenantId ∧ ∃ e ∈ w.entries, e.id = a.entryId ∧
    e.tenantId = tenantId ∧ v.title = e.entry.title ∧ v.link = e.entry.link ∧
      v.snippet = e.entry.content

theorem ShowsOf.effect {tenantId : String} {v : DigestItemView} (h : w.ShowsOf tenantId v)
    (he : CallEffect pid w c w') : w'.ShowsOf tenantId v := by
  obtain ⟨a, ha, htenant, e, hmem, hid, hrest⟩ := h
  obtain ⟨a', ha', hkept, hentry⟩ := alertOf_effect he _ a ha
  exact ⟨a', ha', hkept.trans htenant, e, mem_entries_effect he hmem, hid.trans hentry.symm, hrest⟩

/-- **A digest shows** articles of its tenant. -/
theorem TenantsApart.dueGroupItems (h : w.TenantsApart) (hentries : EntriesApart w.entries)
    {nowIso : Nat} {tenantId chatId : String} :
    ∀ v ∈ w.dueGroupItems nowIso tenantId chatId, w.ShowsOf tenantId v := by
  intro v hv
  obtain ⟨i, hi, hview⟩ := List.mem_filterMap.mp hv
  rw [List.mem_insertionSort, List.mem_filter] at hi
  obtain ⟨a, ha, hview⟩ := Option.bind_eq_some_iff.mp hview
  obtain ⟨e, he, rfl⟩ := Option.map_eq_some_iff.mp hview
  have hgroup : i.tenantId = tenantId := by
    have hall := hi.2
    simp only [Bool.and_eq_true, decide_eq_true_eq] at hall
    exact hall.1.2
  obtain ⟨a', ha', htenant⟩ := h.digestItems i hi.1
  obtain rfl := Option.some.inj (ha.symm.trans ha')
  obtain ⟨e', he', hid, howner⟩ := (h.alerts a (Table.mem_of_lookup ha)).entry
  have hlookup := Table.lookup_of_mem (nodup_of_entriesApart hentries) he'
  rw [hid, he] at hlookup
  obtain rfl := Option.some.inj hlookup
  exact ⟨a, ha, htenant.trans hgroup, e, he', hid, howner.trans (htenant.trans hgroup), rfl, rfl,
    rfl⟩

end World

end Feedpulse
