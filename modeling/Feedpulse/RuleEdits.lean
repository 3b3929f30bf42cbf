import Feedpulse.Entries
import Feedpulse.WriteBack

/-!
# Edits of a rule

`RulesRepository.update` reads the rule, fills in what the caller left out and writes all four
columns back. Two edits of one rule that supply different fields can lose the one that is written
first: `edits_kept_iff` says in which interleavings, and `renaming_lost` is a rule that keeps its
name because it is switched off at the same time.
-/

namespace Feedpulse

namespace RulesRepository

/-! ## Update -/

/-- What a caller of `update` supplies. -/
structure Edit where
  /-- the new name -/
  name : Option String := none
  /-- the new include keywords -/
  includeKeywords : Option (List String) := none
  /-- the new exclude keywords -/
  excludeKeywords : Option (List String) := none
  /-- the new active flag -/
  isActive : Option Bool := none
  deriving DecidableEq, Repr

/-- `findById`. -/
def findById (id : Nat) (tenantId : String) (rules : List RuleRow) : Option RuleRow :=
  rules.find? fun r => r.id = id && r.tenantId = tenantId

/-- The values `update` writes, made of the rule it has read. -/
def Edit.values (e : Edit) (current : RuleRow) : Edit where
  name := some (e.name.getD current.name)
  includeKeywords := some (e.includeKeywords.getD current.includeKeywords)
  excludeKeywords := some (e.excludeKeywords.getD current.excludeKeywords)
  isActive := some (e.isActive.getD current.isActive)

/-- A rule with the supplied fields replaced. -/
def Edit.apply (e : Edit) (r : RuleRow) : RuleRow :=
  { r with
    name := e.name.getD r.name
    includeKeywords := e.includeKeywords.getD r.includeKeywords
    excludeKeywords := e.excludeKeywords.getD r.excludeKeywords
    isActive := e.isActive.getD r.isActive }

/-- The `UPDATE` of `update`. -/
def applyUpdate (id : Nat) (tenantId : String) (values : Edit) (rules : List RuleRow) :
    List RuleRow :=
  Table.updateWhere (fun r => r.id = id && r.tenantId = tenantId) values.apply rules

/-- Calls of `update` for one rule of a tenant: each reads the rule, and writes it back if it has
found it. -/
abbrev editing (id : Nat) (tenantId : String) : WriteBack where
  Stored := List RuleRow
  Request := Edit
  View := Option RuleRow
  Moment := Unit
  Other := Empty
  view _ rules := findById id tenantId rules
  back e current _ rules := current.elim rules fun r => applyUpdate id tenantId (e.values r) rules
  other o _ := nomatch o

variable {id : Nat} {tenantId : String} {e e' : Edit} {current r : RuleRow}
  {rules : List RuleRow}

theorem findById_applyUpdate (values : Edit) :
    findById id tenantId (applyUpdate id tenantId values rules)
      = (findById id tenantId rules).map values.apply := by
  induction rules with
  | nil => rfl
  | cons r rules ih =>
    unfold findById applyUpdate Table.updateWhere at ih ⊢
    rw [List.map_cons, List.find?_cons, List.find?_cons]
    by_cases h : (decide (r.id = id) && decide (r.tenantId = tenantId)) = true
    · have happly : (decide ((values.apply r).id = id)
          && decide ((values.apply r).tenantId = tenantId)) = true := h
      simp only [h, happly, if_true, Option.map_some]
    · simp only [h, if_false, Bool.false_eq_true]
      exact ih

/-- A rule that is found has the id and the tenant that were looked for. -/
theorem of_findById (h : findById id tenantId rules = some r) :
    r.id = id ∧ r.tenantId = tenantId := by
  simpa using List.find?_some h

/-- All columns that can be edited are written: only what was read counts. -/
theorem values_apply (hid : r.id = current.id) (htenant : r.tenantId = current.tenantId) :
    (e.values current).apply r = e.apply current := by
  cases r
  cases current
  obtain rfl := hid
  obtain rfl := htenant
  rfl

/-- What a call leaves that has read the rule: the rule it has read with its edit. -/
theorem findById_back (h : findById id tenantId rules = some r)
    (hid : r.id = current.id) (htenant : r.tenantId = current.tenantId) :
    findById id tenantId ((editing id tenantId).back e (some current) () rules)
      = some (e.apply current) := by
  change findById id tenantId (applyUpdate id tenantId (e.values current) rules) = _
  rw [findById_applyUpdate, h, Option.map_some, values_apply hid htenant]

/-! ## Two edits -/

/-- The rule has the values the edit supplies. -/
structure Edit.Kept (e : Edit) (r : RuleRow) : Prop where
  /-- the name -/
  name : ∀ value, e.name = some value → r.name = value
  /-- the include keywords -/
  includeKeywords : ∀ value, e.includeKeywords = some value → r.includeKeywords = value
  /-- the exclude keywords -/
  excludeKeywords : ∀ value, e.excludeKeywords = some value → r.excludeKeywords = value
  /-- the active flag -/
  isActive : ∀ value, e.isActive = some value → r.isActive = value

/-- No field is supplied by both edits. -/
structure Edit.Disjoint (e e' : Edit) : Prop where
  /-- the name -/
  name : e.name = none ∨ e'.name = none
  /-- the include keywords -/
  includeKeywords : e.includeKeywords = none ∨ e'.includeKeywords = none
  /-- the exclude keywords -/
  excludeKeywords : e.excludeKeywords = none ∨ e'.excludeKeywords = none
  /-- the active flag -/
  isActive : e.isActive = none ∨ e'.isActive = none

theorem Edit.Disjoint.symm (h : e.Disjoint e') : e'.Disjoint e :=
  ⟨h.name.symm, h.includeKeywords.symm, h.excludeKeywords.symm, h.isActive.symm⟩

/-- An edit has its values after it has been applied. -/
theorem kept_apply (e : Edit) (r : RuleRow) : e.Kept (e.apply r) := by
  refine ⟨?_, ?_, ?_, ?_⟩ <;>
  · intro value h
    simp [Edit.apply, h]

/-- A field that an edit does not supply is left alone. -/
theorem getD_eq_iff {α : Type} {supplied supplied' : Option α} {before : α}
    (h : supplied = none ∨ supplied' = none) :
    (∀ value, supplied = some value → supplied'.getD before = value) ↔
      ∀ value, supplied = some value → before = value := by
  rcases h with rfl | rfl
  · exact iff_of_true (fun _ h => nomatch h) fun _ h => nomatch h
  · rfl

/-- A disjoint edit neither takes values away nor brings them. -/
theorem kept_apply_iff (h : e.Disjoint e') : e.Kept (e'.apply r) ↔ e.Kept r := by
  constructor
  · intro hkept
    exact ⟨(getD_eq_iff h.name).mp hkept.name,
      (getD_eq_iff h.includeKeywords).mp hkept.includeKeywords,
      (getD_eq_iff h.excludeKeywords).mp hkept.excludeKeywords,
      (getD_eq_iff h.isActive).mp hkept.isActive⟩
  · intro hkept
    exact ⟨(getD_eq_iff h.name).mpr hkept.name,
      (getD_eq_iff h.includeKeywords).mpr hkept.includeKeywords,
      (getD_eq_iff h.excludeKeywords).mpr hkept.excludeKeywords,
      (getD_eq_iff h.isActive).mpr hkept.isActive⟩

/-! ## Interleavings -/

variable {s s' s₁ s₂ s₃ : WriteBack.State (editing id tenantId)} {client other : Nat}

/-- A call that reads sees the rule, and changes nothing. -/
theorem read_spec (hfound : findById id tenantId s.stored = some r)
    (h : WriteBack.step (editing id tenantId) s (.read client e) = some s') :
    findById id tenantId s'.stored = some r ∧ s'.pending client = some (e, some r) := by
  obtain ⟨hstored, hpending⟩ := WriteBack.step_read h
  refine ⟨hstored ▸ hfound, hpending.trans ?_⟩
  exact congrArg (fun found => some (e, found)) hfound

/-- A call that writes leaves the rule it has read with its edit. -/
theorem write_spec (hfound : findById id tenantId s.stored = some r)
    (hpending : s.pending client = some (e, some current)) (hid : r.id = current.id)
    (htenant : r.tenantId = current.tenantId)
    (h : WriteBack.step (editing id tenantId) s (.write client ()) = some s') :
    findById id tenantId s'.stored = some (e.apply current) := by
  rw [WriteBack.step_write hpending h]
  exact findById_back hfound hid htenant

/-- A call that reads and writes with nothing in between. -/
theorem edit_at_once (hfound : findById id tenantId s.stored = some r)
    (hread : WriteBack.step (editing id tenantId) s (.read client e) = some s₁)
    (hwrite : WriteBack.step (editing id tenantId) s₁ (.write client ()) = some s₂) :
    findById id tenantId s₂.stored = some (e.apply r) := by
  obtain ⟨hfound₁, hpending⟩ := read_spec hfound hread
  exact write_spec hfound₁ hpending rfl rfl hwrite

/-- Two calls that have both read the rule before one of them writes: the edit of the second
one to write is all that is left. -/
theorem edit_twice (hfound : findById id tenantId s.stored = some r)
    (hclient : s.pending client = some (e, some r)) (hother : s.pending other = some (e', some r))
    (hne : client ≠ other)
    (hfirst : WriteBack.step (editing id tenantId) s (.write client ()) = some s₁)
    (hsecond : WriteBack.step (editing id tenantId) s₁ (.write other ()) = some s₂) :
    findById id tenantId s₂.stored = some (e'.apply r) := by
  have hfound₁ := write_spec hfound hclient rfl rfl hfirst
  have hother₁ : s₁.pending other = some (e', some r) := by
    refine WriteBack.step_pending hother (fun _ heq => ?_) hfirst
    cases heq
    exact hne rfl
  exact write_spec hfound₁ hother₁ rfl rfl hsecond

/-- Both read, in any order. -/
theorem read_twice (hfound : findById id tenantId s.stored = some r)
    (hfirst : WriteBack.step (editing id tenantId) s (.read client e) = some s₁)
    (hsecond : WriteBack.step (editing id tenantId) s₁ (.read other e') = some s₂) :
    findById id tenantId s₂.stored = some r ∧ s₂.pending client = some (e, some r) ∧
      s₂.pending other = some (e', some r) := by
  obtain ⟨hfound₁, hclient⟩ := read_spec hfound hfirst
  obtain ⟨hfound₂, hother⟩ := read_spec hfound₁ hsecond
  exact ⟨hfound₂, WriteBack.step_pending hclient (fun _ heq => by cases heq) hsecond, hother⟩

/-- A run of four steps. -/
theorem run_four {a b c d : WriteBack.Action (editing id tenantId)}
    (h : Transition.run (WriteBack.step (editing id tenantId)) s [a, b, c, d] = some s') :
    ∃ s₁ s₂ s₃, WriteBack.step (editing id tenantId) s a = some s₁ ∧
      WriteBack.step (editing id tenantId) s₁ b = some s₂ ∧
      WriteBack.step (editing id tenantId) s₂ c = some s₃ ∧
      WriteBack.step (editing id tenantId) s₃ d = some s' := by
  obtain ⟨s₁, h₁, h⟩ := Transition.run_cons_eq_some h
  obtain ⟨s₂, h₂, h⟩ := Transition.run_cons_eq_some h
  obtain ⟨s₃, h₃, h⟩ := Transition.run_cons_eq_some h
  obtain ⟨s₄, h₄, h⟩ := Transition.run_cons_eq_some h
  obtain rfl := Option.some.inj h
  exact ⟨s₁, s₂, s₃, h₁, h₂, h₃, h₄⟩

/-- The rule of a table has the values of both edits. -/
def BothKept (id : Nat) (tenantId : String) (e e' : Edit) (rules : List RuleRow) : Prop :=
  ∃ r, findById id tenantId rules = some r ∧ e.Kept r ∧ e'.Kept r

theorem bothKept_iff (hfound : findById id tenantId rules = some r) :
    BothKept id tenantId e e' rules ↔ e.Kept r ∧ e'.Kept r := by
  constructor
  · rintro ⟨r', hfound', hkept⟩
    obtain rfl := Option.some.inj (hfound.symm.trans hfound')
    exact hkept
  · intro hkept
    exact ⟨r, hfound, hkept⟩

theorem bothKept_comm : BothKept id tenantId e e' rules ↔ BothKept id tenantId e' e rules :=
  exists_congr fun _ => and_congr_right fun _ => and_comm

/-- The one call is done before the other one begins. -/
theorem bothKept_of_sequential (hfound : findById id tenantId s.stored = some r)
    (hdisjoint : e.Disjoint e')
    (hrun : Transition.run (WriteBack.step (editing id tenantId)) s
      [.read client e, .write client (), .read other e', .write other ()] = some s') :
    BothKept id tenantId e e' s'.stored := by
  obtain ⟨s₁, s₂, s₃, h₁, h₂, h₃, h₄⟩ := run_four hrun
  have hlast := edit_at_once (edit_at_once hfound h₁ h₂) h₃ h₄
  refine (bothKept_iff hlast).mpr ⟨?_, kept_apply e' _⟩
  exact (kept_apply_iff hdisjoint).mpr (kept_apply e r)

/-- Both calls have read the rule, and the second one writes last. -/
theorem bothKept_iff_of_writes (hdisjoint : e.Disjoint e') (hne : client ≠ other)
    (hread : findById id tenantId s₂.stored = some r ∧ s₂.pending client = some (e, some r) ∧
      s₂.pending other = some (e', some r))
    (hfirst : WriteBack.step (editing id tenantId) s₂ (.write client ()) = some s₃)
    (hsecond : WriteBack.step (editing id tenantId) s₃ (.write other ()) = some s') :
    BothKept id tenantId e e' s'.stored ↔ e.Kept r := by
  rw [bothKept_iff (edit_twice hread.1 hread.2.1 hread.2.2 hne hfirst hsecond),
    kept_apply_iff hdisjoint]
  exact and_iff_left (kept_apply e' r)

/-- **Two edits of one rule with different fields both keep their values** exactly if neither
call writes between the read and the write of the other, or only values the rule has had
before. -/
theorem edits_kept_iff {actions : List (WriteBack.Action (editing id tenantId))}
    (hfound : findById id tenantId s.stored = some r) (hdisjoint : e.Disjoint e')
    (horder : WriteBack.Interleaves [.read 1 e, .write 1 ()] [.read 2 e', .write 2 ()] actions)
    (hrun : Transition.run (WriteBack.step (editing id tenantId)) s actions = some s') :
    BothKept id tenantId e e' s'.stored ↔
      ([.read 2 e', .write 1 (), .write 2 ()].Sublist actions → e.Kept r) ∧
        ([.read 1 e, .write 2 (), .write 1 ()].Sublist actions → e'.Kept r) := by
  rcases horder.two_two with (rfl | rfl) | (rfl | rfl) | rfl | rfl
  · refine iff_of_true (bothKept_of_sequential hfound hdisjoint hrun) ?_
    simp [List.cons_sublist_cons']
  · refine iff_of_true (bothKept_comm.mpr
      (bothKept_of_sequential hfound hdisjoint.symm hrun)) ?_
    simp [List.cons_sublist_cons']
  · obtain ⟨s₁, s₂, s₃, h₁, h₂, h₃, h₄⟩ := run_four hrun
    rw [bothKept_iff_of_writes hdisjoint (by decide) (read_twice hfound h₁ h₂) h₃ h₄]
    simp [List.cons_sublist_cons']
  · obtain ⟨s₁, s₂, s₃, h₁, h₂, h₃, h₄⟩ := run_four hrun
    obtain ⟨hread, hother, hclient⟩ := read_twice hfound h₁ h₂
    rw [bothKept_iff_of_writes hdisjoint (by decide) ⟨hread, hclient, hother⟩ h₃ h₄]
    simp [List.cons_sublist_cons']
  · obtain ⟨s₁, s₂, s₃, h₁, h₂, h₃, h₄⟩ := run_four hrun
    obtain ⟨hread, hother, hclient⟩ := read_twice hfound h₁ h₂
    rw [bothKept_comm,
      bothKept_iff_of_writes hdisjoint.symm (by decide) ⟨hread, hclient, hother⟩ h₃ h₄]
    simp [List.cons_sublist_cons']
  · obtain ⟨s₁, s₂, s₃, h₁, h₂, h₃, h₄⟩ := run_four hrun
    rw [bothKept_comm,
      bothKept_iff_of_writes hdisjoint.symm (by decide) (read_twice hfound h₁ h₂) h₃ h₄]
    simp [List.cons_sublist_cons']

/-- A rule of a tenant. -/
def someRule : RuleRow where
  id := 1
  tenantId := "t"
  name := "old"
  includeKeywords := ["a"]
  excludeKeywords := []
  isActive := true

/-- Nobody has read anything yet. -/
def start : WriteBack.State (editing 1 "t") where
  stored := [someRule]
  pending _ := none

/-- A new name. -/
def newName : Edit := { name := some "new" }

/-- The edit of `disable`. -/
def switchingOff : Edit := { isActive := some false }

theorem disjoint_newName_switchingOff : newName.Disjoint switchingOff :=
  ⟨.inr rfl, .inl rfl, .inl rfl, .inl rfl⟩

/-- One call after the other: the rule has its new name and is switched off. -/
theorem edits_kept_iff_sequential : ∃ s',
    Transition.run (WriteBack.step (editing 1 "t")) start
        [.read 1 newName, .write 1 (), .read 2 switchingOff, .write 2 ()] = some s' ∧
      BothKept 1 "t" newName switchingOff s'.stored := by
  obtain ⟨s', hrun⟩ : ∃ s', Transition.run (WriteBack.step (editing 1 "t")) start
      [.read 1 newName, .write 1 (), .read 2 switchingOff, .write 2 ()] = some s' := ⟨_, rfl⟩
  refine ⟨s', hrun, (edits_kept_iff (r := someRule) rfl disjoint_newName_switchingOff
    (.left (.left (.right (.right .nil)))) hrun).mpr ?_⟩
  simp [List.cons_sublist_cons']

/-- The rule is renamed and switched off at the same time: both have read it before one writes,
and it keeps its name. -/
theorem renaming_lost : ∃ s',
    Transition.run (WriteBack.step (editing 1 "t")) start
        [.read 1 newName, .read 2 switchingOff, .write 1 (), .write 2 ()] = some s' ∧
      s'.stored = [{ someRule with isActive := false }] ∧
      ¬BothKept 1 "t" newName switchingOff s'.stored := by
  obtain ⟨s', hrun, hstored⟩ : ∃ s', Transition.run (WriteBack.step (editing 1 "t")) start
      [.read 1 newName, .read 2 switchingOff, .write 1 (), .write 2 ()] = some s' ∧
        s'.stored = [{ someRule with isActive := false }] := ⟨_, rfl, rfl⟩
  refine ⟨s', hrun, hstored, ?_⟩
  rintro ⟨r, hfound, hkept, -⟩
  rw [hstored] at hfound
  obtain rfl := List.mem_singleton.mp (List.mem_of_find?_eq_some hfound)
  exact absurd (hkept.name "new" rfl) (by decide)

end RulesRepository

end Feedpulse
