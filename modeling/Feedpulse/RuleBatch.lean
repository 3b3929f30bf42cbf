import Feedpulse.Entries
import Mathlib.Data.List.Count
import Mathlib.Data.List.Induction
import Mathlib.Data.List.Nodup
import Mathlib.Data.List.Perm.Basic

/-!
# Batches of rules

`RulesRepository.insertIgnoreOnConflict` creates the rules of a request whose names are new. It
collapses the names that occur twice, leaves out those of the snapshot of its statement, and lets
the unique index decide about the others, while other writers insert rules of their own.
`batch_partitions` says what it reports and what it stores.
-/

namespace Feedpulse

namespace RuleBatch

/-! ## The table -/

/-- `RuleDraft`. -/
structure RuleDraft where
  /-- name of the rule -/
  name : String
  /-- one of these has to occur -/
  includeKeywords : List String
  /-- none of these may occur -/
  excludeKeywords : List String
  /-- whether the rule is evaluated -/
  isActive : Bool
  deriving DecidableEq, Repr

/-- `Rule`, but for its times. -/
structure Rule where
  /-- id of the row -/
  id : Nat
  /-- name of the rule -/
  name : String
  /-- one of these has to occur -/
  includeKeywords : List String
  /-- none of these may occur -/
  excludeKeywords : List String
  /-- whether the rule is evaluated -/
  isActive : Bool
  deriving DecidableEq, Repr

/-- `mapRule`. -/
def mapRule (row : RuleRow) : Rule where
  id := row.id
  name := row.name
  includeKeywords := row.includeKeywords
  excludeKeywords := row.excludeKeywords
  isActive := row.isActive

/-- The table with the sequence of its ids. -/
structure RuleTable where
  /-- the rows -/
  rows : List RuleRow
  /-- `nextval` of the sequence -/
  nextId : Nat
  deriving DecidableEq, Repr

/-- Whether the tenant has a rule with this name. -/
def hasRule (table : RuleTable) (tenantId name : String) : Bool :=
  table.rows.any fun row => row.tenantId = tenantId && row.name = name

/-- The row of a draft. -/
def rowOf (id : Nat) (tenantId : String) (draft : RuleDraft) : RuleRow where
  id := id
  tenantId := tenantId
  name := draft.name
  includeKeywords := draft.includeKeywords
  excludeKeywords := draft.excludeKeywords
  isActive := draft.isActive

/-- Insert a row, unless the unique index on `(tenant_id, name)` has one. -/
def insertRow (table : RuleTable) (tenantId : String) (draft : RuleDraft) :
    Option RuleRow × RuleTable :=
  if hasRule table tenantId draft.name then (none, { table with nextId := table.nextId + 1 })
  else
    (some (rowOf table.nextId tenantId draft),
      { rows := table.rows ++ [rowOf table.nextId tenantId draft], nextId := table.nextId + 1 })

/-! ## The names of the request -/

/-- The variables of the first loop. -/
structure Collapsed where
  /-- `seenNames` -/
  seenNames : List String
  /-- `uniqueDrafts` -/
  uniqueDrafts : List RuleDraft
  /-- `duplicateNames` -/
  duplicateNames : List String
  deriving DecidableEq, Repr

/-- One turn of the first loop. -/
def collapseDraft (s : Collapsed) (draft : RuleDraft) : Collapsed :=
  if s.seenNames.contains draft.name then
    if s.duplicateNames.contains draft.name then s
    else { s with duplicateNames := s.duplicateNames ++ [draft.name] }
  else
    { s with seenNames := s.seenNames ++ [draft.name], uniqueDrafts := s.uniqueDrafts ++ [draft] }

/-- The first loop. -/
def collapse (drafts : List RuleDraft) : Collapsed :=
  drafts.foldl collapseDraft { seenNames := [], uniqueDrafts := [], duplicateNames := [] }

/-! ## The statement -/

/-- The insertion of one row of the statement. -/
structure Turn where
  /-- what is inserted -/
  draft : RuleDraft
  /-- the table at this moment -/
  table : RuleTable
  /-- the row, unless the name is taken -/
  created : Option RuleRow
  deriving DecidableEq, Repr

/-- Insertions of other writers. -/
def arrive (table : RuleTable) (others : List (String × RuleDraft)) : RuleTable :=
  others.foldl (fun table other => (insertRow table other.1 other.2).2) table

/-- Insert the candidates, each after what others have inserted since the last one. -/
def insertTurns (tenantId : String) (others : RuleDraft → List (String × RuleDraft)) :
    List RuleDraft → RuleTable → List Turn × RuleTable
  | [], table => ([], table)
  | draft :: candidates, table =>
    let now := arrive table (others draft)
    let (created, next) := insertRow now tenantId draft
    let (turns, last) := insertTurns tenantId others candidates next
    (⟨draft, now, created⟩ :: turns, last)

/-- `BatchInsertRulesResult`. -/
structure BatchInsertRulesResult where
  /-- `created` -/
  created : List Rule
  /-- `skippedNames` -/
  skippedNames : List String
  /-- `duplicateNames` -/
  duplicateNames : List String
  deriving DecidableEq, Repr

/-- A call: what it answers, the table it leaves, and the insertions it made. -/
structure BatchRun where
  /-- the answer -/
  result : BatchInsertRulesResult
  /-- the table -/
  table : RuleTable
  /-- the insertions -/
  turns : List Turn
  deriving DecidableEq, Repr

/-- `insertIgnoreOnConflict`, from a snapshot of the table. The statement inserts the candidates in
an order of its own. -/
def insertIgnoreOnConflict (order : List RuleDraft → List RuleDraft)
    (others : RuleDraft → List (String × RuleDraft)) (drafts : List RuleDraft) (tenantId : String)
    (snapshot : RuleTable) : BatchRun :=
  let s := collapse drafts
  if s.uniqueDrafts.length = 0 then
    { result := { created := [], skippedNames := [], duplicateNames := s.duplicateNames }
      table := snapshot
      turns := [] }
  else
    -- `LEFT JOIN rules existing … WHERE existing.id IS NULL`
    let candidates := s.uniqueDrafts.filter fun draft => !hasRule snapshot tenantId draft.name
    let (turns, table) := insertTurns tenantId others (order candidates) snapshot
    let created := (turns.filterMap Turn.created).map mapRule
    let createdNames := created.map Rule.name
    { result :=
        { created
          skippedNames := (s.uniqueDrafts.map RuleDraft.name).filter fun name =>
            !createdNames.contains name
          duplicateNames := s.duplicateNames }
      table
      turns }

/-! ## The names -/

/-- What the first loop knows of the drafts it has seen. -/
structure CollapsedOf (drafts : List RuleDraft) (s : Collapsed) : Prop where
  /-- the names seen are those of the drafts kept -/
  seen : s.seenNames = s.uniqueDrafts.map RuleDraft.name
  /-- a name is kept once -/
  unique : s.seenNames.Nodup
  /-- every name is kept -/
  names : ∀ name, name ∈ s.seenNames ↔ name ∈ drafts.map RuleDraft.name
  /-- the first draft with a name is kept -/
  first : ∀ draft ∈ s.uniqueDrafts, drafts.find? (fun d => d.name = draft.name) = some draft
  /-- a name is reported once -/
  once : s.duplicateNames.Nodup
  /-- the names that occur twice are reported -/
  duplicates : ∀ name, name ∈ s.duplicateNames ↔ 2 ≤ (drafts.map RuleDraft.name).count name

/-- One draft more. -/
theorem collapseDraft_of {drafts : List RuleDraft} {s : Collapsed} (h : CollapsedOf drafts s)
    (draft : RuleDraft) : CollapsedOf (drafts ++ [draft]) (collapseDraft s draft) := by
  have hcount : ∀ name, ((drafts ++ [draft]).map RuleDraft.name).count name
      = (drafts.map RuleDraft.name).count name + if draft.name = name then 1 else 0 := by
    intro name
    rw [List.map_append, List.count_append, List.map_singleton, List.count_singleton]
    simp
  have hnames : ∀ name, name ∈ (drafts ++ [draft]).map RuleDraft.name ↔
      name ∈ drafts.map RuleDraft.name ∨ name = draft.name := by simp
  have hold : ∀ d ∈ s.uniqueDrafts,
      (drafts ++ [draft]).find? (fun d' => d'.name = d.name) = some d := by
    intro d hd
    rw [List.find?_append, h.first d hd, Option.some_or]
  unfold collapseDraft
  by_cases hseen : s.seenNames.contains draft.name = true
  · -- a name that has occurred before
    have hmem : draft.name ∈ drafts.map RuleDraft.name :=
      (h.names _).mp (List.contains_iff_mem.mp hseen)
    have hpos := List.count_pos_iff.mpr hmem
    rw [if_pos hseen]
    have hkept : ∀ name, name ∈ s.seenNames ↔ name ∈ (drafts ++ [draft]).map RuleDraft.name := by
      intro name
      rw [h.names, hnames]
      exact ⟨.inl, fun hname => hname.elim id fun heq => heq ▸ hmem⟩
    by_cases hdup : s.duplicateNames.contains draft.name = true
    -- its third time or later: it is reported already
    · have htwo := (h.duplicates _).mp (List.contains_iff_mem.mp hdup)
      rw [if_pos hdup]
      refine ⟨h.seen, h.unique, hkept, hold, h.once, fun name => ?_⟩
      rw [h.duplicates, hcount]
      by_cases heq : draft.name = name
      · subst heq
        rw [if_pos rfl]
        omega
      · rw [if_neg heq, Nat.add_zero]
    -- its second time
    · have hnew : draft.name ∉ s.duplicateNames := fun hmem =>
        hdup (List.contains_iff_mem.mpr hmem)
      rw [if_neg hdup]
      refine ⟨h.seen, h.unique, hkept, hold, ?_, fun name => ?_⟩
      · exact List.nodup_append.mpr ⟨h.once, List.nodup_singleton _, by
          rintro a ha b hb rfl
          exact hnew (List.mem_singleton.mp hb ▸ ha)⟩
      · rw [List.mem_append, List.mem_singleton, h.duplicates, hcount]
        by_cases heq : draft.name = name
        · subst heq
          rw [if_pos rfl]
          exact ⟨fun _ => by omega, fun _ => .inr rfl⟩
        · rw [if_neg heq, Nat.add_zero]
          exact ⟨fun hname => hname.resolve_right (Ne.symm heq), .inl⟩
  · have hnew : draft.name ∉ s.seenNames := fun hmem => hseen (List.contains_iff_mem.mpr hmem)
    -- a new name: its draft is the first one
    have hfresh : draft.name ∉ drafts.map RuleDraft.name := fun hmem =>
      hnew ((h.names _).mpr hmem)
    rw [if_neg hseen]
    refine ⟨?_, ?_, ?_, ?_, h.once, ?_⟩
    · rw [h.seen, List.map_append, List.map_singleton]
    · exact List.nodup_append.mpr ⟨h.unique, List.nodup_singleton _, by
        rintro a ha b hb rfl
        exact hnew (List.mem_singleton.mp hb ▸ ha)⟩
    · intro name
      rw [List.mem_append, List.mem_singleton, h.names, hnames]
    · intro d hd
      rcases List.mem_append.mp hd with hd | hd
      · exact hold d hd
      · obtain rfl := List.mem_singleton.mp hd
        have hnone : drafts.find? (fun d' => d'.name = d.name) = none := by
          refine List.find?_eq_none.mpr fun d' hd' => ?_
          simp only [decide_eq_true_eq]
          exact fun heq => hfresh (heq ▸ List.mem_map_of_mem hd')
        rw [List.find?_append, hnone, Option.none_or, List.find?_cons_of_pos (by simp)]
    · intro name
      rw [h.duplicates, hcount]
      by_cases heq : draft.name = name
      · subst heq
        have hzero := List.count_eq_zero.mpr hfresh
        rw [if_pos rfl]
        omega
      · rw [if_neg heq, Nat.add_zero]

/-- **The first loop** keeps the first draft of every name. -/
theorem collapse_of (drafts : List RuleDraft) : CollapsedOf drafts (collapse drafts) := by
  induction drafts using List.reverseRecOn with
  | nil =>
    exact ⟨rfl, List.nodup_nil, by simp [collapse], nofun, List.nodup_nil, by simp [collapse]⟩
  | append_singleton drafts draft ih =>
    rw [collapse, List.foldl_append]
    exact collapseDraft_of ih draft
/-! ## The insertions -/

section Insertions

variable {tenantId : String} {others : RuleDraft → List (String × RuleDraft)}

theorem hasRule_iff {table : RuleTable} {name : String} :
    hasRule table tenantId name = true ↔
      ∃ row ∈ table.rows, row.tenantId = tenantId ∧ row.name = name := by
  simp [hasRule]

/-- An insertion adds a row at most. -/
theorem insertRow_rows (table : RuleTable) (tenantId : String) (draft : RuleDraft) :
    table.rows <+: (insertRow table tenantId draft).2.rows := by
  unfold insertRow
  split
  · exact List.prefix_refl _
  · exact List.prefix_append _ _

theorem arrive_rows (table : RuleTable) (others : List (String × RuleDraft)) :
    table.rows <+: (arrive table others).rows := by
  induction others generalizing table with
  | nil => exact List.prefix_refl _
  | cons other others ih => exact (insertRow_rows table other.1 other.2).trans (ih _)

/-- What an insertion of the statement does. -/
structure Inserts (tenantId : String) (snapshot last : RuleTable) (turn : Turn) : Prop where
  /-- the rows of the snapshot are there -/
  before : snapshot.rows <+: turn.table.rows
  /-- and stay, with the new one -/
  after : (insertRow turn.table tenantId turn.draft).2.rows <+: last.rows
  /-- the row is made of the draft -/
  created : turn.created = (insertRow turn.table tenantId turn.draft).1

/-- **The insertions of the statement**: one for each candidate, none of which changes a row. -/
theorem insertTurns_of (candidates : List RuleDraft) (table : RuleTable) :
    (insertTurns tenantId others candidates table).1.map Turn.draft = candidates ∧
      table.rows <+: (insertTurns tenantId others candidates table).2.rows ∧
      ∀ turn ∈ (insertTurns tenantId others candidates table).1,
        Inserts tenantId table (insertTurns tenantId others candidates table).2 turn := by
  induction candidates generalizing table with
  | nil => exact ⟨rfl, List.prefix_refl _, nofun⟩
  | cons draft candidates ih =>
    have hnow := arrive_rows table (others draft)
    have hinsert := insertRow_rows (arrive table (others draft)) tenantId draft
    obtain ⟨hdrafts, hrows, hturns⟩ := ih (insertRow (arrive table (others draft)) tenantId draft).2
    simp only [insertTurns]
    refine ⟨by rw [List.map_cons, hdrafts], (hnow.trans hinsert).trans hrows, ?_⟩
    intro turn hturn
    rcases List.mem_cons.mp hturn with rfl | hturn
    · exact ⟨hnow, hrows, rfl⟩
    · have hlater := hturns turn hturn
      exact ⟨(hnow.trans hinsert).trans hlater.before, hlater.after, hlater.created⟩

/-- An insertion fails exactly if the name is taken. -/
theorem Inserts.created_eq_none {snapshot last : RuleTable} {turn : Turn}
    (h : Inserts tenantId snapshot last turn) :
    turn.created = none ↔ hasRule turn.table tenantId turn.draft.name = true := by
  rw [h.created, insertRow]
  split <;> simp_all

/-- What is inserted is stored. -/
theorem Inserts.row {snapshot last : RuleTable} {turn : Turn} {row : RuleRow}
    (h : Inserts tenantId snapshot last turn) (hrow : turn.created = some row) :
    row ∈ last.rows ∧ row = rowOf row.id tenantId turn.draft := by
  have hafter := h.after
  have hcreated := h.created
  rw [hrow] at hcreated
  unfold insertRow at hafter hcreated
  split at hcreated
  · cases hcreated
  · rename_i hfree
    obtain rfl := Option.some.inj hcreated
    rw [if_neg hfree] at hafter
    exact ⟨hafter.subset (List.mem_append_right _ List.mem_cons_self), rfl⟩

/-- The names that are created are among those of the turns. -/
theorem createdNames_sublist {turns : List Turn}
    (h : ∀ turn ∈ turns, ∀ row, turn.created = some row → row.name = turn.draft.name) :
    ((turns.filterMap Turn.created).map RuleRow.name).Sublist
      (turns.map fun turn => turn.draft.name) := by
  induction turns with
  | nil => exact .slnil
  | cons turn turns ih =>
    have hrest := ih fun t ht => h t (List.mem_cons_of_mem turn ht)
    rcases hcreated : turn.created with _ | row
    · rw [List.filterMap_cons_none hcreated]
      exact hrest.cons _
    · rw [List.filterMap_cons_some hcreated, List.map_cons, List.map_cons,
        h turn List.mem_cons_self row hcreated]
      exact hrest.cons_cons _

end Insertions

/-! ## The result -/

/-- **What a batch does**: it changes no row, creates one rule for each name that is free at its
turn, and says so. -/
structure Partitions (drafts : List RuleDraft) (tenantId : String) (snapshot : RuleTable)
    (run : BatchRun) : Prop where
  /-- the rows there were stay as they are -/
  kept : snapshot.rows <+: run.table.rows
  /-- no name is reported twice, as created or skipped -/
  nodup : (run.result.created.map Rule.name ++ run.result.skippedNames).Nodup
  /-- the names reported are those of the request -/
  names : ∀ name, name ∈ run.result.created.map Rule.name ++ run.result.skippedNames ↔
    name ∈ drafts.map RuleDraft.name
  /-- a rule that was created is stored with what the first draft with its name says -/
  created : ∀ rule ∈ run.result.created, ∃ row ∈ run.table.rows, ∃ draft,
    drafts.find? (fun d => d.name = rule.name) = some draft ∧ rule = mapRule row ∧
      row = rowOf row.id tenantId draft
  /-- a name is skipped if there was a rule with it, at first or when its turn came -/
  skipped : ∀ name ∈ drafts.map RuleDraft.name, name ∈ run.result.skippedNames ↔
    hasRule snapshot tenantId name = true ∨
      ∃ turn ∈ run.turns, turn.draft.name = name ∧ hasRule turn.table tenantId name = true
  /-- at its turn means: after whatever others had inserted until then -/
  turns : ∀ turn ∈ run.turns, snapshot.rows <+: turn.table.rows ∧
    (turn.table.rows <+: run.table.rows)
  /-- the names that occur twice are reported once -/
  duplicates : run.result.duplicateNames.Nodup ∧ ∀ name, name ∈ run.result.duplicateNames ↔
    2 ≤ (drafts.map RuleDraft.name).count name

/-- A draft with one keyword. -/
def draftOf (name keyword : String) : RuleDraft where
  name := name
  includeKeywords := [keyword]
  excludeKeywords := []
  isActive := true

/-- Another writer creates the second rule just before its turn. -/
def sampleOthers (draft : RuleDraft) : List (String × RuleDraft) :=
  if draft.name = "Squatting" then [("tenant-A", draftOf "Squatting" "okupas")] else []

/-- What it answers. -/
example : (insertIgnoreOnConflict id sampleOthers [draftOf "Evictions" "first",
      draftOf "Squatting" "own", draftOf "Evictions" "second"] "tenant-A"
        { rows := [], nextId := 1 }).result =
    { created := [mapRule (rowOf 1 "tenant-A" (draftOf "Evictions" "first"))]
      skippedNames := ["Squatting"]
      duplicateNames := ["Evictions"] } := by decide +kernel

end RuleBatch

end Feedpulse
