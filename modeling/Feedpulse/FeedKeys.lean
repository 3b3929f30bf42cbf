import Feedpulse.Frames
import Feedpulse.OpmlFrames

/-!
# The keys of the feeds

Rows of `feeds` are inserted in two places only, by a registration and by the application of
an import; everything else leaves the owner, the URL and the hash of every row as they are.
What a process of the OPML import depends on is therefore little: these keys, the tables of
the import and its own transaction. `Intake` is this view of the shared state, and
`Intake.Effect` lists what a call changes in it.
-/

namespace Feedpulse

/-! ## Keys -/

/-- What the unique indexes on `feeds` look at. -/
structure FeedKey where
  /-- owner -/
  tenantId : String
  /-- URL -/
  url : String
  /-- hash of the normal form of the URL -/
  normalizedUrlHash : Option String
  deriving DecidableEq, Repr

/-- The key of a row. -/
def FeedRow.key (f : FeedRow) : FeedKey :=
  { tenantId := f.tenantId, url := f.url, normalizedUrlHash := f.normalizedUrlHash }

/-- A key stands in the way of an insertion. -/
def FeedKey.conflicts (tenantId url : String) (normalizedUrlHash : Option String)
    (k : FeedKey) : Bool :=
  k.tenantId = tenantId &&
    (k.url = url || (normalizedUrlHash.isSome && k.normalizedUrlHash = normalizedUrlHash))

theorem FeedKey.any_conflicts (tenantId url : String) (normalizedUrlHash : Option String)
    (feeds : List FeedRow) :
    (feeds.map FeedRow.key).any (FeedKey.conflicts tenantId url normalizedUrlHash)
      = feeds.any (OpmlImports.feedConflicts tenantId url normalizedUrlHash) := by
  rw [List.any_map]
  rfl

/-- The number of keys of a tenant is the number of its feeds. -/
theorem FeedKey.countP_map (tenantId : String) (feeds : List FeedRow) :
    (feeds.map FeedRow.key).countP (fun k => k.tenantId = tenantId)
      = OpmlImports.countFeeds tenantId feeds := by
  rw [List.countP_map]
  rfl

/-- The keys of the feeds there are. -/
def World.feedKeys (w : World) : List FeedKey := w.feeds.map FeedRow.key

section Core

variable {pid : Nat} {w w' : World}

theorem World.feedKeys_updateAfterFetch (now : Nat) (u : Feeds.AfterFetch)
    (feeds : List FeedRow) :
    (Feeds.updateAfterFetch now u feeds).map FeedRow.key = feeds.map FeedRow.key :=
  Table.map_updateWhere FeedRow.key feeds fun _ => rfl

/-- A commit of an ingestion keeps the keys. -/
theorem World.feedKeys_commitTxn (w : World) (pid : Nat) :
    (w.commitTxn pid).feedKeys = w.feedKeys := by
  unfold commitTxn
  rcases w.txn pid with _ | t
  · rfl
  · change (t.feedUpdates.foldl _ w.feeds).map FeedRow.key = w.feeds.map FeedRow.key
    induction t.feedUpdates generalizing w with
    | nil => rfl
    | cons u us ih =>
      exact (ih { w with feeds := Feeds.updateAfterFetch w.now u w.feeds }).trans
        (feedKeys_updateAfterFetch ..)

/-- **The rest of the service neither creates nor deletes feeds.** -/
theorem CallEffect.feedKeys {c : Call} (h : CallEffect pid w c w') :
    w'.feedKeys = w.feedKeys := by
  cases h with
  | claim limit skipped picks jitters claimed feeds h =>
    obtain ⟨-, rfl, -⟩ := Feeds.claimDueFeeds_eq_some h
    exact Table.map_updateWhere FeedRow.key w.feeds fun _ => rfl
  | releaseStuck threshold => exact Table.map_updateWhere FeedRow.key w.feeds fun _ => rfl
  | updateFeed u => exact Table.map_updateWhere FeedRow.key w.feeds fun _ => rfl
  | reportFetch u => exact World.feedKeys_updateAfterFetch ..
  | commit => exact w.feedKeys_commitTxn pid
  | _ => rfl

theorem Call.feedKeys_answer {out : Outcome} {c : Call} {r : Except String c.Reply}
    (h : c.answer pid w out = some (r, w')) : w'.feedKeys = w.feedKeys := by
  rcases Call.answer_eq_some h with ⟨-, -, rfl, -⟩ | ⟨ch, a, hs, -⟩
  · rfl
  · exact (serve_effect hs).feedKeys

theorem System.feedKeys_step {d : Deployment} {s s' : System} {a : Action}
    (h : step d s a = some s') : s'.world.feedKeys = s.world.feedKeys := by
  rcases step_effect h with ⟨pid, c, ch, r, -, hs⟩ | ⟨-, hq⟩
  · exact (serve_effect hs).feedKeys
  · generalize s'.world = w at hq
    cases hq <;> rfl

end Core

/-! ## What a process of the import depends on -/

/-- The keys of the feeds a list of changes brings in. -/
def OpmlWrite.feedsIn (ws : List OpmlWrite) : List FeedKey :=
  ws.filterMap fun
    | insertFeed row => some row.key
    | _ => none

theorem OpmlWrite.feedsIn_append (ws vs : List OpmlWrite) :
    feedsIn (ws ++ vs) = feedsIn ws ++ feedsIn vs := List.filterMap_append

theorem OpmlWrite.keys_apply (now : Nat) (x : OpmlWrite) (t : OpmlTables) :
    (x.apply now t).feeds.map FeedRow.key = t.feeds.map FeedRow.key ++ feedsIn [x] := by
  cases x with
  | insertFeed row => exact List.map_append
  | _ => exact (List.append_nil _).symm

/-- The changes of a transaction add the keys they bring in. -/
theorem OpmlTables.keys_applyAll (now : Nat) (ws : List OpmlWrite) (t : OpmlTables) :
    (t.applyAll now ws).feeds.map FeedRow.key
      = t.feeds.map FeedRow.key ++ OpmlWrite.feedsIn ws := by
  induction ws generalizing t with
  | nil => exact (List.append_nil _).symm
  | cons x ws ih =>
    calc ((x.apply now t).applyAll now ws).feeds.map FeedRow.key
        = (x.apply now t).feeds.map FeedRow.key ++ OpmlWrite.feedsIn ws := ih _
      _ = t.feeds.map FeedRow.key ++ OpmlWrite.feedsIn [x] ++ OpmlWrite.feedsIn ws := by
        rw [OpmlWrite.keys_apply]
      _ = t.feeds.map FeedRow.key ++ OpmlWrite.feedsIn (x :: ws) := by
        rw [List.append_assoc, ← OpmlWrite.feedsIn_append]
        rfl

/-- The shared state as a process of the OPML import depends on it. -/
structure Intake where
  /-- the keys of the feeds -/
  keys : List FeedKey
  /-- table `opml_imports` -/
  imports : List OpmlImportRow
  /-- table `opml_import_items` -/
  items : List OpmlImportItemRow
  /-- the transaction of the process -/
  txn : Option OpmlTxn

/-- The view of the process `pid`. -/
def OpmlWorld.intake (w : OpmlWorld) (pid : Nat) : Intake :=
  { keys := w.core.feedKeys, imports := w.imports, items := w.items, txn := w.opmlTxn pid }

/-- A process sees the same as long as these four stay. -/
theorem OpmlWorld.intake_congr {w w' : OpmlWorld} {pid : Nat}
    (hkeys : w'.core.feedKeys = w.core.feedKeys) (himports : w'.imports = w.imports)
    (hitems : w'.items = w.items) (htxn : w'.opmlTxn pid = w.opmlTxn pid) :
    w'.intake pid = w.intake pid := by
  unfold intake
  rw [hkeys, himports, hitems, htxn]

namespace Intake

variable {s s' m : Intake} {pid : Nat}

/-- The transaction fails. -/
def abort (s : Intake) : Intake := { s with txn := s.txn.map fun t => { t with aborted := true } }

/-- A statement can make a change on tables with these keys. -/
def Stages (keys : List FeedKey) (st : OpmlStatement) (x : OpmlWrite) : Prop :=
  ∃ now ids t, t.feeds.map FeedRow.key = keys ∧ st.Writes now ids t x

/-- The effects of a call on what its process sees. -/
inductive Effect (s : Intake) : OpmlCall → Intake → Prop
  /-- nothing the process depends on changes -/
  | none (c : OpmlCall) : Effect s c s
  /-- a transaction begins -/
  | begin (now : Nat) :
    Effect s .begin { s with txn := some { aborted := false, startedAt := now, writes := [] } }
  /-- a transaction commits -/
  | commit (t : OpmlTxn) (imports : List OpmlImportRow) (items : List OpmlImportItemRow)
    (ht : s.txn = some t) (ha : t.aborted = false) :
    Effect s .commit
      { keys := s.keys ++ OpmlWrite.feedsIn t.writes, imports := imports, items := items,
        txn := .none }
  /-- a transaction ends without effect -/
  | close (c : OpmlCall) : Effect s c { s with txn := .none }
  /-- a statement on the pool changes the tables -/
  | write (st : OpmlStatement) (x : OpmlWrite) (now : Nat) (hx : Stages s.keys st x) :
    Effect s (.statement .pool st)
      { s with
        keys := s.keys ++ OpmlWrite.feedsIn [x]
        imports := (x.apply now { feeds := [], imports := s.imports, items := s.items }).imports
        items := (x.apply now { feeds := [], imports := s.imports, items := s.items }).items }
  /-- a statement on the client stages a change -/
  | stage (st : OpmlStatement) (t : OpmlTxn) (x : OpmlWrite) (ht : s.txn = some t)
    (ha : t.aborted = false) (hx : Stages (s.keys ++ OpmlWrite.feedsIn t.writes) st x) :
    Effect s (.statement .client st) { s with txn := some { t with writes := t.writes ++ [x] } }
  /-- a statement on the client fails its transaction -/
  | abort (st : OpmlStatement) : Effect s (.statement .client st) s.abort

/-! ## What a call does to it -/

/-- How a call of the process `pid` changes what it sees. -/
def Answered (pid : Nat) (s : Intake) (c : OpmlCall) (r : Except String c.Reply)
    (s' : Intake) : Prop :=
  ∃ w w' out, w.intake pid = s ∧ c.answer pid w out = some (r, w') ∧ w'.intake pid = s'

theorem intake_abortOpmlTxn (w : OpmlWorld) (pid : Nat) :
    (w.abortOpmlTxn pid).intake pid = (w.intake pid).abort := by
  have htxn : (w.abortOpmlTxn pid).opmlTxn pid
      = (w.opmlTxn pid).map fun t => { t with aborted := true } := OpmlWorld.opmlTxn_abortOpmlTxn
  rcases w.abortOpmlTxn_eq pid with h | ⟨t, -, h⟩
  · rw [h] at htxn ⊢
    unfold OpmlWorld.intake abort
    dsimp only
    rw [← htxn]
  · rw [h] at htxn ⊢
    unfold OpmlWorld.intake abort
    dsimp only
    rw [htxn]
    rfl

theorem intake_setOpmlTxn (w : OpmlWorld) (pid : Nat) (t : OpmlTxn) :
    (w.setOpmlTxn pid t).intake pid = { w.intake pid with txn := some t } := by
  unfold OpmlWorld.intake
  rw [OpmlWorld.opmlTxn_setOpmlTxn]
  rfl

theorem intake_dropOpmlTxn (w : OpmlWorld) (pid : Nat) :
    (w.dropOpmlTxn pid).intake pid = { w.intake pid with txn := none } := by
  unfold OpmlWorld.intake
  rw [OpmlWorld.opmlTxn_dropOpmlTxn]
  rfl

/-- A commit. -/
theorem effect_commitOpmlTxn (w : OpmlWorld) (pid : Nat) :
    (w.intake pid).Effect .commit ((w.commitOpmlTxn pid).intake pid) := by
  unfold OpmlWorld.commitOpmlTxn
  rcases ht : w.opmlTxn pid with _ | t
  · exact .none _
  · dsimp only
    by_cases ha : t.aborted = true
    · rw [if_pos ha, intake_dropOpmlTxn]
      exact .close _
    · rw [if_neg ha]
      have hkeys : (w.view t).feeds.map FeedRow.key
          = w.core.feedKeys ++ OpmlWrite.feedsIn t.writes := OpmlTables.keys_applyAll ..
      have hs : ((w.dropOpmlTxn pid).setTables (w.view t)).intake pid
          = { keys := w.core.feedKeys ++ OpmlWrite.feedsIn t.writes
              imports := (w.view t).imports, items := (w.view t).items, txn := none } := by
        unfold OpmlWorld.intake
        rw [OpmlWorld.opmlTxn_setTables, OpmlWorld.opmlTxn_dropOpmlTxn, ← hkeys]
        rfl
      rw [hs]
      exact .commit (s := w.intake pid) t _ _ ht (by simpa using ha)

/-- A change on the pool. -/
theorem intake_write (w : OpmlWorld) (pid : Nat) (now : Nat) (x : OpmlWrite)
    (ids : OpmlSequences) :
    OpmlWorld.intake { w.setTables (x.apply now w.tables) with sequences := ids } pid
      = { w.intake pid with
          keys := w.core.feedKeys ++ OpmlWrite.feedsIn [x]
          imports := (x.apply now { feeds := [], imports := w.imports, items := w.items }).imports
          items :=
            (x.apply now { feeds := [], imports := w.imports, items := w.items }).items } := by
  have hkeys := OpmlWrite.keys_apply now x w.tables
  have himports : (x.apply now w.tables).imports
      = (x.apply now { feeds := [], imports := w.imports, items := w.items }).imports := by
    cases x <;> rfl
  have hitems : (x.apply now w.tables).items
      = (x.apply now { feeds := [], imports := w.imports, items := w.items }).items := by
    cases x <;> rfl
  have hs : OpmlWorld.intake { w.setTables (x.apply now w.tables) with sequences := ids } pid
      = { keys := (x.apply now w.tables).feeds.map FeedRow.key
          imports := (x.apply now w.tables).imports
          items := (x.apply now w.tables).items
          txn := w.opmlTxn pid } := rfl
  rw [hs, hkeys, himports, hitems]
  rfl

/-- **A call has one of these effects on what its process sees.** -/
theorem effect_of_serve {w w' : OpmlWorld} {c : OpmlCall} {r : Except String c.Reply}
    (h : c.serve pid w = some (r, w')) : (w.intake pid).Effect c (w'.intake pid) := by
  cases OpmlCall.serve_effect h with
  | none => exact .none _
  | core c v => cases h
  | begin =>
    rw [intake_setOpmlTxn]
    exact .begin _
  | commit => exact effect_commitOpmlTxn w pid
  | close c hc =>
    rw [intake_dropOpmlTxn]
    exact .close _
  | write st x hx =>
    rw [intake_write]
    exact .write st x _ ⟨_, _, _, rfl, hx⟩
  | stage st t x ht ha hx =>
    have hs : OpmlWorld.intake { w.setOpmlTxn pid { t with writes := t.writes ++ [x] } with
          sequences := x.advance w.sequences } pid
        = { w.intake pid with txn := some { t with writes := t.writes ++ [x] } } :=
      intake_setOpmlTxn w pid _
    rw [hs]
    exact .stage st t x ht ha ⟨_, _, _, OpmlTables.keys_applyAll .., hx⟩
  | abort st =>
    rw [intake_abortOpmlTxn]
    exact .abort st
  | addParse => exact .none _
  | addApply => exact .none _

/-- **An answer brings an effect, and an error on the connection fails the transaction.** -/
theorem Answered.effect {c : OpmlCall} {r : Except String c.Reply} (h : Answered pid s c r s') :
    ∃ m, s.Effect c m ∧ (s' = m ∨ (s' = m.abort ∧ ∃ e, r = .error e)) := by
  obtain ⟨w, w', out, rfl, ha, rfl⟩ := h
  have hafter : ∀ v : OpmlWorld, (c.afterError pid v).intake pid = v.intake pid ∨
      (c.afterError pid v).intake pid = (v.intake pid).abort := by
    intro v
    unfold OpmlCall.afterError
    split
    · exact .inr (intake_abortOpmlTxn v pid)
    · exact .inl rfl
  cases OpmlCall.answer_cases ha with
  | core c out r v h =>
    refine ⟨_, .none _, .inl ?_⟩
    exact OpmlWorld.intake_congr (Call.feedKeys_answer h) rfl rfl rfl
  | ok c ch r v hs => exact ⟨_, effect_of_serve hs, .inl rfl⟩
  | refused c error hc =>
    refine ⟨_, .none _, (hafter w).imp id fun h => ⟨h, error, rfl⟩⟩
  | lost c ch error r v hc hs =>
    exact ⟨_, effect_of_serve hs, (hafter v).imp id fun h => ⟨h, error, rfl⟩⟩

/-- A transaction that has begun. -/
theorem Answered.begin_ok (h : Answered pid s .begin (.ok ()) s') :
    ∃ now, s' = { s with txn := some { aborted := false, startedAt := now, writes := [] } } := by
  obtain ⟨w, w', out, rfl, ha, rfl⟩ := h
  cases OpmlCall.answer_cases ha with
  | ok c ch r v hs =>
    obtain ⟨-, rfl⟩ := Prod.mk.inj (Option.some.inj hs)
    exact ⟨w.core.now, intake_setOpmlTxn ..⟩

/-- The reply to a statement on the pool. -/
theorem Answered.pool_ok {st : OpmlStatement} {a : st.Reply}
    (h : Answered pid s (.statement .pool st) (.ok a) s') :
    ∃ now ids t, t.feeds.map FeedRow.key = s.keys ∧ t.imports = s.imports ∧ t.items = s.items ∧
      (st.eval now ids t).1 = .ok a ∧ ((st.eval now ids t).2 = none → s' = s) := by
  obtain ⟨w, w', out, rfl, ha, rfl⟩ := h
  cases OpmlCall.answer_cases ha with
  | ok c ch r v hs =>
    obtain ⟨hr, hw⟩ := OpmlWorld.onPool_eq_some hs
    refine ⟨w.core.now, w.sequences, w.tables, rfl, rfl, rfl, hr.symm, fun hnone => ?_⟩
    rcases hw with ⟨-, rfl⟩ | ⟨x, hx, -⟩
    · rfl
    · rw [hnone] at hx
      cases hx

/-- The reply to a statement on the client. -/
theorem Answered.client_ok {st : OpmlStatement} {a : st.Reply}
    (h : Answered pid s (.statement .client st) (.ok a) s') :
    ∃ txn now ids t, s.txn = some txn ∧ txn.aborted = false ∧
      (txn.writes = [] → t.imports = s.imports ∧ t.items = s.items) ∧
      (st.eval now ids t).1 = .ok a := by
  obtain ⟨w, w', out, rfl, ha, rfl⟩ := h
  cases OpmlCall.answer_cases ha with
  | ok c ch r v hs =>
    obtain ⟨txn, htxn, ⟨-, -, e, he⟩ | ⟨-, -, e, he⟩ | ⟨b, hb, hok, heval, -⟩⟩ :=
      OpmlWorld.onClient_eq_some hs
    · cases he
    · cases he
    · obtain rfl := Except.ok.inj hok
      refine ⟨txn, txn.startedAt, w.sequences, w.view txn, htxn, hb, fun hw => ?_, heval⟩
      unfold OpmlWorld.view
      rw [hw]
      exact ⟨rfl, rfl⟩

end Intake

end Feedpulse
