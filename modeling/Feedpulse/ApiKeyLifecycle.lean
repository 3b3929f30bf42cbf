import Feedpulse.ApiKeys
import Mathlib.Data.List.Induction
import Mathlib.Data.Set.Function

/-!
# The lifecycle of an API key

What verification answers after a run of calls, in terms of the calls and their answers: the first
one that registers a key says whose it is (`Origin`), and it is good until its row is revoked.
-/

namespace Feedpulse

namespace ApiKeys

/-! ## Runs -/

/-- A call of the repository, or the write of a time of last use, which lands at any time. -/
inductive Operation
  /-- `create`, with its random bytes -/
  | create (tenantId : String) (label : Option String)
      (prefixBytes : Vector UInt8 apiKeyPrefixLength) (secretBytes : Vector UInt8 apiKeySecretBytes)
  /-- `seedBootstrapApiKey` -/
  | seed (plaintextKey tenantId : String) (label : Option String)
  /-- `revoke` -/
  | revoke (id : Nat)
  /-- `verifyApiKey` -/
  | verify (plaintextKey : String)
  /-- `touchLastUsed` -/
  | touchLastUsed (id : Nat)
  deriving DecidableEq

/-- What a call answers. -/
inductive Answer
  /-- the key and its record -/
  | created (key : CreatedApiKey)
  /-- whether the key was new -/
  | seeded (inserted : Bool)
  /-- whether the key was in force -/
  | revoked (changed : Bool)
  /-- the record of the key -/
  | verified (record : Option ApiKeyRecord)
  /-- nothing -/
  | touched
  /-- the statement raised -/
  | raised
  deriving DecidableEq

section Runs

variable (sha256 : String → List UInt8)

/-- Execute a call. -/
def perform (table : ApiKeyTable) (now : Nat) : Operation → ApiKeyTable × Answer
  | .create tenantId label prefixBytes secretBytes =>
    match create sha256 table now tenantId label prefixBytes secretBytes with
    | (table, some key) => (table, .created key)
    | (table, none) => (table, .raised)
  | .seed plaintextKey tenantId label =>
    match seedBootstrapApiKey sha256 table now plaintextKey tenantId label with
    | (table, some inserted) => (table, .seeded inserted)
    | (table, none) => (table, .raised)
  | .revoke id => ((revoke table now id).1, .revoked (revoke table now id).2)
  | .verify plaintextKey => (table, .verified (verifyApiKey sha256 table plaintextKey))
  | .touchLastUsed id => (touchLastUsed table now id, .touched)

/-- A call with its answer. -/
abbrev Event := Operation × Answer

/-- The table after a run of calls, and what they answered. -/
inductive Reached : List Event → ApiKeyTable → Prop
  | start : Reached [] emptyTable
  | next {events table} (op : Operation) (now : Nat) : Reached events table →
      Reached (events ++ [(op, (perform sha256 table now op).2)]) (perform sha256 table now op).1

end Runs

/-- The key a call hashes. -/
def Operation.key : Operation → Option String
  | .create _ _ prefixBytes secretBytes => some (generatedText prefixBytes secretBytes)
  | .seed plaintextKey _ _ => some (Text.trim plaintextKey)
  | .verify plaintextKey => some (Text.trim plaintextKey)
  | _ => none

/-- **A call that registers a key** for a tenant: one that creates it, or seeds it after
trimming. -/
def Introduces (key tenantId : String) : Event → Prop
  | (.create tenantId' _ prefixBytes secretBytes, .created _) =>
    generatedText prefixBytes secretBytes = key ∧ tenantId' = tenantId
  | (.seed plaintextKey tenantId' _, .seeded _) =>
    Text.trim plaintextKey = key ∧ key ≠ "" ∧ tenantId' = tenantId
  | _ => False

/-- **The first registration of a key**, and the calls since then. -/
def Origin (events : List Event) (key tenantId : String) (since : List Event) : Prop :=
  ∃ before event, events = before ++ event :: since ∧ Introduces key tenantId event ∧
    ∀ e ∈ before, ∀ t, ¬Introduces key t e

variable {sha256 : String → List UInt8} {events : List Event} {table : ApiKeyTable}
  {key tenantId : String} {since : List Event} {used : Set String}

/-- Later calls are calls since then. -/
theorem Origin.snoc (h : Origin events key tenantId since) (e : Event) :
    Origin (events ++ [e]) key tenantId (since ++ [e]) := by
  obtain ⟨before, event, rfl, hintro, hfirst⟩ := h
  exact ⟨before, event, by simp, hintro, hfirst⟩

/-- There is one first registration. -/
theorem Origin.unique {tenantId' : String} {since' : List Event}
    (h : Origin events key tenantId since) (h' : Origin events key tenantId' since') :
    tenantId = tenantId' ∧ since = since' := by
  obtain ⟨before, event, rfl, hintro, hfirst⟩ := h
  obtain ⟨before', event', heq, hintro', hfirst'⟩ := h'
  have htenant : ∀ e : Event, Introduces key tenantId e → Introduces key tenantId' e →
      tenantId = tenantId' := by
    rintro ⟨op, answer⟩ hone htwo
    cases op <;> cases answer <;> simp only [Introduces] at hone htwo
    · exact hone.2.symm.trans htwo.2
    · exact hone.2.2.symm.trans htwo.2.2
  rcases List.append_eq_append_iff.mp heq with ⟨mid, rfl, hmid⟩ | ⟨mid, rfl, hmid⟩
  · cases mid with
    | nil =>
      obtain ⟨rfl, rfl⟩ := List.cons.inj hmid
      exact ⟨htenant _ hintro hintro', rfl⟩
    | cons e mid =>
      obtain ⟨rfl, -⟩ := List.cons.inj hmid
      exact absurd hintro (hfirst' _ (by simp) _)
  · cases mid with
    | nil =>
      obtain ⟨rfl, rfl⟩ := List.cons.inj hmid
      exact ⟨htenant _ hintro hintro', rfl⟩
    | cons e mid =>
      obtain ⟨rfl, -⟩ := List.cons.inj hmid
      exact absurd hintro' (hfirst _ (by simp) _)

/-- What is registered is hashed. -/
theorem Introduces.hashed {e : Event} (h : Introduces key tenantId e) : e.1.key = some key := by
  obtain ⟨op, answer⟩ := e
  cases op <;> cases answer <;> simp only [Introduces] at h
  · exact congrArg some h.1
  · exact congrArg some h.1

theorem Introduces.ne {e : Event} (h : Introduces key tenantId e) : key ≠ "" := by
  obtain ⟨op, answer⟩ := e
  cases op <;> cases answer <;> simp only [Introduces] at h
  · exact h.1 ▸ generatedText_ne _ _
  · exact h.2.1

/-! ## What a call does -/

/-- **The effect of a call**: it registers a key under the next id, or it updates rows in
place. -/
inductive Effect (sha256 : String → List UInt8) (table : ApiKeyTable) (op : Operation)
    (answer : Answer) (table' : ApiKeyTable) : Prop
  | registered (key tenantId : String) (row : ApiKeyRow) (rows : table'.rows = table.rows ++ [row])
      (nextId : table'.nextId = table.nextId + 1) (id : row.id = table.nextId)
      (tenant : row.tenantId = tenantId) (hash : row.keyHash = hashApiKey sha256 key)
      (active : row.revokedAt = none) (free : ∀ r ∈ table.rows, r.keyHash ≠ row.keyHash)
      (hashed : op.key = some key) (introduces : Introduces key tenantId (op, answer))
      (quiet : ∀ id, op ≠ .revoke id)
  | updated (f : ApiKeyRow → ApiKeyRow) (rows : table'.rows = table.rows.map f)
      (nextId : table.nextId ≤ table'.nextId) (id : ∀ r, (f r).id = r.id)
      (tenant : ∀ r, (f r).tenantId = r.tenantId) (hash : ∀ r, (f r).keyHash = r.keyHash)
      (active : ∀ r, (f r).revokedAt = none ↔ r.revokedAt = none ∧ op ≠ .revoke r.id)
      (frame : ∀ r, op ≠ .revoke r.id → op ≠ .touchLastUsed r.id → f r = r)
      (known : ∀ key t, Introduces key t (op, answer) →
        ∃ r ∈ table.rows, r.keyHash = hashApiKey sha256 key)
      (answers : ∀ id, op = .revoke id → (answer = .revoked true ↔
        ∃ r ∈ table.rows, r.id = id ∧ r.revokedAt = none))

/-- A call that is no revocation and leaves the rows alone. -/
theorem Effect.kept {op : Operation} {answer : Answer} {table' : ApiKeyTable}
    (hrows : table'.rows = table.rows) (hnext : table.nextId ≤ table'.nextId)
    (hquiet : ∀ id, op ≠ .revoke id)
    (hknown : ∀ key t, Introduces key t (op, answer) →
      ∃ r ∈ table.rows, r.keyHash = hashApiKey sha256 key) :
    Effect sha256 table op answer table' :=
  .updated id (by rw [hrows, List.map_id]) hnext (fun _ => rfl) (fun _ => rfl) (fun _ => rfl)
    (fun r => ⟨fun h => ⟨h, hquiet r.id⟩, And.left⟩) (fun _ _ _ => rfl) hknown
    fun id h => absurd h (hquiet id)

/-- The ways in which an insertion ends. -/
theorem insertApiKey_cases (table : ApiKeyTable) (now : Nat) (tenantId keyHash : String)
    (keyPrefix : Units) (label : Option String) :
    (∃ row : ApiKeyRow, insertApiKey table now tenantId keyHash keyPrefix label
        = (⟨table.rows ++ [row], table.nextId + 1⟩, .ok row) ∧ row.id = table.nextId ∧
      row.tenantId = tenantId ∧ row.keyHash = keyHash ∧ row.revokedAt = none ∧
      ∀ r ∈ table.rows, r.keyHash ≠ keyHash) ∨
    (insertApiKey table now tenantId keyHash keyPrefix label
        = ({ table with nextId := table.nextId + 1 }, .error .conflict) ∧
      ∃ r ∈ table.rows, r.keyHash = keyHash) ∨
    insertApiKey table now tenantId keyHash keyPrefix label = (table, .error .invalidText) := by
  unfold insertApiKey
  split
  · exact .inr (.inr rfl)
  split
  · rename_i hconflict
    exact .inr (.inl ⟨rfl, by simpa using hconflict⟩)
  · rename_i hfree
    exact .inl ⟨_, rfl, rfl, rfl, rfl, rfl, by simpa using hfree⟩

theorem effect_create (table : ApiKeyTable) (now : Nat) (tenantId : String) (label : Option String)
    (prefixBytes : Vector UInt8 apiKeyPrefixLength)
    (secretBytes : Vector UInt8 apiKeySecretBytes) :
    Effect sha256 table (.create tenantId label prefixBytes secretBytes)
      (perform sha256 table now (.create tenantId label prefixBytes secretBytes)).2
      (perform sha256 table now (.create tenantId label prefixBytes secretBytes)).1 := by
  have hraised : ∀ key t, Introduces key t
      (.create tenantId label prefixBytes secretBytes, Answer.raised) →
        ∃ r ∈ table.rows, r.keyHash = hashApiKey sha256 key := fun _ _ h => h.elim
  have hquiet : ∀ id, Operation.create tenantId label prefixBytes secretBytes ≠ .revoke id := by
    intro id h
    cases h
  rcases insertApiKey_cases table now tenantId
      (generateApiKey sha256 prefixBytes secretBytes).keyHash
      (generateApiKey sha256 prefixBytes secretBytes).keyPrefix label with
    ⟨row, hinsert, hid, htenant, hhash, hactive, hfree⟩ | ⟨hinsert, -⟩ | hinsert
  · simp only [perform, create, hinsert]
    exact .registered (generatedText prefixBytes secretBytes) tenantId row rfl rfl hid htenant
      hhash hactive (hhash ▸ hfree) rfl ⟨rfl, rfl⟩ hquiet
  · simp only [perform, create, hinsert]
    exact .kept rfl (Nat.le_succ _) hquiet hraised
  · simp only [perform, create, hinsert]
    exact .kept rfl (Nat.le_refl _) hquiet hraised

theorem effect_seed (table : ApiKeyTable) (now : Nat) (plaintextKey tenantId : String)
    (label : Option String) :
    Effect sha256 table (.seed plaintextKey tenantId label)
      (perform sha256 table now (.seed plaintextKey tenantId label)).2
      (perform sha256 table now (.seed plaintextKey tenantId label)).1 := by
  have hquiet : ∀ id, Operation.seed plaintextKey tenantId label ≠ .revoke id := by
    intro id h
    cases h
  by_cases hempty : Text.trim plaintextKey = ""
  · -- nothing but blanks: no statement is sent, and no key is registered
    simp only [perform, seedBootstrapApiKey, hempty, if_true]
    refine .kept rfl (Nat.le_refl _) hquiet fun key t h => ?_
    exact absurd (h.1.symm.trans hempty) h.2.1
  have hknown : ∀ answer, (∃ r ∈ table.rows,
      r.keyHash = hashApiKey sha256 (Text.trim plaintextKey)) → ∀ key t,
        Introduces key t (.seed plaintextKey tenantId label, .seeded answer) →
          ∃ r ∈ table.rows, r.keyHash = hashApiKey sha256 key := by
    rintro answer hrow key t ⟨rfl, -⟩
    exact hrow
  by_cases hheld : ∃ r ∈ table.rows, r.keyHash = hashApiKey sha256 (Text.trim plaintextKey)
  · have hany : (table.rows.any fun r =>
        r.keyHash = hashApiKey sha256 (Text.trim plaintextKey)) = true := by simpa using hheld
    simp only [perform, seedBootstrapApiKey, hempty, if_false, hany, if_true]
    exact .kept rfl (Nat.le_refl _) hquiet (hknown false hheld)
  have hany : (table.rows.any fun r =>
      r.keyHash = hashApiKey sha256 (Text.trim plaintextKey)) = false := by simpa using hheld
  rcases insertApiKey_cases table now tenantId (hashApiKey sha256 (Text.trim plaintextKey))
      (extractApiKeyPrefix (Text.trim plaintextKey)) (some (label.getD "bootstrap")) with
    ⟨row, hinsert, hid, htenant, hhash, hactive, hfree⟩ | ⟨-, hconflict⟩ | hinsert
  · simp only [perform, seedBootstrapApiKey, hempty, if_false, hany, hinsert]
    exact .registered (Text.trim plaintextKey) tenantId row rfl rfl hid htenant hhash hactive
      (hhash ▸ hfree) rfl ⟨rfl, hempty, rfl⟩ hquiet
  · exact absurd hconflict hheld
  · simp only [perform, seedBootstrapApiKey, hempty, if_false, hany, hinsert]
    exact .kept rfl (Nat.le_refl _) hquiet fun _ _ h => h.elim

theorem effect_revoke (table : ApiKeyTable) (now id : Nat) :
    Effect sha256 table (.revoke id) (perform sha256 table now (.revoke id)).2
      (perform sha256 table now (.revoke id)).1 := by
  refine .updated (fun r => if r.id = id && r.revokedAt.isNone then
    { r with revokedAt := some now } else r) rfl (Nat.le_refl _) ?_ ?_ ?_ ?_ ?_ ?_ ?_
  · exact fun r => by split <;> rfl
  · exact fun r => by split <;> rfl
  · exact fun r => by split <;> rfl
  · intro r
    split
    · rename_i hrevoked
      simp_all
    · rename_i hkept
      simp only [Bool.and_eq_true, decide_eq_true_eq, Option.isNone_iff_eq_none, not_and] at hkept
      refine ⟨fun hnone => ⟨hnone, fun heq => ?_⟩, And.left⟩
      exact hkept (Operation.revoke.inj heq).symm hnone
  · intro r hrevoke _
    refine if_neg fun h => ?_
    simp only [Bool.and_eq_true, decide_eq_true_eq] at h
    exact hrevoke (by rw [h.1])
  · exact fun _ _ h => h.elim
  · rintro id' heq
    obtain rfl := Operation.revoke.inj heq
    simp [perform, revoke]

theorem effect_touch (table : ApiKeyTable) (now id : Nat) :
    Effect sha256 table (.touchLastUsed id) (perform sha256 table now (.touchLastUsed id)).2
      (perform sha256 table now (.touchLastUsed id)).1 := by
  refine .updated (fun r => if r.id = id then { r with lastUsedAt := some now } else r) ?_
    (Nat.le_refl _) ?_ ?_ ?_ ?_ ?_ ?_ ?_
  · simp [perform, touchLastUsed, Table.updateWhere]
  · exact fun r => by split <;> rfl
  · exact fun r => by split <;> rfl
  · exact fun r => by split <;> rfl
  · intro r
    split <;> simp
  · intro r _ htouch
    exact if_neg fun h => htouch (by rw [h])
  · exact fun _ _ h => h.elim
  · intro _ h
    cases h

/-- Every call has one of the two effects. -/
theorem perform_effect (table : ApiKeyTable) (now : Nat) (op : Operation) :
    Effect sha256 table op (perform sha256 table now op).2 (perform sha256 table now op).1 := by
  cases op with
  | create tenantId label prefixBytes secretBytes => exact effect_create _ _ _ _ _ _
  | seed plaintextKey tenantId label => exact effect_seed _ _ _ _ _
  | revoke id => exact effect_revoke _ _ _
  | verify plaintextKey =>
    refine .kept rfl (Nat.le_refl _) ?_ fun _ _ h => h.elim
    intro _ h
    cases h
  | touchLastUsed id => exact effect_touch _ _ _

/-! ## The invariant -/

/-- A revocation that took effect. -/
def revocation (id : Nat) : Event := (.revoke id, .revoked true)

/-- What a row says of the calls: whose key it holds, and whether it has been revoked since. -/
def Recorded (sha256 : String → List UInt8) (events : List Event) (row : ApiKeyRow) : Prop :=
  ∃ key since, row.keyHash = hashApiKey sha256 key ∧ Origin events key row.tenantId since ∧
    (row.revokedAt = none ↔ .revoke row.id ∉ since.map Prod.fst)

/-- **The table against the calls.** -/
structure Sound (sha256 : String → List UInt8) (events : List Event) (table : ApiKeyTable) :
    Prop where
  /-- ids are drawn from the sequence -/
  drawn : ∀ r ∈ table.rows, r.id < table.nextId
  /-- an id has one row -/
  ids : (table.rows.map ApiKeyRow.id).Nodup
  /-- a hash has one row -/
  hashes : (table.rows.map ApiKeyRow.keyHash).Nodup
  /-- a row is that of a registered key -/
  recorded : ∀ r ∈ table.rows, Recorded sha256 events r
  /-- a registered key has a row -/
  known : ∀ e ∈ events, ∀ key t, Introduces key t e →
    ∃ r ∈ table.rows, r.keyHash = hashApiKey sha256 key
  /-- at most one revocation of an id has taken effect, and then its row is revoked -/
  once : ∀ id, events.count (revocation id) = 0 ∨ events.count (revocation id) = 1 ∧
    id < table.nextId ∧ ∀ r ∈ table.rows, r.id = id → r.revokedAt ≠ none
  /-- a row is revoked by a revocation that took effect -/
  revoked : ∀ r ∈ table.rows, r.revokedAt ≠ none → revocation r.id ∈ events

theorem sound_start : Sound sha256 [] emptyTable where
  drawn := nofun
  ids := List.nodup_nil
  hashes := List.nodup_nil
  recorded := nofun
  known := nofun
  once _ := .inl rfl
  revoked := nofun

/-- The first registration of a key records it. -/
theorem recorded_new {row : ApiKeyRow} {e : Event} (h : Sound sha256 events table)
    (hhash : row.keyHash = hashApiKey sha256 key) (hactive : row.revokedAt = none)
    (hfree : ∀ r ∈ table.rows, r.keyHash ≠ row.keyHash) (hintro : Introduces key row.tenantId e) :
    Recorded sha256 (events ++ [e]) row := by
  refine ⟨key, [], hhash, ⟨events, e, rfl, hintro, ?_⟩, by simp [hactive]⟩
  intro e' he' t hintro'
  obtain ⟨r, hr, hheld⟩ := h.known e' he' key t hintro'
  exact hfree r hr (hheld.trans hhash.symm)

theorem Recorded.snoc {row row' : ApiKeyRow} {e : Event} (h : Recorded sha256 events row)
    (hid : row'.id = row.id) (htenant : row'.tenantId = row.tenantId)
    (hhash : row'.keyHash = row.keyHash)
    (hactive : row'.revokedAt = none ↔ row.revokedAt = none ∧ e.1 ≠ .revoke row.id) :
    Recorded sha256 (events ++ [e]) row' := by
  obtain ⟨key, since, hkey, horigin, hsince⟩ := h
  refine ⟨key, since ++ [e], hhash.trans hkey, htenant ▸ horigin.snoc e, ?_⟩
  rw [hactive, hsince, hid, List.map_append, List.mem_append, not_or]
  simp [eq_comm]

/-- A call that is no revocation changes no count of them. -/
theorem count_snoc {op : Operation} {answer : Answer} {id : Nat} (h : op ≠ .revoke id) :
    (events ++ [(op, answer)]).count (revocation id) = events.count (revocation id) := by
  have hne : (op, answer) ≠ revocation id := fun heq => h (congrArg Prod.fst heq)
  rw [List.count_append, List.count_singleton, if_neg (by simpa using hne), Nat.add_zero]

theorem Sound.registered {op : Operation} {answer : Answer} {row : ApiKeyRow}
    {table' : ApiKeyTable} (h : Sound sha256 events table)
    (hrows : table'.rows = table.rows ++ [row]) (hnext : table'.nextId = table.nextId + 1)
    (hid : row.id = table.nextId) (hhash : row.keyHash = hashApiKey sha256 key)
    (hactive : row.revokedAt = none) (hfree : ∀ r ∈ table.rows, r.keyHash ≠ row.keyHash)
    (hhashed : op.key = some key) (hintro : Introduces key row.tenantId (op, answer))
    (hquiet : ∀ id, op ≠ .revoke id) : Sound sha256 (events ++ [(op, answer)]) table' where
  drawn r hr := by
    rw [hrows, List.mem_append, List.mem_singleton] at hr
    rcases hr with hr | rfl
    · have hlt := h.drawn r hr
      omega
    · omega
  ids := by
    rw [hrows, List.map_append]
    refine List.nodup_append.mpr ⟨h.ids, List.nodup_singleton _, ?_⟩
    rintro _ hmem _ hnew
    obtain ⟨r, hr, rfl⟩ := List.mem_map.mp hmem
    obtain rfl := List.mem_singleton.mp hnew
    have hlt := h.drawn r hr
    omega
  hashes := by
    rw [hrows, List.map_append]
    refine List.nodup_append.mpr ⟨h.hashes, List.nodup_singleton _, ?_⟩
    rintro _ hmem _ hnew
    obtain ⟨r, hr, rfl⟩ := List.mem_map.mp hmem
    obtain rfl := List.mem_singleton.mp hnew
    exact hfree r hr
  recorded r hr := by
    rw [hrows, List.mem_append, List.mem_singleton] at hr
    rcases hr with hr | rfl
    · refine (h.recorded r hr).snoc rfl rfl rfl ?_
      exact ⟨fun hnone => ⟨hnone, hquiet r.id⟩, And.left⟩
    · exact recorded_new h hhash hactive hfree hintro
  known e he key' t hintro' := by
    rw [List.mem_append, List.mem_singleton] at he
    rcases he with he | rfl
    · obtain ⟨r, hr, hheld⟩ := h.known e he key' t hintro'
      exact ⟨r, hrows ▸ List.mem_append_left _ hr, hheld⟩
    · -- the key of the call itself, which has the new row
      obtain rfl := Option.some.inj (hhashed.symm.trans hintro'.hashed)
      exact ⟨row, hrows ▸ List.mem_append_right _ List.mem_cons_self, hhash⟩
  once id := by
    rw [count_snoc (hquiet id)]
    refine (h.once id).imp_right fun ⟨hcount, hlt, hdone⟩ => ⟨hcount, by omega, ?_⟩
    intro r hr heq
    rw [hrows, List.mem_append, List.mem_singleton] at hr
    rcases hr with hr | rfl
    · exact hdone r hr heq
    · omega
  revoked r hr hrevoked := by
    rw [hrows, List.mem_append, List.mem_singleton] at hr
    rcases hr with hr | rfl
    · exact List.mem_append_left _ (h.revoked r hr hrevoked)
    · exact absurd hactive hrevoked

theorem Sound.updated {op : Operation} {answer : Answer} {f : ApiKeyRow → ApiKeyRow}
    {table' : ApiKeyTable} (h : Sound sha256 events table)
    (hrows : table'.rows = table.rows.map f) (hnext : table.nextId ≤ table'.nextId)
    (hid : ∀ r, (f r).id = r.id) (htenant : ∀ r, (f r).tenantId = r.tenantId)
    (hhash : ∀ r, (f r).keyHash = r.keyHash)
    (hactive : ∀ r, (f r).revokedAt = none ↔ r.revokedAt = none ∧ op ≠ .revoke r.id)
    (hknown : ∀ key t, Introduces key t (op, answer) →
      ∃ r ∈ table.rows, r.keyHash = hashApiKey sha256 key)
    (hanswers : ∀ id, op = .revoke id → (answer = .revoked true ↔
      ∃ r ∈ table.rows, r.id = id ∧ r.revokedAt = none)) :
    Sound sha256 (events ++ [(op, answer)]) table' where
  drawn r hr := by
    obtain ⟨r, hmem, rfl⟩ := List.mem_map.mp (hrows ▸ hr)
    exact hid r ▸ Nat.lt_of_lt_of_le (h.drawn r hmem) hnext
  ids := by
    have hsame : ApiKeyRow.id ∘ f = ApiKeyRow.id := funext hid
    rw [hrows, List.map_map, hsame]
    exact h.ids
  hashes := by
    have hsame : ApiKeyRow.keyHash ∘ f = ApiKeyRow.keyHash := funext hhash
    rw [hrows, List.map_map, hsame]
    exact h.hashes
  recorded r hr := by
    obtain ⟨r, hmem, rfl⟩ := List.mem_map.mp (hrows ▸ hr)
    exact (h.recorded r hmem).snoc (hid r) (htenant r) (hhash r) (hactive r)
  known e he key' t hintro := by
    have hold : ∃ r ∈ table.rows, r.keyHash = hashApiKey sha256 key' := by
      rw [List.mem_append, List.mem_singleton] at he
      rcases he with he | rfl
      · exact h.known e he key' t hintro
      · exact hknown key' t hintro
    obtain ⟨r, hr, hheld⟩ := hold
    exact ⟨f r, hrows ▸ List.mem_map_of_mem hr, (hhash r).trans hheld⟩
  once id := by
    -- a key that is revoked now, or was before, has its time of revocation
    have hdone : ∀ r ∈ table'.rows, r.id = id →
        (op = .revoke id ∨ ∀ r ∈ table.rows, r.id = id → r.revokedAt ≠ none) →
          r.revokedAt ≠ none := by
      intro r hr heq hwhy hnone
      obtain ⟨r, hmem, rfl⟩ := List.mem_map.mp (hrows ▸ hr)
      have heq : r.id = id := (hid r).symm.trans heq
      obtain ⟨hold, hother⟩ := (hactive r).mp hnone
      rcases hwhy with rfl | hwhy
      · exact hother (by rw [heq])
      · exact hwhy r hmem heq hold
    by_cases hop : op = .revoke id
    · by_cases hanswer : answer = .revoked true
      · -- the first revocation that takes effect
        obtain ⟨r, hr, heq, hnone⟩ := (hanswers id hop).mp hanswer
        have hzero : events.count (revocation id) = 0 :=
          (h.once id).resolve_right fun hone => hone.2.2 r hr heq hnone
        have hlt := h.drawn r hr
        refine .inr ⟨?_, by omega, fun r hr heq => hdone r hr heq (.inl hop)⟩
        rw [List.count_append, hzero, hop, hanswer, Nat.zero_add]
        exact List.count_singleton_self
      -- a revocation that found nothing is not counted
      · have hsame : (events ++ [(op, answer)]).count (revocation id)
            = events.count (revocation id) := by
          have hne : (op, answer) ≠ revocation id := fun heq => hanswer (congrArg Prod.snd heq)
          rw [List.count_append, List.count_singleton, if_neg (by simpa using hne), Nat.add_zero]
        rw [hsame]
        exact (h.once id).imp_right fun hone =>
          ⟨hone.1, Nat.lt_of_lt_of_le hone.2.1 hnext,
            fun r hr heq => hdone r hr heq (.inl hop)⟩
    · rw [count_snoc hop]
      exact (h.once id).imp_right fun hone =>
        ⟨hone.1, Nat.lt_of_lt_of_le hone.2.1 hnext,
          fun r hr heq => hdone r hr heq (.inr hone.2.2)⟩
  revoked r hr hrevoked := by
    obtain ⟨r, hmem, rfl⟩ := List.mem_map.mp (hrows ▸ hr)
    rw [hid, List.mem_append, List.mem_singleton]
    by_cases hold : r.revokedAt = none
    · have hop : op = .revoke r.id := by
        by_contra hother
        exact hrevoked ((hactive r).mpr ⟨hold, hother⟩)
      have hanswer := (hanswers r.id hop).mpr ⟨r, hmem, rfl, hold⟩
      exact .inr (by rw [revocation, hop, hanswer])
    · exact .inl (h.revoked r hmem hold)

/-- A call keeps the table sound. -/
theorem Sound.next {op : Operation} {answer : Answer} {table' : ApiKeyTable}
    (h : Sound sha256 events table) (heffect : Effect sha256 table op answer table') :
    Sound sha256 (events ++ [(op, answer)]) table' := by
  cases heffect with
  | registered key tenantId row hrows hnext hid htenant hhash hactive hfree hhashed hintro hquiet =>
    exact h.registered hrows hnext hid hhash hactive hfree hhashed (htenant ▸ hintro) hquiet
  | updated f hrows hnext hid htenant hhash hactive _ hknown hanswers =>
    exact h.updated hrows hnext hid htenant hhash hactive hknown hanswers

/-- **The table is sound after every run.** -/
theorem Reached.sound (h : Reached sha256 events table) : Sound sha256 events table := by
  induction h with
  | start => exact sound_start
  | next op now _ ih => exact ih.next (perform_effect _ now op)

/-! ## Verification -/

/-- The digests of the keys in use: 32 bytes each, and no two alike. -/
structure Collisionless (sha256 : String → List UInt8) (used : Set String) : Prop where
  /-- SHA-256 has 256 bits -/
  length : ∀ key ∈ used, (sha256 key).length = 32
  /-- no collision -/
  injective : Set.InjOn sha256 used

theorem hashApiKey_inj {key' : String} (h : Collisionless sha256 used) (hkey : key ∈ used)
    (hkey' : key' ∈ used) (heq : hashApiKey sha256 key = hashApiKey sha256 key') : key = key' := by
  refine h.injective hkey hkey' ?_
  have hhex := congrArg String.toList heq
  rw [hashApiKey, hashApiKey, String.toList_ofList, String.toList_ofList] at hhex
  rw [← fromHex_toHex (sha256 key), hhex, fromHex_toHex]

/-- Verification finds the row by its hash: the comparison in constant time decides nothing. -/
theorem verifyApiKey_eq {plaintextKey : String}
    (h : (sha256 (Text.trim plaintextKey)).length = 32) :
    verifyApiKey sha256 table plaintextKey = if Text.trim plaintextKey = "" then none else
      (findActiveByHash table (hashApiKey sha256 (Text.trim plaintextKey))).map mapApiKey := by
  simp only [verifyApiKey]
  split
  · rfl
  rcases hfound : findActiveByHash table (hashApiKey sha256 (Text.trim plaintextKey)) with
    _ | row
  · rfl
  · have hhash : row.keyHash = hashApiKey sha256 (Text.trim plaintextKey) := by
      have hrow := List.find?_some hfound
      simp only [Bool.and_eq_true, decide_eq_true_eq] at hrow
      exact hrow.1
    simp [hhash, hashesMatch_hashApiKey sha256 h]

theorem Origin.mem_used (horigin : Origin events key tenantId since)
    (hused : ∀ e ∈ events, ∀ key, e.1.key = some key → key ∈ used) : key ∈ used := by
  obtain ⟨before, event, rfl, hintro, -⟩ := horigin
  exact hused event (by simp) key hintro.hashed

/-- **The row of a registered key** names the tenant of its first registration. -/
theorem Sound.recorded_of_origin {row : ApiKeyRow} (h : Sound sha256 events table)
    (hsha : Collisionless sha256 used)
    (hused : ∀ e ∈ events, ∀ key, e.1.key = some key → key ∈ used) (hkey : key ∈ used)
    (hrow : row ∈ table.rows) (hhash : row.keyHash = hashApiKey sha256 key) :
    ∃ since, Origin events key row.tenantId since ∧
      (row.revokedAt = none ↔ .revoke row.id ∉ since.map Prod.fst) := by
  obtain ⟨key', since, hhash', horigin, hsince⟩ := h.recorded row hrow
  obtain rfl := hashApiKey_inj hsha hkey (horigin.mem_used hused) (hhash.symm.trans hhash')
  exact ⟨since, horigin, hsince⟩

theorem Sound.row_of_origin (h : Sound sha256 events table)
    (horigin : Origin events key tenantId since) :
    ∃ row ∈ table.rows, row.keyHash = hashApiKey sha256 key := by
  obtain ⟨before, event, rfl, hintro, -⟩ := horigin
  exact h.known event (by simp) key tenantId hintro

/-- A call is about a key if it hashes it, or names the id of its row. -/
def Operation.Concerns (sha256 : String → List UInt8) (table : ApiKeyTable) (key : String)
    (op : Operation) : Prop :=
  op.key = some key ∨ ∃ row ∈ table.rows, row.keyHash = hashApiKey sha256 key ∧
    (op = .revoke row.id ∨ op = .touchLastUsed row.id)

/-- Rows that are not looked for may change. -/
theorem findActiveByHash_map {f : ApiKeyRow → ApiKeyRow} {keyHash : String} {rows : List ApiKeyRow}
    {m n : Nat} (hhash : ∀ r, (f r).keyHash = r.keyHash)
    (hframe : ∀ r ∈ rows, r.keyHash = keyHash → f r = r) :
    findActiveByHash ⟨rows.map f, m⟩ keyHash = findActiveByHash ⟨rows, n⟩ keyHash := by
  simp only [findActiveByHash]
  induction rows with
  | nil => rfl
  | cons r rows ih =>
    have hrest := ih fun r' hr' => hframe r' (List.mem_cons_of_mem r hr')
    rw [List.map_cons, List.find?_cons, List.find?_cons, hrest, hhash]
    by_cases hkey : r.keyHash = keyHash
    · rw [hframe r List.mem_cons_self hkey]
    · simp [hkey]

/-- **A call about another key** leaves the answer of verification as it is. -/
theorem Effect.frame {op : Operation} {answer : Answer} {table' : ApiKeyTable}
    {plaintextKey : String} (heffect : Effect sha256 table op answer table')
    (hsha : Collisionless sha256 used) (hkey : Text.trim plaintextKey ∈ used)
    (hop : ∀ key, op.key = some key → key ∈ used)
    (hother : ¬op.Concerns sha256 table (Text.trim plaintextKey)) :
    verifyApiKey sha256 table' plaintextKey = verifyApiKey sha256 table plaintextKey := by
  have hsame : findActiveByHash table' (hashApiKey sha256 (Text.trim plaintextKey))
      = findActiveByHash table (hashApiKey sha256 (Text.trim plaintextKey)) := by
    obtain ⟨rows', nextId'⟩ := table'
    cases heffect with
    | registered key tenantId row hrows _ _ _ hhash _ _ hhashed =>
      have hne : row.keyHash ≠ hashApiKey sha256 (Text.trim plaintextKey) := by
        intro heq
        refine hother (.inl ?_)
        rw [hhashed, hashApiKey_inj hsha (hop key hhashed) hkey (hhash.symm.trans heq)]
      obtain rfl : rows' = table.rows ++ [row] := hrows
      simp [findActiveByHash, List.find?_append, hne]
    | updated f hrows _ _ _ hhash _ hframe =>
      obtain rfl : rows' = table.rows.map f := hrows
      refine findActiveByHash_map hhash fun r hr hheld => hframe r ?_ ?_
      · exact fun heq => hother (.inr ⟨r, hr, hheld, .inl heq⟩)
      · exact fun heq => hother (.inr ⟨r, hr, hheld, .inr heq⟩)
  rw [verifyApiKey_eq (hsha.length _ hkey), verifyApiKey_eq (hsha.length _ hkey), hsame]

/-- **The lifecycle of the keys in use**, after the calls `events`. -/
structure Lifecycle (sha256 : String → List UInt8) (used : Set String) (events : List Event)
    (table : ApiKeyTable) : Prop where
  /-- an id names one row -/
  ids : (table.rows.map ApiKeyRow.id).Nodup
  /-- a registered key has one row -/
  row : ∀ key tenantId since, Origin events key tenantId since →
    ∃! row, row ∈ table.rows ∧ row.keyHash = hashApiKey sha256 key
  /-- a key is verified if it is not empty, is registered and its row has not been revoked since -/
  verified : ∀ plaintextKey, Text.trim plaintextKey ∈ used →
    ((∃ record, verifyApiKey sha256 table plaintextKey = some record) ↔
      Text.trim plaintextKey ≠ "" ∧ ∃ tenantId since,
        Origin events (Text.trim plaintextKey) tenantId since ∧ ∀ row ∈ table.rows,
          row.keyHash = hashApiKey sha256 (Text.trim plaintextKey) →
            .revoke row.id ∉ since.map Prod.fst)
  /-- the record names the tenant of the first registration -/
  tenant : ∀ plaintextKey record, Text.trim plaintextKey ∈ used →
    verifyApiKey sha256 table plaintextKey = some record →
      ∃ since, Origin events (Text.trim plaintextKey) record.tenantId since
  /-- seeding a registered key changes nothing, for whatever tenant and with whatever label -/
  seeded : ∀ now plaintextKey tenantId label,
    (∃ tenantId' since, Origin events (Text.trim plaintextKey) tenantId' since) →
      perform sha256 table now (.seed plaintextKey tenantId label) = (table, .seeded false)
  /-- no id is revoked twice -/
  once : ∀ id, events.count (revocation id) ≤ 1
  /-- the row of a key is revoked once if it is revoked at all -/
  revoked : ∀ key tenantId since row, Origin events key tenantId since → row ∈ table.rows →
    row.keyHash = hashApiKey sha256 key → .revoke row.id ∈ since.map Prod.fst →
      events.count (revocation row.id) = 1
  /-- a call about one key changes what verification answers for no other -/
  frame : ∀ now op plaintextKey, Text.trim plaintextKey ∈ used →
    (∀ key, op.key = some key → key ∈ used) →
      ¬op.Concerns sha256 table (Text.trim plaintextKey) →
        verifyApiKey sha256 (perform sha256 table now op).1 plaintextKey
          = verifyApiKey sha256 table plaintextKey

/-- What is verified is an unrevoked row. -/
theorem verifyApiKey_eq_some {plaintextKey : String} {record : ApiKeyRecord}
    (h : verifyApiKey sha256 table plaintextKey = some record)
    (hlength : (sha256 (Text.trim plaintextKey)).length = 32) :
    Text.trim plaintextKey ≠ "" ∧ ∃ row ∈ table.rows, row.revokedAt = none ∧
      row.keyHash = hashApiKey sha256 (Text.trim plaintextKey) ∧ record = mapApiKey row := by
  rw [verifyApiKey_eq hlength] at h
  split at h
  · cases h
  · rename_i hne
    obtain ⟨row, hfound, rfl⟩ := Option.map_eq_some_iff.mp h
    have hrow := List.find?_some hfound
    simp only [Bool.and_eq_true, decide_eq_true_eq, Option.isNone_iff_eq_none] at hrow
    exact ⟨hne, row, List.mem_of_find?_eq_some hfound, hrow.2, hrow.1, rfl⟩

theorem exists_verifyApiKey {plaintextKey : String} {row : ApiKeyRow}
    (hlength : (sha256 (Text.trim plaintextKey)).length = 32) (hne : Text.trim plaintextKey ≠ "")
    (hrow : row ∈ table.rows) (hactive : row.revokedAt = none)
    (hhash : row.keyHash = hashApiKey sha256 (Text.trim plaintextKey)) :
    ∃ record, verifyApiKey sha256 table plaintextKey = some record := by
  rw [verifyApiKey_eq hlength, if_neg hne]
  have hfound : (findActiveByHash table
      (hashApiKey sha256 (Text.trim plaintextKey))).isSome = true :=
    List.find?_isSome.mpr ⟨row, hrow, by simp [hhash, hactive]⟩
  obtain ⟨found, hfound⟩ := Option.isSome_iff_exists.mp hfound
  exact ⟨mapApiKey found, by rw [hfound, Option.map_some]⟩

/-- **API keys follow their lifecycle**, after every run of calls. -/
theorem keys_follow_lifecycle (h : Reached sha256 events table) (hsha : Collisionless sha256 used)
    (hused : ∀ e ∈ events, ∀ key, e.1.key = some key → key ∈ used) :
    Lifecycle sha256 used events table := by
  have hsound := h.sound
  refine
    { ids := hsound.ids
      row := ?row
      verified := ?verified
      tenant := ?tenant
      seeded := ?seeded
      once := ?once
      revoked := ?revoked
      frame := fun now op _ hkey hop hother =>
        (perform_effect table now op).frame hsha hkey hop hother }
  case row =>
    intro key tenantId since horigin
    obtain ⟨row, hrow, hhash⟩ := hsound.row_of_origin horigin
    refine ⟨row, ⟨hrow, hhash⟩, ?_⟩
    rintro row' ⟨hrow', hhash'⟩
    exact List.inj_on_of_nodup_map hsound.hashes hrow' hrow (hhash'.trans hhash.symm)
  case verified =>
    intro plaintextKey hkey
    have hlength := hsha.length _ hkey
    constructor
    · rintro ⟨record, hrecord⟩
      obtain ⟨hne, row, hrow, hactive, hhash, -⟩ := verifyApiKey_eq_some hrecord hlength
      obtain ⟨since, horigin, hsince⟩ := hsound.recorded_of_origin hsha hused hkey hrow hhash
      refine ⟨hne, row.tenantId, since, horigin, fun row' hrow' hhash' => ?_⟩
      obtain rfl := List.inj_on_of_nodup_map hsound.hashes hrow' hrow (hhash'.trans hhash.symm)
      exact hsince.mp hactive
    · rintro ⟨hne, tenantId, since, horigin, hsince⟩
      obtain ⟨row, hrow, hhash⟩ := hsound.row_of_origin horigin
      obtain ⟨since', horigin', hactive⟩ := hsound.recorded_of_origin hsha hused hkey hrow hhash
      obtain ⟨-, rfl⟩ := horigin.unique horigin'
      exact exists_verifyApiKey hlength hne hrow (hactive.mpr (hsince row hrow hhash)) hhash
  case tenant =>
    intro plaintextKey record hkey hrecord
    obtain ⟨-, row, hrow, -, hhash, rfl⟩ := verifyApiKey_eq_some hrecord (hsha.length _ hkey)
    obtain ⟨since, horigin, -⟩ := hsound.recorded_of_origin hsha hused hkey hrow hhash
    exact ⟨since, horigin⟩
  case seeded =>
    rintro now plaintextKey tenantId label ⟨tenantId', since, horigin⟩
    have hheld := hsound.row_of_origin horigin
    have hany : (table.rows.any fun r =>
        r.keyHash = hashApiKey sha256 (Text.trim plaintextKey)) = true := by simpa using hheld
    by_cases hempty : Text.trim plaintextKey = ""
    · simp only [perform, seedBootstrapApiKey, hempty, if_true]
    · simp only [perform, seedBootstrapApiKey, hempty, if_false, hany, if_true]
  case once =>
    intro id
    rcases hsound.once id with hzero | ⟨hone, -⟩ <;> omega
  case revoked =>
    intro key tenantId since row horigin hrow hhash hsince
    obtain ⟨since', horigin', hactive⟩ :=
      hsound.recorded_of_origin hsha hused (horigin.mem_used hused) hrow hhash
    obtain ⟨-, rfl⟩ := horigin.unique horigin'
    have hdone : row.revokedAt ≠ none := fun hnone => hactive.mp hnone hsince
    have hpos := List.count_pos_iff.mpr (hsound.revoked row hrow hdone)
    rcases hsound.once row.id with hzero | ⟨hone, -⟩ <;> omega

/-! ### A run -/

/-- Execute calls from the empty table. -/
def execute (sha256 : String → List UInt8) (calls : List (Nat × Operation)) :
    List Event × ApiKeyTable :=
  calls.foldl (fun s call =>
    (s.1 ++ [(call.2, (perform sha256 s.2 call.1 call.2).2)], (perform sha256 s.2 call.1 call.2).1))
    ([], emptyTable)

theorem reached_execute (calls : List (Nat × Operation)) :
    Reached sha256 (execute sha256 calls).1 (execute sha256 calls).2 := by
  induction calls using List.reverseRecOn with
  | nil => exact .start
  | append_singleton calls call ih =>
    rw [execute, List.foldl_append]
    exact .next call.2 call.1 ih

/-- The digests of two keys. -/
def sampleDigest (key : String) : List UInt8 :=
  if key = "dev-key" then
    [126, 159, 143, 209, 17, 128, 43, 229, 108, 55, 157, 89, 120, 66, 226, 155, 44, 235,
      211, 95, 242, 19, 61, 67, 26, 73, 250, 85, 106, 24, 112, 78]
  else
    [33, 151, 79, 170, 208, 156, 65, 8, 79, 231, 232, 54, 192, 143, 227, 157, 10, 15, 9,
      173, 50, 160, 61, 33, 222, 46, 167, 96, 173, 114, 113, 95]

/-- A key is seeded, revoked, and seeded again for another tenant. -/
def sampleCalls : List (Nat × Operation) :=
  [(1, .seed " dev-key " "legacy" none), (2, .seed "ci-key" "ci" none), (3, .revoke 1),
    (4, .seed "dev-key" "other" none), (5, .revoke 1)]

theorem sample_lifecycle :
    Lifecycle sampleDigest {"dev-key", "ci-key"} (execute sampleDigest sampleCalls).1
      (execute sampleDigest sampleCalls).2 := by
  refine keys_follow_lifecycle (reached_execute sampleCalls) ⟨?_, ?_⟩ ?_
  · rintro key (rfl | rfl) <;> decide
  · rintro key (rfl | rfl) key' (rfl | rfl) heq
    · rfl
    · exact absurd heq (by decide)
    · exact absurd heq (by decide)
    · rfl
  · have hkeys : ((execute sampleDigest sampleCalls).1.all fun e =>
        e.1.key.all fun key => key = "dev-key" || key = "ci-key") = true := by decide +kernel
    intro e he key hkey
    have hmem := List.all_eq_true.mp hkeys e he
    rw [hkey] at hmem
    simpa using hmem

end ApiKeys

end Feedpulse
