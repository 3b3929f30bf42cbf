import Mathlib.Data.List.Nodup

/-!
# Tables of rows

A database table is a list of rows. Two things an SQL statement does to one are
stated here once: `updateWhere`, the rows changed by an `UPDATE … WHERE`, and
`IsTop`, the rows an `ORDER BY … LIMIT` may choose when the order has ties.
-/

namespace Feedpulse

universe u v

namespace Table

variable {ρ : Type u} {κ : Type v}

/-! ## Updates -/

/-- Change the rows that satisfy `p`. -/
def updateWhere (p : ρ → Bool) (f : ρ → ρ) (rows : List ρ) : List ρ :=
  rows.map fun r => if p r then f r else r

theorem mem_updateWhere {p : ρ → Bool} {f : ρ → ρ} {rows : List ρ} {x : ρ} :
    x ∈ updateWhere p f rows ↔ ∃ r ∈ rows, x = if p r then f r else r := by
  simp only [updateWhere, List.mem_map, eq_comm]

/-- What holds of every row survives an update that preserves it. -/
theorem forall_updateWhere {P : ρ → Prop} {p : ρ → Bool} {f : ρ → ρ} {rows : List ρ}
    (h : ∀ r ∈ rows, P r) (hf : ∀ r ∈ rows, p r = true → P r → P (f r)) :
    ∀ r ∈ updateWhere p f rows, P r := by
  intro x hx
  obtain ⟨r, hr, rfl⟩ := mem_updateWhere.mp hx
  split
  · rename_i hp
    exact hf r hr hp (h r hr)
  · exact h r hr

/-- An update leaves a key alone if it does so on every row. -/
theorem map_updateWhere (key : ρ → κ) {p : ρ → Bool} {f : ρ → ρ} (rows : List ρ)
    (hf : ∀ r, key (f r) = key r) : (updateWhere p f rows).map key = rows.map key := by
  rw [updateWhere, List.map_map]
  refine List.map_congr_left fun r _ => ?_
  change key (if p r then f r else r) = key r
  split
  · exact hf r
  · rfl

/-- The first row with a given key. -/
def lookup [DecidableEq κ] (key : ρ → κ) (k : κ) (rows : List ρ) : Option ρ :=
  rows.find? fun r => key r = k

section Lookup

variable [DecidableEq κ] {key : ρ → κ} {k : κ} {rows : List ρ} {r : ρ}

theorem mem_of_lookup (h : lookup key k rows = some r) : r ∈ rows :=
  List.mem_of_find?_eq_some h

theorem key_of_lookup (h : lookup key k rows = some r) : key r = k := by
  simpa using List.find?_some h

theorem lookup_eq_none : lookup key k rows = none ↔ ∀ r ∈ rows, key r ≠ k := by
  simp [lookup]

theorem lookup_ne_none_of_mem (h : r ∈ rows) : lookup key (key r) rows ≠ none := by
  intro hn
  rw [lookup_eq_none] at hn
  exact hn r h rfl

/-- Where keys are unique, `lookup` finds every row. -/
theorem lookup_of_mem (hn : (rows.map key).Nodup) (h : r ∈ rows) :
    lookup key (key r) rows = some r := by
  obtain ⟨r', hr'⟩ := Option.ne_none_iff_exists'.mp
    (lookup_ne_none_of_mem h : lookup key (key r) rows ≠ none)
  rw [hr', List.inj_on_of_nodup_map hn (mem_of_lookup hr') h (key_of_lookup hr')]

/-- Looking up a key after an update that leaves keys alone. -/
theorem lookup_updateWhere {p : ρ → Bool} {f : ρ → ρ} (hf : ∀ r, key (f r) = key r) :
    lookup key k (updateWhere p f rows)
      = (lookup key k rows).map fun r => if p r then f r else r := by
  induction rows with
  | nil => rfl
  | cons r rows ih =>
    have hkey : key (if p r then f r else r) = key r := by
      split
      · exact hf r
      · rfl
    change List.find? _ ((if p r then f r else r) :: updateWhere p f rows) = _
    unfold lookup at ih ⊢
    rw [List.find?_cons, List.find?_cons, hkey]
    by_cases hk : key r = k
    · simp [hk]
    · simp [hk, ih]

theorem lookup_append {rows' : List ρ} :
    lookup key k (rows ++ rows') = (lookup key k rows).or (lookup key k rows') := by
  simp [lookup]

end Lookup

/-! ## Tables that only grow -/

/-- The rows of a table keep their places, each changes along `R`, and new ones come after
them. -/
inductive Evolves (R : ρ → ρ → Prop) : List ρ → List ρ → Prop
  /-- rows come in after the last one -/
  | added (rows : List ρ) : Evolves R [] rows
  /-- a row changes along `R` -/
  | row {r r' : ρ} {rows rows' : List ρ} (h : R r r') (hrest : Evolves R rows rows') :
    Evolves R (r :: rows) (r' :: rows')

namespace Evolves

variable {R : ρ → ρ → Prop} {rows rows' rows'' : List ρ}

theorem append (hR : ∀ r, R r r) (rows new : List ρ) : Evolves R rows (rows ++ new) := by
  induction rows with
  | nil => exact .added new
  | cons r rows ih => exact .row (hR r) ih

theorem refl (hR : ∀ r, R r r) (rows : List ρ) : Evolves R rows rows := by
  have h := append hR rows []
  rwa [List.append_nil] at h

theorem trans (hR : ∀ r r' r'', R r r' → R r' r'' → R r r'') (h : Evolves R rows rows')
    (h' : Evolves R rows' rows'') : Evolves R rows rows'' := by
  induction h generalizing rows'' with
  | added => exact .added rows''
  | row hr _ ih =>
    cases h' with
    | row hr' hrest' => exact .row (hR _ _ _ hr hr') (ih hrest')

/-- An update that changes its rows along `R`. -/
theorem updateWhere {p : ρ → Bool} {f : ρ → ρ} (hR : ∀ r, R r r)
    (hf : ∀ r, p r = true → R r (f r)) (rows : List ρ) :
    Evolves R rows (updateWhere p f rows) := by
  induction rows with
  | nil => exact .added []
  | cons r rows ih =>
    refine .row ?_ ih
    change R r (if p r = true then f r else r)
    split
    · rename_i hp
      exact hf r hp
    · exact hR r

/-- Every row has become one of the rows. -/
theorem exists_of_mem {r : ρ} (h : Evolves R rows rows') (hr : r ∈ rows) :
    ∃ r' ∈ rows', R r r' := by
  induction h with
  | added => cases hr
  | row hx _ ih =>
    rcases List.mem_cons.mp hr with rfl | hr
    · exact ⟨_, List.mem_cons_self, hx⟩
    · obtain ⟨r', hr', hR⟩ := ih hr
      exact ⟨r', List.mem_cons_of_mem _ hr', hR⟩

end Evolves

/-! ## First rows -/

/-- No row comes before this one. -/
def IsFirst (before : ρ → ρ → Bool) (rows : List ρ) (r : ρ) : Prop :=
  r ∈ rows ∧ ∀ x ∈ rows, before x r = false

/-- Under a strict order, some row comes first. -/
theorem exists_isFirst {before : ρ → ρ → Bool} (hirrefl : ∀ r, before r r = false)
    (htrans : ∀ r r' r'', before r r' = true → before r' r'' = true → before r r'' = true)
    {rows : List ρ} (h : rows ≠ []) : ∃ r, IsFirst before rows r := by
  induction rows with
  | nil => exact absurd rfl h
  | cons x rows ih =>
    rcases rows with _ | ⟨y, rows⟩
    · refine ⟨x, List.mem_cons_self, fun z hz => ?_⟩
      obtain rfl := List.mem_singleton.mp hz
      exact hirrefl z
    · obtain ⟨m, hm, hfirst⟩ := ih (List.cons_ne_nil y rows)
      rcases hx : before x m with _ | _
      · refine ⟨m, List.mem_cons_of_mem _ hm, fun z hz => ?_⟩
        rcases List.mem_cons.mp hz with rfl | hz
        · exact hx
        · exact hfirst z hz
      · -- `x` comes before the first of the others
        refine ⟨x, List.mem_cons_self, fun z hz => ?_⟩
        rcases List.mem_cons.mp hz with rfl | hz
        · exact hirrefl z
        · rw [← Bool.not_eq_true]
          intro hzx
          have hzm := htrans z x m hzx hx
          rw [hfirst z hz] at hzm
          cases hzm

/-- Where the order is total on the rows, only one row comes first. -/
theorem IsFirst.unique {before : ρ → ρ → Bool} {rows : List ρ} {r r' : ρ}
    (htotal : ∀ x ∈ rows, ∀ y ∈ rows, before x y = false → before y x = false → x = y)
    (h : IsFirst before rows r) (h' : IsFirst before rows r') : r = r' :=
  htotal r h.1 r' h'.1 (h'.2 r h.1) (h.2 r' h'.1)

/-- Filtering for a property of one row only. -/
theorem filter_eq_singleton {p : ρ → Bool} {rows : List ρ} {r : ρ} (hn : rows.Nodup)
    (hr : r ∈ rows) (hp : ∀ x ∈ rows, p x = true ↔ x = r) : rows.filter p = [r] := by
  have hmem : ∀ x, x ∈ rows.filter p ↔ x ∈ [r] := by
    intro x
    rw [List.mem_filter, List.mem_singleton]
    constructor
    · rintro ⟨hx, hpx⟩
      exact (hp x hx).mp hpx
    · rintro rfl
      exact ⟨hr, (hp x hr).mpr rfl⟩
  exact List.perm_singleton.mp ((List.perm_ext_iff_of_nodup (hn.filter p)
    (List.nodup_singleton r)).mpr hmem)

/-! ## Ordered selections -/

/-- `picks` is an answer to `ORDER BY le LIMIT limit` over `candidates`: distinct
candidates in order, as many as the limit allows, none of the others before one
of them. Ties are left open, as in SQL. -/
def IsTop [DecidableEq ρ] (le : ρ → ρ → Bool) (limit : Nat) (candidates picks : List ρ) : Prop :=
  picks.Nodup ∧ (∀ r ∈ picks, r ∈ candidates) ∧
    picks.length = min limit candidates.length ∧
    picks.Pairwise (fun r r' => le r r' = true) ∧
    ∀ c ∈ candidates, c ∈ picks ∨ ∀ r ∈ picks, le r c = true

instance [DecidableEq ρ] (le : ρ → ρ → Bool) (limit : Nat) (candidates picks : List ρ) :
    Decidable (IsTop le limit candidates picks) :=
  inferInstanceAs (Decidable (_ ∧ _ ∧ _ ∧ _ ∧ _))

end Table

end Feedpulse
