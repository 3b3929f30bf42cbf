import Mathlib.Data.List.Basic
import Mathlib.Data.List.Infix

/-!
# Patterns of `LIKE`

In a pattern `%` stands for any text, `_` for any character, and a backslash takes the meaning
away from the character behind it. A text put between two `%` is searched for as it stands if it
contains none of the three (`matches_search_iff`); otherwise there is a text that the pattern
matches although it does not contain it (`matches_sample`, `not_infix_sample`).
-/

namespace Feedpulse

namespace LikePattern

/-! ## Patterns -/

/-- A piece of a pattern. -/
inductive Token
  /-- `%` -/
  | many
  /-- `_` -/
  | one
  /-- a character that stands for itself -/
  | lit (c : Char)
  deriving DecidableEq, Repr

/-- The pieces of a pattern. A lone backslash at its end, which a database rejects, stands for
itself. -/
def tokens : List Char → List Token
  | [] => []
  | '%' :: cs => .many :: tokens cs
  | '_' :: cs => .one :: tokens cs
  | ['\\'] => [.lit '\\']
  | '\\' :: c :: cs => .lit c :: tokens cs
  | c :: cs => .lit c :: tokens cs

/-- The pieces match the whole text. -/
def matchesAll : List Token → List Char → Bool
  | [], text => text.isEmpty
  | .many :: ts, text => text.tails.any fun rest => matchesAll ts rest
  | .one :: _, [] => false
  | .one :: ts, _ :: rest => matchesAll ts rest
  | .lit _ :: _, [] => false
  | .lit c :: ts, d :: rest => c = d && matchesAll ts rest

/-- `text LIKE pattern`. -/
def like (text pattern : List Char) : Bool := matchesAll (tokens pattern) text

/-- `text ILIKE pattern`, where `fold` takes the case away from a character. -/
def ilike (fold : Char → Char) (text pattern : List Char) : Bool :=
  like (text.map fold) (pattern.map fold)

/-- The characters with a meaning. -/
def IsSpecial (c : Char) : Prop := c = '%' ∨ c = '_' ∨ c = '\\'

instance : DecidablePred IsSpecial := fun _ => inferInstanceAs (Decidable (_ ∨ _ ∨ _))

/-- None of the characters has a meaning. -/
def Plain (cs : List Char) : Prop := ∀ c ∈ cs, ¬IsSpecial c

instance : DecidablePred Plain := fun cs => List.decidableBAll (fun c => ¬IsSpecial c) cs

variable {c d : Char} {cs q text : List Char} {ts us : List Token}

theorem plain_cons : Plain (c :: cs) ↔ ¬IsSpecial c ∧ Plain cs := List.forall_mem_cons

/-! ## Pieces of a pattern -/

theorem tokens_cons_of_not_isSpecial (h : ¬IsSpecial c) :
    tokens (c :: cs) = .lit c :: tokens cs := by
  rw [tokens]
  · exact fun hc => h (.inl hc)
  · exact fun hc => h (.inr (.inl hc))
  · exact fun hc _ => h (.inr (.inr hc))
  · exact fun _ _ hc _ => h (.inr (.inr hc))

/-- Characters without a meaning stand for themselves. -/
theorem tokens_append_of_plain (h : Plain q) :
    tokens (q ++ cs) = q.map Token.lit ++ tokens cs := by
  induction q with
  | nil => rfl
  | cons c q ih =>
    obtain ⟨hc, hq⟩ := plain_cons.mp h
    rw [List.cons_append, tokens_cons_of_not_isSpecial hc, ih hq]
    rfl

/-! ## Matching -/

theorem matchesAll_many_iff :
    matchesAll (.many :: ts) text = true ↔ ∃ rest, rest <:+ text ∧ matchesAll ts rest = true := by
  simp only [matchesAll, List.any_eq_true, List.mem_tails]

/-- A text is matched by two patterns in a row if it can be cut in two that they match. -/
theorem matchesAll_append_iff :
    matchesAll (ts ++ us) text = true ↔
      ∃ front rest, text = front ++ rest ∧ matchesAll ts front = true ∧
        matchesAll us rest = true := by
  induction ts generalizing text with
  | nil =>
    constructor
    · intro h
      exact ⟨[], text, rfl, rfl, h⟩
    · rintro ⟨front, rest, rfl, hfront, h⟩
      obtain rfl := List.isEmpty_iff.mp hfront
      exact h
  | cons t ts ih =>
    cases t with
    | many =>
      rw [List.cons_append, matchesAll_many_iff]
      constructor
      · rintro ⟨_, ⟨passed, rfl⟩, h⟩
        obtain ⟨front, rest, rfl, hfront, hrest⟩ := ih.mp h
        refine ⟨passed ++ front, rest, (List.append_assoc ..).symm, ?_, hrest⟩
        exact matchesAll_many_iff.mpr ⟨front, List.suffix_append .., hfront⟩
      · rintro ⟨_, rest, rfl, h, hrest⟩
        obtain ⟨front, ⟨passed, rfl⟩, hfront⟩ := matchesAll_many_iff.mp h
        exact ⟨front ++ rest, ⟨passed, (List.append_assoc ..).symm⟩,
          ih.mpr ⟨front, rest, rfl, hfront, hrest⟩⟩
    | one =>
      constructor
      · intro h
        cases text with
        | nil => cases h
        | cons d text =>
          obtain ⟨front, rest, rfl, hfront, hrest⟩ := ih.mp h
          exact ⟨d :: front, rest, rfl, hfront, hrest⟩
      · rintro ⟨front, rest, rfl, hfront, hrest⟩
        cases front with
        | nil => cases hfront
        | cons d front => exact ih.mpr ⟨front, rest, rfl, hfront, hrest⟩
    | lit c =>
      constructor
      · intro h
        cases text with
        | nil => cases h
        | cons d text =>
          obtain ⟨hc, h⟩ := Bool.and_eq_true_iff.mp h
          obtain ⟨front, rest, rfl, hfront, hrest⟩ := ih.mp h
          exact ⟨d :: front, rest, rfl, Bool.and_eq_true_iff.mpr ⟨hc, hfront⟩, hrest⟩
      · rintro ⟨front, rest, rfl, hfront, hrest⟩
        cases front with
        | nil => cases hfront
        | cons d front =>
          obtain ⟨hc, hfront⟩ := Bool.and_eq_true_iff.mp hfront
          exact Bool.and_eq_true_iff.mpr ⟨hc, ih.mpr ⟨front, rest, rfl, hfront, hrest⟩⟩

theorem matchesAll_map_lit_iff : matchesAll (cs.map Token.lit) text = true ↔ text = cs := by
  induction cs generalizing text with
  | nil => exact List.isEmpty_iff
  | cons c cs ih =>
    cases text with
    | nil => exact iff_of_false Bool.false_ne_true fun h => nomatch h
    | cons d text =>
      change (decide (c = d) && matchesAll (cs.map Token.lit) text) = true ↔ _
      rw [Bool.and_eq_true, decide_eq_true_eq, ih, List.cons.injEq, eq_comm]

/-- `%` alone matches everything. -/
theorem matchesAll_many (text : List Char) : matchesAll [.many] text = true :=
  matchesAll_many_iff.mpr ⟨[], List.nil_suffix, rfl⟩

/-! ## Search -/

/-- The pattern that is made of a text that is searched for. -/
def search (q : List Char) : List Char := '%' :: (q ++ ['%'])

/-- **The search is for the text as it stands**, if none of its characters has a meaning. -/
theorem like_search_iff (h : Plain q) : like text (search q) = true ↔ q <:+: text := by
  have htokens : tokens (search q) = .many :: (q.map Token.lit ++ [.many]) :=
    congrArg (Token.many :: ·) (tokens_append_of_plain h)
  rw [like, htokens, matchesAll_many_iff]
  constructor
  · rintro ⟨_, ⟨passed, rfl⟩, hmatch⟩
    obtain ⟨front, rest, rfl, hfront, -⟩ := matchesAll_append_iff.mp hmatch
    obtain rfl := matchesAll_map_lit_iff.mp hfront
    exact ⟨passed, rest, List.append_assoc ..⟩
  · rintro ⟨passed, rest, rfl⟩
    refine ⟨q ++ rest, ⟨passed, (List.append_assoc ..).symm⟩, ?_⟩
    exact matchesAll_append_iff.mpr
      ⟨q, rest, rfl, matchesAll_map_lit_iff.mpr rfl, matchesAll_many rest⟩

/-- A text that is found by the search: nothing stands for `%`, a character for `_`, and a
backslash is left out. -/
def sample : List Char → List Char
  | [] => []
  | '%' :: cs => sample cs
  | '_' :: cs => '%' :: sample cs
  | ['\\'] => ['%']
  | '\\' :: c :: cs => c :: sample cs
  | c :: cs => c :: sample cs

theorem sample_cons_of_not_isSpecial (h : ¬IsSpecial c) :
    sample (c :: cs) = c :: sample cs := by
  rw [sample]
  · exact fun hc => h (.inl hc)
  · exact fun hc => h (.inr (.inl hc))
  · exact fun hc _ => h (.inr (.inr hc))
  · exact fun _ _ hc _ => h (.inr (.inr hc))

/-- What is left over when a character is none of the three, or stands alone. -/
theorem not_isSpecial_of_ne (hmany : c = '%' → False) (hone : c = '_' → False)
    (hlast : c = '\\' → cs = [] → False)
    (hescape : ∀ d rest, c = '\\' → cs = d :: rest → False) : ¬IsSpecial c := by
  rintro (h | h | h)
  · exact hmany h
  · exact hone h
  · cases cs with
    | nil => exact hlast h rfl
    | cons d rest => exact hescape d rest h rfl

theorem matchesAll_sample (q : List Char) :
    matchesAll (tokens (q ++ ['%'])) (sample q) = true := by
  fun_induction sample q with
  | case1 => exact matchesAll_many []
  | case2 cs ih => exact matchesAll_many_iff.mpr ⟨sample cs, List.suffix_rfl, ih⟩
  | case3 cs ih => exact ih
  | case4 => rfl
  | case5 c cs ih => exact Bool.and_eq_true_iff.mpr ⟨decide_eq_true rfl, ih⟩
  | case6 c cs hmany hone hlast hescape ih =>
    have hplain := not_isSpecial_of_ne hmany hone hlast hescape
    rw [List.cons_append, tokens_cons_of_not_isSpecial hplain]
    exact Bool.and_eq_true_iff.mpr ⟨decide_eq_true rfl, ih⟩

/-- The search finds the sample. -/
theorem like_sample (q : List Char) : like (sample q) (search q) = true :=
  matchesAll_many_iff.mpr ⟨sample q, List.suffix_rfl, matchesAll_sample q⟩

/-- The sample is not longer than the text. -/
theorem length_sample_le (q : List Char) : (sample q).length ≤ q.length := by
  fun_induction sample q <;> grind

/-- A sample that is the text itself has no characters with a meaning. -/
theorem plain_of_sample_eq (h : sample q = q) : Plain q := by
  fun_induction sample q with
  | case1 => exact fun _ h => nomatch h
  | case2 cs ih =>
    have hlength := congrArg List.length h
    have hle := length_sample_le cs
    rw [List.length_cons] at hlength
    omega
  | case3 cs ih => cases h
  | case4 => cases h
  | case5 c cs ih =>
    have hlength := congrArg List.length h
    have hle := length_sample_le cs
    rw [List.length_cons, List.length_cons, List.length_cons] at hlength
    omega
  | case6 c cs hmany hone hlast hescape ih =>
    exact plain_cons.mpr ⟨not_isSpecial_of_ne hmany hone hlast hescape, ih (List.cons.inj h).2⟩

/-- The sample does not contain a text with such characters. -/
theorem plain_of_infix_sample (h : q <:+: sample q) : Plain q :=
  plain_of_sample_eq (h.eq_of_length_le (length_sample_le q)).symm

/-- The characters of a sample are those of the text, and `%`. -/
theorem mem_sample (h : c ∈ sample q) : c ∈ q ∨ c = '%' := by
  fun_induction sample q <;> grind

/-! ## Case -/

/-- Taking the case away neither changes a character with a meaning nor makes one. -/
def KeepsSpecial (fold : Char → Char) : Prop := ∀ c, IsSpecial c ∨ IsSpecial (fold c) → fold c = c

variable {fold : Char → Char}

theorem isSpecial_fold_iff (h : KeepsSpecial fold) : IsSpecial (fold c) ↔ IsSpecial c := by
  constructor
  · intro hc
    rw [h c (.inr hc)] at hc
    exact hc
  · intro hc
    rw [h c (.inl hc)]
    exact hc

theorem plain_map_iff (h : KeepsSpecial fold) : Plain (q.map fold) ↔ Plain q := by
  simp only [Plain, List.forall_mem_map, isSpecial_fold_iff h]

theorem search_map (h : KeepsSpecial fold) : (search q).map fold = search (q.map fold) := by
  have hmany : fold '%' = '%' := h '%' (.inl (.inl rfl))
  rw [search, search, List.map_cons, List.map_append, List.map_singleton, hmany]

theorem sample_map (h : KeepsSpecial fold) : (sample q).map fold = sample (q.map fold) := by
  have hmany : fold '%' = '%' := h '%' (.inl (.inl rfl))
  have hone : fold '_' = '_' := h '_' (.inl (.inr (.inl rfl)))
  have hescape : fold '\\' = '\\' := h '\\' (.inl (.inr (.inr rfl)))
  fun_induction sample q with
  | case1 => rfl
  | case2 cs ih => rw [ih, List.map_cons, hmany, sample]
  | case3 cs ih => rw [List.map_cons, List.map_cons, ih, hmany, hone, sample]
  | case4 => rw [List.map_singleton, List.map_singleton, hmany, hescape, sample]
  | case5 c cs ih => rw [List.map_cons, List.map_cons, List.map_cons, ih, hescape, sample]
  | case6 c cs hmany' hone' hlast hescape' ih =>
    have hplain := not_isSpecial_of_ne hmany' hone' hlast hescape'
    rw [List.map_cons, List.map_cons, ih,
      sample_cons_of_not_isSpecial (mt (isSpecial_fold_iff h).mp hplain)]

/-- **Search ignoring case**: it is for the text as it stands, for every text that is searched,
exactly if none of its characters has a meaning. The texts that are searched may be of any kind
that the sample is of. -/
theorem ilike_search_iff (h : KeepsSpecial fold) {kind : List Char → Prop}
    (hkind : kind (sample q)) :
    (∀ text, kind text → (ilike fold text (search q) = true ↔ q.map fold <:+: text.map fold)) ↔
      Plain q := by
  constructor
  · intro hexact
    rw [← plain_map_iff h]
    refine plain_of_infix_sample ?_
    rw [← sample_map h]
    refine (hexact (sample q) hkind).mp ?_
    rw [ilike, search_map h, sample_map h]
    exact like_sample _
  · intro hplain text _
    rw [ilike, search_map h]
    exact like_search_iff ((plain_map_iff h).mpr hplain)

end LikePattern

end Feedpulse
