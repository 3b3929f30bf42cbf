import Feedpulse.ListQueries

/-!
# Pagination

Feeds and rules are listed by `created_at` alone, which rows of one transaction share, so a row
can stand on two pages and another one on none. `pages_enumerate_iff` says when the pages contain
every row exactly once, and `feed_listed_twice` are two feeds of one import.
-/

namespace Feedpulse

open Paging (IsOrder Settled Enumerates pageOf lastPage lastPage_le_iff enumerates_iff_settled)

section Pages

variable {ρ : Type}

/-- The pages of a list contain every row that was to be found exactly once, whatever orders the
database chooses, and exactly the last page and those beyond say that there is none after
them. -/
def PagesEnumerate (size : Nat) (found : Option (List ρ))
    (list : Nat → List ρ → Option (List ρ × Nat)) : Prop :=
  ∃ rows, found = some rows ∧ ∀ answers : Nat → List ρ × Nat,
    (∀ page, 1 ≤ page → ∃ order, list page order = some (answers page)) →
      ((List.range' 1 (lastPage rows.length size)).flatMap fun page => (answers page).1).Perm rows ∧
        ∀ page, 1 ≤ page →
          (hasNext page size (answers page).2 = false ↔ lastPage rows.length size ≤ page)

variable [DecidableEq ρ] {parameters : List String} {clause : Created ρ → Bool}
  {page size : Nat} {rows order : List (Created ρ)} {answer : List (Created ρ) × Nat}

/-- A page that is answered is one of some order of the rows. -/
theorem selectPage_eq_some_iff (hall : parameters.all isParameter = true) :
    selectPage parameters clause page size rows order = some answer ↔
      IsOrder Created.createdAt (rows.filter clause) order ∧
        answer = (pageOf page size order, (rows.filter clause).length) := by
  rw [selectPage, selectWhere, if_pos hall, Option.bind_some, Option.ite_none_right_eq_some,
    Option.some.injEq, eq_comm]

theorem hasNext_eq_false_iff {total : Nat} (hsize : 0 < size) :
    hasNext page size total = false ↔ lastPage total size ≤ page := by
  rw [lastPage_le_iff hsize, hasNext, decide_eq_false_iff_not, not_lt]

/-- The pages of a list that is ordered by `created_at` enumerate its rows exactly if the database
takes the parameters and no page ends between two rows of one instant. -/
theorem selectPage_enumerates_iff (hnodup : rows.Nodup) (hsize : 0 < size) :
    PagesEnumerate size (selectWhere parameters clause rows)
        (fun page order => selectPage parameters clause page size rows order) ↔
      parameters.all isParameter = true ∧
        Settled Created.createdAt (rows.filter clause) size := by
  by_cases hall : parameters.all isParameter = true
  · have hfound : selectWhere parameters clause rows = some (rows.filter clause) := if_pos hall
    rw [and_iff_right hall, ← enumerates_iff_settled (hnodup.filter clause) hsize]
    constructor
    · rintro ⟨found, hrows, henumerates⟩ orders horders
      obtain rfl := Option.some.inj (hrows.symm.trans hfound)
      exact (henumerates (fun page => (pageOf page size (orders page), (rows.filter clause).length))
        fun page _ => ⟨orders page, (selectPage_eq_some_iff hall).mpr ⟨horders page, rfl⟩⟩).1
    · intro henumerates
      refine ⟨rows.filter clause, hfound, fun answers hanswers => ?_⟩
      have horders : ∀ page, ∃ order, IsOrder Created.createdAt (rows.filter clause) order ∧
          (1 ≤ page → answers page = (pageOf page size order, (rows.filter clause).length)) := by
        intro page
        by_cases hpage : 1 ≤ page
        · obtain ⟨order, hselect⟩ := hanswers page hpage
          obtain ⟨horder, hanswer⟩ := (selectPage_eq_some_iff hall).mp hselect
          exact ⟨order, horder, fun _ => hanswer⟩
        · obtain ⟨order, horder⟩ := Paging.exists_isOrder Created.createdAt (rows.filter clause)
          exact ⟨order, horder, fun h => absurd h hpage⟩
      choose orders horder hanswer using horders
      constructor
      · have hpages : ((List.range' 1 (lastPage (rows.filter clause).length size)).flatMap
              fun page => (answers page).1)
            = (List.range' 1 (lastPage (rows.filter clause).length size)).flatMap
              fun page => pageOf page size (orders page) :=
          List.flatMap_congr fun page hpage => by
            rw [hanswer page (List.mem_range'_1.mp hpage).1]
        rw [hpages]
        exact henumerates orders horder
      · intro page hpage
        rw [hanswer page hpage]
        exact hasNext_eq_false_iff hsize
  · refine iff_of_false ?_ fun h => hall h.1
    rintro ⟨found, hrows, -⟩
    rw [selectWhere, if_neg hall] at hrows
    cases hrows

end Pages

/-- **The pages of feeds and of rules enumerate them**, under any filters, exactly if the database
takes the query and no page but the last ends between two rows of one instant. -/
theorem pages_enumerate_iff {lower : Char → Char} {size : Nat} (hsize : 0 < size)
    {feeds : List (Created FeedRow)} (hfeeds : (feeds.map fun feed => feed.row.id).Nodup)
    {rules : List (Created RuleRow)} (hrules : (rules.map fun rule => rule.row.id).Nodup)
    (feedFilters : FeedsRepository.ListFilters) (ruleFilters : RulesRepository.ListFilters) :
    (PagesEnumerate size (FeedsRepository.found lower feedFilters feeds)
          (fun page order => FeedsRepository.list lower feedFilters page size feeds order) ↔
        feedFilters.query.toList.all isParameter = true ∧
          Settled Created.createdAt (feeds.filter (feedFilters.clause lower)) size) ∧
      (PagesEnumerate size (RulesRepository.found lower ruleFilters rules)
          (fun page order => RulesRepository.list lower ruleFilters page size rules order) ↔
        ruleFilters.query.toList.all isParameter = true ∧
          Settled Created.createdAt (rules.filter (ruleFilters.clause lower)) size) :=
  ⟨selectPage_enumerates_iff (List.Nodup.of_map _ hfeeds) hsize,
    selectPage_enumerates_iff (List.Nodup.of_map _ hrules) hsize⟩

/-- A feed that was created at an instant. -/
def feedAt (id createdAt : Nat) : Created FeedRow where
  row := { (feedWithUrl "https://h/").row with id := id }
  createdAt := createdAt

/-- All feeds of a tenant. -/
def allFeeds : FeedsRepository.ListFilters where
  tenantId := "t"
  status := none
  query := none

/-- All rules of a tenant. -/
def allRules : RulesRepository.ListFilters where
  tenantId := "t"
  isActive := none
  query := none

/-- Feeds of three instants, two on a page. -/
theorem pages_enumerate_iff_threeInstants :
    PagesEnumerate 2
      (FeedsRepository.found id allFeeds [feedAt 1 10, feedAt 2 20, feedAt 3 30])
      fun page order =>
        FeedsRepository.list id allFeeds page 2 [feedAt 1 10, feedAt 2 20, feedAt 3 30] order := by
  have hrules : (([] : List (Created RuleRow)).map fun rule => rule.row.id).Nodup := List.nodup_nil
  refine ((pages_enumerate_iff (by decide) (by decide) hrules allFeeds allRules).1).mpr
    ⟨rfl, fun page hpage hlength => ?_⟩
  have hrows : [feedAt 1 10, feedAt 2 20, feedAt 3 30].filter (allFeeds.clause id)
      = [feedAt 1 10, feedAt 2 20, feedAt 3 30] := by decide
  rw [hrows] at hlength ⊢
  obtain rfl : page = 1 := by
    change page * 2 < 3 at hlength
    omega
  decide

/-- Two feeds of one import, one on a page: the database may answer the same one twice. -/
theorem feed_listed_twice :
    FeedsRepository.list id allFeeds 1 1 [feedAt 1 10, feedAt 2 10] [feedAt 1 10, feedAt 2 10]
        = some ([feedAt 1 10], 2) ∧
      FeedsRepository.list id allFeeds 2 1 [feedAt 1 10, feedAt 2 10] [feedAt 2 10, feedAt 1 10]
        = some ([feedAt 1 10], 2) ∧
      ¬PagesEnumerate 1 (FeedsRepository.found id allFeeds [feedAt 1 10, feedAt 2 10])
        fun page order =>
          FeedsRepository.list id allFeeds page 1 [feedAt 1 10, feedAt 2 10] order := by
  refine ⟨by decide, by decide, ?_⟩
  rintro ⟨found, hfound, henumerates⟩
  obtain rfl : [feedAt 1 10, feedAt 2 10] = found := Option.some.inj (hfound ▸ by decide)
  -- the second page is cut out of the other order
  have hpages := henumerates (fun page => (pageOf page 1 (if page = 2 then
    [feedAt 2 10, feedAt 1 10] else [feedAt 1 10, feedAt 2 10]), 2)) fun page _ => by
      refine ⟨_, (selectPage_eq_some_iff rfl).mpr ⟨?_, rfl⟩⟩
      split
      · decide
      · decide
  have hmem : feedAt 2 10 ∈ _ :=
    hpages.1.symm.subset (List.mem_cons_of_mem _ (List.mem_singleton_self _))
  revert hmem
  decide

end Feedpulse
