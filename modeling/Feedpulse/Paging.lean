import Mathlib.Data.List.Sort
import Mathlib.Data.List.Range
import Mathlib.Data.List.Infix

/-!
# Pages of an ordered list

`ORDER BY … DESC LIMIT … OFFSET …` cuts a page out of an order of the rows, and a database may
choose another order for every query as long as it only swaps rows that tie. The pages contain
every row exactly once, whatever the database chooses, exactly if no page ends between rows that
tie (`enumerates_iff_settled`).
-/

namespace Feedpulse

namespace Paging

universe u

variable {ρ : Type u} (key : ρ → Nat)

/-! ## Orders and pages -/

/-- The rows in an order by descending key; rows that tie stand in any order. -/
def IsOrder (rows order : List ρ) : Prop :=
  order.Perm rows ∧ order.Pairwise fun a b => key b ≤ key a

instance [DecidableEq ρ] (rows order : List ρ) : Decidable (IsOrder key rows order) :=
  inferInstanceAs (Decidable (_ ∧ _))

/-- `LIMIT size OFFSET (page - 1) * size`. -/
def pageOf (page size : Nat) (order : List ρ) : List ρ :=
  (order.drop ((page - 1) * size)).take size

/-- The number of pages of `n` rows. -/
def lastPage (n size : Nat) : Nat := (n + size - 1) / size

/-- The pages contain every row exactly once, whatever orders the database chooses. -/
def Enumerates (rows : List ρ) (size : Nat) : Prop :=
  ∀ orders : Nat → List ρ, (∀ page, IsOrder key rows (orders page)) →
    ((List.range' 1 (lastPage rows.length size)).flatMap fun page =>
      pageOf page size (orders page)).Perm rows

/-- How many rows come before those that tie with the row. -/
def before (rows : List ρ) (row : ρ) : Nat := rows.countP fun r => key row < key r

/-- How many rows come before those that tie with the row, or tie with it. -/
def upTo (rows : List ρ) (row : ρ) : Nat := rows.countP fun r => key row ≤ key r

/-- No page but the last ends between two rows that tie. -/
def Settled (rows : List ρ) (size : Nat) : Prop :=
  ∀ page, 0 < page → page * size < rows.length → ∀ row ∈ rows,
    ¬(before key rows row < page * size ∧ page * size < upTo key rows row)

/-! ## The number of pages -/

/-- The last page is the first one up to which all rows fit. -/
theorem lastPage_le_iff {n size page : Nat} (hsize : 0 < size) :
    lastPage n size ≤ page ↔ n ≤ page * size := by
  rw [lastPage, Nat.div_le_iff_le_mul_add_pred hsize, Nat.mul_comm]
  omega

variable {key} {rows order order' : List ρ} {size n : Nat} {row : ρ}

/-! ## Orders -/

theorem exists_isOrder (key : ρ → Nat) (rows : List ρ) : ∃ order, IsOrder key rows order := by
  refine ⟨rows.insertionSort fun a b => key b ≤ key a, List.perm_insertionSort .., ?_⟩
  exact List.pairwise_insertionSort ..

theorem before_eq (h : IsOrder key rows order) : before key rows row = before key order row :=
  (h.1.countP_eq _).symm

theorem upTo_eq (h : IsOrder key rows order) : upTo key rows row = upTo key order row :=
  (h.1.countP_eq _).symm

/-- Of the rows in an order, those before a place are at least as many as those that come before
the row at this place. -/
theorem before_le {front back : List ρ}
    (h : IsOrder key rows (front ++ row :: back)) : before key rows row ≤ front.length := by
  have hback : (row :: back).countP (fun r => key row < key r) = 0 := by
    rw [List.countP_eq_zero]
    intro r hr
    have hle : key r ≤ key row := by
      rcases List.mem_cons.mp hr with rfl | hr
      · exact le_refl _
      · exact (List.pairwise_cons.mp (List.pairwise_append.mp h.2).2.1).1 r hr
    simpa using hle
  rw [before_eq h, before, List.countP_append, hback]
  exact List.countP_le_length

/-- Those up to a place, it included, are no more than those up to the row at this place. -/
theorem lt_upTo {front back : List ρ}
    (h : IsOrder key rows (front ++ row :: back)) : front.length < upTo key rows row := by
  have hfront : front.countP (fun r => key row ≤ key r) = front.length := by
    rw [List.countP_eq_length]
    intro r hr
    exact decide_eq_true ((List.pairwise_append.mp h.2).2.2 r hr row List.mem_cons_self)
  rw [upTo_eq h, upTo, List.countP_append, hfront, List.countP_cons_of_pos (by simp)]
  omega

/-- The rows before a place at which no rows that tie are separated are the same in every
order. -/
theorem take_eq_filter (h : IsOrder key rows order)
    (hn : ∀ row ∈ rows, ¬(before key rows row < n ∧ n < upTo key rows row)) :
    order.take n = order.filter fun row => upTo key rows row ≤ n := by
  have htake : ∀ row ∈ order.take n, upTo key rows row ≤ n := by
    intro row hrow
    obtain ⟨front, back, hsplit⟩ := List.append_of_mem hrow
    have horder : order = front ++ row :: (back ++ order.drop n) := by
      rw [← List.cons_append, ← List.append_assoc, ← hsplit, List.take_append_drop]
    have hlength : front.length < n := by
      have hle := List.length_take_le n order
      rw [hsplit, List.length_append, List.length_cons] at hle
      omega
    have hbefore := before_le (horder ▸ h)
    have hmem : row ∈ rows := h.1.subset (List.mem_of_mem_take hrow)
    by_contra hnot
    exact hn row hmem ⟨by omega, by omega⟩
  have hdrop : ∀ row ∈ order.drop n, ¬upTo key rows row ≤ n := by
    intro row hrow
    obtain ⟨front, back, hsplit⟩ := List.append_of_mem hrow
    have horder : order = (order.take n ++ front) ++ row :: back := by
      rw [List.append_assoc, ← hsplit, List.take_append_drop]
    have hlength : n < order.length := by
      by_contra hle
      rw [List.drop_of_length_le (by omega)] at hrow
      cases hrow
    have hlt := lt_upTo (horder ▸ h)
    rw [List.length_append, List.length_take] at hlt
    omega
  calc order.take n
      = (order.take n).filter (fun row => upTo key rows row ≤ n)
          ++ (order.drop n).filter fun row => upTo key rows row ≤ n := by
        rw [List.filter_eq_self.mpr fun row hrow => decide_eq_true (htake row hrow),
          List.filter_eq_nil_iff.mpr fun row hrow => by simpa using hdrop row hrow,
          List.append_nil]
    _ = order.filter fun row => upTo key rows row ≤ n := by
        rw [← List.filter_append, List.take_append_drop]

theorem take_perm (h : IsOrder key rows order) (h' : IsOrder key rows order')
    (hn : ∀ row ∈ rows, ¬(before key rows row < n ∧ n < upTo key rows row)) :
    (order.take n).Perm (order'.take n) := by
  rw [take_eq_filter h hn, take_eq_filter h' hn]
  exact (h.1.trans h'.1.symm).filter _

/-! ## Enumeration -/

/-- The rows up to the end of a page are those up to the end of the page before, and the page. -/
theorem take_succ_page (page size : Nat) (order : List ρ) :
    order.take ((page + 1) * size) = order.take (page * size) ++ pageOf (page + 1) size order := by
  rw [pageOf, Nat.add_sub_cancel, Nat.succ_mul, List.take_add]

/-- The rows up to the end of a page are the same in every order. -/
theorem take_page_perm (hsettled : Settled key rows size) (h : IsOrder key rows order)
    (h' : IsOrder key rows order') (page : Nat) :
    (order.take (page * size)).Perm (order'.take (page * size)) := by
  rcases Nat.eq_zero_or_pos page with rfl | hpage
  · rw [Nat.zero_mul]
    exact List.Perm.refl _
  · by_cases hlength : page * size < rows.length
    · exact take_perm h h' (hsettled page hpage hlength)
    · rw [List.take_of_length_le (by rw [h.1.length_eq]; omega),
        List.take_of_length_le (by rw [h'.1.length_eq]; omega)]
      exact h.1.trans h'.1.symm

/-- The first pages contain the rows up to the end of the last of them. -/
theorem pages_perm_take {orders : Nat → List ρ} (hsettled : Settled key rows size)
    (horders : ∀ page, IsOrder key rows (orders page)) (horder : IsOrder key rows order)
    (pages : Nat) :
    ((List.range' 1 pages).flatMap fun page => pageOf page size (orders page)).Perm
      (order.take (pages * size)) := by
  induction pages with
  | zero => simp
  | succ pages ih =>
    have hnext := horders (1 + pages)
    rw [List.range'_1_concat, List.flatMap_append, List.flatMap_singleton]
    have hbefore : ((List.range' 1 pages).flatMap fun page => pageOf page size (orders page)).Perm
        ((orders (1 + pages)).take (pages * size)) :=
      ih.trans (take_page_perm hsettled horder hnext pages)
    refine (hbefore.append_right _).trans ?_
    rw [Nat.add_comm 1 pages] at hnext ⊢
    rw [← take_succ_page]
    exact take_page_perm hsettled hnext horder (pages + 1)

theorem mem_pageOf {front back : List ρ} {page : Nat} (hfrom : (page - 1) * size ≤ front.length)
    (hto : front.length < (page - 1) * size + size) :
    row ∈ pageOf page size (front ++ row :: back) := by
  rw [pageOf, List.drop_append_of_le_length hfrom, List.take_append]
  refine List.mem_append_right _ ?_
  obtain ⟨rest, hrest⟩ : ∃ rest, size - (front.drop ((page - 1) * size)).length = rest + 1 :=
    ⟨_, (Nat.succ_pred_eq_of_pos (by rw [List.length_drop]; omega)).symm⟩
  rw [hrest, List.take_succ_cons]
  exact List.mem_cons_self

/-- Where a page ends between rows that tie, the two rows on its sides tie. -/
theorem tie_at_boundary {front back : List ρ} {a b : ρ}
    (h : IsOrder key rows (front ++ a :: b :: back))
    (hbefore : before key rows row < front.length + 1)
    (hupTo : front.length + 1 < upTo key rows row) : key a = key b := by
  obtain ⟨-, htail, hacross⟩ := List.pairwise_append.mp h.2
  obtain ⟨ha, hb⟩ := List.pairwise_cons.mp htail
  have hle : key a ≤ key row := by
    by_contra hlt
    have hfront : (front ++ [a]).countP (fun r => key row < key r) = front.length + 1 := by
      rw [← List.length_singleton (a := a), ← List.length_append, List.countP_eq_length]
      intro r hr
      refine decide_eq_true (lt_of_lt_of_le (not_le.mp hlt) ?_)
      rcases List.mem_append.mp hr with hr | hr
      · exact hacross r hr a List.mem_cons_self
      · exact List.mem_singleton.mp hr ▸ le_refl _
    rw [before_eq h, before, List.append_cons, List.countP_append, hfront] at hbefore
    omega
  have hge : key row ≤ key b := by
    by_contra hlt
    have hback : (b :: back).countP (fun r => key row ≤ key r) = 0 := by
      rw [List.countP_eq_zero]
      intro r hr
      have hrb : key r ≤ key b := by
        rcases List.mem_cons.mp hr with rfl | hr
        · exact le_refl _
        · exact (List.pairwise_cons.mp hb).1 r hr
      simpa using lt_of_le_of_lt hrb (not_le.mp hlt)
    have hfront : (front ++ [a]).countP (fun r => key row ≤ key r) ≤ (front ++ [a]).length :=
      List.countP_le_length
    rw [upTo_eq h, upTo, List.append_cons, List.countP_append, hback] at hupTo
    rw [List.length_append, List.length_singleton] at hfront
    omega
  exact le_antisymm (hle.trans hge) (ha b List.mem_cons_self)

/-- Two neighbours that tie can stand the other way round. -/
theorem isOrder_swap {front back : List ρ} {a b : ρ}
    (h : IsOrder key rows (front ++ a :: b :: back)) (htie : key a = key b) :
    IsOrder key rows (front ++ b :: a :: back) := by
  refine ⟨((List.Perm.swap a b back).append_left front).trans h.1, ?_⟩
  have hkeys : (front ++ b :: a :: back).map key = (front ++ a :: b :: back).map key := by
    simp [htie]
  have hpairwise : ((front ++ a :: b :: back).map key).Pairwise fun m n => n ≤ m :=
    List.pairwise_map.mpr h.2
  rw [← hkeys] at hpairwise
  exact List.pairwise_map.mp hpairwise

/-- **The pages enumerate the rows**, whatever orders the database chooses, exactly if no page
ends between rows that tie. -/
theorem enumerates_iff_settled (hnodup : rows.Nodup) (hsize : 0 < size) :
    Enumerates key rows size ↔ Settled key rows size := by
  constructor
  · intro henumerates page hpage hlength row _ ⟨hbefore, hupTo⟩
    obtain ⟨order, horder⟩ := exists_isOrder key rows
    have hend : 0 < page * size := Nat.mul_pos hpage hsize
    have hstart : page * size = (page - 1) * size + size := by
      rw [← Nat.succ_mul, Nat.succ_eq_add_one, Nat.sub_add_cancel hpage]
    -- the page ends between `a` and `b`, which can be swapped for the query of the next page
    obtain ⟨front, a, b, back, rfl, hfront⟩ : ∃ front a b back, order = front ++ a :: b :: back ∧
        front.length + 1 = page * size := by
      rw [← horder.1.length_eq] at hlength
      obtain ⟨last, hend'⟩ : ∃ last, page * size = last + 1 := ⟨_, (Nat.sub_add_cancel hend).symm⟩
      rw [hend'] at hlength ⊢
      refine ⟨order.take last, order[last], order[last + 1], order.drop (last + 2), ?_, ?_⟩
      · rw [← List.drop_eq_getElem_cons hlength, ← List.drop_eq_getElem_cons,
          List.take_append_drop]
      · rw [List.length_take]
        omega
    have htie := tie_at_boundary horder (hfront ▸ hbefore) (hfront ▸ hupTo)
    have hswapped := isOrder_swap horder htie
    obtain ⟨orders, horders, hpageOrder, hnextOrder⟩ : ∃ orders : Nat → List ρ,
        (∀ k, IsOrder key rows (orders k)) ∧ orders page = front ++ a :: b :: back ∧
          orders (page + 1) = front ++ b :: a :: back := by
      refine ⟨fun k => if k = page + 1 then front ++ b :: a :: back else front ++ a :: b :: back,
        fun k => ?_, if_neg (Nat.ne_of_lt page.lt_succ_self), if_pos rfl⟩
      change IsOrder key rows (if k = page + 1 then _ else _)
      split
      · exact hswapped
      · exact horder
    have hlast : page + 1 ≤ lastPage rows.length size := by
      by_contra hnot
      have hle := (lastPage_le_iff hsize).mp (Nat.le_of_lt_succ (not_le.mp hnot))
      omega
    have hdisjoint := (List.nodup_flatMap.mp ((henumerates orders horders).nodup_iff.mpr hnodup)).2
    have : Std.Symm (Function.onFun List.Disjoint fun page => pageOf page size (orders page)) :=
      ⟨fun _ _ h _ hx hy => h hy hx⟩
    have happart : List.Disjoint (pageOf page size (orders page))
        (pageOf (page + 1) size (orders (page + 1))) :=
      hdisjoint.forall (List.mem_range'_1.mpr ⟨hpage, by omega⟩)
        (List.mem_range'_1.mpr ⟨Nat.le_add_left 1 page, by omega⟩) (Nat.ne_of_lt page.lt_succ_self)
    rw [hpageOrder, hnextOrder, List.append_cons front b] at happart
    refine happart (mem_pageOf (by omega) (by omega)) (mem_pageOf ?_ ?_)
    · rw [List.length_append, List.length_singleton, Nat.add_sub_cancel]
      omega
    · rw [List.length_append, List.length_singleton, Nat.add_sub_cancel]
      omega
  · intro hsettled orders horders
    have hfirst := horders 0
    refine (pages_perm_take hsettled horders hfirst _).trans ?_
    have hall := (lastPage_le_iff (n := rows.length) hsize).mp (le_refl _)
    rw [List.take_of_length_le (by rw [hfirst.1.length_eq]; exact hall)]
    exact hfirst.1

end Paging

end Feedpulse
