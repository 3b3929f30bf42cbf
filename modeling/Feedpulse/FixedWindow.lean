import Mathlib.Data.List.Basic
import Mathlib.Data.Option.Basic

/-!
# Fixed windows

Hits are counted in windows of a fixed length. A window starts at the first hit after the last one
has ended. `counts_eq` says what the counter shows, hit by hit.
-/

namespace Feedpulse

namespace FixedWindow

/-- The windows of the hits at these times: the hits before the end of the first one, and the
windows of the others. -/
def windows (length : Nat) : List Nat → List (List Nat)
  | [] => []
  | time :: times =>
    (time :: times.takeWhile (· < time + length)) ::
      windows length (times.dropWhile (· < time + length))
termination_by times => times.length
decreasing_by
  exact Nat.lt_succ_of_le (List.dropWhile_sublist _).length_le

/-- A counter: the hits of the window, and when it ends. -/
structure Counter where
  /-- hits so far -/
  hits : Nat
  /-- end of the window -/
  expiresAt : Nat
  deriving DecidableEq, Repr

/-- The counter as far as it still counts. -/
def live (now : Nat) (counter : Option Counter) : Option Counter :=
  counter.filter fun c => now < c.expiresAt

/-- One more hit. -/
def hit (length : Nat) (counter : Option Counter) (now : Nat) : Counter :=
  match live now counter with
  | some c => { c with hits := c.hits + 1 }
  | none => { hits := 1, expiresAt := now + length }

@[simp] theorem live_none (now : Nat) : live now none = none := rfl

@[simp] theorem live_some (now : Nat) (c : Counter) :
    live now (some c) = if now < c.expiresAt then some c else none := by
  simp [live, Option.filter]

/-- What has ended does not begin to count again. -/
theorem live_live {now now' : Nat} (h : now ≤ now') (counter : Option Counter) :
    live now' (live now counter) = live now' counter := by
  cases counter with
  | none => rfl
  | some c =>
    by_cases hnow : now < c.expiresAt
    · simp [hnow]
    · have hlater : ¬now' < c.expiresAt := by omega
      simp [hnow, hlater]

/-- Only what still counts matters to a hit. -/
theorem hit_congr {length now : Nat} {counter counter' : Option Counter}
    (h : live now counter = live now counter') :
    hit length counter now = hit length counter' now := by
  rw [hit, h, hit]

theorem hit_pos (length : Nat) (counter : Option Counter) (now : Nat) :
    0 < (hit length counter now).hits := by
  unfold hit
  split
  · exact Nat.succ_pos _
  · exact Nat.one_pos

/-- A hit either counts in a window that goes on, or starts one. -/
theorem hit_expiresAt (length : Nat) (counter : Option Counter) (now : Nat) :
    now < (hit length counter now).expiresAt ∨
      (hit length counter now).expiresAt = now + length := by
  unfold hit
  split
  · rename_i c hlive
    have hnow := (Option.filter_eq_some_iff.mp hlive).2
    exact .inl (by simpa using hnow)
  · exact .inr rfl

/-! ## One counter -/

/-- What a counter shows with each hit. -/
def counts (length : Nat) : Option Counter → List Nat → List Nat
  | _, [] => []
  | counter, time :: times =>
    (hit length counter time).hits :: counts length (some (hit length counter time)) times

/-- A counter that has ended counts like none. -/
theorem counts_ended {length : Nat} {c : Counter} {times : List Nat}
    (h : ∀ t ∈ times.head?, c.expiresAt ≤ t) :
    counts length (some c) times = counts length none times := by
  cases times with
  | nil => rfl
  | cons time times =>
    have hend : ¬time < c.expiresAt := Nat.not_lt.mpr (h time rfl)
    simp [counts, hit, hend]

/-- A window in progress: the hits before its end go on with the count. -/
theorem counts_live (length : Nat) (c : Counter) (times : List Nat) :
    counts length (some c) times
      = List.range' (c.hits + 1) (times.takeWhile (· < c.expiresAt)).length ++
        counts length none (times.dropWhile (· < c.expiresAt)) := by
  induction times generalizing c with
  | nil => rfl
  | cons time times ih =>
    by_cases hlive : time < c.expiresAt
    · have hnext : hit length (some c) time = { c with hits := c.hits + 1 } := by
        simp [hit, hlive]
      simp [counts, hnext, ih, hlive, List.range'_succ]
    · rw [List.takeWhile_cons_of_neg (by simpa using hlive),
        List.dropWhile_cons_of_neg (by simpa using hlive), counts_ended]
      · rfl
      · rintro t ht
        obtain rfl := Option.some.inj ht
        exact Nat.le_of_not_lt hlive

/-- **A counter counts each window from one.** -/
theorem counts_eq (length : Nat) (times : List Nat) :
    counts length none times
      = (windows length times).flatMap fun window => List.range' 1 window.length := by
  induction times using windows.induct length with
  | case1 => simp [counts, windows]
  | case2 time times ih =>
    have hfirst : hit length none time = { hits := 1, expiresAt := time + length } := rfl
    rw [windows, List.flatMap_cons, ← ih, counts, hfirst, counts_live]
    simp [List.range'_succ]

/-- The counter after each hit. -/
def shown (length : Nat) : Option Counter → List Nat → List Counter
  | _, [] => []
  | counter, time :: times =>
    hit length counter time :: shown length (some (hit length counter time)) times

/-- What is shown, without the ends of the windows. -/
theorem map_hits_shown (length : Nat) (counter : Option Counter) (times : List Nat) :
    (shown length counter times).map Counter.hits = counts length counter times := by
  induction times generalizing counter with
  | nil => rfl
  | cons time times ih => rw [shown, List.map_cons, ih, counts]

end FixedWindow

end Feedpulse
