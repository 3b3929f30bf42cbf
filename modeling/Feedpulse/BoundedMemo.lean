import Mathlib.Data.List.Basic

/-!
# Memos that are emptied when they are full

A memo keeps values under keys, up to a limit; when it is full it is emptied before the next value
is kept. What it answers is right if what it keeps is right, and that is an invariant of its one
operation, whatever the keys and values are.
-/

namespace Feedpulse

/-- Values that are kept under keys, in the order in which they were kept. -/
structure BoundedMemo (κ ν : Type) where
  /-- key and value -/
  entries : List (κ × ν)

namespace BoundedMemo

variable {κ ν : Type}

/-- Nothing is kept. -/
def empty : BoundedMemo κ ν := ⟨[]⟩

/-- The value under a key. -/
def get [DecidableEq κ] (memo : BoundedMemo κ ν) (key : κ) : Option ν :=
  (memo.entries.find? fun entry => entry.1 = key).map Prod.snd

/-- Keep a value under a key that has none; a full memo is emptied first. -/
def put (limit : Nat) (memo : BoundedMemo κ ν) (key : κ) (value : ν) : BoundedMemo κ ν :=
  ⟨(if limit ≤ memo.entries.length then [] else memo.entries) ++ [(key, value)]⟩

/-- The value under a key, which is worked out and kept if there is none. -/
def fetch [DecidableEq κ] (limit : Nat) (memo : BoundedMemo κ ν) (key : κ) (value : Unit → ν) :
    ν × BoundedMemo κ ν :=
  match memo.get key with
  | some cached => (cached, memo)
  | none => (value (), memo.put limit key (value ()))

/-- What is kept under a key is right, and no more is kept than the limit. -/
structure Sound (limit : Nat) (right : κ → ν → Prop) (memo : BoundedMemo κ ν) : Prop where
  /-- the values are right -/
  entries : ∀ entry ∈ memo.entries, right entry.1 entry.2
  /-- the size is bounded -/
  bounded : memo.entries.length ≤ limit

variable {limit : Nat} {right : κ → ν → Prop} {memo : BoundedMemo κ ν} {key : κ}

theorem sound_empty : Sound limit right (empty : BoundedMemo κ ν) :=
  ⟨fun _ h => absurd h List.not_mem_nil, Nat.zero_le _⟩

/-- A hit is right. -/
theorem Sound.get [DecidableEq κ] (h : memo.Sound limit right) {value : ν}
    (hget : memo.get key = some value) : right key value := by
  obtain ⟨entry, hfind, rfl⟩ := Option.map_eq_some_iff.mp hget
  have hkey : entry.1 = key := by simpa using List.find?_some hfind
  exact hkey ▸ h.entries entry (List.mem_of_find?_eq_some hfind)

theorem Sound.put (h : memo.Sound limit right) (hlimit : 0 < limit) {value : ν}
    (hvalue : right key value) : (memo.put limit key value).Sound limit right where
  entries entry hentry := by
    rcases List.mem_append.mp hentry with hold | hnew
    · split at hold
      · exact absurd hold List.not_mem_nil
      · exact h.entries entry hold
    · obtain rfl := List.mem_singleton.mp hnew
      exact hvalue
  bounded := by
    simp only [BoundedMemo.put, List.length_append, List.length_singleton]
    split
    · exact hlimit
    · omega

/-- **A memo answers like the function it is a memo of**, and stays sound. -/
theorem Sound.fetch [DecidableEq κ] (h : memo.Sound limit right) (hlimit : 0 < limit)
    {value : Unit → ν} (hvalue : right key (value ()))
    (honly : ∀ cached, right key cached → cached = value ()) :
    (memo.fetch limit key value).1 = value () ∧
      (memo.fetch limit key value).2.Sound limit right := by
  unfold BoundedMemo.fetch
  split
  · rename_i cached hget
    exact ⟨honly cached (h.get hget), h⟩
  · exact ⟨rfl, h.put hlimit hvalue⟩

end BoundedMemo

end Feedpulse
