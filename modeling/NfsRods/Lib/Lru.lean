import Mathlib.Data.List.Basic

/-!
# Maps that give up what was used longest ago

`LruMap κ ν`: at most so many entries, in the order of their last use. The entry that was hit last
is not given up; if it is dropped, its place is not handed out either before the next hit.

* `LruMap.add`, `LruMap.lookup`: what is added, and what is found and still holds, goes to the end.
* `add_known`, `add_room`, `add_full`: what an addition does to the entries; `evict_eq`: the entry
  that a full map gives up.
* `lookup_none`, `lookup_hit`, `lookup_stale`: what a lookup does.
-/

/-- What was hit last: nothing yet, an entry that is still there, or one that is dropped. -/
inductive LruLast (κ : Type)
  | none
  | key (k : κ)
  | hole
  deriving DecidableEq

/-- The entries, the one used longest ago first. -/
structure LruMap (κ ν : Type) where
  entries : List (κ × ν) := []
  last : LruLast κ := .none

namespace LruMap

variable {κ ν : Type} [DecidableEq κ]

/-- The value of a key. -/
def get (m : LruMap κ ν) (k : κ) : Option ν := (m.entries.find? fun e => e.1 = k).map (·.2)

/-- A map of `cap` places has one left. -/
def Room (cap : Nat) (m : LruMap κ ν) : Prop :=
  m.entries.length + (if m.last = .hole then 1 else 0) < cap

instance (cap : Nat) (m : LruMap κ ν) : Decidable (m.Room cap) :=
  inferInstanceAs (Decidable (_ < cap))

/-- The entries without the first that was not hit last. -/
def evict (m : LruMap κ ν) : List (κ × ν) := m.entries.eraseP fun e => m.last ≠ .key e.1

/-- The entries of other keys. -/
def others (m : LruMap κ ν) (k : κ) : List (κ × ν) := m.entries.filter fun e => e.1 ≠ k

/-- Add an entry to a map of `cap` places. -/
def add (cap : Nat) (m : LruMap κ ν) (k : κ) (v : ν) : LruMap κ ν :=
  let kept := match m.get k with
    | some _ => m.others k
    | none => if m.Room cap then m.entries else m.evict
  { m with entries := kept ++ [(k, v)] }

/-- Look a key up; an entry that does not hold any more is dropped. -/
def lookup (m : LruMap κ ν) (holds : ν → Bool) (k : κ) : Option ν × LruMap κ ν :=
  match m.get k with
  | none => (none, m)
  | some v =>
    if holds v then (some v, { entries := m.others k ++ [(k, v)], last := .key k })
    else
      (none, { entries := m.others k, last := if m.last = .key k then .hole else m.last })

variable {m : LruMap κ ν} {k : κ} {v : ν} {cap : Nat} {holds : ν → Bool}

theorem get_eq_none : m.get k = none ↔ ∀ e ∈ m.entries, e.1 ≠ k := by
  simp [get]

theorem get_eq_some (h : m.get k = some v) : (k, v) ∈ m.entries := by
  obtain ⟨e, he, rfl⟩ := Option.map_eq_some_iff.1 h
  have hk : e.1 = k := by simpa using List.find?_some he
  rw [← hk]
  exact List.mem_of_find?_eq_some he

theorem add_known (h : m.get k = some v) (v' : ν) :
    m.add cap k v' = { m with entries := m.others k ++ [(k, v')] } := by
  rw [add, h]

theorem add_room (h : m.get k = none) (hroom : m.Room cap) (v : ν) :
    m.add cap k v = { m with entries := m.entries ++ [(k, v)] } := by
  rw [add, h]
  dsimp only
  rw [if_pos hroom]

theorem add_full (h : m.get k = none) (hroom : ¬ m.Room cap) (v : ν) :
    m.add cap k v = { m with entries := m.evict ++ [(k, v)] } := by
  rw [add, h]
  dsimp only
  rw [if_neg hroom]

/-- The entry that is given up is the first that was not hit last. -/
theorem evict_eq {e : κ × ν} {before after : List (κ × ν)}
    (h : m.entries = before ++ e :: after) (hbefore : ∀ a ∈ before, m.last = .key a.1)
    (he : m.last ≠ .key e.1) : m.evict = before ++ after := by
  rw [evict, h, List.eraseP_append_right, List.eraseP_cons_of_pos]
  · exact decide_eq_true he
  · intro a ha
    simpa using hbefore a ha

theorem lookup_none (h : m.get k = none) : m.lookup holds k = (none, m) := by
  rw [lookup, h]

theorem lookup_hit (h : m.get k = some v) (hv : holds v = true) : m.lookup holds k =
    (some v, { entries := m.others k ++ [(k, v)], last := .key k }) := by
  rw [lookup, h]
  dsimp only
  rw [if_pos hv]

theorem lookup_stale (h : m.get k = some v) (hv : holds v = false) : m.lookup holds k =
    (none, { entries := m.others k
             last := if m.last = .key k then .hole else m.last }) := by
  rw [lookup, h]
  dsimp only
  rw [if_neg (by simp [hv])]

end LruMap
