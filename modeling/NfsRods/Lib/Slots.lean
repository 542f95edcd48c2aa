import Mathlib.Data.List.Basic
import Mathlib.Logic.Function.Basic

/-!
# Lists linked in an array

The elements of a list in the slots of an array, each with the index of the next. `Linked` says what
the slots hold after the elements have been put into them one after the other.

* `Slots.Linked.put`, `Slots.Linked.link`: an element more, and a pointer behind the last.
* `Slots.follow_linked`: the list is found again from its first slot.
-/

/-- A slot: an element, and the index of the slot of the next one. -/
structure Slot (α : Type) where
  item : Option α := none
  next : Option Nat := none

/-- What is in the array. -/
abbrev Slots (α : Type) := Nat → Slot α

namespace Slots

variable {α : Type}

/-- An element, and no pointer, into a slot. -/
def put (m : Slots α) (k : Nat) (a : α) : Slots α := Function.update m k { item := some a }

/-- The pointer of a slot. -/
def link (m : Slots α) (k : Nat) (next : Option Nat) : Slots α :=
  Function.update m k { m k with next }

/-- The elements from a slot on; `fuel` bounds them. -/
def follow (m : Slots α) : Nat → Option Nat → List α
  | fuel + 1, some k =>
    match (m k).item with
    | some a => a :: follow m fuel (m k).next
    | none => []
  | _, _ => []

/-- The elements in the first slots, the last one first, and the pointer behind it. -/
def Linked (m : Slots α) : Option Nat → List α → Prop
  | _, [] => True
  | next, a :: acc => m acc.length = { item := some a, next } ∧ Linked m (some acc.length) acc

/-- Where a list starts: in slot 0. -/
def first (next : Option Nat) : List α → Option Nat
  | [] => next
  | _ :: _ => some 0

theorem Linked.congr {m m' : Slots α} {next : Option Nat} {acc : List α} (h : Linked m next acc)
    (heq : ∀ k < acc.length, m' k = m k) : Linked m' next acc := by
  induction acc generalizing next with
  | nil => trivial
  | cons a acc ih =>
    refine ⟨?_, ih h.2 fun k hk => heq k (Nat.lt_succ_of_lt hk)⟩
    rw [heq acc.length (Nat.lt_succ_self _)]
    exact h.1

/-- The next element goes into the next slot. -/
theorem Linked.put {m : Slots α} {acc : List α} (h : Linked m (some acc.length) acc) (a : α) :
    Linked (m.put acc.length a) none (a :: acc) := by
  refine ⟨Function.update_self .., h.congr fun k hk => ?_⟩
  exact Function.update_of_ne (by omega) ..

/-- Another pointer behind the last element. -/
theorem Linked.link {m : Slots α} {next : Option Nat} {a : α} {acc : List α}
    (h : Linked m next (a :: acc)) (next' : Option Nat) :
    Linked (m.link acc.length next') next' (a :: acc) := by
  refine ⟨?_, h.2.congr fun k hk => Function.update_of_ne (by omega) ..⟩
  show Function.update m acc.length { m acc.length with next := next' } acc.length = _
  rw [Function.update_self, h.1]

/-- A pointer to the slot behind the last element. -/
theorem Linked.extend {m : Slots α} {next : Option Nat} {acc : List α} (h : Linked m next acc)
    (next' : Option Nat) :
    Linked (if 0 < acc.length then m.link (acc.length - 1) next' else m) next' acc := by
  cases acc with
  | nil => trivial
  | cons a acc =>
    rw [List.length_cons, if_pos (Nat.succ_pos acc.length)]
    exact h.link next'

@[simp] theorem follow_none (m : Slots α) (fuel : Nat) : follow m fuel none = [] := by
  cases fuel <;> rfl

theorem Linked.item_first {m : Slots α} {next : Option Nat} {acc : List α} (h : Linked m next acc)
    (hne : acc ≠ []) : (m 0).item.isSome = true := by
  induction acc generalizing next with
  | nil => exact absurd rfl hne
  | cons a acc ih =>
    cases acc with
    | nil => rw [show m 0 = _ from h.1, Option.isSome_some]
    | cons b acc => exact ih h.2 (List.cons_ne_nil b acc)

/-- The slots hold the list. -/
theorem follow_linked {m : Slots α} {next : Option Nat} {acc : List α} (h : Linked m next acc)
    {fuel : Nat} (hfuel : acc.length ≤ fuel) :
    follow m fuel (first next acc) = acc.reverse ++ follow m (fuel - acc.length) next := by
  induction acc generalizing next with
  | nil => rfl
  | cons a acc ih =>
    have hlen : acc.length + 1 ≤ fuel := hfuel
    have hstart : first next (a :: acc) = first (some acc.length) acc := by
      cases acc <;> rfl
    obtain ⟨k, hk⟩ : ∃ k, fuel - acc.length = k + 1 := ⟨fuel - acc.length - 1, by omega⟩
    rw [hstart, ih h.2 (by omega), hk, follow, h.1, List.reverse_cons, List.append_assoc,
      List.length_cons, show fuel - (acc.length + 1) = k by omega]
    rfl

end Slots
