import Mathlib.Data.List.Basic

/-!
# Blocks on a heap

Blocks are allocated one after the other and loaded by their addresses. What has been freed cannot
be loaded, and no address is given out twice.

* `Heap.Keeps.allocs`, `Heap.load_allocs`: new blocks leave the others where they are.
* `Heap.load_free`: freeing a block leaves the others where they are.
-/

/-- The blocks by their addresses, `none` where a block has been freed. -/
structure Heap (α : Type) where
  blocks : List (Option α)

namespace Heap

variable {α : Type}

def load (h : Heap α) (p : Nat) : Option α := h.blocks[p]?.join

/-- New blocks, one behind the other; the first address is given. -/
def allocs (h : Heap α) (as : List α) : Nat × Heap α :=
  (h.blocks.length, { blocks := h.blocks ++ as.map some })

/-- `malloc` of a block for a value. -/
def alloc (h : Heap α) (a : α) : Nat × Heap α := h.allocs [a]

/-- `free`; freeing `NULL` does nothing. -/
def free (h : Heap α) : Option Nat → Heap α
  | none => h
  | some p => { blocks := h.blocks.set p none }

/-- What is on `h` is on `h'`. -/
def Keeps (h h' : Heap α) : Prop := ∀ p a, h.load p = some a → h'.load p = some a

theorem lt_of_load {h : Heap α} {p : Nat} {a : α} (hp : h.load p = some a) :
    p < h.blocks.length := by
  apply Decidable.byContradiction
  intro hlt
  rw [load, List.getElem?_eq_none (by omega)] at hp
  cases hp

/-- Allocating keeps what is there. -/
theorem Keeps.allocs (h : Heap α) (as : List α) : h.Keeps (h.allocs as).2 := by
  intro p a hp
  show ((h.blocks ++ as.map some)[p]?).join = some a
  rw [List.getElem?_append_left (lt_of_load hp)]
  exact hp

theorem load_allocs (h : Heap α) {as : List α} {i : Nat} {a : α} (ha : as[i]? = some a) :
    (h.allocs as).2.load ((h.allocs as).1 + i) = some a := by
  show ((h.blocks ++ as.map some)[h.blocks.length + i]?).join = some a
  rw [List.getElem?_append_right (by omega), Nat.add_sub_cancel_left, List.getElem?_map, ha]
  rfl

theorem Keeps.alloc (h : Heap α) (a : α) : h.Keeps (h.alloc a).2 := .allocs h [a]

theorem load_alloc (h : Heap α) (a : α) : (h.alloc a).2.load (h.alloc a).1 = some a :=
  load_allocs h (i := 0) rfl

/-- Only the block at the address is freed. -/
theorem load_free (h : Heap α) {q : Option Nat} {p : Nat} (hne : q ≠ some p) :
    (h.free q).load p = h.load p := by
  cases q with
  | none => rfl
  | some q =>
    show ((h.blocks.set q none)[p]?).join = h.load p
    rw [List.getElem?_set_ne (fun hqp => hne (congrArg some hqp))]
    rfl

end Heap
