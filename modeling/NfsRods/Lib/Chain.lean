import Mathlib.Data.List.Basic
import Mathlib.Logic.Function.Basic

/-!
# Chains of cells

Cells in memory, each with an item and the address of the next one. `Leads` says that the pointers
from an address lead through some cells to another; only a chain without a cell twice can be changed
at one place (`Leads.store`, `Leads.link`).

* `Cells.Leads.append_iff`: chains are put together and taken apart.
* `Cells.Leads.unlink`: a cell is taken out of a chain.
* `Cells.last_eq`: following the pointers finds the last cell.
-/

/-- A cell: an item, and the address of the next cell. -/
structure Cell (α : Type) where
  item : α
  next : Option Nat := none

/-- The cells by their addresses, `none` where there is none. -/
abbrev Cells (α : Type) : Type := Nat → Option (Cell α)

namespace Cells

variable {α : Type} {m m' : Cells α} {p q : Option Nat} {k : Nat} {c : Cell α}
  {xs ys : List (Nat × α)}

/-- The cell at an address is written. -/
def store (m : Cells α) (k : Nat) (c : Cell α) : Cells α := Function.update m k (some c)

/-- The cell at an address is given back. -/
def free (m : Cells α) (k : Nat) : Cells α := Function.update m k none

@[simp] theorem store_self : m.store k c k = some c := Function.update_self ..

@[simp] theorem free_self : m.free k k = none := Function.update_self ..

theorem store_other {j : Nat} (h : j ≠ k) : m.store k c j = m j := Function.update_of_ne h ..

theorem free_other {j : Nat} (h : j ≠ k) : m.free k j = m j := Function.update_of_ne h ..

/-- From `p` the pointers lead through the cells with these addresses and items to `q`. -/
def Leads (m : Cells α) : Option Nat → List (Nat × α) → Option Nat → Prop
  | p, [], q => p = q
  | p, x :: xs, q => p = some x.1 ∧ ∃ next, m x.1 = some { item := x.2, next } ∧ Leads m next xs q

/-! ## Chains -/

theorem Leads.append_iff : Leads m p (xs ++ ys) q ↔ ∃ r, Leads m p xs r ∧ Leads m r ys q := by
  induction xs generalizing p with
  | nil => simp [Leads]
  | cons x xs ih =>
    simp only [List.cons_append, Leads, ih]
    constructor
    · rintro ⟨hp, next, hx, r, hxs, hys⟩
      exact ⟨r, ⟨hp, next, hx, hxs⟩, hys⟩
    · rintro ⟨r, ⟨hp, next, hx, hxs⟩, hys⟩
      exact ⟨hp, next, hx, r, hxs, hys⟩

theorem Leads.mem (h : Leads m p xs q) {x : Nat × α} (hx : x ∈ xs) :
    ∃ next, m x.1 = some { item := x.2, next } := by
  induction xs generalizing p with
  | nil => cases hx
  | cons y ys ih =>
    obtain ⟨-, next, hy, hys⟩ := h
    rcases List.mem_cons.1 hx with rfl | hx
    · exact ⟨next, hy⟩
    · exact ih hys hx

/-- A chain does not depend on other cells. -/
theorem Leads.congr (h : Leads m p xs q) (heq : ∀ x ∈ xs, m' x.1 = m x.1) : Leads m' p xs q := by
  induction xs generalizing p with
  | nil => exact h
  | cons x xs ih =>
    obtain ⟨hp, next, hx, hxs⟩ := h
    refine ⟨hp, next, by rw [heq x List.mem_cons_self, hx], ih hxs fun y hy => ?_⟩
    exact heq y (List.mem_cons_of_mem x hy)

theorem Leads.store (h : Leads m p xs q) (hk : k ∉ xs.map (·.1)) :
    Leads (m.store k c) p xs q :=
  h.congr fun _ hx => store_other fun hxk => hk (hxk ▸ List.mem_map_of_mem hx)

theorem Leads.free (h : Leads m p xs q) (hk : k ∉ xs.map (·.1)) : Leads (m.free k) p xs q :=
  h.congr fun _ hx => free_other fun hxk => hk (hxk ▸ List.mem_map_of_mem hx)

/-- The last cell of a chain is made to point elsewhere. -/
theorem Leads.link {x : Nat × α} (h : Leads m p (xs ++ [x]) q) (hx : x.1 ∉ xs.map (·.1))
    (r : Option Nat) : Leads (m.store x.1 { item := x.2, next := r }) p (xs ++ [x]) r := by
  obtain ⟨p', hxs, hp, -⟩ := append_iff.1 h
  exact append_iff.2 ⟨p', hxs.store hx, hp, r, store_self, rfl⟩

/-- The first cell of a chain is taken off. -/
theorem Leads.behead {x : Nat × α} (h : Leads m p (x :: xs) q) (hx : x.1 ∉ xs.map (·.1)) :
    ∃ next, m x.1 = some { item := x.2, next } ∧ Leads (m.free x.1) next xs q := by
  obtain ⟨-, next, hx', hxs⟩ := h
  exact ⟨next, hx', hxs.free hx⟩

/-- A cell is taken out of a chain: the cell before it is made to point to the next one. -/
theorem Leads.unlink {x z : Nat × α} (h : Leads m p (xs ++ [z] ++ x :: ys) q)
    (hnodup : ((xs ++ [z] ++ x :: ys).map (·.1)).Nodup) :
    ∃ next link, m x.1 = some { item := x.2, next } ∧ m z.1 = some { item := z.2, next := link } ∧
      Leads ((m.store z.1 { item := z.2, next }).free x.1) p (xs ++ [z] ++ ys) q := by
  obtain ⟨r, hxs, -, next, hx, hys⟩ := append_iff.1 h
  obtain ⟨link, hz⟩ := hxs.mem (List.mem_append_right xs (List.mem_singleton_self z))
  refine ⟨next, link, hx, hz, ?_⟩
  simp only [List.map_append, List.map_cons, List.map_nil] at hnodup
  have hz1 : z.1 ∉ xs.map (·.1) := by grind
  have hz2 : z.1 ∉ ys.map (·.1) := by grind
  have hx1 : x.1 ∉ (xs ++ [z] ++ ys).map (·.1) := by
    simp only [List.map_append, List.map_cons, List.map_nil]
    grind
  exact (append_iff.2 ⟨next, hxs.link hz1 next, hys.store hz2⟩).free hx1

/-- The address a chain begins with. -/
theorem Leads.head (h : Leads m p xs none) : p = xs.head?.map (·.1) := by
  cases xs with
  | nil => exact h
  | cons x xs => exact h.1

/-- The items that the pointers lead through, at most `fuel`. -/
def items (m : Cells α) : Nat → Option Nat → List α
  | 0, _ => []
  | _ + 1, none => []
  | fuel + 1, some k =>
    match m k with
    | none => []
    | some c => c.item :: items m fuel c.next

/-- Following the pointers reads the chain. -/
theorem Leads.items_eq (h : Leads m p xs none) : m.items xs.length p = xs.map (·.2) := by
  induction xs generalizing p with
  | nil => rfl
  | cons x xs ih =>
    obtain ⟨rfl, next, hx, hxs⟩ := h
    rw [List.length_cons, items, hx, List.map_cons]
    exact congrArg (x.2 :: ·) (ih hxs)

/-! ## The end of a chain -/

/-- The pointers are followed from a cell to the last one; `fuel` bounds the steps. -/
def last (m : Cells α) : Nat → Nat → Option Nat
  | 0, _ => none
  | fuel + 1, k =>
    match m k with
    | none => none
    | some c =>
      match c.next with
      | none => some k
      | some k' => last m fuel k'

/-- Following the pointers finds the last cell exactly with enough steps. -/
theorem last_eq {x : Nat × α} (fuel : Nat) (h : Leads m (some k) (xs ++ [x]) none) :
    last m fuel k = if xs.length < fuel then some x.1 else none := by
  induction xs generalizing k fuel with
  | nil =>
    obtain ⟨hk, next, hx, rfl⟩ := h
    obtain rfl : k = x.1 := Option.some.inj hk
    cases fuel with
    | zero => rfl
    | succ fuel => simp [last, hx]
  | cons y ys ih =>
    obtain ⟨hk, next, hy, hys⟩ := h
    obtain rfl : k = y.1 := Option.some.inj hk
    have hnext : ∃ k', next = some k' := by
      cases ys with
      | nil => exact ⟨x.1, hys.1⟩
      | cons z zs => exact ⟨z.1, hys.1⟩
    obtain ⟨k', rfl⟩ := hnext
    cases fuel with
    | zero => rfl
    | succ fuel => simp [last, hy, ih _ hys]

end Cells
