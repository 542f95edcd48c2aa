import Mathlib.Data.List.Basic

/-!
# Lists that change while they are read

Elements of a list are dropped and inserted anywhere, and the others keep their order. A reader that
has seen the beginning of the list goes on from a position in it.

* `Moved key xs ms ys`: `ys` is `xs` after the moves `ms`.
* `Moved.mem`: an element that is not dropped stays in the list.
* `Moved.mem_take`: of those that stay, what is among the first `q` afterwards was among the first
  before, except for as many positions as elements were dropped.
-/

/-- An element with the key `k` is dropped or inserted. -/
inductive Move (κ : Type)
  | drop (k : κ)
  | insert (k : κ)

/-- `ys` is `xs` after the moves; only keys that are not in the list are inserted. -/
inductive Moved {α κ : Type} (key : α → κ) : List α → List (Move κ) → List α → Prop
  | nil (xs : List α) : Moved key xs [] xs
  | drop {xs ys : List α} {ms : List (Move κ)} (before : List α) (x : α) (after : List α)
      (hxs : xs = before ++ x :: after) (h : Moved key (before ++ after) ms ys) :
      Moved key xs (.drop (key x) :: ms) ys
  | insert {xs ys : List α} {ms : List (Move κ)} (before : List α) (x : α) (after : List α)
      (hxs : xs = before ++ after) (hx : key x ∉ xs.map key)
      (h : Moved key (before ++ x :: after) ms ys) : Moved key xs (.insert (key x) :: ms) ys

/-- How many elements are dropped. -/
def drops {κ : Type} : List (Move κ) → Nat
  | [] => 0
  | .drop _ :: ms => drops ms + 1
  | .insert _ :: ms => drops ms

section
variable {α κ : Type} {key : α → κ} {xs ys : List α} {ms : List (Move κ)} {k : κ}

theorem not_drop_mem_tail {m : Move κ} (h : Move.drop k ∉ m :: ms) : Move.drop k ∉ ms :=
  fun hmem => h (List.mem_cons_of_mem _ hmem)

/-- A key of a list with an element taken out. -/
theorem mem_map_without {before after : List α} {x : α} (hne : k ≠ key x)
    (h : k ∈ (before ++ x :: after).map key) : k ∈ (before ++ after).map key := by
  simp only [List.map_append, List.map_cons, List.mem_append, List.mem_cons] at h ⊢
  tauto

theorem mem_map_with {before after : List α} (x : α) (h : k ∈ (before ++ after).map key) :
    k ∈ (before ++ x :: after).map key := by
  simp only [List.map_append, List.map_cons, List.mem_append, List.mem_cons] at h ⊢
  tauto

theorem Moved.mem (h : Moved key xs ms ys) (hk : k ∈ xs.map key) (hstay : .drop k ∉ ms) :
    k ∈ ys.map key := by
  induction h with
  | nil xs => exact hk
  | drop before x after hxs h ih =>
    have hne : k ≠ key x := fun heq => hstay (heq ▸ List.mem_cons_self)
    rw [hxs] at hk
    exact ih (mem_map_without hne hk) (not_drop_mem_tail hstay)
  | insert before x after hxs hx h ih =>
    rw [hxs] at hk
    exact ih (mem_map_with x hk) (not_drop_mem_tail hstay)

/-- The first elements of a list with one put in. -/
theorem mem_take_with {before after : List α} {x : α} {q : Nat}
    (h : k ∈ ((before ++ after).take q).map key) :
    k ∈ ((before ++ x :: after).take (q + 1)).map key := by
  rw [List.take_append, List.map_append, List.mem_append] at h ⊢
  rcases h with h | h
  · refine .inl ?_
    rw [List.mem_map] at h ⊢
    obtain ⟨a, ha, rfl⟩ := h
    exact ⟨a, List.take_subset_take_left _ (Nat.le_succ q) ha, rfl⟩
  · refine .inr ?_
    rcases Nat.lt_or_ge q before.length with hlt | hge
    · rw [Nat.sub_eq_zero_of_le (Nat.le_of_lt hlt)] at h
      cases h
    · rw [Nat.succ_sub hge, List.take_succ_cons, List.map_cons]
      exact List.mem_cons_of_mem _ h

/-- The first elements of a list with one taken out. -/
theorem mem_take_without {before after : List α} {x : α} {q : Nat} (hne : k ≠ key x)
    (h : k ∈ ((before ++ x :: after).take q).map key) :
    k ∈ ((before ++ after).take q).map key := by
  rw [List.take_append, List.map_append, List.mem_append] at h ⊢
  refine h.imp_right fun h => ?_
  cases hq : q - before.length with
  | zero =>
    rw [hq] at h
    cases h
  | succ n =>
    rw [hq, List.take_succ_cons, List.map_cons, List.mem_cons] at h
    have hn := h.resolve_left hne
    rw [List.mem_map] at hn ⊢
    obtain ⟨a, ha, rfl⟩ := hn
    exact ⟨a, List.take_subset_take_left _ (Nat.le_succ n) ha, rfl⟩

theorem Moved.mem_take (h : Moved key xs ms ys) (hstay : .drop k ∉ ms) {q : Nat}
    (hk : k ∈ xs.map key) (hq : k ∈ (ys.take q).map key) :
    k ∈ (xs.take (q + drops ms)).map key := by
  induction h with
  | nil xs => exact hq
  | drop before x after hxs h ih =>
    have hne : k ≠ key x := fun heq => hstay (heq ▸ List.mem_cons_self)
    rw [hxs] at hk ⊢
    exact mem_take_with (ih (not_drop_mem_tail hstay) (mem_map_without hne hk) hq)
  | insert before x after hxs hx h ih =>
    have hne : k ≠ key x := fun heq => hx (heq ▸ hk)
    rw [hxs] at hk ⊢
    exact mem_take_without hne (ih (not_drop_mem_tail hstay) (mem_map_with x hk) hq)

end
