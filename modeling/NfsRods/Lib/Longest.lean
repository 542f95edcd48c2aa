import Mathlib.Data.List.Infix

/-!
# The longest element of a list

A scan over a list that keeps the longest element so far among those that have a value.

* `longest len f l`: the element it ends with, and its value.
* `Longest len f l a b`: `a` is the first of the longest elements of `l` with a value, which is `b`.
* `longest_eq_some`, `longest_eq_none`: the scan finds that element, if there is one.
* `longest_perm`: where elements with a value have different lengths, their order does not matter.
-/

section
variable {α β : Type} (len : α → Nat) (f : α → Option β)

/-- The next element of the scan. -/
def longestStep (best : Option (α × β)) (a : α) : Option (α × β) :=
  match f a, best with
  | none, _ => best
  | some b, none => if 0 < len a then some (a, b) else none
  | some b, some x => if len x.1 < len a then some (a, b) else some x

/-- The longest element with a value, and the value. -/
def longest (l : List α) : Option (α × β) := l.foldl (longestStep len f) none

/-- `a` has the value `b`, every element with a value before it is shorter, and none after it
longer. -/
def Longest (l : List α) (a : α) (b : β) : Prop :=
  ∃ l₁ l₂, l = l₁ ++ a :: l₂ ∧ f a = some b ∧ 0 < len a ∧
    (∀ x ∈ l₁, f x ≠ none → len x < len a) ∧ ∀ x ∈ l₂, f x ≠ none → len x ≤ len a

variable {len f} {l : List α} {a : α} {b : β}

theorem longest_concat (l : List α) (a : α) :
    longest len f (l ++ [a]) = longestStep len f (longest len f l) a := by
  rw [longest, List.foldl_append]
  rfl

theorem Longest.mem (h : Longest len f l a b) : a ∈ l := by
  obtain ⟨l₁, l₂, rfl, _⟩ := h
  simp

theorem Longest.value (h : Longest len f l a b) : f a = some b := by
  obtain ⟨_, _, _, h, _⟩ := h
  exact h

theorem Longest.le (h : Longest len f l a b) {x : α} (hx : x ∈ l) (hf : f x ≠ none) :
    len x ≤ len a := by
  obtain ⟨l₁, l₂, rfl, _, _, h₁, h₂⟩ := h
  rcases List.mem_append.1 hx with hx | hx
  · exact (h₁ x hx hf).le
  · rcases List.mem_cons.1 hx with rfl | hx
    · exact le_rfl
    · exact h₂ x hx hf

/-- An element that is not longer changes nothing. -/
theorem Longest.concat (h : Longest len f l a b) {x : α} (hx : f x ≠ none → len x ≤ len a) :
    Longest len f (l ++ [x]) a b := by
  obtain ⟨l₁, l₂, rfl, hf, hpos, h₁, h₂⟩ := h
  refine ⟨l₁, l₂ ++ [x], by simp, hf, hpos, h₁, fun y hy hne => ?_⟩
  rcases List.mem_append.1 hy with hy | hy
  · exact h₂ y hy hne
  · rw [List.mem_singleton.1 hy] at hne ⊢
    exact hx hne

/-- What the scan knows of the elements before it. -/
theorem longest_spec (len : α → Nat) (f : α → Option β) (l : List α) :
    (longest len f l = none ∧ ∀ x ∈ l, f x = none ∨ len x = 0) ∨
      ∃ a b, longest len f l = some (a, b) ∧ Longest len f l a b := by
  induction l using List.reverseRecOn with
  | nil => exact .inl ⟨rfl, by simp⟩
  | append_singleton l x ih =>
    rw [longest_concat]
    cases hx : f x with
    | none =>
      have hstep : longestStep len f (longest len f l) x = longest len f l := by
        rw [longestStep]
        simp only [hx]
      rw [hstep]
      rcases ih with ⟨hn, hall⟩ | ⟨a, b, hs, hl⟩
      · refine .inl ⟨hn, fun y hy => ?_⟩
        rcases List.mem_append.1 hy with hy | hy
        · exact hall y hy
        · exact .inl (by rw [List.mem_singleton.1 hy, hx])
      · exact .inr ⟨a, b, hs, hl.concat fun h => absurd hx h⟩
    | some c =>
      rcases ih with ⟨hn, hall⟩ | ⟨a, b, hs, hl⟩
      · simp only [longestStep, hx, hn]
        by_cases hpos : 0 < len x
        · rw [if_pos hpos]
          refine .inr ⟨x, c, rfl, l, [], rfl, hx, hpos, fun y hy hne => ?_, by simp⟩
          rw [(hall y hy).resolve_left hne]
          exact hpos
        · rw [if_neg hpos]
          refine .inl ⟨rfl, fun y hy => ?_⟩
          rcases List.mem_append.1 hy with hy | hy
          · exact hall y hy
          · rw [List.mem_singleton.1 hy]
            exact .inr (by omega)
      · simp only [longestStep, hx, hs]
        by_cases hlt : len a < len x
        · rw [if_pos hlt]
          refine .inr ⟨x, c, rfl, l, [], rfl, hx, by omega, fun y hy hne => ?_, by simp⟩
          exact lt_of_le_of_lt (hl.le hy hne) hlt
        · rw [if_neg hlt]
          exact .inr ⟨a, b, rfl, hl.concat fun _ => by omega⟩

/-- The scan finds nothing exactly where no element has a value. -/
theorem longest_eq_none : longest len f l = none ↔ ∀ x ∈ l, f x = none ∨ len x = 0 := by
  rcases longest_spec len f l with ⟨hn, hall⟩ | ⟨a, b, hs, hl⟩
  · exact ⟨fun _ => hall, fun _ => hn⟩
  · constructor
    · intro h
      rw [h] at hs
      cases hs
    · intro h
      obtain ⟨_, _, _, hf, hpos, _⟩ := id hl
      rcases h a hl.mem with h | h
      · rw [h] at hf
        cases hf
      · omega

/-- The scan finds the first of the longest elements. -/
theorem longest_eq_some (h : longest len f l = some (a, b)) : Longest len f l a b := by
  rcases longest_spec len f l with ⟨hn, _⟩ | ⟨a', b', hs, hl⟩
  · rw [h] at hn
    cases hn
  · rw [h] at hs
    cases hs
    exact hl

/-- The scan finds the one that is the longest. -/
theorem Longest.eq (h : Longest len f l a b) : longest len f l = some (a, b) := by
  obtain ⟨l₁, l₂, rfl, hf, hpos, h₁, h₂⟩ := h
  induction l₂ using List.reverseRecOn with
  | nil =>
    rw [longest_concat]
    rcases longest_spec len f l₁ with ⟨hn, _⟩ | ⟨a', b', hs, hl⟩
    · simp only [longestStep, hf, hn, hpos, if_true]
    · have hlt := h₁ a' hl.mem (by simp [hl.value])
      simp only [longestStep, hf, hs, hlt, if_true]
  | append_singleton l₂ x ih =>
    have hbest := ih fun y hy => h₂ y (List.mem_append_left _ hy)
    rw [← List.cons_append, ← List.append_assoc, longest_concat, hbest]
    cases hx : f x with
    | none => simp only [longestStep, hx]
    | some c =>
      have hle := h₂ x (by simp) (by simp [hx])
      simp only [longestStep, hx, Nat.not_lt.2 hle, if_false]

/-- Where elements with a value have different lengths, the scan finds the same in any order. -/
theorem longest_perm {l' : List α} (hp : l'.Perm l)
    (hd : ∀ x ∈ l, ∀ y ∈ l, f x ≠ none → f y ≠ none → len x = len y → x = y) :
    longest len f l' = longest len f l := by
  rcases longest_spec len f l' with ⟨hn', hall⟩ | ⟨a', b', hs', hl'⟩
  · rw [hn']
    exact (longest_eq_none.2 fun x hx => hall x (hp.mem_iff.2 hx)).symm
  · rcases longest_spec len f l with ⟨_, hall⟩ | ⟨a, b, hs, hl⟩
    · rw [longest_eq_none.2 fun x hx => hall x (hp.mem_iff.1 hx)] at hs'
      cases hs'
    · have hne : f a ≠ none := by rw [hl.value]; simp
      have hne' : f a' ≠ none := by rw [hl'.value]; simp
      have hmem' := hp.mem_iff.1 hl'.mem
      obtain rfl : a = a' := by
        refine hd a hl.mem a' hmem' hne hne' (le_antisymm ?_ (hl.le hmem' hne'))
        exact hl'.le (hp.mem_iff.2 hl.mem) hne
      have hval := hl.value.symm.trans hl'.value
      rw [hs', hs, Option.some.inj hval]

end
