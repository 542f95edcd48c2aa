import Mathlib.Data.List.Sort

/-!
# Byte order

Strings in the order of `strcmp`, which is that of lists, and the search for the last one in this
order that passes a test.

* `append_lt_append`: two strings are told apart by the first place where they differ.
* `find_last`: going backwards through the sorted strings finds the greatest one.
* `find_last_congr`: strings that do not pass make no difference.
-/

theorem append_lt_append {α : Type} [LT α] {a x y : List α} {c d : α} (h : c < d) :
    a ++ c :: x < a ++ d :: y :=
  List.append_left_lt (List.cons_lt_cons_iff.2 (.inl h))

section
variable {α : Type} [LE α] [DecidableLE α] {l : List α} {p : α → Bool} {x : α}

theorem find_last_none : (l.insertionSort (· ≤ ·)).reverse.find? p = none ↔
    ∀ y ∈ l, p y = false := by
  simp [List.find?_eq_none, List.mem_insertionSort]

variable [IsTrans α (· ≤ ·)] [Std.Total (α := α) (· ≤ ·)]

theorem find_last (h : (l.insertionSort (· ≤ ·)).reverse.find? p = some x) :
    x ∈ l ∧ p x = true ∧ ∀ y ∈ l, p y = true → y ≤ x := by
  obtain ⟨hp, after, before, hsplit, hafter⟩ := List.find?_eq_some_iff_append.1 h
  have hsorted := List.pairwise_insertionSort (· ≤ ·) l
  have heq : l.insertionSort (· ≤ ·) = before.reverse ++ x :: after.reverse := by
    rw [← List.reverse_reverse (l.insertionSort _), hsplit]
    simp
  rw [heq, List.pairwise_append] at hsorted
  refine ⟨(List.mem_insertionSort (· ≤ ·)).1 (by simp [heq]), hp, fun y hy hpy => ?_⟩
  have hmem := (List.mem_insertionSort (· ≤ ·)).2 hy
  rw [heq, List.mem_append, List.mem_cons] at hmem
  rcases hmem with hy | rfl | hy
  · exact hsorted.2.2 y hy x List.mem_cons_self
  · exact (Std.Total.total y y).elim id id
  · exact absurd hpy (by simpa using hafter y (List.mem_reverse.1 hy))

theorem find_last_congr [Std.Antisymm (α := α) (· ≤ ·)] {l' : List α}
    (h : ∀ y, p y = true → (y ∈ l ↔ y ∈ l')) :
    (l.insertionSort (· ≤ ·)).reverse.find? p = (l'.insertionSort (· ≤ ·)).reverse.find? p := by
  cases hl : (l.insertionSort (· ≤ ·)).reverse.find? p with
  | none =>
    refine (find_last_none.2 fun y hy => ?_).symm
    by_contra hp
    exact hp (find_last_none.1 hl y ((h y (by simpa using hp)).2 hy))
  | some a =>
    obtain ⟨ha, hpa, hlast⟩ := find_last hl
    have ha' := (h a hpa).1 ha
    cases hl' : (l'.insertionSort (· ≤ ·)).reverse.find? p with
    | none =>
      have hno := find_last_none.1 hl' a ha'
      rw [hpa] at hno
      cases hno
    | some b =>
      obtain ⟨hb, hpb, hlast'⟩ := find_last hl'
      exact congrArg some (Std.Antisymm.antisymm (r := (· ≤ ·)) a b (hlast' a ha' hpa)
        (hlast b ((h b hpb).2 hb) hpb))

end
