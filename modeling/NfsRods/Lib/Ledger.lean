import Mathlib.Data.List.Induction

/-!
# Things acquired and released

A log of events, some of which acquire a thing and some of which release one. A thing that has been
released may be handed out again.

* `held log a`: `a` has been acquired and not been released since.
* `Fair log`: nothing was handed out while it was held; `Proper log`: nothing was released that was
  not held.
* `released_once`: in a log with both, what was acquired is either still held or was released once
  before it was handed out again.
-/

namespace Ledger

section
variable {ε α : Type} [DecidableEq α] (acq rel : ε → Option α)

/-- Whether `a` is held after an event. -/
def heldStep (a : α) (held : Bool) (x : ε) : Bool :=
  if acq x = some a then true else if rel x = some a then false else held

/-- `a` has been acquired and not been released since. -/
def held (log : List ε) (a : α) : Bool := log.foldl (heldStep acq rel a) false

/-- Nothing was handed out while it was held. -/
def Fair (log : List ε) : Prop :=
  ∀ pre x post a, log = pre ++ x :: post → acq x = some a → held acq rel pre a = false

/-- Nothing was released that was not held. -/
def Proper (log : List ε) : Prop :=
  ∀ pre x post a, log = pre ++ x :: post → rel x = some a → held acq rel pre a = true

/-- How often `a` is released before it is handed out again. -/
def releases (a : α) (log : List ε) : Nat :=
  (log.takeWhile fun x => acq x ≠ some a).countP fun x => rel x = some a

end

section
variable {ε α : Type} [DecidableEq α] {acq rel : ε → Option α} {log log' : List ε} {x : ε} {a : α}

theorem held_concat (log : List ε) (x : ε) (a : α) :
    held acq rel (log ++ [x]) a = heldStep acq rel a (held acq rel log a) x := by
  rw [held, List.foldl_append]
  rfl

/-- Where an event of a longer log stands: at the end, or in the log before. -/
theorem concat_eq_split {pre post : List ε} {y : ε} (h : log ++ [y] = pre ++ x :: post) :
    (pre = log ∧ x = y) ∨ ∃ post', log = pre ++ x :: post' := by
  induction post using List.reverseRecOn with
  | nil =>
    have hlast := List.append_inj' h rfl
    exact .inl ⟨hlast.1.symm, (List.cons.inj hlast.2).1.symm⟩
  | append_singleton post z _ =>
    rw [← List.cons_append, ← List.append_assoc] at h
    exact .inr ⟨post, (List.append_inj' h rfl).1⟩

theorem Fair.left (h : Fair acq rel (log ++ log')) : Fair acq rel log := by
  intro pre x post a hlog ha
  exact h pre x (post ++ log') a (by rw [hlog]; simp) ha

/-- What the last event hands out was not held. -/
theorem Fair.last (h : Fair acq rel (log ++ [x])) (ha : acq x = some a) :
    held acq rel log a = false :=
  h log x [] a rfl ha

theorem fair_nil : Fair acq rel [] := by
  intro pre x post a hlog
  simp at hlog

theorem Fair.concat (h : Fair acq rel log) (hx : ∀ a, acq x = some a → held acq rel log a = false) :
    Fair acq rel (log ++ [x]) := by
  intro pre y post a hlog ha
  rcases concat_eq_split hlog with ⟨rfl, rfl⟩ | ⟨post', hpost⟩
  · exact hx a ha
  · exact h pre y post' a hpost ha

theorem Proper.left (h : Proper acq rel (log ++ log')) : Proper acq rel log := by
  intro pre x post a hlog ha
  exact h pre x (post ++ log') a (by rw [hlog]; simp) ha

theorem proper_nil : Proper acq rel [] := by
  intro pre x post a hlog
  simp at hlog

theorem Proper.concat (h : Proper acq rel log)
    (hx : ∀ a, rel x = some a → held acq rel log a = true) :
    Proper acq rel (log ++ [x]) := by
  intro pre y post a hlog ha
  rcases concat_eq_split hlog with ⟨rfl, rfl⟩ | ⟨post', hpost⟩
  · exact hx a ha
  · exact h pre y post' a hpost ha

/-- The count goes on until the thing is handed out again. -/
theorem releases_concat (a : α) (log : List ε) (x : ε) :
    releases acq rel a (log ++ [x]) = releases acq rel a log +
      if (∀ y ∈ log, acq y ≠ some a) ∧ acq x ≠ some a ∧ rel x = some a then 1 else 0 := by
  induction log with
  | nil =>
    simp only [releases, List.nil_append, List.takeWhile_cons, List.takeWhile_nil, List.not_mem_nil,
      false_implies, implies_true, true_and, List.countP_nil, Nat.zero_add]
    by_cases hx : acq x = some a <;> by_cases hr : rel x = some a <;> simp [hx, hr]
  | cons y log ih =>
    by_cases hy : acq y = some a
    · simp [releases, hy]
    · simp only [releases, List.cons_append, List.takeWhile_cons, hy, ne_eq, not_false_eq_true,
        decide_true, if_true, List.countP_cons] at ih ⊢
      rw [ih]
      simp only [List.forall_mem_cons, hy, not_false_eq_true, true_and]
      omega

/-- **What was acquired is either still held, and was not released, or was released once before it
was handed out again.** -/
theorem released_once {pre post : List ε} (hfair : Fair acq rel (pre ++ x :: post))
    (hproper : Proper acq rel (pre ++ x :: post)) (ha : acq x = some a) :
    (held acq rel (pre ++ x :: post) a = true ∧ (∀ y ∈ post, acq y ≠ some a) ∧
      releases acq rel a post = 0) ∨
      releases acq rel a post = 1 ∧
        (held acq rel (pre ++ x :: post) a = true → ∃ y ∈ post, acq y = some a) := by
  induction post using List.reverseRecOn with
  | nil =>
    refine .inl ⟨?_, by simp, rfl⟩
    rw [held_concat, heldStep, if_pos ha]
  | append_singleton post y ih =>
    have hlog : pre ++ x :: (post ++ [y]) = (pre ++ x :: post) ++ [y] := by simp
    rw [hlog] at hfair hproper ⊢
    rw [held_concat, heldStep, releases_concat]
    rcases ih hfair.left hproper.left with ⟨hheld, hfirst, hrel⟩ | ⟨hrel, hagain⟩
    · have hy : acq y ≠ some a := by
        intro hy
        rw [hfair.last hy] at hheld
        cases hheld
      by_cases hry : rel y = some a
      · refine .inr ⟨by rw [hrel, if_pos ⟨hfirst, hy, hry⟩], fun h => ?_⟩
        simp [hy, hry] at h
      · refine .inl
          ⟨by rw [if_neg hy, if_neg hry, hheld], ?_, by rw [hrel, if_neg fun h => hry h.2.2]⟩
        intro z hz
        rcases List.mem_append.1 hz with hz | hz
        · exact hfirst z hz
        · rwa [List.mem_singleton.1 hz]
    · refine .inr ⟨?_, fun h => ?_⟩
      · rw [hrel]
        split
        · rename_i hc
          -- a second release would be of something that is not held
          have hheld := hproper (pre ++ x :: post) y [] a rfl hc.2.2
          obtain ⟨z, hz, hza⟩ := hagain hheld
          exact absurd hza (hc.1 z hz)
        · rfl
      · by_cases hy : acq y = some a
        · exact ⟨y, by simp, hy⟩
        · by_cases hry : rel y = some a
          · simp [hy, hry] at h
          · rw [if_neg hy, if_neg hry] at h
            obtain ⟨z, hz, hza⟩ := hagain h
            exact ⟨z, List.mem_append_left _ hz, hza⟩

end

end Ledger
