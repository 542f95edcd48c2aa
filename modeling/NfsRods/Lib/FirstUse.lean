import Mathlib.Computability.RegularExpressions

/-!
# First uses in a regular language

The steps a piece of code may take, as the words of a regular expression. Some steps use a thing,
some provide it; a word that uses it before it provides it relies on what was there before.

* `usesFirst`: the word relies on what was there before.
* `mayUse_of_mem`: when the expression cannot (`mayUse`), no word of it does.
-/

namespace FirstUse

variable {α : Type} (use give : α → Bool)

/-- The word uses the thing before it provides it. -/
def usesFirst : List α → Bool
  | [] => false
  | a :: w => if use a then true else if give a then false else usesFirst w

/-- The word neither uses nor provides the thing. -/
def passes (w : List α) : Bool := w.all fun a => !use a && !give a

theorem usesFirst_append (u v : List α) :
    usesFirst use give (u ++ v) =
      (usesFirst use give u || (passes use give u && usesFirst use give v)) := by
  induction u with
  | nil => rfl
  | cons a u ih =>
    rw [List.cons_append, usesFirst, usesFirst, passes, List.all_cons, ← passes]
    cases use a <;> cases give a <;> simp [ih]

/-- The expression has a word that neither uses nor provides the thing. -/
def mayPass : RegularExpression α → Bool
  | .zero => false
  | .epsilon => true
  | .char a => !use a && !give a
  | .plus P Q => mayPass P || mayPass Q
  | .comp P Q => mayPass P && mayPass Q
  | .star _ => true

/-- The expression may have a word that uses the thing first. -/
def mayUse : RegularExpression α → Bool
  | .zero => false
  | .epsilon => false
  | .char a => use a
  | .plus P Q => mayUse P || mayUse Q
  | .comp P Q => mayUse P || (mayPass use give P && mayUse Q)
  | .star P => mayUse P

theorem mayPass_of_mem {P : RegularExpression α} {w : List α} (hw : w ∈ P.matches')
    (hp : passes use give w = true) : mayPass use give P = true := by
  induction P generalizing w with
  | zero => cases hw
  | epsilon => rfl
  | char a =>
    cases Set.mem_singleton_iff.1 hw
    simpa [passes, mayPass] using hp
  | plus P Q ihP ihQ =>
    rcases (Language.mem_add _ _ _).1 hw with hw | hw
    · exact Bool.or_eq_true_iff.2 (.inl (ihP hw hp))
    · exact Bool.or_eq_true_iff.2 (.inr (ihQ hw hp))
  | comp P Q ihP ihQ =>
    obtain ⟨u, hu, v, hv, rfl⟩ := Language.mem_mul.1 hw
    rw [passes, List.all_append, Bool.and_eq_true_iff] at hp
    exact Bool.and_eq_true_iff.2 ⟨ihP hu hp.1, ihQ hv hp.2⟩
  | star P _ => rfl

/-- **No word uses the thing first** when the expression cannot. -/
theorem mayUse_of_mem {P : RegularExpression α} {w : List α} (hw : w ∈ P.matches')
    (h : usesFirst use give w = true) : mayUse use give P = true := by
  induction P generalizing w with
  | zero => cases hw
  | epsilon =>
    cases (Language.mem_one _).1 hw
    cases h
  | char a =>
    cases Set.mem_singleton_iff.1 hw
    unfold usesFirst at h
    cases hu : use a with
    | true => exact hu
    | false => cases hg : give a <;> simp [hu, hg, usesFirst] at h
  | plus P Q ihP ihQ =>
    rcases (Language.mem_add _ _ _).1 hw with hw | hw
    · exact Bool.or_eq_true_iff.2 (.inl (ihP hw h))
    · exact Bool.or_eq_true_iff.2 (.inr (ihQ hw h))
  | comp P Q ihP ihQ =>
    obtain ⟨u, hu, v, hv, rfl⟩ := Language.mem_mul.1 hw
    rw [usesFirst_append, Bool.or_eq_true_iff, Bool.and_eq_true_iff] at h
    rcases h with h | ⟨hp, h⟩
    · exact Bool.or_eq_true_iff.2 (.inl (ihP hu h))
    · refine Bool.or_eq_true_iff.2 (.inr (Bool.and_eq_true_iff.2 ⟨?_, ihQ hv h⟩))
      exact mayPass_of_mem use give hu hp
  | star P ih =>
    obtain ⟨L, rfl, hL⟩ := Language.mem_kstar.1 hw
    -- the first factor that does anything uses the thing
    induction L with
    | nil => cases h
    | cons u L ihL =>
      rw [List.flatten_cons, usesFirst_append, Bool.or_eq_true_iff, Bool.and_eq_true_iff] at h
      rcases h with h | ⟨_, h⟩
      · exact ih (hL u List.mem_cons_self) h
      · have hL' : ∀ y ∈ L, y ∈ P.matches' := fun y hy => hL y (List.mem_cons_of_mem _ hy)
        exact ihL hL' (Language.join_mem_kstar hL') h

end FirstUse
