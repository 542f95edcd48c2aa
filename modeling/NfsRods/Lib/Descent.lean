import Mathlib.Data.List.Perm.Basic
import Mathlib.Logic.Function.Basic
import Mathlib.Order.Nat

/-!
# Depth-first search

A search of places, each with a list of entries. Looking at an entry either ends the search, leads
to another place or does neither. How many levels are left may decide what is seen.

* `search_meets`, `Meets.isSome`: the search ends with something that can be met, if anything can.
* `Meets.first`: whatever can be met is what the search ends with, in some order of the entries.
-/

namespace NfsRods.Descent

variable {P E R : Type}

/-- What looking at an entry comes to. -/
inductive Look (P R : Type)
  | found (r : R)
  | enter (q : P)
  | skip

section
variable (entries : P → List E) (look : Nat → P → E → Look P R)

/-- Search `n` levels from a place. -/
def search : Nat → P → Option R
  | 0, _ => none
  | n + 1, p => (entries p).findSome? fun e => match look n p e with
    | .found r => some r
    | .enter q => search n q
    | .skip => none

/-- The search can come to `r`, if it looks at the right entries. -/
inductive Meets : Nat → P → R → Prop
  | found {n : Nat} {p : P} {e : E} {r : R} (he : e ∈ entries p) (h : look n p e = .found r) :
    Meets (n + 1) p r
  | enter {n : Nat} {p q : P} {e : E} {r : R} (he : e ∈ entries p) (h : look n p e = .enter q)
    (hq : Meets n q r) : Meets (n + 1) p r

end

section
variable {entries entries' : P → List E} {look : Nat → P → E → Look P R} {n : Nat} {p : P} {r : R}

theorem search_meets (h : search entries look n p = some r) : Meets entries look n p r := by
  induction n generalizing p with
  | zero => cases h
  | succ n ih =>
    obtain ⟨e, he, h⟩ := List.exists_of_findSome?_eq_some h
    split at h
    · rename_i r' hlook
      rw [← Option.some.inj h]
      exact .found he hlook
    · rename_i q hlook
      exact .enter he hlook (ih h)
    · cases h

theorem Meets.isSome (h : Meets entries look n p r) : (search entries look n p).isSome := by
  induction h with
  | found he h =>
    rw [search, List.findSome?_isSome_iff]
    exact ⟨_, he, by rw [h]; rfl⟩
  | enter he h _ ih =>
    rw [search, List.findSome?_isSome_iff]
    exact ⟨_, he, by rw [h]; exact ih⟩

/-- What can be met does not depend on the order of the entries. -/
theorem Meets.reorder (hp : ∀ p, (entries' p).Perm (entries p)) (h : Meets entries look n p r) :
    Meets entries' look n p r := by
  induction h with
  | found he h => exact .found ((hp _).mem_iff.2 he) h
  | enter he h _ ih => exact .enter ((hp _).mem_iff.2 he) h ih

variable {size : P → Nat}

theorem search_congr (hgrow : ∀ n p e q, look n p e = .enter q → size p < size q)
    (h : ∀ q, size p ≤ size q → entries' q = entries q) :
    search entries' look n p = search entries look n p := by
  induction n generalizing p with
  | zero => rfl
  | succ n ih =>
    rw [search, search, h p le_rfl]
    refine congrArg (List.findSome? · _) (funext fun e => ?_)
    split
    · rfl
    · rename_i q hlook
      have hlt := hgrow n p e q hlook
      exact ih fun q' hq' => h q' (hlt.le.trans hq')
    · rfl

open Classical in
/-- **Some order of the entries** brings the search to `r` first; places that come before `p` keep
theirs. -/
theorem Meets.first (hgrow : ∀ n p e q, look n p e = .enter q → size p < size q)
    (h : Meets entries look n p r) : ∃ entries', (∀ q, (entries' q).Perm (entries q)) ∧
      (∀ q, size q < size p → entries' q = entries q) ∧ search entries' look n p = some r := by
  induction h with
  | @found n p e r he h =>
    refine ⟨Function.update entries p (e :: (entries p).erase e), fun q => ?_, fun q hq => ?_, ?_⟩
    · by_cases hqp : q = p
      · subst hqp
        rw [Function.update_self]
        exact (List.perm_cons_erase he).symm
      · rw [Function.update_of_ne hqp]
    · rw [Function.update_of_ne fun hqp => (hqp ▸ hq).false]
    · rw [search, Function.update_self, List.findSome?_cons, h]
  | @enter n p q e r he h hq ih =>
    obtain ⟨entries', hperm, hsame, hsearch⟩ := ih
    have hlt := hgrow n p e q h
    refine ⟨Function.update entries' p (e :: (entries p).erase e), fun q' => ?_,
      fun q' hq' => ?_, ?_⟩
    · by_cases hqp : q' = p
      · subst hqp
        rw [Function.update_self]
        exact (List.perm_cons_erase he).symm
      · rw [Function.update_of_ne hqp]
        exact hperm q'
    · rw [Function.update_of_ne fun hqp => (hqp ▸ hq').false, hsame q' (hq'.trans hlt)]
    · have hdown : search (Function.update entries' p (e :: (entries p).erase e)) look n q =
        some r := by
        rw [← hsearch]
        refine search_congr hgrow fun q' hq' => Function.update_of_ne ?_ _ _
        rintro rfl
        omega
      rw [search, Function.update_self, List.findSome?_cons, h]
      simp only [hdown]

end

end NfsRods.Descent
