import Mathlib.Data.List.Infix

/-!
# Directory trees

A tree maps a path, the list of its components below some directory, to what is there: nothing, a
directory or something else, with an identity that outlives its name.

* `Dirs.cut`, `Dirs.add`: a name is removed, with everything below it, or added.
* `Dirs.Closed`: whatever there is is in a directory; then nothing is below what is not there.
* `Dirs.sweep`: the entries of a directory are removed one after the other; once all are gone the
  directory is `Bare` (`bare_sweep`) and can be cut itself (`cut_sweep`).
-/

/-- What a path leads to. -/
structure Node (ι : Type) where
  dir : Bool
  id : ι

/-- What the paths below a directory lead to. -/
abbrev Dirs (α ι : Type) : Type := List α → Option (Node ι)

namespace Dirs

variable {α ι : Type} [DecidableEq α]

/-- No directory. -/
def gone : Dirs α ι := fun _ => none

/-- The tree without `p` and what is below it. -/
def cut (t : Dirs α ι) (p : List α) : Dirs α ι := fun q => if p <+: q then none else t q

/-- The tree with `n` at `p`. -/
def add (t : Dirs α ι) (p : List α) (n : Node ι) : Dirs α ι :=
    fun q => if q = p then some n else t q

/-- The tree after the entries `as` of the directory `p` have been cut. -/
def sweep (t : Dirs α ι) (p : List α) (as : List α) : Dirs α ι :=
  as.foldl (fun t a => cut t (p ++ [a])) t

omit [DecidableEq α] in
/-- `p` is a directory. -/
def IsDir (t : Dirs α ι) (p : List α) : Prop := ∃ n, t p = some n ∧ n.dir = true

omit [DecidableEq α] in
/-- `p` is an empty directory. -/
def Bare (t : Dirs α ι) (p : List α) : Prop := IsDir t p ∧ ∀ a, t (p ++ [a]) = none

omit [DecidableEq α] in
/-- Everything is in a directory. -/
def Closed (t : Dirs α ι) : Prop := ∀ p a, t (p ++ [a]) ≠ none → IsDir t p

variable {t : Dirs α ι} {p q : List α}

/-! ## What is not there -/

omit [DecidableEq α] in
theorem IsDir.ne_none (h : IsDir t p) : t p ≠ none := by
  obtain ⟨n, hn, _⟩ := h
  rw [hn]
  exact Option.some_ne_none n

omit [DecidableEq α] in
theorem Closed.above (hc : Closed t) (p q : List α) (h : t (p ++ q) ≠ none) : t p ≠ none := by
  induction q using List.reverseRecOn with
  | nil => simpa using h
  | append_singleton q a ih =>
    rw [← List.append_assoc] at h
    exact ih (hc _ _ h).ne_none

omit [DecidableEq α] in
theorem Closed.below (hc : Closed t) (h : t p = none) (hq : p <+: q) : t q = none := by
  obtain ⟨r, rfl⟩ := hq
  by_contra hne
  exact hc.above p r hne h

omit [DecidableEq α] in
theorem Closed.all_none (hc : Closed t) (h : t [] = none) : t = gone :=
  funext fun _ => hc.below h List.nil_prefix

/-! ## Cutting -/

theorem cut_below (h : p <+: q) : cut t p q = none := if_pos h

theorem cut_other (h : ¬ p <+: q) : cut t p q = t q := if_neg h

@[simp] theorem cut_nil : cut t [] = gone := funext fun _ => cut_below List.nil_prefix

theorem cut_ne_none (h : cut t p q ≠ none) : ¬ p <+: q ∧ t q ≠ none := by
  by_cases hp : p <+: q
  · exact absurd (cut_below hp) h
  · exact ⟨hp, cut_other (t := t) hp ▸ h⟩

theorem Closed.cut (hc : Closed t) (p : List α) : Closed (cut t p) := by
  intro q a h
  obtain ⟨hp, hq⟩ := cut_ne_none h
  obtain ⟨n, hn, hd⟩ := hc q a hq
  refine ⟨n, ?_, hd⟩
  rw [cut_other fun hpq => hp (hpq.trans (List.prefix_append q [a]))]
  exact hn

/-! ## Sweeping -/

theorem sweep_snoc (as : List α) (a : α) :
    sweep t p (as ++ [a]) = cut (sweep t p as) (p ++ [a]) := by
  simp [sweep]

/-- What is left of the entries that have been cut, and of everything else. -/
theorem sweep_apply (as : List α) (q : List α) :
    ((∃ a ∈ as, p ++ [a] <+: q) ∧ sweep t p as q = none) ∨
      ((∀ a ∈ as, ¬ p ++ [a] <+: q) ∧ sweep t p as q = t q) := by
  induction as using List.reverseRecOn with
  | nil => exact .inr ⟨by simp, rfl⟩
  | append_singleton as a ih =>
    rw [sweep_snoc]
    by_cases hp : p ++ [a] <+: q
    · exact .inl ⟨⟨a, by simp, hp⟩, cut_below hp⟩
    · rw [cut_other hp]
      refine ih.imp (fun h => ⟨?_, h.2⟩) fun h => ⟨?_, h.2⟩
      · obtain ⟨b, hb, hbq⟩ := h.1
        exact ⟨b, by simp [hb], hbq⟩
      · intro b hb
        rcases List.mem_append.1 hb with hb | hb
        · exact h.1 b hb
        · rwa [List.mem_singleton.1 hb]

omit [DecidableEq α] in
theorem not_snoc_le (p : List α) (a : α) : ¬ p ++ [a] <+: p := by
  intro h
  have hlen := h.length_le
  rw [List.length_append, List.length_singleton] at hlen
  omega

/-- The directory itself stays. -/
theorem sweep_self (as : List α) : sweep t p as p = t p := by
  rcases sweep_apply (t := t) (p := p) as p with ⟨⟨a, _, h⟩, _⟩ | ⟨_, h⟩
  · exact absurd h (not_snoc_le p a)
  · exact h

/-- When all its entries have been cut the directory is empty. -/
theorem bare_sweep {as : List α} (h : IsDir t p) (hall : ∀ a, t (p ++ [a]) ≠ none → a ∈ as) :
    Bare (sweep t p as) p := by
  refine ⟨?_, fun a => ?_⟩
  · obtain ⟨n, hn, hd⟩ := h
    exact ⟨n, by rw [sweep_self, hn], hd⟩
  · rcases sweep_apply (t := t) (p := p) as (p ++ [a]) with ⟨_, h⟩ | ⟨hno, h⟩
    · exact h
    · rw [h]
      by_contra hne
      exact hno a (hall a hne) List.prefix_rfl

/-- Cutting the directory then is cutting it with all there was in it. -/
theorem cut_sweep (as : List α) : cut (sweep t p as) p = cut t p := by
  funext q
  by_cases hp : p <+: q
  · rw [cut_below hp, cut_below hp]
  · rw [cut_other hp, cut_other hp]
    rcases sweep_apply (t := t) (p := p) as q with ⟨⟨a, _, h⟩, _⟩ | ⟨_, h⟩
    · exact absurd ((List.prefix_append p [a]).trans h) hp
    · exact h

/-! ## Adding -/

@[simp] theorem add_self (t : Dirs α ι) (p : List α) (n : Node ι) : add t p n p = some n :=
    if_pos rfl

theorem add_other (n : Node ι) (h : q ≠ p) : add t p n q = t q := if_neg h

/-- A new entry of a directory. -/
theorem Closed.add {a : α} (hc : Closed t) (hd : IsDir t p) (h : t (p ++ [a]) = none) (n : Node ι) :
    Closed (add t (p ++ [a]) n) := by
  have hkeep : ∀ q, IsDir t q → IsDir (Dirs.add t (p ++ [a]) n) q := by
    rintro q ⟨m, hm, hmd⟩
    refine ⟨m, ?_, hmd⟩
    rw [add_other n fun hq => ?_, hm]
    rw [hq, h] at hm
    cases hm
  intro q b hb
  by_cases hq : q ++ [b] = p ++ [a]
  · rw [(List.append_inj' hq rfl).1]
    exact hkeep p hd
  · rw [add_other n hq] at hb
    exact hkeep q (hc q b hb)

end Dirs
