import Mathlib.Computability.Language
import NfsRods.Lib.Prog

/-!
# Programs that follow a language

What a run of a program has done may be described by a word over some steps of interest. `r s u s'`
says that the word `u` describes the run from `s` to `s'`; a program follows a language if each of
its runs is described by a word of the language, or by the beginning of one when it stops.

* `Prog.Follows.bind`: one program after another follows the product of their languages.
* `Prog.Follows.quiet`: a program with nothing to describe may come before.
* `Prog.Follows.skip`: a part of the language that has the empty word may be left out.
-/

namespace Prog

variable {σ ε α β A : Type}

/-- A run that does nothing has the empty word, and words of two runs in a row are put together. -/
class Describes (r : σ → List A → σ → Prop) : Prop where
  nil : ∀ s, r s [] s
  append : ∀ {s s' s'' u v}, r s u s' → r s' v s'' → r s (u ++ v) s''

/-- Every run of the program is described by a word of the language. -/
structure Follows (r : σ → List A → σ → Prop) (c : Language A) (m : Prog σ ε α) : Prop where
  live : σ → ∃ u, u ∈ c
  ok : ∀ s a s', m s = (.ok a, s') → ∃ u ∈ c, r s u s'
  stop : ∀ s e s', m s = (.error e, s') → ∃ u v, u ++ v ∈ c ∧ r s u s'

/-- The program has nothing to describe. -/
abbrev Quiet (r : σ → List A → σ → Prop) (m : Prog σ ε α) : Prop := Frame (r · [] ·) m

namespace Follows

variable {r : σ → List A → σ → Prop} {c d : Language A} {m : Prog σ ε α} {f : α → Prog σ ε β}

theorem mono (h : Follows r c m) (hcd : ∀ u ∈ c, u ∈ d) : Follows r d m where
  live s := (h.live s).imp fun u hu => hcd u hu
  ok s a s' hm := (h.ok s a s' hm).imp fun u hu => hu.imp_left fun hu => hcd u hu
  stop s e s' hm := by
    obtain ⟨u, v, huv, hr⟩ := h.stop s e s' hm
    exact ⟨u, v, hcd _ huv, hr⟩

/-- However the program ends, the same word describes it. -/
theorem of_word {u : List A} (hu : u ∈ c) (h : ∀ s, r s u (m s).2) : Follows r c m where
  live _ := ⟨u, hu⟩
  ok s a s' hm := ⟨u, hu, by have := h s; rwa [hm] at this⟩
  stop s e s' hm := ⟨u, [], by rwa [List.append_nil], by have := h s; rwa [hm] at this⟩

/-- A program with nothing to describe follows a language that has the empty word. -/
theorem of_quiet (h : Quiet r m) (hc : [] ∈ c) : Follows r c m := of_word hc h

theorem ite {p : Prop} [Decidable p] {n : Prog σ ε α} (hm : p → Follows r c m)
    (hn : ¬ p → Follows r c n) : Follows r c (if p then m else n) := by
  split
  · exact hm ‹_›
  · exact hn ‹_›

section
variable [Describes r]

theorem pure (a : α) (hc : [] ∈ c) : Follows r c (pure a : Prog σ ε α) :=
  of_quiet (fun s => Describes.nil s) hc

/-- One after the other. -/
theorem bind [Nonempty α] (hm : Follows r c m) (hf : ∀ a, Follows r d (f a)) :
    Follows r (c * d) (m >>= f) where
  live s := by
    obtain ⟨u, hu⟩ := hm.live s
    obtain ⟨v, hv⟩ := (hf (Classical.arbitrary α)).live s
    exact ⟨u ++ v, Language.append_mem_mul hu hv⟩
  ok s b s'' h := by
    obtain ⟨a, s', hm', hf'⟩ := bind_eq_ok h
    obtain ⟨u, hu, hru⟩ := hm.ok s a s' hm'
    obtain ⟨v, hv, hrv⟩ := (hf a).ok s' b s'' hf'
    exact ⟨u ++ v, Language.append_mem_mul hu hv, Describes.append hru hrv⟩
  stop s e s'' h := by
    rcases bind_eq_error h with hm' | ⟨a, s', hm', hf'⟩
    · obtain ⟨u, v, huv, hr⟩ := hm.stop s e s'' hm'
      obtain ⟨v', hv'⟩ := (hf (Classical.arbitrary α)).live s
      exact ⟨u, v ++ v', by rw [← List.append_assoc]; exact Language.append_mem_mul huv hv', hr⟩
    · obtain ⟨u, hu, hru⟩ := hm.ok s a s' hm'
      obtain ⟨v, v', hv, hrv⟩ := (hf a).stop s' e s'' hf'
      refine ⟨u ++ v, v', ?_, Describes.append hru hrv⟩
      rw [List.append_assoc]
      exact Language.append_mem_mul hu hv

/-- After a program with nothing to describe. -/
theorem quiet [Nonempty α] (hm : Quiet r m) (hf : ∀ a, Follows r c (f a)) :
    Follows r c (m >>= f) := by
  rw [← one_mul c]
  exact (of_quiet hm Language.nil_mem_one).bind hf

/-- Before programs with nothing to describe. -/
theorem last [Nonempty α] (hm : Follows r c m) (hf : ∀ a, Quiet r (f a)) :
    Follows r c (m >>= f) := by
  rw [← mul_one c]
  exact hm.bind fun a => of_quiet (hf a) Language.nil_mem_one

end

/-- The state is looked at. -/
theorem get {g : σ → Prog σ ε β} (h : ∀ s, Follows r c (g s)) : Follows r c (Prog.get >>= g) where
  live s := (h s).live s
  ok s := (h s).ok s
  stop s := (h s).stop s

/-- What is returned does not matter. -/
theorem map (h : Follows r c m) (g : α → β) :
    Follows r c (m >>= fun a => (Pure.pure (g a) : Prog σ ε β)) where
  live := h.live
  ok s b s' hb := by
    obtain ⟨a, s1, hm, hg⟩ := bind_eq_ok hb
    cases hg
    exact h.ok s a _ hm
  stop s e s' he := by
    rcases bind_eq_error he with hm | ⟨a, s1, hm, hg⟩
    · exact h.stop s e s' hm
    · cases hg

/-- A part of the language is left out. -/
theorem skip (hc : [] ∈ c) (h : Follows r d m) : Follows r (c * d) m :=
  h.mono fun u hu => by
    rw [← List.nil_append u]
    exact Language.append_mem_mul hc hu

theorem skip_last (hd : [] ∈ d) (h : Follows r c m) : Follows r (c * d) m :=
  h.mono fun u hu => by
    rw [← List.append_nil u]
    exact Language.append_mem_mul hu hd

/-- A step that any run may have taken before. -/
theorem cons {a : A} (ha : ∀ {s u s'}, r s u s' → r s (a :: u) s') (h : Follows r d m) :
    Follows r ({[a]} * d) m := by
  have hmem : ∀ u ∈ d, a :: u ∈ ({[a]} * d : Language A) := fun u hu =>
    Language.append_mem_mul (a := [a]) (Set.mem_singleton [a]) hu
  refine ⟨fun s => ?_, fun s x s' hm => ?_, fun s e s' hm => ?_⟩
  · obtain ⟨u, hu⟩ := h.live s
    exact ⟨a :: u, hmem u hu⟩
  · obtain ⟨u, hu, hr⟩ := h.ok s x s' hm
    exact ⟨a :: u, hmem u hu, ha hr⟩
  · obtain ⟨u, v, huv, hr⟩ := h.stop s e s' hm
    exact ⟨a :: u, v, hmem _ huv, ha hr⟩

theorem inl (h : Follows r c m) : Follows r (c + d) m := h.mono fun _ hu => .inl hu

theorem inr (h : Follows r d m) : Follows r (c + d) m := h.mono fun _ hu => .inr hu

end Follows

end Prog
