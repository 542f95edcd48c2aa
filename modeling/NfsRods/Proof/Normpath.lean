import NfsRods.Config.Parse
import NfsRods.Lib.CBuf
import NfsRods.Proof.Canonical
import NfsRods.Proof.RecMkdir

/-!
# The normal form of a path

`normpath` copies a path byte by byte, looks one byte ahead to leave out all but the last of several
separators, and takes a separator off the end.

* `normpathBuf_run`: the loop over buffers computes `normpath`, within the buffers.
* `normpath_eq`: the result is the path of the components of its argument.
* `normpath_canonical`: so it is a normal form for absolute paths with the same components.
-/

namespace NfsRods

open CStr
open CBuf (Buf str)
open Sandbox.Folders (steps)

/-! ## The loop -/

/-- The loop of `normpath`: `src` from `p` on, and `n` as an offset. -/
def normpathLoop : Buf → Buf → Nat → Option (Buf × Nat)
  | [], _, _ => none
  | b :: src, dst, n =>
    if b = 0 then some (dst, n)
    -- the byte ahead is read behind a separator only
    else if b = slash ∧ src = [] then none
    else if b = slash ∧ src.head? = some slash then normpathLoop src dst n
    else if n < dst.length then normpathLoop src (dst.set n b) (n + 1)
    else none

/-- `normpath` on buffers. -/
def normpathBuf (src dst : Buf) : Option Buf := do
  let (dst, n) ← normpathLoop src dst 0
  if n < dst.length then
    let dst := dst.set n 0
    if 1 < n ∧ dst[n - 1]? = some slash then some (dst.set (n - 1) 0) else some dst
  else none

theorem squeeze_cons (b : UInt8) (s : CStr) : squeeze (b :: s) =
    if b = slash ∧ s.head? = some slash then squeeze s else b :: squeeze s := by
  cases s with
  | nil => simp [squeeze]
  | cons c s => simp [squeeze]

/-- Behind what is written already the loop writes the squeezed path. -/
theorem normpathLoop_run {s : CStr} (hs : 0 ∉ s) (rest done tail : Buf)
    (hlen : s.length < tail.length) :
    ∃ x tail', normpathLoop (s ++ 0 :: rest) (done ++ tail) done.length =
        some (done ++ squeeze s ++ x :: tail', (done ++ squeeze s).length) ∧
      (squeeze s ++ x :: tail').length = tail.length := by
  induction s generalizing done tail with
  | nil =>
    obtain ⟨x, tail, rfl⟩ := List.exists_cons_of_length_pos hlen
    exact ⟨x, tail, by simp [normpathLoop, squeeze], by simp [squeeze]⟩
  | cons b s ih =>
    rw [List.mem_cons, not_or] at hs
    have hahead : (s ++ 0 :: rest).head? = some slash ↔ s.head? = some slash := by
      cases s with
      | nil => simp [slash]
      | cons c s => simp
    rw [List.cons_append, normpathLoop, if_neg (Ne.symm hs.1), if_neg (by simp), squeeze_cons]
    by_cases hskip : b = slash ∧ s.head? = some slash
    · rw [if_pos (hskip.imp_right hahead.2), if_pos hskip]
      exact ih hs.2 done tail (by simp at hlen; omega)
    · rw [if_neg fun h => hskip (h.imp_right hahead.1), if_neg hskip]
      obtain ⟨y, tail, rfl⟩ := List.exists_cons_of_length_pos (Nat.zero_lt_of_lt hlen)
      have hset : (done ++ y :: tail).set done.length b = (done ++ [b]) ++ tail := by simp
      rw [if_pos (by simp), hset]
      obtain ⟨x, tail', hrun, htail⟩ := ih hs.2 (done ++ [b]) tail (by simpa using hlen)
      rw [List.length_append, List.length_singleton] at hrun
      refine ⟨x, tail', ?_, by simp at htail ⊢; omega⟩
      rw [hrun]
      simp

theorem mem_squeeze {b : UInt8} {s : CStr} (h : b ∈ squeeze s) : b ∈ s := by
  induction s with
  | nil => exact h
  | cons c s ih =>
    rw [squeeze_cons] at h
    split at h
    · exact List.mem_cons_of_mem c (ih h)
    · rcases List.mem_cons.1 h with rfl | h
      · exact List.mem_cons_self
      · exact List.mem_cons_of_mem c (ih h)

/-- **`normpath` stays in its buffers** when the path is shorter than the second. -/
theorem normpathBuf_run {src dst : Buf} {s : CStr} (hsrc : str src 0 = some s)
    (hlen : s.length < dst.length) :
    ∃ b, normpathBuf src dst = some b ∧ b.length = dst.length ∧ str b 0 = some (normpath s) := by
  obtain ⟨rest, rfl, hs⟩ := CBuf.str_ends hsrc
  obtain ⟨x, tail, hrun, htail⟩ := normpathLoop_run hs rest [] dst hlen
  have hnul : 0 ∉ squeeze s := fun h => hs (mem_squeeze h)
  simp only [List.nil_append, List.length_nil] at hrun
  have hend : (squeeze s ++ x :: tail).set (squeeze s).length 0 = squeeze s ++ 0 :: tail := by simp
  have hin : (squeeze s).length < (squeeze s ++ x :: tail).length := by simp
  rw [normpathBuf, hrun, Option.bind_eq_bind, Option.bind_some]
  dsimp only
  rw [if_pos hin, hend, normpath]
  by_cases hcut : 1 < (squeeze s).length ∧ (squeeze s).getLast? = some slash
  · obtain ⟨t, ht⟩ := List.getLast?_eq_some_iff.1 hcut.2
    rw [if_pos, if_pos (by simpa using hcut), ht, List.dropLast_concat]
    · refine ⟨_, rfl, by rw [← htail, ht]; simp, ?_⟩
      have hset : (t ++ [slash] ++ 0 :: tail).set ((t ++ [slash]).length - 1) 0 =
          t ++ 0 :: 0 :: tail := by simp
      rw [hset]
      exact CBuf.str_here (fun h => hnul (by simp [ht, h])) _
    · rw [ht] at hcut ⊢
      exact ⟨hcut.1, by simp⟩
  · rw [if_neg, if_neg (by simpa using hcut)]
    · exact ⟨_, rfl, by rw [← htail]; simp, CBuf.str_here hnul tail⟩
    · rintro ⟨hlong, hlast⟩
      apply hcut
      rw [List.getElem?_append_left (by omega)] at hlast
      exact ⟨hlong, by rw [List.getLast?_eq_getElem?, hlast]⟩

/-! ## The components -/

theorem component_of_mem {s c : CStr} (hc : c ∈ steps s) : Component c := by
  refine ⟨fun h => ?_, fun h => ?_⟩
  · subst h
    simp [steps] at hc
  · have hflat : slash ∈ (steps s).flatten := List.mem_flatten.2 ⟨c, hc, h⟩
    rw [Folders.flatten_steps] at hflat
    simp at hflat

/-- The components of a path that begins with a separator, by the first of them. -/
theorem steps_head {c rest : CStr} (hc : slash ∉ c) (hrest : rest = [] ∨ rest.head? = some slash) :
    steps (slash :: (c ++ rest)) = (if c = [] then [] else [c]) ++ steps rest := by
  have hcut := Folders.steps_append [] (c ++ rest)
  change steps (slash :: (c ++ rest)) = [] ++ steps (c ++ rest) at hcut
  rw [hcut, List.nil_append, ← Folders.steps_slashless hc]
  rcases hrest with rfl | hrest
  · simp [steps]
  · obtain ⟨r, rfl⟩ := List.head?_eq_some_iff.1 hrest
    have hrest := Folders.steps_append [] r
    have happ := Folders.steps_append c r
    simp only [root, List.append_assoc, List.singleton_append, List.nil_append] at hrest happ
    rw [happ, hrest]
    simp [steps]

theorem steps_dirPath {cs : List CStr} (hcs : ∀ c ∈ cs, Component c) : steps (dirPath cs) = cs := by
  have hpath : steps (pathOf cs) = cs := by
    induction cs using List.reverseRecOn with
    | nil => rfl
    | append_singleton cs c ih =>
      have hc : Component c := hcs c (by simp)
      rw [pathOf_snoc, Folders.steps_append, ih fun x hx => hcs x (by simp [hx]),
        Folders.steps_slashless hc.slashless, if_neg hc.nonempty]
  unfold dirPath
  split
  · rename_i hnil
    rw [hnil]
    decide
  · exact hpath

/-! ## The normal form -/

theorem head_squeeze (s : CStr) : (squeeze s).head? = s.head? := by
  induction s with
  | nil => rfl
  | cons b s ih =>
    rw [squeeze_cons]
    split
    · rename_i hskip
      rw [ih, hskip.1, hskip.2]
      rfl
    · rfl

theorem squeeze_slashless {c : CStr} (hc : slash ∉ c) (s : CStr) :
    squeeze (c ++ s) = c ++ squeeze s := by
  induction c with
  | nil => rfl
  | cons b c ih =>
    rw [List.mem_cons, not_or] at hc
    rw [List.cons_append, squeeze_cons, if_neg fun h => hc.1 h.1.symm, ih hc.2, List.cons_append]

/-- What the squeezed path keeps of separators at the end. -/
def trailing (s : CStr) : CStr := if s.getLast? = some slash then root else []

/-- A squeezed path is that of its components, but for its end. -/
theorem squeeze_eq {s : CStr} (hs : s.head? = some slash) :
    squeeze s = pathOf (steps s) ++ trailing s := by
  induction hn : s.length using Nat.strong_induction_on generalizing s with
  | _ n ih =>
    obtain ⟨t, rfl⟩ := List.head?_eq_some_iff.1 hs
    obtain ⟨c, rest, rfl, hc, hrest⟩ : ∃ c rest, t = c ++ rest ∧ slash ∉ c ∧
        (rest = [] ∨ rest.head? = some slash) := by
      refine ⟨t.takeWhile (· ≠ slash), t.dropWhile (· ≠ slash),
        List.takeWhile_append_dropWhile.symm, fun h => ?_, ?_⟩
      · simpa using List.mem_takeWhile_imp h
      · have hhead := List.head?_dropWhile_not (fun b : UInt8 => decide (b ≠ slash)) t
        cases hd : t.dropWhile (· ≠ slash) with
        | nil => exact .inl rfl
        | cons b rest =>
          rw [hd] at hhead
          exact .inr (by simpa using hhead)
    rw [steps_head hc hrest]
    rcases hrest with rfl | hrest
    · by_cases hnil : c = []
      · subst hnil
        decide
      · have hlast : (slash :: c).getLast? ≠ some slash := by
          intro h
          rw [List.getLast?_cons_of_ne_nil hnil] at h
          exact hc (List.mem_of_getLast? h)
        have hhead : c.head? ≠ some slash := fun h => hc (List.mem_of_head? h)
        have hend := squeeze_slashless hc []
        simp only [List.append_nil] at hend ⊢
        rw [squeeze_cons, if_neg fun h => hhead h.2, hend, trailing, if_neg hlast, if_neg hnil]
        simp [steps, pathOf, root, squeeze]
    · have hne : rest ≠ [] := by
        rintro rfl
        cases hrest
      have hlast : trailing (slash :: (c ++ rest)) = trailing rest := by
        rw [← List.cons_append, trailing, trailing, List.getLast?_append_of_ne_nil _ hne]
      have hrec := ih rest.length (by simp at hn; omega) hrest rfl
      rw [hlast, squeeze_cons, squeeze_slashless hc, hrec]
      by_cases hnil : c = []
      · subst hnil
        rw [List.nil_append, if_pos ⟨rfl, hrest⟩]
        rfl
      · have hhead : (c ++ rest).head? ≠ some slash := by
          intro h
          rw [List.head?_append_of_ne_nil _ hnil] at h
          exact hc (List.mem_of_head? h)
        rw [if_neg fun h => hhead h.2, if_neg hnil, pathOf_append]
        simp [pathOf, root]

/-- **The normal form** of an absolute path is the path of its components. -/
theorem normpath_eq {s : CStr} (hs : s.head? = some slash) : normpath s = dirPath (steps s) := by
  have hcomp : ∀ c ∈ steps s, Component c := fun c hc => component_of_mem hc
  have hsq := squeeze_eq hs
  have hhead := (head_squeeze s).trans hs
  unfold normpath
  unfold trailing at hsq
  generalize steps s = cs at *
  rcases List.eq_nil_or_concat' cs with rfl | ⟨cs, c, rfl⟩
  · -- all that there is are separators
    split at hsq
    · rw [hsq]
      rfl
    · rw [hsq] at hhead
      cases hhead
  · have hc : Component c := hcomp c (by simp)
    have hdir : dirPath (cs ++ [c]) = pathOf (cs ++ [c]) := if_neg (by simp)
    rw [hdir]
    split at hsq
    · have hcut : 1 < (squeeze s).length ∧ (squeeze s).getLast? = some slash := by
        rw [hsq, pathOf_snoc]
        refine ⟨?_, List.getLast?_concat⟩
        simp only [List.length_append, root, List.length_singleton]
        omega
      rw [if_pos (by simpa using hcut), hsq]
      simp [root]
    · have hend : (squeeze s).getLast? ≠ some slash := by
        intro h
        rw [hsq, List.append_nil, pathOf_snoc, List.getLast?_append_of_ne_nil _ hc.nonempty] at h
        exact hc.slashless (List.mem_of_getLast? h)
      rw [if_neg (by simp [hend]), hsq, List.append_nil]

/-- No separator of a squeezed path is followed by another. -/
theorem squeeze_chain (s : CStr) :
    (squeeze s).IsChain fun a b => ¬ (a = slash ∧ b = slash) := by
  induction s with
  | nil => exact .nil
  | cons b s ih =>
    rw [squeeze_cons]
    split
    · exact ih
    · rename_i hkeep
      refine List.isChain_cons.2 ⟨fun c hc h => hkeep ⟨h.1, ?_⟩, ih⟩
      rw [← head_squeeze, Option.mem_def.1 hc, h.2]

theorem normpath_le (s : CStr) : normpath s <+: squeeze s := by
  unfold normpath
  dsimp only
  split
  · exact List.dropLast_prefix _
  · exact List.prefix_rfl

theorem dirPath_getLast {cs : List CStr} (hcs : ∀ c ∈ cs, Component c)
    (h : (dirPath cs).getLast? = some slash) : dirPath cs = root := by
  unfold dirPath at h ⊢
  split
  · rfl
  · rename_i hne
    rw [if_neg hne] at h
    obtain ⟨ds, c, rfl⟩ := (List.eq_nil_or_concat' cs).resolve_left hne
    have hc : Component c := hcs c (by simp)
    rw [pathOf_snoc, List.getLast?_append_of_ne_nil _ hc.nonempty] at h
    exact absurd (List.mem_of_getLast? h) hc.slashless

/-- **`normpath` is canonical.** An absolute path shorter than the buffer gets a form in it without
two adjacent separators and without one at the end, but for the root itself, with the path's own
components, which is its own normal form; and another absolute path gets the same form exactly when
it has the same components. -/
theorem normpath_canonical {src dst : Buf} {s : CStr} (hsrc : str src 0 = some s)
    (habs : s.head? = some slash) (hlen : s.length < dst.length) :
    ∃ b n, normpathBuf src dst = some b ∧ str b 0 = some n ∧
      ¬ lit "//" <:+: n ∧ (n.getLast? = some slash → n = root) ∧ steps n = steps s ∧
      (∀ dst' : Buf, n.length < dst'.length →
        ∃ b', normpathBuf b dst' = some b' ∧ str b' 0 = some n) ∧
      ∀ (src' dst' : Buf) (t : CStr), str src' 0 = some t → t.head? = some slash →
        t.length < dst'.length →
        ∃ b' n', normpathBuf src' dst' = some b' ∧ str b' 0 = some n' ∧
          (n = n' ↔ steps s = steps t) := by
  obtain ⟨b, hrun, -, hb⟩ := normpathBuf_run hsrc hlen
  have hcomp : ∀ {t : CStr}, ∀ c ∈ steps t, Component c := fun c hc => component_of_mem hc
  have hsteps : ∀ {t : CStr}, t.head? = some slash → steps (normpath t) = steps t := by
    intro t ht
    rw [normpath_eq ht, steps_dirPath hcomp]
  have hidem : normpath (normpath s) = normpath s := by
    have hhead : (normpath s).head? = some slash := by
      rw [normpath_eq habs]
      unfold dirPath
      split
      · rfl
      · exact pathOf_head ‹_›
    rw [normpath_eq hhead, hsteps habs, normpath_eq habs]
  refine ⟨b, normpath s, hrun, hb, ?_, ?_, hsteps habs, ?_, ?_⟩
  · intro h
    obtain ⟨a, b, hab⟩ := h.trans (normpath_le s).isInfix
    have hchain := squeeze_chain s
    rw [← hab, List.append_assoc, List.isChain_append] at hchain
    simp [lit, slash, List.isChain_cons] at hchain
  · rw [normpath_eq habs]
    exact dirPath_getLast hcomp
  · intro dst' hlen'
    obtain ⟨b', hrun', -, hb'⟩ := normpathBuf_run hb hlen'
    exact ⟨b', hrun', by rw [hb', hidem]⟩
  · intro src' dst' t hsrc' ht hlen'
    obtain ⟨b', hrun', -, hb'⟩ := normpathBuf_run hsrc' hlen'
    refine ⟨b', normpath t, hrun', hb', fun h => ?_, fun h => ?_⟩
    · rw [← hsteps habs, h, hsteps ht]
    · rw [normpath_eq habs, normpath_eq ht, h]

/-- A path with blocks of separators at its start, in the middle and at its end. -/
theorem normpath_blocks : ∃ b n,
    normpathBuf (lit "///x///y/" ++ [0]) (List.replicate 10 1) = some b ∧ str b 0 = some n ∧
      n = lit "/x/y" ∧ steps n = steps (lit "///x///y/") := by
  obtain ⟨b, n, hrun, hb, -, -, hsteps, -, hiff⟩ := normpath_canonical
    (show str (lit "///x///y/" ++ [0]) 0 = some (lit "///x///y/") by decide) (by decide)
    (show (lit "///x///y/").length < (List.replicate 10 (1 : UInt8)).length by decide)
  have hval : (normpathBuf (lit "///x///y/" ++ [0]) (List.replicate 10 1)).bind (str · 0) =
      some (lit "/x/y") := by decide +kernel
  rw [hrun, Option.bind_some, hb] at hval
  exact ⟨b, n, hrun, hb, Option.some.inj hval, hsteps⟩

end NfsRods
