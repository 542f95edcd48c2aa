import Mathlib.Data.List.TakeWhile
import NfsRods.Lib.CStr

/-!
# C strings in buffers

The functions of `string.h` and `stdio.h` on regions of memory of a fixed size. A call that reads or
writes outside a region has no result.

* `CBuf.str_here`: the string at the start of a region.
* `CBuf.strncpy_ends`, `CBuf.strncpy_cut`: a copy that reaches the end of the string is padded, one
  that does not is not terminated.
* `CBuf.snprintf_cut`: what is printed is cut to the size that is given.
-/

namespace CBuf

/-- A region of memory. -/
abbrev Buf := List UInt8

/-- A region of `n` bytes, with what was there before. -/
def fresh (m : Nat → UInt8) (n : Nat) : Buf := (List.range n).map m

/-- The string at an offset, if it is terminated in the region. -/
def str (b : Buf) (i : Nat) : Option CStr :=
  if 0 ∈ b.drop i then some ((b.drop i).takeWhile (· ≠ 0)) else none

/-- `strncpy (dst, src + i, n)`. -/
def strncpy (dst src : Buf) (i n : Nat) : Option Buf :=
  let s := ((src.drop i).take n).takeWhile (· ≠ 0)
  if n ≤ dst.length ∧ (s.length = n ∨ s.length < (src.drop i).length) then
    some (s ++ List.replicate (n - s.length) 0 ++ dst.drop n)
  else none

/-- `strcpy (dst, src)`. -/
def strcpy (dst src : Buf) : Option Buf := do
  let s ← str src 0
  if s.length + 1 ≤ dst.length then some (s ++ 0 :: dst.drop (s.length + 1)) else none

/-- `snprintf (dst, n, "BEFORE%sAFTER", src)`. -/
def snprintf (dst : Buf) (n : Nat) (before after : CStr) (src : Buf) : Option Buf := do
  let s ← str src 0
  let out := (before ++ s ++ after).take (n - 1)
  if n = 0 then some dst
  else if out.length + 1 ≤ dst.length then some (out ++ 0 :: dst.drop (out.length + 1))
  else none

@[simp] theorem length_fresh (m : Nat → UInt8) (n : Nat) : (fresh m n).length = n := by
  simp [fresh]

theorem ne_of_nul {s : CStr} (h : 0 ∉ s) : ∀ b ∈ s, decide (b ≠ 0) = true := by
  intro b hb
  apply decide_eq_true
  rintro rfl
  exact h hb

theorem takeWhile_end {s : CStr} (h : 0 ∉ s) (t : Buf) :
    (s ++ 0 :: t).takeWhile (· ≠ 0) = s := by
  rw [List.takeWhile_append_of_pos (ne_of_nul h)]
  simp

theorem str_here {s : CStr} (h : 0 ∉ s) (t : Buf) : str (s ++ 0 :: t) 0 = some s := by
  rw [str, List.drop_zero, if_pos (by simp), takeWhile_end h]

/-- A string in a region is terminated there. -/
theorem str_ends {b : Buf} {s : CStr} (h : str b 0 = some s) :
    ∃ t, b = s ++ 0 :: t ∧ 0 ∉ s := by
  rw [str, List.drop_zero] at h
  split at h
  · rename_i hmem
    have hs : b.takeWhile (· ≠ 0) = s := Option.some.inj h
    have hcut : s ++ b.dropWhile (· ≠ 0) = b := hs ▸ List.takeWhile_append_dropWhile
    have hnul : 0 ∉ s := by
      intro hn
      rw [← hs] at hn
      simpa using List.mem_takeWhile_imp hn
    cases hrest : b.dropWhile (· ≠ 0) with
    | nil =>
      rw [hrest, List.append_nil] at hcut
      exact absurd (hcut ▸ hmem) hnul
    | cons x t =>
      have hx := List.head?_dropWhile_not (fun c : UInt8 => decide (c ≠ 0)) b
      rw [hrest] at hx
      obtain rfl : x = 0 := by simpa using hx
      exact ⟨t, by rw [← hrest, hcut], hnul⟩
  · cases h

/-- A copy that reaches the end of the string. -/
theorem strncpy_ends (dst : Buf) {src : Buf} {i n : Nat} {s : CStr} {t : Buf} (hs : 0 ∉ s)
    (hsrc : src.drop i = s ++ 0 :: t) (hlen : s.length < n) (hn : n ≤ dst.length) :
    strncpy dst src i n = some (s ++ List.replicate (n - s.length) 0 ++ dst.drop n) := by
  have hcopy : ((src.drop i).take n).takeWhile (· ≠ 0) = s := by
    obtain ⟨k, hk⟩ : ∃ k, n - s.length = k + 1 := ⟨n - s.length - 1, by omega⟩
    rw [hsrc, List.take_append, List.take_of_length_le hlen.le, hk, List.take_succ_cons,
      takeWhile_end hs]
  have hin : s.length < (src.drop i).length := by
    rw [hsrc, List.length_append, List.length_cons]
    omega
  rw [strncpy, hcopy, if_pos ⟨hn, .inr hin⟩]

/-- A copy that stops before the end of the string. -/
theorem strncpy_cut (dst : Buf) {src : Buf} {i : Nat} {s : CStr} {t : Buf} (hs : 0 ∉ s)
    (hsrc : src.drop i = s ++ t) (hn : s.length ≤ dst.length) :
    strncpy dst src i s.length = some (s ++ dst.drop s.length) := by
  have hcopy : ((src.drop i).take s.length).takeWhile (· ≠ 0) = s := by
    rw [hsrc, List.take_left, List.takeWhile_eq_self_iff.2 (ne_of_nul hs)]
  rw [strncpy, hcopy, if_pos ⟨hn, .inl rfl⟩]
  simp

/-- What is printed is the string between two others, cut to the size. -/
theorem snprintf_cut (dst : Buf) {src : Buf} (n : Nat) {s : CStr} (before after : CStr)
    (hs : str src 0 = some s) (hbefore : 0 ∉ before) (hnul : 0 ∉ s) (hafter : 0 ∉ after)
    (hn : 0 < n) (hdst : n ≤ dst.length) : ∃ b, snprintf dst n before after src = some b ∧
      str b 0 = some ((before ++ s ++ after).take (n - 1)) := by
  have hout : 0 ∉ (before ++ s ++ after).take (n - 1) := by
    intro h
    have := List.mem_of_mem_take h
    simp [hbefore, hnul, hafter] at this
  have hlen : ((before ++ s ++ after).take (n - 1)).length + 1 ≤ dst.length := by
    rw [List.length_take]
    omega
  refine ⟨_, ?_, str_here hout (dst.drop (((before ++ s ++ after).take (n - 1)).length + 1))⟩
  show (str src 0).bind _ = _
  rw [hs, Option.bind_some, if_neg (by omega), if_pos hlen]

theorem strcpy_isSome {dst src : Buf} {s : CStr} (hs : str src 0 = some s) :
    (strcpy dst src).isSome ↔ s.length < dst.length := by
  show ((str src 0).bind _).isSome ↔ _
  rw [hs, Option.bind_some]
  split
  · rename_i h
    exact iff_of_true rfl h
  · rename_i h
    exact iff_of_false (by simp) h

/-- A copy that fits is the string. -/
theorem strcpy_ends {dst src : Buf} {s : CStr} (hs : str src 0 = some s) (h0 : 0 ∉ s)
    (hfit : s.length < dst.length) : ∃ b, strcpy dst src = some b ∧ str b 0 = some s := by
  refine ⟨s ++ 0 :: dst.drop (s.length + 1), ?_, str_here h0 _⟩
  show (str src 0).bind _ = _
  rw [hs, Option.bind_some]
  exact if_pos hfit

end CBuf
