import Mathlib.Algebra.Ring.Nat
import Mathlib.Data.List.Basic
import Mathlib.Logic.Function.Iterate

/-!
# Masks

A value under a mask stands for all words that agree with it on the bits of the mask.

* `Mask.agree_iff`: words agree on the bits of a mask when the masked words are equal.
* `Mask.compare_iff`: to mask one side only and compare is enough exactly when the other side has no
  bits outside the mask.
* `Mask.leading_ones`: the mask with the first bits set, as two loops build it in a wider word.
-/

namespace Mask

variable {w : Nat}

/-- `x` and `y` agree on the bits of `m`. -/
def Agree (m x y : BitVec w) : Prop := ∀ i < w, m.getMsbD i = true → x.getMsbD i = y.getMsbD i

/-- The first `n` bits of `m` are set and no others. -/
def Leading (n : Nat) (m : BitVec w) : Prop := ∀ i < w, m.getMsbD i = decide (i < n)

theorem agree_iff {m x y : BitVec w} : Agree m x y ↔ x &&& m = y &&& m := by
  constructor
  · intro h
    apply BitVec.eq_of_getMsbD_eq
    intro i hi
    rw [BitVec.getMsbD_and, BitVec.getMsbD_and]
    by_cases hm : m.getMsbD i = true
    · rw [h i hi hm]
    · simp [hm]
  · intro h i _ hm
    have hbit := congrArg (fun v => BitVec.getMsbD v i) h
    simpa [BitVec.getMsbD_and, hm] using hbit

/-- **To mask one side only** is to compare under the mask exactly when the other side is in it. -/
theorem compare_iff {m a : BitVec w} : (∀ x, x &&& m = a ↔ Agree m x a) ↔ a &&& m = a := by
  simp only [agree_iff]
  constructor
  · intro h
    exact (h a).2 rfl
  · intro h x
    rw [h]

theorem Leading.unique {n : Nat} {m m' : BitVec w} (h : Leading n m) (h' : Leading n m') :
    m = m' :=
  BitVec.eq_of_getMsbD_eq fun i hi => (h i hi).trans (h' i hi).symm

/-! ## Building a mask -/

/-- `n` ones are shifted in at the end of a word. -/
def ones (w n : Nat) : BitVec w := (fun b : BitVec w => b <<< 1 + 1)^[n] 0

/-- `n` zeros are shifted in. -/
def zeros (n : Nat) (b : BitVec w) : BitVec w := (fun b : BitVec w => b <<< 1)^[n] b

theorem toNat_ones (w n : Nat) : (ones w n).toNat = (2 ^ n - 1) % 2 ^ w := by
  induction n with
  | zero => simp [ones]
  | succ n ih =>
    have hstep : ones w (n + 1) = ones w n <<< 1 + 1 := Function.iterate_succ_apply' _ n _
    have hpos := Nat.two_pow_pos n
    have hnum : (2 ^ n - 1) * 2 + 1 = 2 ^ (n + 1) - 1 := by
      rw [Nat.pow_succ]
      omega
    have hone : (1 : BitVec w).toNat = 1 % 2 ^ w := BitVec.toNat_ofNat 1 w
    rw [hstep, BitVec.toNat_add, BitVec.toNat_shiftLeft, ih, hone, Nat.shiftLeft_eq, ← hnum]
    simp only [Nat.mod_add_mod, Nat.add_mod_mod, Nat.mod_mul_mod, Nat.pow_one]

theorem toNat_zeros (n : Nat) (b : BitVec w) : (zeros n b).toNat = b.toNat * 2 ^ n % 2 ^ w := by
  induction n with
  | zero => simp [zeros, Nat.mod_eq_of_lt b.isLt]
  | succ n ih =>
    have hstep : zeros (n + 1) b = zeros n b <<< 1 := Function.iterate_succ_apply' _ n _
    rw [hstep, BitVec.toNat_shiftLeft, ih, Nat.shiftLeft_eq, Nat.mod_mul_mod, Nat.pow_one,
      Nat.pow_succ, Nat.mul_assoc]

/-- **The mask of the first `n` bits**, built in a word that is wide enough. -/
theorem leading_ones {k n : Nat} (hk : k ≤ w) (hn : n ≤ k) :
    Leading n ((zeros (k - n) (ones w n)).setWidth k) := by
  have hlt : (2 ^ n - 1) * 2 ^ (k - n) < 2 ^ k := by
    have hsplit : 2 ^ k = 2 ^ n * 2 ^ (k - n) := by rw [← Nat.pow_add]; congr 1; omega
    rw [hsplit]
    have := Nat.two_pow_pos n
    exact Nat.mul_lt_mul_of_pos_right (by omega) (Nat.two_pow_pos _)
  have hle : 2 ^ k ≤ 2 ^ w := Nat.pow_le_pow_right (by omega) hk
  have hnum : ((zeros (k - n) (ones w n)).setWidth k).toNat = (2 ^ n - 1) * 2 ^ (k - n) := by
    rw [BitVec.toNat_setWidth, toNat_zeros, toNat_ones, Nat.mod_mul_mod,
      Nat.mod_eq_of_lt (Nat.lt_of_lt_of_le hlt hle), Nat.mod_eq_of_lt hlt]
  intro i hi
  rw [BitVec.getMsbD_eq_getLsbD, BitVec.getLsbD, hnum, Nat.testBit_mul_two_pow,
    Nat.testBit_two_pow_sub_one]
  simp only [hi, decide_true, Bool.true_and, ← Bool.decide_and, decide_eq_decide]
  omega

end Mask
