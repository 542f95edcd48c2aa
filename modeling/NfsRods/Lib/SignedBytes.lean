import Mathlib.Data.List.Basic
import Mathlib.Data.Nat.Bitwise

/-!
# Signed bytes combined into a word

`b0 | b1 << 8 | b2 << 16 | b3 << 24` of four values of type `char`, where `char` is signed: a byte
above `0x7F` is promoted to a negative number, whose higher bits are all set.

* `SignedBytes.combine_mod`: the low bits of the combination of some bytes.
* `SignedBytes.combine_inj`: two combinations are equal exactly when the bytes are up to the first
  one above `0x7F` (`significant`).
-/

namespace SignedBytes

/-- A `char` promoted to `int`. -/
def extend (b : UInt8) : UInt32 := if b < 128 then b.toUInt32 else b.toUInt32 ||| 0xffffff00

/-- Bytes combined, least significant first. -/
def combine : List UInt8 → UInt32
  | [] => 0
  | b :: bs => extend b ||| combine bs <<< 8

/-- The bytes up to the first one above `0x7F`. -/
def significant : List UInt8 → List UInt8
  | [] => []
  | b :: bs => if b < 128 then b :: significant bs else [b]

/-- The combination as a number of as many bytes: above a byte that is negative all bits are set. -/
def merge : List UInt8 → Nat
  | [] => 0
  | b :: bs => b.toNat + 256 * if b < 128 then merge bs else 2 ^ (8 * bs.length) - 1

theorem extend_of_lt {b : UInt8} (h : b < 128) : (extend b).toNat = b.toNat := by
  rw [extend, if_pos h]
  rfl

/-- A byte below and a number above it do not overlap. -/
theorem or_mul_256 {b : Nat} (h : b < 256) (y : Nat) : b ||| 256 * y = b + 256 * y := by
  have := Nat.two_pow_add_eq_or_of_lt (i := 8) h y
  rw [Nat.or_comm, Nat.add_comm]
  exact this.symm

theorem extend_of_not_lt {b : UInt8} (h : ¬ b < 128) :
    (extend b).toNat = b.toNat + 256 * (2 ^ 24 - 1) := by
  have hb : b.toNat < 256 := b.toNat_lt
  rw [extend, if_neg h, ← or_mul_256 hb]
  rfl

theorem shift_shift {c x y : UInt32} (h : x.toNat + y.toNat < 32) : c <<< x <<< y = c <<< (x + y) :=
  (UInt32.shiftLeft_add_of_toNat_lt h).symm

/-- Four bytes, as they are written in C. -/
theorem combine_four (b0 b1 b2 b3 : UInt8) : combine [b0, b1, b2, b3] =
    extend b0 ||| extend b1 <<< 8 ||| extend b2 <<< 16 ||| extend b3 <<< 24 := by
  have h16 : ∀ c : UInt32, c <<< 8 <<< 8 = c <<< 16 := fun c => shift_shift (by decide)
  have h24 : ∀ c : UInt32, c <<< 16 <<< 8 = c <<< 24 := fun c => shift_shift (by decide)
  have hzero : (0 : UInt32) <<< 8 = 0 := by decide
  simp only [combine, hzero, UInt32.shiftLeft_or, UInt32.or_zero, h16, h24, UInt32.or_assoc]

/-- Bits that are all set absorb what is combined with them. -/
theorem ones_or {n y : Nat} (h : y < 2 ^ n) : (2 ^ n - 1) ||| y = 2 ^ n - 1 := by
  apply Nat.eq_of_testBit_eq
  intro i
  rw [Nat.testBit_or, Nat.testBit_two_pow_sub_one]
  by_cases hi : i < n
  · simp [hi]
  · have hy : y.testBit i = false :=
      Nat.testBit_lt_two_pow (lt_of_lt_of_le h (Nat.pow_le_pow_right (by omega) (by omega)))
    simp [hi, hy]

theorem pow_cons (b : UInt8) (bs : List UInt8) :
    2 ^ (8 * (b :: bs).length) = 256 * 2 ^ (8 * bs.length) := by
  rw [List.length_cons, Nat.mul_succ, Nat.pow_add, Nat.mul_comm]

theorem add_mul_mod {b : Nat} (h : b < 256) (y m : Nat) :
    (b + 256 * y) % (256 * m) = b + 256 * (y % m) := by
  rw [Nat.mod_mul, Nat.add_mul_mod_self_left, Nat.mod_eq_of_lt h,
    Nat.add_mul_div_left _ _ (by decide), Nat.div_eq_of_lt h, Nat.zero_add]

theorem ones_mod {k n : Nat} (h : k ≤ n) : (2 ^ n - 1) % 2 ^ k = 2 ^ k - 1 := by
  apply Nat.eq_of_testBit_eq
  intro i
  rw [Nat.testBit_mod_two_pow, Nat.testBit_two_pow_sub_one, Nat.testBit_two_pow_sub_one]
  by_cases hi : i < k
  · simp [hi, lt_of_lt_of_le hi h]
  · simp [hi]

theorem toNat_shift (c : UInt32) : (c <<< 8).toNat = 256 * (c.toNat % 2 ^ 24) := by
  rw [UInt32.toNat_shiftLeft, Nat.shiftLeft_eq]
  change c.toNat * 256 % (2 ^ 24 * 256) = _
  rw [Nat.mul_mod_mul_right, Nat.mul_comm]

/-- A negative byte sets all bits above it. -/
theorem extend_absorbs {b : UInt8} (h : ¬ b < 128) (c : UInt32) :
    (extend b).toNat ||| (c <<< 8).toNat = b.toNat + 256 * (2 ^ 24 - 1) := by
  have hb : b.toNat < 256 := b.toNat_lt
  have hshift : ∀ y, 256 * y = y <<< 8 := fun y => by rw [Nat.shiftLeft_eq, Nat.mul_comm]
  have hy : c.toNat % 2 ^ 24 < 2 ^ 24 := Nat.mod_lt _ (Nat.two_pow_pos 24)
  rw [extend_of_not_lt h, toNat_shift, ← or_mul_256 hb, Nat.or_assoc, hshift, hshift,
    ← Nat.shiftLeft_or_distrib, ones_or hy]

/-- The bits that the combination of some bytes has below their number. -/
theorem combine_mod {l : List UInt8} (h : l.length ≤ 4) :
    (combine l).toNat % 2 ^ (8 * l.length) = merge l := by
  induction l with
  | nil => rfl
  | cons b bs ih =>
    rw [List.length_cons] at h
    have hb : b.toNat < 256 := b.toNat_lt
    have hle : 8 * bs.length ≤ 24 := by omega
    rw [combine, UInt32.toNat_or, pow_cons, merge]
    by_cases hlt : b < 128
    · rw [extend_of_lt hlt, toNat_shift, or_mul_256 hb, add_mul_mod hb,
        Nat.mod_mod_of_dvd _ (Nat.pow_dvd_pow 2 hle), ih (by omega), if_pos hlt]
    · rw [extend_absorbs hlt, add_mul_mod hb, ones_mod hle, if_neg hlt]

/-- As numbers of as many bytes, combinations are equal when the significant bytes are. -/
theorem merge_inj {l l' : List UInt8} (h : l.length = l'.length) :
    merge l = merge l' ↔ significant l = significant l' := by
  induction l generalizing l' with
  | nil =>
    obtain rfl := List.length_eq_zero_iff.1 h.symm
    exact iff_of_true rfl rfl
  | cons b bs ih =>
    obtain ⟨b', bs', rfl⟩ := List.exists_cons_of_length_eq_add_one h.symm
    have hlen : bs.length = bs'.length := by simpa using h
    have hb : b.toNat < 256 := b.toNat_lt
    have hb' : b'.toNat < 256 := b'.toNat_lt
    rw [merge, merge, significant, significant]
    by_cases hne : b = b'
    · subst hne
      by_cases hlt : b < 128
      · simp only [if_pos hlt, List.cons.injEq, true_and]
        rw [← ih hlen]
        omega
      · simp only [if_neg hlt, hlen]
    · have hnat : b.toNat ≠ b'.toNat := fun h => hne (UInt8.toNat_inj.1 h)
      refine iff_of_false (by omega) fun hs => hne ?_
      have hhead := congrArg List.head? hs
      split at hhead <;> split at hhead <;> simpa using hhead

/-- **Words are told apart by their significant bytes.** -/
theorem combine_inj {l l' : List UInt8} (h : l.length = 4) (h' : l'.length = 4) :
    combine l = combine l' ↔ significant l = significant l' := by
  rw [← merge_inj (h.trans h'.symm), ← combine_mod h.le, ← combine_mod h'.le, h, h']
  have hw := (combine l).toNat_lt
  have hw' := (combine l').toNat_lt
  rw [Nat.mod_eq_of_lt hw, Nat.mod_eq_of_lt hw', UInt32.toNat_inj]

end SignedBytes
