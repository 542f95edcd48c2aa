import Mathlib.Algebra.Ring.Nat
import Mathlib.Data.List.Basic

/-!
# Numbers in a buffer

Numbers of a fixed width in a list of bytes, least significant byte first, and reads of a buffer
that fail outside it.

* `Bytes.num_le`: a number is read back as it was written.
* `Bytes.read_isSome`: which reads are inside the buffer.
* `Bytes.read_append`: a read inside a buffer is not changed by what lies behind it.
* `Bytes.read_here`, `Bytes.read_later`: fields are read where they were written.
-/

namespace Bytes

/-- The `k` bytes of a number. -/
def le : Nat → Nat → List UInt8
  | 0, _ => []
  | k + 1, n => UInt8.ofNat (n % 256) :: le k (n / 256)

/-- The number that some bytes stand for. -/
def num : List UInt8 → Nat
  | [] => 0
  | b :: bs => b.toNat + 256 * num bs

/-- The `k` bytes at `off`, if the buffer has them. -/
def read (buf : List UInt8) (off k : Nat) : Option (List UInt8) :=
  if off + k ≤ buf.length then some ((buf.drop off).take k) else none

@[simp] theorem length_le (k n : Nat) : (le k n).length = k := by
  induction k generalizing n with
  | zero => rfl
  | succ k ih => rw [le, List.length_cons, ih]

theorem num_le (k n : Nat) : num (le k n) = n % 256 ^ k := by
  induction k generalizing n with
  | zero => simp [le, num, Nat.mod_one]
  | succ k ih =>
    have hbyte : (UInt8.ofNat (n % 256)).toNat = n % 256 := by simp
    rw [le, num, ih, hbyte, Nat.pow_succ', Nat.mod_mul]

theorem le_append (j k n : Nat) : le (j + k) n = le j n ++ le k (n / 256 ^ j) := by
  induction j generalizing n with
  | zero => rw [Nat.zero_add, Nat.pow_zero, Nat.div_one, le, List.nil_append]
  | succ j ih =>
    rw [Nat.succ_add, le, ih, le, Nat.div_div_eq_div_mul, ← Nat.pow_succ', List.cons_append]

/-- Only the digits that there is room for count. -/
theorem le_mod (k n : Nat) : le k (n % 256 ^ k) = le k n := by
  induction k generalizing n with
  | zero => rfl
  | succ k ih =>
    have hlow : n % 256 ^ (k + 1) % 256 = n % 256 :=
      Nat.mod_mod_of_dvd n ⟨256 ^ k, Nat.pow_succ'⟩
    have hhigh : n % 256 ^ (k + 1) / 256 = n / 256 % 256 ^ k := by
      rw [Nat.pow_succ', Nat.mod_mul_right_div_self]
    rw [le, le, hlow, hhigh, ih]

theorem read_isSome {buf : List UInt8} {off k : Nat} :
    (read buf off k).isSome ↔ off + k ≤ buf.length := by
  unfold read
  split <;> simp_all

theorem read_of_le {buf : List UInt8} {off k : Nat} (h : off + k ≤ buf.length) :
    read buf off k = some ((buf.drop off).take k) := if_pos h

/-- What is read inside a buffer does not depend on what lies behind it. -/
theorem read_append {buf : List UInt8} {off k : Nat} (h : off + k ≤ buf.length)
    (rest : List UInt8) : read (buf ++ rest) off k = read buf off k := by
  have hlong : off + k ≤ (buf ++ rest).length := by
    rw [List.length_append]
    omega
  rw [read_of_le h, read_of_le hlong, List.drop_append_of_le_length (by omega),
    List.take_append_of_le_length (by rw [List.length_drop]; omega)]

theorem read_before {buf : List UInt8} {off k : Nat} (h : off + k ≤ buf.length)
    (rest : List UInt8) : read buf off k = some (((buf ++ rest).drop off).take k) := by
  rw [← read_append h rest, read_of_le]
  rw [List.length_append]
  omega

/-- A field at the start of a buffer. -/
theorem read_here {field : List UInt8} {k : Nat} (h : field.length = k) (rest : List UInt8) :
    read (field ++ rest) 0 k = some field := by
  subst h
  rw [read_of_le (by simp), List.drop_zero, List.take_left]

/-- What comes after the first field. -/
theorem read_later {field : List UInt8} {n : Nat} (h : field.length = n) (rest : List UInt8)
    (off k : Nat) : read (field ++ rest) (n + off) k = read rest off k := by
  subst h
  unfold read
  rw [List.length_append, List.drop_length_add_append]
  by_cases hin : off + k ≤ rest.length
  · rw [if_pos hin, if_pos (by omega)]
  · rw [if_neg hin, if_neg (by omega)]

end Bytes
