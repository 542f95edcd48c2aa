import Mathlib.Data.List.Infix
import Mathlib.Data.Nat.Digits.Lemmas

/-!
# C strings

`CStr`: the bytes of a NUL-terminated string, without the terminator, so that `strlen` is
`List.length`, `strcat` is `++` and `strstr (s, t) == s` is `t <+: s`.

* `strstr s t`: `t` occurs somewhere in `s` (`List.IsInfix`).
* `decimal`, `decimalInt`: the digits `printf` writes for `%u` and `%d`; injective
  (`decimal_inj`, `decimalInt_inj`) and free of `'/'` (`slash_not_mem_decimal`).
* `Within e p`: the path `p` is `e` or lies below it, decided at component boundaries; `e = "/"`
  contains every path.
-/

/-- The bytes of a C string before its terminator. -/
abbrev CStr := List UInt8

namespace CStr

/-- The bytes of a (ASCII) string literal. -/
def lit (s : String) : CStr := s.toList.map fun c => c.toNat.toUInt8

/-- The path separator `'/'`. -/
def slash : UInt8 := 47

/-- The string `"/"`. -/
def root : CStr := [slash]

/-- A property of every byte of a string is checked on the bytes it has, not on all there are. -/
instance (priority := 1100) {p : UInt8 → Prop} [DecidablePred p] (s : CStr) :
    Decidable (∀ b ∈ s, p b) :=
  List.decidableBAll p s

/-- `strstr(s, t) != NULL`. -/
def strstr (s t : CStr) : Bool := decide (t <:+: s)

theorem strstr_iff {s t : CStr} : strstr s t = true ↔ t <:+: s := by simp [strstr]

theorem strstr_eq_false {s t : CStr} : strstr s t = false ↔ ¬ t <:+: s := by simp [strstr]

/-! ## Decimal digits -/

/-- `%u`: the decimal digits of `n`, most significant first. -/
def decimal (n : Nat) : CStr :=
  if n = 0 then [48] else (Nat.digits 10 n).reverse.map fun d => UInt8.ofNat (48 + d)

/-- `%d`: the decimal digits of `i` after its sign. -/
def decimalInt (i : Int) : CStr := if i < 0 then 45 :: decimal i.natAbs else decimal i.natAbs

/-- The byte of a digit. -/
theorem digit_toNat {d : Nat} (h : d < 10) : (UInt8.ofNat (48 + d)).toNat = 48 + d := by
  rw [UInt8.toNat_ofNat']
  omega

/-- Every byte of a decimal number is a digit. -/
theorem mem_decimal {n : Nat} {b : UInt8} (h : b ∈ decimal n) : 48 ≤ b.toNat ∧ b.toNat ≤ 57 := by
  unfold decimal at h
  split at h
  · simp only [List.mem_singleton] at h
    subst h
    decide
  · simp only [List.map_reverse, List.mem_reverse, List.mem_map] at h
    obtain ⟨d, hd, rfl⟩ := h
    have := Nat.digits_lt_base (by decide : 1 < 10) hd
    rw [digit_toNat this]
    omega

theorem slash_not_mem_decimal (n : Nat) : slash ∉ decimal n := by
  intro h
  have := (mem_decimal h).1
  exact absurd this (by decide)

/-- The value of a list of digit bytes, most significant first. -/
def value (s : CStr) : Nat := Nat.ofDigits 10 (s.reverse.map fun b => b.toNat - 48)

theorem value_decimal (n : Nat) : value (decimal n) = n := by
  unfold value decimal
  split
  · rename_i h
    subst h
    decide
  · rw [← List.map_reverse, List.reverse_reverse, List.map_map]
    have hid : (Nat.digits 10 n).map ((fun b => b.toNat - 48) ∘ fun d => UInt8.ofNat (48 + d)) =
        Nat.digits 10 n := by
      conv_rhs => rw [← List.map_id (Nat.digits 10 n)]
      refine List.map_congr_left fun d hd => ?_
      have := Nat.digits_lt_base (by decide : 1 < 10) hd
      simp only [Function.comp, digit_toNat this, id]
      omega
    rw [hid, Nat.ofDigits_digits]

theorem decimal_inj {m n : Nat} (h : decimal m = decimal n) : m = n := by
  rw [← value_decimal m, h, value_decimal]

theorem slash_not_mem_decimalInt (i : Int) : slash ∉ decimalInt i := by
  unfold decimalInt
  split
  · rw [List.mem_cons, not_or]
    exact ⟨by decide, slash_not_mem_decimal _⟩
  · exact slash_not_mem_decimal _

/-- A sign is no digit. -/
theorem decimal_ne_neg (m : Nat) (t : CStr) : decimal m ≠ 45 :: t := by
  intro h
  have := (mem_decimal (n := m) (b := 45) (by rw [h]; simp)).1
  exact absurd this (by decide)

theorem decimalInt_inj {i j : Int} (h : decimalInt i = decimalInt j) : i = j := by
  unfold decimalInt at h
  split at h <;> split at h
  · have := decimal_inj (List.cons.inj h).2
    omega
  · exact absurd h.symm (decimal_ne_neg _ _)
  · exact absurd h (decimal_ne_neg _ _)
  · have := decimal_inj h
    omega

/-! ## Paths -/

/-- `p` is `e` or lies below `e`. -/
def Within (e p : CStr) : Prop := p = e ∨ e = root ∨ e ++ root <+: p

instance (e p : CStr) : Decidable (Within e p) := by unfold Within; infer_instance

end CStr
