import NfsRods.Config.Parse

/-!
# Addresses as text

`inet_ntoa`, which writes an address with four numbers.

* `inetAton_inetNtoa`: `inet_aton` reads back what `inet_ntoa` has written, so that two addresses
  are never written alike.
-/

namespace NfsRods

open CStr

/-- A part of an address: 0 for the most significant byte. -/
def addressByte (a : UInt32) (i : Nat) : Nat := a.toNat / 256 ^ (3 - i) % 256

/-- `inet_ntoa`. -/
def inetNtoa (a : UInt32) : CStr :=
  decimal (addressByte a 0) ++ 46 :: (decimal (addressByte a 1) ++ 46 ::
    (decimal (addressByte a 2) ++ 46 :: decimal (addressByte a 3)))

theorem dot_not_mem_decimal (n : Nat) : 46 ∉ decimal n := by
  intro h
  have := (mem_decimal h).1
  simp at this

theorem addressPart_decimal {n : Nat} (hn : n < 256) : addressPart (decimal n) = some n := by
  revert n
  decide +kernel

/-- **An address is read back** as it is written. -/
theorem inetAton_inetNtoa (a : UInt32) : inetAton (inetNtoa a) = some a := by
  have hpart : ∀ i, addressPart (decimal (addressByte a i)) = some (addressByte a i) :=
    fun i => addressPart_decimal (Nat.mod_lt _ (by decide))
  rw [inetAton, inetNtoa]
  simp only [List.splitOn_append_cons_self_of_not_mem (dot_not_mem_decimal _),
    List.splitOn_eq_singleton (dot_not_mem_decimal _), List.map_cons, List.map_nil, hpart]
  have hlt := a.toNat_lt
  have hnum : ((addressByte a 0 * 256 + addressByte a 1) * 256 + addressByte a 2) * 256 +
      addressByte a 3 = a.toNat := by
    simp only [addressByte]
    omega
  rw [hnum, UInt32.ofNat_toNat]

theorem inetNtoa_inj {a b : UInt32} (h : inetNtoa a = inetNtoa b) : a = b := by
  have hread := inetAton_inetNtoa a
  rw [h, inetAton_inetNtoa] at hread
  exact (Option.some.inj hread).symm

end NfsRods
