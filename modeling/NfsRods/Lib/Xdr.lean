import NfsRods.Lib.Bytes

/-!
# XDR

What the encoders of an XDR library write: units of four bytes with the most significant first, and
variable data behind its length and padded with zeros to whole units.

* `Xdr.length_string`: the bytes a string takes.
-/

namespace Xdr

/-- `xdr_u_long`, `xdr_enum`: one unit. -/
def unit (n : Nat) : List UInt8 := (Bytes.le 4 n).reverse

/-- `xdr_uint64_t`: two units. -/
def hyper (n : Nat) : List UInt8 := (Bytes.le 8 n).reverse

/-- `xdr_bool`. -/
def bool (b : Bool) : List UInt8 := unit (if b then 1 else 0)

/-- Data of a fixed size. -/
def fixed (data : List UInt8) : List UInt8 :=
  data ++ List.replicate ((4 - data.length % 4) % 4) 0

/-- `xdr_string`. -/
def string (s : List UInt8) : List UInt8 := unit s.length ++ fixed s

@[simp] theorem length_unit (n : Nat) : (unit n).length = 4 := by
  simp [unit]

@[simp] theorem length_hyper (n : Nat) : (hyper n).length = 8 := by
  simp [hyper]

@[simp] theorem length_bool (b : Bool) : (bool b).length = 4 := length_unit _

/-- Whole units. -/
@[simp] theorem length_fixed (data : List UInt8) :
    (fixed data).length = (data.length + 3) / 4 * 4 := by
  rw [fixed, List.length_append, List.length_replicate]
  omega

@[simp] theorem length_string (s : List UInt8) :
    (string s).length = 4 + (s.length + 3) / 4 * 4 := by
  simp [string]

end Xdr
