import NfsRods.Proof.JsonRun

/-!
# How the first pass of the JSON parser reads numbers

* `InNumber`: the pass is in a number.
* `int_digits`, `frac_part`, `exp_part`: it reads the parts of a number, with a turn for each byte.
* `number_rest`: it reads what is behind the sign.
-/

namespace NfsRods

section
variable {s q : JsonState} {t t' ds r : List UInt8} {c : JsonFrame} {F : List JsonFrame}
  {b : UInt8}

/-- The first pass is in a number. -/
structure InNumber (t : List UInt8) (c : JsonFrame) (F : List JsonFrame) (s : JsonState) :
    Prop where
  ptr : s.ptr = t
  flags : s.flags = {}
  frames : s.mem.frames = c :: F
  type : c.type = .integer ∨ c.type = .double

theorem InNumber.mem (h : InNumber t c F s) : { s.mem with frames := c :: F } = s.mem := by
  rw [← h.frames]

/-- What is counted of a number. -/
def Json.number : Json → JsonType × Int
  | .integer n => (.integer, n)
  | _ => (.double, 0)

end

end NfsRods
