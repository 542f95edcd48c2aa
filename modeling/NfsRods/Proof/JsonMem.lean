import NfsRods.Proof.JsonText

/-!
# What the two passes do to the values

* `Json.nodes`: the values of a tree as the first pass leaves them, in the order of allocation.
* `Ready`, `Stored`: what a pass needs before an item and what it has done behind it. The second
  pass needs that the first has counted the item.
* `newValue_array`, `next_element` and their siblings: a value begins, and becomes an entry.
-/

namespace NfsRods

/-! ## Counted values -/

/-- The bytes of names, each with a NUL. -/
def nameBytes (ms : List (List UInt8 × Json)) : Nat := (ms.map fun m => m.1.length + 1).sum

mutual

/-- A value that is allocated as number `id`, with the values in it. -/
def Json.nodes (id : Nat) (parent : Option Nat) : Json → List JsonNode
  | .object ms =>
    { type := .object, parent, length := ms.length, names := nameBytes ms } ::
      memberNodes (id + 1) id ms
  | .array vs => { type := .array, parent, length := vs.length } :: elementNodes (id + 1) id vs
  | .integer n => [{ type := .integer, parent, integer := n }]
  | .double => [{ type := .double, parent }]
  | .string s => [{ type := .string, parent, length := s.length }]
  | .boolean _ => [{ type := .boolean, parent }]
  | .null => [{ type := .null, parent }]

def elementNodes (id parent : Nat) : List Json → List JsonNode
  | [] => []
  | v :: vs =>
    v.nodes id (some parent) ++ elementNodes (id + (v.nodes id (some parent)).length) parent vs

def memberNodes (id parent : Nat) : List (List UInt8 × Json) → List JsonNode
  | [] => []
  | (_, v) :: ms =>
    v.nodes id (some parent) ++ memberNodes (id + (v.nodes id (some parent)).length) parent ms

end

/-- What `new_value` allocates for the entries of an object is not too much for its `int`. -/
def JsonNode.Fits (x : JsonNode) : Prop := x.type = .object → 24 * x.length < 2 ^ 31

/-- So it is for every object in the value. -/
def Json.Fits (v : Json) : Prop := ∀ x ∈ v.nodes 0 none, x.Fits

/-- So it is for every object that the first pass has found. -/
def JsonMem.Fits (m : JsonMem) : Prop := ∀ x ∈ m.nodes, x.Fits

/-- The number of `top`, which the next value has as its parent. -/
def JsonMem.parent (m : JsonMem) : Option Nat := m.frames.head?.map (·.id)

/-- The value has got `n` more entries, and names of so many bytes. -/
structure Grown (c c' : JsonFrame) (n names : Nat) : Prop where
  id : c'.id = c.id
  type : c'.type = c.type
  length : c'.length = c.length + n
  names : c'.names = c.names + names
  integer : c'.integer = c.integer

section
variable {α : Type*} {x : α} {xs ys l : List α} {n : Nat}

end

/-! ## A new value -/

section
variable {m m' m₁ : JsonMem} {v : Json} {x : JsonNode} {xs : List JsonNode} {type : JsonType}

variable {first : Bool} {c : JsonFrame} {F : List JsonFrame} {a b : List UInt8}

/-- What a frame is after bytes have been written at `string`. -/
def JsonFrame.write (first : Bool) (a : List UInt8) (c : JsonFrame) : JsonFrame :=
  { c with text := if first then c.text else c.text ++ a }

/-- The value that is done becomes an entry of its parent. -/
def JsonFrame.add (first : Bool) (f c : JsonFrame) : JsonFrame :=
  { c with
    length := c.length + 1
    values := c.values ++ if first then [] else [(c.name, f.value)] }

def JsonMem.next (first : Bool) (f c : JsonFrame) (F : List JsonFrame) (m : JsonMem) : JsonMem :=
  { m with
    nodes := if first then m.nodes.modify f.id f.leave else m.nodes
    frames := f.add first c :: F }

/-- A name has been read. -/
def JsonFrame.key (first : Bool) (k : List UInt8) (c : JsonFrame) : JsonFrame :=
  let c := { c with text := [] }.write first k
  { c with names := c.names + (k.length + 1), name := c.text }

end

end NfsRods
