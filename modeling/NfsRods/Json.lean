import NfsRods.Lib.CStr

/-!
# The JSON parser

`utils/json.c`, as `json_parse` calls it: without comments, and with errors whose texts nobody
reads. The first pass over the text checks it and counts what each value holds; the second goes
through the values in the order of their allocation and fills memory of just that size. `malloc`
has memory for all of it.

* `jsonIter`: one turn of the loop, with the flags the C code has.
* `jsonParse`: both passes.

The number of a `double` is left out; its digits are checked.
-/

namespace NfsRods

/-- `json_type`. -/
inductive JsonType
  | object | array | integer | double | string | boolean | null
  deriving DecidableEq, Repr

/-- A `json_value` with what is in it. -/
inductive Json
  | object (values : List (List UInt8 × Json))
  | array (values : List Json)
  | integer (n : Int)
  | double
  | string (s : List UInt8)
  | boolean (b : Bool)
  | null

/-- How `json_parse` ends without a value. -/
inductive JsonFailure
  /-- It returns `NULL`. -/
  | failed
  /-- It reads behind the text. -/
  | overread
  /-- It writes behind what it has allocated, or looks for a value that is not there. -/
  | overrun
  /-- `u.integer` overflows. -/
  | overflow
  deriving DecidableEq, Repr

/-! ## Values -/

/-- What the first pass leaves in a `json_value`: `u.*.length`, `u.object.values` with the bytes of
the names, `u.integer`. -/
structure JsonNode where
  type : JsonType
  parent : Option Nat
  length : Nat := 0
  names : Nat := 0
  integer : Int := 0
  deriving DecidableEq, Repr

/-- `top`, or a value it is in, with its number in the order of allocation. In the second pass
`names` is how far `object_mem` has moved, `name` that of the next entry. -/
structure JsonFrame where
  id : Nat
  type : JsonType
  length : Nat := 0
  names : Nat := 0
  integer : Int := 0
  boolean : Bool := false
  text : List UInt8 := []
  name : List UInt8 := []
  values : List (List UInt8 × Json) := []

/-- The values allocated so far, the number of `alloc`, and `top` with its parents. -/
structure JsonMem where
  nodes : List JsonNode := []
  alloc : Nat := 0
  frames : List JsonFrame := []

/-- `uint_max`. -/
def jsonUintMax : Nat := 2 ^ 32 - 1 - 8

/-- `new_value`. -/
def newValue (first : Bool) (type : JsonType) (m : JsonMem) : Except JsonFailure JsonMem :=
  let parent := m.frames.head?.map (·.id)
  if first then
    .ok { m with
      nodes := m.nodes ++ [{ type, parent }]
      frames := { id := m.nodes.length, type } :: m.frames }
  else
    match m.nodes[m.alloc]? with
    | none => .error .overrun
    | some value =>
      -- `top->parent` is what the first pass has left there
      if value.parent ≠ parent then .error .overrun
      else .ok { m with
        alloc := m.alloc + 1
        frames := { id := m.alloc, type := value.type, integer := value.integer } :: m.frames }

/-- The bytes from `string` to the end of its memory. -/
def JsonMem.stringRoom (m : JsonMem) (top : JsonFrame) : Nat :=
  match m.nodes[top.id]? with
  | none => 0
  | some value => if top.type = .object then value.names - top.names else value.length + 1

/-- Bytes are written at `string`. -/
def stringWrite (first : Bool) (bytes : List UInt8) (m : JsonMem) : Except JsonFailure JsonMem :=
  match m.frames with
  | [] => .error .overrun
  | top :: frames =>
    if first then .ok m
    else if m.stringRoom top < top.text.length + bytes.length then .error .overrun
    else .ok { m with frames := { top with text := top.text ++ bytes } :: frames }

/-- The value of `top`, and what is written of it into its `json_value`. -/
def JsonFrame.value (top : JsonFrame) : Json :=
  match top.type with
  | .object => .object top.values
  | .array => .array (top.values.map (·.2))
  | .integer => .integer top.integer
  | .double => .double
  | .string => .string top.text
  | .boolean => .boolean top.boolean
  | .null => .null

def JsonFrame.leave (top : JsonFrame) (value : JsonNode) : JsonNode :=
  { value with type := top.type, length := top.length, names := top.names, integer := top.integer }

/-! ## The loop -/

/-- The flags, but for those of numbers. -/
structure JsonFlags where
  next : Bool := false
  reproc : Bool := false
  needComma : Bool := false
  seekValue : Bool := false
  escaped : Bool := false
  string : Bool := false
  needColon : Bool := false
  done : Bool := false
  deriving DecidableEq, Repr

/-- The flags of numbers, and `num_digits`. -/
structure JsonNum where
  negative : Bool := false
  zero : Bool := false
  e : Bool := false
  eGotSign : Bool := false
  digits : Nat := 0
  deriving DecidableEq, Repr

/-- The variables of the loop; `ptr` is the text from `state.ptr` on. -/
structure JsonState where
  ptr : List UInt8
  flags : JsonFlags := { seekValue := true }
  num : JsonNum := {}
  stringLength : Nat := 0
  mem : JsonMem := {}

def jsonSpace (b : UInt8) : Bool := b == 10 || b == 32 || b == 9 || b == 13

def isdigit (b : UInt8) : Bool := decide (48 ≤ b) && decide (b ≤ 57)

/-- `hex_value`. -/
def hexValue (c : UInt8) : UInt8 :=
  if isdigit c then c - 48
  else if 97 ≤ c ∧ c ≤ 102 then c - 87
  else if 65 ≤ c ∧ c ≤ 70 then c - 55
  else 0xff

/-- `*++ state.ptr != c || …`: the text from the last of the bytes on, if they follow. -/
def jsonAhead : List UInt8 → List UInt8 → Except JsonFailure (List UInt8)
  | [], ptr => .ok ptr
  | c :: cs, ptr =>
    match ptr.tail with
    | [] => .error .overread
    | b :: rest => if b = c then jsonAhead cs (b :: rest) else .error .failed

/-- `hex_value (*++ state.ptr)`, `n` times: the number, and the text from the last digit on. -/
def jsonHex : Nat → Nat → List UInt8 → Except JsonFailure (Nat × List UInt8)
  | 0, acc, ptr => .ok (acc, ptr)
  | n + 1, acc, ptr =>
    match ptr.tail with
    | [] => .error .overread
    | b :: rest =>
      if hexValue b = 0xff then .error .failed
      else jsonHex n (acc * 16 + (hexValue b).toNat) (b :: rest)

/-- The bytes of `uchar`. -/
def jsonUtf8 (uchar : Nat) : List UInt8 :=
  if uchar ≤ 0x7f then [UInt8.ofNat uchar]
  else if uchar ≤ 0x7ff then
    [UInt8.ofNat (0xc0 ||| uchar >>> 6), UInt8.ofNat (0x80 ||| uchar &&& 0x3f)]
  else if uchar ≤ 0xffff then
    [UInt8.ofNat (0xe0 ||| uchar >>> 12), UInt8.ofNat (0x80 ||| uchar >>> 6 &&& 0x3f),
      UInt8.ofNat (0x80 ||| uchar &&& 0x3f)]
  else
    [UInt8.ofNat (0xf0 ||| uchar >>> 18), UInt8.ofNat (0x80 ||| uchar >>> 12 &&& 0x3f),
      UInt8.ofNat (0x80 ||| uchar >>> 6 &&& 0x3f), UInt8.ofNat (0x80 ||| uchar &&& 0x3f)]

/-- `\u`: the bytes it stands for, and the text from its last digit on. -/
def jsonUnicode (ptr : List UInt8) : Except JsonFailure (List UInt8 × List UInt8) := do
  if ptr.length < 4 then throw .failed
  let (uchar, ptr) ← jsonHex 4 0 ptr
  if uchar &&& 0xf800 = 0xd800 then
    if ptr.length < 6 then throw .failed
    let ptr ← jsonAhead [92, 117] ptr
    let (uchar2, ptr) ← jsonHex 4 0 ptr
    pure (jsonUtf8 (0x010000 ||| (uchar &&& 0x3ff) <<< 10 ||| uchar2 &&& 0x3ff), ptr)
  else pure (jsonUtf8 uchar, ptr)

/-- What an escaped byte other than `u` stands for. -/
def jsonEscape (b : UInt8) : UInt8 :=
  if b = 98 then 8 else if b = 102 then 12 else if b = 110 then 10 else if b = 114 then 13
  else if b = 116 then 9 else b

/-- `string_add`. -/
def stringAdd (first : Bool) (bytes : List UInt8) (s : JsonState) :
    Except JsonFailure JsonState := do
  let mem ← stringWrite first bytes s.mem
  pure { s with stringLength := s.stringLength + bytes.length, mem }

/-! ### Strings -/

/-- `values_size` for `n` entries of 24 bytes, an `int`. -/
def valuesSize (n : Nat) : Int := ((24 * n : Nat) : Int).bmod (2 ^ 32)

/-- How many entries the memory of a value has room for; that of an object is followed by its names.
-/
def JsonMem.entryRoom (m : JsonMem) (f : JsonFrame) : Nat :=
  match m.nodes[f.id]? with
  | none => 0
  | some value =>
    if f.type = .object then (valuesSize value.length).toNat / 24 else value.length

/-- The quote that ends a string; whether the loop goes on at once. -/
def stringEnd (first : Bool) (s : JsonState) : Except JsonFailure (JsonState × Bool) :=
  match s.mem.frames with
  | [] => .error .overrun
  | top :: frames =>
    -- `string [string_length] = 0`
    if !first && s.mem.stringRoom top < top.text.length + 1 then .error .overrun
    else
      let flags := { s.flags with string := false }
      match top.type with
      | .string =>
        .ok ({ s with
          flags := { flags with next := true }
          mem := { s.mem with frames := { top with length := s.stringLength } :: frames } }, false)
      | .object =>
        if !first && s.mem.entryRoom top ≤ top.length then .error .overrun
        else
          .ok ({ s with
            flags := { flags with seekValue := true, needColon := true }
            mem := { s.mem with
              frames := { top with
                names := top.names + (s.stringLength + 1)
                name := top.text } :: frames } }, true)
      | _ => .ok ({ s with flags }, false)

/-- A byte in a string. -/
def stringChar (first : Bool) (b : UInt8) (s : JsonState) :
    Except JsonFailure (JsonState × Bool) := do
  if b = 0 then throw .failed
  else if jsonUintMax < s.stringLength then throw .failed
  else if s.flags.escaped then
    let s := { s with flags := { s.flags with escaped := false } }
    if b = 117 then -- `u`
      let (bytes, ptr) ← jsonUnicode s.ptr
      let s ← stringAdd first bytes { s with ptr }
      pure (s, true)
    else
      let s ← stringAdd first [jsonEscape b] s
      pure (s, true)
  else if b = 92 then -- the backslash
    pure ({ s with flags := { s.flags with escaped := true } }, true)
  else if b = 34 then stringEnd first s
  else
    let s ← stringAdd first [b] s
    pure (s, true)

/-! ### Numbers -/

/-- A byte that the second pass skips in a number. -/
def jsonNumChar (b : UInt8) : Bool :=
  isdigit b || b == 43 || b == 45 || b == 101 || b == 69 || b == 46

/-- The end of a number. -/
def numberEnd (top : JsonFrame) (frames : List JsonFrame) (s : JsonState) : JsonState × Bool :=
  let top :=
    if s.num.negative && top.type == .integer then { top with integer := -top.integer } else top
  ({ s with
    flags := { s.flags with next := true, reproc := true }
    mem := { s.mem with frames := top :: frames } }, false)

/-- A byte in a number, which only the first pass looks at. -/
def numberChar (b : UInt8) (top : JsonFrame) (frames : List JsonFrame) (s : JsonState) :
    Except JsonFailure (JsonState × Bool) :=
  if isdigit b then
    let num := { s.num with digits := s.num.digits + 1 }
    if top.type == .integer || num.e then
      if !num.e then
        if num.zero then .error .failed
        else
          let num := { num with zero := num.digits == 1 && b == 48 }
          let integer := top.integer * 10 + (b.toNat - 48 : Nat)
          if 2 ^ 63 ≤ integer then .error .overflow
          else .ok ({ s with
            num
            mem := { s.mem with frames := { top with integer } :: frames } }, true)
      else .ok ({ s with num := { num with eGotSign := true } }, true)
    else .ok ({ s with num }, true)
  else if (b = 43 ∨ b = 45) ∧ s.num.e ∧ !s.num.eGotSign then
    .ok ({ s with num := { s.num with eGotSign := true } }, true)
  else if b = 46 ∧ top.type = .integer then
    if s.num.digits = 0 then .error .failed
    else .ok ({ s with
      num := { s.num with digits := 0 }
      mem := { s.mem with frames := { top with type := .double, integer := 0 } :: frames } }, true)
  else if !s.num.e then
    if top.type = .double ∧ s.num.digits = 0 then .error .failed
    else if b = 101 ∨ b = 69 then
      .ok ({ s with
        num := { s.num with e := true, digits := 0, zero := false }
        mem := { s.mem with
          frames := { top with type := .double, integer := 0 } :: frames } }, true)
    else .ok (numberEnd top frames s)
  else if s.num.digits = 0 then .error .failed
  else .ok (numberEnd top frames s)

/-! ### One turn -/

/-- A value begins. -/
def startValue (first : Bool) (b : UInt8) (s : JsonState) :
    Except JsonFailure (JsonState × Bool) := do
  let s := { s with flags := { s.flags with seekValue := false } }
  if b = 123 then -- `{`
    let mem ← newValue first .object s.mem
    pure ({ s with mem }, true)
  else if b = 91 then -- `[`
    let mem ← newValue first .array s.mem
    pure ({ s with flags := { s.flags with seekValue := true }, mem }, true)
  else if b = 34 then -- `"`
    let mem ← newValue first .string s.mem
    pure ({ s with flags := { s.flags with string := true }, stringLength := 0, mem }, true)
  else if b = 116 then -- `true`
    if s.ptr.length < 3 then throw .failed
    let ptr ← jsonAhead [114, 117, 101] s.ptr
    let mem ← newValue first .boolean s.mem
    let frames := mem.frames.modifyHead fun top => { top with boolean := true }
    pure ({ s with ptr, flags := { s.flags with next := true }, mem := { mem with frames } }, false)
  else if b = 102 then -- `false`
    if s.ptr.length < 4 then throw .failed
    let ptr ← jsonAhead [97, 108, 115, 101] s.ptr
    let mem ← newValue first .boolean s.mem
    pure ({ s with ptr, flags := { s.flags with next := true }, mem }, false)
  else if b = 110 then -- `null`
    if s.ptr.length < 3 then throw .failed
    let ptr ← jsonAhead [117, 108, 108] s.ptr
    let mem ← newValue first .null s.mem
    pure ({ s with ptr, flags := { s.flags with next := true }, mem }, false)
  else if isdigit b || b == 45 then
    let mem ← newValue first .integer s.mem
    if !first then
      pure ({ s with
        ptr := s.ptr.dropWhile jsonNumChar
        flags := { s.flags with next := true, reproc := true }
        mem }, false)
    else if b ≠ 45 then
      pure ({ s with flags := { s.flags with reproc := true }, num := {}, mem }, false)
    else pure ({ s with num := { negative := true }, mem }, true)
  else throw .failed

/-- A byte where a value is sought. -/
def seekValue (first : Bool) (b : UInt8) (s : JsonState) : Except JsonFailure (JsonState × Bool) :=
  if jsonSpace b then .ok (s, true)
  else if b = 93 then -- `]`
    if (s.mem.frames.head?.map (·.type)) = some .array then
      .ok ({ s with
        flags := { s.flags with needComma := false, seekValue := false, next := true } }, false)
    else .error .failed
  else if s.flags.needComma then
    if b = 44 then .ok ({ s with flags := { s.flags with needComma := false } }, true)
    else .error .failed
  else if s.flags.needColon then
    if b = 58 then .ok ({ s with flags := { s.flags with needColon := false } }, true)
    else .error .failed
  else startValue first b s

/-- A byte in a value. -/
def inValue (b : UInt8) (s : JsonState) : Except JsonFailure (JsonState × Bool) :=
  match s.mem.frames with
  | [] => .error .overrun
  | top :: frames =>
    match top.type with
    | .object =>
      if jsonSpace b then .ok (s, true)
      else if b = 34 then -- `"`
        if s.flags.needComma then .error .failed
        else .ok ({ s with
          flags := { s.flags with string := true }
          stringLength := 0
          mem := { s.mem with frames := { top with text := [] } :: frames } }, false)
      else if b = 125 then -- `}`
        .ok ({ s with flags := { s.flags with needComma := false, next := true } }, false)
      else if b = 44 ∧ s.flags.needComma then
        .ok ({ s with flags := { s.flags with needComma := false } }, false)
      else .error .failed
    | .integer | .double => numberChar b top frames s
    | _ => .ok (s, false)

/-- A value is done. -/
def jsonNext (first : Bool) (s : JsonState) : Except JsonFailure JsonState :=
  let flags := { s.flags with next := false, needComma := true }
  match s.mem.frames with
  | [] => .error .overrun
  | top :: frames =>
    let nodes := if first then s.mem.nodes.modify top.id top.leave else s.mem.nodes
    match frames with
    | [] => .ok { s with flags := { flags with done := true }, mem := { s.mem with nodes } }
    | parent :: frames =>
      let flags := if parent.type = .array then { flags with seekValue := true } else flags
      if !first && s.mem.entryRoom parent ≤ parent.length then .error .overrun
      else if jsonUintMax < parent.length + 1 then .error .failed
      else
        let values := if first then [] else [(parent.name, top.value)]
        .ok { s with
          flags
          mem := { s.mem with
            nodes
            frames := { parent with
              length := parent.length + 1
              values := parent.values ++ values } :: frames } }

/-- The end of a turn: `flag_reproc` and `flag_next`. -/
def jsonTurn (first : Bool) (s : JsonState) : Except JsonFailure JsonState :=
  let s := { s with
    ptr := if s.flags.reproc then s.ptr else s.ptr.tail
    flags := { s.flags with reproc := false } }
  if s.flags.next then jsonNext first s else .ok s

/-- A turn of the loop; it is left at the end of the text, or at a NUL, behind the root value. -/
def jsonIter (first : Bool) (s : JsonState) : Except JsonFailure (Option JsonState) := do
  let b := s.ptr.headD 0
  let (s, again) ← if s.flags.string then stringChar first b s else pure (s, false)
  if again then pure (some { s with ptr := s.ptr.tail })
  else if s.flags.done then
    if b = 0 then pure none
    else if jsonSpace b then pure (some { s with ptr := s.ptr.tail })
    else throw .failed
  else
    let (s, again) ← if s.flags.seekValue then seekValue first b s else inValue b s
    if again then pure (some { s with ptr := s.ptr.tail })
    else some <$> jsonTurn first s

/-- The loop. A turn moves `ptr` on, or begins or ends a number, so that it takes at most three
turns a byte. -/
def jsonLoop (first : Bool) : Nat → JsonState → Except JsonFailure JsonState
  | 0, _ => .error .failed
  | n + 1, s => do
    match ← jsonIter first s with
    | none => pure s
    | some s => jsonLoop first n s

end NfsRods
