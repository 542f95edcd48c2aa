import NfsRods.Lib.Blocks
import NfsRods.Lib.Bytes

/-!
# MD5

`md5.c`: a digest of a message that is given in pieces. `md5_process` takes the four words on by a
block of 64 bytes; its 64 `SET`s are the rows of a table here. It reads the block as 16 words with
the least significant byte first, which a CPU of that order finds as they are in memory.

`nbytes` is an `int`: a length of 2^31 or more is none, and from 2^28 bytes on `nbytes << 3`
overflows, which wraps here.
-/

namespace NfsRods

/-! ## One block -/

/-- `abcd`. -/
structure Abcd where
  a : UInt32
  b : UInt32
  c : UInt32
  d : UInt32
  deriving DecidableEq, Repr

/-- `T_MASK`. -/
def tMask : UInt32 := 0xffffffff

/-- `T1` to `T64`. -/
def md5T : List UInt32 :=
  [tMask ^^^ 0x28955b87, tMask ^^^ 0x173848a9, 0x242070db, tMask ^^^ 0x3e423111,
    tMask ^^^ 0x0a83f050, 0x4787c62a, tMask ^^^ 0x57cfb9ec, tMask ^^^ 0x02b96afe,
    0x698098d8, tMask ^^^ 0x74bb0850, tMask ^^^ 0x0000a44e, tMask ^^^ 0x76a32841,
    0x6b901122, tMask ^^^ 0x02678e6c, tMask ^^^ 0x5986bc71, 0x49b40821,
    tMask ^^^ 0x09e1da9d, tMask ^^^ 0x3fbf4cbf, 0x265e5a51, tMask ^^^ 0x16493855,
    tMask ^^^ 0x29d0efa2, 0x02441453, tMask ^^^ 0x275e197e, tMask ^^^ 0x182c0437,
    0x21e1cde6, tMask ^^^ 0x3cc8f829, tMask ^^^ 0x0b2af278, 0x455a14ed,
    tMask ^^^ 0x561c16fa, tMask ^^^ 0x03105c07, 0x676f02d9, tMask ^^^ 0x72d5b375,
    tMask ^^^ 0x0005c6bd, tMask ^^^ 0x788e097e, 0x6d9d6122, tMask ^^^ 0x021ac7f3,
    tMask ^^^ 0x5b4115bb, 0x4bdecfa9, tMask ^^^ 0x0944b49f, tMask ^^^ 0x4140438f,
    0x289b7ec6, tMask ^^^ 0x155ed805, tMask ^^^ 0x2b10cf7a, 0x04881d05,
    tMask ^^^ 0x262b2fc6, tMask ^^^ 0x1924661a, 0x1fa27cf8, tMask ^^^ 0x3b53a99a,
    tMask ^^^ 0x0bd6ddbb, 0x432aff97, tMask ^^^ 0x546bdc58, tMask ^^^ 0x036c5fc6,
    0x655b59c3, tMask ^^^ 0x70f3336d, tMask ^^^ 0x00100b82, tMask ^^^ 0x7a7ba22e,
    0x6fa87e4f, tMask ^^^ 0x01d3191f, tMask ^^^ 0x5cfebceb, 0x4e0811a1,
    tMask ^^^ 0x08ac817d, tMask ^^^ 0x42c50dca, 0x2ad7d2bb, tMask ^^^ 0x14792c6e]

/-- `ROTATE_LEFT`. -/
def rotateLeft (x n : UInt32) : UInt32 := (x <<< n) ||| (x >>> (32 - n))

/-- `F` to `I` of the four rounds. -/
def md5F (x y z : UInt32) : UInt32 := (x &&& y) ||| (~~~x &&& z)

def md5G (x y z : UInt32) : UInt32 := (x &&& z) ||| (y &&& ~~~z)

def md5H (x y z : UInt32) : UInt32 := x ^^^ y ^^^ z

def md5I (x y z : UInt32) : UInt32 := y ^^^ (x ||| ~~~z)

/-- The first argument of a `SET`; the others follow in their cycle. -/
inductive Md5Reg
  | a | b | c | d
  deriving DecidableEq, Repr

/-- `SET(reg, …, k, s, T<i>)` in the round of `f`. -/
structure Md5Set where
  f : UInt32 → UInt32 → UInt32 → UInt32
  reg : Md5Reg
  k : Nat
  s : UInt32
  i : Nat

/-- What `SET` assigns to its first argument. -/
def Md5Set.value (r : Md5Set) (X : List UInt32) (a b c d : UInt32) : UInt32 :=
  let t := a + r.f b c d + X.getD r.k 0 + md5T.getD (r.i - 1) 0
  rotateLeft t r.s + b

def Md5Set.exec (X : List UInt32) (v : Abcd) (r : Md5Set) : Abcd :=
  match r.reg with
  | .a => { v with a := r.value X v.a v.b v.c v.d }
  | .d => { v with d := r.value X v.d v.a v.b v.c }
  | .c => { v with c := r.value X v.c v.d v.a v.b }
  | .b => { v with b := r.value X v.b v.c v.d v.a }

/-- Round 1. -/
def md5Round1 : List Md5Set :=
  [⟨md5F, .a, 0, 7, 1⟩, ⟨md5F, .d, 1, 12, 2⟩, ⟨md5F, .c, 2, 17, 3⟩, ⟨md5F, .b, 3, 22, 4⟩,
    ⟨md5F, .a, 4, 7, 5⟩, ⟨md5F, .d, 5, 12, 6⟩, ⟨md5F, .c, 6, 17, 7⟩, ⟨md5F, .b, 7, 22, 8⟩,
    ⟨md5F, .a, 8, 7, 9⟩, ⟨md5F, .d, 9, 12, 10⟩, ⟨md5F, .c, 10, 17, 11⟩, ⟨md5F, .b, 11, 22, 12⟩,
    ⟨md5F, .a, 12, 7, 13⟩, ⟨md5F, .d, 13, 12, 14⟩, ⟨md5F, .c, 14, 17, 15⟩,
    ⟨md5F, .b, 15, 22, 16⟩]

/-- Round 2. -/
def md5Round2 : List Md5Set :=
  [⟨md5G, .a, 1, 5, 17⟩, ⟨md5G, .d, 6, 9, 18⟩, ⟨md5G, .c, 11, 14, 19⟩, ⟨md5G, .b, 0, 20, 20⟩,
    ⟨md5G, .a, 5, 5, 21⟩, ⟨md5G, .d, 10, 9, 22⟩, ⟨md5G, .c, 15, 14, 23⟩, ⟨md5G, .b, 4, 20, 24⟩,
    ⟨md5G, .a, 9, 5, 25⟩, ⟨md5G, .d, 14, 9, 26⟩, ⟨md5G, .c, 3, 14, 27⟩, ⟨md5G, .b, 8, 20, 28⟩,
    ⟨md5G, .a, 13, 5, 29⟩, ⟨md5G, .d, 2, 9, 30⟩, ⟨md5G, .c, 7, 14, 31⟩, ⟨md5G, .b, 12, 20, 32⟩]

/-- Round 3. -/
def md5Round3 : List Md5Set :=
  [⟨md5H, .a, 5, 4, 33⟩, ⟨md5H, .d, 8, 11, 34⟩, ⟨md5H, .c, 11, 16, 35⟩, ⟨md5H, .b, 14, 23, 36⟩,
    ⟨md5H, .a, 1, 4, 37⟩, ⟨md5H, .d, 4, 11, 38⟩, ⟨md5H, .c, 7, 16, 39⟩, ⟨md5H, .b, 10, 23, 40⟩,
    ⟨md5H, .a, 13, 4, 41⟩, ⟨md5H, .d, 0, 11, 42⟩, ⟨md5H, .c, 3, 16, 43⟩, ⟨md5H, .b, 6, 23, 44⟩,
    ⟨md5H, .a, 9, 4, 45⟩, ⟨md5H, .d, 12, 11, 46⟩, ⟨md5H, .c, 15, 16, 47⟩, ⟨md5H, .b, 2, 23, 48⟩]

/-- Round 4. -/
def md5Round4 : List Md5Set :=
  [⟨md5I, .a, 0, 6, 49⟩, ⟨md5I, .d, 7, 10, 50⟩, ⟨md5I, .c, 14, 15, 51⟩, ⟨md5I, .b, 5, 21, 52⟩,
    ⟨md5I, .a, 12, 6, 53⟩, ⟨md5I, .d, 3, 10, 54⟩, ⟨md5I, .c, 10, 15, 55⟩, ⟨md5I, .b, 1, 21, 56⟩,
    ⟨md5I, .a, 8, 6, 57⟩, ⟨md5I, .d, 15, 10, 58⟩, ⟨md5I, .c, 6, 15, 59⟩, ⟨md5I, .b, 13, 21, 60⟩,
    ⟨md5I, .a, 4, 6, 61⟩, ⟨md5I, .d, 11, 10, 62⟩, ⟨md5I, .c, 2, 15, 63⟩, ⟨md5I, .b, 9, 21, 64⟩]

/-- The byte order of the CPU, which `md5_process` finds out. -/
inductive Cpu
  | littleEndian | bigEndian
  deriving DecidableEq, Repr

/-- `X`: the block as it lies in memory, or put together byte by byte. -/
def md5X (cpu : Cpu) (data : List UInt8) : List UInt32 :=
  (List.range 16).map fun i =>
    let xp := data.drop (4 * i)
    match cpu with
    | .littleEndian => UInt32.ofNat (Bytes.num (xp.take 4))
    | .bigEndian =>
      (xp.getD 0 0).toUInt32 + ((xp.getD 1 0).toUInt32 <<< 8) + ((xp.getD 2 0).toUInt32 <<< 16) +
        ((xp.getD 3 0).toUInt32 <<< 24)

/-- `md5_process`. -/
def md5Process (cpu : Cpu) (v : Abcd) (data : List UInt8) : Abcd :=
  let X := md5X cpu data
  let r := (md5Round1 ++ md5Round2 ++ md5Round3 ++ md5Round4).foldl (Md5Set.exec X) v
  { a := v.a + r.a, b := v.b + r.b, c := v.c + r.c, d := v.d + r.d }

/-! ## A message in pieces -/

/-- `md5_state_t`. -/
structure Md5State where
  count0 : UInt32
  count1 : UInt32
  abcd : Abcd
  buf : Fin 64 → UInt8

/-- `memcpy` into `buf`. -/
def Md5State.memcpy (pms : Md5State) (offset : Nat) (p : List UInt8) : Md5State :=
  { pms with buf := fun i =>
      if offset ≤ i.1 ∧ i.1 < offset + p.length then p.getD (i.1 - offset) 0 else pms.buf i }

/-- `md5_init`, which leaves `buf` as it is. -/
def md5Init (pms : Md5State) : Md5State :=
  { pms with
    count0 := 0, count1 := 0
    abcd :=
      { a := 0x67452301, b := tMask ^^^ 0x10325476, c := tMask ^^^ 0x67452301, d := 0x10325476 } }

/-- The end of `md5_append`: full blocks, and a final partial block. -/
def md5Tail (cpu : Cpu) (pms : Md5State) (p : List UInt8) : Md5State :=
  let pms := { pms with abcd := Blocks.run 64 (md5Process cpu) (p.length / 64) pms.abcd p }
  pms.memcpy 0 (p.drop (p.length / 64 * 64))

/-- `md5_append` of the `nbytes` bytes of a piece. -/
def md5Piece (cpu : Cpu) (pms : Md5State) (data : List UInt8) : Md5State :=
  let nbytes := data.length
  let offset := ((pms.count0 >>> 3) &&& 63).toNat
  let nbits := UInt32.ofNat (nbytes * 8)
  -- update the message length
  let count0 := pms.count0 + nbits
  let count1 := pms.count1 + UInt32.ofNat (nbytes / 2 ^ 29) + if count0 < nbits then 1 else 0
  let pms := { pms with count0, count1 }
  if offset ≠ 0 then
    -- process an initial partial block
    let copy := if 64 < offset + nbytes then 64 - offset else nbytes
    let pms := pms.memcpy offset (data.take copy)
    if offset + copy < 64 then pms
    else
      md5Tail cpu { pms with abcd := md5Process cpu pms.abcd (List.ofFn pms.buf) }
        (data.drop copy)
  else md5Tail cpu pms data

/-- `md5_append`, whose caller passes the length of its data. -/
def md5Append (cpu : Cpu) (pms : Md5State) (data : List UInt8) : Md5State :=
  let nbytes := (data.length : Int).bmod (2 ^ 32)
  if nbytes ≤ 0 then pms else md5Piece cpu pms (data.take nbytes.toNat)

/-- The bytes of some words, the least significant first: byte `i` is `w[i >> 2] >> ((i & 3) << 3)`.
-/
def wordBytes (n : Nat) (ws : List UInt32) : List UInt8 :=
  (List.range n).map fun i => (ws.getD (i / 4) 0 >>> UInt32.ofNat (i % 4 * 8)).toUInt8

/-- `pad` of `md5_finish`. -/
def md5Pad : List UInt8 := 0x80 :: List.replicate 63 0

/-- `md5_finish`. -/
def md5Finish (cpu : Cpu) (pms : Md5State) : List UInt8 :=
  let data := wordBytes 8 [pms.count0, pms.count1]
  let pms := md5Append cpu pms
    (md5Pad.take ((((55 : UInt32) - (pms.count0 >>> 3)) &&& 63).toNat + 1))
  let pms := md5Append cpu pms data
  wordBytes 16 [pms.abcd.a, pms.abcd.b, pms.abcd.c, pms.abcd.d]

example : md5Finish .littleEndian (md5Append .littleEndian
    (md5Init { count0 := 0, count1 := 0, abcd := ⟨0, 0, 0, 0⟩, buf := fun _ => 0 })
      [97, 98, 99]) =
    [0x90, 0x01, 0x50, 0x98, 0x3c, 0xd2, 0x4f, 0xb0, 0xd6, 0x96, 0x3f, 0x7d, 0x28, 0xe1, 0x7f,
      0x72] := by decide +kernel

end NfsRods
