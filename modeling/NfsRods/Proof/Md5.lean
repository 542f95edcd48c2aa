import Mathlib.Data.List.GetD
import Mathlib.Data.List.OfFn
import NfsRods.Md5

/-!
# The digest of a message

MD5 as a function of the whole message (`md5`): the message with its padding and length, block by
block, each taken through 64 steps of one form. `md5.c` computes it whatever pieces it is given.

* `md5Process_eq`: the unrolled rounds are the 64 steps, on a CPU of either byte order.
* `md5Append_holds`: what is kept between two pieces.
* `md5_streamed`: the digest of the pieces is that of the message they make.
-/

namespace NfsRods

/-! ## The function -/

/-- The constants of the 64 steps. -/
def md5K : List UInt32 :=
  [0xd76aa478, 0xe8c7b756, 0x242070db, 0xc1bdceee, 0xf57c0faf, 0x4787c62a, 0xa8304613, 0xfd469501,
    0x698098d8, 0x8b44f7af, 0xffff5bb1, 0x895cd7be, 0x6b901122, 0xfd987193, 0xa679438e, 0x49b40821,
    0xf61e2562, 0xc040b340, 0x265e5a51, 0xe9b6c7aa, 0xd62f105d, 0x02441453, 0xd8a1e681, 0xe7d3fbc8,
    0x21e1cde6, 0xc33707d6, 0xf4d50d87, 0x455a14ed, 0xa9e3e905, 0xfcefa3f8, 0x676f02d9, 0x8d2a4c8a,
    0xfffa3942, 0x8771f681, 0x6d9d6122, 0xfde5380c, 0xa4beea44, 0x4bdecfa9, 0xf6bb4b60, 0xbebfbc70,
    0x289b7ec6, 0xeaa127fa, 0xd4ef3085, 0x04881d05, 0xd9d4d039, 0xe6db99e5, 0x1fa27cf8, 0xc4ac5665,
    0xf4292244, 0x432aff97, 0xab9423a7, 0xfc93a039, 0x655b59c3, 0x8f0ccc92, 0xffeff47d, 0x85845dd1,
    0x6fa87e4f, 0xfe2ce6e0, 0xa3014314, 0x4e0811a1, 0xf7537e82, 0xbd3af235, 0x2ad7d2bb, 0xeb86d391]

/-- The rotations of each round, which come round every four steps. -/
def md5Shift (i : Nat) : UInt32 :=
  ([[7, 12, 17, 22], [5, 9, 14, 20], [4, 11, 16, 23], [6, 10, 15, 21]].getD (i / 16) []).getD
    (i % 4) 0

/-- The word of the block that a step takes. -/
def md5Index (i : Nat) : Nat :=
  if i < 16 then i else if i < 32 then (5 * i + 1) % 16 else if i < 48 then (3 * i + 5) % 16
  else 7 * i % 16

def md5Fun (i : Nat) : UInt32 → UInt32 → UInt32 → UInt32 :=
  if i < 16 then md5F else if i < 32 then md5G else if i < 48 then md5H else md5I

/-- One of the 64 steps: a new word, and the others move on. -/
def md5Step (X : List UInt32) (v : Abcd) (i : Nat) : Abcd :=
  { a := v.d
    b := rotateLeft (v.a + md5Fun i v.b v.c v.d + X.getD (md5Index i) 0 + md5K.getD i 0)
      (md5Shift i) + v.b
    c := v.b
    d := v.c }

/-- The words of a block. -/
def md5Words (block : List UInt8) : List UInt32 :=
  (List.range 16).map fun i => UInt32.ofNat (Bytes.num ((block.drop (4 * i)).take 4))

/-- A block. -/
def md5Compress (v : Abcd) (block : List UInt8) : Abcd :=
  let r := (List.range 64).foldl (md5Step (md5Words block)) v
  { a := v.a + r.a, b := v.b + r.b, c := v.c + r.c, d := v.d + r.d }

/-- The first words. -/
def md5Iv : Abcd := { a := 0x67452301, b := 0xefcdab89, c := 0x98badcfe, d := 0x10325476 }

/-- What a message of `n` bytes is padded with: a bit, zeros, and its number of bits. -/
def md5Padding (n : Nat) : List UInt8 :=
  0x80 :: (List.replicate ((119 - n % 64) % 64) 0 ++ Bytes.le 8 (8 * n))

/-- The digest of a message. -/
def md5 (msg : List UInt8) : List UInt8 :=
  let v := Blocks.chain 64 md5Compress md5Iv (msg ++ md5Padding msg.length)
  Bytes.le 4 v.a.toNat ++ (Bytes.le 4 v.b.toNat ++ (Bytes.le 4 v.c.toNat ++ Bytes.le 4 v.d.toNat))

/-! ## One block -/

theorem md5T_eq : md5T = md5K := by decide

/-- On a CPU of either byte order the words of a block are the same. -/
theorem md5X_eq (cpu : Cpu) (data : List UInt8) : md5X cpu data = md5Words data := by
  cases cpu with
  | littleEndian => rfl
  | bigEndian =>
    refine List.map_congr_left fun i _ => ?_
    generalize data.drop (4 * i) = xp
    have hword : ∀ x0 x1 x2 x3 : UInt8,
        x0.toUInt32 + (x1.toUInt32 <<< 8) + (x2.toUInt32 <<< 16) + (x3.toUInt32 <<< 24) =
          UInt32.ofNat (Bytes.num [x0, x1, x2, x3]) := by
      intro x0 x1 x2 x3
      have h0 := x0.toNat_lt
      have h1 := x1.toNat_lt
      have h2 := x2.toNat_lt
      have h3 := x3.toNat_lt
      apply UInt32.toNat_inj.1
      simp only [UInt32.toNat_add, UInt32.toNat_shiftLeft, UInt8.toNat_toUInt32,
        UInt32.toNat_ofNat', Bytes.num, Nat.shiftLeft_eq, UInt32.reduceToNat, Nat.reduceMod,
        Nat.reducePow]
      omega
    rcases xp with _ | ⟨x0, _ | ⟨x1, _ | ⟨x2, _ | ⟨x3, xs⟩⟩⟩⟩
    · rfl
    · exact hword x0 0 0 0
    · exact hword x0 x1 0 0
    · exact hword x0 x1 x2 0
    · exact hword x0 x1 x2 x3

/-- Four `SET`s, after which each word is in its place again. -/
def md5Quad (q : Nat) : List Md5Set :=
  [⟨md5Fun (4 * q), .a, md5Index (4 * q), md5Shift (4 * q), 4 * q + 1⟩,
    ⟨md5Fun (4 * q + 1), .d, md5Index (4 * q + 1), md5Shift (4 * q + 1), 4 * q + 2⟩,
    ⟨md5Fun (4 * q + 2), .c, md5Index (4 * q + 2), md5Shift (4 * q + 2), 4 * q + 3⟩,
    ⟨md5Fun (4 * q + 3), .b, md5Index (4 * q + 3), md5Shift (4 * q + 3), 4 * q + 4⟩]

theorem md5Rounds_eq :
    md5Round1 ++ md5Round2 ++ md5Round3 ++ md5Round4 = (List.range 16).flatMap md5Quad := rfl

theorem md5Quad_foldl (X : List UInt32) (v : Abcd) (q : Nat) :
    (md5Quad q).foldl (Md5Set.exec X) v =
      [4 * q, 4 * q + 1, 4 * q + 2, 4 * q + 3].foldl (md5Step X) v := by
  simp only [md5Quad, List.foldl_cons, List.foldl_nil, Md5Set.exec, Md5Set.value, md5Step, md5T_eq,
    Nat.add_one_sub_one]

theorem md5Process_eq (cpu : Cpu) : md5Process cpu = md5Compress := by
  have hrange : List.range 64 =
      (List.range 16).flatMap fun q => [4 * q, 4 * q + 1, 4 * q + 2, 4 * q + 3] := by decide
  have hfold : ∀ (X : List UInt32) (qs : List Nat) (v : Abcd),
      (qs.flatMap md5Quad).foldl (Md5Set.exec X) v =
        (qs.flatMap fun q => [4 * q, 4 * q + 1, 4 * q + 2, 4 * q + 3]).foldl (md5Step X) v := by
    intro X qs
    induction qs with
    | nil => exact fun _ => rfl
    | cons q qs ih =>
      intro v
      rw [List.flatMap_cons, List.flatMap_cons, List.foldl_append, List.foldl_append, md5Quad_foldl,
        ih]
  funext v data
  rw [md5Process, md5Compress, md5X_eq, md5Rounds_eq, hfold, hrange]

/-! ## What is kept between two pieces -/

/-- `count`, the bits of the message so far. -/
def Md5State.bits (pms : Md5State) : Nat := pms.count0.toNat + 2 ^ 32 * pms.count1.toNat

theorem bits_congr {pms pms' : Md5State} (h0 : pms.count0 = pms'.count0)
    (h1 : pms.count1 = pms'.count1) : pms.bits = pms'.bits := by
  rw [Md5State.bits, Md5State.bits, h0, h1]

/-- The state after the message `msg`. -/
structure Md5State.Holds (pms : Md5State) (msg : List UInt8) : Prop where
  bits : pms.bits = 8 * msg.length % 2 ^ 64
  abcd : pms.abcd = Blocks.chain 64 md5Compress md5Iv msg
  buf : (List.ofFn pms.buf).take (msg.length % 64) = Blocks.rest 64 msg

/-- An array into which `p` is copied. -/
theorem ofFn_copied {n : Nat} (buf : Fin n → UInt8) {offset : Nat} {p : List UInt8}
    (h : offset + p.length ≤ n) :
    (List.ofFn fun i : Fin n =>
      if offset ≤ i.1 ∧ i.1 < offset + p.length then p.getD (i.1 - offset) 0 else buf i) =
      (List.ofFn buf).take offset ++ (p ++ (List.ofFn buf).drop (offset + p.length)) := by
  have hlen : ((List.ofFn buf).take offset).length = offset := by
    rw [List.length_take, List.length_ofFn]
    omega
  refine List.ext_getElem ?_ fun i hi _ => ?_
  · rw [List.length_append, List.length_append, hlen, List.length_drop, List.length_ofFn,
      List.length_ofFn]
    omega
  · rw [List.length_ofFn] at hi
    rw [List.getElem_ofFn]
    by_cases hbefore : i < offset
    · rw [if_neg (by show ¬(offset ≤ i ∧ _); omega),
        List.getElem_append_left (by rw [hlen]; exact hbefore), List.getElem_take,
        List.getElem_ofFn]
    · rw [List.getElem_append_right (by rw [hlen]; omega)]
      simp only [hlen]
      by_cases hin : i < offset + p.length
      · have hp : i - offset < p.length := by omega
        rw [if_pos ⟨not_lt.1 hbefore, hin⟩, List.getElem_append_left hp,
          List.getD_eq_getElem p 0 hp]
      · rw [if_neg fun hc => hin hc.2, List.getElem_append_right (by omega)]
        simp only [List.getElem_drop, List.getElem_ofFn]
        congr 2
        omega

theorem ofFn_memcpy {pms : Md5State} {offset : Nat} {p : List UInt8} (h : offset + p.length ≤ 64) :
    List.ofFn (pms.memcpy offset p).buf =
      (List.ofFn pms.buf).take offset ++ (p ++ (List.ofFn pms.buf).drop (offset + p.length)) :=
  ofFn_copied pms.buf h

/-- `offset`: how much of a block is in `buf`. -/
theorem Md5State.Holds.offset {pms : Md5State} {msg : List UInt8} (h : pms.Holds msg) :
    ((pms.count0 >>> 3) &&& 63).toNat = msg.length % 64 := by
  have hbits := h.bits
  have h0 := pms.count0.toNat_lt
  unfold Md5State.bits at hbits
  rw [UInt32.toNat_and, UInt32.toNat_shiftRight, show (63 : UInt32).toNat = 2 ^ 6 - 1 from rfl,
    Nat.and_two_pow_sub_one_eq_mod, Nat.shiftRight_eq_div_pow,
    show (3 : UInt32).toNat % 32 = 3 from rfl]
  omega

theorem bits_add (pms : Md5State) (n : Nat) :
    let nbits := UInt32.ofNat (n * 8)
    let count0 := pms.count0 + nbits
    Md5State.bits { pms with
      count0
      count1 := pms.count1 + UInt32.ofNat (n / 2 ^ 29) + if count0 < nbits then 1 else 0 } =
      (pms.bits + 8 * n) % 2 ^ 64 := by
  have h0 := pms.count0.toNat_lt
  have h1 := pms.count1.toNat_lt
  simp only [Md5State.bits, UInt32.lt_iff_toNat_lt, UInt32.toNat_add, UInt32.toNat_ofNat']
  split <;> simp only [UInt32.reduceToNat] <;> omega

/-- Full blocks are processed, and what they leave is kept. -/
theorem md5Tail_eq (cpu : Cpu) (pms : Md5State) (p : List UInt8) :
    (md5Tail cpu pms p).bits = pms.bits ∧
      (md5Tail cpu pms p).abcd = Blocks.chain 64 md5Compress pms.abcd p ∧
      (List.ofFn (md5Tail cpu pms p).buf).take (p.length % 64) = Blocks.rest 64 p := by
  have hlen : (Blocks.rest 64 p).length = p.length % 64 := Blocks.length_rest
  refine ⟨rfl, ?_, ?_⟩
  · show Blocks.run 64 (md5Process cpu) _ _ _ = _
    rw [md5Process_eq]
    rfl
  · unfold md5Tail
    rw [ofFn_memcpy (by show 0 + (Blocks.rest 64 p).length ≤ 64; omega), List.take_zero,
      List.nil_append]
    exact List.take_left' hlen

section
variable {pms : Md5State} {msg data : List UInt8}

/-- A piece goes behind what is kept: all of it, or what makes a block. -/
theorem ofFn_piece (hbuf : (List.ofFn pms.buf).take (msg.length % 64) = Blocks.rest 64 msg)
    {p : List UInt8} (hp : msg.length % 64 + p.length ≤ 64) :
    List.ofFn (pms.memcpy (msg.length % 64) p).buf =
      (Blocks.rest 64 msg ++ p) ++ (List.ofFn pms.buf).drop (msg.length % 64 + p.length) := by
  rw [ofFn_memcpy hp, hbuf, List.append_assoc]

/-- What is kept of the pieces before, and the next one. -/
theorem holds_append (hbits : pms.bits = 8 * (msg ++ data).length % 2 ^ 64)
    (habcd : pms.abcd = Blocks.chain 64 md5Compress (Blocks.chain 64 md5Compress md5Iv msg)
      (Blocks.rest 64 msg ++ data))
    (hbuf : (List.ofFn pms.buf).take ((Blocks.rest 64 msg ++ data).length % 64) =
      Blocks.rest 64 (Blocks.rest 64 msg ++ data)) :
    pms.Holds (msg ++ data) where
  bits := hbits
  abcd := habcd.trans (Blocks.chain_append (by decide) md5Iv msg data).symm
  buf := by
    have hlen : (msg ++ data).length % 64 = (Blocks.rest 64 msg ++ data).length % 64 := by
      rw [List.length_append, List.length_append, Blocks.length_rest, Nat.mod_add_mod]
    rw [Blocks.rest_append (by decide), ← hbuf, hlen]

variable (hbits : pms.bits = 8 * (msg ++ data).length % 2 ^ 64)
  (habcd : pms.abcd = Blocks.chain 64 md5Compress md5Iv msg)
  (hbuf : (List.ofFn pms.buf).take (msg.length % 64) = Blocks.rest 64 msg)
include hbits habcd

/-- A piece that starts a block. -/
theorem md5Tail_holds (cpu : Cpu) (hfirst : msg.length % 64 = 0) :
    (md5Tail cpu pms data).Holds (msg ++ data) := by
  have hrest : (Blocks.rest 64 msg).length = msg.length % 64 := Blocks.length_rest
  have hnil : Blocks.rest 64 msg = [] := List.length_eq_zero_iff.1 (by rw [hrest, hfirst])
  obtain ⟨htb, hta, htr⟩ := md5Tail_eq cpu pms data
  refine holds_append (htb.trans hbits) ?_ ?_
  · rw [hta, hnil, List.nil_append, habcd]
  · rw [hnil, List.nil_append, htr]

include hbuf

/-- A piece that ends no block. -/
theorem md5Keep_holds (hshort : msg.length % 64 + data.length < 64) :
    (pms.memcpy (msg.length % 64) data).Holds (msg ++ data) := by
  have hlen : (Blocks.rest 64 msg ++ data).length < 64 := by
    rw [List.length_append, Blocks.length_rest]
    exact hshort
  refine holds_append hbits ?_ ?_
  · rw [Blocks.chain_short hlen]
    exact habcd
  · rw [Blocks.rest_short hlen, Nat.mod_eq_of_lt hlen, ofFn_piece hbuf hshort.le,
      List.take_left' rfl]

/-- A piece that ends a block. -/
theorem md5Full_holds (cpu : Cpu) {copy : Nat} (hcopy : msg.length % 64 + copy = 64)
    (hdata : copy ≤ data.length) :
    (md5Tail cpu
      { pms.memcpy (msg.length % 64) (data.take copy) with
        abcd := md5Process cpu pms.abcd
          (List.ofFn (pms.memcpy (msg.length % 64) (data.take copy)).buf) }
      (data.drop copy)).Holds (msg ++ data) := by
  have hp : (data.take copy).length = copy := List.length_take_of_le hdata
  have hbuffer : List.ofFn (pms.memcpy (msg.length % 64) (data.take copy)).buf =
      Blocks.rest 64 msg ++ data.take copy := by
    rw [ofFn_piece hbuf (by omega), hp,
      List.drop_eq_nil_of_le (by rw [List.length_ofFn]; omega), List.append_nil]
  have hblock : (Blocks.rest 64 msg ++ data.take copy).length = 64 := by
    rw [List.length_append, Blocks.length_rest, hp, hcopy]
  have hsplit : Blocks.rest 64 msg ++ data =
      (Blocks.rest 64 msg ++ data.take copy) ++ data.drop copy := by
    rw [List.append_assoc, List.take_append_drop]
  have hlen : (data.drop copy).length % 64 = (Blocks.rest 64 msg ++ data).length % 64 := by
    rw [List.length_append, Blocks.length_rest, List.length_drop]
    omega
  rw [hbuffer, md5Process_eq]
  obtain ⟨htb, hta, htr⟩ := md5Tail_eq cpu
    { pms.memcpy (msg.length % 64) (data.take copy) with
      abcd := md5Compress pms.abcd (Blocks.rest 64 msg ++ data.take copy) } (data.drop copy)
  refine holds_append ?_ ?_ ?_
  · rw [htb, ← hbits]
    exact bits_congr rfl rfl
  · rw [hta, hsplit, Blocks.chain_block (by decide) hblock, habcd]
  · rw [← hlen, hsplit, Blocks.rest_block (by decide) hblock, htr]

end

theorem md5Piece_holds (cpu : Cpu) {pms : Md5State} {msg : List UInt8} (h : pms.Holds msg)
    (data : List UInt8) : (md5Piece cpu pms data).Holds (msg ++ data) := by
  unfold md5Piece
  simp only [h.offset]
  have hcount := bits_add pms data.length
  have htotal : (pms.bits + 8 * data.length) % 2 ^ 64 = 8 * (msg ++ data).length % 2 ^ 64 := by
    rw [h.bits, List.length_append]
    omega
  have hbits := hcount.trans htotal
  have hmod := Nat.mod_lt msg.length (by decide : 0 < 64)
  by_cases hfirst : msg.length % 64 = 0
  · rw [if_neg (not_not.2 hfirst)]
    exact md5Tail_holds hbits h.abcd cpu hfirst
  rw [if_pos hfirst]
  by_cases hshort : msg.length % 64 + data.length < 64
  · have hcopy : (if 64 < msg.length % 64 + data.length then 64 - msg.length % 64
        else data.length) = data.length := if_neg (by omega)
    rw [hcopy, List.take_length, if_pos hshort]
    exact md5Keep_holds hbits h.abcd h.buf hshort
  · have hcopy : (if 64 < msg.length % 64 + data.length then 64 - msg.length % 64
        else data.length) = 64 - msg.length % 64 := by
      split <;> omega
    rw [hcopy, if_neg (by omega)]
    exact md5Full_holds hbits h.abcd h.buf cpu (by omega) (by omega)

/-- `nbytes << 3` is an `int`. -/
def Md5Fits (data : List UInt8) : Prop := data.length < 2 ^ 28

/-- **A piece is added to the message**, whatever part of a block is kept. -/
theorem md5Append_holds (cpu : Cpu) {pms : Md5State} {msg : List UInt8} (h : pms.Holds msg)
    {data : List UInt8} (hdata : Md5Fits data) : (md5Append cpu pms data).Holds (msg ++ data) := by
  have hnbytes : (data.length : Int).bmod (2 ^ 32) = data.length := by
    unfold Md5Fits at hdata
    exact Int.bmod_eq_of_le (by omega) (by omega)
  unfold md5Append
  simp only [hnbytes]
  by_cases hnone : data = []
  · rw [hnone, List.append_nil]
    exact h
  · have hpos := List.length_pos_iff.2 hnone
    rw [if_neg (by omega), Int.toNat_natCast, List.take_length]
    exact md5Piece_holds cpu h data

/-! ## A message from its pieces -/

theorem md5Init_holds (pms : Md5State) : (md5Init pms).Holds [] where
  bits := rfl
  abcd := by
    have hiv : (md5Init pms).abcd = md5Iv := by
      simp only [md5Init, md5Iv]
      decide
    exact hiv
  buf := rfl

theorem md5Pieces_holds (cpu : Cpu) {pieces : List (List UInt8)} (hp : ∀ p ∈ pieces, Md5Fits p)
    {pms : Md5State} {msg : List UInt8} (h : pms.Holds msg) :
    (pieces.foldl (md5Append cpu) pms).Holds (msg ++ pieces.flatten) := by
  induction pieces generalizing pms msg with
  | nil =>
    rw [List.flatten_nil, List.append_nil]
    exact h
  | cons piece pieces ih =>
    rw [List.foldl_cons, List.flatten_cons, ← List.append_assoc]
    rw [List.forall_mem_cons] at hp
    exact ih hp.2 (md5Append_holds cpu h hp.1)

/-- A byte of a word is a digit of its number. -/
theorem wordByte_eq (x : UInt32) {j : Nat} (hj : j < 4) :
    (x >>> UInt32.ofNat (j * 8)).toUInt8 = UInt8.ofNat (x.toNat / 256 ^ j % 256) := by
  apply UInt8.toNat_inj.1
  have hshift : (UInt32.ofNat (j * 8)).toNat % 32 = 8 * j := by
    rw [UInt32.toNat_ofNat']
    omega
  rw [UInt32.toNat_toUInt8, UInt32.toNat_shiftRight, hshift, Nat.shiftRight_eq_div_pow,
    Nat.pow_mul, UInt8.toNat_ofNat']
  simp

theorem le_four (n : Nat) :
    Bytes.le 4 n = (List.range 4).map fun j => UInt8.ofNat (n / 256 ^ j % 256) := by
  simp only [Bytes.le, List.range, List.range.loop, List.map_cons, List.map_nil,
    Nat.div_div_eq_div_mul, Nat.pow_zero, Nat.div_one, Nat.reduceMul, Nat.reducePow]

/-- The bytes of some words, four for each. -/
theorem wordBytes_cons (n : Nat) (x : UInt32) (ws : List UInt32) :
    wordBytes (4 + n) (x :: ws) = Bytes.le 4 x.toNat ++ wordBytes n ws := by
  rw [wordBytes, List.range_add, List.map_append, List.map_map, le_four]
  congr 1
  · refine List.map_congr_left fun j hj => ?_
    have hj := List.mem_range.1 hj
    rw [Nat.div_eq_of_lt hj, Nat.mod_eq_of_lt hj, List.getD_cons_zero, wordByte_eq x hj]
  · refine List.map_congr_left fun j _ => ?_
    simp only [Function.comp_apply]
    rw [Nat.add_div_left j (by decide), Nat.add_mod_left, List.getD_cons_succ]

/-- The length that `md5_finish` appends. -/
theorem Md5State.Holds.length_eq {pms : Md5State} {msg : List UInt8} (h : pms.Holds msg) :
    wordBytes 8 [pms.count0, pms.count1] = Bytes.le 8 (8 * msg.length) := by
  have h0 := pms.count0.toNat_lt
  have hlow : Bytes.le 4 pms.bits = Bytes.le 4 pms.count0.toNat := by
    rw [← Bytes.le_mod 4 pms.bits, Md5State.bits]
    congr 1
    omega
  have hhigh : pms.bits / 256 ^ 4 = pms.count1.toNat := by
    rw [Md5State.bits]
    omega
  calc wordBytes 8 [pms.count0, pms.count1]
      = Bytes.le 4 pms.count0.toNat ++ Bytes.le 4 pms.count1.toNat := by
        rw [wordBytes_cons 4, wordBytes_cons 0]
        exact congrArg _ (List.append_nil _)
    _ = Bytes.le 8 pms.bits := by rw [Bytes.le_append 4 4, hlow, hhigh]
    _ = Bytes.le 8 (8 * msg.length) := by
        rw [h.bits]
        exact Bytes.le_mod 8 (8 * msg.length)

/-- The bytes of `pad` that `md5_finish` appends. -/
theorem Md5State.Holds.pad_eq {pms : Md5State} {msg : List UInt8} (h : pms.Holds msg) :
    md5Pad.take ((((55 : UInt32) - (pms.count0 >>> 3)) &&& 63).toNat + 1) =
      0x80 :: List.replicate ((119 - msg.length % 64) % 64) 0 := by
  have hbits := h.bits
  have h0 := pms.count0.toNat_lt
  unfold Md5State.bits at hbits
  have hzeros : (((55 : UInt32) - (pms.count0 >>> 3)) &&& 63).toNat =
      (119 - msg.length % 64) % 64 := by
    rw [UInt32.toNat_and, show (63 : UInt32).toNat = 2 ^ 6 - 1 from rfl,
      Nat.and_two_pow_sub_one_eq_mod, UInt32.toNat_sub, UInt32.toNat_shiftRight,
      Nat.shiftRight_eq_div_pow, show (3 : UInt32).toNat % 32 = 3 from rfl,
      show (55 : UInt32).toNat = 55 from rfl]
    omega
  rw [hzeros, md5Pad, List.take_succ_cons, List.take_replicate]
  congr 2
  omega

theorem md5Finish_eq (cpu : Cpu) {pms : Md5State} {msg : List UInt8} (h : pms.Holds msg) :
    md5Finish cpu pms = md5 msg := by
  have hpad : Md5Fits (0x80 :: List.replicate ((119 - msg.length % 64) % 64) 0) := by
    rw [Md5Fits, List.length_cons, List.length_replicate]
    omega
  have hlength : Md5Fits (Bytes.le 8 (8 * msg.length)) := by
    rw [Md5Fits, Bytes.length_le]
    decide
  have hend := md5Append_holds cpu (md5Append_holds cpu h hpad) hlength
  rw [List.append_assoc, List.cons_append] at hend
  unfold md5Finish
  simp only [h.pad_eq, h.length_eq, hend.abcd]
  rw [wordBytes_cons 12, wordBytes_cons 8, wordBytes_cons 4, wordBytes_cons 0]
  exact congrArg _ (congrArg _ (congrArg _ (List.append_nil _)))

/-- **A digest does not depend on the pieces**: on a CPU of either byte order, whatever was left in
the state, `md5_init`, `md5_append` for each piece and `md5_finish` give the digest of the message
that the pieces make, if none of them is too long for an `int`. -/
theorem md5_streamed (cpu : Cpu) (pms : Md5State) {pieces : List (List UInt8)}
    (hp : ∀ p ∈ pieces, Md5Fits p) :
    md5Finish cpu (pieces.foldl (md5Append cpu) (md5Init pms)) = md5 pieces.flatten :=
  md5Finish_eq cpu (md5Pieces_holds cpu hp (md5Init_holds pms))

/-- `abc` in three pieces, one of them empty. -/
theorem md5_streamed_abc :
    md5Finish .bigEndian ([[97, 98], [], [99]].foldl (md5Append .bigEndian)
      (md5Init { count0 := 5, count1 := 0, abcd := ⟨0, 0, 0, 0⟩, buf := fun _ => 1 })) =
    [0x90, 0x01, 0x50, 0x98, 0x3c, 0xd2, 0x4f, 0xb0, 0xd6, 0x96, 0x3f, 0x7d, 0x28, 0xe1, 0x7f,
      0x72] := by
  have hfits : ∀ p ∈ [[97, 98], [], [(99 : UInt8)]], Md5Fits p := by
    unfold Md5Fits
    decide
  exact (md5_streamed .bigEndian _ hfits).trans (by decide +kernel)

end NfsRods
