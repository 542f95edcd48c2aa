import Mathlib.Data.List.TakeWhile
import NfsRods.Lib.Xdr

/-!
# XDR codecs

A routine of an XDR library works in both directions: it encodes a value, or it decodes one from the
start of a message and leaves the rest. A `Codec` carries the laws of both directions. Codecs are
built from fixed data by `via` (another type for the same bytes), `seq` (one after the other) and
`switch` (a discriminant selects what follows), so what is built keeps the laws.

* `Codec.canonical`: what is decoded is what its own encoding stands for.
* `Codec.encode_word`, `Codec.encode_string`: they write what the encoders do.
* `Codec.Exact`: which values have an encoding; a lemma for each combinator.
-/

namespace Xdr

/-- A routine for both directions. -/
structure Codec (α : Type) where
  encode : α → Option (List UInt8)
  decode : List UInt8 → Option (α × List UInt8)
  /-- What is written is read back, whatever follows. -/
  decode_encode {a : α} {out : List UInt8} (h : encode a = some out) (rest : List UInt8) :
    decode (out ++ rest) = some (a, rest)
  /-- What is read was there in whole units, and is written again in no more. -/
  encode_decode {bs rest : List UInt8} {a : α} (h : decode bs = some (a, rest)) :
    ∃ used out, bs = used ++ rest ∧ used.length % 4 = 0 ∧ encode a = some out ∧
      out.length ≤ used.length
  /-- What follows is not looked at. -/
  decode_append {bs rest : List UInt8} {a : α} (h : decode bs = some (a, rest))
    (more : List UInt8) : decode (bs ++ more) = some (a, rest ++ more)

namespace Codec

variable {α β δ : Type}

/-! ## What the laws give -/

/-- What is decoded has an encoding, and that stands for the same value. -/
theorem canonical (f : Codec α) {bs rest : List UInt8} {a : α} (h : f.decode bs = some (a, rest)) :
    ∃ out, f.encode a = some out ∧ f.decode out = some (a, []) := by
  obtain ⟨used, out, -, -, henc, -⟩ := f.encode_decode h
  refine ⟨out, henc, ?_⟩
  have := f.decode_encode henc []
  rwa [List.append_nil] at this

/-- The end of the message decoded is what is left. -/
theorem suffix (f : Codec α) {bs rest : List UInt8} {a : α} (h : f.decode bs = some (a, rest)) :
    rest <:+ bs := by
  obtain ⟨used, out, heq, -⟩ := f.encode_decode h
  exact ⟨used, heq.symm⟩

/-! ## Primitives -/

/-- `xdr_void`. -/
def void : Codec Unit where
  encode _ := some []
  decode bs := some ((), bs)
  decode_encode h rest := by
    cases h
    rfl
  encode_decode {bs rest a} h := by
    cases h
    exact ⟨[], [], rfl, rfl, rfl, Nat.le_refl _⟩
  decode_append h more := by
    cases h
    rfl

/-- No value. -/
def fail : Codec α where
  encode _ := none
  decode _ := none
  decode_encode h := by cases h
  encode_decode h := by cases h
  decode_append h := by cases h

/-- `n` bytes in whole units. -/
def roundUp (n : Nat) : Nat := (n + 3) / 4 * 4

theorem le_roundUp (n : Nat) : n ≤ roundUp n := by
  unfold roundUp
  omega

theorem length_fixed_eq {data : List UInt8} {n : Nat} (h : data.length = n) :
    (fixed data).length = roundUp n := by
  rw [length_fixed, h, roundUp]

theorem fixed_take (data : List UInt8) (rest : List UInt8) :
    (fixed data ++ rest).take data.length = data := by
  rw [fixed, List.append_assoc, List.take_left]

/-- `xdr_opaque`: data of a fixed size; what it is padded with is not looked at. -/
def data (n : Nat) : Codec (List UInt8) where
  encode d := if d.length = n then some (fixed d) else none
  decode bs := if roundUp n ≤ bs.length then some (bs.take n, bs.drop (roundUp n)) else none
  decode_encode {d out} h rest := by
    split at h
    · rename_i hd
      cases h
      have hlen := length_fixed_eq hd
      have hin : roundUp n ≤ (fixed d ++ rest).length := by
        rw [List.length_append, hlen]
        omega
      have htake : (fixed d ++ rest).take n = d := by
        rw [← hd]
        exact fixed_take d rest
      rw [if_pos hin, htake, ← hlen, List.drop_left]
    · cases h
  encode_decode {bs rest d} h := by
    split at h
    · rename_i hin
      cases h
      have hn := le_roundUp n
      have hlen : (bs.take n).length = n := by
        rw [List.length_take]
        omega
      refine ⟨bs.take (roundUp n), fixed (bs.take n), (List.take_append_drop _ _).symm, ?_,
        if_pos hlen, ?_⟩
      · rw [List.length_take, Nat.min_eq_left hin, roundUp]
        omega
      · rw [length_fixed_eq hlen, List.length_take, Nat.min_eq_left hin]
    · cases h
  decode_append {bs rest d} h more := by
    split at h
    · rename_i hin
      cases h
      have hn := le_roundUp n
      have hin' : roundUp n ≤ (bs ++ more).length := by
        rw [List.length_append]
        omega
      rw [if_pos hin', List.take_append_of_le_length (by omega),
        List.drop_append_of_le_length hin]
    · cases h

/-! ## Combinators -/

/-- A type whose values stand for some of those of `f`; what is read is read as one of them, which
is not written in more bytes. -/
def via (f : Codec α) (put : β → Option α) (get : α → β)
    (hput : ∀ a b, put b = some a → get a = b)
    (hget : ∀ a out, f.encode a = some out →
      ∃ a' out', put (get a) = some a' ∧ f.encode a' = some out' ∧ out'.length ≤ out.length) :
    Codec β where
  encode b := (put b).bind f.encode
  decode bs := (f.decode bs).map fun r => (get r.1, r.2)
  decode_encode {b out} h rest := by
    obtain ⟨a, ha, hout⟩ := Option.bind_eq_some_iff.1 h
    rw [f.decode_encode hout rest, Option.map_some, hput a b ha]
  encode_decode {bs rest b} h := by
    obtain ⟨⟨a, rest'⟩, hdec, heq⟩ := Option.map_eq_some_iff.1 h
    cases heq
    obtain ⟨used, out, hbs, hmod, henc, hle⟩ := f.encode_decode hdec
    obtain ⟨a', out', hput', henc', hle'⟩ := hget a out henc
    exact ⟨used, out', hbs, hmod, by rw [hput', Option.bind_some, henc'], Nat.le_trans hle' hle⟩
  decode_append {bs rest b} h more := by
    obtain ⟨⟨a, rest'⟩, hdec, heq⟩ := Option.map_eq_some_iff.1 h
    cases heq
    rw [f.decode_append hdec more, Option.map_some]

/-- Another type with the same values. -/
def iso (f : Codec α) (put : β → α) (get : α → β) (hput : ∀ b, get (put b) = b)
    (hget : ∀ a, put (get a) = a) : Codec β :=
  f.via (fun b => some (put b)) get
    (fun a b h => by
      cases h
      exact hput b)
    fun a out h => ⟨a, out, by rw [hget], h, Nat.le_refl _⟩

/-- A constructor of a type with others. -/
def ctor (f : Codec α) (mk : α → β) (get : β → Option α) (h : ∀ a b, get b = some a ↔ mk a = b) :
    Codec β :=
  f.via get mk (fun a b => (h a b).1)
    fun a out henc => ⟨a, out, (h a _).2 rfl, henc, Nat.le_refl _⟩

/-- One after the other. -/
def seq (f : Codec α) (g : Codec β) : Codec (α × β) where
  encode p := (f.encode p.1).bind fun x => (g.encode p.2).map (x ++ ·)
  decode bs := (f.decode bs).bind fun r => (g.decode r.2).map fun q => ((r.1, q.1), q.2)
  decode_encode {p out} h rest := by
    obtain ⟨x, hx, h⟩ := Option.bind_eq_some_iff.1 h
    obtain ⟨y, hy, rfl⟩ := Option.map_eq_some_iff.1 h
    rw [List.append_assoc, f.decode_encode hx, Option.bind_some, g.decode_encode hy,
      Option.map_some]
  encode_decode {bs rest p} h := by
    obtain ⟨⟨a, mid⟩, hf, h⟩ := Option.bind_eq_some_iff.1 h
    obtain ⟨⟨b, rest'⟩, hg, heq⟩ := Option.map_eq_some_iff.1 h
    cases heq
    obtain ⟨used, x, hbs, hmod, hx, hle⟩ := f.encode_decode hf
    obtain ⟨used', y, hmid, hmod', hy, hle'⟩ := g.encode_decode hg
    refine ⟨used ++ used', x ++ y, ?_, ?_, ?_, ?_⟩
    · show bs = used ++ used' ++ rest'
      rw [hbs, List.append_assoc, ← hmid]
    · rw [List.length_append, Nat.add_mod, hmod, hmod']
    · rw [hx, Option.bind_some, hy, Option.map_some]
    · rw [List.length_append, List.length_append]
      omega
  decode_append {bs rest p} h more := by
    obtain ⟨⟨a, mid⟩, hf, h⟩ := Option.bind_eq_some_iff.1 h
    obtain ⟨⟨b, rest'⟩, hg, heq⟩ := Option.map_eq_some_iff.1 h
    cases heq
    rw [f.decode_append hf, Option.bind_some, g.decode_append hg, Option.map_some]

/-- A discriminant in front of what it selects. -/
def switch (disc : Codec δ) (tag : β → δ) (arm : δ → Codec β)
    (h : ∀ d b out, (arm d).encode b = some out → tag b = d) : Codec β where
  encode b := (disc.encode (tag b)).bind fun x => ((arm (tag b)).encode b).map (x ++ ·)
  decode bs := (disc.decode bs).bind fun r => (arm r.1).decode r.2
  decode_encode {b out} henc rest := by
    obtain ⟨x, hx, henc⟩ := Option.bind_eq_some_iff.1 henc
    obtain ⟨y, hy, rfl⟩ := Option.map_eq_some_iff.1 henc
    rw [List.append_assoc, disc.decode_encode hx, Option.bind_some, (arm _).decode_encode hy]
  encode_decode {bs rest b} hdec := by
    obtain ⟨⟨d, mid⟩, hd, hdec⟩ := Option.bind_eq_some_iff.1 hdec
    obtain ⟨used, x, hbs, hmod, hx, hle⟩ := disc.encode_decode hd
    obtain ⟨used', y, hmid, hmod', hy, hle'⟩ := (arm d).encode_decode hdec
    have htag := h d b y hy
    refine ⟨used ++ used', x ++ y, ?_, ?_, ?_, ?_⟩
    · rw [hbs, List.append_assoc, ← hmid]
    · rw [List.length_append, Nat.add_mod, hmod, hmod']
    · rw [htag, hx, Option.bind_some, hy, Option.map_some]
    · rw [List.length_append, List.length_append]
      omega
  decode_append {bs rest b} hdec more := by
    obtain ⟨⟨d, mid⟩, hd, hdec⟩ := Option.bind_eq_some_iff.1 hdec
    rw [disc.decode_append hd, Option.bind_some, (arm d).decode_append hdec]

/-! ## What a built codec writes -/

theorem encode_via {f : Codec α} {put : β → Option α} {get : α → β}
    {hput : ∀ a b, put b = some a → get a = b}
    {hget : ∀ a out, f.encode a = some out →
      ∃ a' out', put (get a) = some a' ∧ f.encode a' = some out' ∧ out'.length ≤ out.length}
    {b : β} {out : List UInt8} :
    (f.via put get hput hget).encode b = some out ↔ ∃ a, put b = some a ∧ f.encode a = some out :=
  Option.bind_eq_some_iff

theorem encode_ctor {f : Codec α} {mk : α → β} {get : β → Option α}
    {h : ∀ a b, get b = some a ↔ mk a = b} {b : β} {out : List UInt8} :
    (f.ctor mk get h).encode b = some out ↔ ∃ a, mk a = b ∧ f.encode a = some out := by
  rw [ctor, encode_via]
  exact exists_congr fun a => and_congr_left fun _ => h a b

theorem encode_seq {f : Codec α} {g : Codec β} {p : α × β} {out : List UInt8} :
    (f.seq g).encode p = some out ↔
      ∃ x y, f.encode p.1 = some x ∧ g.encode p.2 = some y ∧ x ++ y = out := by
  simp only [seq, Option.bind_eq_some_iff, Option.map_eq_some_iff]
  constructor
  · rintro ⟨x, hx, y, hy, h⟩
    exact ⟨x, y, hx, hy, h⟩
  · rintro ⟨x, y, hx, hy, h⟩
    exact ⟨x, hx, y, hy, h⟩

theorem encode_switch {disc : Codec δ} {tag : β → δ} {arm : δ → Codec β}
    {h : ∀ d b out, (arm d).encode b = some out → tag b = d} {b : β} {out : List UInt8} :
    (switch disc tag arm h).encode b = some out ↔
      ∃ x y, disc.encode (tag b) = some x ∧ (arm (tag b)).encode b = some y ∧ x ++ y = out := by
  simp only [switch, Option.bind_eq_some_iff, Option.map_eq_some_iff]
  constructor
  · rintro ⟨x, hx, y, hy, h⟩
    exact ⟨x, y, hx, hy, h⟩
  · rintro ⟨x, y, hx, hy, h⟩
    exact ⟨x, hx, y, hy, h⟩

theorem encode_data {n : Nat} {d out : List UInt8} :
    (data n).encode d = some out ↔ d.length = n ∧ fixed d = out := by
  show (if d.length = n then some (fixed d) else none) = some out ↔ _
  split <;> simp_all

theorem decode_iso {f : Codec α} {put : β → α} {get : α → β} {hput : ∀ b, get (put b) = b}
    {hget : ∀ a, put (get a) = a} (bs : List UInt8) :
    (f.iso put get hput hget).decode bs = (f.decode bs).map fun r => (get r.1, r.2) :=
  rfl

theorem decode_seq (f : Codec α) (g : Codec β) (bs : List UInt8) :
    (f.seq g).decode bs =
      (f.decode bs).bind fun r => (g.decode r.2).map fun q => ((r.1, q.1), q.2) :=
  rfl

theorem decode_switch {disc : Codec δ} {tag : β → δ} {arm : δ → Codec β}
    {h : ∀ d b out, (arm d).encode b = some out → tag b = d} (bs : List UInt8) :
    (switch disc tag arm h).decode bs = (disc.decode bs).bind fun r => (arm r.1).decode r.2 :=
  rfl

/-! ## Numbers -/

theorem num_lt {bs : List UInt8} {k : Nat} (h : bs.length = k) : Bytes.num bs < 256 ^ k := by
  induction bs generalizing k with
  | nil =>
    cases h
    exact Nat.one_pos
  | cons b bs ih =>
    cases h
    have hb := b.toNat_lt
    have hbs := ih rfl
    rw [Bytes.num, List.length_cons, Nat.pow_succ]
    omega

theorem le_num {bs : List UInt8} {k : Nat} (h : bs.length = k) :
    Bytes.le k (Bytes.num bs) = bs := by
  induction bs generalizing k with
  | nil =>
    cases h
    rfl
  | cons b bs ih =>
    cases h
    have hb := b.toNat_lt
    have hlow : (b.toNat + 256 * Bytes.num bs) % 256 = b.toNat := by omega
    have hhigh : (b.toNat + 256 * Bytes.num bs) / 256 = Bytes.num bs := by omega
    rw [Bytes.num, List.length_cons, Bytes.le, hlow, hhigh, ih rfl, UInt8.ofNat_toNat]

/-- A number of `k` bytes with the most significant first, as a type with as many values. -/
def number (k : Nat) (val : α → Nat) (ofNat : Nat → α) (hval : ∀ a, ofNat (val a) = a)
    (hlt : ∀ a, val a < 256 ^ k) (hof : ∀ n, n < 256 ^ k → val (ofNat n) = n) : Codec α :=
  (data k).via (fun a => some (Bytes.le k (val a)).reverse)
    (fun d => ofNat (Bytes.num d.reverse))
    (fun a b h => by
      cases h
      rw [List.reverse_reverse, Bytes.num_le, Nat.mod_eq_of_lt (hlt b), hval])
    fun d out h => by
      have hd : d.reverse.length = k := by
        rw [List.length_reverse]
        exact (encode_data.1 h).1
      refine ⟨d, out, ?_, h, Nat.le_refl _⟩
      rw [hof _ (num_lt hd), le_num hd, List.reverse_reverse]

/-- `xdr_int`, `xdr_u_int`, `xdr_enum`: one unit. -/
def word : Codec UInt32 :=
  number 4 UInt32.toNat UInt32.ofNat (fun _ => UInt32.ofNat_toNat) (fun a => a.toNat_lt)
    fun _ h => UInt32.toNat_ofNat_of_lt' h

/-- `xdr_uint64_t`: two units. -/
def hyper : Codec UInt64 :=
  number 8 UInt64.toNat UInt64.ofNat (fun _ => UInt64.ofNat_toNat) (fun a => a.toNat_lt)
    fun _ h => UInt64.toNat_ofNat_of_lt' h

theorem encode_number {k : Nat} {val : α → Nat} {ofNat : Nat → α} (hval : ∀ a, ofNat (val a) = a)
    (hlt : ∀ a, val a < 256 ^ k) (hof : ∀ n, n < 256 ^ k → val (ofNat n) = n) (hk : k % 4 = 0)
    (a : α) : (number k val ofNat hval hlt hof).encode a = some (Bytes.le k (val a)).reverse := by
  have hlen : (Bytes.le k (val a)).reverse.length = k := by simp
  have hfixed : fixed (Bytes.le k (val a)).reverse = (Bytes.le k (val a)).reverse := by
    rw [fixed, hlen, hk]
    exact List.append_nil _
  rw [number, encode_via]
  exact ⟨_, rfl, encode_data.2 ⟨hlen, hfixed⟩⟩

theorem encode_word (w : UInt32) : word.encode w = some (unit w.toNat) := encode_number _ _ _ rfl w

theorem encode_hyper (n : UInt64) : hyper.encode n = some (Xdr.hyper n.toNat) :=
  encode_number _ _ _ rfl n

/-- `xdr_bool`: every word but zero is read as true. -/
def flag : Codec Bool :=
  word.via (fun b => some (if b then 1 else 0)) (fun w => w != 0)
    (fun a b h => by
      cases h
      cases b <;> rfl)
    fun w out h => by
      rw [encode_word] at h
      cases h
      refine ⟨_, _, rfl, encode_word _, ?_⟩
      rw [length_unit, length_unit]

theorem encode_flag (b : Bool) : flag.encode b = some (Xdr.bool b) := by
  cases b <;> exact encode_via.2 ⟨_, rfl, encode_word _⟩

/-- `xdr_u_long` where an `unsigned long` has 64 bits: a number with more than 32 is not written. -/
def ulong : Codec UInt64 :=
  word.ctor UInt32.toUInt64 (fun n => if n.toNat < 2 ^ 32 then some n.toUInt32 else none)
    fun w n => by
      have hw := w.toNat_lt
      constructor
      · intro h
        split at h
        · rename_i hn
          cases h
          apply UInt64.toNat_inj.1
          rw [UInt32.toNat_toUInt64, UInt64.toNat_toUInt32, Nat.mod_eq_of_lt hn]
        · cases h
      · rintro rfl
        rw [if_pos (by rwa [UInt32.toNat_toUInt64]), UInt32.toUInt32_toUInt64]

/-! ## Counted data -/

/-- A count of at most `max` in front of as many items. -/
def counted (max : Nat) (arm : Nat → Codec (List α))
    (h : ∀ n as out, (arm n).encode as = some out → as.length = n) : Codec (List α) :=
  switch word (fun as => UInt32.ofNat as.length)
    (fun n => if n.toNat ≤ max then arm n.toNat else fail)
    fun n as out henc => by
      split at henc
      · rw [h _ _ _ henc, UInt32.ofNat_toNat]
      · cases henc

theorem encode_counted {max : Nat} {arm : Nat → Codec (List α)}
    {h : ∀ n as out, (arm n).encode as = some out → as.length = n} {as : List α}
    {out : List UInt8} :
    (counted max arm h).encode as = some out ↔ as.length ≤ max ∧ as.length < 2 ^ 32 ∧
      ∃ y, (arm as.length).encode as = some y ∧ unit as.length ++ y = out := by
  have htoNat : (UInt32.ofNat as.length).toNat = as.length % 2 ^ 32 := UInt32.toNat_ofNat'
  simp only [counted, encode_switch, encode_word, htoNat]
  constructor
  · rintro ⟨x, y, hx, hy, rfl⟩
    split at hy
    · rename_i hle
      have hmod := h _ _ _ hy
      rw [← hmod] at hx hy hle
      cases hx
      exact ⟨hle, by omega, y, hy, rfl⟩
    · cases hy
  · rintro ⟨hle, hlt, y, hy, rfl⟩
    rw [Nat.mod_eq_of_lt hlt, if_pos hle]
    exact ⟨_, y, rfl, hy, rfl⟩

/-- `xdr_bytes`. -/
def bytes (max : Nat) : Codec (List UInt8) := counted max data fun _ _ _ h => (encode_data.1 h).1

theorem encode_bytes {max : Nat} {d out : List UInt8} :
    (bytes max).encode d = some out ↔ d.length ≤ max ∧ d.length < 2 ^ 32 ∧ Xdr.string d = out := by
  simp only [bytes, encode_counted, encode_data, true_and, exists_eq_left', Xdr.string]

/-- Exactly `n` items. -/
def exactly (f : Codec α) : Nat → Codec (List α)
  | 0 => void.ctor (fun _ => []) (fun as => if as = [] then some () else none) (by simp [eq_comm])
  | n + 1 => (f.seq (exactly f n)).ctor (fun p => p.1 :: p.2)
      (fun as => match as with
        | [] => none
        | a :: as => some (a, as))
      (by rintro ⟨a, as⟩ (_ | ⟨b, bs⟩) <;> simp [eq_comm])

theorem length_exactly (f : Codec α) {n : Nat} {as : List α} {out : List UInt8}
    (h : (exactly f n).encode as = some out) : as.length = n := by
  induction n generalizing as out with
  | zero =>
    obtain ⟨_, rfl, -⟩ := encode_ctor.1 h
    rfl
  | succ n ih =>
    obtain ⟨p, rfl, h⟩ := encode_ctor.1 h
    obtain ⟨x, y, -, hy, -⟩ := encode_seq.1 h
    rw [List.length_cons, ih hy]

/-- `xdr_array`. -/
def array (f : Codec α) (max : Nat) : Codec (List α) :=
  counted max (exactly f) fun _ _ _ h => length_exactly f h

/-- The string in a buffer ends at the first NUL. -/
theorem takeWhile_nul {s : List UInt8} (h : 0 ∉ s) : s.takeWhile (· ≠ 0) = s := by
  rw [List.takeWhile_eq_self_iff]
  intro c hc
  refine decide_eq_true fun h0 => h ?_
  rwa [← h0]

theorem nul_not_mem_takeWhile (s : List UInt8) : 0 ∉ s.takeWhile (· ≠ 0) := by
  intro hmem
  simpa using List.mem_takeWhile_imp hmem

/-- `xdr_string`: a string is written without its terminator, and what is read ends at the first
NUL. -/
def string (max : Nat) : Codec (List UInt8) :=
  (bytes max).via (fun s => if 0 ∈ s then none else some s) (List.takeWhile (· ≠ 0))
    (fun a b h => by
      split at h
      · cases h
      · rename_i hnul
        cases h
        exact takeWhile_nul hnul)
    fun d out h => by
      obtain ⟨hmax, hlt, rfl⟩ := encode_bytes.1 h
      have hle := (List.takeWhile_prefix (fun c : UInt8 => decide (c ≠ 0)) (l := d)).length_le
      refine ⟨_, _, if_neg (nul_not_mem_takeWhile d), encode_bytes.2 ⟨by omega, by omega, rfl⟩, ?_⟩
      rw [length_string, length_string]
      omega

theorem encode_string {max : Nat} {s out : List UInt8} :
    (string max).encode s = some out ↔
      0 ∉ s ∧ s.length ≤ max ∧ s.length < 2 ^ 32 ∧ Xdr.string s = out := by
  simp only [string, encode_via, encode_bytes]
  constructor
  · rintro ⟨a, ha, hout⟩
    split at ha
    · cases ha
    · rename_i hnul
      cases ha
      exact ⟨hnul, hout⟩
  · rintro ⟨hnul, hout⟩
    exact ⟨s, if_neg hnul, hout⟩

/-! ## Unions and lists -/

/-- The arm of an optional value that is there. -/
def present (f : Codec α) : Codec (Option α) := f.ctor some id (by simp [eq_comm])

/-- The arm of one that is not. -/
def absent : Codec (Option α) :=
  void.ctor (fun _ => none) (fun a => if a.isNone then some () else none)
    (by rintro _ (_ | a) <;> simp)

theorem encode_present {f : Codec α} {a : Option α} {out : List UInt8} :
    f.present.encode a = some out ↔ ∃ b, some b = a ∧ f.encode b = some out := by
  rw [present, encode_ctor]

theorem encode_absent {a : Option α} {out : List UInt8} :
    absent.encode a = some out ↔ a = none ∧ out = [] := by
  rw [absent, encode_ctor]
  constructor
  · rintro ⟨_, rfl, h⟩
    cases h
    exact ⟨rfl, rfl⟩
  · rintro ⟨rfl, rfl⟩
    exact ⟨(), rfl, rfl⟩

/-- A value that is there or not, behind a flag: a pointer, or a union on a `bool_t`. -/
def optional (f : Codec α) : Codec (Option α) :=
  switch flag Option.isSome (fun more => if more then f.present else absent)
    fun more a out h => by
      split at h
      · rename_i hmore
        obtain ⟨a, rfl, -⟩ := encode_present.1 h
        exact hmore.symm
      · rename_i hmore
        obtain ⟨rfl, -⟩ := encode_absent.1 h
        exact (Bool.not_eq_true _ ▸ hmore).symm

theorem decode_optional (f : Codec α) (bs : List UInt8) :
    (optional f).decode bs = (flag.decode bs).bind fun r =>
      if r.1 then (f.decode r.2).map fun q => (some q.1, q.2) else some (none, r.2) := by
  rw [optional, decode_switch]
  congr 1
  funext r
  obtain ⟨more, rest⟩ := r
  cases more <;> rfl

theorem encode_optional_none (f : Codec α) : (optional f).encode none = some (Xdr.bool false) := by
  rw [optional, encode_switch]
  exact ⟨_, [], encode_flag false, encode_absent.2 ⟨rfl, rfl⟩, List.append_nil _⟩

theorem encode_optional_some {f : Codec α} {a : α} {out : List UInt8} :
    (optional f).encode (some a) = some out ↔
      ∃ y, f.encode a = some y ∧ Xdr.bool true ++ y = out := by
  rw [optional, encode_switch]
  simp only [encode_flag, Option.isSome_some, ↓reduceIte, encode_present]
  constructor
  · rintro ⟨x, y, hx, ⟨b, hb, hy⟩, rfl⟩
    cases hx
    cases hb
    exact ⟨y, hy, rfl⟩
  · rintro ⟨y, hy, rfl⟩
    exact ⟨_, y, rfl, ⟨a, rfl, hy⟩, rfl⟩

/-- A union with an arm for the discriminant `c` and one for all others. -/
inductive Union (c : UInt32) (α β : Type)
  | arm (a : α)
  | default (d : { d : UInt32 // d ≠ c }) (b : β)
  deriving DecidableEq

/-- The discriminant. -/
def Union.tag {c : UInt32} : Union c α β → UInt32
  | .arm _ => c
  | .default d _ => d

/-- The arm of the discriminant `c`. -/
def unionArm {c : UInt32} (f : Codec α) : Codec (Union c α β) :=
  f.ctor .arm (fun
    | .arm a => some a
    | .default _ _ => none) (by rintro a (b | b) <;> simp [eq_comm])

/-- The arm of another discriminant. -/
def unionDefault {c : UInt32} (d : { d : UInt32 // d ≠ c }) (g : Codec β) :
    Codec (Union c α β) :=
  g.ctor (.default d) (fun
    | .arm _ => none
    | .default d' b => if d' = d then some b else none) (by
      rintro a (b | ⟨d', b⟩) <;> simp [eq_comm])

/-- A union on an enumeration with the routine `disc`. -/
def union (disc : Codec UInt32) (c : UInt32) (f : Codec α) (g : Codec β) : Codec (Union c α β) :=
  switch disc Union.tag
    (fun d => if h : d = c then unionArm f else unionDefault ⟨d, h⟩ g)
    fun d b out h => by
      split at h
      · rename_i hd
        rw [unionArm, encode_ctor] at h
        obtain ⟨a, rfl, -⟩ := h
        exact hd.symm
      · rw [unionDefault, encode_ctor] at h
        obtain ⟨a, rfl, -⟩ := h
        rfl

theorem encode_union_arm {disc : Codec UInt32} {c : UInt32} {f : Codec α} {g : Codec β} {a : α}
    {out : List UInt8} :
    (union disc c f g).encode (.arm a) = some out ↔
      ∃ x y, disc.encode c = some x ∧ f.encode a = some y ∧ x ++ y = out := by
  rw [union, encode_switch, show (Union.arm a : Union c α β).tag = c from rfl, dif_pos rfl]
  simp only [unionArm, encode_ctor]
  constructor
  · rintro ⟨x, y, hx, ⟨a', ha, hy⟩, hout⟩
    cases ha
    exact ⟨x, y, hx, hy, hout⟩
  · rintro ⟨x, y, hx, hy, hout⟩
    exact ⟨x, y, hx, ⟨a, rfl, hy⟩, hout⟩

theorem encode_union_default {disc : Codec UInt32} {c : UInt32} {f : Codec α} {g : Codec β}
    {d : { d : UInt32 // d ≠ c }} {b : β} {out : List UInt8} :
    (union disc c f g).encode (.default d b) = some out ↔
      ∃ x y, disc.encode d = some x ∧ g.encode b = some y ∧ x ++ y = out := by
  rw [union, encode_switch, show (Union.default d b : Union c α β).tag = d.1 from rfl, dif_neg d.2]
  simp only [unionDefault, encode_ctor]
  constructor
  · rintro ⟨x, y, hx, ⟨b', hb, hy⟩, hout⟩
    cases hb
    exact ⟨x, y, hx, hy, hout⟩
  · rintro ⟨x, y, hx, hy, hout⟩
    exact ⟨x, y, hx, ⟨b, rfl, hy⟩, hout⟩

/-- A linked list of fewer than `n` elements. -/
def linkedUpTo (f : Codec α) : Nat → Codec (List α)
  | 0 => fail
  | n + 1 => (optional (f.seq (linkedUpTo f n))).iso
      (fun as => match as with
        | [] => none
        | a :: as => some (a, as))
      (fun p => match p with
        | none => []
        | some (a, as) => a :: as)
      (by rintro (_ | ⟨a, as⟩) <;> rfl) (by rintro (_ | ⟨a, as⟩) <;> rfl)

theorem encode_linkedUpTo_nil (f : Codec α) (n : Nat) :
    (linkedUpTo f (n + 1)).encode [] = some (Xdr.bool false) :=
  encode_optional_none (f.seq (linkedUpTo f n))

theorem encode_linkedUpTo_cons {f : Codec α} {n : Nat} {a : α} {as : List α} {out : List UInt8} :
    (linkedUpTo f (n + 1)).encode (a :: as) = some out ↔
      ∃ x y, f.encode a = some x ∧ (linkedUpTo f n).encode as = some y ∧
        Xdr.bool true ++ (x ++ y) = out := by
  rw [show (linkedUpTo f (n + 1)).encode (a :: as) =
    (optional (f.seq (linkedUpTo f n))).encode (some (a, as)) from rfl, encode_optional_some]
  simp only [encode_seq]
  constructor
  · rintro ⟨_, ⟨x, y, hx, hy, rfl⟩, rfl⟩
    exact ⟨x, y, hx, hy, rfl⟩
  · rintro ⟨x, y, hx, hy, rfl⟩
    exact ⟨_, ⟨x, y, hx, hy, rfl⟩, rfl⟩

/-- Any bound above the length serves. -/
theorem encode_linkedUpTo_congr (f : Codec α) {as : List α} {n m : Nat} (hn : as.length < n)
    (hm : as.length < m) : (linkedUpTo f n).encode as = (linkedUpTo f m).encode as := by
  induction as generalizing n m with
  | nil =>
    obtain ⟨n, rfl⟩ := Nat.exists_eq_add_one.2 hn
    obtain ⟨m, rfl⟩ := Nat.exists_eq_add_one.2 hm
    rw [encode_linkedUpTo_nil, encode_linkedUpTo_nil]
  | cons a as ih =>
    obtain ⟨n, rfl⟩ := Nat.exists_eq_add_one.2 (Nat.zero_lt_of_lt hn)
    obtain ⟨m, rfl⟩ := Nat.exists_eq_add_one.2 (Nat.zero_lt_of_lt hm)
    rw [List.length_cons] at hn hm
    refine Option.ext fun out => ?_
    rw [encode_linkedUpTo_cons, encode_linkedUpTo_cons, ih (Nat.lt_of_succ_lt_succ hn)
      (Nat.lt_of_succ_lt_succ hm)]

/-- Every element takes a unit at least. -/
theorem length_linkedUpTo {f : Codec α} {as : List α} {n : Nat} {out : List UInt8}
    (h : (linkedUpTo f n).encode as = some out) : as.length < n ∧ as.length < out.length := by
  induction as generalizing n out with
  | nil =>
    cases n with
    | zero => cases h
    | succ n =>
      rw [encode_linkedUpTo_nil] at h
      cases h
      exact ⟨Nat.zero_lt_succ n, by rw [length_bool]; exact Nat.zero_lt_succ 3⟩
  | cons a as ih =>
    cases n with
    | zero => cases h
    | succ n =>
      obtain ⟨x, y, -, hy, rfl⟩ := encode_linkedUpTo_cons.1 h
      obtain ⟨hn, hout⟩ := ih hy
      rw [List.length_append, List.length_append, length_bool, List.length_cons]
      omega

/-- A higher bound reads the same. -/
theorem decode_linkedUpTo_mono (f : Codec α) {n m : Nat} (hnm : n ≤ m) {bs : List UInt8}
    {r : List α × List UInt8} (h : (linkedUpTo f n).decode bs = some r) :
    (linkedUpTo f m).decode bs = some r := by
  induction n generalizing m bs r with
  | zero => cases h
  | succ n ih =>
    obtain ⟨m, rfl⟩ := Nat.exists_eq_add_one.2 (Nat.zero_lt_of_lt hnm)
    rw [linkedUpTo, decode_iso, decode_optional] at h ⊢
    obtain ⟨o, hopt, rfl⟩ := Option.map_eq_some_iff.1 h
    obtain ⟨⟨more, mid⟩, hflag, hmore⟩ := Option.bind_eq_some_iff.1 hopt
    rw [hflag, Option.bind_some]
    cases more with
    | false =>
      cases hmore
      rfl
    | true =>
      obtain ⟨p, hseq, rfl⟩ := Option.map_eq_some_iff.1 hmore
      obtain ⟨⟨a, mid'⟩, ha, hrest⟩ := Option.bind_eq_some_iff.1 hseq
      obtain ⟨q, hq, rfl⟩ := Option.map_eq_some_iff.1 hrest
      rw [if_pos rfl, decode_seq, ha, Option.bind_some, ih (Nat.le_of_succ_le_succ hnm) hq]
      rfl

/-- `xdr_pointer` to the first of a linked list, whose elements end with a pointer to the next. -/
def linked (f : Codec α) : Codec (List α) where
  encode as := (linkedUpTo f (as.length + 1)).encode as
  decode bs := (linkedUpTo f (bs.length + 1)).decode bs
  decode_encode {as out} h rest := by
    have hlen := (length_linkedUpTo h).2
    have hcongr := encode_linkedUpTo_congr f (Nat.lt_succ_self as.length)
      (m := (out ++ rest).length + 1) (by rw [List.length_append]; omega)
    exact (linkedUpTo f _).decode_encode (hcongr ▸ h) rest
  encode_decode {bs rest as} h := by
    obtain ⟨used, out, hbs, hmod, henc, hle⟩ := (linkedUpTo f _).encode_decode h
    refine ⟨used, out, hbs, hmod, ?_, hle⟩
    rw [encode_linkedUpTo_congr f (Nat.lt_succ_self _) (length_linkedUpTo henc).1]
    exact henc
  decode_append {bs rest as} h more := by
    refine decode_linkedUpTo_mono f ?_ ((linkedUpTo f _).decode_append h more)
    rw [List.length_append]
    omega

/-! ## What has an encoding -/

/-- The values that have an encoding are those with the property `P`. -/
def Exact (f : Codec α) (P : α → Prop) : Prop := ∀ a, (∃ out, f.encode a = some out) ↔ P a

/-- What is written, and so what is read, has the property `P`. -/
def Only (f : Codec α) (P : α → Prop) : Prop := ∀ a out, f.encode a = some out → P a

theorem Only.decoded {f : Codec α} {P : α → Prop} (h : f.Only P) {bs rest : List UInt8} {a : α}
    (hdec : f.decode bs = some (a, rest)) : P a := by
  obtain ⟨_, out, -, -, henc, -⟩ := f.encode_decode hdec
  exact h a out henc

theorem Exact.only {f : Codec α} {P Q : α → Prop} (h : f.Exact P) (hPQ : ∀ a, P a → Q a) :
    f.Only Q := fun a out henc => hPQ a ((h a).1 ⟨out, henc⟩)

theorem Exact.congr {f : Codec α} {P Q : α → Prop} (h : f.Exact P) (hPQ : ∀ a, P a ↔ Q a) :
    f.Exact Q := fun a => (h a).trans (hPQ a)

theorem exact_void : void.Exact fun _ => True := fun _ => iff_of_true ⟨[], rfl⟩ trivial

theorem exact_data (n : Nat) : (data n).Exact fun d => d.length = n := fun d => by
  simp only [encode_data, exists_and_left, exists_eq', and_true]

theorem exact_word : word.Exact fun _ => True := fun w => iff_of_true ⟨_, encode_word w⟩ trivial

theorem exact_hyper : hyper.Exact fun _ => True := fun n => iff_of_true ⟨_, encode_hyper n⟩ trivial

theorem exact_flag : flag.Exact fun _ => True := fun b => iff_of_true ⟨_, encode_flag b⟩ trivial

theorem exact_bytes {max : Nat} (hmax : max < 2 ^ 32) :
    (bytes max).Exact fun d => d.length ≤ max := fun d => by
  simp only [encode_bytes, exists_and_left, exists_eq', and_true]
  exact ⟨And.left, fun h => ⟨h, Nat.lt_of_le_of_lt h hmax⟩⟩

theorem exact_string {max : Nat} (hmax : max < 2 ^ 32) :
    (string max).Exact fun s => 0 ∉ s ∧ s.length ≤ max := fun s => by
  simp only [encode_string, exists_and_left, exists_eq', and_true]
  exact ⟨fun h => ⟨h.1, h.2.1⟩, fun h => ⟨h.1, h.2, Nat.lt_of_le_of_lt h.2 hmax⟩⟩

theorem Exact.iso {f : Codec α} {P : α → Prop} (h : f.Exact P) {put : β → α} {get : α → β}
    {hput : ∀ b, get (put b) = b} {hget : ∀ a, put (get a) = a} :
    (f.iso put get hput hget).Exact fun b => P (put b) := by
  intro b
  refine Iff.trans (exists_congr fun out => ?_) (h (put b))
  rw [Codec.iso, encode_via]
  simp only [Option.some.injEq, exists_eq_left']

theorem Exact.ctor {f : Codec α} {P : α → Prop} (h : f.Exact P) {mk : α → β}
    {get : β → Option α} {hmk : ∀ a b, get b = some a ↔ mk a = b} :
    (f.ctor mk get hmk).Exact fun b => ∃ a, mk a = b ∧ P a := by
  intro b
  simp only [encode_ctor]
  constructor
  · rintro ⟨out, a, hb, hout⟩
    exact ⟨a, hb, (h a).1 ⟨out, hout⟩⟩
  · rintro ⟨a, hb, ha⟩
    obtain ⟨out, hout⟩ := (h a).2 ha
    exact ⟨out, a, hb, hout⟩

theorem Exact.seq {f : Codec α} {g : Codec β} {P : α → Prop} {Q : β → Prop} (hf : f.Exact P)
    (hg : g.Exact Q) : (f.seq g).Exact fun p => P p.1 ∧ Q p.2 := by
  intro p
  simp only [encode_seq, ← hf p.1, ← hg p.2]
  constructor
  · rintro ⟨out, x, y, hx, hy, -⟩
    exact ⟨⟨x, hx⟩, y, hy⟩
  · rintro ⟨⟨x, hx⟩, y, hy⟩
    exact ⟨x ++ y, x, y, hx, hy, rfl⟩

theorem Exact.switch {disc : Codec δ} {tag : β → δ} {arm : δ → Codec β} {D : δ → Prop}
    {P : δ → β → Prop} {h : ∀ d b out, (arm d).encode b = some out → tag b = d}
    (hdisc : disc.Exact D) (harm : ∀ d, (arm d).Exact (P d)) :
    (switch disc tag arm h).Exact fun b => D (tag b) ∧ P (tag b) b := by
  intro b
  simp only [encode_switch, ← hdisc (tag b), ← harm (tag b) b]
  constructor
  · rintro ⟨out, x, y, hx, hy, -⟩
    exact ⟨⟨x, hx⟩, y, hy⟩
  · rintro ⟨⟨x, hx⟩, y, hy⟩
    exact ⟨x ++ y, x, y, hx, hy, rfl⟩

theorem Exact.optional {f : Codec α} {P : α → Prop} (h : f.Exact P) :
    (optional f).Exact fun o => ∀ a ∈ o, P a := by
  rintro (_ | a)
  · exact iff_of_true ⟨_, encode_optional_none f⟩ (by simp)
  · simp only [encode_optional_some, Option.mem_some_iff, forall_eq', ← h a]
    constructor
    · rintro ⟨out, y, hy, -⟩
      exact ⟨y, hy⟩
    · rintro ⟨y, hy⟩
      exact ⟨_, y, hy, rfl⟩

/-- What its arm says of a union. -/
def Union.Holds {c : UInt32} (P : α → Prop) (Q : β → Prop) : Union c α β → Prop
  | .arm a => P a
  | .default _ b => Q b

theorem Exact.union {disc : Codec UInt32} {c : UInt32} {f : Codec α} {g : Codec β} {P : α → Prop}
    {Q : β → Prop} (hdisc : disc.Exact fun _ => True) (hf : f.Exact P) (hg : g.Exact Q) :
    (union disc c f g).Exact (Union.Holds P Q) := by
  rintro (a | ⟨d, b⟩)
  · simp only [encode_union_arm, Union.Holds, ← hf a]
    constructor
    · rintro ⟨out, x, y, -, hy, -⟩
      exact ⟨y, hy⟩
    · rintro ⟨y, hy⟩
      obtain ⟨x, hx⟩ := (hdisc c).2 trivial
      exact ⟨_, x, y, hx, hy, rfl⟩
  · simp only [encode_union_default, Union.Holds, ← hg b]
    constructor
    · rintro ⟨out, x, y, -, hy, -⟩
      exact ⟨y, hy⟩
    · rintro ⟨y, hy⟩
      obtain ⟨x, hx⟩ := (hdisc d).2 trivial
      exact ⟨_, x, y, hx, hy, rfl⟩

theorem Exact.linked {f : Codec α} {P : α → Prop} (h : f.Exact P) :
    (linked f).Exact fun as => ∀ a ∈ as, P a := by
  intro as
  induction as with
  | nil => exact iff_of_true ⟨_, encode_linkedUpTo_nil f 0⟩ (by simp)
  | cons a as ih =>
    simp only [List.forall_mem_cons, ← h a, ← ih]
    simp only [Codec.linked, List.length_cons, encode_linkedUpTo_cons]
    constructor
    · rintro ⟨out, x, y, hx, hy, -⟩
      exact ⟨⟨x, hx⟩, y, hy⟩
    · rintro ⟨⟨x, hx⟩, y, hy⟩
      exact ⟨_, x, y, hx, hy, rfl⟩

theorem Exact.exactly {f : Codec α} {P : α → Prop} (h : f.Exact P) (n : Nat) :
    (exactly f n).Exact fun as => as.length = n ∧ ∀ a ∈ as, P a := by
  induction n with
  | zero =>
    refine exact_void.ctor.congr fun as => ?_
    cases as <;> simp
  | succ n ih =>
    refine (h.seq ih).ctor.congr fun as => ?_
    cases as with
    | nil => simp
    | cons a as => simp [and_left_comm, and_assoc]

theorem Exact.array {f : Codec α} {P : α → Prop} (h : f.Exact P) {max : Nat} (hmax : max < 2 ^ 32) :
    (array f max).Exact fun as => as.length ≤ max ∧ ∀ a ∈ as, P a := by
  intro as
  have hexact := h.exactly as.length as
  simp only [true_and] at hexact
  simp only [Codec.array, encode_counted, ← hexact]
  constructor
  · rintro ⟨out, hle, -, y, hy, -⟩
    exact ⟨hle, y, hy⟩
  · rintro ⟨hle, y, hy⟩
    exact ⟨_, hle, Nat.lt_of_le_of_lt hle hmax, y, hy, rfl⟩

theorem encode_ulong {n : UInt64} {out : List UInt8} :
    ulong.encode n = some out ↔ n.toNat < 2 ^ 32 ∧ unit n.toNat = out := by
  rw [ulong, encode_ctor]
  constructor
  · rintro ⟨w, rfl, h⟩
    rw [encode_word] at h
    cases h
    rw [UInt32.toNat_toUInt64]
    exact ⟨w.toNat_lt, rfl⟩
  · rintro ⟨hn, rfl⟩
    have hw : n.toUInt32.toNat = n.toNat := by
      rw [UInt64.toNat_toUInt32, Nat.mod_eq_of_lt hn]
    refine ⟨n.toUInt32, UInt64.toNat_inj.1 ?_, ?_⟩
    · rw [UInt32.toNat_toUInt64, hw]
    · rw [encode_word, hw]

theorem exact_ulong : ulong.Exact fun n => n.toNat < 2 ^ 32 := fun n => by
  simp only [encode_ulong, exists_and_left, exists_eq', and_true]

end Codec

end Xdr
