import NfsRods.Lib.Codec

/-!
# How much a codec writes

How many bytes a codec writes of each value (`Codec.Takes`), and a bound on them (`Codec.Within`),
with a lemma for each combinator: what a codec that is built takes is the sum of what its parts do.
-/

namespace Xdr.Codec

variable {α β δ : Type}

/-- What is written of `a` takes `n a` bytes. -/
def Takes (f : Codec α) (n : α → Nat) : Prop := ∀ a out, f.encode a = some out → out.length = n a

/-- What is written of `a` takes `n a` bytes at most. -/
def Within (f : Codec α) (n : α → Nat) : Prop :=
  ∀ a out, f.encode a = some out → out.length ≤ n a

/-! ## The bytes -/

section
variable {f : Codec α} {g : Codec β} {n : α → Nat} {m : β → Nat}

theorem takes_void : void.Takes fun _ => 0 := by
  rintro a out ⟨⟩
  rfl

theorem takes_data (k : Nat) : (data k).Takes fun _ => roundUp k := by
  intro d out h
  obtain ⟨hlen, rfl⟩ := encode_data.1 h
  exact length_fixed_eq hlen

theorem takes_word : word.Takes fun _ => 4 := by
  intro a out h
  rw [encode_word] at h
  cases h
  exact length_unit _

theorem takes_hyper : hyper.Takes fun _ => 8 := by
  intro a out h
  rw [encode_hyper] at h
  cases h
  exact length_hyper _

theorem takes_flag : flag.Takes fun _ => 4 := by
  intro a out h
  rw [encode_flag] at h
  cases h
  exact length_bool _

theorem takes_ulong : ulong.Takes fun _ => 4 := by
  intro a out h
  obtain ⟨-, rfl⟩ := encode_ulong.1 h
  exact length_unit _

theorem takes_bytes (max : Nat) : (bytes max).Takes fun d => 4 + roundUp d.length := by
  intro d out h
  obtain ⟨-, -, rfl⟩ := encode_bytes.1 h
  exact length_string _

theorem takes_string (max : Nat) : (string max).Takes fun s => 4 + roundUp s.length := by
  intro s out h
  obtain ⟨-, -, -, rfl⟩ := encode_string.1 h
  exact length_string _

theorem Takes.iso (h : f.Takes n) {put : β → α} {get : α → β} {hput : ∀ b, get (put b) = b}
    {hget : ∀ a, put (get a) = a} : (f.iso put get hput hget).Takes fun b => n (put b) := by
  intro b out henc
  obtain ⟨a, ha, hout⟩ := encode_via.1 henc
  cases ha
  exact h _ out hout

theorem Takes.seq (hf : f.Takes n) (hg : g.Takes m) :
    (f.seq g).Takes fun p => n p.1 + m p.2 := by
  intro p out henc
  obtain ⟨x, y, hx, hy, rfl⟩ := encode_seq.1 henc
  rw [List.length_append, hf _ x hx, hg _ y hy]

theorem Takes.optional (h : f.Takes n) : (optional f).Takes fun o => 4 + o.elim 0 n := by
  rintro (_ | a) out henc
  · rw [encode_optional_none] at henc
    cases henc
    exact length_bool false
  · obtain ⟨y, hy, rfl⟩ := encode_optional_some.1 henc
    rw [List.length_append, length_bool, h a y hy]
    rfl

theorem Takes.linked (h : f.Takes n) :
    (linked f).Takes fun as => 4 + (as.map fun a => n a + 4).sum := by
  have hupto : ∀ (as : List α) (k : Nat) (out : List UInt8), (linkedUpTo f k).encode as = some out →
      out.length = 4 + (as.map fun a => n a + 4).sum := by
    intro as
    induction as with
    | nil =>
      intro k out henc
      cases k with
      | zero => cases henc
      | succ k =>
        rw [encode_linkedUpTo_nil] at henc
        cases henc
        exact length_bool false
    | cons a as ih =>
      intro k out henc
      cases k with
      | zero => cases henc
      | succ k =>
        obtain ⟨x, y, hx, hy, rfl⟩ := encode_linkedUpTo_cons.1 henc
        have hhead := h a x hx
        have htail := ih k y hy
        rw [List.length_append, List.length_append, length_bool, List.map_cons, List.sum_cons]
        omega
  intro as out henc
  exact hupto as (as.length + 1) out henc

theorem Takes.exactly {k : Nat} (h : f.Takes n) :
    (exactly f k).Takes fun as => (as.map n).sum := by
  induction k with
  | zero =>
    intro as out henc
    obtain ⟨_, rfl, hvoid⟩ := encode_ctor.1 henc
    exact takes_void _ out hvoid
  | succ k ih =>
    intro as out henc
    obtain ⟨p, rfl, hseq⟩ := encode_ctor.1 henc
    exact h.seq ih p out hseq

theorem Takes.array (h : f.Takes n) (max : Nat) :
    (array f max).Takes fun as => 4 + (as.map n).sum := by
  intro as out henc
  obtain ⟨-, -, y, hy, rfl⟩ := encode_counted.1 henc
  rw [List.length_append, length_unit, h.exactly as y hy]

/-! ## Bounds -/

theorem Takes.within (h : f.Takes n) {n' : α → Nat} (hle : ∀ a, n a ≤ n' a) : f.Within n' :=
  fun a out henc => (h a out henc).trans_le (hle a)

theorem within_bytes (max : Nat) : (bytes max).Within fun _ => 4 + roundUp max := by
  intro d out h
  obtain ⟨hle, -, -⟩ := encode_bytes.1 h
  have hout : out.length = 4 + roundUp d.length := takes_bytes max d out h
  show out.length ≤ 4 + roundUp max
  unfold roundUp at hout ⊢
  omega

theorem Takes.bound (h : f.Takes n) : f.Within n := h.within fun _ => Nat.le_refl _

theorem Within.iso (h : f.Within n) {put : β → α} {get : α → β} {hput : ∀ b, get (put b) = b}
    {hget : ∀ a, put (get a) = a} : (f.iso put get hput hget).Within fun b => n (put b) := by
  intro b out henc
  obtain ⟨a, ha, hout⟩ := encode_via.1 henc
  cases ha
  exact h _ out hout

theorem Within.seq (hf : f.Within n) (hg : g.Within m) :
    (f.seq g).Within fun p => n p.1 + m p.2 := by
  intro p out henc
  obtain ⟨x, y, hx, hy, rfl⟩ := encode_seq.1 henc
  rw [List.length_append]
  exact Nat.add_le_add (hf _ x hx) (hg _ y hy)

/-- A bound for all values that may be there is one for what is there. -/
theorem Within.optional {k : Nat} (h : f.Within fun _ => k) :
    (optional f).Within fun _ => 4 + k := by
  rintro (_ | a) out henc
  · rw [encode_optional_none] at henc
    cases henc
    rw [length_bool]
    exact Nat.le_add_right 4 k
  · obtain ⟨y, hy, rfl⟩ := encode_optional_some.1 henc
    rw [List.length_append, length_bool]
    exact Nat.add_le_add_left (h a y hy) 4

theorem Within.union {disc : Codec UInt32} {c : UInt32} {k : Nat} (hdisc : disc.Within fun _ => k)
    (hf : f.Within n) (hg : g.Within m) :
    (union disc c f g).Within fun u => k + (match u with
      | .arm a => n a
      | .default _ b => m b) := by
  rintro (a | ⟨d, b⟩) out henc
  · obtain ⟨x, y, hx, hy, rfl⟩ := encode_union_arm.1 henc
    rw [List.length_append]
    exact Nat.add_le_add (hdisc c x hx) (hf a y hy)
  · obtain ⟨x, y, hx, hy, rfl⟩ := encode_union_default.1 henc
    rw [List.length_append]
    exact Nat.add_le_add (hdisc _ x hx) (hg b y hy)

end

end Xdr.Codec
