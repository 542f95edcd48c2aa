import NfsRods.ReadDir

/-!
# One page of a directory

A reply of `read_dir` holds entries from the one that the cookie names on, as far as there is room.

* `entriesFrom`: the entries of a page, with their cookies; `Page`: what a page of a listing is.
* `exists_cookie`: every entry has a cookie.
* `readDirLoop_fills`, `readDir_fills`: a reply of `read_dir` is an error or a page.
-/

namespace NfsRods

open CStr

/-! ## Cookies -/

/-- The entry that a cookie names. -/
def startOf (rcookie cookie : UInt64) : Nat :=
  (if cookie ≠ 0 ∧ cookie &&& 0xffffffff00000000 ≠ rcookie then 0 else cookie &&& 0xffffffff).toNat

theorem ofNat_getLsbD {c i : Nat} (h : c < 2 ^ 32) (hi : 32 ≤ i) :
    (UInt64.ofNat c).toBitVec.getLsbD i = false := by
  have hc : c.testBit i = false :=
    Nat.testBit_lt_two_pow (h.trans_le (Nat.pow_le_pow_right (by omega) hi))
  rw [show (UInt64.ofNat c).toBitVec = BitVec.ofNat 64 c from rfl, BitVec.getLsbD_ofNat, hc,
    Bool.and_false]

theorem upper_cookie (q : UInt64) {c : Nat} (h : c < 2 ^ 32) :
    (UInt64.ofNat c ||| q <<< 32) &&& (0xffffffff00000000 : UInt64) = q <<< (32 : UInt64) := by
  have hmask : ∀ i < 64, (0xffffffff00000000#64).getLsbD i = decide (32 ≤ i) := by decide
  refine UInt64.toBitVec_inj.1 (BitVec.eq_of_getLsbD_eq fun i hi => ?_)
  by_cases h32 : i < 32
  · simp [h32, hmask i hi]
  · simp [h32, hmask i hi, ofNat_getLsbD h (not_lt.1 h32), not_lt.1 h32]

theorem lower_cookie (q : UInt64) {c : Nat} (h : c < 2 ^ 32) :
    (UInt64.ofNat c ||| q <<< 32) &&& (0xffffffff : UInt64) = UInt64.ofNat c := by
  have hmask : ∀ i < 64, (0xffffffff#64).getLsbD i = decide (i < 32) := by decide
  refine UInt64.toBitVec_inj.1 (BitVec.eq_of_getLsbD_eq fun i hi => ?_)
  by_cases h32 : i < 32
  · simp [h32, hmask i hi]
  · simp [h32, hmask i hi, ofNat_getLsbD h (not_lt.1 h32)]

section
variable {L R : Type} {w : World L R}

/-! ## The page -/

/-- The path of an entry of the directory `path`. -/
def scratchOf (path name : CStr) : CStr :=
  if path = root then root ++ name else path ++ root ++ name

/-- An entry of the directory `path` that READDIR can return. -/
def Usable (w : World L R) (k : L) (path : CStr) (x : Dirent) : Prop :=
  path.length + x.name.length + 1 < maxPathLen ∧ ∃ b, w.lstat k (scratchOf path x.name) = .ok b

/-- The entries `xs` of a page on which `i` entries stand before them. -/
def entriesFrom (w : World L R) (k : L) (path : CStr) (cookie rcookie : UInt64) :
    Nat → List Dirent → List Entry3
  | _, [] => []
  | i, x :: xs =>
    { fileid := (statOrZero w k (scratchOf path x.name)).ino
      name := x.name
      cookie := (cookie + 1 + UInt64.ofNat i) ||| rcookie } ::
      entriesFrom w k path cookie rcookie (i + 1) xs

theorem entriesFrom_names (k : L) (path : CStr) (cookie rcookie : UInt64) (i : Nat)
    (xs : List Dirent) :
    (entriesFrom w k path cookie rcookie i xs).map (·.name) = xs.map (·.name) := by
  induction xs generalizing i with
  | nil => rfl
  | cons x xs ih => rw [entriesFrom, List.map_cons, List.map_cons, ih]

theorem entriesFrom_eq_nil {k : L} {path : CStr} {cookie rcookie : UInt64} {i : Nat}
    {xs : List Dirent} : entriesFrom w k path cookie rcookie i xs = [] ↔ xs = [] := by
  cases xs <;> simp [entriesFrom]

/-- The cookie of the last entry of a page. -/
theorem entriesFrom_last (k : L) (path : CStr) (cookie rcookie : UInt64) (i : Nat) (x : Dirent)
    (xs : List Dirent) :
    (entriesFrom w k path cookie rcookie i (x :: xs)).getLast?.map (·.cookie) =
      some ((cookie + 1 + UInt64.ofNat (i + xs.length)) ||| rcookie) := by
  induction xs generalizing i x with
  | nil => rfl
  | cons y xs ih =>
    have h := ih (i + 1) y
    rw [entriesFrom, List.getLast?_cons]
    cases hl : (entriesFrom w k path cookie rcookie (i + 1) (y :: xs)).getLast? with
    | none =>
      rw [hl] at h
      cases h
    | some e =>
      rw [hl] at h
      rw [List.length_cons, Option.getD_some, show i + (xs.length + 1) = i + 1 + xs.length by omega]
      exact h

/-- A reply with the entries `acc` so far and those of `es` that the page has room for, `i` of them
being there already and `n` bytes used. -/
def Fills (w : World L R) (k : L) (path : CStr) (cookie rcookie : UInt64) (count : Nat)
    (es : List Dirent) (i n : Nat) (acc : List Entry3) (r : Readdir3res) : Prop :=
  ∃ j ≤ es.length, r.entries = acc.reverse ++ entriesFrom w k path cookie rcookie i (es.take j) ∧
    (r.eof = true ↔ j = es.length) ∧ (i ≤ maxEntries → i + j ≤ maxEntries) ∧
    (i = 0 → n < count → es ≠ [] → 0 < j) ∧ (count ≤ n → j = 0)

/-- The page ends before the entries `x :: es`. -/
theorem fills_none (k : L) (path : CStr) (cookie rcookie : UInt64) (count : Nat) (x : Dirent)
    (es : List Dirent) (i n : Nat) (acc : List Entry3) (h : ¬ (i = 0 ∧ n < count)) :
    Fills w k path cookie rcookie count (x :: es) i n acc
      { status := .ok, entries := acc.reverse, eof := false } :=
  ⟨0, Nat.zero_le _, by simp [entriesFrom], by simp, id, fun hi hn => absurd ⟨hi, hn⟩ h,
    fun _ => rfl⟩

/-- The page goes on after the entry `x`. -/
theorem Fills.cons {k : L} {path : CStr} {cookie rcookie : UInt64} {count : Nat} {x : Dirent}
    {es : List Dirent} {i n m : Nat} {acc : List Entry3} {r : Readdir3res} {fileid : ULong}
    (h : Fills w k path cookie rcookie count es (i + 1) m
      ({ fileid, name := x.name, cookie := (cookie + 1 + UInt64.ofNat i) ||| rcookie } :: acc) r)
    (hino : (statOrZero w k (scratchOf path x.name)).ino = fileid)
    (hroom : n < count ∧ i < maxEntries) :
    Fills w k path cookie rcookie count (x :: es) i n acc r := by
  obtain ⟨j, hj, hentries, heof, hmax, _, _⟩ := h
  refine ⟨j + 1, Nat.succ_le_succ hj, ?_, ?_, fun _ => ?_, fun _ _ _ => Nat.succ_pos j, ?_⟩
  · rw [hentries, List.take_succ_cons, entriesFrom, hino]
    simp
  · rw [heof, List.length_cons, Nat.succ_inj]
  · have := hmax hroom.2
    omega
  · intro hle
    omega

theorem readDirLoop_fills (path : CStr) (cookie rcookie : UInt64) (count : Nat)
    (es : List Dirent) (i n : Nat) (acc : List Entry3) (s : Server L R) :
    ∃ r, (readDirLoop w path cookie rcookie count es i n acc s).1 = .ok r ∧
      (r.status = .ok → Fills w s.kernel path cookie rcookie count es i n acc r) ∧
      ((∀ x ∈ es, Usable w s.kernel path x) ∨ count ≤ n → r.status = .ok) := by
  induction es generalizing i n acc with
  | nil =>
    refine ⟨{ status := .ok, entries := acc.reverse, eof := true }, rfl, fun _ => ?_, fun _ => rfl⟩
    exact ⟨0, le_rfl, by simp [entriesFrom], by simp, id, fun _ _ h => absurd rfl h, fun _ => rfl⟩
  | cons x es ih =>
    unfold readDirLoop
    by_cases hroom : n < count ∧ i < maxEntries
    · rw [if_pos hroom]
      by_cases hlen : path.length + x.name.length + 1 < maxPathLen
      · rw [if_pos hlen]
        change ∃ r, ((lstat w (scratchOf path x.name) >>= _ : M L R Readdir3res) s).1 = .ok r ∧ _
        cases hstat : w.lstat s.kernel (scratchOf path x.name) with
        | error e =>
          have hrun : lstat w (scratchOf path x.name) s = (.ok none, { s with errno := e }) :=
            query_error hstat
          rw [Prog.bind_ok hrun]
          refine ⟨_, rfl, fun h => absurd h (readdirErr_ne_ok e), fun h => ?_⟩
          obtain ⟨b, hb⟩ := ((h.resolve_right hroom.1.not_ge) x List.mem_cons_self).2
          rw [hstat] at hb
          cases hb
        | ok b =>
          have hrun : lstat w (scratchOf path x.name) s = (.ok (some b), s) := query_ok hstat
          rw [Prog.bind_ok hrun]
          dsimp only
          by_cases hover : count < n + entrySize + nameSize x.name ∧ 0 < i
          · rw [if_pos hover]
            refine ⟨_, rfl, fun _ => fills_none _ _ _ _ _ _ _ _ _ _ fun h => ?_, fun _ => rfl⟩
            omega
          · rw [if_neg hover]
            obtain ⟨r, hr, hfills, hok⟩ := ih (i + 1) (n + entrySize + nameSize x.name)
              ({ fileid := b.ino, name := x.name
                 cookie := (cookie + 1 + UInt64.ofNat i) ||| rcookie } :: acc)
            refine ⟨r, hr, fun hst => ?_, fun h => hok (.inl fun y hy => ?_)⟩
            · have hino : (statOrZero w s.kernel (scratchOf path x.name)).ino = b.ino := by
                rw [statOrZero, hstat]
              exact (hfills hst).cons hino hroom
            · exact (h.resolve_right hroom.1.not_ge) y (List.mem_cons_of_mem _ hy)
      · rw [if_neg hlen]
        refine ⟨{ status := .io }, rfl, fun h => ?_, fun h => ?_⟩
        · cases h
        · exact absurd ((h.resolve_right hroom.1.not_ge) x List.mem_cons_self).1 hlen
    · rw [if_neg hroom]
      refine ⟨_, rfl, fun _ => fills_none _ _ _ _ _ _ _ _ _ _ fun h => hroom ⟨h.2, ?_⟩,
        fun _ => rfl⟩
      rw [h.1]
      decide

/-- A page of the listing `es`: some of its entries from position `q` on, and whether they are the
last. -/
def Page (w : World L R) (k : L) (path : CStr) (rcookie : UInt64) (count : Nat) (es : List Dirent)
    (q : Nat) (r : Readdir3res) : Prop :=
  Fills w k path (UInt64.ofNat q) rcookie (min count 4096) (es.drop q) 0 resokSize [] r

/-- **A reply of `read_dir`** for a directory that can be opened is an error or a page from the
cookie on; it is no error when all entries can be returned, or none has room. -/
theorem readDir_fills {path : CStr} {es : List Dirent} {s : Server L R}
    (hes : w.readdir s.kernel path = .ok es) (cookie : UInt64) (count : Nat) :
    ∃ r, (readDir w path cookie count s).1 = .ok r ∧
      (r.status = .ok → Page w s.kernel path s.rcookie count es (startOf s.rcookie cookie) r) ∧
      ((∀ x ∈ es, Usable w s.kernel path x) ∨ count ≤ resokSize → r.status = .ok) := by
  have hcount : (if 4096 < count then 4096 else count) = min count 4096 := by
    split <;> omega
  obtain ⟨r, hr, hfills, hok⟩ := readDirLoop_fills (w := w) path
    (if cookie ≠ 0 ∧ cookie &&& 0xffffffff00000000 ≠ s.rcookie then 0 else cookie &&& 0xffffffff)
    s.rcookie (min count 4096) (es.drop (startOf s.rcookie cookie)) 0 resokSize [] s
  refine ⟨r, ?_, fun hst => ?_, fun h => hok (h.imp (fun hall x hx => ?_) fun hle => ?_)⟩
  · rw [readDir, Prog.get_bind_run, Prog.bind_ok (query_ok hes), hcount]
    exact hr
  · rw [Page, startOf, UInt64.ofNat_toNat]
    exact hfills hst
  · exact hall x (List.mem_of_mem_drop hx)
  · omega

end

end NfsRods
