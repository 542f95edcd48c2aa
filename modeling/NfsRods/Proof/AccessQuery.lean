import Mathlib.Data.List.TakeWhile
import NfsRods.Rods

/-!
# Asking for the access type of an object

`fileMode` asks iRODS for the access types of an object, by its name and its collection, and keeps
one value of what may be many rows: the first row of the last batch. The question does not name a
user, so any user's right may be the one it keeps.

* `AnswersAccess`: what iRODS promises of such a query.
* `modeQuery_eq`: which object the query is about.
* `fileMode_run`: the value `fileMode` returns is the first of the last batch of rows; without rows
  the daemon stops.
* `fileMode_ends`: the mode, or the stop, that the answers of iRODS lead to (`Answered`).
-/

namespace NfsRods

open CStr

/-! ## Rights -/

/-- A right on an object: who holds it, and its access type (1200 own, 1120 write, 1050 read). -/
structure Right where
  user : CStr
  level : Nat
  deriving DecidableEq

/-- The rights on an object, one for each user who holds one. -/
structure Acl where
  rights : List Right
  nodup : (rights.map (·.user)).Nodup

/-- The access type of a user's own right, 0 if there is none. -/
def Acl.levelOf (a : Acl) (user : CStr) : Nat :=
  (a.rights.find? fun x => x.user = user).elim 0 (·.level)

/-! ## Queries and their answers -/

/-- The condition for a single value. -/
def equals (v : CStr) : CStr := lit "='" ++ v ++ lit "'"

/-- The query for the access types of the object `name` in the collection `coll`. -/
def accessQuery (coll name : CStr) : GenQueryInp :=
  { selects := [700], conds := [(403, equals name), (501, equals coll)] }

theorem length_equals (v : CStr) : (equals v).length = v.length + 3 := by
  simp only [equals, List.length_append]
  show 2 + v.length + 1 = v.length + 3
  omega

theorem equals_inj {v v' : CStr} (h : equals v = equals v') : v = v' := by
  unfold equals at h
  exact List.append_cancel_left (List.append_cancel_right h)

theorem accessQuery_inj {c c' n n' : CStr} (h : accessQuery c n = accessQuery c' n') :
    c = c' ∧ n = n' := by
  simp only [accessQuery, GenQueryInp.mk.injEq, List.cons.injEq, Prod.mk.injEq, true_and,
    and_true] at h
  exact ⟨equals_inj h.2, equals_inj h.1⟩

section
variable {L R : Type}

/-- The rows that the query and its continuations deliver, in batches. -/
inductive Batches (w : World L R) (comm : Comm) : GenQueryInp → R → List (List Nat) → Prop
  | none {inp : GenQueryInp} {r : R}
      (hst : (w.rods (.rcGenQuery comm inp) r).1.status = catNoRowsFound) : Batches w comm inp r []
  | last {inp : GenQueryInp} {r : R} {l : Nat} {b : List Nat}
      (hst : (w.rods (.rcGenQuery comm inp) r).1.status = 0)
      (hq : (w.rods (.rcGenQuery comm inp) r).1.query =
        some { rowCnt := (l :: b).length, values := [decimal l], continueInx := 0 }) :
      Batches w comm inp r [l :: b]
  | more {inp : GenQueryInp} {r : R} {l : Nat} {b : List Nat} {i : Int} {bs : List (List Nat)}
      (hst : (w.rods (.rcGenQuery comm inp) r).1.status = 0)
      (hq : (w.rods (.rcGenQuery comm inp) r).1.query =
        some { rowCnt := (l :: b).length, values := [decimal l], continueInx := i })
      (hi : i ≠ 0)
      (h : Batches w comm { inp with continueInx := i } (w.rods (.rcGenQuery comm inp) r).2 bs) :
      Batches w comm inp r ((l :: b) :: bs)

/-- What iRODS promises of the query for access types: one row for each user who holds a right on
the object, in any order and in as many batches as it likes. Only calls that change something in the
store change rights. -/
structure AnswersAccess (w : World L R) (acl : R → CStr → CStr → Acl) (comm : Comm) : Prop where
  rows : ∀ r coll name, ∃ bs, Batches w comm (accessQuery coll name) r bs ∧
    bs.flatten.Perm ((acl r coll name).rights.map (·.level)) ∧
    bs.length ≤ w.catalogue (w.rods (.rcGenQuery comm (accessQuery coll name)) r).2 + 1
  keeps : ∀ {c r}, c.mutates = false → acl (w.rods c r).2 = acl r

/-! ## The loop of `genQuery` -/

variable {w : World L R} {comm : Comm}

/-- The first row of the last batch. -/
def lastRow (bs : List (List Nat)) : Option Nat := bs.getLast?.bind List.head?

theorem lastRow_cons (b : List Nat) {bs : List (List Nat)} (h : bs ≠ []) :
    lastRow (b :: bs) = lastRow bs := by
  rw [lastRow, lastRow, List.getLast?_cons_of_ne_nil h]

theorem lastRow_mem {bs : List (List Nat)} {l : Nat} (h : lastRow bs = some l) :
    l ∈ bs.flatten := by
  obtain ⟨b, hb, hl⟩ := Option.bind_eq_some_iff.1 h
  exact List.mem_flatten.2 ⟨b, List.mem_of_getLast? hb, List.mem_of_head? hl⟩

theorem Batches.query {inp : GenQueryInp} {r : R} {b : List Nat} {bs : List (List Nat)}
    (h : Batches w comm inp r (b :: bs)) :
    (w.rods (.rcGenQuery comm inp) r).1.status = 0 ∧
      ∃ out, (w.rods (.rcGenQuery comm inp) r).1.query = some out := by
  cases h with
  | last hst hq => exact ⟨hst, _, hq⟩
  | more hst hq _ _ => exact ⟨hst, _, hq⟩

/-- The loop ends with the first row of the last batch. -/
theorem Batches.loop {inp : GenQueryInp} {r : R} {bs : List (List Nat)}
    (h : Batches w comm inp r bs) :
    ∀ {out}, (w.rods (.rcGenQuery comm inp) r).1.query = some out →
      ∀ {fuel} {values : List CStr} {s : Server L R}, bs ≠ [] → bs.length ≤ fuel →
        s.rods = (w.rods (.rcGenQuery comm inp) r).2 → ∃ st l s1, lastRow bs = some l ∧
          genQueryLoop w comm inp fuel out values s = (.ok (st, [decimal l]), s1) ∧
          (st = 0 ∨ st = catNoRowsFound) := by
  induction h with
  | none hst =>
    intro out _ fuel values s hne
    exact absurd rfl hne
  | @last inp r l b hst hq =>
    intro out hout fuel values s _ hfuel _
    obtain rfl := Option.some.inj (hq.symm.trans hout)
    obtain ⟨fuel, rfl⟩ : ∃ n, fuel = n + 1 := ⟨fuel - 1, by simp at hfuel; omega⟩
    exact ⟨0, l, s, rfl, by simp [genQueryLoop], .inl rfl⟩
  | @more inp r l b i bs hst hq hi h ih =>
    intro out hout fuel values s _ hfuel hs
    obtain rfl := Option.some.inj (hq.symm.trans hout)
    obtain ⟨fuel, rfl⟩ : ∃ n, fuel = n + 1 := ⟨fuel - 1, by simp at hfuel; omega⟩
    have hcall : rods w (.rcGenQuery comm { inp with continueInx := i }) s =
        (.ok (w.rods (.rcGenQuery comm { inp with continueInx := i }) s.rods).1,
          (rods w (.rcGenQuery comm { inp with continueInx := i }) s).2) := rfl
    rw [genQueryLoop]
    simp only [List.length_cons, Nat.add_one_ne_zero, ↓reduceIte, hi]
    rw [Prog.bind_ok hcall, hs]
    cases hbs : bs with
    | nil =>
      rw [hbs] at h
      cases h with
      | none hst' =>
        refine ⟨catNoRowsFound, l, (rods w (.rcGenQuery comm { inp with continueInx := i }) s).2,
          show lastRow [l :: b] = some l from rfl, ?_, .inr rfl⟩
        cases (w.rods (.rcGenQuery comm { inp with continueInx := i })
            (w.rods (.rcGenQuery comm inp) r).2).1.query with
        | none => rw [hst']; rfl
        | some out' => rw [hst']; rfl
    | cons b' bs' =>
      rw [hbs] at h ih hfuel
      obtain ⟨hst', out', hout'⟩ := h.query
      rw [hout', hst']
      simp only [↓reduceIte]
      have hlater : (rods w (.rcGenQuery comm { inp with continueInx := i }) s).2.rods =
          (w.rods (.rcGenQuery comm { inp with continueInx := i })
            (w.rods (.rcGenQuery comm inp) r).2).2 := by
        rw [← hs]
        rfl
      obtain ⟨st, l', s1, hl', hrun, hst1⟩ := ih hout' (by simp) (by simpa using hfuel) hlater
      exact ⟨st, l', s1, by rw [lastRow_cons _ (by simp), hl'], hrun, hst1⟩

/-- `genQuery` gives the values of one row, or none if there are no rows. -/
theorem Batches.genQuery {inp : GenQueryInp} {s : Server L R} {bs : List (List Nat)}
    (h : Batches w comm inp s.rods bs)
    (hfuel : bs.length ≤ w.catalogue (w.rods (.rcGenQuery comm inp) s.rods).2 + 1) :
    ∃ s1, genQuery w comm inp s = (.ok (0, (lastRow bs).map fun l => [decimal l]), s1) := by
  have hcall : rods w (.rcGenQuery comm inp) s =
      (.ok (w.rods (.rcGenQuery comm inp) s.rods).1, (rods w (.rcGenQuery comm inp) s).2) := rfl
  rw [NfsRods.genQuery, Prog.bind_ok hcall]
  cases hbs : bs with
  | nil =>
    rw [hbs] at h
    cases h with
    | none hst =>
      rw [hst, if_pos (by decide)]
      exact ⟨_, rfl⟩
  | cons b bs' =>
    rw [hbs] at h hfuel
    obtain ⟨hst, out, hout⟩ := h.query
    have hlater : (rods w (.rcGenQuery comm inp) s).2.rods =
        (w.rods (.rcGenQuery comm inp) s.rods).2 := rfl
    obtain ⟨st, l, s1, hl, hrun, hst1⟩ := h.loop hout (by simp) hfuel hlater
    have hzero : (if st = catNoRowsFound then 0 else st) = 0 := by
      rcases hst1 with rfl | rfl <;> decide
    rw [hst, if_neg (by decide), Prog.get_bind_run, hout]
    dsimp only [Option.getD_some]
    refine ⟨s1, ?_⟩
    rw [hlater, Prog.bind_ok hrun, hl]
    simp only [hzero]
    rfl

/-! ## `fileMode` -/

/-- The query `fileMode` makes. -/
def modeQuery (path : CStr) : GenQueryInp :=
  let idx := fileNameLastIndex path
  let name := path.drop (idx + 1)
  { selects := [700]
    conds := [(403, (equals name).take (path.length - 1)),
      (501, (equals (path.take idx ++ name.drop idx)).take (path.length + 9))] }

/-- The last separator of a path in a collection. -/
theorem fileNameLastIndex_child {c n : CStr} (hc : c ≠ []) (hn : slash ∉ n) :
    fileNameLastIndex (c ++ root ++ n) = c.length := by
  have hpos : 0 < c.length := List.length_pos_of_ne_nil hc
  have hlen : (c ++ root ++ n).length = c.length + 1 + n.length := by
    simp [root]
    omega
  have hafter : ∀ j < n.length, (c ++ root ++ n).getD (c.length + 1 + j) 0 ≠ slash := by
    intro j hj
    have hget : (c ++ root ++ n).getD (c.length + 1 + j) 0 = n[j] := by
      rw [List.getD_eq_getElem?_getD, List.getElem?_append_right (by simp [root])]
      simp [root, hj]
    rw [hget]
    exact fun h => hn (h ▸ List.getElem_mem hj)
  have hat : (c ++ root ++ n).getD c.length 0 = slash := by
    simp [root]
  unfold fileNameLastIndex
  rw [hlen, List.range_add, List.reverse_append, List.find?_append, List.range_succ,
    List.reverse_append, List.find?_eq_none.2, Option.none_or]
  · rw [List.reverse_singleton, List.singleton_append, List.find?_cons_of_pos]
    · rfl
    · exact decide_eq_true ⟨hpos, hat⟩
  · intro i hi
    obtain ⟨j, hj, rfl⟩ := List.mem_map.1 (List.mem_reverse.1 hi)
    simpa using hafter j (List.mem_range.1 hj)

/-- A name no longer than the path of its collection is asked for as it is; the rest of a longer one
ends up in the condition on the collection. -/
theorem modeQuery_eq {c n : CStr} (hc : 3 ≤ c.length) (hn : slash ∉ n) :
    modeQuery (c ++ root ++ n) = accessQuery (c ++ n.drop c.length) n := by
  have hne : c ≠ [] := List.ne_nil_of_length_pos (by omega)
  have hlen : (c ++ root ++ n).length = c.length + 1 + n.length := by
    simp [root]
    omega
  have hname : (c ++ root ++ n).drop (c.length + 1) = n := by
    simp [root]
  have hdir : (c ++ root ++ n).take c.length = c := by
    simp
  unfold modeQuery accessQuery
  rw [fileNameLastIndex_child hne hn]
  dsimp only
  rw [hname, hdir, List.take_of_length_le, List.take_of_length_le]
  · rw [length_equals, hlen, List.length_append, List.length_drop]
    omega
  · rw [length_equals, hlen]
    omega

theorem atoi_decimal (n : Nat) : atoi (decimal n) = n := by
  have hall : (decimal n).takeWhile (fun b => 48 ≤ b && b ≤ 57) = decimal n := by
    refine List.takeWhile_eq_self_iff.2 fun b hb => ?_
    obtain ⟨h1, h2⟩ := mem_decimal hb
    rw [Bool.and_eq_true, decide_eq_true_eq, decide_eq_true_eq]
    exact ⟨UInt8.le_iff_toNat_le.2 h1, UInt8.le_iff_toNat_le.2 h2⟩
  rw [atoi, hall, value_decimal]

theorem fileMode_eq (path : CStr) : fileMode w path comm =
    NfsRods.genQuery w comm (modeQuery path) >>= fun x => firstMode x.1 x.2 := rfl

/-- The value of the row that is kept; the daemon does not survive that there is none. -/
theorem fileMode_run {path : CStr} {s : Server L R} {bs : List (List Nat)}
    (h : Batches w comm (modeQuery path) s.rods bs)
    (hfuel : bs.length ≤ w.catalogue (w.rods (.rcGenQuery comm (modeQuery path)) s.rods).2 + 1) :
    ∃ s1, fileMode w path comm s =
      ((lastRow bs).elim (.error .unsetOutput) fun l => .ok (Int.ofNat l), s1) := by
  obtain ⟨s1, h1⟩ := h.genQuery hfuel
  refine ⟨s1, ?_⟩
  rw [fileMode_eq, Prog.bind_ok h1]
  cases lastRow bs with
  | none => rfl
  | some l =>
    simp only [firstMode, Option.map_some, lt_self_iff_false, ↓reduceIte, Option.bind_some,
      List.head?_cons, Option.elim_some, atoi_decimal]
    rfl

/-! ## What the answers of iRODS lead to -/

open Prog (Ends)

/-- What the loop of `genQuery` ends with when it goes on from the iRODS state `r`, and the state
then. -/
def fetched (w : World L R) (comm : Comm) (inp : GenQueryInp) :
    Nat → GenQueryOut → List CStr → R → (Int × List CStr) × R
  | 0, _, values, r => ((0, values), r)
  | fuel + 1, out, values, r =>
    let values := if out.rowCnt = 0 then values else out.values
    if out.continueInx = 0 then ((0, values), r)
    else
      let a := w.rods (.rcGenQuery comm { inp with continueInx := out.continueInx }) r
      match a.1.query with
      | some out =>
        if a.1.status = 0 then fetched w comm inp fuel out values a.2
        else ((a.1.status, values), a.2)
      | none => ((a.1.status, values), a.2)

/-- What `genQuery` gives in the iRODS state `r`, and the state then. -/
def queried (w : World L R) (comm : Comm) (inp : GenQueryInp) (r : R) :
    (Int × Option (List CStr)) × R :=
  let a := w.rods (.rcGenQuery comm inp) r
  if a.1.status ≠ 0 then ((if a.1.status = catNoRowsFound then 0 else a.1.status, none), a.2)
  else
    let out := a.1.query.getD { rowCnt := 0, values := [], continueInx := 0 }
    let b := fetched w comm inp (w.catalogue a.2 + 1) out [] a.2
    ((if b.1.1 = catNoRowsFound then 0 else b.1.1, some b.1.2), b.2)

/-- iRODS answers the question for the mode of `path` with a row, or with an error. -/
def Answered (w : World L R) (comm : Comm) (path : CStr) (r : R) : Prop :=
  let x := (queried w comm (modeQuery path) r).1
  x.1 < 0 ∨ (x.2.bind List.head?).isSome

/-- An index that is overwritten before it is used. -/
theorem genQueryLoop_continueInx (inp : GenQueryInp) (i : Int) (fuel : Nat) (out : GenQueryOut)
    (values : List CStr) : genQueryLoop w comm { inp with continueInx := i } fuel out values =
      genQueryLoop w comm inp fuel out values := by
  cases fuel <;> rfl

theorem genQueryLoop_ends (inp : GenQueryInp) (fuel : Nat) (out : GenQueryOut)
    (values : List CStr) (s : Server L R) :
    Ends (AtRods (fetched w comm inp fuel out values s.rods).2)
      (genQueryLoop w comm inp fuel out values) s
      (.ok (fetched w comm inp fuel out values s.rods).1) := by
  induction fuel generalizing out values s with
  | zero => exact ⟨s, rfl, refl_of Aside s, rfl⟩
  | succ fuel ih =>
    rw [genQueryLoop, fetched]
    by_cases hc : out.continueInx = 0
    · simp only [hc, ↓reduceIte]
      exact ⟨s, rfl, refl_of Aside s, rfl⟩
    simp only [hc, ↓reduceIte, genQueryLoop_continueInx]
    refine (rods_ends (w := w) _ s).seq (fun s1 h1 => ?_) fun s1 s2 h1 h2 => h1.trans h2
    rw [← h1.2]
    cases (w.rods (.rcGenQuery comm { inp with continueInx := out.continueInx })
      s.rods).1.query with
    | none => exact ⟨s1, rfl, refl_of Aside s1, rfl⟩
    | some out' =>
      dsimp only
      split
      · exact ih _ _ s1
      · exact ⟨s1, rfl, refl_of Aside s1, rfl⟩

variable (w comm) in
theorem genQuery_ends (inp : GenQueryInp) (s : Server L R) :
    Ends (AtRods (queried w comm inp s.rods).2) (genQuery w comm inp) s
      (.ok (queried w comm inp s.rods).1) := by
  rw [NfsRods.genQuery, queried]
  refine (rods_ends (w := w) _ s).seq (fun s1 h1 => ?_) fun s1 s2 h1 h2 => h1.trans h2
  rw [← h1.2]
  dsimp only
  split
  · exact ⟨s1, rfl, refl_of Aside s1, rfl⟩
  · refine Ends.bind_get ((genQueryLoop_ends _ _ _ _ s1).seq (fun s2 h2 => ?_)
      fun s2 s3 h2 h3 => h2.trans h3)
    rw [← h2.2]
    exact ⟨s2, rfl, refl_of Aside s2, rfl⟩

variable (w comm) in
/-- `fileMode` returns exactly when its question is answered. -/
theorem fileMode_ends (path : CStr) (s : Server L R) :
    ∃ x, Ends (AtRods (queried w comm (modeQuery path) s.rods).2) (fileMode w path comm) s x ∧
      ((∃ mode, x = .ok mode) ↔ Answered w comm path s.rods) := by
  obtain ⟨s1, h1, a1⟩ := genQuery_ends w comm (modeQuery path) s
  rw [fileMode_eq]
  unfold Answered
  generalize queried w comm (modeQuery path) s.rods = q at h1 a1 ⊢
  have hrun : (NfsRods.genQuery w comm (modeQuery path) >>= fun x => firstMode x.1 x.2) s =
      firstMode q.1.1 q.1.2 s1 := Prog.bind_ok h1
  by_cases hneg : q.1.1 < 0
  · refine ⟨.ok (-1), ⟨s1, ?_, a1⟩, iff_of_true ⟨-1, rfl⟩ (.inl hneg)⟩
    rw [hrun, firstMode, if_pos hneg]
    rfl
  cases hv : q.1.2.bind List.head? with
  | none =>
    refine ⟨.error .unsetOutput, ⟨s1, ?_, a1⟩, iff_of_false (by rintro ⟨_, ⟨⟩⟩) ?_⟩
    · rw [hrun, firstMode, if_neg hneg, hv]
      rfl
    · simp [hneg, hv]
  | some v =>
    refine ⟨.ok (atoi v), ⟨s1, ?_, a1⟩, iff_of_true ⟨_, rfl⟩ (.inr (by rw [hv]; rfl))⟩
    rw [hrun, firstMode, if_neg hneg, hv]
    rfl

/-- It stops in no other way. -/
theorem fileMode_error {path : CStr} {s s' : Server L R} {st : Stop}
    (h : fileMode w path comm s = (.error st, s')) : st = .unsetOutput := by
  obtain ⟨s1, h1, _⟩ := genQuery_ends w comm (modeQuery path) s
  rw [fileMode_eq, Prog.bind_ok h1, firstMode, Prog.ite_run] at h
  split at h
  · cases h
  · cases hv : ((queried w comm (modeQuery path) s.rods).1.2.bind List.head?) with
    | none =>
      rw [hv] at h
      cases h
      rfl
    | some v =>
      rw [hv] at h
      cases h

end

end NfsRods
