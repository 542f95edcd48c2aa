import NfsRods.Lib.CBuf
import NfsRods.Proof.AccessQuery

/-!
# The conditions of `fileMode`'s query

`fileMode` cuts the path of an object into its name and its collection with one scratch buffer
(`substr`) for both, and prints each between quotes into a buffer whose size is taken from the path.
Here it is modelled with its buffers.

* `modeConditions_eq`: what is printed, for every path in a collection.
* `mode_query_iff`: when it is the name and the collection.
-/

namespace NfsRods

open CStr
open CBuf

/-- `fileMode` up to the query: the strings in `filename` and `pathname`. `m` is what is in memory
before. -/
def modeConditions (m : Nat → Nat → UInt8) (path : CStr) : Option (CStr × CStr) := do
  let mem := path ++ [0]
  let idx := fileNameLastIndex path
  let substr := fresh (m 0) path.length
  let substr ← strncpy substr mem (idx + 1) path.length
  let filename := fresh (m 1) path.length
  let filename ← snprintf filename path.length (lit "='") (lit "'") substr
  let substr ← strncpy substr mem 0 idx
  let pathname := fresh (m 2) (path.length + 10)
  let pathname ← snprintf pathname (path.length + 10) (lit "='") (lit "'") substr
  let name ← str filename 0
  let dir ← str pathname 0
  pure (name, dir)

/-- `fileMode` after the query: `value` is what `resultValues[0]` points to, `none` where
`outputQuery` was never set. `sizeof` gives the size of a pointer. -/
def modeResult (m : Nat → Nat → UInt8) (status : Int) (value : Option CStr) : Option Int :=
  if status < 0 then some (-1)
  else do
    let value ← value
    let result ← strcpy (fresh (m 3) 8) (value ++ [0])
    let result ← str result 0
    pure (atoi result)

section
variable {c n : CStr}

theorem child_length : (c ++ root ++ n).length = c.length + 1 + n.length := by
  simp [root]
  omega

/-- What is printed: the name, cut where its collection is a short path, and the collection with the
rest of a longer name behind it. -/
theorem modeConditions_eq (m : Nat → Nat → UInt8) (hc : c ≠ []) (hs : slash ∉ n) (hc0 : 0 ∉ c)
    (hn0 : 0 ∉ n) : modeConditions m (c ++ root ++ n) =
      some ((equals n).take (c.length + n.length), equals (c ++ n.drop c.length)) := by
  have hlen := child_length (c := c) (n := n)
  have hpos : 0 < c.length := List.length_pos_iff.2 hc
  have hidx := fileNameLastIndex_child hc hs
  have hname : (c ++ root ++ n ++ [0]).drop (c.length + 1) = n ++ 0 :: [] := by
    simp [root]
  have hdir : (c ++ root ++ n ++ [0]).drop 0 = c ++ (root ++ n ++ [0]) := by
    simp
  -- the scratch buffer after the name has been copied, padded to its end
  have hcopy := strncpy_ends (fresh (m 0) (c ++ root ++ n).length) hn0 hname
    (n := (c ++ root ++ n).length) (by omega) (by simp)
  have hrest : (fresh (m 0) (c ++ root ++ n).length).drop (c ++ root ++ n).length = [] :=
    List.drop_of_length_le (by simp)
  have hpad : (c ++ root ++ n).length - n.length = c.length + 1 := by omega
  rw [hrest, List.append_nil, hpad, List.replicate_succ] at hcopy
  have hstr := str_here hn0 (List.replicate c.length 0)
  obtain ⟨b, hb, hbstr⟩ := snprintf_cut (fresh (m 1) (c ++ root ++ n).length)
    (c ++ root ++ n).length (lit "='") (lit "'")
    hstr (by decide) hn0 (by decide) (by omega) (by simp)
  -- the collection is copied over the start of it, without a terminator
  have hover := strncpy_cut (n ++ 0 :: List.replicate c.length 0) hc0 hdir
    (by simp; omega)
  obtain ⟨j, hj⟩ : ∃ j, (n ++ 0 :: List.replicate c.length 0).drop c.length =
      n.drop c.length ++ 0 :: List.replicate j 0 := by
    refine ⟨c.length - (c.length - n.length), ?_⟩
    rw [List.drop_append, ← List.replicate_succ, List.drop_replicate, ← List.replicate_succ]
    congr 2
    omega
  rw [hj, ← List.append_assoc] at hover
  have hrest0 : 0 ∉ c ++ n.drop c.length := by
    simp only [List.mem_append, not_or]
    exact ⟨hc0, fun h => hn0 (List.mem_of_mem_drop h)⟩
  have hstr' := str_here hrest0 (List.replicate j 0)
  obtain ⟨b', hb', hbstr'⟩ := snprintf_cut (fresh (m 2) ((c ++ root ++ n).length + 10))
    ((c ++ root ++ n).length + 10) (lit "='") (lit "'")
    hstr' (by decide) hrest0 (by decide) (by omega) (by simp)
  have hfit : (equals (c ++ n.drop c.length)).length ≤ (c ++ root ++ n).length + 10 - 1 := by
    rw [length_equals, List.length_append, List.length_drop]
    omega
  rw [modeConditions]
  simp only [hidx, hcopy, hb, hover, hb', hbstr, hbstr', Option.bind_eq_bind, Option.bind_some]
  change some ((equals n).take ((c ++ root ++ n).length - 1),
    (equals (c ++ n.drop c.length)).take ((c ++ root ++ n).length + 10 - 1)) = _
  rw [List.take_of_length_le hfit, hlen]
  congr 3
  omega

/-- The model of `fileMode` asks for what is printed. -/
theorem modeQuery_conds (m : Nat → Nat → UInt8) (hc : c ≠ []) (hs : slash ∉ n) (hc0 : 0 ∉ c)
    (hn0 : 0 ∉ n) : (modeConditions m (c ++ root ++ n)).map
      (fun x => [(403, x.1), (501, x.2)]) = some (modeQuery (c ++ root ++ n)).conds := by
  have hlen := child_length (c := c) (n := n)
  have hname : (c ++ root ++ n).drop (c.length + 1) = n := by
    simp [root]
  have hdir : (c ++ root ++ n).take c.length = c := by
    simp
  have hfit : (equals (c ++ n.drop c.length)).length ≤ (c ++ root ++ n).length + 9 := by
    rw [length_equals, List.length_append, List.length_drop]
    omega
  rw [modeConditions_eq m hc hs hc0 hn0, Option.map_some, modeQuery]
  simp only [fileNameLastIndex_child hc hs, hname, hdir]
  rw [List.take_of_length_le hfit, hlen]
  congr 5
  omega

/-- A value is copied within its buffer when it has less than eight bytes. -/
theorem modeResult_isSome (m : Nat → Nat → UInt8) (status : Int) {value : Option CStr}
    (hv : ∀ v ∈ value, 0 ∉ v) : (modeResult m status value).isSome ↔
      (0 ≤ status → ∃ v, value = some v ∧ v.length < 8) := by
  unfold modeResult
  by_cases hst : status < 0
  · rw [if_pos hst]
    exact iff_of_true rfl fun h => absurd h (by omega)
  rw [if_neg hst]
  simp only [show 0 ≤ status by omega, forall_const]
  cases value with
  | none => exact iff_of_false (by simp) (by rintro ⟨_, ⟨⟩, _⟩)
  | some v =>
    have hstr := str_here (hv v rfl) []
    simp only [Option.bind_eq_bind, Option.bind_some, Option.some.injEq, exists_eq_left']
    by_cases hfit : v.length < 8
    · obtain ⟨b, hb, hbstr⟩ :=
        strcpy_ends hstr (hv v rfl) (show v.length < (fresh (m 3) 8).length by simpa using hfit)
      rw [hb, Option.bind_some, hbstr]
      exact iff_of_true rfl hfit
    · have hno : strcpy (fresh (m 3) 8) (v ++ [0]) = none := by
        rw [← Option.not_isSome_iff_eq_none, strcpy_isSome hstr, length_fresh]
        exact hfit
      rw [hno]
      exact iff_of_false (by simp) hfit

/-- **The conditions of the query** are for the name and for the collection, and all accesses stay
in their buffers, exactly when the collection's path has three bytes or more and at least as many as
the name, and iRODS answers with an error or with a row whose value has less than eight: without a
row the output is read that nobody has set. -/
theorem mode_query_iff (m : Nat → Nat → UInt8) (hc : c.head? = some slash)
    (hs : slash ∉ n) (hc0 : 0 ∉ c) (hn0 : 0 ∉ n) (status : Int) (value : Option CStr)
    (hv : ∀ v ∈ value, 0 ∉ v) :
    (modeConditions m (c ++ root ++ n) = some (equals n, equals c) ∧
      (modeResult m status value).isSome) ↔
    3 ≤ c.length ∧ n.length ≤ c.length ∧ (0 ≤ status → ∃ v, value = some v ∧ v.length < 8) := by
  have hne : c ≠ [] := by
    rintro rfl
    cases hc
  have hname : (equals n).take (c.length + n.length) = equals n ↔ 3 ≤ c.length := by
    rw [List.take_eq_self_iff, length_equals]
    omega
  have hdir : equals (c ++ n.drop c.length) = equals c ↔ n.length ≤ c.length := by
    constructor
    · intro h
      have := congrArg List.length (equals_inj h)
      rw [List.length_append, List.length_drop] at this
      omega
    · intro h
      rw [List.drop_of_length_le h, List.append_nil]
  rw [modeConditions_eq m hne hs hc0 hn0, Option.some.injEq, Prod.mk.injEq, hname, hdir,
    modeResult_isSome m status hv, and_assoc]

end

/-- The object `a` in a collection of a public zone. -/
theorem mode_query_zone : modeConditions (fun _ _ => 255) (lit "/z/p/a") =
      some (equals (lit "a"), equals (lit "/z/p")) ∧
    (modeResult (fun _ _ => 255) 0 (some (lit "1200"))).isSome :=
  (mode_query_iff (c := lit "/z/p") (n := lit "a") (fun _ _ => 255) rfl (by decide)
    (by decide) (by decide) 0 (some (lit "1200")) (by decide)).2 ⟨by decide, by decide,
      fun _ => ⟨_, rfl, by decide⟩⟩

/-- The end of a name that is longer than the path of its collection is asked for as a part of the
collection. -/
theorem mode_query_mixed :
    modeConditions (fun _ _ => 255) (lit "/zone/document") =
      some (lit "='document'", lit "='/zoneent'") ∧
    modeConditions (fun _ _ => 255) (lit "/zone/document") ≠
      some (equals (lit "document"), equals (lit "/zone")) := by
  decide +kernel

end NfsRods
