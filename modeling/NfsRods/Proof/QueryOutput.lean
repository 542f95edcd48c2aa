import NfsRods.Lib.Heap
import NfsRods.Proof.AccessQuery

/-!
# Where the results of a query are

`genQuery` gives its caller pointers to values the client library has allocated, and frees only the
structure that holds these pointers. It returns the status before the code for the end of the rows,
which is 0 also when there has been no batch: its caller then reads an output nobody has set.

* `fetch_spec`: after the loop the output is the first row of the last batch.
* `genQuery_model`, `fileMode_model`: reading through the pointers gives what the model returns.
* `output_set_iff`: what a non-negative status promises, and when it holds.
-/

namespace NfsRods.Query

open CStr

variable {n : Nat}

/-! ## What the library allocates -/

/-- One value for each selected column. -/
abbrev Row (n : Nat) := Fin n → CStr

/-- What comes with status 0: without a row the library answers `CAT_NO_ROWS_FOUND`. -/
structure Batch (n : Nat) where
  rows : List (Row n)
  continueInx : Int
  ne_nil : rows ≠ []

/-- A reply of `rcGenQuery`: rows, or any other status, with the caller's pointer set to `NULL` or
left as it was. -/
inductive Reply (n : Nat)
  | rows (b : Batch n)
  | code (status : Int) (hne : status ≠ 0) (null : Bool)

/-- `genQueryOut_t`; `value j` is the address of `sqlResult[j].value`. -/
structure GenQueryOut (n : Nat) where
  rowCnt : Nat
  continueInx : Int
  value : Fin n → Nat

/-- A column of a batch is a block of its own, with one string after the other. -/
inductive Block (n : Nat)
  | column (values : List CStr)
  | out (o : GenQueryOut n)

/-- The string a `char *` to the block points to. -/
def Block.string : Block n → Option CStr
  | .column values => values.head?
  | .out _ => none

/-- `rcGenQuery`: the status, what `queryOutput` is then, and what is allocated. -/
def rcGenQuery (queryOutput : Option Nat) (h : Heap (Block n)) :
    Reply n → Int × Option Nat × Heap (Block n)
  | .rows b =>
    let (values, h) := h.allocs (List.ofFn fun j => .column (b.rows.map (· j)))
    let (p, h) := h.alloc (.out
      { rowCnt := b.rows.length, continueInx := b.continueInx, value := fun j => values + j })
    (0, some p, h)
  | .code status _ null => (status, if null then none else queryOutput, h)

/-! ## `genQuery` -/

/-- `OutputQuery`; `none` where nothing has been written. -/
structure OutputQuery (n : Nat) where
  size : Nat
  resultCollumns : Fin n → Option Nat
  resultValues : Fin n → Option Nat

/-- The string read through `resultValues[j]`, if that is set and not freed. -/
def OutputQuery.read (o : OutputQuery n) (h : Heap (Block n)) (j : Fin n) : Option CStr :=
  ((o.resultValues j).bind h.load).bind Block.string

/-- The loops over the rows and the columns: each row overwrites the one before. -/
def fill (columns : Fin n → Nat) (out : GenQueryOut n) (o : OutputQuery n) : OutputQuery n :=
  (List.range out.rowCnt).foldl (fun o _ =>
    { o with resultCollumns := fun j => some (columns j)
             resultValues := fun j => some (out.value j) }) o

/-- The local variables of `genQuery` in its loop. -/
structure Vars (n : Nat) where
  status : Int
  prevStatus : Int
  queryOutput : Option Nat
  output : OutputQuery n
  heap : Heap (Block n)

/-- The `do` loop of `genQuery`, with the replies that are still to come: no result while one is
waited for. -/
def fetch (columns : Fin n → Nat) (replies : List (Reply n)) (v : Vars n) : Option (Vars n) :=
  match v.queryOutput.bind v.heap.load with
  | some (.out out) =>
    let output := fill columns out v.output
    if out.continueInx = 0 then some { v with output }
    else
      match replies with
      | [] => none
      | r :: rest =>
        let (status, queryOutput, heap) := rcGenQuery v.queryOutput v.heap r
        let v := { status, prevStatus := v.status, queryOutput, output, heap }
        if status = 0 then fetch columns rest v else some v
  | _ => none

/-- `genQuery` on the replies of `rcGenQuery`: the status, `*outputQuery` if it is assigned, and
what is still allocated. -/
def genQuery (columns : Fin n → Nat) (replies : List (Reply n)) (h : Heap (Block n)) :
    Option (Int × Option (OutputQuery n) × Heap (Block n)) :=
  match replies with
  | [] => none
  | r :: rest =>
    let (status, queryOutput, heap) := rcGenQuery none h r
    if status = 0 then do
      let output : OutputQuery n :=
        { size := n, resultCollumns := fun _ => none, resultValues := fun _ => none }
      let v ← fetch columns rest { status, prevStatus := 0, queryOutput, output, heap }
      some (if v.status = catNoRowsFound then v.prevStatus else v.status, some v.output,
        v.heap.free v.queryOutput)
    else some (if status = catNoRowsFound then 0 else status, none, heap.free queryOutput)

/-- How `fileMode` ends: with a mode, or reading what was never set or has been freed. -/
inductive ModeRead
  | returns (mode : Int)
  | unset
  | freed
  deriving DecidableEq

/-- `fileMode` after it has built its query. -/
def fileMode (replies : List (Reply 1)) (h : Heap (Block 1)) : Option ModeRead := do
  let (status, output, h) ← genQuery (fun _ => 700) replies h
  if status < 0 then some (.returns (-1))
  else
    match output.bind (·.resultValues 0) with
    | none => some .unset
    | some p => some (((h.load p).bind Block.string).elim .freed fun v => .returns (atoi v))

/-! ## One batch -/

def Batch.first (b : Batch n) : Row n := b.rows.head b.ne_nil

/-- The batch is what the structure at the address describes. -/
def Holds (b : Batch n) (p : Nat) (h : Heap (Block n)) : Prop :=
  ∃ out, h.load p = some (.out out) ∧ out.rowCnt = b.rows.length ∧
    out.continueInx = b.continueInx ∧
    ∀ j, h.load (out.value j) = some (.column (b.rows.map (· j)))

/-- What the output holds is a row. -/
def Shows (row : Row n) (h : Heap (Block n)) (o : OutputQuery n) : Prop :=
  o.size = n ∧ ∀ j, o.read h j = some (row j)

theorem rcGenQuery_rows (q : Option Nat) (h : Heap (Block n)) (b : Batch n) :
    ∃ p h', rcGenQuery q h (.rows b) = (0, some p, h') ∧ Holds b p h' := by
  let columns : List (Block n) := List.ofFn fun j => .column (b.rows.map (· j))
  let out : GenQueryOut n :=
    { rowCnt := b.rows.length, continueInx := b.continueInx,
      value := fun j => (h.allocs columns).1 + j }
  refine ⟨_, _, rfl, out, Heap.load_alloc _ _, rfl, rfl, fun j => ?_⟩
  apply Heap.Keeps.alloc (h.allocs columns).2 (.out out)
  apply Heap.load_allocs
  simp [columns]

theorem fill_rows (columns : Fin n → Nat) {out : GenQueryOut n} (o : OutputQuery n)
    (hrows : 0 < out.rowCnt) :
    fill columns out o =
      { o with resultCollumns := fun j => some (columns j)
               resultValues := fun j => some (out.value j) } := by
  obtain ⟨k, hk⟩ : ∃ k, out.rowCnt = k + 1 := ⟨out.rowCnt - 1, by omega⟩
  unfold fill
  rw [hk]
  clear hk
  induction k with
  | zero => rfl
  | succ k ih =>
    rw [List.range_succ, List.foldl_append, ih]
    rfl

theorem Batch.string_first (b : Batch n) (j : Fin n) :
    (Block.column (b.rows.map (· j)) : Block n).string = some (b.first j) := by
  show (b.rows.map (· j)).head? = some (b.first j)
  rw [List.head?_map, List.head?_eq_some_head b.ne_nil]
  rfl

/-- Freeing the structure leaves the values: they are blocks of their own. -/
theorem Holds.shows {b : Batch n} {p : Nat} {h : Heap (Block n)} (hb : Holds b p h)
    (columns : Fin n → Nat) {o : OutputQuery n} (hsize : o.size = n) :
    ∃ out, h.load p = some (.out out) ∧ out.continueInx = b.continueInx ∧
      (fill columns out o).size = n ∧
      ∀ q, q = none ∨ q = some p → Shows b.first (h.free q) (fill columns out o) := by
  obtain ⟨out, hout, hcnt, hcont, hval⟩ := hb
  have hpos : 0 < out.rowCnt := by
    rw [hcnt]
    exact List.length_pos_of_ne_nil b.ne_nil
  refine ⟨out, hout, hcont, ?_, fun q hq => ⟨?_, fun j => ?_⟩⟩
  · rw [fill_rows columns o hpos]
    exact hsize
  · rw [fill_rows columns o hpos]
    exact hsize
  · have hne : q ≠ some (out.value j) := by
      intro heq
      rcases hq with rfl | rfl
      · cases heq
      · rw [Option.some.inj heq, hval] at hout
        cases hout
    rw [fill_rows columns o hpos]
    show (((h.free q).load (out.value j)).bind Block.string) = some (b.first j)
    rw [Heap.load_free h hne, hval, Option.bind_some, b.string_first]

/-! ## The loop -/

/-- The row in the output after the loop: the first of the last batch. -/
def kept (b : Batch n) : List (Reply n) → Row n
  | .rows b' :: rest => if b.continueInx = 0 then b.first else kept b' rest
  | _ => b.first

/-- The status after the loop, if it ends. -/
def ending (b : Batch n) : List (Reply n) → Option Int
  | [] => if b.continueInx = 0 then some 0 else none
  | .rows b' :: rest => if b.continueInx = 0 then some 0 else ending b' rest
  | .code status _ _ :: _ => if b.continueInx = 0 then some 0 else some status

/-- The rows that have been returned when the query ends. -/
def returned : List (Reply n) → List (Row n)
  | .rows b :: rest => b.rows ++ if b.continueInx = 0 then [] else returned rest
  | _ => []

theorem kept_mem (rest : List (Reply n)) (b : Batch n) :
    kept b rest ∈ returned (.rows b :: rest) := by
  have hfirst : b.first ∈ b.rows := List.head_mem b.ne_nil
  induction rest generalizing b with
  | nil => exact List.mem_append_left _ hfirst
  | cons r rest ih =>
    cases r with
    | code status hne null => exact List.mem_append_left _ hfirst
    | rows b' =>
      rw [kept, returned]
      by_cases hc : b.continueInx = 0
      · rw [if_pos hc, if_pos hc]
        exact List.mem_append_left _ hfirst
      · rw [if_neg hc, if_neg hc]
        exact List.mem_append_right _ (ih b' (List.head_mem b'.ne_nil))

/-- The variables at the top of the loop, after `b` has come. -/
structure AtTop (b : Batch n) (v : Vars n) : Prop where
  status : v.status = 0
  prev : v.prevStatus = 0
  size : v.output.size = n
  holds : ∃ p, v.queryOutput = some p ∧ Holds b p v.heap

/-- The variables after the loop. -/
structure Left (row : Row n) (status : Int) (v : Vars n) : Prop where
  status : v.status = status
  prev : v.prevStatus = 0
  shows_row : Shows row (v.heap.free v.queryOutput) v.output

theorem AtTop.of_rows (q : Option Nat) (h : Heap (Block n)) (b : Batch n) {o : OutputQuery n}
    (ho : o.size = n) : ∃ queryOutput heap, rcGenQuery q h (.rows b) = (0, queryOutput, heap) ∧
      AtTop b { status := 0, prevStatus := 0, queryOutput, output := o, heap } := by
  obtain ⟨p, h', heq, hb⟩ := rcGenQuery_rows q h b
  exact ⟨some p, h', heq, rfl, rfl, ho, p, rfl, hb⟩

/-- **The loop ends with a row in the output**, or waits for a reply. -/
theorem fetch_spec (columns : Fin n → Nat) (replies : List (Reply n)) (b : Batch n) (v : Vars n)
    (hv : AtTop b v) : match ending b replies with
      | none => fetch columns replies v = none
      | some status => ∃ v', fetch columns replies v = some v' ∧
          Left (kept b replies) status v' := by
  induction replies generalizing b v with
  | nil =>
    obtain ⟨p, hq, hb⟩ := hv.holds
    obtain ⟨out, hout, hcont, -, hshow⟩ := hb.shows columns hv.size
    rw [ending, fetch, hq, Option.bind_some, hout]
    dsimp only
    rw [hcont]
    by_cases hc : b.continueInx = 0
    · rw [if_pos hc, if_pos hc]
      exact ⟨_, rfl, hv.status, hv.prev, hshow _ (.inr rfl)⟩
    · rw [if_neg hc, if_neg hc]
  | cons r rest ih =>
    obtain ⟨p, hq, hb⟩ := hv.holds
    obtain ⟨out, hout, hcont, hsize, hshow⟩ := hb.shows columns hv.size
    rw [fetch, hq, Option.bind_some, hout]
    dsimp only
    rw [hcont]
    cases r with
    | code status hne null =>
      rw [ending]
      by_cases hc : b.continueInx = 0
      · rw [if_pos hc, if_pos hc]
        exact ⟨_, rfl, hv.status, hv.prev, hshow _ (.inr rfl)⟩
      · rw [if_neg hc, if_neg hc]
        dsimp only [rcGenQuery]
        simp only [hne, ↓reduceIte]
        refine ⟨_, rfl, rfl, hv.status, hshow _ ?_⟩
        cases null with
        | true => exact .inl rfl
        | false => exact .inr rfl
    | rows b' =>
      rw [ending, kept]
      by_cases hc : b.continueInx = 0
      · rw [if_pos hc, if_pos hc, if_pos hc]
        exact ⟨_, rfl, hv.status, hv.prev, hshow _ (.inr rfl)⟩
      · obtain ⟨q', h', hrc, htop⟩ := AtTop.of_rows (some p) v.heap b' hsize
        rw [if_neg hc, if_neg hc, if_neg hc, hrc]
        dsimp only
        rw [if_pos rfl, hv.status]
        exact ih b' _ htop

theorem genQuery_rows {columns : Fin n → Nat} {b : Batch n} {rest : List (Reply n)}
    {h h' : Heap (Block n)} {st : Int} {output : Option (OutputQuery n)}
    (hrun : genQuery columns (.rows b :: rest) h = some (st, output, h')) :
    ∃ status o, ending b rest = some status ∧ st = (if status = catNoRowsFound then 0 else status) ∧
      output = some o ∧ Shows (kept b rest) h' o := by
  obtain ⟨q, heap, hrc, htop⟩ := AtTop.of_rows none h b
    (o := { size := n, resultCollumns := fun _ => none, resultValues := fun _ => none }) rfl
  have hspec := fetch_spec columns rest b _ htop
  rw [genQuery, hrc] at hrun
  dsimp only at hrun
  rw [if_pos rfl] at hrun
  cases hend : ending b rest with
  | none =>
    rw [hend] at hspec
    rw [hspec] at hrun
    cases hrun
  | some status =>
    rw [hend] at hspec
    obtain ⟨v, hv, hleft⟩ := hspec
    rw [hv, Option.bind_eq_bind, Option.bind_some, hleft.status, hleft.prev] at hrun
    cases hrun
    exact ⟨status, v.output, rfl, rfl, rfl, hleft.shows_row⟩

theorem genQuery_code (columns : Fin n → Nat) {st : Int} (hne : st ≠ 0) (null : Bool)
    (rest : List (Reply n)) (h : Heap (Block n)) :
    genQuery columns (.code st hne null :: rest) h =
      some (if st = catNoRowsFound then 0 else st, none, h) := by
  rw [genQuery]
  dsimp only [rcGenQuery]
  simp only [hne, ↓reduceIte]
  cases null <;> rfl

/-- `fileMode` after rows: the mode of the row that is kept, or the status of an error. -/
theorem fileMode_rows {b : Batch 1} {rest : List (Reply 1)} {h : Heap (Block 1)} {r : ModeRead}
    (hrun : fileMode (.rows b :: rest) h = some r) :
    ∃ st o h', genQuery (fun _ => 700) (.rows b :: rest) h = some (st, some o, h') ∧
      o.read h' 0 = some (kept b rest 0) ∧
      r = .returns (if st < 0 then -1 else atoi (kept b rest 0)) := by
  unfold fileMode at hrun
  obtain ⟨⟨st, output, h'⟩, hq, hr⟩ := Option.bind_eq_some_iff.1 hrun
  obtain ⟨status, o, -, -, rfl, -, hread⟩ := genQuery_rows hq
  refine ⟨st, o, h', hq, hread 0, ?_⟩
  dsimp only at hr
  by_cases hst : st < 0
  · rw [if_pos hst] at hr ⊢
    exact (Option.some.inj hr).symm
  · obtain ⟨p, hp, hload⟩ := Option.bind_eq_some_iff.1 (hread 0)
    obtain ⟨p, hp, hcell⟩ := Option.bind_eq_some_iff.1 hp
    rw [if_neg hst, Option.bind_some, hp] at hr
    rw [if_neg hst]
    dsimp only at hr
    rw [hcell, Option.bind_some, hload] at hr
    exact (Option.some.inj hr).symm

/-- `fileMode` after any other reply: what was never set, unless the status is an error. -/
theorem fileMode_code {st : Int} {hne : st ≠ 0} {null : Bool} {rest : List (Reply 1)}
    {h : Heap (Block 1)} {r : ModeRead} (hrun : fileMode (.code st hne null :: rest) h = some r) :
    r = if (if st = catNoRowsFound then 0 else st) < 0 then .returns (-1) else .unset := by
  rw [fileMode, genQuery_code, Option.bind_eq_bind, Option.bind_some] at hrun
  dsimp only at hrun
  by_cases hneg : (if st = catNoRowsFound then 0 else st) < 0
  · rw [if_pos hneg] at hrun ⊢
    exact (Option.some.inj hrun).symm
  · rw [if_neg hneg] at hrun ⊢
    exact (Option.some.inj hrun).symm

/-! ## The model of `genQuery` -/

section
variable {L R : Type} {w : World L R} {comm : Comm}

/-- The batch as the model has it. -/
def Batch.model (b : Batch n) : NfsRods.GenQueryOut :=
  { rowCnt := b.rows.length, values := List.ofFn b.first, continueInx := b.continueInx }

theorem Batch.model_rowCnt (b : Batch n) : ¬ b.model.rowCnt = 0 :=
  (List.length_pos_of_ne_nil b.ne_nil).ne'

@[simp] theorem Batch.model_values (b : Batch n) : b.model.values = List.ofFn b.first := rfl

@[simp] theorem Batch.model_continueInx (b : Batch n) : b.model.continueInx = b.continueInx := rfl

/-- These are the replies to the query and its continuations. -/
def Gives (w : World L R) (comm : Comm) : GenQueryInp → R → List (Reply n) → Prop
  | _, _, [] => True
  | inp, r, .code status _ _ :: _ => (w.rods (.rcGenQuery comm inp) r).1.status = status
  | inp, r, .rows b :: rest =>
    (w.rods (.rcGenQuery comm inp) r).1.status = 0 ∧
      (w.rods (.rcGenQuery comm inp) r).1.query = some b.model ∧
      Gives w comm { inp with continueInx := b.continueInx }
        (w.rods (.rcGenQuery comm inp) r).2 rest

theorem genQueryLoop_kept {rest : List (Reply n)} {b : Batch n} {inp : GenQueryInp} {fuel : Nat}
    {s : Server L R} {status : Int}
    (hgives : Gives w comm { inp with continueInx := b.continueInx } s.rods rest)
    (hfuel : rest.length + 1 ≤ fuel) (hend : ending b rest = some status) (values : List CStr) :
    ∃ s', genQueryLoop w comm inp fuel b.model values s =
      (.ok (status, List.ofFn (kept b rest)), s') := by
  induction rest generalizing b inp fuel values s with
  | nil =>
    obtain ⟨fuel, rfl⟩ : ∃ k, fuel = k + 1 := ⟨fuel - 1, by omega⟩
    have hc : b.continueInx = 0 := by
      by_contra hc
      simp [ending, hc] at hend
    rw [ending, if_pos hc] at hend
    cases hend
    simp only [genQueryLoop, b.model_rowCnt, Batch.model_values, Batch.model_continueInx, hc,
      ↓reduceIte]
    exact ⟨s, rfl⟩
  | cons r rest ih =>
    obtain ⟨fuel, rfl⟩ : ∃ k, fuel = k + 1 := ⟨fuel - 1, by omega⟩
    simp only [genQueryLoop, b.model_rowCnt, Batch.model_values, Batch.model_continueInx,
      ↓reduceIte]
    by_cases hc : b.continueInx = 0
    · have hst : some 0 = some status := by
        rw [← hend]
        cases r <;> exact (if_pos hc).symm
      have hrow : kept b (r :: rest) = b.first := by
        cases r with
        | code _ _ _ => rfl
        | rows b' => exact if_pos hc
      cases hst
      rw [if_pos hc, hrow]
      exact ⟨s, rfl⟩
    · have hcall : rods w (.rcGenQuery comm { inp with continueInx := b.continueInx }) s =
          (.ok (w.rods (.rcGenQuery comm { inp with continueInx := b.continueInx }) s.rods).1,
            (rods w (.rcGenQuery comm { inp with continueInx := b.continueInx }) s).2) := rfl
      rw [if_neg hc, Prog.bind_ok hcall]
      cases r with
      | code st hne null =>
        rw [ending, if_neg hc] at hend
        cases hend
        have hst : (w.rods (.rcGenQuery comm { inp with continueInx := b.continueInx })
            s.rods).1.status = status := hgives
        cases (w.rods (.rcGenQuery comm { inp with continueInx := b.continueInx })
            s.rods).1.query with
        | none => exact ⟨_, by rw [hst]; rfl⟩
        | some out =>
          dsimp only
          rw [hst]
          simp only [hne, ↓reduceIte]
          exact ⟨_, rfl⟩
      | rows b' =>
        obtain ⟨hst, hq, hrest⟩ := hgives
        rw [ending, if_neg hc] at hend
        rw [hq, hst, kept, if_neg hc]
        exact ih hrest (by simpa using hfuel) hend _

/-- **The model returns what is read through the pointers.** -/
theorem genQuery_model {columns : Fin n → Nat} {replies : List (Reply n)} {inp : GenQueryInp}
    {s : Server L R} {h h' : Heap (Block n)} {st : Int} {output : Option (OutputQuery n)}
    (hgives : Gives w comm inp s.rods replies)
    (hfuel : replies.length ≤ w.catalogue (w.rods (.rcGenQuery comm inp) s.rods).2 + 1)
    (hrun : genQuery columns replies h = some (st, output, h')) :
    ∃ s', NfsRods.genQuery w comm inp s =
      (.ok (st, output.map fun o => List.ofFn fun j => (o.read h' j).getD []), s') := by
  have hcall : rods w (.rcGenQuery comm inp) s =
      (.ok (w.rods (.rcGenQuery comm inp) s.rods).1, (rods w (.rcGenQuery comm inp) s).2) := rfl
  rw [NfsRods.genQuery, Prog.bind_ok hcall]
  cases replies with
  | nil => cases hrun
  | cons r rest =>
    cases r with
    | code status hne null =>
      have hst : (w.rods (.rcGenQuery comm inp) s.rods).1.status = status := hgives
      rw [genQuery_code] at hrun
      cases hrun
      rw [hst, if_pos hne]
      exact ⟨_, rfl⟩
    | rows b =>
      obtain ⟨hst, hq, hrest⟩ := hgives
      obtain ⟨status, o, hend, rfl, rfl, -, hread⟩ := genQuery_rows hrun
      have hleft : rest.length + 1 ≤ w.catalogue (w.rods (.rcGenQuery comm inp) s.rods).2 + 1 :=
        hfuel
      obtain ⟨s', hloop⟩ := genQueryLoop_kept (s := (rods w (.rcGenQuery comm inp) s).2) hrest hleft
        hend []
      rw [hst, if_neg (by decide), Prog.get_bind_run, hq, Option.getD_some]
      refine ⟨s', ?_⟩
      have hvalues : (List.ofFn fun j => (o.read h' j).getD []) = List.ofFn (kept b rest) := by
        congr 1
        funext j
        rw [hread j, Option.getD_some]
      have hlater : (rods w (.rcGenQuery comm inp) s).2.rods =
          (w.rods (.rcGenQuery comm inp) s.rods).2 := rfl
      rw [Option.map_some, hvalues, hlater]
      dsimp only
      rw [Prog.bind_ok hloop]
      rfl

/-- **The model of `fileMode` returns what is read**, and stops where what was never set would be;
what has been freed is not read. -/
theorem fileMode_model {replies : List (Reply 1)} {path : CStr} {s : Server L R}
    {h : Heap (Block 1)} {r : ModeRead} (hgives : Gives w comm (modeQuery path) s.rods replies)
    (hfuel : replies.length ≤
      w.catalogue (w.rods (.rcGenQuery comm (modeQuery path)) s.rods).2 + 1)
    (hrun : fileMode replies h = some r) :
    ∃ s', (∃ mode, r = .returns mode ∧ NfsRods.fileMode w path comm s = (.ok mode, s')) ∨
      r = .unset ∧ NfsRods.fileMode w path comm s = (.error .unsetOutput, s') := by
  rw [fileMode_eq]
  cases replies with
  | nil => cases hrun
  | cons r' rest =>
    cases r' with
    | code status hne null =>
      obtain ⟨s', hmodel⟩ := genQuery_model (w := w) hgives hfuel
        (genQuery_code (fun _ => 700) hne null rest h)
      obtain rfl := fileMode_code hrun
      refine ⟨s', ?_⟩
      rw [Prog.bind_ok hmodel, firstMode]
      dsimp only
      by_cases hneg : (if status = catNoRowsFound then 0 else status) < 0
      · rw [if_pos hneg, if_pos hneg]
        exact .inl ⟨_, rfl, rfl⟩
      · rw [if_neg hneg, if_neg hneg]
        exact .inr ⟨rfl, rfl⟩
    | rows b =>
      obtain ⟨st, o, h', hq, hread, rfl⟩ := fileMode_rows hrun
      obtain ⟨s', hmodel⟩ := genQuery_model (w := w) hgives hfuel hq
      refine ⟨s', .inl ⟨_, rfl, ?_⟩⟩
      rw [Prog.bind_ok hmodel, firstMode]
      dsimp only
      by_cases hneg : st < 0
      · rw [if_pos hneg, if_pos hneg]
        rfl
      · rw [if_neg hneg, if_neg hneg]
        have hfirst : ((Option.map (fun o : OutputQuery 1 => List.ofFn fun j =>
            (o.read h' j).getD []) (some o)).bind List.head?) = some (kept b rest 0) := by
          rw [Option.map_some, Option.bind_some, List.ofFn_succ, List.head?_cons, hread]
          rfl
        rw [hfirst]
        rfl

end

/-! ## What a non-negative status promises -/

/-- `*outputQuery` is assigned, has a result for each selected column, and each result is the value
of its column in a returned row, in a block that has not been freed. -/
def Assigned (replies : List (Reply n)) (output : Option (OutputQuery n)) (h : Heap (Block n)) :
    Prop :=
  ∃ o, output = some o ∧ o.size = n ∧
    ∀ j, ∃ row ∈ returned replies, o.read h j = some (row j)

/-- The first reply has rows, or is an error other than `CAT_NO_ROWS_FOUND`. -/
def Begins : List (Reply n) → Prop
  | .code status _ _ :: _ => status < 0 ∧ status ≠ catNoRowsFound
  | _ => True

theorem assigned_iff {columns : Fin n → Nat} {replies : List (Reply n)} {h h' : Heap (Block n)}
    {st : Int} {output : Option (OutputQuery n)}
    (hrun : genQuery columns replies h = some (st, output, h')) :
    (0 ≤ st → Assigned replies output h') ↔ Begins replies := by
  cases replies with
  | nil => cases hrun
  | cons r rest =>
    cases r with
    | rows b =>
      obtain ⟨status, o, -, -, rfl, hsize, hread⟩ := genQuery_rows hrun
      exact ⟨fun _ => trivial, fun _ _ => ⟨o, rfl, hsize, fun j => ⟨_, kept_mem rest b, hread j⟩⟩⟩
    | code status hne null =>
      rw [genQuery_code] at hrun
      cases hrun
      have hno : ¬ Assigned (.code status hne null :: rest) none h := by
        rintro ⟨o, ho, -⟩
        cases ho
      show (0 ≤ (if status = catNoRowsFound then 0 else status) → _) ↔
        (status < 0 ∧ status ≠ catNoRowsFound)
      split
      · rename_i hcat
        exact ⟨fun hall => absurd (hall le_rfl) hno, fun hbegin => absurd hcat hbegin.2⟩
      · rename_i hcat
        refine ⟨fun hall => ⟨?_, hcat⟩, fun hbegin hst => ?_⟩
        · by_contra hst
          exact hno (hall (by omega))
        · omega

/-- `fileMode` reads a value or returns an error of the query. -/
theorem fileMode_reads_iff {replies : List (Reply 1)} {h : Heap (Block 1)} {r : ModeRead}
    (hrun : fileMode replies h = some r) : (∃ mode, r = .returns mode) ↔ Begins replies := by
  cases replies with
  | nil => cases hrun
  | cons r' rest =>
    cases r' with
    | rows b =>
      obtain ⟨st, o, h', -, -, rfl⟩ := fileMode_rows hrun
      exact ⟨fun _ => trivial, fun _ => ⟨_, rfl⟩⟩
    | code status hne null =>
      obtain rfl := fileMode_code hrun
      show _ ↔ status < 0 ∧ status ≠ catNoRowsFound
      by_cases hcat : status = catNoRowsFound
      · simp [hcat]
      · simp only [hcat, ↓reduceIte, ne_eq, not_false_eq_true, and_true]
        by_cases hneg : status < 0
        · simp [hneg]
        · simp [hneg]

/-- **A non-negative status promises an output** exactly when the first reply of `rcGenQuery` has
rows or is an error other than `CAT_NO_ROWS_FOUND`; and exactly then `fileMode` reads what has been
set. -/
theorem output_set_iff (inp : GenQueryInp) (replies : List (Reply inp.selects.length))
    (h : Heap (Block inp.selects.length)) (modes : List (Reply 1)) (hm : Heap (Block 1)) :
    (∀ st output h', genQuery inp.selects.get replies h = some (st, output, h') →
      ((0 ≤ st → Assigned replies output h') ↔ Begins replies)) ∧
    ∀ r, fileMode modes hm = some r → ((∃ mode, r = .returns mode) ↔ Begins modes) :=
  ⟨fun _ _ _ => assigned_iff, fun _ => fileMode_reads_iff⟩

/-- The access types of an object with two rights, in two batches. -/
def twoBatches : List (Reply 1) :=
  [.rows { rows := [fun _ => lit "1200"], continueInx := 1, ne_nil := by decide },
    .rows { rows := [fun _ => lit "1050"], continueInx := 2, ne_nil := by decide },
    .code catNoRowsFound (by decide) true]

/-- The end of the rows after two batches: the output is a value of the second. -/
theorem output_set_batches :
    ∃ output h', genQuery (accessQuery (lit "/z") (lit "f")).selects.get twoBatches ⟨[]⟩ =
        some (0, output, h') ∧ Assigned twoBatches output h' ∧
      ∃ mode, fileMode twoBatches ⟨[]⟩ = some (.returns mode) := by
  have hset := output_set_iff (accessQuery (lit "/z") (lit "f")) twoBatches ⟨[]⟩ twoBatches ⟨[]⟩
  obtain ⟨mode, hmode⟩ := (hset.2 (.returns 1050) (by decide)).2 trivial
  exact ⟨_, _, rfl, (hset.1 _ _ _ rfl).2 trivial le_rfl, mode, by rw [← hmode]; decide⟩

/-- `CAT_NO_ROWS_FOUND` at once: status 0, no output, and `fileMode` reads it. -/
theorem output_unset :
    ∃ output h', genQuery (accessQuery (lit "/z") (lit "f")).selects.get
        [.code catNoRowsFound (by decide) true] ⟨[]⟩ = some (0, output, h') ∧
      ¬ Assigned [.code catNoRowsFound (by decide) true] output h' ∧
      fileMode [.code catNoRowsFound (by decide) true] ⟨[]⟩ = some .unset := by
  refine ⟨none, ⟨[]⟩, rfl, ?_, rfl⟩
  rintro ⟨o, ho, -⟩
  cases ho

end NfsRods.Query
