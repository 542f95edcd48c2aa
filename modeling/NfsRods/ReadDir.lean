import NfsRods.Attr

/-!
# Reading directories

`readdir.c`: one READDIR reply from the local mirror, at most 4096 bytes and `MAX_ENTRIES` entries
of it, starting at the entry the cookie names.
-/

namespace NfsRods

open CStr

/-- `entry3`. -/
structure Entry3 where
  fileid : ULong
  name : CStr
  cookie : UInt64
  deriving DecidableEq, Repr

/-- `READDIR3res`. -/
structure Readdir3res where
  status : Nfsstat3
  entries : List Entry3 := []
  eof : Bool := false
  dirAttributes : PostOpAttr := {}
  deriving DecidableEq, Repr

/-- `MAX_ENTRIES`. -/
def maxEntries : Nat := 143

/-- `RESOK_SIZE`. -/
def resokSize : Nat := 104

/-- `ENTRY_SIZE`. -/
def entrySize : Nat := 24

/-- `NAME_SIZE`. -/
def nameSize (name : CStr) : Nat := (name.length + 3) / 4 * 4

section
variable {L R : Type} (w : World L R)

/-- The loop of `read_dir` over the entries from the cookie on; `acc` holds the entries so far in
reverse, `i` of them. -/
def readDirLoop (path : CStr) (cookie rcookie : UInt64) (count : Nat) :
    List Dirent → Nat → Nat → List Entry3 → M L R Readdir3res
  | [], _, _, acc => do
    debug w "debug EOF %d"
    pure { status := .ok, entries := acc.reverse, eof := true }
  | this :: rest, i, realCount, acc => do
    if realCount < count ∧ i < maxEntries then
      if path.length + this.name.length + 1 < maxPathLen then
        let scratch := if path = root then root ++ this.name else path ++ root ++ this.name
        match ← lstat w scratch with
        | none =>
          let s ← Prog.get
          pure { status := readdirErr s.errno }
        | some buf =>
          let entry : Entry3 :=
            { fileid := buf.ino, name := this.name
              cookie := (cookie + 1 + UInt64.ofNat i) ||| rcookie }
          let realCount := realCount + entrySize + nameSize this.name
          -- whoops, overflowed the maximum size
          if count < realCount ∧ 0 < i then
            debug w "debug EOF %d"
            pure { status := .ok, entries := acc.reverse, eof := false }
          else readDirLoop path cookie rcookie count rest (i + 1) realCount (entry :: acc)
      else pure { status := .io }
    else
      debug w "debug EOF %d"
      pure { status := .ok, entries := acc.reverse, eof := false }

/-- `read_dir`. -/
def readDir (path : CStr) (cookie : UInt64) (count : Nat) : M L R Readdir3res := do
  let s ← Prog.get
  -- ignore cookie if unexpected so we restart from the beginning
  let cookie := if cookie ≠ 0 ∧ cookie &&& 0xffffffff00000000 ≠ s.rcookie then 0
    else cookie &&& 0xffffffff
  let count := if 4096 < count then 4096 else count
  match ← query fun k => w.readdir k path with
  | none =>
    let s ← Prog.get
    if s.exports.bit (·.removable) && exportPoint s.exportList path then
      -- removable media export point; probably no media inserted
      pure { status := .ok, eof := true }
    else pure { status := readdirErr s.errno }
  | some entries =>
    readDirLoop w path cookie s.rcookie count (entries.drop cookie.toNat) 0 resokSize []

end

/-! ## Footprints -/

section
variable {L R : Type} {w : World L R} {E : Event → Prop}
  {r : Server L R → Server L R → Prop} [OwnFrame r] [Allows w E r]

open Prog (Frame Returns)

theorem readDirLoop_frame (path : CStr) (cookie rcookie : UInt64) (count : Nat) :
    (entries : List Dirent) → (i realCount : Nat) → (acc : List Entry3) →
    Frame r (readDirLoop w path cookie rcookie count entries i realCount acc)
  | [], _, _, _ => .bind (debug_frame _) fun _ => .pure _
  | this :: rest, i, realCount, acc => by
    refine .ite (fun _ => .ite (fun _ => .bind (lstat_frame _) fun r => ?_) fun _ => .pure _)
      fun _ => ?_
    · cases r with
      | none => exact .bind .get fun _ => .pure _
      | some buf =>
        refine .ite (fun _ => .bind (debug_frame _) fun _ => .pure _) fun _ => ?_
        exact readDirLoop_frame path cookie rcookie count rest _ _ _
    · exact .bind (debug_frame _) fun _ => .pure _

theorem readDir_frame (path : CStr) (cookie : UInt64) (count : Nat) :
    Frame r (readDir w path cookie count) := by
  refine .bind .get fun s => .bind (query_frame _) fun r => ?_
  cases r with
  | none => exact .bind .get fun _ => .ite (fun _ => .pure _) fun _ => .pure _
  | some entries => exact readDirLoop_frame _ _ _ _ _ _ _ _

theorem readDirLoop_returns (path : CStr) (cookie rcookie : UInt64) (count : Nat) :
    (entries : List Dirent) → (i realCount : Nat) → (acc : List Entry3) →
    Returns (readDirLoop w path cookie rcookie count entries i realCount acc)
  | [], _, _, _ => .bind (debug_returns _) fun _ => .pure _
  | this :: rest, i, realCount, acc => by
    refine .ite (.ite (.bind (query_returns _) fun r => ?_) (.pure _))
      (.bind (debug_returns _) fun _ => .pure _)
    cases r with
    | none => exact .bind .get fun _ => .pure _
    | some buf =>
      refine .ite (.bind (debug_returns _) fun _ => .pure _) ?_
      exact readDirLoop_returns path cookie rcookie count rest _ _ _

theorem readDir_returns (path : CStr) (cookie : UInt64) (count : Nat) :
    Returns (readDir w path cookie count) := by
  refine .bind .get fun s => .bind (query_returns _) fun r => ?_
  cases r with
  | none => exact .bind .get fun _ => .ite (.pure _) (.pure _)
  | some entries => exact readDirLoop_returns _ _ _ _ _ _ _ _

end

end NfsRods
