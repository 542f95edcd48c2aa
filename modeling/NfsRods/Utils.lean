import NfsRods.Server
import NfsRods.Fh

/-!
# Utilities

`utils.c`: strings cut by position, user names, and the two walks over the local tree that
`listCollection` starts with (`recMkdir`, `removedirectoryrecursively`).
-/

namespace NfsRods

open CStr

section
variable {L R : Type} (w : World L R)

/-- `concatProxy`. -/
def concatProxy (zone userName path : CStr) : M L R CStr := do
  debug w "concatProxy START "
  debug w "concatProxy END "
  pure (zone ++ lit "/home/" ++ userName ++ path)

/-- `getUserName`: the status, and the name if the buffer is written. -/
def getUserName (uid : UInt32) : Int × Option CStr :=
  if !w.conf.privateColl then (1, none)
  else match w.getpwuid uid with
    | some name => (0, some name)
    | none => (-1, none)

/-- `substring`: `length` bytes from the 1-based `position`, as the string they read as. The copy
runs past the terminator of `string` when it starts behind its first byte. -/
def substring (string : CStr) (position length : Nat) : CStr :=
  if position - 1 ≤ string.length then (string.drop (position - 1)).take length
  else (w.past string (position - 1)).take length

/-- `toArray`: copy `value` into a buffer, which had been `filled` or not. -/
def toArray (filled : Bool) (value : CStr) : M L R CStr := do
  record (.toArray filled value.length)
  pure value

/-- `rec_mkdir`: `tmp` has 256 bytes. -/
def recMkdir (dir : CStr) : M L R Unit := do
  let tmp := dir.take 255
  let tmp := if tmp.getLast? = some slash then tmp.dropLast else tmp
  Prog.forEach (fun p => do
    debug w "READDIR create %s"
    let _ ← sys w (.mkdir p 0o700)) (cuts tmp).dropLast
  let _ ← sys w (.mkdir tmp 0o700)
  debug w "READDIR create %s"

/-- `PATH_MAX`. -/
def pathMax : Nat := 4096

/-- `removedirectoryrecursively`; every level adds a separator, so a directory more than
`PATH_MAX` levels down cannot be opened. -/
def removedirectoryrecursively : Nat → CStr → M L R Unit
  | 0, _ => libCall w
  | fuel + 1, dirname => do
    match ← query fun k => w.readdir k dirname with
    | none => libCall w
    | some entries =>
      Prog.forEach (fun e =>
        Prog.when (e.name ≠ lit "." ∧ e.name ≠ lit "..") do
          let path := (dirname ++ root ++ e.name).take (pathMax - 1)
          Prog.when e.isDir (removedirectoryrecursively fuel path)
          let _ ← sys w (.remove path)) entries
      let _ ← sys w (.rmdir dirname)

end

/-! ## Footprints -/

section
variable {L R : Type} {w : World L R} {E : Event → Prop}
  {r : Server L R → Server L R → Prop} [OwnFrame r] [Allows w E r]

open Prog (Frame Returns)

theorem concatProxy_frame (zone userName path : CStr) :
    Frame r (concatProxy w zone userName path) :=
  .bind (debug_frame _) fun _ => .bind (debug_frame _) fun _ => .pure _

theorem toArray_frame (w : World L R) [Allows w E r] {filled : Bool} {value : CStr}
    (hE : E (.toArray filled value.length)) :
    Frame r (toArray filled value : M L R CStr) :=
  .bind (Allows.copy w hE) fun _ => .pure _

theorem recMkdir_frame (hE : ∀ p m, E (.sys (.mkdir p m))) (dir : CStr) :
    Frame r (recMkdir w dir) := by
  refine .bind (.forEach (fun p => ?_) _) fun _ => ?_
  · exact .bind (debug_frame _) fun _ => .bind (sys_frame (hE _ _)) fun _ => .pure _
  · exact .bind (sys_frame (hE _ _)) fun _ => debug_frame _

theorem removedirectoryrecursively_frame (hr : ∀ p, E (.sys (.remove p)))
    (hd : ∀ p, E (.sys (.rmdir p))) : (fuel : Nat) → (dirname : CStr) →
    Frame r (removedirectoryrecursively w fuel dirname)
  | 0, _ => libCall_frame
  | fuel + 1, dirname => by
    refine .bind (query_frame _) fun r => ?_
    cases r with
    | none => exact libCall_frame
    | some entries =>
      refine .bind (.forEach (fun e => .when fun _ => ?_) _) fun _ => ?_
      · refine .bind (.when fun _ => removedirectoryrecursively_frame hr hd fuel _) fun _ => ?_
        exact .bind (sys_frame (hr _)) fun _ => .pure _
      · exact .bind (sys_frame (hd _)) fun _ => .pure _

/-! ## Results -/

theorem recMkdir_returns (dir : CStr) : Returns (recMkdir w dir) := by
  refine .bind (.forEach (fun p => ?_) _) fun _ => ?_
  · exact .bind (debug_returns _) fun _ => .bind (sys_returns _) fun _ => .pure _
  · exact .bind (sys_returns _) fun _ => debug_returns _

theorem removedirectoryrecursively_returns : (fuel : Nat) → (dirname : CStr) →
    Returns (removedirectoryrecursively w fuel dirname)
  | 0, _ => fun _ => ⟨_, _, rfl⟩
  | fuel + 1, dirname => by
    refine .bind (query_returns _) fun r => ?_
    cases r with
    | none => exact fun _ => ⟨_, _, rfl⟩
    | some entries =>
      refine .bind (.forEach (fun e => .when ?_) _) fun _ => ?_
      · refine .bind (.when (removedirectoryrecursively_returns fuel _)) fun _ => ?_
        exact .bind (sys_returns _) fun _ => .pure _
      · exact .bind (sys_returns _) fun _ => .pure _

theorem concatProxy_ends (zone userName path : CStr) (s : Server L R) :
    Prog.Ends Tacit (concatProxy w zone userName path) s
      (.ok (zone ++ lit "/home/" ++ userName ++ path)) :=
  (debug_tacit _ s).bind fun _ _ => (debug_tacit _ _).bind fun _ _ => .pure _ _

end

end NfsRods