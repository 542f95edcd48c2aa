import NfsRods.Proof.Discipline
import NfsRods.Proof.Stable

/-!
# What is in `errno` when it is read

A procedure maps `errno` to a status after its local call, some of them after more library calls:
the system log and the iRODS client may leave any value there (`World.errnoAfter`).

* `prep_having`: `PREP` makes no library call and reads no unset memory.
* `PathOp.statusWith`: the status of an operation when it finds `x` in `errno`;
  `PathOp.body_status`: a body that replies finds there what a library call left.
* `openOf`, `fdOpen_openOf`: what `fd_open` does, as a function of the kernel and the table.
* `writeStatusWith`, `writeBody_status`: the same of WRITE.
-/

namespace NfsRods

open CStr
open Prog (Ends Frame)

section
variable {L R : Type} (w : World L R)

/-- The world in which a library call leaves `f` in `errno`, and `j` is what is in unset memory. -/
def World.having (f : Nat → Errno → Errno) (j : Nat → Junk) : World L R :=
  { w with errnoAfter := f, junk := j }

/-- The world in which a library call leaves `f` in `errno`. -/
def World.leaving (f : Nat → Errno → Errno) : World L R := { w with errnoAfter := f }

/-- A library call left `x` in `errno`. -/
def LeftBy (x : Errno) : Prop := ∃ t y, w.errnoAfter t y = x

/-- What the kernel documents of its results: only a call that fails returns -1, and an `fsync` that
succeeds returns 0. -/
structure KernelReturns : Prop where
  failed : ∀ {c k v}, (w.sys c k).1 = .ok v → v ≠ -1
  synced : ∀ {k fd v}, (w.sys (.fsync fd) k).1 = .ok v → v = 0

/-- The `errno` a system call fails with. -/
def sysError (c : SysCall) (k : L) : Option Errno :=
  match (w.sys c k).1 with
  | .ok _ => none
  | .error e => some e

end

section
variable {L R : Type} {w : World L R} {s s' : Server L R} {e : CStr}

theorem leftBy_leaving {x y : Errno} (h : LeftBy (w.leaving fun _ _ => x) y) : y = x := by
  obtain ⟨_, _, rfl⟩ := h
  rfl

theorem KernelReturns.leaving (h : KernelReturns w) (f : Nat → Errno → Errno) :
    KernelReturns (w.leaving f) := ⟨h.failed, h.synced⟩

/-- A call returns -1 exactly when it fails. -/
theorem KernelReturns.sysResult (h : KernelReturns w) (c : SysCall) (k : L) :
    NfsRods.sysResult w c k = -1 ↔ (sysError w c k).isSome := by
  unfold NfsRods.sysResult sysError
  cases hc : (w.sys c k).1 with
  | error e => exact ⟨fun _ => rfl, fun _ => rfl⟩
  | ok v => exact ⟨fun hv => absurd hv (h.failed hc), fun hn => nomatch hn⟩

/-! ## PREP -/

theorem fhRec_having (f : Nat → Errno → Errno) (j : Nat → Junk) (k : L) (fh : Unfs3Fh) (n : Nat)
    (lead : CStr) : fhRec (w.having f j) k fh n lead = fhRec w k fh n lead := by
  induction n generalizing lead with
  | zero => rfl
  | succ n ih =>
    rw [fhRec, fhRec]
    simp only [ih]
    rfl

theorem locatePfx_having (f : Nat → Errno → Errno) (j : Nat → Junk) (k : L) (dev ino : ULong)
    (fuel : Nat) (pfx : CStr) :
    locatePfx (w.having f j) k dev ino fuel pfx = locatePfx w k dev ino fuel pfx := by
  induction fuel generalizing pfx with
  | zero => rfl
  | succ fuel ih =>
    rw [locatePfx, locatePfx]
    simp only [ih]
    rfl

theorem fhDecompHard_having (f : Nat → Errno → Errno) (j : Nat → Junk) (obj : Unfs3Fh) :
    fhDecompHard (w.having f j) obj = fhDecompHard w obj := by
  have hraw : ∀ k, fhDecompRaw (w.having f j) k obj = fhDecompRaw w k obj := fun k => by
    rw [fhDecompRaw, fhDecompRaw, fhRec_having]
  have hlocate : ∀ k, locateFile (w.having f j) k obj.dev obj.ino =
      locateFile w k obj.dev obj.ino := fun k => by
    rw [locateFile, locateFile]
    simp only [locatePfx_having]
    rfl
  rw [fhDecompHard, fhDecompHard]
  simp only [hraw, hlocate]
  rfl

theorem fhDecomp_having (f : Nat → Errno → Errno) (j : Nat → Junk) (fh : NfsFh3) :
    fhDecomp (w.having f j) fh = fhDecomp w fh := by
  rw [fhDecomp, fhDecomp]
  simp only [fhDecompHard_having]

/-- `PREP` makes no library call and reads no unset memory. -/
theorem prep_having (f : Nat → Errno → Errno) (j : Nat → Junk) (fh : NfsFh3) (rq : SvcReq) :
    prep (w.having f j) fh rq = prep w fh rq := by
  rw [prep, prep]
  simp only [fhDecomp_having]
  rfl

theorem fhDecomp_leaving (f : Nat → Errno → Errno) (fh : NfsFh3) :
    fhDecomp (w.leaving f) fh = fhDecomp w fh := fhDecomp_having f w.junk fh

theorem prep_leaving (f : Nat → Errno → Errno) (fh : NfsFh3) (rq : SvcReq) :
    prep (w.leaving f) fh rq = prep w fh rq := prep_having f w.junk fh rq

/-! ## The remote step -/

theorem debug_leftBy {m : Msg} {x : Except Stop Unit} (h : debug w m s = (x, s')) :
    LeftBy w s'.errno := by
  cases h
  exact ⟨_, _, rfl⟩

theorem rcDisconnect_leftBy {comm : Comm} {x : Except Stop Unit}
    (h : rcDisconnect w comm s = (x, s')) : LeftBy w s'.errno := by
  cases h
  exact ⟨_, _, rfl⟩

/-- A remote step that returns changes nothing but the iRODS side. -/
theorem remoteStep_inv {call : CStr → Comm → RodsCall} {obj : CStr} {rq : SvcReq}
    (h : s.exports.path = some e) (hrun : remoteStep w call obj rq s = (.ok (), s')) :
    Aside s s' ∧ LeftBy w s'.errno := by
  constructor
  · have hc : Connects w rq := by
      by_contra hn
      obtain ⟨st, hst⟩ := remoteStep_stops (w := w) h hn call obj
      rw [hrun] at hst
      cases hst
    obtain ⟨s1, h1, a1, _⟩ := remoteStep_ends (w := w) h hc.1 hc.2 call obj
    rw [h1] at hrun
    obtain ⟨_, rfl⟩ := Prod.mk.inj hrun
    exact a1
  · obtain ⟨_, s1, _, hrun⟩ := Prog.bind_eq_ok hrun
    obtain ⟨_, s2, _, hrun⟩ := Prog.bind_eq_ok hrun
    obtain ⟨_, s3, _, hrun⟩ := Prog.bind_eq_ok hrun
    exact rcDisconnect_leftBy hrun

/-- RENAME's remote step, with what iRODS answers it. -/
theorem renameRemote_inv {fromObj toObj : CStr} {rq : SvcReq} {st : Int}
    (h : s.exports.path = some e) (hrun : renameRemote w fromObj toObj rq s = (.ok st, s')) :
    Aside s s' ∧ LeftBy w s'.errno ∧ st = (answer w e rq.uid s.rods
      (renameFile (targetName w e rq.uid toObj) (targetName w e rq.uid fromObj))).status := by
  have hc : Connects w rq := by
    by_contra hn
    obtain ⟨st', hst⟩ := renameRemote_stops (w := w) h hn fromObj toObj
    rw [hrun] at hst
    cases hst
  obtain ⟨s1, h1, a1, _⟩ := renameRemote_ends (w := w) h hc.1 hc.2 fromObj toObj
  have hsame := h1.symm.trans hrun
  obtain ⟨⟨⟨⟩⟩, rfl⟩ := Prod.mk.inj hsame
  refine ⟨a1, ?_, rfl⟩
  obtain ⟨_, t1, _, hrun⟩ := Prog.bind_eq_ok hrun
  obtain ⟨_, t2, _, hrun⟩ := Prog.bind_eq_ok hrun
  obtain ⟨_, t3, _, hrun⟩ := Prog.bind_eq_ok hrun
  obtain ⟨_, t4, _, hrun⟩ := Prog.bind_eq_ok hrun
  obtain ⟨_, t5, _, hrun⟩ := Prog.bind_eq_ok hrun
  obtain ⟨_, t6, _, hrun⟩ := Prog.bind_eq_ok hrun
  obtain ⟨_, t7, _, hrun⟩ := Prog.bind_eq_ok hrun
  obtain ⟨_, t8, h8, hrun⟩ := Prog.bind_eq_ok hrun
  cases hrun
  exact debug_leftBy h8

end

/-! ## The operations on a path -/

namespace PathOp

section
variable {L R : Type} (w : World L R) (rq : SvcReq) (unset : Junk) (d : CStr) (s : Server L R)

/-- The status so far when an operation on the directory `d` comes to its local call, which it makes
if this is `NFS3_OK`. -/
def soFar : PathOp → Nfsstat3
  | create args how => createStatus w s (catName (some d) args.name).1 how
  | mkdir args attributes => mkdirStatus w s d args attributes
  | remove object | rmdir object => join (catName (some d) object.name).1 (exportsRw s.exports)
  | rename argsFrom argsTo =>
    join (join (catName (some d) argsFrom.name).1 (exportsRw s.exports))
      (targetStatus w argsTo rq s)

/-- The mirror's path of the object; of the object to be moved, for RENAME. -/
def obj : PathOp → CStr
  | create args _ | mkdir args _ => bufPath w (exportPath s) rq.uid (some d) args.name unset
  | remove object | rmdir object => bufPath w (exportPath s) rq.uid (some d) object.name unset
  | rename argsFrom argsTo => realPath w (targetExport w argsTo rq s) rq.uid
      ((catName (some d) argsFrom.name).2.getD unset.buf)

/-- The local call. -/
def localCall (op : PathOp) : SysCall :=
  match op with
  | create _ how => openCall (op.obj w rq unset d s) how unset
  | mkdir _ attributes => .mkdir (op.obj w rq unset d s) (createMode attributes)
  | remove _ => .remove (op.obj w rq unset d s)
  | rmdir _ => .rmdir (op.obj w rq unset d s)
  | rename _ argsTo => .rename (op.obj w rq unset d s) (bufPath w (targetExport w argsTo rq s)
      rq.uid (renameTarget w argsTo s) argsTo.name unset)

/-- What RENAME's remote step returns. -/
def renameAnswer (argsFrom argsTo : Diropargs3) : Int :=
  let e := targetExport w argsTo rq s
  let toObj := bufPath w e rq.uid (renameTarget w argsTo s) argsTo.name unset
  (answer w e rq.uid s.rods (renameFile (targetName w e rq.uid toObj)
    (targetName w e rq.uid ((rename argsFrom argsTo).obj w rq unset d s)))).status

/-- The status after the local call, when library calls have left `x` in `errno`. -/
def localStatus (x : Errno) (op : PathOp) : Nfsstat3 :=
  let c := op.localCall w rq unset d s
  match op with
  | create _ how => finishStatus w (op.obj w rq unset d s) how .ok (sysResult w c s.kernel)
      (w.sys c s.kernel).2 x
  | mkdir _ _ => if sysResult w c s.kernel = -1 then mkdirErr x else .ok
  | remove _ => if sysResult w c s.kernel = -1 then removeErr (sysErrno w c s.kernel x) else .ok
  | rmdir _ => if sysResult w c s.kernel = -1 then rmdirErr (sysErrno w c s.kernel x) else .ok
  | rename argsFrom argsTo =>
    if sysResult w c s.kernel = -1 ∨ renameAnswer w rq unset d s argsFrom argsTo = -1 then
      renameErr (sysErrno w c s.kernel x)
    else .ok

/-- The status of the reply. -/
def statusWith (x : Errno) (op : PathOp) : Nfsstat3 :=
  if op.soFar w rq d s = .ok then op.localStatus w rq unset d s x else op.soFar w rq d s

end

end PathOp

section
variable {L R : Type} {w : World L R} {s s' : Server L R} {e d : CStr} {rq : SvcReq}
  {unset : Junk}

theorem PathOp.statusWith_refused {op : PathOp} (h : op.soFar w rq d s ≠ .ok) (x : Errno) :
    op.statusWith w rq unset d s x = op.soFar w rq d s := if_neg h

theorem leftBy_any (w : World L R) : ∃ x, LeftBy w x := ⟨_, 0, .other 0, rfl⟩

theorem mkdirMake_status {dir : NfsFh3} {obj : CStr} {attributes : Sattr3} {r : Create3res}
    (h : s.exports.path = some e) (hrun : mkdirMake w dir obj attributes rq s = (.ok r, s')) :
    ∃ x, LeftBy w x ∧ r.status =
      if sysResult w (.mkdir obj (createMode attributes)) s.kernel = -1 then mkdirErr x
      else .ok := by
  obtain ⟨s1, h1, k1, _⟩ := sys_ends (w := w) (.mkdir obj (createMode attributes)) s
  rw [mkdirMake, Prog.bind_ok h1] at hrun
  obtain ⟨_, s2, h2, hrun⟩ := Prog.bind_eq_ok hrun
  obtain ⟨_, hx⟩ := remoteStep_inv (by rw [k1.exports, h]) h2
  refine ⟨s2.errno, hx, ?_⟩
  rw [Prog.ite_run] at hrun
  split at hrun
  · cases hrun
    rw [if_pos ‹_›]
  · obtain ⟨_, s3, _, hrun⟩ := Prog.bind_eq_ok hrun
    obtain ⟨_, s4, _, hrun⟩ := Prog.bind_eq_ok hrun
    cases hrun
    rw [if_neg ‹_›]

theorem mkdirBody_status {args : Diropargs3} {attributes : Sattr3} {r : Create3res}
    (h : s.exports.path = some e) (hrun : mkdirBody w d args attributes rq unset s = (.ok r, s')) :
    ∃ x, LeftBy w x ∧ r.status = (PathOp.mkdir args attributes).statusWith w rq unset d s x := by
  obtain rfl := exportPath_eq h
  obtain ⟨s1, t1, heq⟩ := mkdirBody_run (w := w) rq h d args attributes unset
  rw [heq] at hrun
  obtain ⟨result, s2, h2, hrun⟩ := Prog.bind_eq_ok hrun
  obtain ⟨r', s3, h3, _, hr⟩ := mkdirTail_ends (w := w) rq d args.dir (getPreCached s) result s2
  have hsame := h3.symm.trans hrun
  obtain ⟨⟨⟨⟩⟩, rfl⟩ := Prod.mk.inj hsame
  rw [hr]
  by_cases hst : mkdirStatus w s d args attributes = .ok
  · rw [if_pos hst] at h2
    obtain ⟨x, hx, hres⟩ := mkdirMake_status (by rw [t1.exports, h]) h2
    rw [t1.kernel] at hres
    exact ⟨x, hx, hres.trans (if_pos hst).symm⟩
  · rw [if_neg hst] at h2
    cases h2
    obtain ⟨x, hx⟩ := leftBy_any w
    exact ⟨x, hx, (if_neg hst).symm⟩

/-- REMOVE and RMDIR. -/
theorem unlinkBody_status {u : Unlink} {name : CStr} {r : Remove3res} (h : s.exports.path = some e)
    (hrun : unlinkBody w u d name rq unset s = (.ok r, s')) :
    let st := join (catName (some d) name).1 (exportsRw s.exports)
    let c := u.call (bufPath w e rq.uid (some d) name unset)
    ∃ x, LeftBy w x ∧ r.status = if st = .ok then
        if sysResult w c s.kernel = -1 then u.err (sysErrno w c s.kernel x) else .ok
      else st := by
  obtain ⟨s1, h1, t1⟩ := rewriteName_ends (w := w) h (some d) name rq.uid unset
  obtain ⟨s2, h2, t2⟩ := debug_tacit (w := w) "RMDIR - Removing local directory %s\n" s1
  obtain ⟨s3, h3, -⟩ := unlinkLocal_run (w := w) u
    (join (catName (some d) name).1 (exportsRw s.exports))
    (bufPath w e rq.uid (some d) name unset) s2
  rw [unlinkBody, Prog.get_bind_run, Prog.bind_ok h1, unlinkAct, Prog.bind_ok h2,
    Prog.bind_ok h3] at hrun
  obtain ⟨_, s4, _, hrun⟩ := Prog.bind_eq_ok hrun
  rw [Prog.get_bind_run] at hrun
  obtain ⟨_, s5, _, hrun⟩ := Prog.bind_eq_ok hrun
  obtain ⟨_, s6, _, hrun⟩ := Prog.bind_eq_ok hrun
  cases hrun
  refine ⟨s2.errno, debug_leftBy h2, ?_⟩
  rw [t2.kernel, t1.kernel]

/-- The parts of a CREATE that opens and replies: the open, the remote step, which changes nothing
but the iRODS side, the rest of the local step, and what only looks. -/
theorem createBody_parts {args : Diropargs3} {how : Createhow3} {r : Create3res}
    (h : s.exports.path = some e) (hst : createStatus w s (catName (some d) args.name).1 how = .ok)
    (hrun : createBody w d args how rq unset s = (.ok r, s')) :
    let obj := bufPath w e rq.uid (some d) args.name unset
    ∃ s1 s2 result,
      Aside { s with kernel := (w.sys (openCall obj how unset) s.kernel).2 } s1 ∧
      s1.errno = createErrno w d args.name how rq unset s ∧ LeftBy w s1.errno ∧
      createFinish w args.dir obj how .ok (sysResult w (openCall obj how unset) s.kernel) rq s1 =
        (.ok result, s2) ∧
      Foot w (fun _ => False) s2 s' ∧ r.status = result.status ∧ r.obj = result.obj := by
  obtain ⟨t1, h1, tacit1⟩ := rewriteName_ends (w := w) h (some d) args.name rq.uid unset
  obtain ⟨t2, h2, k2, ker2⟩ := sys_ends (w := w)
    (openCall (bufPath w e rq.uid (some d) args.name unset) how unset) t1
  have hopen : createOpen w (createStatus w s (catName (some d) args.name).1 how)
      (bufPath w e rq.uid (some d) args.name unset) how unset.attr t1 = _ :=
    (congrFun (if_pos hst) t1).trans h2
  rw [createBody, Prog.get_bind_run, Prog.bind_ok h1, createAct, Prog.bind_ok hopen, hst,
    tacit1.kernel] at hrun
  obtain ⟨_, t3, h3, hrun⟩ := Prog.bind_eq_ok hrun
  obtain ⟨result, t4, h4, hrun⟩ := Prog.bind_eq_ok hrun
  rw [Prog.get_bind_run] at hrun
  obtain ⟨after, t5, h5, hrun⟩ := Prog.bind_eq_ok hrun
  obtain ⟨_, t6, h6, hrun⟩ := Prog.bind_eq_ok hrun
  cases hrun
  obtain ⟨a3, hx⟩ := remoteStep_inv (by rw [k2.exports, tacit1.exports, h]) h3
  refine ⟨t3, t4, result, ?_, ?_, hx, h4, ?_, rfl, rfl⟩
  · have a2 : Aside { s with kernel := (w.sys (openCall (bufPath w e rq.uid (some d) args.name
        unset) how unset) s.kernel).2 } t2 := by
      unfold Aside
      rw [k2, ker2, tacit1]
    exact trans_of Aside a2 a3
  · rw [createErrno, Prog.bind_ok h1, Prog.bind_ok h2, h3]
  · exact trans_of (Foot w fun _ => False) ((getPostStat_frame (w := w) (some d) rq).ok h5)
      ((debug_frame (r := Foot w fun _ => False) _).ok h6)

theorem createBody_status {args : Diropargs3} {how : Createhow3} {r : Create3res}
    (h : s.exports.path = some e) (hrun : createBody w d args how rq unset s = (.ok r, s')) :
    ∃ x, LeftBy w x ∧ r.status = (PathOp.create args how).statusWith w rq unset d s x := by
  obtain rfl := exportPath_eq h
  by_cases hst : createStatus w s (catName (some d) args.name).1 how = .ok
  · obtain ⟨s1, s2, result, a1, -, hx, h2, -, hr, -⟩ := createBody_parts h hst hrun
    obtain ⟨r', s2', h2', hr'⟩ := createFinish_run (w := w) args.dir
      (bufPath w (exportPath s) rq.uid (some d) args.name unset) how .ok
      (sysResult w (openCall (bufPath w (exportPath s) rq.uid (some d) args.name unset) how unset)
        s.kernel) rq s1
    rw [h2'] at h2
    obtain ⟨⟨⟨⟩⟩, rfl⟩ := Prod.mk.inj h2
    refine ⟨s1.errno, hx, (hr.trans hr').trans ?_⟩
    rw [PathOp.statusWith, PathOp.soFar, if_pos hst, a1.kernel]
    rfl
  · obtain ⟨t1, h1, -⟩ := rewriteName_ends (w := w) h (some d) args.name rq.uid unset
    rw [createBody, Prog.get_bind_run, Prog.bind_ok h1, createAct] at hrun
    obtain ⟨fd, t2, h2, hrun⟩ := Prog.bind_eq_ok hrun
    rw [createOpen, if_neg hst] at h2
    cases h2
    obtain ⟨_, t3, -, hrun⟩ := Prog.bind_eq_ok hrun
    obtain ⟨result, t4, h4, hrun⟩ := Prog.bind_eq_ok hrun
    rw [createFinish, if_neg (by decide), if_neg hst] at h4
    cases h4
    rw [Prog.get_bind_run] at hrun
    obtain ⟨_, t5, -, hrun⟩ := Prog.bind_eq_ok hrun
    obtain ⟨_, t6, -, hrun⟩ := Prog.bind_eq_ok hrun
    cases hrun
    obtain ⟨x, hx⟩ := leftBy_any w
    exact ⟨x, hx, (if_neg hst).symm⟩

theorem renameMove_status {fromObj toObj : CStr} {st : Nfsstat3} (h : s.exports.path = some e)
    (hrun : renameMove w fromObj toObj rq s = (.ok st, s')) :
    ∃ x, LeftBy w x ∧ st =
      if sysResult w (.rename fromObj toObj) s.kernel = -1 ∨ (answer w e rq.uid s.rods
          (renameFile (targetName w e rq.uid toObj) (targetName w e rq.uid fromObj))).status = -1
      then renameErr (sysErrno w (.rename fromObj toObj) s.kernel x) else .ok := by
  obtain ⟨s1, h1, k1, r1, x1⟩ : ∃ s1, (changeReaddirCookie : M L R Unit) s = (.ok (), s1) ∧
      s1.kernel = s.kernel ∧ s1.rods = s.rods ∧ s1.exports = s.exports := ⟨_, rfl, rfl, rfl, rfl⟩
  rw [renameMove, Prog.bind_ok h1] at hrun
  obtain ⟨status, s2, h2, hrun⟩ := Prog.bind_eq_ok hrun
  obtain ⟨a2, hx, rfl⟩ := renameRemote_inv (by rw [x1, h]) h2
  obtain ⟨s3, h3, _, _, err3, _⟩ := sys_run (w := w) (.rename fromObj toObj) s2
  rw [Prog.bind_ok h3, Prog.get_bind_run, a2.kernel, k1, r1] at hrun
  rw [a2.kernel, k1] at err3
  cases hrun
  exact ⟨s2.errno, hx, by rw [err3]⟩

/-- RENAME goes on only to a target that an export of the client governs. -/
theorem renameTo_target {fromObj name : CStr} {toPath : Option CStr} {st : Nfsstat3}
    (hrun : renameTo w fromObj toPath name rq unset s = (.ok st, s')) :
    ∃ e', (exportsCompat s.exportList rq.remote toPath s.exports).2.path = some e' := by
  refine Option.ne_none_iff_exists'.1 fun hnone => ?_
  obtain ⟨stop, hstop⟩ := renameTo_stops (w := w) rq fromObj toPath name unset hnone
  rw [hrun] at hstop
  cases hstop

/-- The parts of a RENAME that replies. -/
theorem renameBody_parts {argsFrom argsTo : Diropargs3} {r : Rename3res}
    (hrun : renameBody w d argsFrom argsTo rq unset s = (.ok r, s')) :
    ∃ s1 s2, s1.exports = s.exports ∧ s1.exportList = s.exportList ∧ s1.rods = s.rods ∧
      s1.kernel = s.kernel ∧
      (if join (catName (some d) argsFrom.name).1 (exportsRw s.exports) = .ok then
          renameTo w ((catName (some d) argsFrom.name).2.getD unset.buf) (renameTarget w argsTo s)
            argsTo.name rq unset
        else pure (join (catName (some d) argsFrom.name).1 (exportsRw s.exports))) s1 =
          (.ok r.status, s2) := by
  obtain ⟨s1, x1, l1, r1, k1, heq⟩ := renameBody_run (w := w) rq d argsFrom argsTo unset s
  rw [heq] at hrun
  obtain ⟨st, s2, h2, hrun⟩ := Prog.bind_eq_ok hrun
  obtain ⟨r', s3, h3, _, hr⟩ := renameEnd_ends (w := w) st (getPreCached s) d
    (renameTarget w argsTo s) argsFrom rq s2
  have hsame := h3.symm.trans hrun
  obtain ⟨⟨⟨⟩⟩, rfl⟩ := Prod.mk.inj hsame
  exact ⟨s1, s2, x1, l1, r1, k1, by rw [hr]; exact h2⟩

theorem renameBody_target {argsFrom argsTo : Diropargs3} {r : Rename3res}
    (hrun : renameBody w d argsFrom argsTo rq unset s = (.ok r, s'))
    (hfrom : join (catName (some d) argsFrom.name).1 (exportsRw s.exports) = .ok) :
    (compatPath w argsTo rq s).isSome := by
  obtain ⟨s1, s2, x1, l1, -, -, h2⟩ := renameBody_parts hrun
  rw [if_pos hfrom] at h2
  obtain ⟨e', he'⟩ := renameTo_target h2
  rw [compatPath, ← l1, ← x1, he']
  rfl

theorem renameBody_status {argsFrom argsTo : Diropargs3} {r : Rename3res}
    (hrun : renameBody w d argsFrom argsTo rq unset s = (.ok r, s')) :
    ∃ x, LeftBy w x ∧ r.status = (PathOp.rename argsFrom argsTo).statusWith w rq unset d s x := by
  obtain ⟨s1, s2, x1, l1, r1, k1, h2⟩ := renameBody_parts hrun
  obtain ⟨x, hx⟩ := leftBy_any w
  by_cases hfrom : join (catName (some d) argsFrom.name).1 (exportsRw s.exports) = .ok
  · rw [if_pos hfrom] at h2
    obtain ⟨e', he'⟩ := renameTo_target h2
    obtain ⟨t, xt, rt, kt, hto⟩ := renameTo_run (w := w) rq
      ((catName (some d) argsFrom.name).2.getD unset.buf) (renameTarget w argsTo s) argsTo.name
      unset he'
    rw [x1, l1] at he' hto
    have htarget : targetExport w argsTo rq s = e' := by
      rw [targetExport, compatPath, he']
      rfl
    rw [hto] at h2
    have hsoFar : (PathOp.rename argsFrom argsTo).soFar w rq d s = targetStatus w argsTo rq s := by
      rw [PathOp.soFar, hfrom]
      rfl
    by_cases hst : targetStatus w argsTo rq s = .ok
    · rw [targetStatus] at hst
      rw [if_pos hst] at h2
      obtain ⟨y, hy, hres⟩ := renameMove_status xt h2
      refine ⟨y, hy, hres.trans ?_⟩
      rw [rt, kt, r1, k1, ← htarget]
      exact (if_pos (hsoFar.trans hst)).symm
    · refine ⟨x, hx, ?_⟩
      rw [PathOp.statusWith_refused (by rw [hsoFar]; exact hst), hsoFar]
      rw [targetStatus] at hst
      rw [if_neg hst] at h2
      injection h2 with h2
      exact (Except.ok.inj h2).symm
  · rw [if_neg hfrom] at h2
    injection h2 with h2
    have hsoFar : (PathOp.rename argsFrom argsTo).soFar w rq d s =
        join (catName (some d) argsFrom.name).1 (exportsRw s.exports) := if_pos hfrom
    refine ⟨x, hx, ?_⟩
    rw [PathOp.statusWith_refused (by rw [hsoFar]; exact hfrom), hsoFar]
    exact (Except.ok.inj h2).symm

/-- **The status of a reply** is what the operation makes of the `errno` some library call has
left. -/
theorem PathOp.body_status {op : PathOp} {reply : NfsReply} (h : s.exports.path = some e)
    (hrun : op.body w rq unset d s = (.ok reply, s')) :
    ∃ x, LeftBy w x ∧ reply.status = op.statusWith w rq unset d s x := by
  cases op with
  | create args how =>
    obtain ⟨r, hbody, rfl⟩ := replyWith_ok hrun
    exact createBody_status h hbody
  | mkdir args attributes =>
    obtain ⟨r, hbody, rfl⟩ := replyWith_ok hrun
    exact mkdirBody_status h hbody
  | remove object =>
    obtain ⟨r, hbody, rfl⟩ := replyWith_ok hrun
    obtain rfl := exportPath_eq h
    exact unlinkBody_status h hbody
  | rmdir object =>
    obtain ⟨r, hbody, rfl⟩ := replyWith_ok hrun
    obtain rfl := exportPath_eq h
    exact unlinkBody_status h hbody
  | rename argsFrom argsTo =>
    obtain ⟨r, hbody, rfl⟩ := replyWith_ok hrun
    exact renameBody_status hbody

/-- What `PREP` lets in is the body. -/
theorem PathOp.request_body {op : PathOp} {t : Server L R}
    (hp : prep w op.args.dir rq s = (.ok (.ok d), t)) :
    nfsProgram w rq op.request s = op.body w rq (w.junk s.tick) d t := by
  rcases op.run_cases (w := w) rq s with ⟨d', t', hp', h⟩ | ⟨_, _, hp', _⟩ | ⟨_, _, hp', _⟩
  all_goals rw [hp] at hp'
  · obtain ⟨⟨⟨⟩⟩, rfl⟩ := Prod.mk.inj hp'
    exact h
  · cases hp'
  · cases hp'

/-! ### Another world -/

theorem renameTarget_leaving (f : Nat → Errno → Errno) (argsTo : Diropargs3) (s : Server L R) :
    renameTarget (w.leaving f) argsTo s = renameTarget w argsTo s := by
  rw [renameTarget, renameTarget, fhDecomp_leaving]

theorem compatPath_leaving (f : Nat → Errno → Errno) (argsTo : Diropargs3) (s : Server L R) :
    compatPath (w.leaving f) argsTo rq s = compatPath w argsTo rq s := by
  rw [compatPath, compatPath, renameTarget_leaving]

theorem PathOp.soFar_leaving (f : Nat → Errno → Errno) (op : PathOp) (s : Server L R) :
    op.soFar (w.leaving f) rq d s = op.soFar w rq d s := by
  cases op with
  | rename argsFrom argsTo =>
    rw [PathOp.soFar, PathOp.soFar, targetStatus, targetStatus, renameTarget_leaving]
  | _ => rfl

/-- The status depends on the world only through what was left in `errno`. -/
theorem PathOp.statusWith_leaving (f : Nat → Errno → Errno) (op : PathOp) (s : Server L R)
    (x : Errno) :
    op.statusWith (w.leaving f) rq unset d s x = op.statusWith w rq unset d s x := by
  cases op with
  | rename argsFrom argsTo =>
    have hexport : targetExport (w.leaving f) argsTo rq s = targetExport w argsTo rq s := by
      rw [targetExport, targetExport, compatPath_leaving]
    simp only [PathOp.statusWith, PathOp.soFar_leaving, PathOp.localStatus, PathOp.localCall,
      PathOp.renameAnswer, PathOp.obj, hexport, renameTarget_leaving]
    rfl
  | _ => rfl

end

/-! ## WRITE -/

section
variable {L R : Type} (w : World L R)

/-- What `fd_open` does in the kernel `k` with the table `c`: its error, or the descriptor with the
kernel and the table that it leaves. -/
def openOf (path : CStr) (ufh : Unfs3Fh) (kind : FdKind) (caching : Bool) (k : L) (c : FdCache) :
    Except Errno (Int × L × FdCache) :=
  match c.idxByFh ufh kind with
  | some idx =>
    if (c.entry idx).fd = -1 then .error .eio else .ok ((c.entry idx).fd, k, c)
  | none =>
    match w.sys (fdOpenCall path kind) k with
    | (.error e, _) => .error e
    | (.ok fd, k') =>
      match w.fstat k' fd with
      | .error _ => .error .eloop
      | .ok b =>
        if ufh.dev = b.dev ∧ ufh.ino = b.ino ∧ ufh.gen = getGen b then
          .ok (fd, k', if caching then c.add fd ufh kind (w.time k') else c)
        else .error .eloop

/-- The errors of the calls that close a descriptor for writing. -/
def shutErrors (fd : Int) (k : L) : List Errno :=
  (sysError w (.fsync fd) k).toList ++
    (sysError w (.close fd) (w.sys (.fsync fd) k).2).toList

/-- The errors of the calls `fd_close` makes for a descriptor for writing: none for one that stays
in the table. -/
def closeErrors (fd : Int) (really : Bool) (k : L) (c : FdCache) : List Errno :=
  if (c.idxByFd fd .write).isSome ∧ really = false then [] else shutErrors w fd k

/-- The errors of the calls a WRITE makes on its descriptor. -/
def writeErrors (args : Write3args) (fd : Int) (k : L) (c : FdCache) : List Errno :=
  (sysError w (.pwrite fd args.data args.offset) k).toList ++
    closeErrors w fd (args.stable ≠ .unstable) (w.sys (.pwrite fd args.data args.offset) k).2 c

/-- The status of a WRITE on an open descriptor, when library calls have left `x` in `errno`. -/
def writtenStatus (args : Write3args) (fd : Int) (k : L) (c : FdCache) (x : Errno) : Nfsstat3 :=
  if writeErrors w args fd k c = [] then .ok
  else writeWriteErr ((closeErrors w fd (args.stable ≠ .unstable)
    (w.sys (.pwrite fd args.data args.offset) k).2 c).getLastD x)

/-- The descriptor that a WRITE gets in a state that `PREP` leaves. -/
def writeOpened (rq : SvcReq) (d : CStr) (args : Write3args) (s : Server L R) :
    Except Errno (Int × L × FdCache) :=
  openOf w (realPath w (exportPath s) rq.uid d) args.file.obj .write (args.stable = .unstable)
    (writeByOwner w rq s.stCache s).2.kernel s.fd

/-- The status of the reply. -/
def writeStatusWith (rq : SvcReq) (d : CStr) (args : Write3args) (s : Server L R) (x : Errno) :
    Nfsstat3 :=
  if join (isReg s) (exportsRw s.exports) = .ok then
    match writeOpened w rq d args s with
    | .error e => writeOpenErr e
    | .ok (fd, k, c) => writtenStatus w args fd k c x
  else join (isReg s) (exportsRw s.exports)

end

section
variable {L R : Type} {w : World L R} {s s' : Server L R} {e d : CStr} {rq : SvcReq}

theorem sysErrno_eq (c : SysCall) (k : L) (x : Errno) :
    sysErrno w c k x = (sysError w c k).getD x := by
  unfold sysErrno sysError
  cases (w.sys c k).1 <;> rfl

/-- A pending error is told as `EIO`. -/
theorem fdCacheDel_pending {idx : Nat} (hfd : (s.fd.entry idx).fd = -1) :
    ∃ r s', fdCacheDel w idx false s = (.ok r, s') ∧ s'.exports = s.exports ∧
      s'.errno = .eio := by
  rw [fdCacheDel, Prog.get_bind_run]
  dsimp only
  rw [if_neg (not_not_intro hfd)]
  exact ⟨_, _, rfl, rfl, rfl⟩

/-- **`fd_open`** as a function of the kernel and the table. -/
theorem fdOpen_openOf (hk : KernelReturns w) (path : CStr) (nfh : NfsFh3) (kind : FdKind)
    (caching : Bool) (s : Server L R) :
    ∃ fd s', fdOpen w path nfh kind caching s = (.ok fd, s') ∧ s'.exports = s.exports ∧
      match openOf w path nfh.obj kind caching s.kernel s.fd with
      | .error e => fd = -1 ∧ s'.errno = e
      | .ok x => fd ≠ -1 ∧ x = (fd, s'.kernel, s'.fd) := by
  rw [fdOpen, Prog.get_bind_run, openOf]
  cases hidx : s.fd.idxByFh nfh.obj kind with
  | some idx =>
    dsimp only
    rw [Prog.ite_run]
    by_cases hfd : (s.fd.entry idx).fd = -1
    · rw [if_pos hfd, if_pos hfd]
      obtain ⟨r, s1, h1, x1, err1⟩ := fdCacheDel_pending (w := w) hfd
      rw [Prog.bind_ok h1]
      exact ⟨-1, s1, rfl, x1, rfl, err1⟩
    · rw [if_neg hfd, if_neg hfd]
      exact ⟨_, s, rfl, rfl, hfd, rfl⟩
  | none =>
    dsimp only
    rw [← fdOpenCall]
    -- the race check fails: the descriptor is closed again
    have hraced : ∀ fd s1, s1.exports = s.exports → ∃ fd' s', ((do
        let _ ← sys w (.close fd)
        Prog.modify fun s => { s with errno := .eloop }
        pure (-1) : M L R Int) s1) = (.ok fd', s') ∧ s'.exports = s.exports ∧
          fd' = -1 ∧ s'.errno = .eloop := by
      intro fd s1 hs1
      obtain ⟨s2, h2, k2, _⟩ := sys_ends (w := w) (.close fd) s1
      rw [Prog.bind_ok h2]
      exact ⟨-1, { s2 with errno := .eloop }, rfl, k2.exports.trans hs1, rfl, rfl⟩
    obtain ⟨s1, h1, k1, ker1, err1, -⟩ := sys_run (w := w) (fdOpenCall path kind) s
    rw [Prog.bind_ok h1, Prog.ite_run]
    rcases hsys : w.sys (fdOpenCall path kind) s.kernel with ⟨er | fd, k⟩
    · rw [sysErrno, hsys] at err1
      rw [sysResult, hsys, if_pos rfl]
      exact ⟨-1, s1, rfl, k1.exports, rfl, err1⟩
    · have hfd : fd ≠ -1 := hk.failed (by rw [hsys])
      have hker : s1.kernel = k := by rw [ker1, hsys]
      rw [sysResult, hsys]
      dsimp only
      rw [if_neg hfd]
      cases hstat : w.fstat k fd with
      | error er =>
        rw [Prog.bind_ok (query_error (by rw [hker, hstat]))]
        exact hraced fd _ k1.exports
      | ok b =>
        rw [Prog.bind_ok (query_ok (by rw [hker, hstat])), Prog.ite_run]
        dsimp only
        by_cases hsame : nfh.obj.dev = b.dev ∧ nfh.obj.ino = b.ino ∧ nfh.obj.gen = getGen b
        · rw [if_neg (by simp [hsame.1, hsame.2.1, hsame.2.2]), if_pos hsame]
          have hs1 : s.fd = s1.fd := by rw [k1]
          cases caching with
          | true =>
            rw [Prog.when, if_pos rfl, Prog.bind_ok (fdCacheAdd_run fd nfh.obj kind s1)]
            exact ⟨fd, _, rfl, k1.exports, hfd, by rw [hs1, ← hker]; rfl⟩
          | false => exact ⟨fd, s1, rfl, k1.exports, hfd, by rw [hs1, ← hker]; rfl⟩
        · rw [if_pos, if_neg hsame]
          · exact hraced fd s1 k1.exports
          · by_cases hdev : nfh.obj.dev = b.dev <;> by_cases hino : nfh.obj.ino = b.ino <;>
              by_cases hgen : nfh.obj.gen = getGen b <;> simp_all

theorem fdClose_errors (hk : KernelReturns w) {fd r : Int} {really : Bool} (hfd : fd ≠ -1)
    (h : fdClose w fd .write really s = (.ok r, s')) :
    (r = -1 ↔ closeErrors w fd really s.kernel s.fd ≠ []) ∧
      s'.errno = (closeErrors w fd really s.kernel s.fd).getLastD s.errno := by
  have hshut : ∀ x, closeErrno w fd .write s.kernel x = (shutErrors w fd s.kernel).getLastD x := by
    intro x
    simp only [closeErrno, sysErrno_eq, shutErrors]
    cases sysError w (.fsync fd) s.kernel <;>
      cases sysError w (.close fd) (w.sys (.fsync fd) s.kernel).2 <;> rfl
  have hfails : CloseFails w fd .write s.kernel ↔ shutErrors w fd s.kernel ≠ [] := by
    rw [closeFails_iff]
    simp only [hk.sysResult, shutErrors]
    cases sysError w (.fsync fd) s.kernel <;>
      cases sysError w (.close fd) (w.sys (.fsync fd) s.kernel).2 <;> simp
  obtain ⟨r', s1, h1, hclosed⟩ := fdClose_run (w := w) fd .write really s
  have hsame := h1.symm.trans h
  obtain ⟨⟨⟨⟩⟩, rfl⟩ := Prod.mk.inj hsame
  cases hclosed with
  | stays hidx hreal =>
    have hnil : closeErrors w fd really s.kernel s.fd = [] := if_pos ⟨by rw [hidx]; rfl, hreal⟩
    rw [hnil]
    exact ⟨by decide, rfl⟩
  | @deleted idx r s' hidx hreal hr hdel =>
    obtain ⟨-, hentry, hkind⟩ := FdCache.idxByFd_eq_some hidx
    have herrs : closeErrors w fd really s.kernel s.fd = shutErrors w fd s.kernel :=
      if_neg (by simp [hreal])
    generalize htouch : s.fd.touch idx (w.time s.kernel) = c at hr hdel
    have hfd' : (c.entry idx).fd = fd := by rw [← htouch]; simpa using hentry
    have hkind' : (c.entry idx).kind = .write := by rw [← htouch]; simpa using hkind
    have hopen : (c.entry idx).isOpen = true := by simp [FdEntry.isOpen, hfd', hfd]
    have herr := hdel.errno hopen
    rw [herrs, ← hfails, ← hshut]
    rw [hfd', hkind'] at herr
    rw [FdEntry.Fails, hopen, hfd', hkind'] at hr
    exact ⟨by simpa using hr, herr⟩
  | lone hidx hside hdid herr =>
    have herrs : closeErrors w fd really s.kernel s.fd = shutErrors w fd s.kernel :=
      if_neg (by simp [hidx])
    rw [herrs, ← hshut]
    refine ⟨?_, herr⟩
    rw [loneResult, ← hfails, closeFails_iff]
    dsimp only
    cases hsync : (w.sys (.fsync fd) s.kernel).1 with
    | error er => simp [sysResult, hsync]
    | ok v => simp [sysResult, hsync, hk.synced hsync]

theorem becomeRoot_ends (s : Server L R) :
    ∃ s', becomeRoot w s = (.ok (), s') ∧ KernelOnly s s' ∧
      s'.kernel = (w.sys (.seteuid 0) (w.sys (.setegid 0) s.kernel).2).2 := by
  obtain ⟨s1, h1, k1, ker1⟩ := sys_ends (w := w) (.setegid 0) s
  obtain ⟨s2, h2, k2, ker2⟩ := sys_ends (w := w) (.seteuid 0) s1
  exact ⟨s2, by rw [becomeRoot, Prog.bind_ok h1, Prog.bind_ok h2]; rfl, trans_of KernelOnly k1 k2,
    by rw [ker2, ker1]⟩

/-- What `write_by_owner` does to the kernel does not depend on what is in `errno`. -/
theorem writeByOwner_tacit (rq : SvcReq) {t : Server L R} (h : Tacit s t) (buf : Stat) :
    ∃ t', writeByOwner w rq buf t = (.ok (), t') ∧ KernelOnly t t' ∧
      t'.kernel = (writeByOwner w rq buf s).2.kernel := by
  obtain ⟨s1, h1, _, ker1⟩ := becomeRoot_ends (w := w) s
  obtain ⟨t1, g1, k1, kert⟩ := becomeRoot_ends (w := w) t
  have howner : isOwner t buf.uid rq = isOwner s buf.uid rq := by rw [h]; rfl
  have hgroup : hasGroup t buf.gid rq = hasGroup s buf.gid rq := by rw [h]; rfl
  simp only [writeByOwner, accessByOwner, Prog.get_bind_run, Prog.when, Prog.ite_run, howner,
    hgroup]
  split
  · exact ⟨t1, g1, k1, by rw [h1, kert, ker1, h.kernel]⟩
  · exact ⟨t, rfl, rfl, h.kernel⟩

theorem writeFront_run (h : s.exports.path = some e) (d : CStr) (rq : SvcReq) :
    ∃ s', writeFront w d rq s =
        (.ok (realPath w e rq.uid d, join (isReg s) (exportsRw s.exports)), s') ∧
      s'.exports = s.exports ∧ s'.fd = s.fd ∧
      s'.kernel = (writeByOwner w rq s.stCache s).2.kernel := by
  obtain ⟨s1, h1, t1⟩ := getRealPathNFS_ends (w := w) h d rq.uid
  obtain ⟨s2, h2, t2⟩ := debug_tacit (w := w) "ACCESS PATH %s" s1
  have t12 : Tacit s s2 := trans_of Tacit t1 t2
  obtain ⟨s3, h3, k3, ker3⟩ := writeByOwner_tacit (w := w) rq t12 s.stCache
  have hst : s2.stCache = s.stCache := t12.stCache
  have hreg : isReg s2 = isReg s := by rw [isReg, t12.stCacheValid, t12.stCache, isReg]
  refine ⟨s3, ?_, by rw [k3.exports, t12.exports], ?_, ker3⟩
  · rw [writeFront, Prog.bind_ok h1, Prog.bind_ok h2, Prog.get_bind_run, hst, Prog.bind_ok h3, hreg,
      t12.exports]
    rfl
  · rw [k3]
    show s2.fd = s.fd
    rw [t12]

theorem writeWrite_status (hk : KernelReturns w) {path : CStr} {args : Write3args} {r : Write3res}
    (h : s.exports.path = some e) (hrun : writeWrite w path args rq s = (.ok r, s')) :
    ∃ x, LeftBy w x ∧ r.status =
      match openOf w path args.file.obj .write (args.stable = .unstable) s.kernel s.fd with
      | .error er => writeOpenErr er
      | .ok (fd, k, c) => writtenStatus w args fd k c x := by
  obtain ⟨fd, s1, h1, x1, hopen⟩ := fdOpen_openOf hk path args.file .write
    (args.stable = .unstable) s
  rw [writeWrite, Prog.bind_ok h1, Prog.ite_run] at hrun
  cases hof : openOf w path args.file.obj .write (args.stable = .unstable) s.kernel s.fd with
  | error er =>
    rw [hof] at hopen
    obtain ⟨x, hx⟩ := leftBy_any w
    rw [if_neg (not_not_intro hopen.1), Prog.get_bind_run, hopen.2] at hrun
    cases hrun
    exact ⟨x, hx, rfl⟩
  | ok opened =>
    rw [hof] at hopen
    obtain ⟨hfd, rfl⟩ := hopen
    rw [if_pos hfd] at hrun
    obtain ⟨⟨res, resClose⟩, s2, h2, hrun⟩ := Prog.bind_eq_ok hrun
    dsimp only at hrun ⊢
    rw [writeFd_eq] at h2
    obtain ⟨t1, g1, k1, ker1⟩ := sys_ends (w := w) (.pwrite fd args.data args.offset) s1
    rw [Prog.bind_ok g1] at h2
    obtain ⟨_, t2, g2, h2⟩ := Prog.bind_eq_ok h2
    obtain ⟨rc, t3, g3, h2⟩ := Prog.bind_eq_ok h2
    simp only [Prog.pure_run, Prod.mk.injEq, Except.ok.injEq] at h2
    obtain ⟨⟨rfl, rfl⟩, rfl⟩ := h2
    have a2 : Aside t1 t2 := writeRemote_aside (by rw [k1.exports, x1, h]) g2
    have hx : LeftBy w t2.errno := by
      obtain ⟨_, u1, _, g2⟩ := Prog.bind_eq_ok g2
      obtain ⟨_, u2, _, g2⟩ := Prog.bind_eq_ok g2
      obtain ⟨_, u3, _, g2⟩ := Prog.bind_eq_ok g2
      obtain ⟨_, u4, _, g2⟩ := Prog.bind_eq_ok g2
      exact rcDisconnect_leftBy g2
    obtain ⟨hclose, herr⟩ := fdClose_errors hk hfd g3
    have hker : t2.kernel = (w.sys (.pwrite fd args.data args.offset) s1.kernel).2 := by
      rw [a2.kernel, ker1]
    have hfdt : t2.fd = s1.fd := by
      rw [a2]
      show t1.fd = s1.fd
      rw [k1]
    rw [hker, hfdt] at hclose herr
    refine ⟨t2.errno, hx, ?_⟩
    have hnil : writeErrors w args fd s1.kernel s1.fd = [] ↔
        sysResult w (.pwrite fd args.data args.offset) s1.kernel ≠ -1 ∧ rc ≠ -1 := by
      simp only [writeErrors, List.append_eq_nil_iff, ne_eq, hk.sysResult, hclose]
      simp
    rw [Prog.get_bind_run, Prog.ite_run] at hrun
    rw [writtenStatus]
    by_cases hok : sysResult w (.pwrite fd args.data args.offset) s1.kernel ≠ -1 ∧ rc ≠ -1
    · rw [if_pos hok] at hrun
      rw [if_pos (hnil.2 hok)]
      cases hrun
      rfl
    · rw [if_neg hok] at hrun
      rw [if_neg (mt hnil.1 hok), ← herr]
      cases hrun
      rfl

/-- **The status of a WRITE** is what it makes of the `errno` some library call has left. -/
theorem writeBody_status (hk : KernelReturns w) {args : Write3args} {r : Write3res}
    (h : s.exports.path = some e) (hrun : writeBody w d args rq s = (.ok r, s')) :
    ∃ x, LeftBy w x ∧ r.status = writeStatusWith w rq d args s x := by
  obtain rfl := exportPath_eq h
  obtain ⟨s1, h1, x1, fd1, ker1⟩ := writeFront_run (w := w) h d rq
  rw [writeBody_eq, Prog.bind_ok h1] at hrun
  dsimp only at hrun
  obtain ⟨result, s2, h2, hrun⟩ := Prog.bind_eq_ok hrun
  obtain ⟨wcc, s3, h3⟩ := writeBack_run (w := w) (realPath w (exportPath s) rq.uid d) rq result s2
  have hsame := h3.symm.trans hrun
  obtain ⟨⟨⟨⟩⟩, rfl⟩ := Prod.mk.inj hsame
  rw [Prog.ite_run] at h2
  by_cases hst : join (isReg s) (exportsRw s.exports) = .ok
  · rw [if_pos hst] at h2
    obtain ⟨x, hx, hres⟩ := writeWrite_status hk (by rw [x1, h]) h2
    rw [ker1, fd1] at hres
    exact ⟨x, hx, hres.trans (if_pos hst).symm⟩
  · rw [if_neg hst] at h2
    cases h2
    obtain ⟨x, hx⟩ := leftBy_any w
    exact ⟨x, hx, (if_neg hst).symm⟩

/-- A WRITE that gets a descriptor and replies has connected. -/
theorem writeBody_connects (hk : KernelReturns w) {args : Write3args} {r : Write3res}
    (h : s.exports.path = some e) (hrun : writeBody w d args rq s = (.ok r, s'))
    (hst : join (isReg s) (exportsRw s.exports) = .ok) {x : Int × L × FdCache}
    (hopen : writeOpened w rq d args s = .ok x) : Connects w rq := by
  obtain rfl := exportPath_eq h
  obtain ⟨s1, h1, x1, fd1, ker1⟩ := writeFront_run (w := w) h d rq
  rw [writeBody_eq, Prog.bind_ok h1] at hrun
  dsimp only at hrun
  rw [if_pos hst] at hrun
  obtain ⟨result, s2, h2, -⟩ := Prog.bind_eq_ok hrun
  obtain ⟨fd, s3, h3, x3, hfd⟩ := fdOpen_openOf hk (realPath w (exportPath s) rq.uid d) args.file
    .write (args.stable = .unstable) s1
  rw [writeOpened] at hopen
  rw [ker1, fd1, hopen] at hfd
  rw [writeWrite, Prog.bind_ok h3, Prog.ite_run, if_pos hfd.1] at h2
  obtain ⟨_, s4, h4, -⟩ := Prog.bind_eq_ok h2
  exact (writeFd_conducted (by rw [x3, x1, h]) h4).1

end

end NfsRods
