import NfsRods.Proof.PathOp
import NfsRods.Sandbox

/-!
# Copies into path buffers

The operations on a named path rewrite a buffer of `NFS_MAXPATHLEN` bytes by
`toArray(obj, getRealPathNFS(obj))`. `cat_name` fills it and bounds what it writes, but its status
is not looked at first, and the translated path is longer than the one it bounded.

* `copies_fit_iff`: for every request, each copy goes into a filled buffer and fits it exactly when
  the name is one `cat_name` accepts (`Accepted`) and, under a private export, the path leaves room
  for the uid component the translation inserts (`Roomy`).
-/

namespace NfsRods

open CStr
open Prog (Ends Frame)

/-- A copy is made into a filled buffer and fits it with its terminator. -/
def GoodCopy (ev : Event) : Prop :=
  ∀ filled len, ev = .toArray filled len → filled = true ∧ len + 1 ≤ maxPathLen

theorem good_of_calm (ev : Event) (h : ev.calm = true) : GoodCopy ev := by
  rintro f n rfl
  simp [Event.calm] at h

theorem good_sys (c : SysCall) : GoodCopy (.sys c) := fun _ _ h => by cases h
theorem good_rods (c : RodsCall) : GoodCopy (.rods c) := fun _ _ h => by cases h

section
variable {L R : Type} {w : World L R} {s : Server L R} {e : CStr}

/-- `obj` leaves room for what the translation inserts: nothing under a public export or when `obj`
has the caller's directory in it, else a separator and the digits of the uid. A path shorter than
the export's own (its parent) is read past its end. -/
def Roomy (w : World L R) (e : CStr) (uid : UInt32) (obj : CStr) : Prop :=
  publicPath w e = true ∨ strstr obj (userDir e uid) = true ∨
    if e.length ≤ obj.length then obj.length + (decimalInt (toCInt uid)).length + 2 ≤ maxPathLen
    else e.length + (decimalInt (toCInt uid)).length +
      ((w.past obj e.length).take obj.length).length + 2 ≤ maxPathLen

/-- What the buffers of an operation that `PREP` let in must satisfy; `s` is the state after
`PREP`. RENAME rewrites its two buffers only once the source name is accepted, and under the export
of the target directory. -/
def CopiesFit (w : World L R) (rq : SvcReq) (s : Server L R) (path : CStr) : PathOp → Prop
  | .rename argsFrom argsTo =>
    Accepted path argsFrom.name → exportsRw s.exports = .ok →
      ∀ e, compatPath w argsTo rq s = some e →
        Roomy w e rq.uid (childPath path argsFrom.name) ∧
        ∃ target, renameTarget w argsTo s = some target ∧ Accepted target argsTo.name ∧
          Roomy w e rq.uid (childPath target argsTo.name)
  | op => Accepted path op.args.name ∧
      Roomy w (exportPath s) rq.uid (childPath path op.args.name)

/-! ## What `cat_name` and the translation write -/

/-- What `cat_name` wrote, and whether its translation fits the buffer. -/
def Fitting (w : World L R) (e : CStr) (uid : UInt32) (cobj : Option CStr) : Prop :=
  ∃ obj, cobj = some obj ∧ (realPath w e uid obj).length + 1 ≤ maxPathLen

theorem realPath_fits_iff {uid : UInt32} {path name : CStr} (h : Accepted path name) :
    (realPath w e uid (childPath path name)).length + 1 ≤ maxPathLen ↔
      Roomy w e uid (childPath path name) := by
  have hl := childPath_length h
  unfold realPath Roomy
  split
  · simp_all
  · split
    · simp_all
    · rename_i hp hs
      simp only [hp, hs, false_or, Bool.false_eq_true]
      simp only [userDir, cut, List.length_append]
      split
      · simp only [root, List.length_cons, List.length_nil, List.length_drop]
        omega
      · simp only [root, List.length_cons, List.length_nil]
        omega

theorem fitting_catName {uid : UInt32} (path name : CStr) :
    Fitting w e uid (catName (some path) name).2 ↔
      Accepted path name ∧ Roomy w e uid (childPath path name) := by
  by_cases h : Accepted path name
  · simp only [Fitting, catName_accepted h, Option.some.injEq, exists_eq_left', h, true_and]
    exact realPath_fits_iff h
  · simp [Fitting, catName_rejected h, h]

/-- The same for a directory that may not have been found. -/
theorem fitting_target {uid : UInt32} (target : Option CStr) (name : CStr) :
    Fitting w e uid (catName target name).2 ↔
      ∃ path, target = some path ∧ Accepted path name ∧ Roomy w e uid (childPath path name) := by
  cases target with
  | none => simp [Fitting, catName]
  | some path => simpa using fitting_catName path name

/-! ## One rewrite -/

/-- Rewriting a buffer copies once. -/
theorem rewriteObj_since (h : s.exports.path = some e) (filled : Bool) (obj : CStr)
    (uid : UInt32) : ∃ s' t, rewriteObj w filled obj uid s = (.ok (realPath w e uid obj), s') ∧
      Tacit s s' ∧ (∀ ev ∈ t, GoodCopy ev) ∧
      s'.trace = s.trace ++ (t ++ [.toArray filled (realPath w e uid obj).length]) := by
  obtain ⟨s1, h1, t1⟩ := getRealPathNFS_ends (w := w) h obj uid
  obtain ⟨s2, h2, t2⟩ := debug_tacit (w := w) "RealPATH:%s" s1
  have e2 : s2.exports.path = some e := by rw [t2.exports, t1.exports, h]
  obtain ⟨s3, h3, t3⟩ := getRealPathNFS_ends (w := w) e2 obj uid
  have f1 : Foot w GoodCopy s s1 := (getRealPathNFS_frame (calm_path good_of_calm) obj uid).ok h1
  have f2 : Foot w GoodCopy s1 s2 := (debug_frame _).ok h2
  have f3 : Foot w GoodCopy s2 s3 := (getRealPathNFS_frame (calm_path good_of_calm) obj uid).ok h3
  have f := (f1.trans f2).trans f3
  refine ⟨{ s3 with trace := s3.trace ++ [.toArray filled (realPath w e uid obj).length] },
    since s s3, ?_, ?_, f.since, ?_⟩
  · rw [rewriteObj, Prog.bind_ok h1, Prog.bind_ok h2, Prog.bind_ok h3]
    rfl
  · have t4 : Tacit s3 { s3 with
        trace := s3.trace ++ [.toArray filled (realPath w e uid obj).length] } := rfl
    exact trans_of Tacit t1 (trans_of Tacit t2 (trans_of Tacit t3 t4))
  · rw [← List.append_assoc, ← f.trace_eq]

/-- A program that starts by rewriting a buffer is good when that copy and the rest are. -/
theorem rewriteObj_bind_good (h : s.exports.path = some e) {α : Type} (filled : Bool) (obj : CStr)
    (uid : UInt32) {rest : CStr → M L R α} (hr : ∀ a, Frame Grows (rest a)) :
    ∃ s', Tacit s s' ∧ (Only GoodCopy (rewriteObj w filled obj uid >>= rest) s ↔
      (filled = true ∧ (realPath w e uid obj).length + 1 ≤ maxPathLen) ∧
        Only GoodCopy (rest (realPath w e uid obj)) s') := by
  obtain ⟨s', t, hs', t', ht, htr⟩ := rewriteObj_since (w := w) h filled obj uid
  refine ⟨s', t', ?_⟩
  unfold Only
  rw [Prog.bind_ok hs', Grows.since ⟨_, htr.symm⟩ (hr _ s'), since_eq htr]
  constructor
  · intro hall
    exact ⟨hall _ (by simp) _ _ rfl, fun ev hev => hall ev (List.mem_append_right _ hev)⟩
  · rintro ⟨hg, hrest⟩ ev hev
    simp only [List.append_assoc, List.mem_append, List.mem_singleton] at hev
    rcases hev with hev | rfl | hev
    · exact ht ev hev
    · rintro f n ⟨⟩
      exact hg
    · exact hrest ev hev

/-- When the rest makes no copy, only that copy counts. -/
theorem rewriteObj_last_good (h : s.exports.path = some e) {α : Type} {filled : Bool} {obj : CStr}
    {uid : UInt32} {rest : CStr → M L R α} (hr : ∀ a, Frame (Foot w GoodCopy) (rest a)) :
    Only GoodCopy (rewriteObj w filled obj uid >>= rest) s ↔
      filled = true ∧ (realPath w e uid obj).length + 1 ≤ maxPathLen := by
  obtain ⟨s', _, hs'⟩ := rewriteObj_bind_good (w := w) h filled obj uid
    fun a => Foot.frame_grows (hr a)
  rw [hs', and_iff_left]
  exact (hr _ s').since

/-- The buffer's flag says whether `cat_name` wrote it. -/
theorem fitting_iff {cobj : Option CStr} {uid : UInt32} {junk : CStr} :
    (cobj.isSome = true ∧ (realPath w e uid (cobj.getD junk)).length + 1 ≤ maxPathLen) ↔
      Fitting w e uid cobj := by
  cases cobj with
  | none => simp [Fitting]
  | some obj => simp [Fitting]

/-! ## The requests -/

/-- RENAME's two copies. -/
theorem renameRest_good (he : s.exports.path = some e) (status : Nfsstat3) (fromObj : CStr)
    (cobj : Option CStr) (rq : SvcReq) (unset : Junk) :
    Only GoodCopy (renameRest w status fromObj cobj rq unset) s ↔
      Fitting w e rq.uid (some fromObj) ∧ Fitting w e rq.uid cobj := by
  have hlast : ∀ fromObj toObj, Frame (Foot w GoodCopy)
      (if status = .ok then renameMove w fromObj toObj rq else pure status) :=
    fun _ _ => .ite (fun _ => renameMove_frame good_of_calm good_sys good_rods _ _ _)
      fun _ => .pure _
  have hrest : ∀ fromObj, Frame Grows (rewriteObj w cobj.isSome (cobj.getD unset.buf) rq.uid >>=
      fun toObj => if status = .ok then renameMove w fromObj toObj rq else pure status) :=
    fun _ => .bind (rewriteObj_frame (E := fun _ => True) (fun _ => trivial) (fun _ _ => trivial)
      _ _ _) fun _ => Foot.frame_grows (hlast _ _)
  obtain ⟨s2, t2, h2⟩ := rewriteObj_bind_good (w := w) he true fromObj rq.uid hrest
  have e2 : s2.exports.path = some e := by rw [t2.exports, he]
  rw [renameRest, h2, rewriteObj_last_good e2 fun toObj => hlast _ toObj, fitting_iff]
  simp [Fitting]

theorem renameTo_good (fromObj : CStr) (toPath : Option CStr) (name : CStr) (rq : SvcReq)
    (unset : Junk) :
    Only GoodCopy (renameTo w fromObj toPath name rq unset) s ↔
      ∀ e, (exportsCompat s.exportList rq.remote toPath s.exports).2.path = some e →
        Fitting w e rq.uid (some fromObj) ∧ Fitting w e rq.uid (catName toPath name).2 := by
  rw [renameTo_only]
  cases he : (exportsCompat s.exportList rq.remote toPath s.exports).2.path with
  | none =>
    obtain ⟨s2, h2, f2⟩ := rewriteObj_stops (w := w)
      (s := { s with exports := (exportsCompat s.exportList rq.remote toPath s.exports).2 })
      good_of_calm he true fromObj rq.uid
    simp only [reduceCtorEq, false_implies, implies_true, iff_true]
    rw [renameRest, Only, Prog.bind_error h2]
    exact f2.since
  | some e =>
    rw [renameRest_good he]
    simp

/-- RENAME reads the target directory, and copies once the source name is accepted. -/
theorem renameBody_good (fromPath : CStr) (argsFrom argsTo : Diropargs3) (rq : SvcReq)
    (unset : Junk) :
    Only GoodCopy (renameBody w fromPath argsFrom argsTo rq unset) s ↔
      CopiesFit w rq s fromPath (.rename argsFrom argsTo) := by
  obtain ⟨toPath, s1, h1⟩ := fhDecomp_returns (w := w) argsTo.dir s
  have f1 : Foot w GoodCopy s s1 := (fhDecomp_foot (w := w) argsTo.dir).ok h1
  have ht : renameTarget w argsTo s = toPath := by rw [renameTarget, h1]
  rw [renameBody_only h1, renameTo_good, f1.exports, f1.exportList]
  simp only [CopiesFit, compatPath, ht]
  refine forall_congr' fun ha => forall_congr' fun _ => forall₂_congr fun e _ =>
    and_congr ?_ (fitting_target toPath argsTo.name)
  rw [← realPath_fits_iff ha]
  simp [Fitting]

/-- The copies of a request that `PREP` let in. -/
theorem PathOp.body_good (h : s.exports.path = some e) (op : PathOp) (rq : SvcReq) (unset : Junk)
    (path : CStr) :
    Only GoodCopy (op.body w rq unset path) s ↔ CopiesFit w rq s path op := by
  have he : exportPath s = e := by rw [exportPath, h]; rfl
  have one : ∀ {α : Type} (name : CStr) {rest : CStr → M L R α},
      (∀ a, Frame (Foot w GoodCopy) (rest a)) →
      (Only GoodCopy (rewriteObj w (catName (some path) name).2.isSome
          ((catName (some path) name).2.getD unset.buf) rq.uid >>= rest) s ↔
        Accepted path name ∧ Roomy w (exportPath s) rq.uid (childPath path name)) :=
    fun name _ hrest => by rw [rewriteObj_last_good h hrest, fitting_iff, he, fitting_catName]
  unfold Only
  cases op with
  | rename argsFrom argsTo =>
    rw [body, replyWith_snd]
    exact renameBody_good path argsFrom argsTo rq unset
  | create args how =>
    rw [body, replyWith_snd, createBody, Prog.get_bind_run]
    exact one args.name fun obj => createAct_foot good_of_calm good_sys good_rods _ _ _ _ _ _ _
  | mkdir args attributes =>
    rw [body, replyWith_snd, mkdirBody, Prog.get_bind_run]
    exact one args.name fun obj => mkdirAct_frame good_of_calm good_sys good_rods _ _ _ _ _ _ _
  | remove object =>
    rw [body, replyWith_snd, unlinkBody, Prog.get_bind_run]
    exact one object.name fun obj => unlinkAct_frame good_of_calm good_sys good_rods _ _ _ _ _
  | rmdir object =>
    rw [body, replyWith_snd, unlinkBody, Prog.get_bind_run]
    exact one object.name fun obj => unlinkAct_frame good_of_calm good_sys good_rods _ _ _ _ _

/-- **Each copy goes into a filled buffer and fits it** exactly when `CopiesFit` holds of a request
that `PREP` lets in. -/
theorem copies_fit_iff (op : PathOp) (rq : SvcReq) (s : Server L R) :
    (∀ ev ∈ since s (nfsProgram w rq op.request s).2, GoodCopy ev) ↔
      ∀ path s1, prep w op.args.dir rq s = (.ok (.ok path), s1) →
        CopiesFit w rq s1 path op := by
  refine (op.only_iff (fun c _ => good_sys c) rq s).trans (forall₃_congr fun path s1 hp => ?_)
  obtain ⟨e, he⟩ := prep_path hp
  exact op.body_good he rq _ path

end

/-- REMOVE of an empty name, which `cat_name` refuses, copies into a buffer that was never filled.
-/
theorem remove_copies_unfilled :
    let s := Sandbox.server [Sandbox.item (lit "/e") true] {} {}
    let op := PathOp.remove { dir := Sandbox.handle (Sandbox.item (lit "/e") true), name := [] }
    ¬ ∀ ev ∈ since s (nfsProgram Sandbox.publicWorld { remote := 1, uid := 7, gid := 7 }
      op.request s).2,
      GoodCopy ev := by
  intro s op h
  exact absurd (h (.toArray false 0) (by decide) false 0 rfl).1 (by decide)

end NfsRods
