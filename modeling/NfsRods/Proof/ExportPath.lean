import NfsRods.Proof.PathOp
import NfsRods.Sandbox

/-!
# The global `export_path`

`exports_options` sets `export_path` to `NULL` and only a match sets it again. `PREP` lets no
request in without a match, so a procedure that looks nothing else up uses a set `export_path`. Two
do look something up: RENAME (`exports_compat` of the target directory) and LOOKUP of `.` and `..`
(when the object is an export point).

* `renameBody_set_iff`, `lookupBody_set_iff`: when the two use a set `export_path`.
* `export_path_set_iff`: over every run of the daemon, the requests during which `export_path` is
  set wherever it is used.
-/

namespace NfsRods

open CStr
open Prog (Ends Frame Returns)

/-- A use of `export_path` finds it set. -/
def PathSet (ev : Event) : Prop := ∀ p, ev = .exportPath p → p.isSome = true

/-- The event is no use of `export_path`. -/
def NoPath (ev : Event) : Prop := ∀ p, ev ≠ .exportPath p

theorem NoPath.set {ev : Event} (h : NoPath ev) : PathSet ev := fun p he => absurd he (h p)
theorem noPath_sys (c : SysCall) : NoPath (.sys c) := fun _ h => by cases h

section
variable {L R : Type} {w : World L R} {s s' : Server L R} {e : CStr}

/-- A run under a set `export_path` uses no other. -/
theorem Foot.pathSet {E : Event → Prop} (h : Foot w E s s') (he : s.exports.path = some e) :
    Ran w PathSet s s' :=
  h.ran.mono fun _ hev p hp => by rw [hev.2 p hp, he]; rfl

theorem noPath_ran (h : Foot w NoPath s s') : Ran w PathSet s s' :=
  h.ran.mono fun _ hev => hev.1.set

/-! ## Uses of an unset `export_path` -/

/-- From `s`, `m` uses an `export_path` of `NULL`, which stops the process. -/
def Crashes {α : Type} (m : M L R α) (s : Server L R) : Prop :=
  ∃ s', m s = (.error .nullExportPath, s') ∧ .exportPath none ∈ since s s'

theorem Crashes.not_set {α : Type} {m : M L R α} (h : Crashes m s) : ¬ Only PathSet m s := by
  obtain ⟨s', hm, hev⟩ := h
  intro hall
  rw [Only, hm] at hall
  exact absurd (hall _ hev none rfl) (by simp)

theorem Crashes.bind {α β : Type} {m : M L R α} (h : Crashes m s) (f : α → M L R β) :
    Crashes (m >>= f) s := by
  obtain ⟨s', hm, hev⟩ := h
  exact ⟨s', Prog.bind_error hm, hev⟩

theorem Crashes.after {α β : Type} {m : M L R α} {f : α → M L R β} {a : α}
    (hm : m s = (.ok a, s')) (hg : Grows s s') (h : Crashes (f a) s') : Crashes (m >>= f) s := by
  obtain ⟨s'', hf, hev⟩ := h
  refine ⟨s'', by rw [Prog.bind_ok hm, hf], ?_⟩
  unfold since at hev ⊢
  have hl := hg.length_le
  rw [← Nat.add_sub_cancel' hl, ← List.drop_drop] at hev
  exact List.mem_of_mem_drop hev

theorem Crashes.after_debug {α : Type} {msg : Msg} {f : Unit → M L R α}
    (h : ∀ s', Tacit s s' → Crashes (f ()) s') : Crashes (debug w msg >>= f) s := by
  obtain ⟨s1, h1, t1⟩ := debug_tacit (w := w) msg s
  exact .after h1 ((debug_frame (w := w) (r := Foot w NoPath) msg).ok h1).grows (h s1 t1)

theorem isPublic_crashes (h : s.exports.path = none) : Crashes (isPublic w) s := by
  refine ⟨{ s with trace := s.trace ++ [.exportPath none] }, ?_, by simp [since]⟩
  simp [isPublic, Prog.bind_run, record, h]

theorem rewriteObj_crashes (h : s.exports.path = none) (filled : Bool) (obj : CStr) (uid : UInt32) :
    Crashes (rewriteObj w filled obj uid) s := by
  refine .bind (.after_debug fun s1 t1 => ?_) _
  exact (isPublic_crashes (by rw [t1.exports, h])).bind _

theorem connectUser_crashes (h : s.exports.path = none) (uid : UInt32) :
    Crashes (connectUser w uid) s := by
  refine .bind (.after_debug fun s1 t1 => ?_) _
  have e1 : s1.exports.path = none := by rw [t1.exports, h]
  rcases hn : getUserName w uid with ⟨result, name⟩
  by_cases hr : result < 0
  · simp only [hr, ↓reduceIte]
    refine .after_debug fun s2 t2 => ?_
    exact ((isPublic_crashes (by rw [t2.exports, e1])).bind _).bind _
  · simp only [hr, ↓reduceIte]
    obtain ⟨s2, h2, t2⟩ := junk_tacit (w := w) s1
    refine .after h2 ((junk_frame (w := w) (r := Foot w NoPath)).ok h2).grows ?_
    exact (isPublic_crashes (by rw [t2.exports, e1])).bind _

/-! ## RENAME -/

theorem renameTo_set_iff (fromObj : CStr) (toPath : Option CStr) (name : CStr) (rq : SvcReq)
    (unset : Junk) : Only PathSet (renameTo w fromObj toPath name rq unset) s ↔
      (exportsCompat s.exportList rq.remote toPath s.exports).2.path ≠ none := by
  have hfoot := renameRest_frame (w := w) (r := Foot w fun _ => True) (E := fun _ => True)
    (fun _ _ => trivial) (fun _ => trivial) (fun _ => trivial) (fun _ _ => trivial)
    (join (catName toPath name).1 (exportsCompat s.exportList rq.remote toPath s.exports).1) fromObj
    (catName toPath name).2 rq unset
    { s with exports := (exportsCompat s.exportList rq.remote toPath s.exports).2 }
  rw [renameTo_only]
  cases he : (exportsCompat s.exportList rq.remote toPath s.exports).2.path with
  | none =>
    exact iff_of_false ((rewriteObj_crashes he true fromObj rq.uid).bind _).not_set (by simp)
  | some e => exact iff_of_true (hfoot.pathSet he).since (by simp)

/-- **RENAME uses a set `export_path`** unless the source name is accepted, the export is writable
and the target directory is not found or not exported to the client. -/
theorem renameBody_set_iff (fromPath : CStr) (argsFrom argsTo : Diropargs3) (rq : SvcReq)
    (unset : Junk) : Only PathSet (renameBody w fromPath argsFrom argsTo rq unset) s ↔
      ¬ (Accepted fromPath argsFrom.name ∧ exportsRw s.exports = .ok ∧
        compatPath w argsTo rq s = none) := by
  obtain ⟨toPath, s1, h1⟩ := fhDecomp_returns (w := w) argsTo.dir s
  have f1 : Foot w NoPath s s1 := (fhDecomp_foot (w := w) argsTo.dir).ok h1
  have ht : renameTarget w argsTo s = toPath := by rw [renameTarget, h1]
  rw [renameBody_only h1, renameTo_set_iff, f1.exports, f1.exportList]
  simp only [compatPath, ht, not_and, ne_eq]

/-! ## LOOKUP -/

/-- The exports once a handle has been composed for `obj`. -/
def composedExports (obj : CStr) (rq : SvcReq) (s : Server L R) : ExportVars :=
  if exportPoint s.exportList obj then
    (exportsOptions s.exportList rq.remote (some obj) s.exports).vars
  else s.exports

/-- A state reached without a use of `export_path`, with these exports and LOOKUP's result as it
was. -/
structure Aimed (v : ExportVars) (s s' : Server L R) : Prop where
  trace : s'.trace = s.trace
  kernel : s'.kernel = s.kernel
  rods : s'.rods = s.rods
  exports : s'.exports = v
  lookupAttr : s'.lookupAttr = s.lookupAttr

theorem Aimed.ran {E : Event → Prop} {v : ExportVars} (h : Aimed v s s') : Ran w E s s' :=
  ⟨[], by simp [h.trace], by simp, h.kernel, h.rods⟩

/-- Composing a handle fails for an export point that is not exported to the client. -/
theorem fhCompPtr_run (obj : CStr) (rq : SvcReq) (s : Server L R) :
    ∃ fh s', fhCompPtr w obj rq false s = (.ok fh, s') ∧ Aimed (composedExports obj rq s) s s' ∧
      ((composedExports obj rq s).opts = none → s.exports.opts.isSome → fh = none) := by
  obtain ⟨fh, s1, h1, a1, hn⟩ : ∃ fh s1, fhCompRaw w obj (some rq) false s = (.ok fh, s1) ∧
      Aimed (composedExports obj rq s) s s1 ∧
      ((composedExports obj rq s).opts = none → s.exports.opts.isSome → fh = invalidFh) := by
    unfold fhCompRaw composedExports
    rw [Prog.get_bind_run]
    cases exportPoint s.exportList obj with
    | false =>
      refine ⟨_, s, rfl, ⟨rfl, rfl, rfl, rfl, rfl⟩, fun h1 h2 => ?_⟩
      rw [show s.exports.opts = none from h1] at h2
      cases h2
    | true =>
      simp only [↓reduceIte, exportsOptionsM_bind, Prog.ite_run]
      by_cases ho : (exportsOptions s.exportList rq.remote (some obj) s.exports).vars.opts = none
      · rw [if_pos ho]
        exact ⟨_, _, rfl, ⟨rfl, rfl, rfl, rfl, rfl⟩, fun _ _ => rfl⟩
      · rw [if_neg ho]
        split
        · exact ⟨_, _, rfl, ⟨rfl, rfl, rfl, rfl, rfl⟩, fun h => absurd h ho⟩
        · exact ⟨_, _, rfl, ⟨rfl, rfl, rfl, rfl, rfl⟩, fun h => absurd h ho⟩
  obtain ⟨s2, h2, a2⟩ : ∃ s2, Prog.when (fhValid fh) (fhCacheAdd fh.dev fh.ino obj) s1 =
      (.ok (), s2) ∧ Aimed (composedExports obj rq s) s s2 := by
    unfold Prog.when
    split
    · exact ⟨_, rfl, a1.trace, a1.kernel, a1.rods, a1.exports, a1.lookupAttr⟩
    · exact ⟨s1, rfl, a1⟩
  refine ⟨if fhValid fh then some { fh with pwhash := s2.exports.passwordHash } else none,
    s2, ?_, a2, fun h1 h2 => ?_⟩
  · rw [fhCompPtr, fhComp, Prog.bind_assoc_run, Prog.bind_ok h1, Prog.bind_assoc_run,
      Prog.bind_ok h2]
    rfl
  · rw [hn h1 h2]
    rfl

/-- LOOKUP of `.` or `..` composes a handle of an export point that is not exported to the client;
`path` is the mirror's directory. -/
def LookupLost (w : World L R) (what : Diropargs3) (rq : SvcReq) (path : CStr) (s : Server L R) :
    Prop :=
  Accepted path what.name ∧ (what.name = lit "." ∨ what.name = lit "..") ∧
    (w.lstat s.kernel (childPath path what.name)).isOk = true ∧
    (composedExports (childPath path what.name) rq s).path = none

theorem composedExports_path (obj : CStr) (rq : SvcReq)
    (hs : s.exports.path.isSome = s.exports.opts.isSome) :
    (composedExports obj rq s).path.isSome = (composedExports obj rq s).opts.isSome := by
  unfold composedExports
  split
  · exact exportsOptions_path _ _ _ _
  · exact hs

/-- What LOOKUP's local step does with the handle. -/
def lookupDone (w : World L R) (buf : Stat) (rq : SvcReq) :
    Option Unfs3Fh → M L R (Nfsstat3 × Option Unfs3Fh)
  | some fh => do
    let post ← getPostBuf w buf rq
    Prog.modify fun s => { s with lookupAttr := post }
    pure (.ok, some fh)
  | none => pure (.nametoolong, none)

theorem lookupDone_foot {E : Event → Prop} (buf : Stat) (rq : SvcReq) (fh : Option Unfs3Fh) :
    Frame (Foot w E) (lookupDone w buf rq fh) := by
  cases fh with
  | none => exact .pure _
  | some fh =>
    exact .bind (getPostBuf_frame _ _) fun _ =>
      .bind (modify_foot fun _ => ⟨rfl, rfl, rfl, rfl, rfl⟩) fun _ => .pure _

theorem lookupDone_returns (buf : Stat) (rq : SvcReq) (fh : Option Unfs3Fh) :
    Returns (lookupDone w buf rq fh) := by
  cases fh with
  | none => exact .pure _
  | some fh => exact .bind (getPostBuf_returns _ _) fun _ => .bind (.modify _) fun _ => .pure _

theorem lookupLocal_accepted {what : Diropargs3} {path : CStr} {rq : SvcReq} {buf : Stat}
    (ha : Accepted path what.name) (hb : w.lstat s.kernel (childPath path what.name) = .ok buf) :
    lookupLocal w what path rq s =
      (lookupFh w what (childPath path what.name) buf rq >>= lookupDone w buf rq) s := by
  have hl : lstat w (childPath path what.name) s = (.ok (some buf), s) := by
    simp [lstat, query, hb]
  unfold lookupLocal
  rw [catName_accepted ha]
  dsimp only
  rw [Prog.bind_ok hl]
  rfl

theorem lookupLocal_rejected {what : Diropargs3} {path : CStr} {rq : SvcReq}
    (ha : ¬ Accepted path what.name) :
    lookupLocal w what path rq s = (.ok ((catName (some path) what.name).1, none), s) := by
  have hn := catName_rejected ha
  unfold lookupLocal
  rcases hc : catName (some path) what.name with ⟨st, obj⟩
  rw [hc] at hn
  subst hn
  cases st <;> rfl

/-- A handle that extends the directory's leaves the exports alone. -/
theorem lookupFh_foot {E : Event → Prop} {what : Diropargs3}
    (hd : ¬ (what.name = lit "." ∨ what.name = lit "..")) (obj : CStr) (buf : Stat) (rq : SvcReq) :
    Frame (Foot w E) (lookupFh w what obj buf rq) ∧ Returns (lookupFh w what obj buf rq) := by
  unfold lookupFh
  rw [if_neg hd]
  exact ⟨.bind (fhExtend_frame _ _ _ _) fun _ => .bind (fhCacheAdd_foot _ _ _) fun _ => .pure _,
    .bind (fhExtend_returns _ _ _ _) fun _ => .bind (.modify _) fun _ => .pure _⟩

/-- LOOKUP's local step keeps `export_path` set, or loses it and leaves its result as it was. -/
theorem lookupLocal_run (what : Diropargs3) (path : CStr) (rq : SvcReq)
    (ho : s.exports.opts.isSome) (he : s.exports.path.isSome) :
    ∃ r s', lookupLocal w what path rq s = (.ok r, s') ∧ Ran w PathSet s s' ∧
      (LookupLost w what rq path s → s'.exports.path = none ∧ s'.lookupAttr = s.lookupAttr) ∧
      (¬ LookupLost w what rq path s → s'.exports.path.isSome) := by
  by_cases ha : Accepted path what.name
  · cases hb : w.lstat s.kernel (childPath path what.name) with
    | error err =>
      refine ⟨(lookupErr err, none), { s with errno := err }, ?_, ⟨[], by simp, by simp, rfl, rfl⟩,
        fun hl => ?_, fun _ => he⟩
      · have hq : lstat w (childPath path what.name) s = (.ok none, { s with errno := err }) := by
          simp [lstat, query, hb]
        unfold lookupLocal
        rw [catName_accepted ha]
        dsimp only
        rw [Prog.bind_ok hq]
        rfl
      · have hok := hl.2.2.1
        rw [hb] at hok
        cases hok
    | ok buf =>
      rw [lookupLocal_accepted ha hb]
      by_cases hd : what.name = lit "." ∨ what.name = lit ".."
      · obtain ⟨fh, s1, h1, a1, hn⟩ := fhCompPtr_run (w := w) (childPath path what.name) rq s
        have h1' : lookupFh w what (childPath path what.name) buf rq s = (.ok fh, s1) := by
          rw [lookupFh, if_pos hd, h1]
        obtain ⟨r, s2, h2⟩ := lookupDone_returns (w := w) buf rq fh s1
        have f2 : Foot w NoPath s1 s2 := (lookupDone_foot (w := w) buf rq fh).ok h2
        refine ⟨r, s2, by rw [Prog.bind_ok h1', h2],
          trans_of (Ran w PathSet) a1.ran (noPath_ran f2), fun hl => ?_, fun hl => ?_⟩
        · have hopts : (composedExports (childPath path what.name) rq s).opts = none := by
            have := composedExports_path (s := s) (childPath path what.name) rq (by rw [ho, he])
            rw [hl.2.2.2] at this
            simpa using this.symm
          rw [hn hopts ho] at h2
          cases h2
          exact ⟨by rw [a1.exports]; exact hl.2.2.2, a1.lookupAttr⟩
        · rw [f2.exports, a1.exports]
          refine Option.isSome_iff_ne_none.2 fun hp => hl ⟨ha, hd, ?_, hp⟩
          rw [hb]
          rfl
      · have hfh := lookupFh_foot (w := w) (E := NoPath) hd (childPath path what.name) buf rq
        obtain ⟨r, s', h⟩ := hfh.2.bind (fun fh => lookupDone_returns (w := w) buf rq fh) s
        have f : Foot w NoPath s s' := (hfh.1.bind fun fh => lookupDone_foot buf rq fh).ok h
        exact ⟨r, s', h, noPath_ran f, fun hl => absurd hl.2.1 hd,
          fun _ => by rw [f.exports]; exact he⟩
  · exact ⟨_, s, lookupLocal_rejected ha, ⟨[], by simp, by simp, rfl, rfl⟩,
      fun hl => absurd hl.1 ha, fun _ => he⟩

/-- The last part of LOOKUP: the size of the object its result describes, and the reply. -/
def lookupReply (w : World L R) (rodspath : CStr) (r : Nfsstat3 × Option Unfs3Fh)
    (dirAttributes : PostOpAttr) (rq : SvcReq) : M L R Lookup3res := do
  let s ← Prog.get
  Prog.when (s.lookupAttr.attributes.type = .reg) do
    let size ← remoteSize w rodspath rq.uid
    Prog.modify fun s =>
      { s with lookupAttr :=
          { s.lookupAttr with attributes := withSize s.lookupAttr.attributes size rq } }
  debug w "END LOOKUP object"
  let s ← Prog.get
  pure { status := r.1, object := r.2, objAttributes := s.lookupAttr, dirAttributes }

theorem lookupReply_foot {E : Event → Prop} (hE : ∀ ev, ev.calm = true → E ev) (rodspath : CStr)
    (r : Nfsstat3 × Option Unfs3Fh) (a : PostOpAttr) (rq : SvcReq) :
    Frame (Foot w E) (lookupReply w rodspath r a rq) := by
  refine .bind .get fun s => .bind (.when fun _ => ?_) fun _ => ?_
  · exact .bind (remoteSize_frame hE _ _) fun _ => modify_foot fun _ => ⟨rfl, rfl, rfl, rfl, rfl⟩
  · exact .bind (debug_frame _) fun _ => .bind .get fun _ => .pure _

/-- With an unset `export_path` the reply is only safe when there is no size to ask for. -/
theorem lookupReply_unset_iff (h : s.exports.path = none) (rodspath : CStr)
    (r : Nfsstat3 × Option Unfs3Fh) (a : PostOpAttr) (rq : SvcReq) :
    Only PathSet (lookupReply w rodspath r a rq) s ↔ s.lookupAttr.attributes.type ≠ .reg := by
  unfold lookupReply
  rw [Only, Prog.get_bind_run, ← Only]
  by_cases ht : s.lookupAttr.attributes.type = .reg
  · refine iff_of_false (Crashes.not_set ?_) (not_not.2 ht)
    rw [Prog.when, if_pos ht]
    exact (((connectUser_crashes h rq.uid).bind _).bind _).bind _
  · refine iff_of_true ?_ ht
    rw [Prog.when, if_neg ht]
    refine Ran.since (w := w) (noPath_ran ?_)
    exact Frame.bind (r := Foot w NoPath) (.pure ()) (fun _ => .bind (debug_frame _) fun _ =>
      .bind .get fun _ => .pure _) s

/-- LOOKUP's requests that use an unset `export_path`; `s` is the state after `PREP`. -/
def LookupLoses (w : World L R) (what : Diropargs3) (rq : SvcReq) (dir : CStr) (s : Server L R) :
    Prop :=
  (∃ home, rodsHome w (exportPath s) rq.uid = .ok home) ∧
    LookupLost w what rq (realPath w (exportPath s) rq.uid dir) s ∧
    s.lookupAttr.attributes.type = .reg

/-- The paths LOOKUP starts with. -/
theorem lookupBody_paths (he : s.exports.path = some e) (what : Diropargs3) (dir : CStr)
    (rq : SvcReq) {rodspath : CStr} (hr : rodsPath w e rq.uid dir = .ok rodspath) :
    ∃ s', Tacit s s' ∧ Ran w PathSet s s' ∧ lookupBody w what dir rq s =
      (lookupLocal w what (realPath w e rq.uid dir) rq >>= fun r =>
        getPostStat w (some (realPath w e rq.uid dir)) rq >>= fun a =>
          lookupReply w rodspath r a rq) s' := by
  obtain ⟨s1, h1, t1⟩ := debug_tacit (w := w) "LOOKUP PATH %s" s
  have e1 : s1.exports.path = some e := by rw [t1.exports, he]
  obtain ⟨s2, h2, t2⟩ := getRodsPath_ends (w := w) e1 rq.uid dir
  rw [hr] at h2
  obtain ⟨s3, h3, t3⟩ := debug_tacit (w := w) "LOOKUP irodspath %s" s2
  have e3 : s3.exports.path = some e := by rw [t3.exports, t2.exports, e1]
  obtain ⟨s4, h4, t4⟩ := getRealPathNFS_ends (w := w) e3 dir rq.uid
  obtain ⟨s5, h5, t5⟩ := debug_tacit (w := w) "LOOKUP path %s" s4
  have f1 : Foot w (fun _ => True) s s1 := (debug_frame _).ok h1
  have f2 : Foot w (fun _ => True) s1 s2 :=
    (getRodsPath_frame (E := fun _ => True) (fun _ => trivial) _ _).ok h2
  have f3 : Foot w (fun _ => True) s2 s3 := (debug_frame _).ok h3
  have f4 : Foot w (fun _ => True) s3 s4 :=
    (getRealPathNFS_frame (E := fun _ => True) (fun _ => trivial) _ _).ok h4
  have f5 : Foot w (fun _ => True) s4 s5 := (debug_frame _).ok h5
  have f := (((f1.trans f2).trans f3).trans f4).trans f5
  refine ⟨s5, trans_of Tacit t1 (trans_of Tacit t2 (trans_of Tacit t3 (trans_of Tacit t4 t5))),
    f.pathSet he, ?_⟩
  rw [lookupBody, Prog.bind_ok h1, Prog.bind_ok h2, Prog.bind_ok h3, Prog.bind_ok h4,
    Prog.bind_ok h5]
  rfl

/-- **LOOKUP uses a set `export_path`** unless its local step loses it while the static result still
describes a regular file. -/
theorem lookupBody_set_iff (ho : s.exports.opts.isSome) (he : s.exports.path = some e)
    (what : Diropargs3) (dir : CStr) (rq : SvcReq) :
    Only PathSet (lookupBody w what dir rq) s ↔ ¬ LookupLoses w what rq dir s := by
  have hexp : exportPath s = e := by rw [exportPath, he]; rfl
  cases hh : rodsHome w e rq.uid with
  | error st =>
    have hr : rodsPath w e rq.uid dir = .error st := by rw [rodsPath, hh]; rfl
    obtain ⟨s1, h1, t1⟩ := debug_tacit (w := w) "LOOKUP PATH %s" s
    obtain ⟨s2, h2, t2⟩ := getRodsPath_ends (w := w) (s := s1) (by rw [t1.exports, he]) rq.uid dir
    rw [hr] at h2
    have f1 : Foot w (fun _ => True) s s1 := (debug_frame _).ok h1
    have f2 : Foot w (fun _ => True) s1 (getRodsPath w rq.uid dir s1).2 :=
      getRodsPath_frame (E := fun _ => True) (fun _ => trivial) rq.uid dir s1
    rw [h2] at f2
    refine iff_of_true ?_ fun h => ?_
    · rw [lookupBody, Only, Prog.bind_ok h1, Prog.bind_error h2]
      exact ((f1.trans f2).pathSet he).since
    · obtain ⟨home, hho⟩ := h.1
      rw [hexp, hh] at hho
      cases hho
  | ok home =>
    have hr : rodsPath w e rq.uid dir = .ok (home ++ dir) := by rw [rodsPath, hh]; rfl
    obtain ⟨s1, t1, r1, h1⟩ := lookupBody_paths he what dir rq hr
    obtain ⟨r, s2, h2, r2, hlost, hkept⟩ := lookupLocal_run (w := w) (s := s1) what
      (realPath w e rq.uid dir) rq (by rw [t1.exports, ho]) (by rw [t1.exports, he]; rfl)
    obtain ⟨a, s3, h3⟩ := getPostStat_returns (w := w) (some (realPath w e rq.uid dir)) rq s2
    have t3 := (getPostStat_tacit (w := w) _ rq).ok h3
    have r3 : Ran w PathSet s2 s3 := noPath_ran ((getPostStat_frame (w := w) _ rq).ok h3)
    have f :=
      lookupReply_foot (w := w) (E := fun _ => True) (fun _ _ => trivial) (home ++ dir) r a rq s3
    have hrun : (lookupBody w what dir rq s).2 = (lookupReply w (home ++ dir) r a rq s3).2 := by
      rw [h1, Prog.bind_ok h2, Prog.bind_ok h3]
    rw [only_run hrun (trans_of (Ran w PathSet) r1 (trans_of (Ran w PathSet) r2 r3)) f.grows]
    have hl : LookupLost w what rq (realPath w e rq.uid dir) s1 ↔
        LookupLost w what rq (realPath w e rq.uid dir) s := by
      simp only [LookupLost, composedExports, t1.kernel, t1.exports, t1.exportList]
    rw [hl] at hlost hkept
    unfold LookupLoses
    rw [hexp, and_iff_right ⟨home, hh⟩]
    by_cases hc : LookupLost w what rq (realPath w e rq.uid dir) s
    · obtain ⟨hp, ha⟩ := hlost hc
      rw [lookupReply_unset_iff (by rw [t3.exports, hp]), t3.lookupAttr, ha, t1.lookupAttr]
      simp [hc]
    · obtain ⟨e', he'⟩ := Option.isSome_iff_exists.1 (hkept hc)
      exact iff_of_true (f.pathSet (by rw [t3.exports, he'])).since fun h => hc h.1

/-! ## Visits and runs -/

/-- The visit is a RENAME of an accepted name on a writable export whose target directory is stale
or not exported to the client, or a LOOKUP of `.` or `..` as in `LookupLoses`. -/
def Visit.LosesPath (w : World L R) (v : Visit L R) : Prop :=
  (∃ argsFrom argsTo path s, v.call = .rename argsFrom argsTo ∧
    prep w argsFrom.dir v.rq (enter v.rq v.state) = (.ok (.ok path), s) ∧
    Accepted path argsFrom.name ∧ exportsRw s.exports = .ok ∧ compatPath w argsTo v.rq s = none) ∨
  ∃ what dir s, v.call = .lookup what ∧
    prep w what.dir v.rq (enter v.rq v.state) = (.ok (.ok dir), s) ∧ LookupLoses w what v.rq dir s

theorem pathSet_sys (c : SysCall) : PathSet (.sys c) := (noPath_sys c).set

/-- A procedure that looks nothing up after `PREP` uses a set `export_path`. -/
theorem withPrep_set {α : Type} {f : α → NfsReply} {fh : NfsFh3} {rq : SvcReq}
    {r : Nfsstat3 → α} {body : CStr → M L R α}
    (hbody : ∀ path, Frame (Foot w fun _ => True) (body path)) (s : Server L R) :
    Only PathSet (replyWith f (withPrep w fh rq (fun st => pure (r st)) body)) s := by
  rw [withPrep_only (fun c _ => pathSet_sys c) (fun _ => .pure _) fun path =>
    Foot.frame_grows (hbody path)]
  intro path s1 hp
  obtain ⟨e, he⟩ := prep_path hp
  exact ((hbody path s1).pathSet he).since

theorem PathOp.body_set_iff (he : s.exports.path = some e) (op : PathOp) (rq : SvcReq)
    (unset : Junk)
    (path : CStr) : Only PathSet (op.body w rq unset path) s ↔
      ¬ ∃ argsFrom argsTo, op = .rename argsFrom argsTo ∧ Accepted path argsFrom.name ∧
        exportsRw s.exports = .ok ∧ compatPath w argsTo rq s = none := by
  have foot : ∀ {α : Type} (f : α → NfsReply) {m : M L R α}, Frame (Foot w fun _ => True) m →
      Only PathSet (replyWith f m) s := fun f m hm => by
    rw [Only, replyWith_snd]
    exact ((hm s).pathSet he).since
  cases op with
  | rename argsFrom argsTo =>
    rw [PathOp.body, Only, replyWith_snd, ← Only, renameBody_set_iff]
    simp
  | create args how =>
    exact iff_of_true (foot _ (createBody_foot (fun _ _ => trivial) (fun _ => trivial)
      (fun _ => trivial) (fun _ _ => trivial) _ _ _ _ _)) (by simp)
  | mkdir args attributes =>
    exact iff_of_true (foot _ (mkdirBody_frame (fun _ _ => trivial) (fun _ => trivial)
      (fun _ => trivial) (fun _ _ => trivial) _ _ _ _ _)) (by simp)
  | remove object =>
    exact iff_of_true (foot _ (unlinkBody_frame (fun _ _ => trivial) (fun _ => trivial)
      (fun _ => trivial) (fun _ _ => trivial) _ _ _ _ _)) (by simp)
  | rmdir object =>
    exact iff_of_true (foot _ (unlinkBody_frame (fun _ _ => trivial) (fun _ => trivial)
      (fun _ => trivial) (fun _ _ => trivial) _ _ _ _ _)) (by simp)

/-- A visit with an operation on a path. -/
theorem Visit.set_iff_of_op {v : Visit L R} (op : PathOp) (hc : v.call = op.request) :
    (∀ ev ∈ v.events w, PathSet ev) ↔ ¬ v.LosesPath w := by
  change Only PathSet (nfsProgram w v.rq v.call) (enter v.rq v.state) ↔ _
  rw [hc, op.only_iff fun c _ => pathSet_sys c]
  constructor
  · rintro hall (⟨argsFrom, argsTo, path, s, hc', hp, hl⟩ | ⟨what, dir, s, hc', _⟩)
    · obtain rfl : op = .rename argsFrom argsTo := by
        rw [hc] at hc'
        cases op <;> cases hc'
        rfl
      obtain ⟨e, he⟩ := prep_path hp
      exact (PathOp.body_set_iff he _ _ _ path).1 (hall path s hp) ⟨argsFrom, argsTo, rfl, hl⟩
    · rw [hc] at hc'
      cases op <;> cases hc'
  · intro hn path s1 hp
    obtain ⟨e, he⟩ := prep_path hp
    rw [PathOp.body_set_iff he]
    rintro ⟨argsFrom, argsTo, rfl, hl⟩
    exact hn (.inl ⟨argsFrom, argsTo, path, s1, hc, hp, hl⟩)

/-- A visit with a LOOKUP. -/
theorem Visit.set_iff_of_lookup {v : Visit L R} (what : Diropargs3) (hc : v.call = .lookup what) :
    (∀ ev ∈ v.events w, PathSet ev) ↔ ¬ v.LosesPath w := by
  have hran := fun dir =>
    (lookupBody_ran (w := w) (E := fun _ => True) (fun _ _ => trivial) what dir
      v.rq).mono fun _ _ h => h.grows
  have hrefuse : ∀ st : Nfsstat3, Frame (Ran w PathSet) (Prog.modify (fun s : Server L R =>
      { s with lookupAttr := {} }) >>= fun _ => (pure { status := st } : M L R Lookup3res)) :=
    fun _ => Foot.frame_ran
      (.bind (modify_foot fun _ => ⟨rfl, rfl, rfl, rfl, rfl⟩) fun _ => .pure _)
  change Only PathSet (nfsProgram w v.rq v.call) (enter v.rq v.state) ↔ _
  rw [hc]
  refine (withPrep_only (f := .lookup) (fun c _ => pathSet_sys c) hrefuse hran).trans ?_
  constructor
  · rintro hall (⟨argsFrom, argsTo, path, s, hc', _⟩ | ⟨what', dir, s, hc', hp, hl⟩)
    · rw [hc] at hc'
      cases hc'
    · rw [hc] at hc'
      cases hc'
      obtain ⟨e, he⟩ := prep_path hp
      exact (lookupBody_set_iff (prep_ok hp).2.1 he what dir v.rq).1 (hall dir s hp) hl
  · intro hn dir s1 hp
    obtain ⟨e, he⟩ := prep_path hp
    rw [lookupBody_set_iff (prep_ok hp).2.1 he]
    exact fun hl => hn (.inr ⟨what, dir, s1, hc, hp, hl⟩)

/-- A visit with a procedure that looks nothing up. -/
theorem Visit.set_iff_of_only {v : Visit L R} {q : NfsRequest} (hc : v.call = q)
    (hr : ∀ a b, q ≠ .rename a b) (hl : ∀ what, q ≠ .lookup what)
    (h : Only PathSet (nfsProgram w v.rq q) (enter v.rq v.state)) :
    (∀ ev ∈ v.events w, PathSet ev) ↔ ¬ v.LosesPath w := by
  subst hc
  refine iff_of_true h ?_
  rintro (⟨a, b, _, _, hc, _⟩ | ⟨what, _, _, hc, _⟩)
  · exact hr a b hc
  · exact hl what hc

/-- One visit. -/
theorem Visit.set_iff (v : Visit L R) : (∀ ev ∈ v.events w, PathSet ev) ↔ ¬ v.LosesPath w := by
  have calm : ∀ ev : Event, ev.calm = true → (fun _ => True : Event → Prop) ev := fun _ _ => trivial
  have sys : ∀ c : SysCall, (fun _ => True : Event → Prop) (.sys c) := fun _ => trivial
  have rods : ∀ c : RodsCall, (fun _ => True : Event → Prop) (.rods c) := fun _ => trivial
  cases hc : v.call with
  | create args how => exact Visit.set_iff_of_op (.create args how) hc
  | mkdir args attributes => exact Visit.set_iff_of_op (.mkdir args attributes) hc
  | remove object => exact Visit.set_iff_of_op (.remove object) hc
  | rmdir object => exact Visit.set_iff_of_op (.rmdir object) hc
  | rename argsFrom argsTo => exact Visit.set_iff_of_op (.rename argsFrom argsTo) hc
  | lookup what => exact Visit.set_iff_of_lookup what hc
  | null | unsupported =>
    exact Visit.set_iff_of_only hc (by simp) (by simp) fun ev hev => by
      simp [nfsProgram, since] at hev
  | getattr object =>
    exact Visit.set_iff_of_only hc (by simp) (by simp)
      (withPrep_set (fun _ => getattrBody_frame calm _ _) _)
  | setattr object new =>
    exact Visit.set_iff_of_only hc (by simp) (by simp)
      (withPrep_set (fun _ => setattrBody_frame calm sys rods _ _ _ _) _)
  | access object access =>
    exact Visit.set_iff_of_only hc (by simp) (by simp)
      (withPrep_set (fun _ => accessBody_frame calm (fun _ _ => trivial) _ _ _) _)
  | read file offset count =>
    refine Visit.set_iff_of_only hc (by simp) (by simp) ?_
    have hb : ∀ path, Frame (Foot w fun _ => True)
        (readBody w path offset count v.rq (w.junk (enter v.rq v.state).tick).int) :=
      fun _ => readBody_frame calm _ _ _ _ _
    exact withPrep_set (f := .read) (r := fun st => { status := st }) hb (enter v.rq v.state)
  | write args =>
    exact Visit.set_iff_of_only hc (by simp) (by simp)
      (withPrep_set (fun _ => writeBody_frame calm sys rods _ _ _) _)
  | readdir dir cookie count =>
    exact Visit.set_iff_of_only hc (by simp) (by simp)
      (withPrep_set (fun _ => readdirBody_frame calm sys _ _ _ _) _)
  | fsstat fsroot =>
    exact Visit.set_iff_of_only hc (by simp) (by simp)
      (withPrep_set (fun _ => fsstatBody_frame _ _) _)
  | fsinfo fsroot | pathconf object =>
    exact Visit.set_iff_of_only hc (by simp) (by simp)
      (withPrep_set (fun _ => .bind (getPostCached_frame _) fun _ => .pure _) _)

/-- **`export_path` is set wherever a request of a run uses it** exactly when no request of the run
loses it. -/
theorem export_path_set_iff (r : Run w) :
    (∀ v ∈ r.log, ∀ p, .exportPath p ∈ v.events w → p.isSome) ↔ ∀ v ∈ r.log, ¬ v.LosesPath w := by
  refine forall₂_congr fun v _ => ?_
  rw [← Visit.set_iff]
  exact ⟨fun h ev hev p hp => h p (hp ▸ hev), fun h p hp => h _ hp p rfl⟩

end

/-! ## A stale target -/

/-- RENAME of `/e/f` to a directory whose handle does not resolve. -/
def renameVisit : Visit Sandbox.Kernel Sandbox.Grid where
  rq := { remote := 1, uid := 7, gid := 7 }
  call := .rename { dir := Sandbox.handle (Sandbox.item (lit "/e") true), name := lit "f" }
    { dir := { dataLen := 0, obj := {} }, name := lit "g" }
  state := Sandbox.server [Sandbox.item (lit "/e") true] {} {}

/-- It is the first request the daemon gets, and stops it. -/
def renameRun : Run Sandbox.publicWorld where
  log := [] ++ [renameVisit]
  last := none
  runs := @Runs.stopped _ _ _ _ renameVisit (.start ⟨_, _, _, _, _, _, rfl⟩) .nullExportPath rfl

/-- The `export_path` used is `NULL`. -/
theorem rename_uses_null :
    ¬ ∀ v ∈ renameRun.log, ∀ p, .exportPath p ∈ v.events Sandbox.publicWorld → p.isSome := by
  intro h
  have := h renameVisit (by simp [renameRun]) none (by decide)
  simp at this

end NfsRods
