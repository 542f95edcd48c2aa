import NfsRods.Serve

/-!
# Operations on a named path

CREATE, MKDIR, REMOVE, RMDIR and RENAME take a directory handle and a name in it and share their
shape: `PREP`, then a body (`PathOp.body`) that appends the name, rewrites the path to the mirror's
and acts on mirror and iRODS.

* `PathOp.run_cases`: a request is refused by `PREP`, stops there, or runs its body.
-/

namespace NfsRods

open CStr
open Prog (Ends Frame)

inductive PathOp
  | create (args : Diropargs3) (how : Createhow3)
  | mkdir (args : Diropargs3) (attributes : Sattr3)
  | remove (object : Diropargs3)
  | rmdir (object : Diropargs3)
  | rename (argsFrom argsTo : Diropargs3)
  deriving DecidableEq, Repr

namespace PathOp

/-- The request. -/
def request : PathOp → NfsRequest
  | create args how => .create args how
  | mkdir args attributes => .mkdir args attributes
  | remove object => .remove object
  | rmdir object => .rmdir object
  | rename argsFrom argsTo => .rename argsFrom argsTo

/-- The directory and the name `PREP` and `cat_name` are given. -/
def args : PathOp → Diropargs3
  | create args _ | mkdir args _ => args
  | remove object | rmdir object => object
  | rename argsFrom _ => argsFrom

/-- The reply that refuses with a status. -/
def refusal (st : Nfsstat3) : PathOp → NfsReply
  | create _ _ => .create { status := st }
  | mkdir _ _ => .mkdir { status := st }
  | remove _ => .remove { status := st }
  | rmdir _ => .rmdir { status := st }
  | rename _ _ => .rename { status := st }

section
variable {L R : Type} (w : World L R)

/-- The procedure after `PREP`. -/
def body (rq : SvcReq) (unset : Junk) (path : CStr) : PathOp → M L R NfsReply
  | create args how => replyWith .create (createBody w path args how rq unset)
  | mkdir args attributes => replyWith .mkdir (mkdirBody w path args attributes rq unset)
  | remove object => replyWith .remove (unlinkBody w unlinkRemove path object.name rq unset)
  | rmdir object => replyWith .rmdir (unlinkBody w unlinkRmdir path object.name rq unset)
  | rename argsFrom argsTo =>
    replyWith .rename (renameBody w path argsFrom argsTo rq unset)

end

end PathOp

/-- The status of a reply; NULL has none. -/
def NfsReply.status : NfsReply → Nfsstat3
  | null => .ok
  | getattr r => r.status
  | setattr r => r.status
  | lookup r => r.status
  | access r => r.status
  | read r => r.status
  | write r => r.status
  | create r | mkdir r => r.status
  | remove r | rmdir r => r.status
  | rename r => r.status
  | readdir r => r.status
  | fsstat r => r.status
  | fsinfo r => r.status
  | pathconf r => r.status
  | unsupported st => st

section
variable {L R : Type} {w : World L R}

/-- The path of the target directory RENAME resolves. -/
def renameTarget (w : World L R) (argsTo : Diropargs3) (s : Server L R) : Option CStr :=
  match (fhDecomp w argsTo.dir s).1 with
  | .ok p => p
  | .error _ => none

/-- `export_path` as `exports_compat` leaves it in RENAME. -/
def compatPath (w : World L R) (argsTo : Diropargs3) (rq : SvcReq) (s : Server L R) :
    Option CStr :=
  (exportsCompat s.exportList rq.remote (renameTarget w argsTo s) s.exports).2.path

/-- The status RENAME starts with is `NFS3_OK` on an accepted name and a writable export. -/
theorem catName_rw_iff {path name : CStr} {v : ExportVars} :
    join (catName (some path) name).1 (exportsRw v) = .ok ↔
      Accepted path name ∧ exportsRw v = .ok := by
  rw [join_eq_ok]
  refine and_congr_left fun _ => ?_
  by_cases ha : Accepted path name
  · simp [catName_accepted ha, ha]
  · have hn : ¬ (catName (some path) name).1 = .ok := by
      rw [← catName_isSome, catName_rejected ha]
      simp
    simp [hn, ha]

/-- Checking the export of the target issues nothing. -/
theorem renameTo_only {P : Event → Prop} {s : Server L R} (fromObj : CStr) (toPath : Option CStr)
    (name : CStr) (rq : SvcReq) (unset : Junk) :
    Only P (renameTo w fromObj toPath name rq unset) s ↔
      Only P (renameRest w (join (catName toPath name).1
        (exportsCompat s.exportList rq.remote toPath s.exports).1) fromObj (catName toPath name).2
        rq unset)
        { s with exports := (exportsCompat s.exportList rq.remote toPath s.exports).2 } := by
  have hcompat : (exportsCompatM toPath rq : M L R Nfsstat3) s =
      (.ok (exportsCompat s.exportList rq.remote toPath s.exports).1,
        { s with exports := (exportsCompat s.exportList rq.remote toPath s.exports).2 }) := rfl
  have hrest := renameRest_frame (w := w) (r := Foot w fun _ => True) (E := fun _ => True)
    (fun _ _ => trivial) (fun _ => trivial) (fun _ => trivial) fun _ _ => trivial
  rw [renameTo_bind, only_bind_ok hcompat ((exportsCompatM_ran (w := w) _ _).ok hcompat)
    (hrest _ _ _ _ _ _).grows]

/-- Resolving the target directory and building the reply issue nothing: what RENAME issues is what
it issues once the source name is accepted. -/
theorem renameBody_only {P : Event → Prop} {s s1 : Server L R} {toPath : Option CStr}
    {fromPath : CStr}
    {argsFrom argsTo : Diropargs3} {rq : SvcReq} {unset : Junk}
    (h1 : fhDecomp w argsTo.dir s = (.ok toPath, s1)) :
    Only P (renameBody w fromPath argsFrom argsTo rq unset) s ↔
      (Accepted fromPath argsFrom.name → exportsRw s.exports = .ok →
        Only P (renameTo w (childPath fromPath argsFrom.name) toPath argsTo.name rq unset) s1) := by
  have r1 : Ran w P s s1 := (Foot.frame_ran (fhDecomp_foot (w := w) argsTo.dir)).ok h1
  have hend : ∀ st, Frame (Ran w P) (renameEnd w st (getPreCached s) fromPath toPath argsFrom rq) :=
    fun _ => Foot.frame_ran (renameEnd_frame _ _ _ _ _ _)
  have hto : ∀ obj, Frame Grows (renameTo w obj toPath argsTo.name rq unset) := fun _ =>
    (renameTo_ran (E := fun _ => True) (fun _ _ => trivial) (fun _ => trivial) (fun _ => trivial)
      (fun _ _ => trivial) _ _ _ _ _).mono fun _ _ h => h.grows
  have hgrows := fun st => (hend st).mono fun _ _ h => h.grows
  rw [renameBody, Only, Prog.get_bind_run, ← Only]
  by_cases hst : Accepted fromPath argsFrom.name ∧ exportsRw s.exports = .ok
  · obtain ⟨ha, hrw⟩ := hst
    simp only [ha, hrw, join_eq_ok, and_self, ↓reduceIte, forall_const, catName_accepted ha,
      Option.getD_some]
    rw [only_bind_ok h1 r1 (Prog.Frame.bind (hto _) hgrows s1), only_bind_frame (hto _) hend]
  · simp only [catName_rw_iff, hst, ↓reduceIte]
    rw [only_bind_ok h1 r1 (hgrows _ s1)]
    exact iff_of_true (hend _ s1).since fun ha hrw => absurd ⟨ha, hrw⟩ hst

@[simp] theorem replyWith_snd {α : Type} (f : α → NfsReply) (m : M L R α) (s : Server L R) :
    (replyWith f m s).2 = (m s).2 := by
  rw [replyWith, Prog.bind_run]
  rcases m s with ⟨_ | a, s'⟩ <;> rfl

theorem replyWith_ok {α : Type} {f : α → NfsReply} {m : M L R α} {s s' : Server L R} {r : NfsReply}
    (h : replyWith f m s = (.ok r, s')) : ∃ a, m s = (.ok a, s') ∧ r = f a := by
  obtain ⟨a, s1, h1, h⟩ := Prog.bind_eq_ok h
  simp only [Prog.pure_run, Prod.mk.injEq, Except.ok.injEq] at h
  exact ⟨a, by rw [h1, h.2], h.1.symm⟩

/-- A wrapped procedure refuses, stops in `PREP`, or runs its body. -/
theorem replyWith_withPrep {α : Type} (f : α → NfsReply) (fh : NfsFh3) (rq : SvcReq)
    (refuse : Nfsstat3 → α) (body : CStr → M L R α) (s : Server L R) :
    (∃ path s1, prep w fh rq s = (.ok (.ok path), s1) ∧
      replyWith f (withPrep w fh rq (fun st => pure (refuse st)) body) s =
        replyWith f (body path) s1) ∨
    (∃ st s1, prep w fh rq s = (.ok (.error st), s1) ∧
      replyWith f (withPrep w fh rq (fun st => pure (refuse st)) body) s =
        (.ok (f (refuse st)), s1)) ∨
    ∃ st s1, prep w fh rq s = (.error st, s1) ∧
      replyWith f (withPrep w fh rq (fun st => pure (refuse st)) body) s = (.error st, s1) := by
  simp only [replyWith, Prog.bind_run]
  rcases withPrep_run (w := w) fh rq (fun st => pure (refuse st)) body s with
    ⟨path, s1, hp, h⟩ | ⟨st, s1, hp, h⟩ | ⟨st, s1, hp, h⟩
  · exact .inl ⟨path, s1, hp, by rw [h]⟩
  · exact .inr (.inl ⟨st, s1, hp, by rw [h]; rfl⟩)
  · exact .inr (.inr ⟨st, s1, hp, by rw [h]⟩)

/-- What a procedure on a handle issues is what its body does, once `PREP` lets the request in. -/
theorem withPrep_only {α : Type} {P : Event → Prop} {s : Server L R} {f : α → NfsReply}
    {fh : NfsFh3}
    {rq : SvcReq} {refuse : Nfsstat3 → M L R α} {body : CStr → M L R α}
    (hsys : ∀ c : SysCall, c.mutates = false → P (.sys c))
    (hrefuse : ∀ st, Frame (Ran w P) (refuse st)) (hbody : ∀ path, Frame Grows (body path)) :
    Only P (replyWith f (withPrep w fh rq refuse body)) s ↔
      ∀ path s1, prep w fh rq s = (.ok (.ok path), s1) → Only P (body path) s1 := by
  have hprep : Ran w P s (prep w fh rq s).2 :=
    prep_ran (fun c hc => hsys c (SysCall.setsId_calm hc)) fh rq s
  rcases withPrep_run (w := w) fh rq refuse body s with
    ⟨path, s1, hp, h⟩ | ⟨st, s1, hp, h⟩ | ⟨st, s1, hp, h⟩
  all_goals rw [hp] at hprep
  · rw [only_run (n := body path) (by rw [replyWith_snd, h]) hprep (hbody path s1)]
    constructor
    · intro ho path' s1' hp'
      rw [hp] at hp'
      obtain ⟨⟨⟨⟩⟩, rfl⟩ := Prod.mk.inj hp'
      exact ho
    · exact fun hall => hall path s1 hp
  · refine iff_of_true ?_ fun path' s1' hp' => by rw [hp] at hp'; cases hp'
    rw [Only, replyWith_snd, h]
    exact (trans_of (Ran w P) hprep (hrefuse st s1)).since
  · refine iff_of_true ?_ fun path' s1' hp' => by rw [hp] at hp'; cases hp'
    rw [Only, replyWith_snd, h]
    exact hprep.since

/-- Whatever a body does, it does by issuing events. -/
theorem PathOp.body_ran (op : PathOp) (rq : SvcReq) (unset : Junk) (path : CStr) :
    Frame (Ran w fun _ => True) (op.body w rq unset path) := by
  have reply : ∀ {α : Type} (f : α → NfsReply) {m : M L R α}, Frame (Ran w fun _ => True) m →
      Frame (Ran w fun _ => True) (replyWith f m) := fun _ _ hm => .bind hm fun _ => .pure _
  cases op with
  | rename argsFrom argsTo =>
    exact reply _ (renameBody_ran (fun _ _ => trivial) (fun _ => trivial) (fun _ => trivial)
      (fun _ _ => trivial) _ _ _ _ _)
  | create args how =>
    exact reply _ (Foot.frame_ran (createBody_foot (fun _ _ => trivial) (fun _ => trivial)
      (fun _ => trivial) (fun _ _ => trivial) _ _ _ _ _))
  | mkdir args attributes =>
    exact reply _ (Foot.frame_ran (mkdirBody_frame (fun _ _ => trivial) (fun _ => trivial)
      (fun _ => trivial) (fun _ _ => trivial) _ _ _ _ _))
  | remove object =>
    exact reply _ (Foot.frame_ran (unlinkBody_frame (fun _ _ => trivial) (fun _ => trivial)
      (fun _ => trivial) (fun _ _ => trivial) _ _ _ _ _))
  | rmdir object =>
    exact reply _ (Foot.frame_ran (unlinkBody_frame (fun _ _ => trivial) (fun _ => trivial)
      (fun _ => trivial) (fun _ _ => trivial) _ _ _ _ _))

/-- A request on a path refuses, stops in `PREP`, or runs its body. -/
theorem PathOp.run_cases (op : PathOp) (rq : SvcReq) (s : Server L R) :
    (∃ path s1, prep w op.args.dir rq s = (.ok (.ok path), s1) ∧
      nfsProgram w rq op.request s = op.body w rq (w.junk s.tick) path s1) ∨
    (∃ st s1, prep w op.args.dir rq s = (.ok (.error st), s1) ∧
      nfsProgram w rq op.request s = (.ok (op.refusal st), s1)) ∨
    ∃ st s1, prep w op.args.dir rq s = (.error st, s1) ∧
      nfsProgram w rq op.request s = (.error st, s1) := by
  cases op with
  | create args how => exact replyWith_withPrep _ args.dir rq _ _ s
  | mkdir args attributes => exact replyWith_withPrep _ args.dir rq _ _ s
  | remove object => exact replyWith_withPrep _ object.dir rq _ _ s
  | rmdir object => exact replyWith_withPrep _ object.dir rq _ _ s
  | rename argsFrom argsTo => exact replyWith_withPrep _ argsFrom.dir rq _ _ s

/-- What a request on a path issues is what its body does. -/
theorem PathOp.only_iff {P : Event → Prop} (hsys : ∀ c : SysCall, c.mutates = false → P (.sys c))
    (op : PathOp) (rq : SvcReq) (s : Server L R) : Only P (nfsProgram w rq op.request) s ↔
      ∀ path s1, prep w op.args.dir rq s = (.ok (.ok path), s1) →
        Only P (op.body w rq (w.junk s.tick) path) s1 := by
  have hprep : Ran w P s (prep w op.args.dir rq s).2 :=
    prep_ran (fun c hc => hsys c (SysCall.setsId_calm hc)) op.args.dir rq s
  rcases op.run_cases (w := w) rq s with ⟨path, s1, hp, h⟩ | ⟨st, s1, hp, h⟩ | ⟨st, s1, hp, h⟩
  all_goals rw [hp] at hprep
  · rw [only_run (by rw [h]) hprep (op.body_ran rq _ path s1).grows]
    constructor
    · intro ho path' s1' hp'
      rw [hp] at hp'
      obtain ⟨⟨⟨⟩⟩, rfl⟩ := Prod.mk.inj hp'
      exact ho
    · exact fun hall => hall path s1 hp
  · refine iff_of_true ?_ fun path' s1' hp' => by rw [hp] at hp'; cases hp'
    rw [Only, h]
    exact hprep.since
  · refine iff_of_true ?_ fun path' s1' hp' => by rw [hp] at hp'; cases hp'
    rw [Only, h]
    exact hprep.since

end

end NfsRods
