import NfsRods.Proof.Remote
import NfsRods.Sandbox

/-!
# What a failed operation leaves in iRODS

CREATE, MKDIR, REMOVE and RMDIR take their local step first and their remote one regardless of its
result (all but MKDIR even when the name was refused); RENAME takes the remote step first. So a
reply other than `NFS3_OK` does not mean that nothing happened in iRODS.

* `Diverges`: when an operation that `PREP` let in fails and its iRODS call still has an effect.
* `refusal_keeps_store_iff`: for every operation on a read-write export, a failed reply means an
  unchanged store exactly when the operation does not diverge.
-/

namespace NfsRods

open CStr

section
variable {L R : Type} {w : World L R} {s : Server L R} {e : CStr}

/-- The export that governs the operation is read-write. -/
def Writable (w : World L R) (op : PathOp) (rq : SvcReq) (s : Server L R) : Prop :=
  ∀ path s1, prep w op.args.dir rq s = (.ok (.ok path), s1) → exportsRw s1.exports = .ok

/-- The remote step is reached: the caller has a user name (or private collections are off) and a
zone is configured. -/
def Connects (w : World L R) (rq : SvcReq) : Prop := Known w rq.uid ∧ w.conf.zone.isSome

/-- REMOVE and RMDIR fail locally, by the name or by the call, and the remote call has an effect. -/
def unlinkDiverges (w : World L R) (rq : SvcReq) (unset : Junk) (s : Server L R) (path name : CStr)
    (u : Unlink) : Prop :=
  let obj := bufPath w (exportPath s) rq.uid (some path) name unset
  Connects w rq ∧
    ((catName (some path) name).1 ≠ .ok ∨ sysResult w (u.call obj) s.kernel = -1) ∧
    effect w (exportPath s) rq.uid s.rods (u.remote (targetName w (exportPath s) rq.uid obj)) ≠
      w.store s.rods

/-- An operation that `PREP` let in, leaving the state `s`, fails while its iRODS call has an
effect. -/
def Diverges (w : World L R) (rq : SvcReq) (unset : Junk) (s : Server L R) (path : CStr) :
    PathOp → Prop
  | .create args how =>
    Connects w rq ∧
      ¬ (createStatus w s (catName (some path) args.name).1 how = .ok ∧
        CreateLocalOk w (exportPath s) path args.name how rq unset s) ∧
      effect w (exportPath s) rq.uid s.rods (createFile w (targetName w (exportPath s) rq.uid
        (bufPath w (exportPath s) rq.uid (some path) args.name unset))) ≠ w.store s.rods
  | .mkdir args attributes =>
    let obj := bufPath w (exportPath s) rq.uid (some path) args.name unset
    Connects w rq ∧ mkdirStatus w s path args attributes = .ok ∧
      sysResult w (.mkdir obj (createMode attributes)) s.kernel = -1 ∧
      effect w (exportPath s) rq.uid s.rods
        (makeCollection (targetName w (exportPath s) rq.uid obj) · true) ≠ w.store s.rods
  | .remove object => unlinkDiverges w rq unset s path object.name unlinkRemove
  | .rmdir object => unlinkDiverges w rq unset s path object.name unlinkRmdir
  | .rename argsFrom argsTo =>
    ∃ e, compatPath w argsTo rq s = some e ∧
      let fromObj := bufPath w e rq.uid (some path) argsFrom.name unset
      let toObj := bufPath w e rq.uid (renameTarget w argsTo s) argsTo.name unset
      let call := renameFile (targetName w e rq.uid toObj) (targetName w e rq.uid fromObj)
      Connects w rq ∧
        join (catName (some path) argsFrom.name).1 (exportsRw s.exports) = .ok ∧
        targetStatus w argsTo rq s = .ok ∧
        (sysResult w (.rename fromObj toObj) s.kernel = -1 ∨
          (w.rods (call (session w e rq.uid s.rods).1)
            (session w e rq.uid s.rods).2).1.status = -1) ∧
        effect w e rq.uid s.rods call ≠ w.store s.rods

/-! ## One operation -/

/-- A reply of `m` from `s` other than `NFS3_OK` means an unchanged store. -/
def KeepsStore (w : World L R) (m : M L R NfsReply) (s : Server L R) : Prop :=
  ∀ reply s', m s = (.ok reply, s') → reply.status ≠ .ok → w.store s'.rods = w.store s.rods

theorem keepsStore_of_stops {m : M L R NfsReply} (h : ∃ st, (m s).1 = .error st) :
    KeepsStore w m s := by
  obtain ⟨st, hst⟩ := h
  intro reply s' hm
  rw [hm] at hst
  cases hst

theorem keepsStore_iff {m : M L R NfsReply} {reply : NfsReply} {s' : Server L R}
    (h : m s = (.ok reply, s')) :
    KeepsStore w m s ↔ (reply.status ≠ .ok → w.store s'.rods = w.store s.rods) := by
  constructor
  · exact fun hk => hk reply s' h
  · intro hk reply' s'' h'
    rw [h] at h'
    obtain ⟨⟨⟨⟩⟩, rfl⟩ := Prod.mk.inj h'
    exact hk

theorem replyWith_run {α : Type} {f : α → NfsReply} {m : M L R α} {a : α} {s' : Server L R}
    (h : m s = (.ok a, s')) : replyWith f m s = (.ok (f a), s') := by
  rw [replyWith, Prog.bind_ok h]
  rfl

theorem create_keepsStore_iff (h : s.exports.path = some e) (rq : SvcReq) (unset : Junk)
    (path : CStr) (args : Diropargs3) (how : Createhow3) :
    KeepsStore w ((PathOp.create args how).body w rq unset path) s ↔
      ¬ Diverges w rq unset s path (.create args how) := by
  have he : exportPath s = e := by rw [exportPath, h]; rfl
  simp only [Diverges, he, Connects]
  by_cases hkz : Known w rq.uid ∧ w.conf.zone.isSome
  · obtain ⟨r, s', hrun, hst, hr⟩ := createBody_ends (w := w) h hkz.1 hkz.2 path args how unset
    rw [PathOp.body, keepsStore_iff (replyWith_run hrun), hst, NfsReply.status, Ne, hr]
    simp only [hkz.1, hkz.2, true_and, not_and, not_not]
  · simp only [hkz, false_and, not_false_eq_true, iff_true]
    obtain ⟨st, hst⟩ := createBody_stops (w := w) h hkz path args how unset
    exact keepsStore_of_stops ⟨st, Prog.fst_bind_error hst⟩

theorem mkdir_keepsStore_iff (h : s.exports.path = some e) (rq : SvcReq) (unset : Junk)
    (path : CStr) (args : Diropargs3) (attributes : Sattr3) :
    KeepsStore w ((PathOp.mkdir args attributes).body w rq unset path) s ↔
      ¬ Diverges w rq unset s path (.mkdir args attributes) := by
  have he : exportPath s = e := by rw [exportPath, h]; rfl
  simp only [Diverges, he, Connects]
  by_cases hst : mkdirStatus w s path args attributes = .ok
  · by_cases hkz : Known w rq.uid ∧ w.conf.zone.isSome
    · obtain ⟨r, s', hrun, hstore, hr⟩ := mkdirBody_ends (w := w) h hkz.1 hkz.2 path args attributes
        unset hst
      rw [PathOp.body, keepsStore_iff (replyWith_run hrun), hstore, NfsReply.status, Ne, hr]
      simp only [hkz.1, hkz.2, hst, true_and, not_and, not_not]
    · simp only [hkz, false_and, not_false_eq_true, iff_true]
      obtain ⟨st, hstop⟩ := mkdirBody_stops (w := w) h hkz path args attributes unset hst
      exact keepsStore_of_stops ⟨st, Prog.fst_bind_error hstop⟩
  · obtain ⟨r, s', hrun, hrods, _⟩ := mkdirBody_refused (w := w) h path args attributes unset hst
    rw [PathOp.body, keepsStore_iff (replyWith_run hrun), hrods]
    simp [hst]

/-- REMOVE and RMDIR. -/
theorem unlink_keepsStore_iff (h : s.exports.path = some e) (hrw : exportsRw s.exports = .ok)
    (rq : SvcReq) (unset : Junk) (path name : CStr) (u : Unlink) {f : Remove3res → NfsReply}
    (hf : ∀ r, (f r).status = r.status) :
    KeepsStore w (replyWith f (unlinkBody w u path name rq unset)) s ↔
      ¬ unlinkDiverges w rq unset s path name u := by
  have he : exportPath s = e := by rw [exportPath, h]; rfl
  simp only [unlinkDiverges, he, Connects]
  by_cases hkz : Known w rq.uid ∧ w.conf.zone.isSome
  · obtain ⟨r, s', hrun, hstore, hr⟩ := unlinkBody_ends (w := w) h hkz.1 hkz.2 u path name unset
    rw [keepsStore_iff (replyWith_run hrun), hstore, hf, Ne, hr, join_eq_ok]
    simp only [hkz.1, hkz.2, hrw, true_and, and_true, not_and, not_not, ← imp_iff_not_or, Ne]
  · simp only [hkz, false_and, not_false_eq_true, iff_true]
    obtain ⟨st, hstop⟩ := unlinkBody_stops (w := w) h hkz u path name unset
    exact keepsStore_of_stops ⟨st, Prog.fst_bind_error hstop⟩

theorem rename_keepsStore_iff (rq : SvcReq) (unset : Junk) (path : CStr)
    (argsFrom argsTo : Diropargs3) :
    KeepsStore w ((PathOp.rename argsFrom argsTo).body w rq unset path) s ↔
      ¬ Diverges w rq unset s path (.rename argsFrom argsTo) := by
  obtain ⟨s1, x1, l1, r1, k1, hrun⟩ := renameBody_run (w := w) rq path argsFrom argsTo unset s
  -- a reply that leaves the iRODS side alone
  have hkeep : ∀ st s2, s2.rods = s.rods → (renameBody w path argsFrom argsTo rq unset s =
      renameEnd w st (getPreCached s) path (renameTarget w argsTo s) argsFrom rq s2) →
      KeepsStore w ((PathOp.rename argsFrom argsTo).body w rq unset path) s := by
    intro st s2 r2 hrun2
    obtain ⟨r, s3, h3, r3, _⟩ := renameEnd_ends (w := w) st (getPreCached s) path
      (renameTarget w argsTo s) argsFrom rq s2
    rw [PathOp.body, keepsStore_iff (replyWith_run (hrun2.trans h3)), r3, r2]
    exact fun _ => rfl
  by_cases hst : join (catName (some path) argsFrom.name).1 (exportsRw s.exports) = .ok
  · rw [if_pos hst] at hrun
    cases he : compatPath w argsTo rq s with
    | none =>
      obtain ⟨st, hstop⟩ := renameTo_stops (w := w) (s := s1) rq
        ((catName (some path) argsFrom.name).2.getD unset.buf) (renameTarget w argsTo s)
        argsTo.name unset (by rw [l1, x1]; exact he)
      simp only [Diverges, he, reduceCtorEq, false_and, exists_false, not_false_eq_true, iff_true]
      refine keepsStore_of_stops ⟨st, Prog.fst_bind_error ?_⟩
      rw [hrun]
      exact Prog.fst_bind_error hstop
    | some e =>
      obtain ⟨s2, e2, r2, k2, hto⟩ := renameTo_run (w := w) (s := s1) rq
        ((catName (some path) argsFrom.name).2.getD unset.buf) (renameTarget w argsTo s)
        argsTo.name unset (by rw [l1, x1]; exact he)
      replace hto : renameTo w ((catName (some path) argsFrom.name).2.getD unset.buf)
          (renameTarget w argsTo s) argsTo.name rq unset s1 =
          (if targetStatus w argsTo rq s = .ok then
            renameMove w (bufPath w e rq.uid (some path) argsFrom.name unset)
              (bufPath w e rq.uid (renameTarget w argsTo s) argsTo.name unset) rq
          else pure (targetStatus w argsTo rq s)) s2 := by
        rw [l1, x1] at hto
        exact hto
      simp only [Diverges, he, Option.some.injEq, exists_eq_left', hst, true_and, Connects]
      by_cases hts : targetStatus w argsTo rq s = .ok
      · rw [if_pos hts] at hto
        by_cases hkz : Known w rq.uid ∧ w.conf.zone.isSome
        · obtain ⟨st, s3, h3, st3, hok⟩ := renameMove_ends (w := w) e2 hkz.1 hkz.2
            (bufPath w e rq.uid (some path) argsFrom.name unset)
            (bufPath w e rq.uid (renameTarget w argsTo s) argsTo.name unset)
          obtain ⟨r, s4, h4, r4, hr⟩ := renameEnd_ends (w := w) st (getPreCached s) path
            (renameTarget w argsTo s) argsFrom rq s3
          have hbody : renameBody w path argsFrom argsTo rq unset s = (.ok r, s4) := by
            rw [hrun, Prog.bind_ok (hto.trans h3), h4]
          rw [PathOp.body, keepsStore_iff (replyWith_run hbody), r4, st3, NfsReply.status, hr,
            Ne, hok, k2, k1, r2, r1]
          simp only [hkz.1, hkz.2, hts, true_and, not_and_or, not_not, Ne]
          exact imp_iff_not_or
        · simp only [hkz, false_and, not_false_eq_true, iff_true]
          obtain ⟨st, hstop⟩ := renameMove_stops (w := w) e2 hkz
            (bufPath w e rq.uid (some path) argsFrom.name unset)
            (bufPath w e rq.uid (renameTarget w argsTo s) argsTo.name unset)
          rw [← hto] at hstop
          refine keepsStore_of_stops ⟨st, Prog.fst_bind_error ?_⟩
          rw [hrun]
          exact Prog.fst_bind_error hstop
      · rw [if_neg hts] at hto
        simp only [hts, false_and, and_false, not_false_eq_true, iff_true]
        refine hkeep (targetStatus w argsTo rq s) s2 (by rw [r2, r1]) ?_
        rw [hrun, Prog.bind_ok hto]
  · rw [if_neg hst] at hrun
    simp only [Diverges, hst, false_and, and_false, exists_false, not_false_eq_true, iff_true]
    exact hkeep _ s1 r1 hrun

/-- What `PREP` let in. -/
theorem body_keepsStore_iff (h : s.exports.path = some e) (hrw : exportsRw s.exports = .ok)
    (rq : SvcReq) (unset : Junk) (path : CStr) (op : PathOp) :
    KeepsStore w (op.body w rq unset path) s ↔ ¬ Diverges w rq unset s path op := by
  cases op with
  | create args how => exact create_keepsStore_iff h rq unset path args how
  | mkdir args attributes => exact mkdir_keepsStore_iff h rq unset path args attributes
  | remove object => exact unlink_keepsStore_iff h hrw rq unset path object.name _ fun _ => rfl
  | rmdir object => exact unlink_keepsStore_iff h hrw rq unset path object.name _ fun _ => rfl
  | rename argsFrom argsTo => exact rename_keepsStore_iff rq unset path argsFrom argsTo

/-- **A failed reply means an unchanged iRODS store**, for an operation on a read-write export,
exactly when the operation does not diverge. -/
theorem refusal_keeps_store_iff (op : PathOp) (rq : SvcReq) (s : Server L R) :
    (Writable w op rq s → KeepsStore w (nfsProgram w rq op.request) s) ↔
      (Writable w op rq s → ∀ path s1, prep w op.args.dir rq s = (.ok (.ok path), s1) →
        ¬ Diverges w rq (w.junk s.tick) s1 path op) := by
  refine imp_congr_right fun hwr => ?_
  rcases op.run_cases (w := w) rq s with ⟨path, s1, hp, h⟩ | ⟨st, s1, hp, h⟩ | ⟨st, s1, hp, h⟩
  · obtain ⟨e, he⟩ := prep_path hp
    have hbody := body_keepsStore_iff (w := w) he (hwr path s1 hp) rq (w.junk s.tick) path op
    simp only [KeepsStore, prep_rods hp] at hbody
    simp only [KeepsStore, h, hbody]
    constructor
    · intro hd path' s1' hp'
      rw [hp] at hp'
      obtain ⟨⟨⟨⟩⟩, rfl⟩ := Prod.mk.inj hp'
      exact hd
    · exact fun hd => hd path s1 hp
  · rw [keepsStore_iff h, prep_rods hp, hp]
    simp
  · have hk : KeepsStore w (nfsProgram w rq op.request) s := keepsStore_of_stops ⟨st, by rw [h]⟩
    simp [hk, hp]

end

/-! ## A failed REMOVE in the small world -/

/-- REMOVE of a file that iRODS has and the mirror has not. -/
def missingOp : PathOp :=
  .remove { dir := Sandbox.handle (Sandbox.item (lit "/e") true), name := lit "f" }

def missingReq : SvcReq := { remote := 1, uid := 7, gid := 7 }

def missingServer : Server Sandbox.Kernel Sandbox.Grid :=
  Sandbox.server [Sandbox.item (lit "/e") true] {} { objs := [(lit "/z/home/public/f", .data [1])] }

/-- The reply is `NFS3ERR_NOENT`, and the object is gone. -/
theorem missing_run :
    (∃ r, (nfsProgram Sandbox.publicWorld missingReq missingOp.request missingServer).1 =
      .ok (.remove r) ∧ r.status = .noent) ∧
    Sandbox.publicWorld.store (nfsProgram Sandbox.publicWorld missingReq missingOp.request
      missingServer).2.rods (lit "/z/home/public/f") = none := ⟨⟨_, rfl, rfl⟩, by decide⟩

theorem missing_writable : Writable Sandbox.publicWorld missingOp missingReq missingServer := by
  intro path s1 hp
  have h : (exportsRw (prep Sandbox.publicWorld missingOp.args.dir missingReq
      missingServer).2.exports) = .ok := by decide
  rwa [hp] at h

/-- A failed REMOVE deletes the object. -/
theorem refused_remove_deletes :
    ¬ (Writable Sandbox.publicWorld missingOp missingReq missingServer →
      KeepsStore Sandbox.publicWorld (nfsProgram Sandbox.publicWorld missingReq missingOp.request)
        missingServer) := by
  intro h
  obtain ⟨⟨r, hr, hst⟩, hgone⟩ := missing_run
  rcases hrun : nfsProgram Sandbox.publicWorld missingReq missingOp.request
    missingServer with ⟨x, s'⟩
  rw [hrun] at hr hgone
  dsimp only at hr hgone
  subst hr
  have hk := h missing_writable _ s' hrun (by rw [NfsReply.status, hst]; decide)
  have hs := congrFun hk (lit "/z/home/public/f")
  rw [hgone] at hs
  exact absurd hs (by decide)

end NfsRods
