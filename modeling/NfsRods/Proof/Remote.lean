import NfsRods.Proof.FdRun
import NfsRods.Proof.PathOp

/-!
# The remote step and its effect

An operation on a path makes one iRODS call, on the connection of its caller and about the name that
the mirror's path translates to. This file computes what the store is after it (`effect`).

* `remoteStep_ends`, `renameRemote_ends`: the remote step of a known caller returns, changes nothing
  but the iRODS side, and leaves the store as the call does.
* `remoteStep_stops`, `renameRemote_stops`: without a user name or a zone it stops the daemon.
-/

namespace NfsRods

open CStr
open Prog (Ends Frame Returns)

section
variable {L R : Type} {w : World L R} {s s' s'' : Server L R} {e : CStr} {uid : UInt32}

/-- The store after a call on the connection that `uid` gets under export `e`. -/
def effect (w : World L R) (e : CStr) (uid : UInt32) (r : R) (call : Comm → RodsCall) : Store :=
  w.store (w.rods (call (session w e uid r).1) (session w e uid r).2).2

/-- The mirror's path that the buffer holds once `cat_name` and the translation are done; what was
in it before is translated when the name is refused. -/
def bufPath (w : World L R) (e : CStr) (uid : UInt32) (path : Option CStr) (name : CStr)
    (unset : Junk) : CStr := realPath w e uid ((catName path name).2.getD unset.buf)

theorem rewriteName_ends (h : s.exports.path = some e) (path : Option CStr) (name : CStr)
    (uid : UInt32) (unset : Junk) :
    Ends Tacit
      (rewriteObj w (catName path name).2.isSome ((catName path name).2.getD unset.buf) uid) s
      (.ok (bufPath w e uid path name unset)) := rewriteObj_ends h _ _ _

/-- Connecting and logging in leave the store alone. -/
theorem session_store (e : CStr) (uid : UInt32) (r : R) :
    w.store (session w e uid r).2 = w.store r := by
  have hc : w.store (connect w (clientOf w e uid) r).2 = w.store r := by
    unfold connect
    split
    · rfl
    · exact w.rods_store _ _ rfl
  have hl : ∀ comm r', w.store (login w comm r') = w.store r' := by
    intro comm r'
    cases comm with
    | none => rfl
    | some c =>
      simp only [login]
      split
      · rw [w.rods_store _ _ rfl, w.rods_store _ _ rfl]
      · exact w.rods_store _ _ rfl
  rw [session, hl, hc]

/-! ## The remote step -/

theorem issue_ends (c : RodsCall) (s : Server L R) :
    Ends (AtRods (w.rods c s.rods).2) (issue w c) s (.ok (w.rods c s.rods).1.status) :=
  (rods_ends c s).seq (fun s1 _ => .pure (r := Tacit) _ s1) fun _ _ h1 h2 =>
    h1.trans (h2.atRods h1.2)

theorem rcDisconnect_ends (comm : Comm) (s : Server L R) :
    ∃ s', rcDisconnect w comm s = (.ok (), s') ∧ Aside s s' ∧ w.store s'.rods = w.store s.rods :=
  ⟨_, rfl, rfl, w.rods_store _ _ rfl⟩

/-- The remote step of a known caller. -/
theorem remoteStep_ends {rq : SvcReq} (h : s.exports.path = some e) (hk : Known w rq.uid)
    (hz : w.conf.zone.isSome) (call : CStr → Comm → RodsCall) (obj : CStr) :
    ∃ s', remoteStep w call obj rq s = (.ok (), s') ∧ Aside s s' ∧
      w.store s'.rods = effect w e rq.uid s.rods (call (targetName w e rq.uid obj)) := by
  obtain ⟨s1, h1, r1⟩ := openRods_ends h hk hz obj
  obtain ⟨s2, h2, r2⟩ := issue_ends (w := w)
    (call (targetName w e rq.uid obj) (session w e rq.uid s.rods).1) s1
  obtain ⟨s3, h3, t3⟩ := debug_tacit (w := w) "Creating or deleting %s" s2
  obtain ⟨s4, h4, r4, st4⟩ := rcDisconnect_ends (w := w) (session w e rq.uid s.rods).1 s3
  refine ⟨s4, ?_, ?_, ?_⟩
  · rw [remoteStep, Prog.bind_ok h1]
    dsimp only
    rw [Prog.bind_ok h2, Prog.bind_ok h3, h4]
  · exact trans_of Aside r1.1 (trans_of Aside r2.1 (trans_of Aside t3.aside r4))
  · rw [st4, t3.rods, r2.2, r1.2, effect]

theorem remoteStep_stops {rq : SvcReq} (h : s.exports.path = some e)
    (hn : ¬ (Known w rq.uid ∧ w.conf.zone.isSome)) (call : CStr → Comm → RodsCall) (obj : CStr) :
    ∃ st, (remoteStep w call obj rq s).1 = .error st := by
  obtain ⟨st, hst⟩ := openRods_stops h hn obj
  exact ⟨st, Prog.fst_bind_error hst⟩

/-- RENAME's remote step by a known caller. -/
theorem renameRemote_ends {rq : SvcReq} (h : s.exports.path = some e) (hk : Known w rq.uid)
    (hz : w.conf.zone.isSome) (fromObj toObj : CStr) :
    ∃ s', renameRemote w fromObj toObj rq s = (.ok (w.rods (renameFile
        (targetName w e rq.uid toObj) (targetName w e rq.uid fromObj)
        (session w e rq.uid s.rods).1) (session w e rq.uid s.rods).2).1.status, s') ∧
      Aside s s' ∧ w.store s'.rods = effect w e rq.uid s.rods
        (renameFile (targetName w e rq.uid toObj) (targetName w e rq.uid fromObj)) := by
  obtain ⟨s1, h1, r1⟩ := connectUser_ends h hk
  have e1 : s1.exports.path = some e := by rw [r1.1.exports, h]
  obtain ⟨s2, h2, t2⟩ := rodsName_ends (w := w) e1 fromObj rq.uid
  rw [rodsPath_targetName hk hz] at h2
  have e2 : s2.exports.path = some e := by rw [t2.exports, e1]
  obtain ⟨s3, h3, t3⟩ := rodsName_ends (w := w) e2 toObj rq.uid
  rw [rodsPath_targetName hk hz] at h3
  obtain ⟨s4, h4, t4⟩ := debug_tacit (w := w) "RENAME - Renaming from: %s" s3
  obtain ⟨s5, h5, t5⟩ := debug_tacit (w := w) "RENAME - Renaming to: %s" s4
  obtain ⟨s6, h6, r6⟩ := issue_ends (w := w) (renameFile (targetName w e rq.uid toObj)
    (targetName w e rq.uid fromObj) (session w e rq.uid s.rods).1) s5
  obtain ⟨s7, h7, r7, st7⟩ := rcDisconnect_ends (w := w) (session w e rq.uid s.rods).1 s6
  obtain ⟨s8, h8, t8⟩ := debug_tacit (w := w) "RENAME - FREE " s7
  have hr5 : s5.rods = (session w e rq.uid s.rods).2 := by
    rw [t5.rods, t4.rods, t3.rods, t2.rods, r1.2]
  refine ⟨s8, ?_, ?_, ?_⟩
  · rw [renameRemote, Prog.bind_ok h1, Prog.bind_ok h2, Prog.bind_ok h3, Prog.bind_ok h4,
      Prog.bind_ok h5, Prog.bind_ok h6, Prog.bind_ok h7, Prog.bind_ok h8, hr5]
    rfl
  · have t : Tacit s1 s5 := trans_of Tacit t2 (trans_of Tacit t3 (trans_of Tacit t4 t5))
    exact trans_of Aside r1.1 (trans_of Aside t.aside
      (trans_of Aside r6.1 (trans_of Aside r7 t8.aside)))
  · rw [t8.rods, st7, r6.2, hr5, effect]

theorem renameRemote_stops {rq : SvcReq} (h : s.exports.path = some e)
    (hn : ¬ (Known w rq.uid ∧ w.conf.zone.isSome)) (fromObj toObj : CStr) :
    ∃ st, (renameRemote w fromObj toObj rq s).1 = .error st := by
  by_cases hk : Known w rq.uid
  · have hz : ¬ w.conf.zone.isSome := fun hz => hn ⟨hk, hz⟩
    obtain ⟨s1, h1, r1⟩ := connectUser_ends h hk
    have e1 : s1.exports.path = some e := by rw [r1.1.exports, h]
    obtain ⟨s2, h2, _⟩ := rodsName_ends (w := w) e1 fromObj rq.uid
    rw [rodsPath_zone_none hz] at h2
    exact ⟨.nullZone, by rw [renameRemote, Prog.bind_ok h1, Prog.bind_error h2]⟩
  · exact ⟨.badFree, Prog.fst_bind_error (connectUser_stops (w := w) h hk)⟩

/-! ## REMOVE and RMDIR -/

/-- No iRODS call. -/
def NoRods (ev : Event) : Prop := ∀ c, ev ≠ .rods c

theorem noRods_sys (c : SysCall) : NoRods (.sys c) := fun _ h => by cases h

theorem NoRods.rods_eq (h : Foot w NoRods s s') : s'.rods = s.rods :=
  h.ran.rods_eq fun c hc => hc.1 c rfl

theorem prep_rods {fh : NfsFh3} {rq : SvcReq} {x : Except Stop (Except Nfsstat3 CStr)}
    (h : prep w fh rq s = (x, s')) : s'.rods = s.rods := by
  have hr := prep_ran (w := w) (E := NoRods) (fun c _ => noRods_sys c) fh rq s
  rw [h] at hr
  exact hr.rods_eq fun c hc => hc c rfl

/-- The status after the local step, which stays on the kernel's side. -/
theorem unlinkLocal_run (u : Unlink) (status : Nfsstat3) (obj : CStr) (s : Server L R) :
    ∃ s', unlinkLocal w u status obj s = (.ok (if status = .ok then
        if sysResult w (u.call obj) s.kernel = -1 then
          u.err (sysErrno w (u.call obj) s.kernel s.errno)
        else .ok
      else status), s') ∧ s'.rods = s.rods ∧ s'.exports = s.exports := by
  unfold unlinkLocal
  by_cases hst : status = .ok
  · obtain ⟨s1, h1, k1, r1, x1, err1⟩ :
        ∃ s1, (changeReaddirCookie : M L R Unit) s = (.ok (), s1) ∧ s1.kernel = s.kernel ∧
          s1.rods = s.rods ∧ s1.exports = s.exports ∧ s1.errno = s.errno :=
      ⟨_, rfl, rfl, rfl, rfl, rfl⟩
    obtain ⟨s2, h2, k2, _, err2, _⟩ := sys_run (w := w) (u.call obj) s1
    rw [k1] at h2 err2
    refine ⟨s2, ?_, by rw [k2.rods, r1], by rw [k2.exports, x1]⟩
    rw [if_pos hst, if_pos hst, Prog.bind_ok h1, Prog.bind_ok h2, Prog.get_bind_run, err2, err1,
      hst]
    rfl
  · rw [if_neg hst, if_neg hst]
    exact ⟨s, rfl, rfl, rfl⟩

/-- It is no error when the file was to be removed and the kernel did so. -/
theorem unlinkLocal_ends (u : Unlink) (status : Nfsstat3) (obj : CStr) (s : Server L R) :
    ∃ st s', unlinkLocal w u status obj s = (.ok st, s') ∧ s'.rods = s.rods ∧
      s'.exports = s.exports ∧
      (st = .ok ↔ status = .ok ∧ sysResult w (u.call obj) s.kernel ≠ -1) := by
  obtain ⟨s', h, hr, hx⟩ := unlinkLocal_run (w := w) u status obj s
  refine ⟨_, s', h, hr, hx, ?_⟩
  have := u.err_ne_ok (sysErrno w (u.call obj) s.kernel s.errno)
  split_ifs <;> simp_all

/-- REMOVE and RMDIR by a known caller reply, whatever the status, and make their iRODS call. -/
theorem unlinkBody_ends {rq : SvcReq} (h : s.exports.path = some e) (hk : Known w rq.uid)
    (hz : w.conf.zone.isSome) (u : Unlink) (path name : CStr) (unset : Junk) :
    ∃ r s', unlinkBody w u path name rq unset s = (.ok r, s') ∧
      w.store s'.rods = effect w e rq.uid s.rods (u.remote (targetName w e rq.uid
        (bufPath w e rq.uid (some path) name unset))) ∧
      (r.status = .ok ↔ join (catName (some path) name).1 (exportsRw s.exports) = .ok ∧
        sysResult w (u.call (bufPath w e rq.uid (some path) name unset))
          s.kernel ≠ -1) := by
  obtain ⟨s1, h1, t1⟩ := rewriteName_ends (w := w) h (some path) name rq.uid unset
  obtain ⟨s2, h2, t2⟩ := debug_tacit (w := w) "RMDIR - Removing local directory %s\n" s1
  obtain ⟨st, s3, h3, r3, x3, hst⟩ := unlinkLocal_ends (w := w) u
    (join (catName (some path) name).1 (exportsRw s.exports))
    (bufPath w e rq.uid (some path) name unset) s2
  have e3 : s3.exports.path = some e := by rw [x3, t2.exports, t1.exports, h]
  obtain ⟨s4, h4, _, st4⟩ := remoteStep_ends (w := w) e3 hk hz u.remote
    (bufPath w e rq.uid (some path) name unset)
  obtain ⟨after, s5, h5⟩ := getPostStat_returns (w := w) (some path) rq s4
  obtain ⟨s6, h6, t6⟩ := debug_tacit (w := w) "REMOVE END" s5
  have r5 : s5.rods = s4.rods := NoRods.rods_eq (w := w) ((getPostStat_frame (some path) rq).ok h5)
  refine ⟨{ status := st, dirWcc := { before := getPreCached s4, after } }, s6, ?_, ?_, ?_⟩
  · rw [unlinkBody, Prog.get_bind_run, Prog.bind_ok h1, unlinkAct, Prog.bind_ok h2, Prog.bind_ok h3,
      Prog.bind_ok h4, Prog.get_bind_run, Prog.bind_ok h5, Prog.bind_ok h6]
    rfl
  · rw [t6.rods, r5, st4, r3, t2.rods, t1.rods]
  · rw [hst, t2.kernel, t1.kernel]

theorem unlinkBody_stops {rq : SvcReq} (h : s.exports.path = some e)
    (hn : ¬ (Known w rq.uid ∧ w.conf.zone.isSome)) (u : Unlink) (path name : CStr) (unset : Junk) :
    ∃ st, (unlinkBody w u path name rq unset s).1 = .error st := by
  obtain ⟨s1, h1, t1⟩ := rewriteName_ends (w := w) h (some path) name rq.uid unset
  obtain ⟨s2, h2, t2⟩ := debug_tacit (w := w) "RMDIR - Removing local directory %s\n" s1
  obtain ⟨st, s3, h3, _, x3, _⟩ := unlinkLocal_ends (w := w) u
    (join (catName (some path) name).1 (exportsRw s.exports))
    (bufPath w e rq.uid (some path) name unset) s2
  have e3 : s3.exports.path = some e := by rw [x3, t2.exports, t1.exports, h]
  obtain ⟨st', hst'⟩ := remoteStep_stops (w := w) e3 hn u.remote
    (bufPath w e rq.uid (some path) name unset)
  refine ⟨st', ?_⟩
  rw [unlinkBody, Prog.get_bind_run, Prog.bind_ok h1, unlinkAct, Prog.bind_ok h2, Prog.bind_ok h3]
  exact Prog.fst_bind_error hst'

/-! ## MKDIR -/

/-- The status of MKDIR before it acts. -/
def mkdirStatus (w : World L R) (s : Server L R) (path : CStr) (args : Diropargs3)
    (attributes : Sattr3) : Nfsstat3 :=
  join3 (catName (some path) args.name).1 (atomicAttr w s attributes) (exportsRw s.exports)

/-- The reply's attributes are read after the directory has been made, or not. -/
theorem mkdirBody_run (rq : SvcReq) (h : s.exports.path = some e) (path : CStr) (args : Diropargs3)
    (attributes : Sattr3) (unset : Junk) :
    ∃ s1, Tacit s s1 ∧ mkdirBody w path args attributes rq unset s =
      ((if mkdirStatus w s path args attributes = .ok then
          mkdirMake w args.dir (bufPath w e rq.uid (some path) args.name unset) attributes rq
        else pure { status := mkdirStatus w s path args attributes }) >>= fun result =>
        getPostAttr w (some path) args.dir rq >>= fun post => debug w "MKDIR END" >>= fun _ =>
          pure { result with dirWcc := { before := getPreCached s, after := post } }) s1 := by
  obtain ⟨s1, h1, t1⟩ := rewriteName_ends (w := w) h (some path) args.name rq.uid unset
  obtain ⟨s2, h2, t2⟩ := debug_tacit (w := w) "Criando diretorio: %s \n" s1
  refine ⟨s2, trans_of Tacit t1 t2, ?_⟩
  rw [mkdirBody, Prog.get_bind_run, Prog.bind_ok h1, mkdirAct, Prog.bind_ok h2]
  rfl

/-- What follows a result and keeps its status. -/
theorem mkdirTail_ends (rq : SvcReq) (path : CStr) (dir : NfsFh3) (pre : PreOpAttr)
    (result : Create3res) (s : Server L R) :
    ∃ r s', (getPostAttr w (some path) dir rq >>= fun post => debug w "MKDIR END" >>= fun _ =>
        pure { result with dirWcc := { before := pre, after := post } }) s = (.ok r, s') ∧
      s'.rods = s.rods ∧ r.status = result.status := by
  obtain ⟨post, s1, h1⟩ := getPostLl_returns (w := w) (some path) dir.obj.dev dir.obj.ino rq s
  obtain ⟨s2, h2, t2⟩ := debug_tacit (w := w) "MKDIR END" s1
  have r1 : s1.rods = s.rods := NoRods.rods_eq (w := w) ((getPostLl_frame _ _ _ rq).ok h1)
  refine ⟨{ result with dirWcc := { before := pre, after := post } }, s2, ?_, ?_, rfl⟩
  · rw [getPostAttr, Prog.bind_ok h1, Prog.bind_ok h2]
    rfl
  · rw [t2.rods, r1]

/-- MKDIR that is refused before it acts. -/
theorem mkdirBody_refused {rq : SvcReq} (h : s.exports.path = some e) (path : CStr)
    (args : Diropargs3) (attributes : Sattr3) (unset : Junk)
    (hst : mkdirStatus w s path args attributes ≠ .ok) :
    ∃ r s', mkdirBody w path args attributes rq unset s = (.ok r, s') ∧ s'.rods = s.rods ∧
      r.status ≠ .ok := by
  obtain ⟨s1, t1, hrun⟩ := mkdirBody_run (w := w) rq h path args attributes unset
  obtain ⟨r, s2, h2, r2, hr⟩ := mkdirTail_ends (w := w) rq path args.dir (getPreCached s)
    { status := mkdirStatus w s path args attributes } s1
  refine ⟨r, s2, ?_, ?_, by rw [hr]; exact hst⟩
  · rw [hrun, if_neg hst, Prog.pure_bind_run, h2]
  · rw [r2, t1.rods]

/-- MKDIR's two steps: the local one first, the remote one whatever it returned. -/
theorem mkdirMake_ends {rq : SvcReq} (h : s.exports.path = some e) (hk : Known w rq.uid)
    (hz : w.conf.zone.isSome) (dir : NfsFh3) (obj : CStr) (attributes : Sattr3) :
    ∃ r s', mkdirMake w dir obj attributes rq s = (.ok r, s') ∧
      w.store s'.rods = effect w e rq.uid s.rods
        (makeCollection (targetName w e rq.uid obj) · true) ∧
      (r.status = .ok ↔ sysResult w (.mkdir obj (createMode attributes)) s.kernel ≠ -1) := by
  obtain ⟨s1, h1, k1, _⟩ := sys_ends (w := w) (.mkdir obj (createMode attributes)) s
  have e1 : s1.exports.path = some e := by rw [k1.exports, h]
  obtain ⟨s2, h2, _, st2⟩ := remoteStep_ends (w := w) e1 hk hz (makeCollection · · true) obj
  rw [k1.rods] at st2
  by_cases hres : sysResult w (.mkdir obj (createMode attributes)) s.kernel = -1
  · refine ⟨{ status := mkdirErr s2.errno }, s2, ?_, st2, ?_⟩
    · rw [mkdirMake, Prog.bind_ok h1, Prog.bind_ok h2, Prog.ite_run, if_pos hres]
      rfl
    · simp [hres, mkdirErr_ne_ok]
  · obtain ⟨fh, s3, h3⟩ := fhExtendType_returns (w := w) dir obj 0o040000 s2
    obtain ⟨post, s4, h4⟩ := getPostCached_returns (w := w) rq s3
    have r3 : s3.rods = s2.rods := NoRods.rods_eq (w := w) ((fhExtendType_frame dir obj _).ok h3)
    have r4 : s4.rods = s3.rods := NoRods.rods_eq (w := w) ((getPostCached_frame rq).ok h4)
    refine ⟨{ status := .ok, obj := fh, objAttributes := post }, s4, ?_, ?_, ?_⟩
    · rw [mkdirMake, Prog.bind_ok h1, Prog.bind_ok h2, Prog.ite_run, if_neg hres, Prog.bind_ok h3,
        Prog.bind_ok h4]
      rfl
    · rw [r4, r3, st2]
    · simp [hres]

/-- MKDIR that acts, by a known caller. -/
theorem mkdirBody_ends {rq : SvcReq} (h : s.exports.path = some e) (hk : Known w rq.uid)
    (hz : w.conf.zone.isSome) (path : CStr) (args : Diropargs3) (attributes : Sattr3) (unset : Junk)
    (hst : mkdirStatus w s path args attributes = .ok) :
    ∃ r s', mkdirBody w path args attributes rq unset s = (.ok r, s') ∧
      w.store s'.rods = effect w e rq.uid s.rods (makeCollection (targetName w e rq.uid
        (bufPath w e rq.uid (some path) args.name unset)) · true) ∧
      (r.status = .ok ↔ sysResult w (.mkdir (bufPath w e rq.uid (some path) args.name unset)
        (createMode attributes)) s.kernel ≠ -1) := by
  obtain ⟨s1, t1, hrun⟩ := mkdirBody_run (w := w) rq h path args attributes unset
  obtain ⟨r, s2, h2, st2, hr⟩ := mkdirMake_ends (w := w) (s := s1) (by rw [t1.exports, h]) hk hz
    args.dir (bufPath w e rq.uid (some path) args.name unset) attributes
  obtain ⟨r', s3, h3, r3, hr'⟩ := mkdirTail_ends (w := w) rq path args.dir (getPreCached s) r s2
  refine ⟨r', s3, ?_, ?_, ?_⟩
  · rw [hrun, if_pos hst, Prog.bind_ok h2, h3]
  · rw [r3, st2, t1.rods]
  · rw [hr', hr, t1.kernel]

theorem mkdirBody_stops {rq : SvcReq} (h : s.exports.path = some e)
    (hn : ¬ (Known w rq.uid ∧ w.conf.zone.isSome)) (path : CStr) (args : Diropargs3)
    (attributes : Sattr3) (unset : Junk) (hst : mkdirStatus w s path args attributes = .ok) :
    ∃ st, (mkdirBody w path args attributes rq unset s).1 = .error st := by
  obtain ⟨s1, t1, hrun⟩ := mkdirBody_run (w := w) rq h path args attributes unset
  obtain ⟨s2, h2, k2, _⟩ := sys_ends (w := w)
    (.mkdir (bufPath w e rq.uid (some path) args.name unset) (createMode attributes)) s1
  have e2 : s2.exports.path = some e := by rw [k2.exports, t1.exports, h]
  obtain ⟨st, hst'⟩ := remoteStep_stops (w := w) e2 hn (makeCollection · · true)
    (bufPath w e rq.uid (some path) args.name unset)
  refine ⟨st, ?_⟩
  rw [hrun, if_pos hst]
  refine Prog.fst_bind_error ?_
  rw [mkdirMake, Prog.bind_ok h2]
  exact Prog.fst_bind_error hst'

/-! ## CREATE -/

/-- The repetition of an exclusive create is recognised: the file can be opened and carries the
verifier. -/
def Repeats (w : World L R) (obj : CStr) (verf : List UInt8) (k : L) : Prop :=
  let c := .open_ obj { access := .rdonly, nonblock := true } 0
  sysResult w c k ≠ -1 ∧
    ∃ buf, w.fstat (w.sys c k).2 (sysResult w c k) = .ok buf ∧ checkCreateVerifier buf verf = true

/-- The rest of CREATE's local step succeeds: in kernel state `k` after its open returned `fd`, with
`err` in `errno` when the remote step is done. -/
def CreateOk (w : World L R) (obj : CStr) (how : Createhow3) (fd : Int) (err : Errno)
    (k : L) : Prop :=
  if fd ≠ -1 then
    (∃ buf, w.fstat k fd = .ok buf) ∧ ∀ verf, how = .exclusive verf →
      sysResult w (.utime obj (verfTime verf) (verfTime (verf.drop 4))) k ≠ -1
  else ∃ verf, how = .exclusive verf ∧ err = .eexist ∧ Repeats w obj verf k

theorem createdObj_returns (dir : NfsFh3) (obj : CStr) (buf : Stat) (fd : Int) (rq : SvcReq) :
    Returns (createdObj w dir obj buf fd rq) :=
  .bind (.modify _) fun _ => .bind (sys_returns _) fun _ =>
    .bind (fhExtend_returns _ _ _ _) fun _ =>
    .bind (getPostBuf_returns _ _) fun _ => .pure _

/-- What saving the verifier returns. -/
def saveResult (w : World L R) (obj : CStr) (how : Createhow3) (k : L) : Int :=
  match how with
  | .exclusive verf => sysResult w (.utime obj (verfTime verf) (verfTime (verf.drop 4))) k
  | .unchecked _ | .guarded _ => 0

/-- The status of a CREATE whose open returned `fd`. -/
def openedStatus (w : World L R) (obj : CStr) (how : Createhow3) (status : Nfsstat3) (fd : Int)
    (k : L) : Nfsstat3 :=
  match w.fstat k fd with
  | .error _ => .io
  | .ok _ => if saveResult w obj how k = -1 then .io else status

/-- The status after a failed open of an existing file, with `err` in `errno`. -/
def existsStatus (w : World L R) (obj : CStr) (verf : List UInt8) (k : L) (err : Errno) :
    Nfsstat3 :=
  let c := .open_ obj { access := .rdonly, nonblock := true } 0
  if sysResult w c k = -1 then createErr (sysErrno w c k err)
  else match w.fstat (w.sys c k).2 (sysResult w c k) with
    | .error e => createErr e
    | .ok buf => if checkCreateVerifier buf verf = true then .ok else .exist

/-- The status of a CREATE that comes to the rest of its local step with `status`, `fd` and `err` in
`errno`. -/
def finishStatus (w : World L R) (obj : CStr) (how : Createhow3) (status : Nfsstat3) (fd : Int)
    (k : L) (err : Errno) : Nfsstat3 :=
  if fd ≠ -1 then openedStatus w obj how status fd k
  else if status = .ok then
    match how with
    | .exclusive verf => if err = .eexist then existsStatus w obj verf k err else createErr err
    | .unchecked _ | .guarded _ => createErr err
  else status

theorem saveVerifier_run (obj : CStr) (how : Createhow3) (s : Server L R) :
    ∃ s', saveVerifier w obj how s = (.ok (saveResult w obj how s.kernel), s') := by
  cases how with
  | exclusive verf =>
    obtain ⟨s', h, _⟩ := sys_ends (w := w) (.utime obj (verfTime verf) (verfTime (verf.drop 4))) s
    exact ⟨s', h⟩
  | unchecked attr => exact ⟨s, rfl⟩
  | guarded attr => exact ⟨s, rfl⟩

/-- After a successful open. -/
theorem createOpened_run (dir : NfsFh3) (obj : CStr) (how : Createhow3) (status : Nfsstat3)
    (fd : Int) (rq : SvcReq) (s : Server L R) :
    ∃ r s', createOpened w dir obj how status fd rq s = (.ok r, s') ∧
      r.status = openedStatus w obj how status fd s.kernel := by
  unfold openedStatus createOpened
  cases hf : w.fstat s.kernel fd with
  | error err =>
    obtain ⟨s2, h2, _⟩ := sys_ends (w := w) (.close fd) { s with errno := err }
    refine ⟨{ status := .io }, s2, ?_, rfl⟩
    rw [Prog.bind_ok (query_error hf)]
    dsimp only
    rw [Prog.bind_ok h2]
    rfl
  | ok buf =>
    obtain ⟨s1, h1⟩ := saveVerifier_run (w := w) obj how s
    rw [Prog.bind_ok (query_ok hf)]
    dsimp only
    rw [Prog.bind_ok h1, Prog.ite_run]
    by_cases hr : saveResult w obj how s.kernel = -1
    · obtain ⟨s2, h2, _⟩ := sys_ends (w := w) (.close fd) s1
      refine ⟨{ status := .io }, s2, ?_, by rw [if_pos hr]⟩
      rw [if_pos hr, Prog.bind_ok h2]
      rfl
    · obtain ⟨⟨fh, post⟩, s2, h2⟩ := createdObj_returns (w := w) dir obj buf fd rq s1
      refine ⟨{ status, obj := fh, objAttributes := post }, s2, ?_, by rw [if_neg hr]⟩
      rw [if_neg hr, Prog.bind_ok h2]
      rfl

/-- After a failed open of an existing file. -/
theorem createExists_run (dir : NfsFh3) (obj : CStr) (verf : List UInt8) (rq : SvcReq)
    (s : Server L R) : ∃ r s', createExists w dir obj verf rq s = (.ok r, s') ∧
      r.status = existsStatus w obj verf s.kernel s.errno := by
  obtain ⟨s1, h1, _, k1, x1, _⟩ := sys_run (w := w)
    (.open_ obj { access := .rdonly, nonblock := true } 0) s
  rw [createExists, Prog.bind_ok h1, existsStatus]
  dsimp only
  generalize sysResult w (.open_ obj { access := .rdonly, nonblock := true } 0) s.kernel = fd
  rw [← k1, ← x1]
  by_cases hfd : fd = -1
  · refine ⟨{ status := createErr s1.errno }, s1, ?_, by rw [if_pos hfd]⟩
    rw [if_neg (not_not_intro hfd)]
    rfl
  · rw [if_pos hfd, if_neg hfd]
    cases hf : w.fstat s1.kernel fd with
    | error err =>
      refine ⟨{ status := createErr err }, { s1 with errno := err }, ?_, rfl⟩
      rw [Prog.bind_ok (query_error hf)]
      rfl
    | ok buf =>
      rw [Prog.bind_ok (query_ok hf)]
      dsimp only
      rw [Prog.ite_run]
      by_cases hv : checkCreateVerifier buf verf = true
      · obtain ⟨⟨fh, post⟩, s2, h2⟩ := createdObj_returns (w := w) dir obj buf fd rq s1
        refine ⟨{ status := .ok, obj := fh, objAttributes := post }, s2, ?_, by rw [if_pos hv]⟩
        rw [if_pos hv, Prog.bind_ok h2]
        rfl
      · refine ⟨{ status := .exist }, s1, ?_, by rw [if_neg hv]⟩
        rw [if_neg hv]
        rfl

theorem createFinish_run (dir : NfsFh3) (obj : CStr) (how : Createhow3) (status : Nfsstat3)
    (fd : Int) (rq : SvcReq) (s : Server L R) :
    ∃ r s', createFinish w dir obj how status fd rq s = (.ok r, s') ∧
      r.status = finishStatus w obj how status fd s.kernel s.errno := by
  unfold createFinish finishStatus
  by_cases hfd : fd ≠ -1
  · rw [if_pos hfd, if_pos hfd]
    exact createOpened_run dir obj how status fd rq s
  · rw [if_neg hfd, if_neg hfd]
    by_cases hst : status = .ok
    · rw [if_pos hst, if_pos hst, Prog.get_bind_run]
      cases how with
      | exclusive verf =>
        dsimp only
        rw [Prog.ite_run]
        by_cases herr : s.errno = .eexist
        · rw [if_pos herr, if_pos herr]
          exact createExists_run dir obj verf rq s
        · rw [if_neg herr, if_neg herr]
          exact ⟨{ status := createErr s.errno }, s, rfl, rfl⟩
      | unchecked attr => exact ⟨{ status := createErr s.errno }, s, rfl, rfl⟩
      | guarded attr => exact ⟨{ status := createErr s.errno }, s, rfl, rfl⟩
    · rw [if_neg hst, if_neg hst]
      exact ⟨{ status }, s, rfl, rfl⟩

theorem existsStatus_eq_ok {obj : CStr} {verf : List UInt8} {k : L} {err : Errno} :
    existsStatus w obj verf k err = .ok ↔ Repeats w obj verf k := by
  unfold existsStatus Repeats
  dsimp only
  generalize sysResult w (.open_ obj { access := .rdonly, nonblock := true } 0) k = fd
  by_cases hfd : fd = -1
  · simp [hfd]
  · cases hf : w.fstat (w.sys (.open_ obj { access := .rdonly, nonblock := true } 0) k).2 fd with
    | error e => simp [hfd]
    | ok buf => simp [hfd]

theorem finishStatus_eq_ok {obj : CStr} {how : Createhow3} {status : Nfsstat3} {fd : Int} {k : L}
    {err : Errno} : finishStatus w obj how status fd k err = .ok ↔
      status = .ok ∧ CreateOk w obj how fd err k := by
  unfold finishStatus CreateOk
  by_cases hfd : fd ≠ -1
  · rw [if_pos hfd, if_pos hfd, openedStatus]
    cases hf : w.fstat k fd with
    | error e => simp
    | ok buf =>
      have hsave : (∀ verf, how = .exclusive verf → sysResult w (.utime obj (verfTime verf)
          (verfTime (verf.drop 4))) k ≠ -1) ↔ saveResult w obj how k ≠ -1 := by
        cases how <;> simp [saveResult]
      rw [hsave]
      by_cases hr : saveResult w obj how k = -1 <;> simp [hr]
  · rw [if_neg hfd, if_neg hfd]
    by_cases hst : status = .ok
    · rw [if_pos hst]
      cases how with
      | exclusive verf =>
        by_cases herr : err = .eexist <;> simp [hst, herr, existsStatus_eq_ok]
      | unchecked attr => simp
      | guarded attr => simp
    · simp [hst]

theorem createFinish_ends (dir : NfsFh3) (obj : CStr) (how : Createhow3) (status : Nfsstat3)
    (fd : Int) (rq : SvcReq) (s : Server L R) :
    ∃ r s', createFinish w dir obj how status fd rq s = (.ok r, s') ∧
      (r.status = .ok ↔ status = .ok ∧ CreateOk w obj how fd s.errno s.kernel) := by
  obtain ⟨r, s', h, hr⟩ := createFinish_run (w := w) dir obj how status fd rq s
  exact ⟨r, s', h, by rw [hr, finishStatus_eq_ok]⟩

/-- The call with which CREATE opens. -/
def openCall (obj : CStr) (how : Createhow3) (unset : Junk) : SysCall :=
  .open_ obj how.flags (createMode (how.attr unset.attr))

/-- What CREATE finds in `errno` after its open and its remote step: the library calls in between
may have left anything there. -/
def createErrno (w : World L R) (path name : CStr) (how : Createhow3) (rq : SvcReq) (unset : Junk)
    (s : Server L R) : Errno :=
  ((rewriteObj w (catName (some path) name).2.isSome ((catName (some path) name).2.getD unset.buf)
      rq.uid >>= fun obj => sys w (openCall obj how unset) >>= fun _ =>
        remoteStep w (createFile w) obj rq) s).2.errno

/-- The local step as a whole succeeds: the open, and what CREATE does after the remote step. -/
def CreateLocalOk (w : World L R) (e path name : CStr) (how : Createhow3) (rq : SvcReq)
    (unset : Junk) (s : Server L R) : Prop :=
  let obj := bufPath w e rq.uid (some path) name unset
  CreateOk w obj how (sysResult w (openCall obj how unset) s.kernel)
    (createErrno w path name how rq unset s) (w.sys (openCall obj how unset) s.kernel).2

theorem createOpen_ends (status : Nfsstat3) (obj : CStr) (how : Createhow3) (unset : Junk)
    (s : Server L R) :
    ∃ fd s', createOpen w status obj how unset.attr s = (.ok fd, s') ∧ s'.rods = s.rods ∧
      s'.exports = s.exports ∧
      (status = .ok → sys w (openCall obj how unset) s = (.ok fd, s')) := by
  unfold createOpen
  by_cases hst : status = .ok
  · obtain ⟨s', h, k, _⟩ := sys_ends (w := w) (openCall obj how unset) s
    exact ⟨_, s', by rw [if_pos hst]; exact h, k.rods, k.exports, fun _ => h⟩
  · exact ⟨-1, s, by rw [if_neg hst]; rfl, rfl, rfl, fun hok => absurd hok hst⟩

/-- CREATE by a known caller replies, whatever the status, and makes its iRODS call. -/
theorem createBody_ends {rq : SvcReq} (h : s.exports.path = some e) (hk : Known w rq.uid)
    (hz : w.conf.zone.isSome) (path : CStr) (args : Diropargs3) (how : Createhow3) (unset : Junk) :
    ∃ r s', createBody w path args how rq unset s = (.ok r, s') ∧
      w.store s'.rods = effect w e rq.uid s.rods (createFile w (targetName w e rq.uid
        (bufPath w e rq.uid (some path) args.name unset))) ∧
      (r.status = .ok ↔ createStatus w s (catName (some path) args.name).1 how = .ok ∧
        CreateLocalOk w e path args.name how rq unset s) := by
  obtain ⟨s1, h1, t1⟩ := rewriteName_ends (w := w) h (some path) args.name rq.uid unset
  obtain ⟨fd, s2, h2, r2, x2, hopen⟩ := createOpen_ends (w := w)
    (createStatus w s (catName (some path) args.name).1 how)
    (bufPath w e rq.uid (some path) args.name unset) how unset s1
  have e2 : s2.exports.path = some e := by rw [x2, t1.exports, h]
  obtain ⟨s3, h3, a3, st3⟩ := remoteStep_ends (w := w) e2 hk hz (createFile w)
    (bufPath w e rq.uid (some path) args.name unset)
  obtain ⟨r, s4, h4, hr⟩ := createFinish_ends (w := w) args.dir
    (bufPath w e rq.uid (some path) args.name unset) how
    (createStatus w s (catName (some path) args.name).1 how) fd rq s3
  have r4 : s4.rods = s3.rods :=
    NoRods.rods_eq
      ((createFinish_foot (fun c _ => noRods_sys c) (fun _ _ _ => noRods_sys _) _ _ _ _ _ _).ok h4)
  obtain ⟨after, s5, h5⟩ := getPostStat_returns (w := w) (some path) rq s4
  have r5 : s5.rods = s4.rods := NoRods.rods_eq (w := w) ((getPostStat_frame (some path) rq).ok h5)
  obtain ⟨s6, h6, t6⟩ := debug_tacit (w := w) "CREATE END \n" s5
  refine ⟨{ r with dirWcc := { before := getPreCached s4, after } }, s6, ?_, ?_, ?_⟩
  · rw [createBody, Prog.get_bind_run, Prog.bind_ok h1, createAct, Prog.bind_ok h2, Prog.bind_ok h3,
      Prog.bind_ok h4, Prog.get_bind_run, Prog.bind_ok h5, Prog.bind_ok h6]
    rfl
  · rw [t6.rods, r5, r4, st3, r2, t1.rods]
  · rw [hr]
    refine and_congr_right fun hst => ?_
    have hsys := hopen hst
    obtain ⟨s2', h2', _, k2⟩ := sys_ends (w := w)
      (openCall (bufPath w e rq.uid (some path) args.name unset) how unset) s1
    rw [hsys] at h2'
    obtain ⟨⟨⟨⟩⟩, rfl⟩ := Prod.mk.inj h2'
    have herr : createErrno w path args.name how rq unset s = s3.errno := by
      rw [createErrno, Prog.bind_ok h1, Prog.bind_ok hsys, h3]
    rw [CreateLocalOk, herr, a3.kernel, k2, t1.kernel]

theorem createBody_stops {rq : SvcReq} (h : s.exports.path = some e)
    (hn : ¬ (Known w rq.uid ∧ w.conf.zone.isSome)) (path : CStr) (args : Diropargs3)
    (how : Createhow3) (unset : Junk) :
    ∃ st, (createBody w path args how rq unset s).1 = .error st := by
  obtain ⟨s1, h1, t1⟩ := rewriteName_ends (w := w) h (some path) args.name rq.uid unset
  obtain ⟨fd, s2, h2, _, x2, _⟩ := createOpen_ends (w := w)
    (createStatus w s (catName (some path) args.name).1 how)
    (bufPath w e rq.uid (some path) args.name unset) how unset s1
  have e2 : s2.exports.path = some e := by rw [x2, t1.exports, h]
  obtain ⟨st, hst⟩ := remoteStep_stops (w := w) e2 hn (createFile w)
    (bufPath w e rq.uid (some path) args.name unset)
  refine ⟨st, ?_⟩
  rw [createBody, Prog.get_bind_run, Prog.bind_ok h1, createAct, Prog.bind_ok h2]
  exact Prog.fst_bind_error hst

/-! ## RENAME -/

/-- The status of RENAME's target: its name, and whether the two directories have the same options.
-/
def targetStatus (w : World L R) (argsTo : Diropargs3) (rq : SvcReq) (s : Server L R) : Nfsstat3 :=
  join (catName (renameTarget w argsTo s) argsTo.name).1
    (exportsCompat s.exportList rq.remote (renameTarget w argsTo s) s.exports).1

theorem renameEnd_ends (status : Nfsstat3) (pre : PreOpAttr) (fromPath : CStr)
    (toPath : Option CStr)
    (argsFrom : Diropargs3) (rq : SvcReq) (s : Server L R) :
    ∃ r s', renameEnd w status pre fromPath toPath argsFrom rq s = (.ok r, s') ∧ s'.rods = s.rods ∧
      r.status = status := by
  obtain ⟨s1, h1, t1⟩ := debug_tacit (w := w) "RENAME - FILE " s
  obtain ⟨post, s2, h2⟩ := getPostLl_returns (w := w) (some fromPath) argsFrom.dir.obj.dev
    argsFrom.dir.obj.ino rq s1
  obtain ⟨toAfter, s3, h3⟩ := getPostStat_returns (w := w) toPath rq s2
  obtain ⟨s4, h4, t4⟩ := debug_tacit (w := w) "RENAME END" s3
  have r2 : s2.rods = s1.rods := NoRods.rods_eq (w := w) ((getPostLl_frame _ _ _ rq).ok h2)
  have r3 : s3.rods = s2.rods := NoRods.rods_eq (w := w) ((getPostStat_frame toPath rq).ok h3)
  refine ⟨{ status, fromdirWcc := { before := pre, after := post }
            todirWcc := { before := getPreCached s2, after := toAfter } }, s4, ?_, ?_, rfl⟩
  · rw [renameEnd, Prog.bind_ok h1, getPostAttr, Prog.bind_ok h2, Prog.get_bind_run,
      Prog.bind_ok h3, Prog.bind_ok h4]
    rfl
  · rw [t4.rods, r3, r2, t1.rods]

/-- RENAME's two steps: the remote one first, the local one whatever it returned. -/
theorem renameMove_ends {rq : SvcReq} (h : s.exports.path = some e) (hk : Known w rq.uid)
    (hz : w.conf.zone.isSome) (fromObj toObj : CStr) :
    ∃ st s', renameMove w fromObj toObj rq s = (.ok st, s') ∧
      w.store s'.rods = effect w e rq.uid s.rods
        (renameFile (targetName w e rq.uid toObj) (targetName w e rq.uid fromObj)) ∧
      (st = .ok ↔ sysResult w (.rename fromObj toObj) s.kernel ≠ -1 ∧
        (w.rods (renameFile (targetName w e rq.uid toObj) (targetName w e rq.uid fromObj)
          (session w e rq.uid s.rods).1) (session w e rq.uid s.rods).2).1.status ≠ -1) := by
  obtain ⟨s1, h1, k1, r1, x1⟩ : ∃ s1, (changeReaddirCookie : M L R Unit) s = (.ok (), s1) ∧
      s1.kernel = s.kernel ∧ s1.rods = s.rods ∧ s1.exports = s.exports := ⟨_, rfl, rfl, rfl, rfl⟩
  obtain ⟨s2, h2, a2, st2⟩ :=
    renameRemote_ends (w := w) (s := s1) (by rw [x1, h]) hk hz fromObj toObj
  rw [r1] at h2 st2
  obtain ⟨s3, h3, k3, _⟩ := sys_ends (w := w) (.rename fromObj toObj) s2
  rw [a2.kernel, k1] at h3
  rw [renameMove, Prog.bind_ok h1, Prog.bind_ok h2, Prog.bind_ok h3, Prog.get_bind_run]
  refine ⟨_, s3, rfl, by rw [k3.rods, st2], ?_⟩
  rw [ite_eq_right_iff, ← not_or]
  exact ⟨fun hok hbad => renameErr_ne_ok s3.errno (hok hbad), fun hn hbad => absurd hbad hn⟩

theorem renameMove_stops {rq : SvcReq} (h : s.exports.path = some e)
    (hn : ¬ (Known w rq.uid ∧ w.conf.zone.isSome)) (fromObj toObj : CStr) :
    ∃ st, (renameMove w fromObj toObj rq s).1 = .error st := by
  obtain ⟨s1, h1, x1⟩ : ∃ s1, (changeReaddirCookie : M L R Unit) s = (.ok (), s1) ∧
      s1.exports = s.exports := ⟨_, rfl, rfl⟩
  obtain ⟨st, hst⟩ := renameRemote_stops (w := w) (s := s1) (by rw [x1, h]) hn fromObj toObj
  refine ⟨st, ?_⟩
  rw [renameMove, Prog.bind_ok h1]
  exact Prog.fst_bind_error hst

/-- The two buffers of RENAME once the target has been looked up. -/
theorem renameTo_run (rq : SvcReq) (fromObj : CStr) (toPath : Option CStr) (name : CStr)
    (unset : Junk)
    (he : (exportsCompat s.exportList rq.remote toPath s.exports).2.path = some e) :
    ∃ s1, s1.exports.path = some e ∧ s1.rods = s.rods ∧ s1.kernel = s.kernel ∧
      renameTo w fromObj toPath name rq unset s =
        (if join (catName toPath name).1 (exportsCompat s.exportList rq.remote toPath s.exports).1
            = .ok
          then renameMove w (realPath w e rq.uid fromObj) (bufPath w e rq.uid toPath name unset) rq
          else pure (join (catName toPath name).1
            (exportsCompat s.exportList rq.remote toPath s.exports).1)) s1 := by
  obtain ⟨s1, h1, x1, r1, k1⟩ : ∃ s1, (exportsCompatM toPath rq : M L R Nfsstat3) s =
      (.ok (exportsCompat s.exportList rq.remote toPath s.exports).1, s1) ∧
      s1.exports = (exportsCompat s.exportList rq.remote toPath s.exports).2 ∧
      s1.rods = s.rods ∧ s1.kernel = s.kernel := ⟨_, rfl, rfl, rfl, rfl⟩
  have e1 : s1.exports.path = some e := by rw [x1, he]
  obtain ⟨s2, h2, t2⟩ := rewriteObj_ends (w := w) e1 true fromObj rq.uid
  have e2 : s2.exports.path = some e := by rw [t2.exports, e1]
  obtain ⟨s3, h3, t3⟩ := rewriteName_ends (w := w) e2 toPath name rq.uid unset
  refine ⟨s3, by rw [t3.exports, e2], by rw [t3.rods, t2.rods, r1],
    by rw [t3.kernel, t2.kernel, k1], ?_⟩
  rw [renameTo, Prog.bind_ok h1, Prog.bind_ok h2, Prog.bind_ok h3]

/-- A target that no export of the client governs stops the daemon. -/
theorem renameTo_stops (rq : SvcReq) (fromObj : CStr) (toPath : Option CStr) (name : CStr)
    (unset : Junk)
    (he : (exportsCompat s.exportList rq.remote toPath s.exports).2.path = none) :
    ∃ st, (renameTo w fromObj toPath name rq unset s).1 = .error st := by
  obtain ⟨s1, h1, x1⟩ : ∃ s1, (exportsCompatM toPath rq : M L R Nfsstat3) s =
      (.ok (exportsCompat s.exportList rq.remote toPath s.exports).1, s1) ∧
      s1.exports = (exportsCompat s.exportList rq.remote toPath s.exports).2 := ⟨_, rfl, rfl⟩
  obtain ⟨s2, h2, _⟩ := rewriteObj_stops (w := w) (E := fun _ => True) (s := s1)
    (fun _ _ => trivial) (by rw [x1, he]) true fromObj rq.uid
  exact ⟨.nullExportPath, by rw [renameTo, Prog.bind_ok h1, Prog.bind_error h2]⟩

/-- RENAME looks the target directory up, and goes on when the source name is accepted. -/
theorem renameBody_run (rq : SvcReq) (fromPath : CStr) (argsFrom argsTo : Diropargs3) (unset : Junk)
    (s : Server L R) :
    ∃ s1, s1.exports = s.exports ∧ s1.exportList = s.exportList ∧ s1.rods = s.rods ∧
      s1.kernel = s.kernel ∧
      renameBody w fromPath argsFrom argsTo rq unset s =
        ((if join (catName (some fromPath) argsFrom.name).1 (exportsRw s.exports) = .ok then
            renameTo w ((catName (some fromPath) argsFrom.name).2.getD unset.buf)
              (renameTarget w argsTo s) argsTo.name rq unset
          else pure (join (catName (some fromPath) argsFrom.name).1 (exportsRw s.exports))) >>=
          fun status => renameEnd w status (getPreCached s) fromPath (renameTarget w argsTo s)
            argsFrom rq) s1 := by
  obtain ⟨toPath, s1, h1⟩ := fhDecomp_returns (w := w) argsTo.dir s
  have f1 : Foot w (fun _ => False) s s1 := (fhDecomp_foot (w := w) argsTo.dir).ok h1
  have ht : renameTarget w argsTo s = toPath := by rw [renameTarget, h1]
  refine ⟨s1, f1.exports, f1.exportList, f1.ran.rods_eq fun _ h => h.1,
    f1.ran.kernel_eq fun _ h => h.1, ?_⟩
  rw [renameBody, Prog.get_bind_run, Prog.bind_ok h1, ht]

end

end NfsRods
