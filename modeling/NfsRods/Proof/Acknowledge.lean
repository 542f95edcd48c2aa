import NfsRods.Proof.DirectChild
import NfsRods.Proof.ReadOnly
import NfsRods.Proof.Write

/-!
# What `NFS3_OK` says about iRODS

A procedure that modifies calls iRODS and, but for RENAME, throws the status of the call away;
RENAME compares it with -1, while iRODS reports failures by other negative codes.

* `NfsRequest.changes`: the calls that carry out in iRODS what a request asks for.
* `acknowledged_iff`: of a request that gets `NFS3_OK`, these calls have been made and answered
  with a non-negative status exactly when `NfsRequest.Answered` holds: iRODS answers so on the
  caller's connection, and a SETATTR asks for nothing but a mode.
-/

namespace NfsRods

open CStr
open Prog (Ends Frame)

/-! ## The calls that matter -/

namespace RodsCall

def isModAccess : RodsCall → Bool
  | rcModAccessControl .. => true
  | _ => false

def isWrite : RodsCall → Bool
  | rcDataObjWrite .. => true
  | _ => false

def isCreate : RodsCall → Bool
  | rcDataObjCreate .. => true
  | _ => false

def isCollCreate : RodsCall → Bool
  | rcCollCreate .. => true
  | _ => false

def isUnlink : RodsCall → Bool
  | rcDataObjUnlink .. => true
  | _ => false

def isRmColl : RodsCall → Bool
  | rcRmColl .. => true
  | _ => false

def isRename : RodsCall → Bool
  | rcDataObjRename .. => true
  | _ => false

end RodsCall

/-- The kinds of calls that carry out a request in iRODS; no call of the daemon sets a size. -/
def NfsRequest.changes : NfsRequest → List (RodsCall → Bool)
  | .setattr _ new => (if new.size.isSome then [fun _ : RodsCall => false] else []) ++
      if new.mode.isSome then [RodsCall.isModAccess] else []
  | .write _ => [RodsCall.isWrite]
  | .create .. => [RodsCall.isCreate]
  | .mkdir .. => [RodsCall.isCollCreate]
  | .remove _ => [RodsCall.isUnlink]
  | .rmdir _ => [RodsCall.isRmColl]
  | .rename .. => [RodsCall.isRename]
  | _ => []

/-- A call of the kind `k` was made and answered with a non-negative status. -/
def Done (k : RodsCall → Bool) (x : RodsCall × RodsReply) : Prop := k x.1 = true ∧ 0 ≤ x.2.status

/-- Calls that change nothing are not of the kind `k`. -/
def Mutating (k : RodsCall → Bool) : Prop := ∀ c : RodsCall, c.mutates = false → k c = false

theorem changes_mutating {q : NfsRequest} {k : RodsCall → Bool} (hk : k ∈ q.changes) :
    Mutating k := by
  intro c hc
  cases q with
  | setattr _ new =>
    simp only [NfsRequest.changes, List.mem_append, List.mem_ite_nil_right,
      List.mem_singleton] at hk
    rcases hk with ⟨_, rfl⟩ | ⟨_, rfl⟩
    · rfl
    · cases c <;> simp_all [RodsCall.mutates, RodsCall.isModAccess]
  | write _ | create _ _ | mkdir _ _ | remove _ | rmdir _ | rename _ _ =>
    obtain rfl := List.mem_singleton.1 hk
    cases c <;> first | rfl | simp [RodsCall.mutates] at hc
  | _ => cases hk

theorem deaf_of_calm {k : RodsCall → Bool} (hk : Mutating k) (ev : Event) (h : ev.calm = true) :
    Deaf (Done k) ev := by
  rintro c rfl a ⟨hc, _⟩
  rw [hk c (by simpa [Event.calm, Event.mutates] using h)] at hc
  cases hc

theorem deaf_sys {Q : RodsCall × RodsReply → Prop} (c : SysCall) : Deaf Q (.sys c) :=
  fun _ h => by cases h

theorem deaf_toArray {Q : RodsCall × RodsReply → Prop} (f : Bool) (n : Nat) :
    Deaf Q (.toArray f n) :=
  fun _ h => by cases h

section
variable {L R : Type} (w : World L R)

/-- What iRODS answers a call on the connection that `uid` gets under export `e`. -/
def answer (e : CStr) (uid : UInt32) (r : R) (call : Comm → RodsCall) : RodsReply :=
  (w.rods (call (session w e uid r).1) (session w e uid r).2).1

end

section
variable {L R : Type} {w : World L R} {s : Server L R} {e : CStr} {k : RodsCall → Bool}
  (hk : Mutating k)

include hk

/-! ## Operations on a path -/

theorem remoteStep_hears {rq : SvcReq} (h : s.exports.path = some e) (hc : Connects w rq)
    (call : CStr → Comm → RodsCall) (obj : CStr) :
    Hears w (Done k) (remoteStep w call obj rq) s ↔
      k (call (targetName w e rq.uid obj) (session w e rq.uid s.rods).1) = true ∧
        0 ≤ (answer w e rq.uid s.rods (call (targetName w e rq.uid obj))).status := by
  obtain ⟨s1, h1, a1⟩ := openRods_ends h hc.1 hc.2 obj
  have r1 : Ran w (Deaf (Done k)) s s1 :=
    (Foot.frame_ran (openRods_frame (deaf_of_calm hk) _ _)).ok h1
  have hissue : Frame (Ran w fun _ => True)
      (issue w (call (targetName w e rq.uid obj) (session w e rq.uid s.rods).1)) :=
    Foot.frame_ran (.bind (rods_frame trivial) fun _ => .pure _)
  have hrest : Frame (Ran w (Deaf (Done k))) (debug w "Creating or deleting %s" >>= fun _ =>
      rcDisconnect w (session w e rq.uid s.rods).1) :=
    Foot.frame_ran (.bind (debug_frame _) fun _ => rcDisconnect_frame (deaf_of_calm hk) _)
  have hgrows :
    Grows s1 ((issue w (call (targetName w e rq.uid obj) (session w e rq.uid s.rods).1) >>=
      fun _ => debug w "Creating or deleting %s" >>= fun _ =>
      rcDisconnect w (session w e rq.uid s.rods).1) s1).2 :=
    Frame.bind (hissue.mono fun _ _ h => h.grows) (fun _ => hrest.mono fun _ _ h => h.grows) s1
  rw [remoteStep, hears_bind_ok h1 r1 hgrows, hears_bind_frame hissue fun _ => hrest, issue,
    hears_bind_frame (Foot.frame_ran (rods_frame trivial)) fun _ => .pure _, hears_rods, a1.2]
  rfl

/-- A run that comes to its remote step without such a call, and makes none after it. -/
theorem run_hears {α β : Type} {rq : SvcReq} {m : M L R α} {g : Unit → M L R β} {s1 : Server L R}
    (call : CStr → Comm → RodsCall) (obj : CStr)
    (hrun : (m s).2 = ((remoteStep w call obj rq >>= g) s1).2)
    (hm : Ran w (Deaf (Done k)) s s1) (hx : s1.exports.path = some e) (hr : s1.rods = s.rods)
    (hc : Connects w rq) (hg : ∀ u, Frame (Ran w (Deaf (Done k))) (g u)) :
    Hears w (Done k) m s ↔
      k (call (targetName w e rq.uid obj) (session w e rq.uid s.rods).1) = true ∧
        0 ≤ (answer w e rq.uid s.rods (call (targetName w e rq.uid obj))).status := by
  have hremote : Frame (Ran w fun _ => True) (remoteStep w call obj rq) :=
    Foot.frame_ran (remoteStep_frame (fun _ _ => trivial) (fun _ => trivial) _ _ _)
  have hgrows : Grows s1 ((remoteStep w call obj rq >>= g) s1).2 :=
    Frame.bind (remoteStep_grows _ _ _) (fun u => (hg u).mono fun _ _ h => h.grows) s1
  rw [hears_run hrun hm hgrows, hears_bind_frame hremote hg, ← hr]
  exact remoteStep_hears hk hx hc call obj

theorem rewriteName_deaf {rq : SvcReq} {path : Option CStr} {name : CStr} {unset : Junk}
    {obj : CStr}
    {s1 : Server L R} (h : rewriteObj w (catName path name).2.isSome
      ((catName path name).2.getD unset.buf) rq.uid s = (.ok obj, s1)) :
    Ran w (Deaf (Done k)) s s1 :=
  (Foot.frame_ran (rewriteObj_frame (calm_path (deaf_of_calm hk)) deaf_toArray _ _ _)).ok h

theorem unlinkBody_hears {rq : SvcReq} (h : s.exports.path = some e) (hc : Connects w rq)
    (u : Unlink)
    (path name : CStr) (unset : Junk) :
    Hears w (Done k) (unlinkBody w u path name rq unset) s ↔
      k (u.remote (targetName w e rq.uid (bufPath w e rq.uid (some path) name unset))
        (session w e rq.uid s.rods).1) = true ∧
      0 ≤ (answer w e rq.uid s.rods (u.remote (targetName w e rq.uid
        (bufPath w e rq.uid (some path) name unset)))).status := by
  obtain ⟨s1, h1, t1⟩ := rewriteName_ends (w := w) h (some path) name rq.uid unset
  obtain ⟨s2, h2, t2⟩ := debug_tacit (w := w) "RMDIR - Removing local directory %s\n" s1
  obtain ⟨st, s3, h3, r3, x3, _⟩ := unlinkLocal_ends (w := w) u
    (join (catName (some path) name).1 (exportsRw s.exports))
    (bufPath w e rq.uid (some path) name unset) s2
  refine run_hears hk _ _ (by rw [unlinkBody, Prog.get_bind_run, Prog.bind_ok h1, unlinkAct,
    Prog.bind_ok h2, Prog.bind_ok h3]) ?_ (by rw [x3, t2.exports, t1.exports, h])
    (by rw [r3, t2.rods, t1.rods]) hc fun _ => ?_
  · exact trans_of (Ran w _) (rewriteName_deaf hk h1) (trans_of (Ran w _)
      ((Foot.frame_ran (debug_frame (w := w) _)).ok h2)
      ((Foot.frame_ran (unlinkLocal_frame deaf_sys _ _ _)).ok h3))
  · exact Foot.frame_ran (.bind .get fun _ => .bind (getPostStat_frame _ _) fun _ =>
      .bind (debug_frame _) fun _ => .pure _)

theorem createBody_hears {rq : SvcReq} (h : s.exports.path = some e) (hc : Connects w rq)
    (path : CStr) (args : Diropargs3) (how : Createhow3) (unset : Junk) :
    Hears w (Done k) (createBody w path args how rq unset) s ↔
      k (createFile w (targetName w e rq.uid (bufPath w e rq.uid (some path) args.name unset))
        (session w e rq.uid s.rods).1) = true ∧
      0 ≤ (answer w e rq.uid s.rods (createFile w (targetName w e rq.uid
        (bufPath w e rq.uid (some path) args.name unset)))).status := by
  obtain ⟨s1, h1, t1⟩ := rewriteName_ends (w := w) h (some path) args.name rq.uid unset
  obtain ⟨fd, s2, h2, r2, x2, _⟩ := createOpen_ends (w := w)
    (createStatus w s (catName (some path) args.name).1 how)
    (bufPath w e rq.uid (some path) args.name unset) how unset s1
  refine run_hears hk _ _ (by rw [createBody, Prog.get_bind_run, Prog.bind_ok h1, createAct,
    Prog.bind_ok h2]) ?_ (by rw [x2, t1.exports, h]) (by rw [r2, t1.rods]) hc fun _ => ?_
  · exact trans_of (Ran w _) (rewriteName_deaf hk h1)
      ((Foot.frame_ran (createOpen_frame deaf_sys _ _ _ _)).ok h2)
  · refine Foot.frame_ran
      (.bind (createFinish_foot (fun c _ => deaf_sys c) (fun _ _ _ => deaf_sys _) _ _ _ _ _ _)
        fun _ => .bind .get fun _ => ?_)
    exact .bind (getPostStat_frame _ _) fun _ => .bind (debug_frame _) fun _ => .pure _

theorem mkdirBody_hears {rq : SvcReq} (h : s.exports.path = some e) (hc : Connects w rq)
    (path : CStr) (args : Diropargs3) (attributes : Sattr3) (unset : Junk)
    (hst : mkdirStatus w s path args attributes = .ok) :
    Hears w (Done k) (mkdirBody w path args attributes rq unset) s ↔
      k (makeCollection (targetName w e rq.uid (bufPath w e rq.uid (some path) args.name unset))
        (session w e rq.uid s.rods).1 true) = true ∧
      0 ≤ (answer w e rq.uid s.rods (makeCollection (targetName w e rq.uid
        (bufPath w e rq.uid (some path) args.name unset)) · true)).status := by
  obtain ⟨s1, h1, t1⟩ := rewriteName_ends (w := w) h (some path) args.name rq.uid unset
  obtain ⟨s2, h2, t2⟩ := debug_tacit (w := w) "Criando diretorio: %s \n" s1
  obtain ⟨s3, h3, k3, _⟩ :=
    sys_ends (w := w)
      (.mkdir (bufPath w e rq.uid (some path) args.name unset) (createMode attributes)) s2
  have hmake : Frame (Ran w fun _ => True)
      (mkdirMake w args.dir (bufPath w e rq.uid (some path) args.name unset) attributes rq) :=
    Foot.frame_ran
      (mkdirMake_frame (fun _ _ => trivial) (fun _ => trivial) (fun _ => trivial) _ _ _ _)
  have hend : ∀ r : Create3res, Frame (Ran w (Deaf (Done k)))
      (getPostAttr w (some path) args.dir rq >>= fun post => debug w "MKDIR END" >>= fun _ =>
        pure { r with dirWcc := { before := getPreCached s, after := post } }) := fun _ =>
    Foot.frame_ran (.bind (getPostLl_frame _ _ _ _) fun _ => .bind (debug_frame _) fun _ => .pure _)
  have r2 : Ran w (Deaf (Done k)) s s2 := trans_of (Ran w _) (rewriteName_deaf hk h1)
    ((Foot.frame_ran (debug_frame (w := w) _)).ok h2)
  rw [hears_run (by rw [mkdirBody, Prog.get_bind_run, Prog.bind_ok h1, mkdirAct, Prog.bind_ok h2,
      ← mkdirStatus, if_pos hst]) r2 (Frame.bind (hmake.mono fun _ _ h => h.grows)
      (fun r => (hend r).mono fun _ _ h => h.grows) s2), hears_bind_frame hmake hend]
  have hrods : s2.rods = s.rods := by rw [t2.rods, t1.rods]
  rw [← hrods]
  refine run_hears hk (makeCollection · · true) (bufPath w e rq.uid (some path) args.name unset)
    (by rw [mkdirMake, Prog.bind_ok h3])
    ((Foot.frame_ran (sys_frame (deaf_sys _))).ok h3)
    (by rw [k3.exports, t2.exports, t1.exports, h]) k3.rods hc fun _ => Foot.frame_ran ?_
  refine .ite (fun _ => .bind .get fun _ => .pure _) fun _ => ?_
  exact .bind (fhExtendType_frame _ _ _) fun _ => .bind (getPostCached_frame _) fun _ => .pure _

theorem renameMove_hears {rq : SvcReq} (h : s.exports.path = some e) (hc : Connects w rq)
    (fromObj toObj : CStr) :
    Hears w (Done k) (renameMove w fromObj toObj rq) s ↔
      k (renameFile (targetName w e rq.uid toObj) (targetName w e rq.uid fromObj)
        (session w e rq.uid s.rods).1) = true ∧
      0 ≤ (answer w e rq.uid s.rods (renameFile (targetName w e rq.uid toObj)
        (targetName w e rq.uid fromObj))).status := by
  obtain ⟨s1, h1, x1, r1⟩ : ∃ s1, (changeReaddirCookie : M L R Unit) s = (.ok (), s1) ∧
      s1.exports = s.exports ∧ s1.rods = s.rods := ⟨_, rfl, rfl, rfl⟩
  have hran : Ran w (Deaf (Done k)) s s1 :=
    (Foot.frame_ran (modify_foot fun _ => ⟨rfl, rfl, rfl, rfl, rfl⟩) :
      Frame (Ran w _) (changeReaddirCookie : M L R Unit)).ok h1
  have hremote : Frame (Ran w fun _ => True) (renameRemote w fromObj toObj rq) :=
    Foot.frame_ran (renameRemote_frame (fun _ _ => trivial) (fun _ => trivial) _ _ _)
  have hlocal : ∀ status : Int, Frame (Ran w (Deaf (Done k))) (sys w (.rename fromObj toObj) >>=
      fun res => Prog.get >>= fun s' : Server L R =>
      (pure (if res = -1 ∨ status = -1 then renameErr s'.errno else .ok) : M L R Nfsstat3)) :=
    fun _ => Foot.frame_ran (.bind (sys_frame (deaf_sys _)) fun _ => .bind .get fun _ => .pure _)
  obtain ⟨s2, hran2, hr2, hrun⟩ :=
    renameRemote_run (w := w) (s := s1) (by rw [x1, h]) hc fromObj toObj
  have hissue : Frame (Ran w fun _ => True) (issue w (renameFile (targetName w e rq.uid toObj)
      (targetName w e rq.uid fromObj) (session w e rq.uid s1.rods).1)) :=
    Foot.frame_ran (.bind (rods_frame trivial) fun _ => .pure _)
  have hrest : ∀ status : Int, Frame (Ran w (Deaf (Done k)))
      (rcDisconnect w (session w e rq.uid s1.rods).1 >>= fun _ => debug w "RENAME - FREE " >>=
        fun _ => (pure status : M L R Int)) := fun _ =>
    Foot.frame_ran (.bind (rcDisconnect_frame (deaf_of_calm hk) _) fun _ =>
      .bind (debug_frame _) fun _ => .pure _)
  rw [renameMove, hears_bind_ok h1 hran (Frame.bind (hremote.mono fun _ _ h => h.grows)
      (fun st => (hlocal st).mono fun _ _ h => h.grows) s1), hears_bind_frame hremote hlocal,
    hears_run (by rw [hrun]) (hran2 _ (deaf_of_calm hk)) (Frame.bind
      (hissue.mono fun _ _ h => h.grows) (fun st => (hrest st).mono fun _ _ h => h.grows) s2),
    hears_bind_frame hissue hrest, issue,
    hears_bind_frame (Foot.frame_ran (rods_frame trivial)) fun _ => .pure _, hears_rods, hr2, r1]
  rfl

omit hk in
/-- A RENAME that gets `NFS3_OK` has come to its two steps. -/
theorem renameBody_ok {rq : SvcReq} {d : CStr} {argsFrom argsTo : Diropargs3} {unset : Junk}
    {r : Rename3res} {s' : Server L R}
    (hrun : renameBody w d argsFrom argsTo rq unset s = (.ok r, s')) (hr : r.status = .ok) :
    (Accepted d argsFrom.name ∧ exportsRw s.exports = .ok) ∧ targetStatus w argsTo rq s = .ok ∧
      Connects w rq ∧ ∃ e', compatPath w argsTo rq s = some e' := by
  obtain ⟨s1, x1, l1, _, _, hb⟩ := renameBody_run (w := w) rq d argsFrom argsTo unset s
  rw [hb] at hrun
  obtain ⟨st, s2, h2, h3⟩ := Prog.bind_eq_ok hrun
  have hst : r.status = st := by
    obtain ⟨r', s3, h3', _, hr'⟩ := renameEnd_ends (w := w) st (getPreCached s) d
      (renameTarget w argsTo s) argsFrom rq s2
    rw [h3] at h3'
    obtain ⟨⟨⟨⟩⟩, rfl⟩ := Prod.mk.inj h3'
    exact hr'
  rw [hr] at hst
  subst hst
  rw [Prog.ite_run] at h2
  split at h2
  · rename_i hjoin
    refine ⟨catName_rw_iff.1 hjoin, ?_⟩
    cases hc : compatPath w argsTo rq s with
    | none =>
      obtain ⟨st, hst⟩ := renameTo_stops (w := w) (s := s1) rq
        ((catName (some d) argsFrom.name).2.getD unset.buf)
          (renameTarget w argsTo s) argsTo.name unset
        (by rw [l1, x1]; exact hc)
      rw [h2] at hst
      cases hst
    | some e' =>
      obtain ⟨s3, e3, _, _, hto⟩ := renameTo_run (w := w) (s := s1) (e := e') rq
        ((catName (some d) argsFrom.name).2.getD unset.buf)
          (renameTarget w argsTo s) argsTo.name unset
        (by rw [l1, x1]; exact hc)
      rw [hto, l1, x1, ← targetStatus] at h2
      rw [Prog.ite_run] at h2
      split at h2
      · refine ⟨‹_›, ?_, e', rfl⟩
        by_contra hn
        obtain ⟨st, hst⟩ := renameMove_stops (w := w) e3 hn
          (realPath w e' rq.uid ((catName (some d) argsFrom.name).2.getD unset.buf))
          (bufPath w e' rq.uid (renameTarget w argsTo s) argsTo.name unset)
        rw [h2] at hst
        cases hst
      · rename_i hn
        simp only [Prog.pure_run, Prod.mk.injEq, Except.ok.injEq] at h2
        exact absurd h2.1 hn
  · rename_i hn
    simp only [Prog.pure_run, Prod.mk.injEq, Except.ok.injEq] at h2
    exact absurd h2.1 hn

theorem renameBody_hears {rq : SvcReq} {d e' : CStr} {argsFrom argsTo : Diropargs3} {unset : Junk}
    (ha : Accepted d argsFrom.name) (hrw : exportsRw s.exports = .ok)
    (hst : targetStatus w argsTo rq s = .ok) (hc : Connects w rq)
    (he' : compatPath w argsTo rq s = some e') :
    Hears w (Done k) (renameBody w d argsFrom argsTo rq unset) s ↔
      k
        (renameFile
          (targetName w e' rq.uid
            (bufPath w e' rq.uid (renameTarget w argsTo s) argsTo.name unset))
          (targetName w e' rq.uid (realPath w e' rq.uid (childPath d argsFrom.name)))
          (session w e' rq.uid s.rods).1) = true ∧
      0 ≤ (answer w e' rq.uid s.rods (renameFile (targetName w e' rq.uid (bufPath w e' rq.uid
          (renameTarget w argsTo s) argsTo.name unset))
          (targetName w e' rq.uid (realPath w e' rq.uid (childPath d argsFrom.name))))).status := by
  obtain ⟨toPath, s1, h1⟩ := fhDecomp_returns (w := w) argsTo.dir s
  have f1 : Foot w (fun _ => False) s s1 := (fhDecomp_foot (w := w) argsTo.dir).ok h1
  obtain rfl : renameTarget w argsTo s = toPath := by rw [renameTarget, h1]
  have hto : ∀ obj, Frame (Ran w fun _ => True)
      (renameTo w obj (renameTarget w argsTo s) argsTo.name rq unset) := fun _ => renameTo_ran
    (fun _ _ => trivial) (fun _ => trivial) (fun _ => trivial) (fun _ _ => trivial) _ _ _ _ _
  have hend : ∀ st, Frame (Ran w (Deaf (Done k))) (renameEnd w st (getPreCached s) d
      (renameTarget w argsTo s) argsFrom rq) := fun _ => renameEnd_frame _ _ _ _ _ _
  have hbody : (renameBody w d argsFrom argsTo rq unset s).2 =
      ((renameTo w (childPath d argsFrom.name) (renameTarget w argsTo s) argsTo.name rq unset >>=
        fun st => renameEnd w st (getPreCached s) d (renameTarget w argsTo s) argsFrom rq)
          s1).2 := by
    rw [renameBody, Prog.get_bind_run, Prog.bind_ok h1, if_pos (catName_rw_iff.2 ⟨ha, hrw⟩),
      catName_accepted ha]
    rfl
  rw [hears_run hbody ((Foot.frame_ran (fhDecomp_foot _)).ok h1) (Frame.bind
      ((hto _).mono fun _ _ h => h.grows) (fun st => (hend st).mono fun _ _ h => h.grows) s1),
    hears_bind_frame (hto _) hend]
  -- the export that governs the target is looked up, and both buffers are rewritten under it
  obtain ⟨s2, h2, x2, r2⟩ : ∃ s2,
    (exportsCompatM (renameTarget w argsTo s) rq : M L R Nfsstat3) s1 =
      (.ok (exportsCompat s.exportList rq.remote (renameTarget w argsTo s) s.exports).1, s2) ∧
      s2.exports.path = some e' ∧ s2.rods = s.rods := by
    refine ⟨_, by rw [exportsCompatM, f1.exportList, f1.exports], he', ?_⟩
    exact f1.ran.rods_eq fun _ h => h.1
  obtain ⟨s3, h3, t3⟩ := rewriteObj_ends (w := w) x2 true (childPath d argsFrom.name) rq.uid
  have e3 : s3.exports.path = some e' := by rw [t3.exports, x2]
  obtain ⟨s4, h4, t4⟩ :=
    rewriteName_ends (w := w) e3 (renameTarget w argsTo s) argsTo.name rq.uid unset
  have hmove : Frame Grows (renameMove w (realPath w e' rq.uid (childPath d argsFrom.name))
      (bufPath w e' rq.uid (renameTarget w argsTo s) argsTo.name unset) rq) :=
    renameMove_frame (fun _ _ => trivial) (fun _ => trivial) (fun _ => trivial) _ _ _
  rw [hears_run (n := renameMove w (realPath w e' rq.uid (childPath d argsFrom.name))
      (bufPath w e' rq.uid (renameTarget w argsTo s) argsTo.name unset) rq) ?_ ?_ (hmove s4),
    renameMove_hears hk (by rw [t4.exports, e3]) hc, t4.rods, t3.rods, r2]
  · rw [renameTo, Prog.bind_ok h2, Prog.bind_ok h3, Prog.bind_ok h4, ← targetStatus, if_pos hst]
  · refine trans_of (Ran w _) ((exportsCompatM_ran (w := w) _ _).ok h2) (trans_of (Ran w _) ?_
      (rewriteName_deaf hk h4))
    exact (Foot.frame_ran (rewriteObj_frame (calm_path (deaf_of_calm hk)) deaf_toArray _ _ _)).ok h3

end

/-! ## SETATTR -/

section
variable {L R : Type} (w : World L R)

/-- SETATTR up to `set_attr_irods`. -/
def setattrSoFar (path : CStr) (object : NfsFh3) (new : Sattr3) (rq : SvcReq) :
    M L R (Comm × CStr) := do
  let path ← getRealPathNFS w path rq.uid
  debug w "PATH %s"
  let _ ← setAttr w path object new
  openRods w path rq.uid

/-- The user whose access SETATTR changes: without private collections the buffer for the name stays
unset. -/
def setattrOwner (path : CStr) (object : NfsFh3) (new : Sattr3) (rq : SvcReq) (s : Server L R) :
    CStr :=
  (getUserName w rq.uid).2.getD (w.junk (setattrSoFar w path object new rq s).2.tick).buf

/-- The call that sets the access `mode` stands for. -/
def setattrCall (name owner : CStr) (mode : Nat) (comm : Comm) : RodsCall :=
  .rcModAccessControl comm name owner (accessLevel (permission (toCInt (UInt32.ofNat mode))))
    w.conf.zone

end

section
variable {L R : Type} {w : World L R} {s : Server L R} {e : CStr}

theorem not_hears {α : Type} {Q : RodsCall × RodsReply → Prop} {m : M L R α}
    (h : Frame (Ran w (Deaf Q)) m) (s : Server L R) : ¬ Hears w Q m s := by
  rintro ⟨x, hx, hq⟩
  exact (h s).deaf x hx hq

/-- `set_attr_irods` makes a call only when nothing but the mode is to be set. -/
theorem setAttrIrods_hears {Q : RodsCall × RodsReply → Prop} (name owner : CStr) (new : Sattr3)
    (comm : Comm) (s : Server L R) : Hears w Q (setAttrIrods w name new owner comm) s ↔
      new.size = none ∧ new.uid = none ∧ new.gid = none ∧ ∃ mode, new.mode = some mode ∧
        Q (setattrCall w name owner mode comm,
          (w.rods (setattrCall w name owner mode comm) s.rods).1) := by
  have hfail : ¬ Hears w Q (setattrFail : M L R Nfsstat3) s :=
    not_hears (Foot.frame_ran setattrFail_frame) s
  rw [setAttrIrods]
  by_cases hsize : new.size.isSome
  · rw [if_pos hsize]
    refine iff_of_false hfail fun h => ?_
    rw [h.1] at hsize
    cases hsize
  rw [if_neg hsize]
  by_cases hid : (new.uid.isSome || new.gid.isSome) = true
  · rw [if_pos hid]
    refine iff_of_false hfail fun h => ?_
    rw [h.2.1, h.2.2.1] at hid
    cases hid
  rw [if_neg hid]
  simp only [Bool.or_eq_true, not_or, Option.not_isSome_iff_eq_none] at hsize hid
  simp only [hsize, hid, true_and]
  cases new.mode with
  | none =>
    refine iff_of_false (not_hears (.pure _) s) ?_
    rintro ⟨_, h, _⟩
    cases h
  | some mode =>
    have hchange : Frame (Ran w fun _ => True) (changeAttr w name owner
        (accessLevel (permission (toCInt (UInt32.ofNat mode)))) comm) :=
      Foot.frame_ran (changeAttr_frame (fun _ => trivial) _ _ _ _)
    have hdebug : ∀ (msg : Msg) (s : Server L R), ∃ s', debug w msg s = (.ok (), s') ∧
        s'.rods = s.rods ∧ Ran w (Deaf Q) s s' := fun msg s => by
      obtain ⟨s', h, t⟩ := debug_tacit (w := w) msg s
      exact ⟨s', h, t.rods, (Foot.frame_ran (debug_frame (w := w) msg)).ok h⟩
    obtain ⟨s1, h1, r1, d1⟩ := hdebug "SETATTR - FILE %s\n" s
    obtain ⟨s2, h2, r2, d2⟩ := hdebug "SETATTR - MOD to %s\n" s1
    obtain ⟨s3, h3, r3, d3⟩ := hdebug "SETATTR - USER to %s\n" s2
    have hend : Frame (Ran w fun _ => True) (rods w (setattrCall w name owner mode comm) >>=
        fun r => (pure r.status : M L R Int)) :=
      Foot.frame_ran (.bind (rods_frame trivial) fun _ => .pure _)
    dsimp only
    rw [hears_bind_frame hchange fun _ =>
        Foot.frame_ran (.ite (fun _ => setattrFail_frame) fun _ => .pure _),
      hears_run (n := rods w (setattrCall w name owner mode comm) >>= fun r => pure r.status)
        (by rw [changeAttr, Prog.bind_ok h1, Prog.bind_ok h2, Prog.bind_ok h3]; rfl)
        (trans_of (Ran w _) d1 (trans_of (Ran w _) d2 d3)) (hend s3).grows,
      hears_bind_frame (Foot.frame_ran (rods_frame trivial)) fun _ => .pure _, hears_rods,
        r3, r2, r1]
    simp

/-- A SETATTR that gets `NFS3_OK` has come to `set_attr_irods`. -/
theorem setattrBody_ok {path : CStr} {object : NfsFh3} {new : Sattr3} {rq : SvcReq}
    {r : Setattr3res}
    {s' : Server L R} (h : s.exports.path = some e)
    (hrun : setattrBody w path object new rq s = (.ok r, s')) (hr : r.status = .ok) :
    exportsRw s.exports = .ok ∧ Connects w rq ∧ ∃ st s1,
      setAttr w (realPath w e rq.uid path) object new
        (debug w "PATH %s" (getRealPathNFS w path rq.uid s).2).2 = (.ok st, s1) := by
  obtain ⟨s1, h1, t1⟩ := getRealPathNFS_ends (w := w) h path rq.uid
  obtain ⟨s2, h2, t2⟩ := debug_tacit (w := w) "PATH %s" s1
  have x2 : s2.exports = s.exports := by rw [t2.exports, t1.exports]
  rw [setattrBody, Prog.bind_ok h1, Prog.bind_ok h2, Prog.get_bind_run, x2] at hrun
  obtain ⟨st, s3, h3, hrun⟩ := Prog.bind_eq_ok hrun
  obtain ⟨_, s4, _, hrun⟩ := Prog.bind_eq_ok hrun
  obtain ⟨_, s5, _, hrun⟩ := Prog.bind_eq_ok hrun
  simp only [Prog.pure_run, Prod.mk.injEq, Except.ok.injEq] at hrun
  obtain ⟨rfl, -⟩ := hrun
  dsimp only at hr
  subst hr
  rw [Prog.ite_run] at h3
  split at h3
  · obtain ⟨st', s6, h6, h3⟩ := Prog.bind_eq_ok h3
    refine ⟨‹_›, ?_, st', s6, by rw [h1, h2, h6]⟩
    have f6 : Foot w (fun _ => True) s2 s6 := (setAttr_frame (fun _ => trivial) _ _ _).ok h6
    by_contra hn
    obtain ⟨stop, hstop⟩ := openRods_stops (w := w) (s := s6) (by rw [f6.exports, x2, h]) hn
      (realPath w e rq.uid path)
    obtain ⟨_, s7, h7, _⟩ := Prog.bind_eq_ok h3
    rw [h7] at hstop
    cases hstop
  · simp only [Prog.pure_run, Prod.mk.injEq, Except.ok.injEq] at h3
    exact absurd h3.1 ‹_›

theorem setattrBody_hears {k : RodsCall → Bool} (hk : Mutating k) {path : CStr} {object : NfsFh3}
    {new : Sattr3} {rq : SvcReq} {r : Setattr3res} {s' : Server L R} (h : s.exports.path = some e)
    (hrun : setattrBody w path object new rq s = (.ok r, s')) (hr : r.status = .ok) :
    Hears w (Done k) (setattrBody w path object new rq) s ↔
      new.size = none ∧ new.uid = none ∧ new.gid = none ∧ ∃ mode, new.mode = some mode ∧
        k (setattrCall w (targetName w e rq.uid (realPath w e rq.uid path))
          (setattrOwner w path object new rq s) mode (session w e rq.uid s.rods).1) = true ∧
        0 ≤ (answer w e rq.uid s.rods (setattrCall w (targetName w e rq.uid
          (realPath w e rq.uid path)) (setattrOwner w path object new rq s) mode)).status := by
  obtain ⟨hrw, hc, st, s3, h3⟩ := setattrBody_ok h hrun hr
  obtain ⟨s1, h1, t1⟩ := getRealPathNFS_ends (w := w) h path rq.uid
  obtain ⟨s2, h2, t2⟩ := debug_tacit (w := w) "PATH %s" s1
  rw [h1, h2] at h3
  have x2 : s2.exports = s.exports := by rw [t2.exports, t1.exports]
  have f3 : Foot w NoRods s2 s3 := (setAttr_frame noRods_sys _ _ _).ok h3
  have r3 : s3.rods = s.rods := by rw [NoRods.rods_eq f3, t2.rods, t1.rods]
  obtain ⟨s4, h4, a4⟩ := openRods_ends (w := w) (s := s3) (by rw [f3.exports, x2, h]) hc.1 hc.2
    (realPath w e rq.uid path)
  rw [r3] at h4 a4
  have howner : setattrOwner w path object new rq s =
      (getUserName w rq.uid).2.getD (w.junk s4.tick).buf := by
    rw [setattrOwner, setattrSoFar, Prog.bind_ok h1, Prog.bind_ok h2, Prog.bind_ok h3, h4]
  obtain ⟨s5, h5, t5⟩ := junk_tacit (w := w) s4
  have hset : Frame (Ran w fun _ => True) (setAttrIrods w (targetName w e rq.uid
      (realPath w e rq.uid path)) new ((getUserName w rq.uid).2.getD (w.junk s4.tick).buf)
      (session w e rq.uid s.rods).1) :=
    Foot.frame_ran (setAttrIrods_frame (fun _ => trivial) _ _ _ _)
  have hdisc : Frame (Ran w (Deaf (Done k)))
    (rcDisconnect w (session w e rq.uid s.rods).1 >>= fun _ =>
      (pure st : M L R Nfsstat3)) :=
    Foot.frame_ran (.bind (rcDisconnect_frame (deaf_of_calm hk) _) fun _ => .pure _)
  have hwrite : Frame (Ran w fun _ => True)
      (setattrWrite w (realPath w e rq.uid path) object new rq) := by
    refine Foot.frame_ran (.bind (setAttr_frame (fun _ => trivial) _ _ _) fun _ =>
      .bind (openRods_frame (fun _ _ => trivial) _ _) fun _ => .ite (fun _ => ?_) fun _ => ?_)
    · exact .bind (debug_frame _) fun _ =>
        .bind (rcDisconnect_frame (fun _ _ => trivial) _) fun _ => .pure _
    · exact .bind junk_frame fun _ => .bind (setAttrIrods_frame (fun _ => trivial) _ _ _ _) fun _ =>
        .bind (rcDisconnect_frame (fun _ _ => trivial) _) fun _ => .pure _
  have hend : ∀ st, Frame (Ran w (Deaf (Done k)))
    (getPostStat w (some (realPath w e rq.uid path)) rq >>=
      fun after => debug w "SETTATTR-stop" >>= fun _ =>
      (pure { status := st, objWcc := { before := getPreCached s2, after } } : M L R
        Setattr3res)) :=
    fun _ => Foot.frame_ran
      (.bind (getPostStat_frame _ _) fun _ => .bind (debug_frame _) fun _ => .pure _)
  have r2 : Ran w (Deaf (Done k)) s s2 := trans_of (Ran w _)
    ((Foot.frame_ran (getRealPathNFS_frame (calm_path (deaf_of_calm hk)) _ _)).ok h1)
    ((Foot.frame_ran (debug_frame (w := w) _)).ok h2)
  have r5 : Ran w (Deaf (Done k)) s2 s5 := trans_of (Ran w _)
    ((Foot.frame_ran (setAttr_frame deaf_sys _ _ _)).ok h3) (trans_of (Ran w _)
      ((Foot.frame_ran (openRods_frame (deaf_of_calm hk) _ _)).ok h4)
      ((Foot.frame_ran (junk_frame (w := w))).ok h5))
  rw [hears_run (by rw [setattrBody, Prog.bind_ok h1, Prog.bind_ok h2, Prog.get_bind_run, x2,
      if_pos hrw]) r2 (Frame.bind (hwrite.mono fun _ _ h => h.grows)
      (fun st => (hend st).mono fun _ _ h => h.grows) s2), hears_bind_frame hwrite hend,
    hears_run (n := setAttrIrods w _ new _ (session w e rq.uid s.rods).1 >>= fun _ =>
        rcDisconnect w (session w e rq.uid s.rods).1 >>= fun _ => pure st) ?_ r5
      (Frame.bind (hset.mono fun _ _ h => h.grows) (fun _ => hdisc.mono fun _ _ h => h.grows) s5),
    hears_bind_frame hset fun _ => hdisc, setAttrIrods_hears, howner, t5.rods, a4.2]
  · rfl
  · rw [setattrWrite, Prog.bind_ok h3, Prog.bind_ok h4]
    dsimp only
    rw [if_neg (getUserName_known hc.1), Prog.bind_ok h5]

/-! ## WRITE -/

/-- `iWrite` writes when the object can be positioned. -/
theorem iWriteTalk_done (comm : Comm) (name : CStr) (data : List UInt8) (offset : Int) (r : R) :
    (∃ x ∈ iWriteTalk w comm name data offset r, Done RodsCall.isWrite x) ↔
      0 ≤ (seekAt w comm name offset r).1.status ∧
        0 ≤ (writeAt w comm name data offset r).1.status := by
  simp only [iWriteTalk, Done, List.mem_cons, exists_eq_or_imp, openCallOf, seekCall,
    RodsCall.isWrite, Bool.false_eq_true, false_and, false_or]
  by_cases hs : (seekAt w comm name offset r).1.status < 0
  · simp [hs, Int.not_le.2 hs]
  · rw [if_neg hs]
    by_cases hw : (writeAt w comm name data offset r).1.status < 0
    · simp [hw, Int.not_le.2 hw, writeCall]
    · simp [hw, Int.not_lt.1 hs, Int.not_lt.1 hw, writeCall, closeCall]

theorem writeBody_hears {path : CStr} {args : Write3args} {rq : SvcReq} {r : Write3res}
    {s' : Server L R} (h : s.exports.path = some e)
    (hrun : writeBody w path args rq s = (.ok r, s')) (hr : r.status = .ok) :
    Hears w (Done RodsCall.isWrite) (writeBody w path args rq) s ↔
      0 ≤ (seekAt w (session w e rq.uid s.rods).1 (targetName w e rq.uid (realPath w e rq.uid path))
        (intOffset args.offset) (session w e rq.uid s.rods).2).1.status ∧
      0 ≤
        (writeAt w (session w e rq.uid s.rods).1 (targetName w e rq.uid (realPath w e rq.uid path))
          args.data (intOffset args.offset) (session w e rq.uid s.rods).2).1.status := by
  obtain ⟨_, fd, s1, s2, s3, s4, steps⟩ := writeBody_ok h hrun hr
  obtain ⟨T, T', hcalm, htalk⟩ := steps.replies
  have hquiet : ∀ x ∈ T ++ T', ¬ Done RodsCall.isWrite x := by
    rintro ⟨c, a⟩ hx ⟨hc, _⟩
    have hm := hcalm _ hx
    cases c <;> simp_all [RodsCall.isWrite, RodsCall.mutates]
  rw [← iWriteTalk_done, Hears, talk, hrun, htalk]
  constructor
  · rintro ⟨x, hx, hd⟩
    simp only [List.mem_append] at hx hquiet
    rcases hx with (hx | hx) | hx
    · exact absurd hd (hquiet x (.inl hx))
    · exact ⟨x, hx, hd⟩
    · exact absurd hd (hquiet x (.inr hx))
  · rintro ⟨x, hx, hd⟩
    exact ⟨x, by simp [hx], hd⟩

/-! ## Requests -/

/-- What iRODS answers the remote step about `d/name`. -/
def stepAnswer (w : World L R) (rq : SvcReq) (unset : Junk) (s : Server L R) (d name : CStr)
    (call : CStr → Comm → RodsCall) : RodsReply :=
  answer w (exportPath s) rq.uid s.rods
    (call
      (targetName w (exportPath s) rq.uid (bufPath w (exportPath s) rq.uid (some d) name unset)))

/-- iRODS answers the calls of a request that `PREP` let in, on the path `d` and in the state `s`,
with a non-negative status. The size is never set there, and the mode not together with an owner or
a group. -/
def NfsRequest.Answered (w : World L R) (rq : SvcReq) (unset : Junk) (s : Server L R) (d : CStr) :
    NfsRequest → Prop
  | .setattr object new => new.size = none ∧ ∀ mode, new.mode = some mode →
      new.uid = none ∧ new.gid = none ∧
      0 ≤ (answer w (exportPath s) rq.uid s.rods (setattrCall w (targetName w (exportPath s) rq.uid
        (realPath w (exportPath s) rq.uid d)) (setattrOwner w d object new rq s) mode)).status
  | .write args =>
    let name := targetName w (exportPath s) rq.uid (realPath w (exportPath s) rq.uid d)
    let ses := session w (exportPath s) rq.uid s.rods
    0 ≤ (seekAt w ses.1 name (intOffset args.offset) ses.2).1.status ∧
      0 ≤ (writeAt w ses.1 name args.data (intOffset args.offset) ses.2).1.status
  | .create args _ => 0 ≤ (stepAnswer w rq unset s d args.name (createFile w)).status
  | .mkdir args _ => 0 ≤ (stepAnswer w rq unset s d args.name (makeCollection · · true)).status
  | .remove object => 0 ≤ (stepAnswer w rq unset s d object.name removeObj).status
  | .rmdir object => 0 ≤ (stepAnswer w rq unset s d object.name removeCollection).status
  | .rename argsFrom argsTo =>
    let e' := targetExport w argsTo rq s
    0 ≤ (answer w e' rq.uid s.rods (renameFile
      (targetName w e' rq.uid (bufPath w e' rq.uid (renameTarget w argsTo s) argsTo.name unset))
      (targetName w e' rq.uid (realPath w e' rq.uid (childPath d argsFrom.name))))).status
  | _ => True

/-- A request that gets `NFS3_OK` has run its body, and hears what the body does. -/
theorem served_hears {m : M L R NfsReply} {fh : NfsFh3} {rq : SvcReq} {refuse : Nfsstat3 → NfsReply}
    {body : CStr → M L R NfsReply} {reply : NfsReply} {s' : Server L R}
    (hcases : (∃ d s1, prep w fh rq s = (.ok (.ok d), s1) ∧ m s = body d s1) ∨
      (∃ st s1, prep w fh rq s = (.ok (.error st), s1) ∧ m s = (.ok (refuse st), s1)) ∨
      ∃ st s1, prep w fh rq s = (.error st, s1) ∧ m s = (.error st, s1))
    (hrun : m s = (.ok reply, s')) (hok : reply.status = .ok) (hf : ∀ st, (refuse st).status = st)
    (hb : ∀ d, Frame Grows (body d)) :
    ∃ d s1, prep w fh rq s = (.ok (.ok d), s1) ∧ body d s1 = (.ok reply, s') ∧
      ∀ Q : RodsCall × RodsReply → Prop, Hears w Q m s ↔ Hears w Q (body d) s1 := by
  rcases hcases with ⟨d, s1, hp, h⟩ | ⟨st, s1, hp, h⟩ | ⟨st, s1, _, h⟩
  · refine ⟨d, s1, hp, by rw [← h, hrun], fun Q => ?_⟩
    have hran : Ran w (Deaf Q) s s1 := (prep_ran (fun c _ => deaf_sys c) fh rq).ok hp
    exact hears_run (by rw [h]) hran (hb d s1)
  · rw [h] at hrun
    simp only [Prod.mk.injEq, Except.ok.injEq] at hrun
    rw [← hrun.1, hf] at hok
    exact absurd hok (prep_refuses hp)
  · rw [h] at hrun
    simp at hrun

theorem hears_replyWith {α : Type} {Q : RodsCall × RodsReply → Prop} (f : α → NfsReply)
    (m : M L R α)
    (s : Server L R) : Hears w Q (replyWith f m) s ↔ Hears w Q m s := by
  rw [Hears, Hears, talk, talk, replyWith_snd]

/-- Operations on a path: the one call they make. -/
theorem PathOp.body_hears {op : PathOp} {rq : SvcReq} {unset : Junk} {d : CStr} {reply : NfsReply}
    {s' : Server L R} (h : s.exports.path = some e)
    (hrun : op.body w rq unset d s = (.ok reply, s')) (hok : reply.status = .ok) :
    (∀ k ∈ op.request.changes, Hears w (Done k) (op.body w rq unset d) s) ↔
      op.request.Answered w rq unset s d := by
  have hexp : exportPath s = e := by rw [exportPath, h]; rfl
  have hm : ∀ k ∈ op.request.changes, Mutating k := fun _ => changes_mutating
  have stops : ∀ {α : Type} {m : M L R α} {f : α → NfsReply}, (∃ st, (m s).1 = .error st) →
      replyWith f m s ≠ (.ok reply, s') := by
    intro α m f hst hm
    obtain ⟨st, hst⟩ := hst
    obtain ⟨a, ha, -⟩ := replyWith_ok hm
    rw [ha] at hst
    cases hst
  cases op with
  | create args how =>
    have hc : Connects w rq := by
      by_contra hn
      exact stops (createBody_stops h hn d args how unset) hrun
    simp only [request, NfsRequest.changes, List.mem_singleton, forall_eq, body, hears_replyWith,
      NfsRequest.Answered, stepAnswer, hexp]
    rw [createBody_hears (hm _ (List.mem_singleton_self _)) h hc]
    exact and_iff_right rfl
  | mkdir args attributes =>
    have hst : mkdirStatus w s d args attributes = .ok := by
      by_contra hn
      obtain ⟨r, s1, h1, _, hr⟩ : ∃ r s1, mkdirBody w d args attributes rq unset s = (.ok r, s1) ∧
          s1.rods = s.rods ∧ r.status ≠ .ok := mkdirBody_refused h d args attributes unset hn
      obtain ⟨r', h1', rfl⟩ := replyWith_ok hrun
      rw [h1] at h1'
      obtain ⟨⟨⟨⟩⟩, rfl⟩ := Prod.mk.inj h1'
      exact hr hok
    have hc : Connects w rq := by
      by_contra hn
      exact stops (mkdirBody_stops h hn d args attributes unset hst) hrun
    simp only [request, NfsRequest.changes, List.mem_singleton, forall_eq, body, hears_replyWith,
      NfsRequest.Answered, stepAnswer, hexp]
    rw [mkdirBody_hears (hm _ (List.mem_singleton_self _)) h hc _ _ _ _
      hst]
    exact and_iff_right rfl
  | remove object =>
    have hc : Connects w rq := by
      by_contra hn
      exact stops (unlinkBody_stops h hn unlinkRemove d object.name unset) hrun
    simp only [request, NfsRequest.changes, List.mem_singleton, forall_eq, body, hears_replyWith,
      NfsRequest.Answered, stepAnswer, hexp]
    rw [unlinkBody_hears (hm _ (List.mem_singleton_self _)) h hc]
    exact and_iff_right rfl
  | rmdir object =>
    have hc : Connects w rq := by
      by_contra hn
      exact stops (unlinkBody_stops h hn unlinkRmdir d object.name unset) hrun
    simp only [request, NfsRequest.changes, List.mem_singleton, forall_eq, body, hears_replyWith,
      NfsRequest.Answered, stepAnswer, hexp]
    rw [unlinkBody_hears (hm _ (List.mem_singleton_self _)) h hc]
    exact and_iff_right rfl
  | rename argsFrom argsTo =>
    obtain ⟨r, hr, rfl⟩ := replyWith_ok hrun
    obtain ⟨⟨ha, hrw⟩, hst, hc, e', he'⟩ := renameBody_ok hr hok
    have hx : targetExport w argsTo rq s = e' := by rw [targetExport, he']; rfl
    simp only [request, NfsRequest.changes, List.mem_singleton, forall_eq, body, hears_replyWith,
      NfsRequest.Answered, hx]
    rw [renameBody_hears (hm _ (List.mem_singleton_self _)) ha hrw hst hc he']
    exact and_iff_right rfl

/-- SETATTR is carried out in iRODS only by the call that sets a mode, and only by itself. -/
theorem setattr_answered_iff {object : NfsFh3} {new : Sattr3} {rq : SvcReq} {d : CStr}
    {unset : Junk}
    (hexp : exportPath s = e) :
    (∀ k ∈ (NfsRequest.setattr object new).changes, new.size = none ∧ new.uid = none ∧
      new.gid = none ∧
      ∃ mode, new.mode = some mode ∧
        k (setattrCall w (targetName w e rq.uid (realPath w e rq.uid d))
          (setattrOwner w d object new rq s) mode (session w e rq.uid s.rods).1) = true ∧
        0 ≤ (answer w e rq.uid s.rods (setattrCall w (targetName w e rq.uid
          (realPath w e rq.uid d)) (setattrOwner w d object new rq s) mode)).status) ↔
    (NfsRequest.setattr object new).Answered w rq unset s d := by
  simp only [NfsRequest.changes, NfsRequest.Answered, hexp, List.mem_append, List.mem_ite_nil_right,
    List.mem_singleton]
  cases hsize : new.size with
  | some n =>
    refine iff_of_false (fun h => ?_) fun h => nomatch h.1
    exact nomatch (h (fun _ => false) (.inl ⟨rfl, rfl⟩)).1
  | none =>
    cases hmode : new.mode with
    | none => simp
    | some mode =>
      constructor
      · intro h
        refine ⟨rfl, ?_⟩
        rintro _ ⟨⟩
        obtain ⟨_, hu, hg, _, ⟨⟩, _, ha⟩ := h RodsCall.isModAccess (.inr ⟨rfl, rfl⟩)
        exact ⟨hu, hg, ha⟩
      · rintro ⟨_, h⟩ k (⟨hs, _⟩ | ⟨_, rfl⟩)
        · cases hs
        · obtain ⟨hu, hg, ha⟩ := h mode rfl
          exact ⟨rfl, hu, hg, mode, rfl, rfl, ha⟩

/-- Requests with a body after `PREP`. -/
theorem served_iff {m : M L R NfsReply} {q : NfsRequest} {fh : NfsFh3} {rq : SvcReq}
    {refuse : Nfsstat3 → NfsReply} {body : CStr → M L R NfsReply} {reply : NfsReply} {unset : Junk}
    {s' : Server L R}
    (hcases : (∃ d s1, prep w fh rq s = (.ok (.ok d), s1) ∧ m s = body d s1) ∨
      (∃ st s1, prep w fh rq s = (.ok (.error st), s1) ∧ m s = (.ok (refuse st), s1)) ∨
      ∃ st s1, prep w fh rq s = (.error st, s1) ∧ m s = (.error st, s1))
    (hrun : m s = (.ok reply, s')) (hok : reply.status = .ok) (hf : ∀ st, (refuse st).status = st)
    (hb : ∀ d, Frame Grows (body d))
    (hbody : ∀ d e (s1 : Server L R), s1.exports.path = some e → body d s1 = (.ok reply, s') →
      ((∀ k ∈ q.changes, Hears w (Done k) (body d) s1) ↔ q.Answered w rq unset s1 d)) :
    (∀ k ∈ q.changes, Hears w (Done k) m s) ↔
      ∀ d s1, prep w fh rq s = (.ok (.ok d), s1) → q.Answered w rq unset s1 d := by
  obtain ⟨d, s1, hp, h1, hears⟩ := served_hears hcases hrun hok hf hb
  obtain ⟨e, he⟩ := prep_path hp
  simp only [hears, hbody d e s1 he h1]
  constructor
  · intro h d' s1' hp'
    rw [hp] at hp'
    obtain ⟨⟨⟨⟩⟩, rfl⟩ := Prod.mk.inj hp'
    exact h
  · exact fun h => h d s1 hp

/-- **What is acknowledged has been done in iRODS** exactly when iRODS has answered so: of a request
that gets `NFS3_OK`, the calls that carry it out have been made and answered with a non-negative
status exactly when `Answered` holds. -/
theorem acknowledged_iff (w : World L R) (rq : SvcReq) (q : NfsRequest) (s s' : Server L R)
    (reply : NfsReply) (hrun : nfsProgram w rq q s = (.ok reply, s')) (hok : reply.status = .ok) :
    (∀ k ∈ q.changes, Hears w (Done k) (nfsProgram w rq q) s) ↔
      ∀ fh, q.target = some fh → ∀ d s1, prep w fh rq s = (.ok (.ok d), s1) →
        q.Answered w rq (w.junk s.tick) s1 d := by
  have pathOp : ∀ op : PathOp, nfsProgram w rq op.request s = (.ok reply, s') →
      ((∀ k ∈ op.request.changes, Hears w (Done k) (nfsProgram w rq op.request) s) ↔
        ∀ d s1, prep w op.args.dir rq s = (.ok (.ok d), s1) →
          op.request.Answered w rq (w.junk s.tick) s1 d) := fun op hop => by
    refine served_iff (op.run_cases rq s) hop hok (fun st => by cases op <;> rfl)
      (fun d => (op.body_ran rq _ d).mono fun _ _ h => h.grows) fun d e s1 he h1 => ?_
    exact PathOp.body_hears he h1 hok
  cases q with
  | setattr object new =>
    simp only [NfsRequest.target, Option.some.injEq, forall_eq']
    refine served_iff (replyWith_withPrep (w := w) .setattr object rq _ _ s) hrun hok (fun _ => rfl)
      (fun d => .bind ?_ fun _ => .pure _) fun d e s1 he h1 => ?_
    · exact setattrBody_frame (fun _ _ => trivial) (fun _ => trivial) (fun _ => trivial) _ _ _ _
    · obtain ⟨r, hr, rfl⟩ := replyWith_ok h1
      have hexp : exportPath s1 = e := by rw [exportPath, he]; rfl
      have hears := fun (k : RodsCall → Bool) (hk : k ∈ (NfsRequest.setattr object new).changes) =>
        setattrBody_hears (w := w) (changes_mutating hk) he hr hok
      simp only [hears_replyWith]
      rw [forall₂_congr hears]
      exact setattr_answered_iff hexp
  | write args =>
    simp only [NfsRequest.target, Option.some.injEq, forall_eq']
    refine served_iff (replyWith_withPrep (w := w) .write args.file rq _ _ s) hrun hok
      (fun _ => rfl) (fun d => .bind ?_ fun _ => .pure _) fun d e s1 he h1 => ?_
    · exact Foot.frame_grows (w := w) (writeBody_frame (E := fun _ => True) (fun _ _ => trivial)
        (fun _ => trivial) (fun _ => trivial) _ _ _)
    · obtain ⟨r, hr, rfl⟩ := replyWith_ok h1
      have hexp : exportPath s1 = e := by rw [exportPath, he]; rfl
      simp only [NfsRequest.changes, List.mem_singleton, forall_eq, hears_replyWith,
        NfsRequest.Answered, hexp]
      exact writeBody_hears he hr hok
  | create args how =>
    simp only [NfsRequest.target, Option.some.injEq, forall_eq']
    exact pathOp (.create args how) hrun
  | mkdir args attributes =>
    simp only [NfsRequest.target, Option.some.injEq, forall_eq']
    exact pathOp (.mkdir args attributes) hrun
  | remove object =>
    simp only [NfsRequest.target, Option.some.injEq, forall_eq']
    exact pathOp (.remove object) hrun
  | rmdir object =>
    simp only [NfsRequest.target, Option.some.injEq, forall_eq']
    exact pathOp (.rmdir object) hrun
  | rename argsFrom argsTo =>
    simp only [NfsRequest.target, Option.some.injEq, forall_eq']
    exact pathOp (.rename argsFrom argsTo) hrun
  | _ => simp [NfsRequest.changes, NfsRequest.target]

end

/-! ## REMOVE of a file of the mirror -/

instance (k : RodsCall → Bool) (x : RodsCall × RodsReply) : Decidable (Done k x) :=
  inferInstanceAs (Decidable (_ ∧ _))

def removeReq : SvcReq := { remote := 1, uid := 7, gid := 7 }

def removeF : NfsRequest :=
  .remove { dir := Sandbox.handle (Sandbox.item (lit "/e") true), name := lit "f" }

/-- A daemon whose mirror has the file `/e/f`, and an iRODS store. -/
def mirrorServer (g : Sandbox.Grid) : Server Sandbox.Kernel Sandbox.Grid :=
  Sandbox.server [Sandbox.item (lit "/e") true]
    { files := [(lit "/e/f", { dev := 1, ino := 2, mode := 0o100644 })] } g

/-- The store that has the file's object. -/
def fullGrid : Sandbox.Grid := { objs := [(lit "/z/home/public/f", .data [1])] }

/-- The run of REMOVE where iRODS has the object, too. -/
theorem acknowledged_remove :
    (∃ reply, (nfsProgram Sandbox.publicWorld removeReq removeF (mirrorServer fullGrid)).1 =
        .ok reply ∧
      reply.status = .ok) ∧
    ∀ k ∈ removeF.changes, Hears Sandbox.publicWorld (Done k)
      (nfsProgram Sandbox.publicWorld removeReq removeF) (mirrorServer fullGrid) := by
  have hx :
    (nfsProgram Sandbox.publicWorld removeReq removeF (mirrorServer fullGrid)).1.toOption.map
      NfsReply.status = some .ok := by decide +kernel
  obtain ⟨reply, hr, hok⟩ := Sandbox.replied hx
  refine ⟨⟨reply, hr, hok⟩, (acknowledged_iff _ _ _ _ _ reply (Prod.ext hr rfl) hok).2 ?_⟩
  rintro _ ⟨⟩ d s1 hp
  have hd : (prep Sandbox.publicWorld (Sandbox.handle (Sandbox.item (lit "/e") true)) removeReq
      (mirrorServer fullGrid)).1.toOption = some (.ok (lit "/e")) := rfl
  have ha : removeF.Answered Sandbox.publicWorld removeReq (Sandbox.publicWorld.junk 0)
      (prep Sandbox.publicWorld (Sandbox.handle (Sandbox.item (lit "/e") true)) removeReq
        (mirrorServer fullGrid)).2 (lit "/e") := by
    change 0 ≤ RodsReply.status _
    decide +kernel
  rw [hp] at hd ha
  cases hd
  exact ha

/-- Where iRODS has no such object it reports so, and REMOVE still replies `NFS3_OK`. -/
theorem remove_acknowledged_undone :
    (nfsProgram Sandbox.publicWorld removeReq removeF (mirrorServer {})).1.toOption.map
      NfsReply.status = some .ok ∧
    ¬ ∀ k ∈ removeF.changes, Hears Sandbox.publicWorld (Done k)
      (nfsProgram Sandbox.publicWorld removeReq removeF) (mirrorServer {}) := by
  refine ⟨by decide +kernel, fun h => ?_⟩
  have hn : ¬ ∃ x ∈ talk Sandbox.publicWorld (nfsProgram Sandbox.publicWorld removeReq removeF)
      (mirrorServer {}), Done RodsCall.isUnlink x := by decide +kernel
  exact hn (h _ (List.mem_singleton_self _))

end NfsRods
