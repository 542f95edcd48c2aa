import NfsRods.Proof.Acknowledge
import NfsRods.Proof.Connection
import NfsRods.Proof.ExportPath
import NfsRods.Proof.Read
import NfsRods.Proof.Shared

/-!
# What a request says on its connection

Each procedure that turns to iRODS connects once, under the export it was let in by, and makes its
calls on that connection. All but READ disconnect it (`Session`), whatever the login answered.

* `Conducted`: a request that turns to iRODS is served with one session; the others say nothing.
* `readBody_conducted`: READ converses and replies without disconnecting.
* `getattrBody_conducted`, `lookupReply_conducted`, `setattrBody_conducted`, `accessBody_conducted`,
  `writeBody_conducted`, `createBody_conducted`, `unlinkBody_conducted`, `mkdirBody_conducted`,
  `renameBody_conducted`, `readdirBody_conducted`: when each of the others turns to iRODS.
-/

namespace NfsRods

open CStr
open Prog (Ends Frame Returns)

section
variable {L R : Type} {w : World L R} {s s' s1 s2 : Server L R} {comm : Comm} {e : CStr}
  {uid : UInt32}

/-! ## Calls on a connection -/

theorem on_sys (c : SysCall) : On comm (.sys c) := noRods_on (noRods_sys c)

theorem on_rods {c : RodsCall} (h : c.comm = some comm) : On comm (.rods c) :=
  fun _ hc => Event.rods.inj hc ▸ h

/-- The run from `s` to `s'` makes calls on `comm`, at least one. -/
def Calls (w : World L R) (comm : Comm) (s s' : Server L R) : Prop :=
  Ran w (On comm) s s' ∧ heard w s s' ≠ []

theorem Calls.after (h : Calls w comm s s1) (h' : Ran w (On comm) s1 s') : Calls w comm s s' := by
  refine ⟨trans_of (Ran w _) h.1 h', ?_⟩
  rw [heard_trans h.1 h'.grows]
  simp [h.2]

theorem rods_calls {c : RodsCall} {r : RodsReply} (hc : c.comm = some comm)
    (h : rods w c s = (.ok r, s')) : Calls w comm s s' :=
  ⟨(rods_frame (on_rods hc)).ok h, by simp [(rods_heard h).2]⟩

/-- A first call, and what follows it. -/
theorem rods_bind_calls {α : Type} {c : RodsCall} {f : RodsReply → M L R α} {x : Except Stop α}
    (hc : c.comm = some comm) (hf : ∀ r, Frame (Ran w (On comm)) (f r))
    (h : (rods w c >>= f) s = (x, s')) : Calls w comm s s' := by
  obtain ⟨r, s1, h1⟩ := rods_returns (w := w) c s
  have hrest := hf r s1
  rw [Prog.bind_ok h1] at h
  rw [h] at hrest
  exact (rods_calls hc h1).after hrest

theorem Session.of_calls {s3 s4 : Server L R} (he : s.exports.path = some e)
    (h1 : connectUser w uid s = (.ok comm, s1)) (r1 : Ran w NoRods s1 s2)
    (h2 : Calls w comm s2 s3) (h3 : rcDisconnect w comm s3 = (.ok (), s4))
    (r4 : Ran w NoRods s4 s') : Session w e uid True s s' :=
  ⟨comm, s3, s4, ⟨s, s1, s2, refl_of (Ran w _) s, he, h1, r1, h2.1, by simpa using h2.2⟩, h3, r4⟩

theorem debug_idle (msg : Msg) : Frame (Ran w NoRods) (debug w msg : M L R Unit) := debug_frame msg

/-- An iRODS name is only built with a zone. -/
theorem getRodsPath_zone {p name : CStr} (he : s.exports.path = some e)
    (h : getRodsPath w uid p s = (.ok name, s')) : w.conf.zone.isSome := by
  by_contra hz
  have hrun := ((getRodsPath_ends (w := w) he uid p).run h).1
  rw [rodsPath_zone_none hz] at hrun
  cases hrun

theorem rodsName_zone {p name : CStr} (he : s.exports.path = some e)
    (h : rodsName w p uid s = (.ok name, s')) : w.conf.zone.isSome := by
  by_contra hz
  have hrun := ((rodsName_ends (w := w) he p uid).run h).1
  rw [rodsPath_zone_none hz] at hrun
  cases hrun

theorem openRods_parts {rq : SvcReq} {p name : CStr} (he : s.exports.path = some e)
    (h : openRods w p rq.uid s = (.ok (comm, name), s')) :
    Connects w rq ∧ ∃ s1, connectUser w rq.uid s = (.ok comm, s1) ∧ Ran w NoRods s1 s' := by
  have hc : Connects w rq := by
    by_contra hn
    obtain ⟨st, hst⟩ := openRods_stops (w := w) he hn p
    rw [h] at hst
    cases hst
  obtain ⟨c, s1, h1, h⟩ := Prog.bind_eq_ok h
  obtain ⟨n, s2, h2, h⟩ := Prog.bind_eq_ok h
  obtain ⟨_, s3, h3, h⟩ := Prog.bind_eq_ok h
  cases h
  exact ⟨hc, s1, h1, trans_of (Ran w _) ((rodsName_frame noRods_path _ _).ok h2)
    ((debug_idle _).ok h3)⟩

/-- How a run from `s` to `s'` was served: with a session when it turned to iRODS. -/
def Conducted (w : World L R) (e : CStr) (rq : SvcReq) (turns used : Prop) (s s' : Server L R) :
    Prop :=
  (turns → Connects w rq ∧ Session w e rq.uid used s s') ∧ (¬ turns → Ran w NoRods s s')

/-! ## GETATTR and LOOKUP -/

theorem remoteSize_session {name : CStr} {size : Int} (he : s.exports.path = some e)
    (h : remoteSize w name uid s = (.ok size, s')) :
    Known w uid ∧ Session w e uid True s s' := by
  obtain ⟨comm, s1, h1, h⟩ := Prog.bind_eq_ok h
  obtain ⟨_, s2, h2, h⟩ := Prog.bind_eq_ok h
  obtain ⟨_, s3, h3, h⟩ := Prog.bind_eq_ok h
  cases h
  have c2 : Calls w comm s1 s2 := rods_bind_calls rfl (fun _ => .pure _) h2
  exact ⟨connectUser_known he h1,
    .of_calls he h1 (refl_of (Ran w _) s1) c2 h3 (refl_of (Ran w _) _)⟩

theorem getPostBuf_type {buf : Stat} {rq : SvcReq} {post : PostOpAttr}
    (h : getPostBuf w buf rq s = (.ok post, s')) : post.attributes.type = ftype buf := by
  obtain ⟨_, s1, _, h⟩ := Prog.bind_eq_ok h
  obtain ⟨_, s2, _, h⟩ := Prog.bind_eq_ok h
  obtain ⟨_, s3, _, h⟩ := Prog.bind_eq_ok h
  cases h
  rfl

/-- What GETATTR asks iRODS the size of: a regular file in the stat cache. -/
def CachedReg (s : Server L R) : Prop := s.stCacheValid = true ∧ ftype s.stCache = .reg

theorem getPostCached_type {rq : SvcReq} {post : PostOpAttr}
    (h : getPostCached w rq s = (.ok post, s')) :
    post.attributes.type = .reg ↔ CachedReg s := by
  rw [getPostCached, Prog.get_bind_run, Prog.ite_run] at h
  split at h
  · rename_i hv
    cases h
    exact iff_of_false (by decide) fun hc => by simp [hc.1] at hv
  · rename_i hv
    rw [getPostBuf_type h, CachedReg]
    exact (and_iff_right (by simpa using hv)).symm

theorem getattrBody_conducted {path : CStr} {rq : SvcReq} {r : Getattr3res}
    (he : s.exports.path = some e) (h : getattrBody w path rq s = (.ok r, s')) :
    Conducted w e rq (CachedReg s) True s s' := by
  obtain ⟨_, s1, h1, h⟩ := Prog.bind_eq_ok h
  obtain ⟨_, s2, h2, h⟩ := Prog.bind_eq_ok h
  obtain ⟨_, s3, h3, h⟩ := Prog.bind_eq_ok h
  obtain ⟨_, s4, h4, h⟩ := Prog.bind_eq_ok h
  obtain ⟨post, s5, h5, h⟩ := Prog.bind_eq_ok h
  have t1 : Tacit s s1 := ((rodsName_ends (w := w) he _ _).run h1).2
  have e1 : s1.exports.path = some e := by rw [t1.exports, he]
  have t2 : Tacit s1 s2 := ((getRealPathNFS_ends (w := w) e1 _ _).run h2).2
  have t3 : Tacit s2 s3 := ((debug_tacit (w := w) _ s2).run h3).2
  have t4 : Tacit s3 s4 := ((debug_tacit (w := w) _ s3).run h4).2
  have t : Tacit s s4 := trans_of Tacit t1 (trans_of Tacit t2 (trans_of Tacit t3 t4))
  have f5 : Foot w NoRods s4 s5 := (getPostCached_frame _).ok h5
  have r5 : Ran w NoRods s s5 := trans_of (Ran w _) ((rodsName_frame noRods_path _ _).ok h1)
    (trans_of (Ran w _) ((getRealPathNFS_frame noRods_path _ _).ok h2)
      (trans_of (Ran w _) ((debug_idle _).ok h3) (trans_of (Ran w _) ((debug_idle _).ok h4)
        ((getPostCached_frame _).ok h5))))
  have htype : post.attributes.type = .reg ↔ CachedReg s := by
    rw [getPostCached_type h5, CachedReg, t.stCacheValid, t.stCache, CachedReg]
  rw [Prog.ite_run] at h
  split at h
  · rename_i hreg
    obtain ⟨size, s6, h6, h⟩ := Prog.bind_eq_ok h
    obtain ⟨_, s7, h7, h⟩ := Prog.bind_eq_ok h
    cases h
    obtain ⟨hk, hs⟩ := remoteSize_session (by rw [f5.exports, t.exports, he]) h6
    refine ⟨fun _ => ⟨⟨hk, rodsName_zone he h1⟩, ?_⟩, fun hn => absurd (htype.1 hreg) hn⟩
    exact (hs.before r5).after ((debug_idle _).ok h7)
  · rename_i hreg
    obtain ⟨_, s7, h7, h⟩ := Prog.bind_eq_ok h
    cases h
    exact ⟨fun hc => absurd (htype.2 hc) hreg,
      fun _ => trans_of (Ran w _) r5 ((debug_idle _).ok h7)⟩

/-- LOOKUP up to where it decides whether to ask iRODS for a size. -/
def lookupSoFar (w : World L R) (what : Diropargs3) (dir : CStr) (rq : SvcReq) :
    M L R (CStr × (Nfsstat3 × Option Unfs3Fh) × PostOpAttr) := do
  debug w "LOOKUP PATH %s"
  let rodspath ← getRodsPath w rq.uid dir
  debug w "LOOKUP irodspath %s"
  let path ← getRealPathNFS w dir rq.uid
  debug w "LOOKUP path %s"
  let r ← lookupLocal w what path rq
  let dirAttributes ← getPostStat w (some path) rq
  pure (rodspath, r, dirAttributes)

theorem lookupBody_split (what : Diropargs3) (dir : CStr) (rq : SvcReq) :
    lookupBody w what dir rq = lookupSoFar w what dir rq >>= fun x =>
      lookupReply w x.1 x.2.1 x.2.2 rq := by
  rw [lookupBody, lookupSoFar]
  simp only [Prog.bind_assoc]
  rfl

theorem lookupSoFar_idle (what : Diropargs3) (dir : CStr) (rq : SvcReq) :
    Frame (Ran w NoRods) (lookupSoFar w what dir rq) := by
  refine .bind (debug_idle _) fun _ => .bind (getRodsPath_frame noRods_path _ _) fun _ => ?_
  refine .bind (debug_idle _) fun _ => .bind (getRealPathNFS_frame noRods_path _ _) fun _ => ?_
  refine .bind (debug_idle _) fun _ => .bind (lookupLocal_ran _ _ _) fun _ => ?_
  exact .bind (getPostStat_frame _ _) fun _ => .pure _

/-- LOOKUP asks for a size when its static result describes a regular file after the local step;
that step can change the export. -/
theorem lookupReply_conducted {rodspath : CStr} {x : Nfsstat3 × Option Unfs3Fh} {a : PostOpAttr}
    {rq : SvcReq} {r : Lookup3res} (h : lookupReply w rodspath x a rq s = (.ok r, s')) :
    (s.lookupAttr.attributes.type = .reg → ∃ e, s.exports.path = some e ∧ Known w rq.uid ∧
      Session w e rq.uid True s s') ∧
    (s.lookupAttr.attributes.type ≠ .reg → Ran w NoRods s s') := by
  rw [lookupReply, Prog.get_bind_run] at h
  obtain ⟨_, s1, h1, h⟩ := Prog.bind_eq_ok h
  have r2 : Ran w NoRods s1 s' := (Frame.bind (debug_idle _) fun _ => .bind .get fun _ =>
    .pure _).ok h
  rw [Prog.when, Prog.ite_run] at h1
  split at h1
  · rename_i hreg
    obtain ⟨size, s2, h2, h1⟩ := Prog.bind_eq_ok h1
    have r1 : Ran w NoRods s2 s1 := by
      refine Frame.ok ?_ h1
      exact modify_frame fun _ => ⟨rfl, rfl, rfl, rfl, rfl, rfl⟩
    cases he : s.exports.path with
    | none =>
      obtain ⟨s3, h3, _⟩ := (connectUser_crashes (w := w) he rq.uid).bind fun comm =>
        fileSize w rodspath comm >>= fun size => rcDisconnect w comm >>= fun _ => pure size
      rw [remoteSize, h3] at h2
      cases h2
    | some e =>
      obtain ⟨hk, hs⟩ := remoteSize_session he h2
      exact ⟨fun _ => ⟨e, rfl, hk, (hs.after r1).after r2⟩, fun hn => absurd hreg hn⟩
  · rename_i hreg
    cases h1
    exact ⟨fun h => absurd h hreg, fun _ => r2⟩

/-! ## ACCESS -/

theorem getFile_calls {localPath objPath : CStr} {verify force : Bool} {st : Int}
    (h : getFile w localPath objPath verify force comm s = (.ok st, s')) :
    Calls w comm s s' := by
  refine rods_bind_calls rfl (fun r => .bind (.when fun _ => ?_) fun _ => .pure _) h
  exact .bind (sys_frame (E := On comm) (on_sys _)) fun _ => .pure _

theorem accessBody_conducted {path : CStr} {access : Nat} {rq : SvcReq} {r : Access3res}
    (he : s.exports.path = some e) (h : accessBody w path access rq s = (.ok r, s')) :
    Connects w rq ∧ Session w e rq.uid True s s' := by
  obtain ⟨_, s1, h1, h⟩ := Prog.bind_eq_ok h
  obtain ⟨_, s2, h2, h⟩ := Prog.bind_eq_ok h
  obtain ⟨⟨comm, name⟩, s3, h3, h⟩ := Prog.bind_eq_ok h
  obtain ⟨_, s4, h4, h⟩ := Prog.bind_eq_ok h
  obtain ⟨_, s5, h5, h⟩ := Prog.bind_eq_ok h
  have t1 : Tacit s s1 := ((getRealPathNFS_ends (w := w) he _ _).run h1).2
  have t2 : Tacit s1 s2 := ((debug_tacit (w := w) _ s1).run h2).2
  have e2 : s2.exports.path = some e := by rw [t2.exports, t1.exports, he]
  obtain ⟨hc, s0, h0, r0⟩ := openRods_parts e2 h3
  have r5 : Ran w NoRods s5 s' := (Frame.bind (getPostCached_frame _) fun _ => .bind .get fun _ =>
    .bind (debug_idle _) fun _ => .pure _).ok h
  refine ⟨hc, (Session.of_calls e2 h0 r0 (getFile_calls h4) h5 r5).before ?_⟩
  exact trans_of (Ran w _) ((getRealPathNFS_frame noRods_path _ _).ok h1) ((debug_idle _).ok h2)

/-! ## READ -/

/-- READ never disconnects. -/
theorem readRemote_converses {path : CStr} {offset count : Nat} {rq : SvcReq}
    {x : Nfsstat3 × Option (Int × List UInt8)} (he : s.exports.path = some e)
    (h : readRemote w path offset count rq s = (.ok x, s')) :
    Connects w rq ∧ ∃ comm, Converses w e rq.uid True comm s s' := by
  obtain ⟨comm, s1, h1, h⟩ := Prog.bind_eq_ok h
  obtain ⟨_, s2, h2, h⟩ := Prog.bind_eq_ok h
  obtain ⟨_, s3, h3, h⟩ := Prog.bind_eq_ok h
  obtain ⟨_, s4, h4, h⟩ := Prog.bind_eq_ok h
  have hk : Known w rq.uid := connectUser_known he h1
  have e1 : s1.exports.path = some e := by
    rw [((connectUser_ends (w := w) he hk).run h1).2.1.exports, he]
  have t2 : Tacit s1 s2 := ((getRealPathNFS_ends (w := w) e1 _ _).run h2).2
  have t3 : Tacit s2 s3 := ((debug_tacit (w := w) _ s2).run h3).2
  have e3 : s3.exports.path = some e := by rw [t3.exports, t2.exports, e1]
  have r4 : Ran w NoRods s1 s4 := trans_of (Ran w _)
    ((getRealPathNFS_frame noRods_path _ _).ok h2) (trans_of (Ran w _) ((debug_idle _).ok h3)
      ((rodsName_frame noRods_path _ _).ok h4))
  have c : Calls w comm s4 s' := by
    refine rods_bind_calls rfl (fun o => .ite (fun _ => .bind .get fun _ => .pure _) fun _ => ?_) h
    refine .bind (rods_frame (E := On comm) (on_rods rfl)) fun _ => .ite (fun _ => .pure _)
      fun _ => ?_
    exact .bind .get fun _ => .pure _
  exact ⟨⟨hk, rodsName_zone e3 h4⟩, comm, s, s1, s4, refl_of (Ran w _) s, he, h1, r4, c.1,
    by simpa using c.2⟩

theorem readBody_conducted {path : CStr} {offset count : Nat} {rq : SvcReq} {unset : Int}
    {r : Read3res} (he : s.exports.path = some e)
    (h : readBody w path offset count rq unset s = (.ok r, s')) :
    (isReg s = .ok → Connects w rq ∧ ∃ comm s1, Converses w e rq.uid True comm s s1 ∧
      Ran w NoRods s1 s') ∧ (isReg s ≠ .ok → Ran w NoRods s s') := by
  rw [readBody, Prog.get_bind_run] at h
  obtain ⟨_, s1, h1, h⟩ := Prog.bind_eq_ok h
  obtain ⟨_, s2, h2, h⟩ := Prog.bind_eq_ok h
  obtain ⟨x, s3, h3, h⟩ := Prog.bind_eq_ok h
  have f1 : Foot w NoRods s s1 := (readExecutable_frame (fun c _ => noRods_sys c) _ _).ok h1
  have f2 : Foot w NoRods s1 s2 := (accessByOwner_frame (fun c _ => noRods_sys c) _ _ _).ok h2
  have r2 : Ran w NoRods s s2 := trans_of (Ran w _)
    ((readExecutable_frame (fun c _ => noRods_sys c) _ _).ok h1)
    ((accessByOwner_frame (fun c _ => noRods_sys c) _ _ _).ok h2)
  have r4 : Ran w NoRods s3 s' := (Frame.bind (getPostStat_frame _ _) fun _ =>
    .bind (debug_idle _) fun _ => .pure _).ok h
  rw [Prog.ite_run] at h3
  split at h3
  · rename_i hreg
    obtain ⟨hc, comm, hcon⟩ := readRemote_converses (by rw [f2.exports, f1.exports, he]) h3
    exact ⟨fun _ => ⟨hc, comm, s3, hcon.before r2, r4⟩, fun hn => absurd hreg hn⟩
  · rename_i hreg
    cases h3
    exact ⟨fun hr => absurd hr hreg, fun _ => trans_of (Ran w _) r2 r4⟩

/-! ## SETATTR -/

/-- Nothing but a mode is to be set. -/
def ModeOnly (new : Sattr3) : Prop :=
  new.size = none ∧ new.uid = none ∧ new.gid = none ∧ new.mode.isSome

theorem setAttrIrods_on (name owner : CStr) (new : Sattr3) :
    Frame (Ran w (On comm)) (setAttrIrods w name new owner comm) := by
  refine .ite (fun _ => setattrFail_frame) fun _ => .ite (fun _ => setattrFail_frame) fun _ => ?_
  cases new.mode with
  | none => exact .pure _
  | some mode =>
    refine .bind (.bind (debug_frame _) fun _ => .bind (debug_frame _) fun _ =>
      .bind (debug_frame _) fun _ => ?_) fun _ => .ite (fun _ => setattrFail_frame) fun _ => .pure _
    exact .bind (rods_frame (E := On comm) (on_rods rfl)) fun _ => .pure _

/-- `set_attr_irods` makes its call when nothing but the mode is to be set. -/
theorem setAttrIrods_silent {name owner : CStr} {new : Sattr3} {st : Nfsstat3}
    (h : setAttrIrods w name new owner comm s = (.ok st, s')) :
    heard w s s' = [] ↔ ¬ ModeOnly new := by
  have hears := setAttrIrods_hears (w := w) (Q := fun _ => True) name owner new comm s
  rw [Hears, talk, h] at hears
  simp only [and_true] at hears
  rw [ModeOnly, Option.isSome_iff_exists, ← hears, List.eq_nil_iff_forall_not_mem, not_exists]
  rfl

theorem setattrWrite_conducted {path : CStr} {object : NfsFh3} {new : Sattr3} {rq : SvcReq}
    {st : Nfsstat3} (he : s.exports.path = some e)
    (h : setattrWrite w path object new rq s = (.ok st, s')) :
    Connects w rq ∧ Session w e rq.uid (ModeOnly new) s s' := by
  obtain ⟨_, s1, h1, h⟩ := Prog.bind_eq_ok h
  obtain ⟨⟨comm, name⟩, s2, h2, h⟩ := Prog.bind_eq_ok h
  have f1 : Foot w NoRods s s1 := (setAttr_frame noRods_sys _ _ _).ok h1
  have e1 : s1.exports.path = some e := by rw [f1.exports, he]
  obtain ⟨hc, s0, h0, r0⟩ := openRods_parts e1 h2
  dsimp only at h
  rw [if_neg (getUserName_known hc.1)] at h
  obtain ⟨j, s3, h3, h⟩ := Prog.bind_eq_ok h
  obtain ⟨_, s4, h4, h⟩ := Prog.bind_eq_ok h
  obtain ⟨_, s5, h5, h⟩ := Prog.bind_eq_ok h
  cases h
  have r3 : Ran w NoRods s0 s3 := trans_of (Ran w _) r0 (junk_frame.ok h3)
  refine ⟨hc, comm, s4, s', ⟨s1, s0, s3, ?_, e1, h0, r3, (setAttrIrods_on _ _ _).ok h4,
    setAttrIrods_silent h4⟩, h5, refl_of (Ran w _) _⟩
  exact (setAttr_frame noRods_sys _ _ _).ok h1

theorem setattrBody_conducted {path : CStr} {object : NfsFh3} {new : Sattr3} {rq : SvcReq}
    {r : Setattr3res} (he : s.exports.path = some e)
    (h : setattrBody w path object new rq s = (.ok r, s')) :
    Conducted w e rq (exportsRw s.exports = .ok) (ModeOnly new) s s' := by
  obtain ⟨_, s1, h1, h⟩ := Prog.bind_eq_ok h
  obtain ⟨_, s2, h2, h⟩ := Prog.bind_eq_ok h
  rw [Prog.get_bind_run] at h
  obtain ⟨st, s3, h3, h⟩ := Prog.bind_eq_ok h
  have t1 : Tacit s s1 := ((getRealPathNFS_ends (w := w) he _ _).run h1).2
  have t2 : Tacit s1 s2 := ((debug_tacit (w := w) _ s1).run h2).2
  have x2 : s2.exports = s.exports := by rw [t2.exports, t1.exports]
  have r2 : Ran w NoRods s s2 := trans_of (Ran w _)
    ((getRealPathNFS_frame noRods_path _ _).ok h1) ((debug_idle _).ok h2)
  have r4 : Ran w NoRods s3 s' := (Frame.bind (getPostStat_frame _ _) fun _ =>
    .bind (debug_idle _) fun _ => .pure _).ok h
  rw [x2, Prog.ite_run] at h3
  split at h3
  · rename_i hrw
    obtain ⟨hc, hs⟩ := setattrWrite_conducted (by rw [x2, he]) h3
    exact ⟨fun _ => ⟨hc, (hs.before r2).after r4⟩, fun hn => absurd hrw hn⟩
  · rename_i hrw
    cases h3
    exact ⟨fun hr => absurd hr hrw, fun _ => trans_of (Ran w _) r2 r4⟩

/-! ## WRITE -/

/-- WRITE up to where it turns to iRODS; the descriptor, or -1. -/
def writeSoFar (w : World L R) (path : CStr) (args : Write3args) (rq : SvcReq) : M L R Int := do
  let path ← getRealPathNFS w path rq.uid
  debug w "ACCESS PATH %s"
  let s ← Prog.get
  writeByOwner w rq s.stCache
  fdOpen w path args.file .write (args.stable = .unstable)

theorem iWrite_calls {name : CStr} {data : List UInt8} {offset st : Int}
    (h : iWrite w name data offset comm s = (.ok st, s')) : Calls w comm s s' := by
  have call : ∀ c : RodsCall, c.comm = some comm → Frame (Ran w (On comm)) (rods w c) :=
    fun c hc => rods_frame (E := On comm) (on_rods hc)
  refine rods_bind_calls rfl (fun _ => .bind (call _ rfl) fun _ => ?_) h
  refine .ite (fun _ => .pure _) fun _ => .bind (call _ rfl) fun _ => ?_
  exact .ite (fun _ => .pure _) fun _ => .bind (call _ rfl) fun _ => .pure _

theorem writeFd_conducted {path : CStr} {args : Write3args} {rq : SvcReq} {fd : Int}
    {x : Int × Int} (he : s.exports.path = some e)
    (h : writeFd w path args rq fd s = (.ok x, s')) :
    Connects w rq ∧ Session w e rq.uid True s s' := by
  obtain ⟨_, s1, h1, h⟩ := Prog.bind_eq_ok h
  obtain ⟨⟨comm, name⟩, s2, h2, h⟩ := Prog.bind_eq_ok h
  obtain ⟨_, s3, h3, h⟩ := Prog.bind_eq_ok h
  obtain ⟨_, s4, h4, h⟩ := Prog.bind_eq_ok h
  obtain ⟨_, s5, h5, h⟩ := Prog.bind_eq_ok h
  obtain ⟨_, s6, h6, h⟩ := Prog.bind_eq_ok h
  have f1 : Foot w NoRods s s1 := (sys_frame (noRods_sys _)).ok h1
  have e1 : s1.exports.path = some e := by rw [f1.exports, he]
  obtain ⟨hc, s0, h0, r0⟩ := openRods_parts e1 h2
  have c5 : Calls w comm s2 s5 :=
    ((iWrite_calls h3).after ((debug_frame _).ok h4)).after ((debug_frame _).ok h5)
  have r6 : Ran w NoRods s6 s' :=
    (Frame.bind (fdClose_frame (fun c _ => noRods_sys c) _ _ _) fun _ => .pure _).ok h
  exact ⟨hc, (Session.of_calls e1 h0 r0 c5 h6 r6).before ((sys_frame (noRods_sys _)).ok h1)⟩

theorem writeBody_conducted {path : CStr} {args : Write3args} {rq : SvcReq} {r : Write3res}
    (he : s.exports.path = some e) (h : writeBody w path args rq s = (.ok r, s')) :
    Conducted w e rq (join (isReg s) (exportsRw s.exports) = .ok ∧
      (writeSoFar w path args rq s).1 ≠ .ok (-1)) True s s' := by
  obtain ⟨real, s1, h1, h⟩ := Prog.bind_eq_ok h
  obtain ⟨_, s2, h2, h⟩ := Prog.bind_eq_ok h
  rw [Prog.get_bind_run] at h
  obtain ⟨_, s3, h3, h⟩ := Prog.bind_eq_ok h
  obtain ⟨res, s4, h4, h⟩ := Prog.bind_eq_ok h
  have t1 : Tacit s s1 := ((getRealPathNFS_ends (w := w) he _ _).run h1).2
  have t2 : Tacit s s2 := trans_of Tacit t1 ((debug_tacit (w := w) _ s1).run h2).2
  have hreg : isReg s2 = isReg s := by rw [isReg, t2.stCacheValid, t2.stCache, isReg]
  have f3 : Foot w NoRods s2 s3 := (accessByOwner_frame (fun c _ => noRods_sys c) _ _ _).ok h3
  have r3 : Ran w NoRods s s3 := trans_of (Ran w _) ((getRealPathNFS_frame noRods_path _ _).ok h1)
    (trans_of (Ran w _) ((debug_idle _).ok h2)
      ((accessByOwner_frame (fun c _ => noRods_sys c) _ _ _).ok h3))
  have r5 : Ran w NoRods s4 s' := (Frame.bind .get fun _ => .bind (getPostStat_frame _ _) fun _ =>
    .bind (debug_idle _) fun _ => .pure _).ok h
  rw [hreg, t2.exports, Prog.ite_run] at h4
  split at h4
  · rename_i hst
    obtain ⟨fd, s5, h5, h4⟩ := Prog.bind_eq_ok h4
    have f5 : Foot w NoRods s3 s5 := (fdOpen_frame (fun c _ => noRods_sys c) _ _ _ _).ok h5
    have r5' : Ran w NoRods s3 s5 := (fdOpen_frame (fun c _ => noRods_sys c) _ _ _ _).ok h5
    have hfd : (writeSoFar w path args rq s).1 = .ok fd := by
      rw [writeSoFar, Prog.bind_ok h1, Prog.bind_ok h2, Prog.get_bind_run, Prog.bind_ok h3, h5]
    rw [hfd, Prog.ite_run] at *
    split at h4
    · rename_i hopen
      obtain ⟨x, s6, h6, h4⟩ := Prog.bind_eq_ok h4
      have e5 : s5.exports.path = some e := by rw [f5.exports, f3.exports, t2.exports, he]
      obtain ⟨hc, hs⟩ := writeFd_conducted e5 h6
      have r6 : Ran w NoRods s6 s4 := (Frame.bind .get fun _ =>
        .ite (fun _ => .pure _) fun _ => .pure _).ok h4
      refine ⟨fun _ => ⟨hc, ((hs.before ?_).after r6).after r5⟩, fun hn => ?_⟩
      · exact trans_of (Ran w _) r3 r5'
      · exact absurd ⟨hst, by simpa using hopen⟩ hn
    · rename_i hopen
      have r6 : Ran w NoRods s5 s4 := (Frame.bind .get fun _ => .pure _).ok h4
      refine ⟨fun hn => absurd (by simpa using hn.2) hopen, fun _ => ?_⟩
      exact trans_of (Ran w _) (trans_of (Ran w _) r3 r5') (trans_of (Ran w _) r6 r5)
  · rename_i hst
    cases h4
    exact ⟨fun hn => absurd hn.1 hst, fun _ => trans_of (Ran w _) r3 r5⟩

/-! ## CREATE, REMOVE, RMDIR and MKDIR -/

theorem remoteStep_conducted {rq : SvcReq} {call : CStr → Comm → RodsCall} {obj : CStr}
    (hc : ∀ name comm, (call name comm).comm = some comm) (he : s.exports.path = some e)
    (h : remoteStep w call obj rq s = (.ok (), s')) :
    Connects w rq ∧ Session w e rq.uid True s s' := by
  obtain ⟨⟨comm, name⟩, s1, h1, h⟩ := Prog.bind_eq_ok h
  obtain ⟨hcon, s0, h0, r0⟩ := openRods_parts he h1
  obtain ⟨_, s2, h2, h⟩ := Prog.bind_eq_ok h
  obtain ⟨_, s3, h3, h⟩ := Prog.bind_eq_ok h
  have c2 : Calls w comm s1 s2 := rods_bind_calls (hc name comm) (fun _ => .pure _) h2
  exact ⟨hcon, .of_calls he h0 r0 (c2.after ((debug_frame _).ok h3)) h (refl_of (Ran w _) _)⟩

theorem rewriteObj_idle (filled : Bool) (obj : CStr) (uid : UInt32) :
    Frame (Ran w NoRods) (rewriteObj w filled obj uid) :=
  rewriteObj_frame noRods_path noRods_toArray _ _ _

theorem createBody_conducted {path : CStr} {args : Diropargs3} {how : Createhow3} {rq : SvcReq}
    {unset : Junk} {r : Create3res} (he : s.exports.path = some e)
    (h : createBody w path args how rq unset s = (.ok r, s')) :
    Connects w rq ∧ Session w e rq.uid True s s' := by
  rw [createBody, Prog.get_bind_run] at h
  obtain ⟨obj, s1, h1, h⟩ := Prog.bind_eq_ok h
  obtain ⟨fd, s2, h2, h⟩ := Prog.bind_eq_ok h
  obtain ⟨_, s3, h3, h⟩ := Prog.bind_eq_ok h
  have t1 : Tacit s s1 := ((rewriteObj_ends (w := w) he _ _ _).run h1).2
  have f2 : Foot w NoRods s1 s2 := (createOpen_frame noRods_sys _ _ _ _).ok h2
  have r2 : Ran w NoRods s s2 :=
    trans_of (Ran w _) ((rewriteObj_idle _ _ _).ok h1) (f2.ran.mono fun _ h => h.1)
  have r3 : Ran w NoRods s3 s' := by
    refine Foot.frame_ran ?_ |>.ok h
    refine .bind (createFinish_foot (fun c _ => noRods_sys c) (fun _ _ _ => noRods_sys _) _ _ _ _ _
      _) fun _ => .bind .get fun _ => ?_
    exact .bind (getPostStat_frame _ _) fun _ => .bind (debug_frame _) fun _ => .pure _
  obtain ⟨hc, hs⟩ := remoteStep_conducted (fun _ _ => rfl)
    (by rw [f2.exports, t1.exports, he]) h3
  exact ⟨hc, (hs.before r2).after r3⟩

theorem unlinkBody_conducted {u : Unlink} {path name : CStr} {rq : SvcReq} {unset : Junk}
    {r : Remove3res} (hu : ∀ name comm, (u.remote name comm).comm = some comm)
    (he : s.exports.path = some e) (h : unlinkBody w u path name rq unset s = (.ok r, s')) :
    Connects w rq ∧ Session w e rq.uid True s s' := by
  rw [unlinkBody, Prog.get_bind_run] at h
  obtain ⟨obj, s1, h1, h⟩ := Prog.bind_eq_ok h
  obtain ⟨_, s2, h2, h⟩ := Prog.bind_eq_ok h
  obtain ⟨st, s3, h3, h⟩ := Prog.bind_eq_ok h
  obtain ⟨_, s4, h4, h⟩ := Prog.bind_eq_ok h
  have t1 : Tacit s s1 := ((rewriteObj_ends (w := w) he _ _ _).run h1).2
  have t2 : Tacit s1 s2 := ((debug_tacit (w := w) _ s1).run h2).2
  have f3 : Foot w NoRods s2 s3 := (unlinkLocal_frame noRods_sys _ _ _).ok h3
  have r3 : Ran w NoRods s s3 := trans_of (Ran w _) ((rewriteObj_idle _ _ _).ok h1)
    (trans_of (Ran w _) ((debug_idle _).ok h2) (f3.ran.mono fun _ h => h.1))
  have r4 : Ran w NoRods s4 s' := (Frame.bind .get fun _ => .bind (getPostStat_frame _ _) fun _ =>
    .bind (debug_idle _) fun _ => .pure _).ok h
  obtain ⟨hc, hs⟩ := remoteStep_conducted hu
    (by rw [f3.exports, t2.exports, t1.exports, he]) h4
  exact ⟨hc, (hs.before r3).after r4⟩

theorem mkdirMake_conducted {dir : NfsFh3} {obj : CStr} {attributes : Sattr3} {rq : SvcReq}
    {r : Create3res} (he : s.exports.path = some e)
    (h : mkdirMake w dir obj attributes rq s = (.ok r, s')) :
    Connects w rq ∧ Session w e rq.uid True s s' := by
  obtain ⟨_, s1, h1, h⟩ := Prog.bind_eq_ok h
  obtain ⟨_, s2, h2, h⟩ := Prog.bind_eq_ok h
  have f1 : Foot w NoRods s s1 := (sys_frame (noRods_sys _)).ok h1
  have r2 : Ran w NoRods s2 s' := by
    refine Frame.ok (.ite (fun _ => .bind .get fun _ => .pure _) fun _ => ?_) h
    refine .bind (Foot.frame_ran (fhExtendType_frame _ _ _)) fun _ => ?_
    exact .bind (getPostCached_frame _) fun _ => .pure _
  obtain ⟨hc, hs⟩ := remoteStep_conducted (fun _ _ => rfl) (by rw [f1.exports, he]) h2
  exact ⟨hc, (hs.before (f1.ran.mono fun _ h => h.1)).after r2⟩

theorem mkdirBody_conducted {path : CStr} {args : Diropargs3} {attributes : Sattr3} {rq : SvcReq}
    {unset : Junk} {r : Create3res} (he : s.exports.path = some e)
    (h : mkdirBody w path args attributes rq unset s = (.ok r, s')) :
    Conducted w e rq (mkdirStatus w s path args attributes = .ok) True s s' := by
  rw [mkdirBody, Prog.get_bind_run] at h
  obtain ⟨obj, s1, h1, h⟩ := Prog.bind_eq_ok h
  obtain ⟨_, s2, h2, h⟩ := Prog.bind_eq_ok h
  obtain ⟨res, s3, h3, h⟩ := Prog.bind_eq_ok h
  rw [← mkdirStatus] at h3
  have t1 : Tacit s s1 := ((rewriteObj_ends (w := w) he _ _ _).run h1).2
  have t2 : Tacit s1 s2 := ((debug_tacit (w := w) _ s1).run h2).2
  have r2 : Ran w NoRods s s2 :=
    trans_of (Ran w _) ((rewriteObj_idle _ _ _).ok h1) ((debug_idle _).ok h2)
  have r4 : Ran w NoRods s3 s' := by
    refine Foot.frame_ran ?_ |>.ok h
    exact .bind (getPostLl_frame _ _ _ _) fun _ => .bind (debug_frame _) fun _ => .pure _
  rw [Prog.ite_run] at h3
  split at h3
  · rename_i hst
    obtain ⟨hc, hs⟩ := mkdirMake_conducted (by rw [t2.exports, t1.exports, he]) h3
    exact ⟨fun _ => ⟨hc, (hs.before r2).after r4⟩, fun hn => absurd hst hn⟩
  · rename_i hst
    cases h3
    exact ⟨fun hr => absurd hr hst, fun _ => trans_of (Ran w _) r2 r4⟩

/-! ## RENAME -/

theorem renameRemote_conducted {fromObj toObj : CStr} {rq : SvcReq} {st : Int}
    (he : s.exports.path = some e) (h : renameRemote w fromObj toObj rq s = (.ok st, s')) :
    Connects w rq ∧ Session w e rq.uid True s s' := by
  obtain ⟨comm, s1, h1, h⟩ := Prog.bind_eq_ok h
  obtain ⟨_, s2, h2, h⟩ := Prog.bind_eq_ok h
  obtain ⟨_, s3, h3, h⟩ := Prog.bind_eq_ok h
  obtain ⟨_, s4, h4, h⟩ := Prog.bind_eq_ok h
  obtain ⟨_, s5, h5, h⟩ := Prog.bind_eq_ok h
  obtain ⟨_, s6, h6, h⟩ := Prog.bind_eq_ok h
  obtain ⟨_, s7, h7, h⟩ := Prog.bind_eq_ok h
  have hk : Known w rq.uid := connectUser_known he h1
  have e1 : s1.exports.path = some e := by
    rw [((connectUser_ends (w := w) he hk).run h1).2.1.exports, he]
  have r5 : Ran w NoRods s1 s5 := trans_of (Ran w _) ((rodsName_frame noRods_path _ _).ok h2)
    (trans_of (Ran w _) ((rodsName_frame noRods_path _ _).ok h3)
      (trans_of (Ran w _) ((debug_idle _).ok h4) ((debug_idle _).ok h5)))
  have c6 : Calls w comm s5 s6 := rods_bind_calls rfl (fun _ => .pure _) h6
  have r8 : Ran w NoRods s7 s' := (Frame.bind (debug_idle _) fun _ => .pure _).ok h
  exact ⟨⟨hk, rodsName_zone e1 h2⟩, .of_calls he h1 r5 c6 h7 r8⟩

theorem renameMove_conducted {fromObj toObj : CStr} {rq : SvcReq} {st : Nfsstat3}
    (he : s.exports.path = some e) (h : renameMove w fromObj toObj rq s = (.ok st, s')) :
    Connects w rq ∧ Session w e rq.uid True s s' := by
  obtain ⟨_, s1, h1, h⟩ := Prog.bind_eq_ok h
  obtain ⟨_, s2, h2, h⟩ := Prog.bind_eq_ok h
  have f1 : Foot w NoRods s s1 := by
    refine Frame.ok ?_ h1
    exact modify_foot fun _ => ⟨rfl, rfl, rfl, rfl, rfl⟩
  have r3 : Ran w NoRods s2 s' := by
    refine Frame.ok (.bind (sys_frame (noRods_sys _)) fun _ => ?_) h
    exact .bind .get fun _ => .pure _
  obtain ⟨hc, hs⟩ := renameRemote_conducted (by rw [f1.exports, he]) h2
  exact ⟨hc, (hs.before (f1.ran.mono fun _ h => h.1)).after r3⟩

/-- A target that RENAME goes on with has an export, under which it turns to iRODS. -/
theorem renameTo_conducted {fromObj name : CStr} {toPath : Option CStr} {rq : SvcReq}
    {unset : Junk} {st : Nfsstat3}
    (h : renameTo w fromObj toPath name rq unset s = (.ok st, s')) :
    ∃ e, (exportsCompat s.exportList rq.remote toPath s.exports).2.path = some e ∧
      Conducted w e rq (join (catName toPath name).1
        (exportsCompat s.exportList rq.remote toPath s.exports).1 = .ok) True s s' := by
  obtain ⟨compat, s1, h1, hrest⟩ := Prog.bind_eq_ok h
  obtain ⟨from1, s2, h2, hrest⟩ := Prog.bind_eq_ok hrest
  obtain ⟨to1, s3, h3, hlast⟩ := Prog.bind_eq_ok hrest
  have r3 : Ran w NoRods s s3 := trans_of (Ran w _) ((exportsCompatM_ran _ _).ok h1)
    (trans_of (Ran w _) ((rewriteObj_idle _ _ _).ok h2) ((rewriteObj_idle _ _ _).ok h3))
  obtain ⟨rfl, rfl⟩ : (exportsCompat s.exportList rq.remote toPath s.exports).1 = compat ∧
      { s with exports := (exportsCompat s.exportList rq.remote toPath s.exports).2 } = s1 := by
    rw [exportsCompatM, Prod.mk.injEq, Except.ok.injEq] at h1
    exact h1
  cases he : (exportsCompat s.exportList rq.remote toPath s.exports).2.path with
  | none =>
    obtain ⟨s4, h4, _⟩ := rewriteObj_stops (w := w) (E := fun _ => True) (fun _ _ => trivial)
      (s := { s with exports := (exportsCompat s.exportList rq.remote toPath s.exports).2 })
      he true fromObj rq.uid
    rw [h4] at h2
    cases h2
  | some e =>
    have t2 := ((rewriteObj_ends (w := w)
      (s := { s with exports := (exportsCompat s.exportList rq.remote toPath s.exports).2 })
      he _ _ _).run h2).2
    have e2 : s2.exports.path = some e := by rw [t2.exports, ← he]
    have t3 : Tacit s2 s3 := ((rewriteObj_ends (w := w) e2 _ _ _).run h3).2
    refine ⟨e, rfl, ?_⟩
    rw [Prog.ite_run] at hlast
    split at hlast
    · rename_i hst
      obtain ⟨hc, hs⟩ := renameMove_conducted (by rw [t3.exports, e2]) hlast
      exact ⟨fun _ => ⟨hc, hs.before r3⟩, fun hn => absurd hst hn⟩
    · rename_i hst
      cases hlast
      exact ⟨fun hr => absurd hr hst, fun _ => r3⟩

theorem renameBody_conducted {d : CStr} {argsFrom argsTo : Diropargs3} {rq : SvcReq}
    {unset : Junk} {r : Rename3res}
    (h : renameBody w d argsFrom argsTo rq unset s = (.ok r, s')) :
    Conducted w (targetExport w argsTo rq s) rq
      ((join (catName (some d) argsFrom.name).1 (exportsRw s.exports) = .ok ∧
        targetStatus w argsTo rq s = .ok) ∧ (compatPath w argsTo rq s).isSome) True s s' := by
  rw [renameBody, Prog.get_bind_run] at h
  obtain ⟨toPath, s1, h1, h⟩ := Prog.bind_eq_ok h
  obtain ⟨st, s2, h2, h⟩ := Prog.bind_eq_ok h
  obtain rfl : renameTarget w argsTo s = toPath := by rw [renameTarget, h1]
  have f1 : Foot w NoRods s s1 := (fhDecomp_foot (w := w) argsTo.dir).ok h1
  have r1 : Ran w NoRods s s1 := f1.ran.mono fun _ h => h.1
  have r3 : Ran w NoRods s2 s' := (Foot.frame_ran (renameEnd_frame _ _ _ _ _ _)).ok h
  rw [Prog.ite_run] at h2
  split at h2
  · rename_i hfrom
    obtain ⟨e, he, hto⟩ := renameTo_conducted h2
    rw [f1.exportList, f1.exports] at he hto
    have hp : compatPath w argsTo rq s = some e := he
    rw [targetExport, hp, Option.getD_some]
    refine ⟨fun ht => ?_, fun hn => ?_⟩
    · obtain ⟨hc, hs⟩ := hto.1 ht.1.2
      exact ⟨hc, (hs.before r1).after r3⟩
    · have hquiet := hto.2 fun ht => hn ⟨⟨hfrom, ht⟩, rfl⟩
      exact trans_of (Ran w _) r1 (trans_of (Ran w _) hquiet r3)
  · rename_i hfrom
    cases h2
    exact ⟨fun ht => absurd ht.1.1 hfrom, fun _ => trans_of (Ran w _) r1 r3⟩

/-! ## READDIR -/

/-- The listing makes a call first, however it ends. -/
theorem listInto_calls {c m : CStr} {x : Except Stop Int} (h : listInto w c m comm s = (x, s')) :
    Calls w comm s s' := by
  have call : ∀ c : RodsCall, c.comm = some comm → On comm (.rods c) := fun _ hc => on_rods hc
  refine rods_bind_calls rfl (fun o => .bind (debug_frame _) fun _ => .bind (debug_frame _)
    fun _ => .bind .get fun _ => .bind ?_ fun _ => ?_) h
  · exact listLoop_frame (E := On comm) (fun _ _ => on_sys _) (fun _ _ hc => by cases hc)
      (fun _ => call _ rfl) (fun _ => call _ rfl) _ _
  · exact .bind (rods_frame (E := On comm) (call _ rfl)) fun _ => .pure _

theorem remake_idle (m : CStr) : Frame (Ran w NoRods) (remake w m) :=
  Foot.frame_ran (remake_foot (fun _ _ h => h) m)

/-- READDIR has connected when it opens the collection. -/
theorem openDir_connected {d : CStr} {rq : SvcReq} {o : CStr × CStr × Comm}
    (he : s.exports.path = some e) (h : openDir w d rq s = (.ok o, s')) :
    Connects w rq ∧ ∃ s5 s6, Ran w NoRods s s5 ∧ s5.exports.path = some e ∧
      connectUser w rq.uid s5 = (.ok o.2.2, s6) ∧ Ran w NoRods s6 s' := by
  obtain ⟨_, s1, h1, h⟩ := Prog.bind_eq_ok h
  obtain ⟨_, s2, h2, h⟩ := Prog.bind_eq_ok h
  obtain ⟨_, s3, h3, h⟩ := Prog.bind_eq_ok h
  obtain ⟨_, s4, h4, h⟩ := Prog.bind_eq_ok h
  obtain ⟨real, s5, h5, h⟩ := Prog.bind_eq_ok h
  obtain ⟨comm, s6, h6, h⟩ := Prog.bind_eq_ok h
  obtain ⟨_, s7, h7, h⟩ := Prog.bind_eq_ok h
  cases h
  have t1 : Tacit s s1 := ((rodsName_ends (w := w) he _ _).run h1).2
  have t2 : Tacit s s2 := trans_of Tacit t1 ((debug_tacit (w := w) _ s1).run h2).2
  have e2 : s2.exports.path = some e := by rw [t2.exports, he]
  have t3 : Tacit s2 s3 := ((getRealPathNFS_ends (w := w) e2 _ _).run h3).2
  have t4 : Tacit s2 s4 := trans_of Tacit t3 ((debug_tacit (w := w) _ s3).run h4).2
  have e4 : s4.exports.path = some e := by rw [t4.exports, e2]
  have t5 : Tacit s4 s5 := ((getRealPathNFS_ends (w := w) e4 _ _).run h5).2
  have e5 : s5.exports.path = some e := by rw [t5.exports, e4]
  have r5 : Ran w NoRods s s5 := trans_of (Ran w _) ((rodsName_frame noRods_path _ _).ok h1)
    (trans_of (Ran w _) ((debug_idle _).ok h2)
      (trans_of (Ran w _) ((getRealPathNFS_frame noRods_path _ _).ok h3)
        (trans_of (Ran w _) ((debug_idle _).ok h4)
          ((getRealPathNFS_frame noRods_path _ _).ok h5))))
  exact ⟨⟨connectUser_known e5 h6, rodsName_zone he h1⟩, s5, s6, r5, e5, h6, (remake_idle _).ok h7⟩

theorem readdirBody_conducted {d : CStr} {cookie : UInt64} {count : Nat} {rq : SvcReq}
    {r : Readdir3res} (he : s.exports.path = some e)
    (h : readdirBody w d cookie count rq s = (.ok r, s')) :
    Connects w rq ∧ Session w e rq.uid True s s' := by
  rw [readdirBody_split] at h
  obtain ⟨o, s1, h1, h⟩ := Prog.bind_eq_ok h
  obtain ⟨hc, s5, s6, r5, e5, h6, r6⟩ := openDir_connected he h1
  obtain ⟨_, s8, h8, h⟩ := Prog.bind_eq_ok h
  obtain ⟨_, s9, h9, h⟩ := Prog.bind_eq_ok h
  obtain ⟨_, s10, h10, h⟩ := Prog.bind_eq_ok h
  obtain ⟨_, s11, h11, h⟩ := Prog.bind_eq_ok h
  have c10 : Calls w o.2.2 s1 s10 := ((listInto_calls h8).after ((readDir_frame _ _ _).ok h9)).after
    ((getPostStat_frame _ _).ok h10)
  have r11 : Ran w NoRods s11 s' := (Frame.bind (debug_idle _) fun _ => .pure _).ok h
  exact ⟨hc, (Session.of_calls e5 h6 r6 c10 h11 r11).before r5⟩

/-- A READDIR that stops at a question for a mode has made its calls on the connection. -/
theorem listDir_cut {d : CStr} {cookie : UInt64} {count : Nat} {rq : SvcReq}
    {o : CStr × CStr × Comm} {st : Stop} (he : s.exports.path = some e)
    (h1 : openDir w d rq s = (.ok o, s1))
    (h : listDir w cookie count rq o.1 o.2.1 o.2.2 s1 = (.error st, s')) :
    Connects w rq ∧ Converses w e rq.uid True o.2.2 s s' := by
  obtain ⟨hc, s5, s6, r5, e5, h6, r6⟩ := openDir_connected he h1
  have hrest : ∀ v : Int, Returns (readDir w o.2.1 cookie count >>= fun result =>
      getPostStat w (some o.2.1) rq >>= fun dirAttributes =>
      rcDisconnect w o.2.2 >>= fun _ => debug w "END READDIR" >>= fun _ =>
      (pure { result with dirAttributes } : M L R Readdir3res)) := fun _ =>
    .bind (readDir_returns _ _ _) fun _ => .bind (getPostStat_returns _ _) fun _ =>
      .bind (rcDisconnect_returns _) fun _ => .bind (debug_returns _) fun _ => .pure _
  rcases Prog.bind_eq_error h with h8 | ⟨v, s8, _, h⟩
  · have c8 : Calls w o.2.2 s1 s' := listInto_calls h8
    exact ⟨hc, s5, s6, s1, r5, e5, h6, r6, c8.1, by simpa using c8.2⟩
  · exact absurd h (returns_ne_error (hrest v))

end

end NfsRods
