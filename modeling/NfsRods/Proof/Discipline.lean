import NfsRods.Proof.Conversation
import NfsRods.Proof.FdRun

/-!
# When every connection is closed once

`rodsLogin` disconnects after a failure and says so in its result, which no procedure looks at: the
procedure goes on with the closed connection and disconnects it again. READ never disconnects.

* `StopsInOrder` for each procedure: where one stops, its calls have been in order.
* `disciplined_iff_conducted`: a session is disciplined exactly when it was logged in, or had no
  connection and made no calls.
* `disciplined_iff`: a request is disciplined exactly when it does not turn to iRODS
  (`NfsRequest.Turns`), or closes what it opens (`NfsRequest.Closes`).
-/

namespace NfsRods

open CStr
open Prog (Ends Frame Returns)

section
variable {L R : Type} {w : World L R} {s s' : Server L R} {rq : SvcReq} {e : CStr}

/-! ## Where a procedure can stop -/

/-- Steps that leave iRODS and the export alone, and need an export, a user name or a zone. -/
theorem idle_of_ends {α : Type} {uid : UInt32} {m : M L R α} (hf : Frame (Foot w NoRods) m)
    (hm : ∀ (s : Server L R) e, s.exports.path = some e → Known w uid → w.conf.zone.isSome →
      ∃ a s1, m s = (.ok a, s1)) : Idle w (Stuck w uid) m := by
  refine fun s => ⟨Foot.frame_ran hf s, fun st hst => ?_⟩
  exact stuck_of_ends hf (hm s) (Prod.ext hst rfl)

theorem debug_stuck {Q : Server L R → Prop} (msg : Msg) : Idle w Q (debug w msg : M L R Unit) :=
  .returns (debug_idle msg) (debug_returns msg)

theorem sys_stuck {Q : Server L R → Prop} (c : SysCall) : Idle w Q (sys w c) :=
  .returns (sys_frame (noRods_sys c)) (sys_returns c)

theorem getRealPathNFS_stuck (p : CStr) (uid : UInt32) :
    Idle w (Stuck w uid) (getRealPathNFS w p uid) := by
  refine idle_of_ends (getRealPathNFS_frame noRods_path _ _) fun s e he _ _ => ?_
  obtain ⟨s1, h1, _⟩ := getRealPathNFS_ends (w := w) he p uid
  exact ⟨_, s1, h1⟩

theorem rodsName_stuck (p : CStr) (uid : UInt32) : Idle w (Stuck w uid) (rodsName w p uid) := by
  refine idle_of_ends (rodsName_frame noRods_path _ _) fun s e he hk hz => ?_
  obtain ⟨s1, h1, _⟩ := rodsName_ends (w := w) he p uid
  rw [rodsPath_targetName hk hz] at h1
  exact ⟨_, s1, h1⟩

theorem rewriteObj_stuck (filled : Bool) (obj : CStr) (uid : UInt32) :
    Idle w (Stuck w uid) (rewriteObj w filled obj uid) := by
  refine idle_of_ends (rewriteObj_frame noRods_path noRods_toArray _ _ _) fun s e he _ _ => ?_
  obtain ⟨s1, h1, _⟩ := rewriteObj_ends (w := w) he filled obj uid
  exact ⟨_, s1, h1⟩

theorem openRods_inOrder (p : CStr) (uid : UInt32) :
    StopsInOrder w (Stuck w uid) (openRods w p uid) := by
  refine .connected (fun _ h => h) fun comm => Idle.quiet ?_
  exact .bind (rodsName_stuck _ _) fun _ => .bind (debug_stuck _) fun _ =>
    .returns (.pure _) (.pure _)

theorem remoteSize_inOrder (name : CStr) (uid : UInt32) :
    StopsInOrder w (Stuck w uid) (remoteSize w name uid) := by
  refine (connectUser_inOrder uid).before fun comm => .bind (fileSize_returns _ _) fun _ => ?_
  exact .bind (rcDisconnect_returns _) fun _ => .pure _

theorem getattrBody_inOrder (path : CStr) (rq : SvcReq) :
    StopsInOrder w (Stuck w rq.uid) (getattrBody w path rq) := by
  refine .bind (rodsName_stuck _ _) fun name => .bind (getRealPathNFS_stuck _ _) fun _ => ?_
  refine .bind (debug_stuck _) fun _ => .bind (debug_stuck _) fun _ => ?_
  refine .bind (.returns (getPostCached_frame _) (getPostCached_returns _)) fun post => ?_
  refine .ite (.before (remoteSize_inOrder _ _) fun _ => ?_) (.returns ?_)
  · exact .bind (debug_returns _) fun _ => .pure _
  · exact .bind (debug_returns _) fun _ => .pure _

theorem setattrWrite_inOrder (path : CStr) (object : NfsFh3) (new : Sattr3) (rq : SvcReq) :
    StopsInOrder w (Stuck w rq.uid) (setattrWrite w path object new rq) := by
  refine .bind (.returns (setAttr_frame noRods_sys _ _ _) (setAttr_returns _ _ _)) fun _ => ?_
  refine (openRods_inOrder _ _).before fun x => .ite ?_ ?_
  · exact .bind (debug_returns _) fun _ => .bind (rcDisconnect_returns _) fun _ => .pure _
  · refine .bind (fun _ => ⟨_, _, rfl⟩) fun _ => .bind (setAttrIrods_returns _ _ _ _) fun _ => ?_
    exact .bind (rcDisconnect_returns _) fun _ => .pure _

theorem setattrBody_inOrder (path : CStr) (object : NfsFh3) (new : Sattr3) (rq : SvcReq) :
    StopsInOrder w (Stuck w rq.uid) (setattrBody w path object new rq) := by
  refine .bind (getRealPathNFS_stuck _ _) fun _ => .bind (debug_stuck _) fun _ => .get fun s => ?_
  refine .before (.ite (setattrWrite_inOrder _ _ _ _) (.returns (.pure _))) fun _ => ?_
  exact .bind (getPostStat_returns _ _) fun _ => .bind (debug_returns _) fun _ => .pure _

theorem accessBody_inOrder (path : CStr) (access : Nat) (rq : SvcReq) :
    StopsInOrder w (Stuck w rq.uid) (accessBody w path access rq) := by
  refine .bind (getRealPathNFS_stuck _ _) fun _ => .bind (debug_stuck _) fun _ => ?_
  refine (openRods_inOrder _ _).before fun x => .bind (getFile_returns _ _ _ _ _) fun _ => ?_
  refine .bind (rcDisconnect_returns _) fun _ => .bind (getPostCached_returns _) fun _ => ?_
  exact .bind .get fun _ => .bind (debug_returns _) fun _ => .pure _

theorem readRemote_inOrder (path : CStr) (offset count : Nat) (rq : SvcReq) :
    StopsInOrder w (Stuck w rq.uid) (readRemote w path offset count rq) := by
  refine .connected (fun _ h => h) fun comm => .bind (getRealPathNFS_stuck _ _) fun _ => ?_
  refine .bind (debug_stuck _) fun _ => .bind (rodsName_stuck _ _) fun name => .returns ?_
  refine .bind (rods_returns _) fun o => .ite (.bind .get fun _ => .pure _) ?_
  exact .bind (rods_returns _) fun r => .ite (.pure _) (.bind .get fun _ => .pure _)

theorem readBody_inOrder (path : CStr) (offset count : Nat) (rq : SvcReq) (unset : Int) :
    StopsInOrder w (Stuck w rq.uid) (readBody w path offset count rq unset) := by
  have sys : ∀ c : SysCall, c.mutates = false → NoRods (.sys c) := fun c _ => noRods_sys c
  refine .get fun s => .bind (.returns (readExecutable_frame sys _ _) (readExecutable_returns _ _))
    fun _ => .bind (.returns (accessByOwner_frame sys _ _ _) (accessByOwner_returns _ _ _))
    fun _ => ?_
  refine .before (.ite (readRemote_inOrder _ _ _ _) (.returns (.pure _))) fun _ => ?_
  exact .bind (getPostStat_returns _ _) fun _ => .bind (debug_returns _) fun _ => .pure _

theorem fdOpen_returns (path : CStr) (nfh : NfsFh3) (kind : FdKind) (caching : Bool) :
    Returns (fdOpen w path nfh kind caching) := by
  intro s
  obtain ⟨fd, s', h, _⟩ := fdOpen_run (w := w) path nfh kind caching s
  exact ⟨fd, s', h⟩

theorem fdClose_returns (fd : Int) (kind : FdKind) (really : Bool) :
    Returns (fdClose w fd kind really) := by
  intro s
  obtain ⟨r, s', h, _⟩ := fdClose_run (w := w) fd kind really s
  exact ⟨r, s', h⟩

theorem writeFd_inOrder (path : CStr) (args : Write3args) (rq : SvcReq) (fd : Int) :
    StopsInOrder w (Stuck w rq.uid) (writeFd w path args rq fd) := by
  refine .bind (sys_stuck _) fun _ => (openRods_inOrder _ _).before fun x => ?_
  refine .bind (iWrite_returns _ _ _ _) fun _ => .bind (debug_returns _) fun _ => ?_
  refine .bind (debug_returns _) fun _ => .bind (rcDisconnect_returns _) fun _ => ?_
  exact .bind (fdClose_returns _ _ _) fun _ => .pure _

theorem writeBody_inOrder (path : CStr) (args : Write3args) (rq : SvcReq) :
    StopsInOrder w (Stuck w rq.uid) (writeBody w path args rq) := by
  have sys : ∀ c : SysCall, c.mutates = false → NoRods (.sys c) := fun c _ => noRods_sys c
  refine .bind (getRealPathNFS_stuck _ _) fun _ => .bind (debug_stuck _) fun _ => .get fun s => ?_
  refine .bind (.returns (accessByOwner_frame sys _ _ _) (accessByOwner_returns _ _ _)) fun _ => ?_
  refine .before (.ite (.bind (.returns (fdOpen_frame sys _ _ _ _) (fdOpen_returns _ _ _ _))
    fun fd => .ite (.before (writeFd_inOrder _ _ _ _) fun x => ?_) (.returns ?_))
    (.returns (.pure _))) fun _ => .bind .get fun _ => ?_
  · exact .bind .get fun _ => .ite (.pure _) (.pure _)
  · exact .bind .get fun _ => .pure _
  · exact .bind (getPostStat_returns _ _) fun _ => .bind (debug_returns _) fun _ => .pure _

theorem remoteStep_inOrder (call : CStr → Comm → RodsCall) (obj : CStr) (rq : SvcReq) :
    StopsInOrder w (Stuck w rq.uid) (remoteStep w call obj rq) := by
  refine (openRods_inOrder _ _).before fun x => .bind (issue_returns _) fun _ => ?_
  exact .bind (debug_returns _) fun _ => rcDisconnect_returns _

theorem createBody_inOrder (path : CStr) (args : Diropargs3) (how : Createhow3) (rq : SvcReq)
    (unset : Junk) : StopsInOrder w (Stuck w rq.uid) (createBody w path args how rq unset) := by
  refine .get fun t => .bind (rewriteObj_stuck _ _ _) fun obj => ?_
  refine .bind (.returns ?_ (.ite (sys_returns _) (.pure _))) fun fd => ?_
  · exact .ite (fun _ => sys_frame (noRods_sys _)) fun _ => .pure _
  · refine (remoteStep_inOrder _ _ _).before fun _ => .bind (fun s => ?_) fun _ => ?_
    · obtain ⟨r, s', h, _⟩ := createFinish_ends (w := w) args.dir obj how
        (createStatus w t (catName (some path) args.name).1 how) fd rq s
      exact ⟨r, s', h⟩
    · exact .bind .get fun _ => .bind (getPostStat_returns _ _) fun _ =>
        .bind (debug_returns _) fun _ => .pure _

theorem unlinkLocal_returns (u : Unlink) (status : Nfsstat3) (obj : CStr) :
    Returns (unlinkLocal w u status obj) := by
  refine .ite ?_ (.pure _)
  exact .bind (.modify _) fun _ => .bind (sys_returns _) fun _ => .bind .get fun _ => .pure _

theorem unlinkBody_inOrder (u : Unlink) (path name : CStr) (rq : SvcReq) (unset : Junk) :
    StopsInOrder w (Stuck w rq.uid) (unlinkBody w u path name rq unset) := by
  refine .get fun s => .bind (rewriteObj_stuck _ _ _) fun obj => .bind (debug_stuck _) fun _ => ?_
  refine .bind (.returns ?_ (unlinkLocal_returns _ _ _)) fun st => ?_
  · exact Foot.frame_ran (unlinkLocal_frame noRods_sys _ _ _)
  · refine (remoteStep_inOrder _ _ _).before fun _ => .bind .get fun _ => ?_
    exact .bind (getPostStat_returns _ _) fun _ => .bind (debug_returns _) fun _ => .pure _

theorem mkdirBody_inOrder (path : CStr) (args : Diropargs3) (attributes : Sattr3) (rq : SvcReq)
    (unset : Junk) :
    StopsInOrder w (Stuck w rq.uid) (mkdirBody w path args attributes rq unset) := by
  refine .get fun s => .bind (rewriteObj_stuck _ _ _) fun obj => .bind (debug_stuck _) fun _ => ?_
  refine .before (.ite (.bind (sys_stuck _) fun _ => ?_) (.returns (.pure _))) fun _ => ?_
  · refine (remoteStep_inOrder _ _ _).before fun _ => .ite (.bind .get fun _ => .pure _) ?_
    exact .bind (fhExtendType_returns _ _ _) fun _ => .bind (getPostCached_returns _) fun _ =>
      .pure _
  · exact .bind (getPostLl_returns _ _ _ _) fun _ => .bind (debug_returns _) fun _ => .pure _

theorem renameMove_inOrder (fromObj toObj : CStr) (rq : SvcReq) :
    StopsInOrder w (Stuck w rq.uid) (renameMove w fromObj toObj rq) := by
  refine .bind (.returns (modify_frame fun _ => ⟨rfl, rfl, rfl, rfl, rfl, rfl⟩) (.modify _))
    fun _ => .before (.connected (fun _ h => h) fun comm => ?_) fun _ => ?_
  · refine .bind (rodsName_stuck _ _) fun _ => .bind (rodsName_stuck _ _) fun _ => ?_
    refine .bind (debug_stuck _) fun _ => .bind (debug_stuck _) fun _ => .returns ?_
    exact .bind (issue_returns _) fun _ => .bind (rcDisconnect_returns _) fun _ =>
      .bind (debug_returns _) fun _ => .pure _
  · exact .bind (sys_returns _) fun _ => .bind .get fun _ => .pure _

theorem renameBody_inOrder (path : CStr) (argsFrom argsTo : Diropargs3) (rq : SvcReq)
    (unset : Junk) :
    StopsInOrder w (Stuck w rq.uid) (renameBody w path argsFrom argsTo rq unset) := by
  refine .get fun t => .bind (.returns ?_ (fhDecomp_returns _)) fun toPath => ?_
  · exact Foot.frame_ran (fhDecomp_foot _)
  refine .before (.ite (.bind (.returns (exportsCompatM_ran _ _) fun s => ⟨_, _, rfl⟩) fun _ => ?_)
    (.returns (.pure _))) fun st s => ?_
  · refine .bind (rewriteObj_stuck _ _ _) fun _ => .bind (rewriteObj_stuck _ _ _) fun _ => ?_
    exact .ite (renameMove_inOrder _ _ _) (.returns (.pure _))
  · obtain ⟨r, s', h, _⟩ := renameEnd_ends (w := w) st (getPreCached t) path toPath argsFrom rq s
    exact ⟨r, s', h⟩

/-- READDIR also stops where it cannot make its mirror directory again. -/
theorem openDir_inOrder (path : CStr) (rq : SvcReq) :
    StopsInOrder w (fun _ => True) (openDir w path rq) := by
  refine .bind (.frame (rodsName_frame noRods_path _ _)) fun _ => .bind (debug_stuck _) fun _ => ?_
  refine .bind (.frame (getRealPathNFS_frame noRods_path _ _)) fun _ => ?_
  refine .bind (debug_stuck _) fun _ => ?_
  refine .bind (.frame (getRealPathNFS_frame noRods_path _ _)) fun _ => ?_
  refine .connected (fun _ _ => trivial) fun comm => Idle.quiet ?_
  exact .bind (.frame (remake_idle _)) fun _ => .returns (.pure _) (.pure _)

theorem lookupReply_inOrder (rodspath : CStr) (x : Nfsstat3 × Option Unfs3Fh) (a : PostOpAttr)
    (rq : SvcReq) : StopsInOrder w (Stuck w rq.uid) (lookupReply w rodspath x a rq) := by
  refine .get fun s => .before (.ite (.before (remoteSize_inOrder _ _) fun _ => .modify _)
    (.returns (.pure _))) fun _ => ?_
  exact .bind (debug_returns _) fun _ => .bind .get fun _ => .pure _

theorem lookupBody_inOrder (what : Diropargs3) (dir : CStr) (rq : SvcReq) :
    StopsInOrder w (fun _ => True) (lookupBody w what dir rq) := by
  rw [lookupBody_split]
  exact .bind (.frame (lookupSoFar_idle _ _ _)) fun x =>
    (lookupReply_inOrder _ _ _ _).mono fun _ _ => trivial

/-! ## What a part of a request says -/

section
variable {α β : Type} {m : M L R α} {n : M L R β} {Q : Server L R → Prop}

/-- With an export, a user name and a zone nothing stops. -/
theorem goes_of_stuck {E : Event → Prop} (hstop : StopsInOrder w (Stuck w rq.uid) m)
    (hf : Frame (Foot w E) m) (he : s.exports.path = some e) (hc : Connects w rq) :
    ∃ a s', m s = (.ok a, s') := by
  rcases hm : m s with ⟨st | a, s'⟩
  · have hx : s'.exports = s.exports := by
      have := (hf s).exports
      rwa [hm] at this
    refine absurd hc ((hstop s st s' hm).1 ?_)
    rw [hx, he]
    rfl
  · exact ⟨a, s', rfl⟩

/-- What says nothing is disciplined. -/
theorem Disciplined.idle (h : Ran w NoRods s (m s).2) : Disciplined w m s :=
  ⟨[], by rw [talk, ← heard, h.heard_nil]; rfl, fun _ _ => rfl⟩

/-- A run that says nothing first. -/
theorem disciplined_run {s1 : Server L R} (h : Ran w NoRods s s1) (hg : Grows s1 (n s1).2)
    (hsnd : (m s).2 = (n s1).2) (hfst : (∃ a, (m s).1 = .ok a) ↔ ∃ b, (n s1).1 = .ok b) :
    Disciplined w m s ↔ Disciplined w n s1 := by
  have ht : talk w m s = talk w n s1 := by
    rw [talk_run hsnd h hg, ← heard, h.heard_nil, List.nil_append]
  rw [Disciplined, Disciplined, ht]
  refine exists_congr fun live => and_congr_right fun _ => ?_
  rw [← forall_exists_index (p := fun a => (m s).1 = .ok a) (q := fun _ => live = []),
    ← forall_exists_index (p := fun b => (n s1).1 = .ok b) (q := fun _ => live = [])]
  exact imp_congr hfst Iff.rfl

/-- A run that stops in order is disciplined. -/
theorem Disciplined.stops {st : Stop} (hstop : StopsInOrder w Q m) (hm : m s = (.error st, s')) :
    Disciplined w m s := by
  obtain ⟨_, _, live, hlive⟩ := hstop s st s' hm
  refine ⟨live, by rw [talk, hm, ← heard, hlive], fun reply h => ?_⟩
  rw [hm] at h
  cases h

/-- A session that replies is disciplined when it was logged in, or made no calls on nothing. -/
theorem disciplined_iff_session {used : Prop} {a : α} (hm : m s = (.ok a, s'))
    (hs : Session w e rq.uid used s s') : Disciplined w m s ↔
      LoggedIn w e rq.uid s.rods ∨ (session w e rq.uid s.rods).1 = none ∧ ¬ used := by
  obtain ⟨hiff, _⟩ := hs.live_iff
  rw [← hiff, Disciplined, talk, hm, ← heard]
  constructor
  · rintro ⟨live, hlive, hnil⟩
    rw [hlive, hnil a rfl]
  · exact fun h => ⟨[], h, fun _ _ => rfl⟩

/-- A conversation that is cut off is disciplined when it was logged in. -/
theorem disciplined_iff_cut {comm : Comm} {st : Stop} (hm : m s = (.error st, s'))
    (h : Converses w e rq.uid True comm s s') :
    Disciplined w m s ↔ LoggedIn w e rq.uid s.rods := by
  obtain ⟨-, hin, hout⟩ := h.live
  rw [Disciplined, talk, hm, ← heard]
  constructor
  · rintro ⟨live, hlive, _⟩
    by_contra hl
    rw [(hout hl).1 trivial] at hlive
    cases hlive
  · intro hl
    obtain ⟨c, _, ho⟩ := hin hl
    exact ⟨[c], ho, fun reply h => by cases h⟩

/-- **A conducted request is disciplined** exactly when it was logged in, or had no connection and
made no calls, if it turned to iRODS. -/
theorem disciplined_iff_conducted {turns used : Prop} (hstop : StopsInOrder w Q m)
    (hok : ∀ a s', m s = (.ok a, s') → Conducted w e rq turns used s s')
    (hgo : turns → Connects w rq → ∃ a s', m s = (.ok a, s')) :
    Disciplined w m s ↔ (Connects w rq → turns →
      LoggedIn w e rq.uid s.rods ∨ (session w e rq.uid s.rods).1 = none ∧ ¬ used) := by
  rcases hm : m s with ⟨st | a, s'⟩
  · refine iff_of_true (.stops hstop hm) fun hc ht => ?_
    obtain ⟨a, s1, h⟩ := hgo ht hc
    rw [hm] at h
    cases h
  · obtain ⟨hturn, hquiet⟩ := hok a s' hm
    by_cases ht : turns
    · obtain ⟨hc, hs⟩ := hturn ht
      simp only [hc, ht, forall_const]
      exact disciplined_iff_session hm hs
    · refine iff_of_true (.idle ?_) fun _ h => absurd h ht
      rw [hm]
      exact hquiet ht

/-- A request that converses and does not disconnect is never disciplined. -/
theorem not_disciplined_of_converses {comm : Comm} {a : α} {s1 : Server L R}
    (hm : m s = (.ok a, s')) (h : Converses w e rq.uid True comm s s1) (r : Ran w NoRods s1 s') :
    ¬ Disciplined w m s := by
  rintro ⟨live, hlive, hnil⟩
  rw [talk, hm, ← heard, hnil a (by rw [hm]), heard_trans h.ran r.grows, r.heard_nil,
    List.append_nil] at hlive
  obtain ⟨-, hin, hout⟩ := h.live
  by_cases hl : LoggedIn w e rq.uid s.rods
  · obtain ⟨c, -, ho⟩ := hin hl
    rw [ho] at hlive
    cases hlive
  · rw [(hout hl).1 trivial] at hlive
    cases hlive

/-- Requests with a body after `PREP`. -/
theorem disciplined_withPrep {f : α → NfsReply} {fh : NfsFh3} {refuse : Nfsstat3 → M L R α}
    {body : CStr → M L R α} {P : CStr → Server L R → Prop}
    (hrefuse : ∀ st, Frame (Ran w NoRods) (refuse st)) (hg : ∀ d, Frame Grows (body d))
    (hbody : ∀ d e (s1 : Server L R), s1.exports.path = some e →
      (Disciplined w (body d) s1 ↔ P d s1)) :
    Disciplined w (replyWith f (withPrep w fh rq refuse body)) s ↔
      ∀ d s1, prep w fh rq s = (.ok (.ok d), s1) → P d s1 := by
  have hprep : Ran w NoRods s (prep w fh rq s).2 := prep_ran (fun c _ => noRods_sys c) fh rq s
  rcases withPrep_run (w := w) fh rq refuse body s with
    ⟨d, s1, hp, h⟩ | ⟨st, s1, hp, h⟩ | ⟨st, s1, hp, h⟩
  all_goals rw [hp] at hprep
  · obtain ⟨e, he⟩ := prep_path hp
    have hrun : Disciplined w (replyWith f (withPrep w fh rq refuse body)) s ↔
        Disciplined w (body d) s1 := by
      refine disciplined_run hprep (hg d s1) (by rw [replyWith_snd, h]) ?_
      rw [replyWith, Prog.bind_run, h]
      rcases body d s1 with ⟨st | a, s'⟩
      · simp
      · simp
    rw [hrun, hbody d e s1 he]
    constructor
    · intro hP d' s1' hp'
      rw [hp] at hp'
      obtain ⟨⟨⟨⟩⟩, rfl⟩ := Prod.mk.inj hp'
      exact hP
    · exact fun hall => hall d s1 hp
  · refine iff_of_true (.idle ?_) fun d' s1' hp' => by rw [hp] at hp'; cases hp'
    rw [replyWith_snd, h]
    exact trans_of (Ran w NoRods) hprep (hrefuse st s1)
  · refine iff_of_true (.idle ?_) fun d' s1' hp' => by rw [hp] at hp'; cases hp'
    rw [replyWith_snd, h]
    exact hprep

end

/-! ## Which requests turn to iRODS -/

/-- The request that `PREP` let in on the path `d` turns to iRODS, if its caller can be connected.
-/
def NfsRequest.Turns (w : World L R) (rq : SvcReq) (s : Server L R) (d : CStr) : NfsRequest → Prop
  | .getattr _ => CachedReg s
  | .setattr _ _ => exportsRw s.exports = .ok
  | .lookup what => ∃ x s1, lookupSoFar w what d rq s = (.ok x, s1) ∧ s1.exports.path.isSome ∧
      s1.lookupAttr.attributes.type = .reg
  | .access _ _ | .create _ _ | .remove _ | .rmdir _ => True
  | .read _ _ _ => isReg s = .ok
  | .write args => join (isReg s) (exportsRw s.exports) = .ok ∧
      (writeSoFar w d args rq s).1 ≠ .ok (-1)
  | .mkdir args attributes => mkdirStatus w s d args attributes = .ok
  | .rename argsFrom argsTo =>
    (join (catName (some d) argsFrom.name).1 (exportsRw s.exports) = .ok ∧
      targetStatus w argsTo rq s = .ok) ∧ (compatPath w argsTo rq s).isSome
  | .readdir _ _ _ => ∃ o s1, openDir w d rq s = (.ok o, s1)
  | .null | .fsstat _ | .fsinfo _ | .pathconf _ | .unsupported => False

/-- The export under which it connects: LOOKUP and RENAME look another path up before. -/
def NfsRequest.under (w : World L R) (rq : SvcReq) (s : Server L R) (d : CStr) : NfsRequest → CStr
  | .lookup what => exportPath (lookupSoFar w what d rq s).2
  | .rename _ argsTo => targetExport w argsTo rq s
  | _ => exportPath s

/-- Its connection is closed once: READ never disconnects, and after a failed login, or with no
connection, only a SETATTR of something else than a mode makes no call. -/
def NfsRequest.Closes (w : World L R) (rq : SvcReq) (s : Server L R) (d : CStr) (q : NfsRequest) :
    Prop :=
  match q with
  | .read _ _ _ => False
  | .setattr _ new => LoggedIn w (q.under w rq s d) rq.uid s.rods ∨
      (session w (q.under w rq s d) rq.uid s.rods).1 = none ∧ ¬ ModeOnly new
  | _ => LoggedIn w (q.under w rq s d) rq.uid s.rods

theorem exportPath_eq (he : s.exports.path = some e) : exportPath s = e := by
  rw [exportPath, he]
  rfl

/-- Requests that make a call whenever they have connected. -/
theorem disciplined_iff_loggedIn {α : Type} {m : M L R α} {Q : Server L R → Prop} {turns : Prop}
    (hstop : StopsInOrder w Q m)
    (hok : ∀ a s', m s = (.ok a, s') → Conducted w e rq turns True s s')
    (hgo : turns → Connects w rq → ∃ a s', m s = (.ok a, s')) :
    Disciplined w m s ↔ (Connects w rq → turns → LoggedIn w e rq.uid s.rods) := by
  rw [disciplined_iff_conducted hstop hok hgo]
  simp only [not_true_eq_false, and_false, or_false]

theorem getattrBody_disciplined (he : s.exports.path = some e) (d : CStr) (object : NfsFh3) :
    Disciplined w (getattrBody w d rq) s ↔ (Connects w rq →
      (NfsRequest.getattr object).Turns w rq s d →
      (NfsRequest.getattr object).Closes w rq s d) := by
  obtain rfl := exportPath_eq he
  refine disciplined_iff_loggedIn (getattrBody_inOrder d rq) (fun _ _ => getattrBody_conducted he)
    fun _ hc => goes_of_stuck (getattrBody_inOrder d rq)
      (getattrBody_frame (E := fun _ => True) ?_ _ _) he hc
  simp

theorem setattrBody_disciplined (he : s.exports.path = some e) (d : CStr) (object : NfsFh3)
    (new : Sattr3) : Disciplined w (setattrBody w d object new rq) s ↔ (Connects w rq →
      (NfsRequest.setattr object new).Turns w rq s d →
      (NfsRequest.setattr object new).Closes w rq s d) := by
  obtain rfl := exportPath_eq he
  refine disciplined_iff_conducted (setattrBody_inOrder d object new rq)
    (fun _ _ => setattrBody_conducted he) fun _ hc => goes_of_stuck
      (setattrBody_inOrder d object new rq)
      (setattrBody_frame (E := fun _ => True) ?_ ?_ ?_ _ _ _ _) he hc
  all_goals simp

theorem lookupSoFar_zone {what : Diropargs3} {d : CStr} {x : CStr × (Nfsstat3 × Option Unfs3Fh) ×
    PostOpAttr} (he : s.exports.path = some e) (h : lookupSoFar w what d rq s = (.ok x, s')) :
    w.conf.zone.isSome := by
  obtain ⟨_, s1, h1, h⟩ := Prog.bind_eq_ok h
  obtain ⟨name, s2, h2, -⟩ := Prog.bind_eq_ok h
  have t1 : Tacit s s1 := ((debug_tacit (w := w) _ s).run h1).2
  exact getRodsPath_zone (by rw [t1.exports, he]) h2

/-- LOOKUP decides in the state its local step leaves. -/
theorem lookupBody_disciplined (he : s.exports.path = some e) (d : CStr) (what : Diropargs3) :
    Disciplined w (lookupBody w what d rq) s ↔ (Connects w rq →
      (NfsRequest.lookup what).Turns w rq s d → (NfsRequest.lookup what).Closes w rq s d) := by
  refine disciplined_iff_loggedIn (lookupBody_inOrder what d rq) (fun r s' h => ?_) ?_
  · rw [lookupBody_split] at h
    obtain ⟨x, s1, h1, h⟩ := Prog.bind_eq_ok h
    have r1 : Ran w NoRods s s1 := (lookupSoFar_idle what d rq).ok h1
    obtain ⟨hreg, hother⟩ := lookupReply_conducted h
    refine ⟨fun ht => ?_, fun hn => trans_of (Ran w NoRods) r1 (hother fun ht => ?_)⟩
    · obtain ⟨x', s1', h1', -, ht⟩ := ht
      rw [h1] at h1'
      obtain ⟨⟨⟨⟩⟩, rfl⟩ := Prod.mk.inj h1'
      obtain ⟨e', he', hk, hs⟩ := hreg ht
      have hunder : (NfsRequest.lookup what).under w rq s d = e' := by
        change exportPath (lookupSoFar w what d rq s).2 = e'
        rw [h1, exportPath_eq he']
      rw [hunder]
      exact ⟨⟨hk, lookupSoFar_zone he h1⟩, hs.before r1⟩
    · obtain ⟨e', he', _⟩ := hreg ht
      exact hn ⟨x, s1, h1, by rw [he']; rfl, ht⟩
  · rintro ⟨x, s1, h1, hp, _⟩ hc
    obtain ⟨e', he'⟩ := Option.isSome_iff_exists.1 hp
    rw [lookupBody_split, Prog.bind_ok h1]
    exact goes_of_stuck (lookupReply_inOrder _ _ _ _)
      (lookupReply_foot (E := fun _ => True) (fun _ _ => trivial) _ _ _ _) he' hc

theorem accessBody_disciplined (he : s.exports.path = some e) (d : CStr) (object : NfsFh3)
    (access : Nat) : Disciplined w (accessBody w d access rq) s ↔ (Connects w rq →
      (NfsRequest.access object access).Turns w rq s d →
      (NfsRequest.access object access).Closes w rq s d) := by
  obtain rfl := exportPath_eq he
  refine disciplined_iff_loggedIn (accessBody_inOrder d access rq) (fun _ _ h => ?_) fun _ hc =>
    goes_of_stuck (accessBody_inOrder d access rq)
      (accessBody_frame (E := fun _ => True) (fun _ _ => trivial) (fun _ _ => trivial) _ _ _) he hc
  exact ⟨fun _ => accessBody_conducted he h, fun hn => absurd trivial hn⟩

/-- READ is disciplined when it does not turn to iRODS. -/
theorem readBody_disciplined (he : s.exports.path = some e) (d : CStr) (file : NfsFh3)
    (offset count : Nat) (unset : Int) :
    Disciplined w (readBody w d offset count rq unset) s ↔ (Connects w rq →
      (NfsRequest.read file offset count).Turns w rq s d →
      (NfsRequest.read file offset count).Closes w rq s d) := by
  have hstop := readBody_inOrder (w := w) d offset count rq unset
  rcases hm : readBody w d offset count rq unset s with ⟨st | r, s'⟩
  · refine iff_of_true (.stops hstop hm) fun hc => ?_
    obtain ⟨r, s1, h⟩ := goes_of_stuck hstop
      (readBody_frame (E := fun _ => True) (fun _ _ => trivial) _ _ _ _ _) he hc
    rw [hm] at h
    cases h
  · obtain ⟨hreg, hother⟩ := readBody_conducted he hm
    by_cases ht : isReg s = .ok
    · obtain ⟨hc, comm, s1, hcon, r1⟩ := hreg ht
      exact iff_of_false (not_disciplined_of_converses hm hcon r1) fun h => h hc ht
    · refine iff_of_true (.idle ?_) fun _ h => absurd h ht
      rw [hm]
      exact hother ht

theorem writeBody_disciplined (he : s.exports.path = some e) (d : CStr) (args : Write3args) :
    Disciplined w (writeBody w d args rq) s ↔ (Connects w rq →
      (NfsRequest.write args).Turns w rq s d → (NfsRequest.write args).Closes w rq s d) := by
  obtain rfl := exportPath_eq he
  refine disciplined_iff_loggedIn (writeBody_inOrder d args rq) (fun _ _ => writeBody_conducted he)
    fun _ hc => goes_of_stuck (writeBody_inOrder d args rq)
      (writeBody_frame (E := fun _ => True) ?_ ?_ ?_ _ _ _) he hc
  all_goals simp

theorem createBody_disciplined (he : s.exports.path = some e) (d : CStr) (args : Diropargs3)
    (how : Createhow3) (unset : Junk) :
    Disciplined w (createBody w d args how rq unset) s ↔ (Connects w rq →
      (NfsRequest.create args how).Turns w rq s d →
      (NfsRequest.create args how).Closes w rq s d) := by
  obtain rfl := exportPath_eq he
  refine disciplined_iff_loggedIn (createBody_inOrder d args how rq unset) (fun _ _ h => ?_)
    fun _ hc => goes_of_stuck (createBody_inOrder d args how rq unset)
      (createBody_foot (E := fun _ => True) ?_ ?_ ?_ ?_ _ _ _ _ _) he hc
  · exact ⟨fun _ => createBody_conducted he h, fun hn => absurd trivial hn⟩
  all_goals simp

/-- REMOVE and RMDIR. -/
theorem unlinkBody_disciplined {u : Unlink} {name : CStr}
    (hu : ∀ name comm, (u.remote name comm).comm = some comm) (he : s.exports.path = some e)
    (d : CStr) (unset : Junk) :
    Disciplined w (unlinkBody w u d name rq unset) s ↔
      (Connects w rq → True → LoggedIn w e rq.uid s.rods) := by
  refine disciplined_iff_loggedIn (unlinkBody_inOrder u d name rq unset) (fun _ _ h => ?_)
    fun _ hc => goes_of_stuck (unlinkBody_inOrder u d name rq unset)
      (unlinkBody_frame (E := fun _ => True) ?_ ?_ ?_ ?_ _ _ _ _ _) he hc
  · exact ⟨fun _ => unlinkBody_conducted hu he h, fun hn => absurd trivial hn⟩
  all_goals simp

theorem mkdirBody_disciplined (he : s.exports.path = some e) (d : CStr) (args : Diropargs3)
    (attributes : Sattr3) (unset : Junk) :
    Disciplined w (mkdirBody w d args attributes rq unset) s ↔ (Connects w rq →
      (NfsRequest.mkdir args attributes).Turns w rq s d →
      (NfsRequest.mkdir args attributes).Closes w rq s d) := by
  obtain rfl := exportPath_eq he
  refine disciplined_iff_loggedIn (mkdirBody_inOrder d args attributes rq unset)
    (fun _ _ => mkdirBody_conducted he) fun _ hc => goes_of_stuck
      (mkdirBody_inOrder d args attributes rq unset)
      (mkdirBody_frame (E := fun _ => True) ?_ ?_ ?_ ?_ _ _ _ _ _) he hc
  all_goals simp

/-- RENAME returns when both names are accepted and the target has an export. -/
theorem renameBody_goes {d : CStr} {argsFrom argsTo : Diropargs3} {unset : Junk}
    (ht : (NfsRequest.rename argsFrom argsTo).Turns w rq s d) (hc : Connects w rq) :
    ∃ r s', renameBody w d argsFrom argsTo rq unset s = (.ok r, s') := by
  obtain ⟨⟨hfrom, hto⟩, hp⟩ := ht
  obtain ⟨e', he'⟩ := Option.isSome_iff_exists.1 hp
  obtain ⟨s1, x1, l1, _, _, hrun⟩ := renameBody_run (w := w) rq d argsFrom argsTo unset s
  rw [targetStatus] at hto
  rw [compatPath] at he'
  rw [← l1, ← x1] at hto he'
  obtain ⟨s2, x2, _, _, hrename⟩ := renameTo_run (w := w) rq
    ((catName (some d) argsFrom.name).2.getD unset.buf) (renameTarget w argsTo s) argsTo.name unset
    he'
  obtain ⟨st, s3, h3, _⟩ := renameMove_ends (w := w) x2 hc.1 hc.2 (realPath w e' rq.uid
    ((catName (some d) argsFrom.name).2.getD unset.buf))
    (bufPath w e' rq.uid (renameTarget w argsTo s) argsTo.name unset)
  obtain ⟨r, s4, h4, _⟩ := renameEnd_ends (w := w) st (getPreCached s) d (renameTarget w argsTo s)
    argsFrom rq s3
  refine ⟨r, s4, ?_⟩
  rw [hrun, if_pos hfrom, Prog.bind_ok (hrename.trans (by rw [if_pos hto, h3])), h4]

theorem renameBody_disciplined (d : CStr) (argsFrom argsTo : Diropargs3) (unset : Junk) :
    Disciplined w (renameBody w d argsFrom argsTo rq unset) s ↔ (Connects w rq →
      (NfsRequest.rename argsFrom argsTo).Turns w rq s d →
      (NfsRequest.rename argsFrom argsTo).Closes w rq s d) := by
  exact disciplined_iff_loggedIn (renameBody_inOrder d argsFrom argsTo rq unset)
    (fun _ _ h => renameBody_conducted h) fun ht hc => renameBody_goes ht hc

theorem readdirBody_disciplined (he : s.exports.path = some e) (d : CStr) (dir : NfsFh3)
    (cookie : UInt64) (count : Nat) :
    Disciplined w (readdirBody w d cookie count rq) s ↔ (Connects w rq →
      (NfsRequest.readdir dir cookie count).Turns w rq s d →
      (NfsRequest.readdir dir cookie count).Closes w rq s d) := by
  obtain rfl := exportPath_eq he
  rcases ho : openDir w d rq s with ⟨st | o, s1⟩
  · -- it has not opened the collection
    have hm : readdirBody w d cookie count rq s = (.error st, s1) := by
      rw [readdirBody_split, Prog.bind_error ho]
    refine iff_of_true ?_ fun _ ⟨o, s1', h⟩ => ?_
    · obtain ⟨_, _, live, hlive⟩ := openDir_inOrder d rq s st s1 ho
      exact ⟨live, by rw [talk, hm, ← heard, hlive], fun reply h => by rw [hm] at h; cases h⟩
    · rw [ho] at h
      cases h
  · have ht : (NfsRequest.readdir dir cookie count).Turns w rq s d := ⟨o, s1, ho⟩
    rcases hm : readdirBody w d cookie count rq s with ⟨st | r, s'⟩
    · -- it has stopped at a question for a mode, with its connection open
      have hl := hm
      rw [readdirBody_split, Prog.bind_ok ho] at hl
      obtain ⟨hc, hcut⟩ := listDir_cut he ho hl
      simp only [hc, ht, forall_const]
      exact disciplined_iff_cut hm hcut
    · obtain ⟨hc, hs⟩ := readdirBody_conducted he hm
      simp only [hc, ht, forall_const]
      rw [disciplined_iff_session hm hs]
      simp only [not_true_eq_false, and_false, or_false]
      rfl

/-- **A request is disciplined** exactly when it closes what it opens: if it turns to iRODS, it is
no READ and the login succeeded, or it is a SETATTR that makes no call and had no connection. -/
theorem disciplined_iff (w : World L R) (rq : SvcReq) (q : NfsRequest) (s : Server L R) :
    Disciplined w (nfsProgram w rq q) s ↔
      ∀ fh, q.handle = some fh → ∀ d s1, prep w fh rq s = (.ok (.ok d), s1) →
        Connects w rq → q.Turns w rq s1 d → q.Closes w rq s1 d := by
  have any : ∀ {α : Type} {m : M L R α}, Frame (Foot w fun _ => True) m → Frame Grows m :=
    fun h => Foot.frame_grows h
  have refuse : ∀ {α : Type} (f : Nfsstat3 → α) (st : Nfsstat3),
      Frame (Ran w NoRods) (pure (f st) : M L R α) := fun _ _ => .pure _
  cases q with
  | null => exact iff_of_true (.idle (refl_of (Ran w NoRods) s)) fun _ h => nomatch h
  | unsupported => exact iff_of_true (.idle (refl_of (Ran w NoRods) s)) fun _ h => nomatch h
  | getattr object =>
    simp only [NfsRequest.handle, Option.some.injEq, forall_eq']
    refine disciplined_withPrep (refuse _) (fun d => any (getattrBody_frame ?_ _ _))
      fun d e s1 he => getattrBody_disciplined he d object
    simp
  | setattr object new =>
    simp only [NfsRequest.handle, Option.some.injEq, forall_eq']
    refine disciplined_withPrep (refuse _) (fun d => any (setattrBody_frame ?_ ?_ ?_ _ _ _ _))
      fun d e s1 he => setattrBody_disciplined he d object new
    all_goals simp
  | lookup what =>
    simp only [NfsRequest.handle, Option.some.injEq, forall_eq']
    refine disciplined_withPrep (fun st => ?_) (fun d => ?_) fun d e s1 he =>
      lookupBody_disciplined he d what
    · exact .bind (modify_frame fun _ => ⟨rfl, rfl, rfl, rfl, rfl, rfl⟩) fun _ => .pure _
    · rw [lookupBody_split]
      refine .bind ((lookupSoFar_idle _ _ _).mono fun _ _ h => h.grows) fun x => ?_
      exact any (lookupReply_foot (fun _ _ => trivial) _ _ _ _)
  | access object access =>
    simp only [NfsRequest.handle, Option.some.injEq, forall_eq']
    refine disciplined_withPrep (refuse _) (fun d => any (accessBody_frame ?_ ?_ _ _ _))
      fun d e s1 he => accessBody_disciplined he d object access
    all_goals simp
  | read file offset count =>
    simp only [NfsRequest.handle, Option.some.injEq, forall_eq']
    refine disciplined_withPrep (refuse _) (fun d => any (readBody_frame ?_ _ _ _ _ _))
      fun d e s1 he => readBody_disciplined he d file offset count _
    simp
  | write args =>
    simp only [NfsRequest.handle, Option.some.injEq, forall_eq']
    refine disciplined_withPrep (refuse _) (fun d => any (writeBody_frame ?_ ?_ ?_ _ _ _))
      fun d e s1 he => writeBody_disciplined he d args
    all_goals simp
  | create args how =>
    simp only [NfsRequest.handle, Option.some.injEq, forall_eq']
    refine disciplined_withPrep (refuse _) (fun d => any (createBody_foot ?_ ?_ ?_ ?_ _ _ _ _ _))
      fun d e s1 he => createBody_disciplined he d args how (w.junk s.tick)
    all_goals simp
  | mkdir args attributes =>
    simp only [NfsRequest.handle, Option.some.injEq, forall_eq']
    refine disciplined_withPrep (refuse _) (fun d => any (mkdirBody_frame ?_ ?_ ?_ ?_ _ _ _ _ _))
      fun d e s1 he => mkdirBody_disciplined he d args attributes (w.junk s.tick)
    all_goals simp
  | remove object =>
    simp only [NfsRequest.handle, Option.some.injEq, forall_eq']
    refine disciplined_withPrep (refuse _) (fun d => any (unlinkBody_frame (fun _ _ => trivial)
      (fun _ => trivial) (fun _ => trivial) (fun _ _ => trivial) _ _ _ _ _)) fun d e s1 he => ?_
    obtain rfl := exportPath_eq he
    exact unlinkBody_disciplined (fun _ _ => rfl) he d (w.junk s.tick)
  | rmdir object =>
    simp only [NfsRequest.handle, Option.some.injEq, forall_eq']
    refine disciplined_withPrep (refuse _) (fun d => any (unlinkBody_frame (fun _ _ => trivial)
      (fun _ => trivial) (fun _ => trivial) (fun _ _ => trivial) _ _ _ _ _)) fun d e s1 he => ?_
    obtain rfl := exportPath_eq he
    exact unlinkBody_disciplined (fun _ _ => rfl) he d (w.junk s.tick)
  | rename argsFrom argsTo =>
    simp only [NfsRequest.handle, Option.some.injEq, forall_eq']
    refine disciplined_withPrep (refuse _) (fun d => ?_)
      fun d e s1 he => renameBody_disciplined d argsFrom argsTo (w.junk s.tick)
    refine (renameBody_ran (E := fun _ => True) ?_ ?_ ?_ ?_ _ _ _ _ _).mono fun _ _ h => h.grows
    all_goals simp
  | readdir dir cookie count =>
    simp only [NfsRequest.handle, Option.some.injEq, forall_eq']
    refine disciplined_withPrep (refuse _) (fun d => any (readdirBody_frame ?_ ?_ _ _ _ _))
      fun d e s1 he => readdirBody_disciplined he d dir cookie count
    all_goals simp
  | fsstat fsroot =>
    simp only [NfsRequest.handle, Option.some.injEq, forall_eq']
    refine disciplined_withPrep (refuse _) (fun d => any (fsstatBody_frame _ _)) fun d e s1 he => ?_
    exact iff_of_true (.idle (fsstatBody_frame _ _ s1)) fun _ h => h.elim
  | fsinfo fsroot =>
    simp only [NfsRequest.handle, Option.some.injEq, forall_eq']
    refine disciplined_withPrep (refuse _) (fun d => any (.bind (getPostCached_frame _) fun _ =>
      .pure _)) fun d e s1 he => ?_
    refine iff_of_true (.idle ?_) fun _ h => h.elim
    exact Frame.bind (getPostCached_frame _) (fun _ => .pure _) s1
  | pathconf object =>
    simp only [NfsRequest.handle, Option.some.injEq, forall_eq']
    refine disciplined_withPrep (refuse _) (fun d => any (.bind (getPostCached_frame _) fun _ =>
      .pure _)) fun d e s1 he => ?_
    refine iff_of_true (.idle ?_) fun _ h => h.elim
    exact Frame.bind (getPostCached_frame _) (fun _ => .pure _) s1

end

/-! ## A READ, and a REMOVE without a login -/

/-- A server that refuses every login. -/
def refusingWorld : World Sandbox.Kernel Sandbox.Grid :=
  { Sandbox.publicWorld with
    rods := fun c g => match c with
      | .clientLogin _ => ({ status := -826000 }, g)
      | c => Sandbox.publicWorld.rods c g
    rods_store := fun c g hc => by
      cases c
      case clientLogin => rfl
      all_goals exact Sandbox.publicWorld.rods_store _ g hc }

/-- READ replies with its connection open; after a refused login REMOVE uses the connection that
`rodsLogin` has closed. -/
theorem connection_misused :
    (openConns []
        (talk readWorld (nfsProgram readWorld readReq (.read readHandle 0 2)) threeBytes) =
        some [{ id := 0, client := none }] ∧
      ¬ Disciplined readWorld (nfsProgram readWorld readReq (.read readHandle 0 2)) threeBytes) ∧
    openConns [] (talk refusingWorld (nfsProgram refusingWorld removeReq removeF)
      (mirrorServer fullGrid)) = none ∧
    ¬ Disciplined refusingWorld (nfsProgram refusingWorld removeReq removeF)
      (mirrorServer fullGrid) := by
  have hread : openConns [] (talk readWorld (nfsProgram readWorld readReq (.read readHandle 0 2))
      threeBytes) = some [{ id := 0, client := none }] := by decide +kernel
  have hremove : openConns [] (talk refusingWorld (nfsProgram refusingWorld removeReq removeF)
      (mirrorServer fullGrid)) = none := by decide +kernel
  have hreply : (nfsProgram readWorld readReq (.read readHandle 0 2) threeBytes).1.toOption.map
      NfsReply.status = some .ok := by decide +kernel
  refine ⟨⟨hread, ?_⟩, hremove, ?_⟩
  · rintro ⟨live, hlive, hnil⟩
    obtain ⟨reply, hr, _⟩ := Sandbox.replied hreply
    rw [hread, hnil reply hr] at hlive
    cases hlive
  · rintro ⟨live, hlive, _⟩
    rw [hremove] at hlive
    cases hlive

end NfsRods
