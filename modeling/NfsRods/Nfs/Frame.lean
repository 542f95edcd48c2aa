import NfsRods.Nfs.Modify

/-!
# What the procedures can do

The footprint of each procedure after `PREP` (`getattrBody_frame` and its siblings), and the results
of the steps they share: `prep` (`prep_cases`), turning to iRODS (`openRods_ends`,
`openRods_stops`) and rewriting a path buffer (`rewriteObj_ends`).
-/

namespace NfsRods

open CStr
open Prog (Ends Frame)

/-! ## PREP -/

section
variable {L R : Type} {w : World L R} {s s' : Server L R}

theorem exportsOptionsM_ran {E : Event → Prop} (path : Option CStr) (rq : SvcReq) :
    Frame (Ran w E) (exportsOptionsM path rq : M L R Lookup) :=
  fun _ => ⟨[], by simp [exportsOptionsM], by simp, rfl, rfl⟩

theorem exportsCompatM_ran {E : Event → Prop} (path : Option CStr) (rq : SvcReq) :
    Frame (Ran w E) (exportsCompatM path rq : M L R Nfsstat3) :=
  fun _ => ⟨[], by simp [exportsCompatM], by simp, rfl, rfl⟩

theorem Foot.frame_ran {E : Event → Prop} {α : Type} {m : M L R α} (hm : Frame (Foot w E) m) :
    Frame (Ran w E) m := hm.mono fun _ _ h => h.ran.mono fun _ h => h.1

/-- `PREP` changes nothing but the daemon's own state. -/
theorem prep_ran {E : Event → Prop} (hE : ∀ c : SysCall, c.setsId = true → E (.sys c))
    (fh : NfsFh3) (rq : SvcReq) : Frame (Ran w E) (prep w fh rq) := by
  refine .bind (Foot.frame_ran (switchToRoot_frame hE)) fun _ => ?_
  refine .bind (Foot.frame_ran (fhDecomp_foot _)) fun p => ?_
  refine .bind (exportsOptionsM_ran _ _) fun k => ?_
  cases p with
  | none => exact .pure _
  | some path =>
    refine .ite (fun _ => .pure _) fun _ => .ite (fun _ => .pure _) fun _ => ?_
    exact .bind (Foot.frame_ran (switchUser_frame hE _)) fun _ => .pure _

/-- What `PREP` has gone through when it lets a request in. -/
theorem prep_inv {fh : NfsFh3} {rq : SvcReq} {path : CStr}
    (h : prep w fh rq s = (.ok (.ok path), s')) :
    ∃ s1 s2 v, switchToRoot w s = (.ok (), s1) ∧ fhDecomp w fh s1 = (.ok (some path), s2) ∧
      v = (exportsOptions s.exportList rq.remote (some path) s.exports).vars ∧ v.opts ≠ none ∧
      fh.obj.pwhash = v.passwordHash ∧ s2.exportList = s.exportList ∧
      switchUser w rq { s2 with exports := v } = (.ok (), s') := by
  obtain ⟨_, s1, h1, h⟩ := Prog.bind_eq_ok h
  obtain ⟨p, s2, h2, h⟩ := Prog.bind_eq_ok h
  obtain ⟨k, s3, h3, h⟩ := Prog.bind_eq_ok h
  have f1 : Foot w (fun _ => True) s s1 :=
    (switchToRoot_frame (E := fun _ => True) fun _ _ => trivial).ok h1
  have f2 := (fhDecomp_foot (w := w) (E := fun _ => True) fh).ok h2
  obtain ⟨rfl, rfl⟩ : exportsOptions s2.exportList rq.remote p s2.exports = k ∧
      { s2 with exports := k.vars } = s3 := by
    simp only [exportsOptionsM, Prod.mk.injEq, Except.ok.injEq] at h3
    obtain ⟨rfl, rfl⟩ := h3
    exact ⟨rfl, rfl⟩
  cases p with
  | none => simp at h
  | some path' =>
    simp only [Prog.ite_run] at h
    split at h
    · simp at h
    · rename_i ho
      split at h
      · simp at h
      · rename_i hp
        obtain ⟨_, s4, h4, h⟩ := Prog.bind_eq_ok h
        simp only [Prog.pure_run, Prod.mk.injEq, Except.ok.injEq] at h
        obtain ⟨rfl, rfl⟩ := h
        refine ⟨s1, s2, _, h1, h2, ?_, ho, not_not.1 hp, f2.exportList.trans f1.exportList, h4⟩
        rw [f2.exportList, f1.exportList, f2.exports, f1.exports]

/-- What `PREP` leaves when it lets a request in: the export that governs the path. -/
theorem prep_ok {fh : NfsFh3} {rq : SvcReq} {path : CStr}
    (h : prep w fh rq s = (.ok (.ok path), s')) :
    s'.exports = (exportsOptions s.exportList rq.remote (some path) s.exports).vars ∧
      s'.exports.opts.isSome ∧ s'.exportList = s.exportList := by
  obtain ⟨s1, s2, v, _, _, rfl, ho, _, hl, h4⟩ := prep_inv h
  have f4 : Foot w (fun _ => True) _ s' :=
    (switchUser_frame (E := fun _ => True) (fun _ _ => trivial) rq).ok h4
  refine ⟨f4.exports, ?_, ?_⟩
  · rw [f4.exports]
    exact Option.isSome_iff_ne_none.2 ho
  · rw [f4.exportList]
    exact hl

/-- A request that is let in has an `export_path`. -/
theorem prep_path {fh : NfsFh3} {rq : SvcReq} {path : CStr}
    (h : prep w fh rq s = (.ok (.ok path), s')) : ∃ e, s'.exports.path = some e := by
  obtain ⟨hv, ho, _⟩ := prep_ok h
  rw [hv] at ho ⊢
  rw [← Option.isSome_iff_exists, exportsOptions_path]
  exact ho

/-- `PREP` never refuses with `NFS3_OK`. -/
theorem prep_refuses {fh : NfsFh3} {rq : SvcReq} {st : Nfsstat3}
    (h : prep w fh rq s = (.ok (.error st), s')) : st ≠ .ok := by
  obtain ⟨_, s1, _, h⟩ := Prog.bind_eq_ok h
  obtain ⟨p, s2, _, h⟩ := Prog.bind_eq_ok h
  obtain ⟨k, s3, _, h⟩ := Prog.bind_eq_ok h
  cases p with
  | none =>
    simp only [Prog.pure_run, Prod.mk.injEq, Except.ok.injEq, Except.error.injEq] at h
    rw [← h.1]
    decide
  | some path =>
    dsimp only at h
    simp only [Prog.ite_run] at h
    split at h
    · simp only [Prog.pure_run, Prod.mk.injEq, Except.ok.injEq, Except.error.injEq] at h
      rw [← h.1]
      decide
    split at h
    · simp only [Prog.pure_run, Prod.mk.injEq, Except.ok.injEq, Except.error.injEq] at h
      rw [← h.1]
      decide
    · obtain ⟨_, s4, _, h⟩ := Prog.bind_eq_ok h
      simp at h

/-- A procedure refuses a request, or runs its body. -/
theorem withPrep_run {α : Type} (fh : NfsFh3) (rq : SvcReq) (refuse : Nfsstat3 → M L R α)
    (body : CStr → M L R α) (s : Server L R) :
    (∃ path s1, prep w fh rq s = (.ok (.ok path), s1) ∧
      withPrep w fh rq refuse body s = body path s1) ∨
    (∃ st s1, prep w fh rq s = (.ok (.error st), s1) ∧
      withPrep w fh rq refuse body s = refuse st s1) ∨
    ∃ st s1, prep w fh rq s = (.error st, s1) ∧
      withPrep w fh rq refuse body s = (.error st, s1) := by
  rcases hp : prep w fh rq s with ⟨st | st | path, s1⟩
  · exact .inr (.inr ⟨st, s1, rfl, Prog.bind_error hp⟩)
  · exact .inr (.inl ⟨st, s1, rfl, Prog.bind_ok hp⟩)
  · exact .inl ⟨path, s1, rfl, Prog.bind_ok hp⟩

end

/-! ## Turning to iRODS -/

section
variable {L R : Type} {w : World L R} {s : Server L R} {e : CStr} {uid : UInt32}

theorem connectUser_ends (h : s.exports.path = some e) (hk : Known w uid) :
    Ends (AtRods (session w e uid s.rods).2) (connectUser w uid) s
      (.ok (session w e uid s.rods).1) := by
  refine (rodsConnecUser_ends h hk).seq (q := AtRods (session w e uid s.rods).2)
    (fun s1 h1 => ?_) fun _ _ h1 h2 => h1.trans h2
  obtain ⟨i, s2, h2, hr2⟩ := rodsLogin_ends (w := w) (session w e uid s.rods).1 s1
  refine Ends.seq ⟨s2, h2, hr2⟩ (q := Tacit) (fun _ _ => .pure _ _) fun s2 s3 h2 h3 => ?_
  refine ⟨trans_of Aside h2.1 h3.aside, ?_⟩
  rw [h3.rods, h2.2, h1.2]
  rfl

theorem connectUser_stops (h : s.exports.path = some e) (hk : ¬ Known w uid) :
    (connectUser w uid s).1 = .error .badFree :=
  Prog.fst_bind_error (rodsConnecUser_stops h hk)

/-- The iRODS name of a mirror path. -/
theorem rodsName_ends (h : s.exports.path = some e) (p : CStr) (uid : UInt32) :
    Ends Tacit (rodsName w p uid) s (rodsPath w e uid (irodsPath w e uid p)) :=
  (getIRODSpathGetAttr_ends h p uid).bind fun s' hs =>
    getRodsPath_ends (by rw [hs.exports, h]) uid _

/-- A known caller of a daemon with a zone has an iRODS home. -/
theorem rodsHome_ok (hk : Known w uid) (hz : w.conf.zone.isSome) (e : CStr) :
    ∃ home, rodsHome w e uid = .ok home := by
  obtain ⟨z, hz⟩ := Option.isSome_iff_exists.1 hz
  unfold rodsHome
  rw [hz]
  cases hp : publicPath w e with
  | true => exact ⟨_, rfl⟩
  | false =>
    have : w.conf.privateColl = true := by
      unfold publicPath at hp
      simpa using (Bool.or_eq_false_iff.1 hp).2
    obtain ⟨n, hn⟩ := Option.isSome_iff_exists.1 (hk this)
    simp [hn]

/-- The iRODS name of a mirror path, where it can be built. -/
def targetName (w : World L R) (e : CStr) (uid : UInt32) (p : CStr) : CStr :=
  match rodsHome w e uid with
  | .ok home => home ++ irodsPath w e uid p
  | .error _ => []

theorem rodsPath_targetName (hk : Known w uid) (hz : w.conf.zone.isSome) (e p : CStr) :
    rodsPath w e uid (irodsPath w e uid p) = .ok (targetName w e uid p) := by
  obtain ⟨home, hh⟩ := rodsHome_ok hk hz e
  simp [rodsPath, targetName, hh, Except.map]

/-- Without a zone no iRODS name can be built. -/
theorem rodsPath_zone_none (hz : ¬ w.conf.zone.isSome) (e p : CStr) :
    rodsPath w e uid p = .error .nullZone := by
  have hz : w.conf.zone = none := by simpa using hz
  simp [rodsPath, rodsHome, hz, Except.map]

theorem openRods_ends (h : s.exports.path = some e) (hk : Known w uid) (hz : w.conf.zone.isSome)
    (p : CStr) : Ends (AtRods (session w e uid s.rods).2) (openRods w p uid) s
      (.ok ((session w e uid s.rods).1, targetName w e uid p)) := by
  refine (connectUser_ends h hk).seq (q := Tacit) (fun s1 h1 => ?_) fun s1 s2 h1 h2 =>
    ⟨trans_of Aside h1.1 h2.aside, by rw [h2.rods, h1.2]⟩
  have e1 : s1.exports.path = some e := by rw [h1.1.exports, h]
  have hn := rodsName_ends (w := w) e1 p uid
  rw [rodsPath_targetName hk hz] at hn
  exact hn.bind fun s2 _ => (debug_tacit _ s2).bind fun _ _ => .pure _ _

/-- Turning to iRODS stops the process when the caller is unknown or no zone is set. -/
theorem openRods_stops (h : s.exports.path = some e) (hn : ¬ (Known w uid ∧ w.conf.zone.isSome))
    (p : CStr) : ∃ st, (openRods w p uid s).1 = .error st := by
  by_cases hk : Known w uid
  · have hz : ¬ w.conf.zone.isSome := fun hz => hn ⟨hk, hz⟩
    obtain ⟨s1, h1, hr1⟩ := connectUser_ends h hk
    have e1 : s1.exports.path = some e := by rw [hr1.1.exports, h]
    obtain ⟨s2, h2, _⟩ := rodsName_ends (w := w) e1 p uid
    rw [rodsPath_zone_none hz] at h2
    exact ⟨.nullZone, by rw [openRods, Prog.bind_ok h1, Prog.bind_error h2]⟩
  · exact ⟨.badFree, Prog.fst_bind_error (connectUser_stops h hk)⟩

/-- A buffer is rewritten to the mirror's path. -/
theorem rewriteObj_ends (h : s.exports.path = some e) (filled : Bool) (obj : CStr)
    (uid : UInt32) : Ends Tacit (rewriteObj w filled obj uid) s (.ok (realPath w e uid obj)) := by
  refine (getRealPathNFS_ends h obj uid).bind fun s1 h1 => (debug_tacit _ s1).bind fun s2 h2 => ?_
  have e2 : s2.exports.path = some e := by rw [h2.exports, h1.exports, h]
  exact (getRealPathNFS_ends e2 obj uid).bind fun s3 _ => ⟨_, rfl, rfl⟩

end

/-- RENAME after `exports_compat`: both buffers are rewritten, and the object is moved. -/
def renameRest {L R : Type} (w : World L R) (status : Nfsstat3) (fromObj : CStr)
    (cobj : Option CStr)
    (rq : SvcReq) (unset : Junk) : M L R Nfsstat3 := do
  let fromObj ← rewriteObj w true fromObj rq.uid
  let toObj ← rewriteObj w cobj.isSome (cobj.getD unset.buf) rq.uid
  if status = .ok then renameMove w fromObj toObj rq else pure status

theorem renameTo_bind {L R : Type} {w : World L R} (fromObj : CStr) (toPath : Option CStr)
    (name : CStr) (rq : SvcReq) (unset : Junk) : renameTo w fromObj toPath name rq unset =
      exportsCompatM toPath rq >>= fun compat => renameRest w (join (catName toPath name).1 compat)
        fromObj (catName toPath name).2 rq unset := rfl

/-! ## Footprints -/

section
variable {L R : Type} {w : World L R} {E : Event → Prop} {r : Server L R → Server L R → Prop}
  [OwnFrame r] [Allows w E r]
  (hE : ∀ e, e.calm = true → E e)

include hE

theorem connectUser_frame (uid : UInt32) : Frame r (connectUser w uid) :=
  .bind (rodsConnecUser_frame hE _) fun _ => .bind (rodsLogin_frame hE _) fun _ => .pure _

omit hE in
theorem rodsName_frame (hp : ∀ p, E (.exportPath p)) (p : CStr) (uid : UInt32) :
    Frame r (rodsName w p uid) :=
  .bind (getIRODSpathGetAttr_frame hp _ _) fun _ => getRodsPath_frame hp _ _

theorem openRods_frame (p : CStr) (uid : UInt32) : Frame r (openRods w p uid) :=
  .bind (connectUser_frame hE _) fun _ => .bind (rodsName_frame (calm_path hE) _ _) fun _ =>
    .bind (debug_frame _) fun _ => .pure _

omit hE in
theorem rewriteObj_frame (hp : ∀ p, E (.exportPath p)) (ha : ∀ f n, E (.toArray f n))
    (filled : Bool) (obj : CStr) (uid : UInt32) : Frame r (rewriteObj w filled obj uid) :=
  .bind (getRealPathNFS_frame hp _ _) fun _ => .bind (debug_frame _) fun _ =>
    .bind (getRealPathNFS_frame hp _ _) fun _ => toArray_frame w (ha _ _)

/-- Without an `export_path` a buffer is not reached. -/
theorem rewriteObj_stops {s : Server L R} (h : s.exports.path = none) (filled : Bool) (obj : CStr)
    (uid : UInt32) :
    ∃ s', rewriteObj w filled obj uid s = (.error .nullExportPath, s') ∧ Foot w E s s' := by
  obtain ⟨s1, h1, t1⟩ := debug_tacit (w := w) "getRealPathNFS %s" s
  obtain ⟨s2, h2, _⟩ := isPublic_stops (w := w) (s := s1) (by rw [t1.exports, h])
  have hr : getRealPathNFS w obj uid s = (.error .nullExportPath, s2) := by
    rw [getRealPathNFS, Prog.bind_ok h1, Prog.bind_error h2]
  have f : Foot w E s (getRealPathNFS w obj uid s).2 :=
    getRealPathNFS_frame (calm_path hE) obj uid s
  rw [hr] at f
  exact ⟨s2, by rw [rewriteObj, Prog.bind_error hr], f⟩

theorem remoteSize_frame (name : CStr) (uid : UInt32) : Frame r (remoteSize w name uid) :=
  .bind (connectUser_frame hE _) fun _ => .bind (fileSize_frame hE _ _) fun _ =>
    .bind (rcDisconnect_frame hE _) fun _ => .pure _

theorem getattrBody_frame (path : CStr) (rq : SvcReq) : Frame r (getattrBody w path rq) := by
  refine .bind (rodsName_frame (calm_path hE) _ _) fun _ =>
    .bind (getRealPathNFS_frame (calm_path hE) _ _) fun _ => ?_
  refine .bind (debug_frame _) fun _ => .bind (debug_frame _) fun _ => ?_
  refine .bind (getPostCached_frame _) fun _ => .ite (fun _ => ?_) fun _ => ?_
  · exact .bind (remoteSize_frame hE _ _) fun _ => .bind (debug_frame _) fun _ => .pure _
  · exact .bind (debug_frame _) fun _ => .pure _

theorem accessBody_frame (hs : ∀ p d, E (.sys (.store p d))) (path : CStr) (access : Nat)
    (rq : SvcReq) : Frame r (accessBody w path access rq) := by
  refine .bind (getRealPathNFS_frame (calm_path hE) _ _) fun _ => .bind (debug_frame _) fun _ => ?_
  refine .bind (openRods_frame hE _ _) fun _ =>
    .bind (.bind (rods_frame (hE _ rfl)) fun _ => ?_) fun _ => ?_
  · exact .bind (.when fun _ => .bind (sys_frame (hs _ _)) fun _ => .pure _) fun _ => .pure _
  · refine .bind (rcDisconnect_frame hE _) fun _ => .bind (getPostCached_frame _) fun _ => ?_
    exact .bind .get fun _ => .bind (debug_frame _) fun _ => .pure _

theorem readRemote_frame (path : CStr) (offset count : Nat) (rq : SvcReq) :
    Frame r (readRemote w path offset count rq) := by
  refine .bind (connectUser_frame hE _) fun _ =>
    .bind (getRealPathNFS_frame (calm_path hE) _ _) fun _ => ?_
  refine .bind (debug_frame _) fun _ => .bind (rodsName_frame (calm_path hE) _ _) fun _ => ?_
  refine .bind (rods_frame (hE _ rfl)) fun _ =>
    .ite (fun _ => .bind .get fun _ => .pure _) fun _ => ?_
  exact .bind (rods_frame (hE _ rfl)) fun _ => .ite (fun _ => .pure _) fun _ =>
    .bind .get fun _ => .pure _

theorem readBody_frame (path : CStr) (offset count : Nat) (rq : SvcReq) (unset : Int) :
    Frame r (readBody w path offset count rq unset) := by
  refine .bind .get fun _ => .bind (readExecutable_frame (calm_sys hE) _ _) fun _ => ?_
  refine .bind (accessByOwner_frame (calm_sys hE) _ _ _) fun _ => ?_
  refine .bind (.ite (fun _ => readRemote_frame hE _ _ _ _) fun _ => .pure _) fun _ => ?_
  exact .bind (getPostStat_frame _ _) fun _ => .bind (debug_frame _) fun _ => .pure _

theorem readdirBody_frame (hs : ∀ c, E (.sys c)) (path : CStr) (cookie : UInt64) (count : Nat)
    (rq : SvcReq) : Frame r (readdirBody w path cookie count rq) := by
  refine .bind (rodsName_frame (calm_path hE) _ _) fun _ => .bind (debug_frame _) fun _ => ?_
  refine .bind (getRealPathNFS_frame (calm_path hE) _ _) fun _ => .bind (debug_frame _) fun _ => ?_
  refine .bind (getRealPathNFS_frame (calm_path hE) _ _) fun p =>
    .bind (connectUser_frame hE _) fun _ => ?_
  refine .bind (listCollection_frame (fun c _ => hs c) (fun _ => hE _ rfl) fun _ hc =>
    hE _ (by simp [Event.calm, Event.mutates, hc])) fun _ => ?_
  refine .bind (readDir_frame _ _ _) fun _ => .bind (getPostStat_frame _ _) fun _ => ?_
  exact .bind (rcDisconnect_frame hE _) fun _ => .bind (debug_frame _) fun _ => .pure _

omit hE in
theorem fhComp_ran (path : CStr) (rq : SvcReq) (needDir : Bool) :
    Frame (Ran w E) (fhComp w path rq needDir) := by
  refine .bind (.bind .get fun s => .ite (fun _ => ?_) fun _ => .pure _) fun _ => ?_
  · refine .bind (exportsOptionsM_ran _ _) fun k => .ite (fun _ => .pure _) fun _ => ?_
    exact .ite (fun _ => .pure _) fun _ => .pure _
  · exact .bind (.when fun _ => Foot.frame_ran (fhCacheAdd_foot _ _ _)) fun _ =>
      .bind .get fun _ => .pure _

omit hE in
theorem lookupLocal_ran (what : Diropargs3) (path : CStr) (rq : SvcReq) :
    Frame (Ran w E) (lookupLocal w what path rq) := by
  unfold lookupLocal
  split
  · refine .bind (Foot.frame_ran (lstat_frame _)) fun st => ?_
    cases st with
    | none => exact .bind .get fun _ => .pure _
    | some buf =>
      refine .bind (.ite (fun _ => .bind (fhComp_ran _ _ _) fun _ => .pure _) fun _ => ?_)
        fun fh => ?_
      · exact .bind (Foot.frame_ran (fhExtend_frame _ _ _ _)) fun _ =>
          .bind (Foot.frame_ran (fhCacheAdd_foot _ _ _)) fun _ => .pure _
      · cases fh with
        | none => exact .pure _
        | some fh =>
          refine Foot.frame_ran (.bind (getPostBuf_frame _ _) fun _ => ?_)
          exact .bind (modify_foot fun _ => ⟨rfl, rfl, rfl, rfl, rfl⟩) fun _ => .pure _
  · exact .pure _

theorem lookupBody_ran (what : Diropargs3) (dir : CStr) (rq : SvcReq) :
    Frame (Ran w E) (lookupBody w what dir rq) := by
  refine .bind (Foot.frame_ran (debug_frame _)) fun _ =>
    .bind (Foot.frame_ran (getRodsPath_frame (calm_path hE) _ _)) fun _ => ?_
  refine .bind (Foot.frame_ran (debug_frame _)) fun _ =>
    .bind (Foot.frame_ran (getRealPathNFS_frame (calm_path hE) _ _)) fun _ => ?_
  refine .bind (Foot.frame_ran (debug_frame _)) fun _ => .bind (lookupLocal_ran _ _ _) fun _ => ?_
  refine .bind (Foot.frame_ran (getPostStat_frame _ _)) fun _ => .bind .get fun _ => ?_
  refine .bind (.when fun _ => ?_) fun _ => .bind (Foot.frame_ran (debug_frame _)) fun _ =>
    .bind .get fun _ => .pure _
  exact Foot.frame_ran (.bind (remoteSize_frame hE _ _) fun _ =>
    modify_foot fun _ => ⟨rfl, rfl, rfl, rfl, rfl⟩)

omit hE in
theorem fsstatBody_frame (path : CStr) (rq : SvcReq) : Frame r (fsstatBody w path rq) := by
  refine .bind (getPostCached_frame _) fun _ => .bind .get fun _ => ?_
  split
  · exact .ite (fun _ => .pure _) fun _ => .pure _
  · exact .pure _

/-! ### Modifying procedures -/

section
variable (hr : ∀ c, E (.rods c))

include hr

theorem remoteStep_frame (call : CStr → Comm → RodsCall) (obj : CStr) (rq : SvcReq) :
    Frame r (remoteStep w call obj rq) := by
  refine .bind (openRods_frame hE _ _) fun _ =>
    .bind (.bind (rods_frame (hr _)) fun _ => .pure _) fun _ => ?_
  exact .bind (debug_frame _) fun _ => rcDisconnect_frame hE _

theorem renameRemote_frame (fromObj toObj : CStr) (rq : SvcReq) :
    Frame r (renameRemote w fromObj toObj rq) := by
  refine .bind (connectUser_frame hE _) fun _ =>
    .bind (rodsName_frame (calm_path hE) _ _) fun _ => ?_
  refine .bind (rodsName_frame (calm_path hE) _ _) fun _ => .bind (debug_frame _) fun _ => ?_
  refine .bind (debug_frame _) fun _ =>
    .bind (.bind (rods_frame (hr _)) fun _ => .pure _) fun _ => ?_
  exact .bind (rcDisconnect_frame hE _) fun _ => .bind (debug_frame _) fun _ => .pure _

end

section
variable (hs : ∀ c : SysCall, c.mutates = false → E (.sys c))

omit hE

include hs

section
variable (hu : ∀ p actime modtime, E (.sys (.utime p actime modtime)))

include hu

section
variable {obj : CStr} (hc : ∀ dev ino, Frame r (fhCacheAdd dev ino obj : M L R Unit))

include hc

omit hu in
theorem createdObj_frame (dir : NfsFh3) (buf : Stat) (fd : Int) (rq : SvcReq) :
    Frame r (createdObj w dir obj buf fd rq) :=
  .bind (hc _ _) fun _ => .bind (sys_frame (hs _ rfl)) fun _ =>
    .bind (fhExtend_frame _ _ _ _) fun _ => .bind (getPostBuf_frame _ _) fun _ => .pure _

theorem createOpened_frame (dir : NfsFh3) (how : Createhow3) (status : Nfsstat3) (fd : Int)
    (rq : SvcReq) : Frame r (createOpened w dir obj how status fd rq) := by
  refine .bind (query_frame _) fun b => ?_
  cases b with
  | none => exact .bind (sys_frame (hs _ rfl)) fun _ => .pure _
  | some buf =>
    refine .bind ?_ fun _ => .ite (fun _ => .bind (sys_frame (hs _ rfl)) fun _ => .pure _)
      fun _ => ?_
    · cases how with
      | exclusive verf => exact sys_frame (hu _ _ _)
      | _ => exact .pure _
    · exact .bind (createdObj_frame hs hc _ _ _ _) fun _ => .pure _

omit hu in
theorem createExists_frame (dir : NfsFh3) (verf : List UInt8) (rq : SvcReq) :
    Frame r (createExists w dir obj verf rq) := by
  refine .bind (sys_frame (hs _ rfl)) fun _ => ?_
  refine .bind (.ite (fun _ => query_frame _) fun _ => .pure _) fun b => ?_
  cases b with
  | none => exact .bind .get fun _ => .pure _
  | some buf =>
    refine .ite (fun _ => ?_) fun _ => .pure _
    exact .bind (createdObj_frame hs hc _ _ _ _) fun _ => .pure _

/-- Of the handle cache CREATE changes no more than that it adds the object. -/
theorem createFinish_frame (dir : NfsFh3) (how : Createhow3) (status : Nfsstat3) (fd : Int)
    (rq : SvcReq) : Frame r (createFinish w dir obj how status fd rq) := by
  refine .ite (fun _ => createOpened_frame hs hu hc _ _ _ _ _) fun _ =>
    .ite (fun _ => ?_) fun _ => .pure _
  refine .bind .get fun _ => ?_
  cases how with
  | exclusive verf => exact .ite (fun _ => createExists_frame hs hc _ _ _) fun _ => .pure _
  | _ => exact .pure _

end

theorem createFinish_foot (dir : NfsFh3) (obj : CStr) (how : Createhow3) (status : Nfsstat3)
    (fd : Int) (rq : SvcReq) : Frame (Foot w E) (createFinish w dir obj how status fd rq) :=
  createFinish_frame hs hu (fun _ _ => fhCacheAdd_foot _ _ _) dir how status fd rq

end

end

section
variable (hs : ∀ c, E (.sys c))

omit hE

include hs

theorem createOpen_frame (status : Nfsstat3) (obj : CStr) (how : Createhow3) (unset : Sattr3) :
    Frame r (createOpen w status obj how unset) :=
  .ite (fun _ => sys_frame (hs _)) fun _ => .pure _

theorem unlinkLocal_frame (u : Unlink) (status : Nfsstat3) (obj : CStr) :
    Frame r (unlinkLocal w u status obj) :=
  .ite (fun _ => .bind (modify_frame fun _ => ⟨rfl, rfl, rfl, rfl, rfl, rfl⟩) fun _ =>
    .bind (sys_frame (hs _)) fun _ => .bind .get fun _ => .pure _) fun _ => .pure _

end

section
variable (hs : ∀ c, E (.sys c)) (hr : ∀ c, E (.rods c))

include hs hr

theorem setattrBody_frame (path : CStr) (object : NfsFh3) (new : Sattr3) (rq : SvcReq) :
    Frame r (setattrBody w path object new rq) := by
  refine .bind (getRealPathNFS_frame (calm_path hE) _ _) fun _ => .bind (debug_frame _) fun _ =>
    .bind .get fun _ => ?_
  refine .bind (.ite (fun _ => ?_) fun _ => .pure _) fun _ => ?_
  · refine .bind (setAttr_frame hs _ _ _) fun _ => .bind (openRods_frame hE _ _) fun _ => ?_
    refine .ite (fun _ => ?_) fun _ => ?_
    · exact .bind (debug_frame _) fun _ => .bind (rcDisconnect_frame hE _) fun _ => .pure _
    · refine .bind junk_frame fun _ => .bind (setAttrIrods_frame hr _ _ _ _) fun _ => ?_
      exact .bind (rcDisconnect_frame hE _) fun _ => .pure _
  · exact .bind (getPostStat_frame _ _) fun _ => .bind (debug_frame _) fun _ => .pure _

theorem writeFd_frame (path : CStr) (args : Write3args) (rq : SvcReq) (fd : Int) :
    Frame r (writeFd w path args rq fd) := by
  refine .bind (sys_frame (hs _)) fun _ => .bind (openRods_frame hE _ _) fun _ =>
    .bind ?_ fun _ => ?_
  · refine .bind (rods_frame (hr _)) fun _ => ?_
    refine .bind (rods_frame (hr _)) fun _ => .ite (fun _ => .pure _) fun _ => ?_
    refine .bind (rods_frame (hr _)) fun _ => .ite (fun _ => .pure _) fun _ => ?_
    exact .bind (rods_frame (hr _)) fun _ => .pure _
  · refine .bind (debug_frame _) fun _ => .bind (debug_frame _) fun _ => ?_
    exact .bind (rcDisconnect_frame hE _) fun _ =>
      .bind (fdClose_frame (calm_sys hE) _ _ _) fun _ => .pure _

theorem writeBody_frame (path : CStr) (args : Write3args) (rq : SvcReq) :
    Frame r (writeBody w path args rq) := by
  refine .bind (getRealPathNFS_frame (calm_path hE) _ _) fun _ => .bind (debug_frame _) fun _ =>
    .bind .get fun _ => ?_
  refine .bind (accessByOwner_frame (calm_sys hE) _ _ _) fun _ =>
    .bind (.ite (fun _ => ?_) fun _ => .pure _) fun _ => ?_
  · refine .bind (fdOpen_frame (calm_sys hE) _ _ _ _) fun fd => .ite (fun _ => ?_) fun _ =>
      .bind .get fun _ => .pure _
    refine .bind (writeFd_frame hE hs hr _ _ _ fd) fun _ => .bind .get fun _ => ?_
    exact .ite (fun _ => .pure _) fun _ => .pure _
  · refine .bind .get fun _ => .bind (getPostStat_frame _ _) fun _ => ?_
    exact .bind (debug_frame _) fun _ => .pure _

theorem renameMove_frame (fromObj toObj : CStr) (rq : SvcReq) :
    Frame r (renameMove w fromObj toObj rq) :=
  .bind (modify_frame fun _ => ⟨rfl, rfl, rfl, rfl, rfl, rfl⟩) fun _ =>
    .bind (renameRemote_frame hE hr _ _ _) fun _ => .bind (sys_frame (hs _)) fun _ =>
    .bind .get fun _ => .pure _

omit hE hs hr in
/-- The attributes RENAME reads for its reply. -/
theorem renameEnd_frame (status : Nfsstat3) (pre : PreOpAttr) (fromPath : CStr)
    (toPath : Option CStr)
    (argsFrom : Diropargs3) (rq : SvcReq) :
    Frame r (renameEnd w status pre fromPath toPath argsFrom rq) :=
  .bind (debug_frame _) fun _ => .bind (getPostLl_frame _ _ _ _) fun _ => .bind .get fun _ =>
    .bind (getPostStat_frame _ _) fun _ => .bind (debug_frame _) fun _ => .pure _

/-- Where the status is not `NFS3_OK` nothing is opened, and nothing added to the handle cache. -/
theorem createAct_frame (path : CStr) (args : Diropargs3) (how : Createhow3) (rq : SvcReq)
    (unset : Sattr3) (status : Nfsstat3) (obj : CStr)
    (hc : status = .ok → ∀ dev ino, Frame r (fhCacheAdd dev ino obj : M L R Unit)) :
    Frame r (createAct w path args how rq unset status obj) := by
  refine .bind_result (createOpen_frame hs _ _ _ _) fun s fd s' hfd => ?_
  refine .bind (remoteStep_frame hE hr _ _ _) fun _ => .bind ?_ fun _ => .bind .get fun _ => ?_
  · by_cases hok : status = .ok
    · exact createFinish_frame (fun c _ => hs c) (fun _ _ _ => hs _) (hc hok) _ _ _ _ _
    · obtain rfl : fd = -1 := by
        rw [createOpen, if_neg hok] at hfd
        cases hfd
        rfl
      rw [createFinish, if_neg (by simp), if_neg hok]
      exact .pure _
  · exact .bind (getPostStat_frame _ _) fun _ => .bind (debug_frame _) fun _ => .pure _

theorem createAct_foot (path : CStr) (args : Diropargs3) (how : Createhow3) (rq : SvcReq)
    (unset : Sattr3) (status : Nfsstat3) (obj : CStr) :
    Frame (Foot w E) (createAct w path args how rq unset status obj) :=
  createAct_frame hE hs hr path args how rq unset status obj fun _ _ _ => fhCacheAdd_foot _ _ _

theorem mkdirMake_frame (dir : NfsFh3) (obj : CStr) (attributes : Sattr3) (rq : SvcReq) :
    Frame r (mkdirMake w dir obj attributes rq) := by
  refine .bind (sys_frame (hs _)) fun _ => .bind (remoteStep_frame hE hr _ _ _) fun _ => ?_
  refine .ite (fun _ => .bind .get fun _ => .pure _) fun _ => ?_
  exact .bind (fhExtendType_frame _ _ _) fun _ => .bind (getPostCached_frame _) fun _ => .pure _

theorem mkdirAct_frame (path : CStr) (args : Diropargs3) (attributes : Sattr3) (rq : SvcReq)
    (pre : PreOpAttr) (status : Nfsstat3) (obj : CStr) :
    Frame r (mkdirAct w path args attributes rq pre status obj) := by
  refine .bind (debug_frame _) fun _ => .bind (.ite (fun _ => ?_) fun _ => .pure _) fun _ => ?_
  · exact mkdirMake_frame hE hs hr _ _ _ _
  · exact .bind (getPostLl_frame _ _ _ _) fun _ => .bind (debug_frame _) fun _ => .pure _

theorem unlinkAct_frame (u : Unlink) (path : CStr) (rq : SvcReq) (status : Nfsstat3) (obj : CStr) :
    Frame r (unlinkAct w u path rq status obj) := by
  refine .bind (debug_frame _) fun _ => .bind (unlinkLocal_frame hs _ _ _) fun _ => ?_
  refine .bind (remoteStep_frame hE hr _ _ _) fun _ => .bind .get fun _ => ?_
  exact .bind (getPostStat_frame _ _) fun _ => .bind (debug_frame _) fun _ => .pure _

variable (ha : ∀ f n, E (.toArray f n))

include ha

theorem createBody_foot (path : CStr) (args : Diropargs3) (how : Createhow3) (rq : SvcReq)
    (unset : Junk) : Frame (Foot w E) (createBody w path args how rq unset) :=
  .bind .get fun _ => .bind (rewriteObj_frame (calm_path hE) ha _ _ _) fun _ =>
    createAct_foot hE hs hr _ _ _ _ _ _ _

theorem mkdirBody_frame (path : CStr) (args : Diropargs3) (attributes : Sattr3) (rq : SvcReq)
    (unset : Junk) : Frame r (mkdirBody w path args attributes rq unset) :=
  .bind .get fun _ => .bind (rewriteObj_frame (calm_path hE) ha _ _ _) fun _ =>
    mkdirAct_frame hE hs hr _ _ _ _ _ _ _

theorem unlinkBody_frame (u : Unlink) (path name : CStr) (rq : SvcReq) (unset : Junk) :
    Frame r (unlinkBody w u path name rq unset) :=
  .bind .get fun _ => .bind (rewriteObj_frame (calm_path hE) ha _ _ _) fun _ =>
    unlinkAct_frame hE hs hr _ _ _ _ _

theorem renameRest_frame (status : Nfsstat3) (fromObj : CStr) (cobj : Option CStr) (rq : SvcReq)
    (unset : Junk) : Frame r (renameRest w status fromObj cobj rq unset) := by
  refine .bind (rewriteObj_frame (calm_path hE) ha _ _ _) fun _ =>
    .bind (rewriteObj_frame (calm_path hE) ha _ _ _) fun _ => ?_
  exact .ite (fun _ => renameMove_frame hE hs hr _ _ _) fun _ => .pure _

theorem renameTo_ran (fromObj : CStr) (toPath : Option CStr) (name : CStr) (rq : SvcReq)
    (unset : Junk) : Frame (Ran w E) (renameTo w fromObj toPath name rq unset) :=
  .bind (exportsCompatM_ran _ _) fun _ => Foot.frame_ran (renameRest_frame hE hs hr ha _ _ _ _ _)

theorem renameBody_ran (fromPath : CStr) (argsFrom argsTo : Diropargs3) (rq : SvcReq)
    (unset : Junk) : Frame (Ran w E) (renameBody w fromPath argsFrom argsTo rq unset) := by
  refine .bind .get fun _ => .bind (Foot.frame_ran (fhDecomp_foot _)) fun _ => ?_
  refine .bind (.ite (fun _ => renameTo_ran hE hs hr ha _ _ _ _ _) fun _ => .pure _) fun _ => ?_
  exact Foot.frame_ran (renameEnd_frame _ _ _ _ _ _)

end

end

end NfsRods
