import NfsRods.Proof.Refusal
import NfsRods.Proof.SameName

/-!
# The direct child of a directory

An operation on a path is meant for the child `n` of the directory its handle stands for. `cat_name`
also resolves `.` and `..`, the mirror's path is made of the joined path and not of the directory's,
and a name that is refused leaves the buffer as it was.

* `ActsOn a b`: the event creates, removes or renames nothing but the object at `a`, and moves it to
  `b` only.
* `direct_child_iff`: the operation touches its directory's direct child only, exactly when the name
  is accepted, none of the two special ones and no part of the caller's directory.
-/

namespace NfsRods

open CStr
open Prog (Ends Frame)

/-- Where an object is: its path in the mirror and its name in iRODS. -/
structure Place where
  loc : CStr
  name : CStr

/-- The event creates, removes or renames nothing but `a`, or moves `a` to `b` (module doc). -/
def ActsOn (a b : Place) : Event → Prop
  | .sys (.open_ p f _) => f.creat = true → p = a.loc
  | .sys (.mkdir p _) | .sys (.remove p) | .sys (.rmdir p) => p = a.loc
  | .sys (.rename src dst) => src = a.loc ∧ dst = b.loc
  | .sys (.system _) | .sys (.store _ _) => False
  | .rods (.rcDataObjCreate _ inp) => inp.objPath = a.name
  | .rods (.rcDataObjUnlink _ p _) | .rods (.rcCollCreate _ p _) | .rods (.rcRmColl _ p _ _) =>
    p = a.name
  | .rods (.rcDataObjRename _ src dest) => src = a.name ∧ dest = b.name
  | _ => True

theorem actsOn_calm {a b : Place} (ev : Event) (h : ev.calm = true) : ActsOn a b ev := by
  cases ev with
  | sys c =>
    cases c with
    | open_ p f m =>
      intro hc
      simp [Event.calm, Event.mutates, SysCall.mutates, hc] at h
    | _ => first | exact trivial | simp [Event.calm, Event.mutates, SysCall.mutates] at h
  | rods c =>
    cases c <;> first | exact trivial | simp [Event.calm, Event.mutates, RodsCall.mutates] at h
  | _ => trivial

section
variable {L R : Type} (w : World L R)

/-- The direct child `n` of the directory `d` under the export `e`. -/
def childPlace (e : CStr) (uid : UInt32) (d n : CStr) : Place :=
  { loc := realPath w e uid d ++ root ++ n
    name := targetName w e uid (realPath w e uid d) ++ root ++ n }

/-- The joined path `d/n` does not run into the caller's directory, which `getRealPathNFS` would
take for a path that has been translated. -/
def Joins (e : CStr) (uid : UInt32) (d n : CStr) : Prop :=
  publicPath w e = true ∨ strstr d (userDir e uid) = true ∨
    strstr (d ++ root ++ n) (userDir e uid) = false

/-- Nor is it `d` itself. -/
def Apart (e : CStr) (uid : UInt32) (d n : CStr) : Prop :=
  n ≠ lit "." ∧ Joins w e uid d n

/-- Whether an operation on `d` and `n` that takes a local step (`loc`) and a remote one (`rods`)
hits the direct child. For `..` and a refused name this is left to the bytes behind the end of the
parent's path, and to those in the buffer. -/
def Direct (e : CStr) (uid : UInt32) (d n : CStr) (unset : Junk) (loc rods : Prop) : Prop :=
  (Accepted d n ∧ n ≠ lit ".." → loc ∨ rods → Apart w e uid d n) ∧
  (¬ (Accepted d n ∧ n ≠ lit "..") →
    (loc → bufPath w e uid (some d) n unset = (childPlace w e uid d n).loc) ∧
    (rods → targetName w e uid (bufPath w e uid (some d) n unset) = (childPlace w e uid d n).name))

end

section
variable {L R : Type} {w : World L R} {s : Server L R} {e : CStr} {uid : UInt32}

/-! ## Paths -/

/-- What is cut off a mirror's path lies before what a name is appended to. -/
theorem cutLength_le_realPath {d : CStr} (he : e <+: d) :
    cutLength w e uid ≤ (realPath w e uid d).length := by
  obtain ⟨x, rfl⟩ := he
  unfold cutLength
  by_cases hp : publicPath w e = true
  · rw [if_pos hp, realPath_self (.inl hp)]
    simp
  · rw [if_neg hp]
    by_cases hs : strstr (e ++ x) (userDir e uid) = true
    · rw [realPath_self (.inr hs)]
      exact (strstr_iff.1 hs).length_le
    · rw [realPath_insert (publicPath_ne hp) (by simpa using hs)]
      simp

theorem irodsPath_append {l x : CStr} (h : cutLength w e uid ≤ l.length) :
    irodsPath w e uid (l ++ x) = irodsPath w e uid l ++ x := by
  rw [irodsPath_eq_cut, irodsPath_eq_cut, cut, cut, if_pos h, if_pos (by simp; omega),
    List.drop_append_of_le_length h]

/-- The name of a child is that of its directory with the name appended. -/
theorem targetName_append {rq : SvcReq} (hc : Connects w rq) {l x : CStr}
    (h : cutLength w e rq.uid ≤ l.length) :
    targetName w e rq.uid (l ++ x) = targetName w e rq.uid l ++ x := by
  obtain ⟨home, hh⟩ := rodsHome_ok hc.1 hc.2 e
  simp only [targetName, hh]
  rw [irodsPath_append h, List.append_assoc]

/-- Two paths whose names are equal are equally long where the export's part ends. -/
theorem targetName_length {rq : SvcReq} (hc : Connects w rq) {l m : CStr}
    (hl : cutLength w e rq.uid ≤ l.length) (hm : cutLength w e rq.uid ≤ m.length)
    (h : targetName w e rq.uid l = targetName w e rq.uid m) : l.length = m.length := by
  obtain ⟨home, hh⟩ := rodsHome_ok hc.1 hc.2 e
  simp only [targetName, hh] at h
  have hlen := congrArg List.length (List.append_cancel_left h)
  rw [irodsPath_eq_cut, irodsPath_eq_cut, cut, cut, if_pos hl, if_pos hm, List.length_drop,
    List.length_drop] at hlen
  omega

/-- Translation and joining commute. -/
theorem Joins.realPath {d n : CStr} (he : e <+: d) (h : Joins w e uid d n) :
    realPath w e uid (d ++ root ++ n) = realPath w e uid d ++ root ++ n := by
  by_cases hp : publicPath w e = true
  · rw [realPath_self (.inl hp), realPath_self (.inl hp)]
  · by_cases hd : strstr d (userDir e uid) = true
    · have hdn : strstr (d ++ root ++ n) (userDir e uid) = true := by
        rw [strstr_iff] at hd ⊢
        exact hd.trans ⟨[], root ++ n, by simp⟩
      rw [realPath_self (.inr hd), realPath_self (.inr hdn)]
    · obtain ⟨x, rfl⟩ := he
      have hn := (h.resolve_left hp).resolve_left hd
      rw [List.append_assoc, List.append_assoc] at hn
      rw [realPath_insert (publicPath_ne hp) (by simpa using hd), List.append_assoc,
        List.append_assoc, realPath_insert (publicPath_ne hp) hn]
      simp only [List.append_assoc]

/-- If they do not, the joined path is too short: the caller's id is missing. -/
theorem joins_of_length {d n : CStr} (he : e <+: d)
    (h : (realPath w e uid (d ++ root ++ n)).length = (realPath w e uid d ++ root ++ n).length) :
    Joins w e uid d n := by
  by_contra hn
  simp only [Joins, not_or] at hn
  obtain ⟨hp, hd, hdn⟩ := hn
  obtain ⟨x, rfl⟩ := he
  rw [realPath_self (.inr (by simpa using hdn)),
    realPath_insert (publicPath_ne hp) (by simpa using hd)] at h
  have hu := length_lt_userDir e uid
  simp only [List.length_append] at h
  omega

/-- The operation hits the direct child with the steps it takes. -/
def Lands (w : World L R) (e : CStr) (uid : UInt32) (d n : CStr) (unset : Junk) (loc rods : Prop) :
    Prop :=
  (loc → bufPath w e uid (some d) n unset = (childPlace w e uid d n).loc) ∧
  (rods → targetName w e uid (bufPath w e uid (some d) n unset) = (childPlace w e uid d n).name)

theorem bufPath_accepted {d n : CStr} (h : Accepted d n) (unset : Junk) :
    bufPath w e uid (some d) n unset = realPath w e uid (childPath d n) := by
  rw [bufPath, catName_accepted h]
  rfl

theorem lands_iff_direct {rq : SvcReq} {d n : CStr} (he : e <+: d) (unset : Junk) {loc rods : Prop}
    (hc : rods → Connects w rq) :
    Lands w e rq.uid d n unset loc rods ↔ Direct w e rq.uid d n unset loc rods := by
  have hlen : cutLength w e rq.uid ≤ (realPath w e rq.uid d).length := cutLength_le_realPath he
  have hjoin : rods → targetName w e rq.uid (realPath w e rq.uid d ++ root ++ n) =
      targetName w e rq.uid (realPath w e rq.uid d) ++ root ++ n := fun hr => by
    rw [List.append_assoc, targetName_append (hc hr) hlen, List.append_assoc]
  by_cases ha : Accepted d n ∧ n ≠ lit ".."
  · simp only [Lands, Direct, ha, bufPath_accepted ha.1, childPlace, not_true, false_implies,
      and_true, forall_const, ne_eq, not_false_eq_true]
    by_cases hdot : n = lit "."
    · -- the joined path is the directory's own
      have hloc : ¬ realPath w e rq.uid (childPath d n) = realPath w e rq.uid d ++ root ++ n := by
        intro h
        simp [childPath, hdot, root] at h
      have hname : rods → ¬ targetName w e rq.uid (realPath w e rq.uid (childPath d n)) =
          targetName w e rq.uid (realPath w e rq.uid d) ++ root ++ n := by
        intro _ h
        simp [childPath, hdot, root] at h
      constructor
      · rintro ⟨h1, h2⟩ (hl | hr)
        · exact absurd (h1 hl) hloc
        · exact absurd (h2 hr) (hname hr)
      · intro h
        exact ⟨fun hl => absurd hdot (h (.inl hl)).1, fun hr => absurd hdot (h (.inr hr)).1⟩
    · have hchild : childPath d n = d ++ root ++ n := by
        rw [childPath, if_neg hdot, if_neg ha.2]
      rw [hchild]
      constructor
      · rintro ⟨h1, h2⟩ (hl | hr)
        · exact ⟨hdot, joins_of_length he (congrArg List.length (h1 hl))⟩
        · refine ⟨hdot, joins_of_length he ?_⟩
          have h := h2 hr
          rw [← hjoin hr] at h
          exact targetName_length (hc hr)
            (cutLength_le_realPath (he.trans ⟨root ++ n, by simp⟩)) (by simp; omega) h
      · intro h
        refine ⟨fun hl => Joins.realPath he (h (.inl hl)).2, fun hr => ?_⟩
        rw [Joins.realPath he (h (.inr hr)).2, hjoin hr]
  · simp only [Lands, Direct, ha, not_false_eq_true, false_implies, true_and, forall_const]

/-! ## What the steps issue -/

section
variable {P : Event → Prop} (hP : ∀ ev, ev.calm = true → P ev)

include hP

/-- The remote step issues one call that is not calm, about the translated name. -/
theorem remoteStep_only {rq : SvcReq} (h : s.exports.path = some e)
    (call : CStr → Comm → RodsCall) (obj : CStr) :
    Only P (remoteStep w call obj rq) s ↔ (Connects w rq →
      P (.rods (call (targetName w e rq.uid obj) (session w e rq.uid s.rods).1))) := by
  have hopen : Frame (Ran w P) (openRods w obj rq.uid) := Foot.frame_ran (openRods_frame hP _ _)
  by_cases hc : Connects w rq
  · obtain ⟨s1, h1, _⟩ := openRods_ends h hc.1 hc.2 obj
    have hissue : Frame Grows
        (issue w (call (targetName w e rq.uid obj) (session w e rq.uid s.rods).1)) :=
      .bind (rods_frame (w := w) (E := fun _ => True) trivial) fun _ => .pure _
    have hrest : Frame (Ran w P) (debug w "Creating or deleting %s" >>= fun _ =>
        rcDisconnect w (session w e rq.uid s.rods).1) :=
      Foot.frame_ran (.bind (debug_frame _) fun _ => rcDisconnect_frame hP _)
    have hgrows := hrest.mono fun _ _ h => h.grows
    rw [remoteStep, only_bind_ok h1 (hopen.ok h1) (Frame.bind hissue (fun _ => hgrows) s1),
      only_bind_frame hissue fun _ => hrest, issue,
      only_bind_frame (w := w)
        (rods_frame (w := w) (E := fun _ => True) trivial) fun _ => .pure _,
      only_rods]
    simp only [hc, forall_const]
  · obtain ⟨st, hst⟩ := openRods_stops h hc obj
    have hms : openRods w obj rq.uid s = (.error st, (openRods w obj rq.uid s).2) := by rw [← hst]
    refine iff_of_true ?_ fun hc' => absurd hc' hc
    rw [Only, remoteStep, Prog.bind_error hms]
    exact (hopen s).since

/-- An operation that rewrites the buffer issues what it does after it. -/
theorem rewriteName_only (ha : ∀ f n, P (.toArray f n)) {α : Type} (rq : SvcReq)
    (h : s.exports.path = some e) (path : Option CStr) (name : CStr) (unset : Junk)
    {f : CStr → M L R α} (hf : ∀ obj, Frame Grows (f obj)) :
    ∃ s1, Tacit s s1 ∧
      (Only P (rewriteObj w (catName path name).2.isSome ((catName path name).2.getD unset.buf)
        rq.uid >>= f) s ↔ Only P (f (bufPath w e rq.uid path name unset)) s1) := by
  obtain ⟨s1, h1, t1⟩ := rewriteName_ends (w := w) h path name rq.uid unset
  have hr : Ran w P s s1 := (Foot.frame_ran (rewriteObj_frame (calm_path hP) ha _ _ _)).ok h1
  exact ⟨s1, t1, only_bind_ok h1 hr (hf _ s1)⟩

omit hP in
theorem unlinkLocal_only (u : Unlink) (status : Nfsstat3) (obj : CStr) (s : Server L R) :
    Only P (unlinkLocal w u status obj) s ↔ (status = .ok → P (.sys (u.call obj))) := by
  have hsys : Frame Grows (sys w (u.call obj)) :=
    sys_frame (w := w) (E := fun _ => True) trivial
  unfold unlinkLocal
  by_cases hst : status = .ok
  · rw [if_pos hst]
    have hcookie : (changeReaddirCookie : M L R Unit) s = (.ok (), (changeReaddirCookie s).2) := rfl
    have hran : Ran w P s (changeReaddirCookie s).2 :=
      (Foot.frame_ran (modify_foot fun _ => ⟨rfl, rfl, rfl, rfl, rfl⟩) :
        Frame (Ran w P) (changeReaddirCookie : M L R Unit)) s
    rw [only_bind_ok hcookie hran (Frame.bind hsys (fun _ => .bind .get fun _ => .pure _) _),
      only_bind_frame (w := w) hsys fun _ => .bind .get fun _ => .pure _, only_sys]
    simp only [hst, forall_const]
  · rw [if_neg hst]
    exact iff_of_true (Ran.only (w := w) (.pure _) s) fun h => absurd h hst

/-- A first step that issues one system call, and a second that issues what the remote step does. -/
theorem stepRemote_only {α β : Type} {rq : SvcReq} {m : M L R α} {f : α → M L R β}
    {call : CStr → Comm → RodsCall} {obj : CStr} {loc : Prop} {a : α} {s1 : Server L R}
    (h1 : m s = (.ok a, s1)) (hm : Frame Grows m) (hx : s1.exports.path = some e)
    (hr : s1.rods = s.rods) (hloc : Only P m s ↔ loc) {g : Unit → α → M L R β}
    (hf : ∀ a, f a = remoteStep w call obj rq >>= fun u => g u a)
    (hg : ∀ u a, Frame (Ran w P) (g u a)) :
    Only P (m >>= f) s ↔ loc ∧ (Connects w rq →
      P (.rods (call (targetName w e rq.uid obj) (session w e rq.uid s.rods).1))) := by
  have hremote : Frame Grows (remoteStep w call obj rq) :=
    remoteStep_frame (E := fun _ => True) (fun _ _ => trivial) (fun _ => trivial) _ _ _
  have hrest : ∀ a, Frame Grows (f a) := fun a => by
    rw [hf a]
    exact .bind hremote fun u => (hg u a).mono fun _ _ h => h.grows
  rw [only_bind hm hrest, hloc]
  refine and_congr_right fun _ => ?_
  rw [← hr, ← remoteStep_only hP hx, ← only_bind_frame hremote fun u => hg u a, ← hf a]
  constructor
  · exact fun hall => hall a s1 h1
  · intro ho a' s1' h1'
    rw [h1] at h1'
    obtain ⟨⟨⟨⟩⟩, rfl⟩ := Prod.mk.inj h1'
    exact ho

omit hP in
theorem remoteStep_grows (call : CStr → Comm → RodsCall) (obj : CStr) (rq : SvcReq) :
    Frame Grows (remoteStep w call obj rq) :=
  remoteStep_frame (E := fun _ => True) (fun _ _ => trivial) (fun _ => trivial) _ _ _

theorem unlinkAct_only {rq : SvcReq} (h : s.exports.path = some e) (u : Unlink) (path : CStr)
    (status : Nfsstat3) (obj : CStr) :
    Only P (unlinkAct w u path rq status obj) s ↔ (status = .ok → P (.sys (u.call obj))) ∧
      (Connects w rq → P (.rods (u.remote (targetName w e rq.uid obj)
        (session w e rq.uid s.rods).1))) := by
  have hlocal : Frame Grows (unlinkLocal w u status obj) :=
    unlinkLocal_frame (E := fun _ => True) (fun _ => trivial) _ _ _
  have hend : ∀ st : Nfsstat3, Frame (Ran w P) (Prog.get >>= fun s' : Server L R =>
      getPostStat w (some path) rq >>= fun after => debug w "REMOVE END" >>= fun _ =>
      pure ({ status := st, dirWcc := { before := getPreCached s', after } } : Remove3res)) :=
    fun _ => Foot.frame_ran (.bind .get fun _ => .bind (getPostStat_frame _ _) fun _ =>
      .bind (debug_frame _) fun _ => .pure _)
  obtain ⟨s1, h1, t1⟩ := debug_tacit (w := w) "RMDIR - Removing local directory %s\n" s
  have r1 : Ran w P s s1 := (Foot.frame_ran (debug_frame (w := w) _)).ok h1
  obtain ⟨st, s2, h2, r2, x2, _⟩ := unlinkLocal_ends (w := w) u status obj s1
  rw [unlinkAct, only_bind_ok h1 r1 (Frame.bind hlocal (fun st => .bind (remoteStep_grows _ _ _)
      fun _ => (hend st).mono fun _ _ h => h.grows) s1),
    stepRemote_only hP h2 hlocal (by rw [x2, t1.exports, h]) r2 (unlinkLocal_only u status obj s1)
      (fun _ => rfl) fun _ st => hend st, t1.rods]

theorem createAct_only {rq : SvcReq} (h : s.exports.path = some e)
    (hu : ∀ p actime modtime, P (.sys (.utime p actime modtime))) (path : CStr) (args : Diropargs3)
    (how : Createhow3) (unset : Junk) (status : Nfsstat3) (obj : CStr) :
    Only P (createAct w path args how rq unset.attr status obj) s ↔
      (status = .ok → P (.sys (openCall obj how unset))) ∧
      (Connects w rq → P (.rods (createFile w (targetName w e rq.uid obj)
        (session w e rq.uid s.rods).1))) := by
  have hopen : Frame Grows (createOpen w status obj how unset.attr) :=
    createOpen_frame (E := fun _ => True) (fun _ => trivial) _ _ _ _
  have hloc : Only P (createOpen w status obj how unset.attr) s ↔
      (status = .ok → P (.sys (openCall obj how unset))) := by
    unfold createOpen
    by_cases hst : status = .ok
    · rw [if_pos hst, only_sys]
      simp only [hst, openCall, forall_const]
    · rw [if_neg hst]
      exact iff_of_true (Ran.only (w := w) (.pure _) s) fun h => absurd h hst
  obtain ⟨fd, s1, h1⟩ : ∃ fd s1, createOpen w status obj how unset.attr s = (.ok fd, s1) := by
    unfold createOpen
    split
    · exact sys_returns _ s
    · exact ⟨_, _, rfl⟩
  have f1 : Foot w NoRods s s1 := (createOpen_frame noRods_sys _ _ _ _).ok h1
  refine stepRemote_only hP h1 hopen (by rw [f1.exports, h]) (NoRods.rods_eq f1) hloc (fun _ => rfl)
    fun _ fd => Foot.frame_ran ?_
  refine .bind (createFinish_foot (calm_sys hP) hu _ _ _ _ _ _) fun _ => .bind .get fun _ => ?_
  exact .bind (getPostStat_frame _ _) fun _ => .bind (debug_frame _) fun _ => .pure _

theorem mkdirAct_only {rq : SvcReq} (h : s.exports.path = some e) (path : CStr) (args : Diropargs3)
    (attributes : Sattr3) (pre : PreOpAttr) (status : Nfsstat3) (obj : CStr) :
    Only P (mkdirAct w path args attributes rq pre status obj) s ↔
      (status = .ok → P (.sys (.mkdir obj (createMode attributes)))) ∧
      (status = .ok ∧ Connects w rq → P (.rods (makeCollection (targetName w e rq.uid obj)
        (session w e rq.uid s.rods).1 true))) := by
  have hend : ∀ r : Create3res,
    Frame (Ran w P) (getPostAttr w (some path) args.dir rq >>= fun post =>
      debug w "MKDIR END" >>= fun _ =>
      pure { r with dirWcc := { before := pre, after := post } }) := fun _ => Foot.frame_ran
    (.bind (getPostLl_frame _ _ _ _) fun _ => .bind (debug_frame _) fun _ => .pure _)
  have hmake : Frame Grows (mkdirMake w args.dir obj attributes rq) :=
    mkdirMake_frame (E := fun _ => True) (fun _ _ => trivial) (fun _ => trivial) (fun _ => trivial)
      _ _ _ _
  obtain ⟨s1, h1, t1⟩ := debug_tacit (w := w) "Criando diretorio: %s \n" s
  have r1 : Ran w P s s1 := (Foot.frame_ran (debug_frame (w := w) _)).ok h1
  have hgrows := fun r => (hend r).mono fun _ _ h => h.grows
  by_cases hst : status = .ok
  · simp only [mkdirAct, hst, ↓reduceIte, forall_const, true_and]
    rw [only_bind_ok h1 r1 (Frame.bind hmake hgrows s1), only_bind_frame hmake hend, mkdirMake]
    obtain ⟨s2, h2, k2, _⟩ := sys_ends (w := w) (.mkdir obj (createMode attributes)) s1
    rw [← t1.rods]
    refine stepRemote_only hP h2 (sys_frame (w := w) (E := fun _ => True) trivial)
      (by rw [k2.exports, t1.exports, h]) k2.rods (only_sys _ s1) (fun _ => rfl)
      fun _ _ => Foot.frame_ran (.ite (fun _ => .bind .get fun _ => .pure _) fun _ => ?_)
    exact .bind (fhExtendType_frame _ _ _) fun _ => .bind (getPostCached_frame _) fun _ => .pure _
  · simp only [mkdirAct, hst, ↓reduceIte]
    rw [only_bind_ok h1 r1 (Frame.bind (.pure _) hgrows s1)]
    exact iff_of_true (Ran.only (w := w) (.bind (.pure _) hend) s1) (by simp)

omit hP in
/-- RENAME's remote step comes to its call without another that is not calm. -/
theorem renameRemote_run {rq : SvcReq} (h : s.exports.path = some e) (hc : Connects w rq)
    (fromObj toObj : CStr) :
    ∃ s1, (∀ P : Event → Prop, (∀ ev, ev.calm = true → P ev) → Ran w P s s1) ∧
      s1.rods = (session w e rq.uid s.rods).2 ∧
      renameRemote w fromObj toObj rq s = (issue w (renameFile (targetName w e rq.uid toObj)
        (targetName w e rq.uid fromObj) (session w e rq.uid s.rods).1) >>= fun status =>
        rcDisconnect w (session w e rq.uid s.rods).1 >>= fun _ =>
        debug w "RENAME - FREE " >>= fun _ => (pure status : M L R Int)) s1 := by
  obtain ⟨s1, h1, a1⟩ := connectUser_ends (w := w) h hc.1
  have e1 : s1.exports.path = some e := by rw [a1.1.exports, h]
  obtain ⟨s2, h2, t2⟩ := rodsName_ends (w := w) e1 fromObj rq.uid
  have e2 : s2.exports.path = some e := by rw [t2.exports, e1]
  obtain ⟨s3, h3, t3⟩ := rodsName_ends (w := w) e2 toObj rq.uid
  rw [rodsPath_targetName hc.1 hc.2] at h2 h3
  obtain ⟨s4, h4, t4⟩ := debug_tacit (w := w) "RENAME - Renaming from: %s" s3
  obtain ⟨s5, h5, t5⟩ := debug_tacit (w := w) "RENAME - Renaming to: %s" s4
  refine ⟨s5, fun P hP => ?_, by rw [t5.rods, t4.rods, t3.rods, t2.rods, a1.2], ?_⟩
  · have hname : ∀ obj, Frame (Ran w P) (rodsName w obj rq.uid) :=
      fun _ => Foot.frame_ran (rodsName_frame (calm_path hP) _ _)
    have hdebug : ∀ msg, Frame (Ran w P) (debug w msg : M L R Unit) :=
      fun _ => Foot.frame_ran (debug_frame _)
    have r1 : Ran w P s s1 := (Foot.frame_ran (connectUser_frame hP _)).ok h1
    exact trans_of (Ran w P) (trans_of (Ran w P) r1 ((hname _).ok h2)) (trans_of (Ran w P)
      ((hname _).ok h3) (trans_of (Ran w P) ((hdebug _).ok h4) ((hdebug _).ok h5)))
  · rw [renameRemote, Prog.bind_ok h1, Prog.bind_ok h2, Prog.bind_ok h3, Prog.bind_ok h4,
      Prog.bind_ok h5]

/-- Without a connection it does not come that far. -/
theorem renameRemote_silent {rq : SvcReq} (h : s.exports.path = some e) (hc : ¬ Connects w rq)
    (fromObj toObj : CStr) : Only P (renameRemote w fromObj toObj rq) s := by
  have hconn : Frame (Ran w P) (connectUser w rq.uid) := Foot.frame_ran (connectUser_frame hP _)
  by_cases hk : Known w rq.uid
  · obtain ⟨s1, h1, a1⟩ := connectUser_ends (w := w) h hk
    have e1 : s1.exports.path = some e := by rw [a1.1.exports, h]
    obtain ⟨s2, h2, _⟩ := rodsName_ends (w := w) e1 fromObj rq.uid
    have r2 : Ran w P s1 (rodsName w fromObj rq.uid s1).2 :=
      rodsName_frame (calm_path hP) fromObj rq.uid s1
    rw [h2] at r2
    rw [rodsPath_zone_none fun hz => hc ⟨hk, hz⟩] at h2
    rw [Only, renameRemote, Prog.bind_ok h1, Prog.bind_error h2]
    exact (trans_of (Ran w P) (hconn.ok h1) r2).since
  · have hst := connectUser_stops (w := w) h hk
    have hms : connectUser w rq.uid s = (.error .badFree, (connectUser w rq.uid s).2) := by
      rw [← hst]
    rw [Only, renameRemote, Prog.bind_error hms]
    exact (hconn s).since

/-- RENAME's remote step issues one call that is not calm, about the two translated names. -/
theorem renameRemote_only {rq : SvcReq} (h : s.exports.path = some e) (fromObj toObj : CStr) :
    Only P (renameRemote w fromObj toObj rq) s ↔ (Connects w rq →
      P (.rods (renameFile (targetName w e rq.uid toObj) (targetName w e rq.uid fromObj)
        (session w e rq.uid s.rods).1))) := by
  by_cases hc : Connects w rq
  · obtain ⟨s1, hran, _, hrun⟩ := renameRemote_run h hc fromObj toObj
    have hissue : Frame Grows (issue w (renameFile (targetName w e rq.uid toObj)
        (targetName w e rq.uid fromObj) (session w e rq.uid s.rods).1)) :=
      .bind (rods_frame (w := w) (E := fun _ => True) trivial) fun _ => .pure _
    have hrest : ∀ status : Int, Frame (Ran w P) (rcDisconnect w (session w e rq.uid s.rods).1 >>=
        fun _ => debug w "RENAME - FREE " >>= fun _ => (pure status : M L R Int)) := fun _ =>
      .bind (rcDisconnect_frame hP _) fun _ => .bind (debug_frame _) fun _ => .pure _
    rw [only_run (by rw [hrun]) (hran P hP)
        (Frame.bind hissue (fun st => (hrest st).mono fun _ _ h => h.grows) s1),
      only_bind_frame hissue hrest, issue, only_bind_frame (w := w)
      (rods_frame (w := w) (E := fun _ => True) trivial) fun _ =>
        .pure _, only_rods]
    simp only [hc, forall_const]
  · exact iff_of_true (renameRemote_silent hP h hc fromObj toObj) fun hc' => absurd hc' hc

/-- The local step is taken when the daemon has survived the remote one. -/
theorem renameMove_only {rq : SvcReq} (h : s.exports.path = some e) (fromObj toObj : CStr) :
    Only P (renameMove w fromObj toObj rq) s ↔ (Connects w rq →
      P (.rods (renameFile (targetName w e rq.uid toObj) (targetName w e rq.uid fromObj)
        (session w e rq.uid s.rods).1)) ∧ P (.sys (.rename fromObj toObj))) := by
  have hsys : Frame Grows (sys w (.rename fromObj toObj)) :=
    sys_frame (w := w) (E := fun _ => True) trivial
  have hremote : Frame Grows (renameRemote w fromObj toObj rq) :=
    renameRemote_frame (E := fun _ => True) (fun _ _ => trivial) (fun _ => trivial) _ _ _
  have hend : ∀ (status res : Int), Frame (Ran w P) (Prog.get >>= fun s' : Server L R =>
      (pure (if res = -1 ∨ status = -1 then renameErr s'.errno else .ok) : M L R Nfsstat3)) :=
    fun _ _ => .bind .get fun _ => .pure _
  have hrest : ∀ status : Int, Frame Grows (sys w (.rename fromObj toObj) >>= fun res =>
      Prog.get >>= fun s' : Server L R =>
      (pure (if res = -1 ∨ status = -1 then renameErr s'.errno else .ok) : M L R Nfsstat3)) :=
    fun st => .bind hsys fun res => (hend st res).mono fun _ _ h => h.grows
  obtain ⟨s1, h1, x1, r1⟩ : ∃ s1, (changeReaddirCookie : M L R Unit) s = (.ok (), s1) ∧
      s1.exports = s.exports ∧ s1.rods = s.rods := ⟨_, rfl, rfl, rfl⟩
  have hran : Ran w P s s1 := (Foot.frame_ran (modify_foot fun _ => ⟨rfl, rfl, rfl, rfl, rfl⟩) :
    Frame (Ran w P) (changeReaddirCookie : M L R Unit)).ok h1
  have hx : s1.exports.path = some e := by rw [x1, h]
  rw [renameMove, only_bind_ok h1 hran (Frame.bind hremote hrest s1), only_bind hremote hrest,
    renameRemote_only hP hx, r1]
  have htail : ∀ status s2, Only P (sys w (.rename fromObj toObj) >>= fun res =>
      Prog.get >>= fun s' : Server L R =>
      (pure (if res = -1 ∨ status = -1 then renameErr s'.errno else .ok) : M L R Nfsstat3)) s2 ↔
      P (.sys (.rename fromObj toObj)) := fun st s2 => by
    rw [only_bind_frame hsys (hend st), only_sys]
  simp only [htail]
  by_cases hc : Connects w rq
  · obtain ⟨s2, h2, _⟩ := renameRemote_ends (w := w) hx hc.1 hc.2 fromObj toObj
    simp only [hc, forall_const]
    exact and_congr_right fun _ => ⟨fun hall => hall _ s2 h2, fun hs _ _ _ => hs⟩
  · obtain ⟨st, hst⟩ := renameRemote_stops (w := w) hx hc fromObj toObj
    simp only [hc, false_implies, true_and, iff_true]
    intro a s2 h2
    rw [h2] at hst
    cases hst

theorem renameRest_only (ha : ∀ f n, P (.toArray f n)) (rq : SvcReq) (h : s.exports.path = some e)
    (status : Nfsstat3) (fromObj : CStr) (path : Option CStr) (name : CStr) (unset : Junk) :
    ∃ comm, Only P (renameRest w status fromObj (catName path name).2 rq unset) s ↔
      (status = .ok → Connects w rq →
        P (.rods (renameFile (targetName w e rq.uid (bufPath w e rq.uid path name unset))
          (targetName w e rq.uid (realPath w e rq.uid fromObj)) comm)) ∧
        P (.sys (.rename (realPath w e rq.uid fromObj) (bufPath w e rq.uid path name unset)))) := by
  have hmove : ∀ a b, Frame Grows (if status = .ok then renameMove w a b rq else pure status) :=
    fun _ _ => .ite (fun _ => renameMove_frame (E := fun _ => True)
      (fun _ _ => trivial) (fun _ => trivial) (fun _ => trivial) _ _ _) fun _ => .pure _
  have hrw : ∀ filled obj, Frame (Ran w P) (rewriteObj w filled obj rq.uid) :=
    fun _ _ => Foot.frame_ran (rewriteObj_frame (calm_path hP) ha _ _ _)
  obtain ⟨s1, h1, t1⟩ := rewriteObj_ends (w := w) h true fromObj rq.uid
  have e1 : s1.exports.path = some e := by rw [t1.exports, h]
  obtain ⟨s2, h2, t2⟩ := rewriteName_ends (w := w) e1 path name rq.uid unset
  refine ⟨(session w e rq.uid s2.rods).1, ?_⟩
  rw [renameRest, only_bind_ok h1 ((hrw _ _).ok h1) (Frame.bind
      ((hrw _ _).mono fun _ _ h => h.grows) (hmove _) s1),
    only_bind_ok h2 ((hrw _ _).ok h2) (hmove _ _ s2)]
  by_cases hst : status = .ok
  · simp only [hst, ↓reduceIte, forall_const]
    exact renameMove_only hP (by rw [t2.exports, e1]) _ _
  · rw [if_neg hst]
    exact iff_of_true (Ran.only (w := w) (.pure _) s2) fun h => absurd h hst

end

/-! ## Operations -/

/-- The export that governs the directory RENAME moves to. -/
def targetExport (w : World L R) (argsTo : Diropargs3) (rq : SvcReq) (s : Server L R) : CStr :=
  (compatPath w argsTo rq s).getD []

/-- The source `d/n` of a RENAME, which is translated under the export `e'` of the target, is hit.
-/
def Moves (w : World L R) (e e' : CStr) (uid : UInt32) (d n : CStr) : Prop :=
  (e' = e ∧ n ≠ lit ".." → Apart w e uid d n) ∧
  (¬ (e' = e ∧ n ≠ lit "..") →
    realPath w e' uid (childPath d n) = (childPlace w e uid d n).loc ∧
    targetName w e' uid (realPath w e' uid (childPath d n)) = (childPlace w e uid d n).name)

namespace PathOp

/-- The events an operation on the directory `d` is meant to be made of. -/
def Meant (w : World L R) (rq : SvcReq) (s : Server L R) (d : CStr) : PathOp → Event → Prop
  | rename argsFrom argsTo => ActsOn (childPlace w (exportPath s) rq.uid d argsFrom.name)
      (childPlace w (targetExport w argsTo rq s) rq.uid ((renameTarget w argsTo s).getD [])
        argsTo.name)
  | op => ActsOn (childPlace w (exportPath s) rq.uid d op.args.name)
      (childPlace w (exportPath s) rq.uid d op.args.name)

/-- When it is: by the name and the steps that are taken. -/
def Straight (w : World L R) (rq : SvcReq) (unset : Junk) (s : Server L R) (d : CStr) :
    PathOp → Prop
  | create args how => Direct w (exportPath s) rq.uid d args.name unset
      (createStatus w s (catName (some d) args.name).1 how = .ok) (Connects w rq)
  | mkdir args attributes => Direct w (exportPath s) rq.uid d args.name unset
      (mkdirStatus w s d args attributes = .ok)
      (mkdirStatus w s d args attributes = .ok ∧ Connects w rq)
  | remove object | rmdir object => Direct w (exportPath s) rq.uid d object.name unset
      (join (catName (some d) object.name).1 (exportsRw s.exports) = .ok) (Connects w rq)
  | rename argsFrom argsTo =>
    Accepted d argsFrom.name → exportsRw s.exports = .ok → targetStatus w argsTo rq s = .ok →
      Connects w rq → Moves w (exportPath s) (targetExport w argsTo rq s) rq.uid d argsFrom.name ∧
        Direct w (targetExport w argsTo rq s) rq.uid ((renameTarget w argsTo s).getD []) argsTo.name
          unset True True

end PathOp

theorem moves_iff {rq : SvcReq} {e' d n : CStr} (he : e <+: d) (ha : Accepted d n) (unset : Junk)
    (hc : Connects w rq) : Moves w e e' rq.uid d n ↔
      realPath w e' rq.uid (childPath d n) = (childPlace w e rq.uid d n).loc ∧
      targetName w e' rq.uid (realPath w e' rq.uid (childPath d n)) =
        (childPlace w e rq.uid d n).name := by
  by_cases hcase : e' = e ∧ n ≠ lit ".."
  · obtain ⟨rfl, hn⟩ := hcase
    have hl : Lands w e' rq.uid d n unset True True ↔ Direct w e' rq.uid d n unset True True :=
      lands_iff_direct he unset fun _ => hc
    simp only [Lands, Direct, ha, hn, bufPath_accepted ha, forall_const, ne_eq, not_false_eq_true,
      and_self, true_or, not_true_eq_false, false_implies, and_true] at hl
    simp only [Moves, hn, ne_eq, not_false_eq_true, and_self, forall_const, not_true_eq_false,
      false_implies, and_true]
    exact hl.symm
  · simp only [Moves, hcase, not_false_eq_true, false_implies, true_and, forall_const]

/-- What RENAME issues when both names are accepted and the exports are compatible: the two renames,
with both objects translated under the export of the target. -/
theorem renameBody_moves {P : Event → Prop} (hP : ∀ ev, ev.calm = true → P ev)
    (harr : ∀ f n, P (.toArray f n)) (rq : SvcReq) (d : CStr) (ho : s.exports.opts.isSome)
    (argsFrom argsTo : Diropargs3) (unset : Junk) :
    ∃ comm, Only P (renameBody w d argsFrom argsTo rq unset) s ↔
      (Accepted d argsFrom.name → exportsRw s.exports = .ok → targetStatus w argsTo rq s = .ok →
        Connects w rq →
        P (.rods (renameFile
          (targetName w (targetExport w argsTo rq s) rq.uid (bufPath w (targetExport w argsTo rq s)
            rq.uid (renameTarget w argsTo s) argsTo.name unset))
          (targetName w (targetExport w argsTo rq s) rq.uid
            (realPath w (targetExport w argsTo rq s) rq.uid (childPath d argsFrom.name))) comm)) ∧
        P
          (.sys
            (.rename (realPath w (targetExport w argsTo rq s) rq.uid (childPath d argsFrom.name))
          (bufPath w (targetExport w argsTo rq s) rq.uid (renameTarget w argsTo s) argsTo.name
            unset)))) := by
  obtain ⟨toPath, s1, h1⟩ := fhDecomp_returns (w := w) argsTo.dir s
  have f1 : Foot w (fun _ => False) s s1 := (fhDecomp_foot (w := w) argsTo.dir).ok h1
  have ht : renameTarget w argsTo s = toPath := by rw [renameTarget, h1]
  -- what is left of the operation after `exports_compat`
  have hto : Only P (renameTo w (childPath d argsFrom.name) toPath argsTo.name rq unset) s1 ↔
      Only P (renameRest w (join (catName toPath argsTo.name).1
        (exportsCompat s.exportList rq.remote toPath s.exports).1) (childPath d argsFrom.name)
        (catName toPath argsTo.name).2 rq unset)
        { s1 with exports := (exportsCompat s.exportList rq.remote toPath s.exports).2 } := by
    rw [renameTo_only, f1.exportList, f1.exports]
  simp only [renameBody_only h1, hto, targetStatus, ht]
  by_cases hst : join (catName toPath argsTo.name).1
      (exportsCompat s.exportList rq.remote toPath s.exports).1 = .ok
  · obtain ⟨e', d', hp', rfl, _⟩ := exportsCompat_path ho (join_eq_ok.1 hst).2
    have hx : targetExport w argsTo rq s = e' := by rw [targetExport, compatPath, ht, hp']; rfl
    obtain ⟨comm, hor⟩ := renameRest_only (w := w) (P := P)
      (s := { s1 with exports := (exportsCompat s.exportList rq.remote (some d') s.exports).2 })
      hP harr rq hp' (join (catName (some d') argsTo.name).1
        (exportsCompat s.exportList rq.remote (some d') s.exports).1) (childPath d argsFrom.name)
      (some d') argsTo.name unset
    exact ⟨comm, by rw [hor, hx]⟩
  · refine ⟨none, forall₂_congr fun _ _ => iff_of_true ?_ fun h => absurd h hst⟩
    cases hp : (exportsCompat s.exportList rq.remote toPath s.exports).2.path with
    | none =>
      obtain ⟨s2, h2, f2⟩ := rewriteObj_stops (w := w) (E := P)
        (s := { s1 with exports := (exportsCompat s.exportList rq.remote toPath s.exports).2 })
        hP hp true (childPath d argsFrom.name) rq.uid
      rw [Only, renameRest, Prog.bind_error h2]
      exact f2.since
    | some e' =>
      obtain ⟨comm, hor⟩ := renameRest_only (w := w) (P := P)
        (s := { s1 with exports := (exportsCompat s.exportList rq.remote toPath s.exports).2 })
        hP harr rq hp (join (catName toPath argsTo.name).1
          (exportsCompat s.exportList rq.remote toPath s.exports).1) (childPath d argsFrom.name)
        toPath argsTo.name unset
      exact hor.2 fun h => absurd h hst

/-- RENAME hits its two children. -/
theorem renameBody_straight {rq : SvcReq} (h : s.exports.path = some e) {d : CStr} (he : e <+: d)
    (ho : s.exports.opts.isSome) (argsFrom argsTo : Diropargs3) (unset : Junk) :
    Only ((PathOp.rename argsFrom argsTo).Meant w rq s d)
        (renameBody w d argsFrom argsTo rq unset) s ↔
      (PathOp.rename argsFrom argsTo).Straight w rq unset s d := by
  have hexp : exportPath s = e := by rw [exportPath, h]; rfl
  obtain ⟨comm, hor⟩ :=
    renameBody_moves (w := w) (P := (PathOp.rename argsFrom argsTo).Meant w rq s d)
      actsOn_calm (fun _ _ => trivial) rq d ho argsFrom argsTo unset
  rw [hor]
  refine forall₄_congr fun ha _ hst hc => ?_
  rw [targetStatus, join_eq_ok] at hst
  obtain ⟨e', d', hp', ht, he'⟩ := exportsCompat_path ho hst.2
  have hx : targetExport w argsTo rq s = e' := by rw [targetExport, compatPath, hp']; rfl
  have hd : (renameTarget w argsTo s).getD [] = d' := by rw [ht]; rfl
  have hl : Lands w e' rq.uid d' argsTo.name unset True True ↔
      Direct w e' rq.uid d' argsTo.name unset True True := lands_iff_direct he' unset fun _ => hc
  rw [hx, hd, hexp, moves_iff he ha unset hc, ← hl]
  simp only [PathOp.Meant, ActsOn, renameFile, hx, hexp, ht, Lands, forall_const]
  constructor
  · rintro ⟨⟨hn, hn'⟩, hl, hl'⟩
    exact ⟨⟨hl, hn⟩, hl', hn'⟩
  · rintro ⟨⟨hl, hn⟩, hl', hn'⟩
    exact ⟨⟨hn, hn'⟩, hl, hl'⟩

/-- An operation hits its child when what it issues after rewriting the buffer does. -/
theorem rewriteName_direct {rq : SvcReq} (h : s.exports.path = some e) {d n : CStr} (he : e <+: d)
    (unset : Junk) {α : Type} {f : CStr → M L R α} {loc rods : Prop} (hc : rods → Connects w rq)
    (hf : ∀ obj, Frame Grows (f obj))
    (hact : ∀ s1 : Server L R, s1.exports.path = some e →
      (Only (ActsOn (childPlace w e rq.uid d n) (childPlace w e rq.uid d n))
        (f (bufPath w e rq.uid (some d) n unset)) s1 ↔ Lands w e rq.uid d n unset loc rods)) :
    Only (ActsOn (childPlace w e rq.uid d n) (childPlace w e rq.uid d n))
        (rewriteObj w (catName (some d) n).2.isSome ((catName (some d) n).2.getD unset.buf)
          rq.uid >>= f) s ↔ Direct w e rq.uid d n unset loc rods := by
  obtain ⟨s1, t1, hor⟩ := rewriteName_only (w := w) actsOn_calm (fun _ _ => trivial) rq h (some d)
    n unset hf
  rw [hor, hact s1 (by rw [t1.exports, h]), lands_iff_direct he unset hc]

/-- An operation hits its children exactly when `Straight` holds. -/
theorem PathOp.body_straight {rq : SvcReq} (h : s.exports.path = some e) {d : CStr} (he : e <+: d)
    (ho : s.exports.opts.isSome) (op : PathOp) (unset : Junk) :
    Only (op.Meant w rq s d) (op.body w rq unset d) s ↔ op.Straight w rq unset s d := by
  obtain rfl : exportPath s = e := by rw [exportPath, h]; rfl
  have hcalm : ∀ {a b} (ev : Event), ev.calm = true → ActsOn a b ev := actsOn_calm
  cases op with
  | rename argsFrom argsTo =>
    rw [Only, body, replyWith_snd]
    exact renameBody_straight h he ho argsFrom argsTo unset
  | create args how =>
    rw [Only, body, replyWith_snd, createBody, Prog.get_bind_run]
    refine rewriteName_direct h he unset id (fun _ => Foot.frame_grows (w := w)
        (createAct_foot (E := fun _ => True) (fun _ _ => trivial) (fun _ => trivial)
          (fun _ => trivial) _ _ _ _ _ _ _))
      fun s1 h1 => (createAct_only hcalm h1 (fun _ _ _ => trivial) d args how unset _ _).trans ?_
    simp only [ActsOn, createFile, openCall, Createhow3.flags, Lands, forall_const]
  | mkdir args attributes =>
    rw [Only, body, replyWith_snd, mkdirBody, Prog.get_bind_run]
    exact rewriteName_direct h he unset And.right (fun _ => mkdirAct_frame (E := fun _ => True)
        (fun _ _ => trivial) (fun _ => trivial) (fun _ => trivial) _ _ _ _ _ _ _)
      fun s1 h1 => mkdirAct_only hcalm h1 d args attributes _ _ _
  | remove object =>
    rw [Only, body, replyWith_snd, unlinkBody, Prog.get_bind_run]
    exact rewriteName_direct h he unset id (fun _ => unlinkAct_frame
      (E := fun _ => True) (fun _ _ => trivial) (fun _ => trivial) (fun _ => trivial) _ _ _ _ _)
      fun s1 h1 => unlinkAct_only hcalm h1 unlinkRemove d _ _
  | rmdir object =>
    rw [Only, body, replyWith_snd, unlinkBody, Prog.get_bind_run]
    exact rewriteName_direct h he unset id (fun _ => unlinkAct_frame
      (E := fun _ => True) (fun _ _ => trivial) (fun _ => trivial) (fun _ => trivial) _ _ _ _ _)
      fun s1 h1 => unlinkAct_only hcalm h1 unlinkRmdir d _ _

/-- **Operations on a path touch the direct child of their directory only** exactly when `Straight`
holds of a request that `PREP` lets in. -/
theorem direct_child_iff (op : PathOp) (rq : SvcReq) (s : Server L R) :
    (∀ d s1, prep w op.args.dir rq s = (.ok (.ok d), s1) →
      ∀ ev ∈ since s (nfsProgram w rq op.request s).2, op.Meant w rq s1 d ev) ↔
    ∀ d s1, prep w op.args.dir rq s = (.ok (.ok d), s1) →
      op.Straight w rq (w.junk s.tick) s1 d := by
  refine forall₃_congr fun d s1 hp => ?_
  obtain ⟨e, he⟩ := prep_path hp
  have hpre : e <+: d := by
    have hp' := prep_prefix hp
    rwa [exportPath, he] at hp'
  have hcalm : ∀ ev, ev.calm = true → op.Meant w rq s1 d ev := fun ev hev => by
    cases op <;> exact actsOn_calm ev hev
  rw [← op.body_straight he hpre (prep_ok hp).2.1]
  refine (op.only_iff (calm_sys hcalm) rq s).trans ⟨fun hall => hall d s1 hp, ?_⟩
  intro ho d' s1' hp'
  rw [hp] at hp'
  obtain ⟨⟨⟨⟩⟩, rfl⟩ := Prod.mk.inj hp'
  exact ho

end

/-! ## RMDIR of `.` -/

def dotOp : PathOp :=
    .rmdir { dir := Sandbox.handle (Sandbox.item (lit "/e") true), name := lit "." }

def dotReq : SvcReq := { remote := 1, uid := 7, gid := 7 }

def dotServer : Server Sandbox.Kernel Sandbox.Grid :=
  Sandbox.server [Sandbox.item (lit "/e") true] {} {}

/-- RMDIR of `.` in the export's own directory removes the whole public collection. -/
theorem rmdir_dot_removes_all :
    ¬ ∀ d s1, prep Sandbox.publicWorld dotOp.args.dir dotReq dotServer = (.ok (.ok d), s1) →
      ∀ ev ∈ since dotServer (nfsProgram Sandbox.publicWorld dotReq dotOp.request dotServer).2,
        dotOp.Meant Sandbox.publicWorld dotReq s1 d ev := by
  intro h
  have hev : Event.rods (.rcRmColl (some { id := 0 }) (lit "/z/home/public") true true) ∈
      since dotServer (nfsProgram Sandbox.publicWorld dotReq dotOp.request dotServer).2 := by
    decide +kernel
  have hp : (prep Sandbox.publicWorld dotOp.args.dir dotReq dotServer).1 = .ok (.ok (lit "/e")) :=
    rfl
  have hm := h (lit "/e") _ (Prod.ext hp rfl) _ hev
  have hne : lit "/z/home/public" ≠ (childPlace Sandbox.publicWorld (exportPath (prep
      Sandbox.publicWorld dotOp.args.dir dotReq dotServer).2) dotReq.uid (lit "/e")
        (lit ".")).name := by
    decide +kernel
  exact hne hm

end NfsRods
