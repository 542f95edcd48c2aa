import NfsRods.Lib.Follow
import NfsRods.Proof.ExportPath
import NfsRods.Proof.Signal

/-!
# The steps of the procedures

The step sequences by which a reload is judged are compared with the procedures: what a run does
with `export_path`, the values it sets and the uses it makes, is described by a sequence of steps
that the procedure can take.

* `PathSteps`: the steps describe what a run has done with `export_path`.
* `nfsProgram_steps`, `mountprocMnt_steps`: every run of a procedure is described by its steps.
* `nfsProgram_uses`: so no request uses a path that it has not found in the list in force.
-/

namespace NfsRods

open CStr
open Prog (Frame Follows Quiet)

/-! ## Steps and events -/

/-- The steps take `export_path` from one value to another under the list in force, while the events
are issued: a use that is recorded is one of the reads, and finds the value of that moment. -/
inductive PathTrace (list : List EItem) :
    Option CStr → List ListStep → List Event → Option CStr → Prop
  | done (p : Option CStr) : PathTrace list p [] [] p
  | event {p q : Option CStr} {u : List ListStep} {t : List Event} {ev : Event} (hev : NoPath ev)
    (h : PathTrace list p u t q) : PathTrace list p u (ev :: t) q
  | use {p q : Option CStr} {u : List ListStep} {t : List Event} (h : PathTrace list p u t q) :
    PathTrace list p (.readPath :: u) (.exportPath p :: t) q
  /-- Not every read is recorded. -/
  | read {p q : Option CStr} {u : List ListStep} {t : List Event} (h : PathTrace list p u t q) :
    PathTrace list p (.readPath :: u) t q
  | clear {p q : Option CStr} {u : List ListStep} {t : List Event}
    (h : PathTrace list none u t q) : PathTrace list p (.clearPath :: u) t q
  | set {p q : Option CStr} {u : List ListStep} {t : List Event} {i : EItem} (hi : i ∈ list)
    (h : PathTrace list (some i.path) u t q) : PathTrace list p (.setPath :: u) t q
  | other {p q : Option CStr} {u : List ListStep} {t : List Event} {a : ListStep}
    (hr : a.readsPath = false) (hs : a.setsPath = false) (h : PathTrace list p u t q) :
    PathTrace list p (a :: u) t q

namespace PathTrace

variable {list : List EItem} {p q x : Option CStr} {u v : List ListStep} {t t' : List Event}

theorem append (h : PathTrace list p u t q) (h' : PathTrace list q v t' x) :
    PathTrace list p (u ++ v) (t ++ t') x := by
  induction h with
  | done => exact h'
  | event hev _ ih => exact .event hev (ih h')
  | use _ ih => exact .use (ih h')
  | read _ ih => exact .read (ih h')
  | clear _ ih => exact .clear (ih h')
  | set hi _ ih => exact .set hi (ih h')
  | other hr hs _ ih => exact .other hr hs (ih h')

theorem quiet (ht : ∀ ev ∈ t, NoPath ev) : PathTrace list p [] t p := by
  induction t with
  | nil => exact .done p
  | cons ev t ih =>
    exact .event (ht ev List.mem_cons_self) (ih fun e he => ht e (List.mem_cons_of_mem _ he))

/-- A use finds what was there at first, if the steps use that, or a path of the list. -/
theorem uses (h : PathTrace list p u t q) {e : Option CStr} (he : .exportPath e ∈ t) :
    e = none ∨ (∃ i ∈ list, e = some i.path) ∨ e = p ∧ pendingPath u = true := by
  induction h with
  | done => cases he
  | event hev _ ih =>
    rcases List.mem_cons.1 he with he | he
    · exact absurd he.symm (hev e)
    · exact ih he
  | use _ ih =>
    rcases List.mem_cons.1 he with he | he
    · cases he
      exact .inr (.inr ⟨rfl, rfl⟩)
    · exact (ih he).imp_right (·.imp_right fun h => ⟨h.1, rfl⟩)
  | read _ ih => exact (ih he).imp_right (·.imp_right fun h => ⟨h.1, rfl⟩)
  | clear _ ih =>
    rcases ih he with h | h | h
    · exact .inl h
    · exact .inr (.inl h)
    · exact .inl h.1
  | set hi _ ih =>
    rcases ih he with h | h | h
    · exact .inl h
    · exact .inr (.inl h)
    · exact .inr (.inl ⟨_, hi, h.1⟩)
  | other hr hs _ ih =>
    refine (ih he).imp_right (·.imp_right fun h => ⟨h.1, ?_⟩)
    rw [pendingPath, FirstUse.usesFirst, hr, hs]
    exact h.2

end PathTrace

instance : Nonempty Junk := ⟨{}⟩
instance : Nonempty Nfsstat3 := ⟨.ok⟩
instance : Nonempty PostOpAttr := ⟨{}⟩
instance : Nonempty Lookup := ⟨{ vars := {} }⟩
instance : Nonempty Unfs3Fh := ⟨invalidFh⟩
instance : Nonempty RodsReply := ⟨{ status := 0 }⟩
instance : Nonempty Readdir3res := ⟨{ status := .ok }⟩
instance : Nonempty Write3res := ⟨{ status := .ok }⟩
instance : Nonempty Create3res := ⟨{ status := .ok }⟩

section
variable {L R : Type} {w : World L R}

/-- The steps describe what a run from `s` to `s'` has done with `export_path`. -/
def PathSteps (s : Server L R) (u : List ListStep) (s' : Server L R) : Prop :=
  s'.exportList = s.exportList ∧
    ∃ t, s'.trace = s.trace ++ t ∧ PathTrace s.exportList s.exports.path u t s'.exports.path

instance : Prog.Describes (PathSteps (L := L) (R := R)) where
  nil s := ⟨rfl, [], by simp, .done _⟩
  append := by
    rintro s s' s'' u v ⟨hl, t, ht, h⟩ ⟨hl', t', ht', h'⟩
    rw [hl] at h'
    exact ⟨hl'.trans hl, t ++ t', by rw [ht', ht, List.append_assoc], h.append h'⟩

/-- Whoever uses no `export_path` has nothing to describe. -/
theorem silent {α : Type} {m : M L R α} (h : Frame (Foot w NoPath) m) : Quiet PathSteps m := by
  intro s
  obtain ⟨⟨t, ht, hev, -⟩, he, hl⟩ := h s
  refine ⟨hl, t, ht, ?_⟩
  rw [he]
  exact .quiet hev

instance : OwnFrame fun s s' : Server L R => PathSteps s [] s' where
  refl := Prog.Describes.nil
  trans _ _ _ h h' := Prog.Describes.append h h'
  own h := ⟨h.exportList, [], by simp [h.trace], by rw [h.exports]; exact .done _⟩

instance : Allows w NoPath fun s s' : Server L R => PathSteps s [] s' where
  sys h := silent (w := w) (Allows.sys h)
  rods h := silent (w := w) (Allows.rods h)
  path _ h := absurd rfl (h _)
  copy h := silent (w := w) (Allows.copy w h)
  listed h := silent (w := w) (Allows.listed w h)

/-! ## Words -/

theorem matches'_maybe (c : Steps.Code) : (Steps.maybe c).matches' = 1 + c.matches' := rfl

theorem matches'_step (a : ListStep) : (Steps.step a).matches' = {[a]} := rfl

theorem nil_maybe (c : Steps.Code) : [] ∈ (Steps.maybe c).matches' := .inl rfl

theorem nil_uses (v : Option PathVar) : [] ∈ (Steps.uses v).matches' := by
  cases v with
  | none => exact Language.nil_mem_one
  | some v => exact Language.nil_mem_kstar _

theorem nil_getPostLl (v : Option PathVar) : [] ∈ (Steps.getPostLl v).matches' :=
  Language.append_mem_mul (nil_uses v) (nil_maybe _)

variable {α β : Type} {c d : Language ListStep} {m : M L R α}

/-- A read that is not recorded. -/
theorem Follows.read (h : Follows PathSteps d m) :
    Follows PathSteps ({[ListStep.readPath]} * d) m := by
  refine .cons ?_ h
  rintro s u s' ⟨hl, t, ht, h⟩
  exact ⟨hl, t, ht, .read h⟩

/-- A step that does not concern `export_path`. -/
theorem Follows.other {a : ListStep} (hr : a.readsPath = false) (hs : a.setsPath = false)
    (h : Follows PathSteps d m) : Follows PathSteps ({[a]} * d) m := by
  refine .cons ?_ h
  rintro s u s' ⟨hl, t, ht, h⟩
  exact ⟨hl, t, ht, .other hr hs h⟩

/-! ## The export list -/

/-- A path that is found is one of the list's. -/
theorem exportsOptions_mem {list : List EItem} {remote : UInt32} {path : Option CStr}
    {v : ExportVars} {e : CStr} (h : (exportsOptions list remote path v).vars.path = some e) :
    ∃ i ∈ list, i.path = e := by
  have fold : ∀ (p : CStr) (l : List EItem) (k : Lookup), (∀ i ∈ l, i ∈ list) →
      (∀ e, k.vars.path = some e → ∃ i ∈ list, i.path = e) →
      ∀ e, (l.foldl (exportsStep remote p) k).vars.path = some e → ∃ i ∈ list, i.path = e := by
    intro p l
    induction l with
    | nil => exact fun _ _ hk => hk
    | cons item l ih =>
      intro k hl hk
      refine ih _ (fun i hi => hl i (List.mem_cons_of_mem _ hi)) fun e he => ?_
      rcases exportsStep_cases remote p k item with ⟨_, _, _, _, _, hpath, _⟩ | ⟨hv, _⟩
      · rw [hpath] at he
        exact ⟨item, hl item List.mem_cons_self, Option.some.inj he⟩
      · rw [hv] at he
        exact hk e he
  unfold exportsOptions at h
  split at h
  · cases h
  · split at h
    · cases h
    · exact fold _ list _ (fun _ hi => hi) (fun e he => by cases he) e h

theorem exportsOptions_words (v : Option PathVar) :
    [.clearPath] ∈ (Steps.exportsOptions v).matches' ∧
      [.clearPath, .enter, .setPath, .leave] ∈ (Steps.exportsOptions v).matches' := by
  rcases v with _ | v
  · decide +kernel
  · cases v <;> decide +kernel

/-- What a lookup of options does with `export_path`. -/
theorem exportsOptions_steps (v : Option PathVar) (path : Option CStr) (remote : UInt32)
    (s : Server L R) : ∃ u ∈ (Steps.exportsOptions v).matches', PathSteps s u
      { s with exports := (exportsOptions s.exportList remote path s.exports).vars } := by
  obtain ⟨hclear, hset⟩ := exportsOptions_words v
  cases he : (exportsOptions s.exportList remote path s.exports).vars.path with
  | none =>
    refine ⟨_, hclear, rfl, [], by simp, ?_⟩
    simp only [he]
    exact .clear (.done _)
  | some e =>
    obtain ⟨i, hi, rfl⟩ := exportsOptions_mem he
    refine ⟨_, hset, rfl, [], by simp, ?_⟩
    simp only [he]
    exact .clear (.other rfl rfl (.set hi (.other rfl rfl (.done _))))

theorem exportsOptionsM_follows (v : Option PathVar) (path : Option CStr) (rq : SvcReq) :
    Follows PathSteps (Steps.exportsOptions v).matches'
      (exportsOptionsM path rq : M L R Lookup) where
  live _ := ⟨_, (exportsOptions_words v).1⟩
  ok s a s' h := by
    cases h
    exact exportsOptions_steps v path rq.remote s
  stop s e s' h := by cases h

theorem exportsCompatM_follows (v : Option PathVar) (path : Option CStr) (rq : SvcReq) :
    Follows PathSteps (Steps.exportsCompat v).matches'
      (exportsCompatM path rq : M L R Nfsstat3) where
  live _ := ⟨_, (exportsOptions_words v).1⟩
  ok s a s' h := by
    cases h
    rw [exportsCompat_vars]
    exact exportsOptions_steps v path rq.remote s
  stop s e s' h := by cases h

/-! ## The path's translation -/

theorem isPublic_follows : Follows PathSteps Steps.isPublic.matches' (isPublic w) := by
  refine .of_word (u := [.readPath]) rfl fun s => ?_
  have hrun : (isPublic w s).2.exportList = s.exportList ∧
      (isPublic w s).2.trace = s.trace ++ [.exportPath s.exports.path] ∧
      (isPublic w s).2.exports = s.exports := by
    unfold isPublic
    rw [Prog.get_bind_run]
    cases s.exports.path <;> exact ⟨rfl, rfl, rfl⟩
  obtain ⟨hl, ht, he⟩ := hrun
  refine ⟨hl, _, ht, ?_⟩
  rw [he]
  exact .use (.done _)

theorem getNFSDirectory_follows (uid : UInt32) :
    Follows PathSteps Steps.getNFSDirectory.matches' (getNFSDirectory w uid) :=
  isPublic_follows.last fun _ => .ite (fun _ => .pure _) fun _ => .pure _

theorem getRealPathNFS_follows (v : Option PathVar) (userPath : CStr) (uid : UInt32) :
    Follows PathSteps (Steps.getRealPathNFS v).matches' (getRealPathNFS w userPath uid) := by
  simp only [Steps.getRealPathNFS, RegularExpression.matches'_mul, matches'_maybe, matches'_step,
    mul_assoc]
  refine .skip (nil_uses v) (.quiet (debug_frame _) fun _ => ?_)
  refine isPublic_follows.bind fun _ => .ite (fun _ => .pure _ (.inl rfl)) fun _ => .inr ?_
  refine (getNFSDirectory_follows uid).bind fun _ => .get fun s => Follows.read ?_
  refine .skip (nil_uses v) (.ite (fun _ => .pure _ (.inl rfl)) fun _ => ?_)
  exact .quiet (debug_frame _) fun _ => .pure _ (.inl rfl)

theorem getIRODSpathGetAttr_follows (v : Option PathVar) (path : CStr) (uid : UInt32) :
    Follows PathSteps (Steps.getIRODSpathGetAttr v).matches'
      (getIRODSpathGetAttr w path uid) := by
  simp only [Steps.getIRODSpathGetAttr, RegularExpression.matches'_mul, matches'_step, mul_assoc]
  refine isPublic_follows.bind fun _ => Follows.read ?_
  exact .ite (fun _ => .get fun _ => .pure _ (nil_uses v)) fun _ =>
    .get fun _ => .pure _ (nil_uses v)

theorem getRodsPath_follows (v : Option PathVar) (uid : UInt32) (path : CStr) :
    Follows PathSteps (Steps.getRodsPath v).matches' (getRodsPath w uid path) := by
  simp only [Steps.getRodsPath, RegularExpression.matches'_mul]
  refine .skip_last (nil_uses v) (.quiet (debug_frame _) fun _ => ?_)
  refine isPublic_follows.last fun _ => .ite (fun _ => ?_) fun _ => .ite (fun _ => ?_) fun _ => ?_
  · exact .bind (debug_frame _) fun _ => .bind zonePath_frame fun _ => concatProxy_frame _ _ _
  · exact .bind (debug_frame _) fun _ => .bind zonePath_frame fun _ =>
      .bind (concatProxy_frame _ _ _) fun _ => .stop _
  · exact .bind zonePath_frame fun _ => .bind junk_frame fun _ =>
      .bind (concatProxy_frame _ _ _) fun _ => .bind (debug_frame _) fun _ => .pure _

theorem rodsName_follows (v : Option PathVar) (path : CStr) (uid : UInt32) :
    Follows PathSteps (Steps.rodsName v).matches' (rodsName w path uid) :=
  (getIRODSpathGetAttr_follows v path uid).bind fun _ => getRodsPath_follows none uid _

theorem rewriteObj_follows (filled : Bool) (obj : CStr) (uid : UInt32) :
    Follows PathSteps Steps.rewriteObj.matches' (rewriteObj w filled obj uid) :=
  (getRealPathNFS_follows none obj uid).bind fun _ => .quiet (debug_frame _) fun _ =>
    (getRealPathNFS_follows none obj uid).last fun _ => toArray_frame w fun _ h => by cases h

/-! ## Connecting -/

theorem rods_quiet (c : RodsCall) : Quiet PathSteps (rods w c) := rods_frame fun _ h => by cases h

theorem sys_quiet (c : SysCall) : Quiet PathSteps (sys w c) := sys_frame (noPath_sys c)

theorem rcDisconnect_quiet (comm : Comm) : Quiet PathSteps (rcDisconnect w comm) :=
  .bind (rods_quiet _) fun _ => .pure _

theorem rodsConnect_quiet : Quiet PathSteps (rodsConnect w) :=
  .ite (fun _ => .pure _) fun _ => .bind (rods_quiet _) fun _ => .pure _

theorem rodsConnectProxy_follows (name : Option CStr) :
    Follows PathSteps Steps.isPublic.matches' (rodsConnectProxy w name) := by
  refine isPublic_follows.last fun _ => ?_
  cases name with
  | none => exact rodsConnect_quiet
  | some n =>
    exact .ite (fun _ => rodsConnect_quiet) fun _ => .ite (fun _ => .pure _) fun _ =>
      .bind (rods_quiet _) fun _ => .pure _

theorem connectUser_follows (uid : UInt32) :
    Follows PathSteps Steps.rodsConnecUser.matches' (connectUser w uid) := by
  have hconnect : Follows PathSteps Steps.rodsConnecUser.matches' (rodsConnecUser w uid) := by
    refine .quiet (debug_frame _) fun _ => .ite (fun _ => ?_) fun _ => ?_
    · exact .quiet (debug_frame _) fun _ => (rodsConnectProxy_follows none).last fun _ => .stop _
    · exact .quiet junk_frame fun _ => rodsConnectProxy_follows _
  refine hconnect.last fun comm => .bind ?_ fun _ => .pure _
  cases comm with
  | none => exact .pure _
  | some c =>
    refine .bind (rods_quiet _) fun _ => .bind (.when fun _ => ?_) fun _ => .pure _
    exact .bind (rods_quiet _) fun _ => .pure _

/-- The call that follows is of no concern. -/
theorem openRods_follows (v : Option PathVar) (path : CStr) (uid : UInt32) :
    Follows PathSteps (Steps.rodsConnecUser.matches' * (Steps.rodsName v).matches')
      (openRods w path uid) :=
  (connectUser_follows uid).bind fun _ => (rodsName_follows v path uid).last fun _ =>
    .bind (debug_frame _) fun _ => .pure _

theorem remoteStep_follows (call : CStr → Comm → RodsCall) (obj : CStr) (rq : SvcReq) :
    Follows PathSteps (Steps.rodsConnecUser.matches' * (Steps.rodsName none).matches')
      (remoteStep w call obj rq) :=
  (openRods_follows none obj rq.uid).last fun _ =>
    .bind (.bind (rods_quiet _) fun _ => .pure _) fun _ =>
      .bind (debug_frame _) fun _ => rcDisconnect_quiet _

theorem remoteSize_follows (name : CStr) (uid : UInt32) :
    Follows PathSteps Steps.rodsConnecUser.matches' (remoteSize w name uid) :=
  (connectUser_follows uid).last fun _ =>
    .bind (.bind (rods_quiet _) fun _ => .pure _) fun _ =>
      .bind (rcDisconnect_quiet _) fun _ => .pure _

/-! ## Handles and attributes -/

theorem getPostCached_follows (rq : SvcReq) :
    Follows PathSteps Steps.getPostCached.matches' (getPostCached w rq) :=
  .of_quiet (getPostCached_frame rq) (nil_maybe _)

theorem getPostStat_follows (v : Option PathVar) (path : Option CStr) (rq : SvcReq) :
    Follows PathSteps (Steps.getPostLl v).matches' (getPostStat w path rq) :=
  .of_quiet (getPostStat_frame path rq) (nil_getPostLl v)

theorem fhComp_follows (path : CStr) (rq : SvcReq) (needDir : Bool) :
    Follows PathSteps (Steps.fhCompRaw none true).matches' (fhComp w path rq needDir) := by
  have hraw : Follows PathSteps (Steps.fhCompRaw none true).matches'
      (fhCompRaw w path (some rq) needDir) := by
    simp only [Steps.fhCompRaw, Steps.exportPoint, if_true, RegularExpression.matches'_mul,
      matches'_maybe, matches'_step, mul_assoc]
    refine .get fun s => Follows.other rfl rfl (.skip (nil_uses _) (Follows.other rfl rfl ?_))
    refine .skip_last (nil_uses _) (.ite (fun _ => .inr ?_) fun _ => .pure _ (.inl rfl))
    exact (exportsOptionsM_follows none _ rq).last fun _ =>
      .ite (fun _ => .pure _) fun _ => .ite (fun _ => .pure _) fun _ => .pure _
  exact hraw.last fun fh => .bind (.when fun _ => silent (w := w) (fhCacheAdd_foot _ _ _)) fun _ =>
    .bind .get fun _ => .pure _

theorem fhCompPtr_follows (path : CStr) (rq : SvcReq) (needDir : Bool) :
    Follows PathSteps (Steps.fhCompRaw none true).matches' (fhCompPtr w path rq needDir) :=
  (fhComp_follows path rq needDir).map _

theorem fhExtend_follows (nfh : NfsFh3) (dev ino gen : ULong) :
    Follows PathSteps Steps.fhExtend.matches' (fhExtend w nfh dev ino gen) :=
  .of_quiet (fhExtend_frame nfh dev ino gen) (nil_maybe _)

theorem switchUser_quiet (rq : SvcReq) : Quiet PathSteps (switchUser w rq) :=
  switchUser_frame (fun c _ => noPath_sys c) rq

/-- `PREP` with what follows. -/
theorem withPrep_follows {fh : NfsFh3} {rq : SvcReq} {refuse : Nfsstat3 → M L R α}
    {act : CStr → M L R α} {body : Option PathVar → Steps.Code}
    (hrefuse : ∀ st, Quiet PathSteps (refuse st))
    (hact : ∀ path, Follows PathSteps (body none).matches' (act path)) :
    Follows PathSteps (Steps.prep body).matches' (withPrep w fh rq refuse act) := by
  have hprep : Follows PathSteps (Steps.exportsOptions none).matches' (prep w fh rq) := by
    refine .quiet (switchToRoot_frame fun c _ => noPath_sys c) fun _ => ?_
    refine .quiet (silent (fhDecomp_foot fh)) fun p => ?_
    refine (exportsOptionsM_follows none p rq).last fun k => ?_
    cases p with
    | none => exact .pure _
    | some path =>
      refine .ite (fun _ => .pure _) fun _ => .ite (fun _ => .pure _) fun _ => ?_
      exact .bind (switchUser_quiet rq) fun _ => .pure _
  simp only [Steps.prep, RegularExpression.matches'_add, RegularExpression.matches'_mul,
    mul_assoc]
  refine .inl (.skip (nil_maybe _) (hprep.bind fun r => ?_))
  cases r with
  | error st => exact .of_quiet (hrefuse st) (nil_maybe _)
  | ok path => exact .inr (hact path)

/-! ## The procedures -/

theorem getattrBody_follows (path : CStr) (rq : SvcReq) :
    Follows PathSteps (Steps.getattr none).matches' (getattrBody w path rq) := by
  simp only [Steps.getattr, RegularExpression.matches'_mul, matches'_maybe, mul_assoc]
  refine (rodsName_follows none path rq.uid).bind fun _ =>
    (getRealPathNFS_follows none path rq.uid).bind fun _ => .skip (nil_uses none) ?_
  refine .quiet (debug_frame _) fun _ => .quiet (debug_frame _) fun _ => ?_
  refine (getPostCached_follows rq).bind fun _ => .ite (fun _ => .inr ?_) fun _ => ?_
  · exact (remoteSize_follows _ _).last fun _ => .bind (debug_frame _) fun _ => .pure _
  · exact .quiet (debug_frame _) fun _ => .pure _ (.inl rfl)

theorem setattrBody_follows (path : CStr) (object : NfsFh3) (new : Sattr3) (rq : SvcReq) :
    Follows PathSteps (Steps.setattr none).matches' (setattrBody w path object new rq) := by
  have hwrite : ∀ path, Follows PathSteps
      (Steps.rodsConnecUser.matches' * (Steps.rodsName none).matches')
      (setattrWrite w path object new rq) := by
    intro path
    refine .quiet (setAttr_frame noPath_sys _ _ _) fun _ => ?_
    refine (openRods_follows none path rq.uid).last fun _ => .ite (fun _ => ?_) fun _ => ?_
    · exact .bind (debug_frame _) fun _ => .bind (rcDisconnect_quiet _) fun _ => .pure _
    · refine .bind junk_frame fun _ => .bind (setAttrIrods_frame (fun c _ h => by cases h) _ _ _ _)
        fun _ => .bind (rcDisconnect_quiet _) fun _ => .pure _
  simp only [Steps.setattr, RegularExpression.matches'_mul, matches'_maybe, mul_assoc]
  refine (getRealPathNFS_follows none path rq.uid).bind fun path => .skip (nil_uses none) ?_
  refine .quiet (debug_frame _) fun _ => .get fun s => ?_
  refine .bind (.ite (fun _ => .inr (hwrite path)) fun _ => .pure _ (.inl rfl)) fun _ => ?_
  exact (getPostStat_follows none _ rq).last fun _ => .bind (debug_frame _) fun _ => .pure _

theorem lookupFh_follows (what : Diropargs3) (obj : CStr) (buf : Stat) (rq : SvcReq) :
    Follows PathSteps ((Steps.fhCompRaw none true).matches' + Steps.fhExtend.matches')
      (lookupFh w what obj buf rq) := by
  refine .ite (fun _ => .inl (fhCompPtr_follows _ _ _)) fun _ => .inr ?_
  exact (fhExtend_follows _ _ _ _).last fun _ =>
    .bind (silent (w := w) (fhCacheAdd_foot _ _ _)) fun _ => .pure _

theorem lookupLocal_follows (what : Diropargs3) (path : CStr) (rq : SvcReq) :
    Follows PathSteps (1 + ((Steps.fhCompRaw none true).matches' + Steps.fhExtend.matches') *
      (1 + Steps.getPostBuf.matches')) (lookupLocal w what path rq) := by
  unfold lookupLocal
  split
  · refine .quiet (lstat_frame _) fun st => ?_
    cases st with
    | none => exact .get fun _ => .pure _ (.inl rfl)
    | some buf =>
      refine .inr ((lookupFh_follows _ _ _ _).bind fun fh => ?_)
      cases fh with
      | none => exact .pure _ (.inl rfl)
      | some fh =>
        refine .of_quiet (.bind (getPostBuf_frame _ _) fun _ => .bind ?_ fun _ => .pure _)
          (.inl rfl)
        exact modify_frame fun _ => ⟨rfl, rfl, rfl, rfl, rfl, rfl⟩
  · exact .pure _ (.inl rfl)

theorem lookupBody_follows (what : Diropargs3) (dir : CStr) (rq : SvcReq) :
    Follows PathSteps (Steps.lookup none).matches' (lookupBody w what dir rq) := by
  simp only [Steps.lookup, RegularExpression.matches'_mul, RegularExpression.matches'_add,
    matches'_maybe, mul_assoc]
  refine .skip (nil_uses none) (.quiet (debug_frame _) fun _ => ?_)
  refine (getRodsPath_follows none rq.uid dir).bind fun _ => .skip (nil_uses none) ?_
  refine .quiet (debug_frame _) fun _ => (getRealPathNFS_follows none dir rq.uid).bind fun _ => ?_
  refine .skip (nil_uses none) (.quiet (debug_frame _) fun _ => ?_)
  refine (lookupLocal_follows _ _ _).bind fun r => (getPostStat_follows none _ rq).bind fun _ => ?_
  refine .get fun s => .last (.ite (fun _ => .inr ?_) fun _ => .pure _ (.inl rfl)) fun _ =>
    .bind (debug_frame _) fun _ => .bind .get fun _ => .pure _
  exact (remoteSize_follows _ _).last fun _ =>
    modify_frame fun _ => ⟨rfl, rfl, rfl, rfl, rfl, rfl⟩

theorem accessBody_follows (path : CStr) (access : Nat) (rq : SvcReq) :
    Follows PathSteps (Steps.access none).matches' (accessBody w path access rq) := by
  simp only [Steps.access, RegularExpression.matches'_mul, mul_assoc]
  refine (getRealPathNFS_follows none path rq.uid).bind fun path => .skip (nil_uses none) ?_
  refine .quiet (debug_frame _) fun _ => ?_
  rw [← mul_assoc]
  refine (openRods_follows none path rq.uid).bind fun _ => .skip (nil_uses none) ?_
  refine .quiet (.bind (rods_quiet _) fun _ => .bind (.when fun _ => ?_) fun _ => .pure _)
    fun _ => .quiet (rcDisconnect_quiet _) fun _ => ?_
  · exact .bind (sys_quiet _) fun _ => .pure _
  · exact (getPostCached_follows rq).last fun _ => .bind .get fun _ =>
      .bind (debug_frame _) fun _ => .pure _

theorem readRemote_follows (path : CStr) (offset count : Nat) (rq : SvcReq) :
    Follows PathSteps (Steps.rodsConnecUser.matches' * ((Steps.getRealPathNFS none).matches' *
      ((Steps.uses none).matches' * (Steps.rodsName none).matches')))
      (readRemote w path offset count rq) := by
  refine (connectUser_follows rq.uid).bind fun _ =>
    (getRealPathNFS_follows none path rq.uid).bind fun _ => .skip (nil_uses none) ?_
  refine .quiet (debug_frame _) fun _ => (rodsName_follows none path rq.uid).last fun _ => ?_
  refine .bind (rods_quiet _) fun _ => .ite (fun _ => .bind .get fun _ => .pure _) fun _ => ?_
  exact .bind (rods_quiet _) fun _ => .ite (fun _ => .pure _) fun _ =>
    .bind .get fun _ => .pure _

theorem readBody_follows (path : CStr) (offset count : Nat) (rq : SvcReq) (unset : Int) :
    Follows PathSteps (Steps.read none).matches' (readBody w path offset count rq unset) := by
  simp only [Steps.read, RegularExpression.matches'_mul, matches'_maybe, mul_assoc]
  refine .get fun s => .quiet (readExecutable_frame (fun c _ => noPath_sys c) _ _) fun _ => ?_
  refine .quiet (accessByOwner_frame (fun c _ => noPath_sys c) _ _ _) fun _ => ?_
  refine .bind (.ite (fun _ => .inr (readRemote_follows _ _ _ _)) fun _ => .pure _ (.inl rfl))
    fun _ => ?_
  exact (getPostStat_follows none _ rq).last fun _ => .bind (debug_frame _) fun _ => .pure _

theorem writeWrite_follows (path : CStr) (args : Write3args) (rq : SvcReq) :
    Follows PathSteps (1 + Steps.rodsConnecUser.matches' * (Steps.rodsName none).matches')
      (writeWrite w path args rq) := by
  refine .quiet (fdOpen_frame (fun c _ => noPath_sys c) _ _ _ _) fun fd =>
    .ite (fun _ => .inr ?_) fun _ => .get fun _ => .pure _ (.inl rfl)
  have hfd : Follows PathSteps (Steps.rodsConnecUser.matches' * (Steps.rodsName none).matches')
      (writeFd w path args rq fd) := by
    refine .quiet (sys_quiet _) fun _ => (openRods_follows none path rq.uid).last fun _ =>
      .bind ?_ fun _ => ?_
    · refine .bind (rods_quiet _) fun _ => .bind (rods_quiet _) fun _ =>
        .ite (fun _ => .pure _) fun _ => .bind (rods_quiet _) fun _ => ?_
      exact .ite (fun _ => .pure _) fun _ => .bind (rods_quiet _) fun _ => .pure _
    · refine .bind (debug_frame _) fun _ => .bind (debug_frame _) fun _ => ?_
      exact .bind (rcDisconnect_quiet _) fun _ =>
        .bind (fdClose_frame (fun c _ => noPath_sys c) _ _ _) fun _ => .pure _
  exact hfd.last fun _ => .bind .get fun _ => .ite (fun _ => .pure _) fun _ => .pure _

theorem writeBody_follows (path : CStr) (args : Write3args) (rq : SvcReq) :
    Follows PathSteps (Steps.write none).matches' (writeBody w path args rq) := by
  simp only [Steps.write, RegularExpression.matches'_mul, matches'_maybe, mul_assoc]
  refine (getRealPathNFS_follows none path rq.uid).bind fun path => .skip (nil_uses none) ?_
  refine .quiet (debug_frame _) fun _ => .get fun s => ?_
  refine .quiet (accessByOwner_frame (fun c _ => noPath_sys c) _ _ _) fun _ => ?_
  refine .bind (.ite (fun _ => writeWrite_follows _ _ _) fun _ => .pure _ (.inl rfl)) fun _ => ?_
  refine .get fun _ => (getPostStat_follows none _ rq).last fun _ => ?_
  exact .bind (debug_frame _) fun _ => .pure _

theorem createBody_follows (path : CStr) (args : Diropargs3) (how : Createhow3) (rq : SvcReq)
    (unset : Junk) :
    Follows PathSteps (Steps.create none).matches' (createBody w path args how rq unset) := by
  simp only [Steps.create, RegularExpression.matches'_mul, matches'_maybe, mul_assoc]
  refine .skip (nil_uses none) (.get fun _ => (rewriteObj_follows _ _ _).bind fun obj => ?_)
  rw [← mul_assoc]
  refine .quiet (createOpen_frame (fun _ => noPath_sys _) _ _ _ _) fun _ =>
    (remoteStep_follows _ _ _).bind fun _ => .skip (.inl rfl) ?_
  refine .quiet (silent (createFinish_foot (fun c _ => noPath_sys c) (fun _ _ _ => noPath_sys _)
    _ _ _ _ _ _)) fun _ => .get fun _ => ?_
  exact (getPostStat_follows none _ rq).last fun _ => .bind (debug_frame _) fun _ => .pure _

theorem mkdirMake_follows (dir : NfsFh3) (obj : CStr) (attributes : Sattr3) (rq : SvcReq) :
    Follows PathSteps (Steps.rodsConnecUser.matches' * ((Steps.rodsName none).matches' *
      (1 + Steps.fhExtend.matches' * Steps.getPostCached.matches')))
      (mkdirMake w dir obj attributes rq) := by
  rw [← mul_assoc]
  refine .quiet (sys_quiet _) fun _ => (remoteStep_follows _ _ _).bind fun _ =>
    .ite (fun _ => .get fun _ => .pure _ (.inl rfl)) fun _ => .inr ?_
  refine .skip (nil_maybe _) (.quiet (fhExtendType_frame _ _ _) fun _ => ?_)
  exact (getPostCached_follows rq).last fun _ => .pure _

theorem mkdirBody_follows (path : CStr) (args : Diropargs3) (attributes : Sattr3) (rq : SvcReq)
    (unset : Junk) :
    Follows PathSteps (Steps.mkdir none).matches' (mkdirBody w path args attributes rq unset) := by
  simp only [Steps.mkdir, RegularExpression.matches'_mul, matches'_maybe, mul_assoc]
  refine .skip (nil_uses none) (.get fun _ => (rewriteObj_follows _ _ _).bind fun obj => ?_)
  refine .quiet (debug_frame _) fun _ =>
    .bind (.ite (fun _ => .inr (mkdirMake_follows _ _ _ _)) fun _ => .pure _ (.inl rfl)) fun _ => ?_
  refine .of_quiet ?_ (nil_getPostLl none)
  exact .bind (getPostLl_frame _ _ _ _) fun _ => .bind (debug_frame _) fun _ => .pure _

theorem unlinkBody_follows (u : Unlink) (path name : CStr) (rq : SvcReq) (unset : Junk) :
    Follows PathSteps (Steps.unlink none).matches' (unlinkBody w u path name rq unset) := by
  simp only [Steps.unlink, RegularExpression.matches'_mul, mul_assoc]
  refine .skip (nil_uses none) (.get fun _ => (rewriteObj_follows _ _ _).bind fun obj => ?_)
  rw [← mul_assoc]
  refine .quiet (debug_frame _) fun _ =>
    .quiet (unlinkLocal_frame (fun _ => noPath_sys _) _ _ _) fun _ => ?_
  refine (remoteStep_follows _ _ _).bind fun _ => .get fun _ => ?_
  exact (getPostStat_follows none _ rq).last fun _ => .bind (debug_frame _) fun _ => .pure _

theorem renameMove_follows (fromObj toObj : CStr) (rq : SvcReq) :
    Follows PathSteps (Steps.rodsConnecUser.matches' * ((Steps.uses none).matches' *
      ((Steps.uses none).matches' * ((Steps.rodsName none).matches' *
        (Steps.rodsName none).matches')))) (renameMove w fromObj toObj rq) := by
  have hremote : Follows PathSteps (Steps.rodsConnecUser.matches' * ((Steps.uses none).matches' *
      ((Steps.uses none).matches' * ((Steps.rodsName none).matches' *
        (Steps.rodsName none).matches')))) (renameRemote w fromObj toObj rq) := by
    refine (connectUser_follows rq.uid).bind fun _ =>
      .skip (nil_uses none) (.skip (nil_uses none) ?_)
    refine (rodsName_follows none fromObj rq.uid).bind fun _ =>
      (rodsName_follows none toObj rq.uid).last fun _ => ?_
    refine .bind (debug_frame _) fun _ => .bind (debug_frame _) fun _ =>
      .bind (.bind (rods_quiet _) fun _ => .pure _) fun _ => ?_
    exact .bind (rcDisconnect_quiet _) fun _ => .bind (debug_frame _) fun _ => .pure _
  refine .quiet (modify_frame fun _ => ⟨rfl, rfl, rfl, rfl, rfl, rfl⟩) fun _ => ?_
  exact hremote.last fun _ => .bind (sys_quiet _) fun _ => .bind .get fun _ => .pure _

theorem renameBody_follows (fromPath : CStr) (argsFrom argsTo : Diropargs3) (rq : SvcReq)
    (unset : Junk) : Follows PathSteps (Steps.rename none).matches'
      (renameBody w fromPath argsFrom argsTo rq unset) := by
  simp only [Steps.rename, Steps.renameDirs, RegularExpression.matches'_mul,
    RegularExpression.matches'_add, matches'_maybe, mul_assoc]
  refine .skip (nil_uses none) (.inl (.skip (nil_maybe _) (.get fun s => ?_)))
  refine .quiet (silent (fhDecomp_foot _)) fun toPath => ?_
  refine .bind (.ite (fun _ => .inr ?_) fun _ => .pure _ (.inl rfl)) fun _ => ?_
  · refine .skip (nil_uses none) ((exportsCompatM_follows none toPath rq).bind fun _ => ?_)
    refine (rewriteObj_follows _ _ _).bind fun _ => (rewriteObj_follows _ _ _).bind fun _ => ?_
    exact .ite (fun _ => .inr (renameMove_follows _ _ _)) fun _ => .pure _ (.inl rfl)
  · exact .of_quiet (renameEnd_frame _ _ _ _ _ _)
      (Language.append_mem_mul (nil_getPostLl none) (nil_getPostLl none))

theorem readdirBody_follows (path : CStr) (cookie : UInt64) (count : Nat) (rq : SvcReq) :
    Follows PathSteps (Steps.readdir none).matches' (readdirBody w path cookie count rq) := by
  simp only [Steps.readdir, RegularExpression.matches'_mul, matches'_maybe, mul_assoc]
  refine (rodsName_follows none path rq.uid).bind fun _ => .skip (nil_uses none) ?_
  refine .quiet (debug_frame _) fun _ => (getRealPathNFS_follows none path rq.uid).bind fun _ => ?_
  refine .quiet (debug_frame _) fun _ => (getRealPathNFS_follows none path rq.uid).bind fun _ => ?_
  refine .skip (nil_uses none) ((connectUser_follows rq.uid).bind fun _ => ?_)
  refine .skip (nil_uses none) (.skip (.inl rfl) (.skip (nil_uses none) ?_))
  refine .quiet (listCollection_frame (fun c _ => noPath_sys c) (fun _ _ h => by cases h)
    fun _ _ _ h => by cases h) fun _ => .quiet (readDir_frame _ _ _) fun _ => ?_
  exact (getPostStat_follows none _ rq).last fun _ => .bind (rcDisconnect_quiet _) fun _ =>
    .bind (debug_frame _) fun _ => .pure _

theorem fsstatBody_follows (path : CStr) (rq : SvcReq) :
    Follows PathSteps (Steps.fsstat none).matches' (fsstatBody w path rq) :=
  .of_quiet (fsstatBody_frame path rq)
    (Language.append_mem_mul (Language.append_mem_mul (nil_maybe _) (nil_uses none)) (nil_maybe _))

/-- The procedure that a request calls. -/
def NfsRequest.procedure : NfsRequest → Procedure
  | .null | .unsupported => .other
  | .getattr _ => .getattr
  | .setattr .. => .setattr
  | .lookup _ => .lookup
  | .access .. => .access
  | .read .. => .read
  | .write _ => .write
  | .create .. => .create
  | .mkdir .. => .mkdir
  | .remove _ => .remove
  | .rmdir _ => .rmdir
  | .rename .. => .rename
  | .readdir .. => .readdir
  | .fsstat _ => .fsstat
  | .fsinfo _ => .fsinfo
  | .pathconf _ => .pathconf

/-- **The steps of a procedure are those of its model**: for every request, what a run does with
`export_path` is described by a sequence of steps that the procedure can take, or by the beginning
of one when the run stops. -/
theorem nfsProgram_steps (w : World L R) (rq : SvcReq) (q : NfsRequest) :
    Follows PathSteps q.procedure.steps.matches' (nfsProgram w rq q) := by
  cases q with
  | null => exact .pure _ rfl
  | unsupported => exact .pure _ rfl
  | getattr object =>
    exact (withPrep_follows (fun _ => .pure _) fun path => getattrBody_follows path rq).map _
  | setattr object new =>
    exact (withPrep_follows (fun _ => .pure _) fun path =>
      setattrBody_follows path object new rq).map _
  | lookup what =>
    refine (withPrep_follows (fun _ => .bind (modify_frame fun _ => ?_) fun _ => .pure _)
      fun path => lookupBody_follows what path rq).map _
    exact ⟨rfl, rfl, rfl, rfl, rfl, rfl⟩
  | access object access =>
    exact (withPrep_follows (fun _ => .pure _) fun path =>
      accessBody_follows path access rq).map _
  | read file offset count =>
    exact (Follows.get fun s => withPrep_follows (fun _ => .pure _) fun path =>
      readBody_follows path offset count rq _).map _
  | write args =>
    exact (withPrep_follows (fun _ => .pure _) fun path => writeBody_follows path args rq).map _
  | create args how =>
    exact (Follows.get fun s => withPrep_follows (fun _ => .pure _) fun path =>
      createBody_follows path args how rq _).map _
  | mkdir args attributes =>
    exact (Follows.get fun s => withPrep_follows (fun _ => .pure _) fun path =>
      mkdirBody_follows path args attributes rq _).map _
  | remove object | rmdir object =>
    exact (Follows.get fun s => withPrep_follows (fun _ => .pure _) fun path =>
      unlinkBody_follows _ path object.name rq _).map _
  | rename argsFrom argsTo =>
    exact (Follows.get fun s => withPrep_follows (fun _ => .pure _) fun path =>
      renameBody_follows path argsFrom argsTo rq _).map _
  | readdir dir cookie count =>
    exact (withPrep_follows (fun _ => .pure _) fun path =>
      readdirBody_follows path cookie count rq).map _
  | fsstat fsroot =>
    exact (withPrep_follows (fun _ => .pure _) fun path => fsstatBody_follows path rq).map _
  | fsinfo fsroot | pathconf object =>
    exact (withPrep_follows (fun _ => .pure _) fun _ => (getPostCached_follows rq).last
      fun _ => .pure _).map _

theorem authenticate_follows (cmd : MntCmd) (rq : SvcReq) :
    Follows PathSteps (1 + (Steps.exportsOptions none).matches') (authenticate w cmd rq) := by
  cases cmd with
  | password _ dpath =>
    exact .inr ((exportsOptionsM_follows none _ rq).last fun _ =>
      .ite (fun _ => .pure _) fun _ => .pure _)
  | otp _ dpath =>
    refine .inr ((exportsOptionsM_follows none _ rq).last fun _ =>
      .ite (fun _ => .pure _) fun _ => .bind .get fun _ => .bind ?_ fun _ => .pure _)
    exact modify_frame fun _ => ⟨rfl, rfl, rfl, rfl, rfl, rfl⟩
  | getnonce | plain _ => exact .pure _ (.inl rfl)

theorem mntPath_follows (dpath : CStr) (authenticated : Bool) (rq : SvcReq) :
    Follows PathSteps (1 + (Steps.exportsOptions none).matches' *
      (1 + (Steps.fhCompRaw none true).matches')) (mntPath w dpath authenticated rq) := by
  refine .get fun s => ?_
  split
  · exact .pure _ (.inl rfl)
  · refine .ite (fun _ => .pure _ (.inl rfl)) fun _ => .inr ?_
    refine (exportsOptionsM_follows none _ rq).bind fun _ =>
      .ite (fun _ => .pure _ (.inl rfl)) fun _ => .inr ?_
    refine (fhComp_follows _ rq true).last fun _ => .ite (fun _ => .pure _) fun _ =>
      .bind ?_ fun _ => .pure _
    exact modify_frame fun _ => ⟨rfl, rfl, rfl, rfl, rfl, rfl⟩

/-- So are those of MNT. -/
theorem mountprocMnt_steps (w : World L R) (argp : CStr) (rq : SvcReq) :
    Follows PathSteps Procedure.mnt.steps.matches' (mountprocMnt w argp rq) := by
  simp only [Procedure.steps, Steps.mnt, RegularExpression.matches'_mul, matches'_maybe, mul_assoc]
  refine .ite (fun _ => .pure _ (.inl rfl)) fun _ => ?_
  split
  · refine .of_quiet (.bind ?_ fun _ => .bind .get fun _ => .pure _) (.inl rfl)
    exact modify_frame fun _ => ⟨rfl, rfl, rfl, rfl, rfl, rfl⟩
  · exact .inr ((authenticate_follows _ rq).bind fun _ => .skip (.inl rfl) (mntPath_follows _ _ rq))

/-! ## Uses -/

/-- **A request uses no `export_path` of an earlier one**: whatever `export_path` was when it
arrived, what the request uses is `NULL` or the path of an item of the list in force. -/
theorem nfsProgram_uses (w : World L R) (rq : SvcReq) (q : NfsRequest) (s : Server L R)
    {e : Option CStr} (he : .exportPath e ∈ since s (nfsProgram w rq q s).2) :
    e = none ∨ ∃ i ∈ s.exportList, e = some i.path := by
  have hsteps := nfsProgram_steps w rq q
  obtain ⟨u, v, huv, -, t, ht, htrace⟩ : ∃ u v, u ++ v ∈ q.procedure.steps.matches' ∧
      PathSteps s u (nfsProgram w rq q s).2 := by
    rcases hrun : nfsProgram w rq q s with ⟨st | r, s'⟩
    · exact hsteps.stop s st s' hrun
    · obtain ⟨u, hu, hr⟩ := hsteps.ok s r s' hrun
      exact ⟨u, [], by rwa [List.append_nil], hr⟩
  rw [since_eq ht] at he
  rcases htrace.uses he with h | h | ⟨-, hpending⟩
  · exact .inl h
  · exact .inr h
  · have hfirst := (q.procedure.usesFirst huv).1
    rw [pendingPath, FirstUse.usesFirst_append, ← pendingPath, hpending, Bool.true_or] at hfirst
    cases hfirst

end

end NfsRods
