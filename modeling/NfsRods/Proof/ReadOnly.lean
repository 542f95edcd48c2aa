import NfsRods.Proof.PathOp
import NfsRods.Sandbox

/-!
# Requests on a read-only export

SETATTR, WRITE, MKDIR and RENAME ask `exports_rw` before they act. CREATE, REMOVE and RMDIR take its
answer into their status, but only the local step looks at the status: the remote one is taken
regardless.

* `setattrBody_quiet`, `writeBody_quiet`, `PathOp.body_quiet`: what a guarded request does.
* `PathOp.body_leaks`: an unguarded one issues its iRODS call.
* `readonly_untouched_iff`: over every run, requests on read-only exports leave tree and store alone
  exactly when none of them is an unguarded one that gets as far as its iRODS call.
-/

namespace NfsRods

open CStr
open Prog (Frame FrameOn Stops)

/-- The handle `PREP` is given by a request that modifies. -/
def NfsRequest.target : NfsRequest → Option NfsFh3
  | .setattr object _ => some object
  | .write args => some args.file
  | .create args _ | .mkdir args _ => some args.dir
  | .remove object | .rmdir object => some object.dir
  | .rename argsFrom _ => some argsFrom.dir
  | _ => none

/-- The operations whose remote step does not ask for the status. -/
def PathOp.unguarded : PathOp → Bool
  | .create .. | .remove _ | .rmdir _ => true
  | .mkdir .. | .rename .. => false

/-- The event changes neither tree nor store. -/
def Quiet (ev : Event) : Prop := ev.mutates = false

theorem quiet_of_calm (ev : Event) (h : ev.calm = true) : Quiet ev := by
  cases ev <;> simp_all [Event.calm, Event.mutates, Quiet]

section
variable {L R : Type} {w : World L R} {e : CStr}

/-- `s` serves a request under the export `e`, which is read-only. -/
structure Closed (e : CStr) (s : Server L R) : Prop where
  rofs : exportsRw s.exports ≠ .ok
  path : s.exports.path = some e

theorem Closed.foot {E : Event → Prop} (s s' : Server L R) (h : Closed e s) (hf : Foot w E s s') :
    Closed e s' := ⟨by rw [hf.exports]; exact h.rofs, by rw [hf.exports]; exact h.path⟩

/-! ## Guarded requests -/

theorem setattrBody_quiet (path : CStr) (object : NfsFh3) (new : Sattr3) (rq : SvcReq) :
    FrameOn (Closed e) (Foot w Quiet) (setattrBody w path object new rq) := by
  refine .bind Closed.foot (getRealPathNFS_frame (calm_path quiet_of_calm) _ _).on fun _ => ?_
  refine .bind Closed.foot (debug_frame _).on fun _ => .get fun t ht => ?_
  refine (Frame.bind (.ite (fun h => absurd h ht.rofs) fun _ => .pure _) fun _ => ?_).on
  exact .bind (getPostStat_frame _ _) fun _ => .bind (debug_frame _) fun _ => .pure _

theorem writeBody_quiet (path : CStr) (args : Write3args) (rq : SvcReq) :
    FrameOn (Closed e) (Foot w Quiet) (writeBody w path args rq) := by
  refine .bind Closed.foot (getRealPathNFS_frame (calm_path quiet_of_calm) _ _).on fun _ => ?_
  refine .bind Closed.foot (debug_frame _).on fun _ => .get fun t ht => ?_
  refine (Frame.bind (accessByOwner_frame (calm_sys quiet_of_calm) _ _ _) fun _ => ?_).on
  refine .bind (.ite (fun h => absurd (join_eq_ok.1 h).2 ht.rofs) fun _ => .pure _) fun _ => ?_
  exact .bind .get fun _ => .bind (getPostStat_frame _ _) fun _ =>
    .bind (debug_frame _) fun _ => .pure _

theorem mkdirBody_quiet (path : CStr) (args : Diropargs3) (attributes : Sattr3) (rq : SvcReq)
    (unset : Junk) :
    FrameOn (Closed e) (Foot w Quiet) (mkdirBody w path args attributes rq unset) := by
  refine .get fun t ht =>
    (Frame.bind (rewriteObj_frame (calm_path quiet_of_calm) (fun _ _ => rfl) _ _ _) fun _ => ?_).on
  refine .bind (debug_frame _) fun _ => .bind (.ite (fun h => ?_) fun _ => .pure _) fun _ => ?_
  · exact absurd (join3_eq_ok.1 h).2.2 ht.rofs
  · exact .bind (getPostLl_frame _ _ _ _) fun _ => .bind (debug_frame _) fun _ => .pure _

theorem renameBody_quiet (fromPath : CStr) (argsFrom argsTo : Diropargs3) (rq : SvcReq)
    (unset : Junk) :
    FrameOn (Closed e) (Foot w Quiet) (renameBody w fromPath argsFrom argsTo rq unset) := by
  refine .get fun t ht => (Frame.bind (fhDecomp_foot _) fun _ => ?_).on
  refine .bind (.ite (fun h => absurd (join_eq_ok.1 h).2 ht.rofs) fun _ => .pure _) fun _ => ?_
  exact renameEnd_frame _ _ _ _ _ _

/-! ## Unguarded requests -/

theorem createStatus_ne_ok {s : Server L R} (h : Closed e s) (cat : Nfsstat3) (how : Createhow3) :
    createStatus w s cat how ≠ .ok := by
  intro hok
  cases how <;> simp only [createStatus, join_eq_ok] at hok
  · exact h.rofs hok.1.2
  · exact h.rofs hok.1.2
  · exact h.rofs hok.2

/-- Without a name or a zone the daemon stops before the iRODS call. -/
theorem openRods_stopsOn {uid : UInt32} (hn : ¬ (Known w uid ∧ w.conf.zone.isSome)) (p : CStr) :
    Stops (Closed e) (openRods w p uid) := fun _ hs => openRods_stops hs.path hn p

theorem createBody_quiet {rq : SvcReq} (hn : ¬ (Known w rq.uid ∧ w.conf.zone.isSome)) (path : CStr)
    (args : Diropargs3) (how : Createhow3) (unset : Junk) :
    FrameOn (Closed e) (Foot w Quiet) (createBody w path args how rq unset) := by
  refine .get fun t ht => ?_
  refine .bind Closed.foot
    (rewriteObj_frame (calm_path quiet_of_calm) (fun _ _ => rfl) _ _ _).on fun obj => ?_
  have hopen := openRods_stopsOn (e := e) hn obj
  unfold createAct createOpen
  rw [if_neg (createStatus_ne_ok ht _ _)]
  exact (FrameOn.bind_stops (openRods_frame quiet_of_calm _ _).on hopen).bind_stops hopen.bind

theorem unlinkBody_quiet {rq : SvcReq} (hn : ¬ (Known w rq.uid ∧ w.conf.zone.isSome)) (u : Unlink)
    (path name : CStr) (unset : Junk) :
    FrameOn (Closed e) (Foot w Quiet) (unlinkBody w u path name rq unset) := by
  refine .get fun t ht => ?_
  refine .bind Closed.foot
    (rewriteObj_frame (calm_path quiet_of_calm) (fun _ _ => rfl) _ _ _).on fun obj => ?_
  have hopen := openRods_stopsOn (e := e) hn obj
  refine .bind Closed.foot (debug_frame _).on fun _ => ?_
  unfold unlinkLocal
  rw [if_neg fun h => ht.rofs (join_eq_ok.1 h).2]
  exact (FrameOn.bind_stops (openRods_frame quiet_of_calm _ _).on hopen).bind_stops hopen.bind

/-- The event changes tree or store. -/
def Loud (ev : Event) : Prop := ev.mutates = true

/-- Any event. -/
def AnyEvent (_ : Event) : Prop := True

theorem any_calm (ev : Event) (_ : ev.calm = true) : AnyEvent ev := trivial
theorem any_sys (c : SysCall) : AnyEvent (.sys c) := trivial
theorem any_rods (c : RodsCall) : AnyEvent (.rods c) := trivial

/-- The remote step of a known caller issues its call. -/
theorem remoteStep_loud {s : Server L R} {rq : SvcReq} (h : s.exports.path = some e)
    (hk : Known w rq.uid) (hz : w.conf.zone.isSome) {call : CStr → Comm → RodsCall}
    (hc : ∀ name comm, (call name comm).mutates = true) (obj : CStr) :
    Issues Loud (remoteStep w call obj rq) s := by
  obtain ⟨s1, h1, _⟩ := openRods_ends h hk hz obj
  have g1 : Grows s s1 := (openRods_frame any_calm obj rq.uid).ok h1
  have hissue : ∀ c, Frame Grows (issue w c) := fun c =>
    .bind (rods_frame (any_rods c)) fun _ => .pure _
  have hend : ∀ comm,
    Frame Grows (debug w "Creating or deleting %s" >>= fun _ => rcDisconnect w comm) :=
    fun comm => .bind (debug_frame _) fun _ => rcDisconnect_frame any_calm comm
  refine .snd h1 g1 (.bind (hissue _) fun _ => hend _) ?_
  refine .fst ?_ (hissue _) fun _ => hend _
  exact .fst (rods_issues (hc _ _) s1) (rods_frame (any_rods _)) fun _ => .pure _

/-- Rewriting a buffer and then a step that is loud under the same exports. -/
theorem rewriteObj_loud {s : Server L R} (h : s.exports.path = some e) {α : Type} {filled : Bool}
    {obj : CStr} {uid : UInt32} {act : CStr → M L R α}
    (hg : ∀ obj, Frame (Foot w AnyEvent) (act obj))
    (ha : ∀ obj s', s'.exports = s.exports → Issues Loud (act obj) s') :
    Issues Loud (rewriteObj w filled obj uid >>= act) s := by
  obtain ⟨s1, h1, t1⟩ := rewriteObj_ends h filled obj uid
  have g1 : Grows s s1 :=
    (rewriteObj_frame (calm_path any_calm) (fun _ _ => trivial) filled obj uid).ok h1
  exact .snd h1 g1 (Foot.frame_grows (hg _)) (ha _ _ t1.exports)

theorem createBody_loud {s : Server L R} {rq : SvcReq} (h : Closed e s) (hk : Known w rq.uid)
    (hz : w.conf.zone.isSome) (path : CStr) (args : Diropargs3) (how : Createhow3) (unset : Junk) :
    Issues Loud (createBody w path args how rq unset) s := by
  refine rewriteObj_loud h.path (fun obj => createAct_foot any_calm any_sys any_rods _ _ _ _ _ _ _)
    fun obj s' hs' => ?_
  unfold createAct createOpen
  rw [if_neg (createStatus_ne_ok h _ _)]
  refine .pure_bind
    (Issues.fst (remoteStep_loud (by rw [hs', h.path]) hk hz (fun _ _ => rfl) obj) ?_ fun _ => ?_)
  · exact remoteStep_frame any_calm any_rods _ _ _
  · refine Foot.frame_grows
      (.bind
        (createFinish_foot (w := w) (fun c _ => any_sys c) (fun _ _ _ => any_sys _) _ _ _ _ _ _)
          fun _ => ?_)
    exact .bind .get fun _ => .bind (getPostStat_frame _ _) fun _ =>
      .bind (debug_frame _) fun _ => .pure _

theorem unlinkBody_loud {s : Server L R} {rq : SvcReq} (h : Closed e s) (hk : Known w rq.uid)
    (hz : w.conf.zone.isSome) (u : Unlink) (hu : ∀ name comm, (u.remote name comm).mutates = true)
    (path name : CStr) (unset : Junk) : Issues Loud (unlinkBody w u path name rq unset) s := by
  refine rewriteObj_loud h.path (fun obj => unlinkAct_frame any_calm any_sys any_rods _ _ _ _ _)
    fun obj s' hs' => ?_
  obtain ⟨s1, h1, t1⟩ := debug_tacit (w := w) "RMDIR - Removing local directory %s\n" s'
  have g1 : Grows s' s1 := (debug_frame _).ok h1
  have hrest : ∀ st, Frame (Foot w AnyEvent) (remoteStep w u.remote obj rq >>= fun _ => Prog.get >>=
      fun s => getPostStat w (some path) rq >>= fun after => debug w "REMOVE END" >>= fun _ =>
        pure { status := st, dirWcc := { before := getPreCached s, after } : Remove3res }) :=
    fun _ => .bind (remoteStep_frame any_calm any_rods _ _ _) fun _ => .bind .get fun _ =>
      .bind (getPostStat_frame _ _) fun _ => .bind (debug_frame _) fun _ => .pure _
  unfold unlinkAct unlinkLocal
  rw [if_neg fun h' => h.rofs (join_eq_ok.1 h').2]
  refine .snd h1 g1 (Foot.frame_grows (hrest _)) ?_
  refine .pure_bind
    (Issues.fst (remoteStep_loud (by rw [t1.exports, hs', h.path]) hk hz hu obj) ?_ fun _ => ?_)
  · exact remoteStep_frame any_calm any_rods _ _ _
  · exact .bind .get fun _ => .bind (getPostStat_frame _ _) fun _ =>
      .bind (debug_frame _) fun _ => .pure _

/-! ## Visits and runs -/

/-- The visit modifies, and the export that `exports_options` selects for it in `PREP` does not
carry `OPT_RW`. -/
def Visit.ReadOnly (w : World L R) (v : Visit L R) : Prop :=
  ∃ fh, v.call.target = some fh ∧
    ∀ path s, prep w fh v.rq (enter v.rq v.state) = (.ok (.ok path), s) →
      (exportsOptions v.state.exportList v.rq.remote (some path) v.state.exports).vars.opts.any
        (·.rw) = false

/-- The visit issues no call that creates, writes, unlinks, renames or changes access, and leaves
tree and store as they were. -/
structure Visit.Untouched (w : World L R) (v : Visit L R) : Prop where
  calls : ∀ ev ∈ v.events w, ev.mutates = false
  tree : w.tree (v.serve w).2.kernel = w.tree v.state.kernel
  store : w.store (v.serve w).2.rods = w.store v.state.rods

/-- The visit is a CREATE, REMOVE or RMDIR that `PREP` lets in, by a caller with a user name (any
caller, without private collections), and a zone is configured. -/
def Visit.Leaks (w : World L R) (v : Visit L R) : Prop :=
  (∃ op : PathOp, v.call = op.request ∧ op.unguarded = true ∧
    ∃ path s, prep w op.args.dir v.rq (enter v.rq v.state) = (.ok (.ok path), s)) ∧
  Known w v.rq.uid ∧ w.conf.zone.isSome

theorem PathOp.body_quiet {rq : SvcReq} {op : PathOp}
    (h : op.unguarded = true → ¬ (Known w rq.uid ∧ w.conf.zone.isSome)) (unset : Junk)
    (path : CStr) : FrameOn (Closed e) (Foot w Quiet) (op.body w rq unset path) := by
  have reply : ∀ {α : Type} (f : α → NfsReply) {m : M L R α},
      FrameOn (Closed e) (Foot w Quiet) m → FrameOn (Closed e) (Foot w Quiet) (replyWith f m) :=
    fun _ _ hm => .bind Closed.foot hm fun _ => Frame.on (.pure _)
  cases op with
  | create args how => exact reply _ (createBody_quiet (h rfl) _ _ _ _)
  | mkdir args attributes => exact reply _ (mkdirBody_quiet _ _ _ _ _)
  | remove object => exact reply _ (unlinkBody_quiet (h rfl) _ _ _ _)
  | rmdir object => exact reply _ (unlinkBody_quiet (h rfl) _ _ _ _)
  | rename argsFrom argsTo => exact reply _ (renameBody_quiet _ _ _ _ _)

theorem PathOp.body_leaks {s : Server L R} {rq : SvcReq} (h : Closed e s) {op : PathOp}
    (hop : op.unguarded = true) (hk : Known w rq.uid) (hz : w.conf.zone.isSome) (unset : Junk)
    (path : CStr) : ∃ ev ∈ since s (op.body w rq unset path s).2, Loud ev := by
  cases op with
  | create args how =>
    rw [body, replyWith_snd]
    exact createBody_loud h hk hz _ _ _ _
  | remove object =>
    rw [body, replyWith_snd]
    exact unlinkBody_loud h hk hz _ (fun _ _ => rfl) _ _ _
  | rmdir object =>
    rw [body, replyWith_snd]
    exact unlinkBody_loud h hk hz _ (fun _ _ => rfl) _ _ _
  | mkdir args attributes => cases hop
  | rename argsFrom argsTo => cases hop

/-- What `PREP` leaves of a read-only visit. -/
theorem Visit.ReadOnly.closed {v : Visit L R} {fh : NfsFh3} {path : CStr} {s : Server L R}
    (h : v.ReadOnly w) (hfh : v.call.target = some fh)
    (hp : prep w fh v.rq (enter v.rq v.state) = (.ok (.ok path), s)) : ∃ e, Closed e s := by
  obtain ⟨fh', hfh', hro⟩ := h
  obtain rfl : fh = fh' := by simpa [hfh] using hfh'
  obtain ⟨e, he⟩ := prep_path hp
  refine ⟨e, ?_, he⟩
  rw [(prep_ok hp).1, exportsRw, if_neg]
  · simp
  · simpa [enter] using hro path s hp

/-- A quiet run leaves everything as it was. -/
theorem Visit.untouched_of_ran {v : Visit L R}
    (h : Ran w Quiet (enter v.rq v.state) (v.serve w).2) :
    v.Untouched w where
  calls := h.since
  tree := h.tree fun _ hc => hc
  store := h.store fun _ hc => hc

/-- A request whose body is quiet on read-only exports is quiet. -/
theorem Visit.untouched_of_body {v : Visit L R} {fh : NfsFh3} {α : Type} {f : α → NfsReply}
    {refuse : Nfsstat3 → α} {body : CStr → M L R α} (hro : v.ReadOnly w)
    (hfh : v.call.target = some fh)
    (hv : v.serve w = replyWith f (withPrep w fh v.rq (fun st => pure (refuse st)) body)
      (enter v.rq v.state))
    (hb : ∀ e path, FrameOn (Closed e) (Foot w Quiet) (body path)) : v.Untouched w := by
  refine Visit.untouched_of_ran ?_
  have hprep : Ran w Quiet (enter v.rq v.state) (prep w fh v.rq (enter v.rq v.state)).2 :=
    prep_ran (fun _ hc => SysCall.setsId_calm hc) fh v.rq _
  rcases replyWith_withPrep (w := w) f fh v.rq refuse body (enter v.rq v.state) with
    ⟨path, s1, hp, h⟩ | ⟨st, s1, hp, h⟩ | ⟨st, s1, hp, h⟩
  · obtain ⟨e, he⟩ := hro.closed hfh hp
    rw [hp] at hprep
    rw [hv, h, replyWith_snd]
    exact trans_of (Ran w Quiet) hprep ((hb e path s1 he).ran.mono fun _ h => h.1)
  · rw [hp] at hprep
    rwa [hv, h]
  · rw [hp] at hprep
    rwa [hv, h]

@[simp] theorem PathOp.request_target (op : PathOp) : op.request.target = some op.args.dir := by
  cases op <;> rfl

/-- An unguarded operation that gets as far as its iRODS call does issue it. -/
theorem Visit.Leaks.touches {v : Visit L R} (hro : v.ReadOnly w) (hl : v.Leaks w) :
    ¬ v.Untouched w := by
  obtain ⟨⟨op, hc, hop, path, s1, hp⟩, hk, hz⟩ := hl
  obtain ⟨e, he⟩ := hro.closed (by rw [hc, op.request_target]) hp
  have hprep : Grows (enter v.rq v.state) s1 := by
    have h :=
      prep_ran (w := w) (E := Quiet) (fun _ hc => SysCall.setsId_calm hc) op.args.dir v.rq
        (enter v.rq v.state)
    rw [hp] at h
    exact h.grows
  have hserve : v.serve w = op.body w v.rq (w.junk v.state.tick) path s1 := by
    unfold Visit.serve serveNfs
    rw [hc]
    rcases op.run_cases (w := w) v.rq (enter v.rq v.state) with
      ⟨path', s1', hp', h⟩ | ⟨st, s1', hp', h⟩ | ⟨st, s1', hp', h⟩
    all_goals rw [hp] at hp'; cases hp'
    exact h
  obtain ⟨ev, hev, hloud⟩ := op.body_leaks he hop hk hz (w.junk v.state.tick) path
  intro hu
  have hmem : ev ∈ v.events w := by
    change ev ∈ since (enter v.rq v.state) (v.serve w).2
    rw [hserve, hprep.since (op.body_ran _ _ _ s1).grows]
    exact List.mem_append_right _ hev
  exact absurd hloud (by simp [Loud, hu.calls ev hmem])

/-- Any other operation on a path is quiet. -/
theorem PathOp.untouched {v : Visit L R} (op : PathOp) (hc : v.call = op.request)
    (hro : v.ReadOnly w) (hn : ¬ v.Leaks w) : v.Untouched w := by
  refine Visit.untouched_of_ran ?_
  have hprep : Ran w Quiet (enter v.rq v.state) (prep w op.args.dir v.rq (enter v.rq v.state)).2 :=
    prep_ran (fun _ hc => SysCall.setsId_calm hc) op.args.dir v.rq _
  have hserve : v.serve w = nfsProgram w v.rq op.request (enter v.rq v.state) := by
    rw [Visit.serve, serveNfs, hc]
  rw [hserve]
  rcases op.run_cases (w := w) v.rq (enter v.rq v.state) with
    ⟨path, s1, hp, h⟩ | ⟨st, s1, hp, h⟩ | ⟨st, s1, hp, h⟩
  · obtain ⟨e, he⟩ := hro.closed (by rw [hc, op.request_target]) hp
    have hq : op.unguarded = true → ¬ (Known w v.rq.uid ∧ w.conf.zone.isSome) :=
      fun hop hkz => hn ⟨⟨op, hc, hop, path, s1, hp⟩, hkz⟩
    rw [hp] at hprep
    rw [h]
    exact trans_of (Ran w Quiet) hprep
      ((op.body_quiet (e := e) hq _ path s1 he).ran.mono fun _ h => h.1)
  · rw [hp] at hprep
    rwa [h]
  · rw [hp] at hprep
    rwa [h]

/-- One visit to a read-only export. -/
theorem Visit.untouched_iff {v : Visit L R} (hro : v.ReadOnly w) : v.Untouched w ↔ ¬ v.Leaks w := by
  refine ⟨fun hu hl => hl.touches hro hu, fun hn => ?_⟩
  cases hc : v.call with
  | setattr object new =>
    exact Visit.untouched_of_body hro (by rw [hc]; rfl) (by rw [Visit.serve, serveNfs, hc]; rfl)
      fun e path => setattrBody_quiet path object new v.rq
  | write args =>
    exact Visit.untouched_of_body hro (by rw [hc]; rfl) (by rw [Visit.serve, serveNfs, hc]; rfl)
      fun e path => writeBody_quiet path args v.rq
  | create args how => exact PathOp.untouched (.create args how) hc hro hn
  | mkdir args attributes => exact PathOp.untouched (.mkdir args attributes) hc hro hn
  | remove object => exact PathOp.untouched (.remove object) hc hro hn
  | rmdir object => exact PathOp.untouched (.rmdir object) hc hro hn
  | rename argsFrom argsTo => exact PathOp.untouched (.rename argsFrom argsTo) hc hro hn
  | _ =>
    obtain ⟨fh, hfh, _⟩ := hro
    simp [hc, NfsRequest.target] at hfh

/-- **Requests on a read-only export leave tree and store alone** in a run of the daemon exactly
when none of them leaks. -/
theorem readonly_untouched_iff (r : Run w) :
    (∀ v ∈ r.log, v.ReadOnly w → v.Untouched w) ↔ ∀ v ∈ r.log, v.ReadOnly w → ¬ v.Leaks w :=
  forall₃_congr fun _ _ hro => Visit.untouched_iff hro

end

/-! ## A read-only export in the small world -/

/-- REMOVE of `/e/f` on a read-only export of `/e`, where iRODS holds the object `f`. -/
def removeVisit : Visit Sandbox.Kernel Sandbox.Grid where
  rq := { remote := 1, uid := 7, gid := 7 }
  call := .remove { dir := Sandbox.handle (Sandbox.item (lit "/e") false), name := lit "f" }
  state := Sandbox.server [Sandbox.item (lit "/e") false] {}
    { objs := [(lit "/z/home/public/f", .data [1])] }

/-- The daemon serves it first. -/
def removeRun : Run Sandbox.publicWorld where
  log := [] ++ [removeVisit]
  last := some (removeVisit.serve Sandbox.publicWorld).2
  runs := .replied (.start ⟨_, _, _, _, _, _, rfl⟩) rfl

/-- The reply is `NFS3ERR_ROFS`, but the object is gone. -/
theorem remove_touches_readonly :
    ∃ v ∈ removeRun.log, v.ReadOnly Sandbox.publicWorld ∧ ¬ v.Untouched Sandbox.publicWorld := by
  refine ⟨removeVisit, by simp [removeRun], ⟨_, rfl, fun path s h => ?_⟩, fun hu => ?_⟩
  · have hp :
      (prep Sandbox.publicWorld (Sandbox.handle (Sandbox.item (lit "/e") false)) removeVisit.rq
        (enter removeVisit.rq removeVisit.state)).1 = .ok (.ok (lit "/e")) := by rfl
    rw [h] at hp
    cases hp
    decide
  · have hs := congrFun hu.store (lit "/z/home/public/f")
    revert hs
    decide

end NfsRods
