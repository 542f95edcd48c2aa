import Mathlib.Data.List.Basic
import NfsRods.Proof.Refusal

/-!
# Where a WRITE writes

WRITE writes the data to the mirror's file, then opens the iRODS object, moves to the offset and
writes the data there. `pwrite` gets the offset as it is, `iWrite` as an `int`.

* `writeBody_ok`: what a WRITE that gets `NFS3_OK` went through.
* `iWrite_talk`: what `iWrite` says to iRODS.
* `write_offsets_iff`: the bytes a successful WRITE counts are at its offset on both sides exactly
  when the offset is below 2^31 and iRODS takes no fewer of them.
-/

namespace NfsRods

open CStr
open Prog (Ends Frame)

section
variable {L R : Type} (w : World L R)

/-- The offset `iWrite` is given: the low 32 bits as an `int`. -/
def intOffset (offset : Nat) : Int := toCInt (UInt32.ofNat offset)

/-! ## The answers `iWrite` gets from iRODS state `r` -/

def openCallOf (comm : Comm) (name : CStr) : RodsCall :=
  .rcDataObjOpenAndStat comm name .rdwr (defResource w)

def openReply (comm : Comm) (name : CStr) (r : R) : RodsReply :=
    (w.rods (openCallOf w comm name) r).1

def seekCall (comm : Comm) (name : CStr) (offset : Int) (r : R) : RodsCall :=
  .rcDataObjLseek comm (openReply w comm name r).status offset

def seekAt (comm : Comm) (name : CStr) (offset : Int) (r : R) : RodsReply × R :=
  w.rods (seekCall w comm name offset r) (w.rods (openCallOf w comm name) r).2

def writeCall (comm : Comm) (name : CStr) (data : List UInt8) (r : R) : RodsCall :=
  .rcDataObjWrite comm (openReply w comm name r).status data

def writeAt (comm : Comm) (name : CStr) (data : List UInt8) (offset : Int) (r : R) :
    RodsReply × R :=
  w.rods (writeCall w comm name data r) (seekAt w comm name offset r).2

/-- The close at the end. -/
def closeCall (comm : Comm) (name : CStr) (r : R) : RodsCall :=
  .rcDataObjClose comm (openReply w comm name r).status

/-- What `iWrite` says and hears. -/
def iWriteTalk (comm : Comm) (name : CStr) (data : List UInt8) (offset : Int) (r : R) :
    List (RodsCall × RodsReply) :=
  (openCallOf w comm name, openReply w comm name r) ::
  (seekCall w comm name offset r, (seekAt w comm name offset r).1) ::
  if (seekAt w comm name offset r).1.status < 0 then []
  else (writeCall w comm name data r, (writeAt w comm name data offset r).1) ::
    if (writeAt w comm name data offset r).1.status < 0 then []
    else [(closeCall w comm name r,
      (w.rods (closeCall w comm name r) (writeAt w comm name data offset r).2).1)]

end

section
variable {L R : Type} {w : World L R} {s : Server L R} {e : CStr}

theorem iWrite_foot {E : Event → Prop} (hr : ∀ c, E (.rods c)) (name : CStr) (data : List UInt8)
    (offset : Int) (comm : Comm) : Frame (Foot w E) (iWrite w name data offset comm) := by
  refine .bind (rods_frame (hr _)) fun _ => .bind (rods_frame (hr _)) fun _ => ?_
  refine .ite (fun _ => .pure _) fun _ => .bind (rods_frame (hr _)) fun _ => ?_
  exact .ite (fun _ => .pure _) fun _ => .bind (rods_frame (hr _)) fun _ => .pure _

/-- `iWrite` always returns. -/
theorem iWrite_returns (name : CStr) (data : List UInt8) (offset : Int) (comm : Comm) :
    Prog.Returns (iWrite w name data offset comm) := by
  refine .bind (rods_returns _) fun _ => .bind (rods_returns _) fun _ => ?_
  refine .ite (.pure _) (.bind (rods_returns _) fun _ => ?_)
  exact .ite (.pure _) (.bind (rods_returns _) fun _ => .pure _)

theorem talk_pure {α : Type} (a : α) (s : Server L R) : talk w (pure a : M L R α) s = [] := by
  simp [talk, since, replies]

/-- A call says what it says, and the rest goes on with its answer. -/
theorem talk_rods_bind {α : Type} (c : RodsCall) {f : RodsReply → M L R α}
    (hf : ∀ a, Frame Grows (f a)) (s : Server L R) :
    ∃ s', s'.rods = (w.rods c s.rods).2 ∧ talk w (rods w c >>= f) s =
      (c, (w.rods c s.rods).1) :: talk w (f (w.rods c s.rods).1) s' := by
  obtain ⟨s', h, hr⟩ : ∃ s', rods w c s = (.ok (w.rods c s.rods).1, s') ∧
      s'.rods = (w.rods c s.rods).2 := ⟨_, rfl, rfl⟩
  refine ⟨s', hr, ?_⟩
  have hran : Ran w (fun _ => True) s s' :=
    (rods_frame (r := Ran w fun _ => True) (E := fun _ => True) trivial).ok h
  rw [talk_bind_ok h hran (hf _ s'), talk_rods]
  rfl

theorem iWrite_talk (name : CStr) (data : List UInt8) (offset : Int) (comm : Comm)
    (s : Server L R) :
    talk w (iWrite w name data offset comm) s = iWriteTalk w comm name data offset s.rods := by
  have hrods : ∀ c, Frame Grows (rods w c) := fun c => rods_frame (E := fun _ => True) trivial
  have hclose : ∀ (o r : RodsReply), Frame Grows (if r.status < 0 then (pure (-1) : M L R Int)
      else rods w (.rcDataObjClose comm o.status) >>= fun c => pure c.status) :=
    fun _ _ => .ite (fun _ => .pure _) fun _ => .bind (hrods _) fun _ => .pure _
  have hwrite : ∀ (o seek : RodsReply), Frame Grows (if seek.status < 0 then (pure (-1) : M L R Int)
      else rods w (.rcDataObjWrite comm o.status data) >>= fun r =>
        if r.status < 0 then pure (-1)
        else rods w (.rcDataObjClose comm o.status) >>= fun c => pure c.status) :=
    fun o _ => .ite (fun _ => .pure _) fun _ => .bind (hrods _) (hclose o)
  obtain ⟨s1, r1, ht1⟩ := talk_rods_bind (w := w) (openCallOf w comm name)
    (f := fun o => rods w (.rcDataObjLseek comm o.status offset) >>= fun seek =>
      if seek.status < 0 then pure (-1)
      else rods w (.rcDataObjWrite comm o.status data) >>= fun r =>
        if r.status < 0 then pure (-1)
        else rods w (.rcDataObjClose comm o.status) >>= fun c => pure c.status)
    (fun o => .bind (hrods _) (hwrite o)) s
  obtain ⟨s2, r2, ht2⟩ := talk_rods_bind (w := w) (seekCall w comm name offset s.rods)
    (hwrite (openReply w comm name s.rods)) s1
  rw [r1] at r2 ht2
  rw [iWrite]
  refine ht1.trans (congrArg (List.cons _) (ht2.trans (congrArg (List.cons _) ?_)))
  by_cases hs : (seekAt w comm name offset s.rods).1.status < 0
  · rw [if_pos hs]
    exact (congrArg (talk w · s2) (if_pos hs)).trans (talk_pure _ s2)
  · rw [if_neg hs]
    obtain ⟨s3, r3, ht3⟩ := talk_rods_bind (w := w) (writeCall w comm name data s.rods)
      (hclose (openReply w comm name s.rods)) s2
    rw [r2] at r3 ht3
    refine (congrArg (talk w · s2) (if_neg hs)).trans (ht3.trans (congrArg (List.cons _) ?_))
    by_cases hw : (writeAt w comm name data offset s.rods).1.status < 0
    · rw [if_pos hw]
      exact (congrArg (talk w · s3) (if_pos hw)).trans (talk_pure _ s3)
    · rw [if_neg hw]
      obtain ⟨s4, r4, ht4⟩ := talk_rods_bind (w := w) (closeCall w comm name s.rods)
        (f := fun c => (pure c.status : M L R Int)) (fun _ => .pure _) s3
      rw [r3, talk_pure] at ht4
      exact (congrArg (talk w · s3) (if_neg hw)).trans ht4

/-- The steps of a WRITE that gets `NFS3_OK`: it comes to its `pwrite` (in `s1`) and to `iWrite` (in
`s3`) without a call that changes anything, and makes none after it. -/
structure WriteSteps (w : World L R) (e path : CStr) (args : Write3args) (rq : SvcReq)
    (s : Server L R) (res : Write3res) (s' s1 s2 s3 s4 : Server L R) (fd : Int) : Prop where
  before : Ran w (·.calm = true) s s1
  rods_before : s1.rods = s.rods
  pwrite : sys w (.pwrite fd args.data args.offset) s1 = (.ok res.count, s2)
  count : res.count ≠ -1
  between : Ran w (·.calm = true) s2 s3
  session : s3.rods = (session w e rq.uid s.rods).2
  remote : ∃ v, iWrite w (targetName w e rq.uid (realPath w e rq.uid path)) args.data
    (intOffset args.offset) (NfsRods.session w e rq.uid s.rods).1 s3 = (.ok v, s4)
  after : Ran w (·.calm = true) s4 s'

/-- WRITE with a file open. -/
theorem writeFd_ok {path : CStr} {args : Write3args} {rq : SvcReq} {fd res resClose : Int}
    {s' : Server L R} (h : s.exports.path = some e)
    (hrun : writeFd w path args rq fd s = (.ok (res, resClose), s')) :
    Connects w rq ∧ ∃ s2 s3 s4 v, sys w (.pwrite fd args.data args.offset) s = (.ok res, s2) ∧
      Ran w (·.calm = true) s2 s3 ∧ s3.rods = (session w e rq.uid s.rods).2 ∧
      iWrite w (targetName w e rq.uid path) args.data (intOffset args.offset)
        (session w e rq.uid s.rods).1 s3 = (.ok v, s4) ∧ Ran w (·.calm = true) s4 s' := by
  obtain ⟨s2, h2, k2, _⟩ := sys_ends (w := w) (.pwrite fd args.data args.offset) s
  have e2 : s2.exports.path = some e := by rw [k2.exports, h]
  have hc : Connects w rq := by
    by_contra hn
    obtain ⟨st, hst⟩ := openRods_stops (w := w) e2 hn path
    have herr := Prog.fst_bind_error (f := fun x => iWrite w x.2 args.data
      (toCInt (UInt32.ofNat args.offset)) x.1 >>= fun _ =>
      debug w "WRITE - Writing under the file: %s\n" >>= fun _ =>
      debug w "WRITE - Content: %s\n" >>= fun _ => rcDisconnect w x.1 >>= fun _ =>
      fdClose w fd .write (args.stable ≠ .unstable) >>= fun resClose =>
      pure (sysResult w (.pwrite fd args.data args.offset) s.kernel, resClose)) hst
    rw [writeFd, Prog.bind_ok h2] at hrun
    exact absurd (herr.symm.trans (congrArg Prod.fst hrun)) (by simp)
  obtain ⟨s3, h3, a3⟩ := openRods_ends (w := w) e2 hc.1 hc.2 path
  rw [k2.rods] at h3 a3
  obtain ⟨v, s4, h4⟩ := iWrite_returns (w := w) (targetName w e rq.uid path) args.data
    (intOffset args.offset) (session w e rq.uid s.rods).1 s3
  rw [writeFd, Prog.bind_ok h2, Prog.bind_ok h3] at hrun
  dsimp only at hrun
  rw [← intOffset, Prog.bind_ok h4] at hrun
  have hrest : Frame (Ran w (·.calm = true))
    (debug w "WRITE - Writing under the file: %s\n" >>= fun _ =>
      debug w "WRITE - Content: %s\n" >>= fun _ =>
      rcDisconnect w (session w e rq.uid s.rods).1 >>= fun _ =>
      fdClose w fd .write (args.stable ≠ .unstable) >>= fun resClose =>
      (pure (sysResult w (.pwrite fd args.data args.offset) s.kernel, resClose) : M L R
        (Int × Int))) :=
    Foot.frame_ran (.bind (debug_frame _) fun _ => .bind (debug_frame _) fun _ =>
      .bind (rcDisconnect_frame (fun _ h => h) _) fun _ =>
      .bind (fdClose_frame (calm_sys fun _ h => h) _ _ _) fun _ => .pure _)
  refine ⟨hc, s2, s3, s4, v, ?_, (Foot.frame_ran (openRods_frame (fun _ h => h) _ _)).ok h3,
    a3.2, h4, hrest.ok hrun⟩
  have hres : sysResult w (.pwrite fd args.data args.offset) s.kernel = res := by
    obtain ⟨_, s5, _, hrun⟩ := Prog.bind_eq_ok hrun
    obtain ⟨_, s6, _, hrun⟩ := Prog.bind_eq_ok hrun
    obtain ⟨_, s7, _, hrun⟩ := Prog.bind_eq_ok hrun
    obtain ⟨_, s8, _, hrun⟩ := Prog.bind_eq_ok hrun
    simp only [Prog.pure_run, Prod.mk.injEq, Except.ok.injEq] at hrun
    exact hrun.1.1
  rw [h2, hres]

theorem writeBody_ok {path : CStr} {args : Write3args} {rq : SvcReq} {res : Write3res}
    {s' : Server L R} (h : s.exports.path = some e)
    (hrun : writeBody w path args rq s = (.ok res, s')) (hok : res.status = .ok) :
    Connects w rq ∧ ∃ fd s1 s2 s3 s4, WriteSteps w e path args rq s res s' s1 s2 s3 s4 fd := by
  have hcalm : ∀ ev : Event, ev.calm = true → ev.calm = true := fun _ h => h
  obtain ⟨t1, h1, a1⟩ := getRealPathNFS_ends (w := w) h path rq.uid
  obtain ⟨t2, h2, a2⟩ := debug_tacit (w := w) "ACCESS PATH %s" t1
  rw [writeBody, Prog.bind_ok h1, Prog.bind_ok h2, Prog.get_bind_run] at hrun
  obtain ⟨_, t3, h3, hrun⟩ := Prog.bind_eq_ok hrun
  obtain ⟨result, t4, h4, hrun⟩ := Prog.bind_eq_ok hrun
  rw [Prog.get_bind_run] at hrun
  have hend : Ran w (·.calm = true) t4 s' :=
    (.bind (getPostStat_frame _ _) fun _ => .bind (debug_frame _) fun _ => .pure _ :
      Frame (Ran w (·.calm = true)) _).ok hrun
  obtain ⟨after, t5, _, hrun⟩ := Prog.bind_eq_ok hrun
  obtain ⟨_, t6, _, hrun⟩ := Prog.bind_eq_ok hrun
  simp only [Prog.pure_run, Prod.mk.injEq, Except.ok.injEq] at hrun
  obtain ⟨rfl, -⟩ := hrun
  have hlocal : ∀ c : SysCall, c.mutates = false →
      (Event.sys c).calm = true ∧ NoRods (.sys c) :=
    fun c hc => ⟨by simp [Event.calm, Event.mutates, hc], noRods_sys c⟩
  have f3 : Foot w (fun ev => ev.calm = true ∧ NoRods ev) t2 t3 :=
    (accessByOwner_frame (E := fun ev => ev.calm = true ∧ NoRods ev) hlocal _ _ _).ok h3
  have x3 : t3.exports.path = some e := by rw [f3.exports, a2.exports, a1.exports, h]
  have r3 : t3.rods = s.rods := by
    rw [f3.ran.rods_eq fun c hc => hc.1.2 c rfl, a2.rods, a1.rods]
  have ran3 : Ran w (·.calm = true) s t3 := trans_of (Ran w _)
    ((Foot.frame_ran (getRealPathNFS_frame (calm_path hcalm) _ _)).ok h1)
    (trans_of (Ran w _) ((Foot.frame_ran (debug_frame (w := w) _)).ok h2)
      (f3.ran.mono fun _ h => h.1.1))
  rw [Prog.ite_run] at h4
  split at h4
  · obtain ⟨fd, t5, h5, h4⟩ := Prog.bind_eq_ok h4
    have f5 : Foot w (fun ev => ev.calm = true ∧ NoRods ev) t3 t5 :=
      (fdOpen_frame (E := fun ev => ev.calm = true ∧ NoRods ev) hlocal _ _ _ _).ok h5
    have r5 : t5.rods = t3.rods := f5.ran.rods_eq fun c hc => hc.1.2 c rfl
    rw [Prog.ite_run] at h4
    split at h4
    · obtain ⟨⟨v, vClose⟩, t6, h6, h4⟩ := Prog.bind_eq_ok h4
      dsimp only at h4
      rw [Prog.get_bind_run, Prog.ite_run] at h4
      split at h4
      · rename_i hres
        obtain ⟨hc, s2, s3, s4, i, hp, hb, hs, hi, ha⟩ := writeFd_ok (by rw [f5.exports, x3]) h6
        simp only [Prog.pure_run, Prod.mk.injEq, Except.ok.injEq] at h4
        obtain ⟨rfl, rfl⟩ := h4
        rw [r5, r3] at hs hi
        exact ⟨hc, fd, t5, s2, s3, s4, trans_of (Ran w _) ran3 (f5.ran.mono fun _ h => h.1.1),
          by rw [r5, r3], hp, hres.1, hb, hs, ⟨i, hi⟩, trans_of (Ran w _) ha hend⟩
      · simp only [Prog.pure_run, Prod.mk.injEq, Except.ok.injEq] at h4
        obtain ⟨rfl, -⟩ := h4
        exact absurd hok (writeWriteErr_ne_ok _)
    · rw [Prog.get_bind_run] at h4
      simp only [Prog.pure_run, Prod.mk.injEq, Except.ok.injEq] at h4
      obtain ⟨rfl, -⟩ := h4
      exact absurd hok (writeOpenErr_ne_ok _)
  · rename_i hn
    simp only [Prog.pure_run, Prod.mk.injEq, Except.ok.injEq] at h4
    obtain ⟨rfl, -⟩ := h4
    exact absurd hok hn

/-- What a WRITE that gets `NFS3_OK` says to iRODS: nothing that changes anything, but for `iWrite`.
-/
theorem WriteSteps.replies {path : CStr} {args : Write3args} {rq : SvcReq} {res : Write3res}
    {s' s1 s2 s3 s4 : Server L R} {fd : Int}
    (h : WriteSteps w e path args rq s res s' s1 s2 s3 s4 fd) :
    ∃ T T', (∀ x ∈ T ++ T', x.1.mutates = false) ∧
      replies w (since s s') s.rods = T ++ iWriteTalk w (NfsRods.session w e rq.uid s.rods).1
        (targetName w e rq.uid (realPath w e rq.uid path)) args.data (intOffset args.offset)
        (NfsRods.session w e rq.uid s.rods).2 ++ T' := by
  have hpw : Ran w (fun _ => True) s1 s2 :=
    (sys_frame (r := Ran w fun _ => True) (E := fun _ => True) trivial).ok h.pwrite
  obtain ⟨v, hi⟩ := h.remote
  have hir : Ran w (fun _ => True) s3 s4 :=
    (Foot.frame_ran (iWrite_foot (fun _ => trivial) _ _ _ _)).ok hi
  have any : ∀ {a b : Server L R}, Ran w (·.calm = true) a b → Ran w (fun _ => True) a b :=
    fun h => h.mono fun _ _ => trivial
  have calm : ∀ {a b : Server L R}, Ran w (·.calm = true) a b →
      ∀ x ∈ NfsRods.replies w (since a b) a.rods, x.1.mutates = false := fun h x hx => by
    simpa [Event.calm, Event.mutates] using h.since _ (mem_replies hx)
  have hpwrite : NfsRods.replies w (since s1 s2) s1.rods = [] := by
    obtain ⟨s2', h2', _, ht⟩ := sys_trace (w := w) (.pwrite fd args.data args.offset) s1
    rw [h.pwrite] at h2'
    obtain ⟨-, rfl⟩ := Prod.mk.inj h2'
    rw [since_eq ht]
    rfl
  have htalk := iWrite_talk (w := w) (targetName w e rq.uid (realPath w e rq.uid path)) args.data
    (intOffset args.offset) (NfsRods.session w e rq.uid s.rods).1 s3
  rw [talk, hi, h.session] at htalk
  refine ⟨NfsRods.replies w (since s s1) s.rods ++ NfsRods.replies w (since s2 s3) s2.rods,
    NfsRods.replies w (since s4 s') s4.rods, fun x hx => ?_, ?_⟩
  · simp only [List.mem_append] at hx
    rcases hx with (hx | hx) | hx
    · exact calm h.before x hx
    · exact calm h.between x hx
    · exact calm h.after x hx
  · have g12 := trans_of (Ran w _) (any h.before) hpw
    have g13 := trans_of (Ran w _) g12 (any h.between)
    have g14 := trans_of (Ran w _) g13 hir
    rw [g14.grows.since (any h.after).grows, replies_append, ← g14.rods_replay,
      g13.grows.since hir.grows, replies_append, ← g13.rods_replay,
      g12.grows.since (any h.between).grows, replies_append, ← g12.rods_replay,
      (any h.before).grows.since hpw.grows, replies_append, ← (any h.before).rods_replay, hpwrite,
      List.append_nil, h.session, htalk]

/-- The local write with its result. -/
theorem WriteSteps.mirror {path : CStr} {args : Write3args} {rq : SvcReq} {res : Write3res}
    {s' s1 s2 s3 s4 : Server L R} {fd : Int}
    (h : WriteSteps w e path args rq s res s' s1 s2 s3 s4 fd) :
    (.pwrite fd args.data args.offset, .ok res.count) ∈ sysReplies w (since s s') s.kernel := by
  have hpw : Ran w (fun _ => True) s1 s2 :=
    (sys_frame (r := Ran w fun _ => True) (E := fun _ => True) trivial).ok h.pwrite
  obtain ⟨v, hi⟩ := h.remote
  have any : ∀ {a b : Server L R}, Ran w (·.calm = true) a b → Ran w (fun _ => True) a b :=
    fun h => h.mono fun _ _ => trivial
  have hir : Ran w (fun _ => True) s3 s4 :=
    (Foot.frame_ran (iWrite_foot (fun _ => trivial) _ _ _ _)).ok hi
  have hrest := trans_of (Ran w _) (any h.between) (trans_of (Ran w _) hir (any h.after))
  have hsys : sysReplies w (since s1 s2) s1.kernel =
      [(.pwrite fd args.data args.offset, .ok res.count)] := by
    obtain ⟨s2', h2', _, ht⟩ := sys_trace (w := w) (.pwrite fd args.data args.offset) s1
    have h2 := h.pwrite
    rw [h2] at h2'
    obtain ⟨-, rfl⟩ := Prod.mk.inj h2'
    rw [since_eq ht]
    unfold sys at h2
    rcases hk : w.sys (.pwrite fd args.data args.offset) s1.kernel with ⟨er | v, k⟩
    · rw [hk] at h2
      simp only [Prod.mk.injEq, Except.ok.injEq] at h2
      exact absurd h2.1.symm h.count
    · rw [hk] at h2
      simp only [Prod.mk.injEq, Except.ok.injEq] at h2
      simp [sysReplies, hk, h2.1]
  rw [(trans_of (Ran w _) (any h.before) hpw).grows.since hrest.grows, sysReplies_append,
    (any h.before).grows.since hpw.grows, sysReplies_append, ← (any h.before).sys_replay, hsys]
  simp

/-! ## Offsets -/

/-- Of a run from `s` to `s'`: the first `n` bytes of the data have been written at the offset, to
the mirror's file by `pwrite` and to the iRODS object by a write that follows a seek to the offset.
-/
structure WrittenAt (w : World L R) (args : Write3args) (n : Int) (s s' : Server L R) : Prop where
  mirror : ∃ fd, (.pwrite fd args.data args.offset, .ok n) ∈ sysReplies w (since s s') s.kernel
  object : ∃ comm name, ∃ o seek wr : RodsReply,
    [(openCallOf w comm name, o), (.rcDataObjLseek comm o.status args.offset, seek),
      (.rcDataObjWrite comm o.status args.data, wr)] <:+: replies w (since s s') s.rods ∧
    0 ≤ o.status ∧ 0 ≤ seek.status ∧ n ≤ wr.status

/-- The `int` is the offset as long as that is below 2^31. -/
theorem intOffset_eq_iff (offset : Nat) : intOffset offset = offset ↔ offset < 2 ^ 31 := by
  have hlt := (UInt32.ofNat offset).toNat_lt
  unfold intOffset toCInt
  constructor
  · intro h
    split at h <;> omega
  · intro h
    have ho : (UInt32.ofNat offset).toNat = offset := by
      rw [UInt32.toNat_ofNat']
      omega
    rw [ho, if_pos h]

/-- Once the object could be positioned the write follows, and after it at most the close. -/
theorem iWriteTalk_eq {comm : Comm} {name : CStr} (data : List UInt8) {offset : Int} {r : R}
    (hs : 0 ≤ (seekAt w comm name offset r).1.status) :
    ∃ rest, iWriteTalk w comm name data offset r =
      [(openCallOf w comm name, openReply w comm name r),
        (seekCall w comm name offset r, (seekAt w comm name offset r).1)] ++
      (writeCall w comm name data r, (writeAt w comm name data offset r).1) :: rest ∧
      ∀ x ∈ rest, x.1 = closeCall w comm name r := by
  refine ⟨_, by rw [iWriteTalk, if_neg (Int.not_lt.2 hs)]; rfl, ?_⟩
  split
  · simp
  · intro x hx
    rw [List.mem_singleton.1 hx]

/-- A write in what is said, where `iWrite` makes the only one. -/
theorem iWriteTalk_unique {comm : Comm} {name : CStr} {data : List UInt8} {offset : Int} {r : R}
    {T T' A B : List (RodsCall × RodsReply)} {a b c : RodsCall × RodsReply}
    (hcalm : ∀ x ∈ T ++ T', x.1.mutates = false)
    (h : T ++ iWriteTalk w comm name data offset r ++ T' = A ++ [a, b, c] ++ B)
    (hc : ∃ comm' desc' data', c.1 = .rcDataObjWrite comm' desc' data') :
    a = (openCallOf w comm name, openReply w comm name r) ∧
      b = (seekCall w comm name offset r, (seekAt w comm name offset r).1) ∧
      c = (writeCall w comm name data r, (writeAt w comm name data offset r).1) ∧
      0 ≤ (seekAt w comm name offset r).1.status := by
  obtain ⟨comm', desc', data', hc⟩ := hc
  have hquiet : ∀ x ∈ T ++ T', x ≠ c := by
    rintro x hx rfl
    have hm := hcalm x hx
    rw [hc] at hm
    cases hm
  simp only [List.mem_append] at hquiet
  have hT : c ∉ T := fun hx => hquiet c (.inl hx) rfl
  have hT' : c ∉ T' := fun hx => hquiet c (.inr hx) rfl
  have ho : c ≠ (openCallOf w comm name, openReply w comm name r) := by
    rintro rfl
    cases hc
  have hs : c ≠ (seekCall w comm name offset r, (seekAt w comm name offset r).1) := by
    rintro rfl
    cases hc
  have hmem : c ∈ T ++ iWriteTalk w comm name data offset r ++ T' := by rw [h]; simp
  by_cases hseek : (seekAt w comm name offset r).1.status < 0
  · simp [iWriteTalk, hseek, hT, hT', ho, hs] at hmem
  obtain ⟨rest, hrest, hclose⟩ := iWriteTalk_eq data (Int.not_lt.1 hseek)
  have hn : c ∉ rest := fun hx => by
    rw [hclose c hx] at hc
    cases hc
  rw [hrest] at h hmem
  obtain rfl : c = (writeCall w comm name data r, (writeAt w comm name data offset r).1) := by
    simpa [hT, hT', ho, hs, hn] using hmem
  have hsplit : (T ++ [(openCallOf w comm name, openReply w comm name r),
        (seekCall w comm name offset r, (seekAt w comm name offset r).1)]) ++
      (writeCall w comm name data r, (writeAt w comm name data offset r).1) :: (rest ++ T') =
      (A ++ [a, b]) ++ (writeCall w comm name data r, (writeAt w comm name data offset r).1) ::
        B := by
    simpa [List.append_assoc] using h
  rw [List.append_cons_inj_of_notMem (by simp [hT, ho, hs]) (by simp [hn, hT'])] at hsplit
  have hab := (List.append_inj' hsplit.1 rfl).2
  simp only [List.cons.injEq, and_true] at hab
  exact ⟨hab.1.symm, hab.2.symm, rfl, Int.not_lt.1 hseek⟩

/-- A WRITE of `n` bytes that `PREP` let in, on the path `d` and in the state `s`, has an offset an
`int` holds, and iRODS opens the object, moves to the offset and writes no less. -/
def WritesThrough (w : World L R) (args : Write3args) (rq : SvcReq) (n : Int) (s : Server L R)
    (d : CStr) : Prop :=
  let name := targetName w (exportPath s) rq.uid (realPath w (exportPath s) rq.uid d)
  let ses := session w (exportPath s) rq.uid s.rods
  args.offset < 2 ^ 31 ∧ 0 ≤ (openReply w ses.1 name ses.2).status ∧
    0 ≤ (seekAt w ses.1 name args.offset ses.2).1.status ∧
    n ≤ (writeAt w ses.1 name args.data args.offset ses.2).1.status

/-- What comes before the body does not change that. -/
theorem WriteSteps.talk {path : CStr} {args : Write3args} {rq : SvcReq} {res : Write3res}
    {s0 s' s1 s2 s3 s4 : Server L R} {fd : Int}
    (h : WriteSteps w e path args rq s res s' s1 s2 s3 s4 fd) (h0 : Ran w (·.calm = true) s0 s)
    (hg : Grows s s') :
    ((.pwrite fd args.data args.offset, .ok res.count) ∈ sysReplies w (since s0 s') s0.kernel) ∧
    ∃ T T', (∀ x ∈ T ++ T', x.1.mutates = false) ∧
      NfsRods.replies w (since s0 s') s0.rods = T ++
        iWriteTalk w (NfsRods.session w e rq.uid s.rods).1
        (targetName w e rq.uid (realPath w e rq.uid path)) args.data (intOffset args.offset)
        (NfsRods.session w e rq.uid s.rods).2 ++ T' := by
  obtain ⟨T, T', hcalm, htalk⟩ := h.replies
  refine ⟨?_, NfsRods.replies w (since s0 s) s0.rods ++ T, T', fun x hx => ?_, ?_⟩
  · rw [h0.grows.since hg, sysReplies_append, ← h0.sys_replay]
    exact List.mem_append_right _ h.mirror
  · simp only [List.mem_append] at hx hcalm
    rcases hx with (hx | hx) | hx
    · simpa [Event.calm, Event.mutates] using h0.since _ (mem_replies hx)
    · exact hcalm x (.inl hx)
    · exact hcalm x (.inr hx)
  · rw [h0.grows.since hg, replies_append, ← h0.rods_replay, htalk]
    simp only [List.append_assoc]

theorem writeBody_writtenAt {path : CStr} {args : Write3args} {rq : SvcReq} {r : Write3res}
    {s0 s' : Server L R} (h : s.exports.path = some e) (h0 : Ran w (·.calm = true) s0 s)
    (hrun : writeBody w path args rq s = (.ok r, s')) (hok : r.status = .ok) :
    WrittenAt w args r.count s0 s' ↔ WritesThrough w args rq r.count s path := by
  obtain ⟨_, fd, s1, s2, s3, s4, steps⟩ := writeBody_ok h hrun hok
  have hg : Grows s s' := (writeBody_frame (r := Grows) (E := fun _ => True)
    (fun _ _ => trivial) (fun _ => trivial) (fun _ => trivial) _ _ _).ok hrun
  obtain ⟨hmirror, T, T', hcalm, htalk⟩ := steps.talk h0 hg
  have hexp : exportPath s = e := by rw [exportPath, h]; rfl
  simp only [WritesThrough, hexp]
  constructor
  · rintro ⟨-, comm, name, o, seek, wr, ⟨A, B, hin⟩, ho, hs, hw⟩
    rw [htalk] at hin
    obtain ⟨ha, hb, hc, -⟩ := iWriteTalk_unique hcalm hin.symm ⟨_, _, _, rfl⟩
    simp only [Prod.mk.injEq, openCallOf, seekCall, writeCall, RodsCall.rcDataObjOpenAndStat.injEq,
      RodsCall.rcDataObjLseek.injEq, RodsCall.rcDataObjWrite.injEq] at ha hb hc
    obtain ⟨-, rfl⟩ := ha
    obtain ⟨⟨-, -, hoff⟩, rfl⟩ := hb
    obtain ⟨-, rfl⟩ := hc
    rw [← hoff] at hs hw
    exact ⟨(intOffset_eq_iff _).1 hoff.symm, ho, hs, hw⟩
  · rintro ⟨hoff, ho, hs, hw⟩
    rw [← intOffset_eq_iff] at hoff
    refine ⟨⟨fd, hmirror⟩, (session w e rq.uid s.rods).1,
      targetName w e rq.uid (realPath w e rq.uid path), _, _, _, ?_, ho, hs, hw⟩
    obtain ⟨rest, hrest, _⟩ := iWriteTalk_eq args.data hs
    rw [htalk, hoff, hrest]
    exact ⟨T, rest ++ T', by simp [seekCall, writeCall]⟩

/-- **An acknowledged WRITE is at its offset on both sides** exactly when it writes through: the
first bytes the reply counts are in the mirror's file and in the iRODS object at the offset. -/
theorem write_offsets_iff (w : World L R) (rq : SvcReq) (args : Write3args) (s s' : Server L R)
    (r : Write3res) (hrun : nfsproc3Write w args rq s = (.ok r, s')) (hok : r.status = .ok) :
    WrittenAt w args r.count s s' ↔ ∀ d s1, prep w args.file rq s = (.ok (.ok d), s1) →
      WritesThrough w args rq r.count s1 d := by
  rcases withPrep_run (w := w) args.file rq (fun st => pure { status := st })
    (fun path => writeBody w path args rq) s with ⟨d, s1, hp, h⟩ | ⟨st, s1, hp, h⟩ | ⟨st, s1, _, h⟩
  · obtain ⟨e, he⟩ := prep_path hp
    rw [nfsproc3Write, h] at hrun
    rw [writeBody_writtenAt he
      ((prep_ran (fun c hc => calm_sys (fun _ h => h) c (SysCall.setsId_calm hc)) _ _).ok hp)
        hrun hok]
    constructor
    · intro hw d' s1' hp'
      rw [hp] at hp'
      obtain ⟨⟨⟨⟩⟩, rfl⟩ := Prod.mk.inj hp'
      exact hw
    · exact fun hw => hw d s1 hp
  · rw [nfsproc3Write, h] at hrun
    simp only [Prog.pure_run, Prod.mk.injEq, Except.ok.injEq] at hrun
    rw [← hrun.1] at hok
    exact absurd hok (prep_refuses hp)
  · rw [nfsproc3Write, h] at hrun
    simp at hrun

end

/-! ## A file below 2^31 and beyond -/

/-- The small world with writes that take all of the data. -/
def writingWorld : World Sandbox.Kernel Sandbox.Grid :=
  { Sandbox.publicWorld with
    sys := fun c k => match c with
      | .pwrite _ data _ => (.ok data.length, k)
      | c => Sandbox.sysCall c k
    rods := fun c g => match c with
      | .rcDataObjWrite _ _ data => ({ status := data.length }, g)
      | c => Sandbox.rodsCall c g
    sys_tree := fun c k hc => by
      cases c
      case pwrite => rfl
      all_goals exact Sandbox.publicWorld.sys_tree _ k hc
    rods_store := fun c g hc => by
      cases c
      case rcDataObjWrite => cases hc
      all_goals exact Sandbox.publicWorld.rods_store _ g hc }

/-- A daemon that remembers a handle of `/e/x`. -/
def fileServer : Server Sandbox.Kernel Sandbox.Grid :=
  { Sandbox.server [Sandbox.item (lit "/e") true]
      { files := [(lit "/e/x", { dev := 1, ino := 5, mode := 0o100600 })] } {} with
    fh := FhCache.add {} 1 5 (lit "/e/x") }

/-- The handle of `/e/x`. -/
def fileHandle : NfsFh3 :=
  { dataLen := 35, obj := { dev := 1, ino := 5, gen := 5, len := 2, inos := [2, 5] } }

def fileReq : SvcReq := { remote := 1, uid := 7, gid := 7 }

/-- Two bytes at an offset. -/
def twoBytes (offset : Nat) : Write3args :=
  { file := fileHandle, offset, stable := .fileSync, data := [1, 2] }

/-- At a small offset both sides have them. -/
theorem write_offsets_small :
    WrittenAt writingWorld (twoBytes 5) 2 fileServer
      (nfsproc3Write writingWorld (twoBytes 5) fileReq fileServer).2 := by
  have hrun : (nfsproc3Write writingWorld (twoBytes 5) fileReq fileServer).1.toOption.map
      (fun r => (r.status, r.count)) = some (.ok, 2) := by decide +kernel
  rcases hm : nfsproc3Write writingWorld (twoBytes 5) fileReq fileServer with ⟨x, s'⟩
  rw [hm] at hrun
  cases x with
  | error st => cases hrun
  | ok r =>
    obtain ⟨hst, hn⟩ := Prod.mk.inj (Option.some.inj hrun)
    rw [← hn]
    refine (write_offsets_iff _ _ _ _ _ r hm hst).2 fun d s1 hp => ?_
    have hd : (prep writingWorld fileHandle fileReq fileServer).1.toOption =
        some (.ok (lit "/e/x")) := rfl
    have hw : WritesThrough writingWorld (twoBytes 5) fileReq 2
        (prep writingWorld fileHandle fileReq fileServer).2 (lit "/e/x") := by
      unfold WritesThrough
      decide +kernel
    rw [show prep writingWorld fileHandle fileReq fileServer = _ from hp] at hd hw
    cases hd
    rw [hn]
    exact hw

/-- The call moves to `offset`. -/
def RodsCall.seeksTo (offset : Int) : RodsCall → Bool
  | rcDataObjLseek _ _ o => o = offset
  | _ => false

/-- From 2^31 on the reply counts them all the same, and no call has moved to the offset. -/
theorem write_beyond_int :
    (nfsproc3Write writingWorld (twoBytes (2 ^ 31)) fileReq fileServer).1.toOption.map
      (fun r => (r.status, r.count)) = some (.ok, 2) ∧
    ¬ WrittenAt writingWorld (twoBytes (2 ^ 31)) 2 fileServer
      (nfsproc3Write writingWorld (twoBytes (2 ^ 31)) fileReq fileServer).2 := by
  refine ⟨by decide +kernel, ?_⟩
  rintro ⟨-, comm, name, o, seek, wr, hin, -⟩
  have hnone : ∀ x ∈ replies writingWorld (since fileServer (nfsproc3Write writingWorld
      (twoBytes (2 ^ 31)) fileReq fileServer).2) fileServer.rods,
      x.1.seeksTo (2 ^ 31) = false := by decide +kernel
  have hseek := hnone _ (hin.subset (List.mem_cons_of_mem _ List.mem_cons_self))
  simp [RodsCall.seeksTo, twoBytes] at hseek

end NfsRods
