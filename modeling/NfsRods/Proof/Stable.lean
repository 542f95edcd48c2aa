import NfsRods.Proof.FdRun
import NfsRods.Proof.Write

/-!
# Stable writes

WRITE opens the file through the descriptor cache, writes the data, talks to iRODS and closes the
file: for good if the write is to be stable, else so that the descriptor may stay in the cache.

* `writeFront`, `writeRemote`: what comes before the file is opened, and what comes between the
  write and the close.
* `nfsproc3Write_ok`: the steps of a WRITE that gets `NFS3_OK`.
* `write_stable`: what it says of the data is true of the local file.
-/

namespace NfsRods

open CStr
open Prog (Ends Frame)

section
variable {L R : Type} (w : World L R)

/-- What comes before the file is opened: its path, and the status so far. -/
def writeFront (path : CStr) (rq : SvcReq) : M L R (CStr × Nfsstat3) := do
  let path ← getRealPathNFS w path rq.uid
  debug w "ACCESS PATH %s"
  let s ← Prog.get
  writeByOwner w rq s.stCache
  pure (path, join (isReg s) (exportsRw s.exports))

/-- What is done with iRODS between the local write and the close. -/
def writeRemote (path : CStr) (args : Write3args) (rq : SvcReq) : M L R Unit := do
  let x ← openRods w path rq.uid
  let _ ← iWrite w x.2 args.data (intOffset args.offset) x.1
  debug w "WRITE - Writing under the file: %s\n"
  debug w "WRITE - Content: %s\n"
  rcDisconnect w x.1

/-- What comes after. -/
def writeBack (path : CStr) (rq : SvcReq) (result : Write3res) : M L R Write3res := do
  let s ← Prog.get
  let after ← getPostStat w (some path) rq
  debug w "Write END"
  pure { result with fileWcc := { before := getPreCached s, after } }

end

section
variable {L R : Type} {w : World L R} {s s' : Server L R} {e : CStr}

theorem writeBody_eq (path : CStr) (args : Write3args) (rq : SvcReq) :
    writeBody w path args rq = (do
      let x ← writeFront w path rq
      let result ← (if x.2 = .ok then writeWrite w x.1 args rq else pure { status := x.2 })
      writeBack w x.1 rq result) := by
  simp only [writeFront, Prog.bind_assoc]
  rfl

theorem writeFd_eq (path : CStr) (args : Write3args) (rq : SvcReq) (fd : Int) :
    writeFd w path args rq fd = (do
      let res ← sys w (.pwrite fd args.data args.offset)
      writeRemote w path args rq
      let resClose ← fdClose w fd .write (args.stable ≠ .unstable)
      pure (res, resClose)) := by
  simp only [writeRemote, Prog.bind_assoc]
  rfl

theorem iWrite_aside (name : CStr) (data : List UInt8) (offset : Int) (comm : Comm) :
    Frame Aside (iWrite w name data offset comm) := by
  have hrods : ∀ c, Frame Aside (rods w c) := fun _ _ => rfl
  refine .bind (hrods _) fun _ => .bind (hrods _) fun _ => .ite (fun _ => .pure _) fun _ => ?_
  exact .bind (hrods _) fun _ => .ite (fun _ => .pure _) fun _ => .bind (hrods _) fun _ => .pure _

/-- All that is done with iRODS leaves the local side as it was. -/
theorem writeRemote_aside {path : CStr} {args : Write3args} {rq : SvcReq}
    (h : s.exports.path = some e)
    (hrun : writeRemote w path args rq s = (.ok (), s')) : Aside s s' := by
  have hc : Connects w rq := by
    by_contra hn
    obtain ⟨st, hst⟩ := openRods_stops (w := w) h hn path
    have hstop := congrArg Prod.fst hrun
    rw [writeRemote, Prog.fst_bind_error hst] at hstop
    cases hstop
  obtain ⟨s1, h1, a1⟩ := openRods_ends (w := w) h hc.1 hc.2 path
  rw [writeRemote, Prog.bind_ok h1] at hrun
  have hrest : Frame Aside (do
      let _ ← iWrite w (targetName w e rq.uid path) args.data (intOffset args.offset)
        (session w e rq.uid s.rods).1
      debug w "WRITE - Writing under the file: %s\n"
      debug w "WRITE - Content: %s\n"
      rcDisconnect w (session w e rq.uid s.rods).1 : M L R Unit) := by
    have hdebug : ∀ m, Frame Aside (debug w m : M L R Unit) := fun _ _ => rfl
    have hrods : ∀ c, Frame Aside (rods w c) := fun _ _ => rfl
    refine .bind (iWrite_aside _ _ _ _) fun _ => .bind (hdebug _) fun _ =>
      .bind (hdebug _) fun _ => ?_
    exact .bind (hrods _) fun _ => .pure _
  exact trans_of Aside a1.1 (hrest.ok hrun)

/-- The events of what is done with iRODS. -/
theorem writeRemote_foot {E : Event → Prop} (hE : ∀ ev, ev.calm = true → E ev)
    (hr : ∀ c, E (.rods c)) (path : CStr)
    (args : Write3args) (rq : SvcReq) : Frame (Foot w E) (writeRemote w path args rq) := by
  refine .bind (openRods_frame hE _ _) fun _ => .bind (iWrite_foot hr _ _ _ _) fun _ => ?_
  exact .bind (debug_frame _) fun _ => .bind (debug_frame _) fun _ =>
    .bind (rods_frame (hr _)) fun _ => .pure _

theorem writeFront_foot {E : Event → Prop} (hE : ∀ ev, ev.calm = true → E ev) (path : CStr)
    (rq : SvcReq) :
    Frame (Foot w E) (writeFront w path rq) := by
  refine .bind (getRealPathNFS_frame (calm_path hE) _ _) fun _ => .bind (debug_frame _) fun _ =>
    .bind .get fun _ => ?_
  exact .bind (accessByOwner_frame (calm_sys hE) _ _ _) fun _ => .pure _

theorem writeBack_foot {E : Event → Prop} (path : CStr) (rq : SvcReq) (result : Write3res) :
    Frame (Foot w E) (writeBack w path rq result) :=
  .bind .get fun _ => .bind (getPostStat_frame _ _) fun _ => .bind (debug_frame _) fun _ => .pure _

theorem writeBack_tacit (path : CStr) (rq : SvcReq) (result : Write3res) :
    Frame Tacit (writeBack w path rq result) :=
  .bind .get fun _ => .bind (getPostStat_tacit _ _) fun _ => .bind (fun _ => rfl) fun _ => .pure _

/-- What comes after changes nothing in the reply but the attributes. -/
theorem writeBack_run (path : CStr) (rq : SvcReq) (result : Write3res) (s : Server L R) :
    ∃ wcc s', writeBack w path rq result s = (.ok { result with fileWcc := wcc }, s') := by
  obtain ⟨after, s1, h1⟩ := getPostStat_returns (w := w) (some path) rq s
  exact ⟨_, _, by rw [writeBack, Prog.get_bind_run, Prog.bind_ok h1]; rfl⟩

/-- The steps of a WRITE that gets `NFS3_OK`: `fd_open` in `t`, `pwrite` in `t1`, and `fd_close` in
`t3`. -/
structure FdSteps (w : World L R) (args : Write3args) (s s' : Server L R) (res : Write3res)
    (path : CStr) (fd r : Int) (t t1 t2 t3 t4 : Server L R) : Prop where
  before : Ran w (fun _ => True) s t
  opened : FdOpened w path args.file.obj .write (args.stable = .unstable) t fd t1
  opening : Ran w (fun _ => True) t t1
  got : fd ≠ -1
  pwrite : sys w (.pwrite fd args.data args.offset) t1 = (.ok res.count, t2)
  count : res.count ≠ -1
  remote : Ran w (fun _ => True) t2 t3
  aside : Aside t2 t3
  closed : FdClosed w fd .write (args.stable ≠ .unstable) t3 r t4
  close : r ≠ -1
  after : Ran w (fun _ => True) t4 s'
  tacit : Tacit t4 s'
  committed : res.committed = if args.stable = .dataSync then .fileSync else args.stable

/-- The steps between the two checks of the status: `fd_open`, `pwrite`, iRODS and `fd_close`, none
of which has failed if the result is `NFS3_OK`. -/
theorem writeWrite_ok {path : CStr} {args : Write3args} {rq : SvcReq} {res : Write3res}
    (he : s.exports.path = some e) (hrun : writeWrite w path args rq s = (.ok res, s'))
    (hok : res.status = .ok) :
    ∃ fd r t1 t2 t3, fd ≠ -1 ∧
      (FdOpened w path args.file.obj .write (args.stable = .unstable) s fd t1 ∧
        Ran w (fun _ => True) s t1) ∧
      (sys w (.pwrite fd args.data args.offset) t1 = (.ok res.count, t2) ∧ res.count ≠ -1) ∧
      (Ran w (fun _ => True) t2 t3 ∧ Aside t2 t3) ∧
      (FdClosed w fd .write (args.stable ≠ .unstable) t3 r s' ∧ r ≠ -1) ∧
      res.committed = if args.stable = .dataSync then .fileSync else args.stable := by
  have hall : ∀ ev : Event, ev.calm = true → True := fun _ _ => trivial
  obtain ⟨fd, t1, hopen, hresult⟩ := Prog.bind_eq_ok hrun
  obtain ⟨fd', t1', hopen', hopened⟩ :=
    fdOpen_run (w := w) path args.file .write (args.stable = .unstable) s
  obtain ⟨hfd, rfl⟩ := Prod.mk.inj (hopen.symm.trans hopen')
  cases hfd
  have hopenFoot : Foot w (fun _ => True) s t1 :=
    (fdOpen_frame (fun _ _ => trivial) _ _ _ _).ok hopen
  rw [Prog.ite_run] at hresult
  split at hresult
  · rename_i hne
    obtain ⟨⟨v, r⟩, t4, hwrite, hresult⟩ := Prog.bind_eq_ok hresult
    dsimp only at hresult
    rw [Prog.get_bind_run, Prog.ite_run] at hresult
    split at hresult
    · rename_i hboth
      rw [writeFd_eq] at hwrite
      obtain ⟨v', t2, hpwrite, hwrite⟩ := Prog.bind_eq_ok hwrite
      obtain ⟨_, t3, hremote, hwrite⟩ := Prog.bind_eq_ok hwrite
      obtain ⟨r', t4', hclose, hwrite⟩ := Prog.bind_eq_ok hwrite
      simp only [Prog.pure_run, Prod.mk.injEq, Except.ok.injEq] at hwrite hresult
      obtain ⟨⟨rfl, rfl⟩, rfl⟩ := hwrite
      obtain ⟨rfl, rfl⟩ := hresult
      obtain ⟨_, _, hclose', hclosed⟩ :=
        fdClose_run (w := w) fd .write (args.stable ≠ .unstable) t3
      obtain ⟨hr, rfl⟩ := Prod.mk.inj (hclose.symm.trans hclose')
      cases hr
      obtain ⟨t2', hsys, hside, -⟩ := sys_ends (w := w) (.pwrite fd args.data args.offset) t1
      obtain ⟨-, rfl⟩ := Prod.mk.inj (hpwrite.symm.trans hsys)
      have he2 : t2.exports.path = some e := by rw [hside.exports, hopenFoot.exports, he]
      have hremoteFoot : Foot w (fun _ => True) t2 t3 :=
        (writeRemote_foot hall (fun _ => trivial) _ _ _).ok hremote
      exact ⟨fd, _, t1, t2, t3, hne, ⟨hopened, hopenFoot.ran.mono fun _ _ => trivial⟩,
        ⟨hpwrite, hboth.1⟩,
        ⟨hremoteFoot.ran.mono fun _ _ => trivial, writeRemote_aside he2 hremote⟩,
        ⟨hclosed, hboth.2⟩, rfl⟩
    · simp only [Prog.pure_run, Prod.mk.injEq, Except.ok.injEq] at hresult
      obtain ⟨rfl, -⟩ := hresult
      exact absurd hok (writeWriteErr_ne_ok _)
  · rw [Prog.get_bind_run] at hresult
    simp only [Prog.pure_run, Prod.mk.injEq, Except.ok.injEq] at hresult
    obtain ⟨rfl, -⟩ := hresult
    exact absurd hok (writeOpenErr_ne_ok _)

theorem nfsproc3Write_ok {args : Write3args} {rq : SvcReq} {res : Write3res}
    (hrun : nfsproc3Write w args rq s = (.ok res, s')) (hok : res.status = .ok) :
    ∃ path fd r t t1 t2 t3 t4, FdSteps w args s s' res path fd r t t1 t2 t3 t4 := by
  rcases withPrep_run (w := w) args.file rq (fun st => pure { status := st })
    (fun path => writeBody w path args rq) s with ⟨d, s1, hp, h⟩ | ⟨st, s1, hp, h⟩ | ⟨st, s1, _, h⟩
  · obtain ⟨e, he⟩ := prep_path hp
    rw [nfsproc3Write, h, writeBody_eq] at hrun
    obtain ⟨⟨path, status⟩, t, hfront, hrun⟩ := Prog.bind_eq_ok hrun
    obtain ⟨result, t4, hresult, hrun⟩ := Prog.bind_eq_ok hrun
    obtain ⟨wcc, s2, hback⟩ := writeBack_run (w := w) path rq result t4
    obtain ⟨hres, rfl⟩ := Prod.mk.inj (hrun.symm.trans hback)
    cases Except.ok.inj hres
    have hfoot : Foot w (fun _ => True) s1 t := (writeFront_foot (fun _ _ => trivial) _ _).ok hfront
    have hbefore : Ran w (fun _ => True) s t :=
      trans_of (Ran w _) ((prep_ran (fun _ _ => trivial) _ _).ok hp)
        (hfoot.ran.mono fun _ _ => trivial)
    have hafter : Ran w (fun _ => True) t4 s' := (Foot.frame_ran (writeBack_foot _ _ _)).ok hback
    have htacit : Tacit t4 s' := (writeBack_tacit _ _ _).ok hback
    rw [Prog.ite_run] at hresult
    split at hresult
    · have het : t.exports.path = some e := by rw [hfoot.exports, he]
      obtain ⟨fd, r, t1, t2, t3, hne, ⟨hopened, hopening⟩, ⟨hpwrite, hcount⟩, ⟨hremote, haside⟩,
        ⟨hclosed, hclose⟩, hcommitted⟩ := writeWrite_ok het hresult hok
      exact ⟨path, fd, r, t, t1, t2, t3, t4, hbefore, hopened, hopening, hne, hpwrite, hcount,
        hremote, haside, hclosed, hclose, hafter, htacit, hcommitted⟩
    · rename_i hn
      simp only [Prog.pure_run, Prod.mk.injEq, Except.ok.injEq] at hresult
      obtain ⟨rfl, -⟩ := hresult
      exact absurd hok hn
  · rw [nfsproc3Write, h] at hrun
    simp only [Prog.pure_run, Prod.mk.injEq, Except.ok.injEq] at hrun
    rw [← hrun.1] at hok
    exact absurd hok (prep_refuses hp)
  · rw [nfsproc3Write, h] at hrun
    simp at hrun

end

/-! ## What becomes of the data -/

section
variable {L R : Type} (w : World L R)

/-- The descriptor that `fd_open` gets in `t` is one of the file: it is in the table for the file,
or it is new and what was opened is the file. -/
def OfFile (ufh : Unfs3Fh) (fd : Int) (t t1 : Server L R) : Prop :=
  (∃ i < fdEntries, (t.fd.entry i).fd = fd ∧ (t.fd.entry i).key = ufh.key .write) ∨
    ∃ b, w.fstat t1.kernel fd = .ok b ∧ ufh.dev = b.dev ∧ ufh.ino = b.ino ∧ ufh.gen = getGen b

/-- On the way from `s` to `s'`, `pwrite` has written `count` bytes of the data to `fd`, a
descriptor of the file: it was called in `t1`, which comes right after `fd_open` in `t`, and `rest`
was issued after it. -/
structure WroteLocally (args : Write3args) (count : Int) (s s' t t1 : Server L R) (fd : Int)
    (rest : List Event) : Prop where
  before : Ran w (fun _ => True) s t
  opening : Ran w (fun _ => True) t t1
  file : OfFile w args.file.obj fd t t1
  pwrite : (w.sys (.pwrite fd args.data args.offset) t1.kernel).1 = .ok count
  events : since s s' = since s t1 ++ .sys (.pwrite fd args.data args.offset) :: rest

/-- The data were written, and nothing was done with the kernel until `fsync` of the same descriptor
has succeeded. -/
def Synced (args : Write3args) (count : Int) (s s' : Server L R) : Prop :=
  ∃ t t1 fd B C v, WroteLocally w args count s s' t t1 fd (B ++ .sys (.fsync fd) :: C) ∧
    let k := (w.sys (.pwrite fd args.data args.offset) t1.kernel).2
    replaySys w B k = k ∧ (w.sys (.fsync fd) k).1 = .ok v ∧ v ≠ -1

/-- The data were written, and the descriptor is in the table: who closes it syncs it first. -/
def LeftInCache (args : Write3args) (count : Int) (s s' : Server L R) : Prop :=
  ∃ t t1 fd rest i, WroteLocally w args count s s' t t1 fd rest ∧ i < fdEntries ∧ fd ≠ -1 ∧
    (s'.fd.entry i).fd = fd ∧ (s'.fd.entry i).kind = .write ∧
    ∀ keep (u : Server L R), u.fd.entry i = s'.fd.entry i →
      .sys (.fsync fd) ∈ since u (fdCacheDel w i keep u).2

end

section
variable {L R : Type} {w : World L R} {s s' : Server L R}

theorem FdOpened.ofFile {path : CStr} {ufh : Unfs3Fh} {caching : Bool} {fd : Int}
    (h : FdOpened w path ufh .write caching s fd s') (hfd : fd ≠ -1) : OfFile w ufh fd s s' := by
  cases h with
  | pending => exact absurd rfl hfd
  | cached hidx =>
    obtain ⟨hi, hkey⟩ := FdCache.idxByFh_eq_some hidx
    exact .inl ⟨_, hi, rfl, hkey⟩
  | refused => exact absurd rfl hfd
  | raced => exact absurd rfl hfd
  | opened _ _ _ _ hopens => exact .inr hopens.2.2

/-- Where the first of the calls stands in the trace: nothing before it has changed the kernel. -/
theorem returns_cons {t : List Event} {k : L} {c : SysCall} {v : Int} {cs : List (SysCall × Int)}
    (h : returns w t k = (c, v) :: cs) : ∃ B C, t = B ++ .sys c :: C ∧ replaySys w B k = k := by
  induction t with
  | nil => cases h
  | cons ev t ih =>
    cases ev with
    | sys c' =>
      rw [returns, sysReplies, List.map_cons, List.cons.injEq] at h
      obtain rfl : c' = c := congrArg Prod.fst h.1
      exact ⟨[], t, rfl, rfl⟩
    | _ =>
      obtain ⟨B, C, rfl, hB⟩ := ih h
      exact ⟨_ :: B, C, rfl, hB⟩

/-- Closing a descriptor for writing starts with `fsync`. -/
theorem Did.fsync {fd : Int} (h : Did w (closeCalls w fd .write s.kernel) s s') :
    ∃ B C, since s s' = B ++ .sys (.fsync fd) :: C ∧ replaySys w B s.kernel = s.kernel := by
  obtain ⟨t, ht, -, hr⟩ := h
  rw [since_eq ht]
  exact returns_cons hr

/-- The descriptor of an entry in use for writing is synced when the entry is deleted. -/
theorem fdCacheDel_fsync {i : Nat} {fd : Int} (hfd : (s.fd.entry i).fd = fd) (hopen : fd ≠ -1)
    (hkind : (s.fd.entry i).kind = .write) (keep : Bool) :
    .sys (.fsync fd) ∈ since s (fdCacheDel w i keep s).2 := by
  obtain ⟨r, s', hrun, -, hdel⟩ := fdCacheDel_run (w := w) i keep s
  have hdid := hdel.did
  rw [FdEntry.calls, if_pos (by simp [FdEntry.isOpen, hfd, hopen]), hfd, hkind] at hdid
  obtain ⟨B, C, hevents, -⟩ := hdid.fsync
  rw [hrun, hevents]
  simp

/-- `fd_close` of a descriptor for writing that does not fail: it was synced, or is still in the
table. -/
theorem FdClosed.synced {really : Bool} {fd r : Int} (h : FdClosed w fd .write really s r s')
    (hfd : fd ≠ -1)
    (hr : r ≠ -1) :
    (Did w (closeCalls w fd .write s.kernel) s s' ∧ sysResult w (.fsync fd) s.kernel ≠ -1) ∨
      really = false ∧ s'.trace = s.trace ∧
        ∃ i < fdEntries, (s'.fd.entry i).fd = fd ∧ (s'.fd.entry i).kind = .write := by
  cases h with
  | stays hidx hreal =>
    obtain ⟨hi, hent, hkind⟩ := FdCache.idxByFd_eq_some hidx
    exact .inr ⟨hreal, rfl, _, hi, by simpa using hent, by simpa using hkind⟩
  | deleted hidx hreal hfail hdel =>
    obtain ⟨hi, hent, hkind⟩ := FdCache.idxByFd_eq_some hidx
    have hok : ¬ FdEntry.Fails w _ _ := fun h => hr (hfail.2 h)
    have hdid := hdel.did
    rw [FdCache.entry_touch, if_pos rfl] at hok hdid
    rw [FdEntry.calls, if_pos (by simp [FdEntry.isOpen, hent, hfd]), hent, hkind] at hdid
    rw [FdEntry.Fails, hent, hkind, closeFails_iff] at hok
    exact .inl ⟨hdid, fun hsync => hok (.inr (.inl hsync))⟩
  | lone hidx hside hdid =>
    refine .inl ⟨hdid, fun hsync => hr ?_⟩
    rw [loneResult, hsync]
    rfl

section
variable {args : Write3args} {res : Write3res} {path : CStr} {fd r : Int}
  {t t1 t2 t3 t4 : Server L R}

/-- The local write of a WRITE that gets `NFS3_OK`. -/
theorem FdSteps.wrote (h : FdSteps w args s s' res path fd r t t1 t2 t3 t4) (hg : Grows t2 s') :
    WroteLocally w args res.count s s' t t1 fd (since t2 s') ∧
      t2.kernel = (w.sys (.pwrite fd args.data args.offset) t1.kernel).2 := by
  obtain ⟨t2', hsys, -, hker⟩ := sys_ends (w := w) (.pwrite fd args.data args.offset) t1
  obtain ⟨hres, rfl⟩ := Prod.mk.inj (h.pwrite.symm.trans hsys)
  obtain ⟨t2', hsys', _, htrace⟩ := sys_trace (w := w) (.pwrite fd args.data args.offset) t1
  obtain ⟨-, rfl⟩ := Prod.mk.inj (h.pwrite.symm.trans hsys')
  have hpw : Grows t1 t2 := ⟨_, htrace.symm⟩
  have hcount := h.count
  rw [Except.ok.inj hres] at hcount
  refine ⟨⟨h.before, h.opening, h.opened.ofFile h.got, ?_, ?_⟩, hker⟩
  · rw [Except.ok.inj hres]
    exact sysResult_ok hcount
  · have hopening := (trans_of (Ran w _) h.before h.opening).grows
    rw [hopening.since (trans_of Grows hpw hg), hpw.since hg, since_eq htrace]
    rfl

/-- The data were synced, or the descriptor was left in the table. -/
theorem FdSteps.kept (h : FdSteps w args s s' res path fd r t t1 t2 t3 t4) :
    Synced w args res.count s s' ∨ args.stable = .unstable ∧ LeftInCache w args res.count s s' := by
  have hkernel := h.aside.kernel
  have hfd : s'.fd = t4.fd := by rw [h.tacit]
  rcases h.closed.synced h.got h.close with ⟨hdid, hsync⟩ | ⟨hreal, htrace, i, hi, hent, hkind⟩
  · obtain ⟨B, C, hclose, hB⟩ := hdid.fsync
    obtain ⟨u, hu, -⟩ := hdid
    have h34 : Grows t3 t4 := ⟨u, hu.symm⟩
    have h23 := h.remote.grows
    have h4 := h.after.grows
    obtain ⟨hwrote, hk⟩ := h.wrote (trans_of Grows h23 (trans_of Grows h34 h4))
    rw [h23.since (trans_of Grows h34 h4), h34.since h4, hclose] at hwrote
    refine .inl ⟨t, t1, fd, since t2 t3 ++ B, C ++ since t4 s', sysResult w (.fsync fd) t3.kernel,
      ?_, ?_, ?_, hsync⟩
    · simpa [List.append_assoc] using hwrote
    · rw [← hk, replaySys_append, ← h.remote.sys_replay, hB, hkernel]
    · rw [← hk, ← hkernel]
      exact sysResult_ok hsync
  · refine .inr ⟨by simpa using hreal, ?_⟩
    have h34 : Grows t3 t4 := ⟨[], by rw [htrace]; simp⟩
    obtain ⟨hwrote, -⟩ := h.wrote (trans_of Grows h.remote.grows (trans_of Grows h34 h.after.grows))
    rw [← hfd] at hent hkind
    refine ⟨t, t1, fd, _, i, hwrote, hi, h.got, hent, hkind, fun keep u hu => ?_⟩
    exact fdCacheDel_fsync (by rw [hu, hent]) h.got (by rw [hu, hkind]) keep

end

end

/-- **Stable writes are stable locally.** A WRITE that says its data are committed has synced them,
and says `FILE_SYNC`; one that was to be unstable has synced them, or has left its descriptor in the
cache, to be synced when it is closed. -/
theorem write_stable {L R : Type} (w : World L R) (args : Write3args) (rq : SvcReq)
    (s s' : Server L R)
    (res : Write3res) (hrun : nfsproc3Write w args rq s = (.ok res, s')) (hok : res.status = .ok) :
    (res.committed ≠ .unstable → res.committed = .fileSync ∧ Synced w args res.count s s') ∧
    (args.stable = .unstable → Synced w args res.count s s' ∨
      LeftInCache w args res.count s s') := by
  obtain ⟨path, fd, r, t, t1, t2, t3, t4, hsteps⟩ := nfsproc3Write_ok hrun hok
  have hkept := hsteps.kept
  have hcommitted := hsteps.committed
  constructor
  · intro hne
    have hstable : args.stable ≠ .unstable := by
      intro hu
      rw [hcommitted, hu] at hne
      exact hne rfl
    refine ⟨?_, hkept.resolve_right fun h => hstable h.1⟩
    rw [hcommitted]
    cases hs : args.stable with
    | unstable => exact absurd hs hstable
    | dataSync => rfl
    | fileSync => rfl
  · intro _
    exact hkept.imp_right fun h => h.2

/-- Two bytes that are to be stable are synced. -/
theorem write_stable_bytes :
    Synced writingWorld (twoBytes 5) 2 fileServer
      (nfsproc3Write writingWorld (twoBytes 5) fileReq fileServer).2 := by
  have hrun : (nfsproc3Write writingWorld (twoBytes 5) fileReq fileServer).1.toOption.map
      (fun r => (r.status, r.committed, r.count)) = some (.ok, .fileSync, 2) := by decide +kernel
  obtain ⟨r, hr, hres⟩ := Sandbox.replied hrun
  obtain ⟨hst, hcommitted, hcount⟩ : r.status = .ok ∧ r.committed = .fileSync ∧ r.count = 2 := by
    simpa using hres
  have hstable := write_stable writingWorld (twoBytes 5) fileReq fileServer _ r (by rw [← hr]) hst
  rw [hcount] at hstable
  exact (hstable.1 (by rw [hcommitted]; decide)).2

end NfsRods
