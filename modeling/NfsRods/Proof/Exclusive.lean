import NfsRods.Proof.CreateVerifier
import NfsRods.Proof.Errno

/-!
# An exclusive CREATE that comes again

An exclusive CREATE leaves its verifier in the times of the new file, and when its open finds the
file there it compares them. It learns that the file was there from `errno`, after it has talked to
iRODS.

* `FileCalls`, `CreatesOnce`: what is documented of the calls it makes.
* `createOpened_made`, `createExists_made`: what a local step that succeeds has done.
* `createBody_there`: what an exclusive CREATE does when its file is there.
* `Granted.left`, `Granted.again`: what the first request leaves, and what it is answered when it
  comes again.
* `exclusive_idempotent_iff`: when it is answered as before, when another verifier is refused, and
  when the mode is not that of unset memory.
-/

namespace NfsRods

open CStr

section
variable {L R : Type} (w : World L R)

/-- What the kernel documents of the calls of an exclusive CREATE. -/
structure FileCalls : Prop where
  /-- A descriptor refers to what the path names. -/
  names : ∀ {path flags mode k fd k'}, w.sys (.open_ path flags mode) k = (.ok fd, k') →
    w.fstat k' fd = w.stat k' path
  /-- `O_EXCL` refuses a path that is there. -/
  refuses : ∀ path flags mode k b, flags.creat = true → flags.excl = true →
    w.stat k path = .ok b → (sysError w (.open_ path flags mode) k).isSome ∧
      (w.sys (.open_ path flags mode) k).2 = k
  /-- A file keeps its device and its number when its times are set. -/
  keeps : ∀ {path actime modtime k v k' b}, w.sys (.utime path actime modtime) k = (.ok v, k') →
    w.stat k path = .ok b → ∃ b', w.stat k' path = .ok b' ∧ b'.dev = b.dev ∧ b'.ino = b.ino
  times : StoresTimes w
  /-- Opening without `O_CREAT` and `O_TRUNC`, and closing, is not seen by the calls that look. -/
  opens : ∀ path flags mode k, flags.creat = false → flags.trunc = false →
    w.stat (w.sys (.open_ path flags mode) k).2 = w.stat k ∧
      w.lstat (w.sys (.open_ path flags mode) k).2 = w.lstat k
  closes : ∀ {fd k}, w.stat (w.sys (.close fd) k).2 = w.stat k ∧
    w.lstat (w.sys (.close fd) k).2 = w.lstat k
  /-- Only with `O_CREAT` it is an error that the path is there. -/
  absent : ∀ {path flags mode k}, flags.creat = false →
    sysError w (.open_ path flags mode) k ≠ some .eexist

/-- What iRODS documents of creating an object without the flag that forces it. -/
def CreatesOnce : Prop := ∀ comm inp r, (w.store r inp.objPath).isSome →
  w.store (w.rods (.rcDataObjCreate comm inp) r).2 inp.objPath = w.store r inp.objPath

/-- The call with which CREATE opens a file that is there. -/
def reopenCall (obj : CStr) : SysCall := .open_ obj { access := .rdonly, nonblock := true } 0

/-- The status of an exclusive CREATE of the file `b`, when it finds `x` in `errno`. -/
def thereStatus (obj : CStr) (b : Stat) (verf : List UInt8) (k : L) (x : Errno) : Nfsstat3 :=
  if x = .eexist then
    match sysError w (reopenCall obj) k with
    | some er => createErr er
    | none => if checkCreateVerifier b verf = true then .ok else .exist
  else createErr x

/-- The handle of an object in the directory `nfh`. -/
def newHandle (s : Server L R) (nfh : NfsFh3) (b : Stat) : Option Unfs3Fh :=
  (dirHandle w s nfh).bind fun new =>
    if new.len = fhMaxLen then none
    else some { dev := b.dev, ino := b.ino, gen := getGen b, pwhash := s.exports.passwordHash
                len := new.len + 1, inos := new.inos.take new.len ++ [fhHash b.ino] }

end

section
variable {L R : Type} {w : World L R} {s s' : Server L R} {e d obj : CStr} {rq : SvcReq}
  {unset : Junk}

/-! ## The handle -/

/-- The hashes of a path are made from what `lstat` answers. -/
theorem hashes_congr {w' : World L R} {k k' : L} (h : w'.lstat k' = w.lstat k) (ps : List CStr) :
    hashes w' k' ps = hashes w k ps := by
  induction ps with
  | nil => rfl
  | cons p ps ih => rw [hashes, hashes, h, ih]

theorem fhCompPath_congr {w' : World L R} {k k' : L} (h : w'.lstat k' = w.lstat k) (path : CStr)
    (needDir : Bool) : fhCompPath w' k' path needDir = fhCompPath w k path needDir := by
  simp only [fhCompPath, h, hashes_congr h]

theorem dirHandle_congr {w' : World L R} (h : w'.lstat s'.kernel = w.lstat s.kernel)
    (hlist : s'.exportList = s.exportList) (nfh : NfsFh3) :
    dirHandle w' s' nfh = dirHandle w s nfh := by
  simp only [dirHandle, fhCompPath_congr h, hlist]

/-- A handle tells the device and the number of the object. -/
theorem newHandle_congr {w' : World L R} {nfh : NfsFh3} {b b' : Stat}
    (hdir : dirHandle w' s' nfh = dirHandle w s nfh)
    (hpass : s'.exports.passwordHash = s.exports.passwordHash) (hdev : b'.dev = b.dev)
    (hino : b'.ino = b.ino) : newHandle w' s' nfh b' = newHandle w s nfh b := by
  have hgen : getGen b' = getGen b := hino
  rw [newHandle, newHandle, hdir, hpass, hdev, hino, hgen]

theorem newHandle_foot (f : Foot w (fun _ => False) s s') (nfh : NfsFh3) (b : Stat) :
    newHandle w s' nfh b = newHandle w s nfh b := by
  have hk : s'.kernel = s.kernel := f.ran.kernel_eq fun _ h => h.1
  exact newHandle_congr (dirHandle_congr (by rw [hk]) f.exportList nfh) (by rw [f.exports]) rfl rfl

/-! ## The local step -/

theorem createdObj_made {dir : NfsFh3} {buf : Stat} {fd : Int} {fh : Option Unfs3Fh}
    {post : PostOpAttr} (hrun : createdObj w dir obj buf fd rq s = (.ok (fh, post), s')) :
    fh = newHandle w s' dir buf ∧ s'.kernel = (w.sys (.close fd) s.kernel).2 := by
  obtain ⟨_, s1, h1, hrun⟩ := Prog.bind_eq_ok hrun
  cases h1
  obtain ⟨s2, h2, -, ker2⟩ := sys_ends (w := w) (.close fd)
    { s with fh := s.fh.add buf.dev buf.ino obj }
  rw [Prog.bind_ok h2, Prog.bind_ok (fhExtend_run dir buf.dev buf.ino (getGen buf) s2)] at hrun
  obtain ⟨post', s3, h3, hrun⟩ := Prog.bind_eq_ok hrun
  cases hrun
  have f3 : Foot w (fun _ => False) s2 s' := (getPostBuf_frame (w := w) buf rq).ok h3
  have hk : s'.kernel = s2.kernel := f3.ran.kernel_eq fun _ h => h.1
  exact ⟨(newHandle_foot f3 dir buf).symm, by rw [hk, ker2]⟩

/-- A new file has got its verifier. -/
theorem createOpened_made {dir : NfsFh3} {verf : List UInt8} {fd : Int} {r : Create3res}
    (hrun : createOpened w dir obj (.exclusive verf) .ok fd rq s = (.ok r, s'))
    (hok : r.status = .ok) :
    ∃ buf v k', w.fstat s.kernel fd = .ok buf ∧
      w.sys (.utime obj (verfTime verf) (verfTime (verf.drop 4))) s.kernel = (.ok v, k') ∧
      s'.kernel = (w.sys (.close fd) k').2 ∧ r.obj = newHandle w s' dir buf := by
  rw [createOpened] at hrun
  cases hf : w.fstat s.kernel fd with
  | error err =>
    rw [Prog.bind_ok (query_error hf)] at hrun
    obtain ⟨_, s1, -, hrun⟩ := Prog.bind_eq_ok hrun
    cases hrun
    cases hok
  | ok buf =>
    rw [Prog.bind_ok (query_ok hf)] at hrun
    obtain ⟨s1, h1, -, ker1⟩ := sys_ends (w := w)
      (.utime obj (verfTime verf) (verfTime (verf.drop 4))) s
    dsimp only [saveVerifier, storeCreateVerifier] at hrun
    rw [Prog.bind_ok h1, Prog.ite_run] at hrun
    by_cases hr : sysResult w (.utime obj (verfTime verf) (verfTime (verf.drop 4))) s.kernel = -1
    · rw [if_pos hr] at hrun
      obtain ⟨_, s2, -, hrun⟩ := Prog.bind_eq_ok hrun
      cases hrun
      cases hok
    · rw [if_neg hr] at hrun
      obtain ⟨⟨fh, post⟩, s2, h2, hrun⟩ := Prog.bind_eq_ok hrun
      cases hrun
      obtain ⟨hfh, ker2⟩ := createdObj_made h2
      exact ⟨buf, _, _, rfl, Prod.ext (sysResult_ok hr) rfl, by rw [ker2, ker1], hfh⟩

/-- A file that is there carries the verifier. -/
theorem createExists_made {dir : NfsFh3} {verf : List UInt8} {r : Create3res}
    (hrun : createExists w dir obj verf rq s = (.ok r, s')) (hok : r.status = .ok) :
    ∃ fd k' buf, w.sys (reopenCall obj) s.kernel = (.ok fd, k') ∧ w.fstat k' fd = .ok buf ∧
      checkCreateVerifier buf verf = true ∧ s'.kernel = (w.sys (.close fd) k').2 ∧
      r.obj = newHandle w s' dir buf := by
  obtain ⟨s1, h1, -, ker1⟩ := sys_ends (w := w) (reopenCall obj) s
  rw [createExists, ← reopenCall, Prog.bind_ok h1] at hrun
  by_cases hfd : sysResult w (reopenCall obj) s.kernel = -1
  · rw [if_neg (not_not_intro hfd)] at hrun
    cases hrun
    exact absurd hok (createErr_ne_ok _)
  · rw [if_pos hfd] at hrun
    cases hf : w.fstat (w.sys (reopenCall obj) s.kernel).2
        (sysResult w (reopenCall obj) s.kernel) with
    | error err =>
      rw [Prog.bind_ok (query_error (by rw [ker1, hf]))] at hrun
      cases hrun
      exact absurd hok (createErr_ne_ok _)
    | ok buf =>
      rw [Prog.bind_ok (query_ok (by rw [ker1, hf]))] at hrun
      dsimp only at hrun
      rw [Prog.ite_run] at hrun
      by_cases hv : checkCreateVerifier buf verf = true
      · rw [if_pos hv] at hrun
        obtain ⟨⟨fh, post⟩, s2, h2, hrun⟩ := Prog.bind_eq_ok hrun
        cases hrun
        obtain ⟨hfh, ker2⟩ := createdObj_made h2
        exact ⟨_, _, buf, Prod.ext (sysResult_ok hfd) rfl, hf, hv, by rw [ker2, ker1], hfh⟩
      · rw [if_neg hv] at hrun
        cases hrun
        cases hok

/-! ## The first request -/

theorem checkCreateVerifier_times {b : Stat} {verf : List UInt8} :
    checkCreateVerifier b verf = true ↔
      b.atime = verfTime verf ∧ b.mtime = verfTime (verf.drop 4) := by
  rw [checkCreateVerifier, Bool.and_eq_true, beq_iff_eq, beq_iff_eq]

/-- An exclusive CREATE that succeeds leaves a file that carries its verifier and has the handle
that is sent. -/
theorem createFinish_left (hw : FileCalls w) {dir : NfsFh3} {verf : List UInt8} {r : Create3res}
    {k : L} (hk : s.kernel = (w.sys (openCall obj (.exclusive verf) unset) k).2)
    (hrun : createFinish w dir obj (.exclusive verf) .ok
      (sysResult w (openCall obj (.exclusive verf) unset) k) rq s = (.ok r, s'))
    (hok : r.status = .ok) :
    ∃ b, w.stat s'.kernel obj = .ok b ∧ checkCreateVerifier b verf = true ∧
      r.obj = newHandle w s' dir b := by
  rw [createFinish, Prog.ite_run] at hrun
  by_cases hfd : sysResult w (openCall obj (.exclusive verf) unset) k ≠ -1
  · rw [if_pos hfd] at hrun
    obtain ⟨buf, v, k', hf, htime, hk', hobj⟩ := createOpened_made hrun hok
    have hstat : w.stat s.kernel obj = .ok buf := by
      rw [← hf]
      exact (hw.names (Prod.ext (sysResult_ok hfd) hk.symm)).symm
    obtain ⟨b, hb, hdev, hino⟩ := hw.keeps htime hstat
    refine ⟨b, ?_, checkCreateVerifier_times.2 (hw.times _ _ _ _ _ _ htime b hb), ?_⟩
    · rw [hk', hw.closes.1, hb]
    · rw [hobj]
      exact newHandle_congr rfl rfl hdev.symm hino.symm
  · rw [if_neg hfd, if_pos rfl, Prog.get_bind_run] at hrun
    dsimp only at hrun
    rw [Prog.ite_run] at hrun
    by_cases herr : s.errno = .eexist
    · rw [if_pos herr] at hrun
      obtain ⟨fd, k', buf, hopen, hf, hv, hk', hobj⟩ := createExists_made hrun hok
      refine ⟨buf, ?_, hv, hobj⟩
      rw [hk', hw.closes.1, ← hw.names hopen, hf]
    · rw [if_neg herr] at hrun
      cases hrun
      exact absurd hok (createErr_ne_ok _)

/-! ## The file is there -/

theorem createErr_eq_exist {er : Errno} : createErr er = .exist ↔ er = .eexist := by
  constructor
  · intro h
    cases er <;> simp [createErr, isStale] at h ⊢
  · rintro rfl
    rfl

/-- The status of the attempt to open a file that is there. -/
theorem existsStatus_there (hk : KernelReturns w) (hw : FileCalls w) {k : L} {b : Stat}
    (hb : w.stat k obj = .ok b) (verf : List UInt8) :
    existsStatus w obj verf k .eexist = thereStatus w obj b verf k .eexist := by
  have hneg := hk.sysResult (reopenCall obj) k
  rw [existsStatus, ← reopenCall, thereStatus, if_pos rfl]
  cases herr : sysError w (reopenCall obj) k with
  | some er =>
    rw [if_pos (hneg.2 (by rw [herr]; rfl)), sysErrno_eq, herr]
    rfl
  | none =>
    have hfd : sysResult w (reopenCall obj) k ≠ -1 := fun h => by
      have := hneg.1 h
      rw [herr] at this
      cases this
    have hf : w.fstat (w.sys (reopenCall obj) k).2 (sysResult w (reopenCall obj) k) = .ok b := by
      unfold reopenCall at hfd ⊢
      rw [hw.names (Prod.ext (sysResult_ok hfd) rfl), ← hb]
      exact congrFun (hw.opens _ _ _ _ rfl rfl).1 obj
    rw [if_neg hfd, hf]

theorem thereStatus_eq_ok {b : Stat} {verf : List UInt8} {k : L} {x : Errno} :
    thereStatus w obj b verf k x = .ok ↔
      x = .eexist ∧ sysError w (reopenCall obj) k = none ∧ checkCreateVerifier b verf = true := by
  unfold thereStatus
  by_cases hx : x = .eexist
  · rw [if_pos hx]
    cases herr : sysError w (reopenCall obj) k <;> simp [hx]
  · simp [hx]

theorem thereStatus_eq_exist (hw : FileCalls w) {b : Stat} {verf : List UInt8} {k : L} {x : Errno} :
    thereStatus w obj b verf k x = .exist ↔
      x = .eexist ∧ sysError w (reopenCall obj) k = none ∧ ¬ checkCreateVerifier b verf = true := by
  unfold thereStatus
  by_cases hx : x = .eexist
  · rw [if_pos hx]
    cases herr : sysError w (reopenCall obj) k with
    | some er =>
      have hne : er ≠ .eexist := fun h => hw.absent rfl (herr.trans (congrArg some h))
      simp [createErr_eq_exist, hne]
    | none => simp [hx]
  · simp [hx, createErr_eq_exist]

/-- What an exclusive CREATE does after its open has found the file. -/
theorem createFinish_there (hk : KernelReturns w) (hw : FileCalls w) {dir : NfsFh3}
    {verf : List UInt8} {b : Stat} {r : Create3res} (hb : w.stat s.kernel obj = .ok b)
    (hrun : createFinish w dir obj (.exclusive verf) .ok (-1) rq s = (.ok r, s')) :
    r.status = thereStatus w obj b verf s.kernel s.errno ∧
      (r.status = .ok → r.obj = newHandle w s dir b) ∧ w.tree s'.kernel = w.tree s.kernel := by
  obtain ⟨r', t, hrun', hstatus⟩ := createFinish_run (w := w) dir obj (.exclusive verf) .ok (-1)
    rq s
  have hsame := hrun'.symm.trans hrun
  obtain ⟨⟨⟨⟩⟩, rfl⟩ := Prod.mk.inj hsame
  rw [finishStatus, if_neg (by decide), if_pos rfl] at hstatus
  rw [createFinish, if_neg (by decide), if_pos rfl, Prog.get_bind_run] at hrun
  dsimp only at hstatus hrun
  rw [Prog.ite_run] at hrun
  by_cases herr : s.errno = .eexist
  · rw [if_pos herr] at hrun
    rw [if_pos herr, herr, existsStatus_there hk hw hb, ← herr] at hstatus
    have f : Foot w (fun ev => ev.mutates = false) s t := (createExists_frame (w := w)
      (E := fun ev => ev.mutates = false) (fun c hc => hc) (fun _ _ => fhCacheAdd_foot _ _ _) dir
      verf rq).ok hrun
    refine ⟨hstatus, fun hok => ?_, f.ran.tree fun c hc => hc.1⟩
    obtain ⟨fd, k', buf, hopen, hf, -, hk', hobj⟩ := createExists_made hrun hok
    have hopens := hw.opens obj { access := .rdonly, nonblock := true } 0 s.kernel rfl rfl
    rw [← reopenCall, hopen] at hopens
    have hbuf : buf = b := by
      have hstat := hw.names hopen
      rw [hf, hopens.1, hb] at hstat
      exact Except.ok.inj hstat
    rw [hobj, hbuf]
    exact newHandle_congr (dirHandle_congr (by rw [hk', hw.closes.2, hopens.2]) f.exportList dir)
      (by rw [f.exports]) rfl rfl
  · rw [if_neg herr] at hrun hstatus
    cases hrun
    refine ⟨?_, fun hok => absurd hok (createErr_ne_ok _), rfl⟩
    rw [thereStatus, if_neg herr]

/-- **An exclusive CREATE of a file that is there** changes neither it nor the object in iRODS, and
if it succeeds it sends the file's handle. -/
theorem createBody_there (hk : KernelReturns w) (hw : FileCalls w) (hr : CreatesOnce w)
    {args : Diropargs3} {verf : List UInt8} {b : Stat} (h : s.exports.path = some e)
    (hc : Connects w rq)
    (hst : createStatus w s (catName (some d) args.name).1 (.exclusive verf) = .ok)
    (hobj : bufPath w e rq.uid (some d) args.name unset = obj) (hb : w.stat s.kernel obj = .ok b) :
    ∃ r s', createBody w d args (.exclusive verf) rq unset s = (.ok r, s') ∧
      r.status = thereStatus w obj b verf s.kernel
        (createErrno w d args.name (.exclusive verf) rq unset s) ∧
      (r.status = .ok → r.obj = newHandle w s args.dir b) ∧
      w.tree s'.kernel = w.tree s.kernel ∧
      ∀ x, w.store s.rods (targetName w e rq.uid obj) = some x →
        w.store s'.rods (targetName w e rq.uid obj) = some x := by
  obtain ⟨r, s', hrun, hstore, -⟩ := createBody_ends (w := w) h hc.1 hc.2 d args (.exclusive verf)
    unset
  obtain ⟨s1, s2, result, a1, herr, -, h2, f2, hstatus, hfh⟩ := createBody_parts h hst hrun
  rw [hobj] at hstore a1 h2
  obtain ⟨hfail, hkeep⟩ := hw.refuses obj (Createhow3.flags (.exclusive verf))
    (createMode (Createhow3.attr (.exclusive verf) unset.attr)) s.kernel b rfl rfl hb
  have hfd : sysResult w (openCall obj (.exclusive verf) unset) s.kernel = -1 :=
    (hk.sysResult _ _).2 hfail
  have hker1 : s1.kernel = s.kernel := a1.kernel.trans hkeep
  rw [hfd] at h2
  obtain ⟨hthere, hhandle, htree⟩ := createFinish_there hk hw (by rw [hker1, hb]) h2
  have hker : s'.kernel = s2.kernel := f2.ran.kernel_eq fun _ hn => hn.1
  refine ⟨r, s', hrun, ?_, fun hok => ?_, ?_, fun x hx => ?_⟩
  · rw [hstatus, hthere, hker1, herr]
  · rw [hfh, hhandle (hstatus ▸ hok)]
    exact newHandle_congr (dirHandle_congr (by rw [hker1]) (by rw [a1]) args.dir)
      (by rw [a1.exports]) rfl rfl
  · rw [hker, htree, hker1]
  · have hthere := hr (session w e rq.uid s.rods).1
      { objPath := targetName w e rq.uid obj, createMode := 0o750, dataSize := 12345
        access := .wronly, resc := defResource w }
      (session w e rq.uid s.rods).2 (by rw [session_store, hx]; rfl)
    rw [hstore, ← hx, ← session_store (w := w) e rq.uid s.rods]
    exact hthere

end

/-! ## The request that comes again -/

section
variable {L R : Type} (w : World L R)

/-- The mirror's path of the file `name` in the directory `d`. -/
def filePath (rq : SvcReq) (d name : CStr) (s : Server L R) : CStr :=
  realPath w (exportPath s) rq.uid (childPath d name)

/-- The iRODS path of the file. -/
def fileName (rq : SvcReq) (d name : CStr) (s : Server L R) : CStr :=
  targetName w (exportPath s) rq.uid (filePath w rq d name s)

/-- A first exclusive CREATE succeeds: `PREP` finds the directory `d` and leaves `t`, and the
request leaves `s1` and replies `r`. -/
structure Granted (rq : SvcReq) (args : Diropargs3) (verf : List UInt8) (s : Server L R) (d : CStr)
    (t : Server L R) (r : Create3res) (s1 : Server L R) : Prop where
  prep : prep w args.dir rq s = (.ok (.ok d), t)
  run : nfsProgram w rq (.create args (.exclusive verf)) s = (.ok (.create r), s1)
  ok : r.status = .ok

/-- The client comes again in `s2`, where `PREP` finds the same directory and leaves `t2`: under the
same export, which is still writable, and with the directory and the object as they were left. -/
structure Again (rq : SvcReq) (args : Diropargs3) (d : CStr) (t s1 s2 t2 : Server L R) : Prop where
  prep : NfsRods.prep w args.dir rq s2 = (.ok (.ok d), t2)
  path : exportPath t2 = exportPath t
  writable : exportsRw t2.exports = .ok
  password : t2.exports.passwordHash = s1.exports.passwordHash
  dir : dirHandle w t2 args.dir = dirHandle w s1 args.dir
  object : w.stat t2.kernel (filePath w rq d args.name t) =
    w.stat s1.kernel (filePath w rq d args.name t)

/-- The request that comes again succeeds with the same handle, and leaves the local tree and the
object in iRODS as they are. -/
def AnsweredAgain (rq : SvcReq) (args : Diropargs3) (verf : List UInt8) (name : CStr)
    (r : Create3res) (s2 : Server L R) : Prop :=
  ∃ r' s3, nfsProgram w rq (.create args (.exclusive verf)) s2 = (.ok (.create r'), s3) ∧
    r'.status = .ok ∧ r'.obj = r.obj ∧ w.tree s3.kernel = w.tree s2.kernel ∧
    ∀ x, w.store s2.rods name = some x → w.store s3.rods name = some x

/-- A request with another verifier is told that the file exists. -/
def RefusedAgain (rq : SvcReq) (args : Diropargs3) (verf : List UInt8) (s2 : Server L R) : Prop :=
  ∃ r' s3, nfsProgram w rq (.create args (.exclusive verf)) s2 = (.ok (.create r'), s3) ∧
    r'.status = .exist

/-- Where nothing is in the tree of `k`, the event creates a file with no other mode. -/
def OpensWith (k : L) (mode : Nat) (ev : Event) : Prop :=
  ∀ p flags m, ev = .sys (.open_ p flags m) → flags.creat = true → w.tree k p = none → m = mode

/-- The file is created with one mode, whatever is in unset memory. -/
def SteadyMode (rq : SvcReq) (args : Diropargs3) (verf : List UInt8) (s : Server L R) : Prop :=
  ∃ mode, ∀ f j, Only (OpensWith w s.kernel mode)
    (nfsProgram (w.having f j) rq (.create args (.exclusive verf))) s

/-- **An exclusive CREATE is idempotent**, whatever library calls leave in `errno` and whatever is
in unset memory. -/
structure ExclusiveIdempotent (rq : SvcReq) (args : Diropargs3) (verf : List UInt8) : Prop where
  repeated : ∀ s d t r s1 s2 t2, Granted w rq args verf s d t r s1 →
    Again w rq args d t s1 s2 t2 →
    ∀ f j, AnsweredAgain (w.having f j) rq args verf (fileName w rq d args.name t) r s2
  refused : ∀ s d t r s1 s2 t2, Granted w rq args verf s d t r s1 →
    Again w rq args d t s1 s2 t2 →
    ∀ f j verf', verf'.length = 8 → verf' ≠ verf → RefusedAgain (w.having f j) rq args verf' s2
  steady : ∀ s, SteadyMode w rq args verf s

/-- What the request that comes again with `verf` finds in `errno`. -/
def againErrno (f : Nat → Errno → Errno) (j : Nat → Junk) (rq : SvcReq) (args : Diropargs3)
    (d : CStr) (verf : List UInt8) (s2 t2 : Server L R) : Errno :=
  createErrno (w.having f j) d args.name (.exclusive verf) rq (j s2.tick) t2

end

section
variable {L R : Type} {w : World L R} {s s1 s2 t t2 : Server L R} {d : CStr} {rq : SvcReq}
  {args : Diropargs3} {verf : List UInt8} {r : Create3res}

theorem create_request {how : Createhow3} (hp : prep w args.dir rq s = (.ok (.ok d), t)) :
    nfsProgram w rq (.create args how) s =
      replyWith .create (createBody w d args how rq (w.junk s.tick)) t := by
  have hop : prep w (PathOp.create args how).args.dir rq s = (.ok (.ok d), t) := hp
  exact PathOp.request_body hop

theorem KernelReturns.having (h : KernelReturns w) (f : Nat → Errno → Errno) (j : Nat → Junk) :
    KernelReturns (w.having f j) := ⟨h.failed, h.synced⟩

theorem FileCalls.having (h : FileCalls w) (f : Nat → Errno → Errno) (j : Nat → Junk) :
    FileCalls (w.having f j) :=
  ⟨h.names, h.refuses, h.keeps, h.times, h.opens, h.closes, h.absent⟩

/-- What the first request has left. -/
theorem Granted.left (hw : FileCalls w) (g : Granted w rq args verf s d t r s1) :
    Connects w rq ∧ Accepted d args.name ∧ ∃ b,
      w.stat s1.kernel (filePath w rq d args.name t) = .ok b ∧
      checkCreateVerifier b verf = true ∧ r.obj = newHandle w s1 args.dir b := by
  obtain ⟨e, he⟩ := prep_path g.prep
  obtain rfl := exportPath_eq he
  obtain ⟨r', hbody, ⟨⟩⟩ := replyWith_ok ((create_request g.prep).symm.trans g.run)
  have hc : Connects w rq := (createBody_conducted he hbody).1
  obtain ⟨x, -, hstatus⟩ := createBody_status he hbody
  by_cases hst : createStatus w t (catName (some d) args.name).1 (.exclusive verf) = .ok
  · have ha : Accepted d args.name := (catName_rw_iff.1 hst).1
    obtain ⟨t1, t2, result, a1, -, -, h2, f2, hr, hobj⟩ := createBody_parts he hst hbody
    rw [bufPath_accepted ha] at a1 h2
    obtain ⟨b, hb, hcheck, hfh⟩ := createFinish_left hw a1.kernel h2 (hr ▸ g.ok)
    have hker : s1.kernel = t2.kernel := f2.ran.kernel_eq fun _ h => h.1
    refine ⟨hc, ha, b, by rw [hker]; exact hb, hcheck, ?_⟩
    rw [hobj, hfh, newHandle_foot f2]
  · have hsoFar : (PathOp.create args (.exclusive verf)).soFar w rq d t ≠ .ok := hst
    rw [PathOp.statusWith_refused hsoFar, g.ok] at hstatus
    exact absurd hstatus.symm hst

/-- **The request that comes again** finds the file there. -/
theorem Granted.again (hk : KernelReturns w) (hw : FileCalls w) (hr : CreatesOnce w)
    (g : Granted w rq args verf s d t r s1) (again : Again w rq args d t s1 s2 t2) :
    ∃ b, checkCreateVerifier b verf = true ∧ ∀ f j verf', ∃ r' s3,
      nfsProgram (w.having f j) rq (.create args (.exclusive verf')) s2 = (.ok (.create r'), s3) ∧
      r'.status = thereStatus w (filePath w rq d args.name t) b verf' t2.kernel
        (againErrno w f j rq args d verf' s2 t2) ∧
      (r'.status = .ok → r'.obj = r.obj) ∧ w.tree s3.kernel = w.tree s2.kernel ∧
      ∀ x, w.store s2.rods (fileName w rq d args.name t) = some x →
        w.store s3.rods (fileName w rq d args.name t) = some x := by
  obtain ⟨hc, ha, b, hb, hcheck, hobj⟩ := g.left hw
  refine ⟨b, hcheck, fun f j verf' => ?_⟩
  obtain ⟨e, he⟩ := prep_path again.prep
  obtain rfl := exportPath_eq he
  have hst : createStatus (w.having f j) t2 (catName (some d) args.name).1 (.exclusive verf') =
      .ok := catName_rw_iff.2 ⟨ha, again.writable⟩
  have hpath : bufPath (w.having f j) (exportPath t2) rq.uid (some d) args.name (j s2.tick) =
      filePath w rq d args.name t := by
    rw [bufPath_accepted ha, again.path]
    rfl
  obtain ⟨r', s3, hrun, hstatus, hfh, htree, hstore⟩ := createBody_there (w := w.having f j)
    (hk.having f j) (hw.having f j) hr he hc hst hpath (again.object.trans hb)
  have ran : Ran w (fun ev => ev.mutates = false) s2 t2 := by
    have hprep := prep_ran (w := w) (E := fun ev => ev.mutates = false)
      (fun c hc => SysCall.setsId_calm hc) args.dir rq s2
    rwa [again.prep] at hprep
  refine ⟨r', s3, ?_, hstatus, fun hok => ?_, ?_, fun x hx => ?_⟩
  · exact (create_request (w := w.having f j)
      ((congrFun (prep_having f j args.dir rq) s2).trans again.prep)).trans (replyWith_run hrun)
  · rw [hfh hok, hobj]
    have hlstat : (w.having f j).lstat t2.kernel = w.lstat t2.kernel := rfl
    exact newHandle_congr ((dirHandle_congr hlstat rfl args.dir).trans again.dir) again.password
      rfl rfl
  · exact htree.trans (ran.tree fun c hc => hc)
  · rw [again.path] at hstore
    exact hstore x (by rw [← hx]; exact congrFun (ran.store fun c hc => hc) _)

/-- It is answered as before exactly when it finds `EEXIST` in `errno` and can open the file. -/
theorem Granted.answered_iff (hk : KernelReturns w) (hw : FileCalls w) (hr : CreatesOnce w)
    (g : Granted w rq args verf s d t r s1) (again : Again w rq args d t s1 s2 t2)
    (f : Nat → Errno → Errno) (j : Nat → Junk) :
    AnsweredAgain (w.having f j) rq args verf (fileName w rq d args.name t) r s2 ↔
      againErrno w f j rq args d verf s2 t2 = .eexist ∧
        sysError w (reopenCall (filePath w rq d args.name t)) t2.kernel = none := by
  obtain ⟨b, hcheck, hagain⟩ := g.again hk hw hr again
  obtain ⟨r', s3, hrun, hstatus, hfh, htree, hstore⟩ := hagain f j verf
  have hok : r'.status = .ok ↔ againErrno w f j rq args d verf s2 t2 = .eexist ∧
      sysError w (reopenCall (filePath w rq d args.name t)) t2.kernel = none := by
    rw [hstatus, thereStatus_eq_ok, and_iff_left hcheck]
  rw [← hok]
  constructor
  · intro h
    obtain ⟨r'', s3', hrun', hok', -⟩ := h
    have hsame := hrun.symm.trans hrun'
    obtain ⟨⟨⟨⟩⟩, rfl⟩ := Prod.mk.inj hsame
    exact hok'
  · intro h
    exact ⟨r', s3, hrun, h, hfh h, htree, hstore⟩

/-- Another verifier is refused exactly when the two are told apart, too. -/
theorem Granted.refused_iff (hk : KernelReturns w) (hw : FileCalls w) (hr : CreatesOnce w)
    (g : Granted w rq args verf s d t r s1) (again : Again w rq args d t s1 s2 t2)
    (f : Nat → Errno → Errno) (j : Nat → Junk) {verf' : List UInt8} (hlen : verf.length = 8)
    (hlen' : verf'.length = 8) (hne : verf' ≠ verf) :
    RefusedAgain (w.having f j) rq args verf' s2 ↔
      againErrno w f j rq args d verf' s2 t2 = .eexist ∧
        sysError w (reopenCall (filePath w rq d args.name t)) t2.kernel = none ∧
        Distinguished verf verf' := by
  obtain ⟨b, hcheck, hagain⟩ := g.again hk hw hr again
  obtain ⟨r', s3, hrun, hstatus, -⟩ := hagain f j verf'
  obtain ⟨hatime, hmtime⟩ := checkCreateVerifier_times.1 hcheck
  have htold : ¬ checkCreateVerifier b verf' = true ↔ Distinguished verf verf' := by
    rw [checkCreateVerifier_iff hlen hlen' hatime hmtime, Classical.not_and_iff_not_or_not,
      Distinguished, or_iff_right hne.symm]
  rw [← htold, ← thereStatus_eq_exist hw, ← hstatus]
  constructor
  · intro h
    obtain ⟨r'', s3', hrun', hexist⟩ := h
    have hsame := hrun.symm.trans hrun'
    obtain ⟨⟨⟨⟩⟩, rfl⟩ := Prod.mk.inj hsame
    exact hexist
  · intro h
    exact ⟨r', s3, hrun, h⟩

/-- A library call before the check can have left any value. -/
theorem Granted.againErrno_eq (hw : FileCalls w) (g : Granted w rq args verf s d t r s1)
    (again : Again w rq args d t s1 s2 t2) (x : Errno) (j : Nat → Junk) (verf' : List UInt8) :
    againErrno w (fun _ _ => x) j rq args d verf' s2 t2 = x := by
  obtain ⟨hc, -⟩ := g.left hw
  obtain ⟨e, he⟩ := prep_path again.prep
  obtain ⟨u1, h1, tacit1⟩ := rewriteName_ends (w := w.having (fun _ _ => x) j) he (some d) args.name
    rq.uid (j s2.tick)
  obtain ⟨u2, h2, k2, -⟩ := sys_ends (w := w.having (fun _ _ => x) j)
    (openCall (bufPath (w.having (fun _ _ => x) j) e rq.uid (some d) args.name (j s2.tick))
      (.exclusive verf') (j s2.tick)) u1
  have he2 : u2.exports.path = some e := by rw [k2.exports, tacit1.exports, he]
  obtain ⟨u3, h3, -⟩ := remoteStep_ends (w := w.having (fun _ _ => x) j) he2 hc.1 hc.2
    (createFile (w.having (fun _ _ => x) j))
    (bufPath (w.having (fun _ _ => x) j) e rq.uid (some d) args.name (j s2.tick))
  obtain ⟨_, _, hx⟩ := (remoteStep_inv he2 h3).2
  rw [againErrno, createErrno, Prog.bind_ok h1, Prog.bind_ok h2, h3]
  exact hx.symm

/-! ## The mode -/

theorem createBody_opens {P : Event → Prop} {how : Createhow3} {e : CStr} {unset : Junk}
    (hcalm : ∀ ev, ev.calm = true → P ev) (ha : ∀ f n, P (.toArray f n)) (hr : ∀ c, P (.rods c))
    (hu : ∀ p actime modtime, P (.sys (.utime p actime modtime))) (h : s.exports.path = some e) :
    Only P (createBody w d args how rq unset) s ↔
      (createStatus w s (catName (some d) args.name).1 how = .ok →
        P (.sys (openCall (bufPath w e rq.uid (some d) args.name unset) how unset))) := by
  rw [Only, createBody, Prog.get_bind_run]
  obtain ⟨s1, t1, hor⟩ := rewriteName_only (w := w) hcalm ha rq h (some d) args.name unset
    fun obj => Foot.frame_grows (w := w) (createAct_foot (E := fun _ => True) (fun _ _ => trivial)
      (fun _ => trivial) (fun _ => trivial) d args how rq unset.attr
      (createStatus w s (catName (some d) args.name).1 how) obj)
  refine hor.trans ?_
  rw [createAct_only hcalm (by rw [t1.exports, h]) hu]
  exact and_iff_left fun _ => hr _

/-- The mode is what the unset attributes have. -/
theorem opensWith_iff (f : Nat → Errno → Errno) (j : Nat → Junk) (mode : Nat) :
    Only (OpensWith w s.kernel mode)
        (nfsProgram (w.having f j) rq (.create args (.exclusive verf))) s ↔
      ∀ d t, prep w args.dir rq s = (.ok (.ok d), t) → Accepted d args.name →
        exportsRw t.exports = .ok → w.tree s.kernel (filePath w rq d args.name t) = none →
          createMode (j s.tick).attr = mode := by
  have hcalm : ∀ ev : Event, ev.calm = true → OpensWith w s.kernel mode ev := by
    rintro ev hev p flags m rfl hcreat
    simp [Event.calm, Event.mutates, SysCall.mutates, hcreat] at hev
  have hone := (PathOp.create args (.exclusive verf)).only_iff (w := w.having f j)
    (P := OpensWith w s.kernel mode) (fun c hc => hcalm _ (by simp [Event.calm, Event.mutates, hc]))
    rq s
  refine hone.trans (forall₂_congr fun d t => ?_)
  rw [prep_having]
  refine imp_congr_right fun hp => ?_
  obtain ⟨e, he⟩ := prep_path hp
  obtain rfl := exportPath_eq he
  rw [Only, PathOp.body, replyWith_snd]
  refine (createBody_opens (w := w.having f j) hcalm (fun _ _ => by rintro _ _ _ ⟨⟩)
    (fun _ => by rintro _ _ _ ⟨⟩) (fun _ _ _ => by rintro _ _ _ ⟨⟩) he).trans ?_
  constructor
  · intro h ha hrw hnone
    refine h (catName_rw_iff.2 ⟨ha, hrw⟩) _ _ _ rfl rfl ?_
    rw [bufPath_accepted ha]
    exact hnone
  · intro h hst p flags m hev _ hnone
    obtain ⟨ha, hrw⟩ := catName_rw_iff.1 hst
    rw [bufPath_accepted ha] at hev
    cases hev
    exact h ha hrw hnone

/-- Files are created with one mode exactly when none is: the request is refused, or its path is
there. -/
theorem steadyMode_iff (w : World L R) (rq : SvcReq) (args : Diropargs3) (verf : List UInt8)
    (s : Server L R) :
    SteadyMode w rq args verf s ↔ ∀ d t, prep w args.dir rq s = (.ok (.ok d), t) →
      Accepted d args.name → exportsRw t.exports = .ok →
        (w.tree s.kernel (filePath w rq d args.name t)).isSome := by
  simp only [SteadyMode, opensWith_iff]
  constructor
  · intro h d t hp ha hrw
    obtain ⟨mode, hmode⟩ := h
    rw [← Option.ne_none_iff_isSome]
    intro hnone
    have hzero := hmode w.errnoAfter (fun _ => { attr := { mode := some 0 } }) d t hp ha hrw hnone
    have hone := hmode w.errnoAfter (fun _ => { attr := { mode := some 1 } }) d t hp ha hrw hnone
    exact absurd (hzero.trans hone.symm) (by decide)
  · intro h
    refine ⟨0, fun _ j d t hp ha hrw hnone => ?_⟩
    have hsome := h d t hp ha hrw
    rw [hnone] at hsome
    cases hsome

end

/-- **An exclusive CREATE is idempotent** exactly when no request that succeeds ever comes again and
none creates a file. One that comes again is answered as before exactly when library calls have left
`EEXIST` in `errno`, where they can leave anything, and the file can be opened; another verifier is
refused when, besides, the two are told apart; and the mode is that of unset memory. -/
theorem exclusive_idempotent_iff {L R : Type} (w : World L R) (hk : KernelReturns w)
    (hw : FileCalls w) (hr : CreatesOnce w) (rq : SvcReq) (args : Diropargs3) (verf : List UInt8)
    (hlen : verf.length = 8) :
    (ExclusiveIdempotent w rq args verf ↔
      (∀ s d t r s1 s2 t2, Granted w rq args verf s d t r s1 → ¬ Again w rq args d t s1 s2 t2) ∧
      ∀ s d t, prep w args.dir rq s = (.ok (.ok d), t) → Accepted d args.name →
        exportsRw t.exports = .ok → (w.tree s.kernel (filePath w rq d args.name t)).isSome) ∧
    (∀ s d t r s1 s2 t2, Granted w rq args verf s d t r s1 → Again w rq args d t s1 s2 t2 →
      (∀ f j, AnsweredAgain (w.having f j) rq args verf (fileName w rq d args.name t) r s2 ↔
        againErrno w f j rq args d verf s2 t2 = .eexist ∧
          sysError w (reopenCall (filePath w rq d args.name t)) t2.kernel = none) ∧
      (∀ f j verf', verf'.length = 8 → verf' ≠ verf →
        (RefusedAgain (w.having f j) rq args verf' s2 ↔
          againErrno w f j rq args d verf' s2 t2 = .eexist ∧
            sysError w (reopenCall (filePath w rq d args.name t)) t2.kernel = none ∧
            Distinguished verf verf')) ∧
      ∀ x j verf', againErrno w (fun _ _ => x) j rq args d verf' s2 t2 = x) ∧
    ∀ s, SteadyMode w rq args verf s ↔ ∀ d t, prep w args.dir rq s = (.ok (.ok d), t) →
      Accepted d args.name → exportsRw t.exports = .ok →
        (w.tree s.kernel (filePath w rq d args.name t)).isSome := by
  refine ⟨⟨fun h => ⟨fun s d t r s1 s2 t2 g again => ?_, fun s => ?_⟩, fun h => ?_⟩,
    fun s d t r s1 s2 t2 g again => ⟨g.answered_iff hk hw hr again,
      fun f j verf' hlen' hne => g.refused_iff hk hw hr again f j hlen hlen' hne,
      g.againErrno_eq hw again⟩, steadyMode_iff w rq args verf⟩
  · have hanswered := h.repeated s d t r s1 s2 t2 g again (fun _ _ => .eio) w.junk
    rw [g.answered_iff hk hw hr again, g.againErrno_eq hw again] at hanswered
    exact absurd hanswered.1 (by decide)
  · exact (steadyMode_iff w rq args verf s).1 (h.steady s)
  · obtain ⟨hnone, hmode⟩ := h
    exact ⟨fun s d t r s1 s2 t2 g again => absurd again (hnone s d t r s1 s2 t2 g),
      fun s d t r s1 s2 t2 g again => absurd again (hnone s d t r s1 s2 t2 g),
      fun s => (steadyMode_iff w rq args verf s).2 (hmode s)⟩

/-! ## An exclusive CREATE in a small world -/

theorem driveWorld_returns : KernelReturns Sandbox.driveWorld := by
  constructor
  · intro c k v h
    change (Sandbox.Drive.sysCall c k).1 = .ok v at h
    cases c
    all_goals simp only [Sandbox.Drive.sysCall] at h
    all_goals repeat' split at h
    all_goals first | cases h; decide | cases h
  · intro k fd v h
    change (Sandbox.Drive.sysCall (.fsync fd) k).1 = .ok v at h
    cases h
    rfl

theorem drive_find {k : Sandbox.Drive} {p : CStr} {b : Stat} :
    k.find p = .ok b ↔ k.files.lookup p = some b := by
  rw [Sandbox.Drive.find]
  cases k.files.lookup p <;> simp

/-- Opening without creating changes no file. -/
theorem drive_open {p : CStr} {flags : OpenFlags} {mode : Nat} {k : Sandbox.Drive}
    (h : flags.creat = false) :
    (Sandbox.Drive.sysCall (.open_ p flags mode) k).2.files = k.files ∧
      (Sandbox.Drive.sysCall (.open_ p flags mode) k).1 ≠ .error .eexist := by
  simp only [Sandbox.Drive.sysCall, h]
  cases k.files.lookup p with
  | none => simp
  | some b => by_cases hread : b.mode &&& 0o400 = 0 <;> simp [hread]

/-- A descriptor refers to the path that was opened. -/
theorem drive_opened {p : CStr} {flags : OpenFlags} {mode : Nat} {k k' : Sandbox.Drive} {fd : Int}
    (h : Sandbox.Drive.sysCall (.open_ p flags mode) k = (.ok fd, k')) : k'.opened = p := by
  rw [Sandbox.Drive.sysCall] at h
  split at h
  · split at h
    · cases h
    · split at h <;> cases h
      rfl
  · split at h <;> cases h
    rfl

theorem drive_utime {p : CStr} {actime modtime v : Int} {k k' : Sandbox.Drive}
    (h : Sandbox.Drive.sysCall (.utime p actime modtime) k = (.ok v, k')) :
    k'.files.lookup p =
      (k.files.lookup p).map fun b => { b with atime := actime, mtime := modtime } := by
  rw [Sandbox.Drive.sysCall] at h
  split at h <;> cases h
  have hset := lookup_map_value p (fun q (b : Stat) => if q = p then
    { b with atime := actime, mtime := modtime } else b) k.files
  simpa using hset

theorem driveWorld_calls : FileCalls Sandbox.driveWorld where
  names := by
    intro path flags mode k fd k' h
    show k'.find k'.opened = k'.find path
    rw [drive_opened h]
  refuses := by
    intro path flags mode k b hcreat hexcl hb
    have hsys : Sandbox.Drive.sysCall (.open_ path flags mode) k = (.error .eexist, k) := by
      simp [Sandbox.Drive.sysCall, drive_find.1 hb, hcreat, hexcl]
    rw [sysError, show Sandbox.driveWorld.sys (.open_ path flags mode) k = _ from hsys]
    exact ⟨rfl, rfl⟩
  keeps := by
    intro path actime modtime k v k' b h hb
    have hset := drive_utime h
    rw [drive_find.1 hb] at hset
    exact ⟨_, drive_find.2 hset, rfl, rfl⟩
  times := by
    intro obj actime modtime k v k' h buf hbuf
    have hset := drive_utime h
    rw [drive_find.1 hbuf] at hset
    obtain ⟨b, -, rfl⟩ := Option.map_eq_some_iff.1 hset.symm
    exact ⟨rfl, rfl⟩
  opens := by
    intro path flags mode k hcreat _
    have hfind : (Sandbox.Drive.sysCall (.open_ path flags mode) k).2.find = k.find := by
      funext p
      rw [Sandbox.Drive.find, (drive_open hcreat).1, Sandbox.Drive.find]
    exact ⟨hfind, hfind⟩
  closes := ⟨rfl, rfl⟩
  absent := by
    intro path flags mode k hcreat h
    have hne : (Sandbox.Drive.sysCall (.open_ path flags mode) k).1 ≠ .error .eexist :=
      (drive_open hcreat).2
    have hsys : Sandbox.driveWorld.sys (.open_ path flags mode) k =
      Sandbox.Drive.sysCall (.open_ path flags mode) k := rfl
    rw [sysError, hsys] at h
    cases hc : (Sandbox.Drive.sysCall (.open_ path flags mode) k).1 with
    | ok v => simp [hc] at h
    | error er =>
      rw [hc] at h hne
      exact hne (congrArg Except.error (Option.some.inj h))

theorem driveWorld_creates : CreatesOnce Sandbox.driveWorld := by
  intro comm inp r h
  have hkept : (Sandbox.rodsCall (.rcDataObjCreate comm inp) r).2 = r := by
    rw [Sandbox.rodsCall]
    exact congrArg Prod.snd (if_pos h)
  exact congrArg (fun g : Sandbox.Grid => g.objs.lookup inp.objPath) hkept

/-- A file `f` in an exported directory that is empty. -/
def exclusiveArgs : Diropargs3 :=
  { dir := Sandbox.handle (Sandbox.item (lit "/e") true), name := lit "f" }

def exclusiveVerf : List UInt8 := [1, 2, 3, 4, 5, 6, 7, 8]

def exclusiveServer : Server Sandbox.Drive Sandbox.Grid :=
  Sandbox.driveServer [Sandbox.item (lit "/e") true]
    { files := [(lit "/e", { dev := 1, ino := 2, mode := 0o040755 })] }

/-- The daemon when it has created the file. -/
def exclusiveLeft : Server Sandbox.Drive Sandbox.Grid :=
  (nfsProgram Sandbox.driveWorld missingReq (.create exclusiveArgs (.exclusive exclusiveVerf))
    exclusiveServer).2

/-- What `PREP` leaves. -/
def exclusivePrep (s : Server Sandbox.Drive Sandbox.Grid) : Server Sandbox.Drive Sandbox.Grid :=
  (prep Sandbox.driveWorld exclusiveArgs.dir missingReq s).2

theorem exclusive_granted : ∃ r, Granted Sandbox.driveWorld missingReq exclusiveArgs exclusiveVerf
    exclusiveServer (lit "/e") (exclusivePrep exclusiveServer) r exclusiveLeft := by
  have hprep : (prep Sandbox.driveWorld exclusiveArgs.dir missingReq exclusiveServer).1 =
      .ok (.ok (lit "/e")) := by decide +kernel
  have hstatus : (nfsProgram Sandbox.driveWorld missingReq
      (.create exclusiveArgs (.exclusive exclusiveVerf)) exclusiveServer).1.toOption.map
      NfsReply.status = some .ok := by decide +kernel
  obtain ⟨reply, hreply, hok⟩ := Sandbox.replied hstatus
  have hrun : nfsProgram Sandbox.driveWorld missingReq
      (.create exclusiveArgs (.exclusive exclusiveVerf)) exclusiveServer =
        (.ok reply, exclusiveLeft) := Prod.ext hreply rfl
  have hp : prep Sandbox.driveWorld exclusiveArgs.dir missingReq exclusiveServer =
      (.ok (.ok (lit "/e")), exclusivePrep exclusiveServer) := Prod.ext hprep rfl
  obtain ⟨r, -, rfl⟩ := replyWith_ok ((create_request hp).symm.trans hrun)
  exact ⟨r, hp, hrun, hok⟩

theorem exclusive_again : Again Sandbox.driveWorld missingReq exclusiveArgs (lit "/e")
    (exclusivePrep exclusiveServer) exclusiveLeft exclusiveLeft (exclusivePrep exclusiveLeft) := by
  have hprep : (prep Sandbox.driveWorld exclusiveArgs.dir missingReq exclusiveLeft).1 =
      .ok (.ok (lit "/e")) := by decide +kernel
  refine ⟨Prod.ext hprep rfl, ?_, ?_, ?_, ?_, ?_⟩ <;> decide +kernel

/-- The client is answered as before when `EEXIST` is left in `errno`. -/
theorem exclusive_answered : ∃ r, Granted Sandbox.driveWorld missingReq exclusiveArgs exclusiveVerf
      exclusiveServer (lit "/e") (exclusivePrep exclusiveServer) r exclusiveLeft ∧
    AnsweredAgain (Sandbox.driveWorld.having (fun _ _ => .eexist) fun _ => {}) missingReq
      exclusiveArgs exclusiveVerf (fileName Sandbox.driveWorld missingReq (lit "/e")
        exclusiveArgs.name (exclusivePrep exclusiveServer)) r exclusiveLeft := by
  obtain ⟨r, g⟩ := exclusive_granted
  obtain ⟨hanswered, -, hany⟩ := (exclusive_idempotent_iff Sandbox.driveWorld driveWorld_returns
    driveWorld_calls driveWorld_creates missingReq exclusiveArgs exclusiveVerf rfl).2.1
    _ _ _ _ _ _ _ g exclusive_again
  exact ⟨r, g, (hanswered _ _).2 ⟨hany _ _ _, by decide +kernel⟩⟩

/-- It is refused when `EIO` is left there. -/
theorem exclusive_not_idempotent :
    ¬ ExclusiveIdempotent Sandbox.driveWorld missingReq exclusiveArgs exclusiveVerf := by
  intro h
  obtain ⟨r, g⟩ := exclusive_granted
  obtain ⟨r', s3, hrun, hok, -⟩ := h.repeated _ _ _ _ _ _ _ g exclusive_again (fun _ _ => .eio)
    fun _ => {}
  have hstatus : (nfsProgram (Sandbox.driveWorld.having (fun _ _ => .eio) fun _ => {}) missingReq
      (.create exclusiveArgs (.exclusive exclusiveVerf)) exclusiveLeft).1.toOption.map
      NfsReply.status = some .io := by decide +kernel
  rw [hrun] at hstatus
  cases hok.symm.trans (Option.some.inj hstatus)

end NfsRods
