import NfsRods.Nfs.Basic

/-!
# The NFS procedures that modify

SETATTR, WRITE, CREATE, MKDIR, REMOVE, RMDIR and RENAME, each with a local step on the mirror and a
remote step on iRODS. They differ in the order of the two steps and in whether the remote one
depends on the status so far.
-/

namespace NfsRods

open CStr

/-! ## Arguments and results -/

structure Setattr3res where
  status : Nfsstat3
  objWcc : WccData := {}
  deriving DecidableEq, Repr

/-- `stable_how`. -/
inductive StableHow
  | unstable | dataSync | fileSync
  deriving DecidableEq, Repr

structure Write3args where
  file : NfsFh3
  offset : Nat
  stable : StableHow
  data : List UInt8
  deriving DecidableEq, Repr

structure Write3res where
  status : Nfsstat3
  fileWcc : WccData := {}
  count : Int := 0
  committed : StableHow := .unstable
  verf : List UInt8 := []
  deriving DecidableEq, Repr

/-- `createhow3`. -/
inductive Createhow3
  | unchecked (attr : Sattr3)
  | guarded (attr : Sattr3)
  | exclusive (verf : List UInt8)
  deriving DecidableEq, Repr

/-- The result of CREATE and MKDIR. -/
structure Create3res where
  status : Nfsstat3
  obj : Option Unfs3Fh := none
  objAttributes : PostOpAttr := {}
  dirWcc : WccData := {}
  deriving DecidableEq, Repr

/-- The result of REMOVE and RMDIR. -/
structure Remove3res where
  status : Nfsstat3
  dirWcc : WccData := {}
  deriving DecidableEq, Repr

structure Rename3res where
  status : Nfsstat3
  fromdirWcc : WccData := {}
  todirWcc : WccData := {}
  deriving DecidableEq, Repr

section
variable {L R : Type} (w : World L R)

/-! ## The remote step -/

/-- What CREATE, MKDIR, REMOVE and RMDIR do in iRODS: connect as the caller, build the object's name
and make one call about it. -/
def remoteStep (call : CStr → Comm → RodsCall) (obj : CStr) (rq : SvcReq) : M L R Unit := do
  let (comm, name) ← openRods w obj rq.uid
  let _ ← issue w (call name comm)
  debug w "Creating or deleting %s"
  rcDisconnect w comm

/-! ## SETATTR -/

/-- SETATTR on a writable export. -/
def setattrWrite (path : CStr) (object : NfsFh3) (new : Sattr3) (rq : SvcReq) :
    M L R Nfsstat3 := do
  let status ← setAttr w path object new
  let (comm, name) ← openRods w path rq.uid
  match getUserName w rq.uid with
  | (resultUser, userName) =>
    if resultUser < 0 then
      debug w "SET ATTR - Cant Find User"
      rcDisconnect w comm
      pure .perm
    else
      let j ← junk w
      let _ ← setAttrIrods w name new (userName.getD j.buf) comm
      rcDisconnect w comm
      pure status

/-- `nfsproc3_setattr_3_svc` after `PREP`; `in_sync` accepts every guard. -/
def setattrBody (path : CStr) (object : NfsFh3) (new : Sattr3) (rq : SvcReq) :
    M L R Setattr3res := do
  let path ← getRealPathNFS w path rq.uid
  debug w "PATH %s"
  let s ← Prog.get
  let pre := getPreCached s
  let status ← (if exportsRw s.exports = .ok then setattrWrite w path object new rq
    else pure (exportsRw s.exports))
  let after ← getPostStat w (some path) rq
  debug w "SETTATTR-stop"
  pure { status, objWcc := { before := pre, after } }

/-- `nfsproc3_setattr_3_svc`. -/
def nfsproc3Setattr (object : NfsFh3) (new : Sattr3) (rq : SvcReq) : M L R Setattr3res :=
  withPrep w object rq (fun st => pure { status := st }) fun path =>
    setattrBody w path object new rq

/-! ## WRITE -/

/-- WRITE once the file is open: the local write, the remote one, and the close. -/
def writeFd (path : CStr) (args : Write3args) (rq : SvcReq) (fd : Int) : M L R (Int × Int) := do
  let res ← sys w (.pwrite fd args.data args.offset)
  let (comm, name) ← openRods w path rq.uid
  let _ ← iWrite w name args.data (toCInt (UInt32.ofNat args.offset)) comm
  debug w "WRITE - Writing under the file: %s\n"
  debug w "WRITE - Content: %s\n"
  rcDisconnect w comm
  let resClose ← fdClose w fd .write (args.stable ≠ .unstable)
  pure (res, resClose)

/-- WRITE to a regular file on a writable export. -/
def writeWrite (path : CStr) (args : Write3args) (rq : SvcReq) : M L R Write3res := do
  -- only unstable writes keep the descriptor in the cache
  let fd ← fdOpen w path args.file .write (args.stable = .unstable)
  if fd ≠ -1 then
    let (res, resClose) ← writeFd w path args rq fd
    let s ← Prog.get
    if res ≠ -1 ∧ resClose ≠ -1 then
      let committed := if args.stable = .dataSync then .fileSync else args.stable
      pure { status := .ok, count := res, committed, verf := s.wverf }
    else pure { status := writeWriteErr s.errno }
  else
    let s ← Prog.get
    pure { status := writeOpenErr s.errno }

/-- `nfsproc3_write_3_svc` after `PREP`. -/
def writeBody (path : CStr) (args : Write3args) (rq : SvcReq) : M L R Write3res := do
  let path ← getRealPathNFS w path rq.uid
  debug w "ACCESS PATH %s"
  let s ← Prog.get
  let status := join (isReg s) (exportsRw s.exports)
  writeByOwner w rq s.stCache
  let result ← (if status = .ok then writeWrite w path args rq else pure { status })
  let s ← Prog.get
  let after ← getPostStat w (some path) rq
  debug w "Write END"
  pure { result with fileWcc := { before := getPreCached s, after } }

/-- `nfsproc3_write_3_svc`. -/
def nfsproc3Write (args : Write3args) (rq : SvcReq) : M L R Write3res :=
  withPrep w args.file rq (fun st => pure { status := st }) fun path =>
    writeBody w path args rq

/-! ## CREATE -/

/-- `verf[0] | verf[1] << 8 | verf[2] << 16 | verf[3] << 24` of four signed bytes. -/
def verfTime (verf : List UInt8) : Int :=
  let byte := fun i => let b := (verf.getD i 0).toUInt32
    if b < 128 then b else b ||| 0xffffff00
  toCInt (byte 0 ||| byte 1 <<< 8 ||| byte 2 <<< 16 ||| byte 3 <<< 24)

/-- `store_create_verifier`. -/
def storeCreateVerifier (obj : CStr) (verf : List UInt8) : M L R Int :=
  sys w (.utime obj (verfTime verf) (verfTime (verf.drop 4)))

/-- `check_create_verifier`. -/
def checkCreateVerifier (buf : Stat) (verf : List UInt8) : Bool :=
  buf.atime == verfTime verf && buf.mtime == verfTime (verf.drop 4)

/-- The attributes CREATE opens with; `new_attr` is unset for an exclusive create. -/
def Createhow3.attr (how : Createhow3) (unset : Sattr3) : Sattr3 :=
  match how with
  | .unchecked a | .guarded a => a
  | .exclusive _ => unset

/-- The status of CREATE before the file is opened. -/
def createStatus (s : Server L R) (cat : Nfsstat3) (how : Createhow3) : Nfsstat3 :=
  match how with
  | .unchecked a | .guarded a => join (join cat (exportsRw s.exports)) (atomicAttr w s a)
  | .exclusive _ => join cat (exportsRw s.exports)

/-- The flags of CREATE's open: `O_EXCL` unless unchecked. -/
def Createhow3.flags (how : Createhow3) : OpenFlags :=
  { access := .rdwr, creat := true, trunc := true, nonblock := true
    excl := match how with
      | .unchecked _ => false
      | _ => true }

/-- CREATE's open. -/
def createOpen (status : Nfsstat3) (obj : CStr) (how : Createhow3) (unset : Sattr3) : M L R Int :=
  if status = .ok then sys w (.open_ obj how.flags (createMode (how.attr unset))) else pure (-1)

/-- The handle and attributes of the created file; the descriptor is closed. -/
def createdObj (dir : NfsFh3) (obj : CStr) (buf : Stat) (fd : Int) (rq : SvcReq) :
    M L R (Option Unfs3Fh × PostOpAttr) := do
  fhCacheAdd buf.dev buf.ino obj
  let _ ← sys w (.close fd)
  let fh ← fhExtend w dir buf.dev buf.ino (getGen buf)
  let post ← getPostBuf w buf rq
  pure (fh, post)

/-- An exclusive create saves its verifier in atime and mtime. -/
def saveVerifier (obj : CStr) : Createhow3 → M L R Int
  | .exclusive verf => storeCreateVerifier w obj verf
  | .unchecked _ | .guarded _ => pure 0

/-- CREATE after a successful open. -/
def createOpened (dir : NfsFh3) (obj : CStr) (how : Createhow3) (status : Nfsstat3) (fd : Int)
    (rq : SvcReq) : M L R Create3res := do
  match ← query fun k => w.fstat k fd with
  | none =>
    let _ ← sys w (.close fd)
    pure { status := .io }
  | some buf =>
    let res ← saveVerifier w obj how
    if res = -1 then
      let _ ← sys w (.close fd)
      pure { status := .io }
    else
      let (fh, post) ← createdObj w dir obj buf fd rq
      pure { status, obj := fh, objAttributes := post }

/-- CREATE after a failed open of an existing file: an exclusive create is repeated when the
verifier matches. -/
def createExists (dir : NfsFh3) (obj : CStr) (verf : List UInt8) (rq : SvcReq) :
    M L R Create3res := do
  let fd ← sys w (.open_ obj { access := .rdonly, nonblock := true } 0)
  let st ← (if fd ≠ -1 then query fun k => w.fstat k fd else pure none)
  match st with
  | none =>
    let s ← Prog.get
    pure { status := createErr s.errno }
  | some buf =>
    if checkCreateVerifier buf verf then
      let (fh, post) ← createdObj w dir obj buf fd rq
      pure { status := .ok, obj := fh, objAttributes := post }
    else pure { status := .exist }

/-- CREATE's local step after the remote one. -/
def createFinish (dir : NfsFh3) (obj : CStr) (how : Createhow3) (status : Nfsstat3) (fd : Int)
    (rq : SvcReq) : M L R Create3res := do
  if fd ≠ -1 then createOpened w dir obj how status fd rq
  else if status = .ok then
    let s ← Prog.get
    match how with
    | .exclusive verf =>
      if s.errno = .eexist then createExists w dir obj verf rq
      else pure { status := createErr s.errno }
    | _ => pure { status := createErr s.errno }
  else pure { status }

/-- CREATE once `obj` is rewritten: the open, the remote step whatever the status is, and the rest
of the local step. -/
def createAct (path : CStr) (args : Diropargs3) (how : Createhow3) (rq : SvcReq) (unset : Sattr3)
    (status : Nfsstat3) (obj : CStr) : M L R Create3res := do
  let fd ← createOpen w status obj how unset
  remoteStep w (createFile w) obj rq
  let result ← createFinish w args.dir obj how status fd rq
  let s ← Prog.get
  let after ← getPostStat w (some path) rq
  debug w "CREATE END \n"
  pure { result with dirWcc := { before := getPreCached s, after } }

/-- `nfsproc3_create_3_svc` after `PREP`. -/
def createBody (path : CStr) (args : Diropargs3) (how : Createhow3) (rq : SvcReq)
    (unset : Junk) : M L R Create3res := do
  let s ← Prog.get
  let cat := catName (some path) args.name
  let status := createStatus w s cat.1 how
  let obj ← rewriteObj w cat.2.isSome (cat.2.getD unset.buf) rq.uid
  createAct w path args how rq unset.attr status obj

/-- `nfsproc3_create_3_svc`. -/
def nfsproc3Create (args : Diropargs3) (how : Createhow3) (rq : SvcReq) :
    M L R Create3res := do
  let s ← Prog.get
  withPrep w args.dir rq (fun st => pure { status := st }) fun path =>
    createBody w path args how rq (w.junk s.tick)

/-! ## MKDIR -/

/-- MKDIR with a status of `NFS3_OK` so far. -/
def mkdirMake (dir : NfsFh3) (obj : CStr) (attributes : Sattr3) (rq : SvcReq) :
    M L R Create3res := do
  let res ← sys w (.mkdir obj (createMode attributes))
  remoteStep w (makeCollection · · true) obj rq
  if res = -1 then
    let s ← Prog.get
    pure { status := mkdirErr s.errno }
  else
    let fh ← fhExtendType w dir obj 0o040000
    let post ← getPostCached w rq
    pure { status := .ok, obj := fh, objAttributes := post }

/-- MKDIR once `obj` is rewritten. -/
def mkdirAct (path : CStr) (args : Diropargs3) (attributes : Sattr3) (rq : SvcReq)
    (pre : PreOpAttr) (status : Nfsstat3) (obj : CStr) : M L R Create3res := do
  debug w "Criando diretorio: %s \n"
  let result ← (if status = .ok then mkdirMake w args.dir obj attributes rq else pure { status })
  let post ← getPostAttr w (some path) args.dir rq
  debug w "MKDIR END"
  pure { result with dirWcc := { before := pre, after := post } }

/-- `nfsproc3_mkdir_3_svc` after `PREP`. -/
def mkdirBody (path : CStr) (args : Diropargs3) (attributes : Sattr3) (rq : SvcReq)
    (unset : Junk) : M L R Create3res := do
  let s ← Prog.get
  let cat := catName (some path) args.name
  let status := join3 cat.1 (atomicAttr w s attributes) (exportsRw s.exports)
  let obj ← rewriteObj w cat.2.isSome (cat.2.getD unset.buf) rq.uid
  mkdirAct w path args attributes rq (getPreCached s) status obj

/-- `nfsproc3_mkdir_3_svc`. -/
def nfsproc3Mkdir (args : Diropargs3) (attributes : Sattr3) (rq : SvcReq) :
    M L R Create3res := do
  let s ← Prog.get
  withPrep w args.dir rq (fun st => pure { status := st }) fun path =>
    mkdirBody w path args attributes rq (w.junk s.tick)

/-! ## REMOVE and RMDIR -/

/-- What distinguishes REMOVE and RMDIR: the system call, its error values and the iRODS call. -/
structure Unlink where
  call : CStr → SysCall
  err : Errno → Nfsstat3
  remote : CStr → Comm → RodsCall
  err_ne_ok : ∀ e, err e ≠ .ok

/-- REMOVE: `backend_remove`, `remove_err`, `removeObj`. -/
def unlinkRemove : Unlink :=
  { call := .remove, err := removeErr, remote := removeObj, err_ne_ok := removeErr_ne_ok }

/-- RMDIR: `backend_rmdir`, `rmdir_err`, `removeCollection`. -/
def unlinkRmdir : Unlink :=
  { call := .rmdir, err := rmdirErr, remote := removeCollection, err_ne_ok := rmdirErr_ne_ok }

/-- The local step. -/
def unlinkLocal (u : Unlink) (status : Nfsstat3) (obj : CStr) : M L R Nfsstat3 := do
  if status = .ok then
    changeReaddirCookie
    let res ← sys w (u.call obj)
    let s ← Prog.get
    pure (if res = -1 then u.err s.errno else status)
  else pure status

/-- REMOVE and RMDIR once `obj` is rewritten: the remote step is taken whatever the status is. -/
def unlinkAct (u : Unlink) (path : CStr) (rq : SvcReq) (status : Nfsstat3) (obj : CStr) :
    M L R Remove3res := do
  debug w "RMDIR - Removing local directory %s\n"
  let status ← unlinkLocal w u status obj
  remoteStep w u.remote obj rq
  let s ← Prog.get
  let after ← getPostStat w (some path) rq
  debug w "REMOVE END"
  pure { status, dirWcc := { before := getPreCached s, after } }

/-- REMOVE and RMDIR after `PREP`. -/
def unlinkBody (u : Unlink) (path : CStr) (name : CStr) (rq : SvcReq) (unset : Junk) :
    M L R Remove3res := do
  let s ← Prog.get
  let cat := catName (some path) name
  let status := join cat.1 (exportsRw s.exports)
  let obj ← rewriteObj w cat.2.isSome (cat.2.getD unset.buf) rq.uid
  unlinkAct w u path rq status obj

/-- REMOVE and RMDIR. -/
def unlink (u : Unlink) (object : Diropargs3) (rq : SvcReq) : M L R Remove3res := do
  let s ← Prog.get
  withPrep w object.dir rq (fun st => pure { status := st }) fun path =>
    unlinkBody w u path object.name rq (w.junk s.tick)

/-- `nfsproc3_remove_3_svc`. -/
def nfsproc3Remove (object : Diropargs3) (rq : SvcReq) : M L R Remove3res :=
  unlink w unlinkRemove object rq

/-- `nfsproc3_rmdir_3_svc`. -/
def nfsproc3Rmdir (object : Diropargs3) (rq : SvcReq) : M L R Remove3res :=
  unlink w unlinkRmdir object rq

/-! ## RENAME -/

/-- RENAME's remote step. -/
def renameRemote (fromObj toObj : CStr) (rq : SvcReq) : M L R Int := do
  let comm ← connectUser w rq.uid
  let fromName ← rodsName w fromObj rq.uid
  let toName ← rodsName w toObj rq.uid
  debug w "RENAME - Renaming from: %s"
  debug w "RENAME - Renaming to: %s"
  let status ← issue w (renameFile toName fromName comm)
  rcDisconnect w comm
  debug w "RENAME - FREE "
  pure status

/-- RENAME with a status of `NFS3_OK` so far: the remote step, then the local one. -/
def renameMove (fromObj toObj : CStr) (rq : SvcReq) : M L R Nfsstat3 := do
  changeReaddirCookie
  let status ← renameRemote w fromObj toObj rq
  let res ← sys w (.rename fromObj toObj)
  let s ← Prog.get
  pure (if res = -1 ∨ status = -1 then renameErr s.errno else .ok)

/-- RENAME once the source name is accepted; `exports_compat` looks the target up and so resets
`export_path`. -/
def renameTo (fromObj : CStr) (toPath : Option CStr) (name : CStr) (rq : SvcReq) (unset : Junk) :
    M L R Nfsstat3 := do
  let cat := catName toPath name
  let compat ← exportsCompatM toPath rq
  let status := join cat.1 compat
  let fromObj ← rewriteObj w true fromObj rq.uid
  let toObj ← rewriteObj w cat.2.isSome (cat.2.getD unset.buf) rq.uid
  if status = .ok then renameMove w fromObj toObj rq else pure status

/-- RENAME's reply with the attributes of both directories. -/
def renameEnd (status : Nfsstat3) (pre : PreOpAttr) (fromPath : CStr) (toPath : Option CStr)
    (argsFrom : Diropargs3) (rq : SvcReq) : M L R Rename3res := do
  debug w "RENAME - FILE "
  let post ← getPostAttr w (some fromPath) argsFrom.dir rq
  let s ← Prog.get
  let toAfter ← getPostStat w toPath rq
  debug w "RENAME END"
  pure { status, fromdirWcc := { before := pre, after := post }
         todirWcc := { before := getPreCached s, after := toAfter } }

/-- `nfsproc3_rename_3_svc` after `PREP`. -/
def renameBody (fromPath : CStr) (argsFrom argsTo : Diropargs3) (rq : SvcReq) (unset : Junk) :
    M L R Rename3res := do
  let s ← Prog.get
  let pre := getPreCached s
  let cat := catName (some fromPath) argsFrom.name
  let status := join cat.1 (exportsRw s.exports)
  let toPath ← fhDecomp w argsTo.dir
  let status ← (if status = .ok then renameTo w (cat.2.getD unset.buf) toPath argsTo.name rq unset
    else pure status)
  renameEnd w status pre fromPath toPath argsFrom rq

/-- `nfsproc3_rename_3_svc`. -/
def nfsproc3Rename (argsFrom argsTo : Diropargs3) (rq : SvcReq) : M L R Rename3res := do
  let s ← Prog.get
  withPrep w argsFrom.dir rq (fun st => pure { status := st }) fun path =>
    renameBody w path argsFrom argsTo rq (w.junk s.tick)

end

end NfsRods
