import NfsRods.FdCache
import NfsRods.ReadDir

/-!
# The NFS procedures: shared steps and reading

`nfs.c`. Every procedure on a handle starts with `prep` (the macro `PREP`): resolve the handle,
find the export that governs it for the client, check the handle's password hash and switch to the
caller's ids. A buffer the source leaves unset has what is found in memory where the procedure is
entered (`World.junk`). The log lines at entry are left out: `errno` is set before it is read.
Results are `static` in the source; only LOOKUP reads what an earlier call left in its result
(`Server.lookupAttr`).

The cluster extension is not configured, so `cluster_lookup` and `cluster_create` do nothing.
-/

namespace NfsRods

open CStr

/-! ## Results -/

structure Getattr3res where
  status : Nfsstat3
  objAttributes : Fattr3 := {}
  deriving DecidableEq, Repr

structure Lookup3res where
  status : Nfsstat3
  object : Option Unfs3Fh := none
  objAttributes : PostOpAttr := {}
  dirAttributes : PostOpAttr := {}
  deriving DecidableEq, Repr

structure Access3res where
  status : Nfsstat3
  objAttributes : PostOpAttr := {}
  access : Nat := 0
  deriving DecidableEq, Repr

structure Read3res where
  status : Nfsstat3
  count : Int := 0
  eof : Bool := false
  data : List UInt8 := []
  fileAttributes : PostOpAttr := {}
  deriving DecidableEq, Repr

structure Fsstat3res where
  status : Nfsstat3
  objAttributes : PostOpAttr := {}
  tbytes : Nat := 0
  fbytes : Nat := 0
  abytes : Nat := 0
  tfiles : Nat := 0
  ffiles : Nat := 0
  afiles : Nat := 0
  invarsec : Nat := 0
  deriving DecidableEq, Repr

structure Fsinfo3res where
  status : Nfsstat3
  objAttributes : PostOpAttr := {}
  rtmax : Nat := 0
  rtpref : Nat := 0
  rtmult : Nat := 0
  wtmax : Nat := 0
  wtpref : Nat := 0
  wtmult : Nat := 0
  dtpref : Nat := 0
  maxfilesize : Nat := 0
  timeDeltaSeconds : Nat := 0
  timeDeltaNseconds : Nat := 0
  properties : Nat := 0
  deriving DecidableEq, Repr

structure Pathconf3res where
  status : Nfsstat3
  objAttributes : PostOpAttr := {}
  linkmax : Nat := 0
  nameMax : Nat := 0
  noTrunc : Bool := false
  chownRestricted : Bool := false
  caseInsensitive : Bool := false
  casePreserving : Bool := false
  deriving DecidableEq, Repr

section
variable {L R : Type} (w : World L R)

/-! ## Shared steps -/

/-- `PREP`: the object's path, or the status to refuse with. -/
def prep (fh : NfsFh3) (rq : SvcReq) : M L R (Except Nfsstat3 CStr) := do
  switchToRoot w
  let p ← fhDecomp w fh
  let k ← exportsOptionsM p rq
  match p with
  | none => pure (.error .stale)
  | some path =>
    if k.vars.opts = none then pure (.error .acces)
    else if fh.obj.pwhash ≠ k.vars.passwordHash then pure (.error .stale)
    else
      switchUser w rq
      pure (.ok path)

/-- A procedure on a handle: `PREP`, then its body. -/
def withPrep {α : Type} (fh : NfsFh3) (rq : SvcReq) (refuse : Nfsstat3 → M L R α)
    (body : CStr → M L R α) : M L R α := do
  match ← prep w fh rq with
  | .error st => refuse st
  | .ok path => body path

/-- `rodsConnecUser` and `rodsLogin`. -/
def connectUser (uid : UInt32) : M L R Comm := do
  let comm ← rodsConnecUser w uid
  let _ ← rodsLogin w comm
  pure comm

/-- The iRODS name of a mirror path: `getIRODSpathGetAttr` and `getRodsPath`. -/
def rodsName (path : CStr) (uid : UInt32) : M L R CStr := do
  let pathRods ← getIRODSpathGetAttr w path uid
  getRodsPath w uid pathRods

/-- The statements with which most procedures turn to iRODS: connect, log in, build the name. -/
def openRods (path : CStr) (uid : UInt32) : M L R (Comm × CStr) := do
  let comm ← connectUser w uid
  let name ← rodsName w path uid
  debug w "IRODS ACCESS PATH %s"
  pure (comm, name)

/-- `obj` rewritten to the mirror's path: `toArray(obj, getRealPathNFS(obj))` after the same path
has been logged. -/
def rewriteObj (filled : Bool) (obj : CStr) (uid : UInt32) : M L R CStr := do
  let _ ← getRealPathNFS w obj uid
  debug w "RealPATH:%s"
  let real ← getRealPathNFS w obj uid
  toArray filled real

/-- A `rodsLong_t` as the `uint64` of an attribute. -/
def toUInt64 (n : Int) : Nat := (n.emod (2 ^ 64)).toNat

/-- `change_readdir_cookie`. -/
def changeReaddirCookie : M L R Unit :=
  Prog.modify fun s => { s with rcookie := ((s.rcookie >>> 32) + 1) <<< 32 }

/-- `maxdata` of a request. -/
def maxdata (rq : SvcReq) : Nat := if rq.stream then 524288 else 32768

/-! ## GETATTR and LOOKUP -/

/-- Attributes of a regular file with the size iRODS has and the caller's ids. -/
def withSize (a : Fattr3) (size : Int) (rq : SvcReq) : Fattr3 :=
  { a with size := toUInt64 size, used := toUInt64 size, uid := rq.uid, gid := rq.gid }

/-- The size iRODS has for an object. -/
def remoteSize (name : CStr) (uid : UInt32) : M L R Int := do
  let comm ← connectUser w uid
  let size ← fileSize w name comm
  rcDisconnect w comm
  pure size

/-- `nfsproc3_getattr_3_svc` after `PREP`. -/
def getattrBody (path : CStr) (rq : SvcReq) : M L R Getattr3res := do
  let name ← rodsName w path rq.uid
  let _ ← getRealPathNFS w path rq.uid
  debug w "GETATTR path %s"
  debug w "GETATTR irodspath %s"
  let post ← getPostCached w rq
  if post.attributes.type = .reg then
    let size ← remoteSize w name rq.uid
    debug w "GETATTR END"
    pure { status := .ok, objAttributes := withSize post.attributes size rq }
  else
    debug w "GETATTR END"
    pure { status := .ok, objAttributes := post.attributes }

/-- `nfsproc3_getattr_3_svc`. -/
def nfsproc3Getattr (object : NfsFh3) (rq : SvcReq) : M L R Getattr3res :=
  withPrep w object rq (fun st => pure { status := st }) fun path =>
    getattrBody w path rq

/-- The handle LOOKUP returns for the object it found. -/
def lookupFh (what : Diropargs3) (obj : CStr) (buf : Stat) (rq : SvcReq) :
    M L R (Option Unfs3Fh) := do
  if what.name = lit "." ∨ what.name = lit ".." then fhCompPtr w obj rq false
  else
    let fh ← fhExtend w what.dir buf.dev buf.ino (getGen buf)
    fhCacheAdd buf.dev buf.ino obj
    pure fh

/-- LOOKUP's local step: the status and the handle; the attributes go to the static result. -/
def lookupLocal (what : Diropargs3) (path : CStr) (rq : SvcReq) :
    M L R (Nfsstat3 × Option Unfs3Fh) := do
  match catName (some path) what.name with
  | (.ok, some obj) =>
    match ← lstat w obj with
    | none =>
      let s ← Prog.get
      pure (lookupErr s.errno, none)
    | some buf =>
      match ← lookupFh w what obj buf rq with
      | some fh =>
        let post ← getPostBuf w buf rq
        Prog.modify fun s => { s with lookupAttr := post }
        pure (.ok, some fh)
      | none => pure (.nametoolong, none)
  | (st, _) => pure (st, none)

/-- `nfsproc3_lookup_3_svc` after `PREP`. -/
def lookupBody (what : Diropargs3) (dir : CStr) (rq : SvcReq) : M L R Lookup3res := do
  debug w "LOOKUP PATH %s"
  let rodspath ← getRodsPath w rq.uid dir
  debug w "LOOKUP irodspath %s"
  let path ← getRealPathNFS w dir rq.uid
  debug w "LOOKUP path %s"
  let r ← lookupLocal w what path rq
  let dirAttributes ← getPostStat w (some path) rq
  let s ← Prog.get
  -- the result is static: after a failure this is the type an earlier LOOKUP left
  Prog.when (s.lookupAttr.attributes.type = .reg) do
    let size ← remoteSize w rodspath rq.uid
    Prog.modify fun s =>
      { s with lookupAttr :=
          { s.lookupAttr with attributes := withSize s.lookupAttr.attributes size rq } }
  debug w "END LOOKUP object"
  let s ← Prog.get
  pure { status := r.1, object := r.2, objAttributes := s.lookupAttr, dirAttributes }

/-- `nfsproc3_lookup_3_svc`; a refusal by `PREP` clears the static result. -/
def nfsproc3Lookup (what : Diropargs3) (rq : SvcReq) : M L R Lookup3res :=
  withPrep w what.dir rq (fun st => do
    Prog.modify fun s => { s with lookupAttr := {} }
    pure { status := st }) fun path => lookupBody w what path rq

/-! ## ACCESS, READ and READDIR -/

/-- The bits `ACCESS3_READ` .. `ACCESS3_EXECUTE` a class of a mode gives (`shift` 6, 3 or 0). -/
def classAccess (mode shift : Nat) : Nat :=
  (if mode &&& 4 <<< shift ≠ 0 then 1 else 0) |||
  (if mode &&& 2 <<< shift ≠ 0 then 4 ||| 8 else 0) |||
  (if mode &&& 1 <<< shift ≠ 0 then 32 ||| (if w.conf.readableExecutables then 1 else 0) else 0)

/-- The access rights ACCESS computes. -/
def accessBits (s : Server L R) (post : PostOpAttr) (rq : SvcReq) : Nat :=
  let mode := post.attributes.mode
  let access := if isOwner s s.stCache.uid rq then classAccess w mode 6
    else if hasGroup s s.stCache.gid rq then classAccess w mode 3
    else classAccess w mode 0
  -- root is allowed everything
  let access := if getUid s rq = 0 then access ||| 1 ||| 4 ||| 8 else access
  -- adjust if directory
  let access := if post.attributes.type = .dir then
      let access := if access &&& (1 ||| 32) ≠ 0 then access ||| 2 else access
      let access := if access &&& 4 ≠ 0 then access ||| 16 else access
      access &&& (1 ||| 2 ||| 4 ||| 8 ||| 16)
    else access
  access ||| 1 ||| 4 ||| 8

/-- `nfsproc3_access_3_svc` after `PREP`. -/
def accessBody (path : CStr) (access : Nat) (rq : SvcReq) : M L R Access3res := do
  let path ← getRealPathNFS w path rq.uid
  debug w "ACCESS PATH %s"
  let (comm, name) ← openRods w path rq.uid
  let _ ← getFile w path name false true comm
  rcDisconnect w comm
  let post ← getPostCached w rq
  let s ← Prog.get
  debug w "ACCESS END "
  pure { status := .ok, objAttributes := post, access := accessBits w s post rq &&& access }

/-- `nfsproc3_access_3_svc`. -/
def nfsproc3Access (object : NfsFh3) (access : Nat) (rq : SvcReq) : M L R Access3res :=
  withPrep w object rq (fun st => pure { status := st }) fun path =>
    accessBody w path access rq

/-- READ's remote step: the status, and the bytes read if the object could be opened. -/
def readRemote (path : CStr) (offset count : Nat) (rq : SvcReq) :
    M L R (Nfsstat3 × Option (Int × List UInt8)) := do
  let comm ← connectUser w rq.uid
  let _ ← getRealPathNFS w path rq.uid
  debug w "RealPATH:%s"
  let name ← rodsName w path rq.uid
  let o ← rods w (.rcDataObjOpen comm name .rdonly)
  if o.status < 0 then
    let s ← Prog.get
    pure (readErr s.errno, none)
  else
    let r ← rods w (.rcDataObjRead comm o.status count offset)
    if 0 < r.status then pure (.ok, some (r.status, r.data))
    else
      let s ← Prog.get
      pure (readErr s.errno, some (r.status, r.data))

/-- `nfsproc3_read_3_svc` after `PREP`; `bytesRead` is unset when nothing was opened. -/
def readBody (path : CStr) (offset count : Nat) (rq : SvcReq) (unset : Int) : M L R Read3res := do
  let s ← Prog.get
  readExecutable w rq s.stCache
  readByOwner w rq s.stCache
  let count := if maxdata rq < count then maxdata rq else count
  let (status, got) ← (if isReg s = .ok then readRemote w path offset count rq
    else pure (isReg s, none))
  let post ← getPostStat w (some path) rq
  let bytesRead := got.elim unset (·.1)
  let attributes :=
    { post.attributes with size := toUInt64 bytesRead, used := toUInt64 bytesRead }
  debug w "READ END"
  pure { status
         count := bytesRead
         eof := bytesRead < count
         data := got.elim [] (·.2)
         fileAttributes := { post with attributes } }

/-- `nfsproc3_read_3_svc`. -/
def nfsproc3Read (file : NfsFh3) (offset count : Nat) (rq : SvcReq) : M L R Read3res := do
  let s ← Prog.get
  withPrep w file rq (fun st => pure { status := st }) fun path =>
    readBody w path offset count rq (w.junk s.tick).int

/-- `nfsproc3_readdir_3_svc` after `PREP`. -/
def readdirBody (path : CStr) (cookie : UInt64) (count : Nat) (rq : SvcReq) :
    M L R Readdir3res := do
  let rodspath ← rodsName w path rq.uid
  debug w "READDIR IRODS path %s"
  let _ ← getRealPathNFS w path rq.uid
  debug w "READDIR new path %s"
  let path ← getRealPathNFS w path rq.uid
  let comm ← connectUser w rq.uid
  let _ ← listCollection w rodspath path comm
  let result ← readDir w path cookie count
  let dirAttributes ← getPostStat w (some path) rq
  rcDisconnect w comm
  debug w "END READDIR"
  pure { result with dirAttributes }

/-- `nfsproc3_readdir_3_svc`. -/
def nfsproc3Readdir (dir : NfsFh3) (cookie : UInt64) (count : Nat) (rq : SvcReq) :
    M L R Readdir3res :=
  withPrep w dir rq (fun st => pure { status := st }) fun path =>
    readdirBody w path cookie count rq

/-! ## File system information -/

/-- FSSTAT after `PREP`. -/
def fsstatBody (path : CStr) (rq : SvcReq) : M L R Fsstat3res := do
  let objAttributes ← getPostCached w rq
  let s ← Prog.get
  match w.statvfs s.kernel path with
  | none =>
    -- removable media export point; probably no media inserted
    if s.exports.bit (·.removable) && exportPoint s.exportList path then
      pure { status := .ok, objAttributes }
    else pure { status := .io, objAttributes }
  | some (blocks, bfree, bavail, files, ffree, frsize) =>
    pure { status := .ok, objAttributes, tbytes := blocks * frsize, fbytes := bfree * frsize
           abytes := bavail * frsize, tfiles := files, ffiles := ffree, afiles := ffree }

/-- `nfsproc3_fsstat_3_svc`. -/
def nfsproc3Fsstat (fsroot : NfsFh3) (rq : SvcReq) : M L R Fsstat3res :=
  withPrep w fsroot rq (fun st => pure { status := st }) fun path => fsstatBody w path rq

/-- `nfsproc3_fsinfo_3_svc`. -/
def nfsproc3Fsinfo (fsroot : NfsFh3) (rq : SvcReq) : M L R Fsinfo3res :=
  withPrep w fsroot rq (fun st => pure { status := st }) fun _ => do
    let objAttributes ← getPostCached w rq
    let max := maxdata rq
    pure { status := .ok, objAttributes, rtmax := max, rtpref := max, rtmult := 4096, wtmax := max
           wtpref := max, wtmult := 4096, dtpref := 4096, maxfilesize := 2 ^ 64 - 1
           timeDeltaSeconds := 1, properties := 8 ||| 16 }

/-- `nfsproc3_pathconf_3_svc`. -/
def nfsproc3Pathconf (object : NfsFh3) (rq : SvcReq) : M L R Pathconf3res :=
  withPrep w object rq (fun st => pure { status := st }) fun _ => do
    let objAttributes ← getPostCached w rq
    pure { status := .ok, objAttributes, linkmax := 0xffffffff, nameMax := maxPathLen
           noTrunc := true, casePreserving := true }

end

end NfsRods
