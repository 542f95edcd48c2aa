import NfsRods.FdCache

/-!
# The MOUNT protocol

`mount.c` and `password.c`: MNT with its mount commands (`@getnonce`, `@password:`, `@otp:`), and
the list of mounts.

A request is authenticated by the password of the export found for the string the client sent
(`authenticate`); access is granted by the export found for the directory it resolves to
(`mountDir`).
-/

namespace NfsRods

open CStr

/-- `mountstat3`. -/
inductive Mountstat3
  | ok | perm | noent | io | acces | notdir | inval | nametoolong | notsupp | serverfault
  deriving DecidableEq, Repr

/-- What a successful MNT returns: the nonce of `@getnonce`, or the handle of the directory. -/
inductive MountInfo
  | nonce (bytes : List UInt8)
  | mounted (fhandle : Unfs3Fh)
  deriving DecidableEq, Repr

/-- `mountres3`. -/
structure Mountres3 where
  status : Mountstat3
  info : Option MountInfo := none
  deriving DecidableEq, Repr

/-! ## Passwords -/

/-- `nibble_as_hexchar`. -/
def nibbleAsHexchar (c : UInt8) : UInt8 := if c ≤ 9 then c + 48 else c - 10 + 97

/-- `hexify`. -/
def hexify (digest : List UInt8) : CStr :=
  digest.flatMap fun b : UInt8 => [nibbleAsHexchar ((b >>> 4) &&& 0xf), nibbleAsHexchar (b &&& 0xf)]

/-- `mnt_cmd_argument`: the command's argument and the path after it. -/
def mntCmdArgument (dpath : CStr) (cmd : CStr) (maxlen : Nat) : CStr × CStr :=
  let dpath := dpath.drop cmd.length
  let arg := (dpath.take maxlen).takeWhile (· ≠ slash)
  (arg, dpath.drop arg.length)

/-- A MNT argument by its mount command, with the path that follows. -/
inductive MntCmd
  | getnonce
  | password (pw : CStr) (dpath : CStr)
  | otp (digest : CStr) (dpath : CStr)
  | plain (dpath : CStr)
  deriving DecidableEq, Repr

/-- The check for mount commands. -/
def mntCmd (dpath : CStr) : MntCmd :=
  if lit "@getnonce" <+: dpath then .getnonce
  else if lit "@password:" <+: dpath then
    let a := mntCmdArgument dpath (lit "@password:") passwordMaxlen
    .password a.1 a.2
  else if lit "@otp:" <+: dpath then
    let a := mntCmdArgument dpath (lit "@otp:") passwordMaxlen
    .otp a.1 a.2
  else .plain dpath

/-- The path a MNT argument asks for. -/
def MntCmd.dpath : MntCmd → CStr
  | .getnonce => []
  | .password _ p | .otp _ p | .plain p => p

section
variable {L R : Type} (w : World L R)

/-- `otp_digest`. -/
def otpDigest (nonce : List UInt8) (password : CStr) : CStr := hexify (w.md5 (nonce ++ password))

/-- The request carries the password `p`, or the one-time digest of the nonce and `p`. -/
def MntCmd.carries (nonce : List UInt8) (p : CStr) : MntCmd → Bool
  | .password pw _ => p == pw
  | .otp digest _ => otpDigest w nonce p == digest.take 32
  | .getnonce | .plain _ => false

/-- Draw a new nonce. -/
def backendGenNonce : M L R Unit :=
  Prog.modify fun s => { s with nonce := w.genNonce s.nonces, nonces := s.nonces + 1 }

/-! ## MNT -/

/-- `authenticated`: whether the command fits the export found for the path as sent. -/
def authenticate (cmd : MntCmd) (rq : SvcReq) : M L R Bool := do
  match cmd with
  | .password _ dpath =>
    let k ← exportsOptionsM (some dpath) rq
    if k.vars.opts = none then pure false
    else pure (cmd.carries w [] (k.password.getD []))
  | .otp _ dpath =>
    let k ← exportsOptionsM (some dpath) rq
    if k.vars.opts = none then pure false
    else
      let s ← Prog.get
      backendGenNonce w
      pure (cmd.carries w s.nonce (k.password.getD []))
  | _ => pure false

/-- `buf`: the directory to mount; `none` when the path does not exist. -/
def mountDir (s : Server L R) (dpath : CStr) : Option CStr :=
  -- removable media export point: do not call realpath, simply copy the path
  if s.exports.bit (·.removable) && exportPoint s.exportList dpath then some dpath
  else w.realpath s.kernel dpath

/-- `add_mount`. -/
def addMount (path : CStr) (rq : SvcReq) : M L R Unit :=
  Prog.modify fun s =>
    { s with mountList := s.mountList ++ [{ hostname := rq.remote, directory := path }]
             mountCnt := s.mountCnt + 1 }

/-- MNT of a path, once the mount command is dealt with. -/
def mntPath (dpath : CStr) (authenticated : Bool) (rq : SvcReq) : M L R Mountres3 := do
  let s ← Prog.get
  match mountDir w s dpath with
  | none => pure { status := .noent }
  | some buf =>
    if maxPathLen < buf.length + 1 then pure { status := .nametoolong }
    else
      let k ← exportsOptionsM (some buf) rq
      if k.vars.opts = none ∨ (authenticated = false ∧ k.password.getD [] ≠ []) ∨
          (k.vars.bit (·.insecure) = false ∧ 1024 ≤ rq.port) then pure { status := .acces }
      else
        let fh ← fhComp w buf rq true
        if !fhValid fh then pure { status := .notdir }
        else
          addMount dpath rq
          pure { status := .ok, info := some (.mounted fh) }

/-- `mountproc_mnt_3_svc`. -/
def mountprocMnt (argp : CStr) (rq : SvcReq) : M L R Mountres3 := do
  if rq.vers ≠ 3 then pure { status := .inval }
  else match mntCmd argp with
    | .getnonce =>
      backendGenNonce w
      let s ← Prog.get
      pure { status := .ok, info := some (.nonce s.nonce) }
    | cmd =>
      let authenticated ← authenticate w cmd rq
      mntPath w cmd.dpath authenticated rq

/-! ## UMNT, UMNTALL and DUMP -/

/-- `remove_mount` (`path` is `none` for `NULL`). -/
def removeMount (path : Option CStr) (rq : SvcReq) : M L R Unit :=
  Prog.modify fun s =>
    let gone := fun m : MountEntry => m.hostname == rq.remote && path.all (· == m.directory)
    { s with mountList := s.mountList.filter fun m => !gone m
             mountCnt := s.mountCnt - s.mountList.countP gone }

/-- `fd_cache_purge`. -/
def fdCachePurge : M L R Unit :=
  Prog.forEach (fun i => do
    let s ← Prog.get
    Prog.when ((s.fd.entry i).use ≠ 0) do
      let _ ← fdCacheDel w i true) (List.range fdEntries)

/-- `mountproc_umnt_3_svc` and `mountproc_umntall_3_svc`. -/
def umnt (path : Option CStr) (rq : SvcReq) : M L R Unit := do
  removeMount path rq
  let s ← Prog.get
  Prog.when (s.mountCnt = 0) (fdCachePurge w)

/-- `mountproc_umnt_3_svc`. -/
def mountprocUmnt (argp : CStr) (rq : SvcReq) : M L R Unit := umnt w (some argp) rq

/-- `mountproc_umntall_3_svc`. -/
def mountprocUmntall (rq : SvcReq) : M L R Unit := umnt w none rq

/-- `mountproc_dump_3_svc`. -/
def mountprocDump : M L R (List MountEntry) := do
  let s ← Prog.get
  pure s.mountList

end

end NfsRods
