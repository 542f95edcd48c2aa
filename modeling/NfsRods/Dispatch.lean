import NfsRods.FhLayout
import NfsRods.Inet
import NfsRods.Serve
import NfsRods.Xdr.Mount
import NfsRods.Xdr.Nfs

/-!
# The dispatchers

`daemon.c`'s `nfs3_program_3` and `mountprog_3` on the messages the RPC library gives them: the
procedure's number selects its routine for the arguments, its function and its routine for the
result. What the procedures read and return is laid out for the wire here; the bytes of a handle
are seen as an `unfs3_fh_t` with whatever lies behind them in memory.

* `NfsProc`: a procedure of the table, which carries that its function is the one that the daemon
  runs for the request.
* `dispatchNfs`, `dispatchMount`: from a message to what is sent.
-/

namespace NfsRods

open CStr Xdr

/-! ## Arguments -/

/-- The time to set. -/
def timeHow : Wire.SetTime → TimeHow
  | .arm t => .setToClientTime t.seconds.toNat
  | .default d _ => if d.1 = 0 then .dontChange else if d.1 = 1 then .setToServerTime else .other

/-- `sattr3`. -/
def sattr3 (a : Wire.Sattr3) : Sattr3 :=
  { mode := a.mode.map (·.toNat), uid := a.uid.map (·.toUInt32), gid := a.gid.map (·.toUInt32)
    size := a.size.map (·.toNat), atime := timeHow a.atime, mtime := timeHow a.mtime }

/-- `diropargs3`. -/
def diropargs3 (behind : List UInt8) (a : Wire.Diropargs3) : Diropargs3 :=
  { dir := overlay a.dir behind, name := a.name }

/-- `stable_how`: every number but the first two is committed like `FILE_SYNC`. -/
def stableHow (n : UInt32) : StableHow :=
  if n = 0 then .unstable else if n = 1 then .dataSync else .fileSync

/-- `WRITE3args`; `count` is not read. -/
def write3args (behind : List UInt8) (a : Wire.Write3args) : Write3args :=
  { file := overlay a.file behind, offset := a.offset.toNat, stable := stableHow a.stable
    data := a.data }

/-- `createhow3`. -/
def createhow3 : Wire.Createhow3 → Createhow3
  | .unchecked a => .unchecked (sattr3 a)
  | .guarded a => .guarded (sattr3 a)
  | .exclusive verf => .exclusive verf

/-! ## Results -/

/-- The number of an `nfsstat3`. -/
def Nfsstat3.code : Nfsstat3 → UInt32
  | .ok => 0 | .perm => 1 | .noent => 2 | .io => 5 | .nxio => 6 | .acces => 13 | .exist => 17
  | .xdev => 18 | .nodev => 19 | .notdir => 20 | .isdir => 21 | .inval => 22 | .fbig => 27
  | .nospc => 28 | .rofs => 30 | .mlink => 31 | .nametoolong => 63 | .notempty => 66
  | .dquot => 69 | .stale => 70 | .remote => 71 | .badhandle => 10001 | .notSync => 10002
  | .badCookie => 10003 | .notsupp => 10004 | .toosmall => 10005 | .serverfault => 10006
  | .badtype => 10007 | .jukebox => 10008

/-- The number of an `ftype3`. -/
def Ftype3.code : Ftype3 → UInt32
  | .none => 0 | .reg => 1 | .dir => 2 | .blk => 3 | .chr => 4 | .lnk => 5 | .sock => 6 | .fifo => 7

/-- A `time_t` as the seconds of an `nfstime3`. -/
def nfstime3 (t : Int) : Wire.Nfstime3 := { seconds := .ofInt t, nseconds := 0 }

/-- `fattr3`. -/
def fattr3 (a : Fattr3) : Wire.Fattr3 :=
  { type := a.type.code, mode := .ofNat a.mode, nlink := .ofNat a.nlink, uid := a.uid.toUInt64
    gid := a.gid.toUInt64, size := .ofNat a.size, used := .ofNat a.used
    rdev := { specdata1 := .ofNat a.specdata1, specdata2 := .ofNat a.specdata2 }, fsid := a.fsid
    fileid := a.fileid, atime := nfstime3 a.atime, mtime := nfstime3 a.mtime
    ctime := nfstime3 a.ctime }

/-- The attributes GETATTR and LOOKUP return of an object: the ids of a regular file are the
caller's, which `getUID` and `getGID` return as `int`. -/
def objFattr3 (a : Fattr3) : Wire.Fattr3 :=
  if a.type = .reg then
    { fattr3 a with uid := .ofInt (toCInt a.uid), gid := .ofInt (toCInt a.gid) }
  else fattr3 a

/-- `post_op_attr`. -/
def postOpAttr (p : PostOpAttr) : Wire.PostOpAttr :=
  if p.follow then some (fattr3 p.attributes) else none

/-- `pre_op_attr`. -/
def preOpAttr (p : PreOpAttr) : Wire.PreOpAttr :=
  if p.follow then
    some { size := .ofNat p.size, mtime := nfstime3 p.mtime, ctime := nfstime3 p.ctime }
  else none

/-- `wcc_data`. -/
def wccData (d : WccData) : Wire.WccData :=
  { before := preOpAttr d.before, after := postOpAttr d.after }

/-- A result by its status. -/
def resOf {ok fail : Type} (status : Nfsstat3) (resok : ok) (resfail : fail) : Wire.Res ok fail :=
  if h : status.code = 0 then .arm resok else .default ⟨status.code, h⟩ resfail

def getattr3res (r : Getattr3res) : Wire.Res Wire.Fattr3 Unit :=
  resOf r.status (objFattr3 r.objAttributes) ()

def setattr3res (r : Setattr3res) : Wire.Res Wire.WccData Wire.WccData :=
  resOf r.status (wccData r.objWcc) (wccData r.objWcc)

def lookup3res (r : Lookup3res) : Wire.Res Wire.Lookup3resok Wire.PostOpAttr :=
  resOf r.status
    { object := (r.object.map fhBytes).getD []
      objAttributes :=
        if r.objAttributes.follow then some (objFattr3 r.objAttributes.attributes) else none
      dirAttributes := postOpAttr r.dirAttributes }
    (postOpAttr r.dirAttributes)

def access3res (r : Access3res) : Wire.Res Wire.Access3resok Wire.PostOpAttr :=
  resOf r.status { objAttributes := postOpAttr r.objAttributes, access := .ofNat r.access }
    (postOpAttr r.objAttributes)

def read3res (r : Read3res) : Wire.Res Wire.Read3resok Wire.PostOpAttr :=
  resOf r.status
    { fileAttributes := postOpAttr r.fileAttributes, count := .ofInt r.count, eof := r.eof
      data := r.data }
    (postOpAttr r.fileAttributes)

/-- `committed` is the `stable_how` that was asked for, `FILE_SYNC` for `DATA_SYNC`. -/
def write3res (args : Wire.Write3args) (r : Write3res) : Wire.Res Wire.Write3resok Wire.WccData :=
  resOf r.status
    { fileWcc := wccData r.fileWcc, count := .ofInt r.count
      committed := if args.stable = 1 then 2 else args.stable, verf := r.verf }
    (wccData r.fileWcc)

/-- The result of CREATE and MKDIR. -/
def create3res (r : Create3res) : Wire.Res Wire.Create3resok Wire.WccData :=
  resOf r.status
    { obj := r.obj.map fhBytes, objAttributes := postOpAttr r.objAttributes
      dirWcc := wccData r.dirWcc }
    (wccData r.dirWcc)

/-- The result of REMOVE and RMDIR. -/
def remove3res (r : Remove3res) : Wire.Res Wire.WccData Wire.WccData :=
  resOf r.status (wccData r.dirWcc) (wccData r.dirWcc)

def rename3res (r : Rename3res) : Wire.Res Wire.Rename3resok Wire.Rename3resok :=
  let wcc : Wire.Rename3resok :=
    { fromdirWcc := wccData r.fromdirWcc, todirWcc := wccData r.todirWcc }
  resOf r.status wcc wcc

/-- The verifier is always zero. -/
def readdir3resok (r : Readdir3res) : Wire.Readdir3resok :=
  { dirAttributes := postOpAttr r.dirAttributes, cookieverf := List.replicate 8 0
    reply :=
      { entries := r.entries.map fun e =>
          { fileid := e.fileid, name := e.name, cookie := e.cookie }
        eof := r.eof } }

def readdir3res (r : Readdir3res) : Wire.Res Wire.Readdir3resok Wire.PostOpAttr :=
  resOf r.status (readdir3resok r) (postOpAttr r.dirAttributes)

def fsstat3res (r : Fsstat3res) : Wire.Res Wire.Fsstat3resok Wire.PostOpAttr :=
  resOf r.status
    { objAttributes := postOpAttr r.objAttributes, tbytes := .ofNat r.tbytes
      fbytes := .ofNat r.fbytes, abytes := .ofNat r.abytes, tfiles := .ofNat r.tfiles
      ffiles := .ofNat r.ffiles, afiles := .ofNat r.afiles, invarsec := .ofNat r.invarsec }
    (postOpAttr r.objAttributes)

def fsinfo3res (r : Fsinfo3res) : Wire.Res Wire.Fsinfo3resok Wire.PostOpAttr :=
  resOf r.status
    { objAttributes := postOpAttr r.objAttributes, rtmax := .ofNat r.rtmax
      rtpref := .ofNat r.rtpref, rtmult := .ofNat r.rtmult, wtmax := .ofNat r.wtmax
      wtpref := .ofNat r.wtpref, wtmult := .ofNat r.wtmult, dtpref := .ofNat r.dtpref
      maxfilesize := .ofNat r.maxfilesize
      timeDelta :=
        { seconds := .ofNat r.timeDeltaSeconds, nseconds := .ofNat r.timeDeltaNseconds }
      properties := .ofNat r.properties }
    (postOpAttr r.objAttributes)

def pathconf3res (r : Pathconf3res) : Wire.Res Wire.Pathconf3resok Wire.PostOpAttr :=
  resOf r.status
    { objAttributes := postOpAttr r.objAttributes, linkmax := .ofNat r.linkmax
      nameMax := .ofNat r.nameMax, noTrunc := r.noTrunc, chownRestricted := r.chownRestricted
      caseInsensitive := r.caseInsensitive, casePreserving := r.casePreserving }
    (postOpAttr r.objAttributes)

/-- The result of a procedure that is not supported: nothing of it but the status is ever set. -/
def unsupported3res {ok fail : Type} (resfail : fail) : Wire.Res ok fail :=
  .default ⟨Nfsstat3.notsupp.code, by decide⟩ resfail

def noWcc : Wire.WccData := { before := none, after := none }

/-! ## The NFS program -/

/-- What the RPC library sends. -/
inductive Answer
  /-- `svcerr_noproc` -/
  | noproc
  /-- `svcerr_decode` -/
  | decode
  /-- `svcerr_systemerr` -/
  | systemerr
  /-- `svc_sendreply` with these results -/
  | reply (results : List UInt8)
  deriving DecidableEq, Repr

/-- `svc_sendreply` where there is room: every reply of NFS fits into a datagram. -/
def sendreply {Res : Type} (xdrResult : Codec Res) (res : Res) : Answer :=
  match xdrResult.encode res with
  | some results => .reply results
  | none => .systemerr

/-- `NFS_MAX_UDP_PACKET`: the buffer of `create_udp_transport`. -/
def nfsMaxUdpPacket : Nat := 32768 + 4096

/-- The header of a reply: six numbers and the verifier. -/
def SvcReq.header (rq : SvcReq) : Nat := 6 * 4 + Codec.roundUp rq.verf

/-- The buffer of a datagram takes results of `n` bytes; a stream takes any. -/
def SvcReq.HasRoom (rq : SvcReq) (n : Nat) : Prop :=
  rq.stream = true ∨ rq.header + n ≤ nfsMaxUdpPacket

instance (rq : SvcReq) (n : Nat) : Decidable (rq.HasRoom n) := inferInstanceAs (Decidable (_ ∨ _))

/-- `svc_sendreply`. -/
def sendreplyTo {Res : Type} (rq : SvcReq) (xdrResult : Codec Res) (res : Res) : Answer :=
  match sendreply xdrResult res with
  | .reply results => if rq.HasRoom results.length then .reply results else .systemerr
  | a => a

section
variable {L R : Type} (w : World L R)

/-- A case of `nfs3_program_3`: `_xdr_argument`, `_xdr_result`, and `local` between them. -/
structure NfsProc where
  Args : Type
  Out : Type
  Res : Type
  xdrArgument : Codec Args
  xdrResult : Codec Res
  request : Args → NfsRequest
  function : Args → SvcReq → M L R Out
  reply : Out → NfsReply
  result : Args → Out → Res
  /-- The function is what the daemon runs for the request. -/
  function_eq (args : Args) (rq : SvcReq) :
    nfsProgram w rq (request args) = replyWith reply (function args rq)

/-- A procedure that is not supported. -/
def unsupportedProc {Args ok fail : Type} (xdrArgument : Codec Args)
    (xdrResult : Codec (Wire.Res ok fail)) (resfail : fail) : NfsProc w where
  Args := Args
  Out := Nfsstat3
  Res := Wire.Res ok fail
  xdrArgument := xdrArgument
  xdrResult := xdrResult
  request _ := .unsupported
  function _ _ := pure .notsupp
  reply := .unsupported
  result _ _ := unsupported3res resfail
  function_eq _ _ := rfl

/-- A procedure on what the arguments are read as. -/
def nfsProc {Args Out Res : Type} (xdrArgument : Codec Args) (xdrResult : Codec Res)
    (request : Args → NfsRequest) (function : Args → SvcReq → M L R Out) (reply : Out → NfsReply)
    (result : Args → Out → Res)
    (function_eq : ∀ args rq,
      nfsProgram w rq (request args) = replyWith reply (function args rq)) :
    NfsProc w where
  Args := Args
  Out := Out
  Res := Res
  xdrArgument := xdrArgument
  xdrResult := xdrResult
  request := request
  function := function
  reply := reply
  result := result
  function_eq := function_eq

/-- The cases of `nfs3_program_3`; `behind` and `behindTo` lie behind the handles in memory. -/
def nfs3Program3 (behind behindTo : List UInt8) : Nat → Option (NfsProc w)
  | 0 => some (nfsProc w .void .void (fun _ => .null) (fun _ _ => pure ()) (fun _ => .null)
      (fun _ _ => ()) fun _ _ => rfl)
  | 1 => some (nfsProc w Wire.xdrGetattr3args Wire.xdrGetattr3res
      (fun a => .getattr (overlay a behind)) (fun a => nfsproc3Getattr w (overlay a behind))
      .getattr (fun _ => getattr3res) fun _ _ => rfl)
  | 2 => some (nfsProc w Wire.xdrSetattr3args Wire.xdrSetattr3res
      (fun a => .setattr (overlay a.object behind) (sattr3 a.newAttributes))
      (fun a => nfsproc3Setattr w (overlay a.object behind) (sattr3 a.newAttributes)) .setattr
      (fun _ => setattr3res) fun _ _ => rfl)
  | 3 => some (nfsProc w Wire.xdrLookup3args Wire.xdrLookup3res
      (fun a => .lookup (diropargs3 behind a)) (fun a => nfsproc3Lookup w (diropargs3 behind a))
      .lookup (fun _ => lookup3res) fun _ _ => rfl)
  | 4 => some (nfsProc w Wire.xdrAccess3args Wire.xdrAccess3res
      (fun a => .access (overlay a.object behind) a.access.toNat)
      (fun a => nfsproc3Access w (overlay a.object behind) a.access.toNat) .access
      (fun _ => access3res) fun _ _ => rfl)
  | 5 => some (unsupportedProc w Wire.xdrReadlink3args Wire.xdrReadlink3res none)
  | 6 => some (nfsProc w Wire.xdrRead3args Wire.xdrRead3res
      (fun a => .read (overlay a.file behind) a.offset.toNat a.count.toNat)
      (fun a => nfsproc3Read w (overlay a.file behind) a.offset.toNat a.count.toNat) .read
      (fun _ => read3res) fun _ _ => rfl)
  | 7 => some (nfsProc w Wire.xdrWrite3args Wire.xdrWrite3res
      (fun a => .write (write3args behind a)) (fun a => nfsproc3Write w (write3args behind a))
      .write write3res fun _ _ => rfl)
  | 8 => some (nfsProc w Wire.xdrCreate3args Wire.xdrCreate3res
      (fun a => .create (diropargs3 behind a.location) (createhow3 a.how))
      (fun a => nfsproc3Create w (diropargs3 behind a.location) (createhow3 a.how)) .create
      (fun _ => create3res) fun _ _ => rfl)
  | 9 => some (nfsProc w Wire.xdrMkdir3args Wire.xdrMkdir3res
      (fun a => .mkdir (diropargs3 behind a.location) (sattr3 a.attributes))
      (fun a => nfsproc3Mkdir w (diropargs3 behind a.location) (sattr3 a.attributes)) .mkdir
      (fun _ => create3res) fun _ _ => rfl)
  | 10 => some (unsupportedProc w Wire.xdrSymlink3args Wire.xdrSymlink3res noWcc)
  | 11 => some (unsupportedProc w Wire.xdrMknod3args Wire.xdrMknod3res noWcc)
  | 12 => some (nfsProc w Wire.xdrRemove3args Wire.xdrRemove3res
      (fun a => .remove (diropargs3 behind a)) (fun a => nfsproc3Remove w (diropargs3 behind a))
      .remove (fun _ => remove3res) fun _ _ => rfl)
  | 13 => some (nfsProc w Wire.xdrRmdir3args Wire.xdrRmdir3res
      (fun a => .rmdir (diropargs3 behind a)) (fun a => nfsproc3Rmdir w (diropargs3 behind a))
      .rmdir (fun _ => remove3res) fun _ _ => rfl)
  | 14 => some (nfsProc w Wire.xdrRename3args Wire.xdrRename3res
      (fun a => .rename (diropargs3 behind a.argsFrom) (diropargs3 behindTo a.argsTo))
      (fun a => nfsproc3Rename w (diropargs3 behind a.argsFrom) (diropargs3 behindTo a.argsTo))
      .rename (fun _ => rename3res) fun _ _ => rfl)
  | 15 => some (unsupportedProc w Wire.xdrLink3args Wire.xdrLink3res
      { fileAttributes := none, linkdirWcc := noWcc })
  | 16 => some (nfsProc w Wire.xdrReaddir3args Wire.xdrReaddir3res
      (fun a => .readdir (overlay a.dir behind) a.cookie a.count.toNat)
      (fun a => nfsproc3Readdir w (overlay a.dir behind) a.cookie a.count.toNat) .readdir
      (fun _ => readdir3res) fun _ _ => rfl)
  | 17 => some (unsupportedProc w Wire.xdrReaddirplus3args Wire.xdrReaddirplus3res none)
  | 18 => some (nfsProc w Wire.xdrFsstat3args Wire.xdrFsstat3res
      (fun a => .fsstat (overlay a behind)) (fun a => nfsproc3Fsstat w (overlay a behind))
      .fsstat (fun _ => fsstat3res) fun _ _ => rfl)
  | 19 => some (nfsProc w Wire.xdrFsinfo3args Wire.xdrFsinfo3res
      (fun a => .fsinfo (overlay a behind)) (fun a => nfsproc3Fsinfo w (overlay a behind))
      .fsinfo (fun _ => fsinfo3res) fun _ _ => rfl)
  | 20 => some (nfsProc w Wire.xdrPathconf3args Wire.xdrPathconf3res
      (fun a => .pathconf (overlay a behind)) (fun a => nfsproc3Pathconf w (overlay a behind))
      .pathconf (fun _ => pathconf3res) fun _ _ => rfl)
  | 21 => some (unsupportedProc w Wire.xdrCommit3args Wire.xdrCommit3res noWcc)
  | _ => none

variable {w} in
/-- `nfs3_program_3` from `svc_getargs` on. -/
def NfsProc.answer (p : NfsProc w) (rq : SvcReq) (msg : List UInt8) : M L R Answer :=
  match p.xdrArgument.decode msg with
  | none => pure .decode
  | some (args, _) => do
    Prog.modify (enter rq)
    let out ← p.function args rq
    pure (sendreply p.xdrResult (p.result args out))

/-- `nfs3_program_3`. -/
def dispatchNfs (behind behindTo : List UInt8) (rq : SvcReq) (rqProc : Nat) (msg : List UInt8) :
    M L R Answer :=
  match nfs3Program3 w behind behindTo rqProc with
  | none => pure .noproc
  | some p => p.answer rq msg

/-! ## The MOUNT program -/

/-- The number of a `mountstat3`. -/
def Mountstat3.code : Mountstat3 → UInt32
  | .ok => 0 | .perm => 1 | .noent => 2 | .io => 5 | .acces => 13 | .notdir => 20 | .inval => 22
  | .nametoolong => 63 | .notsupp => 10004 | .serverfault => 10006

/-- The bytes of `mountinfo.fhandle`. -/
def MountInfo.fhandle : MountInfo → List UInt8
  | .nonce bytes => bytes
  | .mounted fh => fhBytes fh

/-- `mountres3`; the only flavour is `AUTH_UNIX`. -/
def mountres3 (r : Mountres3) : Xdr.Codec.Union 0 Wire.Mountres3Ok Unit :=
  if h : r.status.code = 0 then
    .arm { fhandle := (r.info.map MountInfo.fhandle).getD [], authFlavors := [1] }
  else .default ⟨r.status.code, h⟩ ()

/-- `mountlist`. -/
def mountlist (l : List MountEntry) : List Wire.Mountbody :=
  l.map fun m => { hostname := inetNtoa m.hostname, directory := m.directory }

/-- `exports`. -/
def exportsList (l : List ExportNode) : List Wire.Exportnode :=
  l.map fun e => { dir := e.dir, groups := e.groups }

/-- `mountproc_export_3_svc`: `exports_nfslist` has a node for each item in force. -/
def mountprocExport : M L R (List ExportNode) := do
  let s ← Prog.get
  pure (s.exportList.map EItem.node)

/-- A case of `mountprog_3`. -/
structure MountProc where
  Args : Type
  Res : Type
  xdrArgument : Codec Args
  xdrResult : Codec Res
  /-- EXPORT has none. -/
  request : Args → Option MountRequest
  function : Args → SvcReq → M L R Res
  /-- The function is what the daemon runs for the request, or only looks. -/
  function_eq (args : Args) (rq : SvcReq) :
    (match request args with
      | some q => serveMount w rq q
      | none => pure ()) = (function args rq >>= fun _ => pure ())

/-- A procedure without arguments or without a result runs the request itself. -/
theorem serveMount_bind (rq : SvcReq) (q : MountRequest) :
    serveMount w rq q = (serveMount w rq q >>= fun _ => pure ()) := by
  funext s
  rw [Prog.bind_run]
  rcases serveMount w rq q s with ⟨_ | _, _⟩ <;> rfl

/-- A procedure with no result. -/
def mountVoid {Args : Type} (xdrArgument : Codec Args) (request : Args → MountRequest) :
    MountProc w where
  Args := Args
  Res := Unit
  xdrArgument := xdrArgument
  xdrResult := .void
  request args := some (request args)
  function args rq := serveMount w rq (request args)
  function_eq args rq := serveMount_bind w rq (request args)

/-- The cases of `mountprog_3`. -/
def mountprog3 : Nat → Option (MountProc w)
  | 0 => some (mountVoid w .void fun _ => .null)
  | 1 => some
      { Args := CStr, Res := Xdr.Codec.Union 0 Wire.Mountres3Ok Unit
        xdrArgument := Wire.xdrDirpath, xdrResult := Wire.xdrMountres3
        request := fun argp => some (.mnt argp)
        function := fun argp rq => do
          let r ← mountprocMnt w argp rq
          pure (mountres3 r)
        function_eq := fun argp rq =>
          (Prog.bind_assoc (mountprocMnt w argp rq) (fun r => pure (mountres3 r)) fun _ =>
            pure ()).symm }
  | 2 => some
      { Args := Unit, Res := List Wire.Mountbody
        xdrArgument := .void, xdrResult := Wire.xdrMountlist
        request := fun _ => some .dump
        function := fun _ _ => do
          let l ← mountprocDump
          pure (mountlist l)
        function_eq := fun _ _ =>
          (Prog.bind_assoc mountprocDump (fun l => pure (mountlist l)) fun _ => pure ()).symm }
  | 3 => some (mountVoid w Wire.xdrDirpath .umnt)
  | 4 => some (mountVoid w .void fun _ => .umntall)
  | 5 => some
      { Args := Unit, Res := List Wire.Exportnode
        xdrArgument := .void, xdrResult := Wire.xdrExports
        request := fun _ => none
        function := fun _ _ => do
          let l ← mountprocExport
          pure (exportsList l)
        function_eq := fun _ _ => rfl }
  | _ => none

variable {w} in
/-- `mountprog_3` from `svc_getargs` on. -/
def MountProc.answer (p : MountProc w) (rq : SvcReq) (msg : List UInt8) : M L R Answer :=
  match p.xdrArgument.decode msg with
  | none => pure .decode
  | some (args, _) => do
    let res ← p.function args rq
    pure (sendreplyTo rq p.xdrResult res)

/-- `mountprog_3`. -/
def dispatchMount (rq : SvcReq) (rqProc : Nat) (msg : List UInt8) : M L R Answer :=
  match mountprog3 w rqProc with
  | none => pure .noproc
  | some p => p.answer rq msg

end

end NfsRods
