import NfsRods.Error
import NfsRods.User
import NfsRods.Rods

/-!
# Attributes

`attr.c`: attributes before and after an operation, and setting them, locally and in iRODS.
-/

namespace NfsRods

open CStr

section
variable {L R : Type} (w : World L R)

/-! ## Reading -/

/-- `is_reg`. -/
def isReg (s : Server L R) : Nfsstat3 :=
  if !s.stCacheValid then .stale else if s.stCache.isReg then .ok else .inval

/-- `get_pre_cached`. -/
def getPreCached (s : Server L R) : PreOpAttr :=
  if !s.stCacheValid then {}
  else
    { follow := true, size := s.stCache.size, mtime := s.stCache.mtime, ctime := s.stCache.ctime }

/-- The file type `get_post_buf` derives from a mode. -/
def ftype (buf : Stat) : Ftype3 :=
  if buf.isDir then .dir else if buf.isBlk then .blk else if buf.isChr then .chr
  else if buf.isLnk then .lnk else if buf.isSock then .sock else if buf.isFifo then .fifo
  else .reg

/-- The mode with executables made readable (`opt_readable_executables`). -/
def adaptMode (buf : Stat) : Nat :=
  if w.conf.readableExecutables && buf.isReg then
    let m := if buf.mode &&& 0o100 ≠ 0 then buf.mode ||| 0o400 else buf.mode
    let m := if m &&& 0o010 ≠ 0 then m ||| 0o040 else m
    if m &&& 0o001 ≠ 0 then m ||| 0o004 else m
  else buf.mode

/-- The owner and group reported, translated when running for a single user. -/
def postIds (buf : Stat) (rq : SvcReq) : UInt32 × UInt32 :=
  if w.conf.singleuser then
    let (reqUid, reqGid) := if rq.flavor = .unix then (rq.uid, rq.gid) else (0, 0)
    (if buf.uid = w.getuid ∨ w.getuid = 0 then reqUid else 0,
      if buf.gid = w.getgid ∨ w.getuid = 0 then reqGid else 0)
  else (buf.uid, buf.gid)

/-- `get_post_buf`. -/
def getPostBuf (buf : Stat) (rq : SvcReq) : M L R PostOpAttr := do
  debug w "get_post_buf STAT"
  let s ← Prog.get
  -- objects on the file system of a removable export point have its preset fsid
  let epbuf ← (if s.exports.bit (·.removable) then
      query fun k => match s.exports.path with
        | some e => w.lstat k e
        | none => .error (.other 14)
    else pure none)
  let fsid := match epbuf with
    | some b => if buf.dev = b.dev then s.exports.fsid else buf.dev
    | none => buf.dev
  pure { follow := true
         attributes :=
          { type := ftype buf
            mode := adaptMode w buf &&& 0xffff
            nlink := buf.nlink
            uid := (postIds w buf rq).1
            gid := (postIds w buf rq).2
            size := buf.size
            used := buf.blocks * 512
            specdata1 := (buf.rdev >>> 8) &&& 0xff
            specdata2 := buf.rdev &&& 0xff
            fsid
            fileid := buf.ino
            atime := buf.atime
            mtime := buf.mtime
            ctime := buf.ctime } }

/-- `get_post_ll` (`NULL` when the path was not resolved). -/
def getPostLl (path : Option CStr) (dev ino : ULong) (rq : SvcReq) : M L R PostOpAttr := do
  match path with
  | none => pure {}
  | some path =>
    match ← lstat w path with
    | none => pure {}
    | some buf =>
      -- protect against local fs race
      if dev ≠ buf.dev ∨ ino ≠ buf.ino then pure {} else getPostBuf w buf rq

/-- `get_post_attr`. -/
def getPostAttr (path : Option CStr) (nfh : NfsFh3) (rq : SvcReq) : M L R PostOpAttr :=
  getPostLl w path nfh.obj.dev nfh.obj.ino rq

/-- `get_post_stat`. -/
def getPostStat (path : Option CStr) (rq : SvcReq) : M L R PostOpAttr := do
  let s ← Prog.get
  getPostLl w path s.stCache.dev s.stCache.ino rq

/-- `get_post_cached`. -/
def getPostCached (rq : SvcReq) : M L R PostOpAttr := do
  let s ← Prog.get
  if !s.stCacheValid then pure {} else getPostBuf w s.stCache rq

/-! ## Setting -/

/-- The status of a failed local call: `setattr_err()`. -/
def setattrFail : M L R Nfsstat3 := do
  let s ← Prog.get
  pure (setattrErr s.errno)

/-- The time to set. -/
def newTime (how : TimeHow) (now old : Int) : Int :=
  match how with
  | .setToServerTime => now
  | .setToClientTime t => t
  | .dontChange | .other => old

/-- `set_time`. -/
def setTime (path : CStr) (buf : Stat) (new : Sattr3) : M L R Nfsstat3 := do
  if new.atime ≠ .dontChange ∨ new.mtime ≠ .dontChange then
    let s ← Prog.get
    let now := w.time s.kernel
    let res ← sys w
      (.utime path (newTime new.atime now buf.atime) (newTime new.mtime now buf.mtime))
    if res = -1 then setattrFail else pure .ok
  else pure .ok

/-- The ids to pass to `chown`: -1 for those not to change. -/
def chownIds (buf : Stat) (new : Sattr3) : UInt32 × UInt32 :=
  let uid := new.uid.getD 0xffffffff
  (if uid = buf.uid then 0xffffffff else uid, new.gid.getD 0xffffffff)

/-- One conditional system call of `set_attr`: `some` status when it fails. -/
def trySet (c : Option SysCall) : M L R (Option Nfsstat3) := do
  match c with
  | none => pure none
  | some c =>
    let res ← sys w c
    if res = -1 then
      let st ← setattrFail
      pure (some st)
    else pure none

/-- `set_attr_unsafe`. -/
def setAttrUnsafe (path : CStr) (nfh : NfsFh3) (new : Sattr3) : M L R Nfsstat3 := do
  match ← lstat w path with
  | none => pure .stale
  | some buf =>
    -- check local fs race
    if buf.dev ≠ nfh.obj.dev ∨ buf.ino ≠ nfh.obj.ino then pure .stale
    else
      let ids := chownIds buf new
      match ← trySet w (new.size.map (.truncate path ·)) with
      | some st => pure st
      | none =>
        match ← trySet w (if new.uid.isSome || new.gid.isSome then some (.lchown path ids.1 ids.2)
          else none) with
        | some st => pure st
        | none =>
          match ← trySet w (new.mode.map (.chmod path ·)) with
          | some st => pure st
          | none => setTime w path buf new

/-- Close the descriptor and report the failure of the call before: `errno` is that of `close` when
it fails too. -/
def closeFail (fd : Int) : M L R Nfsstat3 := do
  let _ ← sys w (.close fd)
  setattrFail

/-- One conditional system call of `set_attr` on an open descriptor. -/
def trySetFd (fd : Int) (c : Option SysCall) : M L R (Option Nfsstat3) := do
  match c with
  | none => pure none
  | some c =>
    let res ← sys w c
    if res = -1 then
      let st ← closeFail w fd
      pure (some st)
    else pure none

/-- `set_attr` once the object is open. -/
def setAttrFd (path : CStr) (nfh : NfsFh3) (new : Sattr3) (fd : Int) : M L R Nfsstat3 := do
  match ← query fun k => w.fstat k fd with
  | none =>
    let _ ← sys w (.close fd)
    pure .stale
  | some buf =>
    -- check local fs race
    if nfh.obj.dev ≠ buf.dev ∨ nfh.obj.ino ≠ buf.ino ∨ nfh.obj.gen ≠ getGen buf then
      let _ ← sys w (.close fd)
      pure .stale
    else
      let ids := chownIds buf new
      match ← trySetFd w fd (new.size.map (.ftruncate fd ·)) with
      | some st => pure st
      | none =>
        match ← trySetFd w fd (if new.uid.isSome || new.gid.isSome then
          some (.fchown fd ids.1 ids.2) else none) with
        | some st => pure st
        | none =>
          match ← trySetFd w fd (new.mode.map (.fchmod fd ·)) with
          | some st => pure st
          | none =>
            let res ← sys w (.close fd)
            -- error on close probably means attributes didn't make it
            if res = -1 then pure .io else setTime w path buf new

/-- `set_attr`. -/
def setAttr (path : CStr) (nfh : NfsFh3) (new : Sattr3) : M L R Nfsstat3 := do
  match ← lstat w path with
  | none => pure .stale
  | some buf =>
    -- opening a device could load a module, opening a symlink would open its target
    if buf.isBlk || buf.isChr || buf.isLnk then setAttrUnsafe w path nfh new
    else
      let fd ← sys w (.open_ path { access := .wronly, nonblock := true } 0)
      let fd ← (if fd = -1 then sys w (.open_ path { access := .rdonly, nonblock := true } 0)
        else pure fd)
      if fd = -1 then setAttrUnsafe w path nfh new else setAttrFd w path nfh new fd

/-- `create_mode`. -/
def createMode (new : Sattr3) : Nat := new.mode.getD 0o775

/-- `atomic_attr`. -/
def atomicAttr (s : Server L R) (attr : Sattr3) : Nfsstat3 :=
  if attr.uid.any (fun u => mangleUid s u != w.geteuid s.kernel) ||
      attr.gid.any (fun g => mangleGid s g != w.getegid s.kernel) ||
      attr.size.any (· != 0) ||
      (match attr.atime with | .setToClientTime _ => true | _ => false) ||
      (match attr.mtime with | .setToClientTime _ => true | _ => false) then .inval
  else .ok

/-- `permission`: the access level for the three lowest digits of a mode, from the last on; a 2 or
3 ends the scan. -/
def permission (value : Int) : Nat := go 3 value 0
where
  go : Nat → Int → Nat → Nat
    | 0, _, status => status
    | n + 1, value, status =>
      let p := value.emod 8
      let value := value.tdiv 8
      if p = 2 ∨ p = 3 then 2
      else if p = 5 ∨ p = 4 ∨ p = 1 then go n value 1
      else if p = 6 ∨ p = 7 then go n value 3
      else go n value status

/-- The name of an access level. -/
def accessLevel (status : Nat) : CStr :=
  if status = 1 then lit "read" else if status = 2 then lit "write"
  else if status = 3 then lit "own" else lit "null"

/-- `set_attr_irods`. -/
def setAttrIrods (path : CStr) (news : Sattr3) (owner : CStr) (comm : Comm) : M L R Nfsstat3 := do
  if news.size.isSome then setattrFail
  else if news.uid.isSome || news.gid.isSome then setattrFail
  else match news.mode with
    | none => pure .ok
    | some mode =>
      let res ← changeAttr w path owner (accessLevel (permission (toCInt (UInt32.ofNat mode)))) comm
      if res = -1 then setattrFail else pure .ok

end

/-! ## Footprints -/

section
variable {L R : Type} {w : World L R} {E : Event → Prop}
  {r : Server L R → Server L R → Prop} [OwnFrame r] [Allows w E r]

open Prog (Frame Returns)

theorem getPostBuf_frame (buf : Stat) (rq : SvcReq) : Frame r (getPostBuf w buf rq) :=
  .bind (debug_frame _) fun _ => .bind .get fun _ =>
    .bind (.ite (fun _ => query_frame _) fun _ => .pure _) fun _ => .pure _

theorem getPostLl_frame (path : Option CStr) (dev ino : ULong) (rq : SvcReq) :
    Frame r (getPostLl w path dev ino rq) := by
  cases path with
  | none => exact .pure _
  | some path =>
    refine .bind (lstat_frame _) fun r => ?_
    cases r with
    | none => exact .pure _
    | some buf => exact .ite (fun _ => .pure _) fun _ => getPostBuf_frame _ _

theorem getPostStat_frame (path : Option CStr) (rq : SvcReq) :
    Frame r (getPostStat w path rq) := .bind .get fun _ => getPostLl_frame _ _ _ _

theorem getPostCached_frame (rq : SvcReq) : Frame r (getPostCached w rq) :=
  .bind .get fun _ => .ite (fun _ => .pure _) fun _ => getPostBuf_frame _ _

theorem getPostBuf_tacit (buf : Stat) (rq : SvcReq) : Frame Tacit (getPostBuf w buf rq) :=
  .bind libCall_tacit fun _ => .bind .get fun _ =>
    .bind (.ite (fun _ => query_tacit _) fun _ => .pure _) fun _ => .pure _

theorem getPostLl_tacit (path : Option CStr) (dev ino : ULong) (rq : SvcReq) :
    Frame Tacit (getPostLl w path dev ino rq) := by
  cases path with
  | none => exact .pure _
  | some path =>
    refine .bind (query_tacit _) fun r => ?_
    cases r with
    | none => exact .pure _
    | some buf => exact .ite (fun _ => .pure _) fun _ => getPostBuf_tacit _ _

/-- Reading attributes for a reply changes nothing. -/
theorem getPostStat_tacit (path : Option CStr) (rq : SvcReq) :
    Frame Tacit (getPostStat w path rq) := .bind .get fun _ => getPostLl_tacit _ _ _ _

theorem getPostBuf_returns (buf : Stat) (rq : SvcReq) : Returns (getPostBuf w buf rq) :=
  .bind (.modify _) fun _ => .bind .get fun _ =>
    .bind (.ite (query_returns _) (.pure _)) fun _ => .pure _

theorem getPostLl_returns (path : Option CStr) (dev ino : ULong) (rq : SvcReq) :
    Returns (getPostLl w path dev ino rq) := by
  cases path with
  | none => exact .pure _
  | some path =>
    refine .bind (query_returns _) fun r => ?_
    cases r with
    | none => exact .pure _
    | some buf => exact .ite (.pure _) (getPostBuf_returns _ _)

theorem getPostStat_returns (path : Option CStr) (rq : SvcReq) : Returns (getPostStat w path rq) :=
  .bind .get fun _ => getPostLl_returns _ _ _ _

theorem getPostCached_returns (rq : SvcReq) : Returns (getPostCached w rq) :=
  .bind .get fun _ => .ite (.pure _) (getPostBuf_returns _ _)

theorem setattrFail_frame : Frame r (setattrFail : M L R Nfsstat3) :=
  .bind .get fun _ => .pure _

section
variable (hs : ∀ c, E (.sys c))

include hs

theorem setTime_frame (path : CStr) (buf : Stat) (new : Sattr3) :
    Frame r (setTime w path buf new) :=
  .ite (fun _ => .bind .get fun _ => .bind (sys_frame (hs _)) fun _ =>
    .ite (fun _ => setattrFail_frame) fun _ => .pure _) fun _ => .pure _

theorem trySet_frame (c : Option SysCall) : Frame r (trySet w c) := by
  cases c with
  | none => exact .pure _
  | some c =>
    refine .bind (sys_frame (hs _)) fun _ => .ite (fun _ => ?_) fun _ => .pure _
    exact .bind setattrFail_frame fun _ => .pure _

theorem trySetFd_frame (fd : Int) (c : Option SysCall) : Frame r (trySetFd w fd c) := by
  cases c with
  | none => exact .pure _
  | some c =>
    refine .bind (sys_frame (hs _)) fun _ =>
      .ite (fun _ => .bind ?_ fun _ => .pure _) fun _ => .pure _
    exact .bind (sys_frame (hs _)) fun _ => setattrFail_frame

theorem setAttrUnsafe_frame (path : CStr) (nfh : NfsFh3) (new : Sattr3) :
    Frame r (setAttrUnsafe w path nfh new) := by
  refine .bind (lstat_frame _) fun r => ?_
  cases r with
  | none => exact .pure _
  | some buf =>
    refine .ite (fun _ => .pure _) fun _ => .bind (trySet_frame hs _) fun r => ?_
    cases r with
    | some st => exact .pure _
    | none =>
      refine .bind (trySet_frame hs _) fun r => ?_
      cases r with
      | some st => exact .pure _
      | none =>
        refine .bind (trySet_frame hs _) fun r => ?_
        cases r with
        | some st => exact .pure _
        | none => exact setTime_frame hs _ _ _

theorem setAttrFd_frame (path : CStr) (nfh : NfsFh3) (new : Sattr3) (fd : Int) :
    Frame r (setAttrFd w path nfh new fd) := by
  refine .bind (query_frame _) fun r => ?_
  cases r with
  | none => exact .bind (sys_frame (hs _)) fun _ => .pure _
  | some buf =>
    refine .ite (fun _ => .bind (sys_frame (hs _)) fun _ => .pure _) fun _ => ?_
    refine .bind (trySetFd_frame hs _ _) fun r => ?_
    cases r with
    | some st => exact .pure _
    | none =>
      refine .bind (trySetFd_frame hs _ _) fun r => ?_
      cases r with
      | some st => exact .pure _
      | none =>
        refine .bind (trySetFd_frame hs _ _) fun r => ?_
        cases r with
        | some st => exact .pure _
        | none =>
          refine .bind (sys_frame (hs _)) fun _ => .ite (fun _ => .pure _) fun _ => ?_
          exact setTime_frame hs _ _ _

/-- Setting attributes locally issues system calls only. -/
theorem setAttr_frame (path : CStr) (nfh : NfsFh3) (new : Sattr3) :
    Frame r (setAttr w path nfh new) := by
  refine .bind (lstat_frame _) fun r => ?_
  cases r with
  | none => exact .pure _
  | some buf =>
    refine .ite (fun _ => setAttrUnsafe_frame hs _ _ _) fun _ =>
      .bind (sys_frame (hs _)) fun _ => ?_
    refine .bind (.ite (fun _ => sys_frame (hs _)) fun _ => .pure _) fun fd => ?_
    exact .ite (fun _ => setAttrUnsafe_frame hs _ _ _) fun _ => setAttrFd_frame hs _ _ _ _

end

theorem changeAttr_frame (hr : ∀ c, E (.rods c)) (path userName level : CStr) (comm : Comm) :
    Frame r (changeAttr w path userName level comm) :=
  .bind (debug_frame _) fun _ => .bind (debug_frame _) fun _ => .bind (debug_frame _) fun _ =>
    .bind (rods_frame (hr _)) fun _ => .pure _

theorem setAttrIrods_frame (hr : ∀ c, E (.rods c)) (path : CStr) (news : Sattr3) (owner : CStr)
    (comm : Comm) : Frame r (setAttrIrods w path news owner comm) := by
  refine .ite (fun _ => setattrFail_frame) fun _ => .ite (fun _ => setattrFail_frame) fun _ => ?_
  cases news.mode with
  | none => exact .pure _
  | some mode =>
    refine .bind (changeAttr_frame hr _ _ _ _) fun _ => ?_
    exact .ite (fun _ => setattrFail_frame) fun _ => .pure _

theorem setattrFail_returns : Returns (setattrFail : M L R Nfsstat3) := .bind .get fun _ => .pure _

theorem setTime_returns (path : CStr) (buf : Stat) (new : Sattr3) :
    Returns (setTime w path buf new) :=
  .ite (.bind .get fun _ => .bind (sys_returns _) fun _ => .ite setattrFail_returns (.pure _))
    (.pure _)

theorem trySet_returns (c : Option SysCall) : Returns (trySet w c) := by
  cases c with
  | none => exact .pure _
  | some c =>
    exact .bind (sys_returns _) fun _ =>
      .ite (.bind setattrFail_returns fun _ => .pure _) (.pure _)

theorem trySetFd_returns (fd : Int) (c : Option SysCall) : Returns (trySetFd w fd c) := by
  cases c with
  | none => exact .pure _
  | some c =>
    refine .bind (sys_returns _) fun _ => .ite (.bind ?_ fun _ => .pure _) (.pure _)
    exact .bind (sys_returns _) fun _ => setattrFail_returns

/-- After an attempt that reports its failure, the rest of `set_attr` is run. -/
theorem attempt_returns {m : M L R (Option Nfsstat3)} {n : M L R Nfsstat3} (hm : Returns m)
    (hn : Returns n) : Returns (m >>= fun | some st => pure st | none => n) := by
  refine .bind hm fun r => ?_
  cases r with
  | some st => exact .pure _
  | none => exact hn

theorem setAttrUnsafe_returns (path : CStr) (nfh : NfsFh3) (new : Sattr3) :
    Returns (setAttrUnsafe w path nfh new) := by
  refine .bind (query_returns _) fun r => ?_
  cases r with
  | none => exact .pure _
  | some buf =>
    refine .ite (.pure _) (attempt_returns (trySet_returns _) ?_)
    refine attempt_returns (trySet_returns _) (attempt_returns (trySet_returns _) ?_)
    exact setTime_returns _ _ _

theorem setAttrFd_returns (path : CStr) (nfh : NfsFh3) (new : Sattr3) (fd : Int) :
    Returns (setAttrFd w path nfh new fd) := by
  refine .bind (query_returns _) fun r => ?_
  cases r with
  | none => exact .bind (sys_returns _) fun _ => .pure _
  | some buf =>
    refine .ite (.bind (sys_returns _) fun _ => .pure _) (attempt_returns (trySetFd_returns _ _) ?_)
    refine attempt_returns (trySetFd_returns _ _) (attempt_returns (trySetFd_returns _ _) ?_)
    exact .bind (sys_returns _) fun _ => .ite (.pure _) (setTime_returns _ _ _)

/-- Setting attributes locally always returns. -/
theorem setAttr_returns (path : CStr) (nfh : NfsFh3) (new : Sattr3) :
    Returns (setAttr w path nfh new) := by
  refine .bind (query_returns _) fun r => ?_
  cases r with
  | none => exact .pure _
  | some buf =>
    refine .ite (setAttrUnsafe_returns _ _ _) (.bind (sys_returns _) fun _ => ?_)
    refine .bind (.ite (sys_returns _) (.pure _)) fun fd => ?_
    exact .ite (setAttrUnsafe_returns _ _ _) (setAttrFd_returns _ _ _ _)

theorem setAttrIrods_returns (path : CStr) (news : Sattr3) (owner : CStr) (comm : Comm) :
    Returns (setAttrIrods w path news owner comm) := by
  refine .ite setattrFail_returns (.ite setattrFail_returns ?_)
  cases news.mode with
  | none => exact .pure _
  | some mode =>
    refine .bind (.bind (debug_returns _) fun _ => .bind (debug_returns _) fun _ =>
      .bind (debug_returns _) fun _ => .bind (rods_returns _) fun _ => .pure _) fun _ => ?_
    exact .ite setattrFail_returns (.pure _)

end

end NfsRods
