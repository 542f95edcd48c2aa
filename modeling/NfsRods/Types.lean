import NfsRods.Lib.CStr

/-!
# Protocol and system types

The data the daemon exchanges with its clients (`nfs.h`), with the kernel and with iRODS. Widths
are those of the shipped `config.h` on a 64-bit Linux: `HAVE_XDR_U_LONG` makes the source's
`uint32` an `unsigned long` (`ULong`); `uid_t`, `gid_t` and `in_addr` have 32 bits.
-/

namespace NfsRods

/-- The source's `uint32` (`u_long`, 64 bits). -/
abbrev ULong := UInt64

/-- `NFS_MAXPATHLEN`. -/
def maxPathLen : Nat := 1024

/-- `nfsstat3`. -/
inductive Nfsstat3
  | ok | perm | noent | io | nxio | acces | exist | xdev | nodev | notdir | isdir | inval | fbig
  | nospc | rofs | mlink | nametoolong | notempty | dquot | stale | remote | badhandle | notSync
  | badCookie | notsupp | toosmall | serverfault | badtype | jukebox
  deriving DecidableEq, Repr

/-- `ftype3`; `none` is the zero of a cleared result. -/
inductive Ftype3
  | none | reg | dir | blk | chr | lnk | sock | fifo
  deriving DecidableEq, Repr

/-- `errno` values the source names; the others by number. -/
inductive Errno
  | eperm | enoent | eio | enxio | eacces | eexist | exdev | enodev | enotdir | eisdir | einval
  | efbig | enospc | erofs | emlink | enametoolong | enosys | enotempty | eloop | edquot
  | enomedium
  | other (n : Nat)
  deriving DecidableEq, Repr

/-- `struct stat`. -/
structure Stat where
  dev : ULong := 0
  ino : ULong := 0
  mode : Nat := 0
  nlink : Nat := 0
  uid : UInt32 := 0
  gid : UInt32 := 0
  rdev : Nat := 0
  size : Nat := 0
  blksize : Nat := 0
  blocks : Nat := 0
  atime : Int := 0
  mtime : Int := 0
  ctime : Int := 0
  deriving DecidableEq, Repr

/-- The file type bits of a mode. -/
def Stat.fmt (b : Stat) : Nat := b.mode &&& 0o170000

def Stat.isReg (b : Stat) : Bool := b.fmt == 0o100000
def Stat.isDir (b : Stat) : Bool := b.fmt == 0o040000
def Stat.isBlk (b : Stat) : Bool := b.fmt == 0o060000
def Stat.isChr (b : Stat) : Bool := b.fmt == 0o020000
def Stat.isLnk (b : Stat) : Bool := b.fmt == 0o120000
def Stat.isSock (b : Stat) : Bool := b.fmt == 0o140000
def Stat.isFifo (b : Stat) : Bool := b.fmt == 0o010000

/-- `struct dirent`: the name and whether `d_type` is `DT_DIR`. -/
structure Dirent where
  name : CStr
  isDir : Bool := false
  deriving DecidableEq, Repr

/-- `set_it` of a time to set; `other` is a number that is none of `time_how`. -/
inductive TimeHow
  | dontChange | setToServerTime | setToClientTime (seconds : Nat) | other
  deriving DecidableEq, Repr

/-- `sattr3`: the attributes a client wants set. -/
structure Sattr3 where
  mode : Option Nat := none
  uid : Option UInt32 := none
  gid : Option UInt32 := none
  size : Option Nat := none
  atime : TimeHow := .dontChange
  mtime : TimeHow := .dontChange
  deriving DecidableEq, Repr

/-- `fattr3`. -/
structure Fattr3 where
  type : Ftype3 := .none
  mode : Nat := 0
  nlink : Nat := 0
  uid : UInt32 := 0
  gid : UInt32 := 0
  size : Nat := 0
  used : Nat := 0
  specdata1 : Nat := 0
  specdata2 : Nat := 0
  fsid : ULong := 0
  fileid : ULong := 0
  atime : Int := 0
  mtime : Int := 0
  ctime : Int := 0
  deriving DecidableEq, Repr

/-- `post_op_attr`: the union keeps its attributes when `attributes_follow` is cleared. -/
structure PostOpAttr where
  follow : Bool := false
  attributes : Fattr3 := {}
  deriving DecidableEq, Repr

/-- `pre_op_attr` (`wcc_attr` when it follows). -/
structure PreOpAttr where
  follow : Bool := false
  size : Nat := 0
  mtime : Int := 0
  ctime : Int := 0
  deriving DecidableEq, Repr

/-- `wcc_data`. -/
structure WccData where
  before : PreOpAttr := {}
  after : PostOpAttr := {}
  deriving DecidableEq, Repr

/-- `unfs3_fh_t`: the inode hashes `inos` lead from the root to the object. -/
structure Unfs3Fh where
  dev : ULong := 0
  ino : ULong := 0
  gen : ULong := 0
  pwhash : ULong := 0
  len : Nat := 0
  inos : List UInt8 := []
  deriving DecidableEq, Repr

/-- `nfs_fh3`: a client's handle, `dataLen` bytes read as an `unfs3_fh_t`. -/
structure NfsFh3 where
  dataLen : Nat
  obj : Unfs3Fh
  deriving DecidableEq, Repr

/-- `diropargs3`. -/
structure Diropargs3 where
  dir : NfsFh3
  name : CStr
  deriving DecidableEq, Repr

/-- `oa_flavor` of the credential. -/
inductive AuthFlavor
  | unix | other (n : Nat)
  deriving DecidableEq, Repr

/-- The length of a null verifier. -/
def nullVerf : Fin 401 := 0

/-- `struct svc_req`: the program version, the caller's address and port, the length of the verifier
that the reply carries (`MAX_AUTH_BYTES` at most), the flavour, and what `rq_clntcred` reads as
`struct authunix_parms`. -/
structure SvcReq where
  vers : Nat := 3
  remote : UInt32
  port : Nat := 1023
  stream : Bool := true
  verf : Fin 401 := nullVerf
  flavor : AuthFlavor := .unix
  uid : UInt32
  gid : UInt32
  gids : List UInt32 := []
  deriving DecidableEq, Repr

/-- Conversion of a 32-bit id to C `int`. -/
def toCInt (u : UInt32) : Int := if u.toNat < 2 ^ 31 then u.toNat else u.toNat - 2 ^ 32

theorem toCInt_inj {u v : UInt32} (h : toCInt u = toCInt v) : u = v := by
  have hu := u.toNat_lt
  have hv := v.toNat_lt
  apply UInt32.toNat_inj.1
  unfold toCInt at h
  split at h <;> split at h <;> omega

end NfsRods
