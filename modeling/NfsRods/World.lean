import NfsRods.Types

/-!
# The world outside the daemon

What the daemon calls but does not contain: the kernel, the password database, the iRODS client
library, and the C run time where its answer is not determined. A `World L R` answers every call
over kernel states `L` and iRODS states `R`; nothing else is assumed of it than its fields
`sys_tree` and `rods_store`: a call that creates, writes, unlinks, renames or changes access to
nothing (`SysCall.mutates`, `RodsCall.mutates`) leaves the local tree, respectively the iRODS
store, as it was.
-/

namespace NfsRods

/-! ## The kernel -/

inductive Access
  | rdonly | wronly | rdwr
  deriving DecidableEq, Repr

/-- Flags of `open`. -/
structure OpenFlags where
  access : Access
  creat : Bool := false
  trunc : Bool := false
  excl : Bool := false
  nonblock : Bool := false
  deriving DecidableEq, Repr

/-- System calls that change kernel state. -/
inductive SysCall
  | open_ (path : CStr) (flags : OpenFlags) (mode : Nat)
  | close (fd : Int)
  | pwrite (fd : Int) (data : List UInt8) (offset : Nat)
  | fsync (fd : Int)
  | ftruncate (fd : Int) (size : Nat)
  | truncate (path : CStr) (size : Nat)
  | fchown (fd : Int) (uid gid : UInt32)
  | lchown (path : CStr) (uid gid : UInt32)
  | fchmod (fd : Int) (mode : Nat)
  | chmod (path : CStr) (mode : Nat)
  | utime (path : CStr) (actime modtime : Int)
  | mkdir (path : CStr) (mode : Nat)
  | remove (path : CStr)
  | rmdir (path : CStr)
  | rename (src dst : CStr)
  /-- `system(3)`: the command line is run by a shell. -/
  | system (command : CStr)
  /-- The iRODS client library stores a downloaded object in a local file. -/
  | store (path : CStr) (data : List UInt8)
  | seteuid (uid : UInt32)
  | setegid (gid : UInt32)
  | setgroups (gids : List UInt32)
  deriving DecidableEq, Repr

/-- The call creates, writes, unlinks, renames or changes access to something in the tree. -/
def SysCall.mutates : SysCall → Bool
  | .open_ _ f _ => f.creat || f.trunc
  | .close _ | .fsync _ | .seteuid _ | .setegid _ | .setgroups _ => false
  | _ => true

/-! ## iRODS -/

/-- The user and zone (`NULL` when `ZONE` is) a proxy connection acts for. -/
abbrev Client := CStr × Option CStr

/-- An open connection (`rcComm_t`): its number, and its client when it is a proxy connection. -/
structure Conn where
  id : Int
  client : Option Client := none
  deriving DecidableEq, Repr

/-- `rcComm_t *`: `none` is `NULL`. -/
abbrev Comm := Option Conn

/-- `dataObjInp_t` of `rcDataObjCreate`. -/
structure DataObjInp where
  objPath : CStr
  createMode : Nat
  dataSize : Nat
  access : Access
  resc : CStr
  deriving DecidableEq, Repr

/-- `genQueryInp_t`: selected columns, conditions and the continuation of an earlier query. -/
structure GenQueryInp where
  selects : List Nat
  conds : List (Nat × CStr)
  continueInx : Int := 0
  deriving DecidableEq, Repr

inductive RodsCall
  | rcConnect (client : Option Client)
  | clientLogin (comm : Conn)
  | rcDisconnect (comm : Comm)
  | rcDataObjOpen (comm : Comm) (objPath : CStr) (access : Access)
  | rcDataObjOpenAndStat (comm : Comm) (objPath : CStr) (access : Access) (resc : CStr)
  | rcDataObjRead (comm : Comm) (desc : Int) (len offset : Nat)
  /-- `rcDataObjLseek` with `SEEK_CUR`. -/
  | rcDataObjLseek (comm : Comm) (desc : Int) (offset : Int)
  | rcDataObjWrite (comm : Comm) (desc : Int) (data : List UInt8)
  | rcDataObjClose (comm : Comm) (desc : Int)
  | rcDataObjCreate (comm : Comm) (inp : DataObjInp)
  | rcDataObjUnlink (comm : Comm) (objPath : CStr) (force : Bool)
  | rcDataObjRename (comm : Comm) (src dest : CStr)
  | rcDataObjGet (comm : Comm) (objPath localPath : CStr) (verify force : Bool)
  | rcCollCreate (comm : Comm) (collName : CStr) (recursive : Bool)
  | rcRmColl (comm : Comm) (collName : CStr) (recursive force : Bool)
  | rcModAccessControl (comm : Comm) (path userName accessLevel : CStr) (zone : Option CStr)
  | rcOpenCollection (comm : Comm) (collName : CStr)
  | rcReadCollection (comm : Comm) (handle : Int)
  | rcCloseCollection (comm : Comm) (handle : Int)
  | rcGenQuery (comm : Comm) (inp : GenQueryInp)
  deriving DecidableEq, Repr

/-- The call creates, writes, removes, renames or changes access to something in the store
(closing an object registers what was written). -/
def RodsCall.mutates : RodsCall → Bool
  | .rcDataObjWrite .. | .rcDataObjClose .. | .rcDataObjCreate .. | .rcDataObjUnlink ..
  | .rcDataObjRename .. | .rcCollCreate .. | .rcRmColl .. | .rcModAccessControl .. => true
  | _ => false

/-- `collEnt_t`: a data object or a sub-collection. -/
inductive CollEnt
  | dataObj (dataName : Option CStr)
  | coll (collName : CStr)
  deriving DecidableEq, Repr

/-- `genQueryOut_t`: the first row's values, and whether more batches follow. -/
structure GenQueryOut where
  rowCnt : Nat
  values : List CStr
  continueInx : Int
  deriving DecidableEq, Repr

/-- The answer to a call: its status and, for the calls that have one, its output. -/
structure RodsReply where
  status : Int
  data : List UInt8 := []
  dataSize : Option Int := none
  ent : Option CollEnt := none
  query : Option GenQueryOut := none
  deriving DecidableEq, Repr

/-- What a path names in the iRODS store. -/
inductive RodsObj
  | coll
  | data (contents : List UInt8)
  deriving DecidableEq, Repr

/-- The iRODS store: what each logical path names. -/
abbrev Store := CStr → Option RodsObj

/-- The local tree: the attributes of what each path names. -/
abbrev Tree := CStr → Option Stat

/-! ## The world -/

/-- Start-up options and the settings read from `.nfsrods-config.json`; `zone` is `none` when
`ZONE` was never assigned. -/
structure Conf where
  zone : Option CStr
  privateColl : Bool
  singleuser : Bool := false
  bruteForce : Bool := false
  readableExecutables : Bool := false
  deriving DecidableEq, Repr

/-- Indeterminate memory: a buffer read as a string, an unset `sattr3`, an unset `int`. -/
structure Junk where
  buf : CStr := []
  attr : Sattr3 := {}
  int : Int := 0
  deriving DecidableEq, Repr

structure World (L R : Type) where
  conf : Conf
  /-- A system call: its result or `errno`, and the kernel state after it. -/
  sys : SysCall → L → Except Errno Int × L
  tree : L → Tree
  lstat : L → CStr → Except Errno Stat
  stat : L → CStr → Except Errno Stat
  fstat : L → Int → Except Errno Stat
  /-- The entries of a directory in the order `readdir` gives them. -/
  readdir : L → CStr → Except Errno (List Dirent)
  realpath : L → CStr → Option CStr
  /-- `statvfs`: blocks, free, available, files, free files, each block `f_frsize` bytes. -/
  statvfs : L → CStr → Option (Nat × Nat × Nat × Nat × Nat × Nat)
  /-- The mount points of `/etc/mtab`; `none` when it cannot be opened. -/
  mtab : L → Option (List CStr)
  time : L → Int
  geteuid : L → UInt32
  getegid : L → UInt32
  getuid : UInt32
  getgid : UInt32
  getpwuid : UInt32 → Option CStr
  /-- `gen_nonce`: the 32 bytes the `n`-th call draws. -/
  genNonce : Nat → List UInt8
  md5 : List UInt8 → List UInt8
  rand : Nat → Nat
  getpid : Nat
  /-- `getRodsEnv` finds the daemon's iRODS environment. -/
  rodsEnv : Bool
  /-- `rodsDefResource` as it reads after `getRodsEnv`, successful or not. -/
  rodsDefResource : CStr
  rods : RodsCall → R → RodsReply × R
  store : R → Store
  /-- The rows of the iRODS catalogue; no listing and no query goes on for longer. -/
  catalogue : R → Nat
  /-- What library calls leave in `errno`. -/
  errnoAfter : Nat → Errno → Errno
  junk : Nat → Junk
  /-- What reads as a string at an offset past the terminator of a string. -/
  past : CStr → Nat → CStr
  sys_tree : ∀ c l, c.mutates = false → tree (sys c l).2 = tree l
  rods_store : ∀ c r, c.mutates = false → store (rods c r).2 = store r

/-! ## Events -/

/-- What a run does that can be observed from outside or matters for memory safety: the calls it
issues, the values of `export_path` it uses, the copies into a path buffer (whether the buffer had
been filled before, and the length of the string copied), and the names of the data objects iRODS
lists to it. -/
inductive Event
  | sys (c : SysCall)
  | rods (c : RodsCall)
  | exportPath (p : Option CStr)
  | toArray (filled : Bool) (len : Nat)
  | listed (dataName : CStr)
  deriving DecidableEq, Repr

/-- The event changes the local tree or the iRODS store. -/
def Event.mutates : Event → Bool
  | .sys c => c.mutates
  | .rods c => c.mutates
  | _ => false

/-- The event changes neither tree nor store and copies nothing into a path buffer. -/
def Event.calm : Event → Bool
  | .toArray .. => false
  | e => !e.mutates

end NfsRods
