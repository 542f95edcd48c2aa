import NfsRods.Lib.FirstUse
import NfsRods.Types

/-!
# Reloading the export list while a request is served

`daemon_exit` calls `exports_parse` from the handler of `SIGHUP`, wherever the signal interrupts the
daemon, and `exports_parse` frees the list in force unless `exports_access` is set. This module is
about the pointers into that list: the global `export_path`, and the paths `export_point_from_fsid`
returns.

* `ListStep`: what a statement does to these pointers; `ExportsMem` has the number of the list each
  of them points into, `ExportsMem.hup` is the signal.
* `Steps`: for every function that touches them, and every procedure, the sequences of such steps
  it can take, as a regular expression. The outcome of a test that does not concern the pointers is
  left open. `nfsProgram_steps` in `NfsRods.Proof.Procedures` compares them with the procedures.
* `Served`: the daemon serves one request after the other and is interrupted between any two steps.
-/

namespace NfsRods

/-! ## Pointers into the export list -/

/-- The variables that can hold a path returned by `export_point_from_fsid`: the path `PREP`
assigns, RENAME's `to`, and the `path` of `fh_extend`. -/
inductive PathVar
  | prep | renameTo | extend
  deriving DecidableEq, Repr

/-- A step of the daemon, as far as the export list is concerned. -/
inductive ListStep
  /-- `exports_access = TRUE` -/
  | enter
  /-- `exports_access = FALSE` -/
  | leave
  /-- `export_path = NULL` -/
  | clearPath
  /-- `export_path = list->path` -/
  | setPath
  /-- the variable gets `list->path` of the item found by `export_point_from_fsid` -/
  | setPoint (v : PathVar)
  /-- the string at `export_path` is read -/
  | readPath
  /-- the string at the variable is read -/
  | readPoint (v : PathVar)
  deriving DecidableEq, Repr

/-- The lists freed so far, so that the list in force has that number; `exports_access`; and the
number of the list each pointer points into (`none` is `NULL` or other memory). -/
structure ExportsMem where
  freed : Nat := 0
  access : Bool := false
  exportPath : Option Nat := none
  point : PathVar → Option Nat := fun _ => none

def ListStep.run (m : ExportsMem) : ListStep → ExportsMem
  | .enter => { m with access := true }
  | .leave => { m with access := false }
  | .clearPath => { m with exportPath := none }
  | .setPath => { m with exportPath := some m.freed }
  | .setPoint v => { m with point := fun u => if u = v then some m.freed else m.point u }
  | .readPath | .readPoint _ => m

/-- `daemon_exit(SIGHUP)`: `exports_parse` does nothing while the list is being traversed, and frees
it otherwise, whether or not it can open and parse the file. -/
def ExportsMem.hup (m : ExportsMem) : ExportsMem :=
  if m.access then m else { m with freed := m.freed + 1 }

/-! ## What the functions do -/

namespace Steps

open ListStep

/-- The step sequences of a piece of code. -/
abbrev Code := RegularExpression ListStep

def step (a : ListStep) : Code := .char a

/-- The code may be skipped, or left before. -/
def maybe (c : Code) : Code := 1 + c

/-- A string is read some number of times, if it is one of the list's. -/
def uses : Option PathVar → Code
  | none => 1
  | some v => .star (step (readPoint v))

/-! ### `exports.y` -/

/-- `exports_options`: the path is searched for `/../`, and compared in the loop. -/
def exportsOptions (path : Option PathVar) : Code :=
  step clearPath * uses path *
    maybe (step enter * .star (uses path * maybe (step setPath)) * step leave)

/-- `exports_compat`. -/
def exportsCompat (path : Option PathVar) : Code := exportsOptions path

/-- `export_point`. -/
def exportPoint (path : Option PathVar) : Code := step enter * uses path * step leave

/-- `export_point_from_fsid` that finds an item. -/
def exportPointFound (v : PathVar) : Code := step enter * step (setPoint v) * step leave

/-- `export_point_from_fsid` that finds none. -/
def exportPointMissed : Code := step enter * step leave

/-! ### `fh.c`, `fh_cache.c` and `attr.c` -/

/-- `fh_comp_raw`; the special handles are for requests only. -/
def fhCompRaw (path : Option PathVar) (rqstp : Bool) : Code :=
  (if rqstp then exportPoint path * maybe (exportsOptions path) else 1) * uses path

/-- `fh_extend`, also through `fh_extend_post` and `fh_extend_type`. -/
def fhExtend : Code :=
  maybe (exportPointMissed + exportPointFound .extend * fhCompRaw (some .extend) false)

/-- `fh_decomp` that returns a path of its own or none: the handle is invalid, its device is no
export point's, or its inode is not 1. -/
def fhDecompOther (v : PathVar) : Code := maybe (exportPointMissed + exportPointFound v)

/-- `fh_decomp` that returns the path of an export point. -/
def fhDecompPoint (v : PathVar) : Code := exportPointFound v

/-- `get_post_buf`: `export_path` is read for a removable export. -/
def getPostBuf : Code := maybe (step readPath)

/-- `get_post_attr` and `get_post_stat`. -/
def getPostLl (path : Option PathVar) : Code := uses path * maybe getPostBuf

/-- `get_post_cached`. -/
def getPostCached : Code := maybe getPostBuf

/-! ### `rodscapi.c` and `nfs.c` -/

/-- `isPublic`. -/
def isPublic : Code := step readPath

/-- `getNFSDirectory`. -/
def getNFSDirectory : Code := isPublic

/-- `getRealPathNFS`: `concat(export_path, "/")`, and `strlen(export_path)` unless the path has the
directory already. It may return its argument. -/
def getRealPathNFS (path : Option PathVar) : Code :=
  uses path * isPublic *
    maybe (getNFSDirectory * step readPath * uses path * maybe (step readPath * uses path))

/-- `getIRODSpathGetAttr`. -/
def getIRODSpathGetAttr (path : Option PathVar) : Code :=
  isPublic * step readPath * uses path

/-- `getRodsPath`. -/
def getRodsPath (path : Option PathVar) : Code := isPublic * uses path

/-- `rodsConnecUser`. -/
def rodsConnecUser : Code := isPublic

/-- The iRODS name of a path. -/
def rodsName (path : Option PathVar) : Code := getIRODSpathGetAttr path * getRodsPath none

/-- `PREP` with the procedure's body, for the path that `fh_decomp` returned. -/
def prep (body : Option PathVar → Code) : Code :=
  fhDecompOther .prep * exportsOptions none * maybe (body none) +
    fhDecompPoint .prep * exportsOptions (some .prep) * maybe (body (some .prep))

/-- `getRealPathNFS(obj)` for the log and again for `toArray`. -/
def rewriteObj : Code := getRealPathNFS none * getRealPathNFS none

/-! ### The procedures -/

def getattr (path : Option PathVar) : Code :=
  rodsName path * getRealPathNFS path * uses path * getPostCached * maybe rodsConnecUser

def setattr (path : Option PathVar) : Code :=
  getRealPathNFS path * uses path * maybe (rodsConnecUser * rodsName path) * getPostLl path

def lookup (path : Option PathVar) : Code :=
  uses path * getRodsPath path * uses path * getRealPathNFS path * uses path *
    maybe ((fhCompRaw none true + fhExtend) * maybe getPostBuf) *
    getPostLl path * maybe rodsConnecUser

def access (path : Option PathVar) : Code :=
  getRealPathNFS path * uses path * rodsConnecUser * rodsName path * uses path * getPostCached

def read (path : Option PathVar) : Code :=
  maybe (rodsConnecUser * getRealPathNFS path * uses path * rodsName path) * getPostLl path

def write (path : Option PathVar) : Code :=
  getRealPathNFS path * uses path * maybe (rodsConnecUser * rodsName path) * getPostLl path

def create (path : Option PathVar) : Code :=
  uses path * rewriteObj * rodsConnecUser * rodsName none * maybe (fhExtend * getPostBuf) *
    getPostLl path

def mkdir (path : Option PathVar) : Code :=
  uses path * rewriteObj *
    maybe (rodsConnecUser * rodsName none * maybe (fhExtend * getPostCached)) * getPostLl path

/-- REMOVE and RMDIR. -/
def unlink (path : Option PathVar) : Code :=
  uses path * rewriteObj * rodsConnecUser * rodsName none * getPostLl path

/-- RENAME once both directories are resolved. -/
def renameDirs (from_ to_ : Option PathVar) : Code :=
  maybe (uses to_ * exportsCompat to_ * rewriteObj * rewriteObj *
    maybe (rodsConnecUser * uses from_ * uses to_ * rodsName none * rodsName none)) *
  getPostLl from_ * getPostLl to_

def rename (path : Option PathVar) : Code :=
  uses path * (fhDecompOther .renameTo * renameDirs path none +
    fhDecompPoint .renameTo * renameDirs path (some .renameTo))

/-- READDIR; `read_dir` asks for an export point when the directory cannot be opened. -/
def readdir (path : Option PathVar) : Code :=
  rodsName path * uses path * getRealPathNFS path * getRealPathNFS path * uses path *
    rodsConnecUser * uses path * maybe (exportPoint path) * uses path * getPostLl path

def fsstat (path : Option PathVar) : Code :=
  getPostCached * uses path * maybe (exportPoint path)

/-- FSINFO and PATHCONF. -/
def fsinfo (_ : Option PathVar) : Code := getPostCached

/-- `mountproc_mnt_3_svc`. -/
def mnt : Code :=
  maybe (maybe (exportsOptions none) * maybe (exportPoint none) *
    maybe (exportsOptions none * maybe (fhCompRaw none true)))

end Steps

/-- The procedures of the NFS and MOUNT programs; `other` are those that touch neither handle nor
export list (`NULL`, READLINK, SYMLINK, MKNOD, LINK, READDIRPLUS, COMMIT, and all of MOUNT but
MNT). -/
inductive Procedure
  | getattr | setattr | lookup | access | read | write | create | mkdir | remove | rmdir | rename
  | readdir | fsstat | fsinfo | pathconf | mnt | other
  deriving DecidableEq, Repr

/-- The steps a procedure can take. -/
def Procedure.steps : Procedure → Steps.Code
  | getattr => Steps.prep Steps.getattr
  | setattr => Steps.prep Steps.setattr
  | lookup => Steps.prep Steps.lookup
  | access => Steps.prep Steps.access
  | read => Steps.prep Steps.read
  | write => Steps.prep Steps.write
  | create => Steps.prep Steps.create
  | mkdir => Steps.prep Steps.mkdir
  | remove => Steps.prep Steps.unlink
  | rmdir => Steps.prep Steps.unlink
  | rename => Steps.prep Steps.rename
  | readdir => Steps.prep Steps.readdir
  | fsstat => Steps.prep Steps.fsstat
  | fsinfo => Steps.prep Steps.fsinfo
  | pathconf => Steps.prep Steps.fsinfo
  | mnt => Steps.mnt
  | other => 1

/-! ## Runs with interruptions -/

/-- The runs of the daemon in which every reload that takes effect meets `P`: what the pointers
are, and the steps still to be taken for the request being served. -/
inductive Served (P : ExportsMem → List ListStep → Prop) : ExportsMem → List ListStep → Prop
  | start : Served P {} []
  | request {m : ExportsMem} {p : Procedure} {w : List ListStep} :
      Served P m [] → w ∈ p.steps.matches' → Served P m w
  | step {m : ExportsMem} {a : ListStep} {w : List ListStep} :
      Served P m (a :: w) → Served P (a.run m) w
  | hup {m : ExportsMem} {w : List ListStep} :
      Served P m w → (m.access = false → P m w) → Served P m.hup w

/-- The next step reads a string of a list that has been freed. -/
def ReadsFreed (m : ExportsMem) : List ListStep → Prop
  | .readPath :: _ => ∃ n, m.exportPath = some n ∧ n < m.freed
  | .readPoint v :: _ => ∃ n, m.point v = some n ∧ n < m.freed
  | _ => False

end NfsRods
