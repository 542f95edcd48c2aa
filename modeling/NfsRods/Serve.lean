import NfsRods.Nfs.Frame
import NfsRods.Mount

/-!
# The daemon

`daemon.c`'s dispatchers: a request is answered by its procedure, and the daemon waits for the next.
Between requests other processes use the local tree and iRODS, the exports are reloaded and idle
descriptors are closed (`Between`).

* `Initial`: the state after start-up.
* `Run`: a run of the daemon, with the NFS requests it served and the states they arrived in.
-/

namespace NfsRods

open CStr

/-- A call of the NFS program; procedures the daemon does not support have no arguments here. -/
inductive NfsRequest
  | null
  | getattr (object : NfsFh3)
  | setattr (object : NfsFh3) (new : Sattr3)
  | lookup (what : Diropargs3)
  | access (object : NfsFh3) (access : Nat)
  | read (file : NfsFh3) (offset count : Nat)
  | write (args : Write3args)
  | create (args : Diropargs3) (how : Createhow3)
  | mkdir (args : Diropargs3) (attributes : Sattr3)
  | remove (object : Diropargs3)
  | rmdir (object : Diropargs3)
  | rename (argsFrom argsTo : Diropargs3)
  | readdir (dir : NfsFh3) (cookie : UInt64) (count : Nat)
  | fsstat (fsroot : NfsFh3)
  | fsinfo (fsroot : NfsFh3)
  | pathconf (object : NfsFh3)
  /-- READLINK, SYMLINK, MKNOD, LINK, READDIRPLUS and COMMIT. -/
  | unsupported
  deriving DecidableEq, Repr

/-- The handle that `PREP` is given. -/
def NfsRequest.handle : NfsRequest → Option NfsFh3
  | .null | .unsupported => none
  | .getattr object | .setattr object _ | .access object _ | .pathconf object => some object
  | .lookup what => some what.dir
  | .read file _ _ => some file
  | .write args => some args.file
  | .create args _ | .mkdir args _ => some args.dir
  | .remove object | .rmdir object => some object.dir
  | .rename argsFrom _ => some argsFrom.dir
  | .readdir dir _ _ => some dir
  | .fsstat fsroot | .fsinfo fsroot => some fsroot

inductive NfsReply
  | null
  | getattr (r : Getattr3res)
  | setattr (r : Setattr3res)
  | lookup (r : Lookup3res)
  | access (r : Access3res)
  | read (r : Read3res)
  | write (r : Write3res)
  | create (r : Create3res)
  | mkdir (r : Create3res)
  | remove (r : Remove3res)
  | rmdir (r : Remove3res)
  | rename (r : Rename3res)
  | readdir (r : Readdir3res)
  | fsstat (r : Fsstat3res)
  | fsinfo (r : Fsinfo3res)
  | pathconf (r : Pathconf3res)
  | unsupported (status : Nfsstat3)
  deriving DecidableEq, Repr

/-- A call of the MOUNT program. -/
inductive MountRequest
  | null
  | mnt (argp : CStr)
  | dump
  | umnt (argp : CStr)
  | umntall
  deriving DecidableEq, Repr

section
variable {L R : Type} (w : World L R)

/-- Run a procedure and wrap its result. -/
def replyWith {α : Type} (f : α → NfsReply) (m : M L R α) : M L R NfsReply := do
  let r ← m
  pure (f r)

/-- `nfs3_program_3`. -/
def nfsProgram (rq : SvcReq) : NfsRequest → M L R NfsReply
  | .null => pure .null
  | .getattr object => replyWith .getattr (nfsproc3Getattr w object rq)
  | .setattr object new => replyWith .setattr (nfsproc3Setattr w object new rq)
  | .lookup what => replyWith .lookup (nfsproc3Lookup w what rq)
  | .access object access => replyWith .access (nfsproc3Access w object access rq)
  | .read file offset count => replyWith .read (nfsproc3Read w file offset count rq)
  | .write args => replyWith .write (nfsproc3Write w args rq)
  | .create args how => replyWith .create (nfsproc3Create w args how rq)
  | .mkdir args attributes => replyWith .mkdir (nfsproc3Mkdir w args attributes rq)
  | .remove object => replyWith .remove (nfsproc3Remove w object rq)
  | .rmdir object => replyWith .rmdir (nfsproc3Rmdir w object rq)
  | .rename argsFrom argsTo => replyWith .rename (nfsproc3Rename w argsFrom argsTo rq)
  | .readdir dir cookie count => replyWith .readdir (nfsproc3Readdir w dir cookie count rq)
  | .fsstat fsroot => replyWith .fsstat (nfsproc3Fsstat w fsroot rq)
  | .fsinfo fsroot => replyWith .fsinfo (nfsproc3Fsinfo w fsroot rq)
  | .pathconf object => replyWith .pathconf (nfsproc3Pathconf w object rq)
  | .unsupported => pure (.unsupported .notsupp)

/-- The state in which a request is served: its credential's group list is in place. -/
def enter (rq : SvcReq) (s : Server L R) : Server L R := { s with gids := rq.gids }

/-- Serve an NFS request. -/
def serveNfs (rq : SvcReq) (q : NfsRequest) : M L R NfsReply := fun s =>
  nfsProgram w rq q (enter rq s)

/-- `mountprog_3`. -/
def serveMount (rq : SvcReq) : MountRequest → M L R Unit
  | .null => pure ()
  | .mnt argp => do
    let _ ← mountprocMnt w argp rq
  | .dump => do
    let _ ← mountprocDump
  | .umnt argp => mountprocUmnt w argp rq
  | .umntall => mountprocUmntall w rq

/-- The state after start-up; `get_squash_ids` has looked up `nobody`. -/
def Initial (s : Server L R) : Prop :=
  ∃ k r list uid gid verf, s =
    { kernel := k, rods := r, exportList := list, squashUid := uid, squashGid := gid
      wverf := verf }

/-- What happens between two NFS requests. -/
inductive Between : Server L R → Server L R → Prop
  | mount {s s' : Server L R} (rq : SvcReq) (q : MountRequest)
    (h : serveMount w rq q s = (.ok (), s')) : Between s s'
  /-- Other processes change the local tree and the iRODS store. -/
  | outside (s : Server L R) (k : L) (r : R) : Between s { s with kernel := k, rods := r }
  /-- A signal makes the daemon parse its exports file again. -/
  | reload (s : Server L R) (list : List EItem) : Between s { s with exportList := list }
  | idle {s s' : Server L R} (h : fdCacheCloseInactive w s = (.ok (), s')) : Between s s'

end

/-- An NFS request and the state it arrives in. -/
structure Visit (L R : Type) where
  rq : SvcReq
  call : NfsRequest
  state : Server L R

section
variable {L R : Type} (w : World L R)

/-- How the daemon serves a visit. -/
def Visit.serve (v : Visit L R) : Except Stop NfsReply × Server L R :=
  serveNfs w v.rq v.call v.state

/-- The events of serving a visit. -/
def Visit.events (v : Visit L R) : List Event := since v.state (v.serve w).2

/-- `Runs log x`: from start-up the daemon has served the visits of `log` in order and is now in the
state `x`, or has stopped. -/
inductive Runs : List (Visit L R) → Option (Server L R) → Prop
  | start {s : Server L R} (h : Initial s) : Runs [] (some s)
  | between {log : List (Visit L R)} {s s' : Server L R} (h : Runs log (some s))
    (hs : Between w s s') : Runs log (some s')
  | replied {log : List (Visit L R)} {v : Visit L R} (h : Runs log (some v.state))
    {reply : NfsReply} (hr : (v.serve w).1 = .ok reply) : Runs (log ++ [v]) (some (v.serve w).2)
  | stopped {log : List (Visit L R)} {v : Visit L R} (h : Runs log (some v.state)) {st : Stop}
    (hr : (v.serve w).1 = .error st) : Runs (log ++ [v]) none

/-- A run of the daemon. -/
structure Run where
  log : List (Visit L R)
  last : Option (Server L R)
  runs : Runs w log last

variable {w} in
/-- A run goes on with a visit that gets a reply. -/
def Run.next (r : Run w) (v : Visit L R) {reply : NfsReply} (h : r.last = some v.state)
    (hr : (v.serve w).1 = .ok reply) : Run w :=
  ⟨r.log ++ [v], some (v.serve w).2, .replied (h ▸ r.runs) hr⟩

end

end NfsRods
