import NfsRods.Inet
import NfsRods.Lib.Chain
import NfsRods.Mount

/-!
# The mount list in memory

`mount.c` keeps the mount list as a chain of cells from `malloc` and counts its entries in a
variable of its own. A call that would read a cell that is not there, follow pointers without end or
count beyond `INT_MAX` has no result.

`Mountd` is the daemon with this list. The server's own list is kept beside it, as what the list
stands for; which entries are there and whether descriptors are purged is up to the memory.
-/

namespace NfsRods

/-- The strings of a `struct mountbody`; the rest of it is the cell. -/
structure Mountbody where
  hostname : CStr
  directory : CStr
  deriving DecidableEq, Repr

/-- The cells in use, `mount_list` and `mount_cnt`. -/
structure MountTable where
  bodies : Cells Mountbody := fun _ => none
  mountList : Option Nat := none
  mountCnt : Int := 0

/-- What the calls of `malloc` in `add_mount` return: the address of the cell, and whether there is
memory for the strings. -/
structure Mallocs where
  body : Option Nat
  hostname : Bool
  directory : Bool

/-- `INT_MAX`. -/
def intMax : Int := 2 ^ 31 - 1

namespace MountTable

/-- `add_mount`. -/
def addMount (fuel : Nat) (al : Mallocs) (path : CStr) (remote : UInt32) (t : MountTable) :
    Option MountTable :=
  match al.body with
  | none => some t
  | some new =>
    -- what has been allocated is given back
    if al.hostname = false ∨ al.directory = false then some t
    else do
      let b : Mountbody := { hostname := inetNtoa remote, directory := path }
      let bodies := t.bodies.store new { item := b }
      let t ← match t.mountList with
        | none => some { t with bodies := bodies, mountList := some new }
        | some iter => do
          let k ← bodies.last fuel iter
          let c ← bodies k
          some { t with bodies := bodies.store k { c with next := some new } }
      if t.mountCnt = intMax then none else some { t with mountCnt := t.mountCnt + 1 }

/-- The cell is to be removed: it is the host's and, when a path is given, for the path. -/
def gone (path : Option CStr) (host : CStr) (b : Mountbody) : Bool :=
  b.hostname == host && path.all (· == b.directory)

/-- The loop of `remove_mount`, with `prev` and `iter`. -/
def removeLoop (path : Option CStr) (host : CStr) :
    Nat → Option Nat → Option Nat → MountTable → Option MountTable
  | _, _, none, t => some t
  | 0, _, some _, _ => none
  | fuel + 1, prev, some iter, t => do
    let c ← t.bodies iter
    if gone path host c.item then
      let t ← match prev with
        | some p => do
          let d ← t.bodies p
          some { t with bodies := t.bodies.store p { d with next := c.next } }
        | none => some { t with mountList := c.next }
      let t := { t with bodies := t.bodies.free iter }
      let t := if 0 < t.mountCnt then { t with mountCnt := t.mountCnt - 1 } else t
      removeLoop path host fuel prev c.next t
    else removeLoop path host fuel (some iter) c.next t

/-- `remove_mount` (`path` is `none` for `NULL`). -/
def removeMount (fuel : Nat) (path : Option CStr) (remote : UInt32) (t : MountTable) :
    Option MountTable :=
  removeLoop path (inetNtoa remote) fuel none t.mountList t

end MountTable

/-! ## The daemon -/

/-- The daemon with the list in memory, and how often it has called `fd_cache_purge`. -/
structure Mountd (L R : Type) where
  server : Server L R
  table : MountTable := {}
  purges : Nat := 0

/-- The reply of MNT is for a directory that has been mounted, and not for `@getnonce`. -/
def Mountres3.isMounted (r : Mountres3) : Bool :=
  match r.info with
  | some (.mounted _) => true
  | _ => false

/-- All calls of `malloc` have succeeded. -/
def Mallocs.ok (al : Mallocs) : Bool := al.body.isSome && al.hostname && al.directory

section
variable {L R : Type} (w : World L R)

/-- `mountproc_mnt_3_svc`: a directory that has been mounted is added to the list. -/
def Mountd.mnt (fuel : Nat) (al : Mallocs) (argp : CStr) (rq : SvcReq) (d : Mountd L R) :
    Option (Mountd L R) :=
  match mountprocMnt w argp rq d.server with
  | (.error _, _) => none
  | (.ok r, s) =>
    if r.isMounted then do
      let t ← d.table.addMount fuel al (mntCmd argp).dpath rq.remote
      some { d with
        server := if al.ok then s
          else { s with mountList := d.server.mountList, mountCnt := d.server.mountCnt }
        table := t }
    else some { d with server := s }

/-- `mountproc_umnt_3_svc` and, with `none`, `mountproc_umntall_3_svc`. -/
def Mountd.umnt (fuel : Nat) (path : Option CStr) (rq : SvcReq) (d : Mountd L R) :
    Option (Mountd L R) := do
  let t ← d.table.removeMount fuel path rq.remote
  let s := (removeMount path rq d.server).2
  if t.mountCnt = 0 then
    some { server := (fdCachePurge w s).2, table := t, purges := d.purges + 1 }
  else some { d with server := s, table := t }

/-- A request of the MOUNT protocol that changes the list; `malloc` returns what it does, but no
address that is in use. -/
inductive MountStep : Mountd L R → Mountd L R → Prop
  | mnt {fuel : Nat} {al : Mallocs} {argp : CStr} {rq : SvcReq} {d d' : Mountd L R}
      (hfresh : ∀ k, al.body = some k → d.table.bodies k = none)
      (h : d.mnt w fuel al argp rq = some d') : MountStep d d'
  | umnt {fuel : Nat} {path : Option CStr} {rq : SvcReq} {d d' : Mountd L R}
      (h : d.umnt w fuel path rq = some d') : MountStep d d'

end

end NfsRods
