import NfsRods.Xdr.Basic

/-!
# The arguments and results of MOUNT

`xdr.c` over `mount.h`. The next node of a list is what `xdr_pointer` finds behind a node.
-/

namespace NfsRods.Wire

open Xdr Xdr.Codec

/-- `xdr_fhandle3`: `FHSIZE3` bytes at most. -/
def xdrFhandle3 : Codec (List UInt8) := bytes 64

def xdrMountstat3 : Codec UInt32 := word

/-- `mountres3_ok`. -/
structure Mountres3Ok where
  fhandle : List UInt8
  authFlavors : List UInt32
  deriving DecidableEq, Repr

/-- `xdr_mountres3_ok`; an array has no more elements than have room in memory of 32 bits. -/
def xdrMountres3Ok : Codec Mountres3Ok :=
  (xdrFhandle3.seq (array word (noLimit / 4))).iso (fun r => (r.fhandle, r.authFlavors))
    (fun (fhandle, authFlavors) => ⟨fhandle, authFlavors⟩) (fun _ => rfl) fun _ => rfl

def xdrMountres3 : Codec (Union 0 Mountres3Ok Unit) := union xdrMountstat3 0 xdrMountres3Ok void

/-- `xdr_dirpath`: `MNTPATHLEN`. -/
def xdrDirpath : Codec CStr := string 1024

/-- `xdr_name`: `MNTNAMLEN`. -/
def xdrName : Codec CStr := string 255

/-- `mountbody`. -/
structure Mountbody where
  hostname : CStr
  directory : CStr
  deriving DecidableEq, Repr

/-- `xdr_mountbody` up to the pointer to the next one. -/
def xdrMountbody : Codec Mountbody :=
  (xdrName.seq xdrDirpath).iso (fun m => (m.hostname, m.directory))
    (fun (hostname, directory) => ⟨hostname, directory⟩) (fun _ => rfl) fun _ => rfl

def xdrMountlist : Codec (List Mountbody) := linked xdrMountbody

/-- `xdr_groups`: `xdr_groupnode` is a name and the pointer to the next one. -/
def xdrGroups : Codec (List CStr) := linked xdrName

/-- `exportnode`. -/
structure Exportnode where
  dir : CStr
  groups : List CStr
  deriving DecidableEq, Repr

/-- `xdr_exportnode` up to the pointer to the next one. -/
def xdrExportnode : Codec Exportnode :=
  (xdrDirpath.seq xdrGroups).iso (fun e => (e.dir, e.groups)) (fun (dir, groups) => ⟨dir, groups⟩)
    (fun _ => rfl) fun _ => rfl

def xdrExports : Codec (List Exportnode) := linked xdrExportnode

end NfsRods.Wire
