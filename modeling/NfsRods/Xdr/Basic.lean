import NfsRods.Lib.Codec
import NfsRods.Types

/-!
# The wire format

`xdr.c` over the structures of `nfs.h` and `mount.h`: one codec for each routine, under its name,
for both directions. With the shipped `config.h` a `uint32` is an `unsigned long` and goes through
`xdr_u_long`, a `uint64` through `xdr_uint64_t`. An enumeration is the number it is sent as, since
`xdr_enum` takes any; a union on a `bool_t` is optional data, a result a union on its status.

* `Xdr.Basic`: the types that the others are made of.
* `Xdr.Nfs`: arguments and results of the NFS procedures.
* `Xdr.Mount`: those of the MOUNT procedures.
-/

namespace NfsRods.Wire

open Xdr Xdr.Codec

/-! ## Basic types -/

/-- `~0` as a `u_int`. -/
def noLimit : Nat := 0xffffffff

/-- What `xdr_string` reads at most with no limit: there has to be room for the terminator. -/
def noLimitString : Nat := 0xfffffffe

def xdrUint64 : Codec UInt64 := Codec.hyper

def xdrUint32 : Codec ULong := ulong

def xdrFilename3 : Codec CStr := string noLimitString

def xdrNfspath3 : Codec CStr := string noLimitString

def xdrFileid3 : Codec UInt64 := xdrUint64

def xdrCookie3 : Codec UInt64 := xdrUint64

/-- `NFS3_COOKIEVERFSIZE`. -/
def xdrCookieverf3 : Codec (List UInt8) := data 8

/-- `NFS3_CREATEVERFSIZE`. -/
def xdrCreateverf3 : Codec (List UInt8) := data 8

/-- `NFS3_WRITEVERFSIZE`. -/
def xdrWriteverf3 : Codec (List UInt8) := data 8

def xdrUid3 : Codec ULong := xdrUint32

def xdrGid3 : Codec ULong := xdrUint32

def xdrSize3 : Codec UInt64 := xdrUint64

def xdrOffset3 : Codec UInt64 := xdrUint64

def xdrMode3 : Codec ULong := xdrUint32

def xdrCount3 : Codec ULong := xdrUint32

def xdrNfsstat3 : Codec UInt32 := word

def xdrFtype3 : Codec UInt32 := word

def xdrTimeHow : Codec UInt32 := word

/-- `specdata3`. -/
structure Specdata3 where
  specdata1 : ULong
  specdata2 : ULong
  deriving DecidableEq, Repr

def xdrSpecdata3 : Codec Specdata3 :=
  (xdrUint32.seq xdrUint32).iso (fun s => (s.specdata1, s.specdata2)) (fun (a, b) => ⟨a, b⟩)
    (fun _ => rfl) fun _ => rfl

/-- `nfs_fh3`: the bytes of a handle. -/
abbrev NfsFh3 := List UInt8

/-- `xdr_nfs_fh3`: `NFS3_FHSIZE` bytes at most. -/
def xdrNfsFh3 : Codec NfsFh3 := bytes 64

/-- `nfstime3`. -/
structure Nfstime3 where
  seconds : ULong
  nseconds : ULong
  deriving DecidableEq, Repr

def xdrNfstime3 : Codec Nfstime3 :=
  (xdrUint32.seq xdrUint32).iso (fun t => (t.seconds, t.nseconds)) (fun (a, b) => ⟨a, b⟩)
    (fun _ => rfl) fun _ => rfl

/-! ## Attributes -/

/-- `fattr3`. -/
structure Fattr3 where
  type : UInt32
  mode : ULong
  nlink : ULong
  uid : ULong
  gid : ULong
  size : UInt64
  used : UInt64
  rdev : Specdata3
  fsid : UInt64
  fileid : UInt64
  atime : Nfstime3
  mtime : Nfstime3
  ctime : Nfstime3
  deriving DecidableEq, Repr

def xdrFattr3 : Codec Fattr3 :=
  (xdrFtype3.seq (xdrMode3.seq (xdrUint32.seq (xdrUid3.seq (xdrGid3.seq (xdrSize3.seq (xdrSize3.seq
    (xdrSpecdata3.seq (xdrUint64.seq (xdrFileid3.seq (xdrNfstime3.seq
      (xdrNfstime3.seq xdrNfstime3)))))))))))).iso
    (fun a => (a.type, a.mode, a.nlink, a.uid, a.gid, a.size, a.used, a.rdev, a.fsid, a.fileid,
      a.atime, a.mtime, a.ctime))
    (fun (type, mode, nlink, uid, gid, size, used, rdev, fsid, fileid, atime, mtime, ctime) =>
      ⟨type, mode, nlink, uid, gid, size, used, rdev, fsid, fileid, atime, mtime, ctime⟩)
    (fun _ => rfl) fun _ => rfl

/-- `post_op_attr`. -/
abbrev PostOpAttr := Option Fattr3

def xdrPostOpAttr : Codec PostOpAttr := optional xdrFattr3

/-- `wcc_attr`. -/
structure WccAttr where
  size : UInt64
  mtime : Nfstime3
  ctime : Nfstime3
  deriving DecidableEq, Repr

def xdrWccAttr : Codec WccAttr :=
  (xdrSize3.seq (xdrNfstime3.seq xdrNfstime3)).iso (fun a => (a.size, a.mtime, a.ctime))
    (fun (size, mtime, ctime) => ⟨size, mtime, ctime⟩) (fun _ => rfl) fun _ => rfl

/-- `pre_op_attr`. -/
abbrev PreOpAttr := Option WccAttr

def xdrPreOpAttr : Codec PreOpAttr := optional xdrWccAttr

/-- `wcc_data`. -/
structure WccData where
  before : PreOpAttr
  after : PostOpAttr
  deriving DecidableEq, Repr

def xdrWccData : Codec WccData :=
  (xdrPreOpAttr.seq xdrPostOpAttr).iso (fun d => (d.before, d.after))
    (fun (before, after) => ⟨before, after⟩) (fun _ => rfl) fun _ => rfl

/-- `post_op_fh3`. -/
abbrev PostOpFh3 := Option NfsFh3

def xdrPostOpFh3 : Codec PostOpFh3 := optional xdrNfsFh3

def xdrSetMode3 : Codec (Option ULong) := optional xdrMode3

def xdrSetUid3 : Codec (Option ULong) := optional xdrUid3

def xdrSetGid3 : Codec (Option ULong) := optional xdrGid3

def xdrSetSize3 : Codec (Option UInt64) := optional xdrSize3

/-- `set_atime` and `set_mtime`: a time follows `SET_TO_CLIENT_TIME`. -/
abbrev SetTime := Union 2 Nfstime3 Unit

def xdrSetAtime : Codec SetTime := union xdrTimeHow 2 xdrNfstime3 void

def xdrSetMtime : Codec SetTime := union xdrTimeHow 2 xdrNfstime3 void

/-- `sattr3`. -/
structure Sattr3 where
  mode : Option ULong
  uid : Option ULong
  gid : Option ULong
  size : Option UInt64
  atime : SetTime
  mtime : SetTime
  deriving DecidableEq

def xdrSattr3 : Codec Sattr3 :=
  (xdrSetMode3.seq (xdrSetUid3.seq (xdrSetGid3.seq (xdrSetSize3.seq
    (xdrSetAtime.seq xdrSetMtime))))).iso
    (fun a => (a.mode, a.uid, a.gid, a.size, a.atime, a.mtime))
    (fun (mode, uid, gid, size, atime, mtime) => ⟨mode, uid, gid, size, atime, mtime⟩)
    (fun _ => rfl) fun _ => rfl

/-- `diropargs3`. -/
structure Diropargs3 where
  dir : NfsFh3
  name : CStr
  deriving DecidableEq, Repr

def xdrDiropargs3 : Codec Diropargs3 :=
  (xdrNfsFh3.seq xdrFilename3).iso (fun a => (a.dir, a.name)) (fun (dir, name) => ⟨dir, name⟩)
    (fun _ => rfl) fun _ => rfl

end NfsRods.Wire
