import NfsRods.Xdr.Basic

/-!
# The arguments and results of NFS

`xdr.c` from `xdr_GETATTR3args` on. The next entry of a directory listing is what `xdr_pointer`
finds behind an entry.
-/

namespace NfsRods.Wire

open Xdr Xdr.Codec

/-! ## GETATTR to ACCESS -/

/-- A result: what follows `NFS3_OK`, and what follows every other status. -/
abbrev Res (ok fail : Type) := Union 0 ok fail

def xdrRes {ok fail : Type} (resok : Codec ok) (resfail : Codec fail) : Codec (Res ok fail) :=
  union xdrNfsstat3 0 resok resfail

def xdrGetattr3args : Codec NfsFh3 := xdrNfsFh3

def xdrGetattr3resok : Codec Fattr3 := xdrFattr3

def xdrGetattr3res : Codec (Res Fattr3 Unit) := xdrRes xdrGetattr3resok void

/-- `sattrguard3`. -/
def xdrSattrguard3 : Codec (Option Nfstime3) := optional xdrNfstime3

/-- `SETATTR3args`. -/
structure Setattr3args where
  object : NfsFh3
  newAttributes : Sattr3
  guard : Option Nfstime3
  deriving DecidableEq

def xdrSetattr3args : Codec Setattr3args :=
  (xdrNfsFh3.seq (xdrSattr3.seq xdrSattrguard3)).iso
    (fun a => (a.object, a.newAttributes, a.guard))
    (fun (object, newAttributes, guard) => ⟨object, newAttributes, guard⟩) (fun _ => rfl)
    fun _ => rfl

def xdrSetattr3resok : Codec WccData := xdrWccData

def xdrSetattr3resfail : Codec WccData := xdrWccData

def xdrSetattr3res : Codec (Res WccData WccData) := xdrRes xdrSetattr3resok xdrSetattr3resfail

def xdrLookup3args : Codec Diropargs3 := xdrDiropargs3

/-- `LOOKUP3resok`. -/
structure Lookup3resok where
  object : NfsFh3
  objAttributes : PostOpAttr
  dirAttributes : PostOpAttr
  deriving DecidableEq, Repr

def xdrLookup3resok : Codec Lookup3resok :=
  (xdrNfsFh3.seq (xdrPostOpAttr.seq xdrPostOpAttr)).iso
    (fun r => (r.object, r.objAttributes, r.dirAttributes))
    (fun (object, objAttributes, dirAttributes) => ⟨object, objAttributes, dirAttributes⟩)
    (fun _ => rfl) fun _ => rfl

def xdrLookup3resfail : Codec PostOpAttr := xdrPostOpAttr

def xdrLookup3res : Codec (Res Lookup3resok PostOpAttr) := xdrRes xdrLookup3resok xdrLookup3resfail

/-- `ACCESS3args`. -/
structure Access3args where
  object : NfsFh3
  access : ULong
  deriving DecidableEq, Repr

def xdrAccess3args : Codec Access3args :=
  (xdrNfsFh3.seq xdrUint32).iso (fun a => (a.object, a.access))
    (fun (object, access) => ⟨object, access⟩) (fun _ => rfl) fun _ => rfl

/-- `ACCESS3resok`. -/
structure Access3resok where
  objAttributes : PostOpAttr
  access : ULong
  deriving DecidableEq, Repr

def xdrAccess3resok : Codec Access3resok :=
  (xdrPostOpAttr.seq xdrUint32).iso (fun r => (r.objAttributes, r.access))
    (fun (objAttributes, access) => ⟨objAttributes, access⟩) (fun _ => rfl) fun _ => rfl

def xdrAccess3resfail : Codec PostOpAttr := xdrPostOpAttr

def xdrAccess3res : Codec (Res Access3resok PostOpAttr) := xdrRes xdrAccess3resok xdrAccess3resfail

/-! ## READLINK to WRITE -/

def xdrReadlink3args : Codec NfsFh3 := xdrNfsFh3

/-- `READLINK3resok`. -/
structure Readlink3resok where
  symlinkAttributes : PostOpAttr
  data : CStr
  deriving DecidableEq, Repr

def xdrReadlink3resok : Codec Readlink3resok :=
  (xdrPostOpAttr.seq xdrNfspath3).iso (fun r => (r.symlinkAttributes, r.data))
    (fun (symlinkAttributes, data) => ⟨symlinkAttributes, data⟩) (fun _ => rfl) fun _ => rfl

def xdrReadlink3resfail : Codec PostOpAttr := xdrPostOpAttr

def xdrReadlink3res : Codec (Res Readlink3resok PostOpAttr) :=
  xdrRes xdrReadlink3resok xdrReadlink3resfail

/-- `READ3args`. -/
structure Read3args where
  file : NfsFh3
  offset : UInt64
  count : ULong
  deriving DecidableEq, Repr

def xdrRead3args : Codec Read3args :=
  (xdrNfsFh3.seq (xdrOffset3.seq xdrCount3)).iso (fun a => (a.file, a.offset, a.count))
    (fun (file, offset, count) => ⟨file, offset, count⟩) (fun _ => rfl) fun _ => rfl

/-- `READ3resok`. -/
structure Read3resok where
  fileAttributes : PostOpAttr
  count : ULong
  eof : Bool
  data : List UInt8
  deriving DecidableEq, Repr

def xdrRead3resok : Codec Read3resok :=
  (xdrPostOpAttr.seq (xdrCount3.seq (flag.seq (bytes noLimit)))).iso
    (fun r => (r.fileAttributes, r.count, r.eof, r.data))
    (fun (fileAttributes, count, eof, data) => ⟨fileAttributes, count, eof, data⟩)
    (fun _ => rfl) fun _ => rfl

def xdrRead3resfail : Codec PostOpAttr := xdrPostOpAttr

def xdrRead3res : Codec (Res Read3resok PostOpAttr) := xdrRes xdrRead3resok xdrRead3resfail

def xdrStableHow : Codec UInt32 := word

/-- `WRITE3args`. -/
structure Write3args where
  file : NfsFh3
  offset : UInt64
  count : ULong
  stable : UInt32
  data : List UInt8
  deriving DecidableEq, Repr

def xdrWrite3args : Codec Write3args :=
  (xdrNfsFh3.seq (xdrOffset3.seq (xdrCount3.seq (xdrStableHow.seq (bytes noLimit))))).iso
    (fun a => (a.file, a.offset, a.count, a.stable, a.data))
    (fun (file, offset, count, stable, data) => ⟨file, offset, count, stable, data⟩)
    (fun _ => rfl) fun _ => rfl

/-- `WRITE3resok`. -/
structure Write3resok where
  fileWcc : WccData
  count : ULong
  committed : UInt32
  verf : List UInt8
  deriving DecidableEq, Repr

def xdrWrite3resok : Codec Write3resok :=
  (xdrWccData.seq (xdrCount3.seq (xdrStableHow.seq xdrWriteverf3))).iso
    (fun r => (r.fileWcc, r.count, r.committed, r.verf))
    (fun (fileWcc, count, committed, verf) => ⟨fileWcc, count, committed, verf⟩) (fun _ => rfl)
    fun _ => rfl

def xdrWrite3resfail : Codec WccData := xdrWccData

def xdrWrite3res : Codec (Res Write3resok WccData) := xdrRes xdrWrite3resok xdrWrite3resfail

/-! ## CREATE to MKNOD -/

def xdrCreatemode3 : Codec UInt32 := word

/-- `createhow3`. -/
inductive Createhow3
  | unchecked (attr : Sattr3)
  | guarded (attr : Sattr3)
  | exclusive (verf : List UInt8)
  deriving DecidableEq

/-- `createmode3`. -/
def Createhow3.mode : Createhow3 → UInt32
  | .unchecked _ => 0
  | .guarded _ => 1
  | .exclusive _ => 2

/-- The arm of `createhow3` that a mode selects; there is none for another number. -/
def createhow3Arm (mode : UInt32) : Codec Createhow3 :=
  if mode = 0 then xdrSattr3.ctor .unchecked (fun
    | .unchecked a => some a
    | _ => none) (by rintro a (b | b | b) <;> simp [eq_comm])
  else if mode = 1 then xdrSattr3.ctor .guarded (fun
    | .guarded a => some a
    | _ => none) (by rintro a (b | b | b) <;> simp [eq_comm])
  else if mode = 2 then xdrCreateverf3.ctor .exclusive (fun
    | .exclusive v => some v
    | _ => none) (by rintro a (b | b | b) <;> simp [eq_comm])
  else fail

theorem createhow3Arm_mode {mode : UInt32} {how : Createhow3} {out : List UInt8}
    (h : (createhow3Arm mode).encode how = some out) : how.mode = mode := by
  unfold createhow3Arm at h
  split at h
  · obtain ⟨a, rfl, -⟩ := encode_ctor.1 h
    rename_i hmode
    exact hmode.symm
  · split at h
    · obtain ⟨a, rfl, -⟩ := encode_ctor.1 h
      rename_i hmode
      exact hmode.symm
    · split at h
      · obtain ⟨a, rfl, -⟩ := encode_ctor.1 h
        rename_i hmode
        exact hmode.symm
      · cases h

def xdrCreatehow3 : Codec Createhow3 :=
  switch xdrCreatemode3 Createhow3.mode createhow3Arm fun _ _ _ => createhow3Arm_mode

/-- `CREATE3args`. -/
structure Create3args where
  location : Diropargs3
  how : Createhow3
  deriving DecidableEq

def xdrCreate3args : Codec Create3args :=
  (xdrDiropargs3.seq xdrCreatehow3).iso (fun a => (a.location, a.how))
    (fun (location, how) => ⟨location, how⟩) (fun _ => rfl) fun _ => rfl

/-- `CREATE3resok`, `MKDIR3resok`, `SYMLINK3resok` and `MKNOD3resok`. -/
structure Create3resok where
  obj : PostOpFh3
  objAttributes : PostOpAttr
  dirWcc : WccData
  deriving DecidableEq, Repr

def xdrCreate3resok : Codec Create3resok :=
  (xdrPostOpFh3.seq (xdrPostOpAttr.seq xdrWccData)).iso
    (fun r => (r.obj, r.objAttributes, r.dirWcc))
    (fun (obj, objAttributes, dirWcc) => ⟨obj, objAttributes, dirWcc⟩) (fun _ => rfl) fun _ => rfl

def xdrCreate3resfail : Codec WccData := xdrWccData

def xdrCreate3res : Codec (Res Create3resok WccData) := xdrRes xdrCreate3resok xdrCreate3resfail

/-- `MKDIR3args`. -/
structure Mkdir3args where
  location : Diropargs3
  attributes : Sattr3
  deriving DecidableEq

def xdrMkdir3args : Codec Mkdir3args :=
  (xdrDiropargs3.seq xdrSattr3).iso (fun a => (a.location, a.attributes))
    (fun (location, attributes) => ⟨location, attributes⟩) (fun _ => rfl) fun _ => rfl

def xdrMkdir3resok : Codec Create3resok := xdrCreate3resok

def xdrMkdir3resfail : Codec WccData := xdrWccData

def xdrMkdir3res : Codec (Res Create3resok WccData) := xdrRes xdrMkdir3resok xdrMkdir3resfail

/-- `symlinkdata3`. -/
structure Symlinkdata3 where
  symlinkAttributes : Sattr3
  symlinkData : CStr
  deriving DecidableEq

def xdrSymlinkdata3 : Codec Symlinkdata3 :=
  (xdrSattr3.seq xdrNfspath3).iso (fun d => (d.symlinkAttributes, d.symlinkData))
    (fun (symlinkAttributes, symlinkData) => ⟨symlinkAttributes, symlinkData⟩) (fun _ => rfl)
    fun _ => rfl

/-- `SYMLINK3args`. -/
structure Symlink3args where
  location : Diropargs3
  symlink : Symlinkdata3
  deriving DecidableEq

def xdrSymlink3args : Codec Symlink3args :=
  (xdrDiropargs3.seq xdrSymlinkdata3).iso (fun a => (a.location, a.symlink))
    (fun (location, symlink) => ⟨location, symlink⟩) (fun _ => rfl) fun _ => rfl

def xdrSymlink3resok : Codec Create3resok := xdrCreate3resok

def xdrSymlink3resfail : Codec WccData := xdrWccData

def xdrSymlink3res : Codec (Res Create3resok WccData) := xdrRes xdrSymlink3resok xdrSymlink3resfail

/-- `devicedata3`. -/
structure Devicedata3 where
  devAttributes : Sattr3
  spec : Specdata3
  deriving DecidableEq

def xdrDevicedata3 : Codec Devicedata3 :=
  (xdrSattr3.seq xdrSpecdata3).iso (fun d => (d.devAttributes, d.spec))
    (fun (devAttributes, spec) => ⟨devAttributes, spec⟩) (fun _ => rfl) fun _ => rfl

/-- `NF3CHR` or `NF3BLK`. -/
def isDevice (type : UInt32) : Prop := type = 4 ∨ type = 3

/-- `NF3SOCK` or `NF3FIFO`. -/
def isPipe (type : UInt32) : Prop := type = 6 ∨ type = 7

instance (type : UInt32) : Decidable (isDevice type) := inferInstanceAs (Decidable (_ ∨ _))

instance (type : UInt32) : Decidable (isPipe type) := inferInstanceAs (Decidable (_ ∨ _))

/-- `mknoddata3`. -/
inductive Mknoddata3
  | device (type : { type // isDevice type }) (device : Devicedata3)
  | pipe (type : { type // isPipe type }) (pipeAttributes : Sattr3)
  | other (type : { type // ¬ isDevice type ∧ ¬ isPipe type })
  deriving DecidableEq

def Mknoddata3.type : Mknoddata3 → UInt32
  | .device type _ => type
  | .pipe type _ => type
  | .other type => type

/-- The arm of `mknoddata3` that a type selects; nothing follows the types left. -/
def mknoddata3Arm (type : UInt32) : Codec Mknoddata3 :=
  if hdev : isDevice type then xdrDevicedata3.ctor (.device ⟨type, hdev⟩) (fun
    | .device t d => if t = ⟨type, hdev⟩ then some d else none
    | _ => none) (by rintro a (⟨t, b⟩ | ⟨t, b⟩ | t) <;> simp [eq_comm])
  else if hpipe : isPipe type then xdrSattr3.ctor (.pipe ⟨type, hpipe⟩) (fun
    | .pipe t a => if t = ⟨type, hpipe⟩ then some a else none
    | _ => none) (by rintro a (⟨t, b⟩ | ⟨t, b⟩ | t) <;> simp [eq_comm])
  else void.ctor (fun _ => .other ⟨type, hdev, hpipe⟩) (fun
    | .other t => if t = ⟨type, hdev, hpipe⟩ then some () else none
    | _ => none) (by rintro a (⟨t, b⟩ | ⟨t, b⟩ | t) <;> simp [eq_comm])

theorem mknoddata3Arm_type {type : UInt32} {what : Mknoddata3} {out : List UInt8}
    (h : (mknoddata3Arm type).encode what = some out) : what.type = type := by
  unfold mknoddata3Arm at h
  split at h
  · obtain ⟨a, rfl, -⟩ := encode_ctor.1 h
    rfl
  · split at h
    · obtain ⟨a, rfl, -⟩ := encode_ctor.1 h
      rfl
    · obtain ⟨a, rfl, -⟩ := encode_ctor.1 h
      rfl

def xdrMknoddata3 : Codec Mknoddata3 :=
  switch xdrFtype3 Mknoddata3.type mknoddata3Arm fun _ _ _ => mknoddata3Arm_type

/-- `MKNOD3args`. -/
structure Mknod3args where
  location : Diropargs3
  what : Mknoddata3
  deriving DecidableEq

def xdrMknod3args : Codec Mknod3args :=
  (xdrDiropargs3.seq xdrMknoddata3).iso (fun a => (a.location, a.what))
    (fun (location, what) => ⟨location, what⟩) (fun _ => rfl) fun _ => rfl

def xdrMknod3resok : Codec Create3resok := xdrCreate3resok

def xdrMknod3resfail : Codec WccData := xdrWccData

def xdrMknod3res : Codec (Res Create3resok WccData) := xdrRes xdrMknod3resok xdrMknod3resfail

/-! ## REMOVE to LINK -/

def xdrRemove3args : Codec Diropargs3 := xdrDiropargs3

def xdrRemove3resok : Codec WccData := xdrWccData

def xdrRemove3resfail : Codec WccData := xdrWccData

def xdrRemove3res : Codec (Res WccData WccData) := xdrRes xdrRemove3resok xdrRemove3resfail

def xdrRmdir3args : Codec Diropargs3 := xdrDiropargs3

def xdrRmdir3resok : Codec WccData := xdrWccData

def xdrRmdir3resfail : Codec WccData := xdrWccData

def xdrRmdir3res : Codec (Res WccData WccData) := xdrRes xdrRmdir3resok xdrRmdir3resfail

/-- `RENAME3args`. -/
structure Rename3args where
  argsFrom : Diropargs3
  argsTo : Diropargs3
  deriving DecidableEq, Repr

def xdrRename3args : Codec Rename3args :=
  (xdrDiropargs3.seq xdrDiropargs3).iso (fun a => (a.argsFrom, a.argsTo))
    (fun (argsFrom, argsTo) => ⟨argsFrom, argsTo⟩) (fun _ => rfl) fun _ => rfl

/-- `RENAME3resok` and `RENAME3resfail`. -/
structure Rename3resok where
  fromdirWcc : WccData
  todirWcc : WccData
  deriving DecidableEq, Repr

def xdrRename3resok : Codec Rename3resok :=
  (xdrWccData.seq xdrWccData).iso (fun r => (r.fromdirWcc, r.todirWcc))
    (fun (fromdirWcc, todirWcc) => ⟨fromdirWcc, todirWcc⟩) (fun _ => rfl) fun _ => rfl

def xdrRename3resfail : Codec Rename3resok := xdrRename3resok

def xdrRename3res : Codec (Res Rename3resok Rename3resok) :=
  xdrRes xdrRename3resok xdrRename3resfail

/-- `LINK3args`. -/
structure Link3args where
  file : NfsFh3
  link : Diropargs3
  deriving DecidableEq, Repr

def xdrLink3args : Codec Link3args :=
  (xdrNfsFh3.seq xdrDiropargs3).iso (fun a => (a.file, a.link)) (fun (file, link) => ⟨file, link⟩)
    (fun _ => rfl) fun _ => rfl

/-- `LINK3resok` and `LINK3resfail`. -/
structure Link3resok where
  fileAttributes : PostOpAttr
  linkdirWcc : WccData
  deriving DecidableEq, Repr

def xdrLink3resok : Codec Link3resok :=
  (xdrPostOpAttr.seq xdrWccData).iso (fun r => (r.fileAttributes, r.linkdirWcc))
    (fun (fileAttributes, linkdirWcc) => ⟨fileAttributes, linkdirWcc⟩) (fun _ => rfl)
    fun _ => rfl

def xdrLink3resfail : Codec Link3resok := xdrLink3resok

def xdrLink3res : Codec (Res Link3resok Link3resok) := xdrRes xdrLink3resok xdrLink3resfail

/-! ## READDIR and READDIRPLUS -/

/-- `READDIR3args`. -/
structure Readdir3args where
  dir : NfsFh3
  cookie : UInt64
  cookieverf : List UInt8
  count : ULong
  deriving DecidableEq, Repr

def xdrReaddir3args : Codec Readdir3args :=
  (xdrNfsFh3.seq (xdrCookie3.seq (xdrCookieverf3.seq xdrCount3))).iso
    (fun a => (a.dir, a.cookie, a.cookieverf, a.count))
    (fun (dir, cookie, cookieverf, count) => ⟨dir, cookie, cookieverf, count⟩) (fun _ => rfl)
    fun _ => rfl

/-- `entry3`. -/
structure Entry3 where
  fileid : UInt64
  name : CStr
  cookie : UInt64
  deriving DecidableEq, Repr

/-- `xdr_entry3` up to the pointer to the next entry. -/
def xdrEntry3 : Codec Entry3 :=
  (xdrFileid3.seq (xdrFilename3.seq xdrCookie3)).iso (fun e => (e.fileid, e.name, e.cookie))
    (fun (fileid, name, cookie) => ⟨fileid, name, cookie⟩) (fun _ => rfl) fun _ => rfl

/-- `dirlist3`. -/
structure Dirlist3 where
  entries : List Entry3
  eof : Bool
  deriving DecidableEq, Repr

def xdrDirlist3 : Codec Dirlist3 :=
  ((linked xdrEntry3).seq flag).iso (fun d => (d.entries, d.eof))
    (fun (entries, eof) => ⟨entries, eof⟩) (fun _ => rfl) fun _ => rfl

/-- `READDIR3resok`. -/
structure Readdir3resok where
  dirAttributes : PostOpAttr
  cookieverf : List UInt8
  reply : Dirlist3
  deriving DecidableEq, Repr

def xdrReaddir3resok : Codec Readdir3resok :=
  (xdrPostOpAttr.seq (xdrCookieverf3.seq xdrDirlist3)).iso
    (fun r => (r.dirAttributes, r.cookieverf, r.reply))
    (fun (dirAttributes, cookieverf, reply) => ⟨dirAttributes, cookieverf, reply⟩) (fun _ => rfl)
    fun _ => rfl

def xdrReaddir3resfail : Codec PostOpAttr := xdrPostOpAttr

def xdrReaddir3res : Codec (Res Readdir3resok PostOpAttr) :=
  xdrRes xdrReaddir3resok xdrReaddir3resfail

/-- `READDIRPLUS3args`. -/
structure Readdirplus3args where
  dir : NfsFh3
  cookie : UInt64
  cookieverf : List UInt8
  dircount : ULong
  maxcount : ULong
  deriving DecidableEq, Repr

def xdrReaddirplus3args : Codec Readdirplus3args :=
  (xdrNfsFh3.seq (xdrCookie3.seq (xdrCookieverf3.seq (xdrCount3.seq xdrCount3)))).iso
    (fun a => (a.dir, a.cookie, a.cookieverf, a.dircount, a.maxcount))
    (fun (dir, cookie, cookieverf, dircount, maxcount) =>
      ⟨dir, cookie, cookieverf, dircount, maxcount⟩) (fun _ => rfl) fun _ => rfl

/-- `entryplus3`. -/
structure Entryplus3 where
  fileid : UInt64
  name : CStr
  cookie : UInt64
  nameAttributes : PostOpAttr
  nameHandle : PostOpFh3
  deriving DecidableEq, Repr

/-- `xdr_entryplus3` up to the pointer to the next entry. -/
def xdrEntryplus3 : Codec Entryplus3 :=
  (xdrFileid3.seq (xdrFilename3.seq (xdrCookie3.seq (xdrPostOpAttr.seq xdrPostOpFh3)))).iso
    (fun e => (e.fileid, e.name, e.cookie, e.nameAttributes, e.nameHandle))
    (fun (fileid, name, cookie, nameAttributes, nameHandle) =>
      ⟨fileid, name, cookie, nameAttributes, nameHandle⟩) (fun _ => rfl) fun _ => rfl

/-- `dirlistplus3`. -/
structure Dirlistplus3 where
  entries : List Entryplus3
  eof : Bool
  deriving DecidableEq, Repr

def xdrDirlistplus3 : Codec Dirlistplus3 :=
  ((linked xdrEntryplus3).seq flag).iso (fun d => (d.entries, d.eof))
    (fun (entries, eof) => ⟨entries, eof⟩) (fun _ => rfl) fun _ => rfl

/-- `READDIRPLUS3resok`. -/
structure Readdirplus3resok where
  dirAttributes : PostOpAttr
  cookieverf : List UInt8
  reply : Dirlistplus3
  deriving DecidableEq, Repr

def xdrReaddirplus3resok : Codec Readdirplus3resok :=
  (xdrPostOpAttr.seq (xdrCookieverf3.seq xdrDirlistplus3)).iso
    (fun r => (r.dirAttributes, r.cookieverf, r.reply))
    (fun (dirAttributes, cookieverf, reply) => ⟨dirAttributes, cookieverf, reply⟩) (fun _ => rfl)
    fun _ => rfl

def xdrReaddirplus3resfail : Codec PostOpAttr := xdrPostOpAttr

def xdrReaddirplus3res : Codec (Res Readdirplus3resok PostOpAttr) :=
  xdrRes xdrReaddirplus3resok xdrReaddirplus3resfail

/-! ## FSSTAT to COMMIT -/

def xdrFsstat3args : Codec NfsFh3 := xdrNfsFh3

/-- `FSSTAT3resok`. -/
structure Fsstat3resok where
  objAttributes : PostOpAttr
  tbytes : UInt64
  fbytes : UInt64
  abytes : UInt64
  tfiles : UInt64
  ffiles : UInt64
  afiles : UInt64
  invarsec : ULong
  deriving DecidableEq, Repr

def xdrFsstat3resok : Codec Fsstat3resok :=
  (xdrPostOpAttr.seq (xdrSize3.seq (xdrSize3.seq (xdrSize3.seq (xdrSize3.seq (xdrSize3.seq
    (xdrSize3.seq xdrUint32))))))).iso
    (fun r => (r.objAttributes, r.tbytes, r.fbytes, r.abytes, r.tfiles, r.ffiles, r.afiles,
      r.invarsec))
    (fun (objAttributes, tbytes, fbytes, abytes, tfiles, ffiles, afiles, invarsec) =>
      ⟨objAttributes, tbytes, fbytes, abytes, tfiles, ffiles, afiles, invarsec⟩) (fun _ => rfl)
    fun _ => rfl

def xdrFsstat3resfail : Codec PostOpAttr := xdrPostOpAttr

def xdrFsstat3res : Codec (Res Fsstat3resok PostOpAttr) := xdrRes xdrFsstat3resok xdrFsstat3resfail

def xdrFsinfo3args : Codec NfsFh3 := xdrNfsFh3

/-- `FSINFO3resok`. -/
structure Fsinfo3resok where
  objAttributes : PostOpAttr
  rtmax : ULong
  rtpref : ULong
  rtmult : ULong
  wtmax : ULong
  wtpref : ULong
  wtmult : ULong
  dtpref : ULong
  maxfilesize : UInt64
  timeDelta : Nfstime3
  properties : ULong
  deriving DecidableEq, Repr

def xdrFsinfo3resok : Codec Fsinfo3resok :=
  (xdrPostOpAttr.seq (xdrUint32.seq (xdrUint32.seq (xdrUint32.seq (xdrUint32.seq (xdrUint32.seq
    (xdrUint32.seq (xdrUint32.seq (xdrSize3.seq (xdrNfstime3.seq xdrUint32)))))))))).iso
    (fun r => (r.objAttributes, r.rtmax, r.rtpref, r.rtmult, r.wtmax, r.wtpref, r.wtmult, r.dtpref,
      r.maxfilesize, r.timeDelta, r.properties))
    (fun (objAttributes, rtmax, rtpref, rtmult, wtmax, wtpref, wtmult, dtpref, maxfilesize,
        timeDelta, properties) =>
      ⟨objAttributes, rtmax, rtpref, rtmult, wtmax, wtpref, wtmult, dtpref, maxfilesize, timeDelta,
        properties⟩) (fun _ => rfl) fun _ => rfl

def xdrFsinfo3resfail : Codec PostOpAttr := xdrPostOpAttr

def xdrFsinfo3res : Codec (Res Fsinfo3resok PostOpAttr) := xdrRes xdrFsinfo3resok xdrFsinfo3resfail

def xdrPathconf3args : Codec NfsFh3 := xdrNfsFh3

/-- `PATHCONF3resok`. -/
structure Pathconf3resok where
  objAttributes : PostOpAttr
  linkmax : ULong
  nameMax : ULong
  noTrunc : Bool
  chownRestricted : Bool
  caseInsensitive : Bool
  casePreserving : Bool
  deriving DecidableEq, Repr

def xdrPathconf3resok : Codec Pathconf3resok :=
  (xdrPostOpAttr.seq (xdrUint32.seq (xdrUint32.seq (flag.seq (flag.seq (flag.seq flag)))))).iso
    (fun r => (r.objAttributes, r.linkmax, r.nameMax, r.noTrunc, r.chownRestricted,
      r.caseInsensitive, r.casePreserving))
    (fun (objAttributes, linkmax, nameMax, noTrunc, chownRestricted, caseInsensitive,
        casePreserving) =>
      ⟨objAttributes, linkmax, nameMax, noTrunc, chownRestricted, caseInsensitive,
        casePreserving⟩) (fun _ => rfl) fun _ => rfl

def xdrPathconf3resfail : Codec PostOpAttr := xdrPostOpAttr

def xdrPathconf3res : Codec (Res Pathconf3resok PostOpAttr) :=
  xdrRes xdrPathconf3resok xdrPathconf3resfail

/-- `COMMIT3args`. -/
structure Commit3args where
  file : NfsFh3
  offset : UInt64
  count : ULong
  deriving DecidableEq, Repr

def xdrCommit3args : Codec Commit3args :=
  (xdrNfsFh3.seq (xdrOffset3.seq xdrCount3)).iso (fun a => (a.file, a.offset, a.count))
    (fun (file, offset, count) => ⟨file, offset, count⟩) (fun _ => rfl) fun _ => rfl

/-- `COMMIT3resok`. -/
structure Commit3resok where
  fileWcc : WccData
  verf : List UInt8
  deriving DecidableEq, Repr

def xdrCommit3resok : Codec Commit3resok :=
  (xdrWccData.seq xdrWriteverf3).iso (fun r => (r.fileWcc, r.verf))
    (fun (fileWcc, verf) => ⟨fileWcc, verf⟩) (fun _ => rfl) fun _ => rfl

def xdrCommit3resfail : Codec WccData := xdrWccData

def xdrCommit3res : Codec (Res Commit3resok WccData) := xdrRes xdrCommit3resok xdrCommit3resfail

end NfsRods.Wire
