import NfsRods.Types

/-!
# Error values

`error.c`: the status each operation reports for an `errno`. None of them is `NFS3_OK`
(`mkdirErr_ne_ok` and its siblings), so a failing local step always shows.
-/

namespace NfsRods

/-- `is_stale`. -/
def isStale (e : Errno) : Bool :=
  e == .enotdir || e == .eloop || e == .enoent || e == .enametoolong

/-- `symlink_err`. -/
def symlinkErr (e : Errno) : Nfsstat3 :=
  if e = .eacces ∨ e = .eperm then .acces
  else if isStale e then .stale
  else if e = .erofs then .rofs
  else if e = .eexist then .exist
  else if e = .enospc then .nospc
  else if e = .edquot then .dquot
  else if e = .enosys then .notsupp
  else if e = .einval then .inval
  else .io

/-- `mkdir_err`. -/
def mkdirErr (e : Errno) : Nfsstat3 := symlinkErr e

/-- `lookup_err`. -/
def lookupErr (e : Errno) : Nfsstat3 :=
  if e = .enoent then .noent
  else if e = .enomedium then .noent
  else if e = .eacces then .acces
  else if e = .enotdir ∨ e = .eloop ∨ e = .enametoolong then .stale
  else if e = .einval then .inval
  else .io

/-- `read_err`. -/
def readErr (e : Errno) : Nfsstat3 :=
  if e = .einval then .inval
  else if isStale e then .stale
  else if e = .eacces then .acces
  else if e = .enxio ∨ e = .enodev then .nxio
  else .io

/-- `write_open_err`. -/
def writeOpenErr (e : Errno) : Nfsstat3 :=
  if e = .eacces then .acces
  else if isStale e then .stale
  else if e = .einval then .inval
  else if e = .erofs then .rofs
  else .io

/-- `write_write_err`. -/
def writeWriteErr (e : Errno) : Nfsstat3 :=
  if e = .einval then .inval
  else if e = .efbig then .fbig
  else if e = .enospc then .nospc
  else if e = .edquot then .dquot
  else .io

/-- `create_err`. -/
def createErr (e : Errno) : Nfsstat3 :=
  if e = .eacces then .acces
  else if isStale e then .stale
  else if e = .erofs then .rofs
  else if e = .enospc then .nospc
  else if e = .eexist then .exist
  else if e = .edquot then .dquot
  else .io

/-- `rename_err`. -/
def renameErr (e : Errno) : Nfsstat3 :=
  if e = .eisdir then .isdir
  else if e = .exdev then .xdev
  else if e = .eexist then .exist
  else if e = .enotempty then .notempty
  else if e = .einval then .inval
  else if e = .enotdir then .notdir
  else if e = .eacces ∨ e = .eperm then .acces
  else if e = .enoent then .noent
  else if e = .eloop ∨ e = .enametoolong then .stale
  else if e = .erofs then .rofs
  else if e = .enospc then .nospc
  else if e = .edquot then .dquot
  else .io

/-- `remove_err`; the source returns `ENOENT` itself, whose value is `NFS3ERR_NOENT`'s. -/
def removeErr (e : Errno) : Nfsstat3 :=
  if e = .eacces ∨ e = .eperm then .acces
  else if e = .enoent then .noent
  else if e = .enotdir ∨ e = .eloop ∨ e = .enametoolong then .stale
  else if e = .einval then .inval
  else if e = .erofs then .rofs
  else .io

/-- `rmdir_err`. -/
def rmdirErr (e : Errno) : Nfsstat3 := if e = .enotempty then .notempty else removeErr e

/-- `setattr_err`. -/
def setattrErr (e : Errno) : Nfsstat3 :=
  if e = .eperm then .perm
  else if e = .erofs then .rofs
  else if isStale e then .stale
  else if e = .eacces then .acces
  else if e = .edquot then .dquot
  else if e = .einval then .inval
  else .io

/-- `readdir_err`. -/
def readdirErr (e : Errno) : Nfsstat3 :=
  if e = .eperm then .perm
  else if e = .eacces then .acces
  else if e = .enotdir then .notdir
  else if isStale e then .stale
  else if e = .einval then .inval
  else .io

/-- `join`. -/
def join (x y : Nfsstat3) : Nfsstat3 := if x ≠ .ok then x else y

/-- `join3`. -/
def join3 (x y z : Nfsstat3) : Nfsstat3 := if x ≠ .ok then x else join y z

@[simp] theorem join_eq_ok {x y : Nfsstat3} : join x y = .ok ↔ x = .ok ∧ y = .ok := by
  unfold join
  split <;> simp_all

@[simp] theorem join3_eq_ok {x y z : Nfsstat3} :
    join3 x y z = .ok ↔ x = .ok ∧ y = .ok ∧ z = .ok := by
  unfold join3
  split <;> simp_all

/-- A choice between two failures is a failure. -/
theorem ite_ne_ok {c : Prop} [Decidable c] {x y : Nfsstat3} (hx : x ≠ .ok) (hy : y ≠ .ok) :
    (if c then x else y) ≠ .ok := by
  split
  · exact hx
  · exact hy

@[simp] theorem mkdirErr_ne_ok (e : Errno) : mkdirErr e ≠ .ok := by
  unfold mkdirErr symlinkErr
  repeat' apply ite_ne_ok
  all_goals decide

@[simp] theorem createErr_ne_ok (e : Errno) : createErr e ≠ .ok := by
  unfold createErr
  repeat' apply ite_ne_ok
  all_goals decide

@[simp] theorem renameErr_ne_ok (e : Errno) : renameErr e ≠ .ok := by
  unfold renameErr
  repeat' apply ite_ne_ok
  all_goals decide

@[simp] theorem removeErr_ne_ok (e : Errno) : removeErr e ≠ .ok := by
  unfold removeErr
  repeat' apply ite_ne_ok
  all_goals decide

@[simp] theorem rmdirErr_ne_ok (e : Errno) : rmdirErr e ≠ .ok :=
  ite_ne_ok (by decide) (removeErr_ne_ok e)

@[simp] theorem readdirErr_ne_ok (e : Errno) : readdirErr e ≠ .ok := by
  unfold readdirErr
  repeat' apply ite_ne_ok
  all_goals decide

@[simp] theorem writeOpenErr_ne_ok (e : Errno) : writeOpenErr e ≠ .ok := by
  unfold writeOpenErr
  repeat' apply ite_ne_ok
  all_goals decide

@[simp] theorem writeWriteErr_ne_ok (e : Errno) : writeWriteErr e ≠ .ok := by
  unfold writeWriteErr
  repeat' apply ite_ne_ok
  all_goals decide

end NfsRods
