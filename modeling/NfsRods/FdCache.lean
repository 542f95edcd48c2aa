import NfsRods.Attr

/-!
# The descriptor cache

`fd_cache.c`: descriptors kept open between READs and WRITEs. An entry with `fd = -1` holds an
`fsync` or `close` error that is still to be reported.
-/

namespace NfsRods

section
variable {L R : Type} (w : World L R)

/-- `FD_ENTRIES`. -/
def fdEntries : Nat := 256

/-- Change entry `i`. -/
def FdCache.update (c : FdCache) (i : Nat) (f : FdEntry → FdEntry) : FdCache :=
  { c with entry := fun j => if j = i then f (c.entry j) else c.entry j }

/-- `fd_cache_unused`; the warning it logs is left out. -/
def FdCache.unused (c : FdCache) : Option Nat :=
  (List.range fdEntries).find? fun i => (c.entry i).use == 0

/-- `idx_by_fd`. -/
def FdCache.idxByFd (c : FdCache) (fd : Int) (kind : FdKind) : Option Nat :=
  (List.range fdEntries).find? fun i => (c.entry i).fd == fd && (c.entry i).kind == kind

/-- `idx_by_fh`. -/
def FdCache.idxByFh (c : FdCache) (ufh : Unfs3Fh) (kind : FdKind) : Option Nat :=
  (List.range fdEntries).find? fun i => (c.entry i).kind == kind && (c.entry i).dev == ufh.dev &&
    (c.entry i).ino == ufh.ino && (c.entry i).gen == ufh.gen

/-- `regenerate_write_verifier`: `wverf` is an array of bytes, so two bytes are set. -/
def regenerateWriteVerifier : M L R Unit :=
  Prog.modify fun s =>
    { s with wverf := (s.wverf.set 0 (UInt8.ofNat w.getpid ^^^ UInt8.ofNat (w.rand s.tick))).set 4
               (UInt8.ofNat ((w.time s.kernel).emod 256).toNat)
             tick := s.tick + 1 }

/-- `fd_cache_del`. -/
def fdCacheDel (idx : Nat) (keepOnError : Bool) : M L R Int := do
  let s ← Prog.get
  let ent := s.fd.entry idx
  let res1 ← (if ent.fd ≠ -1 then do
      let res1 ← (if ent.kind = .write then do
          Prog.modify fun s => { s with fd := { s.fd with writers := s.fd.writers - 1 } }
          sys w (.fsync ent.fd)
        else do
          Prog.modify fun s => { s with fd := { s.fd with readers := s.fd.readers - 1 } }
          pure 0)
      let res2 ← sys w (.close ent.fd)
      Prog.modify fun s => { s with fd := s.fd.update idx fun e => { e with fd := -1 } }
      pure (if res1 = -1 ∨ res2 = -1 then -1 else res1)
    else do
      -- pending error
      Prog.modify fun s => { s with errno := .eio }
      pure (-1))
  Prog.when (res1 = -1 ∧ keepOnError = false) (regenerateWriteVerifier w)
  Prog.when (res1 ≠ -1 ∨ keepOnError = false) (Prog.modify fun s =>
    { s with fd := s.fd.update idx fun e =>
        { e with fd := -1, use := 0, dev := 0, ino := 0, gen := 0 } })
  pure res1

/-- `fd_cache_add`. -/
def fdCacheAdd (fd : Int) (ufh : Unfs3Fh) (kind : FdKind) : M L R Unit :=
  Prog.modify fun s =>
    match s.fd.unused with
    | none => s
    | some idx =>
      let c := if kind = .read then { s.fd with readers := s.fd.readers + 1 }
        else { s.fd with writers := s.fd.writers + 1 }
      { s with fd := c.update idx fun _ =>
          { fd, kind, use := w.time s.kernel, dev := ufh.dev, ino := ufh.ino, gen := ufh.gen } }

/-- `fd_open`. -/
def fdOpen (path : CStr) (nfh : NfsFh3) (kind : FdKind) (allowCaching : Bool) : M L R Int := do
  let s ← Prog.get
  match s.fd.idxByFh nfh.obj kind with
  | some idx =>
    if (s.fd.entry idx).fd = -1 then
      -- pending error, report to client and remove from cache
      let _ ← fdCacheDel w idx false
      pure (-1)
    else pure (s.fd.entry idx).fd
  | none =>
    let fd ← sys w (.open_ path { access := if kind = .read then .rdonly else .wronly } 0)
    if fd = -1 then pure (-1)
    else
      -- check for local fs race
      let st ← query fun k => w.fstat k fd
      if st.all fun b => nfh.obj.dev != b.dev || nfh.obj.ino != b.ino || nfh.obj.gen != getGen b
      then
        let _ ← sys w (.close fd)
        Prog.modify fun s => { s with errno := .eloop }
        pure (-1)
      else
        Prog.when allowCaching (fdCacheAdd w fd nfh.obj kind)
        pure fd

/-- `fd_close`. -/
def fdClose (fd : Int) (kind : FdKind) (reallyClose : Bool) : M L R Int := do
  let s ← Prog.get
  match s.fd.idxByFd fd kind with
  | some idx =>
    Prog.modify fun s =>
      { s with fd := s.fd.update idx fun e => { e with use := w.time s.kernel } }
    if reallyClose then fdCacheDel w idx false else pure 0
  | none =>
    let res1 ← (if kind = .write then sys w (.fsync fd) else pure 0)
    let res2 ← sys w (.close fd)
    pure (if res1 ≠ 0 then res1 else res2)

/-- `fd_sync`. -/
def fdSync (nfh : NfsFh3) : M L R Int := do
  let s ← Prog.get
  match s.fd.idxByFh nfh.obj .write with
  | some idx => fdCacheDel w idx false
  | none => pure 0

/-- `INACTIVE_TIMEOUT`. -/
def inactiveTimeout : Int := 2

/-- `PENDING_ERROR_TIMEOUT`. -/
def pendingErrorTimeout : Int := 7200

/-- The entry holds a pending error. -/
def FdEntry.pending (e : FdEntry) : Bool := e.use != 0 && e.fd == -1

/-- `fd_cache_close_inactive`. -/
def fdCacheCloseInactive : M L R Unit := do
  let s ← Prog.get
  let now := w.time s.kernel
  Prog.forEach (fun i => do
    let s ← Prog.get
    let e := s.fd.entry i
    Prog.when (e.use ≠ 0 ∧ e.fd ≠ -1 ∧ e.use + inactiveTimeout < now) do
      let _ ← fdCacheDel w i true) (List.range fdEntries)
  let s ← Prog.get
  let errors := (List.range fdEntries).filter fun i => (s.fd.entry i).pending
  -- all pending errors are old: throw them away and change the verifier
  Prog.when (errors ≠ [] ∧ ∀ i ∈ errors, ¬ now < (s.fd.entry i).use + pendingErrorTimeout) do
    Prog.forEach (fun i => do
      let _ ← fdCacheDel w i false) errors
    regenerateWriteVerifier w

end

/-! ## Footprints -/

section
variable {L R : Type} {w : World L R} {E : Event → Prop}
  {r : Server L R → Server L R → Prop} [OwnFrame r] [Allows w E r]
  (hE : ∀ c : SysCall, c.mutates = false → E (.sys c))

open Prog (Frame)

include hE

theorem fdCacheDel_frame (idx : Nat) (keepOnError : Bool) :
    Frame r (fdCacheDel w idx keepOnError) := by
  have hm : ∀ f : Server L R → FdCache,
      Frame r (Prog.modify fun s => { s with fd := f s } : M L R Unit) :=
    fun f => modify_frame fun _ => ⟨rfl, rfl, rfl, rfl, rfl, rfl⟩
  refine .bind .get fun s => .bind (.ite (fun _ => ?_) fun _ => ?_) fun _ => ?_
  · refine .bind (.ite (fun _ => ?_) fun _ => ?_) fun _ => ?_
    · exact .bind (hm _) fun _ => sys_frame (hE _ rfl)
    · exact .bind (hm _) fun _ => .pure _
    · exact .bind (sys_frame (hE _ rfl)) fun _ => .bind (hm _) fun _ => .pure _
  · exact .bind (modify_frame fun _ => ⟨rfl, rfl, rfl, rfl, rfl, rfl⟩) fun _ => .pure _
  · refine .bind (.when fun _ => modify_frame fun _ => ⟨rfl, rfl, rfl, rfl, rfl, rfl⟩) fun _ => ?_
    exact .bind (.when fun _ => hm _) fun _ => .pure _

theorem fdOpen_frame (path : CStr) (nfh : NfsFh3) (kind : FdKind) (allowCaching : Bool) :
    Frame r (fdOpen w path nfh kind allowCaching) := by
  refine .bind .get fun s => ?_
  split
  · refine .ite (fun _ => ?_) fun _ => .pure _
    exact .bind (fdCacheDel_frame hE _ _) fun _ => .pure _
  · refine .bind (sys_frame (hE _ rfl)) fun fd => .ite (fun _ => .pure _) fun _ => ?_
    refine .bind (query_frame _) fun _ => .ite (fun _ => ?_) fun _ => ?_
    · refine .bind (sys_frame (hE _ rfl)) fun _ => ?_
      exact .bind (modify_frame fun _ => ⟨rfl, rfl, rfl, rfl, rfl, rfl⟩) fun _ => .pure _
    · refine .bind (.when fun _ => modify_frame fun s => ?_) fun _ => .pure _
      split <;> exact ⟨rfl, rfl, rfl, rfl, rfl, rfl⟩

theorem fdClose_frame (fd : Int) (kind : FdKind) (reallyClose : Bool) :
    Frame r (fdClose w fd kind reallyClose) := by
  refine .bind .get fun s => ?_
  split
  · refine .bind (modify_frame fun _ => ⟨rfl, rfl, rfl, rfl, rfl, rfl⟩) fun _ => ?_
    exact .ite (fun _ => fdCacheDel_frame hE _ _) fun _ => .pure _
  · refine .bind (.ite (fun _ => sys_frame (hE _ rfl)) fun _ => .pure _) fun _ => ?_
    exact .bind (sys_frame (hE _ rfl)) fun _ => .pure _

end

end NfsRods
