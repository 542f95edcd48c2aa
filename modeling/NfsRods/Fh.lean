import NfsRods.Server

/-!
# File handles

`fh.c`, `fh_cache.c` and `locate.c`: composing a handle from a path, extending it, and resolving
a client's handle back to a path through the handle cache, the inode-hash chain stored in the
handle (`fhRec`) and the brute-force search (`locatePfx`). Resolution reads the file system and
writes only the handle cache and the stat cache (`fhDecomp_caches`); the `errno` its lookups leave
is not tracked, since no caller reads it before another call has set it.
-/

namespace NfsRods

open CStr

/-- `FH_MINLEN`. -/
def fhMinLen : Nat := 21

/-- `FH_MAXLEN`. -/
def fhMaxLen : Nat := 64 - fhMinLen

/-- `CACHE_ENTRIES`. -/
def cacheEntries : Nat := 4096

/-- `FH_HASH`. -/
def fhHash (n : ULong) : UInt8 :=
  ((n ^^^ (n >>> 8) ^^^ (n >>> 16) ^^^ (n >>> 24) ^^^ (n >>> 32) ^^^ (n >>> 40) ^^^ (n >>> 48) ^^^
    (n >>> 56)) &&& 0xff).toUInt8

/-- `fh_length`: the length byte, four 8-byte fields and the hashes. -/
def fhLength (fh : Unfs3Fh) : Nat := fh.len + 1 + 8 + 8 + 8 + 8

/-- `nfh_valid`. -/
def nfhValid (fh : NfsFh3) : Bool := fhMinLen ≤ fh.dataLen && fh.dataLen == fhLength fh.obj

/-- `fh_valid`. -/
def fhValid (fh : Unfs3Fh) : Bool := fh.dev != 0 || fh.ino != 0

/-- `invalid_fh`. -/
def invalidFh : Unfs3Fh := {}

/-- `get_gen`: neither `st_gen` nor the ext2 ioctl is configured. -/
def getGen (b : Stat) : ULong := b.ino

/-! ## The handle cache -/

namespace FhCache

/-- `fh_cache_next`. -/
def next (c : FhCache) : FhCache := { c with time := (c.time + 1) % 2 ^ 32 }

/-- Replace entry `i`. -/
def set (c : FhCache) (i : Nat) (e : FhEntry) : FhCache :=
  { c with entry := fun j => if j = i then e else c.entry j }

/-- `fh_cache_inval`. -/
def inval (c : FhCache) (i : Nat) : FhCache := c.set i {}

/-- `fh_cache_index`. -/
def index (c : FhCache) (dev ino : ULong) : Option Nat :=
  (List.range (c.max + 1)).find? fun i => (c.entry i).dev == dev && (c.entry i).ino == ino

/-- The scan of a full table: an unused entry, or the least recently used one. -/
def lruScan (c : FhCache) : List Nat → Nat → Nat → Nat
  | [], _, bestIdx => if bestIdx = 0 ∧ c.lastEntry = some 0 then 1 else bestIdx
  | i :: is, best, bestIdx =>
    if c.lastEntry = some i then lruScan c is best bestIdx
    else if (c.entry i).use = 0 then i
    else if (c.entry i).use < best then lruScan c is (c.entry i).use i
    else lruScan c is best bestIdx

/-- `fh_cache_lru`. -/
def lru (c : FhCache) : Nat × FhCache :=
  if c.max < cacheEntries - 1 then (c.max, { c with max := c.max + 1 })
  else (c.lruScan (List.range cacheEntries) (2 ^ 32 - 1) 0, c)

/-- `fh_cache_add`. -/
def add (c : FhCache) (dev ino : ULong) (path : CStr) : FhCache :=
  let (i, c) := match c.index dev ino with
    | some i => (i, c)
    | none => c.lru
  let c := c.next
  c.set i { dev, ino, path, use := c.time }

end FhCache

section
variable {L R : Type} (w : World L R)

/-- `fh_cache_lookup`. -/
def fhCacheLookup (dev ino : ULong) : M L R (Option CStr) := fun s =>
  match s.fh.index dev ino with
  | none => (.ok none, s)
  | some i =>
    -- check whether path to <dev,ino> relation still holds
    match w.lstat s.kernel (s.fh.entry i).path with
    | .error _ => (.ok none, { s with fh := s.fh.inval i })
    | .ok buf =>
      if buf.dev = dev ∧ buf.ino = ino then
        let c := s.fh.next
        (.ok (some (s.fh.entry i).path),
          { s with fh := { c.set i { c.entry i with use := c.time } with lastEntry := some i }
                   stCacheValid := true, stCache := buf })
      else (.ok none, { s with fh := s.fh.inval i })

/-- `fh_cache_add`. -/
def fhCacheAdd (dev ino : ULong) (path : CStr) : M L R Unit :=
  Prog.modify fun s => { s with fh := s.fh.add dev ino path }

/-! ## Resolution -/

/-- What `lstat` leaves in the buffer `fh_rec` compares: zero device and inode when it fails. -/
def statOrZero (k : L) (path : CStr) : Stat :=
  match w.lstat k path with
  | .ok b => b
  | .error _ => {}

/-- `fh_rec` with `n = fh->len - pos`: the path and the attributes it found. -/
def fhRec (k : L) (fh : Unfs3Fh) : Nat → CStr → Option (CStr × Stat)
  | 0, _ => none
  | n + 1, lead =>
    match w.readdir k lead with
    | .error _ => none
    | .ok entries => entries.findSome? fun e =>
      if lead.length + e.name.length + 1 < maxPathLen then
        let obj := lead ++ root ++ e.name
        let buf := statOrZero w k obj
        if buf.dev = fh.dev ∧ buf.ino = fh.ino then some (lead.drop 1 ++ root ++ e.name, buf)
        else if e.name ≠ lit ".." ∧ e.name ≠ lit "." ∧
            fhHash buf.ino = fh.inos.getD (fh.len - (n + 1)) 0 then fhRec k fh n obj
        else none
      else none

/-- `locate_pfx`; every level adds a separator, so `fuel = NFS_MAXPATHLEN` levels are enough. -/
def locatePfx (k : L) (dev ino : ULong) : Nat → CStr → Option (CStr × Stat)
  | 0, _ => none
  | fuel + 1, pfx =>
    match w.readdir k pfx with
    | .error _ => none
    | .ok entries => entries.findSome? fun e =>
      if maxPathLen ≤ pfx.length + e.name.length + 2 then none
      else
        let path := pfx ++ root ++ e.name
        match w.lstat k path with
        | .error _ => none
        | .ok buf =>
          if buf.dev = dev ∧ buf.ino = ino then some (path, buf)
          else if buf.dev = dev ∧ buf.isDir ∧ e.name ≠ lit "." ∧ e.name ≠ lit ".." then
            locatePfx k dev ino fuel path
          else none

/-- `locate_file`. -/
def locateFile (k : L) (dev ino : ULong) : Option (CStr × Stat) :=
  if !w.conf.bruteForce then none
  else do
    let mtab ← w.mtab k
    let dir ← mtab.find? fun d => match w.lstat k d with
      | .ok b => b.dev == dev
      | .error _ => false
    locatePfx w k dev ino maxPathLen dir

/-- `fh_decomp_raw`; the root directory's handle does not touch the stat cache. -/
def fhDecompRaw (k : L) (fh : Unfs3Fh) : Option (CStr × Option Stat) :=
  if fh.len = 0 then some (root, none)
  else (fhRec w k fh fh.len root).map fun r => (r.1, some r.2)

/-- The stat cache of a removable export point: only its zero fields are replaced. -/
def exportPointStat (b : Stat) (dev : ULong) : Stat :=
  { b with
    nlink := if b.nlink = 0 then 1 else b.nlink
    size := if b.size = 0 then 4096 else b.size
    blksize := if b.blksize = 0 then 512 else b.blksize
    blocks := if b.blocks = 0 then 8 else b.blocks
    dev := dev
    ino := 1 }

/-- Resolution of a handle that is not an export point's. -/
def fhDecompHard (obj : Unfs3Fh) : M L R (Option CStr) := do
  match ← fhCacheLookup w obj.dev obj.ino with
  | some p => pure (some p)
  | none =>
    let s ← Prog.get
    let found := match fhDecompRaw w s.kernel obj with
      | some r => some r
      | none => (locateFile w s.kernel obj.dev obj.ino).map fun r => (r.1, some r.2)
    match found with
    | some (p, st) =>
      Prog.modify fun s => match st with
        | some b => { s with stCacheValid := true, stCache := b }
        | none => s
      fhCacheAdd obj.dev obj.ino p
      pure (some p)
    | none =>
      Prog.modify fun s => { s with stCacheValid := false }
      pure none

/-- `fh_decomp`. -/
def fhDecomp (fh : NfsFh3) : M L R (Option CStr) := do
  if !nfhValid fh then
    Prog.modify fun s => { s with stCacheValid := false }
    pure none
  else
    let s ← Prog.get
    match exportPointFromFsid s.exportList fh.obj.dev with
    | some p =>
      if fh.obj.ino = 1 then
        Prog.modify fun s =>
          { s with stCacheValid := true, stCache := exportPointStat s.stCache fh.obj.dev }
        pure (some p)
      else fhDecompHard w fh.obj
    | none => fhDecompHard w fh.obj

/-! ## Composition -/

/-- The prefixes of a path up to each separator after the first byte, and the path itself. -/
def cuts : CStr → List CStr
  | [] => [[]]
  | b :: rest => go [b] rest
where
  go (done : CStr) : CStr → List CStr
    | [] => [done]
    | b :: rest => if b = slash then done :: go (done ++ [b]) rest else go (done ++ [b]) rest

/-- The inode hashes of a path's prefixes; `none` when one cannot be stat'ed. -/
def hashes (k : L) : List CStr → Option (List UInt8)
  | [] => some []
  | p :: ps =>
    match w.lstat k p with
    | .error _ => none
    | .ok b => (hashes k ps).map (fhHash b.ino :: ·)

/-- `fh_comp_raw` after the special case for removable export points. -/
def fhCompPath (k : L) (path : CStr) (needDir : Bool) : Unfs3Fh :=
  match w.lstat k path with
  | .error _ => invalidFh
  | .ok buf =>
    if needDir && !buf.isDir then invalidFh
    else
      let fh : Unfs3Fh := { dev := buf.dev, ino := buf.ino, gen := getGen buf }
      if path = root then fh
      else match hashes w k ((cuts path).take fhMaxLen) with
        | none => invalidFh
        | some inos =>
          -- path too deep for filehandle
          if fhMaxLen < (cuts path).length then invalidFh else { fh with len := inos.length, inos }

/-- `fh_comp_raw` (`rq` is `none` for a `NULL` request). -/
def fhCompRaw (path : CStr) (rq : Option SvcReq) (needDir : Bool) : M L R Unfs3Fh := do
  let s ← Prog.get
  match rq with
  | none => pure (fhCompPath w s.kernel path needDir)
  | some rq =>
    if exportPoint s.exportList path then
      let k ← exportsOptionsM (some path) rq
      if k.vars.opts = none then pure invalidFh
      else if k.vars.bit (·.removable) then
        pure { dev := k.fsid.getD 0, ino := 1 }
      else pure (fhCompPath w s.kernel path needDir)
    else pure (fhCompPath w s.kernel path needDir)

/-- `fh_comp`. -/
def fhComp (path : CStr) (rq : SvcReq) (needDir : Bool) : M L R Unfs3Fh := do
  let res ← fhCompRaw w path (some rq) needDir
  Prog.when (fhValid res) (fhCacheAdd res.dev res.ino path)
  let s ← Prog.get
  pure { res with pwhash := s.exports.passwordHash }

/-- `fh_comp_ptr`. -/
def fhCompPtr (path : CStr) (rq : SvcReq) (needDir : Bool) : M L R (Option Unfs3Fh) := do
  let res ← fhComp w path rq needDir
  pure (if fhValid res then some res else none)

/-- `fh_extend`. -/
def fhExtend (nfh : NfsFh3) (dev ino gen : ULong) : M L R (Option Unfs3Fh) := do
  let s ← Prog.get
  let base := if nfh.obj.len = 0 then
      match exportPointFromFsid s.exportList nfh.obj.dev with
      | some path =>
        -- a removable export point's handle lacks `inos`; compose a real one to extend
        let new := fhCompPath w s.kernel path false
        if fhValid new then some new else none
      | none => some nfh.obj
    else some nfh.obj
  match base with
  | none => pure none
  | some new =>
    if new.len = fhMaxLen then pure none
    else pure (some { dev, ino, gen, pwhash := s.exports.passwordHash, len := new.len + 1
                      inos := new.inos.take new.len ++ [fhHash ino] })

/-- `fh_extend_type`. -/
def fhExtendType (fh : NfsFh3) (path : CStr) (type : Nat) : M L R (Option Unfs3Fh) := do
  match ← lstat w path with
  | none =>
    Prog.modify fun s => { s with stCacheValid := false }
    pure none
  | some buf =>
    if buf.mode &&& type ≠ type then
      Prog.modify fun s => { s with stCacheValid := false }
      pure none
    else
      Prog.modify fun s => { s with stCacheValid := true, stCache := buf }
      fhExtend w fh buf.dev buf.ino (getGen buf)

end

/-! ## Footprints -/

section
variable {L R : Type} {w : World L R} {E : Event → Prop}
  {r : Server L R → Server L R → Prop} [OwnFrame r] [Allows w E r]

open Prog (Frame Returns)

/-- `s'` differs from `s` only in the handle cache and the stat cache. -/
def UpToCaches (s s' : Server L R) : Prop :=
  ∃ c valid st, s' = { s with fh := c, stCacheValid := valid, stCache := st }

instance : Std.Refl (UpToCaches (L := L) (R := R)) := ⟨fun _ => ⟨_, _, _, rfl⟩⟩
instance : Std.Symm (UpToCaches (L := L) (R := R)) := ⟨by
  rintro s _ ⟨_, _, _, rfl⟩
  exact ⟨_, _, _, rfl⟩⟩
instance : IsTrans (Server L R) UpToCaches := ⟨by
  rintro s _ _ ⟨_, _, _, rfl⟩ ⟨_, _, _, rfl⟩
  exact ⟨_, _, _, rfl⟩⟩

theorem UpToCaches.foot {s s' : Server L R} (h : UpToCaches s s') : Foot w E s s' := by
  obtain ⟨_, _, _, rfl⟩ := h
  exact ⟨⟨[], by simp, by simp, by simp, rfl, rfl⟩, rfl, rfl⟩

theorem fhCacheLookup_caches (dev ino : ULong) : Frame UpToCaches (fhCacheLookup w dev ino) := by
  intro s
  unfold fhCacheLookup
  repeat' split
  all_goals exact ⟨_, _, _, rfl⟩

theorem fhCacheAdd_caches (dev ino : ULong) (path : CStr) :
    Frame UpToCaches (fhCacheAdd dev ino path : M L R Unit) := fun _ => ⟨_, _, _, rfl⟩

theorem fhDecompHard_caches (obj : Unfs3Fh) : Frame UpToCaches (fhDecompHard w obj) := by
  refine .bind (fhCacheLookup_caches _ _) fun r => ?_
  cases r with
  | some p => exact .pure _
  | none =>
    refine .bind .get fun s => ?_
    dsimp only
    split
    · refine .bind (fun s => ?_) fun _ => .bind (fhCacheAdd_caches _ _ _) fun _ => .pure _
      simp only [Prog.modify_run]
      split <;> exact ⟨_, _, _, rfl⟩
    · exact .bind (fun _ => ⟨_, _, _, rfl⟩) fun _ => .pure _

/-- Resolving a handle changes nothing but the two caches. -/
theorem fhDecomp_caches (fh : NfsFh3) : Frame UpToCaches (fhDecomp w fh) := by
  unfold fhDecomp
  refine .ite (fun _ => ?_) fun _ => .bind .get fun s => ?_
  · exact .bind (fun _ => ⟨_, _, _, rfl⟩) fun _ => .pure _
  · split
    · refine .ite (fun _ => ?_) fun _ => fhDecompHard_caches _
      exact .bind (fun _ => ⟨_, _, _, rfl⟩) fun _ => .pure _
    · exact fhDecompHard_caches _

theorem fhCacheAdd_foot (dev ino : ULong) (path : CStr) :
    Frame (Foot w E) (fhCacheAdd dev ino path : M L R Unit) :=
  (fhCacheAdd_caches dev ino path).mono fun _ _ h => h.foot

/-- Resolving a handle issues no call that changes anything and leaves the exports alone. -/
theorem fhDecomp_foot (fh : NfsFh3) : Frame (Foot w E) (fhDecomp w fh) :=
  (fhDecomp_caches fh).mono fun _ _ h => h.foot

theorem fhCacheLookup_returns (dev ino : ULong) : Returns (fhCacheLookup w dev ino) := by
  intro s
  unfold fhCacheLookup
  repeat' split
  all_goals exact ⟨_, _, rfl⟩

theorem fhDecompHard_returns (obj : Unfs3Fh) : Returns (fhDecompHard w obj) := by
  refine .bind (fhCacheLookup_returns _ _) fun r => ?_
  cases r with
  | some p => exact .pure _
  | none =>
    refine .bind .get fun s => ?_
    dsimp only
    split
    · exact .bind (.modify _) fun _ => .bind (.modify _) fun _ => .pure _
    · exact .bind (.modify _) fun _ => .pure _

/-- Resolving a handle always returns. -/
theorem fhDecomp_returns (fh : NfsFh3) : Returns (fhDecomp w fh) := by
  refine .ite (.bind (.modify _) fun _ => .pure _) (.bind .get fun s => ?_)
  split
  · exact .ite (.bind (.modify _) fun _ => .pure _) (fhDecompHard_returns _)
  · exact fhDecompHard_returns _

theorem fhExtend_frame (nfh : NfsFh3) (dev ino gen : ULong) :
    Frame r (fhExtend w nfh dev ino gen) := by
  refine .bind .get fun s => ?_
  dsimp only
  split
  · exact .pure _
  · exact .ite (fun _ => .pure _) fun _ => .pure _

theorem fhExtend_returns (nfh : NfsFh3) (dev ino gen : ULong) :
    Returns (fhExtend w nfh dev ino gen) := by
  refine .bind .get fun s => ?_
  dsimp only
  split
  · exact .pure _
  · exact .ite (.pure _) (.pure _)

theorem fhExtendType_returns (fh : NfsFh3) (path : CStr) (type : Nat) :
    Returns (fhExtendType w fh path type) := by
  refine .bind (query_returns _) fun r => ?_
  cases r with
  | none => exact .bind (.modify _) fun _ => .pure _
  | some buf =>
    refine .ite (.bind (.modify _) fun _ => .pure _) (.bind (.modify _) fun _ => ?_)
    exact fhExtend_returns _ _ _ _

theorem fhExtendType_frame (fh : NfsFh3) (path : CStr) (type : Nat) :
    Frame r (fhExtendType w fh path type) := by
  refine .bind (lstat_frame _) fun r => ?_
  cases r with
  | none => exact .bind (modify_frame fun _ => ⟨rfl, rfl, rfl, rfl, rfl, rfl⟩) fun _ => .pure _
  | some buf =>
    refine .ite (fun _ => ?_) fun _ => ?_
    · exact .bind (modify_frame fun _ => ⟨rfl, rfl, rfl, rfl, rfl, rfl⟩) fun _ => .pure _
    · exact .bind (modify_frame fun _ => ⟨rfl, rfl, rfl, rfl, rfl, rfl⟩) fun _ =>
        fhExtend_frame _ _ _ _

end

end NfsRods
