import NfsRods.Serve
import NfsRods.Sandbox

/-!
# The stat cache after resolution

GETATTR, ACCESS, READ and WRITE answer from the global `st_cache` that `fh_decomp` is meant to fill.
Two branches of it return a path without a stat: the handle of an export point (`dev` an export's
fsid, `ino` 1) and a handle of the root directory (`len` 0) that the handle cache does not know.

* `Blind w s fh p`: in state `s` the handle `fh` is resolved to `p` by one of these branches.
* `stat_cache_iff`: after two histories such a request sees the same, true attributes exactly when
  the stat cache the earlier requests left behind already held them.
-/

namespace NfsRods

open CStr

/-- The attributes the reply is made of: type and mode, owner, size and times. -/
def Stat.shown (b : Stat) : Stat :=
  { mode := b.mode, uid := b.uid, gid := b.gid, size := b.size, atime := b.atime, mtime := b.mtime
    ctime := b.ctime }

section
variable {L R : Type} (w : World L R)

/-- The state in which `PREP` resolves the handle of a request that arrives in state `s`. -/
def arrive (rq : SvcReq) (s : Server L R) : Server L R := (switchToRoot w (enter rq s)).2

/-- `fh` is the handle of an export point. -/
def ExportRoot (s : Server L R) (fh : NfsFh3) : Prop :=
  (exportPointFromFsid s.exportList fh.obj.dev).isSome ∧ fh.obj.ino = 1

instance (s : Server L R) (fh : NfsFh3) : Decidable (ExportRoot s fh) := by
  unfold ExportRoot; infer_instance

/-- `fh` is resolved to a path without a stat (module doc). -/
inductive Blind (s : Server L R) (fh : NfsFh3) : CStr → Prop
  | exportRoot {p : CStr} (hv : nfhValid fh = true)
    (hp : exportPointFromFsid s.exportList fh.obj.dev = some p) (hi : fh.obj.ino = 1) : Blind s fh p
  | root (hv : nfhValid fh = true) (hn : ¬ ExportRoot s fh) (hl : fh.obj.len = 0)
    (hm : (fhCacheLookup w fh.obj.dev fh.obj.ino s).1 = .ok none) : Blind s fh root

/-- The stat cache after `fh_decomp` holds what `lstat` says of the path `p`. -/
structure Shows (s : Server L R) (fh : NfsFh3) (p : CStr) : Prop where
  valid : (fhDecomp w fh s).2.stCacheValid = true
  own : ∀ b, w.lstat s.kernel p = .ok b → (fhDecomp w fh s).2.stCache.shown = b.shown

/-- Requests on `fh` in the states `s` and `s'` see one stat cache, that of `p`. -/
structure SameStat (s s' : Server L R) (fh : NfsFh3) (p : CStr) : Prop where
  fst : Shows w s fh p
  snd : Shows w s' fh p
  same : (fhDecomp w fh s).2.stCache.shown = (fhDecomp w fh s').2.stCache.shown

/-- What the stat cache holds when the request arrives; an empty export point counts as 4096 bytes
long. -/
def held (s : Server L R) (fh : NfsFh3) : Stat :=
  { s.stCache with
    size := if ExportRoot s fh ∧ s.stCache.size = 0 then 4096 else s.stCache.size }

/-- The stat cache that an earlier request left shows `p` already: it is valid, unless `fh` is an
export point's, and holds the attributes of `p`. -/
def Primed (s : Server L R) (fh : NfsFh3) (p : CStr) : Prop :=
  (ExportRoot s fh ∨ s.stCacheValid = true) ∧
    ∀ b, w.lstat s.kernel p = .ok b → (held s fh).shown = b.shown

end

section
variable {L R : Type} {w : World L R} {s s' : Server L R} {fh : NfsFh3} {p : CStr}

/-- Resolving an export point's handle fills in zero fields of what is there. -/
theorem fhDecomp_exportRoot (hv : nfhValid fh = true)
    (hp : exportPointFromFsid s.exportList fh.obj.dev = some p) (hi : fh.obj.ino = 1) :
    fhDecomp w fh s = (.ok (some p), { s with
      stCacheValid := true, stCache := exportPointStat s.stCache fh.obj.dev }) := by
  simp only [fhDecomp, hv, Bool.not_true, Bool.false_eq_true, ↓reduceIte, Prog.get_bind_run, hp, hi,
    Prog.modify_bind_run, Prog.pure_run]

/-- The handle of an export point is resolved by the export list alone. -/
theorem ExportRoot.decomp (hr : ExportRoot s fh) (hv : nfhValid fh = true)
    (hl : s'.exportList = s.exportList) : (fhDecomp w fh s').1 = (fhDecomp w fh s).1 := by
  obtain ⟨p, hp⟩ := Option.isSome_iff_exists.1 hr.1
  rw [fhDecomp_exportRoot hv hp hr.2, fhDecomp_exportRoot hv (hl ▸ hp) hr.2]

theorem fhDecomp_hard (hv : nfhValid fh = true) (hn : ¬ ExportRoot s fh) :
    fhDecomp w fh s = fhDecompHard w fh.obj s := by
  simp only [fhDecomp, hv, Bool.not_true, Bool.false_eq_true, ↓reduceIte, Prog.get_bind_run]
  cases hp : exportPointFromFsid s.exportList fh.obj.dev with
  | none => rfl
  | some p =>
    have hi : fh.obj.ino ≠ 1 := fun hi => hn ⟨by rw [hp]; rfl, hi⟩
    simp only [hi, ↓reduceIte]

/-- A miss in the handle cache leaves the stat cache alone. -/
theorem fhCacheLookup_miss {dev ino : ULong} {s1 : Server L R}
    (h : fhCacheLookup w dev ino s = (.ok none, s1)) :
    s1.stCacheValid = s.stCacheValid ∧ s1.stCache = s.stCache ∧ s1.kernel = s.kernel := by
  unfold fhCacheLookup at h
  repeat' split at h
  all_goals cases h
  all_goals exact ⟨rfl, rfl, rfl⟩

/-- Resolving the root directory's handle by its length leaves the stat cache alone. -/
theorem fhDecompHard_root {obj : Unfs3Fh} (hl : obj.len = 0)
    (hm : (fhCacheLookup w obj.dev obj.ino s).1 = .ok none) :
    ∃ s1, fhDecompHard w obj s = (.ok (some root), s1) ∧ s1.stCacheValid = s.stCacheValid ∧
      s1.stCache = s.stCache := by
  rcases hc : fhCacheLookup w obj.dev obj.ino s with ⟨r, s1⟩
  rw [hc] at hm
  subst hm
  obtain ⟨hv, hst, _⟩ := fhCacheLookup_miss hc
  refine ⟨{ s1 with fh := s1.fh.add obj.dev obj.ino root }, ?_, hv, hst⟩
  rw [fhDecompHard, Prog.bind_ok hc]
  simp only [Prog.get_bind_run, fhDecompRaw, hl, ↓reduceIte]
  rfl

/-- What a blind resolution leaves in the stat cache, and whether it is marked valid. -/
theorem Blind.decomp (h : Blind w s fh p) :
    (fhDecomp w fh s).1 = .ok (some p) ∧
      (fhDecomp w fh s).2.stCache.shown = (held s fh).shown ∧
      ((fhDecomp w fh s).2.stCacheValid = true ↔ ExportRoot s fh ∨ s.stCacheValid = true) := by
  cases h with
  | exportRoot hv hp hi =>
    have he : ExportRoot s fh := ⟨by rw [hp]; rfl, hi⟩
    rw [fhDecomp_exportRoot hv hp hi]
    exact ⟨rfl, by simp [Stat.shown, held, exportPointStat, he], by simp [he]⟩
  | root hv hn hl hm =>
    obtain ⟨s1, hrun, hval, hst⟩ := fhDecompHard_root hl hm
    rw [fhDecomp_hard hv hn, hrun]
    exact ⟨rfl, by simp [Stat.shown, held, hst, hn], by simp [hval, hn]⟩

theorem shows_iff (h : Blind w s fh p) : Shows w s fh p ↔ Primed w s fh p := by
  obtain ⟨_, hst, hval⟩ := h.decomp
  constructor
  · exact fun hs => ⟨hval.1 hs.valid, fun b hb => hst.symm.trans (hs.own b hb)⟩
  · exact fun hp => ⟨hval.2 hp.1, fun b hb => hst.trans (hp.2 b hb)⟩

/-- **What a blind resolution shows depends on the history**: after two histories that lead to the
same file system and export list, requests on such a handle see the same stat cache, that of the
resolved path, exactly when the earlier requests of both left a stat cache that shows the path
already (and, where the path cannot be stat'ed, shows the same). -/
theorem stat_cache_iff (w : World L R) : ∀ (r r' : Run w) (s s' : Server L R), r.last = some s →
    r'.last = some s' → ∀ rq rq' : SvcReq,
    w.lstat (arrive w rq s).kernel = w.lstat (arrive w rq' s').kernel →
    s.exportList = s'.exportList → ∀ (fh : NfsFh3) (p : CStr), Blind w (arrive w rq s) fh p →
    Blind w (arrive w rq' s') fh p →
    (SameStat w (arrive w rq s) (arrive w rq' s') fh p ↔
      Primed w (arrive w rq s) fh p ∧ Primed w (arrive w rq' s') fh p ∧
        (held (arrive w rq s) fh).shown = (held (arrive w rq' s') fh).shown) := by
  intro r r' s s' _ _ rq rq' _ _ fh p hb hb'
  have hs := hb.decomp.2.1
  have hs' := hb'.decomp.2.1
  constructor
  · rintro ⟨h, h', hsame⟩
    exact ⟨(shows_iff hb).1 h, (shows_iff hb').1 h', by rw [← hs, ← hs', hsame]⟩
  · rintro ⟨h, h', hsame⟩
    exact ⟨(shows_iff hb).2 h, (shows_iff hb').2 h', by rw [hs, hs', hsame]⟩

end

/-! ## Two histories in the small world -/

/-- `/`, the directory `/e` (also reached as `//e`) and the file `/e/f`. -/
def statFiles : List (CStr × Stat) :=
  [(lit "/", { dev := 1, ino := 2, mode := 0o040755, size := 4096 }),
    (lit "/e", { dev := 1, ino := 3, mode := 0o040750, uid := 7, size := 4096 }),
    (lit "//e", { dev := 1, ino := 3, mode := 0o040750, uid := 7, size := 4096 }),
    (lit "/e/f", { dev := 1, ino := 4, mode := 0o100640, uid := 7, size := 10 })]

def statReq : SvcReq := { remote := 1, uid := 7, gid := 7 }

/-- The daemon after start-up, with exports of `/` and of `/e`. -/
def statServer : Server Sandbox.Kernel Sandbox.Grid :=
  Sandbox.server [Sandbox.item (lit "/") true, Sandbox.item (lit "/e") true]
    { files := statFiles } {}

/-- The history without requests. -/
def noHistory : Run Sandbox.publicWorld :=
  ⟨[], some statServer, .start ⟨_, _, _, _, _, _, rfl⟩⟩

/-- LOOKUP of a name in an export's directory. -/
def lookupVisit (dir name : CStr) : Visit Sandbox.Kernel Sandbox.Grid :=
  { rq := statReq, call := .lookup { dir := Sandbox.handle (Sandbox.item dir true), name }
    state := statServer }

/-- GETATTR of an object. -/
def getattrVisit (obj : Unfs3Fh) (s : Server Sandbox.Kernel Sandbox.Grid) :
    Visit Sandbox.Kernel Sandbox.Grid :=
  { rq := statReq, call := .getattr { dataLen := fhLength obj, obj }, state := s }

/-- The handles LOOKUP gives out for `/e` and `/e/f`. -/
def dirFh : Unfs3Fh := { dev := 1, ino := 3, gen := 3, len := 1, inos := [3] }
def fileFh : Unfs3Fh := { dev := 1, ino := 4, gen := 4, len := 2, inos := [3, 4] }

/-- `/e` was looked up below `/` and then asked for its attributes, once or twice. -/
def dirHistory : Run Sandbox.publicWorld :=
  (noHistory.next (lookupVisit (lit "/") (lit "e")) rfl rfl).next (getattrVisit dirFh _) rfl rfl

def dirHistory' : Run Sandbox.publicWorld := dirHistory.next (getattrVisit dirFh _) rfl rfl

/-- `/e/f` was looked up and then asked for its attributes. -/
def fileHistory : Run Sandbox.publicWorld :=
  (noHistory.next (lookupVisit (lit "/e") (lit "f")) rfl rfl).next (getattrVisit fileFh _) rfl rfl

/-- The handle of the export point `/e`. -/
def eHandle : NfsFh3 := Sandbox.handle (Sandbox.item (lit "/e") true)

/-- Whatever came before, that handle is resolved without a stat. -/
theorem eHandle_blind {s : Server Sandbox.Kernel Sandbox.Grid}
    (h : s.exportList = statServer.exportList) :
    Blind Sandbox.publicWorld (arrive Sandbox.publicWorld statReq s) eHandle (lit "/e") := by
  refine .exportRoot (by decide) ?_ rfl
  have hroot : Foot Sandbox.publicWorld (fun _ => True) _ _ :=
    switchToRoot_frame (w := Sandbox.publicWorld) (E := fun _ => True) (fun _ _ => trivial)
      (enter statReq s)
  have hl : (arrive Sandbox.publicWorld statReq s).exportList = s.exportList := hroot.exportList
  rw [hl, h]
  decide

/-- A stat cache that holds the attributes of `/e` shows them. -/
theorem eHandle_primed {s : Server Sandbox.Kernel Sandbox.Grid}
    (hv : (arrive Sandbox.publicWorld statReq s).stCacheValid = true)
    (hs : (held (arrive Sandbox.publicWorld statReq s) eHandle).shown =
      { mode := 0o040750, uid := 7, size := 4096 })
    (hk : (arrive Sandbox.publicWorld statReq s).kernel.files = statFiles) :
    Primed Sandbox.publicWorld (arrive Sandbox.publicWorld statReq s) eHandle (lit "/e") := by
  refine ⟨.inr hv, fun b hb => ?_⟩
  have hl : Sandbox.find (arrive Sandbox.publicWorld statReq s).kernel (lit "/e") =
      .ok { dev := 1, ino := 3, mode := 0o040750, uid := 7, size := 4096 } := by
    rw [Sandbox.find, hk]
    rfl
  rw [hs]
  cases hl.symm.trans hb
  rfl

/-- The state a history ends in. -/
def lastOf (r : Run Sandbox.publicWorld) : Server Sandbox.Kernel Sandbox.Grid :=
  r.last.getD statServer

/-- Two histories that ended with a look at `/e` itself. -/
theorem stat_cache_dir :
    SameStat Sandbox.publicWorld (arrive Sandbox.publicWorld statReq (lastOf dirHistory))
      (arrive Sandbox.publicWorld statReq (lastOf dirHistory')) eHandle (lit "/e") :=
  (stat_cache_iff Sandbox.publicWorld dirHistory dirHistory' (lastOf dirHistory)
    (lastOf dirHistory')
    rfl rfl statReq statReq (congrArg Sandbox.find (by decide +kernel)) (by decide +kernel) eHandle
      (lit "/e")
    (eHandle_blind (by decide +kernel)) (eHandle_blind (by decide +kernel))).2
    ⟨eHandle_primed (by decide +kernel) (by decide +kernel) (by decide +kernel),
      eHandle_primed (by decide +kernel) (by decide +kernel) (by decide +kernel), by decide +kernel⟩

/-- After a look at the file `/e/f` the export point is shown as a file; after start-up it has no
type at all. File system, export list and handle are the same. -/
theorem stat_cache_differs :
    let s := arrive Sandbox.publicWorld statReq (lastOf noHistory)
    let s' := arrive Sandbox.publicWorld statReq (lastOf fileHistory)
    noHistory.last = some (lastOf noHistory) ∧ fileHistory.last = some (lastOf fileHistory) ∧
      s.kernel = s'.kernel ∧ s.exportList = s'.exportList ∧
      Blind Sandbox.publicWorld s eHandle (lit "/e") ∧
      Blind Sandbox.publicWorld s' eHandle (lit "/e") ∧
      ¬ SameStat Sandbox.publicWorld s s' eHandle (lit "/e") := by
  refine ⟨rfl, rfl, by decide +kernel, by decide +kernel, eHandle_blind (by decide +kernel),
    eHandle_blind (by decide +kernel), fun h => ?_⟩
  have hmode := congrArg Stat.mode h.same
  revert hmode
  decide +kernel

end NfsRods
