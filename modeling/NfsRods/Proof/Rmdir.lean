import NfsRods.Proof.Remote
import NfsRods.Proof.Private
import NfsRods.Sandbox

/-!
# RMDIR of a collection that is not empty

RMDIR removes the mirror's directory, which the kernel refuses when it is not empty, and then the
iRODS collection with `RECURSIVE_OPR__KW` and `FORCE_FLAG_KW`, whatever the first step said and
whatever the collection holds.

* `rmdir_keeps_iff`: a collection with something in it survives RMDIR exactly when iRODS refuses
  the removal (or the request does not get that far).
-/

namespace NfsRods

open CStr

/-- The collection `c` is in the store and has a data object or a collection below it. -/
def Populated (st : Store) (c : CStr) : Prop :=
  st c = some .coll ∧ ∃ q, c ++ root <+: q ∧ (st q).isSome

section
variable {L R : Type} {w : World L R}

/-- What iRODS documents of `rcRmColl` with both keywords: it deletes the collection with its whole
subtree, or answers with a negative status and leaves the store alone. -/
structure RmColl (w : World L R) : Prop where
  removes : ∀ comm c r, 0 ≤ (w.rods (.rcRmColl comm c true true) r).1.status →
    ∀ q, Under c q → w.store (w.rods (.rcRmColl comm c true true) r).2 q = none
  refuses : ∀ comm c r, (w.rods (.rcRmColl comm c true true) r).1.status < 0 →
    w.store (w.rods (.rcRmColl comm c true true) r).2 = w.store r

/-- The request names the collection `c`: the translation of the path that its handle and its name
stand for, under the export that governs it. -/
def Names (w : World L R) (object : Diropargs3) (rq : SvcReq) (s : Server L R) (c : CStr) : Prop :=
  ∃ path s1 obj, prep w object.dir rq s = (.ok (.ok path), s1) ∧
    (catName (some path) object.name).2 = some obj ∧
    c = targetName w (exportPath s1) rq.uid (realPath w (exportPath s1) rq.uid obj)

/-- RMDIR leaves what a populated collection it names holds in the store. -/
def Keeps (w : World L R) (object : Diropargs3) (rq : SvcReq) (s : Server L R) : Prop :=
  ∀ c, Names w object rq s c → Populated (w.store s.rods) c →
    ∀ res s', nfsproc3Rmdir w object rq s = (.ok res, s') →
      ∀ q, Under c q → (w.store s.rods q).isSome → (w.store s'.rods q).isSome

/-- iRODS refuses the caller the removal of `c`. -/
def Refused (w : World L R) (e : CStr) (uid : UInt32) (r : R) (c : CStr) : Prop :=
  (w.rods (removeCollection c (session w e uid r).1) (session w e uid r).2).1.status < 0

/-- RMDIR once `PREP` lets it in. -/
theorem nfsproc3Rmdir_run {object : Diropargs3} {rq : SvcReq} {s s1 : Server L R} {path : CStr}
    (hp : prep w object.dir rq s = (.ok (.ok path), s1)) : nfsproc3Rmdir w object rq s =
      unlinkBody w unlinkRmdir path object.name rq (w.junk s.tick) s1 := by
  rw [nfsproc3Rmdir, unlink, Prog.get_bind_run, withPrep, Prog.bind_ok hp]

/-- **RMDIR keeps what is in a populated collection** exactly when, for each populated collection it
names, the caller has no user name or no zone is configured (and the daemon stops before the call),
or iRODS refuses the removal. -/
theorem rmdir_keeps_iff (hw : RmColl w) (object : Diropargs3) (rq : SvcReq) (s : Server L R) :
    Keeps w object rq s ↔
      ∀ path s1 obj, prep w object.dir rq s = (.ok (.ok path), s1) →
        (catName (some path) object.name).2 = some obj →
        Populated (w.store s.rods) (targetName w (exportPath s1) rq.uid
          (realPath w (exportPath s1) rq.uid obj)) →
        Known w rq.uid → w.conf.zone.isSome →
        Refused w (exportPath s1) rq.uid s.rods (targetName w (exportPath s1) rq.uid
          (realPath w (exportPath s1) rq.uid obj)) := by
  have after : ∀ path s1 obj, prep w object.dir rq s = (.ok (.ok path), s1) →
      (catName (some path) object.name).2 = some obj → Known w rq.uid → w.conf.zone.isSome →
      ∃ res s', nfsproc3Rmdir w object rq s = (.ok res, s') ∧
        w.store s'.rods = effect w (exportPath s1) rq.uid s.rods (removeCollection
          (targetName w (exportPath s1) rq.uid (realPath w (exportPath s1) rq.uid obj))) := by
    intro path s1 obj hp hobj hk hz
    obtain ⟨e, he⟩ := prep_path hp
    obtain ⟨res, s', hrun, hst, _⟩ := unlinkBody_ends (w := w) he hk hz unlinkRmdir path
      object.name (w.junk s.tick)
    refine ⟨res, s', (nfsproc3Rmdir_run hp).trans hrun, ?_⟩
    rw [hst, bufPath, hobj, prep_rods hp, exportPath, he]
    rfl
  constructor
  · intro hkeep path s1 obj hp hobj hpop hk hz
    obtain ⟨res, s', hrun, hst⟩ := after path s1 obj hp hobj hk hz
    refine Int.not_le.1 fun hok => ?_
    have hgone := hw.removes _ _ _ hok _ (.inl rfl)
    have hsome := hkeep _ ⟨path, s1, obj, hp, hobj, rfl⟩ hpop res s' hrun _ (.inl rfl)
      (by rw [hpop.1]; rfl)
    rw [hst, effect, removeCollection, hgone] at hsome
    cases hsome
  · rintro hcond c ⟨path, s1, obj, hp, hobj, rfl⟩ hpop res s' hrun q _ hq
    by_cases hkz : Known w rq.uid ∧ w.conf.zone.isSome
    · obtain ⟨res', s'', hrun', hst⟩ := after path s1 obj hp hobj hkz.1 hkz.2
      obtain ⟨_, rfl⟩ := Prod.mk.inj (hrun.symm.trans hrun')
      have href := hw.refuses _ _ _ (hcond path s1 obj hp hobj hpop hkz.1 hkz.2)
      rw [hst, effect, removeCollection, href, session_store]
      exact hq
    · obtain ⟨e, he⟩ := prep_path hp
      obtain ⟨st, hstop⟩ := unlinkBody_stops (w := w) he hkz unlinkRmdir path object.name
        (w.junk s.tick)
      rw [← nfsproc3Rmdir_run hp, hrun] at hstop
      cases hstop

end

/-! ## RMDIR in the small world -/

theorem lookup_prune {α : Type} {c q : CStr} (h : Under c q) (xs : List (CStr × α)) :
    (Sandbox.prune c xs).lookup q = none := by
  rw [List.lookup_eq_none_iff]
  intro x hx
  have hb := (List.mem_filter.1 hx).2
  rw [bne_iff_ne]
  rintro rfl
  rcases h with h | h
  · simp [Sandbox.below, h] at hb
  · simp [Sandbox.below, List.isPrefixOf_iff_prefix.2 h] at hb

theorem publicWorld_rmColl : RmColl Sandbox.publicWorld where
  removes comm c r hok q hq := by
    change (Sandbox.rodsCall (.rcRmColl comm c true true) r).2.objs.lookup q = none
    change 0 ≤ (Sandbox.rodsCall (.rcRmColl comm c true true) r).1.status at hok
    simp only [Sandbox.rodsCall] at hok ⊢
    split at hok
    · rw [if_pos ‹_›]
      exact lookup_prune hq r.objs
    · cases hok
  refuses comm c r hneg := by
    change (fun q => (Sandbox.rodsCall (.rcRmColl comm c true true) r).2.objs.lookup q) = _
    change (Sandbox.rodsCall (.rcRmColl comm c true true) r).1.status < 0 at hneg
    simp only [Sandbox.rodsCall] at hneg ⊢
    split at hneg
    · cases hneg
    · rw [if_neg ‹_›]
      rfl

/-- The daemon with a read-write export of `/e`, whose mirror holds an empty `/e/d`, and an iRODS
store. -/
def rmdirServer (objs : List (CStr × RodsObj)) : Server Sandbox.Kernel Sandbox.Grid :=
  Sandbox.server [Sandbox.item (lit "/e") true] { files := [(lit "/e/d", { mode := 0o040755 })] }
    { objs }

/-- The directory `d` in the export's root. -/
def rmdirObject : Diropargs3 :=
  { dir := Sandbox.handle (Sandbox.item (lit "/e") true), name := lit "d" }

def rmdirReq : SvcReq := { remote := 1, uid := 7, gid := 7 }

/-- How `PREP` lets the request in. -/
theorem rmdirObject_prep (objs : List (CStr × RodsObj)) :
    (prep Sandbox.publicWorld rmdirObject.dir rmdirReq (rmdirServer objs)).1 =
        .ok (.ok (lit "/e")) ∧
      exportPath (prep Sandbox.publicWorld rmdirObject.dir rmdirReq (rmdirServer objs)).2 =
        lit "/e" := ⟨rfl, rfl⟩

/-- The name it stands for. -/
theorem rmdirObject_name : (catName (some (lit "/e")) rmdirObject.name).2 = some (lit "/e/d") ∧
    targetName Sandbox.publicWorld (lit "/e") rmdirReq.uid
      (realPath Sandbox.publicWorld (lit "/e") rmdirReq.uid (lit "/e/d")) =
        lit "/z/home/public/d" := ⟨by decide, by decide⟩

/-- `/z/home/public/d` with an object in it. -/
def populatedServer : Server Sandbox.Kernel Sandbox.Grid :=
  rmdirServer [(lit "/z/home/public/d", .coll), (lit "/z/home/public/d/f", .data [1])]

/-- RMDIR replies, and the collection is gone. -/
theorem populatedServer_run :
    (∃ res, (nfsproc3Rmdir Sandbox.publicWorld rmdirObject rmdirReq populatedServer).1 = .ok res) ∧
    Sandbox.publicWorld.store (nfsproc3Rmdir Sandbox.publicWorld rmdirObject rmdirReq
      populatedServer).2.rods (lit "/z/home/public/d") = none := ⟨⟨_, rfl⟩, by decide⟩

/-- RMDIR destroys a collection with an object in it, though the mirror's directory was empty. -/
theorem rmdir_destroys : ¬ Keeps Sandbox.publicWorld rmdirObject rmdirReq populatedServer := by
  intro h
  obtain ⟨hpath, he⟩ := rmdirObject_prep
    [(lit "/z/home/public/d", .coll), (lit "/z/home/public/d/f", .data [1])]
  obtain ⟨⟨res, hres⟩, hgone⟩ := populatedServer_run
  rcases hprep : prep Sandbox.publicWorld rmdirObject.dir rmdirReq populatedServer with ⟨x, s1⟩
  rcases hrun : nfsproc3Rmdir Sandbox.publicWorld rmdirObject rmdirReq populatedServer with ⟨y, s'⟩
  rw [← populatedServer, hprep] at hpath he
  rw [hrun] at hres hgone
  dsimp only at hpath he hres hgone
  subst hpath hres
  have hnames : Names Sandbox.publicWorld rmdirObject rmdirReq populatedServer
      (lit "/z/home/public/d") :=
    ⟨lit "/e", s1, lit "/e/d", hprep, rmdirObject_name.1, by rw [he, rmdirObject_name.2]⟩
  have hpop : Populated (Sandbox.publicWorld.store populatedServer.rods) (lit "/z/home/public/d") :=
    ⟨by decide, lit "/z/home/public/d/f", by decide, by decide⟩
  have hsome := h _ hnames hpop res s' hrun _ (.inl rfl) (by rw [hpop.1]; rfl)
  rw [hgone] at hsome
  cases hsome

/-! ## A collection that iRODS refuses to remove -/

/-- An iRODS server on which nobody may remove the collections of `kept`. -/
def keptCall (kept : List CStr) : RodsCall → Sandbox.Grid → RodsReply × Sandbox.Grid
  | .rcRmColl comm name r f, g =>
    if name ∈ kept then ({ status := -818000 }, g)
    else Sandbox.rodsCall (.rcRmColl comm name r f) g
  | c, g => Sandbox.rodsCall c g

/-- The daemon's world with such a server. -/
def keptWorld (kept : List CStr) : World Sandbox.Kernel Sandbox.Grid :=
  { Sandbox.publicWorld with
    rods := keptCall kept
    rods_store := fun c g hc => by
      cases c
      case rcRmColl => cases hc
      all_goals exact Sandbox.publicWorld.rods_store _ g hc }

theorem keptWorld_rmColl (kept : List CStr) : RmColl (keptWorld kept) where
  removes comm c r hok := by
    change 0 ≤ (keptCall kept (.rcRmColl comm c true true) r).1.status at hok
    change ∀ q, Under c q →
      (keptWorld kept).store (keptCall kept (.rcRmColl comm c true true) r).2 q = none
    simp only [keptCall] at hok ⊢
    split at hok
    · cases hok
    · rw [if_neg ‹_›]
      exact publicWorld_rmColl.removes comm c r hok
  refuses comm c r hneg := by
    change (keptCall kept (.rcRmColl comm c true true) r).1.status < 0 at hneg
    change (keptWorld kept).store (keptCall kept (.rcRmColl comm c true true) r).2 = _
    simp only [keptCall] at hneg ⊢
    split at hneg
    · rw [if_pos ‹_›]
    · rw [if_neg ‹_›]
      exact publicWorld_rmColl.refuses comm c r hneg

/-- The one collection that the request names is populated, and it is kept, since iRODS refuses
the removal. -/
theorem rmdir_keeps_refused :
    Names (keptWorld [lit "/z/home/public/d"]) rmdirObject rmdirReq populatedServer
        (lit "/z/home/public/d") ∧
      Populated ((keptWorld [lit "/z/home/public/d"]).store populatedServer.rods)
        (lit "/z/home/public/d") ∧
      Keeps (keptWorld [lit "/z/home/public/d"]) rmdirObject rmdirReq populatedServer := by
  rcases hprep : prep (keptWorld [lit "/z/home/public/d"]) rmdirObject.dir rmdirReq
    populatedServer with ⟨x, s1⟩
  have hpath : (prep (keptWorld [lit "/z/home/public/d"]) rmdirObject.dir rmdirReq
      populatedServer).1 = .ok (.ok (lit "/e")) := rfl
  have he : exportPath (prep (keptWorld [lit "/z/home/public/d"]) rmdirObject.dir rmdirReq
      populatedServer).2 = lit "/e" := rfl
  rw [hprep] at hpath he
  dsimp only at hpath he
  subst hpath
  have hname : targetName (keptWorld [lit "/z/home/public/d"]) (lit "/e") rmdirReq.uid
      (realPath (keptWorld [lit "/z/home/public/d"]) (lit "/e") rmdirReq.uid (lit "/e/d")) =
        lit "/z/home/public/d" := by decide
  refine ⟨⟨lit "/e", s1, lit "/e/d", hprep, rmdirObject_name.1, ?_⟩,
    ⟨by decide, lit "/z/home/public/d/f", by decide, by decide⟩,
    (rmdir_keeps_iff (keptWorld_rmColl _) _ _ _).2 fun path s2 obj hp hobj _ _ _ => ?_⟩
  · rw [he, hname]
  · obtain ⟨hpath', rfl⟩ := Prod.mk.inj (hprep.symm.trans hp)
    cases hpath'
    rw [rmdirObject_name.1] at hobj
    cases hobj
    rw [he, hname, Refused]
    decide

end NfsRods
