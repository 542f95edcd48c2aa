import NfsRods.Proof.PlainCache

/-!
# A warm and a cold handle cache

After a restart a handle is resolved by a search, before it by the handle cache. The export that
governs a path is found by comparing strings, so that a client's rights depend on how the path is
written.

* `warm_cold_agree`: after a run of tame requests a handle is resolved to the same path with the
  handle cache as without it, and `PREP` comes to the same verdict.
* `warm_cold_differ`: a name that was looked up in `/` has a second separator, and is not under the
  export that it has without the cache.
-/

namespace NfsRods

open CStr
open Prog (Frame Respects)

section
variable {L R : Type}

/-- The state with nothing in the handle cache. -/
def cold (s : Server L R) : Server L R := { s with fh := {} }

/-- `p` is the only canonical path of the object. -/
structure OnlyPath (w : World L R) (k : L) (dev ino : ULong) (p : CStr) : Prop where
  canonical : Canonical w k p
  names : ∃ st, NameOf w k dev ino p st
  only : ∀ q st, Canonical w k q → NameOf w k dev ino q st → q = p

/-- No path of the object passes a symbolic link. -/
def Unlinked (w : World L R) (k : L) (dev ino : ULong) : Prop :=
  ∀ q st, PlainPath q → NameOf w k dev ino q st → Canonical w k q

end

section
variable {L R : Type} {w : World L R} {s s' : Server L R} {fh : NfsFh3}

/-! ## What does not see the caches -/

theorem sys_respects (c : SysCall) : Respects UpToCaches (sys w c) := by
  rintro s _ ⟨_, _, _, rfl⟩
  unfold sys
  dsimp only
  rcases w.sys c s.kernel with ⟨_ | v, k⟩ <;> exact ⟨rfl, _, _, _, rfl⟩

theorem becomeRoot_respects : Respects UpToCaches (becomeRoot w) :=
  .bind (sys_respects _) fun _ => .bind (sys_respects _) fun _ => .pure _

theorem switchToRoot_respects : Respects UpToCaches (switchToRoot w) := by
  refine .get (fun s s' h => ?_) fun s => .ite becomeRoot_respects (.pure _)
  obtain ⟨_, _, _, rfl⟩ := h
  rfl

theorem switchGroups_respects : Respects UpToCaches (switchGroups w) := by
  refine .bind (.modify ?_) fun _ => .get (fun s s' h => ?_) fun s => sys_respects _
  · rintro s _ ⟨_, _, _, rfl⟩
    exact ⟨_, _, _, rfl⟩
  · obtain ⟨_, _, _, rfl⟩ := h
    rfl

theorem switchUser_respects (rq : SvcReq) : Respects UpToCaches (switchUser w rq) := by
  refine .get (fun s s' h => ?_) fun s => .ite (.pure _) (.ite (.modify ?_) ?_)
  · obtain ⟨_, _, _, rfl⟩ := h
    rfl
  · rintro s _ ⟨_, _, _, rfl⟩
    exact ⟨_, _, _, rfl⟩
  · refine .bind becomeRoot_respects fun _ => .bind (sys_respects _) fun _ => ?_
    refine .bind switchGroups_respects fun _ => .bind (sys_respects _) fun _ => ?_
    exact .ite (.stop _) (.pure _)

/-- `PREP` sees of the caches no more than the path that the handle is resolved to. -/
theorem prep_caches (rq : SvcReq) (h : UpToCaches s s')
    (hd : (fhDecomp w fh (switchToRoot w s').2).1 = (fhDecomp w fh (switchToRoot w s).2).1) :
    (prep w fh rq s').1 = (prep w fh rq s).1 ∧
      UpToCaches (prep w fh rq s).2 (prep w fh rq s').2 := by
  obtain ⟨t, ht, _⟩ := switchToRoot_ends (w := w) s
  obtain ⟨t', ht', _⟩ := switchToRoot_ends (w := w) s'
  have hroot := (switchToRoot_respects (w := w) s s' h).2
  rw [ht, ht'] at hd hroot
  obtain ⟨p, u, hu⟩ := fhDecomp_returns (w := w) fh t
  obtain ⟨p', u', hu'⟩ := fhDecomp_returns (w := w) fh t'
  rw [hu, hu'] at hd
  obtain rfl : p' = p := Except.ok.inj hd
  have hcaches : UpToCaches u u' :=
    trans_of UpToCaches (symm_of UpToCaches ((fhDecomp_caches fh).ok hu))
      (trans_of UpToCaches hroot ((fhDecomp_caches fh).ok hu'))
  rw [prep, Prog.bind_ok ht, Prog.bind_ok ht', Prog.bind_ok hu, Prog.bind_ok hu']
  refine Respects.bind (fun v v' hv => ?_) (fun k => ?_) u u' hcaches
  · obtain ⟨_, _, _, rfl⟩ := hv
    exact ⟨rfl, _, _, _, rfl⟩
  · cases p' with
    | none => exact .pure _
    | some path =>
      refine .ite (.pure _) (.ite (.pure _) ?_)
      exact .bind (switchUser_respects rq) fun _ => .pure _

/-! ## One path -/

theorem not_hit_empty (hs : s.fh = {}) (hobj : fhValid fh.obj = true) (p : CStr) :
    ¬ Hit w s fh.obj p := by
  rintro ⟨i, _, hi, _⟩
  rw [hs] at hi
  have hkey := List.find?_some hi
  rw [Bool.and_eq_true, beq_iff_eq, beq_iff_eq] at hkey
  have hzero : fh.obj.dev = 0 ∧ fh.obj.ino = 0 := ⟨hkey.1.symm, hkey.2.symm⟩
  simp [fhValid, hzero.1, hzero.2] at hobj

/-- With plain paths in it, the cache has what the search finds. -/
theorem fhDecomp_empty {p q : CStr} {st : Stat} (hw : Posix w) (hs : UpToCaches s s')
    (hempty : s'.fh = {})
    (hc : PlainCache s.fh)
    (hobj : fhValid fh.obj = true) (hclear : Clear w s.kernel fh.obj)
    (hone : OnlyPath w s.kernel fh.obj.dev fh.obj.ino p)
    (hlink : Unlinked w s.kernel fh.obj.dev fh.obj.ino)
    (hfound : uncached w s.kernel fh.obj = some q)
    (hq : NameOf w s.kernel fh.obj.dev fh.obj.ino q st) :
    (fhDecomp w fh s').1 = (fhDecomp w fh s).1 := by
  obtain ⟨hk, hl⟩ : s'.kernel = s.kernel ∧ s'.exportList = s.exportList := by
    obtain ⟨_, _, _, rfl⟩ := hs
    exact ⟨rfl, rfl⟩
  by_cases hv : nfhValid fh = true
  · by_cases hroot : ExportRoot s fh
    · exact hroot.decomp hv hl
    · have hroot' : ¬ ExportRoot s' fh := by rwa [ExportRoot, hl]
      rw [fhDecomp_hard hv hroot, fhDecomp_hard hv hroot']
      obtain rfl : q = p := hone.only q st (hclear.canonical hw hfound) hq
      have hcold : (fhDecompHard w fh.obj s').1 = .ok (some q) := by
        rcases fhCacheLookup_cases w s' fh.obj with ⟨c, hc, _⟩ | ⟨_, hres⟩
        · exact absurd hc (not_hit_empty hempty hobj c)
        · rw [(fhDecompHard_miss (Prod.ext hres rfl)).1, hk, hfound]
      rw [hcold]
      rcases fhCacheLookup_cases w s fh.obj with ⟨c, hhit, _⟩ | ⟨_, hres⟩
      · rw [(fhDecompHard_hit hhit).1]
        obtain ⟨i, st', hi, rfl, hst'⟩ := hhit
        have hplain : PlainPath (s.fh.entry i).path := by
          refine hc.of_index ?_ hi
          simpa [fhValid, or_iff_not_imp_left] using hobj
        rw [hone.only _ st' (hlink _ st' hplain hst') hst']
      · rw [(fhDecompHard_miss (Prod.ext hres rfl)).1, hfound]
  · rw [fhDecomp, if_pos (by simpa using hv)]
    rfl

/-- **A warm and a cold handle cache agree** after a run in which nothing is looked up or created in
the root directory, and every handle that is resolved is `Clear`: for an object with a single
canonical path, to which no symbolic link leads, `fh_decomp` returns the same path with the cache of
the run as with an empty one, and `PREP` comes to the same verdict under the same export options. -/
theorem warm_cold_agree (w : World L R) (hw : Posix w) (hpub : w.conf.privateColl = false)
    (log : List (Visit L R)) (s : Server L R) (hrun : TameRuns w log s) (fh : NfsFh3) (rq : SvcReq)
    (hobj : fhValid fh.obj = true) (p q : CStr) (st : Stat)
    (hone : OnlyPath w (arrive w rq s).kernel fh.obj.dev fh.obj.ino p)
    (hfound : uncached w (arrive w rq s).kernel fh.obj = some q)
    (hq : NameOf w (arrive w rq s).kernel fh.obj.dev fh.obj.ino q st)
    (hclear : Clear w (arrive w rq s).kernel fh.obj)
    (hlink : Unlinked w (arrive w rq s).kernel fh.obj.dev fh.obj.ino) :
    (fhDecomp w fh (arrive w rq (cold s))).1 = (fhDecomp w fh (arrive w rq s)).1 ∧
      (prep w fh rq (enter rq (cold s))).1 = (prep w fh rq (enter rq s)).1 ∧
      (prep w fh rq (enter rq (cold s))).2.exports = (prep w fh rq (enter rq s)).2.exports := by
  obtain ⟨_, hc⟩ := hrun.plain hw hpub
  have hwarm : PlainCache (arrive w rq s).fh :=
    (switchToRoot_frame (w := w) (r := Plainly) (E := fun _ => True) (fun _ _ => trivial)
      (enter rq s)).2 hc
  have hcaches : UpToCaches (enter rq s) (enter rq (cold s)) := ⟨_, _, _, rfl⟩
  have hempty : (arrive w rq (cold s)).fh = {} := by
    obtain ⟨t, ht, hk⟩ := switchToRoot_ends (w := w) (enter rq (cold s))
    rw [arrive, ht, hk]
    rfl
  have hd : (fhDecomp w fh (arrive w rq (cold s))).1 = (fhDecomp w fh (arrive w rq s)).1 :=
    fhDecomp_empty hw (switchToRoot_respects _ _ hcaches).2 hempty hwarm hobj hclear hone hlink
      hfound hq
  obtain ⟨hres, _, _, _, hcache⟩ := prep_caches rq hcaches hd
  refine ⟨hd, hres, ?_⟩
  rw [hcache]

end

/-! ## In the small tree -/

/-- The small tree, in which `realpath` knows what is there by its plain path. -/
def plainWorld : World Sandbox.Kernel Sandbox.Grid :=
  { Sandbox.treeWorld false with
    realpath := fun k p =>
      if Plain (Sandbox.Plot.parts p) ∧ p = dirPath (Sandbox.Plot.parts p) ∧
        (k.files.lookup p).isSome then some p
      else none }

theorem plainWorld_posix : Posix plainWorld where
  names _ q := treeWorld_listing (b := false) q
  mounts _ _ h := nomatch h
  realpath k p q h := by
    dsimp only [plainWorld] at h
    split at h
    · rename_i hp
      cases h
      exact ⟨_, hp.1, hp.2.1⟩
    · cases h

/-- An export of a directory to everyone. -/
def openItem (path : CStr) (rw : Bool) : EItem :=
    { path, orig := path, hosts := [{ options := { rw } }] }

/-- The daemon exports `/e`. -/
def warmServer : Server Sandbox.Kernel Sandbox.Grid :=
  Sandbox.server [openItem (lit "/e") true] { files := dottedFiles } {}

/-- The handle of an object of the small tree. -/
def treeFh (ino : ULong) (inos : List UInt8) : NfsFh3 :=
  let obj : Unfs3Fh := { dev := 1, ino, gen := ino, len := inos.length, inos }
  ⟨fhLength obj, obj⟩

/-- LOOKUP of `n` in `/e`. -/
def warmVisit : Visit Sandbox.Kernel Sandbox.Grid :=
  { rq := treeReq, call := .lookup { dir := treeFh 3 [3], name := lit "n" }, state := warmServer }

theorem dotted_clear {fh : Unfs3Fh} (hobj : ¬ (fh.dev = 0 ∧ fh.ino = 0)) (hroot : fh.ino ≠ 2) :
    Clear plainWorld { files := dottedFiles } fh := by
  have ht := treeWorld_tidy (b := false) (k := { files := dottedFiles }) (by decide +kernel)
  have hd := dotted_dots
  refine .of_linkless ⟨ht.slashes, ht.names, ht.lists, ht.above⟩
    ⟨hd.numbered, hd.top, hd.self, hd.parent⟩ dotted_linkless rfl hobj fun b hb => ?_
  have hst : Sandbox.find { files := dottedFiles } (Sandbox.squeeze root) =
    .ok { dev := 1, ino := 2, mode := 0o040755 } := by decide +kernel
  cases hst.symm.trans hb
  exact fun h => hroot h.2.symm

theorem warmVisit_tame : Tame plainWorld warmVisit where
  clear fh hfh := by
    cases hfh
    exact dotted_clear (by decide) (by decide)
  target _ _ _ _ h := nomatch h
  name what hw := by
    cases hw
    refine ⟨by decide, fun _ hroot => ?_⟩
    have hex : ¬ ExportRoot (arrive plainWorld treeReq warmServer) (treeFh 3 [3]) := by
      decide +kernel
    change OfRoot plainWorld (arrive plainWorld treeReq warmServer) (treeFh 3 [3]) at hroot
    rw [OfRoot, if_neg hex] at hroot
    rcases hroot with h | ⟨st, hst, _, hino⟩
    · cases h
    · have hb : Sandbox.find { files := dottedFiles } (Sandbox.squeeze root) =
        .ok { dev := 1, ino := 2, mode := 0o040755 } := by decide +kernel
      cases hb.symm.trans hst
      cases hino

theorem warmVisit_replied : ∃ r, (warmVisit.serve plainWorld).1 = .ok r := by
  have h : ((warmVisit.serve plainWorld).1.toOption.map fun _ => ()) = some () := by decide +kernel
  obtain ⟨r, hr, _⟩ := Sandbox.replied h
  exact ⟨r, hr⟩

theorem dotted_canonical : Canonical plainWorld { files := dottedFiles } (lit "/e/n") := by
  refine ⟨[lit "e", lit "n"], rfl, by decide, fun ds hds hne hproper => ?_⟩
  obtain rfl : ds = [lit "e"] := by
    rcases (List.mem_inits ds _).2 hds with _ | ⟨_, _ | ⟨_, _ | ⟨_, ⟨⟩⟩⟩⟩
    · exact absurd rfl hne
    · rfl
    · exact absurd rfl hproper
  rintro ⟨st, hst, hlnk⟩
  have hb : Sandbox.find { files := dottedFiles } (Sandbox.squeeze (lit "/e")) =
    .ok { dev := 1, ino := 3, mode := 0o040755 } := by decide +kernel
  cases hb.symm.trans hst
  cases hlnk

/-- The file `/e/n` has no other path. -/
theorem dotted_only {q : CStr} {st : Stat} (hq : PlainPath q)
    (hst : NameOf plainWorld { files := dottedFiles } 1 4 q st) : q = lit "/e/n" := by
  have hb : Sandbox.find { files := dottedFiles } (Sandbox.squeeze (pathOf [lit "e", lit "n"])) =
    .ok { dev := 1, ino := 4, mode := 0o100644 } := by decide +kernel
  obtain ⟨cs, hcs, rfl⟩ := hq
  exact treeWorld_onlyName (b := false) hb (by decide)
    (by decide +kernel) _ hb cs st hcs hst.1 hst.2

/-- After a LOOKUP of `n` in `/e`, the handle of `/e/n` is resolved as without the cache. -/
theorem warm_cold_lookup : ∃ r, (warmVisit.serve plainWorld).1 = .ok r ∧
    (fhDecomp plainWorld (treeFh 4 [3, 4])
      (arrive plainWorld treeReq (warmVisit.serve plainWorld).2)).1.toOption =
      some (some (lit "/e/n")) ∧
    (fhDecomp plainWorld (treeFh 4 [3, 4])
      (arrive plainWorld treeReq (cold (warmVisit.serve plainWorld).2))).1 =
      (fhDecomp plainWorld (treeFh 4 [3, 4])
        (arrive plainWorld treeReq (warmVisit.serve plainWorld).2)).1 ∧
    (prep plainWorld (treeFh 4 [3, 4]) treeReq
      (enter treeReq (cold (warmVisit.serve plainWorld).2))).1 =
      (prep plainWorld (treeFh 4 [3, 4]) treeReq (enter treeReq (warmVisit.serve plainWorld).2)).1 ∧
    (prep plainWorld (treeFh 4 [3, 4]) treeReq
      (enter treeReq (cold (warmVisit.serve plainWorld).2))).2.exports =
      (prep plainWorld (treeFh 4 [3, 4]) treeReq
        (enter treeReq (warmVisit.serve plainWorld).2)).2.exports := by
  obtain ⟨r, hr⟩ := warmVisit_replied
  have hrun : TameRuns plainWorld [warmVisit] (warmVisit.serve plainWorld).2 := by
    have hstart : TameRuns plainWorld [] warmServer := by
      refine .start ⟨_, _, _, _, _, _, rfl⟩ fun i hi => ?_
      rw [List.mem_singleton.1 hi]
      exact ⟨[lit "e"], by decide, rfl⟩
    exact .replied hstart warmVisit_tame hr
  have hk : (arrive plainWorld treeReq (warmVisit.serve plainWorld).2).kernel =
    { files := dottedFiles } := by
    decide +kernel
  refine ⟨r, hr, by decide +kernel, ?_⟩
  refine warm_cold_agree plainWorld plainWorld_posix rfl [warmVisit] _ hrun
    (treeFh 4 [3, 4]) treeReq
    (by decide) (lit "/e/n") (lit "/e/n") { dev := 1, ino := 4, mode := 0o100644 } ?_ ?_ ?_ ?_
      ?_ <;> rw [hk]
  · refine ⟨dotted_canonical,
      ⟨{ dev := 1, ino := 4, mode := 0o100644 }, by decide +kernel, rfl, rfl⟩, ?_⟩
    exact fun q st hq hst => dotted_only hq.plainPath hst
  · decide +kernel
  · exact ⟨by decide +kernel, rfl, rfl⟩
  · exact dotted_clear (by decide) (by decide)
  · intro q st hq hst
    rw [dotted_only hq hst]
    exact dotted_canonical

/-- The daemon exports `/` read-only and `/x` for writing. -/
def rootServer : Server Sandbox.Kernel Sandbox.Grid :=
  Sandbox.server [openItem root false, openItem (lit "/x") true]
    { files := [(lit "/", { dev := 1, ino := 2, mode := 0o040755 }),
        (lit "/x", { dev := 1, ino := 3, mode := 0o040755 })] } {}

/-- LOOKUP of `x` in `/`. -/
def rootVisit : Visit Sandbox.Kernel Sandbox.Grid :=
  { rq := treeReq, call := .lookup { dir := treeFh 2 [], name := lit "x" }, state := rootServer }

theorem rootVisit_onlyPath : OnlyPath plainWorld rootServer.kernel 1 3 (lit "/x") := by
  have hb : Sandbox.find rootServer.kernel (Sandbox.squeeze (pathOf [lit "x"])) =
    .ok { dev := 1, ino := 3, mode := 0o040755 } := by decide +kernel
  refine ⟨⟨[lit "x"], rfl, by decide, fun ds hds hne hproper => ?_⟩, ⟨_, hb, rfl, rfl⟩,
    fun q st hq hst => ?_⟩
  · rcases List.prefix_concat_iff.1 (show ds <+: [] ++ [lit "x"] from hds) with h | h
    · exact absurd h hproper
    · exact absurd (List.prefix_nil.1 h) hne
  · obtain ⟨cs, hcs, rfl⟩ := hq.plainPath
    exact treeWorld_onlyName (b := false) hb (by decide)
      (by decide +kernel) _ hb cs st hcs hst.1 hst.2

/-- After a LOOKUP of `x` in `/` the handle of `/x` is resolved to `//x`, and a client that may
write to `/x` may only read it. -/
theorem warm_cold_differ : ∃ r, (rootVisit.serve plainWorld).1 = .ok r ∧
    Runs plainWorld [rootVisit] (some (rootVisit.serve plainWorld).2) ∧
    OnlyPath plainWorld (arrive plainWorld treeReq (rootVisit.serve plainWorld).2).kernel 1 3
      (lit "/x") ∧
    uncached plainWorld (arrive plainWorld treeReq (rootVisit.serve plainWorld).2).kernel
      (treeFh 3 [3]).obj =
      some (lit "/x") ∧
    (fhDecomp plainWorld (treeFh 3 [3])
      (arrive plainWorld treeReq (rootVisit.serve plainWorld).2)).1.toOption =
      some (some (lit "//x")) ∧
    (fhDecomp plainWorld (treeFh 3 [3])
      (arrive plainWorld treeReq (cold (rootVisit.serve plainWorld).2))).1.toOption =
        some (some (lit "/x")) ∧
    (prep plainWorld (treeFh 3 [3]) treeReq
      (enter treeReq (rootVisit.serve plainWorld).2)).2.exports.opts =
      some { rw := false } ∧
    (prep plainWorld (treeFh 3 [3]) treeReq
      (enter treeReq (cold (rootVisit.serve plainWorld).2))).2.exports.opts =
      some { rw := true } := by
  have h : ((rootVisit.serve plainWorld).1.toOption.map fun _ => ()) = some () := by decide +kernel
  obtain ⟨r, hr, _⟩ := Sandbox.replied h
  have hk : (arrive plainWorld treeReq (rootVisit.serve plainWorld).2).kernel =
    rootServer.kernel := by
    decide +kernel
  have hstart : Runs plainWorld [] (some rootServer) := .start ⟨_, _, _, _, _, _, rfl⟩
  refine ⟨r, hr, .replied hstart hr, by rw [hk]; exact rootVisit_onlyPath, ?_⟩
  exact ⟨by rw [hk]; decide +kernel, by decide +kernel, by decide +kernel, by decide +kernel,
    by decide +kernel⟩

end NfsRods
