import NfsRods.Proof.DirectChild
import NfsRods.Proof.Squash

/-!
# RENAME's two directories

RENAME is the procedure with two handles. `PREP` resolves and checks the first. The second is
resolved by `fh_decomp` alone and goes through `exports_compat`, which compares options and
anonymous ids, leaves the handle's password hash unread, and sets `export_path` to the export of the
target before either path is translated.

* `rename_translates_iff`: when the objects that are renamed are the translations of the two names,
  each under the export of its own directory.
* `handles_checked_iff`: over all procedures, when every handle of a request that is used belongs to
  an export of the client and has its password hash.
-/

namespace NfsRods

open CStr
open Prog (Ends Frame)

/-! ## Translation under two exports -/

/-- The event renames nothing but `a`, and to `b`. -/
def Renames (a b : Place) : Event → Prop
  | .sys (.rename src dst) => src = a.loc ∧ dst = b.loc
  | .rods (.rcDataObjRename _ src dest) => src = a.name ∧ dest = b.name
  | _ => True

theorem renames_calm {a b : Place} (ev : Event) (h : ev.calm = true) : Renames a b ev := by
  cases ev with
  | sys c => cases c <;> trivial
  | rods c => cases c <;> trivial
  | _ => trivial

section
variable {L R : Type} (w : World L R)

/-- The path of an object in the mirror and its name in iRODS, under the export `e`. -/
def placeOf (e : CStr) (uid : UInt32) (p : CStr) : Place :=
  { loc := realPath w e uid p, name := targetName w e uid (realPath w e uid p) }

/-- The collection below `/home` that an export stands for. -/
def homeOf (e : CStr) (uid : UInt32) : CStr :=
  if publicPath w e then lit "public" else (w.getpwuid uid).getD []

/-- The path `p` has one translation under the public export `e` and the private export `f`: it is
already below the caller's directory, and what is cut off and put before it comes to the same. -/
def AlikeMixed (e f : CStr) (uid : UInt32) (p : CStr) : Prop :=
  strstr p (userDir f uid) = true ∧
    homeOf w e uid ++ cut w p e.length = homeOf w f uid ++ p.drop (userDir f uid).length

/-- The path `p` has one translation under the exports `e` and `f`. Where an export's path is longer
than `p`, this is left to the bytes behind the end of `p`. -/
def Alike (e f : CStr) (uid : UInt32) (p : CStr) : Prop :=
  match publicPath w e, publicPath w f with
  | true, true => e.length = f.length ∨
      (p.length < e.length ∨ p.length < f.length) ∧ cut w p e.length = cut w p f.length
  | false, false => e = f ∨ e.length = f.length ∧ strstr p (userDir e uid) = true ∧
      strstr p (userDir f uid) = true
  | true, false => AlikeMixed w e f uid p
  | false, true => AlikeMixed w f e uid p

end

section
variable {L R : Type} {w : World L R} {e f p : CStr} {uid : UInt32}

/-- What is translated under a private export is left alone exactly when the caller's directory is
in it already. -/
theorem realPath_eq_self_iff (h : publicPath w e = false) :
    realPath w e uid p = p ↔ strstr p (userDir e uid) = true := by
  refine ⟨fun hp => ?_, fun hs => realPath_self (.inr hs)⟩
  by_contra hs
  rw [realPath, h, if_neg Bool.false_ne_true, if_neg hs] at hp
  exact hs (strstr_iff.2 (hp ▸ (List.prefix_append _ _).isInfix))

theorem cut_of_strstr (h : strstr p (userDir e uid) = true) :
    cut w p (userDir e uid).length = p.drop (userDir e uid).length := by
  rw [cut, if_pos (strstr_iff.1 h).length_le]

theorem userDir_injective (h : userDir e uid = userDir f uid) : e = f := by
  simpa [userDir] using h

/-- The iRODS name of an object of a caller who is known. -/
theorem targetName_eq {rq : SvcReq} (hc : Connects w rq) (e p : CStr) : targetName w e rq.uid p =
    root ++ w.conf.zone.getD [] ++ lit "/home/" ++
      (homeOf w e rq.uid ++ irodsPath w e rq.uid p) := by
  obtain ⟨z, hz⟩ := Option.isSome_iff_exists.1 hc.2
  obtain ⟨home, hh⟩ := rodsHome_ok hc.1 hc.2 e
  have hhome : home = root ++ z ++ lit "/home/" ++ homeOf w e rq.uid := by
    simp only [rodsHome, hz] at hh
    unfold homeOf
    split at hh
    · rename_i hp
      rw [if_pos hp]
      exact (Except.ok.inj hh).symm
    · rename_i hp
      rw [if_neg hp]
      cases hn : w.getpwuid rq.uid with
      | none =>
        rw [hn] at hh
        cases hh
      | some n =>
        rw [hn] at hh
        exact (Except.ok.inj hh).symm
  rw [targetName, hh, hz]
  simp only [hhome, Option.getD_some, List.append_assoc]

/-- A public export and a private one. -/
theorem alikeMixed_iff (he : publicPath w e = true) (hf : publicPath w f = false) :
    (realPath w e uid p = realPath w f uid p ∧
      homeOf w e uid ++ irodsPath w e uid (realPath w e uid p) =
        homeOf w f uid ++ irodsPath w f uid (realPath w f uid p)) ↔ AlikeMixed w e f uid p := by
  rw [realPath_self (.inl he), eq_comm (a := p), realPath_eq_self_iff hf]
  refine and_congr_right fun hs => ?_
  rw [realPath_self (.inr hs), irodsPath, irodsPath, he, hf, if_pos rfl, if_neg Bool.false_ne_true,
    cut_of_strstr hs]

/-- Two public exports. -/
theorem cut_eq_iff (w : World L R) (p : CStr) (m n : Nat) : cut w p m = cut w p n ↔
    m = n ∨ (p.length < m ∨ p.length < n) ∧ cut w p m = cut w p n := by
  constructor
  · intro h
    by_cases hlen : m ≤ p.length ∧ n ≤ p.length
    · have hl := congrArg List.length h
      rw [cut, cut, if_pos hlen.1, if_pos hlen.2, List.length_drop, List.length_drop] at hl
      exact .inl (by omega)
    · exact .inr ⟨by omega, h⟩
  · rintro (rfl | ⟨_, h⟩)
    · rfl
    · exact h

/-- Two private exports. -/
theorem alike_private_iff (he : publicPath w e = false) (hf : publicPath w f = false) :
    (realPath w e uid p = realPath w f uid p ∧
      irodsPath w e uid (realPath w e uid p) = irodsPath w f uid (realPath w f uid p)) ↔
      e = f ∨ e.length = f.length ∧ strstr p (userDir e uid) = true ∧
        strstr p (userDir f uid) = true := by
  have hlen : ∀ g : CStr, (userDir g uid).length = g.length + 1 +
    (decimalInt (toCInt uid)).length :=
    fun g => by
      simp [userDir, root]
      omega
  constructor
  · rintro ⟨hloc, hname⟩
    by_cases hs : strstr p (userDir e uid) = true
    · rw [realPath_self (.inr hs), eq_comm, realPath_eq_self_iff hf] at hloc
      refine .inr ⟨?_, hs, hloc⟩
      rw [realPath_self (.inr hs), realPath_self (.inr hloc), irodsPath, irodsPath, he, hf,
        if_neg Bool.false_ne_true, if_neg Bool.false_ne_true, cut_of_strstr hs,
          cut_of_strstr hloc] at hname
      have hl := congrArg List.length hname
      have h1 := (strstr_iff.1 hs).length_le
      have h2 := (strstr_iff.1 hloc).length_le
      simp only [List.length_drop, hlen] at hl h1 h2
      omega
    · by_cases hs' : strstr p (userDir f uid) = true
      · rw [realPath_self (.inr hs'), realPath_eq_self_iff he] at hloc
        exact absurd hloc hs
      · -- the two names are what follows the caller's directory in the two paths
        have hins : ∀ g : CStr, publicPath w g = false → ¬ strstr p (userDir g uid) = true →
            realPath w g uid p = userDir g uid ++ cut w p g.length := fun g hg hn => by
          rw [realPath, hg, if_neg Bool.false_ne_true, if_neg hn]
        rw [hins e he hs, hins f hf hs', irodsPath, irodsPath, he, hf, if_neg Bool.false_ne_true,
          if_neg Bool.false_ne_true, cut_append, cut_append] at hname
        rw [hins e he hs, hins f hf hs', hname] at hloc
        exact .inl (userDir_injective (List.append_cancel_right hloc))
  · rintro (rfl | ⟨hl, hs, hs'⟩)
    · exact ⟨rfl, rfl⟩
    · rw [realPath_self (.inr hs), realPath_self (.inr hs'), irodsPath, irodsPath, he, hf,
        if_neg Bool.false_ne_true, if_neg Bool.false_ne_true, hlen, hlen, hl]
      exact ⟨rfl, rfl⟩

/-- When an object has the same path and the same name under two exports. -/
theorem placeOf_eq_iff {rq : SvcReq} (hc : Connects w rq) :
    placeOf w e rq.uid p = placeOf w f rq.uid p ↔ Alike w e f rq.uid p := by
  have hsplit : placeOf w e rq.uid p = placeOf w f rq.uid p ↔
      realPath w e rq.uid p = realPath w f rq.uid p ∧
      homeOf w e rq.uid ++ irodsPath w e rq.uid (realPath w e rq.uid p) =
        homeOf w f rq.uid ++ irodsPath w f rq.uid (realPath w f rq.uid p) := by
    simp only [placeOf, Place.mk.injEq, targetName_eq hc, List.append_cancel_left_eq]
  rw [hsplit]
  unfold Alike
  cases he : publicPath w e with
  | true =>
    cases hf : publicPath w f with
    | true =>
      dsimp only
      rw [← cut_eq_iff, realPath_self (.inl he), realPath_self (.inl hf)]
      simp only [homeOf, he, hf, ↓reduceIte, irodsPath, List.append_cancel_left_eq, true_and]
    | false => exact alikeMixed_iff he hf
  | false =>
    cases hf : publicPath w f with
    | true =>
      dsimp only
      rw [eq_comm, eq_comm (a := homeOf w e rq.uid ++ _)]
      exact alikeMixed_iff hf he
    | false =>
      dsimp only
      rw [← alike_private_iff he hf]
      simp only [homeOf, he, hf, Bool.false_eq_true, ↓reduceIte, List.append_cancel_left_eq]

/-- What RENAME issues once `PREP` has let it in is what its body issues. -/
theorem rename_only {P : Event → Prop} {rq : SvcReq} {argsFrom argsTo : Diropargs3}
    {s s1 : Server L R}
    (hp : prep w argsFrom.dir rq s = (.ok (.ok p), s1)) (hP : ∀ ev, ev.calm = true → P ev) :
    Only P (nfsProgram w rq (.rename argsFrom argsTo)) s ↔
      Only P (renameBody w p argsFrom argsTo rq (w.junk s.tick)) s1 := by
  refine ((PathOp.rename argsFrom argsTo).only_iff (calm_sys hP) rq s).trans ?_
  simp only [PathOp.body, Only, replyWith_snd]
  refine ⟨fun hall => hall p s1 hp, fun ho p' s1' hp' => ?_⟩
  rw [show (PathOp.rename argsFrom argsTo).args.dir = argsFrom.dir from rfl, hp] at hp'
  obtain ⟨⟨⟨⟩⟩, rfl⟩ := Prod.mk.inj hp'
  exact ho

/-- **RENAME acts on the translations of its two names**, each under the export of its own
directory, exactly when a rename that is reached is of an object with one translation under the two
exports. -/
theorem rename_translates_iff (w : World L R) (rq : SvcReq) (argsFrom argsTo : Diropargs3)
    (s s1 : Server L R) (p₁ p₂ : CStr) (hp : prep w argsFrom.dir rq s = (.ok (.ok p₁), s1))
    (ht : renameTarget w argsTo s1 = some p₂)
    (hv : (exportsCompat s1.exportList rq.remote (some p₂) s1.exports).1 = .ok) :
    (∀ ev ∈ since s (nfsProgram w rq (.rename argsFrom argsTo) s).2,
      Renames (placeOf w (exportPath s1) rq.uid (childPath p₁ argsFrom.name))
        (placeOf w (targetExport w argsTo rq s1) rq.uid (childPath p₂ argsTo.name)) ev) ↔
    (Accepted p₁ argsFrom.name → exportsRw s1.exports = .ok → Accepted p₂ argsTo.name →
      Connects w rq → Alike w (exportPath s1) (targetExport w argsTo rq s1) rq.uid
        (childPath p₁ argsFrom.name)) := by
  have hst : targetStatus w argsTo rq s1 = .ok ↔ Accepted p₂ argsTo.name := by
    rw [targetStatus, ht, hv, join_eq_ok, ← catName_isSome]
    constructor
    · rintro ⟨hs, _⟩
      by_contra hn
      rw [catName_rejected hn] at hs
      cases hs
    · intro ha
      rw [catName_accepted ha]
      exact ⟨rfl, rfl⟩
  obtain ⟨comm, hmoves⟩ := renameBody_moves (w := w) (s := s1)
    (P := Renames (placeOf w (exportPath s1) rq.uid (childPath p₁ argsFrom.name))
      (placeOf w (targetExport w argsTo rq s1) rq.uid (childPath p₂ argsTo.name)))
    renames_calm (fun _ _ => trivial) rq p₁ (prep_ok hp).2.1 argsFrom argsTo (w.junk s.tick)
  refine (rename_only hp renames_calm).trans (hmoves.trans ?_)
  rw [hst]
  refine forall₄_congr fun ha _ ha' hc => ?_
  rw [ht, bufPath_accepted ha', ← placeOf_eq_iff hc]
  simp only [Renames, renameFile, placeOf, Place.mk.injEq, and_true]
  exact ⟨fun h => ⟨h.2.symm, h.1.symm⟩, fun h => ⟨h.2.symm, h.1.symm⟩⟩

end

/-! ### Two exports of a public daemon -/

/-- RENAME of `f` in the directory of one export to `g` in that of another. -/
def renameFrom (i : EItem) : Diropargs3 := { dir := Sandbox.handle i, name := lit "f" }

def renameInto (i : EItem) : Diropargs3 := { dir := Sandbox.handle i, name := lit "g" }

def renameReq : SvcReq := { remote := 1, uid := 7, gid := 7 }

/-- A daemon with the exports `/abc` and `/d`. -/
def twoExports : Server Sandbox.Kernel Sandbox.Grid :=
  Sandbox.server [Sandbox.item (lit "/abc") true, Sandbox.item (lit "/d") true] {} {}

/-- The state after `PREP` of the source directory. -/
def renameState : Server Sandbox.Kernel Sandbox.Grid :=
  (prep Sandbox.publicWorld (renameFrom (Sandbox.item (lit "/abc") true)).dir renameReq
    twoExports).2

theorem renameState_prep :
    prep Sandbox.publicWorld (renameFrom (Sandbox.item (lit "/abc") true)).dir
    renameReq twoExports = (.ok (.ok (lit "/abc")), renameState) := Prod.ext rfl rfl

theorem renameState_target :
    renameTarget Sandbox.publicWorld (renameInto (Sandbox.item (lit "/d") true))
      renameState = some (lit "/d") ∧
    (exportsCompat renameState.exportList renameReq.remote
      (some (lit "/d")) renameState.exports).1 =
      .ok := by decide +kernel

/-- Within one export both objects are translated under it. -/
theorem rename_within :
    prep Sandbox.publicWorld (renameFrom (Sandbox.item (lit "/abc") true)).dir renameReq
      twoExports =
      (.ok (.ok (lit "/abc")), renameState) ∧
    ∀ ev ∈ since twoExports (nfsProgram Sandbox.publicWorld renameReq
      (.rename (renameFrom (Sandbox.item (lit "/abc") true))
        (renameInto (Sandbox.item (lit "/abc") true)))
      twoExports).2,
      Renames
        (placeOf Sandbox.publicWorld (exportPath renameState) 7 (childPath (lit "/abc") (lit "f")))
        (placeOf Sandbox.publicWorld (targetExport Sandbox.publicWorld
          (renameInto (Sandbox.item (lit "/abc") true)) renameReq renameState) 7
          (childPath (lit "/abc") (lit "g"))) ev := by
  refine ⟨renameState_prep, ?_⟩
  refine (rename_translates_iff Sandbox.publicWorld renameReq
    (renameFrom (Sandbox.item (lit "/abc") true))
    (renameInto (Sandbox.item (lit "/abc") true)) twoExports renameState (lit "/abc") (lit "/abc")
    renameState_prep (by decide +kernel) (by decide +kernel)).2 fun _ _ _ _ => ?_
  exact .inl (by decide +kernel)

/-- RENAME of `/abc/f` to `/d/g` renames `/z/home/publicbc/f` in iRODS. -/
theorem rename_wrong_object :
    prep Sandbox.publicWorld (renameFrom (Sandbox.item (lit "/abc") true)).dir renameReq
      twoExports =
      (.ok (.ok (lit "/abc")), renameState) ∧
    renameTarget Sandbox.publicWorld (renameInto (Sandbox.item (lit "/d") true)) renameState =
      some (lit "/d") ∧
    (exportsCompat renameState.exportList renameReq.remote
      (some (lit "/d")) renameState.exports).1 = .ok ∧
    ¬ ∀ ev ∈ since twoExports (nfsProgram Sandbox.publicWorld renameReq
        (.rename (renameFrom (Sandbox.item (lit "/abc") true))
          (renameInto (Sandbox.item (lit "/d") true)))
        twoExports).2,
      Renames
        (placeOf Sandbox.publicWorld (exportPath renameState) 7 (childPath (lit "/abc") (lit "f")))
        (placeOf Sandbox.publicWorld (targetExport Sandbox.publicWorld
          (renameInto (Sandbox.item (lit "/d") true)) renameReq renameState) 7
          (childPath (lit "/d") (lit "g"))) ev := by
  refine ⟨renameState_prep, renameState_target.1, renameState_target.2, fun h => ?_⟩
  have hev : Event.rods (.rcDataObjRename (some { id := 0 }) (lit "/z/home/publicbc/f")
      (lit "/z/home/public/g")) ∈ since twoExports (nfsProgram Sandbox.publicWorld renameReq
        (.rename (renameFrom (Sandbox.item (lit "/abc") true))
          (renameInto (Sandbox.item (lit "/d") true)))
        twoExports).2 := by decide +kernel
  have hne : lit "/z/home/publicbc/f" ≠ (placeOf Sandbox.publicWorld (exportPath renameState) 7
      (childPath (lit "/abc") (lit "f"))).name := by decide +kernel
  exact hne (h _ hev).1

/-! ## The handles of a request -/

namespace NfsRequest

/-- The reply that has a status and nothing else. -/
def refusal (st : Nfsstat3) : NfsRequest → NfsReply
  | null => .null
  | getattr _ => .getattr { status := st }
  | setattr _ _ => .setattr { status := st }
  | lookup _ => .lookup { status := st }
  | access _ _ => .access { status := st }
  | read _ _ _ => .read { status := st }
  | write _ => .write { status := st }
  | create _ _ => .create { status := st }
  | mkdir _ _ => .mkdir { status := st }
  | remove _ => .remove { status := st }
  | rmdir _ => .rmdir { status := st }
  | rename _ _ => .rename { status := st }
  | readdir _ _ _ => .readdir { status := st }
  | fsstat _ => .fsstat { status := st }
  | fsinfo _ => .fsinfo { status := st }
  | pathconf _ => .pathconf { status := st }
  | unsupported => .unsupported st

end NfsRequest

/-- The event is a rename. -/
def IsRename : Event → Prop
  | .sys (.rename _ _) | .rods (.rcDataObjRename _ _ _) => True
  | _ => False

theorem isRename_loud {ev : Event} (h : ev.calm = true) : ¬ IsRename ev := by
  intro hr
  cases ev with
  | sys c => cases c <;> trivial
  | rods c => cases c <;> trivial
  | _ => cases hr

/-- The event changes the daemon's own identity. -/
def SetsId (ev : Event) : Prop := ∃ c, ev = .sys c ∧ c.setsId = true

section
variable {L R : Type} (w : World L R) (rq : SvcReq) (s : Server L R)

/-- A request makes use of what a handle of it stands for. `PREP`'s handle is used by whatever
follows `PREP`; RENAME's target directory is renamed into, and its attributes are read for the
reply. -/
inductive Uses : NfsRequest → NfsFh3 → CStr → Prop
  | prep {q : NfsRequest} {fh : NfsFh3} {path : CStr} {s1 : Server L R} (hq : q.handle = some fh)
    (hp : prep w fh rq s = (.ok (.ok path), s1)) : Uses q fh path
  | target {argsFrom argsTo : Diropargs3} {path p : CStr} {s1 : Server L R}
    (hp : NfsRods.prep w argsFrom.dir rq s = (.ok (.ok path), s1))
    (ht : renameTarget w argsTo s1 = some p)
    (h : (∃ ev ∈ since s (nfsProgram w rq (.rename argsFrom argsTo) s).2, IsRename ev) ∨
      ∃ reply, (nfsProgram w rq (.rename argsFrom argsTo) s).1 = .ok reply) :
    Uses (.rename argsFrom argsTo) argsTo.dir p

/-- The path lies in an export of the client, and the handle has the password hash of the export
that governs it. -/
structure Entitled (fh : NfsFh3) (path : CStr) : Prop where
  exported : (governing s rq path).opts ≠ none
  password : fh.obj.pwhash = (governing s rq path).passwordHash

/-- A RENAME uses a target directory that its handle does not give a right to: `PREP` lets the
source in, and the source is refused by its name or a read-only export, or the target is in an
export of the client and, if the two exports are compatible, the caller gets a connection. -/
def SkipsTarget (q : NfsRequest) : Prop :=
  ∃ argsFrom argsTo path s1 p, q = .rename argsFrom argsTo ∧
    prep w argsFrom.dir rq s = (.ok (.ok path), s1) ∧ renameTarget w argsTo s1 = some p ∧
    ¬ Entitled rq s argsTo.dir p ∧
    (Accepted path argsFrom.name → exportsRw s1.exports = .ok →
      (governing s rq p).opts ≠ none ∧ (targetStatus w argsTo rq s1 = .ok → Connects w rq))

end

section
variable {L R : Type} {w : World L R} {rq : SvcReq} {s : Server L R}

/-- A request that `PREP` does not let in is answered with a status and nothing else. -/
theorem nfsProgram_refused {q : NfsRequest} {fh : NfsFh3} (hq : q.handle = some fh)
    (hn : ∀ path s1, prep w fh rq s ≠ (.ok (.ok path), s1)) :
    ((∃ st, st ≠ .ok ∧ (nfsProgram w rq q s).1 = .ok (q.refusal st)) ∨
      ∃ stop, (nfsProgram w rq q s).1 = .error stop) ∧
    (nfsProgram w rq q s).2.trace = (prep w fh rq s).2.trace := by
  have plain : ∀ {α : Type} (f : α → NfsReply) (refuse : Nfsstat3 → α) (body : CStr → M L R α),
      nfsProgram w rq q s = replyWith f (withPrep w fh rq (fun st => pure (refuse st)) body) s →
      (∀ st, f (refuse st) = q.refusal st) →
      ((∃ st, st ≠ .ok ∧ (nfsProgram w rq q s).1 = .ok (q.refusal st)) ∨
        ∃ stop, (nfsProgram w rq q s).1 = .error stop) ∧
      (nfsProgram w rq q s).2.trace = (prep w fh rq s).2.trace := by
    intro α f refuse body hrun href
    rcases replyWith_withPrep (w := w) f fh rq refuse body s with
      ⟨path, s1, hp, _⟩ | ⟨st, s1, hp, h⟩ | ⟨st, s1, hp, h⟩
    · exact absurd hp (hn path s1)
    · rw [hrun, h, hp]
      exact ⟨.inl ⟨st, prep_refuses hp, by rw [href]⟩, rfl⟩
    · rw [hrun, h, hp]
      exact ⟨.inr ⟨st, rfl⟩, rfl⟩
  cases q with
  | null | unsupported => cases hq
  | lookup what =>
    cases hq
    rcases withPrep_run (w := w) what.dir rq (fun st => do
        Prog.modify fun s => { s with lookupAttr := {} }
        pure { status := st }) (fun path => lookupBody w what path rq) s with
      ⟨path, s1, hp, _⟩ | ⟨st, s1, hp, h⟩ | ⟨st, s1, hp, h⟩
    · exact absurd hp (hn path s1)
    · have hrun : nfsProgram w rq (.lookup what) s =
          (.ok (.lookup { status := st }), { s1 with lookupAttr := {} }) := by
        rw [nfsProgram, replyWith, nfsproc3Lookup, Prog.bind_ok (by rw [h]; rfl)]
        rfl
      rw [hrun, hp]
      exact ⟨.inl ⟨st, prep_refuses hp, rfl⟩, rfl⟩
    · have hrun : nfsProgram w rq (.lookup what) s = (.error st, s1) := by
        rw [nfsProgram, replyWith, nfsproc3Lookup, Prog.bind_error h]
      rw [hrun, hp]
      exact ⟨.inr ⟨st, rfl⟩, rfl⟩
  | _ =>
    cases hq
    exact plain _ _ _ rfl fun _ => rfl

/-- RENAME replies unless it stops: in a target that is in no export of the client, or in the
connection. -/
theorem renameBody_replies_iff (d : CStr) (argsFrom argsTo : Diropargs3) (unset : Junk) :
    (∃ r s', renameBody w d argsFrom argsTo rq unset s = (.ok r, s')) ↔
      (Accepted d argsFrom.name → exportsRw s.exports = .ok → compatPath w argsTo rq s ≠ none ∧
        (targetStatus w argsTo rq s = .ok → Connects w rq)) := by
  obtain ⟨s1, x1, l1, _, _, hb⟩ := renameBody_run (w := w) rq d argsFrom argsTo unset s
  have hend : ∀ st s2, ∃ r s',
      renameEnd w st (getPreCached s) d (renameTarget w argsTo s) argsFrom rq s2 = (.ok r, s') :=
    fun st s2 => by
    obtain ⟨r, s', h, _⟩ :=
      renameEnd_ends (w := w) st (getPreCached s) d (renameTarget w argsTo s) argsFrom rq s2
    exact ⟨r, s', h⟩
  rw [hb]
  by_cases hsrc : Accepted d argsFrom.name ∧ exportsRw s.exports = .ok
  · obtain ⟨ha, hrw⟩ := hsrc
    rw [if_pos (catName_rw_iff.2 ⟨ha, hrw⟩)]
    simp only [ha, hrw, forall_const]
    cases hc : compatPath w argsTo rq s with
    | none =>
      obtain ⟨st, hst⟩ := renameTo_stops (w := w) (s := s1) rq
        ((catName (some d) argsFrom.name).2.getD unset.buf)
          (renameTarget w argsTo s) argsTo.name unset
        (by rw [l1, x1]; exact hc)
      refine iff_of_false ?_ (by simp)
      rintro ⟨r, s', h⟩
      obtain ⟨_, _, h, _⟩ := Prog.bind_eq_ok h
      rw [h] at hst
      cases hst
    | some e' =>
      obtain ⟨s2, e2, _, _, hto⟩ := renameTo_run (w := w) (s := s1) (e := e') rq
        ((catName (some d) argsFrom.name).2.getD unset.buf)
          (renameTarget w argsTo s) argsTo.name unset
        (by rw [l1, x1]; exact hc)
      rw [l1, x1, ← targetStatus, Prog.ite_run] at hto
      simp only [ne_eq, reduceCtorEq, not_false_eq_true, true_and]
      by_cases hst : targetStatus w argsTo rq s = .ok
      · simp only [hst, ↓reduceIte, forall_const] at hto ⊢
        by_cases hconn : Connects w rq
        · obtain ⟨st, s3, h3, _⟩ := renameMove_ends (w := w) e2 hconn.1 hconn.2
            (realPath w e' rq.uid ((catName (some d) argsFrom.name).2.getD unset.buf))
            (bufPath w e' rq.uid (renameTarget w argsTo s) argsTo.name unset)
          refine iff_of_true ?_ hconn
          rw [Prog.bind_ok (by rw [hto, h3])]
          exact hend st s3
        · obtain ⟨st, hstop⟩ := renameMove_stops (w := w) e2 hconn
            (realPath w e' rq.uid ((catName (some d) argsFrom.name).2.getD unset.buf))
            (bufPath w e' rq.uid (renameTarget w argsTo s) argsTo.name unset)
          refine iff_of_false ?_ hconn
          rintro ⟨r, s', h⟩
          obtain ⟨_, _, h, _⟩ := Prog.bind_eq_ok h
          rw [hto] at h
          rw [h] at hstop
          cases hstop
      · rw [if_neg hst] at hto
        refine iff_of_true ?_ fun h => absurd h hst
        rw [Prog.bind_ok hto]
        exact hend _ s2
  · rw [if_neg fun h => hsrc (catName_rw_iff.1 h)]
    exact iff_of_true (hend _ s1) fun ha hrw => absurd ⟨ha, hrw⟩ hsrc

/-- RENAME replies when it has renamed. -/
theorem renameBody_renamed {d : CStr} {argsFrom argsTo : Diropargs3} {unset : Junk}
    (ho : s.exports.opts.isSome) (h : ¬ Only (fun ev => ¬ IsRename ev)
      (renameBody w d argsFrom argsTo rq unset) s) :
    ∃ r s', renameBody w d argsFrom argsTo rq unset s = (.ok r, s') := by
  obtain ⟨comm, hmoves⟩ := renameBody_moves (w := w) (s := s) (P := fun ev => ¬ IsRename ev)
    (fun _ hev => isRename_loud hev) (fun _ _ h => h) rq d ho argsFrom argsTo unset
  rw [hmoves] at h
  simp only [not_forall] at h
  obtain ⟨_, _, hst, hc, _⟩ := h
  obtain ⟨e', _, he', _⟩ := exportsCompat_path ho (join_eq_ok.1 hst).2
  refine (renameBody_replies_iff d argsFrom argsTo unset).2 fun _ _ => ⟨?_, fun _ => hc⟩
  rw [compatPath, he']
  simp

/-- The target is in an export of the client when `exports_compat` finds an `export_path`. -/
theorem compatPath_iff {fh : NfsFh3} {path p : CStr} {s1 : Server L R} {argsTo : Diropargs3}
    (hp : prep w fh rq s = (.ok (.ok path), s1)) (ht : renameTarget w argsTo s1 = some p) :
    compatPath w argsTo rq s1 ≠ none ↔ (governing s rq p).opts ≠ none := by
  rw [compatPath, ht, exportsCompat_vars, ← Option.isSome_iff_ne_none, exportsOptions_path,
    (prep_ok hp).2.2,
    (exportsOptions_same s.exportList rq.remote (some p) s1.exports s.exports).2.2,
    Option.isSome_iff_ne_none]
  rfl

/-- When RENAME makes use of its target directory. -/
theorem uses_target_iff {argsFrom argsTo : Diropargs3} {path p : CStr} {s1 : Server L R}
    (hp : prep w argsFrom.dir rq s = (.ok (.ok path), s1))
    (ht : renameTarget w argsTo s1 = some p) :
    ((∃ ev ∈ since s (nfsProgram w rq (.rename argsFrom argsTo) s).2, IsRename ev) ∨
      ∃ reply, (nfsProgram w rq (.rename argsFrom argsTo) s).1 = .ok reply) ↔
    (Accepted path argsFrom.name → exportsRw s1.exports = .ok →
      (governing s rq p).opts ≠ none ∧ (targetStatus w argsTo rq s1 = .ok → Connects w rq)) := by
  rw [← compatPath_iff hp ht, ← renameBody_replies_iff path argsFrom argsTo (w.junk s.tick)]
  have hrun : nfsProgram w rq (.rename argsFrom argsTo) s =
      replyWith .rename (renameBody w path argsFrom argsTo rq (w.junk s.tick)) s1 := by
    rcases (PathOp.rename argsFrom argsTo).run_cases (w := w) rq s with
      ⟨path', s1', hp', h⟩ | ⟨_, _, hp', _⟩ | ⟨_, _, hp', _⟩
    all_goals rw [show (PathOp.rename argsFrom argsTo).args.dir = argsFrom.dir from rfl, hp] at hp'
    · obtain ⟨⟨⟨⟩⟩, rfl⟩ := Prod.mk.inj hp'
      exact h
    · cases hp'
    · cases hp'
  constructor
  · rintro (⟨ev, hev, hr⟩ | ⟨reply, h⟩)
    · refine renameBody_renamed (prep_ok hp).2.1 fun ho => ?_
      exact (rename_only hp fun _ h => isRename_loud h).2 ho ev hev hr
    · rw [hrun] at h
      obtain ⟨r, hr, _⟩ := replyWith_ok (Prod.ext h rfl)
      exact ⟨r, _, hr⟩
  · rintro ⟨r, s', h⟩
    refine .inr ⟨.rename r, ?_⟩
    rw [hrun, replyWith, Prog.bind_ok h]
    rfl

/-- **Every handle a request makes use of is checked**, unless the request is a RENAME with a target
directory that its handle gives no right to. A request that `PREP` does not let in does nothing but
change the daemon's identity. -/
theorem handles_checked_iff (w : World L R) (rq : SvcReq) (q : NfsRequest) (s : Server L R) :
    (∀ fh, q.handle = some fh → (∀ path, ¬ Uses w rq s q fh path) →
      ((∃ st, st ≠ .ok ∧ (nfsProgram w rq q s).1 = .ok (q.refusal st)) ∨
        ∃ stop, (nfsProgram w rq q s).1 = .error stop) ∧
      ∀ ev ∈ since s (nfsProgram w rq q s).2, SetsId ev) ∧
    ((∀ fh path, Uses w rq s q fh path → Entitled rq s fh path) ↔ ¬ SkipsTarget w rq s q) := by
  refine ⟨fun fh hq hn => ?_, fun hall => ?_, fun hn fh path hu => ?_⟩
  · obtain ⟨hr, htrace⟩ := nfsProgram_refused hq fun path s1 hp => hn path (.prep hq hp)
    refine ⟨hr, ?_⟩
    have hran := prep_ran (w := w) (E := SetsId) (fun c hc => ⟨c, rfl, hc⟩) fh rq s
    rw [since, htrace]
    exact hran.since
  · rintro ⟨argsFrom, argsTo, path, s1, p, rfl, hp, ht, hne, hc⟩
    exact hne (hall _ _ (.target hp ht ((uses_target_iff hp ht).2 hc)))
  · cases hu with
    | prep hq hp =>
      obtain ⟨_, _, v, _, _, rfl, ho, hpw, _⟩ := prep_inv hp
      exact ⟨ho, hpw⟩
    | target hp ht h =>
      by_contra hne
      exact hn ⟨_, _, _, _, _, rfl, hp, ht, hne, (uses_target_iff hp ht).1 h⟩

end

/-! ### A forged password hash -/

/-- An export with a password. -/
def lockedItem (path password : CStr) : EItem :=
  { path, orig := path, hosts := [{ options := { rw := true, removable := true }, password }] }

/-- A handle of an export's directory with the hash of a password. -/
def lockedHandle (i : EItem) (password : CStr) : NfsFh3 :=
  { dataLen := 33, obj := { dev := i.fsid, ino := 1, pwhash := fnv1a32 password 0 } }

/-- A daemon with two exports that have different passwords. -/
def lockedServer : Server Sandbox.Kernel Sandbox.Grid :=
  Sandbox.server [lockedItem (lit "/e") (lit "x"), lockedItem (lit "/d") (lit "y")]
    { files := [(lit "/e/f", { dev := 1, ino := 5, mode := 0o100600 })] } {}

/-- RENAME of `/e/f` to `/d/g` by a client that knows the password of `/e` only. -/
def forgedRename : NfsRequest :=
  .rename { dir := lockedHandle (lockedItem (lit "/e") (lit "x")) (lit "x"), name := lit "f" }
    { dir := lockedHandle (lockedItem (lit "/d") (lit "y")) [], name := lit "g" }

/-- The file is moved into an export whose password the client has not given. -/
theorem rename_forged :
    ((nfsProgram Sandbox.publicWorld renameReq forgedRename lockedServer).2.kernel.files.map (·.1))
      = [lit "/d/g"] ∧
    ¬ ∀ fh path, Uses Sandbox.publicWorld renameReq lockedServer forgedRename fh path →
      Entitled renameReq lockedServer fh path := by
  refine ⟨by decide +kernel, fun h => ?_⟩
  have hp : prep Sandbox.publicWorld (lockedHandle (lockedItem (lit "/e") (lit "x")) (lit "x"))
      renameReq lockedServer = (.ok (.ok (lit "/e")), _) := Prod.ext rfl rfl
  have hu := h (lockedHandle (lockedItem (lit "/d") (lit "y")) []) (lit "/d")
    (.target hp (by decide +kernel) (.inl
      ⟨.sys (.rename (lit "/e/f") (lit "/d/g")), by decide +kernel, trivial⟩))
  exact absurd hu.password (by decide +kernel)

end NfsRods
