import NfsRods.Nfs.Frame
import NfsRods.Sandbox

/-!
# Squashing and the iRODS user

`switch_user` takes on the id of the caller as the export's options squash it (`get_uid`). The iRODS
user and the private directory are those of the id in the caller's credentials as it is (`getUID`).

* `getUID_eq_iff`: for a request that `PREP` lets in, the two are the same exactly when nothing is
  squashed or the caller's id is the one that is squashed to.
-/

namespace NfsRods

open CStr
open Prog (Frame)

section
variable {L R : Type}

/-- `getUID`: the id in the credentials, whatever their flavour. It is passed to `rodsConnecUser`,
`getRodsPath` and `getRealPathNFS`. -/
def getUID (rq : SvcReq) : UInt32 := rq.uid

/-- The options in force for `path`. -/
def governing (s : Server L R) (rq : SvcReq) (path : CStr) : ExportVars :=
  (exportsOptions s.exportList rq.remote (some path) s.exports).vars

/-- `switch_user` changes to the caller's id. -/
def Switches (w : World L R) (s : Server L R) : Prop :=
  s.canSwitch = true ∧ w.conf.singleuser = false ∧ w.getuid = 0

/-- `switch_user` finds that the daemon may not switch, and squashes to its own id from then on. -/
def ownOnly (w : World L R) (s : Server L R) : Bool :=
  s.canSwitch && (w.conf.singleuser || w.getuid != 0)

/-- The id that ids are squashed to. -/
def anonymousUid (w : World L R) (s : Server L R) (rq : SvcReq) (path : CStr) : UInt32 :=
  squashId (governing s rq path).lastAnonuid
    (if ownOnly w s then w.getuid else s.squashUid)

/-- Nothing is squashed: the credentials are `AUTH_UNIX`, the daemon switches, and the options leave
the caller's id as it is. -/
structure Unsquashed (w : World L R) (s : Server L R) (rq : SvcReq) (path : CStr) : Prop where
  flavor : rq.flavor = .unix
  switches : Switches w s
  notAll : (governing s rq path).bit (·.allSquash) = false
  notRoot : (governing s rq path).bit (·.noRootSquash) = true ∨ rq.uid ≠ 0

/-- `s'` squashes as `s` does. -/
def SquashesAs (s s' : Server L R) : Prop := s'.canSwitch = s.canSwitch ∧ s'.squashUid = s.squashUid

instance : Std.Refl (SquashesAs (L := L) (R := R)) := ⟨fun _ => ⟨rfl, rfl⟩⟩
instance : IsTrans (Server L R) SquashesAs :=
  ⟨fun _ _ _ h h' => ⟨h'.1.trans h.1, h'.2.trans h.2⟩⟩

end

section
variable {L R : Type} {w : World L R}

theorem KernelOnly.squashesAs {s s' : Server L R} (h : KernelOnly s s') : SquashesAs s s' := by
  rw [h]
  exact ⟨rfl, rfl⟩

theorem sys_squashesAs (c : SysCall) : Frame SquashesAs (sys w c) :=
  (sys_kernelOnly c).mono fun _ _ h => h.squashesAs

theorem becomeRoot_squashesAs : Frame SquashesAs (becomeRoot w) :=
  becomeRoot_kernelOnly.mono fun _ _ h => h.squashesAs

theorem fhDecomp_squashesAs (fh : NfsFh3) : Frame SquashesAs (fhDecomp w fh) := by
  refine (fhDecomp_caches fh).mono fun s s' h => ?_
  obtain ⟨_, _, _, rfl⟩ := h
  exact ⟨rfl, rfl⟩

theorem SquashesAs.getUid {s s' : Server L R} (h : SquashesAs s s') (he : s'.exports = s.exports)
    (rq : SvcReq) : getUid s' rq = NfsRods.getUid s rq := by
  simp only [NfsRods.getUid, mangle, h.1, h.2, he]

/-- `get_uid` after `switch_user`, and the id that it has taken on. -/
theorem switchUser_getUid {rq : SvcReq} {s s' : Server L R} (h : switchUser w rq s = (.ok (), s')) :
    getUid s' rq = (if ownOnly w s then squashId s.exports.lastAnonuid w.getuid else getUid s rq) ∧
      (Switches w s → ∃ t, s'.trace = s.trace ++ t ++ [.sys (.seteuid (getUid s' rq))]) := by
  rw [switchUser, Prog.get_bind_run, Prog.ite_run] at h
  split at h
  · rename_i hc
    have hc' : s.canSwitch = false := by simpa using hc
    cases h
    refine ⟨by simp [ownOnly, hc'], fun hs => ?_⟩
    rw [hs.1] at hc'
    cases hc'
  rename_i hc
  have hc' : s.canSwitch = true := by simpa using hc
  rw [Prog.ite_run] at h
  split at h
  · rename_i hown
    cases h
    refine ⟨?_, fun hs => ?_⟩
    · simp [ownOnly, hc', hown, getUid, mangle]
    · simp [hs.2.1, hs.2.2] at hown
  · rename_i hown
    have hfree : ownOnly w s = false := by simpa [ownOnly, hc'] using hown
    obtain ⟨_, s1, h1, h⟩ := Prog.bind_eq_ok h
    obtain ⟨_, s2, h2, h⟩ := Prog.bind_eq_ok h
    obtain ⟨_, s3, h3, h⟩ := Prog.bind_eq_ok h
    obtain ⟨_, s4, h4, h⟩ := Prog.bind_eq_ok h
    have f1 : Foot w (fun _ => True) s s1 :=
      (becomeRoot_frame (E := fun _ => True) fun _ _ => trivial).ok h1
    have f2 : Foot w (fun _ => True) s1 s2 := (sys_frame (E := fun _ => True) trivial).ok h2
    have f3 : Foot w (fun _ => True) s2 s3 :=
      (switchGroups_frame (E := fun _ => True) fun _ _ => trivial).ok h3
    have f4 : Foot w (fun _ => True) s3 s4 := (sys_frame (E := fun _ => True) trivial).ok h4
    have q3 : SquashesAs s2 s3 := by
      refine Frame.ok (.bind (fun _ => ?_) fun _ => .bind .get fun _ => sys_squashesAs _) h3
      exact ⟨rfl, rfl⟩
    have q : SquashesAs s s4 := trans_of SquashesAs (becomeRoot_squashesAs.ok h1)
      (trans_of SquashesAs ((sys_squashesAs _).ok h2)
        (trans_of SquashesAs q3 ((sys_squashesAs _).ok h4)))
    obtain rfl : s4 = s' := by
      unfold Prog.when at h
      split at h <;> cases h
      rfl
    have hsame := q.getUid (by rw [f4.exports, f3.exports, f2.exports, f1.exports]) rq
    refine ⟨by rw [hfree, hsame]; rfl, fun _ => ?_⟩
    obtain ⟨⟨t1, ht1, _⟩, _⟩ := f1
    obtain ⟨⟨t2, ht2, _⟩, _⟩ := f2
    obtain ⟨⟨t3, ht3, _⟩, _⟩ := f3
    obtain ⟨s5, h5, _, ht5⟩ := sys_trace (w := w) (.seteuid (getUid s rq)) s3
    rw [h4] at h5
    cases h5
    refine ⟨t1 ++ t2 ++ t3, ?_⟩
    rw [ht5, ht3, ht2, ht1, hsame]
    simp

/-- When `get_uid` is the id in the credentials. -/
theorem eq_getUid_iff (s : Server L R) (rq : SvcReq) : rq.uid = getUid s rq ↔
    (rq.flavor = .unix ∧ s.canSwitch = true ∧ s.exports.bit (·.allSquash) = false ∧
      (s.exports.bit (·.noRootSquash) = true ∨ rq.uid ≠ 0)) ∨
      rq.uid = squashId s.exports.lastAnonuid s.squashUid := by
  unfold getUid mangle
  by_cases hf : rq.flavor = .unix
  · cases hc : s.canSwitch with
    | false => simp [hf]
    | true =>
      cases ha : s.exports.bit (·.allSquash) with
      | true => simp [hf]
      | false =>
        by_cases hr : s.exports.bit (·.noRootSquash) = true ∨ rq.uid ≠ 0
        · refine iff_of_true ?_ (.inl ⟨hf, rfl, rfl, hr⟩)
          rcases hr with hr | hr <;> simp [hf, hr]
        · obtain ⟨hr, hu⟩ := not_or.1 hr
          simp [hf, hr, not_not.1 hu]
  · simp [hf]

/-- **The iRODS user is the local user** exactly when nothing is squashed, or the caller's id is the
one that is squashed to. The local user is the one that `switch_user` has changed to, if it changes.
-/
theorem getUID_eq_iff (w : World L R) (fh : NfsFh3) (rq : SvcReq) (s s1 : Server L R) (path : CStr)
    (h : prep w fh rq s = (.ok (.ok path), s1)) :
    (Switches w s → ∃ t, s1.trace = s.trace ++ t ++ [.sys (.seteuid (getUid s1 rq))]) ∧
      (getUID rq = getUid s1 rq ↔ Unsquashed w s rq path ∨
        getUID rq = anonymousUid w s rq path) := by
  obtain ⟨s1', s2, v, h1, h2, hv, _, _, _, h4⟩ := prep_inv h
  have q : SquashesAs s s2 := by
    refine trans_of SquashesAs ?_ ((fhDecomp_squashesAs _).ok h2)
    exact Frame.ok (.bind .get fun _ => .when fun _ => becomeRoot_squashesAs) h1
  obtain ⟨huid, htrace⟩ := switchUser_getUid h4
  have hown : ownOnly w { s2 with exports := v } = ownOnly w s := by simp [ownOnly, q.1]
  have hsw : Switches w s → Switches w { s2 with exports := v } :=
    fun h => ⟨by rw [← h.1]; exact q.1, h.2⟩
  refine ⟨fun hs => ?_, ?_⟩
  · obtain ⟨t, ht⟩ := htrace (hsw hs)
    obtain ⟨⟨t1, ht1, _⟩, _⟩ : Foot w (fun _ => True) _ _ :=
      (switchToRoot_frame (E := fun _ => True) fun _ _ => trivial).ok h1
    obtain ⟨⟨t2, ht2, _⟩, _⟩ := (fhDecomp_foot (w := w) (E := fun _ => True) fh).ok h2
    refine ⟨t1 ++ t2 ++ t, ?_⟩
    rw [ht, show ({ s2 with exports := v } : Server L R).trace = s2.trace from rfl, ht2, ht1]
    simp
  · rw [huid, hown, show v = governing s rq path from hv]
    cases ho : ownOnly w s with
    | true =>
      have hno : ¬ Unsquashed w s rq path := by
        rintro ⟨_, hs, _, _⟩
        simp [ownOnly, hs.1, hs.2.1, hs.2.2] at ho
      simp [anonymousUid, ho, hno]
    | false =>
      have hsquash : anonymousUid w s rq path =
        squashId (governing s rq path).lastAnonuid s.squashUid := by
        simp [anonymousUid, ho]
      have hfree : s.canSwitch = true → Switches w s := by
        intro hc
        simpa [ownOnly, hc, Switches] using ho
      rw [if_neg (by simp), hsquash]
      refine (eq_getUid_iff _ rq).trans (or_congr ?_ (by rw [← q.2]; exact Iff.rfl))
      constructor
      · rintro ⟨hf, hc, ha, hr⟩
        exact ⟨hf, hfree (q.1 ▸ hc), ha, hr⟩
      · rintro ⟨hf, hs, ha, hr⟩
        exact ⟨hf, q.1.trans hs.1, ha, hr⟩

end

/-! ## Root in the small world -/

/-- A daemon with private collections, and users. -/
def squashWorld : World Sandbox.Kernel Sandbox.Grid :=
  Sandbox.world { zone := some (lit "z"), privateColl := true }
    [(0, lit "root"), (7, lit "u"), (65534, lit "nobody")]

/-- The export `/e`, which squashes root. -/
def squashServer : Server Sandbox.Kernel Sandbox.Grid :=
    Sandbox.server [Sandbox.item (lit "/e") true] {} {}

/-- A request of a user. -/
def ofUser (uid : UInt32) : SvcReq := { remote := 1, uid, gid := 7 }

theorem squashServer_prep (uid : UInt32) (h : uid = 0 ∨ uid = 7) :
    prep squashWorld (Sandbox.handle (Sandbox.item (lit "/e") true)) (ofUser uid) squashServer =
      (.ok (.ok (lit "/e")),
        (prep squashWorld (Sandbox.handle (Sandbox.item (lit "/e") true)) (ofUser uid)
          squashServer).2) := by
  rcases h with rfl | rfl <;> exact Prod.ext rfl rfl

/-- An ordinary user is the same on both sides. -/
theorem getUID_user :
    ∃ s1, prep squashWorld (Sandbox.handle (Sandbox.item (lit "/e") true)) (ofUser 7)
      squashServer = (.ok (.ok (lit "/e")), s1) ∧ getUID (ofUser 7) = getUid s1 (ofUser 7) := by
  refine ⟨_, squashServer_prep 7 (.inr rfl), ?_⟩
  refine (getUID_eq_iff squashWorld (Sandbox.handle (Sandbox.item (lit "/e") true))
    (ofUser 7) squashServer _ (lit "/e") (squashServer_prep 7 (.inr rfl))).2.2 (.inl ?_)
  exact ⟨rfl, ⟨rfl, rfl, rfl⟩, by decide +kernel, by decide +kernel⟩

/-- Root is `nobody` to the local file system but `root` to iRODS. -/
theorem getUID_root :
    ∃ s1, prep squashWorld (Sandbox.handle (Sandbox.item (lit "/e") true)) (ofUser 0)
      squashServer = (.ok (.ok (lit "/e")), s1) ∧ Switches squashWorld squashServer ∧
    (Event.sys (.seteuid 65534)) ∈ s1.trace ∧ getUid s1 (ofUser 0) = 65534 ∧ getUID (ofUser 0) = 0 ∧
    clientOf squashWorld (lit "/e") (getUID (ofUser 0)) = some (lit "root", some (lit "z")) ∧
    clientOf squashWorld (lit "/e") (getUid s1 (ofUser 0)) =
      some (lit "nobody", some (lit "z")) := by
  refine ⟨_, squashServer_prep 0 (.inl rfl), ⟨rfl, rfl, rfl⟩, ?_⟩
  decide +kernel

end NfsRods
