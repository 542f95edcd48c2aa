import NfsRods.Serve
import NfsRods.Sandbox

/-!
# Which credentials the daemon survives

Serving a request takes the caller's ids (`switch_user`), connects to iRODS for him and builds an
iRODS name. An id of `0xFFFFFFFF` makes the switch fail, which ends the daemon; a caller without a
passwd entry makes it free a string literal.

* `switchUser_result`: when the switch ends the daemon.
* `request_completes_iff`: the exact credentials and settings for which all three complete.
-/

namespace NfsRods

open CStr
open Prog (Ends Frame)

/-- The id that changes nothing, `(uid_t) -1`. -/
def noId : UInt32 := 0xffffffff

/-- As root, `seteuid`, `setegid` and `setgroups` fail only for the id `0xFFFFFFFF`. -/
structure RootIds {L R : Type} (w : World L R) : Prop where
  seteuid : ∀ u k, (w.sys (.seteuid u) k).1 = if u = noId then .error .einval else .ok 0
  setegid : ∀ g k, (w.sys (.setegid g) k).1 = if g = noId then .error .einval else .ok 0
  setgroups : ∀ gs k, (w.sys (.setgroups gs) k).1 = if noId ∈ gs then .error .einval else .ok 0

section
variable {L R : Type} {w : World L R}

theorem KernelOnly.mangledGids {s s' : Server L R} (h : KernelOnly s s') :
    mangledGids s' = mangledGids s := by rw [h]; rfl

/-- A system call with its result as -1 or 0. -/
theorem sys_ends_of {c : SysCall} {bad : Prop} [Decidable bad] (s : Server L R)
    (h : ∀ k, (w.sys c k).1 = if bad then .error .einval else .ok 0) :
    Ends KernelOnly (sys w c) s (.ok (if bad then -1 else 0)) := by
  obtain ⟨s', hs, hk, _⟩ := sys_ends (w := w) c s
  refine ⟨s', ?_, hk⟩
  rw [hs, sysResult, h]
  by_cases hb : bad <;> simp [hb]

/-- What `switch_user` may not be given. -/
def BadIds (s : Server L R) (rq : SvcReq) : Prop :=
  getUid s rq = noId ∨ getGid s rq = noId ∨ noId ∈ mangledGids s

instance (s : Server L R) (rq : SvcReq) : Decidable (BadIds s rq) := by
  unfold BadIds; infer_instance

/-- The groups set are the mangled ones. -/
theorem take_mangledGids (s : Server L R) :
    (mangledGids s ++ s.gids.drop 32).take 32 = mangledGids s := by
  rcases Nat.le_total 32 s.gids.length with h | h
  · exact List.take_left' (by simpa [mangledGids] using h)
  · rw [List.drop_of_length_le h, List.append_nil, List.take_of_length_le (by simp [mangledGids])]

theorem switchGroups_ends (hw : RootIds w) (s : Server L R) :
    ∃ s', switchGroups w s = (.ok (if noId ∈ mangledGids s then -1 else 0), s') := by
  obtain ⟨s', h, _⟩ := sys_ends_of (w := w) { s with gids := mangledGids s ++ s.gids.drop 32 }
    (hw.setgroups (mangledGids s))
  refine ⟨s', ?_⟩
  rw [switchGroups, Prog.modify_bind_run, Prog.get_bind_run, take_mangledGids]
  exact h

/-- On a server running as root, `switch_user` ends the daemon exactly on bad ids. -/
theorem switchUser_result (hw : RootIds w) (hroot : w.getuid = 0) (hs : w.conf.singleuser = false)
    (rq : SvcReq) (s : Server L R) : (switchUser w rq s).1 =
      if s.canSwitch = true ∧ BadIds s rq then .error .daemonExit else .ok () := by
  rw [switchUser, Prog.get_bind_run]
  cases hc : s.canSwitch with
  | false => simp
  | true =>
    have hn : (w.conf.singleuser || w.getuid != 0) = false := by simp [hs, hroot]
    simp only [hn, Bool.not_true, Bool.false_eq_true, ↓reduceIte, true_and]
    obtain ⟨s1, h1, k1⟩ := sys_ends_of (w := w) s (hw.setegid 0)
    obtain ⟨s2, h2, k2⟩ := sys_ends_of (w := w) s1 (hw.seteuid 0)
    obtain ⟨s3, h3, k3⟩ := sys_ends_of (w := w) s2 (hw.setegid (getGid s rq))
    obtain ⟨s4, h4⟩ := switchGroups_ends hw s3
    obtain ⟨s5, h5, _⟩ := sys_ends_of (w := w) s4 (hw.seteuid (getUid s rq))
    have hg : mangledGids s3 = mangledGids s := by
      rw [k3.mangledGids, k2.mangledGids, k1.mangledGids]
    have hb : becomeRoot w s = (.ok (), s2) := by
      rw [becomeRoot, Prog.bind_ok h1, Prog.bind_ok h2]
      rfl
    rw [Prog.bind_ok hb, Prog.bind_ok h3, Prog.bind_ok h4, Prog.bind_ok h5, hg]
    unfold BadIds Prog.when
    by_cases hu : getUid s rq = noId <;> by_cases hgid : getGid s rq = noId <;>
      by_cases hm : noId ∈ mangledGids s <;> simp [hu, hgid, hm]

/-- `switch_user` for a request, `rodsConnecUser` and `getRodsPath`. -/
def switchAndName (w : World L R) (rq : SvcReq) (path : CStr) : M L R CStr := do
  switchUser w rq
  let _ ← rodsConnecUser w rq.uid
  getRodsPath w rq.uid path

/-- **Completion.** On a server running as root and serving several users, under any export: the
switch, the connection and the name complete if and only if no id set is `0xFFFFFFFF`, the caller
has a user name when private collections are on, and a zone is configured. -/
theorem request_completes_iff (hw : RootIds w) (hroot : w.getuid = 0)
    (hs : w.conf.singleuser = false) (rq : SvcReq) (path : CStr) {s : Server L R} {e : CStr}
    (he : s.exports.path = some e) :
    (∃ name, (switchAndName w rq path (enter rq s)).1 = .ok name) ↔
      ¬ (s.canSwitch = true ∧ BadIds (enter rq s) rq) ∧ Known w rq.uid ∧
        w.conf.zone.isSome := by
  have hr : (switchUser w rq (enter rq s)).1 =
      if s.canSwitch = true ∧ BadIds (enter rq s) rq then .error .daemonExit else .ok () :=
    switchUser_result hw hroot hs rq (enter rq s)
  rcases hsw : switchUser w rq (enter rq s) with ⟨x, s1⟩
  rw [hsw] at hr
  have f1 : Foot w (fun _ => True) (enter rq s) (switchUser w rq (enter rq s)).2 :=
    switchUser_frame (E := fun _ => True) (fun _ _ => trivial) rq (enter rq s)
  rw [hsw] at f1
  have e1 : s1.exports.path = some e := by rw [f1.exports]; exact he
  unfold switchAndName
  by_cases hbad : s.canSwitch = true ∧ BadIds (enter rq s) rq
  · rw [if_pos hbad] at hr
    subst hr
    rw [Prog.bind_error hsw]
    simp [hbad.1, hbad.2]
  · rw [if_neg hbad] at hr
    subst hr
    rw [Prog.bind_ok hsw]
    simp only [hbad, not_false_eq_true, true_and]
    by_cases hk : Known w rq.uid
    · obtain ⟨s2, h2, r2⟩ := rodsConnecUser_ends e1 hk
      have e2 : s2.exports.path = some e := by rw [r2.1.exports, e1]
      obtain ⟨s3, h3, _⟩ := getRodsPath_ends (w := w) e2 rq.uid path
      rw [Prog.bind_ok h2, h3]
      by_cases hz : w.conf.zone.isSome
      · obtain ⟨home, hh⟩ := rodsHome_ok hk hz e
        simp [rodsPath, hh, Except.map, hk, hz]
      · rw [rodsPath_zone_none hz]
        simp [hz]
    · rw [Prog.fst_bind_error (rodsConnecUser_stops (w := w) e1 hk)]
      simp [hk]

end

/-! ## Credentials in the small world -/

/-- A daemon with private collections and one user, 7. -/
def oneUserWorld : World Sandbox.Kernel Sandbox.Grid :=
  Sandbox.world { zone := some (lit "z"), privateColl := true } [(7, lit "ann")]

theorem oneUserWorld_rootIds : RootIds oneUserWorld where
  seteuid u k := by
    change (Sandbox.sysCall (.seteuid u) k).1 = _
    by_cases h : u = noId <;> simp [Sandbox.sysCall, noId] at h ⊢ <;> simp [h]
  setegid g k := by
    change (Sandbox.sysCall (.setegid g) k).1 = _
    by_cases h : g = noId <;> simp [Sandbox.sysCall, noId] at h ⊢ <;> simp [h]
  setgroups gs k := by
    change (Sandbox.sysCall (.setgroups gs) k).1 = _
    by_cases h : noId ∈ gs <;> simp [Sandbox.sysCall, noId] at h ⊢ <;> simp [h]

/-- The daemon serving a request under an export of `/e` that squashes only root. -/
def serving : Server Sandbox.Kernel Sandbox.Grid :=
  { kernel := {}, rods := {}, exports := { opts := some {}, path := some (lit "/e") } }

/-- User 7 is served. -/
theorem request_completes_ann :
    ∃ name, (switchAndName oneUserWorld { remote := 1, uid := 7, gid := 7 } [] (enter
      { remote := 1, uid := 7, gid := 7 } serving)).1 = .ok name :=
  (request_completes_iff oneUserWorld_rootIds rfl rfl _ _ (e := lit "/e") rfl).2 (by decide)

/-- A credential with the uid `0xFFFFFFFF` ends the daemon, and one without a passwd entry makes it
free a literal. -/
theorem request_kills_daemon :
    (switchAndName oneUserWorld { remote := 1, uid := 0xffffffff, gid := 7 } [] (enter
      { remote := 1, uid := 0xffffffff, gid := 7 } serving)).1 = .error .daemonExit ∧
    (switchAndName oneUserWorld { remote := 1, uid := 8, gid := 7 } [] (enter
      { remote := 1, uid := 8, gid := 7 } serving)).1 = .error .badFree := ⟨rfl, rfl⟩

end NfsRods
