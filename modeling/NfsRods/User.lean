import NfsRods.Server

/-!
# Users and groups

`user.c`: squashing of ids and switching to the caller's. Ids are kept as their 32 bits; C `int`
and `uid_t` convert into each other without loss.

* `switchUser_frame`: switching changes nothing but the daemon's own identity.
-/

namespace NfsRods

section
variable {L R : Type} (w : World L R)

/-- `mangle`. -/
def mangle (s : Server L R) (id squash : UInt32) : UInt32 :=
  if !s.canSwitch || s.exports.bit (·.allSquash) then squash
  else if s.exports.bit (·.noRootSquash) then id
  else if id = 0 then squash
  else id

/-- The id to squash to: the export's own anonymous id, if it has one. -/
def squashId (anon : ULong) (squash : UInt32) : UInt32 :=
  if anon ≠ anonNotspecial then anon.toUInt32 else squash

/-- `mangle_uid`. -/
def mangleUid (s : Server L R) (id : UInt32) : UInt32 :=
  mangle s id (squashId s.exports.lastAnonuid s.squashUid)

/-- `mangle_gid`. -/
def mangleGid (s : Server L R) (id : UInt32) : UInt32 :=
  mangle s id (squashId s.exports.lastAnongid s.squashGid)

/-- `get_uid`. -/
def getUid (s : Server L R) (rq : SvcReq) : UInt32 :=
  if rq.flavor = .unix then mangle s rq.uid (squashId s.exports.lastAnonuid s.squashUid)
  else squashId s.exports.lastAnonuid s.squashUid

/-- `get_gid`. -/
def getGid (s : Server L R) (rq : SvcReq) : UInt32 :=
  if rq.flavor = .unix then mangle s rq.gid (squashId s.exports.lastAnongid s.squashGid)
  else squashId s.exports.lastAnongid s.squashGid

/-- `is_owner`. -/
def isOwner (s : Server L R) (owner : UInt32) (rq : SvcReq) : Bool := owner == getUid s rq

/-- `has_group`; anonymous group ids of the export are not considered. -/
def hasGroup (s : Server L R) (group : UInt32) (rq : SvcReq) : Bool :=
  if rq.flavor = .unix then
    mangle s rq.gid s.squashGid == group || s.gids.any fun g => mangle s g s.squashGid == group
  else false

/-- `backend_setegid(0); backend_seteuid(0)`. -/
def becomeRoot : M L R Unit := do
  let _ ← sys w (.setegid 0)
  let _ ← sys w (.seteuid 0)

/-- `switch_to_root`. -/
def switchToRoot : M L R Unit := do
  let s ← Prog.get
  Prog.when s.canSwitch (becomeRoot w)

/-- The groups `switch_groups` sets: at most 32, mangled. -/
def mangledGids (s : Server L R) : List UInt32 :=
  (s.gids.take 32).map fun g => mangle s g s.squashGid

/-- `switch_groups`: the request's own list is overwritten. -/
def switchGroups : M L R Int := do
  Prog.modify fun s => { s with gids := mangledGids s ++ s.gids.drop 32 }
  let s ← Prog.get
  sys w (.setgroups (s.gids.take 32))

/-- `switch_user`. -/
def switchUser (rq : SvcReq) : M L R Unit := do
  let s ← Prog.get
  if !s.canSwitch then pure ()
  else if w.conf.singleuser || w.getuid != 0 then
    -- squash all ids to the current ones, otherwise ACCESS would malfunction
    Prog.modify fun s => { s with squashUid := w.getuid, squashGid := w.getgid, canSwitch := false }
  else
    becomeRoot w
    let gid ← sys w (.setegid (getGid s rq))
    let aid ← switchGroups w
    let uid ← sys w (.seteuid (getUid s rq))
    Prog.when (uid = -1 ∨ gid = -1 ∨ aid = -1) (Prog.stop .daemonExit)

/-- `read_executable`. -/
def readExecutable (rq : SvcReq) (buf : Stat) : M L R Unit := do
  let s ← Prog.get
  let haveExec :=
    if isOwner s buf.uid rq then buf.mode &&& 0o400 = 0 ∧ buf.mode &&& 0o100 ≠ 0
    else if hasGroup s buf.gid rq then buf.mode &&& 0o040 = 0 ∧ buf.mode &&& 0o010 ≠ 0
    else buf.mode &&& 0o004 = 0 ∧ buf.mode &&& 0o001 ≠ 0
  Prog.when haveExec (becomeRoot w)

/-- `read_by_owner` and `write_by_owner`: root's rights for an owner whom the bit `b` of his class
denies access. -/
def accessByOwner (b : Nat) (rq : SvcReq) (buf : Stat) : M L R Unit := do
  let s ← Prog.get
  let haveOwner := isOwner s buf.uid rq
  let haveAccess := (haveOwner && buf.mode &&& b * 64 != 0) ||
    (hasGroup s buf.gid rq && buf.mode &&& b * 8 != 0) || buf.mode &&& b != 0
  Prog.when (haveOwner && !haveAccess) (becomeRoot w)

/-- `read_by_owner`. -/
def readByOwner (rq : SvcReq) (buf : Stat) : M L R Unit := accessByOwner w 4 rq buf

/-- `write_by_owner`. -/
def writeByOwner (rq : SvcReq) (buf : Stat) : M L R Unit := accessByOwner w 2 rq buf

end

/-! ## Footprints -/

/-- The calls with which the daemon changes its identity. -/
def SysCall.setsId : SysCall → Bool
  | seteuid _ | setegid _ | setgroups _ => true
  | _ => false

theorem SysCall.setsId_calm {c : SysCall} (h : c.setsId = true) : c.mutates = false := by
  cases c <;> first | rfl | cases h

section
variable {L R : Type} {w : World L R} {E : Event → Prop}
  {r : Server L R → Server L R → Prop} [OwnFrame r] [Allows w E r]

open Prog (Frame)

theorem sys_kernelOnly (c : SysCall) : Frame KernelOnly (sys w c) := by
  intro s
  obtain ⟨s', h, hk, _⟩ := sys_ends (w := w) c s
  rw [h]
  exact hk

theorem becomeRoot_kernelOnly : Frame KernelOnly (becomeRoot w) :=
  .bind (sys_kernelOnly _) fun _ => .bind (sys_kernelOnly _) fun _ => .pure _

/-- `switch_to_root` returns, and stays on the kernel's side. -/
theorem switchToRoot_ends (s : Server L R) :
    ∃ s', switchToRoot w s = (.ok (), s') ∧ KernelOnly s s' := by
  have hframe : Frame KernelOnly (switchToRoot w) :=
    .bind .get fun _ => .when fun _ => becomeRoot_kernelOnly
  have hok : (switchToRoot w s).1 = .ok () := by
    rw [switchToRoot, Prog.get_bind_run, Prog.when, Prog.ite_run]
    split
    · obtain ⟨s1, h1, _⟩ := sys_ends (w := w) (.setegid 0) s
      obtain ⟨s2, h2, _⟩ := sys_ends (w := w) (.seteuid 0) s1
      rw [becomeRoot, Prog.bind_ok h1, Prog.bind_ok h2]
      rfl
    · rfl
  exact ⟨_, Prod.ext hok rfl, hframe s⟩

section
variable (hE : ∀ c : SysCall, c.setsId = true → E (.sys c))

include hE

theorem becomeRoot_frame : Frame r (becomeRoot w) :=
  .bind (sys_frame (hE _ rfl)) fun _ => .bind (sys_frame (hE _ rfl)) fun _ => .pure _

theorem switchToRoot_frame : Frame r (switchToRoot w) :=
  .bind .get fun _ => .when fun _ => becomeRoot_frame hE

theorem switchGroups_frame : Frame r (switchGroups w) :=
  .bind (modify_frame fun _ => ⟨rfl, rfl, rfl, rfl, rfl, rfl⟩) fun _ =>
    .bind .get fun _ => sys_frame (hE _ rfl)

theorem switchUser_frame (rq : SvcReq) : Frame r (switchUser w rq) := by
  refine .bind .get fun s => .ite (fun _ => .pure _) fun _ => .ite (fun _ => ?_) fun _ => ?_
  · exact modify_frame fun _ => ⟨rfl, rfl, rfl, rfl, rfl, rfl⟩
  · refine .bind (becomeRoot_frame hE) fun _ => .bind (sys_frame (hE _ rfl)) fun gid => ?_
    refine .bind (switchGroups_frame hE) fun aid => .bind (sys_frame (hE _ rfl)) fun uid => ?_
    exact .when fun _ => .stop _

end

section
variable (hE : ∀ c : SysCall, c.mutates = false → E (.sys c))

include hE

theorem readExecutable_frame (rq : SvcReq) (buf : Stat) :
    Frame r (readExecutable w rq buf) :=
  .bind .get fun _ => .when fun _ => becomeRoot_frame fun c hc => hE c (SysCall.setsId_calm hc)

theorem accessByOwner_frame (b : Nat) (rq : SvcReq) (buf : Stat) :
    Frame r (accessByOwner w b rq buf) :=
  .bind .get fun _ => .when fun _ => becomeRoot_frame fun c hc => hE c (SysCall.setsId_calm hc)

end

end

end NfsRods
