import NfsRods.Serve
import NfsRods.Proof.Private

/-!
# One iRODS name per handle

GETATTR, READ and READDIR cut the export's path and the caller's id off the path a handle stands
for; ACCESS, SETATTR and WRITE cut them off the mirror's path that `getRealPathNFS` makes of it.

* `names_agree_iff`: both are the same name, cut off within the path, exactly when nothing is cut
  off but the export's path, or the path contains the caller's directory already.
-/

namespace NfsRods

open CStr

section
variable {L R : Type} (w : World L R)

/-- How many bytes `getIRODSpathGetAttr` cuts off. -/
def cutLength (e : CStr) (uid : UInt32) : Nat :=
  if publicPath w e then e.length else (userDir e uid).length

/-- The name relative to the caller's collection that ACCESS, SETATTR and WRITE use. -/
def mirrorName (path : CStr) (uid : UInt32) : M L R CStr := do
  let real ← getRealPathNFS w path uid
  getIRODSpathGetAttr w real uid

/-- In state `s`, behind `PREP`, every procedure derives one name from `path`. -/
structure OneName (s : Server L R) (path : CStr) (uid : UInt32) : Prop where
  /-- `substring` starts at the end of the path at the latest. -/
  start : cutLength w (exportPath s) uid ≤ path.length
  /-- GETATTR, READ and READDIR on one side, ACCESS, SETATTR and WRITE on the other. -/
  relative : (getIRODSpathGetAttr w path uid s).1 = (mirrorName w path uid s).1
  absolute : (rodsName w path uid s).1 =
    ((getRealPathNFS w path uid >>= fun real => rodsName w real uid) s).1

end

section
variable {L R : Type} {w : World L R} {s s' : Server L R} {e : CStr} {uid : UInt32}

theorem cut_append (e x : CStr) : cut w (e ++ x) e.length = x := by
  rw [cut, if_pos (by simp), List.drop_left]

theorem length_lt_userDir (e : CStr) (uid : UInt32) : e.length < (userDir e uid).length := by
  simp [userDir, root]

theorem publicPath_ne (h : ¬ publicPath w e = true) : publicPath w e = false := by simpa using h

/-- A path with the caller's directory in it is left alone, and so is every path of a public
export. -/
theorem realPath_self {p : CStr} (h : publicPath w e = true ∨ strstr p (userDir e uid) = true) :
    realPath w e uid p = p := by
  unfold realPath
  split
  · rfl
  · rw [if_pos (h.resolve_left ‹_›)]

theorem realPath_insert {x : CStr} (h : publicPath w e = false)
    (hn : strstr (e ++ x) (userDir e uid) = false) :
    realPath w e uid (e ++ x) = userDir e uid ++ x := by
  rw [realPath, h, if_neg Bool.false_ne_true, hn, if_neg Bool.false_ne_true, cut_append]

theorem irodsPath_eq_cut (p : CStr) : irodsPath w e uid p = cut w p (cutLength w e uid) := by
  unfold irodsPath cutLength
  split <;> rfl

/-- The two relative names of a path that starts with the export's. -/
theorem irodsPath_agree_iff {p : CStr} (he : e <+: p) :
    (cutLength w e uid ≤ p.length ∧ irodsPath w e uid p = irodsPath w e uid (realPath w e uid p)) ↔
      publicPath w e = true ∨ strstr p (userDir e uid) = true := by
  obtain ⟨x, rfl⟩ := he
  constructor
  · rintro ⟨hlen, heq⟩
    by_contra hn
    rw [not_or] at hn
    have hpub := publicPath_ne hn.1
    have hstr : strstr (e ++ x) (userDir e uid) = false := by simpa using hn.2
    rw [cutLength, hpub, if_neg Bool.false_ne_true] at hlen
    -- the mirror's name has all of `x`, the other one lacks the length of the caller's directory
    rw [realPath_insert hpub hstr, irodsPath, irodsPath, hpub, if_neg Bool.false_ne_true,
      if_neg Bool.false_ne_true, cut_append, cut, if_pos hlen] at heq
    have hl := congrArg List.length heq
    have hu := length_lt_userDir e uid
    simp only [List.length_drop, List.length_append] at hl hlen
    omega
  · intro h
    refine ⟨?_, by rw [realPath_self h]⟩
    unfold cutLength
    split
    · simp
    · exact (strstr_iff.1 (h.resolve_left ‹_›)).length_le

/-- The export a request is served under is a string prefix of its path. -/
theorem prep_prefix {fh : NfsFh3} {rq : SvcReq} {path : CStr}
    (h : prep w fh rq s = (.ok (.ok path), s')) : exportPath s' <+: path := by
  obtain ⟨e, he⟩ := prep_path h
  have hp := he
  rw [(prep_ok h).1] at hp
  rw [exportPath, he]
  exact exportsOptions_prefix hp

theorem mirrorName_ends (h : s.exports.path = some e) (p : CStr) (uid : UInt32) :
    Prog.Ends Tacit (mirrorName w p uid) s (.ok (irodsPath w e uid (realPath w e uid p))) :=
  (getRealPathNFS_ends h p uid).bind fun _ h1 =>
    getIRODSpathGetAttr_ends (by rw [h1.exports, h]) _ _

/-- **All procedures act on one iRODS object** for a path `PREP` lets them have exactly when the
export is public or the path contains the caller's directory. -/
theorem names_agree_iff {fh : NfsFh3} {rq : SvcReq} {path : CStr}
    (hp : prep w fh rq s = (.ok (.ok path), s')) : OneName w s' path rq.uid ↔
      publicPath w (exportPath s') = true ∨
        strstr path (userDir (exportPath s') rq.uid) = true := by
  obtain ⟨e, he⟩ := prep_path hp
  have hexp : exportPath s' = e := by rw [exportPath, he]; rfl
  have hpre : e <+: path := hexp ▸ prep_prefix hp
  obtain ⟨_, hd, _⟩ := getIRODSpathGetAttr_ends (w := w) he path rq.uid
  obtain ⟨_, hm, _⟩ := mirrorName_ends (w := w) he path rq.uid
  rw [hexp, ← irodsPath_agree_iff hpre]
  constructor
  · intro h
    have hrel := h.relative
    rw [hd, hm] at hrel
    exact ⟨hexp ▸ h.start, Except.ok.inj hrel⟩
  · rintro ⟨hstart, hrel⟩
    refine ⟨hexp ▸ hstart, by rw [hd, hm, hrel], ?_⟩
    obtain ⟨_, hn, _⟩ := rodsName_ends (w := w) he path rq.uid
    obtain ⟨s1, h1, t1⟩ := getRealPathNFS_ends (w := w) he path rq.uid
    obtain ⟨_, hn', _⟩ := rodsName_ends (w := w) (s := s1) (by rw [t1.exports, he])
      (realPath w e rq.uid path) rq.uid
    rw [hn, Prog.bind_ok h1, hn', hrel]

end

/-! ## User 1 under a private export -/

/-- A daemon that remembers a handle of `/e/1/x`. -/
def rememberingServer : Server Sandbox.Kernel Sandbox.Grid :=
  { Sandbox.server [Sandbox.item (lit "/e") true]
      { files := [(lit "/e/1/x", { dev := 1, ino := 5, mode := 0o100600 })] } {} with
    fh := FhCache.add {} 1 5 (lit "/e/1/x") }

def userReq : SvcReq := { remote := 1, uid := 1, gid := 1 }

/-- The handle of `/e/1/x`. -/
def xHandle : NfsFh3 :=
  { dataLen := 36, obj := { dev := 1, ino := 5, gen := 5, len := 3, inos := [2, 3, 5] } }

/-- `/e/1/x` has one name. -/
theorem names_agree_x :
    OneName privateWorld (prep privateWorld xHandle userReq rememberingServer).2 (lit "/e/1/x") 1 :=
  have hp : prep privateWorld xHandle userReq rememberingServer = (.ok (.ok (lit "/e/1/x")), _) :=
    rfl
  (names_agree_iff hp).2 (.inr (by decide))

/-- The export's own directory `/e` has two: the id is cut off where there is none. -/
theorem names_differ_root :
    (prep privateWorld (Sandbox.handle (Sandbox.item (lit "/e") true)) userReq
      rememberingServer).1 = .ok (.ok (lit "/e")) ∧
    ¬ OneName privateWorld
      (prep privateWorld (Sandbox.handle (Sandbox.item (lit "/e") true)) userReq
        rememberingServer).2 (lit "/e") 1 :=
  ⟨rfl, fun h => absurd h.start (by decide)⟩

end NfsRods
