import NfsRods.Nfs.Frame
import NfsRods.Sandbox

/-!
# Private collections

With private collections a caller's paths are translated into his own directory of the mirror,
`E/u`, and into his own iRODS collection, `/ZONE/home/n`. The test whether a path has already been
translated looks for `E/u` anywhere in it.

* `translation_confined_iff`: translation stays in the caller's directory and collection exactly on
  the paths of `Fits`, and there two callers are never translated to the same path.
-/

namespace NfsRods

open CStr

/-- `l` is the directory `d` or below it, by its string. -/
def Under (d l : CStr) : Prop := l = d ∨ d ++ root <+: l

instance (d l : CStr) : Decidable (Under d l) := by unfold Under; infer_instance

/-- A path that contains the caller's directory starts with it as a directory, and one that does not
is the export's path or goes on with a separator behind it. -/
def Fits (e : CStr) (u : UInt32) (p : CStr) : Prop :=
  if strstr p (userDir e u) then Under (userDir e u) p else Under e p

instance (e : CStr) (u : UInt32) (p : CStr) : Decidable (Fits e u p) := by
  unfold Fits; infer_instance

/-- What follows a directory in a path below it is empty or starts with a separator. -/
theorem under_append_iff {d x : CStr} : Under d (d ++ x) ↔ x = [] ∨ root <+: x := by
  unfold Under
  rw [List.prefix_append_right_inj]
  constructor
  · rintro (h | h)
    · exact .inl (List.append_right_eq_self.1 h)
    · exact .inr h
  · rintro (rfl | h)
    · exact .inl (List.append_nil d)
    · exact .inr h

theorem Under.exists_eq {d l : CStr} (h : Under d l) : ∃ x, l = d ++ x := by
  rcases h with rfl | ⟨x, rfl⟩
  · exact ⟨[], by simp⟩
  · exact ⟨root ++ x, by simp⟩

/-- A path is under one of two directories that differ in their last component only. -/
theorem under_disjoint {e a b l : CStr} (ha : slash ∉ a) (hb : slash ∉ b)
    (h : Under (e ++ root ++ a) l) (h' : Under (e ++ root ++ b) l) : a = b := by
  -- up to the next separator, or the end, what follows `e/` is the component
  have comp : ∀ {c x : CStr}, slash ∉ c → (x = [] ∨ root <+: x) →
      (c ++ x).takeWhile (· ≠ slash) = c := by
    rintro c x hc hx
    have hall : ∀ y ∈ c, decide (y ≠ slash) = true := fun y hy => by
      simpa using fun h : y = slash => hc (h ▸ hy)
    rw [List.takeWhile_append_of_pos hall]
    rcases hx with rfl | ⟨x, rfl⟩
    · simp
    · simp [root]
  obtain ⟨x, hx⟩ := h.exists_eq
  obtain ⟨y, hy⟩ := h'.exists_eq
  rw [hx, under_append_iff] at h
  rw [hy, under_append_iff] at h'
  have heq : a ++ x = b ++ y := by
    rw [hx, List.append_assoc (e ++ root), List.append_assoc (e ++ root)] at hy
    exact List.append_cancel_left hy
  rw [← comp ha h, heq, comp hb h']

section
variable {L R : Type} {w : World L R} {e : CStr} {u : UInt32}

/-- Under a private export the cut off part of the export's path is replaced. -/
theorem under_realPath_iff (hp : publicPath w e = false) {p : CStr} (hw : Within e p)
    (habs : root <+: p) : Under (userDir e u) (realPath w e u p) ↔ Fits e u p := by
  unfold realPath Fits
  rw [hp, if_neg Bool.false_ne_true]
  split
  · exact Iff.rfl
  · have hpre : e <+: p := by
      rcases hw with rfl | rfl | h
      · exact List.prefix_rfl
      · exact habs
      · exact (List.prefix_append e root).trans h
    obtain ⟨x, rfl⟩ := hpre
    rw [cut, if_pos (by simp), List.drop_left, under_append_iff, under_append_iff]

/-- The iRODS name is in the caller's collection when the mirror's path is in his directory. -/
theorem under_rodsName (hp : publicPath w e = false) {l home : CStr}
    (h : Under (userDir e u) l) : Under home (home ++ irodsPath w e u l) := by
  obtain ⟨x, rfl⟩ := h.exists_eq
  rw [under_append_iff] at h ⊢
  rwa [irodsPath, hp, if_neg Bool.false_ne_true, cut, if_pos (by simp), List.drop_left]

/-- **Confinement.** In private mode, for a path `p` at or below the export `e`: the path and the
name that `getRealPathNFS`, `getIRODSpathGetAttr` and `getRodsPath` compute are in the caller's
directory and collection if and only if `Fits e u p`; on such paths two callers are never
translated to the same path. -/
theorem translation_confined_iff {s : Server L R} (hs : s.exports.path = some e)
    (hp : publicPath w e = false) {z n : CStr} (hz : w.conf.zone = some z)
    (hn : w.getpwuid u = some n) {p : CStr} (hw : Within e p) (habs : root <+: p) :
    (∃ l name, (getRealPathNFS w p u s).1 = .ok l ∧ (rodsName w l u s).1 = .ok name ∧
      ((Under (userDir e u) l ∧ Under (root ++ z ++ lit "/home/" ++ n) name) ↔ Fits e u p)) ∧
    (Fits e u p → ∀ v q l, v ≠ u → Within e q → root <+: q → Fits e v q →
      (getRealPathNFS w p u s).1 = .ok l → (getRealPathNFS w q v s).1 ≠ .ok l) := by
  have value : ∀ v q, (getRealPathNFS w q v s).1 = .ok (realPath w e v q) := fun v q => by
    obtain ⟨_, h, _⟩ := getRealPathNFS_ends (w := w) hs q v
    rw [h]
  have hhome : rodsHome w e u = .ok (root ++ z ++ lit "/home/" ++ n) := by
    simp [rodsHome, hz, hp, hn]
  constructor
  · refine ⟨realPath w e u p, root ++ z ++ lit "/home/" ++ n ++ irodsPath w e u (realPath w e u p),
      value u p, ?_, ?_⟩
    · obtain ⟨_, h, _⟩ := rodsName_ends (w := w) hs (realPath w e u p) u
      rw [h, rodsPath, hhome]
      rfl
    · rw [← under_realPath_iff hp hw habs]
      exact ⟨fun h => h.1, fun h => ⟨h, under_rodsName hp h⟩⟩
  · intro hf v q l hv hwq hq hfq hl hl'
    rw [value, Except.ok.injEq] at hl hl'
    rw [← under_realPath_iff hp hw habs, hl] at hf
    rw [← under_realPath_iff hp hwq hq, hl'] at hfq
    have := under_disjoint (slash_not_mem_decimalInt _) (slash_not_mem_decimalInt _) hfq hf
    exact hv (toCInt_inj (decimalInt_inj this))

end

/-! ## Two users under one export -/

/-- Users 1 and 10 with private collections. -/
def privateWorld : World Sandbox.Kernel Sandbox.Grid :=
  Sandbox.world { zone := some (lit "z"), privateColl := true } [(1, lit "ann"), (10, lit "bob")]

/-- The daemon while it serves a request under the export `/e`. -/
def privateServer : Server Sandbox.Kernel Sandbox.Grid :=
  { kernel := {}, rods := {}, exports := { opts := some {}, path := some (lit "/e") } }

/-- User 1's `/e/x` becomes `/e/1/x`. -/
theorem translation_confined_ann : ∃ l name,
    (getRealPathNFS privateWorld (lit "/e/x") 1 privateServer).1 = .ok l ∧
    (rodsName privateWorld l 1 privateServer).1 = .ok name ∧
    ((Under (userDir (lit "/e") 1) l ∧ Under (lit "/z/home/ann") name) ↔
      Fits (lit "/e") 1 (lit "/e/x")) :=
  (translation_confined_iff (w := privateWorld) (s := privateServer) (e := lit "/e") (u := 1)
    (z := lit "z") (n := lit "ann") rfl rfl rfl rfl (by decide) (by decide)).1

/-- User 1 is translated into the directory of user 10, and so are the two to one path. -/
theorem translation_escapes :
    Within (lit "/e") (lit "/e/10/x") ∧
    (getRealPathNFS privateWorld (lit "/e/10/x") 1 privateServer).1 = .ok (lit "/e/10/x") ∧
    ¬ Under (userDir (lit "/e") 1) (lit "/e/10/x") ∧
    (getRealPathNFS privateWorld (lit "/e/10/x") 10 privateServer).1 = .ok (lit "/e/10/x") :=
  ⟨by decide, rfl, by decide, rfl⟩

end NfsRods
