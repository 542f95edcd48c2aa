import NfsRods.Proof.Squash
import NfsRods.Proof.Credentials

/-!
# Groups as judged and as used

`has_group` decides for ACCESS and for the executable and owner rules whether the caller is in a
group; `switch_user` and `switch_groups` set the groups the local calls are made with. The one
squashes the caller's own group to `squash_gid`, the other to the anonymous group of the export, and
only 32 of the groups in the credentials are set.

* `switchUser_sets`: the groups that are set, and what the request's list is then.
* `groups_agree_iff`: for which requests the groups judged are the groups used.
-/

namespace NfsRods

open CStr
open Prog (Frame)

section
variable {L R : Type}

/-- An id that the options in force squash. -/
def Squashes (v : ExportVars) (id : UInt32) : Prop :=
  v.bit (·.allSquash) = true ∨ v.bit (·.noRootSquash) = false ∧ id = 0

instance (v : ExportVars) (id : UInt32) : Decidable (Squashes v id) :=
  inferInstanceAs (Decidable (_ ∨ _))

/-- The group that `has_group` and `switch_groups` take a group in the credentials for. -/
def asGroup (s : Server L R) (v : ExportVars) (g : UInt32) : UInt32 :=
  mangle { s with exports := v } g s.squashGid

/-- The group that `get_gid` squashes to. -/
def anonymousGid (s : Server L R) (v : ExportVars) : UInt32 :=
  squashId v.lastAnongid s.squashGid

/-- The groups judged are the groups used. The credentials are `AUTH_UNIX`. The caller's own group
is not squashed, or to the same group by both routines, or both groups it is squashed to are among
the caller's other groups. No group behind the 32nd is one that has not been set. -/
structure SameGroups (s : Server L R) (v : ExportVars) (rq : SvcReq) : Prop where
  flavor : rq.flavor = .unix
  own : ¬ Squashes v rq.gid ∨ anonymousGid s v = s.squashGid ∨
    s.squashGid ∈ (rq.gids.take 32).map (asGroup s v) ∧
      anonymousGid s v ∈ rq.gids.map (asGroup s v)
  rest : ∀ g ∈ rq.gids.drop 32, asGroup s v g = (if Squashes v rq.gid then anonymousGid s v
    else rq.gid) ∨ asGroup s v g ∈ (rq.gids.take 32).map (asGroup s v)

theorem mangle_of_canSwitch {s : Server L R} (hc : s.canSwitch = true) (id squash : UInt32) :
    mangle s id squash = if Squashes s.exports id then squash else id := by
  unfold mangle
  by_cases hs : Squashes s.exports id
  · rw [if_pos hs]
    rcases hs with ha | ⟨hr, rfl⟩
    · simp [ha]
    · simp [hr]
  · rw [if_neg hs]
    obtain ⟨ha, hr⟩ := not_or.1 hs
    by_cases hn : s.exports.bit (·.noRootSquash) = true
    · simp [hc, ha, hn]
    · have hid : id ≠ 0 := fun h0 => hr ⟨by simpa using hn, h0⟩
      simp [hc, ha, hn, hid]

/-- What is squashed stays what it is squashed to. -/
theorem mangle_mangle {s : Server L R} (hc : s.canSwitch = true) (id squash : UInt32) :
    mangle s (mangle s id squash) squash = mangle s id squash := by
  rw [mangle_of_canSwitch hc, mangle_of_canSwitch hc]
  by_cases hs : Squashes s.exports id
  · rw [if_pos hs, ite_self]
  · rw [if_neg hs, if_neg hs]

end

/-! ## What is set -/

section
variable {L R : Type} {w : World L R}

/-- `PREP` comes to `switch_user` with the options for the path in force. -/
theorem prep_switches {fh : NfsFh3} {rq : SvcReq} {path : CStr} {s s1 : Server L R}
    (h : prep w fh rq s = (.ok (.ok path), s1)) :
    ∃ o t, switchUser w rq o = (.ok (), s1) ∧ o.exports = governing s rq path ∧
      o.canSwitch = s.canSwitch ∧ o.squashGid = s.squashGid ∧ o.gids = s.gids ∧
      o.trace = s.trace ++ t := by
  obtain ⟨s2, s3, v, h2, h3, hv, -, -, -, h4⟩ := prep_inv h
  have k2 : KernelOnly s s2 :=
    Frame.ok (.bind .get fun _ => .when fun _ => becomeRoot_kernelOnly) h2
  obtain ⟨⟨t, ht, -⟩, -⟩ : Foot w (fun _ => True) _ _ :=
    (switchToRoot_frame (E := fun _ => True) fun _ _ => trivial).ok h2
  obtain ⟨_, _, _, rfl⟩ := (fhDecomp_caches fh).ok h3
  refine ⟨_, t, h4, hv, ?_, ?_, ?_, ht⟩
  · show s2.canSwitch = _
    rw [k2]
  · show s2.squashGid = _
    rw [k2]
  · show s2.gids = _
    rw [k2]

/-- The identity that `switch_user` takes on, and the group list it leaves in the request. -/
theorem switchUser_sets {rq : SvcReq} {s s' : Server L R} (hs : Switches w s)
    (h : switchUser w rq s = (.ok (), s')) :
    KernelOnly { s with gids := mangledGids s ++ s.gids.drop 32 } s' ∧
      s'.trace = s.trace ++ [.sys (.setegid 0), .sys (.seteuid 0)] ++
        [.sys (.setegid (getGid s rq)), .sys (.setgroups (mangledGids s)),
          .sys (.seteuid (getUid s rq))] := by
  have hfree : (w.conf.singleuser || w.getuid != 0) = false := by simp [hs.2.1, hs.2.2]
  obtain ⟨s1, h1, k1, -, t1⟩ := sys_step (w := w) (.setegid 0) s
  obtain ⟨s2, h2, k2, -, t2⟩ := sys_step (w := w) (.seteuid 0) s1
  obtain ⟨s3, h3, k3, -, t3⟩ := sys_step (w := w) (.setegid (getGid s rq)) s2
  have k : KernelOnly s s3 := trans_of KernelOnly k1 (trans_of KernelOnly k2 k3)
  obtain ⟨s4, h4, k4, -, t4⟩ := sys_step (w := w) (.setgroups (mangledGids s))
    { s3 with gids := mangledGids s ++ s.gids.drop 32 }
  obtain ⟨s5, h5, k5, -, t5⟩ := sys_step (w := w) (.seteuid (getUid s rq)) s4
  have hgids : s3.gids = s.gids := by rw [k]
  have hroot : becomeRoot w s = (.ok (), s2) := by
    rw [becomeRoot, Prog.bind_ok h1, Prog.bind_ok h2]
    rfl
  have hgroups : switchGroups w s3 =
      (.ok (sysResult w (.setgroups (mangledGids s)) s3.kernel), s4) := by
    rw [switchGroups, Prog.modify_bind_run, Prog.get_bind_run, k.mangledGids, hgids,
      take_mangledGids]
    exact h4
  rw [switchUser, Prog.get_bind_run, hs.1, hfree] at h
  simp only [Bool.not_true, Bool.false_eq_true, ↓reduceIte] at h
  rw [Prog.bind_ok hroot, Prog.bind_ok h3, Prog.bind_ok hgroups, Prog.bind_ok h5] at h
  obtain rfl : s5 = s' := by
    unfold Prog.when at h
    split at h
    · cases h
    · cases h
      rfl
  refine ⟨trans_of KernelOnly ?_ (trans_of KernelOnly k4 k5), ?_⟩
  · rw [k]
    rfl
  · rw [t5, t4, t3, t2, t1]
    simp

/-! ## What is judged -/

theorem mangle_congr {s s' : Server L R} (hc : s'.canSwitch = s.canSwitch)
    (he : s'.exports = s.exports) (id squash : UInt32) :
    mangle s' id squash = mangle s id squash := by
  rw [mangle, mangle, hc, he]

/-- `has_group` after the first 32 groups have been overwritten: all of them, and the caller's own,
squashed to `squash_gid`. -/
theorem hasGroup_iff {s s1 : Server L R} {v : ExportVars} {rq : SvcReq} (hc : s.canSwitch = true)
    (hc1 : s1.canSwitch = s.canSwitch) (he : s1.exports = v) (hq : s1.squashGid = s.squashGid)
    (hg : s1.gids = (rq.gids.take 32).map (asGroup s v) ++ rq.gids.drop 32) (g : UInt32) :
    hasGroup s1 g rq = true ↔
      rq.flavor = .unix ∧ (asGroup s v rq.gid = g ∨ g ∈ rq.gids.map (asGroup s v)) := by
  have hm (id : UInt32) : mangle s1 id s1.squashGid = asGroup s v id := by
    rw [hq]
    exact mangle_congr (s := { s with exports := v }) hc1 he id s.squashGid
  have hidem : asGroup s v ∘ asGroup s v = asGroup s v := by
    funext id
    exact mangle_mangle (s := { s with exports := v }) hc id s.squashGid
  have hall : s1.gids.map (asGroup s v) = rq.gids.map (asGroup s v) := by
    rw [hg, List.map_append, List.map_map, hidem, ← List.map_append, List.take_append_drop]
  unfold hasGroup
  by_cases hf : rq.flavor = .unix
  · rw [if_pos hf, ← hall]
    simp [hf, hm]
  · simp [hf]

/-- When two ways to take a group, and some more groups on one side, make no difference. -/
theorem same_members_iff {α : Type} {own set : α} {first rest : List α} :
    (∀ g, (own = g ∨ g ∈ first ++ rest) ↔ (g = set ∨ g ∈ first)) ↔
      (own = set ∨ own ∈ first ∧ set ∈ first ++ rest) ∧ ∀ g ∈ rest, g = set ∨ g ∈ first := by
  constructor
  · intro h
    refine ⟨?_, fun g hg => (h g).1 (.inr (List.mem_append_right _ hg))⟩
    rcases (h own).1 (.inl rfl) with heq | hown
    · exact .inl heq
    · rcases (h set).2 (.inl rfl) with heq | hset
      · exact .inl heq
      · exact .inr ⟨hown, hset⟩
  · rintro ⟨hown, hrest⟩ g
    constructor
    · rintro (rfl | hg)
      · exact hown.imp id And.left
      · exact (List.mem_append.1 hg).elim .inr (hrest g)
    · rintro (rfl | hg)
      · exact hown.imp id And.right
      · exact .inr (List.mem_append_left _ hg)

/-- `o` is the server at `switch_user`, `s1` the server after it. -/
theorem agree_iff {s o s1 : Server L R} {v : ExportVars} {rq : SvcReq} (hs : s.canSwitch = true)
    (hv : o.exports = v) (hc : o.canSwitch = s.canSwitch) (hq : o.squashGid = s.squashGid)
    (hg : o.gids = rq.gids)
    (k1 : KernelOnly { o with gids := mangledGids o ++ o.gids.drop 32 } s1) :
    (∀ g, hasGroup s1 g rq = true ↔ g = getGid o rq ∨ g ∈ mangledGids o) ↔ SameGroups s v rq := by
  have hm (id squash : UInt32) : mangle o id squash = mangle { s with exports := v } id squash :=
    mangle_congr (s := { s with exports := v }) hc hv id squash
  have hset : mangledGids o = (rq.gids.take 32).map (asGroup s v) := by
    rw [mangledGids, hg, hq]
    exact List.map_congr_left fun id _ => hm id s.squashGid
  have hjudge (g : UInt32) : hasGroup s1 g rq = true ↔
      rq.flavor = .unix ∧ (asGroup s v rq.gid = g ∨ g ∈ rq.gids.map (asGroup s v)) := by
    refine hasGroup_iff hs ?_ ?_ ?_ ?_ g
    · rw [k1]
      exact hc
    · rw [k1]
      exact hv
    · rw [k1]
      exact hq
    · rw [k1, ← hset, ← hg]
  by_cases hf : rq.flavor = .unix
  · have hown : getGid o rq = if Squashes v rq.gid then anonymousGid s v else rq.gid := by
      rw [getGid, if_pos hf, hv, hq, hm]
      exact mangle_of_canSwitch (s := { s with exports := v }) hs rq.gid (anonymousGid s v)
    have hall : rq.gids.map (asGroup s v) =
        (rq.gids.take 32).map (asGroup s v) ++ (rq.gids.drop 32).map (asGroup s v) := by
      rw [← List.map_append, List.take_append_drop]
    have hjudged : asGroup s v rq.gid = if Squashes v rq.gid then s.squashGid else rq.gid :=
      mangle_of_canSwitch (s := { s with exports := v }) hs rq.gid s.squashGid
    simp only [hjudge, hf, true_and, hset, hown]
    rw [hall, same_members_iff, hjudged, ← hall]
    have hrest : (∀ g ∈ (rq.gids.drop 32).map (asGroup s v),
          g = (if Squashes v rq.gid then anonymousGid s v else rq.gid) ∨
            g ∈ (rq.gids.take 32).map (asGroup s v)) ↔
        ∀ g ∈ rq.gids.drop 32, asGroup s v g =
          (if Squashes v rq.gid then anonymousGid s v else rq.gid) ∨
            asGroup s v g ∈ (rq.gids.take 32).map (asGroup s v) := List.forall_mem_map
    rw [hrest]
    by_cases hsq : Squashes v rq.gid
    · simp only [hsq, ↓reduceIte]
      constructor
      · rintro ⟨hown, hrest⟩
        exact ⟨hf, .inr (hown.imp Eq.symm id), by simpa only [hsq, ↓reduceIte] using hrest⟩
      · intro h
        refine ⟨(h.own.resolve_left (not_not.2 hsq)).imp Eq.symm id, ?_⟩
        simpa only [hsq, ↓reduceIte] using h.rest
    · simp only [hsq, ↓reduceIte, true_or, true_and]
      constructor
      · intro hrest
        exact ⟨hf, .inl hsq, by simpa only [hsq, ↓reduceIte] using hrest⟩
      · intro h
        simpa only [hsq, ↓reduceIte] using h.rest
  · constructor
    · intro h
      exact absurd ((hjudge _).1 ((h (getGid o rq)).2 (.inl rfl))).1 hf
    · intro h
      exact absurd h.flavor hf

/-- **The groups judged are the groups used** exactly when the credentials are `AUTH_UNIX`, both
routines take the caller's own group for groups the other has too, and no group behind the 32nd is
new. The groups used are those `PREP` has set last. -/
theorem groups_agree_iff (w : World L R) (fh : NfsFh3) (rq : SvcReq) (s s1 : Server L R)
    (path : CStr) (hs : Switches w s)
    (h : prep w fh rq (enter rq s) = (.ok (.ok path), s1)) :
    ∃ t egid groups uid, s1.trace =
        s.trace ++ t ++ [.sys (.setegid egid), .sys (.setgroups groups), .sys (.seteuid uid)] ∧
      ((∀ g, hasGroup s1 g rq = true ↔ g = egid ∨ g ∈ groups) ↔
        SameGroups s (governing s rq path) rq) := by
  obtain ⟨o, t, hswitch, hv, hc, hq, hg, ht⟩ := prep_switches h
  obtain ⟨k1, t1⟩ := switchUser_sets ⟨hc.trans hs.1, hs.2⟩ hswitch
  refine ⟨t ++ [.sys (.setegid 0), .sys (.seteuid 0)], getGid o rq, mangledGids o, getUid o rq,
    ?_, ?_⟩
  · rw [t1, ht, show (enter rq s).trace = s.trace from rfl, List.append_assoc s.trace]
  · exact agree_iff hs.1 hv hc hq hg k1

end

/-! ## Groups in the small world -/

/-- An export that squashes root's group to group 99. -/
def anonItem : EItem :=
  { Sandbox.item (lit "/e") true with
    hosts := [{ options := { rw := true, removable := true }, anongid := 99 }] }

/-- A caller whose group is squashed. -/
def ofWheel : SvcReq := { remote := 1, uid := 7, gid := 0 }

/-- A caller with groups of his own. -/
def ofStaff : SvcReq := { remote := 1, uid := 7, gid := 7, gids := [7, 20] }

theorem anonItem_prep (rq : SvcReq) (h : rq = ofWheel ∨ rq = ofStaff) :
    prep squashWorld (Sandbox.handle anonItem) rq
        (enter rq (Sandbox.server [anonItem] {} {})) =
      (.ok (.ok (lit "/e")), (prep squashWorld (Sandbox.handle anonItem) rq
        (enter rq (Sandbox.server [anonItem] {} {}))).2) := by
  rcases h with rfl | rfl <;> exact Prod.ext rfl rfl

/-- Groups that are not squashed are judged as they are used. -/
theorem groups_agree_staff :
    ∃ s1 t egid groups uid, s1.trace =
        t ++ [.sys (.setegid egid), .sys (.setgroups groups), .sys (.seteuid uid)] ∧
      prep squashWorld (Sandbox.handle anonItem) ofStaff
        (enter ofStaff (Sandbox.server [anonItem] {} {})) = (.ok (.ok (lit "/e")), s1) ∧
      ∀ g, hasGroup s1 g ofStaff = true ↔ g = egid ∨ g ∈ groups := by
  obtain ⟨t, egid, groups, uid, ht, hiff⟩ := groups_agree_iff squashWorld (Sandbox.handle anonItem)
    ofStaff (Sandbox.server [anonItem] {} {}) _ (lit "/e") ⟨rfl, rfl, rfl⟩
    (anonItem_prep ofStaff (.inr rfl))
  refine ⟨_, t, egid, groups, uid, ht, anonItem_prep ofStaff (.inr rfl), hiff.2 ?_⟩
  exact ⟨rfl, .inl (by decide +kernel), fun _ hg => absurd hg List.not_mem_nil⟩

/-- Root's group is 99 to the local file system, but `has_group` does not find the caller in it. -/
theorem groups_disagree_wheel :
    ∃ s1 t, prep squashWorld (Sandbox.handle anonItem) ofWheel
        (enter ofWheel (Sandbox.server [anonItem] {} {})) = (.ok (.ok (lit "/e")), s1) ∧
      Switches squashWorld (Sandbox.server [anonItem] {} {}) ∧
      s1.trace = t ++ [.sys (.setegid 99), .sys (.setgroups []), .sys (.seteuid 7)] ∧
      hasGroup s1 99 ofWheel = false := by
  refine ⟨_, [.sys (.setegid 0), .sys (.seteuid 0), .sys (.setegid 0), .sys (.seteuid 0)],
    anonItem_prep ofWheel (.inl rfl), ⟨rfl, rfl, rfl⟩, ?_⟩
  decide +kernel

end NfsRods
