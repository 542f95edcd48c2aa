import NfsRods.Proof.Handles
import NfsRods.Proof.MountPassword
import NfsRods.Proof.Rename

/-!
# The handle a MNT returns

The handle of a removable export point holds the fsid that `exports_options` assigns while it looks
for the directory, and is resolved to the path of the first item with that fsid. The fsid is
assigned for every item that is looked at, whether or not it lists the client, so it is that of the
item looked at last. Any other directory's handle is taken for an export point's when its device and
inode happen to be an item's fsid and 1.

* `exportsOptions_fsid`: the fsid that is assigned is that of the item reached last.
* `mnt_handle_iff`: when the next request of the client on the handle gets to the mounted directory.
-/

namespace NfsRods

open CStr

/-! ## The item reached last -/

section
variable (remote : UInt32) (p : CStr)

/-- The scan for `p` looks at the item `i` when it comes to it after the items `done`: its path is a
prefix of `p` and longer than what has been found for the client. -/
def Reached (done : List EItem) (i : EItem) : Prop :=
  i.path ≠ [] ∧ i.path <+: p ∧ ∀ j ∈ done, Matches remote p j → j.path.length < i.path.length

/-- The last item of `list` that the scan for `p` looks at. -/
def LastReached (list : List EItem) (i : EItem) : Prop :=
  ∃ done rest, list = done ++ i :: rest ∧ Reached remote p done i ∧
    ∀ pre j post, rest = pre ++ j :: post → ¬ Reached remote p (done ++ i :: pre) j

end

section
variable {remote : UInt32} {p : CStr}

variable (remote p) in
/-- `last_len` is the length of the longest item that matches. -/
theorem foldl_exportsStep_lastLen (list : List EItem) (v : ExportVars) :
    let k := list.foldl (exportsStep remote p) { vars := v.clear }
    (∀ j ∈ list, Matches remote p j → j.path.length ≤ k.lastLen) ∧
      (k.lastLen = 0 ∨ ∃ j ∈ list, Matches remote p j ∧ j.path.length = k.lastLen) := by
  induction list using List.reverseRecOn with
  | nil => exact ⟨by simp, .inl rfl⟩
  | append_singleton list a ih =>
    obtain ⟨hle, hlen⟩ := ih
    simp only [List.foldl_append, List.foldl_cons, List.foldl_nil, List.mem_append,
      List.mem_singleton]
    rcases exportsStep_cases remote p (list.foldl (exportsStep remote p) { vars := v.clear }) a with
      ⟨h, hf, hl, hp, _, _, _, hlast⟩ | ⟨_, _, hlast, hn⟩
    · rw [hlast]
      refine ⟨?_, .inr ⟨a, .inr rfl, ⟨fun h0 => ?_, hp, by rw [hf]; rfl⟩, rfl⟩⟩
      · rintro j (hj | rfl) hm
        · exact (hle j hj hm).trans hl.le
        · exact le_rfl
      · rw [h0] at hl
        cases hl
    · rw [hlast]
      refine ⟨?_, hlen.imp_right fun ⟨j, hj, hm⟩ => ⟨j, .inl hj, hm⟩⟩
      rintro j (hj | rfl) hm
      · exact hle j hj hm
      · rcases hn with hn | hn | hn
        · rw [Matches, hn] at hm
          cases hm.2.2
        · exact hn
        · exact absurd hm.2.1 hn

/-- An item is looked at when it passes the test of the scan. -/
theorem reached_iff (done : List EItem) (i : EItem) (v : ExportVars) :
    Reached remote p done i ↔
      (done.foldl (exportsStep remote p) { vars := v.clear }).lastLen < i.path.length ∧
        i.path <+: p := by
  obtain ⟨hle, hlen⟩ := foldl_exportsStep_lastLen remote p done v
  constructor
  · rintro ⟨hne, hp, hall⟩
    refine ⟨?_, hp⟩
    rcases hlen with h0 | ⟨j, hj, hm, hl⟩
    · rw [h0]
      exact List.length_pos_iff.2 hne
    · rw [← hl]
      exact hall j hj hm
  · rintro ⟨hl, hp⟩
    refine ⟨fun h0 => ?_, hp, fun j hj hm => (hle j hj hm).trans_lt hl⟩
    rw [h0] at hl
    cases hl

theorem exportsStep_fsid (k : Lookup) (i : EItem) : (exportsStep remote p k i).fsid =
    if k.lastLen < i.path.length ∧ i.path <+: p then some i.fsid else k.fsid := by
  unfold exportsStep
  split
  · split <;> rfl
  · rfl

/-- The last item reached of a list with one more item. -/
theorem lastReached_concat (list : List EItem) (a i : EItem) :
    LastReached remote p (list ++ [a]) i ↔
      (Reached remote p list a ∧ i = a) ∨
        (¬ Reached remote p list a ∧ LastReached remote p list i) := by
  constructor
  · rintro ⟨done, rest, heq, hr, hlast⟩
    rcases List.eq_nil_or_concat rest with rfl | ⟨rest, b, rfl⟩
    · obtain ⟨rfl, rfl⟩ := List.append_inj' heq rfl |>.imp_right List.singleton_inj.1
      exact .inl ⟨hr, rfl⟩
    · rw [List.concat_eq_append, ← List.cons_append, ← List.append_assoc] at heq
      obtain ⟨rfl, hab⟩ := List.append_inj' heq rfl
      obtain rfl := List.singleton_inj.1 hab
      refine .inr ⟨fun ha => hlast rest a [] (by simp) ha, done, rest, rfl, hr, ?_⟩
      rintro pre j post rfl
      exact hlast pre j (post ++ [a]) (by simp)
  · rintro (⟨ha, rfl⟩ | ⟨ha, done, rest, rfl, hr, hlast⟩)
    · exact ⟨list, [], rfl, ha, fun pre j post h => by simp at h⟩
    · refine ⟨done, rest ++ [a], by simp, hr, fun pre j post heq => ?_⟩
      rcases List.eq_nil_or_concat post with rfl | ⟨post, b, rfl⟩
      · obtain ⟨rfl, hab⟩ := List.append_inj' heq rfl
        obtain rfl := List.singleton_inj.1 hab
        exact ha
      · rw [List.concat_eq_append, ← List.cons_append, ← List.append_assoc] at heq
        exact hlast pre j post (List.append_inj' heq rfl).1

variable (remote p) in
/-- The fsid that is assigned is that of the item reached last. -/
theorem foldl_exportsStep_fsid (list : List EItem) (v : ExportVars) (f : ULong) :
    (list.foldl (exportsStep remote p) { vars := v.clear }).fsid = some f ↔
      ∃ i, LastReached remote p list i ∧ i.fsid = f := by
  induction list using List.reverseRecOn with
  | nil =>
    refine iff_of_false (by simp) ?_
    rintro ⟨_, ⟨done, rest, h, _⟩, _⟩
    simp at h
  | append_singleton list a ih =>
    simp only [List.foldl_append, List.foldl_cons, List.foldl_nil, exportsStep_fsid,
      lastReached_concat]
    by_cases ha : Reached remote p list a
    · rw [if_pos ((reached_iff list a v).1 ha)]
      simp [ha]
    · rw [if_neg fun h => ha ((reached_iff list a v).2 h)]
      simp [ha, ih]

end

/-- All items reached last have one fsid. -/
theorem LastReached.fsid_eq {remote : UInt32} {p : CStr} {list : List EItem} {i j : EItem}
    (hi : LastReached remote p list i) (hj : LastReached remote p list j) : i.fsid = j.fsid := by
  have h1 := (foldl_exportsStep_fsid remote p list {} i.fsid).2 ⟨i, hi, rfl⟩
  have h2 := (foldl_exportsStep_fsid remote p list {} j.fsid).2 ⟨j, hj, rfl⟩
  exact Option.some.inj (h1.symm.trans h2)

theorem LastReached.mem {remote : UInt32} {p : CStr} {list : List EItem} {i : EItem}
    (hi : LastReached remote p list i) : i ∈ list := by
  obtain ⟨done, rest, rfl, _⟩ := hi
  simp

/-- A lookup that finds an export assigns the fsid of the item reached last. -/
theorem exportsOptions_fsid {list : List EItem} {remote : UInt32} {p : CStr} {v : ExportVars}
    (h : (exportsOptions list remote (some p) v).vars.opts ≠ none) :
    ∃ i, LastReached remote p list i ∧ (exportsOptions list remote (some p) v).fsid =
      some i.fsid := by
  have fold : ∀ (list : List EItem) (k : Lookup), (k.vars.opts ≠ none → k.fsid ≠ none) →
      (list.foldl (exportsStep remote p) k).vars.opts ≠ none →
      (list.foldl (exportsStep remote p) k).fsid ≠ none := by
    intro list
    induction list with
    | nil => exact fun _ hk => hk
    | cons item list ih =>
      intro k hk
      refine ih _ ?_
      unfold exportsStep
      split
      · split
        · exact fun _ => by simp
        · exact fun _ => by simp
      · exact hk
  unfold exportsOptions at h ⊢
  dsimp only at h ⊢
  split at h
  · exact absurd rfl h
  · rename_i hd
    rw [if_neg hd]
    obtain ⟨f, hf⟩ := Option.ne_none_iff_exists'.1 (fold list _ (fun h => absurd rfl h) h)
    obtain ⟨i, hi, rfl⟩ := (foldl_exportsStep_fsid remote p list v f).1 hf
    exact ⟨i, hi, hf⟩

/-! ## What MNT leaves -/

/-- The entry that is given up is one of the table. -/
theorem lruScan_lt (c : FhCache) (is : List Nat) (best bestIdx : Nat) (hb : bestIdx < cacheEntries)
    (his : ∀ i ∈ is, i < cacheEntries) : c.lruScan is best bestIdx < cacheEntries := by
  induction is generalizing best bestIdx with
  | nil =>
    rw [FhCache.lruScan]
    split
    · decide
    · exact hb
  | cons i is ih =>
    have htail : ∀ j ∈ is, j < cacheEntries := fun j hj => his j (List.mem_cons_of_mem i hj)
    rw [FhCache.lruScan]
    split
    · exact ih best bestIdx hb htail
    · split
      · exact his i List.mem_cons_self
      · split
        · exact ih _ _ (his i List.mem_cons_self) htail
        · exact ih best bestIdx hb htail

/-- A path that has been added to the handle cache is found in it. -/
theorem FhCache.index_add (c : FhCache) (dev ino : ULong) (path : CStr) :
    ∃ i, (c.add dev ino path).index dev ino = some i ∧
      ((c.add dev ino path).entry i).path = path := by
  have hset : ∀ (c' : FhCache) (i : Nat), i ≤ c'.max →
      (∀ j < i, ¬ ((c'.entry j).dev = dev ∧ (c'.entry j).ino = ino)) →
      ((c'.next.set i { dev, ino, path, use := c'.next.time }).index dev ino = some i) := by
    intro c' i hi hj
    simp only [FhCache.index, List.find?_range_eq_some, FhCache.set, FhCache.next, ↓reduceIte,
      beq_self_eq_true, Bool.and_self, List.mem_range, true_and]
    refine ⟨Nat.lt_succ_of_le hi, fun j hji => ?_⟩
    rw [if_neg hji.ne]
    have hn := not_and_or.1 (hj j hji)
    simpa using hn
  have hentry : ∀ (c' : FhCache) (i : Nat),
      ((c'.next.set i { dev, ino, path, use := c'.next.time }).entry i).path = path := by
    intro c' i
    simp [FhCache.set]
  unfold FhCache.add
  cases hidx : c.index dev ino with
  | some i =>
    simp only [FhCache.index, List.find?_range_eq_some, List.mem_range] at hidx
    refine ⟨i, hset c i (Nat.le_of_lt_succ hidx.2.1) fun j hj hm => ?_, hentry c i⟩
    have := hidx.2.2 j hj
    simp [hm] at this
  | none =>
    have hno : ∀ j ≤ c.max, ¬ ((c.entry j).dev = dev ∧ (c.entry j).ino = ino) := by
      intro j hj hm
      simp only [FhCache.index, List.find?_eq_none, List.mem_range] at hidx
      exact hidx j (Nat.lt_succ_of_le hj) (by simp [hm])
    by_cases hmax : c.max < cacheEntries - 1
    · rw [FhCache.lru, if_pos hmax]
      exact ⟨c.max, hset { c with max := c.max + 1 } c.max (Nat.le_succ _)
        fun j hj => hno j hj.le, hentry _ _⟩
    · rw [FhCache.lru, if_neg hmax]
      have hle : c.lruScan (List.range cacheEntries) (2 ^ 32 - 1) 0 ≤ c.max := by
        have := lruScan_lt c (List.range cacheEntries) (2 ^ 32 - 1) 0 (by decide)
          fun i hi => List.mem_range.1 hi
        omega
      exact ⟨_, hset c _ hle fun j hj => hno j (hj.le.trans hle), hentry _ _⟩

section
variable {L R : Type} {w : World L R} {s s1 : Server L R} {rq : SvcReq} {dir : CStr} {h : Unfs3Fh}

/-- The directory is a removable export point, whose handle is made without a stat. -/
def Removable (rq : SvcReq) (s : Server L R) (dir : CStr) : Prop :=
  exportPoint s.exportList dir = true ∧ (optsOf s.exportList rq.remote dir).any (·.removable) = true

/-- A valid handle of a path is that of the object found there. -/
theorem fhCompPath_stat {k : L} {needDir : Bool}
    (hv : fhValid (fhCompPath w k dir needDir) = true) :
    ∃ b, w.lstat k dir = .ok b ∧ (fhCompPath w k dir needDir).dev = b.dev ∧
      (fhCompPath w k dir needDir).ino = b.ino := by
  unfold fhCompPath at hv ⊢
  cases hb : w.lstat k dir with
  | error e =>
    rw [hb] at hv
    cases hv
  | ok b =>
    refine ⟨b, rfl, ?_⟩
    rw [hb] at hv
    dsimp only at hv ⊢
    split at hv
    · cases hv
    · rename_i hdir
      rw [if_neg hdir]
      split at hv
      · rename_i hroot
        rw [if_pos hroot]
        exact ⟨rfl, rfl⟩
      · rename_i hroot
        rw [if_neg hroot]
        split at hv
        · cases hv
        · split at hv
          · cases hv
          · rename_i hdeep
            simp only [hdeep, ↓reduceIte, and_self]

/-- `fh_comp_raw` looks the export list up once more for an export point, and makes the handle of a
removable one without a stat. -/
theorem fhCompRaw_cases {res : Unfs3Fh} {needDir : Bool}
    (h2 : fhCompRaw w dir (some rq) needDir s = (.ok res, s1)) (hv : fhValid res = true) :
    (s1 = s ∨ s1 = { s with exports := governing s rq dir }) ∧
      ((Removable rq s dir ∧ res =
          { dev := (exportsOptions s.exportList rq.remote (some dir) s.exports).fsid.getD 0
            ino := 1 }) ∨
        ¬ Removable rq s dir ∧ res = fhCompPath w s.kernel dir needDir) := by
  have hgov : (exportsOptions s.exportList rq.remote (some dir) s.exports).vars =
    governing s rq dir := rfl
  have hopts : (governing s rq dir).opts = optsOf s.exportList rq.remote dir :=
    lookup_opts s.exportList rq.remote dir s.exports
  simp only [fhCompRaw, Prog.get_bind_run, Prog.ite_run, exportsOptionsM_bind, hgov] at h2
  split at h2
  · rename_i hpt
    split at h2
    · simp only [Prog.pure_run, Prod.mk.injEq, Except.ok.injEq] at h2
      rw [← h2.1] at hv
      cases hv
    rename_i ho
    obtain ⟨o, hsome⟩ := Option.ne_none_iff_exists'.1 ho
    have hbit : (governing s rq dir).bit (·.removable) =
        (optsOf s.exportList rq.remote dir).any (·.removable) := by
      rw [ExportVars.bit, ← hopts, hsome]
      rfl
    rw [hbit] at h2
    split at h2
    · rename_i hr
      simp only [Prog.pure_run, Prod.mk.injEq, Except.ok.injEq] at h2
      exact ⟨.inr h2.2.symm, .inl ⟨⟨hpt, hr⟩, h2.1.symm⟩⟩
    · rename_i hr
      simp only [Prog.pure_run, Prod.mk.injEq, Except.ok.injEq] at h2
      exact ⟨.inr h2.2.symm, .inr ⟨fun hrem => hr hrem.2, h2.1.symm⟩⟩
  · rename_i hpt
    simp only [Prog.pure_run, Prod.mk.injEq, Except.ok.injEq] at h2
    exact ⟨.inl h2.2.symm, .inr ⟨fun hrem => hpt hrem.1, h2.1.symm⟩⟩

/-- `fh_comp` fills in the password hash. -/
theorem fhComp_raw {needDir : Bool} (hc : fhComp w dir rq needDir s = (.ok h, s1)) :
    ∃ res s2, fhCompRaw w dir (some rq) needDir s = (.ok res, s2) ∧
      h = { res with pwhash := s2.exports.passwordHash } ∧
      s1 = if fhValid res then { s2 with fh := s2.fh.add res.dev res.ino dir } else s2 := by
  obtain ⟨res, s2, h2, h'⟩ := Prog.bind_eq_ok hc
  refine ⟨res, s2, h2, ?_⟩
  by_cases hv : fhValid res = true
  · simp only [Prog.when, if_pos hv, fhCacheAdd, Prog.modify_bind_run, Prog.get_bind_run,
      Prog.pure_run, Prod.mk.injEq, Except.ok.injEq] at h'
    exact ⟨h'.1.symm, by rw [if_pos hv, ← h'.2]⟩
  · simp only [Prog.when, if_neg hv, Prog.pure_bind_run, Prog.get_bind_run, Prog.pure_run,
      Prod.mk.injEq, Except.ok.injEq] at h'
    exact ⟨h'.1.symm, by rw [if_neg hv, ← h'.2]⟩

/-- What composing a handle leaves: the path in the handle cache, the password hash of the export in
the handle, and the fsid of the item reached last if it is an export point's. -/
theorem fhComp_mounted (ho : optsOf s.exportList rq.remote dir ≠ none)
    (hx : s.exports = (exportsOptions s.exportList rq.remote (some dir) s.exports).vars)
    (hc : fhComp w dir rq true s = (.ok h, s1)) (hv : fhValid h = true) :
    s1.exportList = s.exportList ∧ s1.kernel = s.kernel ∧ s1.fh = s.fh.add h.dev h.ino dir ∧
      h.pwhash = (governing s rq dir).passwordHash ∧
      ((Removable rq s dir ∧ h.ino = 1 ∧ ∃ i, LastReached rq.remote dir s.exportList i ∧
        h.dev = i.fsid) ∨
        ¬ Removable rq s dir ∧ ∃ b, w.lstat s.kernel dir = .ok b ∧ h.dev = b.dev ∧
          h.ino = b.ino) := by
  have hopts : (governing s rq dir).opts = optsOf s.exportList rq.remote dir :=
    lookup_opts s.exportList rq.remote dir s.exports
  obtain ⟨res, s2, h2, rfl, rfl⟩ := fhComp_raw hc
  have hvr : fhValid res = true := hv
  obtain ⟨hs2, hcase⟩ := fhCompRaw_cases h2 hvr
  have hsame : s = { s with exports := governing s rq dir } :=
    congrArg (fun e => { s with exports := e }) hx
  obtain rfl : s2 = { s with exports := governing s rq dir } := hs2.elim (·.trans hsame) id
  rw [if_pos hvr]
  refine ⟨rfl, rfl, rfl, rfl, ?_⟩
  rcases hcase with ⟨hrem, rfl⟩ | ⟨hn, rfl⟩
  · obtain ⟨i, hi, hf⟩ := exportsOptions_fsid (hopts ▸ ho : (governing s rq dir).opts ≠ none)
    exact .inl ⟨hrem, rfl, i, hi, by rw [hf]; rfl⟩
  · exact .inr ⟨hn, fhCompPath_stat hvr⟩

/-- What MNT of a directory has gone through. -/
theorem mntPath_mounted {dpath : CStr} {authenticated : Bool}
    (hm : mntPath w dpath authenticated rq s =
      (.ok { status := .ok, info := some (.mounted h) }, s1)) :
    ∃ dir s2, mountDir w s dpath = some dir ∧ optsOf s.exportList rq.remote dir ≠ none ∧
      fhComp w dir rq true { s with exports := governing s rq dir } = (.ok h, s2) ∧
        fhValid h = true ∧
      s1.exportList = s2.exportList ∧ s1.fh = s2.fh ∧ s1.exports = s2.exports := by
  unfold mntPath at hm
  rw [Prog.get_bind_run] at hm
  cases hd : mountDir w s dpath with
  | none =>
    rw [hd] at hm
    simp at hm
  | some dir =>
    rw [hd] at hm
    simp only [Prog.ite_run] at hm
    split at hm
    · simp at hm
    rw [exportsOptionsM_bind, Prog.ite_run] at hm
    split at hm
    · simp at hm
    · rename_i hno
      obtain ⟨fh, s2, hc, hm⟩ := Prog.bind_eq_ok hm
      rw [Prog.ite_run] at hm
      split at hm
      · simp at hm
      · rename_i hv
        obtain ⟨_, s3, h3, hm⟩ := Prog.bind_eq_ok hm
        simp only [Prog.pure_run, Prod.mk.injEq, Except.ok.injEq, Mountres3.mk.injEq,
          Option.some.injEq, MountInfo.mounted.injEq, true_and] at hm
        obtain ⟨rfl, rfl⟩ := hm
        cases h3
        refine ⟨dir, s2, rfl, fun ho => hno (.inl ?_), hc, by simpa using hv, rfl, rfl, rfl⟩
        rw [lookup_opts]
        exact ho

/-- The same for the whole of MNT. -/
theorem mountprocMnt_mounted {argp : CStr}
    (hm : mountprocMnt w argp rq s = (.ok { status := .ok, info := some (.mounted h) }, s1)) :
    ∃ (dir : CStr) (s2 : Server L R), mountedDir w argp rq s = some dir ∧
      s2.exportList = s.exportList ∧ s2.kernel = s.kernel ∧
      optsOf s.exportList rq.remote dir ≠ none ∧
      ∃ s3, fhComp w dir rq true { s2 with exports := governing s2 rq dir } = (.ok h, s3) ∧
        fhValid h = true ∧ s1.exportList = s3.exportList ∧ s1.fh = s3.fh := by
  by_cases hver : rq.vers = 3
  · by_cases hn : mntCmd argp = .getnonce
    · simp only [mountprocMnt, hver, hn, ne_eq, not_true_eq_false, ↓reduceIte] at hm
      obtain ⟨_, _, _, hm⟩ := Prog.bind_eq_ok hm
      simp at hm
    · obtain ⟨s2, ha, hl, hk, he⟩ := authenticate_ends (w := w) (mntCmd argp) rq s
      have hrun : mountprocMnt w argp rq s =
          mntPath w (mntCmd argp).dpath (authentic w (mntCmd argp) rq s) rq s2 := by
        rw [← Prog.bind_ok (f := fun a => mntPath w (mntCmd argp).dpath a rq) ha]
        simp only [mountprocMnt, hver, ne_eq, not_true_eq_false, ↓reduceIte]
      have hdir : mountDir w s2 (mntCmd argp).dpath = mountedDir w argp rq s := by
        rw [mountDir, mountedDir, hl, hk, he]
        cases hc : mntCmd argp with
        | getnonce => exact absurd hc hn
        | _ => rfl
      rw [hrun] at hm
      obtain ⟨dir, s3, hd, ho, hc, hv, hl3, hf3, _⟩ := mntPath_mounted hm
      rw [hl] at ho
      exact ⟨dir, s2, by rw [← hdir, hd], hl, hk, ho, s3, hc, hv, hl3, hf3⟩
  · simp [mountprocMnt, hver] at hm

end

/-! ## The next request -/

section
variable {L R : Type} (w : World L R)

/-- A request on `fh` that arrives in the state `s` is resolved to `dir` and passes the checks of
`PREP`. -/
structure Admits (rq : SvcReq) (fh : NfsFh3) (s : Server L R) (dir : CStr) : Prop where
  resolved : (fhDecomp w fh (arrive w rq s)).1 = .ok (some dir)
  entitled : Entitled rq s fh dir

/-- The directory is not confused with another: the first item with the fsid of the item that is
reached last is one of the directory; for a directory that is no removable export point, a device
and inode that are an item's fsid and 1 are those of an item of the directory itself. -/
def Unconfused (rq : SvcReq) (s : Server L R) (dir : CStr) : Prop :=
  (Removable rq s dir → ∀ i, LastReached rq.remote dir s.exportList i →
    exportPointFromFsid s.exportList i.fsid = some dir) ∧
  (¬ Removable rq s dir → ∀ b, w.lstat s.kernel dir = .ok b → b.ino = 1 →
    ∀ q, exportPointFromFsid s.exportList b.dev = some q → q = dir)

end

section
variable {L R : Type} {w : World L R}

/-- What `PREP` does with such a request. -/
theorem Admits.prep {rq : SvcReq} {fh : NfsFh3} {s : Server L R} {dir : CStr}
    (h : Admits w rq fh s dir) :
    ∃ s1, s1.exports = governing s rq dir ∧
      prep w fh rq (enter rq s) = (switchUser w rq >>= fun _ => pure (.ok dir)) s1 := by
  obtain ⟨s1, h1, k1⟩ := switchToRoot_ends (w := w) (enter rq s)
  have harr : arrive w rq s = s1 := by rw [arrive, h1]
  have h2 : fhDecomp w fh s1 = (.ok (some dir), (fhDecomp w fh s1).2) :=
    Prod.ext (harr ▸ h.resolved) rfl
  have f2 := (fhDecomp_foot (w := w) (E := fun _ => True) fh).ok h2
  have hgov : (exportsOptions (fhDecomp w fh s1).2.exportList rq.remote (some dir)
      (fhDecomp w fh s1).2.exports).vars = governing s rq dir := by
    rw [f2.exportList, f2.exports, k1]
    rfl
  refine ⟨{ (fhDecomp w fh s1).2 with exports := governing s rq dir }, rfl, ?_⟩
  rw [NfsRods.prep, Prog.bind_ok h1, Prog.bind_ok h2, exportsOptionsM_bind]
  simp only [hgov, Prog.ite_run]
  rw [if_neg h.entitled.exported, if_neg (not_not.2 h.entitled.password)]

/-- A handle whose device and inode are not an item's is found in the handle cache. -/
theorem fhDecomp_fresh {fh : NfsFh3} {s : Server L R} {c : FhCache} {dir : CStr} {b : Stat}
    (hv : nfhValid fh = true) (hc : s.fh = c.add fh.obj.dev fh.obj.ino dir)
    (hb : w.lstat s.kernel dir = .ok b) (hid : b.dev = fh.obj.dev ∧ b.ino = fh.obj.ino) :
    (fhDecomp w fh s).1 = .ok (some dir) ↔ (fh.obj.ino = 1 →
      ∀ q, exportPointFromFsid s.exportList fh.obj.dev = some q → q = dir) := by
  by_cases hr : ExportRoot s fh
  · obtain ⟨q, hq⟩ := Option.isSome_iff_exists.1 hr.1
    rw [fhDecomp_exportRoot hv hq hr.2]
    simp [hr.2, hq]
  · refine iff_of_true (fhDecomp_cached hv hr ?_ hb hid) fun hi q hq =>
      absurd ⟨by rw [hq]; rfl, hi⟩ hr
    rw [Cached, hc]
    exact FhCache.index_add c fh.obj.dev fh.obj.ino dir

/-- **The next request on a mounted directory's handle gets to that directory** exactly when the
directory is not confused with another export's. -/
theorem mnt_handle_iff (w : World L R) (argp : CStr) (rq rq' : SvcReq) (h : Unfs3Fh)
    (s s1 : Server L R)
    (dir : CStr)
    (hm : mountprocMnt w argp rq s = (.ok { status := .ok, info := some (.mounted h) }, s1))
    (hd : mountedDir w argp rq s = some dir) (hclient : rq'.remote = rq.remote)
    (hfs : w.lstat (arrive w rq' s1).kernel dir = w.lstat s.kernel dir) :
    Admits w rq' ⟨fhLength h, h⟩ s1 dir ↔ Unconfused w rq s dir := by
  obtain ⟨dir', s2, hd', hl2, hk2, ho, s3, hc, hv, hl1, hf1⟩ := mountprocMnt_mounted hm
  obtain rfl : dir' = dir := Option.some.inj (hd'.symm.trans hd)
  have hgov2 : (governing s2 rq dir').opts ≠ none := by
    rw [governing, hl2, lookup_opts]
    exact ho
  have ho2 : optsOf s2.exportList rq.remote dir' ≠ none := by rw [hl2]; exact ho
  obtain ⟨hl3, _, hf3, hpw, hcase⟩ := fhComp_mounted
    (s := { s2 with exports := governing s2 rq dir' }) ho2 (exportsOptions_vars hgov2 _).symm hc hv
  -- what the next request finds
  obtain ⟨s4, h4, k4⟩ := switchToRoot_ends (w := w) (enter rq' s1)
  have harr : arrive w rq' s1 = s4 := by rw [arrive, h4]
  have hlist : (arrive w rq' s1).exportList = s.exportList := by
    rw [harr, k4, ← hl2, ← hl3, ← hl1]
    rfl
  have hcache : (arrive w rq' s1).fh = s2.fh.add h.dev h.ino dir' := by
    rw [harr, k4, ← hf3, ← hf1]
    rfl
  have hgov : governing s1 rq' dir' = governing s2 rq dir' := by
    rw [governing, hl1, hl3, hclient]
    exact exportsOptions_vars hgov2 _
  have hentitled : Entitled rq' s1 ⟨fhLength h, h⟩ dir' := by
    refine ⟨by rw [hgov]; exact hgov2, ?_⟩
    rw [hgov, hpw]
    exact congrArg ExportVars.passwordHash (exportsOptions_vars hgov2 _)
  have hvalid : nfhValid ⟨fhLength h, h⟩ = true := by simp [nfhValid, fhLength, fhMinLen]
  have hiff : Admits w rq' ⟨fhLength h, h⟩ s1 dir' ↔
      (fhDecomp w ⟨fhLength h, h⟩ (arrive w rq' s1)).1 = .ok (some dir') :=
    ⟨fun ha => ha.resolved, fun hr => ⟨hr, hentitled⟩⟩
  have hrem : Removable rq { s2 with exports := governing s2 rq dir' } dir' ↔
    Removable rq s dir' := by
    rw [Removable, Removable, hl2]
  rw [hiff, Unconfused]
  rcases hcase with ⟨hr, hino, i, hi, hdev⟩ | ⟨hn, b, hb, hdev, hino⟩
  · rw [hrem] at hr
    rw [hl2] at hi
    simp only [hr, not_true_eq_false, false_implies, forall_const, and_true]
    obtain ⟨q, hq⟩ : ∃ q, exportPointFromFsid s.exportList i.fsid = some q := by
      rw [← Option.isSome_iff_exists, exportPointFromFsid, Option.isSome_map, List.find?_isSome]
      exact ⟨i, hi.mem, by simp⟩
    have hfirst : exportPointFromFsid (arrive w rq' s1).exportList h.dev = some q := by
      rw [hlist, hdev, hq]
    rw [fhDecomp_exportRoot hvalid hfirst hino]
    constructor
    · intro heq j hj
      rw [hj.fsid_eq hi, hq]
      exact Except.ok.inj heq
    · intro hall
      rw [← hall i hi, hq]
  · rw [hrem] at hn
    rw [hk2] at hb
    simp only [hn, false_implies, not_false_eq_true, forall_const, true_and]
    rw [fhDecomp_fresh hvalid hcache (hfs.trans hb) ⟨hdev.symm, hino.symm⟩, hlist, hdev, hino]
    constructor
    · intro h b' hb' h1 q hq
      rw [hb] at hb'
      cases hb'
      exact h h1 q hq
    · exact fun h => h b hb

end

/-! ## An export point of another host -/

def mountReq : SvcReq := { remote := 1, uid := 7, gid := 7 }

/-- A daemon that exports `/e`. -/
def mountServer : Server Sandbox.Kernel Sandbox.Grid :=
  Sandbox.server [Sandbox.item (lit "/e") true]
    { files := [(lit "/e", { dev := 1, ino := 5, mode := 0o040755 })] } {}

/-- The handle of `/e` is resolved to `/e`. -/
theorem mnt_handle_alone :
    ∃ h s1, mountprocMnt Sandbox.publicWorld (lit "/e") mountReq mountServer =
      (.ok { status := .ok, info := some (.mounted h) }, s1) ∧
    Admits Sandbox.publicWorld mountReq ⟨fhLength h, h⟩ s1 (lit "/e") := by
  refine ⟨{ dev := (Sandbox.item (lit "/e") true).fsid, ino := 1 }, _, Prod.ext rfl rfl, ?_⟩
  refine (mnt_handle_iff Sandbox.publicWorld (lit "/e") mountReq mountReq _ mountServer _ (lit "/e")
    (Prod.ext rfl rfl) rfl rfl (by decide +kernel)).2 ⟨fun _ i hi => ?_, fun hn => ?_⟩
  · obtain rfl : i = Sandbox.item (lit "/e") true := by
      simpa [mountServer, Sandbox.server] using hi.mem
    decide +kernel
  · exact absurd ⟨by decide +kernel, by decide +kernel⟩ hn

/-- `/e/a` is exported to another host, and `/e` to everyone. -/
def nestedServer : Server Sandbox.Kernel Sandbox.Grid :=
  Sandbox.server
    [{ path := lit "/e/a", orig := lit "/e/a", hosts := [{ addr := 9, mask := 0xffffffff }] },
      Sandbox.item (lit "/e") true]
    { files := [(lit "/e", { dev := 1, ino := 5, mode := 0o040755 }),
        (lit "/e/a", { dev := 1, ino := 6, mode := 0o040755 })] } {}

/-- A client that mounts `/e/a` gets a handle that is resolved to `/e`. -/
theorem mnt_handle_confused : ∃ h s1,
    mountprocMnt Sandbox.publicWorld (lit "/e/a") mountReq nestedServer =
      (.ok { status := .ok, info := some (.mounted h) }, s1) ∧
    mountedDir Sandbox.publicWorld (lit "/e/a") mountReq nestedServer = some (lit "/e/a") ∧
    Sandbox.publicWorld.lstat (arrive Sandbox.publicWorld mountReq s1).kernel (lit "/e/a") =
      Sandbox.publicWorld.lstat nestedServer.kernel (lit "/e/a") ∧
    (fhDecomp Sandbox.publicWorld ⟨fhLength h, h⟩ (arrive Sandbox.publicWorld mountReq s1)).1 =
      .ok (some (lit "/e")) ∧
    ¬ Admits Sandbox.publicWorld mountReq ⟨fhLength h, h⟩ s1 (lit "/e/a") := by
  have hres : (fhDecomp Sandbox.publicWorld
      ⟨33, { dev := (Sandbox.item (lit "/e") true).fsid, ino := 1 }⟩
        (arrive Sandbox.publicWorld mountReq
          (mountprocMnt Sandbox.publicWorld (lit "/e/a") mountReq nestedServer).2)).1 =
      .ok (some (lit "/e")) := by decide +kernel
  refine ⟨{ dev := (Sandbox.item (lit "/e") true).fsid, ino := 1 },
    (mountprocMnt Sandbox.publicWorld (lit "/e/a") mountReq nestedServer).2, Prod.ext rfl rfl, rfl,
    by decide +kernel, hres, fun h => ?_⟩
  have hne : (Except.ok (some (lit "/e")) : Except Stop (Option CStr)) = .ok (some (lit "/e/a")) :=
    hres.symm.trans h.resolved
  exact absurd hne (by decide)

end NfsRods
