import NfsRods.Proof.Resolve

/-!
# What a handle is resolved to

`fh_decomp` resolves a handle through the cache, by the search along the hashes of the handle
(`fh_rec`) or by the search of a whole file system (`locate_pfx`).

* `fhDecomp_sound`: whatever the route, the path it returns is one of the handle's object, and the
  stat cache holds what `lstat` says of it.
-/

namespace NfsRods

open CStr

section
variable {L R : Type} {w : World L R} {k : L} {fh : Unfs3Fh}

/-! ## Every route finds the object -/

/-- A leading separator may be doubled. -/
def Slashes (w : World L R) (k : L) : Prop :=
  ∀ p, p.head? = some slash → w.lstat k (root ++ p) = w.lstat k p

/-- `p` is a path of the object of the handle, and `st` are its attributes. -/
def NameOf (w : World L R) (k : L) (dev ino : ULong) (p : CStr) (st : Stat) : Prop :=
  w.lstat k p = .ok st ∧ st.dev = dev ∧ st.ino = ino

theorem fhRec_nameOf (hs : Slashes w k) (hobj : ¬ (fh.dev = 0 ∧ fh.ino = 0)) {n : Nat} {p : CStr}
    {st : Stat} (h : fhRec w k fh n root = some (p, st)) : NameOf w k fh.dev fh.ino p st := by
  obtain ⟨cs, hf, rfl, rfl⟩ := fhRec_sound n [] (by simpa using h)
  obtain ⟨hne, hit⟩ := hf.hits
  rw [List.nil_append] at hit ⊢
  rw [Hits, statOrZero, hs _ (pathOf_head hne)] at hit
  rw [NameOf, statOrZero, hs _ (pathOf_head hne)]
  cases hl : w.lstat k (pathOf cs) with
  | error e =>
    rw [hl] at hit
    exact absurd ⟨hit.1.symm, hit.2.symm⟩ hobj
  | ok st =>
    rw [hl] at hit
    exact ⟨rfl, hit⟩

theorem locatePfx_nameOf {dev ino : ULong} {p : CStr} {st : Stat} (fuel : Nat) (pfx : CStr)
    (h : locatePfx w k dev ino fuel pfx = some (p, st)) : NameOf w k dev ino p st := by
  induction fuel generalizing pfx with
  | zero => cases h
  | succ fuel ih =>
    rw [locatePfx] at h
    split at h
    · cases h
    · obtain ⟨x, _, h⟩ := List.exists_of_findSome?_eq_some h
      split at h
      · cases h
      · dsimp only at h
        split at h
        · cases h
        · rename_i buf hbuf
          split at h
          · rename_i hit
            cases h
            exact ⟨hbuf, hit⟩
          · split at h
            · exact ih _ h
            · cases h

theorem locateFile_nameOf {dev ino : ULong} {r : CStr × Stat}
    (h : locateFile w k dev ino = some r) : NameOf w k dev ino r.1 r.2 := by
  unfold locateFile at h
  split at h
  · cases h
  · obtain ⟨mtab, _, h⟩ := Option.bind_eq_some_iff.1 h
    obtain ⟨dir, _, h⟩ := Option.bind_eq_some_iff.1 h
    exact locatePfx_nameOf _ _ h

/-- A path gets longer with every level: more than `NFS_MAXPATHLEN` of them are never entered. -/
theorem locatePfx_enough {dev ino : ULong} (fuel : Nat) (pfx : CStr) (extra : Nat)
    (h : maxPathLen ≤ pfx.length + fuel) :
    locatePfx w k dev ino (fuel + extra) pfx = locatePfx w k dev ino fuel pfx := by
  induction fuel generalizing pfx with
  | zero =>
    cases extra with
    | zero => rfl
    | succ extra =>
      rw [Nat.zero_add, locatePfx, locatePfx]
      split
      · rfl
      · rw [List.findSome?_eq_none_iff]
        intro x _
        rw [if_pos (by omega)]
  | succ fuel ih =>
    rw [Nat.add_right_comm, locatePfx, locatePfx]
    split
    · rfl
    · refine congrArg (List.findSome? · _) (funext fun x => ?_)
      dsimp only
      rw [ih (pfx ++ root ++ x.name) (by simp [root]; omega)]

/-- The stat cache is that of a path of the object. -/
structure Refreshed (w : World L R) (k : L) (fh : Unfs3Fh) (p : CStr) (s' : Server L R) : Prop where
  names : NameOf w k fh.dev fh.ino p s'.stCache
  valid : s'.stCacheValid = true

theorem fhCacheLookup_refreshed {s s' : Server L R} {p : CStr}
    (h : fhCacheLookup w fh.dev fh.ino s = (.ok (some p), s')) : Refreshed w s.kernel fh p s' := by
  unfold fhCacheLookup at h
  split at h
  · cases h
  · split at h
    · cases h
    · rename_i buf hbuf
      split at h
      · rename_i hit
        cases h
        exact ⟨⟨hbuf, hit⟩, rfl⟩
      · cases h

theorem fhDecompHard_refreshed {s s' : Server L R} {p : CStr} (hs : Slashes w s.kernel)
    (hlen : fh.len ≠ 0) (hobj : ¬ (fh.dev = 0 ∧ fh.ino = 0))
    (h : fhDecompHard w fh s = (.ok (some p), s')) : Refreshed w s.kernel fh p s' := by
  obtain ⟨r, s1, h1, h⟩ := Prog.bind_eq_ok h
  cases r with
  | some q =>
    cases h
    exact fhCacheLookup_refreshed h1
  | none =>
    obtain ⟨_, _, hk⟩ := fhCacheLookup_miss h1
    simp only [Prog.get_bind_run, fhDecompRaw, if_neg hlen, hk] at h
    cases hrec : fhRec w s.kernel fh fh.len root with
    | some r =>
      simp only [hrec] at h
      cases h
      exact ⟨fhRec_nameOf hs hobj hrec, rfl⟩
    | none =>
      cases hloc : locateFile w s.kernel fh.dev fh.ino with
      | none =>
        simp only [hrec, hloc] at h
        cases h
      | some r =>
        simp only [hrec, hloc] at h
        cases h
        exact ⟨locateFile_nameOf hloc, rfl⟩

theorem fhDecomp_refreshed {fh : NfsFh3} {s : Server L R} {p : CStr} (hv : nfhValid fh = true)
    (hlen : 0 < fh.obj.len) (hobj : ¬ (fh.obj.dev = 0 ∧ fh.obj.ino = 0)) (hroot : ¬ ExportRoot s fh)
    (hs : Slashes w s.kernel) (h : (fhDecomp w fh s).1 = .ok (some p)) :
    Refreshed w s.kernel fh.obj p (fhDecomp w fh s).2 := by
  rw [fhDecomp_hard hv hroot] at h ⊢
  exact fhDecompHard_refreshed hs hlen.ne' hobj (Prod.ext h rfl)

/-- **Resolution is sound**: `fh_decomp` returns, and a path it returns is one of the handle's
object, with the attributes that the stat cache now holds. `locate_pfx` goes no deeper than its
levels. -/
theorem fhDecomp_sound (w : World L R) (fh : NfsFh3) (s : Server L R) (hv : nfhValid fh = true)
    (hlen : 0 < fh.obj.len) (hobj : ¬ (fh.obj.dev = 0 ∧ fh.obj.ino = 0)) (hroot : ¬ ExportRoot s fh)
    (hs : Slashes w s.kernel) :
    (∃ r s', fhDecomp w fh s = (.ok r, s') ∧ s'.kernel = s.kernel ∧
      ∀ p, r = some p → ∃ st, w.lstat s.kernel p = .ok st ∧ st.dev = fh.obj.dev ∧
        st.ino = fh.obj.ino ∧
        s'.stCacheValid = true ∧ s'.stCache = st) ∧
    ∀ dir extra, locatePfx w s.kernel fh.obj.dev fh.obj.ino (maxPathLen + extra) dir =
      locatePfx w s.kernel fh.obj.dev fh.obj.ino maxPathLen dir := by
  refine ⟨?_, fun dir extra => locatePfx_enough _ _ _ (Nat.le_add_left _ _)⟩
  obtain ⟨r, s', h⟩ := fhDecomp_returns (w := w) fh s
  have hk : s'.kernel = s.kernel := by
    have hfoot := fhDecomp_foot (w := w) (E := fun _ => False) fh s
    rw [h] at hfoot
    exact hfoot.ran.kernel_eq fun _ h => h.1
  refine ⟨r, s', h, hk, ?_⟩
  rintro p rfl
  have hr := fhDecomp_refreshed hv hlen hobj hroot hs (p := p) (by rw [h])
  rw [h] at hr
  obtain ⟨⟨hst, hdev, hino⟩, hvalid⟩ := hr
  exact ⟨_, hst, hdev, hino, hvalid, rfl⟩

/-! ## From a path to its handle and back -/

theorem cuts_go_slashless {c : CStr} (hc : slash ∉ c) (done rest : CStr) :
    cuts.go done (c ++ rest) = cuts.go (done ++ c) rest := by
  induction c generalizing done with
  | nil => simp
  | cons b c ih =>
    have hb : b ≠ slash := fun hb => hc (by simp [hb])
    rw [List.cons_append, cuts.go, if_neg hb, ih fun h => hc (List.mem_cons_of_mem b h)]
    simp

theorem cuts_go_pathOf {cs : List CStr} (h : ∀ c ∈ cs, Component c) (done : CStr) :
    cuts.go done (pathOf cs) = cs.inits.map fun ds => done ++ pathOf ds := by
  induction cs generalizing done with
  | nil => simp [cuts.go]
  | cons c cs ih =>
    have hcut : pathOf (c :: cs) = slash :: (c ++ pathOf cs) := rfl
    rw [hcut, cuts.go, if_pos rfl, cuts_go_slashless (h c (by simp)).slashless,
      ih fun c hc => h c (by simp [hc])]
    simp [pathOf, root]

/-- A path is cut into the paths above it, and itself. -/
theorem cuts_pathOf {c : CStr} {cs : List CStr} (h : ∀ x ∈ c :: cs, Component x) :
    cuts (pathOf (c :: cs)) = cs.inits.map fun ds => pathOf (c :: ds) := by
  have hcut : pathOf (c :: cs) = slash :: (c ++ pathOf cs) := rfl
  rw [hcut, cuts, cuts_go_slashless (h c (by simp)).slashless,
    cuts_go_pathOf fun c hc => h c (by simp [hc])]
  rfl

theorem hashes_ok {ps : List CStr} (h : ∀ p ∈ ps, ∃ b, w.lstat k p = .ok b) :
    hashes w k ps = some (ps.map fun p => fhHash (statOrZero w k p).ino) := by
  induction ps with
  | nil => rfl
  | cons p ps ih =>
    obtain ⟨b, hb⟩ := h p (by simp)
    rw [hashes, hb, ih fun q hq => h q (by simp [hq])]
    simp [statOrZero, hb]

/-- The path of the directory with the components `cs`. -/
def dirPath (cs : List CStr) : CStr := if cs = [] then root else pathOf cs

/-- The name is neither `.` nor `..`, nor has it a separator. -/
def Plain (cs : List CStr) : Prop := ∀ c ∈ cs, Component c ∧ Ordinary c

instance (cs : List CStr) : Decidable (Plain cs) := inferInstanceAs (Decidable (∀ c ∈ cs, _))

/-- The same object. -/
def Stat.Is (b b' : Stat) : Prop := b.dev = b'.dev ∧ b.ino = b'.ino

/-- What a file system promises of `.` and `..`, and of inode numbers. -/
structure Dots (w : World L R) (k : L) : Prop where
  numbered : ∀ p b, w.lstat k p = .ok b → b.ino ≠ 0
  top : ∃ b, w.lstat k root = .ok b ∧ b.isDir = true ∧
    ∀ b', w.lstat k (pathOf [lit ".."]) = .ok b' → b'.Is b
  self : ∀ cs b b', w.lstat k (dirPath cs) = .ok b → b.isDir = true →
    w.lstat k (pathOf (cs ++ [lit "."])) = .ok b' → b'.Is b
  parent : ∀ cs c b d b', Component c → Ordinary c → w.lstat k (dirPath cs) = .ok b →
    b.isDir = true →
    w.lstat k (pathOf (cs ++ [c])) = .ok d → d.isDir = true →
    w.lstat k (pathOf (cs ++ [c] ++ [lit ".."])) = .ok b' → b'.Is b

/-- No symbolic link leads to a directory: what has something below it is one. -/
def Linkless (w : World L R) (k : L) : Prop :=
  ∀ cs c b b', cs ≠ [] → Component c → w.lstat k (pathOf cs) = .ok b →
    w.lstat k (pathOf (cs ++ [c])) = .ok b' → b.isDir = true

/-- The object `p` has no other name. -/
def OnlyName (w : World L R) (k : L) (p : CStr) : Prop :=
  ∀ b, w.lstat k p = .ok b → ∀ ds b', Plain ds → w.lstat k (dirPath ds) = .ok b' → b'.Is b →
    dirPath ds = p

theorem Tidy.dir_above (ht : Tidy w k) (hd : Dots w k) (hl : Linkless w k) {cs : List CStr}
    {c : CStr}
    {b : Stat} (hc : Component c) (h : w.lstat k (pathOf (cs ++ [c])) = .ok b) :
    ∃ b', w.lstat k (dirPath cs) = .ok b' ∧ b'.isDir = true := by
  by_cases hcs : cs = []
  · obtain ⟨b', hb', hdir, _⟩ := hd.top
    exact ⟨b', by rw [dirPath, if_pos hcs, hb'], hdir⟩
  · obtain ⟨b', hb'⟩ := ht.above cs c b hcs h
    exact ⟨b', by rw [dirPath, if_neg hcs, hb'], hl cs c b' b hcs hc hb' h⟩

/-- It is not met through `.` or `..` either, unless the way there passes it. -/
theorem OnlyName.sole {p : CStr} (h : OnlyName w k p) (ht : Tidy w k) (hd : Dots w k)
    (hl : Linkless w k) : Sole w k p := by
  intro b hb ds hne hcomp hord hpass hhit
  have hno : ∀ qs b', qs <+: ds → Plain qs → w.lstat k (dirPath qs) = .ok b' → ¬ b'.Is b := by
    intro qs b' hqs hplain hb' his
    have hsame := h b hb qs b' hplain hb' his
    by_cases hnil : qs = []
    · rw [dirPath, if_pos hnil] at hsame
      exact hpass [] List.nil_prefix (.inr (by rw [← hsame]; rfl))
    · rw [dirPath, if_neg hnil] at hsame
      exact hpass qs hqs (.inl hsame.symm)
  obtain ⟨es, c, rfl⟩ := (List.eq_nil_or_concat' ds).resolve_left hne
  rw [List.dropLast_concat] at hord
  have hes : Plain es := fun x hx => ⟨hcomp x (by simp [hx]), hord x hx⟩
  cases hst : w.lstat k (pathOf (es ++ [c])) with
  | error e =>
    rw [statOrZero, hst] at hhit
    exact hd.numbered p b hb hhit.2.symm
  | ok b' =>
    rw [statOrZero, hst] at hhit
    obtain ⟨d, hdst, hdir⟩ := ht.dir_above hd hl (hcomp c (by simp)) hst
    by_cases hc : Ordinary c
    · refine hno (es ++ [c]) b' List.prefix_rfl (fun x hx => ⟨hcomp x hx, ?_⟩) ?_ hhit
      · rcases List.mem_append.1 hx with hx | hx
        · exact hord x hx
        · rwa [List.mem_singleton.1 hx]
      · rwa [dirPath, if_neg (by simp)]
    rcases not_not.1 hc with rfl | rfl
    · have hself := hd.self es d b' hdst hdir hst
      exact hno es d (List.prefix_append _ _) hes hdst
        ⟨hself.1.symm.trans hhit.1, hself.2.symm.trans hhit.2⟩
    · -- `..`: the directory above the last one, or the root directory itself
      rcases List.eq_nil_or_concat' es with rfl | ⟨fs, x, rfl⟩
      · obtain ⟨b0, hb0, _, htop⟩ := hd.top
        have his := htop b' hst
        exact hno [] b0 List.nil_prefix (by simp [Plain]) hb0
          ⟨his.1.symm.trans hhit.1, his.2.symm.trans hhit.2⟩
      · rw [dirPath, if_neg (by simp)] at hdst
        obtain ⟨hx, hxo⟩ := hes x (by simp)
        obtain ⟨f, hf, hfdir⟩ := ht.dir_above hd hl hx hdst
        have his := hd.parent fs x f d b' hx hxo hf hfdir hdst hdir hst
        refine hno fs f ?_ (fun c hc => hes c (by simp [hc])) hf
          ⟨his.1.symm.trans hhit.1, his.2.symm.trans hhit.2⟩
        rw [List.append_assoc]
        exact List.prefix_append _ _

theorem pathOf_ne_root {c : CStr} {cs : List CStr} (hc : Component c) :
    pathOf (c :: cs) ≠ root := by
  intro h
  have hpos := List.length_pos_of_ne_nil hc.nonempty
  have := congrArg List.length h
  simp only [pathOf, List.flatMap_cons, List.length_append, root, List.length_singleton] at this
  omega

/-- The handle of a path below which everything can be stat'ed: none if it is too deep. -/
theorem fhCompPath_above {c : CStr} {cs : List CStr} {b : Stat} (hcs : ∀ x ∈ c :: cs, Component x)
    (habove : ∀ ds, ds <+: cs → ∃ b, w.lstat k (pathOf (c :: ds)) = .ok b)
    (hb : w.lstat k (pathOf (c :: cs)) = .ok b) :
    fhCompPath w k (pathOf (c :: cs)) false =
      if (c :: cs).length ≤ fhMaxLen then
        { dev := b.dev, ino := b.ino, gen := getGen b, len := cs.length + 1
          inos := cs.inits.map fun ds => fhHash (statOrZero w k (pathOf (c :: ds))).ino }
      else invalidFh := by
  have hlen : (cuts (pathOf (c :: cs))).length = cs.length + 1 := by
    rw [cuts_pathOf hcs, List.length_map, List.length_inits]
  have hstat : ∀ p ∈ (cuts (pathOf (c :: cs))).take fhMaxLen, ∃ b, w.lstat k p = .ok b := by
    intro p hp
    have hp := List.mem_of_mem_take hp
    rw [cuts_pathOf hcs] at hp
    obtain ⟨ds, hds, rfl⟩ := List.mem_map.1 hp
    exact habove ds ((List.mem_inits ds cs).1 hds)
  rw [fhCompPath, hb]
  simp only [Bool.false_and, Bool.false_eq_true, ↓reduceIte,
    if_neg (pathOf_ne_root (hcs c (by simp))), hashes_ok hstat, List.length_cons, hlen]
  by_cases hdepth : cs.length + 1 ≤ fhMaxLen
  · rw [if_neg (by omega), if_pos hdepth, List.take_of_length_le (by rw [hlen]; exact hdepth),
      cuts_pathOf hcs, List.map_map, List.length_map, List.length_inits]
    rfl
  · rw [if_pos (by omega), if_neg hdepth]

/-- The handle of a path that can be searched. -/
theorem fhCompPath_pathOf {c : CStr} {cs : List CStr} {b : Stat} (hcs : ∀ x ∈ c :: cs, Component x)
    (hdepth : (c :: cs).length ≤ fhMaxLen) (ht : Tidy w k)
    (hb : w.lstat k (pathOf (c :: cs)) = .ok b) :
    fhCompPath w k (pathOf (c :: cs)) false =
      { dev := b.dev, ino := b.ino, gen := getGen b, len := cs.length + 1
        inos := cs.inits.map fun ds => fhHash (statOrZero w k (pathOf (c :: ds))).ino } := by
  rw [fhCompPath_above hcs _ hb, if_pos hdepth]
  rintro ds ⟨es, rfl⟩
  exact ht.above_all (by simp) es (by simpa using hb)

/-- A canonical path has one separator at its start. -/
theorem pathOf_ne_double {c : CStr} {cs ds : List CStr} (hc : Component c) (hds : ds ≠ []) :
    pathOf (c :: cs) ≠ root ++ pathOf ds := by
  intro h
  obtain ⟨d, ds, rfl⟩ := List.exists_cons_of_ne_nil hds
  obtain ⟨x, c, rfl⟩ := List.exists_cons_of_ne_nil hc.nonempty
  have hx : x = slash := by
    simp only [pathOf, root, List.flatMap_cons] at h
    simp at h
    exact h.1
  exact hc.slashless (by simp [hx])

/-- **The handle of a path is resolved to the path again**, whatever else has the hashes that are in
the handle. -/
theorem fh_round_trip (w : World L R) (s : Server L R) (cs : List CStr) (b : Stat)
    (hplain : Plain cs)
    (hne : cs ≠ []) (hdepth : cs.length ≤ 43) (hbytes : (pathOf cs).length ≤ 1022)
    (hb : w.lstat s.kernel (pathOf cs) = .ok b) (ht : Tidy w s.kernel) (hd : Dots w s.kernel)
    (hl : Linkless w s.kernel) (hone : OnlyName w s.kernel (pathOf cs)) :
    ∃ h, fhCompRaw w (pathOf cs) none false s = (.ok h, s) ∧ fhValid h = true ∧
      fhDecompRaw w s.kernel h = some (pathOf cs, some b) := by
  obtain ⟨c, cs, rfl⟩ := List.exists_cons_of_ne_nil hne
  have hcomp : ∀ x ∈ c :: cs, Component x := fun x hx => (hplain x hx).1
  have hcut := fhCompPath_pathOf hcomp hdepth ht hb
  refine ⟨_, rfl, ?_, ?_⟩
  · rw [hcut]
    simp [fhValid, hd.numbered _ _ hb]
  obtain ⟨h, hh⟩ : ∃ h, fhCompPath w s.kernel (pathOf (c :: cs)) false = h := ⟨_, rfl⟩
  have hfh := hh.symm.trans hcut
  have hleads : Leads w s.kernel h.len h.inos (pathOf (c :: cs)) (c :: cs) := by
    rw [hfh]
    refine ⟨.inl rfl, by simp, hcomp, fun x hx => (hplain x (List.dropLast_subset _ hx)).2,
      by simp, ?_, fun i hi => ?_⟩
    · have : maxPathLen = 1024 := rfl
      unfold Short
      omega
    · have hi' : i < cs.inits.length := by
        rw [List.length_inits]
        simp at hi
        omega
      rw [List.getD_eq_getElem?_getD, List.getElem?_map, List.getElem?_eq_getElem hi',
        List.getElem_inits]
      rfl
  obtain ⟨p, b', hrec, hsame⟩ :=
    (fhRec_iff ht (hone.sole ht hd hl) hb (by rw [hfh]; exact ⟨rfl, rfl⟩)).2 ⟨_, hleads⟩
  obtain ⟨ds, hds, rfl, rfl⟩ := fhRec_sound _ [] (by simpa using hrec)
  have hp : pathOf (c :: cs) = pathOf ds :=
    hsame.resolve_right (pathOf_ne_double (hcomp c (by simp)) hds.hits.1)
  rw [hh, fhDecompRaw, if_neg (by rw [hfh]; simp), hrec]
  simp only [List.nil_append, Option.map_some, ← hp]
  rw [statOrZero, ht.slashes _ (by simp) hleads.short, hb]

end

theorem treeWorld_slashes (b : Bool) (k : Sandbox.Kernel) : Slashes (Sandbox.treeWorld b) k :=
  fun _ hp => congrArg (Sandbox.find k) (squeeze_double hp)

theorem squeeze_dirPath (cs : List CStr) :
    Sandbox.squeeze (dirPath cs) = Sandbox.squeeze (root ++ pathOf cs) := by
  unfold dirPath
  split
  · rename_i h
    rw [h]
    rfl
  · rename_i h
    rw [squeeze_double (pathOf_head h)]

instance (b b' : Stat) : Decidable (b.Is b') := inferInstanceAs (Decidable (_ ∧ _))

/-- Files that say what `.` and `..` are. -/
theorem treeWorld_dots {b : Bool} {k : Sandbox.Kernel} (hnum : ∀ x ∈ k.files, x.2.ino ≠ 0)
    (hroot : (k.files.lookup root).any (·.isDir))
    (htop : ∀ x ∈ k.files, ∀ y ∈ k.files, x.1 = root → y.1 = lit "/.." → y.2.Is x.2)
    (hself : ∀ x ∈ k.files, ∀ y ∈ k.files, x.2.isDir → y.1 = Sandbox.stem x.1 ++ lit "." →
      y.2.Is x.2)
    (hparent : ∀ x ∈ k.files, ∀ d ∈ k.files, ∀ y ∈ k.files, x.2.isDir →
      y.1 = Sandbox.stem d.1 ++ lit ".." → Sandbox.stem x.1 <+: d.1 →
      slash ∉ d.1.drop (Sandbox.stem x.1).length → Ordinary (d.1.drop (Sandbox.stem x.1).length) →
      d.1 ≠ Sandbox.stem x.1 → y.2.Is x.2) :
    Dots (Sandbox.treeWorld b) k where
  numbered p st hp := hnum _ (mem_of_find hp)
  top := by
    obtain ⟨st, hst, hdir⟩ := (Option.any_eq_true _ _).1 hroot
    have hfind : Sandbox.find k root = .ok st := by rw [Sandbox.find, hst]
    refine ⟨st, hfind, hdir, fun st' hst' => ?_⟩
    exact htop _ (mem_of_find hfind) _ (mem_of_find hst') rfl rfl
  self cs st st' hst hdir hst' := by
    have hmem := mem_of_find hst'
    rw [squeeze_stem cs (by decide), ← squeeze_dirPath] at hmem
    exact hself _ (mem_of_find hst) _ hmem hdir rfl
  parent cs c st d st' hc ho hst hdir hd _ hst' := by
    have hmem := mem_of_find hst'
    have hdmem := mem_of_find hd
    have hcut := squeeze_stem cs hc
    rw [← squeeze_dirPath] at hcut
    rw [squeeze_stem _ (by decide), squeeze_double (pathOf_head (by simp)), hcut] at hmem
    rw [hcut] at hdmem
    refine hparent _ (mem_of_find hst) _ hdmem _ hmem hdir rfl (List.prefix_append _ _) ?_ ?_ ?_
    · simpa using hc.slashless
    · simpa using ho
    · simpa using hc.nonempty

theorem treeWorld_linkless {b : Bool} {k : Sandbox.Kernel}
    (h : ∀ x ∈ k.files, ∀ y ∈ k.files, Sandbox.stem x.1 <+: y.1 → y.1 ≠ Sandbox.stem x.1 →
      x.2.isDir) :
    Linkless (Sandbox.treeWorld b) k := by
  intro cs c st st' hcs hc hst hst'
  have hmem := mem_of_find hst'
  rw [squeeze_stem cs hc, squeeze_double (pathOf_head hcs)] at hmem
  exact h _ (mem_of_find hst) _ hmem (List.prefix_append _ _) (by simpa using hc.nonempty)

theorem treeWorld_onlyName {b : Bool} {k : Sandbox.Kernel} {cs : List CStr} {st : Stat}
    (hst : Sandbox.find k (Sandbox.squeeze (pathOf cs)) = .ok st) (hroot : root ≠ pathOf cs)
    (h : ∀ x ∈ k.files, x.2.Is st → x.1 = pathOf cs) :
    OnlyName (Sandbox.treeWorld b) k (pathOf cs) := by
  intro st' hst' ds d hds hd his
  obtain rfl : st = st' := Except.ok.inj (hst.symm.trans hst')
  have hname := h _ (mem_of_find hd) his
  unfold dirPath at hname ⊢
  split at hname
  · exact absurd hname hroot
  · rename_i hne
    rw [if_neg hne]
    rwa [squeeze_pathOf hne fun c hc => (hds c hc).1] at hname

/-- With an empty cache, the handle of `/e/n` is resolved by search. -/
theorem fhDecomp_sound_search : ∃ s' st,
    fhDecomp (Sandbox.treeWorld false) ⟨fhLength publicN, publicN⟩ treeServer =
      (.ok (some (lit "/e/n")), s') ∧
    (Sandbox.treeWorld false).lstat treeServer.kernel (lit "/e/n") = .ok st ∧ st.dev = 1 ∧
      st.ino = 4 ∧
    s'.stCacheValid = true ∧ s'.stCache = st := by
  obtain ⟨⟨r, s', hrun, _, hp⟩, _⟩ :=
    fhDecomp_sound (Sandbox.treeWorld false) ⟨fhLength publicN, publicN⟩
    treeServer (by decide) (by decide) (by decide) (by decide +kernel) (treeWorld_slashes false _)
  have hr : (fhDecomp (Sandbox.treeWorld false) ⟨fhLength publicN, publicN⟩ treeServer).1.toOption =
    some (some (lit "/e/n")) := by decide +kernel
  rw [hrun] at hr
  obtain rfl : r = some (lit "/e/n") := Option.some.inj hr
  obtain ⟨st, hst⟩ := hp _ rfl
  exact ⟨s', st, hrun, hst⟩

/-- The directories `/d` and `/e`, whose inode numbers have the same hash, and the file `/e/n`. -/
def dottedFiles : List (CStr × Stat) :=
  [(lit "/", { dev := 1, ino := 2, mode := 0o040755 }),
    (lit "/.", { dev := 1, ino := 2, mode := 0o040755 }),
    (lit "/..", { dev := 1, ino := 2, mode := 0o040755 }),
      (lit "/d", { dev := 1, ino := 513, mode := 0o040755 }),
    (lit "/d/.", { dev := 1, ino := 513, mode := 0o040755 }),
    (lit "/d/..", { dev := 1, ino := 2, mode := 0o040755 }),
      (lit "/e", { dev := 1, ino := 3, mode := 0o040755 }),
    (lit "/e/.", { dev := 1, ino := 3, mode := 0o040755 }),
      (lit "/e/..", { dev := 1, ino := 2, mode := 0o040755 }),
    (lit "/e/n", { dev := 1, ino := 4, mode := 0o100644 })]

def dottedServer : Server Sandbox.Kernel Sandbox.Grid :=
    Sandbox.server [] { files := dottedFiles } {}

theorem dotted_dots : Dots (Sandbox.treeWorld false) dottedServer.kernel :=
  treeWorld_dots (by decide +kernel) (by decide +kernel) (by decide +kernel) (by decide +kernel)
    (by decide +kernel)

theorem dotted_linkless : Linkless (Sandbox.treeWorld false) dottedServer.kernel :=
  treeWorld_linkless (by decide +kernel)

/-- The search for `/e/n` passes `.`, `..` and the other directory. -/
theorem fh_round_trip_collision : fhHash 513 = fhHash 3 ∧ ∃ h,
    fhCompRaw (Sandbox.treeWorld false) (lit "/e/n") none false dottedServer =
      (.ok h, dottedServer) ∧
    fhValid h = true ∧ (fhDecompRaw (Sandbox.treeWorld false) dottedServer.kernel h).map (·.1) =
      some (lit "/e/n") := by
  have hst : Sandbox.find dottedServer.kernel (Sandbox.squeeze (pathOf [lit "e", lit "n"])) =
    .ok { dev := 1, ino := 4, mode := 0o100644 } := by decide +kernel
  obtain ⟨h, hcomp, hvalid, hdec⟩ :=
    fh_round_trip (Sandbox.treeWorld false) dottedServer [lit "e", lit "n"] _
    (by decide) (by simp) (by decide) (by decide) hst
      (treeWorld_tidy (by decide +kernel)) dotted_dots dotted_linkless
    (treeWorld_onlyName hst (by decide) (by decide +kernel))
  exact ⟨by decide, h, hcomp, hvalid, by rw [hdec]; rfl⟩

end NfsRods
