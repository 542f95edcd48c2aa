import NfsRods.Proof.Canonical

/-!
# The paths in the handle cache

`fh_cache_add` is given paths of three kinds: those that MNT has resolved, those that a search has
found, and those that `cat_name` has made of a directory's path and a name. In public mode a path of
the last kind is not rewritten, and it is written as the others are unless the directory is the root
directory, which `cat_name` gives a second separator.

* `PlainCache`: every path in the cache is written in one way.
* `Tame`: what a request must not do for that.
* `TameRuns.plain`: it holds in every state that a run of such requests reaches.
-/

namespace NfsRods

open CStr
open Prog (Frame)

/-- `p` has one separator before each component, and none of them is `.` or `..`. -/
def PlainPath (p : CStr) : Prop := ∃ cs, Plain cs ∧ p = dirPath cs

/-- Every path of the handle cache is plain; of entries that are not in use nothing is said. -/
def PlainCache (c : FhCache) : Prop :=
  ∀ i, ((c.entry i).dev = 0 ∧ (c.entry i).ino = 0) ∨ PlainPath (c.entry i).path

/-- Every export path is plain. -/
def PlainExports (list : List EItem) : Prop := ∀ i ∈ list, PlainPath i.path

/-! ## Paths -/

theorem PlainPath.root : PlainPath root := ⟨[], by simp [Plain], rfl⟩

theorem Canonical.plainPath {L R : Type} {w : World L R} {k : L} {p : CStr} (h : Canonical w k p) :
    PlainPath p := by
  obtain ⟨cs, hp, hcs, _⟩ := h
  exact ⟨cs, hcs, hp⟩

/-- A name below a directory other than the root directory. -/
theorem PlainPath.child {p name : CStr} (hp : PlainPath p) (hroot : p ≠ CStr.root)
    (hc : Component name)
    (ho : Ordinary name) : PlainPath (p ++ CStr.root ++ name) := by
  obtain ⟨cs, hcs, rfl⟩ := hp
  have hne : cs ≠ [] := fun h => hroot (by rw [dirPath, if_pos h])
  refine ⟨cs ++ [name], fun c hmem => ?_, ?_⟩
  · rcases List.mem_append.1 hmem with h | h
    · exact hcs c h
    · rw [List.mem_singleton.1 h]
      exact ⟨hc, ho⟩
  · rw [dirPath, if_neg hne, dirPath, if_neg (by simp), pathOf_snoc]

theorem reverse_dropWhile_component {c : CStr} (hc : Component c) (p : CStr) :
    ((p ++ root ++ c).reverse.dropWhile (· ≠ slash)).reverse = p ++ root := by
  have hall : ∀ b ∈ c.reverse, decide (b ≠ slash) = true := fun b hb =>
    decide_eq_true fun h => hc.slashless (by rw [← h]; exact List.mem_reverse.1 hb)
  rw [List.reverse_append, List.dropWhile_append_of_pos hall]
  simp [root]

/-- What is above a path. -/
theorem PlainPath.parent {p : CStr} (hp : PlainPath p) :
    PlainPath (if ((p.reverse.dropWhile (· ≠ slash)).reverse).length ≤ 1 then CStr.root
      else ((p.reverse.dropWhile (· ≠ slash)).reverse).dropLast) := by
  obtain ⟨cs, hcs, rfl⟩ := hp
  rcases List.eq_nil_or_concat' cs with rfl | ⟨ds, c, rfl⟩
  · exact .root
  · have hpath : dirPath (ds ++ [c]) = pathOf ds ++ CStr.root ++ c := by
      rw [dirPath, if_neg (by simp), pathOf_snoc]
    rw [hpath, reverse_dropWhile_component (hcs c (by simp)).1]
    split
    · exact .root
    · rename_i hlen
      have hne : ds ≠ [] := fun h => hlen (by simp [h, CStr.root])
      refine ⟨ds, fun d hd => hcs d (by simp [hd]), ?_⟩
      rw [dirPath, if_neg hne]
      simp [CStr.root]

/-- `cat_name` keeps to plain paths, unless it appends a name to that of the root directory. -/
theorem catName_plain {p name obj : CStr} (hp : PlainPath p) (hroot : Ordinary name → p ≠ root)
    (h : (catName (some p) name).2 = some obj) : PlainPath obj := by
  have hacc : Accepted p name := by
    by_contra hno
    rw [catName_rejected hno] at h
    cases h
  rw [catName_accepted hacc] at h
  rw [← Option.some.inj h, childPath]
  split
  · exact hp
  · rename_i hdot
    split
    · exact hp.parent
    · rename_i hdots
      have ho : Ordinary name := fun h => h.elim hdot hdots
      exact hp.child (hroot ho) ⟨hacc.1, hacc.2.1⟩ ho

theorem PlainExports.of_fsid {list : List EItem} (h : PlainExports list) {fsid : ULong} {p : CStr}
    (hp : exportPointFromFsid list fsid = some p) : PlainPath p := by
  obtain ⟨i, hi, rfl⟩ := Option.map_eq_some_iff.1 hp
  exact h i (List.mem_of_find?_eq_some hi)

theorem PlainExports.of_point {list : List EItem} (h : PlainExports list) {p : CStr}
    (hp : exportPoint list p = true) : PlainPath p := by
  obtain ⟨i, hi, heq⟩ := List.any_eq_true.1 hp
  rw [← beq_iff_eq.1 heq]
  exact h i hi

/-! ## The cache -/

namespace PlainCache

variable {c : FhCache}

theorem empty : PlainCache {} := fun _ => .inl ⟨rfl, rfl⟩

theorem set (h : PlainCache c) {e : FhEntry} (he : (e.dev = 0 ∧ e.ino = 0) ∨ PlainPath e.path)
    (i : Nat) : PlainCache (c.set i e) := by
  intro j
  simp only [FhCache.set]
  split
  · exact he
  · exact h j

theorem inval (h : PlainCache c) (i : Nat) : PlainCache (c.inval i) := h.set (.inl ⟨rfl, rfl⟩) i

/-- An entry that is found is marked as used. -/
theorem touch (h : PlainCache c) (i : Nat) :
    PlainCache { c.next.set i { c.next.entry i with use := c.next.time } with
      lastEntry := some i } :=
  PlainCache.set (c := c.next) h (e := { c.entry i with use := c.next.time }) (h i) i

theorem add (h : PlainCache c) {p : CStr} (hp : PlainPath p) (dev ino : ULong) :
    PlainCache (c.add dev ino p) := by
  have hlru : PlainCache c.lru.2 := by
    unfold FhCache.lru
    split <;> exact h
  unfold FhCache.add
  cases c.index dev ino with
  | some i => exact PlainCache.set (c := c.next) h (.inr hp) i
  | none => exact PlainCache.set (c := c.lru.2.next) hlru (.inr hp) c.lru.1

/-- The path that the cache has for an object. -/
theorem of_index (h : PlainCache c) {dev ino : ULong} (hobj : ¬ (dev = 0 ∧ ino = 0)) {i : Nat}
    (hi : c.index dev ino = some i) : PlainPath (c.entry i).path := by
  have hkey := List.find?_some hi
  rw [Bool.and_eq_true, beq_iff_eq, beq_iff_eq] at hkey
  refine (h i).resolve_left fun hz => hobj ?_
  rwa [hkey.1, hkey.2] at hz

end PlainCache

/-! ## Resolution -/

section
variable {L R : Type}

/-- What the file system says of paths: names are components, mount points are listed under their
names, and `realpath` returns plain paths. -/
structure Posix (w : World L R) : Prop where
  names : ∀ k q, ∀ x ∈ listing w k q, Component x.name
  mounts : ∀ k mtab, w.mtab k = some mtab → ∀ d ∈ mtab, MountPoint w k d
  realpath : ∀ k p q, w.realpath k p = some q → PlainPath q

/-- The handle cache has the path `p` for the object, and it is one of its paths. -/
def Hit (w : World L R) (s : Server L R) (obj : Unfs3Fh) (p : CStr) : Prop :=
  ∃ i st, s.fh.index obj.dev obj.ino = some i ∧ (s.fh.entry i).path = p ∧
    NameOf w s.kernel obj.dev obj.ino p st

/-- `fh` is a handle of the root directory: of the export `/`, if its path is known without a
lookup, else one without hashes or with the root directory's numbers. -/
def OfRoot (w : World L R) (s : Server L R) (fh : NfsFh3) : Prop :=
  if ExportRoot s fh then exportPointFromFsid s.exportList fh.obj.dev = some root
  else fh.obj.len = 0 ∨ ∃ st, NameOf w s.kernel fh.obj.dev fh.obj.ino root st

end

section
variable {L R : Type} {w : World L R} {k : L} {s s1 : Server L R} {obj : Unfs3Fh} {p : CStr}

theorem uncached_self (w : World L R) (k : L) (obj : Unfs3Fh) :
    uncached (relisted w (w.readdir k)) k obj = uncached w k obj := by
  have hrec : fhRec (relisted w (w.readdir k)) k obj = fhRec w k obj := by
    funext n pfx
    rw [fhRec_eq_search, fhRec_eq_search]
    rfl
  have hloc : locateFile (relisted w (w.readdir k)) k obj.dev obj.ino =
    locateFile w k obj.dev obj.ino := by
    rw [locateFile_eq, locateFile_eq, mountOf_relisted]
    refine congrArg _ (funext fun pfx => ?_)
    rw [locatePfx_eq_search, locatePfx_eq_search]
    rfl
  rw [uncached, uncached, fhDecompRaw, fhDecompRaw, hrec, hloc]

/-- A handle that is `Clear` is resolved to a canonical path. -/
theorem Clear.canonical (hw : Posix w) (h : Clear w k obj) (hp : uncached w k obj = some p) :
    Canonical w k p := by
  refine h.canonical_relisted (hw.names k) (hw.mounts k) (fun q => ?_) (by rw [uncached_self, hp])
  cases w.readdir k q with
  | error e => exact .error e
  | ok es => exact .ok (.refl es)

theorem uncached_ne_root (hw : Posix w) (hlen : obj.len ≠ 0) (h : uncached w k obj = some p) :
    p ≠ root := by
  rw [uncached, fhDecompRaw, if_neg hlen] at h
  cases hrec : fhRec w k obj obj.len root with
  | some r =>
    rw [hrec] at h
    obtain ⟨cs, hf, hr, _⟩ := fhRec_sound _ [] (by simpa using hrec)
    have hcomp : ∀ c ∈ cs, Component c := by
      refine hf.component fun ds c hc => ?_
      obtain ⟨x, hx, rfl⟩ := mem_listing.1 hc
      exact hw.names k _ x hx
    obtain rfl : r.1 = p := Option.some.inj h
    rw [hr]
    exact (root_ne_pathOf hcomp).symm
  | none =>
    rw [hrec, locateFile_eq] at h
    obtain ⟨r, hr, rfl⟩ := Option.map_eq_some_iff.1 h
    obtain ⟨dir, _, hr⟩ := Option.bind_eq_some_iff.1 hr
    rw [locatePfx_eq_search] at hr
    obtain ⟨cs, hcs, hcut⟩ := located_of_meets (Descent.search_meets hr)
    obtain ⟨hne, hcomp, _⟩ := hcs.way (hw.names k)
    obtain ⟨c, cs, rfl⟩ := List.exists_cons_of_ne_nil hne
    have hpos := List.length_pos_of_ne_nil (hcomp c (by simp)).nonempty
    intro heq
    have hlength := congrArg List.length (hcut.symm.trans heq)
    simp only [pathOf, root, List.flatMap_cons, List.length_append,
      List.length_singleton] at hlength
    omega

/-- A lookup finds an entry that is still right, or nothing. -/
theorem fhCacheLookup_cases (w : World L R) (s : Server L R) (obj : Unfs3Fh) :
    (∃ p, Hit w s obj p ∧ (fhCacheLookup w obj.dev obj.ino s).1 = .ok (some p)) ∨
      (∀ p, ¬ Hit w s obj p) ∧ (fhCacheLookup w obj.dev obj.ino s).1 = .ok none := by
  unfold fhCacheLookup
  split
  · rename_i hi
    refine .inr ⟨fun p => ?_, rfl⟩
    rintro ⟨i, _, hi', _⟩
    rw [hi] at hi'
    cases hi'
  · rename_i i hi
    have hno : ∀ p st, s.fh.index obj.dev obj.ino = some i → Hit w s obj p →
        w.lstat s.kernel (s.fh.entry i).path = .ok st → st.dev = obj.dev ∧ st.ino = obj.ino := by
      rintro p st hi ⟨j, st', hj, rfl, hst', hnum⟩ hst
      obtain rfl := Option.some.inj (hi.symm.trans hj)
      rw [hst] at hst'
      cases hst'
      exact hnum
    split
    · rename_i e he
      refine .inr ⟨fun p => ?_, rfl⟩
      rintro ⟨j, st, hj, rfl, hst, _⟩
      obtain rfl := Option.some.inj (hi.symm.trans hj)
      rw [he] at hst
      cases hst
    · rename_i st hst
      split
      · rename_i hnum
        exact .inl ⟨_, ⟨i, st, hi, rfl, hst, hnum⟩, rfl⟩
      · rename_i hnum
        exact .inr ⟨fun p hp => hnum (hno p st hi hp hst), rfl⟩

theorem fhCacheLookup_plain (hc : PlainCache s.fh) (dev ino : ULong) :
    PlainCache (fhCacheLookup w dev ino s).2.fh := by
  unfold fhCacheLookup
  split
  · exact hc
  · split
    · exact hc.inval _
    · split
      · exact hc.touch _
      · exact hc.inval _

/-- Resolution of a handle that the cache does not know. -/
theorem fhDecompHard_miss (h : fhCacheLookup w obj.dev obj.ino s = (.ok none, s1)) :
    (fhDecompHard w obj s).1 = .ok (uncached w s.kernel obj) ∧
      (fhDecompHard w obj s).2.fh =
        (uncached w s.kernel obj).elim s1.fh (s1.fh.add obj.dev obj.ino) := by
  obtain ⟨_, _, hk⟩ := fhCacheLookup_miss h
  rw [fhDecompHard, Prog.bind_ok h]
  simp only [Prog.get_bind_run, hk, uncached]
  cases fhDecompRaw w s.kernel obj with
  | some r =>
    obtain ⟨p, st⟩ := r
    cases st <;> exact ⟨rfl, rfl⟩
  | none =>
    cases locateFile w s.kernel obj.dev obj.ino <;> exact ⟨rfl, rfl⟩

theorem fhDecompHard_hit (h : Hit w s obj p) : (fhDecompHard w obj s).1 = .ok (some p) ∧
    (fhDecompHard w obj s).2.fh = (fhCacheLookup w obj.dev obj.ino s).2.fh := by
  rcases fhCacheLookup_cases w s obj with ⟨q, hq, hres⟩ | ⟨hno, _⟩
  · obtain rfl : p = q := by
      obtain ⟨i, _, hi, rfl, _⟩ := h
      obtain ⟨j, _, hj, rfl, _⟩ := hq
      rw [Option.some.inj (hi.symm.trans hj)]
    rw [fhDecompHard, Prog.bind_ok (Prod.ext hres rfl)]
    exact ⟨rfl, rfl⟩
  · exact absurd h (hno p)

/-- Resolution adds no path but that of a search. -/
theorem fhDecompHard_plain (hw : Posix w) (hclear : Clear w s.kernel obj) (hc : PlainCache s.fh) :
    PlainCache (fhDecompHard w obj s).2.fh := by
  have hlook := fhCacheLookup_plain (w := w) hc obj.dev obj.ino
  rcases fhCacheLookup_cases w s obj with ⟨p, hp, _⟩ | ⟨_, hres⟩
  · rw [(fhDecompHard_hit hp).2]
    exact hlook
  · rw [(fhDecompHard_miss (Prod.ext hres rfl)).2]
    cases hp : uncached w s.kernel obj with
    | none => exact hlook
    | some p => exact hlook.add (hclear.canonical hw hp).plainPath _ _

/-- What a handle of an object is resolved to. -/
theorem fhDecompHard_path (hw : Posix w) (hclear : Clear w s.kernel obj) (hc : PlainCache s.fh)
    (hobj : fhValid obj = true) (h : (fhDecompHard w obj s).1 = .ok (some p)) :
    PlainPath p ∧ (p = root → obj.len = 0 ∨ ∃ st, NameOf w s.kernel obj.dev obj.ino root st) := by
  rcases fhCacheLookup_cases w s obj with ⟨q, hq, _⟩ | ⟨_, hres⟩
  · obtain rfl : q = p := by
      rw [(fhDecompHard_hit hq).1] at h
      exact Option.some.inj (Except.ok.inj h)
    obtain ⟨i, st, hi, rfl, hst⟩ := hq
    refine ⟨hc.of_index ?_ hi, fun hroot => .inr ⟨st, hroot ▸ hst⟩⟩
    simpa [fhValid, or_iff_not_imp_left] using hobj
  · rw [(fhDecompHard_miss (Prod.ext hres rfl)).1] at h
    have hp := Except.ok.inj h
    refine ⟨(hclear.canonical hw hp).plainPath, fun hroot => .inl ?_⟩
    by_contra hlen
    exact uncached_ne_root hw hlen hp hroot

theorem fhDecomp_plain {fh : NfsFh3} (hw : Posix w) (hclear : Clear w s.kernel fh.obj)
    (hc : PlainCache s.fh) : PlainCache (fhDecomp w fh s).2.fh := by
  by_cases hv : nfhValid fh = true
  · by_cases hroot : ExportRoot s fh
    · obtain ⟨p, hp⟩ := Option.isSome_iff_exists.1 hroot.1
      rw [fhDecomp_exportRoot hv hp hroot.2]
      exact hc
    · rw [fhDecomp_hard hv hroot]
      exact fhDecompHard_plain hw hclear hc
  · rw [fhDecomp, if_pos (by simpa using hv)]
    exact hc

theorem fhDecomp_path {fh : NfsFh3} (hw : Posix w) (hclear : Clear w s.kernel fh.obj)
    (he : PlainExports s.exportList) (hc : PlainCache s.fh) (hobj : fhValid fh.obj = true)
    (h : (fhDecomp w fh s).1 = .ok (some p)) : PlainPath p ∧ (p = root → OfRoot w s fh) := by
  have hv : nfhValid fh = true := by
    by_contra hv
    rw [fhDecomp, if_pos (by simpa using hv)] at h
    cases h
  unfold OfRoot
  split
  · rename_i hroot
    obtain ⟨q, hq⟩ := Option.isSome_iff_exists.1 hroot.1
    rw [fhDecomp_exportRoot hv hq hroot.2] at h
    obtain rfl : q = p := Option.some.inj (Except.ok.inj h)
    exact ⟨he.of_fsid hq, fun hp => hp ▸ hq⟩
  · rename_i hroot
    rw [fhDecomp_hard hv hroot] at h
    exact fhDecompHard_path hw hclear hc hobj h

end

/-! ## One request -/

/-- The object that a request adds to the handle cache. -/
def NfsRequest.added : NfsRequest → Option Diropargs3
  | .lookup what | .create what _ => some what
  | _ => none

section
variable {L R : Type}

/-- The request brings no path into the handle cache that is not plain: each handle is `Clear` where
it is resolved, and no name is looked up or created in the root directory. -/
structure Tame (w : World L R) (v : Visit L R) : Prop where
  clear : ∀ fh, v.call.handle = some fh → Clear w (arrive w v.rq v.state).kernel fh.obj
  target : ∀ argsFrom argsTo d s1, v.call = .rename argsFrom argsTo →
    prep w argsFrom.dir v.rq (enter v.rq v.state) = (.ok (.ok d), s1) →
      Clear w s1.kernel argsTo.dir.obj
  name : ∀ what, v.call.added = some what → fhValid what.dir.obj = true ∧
    (Ordinary what.name → ¬ OfRoot w (arrive w v.rq v.state) what.dir)

/-- The export list is as it was, and no path has come into the handle cache that is not plain. -/
def Plainly (s s' : Server L R) : Prop :=
  s'.exportList = s.exportList ∧ (PlainCache s.fh → PlainCache s'.fh)

instance : OwnFrame (Plainly (L := L) (R := R)) where
  refl _ := ⟨rfl, id⟩
  trans _ _ _ h h' := ⟨h'.1.trans h.1, fun hc => h'.2 (h.2 hc)⟩
  own h := ⟨h.exportList, fun hc => by rw [h.fh]; exact hc⟩

instance (w : World L R) : Allows w (fun _ => True) Plainly where
  sys _ s := by
    unfold NfsRods.sys
    split <;> exact ⟨rfl, id⟩
  rods _ _ := ⟨rfl, id⟩
  path _ _ := ⟨rfl, id⟩
  copy _ _ := ⟨rfl, id⟩
  listed _ _ := ⟨rfl, id⟩

end

section
variable {L R : Type} {w : World L R} {s : Server L R}

theorem exportsOptionsM_plainly (path : Option CStr) (rq : SvcReq) :
    Frame Plainly (exportsOptionsM path rq : M L R Lookup) := fun _ => ⟨rfl, id⟩

theorem fhCacheAdd_plainly {p : CStr} (hp : PlainPath p) (dev ino : ULong) :
    Frame Plainly (fhCacheAdd dev ino p : M L R Unit) := fun _ => ⟨rfl, fun hc => hc.add hp dev ino⟩

theorem fhComp_plainly {p : CStr} (hp : PlainPath p) (rq : SvcReq) (needDir : Bool) :
    Frame Plainly (fhComp w p rq needDir) := by
  refine .bind (.bind .get fun s => .ite (fun _ => ?_) fun _ => .pure _) fun _ => ?_
  · refine .bind (exportsOptionsM_plainly _ _) fun k => .ite (fun _ => .pure _) fun _ => ?_
    exact .ite (fun _ => .pure _) fun _ => .pure _
  · exact .bind (.when fun _ => fhCacheAdd_plainly hp _ _) fun _ => .bind .get fun _ => .pure _

theorem lookupFh_plainly {obj : CStr} (hp : PlainPath obj) (what : Diropargs3) (buf : Stat)
    (rq : SvcReq) :
    Frame Plainly (lookupFh w what obj buf rq) := by
  refine .ite (fun _ => .bind (fhComp_plainly hp _ _) fun _ => .pure _) fun _ => ?_
  exact .bind (fhExtend_frame _ _ _ _) fun _ => .bind (fhCacheAdd_plainly hp _ _) fun _ => .pure _

theorem lookupLocal_plainly {what : Diropargs3} {path : CStr} (hp : PlainPath path)
    (hroot : Ordinary what.name → path ≠ root) (rq : SvcReq) :
    Frame Plainly (lookupLocal w what path rq) := by
  unfold lookupLocal
  split
  · rename_i obj hcat
    have hobj : PlainPath obj := catName_plain hp hroot (by rw [hcat])
    refine .bind (lstat_frame _) fun st => ?_
    cases st with
    | none => exact .bind .get fun _ => .pure _
    | some buf =>
      refine .bind (lookupFh_plainly hobj _ _ _) fun fh => ?_
      cases fh with
      | none => exact .pure _
      | some fh =>
        refine .bind (getPostBuf_frame _ _) fun _ =>
          .bind (modify_frame fun _ => ?_) fun _ => .pure _
        exact ⟨rfl, rfl, rfl, rfl, rfl, rfl⟩
  · exact .pure _

/-! ### Public mode -/

section
variable (hpub : w.conf.privateColl = false)

include hpub

/-- In public mode the path of an object is the path of its mirror. -/
theorem getRealPathNFS_public {p q : CStr} {uid : UInt32} {s s' : Server L R}
    (h : getRealPathNFS w p uid s = (.ok q, s')) : q = p := by
  cases hpath : s.exports.path with
  | none =>
    obtain ⟨s1, h1, t1⟩ := debug_tacit (w := w) "getRealPathNFS %s" s
    obtain ⟨s2, h2, _⟩ := isPublic_stops (w := w) (s := s1) (by rw [t1.exports, hpath])
    rw [getRealPathNFS, Prog.bind_ok h1, Prog.bind_error h2] at h
    cases h
  | some e =>
    obtain ⟨s1, h1, _⟩ := getRealPathNFS_ends (w := w) hpath p uid
    rw [h] at h1
    cases h1
    rw [realPath, if_pos]
    simp [publicPath, hpub]

theorem rewriteObj_public {filled : Bool} {obj q : CStr} {uid : UInt32} {s s' : Server L R}
    (h : rewriteObj w filled obj uid s = (.ok q, s')) : q = obj := by
  obtain ⟨_, s1, _, h⟩ := Prog.bind_eq_ok h
  obtain ⟨_, s2, _, h⟩ := Prog.bind_eq_ok h
  obtain ⟨real, s3, h3, h⟩ := Prog.bind_eq_ok h
  cases h
  exact getRealPathNFS_public hpub h3

theorem lookupBody_plainly {what : Diropargs3} {dir : CStr} (hp : PlainPath dir)
    (hroot : Ordinary what.name → dir ≠ root) (rq : SvcReq) :
    Frame Plainly (lookupBody w what dir rq) := by
  refine .bind (debug_frame _) fun _ =>
    .bind (getRodsPath_frame (calm_path fun _ _ => trivial) _ _) fun _ => ?_
  refine .bind (debug_frame _) fun _ => ?_
  refine .bind_result (getRealPathNFS_frame (calm_path fun _ _ => trivial) _ _)
    fun s path s' hpath => ?_
  obtain rfl := getRealPathNFS_public hpub hpath
  refine .bind (debug_frame _) fun _ => .bind (lookupLocal_plainly hp hroot rq) fun _ => ?_
  refine .bind (getPostStat_frame _ _) fun _ => .bind .get fun _ =>
    .bind (.when fun _ => ?_) fun _ => ?_
  · refine .bind (remoteSize_frame (fun _ _ => trivial) _ _) fun _ => modify_frame fun _ => ?_
    exact ⟨rfl, rfl, rfl, rfl, rfl, rfl⟩
  · exact .bind (debug_frame _) fun _ => .bind .get fun _ => .pure _

omit hpub in
theorem createStatus_cat {s : Server L R} {cat : Nfsstat3} {how : Createhow3}
    (h : createStatus w s cat how = .ok) : cat = .ok := by
  cases how <;> simp only [createStatus, join_eq_ok] at h
  · exact h.1.1
  · exact h.1.1
  · exact h.1

theorem createBody_plainly {args : Diropargs3} {path : CStr} (hp : PlainPath path)
    (hroot : Ordinary args.name → path ≠ root) (how : Createhow3) (rq : SvcReq) (unset : Junk) :
    Frame Plainly (createBody w path args how rq unset) := by
  refine .bind .get fun s => ?_
  refine .bind_result (rewriteObj_frame (calm_path fun _ _ => trivial) (fun _ _ => trivial) _ _ _)
    fun _ obj _ hobj => ?_
  obtain rfl := rewriteObj_public hpub hobj
  refine createAct_frame (fun _ _ => trivial) (fun _ => trivial) (fun _ => trivial) _ _ _ _ _ _ _
    fun hok => ?_
  have hsome := (catName_isSome (some path) args.name).2 (createStatus_cat hok)
  obtain ⟨obj, hcat⟩ := Option.isSome_iff_exists.1 hsome
  rw [hcat, Option.getD_some]
  exact fhCacheAdd_plainly (catName_plain hp hroot hcat)

end

/-! ### Every request -/

theorem fhDecomp_plainly (hw : Posix w) {fh : NfsFh3} (hclear : Clear w s.kernel fh.obj) :
    Plainly s (fhDecomp w fh s).2 :=
  ⟨(fhDecomp_foot (E := fun _ => True) fh s).exportList, fhDecomp_plain hw hclear⟩

theorem prep_plainly (hw : Posix w) {fh : NfsFh3} (rq : SvcReq)
    (hclear : Clear w (switchToRoot w s).2.kernel fh.obj) : Plainly s (prep w fh rq s).2 := by
  refine Prog.rel_bind (switchToRoot_frame (E := fun _ => True) (fun _ _ => trivial) s)
    fun _ s1 h1 => ?_
  rw [h1] at hclear
  refine Prog.rel_bind (fhDecomp_plainly hw hclear) fun p s2 _ => ?_
  refine Prog.rel_bind (exportsOptionsM_plainly p rq s2) fun k s3 _ => ?_
  revert s3
  cases p with
  | none => exact fun _ _ => ⟨rfl, id⟩
  | some path =>
    refine fun s3 _ => Frame.ite (fun _ => .pure _)
      (fun _ => .ite (fun _ => .pure _) fun _ => ?_) s3
    exact .bind (switchUser_frame (E := fun _ => True) (fun _ _ => trivial) _) fun _ => .pure _

/-- The path of the directory of a request. -/
theorem prep_path_plain (hw : Posix w) {fh : NfsFh3} {rq : SvcReq} {d : CStr} {s1 : Server L R}
    (hclear : Clear w (switchToRoot w s).2.kernel fh.obj) (he : PlainExports s.exportList)
    (hc : PlainCache s.fh) (hobj : fhValid fh.obj = true) (h : prep w fh rq s = (.ok (.ok d), s1)) :
    PlainPath d ∧ (d = root → OfRoot w (switchToRoot w s).2 fh) := by
  obtain ⟨t, t', _, ht, hd, _⟩ := prep_inv h
  obtain ⟨hlist, hcache⟩ :=
    switchToRoot_frame (w := w) (r := Plainly) (E := fun _ => True) (fun _ _ => trivial) s
  rw [ht] at hclear hlist hcache ⊢
  exact fhDecomp_path hw hclear (by rw [hlist]; exact he) (hcache hc) hobj (by rw [hd])

theorem withPrep_plainly {α : Type} {fh : NfsFh3} {rq : SvcReq} {refuse : Nfsstat3 → M L R α}
    {body : CStr → M L R α} (hprep : Plainly s (prep w fh rq s).2)
    (hr : ∀ st, Frame Plainly (refuse st))
    (hb : ∀ d s1, prep w fh rq s = (.ok (.ok d), s1) → Plainly s1 (body d s1).2) :
    Plainly s (withPrep w fh rq refuse body s).2 := by
  refine Prog.rel_bind hprep fun a s1 h => ?_
  cases a with
  | error st => exact hr st s1
  | ok d => exact hb d s1 h

theorem renameBody_plainly (hw : Posix w) {argsTo : Diropargs3}
    (hclear : Clear w s.kernel argsTo.dir.obj)
    (fromPath : CStr) (argsFrom : Diropargs3) (rq : SvcReq) (unset : Junk) :
    Plainly s (renameBody w fromPath argsFrom argsTo rq unset s).2 := by
  rw [renameBody, Prog.get_bind_run]
  refine Prog.rel_bind (fhDecomp_plainly hw hclear) fun toPath s1 _ => ?_
  refine Frame.bind (.ite (fun _ => ?_) fun _ => .pure _) (fun _ => renameEnd_frame _ _ _ _ _ _) s1
  rw [renameTo_bind]
  refine .bind (fun _ => ⟨rfl, id⟩) fun _ => ?_
  exact renameRest_frame (fun _ _ => trivial) (fun _ => trivial) (fun _ => trivial)
    (fun _ _ => trivial) _ _ _ _ _

end

/-! ## Runs -/

section
variable {L R : Type} {w : World L R} {s s' : Server L R}

theorem replyWith_plainly {α : Type} {f : α → NfsReply} {m : M L R α} (h : Plainly s (m s).2) :
    Plainly s (replyWith f m s).2 := Prog.rel_bind h fun _ _ _ => ⟨rfl, id⟩

/-- A tame request keeps to plain paths. -/
theorem serve_plainly (hw : Posix w) (hpub : w.conf.privateColl = false) {v : Visit L R}
    (ht : Tame w v)
    (he : PlainExports v.state.exportList) (hc : PlainCache v.state.fh) :
    Plainly v.state (v.serve w).2 := by
  obtain ⟨rq, call, s⟩ := v
  have hprep : ∀ fh, call.handle = some fh → Plainly (enter rq s) (prep w fh rq (enter rq s)).2 :=
    fun fh hfh => prep_plainly hw rq (ht.clear fh hfh)
  -- the directory in which a name is looked up or created
  have hdir : ∀ what d s1, call.added = some what → call.handle = some what.dir →
      prep w what.dir rq (enter rq s) = (.ok (.ok d), s1) →
      PlainPath d ∧ (Ordinary what.name → d ≠ root) := by
    intro what d s1 hadd hfh hp
    obtain ⟨hobj, hname⟩ := ht.name what hadd
    obtain ⟨hd, hroot⟩ := prep_path_plain hw (ht.clear _ hfh) he hc hobj hp
    exact ⟨hd, fun ho h => hname ho (hroot h)⟩
  show Plainly (enter rq s) (nfsProgram w rq call (enter rq s)).2
  cases call with
  | null => exact ⟨rfl, id⟩
  | unsupported => exact ⟨rfl, id⟩
  | getattr object =>
    refine replyWith_plainly
      (withPrep_plainly (hprep object rfl) (fun _ => .pure _) fun d s1 _ => ?_)
    exact getattrBody_frame (fun _ _ => trivial) d rq s1
  | setattr object new =>
    refine replyWith_plainly
      (withPrep_plainly (hprep object rfl) (fun _ => .pure _) fun d s1 _ => ?_)
    exact setattrBody_frame (fun _ _ => trivial) (fun _ => trivial)
      (fun _ => trivial) d object new rq s1
  | lookup what =>
    refine replyWith_plainly (withPrep_plainly (hprep what.dir rfl) (fun _ => ?_) fun d s1 hp => ?_)
    · exact .bind (modify_frame fun _ => ⟨rfl, rfl, rfl, rfl, rfl, rfl⟩) fun _ => .pure _
    · obtain ⟨hd, hroot⟩ := hdir what d s1 rfl rfl hp
      exact lookupBody_plainly hpub hd hroot rq s1
  | access object access =>
    refine replyWith_plainly
      (withPrep_plainly (hprep object rfl) (fun _ => .pure _) fun d s1 _ => ?_)
    exact accessBody_frame (fun _ _ => trivial) (fun _ _ => trivial) d access rq s1
  | read file offset count =>
    refine replyWith_plainly (withPrep_plainly (hprep file rfl) (fun _ => .pure _) fun d s1 _ => ?_)
    exact readBody_frame (fun _ _ => trivial) d offset count rq _ s1
  | write args =>
    refine replyWith_plainly
      (withPrep_plainly (hprep args.file rfl) (fun _ => .pure _) fun d s1 _ => ?_)
    exact writeBody_frame (fun _ _ => trivial) (fun _ => trivial) (fun _ => trivial) d args rq s1
  | create args how =>
    refine replyWith_plainly
      (withPrep_plainly (hprep args.dir rfl) (fun _ => .pure _) fun d s1 hp => ?_)
    obtain ⟨hd, hroot⟩ := hdir args d s1 rfl rfl hp
    exact createBody_plainly hpub hd hroot how rq _ s1
  | mkdir args attributes =>
    refine replyWith_plainly
      (withPrep_plainly (hprep args.dir rfl) (fun _ => .pure _) fun d s1 _ => ?_)
    exact mkdirBody_frame (fun _ _ => trivial) (fun _ => trivial) (fun _ => trivial)
      (fun _ _ => trivial) d args attributes rq _ s1
  | remove object =>
    refine replyWith_plainly
      (withPrep_plainly (hprep object.dir rfl) (fun _ => .pure _) fun d s1 _ => ?_)
    exact unlinkBody_frame (fun _ _ => trivial) (fun _ => trivial) (fun _ => trivial)
      (fun _ _ => trivial) unlinkRemove d object.name rq _ s1
  | rmdir object =>
    refine replyWith_plainly
      (withPrep_plainly (hprep object.dir rfl) (fun _ => .pure _) fun d s1 _ => ?_)
    exact unlinkBody_frame (fun _ _ => trivial) (fun _ => trivial) (fun _ => trivial)
      (fun _ _ => trivial) unlinkRmdir d object.name rq _ s1
  | rename argsFrom argsTo =>
    refine replyWith_plainly
      (withPrep_plainly (hprep argsFrom.dir rfl) (fun _ => .pure _) fun d s1 hp => ?_)
    exact renameBody_plainly hw (ht.target argsFrom argsTo d s1 rfl hp) d argsFrom rq _
  | readdir dir cookie count =>
    refine replyWith_plainly (withPrep_plainly (hprep dir rfl) (fun _ => .pure _) fun d s1 _ => ?_)
    exact readdirBody_frame (fun _ _ => trivial) (fun _ => trivial) d cookie count rq s1
  | fsstat fsroot =>
    refine replyWith_plainly
      (withPrep_plainly (hprep fsroot rfl) (fun _ => .pure _) fun d s1 _ => ?_)
    exact fsstatBody_frame d rq s1
  | fsinfo fsroot =>
    refine replyWith_plainly
      (withPrep_plainly (hprep fsroot rfl) (fun _ => .pure _) fun d s1 _ => ?_)
    exact Frame.bind (getPostCached_frame _) (fun _ => .pure _) s1
  | pathconf object =>
    refine replyWith_plainly
      (withPrep_plainly (hprep object rfl) (fun _ => .pure _) fun d s1 _ => ?_)
    exact Frame.bind (getPostCached_frame _) (fun _ => .pure _) s1

/-! ### Between requests -/

theorem mountDir_plain (hw : Posix w) (he : PlainExports s.exportList) {dpath buf : CStr}
    (h : mountDir w s dpath = some buf) : PlainPath buf := by
  unfold mountDir at h
  split at h
  · rename_i hrem
    cases h
    exact he.of_point (Bool.and_eq_true_iff.1 hrem).2
  · exact hw.realpath _ _ _ h

theorem mntPath_plainly (hw : Posix w) (he : PlainExports s.exportList) (dpath : CStr) (auth : Bool)
    (rq : SvcReq) : Plainly s (mntPath w dpath auth rq s).2 := by
  rw [mntPath, Prog.get_bind_run]
  cases hbuf : mountDir w s dpath with
  | none => exact ⟨rfl, id⟩
  | some buf =>
    have hplain := mountDir_plain hw he hbuf
    refine Frame.ite (fun _ => .pure _) (fun _ => .bind (exportsOptionsM_plainly _ _) fun k => ?_) s
    refine .ite (fun _ => .pure _) fun _ => .bind (fhComp_plainly hplain _ _) fun fh => ?_
    refine .ite (fun _ => .pure _) fun _ => .bind (modify_frame fun _ => ?_) fun _ => .pure _
    exact ⟨rfl, rfl, rfl, rfl, rfl, rfl⟩

theorem authenticate_plainly (cmd : MntCmd) (rq : SvcReq) :
    Frame Plainly (authenticate w cmd rq) := by
  cases cmd with
  | getnonce => exact .pure _
  | plain dpath => exact .pure _
  | password pw dpath =>
    exact .bind (exportsOptionsM_plainly _ _) fun _ => .ite (fun _ => .pure _) fun _ => .pure _
  | otp digest dpath =>
    refine .bind (exportsOptionsM_plainly _ _) fun _ => .ite (fun _ => .pure _) fun _ => ?_
    refine .bind .get fun _ => .bind (modify_frame fun _ => ?_) fun _ => .pure _
    exact ⟨rfl, rfl, rfl, rfl, rfl, rfl⟩

theorem mountprocMnt_plainly (hw : Posix w) (he : PlainExports s.exportList) (argp : CStr)
    (rq : SvcReq) :
    Plainly s (mountprocMnt w argp rq s).2 := by
  have hcmd : ∀ cmd : MntCmd, Plainly s
      ((authenticate w cmd rq >>= fun auth => mntPath w cmd.dpath auth rq) s).2 := by
    intro cmd
    refine Prog.rel_bind (authenticate_plainly cmd rq s) fun auth s1 h1 => ?_
    have hlist := ((authenticate_plainly cmd rq).ok h1).1
    exact mntPath_plainly hw (by rw [hlist]; exact he) _ _ _
  unfold mountprocMnt
  rw [Prog.ite_run]
  split
  · exact ⟨rfl, id⟩
  · cases mntCmd argp with
    | getnonce =>
      refine Frame.bind (modify_frame fun _ => ?_) (fun _ => .bind .get fun _ => .pure _) s
      exact ⟨rfl, rfl, rfl, rfl, rfl, rfl⟩
    | password pw dpath => exact hcmd (.password pw dpath)
    | otp digest dpath => exact hcmd (.otp digest dpath)
    | plain dpath => exact hcmd (.plain dpath)

theorem umnt_plainly (path : Option CStr) (rq : SvcReq) : Frame Plainly (umnt w path rq) := by
  refine .bind (modify_frame fun _ => ⟨rfl, rfl, rfl, rfl, rfl, rfl⟩) fun _ =>
    .bind .get fun _ => ?_
  refine .when fun _ => .forEach (fun i => .bind .get fun _ => .when fun _ => ?_) _
  exact .bind (fdCacheDel_frame (E := fun _ => True) (fun _ _ => trivial) _ _) fun _ => .pure _

theorem fdCacheCloseInactive_plainly : Frame Plainly (fdCacheCloseInactive w) := by
  have hdel : ∀ i keep, Frame Plainly (do let _ ← fdCacheDel w i keep : M L R Unit) := fun i keep =>
    .bind (fdCacheDel_frame (E := fun _ => True) (fun _ _ => trivial) _ _) fun _ => .pure _
  refine .bind .get fun _ =>
    .bind (.forEach (fun i => .bind .get fun _ => .when fun _ => hdel i _) _) fun _ => ?_
  refine .bind .get fun _ => .when fun _ => .bind (.forEach (fun i => hdel i _) _) fun _ => ?_
  exact modify_frame fun _ => ⟨rfl, rfl, rfl, rfl, rfl, rfl⟩

theorem between_plain (hw : Posix w) (h : Between w s s') (he : PlainExports s.exportList)
    (hc : PlainCache s.fh) : PlainCache s'.fh := by
  cases h with
  | outside k r => exact hc
  | reload list => exact hc
  | idle h => exact (fdCacheCloseInactive_plainly.ok h).2 hc
  | mount rq q h =>
    have hq : Plainly s (serveMount w rq q s).2 := by
      cases q with
      | null => exact ⟨rfl, id⟩
      | mnt argp => exact Prog.rel_bind (mountprocMnt_plainly hw he argp rq) fun _ _ _ => ⟨rfl, id⟩
      | dump => exact ⟨rfl, id⟩
      | umnt argp => exact umnt_plainly _ rq s
      | umntall => exact umnt_plainly _ rq s
    rw [h] at hq
    exact hq.2 hc

end

/-- A run of tame requests, in which every exports file has plain paths. -/
inductive TameRuns {L R : Type} (w : World L R) : List (Visit L R) → Server L R → Prop
  | start {s : Server L R} (h : Initial s) (he : PlainExports s.exportList) : TameRuns w [] s
  | between {log : List (Visit L R)} {s s' : Server L R} (h : TameRuns w log s)
    (hs : Between w s s') (he : PlainExports s'.exportList) : TameRuns w log s'
  | replied {log : List (Visit L R)} {v : Visit L R} (h : TameRuns w log v.state) (ht : Tame w v)
    {reply : NfsReply} (hr : (v.serve w).1 = .ok reply) : TameRuns w (log ++ [v]) (v.serve w).2

namespace TameRuns

variable {L R : Type} {w : World L R} {log : List (Visit L R)} {s : Server L R}

/-- It is a run. -/
theorem runs (h : TameRuns w log s) : Runs w log (some s) := by
  induction h with
  | start h _ => exact .start h
  | between _ hs _ ih => exact ih.between hs
  | replied _ _ hr ih => exact ih.replied hr

/-- In every state of a tame run the handle cache has plain paths only. -/
theorem plain (hw : Posix w) (hpub : w.conf.privateColl = false) (h : TameRuns w log s) :
    PlainExports s.exportList ∧ PlainCache s.fh := by
  induction h with
  | start h he =>
    obtain ⟨_, _, _, _, _, _, rfl⟩ := h
    exact ⟨he, .empty⟩
  | between _ hs he ih => exact ⟨he, between_plain hw hs ih.1 ih.2⟩
  | replied _ ht _ ih =>
    obtain ⟨hlist, hcache⟩ := serve_plainly hw hpub ht ih.1 ih.2
    exact ⟨by rw [hlist]; exact ih.1, hcache ih.2⟩

end TameRuns

end NfsRods
