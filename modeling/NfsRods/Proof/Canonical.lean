import NfsRods.Proof.Search

/-!
# The form of a resolved path

A handle that is not in the cache is resolved by one of two searches. Both look at the entries `.`
and `..` before they leave them out, and `fh_rec` opens whatever has the right hash, so that a
symbolic link is followed. Which path they return depends on the order in which directories list
their entries.

* `uncached_canonical_iff`: in whatever order directories list their entries, the path is canonical,
  exactly when the handle is `Clear`.
* `Clear.of_linkless`: where no symbolic link leads to a directory, that is every handle but that of
  the root directory.
-/

namespace NfsRods

open CStr
open Descent (Look search Meets)

section
variable {L R : Type}

/-- What a handle that is not in the cache is resolved to. -/
def uncached (w : World L R) (k : L) (fh : Unfs3Fh) : Option CStr :=
  match fhDecompRaw w k fh with
  | some r => some r.1
  | none => (locateFile w k fh.dev fh.ino).map (·.1)

/-- `p` is a symbolic link. -/
def IsLink (w : World L R) (k : L) (p : CStr) : Prop := ∃ b, w.lstat k p = .ok b ∧ b.isLnk = true

/-- `p` starts with a separator, has no empty component and none that is `.` or `..`, and passes no
symbolic link. -/
def Canonical (w : World L R) (k : L) (p : CStr) : Prop :=
  ∃ cs, p = dirPath cs ∧ Plain cs ∧ ∀ ds, ds <+: cs → ds ≠ [] → ds ≠ cs → ¬ IsLink w k (pathOf ds)

/-- The same file system with its directories listed as `list` says. -/
def relisted (w : World L R) (list : CStr → Except Errno (List Dirent)) : World L R :=
  { w with readdir := fun _ => list }

/-- `list` lists every directory, in some order. -/
inductive Reordered : Except Errno (List Dirent) → Except Errno (List Dirent) → Prop
  | ok {es es' : List Dirent} (h : es'.Perm es) : Reordered (.ok es) (.ok es')
  | error (e : Errno) : Reordered (.error e) (.error e)

/-! ## The search of a file system -/

/-- The mount point that `locate_file` searches. -/
def mountOf (w : World L R) (k : L) (dev : ULong) : Option CStr :=
  if !w.conf.bruteForce then none
  else do
    let mtab ← w.mtab k
    mtab.find? fun d => match w.lstat k d with
      | .ok b => b.dev == dev
      | .error _ => false

/-- With `n` levels left, `locate_pfx` goes from the directory `pfx` down `cs` to the object. -/
inductive Located (w : World L R) (k : L) (dev ino : ULong) : Nat → CStr → List CStr → Prop
  | here {n : Nat} {pfx : CStr} {x : Dirent} {b : Stat} (hx : x ∈ listing w k pfx)
    (hroom : pfx.length + x.name.length + 2 < maxPathLen)
    (hb : w.lstat k (pfx ++ root ++ x.name) = .ok b) (hit : b.dev = dev ∧ b.ino = ino) :
    Located w k dev ino (n + 1) pfx [x.name]
  | down {n : Nat} {pfx : CStr} {x : Dirent} {b : Stat} {rest : List CStr}
    (hx : x ∈ listing w k pfx) (hroom : pfx.length + x.name.length + 2 < maxPathLen)
    (hb : w.lstat k (pfx ++ root ++ x.name) = .ok b) (hmiss : ¬ (b.dev = dev ∧ b.ino = ino))
    (hdir : b.dev = dev ∧ b.isDir = true) (ho : Ordinary x.name)
    (h : Located w k dev ino n (pfx ++ root ++ x.name) rest) :
    Located w k dev ino (n + 1) pfx (x.name :: rest)

/-- What `locate_pfx` makes of an entry of the directory `pfx`. -/
def pfxLook (w : World L R) (k : L) (dev ino : ULong) (_ : Nat) (pfx : CStr) (x : Dirent) :
    Look CStr (CStr × Stat) :=
  if maxPathLen ≤ pfx.length + x.name.length + 2 then .skip
  else match w.lstat k (pfx ++ root ++ x.name) with
    | .error _ => .skip
    | .ok b =>
      if b.dev = dev ∧ b.ino = ino then .found (pfx ++ root ++ x.name, b)
      else if b.dev = dev ∧ b.isDir ∧ x.name ≠ lit "." ∧ x.name ≠ lit ".." then
        .enter (pfx ++ root ++ x.name)
      else .skip

/-- **When the uncached resolution of a handle is canonical** (module doc). The search along the
hashes meets the object under ordinary names only, below no symbolic link; if it does not meet it,
the file system that is searched is not the one of the root directory, and it lists the object under
ordinary names only. -/
structure Clear (w : World L R) (k : L) (fh : Unfs3Fh) : Prop where
  search : ∀ cs, Found w k fh fh.len [] cs → (∀ c, cs.getLast? = some c → Ordinary c) ∧
    ∀ ds, ds <+: cs → ds ≠ [] → ds ≠ cs → ¬ IsLink w k (pathOf ds)
  locate : fh.len ≠ 0 → (∀ cs, ¬ Found w k fh fh.len [] cs) → ∀ dir, mountOf w k fh.dev = some dir →
    ∀ cs, Located w k fh.dev fh.ino maxPathLen dir cs →
      dir ≠ root ∧ ∀ c, cs.getLast? = some c → Ordinary c

end

section
variable {L R : Type} {w : World L R} {k : L} {fh : Unfs3Fh} {dev ino : ULong}

theorem locateFile_eq : locateFile w k dev ino =
    (mountOf w k dev).bind (locatePfx w k dev ino maxPathLen) := by
  unfold locateFile mountOf
  split
  · rfl
  · cases w.mtab k with
    | none => rfl
    | some mtab => rfl

theorem locatePfx_eq_search (n : Nat) (pfx : CStr) :
    locatePfx w k dev ino n pfx = search (listing w k) (pfxLook w k dev ino) n pfx := by
  induction n generalizing pfx with
  | zero => rfl
  | succ n ih =>
    rw [locatePfx, search, listing]
    cases w.readdir k pfx with
    | error e => rfl
    | ok es =>
      refine congrArg (List.findSome? · es) (funext fun x => ?_)
      simp only [pfxLook, ih]
      split
      · rfl
      · cases w.lstat k (pfx ++ root ++ x.name) with
        | error e => rfl
        | ok b => dsimp only; split_ifs <;> rfl

theorem pfxLook_grows (n : Nat) (p : CStr) (x : Dirent) (q : CStr)
    (h : pfxLook w k dev ino n p x = .enter q) : p.length < q.length := by
  unfold pfxLook at h
  split at h
  · cases h
  · split at h
    · cases h
    · split_ifs at h
      cases h
      simp [root]

theorem recLook_grows (n : Nat) (p : CStr) (x : Dirent) (q : CStr)
    (h : recLook w k fh n p x = .enter q) : p.length < q.length := by
  unfold recLook at h
  dsimp only at h
  split_ifs at h
  cases h
  simp [root]

theorem Located.meets {n : Nat} {pfx : CStr} {cs : List CStr} (h : Located w k dev ino n pfx cs) :
    ∃ b, Meets (listing w k) (pfxLook w k dev ino) n pfx (pfx ++ pathOf cs, b) := by
  induction h with
  | @here n pfx x b hx hroom hb hit =>
    refine ⟨b, .found hx ?_⟩
    rw [pfxLook, if_neg (by omega), hb]
    dsimp only
    rw [if_pos hit]
    simp [pathOf]
  | @down n pfx x b rest hx hroom hb hmiss hdir ho h ih =>
    obtain ⟨b', hb'⟩ := ih
    have hcut : pfx ++ root ++ x.name ++ pathOf rest = pfx ++ pathOf (x.name :: rest) := by
      simp [pathOf]
    rw [hcut] at hb'
    refine ⟨b', .enter hx ?_ hb'⟩
    rw [pfxLook, if_neg (by omega), hb]
    dsimp only
    rw [if_neg hmiss, if_pos ⟨hdir.1, hdir.2, fun h => ho (.inl h), fun h => ho (.inr h)⟩]

theorem located_of_meets {n : Nat} {pfx : CStr} {r : CStr × Stat}
    (h : Meets (listing w k) (pfxLook w k dev ino) n pfx r) :
    ∃ cs, Located w k dev ino n pfx cs ∧ r.1 = pfx ++ pathOf cs := by
  induction h with
  | @found n pfx x r hx h =>
    unfold pfxLook at h
    split at h
    · cases h
    · rename_i hroom
      split at h
      · cases h
      · rename_i b hb
        split_ifs at h with hit
        cases h
        exact ⟨[x.name], .here hx (by omega) hb hit, by simp [pathOf]⟩
  | @enter n pfx q x r hx h _ ih =>
    unfold pfxLook at h
    split at h
    · cases h
    · rename_i hroom
      split at h
      · cases h
      · rename_i b hb
        split_ifs at h with hmiss hd
        cases h
        obtain ⟨cs, hcs, hr⟩ := ih
        refine ⟨x.name :: cs, .down hx (by omega) hb hmiss ⟨hd.1, hd.2.1⟩ ?_ hcs, ?_⟩
        · exact fun ho => ho.elim hd.2.2.1 hd.2.2.2
        · rw [hr]
          simp [pathOf]

/-! ## Any order of the entries -/

/-- Listings whose entries are permuted are listings of the same directories. -/
theorem listing_relisted {list : CStr → Except Errno (List Dirent)}
    (h : ∀ q, Reordered (w.readdir k q) (list q)) (q : CStr) :
    (listing (relisted w list) k q).Perm (listing w k q) := by
  have hq := h q
  unfold listing relisted
  dsimp only
  generalize w.readdir k q = a at hq
  generalize list q = b at hq
  cases hq with
  | ok h => exact h
  | error e => exact .refl _

/-- Every order of the entries is one in which the directories can be listed. -/
theorem exists_relisted {entries : CStr → List Dirent} (h : ∀ q, (entries q).Perm (listing w k q)) :
    ∃ list, (∀ q, Reordered (w.readdir k q) (list q)) ∧ listing (relisted w list) k = entries := by
  refine ⟨fun q => (w.readdir k q).map fun _ => entries q, fun q => ?_, funext fun q => ?_⟩
  · have hq := h q
    unfold listing at hq
    dsimp only
    cases hr : w.readdir k q with
    | error e => exact .error e
    | ok es =>
      rw [hr] at hq
      exact .ok hq
  · have hq := h q
    unfold listing at hq
    unfold listing relisted
    dsimp only
    cases hr : w.readdir k q with
    | error e =>
      rw [hr] at hq
      rw [hq.eq_nil]
      rfl
    | ok es => rfl

theorem recLook_relisted (list : CStr → Except Errno (List Dirent)) :
    recLook (relisted w list) k fh = recLook w k fh := rfl

theorem mountOf_relisted (list : CStr → Except Errno (List Dirent)) :
    mountOf (relisted w list) k dev = mountOf w k dev := rfl


/-- The paths of a handle's object that the two searches can come to. -/
theorem uncached_relisted (hlen : fh.len ≠ 0) (list : CStr → Except Errno (List Dirent)) :
    uncached (relisted w list) k fh =
      ((search (listing (relisted w list) k) (recLook w k fh) fh.len root).orElse fun _ =>
        (mountOf w k fh.dev).bind
          (search (listing (relisted w list) k) (pfxLook w k fh.dev fh.ino) maxPathLen)).map
            (·.1) := by
  have hrec := @fhRec_eq_search L R (relisted w list) k fh fh.len root
  rw [recLook_relisted] at hrec
  have hloc : locateFile (relisted w list) k fh.dev fh.ino = (mountOf w k fh.dev).bind
      (search (listing (relisted w list) k) (pfxLook w k fh.dev fh.ino) maxPathLen) := by
    rw [locateFile_eq, mountOf_relisted]
    exact congrArg _ (funext fun pfx => locatePfx_eq_search maxPathLen pfx)
  rw [uncached, fhDecompRaw, if_neg hlen, hrec, hloc]
  cases search (listing (relisted w list) k) (recLook w k fh) fh.len root <;> rfl

/-! ## Canonical paths -/

theorem takeWhile_component {c : CStr} (hc : Component c) (cs : List CStr) :
    (c ++ pathOf cs).takeWhile (· ≠ slash) = c := by
  have hall : ∀ b ∈ c, decide (b ≠ slash) = true := fun b hb =>
    decide_eq_true fun h => hc.slashless (h ▸ hb)
  rw [List.takeWhile_append_of_pos hall]
  cases cs with
  | nil => simp
  | cons d ds => simp [pathOf, root]

/-- The components of a path are known from the path. -/
theorem pathOf_injective {cs ds : List CStr} (hcs : ∀ c ∈ cs, Component c)
    (hds : ∀ c ∈ ds, Component c)
    (h : pathOf cs = pathOf ds) : cs = ds := by
  induction cs generalizing ds with
  | nil =>
    cases ds with
    | nil => rfl
    | cons d ds => cases h
  | cons c cs ih =>
    cases ds with
    | nil => cases h
    | cons d ds =>
      have hrest : c ++ pathOf cs = d ++ pathOf ds := List.tail_eq_of_cons_eq h
      have hc : c = d := by
        rw [← takeWhile_component (hcs c (by simp)) cs, hrest,
          takeWhile_component (hds d (by simp)) ds]
      subst hc
      rw [ih (fun x hx => hcs x (by simp [hx])) (fun x hx => hds x (by simp [hx]))
        (List.append_cancel_left hrest)]

theorem root_ne_pathOf {cs : List CStr} (hcs : ∀ c ∈ cs, Component c) : root ≠ pathOf cs := by
  intro h
  cases cs with
  | nil => cases h
  | cons c cs =>
    have hrest : [] = c ++ pathOf cs := List.tail_eq_of_cons_eq h
    exact (hcs c (by simp)).nonempty (List.append_eq_nil_iff.1 hrest.symm).1

/-- A path of components is canonical when they are ordinary and none above the last is a link. -/
theorem canonical_pathOf {cs : List CStr} (hne : cs ≠ []) (hcs : ∀ c ∈ cs, Component c) :
    Canonical w k (pathOf cs) ↔
      Plain cs ∧ ∀ ds, ds <+: cs → ds ≠ [] → ds ≠ cs → ¬ IsLink w k (pathOf ds) := by
  constructor
  · rintro ⟨es, hes, hplain, hlinks⟩
    unfold dirPath at hes
    split at hes
    · exact absurd hes.symm (root_ne_pathOf hcs)
    · obtain rfl := pathOf_injective hcs (fun c hc => (hplain c hc).1) hes
      exact ⟨hplain, hlinks⟩
  · rintro ⟨hplain, hlinks⟩
    exact ⟨cs, by rw [dirPath, if_neg hne], hplain, hlinks⟩

theorem not_canonical_double {cs : List CStr} (hne : cs ≠ []) :
    ¬ Canonical w k (root ++ pathOf cs) := by
  rintro ⟨es, hes, hplain, _⟩
  obtain ⟨c, cs, rfl⟩ := List.exists_cons_of_ne_nil hne
  cases es with
  | nil => cases hes
  | cons d ds =>
    rw [dirPath, if_neg (by simp)] at hes
    exact pathOf_ne_double (hplain d (by simp)).1 (by simp) hes.symm

theorem plain_of_last {cs : List CStr} (hcs : ∀ c ∈ cs, Component c)
    (hord : ∀ c ∈ cs.dropLast, Ordinary c)
    (hlast : ∀ c, cs.getLast? = some c → Ordinary c) : Plain cs := by
  intro c hc
  refine ⟨hcs c hc, ?_⟩
  rcases List.eq_nil_or_concat' cs with rfl | ⟨ds, d, rfl⟩
  · cases hc
  · rw [List.dropLast_concat] at hord
    rcases List.mem_append.1 hc with hc | hc
    · exact hord c hc
    · rw [List.mem_singleton.1 hc]
      exact hlast d List.getLast?_concat

theorem Stat.isDir_not_isLnk {b : Stat} (h : b.isDir = true) : ¬ b.isLnk = true := by
  unfold Stat.isDir at h
  unfold Stat.isLnk
  rw [beq_iff_eq] at h
  rw [h]
  decide

/-- What a search of a file system passes: directories with ordinary names. -/
theorem Located.way {n : Nat} {pfx : CStr} {cs : List CStr} (h : Located w k dev ino n pfx cs)
    (hnames : ∀ q, ∀ x ∈ listing w k q, Component x.name) :
    cs ≠ [] ∧ (∀ c ∈ cs, Component c) ∧ (∀ c ∈ cs.dropLast, Ordinary c) ∧
      ∀ ds, ds <+: cs → ds ≠ [] → ds ≠ cs → ¬ IsLink w k (pfx ++ pathOf ds) := by
  induction h with
  | @here n pfx x b hx _ _ _ =>
    refine ⟨by simp, by simpa using hnames pfx x hx, by simp, fun ds hds hne hproper => ?_⟩
    rcases ds with _ | ⟨d, ds⟩
    · exact absurd rfl hne
    · obtain ⟨rfl, hds'⟩ := List.cons_prefix_cons.1 hds
      rw [List.prefix_nil.1 hds'] at hproper
      exact absurd rfl hproper
  | @down n pfx x b rest hx _ hb _ hdir ho _ ih =>
    obtain ⟨hne, hcomp, hord, hlinks⟩ := ih
    refine ⟨by simp, by simpa using ⟨hnames pfx x hx, hcomp⟩, ?_, fun ds hds hdne hproper => ?_⟩
    · rw [List.dropLast_cons_of_ne_nil hne]
      simpa using ⟨ho, hord⟩
    · rcases ds with _ | ⟨d, ds⟩
      · exact absurd rfl hdne
      · obtain ⟨rfl, hds'⟩ := List.cons_prefix_cons.1 hds
        have hcut : pfx ++ pathOf (x.name :: ds) = pfx ++ root ++ x.name ++ pathOf ds := by
          simp [pathOf]
        rw [hcut]
        by_cases hnil : ds = []
        · rw [hnil, pathOf_nil, List.append_nil]
          rintro ⟨b', hb', hl⟩
          rw [hb] at hb'
          cases hb'
          exact Stat.isDir_not_isLnk hdir.2 hl
        · exact hlinks ds hds' hnil fun h => hproper (by rw [h])

/-- A mount point in the mount table: the root directory, or a directory by its canonical name. -/
def MountPoint (w : World L R) (k : L) (dir : CStr) : Prop :=
  dir = root ∨ ∃ ds, ds ≠ [] ∧ dir = pathOf ds ∧ Plain ds ∧
    ∀ es, es <+: ds → es ≠ [] → ¬ IsLink w k (pathOf es)

theorem mountOf_mountPoint (hmtab : ∀ mtab, w.mtab k = some mtab → ∀ d ∈ mtab, MountPoint w k d)
    {dir : CStr}
    (h : mountOf w k dev = some dir) : MountPoint w k dir := by
  unfold mountOf at h
  split at h
  · cases h
  · obtain ⟨mtab, hm, h⟩ := Option.bind_eq_some_iff.1 h
    exact hmtab mtab hm dir (List.mem_of_find?_eq_some h)

/-- What the search of a file system comes to, and when it is canonical. -/
theorem Located.canonical_iff {n : Nat} {dir : CStr} {cs : List CStr}
    (h : Located w k dev ino n dir cs)
    (hnames : ∀ q, ∀ x ∈ listing w k q, Component x.name) (hm : MountPoint w k dir) :
    Canonical w k (dir ++ pathOf cs) ↔ dir ≠ root ∧ ∀ c, cs.getLast? = some c → Ordinary c := by
  obtain ⟨hne, hcomp, hord, hlinks⟩ := h.way hnames
  rcases hm with rfl | ⟨ds, hds, rfl, hplain, hdlinks⟩
  · exact iff_of_false (not_canonical_double hne) fun h => h.1 rfl
  · have hcs : ∀ c ∈ ds ++ cs, Component c := by
      intro c hc
      rcases List.mem_append.1 hc with hc | hc
      · exact (hplain c hc).1
      · exact hcomp c hc
    have hroot : pathOf ds ≠ root := (root_ne_pathOf fun c hc => (hplain c hc).1).symm
    rw [← pathOf_append, canonical_pathOf (by simp [hne]) hcs]
    constructor
    · rintro ⟨hp, _⟩
      exact ⟨hroot, fun c hc => (hp c (List.mem_append_right _ (List.mem_of_getLast? hc))).2⟩
    · rintro ⟨_, hlast⟩
      refine ⟨fun c hc => ?_, fun es hes hene hproper => ?_⟩
      · rcases List.mem_append.1 hc with hc | hc
        · exact hplain c hc
        · exact plain_of_last hcomp hord hlast c hc
      · rcases List.prefix_or_prefix_of_prefix hes (List.prefix_append ds cs) with hes' | ⟨fs, rfl⟩
        · exact hdlinks es hes' hene
        · by_cases hfs : fs = []
          · rw [hfs, List.append_nil]
            exact hdlinks ds List.prefix_rfl hds
          · rw [pathOf_append]
            exact hlinks fs ((List.prefix_append_right_inj ds).1 hes) hfs fun h =>
              hproper (by rw [h])

/-- What the search along the hashes comes to, and when it is canonical. -/
theorem Found.canonical_iff {cs : List CStr} (h : Found w k fh fh.len [] cs)
    (hnames : ∀ q, ∀ x ∈ listing w k q, Component x.name) :
    Canonical w k (pathOf cs) ↔ (∀ c, cs.getLast? = some c → Ordinary c) ∧
      ∀ ds, ds <+: cs → ds ≠ [] → ds ≠ cs → ¬ IsLink w k (pathOf ds) := by
  have hcomp : ∀ c ∈ cs, Component c := by
    refine h.component fun ds c hc => ?_
    obtain ⟨x, hx, rfl⟩ := mem_listing.1 hc
    exact hnames _ x hx
  rw [canonical_pathOf h.hits.1 hcomp]
  constructor
  · rintro ⟨hp, hlinks⟩
    exact ⟨fun c hc => (hp c (List.mem_of_getLast? hc)).2, hlinks⟩
  · rintro ⟨hlast, hlinks⟩
    exact ⟨plain_of_last hcomp h.ordinary hlast, hlinks⟩

/-- What a search comes to, in whatever order directories list their entries. -/
theorem Clear.canonical_relisted (hclear : Clear w k fh)
    (hnames : ∀ q, ∀ x ∈ listing w k q, Component x.name)
    (hmtab : ∀ mtab, w.mtab k = some mtab → ∀ d ∈ mtab, MountPoint w k d)
    {list : CStr → Except Errno (List Dirent)} (hlist : ∀ q, Reordered (w.readdir k q) (list q))
    {p : CStr}
    (hp : uncached (relisted w list) k fh = some p) : Canonical w k p := by
  by_cases hlen : fh.len = 0
  · rw [uncached, fhDecompRaw, if_pos hlen] at hp
    rw [← Option.some.inj hp]
    exact ⟨[], rfl, by simp [Plain], fun ds hds hne => absurd (List.prefix_nil.1 hds) hne⟩
  have hperm := listing_relisted hlist
  rw [uncached_relisted hlen] at hp
  cases hsearch : Descent.search (listing (relisted w list) k) (recLook w k fh) fh.len root with
  | some r =>
    rw [hsearch] at hp
    obtain ⟨cs, hf, hr, _⟩ := found_of_meets
      ((Descent.search_meets hsearch).reorder fun q => (hperm q).symm) [] rfl
    obtain rfl : r.1 = p := Option.some.inj hp
    rw [hr]
    exact (hf.canonical_iff hnames).2 (hclear.search cs hf)
  | none =>
    have hno : ∀ cs, ¬ Found w k fh fh.len [] cs := by
      intro cs hf
      have := (hf.meets.reorder hperm).isSome
      rw [show root ++ pathOf [] = root from rfl, hsearch] at this
      cases this
    rw [hsearch] at hp
    obtain ⟨r, hr, rfl⟩ := Option.map_eq_some_iff.1 hp
    obtain ⟨dir, hdir, hr⟩ := Option.bind_eq_some_iff.1 hr
    obtain ⟨cs, hcs, hcut⟩ :=
      located_of_meets ((Descent.search_meets hr).reorder fun q => (hperm q).symm)
    rw [hcut]
    exact (hcs.canonical_iff hnames (mountOf_mountPoint hmtab hdir)).2
      (hclear.locate hlen hno dir hdir cs hcs)

/-- **The path of an uncached handle is canonical**, in whatever order directories list their
entries, exactly when the handle is `Clear`. -/
theorem uncached_canonical_iff (w : World L R) (k : L) (fh : Unfs3Fh)
    (hnames : ∀ q, ∀ x ∈ listing w k q, Component x.name)
    (hmtab : ∀ mtab, w.mtab k = some mtab → ∀ d ∈ mtab, MountPoint w k d) :
    (∀ list, (∀ q, Reordered (w.readdir k q) (list q)) →
      ∀ p, uncached (relisted w list) k fh = some p →
      Canonical w k p) ↔ Clear w k fh := by
  refine ⟨fun h => ?_, fun h list hlist p => h.canonical_relisted hnames hmtab hlist⟩
  refine ⟨fun cs hcs => ?_, fun hlen hno dir hdir cs hcs => ?_⟩
  · have hlen : fh.len ≠ 0 := by
      intro hlen
      rw [hlen] at hcs
      cases hcs
    obtain ⟨entries, hperm, _, hsearch⟩ := hcs.meets.first recLook_grows
    obtain ⟨list, hlist, rfl⟩ := exists_relisted hperm
    refine (hcs.canonical_iff hnames).1 (h list hlist _ ?_)
    rw [uncached_relisted hlen, show root = root ++ pathOf [] from rfl, hsearch]
    rfl
  · obtain ⟨b, hmeets⟩ := hcs.meets
    obtain ⟨entries, hperm, _, hsearch⟩ := hmeets.first pfxLook_grows
    obtain ⟨list, hlist, rfl⟩ := exists_relisted hperm
    refine (hcs.canonical_iff hnames (mountOf_mountPoint hmtab hdir)).1 (h list hlist _ ?_)
    have hnone : search (listing (relisted w list) k) (recLook w k fh) fh.len root = none := by
      by_contra hsome
      obtain ⟨r, hr⟩ := Option.ne_none_iff_exists'.1 hsome
      obtain ⟨rest, hf, _⟩ :=
        found_of_meets ((Descent.search_meets hr).reorder fun q => (hperm q).symm) [] rfl
      exact hno rest hf
    rw [uncached_relisted hlen, hnone, hdir]
    simp [hsearch]

/-- Where no symbolic link leads to a directory, the search along the hashes meets everything but
the root directory under its name. -/
theorem Clear.of_linkless (ht : Tidy w k) (hd : Dots w k) (hl : Linkless w k)
    (hbf : w.conf.bruteForce = false) (hobj : ¬ (fh.dev = 0 ∧ fh.ino = 0))
    (hroot : ∀ b, w.lstat k root = .ok b → ¬ (b.dev = fh.dev ∧ b.ino = fh.ino)) : Clear w k fh := by
  refine ⟨fun cs hcs => ?_, fun _ _ dir hdir => ?_⟩
  · have hcomp := hcs.component ht.names
    obtain ⟨hne, hit⟩ := hcs.hits
    rw [List.nil_append, Hits, ht.statOrZero hne hcs.short] at hit
    -- what the search has gone through is not the object
    have hpassed : ∀ ds b, ds <+: cs → ds ≠ cs → w.lstat k (dirPath ds) = .ok b →
        ¬ (b.dev = fh.dev ∧ b.ino = fh.ino) := by
      intro ds b hds hproper hb hhit
      by_cases hnil : ds = []
      · rw [dirPath, if_pos hnil] at hb
        exact hroot b hb hhit
      · rw [dirPath, if_neg hnil] at hb
        refine hcs.misses ds hds hnil hproper ?_
        rw [List.nil_append, Hits, ht.statOrZero hnil (hcs.short.of_prefix hds), statOrZero, hb]
        exact hhit
    cases hst : w.lstat k (pathOf cs) with
    | error e =>
      rw [statOrZero, hst] at hit
      exact absurd ⟨hit.1.symm, hit.2.symm⟩ hobj
    | ok b =>
      rw [statOrZero, hst] at hit
      refine ⟨fun c hc => ?_, fun ds hds hdne hproper => ?_⟩
      · obtain ⟨es, rfl⟩ := List.getLast?_eq_some_iff.1 hc
        obtain ⟨d, hdst, hdir⟩ := ht.dir_above hd hl (hcomp c (by simp)) hst
        by_contra hord
        rcases not_not.1 hord with rfl | rfl
        · obtain ⟨h1, h2⟩ := hd.self es d b hdst hdir hst
          exact hpassed es d (List.prefix_append _ _) (by simp) hdst
            ⟨h1.symm.trans hit.1, h2.symm.trans hit.2⟩
        · rcases List.eq_nil_or_concat' es with rfl | ⟨fs, x, rfl⟩
          · obtain ⟨b0, hb0, _, htop⟩ := hd.top
            obtain ⟨h1, h2⟩ := htop b hst
            exact hroot b0 hb0 ⟨h1.symm.trans hit.1, h2.symm.trans hit.2⟩
          · have hx := hcomp x (by simp)
            have hxo : Ordinary x := hcs.ordinary x (by rw [List.dropLast_concat]; simp)
            rw [dirPath, if_neg (by simp)] at hdst
            obtain ⟨f, hf, hfdir⟩ := ht.dir_above hd hl hx hdst
            obtain ⟨h1, h2⟩ := hd.parent fs x f d b hx hxo hf hfdir hdst hdir hst
            refine hpassed fs f ?_ (by simp) hf ⟨h1.symm.trans hit.1, h2.symm.trans hit.2⟩
            rw [List.append_assoc]
            exact List.prefix_append _ _
      · obtain ⟨rest, rfl⟩ := hds
        obtain ⟨c, rest, rfl⟩ :=
          List.exists_cons_of_ne_nil fun h : rest = [] => hproper (by simp [h])
        have hcut : w.lstat k (pathOf (ds ++ [c] ++ rest)) = .ok b := by simpa using hst
        obtain ⟨b', hb'⟩ := ht.above_all (by simp) rest hcut
        rintro ⟨b1, hb1, hlnk⟩
        exact Stat.isDir_not_isLnk (hl ds c b1 b' hdne (hcomp c (by simp)) hb1 hb') hlnk
  · rw [mountOf, hbf] at hdir
    cases hdir

end

theorem treeWorld_listing {b : Bool} {k : Sandbox.Kernel} (q : CStr) :
    ∀ x ∈ listing (Sandbox.treeWorld b) k q, Component x.name := by
  intro x hx
  obtain ⟨y, _, hy⟩ := List.mem_filterMap.1 hx
  dsimp only at hy
  split at hy
  · rename_i hc
    rw [← Option.some.inj hy]
    exact ⟨hc.2.1, hc.2.2⟩
  · cases hy

/-- In the small tree, the file `/e/n` is found under its name in any order of the entries. -/
theorem uncached_canonical_file : uncached (Sandbox.treeWorld false) dottedServer.kernel publicN =
      some (lit "/e/n") ∧
    ∀ list, (∀ q, Reordered ((Sandbox.treeWorld false).readdir dottedServer.kernel q) (list q)) →
      ∀ p, uncached (relisted (Sandbox.treeWorld false) list) dottedServer.kernel publicN = some p →
        Canonical (Sandbox.treeWorld false) dottedServer.kernel p := by
  refine ⟨by decide +kernel, ?_⟩
  refine (uncached_canonical_iff (Sandbox.treeWorld false) dottedServer.kernel publicN
    treeWorld_listing (fun _ h => nomatch h)).2 ?_
  refine .of_linkless (treeWorld_tidy (by decide +kernel)) dotted_dots dotted_linkless rfl
    (by decide) fun b hb => ?_
  have hst : Sandbox.find dottedServer.kernel (Sandbox.squeeze root) =
    .ok { dev := 1, ino := 2, mode := 0o040755 } := by decide +kernel
  cases hst.symm.trans hb
  decide

/-- The root directory and the export `/e`, which is listed first. -/
def escapeServer : Server Sandbox.Kernel Sandbox.Grid :=
  Sandbox.server [Sandbox.item (lit "/e") true]
    { files := [(lit "/e", { dev := 1, ino := 3, mode := 0o040755 }),
        (lit "/e/.", { dev := 1, ino := 3, mode := 0o040755 }),
        (lit "/e/..", { dev := 1, ino := 2, mode := 0o040755 }),
        (lit "/", { dev := 1, ino := 2, mode := 0o040755 }),
          (lit "/.", { dev := 1, ino := 2, mode := 0o040755 }),
        (lit "/..", { dev := 1, ino := 2, mode := 0o040755 })] } {}

/-- A handle of the root directory with the hash of `/e`. -/
def escapeFh : Unfs3Fh := { dev := 1, ino := 2, len := 2, inos := [3, 0] }

/-- The root directory is not exported, but a forged handle of it is resolved to `/e/..` and
accepted as one of the export `/e`. -/
theorem uncached_escapes : nfhValid ⟨fhLength escapeFh, escapeFh⟩ = true ∧
    uncached (Sandbox.treeWorld false) escapeServer.kernel escapeFh = some (lit "/e/..") ∧
    ¬ Canonical (Sandbox.treeWorld false) escapeServer.kernel (lit "/e/..") ∧
    (exportsOptions escapeServer.exportList 1 (some root) {}).vars.opts = none ∧
    (prep (Sandbox.treeWorld false) ⟨fhLength escapeFh, escapeFh⟩ treeReq escapeServer).1.toOption =
      some (.ok (lit "/e/..")) := by
  refine ⟨by decide, by decide +kernel, fun h => ?_, by decide +kernel, by decide +kernel⟩
  have hcan : Canonical (Sandbox.treeWorld false) escapeServer.kernel
    (pathOf [lit "e", lit ".."]) := h
  obtain ⟨hplain, _⟩ := (canonical_pathOf (by simp) (by decide)).1 hcan
  exact (hplain (lit "..") (by simp)).2 (.inr rfl)

end NfsRods
