import Mathlib.Data.List.DropRight
import NfsRods.Proof.Mirror
import NfsRods.Sandbox

/-!
# Making a directory with those above it

`rec_mkdir` copies the path into a buffer of 256 bytes, without a trailing separator, and makes what
stands before each separator, then the whole.

* `mkdirBuf_short`: a path of at most 255 bytes is copied, but for separators at its end.
* `rec_mkdir_iff`: for which paths the directory is there afterwards, and nothing else is new.
-/

namespace NfsRods

open CStr
open Prog (Ends)

/-! ## What is above a path -/

/-- The root, the path itself, or what stands before one of its separators. -/
def Above (a d : CStr) : Prop := a = root ∨ a ≠ [] ∧ (a = d ∨ a ++ root <+: d)

/-- `q` is what stands before the next separator after the one behind `e`, or there is none. -/
def Next (e q : CStr) : Prop := ∃ c, slash ∉ c ∧ q = e ++ slash :: c

theorem cuts_go_next {e c : CStr} (hc : slash ∉ c) (rest : CStr) :
    List.IsChain Next (e :: cuts.go (e ++ slash :: c) rest) := by
  induction rest generalizing e c with
  | nil =>
    rw [cuts.go, List.isChain_pair]
    exact ⟨c, hc, rfl⟩
  | cons b rest ih =>
    rw [cuts.go]
    by_cases hb : b = slash
    · rw [if_pos hb, hb, List.isChain_cons_cons]
      exact ⟨⟨c, hc, rfl⟩, ih (c := []) (by simp)⟩
    · rw [if_neg hb, List.append_assoc, List.cons_append]
      apply ih
      simp [hc, Ne.symm hb]

/-- The paths that are made follow one another. -/
theorem cuts_next {p : CStr} (h : p.head? = some slash) : List.IsChain Next ([] :: cuts p) := by
  obtain ⟨p, rfl⟩ := List.head?_eq_some_iff.1 h
  exact cuts_go_next (e := []) (c := []) (by simp) p

theorem mem_cuts_go {rest q : CStr} (done : CStr) (hne : done ≠ []) (h : q ∈ cuts.go done rest) :
    q ≠ [] ∧ (q = done ++ rest ∨ q ++ root <+: done ++ rest) := by
  induction rest generalizing done with
  | nil =>
    rw [cuts.go, List.mem_singleton] at h
    subst h
    exact ⟨hne, .inl (by simp)⟩
  | cons b rest ih =>
    have happ : done ++ b :: rest = done ++ [b] ++ rest := by simp
    rw [cuts.go] at h
    split at h
    · rename_i hb
      subst hb
      rcases List.mem_cons.1 h with rfl | h
      · refine ⟨hne, .inr ?_⟩
        rw [happ]
        exact List.prefix_append _ _
      · rw [happ]
        exact ih _ (by simp) h
    · rw [happ]
      exact ih _ (by simp) h

theorem above_of_mem_cuts {p q : CStr} (hne : p ≠ []) (h : q ∈ cuts p) : Above q p := by
  obtain ⟨b, p, rfl⟩ := List.exists_cons_of_ne_nil hne
  exact .inr (mem_cuts_go [b] (by simp) h)

/-! ## The buffer -/

/-- The path without the separators at its end. -/
def bare (d : CStr) : CStr := d.rdropWhile (· == slash)

theorem bare_append (d : CStr) : ∃ n, d = bare d ++ List.replicate n slash := by
  refine ⟨(d.rtakeWhile (· == slash)).length, ?_⟩
  have hall : d.rtakeWhile (· == slash) = List.replicate _ slash :=
    List.eq_replicate_iff.2 ⟨rfl, fun b hb => by simpa using List.mem_rtakeWhile_imp hb⟩
  rw [← hall]
  exact List.rdropWhile_append_rtakeWhile.symm

theorem bare_getLast (d : CStr) : (bare d).getLast? ≠ some slash := by
  intro h
  have hne : bare d ≠ [] := by
    intro hnil
    rw [hnil] at h
    cases h
  apply List.rdropWhile_last_not (· == slash) d hne
  rw [List.getLast?_eq_some_getLast hne] at h
  exact beq_iff_eq.2 (Option.some.inj h)

/-- A path of at most 255 bytes is copied, but for separators at its end. -/
theorem mkdirBuf_short {d : CStr} (h : (bare d).length ≤ 255) :
    ∃ n, d = mkdirBuf d ++ List.replicate n slash := by
  obtain ⟨n, hn⟩ := bare_append d
  have htake : d.take 255 = bare d ++ List.replicate (min (255 - (bare d).length) n) slash := by
    conv_lhs => rw [hn, List.take_append, List.take_of_length_le h, List.take_replicate]
  have hle : min (255 - (bare d).length) n ≤ n := Nat.min_le_right _ _
  rw [mkdirBuf, htake]
  generalize min (255 - (bare d).length) n = m at hle
  cases m with
  | zero =>
    rw [List.replicate_zero, List.append_nil, if_neg (bare_getLast d)]
    exact ⟨n, hn⟩
  | succ m =>
    rw [List.replicate_succ', ← List.append_assoc, List.getLast?_concat, if_pos rfl,
      List.dropLast_concat]
    refine ⟨n - m, ?_⟩
    rw [List.append_assoc, List.replicate_append_replicate, Nat.add_sub_cancel' (by omega)]
    exact hn

theorem mkdirBuf_le (d : CStr) : mkdirBuf d <+: d ∧ (mkdirBuf d).length ≤ 255 := by
  have htake : (d.take 255).length ≤ 255 := by
    rw [List.length_take]
    omega
  rw [mkdirBuf]
  split
  · refine ⟨(List.dropLast_prefix _).trans (List.take_prefix 255 d), ?_⟩
    rw [List.length_dropLast]
    omega
  · exact ⟨List.take_prefix 255 d, htake⟩

/-! ## The file system -/

section
variable {L R : Type} {w : World L R}

/-- A directory is at the path. -/
def IsDirAt (w : World L R) (k : L) (p : CStr) : Prop :=
  ∃ b, w.stat k p = .ok b ∧ b.isDir = true

/-- Something is at the path, a link that leads nowhere included. -/
def ThereAt (w : World L R) (k : L) (p : CStr) : Prop := ∃ b, w.lstat k p = .ok b

/-- The path leads to the object with the device and inode `i`. -/
def LeadsTo (w : World L R) (k : L) (p : CStr) (i : ULong × ULong) : Prop :=
  ∃ b, w.stat k p = .ok b ∧ (b.dev, b.ino) = i

/-- What POSIX documents of directories and of making them. -/
structure MakesDirs (w : World L R) : Prop where
  root : ∀ {k}, IsDirAt w k root
  slash : ∀ {k p}, IsDirAt w k p → IsDirAt w k (p ++ CStr.root)
  above : ∀ {k p q}, q ≠ [] → IsDirAt w k (q ++ CStr.root ++ p) → IsDirAt w k q
  empty : ∀ {k mode}, (w.sys (.mkdir [] mode) k).1 = .error .enoent
  exist : ∀ {k p mode}, (w.sys (.mkdir p mode) k).1 = .error .eexist → ThereAt w k p
  /-- A call that fails changes nothing. -/
  fails : ∀ {k p mode e}, (w.sys (.mkdir p mode) k).1 = .error e →
    w.stat (w.sys (.mkdir p mode) k).2 = w.stat k
  makes : ∀ {k p mode v}, (w.sys (.mkdir p mode) k).1 = .ok v →
    ¬ ThereAt w k p ∧ IsDirAt w (w.sys (.mkdir p mode) k).2 p
  /-- A path that leads to something goes on to lead there. -/
  keeps : ∀ {k p mode v q i}, (w.sys (.mkdir p mode) k).1 = .ok v → LeadsTo w k q i →
    LeadsTo w (w.sys (.mkdir p mode) k).2 q i
  /-- The directory is all that is new. -/
  only : ∀ {k p mode v q i}, (w.sys (.mkdir p mode) k).1 = .ok v →
    LeadsTo w (w.sys (.mkdir p mode) k).2 q i →
    (∃ q₀, LeadsTo w k q₀ i) ∨ LeadsTo w (w.sys (.mkdir p mode) k).2 p i

/-- `mkdir` does not fail for other reasons than `EEXIST`. -/
def OnlyEexist (w : World L R) : L → List CStr → Prop
  | _, [] => True
  | k, p :: ps => (∀ e, (w.sys (.mkdir p 0o700) k).1 = .error e → e = .eexist) ∧
    OnlyEexist w (w.sys (.mkdir p 0o700) k).2 ps

theorem OnlyEexist.snoc {k : L} {ps : List CStr} {p : CStr} (h : OnlyEexist w k (ps ++ [p])) :
    OnlyEexist w k ps ∧
      ∀ e, (w.sys (.mkdir p 0o700) (made w k ps)).1 = .error e → e = .eexist := by
  induction ps generalizing k with
  | nil => exact ⟨trivial, h.1⟩
  | cons q ps ih => exact ⟨⟨h.1, (ih h.2).1⟩, (ih h.2).2⟩

/-- `d` and what is above it are directories, and nothing else is new. -/
structure Made (w : World L R) (k k' : L) (d : CStr) : Prop where
  dirs : ∀ a, Above a d → IsDirAt w k' a
  only : ∀ q i, LeadsTo w k' q i → (∃ q₀, LeadsTo w k q₀ i) ∨ ∃ a, Above a d ∧ LeadsTo w k' a i

/-- What is at the path when its turn has come is a directory, if anything. -/
def Unobstructed (w : World L R) (k : L) (d : CStr) : Prop :=
  ThereAt w (made w k (cuts (mkdirBuf d)).dropLast) (mkdirBuf d) →
    IsDirAt w (made w k (cuts (mkdirBuf d)).dropLast) (mkdirBuf d)

theorem IsDirAt.congr {k k' : L} {p : CStr} (h : w.stat k' = w.stat k) :
    IsDirAt w k' p ↔ IsDirAt w k p := by
  rw [IsDirAt, IsDirAt, h]

theorem LeadsTo.congr {k k' : L} {p : CStr} {i : ULong × ULong} (h : w.stat k' = w.stat k) :
    LeadsTo w k' p i ↔ LeadsTo w k p i := by
  rw [LeadsTo, LeadsTo, h]

/-- What is new after some directories have been made is one of them. -/
theorem made_only (hw : MakesDirs w) {k : L} {ps : List CStr} {q : CStr} {i : ULong × ULong}
    (h : LeadsTo w (made w k ps) q i) :
    (∃ q₀, LeadsTo w k q₀ i) ∨ ∃ p ∈ ps, LeadsTo w (made w k ps) p i := by
  induction ps using List.reverseRecOn generalizing q with
  | nil => exact .inl ⟨q, h⟩
  | append_singleton ps p ih =>
    rw [made_snoc] at h ⊢
    rcases hres : (w.sys (.mkdir p 0o700) (made w k ps)).1 with e | v
    · have hsame := hw.fails hres
      rw [LeadsTo.congr hsame] at h
      rcases ih h with hold | ⟨r, hr, hlead⟩
      · exact .inl hold
      · exact .inr ⟨r, List.mem_append_left _ hr, (LeadsTo.congr hsame).2 hlead⟩
    · rcases hw.only hres h with ⟨q₀, hq₀⟩ | hnew
      · rcases ih hq₀ with hold | ⟨r, hr, hlead⟩
        · exact .inl hold
        · exact .inr ⟨r, List.mem_append_left _ hr, hw.keeps hres hlead⟩
      · exact .inr ⟨p, by simp, hnew⟩

/-- What the last call finds, or makes, is what is there afterwards. -/
theorem made_last_iff (hw : MakesDirs w) {k : L} {ps : List CStr} {p : CStr}
    (h : OnlyEexist w k (ps ++ [p])) : IsDirAt w (made w k (ps ++ [p])) p ↔
      (ThereAt w (made w k ps) p → IsDirAt w (made w k ps) p) := by
  rw [made_snoc]
  rcases hres : (w.sys (.mkdir p 0o700) (made w k ps)).1 with e | v
  · have heexist := h.snoc.2 e hres
    subst heexist
    rw [IsDirAt.congr (hw.fails hres)]
    exact ⟨fun hd _ => hd, fun hd => hd (hw.exist hres)⟩
  · obtain ⟨hno, hdir⟩ := hw.makes hres
    exact ⟨fun _ hthere => absurd hthere hno, fun _ => hdir⟩

theorem MakesDirs.slashes (hw : MakesDirs w) {k : L} {p : CStr} (h : IsDirAt w k p) (n : Nat) :
    IsDirAt w k (p ++ List.replicate n CStr.slash) := by
  induction n with
  | zero => simpa using h
  | succ n ih =>
    rw [List.replicate_succ', ← List.append_assoc]
    exact hw.slash ih

/-- A directory that is there but for separators at its end is there with all that is above it. -/
theorem MakesDirs.dirs (hw : MakesDirs w) {k : L} {d p : CStr} {n : Nat}
    (hd : d = p ++ List.replicate n CStr.slash) (h : IsDirAt w k p) {a : CStr} (ha : Above a d) :
    IsDirAt w k a := by
  rcases ha with rfl | ⟨hne, rfl | hpre⟩
  · exact hw.root
  · rw [hd]
    exact hw.slashes h n
  · rw [hd] at hpre
    rcases Nat.lt_or_ge a.length p.length with hlt | hge
    -- the separator behind `a` is in `p`
    · have hap : a ++ CStr.root <+: p := by
        apply List.prefix_of_prefix_length_le hpre (List.prefix_append _ _)
        simpa [CStr.root] using hlt
      obtain ⟨e, rfl⟩ := hap
      exact hw.above hne h
    · have hpa : p <+: a :=
        List.prefix_of_prefix_length_le (List.prefix_append _ _)
          ((List.prefix_append a CStr.root).trans hpre) hge
      obtain ⟨e, rfl⟩ := hpa
      have he : e <+: List.replicate n CStr.slash := by
        have := (List.prefix_append (p ++ e) CStr.root).trans hpre
        exact (List.prefix_append_right_inj p).1 this
      have hall : e = List.replicate e.length CStr.slash :=
        List.eq_replicate_iff.2 ⟨rfl, fun b hb => List.eq_of_mem_replicate (he.subset hb)⟩
      rw [hall]
      exact hw.slashes h e.length

/-- A path of at most 255 bytes is made in any file system. -/
theorem recMkdir_short (hw : MakesDirs w) {d : CStr} (hshort : (bare d).length ≤ 255)
    (s : Server L R) (h : OnlyEexist w s.kernel (cuts (mkdirBuf d))) :
    (∃ s', recMkdir w d s = (.ok (), s') ∧ Made w s.kernel s'.kernel d) ↔
      Unobstructed w s.kernel d := by
  obtain ⟨n, hn⟩ := mkdirBuf_short hshort
  rw [cuts_snoc] at h
  have hne : mkdirBuf d ≠ [] := by
    intro hnil
    rw [hnil] at h
    have := h.snoc.2 .enoent hw.empty
    cases this
  have hbuf : Above (mkdirBuf d) d := by
    refine .inr ⟨hne, ?_⟩
    cases n with
    | zero => exact .inl (by simpa using hn.symm)
    | succ n =>
      refine .inr ⟨List.replicate n slash, ?_⟩
      conv_rhs => rw [hn, List.replicate_succ]
      simp [root]
  obtain ⟨s', hrun, -, hkernel⟩ := recMkdir_run (w := w) d s
  have hlast := made_last_iff hw h
  rw [← cuts_snoc] at hlast
  rw [Unobstructed, ← hlast, ← hkernel]
  constructor
  · rintro ⟨s'', hrun', hmade⟩
    rw [hrun] at hrun'
    obtain ⟨-, rfl⟩ := Prod.mk.inj hrun'
    exact hmade.dirs _ hbuf
  · intro hdir
    refine ⟨s', hrun, fun a ha => hw.dirs hn hdir ha, ?_⟩
    intro q i hq
    rw [hkernel] at hq ⊢
    rcases made_only hw hq with hold | ⟨p, hp, hlead⟩
    · exact .inl hold
    · refine .inr ⟨p, ?_, hlead⟩
      have hpb := above_of_mem_cuts hne hp
      rcases hpb with h | ⟨hpne, rfl | h⟩
      · exact .inl h
      · exact hbuf
      · exact .inr ⟨hpne, .inr (h.trans (mkdirBuf_le d).1)⟩

end

/-! ## A file system of directories -/

namespace Folders

open Sandbox (foldersWorld)
open Sandbox.Folders

variable {k : Sandbox.Folders}

theorem steps_append (p q : CStr) : steps (p ++ root ++ q) = steps p ++ steps q := by
  have happ : p ++ root ++ q = p ++ slash :: q := by simp [root]
  rw [steps, happ, List.splitOn_append_cons_self, List.filter_append]
  rfl

theorem steps_slashless {c : CStr} (hc : slash ∉ c) : steps c = if c = [] then [] else [c] := by
  rw [steps, List.splitOn_eq_singleton hc]
  split
  · rename_i hnil
    rw [hnil]
    rfl
  · rename_i hne
    simp [hne]

/-- The components have all the bytes of the path but its separators. -/
theorem flatten_steps (p : CStr) : (steps p).flatten = p.filter (· ≠ slash) := by
  have hflat : ∀ l : List CStr, (l.filter (· ≠ [])).flatten = l.flatten := by
    intro l
    induction l with
    | nil => rfl
    | cons c l ih =>
      rw [List.filter_cons]
      split
      · rw [List.flatten_cons, List.flatten_cons, ih]
      · rename_i hc
        have hnil : c = [] := by simpa using hc
        rw [ih, hnil, List.flatten_cons, List.nil_append]
  rw [steps, hflat]
  induction p with
  | nil => rfl
  | cons b p ih =>
    rw [List.splitOn_cons_eq_if_modifyHead]
    obtain ⟨c, cs, hcs⟩ := List.exists_cons_of_ne_nil (List.splitOn_ne_nil slash p)
    rw [List.filter_cons, ← ih, hcs]
    by_cases hb : b = slash
    · simp [hb]
    · simp [hb]

theorem has_prefix {cs : List CStr} (ds : List CStr) (h : k.has (cs ++ ds) = true) :
    k.has cs = true := by
  induction ds using List.reverseRecOn with
  | nil => simpa using h
  | append_singleton ds c ih =>
    apply ih
    rw [← List.append_assoc] at h
    have hmem : cs ++ ds ++ [c] ∈ k.dirs := by simpa [has] using h
    have := k.closed _ hmem
    rw [List.dropLast_concat] at this
    simpa [has] using this

theorem find_isOk {p : CStr} : (∃ b, k.find p = .ok b) ↔ p.head? = some slash ∧
    k.has (steps p) = true := by
  rw [find]
  split
  · rename_i h
    exact iff_of_true ⟨_, rfl⟩ h
  · rename_i h
    exact iff_of_false (by simp) h

theorem isDirAt_iff {p : CStr} : IsDirAt foldersWorld k p ↔ p.head? = some slash ∧
    k.has (steps p) = true := by
  rw [← find_isOk]
  constructor
  · rintro ⟨b, hb, -⟩
    exact ⟨b, hb⟩
  · rintro ⟨b, hb⟩
    refine ⟨b, hb, ?_⟩
    rw [find] at hb
    split at hb
    · obtain rfl := Except.ok.inj hb
      show ((0o040700 : Nat) &&& 0o170000 == 0o040000) = true
      decide
    · cases hb

/-- A directory is made in one that is there, or is there already. -/
theorem mkdir_cases (p : CStr) (mode : Nat) :
    (∃ e, sysCall (.mkdir p mode) k = (.error e, k) ∧
      (e = .eexist ∧ p.head? = some slash ∧ k.has (steps p) = true ∨
        e = .enoent ∧ ¬ (p.head? = some slash ∧ k.has (steps p).dropLast = true))) ∨
    ∃ h, p.head? = some slash ∧ k.has (steps p) = false ∧
      sysCall (.mkdir p mode) k = (.ok 0, k.make (steps p) h) := by
  rw [sysCall]
  by_cases hp : p.head? = some slash
  · rw [if_neg (not_not.2 hp)]
    cases hh : k.has (steps p) with
    | true => exact .inl ⟨_, rfl, .inl ⟨rfl, hp, rfl⟩⟩
    | false =>
      rw [if_neg (by simp)]
      by_cases hd : (steps p).dropLast = [] ∨ (steps p).dropLast ∈ k.dirs
      · rw [dif_pos hd]
        exact .inr ⟨hd, hp, rfl, rfl⟩
      · rw [dif_neg hd]
        refine .inl ⟨_, rfl, .inr ⟨rfl, ?_⟩⟩
        simpa [has, hp] using hd
  · rw [if_pos hp]
    exact .inl ⟨_, rfl, .inr ⟨rfl, fun h => hp h.1⟩⟩

theorem has_make {cs : List CStr} (h : cs.dropLast = [] ∨ cs.dropLast ∈ k.dirs)
    (ds : List CStr) : (k.make cs h).has ds = true ↔ k.has ds = true ∨ ds = cs := by
  simp [has, make, or_assoc]

/-- What is there keeps its number. -/
theorem find_make {cs : List CStr} (h : cs.dropLast = [] ∨ cs.dropLast ∈ k.dirs) {p : CStr}
    (hp : k.has (steps p) = true) : (k.make cs h).find p = k.find p := by
  have hmake : (k.make cs h).has (steps p) = true := (has_make h _).2 (.inl hp)
  rw [find, find, hp, hmake]
  by_cases hnil : steps p = []
  · rw [if_pos hnil, if_pos hnil]
  · have hmem : steps p ∈ k.dirs := by simpa [has, hnil] using hp
    have hidx : (k.make cs h).dirs.idxOf (steps p) = k.dirs.idxOf (steps p) :=
      List.idxOf_append_of_mem hmem
    rw [hidx]

theorem foldersWorld_makes : MakesDirs foldersWorld where
  root := isDirAt_iff.2 ⟨rfl, rfl⟩
  slash := by
    intro k p h
    rw [isDirAt_iff] at h ⊢
    have happ := steps_append p []
    rw [List.append_nil] at happ
    rw [happ]
    have hnil : steps [] = [] := rfl
    rw [hnil, List.append_nil]
    obtain ⟨p, rfl⟩ := List.head?_eq_some_iff.1 h.1
    exact ⟨rfl, h.2⟩
  above := by
    intro k p q hq h
    rw [isDirAt_iff, steps_append] at h
    obtain ⟨b, q, rfl⟩ := List.exists_cons_of_ne_nil hq
    exact isDirAt_iff.2 ⟨h.1, has_prefix _ h.2⟩
  empty := rfl
  exist := by
    intro k p mode h
    rcases mkdir_cases (k := k) p mode with ⟨e, hs, ⟨-, hhas⟩ | ⟨rfl, -⟩⟩ | ⟨_, -, -, hs⟩
    · exact find_isOk.2 hhas
    · have := h.symm.trans (congrArg Prod.fst hs)
      cases this
    · have := h.symm.trans (congrArg Prod.fst hs)
      cases this
  fails := by
    intro k p mode e h
    rcases mkdir_cases (k := k) p mode with ⟨_, hs, -⟩ | ⟨_, -, -, hs⟩
    · exact congrArg find (congrArg Prod.snd hs)
    · have := h.symm.trans (congrArg Prod.fst hs)
      cases this
  makes := by
    intro k p mode v h
    rcases mkdir_cases (k := k) p mode with ⟨_, hs, -⟩ | ⟨hd, hp, hno, hs⟩
    · have := h.symm.trans (congrArg Prod.fst hs)
      cases this
    · constructor
      · intro hthere
        have := (find_isOk.1 hthere).2
        rw [hno] at this
        cases this
      · show IsDirAt foldersWorld (sysCall (.mkdir p mode) k).2 p
        rw [hs, isDirAt_iff, has_make]
        exact ⟨hp, .inr rfl⟩
  keeps := by
    rintro k p mode v q i h ⟨b, hb, hi⟩
    rcases mkdir_cases (k := k) p mode with ⟨_, hs, -⟩ | ⟨hd, -, -, hs⟩
    · have := h.symm.trans (congrArg Prod.fst hs)
      cases this
    · refine ⟨b, ?_, hi⟩
      show (sysCall (.mkdir p mode) k).2.find q = .ok b
      rw [hs, find_make hd (find_isOk.1 ⟨b, hb⟩).2]
      exact hb
  only := by
    rintro k p mode v q i h ⟨b, hb, hi⟩
    rcases mkdir_cases (k := k) p mode with ⟨_, hs, -⟩ | ⟨hd, hp, -, hs⟩
    · have := h.symm.trans (congrArg Prod.fst hs)
      cases this
    · change (sysCall (.mkdir p mode) k).2.find q = .ok b at hb
      rw [hs] at hb
      obtain ⟨hq, hhas⟩ := find_isOk.1 ⟨b, hb⟩
      rcases (has_make hd _).1 hhas with hold | hnew
      · rw [find_make hd hold] at hb
        exact .inl ⟨q, b, hb, hi⟩
      · refine .inr ⟨b, ?_, hi⟩
        show (sysCall (.mkdir p mode) k).2.find p = .ok b
        rw [hs, ← hb, find, find, hnew, hp, hq]

/-! ## Long paths -/

/-- The directories that a chain of paths goes through can be made one after the other. -/
theorem chain_onlyEexist {e : CStr} {ps : List CStr} (hchain : List.IsChain Next (e :: ps))
    (he : e = [] ∨ e.head? = some slash) (hhas : k.has (steps e) = true) :
    OnlyEexist foldersWorld k ps := by
  induction ps generalizing e k with
  | nil => trivial
  | cons p ps ih =>
    rw [List.isChain_cons_cons] at hchain
    obtain ⟨⟨c, hc, hp⟩, hrest⟩ := hchain
    have hhead : p.head? = some slash := by
      rw [hp]
      rcases he with rfl | he
      · rfl
      · obtain ⟨e, rfl⟩ := List.head?_eq_some_iff.1 he
        rfl
    have hsteps : steps p = steps e ++ if c = [] then [] else [c] := by
      rw [← steps_slashless hc, ← steps_append, hp, List.append_assoc]
      rfl
    have hparent : k.has (steps p).dropLast = true := by
      rw [hsteps]
      split
      · rw [List.append_nil]
        apply has_prefix (steps e).getLast?.toList
        rcases List.eq_nil_or_concat (steps e) with hnil | ⟨l, b, hl⟩
        · rw [hnil]
          rfl
        · rw [hl] at hhas ⊢
          simpa using hhas
      · rw [List.dropLast_concat]
        exact hhas
    have hmade : (∀ x, (foldersWorld.sys (.mkdir p 0o700) k).1 = .error x → x = .eexist) ∧
        (foldersWorld.sys (.mkdir p 0o700) k).2.has (steps p) = true := by
      show (∀ x, (sysCall (.mkdir p 0o700) k).1 = .error x → x = .eexist) ∧
        (sysCall (.mkdir p 0o700) k).2.has (steps p) = true
      rcases mkdir_cases (k := k) p 0o700 with ⟨x, hs, ⟨rfl, -, hthere⟩ | ⟨-, hno⟩⟩ | ⟨hd, -, -, hs⟩
      · rw [hs]
        exact ⟨fun x hx => (Except.error.inj hx).symm, hthere⟩
      · exact absurd ⟨hhead, hparent⟩ hno
      · rw [hs]
        exact ⟨fun x hx => (by cases hx), (has_make hd _).2 (.inr rfl)⟩
    exact ⟨hmade.1, ih hrest (.inr hhead) hmade.2⟩

/-- Only what is made is there that was not. -/
theorem has_made {ps : List CStr} {cs : List CStr} (h : (made foldersWorld k ps).has cs = true) :
    k.has cs = true ∨ ∃ p ∈ ps, cs = steps p := by
  induction ps using List.reverseRecOn with
  | nil => exact .inl h
  | append_singleton ps p ih =>
    rw [made_snoc] at h
    change (sysCall (.mkdir p 0o700) (made foldersWorld k ps)).2.has cs = true at h
    have hold : (made foldersWorld k ps).has cs = true →
        k.has cs = true ∨ ∃ q ∈ ps ++ [p], cs = steps q := by
      intro hps
      rcases ih hps with hk | ⟨q, hq, hcs⟩
      · exact .inl hk
      · exact .inr ⟨q, List.mem_append_left _ hq, hcs⟩
    rcases mkdir_cases (k := made foldersWorld k ps) p 0o700 with ⟨_, hs, -⟩ | ⟨hd, -, -, hs⟩
    · rw [hs] at h
      exact hold h
    · rw [hs, has_make] at h
      rcases h with h | h
      · exact hold h
      · exact .inr ⟨p, by simp, h⟩

/-- A path whose last component begins or goes on behind the buffer is not made. -/
theorem long_not_made {d : CStr} (hlong : 255 < (bare d).length) :
    ¬ IsDirAt foldersWorld (made foldersWorld {} (cuts (mkdirBuf d))) d := by
  intro hdir
  obtain ⟨-, hhas⟩ := isDirAt_iff.1 hdir
  obtain ⟨hpre, hlen⟩ := mkdirBuf_le d
  -- the last byte of `d` that is no separator lies behind any path that is made
  have hmore : ∀ p, p <+: d → p.length ≤ 255 → (steps d).flatten ≠ (steps p).flatten := by
    intro p hp hplen heq
    have hbare : bare d <+: d := List.rdropWhile_prefix _ d
    obtain ⟨r, hr⟩ := List.prefix_of_prefix_length_le hp hbare (by omega)
    have hrne : r ≠ [] := by
      rintro rfl
      have := congrArg List.length hr
      simp at this
      omega
    obtain ⟨l, b, hl⟩ := (List.eq_nil_or_concat r).resolve_left hrne
    rw [List.concat_eq_append] at hl
    have hb : b ≠ slash := by
      intro hb
      apply bare_getLast d
      rw [← hr, hl, hb, ← List.append_assoc, List.getLast?_concat]
    obtain ⟨t, ht⟩ := hbare
    rw [flatten_steps, flatten_steps, ← ht, ← hr, hl] at heq
    have := congrArg List.length heq
    simp [hb] at this
  rcases has_made hhas with hroot | ⟨p, hp, hsteps⟩
  · have hnil : steps d = [] := by simpa [Sandbox.Folders.has] using hroot
    exact hmore [] List.nil_prefix (by simp) (by rw [hnil]; rfl)
  · have hpd : p <+: d ∧ p.length ≤ 255 := by
      have hle : p <+: mkdirBuf d := by
        by_cases hne : mkdirBuf d = []
        · rw [hne] at hp ⊢
          rw [List.mem_singleton.1 hp]
        · obtain ⟨b, q, hq⟩ := List.exists_cons_of_ne_nil hne
          rw [hq] at hp ⊢
          rcases (mem_cuts_go [b] (by simp) hp).2 with rfl | h
          · exact List.prefix_rfl
          · exact (List.prefix_append p root).trans h
      exact ⟨hle.trans hpre, hle.length_le.trans hlen⟩
    exact hmore p hpd.1 hpd.2 (by rw [hsteps])

/-- Where nothing is yet, each `mkdir` finds the directory that the last one made. -/
theorem folders_makes {d : CStr} (hhead : (mkdirBuf d).head? = some slash) :
    OnlyEexist foldersWorld {} (cuts (mkdirBuf d)) ∧ Unobstructed foldersWorld {} d := by
  refine ⟨chain_onlyEexist (cuts_next hhead) (.inl rfl) rfl, fun hthere => ?_⟩
  exact isDirAt_iff.2 (find_isOk.1 hthere)

theorem folders_run {d : CStr} (habs : d.head? = some slash) (hlong : 255 < (bare d).length) :
    OnlyEexist foldersWorld {} (cuts (mkdirBuf d)) ∧ Unobstructed foldersWorld {} d := by
  have hne : mkdirBuf d ≠ [] := by
    have htake : (d.take 255).length = 255 := by
      have := (List.rdropWhile_prefix (· == slash) d).length_le
      change (bare d).length ≤ d.length at this
      rw [List.length_take]
      omega
    intro hnil
    have := congrArg List.length hnil
    rw [mkdirBuf] at this
    split at this
    · rw [List.length_dropLast, htake] at this
      cases this
    · rw [htake] at this
      cases this
  obtain ⟨b, q, hq⟩ := List.exists_cons_of_ne_nil hne
  apply folders_makes
  obtain ⟨t, ht⟩ := (mkdirBuf_le d).1
  rw [← ht, hq] at habs
  rw [hq]
  exact habs

end Folders

/-- **`rec_mkdir` makes a directory** with those above it and nothing else, in every file system
where `mkdir` only fails for a name that exists and no file has the directory's name, exactly when
the path has at most 255 bytes before the separators at its end. -/
theorem rec_mkdir_iff (d : CStr) (habs : d.head? = some slash) :
    (∀ (L R : Type) (w : World L R), MakesDirs w → ∀ s : Server L R,
      OnlyEexist w s.kernel (cuts (mkdirBuf d)) →
      ((∃ s', recMkdir w d s = (.ok (), s') ∧ Made w s.kernel s'.kernel d) ↔
        Unobstructed w s.kernel d)) ↔ (bare d).length ≤ 255 := by
  constructor
  · intro h
    by_contra hlong
    obtain ⟨honly, hun⟩ := Folders.folders_run habs (Nat.not_le.1 hlong)
    let s : Server Sandbox.Folders Sandbox.Grid := { kernel := {}, rods := {} }
    obtain ⟨s', hrun, hmade⟩ := (h _ _ _ Folders.foldersWorld_makes s honly).2 hun
    obtain ⟨s'', hrun', -, hkernel⟩ := recMkdir_run (w := Sandbox.foldersWorld) d s
    rw [hrun] at hrun'
    obtain ⟨-, rfl⟩ := Prod.mk.inj hrun'
    have hne : d ≠ [] := by
      intro hnil
      rw [hnil] at habs
      cases habs
    have hdir := hmade.dirs d (.inr ⟨hne, .inl rfl⟩)
    rw [hkernel] at hdir
    exact Folders.long_not_made (Nat.not_le.1 hlong) hdir
  · intro hshort L R w hw s honly
    exact recMkdir_short hw hshort s honly

/-- A short path with a separator at its end. -/
theorem rec_mkdir_short : ∃ s', recMkdir Sandbox.foldersWorld (lit "/a/b/")
    { kernel := {}, rods := {} } = (.ok (), s') ∧
    Made Sandbox.foldersWorld {} s'.kernel (lit "/a/b/") := by
  obtain ⟨honly, hun⟩ := Folders.folders_makes (d := lit "/a/b/") (by decide)
  exact ((rec_mkdir_iff (lit "/a/b/") rfl).2 (by decide) _ _ Sandbox.foldersWorld
    Folders.foldersWorld_makes { kernel := {}, rods := {} } honly).2 hun

/-- Thirty components of nine bytes. -/
def longDir : CStr := (List.replicate 30 (slash :: List.replicate 9 120)).flatten

/-- In an empty file system `rec_mkdir` makes a directory of the first four bytes of the 26th
component, and not the one it is asked for. -/
theorem rec_mkdir_wrong :
    longDir.length < maxPathLen ∧ MakesDirs Sandbox.foldersWorld ∧
    OnlyEexist Sandbox.foldersWorld {} (cuts (mkdirBuf longDir)) ∧
    (Sandbox.foldersWorld.stat {} longDir).toOption = none ∧
    ∃ s', recMkdir Sandbox.foldersWorld longDir { kernel := {}, rods := {} } = (.ok (), s') ∧
      IsDirAt Sandbox.foldersWorld s'.kernel (longDir.take 255) ∧
      ¬ IsDirAt Sandbox.foldersWorld s'.kernel longDir := by
  have hlong : 255 < (bare longDir).length := by decide +kernel
  obtain ⟨honly, hun⟩ := Folders.folders_run (d := longDir) rfl hlong
  obtain ⟨s', hrun, -, hkernel⟩ := recMkdir_run (w := Sandbox.foldersWorld) longDir
    { kernel := ({} : Sandbox.Folders), rods := ({} : Sandbox.Grid) }
  refine ⟨by decide +kernel, Folders.foldersWorld_makes, honly, by decide +kernel, s', hrun, ?_, ?_⟩
  · have htake : longDir.take 255 = mkdirBuf longDir := by decide +kernel
    have hlast := made_last_iff Folders.foldersWorld_makes (cuts_snoc (mkdirBuf longDir) ▸ honly)
    rw [← cuts_snoc] at hlast
    rw [hkernel, htake]
    exact hlast.2 hun
  · rw [hkernel]
    exact Folders.long_not_made hlong

end NfsRods
