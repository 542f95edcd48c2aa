import NfsRods.Lib.Dirs
import NfsRods.Proof.Commands
import NfsRods.Proof.RemoveDir

/-!
# Rebuilding the mirror of a directory

READDIR removes the mirror of a directory with all that is in it, makes it again and fills it with
what iRODS lists (`listCollection`). What the local file system promises of the calls this takes is
stated over the tree of the mirror (`Mirror`).

* `removeMirror_clears`: the directory is gone, with all that was in it.
* `recMkdir_run`: the calls of `rec_mkdir`, one after the other; `recMkdir_makes`: the directory is
  there again, and empty.
* `ListKeeps.loop`, `ListKeeps.into`: what each entry keeps is kept by the loop over the listing,
  which may stop at an entry.
* `listCollection_fills`: the directory has the names of the entries that iRODS lists, if the daemon
  survives its questions for their modes.
-/

namespace NfsRods

open CStr
open Prog (Ends Frame Reaches)
open Dirs (IsDir Bare)

section
variable {L R : Type}

/-- What a path in the mirror is: its device and inode. -/
abbrev MirrorTree := Dirs CStr (ULong × ULong)

/-- `t'` is `t` with an entry `c`, which is new if there was none. -/
def Gains (t : MirrorTree) (c : CStr) (dir : Bool) (t' : MirrorTree) : Prop :=
  (t [c] ≠ none ∧ t' = t) ∨ (t [c] = none ∧ ∃ i, t' = t.add [c] ⟨dir, i⟩)

/-- A name that a directory entry of the mirror `m` can have. -/
structure Named (m c : CStr) : Prop where
  component : Component c
  ordinary : Ordinary c
  name : c.length ≤ 255
  path : m.length + c.length + 1 < maxPathLen

/-- What POSIX documents of the calls that rebuild the mirror `m`, made by a process that `own`s it:
that may change it and what is in it, with room for more. `view` is the tree of the mirror, empty
when the directory is not there. -/
structure Mirror (w : World L R) (m : CStr) (own : L → Prop) (view : L → MirrorTree) : Prop where
  closed : ∀ {k}, own k → Dirs.Closed (view k)
  dir : ∀ {k n}, own k → view k [] = some n → n.dir = true
  names : ∀ {k cs c}, own k → view k (cs ++ [c]) ≠ none → Component c ∧ Ordinary c
  short : ∀ {k cs}, own k → view k cs ≠ none → (within m cs).length < pathMax
  /-- A directory lists what is in it, once, and what else it lists is `.` and `..`. -/
  lists : ∀ {k cs}, own k → IsDir (view k) cs → ∃ es, w.readdir k (within m cs) = .ok es ∧
    (es.map (·.name)).Nodup ∧ (∀ c, view k (cs ++ [c]) ≠ none → ∃ x ∈ es, x.name = c) ∧
    ∀ x ∈ es, Ordinary x.name → ∃ n, view k (cs ++ [x.name]) = some n ∧ x.isDir = n.dir
  lstat : ∀ {k cs n}, own k → view k cs = some n →
    ∃ b, w.lstat k (within m cs) = .ok b ∧ (b.dev, b.ino) = n.id
  dots : ∀ {k c}, own k → IsDir (view k) [] → ¬ Ordinary c → ∃ b, w.lstat k (within m [c]) = .ok b
  unlisted : ∀ {k cs}, own k → (∀ c ∈ cs, Component c) → view k cs = none →
    ∃ e, w.readdir k (within m cs) = .error e
  /-- `remove` of something other than a directory, and of nothing. -/
  remove : ∀ {k cs n}, own k → view k cs = some n → n.dir = false →
    own (w.sys (.remove (within m cs)) k).2 ∧
      view (w.sys (.remove (within m cs)) k).2 = (view k).cut cs
  removeNone : ∀ {k cs}, own k → (∀ c ∈ cs, Component c) → view k cs = none →
    own (w.sys (.remove (within m cs)) k).2 ∧ view (w.sys (.remove (within m cs)) k).2 = view k
  /-- `rmdir` of an empty directory. -/
  rmdir : ∀ {k cs}, own k → Bare (view k) cs →
    own (w.sys (.rmdir (within m cs)) k).2 ∧ view (w.sys (.rmdir (within m cs)) k).2 =
      (view k).cut cs
  stat : ∀ {k}, own k → view k [] = none → w.stat k m = .error .enoent
  /-- A directory above the mirror is there after `mkdir`, if those above it are. -/
  above : ∀ {k a p b}, own k → cuts m = a ++ p :: b → b ≠ [] →
    (∀ q ∈ a, ∃ st, w.stat k q = .ok st) →
    (own (w.sys (.mkdir p 0o700) k).2 ∧ view (w.sys (.mkdir p 0o700) k).2 = view k) ∧
      ∀ q ∈ a ++ [p], ∃ st, w.stat (w.sys (.mkdir p 0o700) k).2 q = .ok st
  make : ∀ {k}, own k → view k [] = none → (∀ q ∈ (cuts m).dropLast, ∃ st, w.stat k q = .ok st) →
    own (w.sys (.mkdir m 0o700) k).2 ∧
      ∃ i, view (w.sys (.mkdir m 0o700) k).2 = (view k).add [] ⟨true, i⟩
  mkdir : ∀ {k c}, own k → IsDir (view k) [] → Named m c →
    own (w.sys (.mkdir (within m [c]) 0o700) k).2 ∧
      Gains (view k) c true (view (w.sys (.mkdir (within m [c]) 0o700) k).2)
  /-- The two commands, where the shell takes the path as it is. -/
  echo : ∀ {k c}, own k → IsDir (view k) [] → Named m c → Shell.PlainTarget (within m [c]) →
    own (w.sys (.system (echoCommand (within m [c]))) k).2 ∧
      Gains (view k) c false (view (w.sys (.system (echoCommand (within m [c]))) k).2)
  chmod : ∀ {k c n} (d : Int), own k → view k [c] = some n → Shell.PlainArg (within m [c]) →
    own (w.sys (.system (chmodCommand d (within m [c]))) k).2 ∧
      view (w.sys (.system (chmodCommand d (within m [c]))) k).2 = view k

end

section
variable {L R : Type} {w : World L R} {m : CStr} {own : L → Prop} {view : L → MirrorTree}

/-- From `s`, the run has come to a mirror `t`. -/
def Comes (own : L → Prop) (view : L → MirrorTree) (t : MirrorTree) (s s' : Server L R) : Prop :=
  Local s s' ∧ own s'.kernel ∧ view s'.kernel = t

theorem Comes.then {t t' : MirrorTree} {s s' s'' : Server L R} (h : Comes own view t s s')
    (h' : Comes own view t' s' s'') : Comes own view t' s s'' :=
  ⟨trans_of Local h.1 h'.1, h'.2⟩

theorem libCall_comes {s : Server L R} (h : own s.kernel) :
    Ends (Comes own view (view s.kernel)) (libCall w) s (.ok ()) := ⟨_, rfl, rfl, h, rfl⟩

/-! ## Removal -/

/-- A directory that cannot be read is left alone. -/
theorem removedirectoryrecursively_unread {s : Server L R} {p : CStr} {e : Errno} (n : Nat)
    (ho : own s.kernel) (h : w.readdir s.kernel p = .error e) :
    Ends (Comes own view (view s.kernel)) (removedirectoryrecursively w n p) s (.ok ()) := by
  cases n with
  | zero => exact libCall_comes ho
  | succ n =>
    have hq : Ends (Comes own view (view s.kernel)) (query fun k => w.readdir k p) s (.ok none) :=
      ⟨_, query_error h, rfl, ho, rfl⟩
    refine hq.seq (fun s1 h1 => ?_) fun s1 s2 h1 h2 => h1.then h2
    rw [← h1.2.2]
    exact libCall_comes h1.2.1

/-- The mirror is a tree of its own. -/
theorem Mirror.removes (hm : Mirror w m own view) : Removes w m [] own view where
  closed := hm.closed
  names := hm.names
  short := hm.short
  lists := hm.lists
  remove := hm.remove
  removeNone := hm.removeNone
  rmdir := hm.rmdir

/-- The mirror is gone, if it was there. -/
theorem removeMirror_clears (hm : Mirror w m own view) {s : Server L R} (ho : own s.kernel) :
    Ends (Comes own view Dirs.gone) (removedirectoryrecursively w pathMax m) s (.ok ()) := by
  have hwithin : within m [] = m := by simp [within]
  cases hv : view s.kernel [] with
  | none =>
    have hcs : ∀ c ∈ ([] : List CStr), Component c := by simp
    obtain ⟨e, he⟩ := hm.unlisted ho hcs hv
    rw [hwithin] at he
    rw [← (hm.closed ho).all_none hv]
    exact removedirectoryrecursively_unread pathMax ho he
  | some node =>
    have hd : IsDir (view s.kernel) [] := ⟨node, hv, hm.dir ho hv⟩
    obtain ⟨⟨s', h, r⟩, -⟩ := removedirectoryrecursively_clears hm.removes pathMax [] s ho hd
      (by simp)
    rw [hwithin] at h
    refine ⟨s', h, r.local, r.own, ?_⟩
    rw [r.view]
    exact Dirs.cut_nil

/-! ## The directory is made again -/

theorem cuts_ne_nil (p : CStr) : cuts p ≠ [] := by
  have hgo : ∀ (rest done : CStr), cuts.go done rest ≠ [] := by
    intro rest
    induction rest with
    | nil => simp [cuts.go]
    | cons b rest ih =>
      intro done
      unfold cuts.go
      split
      · simp
      · exact ih _
  cases p with
  | nil => simp [cuts]
  | cons b rest => exact hgo rest [b]

theorem cuts_getLast (p : CStr) : (cuts p).getLast (cuts_ne_nil p) = p := by
  have hgo : ∀ (rest done : CStr), ∃ l, cuts.go done rest = l ++ [done ++ rest] := by
    intro rest
    induction rest with
    | nil => exact fun done => ⟨[], by simp [cuts.go]⟩
    | cons b rest ih =>
      intro done
      obtain ⟨l, hl⟩ := ih (done ++ [b])
      unfold cuts.go
      split
      · exact ⟨done :: l, by rw [hl]; simp⟩
      · exact ⟨l, by rw [hl]; simp⟩
  cases p with
  | nil => rfl
  | cons b rest =>
    obtain ⟨l, hl⟩ := hgo rest [b]
    have : cuts (b :: rest) = l ++ [b :: rest] := hl
    simp [this]

theorem cuts_snoc (p : CStr) : cuts p = (cuts p).dropLast ++ [p] := by
  conv_lhs => rw [← List.dropLast_append_getLast (cuts_ne_nil p), cuts_getLast]

/-- `tmp` of `rec_mkdir`. -/
def mkdirBuf (dir : CStr) : CStr :=
  let tmp := dir.take 255
  if tmp.getLast? = some slash then tmp.dropLast else tmp

/-- The kernel after the directories `ps` have been made, one after the other. -/
def made (w : World L R) (k : L) (ps : List CStr) : L :=
  ps.foldl (fun k p => (w.sys (.mkdir p 0o700) k).2) k

theorem made_snoc (w : World L R) (k : L) (ps : List CStr) (p : CStr) :
    made w k (ps ++ [p]) = (w.sys (.mkdir p 0o700) (made w k ps)).2 := by
  rw [made, List.foldl_append]
  rfl

/-- `rec_mkdir` makes what stands before each separator, then the whole. -/
theorem recMkdir_run (d : CStr) (s : Server L R) :
    Ends (fun s s' => Local s s' ∧ s'.kernel = made w s.kernel (cuts (mkdirBuf d)))
      (recMkdir w d) s (.ok ()) := by
  have hloop := Prog.forEach_returns (s := s)
    (I := fun done s' => Local s s' ∧ s'.kernel = made w s.kernel done) (cuts (mkdirBuf d)).dropLast
    (g := fun p => do
      debug w "READDIR create %s"
      let _ ← sys w (.mkdir p 0o700)) ?_ [] ⟨refl_of Local s, rfl⟩
  · obtain ⟨s1, h1, l1, hk1⟩ := hloop
    obtain ⟨s2, h2, k2, hk2⟩ := sys_ends (w := w) (.mkdir (mkdirBuf d) 0o700) s1
    obtain ⟨s3, h3, t3⟩ := debug_tacit (w := w) "READDIR create %s" s2
    refine ⟨s3, ?_, trans_of Local l1 (trans_of Local k2.local t3.local), ?_⟩
    · show (do
        Prog.forEach (fun p => do
          debug w "READDIR create %s"
          let _ ← sys w (.mkdir p 0o700)) (cuts (mkdirBuf d)).dropLast
        let _ ← sys w (.mkdir (mkdirBuf d) 0o700)
        debug w "READDIR create %s" : M L R Unit) s = _
      rw [Prog.bind_ok h1, Prog.bind_ok h2, h3]
    · rw [t3.kernel, hk2, hk1, List.nil_append, ← made_snoc, ← cuts_snoc]
  · intro done p s1 _ ⟨l1, hk⟩
    obtain ⟨s2, h2, t2⟩ := debug_tacit (w := w) "READDIR create %s" s1
    obtain ⟨s3, h3, k3, hk3⟩ := sys_ends (w := w) (.mkdir p 0o700) s2
    refine ⟨s3, ?_, trans_of Local l1 (trans_of Local t2.local k3.local), ?_⟩
    · rw [Prog.bind_ok h2, Prog.bind_ok h3]
      rfl
    · rw [hk3, t2.kernel, hk, made_snoc]

/-- `rec_mkdir` can take the path as it is. -/
structure Makeable (m : CStr) : Prop where
  length : m.length ≤ 255
  slash : m.getLast? ≠ some slash

theorem Makeable.mkdirBuf_eq (h : Makeable m) : mkdirBuf m = m := by
  rw [mkdirBuf, List.take_of_length_le h.length, if_neg h.slash]

/-- The directories above the mirror are there once they are made, and the mirror is as before. -/
theorem Mirror.made_above (hm : Mirror w m own view) {k : L} (ho : own k) {done rest : List CStr}
    (hc : cuts m = done ++ rest) (hne : rest ≠ []) :
    (own (made w k done) ∧ view (made w k done) = view k) ∧
      ∀ q ∈ done, ∃ st, w.stat (made w k done) q = .ok st := by
  induction done using List.reverseRecOn generalizing rest with
  | nil => exact ⟨⟨ho, rfl⟩, by simp⟩
  | append_singleton done p ih =>
    rw [List.append_assoc] at hc
    obtain ⟨⟨ho1, hv1⟩, hst1⟩ := ih hc (by simp)
    obtain ⟨⟨ho2, hv2⟩, hst2⟩ := hm.above ho1 hc hne hst1
    rw [made_snoc]
    exact ⟨⟨ho2, hv2.trans hv1⟩, hst2⟩

/-- **`rec_mkdir` makes the directory**, with those above it. -/
theorem recMkdir_makes (hm : Mirror w m own view) (hmk : Makeable m) {s : Server L R}
    (ho : own s.kernel) (hnone : view s.kernel [] = none) :
    Ends (fun s s' => Local s s' ∧ own s'.kernel ∧
      ∃ i, view s'.kernel = (view s.kernel).add [] ⟨true, i⟩) (recMkdir w m) s (.ok ()) := by
  obtain ⟨s', hrun, hl, hkernel⟩ := recMkdir_run (w := w) m s
  obtain ⟨⟨ho1, hv1⟩, hst1⟩ := hm.made_above ho (cuts_snoc m) (by simp)
  obtain ⟨ho2, i, hv2⟩ := hm.make ho1 (by rw [hv1, hnone]) hst1
  rw [hmk.mkdirBuf_eq, cuts_snoc, made_snoc] at hkernel
  refine ⟨s', hrun, hl, ?_, i, ?_⟩
  · rw [hkernel]
    exact ho2
  · rw [hkernel, hv2, hv1]

end

/-! ## What iRODS lists -/

/-- `s'` differs from `s` only outside the daemon, and in the counter of library calls. -/
def Outside {L R : Type} (s s' : Server L R) : Prop :=
  s' = { s with kernel := s'.kernel, rods := s'.rods, errno := s'.errno, tick := s'.tick
                trace := s'.trace }

/-- The name that an entry of the collection `c` is listed under. -/
def CollEnt.entry (c : CStr) : CollEnt → Option CStr
  | .dataObj name => name
  | .coll name => if name.length = c.length then none else some (basename name)

section
variable {L R : Type}

instance : Std.Refl (Outside (L := L) (R := R)) := ⟨fun _ => rfl⟩
instance : IsTrans (Server L R) Outside := ⟨fun s s' s'' h h' => by
  unfold Outside at h h' ⊢
  rw [h', h]⟩

theorem Local.outside {s s' : Server L R} (h : Local s s') : Outside s s' := by
  unfold Local at h
  unfold Outside
  rw [h]

theorem Local.rods {s s' : Server L R} (h : Local s s') : s'.rods = s.rods := by rw [h]

theorem Aside.outside {s s' : Server L R} (h : Aside s s') : Outside s s' := by
  unfold Aside at h
  unfold Outside
  rw [h]

/-- An entry of the collection `c`: a data object or a sub-collection in it, or the collection
itself. -/
inductive EntryOf (w : World L R) (r : R) (c : CStr) : CollEnt → Prop
  | data {n : CStr} {b : List UInt8} (hn : Component n)
    (h : w.store r (c ++ root ++ n) = some (.data b)) : EntryOf w r c (.dataObj (some n))
  | coll {n : CStr} (hn : Component n) (h : w.store r (c ++ root ++ n) = some .coll) :
    EntryOf w r c (.coll (c ++ root ++ n))
  | self : EntryOf w r c (.coll c)

/-- What iRODS documents of reading a collection. `left r comm h` are the entries that handle `h`
has yet to give over the connection, and the status that it ends with. -/
structure Collections (w : World L R) (left : R → Comm → Int → List CollEnt × Int) : Prop where
  next : ∀ {r comm h x xs st}, left r comm h = (x :: xs, st) →
    0 ≤ (w.rods (.rcReadCollection comm h) r).1.status ∧
      (w.rods (.rcReadCollection comm h) r).1.ent = some x ∧
      left (w.rods (.rcReadCollection comm h) r).2 comm h = (xs, st)
  done : ∀ {r comm h st}, left r comm h = ([], st) →
    (w.rods (.rcReadCollection comm h) r).1.status = st ∧ st < 0
  /-- Queries do not disturb a listing. -/
  query : ∀ {r h} comm inp, left (w.rods (.rcGenQuery comm inp) r).2 comm h = left r comm h
  /-- What is listed is in the collection, and in the catalogue. -/
  sound : ∀ {r x} comm c, x ∈ (left (w.rods (.rcOpenCollection comm c) r).2 comm
    (w.rods (.rcOpenCollection comm c) r).1.status).1 → EntryOf w r c x
  bounded : ∀ {r} comm c, (left (w.rods (.rcOpenCollection comm c) r).2 comm
    (w.rods (.rcOpenCollection comm c) r).1.status).1.length ≤
      w.catalogue (w.rods (.rcOpenCollection comm c) r).2
  /-- A listing that ends because there is no more has listed all there is. -/
  complete : ∀ {r n o} comm c, 0 ≤ (w.rods (.rcOpenCollection comm c) r).1.status →
    (left (w.rods (.rcOpenCollection comm c) r).2 comm
      (w.rods (.rcOpenCollection comm c) r).1.status).2 = catNoRowsFound →
    Component n → w.store r (c ++ root ++ n) = some o →
    ∃ x ∈ (left (w.rods (.rcOpenCollection comm c) r).2 comm
      (w.rods (.rcOpenCollection comm c) r).1.status).1, x.entry c = some n

/-- The names of the collection can be given to entries of the mirror, those of its data objects by
a shell. -/
def Mirrorable (w : World L R) (m : CStr) (r : R) (c : CStr) : Prop :=
  ∀ n o, Component n → w.store r (c ++ root ++ n) = some o →
    Named m n ∧ ∀ b, o = .data b → Shell.PlainArg (within m [n])

variable {w : World L R} {m : CStr} {own : L → Prop} {view : L → MirrorTree}
  {left : R → Comm → Int → List CollEnt × Int} {comm : Comm}

theorem fetched_left (hc : Collections w left) (inp : GenQueryInp) (fuel : Nat) (out : GenQueryOut)
    (values : List CStr) (r : R) (h : Int) :
    left (fetched w comm inp fuel out values r).2 comm h = left r comm h := by
  induction fuel generalizing out values r with
  | zero => rfl
  | succ fuel ih =>
    rw [fetched]
    dsimp only
    split
    · rfl
    · split
      · split
        · exact (ih _ _ _).trans (hc.query comm _)
        · exact hc.query comm _
      · exact hc.query comm _

/-- Queries do not disturb a listing. -/
theorem queried_left (hc : Collections w left) (inp : GenQueryInp) (r : R) (h : Int) :
    left (queried w comm inp r).2 comm h = left r comm h := by
  rw [queried]
  dsimp only
  split
  · exact hc.query comm inp
  · exact (fetched_left hc _ _ _ _ _ _).trans (hc.query comm inp)

/-! ## The directory is filled -/

/-- The mirror is a directory with the entries `ns`. -/
def Filled (t : MirrorTree) (ns : List CStr) : Prop := IsDir t [] ∧ ∀ c, t [c] ≠ none ↔ c ∈ ns

theorem Filled.gains {t t' : MirrorTree} {ns : List CStr} {c : CStr} {d : Bool} (h : Filled t ns)
    (hg : Gains t c d t') : Filled t' (ns ++ [c]) ∧ ∃ n, t' [c] = some n := by
  obtain ⟨hdir, hns⟩ := h
  rcases hg with ⟨hc, rfl⟩ | ⟨hc, i, rfl⟩
  · refine ⟨⟨hdir, fun c' => ?_⟩, Option.ne_none_iff_exists'.1 hc⟩
    rw [hns, List.mem_append, List.mem_singleton]
    exact ⟨.inl, fun h => h.elim id fun h => h ▸ (hns c).1 hc⟩
  · refine ⟨⟨?_, fun c' => ?_⟩, ⟨_, Dirs.add_self _ _ _⟩⟩
    · obtain ⟨n, hn, hd⟩ := hdir
      exact ⟨n, by rw [Dirs.add_other _ (by simp), hn], hd⟩
    · rw [List.mem_append, List.mem_singleton, ← hns]
      by_cases hcc : c' = c
      · simp [hcc]
      · rw [Dirs.add_other _ (by simpa using hcc)]
        simp [hcc]

/-- A filled mirror `s'` of a listing that goes on as in `s`. -/
structure FilledBy (own : L → Prop) (view : L → MirrorTree)
    (left : R → Comm → Int → List CollEnt × Int)
    (comm : Comm) (ns : List CStr) (s s' : Server L R) : Prop where
  outside : Outside s s'
  own : own s'.kernel
  filled : Filled (view s'.kernel) ns
  left : ∀ h, left s'.rods comm h = left s.rods comm h

theorem within_single (m c : CStr) : m ++ root ++ c = within m [c] := by
  rw [within, pathOf, List.flatMap_singleton, List.append_assoc]

theorem basename_child (c : CStr) {n : CStr} (hn : Component n) :
    basename (c ++ root ++ n) = n := by
  have hrev : ∀ b ∈ n.reverse, decide (b ≠ slash) = true := by
    intro b hb
    have hb' : b ∈ n := by simpa using hb
    exact decide_eq_true fun h => hn.slashless (h ▸ hb')
  rw [basename, List.reverse_append, List.takeWhile_append_of_pos hrev]
  simp [root]

/-- The entry is handled and the mirror has the names `ns`, unless the daemon stops. -/
def EntryFills (own : L → Prop) (view : L → MirrorTree)
    (left : R → Comm → Int → List CollEnt × Int) (comm : Comm) (ns : List CStr) (m : M L R Bool)
    (s : Server L R) : Prop :=
  Reaches (fun go s' => go = true ∧ FilledBy own view left comm ns s s') (fun _ _ => True) m s

/-- A data object gets its file. -/
theorem listEntry_data (hm : Mirror w m own view) (hc : Collections w left) {c n : CStr}
    {ns : List CStr} {s : Server L R} (ho : own s.kernel) (hf : Filled (view s.kernel) ns)
    (hn : Named m n) (hp : Shell.PlainArg (within m [n])) :
    EntryFills own view left comm (ns ++ [n])
      (listEntry w c m comm (some (.dataObj (some n)))) s := by
  have hrec : (record (.listed n) : M L R Unit) s =
      (.ok (), { s with trace := s.trace ++ [.listed n] }) := rfl
  obtain ⟨ho1, hg⟩ := hm.echo ho hf.1 hn hp.toPlainTarget
  obtain ⟨hf1, node, hnode⟩ := hf.gains hg
  obtain ⟨s1, h1, hk1, hkernel1⟩ := sys_ends (w := w) (.system (echoCommand (within m [n])))
    { s with trace := s.trace ++ [.listed n] }
  obtain ⟨x, ⟨s2, h2, a2, hr2⟩, _⟩ := fileMode_ends w comm (c ++ root ++ n) s1
  have hmode : listEntry w c m comm (some (.dataObj (some n))) s =
      (fileMode w (c ++ root ++ n) comm >>= fun dataMode => do
        debug w "DATA MODE %d"
        let _ ← sys w (.system (chmodCommand dataMode (m ++ root ++ n)))
        debug w "ReadDir Create %s"
        (pure true : M L R Bool)) s1 := by
    rw [← within_single] at h1
    exact (Prog.bind_ok hrec).trans (Prog.bind_ok h1)
  rcases x with st | d
  · exact .of_error (hmode.trans (Prog.bind_error h2)) trivial
  obtain ⟨s3, h3, t3⟩ := debug_tacit (w := w) "DATA MODE %d" s2
  obtain ⟨s4, h4, hk4, hkernel4⟩ := sys_ends (w := w) (.system (chmodCommand d (within m [n]))) s3
  obtain ⟨s5, h5, t5⟩ := debug_tacit (w := w) "ReadDir Create %s" s4
  have hkernel3 : s3.kernel = (w.sys (.system (echoCommand (within m [n]))) s.kernel).2 := by
    rw [t3.kernel, a2.kernel, hkernel1]
  rw [← hkernel3] at ho1 hf1 hnode
  obtain ⟨ho4, hv4⟩ := hm.chmod d ho1 hnode hp
  refine .of_ok (show _ = (Except.ok true, s5) from ?_) ⟨rfl, ?_, ?_, ?_, fun h => ?_⟩
  · rw [← within_single] at h4
    rw [hmode, Prog.bind_ok h2, Prog.bind_ok h3, Prog.bind_ok h4, Prog.bind_ok h5]
    rfl
  · have hout1 : Outside s s1 :=
      trans_of Outside (b := { s with trace := s.trace ++ [.listed n] }) rfl hk1.local.outside
    exact trans_of Outside hout1 (trans_of Outside a2.outside (trans_of Outside t3.local.outside
      (trans_of Outside hk4.local.outside t5.local.outside)))
  · rw [t5.kernel, hkernel4]
    exact ho4
  · rw [t5.kernel, hkernel4, hv4]
    exact hf1
  · rw [t5.rods, hk4.rods, t3.rods, hr2, queried_left hc, hk1.rods]

/-- A sub-collection gets its directory. -/
theorem listEntry_coll (hm : Mirror w m own view) {c n : CStr} {comm : Comm} {ns : List CStr}
    {s : Server L R} (ho : own s.kernel) (hf : Filled (view s.kernel) ns) (hn : Named m n) :
    Ends (FilledBy own view left comm (ns ++ [n]))
      (listEntry w c m comm (some (.coll (c ++ root ++ n)))) s
      (.ok true) := by
  obtain ⟨s1, s2, -, t1, -, hk2, hkernel2, hrun⟩ := listEntry_coll_run (w := w) c m comm n s
  rw [basename_child c hn.component, within_single] at hkernel2
  rw [← t1.kernel] at ho hf
  obtain ⟨ho2, hg⟩ := hm.mkdir ho hf.1 hn
  refine ⟨s2, hrun, trans_of Outside t1.local.outside hk2.local.outside, ?_, ?_, fun h => ?_⟩
  · rw [hkernel2]
    exact ho2
  · rw [hkernel2]
    exact (hf.gains hg).1
  · rw [hk2.rods, t1.rods]

/-- One entry of the loop. -/
theorem listEntry_fills (hm : Mirror w m own view) (hc : Collections w left) {c : CStr} {r : R}
    (hall : Mirrorable w m r c) {x : CollEnt} (hx : EntryOf w r c x) {ns : List CStr}
    {s : Server L R} (ho : own s.kernel) (hf : Filled (view s.kernel) ns) :
    EntryFills own view left comm (ns ++ (x.entry c).toList) (listEntry w c m comm (some x)) s := by
  cases hx with
  | @data n b hn h =>
    obtain ⟨hnamed, hplain⟩ := hall n _ hn h
    exact listEntry_data hm hc ho hf hnamed (hplain b rfl)
  | @coll n hn h =>
    have hlen : ¬ (c ++ root ++ n).length = c.length := by
      simp only [List.length_append, root, List.length_singleton]
      omega
    rw [CollEnt.entry, if_neg hlen, basename_child c hn]
    obtain ⟨s', h', f'⟩ := listEntry_coll hm ho hf (hall n _ hn h).1
    exact .of_ok h' ⟨rfl, f'⟩
  | self =>
    rw [CollEnt.entry, if_pos rfl, listEntry, if_pos rfl]
    exact .of_ok rfl ⟨rfl, refl_of Outside s, ho, by simpa using hf, fun _ => rfl⟩

/-! ## The loop of `listCollection` -/

/-- The entries that iRODS lists of the collection `c`, in state `r`. -/
def listed (w : World L R) (left : R → Comm → Int → List CollEnt × Int) (comm : Comm) (c : CStr)
    (r : R) :
    List CollEnt × Int :=
  left (w.rods (.rcOpenCollection comm c) r).2 comm (w.rods (.rcOpenCollection comm c) r).1.status

/-- The rest of `listCollection`, once the directory is there. -/
def listInto (w : World L R) (remoteFolder localFolder : CStr) (comm : Comm) : M L R Int := do
  let o ← rods w (.rcOpenCollection comm remoteFolder)
  debug w "rclOpenCollection OK"
  debug w "ListCollection RemoteFolder %s"
  let s ← Prog.get
  listLoop w remoteFolder localFolder comm o.status (w.catalogue s.rods + 1)
  let c ← rods w (.rcCloseCollection comm o.status)
  pure c.status

/-- The event is neither a command line nor a change in iRODS. -/
def Silent (e : Event) : Prop :=
  (∀ c, e ≠ .sys (.system c)) ∧ ∀ c, e = .rods c → c.mutates = false

theorem rods_silent {cl : RodsCall} (h : cl.mutates = false) :
    Frame (Ran w Silent) (rods w cl) :=
  rods_frame (E := Silent) ⟨by simp, fun _ hc => by cases hc; exact h⟩

theorem debug_silent (msg : Msg) : Frame (Ran w Silent) (debug w msg : M L R Unit) :=
  debug_frame msg

/-- `J` holds of the entries that were handled and the state after them: every one of `es` keeps it,
and so does what stands between them. When the daemon stops at one of them, `K` holds of the state.
-/
structure ListKeeps (w : World L R) (left : R → Comm → Int → List CollEnt × Int) (c m : CStr)
    (comm : Comm) (es : List CollEnt) (J : List CollEnt → Server L R → Prop)
    (K : Server L R → Prop) : Prop where
  quiet : ∀ {done s s'}, J done s → Aside s s' → Ran w Silent s s' → J done s'
  entry : ∀ {done x s}, x ∈ es → J done s → Reaches
    (fun go s' => go = true ∧ J (done ++ [x]) s' ∧ ∀ h, left s'.rods comm h = left s.rods comm h)
    (fun _ s' => K s') (listEntry w c m comm (some x)) s

/-- **The loop goes through what iRODS lists.** -/
theorem ListKeeps.loop (hc : Collections w left) {c : CStr} {h st : Int} {es : List CollEnt}
    {J : List CollEnt → Server L R → Prop} {K : Server L R → Prop}
    (hj : ListKeeps w left c m comm es J K) {fuel : Nat}
    (hfuel : es.length < fuel) {done : List CollEnt} {s : Server L R} (hs : J done s)
    (hleft : left s.rods comm h = (es, st)) :
    Reaches (fun _ s' => J (done ++ es) s') (fun _ s' => K s') (listLoop w c m comm h fuel) s := by
  induction es generalizing fuel done s with
  | nil =>
    obtain ⟨fuel, rfl⟩ : ∃ n, fuel = n + 1 := ⟨fuel - 1, by simp at hfuel; omega⟩
    obtain ⟨hst, hneg⟩ := hc.done hleft
    obtain ⟨s1, h1, a1, _⟩ := rods_ends (w := w) (.rcReadCollection comm h) s
    refine .of_ok (show _ = (Except.ok (), s1) from ?_) ?_
    · rw [listLoop, Prog.bind_ok h1, Prog.when, if_neg (by rw [hst]; omega)]
      rfl
    · rw [List.append_nil]
      exact hj.quiet hs a1 ((rods_silent rfl).ok h1)
  | cons x es ih =>
    obtain ⟨fuel, rfl⟩ : ∃ n, fuel = n + 1 := ⟨fuel - 1, by simp at hfuel; omega⟩
    obtain ⟨hst, hent, hleft1⟩ := hc.next hleft
    obtain ⟨s1, h1, a1, hr1⟩ := rods_ends (w := w) (.rcReadCollection comm h) s
    have hs1 : J done s1 := hj.quiet hs a1 ((rods_silent rfl).ok h1)
    have hrest : ListKeeps w left c m comm es J K :=
      ⟨hj.quiet, fun hy => hj.entry (List.mem_cons_of_mem _ hy)⟩
    rw [listLoop, Reaches, Prog.bind_ok h1, Prog.when, if_pos hst, hent]
    refine (hj.entry List.mem_cons_self hs1).bind fun go s2 _ hend => ?_
    obtain ⟨rfl, hs2, l2⟩ := hend
    have hnext := ih hrest (Nat.lt_of_succ_lt_succ hfuel) hs2 (by rw [l2, hr1, hleft1])
    rw [List.append_assoc] at hnext
    exact hnext

/-- What stands around the loop keeps `J` as well. -/
theorem ListKeeps.into (hc : Collections w left) {c : CStr} {J : List CollEnt → Server L R → Prop}
    {K : Server L R → Prop} {s : Server L R}
    (hj : ListKeeps w left c m comm (listed w left comm c s.rods).1 J K) (hs : J [] s) :
    Reaches (fun _ s' => J (listed w left comm c s.rods).1 s') (fun _ s' => K s')
      (listInto w c m comm) s := by
  obtain ⟨s1, h1, a1, hr1⟩ := rods_ends (w := w) (.rcOpenCollection comm c) s
  obtain ⟨s2, h2, t2⟩ := debug_tacit (w := w) "rclOpenCollection OK" s1
  obtain ⟨s3, h3, t3⟩ := debug_tacit (w := w) "ListCollection RemoteFolder %s" s2
  have hr3 : s3.rods = (w.rods (.rcOpenCollection comm c) s.rods).2 := by
    rw [t3.rods, t2.rods, hr1]
  have hs3 : J [] s3 := by
    refine hj.quiet hs (trans_of Aside a1 (trans_of Aside t2.aside t3.aside)) ?_
    exact trans_of _ ((rods_silent rfl).ok h1)
      (trans_of _ ((debug_silent _).ok h2) ((debug_silent _).ok h3))
  have hfuel : (listed w left comm c s.rods).1.length < w.catalogue s3.rods + 1 := by
    rw [hr3]
    exact Nat.lt_succ_of_le (hc.bounded comm c)
  have hleft : left s3.rods comm (w.rods (.rcOpenCollection comm c) s.rods).1.status =
      listed w left comm c s.rods := by
    rw [hr3]
    rfl
  rw [listInto, Reaches, Prog.bind_ok h1, Prog.bind_ok h2, Prog.bind_ok h3, Prog.get_bind_run]
  refine (hj.loop hc hfuel hs3 hleft).bind fun _ s4 _ hs4 => ?_
  let close : RodsCall :=
    .rcCloseCollection comm (w.rods (.rcOpenCollection comm c) s.rods).1.status
  obtain ⟨s5, h5, a5, _⟩ := rods_ends (w := w) close s4
  exact .of_ok (Prog.bind_ok h5) (hj.quiet hs4 a5 ((rods_silent rfl).ok h5))

/-! ## The directory is filled -/

/-- `listCollection` after the mirror was removed. -/
def listAfter (w : World L R) (remoteFolder localFolder : CStr) (comm : Comm) : M L R Int := do
  debug w "LIST COllection  %s"
  let st ← query fun k => w.stat k localFolder
  let s ← Prog.get
  Prog.when st.isNone do
    if s.errno = .enoent then
      debug w "Criar recursivo %s"
      recMkdir w localFolder
    else
      libCall w
      Prog.stop .exit
  listInto w remoteFolder localFolder comm

theorem listCollection_eq (c m : CStr) (comm : Comm) : listCollection w c m comm =
    (do removedirectoryrecursively w pathMax m; listAfter w c m comm) := rfl

/-- It starts with an empty directory. -/
theorem listAfter_renews (hm : Mirror w m own view) (hmk : Makeable m) {s : Server L R}
    (ho : own s.kernel) (hv : view s.kernel = Dirs.gone) : ∃ s1, Local s s1 ∧ own s1.kernel ∧
      (∃ i, view s1.kernel = Dirs.add Dirs.gone [] ⟨true, i⟩) ∧
      ∀ c comm, listAfter w c m comm s = listInto w c m comm s1 := by
  obtain ⟨s2, h2, t2⟩ := debug_tacit (w := w) "LIST COllection  %s" s
  rw [← t2.kernel] at ho hv
  have h3 := query_error (f := fun k => w.stat k m) (hm.stat ho (by rw [hv]; rfl))
  obtain ⟨s4, h4, t4⟩ := debug_tacit (w := w) "Criar recursivo %s" { s2 with errno := .enoent }
  have hkernel : s4.kernel = s2.kernel := t4.kernel
  rw [← hkernel] at ho hv
  obtain ⟨s5, h5, l5, ho5, i, hv5⟩ := recMkdir_makes hm hmk ho (by rw [hv]; rfl)
  have hlocal : Local s2 s4 :=
    trans_of Local (b := { s2 with errno := .enoent }) rfl t4.local
  refine ⟨s5, ?_, ho5, ⟨i, by rw [hv5, hv]⟩, fun c comm => ?_⟩
  · exact trans_of Local t2.local (trans_of Local hlocal l5)
  · rw [listAfter, Prog.bind_ok h2, Prog.bind_ok h3, Prog.get_bind_run]
    exact Prog.bind_ok ((Prog.bind_ok h4).trans h5)

/-- Every entry that iRODS lists adds its name to the mirror. -/
theorem ListKeeps.fills (hm : Mirror w m own view) (hc : Collections w left) {c : CStr} {r : R}
    (hall : Mirrorable w m r c) {es : List CollEnt} (hes : ∀ x ∈ es, EntryOf w r c x)
    (s : Server L R) :
    ListKeeps w left c m comm es (fun done s' => Outside s s' ∧ own s'.kernel ∧
      Filled (view s'.kernel) (done.filterMap (·.entry c))) fun _ => True where
  quiet := by
    rintro done s1 s2 ⟨o1, ho, hf⟩ a2 -
    rw [a2.kernel]
    exact ⟨trans_of Outside o1 a2.outside, ho, hf⟩
  entry := by
    rintro done x s1 hx ⟨o1, ho, hf⟩
    refine (listEntry_fills hm hc hall (hes x hx) ho hf).mono (fun go s2 h => ?_) fun _ _ h => h
    obtain ⟨hgo, f2⟩ := h
    refine ⟨hgo, ⟨trans_of Outside o1 f2.outside, f2.own, ?_⟩, f2.left⟩
    have hf2 := f2.filled
    cases hn : x.entry c <;> simpa [hn] using hf2

variable (comm) in
/-- It fills the mirror with what iRODS lists, and with nothing else. -/
theorem listAfter_fills (hm : Mirror w m own view) (hc : Collections w left) (hmk : Makeable m)
    {c : CStr} {s : Server L R} (hall : Mirrorable w m s.rods c) (ho : own s.kernel)
    (hv : view s.kernel = Dirs.gone) :
    Reaches (fun _ s' => Outside s s' ∧ own s'.kernel ∧
      Filled (view s'.kernel) ((listed w left comm c s.rods).1.filterMap (·.entry c)))
      (fun _ _ => True) (listAfter w c m comm) s := by
  obtain ⟨s1, l1, ho1, ⟨i, hv1⟩, hrest⟩ := listAfter_renews hm hmk ho hv
  have hfilled : Filled (view s1.kernel) [] := by
    rw [hv1]
    refine ⟨⟨_, Dirs.add_self _ _ _, rfl⟩, fun c => ?_⟩
    rw [Dirs.add_other _ (by simp)]
    simp [Dirs.gone]
  rw [← l1.rods] at hall
  have hkeeps : ListKeeps w left c m comm (listed w left comm c s1.rods).1 _ _ :=
    .fills hm hc hall (fun x hx => hc.sound comm c hx) s
  have hinto := hkeeps.into hc ⟨l1.outside, ho1, hfilled⟩
  rwa [l1.rods, Reaches, ← hrest] at hinto

/-- **READDIR fills the mirror** with what iRODS lists, and with nothing else. -/
theorem listCollection_fills (hm : Mirror w m own view) (hc : Collections w left) (hmk : Makeable m)
    {c : CStr} {s : Server L R} (hall : Mirrorable w m s.rods c) (ho : own s.kernel) :
    Reaches (fun _ s' => Outside s s' ∧ own s'.kernel ∧
      Filled (view s'.kernel) ((listed w left comm c s.rods).1.filterMap (·.entry c)))
      (fun _ _ => True) (listCollection w c m comm) s := by
  obtain ⟨s1, h1, l1, ho1, hv1⟩ := removeMirror_clears hm ho
  rw [← l1.rods] at hall
  have hafter := listAfter_fills comm hm hc hmk hall ho1 hv1
  rw [l1.rods] at hafter
  rw [listCollection_eq, Reaches, Prog.bind_ok h1]
  refine hafter.mono (fun _ s2 h => ?_) fun _ _ h => h
  exact ⟨trans_of Outside l1.outside h.1, h.2⟩

end

end NfsRods
