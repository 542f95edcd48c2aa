import NfsRods.Lib.Dirs
import NfsRods.Proof.Resolve

/-!
# Removing a directory with all that is in it

`removedirectoryrecursively` reads a directory, enters what is marked as a directory there, removes
every entry, then the directory itself. What the file system promises of these calls is stated over
the whole tree (`Removes`).

* `removeEntry_clears`: an entry of a directory is removed with all that is in it.
* `removedirectoryrecursively_clears`: the directory is, by induction on the levels below it.
* `removedirectoryrecursively_removes`: nothing else is changed, and no link is followed.
-/

namespace NfsRods

open CStr
open Prog (Ends)
open Dirs (IsDir Bare)

section
variable {L R : Type}

/-- `s'` differs from `s` only on the kernel's side, and in the counter of library calls. -/
def Local (s s' : Server L R) : Prop :=
  s' = { s with kernel := s'.kernel, errno := s'.errno, tick := s'.tick, trace := s'.trace }

instance : Std.Refl (Local (L := L) (R := R)) := ⟨fun _ => rfl⟩
instance : IsTrans (Server L R) Local := ⟨fun s s' s'' h h' => by
  unfold Local at h h' ⊢
  rw [h', h]⟩

theorem Tacit.local {s s' : Server L R} (h : Tacit s s') : Local s s' := by
  unfold Tacit at h
  unfold Local
  rw [h]

theorem KernelOnly.local {s s' : Server L R} (h : KernelOnly s s') : Local s s' := by
  unfold KernelOnly at h
  unfold Local
  rw [h]

end

/-- The path with the components `cs` below `m`. -/
def within (m : CStr) (cs : List CStr) : CStr := m ++ pathOf cs

theorem within_snoc {m : CStr} (cs : List CStr) (c : CStr) :
    within m cs ++ root ++ c = within m (cs ++ [c]) := by
  rw [within, within, pathOf_snoc, List.append_assoc, List.append_assoc, List.append_assoc]

theorem within_length_lt {m : CStr} (cs : List CStr) (c : CStr) :
    (within m cs).length < (within m (cs ++ [c])).length := by
  rw [← within_snoc]
  simp only [List.length_append, root, List.length_singleton]
  omega

/-- The names that the loop over the entries removes. -/
def ordinaryNames (es : List Dirent) : List CStr :=
  (es.map (·.name)).filter fun c => Ordinary c

theorem ordinaryNames_snoc (es : List Dirent) (x : Dirent) : ordinaryNames (es ++ [x]) =
    if Ordinary x.name then ordinaryNames es ++ [x.name] else ordinaryNames es := by
  unfold ordinaryNames
  split <;> simp [*]

/-! ## The file system -/

section
variable {L R ι : Type}

/-- What POSIX documents of the calls that remove the directory `p`, made by a process that `own`s
it: that may read and write the directories in it, and the one it is in. `view` is the tree of
everything there is, `ds` where in it `p` leads. Links are among the objects that are no
directories, and nothing is said of what a call on a path through a link does. -/
structure Removes (w : World L R) (p : CStr) (ds : List CStr) (own : L → Prop)
    (view : L → Dirs CStr ι) : Prop where
  closed : ∀ {k}, own k → Dirs.Closed (view k)
  names : ∀ {k cs c}, own k → view k (ds ++ (cs ++ [c])) ≠ none → Component c ∧ Ordinary c
  short : ∀ {k cs}, own k → view k (ds ++ cs) ≠ none → (within p cs).length < pathMax
  /-- A directory lists what is in it, once, with its type, and what else it lists is `.` and
  `..`. -/
  lists : ∀ {k cs}, own k → IsDir (view k) (ds ++ cs) → ∃ es, w.readdir k (within p cs) = .ok es ∧
    (es.map (·.name)).Nodup ∧ (∀ c, view k (ds ++ (cs ++ [c])) ≠ none → ∃ x ∈ es, x.name = c) ∧
    ∀ x ∈ es, Ordinary x.name →
      ∃ n, view k (ds ++ (cs ++ [x.name])) = some n ∧ x.isDir = n.dir
  /-- `remove` of something other than a directory, and of nothing. -/
  remove : ∀ {k cs n}, own k → view k (ds ++ cs) = some n → n.dir = false →
    own (w.sys (.remove (within p cs)) k).2 ∧
      view (w.sys (.remove (within p cs)) k).2 = (view k).cut (ds ++ cs)
  removeNone : ∀ {k cs}, own k → (∀ c ∈ cs, Component c) → view k (ds ++ cs) = none →
    own (w.sys (.remove (within p cs)) k).2 ∧ view (w.sys (.remove (within p cs)) k).2 = view k
  /-- `rmdir` of an empty directory. -/
  rmdir : ∀ {k cs}, own k → Bare (view k) (ds ++ cs) →
    own (w.sys (.rmdir (within p cs)) k).2 ∧
      view (w.sys (.rmdir (within p cs)) k).2 = (view k).cut (ds ++ cs)

/-- The event removes what is at a path below `p`, of which the tree `t` had an object there. -/
def Unlinks (p : CStr) (ds : List CStr) (t : Dirs CStr ι) (e : Event) : Prop :=
  ∃ cs, t (ds ++ cs) ≠ none ∧
    (e = .sys (.remove (within p cs)) ∨ e = .sys (.rmdir (within p cs)))

/-- From `s` the run has come to the tree `t'`, by removing objects of `t`. -/
structure Removed (p : CStr) (ds : List CStr) (own : L → Prop) (view : L → Dirs CStr ι)
    (t t' : Dirs CStr ι) (s s' : Server L R) : Prop where
  «local» : Local s s'
  own : own s'.kernel
  view : view s'.kernel = t'
  calls : ∃ es, s'.trace = s.trace ++ es ∧ ∀ e ∈ es, Unlinks p ds t e

/-- The same world where directories are listed in another way. -/
def World.reading (w : World L R) (rd : L → CStr → Except Errno (List Dirent)) : World L R :=
  { w with readdir := rd }

/-- `rd` lists what `w` does, for the directories at or below `p`. -/
def ListsAlike (w : World L R) (p : CStr) (ds : List CStr) (own : L → Prop)
    (view : L → Dirs CStr ι) (rd : L → CStr → Except Errno (List Dirent)) : Prop :=
  ∀ k cs, own k → IsDir (view k) (ds ++ cs) → rd k (within p cs) = w.readdir k (within p cs)

variable {w : World L R} {p : CStr} {ds : List CStr} {own : L → Prop} {view : L → Dirs CStr ι}

theorem Removed.then {t t' t₁ t₂ : Dirs CStr ι} {s s' s'' : Server L R}
    (h : Removed p ds own view t t₁ s s') (h' : Removed p ds own view t' t₂ s' s'')
    (hsub : ∀ q, t' q ≠ none → t q ≠ none) : Removed p ds own view t t₂ s s'' := by
  obtain ⟨es, hes, hall⟩ := h.calls
  obtain ⟨es', hes', hall'⟩ := h'.calls
  refine ⟨trans_of Local h.local h'.local, h'.own, h'.view, es ++ es', ?_, ?_⟩
  · rw [hes', hes, List.append_assoc]
  · intro e he
    rcases List.mem_append.1 he with he | he
    · exact hall e he
    · obtain ⟨cs, hcs, hc⟩ := hall' e he
      exact ⟨cs, hsub _ hcs, hc⟩

/-- A call that removes. -/
theorem sys_removed {c : SysCall} {t t' : Dirs CStr ι} {s : Server L R}
    (hc : Unlinks p ds t (.sys c))
    (h : own (w.sys c s.kernel).2 ∧ view (w.sys c s.kernel).2 = t') :
    Ends (Removed p ds own view t t') (sys w c) s (.ok (sysResult w c s.kernel)) := by
  obtain ⟨s', hs, hk, hkernel⟩ := sys_ends (w := w) c s
  obtain ⟨s'', hs', -, htrace⟩ := sys_trace (w := w) c s
  rw [hs] at hs'
  obtain ⟨-, rfl⟩ := Prod.mk.inj hs'
  rw [← hkernel] at h
  refine ⟨s', hs, hk.local, h.1, h.2, [.sys c], htrace, ?_⟩
  intro e he
  rwa [List.mem_singleton.1 he]

/-- The names on the way to something below `p`. -/
theorem Removes.component (hr : Removes w p ds own view) {k : L} {cs : List CStr} (ho : own k)
    (h : view k (ds ++ cs) ≠ none) : ∀ c ∈ cs, Component c := by
  induction cs using List.reverseRecOn with
  | nil => simp
  | append_singleton cs c ih =>
    intro c' hc'
    rcases List.mem_append.1 hc' with hc' | hc'
    · rw [← List.append_assoc] at h
      exact ih ((hr.closed ho) (ds ++ cs) c h).ne_none c' hc'
    · rw [List.mem_singleton.1 hc']
      exact (hr.names ho h).1

/-! ## The loop over a directory -/

/-- What is done with an entry of a directory. -/
def removeEntry (w : World L R) (n : Nat) (dirname : CStr) (x : Dirent) : M L R Unit :=
  Prog.when (x.name ≠ lit "." ∧ x.name ≠ lit "..") do
    let path := (dirname ++ root ++ x.name).take (pathMax - 1)
    Prog.when x.isDir (removedirectoryrecursively w n path)
    let _ ← sys w (.remove path)

theorem removedirectoryrecursively_eq {n : Nat} {dirname : CStr} {s : Server L R}
    {es : List Dirent} (h : w.readdir s.kernel dirname = .ok es) :
    removedirectoryrecursively w (n + 1) dirname s = (do
      Prog.forEach (removeEntry w n dirname) es
      let _ ← sys w (.rmdir dirname) : M L R Unit) s := by
  rw [removedirectoryrecursively, Prog.bind_ok (query_ok h)]
  rfl

/-- `removedirectoryrecursively`, with `n` levels to go, removes any directory at or below `p` that
is not too deep, and lists no other. -/
def Clears (w : World L R) (p : CStr) (ds : List CStr) (own : L → Prop) (view : L → Dirs CStr ι)
    (n : Nat) : Prop :=
  ∀ cs (s : Server L R), own s.kernel → IsDir (view s.kernel) (ds ++ cs) →
    pathMax ≤ n + (within p cs).length →
    Ends (Removed p ds own view (view s.kernel) ((view s.kernel).cut (ds ++ cs)))
      (removedirectoryrecursively w n (within p cs)) s (.ok ()) ∧
    ∀ rd, ListsAlike w p ds own view rd →
      removedirectoryrecursively (w.reading rd) n (within p cs) s =
        removedirectoryrecursively w n (within p cs) s

/-- An entry of a directory is removed, with all that is in it. -/
theorem removeEntry_clears (hr : Removes w p ds own view) {n : Nat} (ih : Clears w p ds own view n)
    {cs : List CStr} {x : Dirent} {s : Server L R} {node : Node ι} (ho : own s.kernel)
    (hord : Ordinary x.name) (hnode : view s.kernel (ds ++ (cs ++ [x.name])) = some node)
    (hdir : x.isDir = node.dir) (hn : pathMax ≤ n + (within p (cs ++ [x.name])).length) :
    Ends (Removed p ds own view (view s.kernel) ((view s.kernel).cut (ds ++ (cs ++ [x.name]))))
      (removeEntry w n (within p cs) x) s (.ok ()) ∧
    ∀ rd, ListsAlike w p ds own view rd →
      removeEntry (w.reading rd) n (within p cs) x s = removeEntry w n (within p cs) x s := by
  have hsome : view s.kernel (ds ++ (cs ++ [x.name])) ≠ none := by simp [hnode]
  have hpath : (within p cs ++ root ++ x.name).take (pathMax - 1) = within p (cs ++ [x.name]) := by
    have hlen := hr.short ho hsome
    rw [within_snoc]
    exact List.take_of_length_le (by omega)
  have hunlinks : Unlinks p ds (view s.kernel) (.sys (.remove (within p (cs ++ [x.name])))) :=
    ⟨cs ++ [x.name], hsome, .inl rfl⟩
  have hskip : x.name ≠ lit "." ∧ x.name ≠ lit ".." := not_or.1 hord
  have hrun : ∀ w' : World L R, removeEntry w' n (within p cs) x = (do
      Prog.when x.isDir (removedirectoryrecursively w' n (within p (cs ++ [x.name])))
      let _ ← sys w' (.remove (within p (cs ++ [x.name])))) := by
    intro w'
    rw [removeEntry, Prog.when, if_pos hskip, hpath]
  simp only [hrun]
  cases hd : x.isDir with
  | false =>
    have hremove := hr.remove ho hnode (by rw [← hdir, hd])
    obtain ⟨s1, h1, r1⟩ := sys_removed hunlinks hremove
    refine ⟨⟨s1, ?_, r1⟩, fun rd _ => rfl⟩
    show (do
      let _ ← sys w (.remove (within p (cs ++ [x.name]))) : M L R Unit) s = _
    rw [Prog.bind_ok h1]
    rfl
  | true =>
    obtain ⟨⟨s1, h1, r1⟩, hsame⟩ := ih (cs ++ [x.name]) s ho ⟨node, hnode, by rw [← hdir, hd]⟩ hn
    have hgone : view s1.kernel (ds ++ (cs ++ [x.name])) = none := by
      rw [r1.view]
      exact Dirs.cut_below List.prefix_rfl
    have hnone := hr.removeNone r1.own (hr.component ho hsome) hgone
    obtain ⟨s2, h2, r2⟩ := sys_removed hunlinks hnone
    have hw : ∀ w' : World L R, (Prog.when (true = true)
        (removedirectoryrecursively w' n (within p (cs ++ [x.name])))) =
          removedirectoryrecursively w' n (within p (cs ++ [x.name])) := fun w' => if_pos rfl
    simp only [hw]
    constructor
    · refine ⟨s2, ?_, ?_⟩
      · rw [Prog.bind_ok h1, Prog.bind_ok h2]
        rfl
      · have hthen := r1.then r2 fun q hq => hq
        rwa [r1.view] at hthen
    · intro rd hrd
      rw [Prog.bind_ok h1, Prog.bind_ok ((hsame rd hrd).trans h1)]
      rfl

/-- **`removedirectoryrecursively` removes a directory** with all that is in it, by induction on the
levels that it may go down. -/
theorem removedirectoryrecursively_clears (hr : Removes w p ds own view) (n : Nat) :
    Clears w p ds own view n := by
  induction n with
  | zero =>
    intro cs s ho hd hn
    have := hr.short ho hd.ne_none
    omega
  | succ n ih =>
    intro cs s ho hd hn
    obtain ⟨es, hes, hnodup, hall, honly⟩ := hr.lists ho hd
    -- after some entries the tree is the first one without them
    have hloop : ∀ rd, ListsAlike w p ds own view rd →
        Prog.forEach (removeEntry (w.reading rd) n (within p cs)) es s =
          Prog.forEach (removeEntry w n (within p cs)) es s ∧
        ∃ s', Prog.forEach (removeEntry w n (within p cs)) es s = (.ok (), s') ∧
          Removed p ds own view (view s.kernel)
            ((view s.kernel).sweep (ds ++ cs) (ordinaryNames es)) s s' := by
      intro rd hrd
      refine Prog.forEach_congr (I := fun done s' => Removed p ds own view (view s.kernel)
        ((view s.kernel).sweep (ds ++ cs) (ordinaryNames done)) s s') es ?_
        ⟨refl_of Local s, ho, rfl, [], by simp, by simp⟩
      intro done x rest s1 hsplit h1
      rw [ordinaryNames_snoc]
      by_cases hord : Ordinary x.name
      · obtain ⟨node, hnode, hdir⟩ := honly x (by simp [hsplit]) hord
        have hsweep := Dirs.sweep_apply (t := view s.kernel) (p := ds ++ cs) (ordinaryNames done)
        -- no entry before had its name
        have hnode1 : view s1.kernel (ds ++ (cs ++ [x.name])) = some node := by
          rw [h1.view, ← hnode]
          rcases hsweep (ds ++ (cs ++ [x.name])) with ⟨⟨a, ha, hpre⟩, _⟩ | ⟨_, h⟩
          · exfalso
            rw [← List.append_assoc, List.prefix_append_right_inj, List.cons_prefix_cons] at hpre
            rw [ordinaryNames, List.mem_filter] at ha
            rw [hsplit, List.map_append, List.nodup_append] at hnodup
            exact hnodup.2.2 a ha.1 x.name (by simp) hpre.1
          · exact h
        have hlen := within_length_lt (m := p) cs x.name
        obtain ⟨⟨s2, h2, r2⟩, hsame⟩ := removeEntry_clears hr ih h1.own hord hnode1 hdir (by omega)
        refine ⟨hsame rd hrd, s2, h2, ?_⟩
        rw [if_pos hord, Dirs.sweep_snoc, List.append_assoc, ← h1.view]
        refine h1.then r2 fun q hq => ?_
        rw [h1.view] at hq
        rcases hsweep q with ⟨_, h⟩ | ⟨_, h⟩
        · exact absurd h hq
        · rwa [h] at hq
      · have hskip : ¬ (x.name ≠ lit "." ∧ x.name ≠ lit "..") := fun h => hord (not_or.2 h)
        have hrun : ∀ w' : World L R, removeEntry w' n (within p cs) x = pure () :=
          fun w' => if_neg hskip
        rw [if_neg hord, hrun, hrun]
        exact ⟨rfl, s1, rfl, h1⟩
    obtain ⟨-, s1, h1, r1⟩ := hloop w.readdir fun _ _ _ _ => rfl
    have hbare : Bare (view s1.kernel) (ds ++ cs) := by
      rw [r1.view]
      refine Dirs.bare_sweep hd fun c hc => ?_
      rw [List.append_assoc] at hc
      obtain ⟨x, hx, rfl⟩ := hall c hc
      simp only [ordinaryNames, List.mem_filter, List.mem_map, decide_eq_true_eq]
      exact ⟨⟨x, hx, rfl⟩, (hr.names ho hc).2⟩
    obtain ⟨s2, h2, r2⟩ := sys_removed (t := view s.kernel) ⟨cs, hd.ne_none, .inr rfl⟩
      (hr.rmdir r1.own hbare)
    constructor
    · refine ⟨s2, ?_, ?_⟩
      · rw [removedirectoryrecursively_eq hes, Prog.bind_ok h1, Prog.bind_ok h2]
        rfl
      · have hthen := r1.then r2 fun _ hq => hq
        rwa [r1.view, Dirs.cut_sweep] at hthen
    · intro rd hrd
      have hes' : (w.reading rd).readdir s.kernel (within p cs) = .ok es :=
        (hrd s.kernel cs ho hd).trans hes
      rw [removedirectoryrecursively_eq hes, removedirectoryrecursively_eq hes',
        Prog.bind_ok h1, Prog.bind_ok ((hloop rd hrd).1.trans h1)]
      rfl

/-- **`removedirectoryrecursively`** returns, and then `p` is gone with everything below it, all
else is what it was, and all that was called for are objects that were at or below `p`. The contents
of anything but the directories at or below `p`, such as those that links lead to, do not matter. -/
theorem removedirectoryrecursively_removes (hr : Removes w p ds own view) (s : Server L R)
    (ho : own s.kernel) (hd : IsDir (view s.kernel) ds) :
    ∃ s', removedirectoryrecursively w pathMax p s = (.ok (), s') ∧ Local s s' ∧
      (∀ q, ds <+: q → view s'.kernel q = none) ∧
      (∀ q, ¬ ds <+: q → view s'.kernel q = view s.kernel q) ∧
      (∃ es, s'.trace = s.trace ++ es ∧ ∀ e ∈ es, Unlinks p ds (view s.kernel) e) ∧
      ∀ rd, ListsAlike w p ds own view rd →
        removedirectoryrecursively (w.reading rd) pathMax p s = (.ok (), s') := by
  have hp : within p [] = p := by simp [within, pathOf]
  have hclears := removedirectoryrecursively_clears hr pathMax [] s ho (by simpa using hd) (by simp)
  rw [hp, List.append_nil] at hclears
  obtain ⟨⟨s', h, r⟩, hsame⟩ := hclears
  refine ⟨s', h, r.local, ?_, ?_, r.calls, fun rd hrd => (hsame rd hrd).trans h⟩
  · intro q hq
    rw [r.view]
    exact Dirs.cut_below hq
  · intro q hq
    rw [r.view]
    exact Dirs.cut_other hq

end

end NfsRods
