import NfsRods.Proof.Mirror

/-!
# A file system that keeps mirrors

The small worlds of `Sandbox.plotWorld` behave as `Mirror`, `Removes` and `Collections` say, for the
export `/e`: the laws can be met.

* `plotWorld_mirror`, `plotWorld_removes`, `plotWorld_collections`.
-/

namespace NfsRods

open CStr
open Dirs (IsDir Bare)
open Sandbox (Plot plotWorld)
open Sandbox.Plot (split parts)

/-! ## Paths and their components -/

theorem split_component {c p : CStr} (hc : Component c) (hp : p = [] ∨ p.head? = some slash) :
    split (c ++ p) = c :: (split p).tail := by
  obtain ⟨hne, hs⟩ := hc
  induction c with
  | nil => exact absurd rfl hne
  | cons b c ih =>
    have hb : b ≠ slash := fun hb => hs (by simp [hb])
    rw [List.cons_append, split, if_neg hb]
    by_cases hnil : c = []
    · rw [hnil, List.nil_append]
      rcases hp with rfl | hp
      · rfl
      · obtain ⟨p, rfl⟩ : ∃ q, p = slash :: q := by
          cases p with
          | nil => cases hp
          | cons a q => exact ⟨q, by rw [Option.some.inj hp]⟩
        rw [split, if_pos rfl]
        rfl
    · rw [ih hnil fun h => hs (List.mem_cons_of_mem b h)]

theorem split_pathOf {cs : List CStr} (h : ∀ c ∈ cs, Component c) :
    (split (pathOf cs)).tail = cs ∧ (cs ≠ [] → (split (pathOf cs)).head? = some []) := by
  induction cs with
  | nil => simp [split]
  | cons c cs ih =>
    have hhead : pathOf cs = [] ∨ (pathOf cs).head? = some slash := by
      by_cases hcs : cs = []
      · exact .inl (by rw [hcs]; rfl)
      · exact .inr (pathOf_head hcs)
    have hcut : pathOf (c :: cs) = slash :: (c ++ pathOf cs) := rfl
    rw [hcut, split, if_pos rfl, split_component (h c (by simp)) hhead,
      (ih fun c hc => h c (by simp [hc])).1]
    simp

theorem parts_pathOf {cs : List CStr} (h : ∀ c ∈ cs, Component c) : parts (pathOf cs) = cs := by
  have hne : ∀ c ∈ cs, c ≠ [] := fun c hc => (h c hc).nonempty
  obtain ⟨htail, hhead⟩ := split_pathOf h
  have hfilter : cs.filter (· ≠ []) = cs := List.filter_eq_self.2 (by simpa using hne)
  cases hsp : split (pathOf cs) with
  | nil =>
    rw [hsp] at htail
    rw [parts, hsp, ← htail]
    rfl
  | cons a l =>
    rw [hsp] at htail hhead
    obtain rfl : l = cs := htail
    by_cases hcs : l = []
    · subst hcs
      simp [pathOf, split] at hsp
    · obtain rfl : a = [] := Option.some.inj (hhead hcs)
      rw [parts, hsp, List.filter_cons_of_neg (by simp), hfilter]

/-- The export of the small worlds. -/
def plotDir : CStr := lit "/e"

theorem within_plotDir (cs : List CStr) : within plotDir cs = pathOf (lit "e" :: cs) := rfl

theorem component_e : Component (lit "e") := by decide

theorem parts_within {cs : List CStr} (h : ∀ c ∈ cs, Component c) :
    parts (within plotDir cs) = lit "e" :: cs := by
  rw [within_plotDir]
  refine parts_pathOf fun c hc => ?_
  rcases List.mem_cons.1 hc with rfl | hc
  · exact component_e
  · exact h c hc

/-! ## The tree -/

theorem lookup_filter_key {α β : Type} [BEq α] [LawfulBEq α] (f : α → Bool) (l : List (α × β))
    (a : α) :
    (l.filter fun x => f x.1).lookup a = if f a then l.lookup a else none := by
  induction l with
  | nil => simp
  | cons x l ih =>
    obtain ⟨b, v⟩ := x
    by_cases hab : a = b
    · subst hab
      by_cases hf : f a
      · simp [hf]
      · simp only [hf, Bool.false_eq_true, ↓reduceIte] at ih ⊢
        simpa [hf] using ih
    · have hne : (a == b) = false := by simpa using hab
      by_cases hf : f b <;> simp [hf, List.lookup_cons, hne, ih]

theorem lookup_ne_none {α β : Type} [BEq α] [LawfulBEq α] {l : List (α × β)} {x : α × β}
    (h : x ∈ l) :
    l.lookup x.1 ≠ none := by
  intro hnone
  simpa using List.lookup_eq_none_iff.1 hnone x h

namespace Plot

variable {k : Plot} {cs : List CStr}

theorem get_prune (k : Plot) (cs : List CStr) : (k.prune cs).get = Dirs.cut k.get cs := by
  funext q
  have := lookup_filter_key (fun q => !decide (cs <+: q)) k.tree q
  rw [Sandbox.Plot.get, Sandbox.Plot.prune, this, Dirs.cut]
  by_cases h : cs <+: q <;> simp [h, Sandbox.Plot.get]

/-- The plot after something was made. -/
def grown (k : Plot) (cs : List CStr) (dir : Bool) : Plot :=
  { tree := k.tree ++ [(cs, ⟨dir, (1, UInt64.ofNat (1000 + k.made % 1000))⟩)], made := k.made + 1 }

theorem get_grown (dir : Bool) (h : k.get cs = none) : (grown k cs dir).get =
    Dirs.add k.get cs ⟨dir, (1, UInt64.ofNat (1000 + k.made % 1000))⟩ := by
  funext q
  rw [Sandbox.Plot.get, grown, List.lookup_append, Dirs.add]
  by_cases hq : q = cs
  · subst hq
    rw [Sandbox.Plot.get] at h
    simp [h]
  · have hne : (q == cs) = false := by simpa using hq
    simp [hq, List.lookup_cons, hne, Sandbox.Plot.get]

/-- A tree in good order, with `/e` a directory if it is there. -/
structure Tended (k : Plot) : Prop where
  keys : (k.tree.map (·.1)).Nodup
  closed : Dirs.Closed k.get
  root : IsDir k.get []
  names : ∀ {cs}, k.get cs ≠ none → ∀ c ∈ cs, Component c ∧ Ordinary c
  short : ∀ {cs}, k.get cs ≠ none → (pathOf cs).length < pathMax
  top : ∀ {n}, k.get [lit "e"] = some n → n.dir = true

/-- The entries of the tree tell whether it is in good order. -/
theorem Tended.of_tree (hkeys : (k.tree.map (·.1)).Nodup)
    (h : ∀ x ∈ k.tree, (x.1 ≠ [] → (k.get x.1.dropLast).any (·.dir)) ∧
      (∀ c ∈ x.1, Component c ∧ Ordinary c) ∧ (pathOf x.1).length < pathMax)
    (hroot : (k.get []).any (·.dir)) (htop : (k.get [lit "e"]).all (·.dir)) : Tended k := by
  have hmem : ∀ {cs}, k.get cs ≠ none → ∃ x ∈ k.tree, x.1 = cs := by
    intro cs hcs
    obtain ⟨n, hn⟩ := Option.ne_none_iff_exists'.1 hcs
    obtain ⟨l₁, l₂, hl, _⟩ := List.lookup_eq_some_iff.1 (show k.tree.lookup cs = some n from hn)
    exact ⟨(cs, n), by rw [hl]; simp, rfl⟩
  have hdir : ∀ {cs}, (k.get cs).any (·.dir) → IsDir k.get cs :=
    fun hcs => (Option.any_eq_true _ _).1 hcs
  refine ⟨hkeys, fun cs c hc => ?_, hdir hroot, fun hcs => ?_, fun hcs => ?_, fun hn => ?_⟩
  · obtain ⟨x, hx, hxc⟩ := hmem hc
    have := (h x hx).1
    rw [hxc, List.dropLast_concat] at this
    exact hdir (this (by simp))
  · obtain ⟨x, hx, rfl⟩ := hmem hcs
    exact (h x hx).2.1
  · obtain ⟨x, hx, rfl⟩ := hmem hcs
    exact (h x hx).2.2
  · rw [hn] at htop
    exact htop

theorem Tended.prune (h : Tended k) (hne : cs ≠ []) : Tended (k.prune cs) where
  keys := h.keys.sublist (List.filter_sublist.map _)
  closed := get_prune k cs ▸ h.closed.cut cs
  root := by
    obtain ⟨n, hn, hd⟩ := h.root
    refine ⟨n, ?_, hd⟩
    rw [get_prune, Dirs.cut_other (by simpa using hne), hn]
  names hq := h.names (Dirs.cut_ne_none (get_prune k cs ▸ hq)).2
  short hq := h.short (Dirs.cut_ne_none (get_prune k cs ▸ hq)).2
  top hn := by
    rw [get_prune] at hn
    have hcut : Dirs.cut k.get cs [lit "e"] ≠ none := by simp [hn]
    rw [Dirs.cut_other (Dirs.cut_ne_none hcut).1] at hn
    exact h.top hn

theorem Tended.grown (h : Tended k) {c : CStr} {dir : Bool} (hnone : k.get (cs ++ [c]) = none)
    (hdir : IsDir k.get cs) (hc : Component c ∧ Ordinary c)
    (hlen : (pathOf (cs ++ [c])).length < pathMax) (htop : cs = [] → dir = true) :
    Tended (grown k (cs ++ [c]) dir) := by
  have hget := get_grown dir hnone
  have hcases : ∀ {q}, (Plot.grown k (cs ++ [c]) dir).get q ≠ none →
    q = cs ++ [c] ∨ k.get q ≠ none := by
    intro q hq
    by_cases hqc : q = cs ++ [c]
    · exact .inl hqc
    · exact .inr (by rwa [hget, Dirs.add_other _ hqc] at hq)
  constructor
  · have hnot : cs ++ [c] ∉ k.tree.map (·.1) := by
      intro hmem
      obtain ⟨x, hx, hxc⟩ := List.mem_map.1 hmem
      exact lookup_ne_none hx (hxc ▸ hnone)
    rw [Plot.grown, List.map_append, List.nodup_append]
    refine ⟨h.keys, by simp, ?_⟩
    intro a ha b hb hab
    rw [List.map_singleton, List.mem_singleton] at hb
    rw [hab, hb] at ha
    exact hnot ha
  · rw [hget]
    exact h.closed.add hdir hnone _
  · obtain ⟨n, hn, hd⟩ := h.root
    exact ⟨n, by rw [hget, Dirs.add_other _ (by simp), hn], hd⟩
  · intro q hq
    rcases hcases hq with rfl | hq
    · intro c' hc'
      rcases List.mem_append.1 hc' with hc' | hc'
      · exact h.names hdir.ne_none c' hc'
      · rwa [List.mem_singleton.1 hc']
    · exact h.names hq
  · intro q hq
    rcases hcases hq with rfl | hq
    · exact hlen
    · exact h.short hq
  · intro n hn
    rw [hget] at hn
    by_cases hce : [lit "e"] = cs ++ [c]
    · obtain rfl : cs = [] :=
        (List.append_inj' (show [] ++ [lit "e"] = cs ++ [c] from hce) rfl).1.symm
      rw [hce, Dirs.add_self] at hn
      rw [← Option.some.inj hn]
      exact htop rfl
    · rw [Dirs.add_other _ hce] at hn
      exact h.top hn

theorem grow_some (dir : Bool) (h : k.get cs ≠ none) : (k.grow cs dir).2 = k := by
  rw [Sandbox.Plot.grow, if_pos (Option.isSome_iff_ne_none.2 h)]

theorem grow_none {c : CStr} (dir : Bool) (h : k.get (cs ++ [c]) = none) (hd : IsDir k.get cs) :
    (k.grow (cs ++ [c]) dir).2 = grown k (cs ++ [c]) dir := by
  obtain ⟨n, hn, hdir⟩ := hd
  have hparent : ¬ (cs ++ [c] = [] ∨ !(k.get (cs ++ [c]).dropLast).any (·.dir)) := by
    simp [hn, hdir]
  rw [Sandbox.Plot.grow, if_neg (by simp [h]), if_neg hparent]
  rfl

/-- The tree below `/e`. -/
def view (k : Plot) : MirrorTree := fun cs => k.get (lit "e" :: cs)

theorem view_prune (k : Plot) (cs : List CStr) :
    view (k.prune (lit "e" :: cs)) = (view k).cut cs := by
  funext q
  have hpre : lit "e" :: cs <+: lit "e" :: q ↔ cs <+: q := by simp
  rw [view, get_prune, Dirs.cut, Dirs.cut]
  simp only [hpre]
  rfl

theorem view_grown (dir : Bool) (h : view k cs = none) :
    view (grown k (lit "e" :: cs) dir) =
      (view k).add cs ⟨dir, (1, UInt64.ofNat (1000 + k.made % 1000))⟩ := by
  funext q
  rw [view, get_grown dir h, Dirs.add, Dirs.add]
  simp only [List.cons.injEq, true_and]
  rfl

theorem Tended.component (h : Tended k) (hcs : view k cs ≠ none) : ∀ c ∈ cs, Component c :=
  fun c hc => (h.names hcs c (List.mem_cons_of_mem _ hc)).1

/-- What is there is found under its path. -/
theorem Tended.find (h : Tended k) {n : Node (ULong × ULong)} (hn : view k cs = some n) :
    k.find (within plotDir cs) = .ok (Sandbox.Plot.statOf n) := by
  have hcs : view k cs ≠ none := by simp [hn]
  have hlast : ∀ c, (lit "e" :: cs).getLast? = some c → Ordinary c :=
    fun c hc => (h.names hcs c (List.mem_of_getLast? hc)).2
  have hdots : ¬ ((lit "e" :: cs).getLast? = some (lit ".") ∨
      (lit "e" :: cs).getLast? = some (lit "..")) := by
    rintro (hd | hd)
    · exact hlast _ hd (.inl rfl)
    · exact hlast _ hd (.inr rfl)
  rw [Sandbox.Plot.find, parts_within (h.component hcs), if_neg hdots]
  rw [view] at hn
  rw [hn]

/-- The entries that a directory lists beside `.` and `..`. -/
def kids (k : Plot) (cs : List CStr) : List Dirent :=
  k.tree.filterMap fun y => if y.1.dropLast = cs then
    y.1.getLast?.map fun c => { name := c, isDir := y.2.dir } else none

theorem mem_kids (x : Dirent) :
    x ∈ kids k cs ↔ ∃ y ∈ k.tree, y.1 = cs ++ [x.name] ∧ x.isDir = y.2.dir := by
  rw [kids, List.mem_filterMap]
  refine exists_congr fun y => and_congr_right fun _ => ?_
  constructor
  · intro hy
    split at hy
    · rename_i hd
      obtain ⟨c, hc, rfl⟩ := Option.map_eq_some_iff.1 hy
      refine ⟨?_, rfl⟩
      obtain ⟨ys, hys⟩ := List.getLast?_eq_some_iff.1 hc
      rw [hys, List.dropLast_concat] at hd
      rw [hys, hd]
    · cases hy
  · rintro ⟨hy, hdir⟩
    rw [if_pos (by rw [hy, List.dropLast_concat]), hy, List.getLast?_concat, ← hdir]
    rfl

/-- Nothing is listed twice. -/
theorem Tended.kids_nodup (h : Tended k) (cs : List CStr) : ((kids k cs).map (·.name)).Nodup := by
  have hkeys : (((kids k cs).map (·.name)).map fun c => cs ++ [c]).Sublist (k.tree.map (·.1)) := by
    rw [List.map_map]
    unfold kids
    generalize k.tree = l
    induction l with
    | nil => exact List.Sublist.slnil
    | cons y l ih =>
      by_cases hd : y.1.dropLast = cs
      · cases hlast : y.1.getLast? with
        | none =>
          rw [List.filterMap_cons_none (by rw [if_pos hd, hlast]; rfl)]
          exact ih.cons _
        | some c =>
          rw [List.filterMap_cons_some (b := { name := c, isDir := y.2.dir })
            (by rw [if_pos hd, hlast]; rfl)]
          obtain ⟨ys, hys⟩ := List.getLast?_eq_some_iff.1 hlast
          have hy : y.1 = cs ++ [c] := by
            rw [hys, List.dropLast_concat] at hd
            rw [hys, hd]
          simp only [List.map_cons, Function.comp_apply, ← hy]
          exact ih.cons_cons _
      · rw [List.filterMap_cons_none (by rw [if_neg hd])]
        exact ih.cons _
  exact (h.keys.sublist hkeys).of_map _

theorem Tended.get_of_mem (h : Tended k) {y : List CStr × Node (ULong × ULong)} (hy : y ∈ k.tree) :
    k.get y.1 = some y.2 := by
  obtain ⟨l₁, l₂, hl⟩ := List.append_of_mem hy
  refine List.lookup_eq_some_iff.2 ⟨l₁, l₂, hl, fun p hp => ?_⟩
  have hkeys := h.keys
  rw [hl, List.map_append, List.map_cons, List.nodup_append] at hkeys
  exact bne_iff_ne.2 fun hne => hkeys.2.2 p.1 (List.mem_map_of_mem hp) y.1 (by simp) hne.symm

/-- What a directory below `/e` lists. -/
theorem Tended.list (h : Tended k) (hd : IsDir (view k) cs) : k.list (within plotDir cs) =
    .ok ([{ name := lit ".", isDir := true }, { name := lit "..", isDir := true }] ++
      kids k (lit "e" :: cs)) := by
  obtain ⟨n, hn, hdir⟩ := hd
  have hcs : ∀ c ∈ cs, Component c := h.component (by simp [hn])
  rw [view] at hn
  rw [Sandbox.Plot.list, parts_within hcs, hn]
  simp only [hdir, ↓reduceIte]
  rfl

theorem Tended.lists (h : Tended k) (hd : IsDir (view k) cs) :
    ∃ es, k.list (within plotDir cs) = .ok es ∧ (es.map (·.name)).Nodup ∧
      (∀ c, view k (cs ++ [c]) ≠ none → ∃ x ∈ es, x.name = c) ∧
      ∀ x ∈ es, Ordinary x.name → ∃ n, view k (cs ++ [x.name]) = some n ∧ x.isDir = n.dir := by
  have hkids : ∀ x ∈ kids k (lit "e" :: cs),
      ∃ n, view k (cs ++ [x.name]) = some n ∧ x.isDir = n.dir := by
    intro x hx
    obtain ⟨y, hy, hkey, hdir⟩ := (mem_kids x).1 hx
    exact ⟨y.2, by rw [view, ← List.cons_append, ← hkey, h.get_of_mem hy], hdir⟩
  have hord : ∀ x ∈ kids k (lit "e" :: cs), Ordinary x.name := by
    intro x hx
    obtain ⟨n, hn, _⟩ := hkids x hx
    have hne : k.get (lit "e" :: (cs ++ [x.name])) ≠ none := by
      rw [view] at hn
      simp [hn]
    exact (h.names hne x.name (by simp)).2
  refine ⟨_, h.list hd, ?_, fun c hc => ?_, fun x hx hxo => ?_⟩
  · rw [List.map_append, List.nodup_append]
    refine ⟨by decide, h.kids_nodup _, ?_⟩
    rintro a ha b hb rfl
    obtain ⟨x, hx, rfl⟩ := List.mem_map.1 hb
    exact hord x hx (by simpa using ha)
  · obtain ⟨n, hn⟩ := Option.ne_none_iff_exists'.1 hc
    obtain ⟨l₁, l₂, hl, _⟩ := List.lookup_eq_some_iff.1 (show k.tree.lookup _ = some n from hn)
    refine ⟨{ name := c, isDir := n.dir }, List.mem_append_right _ ((mem_kids _).2 ?_), rfl⟩
    exact ⟨(lit "e" :: (cs ++ [c]), n), by rw [hl]; simp, by simp, rfl⟩
  · rcases List.mem_append.1 hx with hx | hx
    · refine absurd ?_ hxo
      rcases List.mem_cons.1 hx with rfl | hx
      · exact .inl rfl
      · rw [List.mem_singleton.1 hx]
        exact .inr rfl
    · exact hkids x hx

/-- The directory is empty. -/
theorem Tended.isBare (h : Tended k) (hb : Bare (view k) cs) : k.isBare (lit "e" :: cs) = true := by
  rw [Sandbox.Plot.isBare, List.all_eq_true]
  intro y hy
  simp only [Bool.not_eq_true', decide_eq_false_iff_not, not_and]
  intro hne hd
  obtain ⟨ys, c, hyc⟩ := (List.eq_nil_or_concat' y.1).resolve_left hne
  rw [hyc, List.dropLast_concat] at hd
  have hget := h.get_of_mem hy
  rw [hyc, hd] at hget
  have := hb.2 c
  rw [view, ← List.cons_append, hget] at this
  cases this

/-- What is made in `/e` is an entry of it. -/
theorem Tended.gains (h : Tended k) (hd : IsDir (view k) []) {c : CStr} (hc : Named plotDir c)
    (dir : Bool) : Tended (k.grow [lit "e", c] dir).2 ∧
      Gains (view k) c dir (view (k.grow [lit "e", c] dir).2) := by
  by_cases hnone : view k [c] = none
  · have hgrow : (k.grow ([lit "e"] ++ [c]) dir).2 = Plot.grown k ([lit "e"] ++ [c]) dir :=
      grow_none dir hnone hd
    have hlen : (pathOf ([lit "e"] ++ [c])).length < pathMax := by
      have hpath := hc.path
      have hm : plotDir.length = 2 := rfl
      have hcut : (pathOf ([lit "e"] ++ [c])).length = plotDir.length + (c.length + 1) := by
        rw [pathOf_snoc, List.append_assoc, List.length_append, List.length_append,
          Nat.add_comm c.length]
        rfl
      rw [hcut, pathMax]
      rw [maxPathLen] at hpath
      omega
    refine ⟨?_, .inr ⟨hnone, (1, UInt64.ofNat (1000 + k.made % 1000)), ?_⟩⟩
    · rw [show [lit "e", c] = [lit "e"] ++ [c] from rfl, hgrow]
      exact h.grown hnone hd ⟨hc.component, hc.ordinary⟩ hlen (by simp)
    · rw [show [lit "e", c] = [lit "e"] ++ [c] from rfl, hgrow]
      show view (Plot.grown k (lit "e" :: [c]) dir) = _
      exact view_grown dir hnone
  · rw [grow_some dir hnone]
    exact ⟨h, .inl ⟨hnone, rfl⟩⟩

theorem Tended.remove_step (h : Tended k) {n : Node (ULong × ULong)} (hn : view k cs = some n)
    (hd : n.dir = false) :
    (Sandbox.Plot.sysCall (.remove (within plotDir cs)) k).2 = k.prune (lit "e" :: cs) := by
  have hcs : ∀ c ∈ cs, Component c := h.component (by simp [hn])
  rw [view] at hn
  simp [Sandbox.Plot.sysCall, parts_within hcs, hn, hd]

theorem removeNone_step (hcs : ∀ c ∈ cs, Component c) (hnone : view k cs = none) :
    (Sandbox.Plot.sysCall (.remove (within plotDir cs)) k).2 = k := by
  rw [view] at hnone
  simp [Sandbox.Plot.sysCall, parts_within hcs, hnone]

theorem Tended.rmdir_step (h : Tended k) (hb : Bare (view k) cs) :
    (Sandbox.Plot.sysCall (.rmdir (within plotDir cs)) k).2 = k.prune (lit "e" :: cs) := by
  obtain ⟨n, hn, hd⟩ := hb.1
  have hcs : ∀ c ∈ cs, Component c := h.component (by simp [hn])
  have hbare := h.isBare hb
  rw [view] at hn
  simp [Sandbox.Plot.sysCall, parts_within hcs, hn, hd, hbare]

end Plot

open Plot (Tended view)

/-- The small worlds keep the mirror of `/e`. -/
theorem plotWorld_mirror (down : Bool) : Mirror (plotWorld down) plotDir Tended view where
  closed h cs c hc := by
    obtain ⟨n, hn, hd⟩ := h.closed (lit "e" :: cs) c hc
    exact ⟨n, hn, hd⟩
  dir h hn := h.top hn
  names h hc := h.names hc _ (by simp)
  short h hcs := h.short hcs
  lists h hd := h.lists hd
  lstat h hn := ⟨_, h.find hn, rfl⟩
  dots {k c} h hd hc := by
    have hcomp : Component c := by
      rcases not_not.1 hc with rfl | rfl <;> decide
    obtain ⟨n, hn, _⟩ := hd
    refine ⟨Sandbox.Plot.statOf n, ?_⟩
    have hlast : [lit "e", c].getLast? = some (lit ".") ∨
      [lit "e", c].getLast? = some (lit "..") := by
      rcases not_not.1 hc with rfl | rfl
      · exact .inl rfl
      · exact .inr rfl
    show k.find _ = _
    rw [Sandbox.Plot.find, parts_within (by simpa using hcomp), if_pos hlast]
    rw [view] at hn
    simp [hn]
  unlisted {k cs} h hcs hnone := by
    refine ⟨.enoent, ?_⟩
    show k.list _ = _
    rw [view] at hnone
    rw [Sandbox.Plot.list, parts_within hcs, hnone]
  remove {k cs n} h hn hd := by
    have hstep := h.remove_step hn hd
    exact ⟨(congrArg Tended hstep).mpr (h.prune (by simp)),
      (congrArg view hstep).trans (Plot.view_prune k cs)⟩
  removeNone {k cs} h hcs hnone := by
    have hstep := Plot.removeNone_step hcs hnone
    exact ⟨(congrArg Tended hstep).mpr h, congrArg view hstep⟩
  rmdir {k cs} h hb := by
    have hstep := h.rmdir_step hb
    exact ⟨(congrArg Tended hstep).mpr (h.prune (by simp)),
      (congrArg view hstep).trans (Plot.view_prune k cs)⟩
  stat {k} h hnone := by
    show k.find plotDir = _
    rw [view] at hnone
    have hparts : parts plotDir = [lit "e"] := by decide
    have hlast :
      ¬ ([lit "e"].getLast? = some (lit ".") ∨ [lit "e"].getLast? = some (lit "..")) := by
      decide
    rw [Sandbox.Plot.find, hparts, if_neg hlast, hnone]
  above {k a p b} h hcut hb := by
    have hcuts : cuts plotDir = [plotDir] := by decide
    rw [hcuts] at hcut
    have hlen := congrArg List.length hcut
    have hpos := List.length_pos_of_ne_nil hb
    simp at hlen
    omega
  make {k} h hnone _ := by
    have hparts : parts plotDir = [] ++ [lit "e"] := by decide
    have hstep : (Sandbox.Plot.sysCall (.mkdir plotDir 0o700) k).2 =
      Plot.grown k ([] ++ [lit "e"]) true := by
      rw [Sandbox.Plot.sysCall, hparts]
      exact Plot.grow_none true hnone h.root
    refine ⟨(congrArg Tended hstep).mpr (h.grown hnone h.root ⟨component_e, by decide⟩ (by decide)
      fun _ => rfl), _, (congrArg view hstep).trans (Plot.view_grown true hnone)⟩
  mkdir {k c} h hd hc := by
    have hparts : parts (within plotDir [c]) = [lit "e", c] :=
      parts_within (by simpa using hc.component)
    have hstep : Sandbox.Plot.sysCall (.mkdir (within plotDir [c]) 0o700) k =
      k.grow [lit "e", c] true := by
      rw [Sandbox.Plot.sysCall, hparts]
    show Tended (Sandbox.Plot.sysCall _ k).2 ∧ Gains _ c true (view (Sandbox.Plot.sysCall _ k).2)
    rw [hstep]
    exact h.gains hd hc true
  echo {k c} h hd hc _ := by
    have hparts : parts (within plotDir [c]) = [lit "e", c] :=
      parts_within (by simpa using hc.component)
    have hstep : Sandbox.Plot.sysCall (.system (echoCommand (within plotDir [c]))) k =
        k.grow [lit "e", c] false := by
      rw [Sandbox.Plot.sysCall, echoCommand, if_pos (by simp), ← hparts]
      rfl
    show Tended (Sandbox.Plot.sysCall _ k).2 ∧ Gains _ c false (view (Sandbox.Plot.sysCall _ k).2)
    rw [hstep]
    exact h.gains hd hc false
  chmod {k c n} d h _ _ := by
    have hnot : (lit "echo \" \" > ").isPrefixOf (chmodCommand d (within plotDir [c])) = false := by
      unfold chmodCommand
      split_ifs <;> rfl
    have hstep : (Sandbox.Plot.sysCall (.system (chmodCommand d (within plotDir [c]))) k).2 =
      k := by
      rw [Sandbox.Plot.sysCall, if_neg (by simp [hnot])]
    exact ⟨(congrArg Tended hstep).mpr h, congrArg view hstep⟩

/-- The small worlds remove `/e` as POSIX says, and keep what is beside it. -/
theorem plotWorld_removes (down : Bool) :
    Removes (plotWorld down) plotDir [lit "e"] Tended Sandbox.Plot.get where
  closed h := h.closed
  names {k cs c} h hc := h.names hc _ (by simp)
  short h hcs := h.short hcs
  lists h hd := h.lists hd
  remove {k cs n} h hn hd := by
    have hstep := h.remove_step hn hd
    exact ⟨(congrArg Tended hstep).mpr (h.prune (by simp)),
      (congrArg Sandbox.Plot.get hstep).trans (Plot.get_prune k _)⟩
  removeNone {k cs} h hcs hnone := by
    have hstep := Plot.removeNone_step hcs hnone
    exact ⟨(congrArg Tended hstep).mpr h, congrArg Sandbox.Plot.get hstep⟩
  rmdir {k cs} h hb := by
    have hstep := h.rmdir_step hb
    exact ⟨(congrArg Tended hstep).mpr (h.prune (by simp)),
      (congrArg Sandbox.Plot.get hstep).trans (Plot.get_prune k _)⟩

/-- The directories `/e` and `/e/a`, a file `/e/a/f`, a link `/e/l`, and a file `/g` beside them. -/
def littered : Plot where
  tree := [([], ⟨true, (1, 2)⟩), ([lit "e"], ⟨true, (1, 3)⟩), ([lit "e", lit "a"], ⟨true, (1, 4)⟩),
    ([lit "e", lit "a", lit "f"], ⟨false, (1, 5)⟩), ([lit "e", lit "l"], ⟨false, (1, 6)⟩),
    ([lit "g"], ⟨false, (1, 7)⟩)]

/-- `/e` is removed with its link, and `/g` is left. -/
theorem littered_removed : ∃ s', removedirectoryrecursively (plotWorld false) pathMax plotDir
      (Sandbox.plotServer [] littered {} {}) = (.ok (), s') ∧
    s'.kernel.get [lit "e", lit "l"] = none ∧ s'.kernel.get [lit "g"] = some ⟨false, (1, 7)⟩ := by
  have htended : Tended littered :=
    .of_tree (by decide +kernel) (by decide +kernel) (by decide +kernel) (by decide +kernel)
  obtain ⟨s', h, -, hgone, hkept, -⟩ := removedirectoryrecursively_removes
    (plotWorld_removes false) (Sandbox.plotServer [] littered {} {}) htended ⟨_, rfl, rfl⟩
  exact ⟨s', h, hgone _ (by decide), (hkept _ (by decide)).trans rfl⟩

theorem mem_ownChildren {g : Sandbox.Grid} {c : CStr} {x : CollEnt}
    (h : x ∈ Sandbox.ownChildren g c) : EntryOf (plotWorld false) g c x := by
  obtain ⟨y, hy, hx⟩ := List.mem_filterMap.1 h
  dsimp only at hx
  split at hx
  · rename_i hc
    obtain ⟨hpre, hne, hs⟩ := hc
    have hcomp : Component (y.1.drop (c.length + 1)) := ⟨hne, hs⟩
    have hcut : y.1 = c ++ root ++ y.1.drop (c.length + 1) := by
      obtain ⟨t, ht⟩ := List.isPrefixOf_iff_prefix.1 hpre
      rw [← ht]
      simp [root]
    split at hx
    · rename_i hl
      rw [← Option.some.inj hx, hcut]
      exact .coll hcomp (hcut ▸ hl)
    · rename_i hl
      rw [← Option.some.inj hx]
      exact .data hcomp (hcut ▸ hl)
    · cases hx
  · cases hx

theorem ownChildren_complete {g : Sandbox.Grid} {c n : CStr} {o : RodsObj} (hn : Component n)
    (h : g.objs.lookup (c ++ root ++ n) = some o) :
    ∃ x ∈ Sandbox.ownChildren g c, x.entry c = some n := by
  obtain ⟨l₁, l₂, hl, _⟩ := List.lookup_eq_some_iff.1 h
  have hmem : (c ++ root ++ n, o) ∈ g.objs := by rw [hl]; simp
  have hdrop : (c ++ root ++ n).drop (c.length + 1) = n := by simp [root]
  have hpre : (c ++ root).isPrefixOf (c ++ root ++ n) = true := by
    rw [List.isPrefixOf_iff_prefix]
    exact List.prefix_append _ _
  have hname : n ≠ [] ∧ slash ∉ n := ⟨hn.nonempty, hn.slashless⟩
  cases o with
  | coll =>
    refine ⟨.coll (c ++ root ++ n), List.mem_filterMap.2 ⟨_, hmem, ?_⟩, ?_⟩
    · simp only [hdrop, hpre, true_and, h, if_pos hname]
    · rw [CollEnt.entry, if_neg (by simp [root]), basename_child c hn]
  | data b =>
    refine ⟨.dataObj (some n), List.mem_filterMap.2 ⟨_, hmem, ?_⟩, rfl⟩
    simp only [hdrop, hpre, true_and, h, if_pos hname]

/-- The iRODS server of the small worlds lists its collections. -/
theorem plotWorld_collections (down : Bool) :
    Collections (plotWorld down) fun g _ _ => (g.cursor, catNoRowsFound) where
  next {g comm h x xs st} hl := by
    obtain ⟨hcur, rfl⟩ := Prod.mk.inj hl
    have hstep : (plotWorld down).rods (.rcReadCollection comm h) g =
        ({ status := 0, ent := some x }, { g with cursor := xs }) := by
      show Sandbox.listCall down (.rcReadCollection comm h) g = _
      simp only [Sandbox.listCall, Sandbox.rodsCall, hcur]
    rw [hstep]
    exact ⟨le_refl _, rfl, rfl⟩
  done {g comm h st} hl := by
    obtain ⟨hcur, rfl⟩ := Prod.mk.inj hl
    have hstep : (plotWorld down).rods (.rcReadCollection comm h) g =
      ({ status := -808000 }, g) := by
      show Sandbox.listCall down (.rcReadCollection comm h) g = _
      simp only [Sandbox.listCall, Sandbox.rodsCall, hcur]
    rw [hstep]
    exact ⟨rfl, by decide⟩
  query _ _ := rfl
  sound {g x} comm c hx := by
    cases down with
    | true => cases hx
    | false => exact mem_ownChildren hx
  bounded {g} comm c := by
    cases down with
    | true => exact Nat.zero_le _
    | false => exact List.length_filterMap_le _ _
  complete {g n o} comm c hopen _ hn ho := by
    cases down with
    | true => exact absurd hopen (by show ¬ (0 : Int) ≤ -305000; decide)
    | false => exact ownChildren_complete hn ho

end NfsRods
