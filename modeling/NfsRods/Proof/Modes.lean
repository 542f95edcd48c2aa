import NfsRods.Proof.AccessQuery
import NfsRods.Proof.Handles

/-!
# The modes READDIR gives

READDIR gives the mirror file of each data object the mode that belongs to what `fileMode` returned
for the object.

* `listInto_modes`: the command lines of the loop, two for each data object, unless the daemon stops
  between those of one (`CutOff`).
-/

namespace NfsRods

open CStr
open Prog (Frame Reaches)

/-! ## Command lines -/

/-- The lines of the data object `p.1`, with the mode for the access type `p.2`. -/
def entryLines (folder : CStr) (p : CStr × Int) : List (Option CStr × CStr) :=
  [(some p.1, echoCommand (folder ++ root ++ p.1)),
    (some p.1, chmodCommand p.2 (folder ++ root ++ p.1))]

theorem Silent.of_calm {e : Event} (h : e.calm = true) : Silent e := by
  constructor
  · rintro c rfl
    cases h
  · rintro c rfl
    simpa [Event.calm, Event.mutates] using h

theorem commandLines_append {u : List Event} {l : List (Option CStr × CStr)}
    (h : ∀ o, commandLines o u = l) (o : Option CStr) (t : List Event) :
    commandLines o (t ++ u) = commandLines o t ++ l := by
  fun_induction commandLines o t with
  | case1 o => exact h o
  | case2 o name t ih => exact ih
  | case3 o c t ih => rw [List.cons_append, commandLines, ih, List.cons_append]
  | case4 o ev t hl hs ih =>
    rw [List.cons_append, commandLines, ih]
    · exact hl
    · exact hs

theorem commandLines_only_asides {o : Option CStr} {t : List Event}
    (h : ∀ ev ∈ t, ev.aside = true) : commandLines o t = [] := by
  have ht := commandLines_asides (o := o) (t := []) h
  rwa [List.append_nil] at ht

theorem commandLines_silent {t : List Event} (h : ∀ e ∈ t, Silent e) (o : Option CStr) :
    commandLines o t = [] := by
  fun_induction commandLines o t with
  | case1 o => rfl
  | case2 o name t ih => exact ih fun e he => h e (List.mem_cons_of_mem _ he)
  | case3 o c t ih => exact absurd rfl ((h _ List.mem_cons_self).1 c)
  | case4 o ev t hl hs ih => exact ih fun e he => h e (List.mem_cons_of_mem _ he)

section
variable {L R : Type} {w : World L R} {s s' s'' : Server L R}

/-- The command lines between `s` and `s'`. -/
def Lines (l : List (Option CStr × CStr)) (s s' : Server L R) : Prop :=
  ∃ t, s'.trace = s.trace ++ t ∧ ∀ o, commandLines o t = l

theorem Lines.trans {l l' : List (Option CStr × CStr)} (h : Lines l s s') (h' : Lines l' s' s'') :
    Lines (l ++ l') s s'' := by
  obtain ⟨t, ht, hl⟩ := h
  obtain ⟨t', ht', hl'⟩ := h'
  refine ⟨t ++ t', by rw [ht', ht, List.append_assoc], fun o => ?_⟩
  rw [commandLines_append hl', hl]

theorem Ran.lines (h : Ran w Silent s s') : Lines [] s s' := by
  obtain ⟨t, ht, hq, _⟩ := h
  exact ⟨t, ht, commandLines_silent hq⟩

theorem Lines.since {l : List (Option CStr × CStr)} (h : Lines l s s') :
    commandLines none (since s s') = l := by
  obtain ⟨t, ht, hl⟩ := h
  rw [since_eq ht, hl]

/-! ## The loop of `listCollection` -/

variable {left : R → Comm → Int → List CollEnt × Int} {comm : Comm} {c m : CStr} {r : R}
  {P : CStr → Int → Prop} {Q : CStr → Prop}

/-- What has become of the entries: the command lines for their data objects, each with an access
type that `P` holds of. -/
structure Moded (m : CStr) (P : CStr → Int → Prop) (names : List CStr) (s s' : Server L R) :
    Prop where
  lines : ∃ ps : List (CStr × Int), ps.map Prod.fst = names ∧ (∀ p ∈ ps, P p.1 p.2) ∧
    Lines (ps.flatMap (entryLines m)) s s'

theorem Moded.trans {ns ns' : List CStr} (h : Moded m P ns s s') (h' : Moded m P ns' s' s'') :
    Moded m P (ns ++ ns') s s'' := by
  obtain ⟨ps, hps, hP, hl⟩ := h.lines
  obtain ⟨ps', hps', hP', hl'⟩ := h'.lines
  refine ⟨ps ++ ps', by rw [List.map_append, hps, hps'], fun p hp => ?_, ?_⟩
  · exact (List.mem_append.1 hp).elim (hP p) (hP' p)
  · rw [List.flatMap_append]
    exact hl.trans hl'

theorem Ran.moded (h : Ran w Silent s s') : Moded m P [] s s' :=
  ⟨[], rfl, by simp, h.lines⟩

/-- The daemon has stopped between the two lines of a data object among `names`, of which `Q` holds.
-/
structure CutOff (m : CStr) (Q : CStr → Prop) (names : List CStr) (s s' : Server L R) : Prop where
  lines : ∃ n ∈ names, Q n ∧ ∃ ps : List (CStr × Int),
    Lines (ps.flatMap (entryLines m) ++ [(some n, echoCommand (m ++ root ++ n))]) s s'

theorem Moded.cutOff {ns ns' : List CStr} (h : Moded m P ns s s') (h' : CutOff m Q ns' s' s'') :
    CutOff m Q ns' s s'' := by
  obtain ⟨ps, -, -, hl⟩ := h.lines
  obtain ⟨n, hn, hQ, ps', hl'⟩ := h'.lines
  refine ⟨n, hn, hQ, ps ++ ps', ?_⟩
  rw [List.flatMap_append, List.append_assoc]
  exact hl.trans hl'

theorem CutOff.mono {ns ns' : List CStr} (h : CutOff m Q ns s s') (hsub : ns ⊆ ns') :
    CutOff m Q ns' s s' := by
  obtain ⟨n, hn, hrest⟩ := h.lines
  exact ⟨n, hsub hn, hrest⟩

/-- A data object gets its two lines, or the first of them. -/
theorem listEntry_data_moded (hc : Collections w left) {n : CStr} {s : Server L R}
    (hmode : ∀ s1, s1.rods = s.rods →
      Reaches (fun d _ => P n d) (fun _ _ => Q n) (fileMode w (c ++ root ++ n) comm) s1) :
    Reaches (fun go s' => go = true ∧ Moded m P [n] s s' ∧
      ∀ h, left s'.rods comm h = left s.rods comm h) (fun _ s' => CutOff m Q [n] s s')
      (listEntry w c m comm (some (.dataObj (some n)))) s := by
  obtain ⟨s1, x, s2, mid, hr1, hrun, hmid, hok, herror⟩ :=
    listEntry_dataObj_run (w := w) c m comm n s
  obtain ⟨y, hends, _⟩ := fileMode_ends w comm (c ++ root ++ n) s1
  obtain ⟨rfl, _, hr2⟩ := hends.run hrun
  rcases y with st | d
  · obtain ⟨s', h', _, ht⟩ := herror st rfl
    refine .of_error h' ⟨n, List.mem_singleton_self n, (hmode s1 hr1).error hrun, [], _, ht,
      fun o => ?_⟩
    simp only [commandLines, commandLines_only_asides hmid]
    rfl
  · obtain ⟨s', post, h', hr', hpost, ht⟩ := hok d rfl
    refine .of_ok h' ⟨rfl, ⟨[(n, d)], rfl, ?_, _, ht, fun o => ?_⟩, fun h => ?_⟩
    · simpa using (hmode s1 hr1).ok hrun
    · simp only [commandLines, commandLines_asides hmid, commandLines_only_asides hpost]
      rfl
    · rw [hr', hr2, queried_left hc, hr1]

/-- One entry of the loop. -/
theorem listEntry_moded (hc : Collections w left) {x : CollEnt} (hx : EntryOf w r c x)
    {s : Server L R} (hmode : ∀ n s1, s1.rods = s.rods →
      Reaches (fun d _ => P n d) (fun _ _ => Q n) (fileMode w (c ++ root ++ n) comm) s1) :
    Reaches (fun go s' => go = true ∧ Moded m P x.dataName.toList s s' ∧
      ∀ h, left s'.rods comm h = left s.rods comm h) (fun _ s' => CutOff m Q x.dataName.toList s s')
      (listEntry w c m comm (some x)) s := by
  cases hx with
  | data hn h => exact listEntry_data_moded hc (hmode _)
  | @coll n hn h =>
    obtain ⟨s1, s2, h1, t1, h2, hk2, -, hrun⟩ := listEntry_coll_run (w := w) c m comm n s
    have f1 : Ran w Silent s s1 := (debug_silent _).ok h1
    have f2 : Ran w Silent s1 s2 := (sys_frame (E := Silent) ⟨by simp, by simp⟩ :
      Frame (Ran w Silent) _).ok h2
    exact .of_ok hrun
      ⟨rfl, (trans_of (Ran w Silent) f1 f2).moded, fun h => by rw [hk2.rods, t1.rods]⟩
  | self =>
    rw [listEntry, if_pos rfl]
    exact .of_ok rfl ⟨rfl, (refl_of (Ran w Silent) s).moded, fun _ => rfl⟩

variable {I : R → Prop} (hI : ∀ cl r, cl.mutates = false → I r → I (w.rods cl r).2)

include hI

/-- An entry of the loop changes nothing in iRODS. -/
theorem listEntry_inv {x : Option CollEnt} {go : Bool} (h : listEntry w c m comm x s = (.ok go, s'))
    (hs : I s.rods) : I s'.rods := by
  have hf : Frame (Ran w fun e => ∀ cl, e = .rods cl → cl.mutates = false)
      (listEntry w c m comm x) := by
    refine listEntry_frame (E := fun e => ∀ cl, e = .rods cl → cl.mutates = false)
      (fun _ _ => by simp) (fun _ => by simp) (fun inp cl hcl => ?_) x
    obtain rfl := Event.rods.inj hcl
    rfl
  exact (hf.ok h).inv (fun cl hcl => hcl cl rfl) hI hs

/-- Every data object among the entries has its two lines. -/
theorem ListKeeps.modes (hc : Collections w left) (hmode : ∀ n s1, I s1.rods →
      Reaches (fun d _ => P n d) (fun _ _ => Q n) (fileMode w (c ++ root ++ n) comm) s1)
    {es : List CollEnt} (hes : ∀ x ∈ es, EntryOf w r c x) (s : Server L R) :
    ListKeeps w left c m comm es
      (fun done s' => I s'.rods ∧ Moded m P (done.filterMap (·.dataName)) s s')
      (CutOff m Q (es.filterMap (·.dataName)) s) where
  quiet := by
    rintro done s1 s2 ⟨h1, m1⟩ - q2
    refine ⟨q2.inv (fun cl hcl => hcl.2 cl rfl) hI h1, ?_⟩
    have hm := m1.trans (q2.moded (m := m) (P := P))
    rwa [List.append_nil] at hm
  entry := by
    rintro done x s1 hx ⟨h1, m1⟩
    have hentry := listEntry_moded hc (hes x hx) (m := m) (P := P) (Q := Q)
      fun n s' hs' => hmode n s' (by rwa [hs'])
    rcases hrun : listEntry w c m comm (some x) s1 with ⟨st | go, s2⟩
    · refine .of_error hrun ((m1.cutOff (hentry.error hrun)).mono fun n hn => ?_)
      exact List.mem_filterMap.2 ⟨x, hx, Option.mem_toList.1 hn⟩
    · obtain ⟨rfl, m2, l2⟩ := hentry.ok hrun
      refine .of_ok hrun ⟨rfl, ⟨listEntry_inv hI hrun h1, ?_⟩, l2⟩
      have hm := m1.trans m2
      cases hn : x.dataName <;> simpa [hn] using hm

/-- **The command lines of `listCollection`** in the directory it has made: two for each data object
that iRODS lists, if the daemon survives their questions. -/
theorem listInto_modes (hc : Collections w left) (hmode : ∀ n s1, I s1.rods →
      Reaches (fun d _ => P n d) (fun _ _ => Q n) (fileMode w (c ++ root ++ n) comm) s1)
    (hs : I s.rods) :
    Reaches (fun _ s' => Moded m P ((listed w left comm c s.rods).1.filterMap (·.dataName)) s s')
      (fun _ s' => CutOff m Q ((listed w left comm c s.rods).1.filterMap (·.dataName)) s s')
      (listInto w c m comm) s := by
  have hsound : ∀ x ∈ (listed w left comm c s.rods).1, EntryOf w s.rods c x :=
    fun x hx => hc.sound comm c hx
  have hkeeps := ListKeeps.modes (m := m) hI hc hmode hsound s
  have hinto := hkeeps.into hc ⟨hs, (refl_of (Ran w Silent) s).moded⟩
  exact hinto.mono (fun _ _ h => h.2) fun _ _ h => h

end

end NfsRods
