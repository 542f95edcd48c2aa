import NfsRods.Proof.Readdir
import NfsRods.Proof.Search

/-!
# Handles after READDIR

A handle names an object by its device and inode. READDIR removes the mirror of the directory with
all that is in it and makes it again, so that a file system that does not give the same inode number
twice has other objects there.

* `Retains`: what the calls that rebuild a mirror leave as it is.
* `readdir_handle_iff`: a handle is resolved to the same path after READDIR, exactly when it is that
  of a removable export point or the path is not in the mirror.
-/

namespace NfsRods

open CStr
open Prog (Ends Frame)
open Dirs (IsDir Bare)
open Sandbox (Plot plotWorld)
open Sandbox.Plot (split parts)

section
variable {L R : Type}

/-- The calls that rebuild the mirror `m` keep `J`. -/
structure Retains (w : World L R) (m : CStr) (own : L → Prop) (view : L → MirrorTree)
    (J : L → Prop) : Prop where
  remove : ∀ {k cs}, own k → J k → (∀ c ∈ cs, Component c) → J (w.sys (.remove (within m cs)) k).2
  rmdir : ∀ {k cs}, own k → J k → Bare (view k) cs → J (w.sys (.rmdir (within m cs)) k).2
  make : ∀ {k p}, own k → J k → p ∈ cuts m → J (w.sys (.mkdir p 0o700) k).2
  mkdir : ∀ {k c}, own k → J k → Named m c → J (w.sys (.mkdir (within m [c]) 0o700) k).2
  echo : ∀ {k c}, own k → J k → Named m c → Shell.PlainTarget (within m [c]) →
    J (w.sys (.system (echoCommand (within m [c]))) k).2
  chmod : ∀ {k c} (d : Int), own k → J k → Shell.PlainArg (within m [c]) →
    J (w.sys (.system (chmodCommand d (within m [c]))) k).2

/-- Nothing in the mirror has the identity `i`. -/
def Lost (view : L → MirrorTree) (i : ULong × ULong) (k : L) : Prop :=
  ∀ cs n, view k cs = some n → n.id ≠ i

/-- `p` is the mirror `m`, or a path in it. -/
def InMirror (m p : CStr) : Prop := ∃ cs, Plain cs ∧ p = within m cs

/-- The handle cache has the path of the handle. -/
def Cached (s : Server L R) (obj : Unfs3Fh) (p : CStr) : Prop :=
  ∃ i, s.fh.index obj.dev obj.ino = some i ∧ (s.fh.entry i).path = p

end

section
variable {L R : Type} {w : World L R} {m : CStr} {own J : L → Prop} {view : L → MirrorTree}
  {left : R → Comm → Int → List CollEnt × Int}

/-- What the calls keep may be asked of the owner. -/
theorem Mirror.keeps (hm : Mirror w m own view) (hj : Retains w m own view J) :
    Mirror w m (fun k => own k ∧ J k) view where
  closed ho := hm.closed ho.1
  dir ho := hm.dir ho.1
  names ho := hm.names ho.1
  short ho := hm.short ho.1
  lists ho := hm.lists ho.1
  lstat ho := hm.lstat ho.1
  dots ho := hm.dots ho.1
  unlisted ho := hm.unlisted ho.1
  remove ho hn hd := by
    obtain ⟨ho', hv⟩ := hm.remove ho.1 hn hd
    exact ⟨⟨ho', hj.remove ho.1 ho.2 (hm.removes.component ho.1 (by simp [hn]))⟩, hv⟩
  removeNone ho hcs hn := by
    obtain ⟨ho', hv⟩ := hm.removeNone ho.1 hcs hn
    exact ⟨⟨ho', hj.remove ho.1 ho.2 hcs⟩, hv⟩
  rmdir ho hb := by
    obtain ⟨ho', hv⟩ := hm.rmdir ho.1 hb
    exact ⟨⟨ho', hj.rmdir ho.1 ho.2 hb⟩, hv⟩
  stat ho := hm.stat ho.1
  above ho hcut hb hst := by
    obtain ⟨⟨ho', hv⟩, hst'⟩ := hm.above ho.1 hcut hb hst
    exact ⟨⟨⟨ho', hj.make ho.1 ho.2 (by rw [hcut]; simp)⟩, hv⟩, hst'⟩
  make ho hn hst := by
    obtain ⟨ho', hv⟩ := hm.make ho.1 hn hst
    have hmem : m ∈ cuts m := by
      have := List.getLast_mem (cuts_ne_nil m)
      rwa [cuts_getLast] at this
    exact ⟨⟨ho', hj.make ho.1 ho.2 hmem⟩, hv⟩
  mkdir ho hd hn := by
    obtain ⟨ho', hv⟩ := hm.mkdir ho.1 hd hn
    exact ⟨⟨ho', hj.mkdir ho.1 ho.2 hn⟩, hv⟩
  echo ho hd hn hp := by
    obtain ⟨ho', hv⟩ := hm.echo ho.1 hd hn hp
    exact ⟨⟨ho', hj.echo ho.1 ho.2 hn hp⟩, hv⟩
  chmod d ho hn hp := by
    obtain ⟨ho', hv⟩ := hm.chmod d ho.1 hn hp
    exact ⟨⟨ho', hj.chmod d ho.1 ho.2 hp⟩, hv⟩

/-- What the calls keep is kept by `listCollection`. -/
theorem listCollection_keeps (hm : Mirror w m own view) (hc : Collections w left) (hmk : Makeable m)
    (hj : Retains w m own view J) {c : CStr} {comm : Comm} {v : Int} {s s' : Server L R}
    (hall : Mirrorable w m s.rods c) (ho : own s.kernel) (hJ : J s.kernel)
    (h : listCollection w c m comm s = (.ok v, s')) : Outside s s' ∧ J s'.kernel := by
  obtain ⟨o, ho', _⟩ := (listCollection_fills (hm.keeps hj) hc hmk hall ⟨ho, hJ⟩).ok h
  exact ⟨o, ho'.2⟩

/-- What was in the mirror is lost, if its identity is not given again. -/
theorem listCollection_loses (hm : Mirror w m own view) (hc : Collections w left) (hmk : Makeable m)
    {i : ULong × ULong} (hj : Retains w m own view (Lost view i)) {c : CStr} {comm : Comm} {v : Int}
    {s s' : Server L R} (hall : Mirrorable w m s.rods c) (ho : own s.kernel)
    (h : listCollection w c m comm s = (.ok v, s')) :
    Outside s s' ∧ own s'.kernel ∧ Lost view i s'.kernel := by
  obtain ⟨s1, h1, l1, ho1, hv1⟩ := removeMirror_clears hm ho
  have hlost : Lost view i s1.kernel := by
    intro cs n hn
    rw [hv1] at hn
    cases hn
  rw [← l1.rods] at hall
  rw [listCollection_eq, Prog.bind_ok h1] at h
  obtain ⟨o2, ho2, _⟩ := (listAfter_fills _ (hm.keeps hj) hc hmk hall ⟨ho1, hlost⟩ hv1).ok h
  exact ⟨trans_of Outside l1.outside o2, ho2⟩

/-! ## READDIR -/

theorem readDirLoop_tacit (path : CStr) (cookie rcookie : UInt64) (count : Nat) :
    (entries : List Dirent) → (i realCount : Nat) → (acc : List Entry3) →
    Frame Tacit (readDirLoop w path cookie rcookie count entries i realCount acc)
  | [], _, _, _ => .bind libCall_tacit fun _ => .pure _
  | this :: rest, i, realCount, acc => by
    refine .ite (fun _ => .ite (fun _ => .bind (query_tacit _) fun r => ?_) fun _ => .pure _)
      fun _ => ?_
    · cases r with
      | none => exact .bind .get fun _ => .pure _
      | some buf =>
        refine .ite (fun _ => .bind libCall_tacit fun _ => .pure _) fun _ => ?_
        exact readDirLoop_tacit path cookie rcookie count rest _ _ _
    · exact .bind libCall_tacit fun _ => .pure _

theorem readDir_tacit (path : CStr) (cookie : UInt64) (count : Nat) :
    Frame Tacit (readDir w path cookie count) := by
  refine .bind .get fun s => .bind (query_tacit _) fun r => ?_
  cases r with
  | none => exact .bind .get fun _ => .ite (fun _ => .pure _) fun _ => .pure _
  | some entries => exact readDirLoop_tacit _ _ _ _ _ _ _ _

/-- A READDIR that replies has rebuilt the mirror, and changed nothing else of the file system. -/
theorem readdirBody_rebuilds {e d : CStr} {rq : SvcReq} {cookie : UInt64} {count : Nat}
    {s s' : Server L R} {r : Readdir3res} (h : s.exports.path = some e)
    (hr : readdirBody w d cookie count rq s = (.ok r, s')) :
    ∃ comm v s6 s7, Aside s s6 ∧ s6.rods = (session w e rq.uid s.rods).2 ∧
      listCollection w (targetName w e rq.uid d) (realPath w e rq.uid d) comm s6 = (.ok v, s7) ∧
      Aside s7 s' := by
  obtain ⟨-, s1, a1, hr1, hr⟩ := readdirBody_replied h hr
  rw [rebuildDir] at hr
  obtain ⟨v, s2, h2, hr⟩ := Prog.bind_eq_ok hr
  obtain ⟨x, s3, h3, hr⟩ := Prog.bind_eq_ok hr
  obtain ⟨y, s4, h4, hr⟩ := Prog.bind_eq_ok hr
  obtain ⟨_, s5, h5, hr⟩ := Prog.bind_eq_ok hr
  obtain ⟨_, s6, h6, hr⟩ := Prog.bind_eq_ok hr
  have t3 : Tacit s2 s3 := (readDir_tacit _ _ _).ok h3
  have t4 : Tacit s3 s4 := (getPostStat_tacit _ _).ok h4
  have a5 : Aside s4 s5 := by
    cases h5
    rfl
  have t6 : Tacit s5 s6 := libCall_tacit.ok h6
  cases hr
  refine ⟨_, v, s1, s2, a1, hr1, h2, ?_⟩
  exact trans_of Aside t3.aside (trans_of Aside t4.aside (trans_of Aside a5 t6.aside))

/-- The cached path of a handle is what it is resolved to, as long as it is a path of its object. -/
theorem fhDecomp_cached {h : NfsFh3} {p : CStr} {b : Stat} {s : Server L R} (hv : nfhValid h = true)
    (hroot : ¬ ExportRoot s h) (hc : Cached s h.obj p) (hb : w.lstat s.kernel p = .ok b)
    (hid : b.dev = h.obj.dev ∧ b.ino = h.obj.ino) : (fhDecomp w h s).1 = .ok (some p) := by
  obtain ⟨i, hi, rfl⟩ := hc
  rw [fhDecomp_hard hv hroot, fhDecompHard]
  have hhit : ∃ s1, fhCacheLookup w h.obj.dev h.obj.ino s =
    (.ok (some (s.fh.entry i).path), s1) := by
    unfold fhCacheLookup
    rw [hi]
    dsimp only
    rw [hb]
    dsimp only
    rw [if_pos hid]
    exact ⟨_, rfl⟩
  obtain ⟨s1, h1⟩ := hhit
  rw [Prog.bind_ok h1]
  rfl

/-- **A handle is resolved to the same path after READDIR** exactly when it is the handle of a
removable export point or its path is not in the mirror that READDIR rebuilds. The file system does
not give the inode number of the handle to what it creates. -/
theorem readdir_handle_iff (w : World L R) (own : L → Prop) (view : L → MirrorTree)
    (left : R → Comm → Int → List CollEnt × Int) (dir : NfsFh3) (cookie : UInt64) (count : Nat)
    (rq : SvcReq) (e d : CStr) (s s1 s2 : Server L R) (r : Readdir3res)
    (hprep : prep w dir rq s = (.ok (.ok d), s1)) (he : s1.exports.path = some e)
    (hrun : nfsproc3Readdir w dir cookie count rq s = (.ok r, s2))
    (hm : Mirror w (realPath w e rq.uid d) own view) (hc : Collections w left) (ho : own s1.kernel)
    (hmk : Makeable (realPath w e rq.uid d))
    (hall : Mirrorable w (realPath w e rq.uid d) s.rods (targetName w e rq.uid d))
    (hslash : ∀ k, own k → Slashes w k)
    (habsent : ∀ k cs, own k → Plain cs → view k cs = none →
      ∃ err, w.lstat k (within (realPath w e rq.uid d) cs) = .error err)
    (h : NfsFh3) (p : CStr) (hv : nfhValid h = true) (hobj : ¬ (h.obj.dev = 0 ∧ h.obj.ino = 0))
    (hlen : 0 < h.obj.len ∨ ExportRoot s1 h) (hbefore : (fhDecomp w h s1).1 = .ok (some p))
    (hin : Retains w (realPath w e rq.uid d) own view (Lost view (h.obj.dev, h.obj.ino)))
    (hout : ¬ InMirror (realPath w e rq.uid d) p → Cached s1 h.obj p ∧
      Retains w (realPath w e rq.uid d) own view fun k => w.lstat k p = w.lstat s1.kernel p) :
    (fhDecomp w h s2).1 = .ok (some p) ↔ ExportRoot s1 h ∨
      ¬ InMirror (realPath w e rq.uid d) p := by
  have hbody : readdirBody w d cookie count rq s1 = (.ok r, s2) :=
    (Prog.bind_ok hprep).symm.trans hrun
  obtain ⟨comm, v, s6, s7, a6, hr6, h7, a7⟩ := readdirBody_rebuilds he hbody
  have ho6 : own s6.kernel := by rwa [a6.kernel]
  have hall6 : Mirrorable w (realPath w e rq.uid d) s6.rods (targetName w e rq.uid d) := by
    rw [hr6, prep_rods hprep]
    exact hall.session e rq.uid
  obtain ⟨o7, ho7, hlost⟩ := listCollection_loses hm hc hmk hin hall6 ho6 h7
  have hlist : s2.exportList = s1.exportList := by rw [a7, o7, a6]
  have hfh : s2.fh = s1.fh := by rw [a7, o7, a6]
  have hroot : ExportRoot s2 h ↔ ExportRoot s1 h := by rw [ExportRoot, ExportRoot, hlist]
  constructor
  · intro hafter
    by_contra hno
    obtain ⟨hnr, hm'⟩ := not_or.1 hno
    obtain ⟨cs, hplain, rfl⟩ := not_not.1 hm'
    rw [← a7.kernel] at ho7 hlost
    obtain ⟨⟨hst, hdev, hino⟩, _⟩ := fhDecomp_refreshed hv (hlen.resolve_right hnr) hobj
      (fun h => hnr (hroot.1 h)) (hslash _ ho7) hafter
    cases hview : view s2.kernel cs with
    | none =>
      obtain ⟨err, herr⟩ := habsent _ cs ho7 hplain hview
      rw [herr] at hst
      cases hst
    | some n =>
      obtain ⟨b, hb, hid⟩ := hm.lstat ho7 hview
      rw [hb] at hst
      cases hst
      rw [hdev, hino] at hid
      exact hlost cs n hview hid.symm
  · rintro (hr | hno)
    · rw [hr.decomp hv hlist, hbefore]
    by_cases hr : ExportRoot s1 h
    · rw [hr.decomp hv hlist, hbefore]
    obtain ⟨hcached, hkeep⟩ := hout hno
    obtain ⟨⟨hst, hdev, hino⟩, _⟩ := fhDecomp_refreshed hv (hlen.resolve_right hr) hobj hr
      (hslash _ ho) hbefore
    obtain ⟨_, hsame⟩ := listCollection_keeps hm hc hmk hkeep hall6 ho6 (by rw [a6.kernel]) h7
    rw [← a7.kernel] at hsame
    refine fhDecomp_cached hv (fun h => hr (hroot.1 h)) ?_ (hsame.trans hst) ⟨hdev, hino⟩
    rw [Cached, hfh]
    exact hcached

end

/-! ## In the small world -/

theorem plotWorld_slashes (down : Bool) (k : Plot) : Slashes (plotWorld down) k := by
  intro p _
  show k.find (root ++ p) = k.find p
  have hparts : parts (root ++ p) = parts p := by simp [parts, root, split]
  rw [Sandbox.Plot.find, Sandbox.Plot.find, hparts]

theorem plotWorld_absent (down : Bool) {k : Plot} {cs : List CStr} (hcs : Plain cs)
    (h : Plot.view k cs = none) : ∃ e, (plotWorld down).lstat k (within plotDir cs) = .error e := by
  refine ⟨.enoent, ?_⟩
  show k.find _ = _
  have hlast : ¬ ((lit "e" :: cs).getLast? = some (lit ".") ∨
      (lit "e" :: cs).getLast? = some (lit "..")) := by
    rintro (hd | hd) <;> rcases List.mem_cons.1 (List.mem_of_getLast? hd) with he | hc
    · cases he
    · exact (hcs _ hc).2 (.inl rfl)
    · cases he
    · exact (hcs _ hc).2 (.inr rfl)
  rw [Sandbox.Plot.find, parts_within fun c hc => (hcs c hc).1, if_neg hlast]
  rw [Plot.view] at h
  rw [h]

/-- What is in the small tree after a call was there, or is one of the objects from 1000 on. -/
theorem plot_call (c : SysCall) (k : Plot) (cs : List CStr) (n : Node (ULong × ULong))
    (h : (Sandbox.Plot.sysCall c k).2.get cs = some n) :
    k.get cs = some n ∨ ∃ j, n.id = (1, UInt64.ofNat (1000 + j % 1000)) := by
  have hprune : ∀ ds, (k.prune ds).get cs = some n → k.get cs = some n := by
    intro ds hds
    rw [Plot.get_prune] at hds
    have hne : Dirs.cut k.get ds cs ≠ none := by simp [hds]
    rwa [Dirs.cut_other (Dirs.cut_ne_none hne).1] at hds
  have hgrow : ∀ ds dir, (k.grow ds dir).2.get cs = some n →
      k.get cs = some n ∨ ∃ j, n.id = (1, UInt64.ofNat (1000 + j % 1000)) := by
    intro ds dir hds
    unfold Sandbox.Plot.grow at hds
    split at hds
    · exact .inl hds
    · rename_i hnone
      split at hds
      · exact .inl hds
      · have hadd : Dirs.add k.get ds ⟨dir, (1, UInt64.ofNat (1000 + k.made % 1000))⟩ cs =
          some n := by
          rw [← Plot.get_grown dir (by simpa using hnone)]
          exact hds
        by_cases hcs : cs = ds
        · rw [hcs, Dirs.add_self] at hadd
          exact .inr ⟨k.made, by rw [← Option.some.inj hadd]⟩
        · rw [Dirs.add_other _ hcs] at hadd
          exact .inl hadd
  cases c with
  | remove p =>
    simp only [Sandbox.Plot.sysCall] at h
    split at h
    · exact .inl h
    · split at h
      · exact .inl h
      · exact .inl (hprune _ h)
  | rmdir p =>
    simp only [Sandbox.Plot.sysCall] at h
    split at h
    · exact .inl (hprune _ h)
    · exact .inl h
  | mkdir p mode => exact hgrow _ _ h
  | system cmd =>
    simp only [Sandbox.Plot.sysCall] at h
    split at h
    · exact hgrow _ _ h
    · exact .inl h
  | _ => exact .inl h

/-- Identities below 1000 are not given to anything new. -/
theorem plotWorld_retains (down : Bool) {i : ULong × ULong}
    (hi : ∀ j, i ≠ (1, UInt64.ofNat (1000 + j % 1000))) :
    Retains (plotWorld down) plotDir Plot.Tended Plot.view (Lost Plot.view i) := by
  have hcall : ∀ c k, Lost Plot.view i k → Lost Plot.view i (Sandbox.Plot.sysCall c k).2 := by
    intro c k hk cs n hn
    rcases plot_call c k _ n hn with h | ⟨j, hj⟩
    · exact hk cs n h
    · rw [hj]
      exact (hi j).symm
  exact ⟨fun _ h _ => hcall _ _ h, fun _ h _ => hcall _ _ h, fun _ h _ => hcall _ _ h,
    fun _ h _ => hcall _ _ h, fun _ h _ _ => hcall _ _ h, fun _ _ h _ => hcall _ _ h⟩

theorem one_not_made (dev : ULong) (j : Nat) :
    (dev, (1 : ULong)) ≠ (1, UInt64.ofNat (1000 + j % 1000)) := by
  intro h
  have hino := congrArg (fun x : ULong × ULong => x.2.toNat) h
  have hlt := Nat.mod_lt j (show 1000 > 0 by decide)
  simp only [UInt64.toNat_ofNat'] at hino
  rw [Nat.mod_eq_of_lt (by omega)] at hino
  have hone : (1 : ULong).toNat = 1 := rfl
  omega

/-- The handle of `/e/a`. -/
def plotA : NfsFh3 :=
    { dataLen := 35, obj := { dev := 1, ino := 4, gen := 4, len := 2, inos := [3, 4] } }

theorem plotted_up :
    (nfsproc3Readdir (plotWorld false) plotFh 0 4096 plotReq plotted).1.toOption.map
    (·.status) = some .ok := by
  decide +kernel

/-- The handle of the export point is resolved to `/e` after READDIR as before. -/
theorem readdir_handle_exportPoint : ∃ r s2,
    nfsproc3Readdir (plotWorld false) plotFh 0 4096 plotReq plotted = (.ok r, s2) ∧
    (fhDecomp (plotWorld false) plotFh s2).1 = .ok (some plotDir) := by
  obtain ⟨r, hr, _⟩ := Sandbox.replied plotted_up
  rcases hout : nfsproc3Readdir (plotWorld false) plotFh 0 4096 plotReq plotted with ⟨out, s2⟩
  rw [hout] at hr
  obtain rfl : out = .ok r := hr
  have hroot : ExportRoot (prep (plotWorld false) plotFh plotReq plotted).2 plotFh := by
    decide +kernel
  have hpoint : exportPointFromFsid (prep (plotWorld false) plotFh plotReq plotted).2.exportList
    plotFh.obj.dev = some plotDir := by decide +kernel
  have hbefore :
    (fhDecomp (plotWorld false) plotFh (prep (plotWorld false) plotFh plotReq plotted).2).1 =
    .ok (some plotDir) := by
    rw [fhDecomp_exportRoot (by decide) hpoint rfl]
  have hin : InMirror plotDir plotDir := ⟨[], by decide, by decide⟩
  refine ⟨r, s2, rfl, ?_⟩
  exact (readdir_handle_iff (plotWorld false) Plot.Tended Plot.view plotLeft plotFh 0 4096
    plotReq plotDir
    plotDir plotted _ s2 r (plotted_prep false) (plotted_export false) hout (plotWorld_mirror false)
    (plotWorld_collections false) (plotted_tended false) ⟨by decide, by decide⟩
      (plotted_mirrorable false)
    (fun k _ => plotWorld_slashes false k) (fun k cs _ hcs h => plotWorld_absent false hcs h)
      plotFh plotDir
    (by decide) (by decide) (.inr hroot) hbefore (plotWorld_retains false (one_not_made _))
    fun h => absurd hin h).2 (.inl hroot)

/-- The object `a` is still in iRODS, but its handle is resolved to nothing once `/e` was read. -/
theorem readdir_handle_lost : ∃ s1 r s2,
    prep (plotWorld false) plotFh plotReq plotted = (.ok (.ok plotDir), s1) ∧
    nfsproc3Readdir (plotWorld false) plotFh 0 4096 plotReq plotted = (.ok r, s2) ∧ r.status = .ok ∧
    nfhValid plotA = true ∧ (fhDecomp (plotWorld false) plotA s1).1 = .ok (some (lit "/e/a")) ∧
    InColl (plotWorld false) s2.rods (lit "/z/home/public") (lit "a") ∧
    (fhDecomp (plotWorld false) plotA s2).1 = .ok none := by
  obtain ⟨r, hr, hst⟩ := Sandbox.replied plotted_up
  have hbefore : (fhDecomp (plotWorld false) plotA
      (prep (plotWorld false) plotFh plotReq plotted).2).1.toOption.map id =
        some (some (lit "/e/a")) := by
    decide +kernel
  have hafter : (fhDecomp (plotWorld false) plotA
      (nfsproc3Readdir (plotWorld false) plotFh 0 4096 plotReq plotted).2).1.toOption.map id =
        some none := by
    decide +kernel
  have hstore : (nfsproc3Readdir (plotWorld false) plotFh 0 4096 plotReq plotted).2.rods.objs.lookup
    (lit "/z/home/public/a") = some (.data []) := by decide +kernel
  obtain ⟨p, hp, rfl⟩ := Sandbox.replied hbefore
  obtain ⟨q, hq, rfl⟩ := Sandbox.replied hafter
  rcases hout : nfsproc3Readdir (plotWorld false) plotFh 0 4096 plotReq plotted with ⟨out, s2⟩
  rw [hout] at hr hq hstore
  obtain rfl : out = .ok r := hr
  exact ⟨_, r, s2, plotted_prep false, rfl, hst, by decide, hp, ⟨by decide, _, hstore⟩, hq⟩

end NfsRods
