import NfsRods.Proof.Read

/-!
# The sizes of a file

LOOKUP, GETATTR and READ each report a size with the attributes of a regular file, and come by it on
three ways: LOOKUP asks iRODS for the directory, whose mirror path it appends to the caller's home
as it is; GETATTR asks for the object, opening it for writing too; READ takes the number of bytes it
has just read.

* `SizesOn`: what iRODS documents of `rcDataObjOpenAndStat`.
* `sizes_agree_iff`: the three are the length of the object exactly when the caller may write it (or
  it is empty), the name LOOKUP asks for has that length, and the READ asks for no less.
-/

namespace NfsRods

open CStr
open Prog (Ends Frame)

section
variable {L R : Type} (w : World L R)

/-- What iRODS answers `fileSize` about a name, on the caller's connection. -/
def sizeReply (e : CStr) (uid : UInt32) (name : CStr) (r : R) : RodsReply :=
  (w.rods (.rcDataObjOpenAndStat (session w e uid r).1 name .rdwr (defResource w))
    (session w e uid r).2).1

/-- The name LOOKUP asks for: the path of the directory below the caller's home. -/
def rawName (e : CStr) (uid : UInt32) (p : CStr) : CStr :=
  match rodsHome w e uid with
  | .ok home => home ++ p
  | .error _ => []

end

section
variable {L R : Type} {w : World L R} {s s' : Server L R} {e : CStr}

theorem remoteSize_ok {uid : UInt32} {name : CStr} {n : Int} (h : s.exports.path = some e)
    (hrun : remoteSize w name uid s = (.ok n, s')) :
    Known w uid ∧ n = (sizeReply w e uid name s.rods).dataSize.getD 0 := by
  have hk : Known w uid := by
    by_contra hk
    have herr := Prog.fst_bind_error (f := fun comm => fileSize w name comm >>= fun size =>
      rcDisconnect w comm >>= fun _ => (pure size : M L R Int)) (connectUser_stops h hk)
    rw [remoteSize] at hrun
    rw [hrun] at herr
    cases herr
  refine ⟨hk, ?_⟩
  obtain ⟨s1, h1, a1⟩ := connectUser_ends h hk
  rw [remoteSize, Prog.bind_ok h1] at hrun
  obtain ⟨size, s2, h2, hrun⟩ := Prog.bind_eq_ok hrun
  obtain ⟨_, s3, _, hrun⟩ := Prog.bind_eq_ok hrun
  simp only [Prog.pure_run, Prod.mk.injEq, Except.ok.injEq] at hrun
  obtain ⟨s2', h2', _⟩ := rods_ends (w := w)
    (.rcDataObjOpenAndStat (session w e uid s.rods).1 name .rdwr (defResource w)) s1
  rw [fileSize, Prog.bind_ok h2', a1.2, ← sizeReply] at h2
  simp only [Prog.pure_run, Prod.mk.injEq, Except.ok.injEq] at h2
  rw [← hrun.1, ← h2.1]

theorem rodsPath_ok {uid : UInt32} {p name : CStr} (h : rodsPath w e uid p = .ok name) :
    name = rawName w e uid p := by
  unfold rodsPath at h
  unfold rawName
  cases hh : rodsHome w e uid with
  | error st =>
    rw [hh] at h
    cases h
  | ok home =>
    rw [hh] at h
    exact (Except.ok.inj h).symm

/-- A name other than `.` and `..`. -/
def Ordinary (name : CStr) : Prop := ¬ (name = lit "." ∨ name = lit "..")

instance (name : CStr) : Decidable (Ordinary name) := inferInstanceAs (Decidable (¬ _))

/-- LOOKUP of an ordinary name stays under its export. -/
theorem lookupLocal_foot {E : Event → Prop} {what : Diropargs3} (hn : Ordinary what.name)
    (path : CStr)
    (rq : SvcReq) : Frame (Foot w E) (lookupLocal w what path rq) := by
  unfold lookupLocal
  split
  · refine .bind (lstat_frame _) fun st => ?_
    cases st with
    | none => exact .bind .get fun _ => .pure _
    | some buf =>
      refine .bind ?_ fun fh => ?_
      · rw [lookupFh, if_neg hn]
        exact .bind (fhExtend_frame _ _ _ _) fun _ => .bind (fhCacheAdd_foot _ _ _) fun _ => .pure _
      · cases fh with
        | none => exact .pure _
        | some fh =>
          exact .bind (getPostBuf_frame _ _) fun _ =>
            .bind (modify_foot fun _ => ⟨rfl, rfl, rfl, rfl, rfl⟩) fun _ => .pure _
  · exact .pure _

/-- LOOKUP's last step: the size iRODS has for `name` goes to the static result. -/
def lookupSize (w : World L R) (name : CStr) (rq : SvcReq) : M L R Unit := do
  let size ← remoteSize w name rq.uid
  Prog.modify fun s =>
    { s with lookupAttr :=
        { s.lookupAttr with attributes := withSize s.lookupAttr.attributes size rq } }

/-- The steps of a LOOKUP that gets a reply. -/
theorem lookupBody_parts {what : Diropargs3} {dir : CStr} {rq : SvcReq} {r : Lookup3res}
    (h : s.exports.path = some e) (hrun : lookupBody w what dir rq s = (.ok r, s')) :
    rodsPath w e rq.uid dir = .ok (rawName w e rq.uid dir) ∧ ∃ s1 s2 s3 s4 lr, Tacit s s1 ∧
      lookupLocal w what (realPath w e rq.uid dir) rq s1 = (.ok lr, s2) ∧
      getPostStat w (some (realPath w e rq.uid dir)) rq s2 = (.ok r.dirAttributes, s3) ∧
      Prog.when (s3.lookupAttr.attributes.type = .reg)
        (lookupSize w (rawName w e rq.uid dir) rq) s3 =
        (.ok (), s4) ∧
      r.status = lr.1 ∧ r.object = lr.2 ∧ r.objAttributes = s4.lookupAttr := by
  obtain ⟨t1, h1, a1⟩ := debug_tacit (w := w) "LOOKUP PATH %s" s
  have e1 : t1.exports.path = some e := by rw [a1.exports, h]
  obtain ⟨t2, h2, a2⟩ := getRodsPath_ends (w := w) e1 rq.uid dir
  rw [lookupBody, Prog.bind_ok h1] at hrun
  obtain ⟨name, t2', h2', hrun⟩ := Prog.bind_eq_ok hrun
  rw [h2] at h2'
  obtain ⟨hname, rfl⟩ := Prod.mk.inj h2'
  obtain rfl := rodsPath_ok hname
  refine ⟨hname, ?_⟩
  obtain ⟨t3, h3, a3⟩ := debug_tacit (w := w) "LOOKUP irodspath %s" t2
  obtain ⟨t4, h4, a4⟩ := getRealPathNFS_ends (w := w) (s := t3)
    (by rw [a3.exports, a2.exports, e1]) dir rq.uid
  obtain ⟨s1, h5, a5⟩ := debug_tacit (w := w) "LOOKUP path %s" t4
  rw [Prog.bind_ok h3, Prog.bind_ok h4, Prog.bind_ok h5] at hrun
  obtain ⟨lr, s2, hlocal, hrun⟩ := Prog.bind_eq_ok hrun
  obtain ⟨post, s3, hpost, hrun⟩ := Prog.bind_eq_ok hrun
  rw [Prog.get_bind_run] at hrun
  obtain ⟨_, s4, hwhen, hrun⟩ := Prog.bind_eq_ok hrun
  obtain ⟨s5, h6, a6⟩ := debug_tacit (w := w) "END LOOKUP object" s4
  rw [Prog.bind_ok h6, Prog.get_bind_run] at hrun
  simp only [Prog.pure_run, Prod.mk.injEq, Except.ok.injEq] at hrun
  obtain ⟨rfl, -⟩ := hrun
  refine ⟨s1, s2, s3, s4, lr, ?_, hlocal, hpost, hwhen, rfl, rfl, a6.lookupAttr⟩
  exact trans_of Tacit (trans_of Tacit a1 a2) (trans_of Tacit a3 (trans_of Tacit a4 a5))

/-- The size LOOKUP reports for a regular file. -/
theorem lookupBody_size {what : Diropargs3} {dir : CStr} {rq : SvcReq} {r : Lookup3res}
    (h : s.exports.path = some e) (hn : Ordinary what.name)
    (hrun : lookupBody w what dir rq s = (.ok r, s'))
    (hreg : r.objAttributes.attributes.type = .reg) :
    Connects w rq ∧ r.objAttributes.attributes.size =
      toUInt64 ((sizeReply w e rq.uid (rawName w e rq.uid dir) s.rods).dataSize.getD 0) := by
  obtain ⟨hname, s1, s2, s3, s4, lr, t1, h2, h3, h4, _, _, hattr⟩ := lookupBody_parts h hrun
  have f3 : Foot w NoRods s1 s3 := trans_of (Foot w NoRods) ((lookupLocal_foot hn _ _).ok h2)
    ((getPostStat_frame _ _).ok h3)
  have e3 : s3.exports.path = some e := by rw [f3.exports, t1.exports, h]
  have r3 : s3.rods = s.rods := by rw [NoRods.rods_eq f3, t1.rods]
  have hz : w.conf.zone.isSome := by
    by_contra hz
    rw [rodsPath_zone_none hz] at hname
    cases hname
  rw [hattr] at hreg ⊢
  by_cases hty : s3.lookupAttr.attributes.type = .reg
  · rw [Prog.when, if_pos hty] at h4
    obtain ⟨size, s5, h5, h4⟩ := Prog.bind_eq_ok h4
    obtain ⟨hk, hsize⟩ := remoteSize_ok e3 h5
    simp only [Prog.modify_run, Prod.mk.injEq] at h4
    rw [← h4.2, ← r3, ← hsize]
    exact ⟨⟨hk, hz⟩, rfl⟩
  · rw [Prog.when, if_neg hty] at h4
    simp only [Prog.pure_run, Prod.mk.injEq] at h4
    rw [← h4.2] at hreg
    exact absurd hreg hty

/-- The size GETATTR reports for a regular file. -/
theorem getattrBody_size {d : CStr} {rq : SvcReq} {r : Getattr3res} (h : s.exports.path = some e)
    (hc : Connects w rq) (hrun : getattrBody w d rq s = (.ok r, s'))
    (hreg : r.objAttributes.type = .reg) : r.objAttributes.size =
      toUInt64 ((sizeReply w e rq.uid (targetName w e rq.uid d) s.rods).dataSize.getD 0) := by
  obtain ⟨s1, h1, t1⟩ := rodsName_ends (w := w) h d rq.uid
  rw [rodsPath_targetName hc.1 hc.2] at h1
  obtain ⟨s2, h2, t2⟩ := getRealPathNFS_ends (w := w) (s := s1) (by rw [t1.exports, h]) d rq.uid
  obtain ⟨s3, h3, t3⟩ := debug_tacit (w := w) "GETATTR path %s" s2
  obtain ⟨s4, h4, t4⟩ := debug_tacit (w := w) "GETATTR irodspath %s" s3
  rw [getattrBody, Prog.bind_ok h1, Prog.bind_ok h2, Prog.bind_ok h3, Prog.bind_ok h4] at hrun
  obtain ⟨post, s5, h5, hrun⟩ := Prog.bind_eq_ok hrun
  have f5 : Foot w NoRods s4 s5 := (getPostCached_frame _).ok h5
  have e5 : s5.exports.path = some e := by
    rw [f5.exports, t4.exports, t3.exports, t2.exports, t1.exports, h]
  have r5 : s5.rods = s.rods := by
    rw [NoRods.rods_eq f5, t4.rods, t3.rods, t2.rods, t1.rods]
  rw [Prog.ite_run] at hrun
  split at hrun
  · obtain ⟨size, s6, h6, hrun⟩ := Prog.bind_eq_ok hrun
    obtain ⟨_, s7, _, hrun⟩ := Prog.bind_eq_ok hrun
    simp only [Prog.pure_run, Prod.mk.injEq, Except.ok.injEq] at hrun
    rw [← hrun.1, ← r5, ← (remoteSize_ok e5 h6).2]
    rfl
  · rename_i hty
    obtain ⟨_, s6, _, hrun⟩ := Prog.bind_eq_ok hrun
    simp only [Prog.pure_run, Prod.mk.injEq, Except.ok.injEq] at hrun
    rw [← hrun.1] at hreg
    exact absurd hreg hty

/-! ## The three together -/

/-- What iRODS documents of sizes: an open that succeeds comes with the size of the object, one that
fails with none. -/
structure SizesOn (w : World L R) : Prop where
  opened : ∀ (comm : Comm) (name resc : CStr) (r : R),
    0 ≤ (w.rods (.rcDataObjOpenAndStat comm name .rdwr resc) r).1.status →
    ∃ b, w.store r name = some (.data b) ∧
      (w.rods (.rcDataObjOpenAndStat comm name .rdwr resc) r).1.dataSize = some (b.length : Int)
  refused : ∀ (comm : Comm) (name resc : CStr) (r : R),
    (w.rods (.rcDataObjOpenAndStat comm name .rdwr resc) r).1.status < 0 →
    (w.rods (.rcDataObjOpenAndStat comm name .rdwr resc) r).1.dataSize = none

/-- Every stored object has a length that the type of sizes holds. -/
def Bounded (w : World L R) (r : R) : Prop :=
  ∀ name b, w.store r name = some (.data b) → b.length < 2 ^ 63

/-- A LOOKUP in the directory `dir` under the export `e`, answered with a regular file. -/
structure LooksUp (w : World L R) (rq : SvcReq) (what : Diropargs3) (s : Server L R) (e dir : CStr)
    (r : Lookup3res) : Prop where
  prep : ∃ s1, prep w what.dir rq s = (.ok (.ok dir), s1) ∧ s1.exports.path = some e
  ordinary : Ordinary what.name
  run : (nfsproc3Lookup w what rq s).1 = .ok r
  reg : r.objAttributes.attributes.type = .reg

/-- A GETATTR of the path `d`, answered with a regular file. -/
structure GetsAttr (w : World L R) (rq : SvcReq) (object : NfsFh3) (s : Server L R) (e d : CStr)
    (r : Getattr3res) : Prop where
  prep : ∃ s1, prep w object rq s = (.ok (.ok d), s1) ∧ s1.exports.path = some e
  run : (nfsproc3Getattr w object rq s).1 = .ok r
  reg : r.objAttributes.type = .reg

/-- A READ of the regular file `d` by a caller who may open its object for reading. -/
structure ReadsFile (w : World L R) (rq : SvcReq) (file : NfsFh3) (offset count : Nat)
    (s : Server L R) (e d : CStr) (r : Read3res) : Prop where
  prep : ∃ s1, prep w file rq s = (.ok (.ok d), s1) ∧ s1.exports.path = some e ∧ isReg s1 = .ok
  mayRead : 0 ≤ (readOpen w e rq.uid d s.rods).1.status
  run : (nfsproc3Read w file offset count rq s).1 = .ok r

theorem LooksUp.size {rq : SvcReq} {what : Diropargs3} {dir : CStr} {r : Lookup3res}
    (h : LooksUp w rq what s e dir r) : Connects w rq ∧ r.objAttributes.attributes.size =
      toUInt64 ((sizeReply w e rq.uid (rawName w e rq.uid dir) s.rods).dataSize.getD 0) := by
  obtain ⟨s1, hp, he⟩ := h.prep
  rcases hrun : nfsproc3Lookup w what rq s with ⟨x, s'⟩
  obtain rfl : x = .ok r := by rw [← h.run, hrun]
  rw [nfsproc3Lookup, withPrep, Prog.bind_ok hp] at hrun
  rw [← prep_rods hp]
  exact lookupBody_size he h.ordinary hrun h.reg

theorem GetsAttr.size {rq : SvcReq} {object : NfsFh3} {d : CStr} {r : Getattr3res}
    (h : GetsAttr w rq object s e d r) (hc : Connects w rq) : r.objAttributes.size =
      toUInt64 ((sizeReply w e rq.uid (targetName w e rq.uid d) s.rods).dataSize.getD 0) := by
  obtain ⟨s1, hp, he⟩ := h.prep
  rcases hrun : nfsproc3Getattr w object rq s with ⟨x, s'⟩
  obtain rfl : x = .ok r := by rw [← h.run, hrun]
  rw [nfsproc3Getattr, withPrep, Prog.bind_ok hp] at hrun
  rw [← prep_rods hp]
  exact getattrBody_size he hc hrun h.reg

theorem ReadsFile.size {rq : SvcReq} {file : NfsFh3} {offset count : Nat} {d : CStr} {r : Read3res}
    (h : ReadsFile w rq file offset count s e d r) (hc : Connects w rq) :
    r.fileAttributes.attributes.size =
      toUInt64 (readReply w e rq.uid d (readCount count rq) offset s.rods).status := by
  obtain ⟨s1, hp, he, hreg⟩ := h.prep
  have ho := h.mayRead
  rw [← prep_rods hp] at ho ⊢
  obtain ⟨r', s', hrun, _, hcount, _, _, hsize⟩ := readBody_ends he hc hreg d offset count
    (w.junk s.tick).int ho
  have hread := h.run
  rw [nfsproc3Read, Prog.get_bind_run, withPrep, Prog.bind_ok hp] at hread
  dsimp only at hread
  rw [hrun] at hread
  obtain rfl := Except.ok.inj hread
  rw [hsize, hcount]

/-- A size is reported as it is. -/
theorem toUInt64_length {n : Nat} (h : n < 2 ^ 63) : toUInt64 n = n := by
  change ((n : Int) % 2 ^ 64).toNat = n
  omega

/-- `fileSize` finds the size `n` under a name: an object of that length that the caller may open
for writing, or nothing he may open, where `n` is 0. -/
def Sized (w : World L R) (e : CStr) (uid : UInt32) (name : CStr) (r : R) (n : Nat) : Prop :=
  (0 ≤ (sizeReply w e uid name r).status ∧ ∃ b, w.store r name = some (.data b) ∧ b.length = n) ∨
  ((sizeReply w e uid name r).status < 0 ∧ n = 0)

theorem sized_iff (hw : SizesOn w) {uid : UInt32} {name : CStr} {r : R} {n : Nat}
    (hr : Bounded w r) :
    toUInt64 ((sizeReply w e uid name r).dataSize.getD 0) = n ↔ Sized w e uid name r n := by
  by_cases ho : 0 ≤ (sizeReply w e uid name r).status
  · obtain ⟨b, hb, hsize⟩ := hw.opened _ _ _ _ ho
    rw [session_store] at hb
    rw [← sizeReply] at hsize
    rw [hsize, Option.getD_some, toUInt64_length (hr _ _ hb), Sized, and_iff_right ho, hb]
    simp [Int.not_lt.2 ho]
  · have hneg := Int.not_le.1 ho
    have hsize := hw.refused _ _ _ _ hneg
    rw [← sizeReply] at hsize
    rw [hsize, Option.getD_none, show toUInt64 0 = 0 from rfl, Sized, and_iff_right hneg]
    simp [ho, eq_comm]

/-- **The sizes agree** with the length of the file's object exactly when LOOKUP happens to find it
under the directory's name, the caller may write the object (or it is empty), and the READ asks for
no less. -/
theorem sizes_agree_iff (w : World L R) (hw : SizesOn w) (hr : ReadsOn w) (rq : SvcReq)
    (what : Diropargs3) (fh : NfsFh3) (offset count : Nat) (e dir : CStr) (b : List UInt8)
    (sl sg sr : Server L R) (rl : Lookup3res) (rg : Getattr3res) (rr : Read3res)
    (hl : LooksUp w rq what sl e dir rl)
    (hg : GetsAttr w rq fh sg e (childPath (realPath w e rq.uid dir) what.name) rg)
    (hrd : ReadsFile w rq fh offset count sr e (childPath (realPath w e rq.uid dir) what.name) rr)
    (hsame : w.store sl.rods = w.store sg.rods ∧ w.store sg.rods = w.store sr.rods)
    (hlen : Bounded w sg.rods)
    (hb : w.store sg.rods (targetName w e rq.uid (childPath (realPath w e rq.uid dir) what.name)) =
      some (.data b)) :
    (rl.objAttributes.attributes.size = b.length ∧ rg.objAttributes.size = b.length ∧
      rr.fileAttributes.attributes.size = b.length) ↔
    Sized w e rq.uid (rawName w e rq.uid dir) sl.rods b.length ∧
      (0 ≤ (sizeReply w e rq.uid (targetName w e rq.uid
        (childPath (realPath w e rq.uid dir) what.name)) sg.rods).status ∨ b = []) ∧
      b.length ≤ readCount count rq := by
  obtain ⟨hc, hlsize⟩ := hl.size
  have hlen' : Bounded w sl.rods := fun name b' hb' => hlen name b' (hsame.1 ▸ hb')
  rw [hlsize, hg.size hc, hrd.size hc, sized_iff hw hlen', sized_iff hw hlen]
  refine and_congr_right fun _ => and_congr ?_ ?_
  · rw [Sized, hb]
    constructor
    · rintro (⟨ho, _⟩ | ⟨_, hn⟩)
      · exact .inl ho
      · exact .inr (List.length_eq_zero_iff.1 hn)
    · intro h
      by_cases ho : 0 ≤ (sizeReply w e rq.uid (targetName w e rq.uid
          (childPath (realPath w e rq.uid dir) what.name)) sg.rods).status
      · exact .inl ⟨ho, b, rfl, rfl⟩
      · exact .inr ⟨Int.not_le.1 ho, by rw [h.resolve_left ho]; rfl⟩
  · obtain ⟨hn, _⟩ := hr _ _ _ b (readCount count rq) offset
      (by rw [session_store, ← hsame.2, hb]) hrd.mayRead
    change RodsReply.status (readReply w _ rq.uid _ (readCount count rq) offset sr.rods) = _ at hn
    have hb63 := hlen _ _ hb
    rw [hn, toUInt64_length (by rw [List.length_take]; omega), List.length_take]
    omega

end

/-! ## A file of three bytes, again -/

theorem readWorld_sizesOn : SizesOn readWorld := by
  have hstat : ∀ (comm : Comm) (name resc : CStr) (h : Sandbox.Shelf),
      (readWorld.rods (.rcDataObjOpenAndStat comm name .rdwr resc) h).1 =
        (Sandbox.contents h.grid name).elim { status := -808000 } fun b =>
          { status := 3, dataSize := some (b.length : Int) } := by
    intro comm name resc h
    simp only [readWorld, Sandbox.shelfWorld, Sandbox.shelfCall]
    cases Sandbox.contents h.grid name <;> rfl
  constructor
  · intro comm name resc h ho
    rw [hstat] at ho ⊢
    cases hc : Sandbox.contents h.grid name with
    | none => simp [hc] at ho
    | some b =>
      refine ⟨b, ?_, rfl⟩
      unfold Sandbox.contents at hc
      split at hc
      · exact Option.some.inj hc ▸ ‹_›
      · cases hc
  · intro comm name resc h ho
    rw [hstat] at ho ⊢
    cases hc : Sandbox.contents h.grid name with
    | none => rfl
    | some b => simp [hc] at ho

def lookX : Diropargs3 := { dir := Sandbox.handle (Sandbox.item (lit "/e") true), name := lit "x" }

/-- The mirror has `/e/x`, and iRODS the bytes 1, 2, 3 in its object, with some other objects. -/
def sizeServer (objs : List (CStr × RodsObj)) : Server Sandbox.Kernel Sandbox.Shelf :=
  Sandbox.shelfServer [Sandbox.item (lit "/e") true]
    { files := [(lit "/", { dev := 1, ino := 1, mode := 0o040755 }),
        (lit "/e", { dev := 1, ino := 2, mode := 0o040755 }),
        (lit "/e/x", { dev := 1, ino := 5, mode := 0o100600 })] }
    { grid := { objs := (lit "/z/home/public/x", .data [1, 2, 3]) :: objs } }
    (FhCache.add {} 1 5 (lit "/e/x"))

/-- An object that LOOKUP takes for the directory's. -/
def twin : List (CStr × RodsObj) := [(lit "/z/home/public/e", .data [7, 8, 9])]

theorem twin_bounded : Bounded readWorld (sizeServer twin).rods := by
  intro name b h
  have hlen : ∀ x ∈ (sizeServer twin).rods.grid.objs, ∀ b, x.2 = .data b → b.length < 2 ^ 63 := by
    simp [sizeServer, Sandbox.shelfServer, twin]
  obtain ⟨l₁, l₂, hl, _⟩ := List.lookup_eq_some_iff.1 h
  exact hlen (name, .data b) (by rw [hl]; simp) b rfl

/-- With such an object all three procedures report three bytes. -/
theorem sizes_agree_twin : ∃ rl rg rr,
    (nfsproc3Lookup readWorld lookX readReq (sizeServer twin)).1 = .ok rl ∧
    (nfsproc3Getattr readWorld readHandle readReq (sizeServer twin)).1 = .ok rg ∧
    (nfsproc3Read readWorld readHandle 0 10 readReq (sizeServer twin)).1 = .ok rr ∧
    rl.objAttributes.attributes.size = 3 ∧ rg.objAttributes.size = 3 ∧
      rr.fileAttributes.attributes.size = 3 := by
  obtain ⟨rl, hl, htl⟩ := Sandbox.replied (v := .reg) (f := fun r : Lookup3res =>
    r.objAttributes.attributes.type)
      (x := (nfsproc3Lookup readWorld lookX readReq (sizeServer twin)).1)
    (by decide +kernel)
  obtain ⟨rg, hg, htg⟩ :=
    Sandbox.replied (v := .reg) (f := fun r : Getattr3res => r.objAttributes.type)
    (x := (nfsproc3Getattr readWorld readHandle readReq (sizeServer twin)).1) (by decide +kernel)
  obtain ⟨rr, hr, _⟩ := Sandbox.replied (v := .ok) (f := Read3res.status)
    (x := (nfsproc3Read readWorld readHandle 0 10 readReq (sizeServer twin)).1) (by decide +kernel)
  refine ⟨rl, rg, rr, hl, hg, hr, ?_⟩
  refine (sizes_agree_iff readWorld readWorld_sizesOn readWorld_readsOn readReq lookX
    readHandle 0 10
    (lit "/e") (lit "/e") [1, 2, 3] (sizeServer twin) (sizeServer twin) (sizeServer twin) rl rg rr
    ⟨⟨_, Prod.ext rfl rfl, rfl⟩, by decide, hl, htl⟩ ⟨⟨_, Prod.ext rfl rfl, rfl⟩, hg, htg⟩
    ⟨⟨_, Prod.ext rfl rfl, rfl, by decide +kernel⟩, by decide +kernel, hr⟩ ⟨rfl, rfl⟩ twin_bounded
    (by decide +kernel)).2 ⟨.inl ⟨by decide +kernel, [7, 8, 9], by decide +kernel, rfl⟩,
      .inl (by decide +kernel), by decide⟩

/-- Without it LOOKUP reports none of the three bytes that the caller may read and write. -/
theorem sizes_differ :
    readWorld.store (sizeServer []).rods (targetName readWorld (lit "/e") 7 (lit "/e/x")) =
      some (.data [1, 2, 3]) ∧
    0 ≤ (readOpen readWorld (lit "/e") 7 (lit "/e/x") (sizeServer []).rods).1.status ∧
    (nfsproc3Lookup readWorld lookX readReq (sizeServer [])).1.toOption.map
      (fun r => (r.status, r.objAttributes.attributes.type, r.objAttributes.attributes.size)) =
      some (.ok, .reg, 0) ∧
    ¬ ∃ r, (nfsproc3Lookup readWorld lookX readReq (sizeServer [])).1 = .ok r ∧
      r.objAttributes.attributes.size = 3 := by
  have hrun : (nfsproc3Lookup readWorld lookX readReq (sizeServer [])).1.toOption.map
      (fun r => (r.status, r.objAttributes.attributes.type, r.objAttributes.attributes.size)) =
      some (.ok, .reg, 0) := by decide +kernel
  refine ⟨by decide +kernel, by decide +kernel, hrun, ?_⟩
  rintro ⟨r, hr, hsize⟩
  obtain ⟨r', hr', hf⟩ := Sandbox.replied hrun
  rw [hr] at hr'
  obtain rfl := Except.ok.inj hr'
  simp [hsize] at hf

end NfsRods
