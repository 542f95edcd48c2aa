import NfsRods.Proof.Refusal

/-!
# What a READ returns

READ opens the iRODS object and reads once. It puts the offset into the input of `rcDataObjRead`,
which does not look at it, takes a read of nothing for an error, and the end of the object to be
reached when fewer bytes come than were asked for.

* `ReadsOn`: what iRODS documents of `rcDataObjOpen` and `rcDataObjRead`.
* `read_exact_iff`: READ returns the bytes of its range exactly when the stat cache shows a regular
  file and `FromStart` holds: the range starts the object, but is not all of it, or ends before the
  object does and looks like its start.
-/

namespace NfsRods

open CStr
open Prog (Ends Frame Returns)

section
variable {L R : Type} (w : World L R)

/-- The bytes a READ asks iRODS for. -/
def readCount (count : Nat) (rq : SvcReq) : Nat := min count (maxdata rq)

/-! ## The answers READ gets under export `e` from iRODS state `r` -/

/-- What the open for reading answers. -/
def readOpen (e : CStr) (uid : UInt32) (d : CStr) (r : R) : RodsReply × R :=
  w.rods (.rcDataObjOpen (session w e uid r).1 (targetName w e uid d) .rdonly) (session w e uid r).2

/-- What the read answers. -/
def readReply (e : CStr) (uid : UInt32) (d : CStr) (count offset : Nat) (r : R) : RodsReply :=
  (w.rods (.rcDataObjRead (session w e uid r).1 (readOpen w e uid d r).1.status count offset)
    (readOpen w e uid d r).2).1

end

section
variable {L R : Type} {w : World L R} {s : Server L R} {e : CStr}

theorem readErr_ne_ok (err : Errno) : readErr err ≠ .ok := by
  unfold readErr
  repeat' split
  all_goals decide

theorem becomeRoot_returns : Returns (becomeRoot w : M L R Unit) :=
  .bind (sys_returns _) fun _ => .bind (sys_returns _) fun _ => .pure _

theorem readExecutable_returns (rq : SvcReq) (buf : Stat) : Returns (readExecutable w rq buf) :=
  .bind .get fun _ => .ite becomeRoot_returns (.pure _)

theorem accessByOwner_returns (b : Nat) (rq : SvcReq) (buf : Stat) :
    Returns (accessByOwner w b rq buf) := .bind .get fun _ => .ite becomeRoot_returns (.pure _)

/-- READ's remote step: what was read, if the object could be opened, and whether that is a
success. -/
theorem readRemote_ends {rq : SvcReq} (h : s.exports.path = some e) (hc : Connects w rq) (d : CStr)
    (offset count : Nat) :
    ∃ st s', readRemote w d offset count rq s =
        (.ok (st, if (readOpen w e rq.uid d s.rods).1.status < 0 then none
          else some ((readReply w e rq.uid d count offset s.rods).status,
            (readReply w e rq.uid d count offset s.rods).data)), s') ∧
      (st = .ok ↔ 0 ≤ (readOpen w e rq.uid d s.rods).1.status ∧
        0 < (readReply w e rq.uid d count offset s.rods).status) := by
  obtain ⟨s1, h1, a1⟩ := connectUser_ends (w := w) h hc.1
  have e1 : s1.exports.path = some e := by rw [a1.1.exports, h]
  obtain ⟨s2, h2, t2⟩ := getRealPathNFS_ends (w := w) e1 d rq.uid
  obtain ⟨s3, h3, t3⟩ := debug_tacit (w := w) "RealPATH:%s" s2
  obtain ⟨s4, h4, t4⟩ :=
    rodsName_ends (w := w) (s := s3) (by rw [t3.exports, t2.exports, e1]) d rq.uid
  rw [rodsPath_targetName hc.1 hc.2] at h4
  have r4 : s4.rods = (session w e rq.uid s.rods).2 := by rw [t4.rods, t3.rods, t2.rods, a1.2]
  obtain ⟨s5, h5, a5⟩ := rods_ends (w := w) (.rcDataObjOpen (session w e rq.uid s.rods).1
    (targetName w e rq.uid d) .rdonly) s4
  rw [r4, ← readOpen] at h5 a5
  rw [readRemote, Prog.bind_ok h1, Prog.bind_ok h2, Prog.bind_ok h3, Prog.bind_ok h4,
    Prog.bind_ok h5, Prog.ite_run]
  split
  · rename_i ho
    refine ⟨readErr s5.errno, s5, rfl, iff_of_false (readErr_ne_ok _) fun hn => ?_⟩
    exact absurd hn.1 (Int.not_le.2 ho)
  · rename_i ho
    obtain ⟨s6, h6, _⟩ := rods_ends (w := w) (.rcDataObjRead (session w e rq.uid s.rods).1
      (readOpen w e rq.uid d s.rods).1.status count offset) s5
    rw [a5.2, ← readReply] at h6
    rw [Prog.bind_ok h6, Prog.ite_run]
    split
    · rename_i hr
      exact ⟨.ok, s6, rfl, iff_of_true rfl ⟨Int.not_lt.1 ho, hr⟩⟩
    · rename_i hr
      exact ⟨readErr s6.errno, s6, rfl,
        iff_of_false (readErr_ne_ok _) fun hn => hr hn.2⟩

/-- READ of a file the stat cache shows as regular. -/
theorem readBody_ends {rq : SvcReq} (h : s.exports.path = some e) (hc : Connects w rq)
    (hreg : isReg s = .ok) (d : CStr) (offset count : Nat) (unset : Int)
    (ho : 0 ≤ (readOpen w e rq.uid d s.rods).1.status) :
    ∃ r s', readBody w d offset count rq unset s = (.ok r, s') ∧
      (r.status = .ok ↔ 0 < (readReply w e rq.uid d (readCount count rq) offset s.rods).status) ∧
      r.count = (readReply w e rq.uid d (readCount count rq) offset s.rods).status ∧
      r.data = (readReply w e rq.uid d (readCount count rq) offset s.rods).data ∧
      (r.eof = true ↔ r.count < readCount count rq) ∧
      r.fileAttributes.attributes.size = toUInt64 r.count := by
  obtain ⟨_, s1, h1⟩ := readExecutable_returns (w := w) rq s.stCache s
  obtain ⟨_, s2, h2⟩ := accessByOwner_returns (w := w) 4 rq s.stCache s1
  have f1 : Foot w NoRods s s1 := (readExecutable_frame (fun c _ => noRods_sys c) _ _).ok h1
  have f2 : Foot w NoRods s1 s2 := (accessByOwner_frame (fun c _ => noRods_sys c) _ _ _).ok h2
  have r2 : s2.rods = s.rods := by rw [NoRods.rods_eq f2, NoRods.rods_eq f1]
  have hcount : (if maxdata rq < count then maxdata rq else count) = readCount count rq := by
    unfold readCount
    split <;> omega
  obtain ⟨st, s3, h3, hst⟩ :=
    readRemote_ends (w := w) (s := s2) (by rw [f2.exports, f1.exports, h]) hc d offset
      (readCount count rq)
  rw [r2, if_neg (Int.not_lt.2 ho)] at h3
  rw [r2, and_iff_right ho] at hst
  obtain ⟨post, s4, h4⟩ := getPostStat_returns (w := w) (some d) rq s3
  obtain ⟨s5, h5, _⟩ := debug_tacit (w := w) "READ END" s4
  rw [readBody, Prog.get_bind_run, Prog.bind_ok h1, readByOwner, Prog.bind_ok h2]
  simp only [hreg, hcount, ↓reduceIte]
  rw [Prog.bind_ok h3, Prog.bind_ok h4, Prog.bind_ok h5]
  exact ⟨_, s5, rfl, hst, rfl, rfl, decide_eq_true_iff, rfl⟩

theorem readBody_irregular (hreg : isReg s ≠ .ok) (rq : SvcReq) (d : CStr) (offset count : Nat)
    (unset : Int) :
    ∃ r s', readBody w d offset count rq unset s = (.ok r, s') ∧ r.status ≠ .ok := by
  obtain ⟨_, s1, h1⟩ := readExecutable_returns (w := w) rq s.stCache s
  obtain ⟨_, s2, h2⟩ := accessByOwner_returns (w := w) 4 rq s.stCache s1
  obtain ⟨post, s3, h3⟩ := getPostStat_returns (w := w) (some d) rq s2
  obtain ⟨s4, h4, _⟩ := debug_tacit (w := w) "READ END" s3
  rw [readBody, Prog.get_bind_run, Prog.bind_ok h1, readByOwner, Prog.bind_ok h2]
  simp only [hreg, ↓reduceIte]
  rw [Prog.pure_bind_run, Prog.bind_ok h3, Prog.bind_ok h4]
  exact ⟨_, s4, rfl, hreg⟩

/-! ## Ranges -/

/-- What iRODS documents of reading: an open positions the new descriptor at the start of the
object, and a read takes as many bytes as asked for, or as there are, from the position; the
descriptor and the length are its only inputs. -/
def ReadsOn (w : World L R) : Prop :=
  ∀ (comm : Comm) (name : CStr) (r : R) (b : List UInt8) (len offset : Nat),
    w.store r name = some (.data b) →
    let o := w.rods (.rcDataObjOpen comm name .rdonly) r
    let a := (w.rods (.rcDataObjRead comm o.1.status len offset) o.2).1
    0 ≤ o.1.status → a.status = (b.take len).length ∧ a.data = b.take len

/-- The reply has the bytes of `b` from `offset` on, up to `n` of them, and says whether they reach
its end. -/
structure Read3res.Exact (r : Read3res) (b : List UInt8) (offset n : Nat) : Prop where
  status : r.status = .ok
  data : r.data = (b.drop offset).take n
  count : r.count = ((b.drop offset).take n).length
  eof : r.eof = true ↔ b.length ≤ offset + n

/-- There is something to read; `n` bytes from the start of `b` are those from `offset`, and come
short exactly where the range reaches the end. -/
def FromStart (b : List UInt8) (offset n : Nat) : Prop :=
  0 < n ∧ b ≠ [] ∧
    (offset = 0 ∧ n ≠ b.length ∨ offset + n < b.length ∧ b.take n = (b.drop offset).take n)

theorem fromStart_iff (b : List UInt8) (offset n : Nat) :
    FromStart b offset n ↔ 0 < (b.take n).length ∧ b.take n = (b.drop offset).take n ∧
      ((b.take n).length < n ↔ b.length ≤ offset + n) := by
  have hb : b ≠ [] ↔ 0 < b.length := List.length_pos_iff.symm
  rw [FromStart, List.length_take, hb]
  constructor
  · rintro ⟨hn, hb, ⟨rfl, hne⟩ | ⟨hlt, heq⟩⟩
    · exact ⟨by omega, rfl, by omega⟩
    · exact ⟨by omega, heq, by omega⟩
  · rintro ⟨hpos, heq, heof⟩
    have hlen := congrArg List.length heq
    simp only [List.length_take, List.length_drop] at hlen
    refine ⟨by omega, by omega, ?_⟩
    by_cases h0 : offset = 0
    · exact .inl ⟨h0, by omega⟩
    · exact .inr ⟨by omega, heq⟩

/-- **READ returns the bytes of its range** of a stored object that the caller may open exactly when
the stat cache shows a regular file and the range is one that a read from the start gives. -/
theorem read_exact_iff (w : World L R) (hw : ReadsOn w) (rq : SvcReq) (file : NfsFh3)
    (offset count : Nat) (s s1 : Server L R) (d : CStr) (b : List UInt8)
    (hp : prep w file rq s = (.ok (.ok d), s1)) (hc : Connects w rq)
    (hb : w.store s.rods (targetName w (exportPath s1) rq.uid d) = some (.data b))
    (ho : 0 ≤ (readOpen w (exportPath s1) rq.uid d s.rods).1.status) :
    (∃ r s', nfsproc3Read w file offset count rq s = (.ok r, s') ∧
      r.Exact b offset (readCount count rq)) ↔
    isReg s1 = .ok ∧ FromStart b offset (readCount count rq) := by
  obtain ⟨e, he⟩ := prep_path hp
  obtain rfl : exportPath s1 = e := by rw [exportPath, he]; rfl
  have hbody : nfsproc3Read w file offset count rq s =
      readBody w d offset count rq (w.junk s.tick).int s1 := by
    rw [nfsproc3Read, Prog.get_bind_run, withPrep, Prog.bind_ok hp]
  rw [hbody]
  rw [← prep_rods hp] at hb ho
  by_cases hreg : isReg s1 = .ok
  · obtain ⟨r, s', hrun, hst, hcount, hdata, heof, _⟩ := readBody_ends he hc hreg d offset count
      (w.junk s.tick).int ho
    obtain ⟨hn, hread⟩ := hw _ _ _ b (readCount count rq) offset (by rw [session_store, hb]) ho
    change RodsReply.status (readReply w _ rq.uid d (readCount count rq) offset s1.rods) = _ at hn
    change RodsReply.data (readReply w _ rq.uid d (readCount count rq) offset s1.rods) = _ at hread
    rw [hn] at hst hcount
    rw [hread] at hdata
    rw [hcount] at heof
    rw [and_iff_right hreg, fromStart_iff]
    constructor
    · rintro ⟨r', s'', hrun', hex⟩
      rw [hrun] at hrun'
      obtain ⟨⟨⟨⟩⟩, rfl⟩ := Prod.mk.inj hrun'
      refine ⟨Int.ofNat_lt.1 (hst.1 hex.status), hdata.symm.trans hex.data, ?_⟩
      rw [← hex.eof, heof, Int.ofNat_lt]
    · rintro ⟨hpos, heq, hend⟩
      refine ⟨r, s', hrun, hst.2 (Int.ofNat_lt.2 hpos), hdata.trans heq, ?_, ?_⟩
      · rw [hcount, heq]
      · rw [heof, Int.ofNat_lt, hend]
  · obtain ⟨r, s', hrun, hst⟩ :=
      readBody_irregular (w := w) hreg rq d offset count (w.junk s.tick).int
    refine iff_of_false ?_ fun h => hreg h.1
    rintro ⟨r', s'', hrun', hex⟩
    rw [hrun] at hrun'
    obtain ⟨⟨⟨⟩⟩, rfl⟩ := Prod.mk.inj hrun'
    exact hst hex.status

end

/-! ## A file of three bytes -/

/-- iRODS has the bytes 1, 2, 3 in `/z/home/public/x`; the mirror's `/e/x` is in the handle cache.
-/
def threeBytes : Server Sandbox.Kernel Sandbox.Shelf :=
  Sandbox.shelfServer [Sandbox.item (lit "/e") true]
    { files := [(lit "/e/x", { dev := 1, ino := 5, mode := 0o100600 })] }
    { grid := { objs := [(lit "/z/home/public/x", .data [1, 2, 3])] } }
    (FhCache.add {} 1 5 (lit "/e/x"))

def readWorld : World Sandbox.Kernel Sandbox.Shelf := Sandbox.shelfWorld fun _ => true

def readReq : SvcReq := { remote := 1, uid := 7, gid := 7 }

/-- The handle of `/e/x`. -/
def readHandle : NfsFh3 :=
  { dataLen := 35, obj := { dev := 1, ino := 5, gen := 5, len := 2, inos := [2, 5] } }

theorem readWorld_readsOn : ReadsOn readWorld := by
  intro comm name h b len offset hb
  have hc : Sandbox.contents h.grid name = some b := by
    unfold Sandbox.contents
    rw [show h.grid.objs.lookup name = some (.data b) from hb]
  simp [readWorld, Sandbox.shelfWorld, Sandbox.shelfCall, hc]

/-- The first two bytes are read. -/
theorem read_two_bytes : ∃ r s', nfsproc3Read readWorld readHandle 0 2 readReq threeBytes =
    (.ok r, s') ∧
    r.Exact [1, 2, 3] 0 2 :=
  have hp : prep readWorld readHandle readReq threeBytes =
    (.ok (.ok (lit "/e/x")), (prep readWorld readHandle readReq threeBytes).2) := Prod.ext rfl rfl
  (read_exact_iff readWorld readWorld_readsOn readReq readHandle 0 2 threeBytes _ (lit "/e/x")
    [1, 2, 3] hp ⟨fun h => (nomatch h), rfl⟩ (by decide +kernel) (by decide +kernel)).2
    ⟨by decide +kernel, by decide, by decide, .inl ⟨rfl, by decide⟩⟩

/-- Two bytes from offset 2 on: the caller may open the object, and gets the first two again. -/
theorem read_ignores_offset :
    (prep readWorld readHandle readReq threeBytes).1.toOption = some (.ok (lit "/e/x")) ∧
    readWorld.store threeBytes.rods (targetName readWorld (lit "/e") 7 (lit "/e/x")) =
      some (.data [1, 2, 3]) ∧
    0 ≤ (readOpen readWorld (lit "/e") 7 (lit "/e/x") threeBytes.rods).1.status ∧
    (nfsproc3Read readWorld readHandle 2 2 readReq threeBytes).1.toOption.map (·.data) =
      some [1, 2] ∧
    ¬ ∃ r s', nfsproc3Read readWorld readHandle 2 2 readReq threeBytes = (.ok r, s') ∧
      r.Exact [1, 2, 3] 2 2 := by
  have hdata : (nfsproc3Read readWorld readHandle 2 2 readReq threeBytes).1.toOption.map (·.data) =
      some [1, 2] := by decide +kernel
  refine ⟨rfl, by decide +kernel, by decide +kernel, hdata, ?_⟩
  rintro ⟨r, s', hrun, hex⟩
  rw [hrun] at hdata
  have hr : r.data = [1, 2] := Option.some.inj hdata
  rw [hex.data] at hr
  cases hr

end NfsRods
