import NfsRods.Lib.CodecSize
import NfsRods.Proof.MountList
import NfsRods.Proof.MountTable
import NfsRods.Proof.Sendable

/-!
# What MOUNT answers

* `mnt_lost_iff`: MNT of a directory with a handle that is too long adds its entry and fails.
* `dump_answered`: whatever has been mounted and unmounted, DUMP answers with all of the list if the
  transport has room for it.
* `exports_sent_iff`: EXPORT answers unless a name in the exports file is too long, or the list is
  for a datagram.
-/

namespace NfsRods

open CStr Xdr
open Codec (Union)

/-! ## Strings -/

/-- A string that `xdr_name` passes. -/
def NameFits (s : CStr) : Prop := 0 ∉ s ∧ s.length ≤ 255

theorem exact_name : Wire.xdrName.Exact NameFits := Codec.exact_string (by decide)

/-- An address is written with 15 characters at most. -/
theorem nameFits_inetNtoa (a : UInt32) : NameFits (inetNtoa a) := by
  have hlen : ∀ n, n < 256 → (decimal n).length ≤ 3 := by decide +kernel
  have hbyte : ∀ i, addressByte a i < 256 := fun i => Nat.mod_lt _ (by decide)
  constructor
  · have hnul : ∀ n, (0 : UInt8) ∉ decimal n := by
      intro n h
      have := (mem_decimal h).1
      simp at this
    simp [inetNtoa, hnul]
  · have h0 := hlen _ (hbyte 0)
    have h1 := hlen _ (hbyte 1)
    have h2 := hlen _ (hbyte 2)
    have h3 := hlen _ (hbyte 3)
    simp only [inetNtoa, List.length_append, List.length_cons]
    omega

/-- What is left of an argument when its mount command is taken off. -/
theorem mntCmd_dpath_suffix (argp : CStr) : (mntCmd argp).dpath <:+ argp := by
  have harg : ∀ cmd, (mntCmdArgument argp cmd passwordMaxlen).2 <:+ argp := fun cmd =>
    (List.drop_suffix _ _).trans (List.drop_suffix _ _)
  unfold mntCmd
  split
  · exact List.nil_suffix
  · split
    · exact harg _
    · split
      · exact harg _
      · exact List.suffix_refl argp

theorem DirpathFits.suffix {s t : CStr} (h : DirpathFits t) (hst : s <:+ t) : DirpathFits s :=
  ⟨fun h0 => h.1 (hst.subset h0), hst.length_le.trans h.2⟩

/-! ## Results -/

theorem exact_mountlist : Wire.xdrMountlist.Exact fun l =>
    ∀ m ∈ l, NameFits m.hostname ∧ DirpathFits m.directory :=
  (exact_name.seq exact_dirpath).iso.linked

theorem exact_exports : Wire.xdrExports.Exact fun l =>
    ∀ e ∈ l, DirpathFits e.dir ∧ ∀ g ∈ e.groups, NameFits g :=
  (exact_dirpath.seq exact_name.linked).iso.linked

theorem exact_mountres3 : Wire.xdrMountres3.Exact (Union.Holds
    (fun r => r.fhandle.length ≤ nfs3FhSize ∧ r.authFlavors.length ≤ Wire.noLimit / 4 ∧
      ∀ a ∈ r.authFlavors, True) fun _ => True) :=
  Codec.exact_word.union ((Codec.exact_bytes (show nfs3FhSize < 2 ^ 32 by decide)).seq
    (Codec.exact_word.array (by decide))).iso Codec.exact_void

theorem mountstat_eq_zero {status : Mountstat3} : status.code = 0 ↔ status = .ok := by
  cases status <;> decide

theorem mountres3_sent (r : Mountres3) :
    (∃ results, sendreply Wire.xdrMountres3 (mountres3 r) = .reply results) ↔
      (r.status = .ok → ∀ info ∈ r.info, info.fhandle.length ≤ nfs3FhSize) := by
  refine (sendreply_iff exact_mountres3 _).trans ?_
  unfold mountres3
  by_cases h : r.status = .ok
  · rw [dif_pos (mountstat_eq_zero.2 h)]
    show _ ∧ _ ↔ _
    cases hinfo : r.info <;> simp [h, nfs3FhSize, Wire.noLimit]
  · rw [dif_neg (mt mountstat_eq_zero.1 h)]
    exact iff_of_true trivial fun hok => absurd hok h

/-! ## Room -/

open Codec (roundUp)

/-- What the encoders write of a mount list. -/
def mountlistSize (l : List MountEntry) : Nat :=
  4 + (l.map fun m =>
    4 + roundUp (inetNtoa m.hostname).length + (4 + roundUp m.directory.length) + 4).sum

/-- What the encoders write of an export list. -/
def exportsSize (l : List EItem) : Nat :=
  4 + (l.map fun i => 4 + roundUp i.orig.length +
    (4 + (i.hosts.map fun h => 4 + roundUp h.orig.length + 4).sum) + 4).sum

theorem takes_mountlist : Wire.xdrMountlist.Takes fun l =>
    4 + (l.map fun m => 4 + roundUp m.hostname.length + (4 + roundUp m.directory.length) + 4).sum :=
  ((Codec.takes_string _).seq (Codec.takes_string _)).iso.linked

theorem takes_exports : Wire.xdrExports.Takes fun l =>
    4 + (l.map fun e => 4 + roundUp e.dir.length +
      (4 + (e.groups.map fun g => 4 + roundUp g.length + 4).sum) + 4).sum :=
  ((Codec.takes_string _).seq (Codec.takes_string _).linked).iso.linked

/-- A result that takes `n` bytes is sent if there is room for them. -/
theorem sendreplyTo_eq_ite {Res : Type} {xdrResult : Codec Res} {n : Res → Nat}
    (hn : xdrResult.Takes n) (rq : SvcReq) (res : Res) :
    sendreplyTo rq xdrResult res =
      if rq.HasRoom (n res) then sendreply xdrResult res else .systemerr := by
  unfold sendreplyTo sendreply
  cases henc : xdrResult.encode res with
  | none => simp only [ite_self]
  | some results =>
    dsimp only
    rw [hn res results henc]

/-- There is always room for a result of MNT. -/
theorem mountres3_room (rq : SvcReq) (r : Mountres3) :
    sendreplyTo rq Wire.xdrMountres3 (mountres3 r) = sendreply Wire.xdrMountres3 (mountres3 r) := by
  have hok : Wire.xdrMountres3Ok.Within fun r => 68 + (4 + (r.authFlavors.map fun _ => 4).sum) :=
    ((Codec.within_bytes 64).seq (Codec.takes_word.array _).bound).iso
  have hwithin := Codec.takes_word.bound.union (c := 0) hok Codec.takes_void.bound (mountres3 r)
  have hle : ∀ out, Wire.xdrMountres3.encode (mountres3 r) = some out → out.length ≤ 80 := by
    intro out henc
    refine (hwithin out henc).trans ?_
    unfold mountres3
    split
    · exact Nat.le_refl 80
    · exact Nat.le_add_left 4 76
  unfold sendreplyTo sendreply
  cases henc : Wire.xdrMountres3.encode (mountres3 r) with
  | none => rfl
  | some out =>
    have hheader := header_le rq
    have hout := hle out henc
    exact if_pos (.inr (by unfold rpcHeaderMax at hheader; unfold nfsMaxUdpPacket; omega))

section
variable {L R : Type} (w : World L R)

/-- **MNT that is done and not told.** A MNT is answered with a system error exactly when its reply
carries a handle of more than `FHSIZE3` bytes; the directory is in the mount list all the same. -/
theorem mnt_lost_iff (rq : SvcReq) (msg : List UInt8) (s : Server L R) :
    ((dispatchMount w rq 1 msg s).1 = .ok .systemerr ↔
      ∃ argp rest info, Wire.xdrDirpath.decode msg = some (argp, rest) ∧
        (mntReply w argp rq s).status = .ok ∧ (mntReply w argp rq s).info = some info ∧
          nfs3FhSize < info.fhandle.length) ∧
    ∀ argp rest, Wire.xdrDirpath.decode msg = some (argp, rest) →
      (dispatchMount w rq 1 msg s).2.mountList = s.mountList ++
        if (mntReply w argp rq s).isMounted then
          [{ hostname := rq.remote, directory := (mntCmd argp).dpath }] else [] := by
  cases hdec : Wire.xdrDirpath.decode msg with
  | none =>
    have hrun : dispatchMount w rq 1 msg s = (.ok .decode, s) := by
      simp only [dispatchMount, mountprog3, MountProc.answer, hdec]
      rfl
    simp [hrun]
  | some r =>
    obtain ⟨argp, rest⟩ := r
    obtain ⟨s', hmnt, hentry⟩ := mountprocMnt_entry (w := w) argp rq s
    have hrun : dispatchMount w rq 1 msg s =
        (.ok (sendreply Wire.xdrMountres3 (mountres3 (mntReply w argp rq s))), s') := by
      rw [← mountres3_room rq]
      simp only [dispatchMount, mountprog3, MountProc.answer, hdec]
      rw [Prog.bind_assoc, Prog.bind_ok hmnt]
      rfl
    rw [hrun]
    refine ⟨?_, ?_⟩
    · rw [Except.ok.injEq, sendreply_systemerr_iff, mountres3_sent]
      constructor
      · intro h
        by_contra hnone
        refine h fun hok info hinfo => ?_
        by_contra hlong
        exact hnone ⟨argp, rest, info, rfl, hok, hinfo, not_le.1 hlong⟩
      · rintro ⟨argp', rest', info, heq, hok, hinfo, hlong⟩ h
        cases heq
        exact absurd (h hok info hinfo) (not_le.2 hlong)
    · intro argp' rest' heq
      cases heq
      split at hentry
      · rename_i hm
        rw [if_pos hm]
        exact hentry.1
      · rename_i hm
        rw [if_neg hm, List.append_nil]
        exact hentry.1

/-! ## DUMP and EXPORT -/

/-- The states between MOUNT messages, in any order and from any client; nothing else touches the
mount list. -/
inductive MountTalk : Server L R → Prop
  | start {s : Server L R} (h : Initial s) : MountTalk s
  | message {s s' : Server L R} (h : MountTalk s) (rq : SvcReq) (rqProc : Nat) (msg : List UInt8)
    {a : Answer} (ha : dispatchMount w rq rqProc msg s = (.ok a, s')) : MountTalk s'
  | other {s s' : Server L R} (h : MountTalk s) (hs : s'.mountList = s.mountList) : MountTalk s'

variable {w}

/-- A request adds no entry to the mount list but the directory of a MNT. -/
theorem serveMount_list {rq : SvcReq} {q : MountRequest} (hq : q.Typed) {s s' : Server L R}
    (h : serveMount w rq q s = (.ok (), s')) (hs : ∀ m ∈ s.mountList, DirpathFits m.directory) :
    ∀ m ∈ s'.mountList, DirpathFits m.directory := by
  have humnt : ∀ path, umnt w path rq s = (.ok (), s') →
      ∀ m ∈ s'.mountList, DirpathFits m.directory := by
    intro path hrun m hm
    obtain ⟨s1, hrun', hlist⟩ := umnt_run (w := w) path rq s
    rw [hrun] at hrun'
    cases hrun'
    rw [hlist] at hm
    exact hs m (List.mem_of_mem_filter hm)
  cases q with
  | null =>
    cases h
    exact hs
  | dump =>
    cases h
    exact hs
  | umnt argp => exact humnt _ h
  | umntall => exact humnt _ h
  | mnt argp =>
    obtain ⟨s1, hmnt, hentry⟩ := mountprocMnt_entry (w := w) argp rq s
    have hs1 : s1 = s' := by
      rw [serveMount, Prog.bind_ok hmnt] at h
      exact congrArg Prod.snd h
    rw [hs1] at hentry
    split at hentry
    · intro m hm
      rw [hentry.1, List.mem_append, List.mem_singleton] at hm
      rcases hm with hm | rfl
      · exact hs m hm
      · exact DirpathFits.suffix hq (mntCmd_dpath_suffix argp)
    · rw [hentry.1]
      exact hs

theorem MountTalk.fits {s : Server L R} (h : MountTalk w s) :
    ∀ m ∈ s.mountList, DirpathFits m.directory := by
  induction h with
  | start h =>
    obtain ⟨_, _, _, _, _, _, rfl⟩ := h
    intro m hm
    cases hm
  | message _ rq rqProc msg ha ih =>
    rcases dispatchMount_effect ha with rfl | ⟨q, hq, hserve⟩
    · exact ih
    · exact serveMount_list hq hserve ih
  | other _ hs ih =>
    rw [hs]
    exact ih

/-- **When DUMP is answered.** Whatever messages clients have sent to the MOUNT program, in whatever
order: on a stream, and in a datagram that has room for it, the result of DUMP is sent and read back
as the whole mount list, with the address of each client in dotted form. In a datagram without room
for the list the client gets a system error. -/
theorem dump_answered {s : Server L R} (h : MountTalk w s) (rq : SvcReq) (msg : List UInt8) :
    (rq.HasRoom (mountlistSize s.mountList) →
      ∃ results, dispatchMount w rq 2 msg s = (.ok (.reply results), s) ∧
        ∀ more, Wire.xdrMountlist.decode (results ++ more) =
          some (s.mountList.map fun m =>
            { hostname := inetNtoa m.hostname, directory := m.directory }, more)) ∧
    (¬ rq.HasRoom (mountlistSize s.mountList) →
      dispatchMount w rq 2 msg s = (.ok .systemerr, s)) := by
  have hfits : ∀ m ∈ mountlist s.mountList, NameFits m.hostname ∧ DirpathFits m.directory := by
    intro m hm
    obtain ⟨e, he, rfl⟩ := List.mem_map.1 hm
    exact ⟨nameFits_inetNtoa _, h.fits e he⟩
  have hsize : 4 + ((mountlist s.mountList).map fun m =>
      4 + roundUp m.hostname.length + (4 + roundUp m.directory.length) + 4).sum =
        mountlistSize s.mountList := by
    rw [mountlist, List.map_map]
    rfl
  have hrun : dispatchMount w rq 2 msg s =
      (.ok (sendreplyTo rq Wire.xdrMountlist (mountlist s.mountList)), s) := rfl
  rw [hrun, sendreplyTo_eq_ite takes_mountlist, hsize]
  refine ⟨fun hroom => ?_, fun hroom => by rw [if_neg hroom]⟩
  rw [if_pos hroom]
  rcases sendreply_cases Wire.xdrMountlist (mountlist s.mountList) with
    ⟨-, hnone⟩ | ⟨results, hsent, hread⟩
  · obtain ⟨out, hout⟩ := (exact_mountlist _).2 hfits
    rw [hnone] at hout
    cases hout
  · exact ⟨results, by rw [hsent], hread⟩

end

/-- `/m` has been mounted by the client 0.0.0.0. -/
theorem dump_answered_mounted :
    ∃ s,
      (dispatchMount Sandbox.publicWorld wireReq 1 [0, 0, 0, 2, 47, 109, 0, 0] wireServer).2 = s ∧
      ∃ results, dispatchMount Sandbox.publicWorld wireReq 2 [] s = (.ok (.reply results), s) ∧
        ∀ more, Wire.xdrMountlist.decode (results ++ more) =
          some ([{ hostname := lit "0.0.0.0", directory := lit "/m" }], more) := by
  obtain ⟨a, s, hrun⟩ : ∃ a s,
      dispatchMount Sandbox.publicWorld wireReq 1 [0, 0, 0, 2, 47, 109, 0, 0] wireServer =
        (.ok a, s) := by
    obtain ⟨s', hmnt, -⟩ :=
      mountprocMnt_entry (w := Sandbox.publicWorld) (lit "/m") wireReq wireServer
    exact ⟨_, s', Prog.bind_ok (Prog.bind_ok hmnt)⟩
  have hs : s = (dispatchMount Sandbox.publicWorld wireReq 1 [0, 0, 0, 2, 47, 109, 0, 0]
    wireServer).2 := by rw [hrun]
  have htalk : MountTalk Sandbox.publicWorld s :=
    .message (.start ⟨_, _, _, _, _, _, rfl⟩) wireReq 1 _ hrun
  obtain ⟨results, hdump, hread⟩ := (dump_answered htalk wireReq []).1 (.inl rfl)
  refine ⟨s, hs.symm, results, hdump, fun more => ?_⟩
  rw [hread more, hs]
  have hlist : (dispatchMount Sandbox.publicWorld wireReq 1 [0, 0, 0, 2, 47, 109, 0, 0]
      wireServer).2.mountList = [{ hostname := 0, directory := lit "/m" }] := by decide +kernel
  rw [hlist]
  rfl

/-- **When EXPORT answers.** The result of EXPORT is sent exactly when each exported directory has
at most 1024 bytes and each host's name 255, none has a NUL, and a datagram that asks for it has
room for the whole list; otherwise the client gets a system error, whatever it may mount. -/
theorem exports_sent_iff {L R : Type} (w : World L R) (rq : SvcReq) (msg : List UInt8)
    (s : Server L R) :
    (∃ results, dispatchMount w rq 5 msg s = (.ok (.reply results), s) ∧
      ∀ more, Wire.xdrExports.decode (results ++ more) =
        some (exportsList (s.exportList.map EItem.node), more)) ↔
    (∀ i ∈ s.exportList, DirpathFits i.orig ∧ ∀ h ∈ i.hosts, NameFits h.orig) ∧
      rq.HasRoom (exportsSize s.exportList) := by
  have hrun : dispatchMount w rq 5 msg s =
      (.ok (sendreplyTo rq Wire.xdrExports (exportsList (s.exportList.map EItem.node))), s) := rfl
  have hfits : (∀ e ∈ exportsList (s.exportList.map EItem.node),
      DirpathFits e.dir ∧ ∀ g ∈ e.groups, NameFits g) ↔
      ∀ i ∈ s.exportList, DirpathFits i.orig ∧ ∀ h ∈ i.hosts, NameFits h.orig := by
    simp only [exportsList, EItem.node, List.forall_mem_map]
  have hsize : 4 + ((exportsList (s.exportList.map EItem.node)).map fun e =>
      4 + roundUp e.dir.length +
        (4 + (e.groups.map fun g => 4 + roundUp g.length + 4).sum) + 4).sum =
          exportsSize s.exportList := by
    simp only [exportsList, exportsSize, EItem.node, List.map_map, Function.comp_def]
  rw [hrun, sendreplyTo_eq_ite takes_exports, hsize]
  refine Iff.trans ?_ (and_congr_left fun _ => (exact_exports _).trans hfits)
  constructor
  · rintro ⟨results, hsent, -⟩
    split at hsent
    · rename_i hroom
      unfold sendreply at hsent
      split at hsent
      · rename_i out hout
        exact ⟨⟨out, hout⟩, hroom⟩
      · cases hsent
    · cases hsent
  · rintro ⟨⟨out, hout⟩, hroom⟩
    exact ⟨out, by rw [if_pos hroom, sendreply, hout], Wire.xdrExports.decode_encode hout⟩

end NfsRods
