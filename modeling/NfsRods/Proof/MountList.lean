import NfsRods.Proof.MountReply
import NfsRods.Proof.FdRun

/-!
# MNT and UMNT

MNT adds an entry for the path that is left when the mount command is taken off its argument; UMNT
removes the entries for its argument as it is. So UMNT undoes MNT for a plain argument
(`mnt_umnt_iff`), and an entry that was made with a mount command stays (`umnt_password`).
-/

namespace NfsRods

open CStr

section
variable {L R : Type} {w : World L R}

/-- UMNT, and UMNTALL with `none`, removes the client's entries for the path. -/
theorem umnt_run (path : Option CStr) (rq : SvcReq) (s : Server L R) :
    ∃ s', umnt w path rq s = (.ok (), s') ∧ s'.mountList =
      s.mountList.filter fun m => !(m.hostname == rq.remote && path.all (· == m.directory)) := by
  rw [umnt, removeMount, Prog.modify_bind_run, Prog.get_bind_run, Prog.when]
  split
  · obtain ⟨cs, s', hrun, hsweep⟩ := fdCachePurge_run (w := w) { s with
      mountList :=
        s.mountList.filter fun m => !(m.hostname == rq.remote && path.all (· == m.directory))
      mountCnt := s.mountCnt -
        s.mountList.countP fun m => m.hostname == rq.remote && path.all (· == m.directory) }
    exact ⟨s', hrun, by rw [hsweep.side]⟩
  · exact ⟨_, rfl, rfl⟩

theorem mntCmd_plain_iff {argp : CStr} (hn : ¬ lit "@getnonce" <+: argp) :
    mntCmd argp = .plain argp ↔ ¬ lit "@password:" <+: argp ∧ ¬ lit "@otp:" <+: argp := by
  rw [mntCmd, if_neg hn]
  by_cases hp : lit "@password:" <+: argp
  · simp [hp]
  · by_cases ho : lit "@otp:" <+: argp <;> simp [hp, ho]

/-- A mount command is taken off the argument. -/
theorem mntCmd_dpath_length {argp : CStr} (hn : ¬ lit "@getnonce" <+: argp)
    (hc : lit "@password:" <+: argp ∨ lit "@otp:" <+: argp) :
    (mntCmd argp).dpath.length < argp.length := by
  have hdrop : ∀ cmd : CStr, cmd <+: argp → cmd ≠ [] →
      (mntCmdArgument argp cmd passwordMaxlen).2.length < argp.length := by
    intro cmd hcmd hne
    have hlen := hcmd.length_le
    have hpos := List.length_pos_iff.2 hne
    simp only [mntCmdArgument, List.length_drop]
    omega
  rw [mntCmd, if_neg hn]
  by_cases hp : lit "@password:" <+: argp
  · rw [if_pos hp]
    exact hdrop _ hp (by decide)
  · have ho := hc.resolve_left hp
    rw [if_neg hp, if_pos ho]
    exact hdrop _ ho (by decide)

end

section
variable {L R : Type} (w : World L R)

/-- UMNT of the argument, sent by the client that has mounted it: the entry is no longer there, and
the others are as they were before the MNT. -/
def Undone (argp : CStr) (rq : SvcReq) (s s1 : Server L R) : Prop :=
  ∃ s2, mountprocUmnt w argp rq s1 = (.ok (), s2) ∧
    { hostname := rq.remote, directory := (mntCmd argp).dpath } ∉ s2.mountList ∧
    s2.mountList.filter (fun m => m.hostname ≠ rq.remote ∨ m.directory ≠ (mntCmd argp).dpath) =
      s.mountList.filter fun m => m.hostname ≠ rq.remote ∨ m.directory ≠ (mntCmd argp).dpath

end

/-- **UMNT undoes MNT exactly if the argument carries no mount command.** -/
theorem mnt_umnt_iff {L R : Type} (w : World L R) (argp : CStr) (rq rq' : SvcReq)
    (s s1 : Server L R)
    (reply : Mountres3) (hn : ¬ lit "@getnonce" <+: argp)
    (hmnt : mountprocMnt w argp rq s = (.ok reply, s1))
    (hok : reply.status = .ok) (hhost : rq'.remote = rq.remote) :
    Undone w argp rq' s s1 ↔ ¬ lit "@password:" <+: argp ∧ ¬ lit "@otp:" <+: argp := by
  have hv : rq.vers = 3 := by
    by_contra hv
    rw [mountprocMnt, if_pos hv] at hmnt
    cases hmnt
    cases hok
  have hcmd : mntCmd argp ≠ .getnonce := by
    rw [mntCmd, if_neg hn]
    split_ifs <;> simp
  obtain ⟨_, s', hrun, -, -, hlist, -⟩ := mountprocMnt_run (w := w) hv hcmd s
  obtain ⟨hreply, rfl⟩ := Prod.mk.inj (hmnt.symm.trans hrun)
  rw [← Except.ok.inj hreply, if_pos hok] at hlist
  obtain ⟨s2, humnt, hlist2⟩ := umnt_run (w := w) (some argp) rq' s1
  rw [hlist, hhost] at hlist2
  rw [Undone, hhost]
  constructor
  -- an argument that is not plain is longer than the path of the entry, which therefore stays
  · rintro ⟨s2', hrun', hgone, -⟩
    obtain ⟨-, rfl⟩ := Prod.mk.inj (humnt.symm.trans hrun')
    by_contra hc
    have hlen := mntCmd_dpath_length hn (by simpa [or_iff_not_imp_left] using hc)
    refine hgone ?_
    rw [hlist2, List.mem_filter]
    refine ⟨by simp, ?_⟩
    have hne : argp ≠ (mntCmd argp).dpath := by
      intro h
      rw [← h] at hlen
      exact lt_irrefl _ hlen
    simp [hne]
  · intro hc
    have hpath : (mntCmd argp).dpath = argp := by rw [(mntCmd_plain_iff hn).2 hc, MntCmd.dpath]
    refine ⟨s2, humnt, ?_, ?_⟩
    · rw [hlist2, hpath, List.mem_filter]
      simp
    · rw [hlist2, hpath, List.filter_filter, List.filter_append]
      simp only [List.filter_cons, List.filter_nil, ne_eq, not_true_eq_false, or_self, decide_false,
        Bool.false_and, Bool.false_eq_true, if_false, List.append_nil]
      refine List.filter_congr fun m _ => ?_
      by_cases hh : m.hostname = rq.remote <;> by_cases hd : argp =
        m.directory <;> simp [hh, hd, Ne.symm]

/-- The daemon exports the removable directory `/m` to those who know the password. -/
def passwordServer : Server Sandbox.Kernel Sandbox.Grid :=
  Sandbox.server [{ path := lit "/m", orig := lit "/m"
                    hosts := [{ options := { removable := true }, password := lit "x" }] }] {} {}

/-- The exported directory without its password. -/
def plainServer : Server Sandbox.Kernel Sandbox.Grid :=
    Sandbox.server [Sandbox.item (lit "/m") true] {} {}

theorem mnt_umnt_plain :
    ∃ s1, (mountprocMnt Sandbox.publicWorld (lit "/m") mediaReq plainServer).2 = s1 ∧
    s1.mountList = [{ hostname := 0, directory := lit "/m" }] ∧
    Undone Sandbox.publicWorld (lit "/m") mediaReq plainServer s1 := by
  obtain ⟨reply, hrep, hok⟩ := Sandbox.replied (f := Mountres3.status) (v := .ok)
    (show (mountprocMnt Sandbox.publicWorld (lit "/m") mediaReq plainServer).1.toOption.map
      (·.status) = some .ok by
      decide +kernel)
  refine ⟨_, rfl, by decide +kernel, ?_⟩
  exact (mnt_umnt_iff Sandbox.publicWorld (lit "/m") mediaReq mediaReq plainServer _ reply
    (by decide) (by rw [← hrep]) hok rfl).2 ⟨by decide, by decide⟩

/-- `/m` is mounted with its password; UMNT with the same argument leaves the entry. -/
theorem umnt_password : ∃ s1 s2, Initial passwordServer ∧
    (mountprocMnt Sandbox.publicWorld (lit "@password:x/m") mediaReq passwordServer).1.toOption.map
      (·.status) =
      some .ok ∧
    (mountprocMnt Sandbox.publicWorld (lit "@password:x/m") mediaReq passwordServer).2 = s1 ∧
    (mountprocUmnt Sandbox.publicWorld (lit "@password:x/m") mediaReq s1).2 = s2 ∧
    { hostname := 0, directory := lit "/m" } ∈ s2.mountList ∧ s2.mountCnt = 1 :=
  ⟨_, _, ⟨_, _, _, _, _, _, rfl⟩, by decide +kernel, rfl, rfl, by decide +kernel, by decide +kernel⟩

end NfsRods
