import NfsRods.Proof.MountPassword
import NfsRods.Serve

/-!
# What MNT replies

MNT resolves its path, asks the export list about the directory it has found and composes a handle.
All this depends on the exports, the file system and the request, except for the first step: whether
the path is resolved at all is decided by `exports_opts`, which a plain MNT finds as the request
before has left it.

* `mountReply`: the reply for a directory, as a function.
* `mountprocMnt_run`: MNT replies it, and what it leaves.
* `mnt_history_iff`: the replies of all runs are the same exactly where it makes no difference
  whether an export point is resolved; `mnt_after_export` has a removable export that can be mounted
  by the first request only.
-/

namespace NfsRods

open CStr

section
variable {L R : Type} (w : World L R)

/-- The path does not fit in a reply. -/
def TooLong (dir : CStr) : Prop := maxPathLen < dir.length + 1

/-- The client may not mount the directory. -/
def Barred (list : List EItem) (rq : SvcReq) (authenticated : Bool) (dir : CStr) : Prop :=
  let k := exportsOptions list rq.remote (some dir) {}
  k.vars.opts = none ∨ (authenticated = false ∧ k.password.getD [] ≠ []) ∨
    (k.vars.bit (·.insecure) = false ∧ 1024 ≤ rq.port)

instance (dir : CStr) : Decidable (TooLong dir) := inferInstanceAs (Decidable (_ < _))

instance (list : List EItem) (rq : SvcReq) (authenticated : Bool) (dir : CStr) :
    Decidable (Barred list rq authenticated dir) := inferInstanceAs (Decidable (_ ∨ _))

/-- The handle of the directory. -/
def mountFh (list : List EItem) (k : L) (rq : SvcReq) (dir : CStr) : Unfs3Fh :=
  let v := exportsOptions list rq.remote (some dir) {}
  let fh := if exportPoint list dir = true ∧ v.vars.bit (·.removable) = true then
      { dev := v.fsid.getD 0, ino := 1 }
    else fhCompPath w k dir true
  { fh with pwhash := v.vars.passwordHash }

/-- The reply for the directory that the path has been resolved to. -/
def mountReply (list : List EItem) (k : L) (rq : SvcReq) (authenticated : Bool) :
    Option CStr → Mountres3
  | none => { status := .noent }
  | some dir =>
    if TooLong dir then { status := .nametoolong }
    else if Barred list rq authenticated dir then { status := .acces }
    else if fhValid (mountFh w list k rq dir) = false then { status := .notdir }
    else { status := .ok, info := some (.mounted (mountFh w list k rq dir)) }

/-- The reply of MNT. -/
def mntReply (argp : CStr) (rq : SvcReq) (s : Server L R) : Mountres3 :=
  if rq.vers ≠ 3 then { status := .inval }
  else if mntCmd argp = .getnonce then
    { status := .ok, info := some (.nonce (w.genNonce s.nonces)) }
  else mountReply w s.exportList s.kernel rq (authentic w (mntCmd argp) rq s)
    (mountedDir w argp rq s)

/-- The directory that a path is resolved to, where `exports_opts` has the bit `removable` or not.
-/
def dirFor (list : List EItem) (k : L) (removable : Bool) (dpath : CStr) : Option CStr :=
  if removable && exportPoint list dpath then some dpath else w.realpath k dpath

end

section
variable {L R : Type} {w : World L R} {s : Server L R} {rq : SvcReq}

/-- `s'` differs from `s` in what MNT of a path changes. -/
def MntSide (s s' : Server L R) : Prop :=
  s' = { s with exports := s'.exports, fh := s'.fh, mountList := s'.mountList
                mountCnt := s'.mountCnt }

theorem fhComp_run {dir : CStr} (s : Server L R)
    (ho : (exportsOptions s.exportList rq.remote (some dir) {}).vars.opts ≠ none)
    (hx : s.exports = (exportsOptions s.exportList rq.remote (some dir) {}).vars) :
    ∃ c, fhComp w dir rq true s =
      (.ok (mountFh w s.exportList s.kernel rq dir), { s with fh := c }) := by
  have hlook : ∀ f : Lookup → M L R Unfs3Fh, (exportsOptionsM (some dir) rq >>= f) s =
      f (exportsOptions s.exportList rq.remote (some dir) {}) s := by
    intro f
    rw [exportsOptionsM_bind, exportsOptions_eq ho, ← hx]
  have hraw : ∃ res, fhCompRaw w dir (some rq) true s = (.ok res, s) ∧
      { res with pwhash := s.exports.passwordHash } = mountFh w s.exportList s.kernel rq dir := by
    rw [fhCompRaw, Prog.get_bind_run]
    dsimp only
    rw [Prog.ite_run, hlook, Prog.ite_run, if_neg ho, Prog.ite_run, mountFh, hx]
    by_cases hp : exportPoint s.exportList dir = true
    · rw [if_pos hp]
      by_cases hb :
        (exportsOptions s.exportList rq.remote (some dir) {}).vars.bit (·.removable) = true
      · rw [if_pos hb]
        exact ⟨_, rfl, by rw [if_pos ⟨hp, hb⟩]⟩
      · rw [if_neg hb]
        exact ⟨_, rfl, by rw [if_neg fun h => hb h.2]⟩
    · rw [if_neg hp]
      exact ⟨_, rfl, by rw [if_neg fun h => hp h.1]⟩
  obtain ⟨res, hres, hfh⟩ := hraw
  rw [fhComp, Prog.bind_ok hres, ← hfh, Prog.when]
  split
  · exact ⟨_, rfl⟩
  · exact ⟨s.fh, rfl⟩

/-- MNT of a path replies for the directory it resolves to, and adds an entry to the mount list if
it has mounted it. -/
theorem mntPath_run (dpath : CStr) (authenticated : Bool) (rq : SvcReq) (s : Server L R) :
    ∃ s', mntPath w dpath authenticated rq s =
        (.ok (mountReply w s.exportList s.kernel rq authenticated (mountDir w s dpath)), s') ∧
      MntSide s s' ∧ (s'.mountList =
        if (mountReply w s.exportList s.kernel rq authenticated (mountDir w s dpath)).status =
          .ok then s.mountList ++ [{ hostname := rq.remote, directory := dpath }]
        else s.mountList) ∧ s'.mountCnt =
        if (mountReply w s.exportList s.kernel rq authenticated (mountDir w s dpath)).status =
          .ok then s.mountCnt + 1 else s.mountCnt := by
  rw [mntPath, Prog.get_bind_run]
  cases mountDir w s dpath with
  | none => exact ⟨s, rfl, rfl, rfl, rfl⟩
  | some dir =>
    dsimp only
    rw [Prog.ite_run, mountReply]
    by_cases hlong : TooLong dir
    · rw [if_pos (show maxPathLen < dir.length + 1 from hlong), if_pos hlong]
      exact ⟨s, rfl, rfl, rfl, rfl⟩
    rw [if_neg (show ¬ maxPathLen < dir.length + 1 from hlong), if_neg hlong, exportsOptionsM_bind,
      Prog.ite_run]
    have hsame := exportsOptions_same s.exportList rq.remote (some dir) s.exports {}
    have hbar : ((exportsOptions s.exportList rq.remote (some dir) s.exports).vars.opts = none ∨
        (authenticated = false ∧
          (exportsOptions s.exportList rq.remote (some dir) s.exports).password.getD [] ≠ []) ∨
        ((exportsOptions s.exportList rq.remote (some dir) s.exports).vars.bit (·.insecure) = false
          ∧ 1024 ≤ rq.port)) ↔ Barred s.exportList rq authenticated dir := by
      rw [Barred, hsame.2.1, ExportVars.bit, hsame.2.2]
      rfl
    by_cases hb : Barred s.exportList rq authenticated dir
    · rw [if_pos (hbar.2 hb), if_pos hb]
      exact ⟨_, rfl, rfl, rfl, rfl⟩
    rw [if_neg (fun h => hb (hbar.1 h)), if_neg hb]
    have ho : (exportsOptions s.exportList rq.remote (some dir) {}).vars.opts ≠ none :=
      fun h => hb (.inl h)
    obtain ⟨c, hc⟩ := fhComp_run (w := w) { s with exports :=
      (exportsOptions s.exportList rq.remote (some dir) s.exports).vars } ho
        (exportsOptions_vars ho _)
    rw [Prog.bind_ok hc, Prog.ite_run]
    cases hv : fhValid (mountFh w s.exportList s.kernel rq dir) with
    | false => exact ⟨_, rfl, rfl, rfl, rfl⟩
    | true => exact ⟨_, rfl, rfl, rfl, rfl⟩

/-- **MNT** of a path: its reply, and what it leaves of the mount list and the nonce. -/
theorem mountprocMnt_run {argp : CStr} (hv : rq.vers = 3) (hn : mntCmd argp ≠ .getnonce)
    (s : Server L R) :
    ∃ s1 s', mountprocMnt w argp rq s = (.ok (mntReply w argp rq s), s') ∧
      authenticate w (mntCmd argp) rq s = (.ok (authentic w (mntCmd argp) rq s), s1) ∧
        MntSide s1 s' ∧
      (s'.mountList = if (mntReply w argp rq s).status = .ok then
          s.mountList ++ [{ hostname := rq.remote, directory := (mntCmd argp).dpath }]
        else s.mountList) ∧
      s'.mountCnt = if (mntReply w argp rq s).status = .ok then s.mountCnt + 1
        else s.mountCnt := by
  obtain ⟨nonce, nonces, ha, _⟩ := authenticate_run (w := w) (mntCmd argp) rq s
  generalize hs1 :
    ({ s with exports := sentVars (mntCmd argp) rq s, nonce := nonce, nonces := nonces } :
      Server L R) = s1 at ha
  obtain ⟨s', hp, hside, hlist, hcnt⟩ :=
    mntPath_run (w := w) (mntCmd argp).dpath (authentic w (mntCmd argp) rq s) rq s1
  have hdir : mountDir w s1 (mntCmd argp).dpath = mountedDir w argp rq s := by
    rw [← hs1, mountDir, mountedDir]
    cases hc : mntCmd argp with
    | getnonce => exact absurd hc hn
    | _ => rfl
  have hreply : mntReply w argp rq s = mountReply w s1.exportList s1.kernel rq
      (authentic w (mntCmd argp) rq s) (mountDir w s1 (mntCmd argp).dpath) := by
    rw [mntReply, if_neg (by simp [hv]), if_neg hn, hdir, ← hs1]
  refine ⟨s1, s', ?_, ha, hside, ?_, ?_⟩
  · rw [hreply, ← hp, ← Prog.bind_ok (f := fun a => mntPath w (mntCmd argp).dpath a rq) ha]
    simp only [mountprocMnt, hv, ne_eq, not_true_eq_false, ↓reduceIte]
  · rw [hreply, hlist, ← hs1]
  · rw [hreply, hcnt, ← hs1]

theorem mountprocMnt_reply (argp : CStr) (rq : SvcReq) (s : Server L R) :
    (mountprocMnt w argp rq s).1 = .ok (mntReply w argp rq s) := by
  by_cases hv : rq.vers = 3
  · by_cases hn : mntCmd argp = .getnonce
    · simp only [mountprocMnt, mntReply, hv, hn, ne_eq, not_true_eq_false, if_false, if_true]
      rfl
    · obtain ⟨_, s', h, _⟩ := mountprocMnt_run (w := w) hv hn s
      rw [h]
  · simp only [mountprocMnt, mntReply, ne_eq, hv, not_false_eq_true, if_true]
    rfl

end

/-! ## Two histories -/

section
variable {L R : Type} (w : World L R)

/-- A client without a password is told the same of both directories. -/
def Indistinct (list : List EItem) (k : L) (rq : SvcReq) (a b : CStr) : Prop :=
  (TooLong a ∧ TooLong b) ∨ ¬ TooLong a ∧ ¬ TooLong b ∧
    ((Barred list rq false a ∧ Barred list rq false b) ∨ ¬ Barred list rq false a ∧
      ¬ Barred list rq false b ∧
      ((fhValid (mountFh w list k rq a) = false ∧ fhValid (mountFh w list k rq b) = false) ∨
        fhValid (mountFh w list k rq a) = true ∧ mountFh w list k rq a = mountFh w list k rq b))

/-- Whatever the daemon has done before, the reply to MNT is the same for the same exports, file
system and nonce. -/
def HistoryFree (list : List EItem) (k : L) (argp : CStr) (rq : SvcReq) : Prop :=
  ∀ log log' s s', Runs w log (some s) → Runs w log' (some s') → s.exportList = list →
    s'.exportList = list →
    s.kernel = k → s'.kernel = k → s'.nonce = s.nonce → s'.nonces = s.nonces →
    (mountprocMnt w argp rq s').1 = (mountprocMnt w argp rq s).1

/-- If the request is a plain MNT of an export point, it makes no difference whether the path is
resolved. -/
def MntSettled (list : List EItem) (k : L) (argp : CStr) (rq : SvcReq) : Prop :=
  rq.vers = 3 → ∀ dpath, mntCmd argp = .plain dpath → exportPoint list dpath = true →
    ∃ dir, w.realpath k dpath = some dir ∧ Indistinct w list k rq dpath dir

end

section
variable {L R : Type} {w : World L R}

theorem mountReply_noent {list : List EItem} {k : L} {rq : SvcReq} {auth : Bool} (a : CStr) :
    mountReply w list k rq auth (some a) ≠ { status := .noent } := by
  rw [mountReply]
  split
  · simp
  · split
    · simp
    · split <;> simp

theorem mountReply_eq_iff {list : List EItem} {k : L} {rq : SvcReq} {a : CStr} {b : Option CStr} :
    mountReply w list k rq false (some a) = mountReply w list k rq false b ↔
      ∃ dir, b = some dir ∧ Indistinct w list k rq a dir := by
  cases b with
  | none => simp [mountReply_noent a, mountReply.eq_1]
  | some b =>
    simp only [Option.some.injEq, exists_eq_left', mountReply, Indistinct]
    by_cases ha : TooLong a <;> by_cases hb : TooLong b
    · simp [ha, hb]
    · simp only [ha, hb, if_true, if_false, and_false, not_true_eq_false, false_and, or_self,
        iff_false]
      split_ifs <;> simp
    · simp only [ha, hb, if_true, if_false, and_false, not_true_eq_false, false_and, or_self,
        iff_false]
      split_ifs <;> simp
    · simp only [ha, hb, if_false, and_self, not_false_eq_true, true_and, false_or]
      by_cases ba : Barred list rq false a <;> by_cases bb : Barred list rq false b
      · simp [ba, bb]
      · simp only [ba, bb, if_true, if_false, and_false, not_true_eq_false, false_and, or_self,
          iff_false]
        split_ifs <;> simp
      · simp only [ba, bb, if_true, if_false, and_false, not_true_eq_false, false_and, or_self,
          iff_false]
        split_ifs <;> simp
      · simp only [ba, bb, if_false, and_self, not_false_eq_true, true_and, false_or]
        have hcongr : mountFh w list k rq a = mountFh w list k rq b →
            fhValid (mountFh w list k rq a) = fhValid (mountFh w list k rq b) := fun h => by rw [h]
        cases va : fhValid (mountFh w list k rq a) <;>
          cases vb : fhValid (mountFh w list k rq b) <;>
          simp only [va, vb, reduceCtorEq, imp_false] at hcongr ⊢ <;> simp [hcongr]

theorem mountedDir_eq {argp : CStr} (hn : mntCmd argp ≠ .getnonce) (rq : SvcReq) (s : Server L R) :
    mountedDir w argp rq s = dirFor w s.exportList s.kernel
      ((sentVars (mntCmd argp) rq s).bit (·.removable)) (mntCmd argp).dpath := by
  rw [mountedDir]
  cases hc : mntCmd argp with
  | getnonce => exact absurd hc hn
  | _ => rfl

theorem authentic_plain (p : CStr) (rq : SvcReq) (s : Server L R) :
    authentic w (.plain p) rq s = false := by
  simp [authentic, MntCmd.carries]

/-- A mount command puts the options of its own path in force. -/
theorem sentVars_bit {cmd : MntCmd} {rq : SvcReq} {s s' : Server L R}
    (hl : s'.exportList = s.exportList)
    (hcmd : ∀ p, cmd ≠ .plain p) (hn : cmd ≠ .getnonce) :
    (sentVars cmd rq s').bit (·.removable) = (sentVars cmd rq s).bit (·.removable) := by
  have hopts := fun p => (lookup_opts s.exportList rq.remote p s'.exports).trans
    (lookup_opts s.exportList rq.remote p s.exports).symm
  cases cmd with
  | getnonce => exact absurd rfl hn
  | plain p => exact absurd rfl (hcmd p)
  | password pw p => rw [sentVars, sentVars, ExportVars.bit, ExportVars.bit, hl, hopts]
  | otp digest p => rw [sentVars, sentVars, ExportVars.bit, ExportVars.bit, hl, hopts]

/-- What was done before shows in no reply. -/
theorem mntReply_same {argp : CStr} {rq : SvcReq} {s s' : Server L R}
    (hset : MntSettled w s.exportList s.kernel argp rq) (hl : s'.exportList = s.exportList)
    (hk : s'.kernel = s.kernel) (hn : s'.nonce = s.nonce) (hc : s'.nonces = s.nonces) :
    mntReply w argp rq s' = mntReply w argp rq s := by
  have hauth : ∀ cmd, authentic w cmd rq s' = authentic w cmd rq s := by
    intro cmd
    rw [authentic, authentic, hl, hn]
  rw [mntReply, mntReply, hauth, hl, hk, hc]
  by_cases hv : rq.vers = 3
  swap
  · rw [if_pos hv, if_pos hv]
  by_cases hget : mntCmd argp = .getnonce
  · rw [if_pos hget, if_pos hget]
  rw [mountedDir_eq hget, mountedDir_eq hget, hl, hk]
  by_cases hplain : ∃ p, mntCmd argp = .plain p
  · obtain ⟨p, hcmd⟩ := hplain
    rw [hcmd, authentic_plain]
    by_cases hp : exportPoint s.exportList p = true
    -- whether the path is resolved or not, the reply is that for the path
    · obtain ⟨dir, hdir, hsame⟩ := hset hv p hcmd hp
      have heq := mountReply_eq_iff.2 ⟨dir, hdir, hsame⟩
      have hboth : ∀ removable, mountReply w s.exportList s.kernel rq false
          (dirFor w s.exportList s.kernel removable p) =
          mountReply w s.exportList s.kernel rq false (some p) := by
        intro removable
        rw [dirFor]
        split
        · rfl
        · exact heq.symm
      rw [MntCmd.dpath, hboth, hboth]
    · simp only [dirFor, MntCmd.dpath, hp, Bool.and_false, Bool.false_eq_true, if_false]
  · rw [sentVars_bit hl (fun p h => hplain ⟨p, h⟩) hget]

/-- An export of the root directory that is not removable, and a client that is refused. -/
def fixedRoot : EItem := { path := root, orig := root, hosts := [{}] }

def farReq : SvcReq := { remote := 0, uid := 0, gid := 0, port := 1024 }

/-- A run that ends with options in force that are not those of a removable export. -/
theorem runs_fixed (w : World L R) (list : List EItem) (k : L) (r : R) :
    ∃ v : ExportVars, v.bit (·.removable) = false ∧
      Runs w [] (some { kernel := k, rods := r, exportList := list, exports := v }) := by
  have hinit : Runs w [] (some { kernel := k, rods := r, exportList := [fixedRoot] }) :=
    .start ⟨_, _, _, _, _, _, rfl⟩
  have hmount := hinit.between (.mount farReq (.mnt root) rfl)
  exact ⟨_, rfl, hmount.between (.reload _ list)⟩

end

/-- **MNT and what came before.** The reply to a request is the same in every run exactly if it
makes no difference whether the path is resolved: to an argument with a mount command it is, since
then the options of its own path are in force; to a plain argument that is an export point, if the
path stands for a directory that cannot be told from it. -/
theorem mnt_history_iff {L R : Type} (w : World L R) (list : List EItem) (k : L) (r : R)
    (argp : CStr)
    (rq : SvcReq) : HistoryFree w list k argp rq ↔ MntSettled w list k argp rq := by
  constructor
  · intro hfree hv dpath hcmd hpoint
    obtain ⟨v, hbit, hrun⟩ := runs_fixed w list k r
    have hinit : Runs w [] (some { kernel := k, rods := r, exportList := list }) :=
      .start ⟨_, _, _, _, _, _, rfl⟩
    have heq := hfree _ _ _ _ hrun hinit rfl rfl rfl rfl rfl rfl
    rw [mountprocMnt_reply, mountprocMnt_reply, Except.ok.injEq] at heq
    have hget : mntCmd argp ≠ .getnonce := by rw [hcmd]; exact nofun
    rw [mntReply, mntReply, if_neg (by simp [hv]), if_neg hget, if_neg (by simp [hv]), if_neg hget,
      mountedDir_eq hget, mountedDir_eq hget, hcmd, authentic_plain, authentic_plain] at heq
    simp only [sentVars, MntCmd.dpath, hbit, dirFor, hpoint, Bool.false_and, Bool.false_eq_true,
      if_false] at heq
    exact mountReply_eq_iff.1 heq
  · rintro hset log log' s s' _ _ rfl hl rfl hk hn hc
    rw [mountprocMnt_reply, mountprocMnt_reply, mntReply_same hset hl hk hn hc]

/-- The daemon exports the removable directory `/m`, which is not there, and `/`. -/
def mediaServer : Server Sandbox.Kernel Sandbox.Grid :=
  Sandbox.server [Sandbox.item (lit "/m") true, fixedRoot]
    { files := [(root, { dev := 1, ino := 2, mode := 0o040755 })] } {}

/-- The client of `mediaServer`. -/
def mediaReq : SvcReq := { remote := 0, uid := 0, gid := 0 }

/-- The first request mounts `/m`; after a request that has mounted `/` the path is not found. -/
theorem mnt_after_export : ∃ s s', Runs Sandbox.publicWorld [] (some s) ∧
    Runs Sandbox.publicWorld [] (some s') ∧
    s'.exportList = s.exportList ∧ s'.kernel = s.kernel ∧ s'.nonce = s.nonce ∧
      s'.nonces = s.nonces ∧
    (mountprocMnt Sandbox.publicWorld (lit "/m") mediaReq s).1.toOption.map (·.status) = some .ok ∧
    (mountprocMnt Sandbox.publicWorld (lit "/m") mediaReq s').1.toOption.map (·.status) =
      some .noent := by
  have hinit : Runs Sandbox.publicWorld [] (some mediaServer) := .start ⟨_, _, _, _, _, _, rfl⟩
  refine ⟨mediaServer, _, hinit, hinit.between (.mount mediaReq (.mnt root) rfl), ?_⟩
  exact ⟨by decide +kernel, by decide +kernel, by decide +kernel, by decide +kernel,
    by decide +kernel, by decide +kernel⟩

end NfsRods
