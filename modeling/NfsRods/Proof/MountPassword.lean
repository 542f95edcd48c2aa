import NfsRods.Mount
import NfsRods.Sandbox

/-!
# Mount passwords

MNT compares the password (or digest) it is sent with that of the export found for the path *as
sent*, and then admits the client to the directory the path *resolves to*, asking only whether some
comparison succeeded.

* `mountprocMnt_ok_iff`: when a directory is mounted.
* `mnt_password_iff`: a protected directory is only mounted with its own password exactly when the
  export found for the path as sent, where its password is carried, has the same one.
-/

namespace NfsRods

open CStr

/-- The client's options for a path. -/
def optsOf (list : List EItem) (remote : UInt32) (path : CStr) : Option Options :=
  (exportsOptions list remote (some path) {}).vars.opts

/-- The password of the export that governs a path, empty when it has none. -/
def passwordOf (list : List EItem) (remote : UInt32) (path : CStr) : CStr :=
  (exportsOptions list remote (some path) {}).password.getD []

/-- Two passwords that a mount command cannot tell apart. -/
def MntCmd.Agree {L R : Type} (w : World L R) (nonce : List UInt8) (p q : CStr) : MntCmd → Prop
  | .password _ _ => p = q
  | .otp _ _ => otpDigest w nonce p = otpDigest w nonce q
  | .getnonce | .plain _ => True

section
variable {L R : Type} {w : World L R} {s : Server L R}

theorem lookup_opts (list : List EItem) (remote : UInt32) (path : CStr) (v : ExportVars) :
    (exportsOptions list remote (some path) v).vars.opts = optsOf list remote path :=
  (exportsOptions_same list remote (some path) v {}).2.2

theorem lookup_password (list : List EItem) (remote : UInt32) (path : CStr) (v : ExportVars) :
    (exportsOptions list remote (some path) v).password.getD [] = passwordOf list remote path := by
  rw [(exportsOptions_same list remote (some path) v {}).2.1]
  rfl

/-- The request is authenticated: it carries the password of the export found for its path as sent.
-/
def authentic (w : World L R) (cmd : MntCmd) (rq : SvcReq) (s : Server L R) : Bool :=
  (optsOf s.exportList rq.remote cmd.dpath).isSome &&
    cmd.carries w s.nonce (passwordOf s.exportList rq.remote cmd.dpath)

/-- The options cache once the mount command is dealt with. -/
def sentVars (cmd : MntCmd) (rq : SvcReq) (s : Server L R) : ExportVars :=
  match cmd with
  | .password _ p | .otp _ p => (exportsOptions s.exportList rq.remote (some p) s.exports).vars
  | .getnonce | .plain _ => s.exports

/-- The command draws a new nonce. -/
def Draws (cmd : MntCmd) (rq : SvcReq) (s : Server L R) : Prop :=
  ∃ digest dpath, cmd = .otp digest dpath ∧ optsOf s.exportList rq.remote dpath ≠ none

/-- The mount command leaves the options of the export found for its path, and a new nonce if it
draws one. -/
theorem authenticate_run (cmd : MntCmd) (rq : SvcReq) (s : Server L R) :
    ∃ nonce nonces, authenticate w cmd rq s = (.ok (authentic w cmd rq s),
        { s with exports := sentVars cmd rq s, nonce := nonce, nonces := nonces }) ∧
      (Draws cmd rq s → nonce = w.genNonce s.nonces ∧ nonces = s.nonces + 1) ∧
      (¬ Draws cmd rq s → nonce = s.nonce ∧ nonces = s.nonces) := by
  have hopts := fun p => lookup_opts s.exportList rq.remote p s.exports
  have hpassword := fun p => lookup_password s.exportList rq.remote p s.exports
  cases cmd with
  | getnonce | plain =>
    refine ⟨s.nonce, s.nonces, ?_, ?_, fun _ => ⟨rfl, rfl⟩⟩
    · simp [authenticate, authentic, MntCmd.carries, sentVars]
    · rintro ⟨_, _, h, _⟩
      cases h
  | password pw p =>
    refine ⟨s.nonce, s.nonces, ?_, fun h => ?_, fun _ => ⟨rfl, rfl⟩⟩
    · simp only [authenticate, exportsOptionsM_bind, hopts, hpassword, authentic, MntCmd.dpath,
        MntCmd.carries]
      cases optsOf s.exportList rq.remote p with
      | none => rfl
      | some o => rfl
    · obtain ⟨_, _, h, _⟩ := h
      cases h
  | otp digest p =>
    simp only [authenticate, exportsOptionsM_bind, hopts, hpassword, authentic, MntCmd.dpath,
      MntCmd.carries]
    cases ho : optsOf s.exportList rq.remote p with
    | none =>
      refine ⟨s.nonce, s.nonces, rfl, fun h => ?_, fun _ => ⟨rfl, rfl⟩⟩
      obtain ⟨_, _, hcmd, hne⟩ := h
      cases hcmd
      exact absurd ho hne
    | some o =>
      refine ⟨w.genNonce s.nonces, s.nonces + 1, rfl, fun _ => ⟨rfl, rfl⟩, fun h => absurd ?_ h⟩
      exact ⟨digest, p, rfl, by rw [ho]; exact Option.some_ne_none o⟩

theorem authenticate_ends (cmd : MntCmd) (rq : SvcReq) (s : Server L R) :
    ∃ s', authenticate w cmd rq s = (.ok (authentic w cmd rq s), s') ∧
      s'.exportList = s.exportList ∧ s'.kernel = s.kernel ∧ s'.exports = sentVars cmd rq s := by
  obtain ⟨nonce, nonces, hrun, -⟩ := authenticate_run (w := w) cmd rq s
  exact ⟨_, hrun, rfl, rfl, rfl⟩

/-- The directory a MNT argument stands for. -/
def mountedDir (w : World L R) (argp : CStr) (rq : SvcReq) (s : Server L R) : Option CStr :=
  match mntCmd argp with
  | .getnonce => none
  | cmd =>
    if (sentVars cmd rq s).bit (·.removable) && exportPoint s.exportList cmd.dpath then
      some cmd.dpath
    else w.realpath s.kernel cmd.dpath

/-- A handle can be made of the directory. -/
def Mountable (w : World L R) (rq : SvcReq) (s : Server L R) (dir : CStr) : Prop :=
  (exportPoint s.exportList dir = true ∧
    (optsOf s.exportList rq.remote dir).any (·.removable) = true) ∨
  fhValid (fhCompPath w s.kernel dir true) = true

/-- The client is admitted to the directory, its password apart. -/
def Admitted (w : World L R) (rq : SvcReq) (s : Server L R) (dir : CStr) : Prop :=
  rq.vers = 3 ∧ dir.length + 1 ≤ maxPathLen ∧
    (∃ o, optsOf s.exportList rq.remote dir = some o ∧ (o.insecure = true ∨ rq.port < 1024)) ∧
    Mountable w rq s dir

theorem fhComp_valid {rq : SvcReq} {dir : CStr} {o : Options}
    (ho : optsOf s.exportList rq.remote dir = some o) :
    ∃ fh s', fhComp w dir rq true s = (.ok fh, s') ∧
      (fhValid fh = true ↔ Mountable w rq s dir) := by
  obtain ⟨fh, s', hf, hm⟩ : ∃ fh s', fhCompRaw w dir (some rq) true s = (.ok fh, s') ∧
      (fhValid fh = true ↔ Mountable w rq s dir) := by
    unfold Mountable
    simp only [fhCompRaw, Prog.get_bind_run, Prog.ite_run, exportsOptionsM_bind, ho,
      lookup_opts s.exportList rq.remote dir s.exports, ExportVars.bit, Option.elim, Option.any]
    cases exportPoint s.exportList dir with
    | false => exact ⟨_, _, rfl, by simp⟩
    | true =>
      cases o.removable with
      | false => exact ⟨_, _, rfl, by simp⟩
      | true => exact ⟨_, _, rfl, by simp [fhValid]⟩
  obtain ⟨_, s'', hw⟩ : ∃ u s'', Prog.when (fhValid fh) (fhCacheAdd fh.dev fh.ino dir) s' =
      (.ok u, s'') := by
    unfold Prog.when
    split <;> exact ⟨_, _, rfl⟩
  refine ⟨{ fh with pwhash := s''.exports.passwordHash }, s'', ?_, hm⟩
  rw [fhComp, Prog.bind_ok hf, Prog.bind_ok hw]
  rfl

/-- **A directory is mounted** when the path stands for one to which the client is admitted and
that has no password or the request is authenticated. -/
theorem mntPath_ok_iff {rq : SvcReq} (hv : rq.vers = 3) (dpath : CStr) (authenticated : Bool) :
    (∃ res s', mntPath w dpath authenticated rq s = (.ok res, s') ∧ res.status = .ok) ↔
      ∃ dir, mountDir w s dpath = some dir ∧ Admitted w rq s dir ∧
        (passwordOf s.exportList rq.remote dir = [] ∨ authenticated = true) := by
  unfold mntPath
  rw [Prog.get_bind_run]
  cases hd : mountDir w s dpath with
  | none => simp
  | some dir =>
    simp only [Option.some.injEq, exists_eq_left', Prog.ite_run]
    by_cases hl : maxPathLen < dir.length + 1
    · rw [if_pos hl]
      simp only [Admitted, Nat.not_le.2 hl]
      simp
    rw [if_neg hl, exportsOptionsM_bind, Prog.ite_run, lookup_opts, lookup_password]
    cases ho : optsOf s.exportList rq.remote dir with
    | none => simp [Admitted, ho]
    | some o =>
      have hbit :
          (exportsOptions s.exportList rq.remote (some dir) s.exports).vars.bit (·.insecure) =
            o.insecure := by
        rw [ExportVars.bit, lookup_opts, ho]; rfl
      rw [hbit]
      simp only [reduceCtorEq, false_or]
      by_cases hc : (authenticated = false ∧ passwordOf s.exportList rq.remote dir ≠ []) ∨
          (o.insecure = false ∧ 1024 ≤ rq.port)
      · rw [if_pos hc]
        have hno : ¬ (Admitted w rq s dir ∧
            (passwordOf s.exportList rq.remote dir = [] ∨ authenticated = true)) := by
          rintro ⟨⟨_, _, ⟨o', ho', hi⟩, _⟩, hp⟩
          rw [ho, Option.some.injEq] at ho'
          subst ho'
          rcases hc with ⟨ha, hq⟩ | ⟨hn, hg⟩
          · simp [hq, ha] at hp
          · rw [hn] at hi
            simp at hi
            omega
        simp [hno]
      · rw [if_neg hc]
        rw [not_or, not_and_or, not_and_or, not_not, Bool.not_eq_false, Bool.not_eq_false,
          Nat.not_le] at hc
        obtain ⟨fh, s', hf, hm⟩ := fhComp_valid (w := w) (s := { s with exports :=
          (exportsOptions s.exportList rq.remote (some dir) s.exports).vars }) ho
        rw [Prog.bind_ok hf]
        have ha : Admitted w rq s dir ↔ fhValid fh = true :=
          ⟨fun h => hm.2 h.2.2.2, fun h => ⟨hv, Nat.not_lt.1 hl, ⟨o, ho, hc.2⟩, hm.1 h⟩⟩
        rw [ha]
        cases fhValid fh with
        | false => simp
        | true => simpa [addMount] using hc.1.symm

theorem mountprocMnt_ok_iff {argp : CStr} (hn : mntCmd argp ≠ .getnonce) (rq : SvcReq)
    (s : Server L R) :
    (∃ res s', mountprocMnt w argp rq s = (.ok res, s') ∧ res.status = .ok) ↔
      ∃ dir, mountedDir w argp rq s = some dir ∧ Admitted w rq s dir ∧
        (passwordOf s.exportList rq.remote dir = [] ∨
          authentic w (mntCmd argp) rq s = true) := by
  by_cases hv : rq.vers = 3
  · obtain ⟨s', ha, hl, hk, he⟩ := authenticate_ends (w := w) (mntCmd argp) rq s
    have hrun : mountprocMnt w argp rq s =
        mntPath w (mntCmd argp).dpath (authentic w (mntCmd argp) rq s) rq s' := by
      rw [← Prog.bind_ok (f := fun a => mntPath w (mntCmd argp).dpath a rq) ha]
      simp only [mountprocMnt, hv, ne_eq, not_true_eq_false, ↓reduceIte]
    have hdir : mountDir w s' (mntCmd argp).dpath = mountedDir w argp rq s := by
      rw [mountDir, mountedDir, hl, hk, he]
      cases hc : mntCmd argp with
      | getnonce => exact absurd hc hn
      | _ => rfl
    have hadm : ∀ dir, Admitted w rq s' dir ↔ Admitted w rq s dir := fun dir => by
      rw [Admitted, Admitted, Mountable, Mountable, hl, hk]
    rw [hrun, mntPath_ok_iff hv, hdir]
    simp only [hadm, hl]
  · have hno : ∀ dir, ¬ Admitted w rq s dir := fun dir h => hv h.1
    simp [mountprocMnt, hv, hno]

/-- An authenticated request carries the password of another export exactly when its mount command
does not tell the two apart. -/
theorem carries_iff {cmd : MntCmd} {rq : SvcReq} (h : authentic w cmd rq s = true) (q : CStr) :
    cmd.carries w s.nonce q = true ↔
      cmd.Agree w s.nonce (passwordOf s.exportList rq.remote cmd.dpath) q := by
  rw [authentic, Bool.and_eq_true] at h
  cases cmd with
  | getnonce | plain => simp [MntCmd.carries] at h
  | password pw p =>
    have hp : passwordOf s.exportList rq.remote p = pw := beq_iff_eq.1 h.2
    rw [MntCmd.carries, MntCmd.Agree, MntCmd.dpath, hp, beq_iff_eq, eq_comm]
  | otp digest p =>
    have hp : otpDigest w s.nonce (passwordOf s.exportList rq.remote p) = digest.take 32 :=
      beq_iff_eq.1 h.2
    rw [MntCmd.carries, MntCmd.Agree, MntCmd.dpath, hp, beq_iff_eq, eq_comm]

/-- **Mount passwords.** A reply `MNT3_OK` for a directory whose export has a password is given only
to requests that carry that password, or its digest with the current nonce, if and only if the
export found for the path as sent, when the request carries *its* password, agrees with it. -/
theorem mnt_password_iff (argp : CStr) (rq : SvcReq) (s : Server L R) :
    (∀ res s', mountprocMnt w argp rq s = (.ok res, s') → res.status = .ok →
      ∀ dir, mountedDir w argp rq s = some dir → passwordOf s.exportList rq.remote dir ≠ [] →
        (mntCmd argp).carries w s.nonce (passwordOf s.exportList rq.remote dir) = true) ↔
    ∀ dir, mountedDir w argp rq s = some dir → Admitted w rq s dir →
      passwordOf s.exportList rq.remote dir ≠ [] → authentic w (mntCmd argp) rq s = true →
      (mntCmd argp).Agree w s.nonce (passwordOf s.exportList rq.remote (mntCmd argp).dpath)
        (passwordOf s.exportList rq.remote dir) := by
  by_cases hn : mntCmd argp = .getnonce
  · simp [mountedDir, hn]
  have hok := mountprocMnt_ok_iff (w := w) hn rq s
  constructor
  · intro h dir hd ha hp hauth
    obtain ⟨res, s', hr, hst⟩ := hok.2 ⟨dir, hd, ha, .inr hauth⟩
    exact (carries_iff hauth _).1 (h res s' hr hst dir hd hp)
  · intro h res s' hr hst dir hd hp
    obtain ⟨dir', hd', ha, hpw⟩ := hok.1 ⟨res, s', hr, hst⟩
    obtain rfl : dir = dir' := Option.some.inj (hd.symm.trans hd')
    have hauth := hpw.resolve_left hp
    exact (carries_iff hauth _).2 (h dir hd ha hp hauth)

end

/-! ## A link into a protected export -/

/-- The exports `/e`, without a password, and `/s`, with the password `x`. -/
def protectedList : List EItem :=
  [Sandbox.item (lit "/e") true,
    { path := lit "/s", orig := lit "/s"
      hosts := [{ options := { removable := true }, password := lit "x" }] }]

/-- `/e/l` is a link to `/s`. -/
def linkServer : Server Sandbox.Kernel Sandbox.Grid :=
  Sandbox.server protectedList { links := [(lit "/e/l", lit "/s")] } {}

/-- With the empty password of `/e`, a client mounts `/s` through the link. -/
theorem mnt_without_password :
    (mountprocMnt Sandbox.publicWorld (lit "@password:/e/l") { remote := 1, uid := 7, gid := 7 }
      linkServer).1.toOption.map (·.status) = some .ok ∧
    mountedDir Sandbox.publicWorld (lit "@password:/e/l") { remote := 1, uid := 7, gid := 7 }
      linkServer = some (lit "/s") ∧
    passwordOf linkServer.exportList 1 (lit "/s") = lit "x" ∧
    (mntCmd (lit "@password:/e/l")).carries Sandbox.publicWorld linkServer.nonce (lit "x") =
      false :=
  ⟨by decide, by decide, by decide, by decide⟩

end NfsRods
