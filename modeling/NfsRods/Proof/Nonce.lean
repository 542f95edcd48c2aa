import NfsRods.Proof.Md5
import NfsRods.Proof.MountReply

/-!
# One-time passwords

All clients share one nonce. `@getnonce` draws a new one and tells it to the client; `@otp` compares
the digest it is sent with that of the nonce and the password of the export, and draws a new one,
whether the digests were the same or not, unless no export was found.

* `MntRuns`: the MNT requests of a run, in any order and of any clients, each with the state it
  found.
* `mountprocMnt_nonce`: what a request does with the nonce.
* `NonceInv`: the nonce is the one drawn last, and a request that was authenticated with it has
  replaced it.
* `otp_once`: a nonce authenticates one request at most, and no digest of a nonce that was replaced
  is accepted.
-/

namespace NfsRods

open CStr

/-- A MNT request, and the state of the daemon that it found. -/
structure MntVisit (L R : Type) where
  argp : CStr
  rq : SvcReq
  state : Server L R

section
variable {L R : Type} (w : World L R)

/-- The nonce after `n` draws. -/
def nonceAt : Nat → List UInt8
  | 0 => List.replicate 32 0
  | n + 1 => w.genNonce n

/-- The MNT requests of a run of the daemon, and the state it ends in. -/
inductive MntRuns : List (MntVisit L R) → Server L R → Prop
  | start {s : Server L R} (h : Initial s) : MntRuns [] s
  /-- What else the daemon does: only MNT knows the nonce. -/
  | other {vs : List (MntVisit L R)} {s s' : Server L R} (h : MntRuns vs s)
    (hnonce : s'.nonce = s.nonce) (hnonces : s'.nonces = s.nonces) : MntRuns vs s'
  | mnt {vs : List (MntVisit L R)} {s : Server L R} (h : MntRuns vs s) (argp : CStr) (rq : SvcReq) :
    MntRuns (vs ++ [⟨argp, rq, s⟩]) (mountprocMnt w argp rq s).2

namespace MntVisit
variable {L R : Type} (w : World L R) (v : MntVisit L R)

/-- The request is an `@otp` with the argument `digest` for the path `dpath`. -/
def IsOtp (digest dpath : CStr) : Prop := v.rq.vers = 3 ∧ mntCmd v.argp = .otp digest dpath

/-- The request sets `authenticated`. -/
def Authenticated : Prop := (authenticate w (mntCmd v.argp) v.rq v.state).1 = .ok true

/-- The request draws a new nonce: it asks for one, or is an `@otp` that finds an export. -/
def DrawsNonce : Prop :=
  v.rq.vers = 3 ∧ (mntCmd v.argp = .getnonce ∨ Draws (mntCmd v.argp) v.rq v.state)

/-- An export is found for the path. -/
def Exported (dpath : CStr) : Prop := optsOf v.state.exportList v.rq.remote dpath ≠ none

/-- The password of the export found for the path. -/
def passwordFor (dpath : CStr) : CStr := passwordOf v.state.exportList v.rq.remote dpath

end MntVisit

end

section
variable {L R : Type} {w : World L R} {v : MntVisit L R} {digest dpath : CStr}

/-- What it takes to be authenticated. -/
theorem MntVisit.IsOtp.authenticated_iff (h : v.IsOtp digest dpath) :
    v.Authenticated w ↔
      v.Exported dpath ∧ digest.take 32 = otpDigest w v.state.nonce (v.passwordFor dpath) := by
  obtain ⟨nonce, nonces, hrun, -⟩ := authenticate_run (w := w) (mntCmd v.argp) v.rq v.state
  rw [MntVisit.Authenticated, hrun, h.2, Except.ok.injEq, authentic, MntVisit.Exported,
    MntVisit.passwordFor, MntCmd.dpath, MntCmd.carries, Bool.and_eq_true,
    Option.isSome_iff_ne_none, beq_iff_eq]
  exact and_congr_right fun _ => eq_comm

/-- **The nonce after MNT**: the next one if the request draws one, or else as it was. -/
theorem mountprocMnt_nonce (w : World L R) (v : MntVisit L R) :
    let s' := (mountprocMnt w v.argp v.rq v.state).2
    (v.DrawsNonce ∧ s'.nonce = w.genNonce v.state.nonces ∧ s'.nonces = v.state.nonces + 1) ∨
      (¬ v.DrawsNonce ∧ s'.nonce = v.state.nonce ∧ s'.nonces = v.state.nonces) := by
  by_cases hv : v.rq.vers = 3
  · by_cases hn : mntCmd v.argp = .getnonce
    · refine .inl ⟨⟨hv, .inl hn⟩, ?_⟩
      simp only [mountprocMnt, hv, hn, ne_eq, not_true_eq_false, if_false]
      exact ⟨rfl, rfl⟩
    · obtain ⟨s1, s', hrun, hauth, hside, -⟩ := mountprocMnt_run (w := w) hv hn v.state
      obtain ⟨nonce, nonces, hauth', hdraws, hkeeps⟩ :=
        authenticate_run (w := w) (mntCmd v.argp) v.rq v.state
      obtain rfl : s1 = _ := congrArg Prod.snd (hauth.symm.trans hauth')
      rw [hrun, hside]
      by_cases hd : Draws (mntCmd v.argp) v.rq v.state
      · exact .inl ⟨⟨hv, .inr hd⟩, hdraws hd⟩
      · exact .inr ⟨fun h => h.2.elim hn hd, hkeeps hd⟩
  · refine .inr ⟨fun h => hv h.1, ?_⟩
    simp only [mountprocMnt, ne_eq, hv, not_false_eq_true, if_true]
    exact ⟨rfl, rfl⟩

theorem MntVisit.IsOtp.draws (h : v.IsOtp digest dpath) (hauth : v.Authenticated w) :
    v.DrawsNonce :=
  ⟨h.1, .inr ⟨digest, dpath, h.2, (h.authenticated_iff.1 hauth).1⟩⟩

end

/-! ## The requests of a run -/

section
variable {L R : Type} (w : World L R)

/-- The request is an `@otp` that is authenticated. -/
def MntVisit.Accepted (v : MntVisit L R) : Prop :=
    ∃ digest dpath, v.IsOtp digest dpath ∧ v.Authenticated w

/-- The nonce of every state of the run is the one drawn last, and who was authenticated with it has
replaced it. -/
structure NonceInv (vs : List (MntVisit L R)) (s : Server L R) : Prop where
  now : s.nonce = nonceAt w s.nonces
  found : ∀ v ∈ vs, v.state.nonce = nonceAt w v.state.nonces ∧ v.state.nonces ≤ s.nonces
  replaced : ∀ v ∈ vs, v.Accepted w → v.state.nonces < s.nonces
  order : vs.Pairwise fun v v' => v.Accepted w → v.state.nonces < v'.state.nonces

end

section
variable {L R : Type} {w : World L R} {vs : List (MntVisit L R)} {s s' : Server L R}

theorem NonceInv.later (h : NonceInv w vs s) (hle : s.nonces ≤ s'.nonces)
    (hnow : s'.nonce = nonceAt w s'.nonces) :
    NonceInv w vs s' where
  now := hnow
  found v hv := ⟨(h.found v hv).1, (h.found v hv).2.trans hle⟩
  replaced v hv ha := (h.replaced v hv ha).trans_le hle
  order := h.order

/-- One more request. -/
theorem NonceInv.mnt (h : NonceInv w vs s) (argp : CStr) (rq : SvcReq) :
    NonceInv w (vs ++ [⟨argp, rq, s⟩]) (mountprocMnt w argp rq s).2 := by
  have hstep : s.nonces ≤ (mountprocMnt w argp rq s).2.nonces ∧
      (mountprocMnt w argp rq s).2.nonce = nonceAt w (mountprocMnt w argp rq s).2.nonces := by
    rcases mountprocMnt_nonce w ⟨argp, rq, s⟩ with ⟨-, hnonce, hnonces⟩ | ⟨-, hnonce, hnonces⟩
    · rw [hnonce, hnonces]
      exact ⟨Nat.le_succ _, rfl⟩
    · rw [hnonce, hnonces]
      exact ⟨le_rfl, h.now⟩
  have hlater := h.later hstep.1 hstep.2
  refine ⟨hstep.2, fun v hv => ?_, fun v hv ha => ?_, ?_⟩
  · rcases List.mem_append.1 hv with hv | hv
    · exact hlater.found v hv
    · obtain rfl := List.mem_singleton.1 hv
      exact ⟨h.now, hstep.1⟩
  · rcases List.mem_append.1 hv with hv | hv
    · exact hlater.replaced v hv ha
    -- the request itself: it has drawn the next nonce
    · obtain rfl := List.mem_singleton.1 hv
      obtain ⟨digest, dpath, hotp, hauth⟩ := ha
      rcases mountprocMnt_nonce w ⟨argp, rq, s⟩ with ⟨-, -, hnonces⟩ | ⟨hnot, -⟩
      · rw [hnonces]
        exact Nat.lt_succ_self _
      · exact absurd (hotp.draws hauth) hnot
  · refine List.pairwise_append.2 ⟨h.order, List.pairwise_singleton _ _, fun v hv v' hv' ha => ?_⟩
    obtain rfl := List.mem_singleton.1 hv'
    exact h.replaced v hv ha

theorem MntRuns.inv (h : MntRuns w vs s) : NonceInv w vs s := by
  induction h with
  | start h =>
    obtain ⟨k, r, list, uid, gid, verf, rfl⟩ := h
    exact ⟨rfl, by simp, by simp, .nil⟩
  | other _ hnonce hnonces ih =>
    refine ih.later hnonces.ge ?_
    rw [hnonce, hnonces]
    exact ih.now
  | mnt _ argp rq ih => exact ih.mnt argp rq

end

/-- **One-time passwords are one-time.** Let no nonce of the run be drawn twice, and the digests of
two of them with the password of an export differ. Then an `@otp` request is authenticated only by
the digest of the nonce stored at that moment and the password of the export found for its path. No
two requests are authenticated with the same nonce; the argument of a request that was authenticated
is not accepted a second time, nor the digest of any nonce that was replaced. -/
theorem otp_once {L R : Type} (w : World L R) (vs : List (MntVisit L R)) (s : Server L R)
    (hruns : MntRuns w vs s)
    (hfresh : ∀ m n, m < n → n ≤ s.nonces → nonceAt w m ≠ nonceAt w n)
    (hdigest : ∀ v ∈ vs, ∀ dpath m n, m ≤ s.nonces → n ≤ s.nonces → nonceAt w m ≠ nonceAt w n →
      otpDigest w (nonceAt w m) (v.passwordFor dpath) ≠
        otpDigest w (nonceAt w n) (v.passwordFor dpath)) :
    (∀ v ∈ vs, ∀ digest dpath, v.IsOtp digest dpath → v.Authenticated w →
      v.Exported dpath ∧ digest.take 32 = otpDigest w v.state.nonce (v.passwordFor dpath)) ∧
    (vs.Pairwise fun v v' => v.Accepted w → v'.Accepted w → v.state.nonce ≠ v'.state.nonce) ∧
    (vs.Pairwise fun v v' => ∀ digest dpath digest' dpath', v.IsOtp digest dpath →
      v'.IsOtp digest' dpath' →
      digest.take 32 = digest'.take 32 → v'.passwordFor dpath' = v.passwordFor dpath →
      v.Authenticated w → ¬ v'.Authenticated w) ∧
    ∀ v ∈ vs, ∀ digest dpath, v.IsOtp digest dpath → ∀ m < v.state.nonces,
      digest.take 32 = otpDigest w (nonceAt w m) (v.passwordFor dpath) → ¬ v.Authenticated w := by
  have hinv := hruns.inv
  -- an earlier nonce has another digest
  have hother : ∀ v ∈ vs, ∀ digest dpath, v.IsOtp digest dpath → ∀ m < v.state.nonces,
      digest.take 32 = otpDigest w (nonceAt w m) (v.passwordFor dpath) → ¬ v.Authenticated w := by
    intro v hv digest dpath hotp m hm hd hauth
    obtain ⟨hnonce, hle⟩ := hinv.found v hv
    have hd' := (hotp.authenticated_iff.1 hauth).2
    rw [hnonce, hd] at hd'
    exact hdigest v hv dpath m v.state.nonces (hm.le.trans hle) hle (hfresh m _ hm hle) hd'
  refine ⟨fun v _ digest dpath hotp hauth => hotp.authenticated_iff.1 hauth, ?_, ?_, hother⟩
  · refine hinv.order.imp_of_mem fun {v v'} hv hv' horder ha _ => ?_
    obtain ⟨hnonce, -⟩ := hinv.found v hv
    obtain ⟨hnonce', hle'⟩ := hinv.found v' hv'
    rw [hnonce, hnonce']
    exact hfresh _ _ (horder ha) hle'
  · refine hinv.order.imp_of_mem
      fun {v v'} hv hv' horder digest dpath digest' dpath' hotp hotp' hsame hpw hauth => ?_
    have hd := (hotp.authenticated_iff.1 hauth).2
    rw [(hinv.found v hv).1] at hd
    refine hother v' hv' digest' dpath' hotp' v.state.nonces
      (horder ⟨digest, dpath, hotp, hauth⟩) ?_
    rw [← hsame, hpw, hd]

/-! ## A digest that is sent twice -/

/-- The small world with a new nonce at each draw, and MD5. -/
def md5World : World Sandbox.Kernel Sandbox.Grid :=
  { Sandbox.publicWorld with
    genNonce := fun n => List.replicate 32 (UInt8.ofNat (n + 1))
    md5 := md5 }

/-- The daemon exports `/e`, which has a password. -/
def otpServer : Server Sandbox.Kernel Sandbox.Grid :=
  Sandbox.server
    [{ Sandbox.item (lit "/e") true with
       hosts := [{ options := { rw := true }, password := lit "pw" }] }]
    {} {}

def otpReq : SvcReq := { remote := 1, uid := 0, gid := 0 }

/-- The digest of the first nonce and the password. -/
def otpArg : CStr := lit "@otp:" ++ otpDigest md5World (nonceAt md5World 1) (lit "pw") ++
    lit "/e"

/-- The states after `@getnonce`, and after the digest was sent for the first time and for the
second time. -/
def otpState : Nat → Server Sandbox.Kernel Sandbox.Grid
  | 0 => otpServer
  | 1 => (mountprocMnt md5World (lit "@getnonce") otpReq otpServer).2
  | n + 2 => (mountprocMnt md5World otpArg otpReq (otpState (n + 1))).2

/-- No path has another password. -/
theorem otpServer_password (remote : UInt32) (dpath : CStr) :
    passwordOf otpServer.exportList remote dpath ∈ [[], lit "pw"] := by
  rw [passwordOf, exportsOptions]
  split
  · simp
  · simp only [otpServer, Sandbox.server, List.foldl_cons, List.foldl_nil]
    generalize hk : ({ vars := ExportVars.clear {} } : Lookup) = k
    rcases exportsStep_cases remote dpath k _ with ⟨h, hfind, -, -, -, -, hpw, -⟩ | ⟨-, hpw, -⟩
    · have hmem := List.mem_of_find?_eq_some hfind
      rw [hpw, List.mem_singleton.1 hmem]
      simp
    · rw [hpw, ← hk]
      simp

/-- The digests of the nonces of the run. -/
theorem otpDigest_md5World {pw : CStr} (hpw : pw ∈ [[], lit "pw"]) :
    ([0, 1, 2, 3].map fun m => otpDigest md5World (nonceAt md5World m) pw).Nodup := by
  rcases List.mem_pair.1 hpw with rfl | rfl <;> decide +kernel

/-- The digest is accepted once. -/
theorem otp_once_twice :
    MntVisit.Authenticated md5World ⟨otpArg, otpReq, otpState 1⟩ ∧
      ¬ MntVisit.Authenticated md5World ⟨otpArg, otpReq, otpState 2⟩ := by
  have hruns :
    MntRuns md5World
      (([] ++ [⟨lit "@getnonce", otpReq, otpState 0⟩]) ++ [⟨otpArg, otpReq, otpState 1⟩] ++
        [⟨otpArg, otpReq, otpState 2⟩]) (otpState 3) :=
    (((MntRuns.start ⟨_, _, _, _, _, _, rfl⟩).mnt _ _).mnt _ _).mnt _ _
  have hcount : (otpState 3).nonces = 3 := by decide +kernel
  have hlist : (otpState 1).exportList = otpServer.exportList ∧
      (otpState 2).exportList = otpServer.exportList := by decide +kernel
  have hfirst : MntVisit.Authenticated md5World ⟨otpArg, otpReq, otpState 1⟩ := by
    unfold MntVisit.Authenticated
    decide +kernel
  have hcmd : mntCmd otpArg = .otp (otpDigest md5World (nonceAt md5World 1) (lit "pw"))
    (lit "/e") := by
    decide +kernel
  have honce :=
    otp_once md5World _ _ hruns (fun m n hm hn => ?_) (fun v hv dpath m n hm hn hne heq => ?_)
  · rw [List.nil_append] at honce
    have hpair := (List.pairwise_append.1 honce.2.2.1).2.2 ⟨otpArg, otpReq, otpState 1⟩ (by simp)
      ⟨otpArg, otpReq, otpState 2⟩ (by simp)
    exact ⟨hfirst, hpair _ _ _ _ ⟨rfl, hcmd⟩ ⟨rfl, hcmd⟩ rfl (by decide +kernel) hfirst⟩
  · rw [hcount] at hn
    interval_cases n <;> interval_cases m <;> decide
  · rw [hcount] at hm hn
    have hpw : v.passwordFor dpath ∈ [[], lit "pw"] := by
      have hstate : v.state.exportList = otpServer.exportList := by
        simp only [List.nil_append, List.cons_append, List.mem_cons, List.not_mem_nil,
          or_false] at hv
        rcases hv with rfl | rfl | rfl
        · rfl
        · exact hlist.1
        · exact hlist.2
      rw [MntVisit.passwordFor, hstate]
      exact otpServer_password _ _
    have hrange : ∀ k ≤ 3, k ∈ [0, 1, 2, 3] := by decide
    have hmn := List.inj_on_of_nodup_map (otpDigest_md5World hpw) (hrange m hm) (hrange n hn) heq
    exact hne (congrArg _ hmn)

end NfsRods
