import NfsRods.Proof.Nonce

/-!
# Mounting with a one-time password

`doc/passwords.txt`: a client asks for a nonce, concatenates it with the password, and mounts with
the MD5 digest of both in hexadecimal. All clients share the nonce, so that the requests of others
may come in between.

* `otpDigest_md5`: the daemon's digest is what `otp_digest` computes with the functions of `md5.c`.
* `otpDigest_eq`: it is what the client computes.
* `MntRuns.since`: the nonce, and how many were drawn since a client asked for one.
* `otp_race`: when the client's mount succeeds.
-/

namespace NfsRods

open CStr

/-! ## The digest -/

/-- `otp_digest`, with the functions of `md5.c`; `state` is what the stack held. -/
def otpDigestMd5 (cpu : Cpu) (state : Md5State) (nonce : List UInt8) (password : CStr) : CStr :=
  let state := md5Init state
  let state := md5Append cpu state nonce
  let state := md5Append cpu state password
  hexify (md5Finish cpu state)

/-- The digest of a message is what `md5.c` computes of it, in pieces that its `int` takes. -/
def World.RunsMd5 {L R : Type} (w : World L R) : Prop :=
  ∃ cpu state, ∀ pieces : List (List UInt8), (∀ p ∈ pieces, Md5Fits p) →
    w.md5 pieces.flatten = md5Finish cpu (pieces.foldl (md5Append cpu) (md5Init state))

/-- What the client computes. -/
def clientDigest (nonce : List UInt8) (password : CStr) : CStr := hexify (md5 (nonce ++ password))

/-- The argument of the client's mount. -/
def otpMountArg (nonce : List UInt8) (password dpath : CStr) : CStr :=
  lit "@otp:" ++ clientDigest nonce password ++ dpath

/-- The daemon's digest is what `otp_digest` computes. -/
theorem otpDigest_md5 {L R : Type} {w : World L R} (h : w.RunsMd5) {nonce : List UInt8}
    {password : CStr} (hnonce : Md5Fits nonce) (hpassword : Md5Fits password) :
    ∃ cpu state, otpDigest w nonce password = otpDigestMd5 cpu state nonce password := by
  obtain ⟨cpu, state, h⟩ := h
  have hfits : ∀ p ∈ [nonce, password], Md5Fits p :=
    List.forall_mem_cons.2 ⟨hnonce, List.forall_mem_singleton.2 hpassword⟩
  have hpieces := h [nonce, password] hfits
  rw [List.flatten_cons, List.flatten_cons, List.flatten_nil, List.append_nil, List.foldl_cons,
    List.foldl_cons, List.foldl_nil] at hpieces
  exact ⟨cpu, state, congrArg hexify hpieces⟩

/-- Every message can be cut into such pieces. -/
theorem runsMd5_eq {L R : Type} {w : World L R} (h : w.RunsMd5) : w.md5 = md5 := by
  obtain ⟨cpu, state, h⟩ := h
  funext msg
  have hfits : ∀ p ∈ msg.map fun b => [b], Md5Fits p := by
    intro p hp
    obtain ⟨b, -, rfl⟩ := List.mem_map.1 hp
    show 1 < 2 ^ 28
    decide
  have hpieces := h _ hfits
  rw [md5Finish_eq cpu (md5Pieces_holds cpu hfits (md5Init_holds state))] at hpieces
  have hmsg : (msg.map fun b => [b]).flatten = msg := List.flatMap_singleton' msg
  rwa [List.nil_append, hmsg] at hpieces

theorem otpDigest_eq {L R : Type} {w : World L R} (h : w.RunsMd5) (nonce : List UInt8)
    (password : CStr) : otpDigest w nonce password = clientDigest nonce password := by
  rw [otpDigest, runsMd5_eq h, clientDigest]

/-- The nibble of a hexadecimal digit. -/
def hexcharAsNibble (c : UInt8) : UInt8 := if c ≤ 57 then c - 48 else c - 97 + 10

theorem forall_byte {P : UInt8 → Prop} (h : ∀ n : Fin 256, P (UInt8.ofNat n.1)) (b : UInt8) :
    P b := by
  have hb := h ⟨b.toNat, b.toNat_lt⟩
  rwa [UInt8.ofNat_toNat] at hb

theorem hexcharAsNibble_nibble (b : UInt8) :
    hexcharAsNibble (nibbleAsHexchar ((b >>> 4) &&& 0xf)) * 16 +
      hexcharAsNibble (nibbleAsHexchar (b &&& 0xf)) = b := by
  revert b
  exact forall_byte (by decide +kernel)

theorem hexify_injective : Function.Injective hexify := by
  intro a
  induction a with
  | nil =>
    intro b h
    cases b with
    | nil => rfl
    | cons y b => cases h
  | cons x a ih =>
    intro b h
    cases b with
    | nil => cases h
    | cons y b =>
      simp only [hexify, List.flatMap_cons, List.cons_append, List.nil_append, List.cons.injEq] at h
      obtain ⟨hhigh, hlow, hrest⟩ := h
      have hxy : x = y := by
        rw [← hexcharAsNibble_nibble x, ← hexcharAsNibble_nibble y, hhigh, hlow]
      rw [hxy, ih hrest]

theorem slash_notMem_hexify (digest : List UInt8) : slash ∉ hexify digest := by
  have hnibble : ∀ c : UInt8, nibbleAsHexchar (c &&& 0xf) ≠ slash :=
    forall_byte (by decide +kernel)
  intro h
  obtain ⟨b, -, hb⟩ := List.mem_flatMap.1 h
  rcases List.mem_cons.1 hb with hb | hb
  · exact hnibble (b >>> 4) hb.symm
  · exact hnibble b (List.mem_singleton.1 hb).symm

theorem length_clientDigest (nonce : List UInt8) (password : CStr) :
    (clientDigest nonce password).length = 32 := by
  have hhex : ∀ digest : List UInt8, (hexify digest).length = 2 * digest.length := by
    intro digest
    induction digest with
    | nil => rfl
    | cons b digest ih =>
      rw [hexify, List.flatMap_cons, List.length_append, ← hexify, ih, List.length_cons]
      simp only [List.length_cons, List.length_nil]
      omega
  rw [clientDigest, hhex, md5]
  simp only [List.length_append, Bytes.length_le]

/-- The daemon finds the digest and the path in the argument. -/
theorem mntCmd_otp (nonce : List UInt8) (password : CStr) {dpath : CStr}
    (hp : dpath.head? = some slash) :
    mntCmd (otpMountArg nonce password dpath) = .otp (clientDigest nonce password) dpath := by
  have hlen := length_clientDigest nonce password
  have hpre : lit "@otp:" <+: otpMountArg nonce password dpath := by
    rw [otpMountArg, List.append_assoc]
    exact List.prefix_append _ _
  have hnot : ∀ cmd : CStr, (lit "@otp:").length ≤ cmd.length → ¬ lit "@otp:" <+: cmd →
      ¬ cmd <+: otpMountArg nonce password dpath :=
    fun cmd hle hne h => hne (List.prefix_of_prefix_length_le hpre h hle)
  have hdrop : (otpMountArg nonce password dpath).drop (lit "@otp:").length =
      clientDigest nonce password ++ dpath := by
    rw [otpMountArg, List.append_assoc, List.drop_left]
  have harg : ((clientDigest nonce password ++ dpath).take passwordMaxlen).takeWhile (· ≠ slash) =
      clientDigest nonce password := by
    obtain ⟨path, rfl⟩ : ∃ path, dpath = slash :: path := List.head?_eq_some_iff.1 hp
    have hall : ∀ b ∈ clientDigest nonce password, decide (b ≠ slash) = true := by
      intro b hb
      apply decide_eq_true
      rintro rfl
      exact slash_notMem_hexify _ hb
    rw [List.take_append, hlen, List.take_of_length_le (by rw [hlen]; decide),
      List.takeWhile_append_of_pos hall]
    show _ ++ List.takeWhile _ (slash :: _) = _
    rw [List.takeWhile_cons_of_neg (by decide), List.append_nil]
  rw [mntCmd, if_neg (hnot _ (by decide) (by decide)), if_neg (hnot _ (by decide) (by decide)),
    if_pos hpre]
  simp only [mntCmdArgument, hdrop, harg, List.drop_left]

/-! ## The nonce between two requests -/

/-- The client is told that the directory is mounted. -/
def MntVisit.Succeeds {L R : Type} (w : World L R) (v : MntVisit L R) : Prop :=
  ∃ res s', mountprocMnt w v.argp v.rq v.state = (.ok res, s') ∧ res.status = .ok

/-- The client is told the nonce. -/
def MntVisit.Tells {L R : Type} (w : World L R) (v : MntVisit L R) (nonce : List UInt8) : Prop :=
  (mountprocMnt w v.argp v.rq v.state).1 = .ok { status := .ok, info := some (.nonce nonce) }

section
variable {L R : Type} {w : World L R} {v : MntVisit L R}

/-- Only who asks for the nonce is told it, and it is a new one. -/
theorem MntVisit.Tells.drawn {nonce : List UInt8} (h : v.Tells w nonce) :
    v.DrawsNonce ∧ nonce = w.genNonce v.state.nonces := by
  unfold MntVisit.Tells at h
  by_cases hv : v.rq.vers = 3
  · by_cases hn : mntCmd v.argp = .getnonce
    · simp only [mountprocMnt, hv, hn, ne_eq, not_true_eq_false, if_false] at h
      cases h
      exact ⟨⟨hv, .inl hn⟩, rfl⟩
    · obtain ⟨_, _, hrun, -⟩ := mountprocMnt_run (w := w) hv hn v.state
      rw [hrun, mntReply, if_neg (not_not.2 hv), if_neg hn] at h
      -- the reply to a path has no nonce
      unfold mountReply at h
      repeat' first | split at h | cases h
  · simp only [mountprocMnt, ne_eq, hv, not_false_eq_true, if_true] at h
    cases h

/-- Every request of a run found the state that the run before it ended in. -/
theorem MntRuns.before {us : List (MntVisit L R)} {s : Server L R}
    (h : MntRuns w (us ++ [v]) s) : MntRuns w us v.state := by
  generalize hlog : us ++ [v] = log at h
  induction h with
  | start => simp at hlog
  | other _ _ _ ih => exact ih hlog
  | mnt h =>
    obtain ⟨rfl, hv⟩ := List.append_inj' hlog rfl
    obtain rfl := List.singleton_inj.1 hv
    exact h

/-- **The nonce since a client was told it**: still the same, if no request has drawn another, or
one that was drawn later. -/
theorem MntRuns.since {us vs : List (MntVisit L R)} {g : MntVisit L R} {s : Server L R}
    (h : MntRuns w (us ++ g :: vs) s) (hg : g.DrawsNonce) :
    ∃ n, s.nonce = w.genNonce n ∧ s.nonces = n + 1 ∧ g.state.nonces ≤ n ∧
      (n = g.state.nonces ↔ ∀ u ∈ vs, ¬ u.DrawsNonce) := by
  generalize hlog : us ++ g :: vs = log at h
  induction h generalizing vs with
  | start => simp at hlog
  | other _ hnonce hnonces ih =>
    rw [hnonce, hnonces]
    exact ih hlog
  | mnt h argp rq ih =>
    rename_i before s
    rcases List.eq_nil_or_concat' vs with rfl | ⟨vs, u, rfl⟩
    · obtain ⟨rfl, hv⟩ := List.append_inj' hlog rfl
      obtain rfl := List.singleton_inj.1 hv
      rcases mountprocMnt_nonce w ⟨argp, rq, s⟩ with ⟨-, hnonce, hnonces⟩ | ⟨hnot, -⟩
      · exact ⟨s.nonces, hnonce, hnonces, le_rfl, by simp⟩
      · exact absurd hg hnot
    · rw [← List.cons_append, ← List.append_assoc] at hlog
      obtain ⟨hbefore, hu⟩ := List.append_inj' hlog rfl
      obtain rfl := List.singleton_inj.1 hu
      obtain ⟨n, hn, hns, hle, hquiet⟩ := ih hbefore
      rcases mountprocMnt_nonce w ⟨argp, rq, s⟩ with
        ⟨hdraws, hnonce, hnonces⟩ | ⟨hnot, hnonce, hnonces⟩
      · refine ⟨s.nonces, hnonce, hnonces, by show _ ≤ s.nonces; omega, ?_⟩
        constructor
        · intro heq
          omega
        · intro hall
          exact absurd hdraws (hall _ (List.mem_append_right _ (List.mem_singleton_self _)))
      · refine ⟨n, hnonce.trans hn, hnonces.trans hns, hle, hquiet.trans ?_⟩
        simp only [List.mem_append, List.mem_singleton]
        constructor
        · rintro hall u (hu | rfl)
          · exact hall u hu
          · exact hnot
        · exact fun hall u hu => hall u (.inl hu)

end

/-- **Mounting with a one-time password.** A client that was told `nonce` mounts with its digest
later in the run. If no request in between has drawn another nonce, the mount succeeds when the
directory has no password, or else when the export found for the path has one with the digest that
the client has sent. If another has been drawn, it is compared with the digest of the new one. -/
theorem otp_race {L R : Type} (w : World L R) (hmd5 : w.RunsMd5) (us vs : List (MntVisit L R))
    (g v : MntVisit L R) (s : Server L R) (hruns : MntRuns w (us ++ g :: vs ++ [v]) s)
    (nonce : List UInt8) (hg : g.Tells w nonce) (password dpath : CStr)
    (hv : v.argp = otpMountArg nonce password dpath) (hpath : dpath.head? = some slash) :
    ∃ n, v.state.nonce = w.genNonce n ∧ nonce = w.genNonce g.state.nonces ∧ g.state.nonces ≤ n ∧
      (n = g.state.nonces ↔ ∀ u ∈ vs, ¬ u.DrawsNonce) ∧
      (v.Succeeds w ↔ ∃ dir, mountedDir w v.argp v.rq v.state = some dir ∧
        Admitted w v.rq v.state dir ∧
        (passwordOf v.state.exportList v.rq.remote dir = [] ∨
          v.Exported dpath ∧
            md5 (nonce ++ password) = md5 (w.genNonce n ++ v.passwordFor dpath))) := by
  obtain ⟨hdraws, hnonce⟩ := hg.drawn
  obtain ⟨n, hn, -, hle, hquiet⟩ := hruns.before.since hdraws
  have hcmd : mntCmd v.argp = .otp (clientDigest nonce password) dpath := by
    rw [hv, mntCmd_otp nonce password hpath]
  have hauth : authentic w (mntCmd v.argp) v.rq v.state = true ↔
      v.Exported dpath ∧
        md5 (nonce ++ password) = md5 (w.genNonce n ++ v.passwordFor dpath) := by
    have htake : (clientDigest nonce password).take 32 = clientDigest nonce password :=
      List.take_of_length_le (length_clientDigest nonce password).le
    rw [authentic, hcmd, MntCmd.dpath, MntCmd.carries, Bool.and_eq_true, Option.isSome_iff_ne_none,
      beq_iff_eq, htake, otpDigest_eq hmd5, hn, clientDigest, clientDigest,
      hexify_injective.eq_iff, eq_comm (b := md5 (nonce ++ password))]
    rfl
  refine ⟨n, hn, hnonce, hle, hquiet, ?_⟩
  rw [MntVisit.Succeeds, mountprocMnt_ok_iff (by simp [hcmd]), hauth]

/-! ## Alone -/

theorem md5World_runsMd5 : md5World.RunsMd5 :=
  ⟨.littleEndian, { count0 := 0, count1 := 0, abcd := md5Iv, buf := fun _ => 0 },
    fun _ hp => (md5Finish_eq _ (md5Pieces_holds _ hp (md5Init_holds _))).symm⟩

/-- The daemon exports the drive `/e`, which has a password. -/
def driveServer : Server Sandbox.Kernel Sandbox.Grid :=
  Sandbox.server
    [{ Sandbox.item (lit "/e") true with
       hosts := [{ options := { removable := true, insecure := true }, password := lit "pw" }] }]
    {} {}

/-- The client that was told the first nonce mounts `/e` with its digest. -/
def otpVisit : MntVisit Sandbox.Kernel Sandbox.Grid :=
  { argp := otpMountArg (nonceAt md5World 1) (lit "pw") (lit "/e")
    rq := otpReq
    state := (mountprocMnt md5World (lit "@getnonce") otpReq driveServer).2 }

/-- It succeeds. -/
theorem otp_race_alone : otpVisit.Succeeds md5World := by
  obtain ⟨n, -, -, -, hquiet, hsucceeds⟩ :=
    otp_race md5World md5World_runsMd5 [] [] ⟨lit "@getnonce", otpReq, driveServer⟩ otpVisit _
      (((MntRuns.start ⟨_, _, _, _, _, _, rfl⟩).mnt _ _).mnt _ _) (nonceAt md5World 1) rfl
      (lit "pw") (lit "/e") rfl rfl
  obtain rfl : n = 0 := hquiet.2 (by simp)
  have hpw : otpVisit.passwordFor (lit "/e") = lit "pw" := by decide +kernel
  refine hsucceeds.2 ⟨lit "/e", ?_, ?_, .inr ⟨?_, ?_⟩⟩
  · rw [mountedDir, otpVisit, mntCmd_otp _ _ rfl]
    decide +kernel
  · exact ⟨rfl, by decide, ⟨_, rfl, .inl (by decide +kernel)⟩, .inl (by decide +kernel)⟩
  · unfold MntVisit.Exported
    decide +kernel
  · rw [hpw]
    rfl

end NfsRods
