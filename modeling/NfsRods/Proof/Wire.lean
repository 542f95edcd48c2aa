import NfsRods.Dispatch
import NfsRods.Proof.Layout
import NfsRods.Sandbox

/-!
# Messages and requests

A message that `nfs3_program_3` accepts has the effect of the request it stands for, and its results
are read back as what the procedure returned. A message that is not accepted has no effect. So the
daemon's runs on messages are runs on requests.

* `call_returns`: a call whose arguments a client encodes, through both dispatchers' tables.
* `message_effect`: what any message does.
* `wireRuns_refine`: a run on messages is a run on the requests among them.
* `dispatchNfs_within`: a message is answered without what lies behind its handles in memory.
-/

namespace NfsRods

open CStr Xdr

section
variable {L R : Type} {w : World L R}

/-! ## One message -/

/-- The request that a message stands for. -/
def NfsProc.requestOf (p : NfsProc w) (msg : List UInt8) : Option NfsRequest :=
  (p.xdrArgument.decode msg).map fun r => p.request r.1

/-- What the procedure does and what is sent for it. -/
def NfsProc.perform (p : NfsProc w) (rq : SvcReq) (args : p.Args) : M L R Answer := do
  Prog.modify (enter rq)
  let out ← p.function args rq
  pure (sendreply p.xdrResult (p.result args out))

theorem NfsProc.answer_decoded {p : NfsProc w} {msg rest : List UInt8} {args : p.Args}
    (hdec : p.xdrArgument.decode msg = some (args, rest)) (rq : SvcReq) :
    p.answer rq msg = p.perform rq args := by
  simp only [NfsProc.answer, hdec]
  rfl

/-- The procedure does what the daemon does for the request. -/
theorem NfsProc.perform_run (p : NfsProc w) (args : p.Args) (rq : SvcReq) (s : Server L R) :
    (∃ out s', serveNfs w rq (p.request args) s = (.ok (p.reply out), s') ∧
      p.perform rq args s = (.ok (sendreply p.xdrResult (p.result args out)), s')) ∨
    ∃ st s', serveNfs w rq (p.request args) s = (.error st, s') ∧
      p.perform rq args s = (.error st, s') := by
  rw [serveNfs, p.function_eq, replyWith, NfsProc.perform, Prog.modify_bind_run]
  rcases hf : p.function args rq (enter rq s) with ⟨st | out, s'⟩
  · exact .inr ⟨st, s', Prog.bind_error hf, Prog.bind_error hf⟩
  · exact .inl ⟨out, s', Prog.bind_ok hf, Prog.bind_ok hf⟩

/-- What is sent for a result is read back as it, or the result has no encoding. -/
theorem sendreply_cases {Res : Type} (xdrResult : Codec Res) (res : Res) :
    (sendreply xdrResult res = .systemerr ∧ xdrResult.encode res = none) ∨
    ∃ results, sendreply xdrResult res = .reply results ∧
      ∀ more, xdrResult.decode (results ++ more) = some (res, more) := by
  unfold sendreply
  cases h : xdrResult.encode res with
  | none => exact .inl ⟨rfl, rfl⟩
  | some results => exact .inr ⟨results, rfl, fun more => xdrResult.decode_encode h more⟩

/-- **A call reaches its procedure and returns.** Whatever arguments a client encodes for whichever
procedure, and whatever follows them in the message: the daemon does what it does for the request
they stand for, and what it sends is read as the procedure's result, whatever follows, unless the
result has no encoding. -/
theorem call_returns (behind behindTo : List UInt8) (rq : SvcReq) {rqProc : Nat} {p : NfsProc w}
    (hp : nfs3Program3 w behind behindTo rqProc = some p) {args : p.Args} {msg : List UInt8}
    (hmsg : p.xdrArgument.encode args = some msg) (trailing : List UInt8) (s : Server L R) :
    (∃ out s' a, serveNfs w rq (p.request args) s = (.ok (p.reply out), s') ∧
      dispatchNfs w behind behindTo rq rqProc (msg ++ trailing) s = (.ok a, s') ∧
      ((a = .systemerr ∧ p.xdrResult.encode (p.result args out) = none) ∨
        ∃ results, a = .reply results ∧
          ∀ more, p.xdrResult.decode (results ++ more) = some (p.result args out, more))) ∨
    ∃ st s', serveNfs w rq (p.request args) s = (.error st, s') ∧
      dispatchNfs w behind behindTo rq rqProc (msg ++ trailing) s = (.error st, s') := by
  have hdec := p.xdrArgument.decode_encode hmsg trailing
  have hans : dispatchNfs w behind behindTo rq rqProc (msg ++ trailing) = p.perform rq args := by
    rw [dispatchNfs, hp]
    exact p.answer_decoded hdec rq
  rw [hans]
  rcases p.perform_run args rq s with ⟨out, s', hserve, hrun⟩ | ⟨st, s', hserve, hrun⟩
  · exact .inl ⟨out, s', _, hserve, hrun, sendreply_cases p.xdrResult _⟩
  · exact .inr ⟨st, s', hserve, hrun⟩

/-- A client of the daemon that exports `/m` to everyone. -/
def wireReq : SvcReq := { remote := 0, uid := 0, gid := 0 }

def wireServer : Server Sandbox.Kernel Sandbox.Grid :=
  Sandbox.server [Sandbox.item (lit "/m") true] {} {}

/-- The bytes of a handle without hashes. -/
def bareHandle : List UInt8 := fhBytes {}

/-- GETATTR with a byte behind its argument. -/
theorem call_returns_getattr :
    (∃ out s' a, serveNfs Sandbox.publicWorld wireReq (.getattr (overlay bareHandle []))
        wireServer = (.ok (.getattr out), s') ∧
      dispatchNfs Sandbox.publicWorld [] [] wireReq 1
        ([0, 0, 0, 33] ++ bareHandle ++ [0, 0, 0] ++ [7]) wireServer = (.ok a, s') ∧
      ((a = .systemerr ∧ Wire.xdrGetattr3res.encode (getattr3res out) = none) ∨
        ∃ results, a = .reply results ∧
          ∀ more, Wire.xdrGetattr3res.decode (results ++ more) = some (getattr3res out, more))) ∨
    ∃ st s', serveNfs Sandbox.publicWorld wireReq (.getattr (overlay bareHandle [])) wireServer =
        (.error st, s') ∧
      dispatchNfs Sandbox.publicWorld [] [] wireReq 1
        ([0, 0, 0, 33] ++ bareHandle ++ [0, 0, 0] ++ [7]) wireServer = (.error st, s') :=
  call_returns [] [] wireReq (show nfs3Program3 Sandbox.publicWorld [] [] 1 = some _ from rfl)
    (show Wire.xdrGetattr3args.encode bareHandle = _ by decide +kernel) [7] wireServer

/-! ## What a message can carry -/

/-- The attributes to set have the values of their types. -/
structure Sattr3.Typed (a : Sattr3) : Prop where
  mode : ∀ m ∈ a.mode, m < 2 ^ 32
  size : ∀ n ∈ a.size, n < 2 ^ 64
  atime : ∀ t, a.atime = .setToClientTime t → t < 2 ^ 32
  mtime : ∀ t, a.mtime = .setToClientTime t → t < 2 ^ 32

/-- A handle of `NFS3_FHSIZE` bytes at most and a name without NUL. -/
structure Diropargs3.Typed (a : Diropargs3) : Prop where
  dir : a.dir.dataLen ≤ nfs3FhSize
  name : 0 ∉ a.name

/-- A request has the values that the types of its arguments have. -/
def NfsRequest.Typed : NfsRequest → Prop
  | .null | .unsupported => True
  | .getattr fh | .fsstat fh | .fsinfo fh | .pathconf fh => fh.dataLen ≤ nfs3FhSize
  | .setattr fh new => fh.dataLen ≤ nfs3FhSize ∧ new.Typed
  | .lookup what => what.Typed
  | .access fh bits => fh.dataLen ≤ nfs3FhSize ∧ bits < 2 ^ 32
  | .read fh offset count => fh.dataLen ≤ nfs3FhSize ∧ offset < 2 ^ 64 ∧ count < 2 ^ 32
  | .write args => args.file.dataLen ≤ nfs3FhSize ∧ args.offset < 2 ^ 64 ∧ args.data.length < 2 ^ 32
  | .create args (.unchecked a) | .create args (.guarded a) => args.Typed ∧ a.Typed
  | .create args (.exclusive verf) => args.Typed ∧ verf.length = 8
  | .mkdir args attributes => args.Typed ∧ attributes.Typed
  | .remove object | .rmdir object => object.Typed
  | .rename argsFrom argsTo => argsFrom.Typed ∧ argsTo.Typed
  | .readdir fh _ count => fh.dataLen ≤ nfs3FhSize ∧ count < 2 ^ 32

theorem exact_fh3 : Wire.xdrNfsFh3.Exact fun fh => fh.length ≤ nfs3FhSize :=
  Codec.exact_bytes (by decide)

theorem exact_filename3 :
    Wire.xdrFilename3.Exact fun s => 0 ∉ s ∧ s.length ≤ Wire.noLimitString :=
  Codec.exact_string (by decide)

theorem exact_nfstime3 : Wire.xdrNfstime3.Exact fun t =>
    t.seconds.toNat < 2 ^ 32 ∧ t.nseconds.toNat < 2 ^ 32 :=
  (Codec.exact_ulong.seq Codec.exact_ulong).iso

theorem exact_diropargs3 : Wire.xdrDiropargs3.Exact fun a =>
    a.dir.length ≤ nfs3FhSize ∧ 0 ∉ a.name ∧ a.name.length ≤ Wire.noLimitString :=
  (exact_fh3.seq exact_filename3).iso

theorem typed_diropargs3 (behind : List UInt8) {a : Wire.Diropargs3}
    (h : a.dir.length ≤ nfs3FhSize ∧ 0 ∉ a.name ∧ a.name.length ≤ Wire.noLimitString) :
    (diropargs3 behind a).Typed := ⟨h.1, h.2.1⟩

/-- A time that comes with `SET_TO_CLIENT_TIME`. -/
def Wire.SetTime.Fits : Wire.SetTime → Prop :=
  Codec.Union.Holds (fun t => t.seconds.toNat < 2 ^ 32 ∧ t.nseconds.toNat < 2 ^ 32) fun _ => True

theorem exact_setTime : Wire.xdrSetAtime.Exact Wire.SetTime.Fits :=
  Codec.exact_word.union exact_nfstime3 Codec.exact_void

theorem timeHow_lt {t : Wire.SetTime} (h : t.Fits) {seconds : Nat}
    (heq : timeHow t = .setToClientTime seconds) : seconds < 2 ^ 32 := by
  cases t with
  | arm t =>
    cases heq
    exact h.1
  | default d b =>
    dsimp only [timeHow] at heq
    split_ifs at heq

/-- What `xdr_sattr3` passes. -/
structure Wire.Sattr3.Fits (a : Wire.Sattr3) : Prop where
  mode : ∀ n ∈ a.mode, n.toNat < 2 ^ 32
  uid : ∀ n ∈ a.uid, n.toNat < 2 ^ 32
  gid : ∀ n ∈ a.gid, n.toNat < 2 ^ 32
  atime : a.atime.Fits
  mtime : a.mtime.Fits

theorem exact_sattr3 : Wire.xdrSattr3.Exact Wire.Sattr3.Fits :=
  ((Codec.exact_ulong.optional).seq ((Codec.exact_ulong.optional).seq
    ((Codec.exact_ulong.optional).seq ((Codec.exact_hyper.optional).seq
      (exact_setTime.seq exact_setTime))))).iso.congr fun _ =>
    ⟨fun ⟨hmode, huid, hgid, _, hatime, hmtime⟩ => ⟨hmode, huid, hgid, hatime, hmtime⟩,
      fun h => ⟨h.mode, h.uid, h.gid, fun _ _ => trivial, h.atime, h.mtime⟩⟩

theorem typed_sattr3 {a : Wire.Sattr3} (h : a.Fits) : (sattr3 a).Typed := by
  refine ⟨fun m hm => ?_, fun n hn => ?_, fun _ => timeHow_lt h.atime, fun _ => timeHow_lt h.mtime⟩
  · obtain ⟨m', hm', rfl⟩ := Option.map_eq_some_iff.1 hm
    exact h.mode m' hm'
  · obtain ⟨n', -, rfl⟩ := Option.map_eq_some_iff.1 hn
    exact n'.toNat_lt

theorem only_setattr3args : Wire.xdrSetattr3args.Only fun a =>
    a.object.length ≤ nfs3FhSize ∧ (sattr3 a.newAttributes).Typed :=
  (exact_fh3.seq (exact_sattr3.seq exact_nfstime3.optional)).iso.only fun _ h =>
    ⟨h.1, typed_sattr3 h.2.1⟩

theorem exact_access3args : Wire.xdrAccess3args.Exact fun a =>
    a.object.length ≤ nfs3FhSize ∧ a.access.toNat < 2 ^ 32 :=
  (exact_fh3.seq Codec.exact_ulong).iso

theorem only_read3args : Wire.xdrRead3args.Only fun a =>
    a.file.length ≤ nfs3FhSize ∧ a.count.toNat < 2 ^ 32 :=
  (exact_fh3.seq (Codec.exact_hyper.seq Codec.exact_ulong)).iso.only fun _ h => ⟨h.1, h.2.2⟩

theorem only_write3args : Wire.xdrWrite3args.Only fun a =>
    a.file.length ≤ nfs3FhSize ∧ a.data.length < 2 ^ 32 :=
  (exact_fh3.seq (Codec.exact_hyper.seq (Codec.exact_ulong.seq (Codec.exact_word.seq
    (Codec.exact_bytes (by decide)))))).iso.only fun _ h => ⟨h.1, Nat.lt_succ_of_le h.2.2.2.2⟩

/-- What follows a mode of `createhow3`. -/
def Wire.Createhow3.Fits : Wire.Createhow3 → Prop
  | .unchecked a | .guarded a => a.Fits
  | .exclusive verf => verf.length = 8

theorem only_createhow3Arm (mode : UInt32) :
    (Wire.createhow3Arm mode).Only Wire.Createhow3.Fits := by
  intro how out harm
  unfold Wire.createhow3Arm at harm
  split at harm
  · obtain ⟨a, rfl, ha⟩ := Codec.encode_ctor.1 harm
    exact (exact_sattr3 a).1 ⟨out, ha⟩
  · split at harm
    · obtain ⟨a, rfl, ha⟩ := Codec.encode_ctor.1 harm
      exact (exact_sattr3 a).1 ⟨out, ha⟩
    · split at harm
      · obtain ⟨verf, rfl, hv⟩ := Codec.encode_ctor.1 harm
        exact (Codec.exact_data 8 verf).1 ⟨out, hv⟩
      · cases harm

theorem only_createhow3 : Wire.xdrCreatehow3.Only Wire.Createhow3.Fits := by
  intro how out henc
  obtain ⟨-, y, -, harm, -⟩ := Codec.encode_switch.1 henc
  exact only_createhow3Arm _ how y harm

theorem typed_createhow3 {args : Diropargs3} (hargs : args.Typed) {how : Wire.Createhow3}
    (h : how.Fits) : (NfsRequest.create args (createhow3 how)).Typed := by
  cases how with
  | unchecked a => exact ⟨hargs, typed_sattr3 h⟩
  | guarded a => exact ⟨hargs, typed_sattr3 h⟩
  | exclusive verf => exact ⟨hargs, h⟩

theorem only_create3args : Wire.xdrCreate3args.Only fun a =>
    (a.location.dir.length ≤ nfs3FhSize ∧ 0 ∉ a.location.name ∧
      a.location.name.length ≤ Wire.noLimitString) ∧ a.how.Fits := by
  intro a out henc
  rw [Wire.xdrCreate3args, Codec.iso, Codec.encode_via] at henc
  obtain ⟨p, heq, hseq⟩ := henc
  cases heq
  obtain ⟨x, y, hx, hy, -⟩ := Codec.encode_seq.1 hseq
  exact ⟨(exact_diropargs3 _).1 ⟨x, hx⟩, only_createhow3 _ y hy⟩

theorem nfsProc_typed {Args Out Res : Type} {xdrArgument : Codec Args} {xdrResult : Codec Res}
    {request : Args → NfsRequest} {function : Args → SvcReq → M L R Out} {reply : Out → NfsReply}
    {result : Args → Out → Res}
    {h : ∀ args rq, nfsProgram w rq (request args) = replyWith reply (function args rq)}
    (ht : xdrArgument.Only fun args => (request args).Typed) :
    (nfsProc w xdrArgument xdrResult request function reply result h).xdrArgument.Only fun args =>
      ((nfsProc w xdrArgument xdrResult request function reply result h).request args).Typed :=
  ht

theorem unsupportedProc_typed {Args ok fail : Type} {xdrArgument : Codec Args}
    {xdrResult : Codec (Wire.Res ok fail)} {resfail : fail} :
    (unsupportedProc w xdrArgument xdrResult resfail).xdrArgument.Only fun args =>
      ((unsupportedProc w xdrArgument xdrResult resfail).request args).Typed :=
  fun _ _ _ => trivial

/-- A procedure is given what the types of its arguments allow. -/
theorem arguments_typed {behind behindTo : List UInt8} {rqProc : Nat} {p : NfsProc w}
    (hp : nfs3Program3 w behind behindTo rqProc = some p) :
    p.xdrArgument.Only fun args => (p.request args).Typed := by
  have hfh : Wire.xdrNfsFh3.Only fun fh => fh.length ≤ nfs3FhSize := exact_fh3.only fun _ h => h
  have hdir : Wire.xdrDiropargs3.Only fun a => (diropargs3 behind a).Typed :=
    exact_diropargs3.only fun _ => typed_diropargs3 behind
  unfold nfs3Program3 at hp
  split at hp <;> cases hp
  · exact nfsProc_typed fun _ _ _ => trivial
  · exact nfsProc_typed hfh
  · exact nfsProc_typed only_setattr3args
  · exact nfsProc_typed hdir
  · exact nfsProc_typed (exact_access3args.only fun _ h => h)
  · exact unsupportedProc_typed
  · exact nfsProc_typed fun a out henc =>
      have h := only_read3args a out henc
      ⟨h.1, a.offset.toNat_lt, h.2⟩
  · exact nfsProc_typed fun a out henc =>
      have h := only_write3args a out henc
      ⟨h.1, a.offset.toNat_lt, h.2⟩
  · exact nfsProc_typed fun a out henc =>
      have h := only_create3args a out henc
      typed_createhow3 (typed_diropargs3 behind h.1) h.2
  · exact nfsProc_typed ((exact_diropargs3.seq exact_sattr3).iso.only fun _ h =>
      ⟨typed_diropargs3 behind h.1, typed_sattr3 h.2⟩)
  · exact unsupportedProc_typed
  · exact unsupportedProc_typed
  · exact nfsProc_typed hdir
  · exact nfsProc_typed hdir
  · exact nfsProc_typed ((exact_diropargs3.seq exact_diropargs3).iso.only fun _ h =>
      ⟨typed_diropargs3 behind h.1, typed_diropargs3 behindTo h.2⟩)
  · exact unsupportedProc_typed
  · exact nfsProc_typed ((exact_fh3.seq (Codec.exact_hyper.seq ((Codec.exact_data 8).seq
      Codec.exact_ulong))).iso.only fun _ h => ⟨h.1, h.2.2.2⟩)
  · exact unsupportedProc_typed
  · exact nfsProc_typed hfh
  · exact nfsProc_typed hfh
  · exact nfsProc_typed hfh
  · exact unsupportedProc_typed

/-! ## What a message does -/

/-- The request of a message of the program. -/
def requestOf (w : World L R) (behind behindTo : List UInt8) (rqProc : Nat) (msg : List UInt8) :
    Option NfsRequest :=
  (nfs3Program3 w behind behindTo rqProc).bind fun p => p.requestOf msg

/-- The request that a message is has been decoded from it. -/
theorem requestOf_eq_some {behind behindTo : List UInt8} {rqProc : Nat} {msg : List UInt8}
    {q : NfsRequest} (h : requestOf w behind behindTo rqProc msg = some q) :
    ∃ p args rest, nfs3Program3 w behind behindTo rqProc = some p ∧
      p.xdrArgument.decode msg = some (args, rest) ∧ p.request args = q := by
  obtain ⟨p, hp, h⟩ := Option.bind_eq_some_iff.1 h
  obtain ⟨⟨args, rest⟩, hdec, hq⟩ := Option.map_eq_some_iff.1 h
  exact ⟨p, args, rest, hp, hdec, hq⟩

/-- A message that is no request changes nothing. -/
theorem dispatchNfs_refused {behind behindTo : List UInt8} {rqProc : Nat} {msg : List UInt8}
    (h : requestOf w behind behindTo rqProc msg = none) (rq : SvcReq) (s : Server L R) :
    ∃ a, dispatchNfs w behind behindTo rq rqProc msg s = (.ok a, s) ∧
      (a = .noproc ∨ a = .decode) := by
  rw [dispatchNfs]
  cases hp : nfs3Program3 w behind behindTo rqProc with
  | none => exact ⟨_, rfl, .inl rfl⟩
  | some p =>
    rw [requestOf, hp, Option.bind_some, NfsProc.requestOf] at h
    simp only [NfsProc.answer, Option.map_eq_none_iff.1 h]
    exact ⟨_, rfl, .inr rfl⟩

/-- A message that is a request does what the daemon does for it. -/
theorem dispatchNfs_serves {behind behindTo : List UInt8} {rqProc : Nat} {msg : List UInt8}
    {q : NfsRequest} (h : requestOf w behind behindTo rqProc msg = some q) (rq : SvcReq)
    (s : Server L R) :
    (∃ reply s' a, serveNfs w rq q s = (.ok reply, s') ∧ (a = .systemerr ∨ ∃ r, a = .reply r) ∧
      dispatchNfs w behind behindTo rq rqProc msg s = (.ok a, s')) ∨
    ∃ st s', serveNfs w rq q s = (.error st, s') ∧
      dispatchNfs w behind behindTo rq rqProc msg s = (.error st, s') := by
  obtain ⟨p, args, rest, hp, hdec, rfl⟩ := requestOf_eq_some h
  have hans : dispatchNfs w behind behindTo rq rqProc msg = p.perform rq args := by
    rw [dispatchNfs, hp]
    exact p.answer_decoded hdec rq
  rw [hans]
  rcases p.perform_run args rq s with ⟨out, s', hserve, hrun⟩ | hstop
  · refine .inl ⟨_, s', _, hserve, ?_, hrun⟩
    rcases sendreply_cases p.xdrResult (p.result args out) with ⟨hs, -⟩ | ⟨r, hs, -⟩
    · exact .inl hs
    · exact .inr ⟨r, hs⟩
  · exact .inr hstop

/-- **What a message can do.** Whatever bytes arrive for whichever procedure, either nothing
changes and an error is sent, or they stand for a request with the values that its types allow and
have the effect of that request, and so has its shortest form, whatever follows that. -/
theorem message_effect (w : World L R) (behind behindTo : List UInt8) (rq : SvcReq) (rqProc : Nat)
    (msg : List UInt8) :
    (∀ s, ∃ a, dispatchNfs w behind behindTo rq rqProc msg s = (.ok a, s) ∧
      (a = .noproc ∨ a = .decode)) ∨
    ∃ q used out, q.Typed ∧ used <+: msg ∧ used.length % 4 = 0 ∧ out.length ≤ used.length ∧
      (∀ s, (dispatchNfs w behind behindTo rq rqProc msg s).2 = (serveNfs w rq q s).2) ∧
      ∀ trailing, requestOf w behind behindTo rqProc (out ++ trailing) = some q ∧
        dispatchNfs w behind behindTo rq rqProc (out ++ trailing) =
          dispatchNfs w behind behindTo rq rqProc msg := by
  cases h : requestOf w behind behindTo rqProc msg with
  | none => exact .inl fun s => dispatchNfs_refused h rq s
  | some q =>
    obtain ⟨p, args, rest, hp, hdec, rfl⟩ := requestOf_eq_some h
    obtain ⟨used, out, hmsg, hmod, henc, hle⟩ := p.xdrArgument.encode_decode hdec
    refine .inr ⟨_, used, out, (arguments_typed hp).decoded hdec, ⟨rest, hmsg.symm⟩, hmod, hle,
      fun s => ?_, fun trailing => ?_⟩
    · rcases dispatchNfs_serves h rq s with
        ⟨reply, s', a, hserve, -, hrun⟩ | ⟨st, s', hserve, hrun⟩
      · rw [hserve, hrun]
      · rw [hserve, hrun]
    · have hdec' := p.xdrArgument.decode_encode henc trailing
      refine ⟨?_, ?_⟩
      · rw [requestOf, hp, Option.bind_some, NfsProc.requestOf, hdec', Option.map_some]
      · rw [dispatchNfs, dispatchNfs, hp]
        exact (p.answer_decoded hdec' rq).trans (p.answer_decoded hdec rq).symm

/-! ## What lies behind the handles -/

theorem replyWith_inj {Out : Type} {f : Out → NfsReply} (hf : Function.Injective f)
    {m m' : M L R Out} (h : replyWith f m = replyWith f m') : m = m' := by
  funext s
  have hs := congrFun h s
  simp only [replyWith, Prog.bind_run] at hs
  rcases hm : m s with ⟨st | out, s1⟩ <;> rcases hm' : m' s with ⟨st' | out', s1'⟩ <;>
    rw [hm, hm'] at hs
  · cases hs
    rfl
  · cases hs
  · cases hs
  · obtain ⟨hout, rfl⟩ : f out = f out' ∧ s1 = s1' := by
      simpa only [Prog.pure_run, Prod.mk.injEq, Except.ok.injEq] using hs
    rw [hf hout]

/-- Procedures that differ in no argument that a message can carry answer alike. -/
theorem nfsProc_congr {Args Out Res : Type} {xdrArgument : Codec Args} {xdrResult : Codec Res}
    {request request' : Args → NfsRequest} {function function' : Args → SvcReq → M L R Out}
    {reply : Out → NfsReply} {result : Args → Out → Res}
    (h : ∀ args rq, nfsProgram w rq (request args) = replyWith reply (function args rq))
    (h' : ∀ args rq, nfsProgram w rq (request' args) = replyWith reply (function' args rq))
    (hreply : Function.Injective reply)
    (halike : xdrArgument.Only fun args => ∀ rq,
      nfsProgram w rq (request args) = nfsProgram w rq (request' args)) :
    (nfsProc w xdrArgument xdrResult request function reply result h).answer =
      (nfsProc w xdrArgument xdrResult request' function' reply result h').answer := by
  funext rq msg
  simp only [NfsProc.answer, nfsProc]
  cases hdec : xdrArgument.decode msg with
  | none => rfl
  | some r =>
    obtain ⟨args, rest⟩ := r
    have hfun : function args rq = function' args rq := by
      refine replyWith_inj hreply ?_
      rw [← h args rq, ← h' args rq]
      exact halike.decoded hdec rq
    simp only [hfun]

theorem nfsProgram_overlay {data : List UInt8} (h : data.length ≤ nfs3FhSize) (b b' : List UInt8)
    (rq : SvcReq) (q : NfsRequest) :
    nfsProgram w rq (q.withHandles (overlay data b) (overlay data b)) =
      nfsProgram w rq (q.withHandles (overlay data b') (overlay data b')) :=
  nfsProgram_alike (overlay_alike h b b') (overlay_alike h b b') rq q

/-- The procedures of the table answer without what lies behind the handles. -/
theorem answer_within (b bt b' bt' : List UInt8) : ∀ rqProc,
    (nfs3Program3 w b bt rqProc).map NfsProc.answer =
      (nfs3Program3 w b' bt' rqProc).map NfsProc.answer
  | 1 => congrArg some (nfsProc_congr (fun _ _ => rfl) (fun _ _ => rfl)
      (fun _ _ h => NfsReply.getattr.inj h)
      (exact_fh3.only fun fh h rq =>
        nfsProgram_overlay h b b' rq (.getattr (overlay fh b))))
  | 2 => congrArg some (nfsProc_congr (fun _ _ => rfl) (fun _ _ => rfl)
      (fun _ _ h => NfsReply.setattr.inj h)
      fun a out henc rq =>
        nfsProgram_overlay (only_setattr3args a out henc).1 b b' rq
          (.setattr (overlay a.object b) _))
  | 3 => congrArg some (nfsProc_congr (fun _ _ => rfl) (fun _ _ => rfl)
      (fun _ _ h => NfsReply.lookup.inj h)
      (exact_diropargs3.only fun a h rq =>
        nfsProgram_overlay h.1 b b' rq (.lookup (diropargs3 b a))))
  | 4 => congrArg some (nfsProc_congr (fun _ _ => rfl) (fun _ _ => rfl)
      (fun _ _ h => NfsReply.access.inj h)
      (exact_access3args.only fun a h rq =>
        nfsProgram_overlay h.1 b b' rq (.access (overlay a.object b) _)))
  | 6 => congrArg some (nfsProc_congr (fun _ _ => rfl) (fun _ _ => rfl)
      (fun _ _ h => NfsReply.read.inj h)
      fun a out henc rq =>
        nfsProgram_overlay (only_read3args a out henc).1 b b' rq (.read (overlay a.file b) _ _))
  | 7 => congrArg some (nfsProc_congr (fun _ _ => rfl) (fun _ _ => rfl)
      (fun _ _ h => NfsReply.write.inj h)
      fun a out henc rq =>
        nfsProgram_overlay (only_write3args a out henc).1 b b' rq (.write (write3args b a)))
  | 8 => congrArg some (nfsProc_congr (fun _ _ => rfl) (fun _ _ => rfl)
      (fun _ _ h => NfsReply.create.inj h)
      fun a out henc rq =>
        nfsProgram_overlay (only_create3args a out henc).1.1 b b' rq
          (.create (diropargs3 b a.location) _))
  | 9 => congrArg some (nfsProc_congr (fun _ _ => rfl) (fun _ _ => rfl)
      (fun _ _ h => NfsReply.mkdir.inj h)
      ((exact_diropargs3.seq exact_sattr3).iso.only fun a h rq =>
        nfsProgram_overlay h.1.1 b b' rq (.mkdir (diropargs3 b a.location) _)))
  | 12 => congrArg some (nfsProc_congr (fun _ _ => rfl) (fun _ _ => rfl)
      (fun _ _ h => NfsReply.remove.inj h)
      (exact_diropargs3.only fun a h rq =>
        nfsProgram_overlay h.1 b b' rq (.remove (diropargs3 b a))))
  | 13 => congrArg some (nfsProc_congr (fun _ _ => rfl) (fun _ _ => rfl)
      (fun _ _ h => NfsReply.rmdir.inj h)
      (exact_diropargs3.only fun a h rq =>
        nfsProgram_overlay h.1 b b' rq (.rmdir (diropargs3 b a))))
  | 14 => congrArg some (nfsProc_congr (fun _ _ => rfl) (fun _ _ => rfl)
      (fun _ _ h => NfsReply.rename.inj h)
      ((exact_diropargs3.seq exact_diropargs3).iso.only fun a h rq =>
        nfsProgram_alike (overlay_alike h.1.1 b b') (overlay_alike h.2.1 bt bt') rq
          (.rename (diropargs3 b a.argsFrom) (diropargs3 bt a.argsTo))))
  | 16 => congrArg some (nfsProc_congr (fun _ _ => rfl) (fun _ _ => rfl)
      (fun _ _ h => NfsReply.readdir.inj h)
      ((exact_fh3.seq (Codec.exact_hyper.seq ((Codec.exact_data 8).seq
        Codec.exact_ulong))).iso.only fun a h rq =>
        nfsProgram_overlay h.1 b b' rq (.readdir (overlay a.dir b) _ _)))
  | 18 => congrArg some (nfsProc_congr (fun _ _ => rfl) (fun _ _ => rfl)
      (fun _ _ h => NfsReply.fsstat.inj h)
      (exact_fh3.only fun fh h rq =>
        nfsProgram_overlay h b b' rq (.fsstat (overlay fh b))))
  | 19 => congrArg some (nfsProc_congr (fun _ _ => rfl) (fun _ _ => rfl)
      (fun _ _ h => NfsReply.fsinfo.inj h)
      (exact_fh3.only fun fh h rq =>
        nfsProgram_overlay h b b' rq (.fsinfo (overlay fh b))))
  | 20 => congrArg some (nfsProc_congr (fun _ _ => rfl) (fun _ _ => rfl)
      (fun _ _ h => NfsReply.pathconf.inj h)
      (exact_fh3.only fun fh h rq =>
        nfsProgram_overlay h b b' rq (.pathconf (overlay fh b))))
  | 0 | 5 | 10 | 11 | 15 | 17 | 21 | _ + 22 => by simp only [nfs3Program3]

/-- **Only the message counts.** What lies behind the handles of a message in memory, where
`unfs3_fh_t` reaches, makes no difference to what is done or sent. -/
theorem dispatchNfs_within (w : World L R) (b bt b' bt' : List UInt8) (rq : SvcReq) (rqProc : Nat)
    (msg : List UInt8) : dispatchNfs w b bt rq rqProc msg = dispatchNfs w b' bt' rq rqProc msg := by
  have h := answer_within (w := w) b bt b' bt' rqProc
  rw [dispatchNfs, dispatchNfs]
  cases hp : nfs3Program3 w b bt rqProc <;> cases hp' : nfs3Program3 w b' bt' rqProc <;>
    rw [hp, hp'] at h
  · cases h
  · cases h
  · exact congrFun (congrFun (Option.some.inj h) rq) msg

/-! ## The MOUNT program -/

/-- A string that `xdr_dirpath` passes. -/
def DirpathFits (s : CStr) : Prop := 0 ∉ s ∧ s.length ≤ 1024

theorem exact_dirpath : Wire.xdrDirpath.Exact DirpathFits := Codec.exact_string (by decide)

/-- A request has the values that the types of its arguments have. -/
def MountRequest.Typed : MountRequest → Prop
  | .mnt argp | .umnt argp => DirpathFits argp
  | .null | .dump | .umntall => True

theorem mount_arguments_typed {rqProc : Nat} {p : MountProc w}
    (hp : mountprog3 w rqProc = some p) :
    p.xdrArgument.Only fun args => ∀ q, p.request args = some q → q.Typed := by
  have hdir : Wire.xdrDirpath.Only DirpathFits := exact_dirpath.only fun _ h => h
  unfold mountprog3 at hp
  split at hp <;> cases hp
  · rintro args out - q ⟨⟩
    trivial
  · rintro args out henc q ⟨⟩
    exact hdir args out henc
  · rintro args out - q ⟨⟩
    trivial
  · rintro args out henc q ⟨⟩
    exact hdir args out henc
  · rintro args out - q ⟨⟩
    trivial
  · rintro args out - q ⟨⟩

/-- A message to the MOUNT program changes nothing, or does what its request does. -/
theorem dispatchMount_effect {rq : SvcReq} {rqProc : Nat} {msg : List UInt8} {s s' : Server L R}
    {a : Answer} (h : dispatchMount w rq rqProc msg s = (.ok a, s')) :
    s' = s ∨ ∃ q : MountRequest, q.Typed ∧ serveMount w rq q s = (.ok (), s') := by
  rw [dispatchMount] at h
  cases hp : mountprog3 w rqProc with
  | none =>
    rw [hp] at h
    cases h
    exact .inl rfl
  | some p =>
    rw [hp] at h
    simp only [MountProc.answer] at h
    cases hdec : p.xdrArgument.decode msg with
    | none =>
      rw [hdec] at h
      cases h
      exact .inl rfl
    | some r =>
      obtain ⟨args, rest⟩ := r
      rw [hdec] at h
      obtain ⟨res, s1, hfun, hsend⟩ := Prog.bind_eq_ok h
      cases hsend
      have heq := congrFun (p.function_eq args rq) s
      rw [Prog.bind_ok hfun] at heq
      cases hq : p.request args with
      | none =>
        rw [hq] at heq
        cases heq
        exact .inl rfl
      | some q =>
        rw [hq] at heq
        exact .inr ⟨q, (mount_arguments_typed hp).decoded hdec q hq, heq⟩

end

/-! ## Runs on messages -/

/-- A message for the NFS program and the state it arrives in. -/
structure Packet (L R : Type) where
  rq : SvcReq
  rqProc : Nat
  msg : List UInt8
  behind : List UInt8
  behindTo : List UInt8
  state : Server L R

section
variable {L R : Type} (w : World L R)

/-- How the daemon answers a message. -/
def Packet.dispatch (v : Packet L R) : Except Stop Answer × Server L R :=
  dispatchNfs w v.behind v.behindTo v.rq v.rqProc v.msg v.state

/-- The visit that a message is. -/
def Packet.visit (v : Packet L R) : Option (Visit L R) :=
  (requestOf w v.behind v.behindTo v.rqProc v.msg).map fun q =>
    { rq := v.rq, call := q, state := v.state }

/-- `WireRuns log x`: from start-up the daemon has answered the messages of `log` to the NFS program
in order, and any to the MOUNT program, and is now in the state `x`, or has stopped. -/
inductive WireRuns : List (Packet L R) → Option (Server L R) → Prop
  | start {s : Server L R} (h : Initial s) : WireRuns [] (some s)
  | mount {log : List (Packet L R)} {s s' : Server L R} (h : WireRuns log (some s)) (rq : SvcReq)
    (rqProc : Nat) (msg : List UInt8) {a : Answer}
    (ha : dispatchMount w rq rqProc msg s = (.ok a, s')) : WireRuns log (some s')
  | outside {log : List (Packet L R)} {s : Server L R} (h : WireRuns log (some s)) (k : L) (r : R) :
    WireRuns log (some { s with kernel := k, rods := r })
  | reload {log : List (Packet L R)} {s : Server L R} (h : WireRuns log (some s))
    (list : List EItem) : WireRuns log (some { s with exportList := list })
  | idle {log : List (Packet L R)} {s s' : Server L R} (h : WireRuns log (some s))
    (hs : fdCacheCloseInactive w s = (.ok (), s')) : WireRuns log (some s')
  | answered {log : List (Packet L R)} {v : Packet L R} (h : WireRuns log (some v.state))
    {a : Answer} (ha : (v.dispatch w).1 = .ok a) :
    WireRuns (log ++ [v]) (some (v.dispatch w).2)
  | stopped {log : List (Packet L R)} {v : Packet L R} (h : WireRuns log (some v.state)) {st : Stop}
    (ha : (v.dispatch w).1 = .error st) : WireRuns (log ++ [v]) none

variable {w}

theorem Packet.visit_typed {v : Packet L R} {x : Visit L R} (h : v.visit w = some x) :
    x.call.Typed := by
  obtain ⟨q, hq, rfl⟩ := Option.map_eq_some_iff.1 h
  obtain ⟨p, args, rest, hp, hdec, rfl⟩ := requestOf_eq_some hq
  exact (arguments_typed hp).decoded hdec

theorem filterMap_visit_append (log : List (Packet L R)) (v : Packet L R) :
    (log ++ [v]).filterMap (Packet.visit w) =
      log.filterMap (Packet.visit w) ++ (v.visit w).toList := by
  rw [List.filterMap_append]
  cases h : v.visit w <;> simp [h]

/-- A message adds the visit it is. -/
theorem Runs.packet {v : Packet L R} {visits : List (Visit L R)}
    (h : Runs w visits (some v.state)) :
    (∀ a, (v.dispatch w).1 = .ok a →
      Runs w (visits ++ (v.visit w).toList) (some (v.dispatch w).2)) ∧
    ∀ st, (v.dispatch w).1 = .error st → Runs w (visits ++ (v.visit w).toList) none := by
  cases hq : requestOf w v.behind v.behindTo v.rqProc v.msg with
  | none =>
    have hvisit : v.visit w = none := by rw [Packet.visit, hq, Option.map_none]
    obtain ⟨a, hrun, -⟩ := dispatchNfs_refused hq v.rq v.state
    have hrun' : v.dispatch w = (.ok a, v.state) := hrun
    rw [hvisit, hrun', Option.toList_none, List.append_nil]
    exact ⟨fun _ _ => h, fun _ hst => nomatch hst⟩
  | some q =>
    have hvisit : v.visit w = some { rq := v.rq, call := q, state := v.state } := by
      rw [Packet.visit, hq, Option.map_some]
    rw [hvisit, Option.toList_some]
    have hv : Runs w visits
        (some ({ rq := v.rq, call := q, state := v.state } : Visit L R).state) := h
    rcases dispatchNfs_serves hq v.rq v.state with
      ⟨reply, s', a, hserve, -, hrun⟩ | ⟨st, s', hserve, hrun⟩
    · have hrun' : v.dispatch w = (.ok a, s') := hrun
      have hserve' : Visit.serve w { rq := v.rq, call := q, state := v.state } =
        (.ok reply, s') := hserve
      rw [hrun']
      refine ⟨fun _ _ => ?_, fun _ hst => nomatch hst⟩
      have hnext := Runs.replied hv (by rw [hserve'])
      rwa [hserve'] at hnext
    · have hrun' : v.dispatch w = (.error st, s') := hrun
      have hserve' : Visit.serve w { rq := v.rq, call := q, state := v.state } =
        (.error st, s') := hserve
      rw [hrun']
      exact ⟨fun _ ha => (nomatch ha), fun _ _ => Runs.stopped hv (by rw [hserve'])⟩

/-- **A run on messages is a run on requests.** Whatever messages clients send to both programs,
forged ones, truncated ones and ones that are no request among them, and whatever happens between
them, the daemon is in a state that it reaches by serving the requests among the messages to the NFS
program, in their order, and each has the values that its types allow. -/
theorem wireRuns_refine {log : List (Packet L R)} {last : Option (Server L R)}
    (h : WireRuns w log last) :
    Runs w (log.filterMap (Packet.visit w)) last ∧
      ∀ x ∈ log.filterMap (Packet.visit w), x.call.Typed := by
  refine ⟨?_, fun x hx => ?_⟩
  · induction h with
    | start h => exact .start h
    | mount _ rq rqProc msg ha ih =>
      rcases dispatchMount_effect ha with rfl | ⟨q, -, hq⟩
      · exact ih
      · exact .between ih (.mount rq q hq)
    | outside _ k r ih => exact .between ih (.outside _ k r)
    | reload _ list ih => exact .between ih (.reload _ list)
    | idle _ hs ih => exact .between ih (.idle hs)
    | answered _ ha ih =>
      rw [filterMap_visit_append]
      exact ih.packet.1 _ ha
    | stopped _ ha ih =>
      rw [filterMap_visit_append]
      exact ih.packet.2 _ ha
  · obtain ⟨v, -, hv⟩ := List.mem_filterMap.1 hx
    exact Packet.visit_typed hv

end

/-- A LOOKUP whose handle is longer than its message. -/
def badPacket : Packet Sandbox.Kernel Sandbox.Grid :=
  { rq := wireReq, rqProc := 3, msg := [0, 0, 0, 64, 1], behind := [], behindTo := []
    state := wireServer }

/-- SETATTR of a handle that is not valid, with an access time that is no `time_how`. -/
def setattrPacket : Packet Sandbox.Kernel Sandbox.Grid :=
  { rq := wireReq, rqProc := 2
    msg := [0, 0, 0, 1, 9, 0, 0, 0] ++ List.replicate 19 0 ++ [3] ++ List.replicate 8 0
    behind := [], behindTo := [], state := (badPacket.dispatch Sandbox.publicWorld).2 }

/-- Two messages, of which one is a request. -/
theorem wireRuns_refine_two :
    Runs Sandbox.publicWorld
      [{ rq := wireReq, call := .setattr (overlay [9] []) { atime := .other }
         state := wireServer }]
      (some (setattrPacket.dispatch Sandbox.publicWorld).2) := by
  have hstart : WireRuns Sandbox.publicWorld [] (some badPacket.state) :=
    .start ⟨_, _, _, _, _, _, rfl⟩
  have hbad : WireRuns Sandbox.publicWorld [badPacket] (some setattrPacket.state) :=
    hstart.answered (a := .decode) rfl
  have hsetattr := hbad.answered (v := setattrPacket)
    (a := .reply ([0, 0, 0, 70] ++ List.replicate 8 0)) (by decide +kernel)
  exact (wireRuns_refine hsetattr).1

end NfsRods
