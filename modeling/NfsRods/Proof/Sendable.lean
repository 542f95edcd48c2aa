import NfsRods.Proof.Wire

/-!
# Which results can be sent

Attributes go through `xdr_u_long`, which writes 32 bits and refuses a number that has more. A
result with such a number, or with a handle or a name that is too long, is not sent: the procedure
has run, and the client gets `svcerr_systemerr`.

* `reply_sent_iff`: the results that are sent, for every procedure.
* `systemerr_iff`: when a message is answered with a system error, though its request was performed.
-/

namespace NfsRods

open CStr Xdr
open Codec (Union)

/-! ## Numbers -/

/-- `xdr_u_long` writes the number that is assigned to an `unsigned long`. -/
def Passes (n : Int) : Prop := n % 2 ^ 64 < 2 ^ 32

instance (n : Int) : Decidable (Passes n) := inferInstanceAs (Decidable (_ < _))

theorem passes_ofInt (n : Int) : (UInt64.ofInt n).toNat < 2 ^ 32 ↔ Passes n := by
  unfold UInt64.ofInt Passes
  rw [UInt64.toNat_ofNat']
  omega

theorem passes_ofNat (n : Nat) : (UInt64.ofNat n).toNat < 2 ^ 32 ↔ Passes n := by
  rw [UInt64.toNat_ofNat']
  unfold Passes
  omega

theorem passes_toCInt (u : UInt32) : Passes (toCInt u) ↔ u.toNat < 2 ^ 31 := by
  have hu := u.toNat_lt
  unfold Passes toCInt
  split <;> omega

theorem passes_toUInt64 (u : UInt32) : u.toUInt64.toNat < 2 ^ 32 := by
  rw [UInt32.toNat_toUInt64]
  exact u.toNat_lt

/-! ## Attributes -/

/-- The times and numbers of these attributes are written. -/
structure Fattr3.Sendable (a : Fattr3) : Prop where
  mode : Passes a.mode
  nlink : Passes a.nlink
  specdata1 : Passes a.specdata1
  specdata2 : Passes a.specdata2
  atime : Passes a.atime
  mtime : Passes a.mtime
  ctime : Passes a.ctime

/-- So are the ids, which GETATTR and LOOKUP return as `int` for a regular file. -/
def Fattr3.ObjSendable (a : Fattr3) : Prop :=
  a.Sendable ∧ (a.type = .reg → a.uid.toNat < 2 ^ 31 ∧ a.gid.toNat < 2 ^ 31)

def PostOpAttr.Sendable (p : PostOpAttr) : Prop := p.follow = true → p.attributes.Sendable

def PreOpAttr.Sendable (p : PreOpAttr) : Prop := p.follow = true → Passes p.mtime ∧ Passes p.ctime

def WccData.Sendable (d : WccData) : Prop := d.before.Sendable ∧ d.after.Sendable

/-- What `xdr_fattr3` passes. -/
structure Wire.Fattr3.Fits (a : Wire.Fattr3) : Prop where
  mode : a.mode.toNat < 2 ^ 32
  nlink : a.nlink.toNat < 2 ^ 32
  uid : a.uid.toNat < 2 ^ 32
  gid : a.gid.toNat < 2 ^ 32
  rdev : a.rdev.specdata1.toNat < 2 ^ 32 ∧ a.rdev.specdata2.toNat < 2 ^ 32
  atime : a.atime.seconds.toNat < 2 ^ 32 ∧ a.atime.nseconds.toNat < 2 ^ 32
  mtime : a.mtime.seconds.toNat < 2 ^ 32 ∧ a.mtime.nseconds.toNat < 2 ^ 32
  ctime : a.ctime.seconds.toNat < 2 ^ 32 ∧ a.ctime.nseconds.toNat < 2 ^ 32

theorem exact_specdata3 : Wire.xdrSpecdata3.Exact fun s =>
    s.specdata1.toNat < 2 ^ 32 ∧ s.specdata2.toNat < 2 ^ 32 :=
  (Codec.exact_ulong.seq Codec.exact_ulong).iso

theorem exact_fattr3 : Wire.xdrFattr3.Exact Wire.Fattr3.Fits :=
  (Codec.exact_word.seq (Codec.exact_ulong.seq (Codec.exact_ulong.seq (Codec.exact_ulong.seq
    (Codec.exact_ulong.seq (Codec.exact_hyper.seq (Codec.exact_hyper.seq (exact_specdata3.seq
      (Codec.exact_hyper.seq (Codec.exact_hyper.seq (exact_nfstime3.seq (exact_nfstime3.seq
        exact_nfstime3)))))))))))).iso.congr fun _ =>
    ⟨fun ⟨_, hmode, hnlink, huid, hgid, _, _, hrdev, _, _, hatime, hmtime, hctime⟩ =>
        ⟨hmode, hnlink, huid, hgid, hrdev, hatime, hmtime, hctime⟩,
      fun h => ⟨trivial, h.mode, h.nlink, h.uid, h.gid, trivial, trivial, h.rdev, trivial, trivial,
        h.atime, h.mtime, h.ctime⟩⟩

theorem exact_postOpAttr : Wire.xdrPostOpAttr.Exact fun p => ∀ a ∈ p, a.Fits :=
  exact_fattr3.optional

/-- What `xdr_wcc_data` passes. -/
def Wire.WccData.Fits (d : Wire.WccData) : Prop :=
  (∀ a ∈ d.before, (a.mtime.seconds.toNat < 2 ^ 32 ∧ a.mtime.nseconds.toNat < 2 ^ 32) ∧
    a.ctime.seconds.toNat < 2 ^ 32 ∧ a.ctime.nseconds.toNat < 2 ^ 32) ∧
  ∀ a ∈ d.after, a.Fits

theorem exact_wccData : Wire.xdrWccData.Exact Wire.WccData.Fits :=
  ((Codec.exact_hyper.seq (exact_nfstime3.seq exact_nfstime3)).iso.optional.seq
    exact_postOpAttr).iso.congr fun _ =>
      and_congr_left fun _ => forall₂_congr fun _ _ => iff_of_eq (true_and _)

theorem fits_nfstime3 (t : Int) :
    ((nfstime3 t).seconds.toNat < 2 ^ 32 ∧ (nfstime3 t).nseconds.toNat < 2 ^ 32) ↔ Passes t :=
  ⟨fun h => (passes_ofInt t).1 h.1,
    fun h => ⟨(passes_ofInt t).2 h, show (0 : UInt64).toNat < 2 ^ 32 by decide⟩⟩

theorem fits_fattr3 (a : Fattr3) : (fattr3 a).Fits ↔ a.Sendable := by
  constructor
  · intro h
    exact ⟨(passes_ofNat _).1 h.mode, (passes_ofNat _).1 h.nlink, (passes_ofNat _).1 h.rdev.1,
      (passes_ofNat _).1 h.rdev.2, (fits_nfstime3 _).1 h.atime, (fits_nfstime3 _).1 h.mtime,
      (fits_nfstime3 _).1 h.ctime⟩
  · intro h
    exact ⟨(passes_ofNat _).2 h.mode, (passes_ofNat _).2 h.nlink, passes_toUInt64 _,
      passes_toUInt64 _,
      ⟨(passes_ofNat _).2 h.specdata1, (passes_ofNat _).2 h.specdata2⟩, (fits_nfstime3 _).2 h.atime,
      (fits_nfstime3 _).2 h.mtime, (fits_nfstime3 _).2 h.ctime⟩

theorem fits_objFattr3 (a : Fattr3) : (objFattr3 a).Fits ↔ a.ObjSendable := by
  unfold objFattr3 Fattr3.ObjSendable
  split
  · rename_i hreg
    rw [← fits_fattr3, ← passes_toCInt, ← passes_toCInt, ← passes_ofInt, ← passes_ofInt]
    constructor
    · intro h
      exact ⟨⟨h.mode, h.nlink, passes_toUInt64 _, passes_toUInt64 _, h.rdev, h.atime, h.mtime,
        h.ctime⟩, fun _ => ⟨h.uid, h.gid⟩⟩
    · rintro ⟨h, hids⟩
      exact ⟨h.mode, h.nlink, (hids hreg).1, (hids hreg).2, h.rdev, h.atime, h.mtime, h.ctime⟩
  · rename_i hreg
    rw [fits_fattr3]
    exact ⟨fun h => ⟨h, fun hr => absurd hr hreg⟩, And.left⟩

theorem fits_follow {follow : Bool} {a : Wire.Fattr3} {P : Prop} (h : a.Fits ↔ P) :
    (∀ b ∈ (if follow then some a else none), b.Fits) ↔ (follow = true → P) := by
  cases follow <;> simp [h]

theorem fits_postOpAttr (p : PostOpAttr) : (∀ a ∈ postOpAttr p, a.Fits) ↔ p.Sendable :=
  fits_follow (fits_fattr3 _)

theorem fits_wccData (d : WccData) : (wccData d).Fits ↔ d.Sendable := by
  refine and_congr ?_ (fits_postOpAttr d.after)
  show (∀ a ∈ preOpAttr d.before, _) ↔ _
  unfold preOpAttr PreOpAttr.Sendable
  cases d.before.follow with
  | false => simp
  | true => simp only [if_true, Option.mem_some_iff, forall_eq', fits_nfstime3, forall_const]

/-! ## Results -/

/-- The results that are written, by their status. -/
def NfsReply.Sendable : NfsReply → Prop
  | .null | .unsupported _ => True
  | .getattr r => r.status = .ok → r.objAttributes.ObjSendable
  | .setattr r => r.objWcc.Sendable
  | .lookup r => r.dirAttributes.Sendable ∧ (r.status = .ok →
      (∀ fh ∈ r.object, fhLength fh ≤ nfs3FhSize) ∧
        (r.objAttributes.follow = true → r.objAttributes.attributes.ObjSendable))
  | .access r => r.objAttributes.Sendable ∧ (r.status = .ok → Passes r.access)
  | .read r => r.fileAttributes.Sendable ∧
      (r.status = .ok → Passes r.count ∧ r.data.length < 2 ^ 32)
  | .write r => r.fileWcc.Sendable ∧ (r.status = .ok → Passes r.count ∧ r.verf.length = 8)
  | .create r | .mkdir r => r.dirWcc.Sendable ∧ (r.status = .ok →
      (∀ fh ∈ r.obj, fhLength fh ≤ nfs3FhSize) ∧ r.objAttributes.Sendable)
  | .remove r | .rmdir r => r.dirWcc.Sendable
  | .rename r => r.fromdirWcc.Sendable ∧ r.todirWcc.Sendable
  | .readdir r => r.dirAttributes.Sendable ∧ (r.status = .ok →
      ∀ e ∈ r.entries, 0 ∉ e.name ∧ e.name.length ≤ Wire.noLimitString)
  | .fsstat r => r.objAttributes.Sendable ∧ (r.status = .ok → Passes r.invarsec)
  | .fsinfo r => r.objAttributes.Sendable ∧ (r.status = .ok →
      (∀ n ∈ [r.rtmax, r.rtpref, r.rtmult, r.wtmax, r.wtpref, r.wtmult, r.dtpref,
        r.timeDeltaSeconds, r.timeDeltaNseconds, r.properties], Passes n))
  | .pathconf r => r.objAttributes.Sendable ∧
      (r.status = .ok → Passes r.linkmax ∧ Passes r.nameMax)

/-- A result is sent when its arm is. -/
theorem sendreply_iff {Res : Type} {xdrResult : Codec Res} {P : Res → Prop}
    (h : xdrResult.Exact P) (res : Res) :
    (∃ results, sendreply xdrResult res = .reply results) ↔ P res := by
  rw [← h res]
  unfold sendreply
  cases xdrResult.encode res <;> simp

theorem sendreply_systemerr_iff {Res : Type} {xdrResult : Codec Res} {res : Res} :
    sendreply xdrResult res = .systemerr ↔
      ¬ ∃ results, sendreply xdrResult res = .reply results := by
  rcases sendreply_cases xdrResult res with ⟨h, -⟩ | ⟨results, h, -⟩ <;> simp [h]

/-- The longest header of a reply: six numbers, and `MAX_AUTH_BYTES` of a verifier. -/
def rpcHeaderMax : Nat := 6 * 4 + 400

theorem header_le (rq : SvcReq) : rq.header ≤ rpcHeaderMax := by
  have := rq.verf.isLt
  unfold SvcReq.header rpcHeaderMax Codec.roundUp
  omega

theorem code_eq_zero {status : Nfsstat3} : status.code = 0 ↔ status = .ok := by
  cases status <;> decide

theorem holds_resOf {ok fail : Type} {P : ok → Prop} {Q : fail → Prop} (status : Nfsstat3)
    (resok : ok) (resfail : fail) : Union.Holds P Q (resOf status resok resfail) ↔
      if status = .ok then P resok else Q resfail := by
  unfold resOf
  by_cases h : status = .ok
  · rw [dif_pos (code_eq_zero.2 h), if_pos h]
    rfl
  · rw [dif_neg (mt code_eq_zero.1 h), if_neg h]
    rfl

/-- Where both arms carry `Q`, the arm of success carries `P` besides. -/
theorem holds_resOf_both {ok fail : Type} {P : ok → Prop} {P' : Prop} {Q : fail → Prop} {Q' : Prop}
    {status : Nfsstat3} {resok : ok} {resfail : fail} (hok : P resok ↔ Q' ∧ P')
    (hfail : Q resfail ↔ Q') :
    Union.Holds P Q (resOf status resok resfail) ↔ Q' ∧ (status = .ok → P') := by
  rw [holds_resOf]
  by_cases h : status = .ok <;> simp [h, hok, hfail]

theorem exact_lookup3resok : Wire.xdrLookup3resok.Exact fun r =>
    r.object.length ≤ nfs3FhSize ∧ (∀ a ∈ r.objAttributes, a.Fits) ∧
      ∀ a ∈ r.dirAttributes, a.Fits :=
  (exact_fh3.seq (exact_postOpAttr.seq exact_postOpAttr)).iso

theorem exact_access3resok : Wire.xdrAccess3resok.Exact fun r =>
    (∀ a ∈ r.objAttributes, a.Fits) ∧ r.access.toNat < 2 ^ 32 :=
  (exact_postOpAttr.seq Codec.exact_ulong).iso

theorem exact_read3resok : Wire.xdrRead3resok.Exact fun r =>
    (∀ a ∈ r.fileAttributes, a.Fits) ∧ r.count.toNat < 2 ^ 32 ∧ True ∧
      r.data.length ≤ Wire.noLimit :=
  (exact_postOpAttr.seq (Codec.exact_ulong.seq (Codec.exact_flag.seq
    (Codec.exact_bytes (by decide))))).iso

theorem exact_create3resok : Wire.xdrCreate3resok.Exact fun r =>
    (∀ fh ∈ r.obj, fh.length ≤ nfs3FhSize) ∧ (∀ a ∈ r.objAttributes, a.Fits) ∧ r.dirWcc.Fits :=
  (exact_fh3.optional.seq (exact_postOpAttr.seq exact_wccData)).iso

theorem exact_entry3 : Wire.xdrEntry3.Exact fun e =>
    0 ∉ e.name ∧ e.name.length ≤ Wire.noLimitString :=
  (Codec.exact_hyper.seq (exact_filename3.seq Codec.exact_hyper)).iso.congr fun _ =>
    ⟨fun h => h.2.1, fun h => ⟨trivial, h, trivial⟩⟩

theorem exact_readdir3resok : Wire.xdrReaddir3resok.Exact fun r =>
    (∀ a ∈ r.dirAttributes, a.Fits) ∧ r.cookieverf.length = 8 ∧
      (∀ e ∈ r.reply.entries, 0 ∉ e.name ∧ e.name.length ≤ Wire.noLimitString) ∧ True :=
  (exact_postOpAttr.seq
    ((Codec.exact_data 8).seq (exact_entry3.linked.seq Codec.exact_flag).iso)).iso

theorem exact_fsinfo3resok : Wire.xdrFsinfo3resok.Exact fun r =>
    (∀ a ∈ r.objAttributes, a.Fits) ∧ r.rtmax.toNat < 2 ^ 32 ∧ r.rtpref.toNat < 2 ^ 32 ∧
      r.rtmult.toNat < 2 ^ 32 ∧ r.wtmax.toNat < 2 ^ 32 ∧ r.wtpref.toNat < 2 ^ 32 ∧
      r.wtmult.toNat < 2 ^ 32 ∧ r.dtpref.toNat < 2 ^ 32 ∧ True ∧
      (r.timeDelta.seconds.toNat < 2 ^ 32 ∧ r.timeDelta.nseconds.toNat < 2 ^ 32) ∧
      r.properties.toNat < 2 ^ 32 :=
  (exact_postOpAttr.seq (Codec.exact_ulong.seq (Codec.exact_ulong.seq (Codec.exact_ulong.seq
    (Codec.exact_ulong.seq (Codec.exact_ulong.seq (Codec.exact_ulong.seq (Codec.exact_ulong.seq
      (Codec.exact_hyper.seq (exact_nfstime3.seq Codec.exact_ulong)))))))))).iso

theorem exact_fsstat3resok : Wire.xdrFsstat3resok.Exact fun r =>
    (∀ a ∈ r.objAttributes, a.Fits) ∧ True ∧ True ∧ True ∧ True ∧ True ∧ True ∧
      r.invarsec.toNat < 2 ^ 32 :=
  (exact_postOpAttr.seq (Codec.exact_hyper.seq (Codec.exact_hyper.seq (Codec.exact_hyper.seq
    (Codec.exact_hyper.seq (Codec.exact_hyper.seq (Codec.exact_hyper.seq
      Codec.exact_ulong))))))).iso

theorem exact_pathconf3resok : Wire.xdrPathconf3resok.Exact fun r =>
    (∀ a ∈ r.objAttributes, a.Fits) ∧ r.linkmax.toNat < 2 ^ 32 ∧ r.nameMax.toNat < 2 ^ 32 ∧ True ∧
      True ∧ True ∧ True :=
  (exact_postOpAttr.seq (Codec.exact_ulong.seq (Codec.exact_ulong.seq (Codec.exact_flag.seq
    (Codec.exact_flag.seq (Codec.exact_flag.seq Codec.exact_flag)))))).iso

theorem exact_write3resok : Wire.xdrWrite3resok.Exact fun r =>
    r.fileWcc.Fits ∧ r.count.toNat < 2 ^ 32 ∧ True ∧ r.verf.length = 8 :=
  (exact_wccData.seq (Codec.exact_ulong.seq (Codec.exact_word.seq (Codec.exact_data 8)))).iso

theorem exact_rename3resok : Wire.xdrRename3resok.Exact fun r =>
    r.fromdirWcc.Fits ∧ r.todirWcc.Fits :=
  (exact_wccData.seq exact_wccData).iso

/-! ## Every procedure -/

section
variable {L R : Type} {w : World L R}

theorem fits_object (o : Option Unfs3Fh) :
    ((o.map fhBytes).getD []).length ≤ nfs3FhSize ↔ ∀ fh ∈ o, fhLength fh ≤ nfs3FhSize := by
  cases o with
  | none => simp [nfs3FhSize]
  | some fh => simp [length_fhBytes]

theorem fits_obj (o : Option Unfs3Fh) :
    (∀ b ∈ o.map fhBytes, b.length ≤ nfs3FhSize) ↔ ∀ fh ∈ o, fhLength fh ≤ nfs3FhSize := by
  cases o <;> simp [length_fhBytes]

theorem res_sent {ok fail : Type} {resok : Codec ok} {resfail : Codec fail} {P : ok → Prop}
    {Q : fail → Prop} (hok : resok.Exact P) (hfail : resfail.Exact Q) {status : Nfsstat3} {a : ok}
    {b : fail} {P' Q' : Prop} (hP : P a ↔ Q' ∧ P') (hQ : Q b ↔ Q') :
    (∃ results, sendreply (Wire.xdrRes resok resfail) (resOf status a b) = .reply results) ↔
      Q' ∧ (status = .ok → P') :=
  (sendreply_iff (Codec.exact_word.union hok hfail) _).trans (holds_resOf_both hP hQ)

/-- A result with the same data in both arms. -/
theorem same_sent {data : Type} {codec : Codec data} {P : data → Prop} (h : codec.Exact P)
    {status : Nfsstat3} {a : data} {P' : Prop} (hP : P a ↔ P') :
    (∃ results, sendreply (Wire.xdrRes codec codec) (resOf status a a) = .reply results) ↔ P' := by
  have hok : P a ↔ P' ∧ True := hP.trans (iff_of_eq (and_true P')).symm
  refine (res_sent h h hok hP).trans ?_
  exact ⟨And.left, fun h => ⟨h, fun _ => trivial⟩⟩

theorem unsupported_sent {ok fail : Type} {resok : Codec ok} {resfail : Codec fail}
    {Q : fail → Prop} (hfail : resfail.Exact Q) {b : fail} (hb : Q b) :
    (∃ results, sendreply (Wire.xdrRes resok resfail) (unsupported3res b) = .reply results) ↔
      True := by
  obtain ⟨y, hy⟩ := (hfail b).2 hb
  have henc : (Wire.xdrRes resok resfail).encode (unsupported3res b) =
    some (unit Nfsstat3.notsupp.code.toNat ++ y) :=
      Codec.encode_union_default.2 ⟨_, y, Codec.encode_word _, hy, rfl⟩
  refine iff_of_true ⟨unit Nfsstat3.notsupp.code.toNat ++ y, ?_⟩ trivial
  rw [sendreply, henc]

theorem getattr_sent (r : Getattr3res) :
    (∃ results, sendreply Wire.xdrGetattr3res (getattr3res r) = .reply results) ↔
      (NfsReply.getattr r).Sendable := by
  have hok : (objFattr3 r.objAttributes).Fits ↔ True ∧ r.objAttributes.ObjSendable :=
    (fits_objFattr3 _).trans (iff_of_eq (true_and _)).symm
  exact (res_sent exact_fattr3 Codec.exact_void hok Iff.rfl).trans (iff_of_eq (true_and _))

theorem lookup_sent (r : Lookup3res) :
    (∃ results, sendreply Wire.xdrLookup3res (lookup3res r) = .reply results) ↔
      (NfsReply.lookup r).Sendable := by
  refine res_sent exact_lookup3resok exact_postOpAttr ?_ (fits_postOpAttr _)
  show _ ∧ (∀ a ∈ (if r.objAttributes.follow then some (objFattr3 r.objAttributes.attributes)
    else none), a.Fits) ∧ (∀ a ∈ postOpAttr r.dirAttributes, a.Fits) ↔ _
  rw [fits_follow (fits_objFattr3 _), fits_postOpAttr, fits_object]
  exact ⟨fun ⟨hobj, hattr, hdir⟩ => ⟨hdir, hobj, hattr⟩, fun ⟨hdir, hobj, hattr⟩ =>
    ⟨hobj, hattr, hdir⟩⟩

theorem access_sent (r : Access3res) :
    (∃ results, sendreply Wire.xdrAccess3res (access3res r) = .reply results) ↔
      (NfsReply.access r).Sendable :=
  res_sent exact_access3resok exact_postOpAttr
    (and_congr (fits_postOpAttr _) (passes_ofNat _)) (fits_postOpAttr _)

theorem read_sent (r : Read3res) :
    (∃ results, sendreply Wire.xdrRead3res (read3res r) = .reply results) ↔
      (NfsReply.read r).Sendable := by
  refine res_sent exact_read3resok exact_postOpAttr (and_congr (fits_postOpAttr _) ?_)
    (fits_postOpAttr _)
  refine and_congr (passes_ofInt _) ((iff_of_eq (true_and _)).trans ?_)
  show r.data.length ≤ Wire.noLimit ↔ _
  unfold Wire.noLimit
  omega

theorem write_sent (args : Wire.Write3args) (r : Write3res) :
    (∃ results, sendreply Wire.xdrWrite3res (write3res args r) = .reply results) ↔
      (NfsReply.write r).Sendable :=
  res_sent exact_write3resok exact_wccData
    (and_congr (fits_wccData _) (and_congr (passes_ofInt _) (iff_of_eq (true_and _))))
    (fits_wccData _)

theorem create_sent (r : Create3res) :
    (∃ results, sendreply Wire.xdrCreate3res (create3res r) = .reply results) ↔
      (NfsReply.create r).Sendable := by
  refine res_sent exact_create3resok exact_wccData ?_ (fits_wccData _)
  show (∀ fh ∈ r.obj.map fhBytes, _) ∧ (∀ a ∈ postOpAttr r.objAttributes, a.Fits) ∧
    (wccData r.dirWcc).Fits ↔ _
  rw [fits_obj, fits_postOpAttr, fits_wccData]
  exact ⟨fun ⟨hobj, hattr, hdir⟩ => ⟨hdir, hobj, hattr⟩, fun ⟨hdir, hobj, hattr⟩ =>
    ⟨hobj, hattr, hdir⟩⟩

theorem fits_readdir3resok (r : Readdir3res) :
    (∃ out, Wire.xdrReaddir3resok.encode (readdir3resok r) = some out) ↔
      r.dirAttributes.Sendable ∧
        ∀ e ∈ r.entries, 0 ∉ e.name ∧ e.name.length ≤ Wire.noLimitString := by
  refine (exact_readdir3resok _).trans (and_congr (fits_postOpAttr _) ?_)
  constructor
  · rintro ⟨-, hnames, -⟩ e he
    exact hnames _ (List.mem_map.2 ⟨e, he, rfl⟩)
  · intro h
    refine ⟨rfl, fun e he => ?_, trivial⟩
    obtain ⟨e', he', rfl⟩ := List.mem_map.1 he
    exact h e' he'

theorem readdir_sent (r : Readdir3res) :
    (∃ results, sendreply Wire.xdrReaddir3res (readdir3res r) = .reply results) ↔
      (NfsReply.readdir r).Sendable :=
  res_sent exact_readdir3resok exact_postOpAttr
    ((exact_readdir3resok _).symm.trans (fits_readdir3resok r)) (fits_postOpAttr _)

theorem fsstat_sent (r : Fsstat3res) :
    (∃ results, sendreply Wire.xdrFsstat3res (fsstat3res r) = .reply results) ↔
      (NfsReply.fsstat r).Sendable := by
  refine res_sent exact_fsstat3resok exact_postOpAttr (and_congr (fits_postOpAttr _) ?_)
    (fits_postOpAttr _)
  simp only [true_and]
  exact passes_ofNat _

theorem fsinfo_sent (r : Fsinfo3res) :
    (∃ results, sendreply Wire.xdrFsinfo3res (fsinfo3res r) = .reply results) ↔
      (NfsReply.fsinfo r).Sendable := by
  refine res_sent exact_fsinfo3resok exact_postOpAttr (and_congr (fits_postOpAttr _) ?_)
    (fits_postOpAttr _)
  simp only [passes_ofNat, List.forall_mem_cons, List.not_mem_nil, true_and, and_assoc,
    false_implies, implies_true, and_true]

theorem pathconf_sent (r : Pathconf3res) :
    (∃ results, sendreply Wire.xdrPathconf3res (pathconf3res r) = .reply results) ↔
      (NfsReply.pathconf r).Sendable := by
  refine res_sent exact_pathconf3resok exact_postOpAttr (and_congr (fits_postOpAttr _) ?_)
    (fits_postOpAttr _)
  simp only [and_true]
  exact and_congr (passes_ofNat _) (passes_ofNat _)

/-- **Which results are sent.** For every procedure, whatever it was called with and whatever it
returns, `svc_sendreply` sends the result exactly when the numbers, handles and names in the arm of
its status are within the limits of their routines. -/
theorem reply_sent_iff {behind behindTo : List UInt8} {rqProc : Nat} {p : NfsProc w}
    (hp : nfs3Program3 w behind behindTo rqProc = some p) (args : p.Args) (out : p.Out) :
    (∃ results, sendreply p.xdrResult (p.result args out) = .reply results) ↔
      (p.reply out).Sendable := by
  have hnone : ∀ a ∈ (none : Option Wire.Fattr3), a.Fits := by simp
  have hwcc : noWcc.Fits := ⟨by simp [noWcc], hnone⟩
  unfold nfs3Program3 at hp
  split at hp <;> cases hp
  · exact iff_of_true ⟨_, rfl⟩ trivial
  · exact getattr_sent out
  · exact same_sent exact_wccData (fits_wccData _)
  · exact lookup_sent out
  · exact access_sent out
  · exact unsupported_sent exact_postOpAttr hnone
  · exact read_sent out
  · exact write_sent args out
  · exact create_sent out
  · exact create_sent out
  · exact unsupported_sent exact_wccData hwcc
  · exact unsupported_sent exact_wccData hwcc
  · exact same_sent exact_wccData (fits_wccData _)
  · exact same_sent exact_wccData (fits_wccData _)
  · exact same_sent exact_rename3resok (and_congr (fits_wccData _) (fits_wccData _))
  · exact unsupported_sent (exact_postOpAttr.seq exact_wccData).iso ⟨hnone, hwcc⟩
  · exact readdir_sent out
  · exact unsupported_sent exact_postOpAttr hnone
  · exact fsstat_sent out
  · exact fsinfo_sent out
  · exact pathconf_sent out
  · exact unsupported_sent exact_wccData hwcc

/-- The answer to a message that stands for a request, by the reply of the procedure. -/
theorem dispatchNfs_reply {behind behindTo : List UInt8} {rqProc : Nat} {msg : List UInt8}
    {q : NfsRequest} (h : requestOf w behind behindTo rqProc msg = some q) (rq : SvcReq)
    (s : Server L R) :
    (∃ reply a, (serveNfs w rq q s).1 = .ok reply ∧
      (dispatchNfs w behind behindTo rq rqProc msg s).1 = .ok a ∧
        (reply.Sendable ∧ (∃ results, a = .reply results) ∨ ¬ reply.Sendable ∧ a = .systemerr)) ∨
    ∃ st, (serveNfs w rq q s).1 = .error st ∧
      (dispatchNfs w behind behindTo rq rqProc msg s).1 = .error st := by
  obtain ⟨p, args, rest, hp, hdec, rfl⟩ := requestOf_eq_some h
  have hans : dispatchNfs w behind behindTo rq rqProc msg = p.perform rq args := by
    rw [dispatchNfs, hp]
    exact p.answer_decoded hdec rq
  rw [hans]
  rcases p.perform_run args rq s with ⟨out, s', hserve, hrun⟩ | ⟨st, s', hserve, hrun⟩
  · rw [hserve, hrun]
    refine .inl ⟨_, _, rfl, rfl, ?_⟩
    have hsent := reply_sent_iff hp args out
    by_cases hs : (p.reply out).Sendable
    · exact .inl ⟨hs, hsent.2 hs⟩
    · refine .inr ⟨hs, ?_⟩
      rcases sendreply_cases p.xdrResult (p.result args out) with ⟨herr, -⟩ | ⟨results, hok, -⟩
      · exact herr
      · exact absurd (hsent.1 ⟨results, hok⟩) hs
  · rw [hserve, hrun]
    exact .inr ⟨st, rfl, rfl⟩

/-- **What is done and not told.** The client gets a system error exactly when its message stands
for a request whose procedure returned, with its effect done, a result that is not `Sendable`; it
gets a result exactly when that is. -/
theorem systemerr_iff (w : World L R) (behind behindTo : List UInt8) (rq : SvcReq) (rqProc : Nat)
    (msg : List UInt8) (s : Server L R) :
    ((dispatchNfs w behind behindTo rq rqProc msg s).1 = .ok .systemerr ↔
      ∃ q reply, requestOf w behind behindTo rqProc msg = some q ∧
        (serveNfs w rq q s).1 = .ok reply ∧ ¬ reply.Sendable) ∧
    ((∃ results, (dispatchNfs w behind behindTo rq rqProc msg s).1 = .ok (.reply results)) ↔
      ∃ q reply, requestOf w behind behindTo rqProc msg = some q ∧
        (serveNfs w rq q s).1 = .ok reply ∧ reply.Sendable) := by
  cases h : requestOf w behind behindTo rqProc msg with
  | none =>
    obtain ⟨a, hrun, ha⟩ := dispatchNfs_refused h rq s
    rw [hrun]
    rcases ha with rfl | rfl <;> simp
  | some q =>
    rcases dispatchNfs_reply h rq s with
      ⟨reply, a, hserve, hans, ⟨hs, results, rfl⟩ | ⟨hs, rfl⟩⟩ | ⟨st, hserve, hans⟩
    · simp [hserve, hans, hs]
    · simp [hserve, hans, hs]
    · simp [hserve, hans]

end

end NfsRods
