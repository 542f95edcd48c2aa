import NfsRods.Lib.CodecSize
import NfsRods.Proof.Read
import NfsRods.Proof.ReplySize
import NfsRods.Proof.Wire

/-!
# Replies in a datagram

`create_udp_transport` makes buffers of `NFS_MAX_UDP_PACKET` bytes: as much data as READ returns in
a datagram, and 4096 bytes for the header.

* `reply_room`: what the encoders write of each result.
* `serveNfs_room`: the data of a result are no more than its procedure returns.
* `datagram_fits`: every reply to a datagram fits into its buffer.
-/

namespace NfsRods

open CStr Xdr Xdr.Codec
open Prog (Yields)

/-! ## What the encoders write -/

theorem within_postOpAttr : Wire.xdrPostOpAttr.Within fun _ => 88 := takes_fattr3.bound.optional

theorem within_wccData : Wire.xdrWccData.Within fun _ => 116 :=
  ((takes_hyper.seq (takes_nfstime3.seq takes_nfstime3)).iso.bound.optional.seq
    within_postOpAttr).iso

theorem within_fh3 : Wire.xdrNfsFh3.Within fun _ => 68 := within_bytes 64

theorem within_lookup3resok : Wire.xdrLookup3resok.Within fun _ => 244 :=
  (within_fh3.seq (within_postOpAttr.seq within_postOpAttr)).iso

theorem within_access3resok : Wire.xdrAccess3resok.Within fun _ => 92 :=
  (within_postOpAttr.seq takes_ulong.bound).iso

theorem within_read3resok :
    Wire.xdrRead3resok.Within fun r => 88 + (4 + (4 + (4 + roundUp r.data.length))) :=
  (within_postOpAttr.seq (takes_ulong.seq (takes_flag.seq (takes_bytes _))).bound).iso

theorem within_write3resok : Wire.xdrWrite3resok.Within fun _ => 132 :=
  (within_wccData.seq (takes_ulong.seq (takes_word.seq (takes_data 8))).bound).iso

theorem within_create3resok : Wire.xdrCreate3resok.Within fun _ => 276 :=
  (within_fh3.optional.seq (within_postOpAttr.seq within_wccData)).iso

theorem within_rename3resok : Wire.xdrRename3resok.Within fun _ => 232 :=
  (within_wccData.seq within_wccData).iso

theorem within_readdir3resok : Wire.xdrReaddir3resok.Within fun r => 88 + (8 + (4 +
    (r.reply.entries.map fun e => 8 + (4 + roundUp e.name.length + 8) + 4).sum + 4)) :=
  (within_postOpAttr.seq
    ((takes_data 8).seq (takes_entry3.linked.seq takes_flag).iso).bound).iso

theorem within_fsstat3resok : Wire.xdrFsstat3resok.Within fun _ => 140 :=
  (within_postOpAttr.seq (takes_hyper.seq (takes_hyper.seq (takes_hyper.seq (takes_hyper.seq
    (takes_hyper.seq (takes_hyper.seq takes_ulong)))))).bound).iso

theorem within_fsinfo3resok : Wire.xdrFsinfo3resok.Within fun _ => 136 :=
  (within_postOpAttr.seq (takes_ulong.seq (takes_ulong.seq (takes_ulong.seq (takes_ulong.seq
    (takes_ulong.seq (takes_ulong.seq (takes_ulong.seq (takes_hyper.seq
      (takes_nfstime3.seq takes_ulong))))))))).bound).iso

theorem within_pathconf3resok : Wire.xdrPathconf3resok.Within fun _ => 112 :=
  (within_postOpAttr.seq (takes_ulong.seq (takes_ulong.seq (takes_flag.seq (takes_flag.seq
    (takes_flag.seq takes_flag))))).bound).iso

/-! ## Every result -/

/-- What a result takes at most, by its data. -/
def NfsReply.room : NfsReply → Nat
  | .read r => 104 + roundUp r.data.length
  | .readdir r => 4 + resokSize + entriesSize r.entries
  | _ => 280

theorem res_within {ok fail : Type} {resok : Codec ok} {resfail : Codec fail} {n : ok → Nat}
    {m : fail → Nat} (hok : resok.Within n) (hfail : resfail.Within m) {status : Nfsstat3} {a : ok}
    {b : fail} {k : Nat} (ha : 4 + n a ≤ k) (hb : 4 + m b ≤ k) {out : List UInt8}
    (h : (Wire.xdrRes resok resfail).encode (resOf status a b) = some out) : out.length ≤ k := by
  have hwithin := takes_word.bound.union (c := 0) hok hfail (resOf status a b) out h
  refine hwithin.trans ?_
  unfold resOf
  by_cases hcode : status.code = 0
  · rw [dif_pos hcode]
    exact ha
  · rw [dif_neg hcode]
    exact hb

theorem unsupported_within {ok fail : Type} {resok : Codec ok} {resfail : Codec fail}
    {m : fail → Nat} (hfail : resfail.Within m) {b : fail} {k : Nat} (hb : 4 + m b ≤ k)
    {out : List UInt8}
    (h : (Wire.xdrRes resok resfail).encode (unsupported3res b) = some out) : out.length ≤ k := by
  obtain ⟨x, y, hx, hy, rfl⟩ := encode_union_default.1 h
  rw [List.length_append, takes_word _ x hx]
  exact (Nat.add_le_add_left (hfail b y hy) 4).trans hb

section
variable {L R : Type} {w : World L R}

theorem read_room (r : Read3res) {out : List UInt8}
    (h : Wire.xdrRead3res.encode (read3res r) = some out) :
    out.length ≤ 104 + roundUp r.data.length := by
  refine res_within within_read3resok within_postOpAttr ?_ (Nat.le_add_right_of_le (by decide)) h
  show 4 + (88 + (4 + (4 + (4 + roundUp r.data.length)))) ≤ 104 + roundUp r.data.length
  omega

theorem readdir_room (r : Readdir3res) {out : List UInt8}
    (h : Wire.xdrReaddir3res.encode (readdir3res r) = some out) :
    out.length ≤ 4 + resokSize + entriesSize r.entries := by
  refine res_within within_readdir3resok within_postOpAttr ?_ (Nat.le_add_right_of_le (by decide)) h
  rw [sum_entries]
  show 4 + (88 + (8 + (4 + entriesSize r.entries + 4))) ≤ 4 + 104 + entriesSize r.entries
  omega

/-- **What the encoders write** of the result of a procedure, whatever it was called with. -/
theorem reply_room {behind behindTo : List UInt8} {rqProc : Nat} {p : NfsProc w}
    (hp : nfs3Program3 w behind behindTo rqProc = some p) (args : p.Args) (out : p.Out)
    {results : List UInt8} (h : p.xdrResult.encode (p.result args out) = some results) :
    results.length ≤ (p.reply out).room := by
  unfold nfs3Program3 at hp
  split at hp <;> cases hp
  · exact (takes_void _ _ h).trans_le (Nat.zero_le _)
  · exact res_within (k := 280) takes_fattr3.bound takes_void.bound (by decide) (by decide) h
  · exact res_within (k := 280) within_wccData within_wccData (by decide) (by decide) h
  · exact res_within (k := 280) within_lookup3resok within_postOpAttr (by decide) (by decide) h
  · exact res_within (k := 280) within_access3resok within_postOpAttr (by decide) (by decide) h
  · exact unsupported_within (k := 280) within_postOpAttr (by decide) h
  · exact read_room out h
  · exact res_within (k := 280) within_write3resok within_wccData (by decide) (by decide) h
  · exact res_within (k := 280) within_create3resok within_wccData (by decide) (by decide) h
  · exact res_within (k := 280) within_create3resok within_wccData (by decide) (by decide) h
  · exact unsupported_within (k := 280) within_wccData (by decide) h
  · exact unsupported_within (k := 280) within_wccData (by decide) h
  · exact res_within (k := 280) within_wccData within_wccData (by decide) (by decide) h
  · exact res_within (k := 280) within_wccData within_wccData (by decide) (by decide) h
  · exact res_within (k := 280) within_rename3resok within_rename3resok (by decide) (by decide) h
  · exact unsupported_within (k := 280) (within_postOpAttr.seq within_wccData).iso (by decide) h
  · exact readdir_room out h
  · exact unsupported_within (k := 280) within_postOpAttr (by decide) h
  · exact res_within (k := 280) within_fsstat3resok within_postOpAttr (by decide) (by decide) h
  · exact res_within (k := 280) within_fsinfo3resok within_postOpAttr (by decide) (by decide) h
  · exact res_within (k := 280) within_pathconf3resok within_postOpAttr (by decide) (by decide) h
  · exact unsupported_within (k := 280) within_wccData (by decide) h

/-! ## Every procedure -/

/-- What iRODS documents of `rcDataObjRead`: no more bytes than asked for. -/
def ReadsUpTo (w : World L R) : Prop :=
  ∀ comm desc len offset r, (w.rods (.rcDataObjRead comm desc len offset) r).1.data.length ≤ len

/-- The most that a result takes, by the request. -/
def NfsRequest.replyMax (rq : SvcReq) : NfsRequest → Nat
  | .read _ _ _ => 104 + maxdata rq
  | .readdir _ _ _ => 4 + 4096
  | _ => 280

theorem readRemote_yields (hw : ReadsUpTo w) (path : CStr) (offset count : Nat) (rq : SvcReq) :
    Yields (fun r => ∀ g ∈ r.2, g.2.length ≤ count)
      (readRemote w path offset count rq : M L R (Nfsstat3 × Option (Int × List UInt8))) := by
  refine .bind fun comm => .bind fun _ => .bind fun _ => .bind fun name => .bind fun o => ?_
  refine .ite (fun _ => .bind fun s => .pure (by simp)) fun _ => ?_
  have hread : Yields (fun a : RodsReply => a.data.length ≤ count)
      (rods w (.rcDataObjRead comm o.status count offset) : M L R RodsReply) := by
    rintro s _ _ ⟨⟩
    exact hw comm o.status count offset s.rods
  refine .bind_result hread fun a ha => ?_
  have hgot : ∀ g ∈ some (a.status, a.data), g.2.length ≤ count := by
    rintro g ⟨⟩
    exact ha
  exact .ite (fun _ => .pure hgot) fun _ => .bind fun s => .pure hgot

theorem withPrep_yields {α : Type} {P : α → Prop} {fh : NfsFh3} {rq : SvcReq}
    {refuse : Nfsstat3 → M L R α} {body : CStr → M L R α} (hr : ∀ st, Yields P (refuse st))
    (hb : ∀ path, Yields P (body path)) : Yields P (withPrep w fh rq refuse body) := by
  refine .bind fun p => ?_
  cases p with
  | error st => exact hr st
  | ok path => exact hb path

/-- READ returns no more than was asked for, and no more than `maxdata`. -/
theorem read_yields (hw : ReadsUpTo w) (file : NfsFh3) (offset count : Nat) (rq : SvcReq) :
    Yields (fun r : Read3res => r.data.length ≤ maxdata rq)
      (nfsproc3Read w file offset count rq : M L R Read3res) := by
  refine .bind fun s => withPrep_yields (fun st => .pure (Nat.zero_le _)) fun path => ?_
  refine .bind fun s => .bind fun _ => .bind fun _ => ?_
  have hremote : Yields (fun r => ∀ g ∈ r.2, g.2.length ≤ maxdata rq)
      (if isReg s = .ok then
        readRemote w path offset (if maxdata rq < count then maxdata rq else count) rq
      else pure (isReg s, none) : M L R (Nfsstat3 × Option (Int × List UInt8))) := by
    refine .ite (fun _ => ?_) fun _ => .pure (by simp)
    intro t r t' h g hg
    have hle := readRemote_yields hw path offset _ rq t r t' h g hg
    split at hle <;> omega
  refine .bind_result hremote fun r hr => .bind fun post => .bind fun _ => .pure ?_
  rcases r with ⟨st, _ | g⟩
  · exact Nat.zero_le _
  · exact hr g rfl

/-- A name is read into a buffer with the path before it. -/
theorem readDirLoop_yields (path : CStr) (cookie rcookie : UInt64) (count : Nat)
    (es : List Dirent) (i realCount : Nat) {acc : List Entry3}
    (hacc : ∀ e ∈ acc, e.name.length < maxPathLen) :
    Yields (fun r : Readdir3res => ∀ e ∈ r.entries, e.name.length < maxPathLen)
      (readDirLoop w path cookie rcookie count es i realCount acc : M L R Readdir3res) := by
  have hended : ∀ eof, Yields (fun r : Readdir3res => ∀ e ∈ r.entries, e.name.length < maxPathLen)
      (do
        debug w "debug EOF %d"
        pure { status := .ok, entries := acc.reverse, eof } : M L R Readdir3res) :=
    fun eof => .bind fun _ => .pure fun e he => hacc e (List.mem_reverse.1 he)
  induction es generalizing i realCount acc with
  | nil => exact hended true
  | cons this rest ih =>
    refine .ite (fun _ => ?_) fun _ => hended false
    refine .ite (fun hlen => .bind fun buf => ?_) fun _ => .pure (by simp)
    cases buf with
    | none => exact .bind fun s => .pure (by simp)
    | some buf =>
      refine .ite (fun _ => hended false) fun _ => ?_
      have hnext : ∀ e ∈ ({ fileid := buf.ino, name := this.name
                            cookie := (cookie + 1 + UInt64.ofNat i) ||| rcookie } :
          Entry3) :: acc, e.name.length < maxPathLen := by
        intro e he
        rcases List.mem_cons.1 he with rfl | he
        · show this.name.length < maxPathLen
          omega
        · exact hacc e he
      exact ih _ _ hnext fun eof => .bind fun _ => .pure fun e he =>
        hnext e (List.mem_reverse.1 he)

theorem empty_room : resokSize + entriesSize [] ≤ 4096 := by decide

/-- A page with one entry has a short name, and a longer one has been measured. -/
theorem readDir_yields (path : CStr) (cookie : UInt64) (count : Nat) :
    Yields (fun r : Readdir3res => resokSize + entriesSize r.entries ≤ 4096)
      (readDir w path cookie count : M L R Readdir3res) := by
  have hnames : Yields (fun r : Readdir3res => ∀ e ∈ r.entries, e.name.length < maxPathLen)
      (readDir w path cookie count : M L R Readdir3res) := by
    refine .bind fun s => .bind fun listing => ?_
    cases listing with
    | none => exact .bind fun s => .ite (fun _ => .pure (by simp)) fun _ => .pure (by simp)
    | some es => exact readDirLoop_yields path _ _ _ _ _ _ (by simp)
  intro s r s' h
  have hname : ∀ e ∈ r.entries, e.name.length < maxPathLen := hnames s r s' h
  have htwo := readDir_fits h
  rcases hentries : r.entries with _ | ⟨e, _ | ⟨e', es⟩⟩
  · exact empty_room
  · rw [hentries] at hname
    have he : e.name.length < 1024 := hname e (List.mem_singleton_self e)
    show 104 + (24 + (e.name.length + 3) / 4 * 4 + 0) ≤ 4096
    omega
  · rw [hentries] at htwo
    have hfits := htwo (Nat.le_add_left 2 es.length)
    exact hfits.trans (Nat.min_le_right _ _)

theorem readdir_yields (dir : NfsFh3) (cookie : UInt64) (count : Nat) (rq : SvcReq) :
    Yields (fun r : Readdir3res => resokSize + entriesSize r.entries ≤ 4096)
      (nfsproc3Readdir w dir cookie count rq : M L R Readdir3res) := by
  refine withPrep_yields (fun _ => .pure empty_room) fun path => ?_
  refine .bind fun _ => .bind fun _ => .bind fun _ => .bind fun _ => .bind fun path =>
    .bind fun comm => .bind fun _ => .bind_result (readDir_yields path cookie count) fun r hr => ?_
  exact .bind fun _ => .bind fun _ => .bind fun _ => .pure hr

theorem replyWith_yields {α : Type} {P : NfsReply → Prop} {f : α → NfsReply} {m : M L R α}
    (h : Yields (fun a => P (f a)) m) : Yields P (replyWith f m) :=
  .bind_result h fun _ ha => .pure ha

/-- **What the daemon returns** takes no more than the most that the request can. -/
theorem serveNfs_room (hw : ReadsUpTo w) (rq : SvcReq) (q : NfsRequest) :
    Yields (fun reply => reply.room ≤ q.replyMax rq) (serveNfs w rq q : M L R NfsReply) := by
  have hprog : Yields (fun reply => reply.room ≤ q.replyMax rq)
      (nfsProgram w rq q : M L R NfsReply) := by
    have hfixed : ∀ {α : Type} {f : α → NfsReply} {m : M L R α}, (∀ a, (f a).room = 280) →
        Yields (fun reply => reply.room ≤ 280) (replyWith f m) :=
      fun hf => replyWith_yields fun _ a _ _ => (hf a).le
    cases q with
    | null => exact .pure (Nat.le_refl 280)
    | unsupported => exact .pure (Nat.le_refl 280)
    | read file offset count =>
      refine replyWith_yields fun s r s' h => ?_
      have hle := read_yields hw file offset count rq s r s' h
      have hround : roundUp (maxdata rq) = maxdata rq := by
        rw [maxdata]
        split <;> rfl
      show 104 + roundUp r.data.length ≤ 104 + maxdata rq
      rw [← hround]
      unfold roundUp
      omega
    | readdir dir cookie count =>
      refine replyWith_yields fun s r s' h => ?_
      have hle := readdir_yields dir cookie count rq s r s' h
      show 4 + resokSize + entriesSize r.entries ≤ 4 + 4096
      omega
    | _ => exact hfixed fun _ => rfl
  exact fun s reply s' h => hprog (enter rq s) reply s' h

/-- **Every reply to a datagram fits.** Whatever the message, the state and the file systems, the
results of a reply take no more than the most that its request can, and with the longest header no
more than the buffer of the transport if the message came in a datagram. -/
theorem datagram_fits (w : World L R) (hw : ReadsUpTo w) (behind behindTo : List UInt8)
    (rq : SvcReq) (rqProc : Nat) (msg : List UInt8) (s : Server L R) (results : List UInt8)
    (h : (dispatchNfs w behind behindTo rq rqProc msg s).1 = .ok (.reply results)) :
    ∃ q, requestOf w behind behindTo rqProc msg = some q ∧ results.length ≤ q.replyMax rq ∧
      (rq.stream = false → rpcHeaderMax + results.length ≤ nfsMaxUdpPacket) ∧
      rq.HasRoom results.length := by
  cases hq : requestOf w behind behindTo rqProc msg with
  | none =>
    obtain ⟨a, hrun, ha⟩ := dispatchNfs_refused hq rq s
    rw [hrun] at h
    cases h
    rcases ha with ha | ha <;> cases ha
  | some q =>
    obtain ⟨p, args, rest, hp, hdec, hreq⟩ := requestOf_eq_some hq
    have hans : dispatchNfs w behind behindTo rq rqProc msg = p.perform rq args := by
      rw [dispatchNfs, hp]
      exact p.answer_decoded hdec rq
    rw [hans] at h
    have hlen : results.length ≤ q.replyMax rq := by
      rw [← hreq]
      rcases p.perform_run args rq s with ⟨out, s', hserve, hrun⟩ | ⟨st, s', -, hrun⟩
      · rw [hrun] at h
        cases henc : p.xdrResult.encode (p.result args out) with
        | none =>
          rw [sendreply, henc] at h
          cases h
        | some results' =>
          rw [sendreply, henc] at h
          cases h
          exact (reply_room hp args out henc).trans (serveNfs_room hw rq _ s _ s' hserve)
      · rw [hrun] at h
        cases h
    have hroom : rq.stream = false → rpcHeaderMax + results.length ≤ nfsMaxUdpPacket := ?_
    · refine ⟨_, rfl, hlen, hroom, ?_⟩
      cases hudp : rq.stream with
      | true => exact .inl hudp
      | false => exact .inr ((Nat.add_le_add_right (header_le rq) _).trans (hroom hudp))
    intro hudp
    have hmax : q.replyMax rq ≤ 104 + 32768 := by
      cases q with
      | read file offset count =>
        show 104 + maxdata rq ≤ 104 + 32768
        rw [maxdata, hudp]
        exact Nat.le_refl _
      | readdir dir cookie count =>
        show 4 + 4096 ≤ 104 + 32768
        omega
      | _ =>
        show 280 ≤ 104 + 32768
        omega
    show 6 * 4 + 400 + results.length ≤ 32768 + 4096
    omega

end

/-! ## READ in a datagram -/

theorem readWorld_readsUpTo : ReadsUpTo readWorld :=
  fun _ _ len _ _ => List.length_take_le len _

/-- A request for the first two bytes of `/e/x`. -/
def readMsg : List UInt8 :=
  [0, 0, 0, 35] ++ fhBytes readHandle.obj ++ [0, 0, 0, 0, 0, 0, 0, 0, 0, 0, 0, 0, 2]

/-- The reply: four bytes behind the attributes and the numbers. -/
def readResults : List UInt8 :=
  [0, 0, 0, 0, 0, 0, 0, 1, 0, 0, 0, 1, 0, 0, 129, 128] ++ List.replicate 19 0 ++ [2] ++
    List.replicate 7 0 ++ [2] ++ List.replicate 15 0 ++ [1] ++ List.replicate 7 0 ++ [5] ++
    List.replicate 27 0 ++ [2, 0, 0, 0, 0, 0, 0, 0, 2, 1, 2, 0, 0]

theorem datagram_fits_read :
    ∃ q, requestOf readWorld [] [] 6 readMsg = some q ∧
      readResults.length ≤ q.replyMax { readReq with stream := false } ∧
      (false = false → rpcHeaderMax + readResults.length ≤ nfsMaxUdpPacket) ∧
      SvcReq.HasRoom { readReq with stream := false } readResults.length :=
  datagram_fits readWorld readWorld_readsUpTo [] [] { readReq with stream := false } 6 readMsg
    threeBytes readResults (by decide +kernel)

end NfsRods
