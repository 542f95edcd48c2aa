import NfsRods.FhLayout
import NfsRods.Serve

/-!
# The bytes of a handle

What the daemon reads of a handle is in the bytes that the client sent, as the daemon laid them out.

* `fhAt_fhBytes`: the bytes of a handle are read back as the handle.
* `nfhValidAt_isSome`: for which handles `nfh_valid` reads nothing behind the client's bytes.
* `fhAt_overlay`: all that is read of a handle that `nfh_valid` accepts is in its bytes.
* `serveNfs_within`: what lies behind the bytes makes no difference to the reply.
-/

namespace NfsRods

/-! ## What is read of the bytes -/

/-- `nfh_valid` on the bytes of a client; `none` where it reads behind them. -/
def nfhValidAt (data : List UInt8) : Option Bool :=
  if data.length < fhMinLen then some false
  else do
    let len ← Bytes.read data lenAt 1
    pure (data.length == Bytes.num len + 1 + sizeofUint32 + sizeofUint64 + sizeofUint32 +
      sizeofUint32)

/-- The fields and the hashes that count, read from the bytes of a client. -/
def fhAt (data : List UInt8) : Option Unfs3Fh := do
  let dev ← Bytes.read data 0 sizeofUint32
  let ino ← Bytes.read data inoAt sizeofUint64
  let gen ← Bytes.read data genAt sizeofUint32
  let pwhash ← Bytes.read data pwhashAt sizeofUint32
  let len ← Bytes.read data lenAt 1
  let inos ← Bytes.read data inosAt (Bytes.num len)
  pure { dev := .ofNat (Bytes.num dev), ino := .ofNat (Bytes.num ino)
         gen := .ofNat (Bytes.num gen), pwhash := .ofNat (Bytes.num pwhash)
         len := Bytes.num len, inos }

/-- The handle with the hashes that count only. -/
def Unfs3Fh.counted (fh : Unfs3Fh) : Unfs3Fh := { fh with inos := fh.inos.take fh.len }

def NfsFh3.counted (fh : NfsFh3) : NfsFh3 := { fh with obj := fh.obj.counted }

/-! ## The handles that are sent -/

theorem length_fhBytes (fh : Unfs3Fh) : (fhBytes fh).length = fhLength fh := by
  simp only [fhBytes, List.length_append, Bytes.length_le, List.length_map, List.length_range,
    sizeofUint32, sizeofUint64, fhLength]
  omega

theorem num_ulong (x : ULong) : UInt64.ofNat (Bytes.num (Bytes.le 8 x.toNat)) = x := by
  have hx : x.toNat < 256 ^ 8 := by
    have := x.toNat_lt
    omega
  rw [Bytes.num_le, Nat.mod_eq_of_lt hx]
  exact UInt64.ofNat_toNat

theorem num_len {n : Nat} (h : n < 256) : Bytes.num (Bytes.le 1 n) = n := by
  rw [Bytes.num_le]
  omega

/-- The hashes that count, as bytes. -/
theorem hashBytes_eq {fh : Unfs3Fh} (hinos : fh.len ≤ fh.inos.length) :
    (List.range fh.len).map (fh.inos.getD · 0) = fh.inos.take fh.len := by
  refine List.ext_getElem (by simp [hinos]) fun i h1 _ => ?_
  simp only [List.length_map, List.length_range] at h1
  simp [List.getElem?_eq_getElem (show i < fh.inos.length by omega)]

/-- The length byte is where `nfh_valid` looks for it. -/
theorem read_len (fh : Unfs3Fh) : Bytes.read (fhBytes fh) lenAt 1 = some (Bytes.le 1 fh.len) := by
  have hk : ∀ n, (Bytes.le 8 n).length = 8 := Bytes.length_le 8
  rw [show lenAt = 8 + (8 + (8 + (8 + 0))) from rfl]
  unfold fhBytes sizeofUint32 sizeofUint64
  rw [Bytes.read_later (hk _), Bytes.read_later (hk _), Bytes.read_later (hk _),
    Bytes.read_later (hk _), Bytes.read_here (Bytes.length_le 1 _)]

/-- `nfh_valid` accepts a handle that comes back as it was sent. -/
theorem nfhValidAt_fhBytes {fh : Unfs3Fh} (hlen : fh.len < 256) :
    nfhValidAt (fhBytes fh) = some true := by
  have hmin : ¬ (fhBytes fh).length < fhMinLen := by
    rw [length_fhBytes, fhLength, fhMinLen]
    omega
  rw [nfhValidAt, if_neg hmin, read_len, Option.bind_eq_bind, Option.bind_some, num_len hlen,
    length_fhBytes]
  simp [fhLength, sizeofUint32, sizeofUint64]

/-- The bytes of a handle are read back as the handle. -/
theorem fhAt_fhBytes {fh : Unfs3Fh} (hlen : fh.len < 256) (hinos : fh.len ≤ fh.inos.length) :
    fhAt (fhBytes fh) = some fh.counted := by
  have hk : ∀ n, (Bytes.le 8 n).length = 8 := Bytes.length_le 8
  have hdev : Bytes.read (fhBytes fh) 0 sizeofUint32 = some (Bytes.le 8 fh.dev.toNat) :=
    Bytes.read_here (hk _) _
  have hino : Bytes.read (fhBytes fh) (8 + 0) sizeofUint64 = some (Bytes.le 8 fh.ino.toNat) := by
    unfold fhBytes sizeofUint32 sizeofUint64
    rw [Bytes.read_later (hk _), Bytes.read_here (hk _)]
  have hgen : Bytes.read (fhBytes fh) (8 + (8 + 0)) sizeofUint32 =
      some (Bytes.le 8 fh.gen.toNat) := by
    unfold fhBytes sizeofUint32 sizeofUint64
    rw [Bytes.read_later (hk _), Bytes.read_later (hk _), Bytes.read_here (hk _)]
  have hpwhash : Bytes.read (fhBytes fh) (8 + (8 + (8 + 0))) sizeofUint32 =
      some (Bytes.le 8 fh.pwhash.toNat) := by
    unfold fhBytes sizeofUint32 sizeofUint64
    rw [Bytes.read_later (hk _), Bytes.read_later (hk _), Bytes.read_later (hk _),
      Bytes.read_here (hk _)]
  have hinosAt : Bytes.read (fhBytes fh) (8 + (8 + (8 + (8 + (1 + 0))))) fh.len =
      some (fh.inos.take fh.len) := by
    unfold fhBytes sizeofUint32 sizeofUint64
    rw [Bytes.read_later (hk _), Bytes.read_later (hk _), Bytes.read_later (hk _),
      Bytes.read_later (hk _), Bytes.read_later (Bytes.length_le 1 _), hashBytes_eq hinos]
    simpa using Bytes.read_here (show (fh.inos.take fh.len).length = fh.len by simp [hinos]) []
  rw [fhAt, hdev, show inoAt = 8 + 0 from rfl, hino, show genAt = 8 + (8 + 0) from rfl, hgen,
    show pwhashAt = 8 + (8 + (8 + 0)) from rfl, hpwhash, read_len]
  simp only [Option.bind_eq_bind, Option.bind_some, num_len hlen]
  rw [show inosAt = 8 + (8 + (8 + (8 + (1 + 0)))) from rfl, hinosAt]
  simp only [Option.bind_some, num_ulong]
  rfl

/-! ## The handles that are received -/

/-- The handles of which `nfh_valid` reads nothing that the client has not sent. -/
theorem nfhValidAt_isSome {data : List UInt8} :
    (nfhValidAt data).isSome ↔ data.length < fhMinLen ∨ inosAt ≤ data.length := by
  by_cases hmin : data.length < fhMinLen
  · simp [nfhValidAt, hmin]
  rw [nfhValidAt, if_neg hmin]
  by_cases hlen : lenAt + 1 ≤ data.length
  · rw [Bytes.read_of_le hlen]
    exact iff_of_true rfl (.inr hlen)
  · have hnone : Bytes.read data lenAt 1 = none := if_neg hlen
    rw [hnone]
    exact iff_of_false (by simp) fun h => h.elim hmin hlen

theorem nfhValidAt_true {data : List UInt8} (h : nfhValidAt data = some true) :
    ∃ len, Bytes.read data lenAt 1 = some len ∧ data.length = inosAt + Bytes.num len := by
  unfold nfhValidAt at h
  split at h
  · cases h
  · cases hread : Bytes.read data lenAt 1 with
    | none =>
      rw [hread] at h
      cases h
    | some len =>
      rw [hread] at h
      have heq := Option.some.inj h
      refine ⟨len, rfl, ?_⟩
      rw [beq_iff_eq] at heq
      rw [heq]
      simp only [inosAt, lenAt, pwhashAt, genAt, inoAt, sizeofUint32, sizeofUint64]
      omega

/-- The structure over the client's bytes is valid when the bytes are: a handle too short for its
length byte is refused whatever lies behind it. -/
theorem nfhValid_overlay (data rest : List UInt8) :
    nfhValid (overlay data rest) = (nfhValidAt data).getD false := by
  have hsize : fhLength (overlay data rest).obj =
      Bytes.num (((data ++ rest).drop lenAt).take 1) + 1 + 8 + 8 + 8 + 8 := rfl
  rw [nfhValid, hsize, nfhValidAt]
  by_cases hmin : data.length < fhMinLen
  · rw [if_pos hmin, show decide (fhMinLen ≤ (overlay data rest).dataLen) = false from
      decide_eq_false (not_le.2 hmin)]
    rfl
  rw [if_neg hmin, show decide (fhMinLen ≤ (overlay data rest).dataLen) = true from
    decide_eq_true (not_lt.1 hmin), Bool.true_and]
  by_cases hlen : lenAt + 1 ≤ data.length
  · rw [Bytes.read_before hlen rest]
    rfl
  · have hnone : Bytes.read data lenAt 1 = none := if_neg hlen
    rw [hnone]
    simp only [lenAt, pwhashAt, genAt, inoAt, sizeofUint32, sizeofUint64] at hlen
    have hne : data.length ≠
        Bytes.num (((data ++ rest).drop lenAt).take 1) + 1 + 8 + 8 + 8 + 8 := by
      omega
    simpa [overlay] using hne

/-- All that is read of a handle that `nfh_valid` accepts is in the client's bytes. -/
theorem fhAt_overlay {data : List UInt8} (hv : nfhValidAt data = some true)
    (hsize : data.length ≤ nfs3FhSize) (rest : List UInt8) :
    fhAt data = some (overlay data rest).obj.counted := by
  obtain ⟨len, hlen, hdata⟩ := nfhValidAt_true hv
  have hfits : lenAt + 1 ≤ data.length := by
    rw [← Bytes.read_isSome, hlen]
    rfl
  have hlen' := hlen
  rw [Bytes.read_before hfits rest, Option.some.injEq] at hlen'
  simp only [inosAt, lenAt, pwhashAt, genAt, inoAt, sizeofUint32, sizeofUint64, nfs3FhSize]
    at hdata hsize hfits
  have hfield : ∀ off k, off + k ≤ data.length →
      Bytes.read data off k = some (((data ++ rest).drop off).take k) :=
    fun off k h => Bytes.read_before h rest
  have hcount : ((data ++ rest).drop inosAt).take (Bytes.num len) =
      (((data ++ rest).drop inosAt).take fhMaxLen).take (Bytes.num len) := by
    rw [List.take_take, min_eq_left (by rw [fhMaxLen, fhMinLen]; omega)]
  rw [fhAt, hlen, hfield 0 sizeofUint32 (by rw [sizeofUint32]; omega),
    hfield inoAt sizeofUint64 (by simp only [inoAt, sizeofUint32, sizeofUint64]; omega),
    hfield genAt sizeofUint32 (by simp only [genAt, inoAt, sizeofUint32, sizeofUint64]; omega),
    hfield pwhashAt sizeofUint32
      (by simp only [pwhashAt, genAt, inoAt, sizeofUint32, sizeofUint64]; omega)]
  simp only [Option.bind_eq_bind, Option.bind_some]
  rw [hfield inosAt (Bytes.num len) (by
    simp only [inosAt, lenAt, pwhashAt, genAt, inoAt, sizeofUint32, sizeofUint64]; omega), hcount]
  simp only [Option.bind_some, List.drop_zero, Option.pure_def, Option.some.injEq]
  unfold overlay structAt Unfs3Fh.counted
  simp only [hlen']

/-! ## What lies behind the bytes -/

section
variable {L R : Type} {w : World L R}

/-- The hashes the search compares are those that count. -/
theorem fhRec_counted (k : L) (fh : Unfs3Fh) {n : Nat} (hn : n ≤ fh.len) (lead : CStr) :
    fhRec w k fh.counted n lead = fhRec w k fh n lead := by
  induction n generalizing lead with
  | zero => rfl
  | succ n ih =>
    have hhash : fh.counted.inos.getD (fh.len - (n + 1)) 0 = fh.inos.getD (fh.len - (n + 1)) 0 := by
      rw [List.getD_eq_getElem?_getD, List.getD_eq_getElem?_getD, Unfs3Fh.counted,
        List.getElem?_take_of_lt (by omega)]
    have hlen : fh.counted.len = fh.len := rfl
    have hdev : fh.counted.dev = fh.dev := rfl
    have hino : fh.counted.ino = fh.ino := rfl
    rw [fhRec, fhRec]
    simp only [hlen, hdev, hino, hhash, ih (by omega)]

theorem fhDecompRaw_counted (k : L) (fh : Unfs3Fh) :
    fhDecompRaw w k fh.counted = fhDecompRaw w k fh := by
  unfold fhDecompRaw
  rw [show fh.counted.len = fh.len from rfl, fhRec_counted k fh le_rfl]

theorem fhDecomp_counted (fh : NfsFh3) : fhDecomp w fh.counted = fhDecomp w fh := by
  have hhard : fhDecompHard w fh.obj.counted = fhDecompHard w fh.obj := by
    unfold fhDecompHard
    simp only [fhDecompRaw_counted]
    rfl
  rw [fhDecomp, fhDecomp, show fh.counted.obj = fh.obj.counted from rfl, hhard]
  rfl

theorem fhExtend_counted (fh : NfsFh3) (dev ino gen : ULong) :
    fhExtend w fh.counted dev ino gen = fhExtend w fh dev ino gen := by
  funext s
  unfold fhExtend NfsFh3.counted Unfs3Fh.counted
  simp only [Prog.get_bind_run]
  split
  · split
    · rfl
    · simp only [List.take_take, min_self]
  · simp only [List.take_take, min_self]

theorem fhExtendType_counted (fh : NfsFh3) (path : CStr) (type : Nat) :
    fhExtendType w fh.counted path type = fhExtendType w fh path type := by
  unfold fhExtendType
  simp only [fhExtend_counted]

/-- The two handles are the same as far as they are read. -/
def NfsFh3.Alike (fh fh' : NfsFh3) : Prop :=
  nfhValid fh = nfhValid fh' ∧ (nfhValid fh = true → fh.counted = fh'.counted)

theorem overlay_alike {data : List UInt8} (hsize : data.length ≤ nfs3FhSize)
    (rest rest' : List UInt8) : (overlay data rest).Alike (overlay data rest') := by
  refine ⟨by rw [nfhValid_overlay, nfhValid_overlay], fun hv => ?_⟩
  rw [nfhValid_overlay] at hv
  have hv : nfhValidAt data = some true := by
    cases h : nfhValidAt data with
    | none =>
      rw [h] at hv
      cases hv
    | some b =>
      rw [h] at hv
      exact congrArg some hv
  have hobj := (fhAt_overlay hv hsize rest).symm.trans (fhAt_overlay hv hsize rest')
  exact congrArg (NfsFh3.mk data.length) (Option.some.inj hobj)

theorem NfsFh3.Alike.fhDecomp {fh fh' : NfsFh3} (h : fh.Alike fh') :
    fhDecomp w fh = fhDecomp w fh' := by
  cases hv : nfhValid fh with
  | true => rw [← fhDecomp_counted, h.2 hv, fhDecomp_counted]
  | false =>
    have hv' : nfhValid fh' = false := h.1.symm.trans hv
    rw [NfsRods.fhDecomp, NfsRods.fhDecomp, hv, hv']
    rfl

theorem NfsFh3.Alike.prep {fh fh' : NfsFh3} (h : fh.Alike fh') (rq : SvcReq) :
    prep w fh rq = prep w fh' rq := by
  cases hv : nfhValid fh with
  | true =>
    have hpw : fh.obj.pwhash = fh'.obj.pwhash := congrArg (fun g => g.obj.pwhash) (h.2 hv)
    rw [NfsRods.prep, NfsRods.prep, h.fhDecomp, hpw]
  | false =>
    have hv' : nfhValid fh' = false := h.1.symm.trans hv
    have hnone : ∀ g : NfsFh3, nfhValid g = false → NfsRods.fhDecomp w g =
        (Prog.modify fun s => { s with stCacheValid := false }) >>= fun _ => pure none := by
      intro g hg
      rw [NfsRods.fhDecomp, hg]
      rfl
    rw [NfsRods.prep, NfsRods.prep, hnone fh hv, hnone fh' hv']
    rfl

/-- A handle that is not valid does not get past `PREP`. -/
theorem prep_valid {fh : NfsFh3} {rq : SvcReq} {s s1 : Server L R} {path : CStr}
    (h : prep w fh rq s = (.ok (.ok path), s1)) : nfhValid fh = true := by
  obtain ⟨s2, s3, _, _, hdec, _⟩ := prep_inv h
  by_contra hv
  rw [Bool.not_eq_true] at hv
  rw [fhDecomp, hv] at hdec
  simp at hdec

/-- `PREP` and what follows it read no more of the handle. -/
theorem NfsFh3.Alike.withPrep {α : Type} {fh fh' : NfsFh3} (h : fh.Alike fh') (rq : SvcReq)
    (refuse : Nfsstat3 → M L R α) (body : NfsFh3 → CStr → M L R α)
    (hbody : ∀ g, body g.counted = body g) :
    withPrep w fh rq refuse (body fh) = withPrep w fh' rq refuse (body fh') := by
  funext s
  rw [NfsRods.withPrep, NfsRods.withPrep, ← h.prep]
  rcases hp : NfsRods.prep w fh rq s with ⟨st | st | path, s1⟩
  · rw [Prog.bind_error hp, Prog.bind_error hp]
  · rw [Prog.bind_ok hp, Prog.bind_ok hp]
  · rw [Prog.bind_ok hp, Prog.bind_ok hp]
    show body fh path s1 = body fh' path s1
    rw [← hbody fh, h.2 (prep_valid hp), hbody]

/-- The call with `fh` as its handle, and `target` as RENAME's second one. -/
def NfsRequest.withHandles (fh target : NfsFh3) : NfsRequest → NfsRequest
  | .null => .null
  | .getattr _ => .getattr fh
  | .setattr _ new => .setattr fh new
  | .lookup what => .lookup { what with dir := fh }
  | .access _ bits => .access fh bits
  | .read _ offset count => .read fh offset count
  | .write args => .write { args with file := fh }
  | .create args how => .create { args with dir := fh } how
  | .mkdir args attributes => .mkdir { args with dir := fh } attributes
  | .remove object => .remove { object with dir := fh }
  | .rmdir object => .rmdir { object with dir := fh }
  | .rename argsFrom argsTo => .rename { argsFrom with dir := fh } { argsTo with dir := target }
  | .readdir _ cookie count => .readdir fh cookie count
  | .fsstat _ => .fsstat fh
  | .fsinfo _ => .fsinfo fh
  | .pathconf _ => .pathconf fh
  | .unsupported => .unsupported

theorem createFinish_counted (dir : NfsFh3) (obj : CStr) (how : Createhow3) (status : Nfsstat3)
    (fd : Int) (rq : SvcReq) :
    createFinish w dir.counted obj how status fd rq = createFinish w dir obj how status fd rq := by
  have hobj : ∀ buf fd,
      createdObj w dir.counted obj buf fd rq = createdObj w dir obj buf fd rq := by
    intro buf fd
    unfold createdObj
    simp only [fhExtend_counted]
  unfold createFinish createOpened createExists
  simp only [hobj]

theorem mkdirMake_counted (dir : NfsFh3) (obj : CStr) (attributes : Sattr3) (rq : SvcReq) :
    mkdirMake w dir.counted obj attributes rq = mkdirMake w dir obj attributes rq := by
  unfold mkdirMake
  simp only [fhExtendType_counted]

theorem lookupBody_counted (what : Diropargs3) (path : CStr) (rq : SvcReq) :
    lookupBody w { what with dir := what.dir.counted } path rq = lookupBody w what path rq := by
  unfold lookupBody lookupLocal lookupFh
  simp only [fhExtend_counted]

theorem createBody_counted (path : CStr) (args : Diropargs3) (how : Createhow3) (rq : SvcReq)
    (unset : Junk) : createBody w path { args with dir := args.dir.counted } how rq unset =
      createBody w path args how rq unset := by
  unfold createBody createAct
  simp only [createFinish_counted]

theorem mkdirBody_counted (path : CStr) (args : Diropargs3) (attributes : Sattr3) (rq : SvcReq)
    (unset : Junk) : mkdirBody w path { args with dir := args.dir.counted } attributes rq unset =
      mkdirBody w path args attributes rq unset := by
  unfold mkdirBody mkdirAct
  simp only [mkdirMake_counted]
  rfl

/-- A procedure reads no more of its handles than `nfh_valid` has checked. -/
theorem nfsProgram_alike {fh fh' target target' : NfsFh3} (h : fh.Alike fh')
    (ht : target.Alike target') (rq : SvcReq) (q : NfsRequest) :
    nfsProgram w rq (q.withHandles fh target) = nfsProgram w rq (q.withHandles fh' target') := by
  cases q with
  | null => rfl
  | unsupported => rfl
  | getattr _ =>
    exact congrArg (replyWith .getattr)
      (h.withPrep rq _ (fun _ path => getattrBody w path rq) fun _ => rfl)
  | setattr _ new =>
    exact congrArg (replyWith .setattr)
      (h.withPrep rq _ (fun g path => setattrBody w path g new rq) fun _ => rfl)
  | lookup what =>
    exact congrArg (replyWith .lookup) (h.withPrep rq _
      (fun g path => lookupBody w { what with dir := g } path rq)
      fun g => funext fun path => lookupBody_counted { what with dir := g } path rq)
  | access _ bits =>
    exact congrArg (replyWith .access)
      (h.withPrep rq _ (fun _ path => accessBody w path bits rq) fun _ => rfl)
  | read _ offset count =>
    refine congrArg (fun f => replyWith .read (Prog.get >>= f)) (funext fun s => ?_)
    exact h.withPrep rq _ (fun _ path => readBody w path offset count rq (w.junk s.tick).int)
      fun _ => rfl
  | write args =>
    exact congrArg (replyWith .write)
      (h.withPrep rq _ (fun g path => writeBody w path { args with file := g } rq) fun _ => rfl)
  | create args how =>
    refine congrArg (fun f => replyWith .create (Prog.get >>= f)) (funext fun s => ?_)
    exact h.withPrep rq _
      (fun g path => createBody w path { args with dir := g } how rq (w.junk s.tick))
      fun g => funext fun path => createBody_counted path { args with dir := g } how rq _
  | mkdir args attributes =>
    refine congrArg (fun f => replyWith .mkdir (Prog.get >>= f)) (funext fun s => ?_)
    exact h.withPrep rq _
      (fun g path => mkdirBody w path { args with dir := g } attributes rq (w.junk s.tick))
      fun g => funext fun path => mkdirBody_counted path { args with dir := g } attributes rq _
  | remove object =>
    refine congrArg (fun f => replyWith .remove (Prog.get >>= f)) (funext fun s => ?_)
    exact h.withPrep rq _
      (fun _ path => unlinkBody w unlinkRemove path object.name rq (w.junk s.tick)) fun _ => rfl
  | rmdir object =>
    refine congrArg (fun f => replyWith .rmdir (Prog.get >>= f)) (funext fun s => ?_)
    exact h.withPrep rq _
      (fun _ path => unlinkBody w unlinkRmdir path object.name rq (w.junk s.tick)) fun _ => rfl
  | rename argsFrom argsTo =>
    have hto : ∀ path unset, renameBody w path { argsFrom with dir := fh' }
        { argsTo with dir := target } rq unset =
        renameBody w path { argsFrom with dir := fh' } { argsTo with dir := target' } rq unset := by
      intro path unset
      unfold renameBody
      rw [ht.fhDecomp]
    refine congrArg (fun f => replyWith .rename (Prog.get >>= f)) (funext fun s => ?_)
    refine (h.withPrep rq _ (fun g path => renameBody w path { argsFrom with dir := g }
      { argsTo with dir := target } rq (w.junk s.tick)) fun _ => rfl).trans ?_
    exact congrArg (NfsRods.withPrep w fh' rq _) (funext fun path => hto path _)
  | readdir _ cookie count =>
    exact congrArg (replyWith .readdir)
      (h.withPrep rq _ (fun _ path => readdirBody w path cookie count rq) fun _ => rfl)
  | fsstat _ =>
    exact congrArg (replyWith .fsstat)
      (h.withPrep rq _ (fun _ path => fsstatBody w path rq) fun _ => rfl)
  | fsinfo _ => exact congrArg (replyWith .fsinfo) (h.withPrep rq _ (fun _ _ => _) fun _ => rfl)
  | pathconf _ => exact congrArg (replyWith .pathconf) (h.withPrep rq _ (fun _ _ => _) fun _ => rfl)

/-- What lies behind the client's bytes makes no difference to the reply. -/
theorem serveNfs_within {data target : List UInt8} (hdata : data.length ≤ nfs3FhSize)
    (htarget : target.length ≤ nfs3FhSize) (a a' b b' : List UInt8) (rq : SvcReq)
    (q : NfsRequest) :
    serveNfs w rq (q.withHandles (overlay data a) (overlay target b)) =
      serveNfs w rq (q.withHandles (overlay data a') (overlay target b')) := by
  unfold serveNfs
  rw [nfsProgram_alike (overlay_alike hdata a a') (overlay_alike htarget b b')]

end

end NfsRods
