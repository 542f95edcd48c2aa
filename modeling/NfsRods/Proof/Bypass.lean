import NfsRods.Proof.Stable
import NfsRods.Serve

/-!
# WRITE through another user's descriptor

The descriptor cache finds a descriptor by the file and the kind of access, whoever has opened it. A
WRITE for a file with a descriptor in the cache makes no `open`, and with it no check of the
client's rights.

* `UpTo`: two states that differ in the descriptor cache, the trace and the kernel; what does not
  use the cache ends alike in both.
* `FdLaws`: what is documented of descriptors that are open for writing on one file.
* `write_cached_iff`: a cached descriptor makes no difference to a WRITE exactly if its client could
  open the file; `write_other_user` has a client who cannot.
-/

namespace NfsRods

open CStr
open Prog (Frame Respects)

section
variable {L R : Type}

/-- `s₀` differs from `s`, which has the cache `c`, in the cache `c₀`, the trace and the kernel,
which is related. -/
def UpTo (K : L → L → Prop) (c c₀ : FdCache) (s s₀ : Server L R) : Prop :=
  s.fd = c ∧ ∃ k t, K s.kernel k ∧ s₀ = { s with kernel := k, fd := c₀, trace := t }

end

/-! ## What does not use the cache -/

section
variable {L R : Type} {w : World L R} {K : L → L → Prop} {c c₀ : FdCache} {α : Type}

theorem upTo_modify {f : Server L R → Server L R} (hf : ∀ s k c t,
      f { s with kernel := k, fd := c, trace := t } =
        { f s with kernel := k, fd := c, trace := t }) :
    Respects (UpTo K c c₀) (Prog.modify f : M L R Unit) := by
  rintro s _ ⟨rfl, k, t, hk, rfl⟩
  have hsame : f s = { f s with kernel := s.kernel, fd := s.fd, trace := s.trace } :=
    hf s s.kernel s.fd s.trace
  have hkernel : (f s).kernel = s.kernel := by rw [hsame]
  have hfd : (f s).fd = s.fd := by rw [hsame]
  exact ⟨rfl, hfd, k, t, hkernel ▸ hk, hf s k c₀ t⟩

theorem upTo_get {g : Server L R → M L R α}
    (hg : ∀ s k c t, g { s with kernel := k, fd := c, trace := t } = g s)
    (h : ∀ s, Respects (UpTo K c c₀) (g s)) : Respects (UpTo K c c₀) (Prog.get >>= g) := by
  refine .get (fun s s' hs => ?_) h
  obtain ⟨-, k, t, -, rfl⟩ := hs
  exact hg s k c₀ t

theorem upTo_rods (call : RodsCall) : Respects (UpTo K c c₀) (rods w call) := by
  rintro s _ ⟨rfl, k, t, hk, rfl⟩
  exact ⟨rfl, rfl, k, _, hk, rfl⟩

theorem upTo_debug (m : Msg) : Respects (UpTo K c c₀) (debug w m : M L R Unit) :=
  upTo_modify fun _ _ _ _ => rfl

theorem upTo_junk : Respects (UpTo K c c₀) (junk w : M L R Junk) := by
  rintro s _ ⟨rfl, k, t, hk, rfl⟩
  exact ⟨rfl, rfl, k, t, hk, rfl⟩

theorem upTo_record (e : Event) : Respects (UpTo K c c₀) (record e : M L R Unit) := by
  rintro s _ ⟨rfl, k, t, hk, rfl⟩
  exact ⟨rfl, rfl, k, _, hk, rfl⟩

theorem upTo_when {p : Prop} [Decidable p] {m : M L R Unit} (hm : Respects (UpTo K c c₀) m) :
    Respects (UpTo K c c₀) (Prog.when p m) := .ite hm (.pure _)

theorem upTo_isPublic : Respects (UpTo K c c₀) (isPublic w) := by
  refine upTo_get (fun _ _ _ _ => rfl) fun s => .bind (upTo_record _) fun _ => ?_
  cases s.exports.path with
  | none => exact .stop _
  | some e => exact .bind (upTo_debug _) fun _ => .pure _

theorem upTo_getNFSDirectory (uid : UInt32) : Respects (UpTo K c c₀) (getNFSDirectory w uid) :=
  .bind upTo_isPublic fun _ => .ite (.pure _) (.pure _)

theorem upTo_getRealPathNFS (path : CStr) (uid : UInt32) :
    Respects (UpTo K c c₀) (getRealPathNFS w path uid) := by
  refine .bind (upTo_debug _) fun _ => .bind upTo_isPublic fun _ => .ite (.pure _) ?_
  refine .bind (upTo_getNFSDirectory uid) fun _ => upTo_get (fun _ _ _ _ => rfl) fun _ => ?_
  exact .ite (.pure _) (.bind (upTo_debug _) fun _ => .pure _)

theorem upTo_getIRODSpathGetAttr (path : CStr) (uid : UInt32) :
    Respects (UpTo K c c₀) (getIRODSpathGetAttr w path uid) := by
  refine .bind upTo_isPublic fun _ => .ite ?_ ?_
  · exact upTo_get (fun _ _ _ _ => rfl) fun _ => .pure _
  · exact upTo_get (fun _ _ _ _ => rfl) fun _ => .pure _

theorem upTo_zonePath : Respects (UpTo K c c₀) (zonePath w : M L R CStr) := by
  rw [zonePath]
  cases w.conf.zone with
  | none => exact .stop _
  | some z => exact .pure _

theorem upTo_concatProxy (zone name path : CStr) :
    Respects (UpTo K c c₀) (concatProxy w zone name path) :=
  .bind (upTo_debug _) fun _ => .bind (upTo_debug _) fun _ => .pure _

theorem upTo_getRodsPath (uid : UInt32) (path : CStr) :
    Respects (UpTo K c c₀) (getRodsPath w uid path) := by
  refine .bind (upTo_debug _) fun _ => .bind upTo_isPublic fun _ => .ite ?_ ?_
  · refine .bind (upTo_debug _) fun _ => .bind upTo_zonePath fun _ => upTo_concatProxy _ _ _
  · refine .ite ?_ ?_
    · refine .bind (upTo_debug _) fun _ => .bind upTo_zonePath fun _ => ?_
      exact .bind (upTo_concatProxy _ _ _) fun _ => .stop _
    · refine .bind upTo_zonePath fun _ => .bind upTo_junk fun _ => ?_
      exact .bind (upTo_concatProxy _ _ _) fun _ => .bind (upTo_debug _) fun _ => .pure _

theorem upTo_rodsConnect : Respects (UpTo K c c₀) (rodsConnect w : M L R Comm) :=
  .ite (.pure _) (.bind (upTo_rods _) fun _ => .pure _)

theorem upTo_rodsConnectProxy (name : Option CStr) :
    Respects (UpTo K c c₀) (rodsConnectProxy w name) := by
  refine .bind upTo_isPublic fun _ => ?_
  cases name with
  | none => exact upTo_rodsConnect
  | some name => exact .ite upTo_rodsConnect (.ite (.pure _) (.bind (upTo_rods _) fun _ => .pure _))

theorem upTo_rodsConnecUser (uid : UInt32) : Respects (UpTo K c c₀) (rodsConnecUser w uid) := by
  refine .bind (upTo_debug _) fun _ => .ite ?_ ?_
  · refine .bind (upTo_debug _) fun _ => ?_
    exact .bind (upTo_rodsConnectProxy _) fun _ => .stop _
  · exact .bind upTo_junk fun _ => upTo_rodsConnectProxy _

theorem upTo_rodsLogin (comm : Comm) : Respects (UpTo K c c₀) (rodsLogin w comm) := by
  cases comm with
  | none => exact .pure _
  | some conn =>
    refine .bind (upTo_rods _) fun _ => .bind (upTo_when ?_) fun _ => .pure _
    exact .bind (upTo_rods _) fun _ => .pure _

theorem upTo_openRods (path : CStr) (uid : UInt32) :
    Respects (UpTo K c c₀) (openRods w path uid) := by
  refine .bind (.bind (upTo_rodsConnecUser uid) fun _ => .bind (upTo_rodsLogin _) fun _ => .pure _)
    fun _ => ?_
  refine .bind (.bind (upTo_getIRODSpathGetAttr path uid) fun _ => upTo_getRodsPath uid _)
    fun _ => ?_
  exact .bind (upTo_debug _) fun _ => .pure _

theorem upTo_iWrite (name : CStr) (data : List UInt8) (offset : Int) (comm : Comm) :
    Respects (UpTo K c c₀) (iWrite w name data offset comm) := by
  refine .bind (upTo_rods _) fun _ => .bind (upTo_rods _) fun _ => .ite (.pure _) ?_
  exact .bind (upTo_rods _) fun _ => .ite (.pure _) (.bind (upTo_rods _) fun _ => .pure _)

theorem upTo_writeRemote (path : CStr) (args : Write3args) (rq : SvcReq) :
    Respects (UpTo K c c₀) (writeRemote w path args rq) := by
  refine .bind (upTo_openRods path rq.uid) fun _ => .bind (upTo_iWrite _ _ _ _) fun _ => ?_
  refine .bind (upTo_debug _) fun _ => .bind (upTo_debug _) fun _ => ?_
  exact .bind (upTo_rods _) fun _ => .pure _

end

/-! ## What comes before the file is opened -/

section
variable {L R : Type} {w : World L R} {c c₀ : FdCache} {α : Type}

/-- Two system calls that end alike. -/
theorem UpTo.sys {K K' : L → L → Prop} {s s₀ : Server L R} {call call₀ : SysCall}
    (h : UpTo K c c₀ s s₀)
    (hres : (w.sys call₀ s₀.kernel).1 = (w.sys call s.kernel).1)
    (hnext : K' (w.sys call s.kernel).2 (w.sys call₀ s₀.kernel).2) :
    (NfsRods.sys w call₀ s₀).1 = (NfsRods.sys w call s).1 ∧
      UpTo K' c c₀ (NfsRods.sys w call s).2 (NfsRods.sys w call₀ s₀).2 := by
  obtain ⟨rfl, k, t, -, rfl⟩ := h
  dsimp only at hres hnext
  unfold NfsRods.sys
  dsimp only
  rcases hs : w.sys call s.kernel with ⟨e | v, k1⟩ <;>
    rcases hs' : w.sys call₀ k with ⟨e' | v', k2⟩ <;>
    rw [hs, hs'] at hres hnext
  · obtain rfl : e' = e := Except.error.inj hres
    exact ⟨rfl, rfl, k2, _, hnext, rfl⟩
  · cases hres
  · cases hres
  · obtain rfl : v' = v := Except.ok.inj hres
    exact ⟨rfl, rfl, k2, _, hnext, rfl⟩

theorem upTo_sys_eq (call : SysCall) : Respects (UpTo Eq c c₀) (sys w call) := by
  intro s s₀ hs
  have hkernel : s.kernel = s₀.kernel := by
    obtain ⟨-, k, t, rfl, rfl⟩ := hs
    rfl
  exact hs.sys (by rw [hkernel]) (by rw [hkernel])

theorem upTo_becomeRoot : Respects (UpTo Eq c c₀) (becomeRoot w) :=
  .bind (upTo_sys_eq _) fun _ => .bind (upTo_sys_eq _) fun _ => .pure _

theorem upTo_switchToRoot : Respects (UpTo Eq c c₀) (switchToRoot w) :=
  upTo_get (fun _ _ _ _ => rfl) fun _ => upTo_when upTo_becomeRoot

theorem upTo_switchGroups : Respects (UpTo Eq c c₀) (switchGroups w) :=
  .bind (upTo_modify fun _ _ _ _ => rfl) fun _ => upTo_get (fun _ _ _ _ => rfl) fun _ =>
    upTo_sys_eq _

theorem upTo_switchUser (rq : SvcReq) : Respects (UpTo Eq c c₀) (switchUser w rq) := by
  refine upTo_get (fun _ _ _ _ => rfl) fun _ => .ite (.pure _)
    (.ite (upTo_modify fun _ _ _ _ => rfl) ?_)
  refine .bind upTo_becomeRoot fun _ => .bind (upTo_sys_eq _) fun _ =>
    .bind upTo_switchGroups fun _ => ?_
  exact .bind (upTo_sys_eq _) fun _ => upTo_when (.stop _)

theorem upTo_accessByOwner (b : Nat) (rq : SvcReq) (buf : Stat) :
    Respects (UpTo Eq c c₀) (accessByOwner w b rq buf) :=
  upTo_get (fun _ _ _ _ => rfl) fun _ => upTo_when upTo_becomeRoot

theorem upTo_fhCacheLookup (dev ino : ULong) :
    Respects (UpTo Eq c c₀) (fhCacheLookup w dev ino) := by
  rintro s _ ⟨rfl, k, t, rfl, rfl⟩
  unfold fhCacheLookup
  dsimp only
  cases s.fh.index dev ino with
  | none => exact ⟨rfl, rfl, _, _, rfl, rfl⟩
  | some i =>
    dsimp only
    cases w.lstat s.kernel (s.fh.entry i).path with
    | error e => exact ⟨rfl, rfl, _, _, rfl, rfl⟩
    | ok buf =>
      dsimp only
      split <;> exact ⟨rfl, rfl, _, _, rfl, rfl⟩

theorem upTo_fhCacheAdd (dev ino : ULong) (path : CStr) :
    Respects (UpTo Eq c c₀) (fhCacheAdd dev ino path : M L R Unit) := upTo_modify fun _ _ _ _ => rfl

/-- The end of `fh_decomp` for a handle whose file had to be looked for. -/
def decompFound (obj : Unfs3Fh) : Option (CStr × Option Stat) → M L R (Option CStr)
  | some (p, st) => do
    Prog.modify fun s => match st with
      | some b => { s with stCacheValid := true, stCache := b }
      | none => s
    fhCacheAdd obj.dev obj.ino p
    pure (some p)
  | none => do
    Prog.modify fun s => { s with stCacheValid := false }
    pure none

theorem upTo_decompFound (obj : Unfs3Fh) (found : Option (CStr × Option Stat)) :
    Respects (UpTo Eq c c₀) (decompFound obj found : M L R (Option CStr)) := by
  cases found with
  | none => exact .bind (upTo_modify fun _ _ _ _ => rfl) fun _ => .pure _
  | some r =>
    refine .bind (upTo_modify fun s k c t => ?_) fun _ =>
      .bind (upTo_fhCacheAdd _ _ _) fun _ => .pure _
    cases r.2 <;> rfl

theorem upTo_fhDecompHard (obj : Unfs3Fh) : Respects (UpTo Eq c c₀) (fhDecompHard w obj) := by
  refine .bind (upTo_fhCacheLookup _ _) fun p => ?_
  cases p with
  | some p => exact .pure _
  | none =>
    refine .get (fun s s' hs => ?_) fun s => upTo_decompFound obj _
    obtain ⟨-, k, t, rfl, rfl⟩ := hs
    rfl

theorem upTo_fhDecomp (fh : NfsFh3) : Respects (UpTo Eq c c₀) (fhDecomp w fh) := by
  refine .ite (.bind (upTo_modify fun _ _ _ _ => rfl) fun _ => .pure _)
    (upTo_get (fun _ _ _ _ => rfl) fun s => ?_)
  cases exportPointFromFsid s.exportList fh.obj.dev with
  | none => exact upTo_fhDecompHard _
  | some p =>
    exact .ite (.bind (upTo_modify fun _ _ _ _ => rfl) fun _ => .pure _) (upTo_fhDecompHard _)

theorem upTo_prep (fh : NfsFh3) (rq : SvcReq) : Respects (UpTo Eq c c₀) (prep w fh rq) := by
  refine .bind upTo_switchToRoot fun _ => .bind (upTo_fhDecomp fh) fun p => .bind ?_ fun k => ?_
  · rintro s _ ⟨rfl, k, t, rfl, rfl⟩
    exact ⟨rfl, rfl, _, _, rfl, rfl⟩
  · cases p with
    | none => exact .pure _
    | some path =>
      exact .ite (.pure _) (.ite (.pure _) (.bind (upTo_switchUser rq) fun _ => .pure _))

theorem upTo_writeFront (path : CStr) (rq : SvcReq) :
    Respects (UpTo Eq c c₀) (writeFront w path rq) := by
  refine .bind (upTo_getRealPathNFS path rq.uid) fun _ => .bind (upTo_debug _) fun _ => ?_
  refine upTo_get (fun _ _ _ _ => rfl) fun _ => ?_
  exact .bind (upTo_accessByOwner 2 rq _) fun _ => .pure _

end

/-! ## What is written -/

/-- What a call writes, and where. -/
def SysCall.writes : SysCall → Option (List UInt8 × Nat)
  | .pwrite _ data offset => some (data, offset)
  | _ => none

/-- The writes among system calls: the data, the offset and what the call returned. -/
def localWrites (cs : List (SysCall × Int)) : List (List UInt8 × Nat × Int) :=
  cs.filterMap fun x => x.1.writes.map fun d => (d.1, d.2, x.2)

section
variable {L R : Type} (w : World L R)

/-- From `s` to `s'` the writes `ws` were made. -/
def Wrote (ws : List (List UInt8 × Nat × Int)) (s s' : Server L R) : Prop :=
  ∃ cs, Did w cs s s' ∧ localWrites cs = ws

end

section
variable {L R : Type} {w : World L R} {s s' s'' : Server L R}
  {ws ws' : List (List UInt8 × Nat × Int)}

theorem Wrote.trans (h : Wrote w ws s s') (h' : Wrote w ws' s' s'') :
    Wrote w (ws ++ ws') s s'' := by
  obtain ⟨cs, hd, hw⟩ := h
  obtain ⟨cs', hd', hw'⟩ := h'
  refine ⟨cs ++ cs', hd.trans hd', ?_⟩
  rw [localWrites, List.filterMap_append]
  exact congrArg₂ (· ++ ·) hw hw'

theorem Wrote.calls (h : Wrote w ws s s') : localWrites (calls w s s') = ws := by
  obtain ⟨cs, hd, hw⟩ := h
  rw [hd.calls, hw]

theorem localWrites_eq_nil {cs : List (SysCall × Int)} (h : ∀ x ∈ cs, x.1.writes = none) :
    localWrites cs = [] := by
  refine List.filterMap_eq_nil_iff.2 fun x hx => ?_
  rw [h x hx]
  rfl

theorem mem_returns {t : List Event} {k : L} {x : SysCall × Int} (h : x ∈ returns w t k) :
    .sys x.1 ∈ t := by
  induction t generalizing k with
  | nil => cases h
  | cons ev t ih =>
    cases ev with
    | sys c =>
      rw [returns, sysReplies, List.map_cons] at h
      rcases List.mem_cons.1 h with rfl | h
      · exact List.mem_cons_self
      · exact List.mem_cons_of_mem _ (ih h)
    | _ => exact List.mem_cons_of_mem _ (ih h)

/-- A run without a call that writes. -/
theorem Ran.wrote {E : Event → Prop} (h : Ran w E s s') (hE : ∀ c, E (.sys c) → c.writes = none) :
    Wrote w [] s s' := by
  obtain ⟨t, ht, hEt, hk, -⟩ := h
  exact ⟨_, ⟨t, ht, hk, rfl⟩, localWrites_eq_nil fun x hx => hE _ (hEt _ (mem_returns hx))⟩

theorem setsId_writes {c : SysCall} (h : c.setsId = true) : c.writes = none := by
  cases c with
  | pwrite => cases h
  | _ => rfl

theorem calm_writes {c : SysCall} (h : (Event.sys c).calm = true) : c.writes = none := by
  cases c with
  | pwrite => cases h
  | _ => rfl

theorem prep_wrote (fh : NfsFh3) (rq : SvcReq) (s : Server L R) : Wrote w [] s (prep w fh rq s).2 :=
  (prep_ran (E := fun ev => ∀ c, ev = .sys c → c.setsId = true)
    (fun c hc c' h => by cases h; exact hc) fh rq s).wrote fun c hc => setsId_writes (hc c rfl)

theorem writeFront_wrote (path : CStr) (rq : SvcReq) (s : Server L R) :
    Wrote w [] s (writeFront w path rq s).2 :=
  (Foot.frame_ran (writeFront_foot (fun _ h => h) path rq) s).wrote fun _ hc => calm_writes hc

theorem writeRemote_wrote (path : CStr) (args : Write3args) (rq : SvcReq) (s : Server L R) :
    Wrote w [] s (writeRemote w path args rq s).2 := by
  refine (Foot.frame_ran
    (writeRemote_foot (E := fun ev => ∀ c, ev = .sys c → c.writes = none) (fun ev h c hc => ?_)
      (fun _ _ h => nomatch h) path args rq) s).wrote fun c hc => hc c rfl
  subst hc
  exact calm_writes h

theorem writeBack_wrote (path : CStr) (rq : SvcReq) (result : Write3res) (s : Server L R) :
    Wrote w [] s (writeBack w path rq result s).2 :=
  (Foot.frame_ran (writeBack_foot (E := fun _ => False) path rq result) s).wrote fun _ hc => hc.elim

end

/-! ## Descriptors of one file -/

section
variable {L R : Type} (w : World L R)

/-- What is documented of descriptors. In the kernel `k`, `On k fd ufh`: `fd` is open for writing on
the file; and `Twin k fd k' fd'`: `fd` of the kernel `k` and `fd'` of `k'` are open for writing on
one file. -/
structure FdLaws (On : L → Int → Unfs3Fh → Prop) (Twin : L → Int → L → Int → Prop) : Prop where
  ids : ∀ {k fd ufh c}, c.setsId = true → On k fd ufh → On (w.sys c k).2 fd ufh
  opens : ∀ {k fd ufh path fd' k'}, On k fd ufh → Opens w k path ufh .write fd' k' →
    Twin k fd k' fd'
  pwrite : ∀ {k fd k' fd'} data offset, Twin k fd k' fd' →
    (w.sys (.pwrite fd' data offset) k').1 = (w.sys (.pwrite fd data offset) k).1 ∧
      Twin (w.sys (.pwrite fd data offset) k).2 fd (w.sys (.pwrite fd' data offset) k').2 fd'
  fsync : ∀ {k fd k' fd'}, Twin k fd k' fd' → (w.sys (.fsync fd') k').1 = (w.sys (.fsync fd) k).1 ∧
    Twin (w.sys (.fsync fd) k).2 fd (w.sys (.fsync fd') k').2 fd'
  close : ∀ {k fd k' fd'}, Twin k fd k' fd' → (w.sys (.close fd') k').1 = (w.sys (.close fd) k).1
  synced : ∀ {k fd v}, (w.sys (.fsync fd) k).1 = .ok v → v = 0

end

section
variable {L R : Type} {w : World L R} {On : L → Int → Unfs3Fh → Prop}
  {Twin : L → Int → L → Int → Prop}
  {s s' : Server L R}

theorem replaySys_on (laws : FdLaws w On Twin) {t : List Event}
    (ht : ∀ c, .sys c ∈ t → c.setsId = true) {k : L}
    {fd : Int} {ufh : Unfs3Fh} (h : On k fd ufh) : On (replaySys w t k) fd ufh := by
  induction t generalizing k with
  | nil => exact h
  | cons ev t ih =>
    have hrest : ∀ c, .sys c ∈ t → c.setsId = true := fun c hc => ht c (List.mem_cons_of_mem _ hc)
    cases ev with
    | sys c => exact ih hrest (laws.ids (ht c List.mem_cons_self) h)
    | _ => exact ih hrest h

/-- A run whose system calls change the identity keeps the descriptor open. -/
theorem Ran.on (laws : FdLaws w On Twin)
    (h : Ran w (fun ev => ∀ c, ev = .sys c → c.setsId = true) s s') {fd : Int}
    {ufh : Unfs3Fh} (hon : On s.kernel fd ufh) : On s'.kernel fd ufh := by
  obtain ⟨t, -, hE, hk, -⟩ := h
  rw [hk]
  exact replaySys_on laws (fun c hc => hE _ hc c rfl) hon

theorem prep_on (laws : FdLaws w On Twin) {fh : NfsFh3} {rq : SvcReq} {x : Except Nfsstat3 CStr}
    {fd : Int}
    {ufh : Unfs3Fh} (h : prep w fh rq s = (.ok x, s')) (hon : On s.kernel fd ufh) :
    On s'.kernel fd ufh :=
  Ran.on laws ((prep_ran (fun c hc c' h => by cases h; exact hc) fh rq).ok h) hon

theorem writeFront_on (laws : FdLaws w On Twin) {path p : CStr} {rq : SvcReq} {st : Nfsstat3}
    {fd : Int}
    {ufh : Unfs3Fh} {e : CStr} (he : s.exports.path = some e)
    (h : writeFront w path rq s = (.ok (p, st), s'))
    (hon : On s.kernel fd ufh) : On s'.kernel fd ufh := by
  obtain ⟨s1, h1, htacit⟩ := getRealPathNFS_ends (w := w) he path rq.uid
  rw [writeFront, Prog.bind_ok h1] at h
  have hon1 : On s1.kernel fd ufh := by
    rw [htacit]
    exact hon
  have hrest : Frame (Ran w fun ev => ∀ c, ev = .sys c → c.setsId = true) (do
      debug w "ACCESS PATH %s"
      let s ← Prog.get
      writeByOwner w rq s.stCache
      pure (realPath w e rq.uid path, join (isReg s) (exportsRw s.exports)) : M L R
        (CStr × Nfsstat3)) := by
    refine .bind (Foot.frame_ran (debug_frame _)) fun _ => .bind .get fun _ =>
      .bind ?_ fun _ => .pure _
    refine .bind .get fun _ => .when fun _ => becomeRoot_frame fun c hc c' hc' => ?_
    cases hc'
    exact hc
  exact Ran.on laws (hrest.ok h) hon1

/-- What `fd_open` leaves of a file that has no entry in the table. -/
theorem FdOpened.fresh {path : CStr} {ufh : Unfs3Fh} {caching : Bool} {fd : Int}
    (h : FdOpened w path ufh .write caching s fd s') (hidx : s.fd.idxByFh ufh .write = none) :
    Wrote w [] s s' ∧ ((fd = -1 ∧ ∀ fd k', ¬ Opens w s.kernel path ufh .write fd k') ∨
      ∃ t, Opens w s.kernel path ufh .write fd s'.kernel ∧ s' = { s with
        kernel := s'.kernel, trace := t
        fd := if caching then s.fd.add fd ufh .write (w.time s'.kernel) else s.fd }) := by
  cases h with
  | pending h => exact absurd h (by simp [hidx])
  | cached h => exact absurd h (by simp [hidx])
  | refused _ _ hdid hnot => exact ⟨⟨_, hdid, rfl⟩, .inl ⟨rfl, hnot⟩⟩
  | raced _ _ _ hdid hnot =>
    obtain ⟨v, hdid⟩ := hdid
    exact ⟨⟨_, hdid, rfl⟩, .inl ⟨rfl, hnot⟩⟩
  | @opened _ s1 _ _ hside hdid hopens herr =>
    refine ⟨⟨_, hdid.own rfl rfl, rfl⟩, .inr ⟨s1.trace, hopens, ?_⟩⟩
    rw [hside, herr]

/-- What `fd_close` says of a descriptor for writing: nothing if it may stay, else how closing it
went. -/
theorem FdClosed.says (laws : FdLaws w On Twin) {really : Bool} {fd r : Int}
    (h : FdClosed w fd .write really s r s') (hfd : fd ≠ -1) :
    Wrote w [] s s' ∧
      (really = false → s.fd.idxByFd fd .write ≠ none → r ≠ -1 ∧ s'.errno = s.errno) ∧
      (really = true → (r = -1 ↔ CloseFails w fd .write s.kernel) ∧
        s'.errno = closeErrno w fd .write s.kernel s.errno) := by
  cases h with
  | stays hidx hreal =>
    refine ⟨⟨[], (Did.refl s).own rfl rfl, rfl⟩, fun _ _ => ⟨by decide, rfl⟩, fun h => ?_⟩
    exact absurd (hreal.symm.trans h) (by decide)
  | @deleted idx _ _ hidx hreal hr hdel =>
    obtain ⟨-, hent, hkind⟩ := FdCache.idxByFd_eq_some hidx
    have hent' : ((s.fd.touch idx (w.time s.kernel)).entry idx).fd = fd := by simpa using hent
    have hkind' : ((s.fd.touch idx (w.time s.kernel)).entry idx).kind = .write := by
      simpa using hkind
    have hopen : ((s.fd.touch idx (w.time s.kernel)).entry idx).isOpen = true := by
      rw [FdEntry.isOpen, hent']
      simpa using hfd
    have hdid := hdel.did
    have herr := hdel.errno hopen
    dsimp only at hdid herr
    rw [FdEntry.calls, if_pos hopen, hent', hkind'] at hdid
    rw [hent', hkind'] at herr
    rw [FdEntry.Fails, hopen, hent', hkind'] at hr
    refine ⟨⟨_, hdid, rfl⟩, fun h => absurd (hreal.symm.trans h) (by decide), fun _ => ⟨?_, herr⟩⟩
    simpa using hr
  | lone hidx hside hdid herr =>
    refine ⟨⟨_, hdid, rfl⟩, fun _ h => absurd hidx h, fun _ => ⟨?_, herr⟩⟩
    rw [closeFails_iff, loneResult]
    dsimp only
    by_cases hsync : sysResult w (.fsync fd) s.kernel = -1
    · simp [hsync]
    · have hzero : sysResult w (.fsync fd) s.kernel = 0 := laws.synced (sysResult_ok hsync)
      simp [hzero]

/-- Closing descriptors of one file goes alike. -/
theorem FdLaws.closes (laws : FdLaws w On Twin) {k k' : L} {fd fd' : Int} (h : Twin k fd k' fd')
    (e : Errno) :
    (CloseFails w fd' .write k' ↔ CloseFails w fd .write k) ∧
      closeErrno w fd' .write k' e = closeErrno w fd .write k e := by
  obtain ⟨hsync, hnext⟩ := laws.fsync h
  have hclose := laws.close hnext
  rw [closeFails_iff, closeFails_iff]
  simp only [closeErrno, sysErrno, sysResult, hsync, hclose, and_self]

end

/-! ## From the open on -/

section
variable {L R : Type} (w : World L R)

/-- What comes after the local write and iRODS. -/
def writeEnd (args : Write3args) (fd res : Int) : M L R Write3res := do
  let resClose ← fdClose w fd .write (args.stable ≠ .unstable)
  let s ← Prog.get
  if res ≠ -1 ∧ resClose ≠ -1 then
    let committed := if args.stable = .dataSync then .fileSync else args.stable
    pure { status := .ok, count := res, committed, verf := s.wverf }
  else pure { status := writeWriteErr s.errno }

/-- What is done with the descriptor. -/
def writeGot (path : CStr) (args : Write3args) (rq : SvcReq) (fd : Int) : M L R Write3res := do
  let res ← sys w (.pwrite fd args.data args.offset)
  writeRemote w path args rq
  writeEnd w args fd res

end

section
variable {L R : Type} {w : World L R} {On : L → Int → Unfs3Fh → Prop}
  {Twin : L → Int → L → Int → Prop}
  {s s' s₀ : Server L R} {path : CStr} {args : Write3args} {rq : SvcReq} {fd fd' : Int}
  {c c₀ : FdCache}

theorem writeWrite_got (rq : SvcReq)
    (hopen : fdOpen w path args.file .write (args.stable = .unstable) s = (.ok fd, s'))
    (hfd : fd ≠ -1) :
    writeWrite w path args rq s = writeGot w path args rq fd s' := by
  have heq : (do
      let x ← writeFd w path args rq fd
      let s ← Prog.get
      if x.1 ≠ -1 ∧ x.2 ≠ -1 then
        let committed := if args.stable = .dataSync then .fileSync else args.stable
        pure { status := .ok, count := x.1, committed, verf := s.wverf }
      else pure { status := writeWriteErr s.errno }) = writeGot w path args rq fd := by
    rw [writeFd_eq]
    simp only [Prog.bind_assoc]
    rfl
  rw [writeWrite, Prog.bind_ok hopen, if_pos hfd, ← heq]

theorem writeWrite_refused (rq : SvcReq)
    (hopen : fdOpen w path args.file .write (args.stable = .unstable) s = (.ok (-1), s')) :
    writeWrite w path args rq s = (.ok { status := writeOpenErr s'.errno }, s') := by
  rw [writeWrite, Prog.bind_ok hopen]
  rfl

theorem writeEnd_wrote (laws : FdLaws w On Twin) (hfd : fd ≠ -1) (res : Int) (s : Server L R) :
    Wrote w [] s (writeEnd w args fd res s).2 := by
  obtain ⟨r, s1, hrun, hclosed⟩ := fdClose_run (w := w) fd .write (args.stable ≠ .unstable) s
  obtain ⟨hw, -⟩ := hclosed.says laws hfd
  rw [writeEnd, Prog.bind_ok hrun, Prog.get_bind_run, Prog.ite_run]
  split
  · exact hw
  · exact hw

/-- Who has a descriptor tries to write. -/
theorem writeGot_wrote (laws : FdLaws w On Twin) (path : CStr) (args : Write3args) (rq : SvcReq)
    (hfd : fd ≠ -1)
    (s : Server L R) :
    Wrote w [(args.data, args.offset, sysResult w (.pwrite fd args.data args.offset) s.kernel)] s
      (writeGot w path args rq fd s).2 := by
  obtain ⟨s1, h1, -, -, -, hd1⟩ := sys_run (w := w) (.pwrite fd args.data args.offset) s
  have hw : Wrote w [_] s s1 := ⟨_, hd1, rfl⟩
  have hwr := writeRemote_wrote (w := w) path args rq s1
  rw [writeGot, Prog.bind_ok h1]
  rcases hrem : writeRemote w path args rq s1 with ⟨_ | _, s2⟩ <;> rw [hrem] at hwr
  · rw [Prog.bind_error hrem]
    exact hw.trans hwr
  · rw [Prog.bind_ok hrem]
    exact (hw.trans hwr).trans (writeEnd_wrote laws hfd _ s2)

theorem writeEnd_alike (laws : FdLaws w On Twin)
    (hup : UpTo (fun k k' => Twin k fd k' fd') c c₀ s s₀)
    (hfd : fd ≠ -1) (hfd' : fd' ≠ -1) (hin : c.idxByFd fd .write ≠ none)
    (hin₀ : args.stable = .unstable → c₀.idxByFd fd' .write ≠ none) (res : Int) :
    (writeEnd w args fd' res s₀).1.map (·.status) =
      (writeEnd w args fd res s).1.map (·.status) := by
  obtain ⟨r, s1, hrun, hclosed⟩ := fdClose_run (w := w) fd .write (args.stable ≠ .unstable) s
  obtain ⟨r₀, t1, hrun₀, hclosed₀⟩ := fdClose_run (w := w) fd' .write (args.stable ≠ .unstable) s₀
  obtain ⟨-, hvirtual, hreal⟩ := hclosed.says laws hfd
  obtain ⟨-, hvirtual₀, hreal₀⟩ := hclosed₀.says laws hfd'
  obtain ⟨rfl, k, t, htwin, rfl⟩ := hup
  obtain ⟨hfails, herrno⟩ := laws.closes htwin s.errno
  have hsame : (r₀ = -1 ↔ r = -1) ∧ t1.errno = s1.errno := by
    by_cases hst : args.stable = .unstable
    · obtain ⟨hr, he⟩ := hvirtual (by simp [hst]) hin
      obtain ⟨hr₀, he₀⟩ := hvirtual₀ (by simp [hst]) (hin₀ hst)
      exact ⟨iff_of_false hr₀ hr, he₀.trans he.symm⟩
    · obtain ⟨hr, he⟩ := hreal (by simp [hst])
      obtain ⟨hr₀, he₀⟩ := hreal₀ (by simp [hst])
      exact ⟨hr₀.trans (hfails.trans hr.symm), he₀.trans (herrno.trans he.symm)⟩
  unfold writeEnd
  rw [Prog.bind_ok hrun, Prog.get_bind_run, Prog.ite_run, Prog.bind_ok hrun₀, Prog.get_bind_run,
    Prog.ite_run]
  by_cases hok : res ≠ -1 ∧ r ≠ -1
  · rw [if_pos hok, if_pos ⟨hok.1, fun h => hok.2 (hsame.1.1 h)⟩]
    rfl
  · rw [if_neg hok, if_neg fun h => hok ⟨h.1, fun hr => h.2 (hsame.1.2 hr)⟩, hsame.2]
    rfl

/-- **Descriptors of one file.** A write through either ends with the same status. -/
theorem writeGot_alike (laws : FdLaws w On Twin) (path : CStr) (rq : SvcReq)
    (hup : UpTo (fun k k' => Twin k fd k' fd') c c₀ s s₀) (hfd : fd ≠ -1) (hfd' : fd' ≠ -1)
    (hin : c.idxByFd fd .write ≠ none)
    (hin₀ : args.stable = .unstable → c₀.idxByFd fd' .write ≠ none) :
    (writeGot w path args rq fd' s₀).1.map (·.status) =
        (writeGot w path args rq fd s).1.map (·.status) ∧
      sysResult w (.pwrite fd' args.data args.offset) s₀.kernel =
        sysResult w (.pwrite fd args.data args.offset) s.kernel := by
  have htwin : Twin s.kernel fd s₀.kernel fd' := by
    obtain ⟨-, k, t, htwin, rfl⟩ := hup
    exact htwin
  obtain ⟨hpw, hnext⟩ := laws.pwrite args.data args.offset htwin
  have hres : sysResult w (.pwrite fd' args.data args.offset) s₀.kernel =
      sysResult w (.pwrite fd args.data args.offset) s.kernel := by rw [sysResult, hpw, sysResult]
  refine ⟨?_, hres⟩
  obtain ⟨s1, h1, -⟩ := sys_run (w := w) (.pwrite fd args.data args.offset) s
  obtain ⟨t1, g1, -⟩ := sys_run (w := w) (.pwrite fd' args.data args.offset) s₀
  have hup1 : UpTo (fun k k' => Twin k fd k' fd') c c₀ _ _ := (hup.sys hpw hnext).2
  rw [h1, g1] at hup1
  rw [hres] at g1
  obtain ⟨hremote, hup2⟩ := upTo_writeRemote (w := w) path args rq s1 t1 hup1
  unfold writeGot
  rw [Prog.bind_ok h1, Prog.bind_ok g1]
  rcases hrem : writeRemote w path args rq s1 with ⟨x, s2⟩
  rcases hrem₀ : writeRemote w path args rq t1 with ⟨x₀, t2⟩
  rw [hrem, hrem₀] at hremote hup2
  obtain rfl : x₀ = x := hremote
  cases x₀ with
  | error e => rw [Prog.bind_error hrem, Prog.bind_error hrem₀]
  | ok _ =>
    rw [Prog.bind_ok hrem, Prog.bind_ok hrem₀]
    exact writeEnd_alike laws hup2 hfd hfd' hin hin₀ _

/-- What comes after the write changes neither the status nor the local file. -/
theorem writeBack_same (m : M L R Write3res) (path : CStr) (rq : SvcReq) (s : Server L R)
    {ws : List (List UInt8 × Nat × Int)} (h : Wrote w ws s (m s).2) :
    ((m >>= writeBack w path rq) s).1.map (·.status) = (m s).1.map (·.status) ∧
      Wrote w ws s ((m >>= writeBack w path rq) s).2 := by
  rcases hm : m s with ⟨e | result, s1⟩ <;> rw [hm] at h
  · rw [Prog.bind_error hm]
    exact ⟨rfl, h⟩
  · have hb := writeBack_wrote (w := w) path rq result s1
    obtain ⟨wcc, s2, hback⟩ := writeBack_run (w := w) path rq result s1
    rw [hback] at hb
    rw [Prog.bind_ok hm, hback]
    refine ⟨rfl, ?_⟩
    simpa using h.trans hb

end

/-! ## With and without the descriptor -/

section
variable {L R : Type} (w : World L R)

/-- The request gets as far as opening the file, at `path`, which it does in `t`. -/
def Reaches (args : Write3args) (rq : SvcReq) (s : Server L R) (path : CStr)
    (t : Server L R) : Prop :=
  ∃ d s1, prep w args.file rq s = (.ok (.ok d), s1) ∧ writeFront w d rq s1 = (.ok (path, .ok), t)

/-- Where the request gets as far as opening the file, the kernel lets its client open the file for
writing. -/
def MayOpen (args : Write3args) (rq : SvcReq) (s : Server L R) : Prop :=
  ∀ path t, Reaches w args rq s path t → ∃ fd k, Opens w t.kernel path args.file.obj .write fd k

/-- The writes to the local file that a request tries to make. -/
def writesTried (args : Write3args) (rq : SvcReq) (s : Server L R) :
    List (List UInt8 × Nat × Int) :=
  localWrites (calls w s (nfsproc3Write w args rq s).2)

/-- The writes to the local file that a request makes. -/
def writesMade (args : Write3args) (rq : SvcReq) (s : Server L R) : List (List UInt8 × Nat × Int) :=
  (writesTried w args rq s).filter fun x => x.2.2 != -1

/-- With the table `c₀` in place of that of `s`, the request would get the same status and change
the local file in the same way; and it does not try to write what it would not get to writing with
`c₀`. -/
def Transparent (args : Write3args) (rq : SvcReq) (s : Server L R) (c₀ : FdCache) : Prop :=
  (nfsproc3Write w args rq s).1.map (·.status) =
      (nfsproc3Write w args rq { s with fd := c₀ }).1.map (·.status) ∧
    writesMade w args rq s = writesMade w args rq { s with fd := c₀ } ∧
    (writesTried w args rq s ≠ [] → writesTried w args rq { s with fd := c₀ } ≠ [])

end

section
variable {L R : Type} {w : World L R} {s s₀ : Server L R} {args : Write3args} {rq : SvcReq}
  {c c₀ : FdCache}

theorem Reaches.unique {path path' : CStr} {t t' : Server L R} (h : Reaches w args rq s path t)
    (h' : Reaches w args rq s path' t') : path' = path ∧ t' = t := by
  obtain ⟨d, s1, hp, hf⟩ := h
  obtain ⟨d', s1', hp', hf'⟩ := h'
  rw [hp] at hp'
  cases hp'
  rw [hf] at hf'
  cases hf'
  exact ⟨rfl, rfl⟩

/-- Up to the point where the file is opened, a request goes alike with any table. -/
theorem nfsproc3Write_alike (args : Write3args) (rq : SvcReq) (hup : UpTo Eq c c₀ s s₀) :
    (∃ path t t₀, Reaches w args rq s path t ∧ UpTo Eq c c₀ t t₀ ∧ Wrote w [] s t ∧
      Wrote w [] s₀ t₀ ∧
      nfsproc3Write w args rq s = (writeWrite w path args rq >>= writeBack w path rq) t ∧
      nfsproc3Write w args rq s₀ = (writeWrite w path args rq >>= writeBack w path rq) t₀) ∨
    (∀ path t, ¬ Reaches w args rq s path t) ∧
      (nfsproc3Write w args rq s).1.map (·.status) = (nfsproc3Write w args rq s₀).1.map (·.status) ∧
      Wrote w [] s (nfsproc3Write w args rq s).2 ∧
        Wrote w [] s₀ (nfsproc3Write w args rq s₀).2 := by
  obtain ⟨hres, hup1⟩ := upTo_prep (w := w) args.file rq s s₀ hup
  have hw1 := prep_wrote (w := w) args.file rq s
  have hw1₀ := prep_wrote (w := w) args.file rq s₀
  rcases hp : prep w args.file rq s with ⟨x, s1⟩
  rcases hp₀ : prep w args.file rq s₀ with ⟨x₀, t1⟩
  rw [hp] at hw1 hup1 hres
  rw [hp₀] at hw1₀ hup1 hres
  obtain rfl : x₀ = x := hres
  unfold nfsproc3Write withPrep
  rcases x₀ with st | st | d
  · rw [Prog.bind_error hp, Prog.bind_error hp₀]
    refine .inr ⟨?_, rfl, hw1, hw1₀⟩
    rintro path t ⟨d', s', hp', -⟩
    cases hp.symm.trans hp'
  · rw [Prog.bind_ok hp, Prog.bind_ok hp₀]
    refine .inr ⟨?_, rfl, hw1, hw1₀⟩
    rintro path t ⟨d', s', hp', -⟩
    cases hp.symm.trans hp'
  rw [Prog.bind_ok hp, Prog.bind_ok hp₀]
  dsimp only
  rw [writeBody_eq]
  obtain ⟨hfres, hup2⟩ := upTo_writeFront (w := w) d rq s1 t1 hup1
  have hw2 := hw1.trans (writeFront_wrote (w := w) d rq s1)
  have hw2₀ := hw1₀.trans (writeFront_wrote (w := w) d rq t1)
  rcases hf : writeFront w d rq s1 with ⟨y, s2⟩
  rcases hf₀ : writeFront w d rq t1 with ⟨y₀, t2⟩
  rw [hf] at hw2 hup2 hfres
  rw [hf₀] at hw2₀ hup2 hfres
  obtain rfl : y₀ = y := hfres
  rcases y₀ with st | ⟨path, st⟩
  · rw [Prog.bind_error hf, Prog.bind_error hf₀]
    refine .inr ⟨?_, rfl, hw2, hw2₀⟩
    rintro path t ⟨d', s', hp', hf'⟩
    cases hp.symm.trans hp'
    cases hf.symm.trans hf'
  rw [Prog.bind_ok hf, Prog.bind_ok hf₀]
  dsimp only
  by_cases hst : st = .ok
  · subst hst
    exact .inl ⟨path, s2, t2, ⟨d, s1, hp, hf⟩, hup2, hw2, hw2₀, rfl, rfl⟩
  · rw [if_neg hst]
    obtain ⟨h1, h2⟩ :=
      writeBack_same (w := w) (pure { status := st }) path rq s2 ⟨[], .refl s2, rfl⟩
    obtain ⟨h1₀, h2₀⟩ :=
      writeBack_same (w := w) (pure { status := st }) path rq t2 ⟨[], .refl t2, rfl⟩
    refine .inr ⟨?_, h1.trans h1₀.symm, hw2.trans h2, hw2₀.trans h2₀⟩
    rintro path' t ⟨d', s', hp', hf'⟩
    cases hp.symm.trans hp'
    cases hf.symm.trans hf'
    exact hst rfl

/-- A table with an entry for the descriptor finds it. -/
theorem FdCache.idxByFd_ne_none {i : Nat} {fd : Int} {kind : FdKind} (hi : i < fdEntries)
    (hfd : (c.entry i).fd = fd)
    (hkind : (c.entry i).kind = kind) : c.idxByFd fd kind ≠ none :=
  fun h => FdCache.idxByFd_eq_none h hi ⟨hfd, hkind⟩

theorem FdCache.idxByFd_add (hroom : c.unused ≠ none) (fd : Int) (ufh : Unfs3Fh) (kind : FdKind)
    (t : Int) :
    (c.add fd ufh kind t).idxByFd fd kind ≠ none := by
  obtain ⟨i, hi⟩ := Option.ne_none_iff_exists'.1 hroom
  rw [FdCache.add, hi]
  exact idxByFd_ne_none (FdCache.unused_eq_some hi).1 (by simp) (by simp)

/-- `fd_open` of a file with a descriptor in the table does nothing. -/
theorem fdOpen_cached {nfh : NfsFh3} {idx : Nat} (path : CStr) (caching : Bool)
    (hidx : s.fd.idxByFh nfh.obj .write = some idx) (hfd : (s.fd.entry idx).fd ≠ -1) :
    fdOpen w path nfh .write caching s = (.ok (s.fd.entry idx).fd, s) := by
  rw [fdOpen, Prog.get_bind_run, hidx]
  dsimp only
  rw [if_neg hfd]
  rfl

section
variable {On : L → Int → Unfs3Fh → Prop} {Twin : L → Int → L → Int → Prop}

theorem Reaches.on (laws : FdLaws w On Twin) {path : CStr} {t : Server L R}
    (h : Reaches w args rq s path t)
    {fd : Int} {ufh : Unfs3Fh} (hon : On s.kernel fd ufh) : On t.kernel fd ufh := by
  obtain ⟨d, s1, hp, hf⟩ := h
  obtain ⟨e, he⟩ := prep_path hp
  exact writeFront_on laws he hf (prep_on laws hp hon)

variable {path : CStr} {fd : Int} {t t1 : Server L R}

/-- A request that gets a descriptor. -/
theorem write_opened (laws : FdLaws w On Twin)
    (hrun : nfsproc3Write w args rq s = (writeWrite w path args rq >>= writeBack w path rq) t)
    (hw : Wrote w [] s t)
    (hopen : fdOpen w path args.file .write (args.stable = .unstable) t = (.ok fd, t1))
    (how : Wrote w [] t t1)
    (hfd : fd ≠ -1) :
    (nfsproc3Write w args rq s).1.map (·.status) =
        (writeGot w path args rq fd t1).1.map (·.status) ∧
      writesTried w args rq s =
        [(args.data, args.offset, sysResult w (.pwrite fd args.data args.offset) t1.kernel)] := by
  have hgot := writeWrite_got rq hopen hfd
  have hwrote := how.trans (writeGot_wrote laws path args rq hfd t1)
  rw [← hgot] at hwrote ⊢
  obtain ⟨hst, hback⟩ := writeBack_same _ path rq t hwrote
  rw [← hrun] at hst hback
  exact ⟨hst, (hw.trans hback).calls⟩

/-- A request that gets none. -/
theorem write_refused
    (hrun : nfsproc3Write w args rq s = (writeWrite w path args rq >>= writeBack w path rq) t)
    (hw : Wrote w [] s t)
    (hopen : fdOpen w path args.file .write (args.stable = .unstable) t = (.ok (-1), t1))
    (how : Wrote w [] t t1) : writesTried w args rq s = [] := by
  have hwrote : Wrote w [] t (writeWrite w path args rq t).2 := by
    rw [writeWrite_refused rq hopen]
    exact how
  obtain ⟨-, hback⟩ := writeBack_same _ path rq t hwrote
  rw [← hrun] at hback
  exact (hw.trans hback).calls

end

end

/-- **A WRITE through a descriptor in the cache** goes as it would without the descriptor exactly if
the client could have opened the file. -/
theorem write_cached_iff {L R : Type} (w : World L R) (On : L → Int → Unfs3Fh → Prop)
    (Twin : L → Int → L → Int → Prop) (laws : FdLaws w On Twin) (args : Write3args) (rq : SvcReq)
    (s : Server L R)
    (c₀ : FdCache) (idx : Nat) (hidx : s.fd.idxByFh args.file.obj .write = some idx)
    (hfd : (s.fd.entry idx).fd ≠ -1) (hon : On s.kernel (s.fd.entry idx).fd args.file.obj)
    (hnone : c₀.idxByFh args.file.obj .write = none) (hroom : c₀.unused ≠ none) :
    Transparent w args rq s c₀ ↔ MayOpen w args rq s := by
  have hup : UpTo Eq s.fd c₀ s { s with fd := c₀ } := ⟨rfl, s.kernel, s.trace, rfl, rfl⟩
  rcases nfsproc3Write_alike (w := w) args rq hup with
    ⟨path, t, t₀, hreach, hup1, hw, hw₀, hrun, hrun₀⟩ | ⟨hnot, hst, hw, hw₀⟩
  · have hon1 := hreach.on laws hon
    obtain ⟨hfdt, k, tr, rfl, rfl⟩ := hup1
    rw [← hfdt] at hidx hfd hon1
    obtain ⟨hi, hkey⟩ := FdCache.idxByFh_eq_some hidx
    have hopen := fdOpen_cached (w := w) path (args.stable = .unstable) hidx hfd
    obtain ⟨hst, htried⟩ := write_opened laws hrun hw hopen ⟨[], .refl t, rfl⟩ hfd
    -- the same request without the descriptor
    obtain ⟨fd', t1, hopen₀, hopened⟩ :=
      fdOpen_run (w := w) path args.file .write (args.stable = .unstable)
        { t with fd := c₀, trace := tr }
    obtain ⟨how, ⟨rfl, hrefused⟩ | ⟨tr1, hopens, ht1⟩⟩ := hopened.fresh hnone
    · refine iff_of_false (fun h => h.2.2 ?_ (write_refused hrun₀ hw₀ hopen₀ how)) fun h => ?_
      · rw [htried]
        simp
      · obtain ⟨fd, k, h⟩ := h path t hreach
        exact hrefused fd k h
    · obtain ⟨hst₀, htried₀⟩ := write_opened laws hrun₀ hw₀ hopen₀ how hopens.2.1
      have hup2 : UpTo (fun k k' => Twin k (t.fd.entry idx).fd k' fd') t.fd t1.fd t t1 := by
        refine ⟨rfl, t1.kernel, t1.trace, laws.opens hon1 hopens, ?_⟩
        rw [ht1]
      have hin := FdCache.idxByFd_ne_none (c := t.fd) hi rfl (congrArg (fun x => x.2.2.2) hkey)
      have hin₀ : args.stable = .unstable → t1.fd.idxByFd fd' .write ≠ none := by
        intro hun
        rw [ht1, if_pos (by simp [hun])]
        exact FdCache.idxByFd_add hroom _ _ _ _
      obtain ⟨halike, hres⟩ := writeGot_alike laws path rq hup2 hfd hopens.2.1 hin hin₀
      have hsame : writesTried w args rq s = writesTried w args rq { s with fd := c₀ } := by
        rw [htried, htried₀, hres]
      refine iff_of_true ⟨?_, by rw [writesMade, writesMade, hsame], fun h => hsame ▸ h⟩
        fun path' t' h => ?_
      · rw [hst, hst₀, halike]
      · obtain ⟨rfl, rfl⟩ := hreach.unique h
        exact ⟨fd', t1.kernel, hopens⟩
  · have hsame : writesTried w args rq s = writesTried w args rq { s with fd := c₀ } :=
      hw.calls.trans hw₀.calls.symm
    exact iff_of_true ⟨hst, by rw [writesMade, writesMade, hsame], fun h => hsame ▸ h⟩
      fun path t h => absurd h (hnot path t)

/-! ## A file of another user -/

/-- The small world with a kernel that lets a file be opened by its owner and by root. -/
def ownerWorld : World Sandbox.Kernel Sandbox.Grid :=
  { writingWorld with
    sys := fun c k => match c with
      | .open_ p f mode =>
        if (k.files.lookup p).all fun b => k.euid = 0 ∨ k.euid = b.uid then Sandbox.sysCall
          (.open_ p f mode) k
        else (.error .eacces, k)
      | c => writingWorld.sys c k
    time := fun _ => 1
    sys_tree := fun c k hc => by
      cases c
      case open_ =>
        dsimp only
        split
        · exact writingWorld.sys_tree _ k hc
        · rfl
      all_goals exact writingWorld.sys_tree _ k hc }

/-- A daemon that remembers a handle of `/e/x`, a file of user 7 that nobody else may open. -/
def ownedServer : Server Sandbox.Kernel Sandbox.Grid :=
  { Sandbox.server [Sandbox.item (lit "/e") true]
      { files := [(lit "/e/x", { dev := 1, ino := 5, mode := 0o100600, uid := 7, gid := 7 })] }
        {} with
    fh := FhCache.add {} 1 5 (lit "/e/x") }

/-- Two bytes that need not be stable. -/
def unstableBytes : Write3args :=
    { file := fileHandle, offset := 0, stable := .unstable, data := [1, 2] }

/-- A request of a user. -/
def reqOf (uid : UInt32) : SvcReq := { remote := 1, uid, gid := uid }

/-- The daemon after an unstable WRITE of the owner. -/
def cachedServer : Server Sandbox.Kernel Sandbox.Grid :=
  (nfsproc3Write ownerWorld unstableBytes (reqOf 7) ownedServer).2

/-- Another user may not open the file, and is refused. Once the owner has written to it, the other
user's WRITE is carried out. -/
theorem write_other_user :
    (nfsproc3Write ownerWorld unstableBytes (reqOf 7) ownedServer).1.map (·.status) = .ok .ok ∧
    (nfsproc3Write ownerWorld unstableBytes (reqOf 8) ownedServer).1.map (·.status) = .ok .acces ∧
    writesMade ownerWorld unstableBytes (reqOf 8) ownedServer = [] ∧
    (nfsproc3Write ownerWorld unstableBytes (reqOf 8) cachedServer).1.map (·.status) = .ok .ok ∧
    writesMade ownerWorld unstableBytes (reqOf 8) cachedServer = [([1, 2], 0, 2)] ∧
    ¬ Transparent ownerWorld unstableBytes (reqOf 8) cachedServer ownedServer.fd := by
  refine ⟨by decide +kernel, by decide +kernel, by decide +kernel, by decide +kernel,
    by decide +kernel, fun h => ?_⟩
  exact absurd h.2.1 (by decide +kernel)

theorem ownerWorld_laws :
    FdLaws ownerWorld (fun _ fd _ => fd = 3) (fun _ fd _ fd' => fd = 3 ∧ fd' = 3) where
  ids _ h := h
  opens h hopens := by
    refine ⟨h, ?_⟩
    have hsys := hopens.1
    simp only [ownerWorld, fdOpenCall, Sandbox.sysCall] at hsys
    split at hsys
    · split at hsys
      · simp only [Bool.false_and, Bool.false_eq_true, if_false, Prod.mk.injEq,
          Except.ok.injEq] at hsys
        exact hsys.1.symm
      · simp at hsys
    · simp at hsys
  pwrite _ _ h := ⟨rfl, h⟩
  fsync h := ⟨rfl, h⟩
  close _ := rfl
  synced h := (Except.ok.inj h).symm

/-- The owner's own second WRITE. -/
theorem write_cached_iff_owner : MayOpen ownerWorld unstableBytes (reqOf 7) cachedServer := by
  refine (write_cached_iff ownerWorld _ _ ownerWorld_laws unstableBytes
    (reqOf 7) cachedServer ownedServer.fd 0
    (by decide +kernel) (by decide +kernel) (by decide +kernel) (by decide +kernel)
      (by decide +kernel)).1 ?_
  exact ⟨by decide +kernel, by decide +kernel, by decide +kernel⟩

end NfsRods
