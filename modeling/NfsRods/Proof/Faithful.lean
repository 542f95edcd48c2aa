import NfsRods.Proof.Errno

/-!
# Whether local failures are reported

A local call that fails leaves its error in `errno`, where the procedures look for it; some of them
talk to iRODS in between.

* `PathOp.Faithful`, `WriteFaithful`: a local failure shows in the reply as the procedure's mapping
  has it, whatever library calls leave in `errno`.
* `local_failures_iff`: when it does; `existing_not_faithful` has a MKDIR whose `EEXIST` is lost.
-/

namespace NfsRods

open CStr
open Prog (Ends Frame)

namespace PathOp

/-- The mapping of the errors of the local call. -/
def err : PathOp → Errno → Nfsstat3
  | create _ _ => createErr
  | mkdir _ _ => mkdirErr
  | remove _ => removeErr
  | rmdir _ => rmdirErr
  | rename _ _ => renameErr

/-- An exclusive CREATE does not report that the file exists before it has tried to repeat itself.
-/
def Retries (op : PathOp) (e : Errno) : Prop := ∃ args verf, op = create args (.exclusive verf) ∧
  e = .eexist

section
variable {L R : Type} (w : World L R) (rq : SvcReq) (unset : Junk) (d : CStr) (s : Server L R)

/-- Once both names are accepted the operation makes its calls: the caller can be connected, and
RENAME's target is governed by an export. -/
def Goes : PathOp → Prop
  | rename _ argsTo => Connects w rq ∧ (compatPath w argsTo rq s).isSome
  | _ => Connects w rq

/-- The `errno` with which the local call fails. -/
def localError (op : PathOp) : Option Errno := sysError w (op.localCall w rq unset d s) s.kernel

/-- What is translated is what the local call left. REMOVE and RMDIR read `errno` right after their
call; CREATE and MKDIR read it after the iRODS call; RENAME reads it right after its call, but also
when only the iRODS call before it has failed. -/
def Undisturbed (op : PathOp) : Prop :=
  match op with
  | create _ _ | mkdir _ _ => op.localError w rq unset d s = none
  | remove _ | rmdir _ => True
  | rename argsFrom argsTo => op.localError w rq unset d s = none →
      renameAnswer w rq unset d s argsFrom argsTo ≠ -1

end

section
variable {L R : Type} (w : World L R)

/-- **Local failures are reported faithfully**: whatever library calls leave in `errno`, the status
is the mapping of the error of the local call that fails, and in no case depends on what they leave.
For an exclusive CREATE that may repeat itself only the second is asked. -/
structure Faithful (rq : SvcReq) (op : PathOp) (s : Server L R) : Prop where
  mapped : ∀ d s1, prep w op.args.dir rq s = (.ok (.ok d), s1) → op.soFar w rq d s1 = .ok →
    ∀ e, op.localError w rq (w.junk s.tick) d s1 = some e → ¬ op.Retries e →
    ∀ f reply s', nfsProgram (w.leaving f) rq op.request s = (.ok reply, s') →
      reply.status = op.err e
  steady : ∀ f f' reply reply' s' s'', nfsProgram (w.leaving f) rq op.request s = (.ok reply, s') →
    nfsProgram (w.leaving f') rq op.request s = (.ok reply', s'') → reply.status = reply'.status

end

end PathOp

section
variable {L R : Type} {w : World L R} {s s' : Server L R} {e d : CStr} {rq : SvcReq}
  {unset : Junk} {op : PathOp}

/-- An operation whose names are accepted replies exactly when it goes on. -/
theorem PathOp.body_goes (unset : Junk) (h : s.exports.path = some e)
    (hst : op.soFar w rq d s = .ok) :
    (∃ reply s', op.body w rq unset d s = (.ok reply, s')) ↔ op.Goes w rq s := by
  constructor
  · rintro ⟨reply, s', hrun⟩
    cases op with
    | create args how =>
      obtain ⟨r, hbody, rfl⟩ := replyWith_ok hrun
      exact (createBody_conducted h hbody).1
    | mkdir args attributes =>
      obtain ⟨r, hbody, rfl⟩ := replyWith_ok hrun
      exact ((mkdirBody_conducted h hbody).1 hst).1
    | remove object =>
      obtain ⟨r, hbody, rfl⟩ := replyWith_ok hrun
      exact (unlinkBody_conducted (fun _ _ => rfl) h hbody).1
    | rmdir object =>
      obtain ⟨r, hbody, rfl⟩ := replyWith_ok hrun
      exact (unlinkBody_conducted (fun _ _ => rfl) h hbody).1
    | rename argsFrom argsTo =>
      obtain ⟨r, hbody, rfl⟩ := replyWith_ok hrun
      obtain ⟨hfrom, hto⟩ := join_eq_ok.1 hst
      have hpath : (compatPath w argsTo rq s).isSome := renameBody_target hbody hfrom
      exact ⟨((renameBody_conducted hbody).1 ⟨⟨hfrom, hto⟩, hpath⟩).1, hpath⟩
  · intro hgo
    cases op with
    | create args how =>
      obtain ⟨r, s', hrun, _⟩ := createBody_ends (w := w) h hgo.1 hgo.2 d args how unset
      exact ⟨_, s', replyWith_run hrun⟩
    | mkdir args attributes =>
      obtain ⟨r, s', hrun, _⟩ := mkdirBody_ends (w := w) h hgo.1 hgo.2 d args attributes unset hst
      exact ⟨_, s', replyWith_run hrun⟩
    | remove object =>
      obtain ⟨r, s', hrun, _⟩ := unlinkBody_ends (w := w) h hgo.1 hgo.2 unlinkRemove d object.name
        unset
      exact ⟨_, s', replyWith_run hrun⟩
    | rmdir object =>
      obtain ⟨r, s', hrun, _⟩ := unlinkBody_ends (w := w) h hgo.1 hgo.2 unlinkRmdir d object.name
        unset
      exact ⟨_, s', replyWith_run hrun⟩
    | rename argsFrom argsTo =>
      obtain ⟨r, s', hrun⟩ : ∃ r s', renameBody w d argsFrom argsTo rq unset s = (.ok r, s') :=
        renameBody_goes ⟨join_eq_ok.1 hst, hgo.2⟩ hgo.1
      exact ⟨_, s', replyWith_run hrun⟩

theorem PathOp.goes_leaving (f : Nat → Errno → Errno) (op : PathOp) (s : Server L R) :
    op.Goes (w.leaving f) rq s ↔ op.Goes w rq s := by
  cases op with
  | rename argsFrom argsTo =>
    rw [PathOp.Goes, PathOp.Goes, compatPath_leaving]
    exact Iff.rfl
  | _ => exact Iff.rfl

/-! ## The status and what is left in `errno` -/

namespace PathOp

variable (hk : KernelReturns w)

include hk

/-- An undisturbed operation does not look at what library calls left. -/
theorem localStatus_steady (h : op.Undisturbed w rq unset d s) (x y : Errno) :
    op.localStatus w rq unset d s x = op.localStatus w rq unset d s y := by
  cases op with
  | create args how =>
    have hok : ¬ sysResult w ((create args how).localCall w rq unset d s) s.kernel = -1 := by
      rw [hk.sysResult, show sysError w _ s.kernel = none from h]
      decide
    simp only [localStatus, finishStatus, ne_eq, hok, not_false_eq_true, if_true]
  | mkdir args attributes =>
    have hok : ¬ sysResult w ((mkdir args attributes).localCall w rq unset d s) s.kernel = -1 := by
      rw [hk.sysResult, show sysError w _ s.kernel = none from h]
      decide
    simp only [localStatus, hok, if_false]
  | remove object =>
    simp only [localStatus, hk.sysResult, sysErrno_eq]
    cases sysError w ((remove object).localCall w rq unset d s) s.kernel <;> rfl
  | rmdir object =>
    simp only [localStatus, hk.sysResult, sysErrno_eq]
    cases sysError w ((rmdir object).localCall w rq unset d s) s.kernel <;> rfl
  | rename argsFrom argsTo =>
    simp only [localStatus, hk.sysResult, sysErrno_eq]
    cases herr : sysError w ((rename argsFrom argsTo).localCall w rq unset d s) s.kernel with
    | some e => rfl
    | none => simp [h herr]

/-- It reports its local call's error. -/
theorem localStatus_mapped (h : op.Undisturbed w rq unset d s) {er : Errno}
    (he : op.localError w rq unset d s = some er) (x : Errno) :
    op.localStatus w rq unset d s x = op.err er := by
  have he' : sysError w (op.localCall w rq unset d s) s.kernel = some er := he
  cases op with
  | create args how => exact absurd (he.symm.trans h) (by simp)
  | mkdir args attributes => exact absurd (he.symm.trans h) (by simp)
  | remove object => simp [localStatus, hk.sysResult, sysErrno_eq, he', PathOp.err]
  | rmdir object => simp [localStatus, hk.sysResult, sysErrno_eq, he', PathOp.err]
  | rename argsFrom argsTo => simp [localStatus, hk.sysResult, sysErrno_eq, he', PathOp.err]

/-- Only an undisturbed operation reports the same whatever library calls leave. -/
theorem undisturbed_of_steady
    (h : ∀ x y, op.localStatus w rq unset d s x = op.localStatus w rq unset d s y) :
    op.Undisturbed w rq unset d s := by
  have hxy := h .eacces .eio
  cases op with
  | create args how =>
    refine Option.eq_none_iff_forall_not_mem.2 fun er he => ?_
    have hfail : sysResult w ((create args how).localCall w rq unset d s) s.kernel = -1 := by
      rw [hk.sysResult, show sysError w _ s.kernel = some er from he]
      rfl
    simp only [localStatus, hfail] at hxy
    cases how <;> simp [finishStatus, createErr, isStale] at hxy
  | mkdir args attributes =>
    refine Option.eq_none_iff_forall_not_mem.2 fun er he => ?_
    have he' : sysError w ((mkdir args attributes).localCall w rq unset d s) s.kernel = some er :=
      he
    simp [localStatus, hk.sysResult, he', mkdirErr, symlinkErr, isStale] at hxy
  | remove object => trivial
  | rmdir object => trivial
  | rename argsFrom argsTo =>
    intro he hanswer
    have he' : sysError w ((rename argsFrom argsTo).localCall w rq unset d s) s.kernel = none := he
    simp [localStatus, hk.sysResult, sysErrno_eq, he', hanswer, renameErr] at hxy

end PathOp

/-! ## The request -/

namespace PathOp

/-- What `PREP` lets in is the body, whatever library calls leave. -/
theorem request_run {s1 : Server L R} (hp : prep w op.args.dir rq s = (.ok (.ok d), s1))
    (f : Nat → Errno → Errno) : nfsProgram (w.leaving f) rq op.request s =
      op.body (w.leaving f) rq (w.junk s.tick) d s1 :=
  request_body (w := w.leaving f) (by rw [prep_leaving, hp])

theorem request_refused {st : Nfsstat3} {s1 : Server L R}
    (hp : prep w op.args.dir rq s = (.ok (.error st), s1)) (f : Nat → Errno → Errno) :
    nfsProgram (w.leaving f) rq op.request s = (.ok (op.refusal st), s1) := by
  rcases op.run_cases (w := w.leaving f) rq s with
    ⟨_, _, hp', _⟩ | ⟨st', t, hp', h⟩ | ⟨_, _, hp', _⟩
  all_goals rw [prep_leaving, hp] at hp'
  · cases hp'
  · obtain ⟨⟨⟨⟩⟩, rfl⟩ := Prod.mk.inj hp'
    exact h
  · cases hp'

theorem request_status {s1 : Server L R} (hp : prep w op.args.dir rq s = (.ok (.ok d), s1))
    {f : Nat → Errno → Errno} {reply : NfsReply}
    (hrun : nfsProgram (w.leaving f) rq op.request s = (.ok reply, s')) :
    (op.soFar w rq d s1 = .ok → op.Goes w rq s1) ∧
      ∃ x, LeftBy (w.leaving f) x ∧
        reply.status = op.statusWith w rq (w.junk s.tick) d s1 x := by
  obtain ⟨e, he⟩ := prep_path hp
  rw [request_run hp] at hrun
  constructor
  · intro hst
    rw [← goes_leaving f]
    exact (body_goes _ he (by rw [soFar_leaving]; exact hst)).1 ⟨reply, s', hrun⟩
  · obtain ⟨x, hx, hreply⟩ := body_status he hrun
    exact ⟨x, hx, by rw [hreply, statusWith_leaving]⟩

/-- A request that goes on replies with any value left in `errno`. -/
theorem request_replies {s1 : Server L R} (hp : prep w op.args.dir rq s = (.ok (.ok d), s1))
    (hst : op.soFar w rq d s1 = .ok) (hgo : op.Goes w rq s1) (x : Errno) :
    ∃ reply s', nfsProgram (w.leaving fun _ _ => x) rq op.request s = (.ok reply, s') ∧
      reply.status = op.localStatus w rq (w.junk s.tick) d s1 x := by
  obtain ⟨e, he⟩ := prep_path hp
  obtain ⟨reply, s', hbody⟩ := (body_goes (w := w.leaving fun _ _ => x) (w.junk s.tick) he
    (by rw [soFar_leaving]; exact hst)).2 ((goes_leaving _ _ _).2 hgo)
  have hrun := (request_run hp fun _ _ => x).trans hbody
  obtain ⟨-, y, hy, hreply⟩ := request_status hp hrun
  obtain rfl := leftBy_leaving hy
  exact ⟨reply, s', hrun, hreply.trans (if_pos hst)⟩

/-- **Local failures are reported faithfully** exactly when nothing disturbs what is translated. -/
theorem faithful_iff (hk : KernelReturns w) (rq : SvcReq) (op : PathOp) (s : Server L R) :
    op.Faithful w rq s ↔ ∀ d s1, prep w op.args.dir rq s = (.ok (.ok d), s1) →
      op.soFar w rq d s1 = .ok → op.Goes w rq s1 →
        op.Undisturbed w rq (w.junk s.tick) d s1 := by
  constructor
  · intro h d s1 hp hst hgo
    refine undisturbed_of_steady hk fun x y => ?_
    obtain ⟨reply, s', hrun, hreply⟩ := request_replies hp hst hgo x
    obtain ⟨reply', s'', hrun', hreply'⟩ := request_replies hp hst hgo y
    rw [← hreply, ← hreply']
    exact h.steady _ _ _ _ _ _ hrun hrun'
  · intro h
    refine ⟨fun d s1 hp hst er he _ f reply s' hrun => ?_,
      fun f f' reply reply' s' s'' hrun hrun' => ?_⟩
    · obtain ⟨hgo, x, -, hreply⟩ := request_status hp hrun
      rw [hreply, statusWith, if_pos hst]
      exact localStatus_mapped hk (h d s1 hp hst (hgo hst)) he x
    · rcases op.run_cases (w := w.leaving f) rq s with
        ⟨d, s1, hp, -⟩ | ⟨st, s1, hp, hf⟩ | ⟨st, s1, hp, hf⟩
      all_goals rw [prep_leaving] at hp
      · obtain ⟨hgo, x, -, hreply⟩ := request_status hp hrun
        obtain ⟨-, y, -, hreply'⟩ := request_status hp hrun'
        rw [hreply, hreply', statusWith, statusWith]
        split
        · exact localStatus_steady hk (h d s1 hp ‹_› (hgo ‹_›)) x y
        · rfl
      · rw [request_refused hp] at hrun hrun'
        cases hrun
        cases hrun'
        rfl
      · rw [hf] at hrun
        cases hrun

end PathOp

end

/-! ## WRITE -/

section
variable {L R : Type} (w : World L R)

/-- **Local failures of a WRITE are reported faithfully**: the error of `fd_open`, and every error
of the `pwrite` and of the calls of `fd_close`. -/
structure WriteFaithful (rq : SvcReq) (args : Write3args) (s : Server L R) : Prop where
  opened : ∀ d s1, prep w args.file rq s = (.ok (.ok d), s1) →
    join (isReg s1) (exportsRw s1.exports) = .ok → ∀ e, writeOpened w rq d args s1 = .error e →
    ∀ f reply s', nfsProgram (w.leaving f) rq (.write args) s = (.ok reply, s') →
      reply.status = writeOpenErr e
  written : ∀ d s1, prep w args.file rq s = (.ok (.ok d), s1) →
    join (isReg s1) (exportsRw s1.exports) = .ok →
    ∀ fd k c, writeOpened w rq d args s1 = .ok (fd, k, c) → ∀ e ∈ writeErrors w args fd k c,
    ∀ f reply s', nfsProgram (w.leaving f) rq (.write args) s = (.ok reply, s') →
      reply.status = writeWriteErr e
  steady : ∀ f f' reply reply' s' s'',
    nfsProgram (w.leaving f) rq (.write args) s = (.ok reply, s') →
    nfsProgram (w.leaving f') rq (.write args) s = (.ok reply', s'') → reply.status = reply'.status

/-- A failed `pwrite` is followed by a failure of `fd_close`, and no two of the errors are mapped
to different statuses. -/
def WriteUndisturbed (args : Write3args) (fd : Int) (k : L) (c : FdCache) : Prop :=
  ((sysError w (.pwrite fd args.data args.offset) k).isSome →
    closeErrors w fd (args.stable ≠ .unstable)
      (w.sys (.pwrite fd args.data args.offset) k).2 c ≠ []) ∧
  ∀ e ∈ writeErrors w args fd k c, ∀ e' ∈ writeErrors w args fd k c,
    writeWriteErr e = writeWriteErr e'

end

section
variable {L R : Type} {w : World L R} {s s' : Server L R} {d : CStr} {rq : SvcReq}
  {args : Write3args}

theorem WriteUndisturbed.closes {fd : Int} {k : L} {c : FdCache}
    (h : WriteUndisturbed w args fd k c) (hne : writeErrors w args fd k c ≠ []) :
    closeErrors w fd (args.stable ≠ .unstable)
      (w.sys (.pwrite fd args.data args.offset) k).2 c ≠ [] := by
  intro hnil
  refine hne ?_
  have hp : sysError w (.pwrite fd args.data args.offset) k = none := by
    rw [← Option.not_isSome_iff_eq_none]
    exact fun hp => h.1 hp hnil
  rw [writeErrors, hp, hnil]
  rfl

/-- Then the last error is reported, and so is every other. -/
theorem WriteUndisturbed.mapped {fd : Int} {k : L} {c : FdCache}
    (h : WriteUndisturbed w args fd k c) {e : Errno} (he : e ∈ writeErrors w args fd k c)
    (x : Errno) : writtenStatus w args fd k c x = writeWriteErr e := by
  have hne : writeErrors w args fd k c ≠ [] := List.ne_nil_of_mem he
  have hclose := h.closes hne
  rw [writtenStatus, if_neg hne, List.getLastD_eq_getLast?, List.getLast?_eq_some_getLast hclose,
    Option.getD_some]
  exact h.2 _ (List.mem_append_right _ (List.getLast_mem hclose)) _ he

theorem WriteUndisturbed.steady {fd : Int} {k : L} {c : FdCache}
    (h : WriteUndisturbed w args fd k c) (x y : Errno) :
    writtenStatus w args fd k c x = writtenStatus w args fd k c y := by
  by_cases hne : writeErrors w args fd k c = []
  · rw [writtenStatus, writtenStatus, if_pos hne, if_pos hne]
  · obtain ⟨e, he⟩ := List.exists_mem_of_ne_nil _ hne
    rw [h.mapped he, h.mapped he]

/-- A WRITE is refused, stops in `PREP`, or runs its body. -/
theorem write_run_cases (args : Write3args) (rq : SvcReq) (s : Server L R) :
    (∃ d s1, prep w args.file rq s = (.ok (.ok d), s1) ∧ ∀ f,
      nfsProgram (w.leaving f) rq (.write args) s =
        replyWith .write (writeBody (w.leaving f) d args rq) s1) ∨
    (∃ st s1, prep w args.file rq s = (.ok (.error st), s1) ∧ ∀ f,
      nfsProgram (w.leaving f) rq (.write args) s = (.ok (.write { status := st }), s1)) ∨
    ∃ st s1, prep w args.file rq s = (.error st, s1) ∧ ∀ f,
      nfsProgram (w.leaving f) rq (.write args) s = (.error st, s1) := by
  have hprep : ∀ f, prep (w.leaving f) args.file rq s = prep w args.file rq s := fun f => by
    rw [prep_leaving]
  rcases hp : prep w args.file rq s with ⟨st | st | d, s1⟩
  · refine .inr (.inr ⟨st, s1, rfl, fun f => ?_⟩)
    exact Prog.bind_error (Prog.bind_error ((hprep f).trans hp))
  · refine .inr (.inl ⟨st, s1, rfl, fun f => ?_⟩)
    exact Prog.bind_ok (Prog.bind_ok ((hprep f).trans hp))
  · refine .inl ⟨d, s1, rfl, fun f => ?_⟩
    show replyWith .write (withPrep (w.leaving f) args.file rq _ _) s = _
    rw [replyWith, replyWith, Prog.bind_run, withPrep, Prog.bind_ok ((hprep f).trans hp)]
    rfl

/-- The body of a WRITE that replies. -/
theorem write_status (hk : KernelReturns w) {s1 : Server L R} {f : Nat → Errno → Errno}
    {reply : NfsReply} (hp : prep w args.file rq s = (.ok (.ok d), s1))
    (hrun : nfsProgram (w.leaving f) rq (.write args) s = (.ok reply, s')) :
    (join (isReg s1) (exportsRw s1.exports) = .ok → ∀ x, writeOpened w rq d args s1 = .ok x →
      Connects w rq) ∧
      ∃ x, LeftBy (w.leaving f) x ∧ reply.status = writeStatusWith w rq d args s1 x := by
  obtain ⟨e, he⟩ := prep_path hp
  rcases write_run_cases (w := w) args rq s with
    ⟨d', t, hp', h⟩ | ⟨_, _, hp', _⟩ | ⟨_, _, hp', _⟩
  all_goals rw [hp] at hp'
  · obtain ⟨⟨⟨⟩⟩, rfl⟩ := Prod.mk.inj hp'
    rw [h f] at hrun
    obtain ⟨r, hbody, rfl⟩ := replyWith_ok hrun
    obtain ⟨x, hx, hr⟩ := writeBody_status (hk.leaving f) he hbody
    refine ⟨fun hst opened hopen => ?_, x, hx, hr⟩
    exact writeBody_connects (w := w.leaving f) (hk.leaving f) he hbody hst hopen
  · cases hp'
  · cases hp'

theorem write_replies (hk : KernelReturns w) {s1 : Server L R}
    (hp : prep w args.file rq s = (.ok (.ok d), s1)) (hc : Connects w rq) (x : Errno) :
    ∃ reply s', nfsProgram (w.leaving fun _ _ => x) rq (.write args) s = (.ok reply, s') ∧
      reply.status = writeStatusWith w rq d args s1 x := by
  obtain ⟨e, he⟩ := prep_path hp
  rcases write_run_cases (w := w) args rq s with
    ⟨d', t, hp', h⟩ | ⟨_, _, hp', _⟩ | ⟨_, _, hp', _⟩
  all_goals rw [hp] at hp'
  · obtain ⟨⟨⟨⟩⟩, rfl⟩ := Prod.mk.inj hp'
    obtain ⟨r, s', hbody⟩ := goes_of_stuck
      (writeBody_inOrder (w := w.leaving fun _ _ => x) d args rq)
      (writeBody_frame (E := fun _ => True) (by simp) (by simp) (by simp) _ _ _) he hc
    have hrun := (h fun _ _ => x).trans (replyWith_run hbody)
    obtain ⟨-, y, hy, hreply⟩ := write_status hk hp hrun
    obtain rfl := leftBy_leaving hy
    exact ⟨_, s', hrun, hreply⟩
  · cases hp'
  · cases hp'

/-- **WRITE reports its local failures** exactly when a failed `pwrite` is followed by a failure of
`fd_close` and all its errors are mapped alike. -/
theorem writeFaithful_iff (hk : KernelReturns w) (rq : SvcReq) (args : Write3args)
    (s : Server L R) :
    WriteFaithful w rq args s ↔ ∀ d s1, prep w args.file rq s = (.ok (.ok d), s1) →
      join (isReg s1) (exportsRw s1.exports) = .ok → ∀ fd k c,
      writeOpened w rq d args s1 = .ok (fd, k, c) → Connects w rq →
        WriteUndisturbed w args fd k c := by
  constructor
  · intro h d s1 hp hst fd k c hopen hc
    have hstatus : ∀ x, writeStatusWith w rq d args s1 x = writtenStatus w args fd k c x :=
      fun x => by rw [writeStatusWith, if_pos hst, hopen]
    constructor
    · intro hpwrite hnil
      have hne : writeErrors w args fd k c ≠ [] := by
        intro herrs
        rw [writeErrors, List.append_eq_nil_iff, Option.toList_eq_nil_iff] at herrs
        rw [herrs.1] at hpwrite
        cases hpwrite
      obtain ⟨reply, s', hrun, hreply⟩ := write_replies hk hp hc .einval
      obtain ⟨reply', s'', hrun', hreply'⟩ := write_replies hk hp hc .eio
      have hsame := h.steady _ _ _ _ _ _ hrun hrun'
      rw [hreply, hreply', hstatus, hstatus, writtenStatus, writtenStatus, if_neg hne, if_neg hne,
        hnil] at hsame
      exact absurd hsame (by decide)
    · intro e he e' he'
      obtain ⟨reply, s', hrun, -⟩ := write_replies hk hp hc .eio
      rw [← h.written d s1 hp hst fd k c hopen e he _ _ _ hrun,
        h.written d s1 hp hst fd k c hopen e' he' _ _ _ hrun]
  · intro h
    refine ⟨fun d s1 hp hst e hopen f reply s' hrun => ?_,
      fun d s1 hp hst fd k c hopen e he f reply s' hrun => ?_,
      fun f f' reply reply' s' s'' hrun hrun' => ?_⟩
    · obtain ⟨-, x, -, hreply⟩ := write_status hk hp hrun
      rw [hreply, writeStatusWith, if_pos hst, hopen]
    · obtain ⟨hc, x, -, hreply⟩ := write_status hk hp hrun
      rw [hreply, writeStatusWith, if_pos hst, hopen]
      exact (h d s1 hp hst fd k c hopen (hc hst _ hopen)).mapped he x
    · rcases write_run_cases (w := w) args rq s with
        ⟨d, s1, hp, -⟩ | ⟨st, s1, -, hf⟩ | ⟨st, s1, -, hf⟩
      · obtain ⟨hc, x, -, hreply⟩ := write_status hk hp hrun
        obtain ⟨-, y, -, hreply'⟩ := write_status hk hp hrun'
        rw [hreply, hreply', writeStatusWith, writeStatusWith]
        split
        · rename_i hst
          cases hopen : writeOpened w rq d args s1 with
          | error e => rfl
          | ok opened =>
            obtain ⟨fd, k, c⟩ := opened
            exact (h d s1 hp hst fd k c hopen (hc hst _ hopen)).steady x y
        · rfl
      · rw [hf] at hrun hrun'
        cases hrun
        cases hrun'
        rfl
      · rw [hf] at hrun
        cases hrun

/-- **Local failures are reported faithfully** by REMOVE and RMDIR, by CREATE and MKDIR when their
local call does not fail, by RENAME unless only its iRODS call fails, and by WRITE unless a failed
`pwrite` is the last failure or two failures are mapped differently. -/
theorem local_failures_iff {L R : Type} (w : World L R) (hk : KernelReturns w) (rq : SvcReq)
    (s : Server L R) :
    (∀ op : PathOp, op.Faithful w rq s ↔ ∀ d s1, prep w op.args.dir rq s = (.ok (.ok d), s1) →
      op.soFar w rq d s1 = .ok → op.Goes w rq s1 →
        op.Undisturbed w rq (w.junk s.tick) d s1) ∧
    ∀ args, WriteFaithful w rq args s ↔ ∀ d s1, prep w args.file rq s = (.ok (.ok d), s1) →
      join (isReg s1) (exportsRw s1.exports) = .ok → ∀ fd k c,
      writeOpened w rq d args s1 = .ok (fd, k, c) → Connects w rq →
        WriteUndisturbed w args fd k c :=
  ⟨fun op => op.faithful_iff hk rq s, fun args => writeFaithful_iff hk rq args s⟩

end

/-! ## A REMOVE and a MKDIR in the small world -/

theorem publicWorld_returns : KernelReturns Sandbox.publicWorld := by
  constructor
  · intro c k v h
    change (Sandbox.sysCall c k).1 = .ok v at h
    cases c
    all_goals simp only [Sandbox.sysCall, Sandbox.removeDir] at h
    all_goals repeat' split at h
    all_goals first | cases h; decide | cases h
  · intro k fd v h
    change (Sandbox.sysCall (.fsync fd) k).1 = .ok v at h
    cases h
    rfl

/-- REMOVE reports the file that is not there. -/
theorem missing_faithful : missingOp.Faithful Sandbox.publicWorld missingReq missingServer :=
  ((local_failures_iff Sandbox.publicWorld publicWorld_returns missingReq missingServer).1
    missingOp).2 fun _ _ _ _ _ => trivial

/-- MKDIR of a directory that exists. -/
def existingOp : PathOp :=
  .mkdir { dir := Sandbox.handle (Sandbox.item (lit "/e") true), name := lit "d" } {}

def existingServer : Server Sandbox.Kernel Sandbox.Grid :=
  Sandbox.server [Sandbox.item (lit "/e") true] { files := [(lit "/e/d", { mode := 0o040755 })] } {}

/-- `mkdir` fails with `EEXIST`; after an iRODS call that leaves `EIO` the reply is `NFS3ERR_IO`. -/
theorem existing_not_faithful :
    ¬ existingOp.Faithful Sandbox.publicWorld missingReq existingServer := by
  intro h
  have hrun : (nfsProgram (Sandbox.publicWorld.leaving fun _ _ => .eio) missingReq
      existingOp.request existingServer).1.toOption.map NfsReply.status = some .io := by
    decide +kernel
  have hfail : (match prep Sandbox.publicWorld existingOp.args.dir missingReq existingServer with
      | (.ok (.ok d), s1) => decide (existingOp.soFar Sandbox.publicWorld missingReq d s1 = .ok ∧
        existingOp.localError Sandbox.publicWorld missingReq
          (Sandbox.publicWorld.junk existingServer.tick) d s1 = some .eexist)
      | _ => false) = true := by decide +kernel
  obtain ⟨reply, hreply, hst⟩ := Sandbox.replied hrun
  rcases hp : prep Sandbox.publicWorld existingOp.args.dir missingReq existingServer with
    ⟨st | st | d, s1⟩
  · rw [hp] at hfail
    cases hfail
  · rw [hp] at hfail
    cases hfail
  · rw [hp] at hfail
    have hfail := of_decide_eq_true hfail
    have hmapped := h.mapped d s1 hp hfail.1 .eexist hfail.2 (by simp [PathOp.Retries, existingOp])
      (fun _ _ => .eio) reply _ (Prod.ext hreply rfl)
    rw [hst] at hmapped
    exact absurd hmapped (by decide)

end NfsRods
