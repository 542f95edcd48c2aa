import NfsRods.Proof.FdInv

/-!
# Pending write errors

When `fsync` or `close` fails while a descriptor is closed behind the clients' backs, its entry
stays in the table without a descriptor, until the error is told to a client or thrown away. Either
way the write verifier is made anew.

* `FdStep.keeps`: a step leaves a pending entry as it is, or makes the verifier anew.
* `pending_errors`: what becomes of an error in every run; `idle_error_dropped` has an error that is
  thrown away by the call that meets it, since the descriptor was idle for longer than errors are
  kept.
-/

namespace NfsRods

section
variable {L R : Type} {w : World L R} {s s' s'' : Server L R} {i : Nat}

theorem FdOpened.verf {path : CStr} {ufh : Unfs3Fh} {kind : FdKind} {caching : Bool} {fd : Int}
    (h : FdOpened w path ufh kind caching s fd s') : Verf w s s' := by
  cases h with
  | pending _ _ hdel => exact hdel.verf
  | cached => exact refl_of (Verf w) s
  | refused _ hside => exact hside.verf
  | raced _ _ hside => exact hside.verf
  | opened _ _ hside => exact hside.verf (w := w)

theorem FdClosed.verf {kind : FdKind} {really : Bool} {fd r : Int}
    (h : FdClosed w fd kind really s r s') :
    Verf w s s' := by
  cases h with
  | stays => exact .inl ⟨rfl, rfl⟩
  | deleted _ _ _ hdel => exact hdel.verf
  | lone _ hside => exact hside.verf

/-- Entry `i` is as it was, or the verifier was made anew. -/
def KeepsEntry (w : World L R) (i : Nat) (s s' : Server L R) : Prop :=
  s'.fd.entry i = s.fd.entry i ∨ Regenerated w s s'

theorem Deleted.keeps {j : Nat} {keep : Bool} (h : Deleted w j keep s s')
    (hfd : (s.fd.entry i).fd = -1) :
    KeepsEntry w i s s' := by
  by_cases hij : i = j
  · subst hij
    have hopen : (s.fd.entry i).isOpen = false := by simp [FdEntry.isOpen, hfd]
    cases keep with
    | true =>
      refine .inl ?_
      rw [h.kept (.inl hopen) rfl, FdCache.shut, hopen]
      rfl
    | false => exact .inr (h.told (.inl hopen) rfl)
  · exact .inl (h.other hij)

theorem Sweep.keeps {P : Nat → Bool → Prop} {cs : List (SysCall × Int)} (h : Sweep w P cs s s')
    (hfd : (s.fd.entry i).fd = -1) : KeepsEntry w i s s' := by
  induction h with
  | done s => exact .inl rfl
  | del _ hdel hsweep ih =>
    rcases hdel.keeps hfd with hsame | hreg
    · rcases ih (by rw [hsame, hfd]) with hsame' | hreg
      · exact .inl (hsame'.trans hsame)
      · exact .inr (hdel.verf.then hreg)
    · exact .inr (hreg.then hsweep.verf)

theorem FdOpened.keeps {path : CStr} {ufh : Unfs3Fh} {kind : FdKind} {caching : Bool} {fd : Int}
    (h : FdOpened w path ufh kind caching s fd s') (hpending : (s.fd.entry i).pending = true) :
    KeepsEntry w i s s' := by
  simp only [FdEntry.pending, Bool.and_eq_true, bne_iff_ne, beq_iff_eq] at hpending
  cases h with
  | pending _ _ hdel => exact hdel.keeps hpending.2
  | cached => exact .inl rfl
  | refused _ hside =>
    rw [hside]
    exact .inl rfl
  | raced _ _ hside =>
    rw [hside]
    exact .inl rfl
  | opened =>
    refine .inl ?_
    dsimp only
    split
    · rw [FdCache.add]
      cases hunused : s.fd.unused with
      | none => rfl
      | some j =>
        -- the entry that is given away is another one: it was unused
        have hj := (FdCache.unused_eq_some hunused).2
        dsimp only
        rw [FdCache.entry_put, if_neg]
        rintro rfl
        exact hpending.1 hj
    · rfl

theorem FdClosed.keeps {kind : FdKind} {really : Bool} {fd r : Int}
    (h : FdClosed w fd kind really s r s')
    (hfd : fd ≠ -1) (hpending : (s.fd.entry i).fd = -1) : KeepsEntry w i s s' := by
  have hne : ∀ idx, s.fd.idxByFd fd kind = some idx → i ≠ idx := by
    rintro idx hidx rfl
    exact hfd ((FdCache.idxByFd_eq_some hidx).2.1.symm.trans hpending)
  cases h with
  | stays hidx =>
    refine .inl ?_
    rw [FdCache.entry_touch, if_neg (hne _ hidx)]
  | deleted hidx _ _ hdel =>
    refine .inl ?_
    rw [hdel.other (hne _ hidx), FdCache.entry_touch, if_neg (hne _ hidx)]
  | lone _ hside =>
    rw [hside]
    exact .inl rfl

/-- A step leaves a pending entry as it is, or makes the verifier anew. -/
theorem FdStep.keeps {op : FdOp L} {cs : List (SysCall × Int)} (hs : FdStep w op cs s s')
    (hpending : (s.fd.entry i).pending = true) : KeepsEntry w i s s' := by
  have hfd : (s.fd.entry i).fd = -1 := by
    simp only [FdEntry.pending, Bool.and_eq_true, beq_iff_eq] at hpending
    exact hpending.2
  cases hs with
  | outside s k => exact .inl rfl
  | @refused path nfh kind caching _ _ _ _ hrun =>
    obtain ⟨fd, s1, hrun', hopened⟩ := fdOpen_run (w := w) path nfh kind caching s
    obtain ⟨-, rfl⟩ := Prod.mk.inj (hrun.symm.trans hrun')
    exact hopened.keeps hpending
  | @access path nfh kind caching really k fd r _ s1 _ hrun hne hclose =>
    obtain ⟨fd', s1', hrun', hopened⟩ := fdOpen_run (w := w) path nfh kind caching s
    obtain ⟨hfd', rfl⟩ := Prod.mk.inj (hrun.symm.trans hrun')
    cases hfd'
    obtain ⟨r', s2, hclose', hclosed⟩ := fdClose_run (w := w) fd kind really { s1 with kernel := k }
    obtain ⟨-, rfl⟩ := Prod.mk.inj (hclose.symm.trans hclose')
    have hverf : Verf w s1 s' := hclosed.verf
    rcases hopened.keeps hpending with hsame | hreg
    · rcases hclosed.keeps hne (i := i) (by rw [hsame, hfd]) with hsame' | hreg
      · exact .inl (hsame'.trans hsame)
      · exact .inr (hopened.verf.then hreg)
    · exact .inr (hreg.then hverf)
  | @sync nfh r _ _ hrun =>
    obtain ⟨r', s1, hrun', hcases⟩ := fdSync_run (w := w) nfh s
    obtain ⟨-, rfl⟩ := Prod.mk.inj (hrun.symm.trans hrun')
    rcases hcases with ⟨-, -, rfl⟩ | ⟨idx, -, -, hdel⟩
    · exact .inl rfl
    · exact hdel.keeps hfd
  | purge hrun =>
    obtain ⟨cs, s1, hrun', hsweep⟩ := fdCachePurge_run (w := w) s
    obtain ⟨-, rfl⟩ := Prod.mk.inj (hrun.symm.trans hrun')
    exact hsweep.keeps hfd
  | closeInactive hrun =>
    obtain ⟨cs, s1, -, hsweep, hend⟩ := fdCacheCloseInactive_run (w := w) s
    rcases hend with hend | ⟨-, cs', s2, hsweep', hend⟩
    · obtain ⟨-, rfl⟩ := Prod.mk.inj (hrun.symm.trans hend)
      exact hsweep.keeps hfd
    · obtain ⟨-, rfl⟩ := Prod.mk.inj (hrun.symm.trans hend)
      exact .inr ((hsweep.verf.trans hsweep'.verf).then (regenerate_regenerated s2))

end

/-! ## Where errors come from -/

section
variable {L R : Type} {w : World L R} {s s' : Server L R} {i : Nat}

theorem range_split (hi : i < fdEntries) :
    ∃ rest, List.range fdEntries = List.range i ++ i :: rest ∧ i ∉ rest := by
  obtain ⟨m, hm⟩ := Nat.exists_eq_add_of_lt hi
  refine ⟨(List.range m).map fun j => i + (j + 1), ?_, ?_⟩
  · rw [hm, Nat.add_assoc, List.range_add, List.range_succ_eq_map, List.map_cons, List.map_map]
    rfl
  · intro hmem
    obtain ⟨j, -, hj⟩ := List.mem_map.1 hmem
    omega

/-- A loop over the table reaches entry `i` as it was at the start, and leaves it as its turn has
left it. -/
theorem forEach_at (body : Nat → M L R Unit) (hi : i < fdEntries)
    (hsweep : ∀ (is : List Nat) (s : Server L R),
      ∃ cs s', Prog.forEach body is s = (.ok (), s') ∧ Sweep w (Keeping is) cs s s')
    (hrun : Prog.forEach body (List.range fdEntries) s = (.ok (), s')) :
    ∃ t, (Prog.forEach body (List.range i) s).2 = t ∧ t.fd.entry i = s.fd.entry i ∧
      ∀ t', body i t = (.ok (), t') → s'.fd.entry i = t'.fd.entry i := by
  obtain ⟨rest, hsplit, hrest⟩ := range_split hi
  obtain ⟨_, t, hbefore, hs1⟩ := hsweep (List.range i) s
  refine ⟨t, by rw [hbefore], hs1.other fun _ h => ?_, fun t' hturn => ?_⟩
  · exact absurd (List.mem_range.1 h.1) (lt_irrefl i)
  · obtain ⟨_, s2, hafter, hs2⟩ := hsweep rest t'
    rw [hsplit, Prog.forEach_append, Prog.bind_ok hbefore, Prog.forEach, Prog.bind_ok hturn,
      hafter] at hrun
    obtain ⟨-, rfl⟩ := Prod.mk.inj hrun
    exact hs2.other fun _ h => hrest h.1

/-- Closing the entry fails, and the error is kept. -/
theorem Deleted.pending (h : Deleted w i true s s')
    (hfail : CloseFails w (s.fd.entry i).fd (s.fd.entry i).kind s.kernel) :
    s'.fd.entry i = { s.fd.entry i with fd := -1 } := by
  rw [h.kept (.inr hfail) rfl, FdCache.entry_shut, if_pos rfl]

end

section
variable {L R : Type} (w : World L R)

/-- The state in which `fd_cache_purge` comes to entry `i`. -/
def purgeAt (i : Nat) (s : Server L R) : Server L R :=
    (Prog.forEach (purgeBody w) (List.range i) s).2

/-- The state in which `fd_cache_close_inactive` comes to entry `i`. -/
def idleAt (i : Nat) (s : Server L R) : Server L R :=
  (Prog.forEach (idleBody w (w.time s.kernel)) (List.range i) s).2

/-- What becomes of errors in state `s`. -/
structure ErrorsKept (s : Server L R) : Prop where
  /-- A write descriptor that `fd_cache_purge` cannot close leaves its entry with a pending error.
  -/
  purged : ∀ i < fdEntries, (s.fd.entry i).isOpen = true → (s.fd.entry i).kind = .write →
    CloseFails w (s.fd.entry i).fd .write (purgeAt w i s).kernel →
      ∀ s', fdCachePurge w s = (.ok (), s') →
    (s.fd.entry i).use ≠ 0 ∧ s'.fd.entry i = { s.fd.entry i with fd := -1 }
  /-- So does one that `fd_cache_close_inactive` cannot close, unless it was idle for as long as
  errors are kept and all errors are thrown away by that call. -/
  closed : ∀ i < fdEntries, (s.fd.entry i).isOpen = true → (s.fd.entry i).kind = .write →
    (s.fd.entry i).use + inactiveTimeout < w.time s.kernel →
    CloseFails w (s.fd.entry i).fd .write (idleAt w i s).kernel →
      ∀ s', fdCacheCloseInactive w s = (.ok (), s') →
    ((s.fd.entry i).use ≠ 0 ∧ s'.fd.entry i = { s.fd.entry i with fd := -1 }) ∨
      ((s.fd.entry i).use + pendingErrorTimeout ≤ w.time s.kernel ∧ Regenerated w s s')
  /-- A pending error is told to the next who opens the file for writing or syncs it. -/
  told : ∀ i < fdEntries, (s.fd.entry i).pending = true →
    ∀ nfh : NfsFh3, (s.fd.entry i).key = nfh.obj.key .write →
    (∀ path caching, (fdOpen w path nfh .write caching s).1 = .ok (-1)) ∧
      (fdSync w nfh s).1 = .ok (-1)
  /-- Until the verifier is made anew it stays as it is. -/
  stays : ∀ i < fdEntries, (s.fd.entry i).pending = true → ∀ op cs s', FdStep w op cs s s' →
    s'.fd.entry i = s.fd.entry i ∨ Regenerated w s s'

end

section
variable {L R : Type} {w : World L R} {s s' : Server L R} {i : Nat}

theorem FdTable.purged (h : FdTable s.fd) (hi : i < fdEntries)
    (hopen : (s.fd.entry i).isOpen = true)
    (hfail : CloseFails w (s.fd.entry i).fd (s.fd.entry i).kind (purgeAt w i s).kernel)
    (hrun : fdCachePurge w s = (.ok (), s')) :
    (s.fd.entry i).use ≠ 0 ∧ s'.fd.entry i = { s.fd.entry i with fd := -1 } := by
  have huse := h.use hi (by simpa [FdEntry.isOpen] using hopen)
  refine ⟨huse, ?_⟩
  obtain ⟨t, ht, hent, hend⟩ := forEach_at (purgeBody w) hi purge_sweep hrun
  obtain ⟨t', hturn, ⟨hzero, -⟩ | ⟨-, hdel⟩⟩ := purgeBody_run (w := w) i t
  · rw [hent] at hzero
    exact absurd hzero huse
  · rw [hend t' hturn, hdel.pending, hent]
    rw [hent, ← ht]
    exact hfail

theorem FdTable.idled (h : FdTable s.fd) (hi : i < fdEntries) (hopen : (s.fd.entry i).isOpen = true)
    (hidle : (s.fd.entry i).use + inactiveTimeout < w.time s.kernel)
    (hfail : CloseFails w (s.fd.entry i).fd (s.fd.entry i).kind (idleAt w i s).kernel)
    (hrun : fdCacheCloseInactive w s = (.ok (), s')) :
    ((s.fd.entry i).use ≠ 0 ∧ s'.fd.entry i = { s.fd.entry i with fd := -1 }) ∨
      ((s.fd.entry i).use + pendingErrorTimeout ≤ w.time s.kernel ∧ Regenerated w s s') := by
  have hfd : (s.fd.entry i).fd ≠ -1 := by simpa [FdEntry.isOpen] using hopen
  have huse := h.use hi hfd
  obtain ⟨_, s1, hloop, hsweep, hend⟩ := fdCacheCloseInactive_run (w := w) s
  have hpending : s1.fd.entry i = { s.fd.entry i with fd := -1 } := by
    obtain ⟨t, ht, hent, hat⟩ := forEach_at (idleBody w (w.time s.kernel)) hi (idle_sweep _) hloop
    obtain ⟨t', hturn, ⟨hno, -⟩ | ⟨-, hdel⟩⟩ := idleBody_run (w := w) (w.time s.kernel) i t
    · rw [hent] at hno
      exact absurd ⟨huse, hfd, hidle⟩ hno
    · rw [hat t' hturn, hdel.pending, hent]
      rw [hent, ← ht]
      exact hfail
  rcases hend with hend | ⟨hold, _, s2, hsweep', hend⟩
  · obtain ⟨-, rfl⟩ := Prod.mk.inj (hrun.symm.trans hend)
    exact .inl ⟨huse, hpending⟩
  · obtain ⟨-, rfl⟩ := Prod.mk.inj (hrun.symm.trans hend)
    -- the error is among those that are thrown away, so it is old
    have hmem : i ∈ s1.fd.errors := by
      rw [FdCache.errors, List.mem_filter, hpending]
      simp [hi, FdEntry.pending, huse]
    have hage := hold i hmem
    rw [hpending] at hage
    exact .inr ⟨hage, (hsweep.verf.trans hsweep'.verf).then (regenerate_regenerated s2)⟩

theorem FdTable.told (h : FdTable s.fd) (hi : i < fdEntries)
    (hpending : (s.fd.entry i).pending = true) {nfh : NfsFh3}
    (hkey : (s.fd.entry i).key = nfh.obj.key .write) :
    (∀ path caching, (fdOpen w path nfh .write caching s).1 = .ok (-1)) ∧
      (fdSync w nfh s).1 = .ok (-1) := by
  simp only [FdEntry.pending, Bool.and_eq_true, bne_iff_ne, beq_iff_eq] at hpending
  -- whichever entry is found for the file has no descriptor
  have hfound : ∀ j, s.fd.idxByFh nfh.obj .write = some j → (s.fd.entry j).fd = -1 := by
    intro j hj
    obtain ⟨hlt, hkey'⟩ := FdCache.idxByFh_eq_some hj
    by_cases huse : (s.fd.entry j).use = 0
    · exact (h.unused j hlt huse).1
    · rw [h.keys j hlt i hi huse hpending.1 (hkey'.trans hkey.symm)]
      exact hpending.2
  obtain ⟨j, hj⟩ := FdCache.idxByFh_isSome hi hkey
  have hnone : s.fd.idxByFh nfh.obj .write ≠ none := by rw [hj]; exact nofun
  constructor
  · intro path caching
    obtain ⟨fd, s', hrun, hopened⟩ := fdOpen_run (w := w) path nfh .write caching s
    rw [hrun]
    cases hopened with
    | pending => rfl
    | cached hidx hfd => exact absurd (hfound _ hidx) hfd
    | refused => rfl
    | raced => rfl
    | opened hidx => exact absurd hidx hnone
  · obtain ⟨r, s', hrun, ⟨hidx, -⟩ | ⟨idx, hidx, hr, -⟩⟩ := fdSync_run (w := w) nfh s
    · exact absurd hidx hnone
    · rw [hrun, hr.2 (.inl (by simp [FdEntry.isOpen, hfound idx hidx]))]

end

/-- **Pending write errors, in every run.** -/
theorem pending_errors {L R : Type} (w : World L R) (ops : List (FdOp L))
    (log : List (SysCall × Int)) (s : Server L R)
    (htime : ∀ k, w.time k ≠ 0) (h : FdRuns w ops log s) : ErrorsKept w s := by
  have htable := (h.inv htime).table
  constructor
  · intro i hi hopen hkind hfail s' hrun
    exact htable.purged hi hopen (by rw [hkind]; exact hfail) hrun
  · intro i hi hopen hkind hidle hfail s' hrun
    exact htable.idled hi hopen hidle (by rw [hkind]; exact hfail) hrun
  · intro i hi hpending nfh hkey
    exact htable.told hi hpending hkey
  · intro i _ hpending op cs s' hs
    exact hs.keeps hpending

/-- The disk when data can no longer be synced. -/
def brokenDisk (now : Int) : Sandbox.Disk := { now, next := 4, broken := true }

/-- A file was written before the disk broke. -/
def brokenServer (now : Int) : Server Sandbox.Disk Sandbox.Grid :=
    { writtenServer with kernel := brokenDisk now }

/-- The error of `fd_cache_purge` is kept, and the next who opens the file for writing is told. -/
theorem pending_errors_disk : ∃ s, fdCachePurge Sandbox.diskWorld (brokenServer 2) = (.ok (), s) ∧
    s.fd.entry 0 = { fd := -1, kind := .write, use := 1, dev := 1, ino := 5, gen := 5 } ∧
    (fdOpen Sandbox.diskWorld (CStr.lit "/f") Sandbox.diskHandle .write true s).1 = .ok (-1) := by
  obtain ⟨_, s, hrun, -⟩ := fdCachePurge_run (w := Sandbox.diskWorld) (brokenServer 2)
  have hs : s = (fdCachePurge Sandbox.diskWorld (brokenServer 2)).2 := by rw [hrun]
  have hent : s.fd.entry 0 =
    { fd := -1, kind := .write, use := 1, dev := 1, ino := 5, gen := 5 } := by
    rw [hs]
    decide +kernel
  have hruns := (written_runs.step (.outside writtenServer (brokenDisk 2))).step (.purge hrun)
  have hkept := pending_errors Sandbox.diskWorld _ _ s diskWorld_time hruns
  refine ⟨s, hrun, hent, (hkept.told 0 (by decide) ?_ Sandbox.diskHandle ?_).1 _ _⟩
  · rw [hent]
    rfl
  · rw [hent]
    rfl

/-- The file was not used for more than two hours when `fd_cache_close_inactive` cannot close its
descriptor: the entry does not stay. The clock has not gone back. -/
theorem idle_error_dropped :
    ∃ log s', FdRuns Sandbox.diskWorld [diskWrite, .outside (brokenDisk 8000)] log
      (brokenServer 8000) ∧
    Sandbox.diskWorld.time writtenServer.kernel ≤
      Sandbox.diskWorld.time (brokenServer 8000).kernel ∧
    (brokenServer 8000).fd.entry 0 =
      { fd := 3, kind := .write, use := 1, dev := 1, ino := 5, gen := 5 } ∧
    CloseFails Sandbox.diskWorld 3 .write (idleAt Sandbox.diskWorld 0 (brokenServer 8000)).kernel ∧
    fdCacheCloseInactive Sandbox.diskWorld (brokenServer 8000) = (.ok (), s') ∧
      (s'.fd.entry 0).use = 0 := by
  obtain ⟨_, s1, -, -, hend⟩ :=
    fdCacheCloseInactive_run (w := Sandbox.diskWorld) (brokenServer 8000)
  have hret : ∃ s', fdCacheCloseInactive Sandbox.diskWorld (brokenServer 8000) = (.ok (), s') := by
    rcases hend with hend | ⟨-, _, s2, -, hend⟩
    · exact ⟨_, hend⟩
    · exact ⟨_, hend⟩
  obtain ⟨s', hrun⟩ := hret
  have hs : s' = (fdCacheCloseInactive Sandbox.diskWorld (brokenServer 8000)).2 := by rw [hrun]
  refine ⟨_, s', written_runs.step (.outside writtenServer (brokenDisk 8000)), by decide +kernel,
    by decide +kernel, ?_, hrun, ?_⟩
  · rw [closeFails_iff]
    exact .inl (by decide +kernel)
  · rw [hs]
    decide +kernel

end NfsRods
