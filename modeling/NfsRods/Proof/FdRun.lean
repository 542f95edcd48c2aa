import NfsRods.Mount

/-!
# What the descriptor cache does

One lemma for each function of the descriptor cache: the system calls it makes with what they
return, what it leaves in the table, and whether it changes the write verifier.

* `Did cs s s'`: the system calls from `s` to `s'` were `cs`; runs in a row make theirs in a row
  (`Did.trans`).
* `Deleted`, `FdOpened`, `FdClosed`: what `fd_cache_del`, `fd_open` and `fd_close` can do.
-/

namespace NfsRods

section
variable {L R : Type} (w : World L R)

/-- `s'` differs from `s` in what the descriptor cache changes. -/
def FdSide (s s' : Server L R) : Prop :=
  s' = { s with kernel := s'.kernel, errno := s'.errno, tick := s'.tick, trace := s'.trace
                fd := s'.fd, wverf := s'.wverf }

/-- The system calls of a trace, each with what the program sees it return. -/
def returns (t : List Event) (k : L) : List (SysCall × Int) :=
  (sysReplies w t k).map fun x => (x.1, x.2.toOption.getD (-1))

/-- From `s` to `s'` the system calls `cs` were made. -/
def Did (cs : List (SysCall × Int)) (s s' : Server L R) : Prop :=
  ∃ t, s'.trace = s.trace ++ t ∧ s'.kernel = replaySys w t s.kernel ∧ returns w t s.kernel = cs

/-- `errno` after a system call. -/
def sysErrno (c : SysCall) (k : L) (e : Errno) : Errno :=
  match (w.sys c k).1 with
  | .ok _ => e
  | .error e' => e'

/-- The system calls made from `s` to `s'`. -/
def calls (s s' : Server L R) : List (SysCall × Int) := returns w (since s s') s.kernel

/-- From `s` to `s'` the write verifier was made anew, and it was not touched after. -/
def Regenerated (s s' : Server L R) : Prop :=
  ∃ t : Server L R, s.tick ≤ t.tick ∧ t.tick < s'.tick ∧
    s'.wverf = (regenerateWriteVerifier w t).2.wverf

/-- The write verifier is as it was, or was made anew. -/
def Verf (s s' : Server L R) : Prop := (s'.tick = s.tick ∧ s'.wverf = s.wverf) ∨ Regenerated w s s'

end

section
variable {L R : Type} {w : World L R} {s s' s'' : Server L R} {cs cs' : List (SysCall × Int)}

instance : Std.Refl (FdSide (L := L) (R := R)) := ⟨fun _ => rfl⟩
instance : IsTrans (Server L R) FdSide := ⟨fun s s' s'' h h' => by
  unfold FdSide at h h' ⊢
  rw [h', h]⟩

theorem returns_append (t t' : List Event) (k : L) :
    returns w (t ++ t') k = returns w t k ++ returns w t' (replaySys w t k) := by
  rw [returns, sysReplies_append, List.map_append]
  rfl

theorem Did.refl (s : Server L R) : Did w [] s s := ⟨[], by simp, rfl, rfl⟩

theorem Did.trans (h : Did w cs s s') (h' : Did w cs' s' s'') : Did w (cs ++ cs') s s'' := by
  obtain ⟨t, ht, hk, hr⟩ := h
  obtain ⟨t', ht', hk', hr'⟩ := h'
  refine ⟨t ++ t', by rw [ht', ht, List.append_assoc], by rw [hk', hk, replaySys_append], ?_⟩
  rw [returns_append, hr, ← hk, hr']

/-- A change of the daemon's own variables makes no call. -/
theorem Did.own (h : Did w cs s s') (ht : s''.trace = s'.trace) (hk : s''.kernel = s'.kernel) :
    Did w cs s s'' := by
  obtain ⟨t, htrace, hkernel, hr⟩ := h
  exact ⟨t, ht.trans htrace, hk.trans hkernel, hr⟩

theorem Did.calls (h : Did w cs s s') : calls w s s' = cs := by
  obtain ⟨t, ht, _, hr⟩ := h
  rw [NfsRods.calls, since_eq ht, hr]

/-- A system call, what it returns and what it leaves. -/
theorem sys_run (c : SysCall) (s : Server L R) :
    ∃ s', sys w c s = (.ok (sysResult w c s.kernel), s') ∧ KernelOnly s s' ∧
      s'.kernel = (w.sys c s.kernel).2 ∧ s'.errno = sysErrno w c s.kernel s.errno ∧
      Did w [(c, sysResult w c s.kernel)] s s' := by
  unfold sys sysResult sysErrno
  rcases hs : w.sys c s.kernel with ⟨_ | v, k⟩
  · refine ⟨_, rfl, rfl, rfl, rfl, [.sys c], rfl, by simp [replaySys, hs], ?_⟩
    simp [returns, sysReplies, hs, Except.toOption]
  · refine ⟨_, rfl, rfl, rfl, rfl, [.sys c], rfl, by simp [replaySys, hs], ?_⟩
    simp [returns, sysReplies, hs, Except.toOption]

theorem Regenerated.tick (h : Regenerated w s s') : s.tick < s'.tick := by
  obtain ⟨t, ht, ht', _⟩ := h
  omega

theorem Verf.tick (h : Verf w s s') : s.tick ≤ s'.tick := by
  rcases h with ⟨h, _⟩ | h
  · exact h.ge
  · exact h.tick.le

theorem Regenerated.then (h : Regenerated w s s') (h' : Verf w s' s'') : Regenerated w s s'' := by
  obtain ⟨t, ht, ht', hv⟩ := h
  rcases h' with ⟨htick, hverf⟩ | ⟨u, hu, hu', hv'⟩
  · exact ⟨t, ht, by omega, hverf.trans hv⟩
  · exact ⟨u, by omega, hu', hv'⟩

theorem Verf.then (h : Verf w s s') (h' : Regenerated w s' s'') : Regenerated w s s'' := by
  have htick := h.tick
  obtain ⟨u, hu, hu', hv⟩ := h'
  exact ⟨u, by omega, hu', hv⟩

theorem Verf.trans (h : Verf w s s') (h' : Verf w s' s'') : Verf w s s'' := by
  rcases h with ⟨htick, hverf⟩ | h
  · rcases h' with ⟨htick', hverf'⟩ | h'
    · exact .inl ⟨htick'.trans htick, hverf'.trans hverf⟩
    · exact .inr (Verf.then (.inl ⟨htick, hverf⟩) h')
  · exact .inr (h.then h')

instance : Std.Refl (Verf w) := ⟨fun _ => .inl ⟨rfl, rfl⟩⟩

theorem KernelOnly.verf (h : KernelOnly s s') : Verf w s s' := by
  rw [h]
  exact .inl ⟨rfl, rfl⟩

end

/-! ## The table -/

/-- The entry holds an open descriptor. -/
def FdEntry.isOpen (e : FdEntry) : Bool := e.fd != -1

/-- The file an entry is for. -/
def FdEntry.key (e : FdEntry) : ULong × ULong × ULong × FdKind := (e.dev, e.ino, e.gen, e.kind)

/-- The file a handle is for. -/
def Unfs3Fh.key (ufh : Unfs3Fh) (kind : FdKind) : ULong × ULong × ULong × FdKind :=
  (ufh.dev, ufh.ino, ufh.gen, kind)

namespace FdCache

/-- Count a descriptor less of a kind, or one more. -/
def count (c : FdCache) (kind : FdKind) (n : Int) : FdCache :=
  match kind with
  | .read => { c with readers := c.readers + n }
  | .write => { c with writers := c.writers + n }

/-- Entry `i` has no descriptor any more. -/
def shut (c : FdCache) (i : Nat) : FdCache :=
  if (c.entry i).isOpen then (c.count (c.entry i).kind (-1)).update i fun e =>
    { e with fd := -1 } else c

/-- Entry `i` is unused. -/
def clear (c : FdCache) (i : Nat) : FdCache :=
  c.update i fun e => { e with fd := -1, use := 0, dev := 0, ino := 0, gen := 0 }

/-- Entry `i` was used at `t`. -/
def touch (c : FdCache) (i : Nat) (t : Int) : FdCache := c.update i fun e => { e with use := t }

/-- Entry `i` is given to a descriptor. -/
def put (c : FdCache) (i : Nat) (fd : Int) (ufh : Unfs3Fh) (kind : FdKind) (t : Int) : FdCache :=
  (c.count kind 1).update i fun _ =>
    { fd, kind, use := t, dev := ufh.dev, ino := ufh.ino, gen := ufh.gen }

/-- The first unused entry, if there is one, is given to a descriptor. -/
def add (c : FdCache) (fd : Int) (ufh : Unfs3Fh) (kind : FdKind) (t : Int) : FdCache :=
  match c.unused with
  | none => c
  | some i => c.put i fd ufh kind t

variable (c : FdCache) (i j : Nat) (kind : FdKind) (n t fd : Int) (ufh : Unfs3Fh)

@[simp] theorem entry_count : (c.count kind n).entry = c.entry := by cases kind <;> rfl

theorem entry_update (f : FdEntry → FdEntry) :
    (c.update i f).entry j = if j = i then f (c.entry j) else c.entry j := rfl

@[simp] theorem entry_shut :
    (c.shut i).entry j = if j = i then { c.entry j with fd := -1 } else c.entry j := by
  rw [shut]
  by_cases hopen : (c.entry i).isOpen = true
  · rw [if_pos hopen, entry_update, entry_count]
  · rw [if_neg hopen]
    split
    · subst j
      have hfd : (c.entry i).fd = -1 := by simpa [FdEntry.isOpen] using hopen
      rw [← hfd]
    · rfl

@[simp] theorem entry_clear : (c.clear i).entry j =
    if j = i then { c.entry j with fd := -1, use := 0, dev := 0, ino := 0, gen := 0 }
    else c.entry j := rfl

@[simp] theorem entry_touch :
    (c.touch i t).entry j = if j = i then { c.entry j with use := t } else c.entry j := rfl

@[simp] theorem entry_put : (c.put i fd ufh kind t).entry j =
    if j = i then { fd, kind, use := t, dev := ufh.dev, ino := ufh.ino, gen := ufh.gen }
    else c.entry j := by
  rw [put, entry_update, entry_count]

variable {c i kind fd ufh}

theorem unused_eq_some (h : c.unused = some i) : i < fdEntries ∧ (c.entry i).use = 0 :=
  ⟨List.mem_range.1 (List.mem_of_find?_eq_some h), by simpa using List.find?_some h⟩

theorem idxByFd_eq_some (h : c.idxByFd fd kind = some i) :
    i < fdEntries ∧ (c.entry i).fd = fd ∧ (c.entry i).kind = kind :=
  ⟨List.mem_range.1 (List.mem_of_find?_eq_some h), by simpa using List.find?_some h⟩

theorem idxByFd_eq_none (h : c.idxByFd fd kind = none) (hi : i < fdEntries) :
    ¬ ((c.entry i).fd = fd ∧ (c.entry i).kind = kind) := by
  simpa using List.find?_eq_none.1 h i (List.mem_range.2 hi)

theorem idxByFh_eq_some (h : c.idxByFh ufh kind = some i) :
    i < fdEntries ∧ (c.entry i).key = ufh.key kind := by
  refine ⟨List.mem_range.1 (List.mem_of_find?_eq_some h), ?_⟩
  have hi := List.find?_some h
  simp only [Bool.and_eq_true, beq_iff_eq] at hi
  rw [FdEntry.key, Unfs3Fh.key, hi.1.1.1, hi.1.1.2, hi.1.2, hi.2]

theorem idxByFh_eq_none (h : c.idxByFh ufh kind = none) (hi : i < fdEntries) :
    (c.entry i).key ≠ ufh.key kind := by
  intro hkey
  have hne := List.find?_eq_none.1 h i (List.mem_range.2 hi)
  simp only [FdEntry.key, Unfs3Fh.key, Prod.mk.injEq] at hkey
  simp [hkey.1, hkey.2.1, hkey.2.2.1, hkey.2.2.2] at hne

/-- A file with an entry is found. -/
theorem idxByFh_isSome (hi : i < fdEntries) (hkey : (c.entry i).key = ufh.key kind) :
    ∃ j, c.idxByFh ufh kind = some j := by
  rw [← Option.isSome_iff_exists, Option.isSome_iff_ne_none]
  exact fun hnone => idxByFh_eq_none hnone hi hkey

end FdCache

/-! ## Functions -/

section
variable {L R : Type} (w : World L R)

/-- The calls that close a descriptor: data written to it are synced first. -/
def closeCalls (fd : Int) (kind : FdKind) (k : L) : List (SysCall × Int) :=
  match kind with
  | .read => [(.close fd, sysResult w (.close fd) k)]
  | .write => [(.fsync fd, sysResult w (.fsync fd) k),
      (.close fd, sysResult w (.close fd) (w.sys (.fsync fd) k).2)]

/-- `errno` after them. -/
def closeErrno (fd : Int) (kind : FdKind) (k : L) (e : Errno) : Errno :=
  match kind with
  | .read => sysErrno w (.close fd) k e
  | .write => sysErrno w (.close fd) (w.sys (.fsync fd) k).2 (sysErrno w (.fsync fd) k e)

/-- One of the calls that close a descriptor fails. -/
def CloseFails (fd : Int) (kind : FdKind) (k : L) : Prop := ∃ x ∈ closeCalls w fd kind k, x.2 = -1

/-- Closing the entry fails, or has failed before. -/
def FdEntry.Fails (e : FdEntry) (k : L) : Prop := e.isOpen = false ∨ CloseFails w e.fd e.kind k

/-- The calls that close an entry. -/
def FdEntry.calls (e : FdEntry) (k : L) : List (SysCall × Int) :=
  if e.isOpen then closeCalls w e.fd e.kind k else []

/-- What `fd_cache_del` does: it closes the descriptor if there is one, and the entry is given up
unless the error is to be kept. -/
structure Deleted (idx : Nat) (keep : Bool) (s s' : Server L R) : Prop where
  side : FdSide s s'
  did : Did w ((s.fd.entry idx).calls w s.kernel) s s'
  kept : (s.fd.entry idx).Fails w s.kernel → keep = true → s'.fd = s.fd.shut idx
  gone : ¬ ((s.fd.entry idx).Fails w s.kernel ∧ keep = true) → s'.fd = (s.fd.shut idx).clear idx
  told : (s.fd.entry idx).Fails w s.kernel → keep = false → Regenerated w s s'
  verf : Verf w s s'
  errno : (s.fd.entry idx).isOpen = true →
    s'.errno = closeErrno w (s.fd.entry idx).fd (s.fd.entry idx).kind s.kernel s.errno

end

section
variable {L R : Type} {w : World L R}

theorem regenerate_regenerated (s : Server L R) : Regenerated w s (regenerateWriteVerifier w s).2 :=
  ⟨s, le_rfl, Nat.lt_succ_self _, rfl⟩

/-- Closing a descriptor for writing, or for reading. -/
theorem closeFails_iff {fd : Int} {kind : FdKind} {k : L} :
    CloseFails w fd kind k ↔ match kind with
      | .read => sysResult w (.close fd) k = -1
      | .write => sysResult w (.fsync fd) k = -1 ∨
          sysResult w (.close fd) (w.sys (.fsync fd) k).2 = -1 := by
  cases kind <;> simp [CloseFails, closeCalls]

/-- The part of `fd_cache_del` that closes the descriptor of an entry. -/
def fdShut (w : World L R) (idx : Nat) (ent : FdEntry) : M L R Int :=
  if ent.fd ≠ -1 then do
    let res1 ← (if ent.kind = .write then do
        Prog.modify fun s => { s with fd := { s.fd with writers := s.fd.writers - 1 } }
        sys w (.fsync ent.fd)
      else do
        Prog.modify fun s => { s with fd := { s.fd with readers := s.fd.readers - 1 } }
        pure 0)
    let res2 ← sys w (.close ent.fd)
    Prog.modify fun s => { s with fd := s.fd.update idx fun e => { e with fd := -1 } }
    pure (if res1 = -1 ∨ res2 = -1 then -1 else res1)
  else do
    Prog.modify fun s => { s with errno := .eio }
    pure (-1)

theorem fdShut_run (idx : Nat) (s : Server L R) :
    ∃ r s', fdShut w idx (s.fd.entry idx) s = (.ok r, s') ∧
      (r = -1 ↔ (s.fd.entry idx).Fails w s.kernel) ∧
      Did w ((s.fd.entry idx).calls w s.kernel) s s' ∧
      s' = { s with kernel := s'.kernel, errno := s'.errno, trace := s'.trace
                    fd := s.fd.shut idx } ∧
      ((s.fd.entry idx).isOpen = true →
        s'.errno = closeErrno w (s.fd.entry idx).fd (s.fd.entry idx).kind s.kernel s.errno) := by
  by_cases hfd : (s.fd.entry idx).fd = -1
  · have hopen : (s.fd.entry idx).isOpen = false := by simp [FdEntry.isOpen, hfd]
    refine ⟨-1, { s with errno := .eio }, ?_, by simp [FdEntry.Fails, hopen], ?_, ?_,
      by simp [hopen]⟩
    · rw [fdShut, if_neg (not_not.2 hfd)]
      rfl
    · rw [FdEntry.calls, hopen]
      exact (Did.refl s).own rfl rfl
    · rw [FdCache.shut, hopen]
      rfl
  · have hopen : (s.fd.entry idx).isOpen = true := by simp [FdEntry.isOpen, hfd]
    rw [fdShut, if_pos hfd, FdEntry.Fails, FdEntry.calls, FdCache.shut, hopen, closeFails_iff]
    generalize hent : s.fd.entry idx = ent
    cases hkind : ent.kind with
    | read =>
      obtain ⟨s1, h1, hk1, -, he1, hd1⟩ :=
        sys_run (w := w) (.close ent.fd) { s with fd := s.fd.count .read (-1) }
      refine ⟨if (0 : Int) = -1 ∨ sysResult w (.close ent.fd) s.kernel = -1 then -1 else 0,
        { s1 with fd := s1.fd.update idx fun e => { e with fd := -1 } }, ?_, ?_, hd1.own rfl rfl,
          ?_, fun _ => he1⟩
      · rw [if_neg (by decide), Prog.bind_assoc_run, Prog.modify_bind_run, Prog.pure_bind_run]
        exact Prog.bind_ok h1
      · by_cases hr : sysResult w (.close ent.fd) s.kernel = -1 <;> simp [hr]
      · rw [hk1]
        rfl
    | write =>
      obtain ⟨s1, h1, hk1, hker1, he1, hd1⟩ := sys_run (w := w) (.fsync ent.fd)
        { s with fd := s.fd.count .write (-1) }
      obtain ⟨s2, h2, hk2, -, he2, hd2⟩ := sys_run (w := w) (.close ent.fd) s1
      rw [hker1] at h2 he2 hd2
      rw [he1] at he2
      generalize hr1 : sysResult w (.fsync ent.fd) s.kernel = r1 at h1 hd1
      generalize hr2 : sysResult w (.close ent.fd) (w.sys (.fsync ent.fd) s.kernel).2 = r2 at h2 hd2
      refine ⟨if r1 = -1 ∨ r2 = -1 then -1 else r1,
        { s2 with fd := s2.fd.update idx fun e => { e with fd := -1 } }, ?_, ?_, ?_, ?_,
          fun _ => he2⟩
      · rw [if_pos rfl, Prog.bind_assoc_run, Prog.modify_bind_run]
        exact (Prog.bind_ok h1).trans (Prog.bind_ok h2)
      · by_cases h1 : r1 = -1 <;> by_cases h2 : r2 = -1 <;> simp [h1, h2]
      · rw [if_pos rfl, closeCalls, hr1, hr2]
        exact (hd1.trans hd2).own rfl rfl
      · rw [hk2, hk1]
        rfl

/-- **`fd_cache_del`.** -/
theorem fdCacheDel_run (idx : Nat) (keep : Bool) (s : Server L R) :
    ∃ r s', fdCacheDel w idx keep s = (.ok r, s') ∧ (r = -1 ↔ (s.fd.entry idx).Fails w s.kernel) ∧
      Deleted w idx keep s s' := by
  obtain ⟨r, s1, hrun, hr, hdid, hs1, herr⟩ := fdShut_run (w := w) idx s
  have hside : FdSide s s1 := by
    rw [hs1]
    rfl
  have htick : s1.tick = s.tick := by rw [hs1]
  have hverf : s1.wverf = s.wverf := by rw [hs1]
  have hfd : s1.fd = s.fd.shut idx := by rw [hs1]
  have hdel : fdCacheDel w idx keep s = (do
      Prog.when (r = -1 ∧ keep = false) (regenerateWriteVerifier w)
      Prog.when (r ≠ -1 ∨ keep = false) (Prog.modify fun s => { s with fd := s.fd.clear idx })
      pure r : M L R Int) s1 := Prog.bind_ok hrun
  rw [hdel]
  by_cases hfail : r = -1
  · cases keep with
    | true =>
      refine ⟨r, s1, by simp [Prog.when, hfail], hr, hside, hdid, fun _ _ => hfd, ?_, ?_,
        .inl ⟨htick, hverf⟩, herr⟩
      · exact fun h => absurd ⟨hr.1 hfail, rfl⟩ h
      · exact fun _ h => absurd h (by decide)
    | false =>
      have hreg : Regenerated w s (regenerateWriteVerifier w s1).2 :=
        Verf.then (.inl ⟨htick, hverf⟩) (regenerate_regenerated s1)
      refine ⟨r, { (regenerateWriteVerifier w s1).2 with fd := s1.fd.clear idx }, ?_, hr, ?_,
        hdid.own rfl rfl, ?_, ?_, fun _ _ => hreg, .inr hreg, herr⟩
      · simp [Prog.when, hfail, regenerateWriteVerifier]
      · unfold FdSide at hside ⊢
        rw [hside]
        rfl
      · exact fun _ h => absurd h (by decide)
      · exact fun _ => by rw [← hfd]
  · refine ⟨r, { s1 with fd := s1.fd.clear idx }, ?_, hr, ?_, hdid.own rfl rfl, ?_, ?_, ?_,
      .inl ⟨htick, hverf⟩, herr⟩
    · simp [Prog.when, hfail]
    · unfold FdSide at hside ⊢
      rw [hside]
    · exact fun h => absurd (hr.2 h) hfail
    · exact fun _ => by rw [← hfd]
    · exact fun h => absurd (hr.2 h) hfail

/-- The call that opens a file. -/
def fdOpenCall (path : CStr) (kind : FdKind) : SysCall :=
  .open_ path { access := if kind = .read then .rdonly else .wronly } 0

/-- The file can be opened at `path`: this gives the descriptor `fd` and leaves the kernel `k'`. -/
def Opens (w : World L R) (k : L) (path : CStr) (ufh : Unfs3Fh) (kind : FdKind) (fd : Int)
    (k' : L) : Prop :=
  w.sys (fdOpenCall path kind) k = (.ok fd, k') ∧ fd ≠ -1 ∧
    ∃ b, w.fstat k' fd = .ok b ∧ ufh.dev = b.dev ∧ ufh.ino = b.ino ∧ ufh.gen = getGen b

theorem sysResult_ok {c : SysCall} {k : L} (h : sysResult w c k ≠ -1) :
    (w.sys c k).1 = .ok (sysResult w c k) := by
  unfold sysResult at h ⊢
  cases hs : (w.sys c k).1 with
  | error e => rw [hs] at h; exact absurd rfl h
  | ok v => rfl

/-- What `fd_open` can do, with what it returns and leaves. -/
inductive FdOpened (w : World L R) (path : CStr) (ufh : Unfs3Fh) (kind : FdKind) (caching : Bool)
    (s : Server L R) : Int → Server L R → Prop
  /-- A pending error is told and removed. -/
  | pending {idx : Nat} {s' : Server L R} (h : s.fd.idxByFh ufh kind = some idx)
    (hfd : (s.fd.entry idx).fd = -1) (hdel : Deleted w idx false s s') :
    FdOpened w path ufh kind caching s (-1) s'
  | cached {idx : Nat} (h : s.fd.idxByFh ufh kind = some idx) (hfd : (s.fd.entry idx).fd ≠ -1) :
    FdOpened w path ufh kind caching s (s.fd.entry idx).fd s
  | refused {s' : Server L R} (h : s.fd.idxByFh ufh kind = none) (hside : KernelOnly s s')
    (hdid : Did w [(fdOpenCall path kind, -1)] s s')
    (hnot : ∀ fd k', ¬ Opens w s.kernel path ufh kind fd k') :
    FdOpened w path ufh kind caching s (-1) s'
  /-- The path stands for another file by now. -/
  | raced {fd : Int} {s' : Server L R} (h : s.fd.idxByFh ufh kind = none) (hfd : fd ≠ -1)
    (hside : KernelOnly s s') (hdid : ∃ v, Did w [(fdOpenCall path kind, fd), (.close fd, v)] s s')
    (hnot : ∀ fd k', ¬ Opens w s.kernel path ufh kind fd k') :
    FdOpened w path ufh kind caching s (-1) s'
  | opened {fd : Int} {s1 : Server L R} (h : s.fd.idxByFh ufh kind = none) (hfd : fd ≠ -1)
    (hside : KernelOnly s s1)
    (hdid : Did w [(fdOpenCall path kind, fd)] s s1)
    (hopens : Opens w s.kernel path ufh kind fd s1.kernel)
    (herr : s1.errno = s.errno) :
    FdOpened w path ufh kind caching s fd
      { s1 with fd := if caching then s.fd.add fd ufh kind (w.time s1.kernel) else s.fd }

theorem fdCacheAdd_run (fd : Int) (ufh : Unfs3Fh) (kind : FdKind) (s : Server L R) :
    fdCacheAdd w fd ufh kind s =
      (.ok (), { s with fd := s.fd.add fd ufh kind (w.time s.kernel) }) := by
  rw [fdCacheAdd, Prog.modify_run, FdCache.add]
  cases s.fd.unused with
  | none => rfl
  | some idx => cases kind <;> rfl

/-- **`fd_open`.** -/
theorem fdOpen_run (path : CStr) (nfh : NfsFh3) (kind : FdKind) (caching : Bool) (s : Server L R) :
    ∃ fd s', fdOpen w path nfh kind caching s = (.ok fd, s') ∧
      FdOpened w path nfh.obj kind caching s fd s' := by
  rw [fdOpen, Prog.get_bind_run]
  cases hidx : s.fd.idxByFh nfh.obj kind with
  | some idx =>
    dsimp only
    rw [Prog.ite_run]
    by_cases hfd : (s.fd.entry idx).fd = -1
    · obtain ⟨r, s', hrun, -, hdel⟩ := fdCacheDel_run (w := w) idx false s
      rw [if_pos hfd, Prog.bind_ok hrun]
      exact ⟨-1, s', rfl, .pending hidx hfd hdel⟩
    · rw [if_neg hfd]
      exact ⟨_, s, rfl, .cached hidx hfd⟩
  | none =>
    dsimp only
    obtain ⟨s1, h1, hk1, hker1, herr1, hd1⟩ := sys_run (w := w) (fdOpenCall path kind) s
    rw [← fdOpenCall, Prog.bind_ok h1, Prog.ite_run]
    by_cases hfd : sysResult w (fdOpenCall path kind) s.kernel = -1
    · rw [hfd] at hd1
      refine ⟨-1, s1, by rw [if_pos hfd]; rfl, .refused hidx hk1 hd1 fun fd k' h => ?_⟩
      rw [sysResult, h.1] at hfd
      exact h.2.1 hfd
    rw [if_neg hfd]
    have hres := sysResult_ok hfd
    rw [sysErrno, hres] at herr1
    generalize sysResult w (fdOpenCall path kind) s.kernel = fd at h1 hd1 hfd hres
    have hsys : w.sys (fdOpenCall path kind) s.kernel = (.ok fd, s1.kernel) :=
      Prod.ext hres hker1.symm
    -- what was opened is the file if `fstat` says so
    have hfile : ∀ fd' k', Opens w s.kernel path nfh.obj kind fd' k' →
        ∃ b, w.fstat s1.kernel fd = .ok b ∧ nfh.obj.dev = b.dev ∧ nfh.obj.ino = b.ino ∧
          nfh.obj.gen = getGen b := by
      rintro fd' k' ⟨hsys', -, hb⟩
      rw [hsys, Prod.mk.injEq, Except.ok.injEq] at hsys'
      rwa [← hsys'.1, ← hsys'.2] at hb
    -- the race check fails: the descriptor is closed again
    have hraced : (∀ fd' k', ¬ Opens w s.kernel path nfh.obj kind fd' k') → ∀ s2, KernelOnly s1 s2 →
        s2.trace = s1.trace → s2.kernel = s1.kernel → ∃ fd' s', ((do
          let _ ← sys w (.close fd)
          Prog.modify fun s => { s with errno := .eloop }
          pure (-1) : M L R Int) s2) = (.ok fd', s') ∧
            FdOpened w path nfh.obj kind caching s fd' s' := by
      intro hnot s2 hk2 ht hk
      obtain ⟨s3, h3, hk3, -, -, hd3⟩ := sys_run (w := w) (.close fd) s2
      rw [Prog.bind_ok h3]
      refine ⟨-1, { s3 with errno := .eloop }, rfl,
        .raced hidx hfd ?_ ⟨sysResult w (.close fd) s2.kernel, ?_⟩ hnot⟩
      · have h13 := trans_of KernelOnly (trans_of KernelOnly hk1 hk2) hk3
        unfold KernelOnly at h13 ⊢
        rw [h13]
      · exact ((hd1.own ht hk).trans hd3).own rfl rfl
    cases hstat : w.fstat s1.kernel fd with
    | error e =>
      rw [Prog.bind_ok (query_error hstat)]
      refine hraced (fun fd' k' h => ?_) _ rfl rfl rfl
      obtain ⟨b, hb, -⟩ := hfile fd' k' h
      cases hstat.symm.trans hb
    | ok b =>
      rw [Prog.bind_ok (query_ok hstat), Prog.ite_run]
      by_cases hsame : nfh.obj.dev = b.dev ∧ nfh.obj.ino = b.ino ∧ nfh.obj.gen = getGen b
      · rw [if_neg (by simp [hsame.1, hsame.2.1, hsame.2.2])]
        refine ⟨fd, _, ?_, .opened hidx hfd hk1 hd1 ⟨hsys, hfd, b, hstat, hsame⟩ herr1⟩
        have hs1 : s.fd = s1.fd := by rw [hk1]
        cases caching with
        | true =>
          rw [Prog.when, if_pos rfl, Prog.bind_ok (fdCacheAdd_run fd nfh.obj kind s1), hs1]
          rfl
        | false =>
          rw [hs1]
          rfl
      · rw [if_pos ?_]
        · refine hraced (fun fd' k' h => ?_) s1 rfl rfl rfl
          obtain ⟨b', hb', hsame'⟩ := hfile fd' k' h
          cases hstat.symm.trans hb'
          exact hsame hsame'
        · by_cases hdev : nfh.obj.dev = b.dev <;> by_cases hino : nfh.obj.ino = b.ino <;>
            by_cases hgen : nfh.obj.gen = getGen b <;> simp_all

/-- What `fd_close` returns for a descriptor that is not in the table. -/
def loneResult (w : World L R) (fd : Int) (kind : FdKind) (k : L) : Int :=
  match kind with
  | .read => sysResult w (.close fd) k
  | .write =>
    if sysResult w (.fsync fd) k ≠ 0 then sysResult w (.fsync fd) k
    else sysResult w (.close fd) (w.sys (.fsync fd) k).2

/-- What `fd_close` can do, with what it returns and leaves. -/
inductive FdClosed (w : World L R) (fd : Int) (kind : FdKind) (really : Bool) (s : Server L R) :
    Int → Server L R → Prop
  | stays {idx : Nat} (h : s.fd.idxByFd fd kind = some idx) (hreal : really = false) :
    FdClosed w fd kind really s 0 { s with fd := s.fd.touch idx (w.time s.kernel) }
  | deleted {idx : Nat} {r : Int} {s' : Server L R} (h : s.fd.idxByFd fd kind = some idx)
    (hreal : really = true)
    (hr : r = -1 ↔ ((s.fd.touch idx (w.time s.kernel)).entry idx).Fails w s.kernel)
    (hdel : Deleted w idx false { s with fd := s.fd.touch idx (w.time s.kernel) } s') :
    FdClosed w fd kind really s r s'
  /-- The descriptor is not in the table. -/
  | lone {s' : Server L R} (h : s.fd.idxByFd fd kind = none) (hside : KernelOnly s s')
    (hdid : Did w (closeCalls w fd kind s.kernel) s s')
      (herr : s'.errno = closeErrno w fd kind s.kernel s.errno) :
    FdClosed w fd kind really s (loneResult w fd kind s.kernel) s'

/-- **`fd_close`.** -/
theorem fdClose_run (fd : Int) (kind : FdKind) (really : Bool) (s : Server L R) :
    ∃ r s', fdClose w fd kind really s = (.ok r, s') ∧ FdClosed w fd kind really s r s' := by
  rw [fdClose, Prog.get_bind_run]
  cases hidx : s.fd.idxByFd fd kind with
  | some idx =>
    dsimp only
    rw [Prog.modify_bind_run, Prog.ite_run]
    cases really with
    | true =>
      obtain ⟨r, s', hrun, hr, hdel⟩ := fdCacheDel_run (w := w) idx false
        { s with fd := s.fd.touch idx (w.time s.kernel) }
      exact ⟨r, s', hrun, .deleted hidx rfl hr hdel⟩
    | false => exact ⟨0, _, rfl, .stays hidx rfl⟩
  | none =>
    dsimp only
    cases kind with
    | read =>
      obtain ⟨s1, h1, hk1, -, he1, hd1⟩ := sys_run (w := w) (.close fd) s
      rw [if_neg (by decide), Prog.pure_bind_run, Prog.bind_ok h1]
      exact ⟨_, s1, rfl, .lone hidx hk1 hd1 he1⟩
    | write =>
      obtain ⟨s1, h1, hk1, hker1, he1, hd1⟩ := sys_run (w := w) (.fsync fd) s
      obtain ⟨s2, h2, hk2, -, he2, hd2⟩ := sys_run (w := w) (.close fd) s1
      rw [if_pos rfl, Prog.bind_ok h1, Prog.bind_ok h2]
      rw [hker1] at hd2 he2 ⊢
      rw [he1] at he2
      exact ⟨_, s2, rfl, .lone hidx (trans_of KernelOnly hk1 hk2) (hd1.trans hd2) he2⟩

/-- **`fd_sync`.** -/
theorem fdSync_run (nfh : NfsFh3) (s : Server L R) :
    ∃ r s', fdSync w nfh s = (.ok r, s') ∧
      ((s.fd.idxByFh nfh.obj .write = none ∧ r = 0 ∧ s' = s) ∨
        ∃ idx, s.fd.idxByFh nfh.obj .write = some idx ∧
          (r = -1 ↔ (s.fd.entry idx).Fails w s.kernel) ∧
          Deleted w idx false s s') := by
  rw [fdSync, Prog.get_bind_run]
  cases hidx : s.fd.idxByFh nfh.obj .write with
  | none => exact ⟨0, s, rfl, .inl ⟨rfl, rfl, rfl⟩⟩
  | some idx =>
    obtain ⟨r, s', hrun, hr, hdel⟩ := fdCacheDel_run (w := w) idx false s
    exact ⟨r, s', hrun, .inr ⟨idx, rfl, hr, hdel⟩⟩

/-! ## Loops over the table -/

/-- Entries of `P` are deleted in turn, with or without keeping errors. -/
inductive Sweep (w : World L R) (P : Nat → Bool → Prop) :
    List (SysCall × Int) → Server L R → Server L R → Prop
  | done (s : Server L R) : Sweep w P [] s s
  | del {i : Nat} {keep : Bool} {cs : List (SysCall × Int)} {s s' s'' : Server L R} (hP : P i keep)
    (hdel : Deleted w i keep s s') (h : Sweep w P cs s' s'') :
    Sweep w P ((s.fd.entry i).calls w s.kernel ++ cs) s s''

section
variable {P : Nat → Bool → Prop} {cs : List (SysCall × Int)} {s s' : Server L R}

theorem Sweep.did (h : Sweep w P cs s s') : Did w cs s s' := by
  induction h with
  | done s => exact .refl s
  | del _ hdel _ ih => exact hdel.did.trans ih

theorem Sweep.side (h : Sweep w P cs s s') : FdSide s s' := by
  induction h with
  | done s => exact refl_of FdSide s
  | del _ hdel _ ih => exact trans_of FdSide hdel.side ih

theorem Sweep.verf (h : Sweep w P cs s s') : Verf w s s' := by
  induction h with
  | done s => exact refl_of (Verf w) s
  | del _ hdel _ ih => exact hdel.verf.trans ih

theorem Deleted.other {i j : Nat} {keep : Bool} (h : Deleted w i keep s s') (hj : j ≠ i) :
    s'.fd.entry j = s.fd.entry j := by
  by_cases hk : (s.fd.entry i).Fails w s.kernel ∧ keep = true
  · rw [h.kept hk.1 hk.2, FdCache.entry_shut, if_neg hj]
  · rw [h.gone hk, FdCache.entry_clear, if_neg hj, FdCache.entry_shut, if_neg hj]

/-- Other entries stay as they are. -/
theorem Sweep.other {j : Nat} (h : Sweep w P cs s s') (hj : ∀ keep, ¬ P j keep) :
    s'.fd.entry j = s.fd.entry j := by
  induction h with
  | done s => rfl
  | @del i keep _ _ _ _ hP hdel _ ih =>
    rw [ih, hdel.other]
    rintro rfl
    exact hj keep hP

theorem forEach_sweep (body : Nat → M L R Unit) (is : List Nat) (hbody : ∀ i ∈ is, ∀ s, ∃ s',
      body i s = (.ok (), s') ∧ (s' = s ∨ ∃ keep, P i keep ∧ Deleted w i keep s s'))
      (s : Server L R) :
    ∃ cs s', Prog.forEach body is s = (.ok (), s') ∧ Sweep w P cs s s' := by
  induction is generalizing s with
  | nil => exact ⟨[], s, rfl, .done s⟩
  | cons i is ih =>
    obtain ⟨s1, h1, hs1⟩ := hbody i (by simp) s
    obtain ⟨cs, s2, h2, hsweep⟩ := ih (fun j hj => hbody j (List.mem_cons_of_mem i hj)) s1
    rcases hs1 with rfl | ⟨keep, hP, hdel⟩
    · exact ⟨cs, s2, by rw [Prog.forEach, Prog.bind_ok h1, h2], hsweep⟩
    · exact ⟨_, s2, by rw [Prog.forEach, Prog.bind_ok h1, h2], .del hP hdel hsweep⟩

end

/-- The body of `fd_cache_purge`. -/
def purgeBody (w : World L R) (i : Nat) : M L R Unit := do
  let s ← Prog.get
  Prog.when ((s.fd.entry i).use ≠ 0) do
    let _ ← fdCacheDel w i true

/-- The body of the first loop of `fd_cache_close_inactive`. -/
def idleBody (w : World L R) (now : Int) (i : Nat) : M L R Unit := do
  let s ← Prog.get
  let e := s.fd.entry i
  Prog.when (e.use ≠ 0 ∧ e.fd ≠ -1 ∧ e.use + inactiveTimeout < now) do
    let _ ← fdCacheDel w i true

theorem when_del_run {c : Prop} [Decidable c] (i : Nat) (keep : Bool) (s : Server L R) :
    ∃ s', Prog.when c (do
        let _ ← fdCacheDel w i keep) s = (.ok (), s') ∧
          (¬ c ∧ s' = s ∨ c ∧ Deleted w i keep s s') := by
  obtain ⟨r, s', hrun, -, hdel⟩ := fdCacheDel_run (w := w) i keep s
  by_cases hc : c
  · exact ⟨s', by rw [Prog.when, if_pos hc, Prog.bind_ok hrun]; rfl, .inr ⟨hc, hdel⟩⟩
  · exact ⟨s, by rw [Prog.when, if_neg hc]; rfl, .inl ⟨hc, rfl⟩⟩

theorem purgeBody_run (i : Nat) (s : Server L R) :
    ∃ s', purgeBody w i s = (.ok (), s') ∧
      ((s.fd.entry i).use = 0 ∧ s' = s ∨ (s.fd.entry i).use ≠ 0 ∧ Deleted w i true s s') := by
  obtain ⟨s', hrun, h⟩ := when_del_run (w := w) (c := (s.fd.entry i).use ≠ 0) i true s
  exact ⟨s', hrun, by simpa using h⟩

theorem idleBody_run (now : Int) (i : Nat) (s : Server L R) :
    ∃ s', idleBody w now i s = (.ok (), s') ∧
      (¬ ((s.fd.entry i).use ≠ 0 ∧ (s.fd.entry i).fd ≠ -1 ∧
        (s.fd.entry i).use + inactiveTimeout < now) ∧ s' = s ∨
        ((s.fd.entry i).use ≠ 0 ∧ (s.fd.entry i).fd ≠ -1 ∧
          (s.fd.entry i).use + inactiveTimeout < now) ∧
          Deleted w i true s s') :=
  when_del_run i true s

/-- The loop keeps errors of the entries of `is`. -/
def Keeping (is : List Nat) (i : Nat) (keep : Bool) : Prop := i ∈ is ∧ keep = true

theorem purge_sweep (is : List Nat) (s : Server L R) :
    ∃ cs s', Prog.forEach (purgeBody w) is s = (.ok (), s') ∧ Sweep w (Keeping is) cs s s' := by
  refine forEach_sweep _ is (fun i hi s => ?_) s
  obtain ⟨s', hrun, ⟨-, hs⟩ | ⟨-, hdel⟩⟩ := purgeBody_run (w := w) i s
  · exact ⟨s', hrun, .inl hs⟩
  · exact ⟨s', hrun, .inr ⟨true, ⟨hi, rfl⟩, hdel⟩⟩

theorem idle_sweep (now : Int) (is : List Nat) (s : Server L R) :
    ∃ cs s', Prog.forEach (idleBody w now) is s = (.ok (), s') ∧ Sweep w (Keeping is) cs s s' := by
  refine forEach_sweep _ is (fun i hi s => ?_) s
  obtain ⟨s', hrun, ⟨-, hs⟩ | ⟨-, hdel⟩⟩ := idleBody_run (w := w) now i s
  · exact ⟨s', hrun, .inl hs⟩
  · exact ⟨s', hrun, .inr ⟨true, ⟨hi, rfl⟩, hdel⟩⟩

/-- **`fd_cache_purge`.** -/
theorem fdCachePurge_run (s : Server L R) :
    ∃ cs s', fdCachePurge w s = (.ok (), s') ∧ Sweep w (Keeping (List.range fdEntries)) cs s s' :=
  purge_sweep _ s

/-- The entries with a pending error. -/
def FdCache.errors (c : FdCache) : List Nat :=
    (List.range fdEntries).filter fun i => (c.entry i).pending

/-- **`fd_cache_close_inactive`** closes idle descriptors; if there are errors after that and all
are old, they are given up. -/
theorem fdCacheCloseInactive_run (s : Server L R) :
    ∃ cs s1, Prog.forEach (idleBody w (w.time s.kernel)) (List.range fdEntries) s = (.ok (), s1) ∧
      Sweep w (Keeping (List.range fdEntries)) cs s s1 ∧
      (fdCacheCloseInactive w s = (.ok (), s1) ∨
        (∀ i ∈ s1.fd.errors, (s1.fd.entry i).use + pendingErrorTimeout ≤ w.time s.kernel) ∧
        ∃ cs' s2, Sweep w (fun i keep => i ∈ s1.fd.errors ∧ keep = false) cs' s1 s2 ∧
          fdCacheCloseInactive w s = (.ok (), (regenerateWriteVerifier w s2).2)) := by
  obtain ⟨cs, s1, h1, hsweep⟩ := idle_sweep (w := w) (w.time s.kernel) (List.range fdEntries) s
  have hrun : fdCacheCloseInactive w s = Prog.when (s1.fd.errors ≠ [] ∧
      ∀ i ∈ s1.fd.errors, ¬ w.time s.kernel < (s1.fd.entry i).use + pendingErrorTimeout) (do
        Prog.forEach (fun i => do
          let _ ← fdCacheDel w i false) s1.fd.errors
        regenerateWriteVerifier w) s1 := Prog.bind_ok h1
  refine ⟨cs, s1, h1, hsweep, ?_⟩
  rw [hrun, Prog.when]
  split
  · rename_i hold
    refine .inr ⟨fun i hi => not_lt.1 (hold.2 i hi), ?_⟩
    obtain ⟨cs', s2, h2, hsweep2⟩ :=
      forEach_sweep (w := w) (P := fun i keep => i ∈ s1.fd.errors ∧ keep = false) (fun i => do
        let _ ← fdCacheDel w i false) s1.fd.errors (fun i hi s => by
          obtain ⟨r, s', hdel, -, hd⟩ := fdCacheDel_run (w := w) i false s
          exact ⟨s', by rw [Prog.bind_ok hdel]; rfl, .inr ⟨false, ⟨hi, rfl⟩, hd⟩⟩) s1
    exact ⟨cs', s2, hsweep2, by rw [Prog.bind_ok h2]; rfl⟩
  · exact .inl rfl

end

end NfsRods
