import Mathlib.Data.Finset.Card
import Mathlib.Data.Finset.Range
import NfsRods.Lib.Ledger
import NfsRods.Proof.FdRun
import NfsRods.Sandbox

/-!
# The table of the descriptor cache

`FdRuns`: whole accesses, `fd_sync`, `fd_cache_purge` and `fd_cache_close_inactive` in any order,
with the system calls they make.

* `FdTable c`: what holds of the table whatever the calls return, if the clock does not show 0: the
  counters are right, unused entries are empty, and there is one entry for a file and a kind.
* `FdOwn log lone c`: the descriptors held according to the log (`Ledger.held`) are those of the
  table, once each, and `lone`, which is in use without an entry.
* `FdInv log lone c`: the table is right, and the descriptors are as well if no number that is in
  use was handed out; `FdRuns.inv`: it holds after every run.
* `fd_cache_rep`: in every run each descriptor is either in one entry or was closed once.
-/

namespace NfsRods

/-! ## Runs -/

/-- A use of the descriptor cache. -/
inductive FdOp (L : Type)
  /-- Other processes, and the daemon's other calls, leave the kernel in state `k`. -/
  | outside (k : L)
  /-- `fd_open`, and `fd_close` of what it has returned, when the kernel is in state `k`. -/
  | access (path : CStr) (nfh : NfsFh3) (kind : FdKind) (caching : Bool) (k : L) (really : Bool)
  | sync (nfh : NfsFh3)
  | purge
  | closeInactive

section
variable {L R : Type} (w : World L R)

/-- `FdStep op cs s s'`: the use `op` leads from `s` to `s'`, and makes the calls `cs`. -/
inductive FdStep : FdOp L → List (SysCall × Int) → Server L R → Server L R → Prop
  | outside (s : Server L R) (k : L) : FdStep (.outside k) [] s { s with kernel := k }
  | refused {path : CStr} {nfh : NfsFh3} {kind : FdKind} {caching really : Bool} {k : L}
    {s s' : Server L R} (h : fdOpen w path nfh kind caching s = (.ok (-1), s')) :
    FdStep (.access path nfh kind caching k really) (calls w s s') s s'
  | access {path : CStr} {nfh : NfsFh3} {kind : FdKind} {caching really : Bool} {k : L} {fd r : Int}
    {s s1 s' : Server L R} (h : fdOpen w path nfh kind caching s = (.ok fd, s1)) (hfd : fd ≠ -1)
    (hclose : fdClose w fd kind really { s1 with kernel := k } = (.ok r, s')) :
    FdStep (.access path nfh kind caching k really)
      (calls w s s1 ++ calls w { s1 with kernel := k } s') s s'
  | sync {nfh : NfsFh3} {r : Int} {s s' : Server L R} (h : fdSync w nfh s = (.ok r, s')) :
    FdStep (.sync nfh) (calls w s s') s s'
  | purge {s s' : Server L R} (h : fdCachePurge w s = (.ok (), s')) :
    FdStep .purge (calls w s s') s s'
  | closeInactive {s s' : Server L R} (h : fdCacheCloseInactive w s = (.ok (), s')) :
    FdStep .closeInactive (calls w s s') s s'

/-- `FdRuns ops log s`: from `fd_cache_init` the uses `ops` led to `s`, and made the calls `log`. -/
inductive FdRuns : List (FdOp L) → List (SysCall × Int) → Server L R → Prop
  | start {s : Server L R} (h : s.fd = {}) : FdRuns [] [] s
  | step {ops : List (FdOp L)} {op : FdOp L} {log cs : List (SysCall × Int)} {s s' : Server L R}
    (h : FdRuns ops log s) (hs : FdStep w op cs s s') : FdRuns (ops ++ [op]) (log ++ cs) s'

end

/-! ## The table -/

/-- The entries with an open descriptor of a kind. -/
def FdCache.openSet (c : FdCache) (kind : FdKind) : Finset Nat :=
  (Finset.range fdEntries).filter fun i => (c.entry i).isOpen = true ∧ (c.entry i).kind = kind

/-- The counter of a kind. -/
def FdCache.counter (c : FdCache) : FdKind → Int
  | .read => c.readers
  | .write => c.writers

/-- Whatever the system calls return: the counters are right, an unused entry is empty, and a file
has one entry of a kind. -/
structure FdTable (c : FdCache) : Prop where
  counter : ∀ kind, c.counter kind = (c.openSet kind).card
  unused : ∀ i < fdEntries, (c.entry i).use = 0 →
    (c.entry i).fd = -1 ∧ (c.entry i).dev = 0 ∧ (c.entry i).ino = 0 ∧ (c.entry i).gen = 0
  keys : ∀ i < fdEntries, ∀ j < fdEntries, (c.entry i).use ≠ 0 → (c.entry j).use ≠ 0 →
    (c.entry i).key = (c.entry j).key → i = j

namespace FdCache

variable (c : FdCache) (i : Nat) (kind kind' : FdKind) (fd t : Int) (ufh : Unfs3Fh)

theorem counter_count (n : Int) :
    (c.count kind n).counter kind' = c.counter kind' + if kind = kind' then n else 0 := by
  cases kind <;> cases kind' <;> simp [count, counter]

theorem counter_shut : (c.shut i).counter kind =
    c.counter kind - if (c.entry i).isOpen = true ∧ (c.entry i).kind = kind then 1 else 0 := by
  rw [shut]
  by_cases hopen : (c.entry i).isOpen = true
  · rw [if_pos hopen]
    have hcount := counter_count c (c.entry i).kind kind (-1)
    simp only [hopen, true_and]
    split at hcount
    · rename_i h
      rw [if_pos h]
      exact hcount
    · rename_i h
      rw [if_neg h, Int.sub_zero]
      exact hcount.trans (Int.add_zero _)
  · simp [hopen]

theorem mem_openSet {c : FdCache} {kind : FdKind} {i : Nat} : i ∈ c.openSet kind ↔
    i < fdEntries ∧ (c.entry i).isOpen = true ∧ (c.entry i).kind = kind := by
  rw [openSet, Finset.mem_filter, Finset.mem_range]

theorem openSet_shut : (c.shut i).openSet kind = (c.openSet kind).erase i := by
  ext j
  rw [Finset.mem_erase, mem_openSet, mem_openSet, entry_shut]
  by_cases hj : j = i
  · simp [hj, FdEntry.isOpen]
  · simp [hj]

theorem openSet_clear : ((c.shut i).clear i).openSet kind = (c.shut i).openSet kind := by
  ext j
  rw [mem_openSet, mem_openSet, entry_clear]
  by_cases hj : j = i
  · simp [hj, FdEntry.isOpen]
  · simp [hj]

theorem openSet_touch : (c.touch i t).openSet kind = c.openSet kind := by
  ext j
  rw [mem_openSet, mem_openSet, entry_touch]
  by_cases hj : j = i
  · simp [hj, FdEntry.isOpen]
  · simp [hj]

theorem openSet_put {c : FdCache} {i : Nat} (hi : i < fdEntries)
    (hopen : (c.entry i).isOpen = false) (hfd : fd ≠ -1) :
    (c.put i fd ufh kind t).openSet kind' =
      if kind = kind' then insert i (c.openSet kind') else c.openSet kind' := by
  have hmem : ∀ j, j ∈ (c.put i fd ufh kind t).openSet kind' ↔
      (j = i ∧ kind = kind') ∨ j ∈ c.openSet kind' := by
    intro j
    rw [mem_openSet, mem_openSet, entry_put]
    by_cases hj : j = i
    · subst hj
      have hopen' : (c.entry j).fd = -1 := by simpa [FdEntry.isOpen] using hopen
      simp [hi, hopen', FdEntry.isOpen, hfd]
    · simp [hj]
  ext j
  rw [hmem]
  split
  · rename_i h
    simp [h]
  · rename_i h
    simp [h]

end FdCache

section
variable {c : FdCache} {i : Nat} {kind : FdKind} {fd t : Int} {ufh : Unfs3Fh}

/-- An entry with a descriptor is in use. -/
theorem FdTable.use (h : FdTable c) (hi : i < fdEntries) (hfd : (c.entry i).fd ≠ -1) :
    (c.entry i).use ≠ 0 :=
  fun huse => hfd (h.unused i hi huse).1

theorem fdTable_init : FdTable {} where
  counter kind := by
    have hempty : FdCache.openSet {} kind = ∅ := by
      ext i
      simp [FdCache.mem_openSet, FdEntry.isOpen]
    rw [hempty]
    cases kind <;> rfl
  unused _ _ _ := ⟨rfl, rfl, rfl, rfl⟩
  keys _ _ _ _ huse := absurd rfl huse

theorem FdTable.shut (h : FdTable c) (hi : i < fdEntries) : FdTable (c.shut i) where
  counter kind := by
    rw [FdCache.counter_shut, FdCache.openSet_shut, h.counter]
    by_cases hmem : i ∈ c.openSet kind
    · rw [if_pos (FdCache.mem_openSet.1 hmem).2, Finset.card_erase_of_mem hmem]
      have hpos := Finset.card_pos.2 ⟨i, hmem⟩
      omega
    · rw [if_neg fun hopen => hmem (FdCache.mem_openSet.2 ⟨hi, hopen⟩),
        Finset.erase_eq_of_notMem hmem, Int.sub_zero]
  unused j hj huse := by
    rw [FdCache.entry_shut] at huse ⊢
    split at huse
    · rename_i hji
      rw [if_pos hji]
      exact ⟨rfl, (h.unused j hj huse).2⟩
    · rename_i hji
      rw [if_neg hji]
      exact h.unused j hj huse
  keys j hj k hk hjuse hkuse hkey := by
    have huse : ∀ j, ((c.shut i).entry j).use = (c.entry j).use := by
      intro j
      rw [FdCache.entry_shut]
      split <;> rfl
    have hkeys : ∀ j, ((c.shut i).entry j).key = (c.entry j).key := by
      intro j
      rw [FdCache.entry_shut]
      split <;> rfl
    rw [huse] at hjuse hkuse
    rw [hkeys, hkeys] at hkey
    exact h.keys j hj k hk hjuse hkuse hkey

/-- An entry without a descriptor is given up. -/
theorem FdTable.clear (h : FdTable (c.shut i)) : FdTable ((c.shut i).clear i) where
  counter kind := by
    rw [FdCache.openSet_clear, ← h.counter]
    cases kind <;> rfl
  unused j hj huse := by
    rw [FdCache.entry_clear] at huse ⊢
    split at huse
    · rename_i hji
      rw [if_pos hji]
      exact ⟨rfl, rfl, rfl, rfl⟩
    · rename_i hji
      rw [if_neg hji]
      exact h.unused j hj huse
  keys j hj k hk hjuse hkuse hkey := by
    have hne : ∀ j, (((c.shut i).clear i).entry j).use ≠ 0 → j ≠ i := by
      rintro j huse rfl
      simp at huse
    have hj' := hne j hjuse
    have hk' := hne k hkuse
    rw [FdCache.entry_clear, if_neg hj'] at hjuse hkey
    rw [FdCache.entry_clear, if_neg hk'] at hkuse hkey
    exact h.keys j hj k hk hjuse hkuse hkey

theorem FdTable.touch (h : FdTable c) (huse : (c.entry i).use ≠ 0) (ht : t ≠ 0) :
    FdTable (c.touch i t) where
  counter kind := by
    rw [FdCache.openSet_touch, ← h.counter]
    cases kind <;> rfl
  unused j hj hzero := by
    rw [FdCache.entry_touch] at hzero ⊢
    split at hzero
    · exact absurd hzero ht
    · rename_i hji
      rw [if_neg hji]
      exact h.unused j hj hzero
  keys j hj k hk hjuse hkuse hkey := by
    have hin : ∀ j, ((c.touch i t).entry j).use ≠ 0 → (c.entry j).use ≠ 0 := by
      intro j hj
      rw [FdCache.entry_touch] at hj
      split at hj
      · rename_i hji
        rwa [hji]
      · exact hj
    have hkeys : ∀ j, ((c.touch i t).entry j).key = (c.entry j).key := by
      intro j
      rw [FdCache.entry_touch]
      split <;> rfl
    rw [hkeys, hkeys] at hkey
    exact h.keys j hj k hk (hin j hjuse) (hin k hkuse) hkey

/-- An unused entry is given to a file that has none. -/
theorem FdTable.put (h : FdTable c) (hunused : c.unused = some i) (hnew : c.idxByFh ufh kind = none)
    (hfd : fd ≠ -1)
    (ht : t ≠ 0) : FdTable (c.put i fd ufh kind t) := by
  obtain ⟨hi, huse⟩ := FdCache.unused_eq_some hunused
  have hopen : (c.entry i).isOpen = false := by simp [FdEntry.isOpen, (h.unused i hi huse).1]
  refine ⟨fun kind' => ?_, fun j hj hzero => ?_, fun j hj k hk hjuse hkuse hkey => ?_⟩
  · rw [FdCache.openSet_put kind kind' fd t ufh hi hopen hfd]
    have hcount : (c.put i fd ufh kind t).counter kind' = c.counter kind' +
      if kind = kind' then 1 else 0 :=
      FdCache.counter_count c kind kind' 1
    rw [hcount, h.counter]
    split
    · have hmem : i ∉ c.openSet kind' := by
        intro hmem
        rw [(FdCache.mem_openSet.1 hmem).2.1] at hopen
        cases hopen
      rw [Finset.card_insert_of_notMem hmem]
      rfl
    · exact Int.add_zero _
  · rw [FdCache.entry_put] at hzero ⊢
    split at hzero
    · exact absurd hzero ht
    · rename_i hji
      rw [if_neg hji]
      exact h.unused j hj hzero
  · have hother : ∀ j, j < fdEntries → j ≠ i →
      ((c.put i fd ufh kind t).entry j).key ≠ ufh.key kind := by
      intro j hj hji
      rw [FdCache.entry_put, if_neg hji]
      exact FdCache.idxByFh_eq_none hnew hj
    have hown : ((c.put i fd ufh kind t).entry i).key = ufh.key kind := by
      rw [FdCache.entry_put, if_pos rfl]
      rfl
    by_cases hji : j = i
    · by_cases hki : k = i
      · rw [hji, hki]
      · rw [hji, hown] at hkey
        exact absurd hkey.symm (hother k hk hki)
    · by_cases hki : k = i
      · rw [hki, hown] at hkey
        exact absurd hkey (hother j hj hji)
      · rw [FdCache.entry_put, if_neg hji] at hjuse hkey
        rw [FdCache.entry_put, if_neg hki] at hkuse hkey
        exact h.keys j hj k hk hjuse hkuse hkey

end

/-! ## Descriptors -/

/-- The descriptor a call has obtained. -/
def fdAcquired : SysCall × Int → Option Int
  | (.open_ .., fd) => if fd = -1 then none else some fd
  | _ => none

/-- The descriptor a call has closed. -/
def fdReleased : SysCall × Int → Option Int
  | (.close fd, _) => some fd
  | _ => none

theorem fdAcquired_ne {x : SysCall × Int} {fd : Int} (h : fdAcquired x = some fd) : fd ≠ -1 := by
  obtain ⟨c, v⟩ := x
  cases c with
  | open_ path flags mode =>
    rw [fdAcquired] at h
    split at h
    · cases h
    · rename_i hne
      rwa [← Option.some.inj h]
  | _ => cases h

/-- The descriptor is held according to the log. -/
abbrev fdHeld (log : List (SysCall × Int)) (fd : Int) : Bool :=
    Ledger.held fdAcquired fdReleased log fd

/-- `open` has returned no number that was in use. -/
abbrev FdFair (log : List (SysCall × Int)) : Prop := Ledger.Fair fdAcquired fdReleased log

/-- Only descriptors that were held have been closed. -/
abbrev FdProper (log : List (SysCall × Int)) : Prop := Ledger.Proper fdAcquired fdReleased log

/-- The descriptors held are those of the table, once each, and `lone`. -/
structure FdOwn (log : List (SysCall × Int)) (lone : Option Int) (c : FdCache) : Prop where
  fds : ∀ i < fdEntries, ∀ j < fdEntries, (c.entry i).fd ≠ -1 →
    (c.entry i).fd = (c.entry j).fd → i = j
  held : ∀ fd, fd ≠ -1 →
    (fdHeld log fd = true ↔ lone = some fd ∨ ∃ i < fdEntries, (c.entry i).fd = fd)
  apart : ∀ fd, lone = some fd → fd ≠ -1 ∧ ∀ i < fdEntries, (c.entry i).fd ≠ fd
  proper : FdProper log

/-- The table is right, and the descriptors are if no number in use was handed out. -/
structure FdInv (log : List (SysCall × Int)) (lone : Option Int) (c : FdCache) : Prop where
  table : FdTable c
  own : FdFair log → FdOwn log lone c

section
variable {log : List (SysCall × Int)} {lone : Option Int} {c : FdCache} {fd v : Int}

theorem fdHeld_open (log : List (SysCall × Int)) (path : CStr) (kind : FdKind) (hfd : fd ≠ -1)
    (a : Int) :
    fdHeld (log ++ [(fdOpenCall path kind, fd)]) a = if a = fd then true else fdHeld log a := by
  rw [fdHeld, Ledger.held_concat, Ledger.heldStep]
  by_cases ha : a = fd
  · simp [fdOpenCall, fdAcquired, hfd, ha]
  · simp [fdOpenCall, fdAcquired, fdReleased, hfd, ha, Ne.symm ha]

theorem fdHeld_refused (log : List (SysCall × Int)) (path : CStr) (kind : FdKind) (a : Int) :
    fdHeld (log ++ [(fdOpenCall path kind, -1)]) a = fdHeld log a := by
  rw [fdHeld, Ledger.held_concat, Ledger.heldStep]
  simp [fdOpenCall, fdAcquired, fdReleased]

theorem fdHeld_fsync (log : List (SysCall × Int)) (fd v a : Int) :
    fdHeld (log ++ [(.fsync fd, v)]) a = fdHeld log a := by
  rw [fdHeld, Ledger.held_concat, Ledger.heldStep]
  simp [fdAcquired, fdReleased]

theorem fdHeld_close (log : List (SysCall × Int)) (fd v a : Int) :
    fdHeld (log ++ [(.close fd, v)]) a = if a = fd then false else fdHeld log a := by
  rw [fdHeld, Ledger.held_concat, Ledger.heldStep]
  by_cases ha : a = fd
  · simp [fdAcquired, fdReleased, ha]
  · simp [fdAcquired, fdReleased, ha, Ne.symm ha]

theorem fdProper_fsync (h : FdProper log) (fd v : Int) : FdProper (log ++ [(.fsync fd, v)]) :=
  h.concat nofun

theorem fdProper_open (h : FdProper log) (path : CStr) (kind : FdKind) (fd : Int) :
    FdProper (log ++ [(fdOpenCall path kind, fd)]) := h.concat nofun

theorem fdProper_close (h : FdProper log) (hheld : fdHeld log fd = true) (v : Int) :
    FdProper (log ++ [(.close fd, v)]) := by
  refine h.concat fun a ha => ?_
  cases ha
  exact hheld

/-- Closing a descriptor, with a sync or without. -/
theorem fdHeld_closeCalls {L R : Type} {w : World L R} (log : List (SysCall × Int)) (fd : Int)
    (kind : FdKind) (k : L)
    (a : Int) : fdHeld (log ++ closeCalls w fd kind k) a =
      if a = fd then false else fdHeld log a := by
  cases kind with
  | read => exact fdHeld_close log fd _ a
  | write =>
    rw [closeCalls, List.append_cons, fdHeld_close, fdHeld_fsync]

theorem fdProper_closeCalls {L R : Type} {w : World L R} (h : FdProper log)
    (hheld : fdHeld log fd = true)
    (kind : FdKind) (k : L) : FdProper (log ++ closeCalls w fd kind k) := by
  cases kind with
  | read => exact fdProper_close h hheld _
  | write =>
    rw [closeCalls, List.append_cons]
    exact fdProper_close (fdProper_fsync h fd _) (by rw [fdHeld_fsync, hheld]) _

/-! ## Steps -/

theorem fdInv_init : FdInv [] none {} where
  table := fdTable_init
  own _ :=
    { fds := fun _ _ _ _ hfd => absurd rfl hfd
      held := fun fd hfd => by
        constructor
        · intro h
          cases h
        · rintro (h | ⟨_, _, h⟩)
          · cases h
          · exact absurd h.symm hfd
      apart := nofun
      proper := Ledger.proper_nil }

theorem FdInv.refused (h : FdInv log lone c) (path : CStr) (kind : FdKind) :
    FdInv (log ++ [(fdOpenCall path kind, -1)]) lone c where
  table := h.table
  own hfair :=
    { h.own hfair.left with
      held := fun fd hfd => by rw [fdHeld_refused, (h.own hfair.left).held fd hfd]
      proper := fdProper_open (h.own hfair.left).proper _ _ _ }

theorem FdInv.opened (h : FdInv log none c) (path : CStr) (kind : FdKind) (hfd : fd ≠ -1) :
    FdInv (log ++ [(fdOpenCall path kind, fd)]) (some fd) c where
  table := h.table
  own hfair := by
    have hown := h.own hfair.left
    -- the number was not in use, so it is in no entry
    have hnew : fdHeld log fd = false := hfair.last (by simp [fdOpenCall, fdAcquired, hfd])
    have hout : ∀ i < fdEntries, (c.entry i).fd ≠ fd := by
      intro i hi hent
      rw [(hown.held fd hfd).2 (.inr ⟨i, hi, hent⟩)] at hnew
      cases hnew
    refine { hown with held := fun a ha => ?_, apart := fun a ha => ?_
                       proper := fdProper_open hown.proper _ _ _ }
    · rw [fdHeld_open log path kind hfd]
      split
      · rename_i hafd
        simp [hafd]
      · rename_i hafd
        rw [hown.held a ha]
        simp [Ne.symm hafd]
    · cases ha
      exact ⟨hfd, hout⟩

/-- The descriptor without an entry is closed. -/
theorem FdInv.released (h : FdInv log (some fd) c) {cs : List (SysCall × Int)}
    (hheld : ∀ a, fdHeld (log ++ cs) a = if a = fd then false else fdHeld log a)
    (hproper : FdProper log → fdHeld log fd = true → FdProper (log ++ cs)) :
    FdInv (log ++ cs) none c where
  table := h.table
  own hfair := by
    have hown := h.own hfair.left
    obtain ⟨hfd, hout⟩ := hown.apart fd rfl
    refine { hown with held := fun a ha => ?_, apart := nofun, proper := hproper hown.proper ?_ }
    · rw [hheld]
      split
      · rename_i hafd
        subst hafd
        simpa using hout
      · rename_i hafd
        rw [hown.held a ha]
        simp [Ne.symm hafd]
    · exact (hown.held fd hfd).2 (.inl rfl)

/-- An entry is given to the descriptor without one. -/
theorem FdInv.put {i : Nat} {ufh : Unfs3Fh} {kind : FdKind} {t : Int} (h : FdInv log (some fd) c)
    (hunused : c.unused = some i) (hnew : c.idxByFh ufh kind = none) (hfd : fd ≠ -1) (ht : t ≠ 0) :
    FdInv log none (c.put i fd ufh kind t) where
  table := h.table.put hunused hnew hfd ht
  own hfair := by
    have hown := h.own hfair
    obtain ⟨hi, huse⟩ := FdCache.unused_eq_some hunused
    obtain ⟨-, hout⟩ := hown.apart fd rfl
    have hshut := (h.table.unused i hi huse).1
    have hent : ∀ j, ((c.put i fd ufh kind t).entry j).fd =
      if j = i then fd else (c.entry j).fd := by
      intro j
      rw [FdCache.entry_put]
      split <;> rfl
    refine { fds := fun j hj k hk hjfd heq => ?_, held := fun a ha => ?_, apart := nofun
             proper := hown.proper }
    · rw [hent] at hjfd heq
      rw [hent] at heq
      split at heq
      · rename_i hji
        split at heq
        · rename_i hki
          rw [hji, hki]
        · exact absurd heq.symm (hout k hk)
      · rename_i hji
        rw [if_neg hji] at hjfd
        split at heq
        · exact absurd heq (hout j hj)
        · exact hown.fds j hj k hk hjfd heq
    · rw [hown.held a ha]
      simp only [Option.some.injEq, reduceCtorEq, false_or, hent]
      constructor
      · rintro (rfl | ⟨j, hj, rfl⟩)
        · exact ⟨i, hi, if_pos rfl⟩
        · refine ⟨j, hj, if_neg ?_⟩
          rintro rfl
          exact ha hshut
      · rintro ⟨j, hj, heq⟩
        split at heq
        · exact .inl heq
        · exact .inr ⟨j, hj, heq⟩

theorem FdInv.touch {i : Nat} {t : Int} (h : FdInv log lone c) (huse : (c.entry i).use ≠ 0)
    (ht : t ≠ 0) :
    FdInv log lone (c.touch i t) where
  table := h.table.touch huse ht
  own hfair := by
    have hent : ∀ j, ((c.touch i t).entry j).fd = (c.entry j).fd := by
      intro j
      rw [FdCache.entry_touch]
      split <;> rfl
    have hown := h.own hfair
    refine { fds := ?_, held := ?_, apart := ?_, proper := hown.proper }
    · simpa only [hent] using hown.fds
    · simpa only [hent] using hown.held
    · simpa only [hent] using hown.apart

/-- The descriptor of an entry is closed. -/
theorem FdOwn.shut {i : Nat} {cs : List (SysCall × Int)} {c' : FdCache} (h : FdOwn log lone c)
    (hi : i < fdEntries)
    (hopen : (c.entry i).fd ≠ -1)
    (hheld : ∀ a, fdHeld (log ++ cs) a = if a = (c.entry i).fd then false else fdHeld log a)
    (hproper : FdProper (log ++ cs))
    (hent : ∀ j, (c'.entry j).fd = if j = i then -1 else (c.entry j).fd) :
    FdOwn (log ++ cs) lone c' := by
  have hlone : lone ≠ some (c.entry i).fd := fun hl => (h.apart _ hl).2 i hi rfl
  refine { fds := fun j hj k hk hjfd heq => ?_, held := fun a ha => ?_
           apart := fun a ha => ?_, proper := hproper }
  · rw [hent] at hjfd heq
    rw [hent] at heq
    split at hjfd
    · exact absurd rfl hjfd
    · rename_i hji
      rw [if_neg hji] at heq
      split at heq
      · exact absurd heq hjfd
      · exact h.fds j hj k hk hjfd heq
  · rw [hheld]
    simp only [hent]
    split
    · rename_i hai
      subst hai
      simp only [Bool.false_eq_true, false_iff, not_or, not_exists, not_and]
      refine ⟨hlone, fun j hj heq => ?_⟩
      split at heq
      · exact hopen heq.symm
      · rename_i hji
        exact hji (h.fds i hi j hj hopen heq.symm).symm
    · rename_i hai
      rw [h.held a ha]
      refine or_congr Iff.rfl (exists_congr fun j => and_congr Iff.rfl ?_)
      split
      · rename_i hji
        subst hji
        exact ⟨fun heq => absurd heq.symm hai, fun heq => absurd heq.symm ha⟩
      · exact Iff.rfl
  · refine ⟨(h.apart a ha).1, fun j hj => ?_⟩
    rw [hent]
    split
    · exact (h.apart a ha).1.symm
    · exact (h.apart a ha).2 j hj

end

section
variable {L R : Type} {w : World L R} {log : List (SysCall × Int)} {lone : Option Int}
  {s s' : Server L R}

theorem FdInv.del {i : Nat} {keep : Bool} (h : FdInv log lone s.fd) (hi : i < fdEntries)
    (hdel : Deleted w i keep s s') : FdInv (log ++ (s.fd.entry i).calls w s.kernel) lone s'.fd := by
  have hfd : s'.fd = s.fd.shut i ∨ s'.fd = (s.fd.shut i).clear i := by
    by_cases hk : (s.fd.entry i).Fails w s.kernel ∧ keep = true
    · exact .inl (hdel.kept hk.1 hk.2)
    · exact .inr (hdel.gone hk)
  have hent : ∀ j, (s'.fd.entry j).fd = if j = i then -1 else (s.fd.entry j).fd := by
    intro j
    rcases hfd with hfd | hfd <;> rw [hfd] <;> by_cases hji : j = i <;> simp [hji]
  refine ⟨?_, fun hfair => ?_⟩
  · rcases hfd with hfd | hfd <;> rw [hfd]
    · exact h.table.shut hi
    · exact (h.table.shut hi).clear
  have hown := h.own hfair.left
  by_cases hopen : (s.fd.entry i).isOpen = true
  · have hne : (s.fd.entry i).fd ≠ -1 := by simpa [FdEntry.isOpen] using hopen
    rw [FdEntry.calls, if_pos hopen]
    refine hown.shut hi hne (fdHeld_closeCalls log _ _ _)
      (fdProper_closeCalls hown.proper ?_ _ _) hent
    exact (hown.held _ hne).2 (.inr ⟨i, hi, rfl⟩)
  · have hne : (s.fd.entry i).fd = -1 := by simpa [FdEntry.isOpen] using hopen
    have hsame : ∀ j, (s'.fd.entry j).fd = (s.fd.entry j).fd := by
      intro j
      rw [hent]
      split
      · rename_i hji
        rw [hji, hne]
      · rfl
    rw [FdEntry.calls, if_neg hopen, List.append_nil]
    refine { fds := ?_, held := ?_, apart := ?_, proper := hown.proper }
    · simpa only [hsame] using hown.fds
    · simpa only [hsame] using hown.held
    · simpa only [hsame] using hown.apart

theorem FdInv.sweep {P : Nat → Bool → Prop} {cs : List (SysCall × Int)}
    (hP : ∀ i keep, P i keep → i < fdEntries)
    (hsweep : Sweep w P cs s s') (h : FdInv log lone s.fd) : FdInv (log ++ cs) lone s'.fd := by
  induction hsweep generalizing log with
  | done s => rwa [List.append_nil]
  | del hi hdel _ ih =>
    rw [← List.append_assoc]
    exact ih (h.del (hP _ _ hi) hdel)

/-- What `fd_open` returns is in an entry of its kind, or held without one. -/
def FdGot (log : List (SysCall × Int)) (fd : Int) (kind : FdKind) (c : FdCache) : Prop :=
  (FdInv log none c ∧ ∃ i < fdEntries, (c.entry i).fd = fd ∧ (c.entry i).kind = kind) ∨
    FdInv log (some fd) c

variable (htime : ∀ k, w.time k ≠ 0)
include htime

theorem FdInv.fdOpen {path : CStr} {ufh : Unfs3Fh} {kind : FdKind} {caching : Bool} {fd : Int}
    (h : FdInv log none s.fd) (hrun : FdOpened w path ufh kind caching s fd s') :
    ∃ cs, Did w cs s s' ∧ (fd = -1 → FdInv (log ++ cs) none s'.fd) ∧
      (fd ≠ -1 → FdGot (log ++ cs) fd kind s'.fd) := by
  cases hrun with
  | pending hidx hfd hdel =>
    obtain ⟨hi, -⟩ := FdCache.idxByFh_eq_some hidx
    exact ⟨_, hdel.did, fun _ => h.del hi hdel, fun hne => absurd rfl hne⟩
  | cached hidx hfd =>
    obtain ⟨hi, hkey⟩ := FdCache.idxByFh_eq_some hidx
    refine ⟨[], .refl s, fun heq => absurd heq hfd,
      fun _ => .inl ⟨by rwa [List.append_nil], _, hi, rfl, ?_⟩⟩
    exact congrArg (·.2.2.2) hkey
  | refused hidx hside hdid =>
    refine ⟨_, hdid, fun _ => ?_, fun hne => absurd rfl hne⟩
    rw [hside]
    exact h.refused path kind
  | @raced fd _ hidx hfd hside hdid =>
    obtain ⟨v, hdid⟩ := hdid
    refine ⟨_, hdid, fun _ => ?_, fun hne => absurd rfl hne⟩
    rw [hside, List.append_cons]
    exact (h.opened path kind hfd).released (fdHeld_close _ _ _) fun hp hh => fdProper_close hp hh _
  | @opened _ s1 hidx hfd hside hdid hfile =>
    refine ⟨_, hdid.own rfl rfl, fun heq => absurd heq hfd, fun _ => ?_⟩
    have hopened := h.opened path kind hfd
    have ht := htime s1.kernel
    dsimp only
    cases caching with
    | false => exact .inr hopened
    | true =>
      rw [if_pos rfl, FdCache.add]
      cases hunused : s.fd.unused with
      | none => exact .inr hopened
      | some i =>
        refine .inl ⟨hopened.put hunused hidx hfd ht, i, (FdCache.unused_eq_some hunused).1, ?_⟩
        simp

theorem FdInv.fdClose {kind : FdKind} {really : Bool} {fd r : Int} (h : FdGot log fd kind s.fd)
    (hfd : fd ≠ -1)
    (hrun : FdClosed w fd kind really s r s') :
    ∃ cs, Did w cs s s' ∧ FdInv (log ++ cs) none s'.fd := by
  -- a descriptor that is found has an entry
  have hfound : ∀ idx, s.fd.idxByFd fd kind = some idx →
    idx < fdEntries ∧ (s.fd.entry idx).use ≠ 0 ∧
      FdInv log none s.fd := by
    intro idx hidx
    obtain ⟨hi, hent, -⟩ := FdCache.idxByFd_eq_some hidx
    rcases h with ⟨h, -⟩ | h
    · exact ⟨hi, h.table.use hi (by rwa [hent]), h⟩
    · refine ⟨hi, h.table.use hi (by rwa [hent]), h.table, fun hfair => ?_⟩
      exact absurd hent (((h.own hfair).apart fd rfl).2 idx hi)
  cases hrun with
  | stays hidx hreal =>
    obtain ⟨hi, huse, hinv⟩ := hfound _ hidx
    refine ⟨[], (Did.refl s).own rfl rfl, ?_⟩
    rw [List.append_nil]
    exact hinv.touch huse (htime _)
  | deleted hidx hreal hr hdel =>
    obtain ⟨hi, huse, hinv⟩ := hfound _ hidx
    exact ⟨_, hdel.did, (hinv.touch huse (htime _)).del (s := { s with fd := _ }) hi hdel⟩
  | lone hidx hside hdid =>
    rcases h with ⟨-, i, hi, hent⟩ | h
    · exact absurd hent (FdCache.idxByFd_eq_none hidx hi)
    · refine ⟨_, hdid, ?_⟩
      rw [hside]
      exact h.released (fdHeld_closeCalls _ _ _ _) fun hp hh => fdProper_closeCalls hp hh _ _

omit htime in
theorem FdInv.closeInactive (h : FdInv log none s.fd)
    (hrun : fdCacheCloseInactive w s = (.ok (), s')) :
    ∃ cs, Did w cs s s' ∧ FdInv (log ++ cs) none s'.fd := by
  obtain ⟨cs, s1, -, hsweep, hend⟩ := fdCacheCloseInactive_run (w := w) s
  have h1 := h.sweep (fun i keep hi => List.mem_range.1 hi.1) hsweep
  rcases hend with hend | ⟨-, cs', s2, hsweep', hend⟩
  · obtain ⟨-, rfl⟩ := Prod.mk.inj (hrun.symm.trans hend)
    exact ⟨cs, hsweep.did, h1⟩
  · obtain ⟨-, rfl⟩ := Prod.mk.inj (hrun.symm.trans hend)
    refine ⟨cs ++ cs', (hsweep.did.trans hsweep'.did).own rfl rfl, ?_⟩
    rw [← List.append_assoc]
    have h2 := h1.sweep (fun i keep hi => List.mem_range.1 (List.mem_filter.1 hi.1).1) hsweep'
    exact h2

/-- A step keeps the invariant. -/
theorem FdStep.inv {op : FdOp L} {cs : List (SysCall × Int)} (h : FdInv log none s.fd)
    (hs : FdStep w op cs s s') :
    FdInv (log ++ cs) none s'.fd := by
  cases hs with
  | outside s k => rwa [List.append_nil]
  | @refused path nfh kind caching _ _ _ _ hrun =>
    obtain ⟨fd, s1, hrun', hopened⟩ := fdOpen_run (w := w) path nfh kind caching s
    obtain ⟨hfd, rfl⟩ := Prod.mk.inj (hrun.symm.trans hrun')
    obtain ⟨cs, hdid, hinv, -⟩ := h.fdOpen htime hopened
    rw [hdid.calls]
    exact hinv (Except.ok.inj hfd).symm
  | @access path nfh kind caching really k fd r _ s1 _ hrun hfd hclose =>
    obtain ⟨fd', s1', hrun', hopened⟩ := fdOpen_run (w := w) path nfh kind caching s
    obtain ⟨hfd', rfl⟩ := Prod.mk.inj (hrun.symm.trans hrun')
    cases hfd'
    obtain ⟨r', s2, hclose', hclosed⟩ := fdClose_run (w := w) fd kind really { s1 with kernel := k }
    obtain ⟨hr, rfl⟩ := Prod.mk.inj (hclose.symm.trans hclose')
    obtain ⟨cs1, hdid1, -, hgot⟩ := h.fdOpen htime hopened
    obtain ⟨cs2, hdid2, hinv⟩ :=
      FdInv.fdClose htime (s := { s1 with kernel := k }) (hgot hfd) hfd hclosed
    rw [hdid1.calls, hdid2.calls, ← List.append_assoc]
    exact hinv
  | @sync nfh r _ _ hrun =>
    obtain ⟨r', s1, hrun', hcases⟩ := fdSync_run (w := w) nfh s
    obtain ⟨-, rfl⟩ := Prod.mk.inj (hrun.symm.trans hrun')
    rcases hcases with ⟨-, -, rfl⟩ | ⟨idx, hidx, -, hdel⟩
    · rwa [(Did.refl (w := w) s').calls, List.append_nil]
    · rw [hdel.did.calls]
      exact h.del (FdCache.idxByFh_eq_some hidx).1 hdel
  | purge hrun =>
    obtain ⟨cs, s1, hrun', hsweep⟩ := fdCachePurge_run (w := w) s
    obtain ⟨-, rfl⟩ := Prod.mk.inj (hrun.symm.trans hrun')
    rw [hsweep.did.calls]
    exact h.sweep (fun i keep hi => List.mem_range.1 hi.1) hsweep
  | closeInactive hrun =>
    obtain ⟨cs, hdid, hinv⟩ := h.closeInactive hrun
    rwa [hdid.calls]

/-- The invariant holds after every run. -/
theorem FdRuns.inv {ops : List (FdOp L)} (h : FdRuns w ops log s) : FdInv log none s.fd := by
  induction h with
  | start hinit =>
    rw [hinit]
    exact fdInv_init
  | step _ hs ih => exact hs.inv htime ih

end

/-! ## The representation -/

/-- The representation of the cache, and what has become of the descriptors obtained from `open`. -/
structure FdRep (log : List (SysCall × Int)) (c : FdCache) : Prop where
  readers : c.readers = (c.openSet .read).card
  writers : c.writers = (c.openSet .write).card
  unused : ∀ i < fdEntries, (c.entry i).use = 0 →
    (c.entry i).fd = -1 ∧ (c.entry i).dev = 0 ∧ (c.entry i).ino = 0 ∧ (c.entry i).gen = 0
  keys : ∀ i < fdEntries, ∀ j < fdEntries, (c.entry i).use ≠ 0 → (c.entry j).use ≠ 0 →
    (c.entry i).key = (c.entry j).key → i = j
  fds : ∀ i < fdEntries, ∀ j < fdEntries, (c.entry i).fd ≠ -1 →
    (c.entry i).fd = (c.entry j).fd → i = j
  /-- After the call that has returned `fd`: it is open and in one entry, or was closed once before
  `open` has returned it again. -/
  once : ∀ pre x post fd, log = pre ++ x :: post → fdAcquired x = some fd →
    (Ledger.releases fdAcquired fdReleased fd post = 0 ∧ (∀ y ∈ post, fdAcquired y ≠ some fd) ∧
      ∃! i, i < fdEntries ∧ (c.entry i).fd = fd) ∨
    Ledger.releases fdAcquired fdReleased fd post = 1
  /-- Nothing else was closed. -/
  closed : FdProper log

theorem FdInv.rep {log : List (SysCall × Int)} {c : FdCache} (h : FdInv log none c)
    (hfair : FdFair log) :
    FdRep log c := by
  have hown := h.own hfair
  refine { readers := h.table.counter .read, writers := h.table.counter .write
           unused := h.table.unused
           keys := h.table.keys, fds := hown.fds, closed := hown.proper, once := ?_ }
  rintro pre x post fd rfl hx
  rcases Ledger.released_once hfair hown.proper hx with ⟨hheld, hlast, hzero⟩ | ⟨hone, -⟩
  · refine .inl ⟨hzero, hlast, ?_⟩
    have hfd := fdAcquired_ne hx
    rcases (hown.held fd hfd).1 hheld with hlone | ⟨i, hi, hent⟩
    · cases hlone
    · refine ⟨i, ⟨hi, hent⟩, fun j hj => ?_⟩
      exact hown.fds j hj.1 i hi (by rw [hj.2]; exact hfd) (hj.2.trans hent.symm)
  · exact .inr hone

/-- **The descriptor cache, in every run.** The counters are right, unused entries are empty, no two
entries in use are for the same file and kind or hold the same descriptor, and every descriptor
obtained from `open` is in one entry or was closed once. -/
theorem fd_cache_rep {L R : Type} (w : World L R) (ops : List (FdOp L)) (log : List (SysCall × Int))
    (s : Server L R)
    (htime : ∀ k, w.time k ≠ 0) (hfair : FdFair log) (h : FdRuns w ops log s) : FdRep log s.fd :=
  (h.inv htime).rep hfair

/-- A file is opened for writing, and its descriptor stays in the cache. -/
def diskWrite : FdOp Sandbox.Disk := .access (CStr.lit "/f") Sandbox.diskHandle .write true {} false

/-- The daemon before and after it. -/
def diskServer : Server Sandbox.Disk Sandbox.Grid := { kernel := {}, rods := {} }

def writtenServer : Server Sandbox.Disk Sandbox.Grid :=
  (fdClose Sandbox.diskWorld 3 .write false
    { (fdOpen Sandbox.diskWorld (CStr.lit "/f") Sandbox.diskHandle .write true diskServer).2 with
      kernel := {} }).2

theorem written_runs :
    FdRuns Sandbox.diskWorld [diskWrite] [(fdOpenCall (CStr.lit "/f") .write, 3)]
      writtenServer := by
  have hinit : FdRuns Sandbox.diskWorld [] [] diskServer := .start rfl
  have hstep : FdStep Sandbox.diskWorld diskWrite _ diskServer writtenServer :=
    .access rfl (by decide +kernel) rfl
  exact hinit.step hstep

theorem diskWorld_time (k : Sandbox.Disk) : Sandbox.diskWorld.time k ≠ 0 := by
  have hclock : 1 ≤ Sandbox.diskWorld.time k := le_max_left 1 k.now
  omega

theorem fd_cache_rep_disk : (writtenServer.fd.entry 0).fd = 3 ∧
    FdRep [(fdOpenCall (CStr.lit "/f") .write, 3)] writtenServer.fd := by
  refine ⟨by decide +kernel, fd_cache_rep Sandbox.diskWorld _ _ _ diskWorld_time ?_ written_runs⟩
  exact Ledger.fair_nil.concat fun _ _ => rfl

end NfsRods
