import NfsRods.Fh

/-!
# The table of the handle cache

`fh_cache_add` and `fh_cache_lookup` in any order (`FhOp`), on the table alone.

* `FhTable c`: what holds of the table whatever is added and whatever `lstat` answers;
  `FhTable.run`: every use keeps it.
* `oldest_lru`: of a full table, the entry that is given up is the oldest apart from the one that
  was returned last.
* `OnTable`: the functions once more, slot by slot, where an access outside of the table stops;
  `FhTable.onTable`: none does.
* `fh_table_rep`: all of this after every run.
-/

namespace NfsRods

/-- The key of an entry. -/
def FhEntry.key (e : FhEntry) : ULong × ULong := (e.dev, e.ino)

@[simp] theorem FhEntry.key_mk (dev ino : ULong) (path : CStr) (use : Nat) :
    (FhEntry.mk dev ino path use).key = (dev, ino) := rfl

namespace FhCache

/-- A hit: entry `i` is used now, and is the one returned last. -/
def touch (c : FhCache) (i : Nat) : FhCache :=
  { c.next.set i { c.entry i with use := c.next.time } with lastEntry := some i }

/-- `fh_cache_lookup` on the table: the path and the attributes on a hit. -/
def lookup (c : FhCache) (lstat : CStr → Except Errno Stat) (dev ino : ULong) :
    Option (CStr × Stat) × FhCache :=
  match c.index dev ino with
  | none => (none, c)
  | some i =>
    match lstat (c.entry i).path with
    | .error _ => (none, c.inval i)
    | .ok buf =>
      if buf.dev = dev ∧ buf.ino = ino then (some ((c.entry i).path, buf), c.touch i)
      else (none, c.inval i)

/-- The entry that `fh_cache_add` writes. -/
def slotFor (c : FhCache) (dev ino : ULong) : Nat := (c.index dev ino).getD c.lru.1

end FhCache

/-- A use of the table. -/
inductive FhOp
  | add (dev ino : ULong) (path : CStr)
  | lookup (dev ino : ULong) (lstat : CStr → Except Errno Stat)

/-- The table after a use. -/
def FhOp.run (c : FhCache) : FhOp → FhCache
  | .add dev ino path => c.add dev ino path
  | .lookup dev ino lstat => (c.lookup lstat dev ino).2

/-- The daemon's `fh_cache_lookup` is that of its table. -/
theorem fhCacheLookup_lookup {L R : Type} (w : World L R) (dev ino : ULong) (s : Server L R) :
    (fhCacheLookup w dev ino s).1 = .ok ((s.fh.lookup (w.lstat s.kernel) dev ino).1.map (·.1)) ∧
      (fhCacheLookup w dev ino s).2.fh = (s.fh.lookup (w.lstat s.kernel) dev ino).2 := by
  unfold fhCacheLookup FhCache.lookup
  cases s.fh.index dev ino with
  | none => exact ⟨rfl, rfl⟩
  | some i =>
    dsimp only
    cases w.lstat s.kernel (s.fh.entry i).path with
    | error e => exact ⟨rfl, rfl⟩
    | ok buf =>
      dsimp only
      split <;> exact ⟨rfl, rfl⟩

/-! ## One use -/

namespace FhCache

variable (c : FhCache) (dev ino : ULong) (path : CStr) (i j : Nat)

theorem entry_set (e : FhEntry) : (c.set i e).entry j = if j = i then e else c.entry j := rfl

theorem entry_inval : (c.inval i).entry j = if j = i then {} else c.entry j := rfl

theorem entry_touch : (c.touch i).entry j =
    if j = i then { c.entry i with use := (c.time + 1) % 2 ^ 32 } else c.entry j := rfl

theorem lru_cases : (c.max < cacheEntries - 1 ∧ c.lru = (c.max, { c with max := c.max + 1 })) ∨
    (cacheEntries - 1 ≤ c.max ∧
      c.lru = (c.lruScan (List.range cacheEntries) (2 ^ 32 - 1) 0, c)) := by
  unfold lru
  split
  · exact .inl ⟨‹_›, rfl⟩
  · exact .inr ⟨by omega, rfl⟩

theorem entry_add : (c.add dev ino path).entry j =
    if j = c.slotFor dev ino then { dev, ino, path, use := (c.time + 1) % 2 ^ 32 }
    else c.entry j := by
  unfold add slotFor
  cases c.index dev ino with
  | some i => rfl
  | none =>
    rcases c.lru_cases with ⟨_, h⟩ | ⟨_, h⟩ <;> rw [h] <;>
      simp only [entry_set, next, Option.getD_none]

theorem time_add : (c.add dev ino path).time = (c.time + 1) % 2 ^ 32 := by
  unfold add
  cases c.index dev ino with
  | some i => rfl
  | none => rcases c.lru_cases with ⟨_, h⟩ | ⟨_, h⟩ <;> rw [h] <;> rfl

theorem lastEntry_add : (c.add dev ino path).lastEntry = c.lastEntry := by
  unfold add
  cases c.index dev ino with
  | some i => rfl
  | none => rcases c.lru_cases with ⟨_, h⟩ | ⟨_, h⟩ <;> rw [h] <;> rfl

theorem max_add : (c.add dev ino path).max =
    if c.index dev ino = none ∧ c.max < cacheEntries - 1 then c.max + 1 else c.max := by
  unfold add
  cases c.index dev ino with
  | some i => rfl
  | none =>
    rcases c.lru_cases with ⟨hlt, h⟩ | ⟨hle, h⟩ <;> rw [h]
    · simp [hlt, next, set]
    · simp [hle.not_gt, next, set]

variable {c dev ino i}

theorem index_eq_some : c.index dev ino = some i ↔
    i ≤ c.max ∧ (c.entry i).key = (dev, ino) ∧ ∀ j < i, (c.entry j).key ≠ (dev, ino) := by
  simp only [index, List.find?_range_eq_some, List.mem_range, FhEntry.key, Prod.mk.injEq,
    Bool.and_eq_true, beq_iff_eq, Bool.not_eq_true', Bool.and_eq_false_iff, beq_eq_false_iff_ne,
    ne_eq, not_and_or, Nat.lt_succ_iff]
  tauto

theorem index_eq_none : c.index dev ino = none ↔ ∀ i ≤ c.max, (c.entry i).key ≠ (dev, ino) := by
  simp [index, FhEntry.key]

/-- What a lookup does: nothing without an entry, else it clears the entry or marks it as used. -/
theorem lookup_cases (c : FhCache) (lstat : CStr → Except Errno Stat) (dev ino : ULong) :
    (c.index dev ino = none ∧ c.lookup lstat dev ino = (none, c)) ∨
    ∃ i, c.index dev ino = some i ∧ (c.lookup lstat dev ino = (none, c.inval i) ∨
      ∃ buf, c.lookup lstat dev ino = (some ((c.entry i).path, buf), c.touch i)) := by
  unfold lookup
  cases hidx : c.index dev ino with
  | none => exact .inl ⟨rfl, rfl⟩
  | some i =>
    refine .inr ⟨i, rfl, ?_⟩
    dsimp only
    cases lstat (c.entry i).path with
    | error e => exact .inl rfl
    | ok buf =>
      dsimp only
      split
      · exact .inr ⟨buf, rfl⟩
      · exact .inl rfl

end FhCache

/-! ## The entry that is given up -/

/-- Entry `i` was used before entry `j`, as far as their times say; the first of two with one time
counts as the older. -/
def FhCache.Older (c : FhCache) (i j : Nat) : Prop :=
  (c.entry i).use < (c.entry j).use ∨ (c.entry i).use = (c.entry j).use ∧ i < j

/-- The entry that a scan has come to after the slots below `n`. -/
structure Best (c : FhCache) (n best bestIdx : Nat) : Prop where
  used : ∀ j < n, c.lastEntry ≠ some j → (c.entry j).use ≠ 0
  best : (best = 2 ^ 32 - 1 ∧ bestIdx = 0 ∧
      ∀ j < n, c.lastEntry ≠ some j → (c.entry j).use = 2 ^ 32 - 1) ∨
    (best < 2 ^ 32 - 1 ∧ bestIdx < n ∧ c.lastEntry ≠ some bestIdx ∧ (c.entry bestIdx).use = best ∧
      ∀ j < n, c.lastEntry ≠ some j → j ≠ bestIdx → c.Older bestIdx j)

/-- `v` is the oldest entry apart from the one that was returned last. -/
def Oldest (c : FhCache) (v : Nat) : Prop :=
  v < cacheEntries ∧ c.lastEntry ≠ some v ∧
    ∀ j < cacheEntries, c.lastEntry ≠ some j → j ≠ v → c.Older v j

theorem Best.skip {c : FhCache} {n best bestIdx : Nat} (h : Best c n best bestIdx)
    (hlast : c.lastEntry = some n) : Best c (n + 1) best bestIdx := by
  have hlt : ∀ j < n + 1, c.lastEntry ≠ some j → j < n := by
    intro j hj hne
    have : j ≠ n := fun he => hne (he ▸ hlast)
    omega
  refine ⟨fun j hj hne => h.used j (hlt j hj hne) hne, ?_⟩
  rcases h.best with ⟨hb, hi, hall⟩ | ⟨hb, hi, hne, hu, hall⟩
  · exact .inl ⟨hb, hi, fun j hj hne => hall j (hlt j hj hne) hne⟩
  · exact .inr ⟨hb, by omega, hne, hu, fun j hj hne => hall j (hlt j hj hne) hne⟩

theorem Best.next {c : FhCache} {n best bestIdx : Nat} (h : Best c n best bestIdx)
    (hlast : c.lastEntry ≠ some n) (hu : (c.entry n).use ≠ 0) (hlt : (c.entry n).use < 2 ^ 32) :
    (if (c.entry n).use < best then Best c (n + 1) (c.entry n).use n
      else Best c (n + 1) best bestIdx) := by
  have hused : ∀ j < n + 1, c.lastEntry ≠ some j → (c.entry j).use ≠ 0 := by
    intro j hj hne
    rcases Nat.lt_succ_iff_lt_or_eq.1 hj with hj | rfl
    · exact h.used j hj hne
    · exact hu
  split
  · rename_i hbest
    refine ⟨hused, .inr ⟨?_, Nat.lt_succ_self n, hlast, rfl, fun j hj hne hjn => ?_⟩⟩
    · rcases h.best with ⟨hb, _⟩ | ⟨hb, _⟩ <;> omega
    · have hj : j < n := by omega
      refine .inl ?_
      rcases h.best with ⟨hb, _, hall⟩ | ⟨hb, _, _, hub, hall⟩
      · have := hall j hj hne
        omega
      · by_cases hjb : j = bestIdx
        · rw [hjb, hub]
          exact hbest
        · rcases hall j hj hne hjb with ho | ⟨ho, _⟩ <;> omega
  · rename_i hbest
    refine ⟨hused, ?_⟩
    rcases h.best with ⟨hb, hi, hall⟩ | ⟨hb, hi, hne, hub, hall⟩
    · refine .inl ⟨hb, hi, fun j hj hne => ?_⟩
      rcases Nat.lt_succ_iff_lt_or_eq.1 hj with hj | rfl
      · exact hall j hj hne
      · omega
    · refine .inr ⟨hb, by omega, hne, hub, fun j hj hjl hjb => ?_⟩
      rcases Nat.lt_succ_iff_lt_or_eq.1 hj with hj | rfl
      · exact hall j hj hjl hjb
      · unfold FhCache.Older
        omega

/-- A scan of the slots from `n` on, after those below. -/
theorem oldest_lruScan {c : FhCache} (hlt : ∀ i, (c.entry i).use < 2 ^ 32) (k : Nat) :
    ∀ n best bestIdx, n + k = cacheEntries → Best c n best bestIdx →
      Oldest c (c.lruScan (List.range' n k) best bestIdx) := by
  induction k with
  | zero =>
    intro n best bestIdx hn h
    obtain rfl : n = cacheEntries := by omega
    rw [List.range'_zero, FhCache.lruScan]
    rcases h.best with ⟨hb, rfl, hall⟩ | ⟨hb, hi, hne, hu, hold⟩
    · -- every other entry has the greatest time there is: the first of them is taken
      by_cases hlast : c.lastEntry = some 0
      · rw [if_pos ⟨rfl, hlast⟩]
        refine ⟨by decide, by rw [hlast]; simp, fun j hj hne hj1 => .inr ⟨?_, ?_⟩⟩
        · rw [hall j hj hne, hall 1 (by decide) (by rw [hlast]; simp)]
        · have : j ≠ 0 := fun h0 => hne (h0 ▸ hlast)
          omega
      · rw [if_neg fun h => hlast h.2]
        refine ⟨by decide, hlast, fun j hj hne hj0 => .inr ⟨?_, Nat.pos_of_ne_zero hj0⟩⟩
        rw [hall j hj hne, hall 0 (by decide) hlast]
    · have hkeep : ¬ (bestIdx = 0 ∧ c.lastEntry = some 0) := fun h => hne (h.1 ▸ h.2)
      rw [if_neg hkeep]
      exact ⟨hi, hne, hold⟩
  | succ k ih =>
    intro n best bestIdx hn h
    rw [List.range'_succ, FhCache.lruScan]
    by_cases hlast : c.lastEntry = some n
    · rw [if_pos hlast]
      exact ih (n + 1) _ _ (by omega) (h.skip hlast)
    · rw [if_neg hlast]
      by_cases hu : (c.entry n).use = 0
      · rw [if_pos hu]
        refine ⟨by omega, hlast, fun j hj hne hjn => ?_⟩
        by_cases hjlt : j < n
        · exact .inl (by have := h.used j hjlt hne; omega)
        · unfold FhCache.Older
          omega
      · rw [if_neg hu]
        have hnext := h.next hlast hu (hlt n)
        split
        · rename_i hb
          rw [if_pos hb] at hnext
          exact ih (n + 1) _ _ (by omega) hnext
        · rename_i hb
          rw [if_neg hb] at hnext
          exact ih (n + 1) _ _ (by omega) hnext

/-! ## The invariant -/

/-- What holds of the table whatever is added and whatever `lstat` answers: the entries beyond the
mark are not in use, nor is the one at the mark while the table grows; a key is that of one entry,
and times have 32 bits. -/
structure FhTable (c : FhCache) : Prop where
  max : c.max < cacheEntries
  mark : c.max < cacheEntries - 1 → (c.entry c.max).key = (0, 0)
  beyond : ∀ i, c.max < i → (c.entry i).key = (0, 0)
  keys : ∀ i j, (c.entry i).key ≠ (0, 0) → (c.entry j).key = (c.entry i).key → j = i
  use : ∀ i, (c.entry i).use < 2 ^ 32
  time : c.time < 2 ^ 32

namespace FhTable

variable {c : FhCache} {dev ino : ULong} {path : CStr} {i : Nat}

theorem init : FhTable {} :=
  ⟨by decide, fun _ => rfl, fun _ _ => rfl, fun _ _ h => absurd rfl h, fun _ => Nat.two_pow_pos 32,
    Nat.two_pow_pos 32⟩

/-- The entry that is given up in a full table is the oldest. -/
theorem oldest_lru (h : FhTable c) (hfull : cacheEntries - 1 ≤ c.max) : Oldest c c.lru.1 := by
  rcases c.lru_cases with ⟨hlt, _⟩ | ⟨_, hlru⟩
  · omega
  · rw [hlru, List.range_eq_range']
    refine oldest_lruScan h.use cacheEntries 0 _ _ (Nat.zero_add _) ⟨?_, .inl ⟨rfl, rfl, ?_⟩⟩ <;>
      exact fun j hj => absurd hj (Nat.not_lt_zero j)

/-- What is written is below the mark afterwards. -/
theorem slotFor_le (h : FhTable c) (dev ino : ULong) (path : CStr) :
    c.slotFor dev ino ≤ (c.add dev ino path).max := by
  rw [FhCache.max_add]
  unfold FhCache.slotFor
  cases hidx : c.index dev ino with
  | some i =>
    rw [if_neg (by simp)]
    exact (FhCache.index_eq_some.1 hidx).1
  | none =>
    rw [Option.getD_none]
    by_cases hlt : c.max < cacheEntries - 1
    · rw [if_pos ⟨rfl, hlt⟩, FhCache.lru, if_pos hlt]
      exact Nat.le_succ _
    · rw [if_neg fun hc => hlt hc.2]
      have := (h.oldest_lru (by omega)).1
      omega

theorem max_le_add (c : FhCache) (dev ino : ULong) (path : CStr) :
    c.max ≤ (c.add dev ino path).max := by
  rw [FhCache.max_add]
  split <;> omega

/-- No entry but the one that is written has the key. -/
theorem key_of_ne_slotFor (h : FhTable c) (hkey : (dev, ino) ≠ (0, 0)) {j : Nat}
    (hj : j ≠ c.slotFor dev ino) : (c.entry j).key ≠ (dev, ino) := by
  intro hk
  unfold FhCache.slotFor at hj
  cases hidx : c.index dev ino with
  | some i =>
    rw [hidx] at hj
    have hi := (FhCache.index_eq_some.1 hidx).2.1
    exact hj (h.keys i j (by rw [hi]; exact hkey) (by rw [hk, hi]))
  | none =>
    by_cases hle : j ≤ c.max
    · exact FhCache.index_eq_none.1 hidx j hle hk
    · exact hkey (hk.symm.trans (h.beyond j (not_le.1 hle)))

/-- While the table grows, the entry at the mark is not in use. -/
theorem mark_add (h : FhTable c) (dev ino : ULong) (path : CStr)
    (hlt : (c.add dev ino path).max < cacheEntries - 1) :
    ((c.add dev ino path).entry (c.add dev ino path).max).key = (0, 0) := by
  cases hidx : c.index dev ino with
  | some i =>
    have hmax : (c.add dev ino path).max = c.max := by simp [FhCache.max_add, hidx]
    rw [hmax] at hlt ⊢
    rw [FhCache.entry_add, FhCache.slotFor, hidx, Option.getD_some]
    split
    · rename_i hi
      rw [FhEntry.key_mk, ← (FhCache.index_eq_some.1 hidx).2.1, ← hi]
      exact h.mark hlt
    · exact h.mark hlt
  | none =>
    have hgrow : c.max < cacheEntries - 1 := by
      rw [FhCache.max_add, hidx] at hlt
      split at hlt <;> omega
    have hmax : (c.add dev ino path).max = c.max + 1 := by simp [FhCache.max_add, hidx, hgrow]
    have hslot : c.slotFor dev ino = c.max := by simp [FhCache.slotFor, hidx, FhCache.lru, hgrow]
    rw [hmax, FhCache.entry_add, hslot, if_neg (Nat.succ_ne_self _)]
    exact h.beyond _ (Nat.lt_succ_self _)

theorem add (h : FhTable c) (dev ino : ULong) (path : CStr) : FhTable (c.add dev ino path) := by
  have hslot := h.slotFor_le dev ino path
  refine ⟨?_, h.mark_add dev ino path, fun i hi => ?_, fun i j hne hkey => ?_, fun i => ?_, ?_⟩
  · have := h.max
    rw [FhCache.max_add]
    split <;> omega
  · have := max_le_add c dev ino path
    rw [FhCache.entry_add, if_neg (by omega)]
    exact h.beyond i (by omega)
  · rw [FhCache.entry_add] at hne hkey
    rw [FhCache.entry_add] at hkey
    by_cases hi : i = c.slotFor dev ino
    · by_cases hj : j = c.slotFor dev ino
      · rw [hi, hj]
      · rw [if_pos hi] at hne hkey
        rw [if_neg hj] at hkey
        exact absurd hkey (h.key_of_ne_slotFor hne hj)
    · rw [if_neg hi] at hne hkey
      by_cases hj : j = c.slotFor dev ino
      · rw [if_pos hj] at hkey
        rw [← hkey] at hne
        exact absurd hkey.symm (h.key_of_ne_slotFor hne hi)
      · rw [if_neg hj] at hkey
        exact h.keys i j hne hkey
  · rw [FhCache.entry_add]
    split
    · exact Nat.mod_lt _ (by decide)
    · exact h.use i
  · rw [FhCache.time_add]
    exact Nat.mod_lt _ (by decide)

theorem inval (h : FhTable c) (i : Nat) : FhTable (c.inval i) := by
  have hkey : ∀ j, ((c.inval i).entry j).key = (0, 0) ∨
      ((c.inval i).entry j).key = (c.entry j).key := by
    intro j
    rw [FhCache.entry_inval]
    split
    · exact .inl rfl
    · exact .inr rfl
  refine ⟨h.max, fun hlt => ?_, fun j hj => ?_, fun j k hne hk => ?_, fun j => ?_, h.time⟩
  · rcases hkey c.max with hz | hs
    · exact hz
    · exact hs.trans (h.mark hlt)
  · rcases hkey j with hz | hs
    · exact hz
    · exact hs.trans (h.beyond j hj)
  · have hj := (hkey j).resolve_left hne
    have hk' := (hkey k).resolve_left (hk ▸ hne)
    exact h.keys j k (hj ▸ hne) (by rw [← hj, ← hk', hk])
  · rw [FhCache.entry_inval]
    split
    · decide
    · exact h.use j

theorem touch (h : FhTable c) (i : Nat) : FhTable (c.touch i) := by
  have hkey : ∀ j, ((c.touch i).entry j).key = (c.entry j).key := by
    intro j
    rw [FhCache.entry_touch]
    split
    · rename_i hj
      rw [hj]
      rfl
    · rfl
  refine ⟨h.max, fun hlt => (hkey _).trans (h.mark hlt), fun j hj => (hkey j).trans (h.beyond j hj),
    fun j k hne hk => ?_, fun j => ?_, Nat.mod_lt _ (by decide)⟩
  · rw [hkey] at hne
    rw [hkey, hkey] at hk
    exact h.keys j k hne hk
  · rw [FhCache.entry_touch]
    split
    · exact Nat.mod_lt _ (by decide)
    · exact h.use j

theorem lookup (h : FhTable c) (lstat : CStr → Except Errno Stat) (dev ino : ULong) :
    FhTable (c.lookup lstat dev ino).2 := by
  rcases c.lookup_cases lstat dev ino with ⟨_, hl⟩ | ⟨i, _, hl | ⟨buf, hl⟩⟩ <;> rw [hl]
  · exact h
  · exact h.inval i
  · exact h.touch i

/-- Every use keeps the table right. -/
theorem run (h : FhTable c) (op : FhOp) : FhTable (op.run c) := by
  cases op with
  | add dev ino path => exact h.add dev ino path
  | lookup dev ino lstat => exact h.lookup lstat dev ino

/-- A key that is looked for is found where it is. -/
theorem index_iff (h : FhTable c) (hkey : (dev, ino) ≠ (0, 0)) :
    c.index dev ino = some i ↔ (c.entry i).key = (dev, ino) := by
  rw [FhCache.index_eq_some]
  refine ⟨fun hi => hi.2.1, fun hi => ⟨?_, hi, fun j hj hk => ?_⟩⟩
  · by_contra hgt
    exact hkey (hi.symm.trans (h.beyond i (not_le.1 hgt)))
  · have := h.keys i j (by rw [hi]; exact hkey) (by rw [hi, hk])
    omega

end FhTable

/-! ## Slot by slot -/

/-- A program on a table of `CACHE_ENTRIES` slots, which stops with the index when it accesses
another one. -/
abbrev OnTable (α : Type) : Type := Prog FhCache Nat α

namespace OnTable

/-- `fh_cache[i]` is read. -/
def slot (i : Nat) : OnTable FhEntry := fun c =>
  if i < cacheEntries then (.ok (c.entry i), c) else (.error i, c)

/-- `fh_cache[i]` is written. -/
def setSlot (i : Nat) (e : FhEntry) : OnTable Unit := fun c =>
  if i < cacheEntries then (.ok (), c.set i e) else (.error i, c)

/-- The loop of `fh_cache_index`. -/
def find (dev ino : ULong) : List Nat → OnTable (Option Nat)
  | [] => pure none
  | i :: is => do
    let e ← slot i
    if e.dev == dev && e.ino == ino then pure (some i) else find dev ino is

/-- `fh_cache_index`. -/
def index (dev ino : ULong) : OnTable (Option Nat) := do
  let c ← Prog.get
  find dev ino (List.range (c.max + 1))

/-- The loop of `fh_cache_lru`, and what follows it. -/
def scan (lastEntry : Option Nat) : List Nat → Nat → Nat → OnTable Nat
  | [], _, bestIdx => pure (if bestIdx = 0 ∧ lastEntry = some 0 then 1 else bestIdx)
  | i :: is, best, bestIdx =>
    if lastEntry = some i then scan lastEntry is best bestIdx
    else do
      let e ← slot i
      if e.use = 0 then pure i
      else if e.use < best then scan lastEntry is e.use i
      else scan lastEntry is best bestIdx

/-- `fh_cache_lru`. -/
def lru : OnTable Nat := do
  let c ← Prog.get
  if c.max < cacheEntries - 1 then
    Prog.modify fun c => { c with max := c.max + 1 }
    pure c.max
  else scan c.lastEntry (List.range cacheEntries) (2 ^ 32 - 1) 0

/-- The entry that `fh_cache_add` writes. -/
def slotFor (dev ino : ULong) : OnTable Nat := do
  match ← index dev ino with
  | some i => pure i
  | none => lru

/-- `fh_cache_add`. -/
def add (dev ino : ULong) (path : CStr) : OnTable Unit := do
  let i ← slotFor dev ino
  Prog.modify FhCache.next
  let c ← Prog.get
  setSlot i { dev, ino, path, use := c.time }

/-- `fh_cache_lookup`. -/
def lookup (lstat : CStr → Except Errno Stat) (dev ino : ULong) :
    OnTable (Option (CStr × Stat)) := do
  match ← index dev ino with
  | none => pure none
  | some i =>
    let e ← slot i
    match lstat e.path with
    | .error _ =>
      setSlot i {}
      pure none
    | .ok buf =>
      if buf.dev = dev ∧ buf.ino = ino then
        Prog.modify FhCache.next
        let c ← Prog.get
        setSlot i { e with use := c.time }
        Prog.modify fun c => { c with lastEntry := some i }
        pure (some (e.path, buf))
      else
        setSlot i {}
        pure none

variable {c : FhCache} {i : Nat}

theorem slot_run (hi : i < cacheEntries) : slot i c = (.ok (c.entry i), c) := if_pos hi

theorem setSlot_run (hi : i < cacheEntries) (e : FhEntry) :
    setSlot i e c = (.ok (), c.set i e) := if_pos hi

theorem find_run (dev ino : ULong) (is : List Nat) (his : ∀ i ∈ is, i < cacheEntries) :
    find dev ino is c =
      (.ok (is.find? fun i => (c.entry i).dev == dev && (c.entry i).ino == ino), c) := by
  induction is with
  | nil => rfl
  | cons i is ih =>
    rw [find, Prog.bind_ok (slot_run (his i List.mem_cons_self)), List.find?_cons]
    cases hkey : (c.entry i).dev == dev && (c.entry i).ino == ino with
    | true => rfl
    | false =>
      simp only [Bool.false_eq_true, ↓reduceIte]
      exact ih fun j hj => his j (List.mem_cons_of_mem i hj)

theorem index_run (hmax : c.max < cacheEntries) (dev ino : ULong) :
    index dev ino c = (.ok (c.index dev ino), c) := by
  rw [index, Prog.get_bind_run]
  exact find_run dev ino _ fun i hi => (Nat.lt_succ_iff.1 (List.mem_range.1 hi)).trans_lt hmax

theorem scan_run (is : List Nat) (his : ∀ i ∈ is, i < cacheEntries) (best bestIdx : Nat) :
    scan c.lastEntry is best bestIdx c = (.ok (c.lruScan is best bestIdx), c) := by
  induction is generalizing best bestIdx with
  | nil => rfl
  | cons i is ih =>
    have htail := ih fun j hj => his j (List.mem_cons_of_mem i hj)
    rw [scan, FhCache.lruScan]
    by_cases hlast : c.lastEntry = some i
    · rw [if_pos hlast, if_pos hlast]
      exact htail best bestIdx
    · rw [if_neg hlast, if_neg hlast, Prog.bind_ok (slot_run (his i List.mem_cons_self))]
      split
      · rfl
      · split
        · exact htail _ _
        · exact htail _ _

theorem lru_run (c : FhCache) : lru c = (.ok c.lru.1, c.lru.2) := by
  rw [lru, Prog.get_bind_run]
  rcases c.lru_cases with ⟨hlt, h⟩ | ⟨hle, h⟩
  · rw [if_pos hlt, h]
    rfl
  · rw [if_neg hle.not_gt, h]
    dsimp only
    exact scan_run (List.range cacheEntries) (fun i hi => List.mem_range.1 hi) _ _

theorem slotFor_run (hmax : c.max < cacheEntries) (dev ino : ULong) : slotFor dev ino c =
    match c.index dev ino with
    | some i => (.ok i, c)
    | none => (.ok c.lru.1, c.lru.2) := by
  rw [slotFor, Prog.bind_ok (index_run hmax dev ino)]
  cases c.index dev ino with
  | some i => rfl
  | none => exact lru_run c

end OnTable

/-- A use, slot by slot. -/
def FhOp.onTable : FhOp → OnTable Unit
  | .add dev ino path => OnTable.add dev ino path
  | .lookup dev ino lstat => do
    let _ ← OnTable.lookup lstat dev ino

namespace FhTable

variable {c : FhCache}

theorem add_onTable (h : FhTable c) (dev ino : ULong) (path : CStr) :
    OnTable.add dev ino path c = (.ok (), c.add dev ino path) := by
  have hslot := (h.slotFor_le dev ino path).trans_lt (h.add dev ino path).max
  have hrun := OnTable.slotFor_run h.max dev ino
  unfold FhCache.slotFor at hslot
  unfold OnTable.add FhCache.add
  cases hidx : c.index dev ino with
  | some i =>
    rw [hidx] at hslot hrun
    rw [Prog.bind_ok hrun]
    exact OnTable.setSlot_run hslot _
  | none =>
    rw [hidx] at hslot hrun
    rw [Prog.bind_ok hrun]
    exact OnTable.setSlot_run hslot _

theorem lookup_onTable (h : FhTable c) (lstat : CStr → Except Errno Stat) (dev ino : ULong) :
    OnTable.lookup lstat dev ino c =
      (.ok (c.lookup lstat dev ino).1, (c.lookup lstat dev ino).2) := by
  unfold OnTable.lookup FhCache.lookup
  rw [Prog.bind_ok (OnTable.index_run h.max dev ino)]
  cases hidx : c.index dev ino with
  | none => rfl
  | some i =>
    have hi := (FhCache.index_eq_some.1 hidx).1.trans_lt h.max
    dsimp only
    rw [Prog.bind_ok (OnTable.slot_run hi)]
    cases lstat (c.entry i).path with
    | error e =>
      dsimp only
      rw [Prog.bind_ok (OnTable.setSlot_run hi _)]
      rfl
    | ok buf =>
      dsimp only
      split
      · rw [Prog.modify_bind_run, Prog.get_bind_run, Prog.bind_ok (OnTable.setSlot_run hi _)]
        rfl
      · rw [Prog.bind_ok (OnTable.setSlot_run hi _)]
        rfl

/-- No use accesses a slot that the table does not have. -/
theorem onTable (h : FhTable c) (op : FhOp) : op.onTable c = (.ok (), op.run c) := by
  cases op with
  | add dev ino path => exact h.add_onTable dev ino path
  | lookup dev ino lstat =>
    rw [FhOp.onTable, Prog.bind_ok (h.lookup_onTable lstat dev ino)]
    rfl

end FhTable

/-! ## Runs -/

/-- The table after the uses `ops` from `fh_cache_init` on. -/
def fhTableOf (ops : List FhOp) : FhCache := ops.foldl FhOp.run {}

theorem fhTableOf_concat (ops : List FhOp) (op : FhOp) :
    fhTableOf (ops ++ [op]) = op.run (fhTableOf ops) := by
  rw [fhTableOf, List.foldl_append]
  rfl

theorem fhTable_fhTableOf (ops : List FhOp) : FhTable (fhTableOf ops) := by
  induction ops using List.reverseRecOn with
  | nil => exact .init
  | append_singleton ops op ih =>
    rw [fhTableOf_concat]
    exact ih.run op

theorem forEach_onTable (ops : List FhOp) :
    Prog.forEach FhOp.onTable ops {} = (.ok (), fhTableOf ops) := by
  induction ops using List.reverseRecOn with
  | nil => rfl
  | append_singleton ops op ih =>
    rw [Prog.forEach_append, Prog.bind_ok ih, fhTableOf_concat, Prog.forEach,
      Prog.bind_ok ((fhTable_fhTableOf ops).onTable op)]
    rfl

/-- **The representation of the handle cache** after any run: the mark is a slot of the table and
no entry beyond it is in use, a key is that of one entry, a key is found exactly where it is, and
no slot outside of the table was accessed. -/
theorem fh_table_rep (ops : List FhOp) :
    (fhTableOf ops).max ≤ 4095 ∧
      (∀ i, (fhTableOf ops).max < i → ((fhTableOf ops).entry i).key = (0, 0)) ∧
      (∀ i j, ((fhTableOf ops).entry i).key ≠ (0, 0) →
        ((fhTableOf ops).entry j).key = ((fhTableOf ops).entry i).key → j = i) ∧
      (∀ dev ino, (dev, ino) ≠ (0, 0) → ∀ i,
        (fhTableOf ops).index dev ino = some i ↔ ((fhTableOf ops).entry i).key = (dev, ino)) ∧
      Prog.forEach FhOp.onTable ops {} = (.ok (), fhTableOf ops) := by
  have h := fhTable_fhTableOf ops
  have hmax : (fhTableOf ops).max ≤ 4095 := by
    have := h.max
    rw [cacheEntries] at this
    omega
  exact ⟨hmax, h.beyond, h.keys, fun dev ino hkey i => h.index_iff hkey, forEach_onTable ops⟩

end NfsRods
