import NfsRods.Lib.Lru
import NfsRods.Proof.FhTable

/-!
# The handle cache as a map

The handle cache is an `LruMap` of 4096 places from keys to paths (`Mirrors`), as long as its
counter has not rolled over and no handle of device and inode number zero is used.

* `InUse c slots`: `slots` are the entries in use, the one used longest ago first; `InUse.write`,
  `InUse.clear`.
* `Mirrors.add`, `Mirrors.lookup`: one use; `fh_cache_lru`: every run.
-/

namespace NfsRods

/-- The map that the handle cache is. -/
abbrev FhLru : Type := LruMap (ULong × ULong) CStr

/-- Whether a path still leads to the object of a key. -/
def pathHolds (lstat : CStr → Except Errno Stat) (dev ino : ULong) (path : CStr) : Bool :=
  match lstat path with
  | .error _ => false
  | .ok buf => buf.dev = dev ∧ buf.ino = ino

/-- The key of a use. -/
def FhOp.key : FhOp → ULong × ULong
  | .add dev ino _ => (dev, ino)
  | .lookup dev ino _ => (dev, ino)

/-- A use of the map. -/
def FhOp.onLru (m : FhLru) : FhOp → FhLru
  | .add dev ino path => m.add cacheEntries (dev, ino) path
  | .lookup dev ino lstat => (m.lookup (pathHolds lstat dev ino) (dev, ino)).2

/-- The map after the uses `ops`. -/
def fhLruOf (ops : List FhOp) : FhLru := ops.foldl FhOp.onLru {}

/-- The steps that a use makes the counter take. -/
def FhOp.ticks (c : FhCache) : FhOp → Nat
  | .add .. => 1
  | .lookup dev ino lstat => if (c.lookup lstat dev ino).1.isSome then 1 else 0

/-- The steps that the uses `ops` make the counter take. -/
def fhTicks : FhCache → List FhOp → Nat
  | _, [] => 0
  | c, op :: ops => op.ticks c + fhTicks (op.run c) ops

theorem fhTicks_append (c : FhCache) (ops ops' : List FhOp) :
    fhTicks c (ops ++ ops') = fhTicks c ops + fhTicks (ops.foldl FhOp.run c) ops' := by
  induction ops generalizing c with
  | nil => exact (Nat.zero_add _).symm
  | cons op ops ih => rw [List.cons_append, fhTicks, fhTicks, ih, List.foldl_cons, Nat.add_assoc]

/-- A lookup of a key that the table has: a hit if the path still leads to its object. -/
theorem FhCache.lookup_some {c : FhCache} {dev ino : ULong} {i : Nat}
    (hidx : c.index dev ino = some i) (lstat : CStr → Except Errno Stat) :
    if pathHolds lstat dev ino (c.entry i).path = true then
      ∃ buf, c.lookup lstat dev ino = (some ((c.entry i).path, buf), c.touch i)
    else c.lookup lstat dev ino = (none, c.inval i) := by
  unfold FhCache.lookup pathHolds
  rw [hidx]
  dsimp only
  cases lstat (c.entry i).path with
  | error e => simp
  | ok buf => by_cases hbuf : buf.dev = dev ∧ buf.ino = ino <;> simp [hbuf]

/-! ## The entries in use -/

/-- `slots` are the entries in use, the one used longest ago first. -/
structure InUse (c : FhCache) (slots : List Nat) : Prop where
  mem : ∀ i, i ∈ slots ↔ i < cacheEntries ∧ (c.entry i).key ≠ (0, 0)
  order : slots.Pairwise fun i j => (c.entry i).use < (c.entry j).use
  used : ∀ i, (c.entry i).use = 0 ↔ (c.entry i).key = (0, 0)
  ages : ∀ i, (c.entry i).use ≤ c.time

namespace InUse

variable {c c' : FhCache} {slots : List Nat} {v : Nat} {e : FhEntry}

theorem init : InUse {} [] :=
  ⟨fun i => by simp [FhEntry.key], .nil, fun i => by simp [FhEntry.key], fun i => le_rfl⟩

theorem nodup (h : InUse c slots) : slots.Nodup :=
  h.order.imp fun hlt heq => by
    rw [heq] at hlt
    exact Nat.lt_irrefl _ hlt

/-- The others stay in their order. -/
theorem order_others (h : InUse c slots) (hother : ∀ j, j ≠ v → c'.entry j = c.entry j) :
    (slots.filter (· ≠ v)).Pairwise fun i j => (c'.entry i).use < (c'.entry j).use := by
  refine (h.order.filter _).imp_of_mem fun {i j} hi hj hlt => ?_
  rw [hother i (by simpa using (List.mem_filter.1 hi).2),
    hother j (by simpa using (List.mem_filter.1 hj).2)]
  exact hlt

/-- An entry that is written is the youngest. -/
theorem write (h : InUse c slots) (hv : v < cacheEntries)
    (hentry : ∀ j, c'.entry j = if j = v then e else c.entry j) (hkey : e.key ≠ (0, 0))
    (huse : e.use = c'.time) (htime : c'.time = c.time + 1) :
    InUse c' (slots.filter (· ≠ v) ++ [v]) := by
  have hother : ∀ j, j ≠ v → c'.entry j = c.entry j := fun j hj => by rw [hentry, if_neg hj]
  have hself : c'.entry v = e := by rw [hentry, if_pos rfl]
  refine ⟨fun i => ?_, ?_, fun i => ?_, fun i => ?_⟩
  · by_cases hi : i = v
    · simp [hi, hself, hv, hkey]
    · simp [hi, hother i hi, h.mem]
  · refine List.pairwise_append.2
      ⟨h.order_others hother, List.pairwise_singleton _ _, fun i hi j hj => ?_⟩
    rw [List.mem_singleton.1 hj, hself, huse, htime,
      hother i (by simpa using (List.mem_filter.1 hi).2)]
    exact Nat.lt_succ_of_le (h.ages i)
  · by_cases hi : i = v
    · rw [hi, hself, huse, htime]
      exact ⟨fun h0 => absurd h0 (Nat.succ_ne_zero _), fun h0 => absurd h0 hkey⟩
    · rw [hother i hi]
      exact h.used i
  · by_cases hi : i = v
    · rw [hi, hself, huse]
    · rw [hother i hi, htime]
      exact Nat.le_succ_of_le (h.ages i)

/-- An entry that is cleared is not in use any more. -/
theorem clear (h : InUse c slots) (v : Nat) : InUse (c.inval v) (slots.filter (· ≠ v)) := by
  have hother : ∀ j, j ≠ v → (c.inval v).entry j = c.entry j := fun j hj => by
    rw [FhCache.entry_inval, if_neg hj]
  have hself : (c.inval v).entry v = {} := by rw [FhCache.entry_inval, if_pos rfl]
  refine ⟨fun i => ?_, h.order_others hother, fun i => ?_, fun i => ?_⟩
  · by_cases hi : i = v
    · simp [hi, hself, FhEntry.key]
    · simp [hi, hother i hi, h.mem]
  · by_cases hi : i = v
    · simp [hi, hself, FhEntry.key]
    · rw [hother i hi]
      exact h.used i
  · by_cases hi : i = v
    · rw [hi, hself]
      exact Nat.zero_le _
    · rw [hother i hi]
      exact h.ages i

end InUse

/-! ## The map -/

/-- The key and the path of an entry. -/
def FhCache.pair (c : FhCache) (i : Nat) : (ULong × ULong) × CStr :=
  ((c.entry i).key, (c.entry i).path)

/-- What `fh_last_entry` stands for; a growing table has it below its mark. -/
def LastIs (c : FhCache) (l : LruLast (ULong × ULong)) : Prop :=
  match c.lastEntry with
  | none => l = .none
  | some i => i < cacheEntries ∧ (c.max < cacheEntries - 1 → i < c.max) ∧
    l = if (c.entry i).key = (0, 0) then .hole else .key (c.entry i).key

/-- The table is the map. -/
structure Mirrors (c : FhCache) (slots : List Nat) (m : FhLru) : Prop where
  table : FhTable c
  inUse : InUse c slots
  entries : m.entries = slots.map c.pair
  last : LastIs c m.last

namespace Mirrors

variable {c : FhCache} {slots : List Nat} {m : FhLru} {dev ino : ULong} {i : Nat}

theorem init : Mirrors {} [] {} := ⟨.init, .init, rfl, rfl⟩

/-- The entry of a key, and its value in the map. -/
theorem get_of_index (h : Mirrors c slots m) (hne : (dev, ino) ≠ (0, 0)) :
    (c.index dev ino = none ∧ m.get (dev, ino) = none) ∨
      ∃ i, c.index dev ino = some i ∧ i ∈ slots ∧ (c.entry i).key = (dev, ino) ∧
        m.get (dev, ino) = some (c.entry i).path := by
  cases hidx : c.index dev ino with
  | none =>
    refine .inl ⟨rfl, LruMap.get_eq_none.2 fun e he heq => ?_⟩
    rw [h.entries, List.mem_map] at he
    obtain ⟨j, hj, rfl⟩ := he
    have := (h.table.index_iff hne).2 heq
    rw [hidx] at this
    cases this
  | some i =>
    have hkey := (h.table.index_iff hne).1 hidx
    have hi := (FhCache.index_eq_some.1 hidx).1.trans_lt h.table.max
    have hmem : i ∈ slots := (h.inUse.mem i).2 ⟨hi, hkey.trans_ne hne⟩
    refine .inr ⟨i, rfl, hmem, hkey, ?_⟩
    cases hget : m.get (dev, ino) with
    | none =>
      have := LruMap.get_eq_none.1 hget (c.pair i) (by
        rw [h.entries]
        exact List.mem_map_of_mem hmem)
      exact absurd hkey this
    | some path =>
      have he := LruMap.get_eq_some hget
      rw [h.entries, List.mem_map] at he
      obtain ⟨j, _, hj⟩ := he
      have hji : j = i := h.table.keys i j (hkey.trans_ne hne) (by
        rw [hkey]
        exact congrArg Prod.fst hj)
      rw [← hji]
      exact congrArg some (congrArg Prod.snd hj).symm

/-- **The paths of the map.** -/
theorem get_eq (h : Mirrors c slots m) (hne : (dev, ino) ≠ (0, 0)) :
    m.get (dev, ino) = (c.index dev ino).map fun i => (c.entry i).path := by
  rcases h.get_of_index hne with ⟨hidx, hget⟩ | ⟨i, hidx, _, _, hget⟩ <;> rw [hidx, hget] <;> rfl

/-- The entries of other keys are the other entries. -/
theorem others_eq (h : Mirrors c slots m) (hi : i ∈ slots) :
    m.others (c.entry i).key = (slots.filter (· ≠ i)).map c.pair := by
  have hkey := ((h.inUse.mem i).1 hi).2
  rw [LruMap.others, h.entries, List.filter_map]
  refine congrArg (List.map c.pair) (List.filter_congr fun j _ => ?_)
  refine decide_eq_decide.2 (not_congr ⟨h.table.keys i j hkey, fun hj => ?_⟩)
  rw [hj]
  rfl

/-- The entries that are in use, and the one of the last hit if it is not. -/
theorem exists_taken (h : Mirrors c slots m) : ∃ taken : List Nat, taken.Nodup ∧
    (∀ i, i ∈ taken ↔ i < cacheEntries ∧
      ((c.entry i).key ≠ (0, 0) ∨ c.lastEntry = some i)) ∧
    taken.length = m.entries.length + (if m.last = .hole then 1 else 0) := by
  have hlen : m.entries.length = slots.length := by rw [h.entries, List.length_map]
  have hlast := h.last
  unfold LastIs at hlast
  cases hl : c.lastEntry with
  | none =>
    rw [hl] at hlast
    refine ⟨slots, h.inUse.nodup, fun i => by simp [h.inUse.mem], ?_⟩
    rw [hlen, hlast, if_neg (by simp), Nat.add_zero]
  | some l =>
    rw [hl] at hlast
    obtain ⟨hlt, _, hm⟩ := hlast
    by_cases hkey : (c.entry l).key = (0, 0)
    · have hnot : l ∉ slots := fun hmem => ((h.inUse.mem l).1 hmem).2 hkey
      refine ⟨l :: slots, List.nodup_cons.2 ⟨hnot, h.inUse.nodup⟩, fun i => ?_, ?_⟩
      · rw [List.mem_cons, h.inUse.mem]
        grind
      · rw [hm, if_pos hkey, if_pos rfl, hlen, List.length_cons]
    · refine ⟨slots, h.inUse.nodup, fun i => ?_, ?_⟩
      · rw [h.inUse.mem]
        grind
      · rw [hm, if_neg hkey, if_neg (by simp), hlen, Nat.add_zero]

/-- A place is left exactly when some entry is not in use that is not that of the last hit. -/
theorem room_iff (h : Mirrors c slots m) : m.Room cacheEntries ↔
    ∃ j < cacheEntries, c.lastEntry ≠ some j ∧ (c.entry j).key = (0, 0) := by
  obtain ⟨taken, hd, hmem, hlen⟩ := h.exists_taken
  rw [LruMap.Room, ← hlen]
  constructor
  · intro hlt
    by_contra hno
    have hsub : List.range cacheEntries ⊆ taken := by
      intro j hj
      refine (hmem j).2 ⟨List.mem_range.1 hj, ?_⟩
      by_contra hfree
      rw [not_or, not_not] at hfree
      exact hno ⟨j, List.mem_range.1 hj, hfree.2, hfree.1⟩
    have := (List.nodup_range.subperm hsub).length_le
    rw [List.length_range] at this
    omega
  · rintro ⟨j, hj, hne, hkey⟩
    have hnot : j ∉ taken := fun hmj => ((hmem j).1 hmj).2.elim (fun h => h hkey) hne
    have hsub : j :: taken ⊆ List.range cacheEntries := by
      intro i hi
      rcases List.mem_cons.1 hi with rfl | hi
      · exact List.mem_range.2 hj
      · exact List.mem_range.2 ((hmem i).1 hi).1
    have := ((List.nodup_cons.2 ⟨hnot, hd⟩).subperm hsub).length_le
    rw [List.length_range, List.length_cons] at this
    omega

/-- A map without a place left gives up the oldest entry. -/
theorem evict_eq (h : Mirrors c slots m) {v : Nat} (hv : Oldest c v)
    (hkey : (c.entry v).key ≠ (0, 0)) : m.evict = (slots.filter (· ≠ v)).map c.pair := by
  obtain ⟨before, after, hs⟩ := List.append_of_mem ((h.inUse.mem v).2 ⟨hv.1, hkey⟩)
  have horder := h.inUse.order
  have hnodup := h.inUse.nodup
  rw [hs] at horder hnodup
  have hlast := h.last
  unfold LastIs at hlast
  have hbefore : ∀ j ∈ before, c.lastEntry = some j ∧ (c.entry j).key ≠ (0, 0) := by
    intro j hj
    have hmem := (h.inUse.mem j).1 (by rw [hs]; exact List.mem_append_left _ hj)
    refine ⟨?_, hmem.2⟩
    by_contra hne
    have hlt := (List.pairwise_append.1 horder).2.2 j hj v List.mem_cons_self
    have hold := hv.2.2 j hmem.1 hne (fun heq => by rw [heq] at hlt; exact Nat.lt_irrefl _ hlt)
    unfold FhCache.Older at hold
    omega
  have hfilter : slots.filter (· ≠ v) = before ++ after := by
    have hdis := List.nodup_append.1 hnodup
    have hnot := (List.nodup_cons.1 hdis.2.1).1
    rw [hs, List.filter_append, List.filter_cons_of_neg (by simp)]
    congr 1
    · refine List.filter_eq_self.2 fun j hj => ?_
      simpa using hdis.2.2 j hj v List.mem_cons_self
    · refine List.filter_eq_self.2 fun j hj => ?_
      have : j ≠ v := fun heq => hnot (heq ▸ hj)
      simpa using this
  rw [hfilter, List.map_append]
  refine LruMap.evict_eq (by rw [h.entries, hs, List.map_append, List.map_cons]) ?_ ?_
  · intro e he
    obtain ⟨j, hj, rfl⟩ := List.mem_map.1 he
    rw [(hbefore j hj).1] at hlast
    rw [hlast.2.2, if_neg (hbefore j hj).2]
    rfl
  · cases hl : c.lastEntry with
    | none =>
      rw [hl] at hlast
      rw [hlast]
      simp
    | some l =>
      rw [hl] at hlast
      rw [hlast.2.2]
      split
      · simp
      · rename_i hlk
        intro heq
        have hkv : (c.entry l).key = (c.entry v).key := LruLast.key.inj heq
        exact hv.2.1 (by rw [hl, h.table.keys v l hkey hkv])

/-- After an addition to entry `v`, with the other entries kept. -/
theorem written (h : Mirrors c slots m) (hne : (dev, ino) ≠ (0, 0)) (hclock : c.time + 1 < 2 ^ 32)
    (path : CStr) (hlast : c.lastEntry = some (c.slotFor dev ino) →
      (c.entry (c.slotFor dev ino)).key = (dev, ino)) :
    Mirrors (c.add dev ino path) (slots.filter (· ≠ c.slotFor dev ino) ++ [c.slotFor dev ino])
      { m with entries := (slots.filter (· ≠ c.slotFor dev ino)).map c.pair ++
          [((dev, ino), path)] } := by
  have htable := h.table.add dev ino path
  have hentry := fun j => FhCache.entry_add c dev ino path j
  have htime : (c.time + 1) % 2 ^ 32 = c.time + 1 := Nat.mod_eq_of_lt hclock
  have hv : c.slotFor dev ino < cacheEntries :=
    (h.table.slotFor_le dev ino path).trans_lt htable.max
  rw [htime] at hentry
  refine ⟨htable, h.inUse.write hv hentry hne ?_ ?_, ?_, ?_⟩
  · rw [FhCache.time_add, htime]
  · rw [FhCache.time_add, htime]
  · dsimp only
    rw [List.map_append, List.map_singleton]
    congr 1
    · refine List.map_congr_left fun j hj => ?_
      have hjv : j ≠ c.slotFor dev ino := by simpa using (List.mem_filter.1 hj).2
      rw [FhCache.pair, FhCache.pair, hentry, if_neg hjv]
    · rw [FhCache.pair, hentry, if_pos rfl]
      rfl
  · have hl := h.last
    have hmax := FhTable.max_le_add c dev ino path
    unfold LastIs at hl ⊢
    rw [FhCache.lastEntry_add]
    cases hcl : c.lastEntry with
    | none =>
      rw [hcl] at hl
      exact hl
    | some i =>
      rw [hcl] at hl
      have hkey : ((c.add dev ino path).entry i).key = (c.entry i).key := by
        rw [hentry]
        split
        · rename_i hi
          rw [FhEntry.key_mk, hi, hlast (by rw [hcl, hi])]
        · rfl
      dsimp only
      rw [hkey]
      exact ⟨hl.1, fun hlt => (hl.2.1 (by omega)).trans_le hmax, hl.2.2⟩

/-- The entry that a key which is not in the table is written to: with a place left one that is
not in use, else the oldest. -/
theorem lru_spec (h : Mirrors c slots m) : c.lastEntry ≠ some c.lru.1 ∧
    ((m.Room cacheEntries ∧ (c.entry c.lru.1).key = (0, 0)) ∨
      (¬ m.Room cacheEntries ∧ (c.entry c.lru.1).key ≠ (0, 0) ∧ Oldest c c.lru.1)) := by
  rcases c.lru_cases with ⟨hlt, hlru⟩ | ⟨hfull, _⟩
  · have hmark := h.table.mark hlt
    have hlast : c.lastEntry ≠ some c.max := by
      intro hl
      have := h.last
      rw [LastIs, hl] at this
      exact Nat.lt_irrefl _ (this.2.1 hlt)
    rw [hlru]
    exact ⟨hlast, .inl ⟨h.room_iff.2 ⟨c.max, h.table.max, hlast, hmark⟩, hmark⟩⟩
  · have hold := h.table.oldest_lru hfull
    refine ⟨hold.2.1, ?_⟩
    by_cases hroom : m.Room cacheEntries
    · obtain ⟨j, hj, hne, hkey⟩ := h.room_iff.1 hroom
      refine .inl ⟨hroom, ?_⟩
      by_cases hjv : j = c.lru.1
      · rw [← hjv]
        exact hkey
      · have hzero := (h.inUse.used j).2 hkey
        have holder := hold.2.2 j hj hne hjv
        unfold FhCache.Older at holder
        exact (h.inUse.used _).1 (by omega)
    · refine .inr ⟨hroom, fun hkey => hroom (h.room_iff.2 ⟨_, hold.1, hold.2.1, hkey⟩), hold⟩

/-- An addition to the table is one to the map. -/
theorem add (h : Mirrors c slots m) (hne : (dev, ino) ≠ (0, 0)) (hclock : c.time + 1 < 2 ^ 32)
    (path : CStr) : ∃ slots', Mirrors (c.add dev ino path) slots'
      (m.add cacheEntries (dev, ino) path) := by
  rcases h.get_of_index hne with ⟨hidx, hget⟩ | ⟨i, hidx, hi, hkey, hget⟩
  · have hslot : c.slotFor dev ino = c.lru.1 := by rw [FhCache.slotFor, hidx, Option.getD_none]
    obtain ⟨hlast, hcase⟩ := h.lru_spec
    have hwritten := h.written hne hclock path fun hl => absurd (hslot ▸ hl) hlast
    rw [hslot] at hwritten
    rcases hcase with ⟨hroom, hkey⟩ | ⟨hroom, hkey, hold⟩
    · have hsame : slots.filter (· ≠ c.lru.1) = slots := by
        refine List.filter_eq_self.2 fun j hj => ?_
        have : j ≠ c.lru.1 := fun heq => ((h.inUse.mem j).1 hj).2 (heq ▸ hkey)
        simpa using this
      rw [LruMap.add_room hget hroom, h.entries]
      rw [hsame] at hwritten
      exact ⟨_, hwritten⟩
    · rw [LruMap.add_full hget hroom, h.evict_eq hold hkey]
      exact ⟨_, hwritten⟩
  · have hslot : c.slotFor dev ino = i := by rw [FhCache.slotFor, hidx, Option.getD_some]
    have hwritten := h.written hne hclock path fun _ => by rw [hslot, hkey]
    rw [hslot] at hwritten
    rw [LruMap.add_known hget, ← hkey, h.others_eq hi, hkey]
    exact ⟨_, hwritten⟩

/-- An entry that is hit. -/
theorem touch (h : Mirrors c slots m) (hi : i ∈ slots) (hclock : c.time + 1 < 2 ^ 32) :
    Mirrors (c.touch i) (slots.filter (· ≠ i) ++ [i])
      { entries := m.others (c.entry i).key ++ [c.pair i], last := .key (c.entry i).key } := by
  obtain ⟨hlt, hkey⟩ := (h.inUse.mem i).1 hi
  have htime : (c.time + 1) % 2 ^ 32 = c.time + 1 := Nat.mod_eq_of_lt hclock
  have hentry := fun j => FhCache.entry_touch c i j
  rw [htime] at hentry
  have hkey' : ((c.touch i).entry i).key = (c.entry i).key := by
    rw [hentry, if_pos rfl]
    rfl
  refine ⟨h.table.touch i, h.inUse.write hlt hentry hkey ?_ htime, ?_, ?_⟩
  · exact htime.symm
  · dsimp only
    rw [h.others_eq hi, List.map_append, List.map_singleton]
    congr 1
    · refine List.map_congr_left fun j hj => ?_
      have hji : j ≠ i := by simpa using (List.mem_filter.1 hj).2
      rw [FhCache.pair, FhCache.pair, hentry, if_neg hji]
    · rw [FhCache.pair, FhCache.pair, hentry, if_pos rfl]
      rfl
  · change i < cacheEntries ∧ (c.max < cacheEntries - 1 → i < c.max) ∧ _
    rw [hkey', if_neg hkey]
    refine ⟨hlt, fun hgrow => ?_, rfl⟩
    have hle : ¬ c.max < i := fun hgt => hkey (h.table.beyond i hgt)
    have hne : i ≠ c.max := fun heq => hkey (heq ▸ h.table.mark hgrow)
    omega

/-- An entry that does not hold any more. -/
theorem inval (h : Mirrors c slots m) (hi : i ∈ slots) : Mirrors (c.inval i)
    (slots.filter (· ≠ i)) { entries := m.others (c.entry i).key
                             last := if m.last = .key (c.entry i).key then .hole else m.last } := by
  have hkey := ((h.inUse.mem i).1 hi).2
  refine ⟨h.table.inval i, h.inUse.clear i, ?_, ?_⟩
  · dsimp only
    rw [h.others_eq hi]
    refine List.map_congr_left fun j hj => ?_
    have hji : j ≠ i := by simpa using (List.mem_filter.1 hj).2
    rw [FhCache.pair, FhCache.pair, FhCache.entry_inval, if_neg hji]
  · have hl := h.last
    unfold LastIs at hl ⊢
    change match c.lastEntry with | none => _ | some l => _
    cases hcl : c.lastEntry with
    | none =>
      rw [hcl] at hl
      dsimp only at hl ⊢
      rw [hl, if_neg (by simp)]
    | some l =>
      rw [hcl] at hl
      obtain ⟨hlt, hgrow, hm⟩ := hl
      refine ⟨hlt, hgrow, ?_⟩
      dsimp only
      rw [FhCache.entry_inval, hm]
      by_cases hli : l = i
      · rw [hli, if_neg hkey, if_pos rfl, if_pos rfl]
        rfl
      · have hdiff : (c.entry l).key ≠ (c.entry i).key :=
          fun heq => hli (h.table.keys i l hkey heq)
        rw [if_neg hli, if_neg]
        split
        · simp
        · exact fun heq => hdiff (LruLast.key.inj heq)

/-- A lookup in the table is one in the map. -/
theorem lookup (h : Mirrors c slots m) (hne : (dev, ino) ≠ (0, 0)) (hclock : c.time + 1 < 2 ^ 32)
    (lstat : CStr → Except Errno Stat) : ∃ slots', Mirrors (c.lookup lstat dev ino).2 slots'
      (m.lookup (pathHolds lstat dev ino) (dev, ino)).2 := by
  rcases h.get_of_index hne with ⟨hidx, hget⟩ | ⟨i, hidx, hi, hkey, hget⟩
  · rw [LruMap.lookup_none hget, FhCache.lookup, hidx]
    exact ⟨slots, h⟩
  · have hlook := FhCache.lookup_some hidx lstat
    cases hholds : pathHolds lstat dev ino (c.entry i).path with
    | true =>
      rw [if_pos hholds] at hlook
      obtain ⟨buf, hlook⟩ := hlook
      have := h.touch hi hclock
      rw [FhCache.pair, hkey] at this
      rw [LruMap.lookup_hit hget hholds, hlook]
      exact ⟨_, this⟩
    | false =>
      rw [if_neg (by simp [hholds])] at hlook
      have := h.inval hi
      rw [hkey] at this
      rw [LruMap.lookup_stale hget hholds, hlook]
      exact ⟨_, this⟩

/-- One use. -/
theorem run (h : Mirrors c slots m) (op : FhOp) (hne : op.key ≠ (0, 0))
    (hclock : c.time + 1 < 2 ^ 32) : ∃ slots', Mirrors (op.run c) slots' (op.onLru m) := by
  cases op with
  | add dev ino path => exact h.add hne hclock path
  | lookup dev ino lstat => exact h.lookup hne hclock lstat

end Mirrors

/-! ## Runs -/

/-- A use makes the counter take its steps. -/
theorem FhOp.time_run (op : FhOp) (c : FhCache) (hclock : c.time + 1 < 2 ^ 32) :
    (op.run c).time = c.time + op.ticks c := by
  have htime : (c.time + 1) % 2 ^ 32 = c.time + 1 := Nat.mod_eq_of_lt hclock
  cases op with
  | add dev ino path => exact (FhCache.time_add _ _ _ _).trans htime
  | lookup dev ino lstat =>
    dsimp only [FhOp.run, FhOp.ticks]
    rcases c.lookup_cases lstat dev ino with ⟨_, hl⟩ | ⟨i, _, hl | ⟨buf, hl⟩⟩ <;> rw [hl]
    · rfl
    · rfl
    · exact htime

theorem mirrors_fhTableOf (ops : List FhOp) (hkeys : ∀ op ∈ ops, op.key ≠ (0, 0))
    (hclock : fhTicks {} ops < 2 ^ 32 - 1) :
    (fhTableOf ops).time = fhTicks {} ops ∧
      ∃ slots, Mirrors (fhTableOf ops) slots (fhLruOf ops) := by
  induction ops using List.reverseRecOn with
  | nil => exact ⟨rfl, [], .init⟩
  | append_singleton ops op ih =>
    have hticks : fhTicks {} (ops ++ [op]) = fhTicks {} ops + op.ticks (fhTableOf ops) :=
      fhTicks_append {} ops [op]
    rw [hticks] at hclock ⊢
    obtain ⟨htime, slots, hm⟩ := ih (fun o ho => hkeys o (List.mem_append_left _ ho)) (by omega)
    have hstep : (fhTableOf ops).time + 1 < 2 ^ 32 := by omega
    rw [fhTableOf_concat, fhLruOf, List.foldl_append]
    refine ⟨by rw [op.time_run _ hstep, htime], ?_⟩
    exact hm.run op (hkeys op (by simp)) hstep

/-- **The handle cache is an LRU map**: after every run with keys other than that of number zero,
before the counter has rolled over, each key has the same path in the table as in the map that
gives up only what was used longest ago, and only without a place left. -/
theorem fh_cache_lru (ops : List FhOp) (hkeys : ∀ op ∈ ops, op.key ≠ (0, 0))
    (hclock : fhTicks {} ops < 2 ^ 32 - 1) (dev ino : ULong) (hne : (dev, ino) ≠ (0, 0)) :
    (((fhTableOf ops).index dev ino).map fun i => ((fhTableOf ops).entry i).path) =
      (fhLruOf ops).get (dev, ino) := by
  obtain ⟨_, slots, hm⟩ := mirrors_fhTableOf ops hkeys hclock
  exact (hm.get_eq hne).symm

theorem fh_cache_lru_two :
    let ops := [.add 1 2 [47], .lookup 1 2 fun _ => .ok { dev := 1, ino := 2 }, .add 1 3 [47, 97]]
    (((fhTableOf ops).index 1 2).map fun i => ((fhTableOf ops).entry i).path) = some [47] :=
  (fh_cache_lru _ (by simp [FhOp.key]) (by decide) 1 2 (by decide)).trans rfl

end NfsRods
