import Mathlib.Data.Finset.Card
import NfsRods.Proof.FhTable
import NfsRods.Proof.PlainCache

/-!
# The path that `fh_decomp` returned last

`fh_decomp` returns a path inside the handle cache, which a request goes on to use while it adds
other entries.

* `FhUse`, `FhReturn`: the uses of the table with the entry whose path was returned last;
  `fhDecompHard_use` ties them to the daemon's `fh_decomp`.
* `FhTable.protected_iff`: whether the next `fh_cache_add` for another key leaves an entry alone.
* `path_protected_iff`: this of the entry that was returned, in every run.
* `path_protected_early`: it is left alone as long as the counter has not rolled over and no handle
  of device and inode number zero is resolved.
* `path_overwritten`: a run after whose roll-over it is not.
-/

namespace NfsRods

open CStr

/-- The table, and the entry whose path `fh_decomp` returned last, until another key is added. -/
structure FhReturn where
  cache : FhCache := {}
  returned : Option Nat := none

/-- A use of the table as the daemon makes them: `fh_decomp` adds the path it `found` itself after
a lookup without a result; `aside` is one that does not get to the table (the handle is not valid,
or it is an export point's). -/
inductive FhUse
  | add (dev ino : ULong) (path : CStr)
  | decomp (dev ino : ULong) (lstat : CStr → Except Errno Stat) (found : Option CStr)
  | aside

/-- The table after a use. -/
def FhUse.run (s : FhReturn) : FhUse → FhReturn
  | .add dev ino path =>
    { cache := s.cache.add dev ino path
      returned := s.returned.filter fun i => (s.cache.entry i).key = (dev, ino) }
  | .decomp dev ino lstat found =>
    let (r, c) := s.cache.lookup lstat dev ino
    match r, found with
    | some _, _ => { cache := c, returned := s.cache.index dev ino }
    | none, some path => { cache := c.add dev ino path, returned := some (c.slotFor dev ino) }
    | none, none => { cache := c, returned := none }
  | .aside => { s with returned := none }

/-- The table after the uses `us` from `fh_cache_init` on. -/
def fhReturnOf (us : List FhUse) : FhReturn := us.foldl FhUse.run {}

theorem fhReturnOf_append (us vs : List FhUse) :
    fhReturnOf (us ++ vs) = vs.foldl FhUse.run (fhReturnOf us) := List.foldl_append

theorem fhReturnOf_concat (us : List FhUse) (u : FhUse) :
    fhReturnOf (us ++ [u]) = u.run (fhReturnOf us) := fhReturnOf_append us [u]

/-- What `fh_decomp` does: a hit, or a lookup without a result and what is found without it. -/
theorem FhUse.decomp_cases (s : FhReturn) (dev ino : ULong) (lstat : CStr → Except Errno Stat)
    (found : Option CStr) :
    (∃ i buf, s.cache.index dev ino = some i ∧
      s.cache.lookup lstat dev ino = (some ((s.cache.entry i).path, buf), s.cache.touch i) ∧
      (FhUse.decomp dev ino lstat found).run s = ⟨s.cache.touch i, some i⟩) ∨
    ∃ c, s.cache.lookup lstat dev ino = (none, c) ∧
      (s.cache.index dev ino = none ∧ c = s.cache ∨
        ∃ i, s.cache.index dev ino = some i ∧ c = s.cache.inval i) ∧
      (FhUse.decomp dev ino lstat found).run s = found.elim ⟨c, none⟩ fun path =>
        ⟨c.add dev ino path, some (c.slotFor dev ino)⟩ := by
  dsimp only [FhUse.run]
  rcases s.cache.lookup_cases lstat dev ino with ⟨hidx, h⟩ | ⟨i, hidx, h | ⟨buf, h⟩⟩ <;> rw [h]
  · refine .inr ⟨_, rfl, .inl ⟨hidx, rfl⟩, ?_⟩
    cases found <;> rfl
  · refine .inr ⟨_, rfl, .inr ⟨i, hidx, rfl⟩, ?_⟩
    cases found <;> rfl
  · exact .inl ⟨i, buf, hidx, rfl, by rw [hidx]⟩

/-- The daemon's `fh_decomp` returns the path of the entry that the table's does. -/
theorem fhDecompHard_use {L R : Type} (w : World L R) (obj : Unfs3Fh) (s : Server L R) :
    let u := FhUse.decomp obj.dev obj.ino (w.lstat s.kernel) (uncached w s.kernel obj)
    let r := u.run { cache := s.fh }
    (fhDecompHard w obj s).1 = .ok (r.returned.map fun i => (r.cache.entry i).path) ∧
      (fhDecompHard w obj s).2.fh = r.cache := by
  intro u r
  obtain ⟨hres, htab⟩ := fhCacheLookup_lookup w obj.dev obj.ino s
  rcases FhUse.decomp_cases { cache := s.fh } obj.dev obj.ino (w.lstat s.kernel)
      (uncached w s.kernel obj) with ⟨i, buf, _, hl, hr⟩ | ⟨c, hl, _, hr⟩
  · rw [hl] at hres htab
    rw [show r = _ from hr, fhDecompHard, Prog.bind_ok (Prod.ext hres rfl)]
    exact ⟨by simp [FhCache.entry_touch], htab⟩
  · rw [hl] at hres htab
    obtain ⟨hp, hc⟩ := fhDecompHard_miss (Prod.ext hres rfl)
    rw [show r = _ from hr, hp, hc, htab]
    cases uncached w s.kernel obj with
    | none => exact ⟨rfl, rfl⟩
    | some q => exact ⟨by simp [FhCache.entry_add], rfl⟩

/-! ## What the next addition overwrites -/

/-- The next addition for another key leaves entry `i` alone. -/
def FhCache.Protected (c : FhCache) (i : Nat) : Prop :=
  ∀ dev ino path, (dev, ino) ≠ (c.entry i).key → (c.add dev ino path).entry i = c.entry i

/-- While the table grows, entry `i` is not the one at the mark; in a full table it is the one of
the last hit, or another one is older. -/
def FhCache.Safe (c : FhCache) (i : Nat) : Prop :=
  (c.max < cacheEntries - 1 → i ≠ c.max) ∧
    (cacheEntries - 1 ≤ c.max → c.lastEntry = some i ∨
      ∃ j < cacheEntries, c.lastEntry ≠ some j ∧ c.Older j i)

/-- Some key is neither in the table nor equal to a given one. -/
theorem FhCache.exists_missing (c : FhCache) (hmax : c.max < cacheEntries) (k : ULong × ULong) :
    ∃ dev ino, (dev, ino) ≠ k ∧ c.index dev ino = none := by
  let taken : Finset (ULong × ULong) :=
    insert k ((Finset.range cacheEntries).image fun i => (c.entry i).key)
  let fresh : Finset (ULong × ULong) :=
    (Finset.range (cacheEntries + 2)).image fun n => (0, UInt64.ofNat n)
  have htaken : taken.card ≤ cacheEntries + 1 := by
    refine (Finset.card_insert_le _ _).trans (Nat.succ_le_succ ?_)
    exact Finset.card_image_le.trans_eq (Finset.card_range _)
  have hfresh : fresh.card = cacheEntries + 2 := by
    refine (Finset.card_image_of_injOn fun m hm n hn h => ?_).trans (Finset.card_range _)
    simp only [Finset.coe_range, Set.mem_Iio, cacheEntries] at hm hn
    have := congrArg UInt64.toNat (Prod.ext_iff.1 h).2
    simp only [UInt64.toNat_ofNat'] at this
    omega
  obtain ⟨⟨dev, ino⟩, _, hnot⟩ := Finset.exists_mem_notMem_of_card_lt_card (by
    omega : taken.card < fresh.card)
  simp only [taken, Finset.mem_insert, Finset.mem_image, Finset.mem_range, not_or, not_exists,
    not_and] at hnot
  exact ⟨dev, ino, hnot.1, FhCache.index_eq_none.2 fun i hi => hnot.2 i (hi.trans_lt hmax)⟩

namespace FhTable

variable {c : FhCache} {i : Nat}

theorem lru_ne_iff (h : FhTable c) (hi : i < cacheEntries) : c.lru.1 ≠ i ↔ c.Safe i := by
  rcases c.lru_cases with ⟨hlt, hlru⟩ | ⟨hfull, _⟩
  · rw [hlru]
    exact ⟨fun hne => ⟨fun _ => hne.symm, fun hle => absurd hlt hle.not_gt⟩,
      fun hs => (hs.1 hlt).symm⟩
  · obtain ⟨hv, hlast, hold⟩ := h.oldest_lru hfull
    refine ⟨fun hne => ⟨fun hlt => absurd hlt hfull.not_gt, fun _ => ?_⟩, fun hs heq => ?_⟩
    · by_cases hli : c.lastEntry = some i
      · exact .inl hli
      · exact .inr ⟨_, hv, hlast, hold i hi hli hne.symm⟩
    · rw [heq] at hlast hold
      rcases hs.2 hfull with hli | ⟨j, hj, hjl, hji⟩
      · exact hlast hli
      · have hij : c.Older i j := by
          refine hold j hj hjl fun he => ?_
          rw [he] at hji
          unfold FhCache.Older at hji
          omega
        unfold FhCache.Older at hij hji
        omega

/-- **When an entry survives the next addition.** -/
theorem protected_iff (h : FhTable c) (hi : i ≤ c.max) : c.Protected i ↔ c.Safe i := by
  rw [← h.lru_ne_iff (hi.trans_lt h.max)]
  refine ⟨fun hp heq => ?_, fun hne dev ino path hkey => ?_⟩
  · obtain ⟨dev, ino, hkey, hidx⟩ := c.exists_missing h.max (c.entry i).key
    have hsame := hp dev ino [] hkey
    rw [FhCache.entry_add, if_pos (by rw [FhCache.slotFor, hidx, Option.getD_none, heq])] at hsame
    exact hkey (by rw [← hsame, FhEntry.key_mk])
  · have hslot : i ≠ c.slotFor dev ino := by
      unfold FhCache.slotFor
      cases hidx : c.index dev ino with
      | none => exact hne.symm
      | some j =>
        intro hij
        rw [hij, Option.getD_some] at hkey
        exact hkey (FhCache.index_eq_some.1 hidx).2.1.symm
    rw [FhCache.entry_add, if_neg hslot]

end FhTable

/-! ## Runs -/

/-- The table is in order, and the entry that was returned is one of it. -/
structure Returned (s : FhReturn) : Prop where
  table : FhTable s.cache
  within : ∀ i, s.returned = some i → i ≤ s.cache.max

theorem Returned.run {s : FhReturn} (h : Returned s) (u : FhUse) : Returned (u.run s) := by
  cases u with
  | add dev ino path =>
    refine ⟨h.table.add dev ino path, fun i hi => ?_⟩
    have := h.within i (Option.filter_eq_some_iff.1 hi).1
    exact this.trans (FhTable.max_le_add _ _ _ _)
  | decomp dev ino lstat found =>
    rcases FhUse.decomp_cases s dev ino lstat found with
      ⟨i, buf, hidx, _, hr⟩ | ⟨c, hl, _, hr⟩ <;> rw [hr]
    · refine ⟨h.table.touch i, fun j hj => ?_⟩
      cases hj
      exact (FhCache.index_eq_some.1 hidx).1
    · have hc : FhTable c := by
        have := h.table.lookup lstat dev ino
        rwa [hl] at this
      cases found with
      | none => exact ⟨hc, fun j hj => by cases hj⟩
      | some path =>
        refine ⟨hc.add dev ino path, fun j hj => ?_⟩
        cases hj
        exact hc.slotFor_le dev ino path
  | aside => exact ⟨h.table, fun j hj => by cases hj⟩

theorem returned_fhReturnOf (us : List FhUse) : Returned (fhReturnOf us) := by
  induction us using List.reverseRecOn with
  | nil => exact ⟨.init, fun i hi => by cases hi⟩
  | append_singleton us u ih =>
    rw [fhReturnOf_concat]
    exact ih.run u

/-- **When the path that was returned is protected**: in every run, the next `fh_cache_add` for
another key leaves the entry that `fh_decomp` returned last alone if and only if the entry is not
the one at the mark of a growing table, and in a full one it is that of the last hit or not the
oldest. -/
theorem path_protected_iff (us : List FhUse) (i : Nat) (h : (fhReturnOf us).returned = some i) :
    (fhReturnOf us).cache.Protected i ↔ (fhReturnOf us).cache.Safe i :=
  (returned_fhReturnOf us).table.protected_iff ((returned_fhReturnOf us).within i h)

/-- A handle whose path is in the cache: the path stays where it is. -/
def hitTwice (lstat : CStr → Except Errno Stat) : List FhUse :=
  [.decomp 1 1 lstat (some [47]), .decomp 1 1 lstat none]

theorem path_protected_iff_hit :
    (fhReturnOf (hitTwice fun _ => .ok { dev := 1, ino := 1 })).cache.Protected 0 :=
  (path_protected_iff _ 0 rfl).2 ⟨fun _ => by decide, fun h => absurd h (by decide)⟩

/-- A handle of device and inode number zero is found in the unused entry at the mark, which is
the next to be handed out. -/
example : (fhReturnOf [.decomp 0 0 (fun _ => .error .enoent) (some [47])]).returned = some 0 ∧
    ((fhReturnOf [.decomp 0 0 (fun _ => .error .enoent) (some [47])]).cache.add 1 1
      [47, 97]).entry 0 = { dev := 1, ino := 1, path := [47, 97], use := 2 } := by decide

/-! ## Before the counter rolls over -/

/-- The times are in order, and the entry that was returned is that of the last hit or the
youngest. -/
structure Guarded (s : FhReturn) : Prop where
  ages : ∀ j, (s.cache.entry j).use ≤ s.cache.time
  guarded : ∀ i, s.returned = some i → (s.cache.entry i).key ≠ (0, 0) ∧
    (s.cache.lastEntry = some i ∨ ∀ j, j ≠ i → (s.cache.entry j).use < (s.cache.entry i).use)

theorem Guarded.safe {s : FhReturn} (h : Guarded s) (ht : FhTable s.cache) {i : Nat}
    (hi : s.returned = some i) : s.cache.Safe i := by
  obtain ⟨hkey, hlast⟩ := h.guarded i hi
  refine ⟨fun hlt heq => hkey (heq ▸ ht.mark hlt), fun _ => hlast.imp_right fun hyoung => ?_⟩
  -- one of three entries is neither this one nor that of the last hit
  have hother : ∃ j < 3, j ≠ i ∧ s.cache.lastEntry ≠ some j := by
    cases s.cache.lastEntry with
    | none => exact ⟨if i = 0 then 1 else 0, by split <;> omega, by split <;> omega, by simp⟩
    | some l =>
      obtain h | h | h : (0 ≠ i ∧ 0 ≠ l) ∨ (1 ≠ i ∧ 1 ≠ l) ∨ (2 ≠ i ∧ 2 ≠ l) := by omega
      · exact ⟨0, by omega, h.1, by simpa using h.2.symm⟩
      · exact ⟨1, by omega, h.1, by simpa using h.2.symm⟩
      · exact ⟨2, by omega, h.1, by simpa using h.2.symm⟩
  obtain ⟨j, hj, hji, hjl⟩ := hother
  exact ⟨j, hj.trans (by decide), hjl, .inl (hyoung j hji)⟩

/-- After an addition the entry that is written is the youngest. -/
theorem FhCache.add_youngest {c : FhCache} (hages : ∀ j, (c.entry j).use ≤ c.time)
    (hclock : c.time + 1 < 2 ^ 32) (dev ino : ULong) (path : CStr) :
    (∀ j, ((c.add dev ino path).entry j).use ≤ (c.add dev ino path).time) ∧
      ((c.add dev ino path).entry (c.slotFor dev ino)).key = (dev, ino) ∧
      ∀ j, j ≠ c.slotFor dev ino → ((c.add dev ino path).entry j).use <
        ((c.add dev ino path).entry (c.slotFor dev ino)).use := by
  have htime : (c.time + 1) % 2 ^ 32 = c.time + 1 := Nat.mod_eq_of_lt hclock
  simp only [FhCache.entry_add, FhCache.time_add, htime, if_true, FhEntry.key_mk, true_and]
  refine ⟨fun j => ?_, fun j hj => ?_⟩
  · have := hages j
    split
    · exact le_rfl
    · omega
  · have := hages j
    rw [if_neg hj]
    omega

theorem Guarded.run {s : FhReturn} (h : Guarded s) (ht : FhTable s.cache) (u : FhUse)
    (hclock : s.cache.time + 1 < 2 ^ 32)
    (hkey : ∀ dev ino lstat found, u = .decomp dev ino lstat found → (dev, ino) ≠ (0, 0)) :
    Guarded (u.run s) ∧ (u.run s).cache.time ≤ s.cache.time + 1 := by
  have htime : (s.cache.time + 1) % 2 ^ 32 = s.cache.time + 1 := Nat.mod_eq_of_lt hclock
  cases u with
  | add dev ino path =>
    obtain ⟨hages, _, hyoung⟩ := FhCache.add_youngest h.ages hclock dev ino path
    refine ⟨⟨hages, fun i hi => ?_⟩, (FhCache.time_add _ _ _ _).trans_le (Nat.mod_le _ _)⟩
    obtain ⟨hr, hsame⟩ := Option.filter_eq_some_iff.1 hi
    have hki : (s.cache.entry i).key = (dev, ino) := of_decide_eq_true hsame
    have hne : (dev, ino) ≠ (0, 0) := hki ▸ (h.guarded i hr).1
    have hslot : s.cache.slotFor dev ino = i := by
      rw [FhCache.slotFor, (ht.index_iff hne).2 hki, Option.getD_some]
    rw [hslot] at hyoung
    refine ⟨?_, .inr hyoung⟩
    rw [FhUse.run, FhCache.entry_add, if_pos hslot.symm]
    exact hne
  | decomp dev ino lstat found =>
    have hne := hkey dev ino lstat found rfl
    rcases FhUse.decomp_cases s dev ino lstat found with
      ⟨i, buf, hidx, _, hr⟩ | ⟨c, _, hc, hr⟩ <;> rw [hr]
    · refine ⟨⟨fun j => ?_, fun j hj => ?_⟩, Nat.mod_le _ _⟩
      · have := h.ages j
        rw [FhCache.entry_touch]
        change _ ≤ (s.cache.time + 1) % 2 ^ 32
        split
        · exact le_rfl
        · omega
      · cases hj
        refine ⟨?_, .inl rfl⟩
        rw [FhCache.entry_touch, if_pos rfl]
        exact (FhCache.index_eq_some.1 hidx).2.1.trans_ne hne
    · have hct : (∀ j, (c.entry j).use ≤ c.time) ∧ c.time = s.cache.time := by
        rcases hc with ⟨_, rfl⟩ | ⟨i, _, rfl⟩
        · exact ⟨h.ages, rfl⟩
        · refine ⟨fun j => ?_, rfl⟩
          rw [FhCache.entry_inval]
          split
          · exact Nat.zero_le _
          · exact h.ages j
      cases found with
      | none => exact ⟨⟨hct.1, fun j hj => by cases hj⟩, by rw [← hct.2]; exact Nat.le_succ _⟩
      | some path =>
        obtain ⟨hages, hk, hyoung⟩ :=
          FhCache.add_youngest hct.1 (by rw [hct.2]; exact hclock) dev ino path
        refine ⟨⟨hages, fun j hj => ?_⟩, ?_⟩
        · cases hj
          exact ⟨hk.trans_ne hne, .inr hyoung⟩
        · rw [← hct.2]
          exact (FhCache.time_add _ _ _ _).trans_le (Nat.mod_le _ _)
  | aside => exact ⟨⟨h.ages, fun j hj => by cases hj⟩, Nat.le_succ _⟩

/-- Before the counter rolls over, a path that was returned is protected in every state of a run
that resolves no handle of device and inode number zero. -/
theorem path_protected_early (us : List FhUse) (hclock : us.length < 2 ^ 32)
    (hkeys : ∀ dev ino lstat found, .decomp dev ino lstat found ∈ us → (dev, ino) ≠ (0, 0)) :
    ∀ i, (fhReturnOf us).returned = some i → (fhReturnOf us).cache.Protected i := by
  have hguard : Guarded (fhReturnOf us) ∧ (fhReturnOf us).cache.time ≤ us.length := by
    induction us using List.reverseRecOn with
    | nil => exact ⟨⟨fun _ => le_rfl, fun i hi => by cases hi⟩, le_rfl⟩
    | append_singleton us u ih =>
      rw [List.length_append, List.length_singleton] at hclock
      obtain ⟨hg, htime⟩ := ih (by omega) fun dev ino lstat found hmem =>
        hkeys dev ino lstat found (List.mem_append_left _ hmem)
      obtain ⟨hg', htime'⟩ := hg.run (returned_fhReturnOf us).table u (by omega)
        fun dev ino lstat found hu => hkeys dev ino lstat found (by simp [hu])
      rw [fhReturnOf_concat, List.length_append, List.length_singleton]
      exact ⟨hg', by omega⟩
  intro i hi
  have hr := returned_fhReturnOf us
  exact (hr.table.protected_iff (hr.within i hi)).2 (hguard.1.safe hr.table hi)

/-! ## After it has rolled over -/

theorem Oldest.unique {c : FhCache} {v v' : Nat} (h : Oldest c v) (h' : Oldest c v') : v = v' := by
  by_contra hne
  have h1 := h.2.2 v' h'.1 h'.2.1 (Ne.symm hne)
  have h2 := h'.2.2 v h.1 h.2.1 hne
  unfold FhCache.Older at h1 h2
  omega

/-- The entry of the file `/j+1` with the inode number `j + 1`. -/
def fileEntry (j use : Nat) : FhEntry :=
  { dev := 1, ino := UInt64.ofNat (j + 1), path := root ++ decimal (j + 1), use }

/-- The first `n` files are added. -/
def fillOf (n : Nat) : List FhUse :=
  (List.range n).map fun j => .add 1 (UInt64.ofNat (j + 1)) (root ++ decimal (j + 1))

/-- The first file is looked up, and found in the cache. -/
def hitFirst : FhUse := .decomp 1 1 (fun _ => .ok { dev := 1, ino := 1 }) none

/-- The whole table is filled, and the counter comes to its last value by hits of one file. -/
def beforeRollOver : List FhUse :=
  fillOf cacheEntries ++ List.replicate (2 ^ 32 - 1 - cacheEntries) hitFirst

/-- Then a file of another device is resolved. -/
def rollOver : List FhUse :=
  beforeRollOver ++ [.decomp 2 1 (fun _ => .error .enoent) (some (root ++ [98]))]

/-- The table of the first `n` files, the first of them last used at `use`. -/
def fileTable (n use time : Nat) (last : Option Nat) : FhCache :=
  { entry := fun j => if j < n then fileEntry j (if j = 0 then use else j + 1) else {}
    max := min n (cacheEntries - 1)
    time
    lastEntry := last }

attribute [ext] FhCache

theorem fileTable_entry {n use time : Nat} {last : Option Nat} {j : Nat} (hj : j < n) :
    (fileTable n use time last).entry j = fileEntry j (if j = 0 then use else j + 1) := if_pos hj

theorem fileTable_unused {n use time : Nat} {last : Option Nat} {j : Nat} (hj : ¬ j < n) :
    (fileTable n use time last).entry j = {} := if_neg hj

theorem fileTable_index_none {n use time : Nat} {last : Option Nat} {dev ino : ULong}
    (hne : (dev, ino) ≠ (0, 0)) (h : ∀ j < n, (1, UInt64.ofNat (j + 1)) ≠ (dev, ino)) :
    (fileTable n use time last).index dev ino = none := by
  refine FhCache.index_eq_none.2 fun j _ => ?_
  by_cases hj : j < n
  · rw [fileTable_entry hj]
    exact h j hj
  · rw [fileTable_unused hj]
    exact hne.symm

theorem ofNat_succ_inj {i j : Nat} (hi : i < cacheEntries) (hj : j < cacheEntries)
    (h : UInt64.ofNat (i + 1) = UInt64.ofNat (j + 1)) : i = j := by
  have := congrArg UInt64.toNat h
  simp only [UInt64.toNat_ofNat', cacheEntries] at this hi hj
  omega

/-- A file that is added takes the first entry that is not in use. -/
theorem fileTable_add {n : Nat} (hn : n < cacheEntries) (ht : FhTable (fileTable n 1 n none)) :
    (fileTable n 1 n none).add 1 (UInt64.ofNat (n + 1)) (root ++ decimal (n + 1)) =
      fileTable (n + 1) 1 (n + 1) none := by
  have hidx : (fileTable n 1 n none).index 1 (UInt64.ofNat (n + 1)) = none := by
    refine fileTable_index_none (by simp) fun j hj h => ?_
    have := ofNat_succ_inj (hj.trans hn) hn (Prod.ext_iff.1 h).2
    omega
  have hlru : (fileTable n 1 n none).lru.1 = n := by
    rcases (fileTable n 1 n none).lru_cases with ⟨hlt, h⟩ | ⟨hfull, _⟩
    · rw [h]
      simp only [fileTable] at hlt ⊢
      omega
    · refine (ht.oldest_lru hfull).unique ⟨hn, by simp [fileTable], fun j hj _ hjn => .inl ?_⟩
      simp only [fileTable, cacheEntries] at hfull hn hj
      have hjlt : j < n := by omega
      rw [fileTable_entry hjlt, fileTable_unused (Nat.lt_irrefl n)]
      change 0 < if j = 0 then 1 else j + 1
      split <;> omega
  have hslot : (fileTable n 1 n none).slotFor 1 (UInt64.ofNat (n + 1)) = n := by
    rw [FhCache.slotFor, hidx, Option.getD_none, hlru]
  have htime : (n + 1) % 2 ^ 32 = n + 1 := by
    rw [cacheEntries] at hn
    omega
  ext1
  · funext j
    rw [FhCache.entry_add, hslot]
    rcases lt_trichotomy j n with hj | rfl | hj
    · rw [if_neg hj.ne, fileTable_entry hj, fileTable_entry (hj.trans (Nat.lt_succ_self n))]
    · rw [if_pos rfl, fileTable_entry (Nat.lt_succ_self j), fileEntry]
      have huse : (if j = 0 then 1 else j + 1) = (j + 1) % 2 ^ 32 := by
        rw [htime]
        split <;> omega
      rw [huse]
      rfl
    · rw [if_neg hj.ne', fileTable_unused hj.not_gt, fileTable_unused (by omega)]
  · rw [FhCache.max_add, hidx]
    simp only [fileTable, true_and]
    rcases Nat.lt_or_ge n (cacheEntries - 1) with hlt | hge
    · rw [Nat.min_eq_left hlt.le, if_pos hlt, Nat.min_eq_left hlt]
    · rw [Nat.min_eq_right hge, if_neg (Nat.lt_irrefl _), Nat.min_eq_right (by omega)]
  · rw [FhCache.time_add]
    exact htime
  · exact FhCache.lastEntry_add _ _ _ _

theorem fillOf_table (n : Nat) (hn : n ≤ cacheEntries) :
    (fhReturnOf (fillOf n)).cache = fileTable n 1 n none := by
  induction n with
  | zero => rfl
  | succ n ih =>
    have hcache := ih (Nat.le_of_succ_le hn)
    have ht := (returned_fhReturnOf (fillOf n)).table
    rw [fillOf, List.range_succ, List.map_append, List.map_singleton, fhReturnOf_concat]
    change (fhReturnOf (fillOf n)).cache.add _ _ _ = _
    rw [hcache] at ht ⊢
    exact fileTable_add hn ht

/-- A hit of the first file. -/
theorem hitFirst_run {s : FhReturn} {use time : Nat} {last : Option Nat}
    (hs : s.cache = fileTable cacheEntries use time last) (htime : time + 1 < 2 ^ 32) :
    (hitFirst.run s).cache = fileTable cacheEntries (time + 1) (time + 1) (some 0) := by
  have hidx : s.cache.index 1 1 = some 0 := by
    rw [hs]
    exact FhCache.index_eq_some.2 ⟨Nat.zero_le _, rfl, fun j hj => absurd hj (Nat.not_lt_zero j)⟩
  have hclock : (s.cache.time + 1) % 2 ^ 32 = time + 1 := by
    rw [hs]
    exact Nat.mod_eq_of_lt htime
  have hlook : s.cache.lookup (fun _ => .ok { dev := 1, ino := 1 }) 1 1 =
      (some ((s.cache.entry 0).path, { dev := 1, ino := 1 }), s.cache.touch 0) := by
    rw [FhCache.lookup, hidx]
    rfl
  have hrun : (hitFirst.run s).cache = s.cache.touch 0 := by
    dsimp only [hitFirst, FhUse.run]
    rw [hlook]
  rw [hrun]
  ext1
  · funext j
    rw [FhCache.entry_touch, hclock, hs]
    by_cases hj : j = 0
    · rw [if_pos hj, hj]
      rfl
    · rw [if_neg hj]
      by_cases hlt : j < cacheEntries
      · rw [fileTable_entry hlt, fileTable_entry hlt, if_neg hj, if_neg hj]
      · rw [fileTable_unused hlt, fileTable_unused hlt]
  · rw [FhCache.touch, hs]
    rfl
  · exact hclock
  · rfl

theorem hits_table {s : FhReturn} {use time : Nat} {last : Option Nat} (m : Nat) (hm : 0 < m)
    (hs : s.cache = fileTable cacheEntries use time last) (htime : time + m < 2 ^ 32) :
    ((List.replicate m hitFirst).foldl FhUse.run s).cache =
      fileTable cacheEntries (time + m) (time + m) (some 0) := by
  induction m with
  | zero => omega
  | succ m ih =>
    rw [List.replicate_succ', List.foldl_append]
    rcases Nat.eq_zero_or_pos m with rfl | hpos
    · exact hitFirst_run hs htime
    · exact hitFirst_run (ih hpos (by omega)) htime

theorem beforeRollOver_table : (fhReturnOf beforeRollOver).cache =
    fileTable cacheEntries (2 ^ 32 - 1) (2 ^ 32 - 1) (some 0) := by
  have hsum : cacheEntries + (2 ^ 32 - 1 - cacheEntries) = 2 ^ 32 - 1 :=
    Nat.add_sub_cancel' (by decide)
  have h := hits_table (2 ^ 32 - 1 - cacheEntries) (by decide)
    (fillOf_table cacheEntries le_rfl) (by rw [hsum]; decide)
  rw [hsum] at h
  rw [beforeRollOver, fhReturnOf_append, h]

/-- A full table gives up the second file after the first was hit last. -/
theorem fileTable_oldest {use time : Nat} :
    Oldest (fileTable cacheEntries use time (some 0)) 1 := by
  refine ⟨by decide, by simp [fileTable], fun j hj hne hj1 => .inl ?_⟩
  have hj0 : j ≠ 0 := fun h => hne (by rw [h]; rfl)
  rw [fileTable_entry (by decide), fileTable_entry hj, if_neg hj0]
  change 2 < j + 1
  omega

theorem fileTable_missing {use time : Nat} {last : Option Nat} {dev : ULong}
    (hdev : dev ≠ 1) : (fileTable cacheEntries use time last).index dev 1 = none :=
  fileTable_index_none (by simp) fun j _ h => hdev (Prod.ext_iff.1 h).1.symm

/-- The second device's file takes the place of the second file, with the time 0. -/
theorem rollOver_run {s : FhReturn} (ht : FhTable s.cache)
    (hs : s.cache = fileTable cacheEntries (2 ^ 32 - 1) (2 ^ 32 - 1) (some 0)) :
    (FhUse.decomp 2 1 (fun _ => .error .enoent) (some (root ++ [98]))).run s =
        ⟨s.cache.add 2 1 (root ++ [98]), some 1⟩ ∧
      ∀ j, (s.cache.add 2 1 (root ++ [98])).entry j =
        if j = 1 then { dev := 2, ino := 1, path := root ++ [98], use := 0 }
        else s.cache.entry j := by
  have hmax : s.cache.max = cacheEntries - 1 := by rw [hs]; rfl
  have hidx : s.cache.index 2 1 = none := by rw [hs]; exact fileTable_missing (by decide)
  have hslot : s.cache.slotFor 2 1 = 1 := by
    rw [FhCache.slotFor, hidx, Option.getD_none]
    refine (ht.oldest_lru hmax.ge).unique ?_
    rw [hs]
    exact fileTable_oldest
  refine ⟨?_, fun j => ?_⟩
  · rcases FhUse.decomp_cases s 2 1 (fun _ => .error .enoent) (some (root ++ [98])) with
      ⟨i, _, hi, _⟩ | ⟨c, _, ⟨_, rfl⟩ | ⟨i, hi, _⟩, hr⟩
    · rw [hidx] at hi
      cases hi
    · rw [hr, hslot]
      rfl
    · rw [hidx] at hi
      cases hi
  · have htime : s.cache.time = 2 ^ 32 - 1 := by rw [hs]; rfl
    have hzero : (2 ^ 32 - 1 + 1) % 2 ^ 32 = 0 := by norm_num
    rw [FhCache.entry_add, hslot, htime, hzero]

/-- After it, the entry with the time 0 is the next to be given up. -/
theorem rollOver_slotFor {c : FhCache} {s : FhReturn} (hs : s.cache =
      fileTable cacheEntries (2 ^ 32 - 1) (2 ^ 32 - 1) (some 0)) (hr : Returned ⟨c, some 1⟩)
    (hc : c = s.cache.add 2 1 (root ++ [98]))
    (hentry : ∀ j, c.entry j = if j = 1 then
        { dev := 2, ino := 1, path := root ++ [98], use := 0 } else s.cache.entry j) :
    c.slotFor 3 1 = 1 := by
  have hmax : s.cache.max = cacheEntries - 1 := by rw [hs]; rfl
  have hfull : cacheEntries - 1 ≤ c.max := by
    rw [hc, ← hmax]
    exact FhTable.max_le_add _ _ _ _
  have hlast : c.lastEntry = some 0 := by
    rw [hc, FhCache.lastEntry_add, hs]
    rfl
  have hidx : c.index 3 1 = none := by
    refine FhCache.index_eq_none.2 fun j hj => ?_
    rw [hentry]
    split
    · simp
    · have hno : s.cache.index 3 1 = none := by rw [hs]; exact fileTable_missing (by decide)
      have := hr.table.max
      exact FhCache.index_eq_none.1 hno j (by dsimp only at this; omega)
  rw [FhCache.slotFor, hidx, Option.getD_none]
  refine (hr.table.oldest_lru hfull).unique ⟨by decide, by simp [hlast], fun j hj hne hj1 => ?_⟩
  have hj0 : j ≠ 0 := fun h => hne (by rw [h]; exact hlast)
  left
  rw [hentry, hentry, if_pos rfl, if_neg hj1, hs, fileTable_entry hj, if_neg hj0]
  exact Nat.succ_pos j

theorem rollOver_overwritten {s : FhReturn} (hr : Returned s)
    (hs : s.cache = fileTable cacheEntries (2 ^ 32 - 1) (2 ^ 32 - 1) (some 0)) :
    ∃ c, (FhUse.decomp 2 1 (fun _ => .error .enoent) (some (root ++ [98]))).run s = ⟨c, some 1⟩ ∧
      c.entry 1 = { dev := 2, ino := 1, path := root ++ [98], use := 0 } ∧
      (c.add 3 1 (root ++ [99])).entry 1 =
        { dev := 3, ino := 1, path := root ++ [99], use := 1 } := by
  obtain ⟨hdec, hentry⟩ := rollOver_run hr.table hs
  have hr' := hr.run (.decomp 2 1 (fun _ => .error .enoent) (some (root ++ [98])))
  rw [hdec] at hr'
  have hslot := rollOver_slotFor hs hr' rfl hentry
  have htime : (s.cache.add 2 1 (root ++ [98])).time = 0 := by
    have : s.cache.time = 2 ^ 32 - 1 := by rw [hs]; rfl
    rw [FhCache.time_add, this]
    norm_num
  refine ⟨_, hdec, (hentry 1).trans (if_pos rfl), ?_⟩
  rw [FhCache.entry_add, hslot, htime]
  rfl

/-- The counter has rolled over: the entry that was returned counts as the oldest, and the next
file overwrites it. -/
theorem path_overwritten :
    (fhReturnOf rollOver).returned = some 1 ∧
      (fhReturnOf rollOver).cache.entry 1 =
        { dev := 2, ino := 1, path := root ++ [98], use := 0 } ∧
      ((fhReturnOf rollOver).cache.add 3 1 (root ++ [99])).entry 1 =
        { dev := 3, ino := 1, path := root ++ [99], use := 1 } ∧
      ¬ (fhReturnOf rollOver).cache.Protected 1 := by
  obtain ⟨c, hrun, hone, hnext⟩ :=
    rollOver_overwritten (returned_fhReturnOf beforeRollOver) beforeRollOver_table
  have hc : fhReturnOf rollOver = ⟨c, some 1⟩ := by rw [rollOver, fhReturnOf_concat, hrun]
  rw [hc]
  refine ⟨rfl, hone, hnext, fun hp => ?_⟩
  have hsame := (hnext.symm.trans (hp 3 1 (root ++ [99]) (by rw [hone]; decide))).trans hone
  exact absurd hsame (by decide)

end NfsRods
