import NfsRods.MountTable
import NfsRods.Proof.MountList

/-!
# The mount list in memory, and its count

What the chain of cells holds is said once (`MountTable.Holds`): the cells are there, no cell is in
the list twice, none is lost, and `mount_cnt` is their number.

* `MountTable.Holds.addMount_holds`: `add_mount` appends an entry.
* `MountTable.Holds.removeMount_holds`: `remove_mount` leaves the entries it does not match, in
  their order.
* `Mountd.Means`: the chain stands for the server's list. `Mountd.Means.umnt_run`: UMNT and UMNTALL
  leave what they leave of the list that is meant, and purge the descriptors exactly if it is empty
  then.
* `mountd_counts`: all this in every state that the requests reach.
-/

namespace NfsRods

open Cells CStr

/-! ## What the chain holds -/

/-- The list consists of these cells, and of no others that are in use. -/
structure MountTable.Holds (t : MountTable) (xs : List (Nat × Mountbody)) : Prop where
  leads : t.bodies.Leads t.mountList xs none
  nodup : (xs.map (·.1)).Nodup
  owned : ∀ k, t.bodies k ≠ none → k ∈ xs.map (·.1)
  cnt : t.mountCnt = xs.length

namespace MountTable

variable {t t' : MountTable} {xs : List (Nat × Mountbody)} {path : Option CStr} {host : CStr}

theorem holds_empty : ({} : MountTable).Holds [] :=
  { leads := rfl, nodup := List.nodup_nil, owned := fun _ h => absurd rfl h, cnt := rfl }

theorem Holds.fresh (h : t.Holds xs) {k : Nat} (hk : t.bodies k = none) : k ∉ xs.map (·.1) := by
  intro hmem
  obtain ⟨x, hx, rfl⟩ := List.mem_map.1 hmem
  obtain ⟨_, hcell⟩ := h.leads.mem hx
  cases hk.symm.trans hcell

theorem Holds.empty_iff (h : t.Holds xs) : t.mountList = none ↔ xs = [] := by
  rw [h.leads.head]
  cases xs <;> simp

theorem Holds.cnt_zero_iff (h : t.Holds xs) : t.mountCnt = 0 ↔ t.mountList = none := by
  rw [h.empty_iff, h.cnt]
  simp

/-! ## `add_mount` -/

/-- A cell is put at the end of the list. -/
theorem Holds.append (h : t.Holds xs) {new : Nat} (hnew : t.bodies new = none) (b : Mountbody)
    (bodies : Cells Mountbody) (list : Option Nat)
    (hleads : bodies.Leads list (xs ++ [(new, b)]) none)
    (howned : ∀ k, bodies k ≠ none → k = new ∨ t.bodies k ≠ none) :
    MountTable.Holds { bodies := bodies, mountList := list, mountCnt := t.mountCnt + 1 }
      (xs ++ [(new, b)]) where
  leads := hleads
  nodup := by
    rw [List.map_append, List.nodup_append]
    refine ⟨h.nodup, List.nodup_singleton _, ?_⟩
    intro k hk j hj
    rw [List.map_singleton, List.mem_singleton] at hj
    rintro rfl
    exact h.fresh hnew (by rwa [hj] at hk)
  owned := by
    intro k hk
    rcases howned k hk with rfl | hk
    · simp
    · rw [List.map_append]
      exact List.mem_append_left _ (h.owned k hk)
  cnt := by simp [h.cnt]

/-- **`add_mount`** appends an entry if there is memory for it; the steps that the loop needs are
one for each entry. -/
theorem Holds.addMount_holds (h : t.Holds xs) {al : Mallocs} {new : Nat}
    (hbody : al.body = some new) (hok : al.ok = true) (hnew : t.bodies new = none) (p : CStr)
    (remote : UInt32) :
    ∃ t', t'.Holds (xs ++ [(new, { hostname := inetNtoa remote, directory := p })]) ∧
      ∀ fuel, addMount fuel al p remote t =
        if xs.length ≤ fuel ∧ t.mountCnt ≠ intMax then some t' else none := by
  have hstrings : ¬ (al.hostname = false ∨ al.directory = false) := by
    simp only [Mallocs.ok, Bool.and_eq_true] at hok
    simp [hok]
  generalize hb : ({ hostname := inetNtoa remote, directory := p } : Mountbody) = b
  have hfresh := h.fresh hnew
  rcases List.eq_nil_or_concat' xs with rfl | ⟨ys, y, rfl⟩
  · have hnone : t.mountList = none := h.leads
    refine ⟨_, h.append hnew b (t.bodies.store new { item := b }) (some new)
      ⟨rfl, none, store_self, rfl⟩ ?_, ?_⟩
    · intro k hk
      by_cases hkn : k = new
      · exact .inl hkn
      · exact .inr (by rwa [store_other hkn] at hk)
    · intro fuel
      simp only [addMount, hbody, if_neg hstrings, hnone, hb]
      by_cases hmax : t.mountCnt = intMax <;> simp [hmax]
  · obtain ⟨iter, hiter⟩ : ∃ iter, t.mountList = some iter := by
      rw [h.leads.head]
      cases ys <;> simp
    have hchain : (t.bodies.store new { item := b }).Leads (some iter) (ys ++ [y]) none :=
      hiter ▸ h.leads.store hfresh
    have hynew : y.1 ≠ new := by
      intro hy
      exact hfresh (by simp [hy])
    have hcell : t.bodies y.1 = some { item := y.2, next := none } := by
      obtain ⟨_, -, -, next, hy, rfl⟩ := Leads.append_iff.1 h.leads
      exact hy
    have hnodup := h.nodup
    rw [List.map_append, List.map_singleton, List.nodup_append] at hnodup
    have hlink := hchain.link (fun hy => hnodup.2.2 _ hy _ (List.mem_singleton_self _) rfl)
      (some new)
    refine ⟨_, h.append hnew b _ _ (Leads.append_iff.2 ⟨some new, hlink, rfl, none, ?_, rfl⟩) ?_,
      ?_⟩
    · rw [store_other (Ne.symm hynew), store_self]
    · intro k hk
      by_cases hkn : k = new
      · exact .inl hkn
      by_cases hky : k = y.1
      · exact .inr (by simp [hky, hcell])
      · exact .inr (by rwa [store_other hky, store_other hkn] at hk)
    · intro fuel
      have hlast := Cells.last_eq fuel hchain
      simp only [addMount, hbody, if_neg hstrings, hiter, hb, hlast]
      by_cases hfuel : ys.length < fuel
      · by_cases hmax : t.mountCnt = intMax <;>
          simp [hfuel, hmax, store_other hynew, hcell, Nat.succ_le_of_lt hfuel]
      · simp [hfuel]

/-- Without memory the list stays as it is. -/
theorem addMount_failed {al : Mallocs} (hok : al.ok = false) (fuel : Nat) (p : CStr)
    (remote : UInt32) (t : MountTable) : addMount fuel al p remote t = some t := by
  obtain ⟨body, hostname, directory⟩ := al
  cases body with
  | none => rfl
  | some new => cases hostname <;> cases directory <;> first | rfl | cases hok

/-! ## `remove_mount` -/

variable {kept rest : List (Nat × Mountbody)} {x : Nat × Mountbody}

theorem Holds.cnt_pos (h : t.Holds (kept ++ x :: rest)) : 0 < t.mountCnt := by
  have hcnt := h.cnt
  simp only [List.length_append, List.length_cons] at hcnt
  omega

/-- A cell has been taken out of the list and given back. -/
theorem Holds.without (h : t.Holds (kept ++ x :: rest)) {bodies : Cells Mountbody}
    {list : Option Nat} (hleads : (bodies.free x.1).Leads list (kept ++ rest) none)
    (howned : ∀ k, bodies k ≠ none → t.bodies k ≠ none) :
    MountTable.Holds
      { bodies := bodies.free x.1, mountList := list, mountCnt := t.mountCnt - 1 }
      (kept ++ rest) where
  leads := hleads
  nodup := by
    have hnodup := h.nodup
    rw [List.map_append, List.map_cons, List.nodup_middle, List.nodup_cons] at hnodup
    rw [List.map_append]
    exact hnodup.2
  owned := by
    intro k hk
    have hkx : k ≠ x.1 := by
      rintro rfl
      exact hk free_self
    have hk : bodies k ≠ none := fun hb => hk ((free_other hkx).trans hb)
    have hmem := h.owned k (howned k hk)
    rw [List.map_append, List.map_cons] at hmem
    rw [List.map_append]
    simpa [hkx] using hmem
  cnt := by
    have hcnt := h.cnt
    simp only [List.length_append, List.length_cons] at hcnt ⊢
    omega

/-- A cell that does not match: the loop goes on after it. -/
theorem removeLoop_keep (h : t.Holds (kept ++ x :: rest)) (hx : gone path host x.2 = false)
    (prev : Option Nat) (fuel : Nat) :
    removeLoop path host (fuel + 1) prev (some x.1) t =
      removeLoop path host fuel (some x.1) (rest.head?.map (·.1)) t := by
  obtain ⟨r, -, -, next, hcell, hrest⟩ := Leads.append_iff.1 h.leads
  rw [removeLoop, hcell, ← hrest.head]
  simp [hx]

/-- A cell that matches is taken out of the list, the first one or one after others. -/
theorem removeLoop_gone (h : t.Holds (kept ++ x :: rest)) (hx : gone path host x.2 = true) :
    ∃ t', t'.Holds (kept ++ rest) ∧ ∀ fuel,
      removeLoop path host (fuel + 1) (kept.getLast?.map (·.1)) (some x.1) t =
        removeLoop path host fuel (kept.getLast?.map (·.1)) (rest.head?.map (·.1)) t' := by
  rcases List.eq_nil_or_concat' kept with rfl | ⟨ks, z, rfl⟩
  · have hxs : x.1 ∉ rest.map (·.1) := (List.nodup_cons.1 h.nodup).1
    obtain ⟨next, hcell, hrest⟩ := h.leads.behead hxs
    refine ⟨_, h.without hrest fun _ hk => hk, fun fuel => ?_⟩
    rw [removeLoop, hcell, ← hrest.head]
    simp [hx, h.cnt_pos]
  · obtain ⟨next, link, hcell, hz, hleads⟩ := h.leads.unlink h.nodup
    have hnext : next = rest.head?.map (·.1) := by
      obtain ⟨r, -, hrest⟩ := Leads.append_iff.1 hleads
      obtain ⟨r', -, -, next', hcell', hrest'⟩ := Leads.append_iff.1 h.leads
      cases hcell.symm.trans hcell'
      exact hrest'.head
    refine ⟨_, h.without hleads fun k hk => ?_, fun fuel => ?_⟩
    · by_cases hkz : k = z.1
      · simp [hkz, hz]
      · rwa [store_other hkz] at hk
    · rw [removeLoop, hcell, List.getLast?_concat, ← hnext]
      simp [hx, hz, h.cnt_pos]

/-- The loop: the cells before `iter` have been kept, and `prev` is the last of them. -/
theorem removeLoop_holds (path : Option CStr) (host : CStr) (h : t.Holds (kept ++ rest)) :
    ∃ t', t'.Holds (kept ++ rest.filter fun x => !gone path host x.2) ∧ ∀ fuel,
      removeLoop path host fuel (kept.getLast?.map (·.1)) (rest.head?.map (·.1)) t =
        if rest.length ≤ fuel then some t' else none := by
  induction rest generalizing kept t with
  | nil =>
    refine ⟨t, h, fun fuel => ?_⟩
    cases fuel <;> rfl
  | cons x rest ih =>
    cases hx : gone path host x.2 with
    | true =>
      obtain ⟨t1, h1, hstep⟩ := removeLoop_gone h hx
      obtain ⟨t', h', hloop⟩ := ih h1
      refine ⟨t', by simpa [hx] using h', fun fuel => ?_⟩
      cases fuel with
      | zero => simp [removeLoop]
      | succ fuel => simp [hstep, hloop]
    | false =>
      have hkept : t.Holds (kept ++ [x] ++ rest) := by simpa using h
      obtain ⟨t', h', hloop⟩ := ih hkept
      refine ⟨t', by simpa [hx] using h', fun fuel => ?_⟩
      rw [List.getLast?_concat] at hloop
      cases fuel with
      | zero => simp [removeLoop]
      | succ fuel =>
        rw [List.head?_cons, Option.map_some, removeLoop_keep h hx, ← Option.map_some, hloop]
        simp

/-- **`remove_mount`** leaves the entries that do not match, in their order. -/
theorem Holds.removeMount_holds (h : t.Holds xs) (path : Option CStr) (remote : UInt32) :
    ∃ t', t'.Holds (xs.filter fun x => !gone path (inetNtoa remote) x.2) ∧ ∀ fuel,
      removeMount fuel path remote t = if xs.length ≤ fuel then some t' else none := by
  obtain ⟨t', h', hloop⟩ := removeLoop_holds path (inetNtoa remote)
    (show t.Holds ([] ++ xs) from h)
  refine ⟨t', h', fun fuel => ?_⟩
  rw [removeMount, h.leads.head]
  exact hloop fuel

end MountTable

/-! ## The daemon -/

/-- The entry as it is in memory. -/
def MountEntry.body (m : MountEntry) : Mountbody :=
  { hostname := inetNtoa m.hostname, directory := m.directory }

/-- Hosts are compared as text: no two addresses are written alike. -/
theorem gone_body (path : Option CStr) (remote : UInt32) (m : MountEntry) :
    MountTable.gone path (inetNtoa remote) m.body =
      (m.hostname == remote && path.all (· == m.directory)) := by
  have hhost : (inetNtoa m.hostname == inetNtoa remote) = (m.hostname == remote) := by
    rw [Bool.eq_iff_iff, beq_iff_eq, beq_iff_eq]
    exact ⟨inetNtoa_inj, fun h => by rw [h]⟩
  rw [MountTable.gone, MountEntry.body, hhost]

section
variable {L R : Type} {w : World L R} {d d' : Mountd L R} {xs : List (Nat × Mountbody)}

/-- The chain stands for the server's list. -/
structure Mountd.Means (d : Mountd L R) (xs : List (Nat × Mountbody)) : Prop where
  holds : d.table.Holds xs
  list : xs.map (·.2) = d.server.mountList.map MountEntry.body
  cnt : d.server.mountCnt = d.server.mountList.length

/-- The daemon after start-up. -/
def Mountd.Initial (d : Mountd L R) : Prop := ∃ s, NfsRods.Initial s ∧ d = { server := s }

theorem Mountd.Initial.means (h : d.Initial) : d.Means [] := by
  obtain ⟨_, ⟨_, _, _, _, _, _, rfl⟩, rfl⟩ := h
  exact { holds := MountTable.holds_empty, list := rfl, cnt := rfl }

/-! ## MNT -/

theorem mountReply_isMounted (list : List EItem) (k : L) (rq : SvcReq) (auth : Bool)
    (dir : Option CStr) :
    (mountReply w list k rq auth dir).isMounted = true ↔
      (mountReply w list k rq auth dir).status = .ok := by
  cases dir with
  | none => simp [mountReply, Mountres3.isMounted]
  | some dir =>
    rw [mountReply]
    split_ifs <;> simp [Mountres3.isMounted]

/-- MNT adds an entry exactly if the reply has the handle of a directory. -/
theorem mountprocMnt_entry (argp : CStr) (rq : SvcReq) (s : Server L R) :
    ∃ s', mountprocMnt w argp rq s = (.ok (mntReply w argp rq s), s') ∧
      if (mntReply w argp rq s).isMounted = true then
        s'.mountList =
          s.mountList ++ [{ hostname := rq.remote, directory := (mntCmd argp).dpath }] ∧
        s'.mountCnt = s.mountCnt + 1
      else s'.mountList = s.mountList ∧ s'.mountCnt = s.mountCnt := by
  by_cases hv : rq.vers = 3
  · by_cases hn : mntCmd argp = .getnonce
    · have hreply : mntReply w argp rq s =
          { status := .ok, info := some (.nonce (w.genNonce s.nonces)) } := by
        rw [mntReply, if_neg (by simp [hv]), if_pos hn]
      refine ⟨{ s with nonce := w.genNonce s.nonces, nonces := s.nonces + 1 }, ?_, ?_⟩
      · simp only [mountprocMnt, hv, hn, hreply, ne_eq, not_true_eq_false, if_false]
        rfl
      · simp [hreply, Mountres3.isMounted]
    · obtain ⟨_, s', hrun, -, -, hlist, hcnt⟩ := mountprocMnt_run (w := w) hv hn s
      refine ⟨s', hrun, ?_⟩
      have hmounted : (mntReply w argp rq s).isMounted = true ↔
          (mntReply w argp rq s).status = .ok := by
        rw [mntReply, if_neg (by simp [hv]), if_neg hn]
        exact mountReply_isMounted ..
      by_cases hok : (mntReply w argp rq s).status = .ok
      · rw [if_pos (hmounted.2 hok), hlist, hcnt, if_pos hok, if_pos hok]
        exact ⟨rfl, rfl⟩
      · rw [if_neg fun h => hok (hmounted.1 h), hlist, hcnt, if_neg hok, if_neg hok]
        exact ⟨rfl, rfl⟩
  · have hreply : mntReply w argp rq s = { status := .inval } := by rw [mntReply, if_pos hv]
    refine ⟨s, ?_, by simp [hreply, Mountres3.isMounted]⟩
    simp only [mountprocMnt, ne_eq, hv, hreply, not_false_eq_true, if_true]
    rfl

/-- A MNT adds its entry to the chain, or leaves it as it is. -/
theorem Mountd.mnt_means (h : d.Means xs) {fuel : Nat} {al : Mallocs} {argp : CStr} {rq : SvcReq}
    (hfresh : ∀ k, al.body = some k → d.table.bodies k = none)
    (hmnt : d.mnt w fuel al argp rq = some d') : ∃ xs', d'.Means xs' := by
  obtain ⟨s, hrun, hentry⟩ := mountprocMnt_entry (w := w) argp rq d.server
  rw [Mountd.mnt, hrun] at hmnt
  dsimp only at hmnt
  by_cases hm : (mntReply w argp rq d.server).isMounted = true
  · rw [if_pos hm] at hmnt hentry
    by_cases hok : al.ok = true
    · obtain ⟨new, hbody⟩ : ∃ new, al.body = some new := by
        simp only [Mallocs.ok, Bool.and_eq_true] at hok
        exact Option.isSome_iff_exists.1 hok.1.1
      obtain ⟨t, ht, hadd⟩ :=
        h.holds.addMount_holds hbody hok (hfresh new hbody) (mntCmd argp).dpath rq.remote
      rw [hadd, if_pos hok] at hmnt
      split_ifs at hmnt
      · cases hmnt
        refine ⟨_, ht, ?_, ?_⟩
        · show List.map _ _ = List.map _ s.mountList
          rw [hentry.1, List.map_append, List.map_append, h.list]
          rfl
        · show s.mountCnt = s.mountList.length
          rw [hentry.1, hentry.2, h.cnt, List.length_append]
          rfl
      · cases hmnt
    · rw [MountTable.addMount_failed (by simpa using hok), if_neg hok] at hmnt
      cases hmnt
      exact ⟨xs, h.holds, h.list, h.cnt⟩
  · rw [if_neg hm] at hmnt hentry
    cases hmnt
    refine ⟨xs, h.holds, ?_, ?_⟩
    · show _ = List.map _ s.mountList
      rw [hentry.1, h.list]
    · show s.mountCnt = s.mountList.length
      rw [hentry.1, hentry.2, h.cnt]

/-! ## UMNT and UMNTALL -/

/-- The chain and the server's list agree on what is left. -/
theorem Mountd.Means.filter (h : d.Means xs) (path : Option CStr) (remote : UInt32) :
    (xs.filter fun x => !MountTable.gone path (inetNtoa remote) x.2).map (·.2) =
      (d.server.mountList.filter fun m =>
        !(m.hostname == remote && path.all (· == m.directory))).map MountEntry.body := by
  calc (xs.filter fun x => !MountTable.gone path (inetNtoa remote) x.2).map (·.2)
      = (xs.map (·.2)).filter fun b => !MountTable.gone path (inetNtoa remote) b := by
        rw [List.filter_map]
        rfl
    _ = _ := by
        rw [h.list, List.filter_map]
        simp only [Function.comp_def, gone_body]

/-- What UMNT leaves of the server's list is purged if it is empty. -/
theorem umnt_purges (path : Option CStr) (rq : SvcReq) (s : Server L R) :
    (umnt w path rq s).2 =
      if (removeMount path rq s).2.mountCnt = 0 then
        (fdCachePurge w (removeMount path rq s).2).2
      else (removeMount path rq s).2 := by
  have hrun : removeMount path rq s = (.ok (), (removeMount path rq s).2) := rfl
  rw [umnt, Prog.bind_ok hrun, Prog.get_bind_run, Prog.when]
  split_ifs <;> rfl

/-- **UMNT**, and UMNTALL with `none`: the entries that match are taken off, and the descriptors are
purged exactly if none is left. -/
theorem Mountd.Means.umnt_run (h : d.Means xs) (path : Option CStr) (rq : SvcReq) :
    ∃ d' : Mountd L R,
      d'.Means (xs.filter fun x => !MountTable.gone path (inetNtoa rq.remote) x.2) ∧
      d'.server = (NfsRods.umnt w path rq d.server).2 ∧
      d'.purges = (if d'.table.mountList = none then d.purges + 1 else d.purges) ∧
      ∀ fuel, d.umnt w fuel path rq = if xs.length ≤ fuel then some d' else none := by
  obtain ⟨t, ht, hremove⟩ := h.holds.removeMount_holds path rq.remote
  have hlist := h.filter path rq.remote
  have hlen := congrArg List.length hlist
  have hcount := List.length_eq_countP_add_countP
    (fun m : MountEntry => m.hostname == rq.remote && path.all (· == m.directory))
    (l := d.server.mountList)
  simp only [List.length_map] at hlen
  -- the server's count is that of the chain
  have hcnt : (removeMount path rq d.server).2.mountCnt =
      (d.server.mountList.filter fun m =>
        !(m.hostname == rq.remote && path.all (· == m.directory))).length := by
    show d.server.mountCnt - List.countP _ d.server.mountList = _
    rw [h.cnt, ← List.countP_eq_length_filter]
    simp only [decide_not, Bool.decide_eq_true] at hcount
    omega
  have hzero : t.mountCnt = 0 ↔ (removeMount path rq d.server).2.mountCnt = 0 := by
    rw [ht.cnt, hcnt, hlen]
    omega
  obtain ⟨s', hs', hkeep⟩ := NfsRods.umnt_run (w := w) path rq d.server
  have hside : (NfsRods.umnt w path rq d.server).2.mountCnt =
      (removeMount path rq d.server).2.mountCnt := by
    rw [umnt_purges]
    split
    · obtain ⟨_, s1, hrun, hsweep⟩ := fdCachePurge_run (w := w) (removeMount path rq d.server).2
      rw [hrun]
      show s1.mountCnt = _
      rw [hsweep.side]
    · rfl
  refine ⟨{ server := (NfsRods.umnt w path rq d.server).2, table := t
            purges := if t.mountList = none then d.purges + 1 else d.purges }, ⟨ht, ?_, ?_⟩, rfl,
    rfl, fun fuel => ?_⟩
  · rw [hlist, hs', hkeep]
  · rw [hside, hcnt, hs', hkeep]
  · rw [Mountd.umnt, hremove]
    by_cases hfuel : xs.length ≤ fuel
    · rw [if_pos hfuel, if_pos hfuel, umnt_purges]
      by_cases hz : t.mountCnt = 0
      · simp [hz, hzero.1 hz, ht.cnt_zero_iff.1 hz]
      · simp [hz, mt hzero.2 hz, mt ht.cnt_zero_iff.2 hz]
    · simp [hfuel]

theorem MountStep.means (h : d.Means xs) (hstep : MountStep w d d') : ∃ xs', d'.Means xs' := by
  cases hstep with
  | mnt hfresh hmnt => exact Mountd.mnt_means h hfresh hmnt
  | @umnt fuel path rq _ _ humnt =>
    obtain ⟨d1, hmeans, -, -, hrun⟩ := h.umnt_run (w := w) path rq
    rw [hrun] at humnt
    split_ifs at humnt
    cases humnt
    exact ⟨_, hmeans⟩

theorem mountd_means {d0 : Mountd L R} (h0 : d0.Initial)
    (hrun : Relation.ReflTransGen (MountStep w) d0 d) : ∃ xs, d.Means xs := by
  induction hrun with
  | refl => exact ⟨[], h0.means⟩
  | tail _ hstep ih =>
    obtain ⟨xs, h⟩ := ih
    exact hstep.means h

end

/-- **The count is the length of the list** in every state that MNT, UMNT and UMNTALL reach, also
where there has been no memory for an entry; `remove_mount` leaves the entries that it does not
match in their order; and UMNT and UMNTALL purge the descriptors exactly if the list is empty
afterwards. -/
theorem mountd_counts {L R : Type} (w : World L R) (d0 d : Mountd L R) (h0 : d0.Initial)
    (hrun : Relation.ReflTransGen (MountStep w) d0 d) :
    ∃ xs : List (Nat × Mountbody), d.table.bodies.Leads d.table.mountList xs none ∧
      d.table.mountCnt = xs.length ∧
      (∀ (path : Option CStr) (remote : UInt32), ∃ t : MountTable,
        (∀ fuel, d.table.removeMount fuel path remote =
          if xs.length ≤ fuel then some t else none) ∧
        t.Holds (xs.filter fun x => !MountTable.gone path (inetNtoa remote) x.2)) ∧
      ∀ (path : Option CStr) (rq : SvcReq), ∃ d' : Mountd L R,
        (∀ fuel, d.umnt w fuel path rq = if xs.length ≤ fuel then some d' else none) ∧
        d'.purges = (if d'.table.mountList = none then d.purges + 1 else d.purges) ∧
        d'.server = (umnt w path rq d.server).2 := by
  obtain ⟨xs, h⟩ := mountd_means h0 hrun
  refine ⟨xs, h.holds.leads, h.holds.cnt, fun path remote => ?_, fun path rq => ?_⟩
  · obtain ⟨t, ht, hremove⟩ := h.holds.removeMount_holds path remote
    exact ⟨t, hremove, ht⟩
  · obtain ⟨d', -, hserver, hpurges, humnt⟩ := h.umnt_run (w := w) path rq
    exact ⟨d', humnt, hpurges, hserver⟩

/-! ## Four mounts from two hosts -/

/-- MNT requests for a path, one after another: where the cell is put, and the host. -/
def mountAll {L R : Type} (w : World L R) (fuel : Nat) (argp : CStr) :
    List (Nat × UInt32) → Mountd L R → Option (Mountd L R)
  | [], d => some d
  | (k, remote) :: reqs, d =>
    if (d.table.bodies k).isSome then none
    else (d.mnt w fuel { body := some k, hostname := true, directory := true } argp
      { remote, uid := 0, gid := 0 }).bind (mountAll w fuel argp reqs)

theorem mountAll_steps {L R : Type} {w : World L R} {fuel : Nat} {argp : CStr}
    {reqs : List (Nat × UInt32)} {d d' : Mountd L R} (h : mountAll w fuel argp reqs d = some d') :
    Relation.ReflTransGen (MountStep w) d d' := by
  induction reqs generalizing d with
  | nil =>
    obtain rfl := Option.some.inj h
    exact .refl
  | cons req reqs ih =>
    rw [mountAll] at h
    split at h
    · cases h
    · rename_i hfresh
      obtain ⟨d1, hmnt, hrest⟩ := Option.bind_eq_some_iff.1 h
      refine .head (.mnt (fun k hk => ?_) hmnt) (ih hrest)
      cases hk
      exact Option.not_isSome_iff_eq_none.1 hfresh

/-- An entry for `/m`. -/
def mediaBody (remote : UInt32) : Mountbody :=
  { hostname := inetNtoa remote, directory := lit "/m" }

/-- One host has mounted `/m` before another one, twice, and after it: UMNT takes the head of the
list, the entry beside it and the tail. -/
theorem mountd_unmounts : ∃ (d : Mountd Sandbox.Kernel Sandbox.Grid) (xs : List (Nat × Mountbody)),
    Relation.ReflTransGen (MountStep Sandbox.publicWorld) { server := plainServer } d ∧
    d.table.bodies.Leads d.table.mountList xs none ∧ d.table.mountCnt = xs.length ∧
    xs.map (·.2) = [mediaBody 0, mediaBody 0, mediaBody 1, mediaBody 0] ∧
    (∃ (t : MountTable) (ys : List (Nat × Mountbody)),
      d.table.removeMount 4 (some (lit "/m")) 0 = some t ∧ t.Holds ys ∧
      ys.map (·.2) = [mediaBody 1]) ∧
    ∀ (path : Option CStr) (rq : SvcReq), ∃ d' : Mountd Sandbox.Kernel Sandbox.Grid,
      d.umnt Sandbox.publicWorld 4 path rq = some d' ∧
      d'.purges = if d'.table.mountList = none then d.purges + 1 else d.purges := by
  have hmnt : (mountAll Sandbox.publicWorld 4 (lit "/m") [(10, 0), (11, 0), (12, 1), (13, 0)]
      { server := plainServer }).map
        (fun d => (d.table.mountCnt, d.table.bodies.items 4 d.table.mountList)) =
      some (4, [mediaBody 0, mediaBody 0, mediaBody 1, mediaBody 0]) := by
    decide +kernel
  obtain ⟨d, hd, hread⟩ := Option.map_eq_some_iff.1 hmnt
  obtain ⟨hcnt, hitems⟩ := Prod.mk.inj hread
  have hrun := mountAll_steps hd
  obtain ⟨xs, hleads, hlen, hremove, humnt⟩ := mountd_counts Sandbox.publicWorld
    { server := plainServer } d ⟨plainServer, ⟨_, _, _, _, _, _, rfl⟩, rfl⟩ hrun
  have hfour : xs.length = 4 := by omega
  have hxs : xs.map (·.2) = [mediaBody 0, mediaBody 0, mediaBody 1, mediaBody 0] := by
    rw [← hleads.items_eq, hfour, hitems]
  refine ⟨d, xs, hrun, hleads, hlen, hxs, ?_, fun path rq => ?_⟩
  · obtain ⟨t, ht, hholds⟩ := hremove (some (lit "/m")) 0
    refine ⟨t, _, by rw [ht, hfour]; rfl, hholds, ?_⟩
    change (xs.filter ((fun b => !MountTable.gone (some (lit "/m")) (inetNtoa 0) b) ∘
      (·.2))).map (·.2) = _
    rw [← List.filter_map, hxs]
    decide
  · obtain ⟨d', hfuel, hpurges, -⟩ := humnt path rq
    refine ⟨d', ?_, hpurges⟩
    rw [hfuel, hfour]
    rfl

end NfsRods
