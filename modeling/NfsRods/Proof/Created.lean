import NfsRods.Proof.Cluster

/-!
# Files that are created under a tag

`cluster_create` gives the path under which a file is made; the client goes on to look it up by the
name it has asked for.

* `found_own`, `found_other`: what a new name in the directory does to a lookup.
* `clusterTag_again`: the file that a tag leads to carries that tag itself.
* `cluster_created`: the client that has created a file finds it, and another client does not find
  one that is tagged with the address of the first.
-/

namespace NfsRods

open CStr

/-! ## A new name -/

section
variable {q q' : ClusterQuery} {n t : CStr}

/-- `q'` is the same lookup when the directory has the name `n` besides. -/
structure ClusterQuery.Grown (q q' : ClusterQuery) (n : CStr) : Prop where
  path : q'.path = q.path
  remote : q'.remote = q.remote
  hname : q'.hname = q.hname
  dir : ∀ e, e ∈ q'.dir ↔ e ∈ q.dir ∨ e = n

/-- What the loop of the lookup comes to. -/
def ClusterQuery.found (q : ClusterQuery) : Option (Option CStr) :=
  match q.names.find? fun e => decide (q.tag e ≠ some none) with
  | none => some none
  | some e => q.tag e

/-- A tag that the loop comes to is that of an entry. -/
theorem found_entry (h : q.found = some (some t)) : ∃ e ∈ q.dir, q.tag e = some (some t) := by
  rw [ClusterQuery.found] at h
  cases hfind : q.names.find? fun e => decide (q.tag e ≠ some none) with
  | none =>
    rw [hfind] at h
    cases h
  | some e =>
    rw [hfind] at h
    exact ⟨e, (names_find hfind).1.1, h⟩

theorem ClusterQuery.Grown.tag (h : q.Grown q' n) : q'.tag = q.tag := by
  funext e
  rw [ClusterQuery.tag, ClusterQuery.tag, ClusterQuery.master, ClusterQuery.master, h.path,
    h.remote, h.hname]

/-- A name that leads nowhere makes no difference. -/
theorem found_other (h : q.Grown q' n) (ht : q.tag n = some none) : q'.found = q.found := by
  have hnames : (q'.names.find? fun e => decide (q.tag e ≠ some none)) =
      q.names.find? fun e => decide (q.tag e ≠ some none) := by
    refine find_last_congr fun e he => ?_
    rw [mem_names, mem_names, ClusterQuery.master, ClusterQuery.master, h.path, h.dir]
    refine and_congr_left fun _ => ⟨fun hor => hor.resolve_right ?_, .inl⟩
    rintro rfl
    simp [ht] at he
  rw [ClusterQuery.found, ClusterQuery.found, h.tag, hnames]

/-- A name with the tag that the lookup has come to, or where it has come to none. -/
theorem found_own (h : q.Grown q' n) (hscan : scanned q.master n = true)
    (ht : q.tag n = some (some t)) (hr : q.found = some none ∨ q.found = some (some t)) :
    q'.found = some (some t) := by
  have hmaster : q'.master = q.master := congrArg clusterBasename h.path
  have hn : n ∈ q'.dir.filter (scanned q'.master) :=
    mem_names.2 ⟨(h.dir n).2 (.inr rfl), by rw [hmaster, hscan]⟩
  have hpn : decide (q.tag n ≠ some none) = true := by simp [ht]
  rw [ClusterQuery.found, h.tag]
  cases hfind : q'.names.find? fun e => decide (q.tag e ≠ some none) with
  | none =>
    have hno := find_last_none.1 hfind n hn
    rw [hpn] at hno
    cases hno
  | some e =>
    obtain ⟨he, hpe, hlast⟩ := find_last hfind
    obtain ⟨hedir, hescan⟩ := mem_names.1 he
    rcases (h.dir e).1 hedir with hold | rfl
    · -- the lookup has come to it before
      have heold : e ∈ q.dir.filter (scanned q.master) :=
        mem_names.2 ⟨hold, by rw [← hmaster, hescan]⟩
      rw [ClusterQuery.found] at hr
      cases hfind' : q.names.find? fun e => decide (q.tag e ≠ some none) with
      | none =>
        have hno := find_last_none.1 hfind' e heold
        rw [hpe] at hno
        cases hno
      | some a =>
        obtain ⟨ha, hpa, hlast'⟩ := find_last hfind'
        obtain ⟨hadir, hascan⟩ := mem_names.1 ha
        have hanew : a ∈ q'.dir.filter (scanned q'.master) :=
          mem_names.2 ⟨(h.dir a).2 (.inl hadir), by rw [hmaster, hascan]⟩
        obtain rfl := Std.le_antisymm (hlast a hanew hpa) (hlast' e heold hpe)
        rw [hfind'] at hr
        exact hr.resolve_left (by simpa using hpe)
    · exact ht

end

/-! ## Names with a mark -/

/-- A tag without an `H` makes no mark. -/
theorem not_marked_append {x t : CStr} (hx : ¬ hostMark <:+: x) (hhead : t.head? = some 36)
    (ht : 72 ∉ t) : ¬ hostMark <:+: x ++ t := by
  rintro ⟨p, s, h⟩
  rcases List.append_eq_append_iff.1 h with ⟨a, hxa, -⟩ | ⟨a, hpa, rfl⟩
  · exact hx ⟨p, a, hxa.symm⟩
  · cases a with
    | nil =>
      rw [List.append_nil] at hpa
      exact hx ⟨p, [], by rw [List.append_nil, hpa]⟩
    | cons c a =>
      -- the mark goes on in the tag, which has no `H`, or ends in it, but does not begin with `$`
      have hsuffix : c :: a <:+ p ++ hostMark := ⟨x, hpa.symm⟩
      have hmem : (72 : UInt8) ∈ c :: a := by
        by_cases hlen : hostMark.length ≤ (c :: a).length
        · have hend := List.suffix_of_suffix_length_le (List.suffix_append p hostMark) hsuffix hlen
          exact hend.subset (by decide)
        · have hend := List.suffix_of_suffix_length_le hsuffix (List.suffix_append p hostMark)
            (Nat.le_of_not_le hlen)
          have hall : ∀ a ∈ hostMark.tails, a.head? = some 36 → (72 : UInt8) ∈ a := by decide
          exact hall _ ((List.mem_tails _ _).2 hend) hhead
      exact ht (List.mem_append_left s hmem)

theorem isHost_unmarked {x : CStr} (hx : ¬ hostMark <:+: x) : isHost x = false := by
  rw [Bool.eq_false_iff]
  intro h
  rw [isHost, Bool.and_eq_true, strstr_iff] at h
  exact hx h.1

theorem mem_inetNtoa {a : UInt32} {c : UInt8} (h : c ∈ inetNtoa a) :
    c = 46 ∨ 48 ≤ c.toNat ∧ c.toNat ≤ 57 := by
  simp only [inetNtoa, List.mem_append, List.mem_cons] at h
  rcases h with h | rfl | h | rfl | h | rfl | h
  · exact .inr (mem_decimal h)
  · exact .inl rfl
  · exact .inr (mem_decimal h)
  · exact .inl rfl
  · exact .inr (mem_decimal h)
  · exact .inl rfl
  · exact .inr (mem_decimal h)

theorem mem_ipTag {a : UInt32} {c : UInt8} (h : c ∈ ipTag (inetNtoa a)) :
    c ∈ lit "$$IP=" ∨ c = 46 ∨ 48 ≤ c.toNat ∧ c.toNat ≤ 57 := by
  simp only [ipTag, List.mem_append] at h
  rcases h with (h | h) | h
  · exact .inl h
  · exact .inr (mem_inetNtoa h)
  · refine .inl ?_
    revert h c
    decide

theorem slash_notMem_ipTag (a : UInt32) : slash ∉ ipTag (inetNtoa a) := by
  intro h
  have hc := mem_ipTag h
  revert hc
  decide

/-- The first mark in a name, with nothing of it before. -/
theorem strstrFrom_spec {t : CStr} (ht : t ≠ []) (s : CStr) :
    match strstrFrom t s with
    | none => ¬ t <:+: s
    | some r => ∃ x, s = x ++ r ∧ t <+: r ∧ ¬ t <:+: x := by
  have hnil : ¬ t <:+: [] := fun h => ht (List.infix_nil.1 h)
  induction s with
  | nil =>
    rw [strstrFrom, if_neg ht]
    exact hnil
  | cons c s ih =>
    rw [strstrFrom]
    by_cases hpre : t <+: c :: s
    · rw [if_pos hpre]
      exact ⟨[], rfl, hpre, hnil⟩
    · rw [if_neg hpre]
      cases hs : strstrFrom t s with
      | none =>
        rw [hs] at ih
        exact fun h => (List.infix_cons_iff.1 h).elim hpre ih
      | some r =>
        rw [hs] at ih
        obtain ⟨x, rfl, hr, hx⟩ := ih
        refine ⟨c :: x, rfl, hr, fun h => (List.infix_cons_iff.1 h).elim (fun hcx => ?_) hx⟩
        exact hpre (hcx.trans (List.prefix_append (c :: x) r))

/-- A name that is taken to be that of a host, cut at its first mark. -/
theorem isHost_cut {e : CStr} (h : isHost e = true) :
    ∃ x y, e = x ++ hostTag y ∧ ¬ hostMark <:+: x := by
  have hspec := strstrFrom_spec (t := hostMark) (by decide) e
  rw [isHost, Bool.and_eq_true, strstr_iff, decide_eq_true_iff] at h
  cases hr : strstrFrom hostMark e with
  | none =>
    rw [hr] at hspec
    exact absurd h.1 hspec
  | some r =>
    rw [hr] at hspec
    obtain ⟨x, rfl, ⟨s, rfl⟩, hno⟩ := hspec
    have hend : lit "$$" <:+ hostMark ++ s :=
      List.suffix_of_suffix_length_le h.2 (List.suffix_append x _)
        (by rw [List.length_append]; exact Nat.le_add_right_of_le (by decide))
    -- the dollars are not those of the mark
    have hlen : 2 ≤ s.length := by
      have hhost : isHost (hostMark ++ s) = true := by
        rw [isHost, Bool.and_eq_true, strstr_iff, decide_eq_true_iff]
        exact ⟨(List.prefix_append hostMark s).isInfix, hend⟩
      obtain ⟨x', y', heq⟩ := (isHost_iff _).1 hhost
      have hlens := congrArg List.length heq
      rw [hostTag, List.length_append, List.length_append, List.length_append,
        List.length_append, show (lit "$$").length = 2 by decide] at hlens
      omega
    obtain ⟨y, rfl⟩ := List.suffix_of_suffix_length_le hend (List.suffix_append _ s) hlen
    exact ⟨x, y, rfl, hno⟩

/-! ## Tags of what is created -/

section
variable {master : CStr} {remote : UInt32} {hname : Option CStr} {e t : CStr}

/-- The tag of the address, of a network of it, or of all clients. -/
def OwnTag (remote : UInt32) (t : CStr) : Prop :=
  t = ipTag (inetNtoa remote) ∨ t = clientTag ∨
    ∃ n, (n = 24 ∨ n = 16 ∨ n = 8) ∧ t = networkTag remote n

/-- A tag that an entry leads to is one of these, or that of a host. -/
theorem clusterTag_cases (h : clusterTag master (inetNtoa remote) hname e = some (some t)) :
    OwnTag remote t ∨ matchHost hname e = some (some t) := by
  have hnet : ∀ m, m = 1 ∨ m = 2 ∨ m = 3 → OwnTag remote (clusterNetmask (inetNtoa remote) m) :=
    fun m hm => .inr (.inr ⟨8 * m, by omega, clusterNetmask_eq remote hm⟩)
  unfold clusterTag at h
  split_ifs at h
  case neg => exact .inr h
  all_goals cases h
  · exact .inl (.inl rfl)
  · exact .inl (.inl rfl)
  · exact .inl (.inl rfl)
  · exact .inl (.inr (.inl rfl))
  · exact .inl (.inr (.inl rfl))
  · exact .inl (.inr (.inl rfl))
  · exact .inl (hnet 3 (by decide))
  · exact .inl (hnet 2 (by decide))
  · exact .inl (hnet 1 (by decide))

/-- The tag of a host is the end of the name that has it. -/
theorem matchHost_cut (h : matchHost hname e = some (some t)) :
    ∃ name x y, hname = some name ∧ e = x ++ hostTag y ∧ ¬ hostMark <:+: x ∧ t = hostTag y := by
  obtain hyes | hno := Bool.eq_false_or_eq_true (isHost e)
  · obtain ⟨x, y, rfl, hx⟩ := isHost_cut hyes
    cases hname with
    | none =>
      rw [matchHost, if_neg (by rw [hyes]; decide)] at h
      cases h
    | some name =>
      refine ⟨name, x, y, rfl, rfl, hx, ?_⟩
      rw [matchHost_own hx] at h
      split at h
      · cases h
        rfl
      · cases hy : y.getLast? with
        | none =>
          rw [hy] at h
          cases h
        | some c =>
          rw [hy, Option.elim_some] at h
          split_ifs at h
          · cases h
          · cases h
            rfl
          · cases h
  · rw [matchHost, if_pos hno] at h
    cases h

/-- **The file that a tag leads to** carries that tag itself. -/
theorem clusterTag_again (hm : ¬ hostMark <:+: master)
    (h : clusterTag master (inetNtoa remote) hname e = some (some t)) :
    clusterTag master (inetNtoa remote) hname (master ++ t) = some (some t) := by
  rcases clusterTag_cases h with hown | hhost
  · exact clusterTag_own hown
  · obtain ⟨name, x, y, rfl, rfl, hx, rfl⟩ := matchHost_cut hhost
    rw [matchHost_own hx, ← matchHost_own hm name y] at hhost
    rw [clusterTag_host (isHost_unmarked hm), hhost]

theorem tag_ne_nil (h : clusterTag master (inetNtoa remote) hname e = some (some t)) : t ≠ [] := by
  rcases clusterTag_cases h with (rfl | rfl | ⟨n, -, rfl⟩) | hhost
  · exact List.cons_ne_nil _ _
  · exact List.cons_ne_nil _ _
  · exact List.cons_ne_nil _ _
  · obtain ⟨name, x, y, -, -, -, rfl⟩ := matchHost_cut hhost
    exact List.cons_ne_nil _ _

/-- The name of the file has no slash. -/
theorem slash_notMem_tag (he : slash ∉ e)
    (h : clusterTag master (inetNtoa remote) hname e = some (some t)) : slash ∉ t := by
  have hnet : ∀ a, slash ∉ inetNtoa a := fun a ha => by
    have hc := mem_inetNtoa ha
    revert hc
    decide
  rcases clusterTag_cases h with (rfl | rfl | ⟨n, -, rfl⟩) | hhost
  · exact slash_notMem_ipTag remote
  · decide
  · have hd := slash_not_mem_decimal n
    simp only [networkTag, List.mem_append, List.mem_cons, not_or]
    exact ⟨by decide, hnet _, by decide, hd, by decide⟩
  · obtain ⟨name, x, y, -, rfl, -, rfl⟩ := matchHost_cut hhost
    exact fun hc => he (List.mem_append_right x hc)

/-- A file with the tag of another address is not for the client. -/
theorem clusterTag_others (hm : ¬ hostMark <:+: master) {other : UInt32} (hne : other ≠ remote) :
    clusterTag master (inetNtoa other) hname (master ++ ipTag (inetNtoa remote)) = some none := by
  have hlet := ip_lettered (inetNtoa remote)
  have hdir := hlet.not_always (by decide) master
  have hip : ipTag (inetNtoa remote) ≠ ipTag (inetNtoa other) := by
    intro h
    simp only [ipTag, List.append_assoc, List.append_cancel_left_eq, List.append_cancel_right_eq]
      at h
    exact hne (inetNtoa_inj h).symm
  have halways := hlet.ne alwaysIp_lettered (by decide)
  have hclient := hlet.ne client_lettered (by decide)
  have halwaysClient := hlet.ne alwaysClient_lettered (by decide)
  have hnet : ∀ n, ipTag (inetNtoa remote) ≠ networkTag other n := by
    intro n h
    have hmem : (95 : UInt8) ∈ ipTag (inetNtoa remote) := by
      rw [h]
      simp [networkTag]
    have := mem_ipTag hmem
    revert this
    decide
  have hunmarked : isHost (master ++ ipTag (inetNtoa remote)) = false := by
    refine isHost_unmarked (not_marked_append hm rfl fun h => ?_)
    have := mem_ipTag h
    revert this
    decide
  simp only [clusterTag, matchSuffix, beq_iff_eq, List.append_cancel_left_eq, hip, halways, hdir.1,
    hdir.2, hclient, halwaysClient, if_false, clusterNetmask_eq other (m := 3) (by decide),
    clusterNetmask_eq other (m := 2) (by decide), clusterNetmask_eq other (m := 1) (by decide),
    hnet, isHost_unmarked hm, Bool.false_eq_true, matchHost, hunmarked, if_true]

/-- The file itself has no tag. -/
theorem clusterTag_master (hm : ¬ hostMark <:+: master) (hip : master ≠ alwaysIpTag)
    (hclient : master ≠ alwaysClientTag) :
    clusterTag master (inetNtoa remote) hname master = some none := by
  have hsuffix : ∀ t : CStr, t ≠ [] → (master == master ++ t) = false := by
    intro t ht
    rw [beq_eq_false_iff_ne]
    exact fun h => ht (List.self_eq_append_right.1 h)
  have hmask : ∀ n, clusterNetmask (inetNtoa remote) n ≠ [] := fun n h => by
    simp [clusterNetmask, lit] at h
  have htag : ipTag (inetNtoa remote) ≠ [] := List.cons_ne_nil _ _
  simp only [clusterTag, matchSuffix, hsuffix _ htag,
    hsuffix _ (show alwaysIpTag ≠ [] by decide), hsuffix _ (show clientTag ≠ [] by decide),
    hsuffix _ (show alwaysClientTag ≠ [] by decide), hsuffix _ (hmask _), hip, hclient,
    isHost_unmarked hm, Bool.false_eq_true, if_false, matchHost, if_true]

end

/-! ## Paths -/

section
variable {d n : CStr}

theorem reverse_join (hn : n ≠ []) (hs : slash ∉ n) :
    (d ++ slash :: n).reverse.dropWhile (· = slash) = n.reverse ++ slash :: d.reverse := by
  obtain ⟨c, cs, hc⟩ := List.exists_cons_of_ne_nil (mt List.reverse_eq_nil_iff.1 hn)
  have hmem : c ∈ n := List.mem_reverse.1 (by rw [hc]; exact List.mem_cons_self)
  rw [List.reverse_append, List.reverse_cons, List.append_assoc, List.singleton_append, hc,
    List.cons_append, List.dropWhile_cons_of_neg]
  simp only [decide_eq_true_eq]
  rintro rfl
  exact hs hmem

theorem all_of_slash_notMem {n : CStr} (hs : slash ∉ n) :
    ∀ b ∈ n.reverse, decide (b ≠ slash) = true := by
  intro b hb
  apply decide_eq_true
  rintro rfl
  exact hs (List.mem_reverse.1 hb)

theorem clusterBasename_join (hn : n ≠ []) (hs : slash ∉ n) :
    clusterBasename (d ++ slash :: n) = n := by
  rw [clusterBasename]
  simp only [reverse_join hn hs]
  rw [if_neg (by simp), List.takeWhile_append_of_pos (all_of_slash_notMem hs),
    List.takeWhile_cons_of_neg (by decide), List.append_nil, List.reverse_reverse]

/-- The directory does not depend on the name. -/
theorem clusterDirname_join {m : CStr} (hn : n ≠ []) (hs : slash ∉ n) (hm : m ≠ [])
    (hms : slash ∉ m) :
    clusterDirname (d ++ slash :: m) = clusterDirname (d ++ slash :: n) := by
  have hcut : ∀ n : CStr, n ≠ [] → slash ∉ n → clusterDirname (d ++ slash :: n) =
      if (slash :: d.reverse).dropWhile (· = slash) = [] then root
      else ((slash :: d.reverse).dropWhile (· = slash)).reverse := by
    intro n hn hs
    rw [clusterDirname]
    simp only [reverse_join hn hs]
    rw [if_neg (by simp), List.dropWhile_append_of_pos (all_of_slash_notMem hs),
      List.dropWhile_cons_of_neg (by decide), if_neg (List.cons_ne_nil _ _)]
  rw [hcut m hm hms, hcut n hn hs]

end

/-! ## Creations -/

section
variable {o : ClusterOpts} {w w' : ClusterWorld} {path path' : CStr} {remote : UInt32}

/-- The lookup of a client, with the names that the directory has. -/
def ClusterWorld.query (w : ClusterWorld) (path : CStr) (remote : UInt32) (names : List CStr) :
    ClusterQuery where
  path := path
  remote := remote
  hname := getHost w remote
  dir := names

/-- The path is looked up by `cluster_lookup_lowlevel`. -/
def ClusterOpts.Wanted (o : ClusterOpts) (path : CStr) : Prop :=
  o.cluster = true ∧ wantCluster o path = true

theorem not_wanted : (o.cluster = false ∨ Nfsstat3.ok ≠ .ok ∨ wantCluster o path = false) ↔
    ¬ o.Wanted path := by
  simp only [ClusterOpts.Wanted, ne_eq, not_true_eq_false, false_or, not_and_or,
    Bool.not_eq_true]

theorem lowlevel_found {names : List CStr} (hdir : w.readdir (clusterDirname path) = some names) :
    clusterLookupLowlevel w path remote =
      (w.query path remote names).found.map (appendSuffix path) :=
  clusterLookupLowlevel_eq (q := w.query path remote names) hdir rfl

theorem clusterLookup_plain (h : ¬ o.Wanted path) :
    clusterLookup o w (some path) remote .ok = some (some path, .ok) := by
  simp only [clusterLookup, if_pos (not_wanted.2 h)]

theorem clusterLookup_found {names : List CStr} (h : o.Wanted path)
    (hnormal : strstrFrom normalTag path ≠ some normalTag)
    (hdir : w.readdir (clusterDirname path) = some names) :
    clusterLookup o w (some path) remote .ok =
      ((w.query path remote names).found.map (appendSuffix path)).map fun (path, res) =>
        (some path, match res with
          | .toolong => .nametoolong
          | .io => .io
          | .slave | .master => .ok) := by
  have hcond := mt not_wanted.1 (not_not_intro h)
  exact (if_neg hcond).trans ((if_neg hnormal).trans
    (congrArg (Option.map _) (lowlevel_found hdir)))

/-- What `cluster_create` can come to. -/
theorem clusterCreate_cases (h : clusterCreate o w path remote .ok = some (path', .ok)) :
    ¬ o.Wanted path ∧ path' = path ∨
      o.Wanted path ∧ ∃ names, w.readdir (clusterDirname path) = some names ∧
        ((w.query path remote names).found = some none ∧ path' = path ∨
          ∃ t, path' = path ++ t ∧ path.length + t.length + 1 < maxPathLen ∧
            ((w.query path remote names).found = some (some t) ∨
              (w.query path remote names).found = some none ∧
                (t = ipTag (inetNtoa remote) ∨ t = clientTag))) := by
  rw [clusterCreate] at h
  split_ifs at h with hcond
  · cases h
    exact .inl ⟨not_wanted.1 hcond, rfl⟩
  refine .inr ⟨not_not.1 (mt not_wanted.2 hcond), ?_⟩
  cases hread : w.readdir (clusterDirname path) with
  | none =>
    have hio : clusterLookupLowlevel w path remote = some (path, .io) := by
      simp only [clusterLookupLowlevel, clusterScandir, hread, Option.map_none]
    rw [hio] at h
    cases h
  | some names =>
    refine ⟨names, rfl, ?_⟩
    rw [lowlevel_found hread] at h
    cases hfound : (w.query path remote names).found with
    | none =>
      rw [hfound] at h
      cases h
    | some r =>
      rw [hfound, Option.map_some] at h
      cases r with
      | some t =>
        rw [appendSuffix] at h
        split_ifs at h with hfits
        · cases h
          exact .inr ⟨t, rfl, hfits, .inl rfl⟩
        · cases h
      | none =>
        rw [appendSuffix] at h
        dsimp only at h
        split at h
        · cases h
          exact .inl ⟨rfl, rfl⟩
        · rename_i t htag
          split_ifs at h with hfits
          · cases h
            refine .inr ⟨t, rfl, hfits, .inr ⟨rfl, ?_⟩⟩
            obtain ⟨e, -, he⟩ := List.exists_of_findSome?_eq_some htag
            rw [clusterCreateTag] at he
            split_ifs at he
            all_goals cases he
            · exact .inl rfl
            · exact .inl rfl
            · exact .inr rfl
            · exact .inr rfl
          · cases h

/-! ## Lookups of what has been created -/

/-- A name that has no meaning of its own, in a directory `d`. -/
structure PlainName (d n : CStr) : Prop where
  nonempty : n ≠ []
  noSlash : slash ∉ n
  unmarked : ¬ hostMark <:+: n
  always : n ≠ alwaysIpTag ∧ n ≠ alwaysClientTag
  normal : strstrFrom normalTag (d ++ slash :: n) ≠ some normalTag

/-- What the lookup asks for, after a file has been made under a path. -/
structure ClusterWorld.Created (w w' : ClusterWorld) (path : CStr) : Prop where
  gethostbyaddr : w'.gethostbyaddr = w.gethostbyaddr
  readdir : ∀ dir names, w.readdir dir = some names → ∃ names', w'.readdir dir = some names' ∧
    ∀ e, e ∈ names' ↔ e ∈ names ∨ dir = clusterDirname path ∧ e = clusterBasename path

variable {d n t : CStr} {names names' : List CStr}

theorem ClusterWorld.Created.grown (hn : PlainName d n) (ht : slash ∉ t)
    (hw : w.Created w' (d ++ slash :: n ++ t))
    (hdir : w.readdir (clusterDirname (d ++ slash :: n)) = some names) :
    ∃ names', w'.readdir (clusterDirname (d ++ slash :: n)) = some names' ∧
      ∀ remote, (w.query (d ++ slash :: n) remote names).Grown
        (w'.query (d ++ slash :: n) remote names') (n ++ t) := by
  have hnt : n ++ t ≠ [] := fun h => hn.nonempty (List.append_eq_nil_iff.1 h).1
  have hslash : slash ∉ n ++ t := fun h => (List.mem_append.1 h).elim hn.noSlash ht
  obtain ⟨names', hread, hmem⟩ := hw.readdir _ _ hdir
  refine ⟨names', hread, fun remote => ⟨rfl, rfl, ?_, fun e => ?_⟩⟩
  · rw [ClusterWorld.query, ClusterWorld.query, getHost, getHost, hw.gethostbyaddr]
  · rw [List.append_assoc, List.cons_append,
      clusterDirname_join hn.nonempty hn.noSlash hnt hslash,
      clusterBasename_join hnt hslash] at hmem
    exact (hmem e).trans (or_congr_right (and_iff_right rfl))

/-- A lookup that the new name is nothing to. -/
theorem lookup_other (hwanted : o.Wanted path)
    (hnormal : strstrFrom normalTag path ≠ some normalTag)
    (hdir : w.readdir (clusterDirname path) = some names)
    (hdir' : w'.readdir (clusterDirname path) = some names')
    (hgrown : (w.query path remote names).Grown (w'.query path remote names') n)
    (htag : (w.query path remote names).tag n = some none) :
    clusterLookup o w' (some path) remote .ok = clusterLookup o w (some path) remote .ok := by
  rw [clusterLookup_found hwanted hnormal hdir', clusterLookup_found hwanted hnormal hdir,
    found_other hgrown htag]

/-- A lookup that comes to the new name. -/
theorem lookup_own (hwanted : o.Wanted path) (hnormal : strstrFrom normalTag path ≠ some normalTag)
    (hdir' : w'.readdir (clusterDirname path) = some names')
    (hgrown : (w.query path remote names).Grown (w'.query path remote names') n)
    (hscan : scanned (clusterBasename path) n = true)
    (htag : (w.query path remote names).tag n = some (some t))
    (hfound : (w.query path remote names).found = some none ∨
      (w.query path remote names).found = some (some t))
    (hfits : path.length + t.length + 1 < maxPathLen) :
    clusterLookup o w' (some path) remote .ok = some (some (path ++ t), .ok) := by
  rw [clusterLookup_found hwanted hnormal hdir', found_own hgrown hscan htag hfound,
    Option.map_some, appendSuffix, if_pos hfits]
  rfl

/-- A lookup that leaves the path as it is has found no tag. -/
theorem found_of_same (hwanted : o.Wanted path)
    (hnormal : strstrFrom normalTag path ≠ some normalTag)
    (hdir : w.readdir (clusterDirname path) = some names)
    (h : clusterLookup o w (some path) remote .ok = some (some path, .ok)) :
    (w.query path remote names).found = some none := by
  rw [clusterLookup_found hwanted hnormal hdir] at h
  cases hfound : (w.query path remote names).found with
  | none =>
    rw [hfound] at h
    cases h
  | some r =>
    cases r with
    | none => rfl
    | some t =>
      rw [hfound, Option.map_some, appendSuffix] at h
      split_ifs at h
      · have happend : path ++ t = path := Option.some.inj (Prod.mk.inj (Option.some.inj h)).1
        obtain ⟨e, -, htag⟩ := found_entry hfound
        exact absurd (List.append_right_eq_self.1 happend) (tag_ne_nil htag)
      · cases h

/-- **Created files.** The client that has created a file finds it under the name it has asked for;
a client with another address finds what it has found before, if the file has the tag of the
address; and one that has found no tag finds the file, if it has the tag of all clients. -/
theorem cluster_created (hn : PlainName d n)
    (hslash : ∀ dir names, w.readdir dir = some names → ∀ e ∈ names, slash ∉ e)
    (hcreate : clusterCreate o w (d ++ slash :: n) remote .ok = some (path', .ok))
    (hw : w.Created w' path') :
    clusterLookup o w' (some (d ++ slash :: n)) remote .ok = some (some path', .ok) ∧
    (path' = d ++ slash :: n ++ ipTag (inetNtoa remote) → ∀ other ≠ remote,
      clusterLookup o w' (some (d ++ slash :: n)) other .ok =
        clusterLookup o w (some (d ++ slash :: n)) other .ok) ∧
    (path' = d ++ slash :: n ++ clientTag → ∀ other,
      clusterLookup o w (some (d ++ slash :: n)) other .ok = some (some (d ++ slash :: n), .ok) →
        clusterLookup o w' (some (d ++ slash :: n)) other .ok = some (some path', .ok)) := by
  have hmaster : clusterBasename (d ++ slash :: n) = n :=
    clusterBasename_join hn.nonempty hn.noSlash
  have hquery : ∀ e remote names, (w.query (d ++ slash :: n) remote names).tag e =
      clusterTag n (inetNtoa remote) (getHost w remote) e := by
    intro e remote names
    rw [ClusterQuery.tag, ClusterQuery.master]
    exact congrArg (fun m => clusterTag m _ _ e) hmaster
  rcases clusterCreate_cases hcreate with ⟨hno, rfl⟩ | ⟨hwanted, names, hdir, hcase⟩
  · refine ⟨clusterLookup_plain hno, fun _ other _ => ?_, fun _ other _ => clusterLookup_plain hno⟩
    rw [clusterLookup_plain hno, clusterLookup_plain hno]
  have hown : ∀ t, (d ++ slash :: n) ++ t = d ++ slash :: n → t = [] := fun t h =>
    List.append_right_eq_self.1 h
  rcases hcase with ⟨hnone, rfl⟩ | ⟨t, rfl, hfits, hfound⟩
  · -- no tag is appended
    rw [← List.append_nil (d ++ slash :: n)] at hw
    obtain ⟨names', hdir', hgrown⟩ := hw.grown hn List.not_mem_nil hdir
    refine ⟨?_, fun h => ?_, fun h => ?_⟩
    · rw [lookup_other hwanted hn.normal hdir hdir' (hgrown remote), clusterLookup_found hwanted
        hn.normal hdir, hnone]
      · rfl
      · rw [hquery, List.append_nil]
        exact clusterTag_master hn.unmarked hn.always.1 hn.always.2
    · cases hown _ h.symm
    · cases hown _ h.symm
  have htag : clusterTag n (inetNtoa remote) (getHost w remote) (n ++ t) = some (some t) := by
    rcases hfound with hfound | ⟨-, rfl | rfl⟩
    · obtain ⟨e, -, he⟩ := found_entry hfound
      exact clusterTag_again hn.unmarked (by rwa [hquery] at he)
    · exact clusterTag_own (.inl rfl)
    · exact clusterTag_own (.inr (.inl rfl))
  have ht : slash ∉ t := by
    rcases hfound with hfound | ⟨-, rfl | rfl⟩
    · obtain ⟨e, hmem, he⟩ := found_entry hfound
      exact slash_notMem_tag (hslash _ _ hdir e hmem) (by rwa [hquery] at he)
    · exact slash_notMem_ipTag remote
    · decide
  have hscan : scanned (clusterBasename (d ++ slash :: n)) (n ++ t) = true := by
    rw [hmaster]
    simp [scanned]
  obtain ⟨names', hdir', hgrown⟩ := hw.grown hn ht hdir
  refine ⟨?_, fun h other hne => ?_, fun h other hlookup => ?_⟩
  · refine lookup_own hwanted hn.normal hdir' (hgrown remote) hscan (by rw [hquery, htag]) ?_ hfits
    exact hfound.symm.imp (·.1) id
  · obtain rfl := List.append_cancel_left h
    refine lookup_other hwanted hn.normal hdir hdir' (hgrown other) ?_
    rw [hquery]
    exact clusterTag_others hn.unmarked hne
  · obtain rfl := List.append_cancel_left h
    have hnone := found_of_same hwanted hn.normal hdir hlookup
    refine lookup_own hwanted hn.normal hdir' (hgrown other) hscan ?_ (.inl hnone) hfits
    rw [hquery]
    exact clusterTag_own (.inr (.inl rfl))

end

/-- Clustering is on for all paths. -/
def siteOpts : ClusterOpts where
  cluster := true
  clusterPath := root

/-- The directory has a tag by which files are created for one client. -/
def privateNames : List CStr := [createIpTag]

/-- A client creates `/etc/motd`, and another one looks it up. -/
theorem cluster_created_private :
    clusterLookup siteOpts (siteWorld (privateNames ++ [lit "motd$$IP=10.0.0.5$$"]))
      (some (lit "/etc/motd")) 0x0a000005 .ok =
        some (some (lit "/etc/motd$$IP=10.0.0.5$$"), .ok) ∧
    clusterLookup siteOpts (siteWorld (privateNames ++ [lit "motd$$IP=10.0.0.5$$"]))
      (some (lit "/etc/motd")) 0x0a000006 .ok = some (some (lit "/etc/motd"), .ok) := by
  have hplain : PlainName (lit "/etc") (lit "motd") :=
    ⟨by decide, by decide, by decide +kernel, by decide, by decide +kernel⟩
  have hslash : ∀ dir names, (siteWorld privateNames).readdir dir = some names →
      ∀ e ∈ names, slash ∉ e := by
    intro dir names h
    obtain ⟨-, ⟨⟩⟩ := Option.ite_none_right_eq_some.1 h
    decide +kernel
  have hw : (siteWorld privateNames).Created
      (siteWorld (privateNames ++ [lit "motd$$IP=10.0.0.5$$"]))
      (lit "/etc/motd$$IP=10.0.0.5$$") := by
    refine ⟨rfl, fun dir names h => ?_⟩
    have hdir : clusterDirname (lit "/etc/motd$$IP=10.0.0.5$$") = lit "/etc" := by decide +kernel
    have hbase : clusterBasename (lit "/etc/motd$$IP=10.0.0.5$$") = lit "motd$$IP=10.0.0.5$$" := by
      decide +kernel
    obtain ⟨hetc, ⟨⟩⟩ := Option.ite_none_right_eq_some.1 h
    refine ⟨_, if_pos hetc, fun e => ?_⟩
    rw [List.mem_append, List.mem_singleton, hdir, hbase]
    exact or_congr_right (and_iff_right hetc).symm
  have hcreate : clusterCreate siteOpts (siteWorld privateNames) (lit "/etc" ++ slash :: lit "motd")
      0x0a000005 .ok = some (lit "/etc/motd$$IP=10.0.0.5$$", .ok) := by
    decide +kernel
  have hcreated := cluster_created hplain hslash hcreate hw
  refine ⟨hcreated.1, (hcreated.2.1 (by decide +kernel) 0x0a000006 (by decide)).trans ?_⟩
  decide +kernel

end NfsRods
