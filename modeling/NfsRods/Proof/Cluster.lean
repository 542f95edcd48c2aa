import NfsRods.Proof.Tags

/-!
# Tagged files

When the lookup does what the manual says.

* `harmless_of_redirects`: then no entry that a test applies to comes before those that give what
  the manual says. `good_of_last`: it is enough to ask this of the entries that can come at the
  wrong place (`ClusterQuery.InOrder`), since the others are in order by themselves.
* `cluster_iff`: so this is the condition. `ClusterQuery.Ordinary.inOrder`: directories without such
  entries.
* `cluster_longer_name`: a file with a longer name redirects.
-/

namespace NfsRods

open CStr

namespace ClusterQuery

variable {q : ClusterQuery} {k k' : TagKind} {e e' s s' : CStr}

/-! ## The condition -/

/-- The entry gives what the manual says. -/
def Good (q : ClusterQuery) (e : CStr) : Prop :=
  ∃ s r, q.tag e = some (some s) ∧ q.Documented (some r) ∧
    appendSuffix q.path (some s) = appendSuffix q.path (some r)

/-- The entry gives what the manual says, or the loop comes to one that does before. -/
def Harmless (q : ClusterQuery) (e : CStr) : Prop :=
  q.Good e ∨ ∃ e' ∈ q.dir, scanned q.master e' = true ∧ q.Good e' ∧ e < e'

/-- The entries that can come at the wrong place are harmless. -/
structure InOrder (q : ClusterQuery) : Prop where
  /-- A network whose address is the client's, beside the tag of the address. -/
  network : q.Present .ip → ∀ n, (n = 24 ∨ n = 16 ∨ n = 8) → netOf q.remote n = q.remote →
    q.master ++ networkTag q.remote n ∈ q.dir → q.Harmless (q.master ++ networkTag q.remote n)
  /-- Names with a host tag, also longer ones, whose test applies or has no result. -/
  host : ∀ e ∈ q.dir, scanned q.master e = true → isHost e = true → q.tag e ≠ some none →
    q.Harmless e
  /-- The `ALWAYS` tags of the directory. -/
  dirAlways : ∀ e ∈ q.dir, e = alwaysIpTag ∨ e = alwaysClientTag → q.Harmless e
  /-- A name with the mark of a host tag in it: the tests do not find its host tags. -/
  marked : hostMark <:+: q.master → q.First .host ∨ q.First .hostPrefix →
    (∃ e ∈ q.dir, scanned q.master e = true ∧ q.Good e) ∧
      ∀ t, t = clientTag ∨ t = alwaysIpTag ∨ t = alwaysClientTag → q.master ++ t ∈ q.dir →
        q.Harmless (q.master ++ t)

theorem Good.tag_ne (h : q.Good e) : q.tag e ≠ some none := by
  obtain ⟨s, -, hs, -⟩ := h
  simp [hs]

theorem good_of_first (hk : q.First k) (he : e ∈ q.dir) (h : q.Gives e s k)
    (htag : q.tag e = some (some s)) : q.Good e :=
  ⟨s, s, htag, ⟨k, hk, e, he, h⟩, rfl⟩

end ClusterQuery

/-! ## The loop -/

section
variable {w : ClusterWorld} {q : ClusterQuery}

/-- The loop stops at the first name that a test applies to. -/
theorem clusterLoop_eq (master remote : CStr) (hname : Option CStr) (l : List CStr) :
    clusterLoop master remote hname l =
      match l.find? fun e => decide (clusterTag master remote hname e ≠ some none) with
      | none => some none
      | some e => clusterTag master remote hname e := by
  induction l with
  | nil => rfl
  | cons e l ih =>
    rw [clusterLoop, List.find?_cons]
    by_cases h : clusterTag master remote hname e = some none
    · simp [h, ih]
    · simp only [h, ne_eq, not_false_eq_true, decide_true]

/-- The names the loop goes through, from the last one on. -/
def ClusterQuery.names (q : ClusterQuery) : List CStr :=
  ((q.dir.filter (scanned q.master)).insertionSort (· ≤ ·)).reverse

theorem clusterLookupLowlevel_eq (hdir : w.readdir (clusterDirname q.path) = some q.dir)
    (hname : getHost w q.remote = q.hname) :
    clusterLookupLowlevel w q.path q.remote =
      (match q.names.find? fun e => decide (q.tag e ≠ some none) with
      | none => some none
      | some e => q.tag e).map (appendSuffix q.path) := by
  have hscan : ∃ l, clusterScandir w q.path = some l ∧ q.names = l.reverse :=
    ⟨_, by rw [clusterScandir, hdir]; rfl, rfl⟩
  obtain ⟨l, hl, hnames⟩ := hscan
  have hloop := clusterLoop_eq q.master (inetNtoa q.remote) q.hname l.reverse
  rw [clusterLookupLowlevel, hl, hname, hnames]
  cases l with
  | nil => rfl
  | cons e l => exact congrArg (Option.map (appendSuffix q.path)) hloop

theorem mem_names {e : CStr} :
    e ∈ q.dir.filter (scanned q.master) ↔ e ∈ q.dir ∧ scanned q.master e = true := List.mem_filter

/-- What is appended decides what the manual says, but for what does not fit. -/
theorem appendSuffix_none_iff (path : CStr) (r : Option CStr) :
    appendSuffix path none = appendSuffix path r ↔ r = none := by
  cases r with
  | none => simp
  | some s =>
    simp only [appendSuffix, reduceCtorEq, iff_false]
    split <;> simp

/-- The lookup does what the manual says if the loop stops at an entry that gives it, or at none
where there is nothing to give. -/
theorem redirects_iff (hdir : w.readdir (clusterDirname q.path) = some q.dir)
    (hname : getHost w q.remote = q.hname) :
    RedirectsAsDocumented w q ↔
      match q.names.find? fun e => decide (q.tag e ≠ some none) with
      | none => q.Documented none
      | some e => q.Good e := by
  rw [RedirectsAsDocumented, clusterLookupLowlevel_eq hdir hname]
  cases hfind : q.names.find? fun e => decide (q.tag e ≠ some none) with
  | none =>
    simp only [Option.map_some, Option.some.injEq, appendSuffix_none_iff]
    exact ⟨fun ⟨r, hr, h⟩ => h ▸ hr, fun h => ⟨none, h, rfl⟩⟩
  | some e =>
    have happ : q.tag e ≠ some none := by simpa using List.find?_some hfind
    dsimp only
    constructor
    · rintro ⟨r, hr, h⟩
      obtain ⟨o, ho, heq⟩ := Option.map_eq_some_iff.1 h
      obtain ⟨s, rfl⟩ : ∃ s, o = some s := by
        rw [← Option.ne_none_iff_exists']
        rintro rfl
        exact happ ho
      cases r with
      | none =>
        have := (appendSuffix_none_iff q.path (some s)).1 heq.symm
        cases this
      | some r => exact ⟨s, r, ho, hr, heq⟩
    · rintro ⟨s, r, hs, hr, heq⟩
      exact ⟨some r, hr, by rw [hs, Option.map_some, heq]⟩

/-- In the order of the bytes no entry that a test applies to is after the one the loop stops at. -/
theorem names_find {e : CStr} (h : (q.names.find? fun e => decide (q.tag e ≠ some none)) = some e) :
    (e ∈ q.dir ∧ scanned q.master e = true) ∧ q.tag e ≠ some none ∧
      ∀ e' ∈ q.dir, scanned q.master e' = true → q.tag e' ≠ some none → e' ≤ e := by
  obtain ⟨hmem, htag, hlast⟩ := find_last h
  refine ⟨mem_names.1 hmem, by simpa using htag, fun e' he' hscan htag' => ?_⟩
  exact hlast e' (mem_names.2 ⟨he', hscan⟩) (by simpa using htag')

/-- Where the lookup does what the manual says, all entries that a test applies to are harmless. -/
theorem harmless_of_redirects (hdir : w.readdir (clusterDirname q.path) = some q.dir)
    (hname : getHost w q.remote = q.hname) (h : RedirectsAsDocumented w q) {e : CStr}
    (he : e ∈ q.dir) (hscan : scanned q.master e = true) (htag : q.tag e ≠ some none) :
    q.Harmless e := by
  rw [redirects_iff hdir hname] at h
  cases hfind : q.names.find? fun e => decide (q.tag e ≠ some none) with
  | none =>
    have hnone := find_last_none.1 hfind e (mem_names.2 ⟨he, hscan⟩)
    exact absurd htag (by simpa using hnone)
  | some x =>
    rw [hfind] at h
    obtain ⟨⟨hx, hxs⟩, -, hlast⟩ := names_find hfind
    have hle := hlast e he hscan htag
    by_cases heq : e = x
    · exact .inl (heq ▸ h)
    · exact .inr ⟨x, hx, hxs, h, Std.lt_of_le_of_ne hle heq⟩

/-- Where the lookup does what the manual says and there is a tag, an entry gives it. -/
theorem good_of_redirects (hdir : w.readdir (clusterDirname q.path) = some q.dir)
    (hname : getHost w q.remote = q.hname) (h : RedirectsAsDocumented w q) {k : TagKind}
    (hk : q.Present k) : ∃ e ∈ q.dir, scanned q.master e = true ∧ q.Good e := by
  rw [redirects_iff hdir hname] at h
  cases hfind : q.names.find? fun e => decide (q.tag e ≠ some none) with
  | none =>
    rw [hfind] at h
    exact absurd hk (h k)
  | some x =>
    rw [hfind] at h
    obtain ⟨⟨hx, hxs⟩, -⟩ := names_find hfind
    exact ⟨x, hx, hxs, h⟩

open ClusterQuery in
theorem inOrder_of_redirects (hdir : w.readdir (clusterDirname q.path) = some q.dir)
    (hname : getHost w q.remote = q.hname) (h : RedirectsAsDocumented w q) : q.InOrder where
  network := by
    intro _ n hn _ he
    have hgives : q.Gives (q.master ++ networkTag q.remote n) (networkTag q.remote n) .network :=
      ⟨⟨n, hn, rfl⟩, rfl⟩
    refine harmless_of_redirects hdir hname h he (gives_scanned hgives) ?_
    simp [gives_tag hgives (.inl (by decide))]
  host := fun e he hscan _ htag => harmless_of_redirects hdir hname h he hscan htag
  dirAlways := by
    intro e he hcase
    obtain ⟨k, s, hgives, hk⟩ : ∃ k s, q.Gives e s k ∧ k ≠ .host ∧ k ≠ .hostPrefix := by
      rcases hcase with rfl | rfl
      · exact ⟨.dirAlwaysIp, _, ⟨rfl, rfl⟩, by decide⟩
      · exact ⟨.dirAlwaysClient, _, ⟨rfl, rfl⟩, by decide⟩
    refine harmless_of_redirects hdir hname h he (gives_scanned hgives) ?_
    simp [gives_tag hgives (.inl hk)]
  marked := by
    intro _ hfirst
    refine ⟨?_, fun t ht he => ?_⟩
    · rcases hfirst with hk | hk
      · exact good_of_redirects hdir hname h hk.1
      · exact good_of_redirects hdir hname h hk.1
    · obtain ⟨k, s, hgives, hk⟩ :
          ∃ k s, q.Gives (q.master ++ t) s k ∧ k ≠ .host ∧ k ≠ .hostPrefix := by
        rcases ht with rfl | rfl | rfl
        · exact ⟨.client, _, ⟨rfl, rfl⟩, by decide⟩
        · exact ⟨.alwaysIp, _, ⟨rfl, rfl⟩, by decide⟩
        · exact ⟨.alwaysClient, _, ⟨rfl, rfl⟩, by decide⟩
      refine harmless_of_redirects hdir hname h he (gives_scanned hgives) ?_
      simp [gives_tag hgives (.inl hk)]

/-- An entry of the first kind is found, unless it has a host tag after a name with the mark. -/
theorem ClusterQuery.first_cases {k : TagKind} (hk : q.First k) :
    (∃ e ∈ q.dir, ∃ s, q.Gives e s k ∧ q.tag e = some (some s)) ∨
      hostMark <:+: q.master ∧ (k = .host ∨ k = .hostPrefix) := by
  by_cases hcase : hostMark <:+: q.master ∧ (k = .host ∨ k = .hostPrefix)
  · exact .inr hcase
  · obtain ⟨e, he, s, hgives⟩ := hk.1
    refine .inl ⟨e, he, s, hgives, gives_tag hgives ?_⟩
    by_cases hm : hostMark <:+: q.master
    · exact .inl ⟨fun h => hcase ⟨hm, .inl h⟩, fun h => hcase ⟨hm, .inr h⟩⟩
    · exact .inr hm

open ClusterQuery in
/-- The last entry that a test applies to gives what the manual says. -/
theorem good_of_last (hord : q.InOrder) {x : CStr} (hx : x ∈ q.dir)
    (hscan : scanned q.master x = true) (htag : q.tag x ≠ some none)
    (hlast : ∀ e ∈ q.dir, scanned q.master e = true → q.tag e ≠ some none → e ≤ x) :
    q.Good x := by
  have hgood : q.Harmless x → q.Good x := by
    rintro (h | ⟨e, he, hes, hg, hlt⟩)
    · exact h
    · exact absurd hlt (List.not_lt.2 (hlast e he hes hg.tag_ne))
  have hbefore : ∀ {e s k}, e ∈ q.dir → q.Gives e s k → q.tag e = some (some s) → ¬ x < e :=
    fun he hgives hs => List.not_lt.2 (hlast _ he (gives_scanned hgives) (by simp [hs]))
  rcases tag_cases htag with ⟨k, s, hne, hne', hgives, hs⟩ | hhost
  swap
  · exact hgood (hord.host x hx hscan hhost htag)
  obtain ⟨k', hfirst, hle⟩ := exists_first ⟨x, hx, s, hgives⟩
  by_cases heq : k' = k
  · rw [heq] at hfirst
    exact good_of_first hfirst hx hgives hs
  -- an entry of an earlier kind is after `x`, or the entry is one of the exceptions
  have hlt : k'.place < k.place := by
    refine Nat.lt_of_le_of_ne hle ?_
    revert heq
    cases k' <;> cases k <;> decide
  have hown : k = .client ∨ k = .alwaysIp ∨ k = .alwaysClient → q.Good x := by
    intro hk
    rcases first_cases hfirst with ⟨e, he, s', hgives', hs'⟩ | ⟨hm, hk'⟩
    · exact absurd (gives_lt hgives hgives' hlt hk) (hbefore he hgives' hs')
    · have hmarked := (hord.marked hm (by
        rcases hk' with rfl | rfl
        · exact .inl hfirst
        · exact .inr hfirst)).2
      obtain ⟨t, ht, rfl⟩ : ∃ t, (t = clientTag ∨ t = alwaysIpTag ∨ t = alwaysClientTag) ∧
          x = q.master ++ t := by
        rcases hk with rfl | rfl | rfl
        · exact ⟨_, .inl rfl, by rw [hgives.2, hgives.1]⟩
        · exact ⟨_, .inr (.inl rfl), hgives.2⟩
        · exact ⟨_, .inr (.inr rfl), hgives.2⟩
      exact hgood (hmarked t ht hx)
  cases k with
  | ip => exact absurd hlt (Nat.not_lt_zero _)
  | network =>
    obtain rfl : k' = .ip := by
      revert hlt
      cases k' <;> decide
    obtain ⟨⟨n, hn, rfl⟩, rfl⟩ := hgives
    by_cases hnet : netOf q.remote n = q.remote
    · exact hgood (hord.network hfirst.1 n hn hnet hx)
    · obtain ⟨e, he, s', hgives'⟩ := hfirst.1
      have hs' := gives_tag hgives' (.inl (by decide))
      refine absurd ?_ (hbefore he hgives' hs')
      obtain ⟨rfl, rfl⟩ := hgives'
      obtain ⟨m, hm, rfl⟩ : ∃ m, (m = 1 ∨ m = 2 ∨ m = 3) ∧ n = 8 * m := by
        rcases hn with rfl | rfl | rfl
        · exact ⟨3, by decide, rfl⟩
        · exact ⟨2, by decide, rfl⟩
        · exact ⟨1, by decide, rfl⟩
      exact List.append_left_lt (networkTag_lt q.remote hm hnet)
  | host => exact absurd rfl hne
  | hostPrefix => exact absurd rfl hne'
  | client => exact hown (by decide)
  | alwaysIp => exact hown (by decide)
  | alwaysClient => exact hown (by decide)
  | dirAlwaysClient => exact hgood (hord.dirAlways x hx (.inr hgives.2))
  | dirAlwaysIp => exact hgood (hord.dirAlways x hx (.inl hgives.2))

open ClusterQuery in
theorem redirects_of_inOrder (hdir : w.readdir (clusterDirname q.path) = some q.dir)
    (hname : getHost w q.remote = q.hname) (hord : q.InOrder) : RedirectsAsDocumented w q := by
  rw [redirects_iff hdir hname]
  cases hfind : q.names.find? fun e => decide (q.tag e ≠ some none) with
  | none =>
    have hnone : ∀ e ∈ q.dir, scanned q.master e = true → q.tag e = some none := by
      intro e he hscan
      simpa using find_last_none.1 hfind e (mem_names.2 ⟨he, hscan⟩)
    rcases documented_none_or q with h | ⟨k, hk⟩
    · exact h
    rcases first_cases hk with ⟨e, he, s, hgives, hs⟩ | ⟨hm, hk'⟩
    · have := hnone e he (gives_scanned hgives)
      rw [hs] at this
      cases this
    · obtain ⟨e, he, hscan, hg⟩ := (hord.marked hm (by
        rcases hk' with rfl | rfl
        · exact .inl hk
        · exact .inr hk)).1
      exact absurd (hnone e he hscan) hg.tag_ne
  | some x =>
    obtain ⟨⟨hx, hscan⟩, htag, hlast⟩ := names_find hfind
    exact good_of_last hord hx hscan htag hlast

end

/-- **Tagged files.** The lookup does what the manual says exactly if the entries are harmless for
which the order of the bytes need not be that of the kinds. -/
theorem cluster_iff (w : ClusterWorld) (q : ClusterQuery)
    (hdir : w.readdir (clusterDirname q.path) = some q.dir)
    (hname : getHost w q.remote = q.hname) : RedirectsAsDocumented w q ↔ q.InOrder :=
  ⟨inOrder_of_redirects hdir hname, redirects_of_inOrder hdir hname⟩

/-! ## Ordinary directories -/

namespace ClusterQuery

variable {q : ClusterQuery} {k : TagKind} {e s : CStr}

/-- A directory where nothing stands at a wrong place: the client's name is known, names with a host
tag are those of this file, and no two tags are there that the order of the bytes confuses. -/
structure Ordinary (q : ClusterQuery) (h : CStr) : Prop where
  known : q.hname = some h
  letters : ∀ b ∈ h, 42 < b
  unmarked : ¬ hostMark <:+: q.master
  own : ∀ e ∈ q.dir, scanned q.master e = true → isHost e = true →
    ∃ y, y ≠ [] ∧ e = q.master ++ hostTag y
  patterns : q.master ++ hostTag h ∈ q.dir → q.master ++ hostTag (h ++ [42]) ∉ q.dir
  address : ∀ n, (n = 24 ∨ n = 16 ∨ n = 8) → netOf q.remote n ≠ q.remote
  after : alwaysIpTag < q.master ∧ alwaysClientTag < q.master
  single : alwaysIpTag ∈ q.dir → alwaysClientTag ∉ q.dir

/-- An entry is harmless if one of the first kind is after it. -/
theorem harmless_of_lt {k' : TagKind} {e' s' : CStr} (hk : q.First k') (he : e' ∈ q.dir)
    (h : q.Gives e' s' k') (htag : q.tag e' = some (some s')) (hlt : e < e') : q.Harmless e :=
  .inr ⟨e', he, gives_scanned h, good_of_first hk he h htag, hlt⟩

/-- An entry whose host tag applies is of one of the two kinds. -/
theorem Ordinary.host_kind {h : CStr} (ho : q.Ordinary h) (he : e ∈ q.dir)
    (hscan : scanned q.master e = true) (hhost : isHost e = true) (htag : q.tag e ≠ some none) :
    ∃ k s, q.Gives e s k ∧ (k = .host ∨ k = .hostPrefix) := by
  obtain ⟨y, hy, rfl⟩ := ho.own e he hscan hhost
  have hmaster : ¬ HostTagged q.master := by
    rintro ⟨file, host, heq⟩
    exact ho.unmarked ⟨file, host ++ lit "$$", by rw [heq, hostTag, List.append_assoc]⟩
  have hm : isHost q.master = false := by rwa [← Bool.not_eq_true, isHost_iff]
  rw [tag, clusterTag_host hm, ho.known, matchHost_own ho.unmarked] at htag
  by_cases hyh : y = h
  · exact ⟨.host, _, ⟨hmaster, ⟨h, ho.known, by rw [hyh]⟩, rfl⟩, .inl rfl⟩
  rw [if_neg hyh, List.getLast?_eq_some_getLast hy, Option.elim_some] at htag
  by_cases hstar : y.getLast hy = 42
  · rw [if_neg (not_not_intro hstar)] at htag
    by_cases hp : y.dropLast <+: h
    · have hsplit : y = y.dropLast ++ [42] := by rw [← hstar, List.dropLast_append_getLast]
      exact ⟨.hostPrefix, _, ⟨hmaster, ⟨h, _, ho.known, hp, by rw [← hsplit]⟩, rfl⟩, .inr rfl⟩
    · exact absurd (if_neg hp) htag
  · exact absurd (if_pos hstar) htag

theorem Ordinary.inOrder {h : CStr} (ho : q.Ordinary h) : q.InOrder where
  network := fun _ n hn hnet _ => absurd hnet (ho.address n hn)
  marked := fun hm => absurd hm ho.unmarked
  dirAlways := by
    intro e he hcase
    obtain ⟨k, s, hgives, hk⟩ :
        ∃ k s, q.Gives e s k ∧ (k = .dirAlwaysIp ∨ k = .dirAlwaysClient) := by
      rcases hcase with rfl | rfl
      · exact ⟨.dirAlwaysIp, _, ⟨rfl, rfl⟩, by decide⟩
      · exact ⟨.dirAlwaysClient, _, ⟨rfl, rfl⟩, by decide⟩
    obtain ⟨k', hfirst, hle⟩ := exists_first ⟨e, he, s, hgives⟩
    obtain ⟨e', he', s', hgives'⟩ := hfirst.1
    have htag' := gives_tag hgives' (.inr ho.unmarked)
    by_cases hplace : k'.place < 7
    · obtain ⟨t, -, rfl⟩ := gives_lettered hgives' hplace
      refine harmless_of_lt hfirst he' hgives' htag' ?_
      have hmaster : e < q.master := by
        rcases hcase with rfl | rfl
        · exact ho.after.1
        · exact ho.after.2
      exact Std.lt_of_lt_of_le hmaster List.le_append_left
    -- the first kind is that of an `ALWAYS` tag of the directory, and there is one such tag
    · have hcase' : e' = alwaysIpTag ∨ e' = alwaysClientTag := by
        cases k' with
        | dirAlwaysClient => exact .inr hgives'.2
        | dirAlwaysIp => exact .inl hgives'.2
        | _ => exact absurd (by decide) hplace
      have heq : e' = e := by
        rcases hcase with rfl | rfl <;> rcases hcase' with rfl | rfl
        · rfl
        · exact absurd he' (ho.single he)
        · exact absurd he (ho.single he')
        · rfl
      rw [heq] at hgives' htag'
      exact .inl (good_of_first hfirst he hgives' htag')
  host := by
    intro e he hscan hhost htag
    obtain ⟨k, s, hgives, hk⟩ := ho.host_kind he hscan hhost htag
    have hs := gives_tag hgives (.inr ho.unmarked)
    obtain ⟨k', hfirst, hle⟩ := exists_first ⟨e, he, s, hgives⟩
    obtain ⟨e', he', s', hgives'⟩ := hfirst.1
    have htag' := gives_tag hgives' (.inr ho.unmarked)
    by_cases hletter : letter k < letter k'
    · have hplace : k.place < 7 := by
        rcases hk with rfl | rfl <;> decide
      obtain ⟨t, ht, rfl⟩ := gives_lettered hgives hplace
      obtain ⟨t', ht', rfl⟩ := gives_lettered hgives' (by omega)
      exact harmless_of_lt hfirst he' hgives' htag' (ht.lt ht' hletter q.master)
    by_cases heq : k' = k
    · rw [heq] at hfirst
      exact .inl (good_of_first hfirst he hgives hs)
    -- a pattern, and the whole name is there
    have hpair : k' = .host ∧ k = .hostPrefix := by
      revert hle hletter heq
      rcases hk with rfl | rfl <;> cases k' <;> decide
    obtain ⟨rfl, rfl⟩ := hpair
    refine harmless_of_lt hfirst he' hgives' htag' ?_
    obtain ⟨-, ⟨h1, hh1, rfl⟩, rfl⟩ := hgives'
    obtain ⟨-, ⟨h2, p, hh2, ⟨r, rfl⟩, rfl⟩, rfl⟩ := hgives
    cases Option.some.inj (hh1.symm.trans ho.known)
    cases Option.some.inj (hh2.symm.trans ho.known)
    cases r with
    | nil =>
      rw [List.append_nil] at he'
      exact absurd he (by simpa using ho.patterns (by simpa using he'))
    | cons c r =>
      have hc := ho.letters c (by simp)
      refine List.append_left_lt (List.append_left_lt ?_)
      rw [List.append_assoc, List.append_assoc]
      exact append_lt_append hc

end ClusterQuery

/-- A lookup in a directory whose names begin neither with the name and a tag nor are tags of the
directory. -/
theorem ClusterQuery.documented_none {q : ClusterQuery}
    (h : ∀ e ∈ q.dir, ¬ q.master ++ lit "$$" <+: e ∧ e ≠ alwaysIpTag ∧ e ≠ alwaysClientTag) :
    ∀ k, ¬ q.Present k := by
  rintro k ⟨e, he, s, hgives⟩
  obtain ⟨hbegin, hip, hclient⟩ := h e he
  by_cases hk : k.place < 7
  · obtain ⟨t, ⟨x, rfl⟩, rfl⟩ := gives_lettered hgives hk
    exact hbegin ⟨letter k :: x, by rw [List.append_assoc]⟩
  · cases k with
    | dirAlwaysClient => exact hclient hgives.2
    | dirAlwaysIp => exact hip hgives.2
    | _ => exact absurd (by decide) hk

/-- A machine that is known by its name, and a directory. -/
def siteWorld (names : List CStr) : ClusterWorld where
  readdir path := if path = lit "/etc" then some names else none
  gethostbyaddr _ := some (lit "ws1.site")

/-- It looks up `/etc/motd`. -/
def motdQuery (names : List CStr) : ClusterQuery where
  path := lit "/etc/motd"
  remote := 0x0a000005
  hname := some (lit "ws1")
  dir := names

/-- The directory has `motd`, and another file with a host tag. -/
def bakNames : List CStr := [lit "motd", lit "motd.bak$$HOST=ws1$$"]

/-- The tag of the other file is appended, which makes a path that is not there. -/
theorem cluster_longer_name :
    (siteWorld bakNames).readdir (clusterDirname (motdQuery bakNames).path) = some bakNames ∧
    clusterLookupLowlevel (siteWorld bakNames) (lit "/etc/motd") 0x0a000005 =
      some (lit "/etc/motd$$HOST=ws1$$", .slave) ∧
    ¬ RedirectsAsDocumented (siteWorld bakNames) (motdQuery bakNames) := by
  have hlookup : clusterLookupLowlevel (siteWorld bakNames) (lit "/etc/motd") 0x0a000005 =
      some (lit "/etc/motd$$HOST=ws1$$", .slave) := by
    decide +kernel
  refine ⟨rfl, hlookup, ?_⟩
  have hnone := ClusterQuery.documented_none (q := motdQuery bakNames) (by decide +kernel)
  rintro ⟨r, hr, heq⟩
  cases r with
  | none =>
    rw [show (motdQuery bakNames).path = lit "/etc/motd" from rfl,
      show (motdQuery bakNames).remote = 0x0a000005 from rfl, hlookup] at heq
    cases heq
  | some s =>
    obtain ⟨k, hk, -⟩ := hr
    exact hnone k hk.1

/-- The directory has tagged files for `motd`. -/
def motdNames : List CStr :=
  [lit "motd", lit "motd$$CLIENT$$", lit "motd$$HOST=ws*$$", lit "motd$$IP=10.0.0.0_24$$"]

/-- The network comes first. -/
theorem cluster_network :
    (motdQuery motdNames).InOrder ∧
    clusterLookupLowlevel (siteWorld motdNames) (lit "/etc/motd") 0x0a000005 =
      some (lit "/etc/motd$$IP=10.0.0.0_24$$", .slave) := by
  refine ⟨?_, by decide +kernel⟩
  have htag : lit "$$IP=10.0.0.0_24$$" = networkTag (motdQuery motdNames).remote 24 := by
    decide +kernel
  have hgives : (motdQuery motdNames).Gives (lit "motd$$IP=10.0.0.0_24$$")
      (lit "$$IP=10.0.0.0_24$$") .network :=
    ⟨⟨24, by decide, htag⟩, by decide +kernel⟩
  have hmem : lit "motd$$IP=10.0.0.0_24$$" ∈ (motdQuery motdNames).dir := by decide +kernel
  have hfirst : (motdQuery motdNames).First .network := by
    refine ⟨⟨_, hmem, _, hgives⟩, ?_⟩
    intro k hk hpresent
    obtain rfl : k = .ip := by
      revert hk
      cases k <;> decide
    obtain ⟨e, he, s, rfl, rfl⟩ := hpresent
    revert he
    decide +kernel
  exact (cluster_iff (siteWorld motdNames) (motdQuery motdNames) rfl (by decide +kernel)).1
    ⟨some _, ⟨.network, hfirst, _, hmem, hgives⟩, by decide +kernel⟩

end NfsRods
