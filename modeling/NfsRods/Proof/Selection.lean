import NfsRods.Lib.Longest
import NfsRods.Config.Exports

/-!
# Which export governs a path

`exports_options` leaves what it finds in seven places: `exports_opts`, `export_path`,
`export_fsid`, the two anonymous ids, `*password` and `export_password_hash`.

* `Selected`: the export that governs a path for a client, and the host of it that lists the client.
* `exportsOptions_longest`: the scan is the scan for the longest item of `Lib.Longest`.
* `exports_selection`: all seven come from that host, and the order of the exports does not matter.
-/

namespace NfsRods

open CStr

/-- The host lists the client. -/
def EHost.Lists (remote : UInt32) (h : EHost) : Prop := remote &&& h.mask = h.addr

/-- `h` is the first host of the export that lists the client. -/
def FirstHost (remote : UInt32) (item : EItem) (h : EHost) : Prop :=
  ∃ hs₁ hs₂, item.hosts = hs₁ ++ h :: hs₂ ∧ h.Lists remote ∧ ∀ x ∈ hs₁, ¬ x.Lists remote

/-- The path lies under the export, as a string, and the export is for the client. -/
def Applies (remote : UInt32) (p : CStr) (item : EItem) : Prop :=
  item.path <+: p ∧ ∃ h ∈ item.hosts, h.Lists remote

/-- `item` is the longest export that applies, the first of several, and `h` its host for the
client. -/
structure Selected (list : List EItem) (remote : UInt32) (p : CStr) (item : EItem)
    (h : EHost) : Prop where
  mem : item ∈ list
  applies : Applies remote p item
  host : FirstHost remote item h
  longest : ∀ i ∈ list, Applies remote p i → i.path.length ≤ item.path.length
  first : ∃ l₁ l₂, list = l₁ ++ item :: l₂ ∧ ∀ i ∈ l₁, Applies remote p i →
    i.path.length < item.path.length

/-- The options cache for a host of an export. -/
def EItem.vars (item : EItem) (h : EHost) : ExportVars :=
  { opts := some h.options, path := some item.path, fsid := item.fsid
    passwordHash := h.passwordHash
    lastAnonuid := h.anonuid, lastAnongid := h.anongid }

/-- The client's host, where the path lies under the export. -/
def hostFor (remote : UInt32) (p : CStr) (item : EItem) : Option EHost :=
  if item.path <+: p then findHost remote item else none

section
variable {list : List EItem} {remote : UInt32} {p : CStr} {item : EItem} {h : EHost}

theorem findHost_eq_some : findHost remote item = some h ↔ FirstHost remote item h := by
  simp only [findHost, FirstHost, List.find?_eq_some_iff_append, beq_iff_eq, EHost.Lists,
    Bool.not_eq_true', beq_eq_false_iff_ne]
  constructor
  · rintro ⟨hh, hs₁, hs₂, hl, hno⟩
    exact ⟨hs₁, hs₂, hl, hh, hno⟩
  · rintro ⟨hs₁, hs₂, hl, hh, hno⟩
    exact ⟨hh, hs₁, hs₂, hl, hno⟩

theorem hostFor_ne_none : hostFor remote p item ≠ none ↔ Applies remote p item := by
  rw [hostFor, Applies]
  by_cases hp : item.path <+: p
  · rw [if_pos hp, and_iff_right hp, findHost, ← Option.isSome_iff_ne_none, List.find?_isSome]
    simp [EHost.Lists]
  · simp [hp]

/-- The scan for the longest export finds the one that is selected. -/
theorem Selected.of_longest (hl : Longest (·.path.length) (hostFor remote p) list item h) :
    Selected list remote p item h := by
  have happ : Applies remote p item := hostFor_ne_none.1 (by rw [hl.value]; simp)
  have hhost : FirstHost remote item h := by
    have hval := hl.value
    rw [hostFor, if_pos happ.1] at hval
    exact findHost_eq_some.1 hval
  refine ⟨hl.mem, happ, hhost, fun i hi ha => hl.le hi (hostFor_ne_none.2 ha), ?_⟩
  obtain ⟨l₁, l₂, hlist, _, _, hbefore, _⟩ := hl
  exact ⟨l₁, l₂, hlist, fun i hi ha => hbefore i hi (hostFor_ne_none.2 ha)⟩

/-- The export that is selected is the longest one, if its path is not empty. -/
theorem selected_longest (hs : Selected list remote p item h) (hne : item.path ≠ []) :
    longest (·.path.length) (hostFor remote p) list = some (item, h) := by
  obtain ⟨l₁, l₂, hlist, hbefore⟩ := hs.first
  have hval : hostFor remote p item = some h := by
    rw [hostFor, if_pos hs.applies.1]
    exact findHost_eq_some.2 hs.host
  apply Longest.eq
  refine ⟨l₁, l₂, hlist, hval, List.length_pos_iff.2 hne, ?_, ?_⟩
  · intro i hi hv
    exact hbefore i hi (hostFor_ne_none.1 hv)
  · intro i hi hv
    have hmem : i ∈ list := by
      rw [hlist]
      simp [hi]
    exact hs.longest i hmem (hostFor_ne_none.1 hv)

/-- What the scan has found is what the longest export so far says. -/
theorem foldl_exportsStep_longest (list : List EItem) (remote : UInt32) (p : CStr)
    (v : ExportVars) :
    (list.foldl (exportsStep remote p) { vars := v.clear }).vars =
        (longest (·.path.length) (hostFor remote p) list).elim v.clear (fun x => x.1.vars x.2) ∧
      (list.foldl (exportsStep remote p) { vars := v.clear }).password =
        (longest (·.path.length) (hostFor remote p) list).map (·.2.password) ∧
      (list.foldl (exportsStep remote p) { vars := v.clear }).lastLen =
        (longest (·.path.length) (hostFor remote p) list).elim 0 (·.1.path.length) := by
  induction list using List.reverseRecOn with
  | nil => exact ⟨rfl, rfl, rfl⟩
  | append_singleton list i ih =>
    rw [List.foldl_append, longest_concat]
    generalize list.foldl (exportsStep remote p) { vars := v.clear } = k at ih ⊢
    simp only [List.foldl_cons, List.foldl_nil, exportsStep]
    obtain ⟨hvars, hpassword, hlen⟩ := ih
    by_cases hp : i.path <+: p
    · cases hh : findHost remote i with
      | none =>
        have hnone : hostFor remote p i = none := by rw [hostFor, if_pos hp, hh]
        simp only [longestStep, hnone]
        split <;> exact ⟨hvars, hpassword, hlen⟩
      | some h =>
        have hsome : hostFor remote p i = some h := by rw [hostFor, if_pos hp, hh]
        rw [hlen]
        cases hbest : longest (·.path.length) (hostFor remote p) list with
        | none =>
          simp only [longestStep, hsome, hp, and_true, Option.elim_none]
          rw [hbest] at hvars hpassword hlen
          split
          · exact ⟨rfl, rfl, rfl⟩
          · exact ⟨hvars, hpassword, hlen⟩
        | some x =>
          simp only [longestStep, hsome, hp, and_true, Option.elim_some]
          rw [hbest] at hvars hpassword hlen
          split
          · exact ⟨rfl, rfl, rfl⟩
          · exact ⟨hvars, hpassword, hlen⟩
    · have hnone : hostFor remote p i = none := by rw [hostFor, if_neg hp]
      simp only [longestStep, hnone, hp, and_false, if_false]
      exact ⟨hvars, hpassword, hlen⟩

/-- `exports_options` by the longest export that applies. -/
theorem exportsOptions_longest (list : List EItem) (remote : UInt32) (v : ExportVars)
    (hd : strstr p (lit "/../") = false) :
    (exportsOptions list remote (some p) v).vars =
        (longest (·.path.length) (hostFor remote p) list).elim v.clear (fun x => x.1.vars x.2) ∧
      (exportsOptions list remote (some p) v).password =
        (longest (·.path.length) (hostFor remote p) list).map (·.2.password) := by
  simp only [exportsOptions, hd, Bool.false_eq_true, if_false]
  exact ⟨(foldl_exportsStep_longest list remote p v).1,
    (foldl_exportsStep_longest list remote p v).2.1⟩

end

/-- The path is none that a client may use: it is `NULL` or has a `..` in it. -/
def Unusable (path : Option CStr) : Prop := path = none ∨ ∃ p, path = some p ∧ lit "/../" <:+: p

/-- **Export selection** is by the longest prefix, then by the first host that lists the client. The
scan fails exactly for unusable paths and those to which no export applies. Else everything it
leaves comes from the host that is selected, and is the same for the exports in another order. -/
theorem exports_selection (list : List EItem) (hne : ∀ i ∈ list, i.path ≠ []) (remote : UInt32)
    (path : Option CStr) (v : ExportVars) :
    ((exportsOptions list remote path v).vars.opts = none ↔
      Unusable path ∨ ∀ p, path = some p → ∀ i ∈ list, ¬ Applies remote p i) ∧
    ((exportsOptions list remote path v).vars.opts ≠ none → ∃ p item h, path = some p ∧
      Selected list remote p item h ∧ (exportsOptions list remote path v).vars = item.vars h ∧
      (exportsOptions list remote path v).password = some h.password) ∧
    ∀ list', list'.Perm list → (list.map (·.path)).Nodup →
      (exportsOptions list' remote path v).vars = (exportsOptions list remote path v).vars ∧
      (exportsOptions list' remote path v).password =
        (exportsOptions list remote path v).password := by
  cases path with
  | none =>
    refine ⟨⟨fun _ => .inl (.inl rfl), fun _ => rfl⟩, fun h => absurd rfl h,
      fun _ _ _ => ⟨rfl, rfl⟩⟩
  | some p =>
    have hunusable : Unusable (some p) ↔ strstr p (lit "/../") = true := by
      simp [Unusable, strstr_iff]
    cases hd : strstr p (lit "/../") with
    | true =>
      have hfail : ∀ list, exportsOptions list remote (some p) v = { vars := v.clear } := by
        intro list
        simp only [exportsOptions, hd, if_true]
      rw [hfail list]
      refine ⟨⟨fun _ => .inl (hunusable.2 hd), fun _ => rfl⟩, fun h => absurd rfl h,
        fun list' _ _ => ?_⟩
      rw [hfail list']
      exact ⟨rfl, rfl⟩
    | false =>
      have hun : ¬ Unusable (some p) := by simp [hunusable, hd]
      obtain ⟨hvars, hpassword⟩ := exportsOptions_longest list remote v hd
      have hnone : longest (·.path.length) (hostFor remote p) list = none ↔
          ∀ q, some p = some q → ∀ i ∈ list, ¬ Applies remote q i := by
        rw [longest_eq_none]
        constructor
        · rintro hall q ⟨⟩ i hi ha
          rcases hall i hi with h | h
          · exact hostFor_ne_none.2 ha h
          · exact hne i hi (List.length_eq_zero_iff.1 h)
        · intro hall i hi
          exact .inl (by_contra fun h => hall p rfl i hi (hostFor_ne_none.1 h))
      refine ⟨?_, fun hsome => ?_, fun list' hperm hnodup => ?_⟩
      · rw [or_iff_right hun, ← hnone, hvars]
        cases longest (·.path.length) (hostFor remote p) list with
        | none => exact ⟨fun _ => rfl, fun _ => rfl⟩
        | some x => exact iff_of_false (Option.some_ne_none _) (Option.some_ne_none _)
      · cases hbest : longest (·.path.length) (hostFor remote p) list with
        | none =>
          rw [hvars, hbest] at hsome
          exact absurd rfl hsome
        | some x =>
          obtain ⟨item, h⟩ := x
          refine ⟨p, item, h, rfl, .of_longest (longest_eq_some hbest), ?_, ?_⟩
          · rw [hvars, hbest]
            rfl
          · rw [hpassword, hbest]
            rfl
      · obtain ⟨hvars', hpassword'⟩ := exportsOptions_longest list' remote v hd
        rw [hvars', hpassword', hvars, hpassword, longest_perm hperm]
        · exact ⟨rfl, rfl⟩
        -- two exports of the same length that apply have the same path
        · intro i hi j hj hai haj hlen
          have hpi := (hostFor_ne_none.1 hai).1
          have hpj := (hostFor_ne_none.1 haj).1
          refine List.inj_on_of_nodup_map hnodup hi hj ?_
          exact (List.prefix_of_prefix_length_le hpi hpj hlen.le).eq_of_length hlen

/-- Two nested exports; the inner one lists one client with a password, then everybody. -/
def nestedExports : List EItem :=
  [{ path := lit "/a", orig := lit "/a", hosts := [{}] },
    { path := lit "/a/b", orig := lit "/a/b"
      hosts :=
        [{ addr := 1, mask := 0xffffffff, options := { rw := true }, password := lit "x" }, {}] }]

/-- The client is given the options and the password of its own host of the inner export. -/
theorem exports_selection_nested : ∃ item h, Selected nestedExports 1 (lit "/a/b/c") item h ∧
    item.path = lit "/a/b" ∧ h.options = { rw := true } ∧ h.password = lit "x" := by
  have hsome : (exportsOptions nestedExports 1 (some (lit "/a/b/c")) {}).vars.opts ≠ none := by
    decide +kernel
  obtain ⟨p, item, h, hp, hsel, hvars, hpassword⟩ := (exports_selection nestedExports (by decide) 1
    (some (lit "/a/b/c")) {}).2.1 hsome
  have hpath : (exportsOptions nestedExports 1 (some (lit "/a/b/c")) {}).vars.path =
    some (lit "/a/b") := by
    decide +kernel
  have hopts : (exportsOptions nestedExports 1 (some (lit "/a/b/c")) {}).vars.opts =
    some { rw := true } := by decide +kernel
  have hword : (exportsOptions nestedExports 1 (some (lit "/a/b/c")) {}).password =
    some (lit "x") := by
    decide +kernel
  rw [hvars] at hpath hopts
  rw [hpassword] at hword
  cases hp
  exact ⟨item, h, hsel, Option.some.inj hpath, Option.some.inj hopts, Option.some.inj hword⟩

end NfsRods
