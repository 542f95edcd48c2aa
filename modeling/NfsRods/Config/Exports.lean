import NfsRods.Types

/-!
# The export list

`exports.y`'s access code: which export governs a path for a client. `exportsOptions` is the scan
every NFS and MOUNT procedure relies on. It keeps the longest item whose path is a *string* prefix
of the path asked for and that lists the client, and leaves what it found in the options cache
(`ExportVars`).

* `exportsOptions_isSome`: the scan finds an export exactly when some item that is a string prefix
  of the path lists the client.
* `exportsOptions_path`: the cache's export path is set exactly when its options are.
-/

namespace NfsRods

open CStr

/-- The option bits of a host (`OPT_NO_ROOT_SQUASH` .. `OPT_INSECURE`). -/
structure Options where
  noRootSquash : Bool := false
  allSquash : Bool := false
  rw : Bool := false
  removable : Bool := false
  insecure : Bool := false
  deriving DecidableEq, Repr

/-- `ANON_NOTSPECIAL`. -/
def anonNotspecial : ULong := 0xffffffff

/-- `PASSWORD_MAXLEN`. -/
def passwordMaxlen : Nat := 64

/-- The FNV1a hash; `*str` is a signed `char`, sign-extended to the width of `hval`. -/
def fnv1a32 (str : CStr) (hval : ULong) : ULong :=
  str.foldl
    (fun h b => (h ^^^ (if b < 128 then b.toUInt64 else b.toUInt64 ||| 0xffffffffffffff00)) *
    0x01000193) hval

/-- `e_host`, as `clear_host` leaves it. -/
structure EHost where
  orig : CStr := lit "<anon clnt>"
  options : Options := {}
  password : CStr := []
  addr : UInt32 := 0
  mask : UInt32 := 0
  anonuid : ULong := anonNotspecial
  anongid : ULong := anonNotspecial
  deriving DecidableEq, Repr

/-- `password_hash`, computed from the stored password when the option is parsed. -/
def EHost.passwordHash (h : EHost) : ULong := fnv1a32 h.password 0

/-- `e_item`. -/
structure EItem where
  path : CStr
  orig : CStr
  hosts : List EHost
  deriving DecidableEq, Repr

/-- `get_free_fsid`. -/
def getFreeFsid (path : CStr) : ULong := fnv1a32 path 0 ||| 0x80000000

/-- `fsid`, hashed from the name as written in the exports file. -/
def EItem.fsid (i : EItem) : ULong := getFreeFsid i.orig

/-- The options cache: `exports_opts` (`none` is -1), `export_path` (`none` is `NULL`),
`export_fsid`, `export_password_hash` and the last anonymous ids. -/
structure ExportVars where
  opts : Option Options := none
  path : Option CStr := none
  fsid : ULong := 0
  passwordHash : ULong := 0
  lastAnonuid : ULong := anonNotspecial
  lastAnongid : ULong := anonNotspecial
  deriving DecidableEq, Repr

/-- `exports_opts & OPT`: the value -1 has every bit set. -/
def ExportVars.bit (v : ExportVars) (f : Options → Bool) : Bool := v.opts.elim true f

/-- `find_host`. -/
def findHost (remote : UInt32) (item : EItem) : Option EHost :=
  item.hosts.find? fun h => remote &&& h.mask == h.addr

/-- The variables of the scan: the cache, `last_len`, and the caller's `*password` and `*fsid`
(`none` while not assigned). -/
structure Lookup where
  vars : ExportVars
  lastLen : Nat := 0
  password : Option CStr := none
  fsid : Option ULong := none
  deriving DecidableEq, Repr

/-- One item of the scan. -/
def exportsStep (remote : UInt32) (path : CStr) (k : Lookup) (item : EItem) : Lookup :=
  if k.lastLen < item.path.length ∧ item.path <+: path then
    match findHost remote item with
    | some h =>
      { vars := { opts := some h.options, path := some item.path, fsid := item.fsid,
                  passwordHash := h.passwordHash, lastAnonuid := h.anonuid,
                  lastAnongid := h.anongid }
        lastLen := item.path.length
        password := some h.password
        fsid := some item.fsid }
    -- `*fsid` is assigned whether or not the host matches
    | none => { k with fsid := some item.fsid }
  else k

/-- The cache as `exports_options` clears it; `export_password_hash` keeps its old value. -/
def ExportVars.clear (v : ExportVars) : ExportVars :=
  { opts := none, path := none, fsid := 0, passwordHash := v.passwordHash,
    lastAnonuid := anonNotspecial, lastAnongid := anonNotspecial }

/-- `exports_options`: the client's options for a path (`NULL` when not resolved). -/
def exportsOptions (list : List EItem) (remote : UInt32) (path : Option CStr) (v : ExportVars) :
    Lookup :=
  match path with
  | none => { vars := v.clear }
  | some p =>
    if strstr p (lit "/../") then { vars := v.clear }
    else list.foldl (exportsStep remote p) { vars := v.clear }

/-- `export_point`. -/
def exportPoint (list : List EItem) (path : CStr) : Bool := list.any (·.path == path)

/-- `export_point_from_fsid`. -/
def exportPointFromFsid (list : List EItem) (fsid : ULong) : Option CStr :=
  (list.find? (·.fsid == fsid)).map (·.path)

/-- `exports_compat`: whether the options of `path` are the last ones looked up. -/
def exportsCompat (list : List EItem) (remote : UInt32) (path : Option CStr) (v : ExportVars) :
    Nfsstat3 × ExportVars :=
  let v' := (exportsOptions list remote path v).vars
  if v'.opts = v.opts ∧ v'.lastAnonuid = v.lastAnonuid ∧ v'.lastAnongid = v.lastAnongid then
    (.ok, v')
  else if v'.opts = none then (.acces, v')
  else (.xdev, v')

/-- `exports_rw`. -/
def exportsRw (v : ExportVars) : Nfsstat3 := if v.opts.any (·.rw) then .ok else .rofs

/-! ## What the scan finds -/

/-- `item` lists the client and its path is a nonempty string prefix of `p`. -/
def Matches (remote : UInt32) (p : CStr) (item : EItem) : Prop :=
  item.path ≠ [] ∧ item.path <+: p ∧ (findHost remote item).isSome

/-- The cache after a scan step is the old one or the item's host's. -/
theorem exportsStep_cases (remote : UInt32) (p : CStr) (k : Lookup) (item : EItem) :
    (∃ h, findHost remote item = some h ∧ k.lastLen < item.path.length ∧ item.path <+: p ∧
      (exportsStep remote p k item).vars.opts = some h.options ∧
      (exportsStep remote p k item).vars.path = some item.path ∧
      (exportsStep remote p k item).password = some h.password ∧
      (exportsStep remote p k item).lastLen = item.path.length) ∨
    ((exportsStep remote p k item).vars = k.vars ∧
      (exportsStep remote p k item).password = k.password ∧
      (exportsStep remote p k item).lastLen = k.lastLen ∧
      (findHost remote item = none ∨ item.path.length ≤ k.lastLen ∨ ¬ item.path <+: p)) := by
  unfold exportsStep
  by_cases hc : k.lastLen < item.path.length ∧ item.path <+: p
  · rw [if_pos hc]
    cases hf : findHost remote item with
    | some h => exact .inl ⟨h, rfl, hc.1, hc.2, rfl, rfl, rfl, rfl⟩
    | none => exact .inr ⟨rfl, rfl, rfl, .inl rfl⟩
  · rw [if_neg hc]
    refine .inr ⟨rfl, rfl, rfl, ?_⟩
    by_cases hp : item.path <+: p
    · exact .inr (.inl (Nat.not_lt.1 fun h => hc ⟨h, hp⟩))
    · exact .inr (.inr hp)

/-- What holds between the parts of the scan's result: nothing found yet, or an export with its
path and password. -/
structure Lookup.Ok (k : Lookup) : Prop where
  path : k.vars.path.isSome = k.vars.opts.isSome
  password : k.vars.opts.isSome → k.password.isSome
  len : k.vars.opts = none → k.lastLen = 0

theorem exportsStep_ok {remote : UInt32} {p : CStr} {k : Lookup} (item : EItem) (hk : k.Ok) :
    (exportsStep remote p k item).Ok := by
  rcases exportsStep_cases remote p k item with ⟨h, _, _, _, ho, hp, hw, _⟩ | ⟨hv, hw, hl, _⟩
  · exact ⟨by rw [ho, hp]; rfl, fun _ => by rw [hw]; rfl, fun hn => by rw [ho] at hn; cases hn⟩
  · exact ⟨by rw [hv]; exact hk.path, fun hs => by rw [hw]; rw [hv] at hs; exact hk.password hs,
      fun hn => by rw [hl]; rw [hv] at hn; exact hk.len hn⟩

theorem foldl_exportsStep_ok {remote : UInt32} {p : CStr} (list : List EItem) {k : Lookup}
    (hk : k.Ok) : (list.foldl (exportsStep remote p) k).Ok := by
  induction list generalizing k with
  | nil => exact hk
  | cons item list ih => exact ih (exportsStep_ok item hk)

/-- The scan finds an export when it had one or meets an item that matches. -/
theorem foldl_exportsStep_isSome {remote : UInt32} {p : CStr} (list : List EItem) {k : Lookup}
    (hk : k.Ok) :
    (list.foldl (exportsStep remote p) k).vars.opts.isSome ↔
      k.vars.opts.isSome ∨ ∃ item ∈ list, Matches remote p item := by
  induction list generalizing k with
  | nil => simp
  | cons item list ih =>
    rw [List.foldl_cons, ih (exportsStep_ok item hk)]
    simp only [List.exists_mem_cons_iff]
    rcases exportsStep_cases remote p k item with ⟨h, hf, hl, hp, ho, _, _, _⟩ | ⟨hv, _, _, hn⟩
    · have hm : Matches remote p item :=
        ⟨fun h0 => by rw [h0] at hl; simp at hl, hp, by rw [hf]; rfl⟩
      simp [ho, hm]
    · rw [hv]
      constructor
      · rintro (h | h)
        · exact .inl h
        · exact .inr (.inr h)
      · rintro (h | ⟨h1, h2, h3⟩ | h)
        · exact .inl h
        -- an item that matches but was not taken is no longer than one taken before
        · rcases hn with hn | hn | hn
          · rw [hn] at h3; cases h3
          · left
            cases ho : k.vars.opts with
            | some _ => rfl
            | none =>
              rw [hk.len ho] at hn
              exact absurd (List.eq_nil_of_length_eq_zero (Nat.le_zero.1 hn)) h1
          · exact absurd h2 hn
        · exact .inr h

theorem clear_ok (v : ExportVars) : Lookup.Ok { vars := v.clear } :=
  ⟨rfl, fun h => by simp [ExportVars.clear] at h, fun _ => rfl⟩

theorem exportsOptions_ok (list : List EItem) (remote : UInt32) (path : Option CStr)
    (v : ExportVars) : (exportsOptions list remote path v).Ok := by
  unfold exportsOptions
  split
  · exact clear_ok v
  · split
    · exact clear_ok v
    · exact foldl_exportsStep_ok list (clear_ok v)

/-- **Access is granted** exactly to paths without `/../` of which an item listing the client is
a string prefix. -/
theorem exportsOptions_isSome (list : List EItem) (remote : UInt32) (p : CStr) (v : ExportVars) :
    (exportsOptions list remote (some p) v).vars.opts.isSome ↔
      strstr p (lit "/../") = false ∧ ∃ item ∈ list, Matches remote p item := by
  simp only [exportsOptions]
  cases hd : strstr p (lit "/../") with
  | true => simp [ExportVars.clear]
  | false =>
    simp only [Bool.false_eq_true, ↓reduceIte, true_and]
    rw [foldl_exportsStep_isSome list (clear_ok v)]
    simp [ExportVars.clear]

/-- Two scans have found the same export, whatever the cache held before them. -/
def Lookup.Same (k k' : Lookup) : Prop :=
  k.lastLen = k'.lastLen ∧ k.password = k'.password ∧ k.vars.opts = k'.vars.opts

theorem exportsStep_same {remote : UInt32} {p : CStr} {k k' : Lookup} (item : EItem)
    (h : k.Same k') : (exportsStep remote p k item).Same (exportsStep remote p k' item) := by
  obtain ⟨hl, hw, ho⟩ := h
  unfold exportsStep
  rw [hl]
  split
  · split
    · exact ⟨rfl, rfl, rfl⟩
    · exact ⟨rfl, hw, ho⟩
  · exact ⟨hl, hw, ho⟩

/-- What a scan finds does not depend on the cache. -/
theorem exportsOptions_same (list : List EItem) (remote : UInt32) (path : Option CStr)
    (v v' : ExportVars) :
    (exportsOptions list remote path v).Same (exportsOptions list remote path v') := by
  have fold : ∀ (p : CStr) (list : List EItem) (k k' : Lookup), k.Same k' →
      (list.foldl (exportsStep remote p) k).Same (list.foldl (exportsStep remote p) k') := by
    intro p list
    induction list with
    | nil => exact fun _ _ h => h
    | cons item list ih => exact fun k k' h => ih _ _ (exportsStep_same item h)
  unfold exportsOptions
  split
  · exact ⟨rfl, rfl, rfl⟩
  · split
    · exact ⟨rfl, rfl, rfl⟩
    · exact fold _ list _ _ ⟨rfl, rfl, rfl⟩

/-- Two scans that have come equally far; what is in the cache is the same if they have found
something. -/
def Lookup.Level (k k' : Lookup) : Prop :=
  k'.lastLen = k.lastLen ∧ k'.password = k.password ∧ k'.fsid = k.fsid ∧
    (k.vars.opts ≠ none → k'.vars = k.vars)

theorem exportsStep_level {remote : UInt32} {p : CStr} {k k' : Lookup} (item : EItem)
    (h : k.Level k') : (exportsStep remote p k item).Level (exportsStep remote p k' item) := by
  obtain ⟨hl, hw, hf, hv⟩ := h
  unfold exportsStep
  rw [hl]
  split
  · split
    · exact ⟨rfl, rfl, rfl, fun _ => rfl⟩
    · exact ⟨rfl, hw, rfl, hv⟩
  · exact ⟨hl, hw, hf, hv⟩

/-- The export that is found for a path does not depend on what was in force before. -/
theorem exportsOptions_eq {list : List EItem} {remote : UInt32} {path : Option CStr}
    {v : ExportVars}
    (h : (exportsOptions list remote path v).vars.opts ≠ none) (v' : ExportVars) :
    exportsOptions list remote path v' = exportsOptions list remote path v := by
  have fold : ∀ (p : CStr) (list : List EItem) (k k' : Lookup), k.Level k' →
      (list.foldl (exportsStep remote p) k).Level (list.foldl (exportsStep remote p) k') := by
    intro p list
    induction list with
    | nil => exact fun _ _ h => h
    | cons item list ih => exact fun k k' h => ih _ _ (exportsStep_level item h)
  unfold exportsOptions at h ⊢
  split at h
  · exact absurd rfl h
  · split at h
    · exact absurd rfl h
    · rename_i hd
      rw [if_neg hd, if_neg hd]
      obtain ⟨hl, hw, hf, hv⟩ := fold _ list { vars := v.clear } { vars := v'.clear }
        ⟨rfl, rfl, rfl, fun h => absurd rfl h⟩
      rw [Lookup.mk.injEq]
      exact ⟨hv h, hl, hw, hf⟩

theorem exportsOptions_vars {list : List EItem} {remote : UInt32} {path : Option CStr}
    {v : ExportVars}
    (h : (exportsOptions list remote path v).vars.opts ≠ none) (v' : ExportVars) :
    (exportsOptions list remote path v').vars = (exportsOptions list remote path v).vars := by
  rw [exportsOptions_eq h v']

/-- The export a scan has found is a string prefix of the path. -/
theorem exportsOptions_prefix {list : List EItem} {remote : UInt32} {p e : CStr} {v : ExportVars}
    (h : (exportsOptions list remote (some p) v).vars.path = some e) : e <+: p := by
  have fold : ∀ (list : List EItem) (k : Lookup), (∀ e, k.vars.path = some e → e <+: p) →
      ∀ e, (list.foldl (exportsStep remote p) k).vars.path = some e → e <+: p := by
    intro list
    induction list with
    | nil => exact fun _ hk => hk
    | cons item list ih =>
      refine fun k hk => ih _ fun e he => ?_
      rcases exportsStep_cases remote p k item with ⟨_, _, _, hpre, _, hp, _⟩ | ⟨hv, _⟩
      · rw [hp] at he
        cases he
        exact hpre
      · exact hk e (by rw [← hv, he])
  have hclear : ∀ e, v.clear.path = some e → e <+: p := fun _ he => by cases he
  unfold exportsOptions at h
  dsimp only at h
  split at h
  · exact hclear e h
  · exact fold list _ hclear e h

theorem exportsOptions_path (list : List EItem) (remote : UInt32) (path : Option CStr)
    (v : ExportVars) : (exportsOptions list remote path v).vars.path.isSome =
      (exportsOptions list remote path v).vars.opts.isSome :=
  (exportsOptions_ok list remote path v).path

/-- `exports_compat` leaves what the lookup has found, whatever it says of it. -/
theorem exportsCompat_vars (list : List EItem) (remote : UInt32) (path : Option CStr)
    (v : ExportVars) :
    (exportsCompat list remote path v).2 = (exportsOptions list remote path v).vars := by
  unfold exportsCompat
  dsimp only
  split
  · rfl
  · split <;> rfl

/-- What `exports_compat` accepts is governed by an export. -/
theorem exportsCompat_path {list : List EItem} {remote : UInt32} {p : Option CStr} {v : ExportVars}
    (hv : v.opts.isSome) (h : (exportsCompat list remote p v).1 = .ok) :
    ∃ e d, (exportsCompat list remote p v).2.path = some e ∧ p = some d ∧ e <+: d := by
  have hopts : (exportsOptions list remote p v).vars.opts.isSome := by
    unfold exportsCompat at h
    dsimp only at h
    split at h
    · rename_i ho
      rwa [ho.1]
    · split at h <;> cases h
  rw [exportsCompat_vars]
  rw [← exportsOptions_path] at hopts
  obtain ⟨e, he⟩ := Option.isSome_iff_exists.1 hopts
  cases p with
  | none => simp [exportsOptions, ExportVars.clear] at he
  | some d => exact ⟨e, d, he, rfl, exportsOptions_prefix he⟩

end NfsRods
