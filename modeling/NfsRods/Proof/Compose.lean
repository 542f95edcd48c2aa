import NfsRods.Proof.Search

/-!
# Handles composed in one step and in many

`fh_comp_raw` walks a path from its start and hashes the inode of every component; `fh_extend`
copies the handle of the directory and appends one hash. LOOKUP and READDIRPLUS make handles the
second way, MOUNT the first.

* `fhCompPath_dirPath`: what `fh_comp_raw` gives, the depth limit included.
* `extendAlong_chained`: the steps keep the chain of hashes, until the handle is full.
* `extend_composes`: from any directory above a path, the steps and `fh_comp_raw` give the same
  handle, or both refuse.
-/

namespace NfsRods

open CStr

section
variable {L R : Type} (w : World L R)

/-! ## Both ways -/

/-- `fh_extend` for one path after another, with what `lstat` says of each. -/
def extendAlong (fh : Unfs3Fh) : List CStr → M L R (Option Unfs3Fh)
  | [] => pure (some fh)
  | p :: ps => do
    match ← lstat w p with
    | none => pure none
    | some b =>
      match ← fhExtend w ⟨fhLength fh, fh⟩ b.dev b.ino (getGen b) with
      | none => pure none
      | some fh => extendAlong fh ps

/-- The paths on the way from the directory `cs` down `ds`. -/
def below (cs : List CStr) : List CStr → List CStr
  | [] => []
  | d :: ds => pathOf (cs ++ [d]) :: below (cs ++ [d]) ds

/-- Something has the path with the components `cs`, and so has each directory above it. -/
def Existing (k : L) (cs : List CStr) : Prop :=
  ∀ as, as <+: cs → ∃ b, w.lstat k (dirPath as) = .ok b

/-- No export has the number of a device as its `fsid`. -/
def Unnumbered (list : List EItem) (k : L) : Prop :=
  ∀ i ∈ list, ∀ p b, w.lstat k p = .ok b → i.fsid ≠ b.dev

/-- The hashes of the inodes on the way down `cs`. -/
def chain (k : L) (cs : List CStr) : List UInt8 :=
  cs.inits.tail.map fun as => fhHash (statOrZero w k (pathOf as)).ino

/-- The handle is the one of `cs`, whatever the password hash in it. -/
structure Chained (k : L) (cs : List CStr) (fh : Unfs3Fh) : Prop where
  dev : fh.dev = (statOrZero w k (dirPath cs)).dev
  ino : fh.ino = (statOrZero w k (dirPath cs)).ino
  gen : fh.gen = getGen (statOrZero w k (dirPath cs))
  len : fh.len = cs.length
  inos : fh.inos = chain w k cs

end

section
variable {L R : Type} {w : World L R} {k : L} {cs : List CStr}

theorem Existing.of_prefix {as : List CStr} (h : Existing w k cs) (hp : as <+: cs) :
    Existing w k as :=
  fun bs hbs => h bs (hbs.trans hp)

theorem Existing.lstat (h : Existing w k cs) :
    w.lstat k (dirPath cs) = .ok (statOrZero w k (dirPath cs)) := by
  obtain ⟨b, hb⟩ := h cs List.prefix_rfl
  rw [statOrZero, hb]

theorem dirPath_snoc (cs : List CStr) (c : CStr) : dirPath (cs ++ [c]) = pathOf (cs ++ [c]) :=
  if_neg (by simp)

theorem chain_length (cs : List CStr) : (chain w k cs).length = cs.length := by
  simp [chain]

theorem chain_snoc (cs : List CStr) (c : CStr) :
    chain w k (cs ++ [c]) =
      chain w k cs ++ [fhHash (statOrZero w k (pathOf (cs ++ [c]))).ino] := by
  unfold chain
  rw [List.inits_append, List.tail_append_of_ne_nil (by cases cs <;> simp)]
  simp

/-- What `fh_comp_raw` makes of a path: its handle, unless it is too deep for one. -/
theorem fhCompPath_dirPath (hcs : ∀ c ∈ cs, Component c) (hex : Existing w k cs) :
    if cs.length ≤ fhMaxLen then Chained w k cs (fhCompPath w k (dirPath cs) false)
    else fhCompPath w k (dirPath cs) false = invalidFh := by
  have hst := hex.lstat
  rcases cs with _ | ⟨c, cs⟩
  · rw [if_pos (by simp), fhCompPath, hst]
    exact ⟨rfl, rfl, rfl, rfl, rfl⟩
  have hdir : ∀ ds, dirPath (c :: ds) = pathOf (c :: ds) := fun ds => if_neg (by simp)
  have habove : ∀ ds, ds <+: cs → ∃ b, w.lstat k (pathOf (c :: ds)) = .ok b := by
    intro ds hds
    rw [← hdir]
    exact hex (c :: ds) (List.cons_prefix_cons.2 ⟨rfl, hds⟩)
  rw [hdir] at hst ⊢
  rw [fhCompPath_above hcs habove hst]
  by_cases hdepth : (c :: cs).length ≤ fhMaxLen
  · rw [if_pos hdepth, if_pos hdepth]
    refine ⟨by rw [hdir], by rw [hdir], by rw [hdir], rfl, ?_⟩
    simp [chain, List.map_map, Function.comp_def]
  · rw [if_neg hdepth, if_neg hdepth]

/-! ## One step, and the way down -/

/-- `fh_extend` appends to the handle it is given: that of an export point is not met. -/
theorem dirHandle_unnumbered {s : Server L R} {fh : Unfs3Fh} {n : Nat}
    (hu : Unnumbered w s.exportList s.kernel) (hex : Existing w s.kernel cs)
    (hfh : Chained w s.kernel cs fh) : dirHandle w s ⟨n, fh⟩ = some fh := by
  have hno : exportPointFromFsid s.exportList fh.dev = none := by
    rw [exportPointFromFsid, Option.map_eq_none_iff, List.find?_eq_none]
    intro i hi
    rw [hfh.dev]
    simpa using hu i hi _ _ hex.lstat
  unfold dirHandle
  rw [hno]
  exact ite_self _

/-- The step from a directory to an entry of it. -/
theorem fhExtend_chained {s : Server L R} {fh : Unfs3Fh} {c : CStr} {n : Nat}
    (hu : Unnumbered w s.exportList s.kernel) (hex : Existing w s.kernel (cs ++ [c]))
    (hfh : Chained w s.kernel cs fh) :
    ∃ r, fhExtend w ⟨n, fh⟩ (statOrZero w s.kernel (pathOf (cs ++ [c]))).dev
        (statOrZero w s.kernel (pathOf (cs ++ [c]))).ino
        (getGen (statOrZero w s.kernel (pathOf (cs ++ [c])))) s = (.ok r, s) ∧
      if cs.length = fhMaxLen then r = none
      else ∃ new, r = some new ∧ Chained w s.kernel (cs ++ [c]) new := by
  have hdir := dirHandle_unnumbered (n := n) hu (hex.of_prefix (List.prefix_append _ _)) hfh
  refine ⟨_, fhExtend_run _ _ _ _ s, ?_⟩
  rw [hdir, Option.bind_some, hfh.len]
  by_cases hfull : cs.length = fhMaxLen
  · rw [if_pos hfull, if_pos hfull]
  · rw [if_neg hfull, if_neg hfull]
    refine ⟨_, rfl, by rw [dirPath_snoc], by rw [dirPath_snoc], by rw [dirPath_snoc], by simp, ?_⟩
    have htake : fh.inos.take cs.length = fh.inos :=
      List.take_of_length_le (by rw [hfh.inos, chain_length])
    rw [htake, hfh.inos, chain_snoc]

/-- The way down: each step keeps the chain, and none is left once the handle is full. -/
theorem extendAlong_chained {s : Server L R} {fh : Unfs3Fh} {ds : List CStr}
    (hu : Unnumbered w s.exportList s.kernel) (hex : Existing w s.kernel (cs ++ ds))
    (hfh : Chained w s.kernel cs fh) (hcs : cs.length ≤ fhMaxLen) :
    ∃ r, extendAlong w fh (below cs ds) s = (.ok r, s) ∧
      if (cs ++ ds).length ≤ fhMaxLen then ∃ new, r = some new ∧ Chained w s.kernel (cs ++ ds) new
      else r = none := by
  induction ds generalizing cs fh with
  | nil =>
    rw [List.append_nil]
    exact ⟨some fh, rfl, by rw [if_pos hcs]; exact ⟨fh, rfl, hfh⟩⟩
  | cons d ds ih =>
    have hcut : cs ++ d :: ds = (cs ++ [d]) ++ ds := by simp
    have hexd : Existing w s.kernel (cs ++ [d]) := by
      rw [hcut] at hex
      exact hex.of_prefix (List.prefix_append _ _)
    have hst := hexd.lstat
    rw [dirPath_snoc] at hst
    have hlook : lstat w (pathOf (cs ++ [d])) s =
        (.ok (some (statOrZero w s.kernel (pathOf (cs ++ [d])))), s) := by
      rw [NfsRods.lstat, query, hst]
    obtain ⟨r, hr, hnew⟩ := fhExtend_chained (n := fhLength fh) hu hexd hfh
    rw [below, extendAlong, Prog.bind_ok hlook]
    dsimp only
    rw [Prog.bind_ok hr]
    by_cases hfull : cs.length = fhMaxLen
    · rw [if_pos hfull] at hnew
      subst hnew
      refine ⟨none, rfl, ?_⟩
      rw [if_neg (by rw [List.length_append, List.length_cons]; omega)]
    · rw [if_neg hfull] at hnew
      obtain ⟨new, rfl, hchained⟩ := hnew
      rw [hcut] at hex ⊢
      exact ih hex hchained (by rw [List.length_append, List.length_singleton]; omega)

/-- **From any directory above a path, one `fh_extend` for each further component gives the handle
that `fh_comp_raw` gives for the path**; a path too deep for a handle is refused by both. The path
fits the buffer that `fh_comp_raw` copies it to. -/
theorem extend_composes (w : World L R) (s : Server L R) (cs ds : List CStr)
    (hcomp : ∀ c ∈ cs ++ ds, Component c) (hds : ds ≠ []) (hcs : cs.length ≤ fhMaxLen)
    (_hbytes : (pathOf (cs ++ ds)).length < maxPathLen) (hex : Existing w s.kernel (cs ++ ds))
    (hu : Unnumbered w s.exportList s.kernel) :
    ∃ top r fh, fhCompRaw w (dirPath cs) none false s = (.ok top, s) ∧
      extendAlong w top (below cs ds) s = (.ok r, s) ∧
      fhCompRaw w (pathOf (cs ++ ds)) none false s = (.ok fh, s) ∧
      if (cs ++ ds).length ≤ fhMaxLen then
        ∃ new, r = some new ∧ new.dev = fh.dev ∧ new.ino = fh.ino ∧ new.gen = fh.gen ∧
          new.len = fh.len ∧ new.inos = fh.inos ∧ fh.len = (cs ++ ds).length
      else r = none ∧ fh = invalidFh := by
  have htop := fhCompPath_dirPath (fun c hc => hcomp c (List.mem_append_left ds hc))
    (hex.of_prefix (List.prefix_append cs ds))
  rw [if_pos hcs] at htop
  obtain ⟨r, hr, hway⟩ := extendAlong_chained hu hex htop hcs
  have hdirect := fhCompPath_dirPath hcomp hex
  have hne : cs ++ ds ≠ [] := List.append_ne_nil_of_right_ne_nil cs hds
  rw [show dirPath (cs ++ ds) = pathOf (cs ++ ds) from if_neg hne] at hdirect
  refine ⟨_, r, _, rfl, hr, rfl, ?_⟩
  by_cases hdepth : (cs ++ ds).length ≤ fhMaxLen
  · rw [if_pos hdepth] at hway hdirect ⊢
    obtain ⟨new, rfl, hnew⟩ := hway
    exact ⟨new, rfl, hnew.dev.trans hdirect.dev.symm, hnew.ino.trans hdirect.ino.symm,
      hnew.gen.trans hdirect.gen.symm, hnew.len.trans hdirect.len.symm,
      hnew.inos.trans hdirect.inos.symm, hdirect.len⟩
  · rw [if_neg hdepth] at hway hdirect ⊢
    exact ⟨hway, hdirect⟩

end

/-! ## A file below an export -/

theorem find_unnumbered {files : List (CStr × Stat)} {list : List EItem}
    (h : ∀ i ∈ list, ∀ x ∈ files, i.fsid ≠ x.2.dev) :
    Unnumbered Sandbox.publicWorld list { files } := by
  intro i hi p b hb
  exact h i hi (p, b) (mem_of_find hb)

def composeServer : Server Sandbox.Kernel Sandbox.Grid :=
  Sandbox.server [Sandbox.item (lit "/e") true]
    { files := [(lit "/", { dev := 1, ino := 2, mode := 0o040755 }),
        (lit "/e", { dev := 1, ino := 5, mode := 0o040755 }),
        (lit "/e/d", { dev := 1, ino := 6, mode := 0o040755 }),
        (lit "/e/d/n", { dev := 1, ino := 7, mode := 0o100644 })] } {}

/-- The handle of `/e/d/n` by two steps from that of `/e`. -/
theorem extend_composes_two : ∃ top r fh,
    fhCompRaw Sandbox.publicWorld (lit "/e") none false composeServer = (.ok top, composeServer) ∧
    extendAlong Sandbox.publicWorld top [lit "/e/d", lit "/e/d/n"] composeServer =
      (.ok (some r), composeServer) ∧
    fhCompRaw Sandbox.publicWorld (lit "/e/d/n") none false composeServer =
      (.ok fh, composeServer) ∧ r.inos = fh.inos ∧ fh.len = 3 := by
  have hex : Existing Sandbox.publicWorld composeServer.kernel [lit "e", lit "d", lit "n"] := by
    intro as has
    have hall : ∀ as ∈ [lit "e", lit "d", lit "n"].inits,
        (Sandbox.find composeServer.kernel (dirPath as)).toOption.isSome := by decide +kernel
    have hsome := hall as ((List.mem_inits as _).2 has)
    cases hst : Sandbox.find composeServer.kernel (dirPath as) with
    | error e =>
      rw [hst] at hsome
      cases hsome
    | ok b => exact ⟨b, hst⟩
  obtain ⟨top, r, fh, htop, hr, hfh, hsame⟩ := extend_composes Sandbox.publicWorld composeServer
    [lit "e"] [lit "d", lit "n"] (by decide) (by simp) (by decide) (by decide) hex
    (find_unnumbered (by decide +kernel))
  rw [if_pos (by decide)] at hsame
  obtain ⟨new, rfl, _, _, _, _, hinos, hlen⟩ := hsame
  exact ⟨top, new, fh, htop, hr, hfh, hinos, hlen⟩

end NfsRods
