import NfsRods.Proof.Layout
import NfsRods.Proof.MountHandle

/-!
# How long handles get

`FH_MAXLEN` is computed from `FH_MINLEN`, the length that a handle without hashes would have if
`uint32` had 4 bytes. It has 8, and 33 bytes precede the hashes, so a handle with more than 31 of
them is longer than the protocol allows, and `nfh_valid` looks for the length byte of a handle
that may end before it.

* `fhComp_len`, `fhExtend_len`: how many hashes a handle gets.
* `handle_sizes_iff`: which handles fit the protocol, and of which nothing but the client's bytes is
  read.
-/

namespace NfsRods

open CStr

/-- The handle has a length that the protocol allows, and `nfh_valid` accepts it when it comes
back. -/
structure FitsProtocol (fh : Unfs3Fh) : Prop where
  min : fhMinLen ≤ fhLength fh
  max : fhLength fh ≤ nfs3FhSize
  valid : nfhValidAt (fhBytes fh) = some true

theorem fitsProtocol_iff {fh : Unfs3Fh} : FitsProtocol fh ↔ fh.len ≤ 31 := by
  have hlen : fhLength fh = fh.len + 33 := rfl
  constructor
  · intro h
    have := h.max
    rw [hlen, nfs3FhSize] at this
    omega
  · intro h
    refine ⟨?_, ?_, nfhValidAt_fhBytes (by omega)⟩
    · rw [hlen, fhMinLen]
      omega
    · rw [hlen, nfs3FhSize]
      omega

/-! ## The handles that are issued -/

section
variable {L R : Type} (w : World L R)

/-- `fh_extend_post`: the handle as it is sent, if one follows. -/
def fhExtendPost (fh : NfsFh3) (dev ino gen : ULong) : M L R (Option NfsFh3) := do
  match ← fhExtend w fh dev ino gen with
  | some new => pure (some { dataLen := fhLength new, obj := new })
  | none => pure none

/-- How many components the handle has that `fh_extend` appends to. -/
def extendDepth (list : List EItem) (nfh : NfsFh3) : Nat :=
  if nfh.obj.len = 0 then
    match exportPointFromFsid list nfh.obj.dev with
    | some path => if path = root then 0 else (cuts path).length
    | none => 0
  else nfh.obj.len

/-- `nfh_valid` and what comes after it read nothing but the client's bytes: the check ends, the
fields and hashes of an accepted handle are among the bytes, and no procedure's run depends on what
lies behind them, be it the handle of its object or the target of a RENAME. -/
structure ReadsWithin (rq : SvcReq) (data : List UInt8) : Prop where
  check : (nfhValidAt data).isSome
  fields : nfhValidAt data = some true → (fhAt data).isSome
  object : ∀ target : List UInt8, target.length ≤ nfs3FhSize → ∀ a a' b b' q,
    serveNfs w rq (NfsRequest.withHandles (overlay data a) (overlay target b) q) =
      serveNfs w rq (q.withHandles (overlay data a') (overlay target b'))
  target : ∀ dir : List UInt8, dir.length ≤ nfs3FhSize → ∀ a a' b b' q,
    serveNfs w rq (NfsRequest.withHandles (overlay dir b) (overlay data a) q) =
      serveNfs w rq (q.withHandles (overlay dir b') (overlay data a'))

end

section
variable {L R : Type} {w : World L R} {s s1 : Server L R} {rq : SvcReq}

theorem hashes_length {k : L} {ps : List CStr} {inos : List UInt8}
    (h : hashes w k ps = some inos) : inos.length = ps.length := by
  induction ps generalizing inos with
  | nil =>
    cases h
    rfl
  | cons p ps ih =>
    rw [hashes] at h
    split at h
    · cases h
    · obtain ⟨is, his, rfl⟩ := Option.map_eq_some_iff.1 h
      rw [List.length_cons, List.length_cons, ih his]

/-- The root directory's handle has no hash. -/
theorem fhCompPath_len {k : L} {path : CStr} {needDir : Bool}
    (hv : fhValid (fhCompPath w k path needDir) = true) :
    (fhCompPath w k path needDir).len = if path = root then 0 else (cuts path).length := by
  unfold fhCompPath at hv ⊢
  cases hb : w.lstat k path with
  | error e =>
    rw [hb] at hv
    cases hv
  | ok b =>
    rw [hb] at hv
    dsimp only at hv ⊢
    split at hv
    · cases hv
    rename_i hdir
    rw [if_neg hdir]
    split at hv
    · rename_i hroot
      rw [if_pos hroot, if_pos hroot]
    rename_i hroot
    rw [if_neg hroot, if_neg hroot]
    cases hh : hashes w k ((cuts path).take fhMaxLen) with
    | none =>
      rw [hh] at hv
      cases hv
    | some inos =>
      rw [hh] at hv
      dsimp only at hv ⊢
      split at hv
      · cases hv
      rename_i hdeep
      have hlen := hashes_length hh
      rw [List.length_take, min_eq_right (not_lt.1 hdeep)] at hlen
      rw [if_neg hdeep, ← hlen]

theorem fhComp_len {path : CStr} {needDir : Bool} {h : Unfs3Fh}
    (hc : fhComp w path rq needDir s = (.ok h, s1)) (hv : fhValid h = true) :
    (Removable rq s path ∧ h.len = 0) ∨
      ¬ Removable rq s path ∧ h.len = if path = root then 0 else (cuts path).length := by
  obtain ⟨res, s2, h2, rfl, -⟩ := fhComp_raw hc
  have hvr : fhValid res = true := hv
  rcases (fhCompRaw_cases h2 hvr).2 with ⟨hrem, rfl⟩ | ⟨hrem, rfl⟩
  · exact .inl ⟨hrem, rfl⟩
  · exact .inr ⟨hrem, fhCompPath_len hvr⟩

theorem dirHandle_len {nfh : NfsFh3} {base : Unfs3Fh} (h : dirHandle w s nfh = some base) :
    base.len = extendDepth s.exportList nfh := by
  unfold dirHandle at h
  unfold extendDepth
  by_cases hlen : nfh.obj.len = 0
  · rw [if_pos hlen] at h ⊢
    cases hpath : exportPointFromFsid s.exportList nfh.obj.dev with
    | some path =>
      rw [hpath] at h
      dsimp only at h ⊢
      split at h
      · rename_i hv
        cases h
        exact fhCompPath_len hv
      · cases h
    | none =>
      rw [hpath] at h
      cases h
      exact hlen
  · rw [if_neg hlen] at h ⊢
    cases h
    rfl

theorem fhExtend_len {nfh : NfsFh3} {dev ino gen : ULong} {h : Unfs3Fh}
    (hx : fhExtend w nfh dev ino gen s = (.ok (some h), s1)) :
    h.len = extendDepth s.exportList nfh + 1 := by
  rw [fhExtend_run, Prod.mk.injEq, Except.ok.injEq] at hx
  obtain ⟨base, hbase, hnew⟩ := Option.bind_eq_some_iff.1 hx.1
  split at hnew
  · cases hnew
  · cases hnew
    rw [← dirHandle_len hbase]

theorem fhExtendPost_some {nfh post : NfsFh3} {dev ino gen : ULong}
    (hx : fhExtendPost w nfh dev ino gen s = (.ok (some post), s1)) :
    ∃ h, fhExtend w nfh dev ino gen s = (.ok (some h), s1) ∧ post = ⟨fhLength h, h⟩ := by
  obtain ⟨new, s2, h2, h⟩ := Prog.bind_eq_ok hx
  cases new with
  | none => simp at h
  | some new =>
    simp only [Prog.pure_run, Prod.mk.injEq, Except.ok.injEq, Option.some.injEq] at h
    obtain ⟨rfl, rfl⟩ := h
    exact ⟨new, h2, rfl⟩

theorem readsWithin_iff (w : World L R) (rq : SvcReq) {data : List UInt8}
    (hsize : data.length ≤ nfs3FhSize) :
    ReadsWithin w rq data ↔ data.length < fhMinLen ∨ inosAt ≤ data.length := by
  rw [← nfhValidAt_isSome]
  refine ⟨fun h => h.check, fun h => ⟨h, fun hv => ?_, fun t ht a a' b b' q => ?_,
    fun t ht a a' b b' q => ?_⟩⟩
  · rw [fhAt_overlay hv hsize []]
    rfl
  · exact serveNfs_within hsize ht a a' b b' rq q
  · exact serveNfs_within ht hsize b b' a a' rq q

/-- **A handle that is issued fits the protocol exactly when the object is at most 31 components
deep**, or is a removable export point; `fh_extend` may start from at most 30. **Of a client's
handle nothing but its bytes is read exactly when they end before byte 21, where nothing is read, or
not before the length byte.** -/
theorem handle_sizes_iff (w : World L R) (rq : SvcReq) (s : Server L R) :
    (∀ path needDir h s1, fhComp w path rq needDir s = (.ok h, s1) → fhValid h = true →
      (FitsProtocol h ↔ Removable rq s path ∨ (cuts path).length ≤ 31)) ∧
    (∀ nfh dev ino gen h s1, fhExtend w nfh dev ino gen s = (.ok (some h), s1) →
      (FitsProtocol h ↔ extendDepth s.exportList nfh ≤ 30)) ∧
    (∀ nfh dev ino gen post s1, fhExtendPost w nfh dev ino gen s = (.ok (some post), s1) →
      (post.dataLen = fhLength post.obj ∧ FitsProtocol post.obj ↔
        extendDepth s.exportList nfh ≤ 30)) ∧
    (∀ data : List UInt8, data.length ≤ nfs3FhSize →
      (ReadsWithin w rq data ↔ data.length < fhMinLen ∨ inosAt ≤ data.length)) := by
  have hextend : ∀ nfh dev ino gen h s1, fhExtend w nfh dev ino gen s = (.ok (some h), s1) →
      (FitsProtocol h ↔ extendDepth s.exportList nfh ≤ 30) := by
    intro nfh dev ino gen h s1 hx
    rw [fitsProtocol_iff, fhExtend_len hx]
    omega
  refine ⟨fun path needDir h s1 hc hv => ?_, hextend, fun nfh dev ino gen post s1 hx => ?_,
    fun data hsize => readsWithin_iff w rq hsize⟩
  · rw [fitsProtocol_iff]
    rcases fhComp_len hc hv with ⟨hrem, hlen⟩ | ⟨hrem, hlen⟩
    · rw [hlen]
      exact iff_of_true (by omega) (.inl hrem)
    · rw [hlen, or_iff_right hrem]
      split
      · rename_i hroot
        subst hroot
        decide
      · rfl
  · obtain ⟨h, hnew, rfl⟩ := fhExtendPost_some hx
    rw [and_iff_right rfl]
    exact hextend nfh dev ino gen h s1 hnew

end

/-! ## A path of 32 components -/

def nestedPath (n : Nat) : CStr := pathOf (List.replicate n (lit "a"))

/-- Directories nested in each other, `/a` exported. -/
def deepServer : Server Sandbox.Kernel Sandbox.Grid :=
  Sandbox.server [Sandbox.item (lit "/a") false]
    { files := (List.range 33).map fun n =>
        (nestedPath n, { dev := 1, ino := .ofNat (n + 2), mode := 0o040755 }) } {}

/-- The handle `fh_comp` makes, and what is left. -/
def deepComp (n : Nat) : Except Stop Unfs3Fh × Server Sandbox.Kernel Sandbox.Grid :=
  fhComp Sandbox.publicWorld (nestedPath n) mountReq false deepServer

/-- The handle of the second directory fits. -/
theorem handle_sizes_two : ∃ h s1, deepComp 2 = (.ok h, s1) ∧ FitsProtocol h := by
  have hres : (deepComp 2).1.toOption.map fhValid = some true := by decide +kernel
  cases hrun : (deepComp 2) with
  | mk r s1 =>
    rw [hrun] at hres
    cases r with
    | error e => cases hres
    | ok h =>
      refine ⟨h, s1, rfl, ?_⟩
      exact ((handle_sizes_iff Sandbox.publicWorld mountReq deepServer).1 (nestedPath 2) false h s1
        hrun (Option.some.inj hres)).2 (.inr (by decide))

/-- The handle of the last directory has 65 bytes; and the length byte of a client's handle of 21
bytes is read behind it. -/
theorem handle_sizes_exceeded :
    (∃ h s1, deepComp 32 = (.ok h, s1) ∧ fhValid h = true ∧
      (cuts (nestedPath 32)).length ≤ fhMaxLen ∧ fhLength h = 65 ∧ ¬ FitsProtocol h) ∧
    ∃ data : List UInt8, data.length = 21 ∧ ¬ ReadsWithin Sandbox.publicWorld mountReq data := by
  constructor
  · have hres : (deepComp 32).1.toOption.map (fun h => (fhValid h, fhLength h)) =
        some (true, 65) := by decide +kernel
    cases hrun : (deepComp 32) with
    | mk r s1 =>
      rw [hrun] at hres
      cases r with
      | error e => cases hres
      | ok h =>
        have hboth := Prod.mk.inj (Option.some.inj hres)
        refine ⟨h, s1, rfl, hboth.1, by decide +kernel, hboth.2, fun hfits => ?_⟩
        have := hfits.max
        rw [hboth.2, nfs3FhSize] at this
        omega
  · refine ⟨List.replicate 21 0, rfl, fun h => ?_⟩
    have hnone : nfhValidAt (List.replicate 21 0) = none := by decide
    have hsome := h.check
    rw [hnone] at hsome
    cases hsome

end NfsRods
