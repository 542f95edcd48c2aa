import NfsRods.Config.Exports

/-!
# Which paths an export list opens

`exports_options` compares an export's path with the path asked for as strings, so an export also
opens directories whose names merely start like its own.

* `exportsOptions_within_iff`: a client is let in only below an export that lists it exactly when no
  such export's path ends inside a component of the path, unless another export contains it.
-/

namespace NfsRods

open CStr

/-- An absolute path without `.` and `..` components. -/
def Clean (p : CStr) : Prop :=
  root <+: p ∧ ∀ d ∈ [lit ".", lit ".."], ¬ root ++ d ++ root <:+: p ∧ ¬ root ++ d <:+ p

instance (p : CStr) : Decidable (Clean p) := by unfold Clean; infer_instance

/-- Some export that lists the client contains `p`. -/
def Covered (list : List EItem) (remote : UInt32) (p : CStr) : Prop :=
  ∃ item ∈ list, (findHost remote item).isSome ∧ Within item.path p

instance (list : List EItem) (remote : UInt32) (p : CStr) : Decidable (Covered list remote p) := by
  unfold Covered; infer_instance

theorem Clean.no_dotdot {p : CStr} (h : Clean p) : strstr p (lit "/../") = false :=
  strstr_eq_false.2 (h.2 (lit "..") (by simp)).1

/-- **The boundary check `exports_options` lacks.** Access to `p` implies that an export listing the
client contains `p` if and only if every export listing the client whose path is a string prefix of
`p` ending inside a component of `p` is accompanied by one that contains `p`. -/
theorem exportsOptions_within_iff (list : List EItem) (remote : UInt32) (v : ExportVars) {p : CStr}
    (hp : Clean p) :
    ((exportsOptions list remote (some p) v).vars.opts.isSome → Covered list remote p) ↔
      ∀ item ∈ list, item.path ≠ [] → item.path <+: p → ¬ Within item.path p →
        (findHost remote item).isSome → Covered list remote p := by
  rw [exportsOptions_isSome]
  constructor
  · intro h item hi hne hpre _ hf
    exact h ⟨hp.no_dotdot, item, hi, hne, hpre, hf⟩
  · rintro h ⟨_, item, hi, hne, hpre, hf⟩
    by_cases hw : Within item.path p
    · exact ⟨item, hi, hf, hw⟩
    · exact h item hi hne hpre hw hf

/-- An export of `/home/foo` to everyone. -/
def fooExport : EItem := { path := lit "/home/foo", orig := lit "/home/foo", hosts := [{}] }

/-- `/home/foo/bar` is opened through the boundary, as it should be. -/
theorem fooExport_bar : Clean (lit "/home/foo/bar") ∧
    ((exportsOptions [fooExport] 7 (some (lit "/home/foo/bar")) {}).vars.opts.isSome →
      Covered [fooExport] 7 (lit "/home/foo/bar")) :=
  ⟨by decide, (exportsOptions_within_iff [fooExport] 7 {} (by decide)).2 (by decide)⟩

/-- An export of `/home/foo` opens `/home/foobar`. -/
theorem fooExport_foobar : Clean (lit "/home/foobar") ∧
    (exportsOptions [fooExport] 7 (some (lit "/home/foobar")) {}).vars.opts.isSome ∧
    ¬ Covered [fooExport] 7 (lit "/home/foobar") := by decide

end NfsRods
