import NfsRods.Signal

/-!
# Use after a reload

`exports_access` guards the traversals of the export list, not the pointers they leave behind:
`export_path` and a path of `export_point_from_fsid` are read until the end of the request. A reload
that falls between frees what they point to (`reload_reads_freed`).

* `Procedure.usesFirst`: no procedure reads such a pointer before it has set it itself, so a reload
  between two requests does no harm.
* `served_live`: nothing freed is read in a run whose reloads all find the request in progress
  without a read ahead of it of a pointer it has set before.
-/

namespace NfsRods

open FirstUse

/-! ## Pending reads -/

def ListStep.readsPath : ListStep → Bool
  | .readPath => true
  | _ => false

def ListStep.setsPath : ListStep → Bool
  | .clearPath | .setPath => true
  | _ => false

def ListStep.readsPoint (v : PathVar) (a : ListStep) : Bool := a == .readPoint v

def ListStep.setsPoint (v : PathVar) (a : ListStep) : Bool := a == .setPoint v

/-- The steps ahead read `export_path` before `exports_options` is called again. -/
def pendingPath (w : List ListStep) : Bool := usesFirst ListStep.readsPath ListStep.setsPath w

/-- The steps ahead read the path the variable holds. -/
def pendingPoint (v : PathVar) (w : List ListStep) : Bool :=
  usesFirst (ListStep.readsPoint v) (ListStep.setsPoint v) w

/-- Nothing the pointers point into the list with is still to be read. -/
def Settled (m : ExportsMem) (w : List ListStep) : Prop :=
  (pendingPath w = true → m.exportPath = none) ∧
    ∀ v, pendingPoint v w = true → m.point v = none

/-- **A procedure sets what it reads.** -/
theorem Procedure.usesFirst (p : Procedure) {w : List ListStep} (hw : w ∈ p.steps.matches') :
    pendingPath w = false ∧ ∀ v, pendingPoint v w = false := by
  have hpath : mayUse ListStep.readsPath ListStep.setsPath p.steps = false := by
    cases p <;> decide +kernel
  have hpoint : ∀ v, mayUse (ListStep.readsPoint v) (ListStep.setsPoint v) p.steps = false := by
    intro v
    cases v <;> cases p <;> decide +kernel
  constructor
  · by_contra h
    have := mayUse_of_mem _ _ hw (Bool.of_not_eq_false h)
    rw [hpath] at this
    cases this
  · intro v
    by_contra h
    have := mayUse_of_mem _ _ hw (Bool.of_not_eq_false h)
    rw [hpoint v] at this
    cases this

/-! ## The invariant -/

/-- A pointer that will be read is `NULL` or points into the list in force. -/
def Holds (use give : ListStep → Bool) (ptr : ExportsMem → Option Nat) (m : ExportsMem)
    (w : List ListStep) : Prop :=
  FirstUse.usesFirst use give w = true → ptr m = none ∨ ptr m = some m.freed

section
variable {use give : ListStep → Bool} {ptr : ExportsMem → Option Nat} {m : ExportsMem}
  {w : List ListStep}

theorem ListStep.run_freed (a : ListStep) (m : ExportsMem) : (a.run m).freed = m.freed := by
  cases a <;> rfl

/-- A step keeps the pointer or sets it anew. -/
theorem Holds.step {a : ListStep}
    (hgive : give a = true → ptr (a.run m) = none ∨ ptr (a.run m) = some m.freed)
    (hkeep : give a = false → ptr (a.run m) = ptr m)
    (h : Holds use give ptr m (a :: w)) : Holds use give ptr (a.run m) w := by
  intro hw
  rw [a.run_freed]
  cases hg : give a with
  | true => exact hgive hg
  | false =>
    rw [hkeep hg]
    refine h ?_
    rw [FirstUse.usesFirst, hg, hw]
    simp

/-- A reload spares a pointer that will not be read, and one that points nowhere. -/
theorem Holds.hup (hptr : ptr m.hup = ptr m)
    (hP : m.access = false → FirstUse.usesFirst use give w = true → ptr m = none)
    (h : Holds use give ptr m w) : Holds use give ptr m.hup w := by
  intro hw
  cases ha : m.access with
  | true =>
    have hm : m.hup = m := by rw [ExportsMem.hup, ha]; rfl
    rw [hm]
    exact h hw
  | false => exact .inl (hptr.trans (hP ha hw))

end

/-- What the daemon keeps between steps when its reloads find the request settled. -/
structure Kept (m : ExportsMem) (w : List ListStep) : Prop where
  path : Holds ListStep.readsPath ListStep.setsPath ExportsMem.exportPath m w
  point : ∀ v, Holds (ListStep.readsPoint v) (ListStep.setsPoint v) (·.point v) m w

theorem Kept.step {m : ExportsMem} {a : ListStep} {w : List ListStep} (h : Kept m (a :: w)) :
    Kept (a.run m) w where
  path := by
    refine h.path.step (fun hg => ?_) fun hg => ?_
    · cases a with
      | clearPath => exact .inl rfl
      | setPath => exact .inr rfl
      | _ => cases hg
    · cases a with
      | clearPath | setPath => cases hg
      | _ => rfl
  point v := by
    refine (h.point v).step (fun hg => ?_) fun hg => ?_
    · cases eq_of_beq hg
      exact .inr (if_pos rfl)
    · cases a with
      | setPoint u => exact if_neg fun h => (beq_eq_false_iff_ne.1 hg) (by rw [h])
      | _ => rfl

theorem Kept.hup {m : ExportsMem} {w : List ListStep} (h : Kept m w)
    (hP : m.access = false → Settled m w) : Kept m.hup w where
  path := h.path.hup (by unfold ExportsMem.hup; split <;> rfl) fun ha => (hP ha).1
  point v := (h.point v).hup (by unfold ExportsMem.hup; split <;> rfl) fun ha => (hP ha).2 v

theorem served_kept {m : ExportsMem} {w : List ListStep} (h : Served Settled m w) : Kept m w := by
  induction h with
  | start => exact ⟨fun h => (by cases h), fun _ h => (by cases h)⟩
  | @request m p w _ hw _ =>
    obtain ⟨hpath, hpoint⟩ := p.usesFirst hw
    exact ⟨fun h => absurd (hpath.symm.trans h) Bool.false_ne_true,
      fun v h => absurd ((hpoint v).symm.trans h) Bool.false_ne_true⟩
  | step _ ih => exact ih.step
  | hup _ hP ih => exact ih.hup hP

theorem Kept.live {m : ExportsMem} {w : List ListStep} (h : Kept m w) : ¬ ReadsFreed m w := by
  have not_freed : ∀ {p : Option Nat}, p = none ∨ p = some m.freed →
      ¬ ∃ n, p = some n ∧ n < m.freed := by
    rintro p (rfl | rfl) ⟨n, hn, hlt⟩
    · cases hn
    · cases hn
      exact Nat.lt_irrefl _ hlt
  cases w with
  | nil => exact id
  | cons a w =>
    cases a with
    | readPath => exact not_freed (h.path rfl)
    | readPoint v => exact not_freed (h.point v (by simp [FirstUse.usesFirst, ListStep.readsPoint]))
    | _ => exact id

/-- **No string of a freed list is read** in a run whose reloads take effect only where the request
in progress is settled, whatever requests it serves and wherever else signals arrive. -/
theorem served_live {m : ExportsMem} {w : List ListStep} (h : Served Settled m w) :
    ¬ ReadsFreed m w :=
  (served_kept h).live

/-! ## A reload in between -/

/-- GETATTR of an ordinary handle: the device is no export point's, the export is found, the path is
translated and looked up for the log, and there are no more reads. -/
def getattrSteps : List ListStep :=
  [.enter, .leave, .clearPath, .enter, .setPath, .leave, .readPath, .readPath, .readPath, .readPath]

theorem getattrSteps_mem : getattrSteps ∈ Procedure.getattr.steps.matches' := by
  decide +kernel

/-- FSSTAT of the handle of an export point: the path found is compared by `exports_options`. -/
def fsstatSteps : List ListStep :=
  [.enter, .setPoint .prep, .leave, .clearPath, .readPoint .prep, .enter, .setPath, .leave]

theorem fsstatSteps_mem : fsstatSteps ∈ Procedure.fsstat.steps.matches' := by
  decide +kernel

/-- Signals before the request and during a traversal are harmless. -/
theorem getattr_reads_live :
    ∃ m w, Served Settled m (.readPath :: w) ∧ m.exportPath = some 1 ∧
      ¬ ReadsFreed m (.readPath :: w) := by
  have h0 : Served Settled ({} : ExportsMem).hup [] :=
    .hup .start fun _ => ⟨fun h => (by cases h), fun _ h => (by cases h)⟩
  have h1 : Served Settled ({} : ExportsMem).hup getattrSteps := .request h0 getattrSteps_mem
  -- the second signal finds `exports_access` set
  have h2 := (Served.hup h1.step.step.step.step.step fun h => by cases h).step
  exact ⟨_, _, h2, rfl, served_live h2⟩

/-- A signal right after `PREP` frees the list whose path `isPublic` then searches; one between
`fh_decomp` and `exports_options` frees the list whose path the latter then searches. -/
theorem reload_reads_freed :
    (∃ m w, Served (fun _ _ => True) m (.readPath :: w) ∧ ReadsFreed m (.readPath :: w)) ∧
    (∃ m w, Served (fun _ _ => True) m (.readPoint .prep :: w) ∧
      ReadsFreed m (.readPoint .prep :: w)) := by
  have h1 : Served (fun _ _ => True) {} getattrSteps := .request .start getattrSteps_mem
  have h2 : Served (fun _ _ => True) {} fsstatSteps := .request .start fsstatSteps_mem
  exact ⟨⟨_, _, .hup h1.step.step.step.step.step.step fun _ => trivial, 0, rfl, by decide⟩,
    ⟨_, _, .hup h2.step.step.step.step fun _ => trivial, 0, rfl, by decide⟩⟩

end NfsRods
