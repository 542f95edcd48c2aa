import Mathlib.Data.List.Monad
import NfsRods.Lib.Ledger

/-!
# Things used while they are held

A log of events that acquire, use and release things, read from its start with the things held so
far. An event may use a thing that is missing (`use x = some none`); that is never in order.

* `run live log`: the things held after `log`, or nothing where an event uses or releases a thing
  that is not held.
* `run_append`: a log is read in parts.
* `run_iff`: the logs read from nothing are those that release (`Ledger.Proper`) and use (`Sound`)
  only what is held, and what is held at their end is what has not been released (`mem_run`).
* `run_uses`, `run_misuses`: a log that only uses one thing is read when the thing is held.
-/

namespace Lease

open Ledger

section
variable {ε α : Type} [DecidableEq α] (acq rel : ε → Option α) (use : ε → Option (Option α))

/-- An event uses or releases only things of `live`. -/
def InOrder (live : List α) (x : ε) : Prop :=
  (∀ u ∈ use x, ∃ a, u = some a ∧ a ∈ live) ∧ ∀ a ∈ rel x, a ∈ live

instance (live : List α) (x : ε) : Decidable (InOrder rel use live x) :=
  decidable_of_iff ((∀ u ∈ use x, ∃ a ∈ live, u = some a) ∧ ∀ a ∈ rel x, a ∈ live) <|
    and_congr_left fun _ => forall₂_congr fun _ _ => exists_congr fun _ => and_comm

/-- The things held after an event. -/
def after (live : List α) (x : ε) : List α :=
  (acq x).toList ++ live.filter fun a => rel x ≠ some a

/-- The things held after an event that is in order. -/
def step (live : List α) (x : ε) : Option (List α) :=
  if InOrder rel use live x then some (after acq rel live x) else none

/-- The things held after a log that is in order. -/
def run (live : List α) (log : List ε) : Option (List α) := log.foldlM (step acq rel use) live

/-- Nothing was used that was missing or not held. -/
def Sound (log : List ε) : Prop :=
  ∀ pre x post u, log = pre ++ x :: post → use x = some u →
    ∃ a, u = some a ∧ held acq rel pre a = true

end

section
variable {ε α : Type} [DecidableEq α] {acq rel : ε → Option α} {use : ε → Option (Option α)}
  {live : List α} {log : List ε} {x : ε} {a : α}

@[simp] theorem run_nil (live : List α) : run acq rel use live [] = some live := rfl

@[simp] theorem run_cons (live : List α) (x : ε) (log : List ε) :
    run acq rel use live (x :: log) =
      (step acq rel use live x).bind (run acq rel use · log) := rfl

theorem run_append (live : List α) (log log' : List ε) :
    run acq rel use live (log ++ log') =
      (run acq rel use live log).bind (run acq rel use · log') := List.foldlM_append

/-- The last event of a log is read when the rest has been read. -/
theorem run_concat {live' : List α} : run acq rel use live (log ++ [x]) = some live' ↔
    ∃ before, run acq rel use live log = some before ∧
      InOrder rel use before x ∧ after acq rel before x = live' := by
  simp [run_append, Option.bind_eq_some_iff, step]

theorem run_singleton (h : InOrder rel use live x) :
    run acq rel use live [x] = some (after acq rel live x) := by
  simp [step, h]

theorem step_eq_some {live' : List α} : step acq rel use live x = some live' ↔
    InOrder rel use live x ∧ after acq rel live x = live' := by
  simp [step]

/-! ## What is held -/

theorem mem_after : a ∈ after acq rel live x ↔ acq x = some a ∨ a ∈ live ∧ rel x ≠ some a := by
  simp [after]

/-- What a log from nothing leaves held is what the ledger says is held. -/
theorem mem_run (h : run acq rel use [] log = some live) :
    ∀ a, a ∈ live ↔ held acq rel log a = true := by
  induction log using List.reverseRecOn generalizing live with
  | nil =>
    obtain rfl : [] = live := Option.some.inj h
    simp [held]
  | append_singleton log x ih =>
    intro a
    obtain ⟨before, hlog, _, rfl⟩ := run_concat.1 h
    rw [mem_after, ih hlog, held_concat, heldStep]
    by_cases ha : acq x = some a
    · simp [ha]
    · by_cases hr : rel x = some a
      · simp [ha, hr]
      · simp [ha, hr]

/-- The logs that are read from nothing. -/
theorem run_iff : (∃ live, run acq rel use [] log = some live) ↔
    Proper acq rel log ∧ Sound acq rel use log := by
  induction log using List.reverseRecOn with
  | nil => exact iff_of_true ⟨[], rfl⟩ ⟨proper_nil, fun pre x post u h => by simp at h⟩
  | append_singleton log x ih =>
    constructor
    · rintro ⟨live, h⟩
      obtain ⟨before, hlog, ⟨huse, hrel⟩, _⟩ := run_concat.1 h
      obtain ⟨hproper, hsound⟩ := ih.1 ⟨before, hlog⟩
      refine ⟨hproper.concat fun a ha => (mem_run hlog a).1 (hrel a ha), ?_⟩
      intro pre y post u hsplit hu
      rcases concat_eq_split hsplit with ⟨rfl, rfl⟩ | ⟨post', hpost⟩
      · obtain ⟨a, rfl, ha⟩ := huse u hu
        exact ⟨a, rfl, (mem_run hlog a).1 ha⟩
      · exact hsound pre y post' u hpost hu
    · rintro ⟨hproper, hsound⟩
      obtain ⟨before, hlog⟩ := ih.2 ⟨hproper.left, fun pre y post u hsplit hu =>
        hsound pre y (post ++ [x]) u (by rw [hsplit]; simp) hu⟩
      have hx : InOrder rel use before x := by
        refine ⟨fun u hu => ?_, fun a ha => (mem_run hlog a).2 (hproper log x [] a rfl ha)⟩
        obtain ⟨a, rfl, ha⟩ := hsound log x [] u rfl hu
        exact ⟨a, rfl, (mem_run hlog a).2 ha⟩
      exact ⟨after acq rel before x, run_concat.2 ⟨before, hlog, hx, rfl⟩⟩

/-! ## A part that only uses -/

/-- Events that use the held thing `a` and do nothing else. -/
theorem run_uses (hlog : ∀ x ∈ log, use x = some (some a) ∧ acq x = none ∧ rel x = none)
    (ha : a ∈ live) : run acq rel use live log = some live := by
  induction log with
  | nil => rfl
  | cons x log ih =>
    obtain ⟨hu, hacq, hrel⟩ := hlog x List.mem_cons_self
    have hx : step acq rel use live x = some live := by
      refine step_eq_some.2 ⟨⟨?_, by simp [hrel]⟩, by simp [after, hacq, hrel]⟩
      simp [hu, ha]
    rw [run_cons, hx]
    exact ih fun y hy => hlog y (List.mem_cons_of_mem _ hy)

/-- A use of what is missing or not held is not read. -/
theorem run_misuses {u : Option α} (hx : use x = some u) (hu : ∀ a, u = some a → a ∉ live) :
    run acq rel use live (x :: log) = none := by
  have hn : ¬ InOrder rel use live x := fun h => by
    obtain ⟨a, hua, ha⟩ := h.1 u hx
    exact hu a hua ha
  rw [run_cons, step, if_neg hn]
  rfl

end

end Lease
