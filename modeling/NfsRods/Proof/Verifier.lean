import NfsRods.Proof.FdInv

/-!
# The write verifier

`regenerate_write_verifier` stores the process id, a random number and the time through a pointer to
`char`, so that two of the eight bytes change: the first, by the low byte of `rand()`, and the
fifth, to the low byte of the time.

* `VerfRuns`: runs of a process, with the calls of `regenerate_write_verifier` in them.
* `verifiers_differ_iff`: when two calls leave different verifiers; `verifiers_collide` has two that
  do not.
-/

namespace NfsRods

section
variable {L R : Type} (w : World L R)

/-- The verifier that a call in state `s` leaves. -/
def verifierAt (s : Server L R) : List UInt8 := (regenerateWriteVerifier w s).2.wverf

/-- `VerfRuns calls s`: the process has called `regenerate_write_verifier` in the states `calls` and
is now in `s`. Nothing else changes `wverf`. -/
inductive VerfRuns : List (Server L R) → Server L R → Prop
  | start {s : Server L R} (h : s.wverf.length = 8) : VerfRuns [] s
  | call {calls : List (Server L R)} {s : Server L R} (h : VerfRuns calls s) :
    VerfRuns (calls ++ [s]) (regenerateWriteVerifier w s).2
  | other {calls : List (Server L R)} {s s' : Server L R} (h : VerfRuns calls s)
    (hs : s'.wverf = s.wverf) : VerfRuns calls s'

end

/-- The verifiers have eight bytes and differ in the first and the fifth at most. -/
def AgreeElsewhere (v v' : List UInt8) : Prop :=
  v.length = 8 ∧ v'.length = 8 ∧ ∀ i, i ≠ 0 → i ≠ 4 → v'[i]? = v[i]?

section
variable {L R : Type} {w : World L R} {v v' v'' : List UInt8}

theorem AgreeElsewhere.symm (h : AgreeElsewhere v v') : AgreeElsewhere v' v :=
  ⟨h.2.1, h.1, fun i h0 h4 => (h.2.2 i h0 h4).symm⟩

theorem AgreeElsewhere.trans (h : AgreeElsewhere v v') (h' : AgreeElsewhere v' v'') :
    AgreeElsewhere v v'' :=
  ⟨h.1, h'.2.1, fun i h0 h4 => (h'.2.2 i h0 h4).trans (h.2.2 i h0 h4)⟩

theorem agreeElsewhere_verifierAt {s : Server L R} (h : s.wverf.length = 8) :
    AgreeElsewhere s.wverf (verifierAt w s) := by
  refine ⟨h, by simp [verifierAt, regenerateWriteVerifier, h], fun i h0 h4 => ?_⟩
  simp [verifierAt, regenerateWriteVerifier, h0.symm, h4.symm]

/-- With the same bytes elsewhere, the two bytes that are set decide. -/
theorem set_eq_iff (h : AgreeElsewhere v v') (a a' b b' : UInt8) :
    (v.set 0 a).set 4 b = (v'.set 0 a').set 4 b' ↔ a = a' ∧ b = b' := by
  obtain ⟨hlen, hlen', hagree⟩ := h
  constructor
  · intro heq
    have h0 := congrArg (·[0]?) heq
    have h4 := congrArg (·[4]?) heq
    simp only [List.getElem?_set, List.length_set, hlen, hlen'] at h0 h4
    exact ⟨by simpa using h0, by simpa using h4⟩
  · rintro ⟨rfl, rfl⟩
    apply List.ext_getElem?
    intro i
    by_cases h4 : i = 4
    · simp [h4, hlen, hlen']
    · by_cases h0 : i = 0
      · simp [h0, hlen, hlen']
      · simp [Ne.symm h0, Ne.symm h4, hagree i h0 h4]

theorem ofNat_eq_iff (m n : Nat) : UInt8.ofNat m = UInt8.ofNat n ↔ m % 256 = n % 256 := by
  rw [← UInt8.toNat_inj]
  simp

theorem ofNat_emod_eq_iff (a b : Int) :
    UInt8.ofNat (a.emod 256).toNat = UInt8.ofNat (b.emod 256).toNat ↔ a % 256 = b % 256 := by
  rw [ofNat_eq_iff]
  change (a % 256).toNat % 256 = (b % 256).toNat % 256 ↔ _
  omega

/-- All that a process leaves in `wverf`, and finds there, agrees but for the two bytes. -/
theorem VerfRuns.agree {calls : List (Server L R)} {s : Server L R} (h : VerfRuns w calls s) :
    s.wverf.length = 8 ∧ ∀ t ∈ calls, AgreeElsewhere t.wverf s.wverf := by
  induction h with
  | start h => exact ⟨h, fun t ht => absurd ht (List.not_mem_nil)⟩
  | @call calls s _ ih =>
    have hlast := agreeElsewhere_verifierAt (w := w) ih.1
    refine ⟨hlast.2.1, fun t ht => ?_⟩
    rcases List.mem_append.1 ht with ht | ht
    · exact (ih.2 t ht).trans hlast
    · rw [List.mem_singleton.1 ht]
      exact hlast
  | other _ hs ih => rwa [hs]

end

/-- **Verifiers distinguish two calls** exactly if the random numbers differ modulo 256, or the
times do. -/
theorem verifiers_differ_iff {L R : Type} (w : World L R) (calls : List (Server L R))
    (s t t' : Server L R)
    (h : VerfRuns w calls s) (ht : t ∈ calls) (ht' : t' ∈ calls) :
    verifierAt w t ≠ verifierAt w t' ↔
      w.rand t.tick % 256 ≠ w.rand t'.tick % 256 ∨ w.time t.kernel % 256 ≠
        w.time t'.kernel % 256 := by
  have hagree := (h.agree.2 t ht).trans (h.agree.2 t' ht').symm
  have hset := set_eq_iff hagree (UInt8.ofNat w.getpid ^^^ UInt8.ofNat (w.rand t.tick))
    (UInt8.ofNat w.getpid ^^^ UInt8.ofNat (w.rand t'.tick))
      (UInt8.ofNat ((w.time t.kernel).emod 256).toNat)
    (UInt8.ofNat ((w.time t'.kernel).emod 256).toNat)
  rw [UInt8.xor_right_inj, ofNat_eq_iff, ofNat_emod_eq_iff] at hset
  rw [ne_eq, show verifierAt w t = verifierAt w t' ↔ _ from hset, not_and_or]

/-- The daemon at a time, with a verifier. -/
def serverAt (now : Int) (wverf : List UInt8) : Server Sandbox.Disk Sandbox.Grid :=
  { kernel := { now }, rods := {}, wverf }

/-- The verifier made at second 1 by a process that has just started. -/
def firstVerifier : List UInt8 := verifierAt Sandbox.diskWorld (serverAt 1 (List.replicate 8 0))

theorem serverAt_runs (now : Int) :
    VerfRuns Sandbox.diskWorld [serverAt 1 (List.replicate 8 0), serverAt now firstVerifier]
      (regenerateWriteVerifier Sandbox.diskWorld (serverAt now firstVerifier)).2 := by
  have hstart : VerfRuns Sandbox.diskWorld [] (serverAt 1 (List.replicate 8 0)) := .start rfl
  have hnext : VerfRuns Sandbox.diskWorld [serverAt 1 (List.replicate 8 0)]
    (serverAt now firstVerifier) :=
    hstart.call.other rfl
  exact hnext.call

/-- One second makes a difference. -/
theorem verifiers_differ_second :
    firstVerifier ≠ verifierAt Sandbox.diskWorld (serverAt 2 firstVerifier) :=
  (verifiers_differ_iff Sandbox.diskWorld _ _ (serverAt 1 (List.replicate 8 0)) _ (serverAt_runs 2)
    List.mem_cons_self (List.mem_cons_of_mem _ List.mem_cons_self)).2 (.inr (by decide))

/-- With the same random number, 256 seconds make none. -/
theorem verifiers_collide : ∃ calls s t t', VerfRuns Sandbox.diskWorld calls s ∧ t ∈ calls ∧
    t' ∈ calls ∧
    Sandbox.diskWorld.time t.kernel = 1 ∧ Sandbox.diskWorld.time t'.kernel = 257 ∧
    verifierAt Sandbox.diskWorld t = verifierAt Sandbox.diskWorld t' :=
  ⟨_, _, serverAt 1 (List.replicate 8 0), serverAt 257 firstVerifier, serverAt_runs 257,
    List.mem_cons_self, List.mem_cons_of_mem _ List.mem_cons_self, by decide, by decide,
    by decide +kernel⟩

end NfsRods
