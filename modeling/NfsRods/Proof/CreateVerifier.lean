import NfsRods.Lib.SignedBytes
import NfsRods.Nfs.Modify
import NfsRods.Sandbox

/-!
# The verifier of an exclusive create

CREATE stores the verifier of an exclusive create in the two times of the new file and compares it
there when the request comes again. `verf` is an array of `char`, which is signed, and its bytes are
shifted and combined as they are, so that a byte above `0x7F` covers what follows in its half.

* `verfTime_inj`: two halves give the same time exactly when they are the same up to the first byte
  above `0x7F`.
* `verifier_identifies_iff`: for which two verifiers the comparison tells whether they are the same.
-/

namespace NfsRods

open SignedBytes

/-- A half of a verifier is combined as signed bytes. -/
theorem verfTime_eq {verf : List UInt8} (h : 4 ≤ verf.length) :
    verfTime verf = toCInt (combine (verf.take 4)) := by
  obtain ⟨b0, b1, b2, b3, rest, rfl⟩ : ∃ b0 b1 b2 b3 rest, verf = b0 :: b1 :: b2 :: b3 :: rest := by
    match verf, h with
    | b0 :: b1 :: b2 :: b3 :: rest, _ => exact ⟨b0, b1, b2, b3, rest, rfl⟩
  change toCInt (extend b0 ||| extend b1 <<< 8 ||| extend b2 <<< 16 ||| extend b3 <<< 24) = _
  rw [← combine_four]
  rfl

theorem verfTime_inj {v v' : List UInt8} (h : 4 ≤ v.length) (h' : 4 ≤ v'.length) :
    verfTime v = verfTime v' ↔ significant (v.take 4) = significant (v'.take 4) := by
  rw [verfTime_eq h, verfTime_eq h']
  have hlen : (v.take 4).length = 4 := by rw [List.length_take]; omega
  have hlen' : (v'.take 4).length = 4 := by rw [List.length_take]; omega
  rw [← combine_inj hlen hlen']
  exact ⟨toCInt_inj, congrArg toCInt⟩

/-- The verifiers are the same, or differ in a half of theirs by the first byte above `0x7F`. -/
def Distinguished (v v' : List UInt8) : Prop :=
  v = v' ∨ significant (v.take 4) ≠ significant (v'.take 4) ∨
    significant (v.drop 4) ≠ significant (v'.drop 4)

instance (v v' : List UInt8) : Decidable (Distinguished v v') := inferInstanceAs (Decidable (_ ∨ _))

/-- The comparison of the times that a verifier gives with another one. -/
theorem checkCreateVerifier_iff {v v' : List UInt8} (h : v.length = 8) (h' : v'.length = 8)
    {buf : Stat} (ha : buf.atime = verfTime v) (hm : buf.mtime = verfTime (v.drop 4)) :
    checkCreateVerifier buf v' = true ↔ significant (v.take 4) = significant (v'.take 4) ∧
      significant (v.drop 4) = significant (v'.drop 4) := by
  have hd : (v.drop 4).length = 4 := by rw [List.length_drop, h]
  have hd' : (v'.drop 4).length = 4 := by rw [List.length_drop, h']
  have htake : verfTime v = verfTime v' ↔ significant (v.take 4) = significant (v'.take 4) :=
    verfTime_inj (by omega) (by omega)
  have hdrop := verfTime_inj hd.ge hd'.ge
  rw [List.take_of_length_le hd.le, List.take_of_length_le hd'.le] at hdrop
  rw [checkCreateVerifier, Bool.and_eq_true, beq_iff_eq, beq_iff_eq, ha, hm, htake, hdrop]

section
variable {L R : Type}

/-- A file system stores the times of a file exactly. -/
def StoresTimes (w : World L R) : Prop :=
  ∀ obj actime modtime k r k', w.sys (.utime obj actime modtime) k = (.ok r, k') →
    ∀ buf, w.stat k' obj = .ok buf → buf.atime = actime ∧ buf.mtime = modtime

/-- **The verifier of an exclusive create identifies the request** exactly when it is
`Distinguished` from the one it is compared with. -/
theorem verifier_identifies_iff (w : World L R) (hw : StoresTimes w) (obj : CStr)
    (v v' : List UInt8) (h : v.length = 8) (h' : v'.length = 8) (s s' : Server L R) (r : Int)
    (hr : r ≠ -1) (hstore : storeCreateVerifier w obj v s = (.ok r, s')) (buf : Stat)
    (hbuf : w.stat s'.kernel obj = .ok buf) :
    (checkCreateVerifier buf v' = true ↔ v = v') ↔ Distinguished v v' := by
  have htimes : buf.atime = verfTime v ∧ buf.mtime = verfTime (v.drop 4) := by
    rw [storeCreateVerifier, sys] at hstore
    rcases hs : w.sys (.utime obj (verfTime v) (verfTime (v.drop 4))) s.kernel with ⟨e | r', k'⟩
    · rw [hs] at hstore
      obtain ⟨⟨⟨⟩⟩, _⟩ := Prod.mk.inj hstore
      exact absurd rfl hr
    · rw [hs] at hstore
      obtain ⟨_, rfl⟩ := Prod.mk.inj hstore
      exact hw _ _ _ _ _ _ hs buf hbuf
  rw [checkCreateVerifier_iff h h' htimes.1 htimes.2, Distinguished]
  by_cases hv : v = v'
  · subst hv
    simp
  · simp only [hv, false_or, iff_false]
    exact Classical.not_and_iff_not_or_not

end

/-! ## Two verifiers of one file -/

theorem lookup_map_value {α β : Type} [BEq α] [LawfulBEq α] (p : α) (f : α → β → β)
    (xs : List (α × β)) :
    (xs.map fun x => (x.1, f x.1 x.2)).lookup p = (xs.lookup p).map (f p) := by
  induction xs with
  | nil => rfl
  | cons x xs ih =>
    rw [List.map_cons, List.lookup_cons, List.lookup_cons]
    by_cases hp : p = x.1
    · subst hp
      simp
    · have hne : (p == x.1) = false := beq_false_of_ne hp
      simp [hne, ih]

theorem timesWorld_stores : StoresTimes Sandbox.timesWorld := by
  intro obj actime modtime k r k' h buf hbuf
  change Sandbox.timesCall (.utime obj actime modtime) k = _ at h
  rw [Sandbox.timesCall] at h
  split at h
  · obtain ⟨-, rfl⟩ := Prod.mk.inj h
    change Sandbox.find _ obj = _ at hbuf
    have hset := lookup_map_value obj (fun p (b : Stat) => if p = obj then
      { b with atime := actime, mtime := modtime } else b) k.files
    have hmap : (fun x : CStr × Stat => if x.1 = obj then
        (x.1, { x.2 with atime := actime, mtime := modtime }) else x) = fun x =>
        (x.1, if x.1 = obj then { x.2 with atime := actime, mtime := modtime } else x.2) := by
      funext x
      split <;> rfl
    rw [Sandbox.find, hmap, hset] at hbuf
    cases hl : k.files.lookup obj with
    | none => simp [hl] at hbuf
    | some b =>
      simp only [hl, Option.map_some, ↓reduceIte, Except.ok.injEq] at hbuf
      subst hbuf
      exact ⟨rfl, rfl⟩
  · cases h

/-- A daemon with one file. -/
def timesServer : Server Sandbox.Kernel Sandbox.Grid :=
  { kernel := { files := [([47, 102], {})] }, rods := {} }

/-- Verifiers of bytes up to `0x7F` are told apart. -/
theorem small_verifiers_told : ∃ buf : Stat,
    (checkCreateVerifier buf [2, 2, 3, 4, 5, 6, 7, 8] = true ↔
      ([1, 2, 3, 4, 5, 6, 7, 8] : List UInt8) = [2, 2, 3, 4, 5, 6, 7, 8]) :=
  ⟨{ atime := 0x04030201, mtime := 0x08070605 },
    (verifier_identifies_iff Sandbox.timesWorld timesWorld_stores [47, 102]
      [1, 2, 3, 4, 5, 6, 7, 8] [2, 2, 3, 4, 5, 6, 7, 8] rfl rfl timesServer
      (storeCreateVerifier Sandbox.timesWorld [47, 102] [1, 2, 3, 4, 5, 6, 7, 8] timesServer).2 0
      (by decide) rfl _ rfl).2 (by decide)⟩

/-- Two clients whose verifiers start with the byte `0x80` share the file that one of them has made.
-/
theorem verifier_mistaken : ∃ s' buf, StoresTimes Sandbox.timesWorld ∧
    storeCreateVerifier Sandbox.timesWorld [47, 102] [0x80, 0, 0, 0, 0, 0, 0, 0] timesServer =
      (.ok 0, s') ∧ Sandbox.timesWorld.stat s'.kernel [47, 102] = .ok buf ∧
    ¬ (checkCreateVerifier buf [0x80, 1, 2, 3, 0, 0, 0, 0] = true ↔
      ([0x80, 0, 0, 0, 0, 0, 0, 0] : List UInt8) = [0x80, 1, 2, 3, 0, 0, 0, 0]) :=
  ⟨_, { atime := -128, mtime := 0 }, timesWorld_stores, rfl, rfl, by decide⟩

end NfsRods
