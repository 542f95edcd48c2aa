import Mathlib.Order.Defs.Unbundled

/-!
# Programs that may stop

`Prog σ ε α`: a program over states `σ` that returns an `α` or stops with an `ε`; the state at
the stop is kept, so what a program did before it stopped can be stated.

* `bind_ok`, `bind_error`: run a sequence one statement at a time.
* `Frame r m`: wherever `m` starts and however it ends, its last state is related by `r` to its
  first. For a preorder `r` it is closed under sequencing (`Frame.bind`); `FrameOn` restricts the
  first state.
* `Returns m`: `m` never stops.
* `Yields P m`: what `m` returns has the property `P`.
* `Respects r m`: `m` does not see the difference between states that are related.
* `Ends r m s x`: from `s`, `m` ends with the result `x` in a state related to `s` (`Ends.bind`).
* `Reaches P K m s`: from `s`, `m` returns where `P` holds, or stops where `K` does
  (`Reaches.bind`).
-/

/-- A program over states `σ` that returns an `α` or stops with an `ε`. -/
def Prog (σ ε α : Type) : Type := σ → Except ε α × σ

namespace Prog

variable {σ ε α β : Type}

instance : Monad (Prog σ ε) where
  pure a := fun s => (.ok a, s)
  bind m f := fun s =>
    match m s with
    | (.ok a, s') => f a s'
    | (.error e, s') => (.error e, s')

/-- Stop here. -/
def stop (e : ε) : Prog σ ε α := fun s => (.error e, s)

/-- The current state. -/
def get : Prog σ ε σ := fun s => (.ok s, s)

/-- Change the state. -/
def modify (f : σ → σ) : Prog σ ε Unit := fun s => (.ok (), f s)

/-- Run `m` if `c` holds. -/
def when (c : Prop) [Decidable c] (m : Prog σ ε Unit) : Prog σ ε Unit := if c then m else pure ()

/-- Run `f` on each element in turn. -/
def forEach (f : α → Prog σ ε Unit) : List α → Prog σ ε Unit
  | [] => pure ()
  | a :: as => do
    f a
    forEach f as

@[simp] theorem pure_run (a : α) (s : σ) : (pure a : Prog σ ε α) s = (.ok a, s) := rfl

@[simp] theorem stop_run (e : ε) (s : σ) : (stop e : Prog σ ε α) s = (.error e, s) := rfl

@[simp] theorem get_run (s : σ) : (get : Prog σ ε σ) s = (.ok s, s) := rfl

@[simp] theorem modify_run (f : σ → σ) (s : σ) :
    (modify f : Prog σ ε Unit) s = (.ok (), f s) := rfl

theorem bind_run (m : Prog σ ε α) (f : α → Prog σ ε β) (s : σ) :
    (m >>= f) s = match m s with
      | (.ok a, s') => f a s'
      | (.error e, s') => (.error e, s') := rfl

theorem bind_ok {m : Prog σ ε α} {f : α → Prog σ ε β} {s s' : σ} {a : α}
    (h : m s = (.ok a, s')) : (m >>= f) s = f a s' := by
  rw [bind_run, h]

theorem bind_error {m : Prog σ ε α} {f : α → Prog σ ε β} {s s' : σ} {e : ε}
    (h : m s = (.error e, s')) : (m >>= f) s = (.error e, s') := by
  rw [bind_run, h]

theorem fst_bind_error {m : Prog σ ε α} {f : α → Prog σ ε β} {s : σ} {e : ε}
    (h : (m s).1 = .error e) : ((m >>= f) s).1 = .error e := by
  have hm : m s = (.error e, (m s).2) := by rw [← h]
  rw [bind_error hm]

@[simp] theorem pure_bind_run (a : α) (f : α → Prog σ ε β) (s : σ) :
    ((pure a : Prog σ ε α) >>= f) s = f a s := rfl

@[simp] theorem get_bind_run (f : σ → Prog σ ε β) (s : σ) :
    ((get : Prog σ ε σ) >>= f) s = f s s := rfl

@[simp] theorem modify_bind_run (g : σ → σ) (f : Unit → Prog σ ε β) (s : σ) :
    ((modify g : Prog σ ε Unit) >>= f) s = f () (g s) := rfl

@[simp] theorem stop_bind_run (e : ε) (f : α → Prog σ ε β) (s : σ) :
    ((stop e : Prog σ ε α) >>= f) s = (.error e, s) := rfl

theorem bind_assoc_run {γ : Type} (m : Prog σ ε α) (f : α → Prog σ ε β) (g : β → Prog σ ε γ)
    (s : σ) : ((m >>= f) >>= g) s = (m >>= fun a => f a >>= g) s := by
  simp only [bind_run]
  rcases m s with ⟨_ | a, s'⟩ <;> rfl

theorem bind_assoc {γ : Type} (m : Prog σ ε α) (f : α → Prog σ ε β) (g : β → Prog σ ε γ) :
    (m >>= f) >>= g = m >>= fun a => f a >>= g := funext (bind_assoc_run m f g)

/-- A sequence returns when both parts do. -/
theorem bind_eq_ok {m : Prog σ ε α} {f : α → Prog σ ε β} {s s'' : σ} {b : β}
    (h : (m >>= f) s = (.ok b, s'')) : ∃ a s', m s = (.ok a, s') ∧ f a s' = (.ok b, s'') := by
  rw [bind_run] at h
  rcases hm : m s with ⟨_ | a, s'⟩
  · rw [hm] at h
    simp at h
  · rw [hm] at h
    exact ⟨a, s', rfl, h⟩

/-- A sequence stops in one of its parts. -/
theorem bind_eq_error {m : Prog σ ε α} {f : α → Prog σ ε β} {s s'' : σ} {e : ε}
    (h : (m >>= f) s = (.error e, s'')) :
    m s = (.error e, s'') ∨ ∃ a s', m s = (.ok a, s') ∧ f a s' = (.error e, s'') := by
  rw [bind_run] at h
  rcases hm : m s with ⟨e' | a, s'⟩
  · rw [hm] at h
    cases h
    exact .inl rfl
  · rw [hm] at h
    exact .inr ⟨a, s', rfl, h⟩

theorem forEach_append (f : α → Prog σ ε Unit) (as bs : List α) (s : σ) :
    forEach f (as ++ bs) s = (forEach f as >>= fun _ => forEach f bs) s := by
  induction as generalizing s with
  | nil => rfl
  | cons a as ih =>
    rw [List.cons_append, forEach, forEach, bind_assoc_run, bind_run, bind_run]
    rcases f a s with ⟨_ | _, s'⟩
    · rfl
    · exact ih s'

@[simp] theorem ite_run (c : Prop) [Decidable c] (m n : Prog σ ε α) (s : σ) :
    (if c then m else n) s = if c then m s else n s := by
  split <;> rfl

/-! ## Frames -/

/-- However `m` ends, its last state is related to its first. -/
def Frame (r : σ → σ → Prop) (m : Prog σ ε α) : Prop := ∀ s, r s (m s).2

section
variable {r : σ → σ → Prop}

theorem Frame.pure [Std.Refl r] (a : α) : Frame r (pure a : Prog σ ε α) := fun s => refl_of r s

theorem Frame.stop [Std.Refl r] (e : ε) : Frame r (stop e : Prog σ ε α) := fun s => refl_of r s

theorem Frame.get [Std.Refl r] : Frame r (get : Prog σ ε σ) := fun s => refl_of r s

/-- Of one run: the first part is related, and what follows if it returns. -/
theorem rel_bind [IsTrans σ r] {m : Prog σ ε α} {f : α → Prog σ ε β} {s : σ} (hm : r s (m s).2)
    (hf : ∀ a s', m s = (.ok a, s') → r s' (f a s').2) : r s ((m >>= f) s).2 := by
  rw [bind_run]
  rcases hms : m s with ⟨_ | a, s'⟩
  · rw [hms] at hm
    exact hm
  · rw [hms] at hm
    exact trans_of r hm (hf a s' hms)

theorem Frame.bind [IsTrans σ r] {m : Prog σ ε α} {f : α → Prog σ ε β} (hm : Frame r m)
    (hf : ∀ a, Frame r (f a)) : Frame r (m >>= f) :=
  fun s => rel_bind (hm s) fun a s' _ => hf a s'

/-- Sequencing, where what follows may use what the first part can return. -/
theorem Frame.bind_result [IsTrans σ r] {m : Prog σ ε α} {f : α → Prog σ ε β} (hm : Frame r m)
    (hf : ∀ s a s', m s = (.ok a, s') → Frame r (f a)) : Frame r (m >>= f) :=
  fun s => rel_bind (hm s) fun a s' h => hf s a s' h s'

theorem Frame.ite {c : Prop} [Decidable c] {m n : Prog σ ε α} (hm : c → Frame r m)
    (hn : ¬ c → Frame r n) : Frame r (if c then m else n) := by
  split
  · exact hm ‹_›
  · exact hn ‹_›

theorem Frame.when [Std.Refl r] {c : Prop} [Decidable c] {m : Prog σ ε Unit}
    (hm : c → Frame r m) : Frame r (when c m) := .ite hm fun _ => .pure _

theorem Frame.forEach [Std.Refl r] [IsTrans σ r] {f : α → Prog σ ε Unit} (hf : ∀ a, Frame r (f a)) :
    (as : List α) → Frame r (forEach f as)
  | [] => .pure _
  | a :: as => .bind (hf a) fun _ => Frame.forEach hf as

theorem Frame.mono {r' : σ → σ → Prop} {m : Prog σ ε α} (h : Frame r m)
    (hr : ∀ s s', r s s' → r' s s') : Frame r' m := fun s => hr _ _ (h s)

/-- The frame of a run that returned. -/
theorem Frame.ok {m : Prog σ ε α} (h : Frame r m) {s s' : σ} {a : α} (hm : m s = (.ok a, s')) :
    r s s' := by
  have := h s
  rwa [hm] at this

end

/-- `Frame` for runs that start in `P`. -/
def FrameOn (P : σ → Prop) (r : σ → σ → Prop) (m : Prog σ ε α) : Prop := ∀ s, P s → r s (m s).2

section
variable {P : σ → Prop} {r : σ → σ → Prop} {m : Prog σ ε α} {f : α → Prog σ ε β}

theorem Frame.on (h : Frame r m) : FrameOn P r m := fun s _ => h s

theorem FrameOn.bind [IsTrans σ r] (hP : ∀ s s', P s → r s s' → P s') (hm : FrameOn P r m)
    (hf : ∀ a, FrameOn P r (f a)) : FrameOn P r (m >>= f) := by
  intro s hs
  refine rel_bind (hm s hs) fun a s' h => hf a s' (hP s s' hs ?_)
  have := hm s hs
  rwa [h] at this

/-- Started in `P`, `m` stops. -/
def Stops (P : σ → Prop) (m : Prog σ ε α) : Prop := ∀ s, P s → ∃ e, (m s).1 = .error e

theorem Stops.bind (h : Stops P m) : Stops P (m >>= f) := by
  intro s hs
  obtain ⟨e, he⟩ := h s hs
  exact ⟨e, fst_bind_error he⟩

/-- What follows a program that stops does not run. -/
theorem FrameOn.bind_stops (hm : FrameOn P r m) (h : Stops P m) : FrameOn P r (m >>= f) := by
  intro s hs
  obtain ⟨e, he⟩ := h s hs
  have hms : m s = (.error e, (m s).2) := by rw [← he]
  rw [bind_error hms]
  exact hm s hs

theorem FrameOn.get {f : σ → Prog σ ε β} (hf : ∀ t, P t → FrameOn P r (f t)) :
    FrameOn P r (Prog.get >>= f) := fun s hs => hf s hs s hs

end

/-! ## Programs that always return -/

/-- `m` never stops. -/
def Returns (m : Prog σ ε α) : Prop := ∀ s, ∃ a s', m s = (.ok a, s')

section
variable {m n : Prog σ ε α} {f : α → Prog σ ε β}

theorem Returns.pure (a : α) : Returns (pure a : Prog σ ε α) := fun s => ⟨a, s, rfl⟩

theorem Returns.get : Returns (get : Prog σ ε σ) := fun s => ⟨s, s, rfl⟩

theorem Returns.modify (f : σ → σ) : Returns (modify f : Prog σ ε Unit) := fun s => ⟨(), f s, rfl⟩

theorem Returns.bind (hm : Returns m) (hf : ∀ a, Returns (f a)) : Returns (m >>= f) := by
  intro s
  obtain ⟨a, s', h⟩ := hm s
  rw [bind_ok h]
  exact hf a s'

theorem Returns.ite {c : Prop} [Decidable c] (hm : Returns m) (hn : Returns n) :
    Returns (if c then m else n) := by
  split
  · exact hm
  · exact hn

theorem Returns.when {c : Prop} [Decidable c] {m : Prog σ ε Unit} (hm : Returns m) :
    Returns (when c m) := .ite hm (.pure _)

theorem Returns.forEach {f : α → Prog σ ε Unit} (hf : ∀ a, Returns (f a)) :
    (as : List α) → Returns (forEach f as)
  | [] => .pure _
  | a :: as => .bind (hf a) fun _ => Returns.forEach hf as

end

/-! ## Programs with a property of their results -/

/-- What `m` returns, wherever it starts, has the property `P`. -/
def Yields (P : α → Prop) (m : Prog σ ε α) : Prop := ∀ s a s', m s = (.ok a, s') → P a

section
variable {P : α → Prop} {Q : β → Prop} {m n : Prog σ ε α} {f : α → Prog σ ε β}

theorem Yields.pure {a : α} (h : P a) : Yields P (pure a : Prog σ ε α) := by
  rintro s _ _ ⟨⟩
  exact h

theorem Yields.bind_result (hm : Yields P m) (hf : ∀ a, P a → Yields Q (f a)) :
    Yields Q (m >>= f) := by
  intro s b s' h
  obtain ⟨a, s1, h1, h2⟩ := bind_eq_ok h
  exact hf a (hm s a s1 h1) s1 b s' h2

/-- Only the last result counts. -/
theorem Yields.bind (hf : ∀ a, Yields Q (f a)) : Yields Q (m >>= f) :=
  Yields.bind_result (P := fun _ => True) (fun _ _ _ _ => trivial) fun a _ => hf a

theorem Yields.ite {c : Prop} [Decidable c] (hm : c → Yields P m) (hn : ¬ c → Yields P n) :
    Yields P (if c then m else n) := by
  split
  · exact hm ‹_›
  · exact hn ‹_›

end

/-! ## Programs that do not see a difference -/

/-- From related states `m` ends with the same result, in related states. -/
def Respects (r : σ → σ → Prop) (m : Prog σ ε α) : Prop :=
  ∀ s s', r s s' → (m s').1 = (m s).1 ∧ r (m s).2 (m s').2

section
variable {r : σ → σ → Prop} {m n : Prog σ ε α} {f : α → Prog σ ε β}

theorem Respects.pure (a : α) : Respects r (pure a : Prog σ ε α) := fun _ _ h => ⟨rfl, h⟩

theorem Respects.stop (e : ε) : Respects r (stop e : Prog σ ε α) := fun _ _ h => ⟨rfl, h⟩

theorem Respects.modify {g : σ → σ} (h : ∀ s s', r s s' → r (g s) (g s')) :
    Respects r (modify g : Prog σ ε Unit) := fun s s' hs => ⟨rfl, h s s' hs⟩

theorem Respects.bind (hm : Respects r m) (hf : ∀ a, Respects r (f a)) : Respects r (m >>= f) := by
  intro s s' h
  obtain ⟨hres, hrel⟩ := hm s s' h
  rw [bind_run, bind_run]
  rcases hms : m s with ⟨e | a, t⟩ <;> rcases hms' : m s' with ⟨e' | a', t'⟩ <;>
    rw [hms, hms'] at hres hrel
  · exact ⟨by rw [Except.error.inj hres], hrel⟩
  · cases hres
  · cases hres
  · rw [Except.ok.inj hres]
    exact hf a t t' hrel

/-- The state is read for what related states have in common. -/
theorem Respects.get {g : σ → Prog σ ε β} (hg : ∀ s s', r s s' → g s' = g s)
    (h : ∀ s, Respects r (g s)) : Respects r (Prog.get >>= g) := by
  intro s s' hs
  rw [get_bind_run, get_bind_run, hg s s' hs]
  exact h s s s' hs

theorem Respects.ite {c : Prop} [Decidable c] (hm : Respects r m) (hn : Respects r n) :
    Respects r (if c then m else n) := by
  split
  · exact hm
  · exact hn

end

/-! ## Results -/

/-- From `s`, `m` ends with `x` in a state related to `s`. -/
def Ends (r : σ → σ → Prop) (m : Prog σ ε α) (s : σ) (x : Except ε α) : Prop :=
  ∃ s', m s = (x, s') ∧ r s s'

section
variable {r : σ → σ → Prop} {m : Prog σ ε α} {f : α → Prog σ ε β} {s : σ}

theorem Ends.pure [Std.Refl r] (a : α) (s : σ) : Ends r (pure a : Prog σ ε α) s (.ok a) :=
  ⟨s, rfl, refl_of r s⟩

theorem Ends.stop [Std.Refl r] (e : ε) (s : σ) : Ends r (stop e : Prog σ ε α) s (.error e) :=
  ⟨s, rfl, refl_of r s⟩

/-- Sequencing, with a relation for each part and for the whole. -/
theorem Ends.seq {p q : σ → σ → Prop} {a : α} {x : Except ε β} (hm : Ends p m s (.ok a))
    (hf : ∀ s', p s s' → Ends q (f a) s' x)
    (hr : ∀ s' s'', p s s' → q s' s'' → r s s'') : Ends r (m >>= f) s x := by
  obtain ⟨s', hms, h₁⟩ := hm
  obtain ⟨s'', hfs, h₂⟩ := hf s' h₁
  exact ⟨s'', by rw [bind_ok hms, hfs], hr s' s'' h₁ h₂⟩

theorem Ends.bind [IsTrans σ r] {a : α} {x : Except ε β} (hm : Ends r m s (.ok a))
    (hf : ∀ s', r s s' → Ends r (f a) s' x) : Ends r (m >>= f) s x :=
  hm.seq hf fun _ _ => trans_of r

theorem Ends.bind_error {e : ε} (hm : Ends r m s (.error e)) : Ends r (m >>= f) s (.error e) := by
  obtain ⟨s', hms, hr⟩ := hm
  exact ⟨s', Prog.bind_error hms, hr⟩

theorem Ends.bind_get {f : σ → Prog σ ε β} {x : Except ε β} (hf : Ends r (f s) s x) :
    Ends r (get >>= f) s x := hf

/-- There is one run. -/
theorem Ends.run {x y : Except ε α} {s' : σ} (h : Ends r m s x) (hm : m s = (y, s')) :
    x = y ∧ r s s' := by
  obtain ⟨s1, h1, hr⟩ := h
  rw [h1] at hm
  obtain ⟨rfl, rfl⟩ := Prod.mk.inj hm
  exact ⟨rfl, hr⟩

theorem Ends.of {x : Except ε α} (hx : (m s).1 = x) (h : r s (m s).2) : Ends r m s x :=
  ⟨(m s).2, by rw [← hx], h⟩

/-- A loop returns and keeps its invariant, a property of what has been done and of the state. -/
theorem forEach_returns {g : α → Prog σ ε Unit} {I : List α → σ → Prop} (as : List α)
    (hg : ∀ done a s, a ∈ as → I done s → ∃ s', g a s = (.ok (), s') ∧ I (done ++ [a]) s')
    (done : List α) (h : I done s) : ∃ s', forEach g as s = (.ok (), s') ∧ I (done ++ as) s' := by
  induction as generalizing done s with
  | nil => exact ⟨s, rfl, by simpa using h⟩
  | cons a as ih =>
    obtain ⟨s1, h1, i1⟩ := hg done a s (by simp) h
    obtain ⟨s2, h2, i2⟩ := ih (fun done b s hb => hg done b s (List.mem_cons_of_mem a hb)) _ i1
    exact ⟨s2, by rw [forEach, bind_ok h1, h2], by simpa using i2⟩

/-- Two loops whose steps do the same wherever the first of them comes run alike. -/
theorem forEach_congr {g g' : α → Prog σ ε Unit} {I : List α → σ → Prop} (as : List α)
    (hg : ∀ done a rest s, as = done ++ a :: rest → I done s →
      g' a s = g a s ∧ ∃ s', g a s = (.ok (), s') ∧ I (done ++ [a]) s') (h : I [] s) :
    forEach g' as s = forEach g as s ∧ ∃ s', forEach g as s = (.ok (), s') ∧ I as s' := by
  have hgo : ∀ rest done s, as = done ++ rest → I done s →
      forEach g' rest s = forEach g rest s ∧ ∃ s', forEach g rest s = (.ok (), s') ∧ I as s' := by
    intro rest
    induction rest with
    | nil =>
      intro done s has hI
      rw [has, List.append_nil]
      exact ⟨rfl, s, rfl, hI⟩
    | cons a rest ih =>
      intro done s has hI
      obtain ⟨hsame, s1, h1, hI1⟩ := hg done a rest s has hI
      obtain ⟨hloop, s2, h2, hI2⟩ := ih (done ++ [a]) s1 (by simp [has]) hI1
      rw [forEach, forEach, bind_ok h1, bind_ok (hsame.trans h1), hloop]
      exact ⟨rfl, s2, h2, hI2⟩
  exact hgo as [] s rfl h

end

/-! ## Returning or stopping -/

/-- From `s`, `m` returns a value in a state with `P`, or stops in a state with `K`. -/
def Reaches (P : α → σ → Prop) (K : ε → σ → Prop) (m : Prog σ ε α) (s : σ) : Prop :=
  match m s with
  | (.ok a, s') => P a s'
  | (.error e, s') => K e s'

section
variable {P : α → σ → Prop} {Q : β → σ → Prop} {K : ε → σ → Prop} {m : Prog σ ε α}
  {f : α → Prog σ ε β} {s s' : σ} {a : α} {e : ε}

theorem Reaches.of_ok (hm : m s = (.ok a, s')) (h : P a s') : Reaches P K m s := by
  rwa [Reaches, hm]

theorem Reaches.of_error (hm : m s = (.error e, s')) (h : K e s') : Reaches P K m s := by
  rwa [Reaches, hm]

theorem Reaches.ok (h : Reaches P K m s) (hm : m s = (.ok a, s')) : P a s' := by
  rwa [Reaches, hm] at h

theorem Reaches.error (h : Reaches P K m s) (hm : m s = (.error e, s')) : K e s' := by
  rwa [Reaches, hm] at h

theorem Reaches.bind (h : Reaches P K m s)
    (hf : ∀ a s', m s = (.ok a, s') → P a s' → Reaches Q K (f a) s') :
    Reaches Q K (m >>= f) s := by
  rcases hm : m s with ⟨e | a, s'⟩
  · exact .of_error (bind_error hm) (h.error hm)
  · rw [Reaches, bind_ok hm]
    exact hf a s' hm (h.ok hm)

theorem Reaches.mono {P' : α → σ → Prop} {K' : ε → σ → Prop} (h : Reaches P K m s)
    (hP : ∀ a s', P a s' → P' a s') (hK : ∀ e s', K e s' → K' e s') : Reaches P' K' m s := by
  rcases hm : m s with ⟨e | a, s'⟩
  · exact .of_error hm (hK e s' (h.error hm))
  · exact .of_ok hm (hP a s' (h.ok hm))

/-- Where it cannot stop, it returns. -/
theorem Reaches.returns (h : Reaches P (fun _ _ => False) m s) : ∃ a s', m s = (.ok a, s') ∧
    P a s' := by
  rcases hm : m s with ⟨e | a, s'⟩
  · exact (h.error hm).elim
  · exact ⟨a, s', rfl, h.ok hm⟩

end

end Prog
