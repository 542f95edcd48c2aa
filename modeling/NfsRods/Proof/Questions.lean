import NfsRods.Proof.Mirror

/-!
# Questions for modes

While it lists a collection the daemon asks iRODS for the mode of each data object, and does not
survive a question that is answered without a row.

* `ModesAnswered`: iRODS answers the questions for what it lists.
* `listCollection_returns_iff`: the daemon survives the listing exactly then.
-/

namespace NfsRods

open CStr
open Prog (Ends)

/-- The name of a data object. -/
def CollEnt.dataName : CollEnt → Option CStr
  | .dataObj name => name
  | .coll _ => none

section
variable {L R : Type} {w : World L R} {m : CStr} {own : L → Prop} {view : L → MirrorTree}
  {left : R → Comm → Int → List CollEnt × Int} {comm : Comm}

/-- The iRODS state once an entry was handled in state `r`: a data object's mode was asked for. -/
def afterEntry (w : World L R) (comm : Comm) (c : CStr) (x : CollEnt) (r : R) : R :=
  x.dataName.elim r fun n => (queried w comm (modeQuery (c ++ root ++ n)) r).2

/-- iRODS answers the question for the mode of every data object among the entries `es`, which
handle `h` gives from state `r` on. -/
def ModesAnswered (w : World L R) (comm : Comm) (c : CStr) (h : Int) : List CollEnt → R → Prop
  | [], _ => True
  | x :: es, r =>
    let r' := (w.rods (.rcReadCollection comm h) r).2
    (∀ n, x.dataName = some n → Answered w comm (c ++ root ++ n) r') ∧
      ModesAnswered w comm c h es (afterEntry w comm c x r')

/-- iRODS answers the questions for the modes of all it lists of the collection `c`. -/
def CollAnswered (w : World L R) (left : R → Comm → Int → List CollEnt × Int) (comm : Comm)
    (c : CStr) (r : R) : Prop :=
  ModesAnswered w comm c (w.rods (.rcOpenCollection comm c) r).1.status
    (listed w left comm c r).1 (w.rods (.rcOpenCollection comm c) r).2

variable (comm m) in
/-- An entry of the loop is handled exactly when the question for its mode is answered. -/
theorem listEntry_ends {c : CStr} {r : R} {x : CollEnt} (hx : EntryOf w r c x) (s : Server L R) :
    ∃ y, Ends (fun s s' => s'.rods = afterEntry w comm c x s.rods) (listEntry w c m comm (some x)) s
      y ∧ (y = .ok true ∧ (∀ n, x.dataName = some n → Answered w comm (c ++ root ++ n) s.rods) ∨
        (∃ st, y = .error st) ∧ ∃ n, x.dataName = some n ∧
          ¬ Answered w comm (c ++ root ++ n) s.rods) := by
  cases hx with
  | @data n b hn h =>
    obtain ⟨s1, y, s2, mid, hr1, hmode, _, hok, herror⟩ :=
      listEntry_dataObj_run (w := w) c m comm n s
    obtain ⟨y', hends, hiff⟩ := fileMode_ends w comm (c ++ root ++ n) s1
    obtain ⟨rfl, _, hr2⟩ := hends.run hmode
    rw [hr1] at hr2 hiff
    rcases y' with st | d
    · obtain ⟨s', hrun, hr', _⟩ := herror st rfl
      have hno : ¬ Answered w comm (c ++ root ++ n) s.rods := fun ha => by
        obtain ⟨mode, ⟨⟩⟩ := hiff.2 ha
      exact ⟨.error st, ⟨s', hrun, hr'.trans hr2⟩, .inr ⟨⟨st, rfl⟩, n, rfl, hno⟩⟩
    · obtain ⟨s', post, hrun, hr', _⟩ := hok d rfl
      refine ⟨.ok true, ⟨s', hrun, hr'.trans hr2⟩, .inl ⟨rfl, fun n' hn' => ?_⟩⟩
      obtain rfl := Option.some.inj hn'
      exact hiff.1 ⟨d, rfl⟩
  | @coll n hn h =>
    obtain ⟨s1, s2, -, t1, -, hk2, -, hrun⟩ := listEntry_coll_run (w := w) c m comm n s
    exact ⟨.ok true, ⟨s2, hrun, hk2.rods.trans t1.rods⟩, .inl ⟨rfl, fun _ h => by cases h⟩⟩
  | self =>
    rw [listEntry, if_pos rfl]
    exact ⟨.ok true, ⟨s, rfl, rfl⟩, .inl ⟨rfl, fun _ h => by cases h⟩⟩

theorem afterEntry_left (hc : Collections w left) (c : CStr) (x : CollEnt) (r : R) (h : Int) :
    left (afterEntry w comm c x r) comm h = left r comm h := by
  unfold afterEntry
  cases x.dataName with
  | none => rfl
  | some n => exact queried_left hc _ _ _

/-- **The loop comes to its end** exactly when every question is answered. -/
theorem listLoop_returns_iff (hc : Collections w left) {c : CStr} {r : R} {h st : Int}
    {es : List CollEnt} (hes : ∀ x ∈ es, EntryOf w r c x) {fuel : Nat} (hfuel : es.length < fuel)
    {s : Server L R} (hleft : left s.rods comm h = (es, st)) :
    (∃ s', listLoop w c m comm h fuel s = (.ok (), s')) ↔
      ModesAnswered w comm c h es s.rods := by
  induction es generalizing fuel s with
  | nil =>
    obtain ⟨fuel, rfl⟩ : ∃ n, fuel = n + 1 := ⟨fuel - 1, by simp at hfuel; omega⟩
    obtain ⟨hst, hneg⟩ := hc.done hleft
    obtain ⟨s1, h1, _⟩ := rods_ends (w := w) (.rcReadCollection comm h) s
    refine iff_of_true ⟨s1, ?_⟩ trivial
    rw [listLoop, Prog.bind_ok h1, Prog.when, if_neg (by rw [hst]; omega)]
    rfl
  | cons x es ih =>
    obtain ⟨fuel, rfl⟩ : ∃ n, fuel = n + 1 := ⟨fuel - 1, by simp at hfuel; omega⟩
    obtain ⟨hst, hent, hleft1⟩ := hc.next hleft
    obtain ⟨s1, h1, _, hr1⟩ := rods_ends (w := w) (.rcReadCollection comm h) s
    obtain ⟨y, ⟨s2, h2, hr2⟩, hy⟩ :=
      listEntry_ends m comm (hes x List.mem_cons_self) s1
    rw [listLoop, Prog.bind_ok h1, Prog.when, if_pos hst, hent, ModesAnswered]
    rw [← hr1]
    rcases hy with ⟨rfl, ha⟩ | ⟨⟨st', rfl⟩, n, hn, hna⟩
    · rw [Prog.bind_ok h2, Prog.when, if_pos rfl, and_iff_right ha, ← hr2]
      refine ih (fun y hy => hes y (List.mem_cons_of_mem _ hy)) (Nat.lt_of_succ_lt_succ hfuel) ?_
      rw [hr2, afterEntry_left hc, hr1, hleft1]
    · rw [Prog.bind_error h2]
      exact iff_of_false (by rintro ⟨_, ⟨⟩⟩) fun h => hna (h.1 n hn)

theorem listInto_returns_iff (hc : Collections w left) (c m : CStr) (s : Server L R) :
    (∃ v s', listInto w c m comm s = (.ok v, s')) ↔ CollAnswered w left comm c s.rods := by
  obtain ⟨s1, h1, _, hr1⟩ := rods_ends (w := w) (.rcOpenCollection comm c) s
  obtain ⟨s2, h2, t2⟩ := debug_tacit (w := w) "rclOpenCollection OK" s1
  obtain ⟨s3, h3, t3⟩ := debug_tacit (w := w) "ListCollection RemoteFolder %s" s2
  have hr3 : s3.rods = (w.rods (.rcOpenCollection comm c) s.rods).2 := by
    rw [t3.rods, t2.rods, hr1]
  have hleft : left s3.rods comm (w.rods (.rcOpenCollection comm c) s.rods).1.status =
      ((listed w left comm c s.rods).1, (listed w left comm c s.rods).2) := by
    rw [hr3]
    rfl
  have hsound : ∀ x ∈ (listed w left comm c s.rods).1, EntryOf w s.rods c x :=
    fun _ hx => hc.sound comm c hx
  have hloop := listLoop_returns_iff (m := m) hc hsound
    (Nat.lt_succ_of_le (hc.bounded comm c)) hleft
  rw [hr3] at hloop
  rw [CollAnswered, ← hloop, listInto, Prog.bind_ok h1, Prog.bind_ok h2, Prog.bind_ok h3,
    Prog.get_bind_run, hr3]
  constructor
  · rintro ⟨v, s', h⟩
    obtain ⟨_, s4, h4, _⟩ := Prog.bind_eq_ok h
    exact ⟨s4, h4⟩
  · rintro ⟨s4, h4⟩
    rw [Prog.bind_ok h4]
    exact ⟨_, _, rfl⟩

/-- **The daemon survives the listing** exactly when iRODS answers each question for a mode. -/
theorem listCollection_returns_iff (hm : Mirror w m own view) (hc : Collections w left)
    (hmk : Makeable m) {s : Server L R} (ho : own s.kernel) (c : CStr) :
    (∃ v s', listCollection w c m comm s = (.ok v, s')) ↔ CollAnswered w left comm c s.rods := by
  obtain ⟨s1, h1, l1, ho1, hv1⟩ := removeMirror_clears hm ho
  obtain ⟨s2, l2, _, _, hrest⟩ := listAfter_renews hm hmk ho1 hv1
  rw [listCollection_eq, Prog.bind_ok h1, hrest, listInto_returns_iff hc, l2.rods, l1.rods]

end

end NfsRods
