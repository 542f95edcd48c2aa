import NfsRods.Lib.Prog
import NfsRods.World
import NfsRods.Config.Exports

/-!
# The daemon's state

`Server L R`: the daemon's globals, with the kernel and iRODS states it runs against and, as
ghosts, the events of the run so far. Procedures are programs `M L R α` over it that return a
reply or stop the process (`Stop`).

* `sys`, `rods`: issue a call; both record it.
* `Foot E s s'`: the run from `s` to `s'` issued only events in `E`, used no other `export_path`
  than that of `s`, changed kernel and iRODS states only by issuing calls, and left the export list
  and the options cache alone. It is a preorder (`Foot.trans`), so it is proved of each function
  once and composed by `Prog.Frame.bind`.
* `Ran`: the part of `Foot` on events alone; it composes across changes of the exports, and without
  mutating events leaves store and tree as they were (`Ran.store`, `Ran.tree`).
-/

namespace NfsRods

open CStr

/-- Why the process ends before it replies. -/
inductive Stop
  /-- `strstr` or `strlen` of a `NULL` `export_path`. -/
  | nullExportPath
  /-- `strlen` of a `NULL` `ZONE`. -/
  | nullZone
  /-- `free` of a pointer that `malloc` did not return. -/
  | badFree
  /-- `strcpy` from and `free` of the pointers in an `OutputQuery` that has not been set. -/
  | unsetOutput
  /-- `daemon_exit(CRISIS)`. -/
  | daemonExit
  /-- `exit(1)`. -/
  | exit
  deriving DecidableEq, Repr

/-- An entry of the handle cache. -/
structure FhEntry where
  dev : ULong := 0
  ino : ULong := 0
  path : CStr := []
  use : Nat := 0
  deriving DecidableEq, Repr

/-- `fh_cache.c`'s table with its counters. -/
structure FhCache where
  entry : Nat → FhEntry := fun _ => {}
  max : Nat := 0
  time : Nat := 0
  lastEntry : Option Nat := none

inductive FdKind
  | read | write
  deriving DecidableEq, Repr

/-- An entry of the descriptor cache. -/
structure FdEntry where
  fd : Int := -1
  kind : FdKind := .read
  use : Int := 0
  dev : ULong := 0
  ino : ULong := 0
  gen : ULong := 0
  deriving DecidableEq, Repr

/-- `fd_cache.c`'s table with its counters. -/
structure FdCache where
  entry : Nat → FdEntry := fun _ => {}
  readers : Int := 0
  writers : Int := 0

/-- An entry of the mount list. -/
structure MountEntry where
  hostname : UInt32
  directory : CStr
  deriving DecidableEq, Repr

structure Server (L R : Type) where
  kernel : L
  rods : R
  exportList : List EItem := []
  exports : ExportVars := {}
  errno : Errno := .other 0
  /-- Library calls made so far: indexes what the world leaves undetermined. -/
  tick : Nat := 0
  fh : FhCache := {}
  stCacheValid : Bool := false
  stCache : Stat := {}
  fd : FdCache := {}
  wverf : List UInt8 := List.replicate 8 0
  rcookie : UInt64 := 0
  squashUid : UInt32 := 65534
  squashGid : UInt32 := 65534
  canSwitch : Bool := true
  /-- `aup_gids` of the request being served (`switch_groups` rewrites it in place). -/
  gids : List UInt32 := []
  mountList : List MountEntry := []
  mountCnt : Nat := 0
  nonce : List UInt8 := List.replicate 32 0
  nonces : Nat := 0
  /-- `obj_attributes` of LOOKUP's static result. -/
  lookupAttr : PostOpAttr := {}
  trace : List Event := []

/-- A program of the daemon. -/
abbrev M (L R : Type) (α : Type) : Type := Prog (Server L R) Stop α

/-- A C string literal used as a message; its text has no effect on the run. -/
abbrev Msg := String

section
variable {L R : Type} (w : World L R)

/-! ## Primitives -/

/-- Record an event. -/
def record (e : Event) : M L R Unit := Prog.modify fun s => { s with trace := s.trace ++ [e] }

/-- A library call that may leave anything in `errno`. -/
def libCall : M L R Unit :=
  Prog.modify fun s => { s with errno := w.errnoAfter s.tick s.errno, tick := s.tick + 1 }

/-- `debug`: write to the system log. -/
def debug (_ : Msg) : M L R Unit := libCall w

/-- What lies in indeterminate memory now. -/
def junk : M L R Junk := fun s => (.ok (w.junk s.tick), { s with tick := s.tick + 1 })

/-- Issue a system call: -1 and `errno` when it fails. -/
def sys (c : SysCall) : M L R Int := fun s =>
  match w.sys c s.kernel with
  | (.ok v, k) => (.ok v, { s with kernel := k, trace := s.trace ++ [.sys c] })
  | (.error e, k) => (.ok (-1), { s with kernel := k, errno := e, trace := s.trace ++ [.sys c] })

/-- Issue an iRODS call. -/
def rods (c : RodsCall) : M L R RodsReply := fun s =>
  (.ok (w.rods c s.rods).1,
    { s with rods := (w.rods c s.rods).2, errno := w.errnoAfter s.tick s.errno, tick := s.tick + 1
             trace := s.trace ++ [.rods c] })

/-- Look something up in the kernel without changing it; `errno` when it fails. -/
def query {α : Type} (f : L → Except Errno α) : M L R (Option α) := fun s =>
  match f s.kernel with
  | .ok a => (.ok (some a), s)
  | .error e => (.ok none, { s with errno := e })

/-- `lstat`. -/
def lstat (path : CStr) : M L R (Option Stat) := query fun k => w.lstat k path

/-- The exports functions run over the options cache. -/
def exportsOptionsM (path : Option CStr) (rq : SvcReq) : M L R Lookup := fun s =>
  let k := exportsOptions s.exportList rq.remote path s.exports
  (.ok k, { s with exports := k.vars })

def exportsCompatM (path : Option CStr) (rq : SvcReq) : M L R Nfsstat3 := fun s =>
  let r := exportsCompat s.exportList rq.remote path s.exports
  (.ok r.1, { s with exports := r.2 })

end

theorem exportsOptionsM_bind {L R α : Type} {s : Server L R} (path : Option CStr) (rq : SvcReq)
    (f : Lookup → M L R α) :
    (exportsOptionsM path rq >>= f) s = f (exportsOptions s.exportList rq.remote path s.exports)
      { s with exports := (exportsOptions s.exportList rq.remote path s.exports).vars } := rfl

/-! ## Footprints -/

section
variable {L R : Type} (w : World L R)

/-- The kernel state after the system calls of a trace. -/
def replaySys : List Event → L → L
  | [], k => k
  | .sys c :: t, k => replaySys t (w.sys c k).2
  | _ :: t, k => replaySys t k

/-- The iRODS state after the iRODS calls of a trace. -/
def replayRods : List Event → R → R
  | [], r => r
  | .rods c :: t, r => replayRods t (w.rods c r).2
  | _ :: t, r => replayRods t r

/-- The run from `s` to `s'` issued only events in `E` and left the exports alone (module doc). -/
structure Foot (E : Event → Prop) (s s' : Server L R) : Prop where
  run : ∃ t, s'.trace = s.trace ++ t ∧ (∀ e ∈ t, E e) ∧
    (∀ p, .exportPath p ∈ t → p = s.exports.path) ∧
    s'.kernel = replaySys w t s.kernel ∧ s'.rods = replayRods w t s.rods
  exports : s'.exports = s.exports
  exportList : s'.exportList = s.exportList

theorem replaySys_append (t t' : List Event) (k : L) :
    replaySys w (t ++ t') k = replaySys w t' (replaySys w t k) := by
  induction t generalizing k with
  | nil => rfl
  | cons e t ih => cases e <;> exact ih _

theorem replayRods_append (t t' : List Event) (r : R) :
    replayRods w (t ++ t') r = replayRods w t' (replayRods w t r) := by
  induction t generalizing r with
  | nil => rfl
  | cons e t ih => cases e <;> exact ih _

variable {w} {E E' : Event → Prop} {s s' s'' : Server L R}

theorem Foot.refl (E : Event → Prop) (s : Server L R) : Foot w E s s :=
  ⟨⟨[], by simp, by simp, by simp, rfl, rfl⟩, rfl, rfl⟩

theorem Foot.trans (h : Foot w E s s') (h' : Foot w E s' s'') : Foot w E s s'' := by
  obtain ⟨⟨t, ht, hE, hp, hk, hr⟩, he, hl⟩ := h
  obtain ⟨⟨t', ht', hE', hp', hk', hr'⟩, he', hl'⟩ := h'
  refine ⟨⟨t ++ t', ?_, ?_, ?_, ?_, ?_⟩, he'.trans he, hl'.trans hl⟩
  · rw [ht', ht, List.append_assoc]
  · intro e he
    rcases List.mem_append.1 he with he | he
    · exact hE e he
    · exact hE' e he
  · intro p hmem
    rcases List.mem_append.1 hmem with hmem | hmem
    · exact hp p hmem
    · rw [hp' p hmem, he]
  · rw [hk', hk, replaySys_append]
  · rw [hr', hr, replayRods_append]

instance : Std.Refl (Foot w E) := ⟨Foot.refl E⟩
instance : IsTrans (Server L R) (Foot w E) := ⟨fun _ _ _ => Foot.trans⟩

theorem replayRods_inv {I : R → Prop}
    (hI : ∀ c r, c.mutates = false → I r → I (w.rods c r).2) {t : List Event}
    (h : ∀ e ∈ t, ∀ c, e = .rods c → c.mutates = false) {r : R} (hr : I r) :
    I (replayRods w t r) := by
  induction t generalizing r with
  | nil => exact hr
  | cons e t ih =>
    have ht : ∀ {r : R}, I r → I (replayRods w t r) :=
      ih fun e he => h e (List.mem_cons_of_mem _ he)
    cases e with
    | rods c => exact ht (hI c r (h _ List.mem_cons_self c rfl) hr)
    | _ => exact ht hr

theorem replaySys_tree {t : List Event} (h : ∀ e ∈ t, ∀ c, e = .sys c → c.mutates = false)
    (k : L) : w.tree (replaySys w t k) = w.tree k := by
  induction t generalizing k with
  | nil => rfl
  | cons e t ih =>
    have ht := ih fun e he => h e (List.mem_cons_of_mem _ he)
    cases e with
    | sys c =>
      rw [replaySys, ht, w.sys_tree c k (h _ List.mem_cons_self c rfl)]
    | _ => exact ht k

/-- The run from `s` to `s'` issued only events in `E`, whatever became of the exports. -/
def Ran (w : World L R) (E : Event → Prop) (s s' : Server L R) : Prop :=
  ∃ t, s'.trace = s.trace ++ t ∧ (∀ e ∈ t, E e) ∧
    s'.kernel = replaySys w t s.kernel ∧ s'.rods = replayRods w t s.rods

instance : Std.Refl (Ran w E) := ⟨fun _ => ⟨[], by simp, by simp, rfl, rfl⟩⟩

instance : IsTrans (Server L R) (Ran w E) := ⟨fun s s' s'' => by
  rintro ⟨t, ht, hE, hk, hr⟩ ⟨t', ht', hE', hk', hr'⟩
  refine ⟨t ++ t', by rw [ht', ht, List.append_assoc], fun e he => ?_, ?_, ?_⟩
  · rcases List.mem_append.1 he with he | he
    · exact hE e he
    · exact hE' e he
  · rw [hk', hk, replaySys_append]
  · rw [hr', hr, replayRods_append]⟩

theorem Ran.mono (h : Ran w E s s') (hE : ∀ e, E e → E' e) : Ran w E' s s' := by
  obtain ⟨t, ht, hEt, hk, hr⟩ := h
  exact ⟨t, ht, fun e he => hE e (hEt e he), hk, hr⟩

/-- A footprint without the part on exports; the `export_path` used is the first state's. -/
theorem Foot.ran (h : Foot w E s s') :
    Ran w (fun e => E e ∧ ∀ p, e = .exportPath p → p = s.exports.path) s s' := by
  obtain ⟨⟨t, ht, hEt, hp, hk, hr⟩, _, _⟩ := h
  exact ⟨t, ht, fun e he => ⟨hEt e he, fun p hep => hp p (hep ▸ he)⟩, hk, hr⟩

/-- What every call that changes nothing keeps is kept without a mutating iRODS call. -/
theorem Ran.inv {I : R → Prop} (h : Ran w E s s') (hE : ∀ c, E (.rods c) → c.mutates = false)
    (hI : ∀ c r, c.mutates = false → I r → I (w.rods c r).2) (hs : I s.rods) : I s'.rods := by
  obtain ⟨t, _, hEt, _, hr⟩ := h
  rw [hr]
  exact replayRods_inv hI (fun e he c hc => hE c (hc ▸ hEt e he)) hs

/-- Without a mutating iRODS call the store is as it was. -/
theorem Ran.store (h : Ran w E s s') (hE : ∀ c, E (.rods c) → c.mutates = false) :
    w.store s'.rods = w.store s.rods :=
  h.inv (I := fun r => w.store r = w.store s.rods) hE
    (fun c r hc hr => (w.rods_store c r hc).trans hr) rfl

/-- Without a mutating system call the local tree is as it was. -/
theorem Ran.tree (h : Ran w E s s') (hE : ∀ c, E (.sys c) → c.mutates = false) :
    w.tree s'.kernel = w.tree s.kernel := by
  obtain ⟨t, _, hEt, hk, _⟩ := h
  rw [hk]
  exact replaySys_tree (fun e he c hc => hE c (hc ▸ hEt e he)) _

/-- Without a system call the kernel is as it was. -/
theorem Ran.kernel_eq (h : Ran w E s s') (hE : ∀ c, ¬ E (.sys c)) : s'.kernel = s.kernel := by
  have hq : ∀ (t : List Event) (k : L), (∀ e ∈ t, E e) → replaySys w t k = k := by
    intro t
    induction t with
    | nil => exact fun _ _ => rfl
    | cons e t ih =>
      intro k ht
      have hr := ih k fun e' he' => ht e' (List.mem_cons_of_mem _ he')
      cases e with
      | sys c => exact absurd (ht _ List.mem_cons_self) (hE c)
      | _ => exact hr
  obtain ⟨t, _, hEt, hk, _⟩ := h
  rw [hk, hq t s.kernel hEt]

/-- Without an iRODS call the iRODS side is as it was. -/
theorem Ran.rods_eq (h : Ran w E s s') (hE : ∀ c, ¬ E (.rods c)) : s'.rods = s.rods := by
  have hq : ∀ (t : List Event) (r : R), (∀ e ∈ t, E e) → replayRods w t r = r := by
    intro t
    induction t with
    | nil => exact fun _ _ => rfl
    | cons e t ih =>
      intro r ht
      have hr := ih r fun e' he' => ht e' (List.mem_cons_of_mem _ he')
      cases e with
      | rods c => exact absurd (ht _ List.mem_cons_self) (hE c)
      | _ => exact hr
  obtain ⟨t, _, hEt, _, hr⟩ := h
  rw [hr, hq t s.rods hEt]

/-! ### The events of a run -/

/-- The events issued between `s` and `s'`. -/
def since (s s' : Server L R) : List Event := s'.trace.drop s.trace.length

theorem since_eq {t : List Event} (h : s'.trace = s.trace ++ t) : since s s' = t := by
  rw [since, h, List.drop_left]

theorem Ran.trace_eq (h : Ran w E s s') : s'.trace = s.trace ++ since s s' := by
  obtain ⟨t, ht, _⟩ := h
  rw [since_eq ht, ht]

theorem Ran.since (h : Ran w E s s') : ∀ e ∈ since s s', E e := by
  obtain ⟨t, ht, hE, _⟩ := h
  rwa [since_eq ht]

/-- The events of two runs in a row. -/
theorem since_append (h : s'.trace = s.trace ++ since s s')
    (h' : s''.trace = s'.trace ++ since s' s'') :
    since s s'' = since s s' ++ since s' s'' :=
  since_eq (by rw [h', h, List.append_assoc, since_eq h])

theorem Foot.trace_eq (h : Foot w E s s') : s'.trace = s.trace ++ NfsRods.since s s' :=
    h.ran.trace_eq

theorem Foot.since (h : Foot w E s s') : ∀ e ∈ NfsRods.since s s', E e :=
  fun e he => (h.ran.since e he).1

/-- Events are only ever added. -/
def Grows (s s' : Server L R) : Prop := s.trace <+: s'.trace

instance : Std.Refl (Grows (L := L) (R := R)) := ⟨fun _ => List.prefix_rfl⟩
instance : IsTrans (Server L R) Grows := ⟨fun _ _ _ => List.IsPrefix.trans⟩

theorem Ran.grows (h : Ran w E s s') : Grows s s' := ⟨NfsRods.since s s', h.trace_eq.symm⟩
theorem Foot.grows (h : Foot w E s s') : Grows s s' := h.ran.grows

theorem Foot.frame_grows {α : Type} {m : M L R α} (h : Prog.Frame (Foot w E) m) :
    Prog.Frame Grows m := h.mono fun _ _ h => h.grows

theorem Grows.trace_eq (h : Grows s s') : s'.trace = s.trace ++ NfsRods.since s s' := by
  obtain ⟨t, ht⟩ := h
  rw [since_eq ht.symm, ht]

theorem Grows.since (h : Grows s s') (h' : Grows s' s'') :
    NfsRods.since s s'' = NfsRods.since s s' ++ NfsRods.since s' s'' :=
  since_append h.trace_eq h'.trace_eq

/-- From `s`, `m` issues an event of `P`. -/
def Issues {α : Type} (P : Event → Prop) (m : M L R α) (s : Server L R) : Prop :=
  ∃ ev ∈ since s (m s).2, P ev

theorem Issues.fst {α β : Type} {P : Event → Prop} {m : M L R α} {f : α → M L R β}
    (h : Issues P m s) (hm : Prog.Frame Grows m) (hf : ∀ a, Prog.Frame Grows (f a)) :
    Issues P (m >>= f) s := by
  obtain ⟨ev, hev, hP⟩ := h
  refine ⟨ev, ?_, hP⟩
  have hg := hm s
  rcases hms : m s with ⟨st | a, s1⟩
  · rw [Prog.bind_error hms]
    rwa [hms] at hev
  · rw [hms] at hev hg
    rw [Prog.bind_ok hms, hg.since (hf a s1)]
    exact List.mem_append_left _ hev

theorem Issues.snd {α β : Type} {P : Event → Prop} {m : M L R α} {f : α → M L R β} {a : α}
    (hm : m s = (.ok a, s')) (hg : Grows s s') (hf : Prog.Frame Grows (f a))
    (h : Issues P (f a) s') : Issues P (m >>= f) s := by
  obtain ⟨ev, hev, hP⟩ := h
  refine ⟨ev, ?_, hP⟩
  rw [Prog.bind_ok hm, hg.since (hf s')]
  exact List.mem_append_right _ hev

theorem Issues.pure_bind {α β : Type} {P : Event → Prop} {f : α → M L R β} {a : α}
    (h : Issues P (f a) s) : Issues P (pure a >>= f) s := h

/-- From `s`, `m` issues only events of `P`. -/
def Only {α : Type} (P : Event → Prop) (m : M L R α) (s : Server L R) : Prop :=
  ∀ ev ∈ since s (m s).2, P ev

/-- What was issued before does not matter when it was events of `P`. -/
theorem only_run {α β : Type} {P : Event → Prop} {m : M L R α} {n : M L R β}
    (hm : (m s).2 = (n s').2) (h : Ran w P s s') (hn : Grows s' (n s').2) :
    Only P m s ↔ Only P n s' := by
  unfold Only
  rw [hm, h.grows.since hn, List.forall_mem_append, and_iff_right h.since]

/-- After a first part that issued only events of `P`, the second decides. -/
theorem only_bind_ok {α β : Type} {P : Event → Prop} {m : M L R α} {f : α → M L R β} {a : α}
    (hm : m s = (.ok a, s')) (h : Ran w P s s') (hf : Grows s' (f a s').2) :
    Only P (m >>= f) s ↔ Only P (f a) s' :=
  only_run (by rw [Prog.bind_ok hm]) h hf

/-- Before a second part that issues only events of `P`, the first decides. -/
theorem only_bind_frame {α β : Type} {P : Event → Prop} {m : M L R α} {f : α → M L R β}
    (hm : Prog.Frame Grows m) (hf : ∀ a, Prog.Frame (Ran w P) (f a)) :
    Only P (m >>= f) s ↔ Only P m s := by
  unfold Only
  have hg := hm s
  rcases hms : m s with ⟨st | a, s1⟩
  · rw [Prog.bind_error hms]
  · rw [hms] at hg
    rw [Prog.bind_ok hms, hg.since (hf a s1).grows, List.forall_mem_append,
      and_iff_left (hf a s1).since]

/-- Both parts of a sequence issue only events of `P`. -/
theorem only_bind {α β : Type} {P : Event → Prop} {m : M L R α} {f : α → M L R β}
    (hm : Prog.Frame Grows m) (hf : ∀ a, Prog.Frame Grows (f a)) :
    Only P (m >>= f) s ↔ Only P m s ∧ ∀ a s1, m s = (.ok a, s1) → Only P (f a) s1 := by
  unfold Only
  have hg := hm s
  rcases hms : m s with ⟨st | a, s1⟩
  · rw [Prog.bind_error hms]
    exact ⟨fun h => ⟨h, fun _ _ h' => by cases h'⟩, fun h => h.1⟩
  · rw [hms] at hg
    rw [Prog.bind_ok hms, hg.since (hf a s1), List.forall_mem_append]
    refine and_congr_right fun _ => ⟨fun h a' s1' h' => ?_, fun h => h a s1 rfl⟩
    obtain ⟨⟨⟨⟩⟩, rfl⟩ := Prod.mk.inj h'
    exact h

theorem Ran.only {α : Type} {P : Event → Prop} {m : M L R α} (h : Prog.Frame (Ran w P) m)
    (s : Server L R) : Only P m s := (h s).since

theorem only_sys {P : Event → Prop} (c : SysCall) (s : Server L R) :
    Only P (sys w c) s ↔ P (.sys c) := by
  unfold Only sys
  rcases w.sys c s.kernel with ⟨_ | v, k⟩ <;> simp [since]

theorem only_rods {P : Event → Prop} (c : RodsCall) (s : Server L R) :
    Only P (rods w c) s ↔ P (.rods c) := by simp [Only, rods, since]

/-! ### What is said to iRODS -/

/-- The iRODS calls of a trace from iRODS state `r`, each with its answer. -/
def replies (w : World L R) : List Event → R → List (RodsCall × RodsReply)
  | [], _ => []
  | .rods c :: t, r => (c, (w.rods c r).1) :: replies w t (w.rods c r).2
  | _ :: t, r => replies w t r

theorem replies_append (t t' : List Event) (r : R) :
    replies w (t ++ t') r = replies w t r ++ replies w t' (replayRods w t r) := by
  induction t generalizing r with
  | nil => rfl
  | cons e t ih => cases e <;> simp [replies, replayRods, ih]

theorem mem_replies {t : List Event} {r : R} {x : RodsCall × RodsReply} (h : x ∈ replies w t r) :
    .rods x.1 ∈ t := by
  induction t generalizing r with
  | nil => cases h
  | cons e t ih =>
    cases e with
    | rods c =>
      rcases List.mem_cons.1 h with rfl | h
      · exact List.mem_cons_self
      · exact List.mem_cons_of_mem _ (ih h)
    | _ => exact List.mem_cons_of_mem _ (ih h)

theorem Ran.rods_replay (h : Ran w E s s') :
    s'.rods = replayRods w (NfsRods.since s s') s.rods := by
  obtain ⟨t, ht, _, _, hr⟩ := h
  rw [since_eq ht, hr]

/-- What the run of `m` from `s` says to iRODS, and what it is answered. -/
def talk {α : Type} (w : World L R) (m : M L R α) (s : Server L R) : List (RodsCall × RodsReply) :=
  replies w (since s (m s).2) s.rods

/-- A run talks as it goes on, after a part that talks first. -/
theorem talk_run {α β : Type} {m : M L R α} {n : M L R β} (hm : (m s).2 = (n s').2)
    (h : Ran w E s s') (hn : Grows s' (n s').2) :
    talk w m s = replies w (since s s') s.rods ++ talk w n s' := by
  rw [talk, talk, hm, h.grows.since hn, replies_append, h.rods_replay]

theorem talk_bind_ok {α β : Type} {m : M L R α} {f : α → M L R β} {a : α}
    (hm : m s = (.ok a, s')) (h : Ran w E s s') (hf : Grows s' (f a s').2) :
    talk w (m >>= f) s = talk w m s ++ talk w (f a) s' := by
  have ht : talk w m s = replies w (since s s') s.rods := by rw [talk, hm]
  rw [talk_run (n := f a) (by rw [Prog.bind_ok hm]) h hf, ht]

theorem talk_rods (c : RodsCall) (s : Server L R) :
    talk w (rods w c) s = [(c, (w.rods c s.rods).1)] := by simp [talk, rods, since, replies]

/-- The system calls of a trace from kernel state `k`, each with its result. -/
def sysReplies (w : World L R) : List Event → L → List (SysCall × Except Errno Int)
  | [], _ => []
  | .sys c :: t, k => (c, (w.sys c k).1) :: sysReplies w t (w.sys c k).2
  | _ :: t, k => sysReplies w t k

theorem sysReplies_append (t t' : List Event) (k : L) :
    sysReplies w (t ++ t') k = sysReplies w t k ++ sysReplies w t' (replaySys w t k) := by
  induction t generalizing k with
  | nil => rfl
  | cons e t ih => cases e <;> simp [sysReplies, replaySys, ih]

theorem Ran.sys_replay (h : Ran w E s s') :
    s'.kernel = replaySys w (NfsRods.since s s') s.kernel := by
  obtain ⟨t, ht, _, hk, _⟩ := h
  rw [since_eq ht, hk]

/-- From `s`, `m` is given an answer of `Q`. -/
def Hears {α : Type} (w : World L R) (Q : RodsCall × RodsReply → Prop) (m : M L R α)
    (s : Server L R) : Prop := ∃ x ∈ talk w m s, Q x

/-- No event of `E` is a call that could be given an answer of `Q`. -/
def Deaf (Q : RodsCall × RodsReply → Prop) (ev : Event) : Prop :=
    ∀ c, ev = .rods c → ∀ a, ¬ Q (c, a)

theorem Ran.deaf {Q : RodsCall × RodsReply → Prop} (h : Ran w (Deaf Q) s s') :
    ∀ x ∈ replies w (NfsRods.since s s') s.rods, ¬ Q x :=
  fun x hx => h.since _ (mem_replies hx) x.1 rfl x.2

/-- What comes before does not matter when nothing of `Q` is heard in it. -/
theorem hears_run {α β : Type} {Q : RodsCall × RodsReply → Prop} {m : M L R α} {n : M L R β}
    (hm : (m s).2 = (n s').2) (h : Ran w (Deaf Q) s s') (hn : Grows s' (n s').2) :
    Hears w Q m s ↔ Hears w Q n s' := by
  unfold Hears
  rw [talk_run hm h hn]
  simp only [List.mem_append]
  constructor
  · rintro ⟨x, hx | hx, hq⟩
    · exact absurd hq (h.deaf x hx)
    · exact ⟨x, hx, hq⟩
  · rintro ⟨x, hx, hq⟩
    exact ⟨x, .inr hx, hq⟩

theorem hears_bind_ok {α β : Type} {Q : RodsCall × RodsReply → Prop} {m : M L R α} {f : α → M L R β}
    {a : α} (hm : m s = (.ok a, s')) (h : Ran w (Deaf Q) s s') (hf : Grows s' (f a s').2) :
    Hears w Q (m >>= f) s ↔ Hears w Q (f a) s' :=
  hears_run (by rw [Prog.bind_ok hm]) h hf

/-- What comes after does not matter when nothing of `Q` is heard in it. -/
theorem hears_bind_frame {α β : Type} {Q : RodsCall × RodsReply → Prop} {m : M L R α}
    {f : α → M L R β} (hm : Prog.Frame (Ran w fun _ => True) m)
    (hf : ∀ a, Prog.Frame (Ran w (Deaf Q)) (f a)) : Hears w Q (m >>= f) s ↔ Hears w Q m s := by
  have hg := hm s
  unfold Hears
  rcases hms : m s with ⟨st | a, s1⟩
  · have ht : talk w (m >>= f) s = talk w m s := by rw [talk, talk, Prog.bind_error hms, hms]
    rw [ht]
  · rw [hms] at hg
    rw [talk_bind_ok hms hg (hf a s1).grows]
    simp only [List.mem_append]
    constructor
    · rintro ⟨x, hx | hx, hq⟩
      · exact ⟨x, hx, hq⟩
      · exact absurd hq ((hf a s1).deaf x hx)
    · rintro ⟨x, hx, hq⟩
      exact ⟨x, .inl hx, hq⟩

theorem hears_rods {Q : RodsCall × RodsReply → Prop} (c : RodsCall) (s : Server L R) :
    Hears w Q (rods w c) s ↔ Q (c, (w.rods c s.rods).1) := by
  rw [Hears, talk_rods]
  simp

/-! ### Runs that change little -/

/-- `s'` differs from `s` only in `errno`, the counter of library calls and the trace. -/
def Tacit (s s' : Server L R) : Prop :=
  s' = { s with errno := s'.errno, tick := s'.tick, trace := s'.trace }

/-- `s'` differs from `s` in nothing but this and the iRODS side. -/
def Aside (s s' : Server L R) : Prop :=
  s' = { s with errno := s'.errno, tick := s'.tick, trace := s'.trace, rods := s'.rods }

instance : Std.Refl (Tacit (L := L) (R := R)) := ⟨fun _ => rfl⟩
instance : IsTrans (Server L R) Tacit := ⟨fun s s' s'' h h' => by
  unfold Tacit at h h' ⊢
  rw [h', h]⟩

instance : Std.Refl (Aside (L := L) (R := R)) := ⟨fun _ => rfl⟩
instance : IsTrans (Server L R) Aside := ⟨fun s s' s'' h h' => by
  unfold Aside at h h' ⊢
  rw [h', h]⟩

/-- `s'` differs from `s` only on the kernel's side. -/
def KernelOnly (s s' : Server L R) : Prop :=
  s' = { s with kernel := s'.kernel, errno := s'.errno, trace := s'.trace }

instance : Std.Refl (KernelOnly (L := L) (R := R)) := ⟨fun _ => rfl⟩
instance : IsTrans (Server L R) KernelOnly := ⟨fun s s' s'' h h' => by
  unfold KernelOnly at h h' ⊢
  rw [h', h]⟩

theorem KernelOnly.rods (h : KernelOnly s s') : s'.rods = s.rods := by rw [h]
theorem KernelOnly.exports (h : KernelOnly s s') : s'.exports = s.exports := by rw [h]

theorem Tacit.aside (h : Tacit s s') : Aside s s' := by
  unfold Tacit at h
  unfold Aside
  rw [h]

theorem Tacit.rods (h : Tacit s s') : s'.rods = s.rods := by rw [h]
theorem Aside.kernel (h : Aside s s') : s'.kernel = s.kernel := by rw [h]
theorem Aside.exports (h : Aside s s') : s'.exports = s.exports := by rw [h]
theorem Tacit.exports (h : Tacit s s') : s'.exports = s.exports := h.aside.exports
theorem Tacit.kernel (h : Tacit s s') : s'.kernel = s.kernel := h.aside.kernel
theorem Tacit.lookupAttr (h : Tacit s s') : s'.lookupAttr = s.lookupAttr := by rw [h]
theorem Tacit.stCacheValid (h : Tacit s s') : s'.stCacheValid = s.stCacheValid := by rw [h]
theorem Tacit.stCache (h : Tacit s s') : s'.stCache = s.stCache := by rw [h]
theorem Tacit.exportList (h : Tacit s s') : s'.exportList = s.exportList := by rw [h]

/-- What a system call returns in kernel state `k`. -/
def sysResult (w : World L R) (c : SysCall) (k : L) : Int :=
  match (w.sys c k).1 with
  | .ok v => v
  | .error _ => -1

/-- A system call: what it returns, and all that it changes. -/
theorem sys_step (c : SysCall) (s : Server L R) :
    ∃ s', sys w c s = (.ok (sysResult w c s.kernel), s') ∧ KernelOnly s s' ∧
      s'.kernel = (w.sys c s.kernel).2 ∧ s'.trace = s.trace ++ [.sys c] := by
  unfold sys sysResult
  rcases w.sys c s.kernel with ⟨_ | v, k⟩ <;> exact ⟨_, rfl, rfl, rfl, rfl⟩

theorem sys_ends (c : SysCall) (s : Server L R) :
    ∃ s', sys w c s = (.ok (sysResult w c s.kernel), s') ∧ KernelOnly s s' ∧
      s'.kernel = (w.sys c s.kernel).2 := by
  obtain ⟨s', h, hk, hkernel, -⟩ := sys_step (w := w) c s
  exact ⟨s', h, hk, hkernel⟩

theorem sys_trace (c : SysCall) (s : Server L R) : ∃ s',
    sys w c s = (.ok (sysResult w c s.kernel), s') ∧ s'.rods = s.rods ∧
      s'.trace = s.trace ++ [.sys c] := by
  obtain ⟨s', h, hk, -, htrace⟩ := sys_step (w := w) c s
  exact ⟨s', h, hk.rods, htrace⟩

theorem sys_returns (c : SysCall) : Prog.Returns (sys w c) := fun s => by
  obtain ⟨s', h, _⟩ := sys_ends (w := w) c s
  exact ⟨_, s', h⟩

theorem libCall_tacit : Prog.Frame Tacit (libCall w : M L R Unit) := fun _ => rfl

theorem debug_tacit (m : Msg) (s : Server L R) : Prog.Ends Tacit (debug w m) s (.ok ()) :=
  ⟨_, rfl, rfl⟩

theorem query_ok {α : Type} {f : L → Except Errno α} {a : α} (h : f s.kernel = .ok a) :
    (query f : M L R (Option α)) s = (.ok (some a), s) := by
  simp only [query, h]

theorem query_error {α : Type} {f : L → Except Errno α} {e : Errno} (h : f s.kernel = .error e) :
    (query f : M L R (Option α)) s = (.ok none, { s with errno := e }) := by
  simp only [query, h]

theorem query_tacit {α : Type} (f : L → Except Errno α) :
    Prog.Frame Tacit (query f : M L R (Option α)) := by
  intro s
  unfold query
  split <;> rfl

/-- Calm events include the system calls that change nothing. -/
theorem calm_sys (hE : ∀ e, e.calm = true → E e) (c : SysCall) (hc : c.mutates = false) :
    E (.sys c) := hE _ (by simp [Event.calm, Event.mutates, hc])

/-- Calm events include the uses of `export_path`. -/
theorem calm_path (hE : ∀ e, e.calm = true → E e) (p : Option CStr) : E (.exportPath p) := hE _ rfl

/-! ### Frames of the primitives -/

/-- `s'` differs from `s` in variables of the daemon other than the exports and the handle cache. -/
structure Own (s s' : Server L R) : Prop where
  trace : s'.trace = s.trace
  kernel : s'.kernel = s.kernel
  rods : s'.rods = s.rods
  exports : s'.exports = s.exports
  exportList : s'.exportList = s.exportList
  fh : s'.fh = s.fh

/-- A relation that allows the daemon to change its own variables. What is said of such relations
once holds of `Foot` and of every other frame. -/
class OwnFrame (r : Server L R → Server L R → Prop) : Prop extends Std.Refl r,
    IsTrans (Server L R) r where
  own : ∀ {s s' : Server L R}, Own s s' → r s s'

/-- `r` allows the events of `E`. -/
class Allows (w : World L R) (E : outParam (Event → Prop))
    (r : Server L R → Server L R → Prop) : Prop where
  sys : ∀ {c : SysCall}, E (.sys c) → Prog.Frame r (sys w c)
  rods : ∀ {c : RodsCall}, E (.rods c) → Prog.Frame r (rods w c)
  path : ∀ s : Server L R, E (.exportPath s.exports.path) →
    r s { s with trace := s.trace ++ [.exportPath s.exports.path] }
  copy : ∀ {filled : Bool} {len : Nat}, E (.toArray filled len) →
    Prog.Frame r (record (.toArray filled len) : M L R Unit)
  listed : ∀ {name : CStr}, E (.listed name) → Prog.Frame r (record (.listed name) : M L R Unit)

instance : OwnFrame (Foot w E) where
  own h := ⟨⟨[], by simp [h.trace], by simp, by simp, h.kernel, h.rods⟩, h.exports, h.exportList⟩

instance : Allows w E (Foot w E) where
  sys {c} h s := by
    unfold NfsRods.sys
    rcases hs : w.sys c s.kernel with ⟨_ | v, k⟩ <;>
      exact ⟨⟨[.sys c], rfl, by simpa using h, by simp, by simp [replaySys, hs], rfl⟩, rfl, rfl⟩
  rods {c} h _ := ⟨⟨[.rods c], rfl, by simpa using h, by simp, rfl, rfl⟩, rfl, rfl⟩
  path s h := ⟨⟨[.exportPath s.exports.path], rfl, by simpa using h, by simp, rfl, rfl⟩, rfl, rfl⟩
  copy {filled len} h _ :=
    ⟨⟨[.toArray filled len], rfl, by simpa using h, by simp, rfl, rfl⟩, rfl, rfl⟩
  listed {name} h _ := ⟨⟨[.listed name], rfl, by simpa using h, by simp, rfl, rfl⟩, rfl, rfl⟩

instance : OwnFrame (Ran w E) where
  own h := ⟨[], by simp [h.trace], by simp, h.kernel, h.rods⟩

instance : Allows w E (Ran w E) where
  sys h s := (Allows.sys (r := Foot w E) h s).ran.mono fun _ h => h.1
  rods h s := (Allows.rods (r := Foot w E) h s).ran.mono fun _ h => h.1
  path s h := (Allows.path (r := Foot w E) w s h).ran.mono fun _ h => h.1
  copy h s := (Allows.copy (r := Foot w E) (w := w) h s).ran.mono fun _ h => h.1
  listed h s := (Allows.listed (r := Foot w E) (w := w) h s).ran.mono fun _ h => h.1

instance : OwnFrame (Grows (L := L) (R := R)) where
  own h := by rw [Grows, h.trace]

instance : Allows w (fun _ => True) Grows where
  sys h s := (Allows.sys (r := Foot w fun _ => True) h s).ran.grows
  rods h s := (Allows.rods (r := Foot w fun _ => True) h s).ran.grows
  path s h := (Allows.path (r := Foot w fun _ => True) w s h).ran.grows
  copy h s := (Allows.copy (r := Foot w fun _ => True) (w := w) h s).ran.grows
  listed h s := (Allows.listed (r := Foot w fun _ => True) (w := w) h s).ran.grows

section
variable {r : Server L R → Server L R → Prop}

theorem sys_frame [Allows w E r] {c : SysCall} (h : E (.sys c)) : Prog.Frame r (sys w c) :=
  Allows.sys h

theorem rods_frame [Allows w E r] {c : RodsCall} (h : E (.rods c)) : Prog.Frame r (rods w c) :=
  Allows.rods h

variable [OwnFrame r]

theorem modify_frame {f : Server L R → Server L R} (h : ∀ s, Own s (f s)) :
    Prog.Frame r (Prog.modify f : M L R Unit) := fun s => OwnFrame.own (h s)

theorem libCall_frame : Prog.Frame r (libCall w : M L R Unit) :=
  modify_frame fun _ => ⟨rfl, rfl, rfl, rfl, rfl, rfl⟩

theorem debug_frame (m : Msg) : Prog.Frame r (debug w m : M L R Unit) := libCall_frame

theorem junk_frame : Prog.Frame r (junk w : M L R Junk) :=
  fun _ => OwnFrame.own ⟨rfl, rfl, rfl, rfl, rfl, rfl⟩

theorem query_frame {α : Type} (f : L → Except Errno α) :
    Prog.Frame r (query f : M L R (Option α)) := by
  intro s
  unfold query
  split <;> exact OwnFrame.own ⟨rfl, rfl, rfl, rfl, rfl, rfl⟩

theorem lstat_frame (path : CStr) : Prog.Frame r (lstat w path) := query_frame _

end

/-! ### Footprints of the primitives -/

/-- A change of the daemon's own variables other than the exports. -/
theorem modify_foot {f : Server L R → Server L R}
    (h : ∀ s, (f s).trace = s.trace ∧ (f s).kernel = s.kernel ∧ (f s).rods = s.rods ∧
      (f s).exports = s.exports ∧ (f s).exportList = s.exportList) :
    Prog.Frame (Foot w E) (Prog.modify f : M L R Unit) := by
  intro s
  obtain ⟨h1, h2, h3, h4, h5⟩ := h s
  exact ⟨⟨[], by simp [h1], by simp, by simp, h2, h3⟩, h4, h5⟩

theorem rods_returns (c : RodsCall) : Prog.Returns (rods w c) := fun _ => ⟨_, _, rfl⟩

theorem rods_issues {P : Event → Prop} {c : RodsCall} (h : P (.rods c)) (s : Server L R) :
    Issues P (rods w c) s := ⟨.rods c, by simp [since, rods], h⟩

theorem debug_returns (m : Msg) : Prog.Returns (debug w m : M L R Unit) := fun _ => ⟨_, _, rfl⟩

theorem query_returns {α : Type} (f : L → Except Errno α) :
    Prog.Returns (query f : M L R (Option α)) := by
  intro s
  unfold query
  split <;> exact ⟨_, _, rfl⟩

end

end NfsRods
