import NfsRods.Lib.Shell
import NfsRods.Proof.AccessQuery
import NfsRods.Sandbox

/-!
# The command lines of `listCollection`

For each data object iRODS lists, `listCollection` runs `echo " " > PATH` and `chmod MODE PATH`
through a shell, with the path of the object's mirror file appended unquoted.

* `Listing`: the shape of what `listCollection` issues (`listCollection_lists`).
* `command_lines_iff`: every line is the simple command it is meant to be exactly when every path is
  free of the bytes the shell treats specially.
-/

namespace NfsRods

open CStr
open Prog (Frame Returns)
open Shell (PlainTarget PlainArg simple)

/-! ## The two lines -/

/-- The mode `chmod` is given. -/
def chmodMode (dataMode : Int) : CStr :=
  if dataMode = 1200 then lit "600"
  else if dataMode = 1120 then lit "200"
  else if dataMode = 1050 then lit "400"
  else lit "000"

/-- The command `echo " "` with its output redirected to `path`. -/
def echoSimple (path : CStr) : Shell.Simple := { words := [lit "echo", lit " "], out := [path] }

/-- The command `chmod mode path`. -/
def chmodSimple (mode path : CStr) : Shell.Simple := { words := [lit "chmod", mode, path] }

/-- What stands before the path of the first line. -/
theorem echo_lead : ∃ ts, Shell.Lead (lit "echo" ++ [32] ++ (34 :: (lit " " ++ [34, 32])) ++
    ([62] ++ [32])) (ts ++ [.op (lit ">")]) ∧ Shell.Args ts [lit "echo", lit " "] := by
  have hecho : Shell.Lead (lit "echo" ++ [32]) [.word (Shell.bare (lit "echo"))] :=
    .word (by decide) (by decide) (by decide) (by decide)
  have hblank : Shell.Lead (34 :: (lit " " ++ [34, 32])) [.word ((lit " ").map (⟨·, true⟩))] :=
    .quoted (by decide) (by decide)
  have hop : Shell.Lead ([62] ++ [32]) [.op (lit ">")] :=
    (Shell.Lead.op (by decide) (by decide) (by decide)).append (.blank (by decide))
  exact ⟨_, (hecho.append hblank).append hop, .cons (by decide) (.cons (by decide) .nil)⟩

theorem isName_echo : Shell.isName (lit "echo") = true := by decide

theorem simple_echo_iff (path : CStr) :
    simple (echoCommand path) = some (echoSimple path) ↔ PlainTarget path := by
  obtain ⟨ts, hl, ha⟩ := echo_lead
  exact Shell.simple_target_iff hl ha isName_echo path

theorem simple_echo_words {path : CStr} {c : Shell.Simple}
    (h : simple (echoCommand path) = some c) : [lit "echo", lit " "] <+: c.words := by
  obtain ⟨ts, hl, ha⟩ := echo_lead
  exact hl.words ha isName_echo h

theorem chmodMode_plain (m : Int) : PlainArg (chmodMode m) := by
  unfold chmodMode
  split_ifs <;> exact ⟨⟨by decide, by decide, by decide, by decide⟩, by decide⟩

theorem chmodCommand_eq (m : Int) (path : CStr) :
    chmodCommand m path = lit "chmod" ++ [32] ++ (chmodMode m ++ [32]) ++ path := by
  unfold chmodCommand chmodMode
  split_ifs <;> rfl

/-- The first two words of the line. -/
theorem chmod_lead (m : Int) : ∃ ts, Shell.Lead (lit "chmod" ++ [32] ++ (chmodMode m ++ [32])) ts ∧
    Shell.Args ts [lit "chmod", chmodMode m] := by
  have hm := chmodMode_plain m
  have hchmod : Shell.Lead (lit "chmod" ++ [32]) [.word (Shell.bare (lit "chmod"))] :=
    .word (by decide) (by decide) (by decide) (by decide)
  have hmode : Shell.Lead (chmodMode m ++ [32]) [.word (Shell.bare (chmodMode m))] :=
    .word hm.bytes hm.hash hm.ne_nil (by decide)
  exact ⟨_, hchmod.append hmode, .cons (by decide) (.cons (Shell.arg_bare hm) .nil)⟩

theorem isName_chmod : Shell.isName (lit "chmod") = true := by decide

theorem simple_chmod_iff (m : Int) (path : CStr) :
    simple (chmodCommand m path) = some (chmodSimple (chmodMode m) path) ↔ PlainArg path := by
  obtain ⟨ts, hl, ha⟩ := chmod_lead m
  rw [chmodCommand_eq]
  exact Shell.simple_arg_iff hl ha isName_chmod path

theorem simple_chmod_words {m : Int} {path : CStr} {c : Shell.Simple}
    (h : simple (chmodCommand m path) = some c) : [lit "chmod", chmodMode m] <+: c.words := by
  obtain ⟨ts, hl, ha⟩ := chmod_lead m
  rw [chmodCommand_eq] at h
  have hl' : Shell.Lead (lit "chmod" ++ [32] ++ (chmodMode m ++ [32])) (ts ++ []) := by
    rwa [List.append_nil]
  exact hl'.words ha isName_chmod h

/-! ## What `listCollection` issues -/

/-- The event is neither a data object listed nor a command line. -/
def Event.aside : Event → Bool
  | .listed _ | .sys (.system _) => false
  | _ => true

/-- The events of a listing into `folder`: for each data object its two lines, with other events
before, between and after; where it is `cut` off, the last data object has only the first. -/
inductive Listing (folder : CStr) : Bool → List Event → Prop
  | nil : Listing folder false []
  | aside {cut : Bool} {ev : Event} {t : List Event} (h : ev.aside = true)
    (ht : Listing folder cut t) : Listing folder cut (ev :: t)
  | entry {cut : Bool} (name : CStr) (m : Int) {mid t : List Event}
    (h : ∀ ev ∈ mid, ev.aside = true) (ht : Listing folder cut t) :
    Listing folder cut (.listed name ::
      .sys (.system (echoCommand (folder ++ root ++ name))) ::
      (mid ++ .sys (.system (chmodCommand m (folder ++ root ++ name))) :: t))
  | cut (name : CStr) {mid : List Event} (h : ∀ ev ∈ mid, ev.aside = true) :
    Listing folder true (.listed name ::
      .sys (.system (echoCommand (folder ++ root ++ name))) :: mid)

theorem Listing.append {folder : CStr} {cut : Bool} {t u : List Event} (h : Listing folder false t)
    (hu : Listing folder cut u) : Listing folder cut (t ++ u) := by
  generalize hc : false = c at h
  induction h with
  | nil => exact hu
  | aside hev _ ih => exact .aside hev (ih hc)
  | entry name m hmid _ ih =>
    simpa only [List.cons_append, List.append_assoc] using Listing.entry name m hmid (ih hc)
  | cut => cases hc

theorem Listing.of_aside {folder : CStr} {t : List Event} (h : ∀ ev ∈ t, ev.aside = true) :
    Listing folder false t := by
  induction t with
  | nil => exact .nil
  | cons ev t ih =>
    exact .aside (h ev List.mem_cons_self) (ih fun ev' hev' => h ev' (List.mem_cons_of_mem _ hev'))

/-- The data object an event begins with. -/
def Event.object : Event → Option CStr
  | .listed name => some name
  | _ => none

theorem Event.object_aside {ev : Event} (h : ev.aside = true) : ev.object = none := by
  cases ev <;> first | rfl | cases h

/-- The data objects of a run, in order. -/
def objects (t : List Event) : List CStr := t.filterMap (·.object)

theorem mem_objects {name : CStr} {t : List Event} : name ∈ objects t ↔ .listed name ∈ t := by
  rw [objects, List.mem_filterMap]
  constructor
  · rintro ⟨ev, hev, h⟩
    cases ev with
    | listed n =>
      obtain rfl := Option.some.inj h
      exact hev
    | _ => cases h
  · exact fun h => ⟨_, h, rfl⟩

@[simp] theorem objects_listed (name : CStr) (t : List Event) :
    objects (.listed name :: t) = name :: objects t := rfl

theorem objects_asides {mid : List Event} (h : ∀ ev ∈ mid, ev.aside = true) (t : List Event) :
    objects (mid ++ t) = objects t := by
  rw [objects, List.filterMap_append,
    List.filterMap_eq_nil_iff.2 fun ev hev => Event.object_aside (h ev hev)]
  rfl

/-- The data objects whose second line is issued: all, or all but the last. -/
def moded (cut : Bool) (t : List Event) : List CStr :=
  if cut then (objects t).dropLast else objects t

/-- Each command line of a run with the data object listed last before it. -/
def commandLines : Option CStr → List Event → List (Option CStr × CStr)
  | _, [] => []
  | _, .listed name :: t => commandLines (some name) t
  | o, .sys (.system c) :: t => (o, c) :: commandLines o t
  | o, _ :: t => commandLines o t

/-- The line is one of the two commands meant for the data object `name`. -/
def Intended (folder name line : CStr) : Prop :=
  simple line = some (echoSimple (folder ++ root ++ name)) ∨
    ∃ m, simple line = some (chmodSimple (chmodMode m) (folder ++ root ++ name))

theorem commandLines_aside {o : Option CStr} {ev : Event} {t : List Event} (h : ev.aside = true) :
    commandLines o (ev :: t) = commandLines o t := by
  cases ev with
  | sys c => cases c <;> first | rfl | cases h
  | listed _ => cases h
  | _ => rfl

theorem commandLines_asides {o : Option CStr} {mid t : List Event}
    (h : ∀ ev ∈ mid, ev.aside = true) :
    commandLines o (mid ++ t) = commandLines o t := by
  induction mid with
  | nil => rfl
  | cons ev mid ih =>
    rw [List.cons_append, commandLines_aside (h ev List.mem_cons_self),
      ih fun ev' hev' => h ev' (List.mem_cons_of_mem _ hev')]

/-- The two lines of a data object are what they are meant to be exactly when its path is plain. -/
theorem intended_iff (folder name : CStr) (m : Int) :
    (Intended folder name (echoCommand (folder ++ root ++ name)) ∧
      Intended folder name (chmodCommand m (folder ++ root ++ name))) ↔
        PlainArg (folder ++ root ++ name) := by
  constructor
  · rintro ⟨_, h | ⟨m', h⟩⟩
    · have hw := simple_chmod_words h
      simp only [echoSimple, List.cons_prefix_cons] at hw
      exact absurd hw.1 (by decide)
    · have hw := simple_chmod_words h
      simp only [chmodSimple, List.cons_prefix_cons, true_and] at hw
      rw [← hw.1] at h
      exact (simple_chmod_iff m _).1 h
  · intro h
    exact ⟨.inl ((simple_echo_iff _).2 h.toPlainTarget), .inr ⟨m, (simple_chmod_iff m _).2 h⟩⟩

/-- The first line alone is what it is meant to be for more paths. -/
theorem intended_echo_iff (folder name : CStr) :
    Intended folder name (echoCommand (folder ++ root ++ name)) ↔
      PlainTarget (folder ++ root ++ name) := by
  rw [← simple_echo_iff]
  refine ⟨fun h => h.resolve_right ?_, .inl⟩
  rintro ⟨m, h⟩
  have hwords := simple_echo_words h
  simp only [chmodSimple, List.cons_prefix_cons] at hwords
  exact absurd hwords.1 (by decide)

/-- A listing that is cut off has a data object. -/
theorem Listing.objects_ne_nil {folder : CStr} {t : List Event} (h : Listing folder true t) :
    objects t ≠ [] := by
  generalize hc : true = c at h
  induction h with
  | nil => cases hc
  | @aside _ ev t hev _ ih =>
    have := objects_asides (List.forall_mem_singleton.2 hev) t
    rw [List.singleton_append] at this
    rw [this]
    exact ih hc
  | entry => exact List.cons_ne_nil _ _
  | cut => exact List.cons_ne_nil _ _

theorem Listing.lines_iff {folder : CStr} {cut : Bool} {t : List Event} (h : Listing folder cut t)
    (o : Option CStr) :
    (∀ l ∈ commandLines o t, ∃ name, l.1 = some name ∧ Intended folder name l.2) ↔
      (∀ name ∈ objects t, PlainTarget (folder ++ root ++ name)) ∧
        ∀ name ∈ moded cut t, PlainArg (folder ++ root ++ name) := by
  induction h generalizing o with
  | nil => simp [commandLines, moded, objects]
  | @aside cut ev t hev _ ih =>
    have hobj := objects_asides (List.forall_mem_singleton.2 hev) t
    rw [List.singleton_append] at hobj
    rw [commandLines_aside hev, ih, moded, moded, hobj]
  | @entry cut name m mid t hmid ht ih =>
    have hobj : objects (.listed name :: .sys (.system (echoCommand (folder ++ root ++ name))) ::
        (mid ++ .sys (.system (chmodCommand m (folder ++ root ++ name))) :: t)) =
          name :: objects t := by
      have := objects_asides hmid (.sys (.system (chmodCommand m (folder ++ root ++ name))) :: t)
      simp only [objects_listed, List.cons.injEq, true_and]
      exact this
    have hmoded : moded cut (.listed name ::
        .sys (.system (echoCommand (folder ++ root ++ name))) ::
          (mid ++ .sys (.system (chmodCommand m (folder ++ root ++ name))) :: t)) =
        name :: moded cut t := by
      cases cut with
      | false => exact hobj
      | true =>
        rw [moded, moded, if_pos rfl, if_pos rfl, hobj]
        exact List.dropLast_cons_of_ne_nil ht.objects_ne_nil
    rw [hobj, hmoded]
    simp only [commandLines, commandLines_asides hmid, List.forall_mem_cons, Option.some.injEq,
      exists_eq_left', ih, ← and_assoc, intended_iff]
    constructor
    · rintro ⟨⟨hp, ht⟩, ha⟩
      exact ⟨⟨⟨hp.toPlainTarget, ht⟩, hp⟩, ha⟩
    · rintro ⟨⟨⟨_, ht⟩, hp⟩, ha⟩
      exact ⟨⟨hp, ht⟩, ha⟩
  | @cut name mid hmid =>
    have hmid' := objects_asides hmid []
    have hlines := commandLines_asides (o := some name) (t := []) hmid
    rw [List.append_nil] at hmid' hlines
    have hobj : objects (.listed name ::
        .sys (.system (echoCommand (folder ++ root ++ name))) :: mid) = [name] := by
      simp only [objects_listed, List.cons.injEq, true_and]
      exact hmid'
    rw [moded, if_pos rfl, hobj]
    simp only [commandLines, hlines, List.forall_mem_cons, Option.some.injEq, exists_eq_left',
      intended_echo_iff, List.dropLast_singleton]
    simp

/-- The run stopped in a mode query that gave no value. -/
def unmoded {α : Type} : Except Stop α → Bool
  | .ok _ => false
  | .error st => st = .unsetOutput

section
variable {L R : Type} {w : World L R} {folder : CStr}

/-- What `m` issues is a listing into `folder`, cut off where it stops in a mode query. -/
def Lists {α : Type} (folder : CStr) (m : M L R α) : Prop :=
  ∀ s, ∃ t, (m s).2.trace = s.trace ++ t ∧ Listing folder (unmoded (m s).1) t

theorem Lists.bind {α β : Type} {m : M L R α} {f : α → M L R β} (hm : Lists folder m)
    (hf : ∀ a, Lists folder (f a)) : Lists folder (m >>= f) := by
  intro s
  obtain ⟨t, ht, hl⟩ := hm s
  rcases h : m s with ⟨st | a, s'⟩
  · rw [h] at ht hl
    rw [Prog.bind_error h]
    exact ⟨t, ht, hl⟩
  · rw [h] at ht hl
    obtain ⟨u, hu, hlu⟩ := hf a s'
    rw [Prog.bind_ok h]
    exact ⟨t ++ u, by rw [hu, ht, List.append_assoc], hl.append hlu⟩

theorem Lists.ite {α : Type} {c : Prop} [Decidable c] {m n : M L R α} (hm : Lists folder m)
    (hn : Lists folder n) : Lists folder (if c then m else n) := by
  split
  · exact hm
  · exact hn

/-- A part without command lines that always returns. -/
theorem Lists.quiet (w : World L R) {α : Type} {m : M L R α}
    (hf : Frame (Foot w fun ev => ev.aside = true) m) (hm : Returns m) : Lists folder m := by
  intro s
  obtain ⟨a, s', h⟩ := hm s
  have f := hf.ok h
  rw [h]
  exact ⟨since s s', f.trace_eq, .of_aside f.since⟩

theorem Lists.pure {α : Type} (a : α) : Lists folder (pure a : M L R α) :=
  fun _ => ⟨[], by simp, .nil⟩

theorem Lists.when {c : Prop} [Decidable c] {m : M L R Unit} (hm : Lists folder m) :
    Lists folder (Prog.when c m) := .ite hm (.pure _)

theorem Lists.rods {c : RodsCall} : Lists folder (NfsRods.rods w c) :=
  .quiet w (rods_frame (E := fun ev => ev.aside = true) rfl) (rods_returns _)

theorem Lists.debug (msg : Msg) : Lists folder (NfsRods.debug w msg : M L R Unit) :=
  .quiet w (debug_frame _) (debug_returns _)

/-- The run for a data object: its first line, and then the second, with the mode that `fileMode`
gives it, if `fileMode` returns. -/
theorem listEntry_dataObj_run (remoteFolder folder : CStr) (comm : Comm) (name : CStr)
    (s : Server L R) : ∃ s1 x s2 mid, s1.rods = s.rods ∧
      fileMode w (remoteFolder ++ root ++ name) comm s1 = (x, s2) ∧
      (∀ ev ∈ mid, ev.aside = true) ∧
      (∀ m, x = .ok m → ∃ s' post,
        listEntry w remoteFolder folder comm (some (.dataObj (some name))) s = (.ok true, s') ∧
        s'.rods = s2.rods ∧ (∀ ev ∈ post, ev.aside = true) ∧
        s'.trace = s.trace ++ .listed name ::
          .sys (.system (echoCommand (folder ++ root ++ name))) ::
            (mid ++ .sys (.system (chmodCommand m (folder ++ root ++ name))) :: post)) ∧
      ∀ st, x = .error st → ∃ s',
        listEntry w remoteFolder folder comm (some (.dataObj (some name))) s = (.error st, s') ∧
        s'.rods = s2.rods ∧ s'.trace = s.trace ++ .listed name ::
          .sys (.system (echoCommand (folder ++ root ++ name))) :: mid := by
  have h0 : (record (.listed name) : M L R Unit) s =
      (.ok (), { s with trace := s.trace ++ [.listed name] }) := rfl
  obtain ⟨s1, h1, r1, t1⟩ := sys_trace (w := w) (.system (echoCommand (folder ++ root ++ name)))
    { s with trace := s.trace ++ [.listed name] }
  rcases h2 : fileMode w (remoteFolder ++ root ++ name) comm s1 with ⟨x, s2⟩
  have hframe : Frame (Foot w fun ev => ev.aside = true)
      (fileMode w (remoteFolder ++ root ++ name) comm) :=
    fileMode_frame (E := fun ev => ev.aside = true) (fun _ => rfl) _
  have f2 : Foot w (fun ev => ev.aside = true) s1 s2 := by
    have := hframe s1
    rwa [h2] at this
  refine ⟨s1, x, s2, since s1 s2, r1, h2, f2.since, ?_, ?_⟩
  · rintro m rfl
    obtain ⟨s3, h3, d3⟩ := debug_tacit (w := w) "DATA MODE %d" s2
    have t3 : s3.trace = s2.trace := by
      obtain ⟨-, rfl⟩ := Prod.mk.inj h3
      rfl
    obtain ⟨s4, h4, r4, t4⟩ :=
      sys_trace (w := w) (.system (chmodCommand m (folder ++ root ++ name))) s3
    obtain ⟨s5, h5, d5⟩ := debug_tacit (w := w) "ReadDir Create %s" s4
    have f5 : Foot w (fun ev => ev.aside = true) s4 s5 := (debug_frame _).ok h5
    have hrun : listEntry w remoteFolder folder comm (some (.dataObj (some name))) s =
        (.ok true, s5) := by
      refine (Prog.bind_ok h0).trans ((Prog.bind_ok h1).trans ((Prog.bind_ok h2).trans ?_))
      exact (Prog.bind_ok h3).trans ((Prog.bind_ok h4).trans ((Prog.bind_ok h5).trans rfl))
    refine ⟨s5, since s4 s5, hrun, by rw [d5.rods, r4, d3.rods], f5.since, ?_⟩
    rw [f5.trace_eq, t4, t3, f2.trace_eq, t1]
    simp
  · rintro st rfl
    refine ⟨s2, ?_, rfl, ?_⟩
    · exact (Prog.bind_ok h0).trans ((Prog.bind_ok h1).trans (Prog.bind_error h2))
    · rw [f2.trace_eq, t1]
      simp

/-- The run for a sub-collection: its directory is made. -/
theorem listEntry_coll_run (c m : CStr) (comm : Comm) (n : CStr) (s : Server L R) : ∃ s1 s2,
    (debug w "ReadDir %s" : M L R Unit) s = (.ok (), s1) ∧ Tacit s s1 ∧
      sys w (.mkdir (m ++ root ++ basename (c ++ root ++ n)) 0o700) s1 =
        (.ok (sysResult w (.mkdir (m ++ root ++ basename (c ++ root ++ n)) 0o700) s1.kernel), s2) ∧
      KernelOnly s1 s2 ∧
      s2.kernel = (w.sys (.mkdir (m ++ root ++ basename (c ++ root ++ n)) 0o700) s1.kernel).2 ∧
      listEntry w c m comm (some (.coll (c ++ root ++ n))) s = (.ok true, s2) := by
  have hlen : ¬ (c ++ root ++ n).length = c.length := by
    simp only [List.length_append, root, List.length_singleton]
    omega
  obtain ⟨s1, h1, t1⟩ := debug_tacit (w := w) "ReadDir %s" s
  obtain ⟨s2, h2, hk2, hkernel2⟩ :=
    sys_ends (w := w) (.mkdir (m ++ root ++ basename (c ++ root ++ n)) 0o700) s1
  refine ⟨s1, s2, h1, t1, h2, hk2, hkernel2, ?_⟩
  rw [listEntry, if_neg hlen, Prog.bind_ok h1, Prog.bind_ok h2]
  rfl

/-- A data object's two lines, or the first of them. -/
theorem listEntry_dataObj (remoteFolder folder : CStr) (comm : Comm) (name : CStr) :
    Lists folder (listEntry w remoteFolder folder comm (some (.dataObj (some name)))) := by
  intro s
  obtain ⟨s1, x, s2, mid, _, hmode, hmid, hok, herror⟩ :=
    listEntry_dataObj_run (w := w) remoteFolder folder comm name s
  rcases x with st | m
  · obtain rfl := fileMode_error hmode
    obtain ⟨s', hrun, _, ht⟩ := herror _ rfl
    rw [hrun]
    exact ⟨_, ht, .cut name hmid⟩
  · obtain ⟨s', post, hrun, _, hpost, ht⟩ := hok m rfl
    rw [hrun]
    exact ⟨_, ht, .entry name m hmid (Listing.of_aside hpost)⟩

theorem listEntry_lists (remoteFolder folder : CStr) (comm : Comm) (ent : Option CollEnt) :
    Lists folder (listEntry w remoteFolder folder comm ent) := by
  match ent with
  | some (.dataObj (some name)) => exact listEntry_dataObj remoteFolder folder comm name
  | some (.coll collName) =>
    refine .ite (.pure _) (.bind (.debug _) fun _ => .bind ?_ fun _ => .pure _)
    exact .quiet w (sys_frame (E := fun ev => ev.aside = true) rfl) (sys_returns _)
  | some (.dataObj none) => exact .pure _
  | none => exact .pure _

theorem listLoop_lists (remoteFolder folder : CStr) (comm : Comm) (handleInx : Int) :
    (fuel : Nat) → Lists folder (listLoop w remoteFolder folder comm handleInx fuel)
  | 0 => .pure _
  | fuel + 1 => .bind .rods fun _ => .when (.bind (listEntry_lists _ _ _ _) fun _ =>
      .when (listLoop_lists _ _ _ _ fuel))

/-- **What `listCollection` issues is a listing.** -/
theorem listCollection_lists (remoteFolder folder : CStr) (comm : Comm) :
    Lists folder (listCollection w remoteFolder folder comm) := by
  refine .bind (.quiet w (removedirectoryrecursively_frame (E := fun ev => ev.aside = true)
    (fun _ => rfl) (fun _ => rfl) _ _) (removedirectoryrecursively_returns _ _)) fun _ => ?_
  refine .bind (.debug _) fun _ => .bind (.quiet w (query_frame _) (query_returns _))
    fun _ => .bind (.quiet w .get .get) fun s => .bind (.when (.ite ?_ ?_)) fun _ => ?_
  · refine .bind (.debug _) fun _ => .quiet w ?_ (recMkdir_returns _)
    exact recMkdir_frame (E := fun ev => ev.aside = true) (fun _ _ => rfl) _
  · refine .bind (.quiet w libCall_frame fun _ => ⟨_, _, rfl⟩) fun _ => ?_
    exact fun s => ⟨[], by simp, .nil⟩
  · refine .bind .rods fun _ => .bind (.debug _) fun _ => .bind (.debug _) fun _ => ?_
    refine .bind (.quiet w .get .get) fun _ => .bind (listLoop_lists _ _ _ _ _) fun _ => ?_
    exact .bind .rods fun _ => .pure _

/-- **Every line `listCollection` gives to a shell is the command meant for a data object** if and
only if the paths of the data objects it lists are plain; the path of one that is only created, as
the daemon stops in the query for its mode, may be a pattern. -/
theorem command_lines_iff (remoteFolder folder : CStr) (comm : Comm) (s : Server L R) :
    (∀ l ∈ commandLines none (since s (listCollection w remoteFolder folder comm s).2),
      ∃ name, l.1 = some name ∧ Intended folder name l.2) ↔
    ∀ name, .listed name ∈ since s (listCollection w remoteFolder folder comm s).2 →
      PlainTarget (folder ++ root ++ name) ∧
      (name ∈ moded (unmoded (listCollection w remoteFolder folder comm s).1)
          (since s (listCollection w remoteFolder folder comm s).2) →
        PlainArg (folder ++ root ++ name)) := by
  obtain ⟨t, ht, hl⟩ := listCollection_lists (w := w) remoteFolder folder comm s
  rw [since_eq ht, hl.lines_iff none]
  have hsub : ∀ {cut : Bool} {name : CStr}, name ∈ moded cut t → name ∈ objects t := by
    intro cut name h
    unfold moded at h
    split at h
    · exact List.mem_of_mem_dropLast h
    · exact h
  constructor
  · exact fun ⟨hp, ha⟩ name hn => ⟨hp name (mem_objects.2 hn), ha name⟩
  · intro h
    exact ⟨fun name hn => (h name (mem_objects.1 hn)).1,
      fun name hn => (h name (mem_objects.1 (hsub hn))).2 hn⟩

end

/-! ## A hostile name -/

/-- A collection with a data object named `a;b`. -/
def hostileServer : Server Sandbox.Kernel Sandbox.Grid :=
  { kernel := {}, rods := { objs := [(lit "/z/a;b", .data [])] } }

/-- The shell runs `b` as a command of its own. -/
theorem hostile_line :
    (some (lit "a;b"), lit "echo \" \" > /e/a;b") ∈ commandLines none
      (since hostileServer
        (listCollection Sandbox.publicWorld (lit "/z") (lit "/e") none hostileServer).2) ∧
    ¬ Intended (lit "/e") (lit "a;b") (lit "echo \" \" > /e/a;b") := by
  have hn : simple (lit "echo \" \" > /e/a;b") = none := by decide
  refine ⟨by decide +kernel, ?_⟩
  rintro (h | ⟨m, h⟩) <;> rw [hn] at h <;> cases h

end NfsRods
