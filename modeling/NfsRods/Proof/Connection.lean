import NfsRods.Lib.Lease
import NfsRods.Proof.Refusal

/-!
# Connections and what is said on them

What a run says to iRODS (`heard`), read with the open connections: connecting opens one,
`rcDisconnect` closes one, and every other call is made on one (`RodsCall.comm`).

* `Disciplined`: a run makes calls on open connections only, closes each once, and leaves none open
  when it replies; `Disciplined.closed_once` says so of each connection.
* `connectUser_live`: connecting and logging in leave the connection open exactly when the login
  succeeded (`LoggedIn`): `rodsLogin` disconnects after a failure.
* `Session.live_iff`: a run that connects once, makes its calls and disconnects is
  disciplined exactly when it was logged in, or had no connection and made no calls.
* `StopsInOrder`: runs that stop after calls in order.
-/

namespace NfsRods

open CStr
open Prog (Ends Frame Returns)

/-! ## Calls and connections -/

/-- The connection a call is made on; connecting and disconnecting are made on none. -/
def RodsCall.comm : RodsCall → Option Comm
  | .rcConnect _ | .rcDisconnect _ => none
  | .clientLogin comm => some (some comm)
  | .rcDataObjOpen comm .. | .rcDataObjOpenAndStat comm .. | .rcDataObjRead comm ..
  | .rcDataObjLseek comm .. | .rcDataObjWrite comm .. | .rcDataObjClose comm ..
  | .rcDataObjCreate comm .. | .rcDataObjUnlink comm .. | .rcDataObjRename comm ..
  | .rcDataObjGet comm .. | .rcCollCreate comm .. | .rcRmColl comm .. | .rcModAccessControl comm ..
  | .rcOpenCollection comm .. | .rcReadCollection comm .. | .rcCloseCollection comm ..
  | .rcGenQuery comm .. => some comm

/-- The connection that an answer opens. -/
def connOpened (x : RodsCall × RodsReply) : Option Conn :=
  match x.1 with
  | .rcConnect client => connOf client x.2
  | _ => none

/-- The connection that a call closes; `rcDisconnect(NULL)` closes none. -/
def connClosed (x : RodsCall × RodsReply) : Option Conn :=
  match x.1 with
  | .rcDisconnect comm => comm
  | _ => none

/-- The connections open after a part of a run, or nothing where a call was made on a connection
that was `NULL` or not open, or such a connection was closed. -/
def openConns (live : List Conn) (log : List (RodsCall × RodsReply)) : Option (List Conn) :=
  Lease.run connOpened connClosed (fun x => x.1.comm) live log

section
variable {L R : Type} (w : World L R)

/-- What is said to iRODS between `s` and `s'`, with the answers. -/
def heard (s s' : Server L R) : List (RodsCall × RodsReply) := replies w (since s s') s.rods

/-- From `s`, `m` makes calls on open connections only, closes no connection twice, and leaves none
open when it replies. -/
def Disciplined {α : Type} (m : M L R α) (s : Server L R) : Prop :=
  ∃ live, openConns [] (talk w m s) = some live ∧ ∀ reply, (m s).1 = .ok reply → live = []

/-- iRODS calls made on `comm`. -/
def On (comm : Comm) (ev : Event) : Prop := ∀ c, ev = .rods c → c.comm = some comm

/-- The caller's connection under export `e` is there and iRODS accepts the login. -/
def LoggedIn (e : CStr) (uid : UInt32) (r : R) : Prop :=
  let con := connect w (clientOf w e uid) r
  ∃ c, con.1 = some c ∧ (w.rods (.clientLogin c) con.2).1.status = 0

end

section
variable {L R : Type} {w : World L R} {s s' s'' : Server L R} {E : Event → Prop} {comm : Comm}

theorem heard_trans (h : Ran w E s s') (h' : Grows s' s'') :
    heard w s s'' = heard w s s' ++ heard w s' s'' := by
  rw [heard, h.grows.since h', replies_append, ← h.rods_replay, heard, heard]

/-- The connections open after two parts of a run. -/
theorem openConns_trans (h : Ran w E s s') (h' : Grows s' s'') (live : List Conn) :
    openConns live (heard w s s'') =
      (openConns live (heard w s s')).bind (openConns · (heard w s' s'')) := by
  rw [heard_trans h h']
  exact Lease.run_append _ _ _

theorem heard_refl (s : Server L R) : heard w s s = [] := by simp [heard, since, replies]

theorem Ran.heard_nil (h : Ran w NoRods s s') : heard w s s' = [] := by
  refine List.eq_nil_iff_forall_not_mem.2 fun x hx => ?_
  exact h.since _ (mem_replies hx) x.1 rfl

theorem Ran.heard_on (h : Ran w (On comm) s s') : ∀ x ∈ heard w s s', x.1.comm = some comm :=
  fun x hx => h.since _ (mem_replies hx) x.1 rfl

theorem noRods_on {ev : Event} (h : NoRods ev) : On comm ev := fun c hc => absurd hc (h c)

/-- **Every connection is closed exactly once** in a disciplined run that replies, if iRODS hands no
open connection out again. -/
theorem Disciplined.closed_once {α : Type} {m : M L R α} {reply : α} (h : Disciplined w m s)
    (hr : (m s).1 = .ok reply) (hfair : Ledger.Fair connOpened connClosed (talk w m s))
    {pre post : List (RodsCall × RodsReply)} {x : RodsCall × RodsReply} {c : Conn}
    (hx : talk w m s = pre ++ x :: post) (hc : connOpened x = some c) :
    Ledger.releases connOpened connClosed c post = 1 := by
  obtain ⟨live, hrun, hlive⟩ := h
  obtain rfl := hlive reply hr
  have hproper := (Lease.run_iff.1 ⟨[], hrun⟩).1
  have hheld := Lease.mem_run hrun c
  rw [hx] at hfair hproper hheld
  rcases Ledger.released_once hfair hproper hc with ⟨hlast, -⟩ | ⟨hone, -⟩
  · exact absurd (hheld.2 hlast) List.not_mem_nil
  · exact hone

/-! ## Connecting -/

theorem noRods_path (p : Option CStr) : NoRods (.exportPath p) := fun _ h => by cases h

theorem noRods_toArray (filled : Bool) (n : Nat) : NoRods (.toArray filled n) :=
  fun _ h => by cases h

/-- One call and its answer. -/
theorem rods_heard {c : RodsCall} {r : RodsReply} (h : rods w c s = (.ok r, s')) :
    r = (w.rods c s.rods).1 ∧ heard w s s' = [(c, r)] := by
  have ht : talk w (rods w c) s = [(c, (w.rods c s.rods).1)] := talk_rods c s
  rw [talk, h] at ht
  obtain rfl : (w.rods c s.rods).1 = r := by
    rw [rods, Prod.mk.injEq, Except.ok.injEq] at h
    exact h.1
  exact ⟨rfl, ht⟩

theorem openConns_singleton {x : RodsCall × RodsReply} {live : List Conn}
    (h : Lease.InOrder connClosed (fun x => x.1.comm) live x) :
    openConns live [x] = some (Lease.after connOpened connClosed live x) :=
  Lease.run_singleton h

/-- Whoever connects opens the connection that is returned. -/
theorem rcConnect_live {client : Option Client} (h : rcConnect w client s = (.ok comm, s')) :
    openConns [] (heard w s s') = some comm.toList := by
  obtain ⟨r, s1, h1, h⟩ := Prog.bind_eq_ok h
  obtain ⟨rfl, rfl⟩ : connOf client r = comm ∧ s1 = s' := by simpa using h
  rw [(rods_heard h1).2, openConns_singleton ⟨by simp [RodsCall.comm], by simp [connClosed]⟩]
  simp [Lease.after, connOpened]

theorem rodsConnect_live (h : rodsConnect w s = (.ok comm, s')) :
    openConns [] (heard w s s') = some comm.toList := by
  rw [rodsConnect, Prog.ite_run] at h
  split at h
  · cases h
    rw [heard_refl]
    rfl
  · exact rcConnect_live h

/-- After a part that says nothing. -/
theorem openConns_idle (h : Ran w NoRods s s') (h' : Grows s' s'') (live : List Conn) :
    openConns live (heard w s s'') = openConns live (heard w s' s'') := by
  rw [openConns_trans h h', h.heard_nil]
  rfl

theorem rodsConnectProxy_live {name : Option CStr}
    (h : rodsConnectProxy w name s = (.ok comm, s')) :
    openConns [] (heard w s s') = some comm.toList := by
  obtain ⟨pub, s1, h1, h⟩ := Prog.bind_eq_ok h
  have r1 : Ran w NoRods s s1 := (isPublic_frame noRods_path).ok h1
  have connects : rodsConnect w s1 = (.ok comm, s') →
      openConns [] (heard w s s') = some comm.toList := fun h => by
    have r2 : Ran w (fun _ => True) s1 s' := (rodsConnect_frame fun _ _ => trivial).ok h
    rw [openConns_idle r1 r2.grows]
    exact rodsConnect_live h
  cases name with
  | none => exact connects h
  | some name =>
    dsimp only at h
    rw [Prog.ite_run] at h
    split at h
    · exact connects h
    · rw [Prog.ite_run] at h
      split at h
      · cases h
        rw [r1.heard_nil]
        rfl
      · have r2 : Ran w (fun _ => True) s1 s' := (rcConnect_frame (fun _ _ => trivial) _).ok h
        rw [openConns_idle r1 r2.grows]
        exact rcConnect_live h

theorem rodsConnecUser_live {uid : UInt32} (h : rodsConnecUser w uid s = (.ok comm, s')) :
    openConns [] (heard w s s') = some comm.toList := by
  obtain ⟨_, s1, h1, h⟩ := Prog.bind_eq_ok h
  have r1 : Ran w NoRods s s1 := (debug_frame _).ok h1
  dsimp only at h
  rw [Prog.ite_run] at h
  split at h
  · obtain ⟨_, s2, _, h⟩ := Prog.bind_eq_ok h
    obtain ⟨_, s3, _, h⟩ := Prog.bind_eq_ok h
    cases h
  · obtain ⟨j, s2, h2, h⟩ := Prog.bind_eq_ok h
    have r2 : Ran w NoRods s1 s2 := junk_frame.ok h2
    have r3 : Ran w (fun _ => True) s2 s' :=
      (rodsConnectProxy_frame (fun _ _ => trivial) _).ok h
    rw [openConns_idle (trans_of (Ran w NoRods) r1 r2) r3.grows]
    exact rodsConnectProxy_live h

/-- After a failed login the connection has been closed. -/
theorem rodsLogin_live {c : Conn} {i : Int} (h : rodsLogin w (some c) s = (.ok i, s')) :
    openConns [c] (heard w s s') =
      some (if (w.rods (.clientLogin c) s.rods).1.status = 0 then [c] else []) := by
  obtain ⟨r, s1, h1, h⟩ := Prog.bind_eq_ok h
  obtain ⟨_, s2, h2, h⟩ := Prog.bind_eq_ok h
  cases h
  obtain ⟨rfl, hlogin⟩ := rods_heard h1
  have r1 : Ran w (fun _ => True) s s1 := (rods_frame (E := fun _ => True) trivial).ok h1
  have hopen : openConns [c] (heard w s s1) = some [c] := by
    rw [hlogin, openConns_singleton ⟨by simp [RodsCall.comm], by simp [connClosed]⟩]
    simp [Lease.after, connOpened, connClosed]
  rw [Prog.when, Prog.ite_run] at h2
  split at h2
  · rename_i hst
    obtain ⟨_, s3, h3, h2⟩ := Prog.bind_eq_ok h2
    cases h2
    have r3 : Ran w (fun _ => True) s1 s' := (rods_frame (E := fun _ => True) trivial).ok h3
    rw [openConns_trans r1 r3.grows, hopen, (rods_heard h3).2, if_neg hst]
    rw [Option.bind_some,
      openConns_singleton ⟨by simp [RodsCall.comm], by simp [connClosed]⟩]
    simp [Lease.after, connOpened, connClosed]
  · rename_i hst
    cases h2
    rw [hopen, if_pos (not_not.1 hst)]

theorem connectUser_ran {uid : UInt32} (h : connectUser w uid s = (.ok comm, s')) :
    Ran w (fun _ => True) s s' := (connectUser_frame (fun _ _ => trivial) _).ok h

/-- Connecting and logging in are in order. -/
theorem connectUser_open {uid : UInt32} (h : connectUser w uid s = (.ok comm, s')) :
    ∃ s1, rodsConnecUser w uid s = (.ok comm, s1) ∧ openConns [] (heard w s s') =
      some (comm.toList.filter fun c => (w.rods (.clientLogin c) s1.rods).1.status = 0) := by
  obtain ⟨c, s1, h1, h⟩ := Prog.bind_eq_ok h
  obtain ⟨i, s2, h2, h⟩ := Prog.bind_eq_ok h
  cases h
  have r1 : Ran w (fun _ => True) s s1 := (rodsConnecUser_frame (fun _ _ => trivial) _).ok h1
  have r2 : Ran w (fun _ => True) s1 s' := (rodsLogin_frame (fun _ _ => trivial) _).ok h2
  refine ⟨s1, h1, ?_⟩
  rw [openConns_trans r1 r2.grows, rodsConnecUser_live h1, Option.bind_some]
  cases comm with
  | none =>
    cases h2
    rw [heard_refl]
    rfl
  | some c =>
    rw [Option.toList_some, rodsLogin_live h2]
    by_cases hst : (w.rods (.clientLogin c) s1.rods).1.status = 0 <;> simp [hst]

theorem connectUser_known {e : CStr} {uid : UInt32} (he : s.exports.path = some e)
    (h : connectUser w uid s = (.ok comm, s')) : Known w uid := by
  by_contra hk
  have hstop := connectUser_stops (w := w) he hk
  rw [h] at hstop
  cases hstop

/-- **Connecting and logging in leave the connection open** exactly when the login succeeded. -/
theorem connectUser_live {e : CStr} {uid : UInt32} (he : s.exports.path = some e)
    (h : connectUser w uid s = (.ok comm, s')) :
    comm = (session w e uid s.rods).1 ∧
      (LoggedIn w e uid s.rods → openConns [] (heard w s s') = some comm.toList ∧ comm ≠ none) ∧
      (¬ LoggedIn w e uid s.rods → openConns [] (heard w s s') = some []) := by
  have hk : Known w uid := connectUser_known he h
  obtain ⟨s0, h0, a0⟩ := connectUser_ends (w := w) he hk
  rw [h] at h0
  obtain ⟨⟨⟨⟩⟩, rfl⟩ := Prod.mk.inj h0
  obtain ⟨s1, h1, hopen⟩ := connectUser_open h
  obtain ⟨s1', h1', a1⟩ := rodsConnecUser_ends (w := w) he hk
  rw [h1] at h1'
  obtain ⟨_, rfl⟩ := Prod.mk.inj h1'
  rw [a1.2] at hopen
  refine ⟨rfl, fun ⟨c, hc, hst⟩ => ?_, fun hl => ?_⟩
  · have hcomm : (session w e uid s.rods).1 = some c := hc
    rw [hopen, hcomm]
    exact ⟨by simp [hst], by simp⟩
  · rw [hopen, List.filter_eq_nil_iff.2]
    intro c hc
    have hcomm : (connect w (clientOf w e uid) s.rods).1 = some c := Option.mem_toList.1 hc
    simpa using fun hst => hl ⟨c, hcomm, hst⟩

/-! ## One connection -/

theorem comm_opens {x : RodsCall × RodsReply} (h : x.1.comm = some comm) :
    connOpened x = none ∧ connClosed x = none := by
  obtain ⟨c, r⟩ := x
  cases c <;> simp_all [RodsCall.comm, connOpened, connClosed]

theorem rcDisconnect_heard (h : rcDisconnect w comm s = (.ok (), s')) :
    ∃ r, heard w s s' = [(.rcDisconnect comm, r)] := by
  obtain ⟨r, s1, h1, h⟩ := Prog.bind_eq_ok h
  cases h
  exact ⟨r, (rods_heard h1).2⟩

/-- Disconnecting closes the connection. -/
theorem rcDisconnect_live {c : Conn} (h : rcDisconnect w (some c) s = (.ok (), s')) :
    openConns [c] (heard w s s') = some [] := by
  obtain ⟨r, hr⟩ := rcDisconnect_heard h
  rw [hr, openConns_singleton ⟨by simp [RodsCall.comm], by simp [connClosed]⟩]
  simp [Lease.after, connOpened, connClosed]

/-- Disconnecting when none is open is in order only for `NULL`. -/
theorem rcDisconnect_closed (h : rcDisconnect w comm s = (.ok (), s')) :
    openConns [] (heard w s s') = if comm = none then some [] else none := by
  obtain ⟨r, hr⟩ := rcDisconnect_heard h
  rw [hr]
  cases comm with
  | none =>
    rw [openConns_singleton ⟨by simp [RodsCall.comm], by simp [connClosed]⟩]
    simp [Lease.after, connOpened, connClosed]
  | some c =>
    simp [openConns, Lease.step, Lease.InOrder, connClosed]

/-- Calls on the open connection. -/
theorem openConns_on {c : Conn} (h : Ran w (On (some c)) s s') :
    openConns [c] (heard w s s') = some [c] :=
  Lease.run_uses (fun x hx => ⟨h.heard_on x hx, comm_opens (h.heard_on x hx)⟩)
    (List.mem_singleton_self c)

/-- Calls when no connection is open. -/
theorem openConns_misuse (h : Ran w (On comm) s s') (hs : heard w s s' ≠ []) :
    openConns [] (heard w s s') = none := by
  obtain ⟨x, log, hlog⟩ := List.exists_cons_of_ne_nil hs
  have hx := h.heard_on x (by rw [hlog]; exact List.mem_cons_self)
  rw [hlog]
  exact Lease.run_misuses hx fun _ _ => List.not_mem_nil

/-- The run from `s` to `s'` connects once, under export `e` as `uid`, and makes calls on the
connection: none where `used` does not hold. -/
def Converses (w : World L R) (e : CStr) (uid : UInt32) (used : Prop) (comm : Comm)
    (s s' : Server L R) : Prop :=
  ∃ s0 s1 s2, Ran w NoRods s s0 ∧ s0.exports.path = some e ∧
    connectUser w uid s0 = (.ok comm, s1) ∧ Ran w NoRods s1 s2 ∧ Ran w (On comm) s2 s' ∧
    (heard w s2 s' = [] ↔ ¬ used)

/-- The run from `s` to `s'` connects once, makes its calls and disconnects. -/
def Session (w : World L R) (e : CStr) (uid : UInt32) (used : Prop) (s s' : Server L R) : Prop :=
  ∃ comm s3 s4, Converses w e uid used comm s s3 ∧ rcDisconnect w comm s3 = (.ok (), s4) ∧
    Ran w NoRods s4 s'

section
variable {e : CStr} {uid : UInt32} {used : Prop}

theorem Converses.before (h : Ran w NoRods s s') (h' : Converses w e uid used comm s' s'') :
    Converses w e uid used comm s s'' := by
  obtain ⟨s0, s1, s2, r0, h'⟩ := h'
  exact ⟨s0, s1, s2, trans_of (Ran w NoRods) h r0, h'⟩

theorem Session.before (h : Ran w NoRods s s') (h' : Session w e uid used s' s'') :
    Session w e uid used s s'' := by
  obtain ⟨comm, s3, s4, h', hd⟩ := h'
  exact ⟨comm, s3, s4, h'.before h, hd⟩

theorem Session.after (h : Session w e uid used s s') (h' : Ran w NoRods s' s'') :
    Session w e uid used s s'' := by
  obtain ⟨comm, s3, s4, hc, hd, r4⟩ := h
  exact ⟨comm, s3, s4, hc, hd, trans_of (Ran w NoRods) r4 h'⟩

theorem Converses.ran (h : Converses w e uid used comm s s') : Ran w (fun _ => True) s s' := by
  obtain ⟨s0, s1, s2, r0, _, h1, r1, r2, _⟩ := h
  have any : ∀ {E : Event → Prop} {s s' : Server L R}, Ran w E s s' → Ran w (fun _ => True) s s' :=
    fun h => h.mono fun _ _ => trivial
  exact trans_of (Ran w _) (any r0) (trans_of (Ran w _) (connectUser_ran h1)
    (trans_of (Ran w _) (any r1) (any r2)))

/-- Of a conversation the connection is left open when it was logged in; otherwise there was nothing
to make a call on. -/
theorem Converses.live (h : Converses w e uid used comm s s') :
    comm = (session w e uid s.rods).1 ∧
      (LoggedIn w e uid s.rods → ∃ c, comm = some c ∧ openConns [] (heard w s s') = some [c]) ∧
      (¬ LoggedIn w e uid s.rods → (used → openConns [] (heard w s s') = none) ∧
        (¬ used → openConns [] (heard w s s') = some [])) := by
  obtain ⟨s0, s1, s2, r0, he, h1, r1, r2, hused⟩ := h
  obtain ⟨hcomm, hin, hout⟩ := connectUser_live he h1
  rw [r0.rods_eq fun c hc => hc c rfl] at hcomm hin hout
  have g2 : Grows s1 s' := trans_of Grows r1.grows r2.grows
  have hrun : openConns [] (heard w s s') =
      (openConns [] (heard w s0 s1)).bind (openConns · (heard w s2 s')) := by
    rw [openConns_idle r0 (trans_of Grows (connectUser_ran h1).grows g2),
      openConns_trans (connectUser_ran h1) g2, heard_trans r1 r2.grows, r1.heard_nil,
      List.nil_append]
  refine ⟨hcomm, fun hl => ?_, fun hl => ?_⟩
  · obtain ⟨ho, hc⟩ := hin hl
    obtain ⟨c, rfl⟩ := Option.ne_none_iff_exists'.1 hc
    refine ⟨c, rfl, ?_⟩
    rw [hrun, ho]
    exact openConns_on r2
  · rw [hrun, hout hl, Option.bind_some]
    refine ⟨fun hu => openConns_misuse r2 fun hn => hused.1 hn hu, fun hu => ?_⟩
    rw [hused.2 hu]
    rfl

/-- **A session is disciplined** exactly when it was logged in, or had no connection and made no
calls; and it leaves nothing open. -/
theorem Session.live_iff (h : Session w e uid used s s') :
    (openConns [] (heard w s s') = some [] ↔
      LoggedIn w e uid s.rods ∨ (session w e uid s.rods).1 = none ∧ ¬ used) ∧
    ∀ live, openConns [] (heard w s s') = some live → live = [] := by
  obtain ⟨comm, s3, s4, hc, hd, r4⟩ := h
  obtain ⟨hcomm, hin, hout⟩ := hc.live
  have rd : Ran w (fun _ => True) s3 s4 := (rcDisconnect_frame (fun _ _ => trivial) _).ok hd
  have hrun : openConns [] (heard w s s') =
      (openConns [] (heard w s s3)).bind (openConns · (heard w s3 s4)) := by
    rw [openConns_trans hc.ran (trans_of Grows rd.grows r4.grows), heard_trans rd r4.grows,
      r4.heard_nil, List.append_nil]
  rw [hrun, ← hcomm]
  by_cases hl : LoggedIn w e uid s.rods
  · obtain ⟨c, rfl, ho⟩ := hin hl
    rw [ho, Option.bind_some, rcDisconnect_live hd]
    exact ⟨iff_of_true rfl (.inl hl), fun live h => (Option.some.inj h).symm⟩
  · by_cases hu : used
    · rw [(hout hl).1 hu]
      refine ⟨iff_of_false (by simp) ?_, by simp⟩
      rintro (h | h)
      · exact hl h
      · exact h.2 hu
    · rw [(hout hl).2 hu, Option.bind_some, rcDisconnect_closed hd]
      by_cases hn : comm = none
      · simp [hn, hu]
      · simp [hn, hl]

end

/-! ## Runs that stop -/

/-- `m` does not turn to iRODS, and where it stops `Q` holds. -/
def Idle {α : Type} (w : World L R) (Q : Server L R → Prop) (m : M L R α) : Prop :=
  ∀ s, Ran w NoRods s (m s).2 ∧ ∀ st, (m s).1 = .error st → Q (m s).2

/-- Where `m` stops, it has not turned to iRODS and `Q` holds. -/
def StopsQuiet {α : Type} (w : World L R) (Q : Server L R → Prop) (m : M L R α) : Prop :=
  ∀ s st s', m s = (.error st, s') → Q s' ∧ Ran w NoRods s s'

/-- Where `m` stops, its calls have been in order and `Q` holds. -/
def StopsInOrder {α : Type} (w : World L R) (Q : Server L R → Prop) (m : M L R α) : Prop :=
  ∀ s st s', m s = (.error st, s') →
    Q s' ∧ Grows s s' ∧ ∃ live, openConns [] (heard w s s') = some live

/-- Without an export, a user name or a zone a request cannot turn to iRODS. -/
def Stuck (w : World L R) (uid : UInt32) (s : Server L R) : Prop :=
  s.exports.path.isSome → ¬ (Known w uid ∧ w.conf.zone.isSome)

section
variable {α β : Type} {Q : Server L R → Prop} {m : M L R α} {f : α → M L R β}

theorem returns_ne_error {st : Stop} (h : Returns m) : m s ≠ (.error st, s') := by
  intro hm
  obtain ⟨a, s1, h1⟩ := h s
  rw [hm] at h1
  cases h1

theorem Idle.returns (h : Frame (Ran w NoRods) m) (hr : Returns m) : Idle w Q m := by
  refine fun s => ⟨h s, fun st hst => ?_⟩
  obtain ⟨a, s1, h1⟩ := hr s
  rw [h1] at hst
  cases hst

theorem Idle.frame (h : Frame (Ran w NoRods) m) : Idle w (fun _ => True) m :=
  fun s => ⟨h s, fun _ _ => trivial⟩

theorem Idle.bind (hm : Idle w Q m) (hf : ∀ a, Idle w Q (f a)) : Idle w Q (m >>= f) := by
  intro s
  obtain ⟨hr, hq⟩ := hm s
  rcases hms : m s with ⟨st | a, s1⟩
  · rw [hms] at hr hq
    rw [Prog.bind_error hms]
    exact ⟨hr, fun _ _ => hq st rfl⟩
  · rw [hms] at hr
    rw [Prog.bind_ok hms]
    exact ⟨trans_of (Ran w NoRods) hr (hf a s1).1, (hf a s1).2⟩

theorem Idle.quiet (h : Idle w Q m) : StopsQuiet w Q m := by
  intro s st s' hm
  have := h s
  rw [hm] at this
  exact ⟨this.2 st rfl, this.1⟩

theorem StopsQuiet.returns (h : Returns m) : StopsQuiet w Q m :=
  fun _ _ _ hm => absurd hm (returns_ne_error h)

theorem StopsQuiet.bind (hm : Idle w Q m) (hf : ∀ a, StopsQuiet w Q (f a)) :
    StopsQuiet w Q (m >>= f) := by
  intro s st s' h
  rcases Prog.bind_eq_error h with hms | ⟨a, s1, hms, hfs⟩
  · exact hm.quiet s st s' hms
  · have hr := (hm s).1
    rw [hms] at hr
    obtain ⟨hq, hr'⟩ := hf a s1 st s' hfs
    exact ⟨hq, trans_of (Ran w NoRods) hr hr'⟩

theorem StopsQuiet.inOrder (h : StopsQuiet w Q m) : StopsInOrder w Q m := by
  intro s st s' hm
  obtain ⟨hq, hr⟩ := h s st s' hm
  exact ⟨hq, hr.grows, [], by rw [hr.heard_nil]; rfl⟩

theorem StopsInOrder.returns (h : Returns m) : StopsInOrder w Q m :=
  (StopsQuiet.returns h).inOrder

theorem StopsInOrder.bind (hm : Idle w Q m) (hf : ∀ a, StopsInOrder w Q (f a)) :
    StopsInOrder w Q (m >>= f) := by
  intro s st s' h
  rcases Prog.bind_eq_error h with hms | ⟨a, s1, hms, hfs⟩
  · exact hm.quiet.inOrder s st s' hms
  · have hr := (hm s).1
    rw [hms] at hr
    obtain ⟨hq, hg, live, hlive⟩ := hf a s1 st s' hfs
    exact ⟨hq, trans_of Grows hr.grows hg, live, by rw [openConns_idle hr hg, hlive]⟩

/-- What always returns may follow. -/
theorem StopsInOrder.before (hm : StopsInOrder w Q m) (hf : ∀ a, Returns (f a)) :
    StopsInOrder w Q (m >>= f) := by
  intro s st s' h
  rcases Prog.bind_eq_error h with hms | ⟨a, s1, _, hfs⟩
  · exact hm s st s' hms
  · exact absurd hfs (returns_ne_error (hf a))

theorem StopsInOrder.get {f : Server L R → M L R β} (hf : ∀ t, StopsInOrder w Q (f t)) :
    StopsInOrder w Q (Prog.get >>= f) :=
  .bind (.returns .get .get) hf

theorem StopsInOrder.ite {c : Prop} [Decidable c] {n : M L R α} (hm : StopsInOrder w Q m)
    (hn : StopsInOrder w Q n) : StopsInOrder w Q (if c then m else n) := by
  split
  · exact hm
  · exact hn

theorem StopsInOrder.mono {Q' : Server L R → Prop} (h : StopsInOrder w Q m)
    (hQ : ∀ s, Q s → Q' s) : StopsInOrder w Q' m := fun s st s' hm =>
  ⟨hQ s' (h s st s' hm).1, (h s st s' hm).2⟩

/-- What leaves the export alone and only stops without it, a user name or a zone. -/
theorem stuck_of_ends {uid : UInt32} {st : Stop} (hf : Frame (Foot w E) m)
    (hm : ∀ e, s.exports.path = some e → Known w uid → w.conf.zone.isSome →
      ∃ a s1, m s = (.ok a, s1)) (h : m s = (.error st, s')) : Stuck w uid s' := by
  have hx : s'.exports = s.exports := by
    have := (hf s).exports
    rwa [h] at this
  rintro hp ⟨hk, hz⟩
  rw [hx] at hp
  obtain ⟨e, he⟩ := Option.isSome_iff_exists.1 hp
  obtain ⟨a, s1, h1⟩ := hm e he hk hz
  rw [h] at h1
  cases h1

end

theorem rodsConnect_returns : Returns (rodsConnect w) :=
  .ite (.pure _) (.bind (rods_returns _) fun _ => .pure _)

theorem rodsConnectProxy_quiet (name : Option CStr) :
    StopsQuiet w (fun _ => True) (rodsConnectProxy w name) := by
  refine .bind (.frame (isPublic_frame noRods_path)) fun pub => ?_
  cases name with
  | none => exact .returns rodsConnect_returns
  | some name =>
    exact .returns (.ite rodsConnect_returns
      (.ite (.pure _) (.bind (rods_returns _) fun _ => .pure _)))

/-- An unknown caller is refused after the daemon has connected for itself. -/
theorem rodsConnecUser_inOrder (uid : UInt32) :
    StopsInOrder w (fun _ => True) (rodsConnecUser w uid) := by
  refine .bind (.frame (debug_frame _)) fun _ =>
    .ite (.bind (.frame (debug_frame _)) fun _ => ?_) ?_
  · intro s st s' h
    rcases Prog.bind_eq_error h with hms | ⟨c, s1, hms, hst⟩
    · exact (rodsConnectProxy_quiet none).inOrder s st s' hms
    · cases hst
      have hr : Ran w (fun _ => True) s s' :=
        (rodsConnectProxy_frame (fun _ _ => trivial) _).ok hms
      exact ⟨trivial, hr.grows, _, rodsConnectProxy_live hms⟩
  · exact .bind (.frame junk_frame) fun _ => (rodsConnectProxy_quiet _).inOrder

theorem rodsLogin_returns (comm : Comm) : Returns (rodsLogin w comm) := by
  cases comm with
  | none => exact .pure _
  | some c =>
    refine .bind (rods_returns _) fun r => .bind ?_ fun _ => .pure _
    exact .ite (.bind (rods_returns _) fun _ => .pure _) (.pure _)

/-- Connecting and logging in stop without an export or a user name. -/
theorem connectUser_inOrder (uid : UInt32) : StopsInOrder w (Stuck w uid) (connectUser w uid) := by
  intro s st s' h
  have hlog : StopsInOrder w (fun _ => True) (connectUser w uid) :=
    (rodsConnecUser_inOrder uid).before fun _ => .bind (rodsLogin_returns _) fun _ => .pure _
  refine ⟨stuck_of_ends (E := fun _ => True) (connectUser_frame (fun _ _ => trivial) _)
    (fun e he hk _ => ?_) h, (hlog s st s' h).2⟩
  obtain ⟨s1, h1, _⟩ := connectUser_ends (w := w) he hk
  exact ⟨_, s1, h1⟩

/-- Stopping after connecting, with nothing said on the connection. -/
theorem StopsInOrder.connected {α : Type} {Q : Server L R → Prop} {uid : UInt32}
    {f : Comm → M L R α} (hQ : ∀ s, Stuck w uid s → Q s) (hf : ∀ comm, StopsQuiet w Q (f comm)) :
    StopsInOrder w Q (connectUser w uid >>= f) := by
  intro s st s' h
  rcases Prog.bind_eq_error h with hms | ⟨comm, s1, hms, hst⟩
  · exact ((connectUser_inOrder uid).mono hQ) s st s' hms
  · obtain ⟨hq, hr⟩ := hf comm s1 st s' hst
    obtain ⟨_, _, hlive⟩ := connectUser_open hms
    refine ⟨hq, trans_of Grows (connectUser_ran hms).grows hr.grows, ?_⟩
    rw [openConns_trans (connectUser_ran hms) hr.grows, hlive, hr.heard_nil]
    exact ⟨_, rfl⟩

end

end NfsRods
