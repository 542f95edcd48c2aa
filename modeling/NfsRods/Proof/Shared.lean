import NfsRods.Proof.Modes

/-!
# Shared data objects

How iRODS answers queries is open: in which order and in how many batches it delivers the rights on
an object. `World.answering` puts other answers in a world.

* `readdir_modes_iff`: READDIR gives every data object the mode of the user's own right, in whatever
  order the rights come, exactly when all rights on the object have that mode.
-/

namespace NfsRods

open CStr
open Prog (Frame Reaches)

/-! ## Other answers -/

section
variable {L R : Type}

/-- Answers to queries, which leave the store alone. -/
structure Answers (w : World L R) where
  query : Comm → GenQueryInp → R → RodsReply × R
  store : ∀ comm inp r, w.store (query comm inp r).2 = w.store r

/-- The world `w` with the answers `a`. -/
def World.answering (w : World L R) (a : Answers w) : World L R :=
  { w with
    rods := fun c r => match c with
      | .rcGenQuery comm inp => a.query comm inp r
      | c => w.rods c r
    rods_store := fun c r hc => by
      cases c with
      | rcGenQuery comm inp => exact a.store comm inp r
      | _ => exact w.rods_store _ r hc }

variable {w : World L R} {a : Answers w}

theorem rods_answering {c : RodsCall} {r : R} (h : ∀ comm inp, c ≠ .rcGenQuery comm inp) :
    (w.answering a).rods c r = w.rods c r := by
  cases c with
  | rcGenQuery comm inp => exact absurd rfl (h comm inp)
  | _ => rfl

/-- Reading a collection is the same in a world that differs elsewhere. -/
theorem Collections.elsewhere {w' : World L R} {left : R → Comm → Int → List CollEnt × Int}
    (hc : Collections w left)
    (hrods : ∀ c r, (∀ comm inp, c ≠ .rcGenQuery comm inp) → w'.rods c r = w.rods c r)
    (hquery : ∀ r h comm inp, left (w'.rods (.rcGenQuery comm inp) r).2 comm h = left r comm h)
    (hstore : w'.store = w.store) (hcat : w'.catalogue = w.catalogue) : Collections w' left := by
  have hopen : ∀ comm c r, w'.rods (.rcOpenCollection comm c) r =
      w.rods (.rcOpenCollection comm c) r := fun comm c r => hrods _ r (by simp)
  have hread : ∀ comm h r, w'.rods (.rcReadCollection comm h) r =
      w.rods (.rcReadCollection comm h) r := fun comm h r => hrods _ r (by simp)
  constructor
  · intro r comm h x xs st hl
    rw [hread]
    exact hc.next hl
  · intro r comm h st hl
    rw [hread]
    exact hc.done hl
  · intro r h comm inp
    exact hquery r h comm inp
  · intro r x comm c hx
    rw [hopen] at hx
    cases hc.sound comm c hx with
    | data hn h => exact .data hn (by rwa [hstore])
    | coll hn h => exact .coll hn (by rwa [hstore])
    | self => exact .self
  · intro r comm c
    rw [hopen, hcat]
    exact hc.bounded comm c
  · intro r n o comm c hst hend hn ho
    rw [hopen] at hst hend ⊢
    rw [hstore] at ho
    exact hc.complete comm c hst hend hn ho

theorem fhRec_answering (k : L) (fh : Unfs3Fh) (n : Nat) (lead : CStr) :
    fhRec (w.answering a) k fh n lead = fhRec w k fh n lead := by
  induction n generalizing lead with
  | zero => rfl
  | succ n ih =>
    unfold fhRec
    simp only [ih]
    rfl

theorem locatePfx_answering (k : L) (dev ino : ULong) (n : Nat) (pfx : CStr) :
    locatePfx (w.answering a) k dev ino n pfx = locatePfx w k dev ino n pfx := by
  induction n generalizing pfx with
  | zero => rfl
  | succ n ih =>
    unfold locatePfx
    simp only [ih]
    rfl

theorem fhDecompHard_answering (obj : Unfs3Fh) :
    fhDecompHard (w.answering a) obj = fhDecompHard w obj := by
  unfold fhDecompHard fhDecompRaw locateFile
  simp only [fhRec_answering, locatePfx_answering]
  rfl

/-- `PREP` asks no queries. -/
theorem prep_answering (fh : NfsFh3) (rq : SvcReq) :
    prep (w.answering a) fh rq = prep w fh rq := by
  unfold prep fhDecomp
  rw [fhDecompHard_answering]
  rfl

theorem removedirectoryrecursively_answering (n : Nat) (p : CStr) :
    removedirectoryrecursively (w.answering a) n p = removedirectoryrecursively w n p := by
  induction n generalizing p with
  | zero => rfl
  | succ n ih =>
    unfold removedirectoryrecursively
    simp only [ih]
    rfl

/-! ## READDIR in two parts -/

/-- `listCollection` up to where it opens the collection. -/
def remake (w : World L R) (localFolder : CStr) : M L R Unit := do
  removedirectoryrecursively w pathMax localFolder
  debug w "LIST COllection  %s"
  let st ← query fun k => w.stat k localFolder
  let s ← Prog.get
  Prog.when st.isNone do
    if s.errno = .enoent then
      debug w "Criar recursivo %s"
      recMkdir w localFolder
    else
      libCall w
      Prog.stop .exit

theorem listCollection_split (c m : CStr) (comm : Comm) :
    listCollection w c m comm = (do remake w m; listInto w c m comm) := by
  rw [listCollection_eq, remake, listAfter]
  simp only [Prog.bind_assoc]

/-- READDIR after `PREP` and before it opens the collection: the collection, its mirror and the
connection. -/
def openDir (w : World L R) (path : CStr) (rq : SvcReq) : M L R (CStr × CStr × Comm) := do
  let rodspath ← rodsName w path rq.uid
  debug w "READDIR IRODS path %s"
  let _ ← getRealPathNFS w path rq.uid
  debug w "READDIR new path %s"
  let path ← getRealPathNFS w path rq.uid
  let comm ← connectUser w rq.uid
  remake w path
  pure (rodspath, path, comm)

/-- The rest of READDIR. -/
def listDir (w : World L R) (cookie : UInt64) (count : Nat) (rq : SvcReq) (rodspath path : CStr)
    (comm : Comm) : M L R Readdir3res := do
  let _ ← listInto w rodspath path comm
  let result ← readDir w path cookie count
  let dirAttributes ← getPostStat w (some path) rq
  rcDisconnect w comm
  debug w "END READDIR"
  pure { result with dirAttributes }

theorem readdirBody_split (d : CStr) (cookie : UInt64) (count : Nat) (rq : SvcReq) :
    readdirBody w d cookie count rq = openDir w d rq >>= fun o =>
      listDir w cookie count rq o.1 o.2.1 o.2.2 := by
  rw [readdirBody, openDir]
  simp only [listCollection_split, Prog.bind_assoc]
  rfl

theorem remake_answering (m : CStr) : remake (w.answering a) m = remake w m := by
  unfold remake
  rw [removedirectoryrecursively_answering]
  rfl

theorem openDir_answering (d : CStr) (rq : SvcReq) :
    openDir (w.answering a) d rq = openDir w d rq := by
  unfold openDir
  simp only [remake_answering]
  rfl

/-- Making the directory again needs no command line and nothing of iRODS. -/
theorem remake_foot {E : Event → Prop}
    (hE : ∀ e, (∀ c, e ≠ .sys (.system c)) → (∀ c, e ≠ .rods c) → E e) (m : CStr) :
    Frame (Foot w E) (remake w m) := by
  refine .bind (removedirectoryrecursively_frame (fun _ => hE _ (by simp) (by simp))
    (fun _ => hE _ (by simp) (by simp)) _ _) fun _ => ?_
  refine .bind (debug_frame _) fun _ => .bind (query_frame _) fun _ => .bind .get fun s => ?_
  refine .when fun _ => .ite (fun _ => ?_) fun _ => ?_
  · exact .bind (debug_frame _) fun _ => recMkdir_frame (fun _ _ => hE _ (by simp) (by simp)) _
  · exact .bind libCall_frame fun _ => .stop _

theorem openDir_silent (d : CStr) (rq : SvcReq) : Frame (Ran w Silent) (openDir w d rq) := by
  have calm : ∀ e : Event, e.calm = true → Silent e := fun _ => .of_calm
  refine Foot.frame_ran (.bind (rodsName_frame (calm_path calm) _ _) fun _ =>
    .bind (debug_frame _) fun _ => .bind (getRealPathNFS_frame (calm_path calm) _ _) fun _ =>
    .bind (debug_frame _) fun _ => .bind (getRealPathNFS_frame (calm_path calm) _ _) fun _ => ?_)
  exact .bind (connectUser_frame calm _) fun _ =>
    .bind (remake_foot (fun e h h' => ⟨h, fun c hc => absurd hc (h' c)⟩) _) fun _ => .pure _

theorem openDir_connect (d : CStr) (rq : SvcReq) :
    openDir w d rq = (connectDir w d rq >>= fun o => do
      remake w o.2.1
      pure o) := by
  rw [openDir, connectDir]
  simp only [Prog.bind_assoc]
  rfl

/-- What READDIR has found out when it opens the collection. -/
theorem openDir_ok {e d : CStr} {rq : SvcReq} {s s' : Server L R} {o : CStr × CStr × Comm}
    (h : s.exports.path = some e) (hcon : Connects w rq) (ho : openDir w d rq s = (.ok o, s')) :
    o = (targetName w e rq.uid d, realPath w e rq.uid d, (session w e rq.uid s.rods).1) ∧
      s'.rods = (session w e rq.uid s.rods).2 := by
  obtain ⟨s1, h1, -, hr1⟩ := connectDir_ends (d := d) h hcon
  rw [openDir_connect, Prog.bind_ok h1] at ho
  obtain ⟨_, s2, h2, ho⟩ := Prog.bind_eq_ok ho
  cases ho
  have f2 : Ran w (fun e => ∀ c, e ≠ .rods c) s1 s' :=
    (Foot.frame_ran (remake_foot (fun _ _ h => h) _)).ok h2
  exact ⟨rfl, by rw [f2.rods_eq fun c hc => hc c rfl, hr1]⟩

/-- A READDIR that replies has opened the collection. -/
theorem openDir_replied {e d : CStr} {cookie : UInt64} {count : Nat} {rq : SvcReq}
    {s s' : Server L R} {r : Readdir3res} (h : s.exports.path = some e)
    (hr : readdirBody w d cookie count rq s = (.ok r, s')) : ∃ s1, openDir w d rq s =
      (.ok (targetName w e rq.uid d, realPath w e rq.uid d, (session w e rq.uid s.rods).1), s1) ∧
      s1.rods = (session w e rq.uid s.rods).2 := by
  have hcon : Connects w rq := (readdirBody_replied h hr).1
  rw [readdirBody_split] at hr
  obtain ⟨o, s1, h1, _⟩ := Prog.bind_eq_ok hr
  obtain ⟨rfl, hr1⟩ := openDir_ok h hcon h1
  exact ⟨s1, h1, hr1⟩

/-- The command lines of the rest. -/
theorem listDir_modes {left : R → Comm → Int → List CollEnt × Int} {I : R → Prop}
    (hI : ∀ cl r, cl.mutates = false → I r → I (w.rods cl r).2) (hc : Collections w left)
    {P : CStr → Int → Prop} {Q : CStr → Prop} {c m : CStr} {comm : Comm}
    (hmode : ∀ n s1, I s1.rods →
      Reaches (fun d _ => P n d) (fun _ _ => Q n) (fileMode w (c ++ root ++ n) comm) s1)
    (cookie : UInt64) (count : Nat) (rq : SvcReq) {s : Server L R} (hs : I s.rods) :
    Moded m P ((listed w left comm c s.rods).1.filterMap (·.dataName)) s
      (listDir w cookie count rq c m comm s).2 ∨
    CutOff m Q ((listed w left comm c s.rods).1.filterMap (·.dataName)) s
      (listDir w cookie count rq c m comm s).2 := by
  have calm : ∀ e : Event, e.calm = true → Silent e := fun _ => .of_calm
  have hinto := listInto_modes (m := m) hI hc hmode hs
  have hrest : Frame (Ran w Silent) (do
      let result ← readDir w m cookie count
      let dirAttributes ← getPostStat w (some m) rq
      rcDisconnect w comm
      debug w "END READDIR"
      pure { result with dirAttributes }) :=
    .bind (readDir_frame _ _ _) fun _ => .bind (getPostStat_frame _ _) fun _ =>
      .bind (rcDisconnect_frame calm _) fun _ => .bind (debug_frame _) fun _ =>
      .pure _
  rcases h1 : listInto w c m comm s with ⟨st | v, s1⟩
  · rw [listDir, Prog.bind_error h1]
    exact .inr (hinto.error h1)
  · have hend := (hinto.ok h1).trans (hrest s1).moded
    rw [List.append_nil] at hend
    rw [listDir, Prog.bind_ok h1]
    exact .inl hend

end

/-! ## The mode of the user's own right -/

/-- The lines that give each data object the mode for `level`. -/
def linesFor (m : CStr) (level : CStr → Nat) (names : List CStr) : List (Option CStr × CStr) :=
  names.flatMap fun n => entryLines m (n, level n)

theorem chmodCommand_inj {x y : Int} {p : CStr} :
    chmodCommand x p = chmodCommand y p ↔ chmodMode x = chmodMode y := by
  rw [chmodCommand_eq, chmodCommand_eq]
  constructor
  · intro h
    exact List.append_cancel_right (List.append_cancel_left (List.append_cancel_right h))
  · intro h
    rw [h]

theorem length_entryLines (m : CStr) (p : CStr × Int) : (entryLines m p).length = 2 := rfl

/-- A daemon that was cut off has issued other lines. -/
theorem CutOff.lines_ne {L R : Type} {m : CStr} {Q : CStr → Prop} {ns names : List CStr}
    {s s' : Server L R} (h : CutOff m Q ns s s') (level : CStr → Nat) :
    commandLines none (since s s') ≠ linesFor m level names := by
  obtain ⟨n, _, _, ps, hl⟩ := h.lines
  intro heq
  rw [hl.since] at heq
  -- two lines for each object on one side, and one more on the other
  have hlen := congrArg List.length heq
  simp only [linesFor, List.length_append, length_entryLines, List.length_cons,
    List.length_nil, List.length_flatMap, List.map_const', List.sum_replicate_nat] at hlen
  omega

theorem flatMap_lines_iff {m : CStr} {level : CStr → Nat} (ps : List (CStr × Int)) :
    ps.flatMap (entryLines m) = linesFor m level (ps.map Prod.fst) ↔
      ∀ p ∈ ps, chmodMode p.2 = chmodMode (level p.1) := by
  induction ps with
  | nil => simp [linesFor]
  | cons p ps ih =>
    rw [List.forall_mem_cons, ← ih, ← chmodCommand_inj (p := m ++ root ++ p.1)]
    simp [linesFor, entryLines]

/-- The mode of `n` in `c` does not depend on the row that is kept: the question is about some
object, which has rights, all of them with the mode of the right that `u` has on `n`. -/
def ModeKnown (acl : CStr → CStr → Acl) (u c n : CStr) : Prop :=
  ∃ c' n', modeQuery (c ++ root ++ n) = accessQuery c' n' ∧ (acl c' n').rights ≠ [] ∧
    ∀ x ∈ (acl c' n').rights, chmodMode x.level = chmodMode ((acl c n).levelOf u)

/-- Where the name is no longer than the path of its collection, it is about `n` itself. -/
theorem modeKnown_iff {acl : CStr → CStr → Acl} {u c n : CStr} (hc : 3 ≤ c.length)
    (hn : slash ∉ n) (hlen : n.length ≤ c.length) : ModeKnown acl u c n ↔
      (acl c n).rights ≠ [] ∧
        ∀ x ∈ (acl c n).rights, chmodMode x.level = chmodMode ((acl c n).levelOf u) := by
  have hq := modeQuery_eq hc hn
  rw [List.drop_of_length_le hlen, List.append_nil] at hq
  constructor
  · rintro ⟨c', n', h, hx⟩
    obtain ⟨rfl, rfl⟩ := accessQuery_inj (hq.symm.trans h)
    exact hx
  · exact fun h => ⟨c, n, hq, h⟩

section
variable {L R : Type} {w : World L R} {acl : R → CStr → CStr → Acl} {comm : Comm}

theorem lastRow_nil {inp : GenQueryInp} {r : R} {bs : List (List Nat)}
    (h : Batches w comm inp r bs) (hl : lastRow bs = none) : bs = [] := by
  induction h with
  | none _ => rfl
  | last _ _ => cases hl
  | @more _ _ _ _ _ bs _ _ _ _ ih =>
    cases bs with
    | nil => cases hl
    | cons b bs =>
      rw [lastRow_cons _ (by simp)] at hl
      cases ih hl

/-- Where the mode is known, it is what `fileMode` leads to. -/
theorem ModeKnown.mode (ha : AnswersAccess w acl comm) {u c n : CStr} {s : Server L R}
    (hk : ModeKnown (acl s.rods) u c n) :
    Reaches (fun d _ => chmodMode d = chmodMode ((acl s.rods c n).levelOf u)) (fun _ _ => False)
      (fileMode w (c ++ root ++ n) comm) s := by
  obtain ⟨c', n', hq, hne, hall⟩ := hk
  obtain ⟨bs, hb, hperm, hlen⟩ := ha.rows s.rods c' n'
  rw [← hq] at hb hlen
  obtain ⟨s1, h1⟩ := fileMode_run hb hlen
  cases hl : lastRow bs with
  | none =>
    obtain rfl := lastRow_nil hb hl
    have hnil := hperm.symm.eq_nil
    exact absurd (List.map_eq_nil_iff.1 hnil) hne
  | some l =>
    rw [hl] at h1
    obtain ⟨x, hx, rfl⟩ := List.mem_map.1 (hperm.mem_iff.1 (lastRow_mem hl))
    exact .of_ok h1 (hall x hx)

end

/-! ## Rows in a given order -/

/-- The object whose access types a query is for. -/
def asked (inp : GenQueryInp) : Option (CStr × CStr) :=
  match inp.conds with
  | [(_, name), (_, coll)] =>
    if inp = accessQuery (coll.drop 2).dropLast (name.drop 2).dropLast then
      some ((coll.drop 2).dropLast, (name.drop 2).dropLast)
    else none
  | _ => none

theorem asked_accessQuery (coll name : CStr) :
    asked (accessQuery coll name) = some (coll, name) := by
  have hquoted : ∀ v : CStr, ((equals v).drop 2).dropLast = v := fun v =>
    List.dropLast_concat
  simp [asked, accessQuery, hquoted]

theorem asked_eq_some {inp : GenQueryInp} {p : CStr × CStr} (h : asked inp = some p) :
    inp = accessQuery p.1 p.2 := by
  unfold asked at h
  split at h
  · split at h
    · obtain rfl := Option.some.inj h
      assumption
    · cases h
  · cases h

/-- All rows in one batch. -/
def replyRows : List Nat → RodsReply
  | [] => { status := catNoRowsFound }
  | l :: b =>
    { status := 0
      query := some { rowCnt := (l :: b).length, values := [decimal l], continueInx := 0 } }

section
variable {L R : Type} {w : World L R} {acl : R → CStr → CStr → Acl} {comm : Comm}
  {rows : R → CStr → CStr → List Nat} {odd : Nat}

/-- The rows `rows r coll name` for an object in one batch, and one row `odd` for another query. -/
def oneBatch (w : World L R) (rows : R → CStr → CStr → List Nat) (odd : Nat) : Answers w where
  query _ inp r := (replyRows ((asked inp).elim [odd] fun p => rows r p.1 p.2), r)
  store _ _ _ := rfl

/-- The batches of a reply. -/
def batchesOf (ls : List Nat) : List (List Nat) := if ls = [] then [] else [ls]

theorem batchesOf_length (ls : List Nat) : (batchesOf ls).length ≤ 1 := by
  unfold batchesOf
  split <;> simp

theorem batchesOf_flatten (ls : List Nat) : (batchesOf ls).flatten = ls := by
  unfold batchesOf
  split <;> simp [*]

theorem lastRow_batchesOf (ls : List Nat) : lastRow (batchesOf ls) = ls.head? := by
  cases ls <;> rfl

theorem oneBatch_batches (comm : Comm) (inp : GenQueryInp) (r : R) :
    Batches (w.answering (oneBatch w rows odd)) comm inp r
      (batchesOf ((asked inp).elim [odd] fun p => rows r p.1 p.2)) := by
  have hcall : ((w.answering (oneBatch w rows odd)).rods (.rcGenQuery comm inp) r).1 =
      replyRows ((asked inp).elim [odd] fun p => rows r p.1 p.2) := rfl
  cases hls : (asked inp).elim [odd] fun p => rows r p.1 p.2 with
  | nil =>
    refine .none ?_
    rw [hcall, hls]
    rfl
  | cons l b =>
    refine .last ?_ ?_
    · rw [hcall, hls]
      rfl
    · rw [hcall, hls]
      rfl

theorem oneBatch_answers (hkeeps : ∀ {c r}, c.mutates = false → acl (w.rods c r).2 = acl r)
    (hrows : ∀ r coll name, (rows r coll name).Perm ((acl r coll name).rights.map (·.level)))
    (comm : Comm) : AnswersAccess (w.answering (oneBatch w rows odd)) acl comm where
  rows r coll name := by
    refine ⟨_, oneBatch_batches comm _ r, ?_, ?_⟩
    · rw [batchesOf_flatten, asked_accessQuery]
      exact hrows r coll name
    · exact (batchesOf_length _).trans (Nat.le_add_left 1 _)
  keeps {c r} h := by
    cases c with
    | rcGenQuery comm inp => rfl
    | _ => exact hkeeps h

theorem oneBatch_collections {left : R → Comm → Int → List CollEnt × Int}
    (hc : Collections w left) : Collections (w.answering (oneBatch w rows odd)) left :=
  hc.elsewhere (fun _ _ => rods_answering) (fun _ _ _ _ => rfl) rfl rfl

/-- `fileMode` returns the first row. -/
theorem fileMode_oneBatch (rows : R → CStr → CStr → List Nat) (odd : Nat) (comm : Comm)
    (path : CStr) (s : Server L R) : ∃ s',
    fileMode (w.answering (oneBatch w rows odd)) path comm s =
      (((asked (modeQuery path)).elim [odd] fun p => rows s.rods p.1 p.2).head?.elim
        (.error .unsetOutput) fun l => .ok (Int.ofNat l), s') := by
  have hb : Batches (w.answering (oneBatch w rows odd)) comm (modeQuery path) s.rods _ :=
    oneBatch_batches comm _ _
  rw [← lastRow_batchesOf]
  exact fileMode_run hb ((batchesOf_length _).trans (Nat.le_add_left 1 _))

/-! ## Rows in the wrong order -/

/-- The mode for the access type `l` is another than that for `level`. -/
def otherMode (level l : Nat) : Bool := chmodMode l ≠ chmodMode level

/-- The rights with another mode than that for `level` come first. -/
def othersFirst (acl : R → CStr → CStr → Acl) (level : Nat) (r : R) (coll name : CStr) : List Nat :=
  ((acl r coll name).rights.map (·.level)).filter (otherMode level) ++
    ((acl r coll name).rights.map (·.level)).filter (!otherMode level ·)

theorem othersFirst_perm (level : Nat) (r : R) (coll name : CStr) :
    (othersFirst acl level r coll name).Perm ((acl r coll name).rights.map (·.level)) :=
  List.filter_append_perm (otherMode level) _

/-- A right with another mode is the first, if there is one. -/
theorem othersFirst_head {level : Nat} {r : R} {coll name : CStr} {x : Right}
    (hx : x ∈ (acl r coll name).rights) (hne : chmodMode x.level ≠ chmodMode level) :
    ∃ l, (othersFirst acl level r coll name).head? = some l ∧ chmodMode l ≠ chmodMode level := by
  have hmem : x.level ∈ ((acl r coll name).rights.map (·.level)).filter (otherMode level) :=
    List.mem_filter.2 ⟨List.mem_map.2 ⟨x, hx, rfl⟩, decide_eq_true hne⟩
  unfold othersFirst
  cases hls : ((acl r coll name).rights.map (·.level)).filter (otherMode level) with
  | nil =>
    rw [hls] at hmem
    cases hmem
  | cons l ls =>
    have hl : l ∈ ((acl r coll name).rights.map (·.level)).filter (otherMode level) := by
      rw [hls]
      exact List.mem_cons_self
    exact ⟨l, rfl, of_decide_eq_true (List.mem_filter.1 hl).2⟩

theorem exists_otherMode (level : Nat) : ∃ odd : Nat, chmodMode odd ≠ chmodMode level := by
  by_cases h : chmodMode level = lit "000"
  · exact ⟨1200, by rw [h]; decide⟩
  · exact ⟨0, fun h' => h (h'.symm.trans (by decide))⟩

/-- Where the mode is not known, `fileMode` can lead to another. -/
theorem ModeKnown.of_othersFirst {A : CStr → CStr → Acl} {u c n : CStr} {s s' : Server L R}
    {d : Int} (hA : acl s.rods = A) (hodd : chmodMode odd ≠ chmodMode ((A c n).levelOf u))
    (h : fileMode (w.answering (oneBatch w (othersFirst acl ((A c n).levelOf u)) odd))
      (c ++ root ++ n) comm s = (.ok d, s'))
    (hd : chmodMode d = chmodMode ((A c n).levelOf u)) : ModeKnown A u c n := by
  obtain ⟨s1, h1⟩ := fileMode_oneBatch (w := w) (othersFirst acl ((A c n).levelOf u)) odd comm
    (c ++ root ++ n) s
  rw [h] at h1
  obtain ⟨hres, -⟩ := Prod.mk.inj h1
  cases hq : asked (modeQuery (c ++ root ++ n)) with
  | none =>
    rw [hq] at hres
    obtain rfl := Except.ok.inj hres
    exact absurd hd hodd
  | some p =>
    rw [hq, Option.elim_some] at hres
    refine ⟨p.1, p.2, asked_eq_some hq, fun hnil => ?_, fun x hx => ?_⟩
    · have hrows : othersFirst acl ((A c n).levelOf u) s.rods p.1 p.2 = [] := by
        rw [othersFirst, hA, hnil]
        rfl
      rw [hrows] at hres
      cases hres
    · by_contra hne
      rw [← hA] at hx
      obtain ⟨l, hl, hlne⟩ := othersFirst_head hx hne
      rw [hl] at hres
      obtain rfl := Except.ok.inj hres
      exact hlne hd

/-! ## READDIR -/

theorem listed_answering {a : Answers w} {left : R → Comm → Int → List CollEnt × Int} (c : CStr)
    (r : R) : listed (w.answering a) left comm c r = listed w left comm c r := rfl

/-- The names of the data objects that iRODS lists to a caller of the collection `c`. -/
def dataNames (w : World L R) (left : R → Comm → Int → List CollEnt × Int) (e : CStr) (uid : UInt32)
    (c : CStr) (r : R) : List CStr := (listedTo w left e uid c r).1.filterMap (·.dataName)

/-- The command lines of a READDIR that has opened the collection, with other answers. -/
theorem readdir_answering {left : R → Comm → Int → List CollEnt × Int} {dir : NfsFh3}
    {cookie : UInt64} {count : Nat} {rq : SvcReq} {e d : CStr} {s s1 s2 : Server L R}
    {res : Readdir3res} (hprep : prep w dir rq s = (.ok (.ok d), s1))
    (he : s1.exports.path = some e)
    (hrun : nfsproc3Readdir w dir cookie count rq s = (.ok res, s2)) {a : Answers w}
    (hc : Collections (w.answering a) left) {I : R → Prop}
    (hI : ∀ cl r, cl.mutates = false → I r → I ((w.answering a).rods cl r).2)
    {P : CStr → Int → Prop} {Q : CStr → Prop} (hmode : ∀ n t, I t.rods →
      Reaches (fun x _ => P n x) (fun _ _ => Q n)
        (fileMode (w.answering a) (targetName w e rq.uid d ++ root ++ n)
          (session w e rq.uid s.rods).1) t) (hs : I s.rods) :
    Moded (realPath w e rq.uid d) P (dataNames w left e rq.uid (targetName w e rq.uid d) s.rods) s
      (nfsproc3Readdir (w.answering a) dir cookie count rq s).2 ∨
    CutOff (realPath w e rq.uid d) Q (dataNames w left e rq.uid (targetName w e rq.uid d) s.rods) s
      (nfsproc3Readdir (w.answering a) dir cookie count rq s).2 := by
  have hbody : readdirBody w d cookie count rq s1 = (.ok res, s2) :=
    (Prog.bind_ok hprep).symm.trans hrun
  obtain ⟨s3, h3, hr3⟩ := openDir_replied he hbody
  rw [prep_rods hprep] at h3 hr3
  rw [← prep_answering (a := a)] at hprep
  rw [← openDir_answering (a := a)] at h3
  have q1 : Ran (w.answering a) Silent s s1 :=
    (prep_ran (fun c hc => ⟨fun _ h => (by cases h; cases hc), by simp⟩) dir rq).ok hprep
  have q3 : Ran (w.answering a) Silent s1 s3 := (openDir_silent d rq).ok h3
  have q := trans_of (Ran (w.answering a) Silent) q1 q3
  have hs3 : I s3.rods := q.inv (fun c hc => hc.2 c rfl) hI hs
  have hrest := listDir_modes (m := realPath w e rq.uid d) hI hc hmode cookie count rq hs3
  rw [listed_answering, hr3] at hrest
  rw [nfsproc3Readdir, withPrep, Prog.bind_ok hprep]
  dsimp only
  rw [readdirBody_split, Prog.bind_ok h3]
  exact hrest.imp q.moded.trans (q.moded (P := P)).cutOff

/-- **READDIR gives each data object the mode of `u`'s own right**, whatever the answers to its
queries look like, exactly when the mode of each is known: the row that is kept is any user's. -/
theorem readdir_modes_iff (w : World L R) (left : R → Comm → Int → List CollEnt × Int)
    (acl : R → CStr → CStr → Acl) (dir : NfsFh3) (cookie : UInt64) (count : Nat) (rq : SvcReq)
    (e d u : CStr) (s s1 s2 : Server L R) (res : Readdir3res)
    (hprep : prep w dir rq s = (.ok (.ok d), s1)) (he : s1.exports.path = some e)
    (hrun : nfsproc3Readdir w dir cookie count rq s = (.ok res, s2))
    (hc : Collections w left) (ha : AnswersAccess w acl (session w e rq.uid s.rods).1) :
    (∀ a : Answers w, Collections (w.answering a) left →
      AnswersAccess (w.answering a) acl (session w e rq.uid s.rods).1 →
      commandLines none (since s (nfsproc3Readdir (w.answering a) dir cookie count rq s).2) =
        linesFor (realPath w e rq.uid d)
          (fun n => (acl s.rods (targetName w e rq.uid d) n).levelOf u)
          (dataNames w left e rq.uid (targetName w e rq.uid d) s.rods)) ↔
    ∀ n ∈ dataNames w left e rq.uid (targetName w e rq.uid d) s.rods,
      ModeKnown (acl s.rods) u (targetName w e rq.uid d) n := by
  constructor
  · intro h n hn
    obtain ⟨odd, hodd⟩ := exists_otherMode ((acl s.rods (targetName w e rq.uid d) n).levelOf u)
    let a : Answers w := oneBatch w
      (othersFirst acl ((acl s.rods (targetName w e rq.uid d) n).levelOf u)) odd
    have hc' : Collections (w.answering a) left := oneBatch_collections hc
    have ha' : AnswersAccess (w.answering a) acl (session w e rq.uid s.rods).1 :=
      oneBatch_answers ha.keeps (othersFirst_perm _) _
    have hrun' := readdir_answering hprep he hrun hc' (Q := fun _ => True)
      (I := fun r => acl r = acl s.rods) (fun _ _ hcl hr => (ha'.keeps hcl).trans hr)
      (P := fun n' x => n' = n → chmodMode x =
        chmodMode ((acl s.rods (targetName w e rq.uid d) n).levelOf u) →
          ModeKnown (acl s.rods) u (targetName w e rq.uid d) n) ?_ rfl
    · rcases hrun' with hmoded | hcut
      · obtain ⟨ps, hps, hP, hl⟩ := hmoded.lines
        have hlines := h _ hc' ha'
        rw [hl.since, ← hps, flatMap_lines_iff] at hlines
        rw [← hps] at hn
        obtain ⟨p, hp, rfl⟩ := List.mem_map.1 hn
        exact hP p hp rfl (hlines p hp)
      · exact absurd (h _ hc' ha') (hcut.lines_ne _)
    · intro n' t ht
      rcases hmode : fileMode (w.answering a) (targetName w e rq.uid d ++ root ++ n')
        (session w e rq.uid s.rods).1 t with ⟨_ | x, t'⟩
      · exact .of_error hmode trivial
      · refine .of_ok hmode ?_
        rintro rfl hx
        exact ModeKnown.of_othersFirst ht hodd hmode hx
  · intro h a hca haa
    have hrun' := readdir_answering hprep he hrun hca
      (I := fun r => acl r = acl s.rods) (fun _ _ hcl hr => (haa.keeps hcl).trans hr)
      (P := fun n x => ModeKnown (acl s.rods) u (targetName w e rq.uid d) n → chmodMode x =
        chmodMode ((acl s.rods (targetName w e rq.uid d) n).levelOf u))
      (Q := fun n => ¬ ModeKnown (acl s.rods) u (targetName w e rq.uid d) n) ?_ rfl
    · rcases hrun' with hmoded | hcut
      · obtain ⟨ps, hps, hP, hl⟩ := hmoded.lines
        rw [hl.since, ← hps, flatMap_lines_iff]
        exact fun p hp => hP p hp (h p.1 (hps ▸ List.mem_map_of_mem hp))
      · obtain ⟨n, hn, hno, _⟩ := hcut.lines
        exact absurd (h n hn) hno
    · intro n t ht
      rw [← ht]
      rcases hmode : fileMode (w.answering a) (targetName w e rq.uid d ++ root ++ n)
        (session w e rq.uid s.rods).1 t with ⟨_ | x, t'⟩
      · exact .of_error hmode fun hk => (hk.mode haa).error hmode
      · exact .of_ok hmode fun hk => (hk.mode haa).ok hmode

end

/-! ## One shared data object -/

open Sandbox (plotWorld)

/-- The rights on `/z/home/u/a`: `u` owns it, and with `shared` the user `v` may read it. -/
def sharedAcl (shared : Bool) (coll name : CStr) : Acl :=
  if coll = lit "/z/home/u" ∧ name = lit "a" then
    if shared then { rights := [⟨lit "v", 1050⟩, ⟨lit "u", 1200⟩], nodup := by decide }
    else { rights := [⟨lit "u", 1200⟩], nodup := by decide }
  else { rights := [], nodup := by decide }

/-- The small world with a private export, for the caller `u`. -/
def callerWorld : World Sandbox.Plot Sandbox.Grid :=
  { plotWorld false with
    conf := { zone := some (lit "z"), privateColl := true }
    getpwuid := fun uid => if uid = 7 then some (lit "u") else none }

/-- In this world queries are answered in the order of the rights. -/
def sharedWorld (shared : Bool) : World Sandbox.Plot Sandbox.Grid :=
  callerWorld.answering
    (oneBatch callerWorld (fun _ coll name => (sharedAcl shared coll name).rights.map (·.level)) 0)

/-- The export `/e`, and the caller's collection with the data object `a`. -/
def sharedServer : Server Sandbox.Plot Sandbox.Grid :=
  Sandbox.plotServer [Sandbox.item plotDir true]
    { tree := [([], ⟨true, (1, 2)⟩), ([lit "e"], ⟨true, (1, 3)⟩)] }
    { objs := [(lit "/z/home/u", .coll), (lit "/z/home/u/a", .data [])] } {}

theorem callerWorld_collections : Collections callerWorld plotLeft :=
  (plotWorld_collections false).elsewhere (fun _ _ _ => rfl)
    (fun _ h comm inp => (plotWorld_collections false).query (h := h) comm inp) rfl rfl

theorem sharedWorld_answers (shared : Bool) (comm : Comm) :
    AnswersAccess (sharedWorld shared) (fun _ => sharedAcl shared) comm :=
  oneBatch_answers (fun _ => rfl) (fun _ _ _ => .refl _) comm

theorem shared_prep (shared : Bool) : prep (sharedWorld shared) plotFh plotReq sharedServer =
    (.ok (.ok plotDir), (prep (sharedWorld shared) plotFh plotReq sharedServer).2) := by
  cases shared <;> exact Prod.ext rfl rfl

theorem shared_replied (shared : Bool) :
    (nfsproc3Readdir (sharedWorld shared) plotFh 0 4096 plotReq sharedServer).1.toOption.map
      (·.status) = some .ok := by
  cases shared <;> decide +kernel

/-- The answers to queries for which every batch has the numbers of the rights. -/
def unsharedAnswers : Answers (sharedWorld false) :=
  oneBatch (sharedWorld false)
    (fun _ coll name => (sharedAcl false coll name).rights.map (·.level)) 7

/-- An object that only `u` has a right on gets the mode 600. -/
theorem readdir_modes_unshared : commandLines none (since sharedServer
    (nfsproc3Readdir ((sharedWorld false).answering unsharedAnswers) plotFh 0 4096 plotReq
      sharedServer).2) =
    linesFor (lit "/e/7") (fun n => (sharedAcl false (lit "/z/home/u") n).levelOf (lit "u"))
      [lit "a"] := by
  obtain ⟨r, hr, _⟩ := Sandbox.replied (shared_replied false)
  rcases hout : nfsproc3Readdir (sharedWorld false) plotFh 0 4096 plotReq sharedServer with
    ⟨out, s2⟩
  rw [hout] at hr
  obtain rfl : out = .ok r := hr
  have hcoll : Collections (sharedWorld false) plotLeft :=
    oneBatch_collections callerWorld_collections
  have hiff := readdir_modes_iff (sharedWorld false) plotLeft (fun _ => sharedAcl false) plotFh 0
    4096 plotReq plotDir plotDir (lit "u") sharedServer _ s2 r (shared_prep false)
    (by decide +kernel) hout hcoll (sharedWorld_answers false _)
  have hnames : dataNames (sharedWorld false) plotLeft plotDir plotReq.uid
      (targetName (sharedWorld false) plotDir plotReq.uid plotDir) sharedServer.rods =
        [lit "a"] := by decide +kernel
  rw [hnames] at hiff
  have hknown : ∀ n ∈ [lit "a"], ModeKnown (sharedAcl false) (lit "u")
      (targetName (sharedWorld false) plotDir plotReq.uid plotDir) n := by
    intro n hn
    obtain rfl := List.mem_singleton.1 hn
    exact (modeKnown_iff (by decide +kernel) (by decide) (by decide +kernel)).2
      ⟨by decide +kernel, by decide +kernel⟩
  exact hiff.2 hknown unsharedAnswers (oneBatch_collections hcoll)
    (oneBatch_answers (fun _ => rfl) (fun _ _ _ => .refl _) _)

/-- **The object of `u` gets the mode of `v`'s right** once `v` may read it. -/
theorem readdir_modes_shared :
    (∀ shared, Collections (sharedWorld shared) plotLeft ∧
      AnswersAccess (sharedWorld shared) (fun _ => sharedAcl shared)
        (session (sharedWorld shared) plotDir 7 sharedServer.rods).1) ∧
    (∀ coll name, (sharedAcl true coll name).rights.filter (·.user = lit "u") =
      (sharedAcl false coll name).rights.filter (·.user = lit "u")) ∧
    commandLines none (since sharedServer
      (nfsproc3Readdir (sharedWorld false) plotFh 0 4096 plotReq sharedServer).2) =
        linesFor (lit "/e/7") (fun _ => 1200) [lit "a"] ∧
    commandLines none (since sharedServer
      (nfsproc3Readdir (sharedWorld true) plotFh 0 4096 plotReq sharedServer).2) =
        linesFor (lit "/e/7") (fun _ => 1050) [lit "a"] ∧
    linesFor (lit "/e/7") (fun _ => 1050) [lit "a"] ≠ linesFor (lit "/e/7")
      (fun n => (sharedAcl true (lit "/z/home/u") n).levelOf (lit "u")) [lit "a"] := by
  refine ⟨fun shared => ⟨?_, sharedWorld_answers shared _⟩, fun coll name => ?_, ?_, ?_, ?_⟩
  · exact oneBatch_collections callerWorld_collections
  · unfold sharedAcl
    split <;> decide
  · decide +kernel
  · decide +kernel
  · decide +kernel

end NfsRods
