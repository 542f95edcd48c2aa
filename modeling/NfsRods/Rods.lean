import NfsRods.Translate

/-!
# The iRODS client

`rodscapi.c` and `rodscapi_utils.c`: connecting as the daemon or as a proxied user, and the
operations on collections and data objects the NFS procedures call. Copying a name into an input
structure (`rstrcpy`) is part of the call it is copied for.

* `session`: the connection a request gets and the iRODS state after connecting and logging in.
* `rodsConnecUser_ends`: connecting stops the process exactly when the caller has no user name.
* `listCollection_frame`: refilling the mirror issues no call that changes the iRODS store.
-/

namespace NfsRods

open CStr

section
variable {L R : Type} (w : World L R)

/-! ## Connecting -/

/-- The pointer in the answer to `rcConnect` or `_rcConnect`: `NULL` when the status is negative. -/
def connOf (client : Option Client) (r : RodsReply) : Comm :=
  if r.status < 0 then none else some { id := r.status, client }

/-- `rcConnect`, `_rcConnect`. -/
def rcConnect (client : Option Client) : M L R Comm := do
  let r ← rods w (.rcConnect client)
  pure (connOf client r)

/-- `rodsConnect`. -/
def rodsConnect : M L R Comm :=
  if !w.rodsEnv then pure none else rcConnect w none

/-- `rodsConnectProxy`; `clientUserName` is `none` for the literal `""`, whose address the source
compares with. -/
def rodsConnectProxy (clientUserName : Option CStr) : M L R Comm := do
  let pub ← isPublic w
  match clientUserName with
  | none => rodsConnect w
  | some name =>
    if pub then rodsConnect w
    else if !w.rodsEnv then pure none
    else rcConnect w (some (name, w.conf.zone))

/-- `rodsConnecUser`. -/
def rodsConnecUser (uid : UInt32) : M L R Comm := do
  debug w "Login  RUID %jd"
  match getUserName w uid with
  | (result, name) =>
    if result < 0 then
      debug w "rodsConnecUser- cant find user"
      let _ ← rodsConnectProxy w none
      -- `userName` is the literal "" here
      Prog.stop .badFree
    else
      let j ← junk w
      rodsConnectProxy w (some (name.getD j.buf))

/-- `rodsLogin`. -/
def rodsLogin (comm : Comm) : M L R Int :=
  match comm with
  | none => pure 0
  | some c => do
    let r ← rods w (.clientLogin c)
    Prog.when (r.status ≠ 0) do
      let _ ← rods w (.rcDisconnect comm)
    pure r.status

/-- `rcDisconnect`. -/
def rcDisconnect (comm : Comm) : M L R Unit := do
  let _ ← rods w (.rcDisconnect comm)

/-! ## Collections and data objects -/

/-- Issue a call and return its status. Functions that only fill in a call's input structure are
modelled by the call. -/
def issue (c : RodsCall) : M L R Int := do
  let r ← rods w c
  pure r.status

/-- `makeCollection`. -/
def makeCollection (collPath : CStr) (comm : Comm) (makeRecursive : Bool) : RodsCall :=
  .rcCollCreate comm collPath makeRecursive

/-- `removeCollection`: with `RECURSIVE_OPR__KW` and `FORCE_FLAG_KW`. -/
def removeCollection (collPath : CStr) (comm : Comm) : RodsCall :=
  .rcRmColl comm collPath true true

/-- `removeObj`: with `FORCE_FLAG_KW`. -/
def removeObj (objPath : CStr) (comm : Comm) : RodsCall := .rcDataObjUnlink comm objPath true

/-- `renameFile`. -/
def renameFile (objPathDes objPathSrc : CStr) (comm : Comm) : RodsCall :=
  .rcDataObjRename comm objPathSrc objPathDes

/-- `getFile`: the library writes what it downloads to `localPath`. -/
def getFile (localPath objPath : CStr) (verifyChecksum allowOverwrite : Bool) (comm : Comm) :
    M L R Int := do
  let r ← rods w (.rcDataObjGet comm objPath localPath verifyChecksum allowOverwrite)
  Prog.when (0 ≤ r.status) do
    let _ ← sys w (.store localPath r.data)
  pure r.status

/-- The resource objects are created on. -/
def defResource : CStr := if w.rodsDefResource = [] then lit "demoResc" else w.rodsDefResource

/-- `createFile`. -/
def createFile (objPath : CStr) (comm : Comm) : RodsCall :=
  .rcDataObjCreate comm
    { objPath, createMode := 0o750, dataSize := 12345, access := .wronly, resc := defResource w }

/-- `changeAttr`. -/
def changeAttr (path userName accessLevel : CStr) (comm : Comm) : M L R Int := do
  debug w "SETATTR - FILE %s\n"
  debug w "SETATTR - MOD to %s\n"
  debug w "SETATTR - USER to %s\n"
  let r ← rods w (.rcModAccessControl comm path userName accessLevel w.conf.zone)
  pure r.status

/-- `iWrite`; the offset has been converted to `int`. -/
def iWrite (objPath : CStr) (buff : List UInt8) (offset : Int) (comm : Comm) : M L R Int := do
  let o ← rods w (.rcDataObjOpenAndStat comm objPath .rdwr (defResource w))
  let seek ← rods w (.rcDataObjLseek comm o.status offset)
  if seek.status < 0 then pure (-1)
  else
    let r ← rods w (.rcDataObjWrite comm o.status buff)
    if r.status < 0 then pure (-1)
    else
      let c ← rods w (.rcDataObjClose comm o.status)
      pure c.status

/-- `fileSize`. -/
def fileSize (objPath : CStr) (comm : Comm) : M L R Int := do
  let o ← rods w (.rcDataObjOpenAndStat comm objPath .rdwr (defResource w))
  pure (o.dataSize.getD 0)

/-! ## Queries -/

/-- `CAT_NO_ROWS_FOUND`. -/
def catNoRowsFound : Int := -808000

/-- The loop of `genQuery` after a first batch: its values are those of the last batch with rows. -/
def genQueryLoop (comm : Comm) (inp : GenQueryInp) : Nat → GenQueryOut → List CStr →
    M L R (Int × List CStr)
  | 0, _, values => pure (0, values)
  | fuel + 1, out, values => do
    let values := if out.rowCnt = 0 then values else out.values
    if out.continueInx = 0 then pure (0, values)
    else
      let inp := { inp with continueInx := out.continueInx }
      let r ← rods w (.rcGenQuery comm inp)
      match r.query with
      | some out => if r.status = 0 then genQueryLoop comm inp fuel out values
                    else pure (r.status, values)
      | none => pure (r.status, values)

/-- `genQuery`: the status, and the values unless the first call failed. -/
def genQuery (comm : Comm) (inp : GenQueryInp) : M L R (Int × Option (List CStr)) := do
  let r ← rods w (.rcGenQuery comm inp)
  if r.status ≠ 0 then pure (if r.status = catNoRowsFound then 0 else r.status, none)
  else
    let s ← Prog.get
    let out := r.query.getD { rowCnt := 0, values := [], continueInx := 0 }
    let (status, values) ← genQueryLoop w comm inp (w.catalogue s.rods + 1) out []
    pure (if status = catNoRowsFound then 0 else status, some values)

/-- `fileNameLastIndex`: the last separator behind the first byte, else 0. -/
def fileNameLastIndex (path : CStr) : Nat :=
  ((List.range path.length).reverse.find? fun i => 0 < i ∧ path.getD i 0 = slash).getD 0

/-- `atoi` of a string that starts with its digits. -/
def atoi (s : CStr) : Int := (value (s.takeWhile fun b => 48 ≤ b && b ≤ 57) : Nat)

/-- `fileMode` after its query: without a value it copies from what `outputQuery` was never set to.
-/
def firstMode (status : Int) (values : Option (List CStr)) : M L R Int :=
  if status < 0 then pure (-1)
  else
    match values.bind List.head? with
    | some value => pure (atoi value)
    | none => Prog.stop .unsetOutput

/-- `fileMode`: the first value of column 700 for the object. -/
def fileMode (path : CStr) (comm : Comm) : M L R Int := do
  let idx := fileNameLastIndex path
  let name := path.drop (idx + 1)
  let filename := (lit "='" ++ name ++ lit "'").take (path.length - 1)
  -- `strncpy` over the name leaves the rest of a longer one behind the directory
  let pathname := (lit "='" ++ path.take idx ++ name.drop idx ++ lit "'").take (path.length + 9)
  let (status, values) ← genQuery w comm
    { selects := [700], conds := [(403, filename), (501, pathname)] }
  firstMode status values

/-! ## Refilling the mirror -/

/-- `basename`: what follows the last separator. -/
def basename (path : CStr) : CStr := (path.reverse.takeWhile (· ≠ slash)).reverse

/-- The command line that creates a data object's mirror file. -/
def echoCommand (path : CStr) : CStr := lit "echo \" \" > " ++ path

/-- The command line that sets a mirror file's mode. -/
def chmodCommand (dataMode : Int) (path : CStr) : CStr :=
  (if dataMode = 1200 then lit "chmod 600 "
    else if dataMode = 1120 then lit "chmod 200 "
    else if dataMode = 1050 then lit "chmod 400 "
    else lit "chmod 000 ") ++ path

/-- One entry of the loop of `listCollection`; false when the loop is left. -/
def listEntry (remoteFolder localFolder : CStr) (comm : Comm) : Option CollEnt → M L R Bool
  | some (.dataObj (some dataName)) => do
    record (.listed dataName)
    let path := localFolder ++ root ++ dataName
    let _ ← sys w (.system (echoCommand path))
    let dataMode ← fileMode w (remoteFolder ++ root ++ dataName) comm
    debug w "DATA MODE %d"
    let _ ← sys w (.system (chmodCommand dataMode path))
    debug w "ReadDir Create %s"
    pure true
  | some (.coll collName) =>
    if collName.length = remoteFolder.length then pure true
    else do
      debug w "ReadDir %s"
      let _ ← sys w (.mkdir (localFolder ++ root ++ basename collName) 0o700)
      pure true
  | some (.dataObj none) | none => pure false

/-- The loop of `listCollection`; a collection has no more entries than the catalogue. -/
def listLoop (remoteFolder localFolder : CStr) (comm : Comm) (handleInx : Int) : Nat → M L R Unit
  | 0 => pure ()
  | fuel + 1 => do
    let r ← rods w (.rcReadCollection comm handleInx)
    Prog.when (0 ≤ r.status) do
      let go ← listEntry w remoteFolder localFolder comm r.ent
      Prog.when go (listLoop remoteFolder localFolder comm handleInx fuel)

/-- `listCollection`. -/
def listCollection (remoteFolder localFolder : CStr) (comm : Comm) : M L R Int := do
  removedirectoryrecursively w pathMax localFolder
  debug w "LIST COllection  %s"
  let st ← query fun k => w.stat k localFolder
  let s ← Prog.get
  Prog.when st.isNone do
    if s.errno = .enoent then
      debug w "Criar recursivo %s"
      recMkdir w localFolder
    else
      libCall w
      Prog.stop .exit
  let o ← rods w (.rcOpenCollection comm remoteFolder)
  debug w "rclOpenCollection OK"
  debug w "ListCollection RemoteFolder %s"
  let s ← Prog.get
  listLoop w remoteFolder localFolder comm o.status (w.catalogue s.rods + 1)
  let c ← rods w (.rcCloseCollection comm o.status)
  pure c.status

end

/-! ## Sessions -/

section
variable {L R : Type} (w : World L R)

/-- The caller has a user name where one is asked for. -/
def Known (uid : UInt32) : Prop := w.conf.privateColl = true → (w.getpwuid uid).isSome

instance (uid : UInt32) : Decidable (Known w uid) := by unfold Known; infer_instance

/-- Whom the daemon acts for under export `e`. -/
def clientOf (e : CStr) (uid : UInt32) : Option Client :=
  if publicPath w e then none else (w.getpwuid uid).map (·, w.conf.zone)

/-- The connection to be had in iRODS state `r`, and the state after it. -/
def connect (client : Option Client) (r : R) : Comm × R :=
  if !w.rodsEnv then (none, r)
  else (connOf client (w.rods (.rcConnect client) r).1, (w.rods (.rcConnect client) r).2)

/-- The iRODS state after logging in. -/
def login (comm : Comm) (r : R) : R :=
  match comm with
  | none => r
  | some c =>
    if (w.rods (.clientLogin c) r).1.status ≠ 0 then
      (w.rods (.rcDisconnect comm) (w.rods (.clientLogin c) r).2).2
    else (w.rods (.clientLogin c) r).2

/-- The connection a request of `uid` gets under export `e`, and the iRODS state it acts on. -/
def session (e : CStr) (uid : UInt32) (r : R) : Comm × R :=
  let c := connect w (clientOf w e uid) r
  (c.1, login w c.1 c.2)

end

section
variable {L R : Type} {w : World L R} {s : Server L R} {e : CStr}

open Prog (Ends Frame)

/-- The server with another iRODS state `r` on the other side. -/
def AtRods (r : R) (s s' : Server L R) : Prop := Aside s s' ∧ s'.rods = r

theorem Tacit.atRods {s s' : Server L R} {r : R} (h : Tacit s s') (hr : s.rods = r) :
    AtRods r s s' := ⟨h.aside, h.rods.trans hr⟩

theorem AtRods.of_tacit {r : R} {s s' s'' : Server L R} (h : Tacit s s') (h' : AtRods r s' s'') :
    AtRods r s s'' := ⟨trans_of Aside h.aside h'.1, h'.2⟩

theorem junk_tacit (s : Server L R) : Ends Tacit (junk w) s (.ok (w.junk s.tick)) := ⟨_, rfl, rfl⟩

theorem AtRods.trans {r r' : R} {s s' s'' : Server L R} (h : AtRods r s s')
    (h' : AtRods r' s' s'') : AtRods r' s s'' := ⟨trans_of Aside h.1 h'.1, h'.2⟩

theorem rods_ends (c : RodsCall) (s : Server L R) :
    Ends (AtRods (w.rods c s.rods).2) (rods w c) s (.ok (w.rods c s.rods).1) :=
  ⟨_, rfl, rfl, rfl⟩

theorem rcConnect_ends (client : Option Client) (henv : w.rodsEnv = true)
    (s : Server L R) : Ends (AtRods (connect w client s.rods).2) (rcConnect w client) s
      (.ok (connect w client s.rods).1) := by
  simp only [connect, henv, Bool.not_true, Bool.false_eq_true, ↓reduceIte]
  exact ⟨_, rfl, rfl, rfl⟩

theorem rodsConnectProxy_ends (h : s.exports.path = some e) {name : CStr}
    (client : Option Client)
    (hc : client = if publicPath w e then none else some (name, w.conf.zone)) :
    Ends (AtRods (connect w client s.rods).2) (rodsConnectProxy w (some name)) s
      (.ok (connect w client s.rods).1) := by
  refine (isPublic_ends h).seq (fun s1 h1 => ?_) fun s1 s2 h1 h2 => AtRods.of_tacit h1 h2
  rw [← h1.rods]
  subst hc
  cases henv : w.rodsEnv with
  | false =>
    have hn : ∀ c : Option Client, connect w c s1.rods = (none, s1.rods) := fun c => by
      simp [connect, henv]
    rw [hn]
    cases publicPath w e with
    | true =>
      simp only [rodsConnect, henv, Bool.not_false, ↓reduceIte]
      exact ⟨s1, rfl, rfl, rfl⟩
    | false =>
      simp only [Bool.not_false, ↓reduceIte, Bool.false_eq_true]
      exact ⟨s1, rfl, rfl, rfl⟩
  | true =>
    cases publicPath w e with
    | true =>
      simp only [rodsConnect, henv, Bool.not_true, ↓reduceIte, Bool.false_eq_true]
      exact rcConnect_ends none henv s1
    | false =>
      simp only [Bool.not_true, ↓reduceIte, Bool.false_eq_true]
      exact rcConnect_ends _ henv s1

theorem getUserName_known {uid : UInt32} (hk : Known w uid) : ¬ (getUserName w uid).1 < 0 := by
  unfold getUserName
  cases hp : w.conf.privateColl with
  | false => simp
  | true =>
    obtain ⟨n, hn⟩ := Option.isSome_iff_exists.1 (hk hp)
    simp [hn]

theorem getUserName_unknown {uid : UInt32} (hk : ¬ Known w uid) : (getUserName w uid).1 < 0 := by
  unfold Known at hk
  simp only [Classical.not_imp, Bool.not_eq_true, Option.isSome_eq_false_iff,
    Option.isNone_iff_eq_none] at hk
  simp [getUserName, hk.1, hk.2]

/-- A caller with a user name gets a connection, or `NULL`. -/
theorem rodsConnecUser_ends (h : s.exports.path = some e) {uid : UInt32} (hk : Known w uid) :
    Ends (AtRods (connect w (clientOf w e uid) s.rods).2) (rodsConnecUser w uid) s
      (.ok (connect w (clientOf w e uid) s.rods).1) := by
  refine (debug_tacit _ s).seq (fun s1 h1 => ?_) fun s1 s2 h1 h2 => AtRods.of_tacit h1 h2
  rcases hn : getUserName w uid with ⟨result, name⟩
  have hr : ¬ result < 0 := by simpa [hn] using getUserName_known hk
  simp only [hr, ↓reduceIte]
  refine (junk_tacit s1).seq (fun s2 h2 => ?_) fun s2 s3 h2 h3 => AtRods.of_tacit h2 h3
  rw [← h1.rods, ← h2.rods]
  refine rodsConnectProxy_ends (by rw [h2.exports, h1.exports, h]) _ ?_
  -- under a private export the name is the caller's
  unfold clientOf
  cases hp : publicPath w e with
  | true => rfl
  | false =>
    rw [getUserName_private hp] at hn
    cases hu : w.getpwuid uid with
    | none => simp [hu] at hn; omega
    | some n =>
      simp only [hu, Option.elim_some, Prod.mk.injEq] at hn
      simp [← hn.2]

/-- A caller without one makes the daemon free a string literal. -/
theorem rodsConnecUser_stops (h : s.exports.path = some e) {uid : UInt32} (hk : ¬ Known w uid) :
    (rodsConnecUser w uid s).1 = .error .badFree := by
  obtain ⟨s1, h1, ht1⟩ := debug_tacit (w := w) "Login  RUID %jd" s
  rcases hn : getUserName w uid with ⟨result, name⟩
  have hr : result < 0 := by simpa [hn] using getUserName_unknown hk
  obtain ⟨s2, h2, ht2⟩ := debug_tacit (w := w) "rodsConnecUser- cant find user" s1
  have e2 : s2.exports.path = some e := by rw [ht2.exports, ht1.exports, h]
  obtain ⟨s3, h3, ht3⟩ := isPublic_ends (w := w) e2
  have hc : ∃ c s4, rodsConnect w s3 = (.ok c, s4) := by
    unfold rodsConnect
    cases henv : w.rodsEnv with
    | false => exact ⟨none, s3, rfl⟩
    | true =>
      obtain ⟨s4, h4, _⟩ := rcConnect_ends none henv s3
      exact ⟨_, s4, h4⟩
  obtain ⟨c, s4, h4⟩ := hc
  have hproxy : rodsConnectProxy w none s2 = (.ok c, s4) := by
    rw [rodsConnectProxy, Prog.bind_ok h3]
    exact h4
  unfold rodsConnecUser
  rw [Prog.bind_ok h1]
  simp only [hn, hr, ↓reduceIte]
  rw [Prog.bind_ok h2, Prog.bind_ok hproxy]
  rfl

theorem rodsLogin_ends (comm : Comm) (s : Server L R) :
    ∃ i, Ends (AtRods (login w comm s.rods)) (rodsLogin w comm) s (.ok i) := by
  cases comm with
  | none => exact ⟨0, s, rfl, rfl, rfl⟩
  | some c =>
    refine ⟨(w.rods (.clientLogin c) s.rods).1.status, ?_⟩
    by_cases hst : (w.rods (.clientLogin c) s.rods).1.status ≠ 0
    · simp only [login, if_pos hst]
      refine .of ?_ ⟨?_, ?_⟩ <;>
        simp only [rodsLogin, Prog.bind_run, rods, Prog.when, if_pos hst] <;> exact rfl
    · simp only [login, if_neg hst]
      refine .of ?_ ⟨?_, ?_⟩ <;>
        simp only [rodsLogin, Prog.bind_run, rods, Prog.when, if_neg hst] <;> exact rfl

/-! ## Footprints -/

variable {E : Event → Prop} {r : Server L R → Server L R → Prop} [OwnFrame r] [Allows w E r]
  (hE : ∀ e, e.calm = true → E e)

include hE

theorem rcConnect_frame (client : Option Client) : Frame r (rcConnect w client) :=
  .bind (rods_frame (hE _ rfl)) fun _ => .pure _

theorem rodsConnect_frame : Frame r (rodsConnect w) :=
  .ite (fun _ => .pure _) fun _ => rcConnect_frame hE _

theorem rodsConnectProxy_frame (name : Option CStr) : Frame r (rodsConnectProxy w name) := by
  refine .bind (isPublic_frame (calm_path hE)) fun _ => ?_
  cases name with
  | none => exact rodsConnect_frame hE
  | some n =>
    exact .ite (fun _ => rodsConnect_frame hE) fun _ =>
      .ite (fun _ => .pure _) fun _ => rcConnect_frame hE _

theorem rodsConnecUser_frame (uid : UInt32) : Frame r (rodsConnecUser w uid) := by
  refine .bind (debug_frame _) fun _ => .ite (fun _ => ?_) fun _ => ?_
  · exact .bind (debug_frame _) fun _ => .bind (rodsConnectProxy_frame hE _) fun _ => .stop _
  · exact .bind junk_frame fun _ => rodsConnectProxy_frame hE _

theorem rodsLogin_frame (comm : Comm) : Frame r (rodsLogin w comm) := by
  cases comm with
  | none => exact .pure _
  | some c =>
    refine .bind (rods_frame (hE _ rfl)) fun _ => .bind (.when fun _ => ?_) fun _ => .pure _
    exact .bind (rods_frame (hE _ rfl)) fun _ => .pure _

theorem rcDisconnect_frame (comm : Comm) : Frame r (rcDisconnect w comm) :=
  .bind (rods_frame (hE _ rfl)) fun _ => .pure _

theorem fileSize_frame (objPath : CStr) (comm : Comm) : Frame r (fileSize w objPath comm) :=
  .bind (rods_frame (hE _ rfl)) fun _ => .pure _

omit hE in
theorem genQueryLoop_frame {comm : Comm} (hq : ∀ inp, E (.rods (.rcGenQuery comm inp))) :
    (inp : GenQueryInp) → (fuel : Nat) → (out : GenQueryOut) → (values : List CStr) →
    Frame r (genQueryLoop w comm inp fuel out values)
  | _, 0, _, _ => .pure _
  | inp, fuel + 1, out, values => by
    refine .ite (fun _ => .pure _) fun _ => .bind (rods_frame (hq _)) fun r => ?_
    split
    · exact .ite (fun _ => genQueryLoop_frame hq _ fuel _ _) fun _ => .pure _
    · exact .pure _

omit hE in
theorem genQuery_frame {comm : Comm} (hq : ∀ inp, E (.rods (.rcGenQuery comm inp)))
    (inp : GenQueryInp) : Frame r (genQuery w comm inp) :=
  .bind (rods_frame (hq _)) fun _ => .ite (fun _ => .pure _) fun _ =>
    .bind .get fun _ => .bind (genQueryLoop_frame hq _ _ _ _) fun _ => .pure _

omit hE [Allows w E r] in
theorem firstMode_frame (status : Int) (values : Option (List CStr)) :
    Frame r (firstMode status values) := by
  unfold firstMode
  refine .ite (fun _ => .pure _) fun _ => ?_
  cases values.bind List.head? with
  | none => exact .stop _
  | some value => exact .pure _

omit hE in
theorem fileMode_frame {comm : Comm} (hq : ∀ inp, E (.rods (.rcGenQuery comm inp)))
    (path : CStr) : Frame r (fileMode w path comm) :=
  .bind (genQuery_frame hq _) fun x => firstMode_frame x.1 x.2

/-- What refilling the mirror of `localFolder` may do: remove what is there, make directories, and
run two commands for each data object. -/
inductive Refill (localFolder : CStr) : SysCall → Prop
  | remove (p : CStr) : Refill localFolder (.remove p)
  | rmdir (p : CStr) : Refill localFolder (.rmdir p)
  | mkdir (p : CStr) (m : Nat) : Refill localFolder (.mkdir p m)
  | echo (name : CStr) :
    Refill localFolder (.system (echoCommand (localFolder ++ root ++ name)))
  | chmod (m : Int) (name : CStr) :
    Refill localFolder (.system (chmodCommand m (localFolder ++ root ++ name)))

section
variable {remoteFolder localFolder : CStr} {comm : Comm}

omit hE

section
variable (hs : ∀ c, Refill localFolder c → E (.sys c)) (hn : ∀ name, E (.listed name))
  (hq : ∀ inp, E (.rods (.rcGenQuery comm inp)))

include hs hn hq

theorem listEntry_frame (ent : Option CollEnt) :
    Frame r (listEntry w remoteFolder localFolder comm ent) := by
  unfold listEntry
  split
  · refine .bind (Allows.listed w (hn _)) fun _ => .bind (sys_frame (hs _ (.echo _))) fun _ => ?_
    refine .bind (fileMode_frame hq _) fun m => .bind (debug_frame _) fun _ => ?_
    exact .bind (sys_frame (hs _ (.chmod m _))) fun _ => .bind (debug_frame _) fun _ => .pure _
  · refine .ite (fun _ => .pure _) fun _ => .bind (debug_frame _) fun _ => ?_
    exact .bind (sys_frame (hs _ (.mkdir _ _))) fun _ => .pure _
  · exact .pure _
  · exact .pure _

theorem listLoop_frame (hc : ∀ inx, E (.rods (.rcReadCollection comm inx))) (handleInx : Int) :
    (fuel : Nat) → Frame r (listLoop w remoteFolder localFolder comm handleInx fuel)
  | 0 => .pure _
  | fuel + 1 => .bind (rods_frame (hc _)) fun _ => .when fun _ =>
      .bind (listEntry_frame hs hn hq _) fun _ => .when fun _ => listLoop_frame hc handleInx fuel

end

/-- Refilling the mirror changes nothing in iRODS. -/
theorem listCollection_frame (hs : ∀ c, Refill localFolder c → E (.sys c))
    (hn : ∀ name, E (.listed name)) (hr : ∀ c : RodsCall, c.mutates = false → E (.rods c)) :
    Frame r (listCollection w remoteFolder localFolder comm) := by
  refine .bind
    (removedirectoryrecursively_frame (fun _ => hs _ (.remove _)) (fun _ => hs _ (.rmdir _)) _ _)
    fun _ => ?_
  refine .bind (debug_frame _) fun _ => .bind (query_frame _) fun _ => .bind .get fun s => ?_
  refine .bind (.when fun _ => .ite (fun _ => ?_) fun _ => ?_) fun _ => ?_
  · exact .bind (debug_frame _) fun _ => recMkdir_frame (fun _ _ => hs _ (.mkdir _ _)) _
  · exact .bind libCall_frame fun _ => .stop _
  · refine .bind (rods_frame (hr _ rfl)) fun _ => .bind (debug_frame _) fun _ => ?_
    refine .bind (debug_frame _) fun _ => .bind .get fun _ =>
      .bind (listLoop_frame hs hn (fun _ => hr _ rfl) (fun _ => hr _ rfl) _ _) fun _ => ?_
    exact .bind (rods_frame (hr _ rfl)) fun _ => .pure _

end

end

/-! ## Calls that return -/

section
variable {L R : Type} {w : World L R}

open Prog (Returns)

theorem rcDisconnect_returns (comm : Comm) : Returns (rcDisconnect w comm) :=
  .bind (rods_returns _) fun _ => .pure _

theorem issue_returns (c : RodsCall) : Returns (issue w c) :=
  .bind (rods_returns _) fun _ => .pure _

theorem fileSize_returns (objPath : CStr) (comm : Comm) : Returns (fileSize w objPath comm) :=
  .bind (rods_returns _) fun _ => .pure _

theorem getFile_returns (localPath objPath : CStr) (verify force : Bool) (comm : Comm) :
    Returns (getFile w localPath objPath verify force comm) := by
  refine .bind (rods_returns _) fun _ => .bind (.when ?_) fun _ => .pure _
  exact .bind (sys_returns _) fun _ => .pure _

end

end NfsRods
