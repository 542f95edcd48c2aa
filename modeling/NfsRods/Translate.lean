import NfsRods.Utils

/-!
# Path translation

From a client's path to the local mirror's path and to the iRODS name (`nfs.c`, `rodscapi.c`):
`isPublic`, `getNFSDirectory`, `getRealPathNFS`, `getIRODSpathGetAttr`, `getRodsPath`, and
`catName`, which appends a name to a directory's path. All of them read the global `export_path`
and stop the process when it is `NULL`.

* `realPath`, `irodsPath`, `rodsPath`: what they compute for a given `export_path`, as functions
  (`getRealPathNFS_ends`, `getIRODSpathGetAttr_ends`, `getRodsPath_ends`).
* `getRealPathNFS_frame` and its siblings: they issue no call.
-/

namespace NfsRods

open CStr

section
variable {L R : Type} (w : World L R)

/-! ## The source's functions -/

/-- `isPublic`. -/
def isPublic : M L R Bool := do
  let s ← Prog.get
  record (.exportPath s.exports.path)
  match s.exports.path with
  | none => Prog.stop .nullExportPath
  | some e =>
    debug w "isPublic: %s"
    pure (strstr e (lit "public") || !w.conf.privateColl)

/-- `getNFSDirectory`. -/
def getNFSDirectory (uid : UInt32) : M L R CStr := do
  if ← isPublic w then pure (lit "public") else pure (decimalInt (toCInt uid))

/-- The global `export_path` where it has just been checked by `isPublic`. -/
def exportPath (s : Server L R) : CStr := s.exports.path.getD []

/-- `getRealPathNFS`; `uid` is `getUID(arg)`. -/
def getRealPathNFS (userPath : CStr) (uid : UInt32) : M L R CStr := do
  debug w "getRealPathNFS %s"
  if ← isPublic w then pure userPath
  else
    let directory ← getNFSDirectory w uid
    let s ← Prog.get
    let path := exportPath s ++ root ++ directory
    if strstr userPath path then pure userPath
    else
      let endPath := substring w userPath ((exportPath s).length + 1) userPath.length
      debug w "getRealPathNFS path %s"
      pure (path ++ endPath)

/-- `getIRODSpathGetAttr`. -/
def getIRODSpathGetAttr (path : CStr) (uid : UInt32) : M L R CStr := do
  if ← isPublic w then
    let s ← Prog.get
    pure (substring w path ((exportPath s).length + 1) path.length)
  else
    let s ← Prog.get
    let id := decimalInt (toCInt uid)
    pure (substring w path ((exportPath s).length + id.length + 2) path.length)

/-- `concat("/", ZONE)`. -/
def zonePath : M L R CStr :=
  match w.conf.zone with
  | none => Prog.stop .nullZone
  | some z => pure (root ++ z)

/-- `getRodsPath`. -/
def getRodsPath (uid : UInt32) (path : CStr) : M L R CStr := do
  debug w "getRodsPath START"
  if ← isPublic w then
    debug w "getRodsPath END"
    let zone ← zonePath w
    concatProxy w zone (lit "public") path
  else
    match getUserName w uid with
    | (result, name) =>
      if result < 0 then
        debug w "getRodsPath- cant find user"
        let zone ← zonePath w
        let _ ← concatProxy w zone [] path
        -- `userName` is the literal "" here
        Prog.stop .badFree
      else
        let zone ← zonePath w
        let j ← junk w
        let rodspath ← concatProxy w zone (name.getD j.buf) path
        debug w "getRodsPath END"
        pure rodspath

/-- `cat_name`: `none` when the buffer is not written. -/
def catName (path : Option CStr) (name : CStr) : Nfsstat3 × Option CStr :=
  match path with
  | none => (.stale, none)
  | some path =>
    if name = [] ∨ slash ∈ name then (.acces, none)
    else if maxPathLen < path.length + name.length + 2 then (.nametoolong, none)
    else if name = lit "." then (.ok, some path)
    else if name = lit ".." then
      -- cut at the last separator
      let dir := (path.reverse.dropWhile (· ≠ slash)).reverse
      (.ok, some (if dir.length ≤ 1 then root else dir.dropLast))
    else (.ok, some (path ++ root ++ name))

/-- The buffer is written exactly when the name is accepted. -/
theorem catName_isSome (path : Option CStr) (name : CStr) :
    (catName path name).2.isSome ↔ (catName path name).1 = .ok := by
  unfold catName
  cases path with
  | none => simp
  | some path =>
    dsimp only
    repeat' split
    all_goals simp

/-! ## What they compute -/

/-- `cat_name` appends `name` to `path`: it is a single component and the result is short. -/
def Accepted (path name : CStr) : Prop :=
  name ≠ [] ∧ slash ∉ name ∧ path.length + name.length + 2 ≤ maxPathLen

/-- What `cat_name` then writes. -/
def childPath (path name : CStr) : CStr :=
  if name = lit "." then path
  else if name = lit ".." then
    let dir := (path.reverse.dropWhile (· ≠ slash)).reverse
    if dir.length ≤ 1 then root else dir.dropLast
  else path ++ root ++ name

theorem catName_accepted {path name : CStr} (h : Accepted path name) :
    catName (some path) name = (.ok, some (childPath path name)) := by
  obtain ⟨hn, hs, hl⟩ := h
  have h1 : ¬ (name = [] ∨ slash ∈ name) := by simp [hn, hs]
  have h2 : ¬ maxPathLen < path.length + name.length + 2 := by omega
  simp only [catName, childPath, if_neg h1, if_neg h2]
  split
  · rfl
  · split <;> rfl

theorem catName_rejected {path name : CStr} (h : ¬ Accepted path name) :
    (catName (some path) name).2 = none := by
  dsimp only [catName]
  split
  · rfl
  · rename_i h1
    rw [if_pos]
    simp only [not_or] at h1
    exact Nat.lt_of_not_le fun hl => h ⟨h1.1, h1.2, hl⟩

/-- `cat_name` bounds what it writes. -/
theorem childPath_length {path name : CStr} (h : Accepted path name) :
    (childPath path name).length + 1 ≤ maxPathLen := by
  obtain ⟨_, _, hl⟩ := h
  have hd := (List.dropWhile_sublist (fun b => decide (b ≠ slash)) (l := path.reverse)).length_le
  simp only [childPath]
  split
  · omega
  · split
    · split
      · decide
      · simp only [List.length_dropLast, List.length_reverse] at hd ⊢
        omega
    · simp [root]
      omega

/-- The bytes of `p` from offset `n` on, as `substring` reads them. -/
def cut (p : CStr) (n : Nat) : CStr :=
  if n ≤ p.length then p.drop n else (w.past p n).take p.length

/-- The export `e` is used without per-user directories. -/
def publicPath (e : CStr) : Bool := strstr e (lit "public") || !w.conf.privateColl

/-- The caller's directory in the mirror of `e`. -/
def userDir (e : CStr) (uid : UInt32) : CStr := e ++ root ++ decimalInt (toCInt uid)

/-- The mirror's path of `p`. -/
def realPath (e : CStr) (uid : UInt32) (p : CStr) : CStr :=
  if publicPath w e then p
  else if strstr p (userDir e uid) then p
  else userDir e uid ++ cut w p e.length

/-- The mirror's path `p` relative to the caller's directory. -/
def irodsPath (e : CStr) (uid : UInt32) (p : CStr) : CStr :=
  if publicPath w e then cut w p e.length else cut w p (userDir e uid).length

/-- The iRODS collection a relative path is resolved in. -/
def rodsHome (e : CStr) (uid : UInt32) : Except Stop CStr :=
  match w.conf.zone with
  | none => .error .nullZone
  | some z =>
    if publicPath w e then .ok (root ++ z ++ lit "/home/" ++ lit "public")
    else match w.getpwuid uid with
      | none => .error .badFree
      | some n => .ok (root ++ z ++ lit "/home/" ++ n)

/-- The iRODS name of the relative path `p`. -/
def rodsPath (e : CStr) (uid : UInt32) (p : CStr) : Except Stop CStr :=
  (rodsHome w e uid).map (· ++ p)

end

section
variable {L R : Type} {w : World L R} {s : Server L R} {e : CStr}

open Prog (Ends Frame)

theorem substring_eq_cut (p : CStr) (n : Nat) : substring w p (n + 1) p.length = cut w p n := by
  unfold substring cut
  simp only [Nat.add_sub_cancel]
  split
  · rw [List.take_of_length_le (by simp)]
  · rfl

/-- Recording an event changes only the trace. -/
theorem record_tacit (ev : Event) (s : Server L R) : Ends Tacit (record ev) s (.ok ()) :=
  ⟨_, rfl, rfl⟩

theorem isPublic_ends (h : s.exports.path = some e) :
    Ends Tacit (isPublic w) s (.ok (publicPath w e)) := by
  refine .bind_get ((record_tacit _ s).bind fun s' _ => ?_)
  rw [h]
  exact (debug_tacit _ s').bind fun _ _ => .pure _ _

/-- Without an `export_path` the process stops. -/
theorem isPublic_stops (h : s.exports.path = none) :
    Ends Tacit (isPublic w) s (.error .nullExportPath) := by
  refine .bind_get ((record_tacit _ s).bind fun s' _ => ?_)
  rw [h]
  exact .stop _ _

theorem getNFSDirectory_ends (h : s.exports.path = some e) (hp : publicPath w e = false)
    (uid : UInt32) : Ends Tacit (getNFSDirectory w uid) s (.ok (decimalInt (toCInt uid))) := by
  refine (isPublic_ends h).bind fun s' _ => ?_
  rw [hp]
  exact .pure _ _

theorem getRealPathNFS_ends (h : s.exports.path = some e) (p : CStr) (uid : UInt32) :
    Ends Tacit (getRealPathNFS w p uid) s (.ok (realPath w e uid p)) := by
  refine (debug_tacit _ s).bind fun s1 h1 => ?_
  have e1 : s1.exports.path = some e := by rw [h1.exports, h]
  refine (isPublic_ends e1).bind fun s2 h2 => ?_
  unfold realPath
  cases hp : publicPath w e with
  | true => exact .pure _ _
  | false =>
    have e2 : s2.exports.path = some e := by rw [h2.exports, e1]
    refine (getNFSDirectory_ends e2 hp uid).bind fun s3 h3 => .bind_get ?_
    have e3 : exportPath s3 = e := by rw [exportPath, h3.exports, e2]; rfl
    rw [e3, if_neg Bool.false_ne_true]
    change Ends Tacit (if strstr p (userDir e uid) then pure p else _) s3 _
    by_cases hs : strstr p (userDir e uid)
    · rw [if_pos hs, if_pos hs]
      exact .pure _ _
    · rw [if_neg hs, if_neg hs, substring_eq_cut]
      exact (debug_tacit _ s3).bind fun _ _ => .pure _ _

theorem getIRODSpathGetAttr_ends (h : s.exports.path = some e) (p : CStr) (uid : UInt32) :
    Ends Tacit (getIRODSpathGetAttr w p uid) s (.ok (irodsPath w e uid p)) := by
  refine (isPublic_ends h).bind fun s1 h1 => ?_
  have e1 : exportPath s1 = e := by rw [exportPath, h1.exports, h]; rfl
  unfold irodsPath
  cases publicPath w e with
  | true =>
    refine .bind_get ?_
    rw [e1, substring_eq_cut]
    exact .pure _ _
  | false =>
    refine .bind_get ?_
    have hl : e.length + (decimalInt (toCInt uid)).length + 2 = (userDir e uid).length + 1 := by
      simp [userDir, root]
      omega
    dsimp only
    rw [e1, hl, substring_eq_cut]
    exact .pure _ _

theorem getUserName_private (hp : publicPath w e = false) (uid : UInt32) :
    getUserName w uid = ((w.getpwuid uid).elim (-1) fun _ => 0, w.getpwuid uid) := by
  have : w.conf.privateColl = true := by
    unfold publicPath at hp
    simpa using (Bool.or_eq_false_iff.1 hp).2
  unfold getUserName
  cases w.getpwuid uid <;> simp [this]

theorem zonePath_some {z : CStr} (h : w.conf.zone = some z) :
    (zonePath w : M L R CStr) = pure (root ++ z) := by rw [zonePath, h]

theorem zonePath_none (h : w.conf.zone = none) :
    (zonePath w : M L R CStr) = Prog.stop .nullZone := by rw [zonePath, h]

theorem getRodsPath_ends (h : s.exports.path = some e) (uid : UInt32) (p : CStr) :
    Ends Tacit (getRodsPath w uid p) s (rodsPath w e uid p) := by
  refine (debug_tacit _ s).bind fun s1 h1 => ?_
  have e1 : s1.exports.path = some e := by rw [h1.exports, h]
  refine (isPublic_ends e1).bind fun s2 h2 => ?_
  unfold rodsPath rodsHome
  cases hp : publicPath w e with
  | true =>
    refine (debug_tacit _ s2).bind fun s3 _ => ?_
    cases hz : w.conf.zone with
    | none =>
      rw [zonePath_none hz]
      exact .bind_error (.stop _ _)
    | some z =>
      rw [zonePath_some hz]
      exact .bind (.pure _ _) fun s4 _ => concatProxy_ends _ _ _ s4
  | false =>
    simp only [Bool.false_eq_true, ↓reduceIte, getUserName_private hp]
    cases hu : w.getpwuid uid with
    | none =>
      refine (debug_tacit _ s2).bind fun s3 _ => ?_
      cases hz : w.conf.zone with
      | none =>
        rw [zonePath_none hz]
        exact .bind_error (.stop _ _)
      | some z =>
        rw [zonePath_some hz]
        exact .bind (.pure _ _) fun s4 _ => (concatProxy_ends _ _ _ s4).bind fun _ _ => .stop _ _
    | some n =>
      cases hz : w.conf.zone with
      | none =>
        rw [zonePath_none hz]
        exact .bind_error (.stop _ _)
      | some z =>
        rw [zonePath_some hz]
        refine .bind (.pure _ _) fun s3 _ => .bind ⟨_, rfl, rfl⟩ fun s4 _ => ?_
        exact (concatProxy_ends _ _ _ s4).bind fun s5 _ => (debug_tacit _ s5).bind fun _ _ =>
          .pure _ _

/-! ## Footprints -/

variable {E : Event → Prop} {r : Server L R → Server L R → Prop} [OwnFrame r] [Allows w E r]
  (hp : ∀ p, E (.exportPath p))

include hp

theorem isPublic_frame : Frame r (isPublic w) := by
  intro s
  refine trans_of r (Allows.path w s (hp _)) ?_
  cases h : s.exports.path with
  | none => simpa [isPublic, Prog.bind_run, record, h] using refl_of r _
  | some e =>
    have := debug_frame (w := w) (r := r) "isPublic: %s"
      { s with trace := s.trace ++ [.exportPath s.exports.path] }
    simpa [isPublic, Prog.bind_run, record, h, debug, libCall] using this

theorem getNFSDirectory_frame (uid : UInt32) : Frame r (getNFSDirectory w uid) :=
  .bind (isPublic_frame hp) fun _ => .ite (fun _ => .pure _) fun _ => .pure _

theorem getRealPathNFS_frame (p : CStr) (uid : UInt32) :
    Frame r (getRealPathNFS w p uid) := by
  refine .bind (debug_frame _) fun _ => .bind (isPublic_frame hp) fun _ => ?_
  refine .ite (fun _ => .pure _) fun _ => .bind (getNFSDirectory_frame hp uid) fun _ => ?_
  refine .bind .get fun s => .ite (fun _ => .pure _) fun _ => ?_
  exact .bind (debug_frame _) fun _ => .pure _

theorem getIRODSpathGetAttr_frame (p : CStr) (uid : UInt32) :
    Frame r (getIRODSpathGetAttr w p uid) :=
  .bind (isPublic_frame hp) fun _ =>
    .ite (fun _ => .bind .get fun _ => .pure _) fun _ => .bind .get fun _ => .pure _

omit hp in
theorem zonePath_frame : Frame r (zonePath w) := by
  unfold zonePath
  split
  · exact .stop _
  · exact .pure _

theorem getRodsPath_frame (uid : UInt32) (p : CStr) : Frame r (getRodsPath w uid p) := by
  refine .bind (debug_frame _) fun _ => .bind (isPublic_frame hp) fun _ =>
    .ite (fun _ => ?_) fun _ => ?_
  · exact .bind (debug_frame _) fun _ => .bind zonePath_frame fun _ => concatProxy_frame _ _ _
  · refine .ite (fun _ => ?_) fun _ => ?_
    · refine .bind (debug_frame _) fun _ => .bind zonePath_frame fun _ => ?_
      exact .bind (concatProxy_frame _ _ _) fun _ => .stop _
    · refine .bind zonePath_frame fun _ => .bind junk_frame fun _ => ?_
      exact .bind (concatProxy_frame _ _ _) fun _ => .bind (debug_frame _) fun _ => .pure _

end

end NfsRods
