import NfsRods.Lib.Dirs
import NfsRods.Server

/-!
# A small world to run in

An executable `World`: a local tree and an iRODS store as association lists, with the calls that
create, remove and rename doing what POSIX and iRODS document, and everything else succeeding
without effect. Runs of the daemon can be evaluated in it.
-/

namespace NfsRods.Sandbox

open CStr

/-- A local tree: each path's attributes, the symbolic links, and the daemon's effective ids. -/
structure Kernel where
  files : List (CStr × Stat) := []
  links : List (CStr × CStr) := []
  euid : UInt32 := 0
  egid : UInt32 := 0
  deriving DecidableEq

/-- An iRODS store, and what the open collection has left to list. -/
structure Grid where
  objs : List (CStr × RodsObj) := []
  cursor : List CollEnt := []
  deriving DecidableEq

/-- `q` is `p` or lies below it. -/
def below (p q : CStr) : Bool := q == p || (p ++ root).isPrefixOf q

/-- The entries without those at or below `p`. -/
def prune {α : Type} (p : CStr) (xs : List (CStr × α)) : List (CStr × α) :=
  xs.filter fun x => !below p x.1

/-- The entries with those at or below `src` moved to `dst`. -/
def move {α : Type} (src dst : CStr) (xs : List (CStr × α)) : List (CStr × α) :=
  xs.map fun x => if below src x.1 then (dst ++ x.1.drop src.length, x.2) else x

/-- The attributes of a new directory or file. -/
def newDir (k : Kernel) (mode : Nat) : Stat :=
  { dev := 1, ino := UInt64.ofNat (k.files.length + 2), mode := 0o040000 + mode, uid := k.euid }

def newFile (k : Kernel) (mode : Nat) : Stat :=
  { dev := 1, ino := UInt64.ofNat (k.files.length + 2), mode := 0o100000 + mode, uid := k.euid }

/-- Remove a directory, if it is empty. -/
def removeDir (k : Kernel) (p : CStr) : Except Errno Int × Kernel :=
  if k.files.any fun x => (p ++ root).isPrefixOf x.1 then (.error .enotempty, k)
  else (.ok 0, { k with files := prune p k.files })

def sysCall : SysCall → Kernel → Except Errno Int × Kernel
  | .mkdir p mode, k =>
    if (k.files.lookup p).isSome then (.error .eexist, k)
    else (.ok 0, { k with files := k.files ++ [(p, newDir k mode)] })
  | .rmdir p, k =>
    match k.files.lookup p with
    | none => (.error .enoent, k)
    | some b => if b.isDir then removeDir k p else (.error .enotdir, k)
  | .remove p, k =>
    match k.files.lookup p with
    | none => (.error .enoent, k)
    | some b => if b.isDir then removeDir k p else (.ok 0, { k with files := prune p k.files })
  | .rename src dst, k =>
    if (k.files.lookup src).isNone then (.error .enoent, k)
    else (.ok 0, { k with files := move src dst (prune dst k.files) })
  | .open_ p f mode, k =>
    if (k.files.lookup p).isSome then
      if f.creat && f.excl then (.error .eexist, k) else (.ok 3, k)
    else if f.creat then (.ok 3, { k with files := k.files ++ [(p, newFile k mode)] })
    else (.error .enoent, k)
  | .seteuid u, k => if u = 0xffffffff then (.error .einval, k) else (.ok 0, { k with euid := u })
  | .setegid g, k => if g = 0xffffffff then (.error .einval, k) else (.ok 0, { k with egid := g })
  | .setgroups gs, k => if gs.contains 0xffffffff then (.error .einval, k) else (.ok 0, k)
  | _, k => (.ok 0, k)

/-- Look a path up. -/
def find (k : Kernel) (p : CStr) : Except Errno Stat :=
  match k.files.lookup p with
  | some b => .ok b
  | none => .error .enoent

/-- What a collection lists. -/
def children (g : Grid) (name : CStr) : List CollEnt :=
  g.objs.filterMap fun x =>
    if (name ++ root).isPrefixOf x.1 then
      match x.2 with
      | .coll => some (.coll x.1)
      | .data _ => some (.dataObj (some (x.1.drop (name.length + 1))))
    else none

def rodsCall : RodsCall → Grid → RodsReply × Grid
  | .rcCollCreate _ name _, g =>
    if (g.objs.lookup name).isSome then ({ status := -809000 }, g)
    else ({ status := 0 }, { g with objs := g.objs ++ [(name, .coll)] })
  | .rcRmColl _ name _ _, g =>
    if g.objs.lookup name = some .coll then ({ status := 0 }, { g with objs := prune name g.objs })
    else ({ status := -814000 }, g)
  | .rcDataObjUnlink _ name _, g =>
    match g.objs.lookup name with
    | some (.data _) => ({ status := 0 }, { g with objs := prune name g.objs })
    | _ => ({ status := -808000 }, g)
  | .rcDataObjCreate _ inp, g =>
    if (g.objs.lookup inp.objPath).isSome then ({ status := -312000 }, g)
    else ({ status := 3 }, { g with objs := g.objs ++ [(inp.objPath, .data [])] })
  | .rcDataObjRename _ src dest, g =>
    if (g.objs.lookup src).isNone then ({ status := -808000 }, g)
    else ({ status := 0 }, { g with objs := move src dest g.objs })
  | .rcOpenCollection _ name, g => ({ status := 0 }, { g with cursor := children g name })
  | .rcReadCollection _ _, g =>
    match g.cursor with
    | [] => ({ status := -808000 }, g)
    | ent :: rest => ({ status := 0, ent := some ent }, { g with cursor := rest })
  | .rcGenQuery _ _, g =>
    ({ status := 0, query := some { rowCnt := 1, values := [lit "1200"], continueInx := 0 } }, g)
  | _, g => ({ status := 0 }, g)

/-- The world with a configuration and a password database. -/
def world (conf : Conf) (users : List (UInt32 × CStr)) : World Kernel Grid where
  conf
  sys := sysCall
  tree k p := k.files.lookup p
  lstat := find
  stat := find
  fstat k _ := match k.files.getLast? with
    | some x => .ok x.2
    | none => .error .eio
  readdir k p := .ok ((k.files.filter fun x => (p ++ root).isPrefixOf x.1).map fun x =>
    { name := x.1.drop (p.length + 1), isDir := x.2.isDir })
  realpath k p := (k.links.lookup p).or (if (k.files.lookup p).isSome then some p else none)
  statvfs _ _ := none
  mtab _ := none
  time _ := 0
  geteuid k := k.euid
  getegid k := k.egid
  getuid := 0
  getgid := 0
  getpwuid u := users.lookup u
  genNonce n := List.replicate 32 (UInt8.ofNat n)
  md5 x := x.take 16
  rand _ := 0
  getpid := 1
  rodsEnv := true
  rodsDefResource := []
  rods := rodsCall
  store g p := g.objs.lookup p
  catalogue g := g.objs.length
  errnoAfter _ e := e
  junk _ := {}
  past _ _ := []
  sys_tree c k hc := by
    cases c <;> simp [SysCall.mutates] at hc <;> simp only [sysCall]
    case open_ p f m =>
      rw [hc.1]
      simp only [Bool.false_and, Bool.false_eq_true, ↓reduceIte]
      split <;> rfl
    all_goals (split <;> rfl)
  rods_store c g hc := by
    cases c <;> simp [RodsCall.mutates] at hc <;> simp only [rodsCall]
    case rcReadCollection => split <;> rfl

/-! ## A daemon with one export -/

/-- The world of a daemon without private collections. -/
def publicWorld : World Kernel Grid := world { zone := some (lit "z"), privateColl := false } []

/-- An export to everyone of a removable directory, whose handle is known without a lookup. -/
def item (path : CStr) (rw : Bool) : EItem :=
  { path, orig := path, hosts := [{ options := { rw, removable := true } }] }

/-- The handle of the export's directory. -/
def handle (i : EItem) : NfsFh3 := { dataLen := 33, obj := { dev := i.fsid, ino := 1 } }

/-- The daemon after start-up with some exports. -/
def server (list : List EItem) (k : Kernel) (g : Grid) : Server Kernel Grid :=
  { kernel := k, rods := g, exportList := list }

/-! ## A tree that can be searched -/

/-- The path with its leading separators made one. -/
def squeeze (p : CStr) : CStr := if p.head? = some slash then root ++ p.dropWhile (· = slash) else p

/-- What stands before the names of the entries of a directory. -/
def stem (q : CStr) : CStr := if q = root then root else q ++ root

/-- The entries of a directory. -/
def entries (k : Kernel) (q : CStr) : List Dirent :=
  k.files.filterMap fun x =>
    let c := x.1.drop (stem q).length
    if (stem q).isPrefixOf x.1 ∧ c ≠ [] ∧ slash ∉ c then some
      { name := c, isDir := x.2.isDir } else none

/-- A world whose paths may start with more than one separator. -/
def treeWorld (privateColl : Bool) : World Kernel Grid :=
  { world { zone := some (lit "z"), privateColl } [(7, lit "u")] with
    lstat := fun k p => find k (squeeze p)
    readdir := fun k p => .ok (entries k (squeeze p)) }

/-- The root directory is there, and whatever is above a file. -/
def Rooted (k : Kernel) : Prop :=
  (k.files.lookup root).isSome ∧ ∀ x ∈ k.files, ∀ i < x.1.length, 0 < i → x.1[i]? = some slash →
    (k.files.lookup (x.1.take i)).isSome

instance (k : Kernel) : Decidable (Rooted k) := inferInstanceAs (Decidable (_ ∧ _))

/-! ## Objects that can be read -/

/-- An iRODS server with one descriptor: the object it is open on and its position there. -/
structure Shelf where
  grid : Grid := {}
  opened : CStr := []
  pos : Nat := 0
  deriving DecidableEq

/-- The contents of an object. -/
def contents (g : Grid) (p : CStr) : Option (List UInt8) :=
  match g.objs.lookup p with
  | some (.data b) => some b
  | _ => none

/-- Everyone may read, but only what is `writable` can be opened for writing. -/
def shelfCall (writable : CStr → Bool) : RodsCall → Shelf → RodsReply × Shelf
  | .rcDataObjOpen _ name _, h =>
    if (contents h.grid name).isSome then ({ status := 3 }, { h with opened := name, pos := 0 })
    else ({ status := -808000 }, h)
  | .rcDataObjOpenAndStat _ name _ _, h =>
    match contents h.grid name with
    | none => ({ status := -808000 }, h)
    | some b =>
      if writable name then
        ({ status := 3, dataSize := some b.length }, { h with opened := name, pos := 0 })
      else ({ status := -818000 }, h)
  | .rcDataObjRead _ _ len _, h =>
    let d := (((contents h.grid h.opened).getD []).drop h.pos).take len
    ({ status := d.length, data := d }, { h with pos := h.pos + d.length })
  | c, h => ((rodsCall c h.grid).1, { h with grid := (rodsCall c h.grid).2 })

/-- The daemon's world with such a server. -/
def shelfWorld (writable : CStr → Bool) : World Kernel Shelf :=
  { publicWorld with
    rods := shelfCall writable
    store := fun h p => h.grid.objs.lookup p
    catalogue := fun h => h.grid.objs.length
    rods_store := fun c h hc => by
      cases c
      case rcDataObjOpen =>
        simp only [shelfCall]
        split <;> rfl
      case rcDataObjOpenAndStat =>
        simp only [shelfCall]
        split
        · rfl
        · split <;> rfl
      case rcDataObjRead => rfl
      all_goals exact publicWorld.rods_store _ h.grid hc }

/-- The daemon after start-up, with a handle in its cache. -/
def shelfServer (list : List EItem) (k : Kernel) (h : Shelf) (fh : FhCache) : Server Kernel Shelf :=
  { kernel := k, rods := h, exportList := list, fh }

/-! ## A directory that can be rebuilt -/

/-- A local tree by components, and the number of objects it has had. -/
structure Plot where
  tree : List (List CStr × Node (ULong × ULong)) := []
  made : Nat := 0

namespace Plot

/-- A path cut at its separators. -/
def split : CStr → List CStr
  | [] => []
  | b :: p =>
    if b = slash then [] :: split p
    else match split p with
      | [] => [[b]]
      | c :: cs => (b :: c) :: cs

/-- The components of a path. -/
def parts (p : CStr) : List CStr := (split p).filter (· ≠ [])

/-- What is at a path. -/
def get (k : Plot) (cs : List CStr) : Option (Node (ULong × ULong)) := k.tree.lookup cs

/-- Without what is at or below a path. -/
def prune (k : Plot) (cs : List CStr) : Plot :=
  { k with tree := k.tree.filter fun x => !decide (cs <+: x.1) }

/-- The directory has no entries. -/
def isBare (k : Plot) (cs : List CStr) : Bool := k.tree.all fun x => !(x.1 ≠ [] ∧ x.1.dropLast = cs)

/-- Make an object, which gets a number from 1000 on. -/
def grow (k : Plot) (cs : List CStr) (dir : Bool) : Except Errno Int × Plot :=
  if (k.get cs).isSome then (.error .eexist, k)
  else if cs = [] ∨ !(k.get cs.dropLast).any (·.dir) then (.error .enoent, k)
  else (.ok 0, { tree := k.tree ++ [(cs, ⟨dir, (1, UInt64.ofNat (1000 + k.made % 1000))⟩)]
                 made := k.made + 1 })

def sysCall : SysCall → Plot → Except Errno Int × Plot
  | .remove p, k =>
    match k.get (parts p) with
    | none => (.error .enoent, k)
    | some n => if n.dir then (.error .enotempty, k) else (.ok 0, k.prune (parts p))
  | .rmdir p, k =>
    if (k.get (parts p)).any (·.dir) ∧ k.isBare (parts p) then (.ok 0, k.prune (parts p))
    else (.error .enotempty, k)
  | .mkdir p _, k => k.grow (parts p) true
  | .system c, k =>
    if (lit "echo \" \" > ").isPrefixOf c then k.grow (parts (c.drop 11)) false else (.ok 0, k)
  | _, k => (.ok 0, k)

/-- The attributes of an object. -/
def statOf (n : Node (ULong × ULong)) : Stat :=
  { dev := n.id.1, ino := n.id.2, mode := if n.dir then 0o040755 else 0o100600 }

/-- Look a path up; `.` and `..` are taken for the directory they are in. -/
def find (k : Plot) (p : CStr) : Except Errno Stat :=
  match k.get (if (parts p).getLast? = some (lit ".") ∨ (parts p).getLast? = some (lit "..") then
      (parts p).dropLast else parts p) with
  | some n => .ok (statOf n)
  | none => .error .enoent

/-- The entries of a directory. -/
def list (k : Plot) (p : CStr) : Except Errno (List Dirent) :=
  match k.get (parts p) with
  | none => .error .enoent
  | some n =>
    if n.dir then
      .ok ([{ name := lit ".", isDir := true }, { name := lit "..", isDir := true }] ++
        k.tree.filterMap fun x =>
          if x.1.dropLast = parts p then x.1.getLast?.map fun c => { name := c, isDir := x.2.dir }
          else none)
    else .error .enotdir

end Plot

/-- What a collection lists of its own objects. -/
def ownChildren (g : Grid) (name : CStr) : List CollEnt :=
  g.objs.filterMap fun x =>
    let c := x.1.drop (name.length + 1)
    if (name ++ root).isPrefixOf x.1 ∧ c ≠ [] ∧ slash ∉ c then
      match g.objs.lookup x.1 with
      | some .coll => some (.coll x.1)
      | some (.data _) => some (.dataObj (some c))
      | none => none
    else none

/-- An iRODS server whose collections cannot be opened when it is `down`. -/
def listCall (down : Bool) : RodsCall → Grid → RodsReply × Grid
  | .rcOpenCollection _ name, g =>
    if down then ({ status := -305000 }, { g with cursor := [] })
    else ({ status := 0 }, { g with cursor := ownChildren g name })
  | c, g => rodsCall c g

/-- The world of the daemon over such a tree and such a server. -/
def plotWorld (down : Bool) : World Plot Grid :=
  { publicWorld with
    sys := Plot.sysCall
    tree := fun k p => (k.find p).toOption
    lstat := Plot.find
    stat := Plot.find
    fstat := fun _ _ => .error .eio
    readdir := Plot.list
    realpath := fun _ _ => none
    statvfs := fun _ _ => none
    mtab := fun _ => none
    time := fun _ => 0
    geteuid := fun _ => 0
    getegid := fun _ => 0
    rods := listCall down
    sys_tree := fun c k hc => by cases c <;> simp [SysCall.mutates] at hc <;> rfl
    rods_store := fun c g hc => by
      cases c
      case rcOpenCollection =>
        simp only [listCall]
        split <;> rfl
      all_goals exact publicWorld.rods_store _ g hc }

/-- The daemon after start-up, over such a tree. -/
def plotServer (list : List EItem) (k : Plot) (g : Grid) (fh : FhCache) : Server Plot Grid :=
  { kernel := k, rods := g, exportList := list, fh }

/-! ## A disk that may fail -/

/-- A clock, the next descriptor, and whether data can be synced. -/
structure Disk where
  now : Int := 1
  next : Int := 3
  broken : Bool := false
  deriving DecidableEq

def diskCall : SysCall → Disk → Except Errno Int × Disk
  | .open_ .., k => (.ok k.next, { k with next := k.next + 1 })
  | .fsync _, k => if k.broken then (.error .eio, k) else (.ok 0, k)
  | _, k => (.ok 0, k)

/-- The attributes of the one file of the disk. -/
def diskFile : Stat := { dev := 1, ino := 5, mode := 0o100644 }

/-- The world of the daemon over such a disk. -/
def diskWorld : World Disk Grid :=
  { publicWorld with
    sys := diskCall
    tree := fun _ _ => some diskFile
    lstat := fun _ _ => .ok diskFile
    stat := fun _ _ => .ok diskFile
    fstat := fun _ _ => .ok diskFile
    readdir := fun _ _ => .error .enotdir
    realpath := fun _ p => some p
    statvfs := fun _ _ => none
    mtab := fun _ => none
    time := fun k => max 1 k.now
    geteuid := fun _ => 0
    getegid := fun _ => 0
    sys_tree := fun _ _ _ => rfl }

/-- The handle of the file. -/
def diskHandle : NfsFh3 := { dataLen := 33, obj := { dev := 1, ino := 5, gen := 5 } }

/-! ## A file system that keeps times -/

def timesCall : SysCall → Kernel → Except Errno Int × Kernel
  | .utime p actime modtime, k =>
    if (k.files.lookup p).isSome then
      (.ok 0, { k with files := k.files.map fun x =>
        if x.1 = p then (x.1, { x.2 with atime := actime, mtime := modtime }) else x })
    else (.error .enoent, k)
  | c, k => sysCall c k

/-- The world of the daemon over a file system that stores times as they are set. -/
def timesWorld : World Kernel Grid :=
  { publicWorld with
    sys := timesCall
    sys_tree := fun c k hc => by
      cases c
      case utime => cases hc
      all_goals exact publicWorld.sys_tree _ k hc }

/-! ## A file system of directories -/

/-- The directories other than the root, by their components. -/
structure Folders where
  dirs : List (List CStr) := []
  closed : ∀ cs ∈ dirs, cs.dropLast = [] ∨ cs.dropLast ∈ dirs := by simp

namespace Folders

/-- The components of a path. -/
def steps (p : CStr) : List CStr := (p.splitOn slash).filter (· ≠ [])

/-- The components are those of a directory. -/
def has (k : Folders) (cs : List CStr) : Bool := cs == [] || k.dirs.contains cs

/-- A new directory in one that is there. -/
def make (k : Folders) (cs : List CStr) (h : cs.dropLast = [] ∨ cs.dropLast ∈ k.dirs) :
    Folders where
  dirs := k.dirs ++ [cs]
  closed := by
    intro ds hds
    rcases List.mem_append.1 hds with hds | hds
    · exact (k.closed ds hds).imp_right (List.mem_append_left _)
    · rw [List.mem_singleton.1 hds]
      exact h.imp_right (List.mem_append_left _)

def sysCall : SysCall → Folders → Except Errno Int × Folders
  | .mkdir p _, k =>
    if p.head? ≠ some slash then (.error .enoent, k)
    else if k.has (steps p) then (.error .eexist, k)
    else if h : (steps p).dropLast = [] ∨ (steps p).dropLast ∈ k.dirs then
      (.ok 0, k.make (steps p) h)
    else (.error .enoent, k)
  | _, k => (.ok 0, k)

/-- Look a path up. -/
def find (k : Folders) (p : CStr) : Except Errno Stat :=
  if p.head? = some slash ∧ k.has (steps p) then
    .ok { dev := 1, mode := 0o040700
          ino := if steps p = [] then 1 else UInt64.ofNat (k.dirs.idxOf (steps p) + 2) }
  else .error .enoent

end Folders

/-- The world of the daemon over such a file system. -/
def foldersWorld : World Folders Grid :=
  { publicWorld with
    sys := Folders.sysCall
    tree := fun k p => (k.find p).toOption
    lstat := Folders.find
    stat := Folders.find
    fstat := fun _ _ => .error .eio
    readdir := fun _ _ => .error .enoent
    realpath := fun _ _ => none
    statvfs := fun _ _ => none
    mtab := fun _ => none
    time := fun _ => 0
    geteuid := fun _ => 0
    getegid := fun _ => 0
    sys_tree := fun c k hc => by cases c <;> simp [SysCall.mutates] at hc <;> rfl }

/-! ## A file system whose files are opened -/

/-- A local tree and the path that was opened last. -/
structure Drive where
  files : List (CStr × Stat) := []
  opened : CStr := []
  deriving DecidableEq

namespace Drive

/-- A file is opened if its owner may read it. -/
def sysCall : SysCall → Drive → Except Errno Int × Drive
  | .open_ p f mode, k =>
    match k.files.lookup p with
    | some b =>
      if f.creat && f.excl then (.error .eexist, k)
      else if b.mode &&& 0o400 = 0 then (.error .eacces, k)
      else (.ok 3, { k with opened := p })
    | none =>
      if f.creat then
        let ino := UInt64.ofNat (k.files.length + 2)
        (.ok 3, { files := k.files ++ [(p, { dev := 1, ino, mode := 0o100000 + mode })]
                  opened := p })
      else (.error .enoent, k)
  | .utime p actime modtime, k =>
    if (k.files.lookup p).isSome then
      (.ok 0, { k with files := k.files.map fun x =>
        (x.1, if x.1 = p then { x.2 with atime := actime, mtime := modtime } else x.2) })
    else (.error .enoent, k)
  | _, k => (.ok 0, k)

/-- Look a path up. -/
def find (k : Drive) (p : CStr) : Except Errno Stat :=
  match k.files.lookup p with
  | some b => .ok b
  | none => .error .enoent

end Drive

/-- The world of the daemon over such a file system. -/
def driveWorld : World Drive Grid :=
  { publicWorld with
    sys := Drive.sysCall
    tree := fun k p => k.files.lookup p
    lstat := Drive.find
    stat := Drive.find
    fstat := fun k _ => k.find k.opened
    readdir := fun _ _ => .error .enoent
    realpath := fun _ p => some p
    statvfs := fun _ _ => none
    mtab := fun _ => none
    time := fun _ => 0
    geteuid := fun _ => 0
    getegid := fun _ => 0
    sys_tree := fun c k hc => by
      cases c
      case open_ p f mode =>
        simp only [SysCall.mutates, Bool.or_eq_false_iff] at hc
        simp only [Drive.sysCall, hc.1]
        split
        · split
          · rfl
          · split <;> rfl
        · rfl
      case utime => cases hc
      all_goals rfl }

/-- The daemon after start-up, over such a file system. -/
def driveServer (list : List EItem) (k : Drive) : Server Drive Grid :=
  { kernel := k, rods := {}, exportList := list }

/-- A run that was evaluated to a reply. -/
theorem replied {α β : Type} {x : Except Stop α} {f : α → β} {v : β}
    (h : x.toOption.map f = some v) : ∃ r, x = .ok r ∧ f r = v := by
  cases x with
  | error st => cases h
  | ok r => exact ⟨r, rfl, Option.some.inj h⟩

end NfsRods.Sandbox
