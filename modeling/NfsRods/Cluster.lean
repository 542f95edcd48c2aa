import Mathlib.Data.List.Sort
import NfsRods.Inet

/-!
# Tagged files

`Extras/cluster.c`, which a build with `WANT_CLUSTER` has: a path is replaced by that of a tagged
file for the client.

The names of the directory are sorted by `strcmp` and gone through from the last one on;
`clusterTag` is what the loop does with one name. Names are at most `NFS_MAXNAMLEN` bytes, so that
the buffers hold them with a tag. Where the code calls `strcmp` without a string or reads before a
buffer there is no result.
-/

namespace NfsRods

open CStr

/-- `CLU_TOOLONG`, `CLU_SLAVE`, `CLU_MASTER` and `CLU_IO`. -/
inductive Clu
  | toolong | slave | master | io
  deriving DecidableEq, Repr

/-- What the lookup asks for: the names in a directory, `none` if it cannot be read, and the name of
a machine, `none` if it is not known. -/
structure ClusterWorld where
  readdir : CStr → Option (List CStr)
  gethostbyaddr : UInt32 → Option CStr

/-! ## Names -/

/-- `get_host`: the name ends at the first dot. -/
def getHost (w : ClusterWorld) (remote : UInt32) : Option CStr :=
  (w.gethostbyaddr remote).map (·.takeWhile (· ≠ 46))

/-- `strstr`: the string from the first occurrence on. -/
def strstrFrom (t : CStr) : CStr → Option CStr
  | [] => if t = [] then some [] else none
  | c :: s => if t <+: c :: s then some (c :: s) else strstrFrom t s

/-- The beginning of a host tag. -/
def hostMark : CStr := lit "$$HOST="

/-- `is_host`. -/
def isHost (name : CStr) : Bool := strstr name hostMark && decide (lit "$$" <:+ name)

/-- `match_host`: the tag, if it is for the host. -/
def matchHost (hname : Option CStr) (entry : CStr) : Option (Option CStr) :=
  if isHost entry = false then some none
  else
    let part := (strstrFrom hostMark entry).getD []
    let buf := (part.drop 7).take (part.length - 9)
    match hname with
    -- `strcmp` of `NULL`
    | none => none
    | some hname =>
      if buf = hname then some (some part)
      else
        match buf.getLast? with
        -- `buf[strlen(buf) - 1]` of an empty string
        | none => none
        | some c =>
          if c ≠ 42 then some none
          else if buf.dropLast <+: hname then some (some part)
          else some none

/-- `cluster_dirname`. -/
def clusterDirname (path : CStr) : CStr :=
  let p := path.reverse.dropWhile (· = slash)
  if p = [] then if path = [] then lit "." else root
  else
    let d := p.dropWhile (· ≠ slash)
    if d = [] then lit "."
    else if d.dropWhile (· = slash) = [] then root
    else (d.dropWhile (· = slash)).reverse

/-- `cluster_basename`. -/
def clusterBasename (path : CStr) : CStr :=
  let p := path.reverse.dropWhile (· = slash)
  if p = [] then if path = [] then lit "." else root else (p.takeWhile (· ≠ slash)).reverse

/-! ## Tags -/

/-- The tags `$$CLIENT$$`, `$$ALWAYS=IP$$`, `$$ALWAYS=CLIENT$$`. -/
def clientTag : CStr := lit "$$CLIENT$$"

def alwaysIpTag : CStr := lit "$$ALWAYS=IP$$"

def alwaysClientTag : CStr := lit "$$ALWAYS=CLIENT$$"

/-- The tag of an address. -/
def ipTag (remote : CStr) : CStr := lit "$$IP=" ++ remote ++ lit "$$"

/-- The beginning of an address, up to its `n`th dot. -/
def keepDots : Nat → CStr → CStr
  | 0, _ => []
  | n + 1, s => s.takeWhile (· ≠ 46) ++ 46 :: keepDots n (s.dropWhile (· ≠ 46)).tail

/-- `cluster_netmask`. -/
def clusterNetmask (remote : CStr) (n : Nat) : CStr :=
  lit "$$IP=" ++ keepDots n remote ++
    match n with
    | 3 => lit "0_24$$"
    | 2 => lit "0.0_16$$"
    | 1 => lit "0.0.0_8$$"
    | _ => []

/-- `match_suffix`. -/
def matchSuffix (master suffix entry : CStr) : Bool := entry == master ++ suffix

/-! ## The lookup -/

/-- A name that `cluster_scandir` keeps. -/
def scanned (master entry : CStr) : Bool :=
  decide (master <+: entry) || entry == lit "$$CREATE=IP$$" || entry == lit "$$CREATE=CLIENT$$" ||
    entry == alwaysIpTag || entry == alwaysClientTag

/-- `cluster_scandir`. -/
def clusterScandir (w : ClusterWorld) (path : CStr) : Option (List CStr) :=
  (w.readdir (clusterDirname path)).map fun names =>
    (names.filter (scanned (clusterBasename path))).insertionSort (· ≤ ·)

/-- A name in the loop of `cluster_lookup_lowlevel`: the suffix to append, if it matches. -/
def clusterTag (master remote : CStr) (hname : Option CStr) (entry : CStr) :
    Option (Option CStr) :=
  if matchSuffix master (ipTag remote) entry then some (some (ipTag remote))
  else if matchSuffix master alwaysIpTag entry then some (some (ipTag remote))
  else if entry = alwaysIpTag then some (some (ipTag remote))
  else if matchSuffix master clientTag entry then some (some clientTag)
  else if matchSuffix master alwaysClientTag entry then some (some clientTag)
  else if entry = alwaysClientTag then some (some clientTag)
  else if matchSuffix master (clusterNetmask remote 3) entry then
    some (some (clusterNetmask remote 3))
  else if matchSuffix master (clusterNetmask remote 2) entry then
    some (some (clusterNetmask remote 2))
  else if matchSuffix master (clusterNetmask remote 1) entry then
    some (some (clusterNetmask remote 1))
  else if isHost master then some none
  else matchHost hname entry

/-- The loop, which stops at a name that matches. -/
def clusterLoop (master remote : CStr) (hname : Option CStr) : List CStr → Option (Option CStr)
  | [] => some none
  | entry :: entries =>
    match clusterTag master remote hname entry with
    | some none => clusterLoop master remote hname entries
    | res => res

/-- The suffix is appended if possible. -/
def appendSuffix (path : CStr) : Option CStr → CStr × Clu
  | none => (path, .master)
  | some buf =>
    if path.length + buf.length + 1 < maxPathLen then (path ++ buf, .slave) else (path, .toolong)

/-- `cluster_lookup_lowlevel`: the path it leaves and what it returns. -/
def clusterLookupLowlevel (w : ClusterWorld) (path : CStr) (remote : UInt32) :
    Option (CStr × Clu) :=
  match clusterScandir w path with
  | none => some (path, .io)
  | some [] => some (path, .master)
  | some entries =>
    (clusterLoop (clusterBasename path) (inetNtoa remote) (getHost w remote) entries.reverse).map
      (appendSuffix path)

/-! ## Lookups and creations -/

/-- `opt_cluster` and `opt_cluster_path`. -/
structure ClusterOpts where
  cluster : Bool
  clusterPath : CStr

/-- A string cut at its colons. -/
def colonList : CStr → List CStr
  | [] => [[]]
  | c :: s =>
    if c = 58 then [] :: colonList s
    else match colonList s with
      | [] => [[c]]
      | x :: xs => (c :: x) :: xs

/-- The values of `last` in `want_cluster`: nothing is looked for behind a colon at the end. -/
def clusterPaths (clusterPath : CStr) : List CStr :=
  match colonList clusterPath with
  | [] => []
  | x :: xs => x :: if xs.getLast? = some [] then xs.dropLast else xs

/-- `want_cluster`. -/
def wantCluster (o : ClusterOpts) (path : CStr) : Bool :=
  -- if path is too long, play it safe
  decide (maxPathLen < o.clusterPath.length + 1) ||
    (clusterPaths o.clusterPath).any fun last => decide (last <+: path)

/-- The tag of `file$$$$`. -/
def normalTag : CStr := lit "$$$$"

def createIpTag : CStr := lit "$$CREATE=IP$$"

def createClientTag : CStr := lit "$$CREATE=CLIENT$$"

/-- `cluster_lookup`: the path it leaves, and `nstat`. -/
def clusterLookup (o : ClusterOpts) (w : ClusterWorld) (path : Option CStr) (remote : UInt32)
    (nstat : Nfsstat3) : Option (Option CStr × Nfsstat3) :=
  match path with
  | none => some (none, nstat)
  | some path =>
    if o.cluster = false ∨ nstat ≠ .ok ∨ wantCluster o path = false then some (some path, nstat)
    else if strstrFrom normalTag path = some normalTag then
      some (some (path.take (path.length - 4)), nstat)
    else (clusterLookupLowlevel w path remote).map fun (path, res) =>
      (some path, match res with
        | .toolong => .nametoolong
        | .io => .io
        | .slave | .master => nstat)

/-- A name in the loop of `cluster_create`: `buf`, if the name is a create tag. -/
def clusterCreateTag (master remote entry : CStr) : Option CStr :=
  -- always create IP file
  if matchSuffix master createIpTag entry || matchSuffix master alwaysIpTag entry then
    some (ipTag remote)
  else if entry = createIpTag ∨ entry = alwaysIpTag then some (ipTag remote)
  -- always create CLIENT file
  else if matchSuffix master createClientTag entry || matchSuffix master alwaysClientTag entry then
    some clientTag
  else if entry = createClientTag ∨ entry = alwaysClientTag then some clientTag
  else none

/-- `cluster_create`: the path it leaves, and `nstat`. -/
def clusterCreate (o : ClusterOpts) (w : ClusterWorld) (path : CStr) (remote : UInt32)
    (nstat : Nfsstat3) : Option (CStr × Nfsstat3) :=
  if o.cluster = false ∨ nstat ≠ .ok ∨ wantCluster o path = false then some (path, nstat)
  else match clusterLookupLowlevel w path remote with
    | none => none
    | some (path, .toolong) => some (path, .nametoolong)
    | some (path, .io) => some (path, .io)
    | some (path, .slave) => some (path, nstat)
    | some (path, .master) =>
      -- `cluster_dirents` are those of the lookup
      let entries := ((clusterScandir w path).getD []).reverse
      match entries.findSome? (clusterCreateTag (clusterBasename path) (inetNtoa remote)) with
      | none => some (path, nstat)
      | some buf =>
        if path.length + buf.length + 1 < maxPathLen then some (path ++ buf, nstat)
        else some (path, .nametoolong)

end NfsRods
