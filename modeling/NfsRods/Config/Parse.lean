import NfsRods.Config.Exports
import NfsRods.Config.Scan

/-!
# Parsing the exports file

`exports.y`: the actions that fill the current host, item and list, the grammar as the automaton
bison makes of it, and `exports_parse`.

The grammar only nests lists to the right, so a place in it (`Place`) and the number of list
elements before that place say all about the parser's stack. `advance` shifts a token, `act` runs
the actions of the rules it completes; the end of the input completes what a newline would.
-/

namespace NfsRods

open CStr

/-! ## Library functions -/

/-- `isspace`. -/
def isSpace (b : UInt8) : Bool := b == 32 || (9 ≤ b && b ≤ 13)

/-- `(int) strtol(s, NULL, 10)`, which is what `atoi` returns. -/
def strtolInt (s : CStr) : Int :=
  let s := s.dropWhile isSpace
  let neg := s.head? == some 45
  let s := if neg || s.head? == some 43 then s.tail else s
  let n : Int := value (s.takeWhile isDigit)
  let long := if neg then max (-n) (-2 ^ 63) else min n (2 ^ 63 - 1)
  (long + 2 ^ 31) % 2 ^ 32 - 2 ^ 31

/-- A part of a dotted address as `strtoul` reads it with base 0: octal after a leading 0. -/
def addressPart (s : CStr) : Option Nat :=
  let octal := s.head? == some 48
  if s.isEmpty || !s.all (fun b => isDigit b && (!octal || b < 56)) then none
  else
    let n := s.foldl (fun n b => n * (if octal then 8 else 10) + (b.toNat - 48)) 0
    if n ≤ 255 then some n else none

/-- `inet_aton` of four parts, the first the most significant byte. -/
def inetAton (s : CStr) : Option UInt32 :=
  match (s.splitOn 46).map addressPart with
  | [some a, some b, some c, some d] => some (UInt32.ofNat (((a * 256 + b) * 256 + c) * 256 + d))
  | _ => none

/-- `make_netmask`. -/
def makeNetmask (bits : Nat) : UInt32 :=
  UInt32.ofNat (if bits < 32 then (2 ^ bits - 1) <<< (32 - bits) else 2 ^ bits - 1)

/-- `normpath`: blocks of slashes become one. -/
def squeeze : CStr → CStr
  | a :: b :: s => if a == slash && b == slash then squeeze (b :: s) else a :: squeeze (b :: s)
  | s => s

/-- `normpath`. -/
def normpath (path : CStr) : CStr :=
  let n := squeeze path
  if 1 < n.length && n.getLast? == some slash then n.dropLast else n

/-! ## The actions -/

/-- Host name and path resolution. -/
structure Resolver where
  gethostbyname : CStr → Option UInt32
  realpath : CStr → Option CStr

/-- `struct exportnode`: a directory and the names of its groups. -/
structure ExportNode where
  dir : CStr
  groups : List CStr
  deriving DecidableEq, Repr

/-- What the mount protocol's list has of an item. -/
def EItem.node (it : EItem) : ExportNode := { dir := it.orig, groups := it.hosts.map (·.orig) }

/-- `e_list` and `ne_list`, the hosts of `cur_item` and the groups of `ne_item`, `cur_host` and
`e_error`, as `clear_cur` leaves them. -/
structure ECur where
  list : List EItem := []
  neList : List ExportNode := []
  hosts : List EHost := []
  groups : List CStr := []
  host : EHost := {}
  error : Bool := false
  deriving DecidableEq, Repr

/-- `add_host`. -/
def addHost (g : ECur) : ECur :=
  { g with hosts := g.hosts ++ [g.host], groups := g.groups ++ [g.host.orig], host := {} }

/-- `add_item`. -/
def addItem (r : Resolver) (path : CStr) (g : ECur) : ECur :=
  -- a path marked as removable for all hosts, or listing none, is not resolved
  match if g.hosts.all (·.options.removable) then some (normpath path) else r.realpath path with
  | none => { g with error := true, hosts := [], groups := [] }
  | some buf =>
    if maxPathLen < buf.length + 1 then { g with error := true, hosts := [], groups := [] }
    else
      -- if no hosts listed, list default host
      let g := if g.hosts.isEmpty then addHost g else g
      { g with
        list := g.list ++ [{ path := buf, orig := path, hosts := g.hosts }]
        neList := g.neList ++ [{ dir := path, groups := g.groups }]
        hosts := [], groups := [] }

/-- `set_hostname`; a mask of ones keeps the whole address. -/
def setHostname (r : Resolver) (name : CStr) (g : ECur) : ECur :=
  if maxPathLen < name.length + 1 then { g with error := true }
  else
    match r.gethostbyname name with
    | some a => { g with host := { g.host with orig := name, addr := a, mask := 0xffffffff } }
    | none => { g with error := true, host := { g.host with orig := name } }

/-- `set_ipaddr`. -/
def setIpaddr (addr : CStr) (g : ECur) : ECur :=
  match inetAton addr with
  | some a => { g with host := { g.host with orig := addr, addr := a, mask := 0xffffffff } }
  | none => { g with error := true, host := { g.host with orig := addr, mask := 0xffffffff } }

/-- `set_ipnet`: the address before the slash, the mask after it, as a number of bits (`new`) or
as an address. -/
def setIpnet (addr : CStr) (new : Bool) (g : ECur) : ECur :=
  let net := (addr.dropWhile (· != slash)).tail
  let g := setIpaddr (addr.takeWhile (· != slash)) g
  let g :=
    if new then { g with host := { g.host with mask := makeNetmask (strtolInt net).toNat } }
    else
      match inetAton net with
      | some m => { g with host := { g.host with mask := m } }
      | none => { g with error := true }
  { g with host := { g.host with orig := addr } }

/-- `add_option`; an unknown option is ignored. -/
def addOption (opt : CStr) (g : ECur) : ECur :=
  let o := g.host.options
  let o :=
    if opt = lit "no_root_squash" then { o with noRootSquash := true }
    else if opt = lit "root_squash" then { o with noRootSquash := false }
    else if opt = lit "all_squash" then { o with allSquash := true }
    else if opt = lit "no_all_squash" then { o with allSquash := false }
    else if opt = lit "rw" then { o with rw := true }
    else if opt = lit "ro" then { o with rw := false }
    else if opt = lit "removable" then { o with removable := true }
    else if opt = lit "fixed" then { o with removable := false }
    else if opt = lit "insecure" then { o with insecure := true }
    else if opt = lit "secure" then { o with insecure := false }
    else o
  { g with host := { g.host with options := o } }

/-- `add_option_with_value`. -/
def addOptionWithValue (opt val : CStr) (g : ECur) : ECur :=
  if opt = lit "password" then
    { g with host := { g.host with password := val.take passwordMaxlen } }
  else if opt = lit "anonuid" then
    { g with host := { g.host with anonuid := UInt64.ofInt (strtolInt val) } }
  else if opt = lit "anongid" then
    { g with host := { g.host with anongid := UInt64.ofInt (strtolInt val) } }
  else g

/-! ## The grammar -/

/-- A place in the grammar: what of the current line is on the parser's stack. -/
inductive EPlace
  /-- nothing, at the start of `exports` -/
  | line
  /-- `PATH` -/
  | path (p : CStr)
  /-- `PATH WHITE`, then `n` times `host WHITE` -/
  | white (p : CStr) (n : Nat)
  /-- the same and `name` -/
  | name (p : CStr) (n : Nat)
  /-- the same, `name` if `named`, `'('`, and `k` times `opt ','` -/
  | opts (p : CStr) (n : Nat) (named : Bool) (k : Nat)
  /-- the same and `ID` -/
  | ident (p : CStr) (n : Nat) (named : Bool) (k : Nat) (o : CStr)
  /-- the same and `ID OPTVALUE` -/
  | value (p : CStr) (n : Nat) (named : Bool) (k : Nat)
  /-- `PATH WHITE`, `n` times `host WHITE`, and `host` -/
  | host (p : CStr) (n : Nat)
  deriving DecidableEq, Repr

/-- The symbols of the current line on the stack. -/
def EPlace.height : EPlace → Nat
  | .line => 0
  | .path _ => 1
  | .white _ n => 2 + 2 * n
  | .name _ n => 3 + 2 * n
  | .opts _ n named k => 3 + 2 * n + named.toNat + 2 * k
  | .ident _ n named k _ => 4 + 2 * n + named.toNat + 2 * k
  | .value _ n named k => 5 + 2 * n + named.toNat + 2 * k
  | .host _ n => 3 + 2 * n

/-- The place a token leads to; `none` is a syntax error. -/
def EPlace.advance : EPlace → EToken → Option EPlace
  | .line, .path p => some (.path p)
  | .path _, .newline => some .line
  | .path p, .white => some (.white p 0)
  | .white _ _, .newline => some .line
  | .white p n, .id _ => some (.name p n)
  | .white p n, .ip _ => some (.name p n)
  | .white p n, .net _ => some (.name p n)
  | .white p n, .oldnet _ => some (.name p n)
  | .white p n, .lparen => some (.opts p n false 0)
  | .name _ _, .newline => some .line
  | .name p n, .lparen => some (.opts p n true 0)
  | .name p n, .white => some (.white p (n + 1))
  | .opts p n named k, .id o => some (.ident p n named k o)
  | .opts p n _ _, .rparen => some (.host p n)
  | .ident p n named k _, .optvalue _ => some (.value p n named k)
  | .ident p n named k _, .comma => some (.opts p n named (k + 1))
  | .ident p n _ _ _, .rparen => some (.host p n)
  | .value p n named k, .comma => some (.opts p n named (k + 1))
  | .value p n _ _, .rparen => some (.host p n)
  | .host _ _, .newline => some .line
  | .host p n, .white => some (.white p (n + 1))
  | _, _ => none

/-- The actions of the rules a token completes. -/
def EPlace.act (r : Resolver) : EPlace → EToken → ECur → ECur
  | .path p, .newline => addItem r p
  | .white p _, .newline => addItem r p
  | .white _ _, .id t => setHostname r t
  | .white _ _, .ip t => setIpaddr t
  | .white _ _, .net t => setIpnet t true
  | .white _ _, .oldnet t => setIpnet t false
  | .name p _, .newline => addItem r p ∘ addHost
  | .name _ _, .white => addHost
  | .opts _ _ _ _, .rparen => addHost
  | .ident _ _ _ _ o, .optvalue v => addOptionWithValue o v
  | .ident _ _ _ _ o, .comma => addOption o
  | .ident _ _ _ _ o, .rparen => addHost ∘ addOption o
  | .value _ _ _ _, .rparen => addHost
  | .host p _, .newline => addItem r p
  | _, _ => id

/-- The greatest number of the line's symbols on the stack while the token is taken in. A newline
is shifted behind `export`; a closing parenthesis behind `'(' opts`, where an empty `opts` after
the last comma is pushed before. -/
def EPlace.peak : EPlace → EToken → Nat
  | _, .newline => 2
  | .opts _ n named k, .rparen => max (4 + 2 * n + named.toNat + 2 * k) (5 + 2 * n + named.toNat)
  | .ident _ n named _ _, .rparen => 5 + 2 * n + named.toNat
  | .value _ n named _, .rparen => 5 + 2 * n + named.toNat
  | place, tok => ((place.advance tok).map height).getD 0

/-- `YYMAXDEPTH`. -/
def yymaxdepth : Nat := 10000

/-- The states on the stack: the first one, `lines` times `export '\n'`, and the current line's. -/
def yydepth (lines height : Nat) : Nat := 1 + 2 * lines + height

/-- `yyerror`. -/
def yyerror (g : ECur) : ECur := { g with error := true }

/-- What `copy_text` does to `e_error`. -/
def Lexeme.note (l : Lexeme) (g : ECur) : ECur := if l.long then { g with error := true } else g

/-- The end of the input completes what a newline would; at the start of a line the empty `exports`
is pushed. -/
def yyfinish (r : Resolver) (lines : Nat) (place : EPlace) (g : ECur) : ECur :=
  if place = .line then if yymaxdepth ≤ yydepth lines 1 then yyerror g else g
  else if (place.advance .newline).isSome then place.act r .newline g
  else yyerror g

/-- `yyparse`: the globals it leaves, and the token at which it has stopped before the end of the
input, if it has. It stops at a syntax error and when its stack is full. -/
def yyparse (r : Resolver) : Nat → EPlace → ECur → List Lexeme → ECur × Option Lexeme
  | lines, place, g, [] => (yyfinish r lines place g, none)
  | lines, place, g, l :: ls =>
    if l.tok.isEnd then (yyfinish r lines place g, some l)
    else
      match place.advance l.tok with
      | none => (yyerror g, some l)
      | some place' =>
        if yymaxdepth ≤ yydepth lines (place.peak l.tok) then (yyerror g, some l)
        else
          yyparse r (if l.tok = .newline then lines + 1 else lines) place'
            (place.act r l.tok (l.note g)) ls

/-! ## Loading the file -/

/-- The list in force, the globals of the parser and the scanner's buffer. -/
structure Exports where
  list : List EItem := []
  cur : ECur := {}
  buf : YyBuffer := {}
  deriving DecidableEq, Repr

/-- `exports_parse`, with `exports_access` and the file, `none` when it cannot be opened. -/
def exportsParse (r : Resolver) (ahead : ReadAhead) (access : Bool) (file : Option CStr)
    (s : Exports) : Exports :=
  if access then s
  else
    match file with
    | none => { s with list := [] }
    | some text =>
      let (cur, stop) := yyparse r 0 .line {} (scan 0 s.buf.bol (s.buf.input text))
      { list := if cur.error then [] else cur.list
        cur := cur
        -- the end of the input restarts the scanner
        buf := match stop with
          | none => {}
          | some l => l.leave (ahead s.buf text l.unread) }

end NfsRods
