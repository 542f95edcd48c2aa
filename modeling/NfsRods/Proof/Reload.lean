import NfsRods.Config.Parse

/-!
# Reloading the exports file

`exports_parse` gives the scanner a new file and clears the parser's globals; it does not restart
the scanner. A call that stops before the end of its input leaves the rest of the buffer to the
next call, whose file is then read behind it.

* `IsExports`: the grammar of `exports.y`, with the lines a sentence of it stands for; `Line.item`
  is the export a line asks for.
* `IsExports.shifts_eq`: the parser's automaton takes in every sentence, and its actions are those
  of the lines.
* `yyparse_end`: a token sequence that can be completed to a sentence is read to the end.
* `exports_parse_content`: after calls that have read their files to the end, the list in force is
  that of the file read last; `exports_parse_leftover` has a broken file export a directory
  through the correct one that replaces it.
-/

namespace NfsRods

open CStr

/-! ## The grammar -/

/-- An `opt`. -/
structure OptEntry where
  name : CStr
  value : Option CStr := none
  deriving DecidableEq, Repr

/-- A `host`: its name, if it has one, as a token, and its options. -/
structure HostEntry where
  name : Option EToken := none
  opts : List OptEntry := []
  deriving DecidableEq, Repr

/-- An `export`. -/
structure ExportLine where
  path : CStr
  hosts : List HostEntry := []
  deriving DecidableEq, Repr

inductive IsOpt : List EToken → OptEntry → Prop
  | flag (o : CStr) : IsOpt [.id o] { name := o }
  | valued (o v : CStr) : IsOpt [.id o, .optvalue v] { name := o, value := some v }

inductive IsOpts : List EToken → List OptEntry → Prop
  | one {t : List EToken} {o : OptEntry} : IsOpt t o → IsOpts t [o]
  | cons {t ts : List EToken} {o : OptEntry} {os : List OptEntry} :
      IsOpt t o → IsOpts ts os → IsOpts (t ++ .comma :: ts) (o :: os)
  | nil : IsOpts [] []

inductive IsName : EToken → Prop
  | id (t : CStr) : IsName (.id t)
  | ip (t : CStr) : IsName (.ip t)
  | net (t : CStr) : IsName (.net t)
  | oldnet (t : CStr) : IsName (.oldnet t)

inductive IsHost : List EToken → HostEntry → Prop
  | name {a : EToken} : IsName a → IsHost [a] { name := some a }
  | nameOpts {a : EToken} {ts : List EToken} {os : List OptEntry} :
      IsName a → IsOpts ts os →
        IsHost (a :: .lparen :: (ts ++ [.rparen])) { name := some a, opts := os }
  | opts {ts : List EToken} {os : List OptEntry} :
      IsOpts ts os → IsHost (.lparen :: (ts ++ [.rparen])) { opts := os }

inductive IsHosts : List EToken → List HostEntry → Prop
  | one {t : List EToken} {h : HostEntry} : IsHost t h → IsHosts t [h]
  | cons {t ts : List EToken} {h : HostEntry} {hs : List HostEntry} :
      IsHost t h → IsHosts ts hs → IsHosts (t ++ .white :: ts) (h :: hs)
  | white {t : List EToken} {h : HostEntry} : IsHost t h → IsHosts (t ++ [.white]) [h]

inductive IsExport : List EToken → ExportLine → Prop
  | path (p : CStr) : IsExport [.path p] { path := p }
  | hosts (p : CStr) {ts : List EToken} {hs : List HostEntry} :
      IsHosts ts hs → IsExport (.path p :: .white :: ts) { path := p, hosts := hs }
  | white (p : CStr) : IsExport [.path p, .white] { path := p }

inductive IsExports : List EToken → List ExportLine → Prop
  | one {t : List EToken} {e : ExportLine} : IsExport t e → IsExports t [e]
  | cons {t ts : List EToken} {e : ExportLine} {es : List ExportLine} :
      IsExport t e → IsExports ts es → IsExports (t ++ .newline :: ts) (e :: es)
  | nil : IsExports [] []

/-! ## What the lines ask for -/

/-- The action of an option. -/
def OptEntry.add (o : OptEntry) : ECur → ECur :=
  match o.value with
  | none => addOption o.name
  | some v => addOptionWithValue o.name v

/-- What an option makes of a host. -/
def OptEntry.apply (o : OptEntry) (h : EHost) : EHost := (o.add { host := h }).host

/-- The host a name stands for, when it can be resolved. -/
def nameHost (r : Resolver) : EToken → Option EHost
  | .id t =>
    if t.length < maxPathLen then
      (r.gethostbyname t).map fun a => { orig := t, addr := a, mask := 0xffffffff }
    else none
  | .ip t => (inetAton t).map fun a => { orig := t, addr := a, mask := 0xffffffff }
  | .net t => (inetAton (t.takeWhile (· != slash))).map fun a =>
      { orig := t, addr := a
        mask := makeNetmask (strtolInt (t.dropWhile (· != slash)).tail).toNat }
  | .oldnet t => do
      let a ← inetAton (t.takeWhile (· != slash))
      let m ← inetAton (t.dropWhile (· != slash)).tail
      some { orig := t, addr := a, mask := m }
  | _ => none

/-- The host an entry describes; one without a name is everybody. -/
def HostEntry.host (r : Resolver) (e : HostEntry) : Option EHost :=
  (e.name.elim (some {}) (nameHost r)).map fun h => e.opts.foldl (fun h o => o.apply h) h

/-- The export a line asks for: its path resolved unless it is removable for all its hosts, for
its hosts, or for everybody when it lists none. -/
def ExportLine.item (r : Resolver) (e : ExportLine) : Option EItem :=
  (e.hosts.mapM (HostEntry.host r)).bind fun hosts =>
    (if hosts.all (·.options.removable) then some (normpath e.path)
      else r.realpath e.path).bind fun path =>
    if path.length < maxPathLen then
      some { path := path, orig := e.path, hosts := if hosts = [] then [{}] else hosts }
    else none

/-! ## The automaton takes in every sentence -/

/-- A token shifted, with its actions. -/
def shift (r : Resolver) (s : EPlace × ECur) (t : EToken) : Option (EPlace × ECur) :=
  (s.1.advance t).map fun place => (place, s.1.act r t s.2)

/-- A sequence of tokens shifted. -/
def shifts (r : Resolver) (s : EPlace × ECur) (ts : List EToken) : Option (EPlace × ECur) :=
  ts.foldlM (shift r) s

/-- The action of a name. -/
def setName (r : Resolver) : EToken → ECur → ECur
  | .id t => setHostname r t
  | .ip t => setIpaddr t
  | .net t => setIpnet t true
  | .oldnet t => setIpnet t false
  | _ => id

/-- The actions of a host. -/
def HostEntry.run (r : Resolver) (g : ECur) (e : HostEntry) : ECur :=
  addHost (e.opts.foldl (fun g o => o.add g) (e.name.elim g (setName r · g)))

/-- The actions of a line. -/
def ExportLine.run (r : Resolver) (g : ECur) (e : ExportLine) : ECur :=
  addItem r e.path (e.hosts.foldl (HostEntry.run r) g)

section
variable {r : Resolver} {p : CStr} {n : Nat} {g : ECur}

theorem shifts_append (s : EPlace × ECur) (ts us : List EToken) :
    shifts r s (ts ++ us) = (shifts r s ts).bind fun s' => shifts r s' us :=
  List.foldlM_append

theorem shifts_cons (s : EPlace × ECur) (t : EToken) (ts : List EToken) :
    shifts r s (t :: ts) = (shift r s t).bind fun s' => shifts r s' ts := rfl

theorem shifts_singleton (s : EPlace × ECur) (t : EToken) : shifts r s [t] = shift r s t := by
  rw [shifts_cons]
  cases shift r s t <;> rfl

theorem IsOpts.shifts_eq {ts : List EToken} {os : List OptEntry} (h : IsOpts ts os) (named : Bool)
    (k : Nat) : shifts r (.opts p n named k, g) (ts ++ [.rparen]) =
      some (.host p n, addHost (os.foldl (fun g o => o.add g) g)) := by
  induction h generalizing k g with
  | one h => cases h <;> rfl
  | cons h _ ih => cases h <;> exact ih _
  | nil => rfl

theorem IsName.shift_eq {a : EToken} (h : IsName a) :
    shift r (.white p n, g) a = some (.name p n, setName r a g) := by
  cases h <;> rfl

/-- A host is complete when blanks or the end of the line follow it. -/
theorem IsHost.shifts_eq {ts : List EToken} {e : HostEntry} (h : IsHost ts e) :
    ∃ s, shifts r (.white p n, g) ts = some s ∧
      shift r s .white = some (.white p (n + 1), e.run r g) ∧
      shift r s .newline = some (.line, addItem r p (e.run r g)) := by
  cases h with
  | name ha => exact ⟨_, by rw [shifts_cons, ha.shift_eq]; rfl, rfl, rfl⟩
  | nameOpts ha ho =>
    exact ⟨_, by rw [shifts_cons, ha.shift_eq]; exact ho.shifts_eq true 0, rfl, rfl⟩
  | opts ho => exact ⟨_, ho.shifts_eq false 0, rfl, rfl⟩

theorem IsHosts.shifts_eq {ts : List EToken} {hs : List HostEntry} (h : IsHosts ts hs) :
    shifts r (.white p n, g) (ts ++ [.newline]) =
      some (.line, addItem r p (hs.foldl (HostEntry.run r) g)) := by
  induction h generalizing n g with
  | one h =>
    obtain ⟨s, hs, _, hn⟩ := h.shifts_eq (r := r) (p := p) (n := n) (g := g)
    rw [shifts_append, hs, Option.bind_some, shifts_singleton, hn]
    rfl
  | cons h _ ih =>
    obtain ⟨s, hs, hw, _⟩ := h.shifts_eq (r := r) (p := p) (n := n) (g := g)
    rw [List.append_assoc, shifts_append, hs, Option.bind_some, List.cons_append, shifts_cons, hw]
    exact ih
  | white h =>
    obtain ⟨s, hs, hw, _⟩ := h.shifts_eq (r := r) (p := p) (n := n) (g := g)
    rw [List.append_assoc, shifts_append, hs, Option.bind_some, List.singleton_append,
      shifts_cons, hw]
    rfl

theorem IsExport.shifts_eq {ts : List EToken} {e : ExportLine} (h : IsExport ts e) :
    shifts r (.line, g) (ts ++ [.newline]) = some (.line, e.run r g) := by
  cases h with
  | path p => rfl
  | hosts p hh => exact hh.shifts_eq
  | white p => rfl

/-- **A sentence is shifted**, and the end of the input then completes its last line. -/
theorem IsExports.shifts_eq {ts : List EToken} {es : List ExportLine} (h : IsExports ts es) :
    ∃ s, shifts r (.line, g) ts = some s ∧ ∀ lines,
      (s.1 = .line → yydepth lines 1 < yymaxdepth) →
        yyfinish r lines s.1 s.2 = es.foldl (ExportLine.run r) g := by
  induction h generalizing g with
  | one h =>
    have hn := h.shifts_eq (r := r) (g := g)
    rw [shifts_append] at hn
    obtain ⟨s, hs, hn⟩ := Option.bind_eq_some_iff.1 hn
    refine ⟨s, hs, fun lines _ => ?_⟩
    rw [shifts_singleton] at hn
    obtain ⟨place, ha, hp⟩ := Option.map_eq_some_iff.1 hn
    have hl : s.1 ≠ .line := fun h0 => by rw [h0] at ha; cases ha
    unfold yyfinish
    rw [if_neg hl, if_pos (by rw [ha]; rfl)]
    exact congrArg Prod.snd hp
  | cons h _ ih =>
    obtain ⟨s, hs, hf⟩ := ih (g := ExportLine.run r g _)
    refine ⟨s, ?_, hf⟩
    rw [← List.singleton_append, ← List.append_assoc, shifts_append, h.shifts_eq]
    exact hs
  | nil =>
    refine ⟨_, rfl, fun lines hd => ?_⟩
    exact (if_pos rfl).trans (if_neg (Nat.not_le.2 (hd rfl)))

end

/-! ## The actions build what the lines ask for -/

theorem OptEntry.add_eq (o : OptEntry) (g : ECur) :
    o.add g = { g with host := o.apply g.host } := by
  obtain ⟨name, value⟩ := o
  cases value with
  | none => rfl
  | some v =>
    simp only [OptEntry.apply, OptEntry.add, addOptionWithValue]
    split
    · rfl
    · split
      · rfl
      · split <;> rfl

theorem foldl_add_eq (os : List OptEntry) (g : ECur) :
    os.foldl (fun g o => o.add g) g =
      { g with host := os.foldl (fun h o => o.apply h) g.host } := by
  induction os generalizing g with
  | nil => rfl
  | cons o os ih => rw [List.foldl_cons, ih, o.add_eq, List.foldl_cons]

/-- The scratch variables are as `clear_host` and `clear_item` leave them. -/
structure ECur.Clean (g : ECur) : Prop where
  hosts : g.hosts = []
  groups : g.groups = []
  host : g.host = {}

theorem setName_eq {r : Resolver} {a : EToken} {g : ECur} {h : EHost} (hg : g.host = {})
    (ha : nameHost r a = some h) : setName r a g = { g with host := h } := by
  cases a <;> simp only [nameHost, Option.map_eq_some_iff, reduceCtorEq, Option.bind_eq_bind,
    Option.bind_eq_some_iff, Option.some.injEq] at ha
  case id t =>
    by_cases hlen : t.length < maxPathLen
    · rw [if_pos hlen, Option.map_eq_some_iff] at ha
      obtain ⟨a, ha, rfl⟩ := ha
      simp only [setName, setHostname, ha, hg, if_neg (show ¬ maxPathLen < t.length + 1 by omega)]
    · rw [if_neg hlen] at ha
      cases ha
  case ip t =>
    obtain ⟨a, ha, rfl⟩ := ha
    simp only [setName, setIpaddr, ha, hg]
  case net t =>
    obtain ⟨a, ha, rfl⟩ := ha
    simp only [setName, setIpnet, setIpaddr, ha, hg, if_true]
  case oldnet t =>
    obtain ⟨a, ha, m, hm, rfl⟩ := ha
    simp only [setName, setIpnet, setIpaddr, ha, hm, hg, Bool.false_eq_true, if_false]

theorem HostEntry.run_eq {r : Resolver} {e : HostEntry} {g : ECur} {h : EHost} (hg : g.host = {})
    (he : e.host r = some h) :
    e.run r g = { g with hosts := g.hosts ++ [h], groups := g.groups ++ [h.orig] } := by
  obtain ⟨h0, hn, rfl⟩ := Option.map_eq_some_iff.1 he
  have hname : e.name.elim g (setName r · g) = { g with host := h0 } := by
    cases hc : e.name with
    | none =>
      rw [hc] at hn
      cases hn
      rw [← hg]
      rfl
    | some a =>
      rw [hc] at hn
      exact setName_eq hg hn
  unfold HostEntry.run
  rw [hname, foldl_add_eq]
  simp only [addHost, ← hg]

theorem foldl_run_eq {r : Resolver} {es : List HostEntry} {g : ECur} {hs : List EHost}
    (hg : g.host = {}) (he : es.mapM (HostEntry.host r) = some hs) :
    es.foldl (HostEntry.run r) g =
      { g with hosts := g.hosts ++ hs, groups := g.groups ++ hs.map (·.orig) } := by
  induction es generalizing g hs with
  | nil =>
    cases he.symm.trans List.mapM_nil
    simp
  | cons e es ih =>
    rw [List.mapM_cons] at he
    obtain ⟨h, hh, hr⟩ := Option.bind_eq_some_iff.1 he
    obtain ⟨hs', hes, hr⟩ := Option.bind_eq_some_iff.1 hr
    cases hr
    rw [List.foldl_cons, HostEntry.run_eq hg hh, ih (g := { g with
      hosts := g.hosts ++ [h], groups := g.groups ++ [h.orig] }) hg hes, List.append_assoc,
        List.append_assoc]
    rfl

theorem ExportLine.run_eq {r : Resolver} {e : ExportLine} {g : ECur} {it : EItem} (hg : g.Clean)
    (he : e.item r = some it) :
    e.run r g = { g with list := g.list ++ [it], neList := g.neList ++ [it.node] } := by
  obtain ⟨hs, hhs, he⟩ := Option.bind_eq_some_iff.1 he
  obtain ⟨path, hp, he⟩ := Option.bind_eq_some_iff.1 he
  have hlen : path.length < maxPathLen := by
    by_contra hc
    rw [if_neg hc] at he
    cases he
  rw [if_pos hlen] at he
  cases he
  unfold ExportLine.run
  rw [foldl_run_eq hg.host hhs]
  obtain ⟨list, neList, hosts, groups, host, error⟩ := g
  obtain ⟨rfl, rfl, rfl⟩ := hg
  rw [List.nil_append, List.nil_append]
  unfold addItem
  dsimp only
  rw [hp]
  dsimp only
  rw [if_neg (by omega)]
  cases hs with
  | nil => rfl
  | cons h hs => simp [EItem.node]

/-- **A file whose lines can all be resolved** gives their exports, in order. -/
theorem foldl_line_run_eq {r : Resolver} {es : List ExportLine} {g : ECur} {items : List EItem}
    (hg : g.Clean)
    (he : es.mapM (ExportLine.item r) = some items) :
    es.foldl (ExportLine.run r) g =
      { g with list := g.list ++ items, neList := g.neList ++ items.map EItem.node } := by
  induction es generalizing g items with
  | nil =>
    cases he.symm.trans List.mapM_nil
    simp
  | cons e es ih =>
    rw [List.mapM_cons] at he
    obtain ⟨it, hit, hr⟩ := Option.bind_eq_some_iff.1 he
    obtain ⟨items', hes, hr⟩ := Option.bind_eq_some_iff.1 hr
    cases hr
    rw [List.foldl_cons, ExportLine.run_eq hg hit, ih (g := { g with
      list := g.list ++ [it], neList := g.neList ++ [it.node] }) ⟨hg.hosts, hg.groups, hg.host⟩ hes,
      List.append_assoc, List.append_assoc]
    rfl

/-! ## Reading to the end -/

/-- The greatest number of states on the parser's stack while it takes in the tokens. -/
def parseDepth : Nat → EPlace → List EToken → Nat
  | _, _, [] => 0
  | lines, place, t :: ts =>
    max (yydepth lines (place.peak t)) ((place.advance t).elim 0 fun place' =>
      parseDepth (if t = .newline then lines + 1 else lines) place' ts)

/-- The grammar has no place for a token that passes for the end of the input. -/
theorem EPlace.advance_isEnd {place place' : EPlace} {t : EToken}
    (h : place.advance t = some place') : t.isEnd = false := by
  unfold EPlace.advance at h
  split at h
  all_goals first
    | rfl
    | cases h

theorem shifts_cons_eq_some {r : Resolver} {place : EPlace} {g : ECur} {t : EToken}
    {ts : List EToken} {s : EPlace × ECur} (h : shifts r (place, g) (t :: ts) = some s) :
    ∃ place', place.advance t = some place' ∧
      shifts r (place', place.act r t g) ts = some s := by
  rw [shifts_cons] at h
  obtain ⟨s', hs, h⟩ := Option.bind_eq_some_iff.1 h
  obtain ⟨place', ha, rfl⟩ := Option.map_eq_some_iff.1 hs
  exact ⟨place', ha, h⟩

/-- A token the automaton takes in, with room on the stack, is taken in by the parser. -/
theorem yyparse_cons {r : Resolver} {lines : Nat} {place place' : EPlace} {g : ECur} {l : Lexeme}
    {ls : List Lexeme} (ha : place.advance l.tok = some place')
    (hd : parseDepth lines place (l.tok :: ls.map (·.tok)) < yymaxdepth) :
    yyparse r lines place g (l :: ls) =
      yyparse r (if l.tok = .newline then lines + 1 else lines) place'
        (place.act r l.tok (l.note g)) ls ∧
    parseDepth (if l.tok = .newline then lines + 1 else lines) place' (ls.map (·.tok)) <
      yymaxdepth := by
  rw [parseDepth, ha] at hd
  obtain ⟨hd, hr⟩ := max_lt_iff.1 hd
  refine ⟨?_, hr⟩
  rw [yyparse, EPlace.advance_isEnd ha, ha]
  exact (if_neg Bool.false_ne_true).trans (if_neg (Nat.not_le.2 hd))

/-- **Tokens the automaton takes in are read to the end.** -/
theorem yyparse_end {r : Resolver} {lines : Nat} {place : EPlace} {g g' : ECur} {ls : List Lexeme}
    {s : EPlace × ECur} (hs : shifts r (place, g') (ls.map (·.tok)) = some s)
    (hd : parseDepth lines place (ls.map (·.tok)) < yymaxdepth) :
    (yyparse r lines place g ls).2 = none := by
  induction ls generalizing lines place g g' with
  | nil => rfl
  | cons l ls ih =>
    obtain ⟨place', ha, hs⟩ := shifts_cons_eq_some hs
    obtain ⟨hy, hd⟩ := yyparse_cons (g := g) ha hd
    rw [hy]
    exact ih hs hd

/-- What the parser makes of tokens none of which is too long. -/
theorem yyparse_shifts {r : Resolver} {lines : Nat} {place : EPlace} {g : ECur} {ls : List Lexeme}
    {s : EPlace × ECur} (hs : shifts r (place, g) (ls.map (·.tok)) = some s)
    (hd : parseDepth lines place (ls.map (·.tok)) < yymaxdepth) (hl : ∀ l ∈ ls, l.long = false) :
    yyparse r lines place g ls =
      (yyfinish r (lines + (ls.map (·.tok)).count .newline) s.1 s.2, none) := by
  induction ls generalizing lines place g with
  | nil =>
    cases hs
    rfl
  | cons l ls ih =>
    obtain ⟨place', ha, hs⟩ := shifts_cons_eq_some hs
    obtain ⟨hy, hd⟩ := yyparse_cons (g := g) ha hd
    have hn : l.note g = g := by
      unfold Lexeme.note
      rw [hl l List.mem_cons_self]
      rfl
    rw [hn] at hy
    rw [hy, ih hs hd fun l' h' => hl l' (List.mem_cons_of_mem _ h'), List.map_cons,
      List.count_cons]
    by_cases hnl : l.tok = .newline
    · simp only [hnl, if_true, beq_self_eq_true]
      rw [Nat.add_assoc, Nat.add_comm 1]
    · simp only [hnl, if_false, beq_iff_eq, Nat.add_zero]

/-! ## A sequence of calls -/

/-- The tokens of a file, from its beginning. -/
def tokens (text : CStr) : List EToken := (scan 0 true text).map (·.tok)

/-- The file is correct as far as it goes: its tokens begin a sentence, and the parser's stack has
room for them. -/
def Completable (text : CStr) : Prop :=
  (∃ rest es, IsExports (tokens text ++ rest) es) ∧
    parseDepth 0 .line (tokens text) < yymaxdepth

/-- The file is correct and asks for the exports `items`: its tokens are a sentence none of whose
texts is cut, the stack has room for it, and every line can be resolved. -/
def Correct (r : Resolver) (text : CStr) (items : List EItem) : Prop :=
  (∃ es, IsExports (tokens text) es ∧ es.mapM (ExportLine.item r) = some items) ∧
    (∀ l ∈ scan 0 true text, l.long = false) ∧
    parseDepth 0 .line (tokens text) < yymaxdepth ∧
    yydepth ((tokens text).count .newline) 1 < yymaxdepth

/-- A call of `exports_parse`. -/
structure Reload where
  access : Bool := false
  file : Option CStr
  deriving DecidableEq, Repr

/-- The calls one after the other. -/
def reloads (r : Resolver) (ahead : ReadAhead) (s : Exports) (cs : List Reload) : Exports :=
  cs.foldl (fun s c => exportsParse r ahead c.access c.file s) s

/-- If the call reads a file, this is correct as far as it goes. -/
def Reload.Whole (c : Reload) : Prop :=
  ∀ text, c.access = false → c.file = some text → Completable text

section
variable {r : Resolver} {ahead : ReadAhead} {text : CStr}

theorem Completable.shifts (h : Completable text) (g : ECur) :
    ∃ s, shifts r (.line, g) (tokens text) = some s := by
  obtain ⟨⟨rest, es, he⟩, _⟩ := h
  obtain ⟨s, hs, _⟩ := he.shifts_eq (r := r) (g := g)
  rw [shifts_append] at hs
  obtain ⟨s', hs', _⟩ := Option.bind_eq_some_iff.1 hs
  exact ⟨s', hs'⟩

/-- A scanner without kept input has none after such a call either. -/
theorem exportsParse_buf {s : Exports} {c : Reload} (hs : s.buf = {}) (hc : c.Whole) :
    (exportsParse r ahead c.access c.file s).buf = {} := by
  unfold exportsParse
  cases ha : c.access with
  | true => exact hs
  | false =>
    cases hf : c.file with
    | none => exact hs
    | some text =>
      obtain ⟨s', hs'⟩ := (hc text ha hf).shifts (r := r) {}
      have hstop := yyparse_end (g := {}) hs' (hc text ha hf).2
      have hinput : ({} : YyBuffer).input text = text := rfl
      simp only [Bool.false_eq_true, if_false, hs, hinput, hstop]

theorem reloads_buf (cs : List Reload) {s : Exports} (hs : s.buf = {})
    (hcs : ∀ c ∈ cs, c.Whole) : (reloads r ahead s cs).buf = {} := by
  induction cs generalizing s with
  | nil => exact hs
  | cons c cs ih =>
    exact ih (exportsParse_buf hs (hcs c List.mem_cons_self))
      fun c' h' => hcs c' (List.mem_cons_of_mem _ h')

/-- The list depends on the state before the call through the scanner's buffer only. -/
theorem exportsParse_list {s s' : Exports} (h : s.buf = s'.buf) :
    (exportsParse r ahead false (some text) s).list =
      (exportsParse r ahead false (some text) s').list := by
  simp only [exportsParse, Bool.false_eq_true, if_false, h]

theorem Correct.list_eq {items : List EItem} (h : Correct r text items) :
    (exportsParse r ahead false (some text) {}).list = items := by
  obtain ⟨⟨es, he, hi⟩, hl, hd, hn⟩ := h
  obtain ⟨s, hs, hf⟩ := he.shifts_eq (r := r) (g := {})
  have hy : yyparse r 0 .line {} (scan 0 true text) =
      (yyfinish r (0 + (tokens text).count .newline) s.1 s.2, none) := yyparse_shifts hs hd hl
  rw [Nat.zero_add, hf _ fun _ => hn, foldl_line_run_eq ⟨rfl, rfl, rfl⟩ hi] at hy
  simp only [exportsParse, Bool.false_eq_true, if_false, YyBuffer.input, List.nil_append, hy]

end

/-- **The list in force is that of the file read last**, and complete when that file is correct, as
long as every file read before was correct as far as it went. -/
theorem exports_parse_content (r : Resolver) (ahead : ReadAhead) (cs : List Reload) (text : CStr)
    (hcs : ∀ c ∈ cs, c.Whole) :
    (exportsParse r ahead false (some text) (reloads r ahead {} cs)).list =
        (exportsParse r ahead false (some text) {}).list ∧
      ∀ items, Correct r text items →
        (exportsParse r ahead false (some text) (reloads r ahead {} cs)).list = items := by
  have hlist : (exportsParse r ahead false (some text) (reloads r ahead {} cs)).list =
      (exportsParse r ahead false (some text) {}).list :=
    exportsParse_list (reloads_buf cs rfl hcs)
  exact ⟨hlist, fun items hc => hlist.trans hc.list_eq⟩

/-- No host name is known; every path is canonical. -/
def plainResolver : Resolver := { gethostbyname := fun _ => none, realpath := some }

/-- `YY_READ_BUF_SIZE` bytes are read at once. -/
def blockAhead : ReadAhead := fun _ _ unread => min unread.length 8192

/-- The second line of a broken file, and what the file should have been. -/
def brokenExports : CStr := lit "/srv (rw\n/pub (rw)\n"
def fixedExports : CStr := lit "/srv (rw)\n"

/-- An export to everybody, for writing. -/
def rwItem (path : CStr) : EItem :=
  { path := path, orig := path, hosts := [{ options := { rw := true } }] }

theorem fixedExports_correct : Correct plainResolver fixedExports [rwItem (lit "/srv")] := by
  have ht : tokens fixedExports =
      [.path (lit "/srv"), .white, .lparen, .id (lit "rw"), .rparen, .newline] := by decide +kernel
  refine ⟨⟨[{ path := lit "/srv", hosts := [{ opts := [{ name := lit "rw" }] }] }], ?_, ?_⟩,
    by decide +kernel, by decide +kernel, by decide +kernel⟩
  · rw [ht]
    exact .cons (.hosts _ (.one (.opts (.one (.flag _))))) .nil
  · decide +kernel

/-- A file that ends within a line has an error and is read to its end: the fixed one that
follows is loaded. -/
theorem exports_parse_after_open :
    (exportsParse plainResolver blockAhead false (some fixedExports)
      (reloads plainResolver blockAhead {} [{ file := some (lit "/srv (rw") }])).list =
      [rwItem (lit "/srv")] := by
  refine (exports_parse_content plainResolver blockAhead _ _ fun c hc text _ hf => ?_).2 _
    fixedExports_correct
  rw [List.mem_singleton.1 hc] at hf
  cases hf
  have ht : tokens (lit "/srv (rw") = [.path (lit "/srv"), .white, .lparen, .id (lit "rw")] := by
    decide +kernel
  refine ⟨⟨[.rparen], [{ path := lit "/srv", hosts := [{ opts := [{ name := lit "rw" }] }] }], ?_⟩,
    by decide +kernel⟩
  rw [ht]
  exact .one (.hosts _ (.one (.opts (.one (.flag _)))))

/-- The parenthesis missing in the first line stops the parser at its end. The second line stays
in the scanner's buffer, and the file corrected to one line exports its directory too. -/
theorem exports_parse_leftover :
    Correct plainResolver fixedExports [rwItem (lit "/srv")] ∧
    (exportsParse plainResolver blockAhead false (some fixedExports)
      (reloads plainResolver blockAhead {} [{ file := some brokenExports }])).list =
      [rwItem (lit "/pub"), rwItem (lit "/srv")] ∧
    (exportsParse plainResolver blockAhead false (some fixedExports) {}).list =
      [rwItem (lit "/srv")] :=
  ⟨fixedExports_correct, by decide +kernel, fixedExports_correct.list_eq⟩

end NfsRods
