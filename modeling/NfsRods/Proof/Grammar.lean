import NfsRods.Proof.Reload

/-!
# What the parser builds

The semantic actions of `exports.y` fill a host, an item and two lists that are global, in the order
in which the automaton reduces its rules. Between two lines the scratch variables are clean
(`ECur.Clean`), and so each line adds what it says itself.

* `ItemOf`, `HostOf`: what a line and a host of it say, read off the line: of options that
  contradict each other the last one counts.
* `yyparse_shifted`: a parse that has raised no error has performed the actions of all of its
  tokens.
* `exports_parsed`: if no error was raised, the two lists are those of the lines, in order.
-/

namespace NfsRods

open CStr

/-! ## What a line says -/

/-- The flag that the last of two options sets, off when neither is given. -/
def flagOf (on off : CStr) (os : List OptEntry) : Bool :=
  (os.reverse.findSome? fun o =>
    if o = { name := on } then some true else if o = { name := off } then some false else none).getD
      false

/-- The value given last to an option, as `f` reads it; `d` if none is given. -/
def given {β : Type} (name : CStr) (f : CStr → β) (d : β) (os : List OptEntry) : β :=
  ((os.reverse.findSome? fun o => if o.name = name then o.value else none).map f).getD d

/-- The option bits of a host. -/
def optionsOf (os : List OptEntry) : Options where
  noRootSquash := flagOf (lit "no_root_squash") (lit "root_squash") os
  allSquash := flagOf (lit "all_squash") (lit "no_all_squash") os
  rw := flagOf (lit "rw") (lit "ro") os
  removable := flagOf (lit "removable") (lit "fixed") os
  insecure := flagOf (lit "insecure") (lit "secure") os

/-- The password of a host. -/
def givenPassword (os : List OptEntry) : CStr :=
    given (lit "password") (·.take passwordMaxlen) [] os

/-- The value of an anonymous id. -/
def anonId (val : CStr) : ULong := UInt64.ofInt (strtolInt val)

/-- The name as written, the address and the mask of a host; without a name it is everybody. -/
inductive ClientNameOf (r : Resolver) : Option EToken → CStr → UInt32 → UInt32 → Prop
  | everybody : ClientNameOf r none (lit "<anon clnt>") 0 0
  | id {t : CStr} {a : UInt32} (h : r.gethostbyname t = some a) :
    ClientNameOf r (some (.id t)) t a 0xffffffff
  | ip {t : CStr} {a : UInt32} (h : inetAton t = some a) :
    ClientNameOf r (some (.ip t)) t a 0xffffffff
  | net {t : CStr} {a : UInt32} (h : inetAton (t.takeWhile (· != slash)) = some a) :
    ClientNameOf r (some (.net t)) t a
      (makeNetmask (strtolInt (t.dropWhile (· != slash)).tail).toNat)
  | oldnet {t : CStr} {a m : UInt32} (h : inetAton (t.takeWhile (· != slash)) = some a)
    (hm : inetAton (t.dropWhile (· != slash)).tail = some m) :
    ClientNameOf r (some (.oldnet t)) t a m

/-- The host an entry asks for. -/
structure HostOf (r : Resolver) (e : HostEntry) (h : EHost) : Prop where
  name : ClientNameOf r e.name h.orig h.addr h.mask
  options : h.options = optionsOf e.opts
  password : h.password = givenPassword e.opts
  hash : h.passwordHash = fnv1a32 (givenPassword e.opts) 0
  anonuid : h.anonuid = given (lit "anonuid") anonId anonNotspecial e.opts
  anongid : h.anongid = given (lit "anongid") anonId anonNotspecial e.opts

/-- The export a line asks for. A line without hosts is for everybody. -/
structure ItemOf (r : Resolver) (e : ExportLine) (it : EItem) : Prop where
  orig : it.orig = e.path
  path : (if e.hosts.all fun h => (optionsOf h.opts).removable then some (normpath e.path)
    else r.realpath e.path) = some it.path
  short : it.path.length < maxPathLen
  hosts : List.Forall₂ (HostOf r) (if e.hosts = [] then [{}] else e.hosts) it.hosts

/-! ## Options in a row -/

section
variable {os : List OptEntry}

theorem flagOf_concat (on off : CStr) (os : List OptEntry) (o : OptEntry) :
    flagOf on off (os ++ [o]) =
      if o = { name := on } then true else if o = { name := off } then false else flagOf on off
        os := by
  rw [flagOf, List.reverse_append, List.reverse_singleton, List.singleton_append,
    List.findSome?_cons]
  by_cases hon : o = { name := on }
  · rw [if_pos hon, if_pos hon]
    rfl
  · rw [if_neg hon, if_neg hon]
    by_cases hoff : o = { name := off }
    · rw [if_pos hoff, if_pos hoff]
      rfl
    · rw [if_neg hoff, if_neg hoff]
      rfl

theorem given_concat {β : Type} (name : CStr) (f : CStr → β) (d : β) (os : List OptEntry)
    (o : OptEntry) :
    given name f d (os ++ [o]) =
      if o.name = name then (o.value.map f).getD (given name f d os) else given name f d os := by
  rw [given, List.reverse_append, List.reverse_singleton, List.singleton_append,
    List.findSome?_cons]
  by_cases hname : o.name = name
  · rw [if_pos hname, if_pos hname]
    cases o.value <;> rfl
  · rw [if_neg hname, if_neg hname]
    rfl

/-- The options without a value. -/
def flagNames : List CStr :=
  [lit "no_root_squash", lit "root_squash", lit "all_squash", lit "no_all_squash", lit "rw",
    lit "ro", lit "removable", lit "fixed", lit "insecure", lit "secure"]

theorem addOption_options (os : List OptEntry) (name : CStr) (h : EHost)
    (hh : h.options = optionsOf os) :
    (addOption name { host := h }).host.options =
      optionsOf (os ++ [({ name := name } : OptEntry)]) := by
  simp only [addOption, optionsOf, flagOf_concat, hh, OptEntry.mk.injEq, and_true]
  by_cases hname : name ∈ flagNames
  · simp only [flagNames, List.mem_cons, List.not_mem_nil, or_false] at hname
    rcases hname with rfl | rfl | rfl | rfl | rfl | rfl | rfl | rfl | rfl | rfl <;> rfl
  -- an option that is not known
  · simp only [flagNames, List.mem_cons, List.not_mem_nil, or_false, not_or] at hname
    simp only [hname, if_false]

/-- `h` is `h0` with what the options say; `h0` is as it is before any option. -/
structure OptsSet (os : List OptEntry) (h0 h : EHost) : Prop where
  orig : h.orig = h0.orig
  addr : h.addr = h0.addr
  mask : h.mask = h0.mask
  options : h.options = optionsOf os
  password : h.password = givenPassword os
  anonuid : h.anonuid = given (lit "anonuid") anonId anonNotspecial os
  anongid : h.anongid = given (lit "anongid") anonId anonNotspecial os

theorem apply_options (os : List OptEntry) (o : OptEntry) (h : EHost)
    (hh : h.options = optionsOf os) :
    (o.apply h).options = optionsOf (os ++ [o]) := by
  obtain ⟨name, value⟩ := o
  cases value with
  | none => exact addOption_options os name h hh
  | some v =>
    have hne : ∀ flag : CStr, ¬ ({ name := name, value := some v } : OptEntry) =
      { name := flag } := by
      intro flag hflag
      cases hflag
    simp only [OptEntry.apply, OptEntry.add, addOptionWithValue, optionsOf, flagOf_concat, hne,
      if_false]
    split_ifs <;> exact hh

/-- What else an option does to a host. -/
theorem apply_fields (o : OptEntry) (h : EHost) :
    (o.apply h).orig = h.orig ∧ (o.apply h).addr = h.addr ∧ (o.apply h).mask = h.mask ∧
    (o.apply h).password =
      (if o.name = lit "password" then (o.value.map (·.take passwordMaxlen)).getD
        h.password else h.password) ∧
    (o.apply h).anonuid =
      (if o.name = lit "anonuid" then (o.value.map anonId).getD h.anonuid else h.anonuid) ∧
    (o.apply h).anongid =
      (if o.name = lit "anongid" then (o.value.map anonId).getD h.anongid else h.anongid) := by
  obtain ⟨name, value⟩ := o
  cases value with
  | none => simp [OptEntry.apply, OptEntry.add, addOption]
  | some v =>
    simp only [OptEntry.apply, OptEntry.add, addOptionWithValue]
    by_cases hpw : name = lit "password"
    · subst hpw
      exact ⟨rfl, rfl, rfl, rfl, rfl, rfl⟩
    · by_cases huid : name = lit "anonuid"
      · subst huid
        exact ⟨rfl, rfl, rfl, rfl, rfl, rfl⟩
      · by_cases hgid : name = lit "anongid"
        · subst hgid
          exact ⟨rfl, rfl, rfl, rfl, rfl, rfl⟩
        · simp only [hpw, huid, hgid, if_false, and_self]

/-- One more option. -/
theorem OptsSet.concat {h0 h : EHost} (hf : OptsSet os h0 h) (o : OptEntry) :
    OptsSet (os ++ [o]) h0 (o.apply h) := by
  obtain ⟨horig, haddr, hmask, hpassword, huid, hgid⟩ := apply_fields o h
  refine ⟨horig.trans hf.orig, haddr.trans hf.addr, hmask.trans hf.mask,
    apply_options os o h hf.options, ?_, ?_, ?_⟩
  · rw [hpassword, hf.password, givenPassword, givenPassword, given_concat]
  · rw [huid, hf.anonuid, given_concat]
  · rw [hgid, hf.anongid, given_concat]

/-- **The options of a host**, whatever was there before them. -/
theorem foldl_apply_set (os : List OptEntry) {h0 : EHost} (hf : OptsSet [] h0 h0) :
    OptsSet os h0 (os.foldl (fun h o => o.apply h) h0) := by
  induction os using List.reverseRecOn with
  | nil => exact hf
  | append_singleton os o ih =>
    rw [List.foldl_append]
    exact ih.concat o

/-- A name leaves everything but itself at its default. -/
theorem nameHost_set {r : Resolver} {name : Option EToken} {h : EHost}
    (hname : name.elim (some {}) (nameHost r) = some h) :
    ClientNameOf r name h.orig h.addr h.mask ∧ OptsSet [] h h := by
  have hset : ∀ (orig : CStr) (addr mask : UInt32),
      OptsSet [] { orig := orig, addr := addr, mask := mask }
        { orig := orig, addr := addr, mask := mask } :=
    fun _ _ _ => ⟨rfl, rfl, rfl, rfl, rfl, rfl, rfl⟩
  cases name with
  | none =>
    cases hname
    exact ⟨.everybody, hset _ _ _⟩
  | some a =>
    rw [Option.elim_some] at hname
    cases a <;> simp only [nameHost, Option.map_eq_some_iff, reduceCtorEq, Option.bind_eq_bind,
      Option.bind_eq_some_iff, Option.some.injEq] at hname
    case id t =>
      split at hname
      · rw [Option.map_eq_some_iff] at hname
        obtain ⟨a, ha, rfl⟩ := hname
        exact ⟨.id ha, hset _ _ _⟩
      · cases hname
    case ip t =>
      obtain ⟨a, ha, rfl⟩ := hname
      exact ⟨.ip ha, hset _ _ _⟩
    case net t =>
      obtain ⟨a, ha, rfl⟩ := hname
      exact ⟨.net ha, hset _ _ _⟩
    case oldnet t =>
      obtain ⟨a, ha, m, hm, rfl⟩ := hname
      exact ⟨.oldnet ha hm, hset _ _ _⟩

theorem hostOf_of_host {r : Resolver} {e : HostEntry} {h : EHost} (he : e.host r = some h) :
    HostOf r e h := by
  obtain ⟨h0, hname, rfl⟩ := Option.map_eq_some_iff.1 he
  obtain ⟨hn, hdefault⟩ := nameHost_set hname
  have hf := foldl_apply_set e.opts hdefault
  refine ⟨?_, hf.options, hf.password, by rw [EHost.passwordHash, hf.password], hf.anonuid,
    hf.anongid⟩
  rw [hf.orig, hf.addr, hf.mask]
  exact hn

end

/-! ## Errors stay -/

section
variable {r : Resolver} {g : ECur}

theorem addItem_error (p : CStr) (hg : g.error = true) : (addItem r p g).error = true := by
  unfold addItem
  split
  · rfl
  · split
    · rfl
    · dsimp only
      split
      · exact hg
      · exact hg

theorem setName_error (a : EToken) (hg : g.error = true) : (setName r a g).error = true := by
  have hip : ∀ t, (setIpaddr t g).error = true := by
    intro t
    unfold setIpaddr
    split
    · exact hg
    · rfl
  cases a with
  | id t =>
    simp only [setName, setHostname]
    split
    · rfl
    · split
      · exact hg
      · rfl
  | ip t => exact hip t
  | net t => exact hip _
  | oldnet t =>
    simp only [setName, setIpnet, Bool.false_eq_true, if_false]
    split
    · exact hip _
    · rfl
  | _ => exact hg

theorem OptEntry.add_error (o : OptEntry) (g : ECur) : (o.add g).error = g.error := by
  rw [o.add_eq]

theorem act_error (place : EPlace) (t : EToken) (hg : g.error = true) :
    (place.act r t g).error = true := by
  have hvalue : ∀ o v, (addOptionWithValue o v g).error = true :=
    fun o v => (OptEntry.add_error { name := o, value := some v } g).trans hg
  unfold EPlace.act
  split
  · exact addItem_error _ hg
  · exact addItem_error _ hg
  · exact setName_error (.id _) hg
  · exact setName_error (r := r) (.ip _) hg
  · exact setName_error (r := r) (.net _) hg
  · exact setName_error (r := r) (.oldnet _) hg
  · exact addItem_error _ hg
  · exact hg
  · exact hg
  · exact hvalue _ _
  · exact hg
  · exact hg
  · exact hg
  · exact addItem_error _ hg
  · exact hg

theorem yyfinish_error (lines : Nat) (place : EPlace) (hg : g.error = true) :
    (yyfinish r lines place g).error = true := by
  unfold yyfinish
  split
  · split
    · rfl
    · exact hg
  · split
    · exact act_error _ _ hg
    · rfl

theorem note_error (l : Lexeme) (hg : g.error = true) : (l.note g).error = true := by
  unfold Lexeme.note
  split
  · rfl
  · exact hg

/-- An error that was raised is there at the end. -/
theorem yyparse_error (lines : Nat) (place : EPlace) (ls : List Lexeme) (hg : g.error = true) :
    (yyparse r lines place g ls).1.error = true := by
  induction ls generalizing lines place g with
  | nil => exact yyfinish_error lines place hg
  | cons l ls ih =>
    rw [yyparse]
    split
    · exact yyfinish_error lines place hg
    · split
      · rfl
      · split
        · rfl
        · exact ih _ _ (act_error _ _ (note_error l hg))

/-- **A parse without an error** of tokens that the automaton takes in has performed the actions of
all of them. -/
theorem yyparse_shifted {lines : Nat} {place : EPlace} {ls : List Lexeme} {s : EPlace × ECur}
    (hs : shifts r (place, g) (ls.map (·.tok)) = some s)
    (hok : (yyparse r lines place g ls).1.error = false) :
    ∃ lines', (yyparse r lines place g ls).1 = yyfinish r lines' s.1 s.2 := by
  induction ls generalizing lines place g with
  | nil =>
    cases hs
    exact ⟨lines, rfl⟩
  | cons l ls ih =>
    obtain ⟨place', ha, hs⟩ := shifts_cons_eq_some hs
    have hend : ¬ l.tok.isEnd = true := by rw [EPlace.advance_isEnd ha]; decide
    rw [yyparse, if_neg hend, ha] at hok ⊢
    dsimp only at hok ⊢
    by_cases hfull : yymaxdepth ≤ yydepth lines (place.peak l.tok)
    · rw [if_pos hfull] at hok
      cases hok
    rw [if_neg hfull] at hok ⊢
    have hnote : l.note g = g := by
      unfold Lexeme.note
      split
      · rename_i hlong
        rw [Lexeme.note, if_pos hlong, yyparse_error _ _ _ (act_error _ _ rfl)] at hok
        cases hok
      · rfl
    rw [hnote] at hok ⊢
    exact ih hs hok

end

/-! ## Without an error every line is resolved -/

/-- The names of a line are tokens for names. -/
def ExportLine.Named (e : ExportLine) : Prop := ∀ h ∈ e.hosts, ∀ a, h.name = some a → IsName a

theorem IsHost.named {ts : List EToken} {h : HostEntry} (hh : IsHost ts h) {a : EToken}
    (ha : h.name = some a) :
    IsName a := by
  cases hh with
  | name hn =>
    cases ha
    exact hn
  | nameOpts hn =>
    cases ha
    exact hn
  | opts => cases ha

theorem IsHosts.named {ts : List EToken} {hs : List HostEntry} (hh : IsHosts ts hs) :
    ∀ h ∈ hs, ∀ a, h.name = some a → IsName a := by
  induction hh with
  | one h =>
    intro h' hmem a ha
    obtain rfl := List.mem_singleton.1 hmem
    exact h.named ha
  | cons h _ ih =>
    intro h' hmem a ha
    rcases List.mem_cons.1 hmem with rfl | hmem
    · exact h.named ha
    · exact ih h' hmem a ha
  | white h =>
    intro h' hmem a ha
    obtain rfl := List.mem_singleton.1 hmem
    exact h.named ha

theorem IsExport.named {ts : List EToken} {e : ExportLine} (h : IsExport ts e) : e.Named := by
  cases h with
  | path p => exact fun h hmem => absurd hmem (List.not_mem_nil)
  | hosts p hh => exact hh.named
  | white p => exact fun h hmem => absurd hmem (List.not_mem_nil)

theorem IsExports.named {ts : List EToken} {es : List ExportLine} (h : IsExports ts es) :
    ∀ e ∈ es, e.Named := by
  induction h with
  | one h =>
    intro e hmem
    obtain rfl := List.mem_singleton.1 hmem
    exact h.named
  | cons h _ ih =>
    intro e hmem
    rcases List.mem_cons.1 hmem with rfl | hmem
    · exact h.named
    · exact ih e hmem
  | nil => exact fun e hmem => absurd hmem (List.not_mem_nil)

section
variable {r : Resolver} {g : ECur}

theorem nameHost_of_ok {a : EToken} (ha : IsName a) (hok : (setName r a g).error = false) :
    ∃ h, nameHost r a = some h := by
  cases ha with
  | id t =>
    simp only [setName, setHostname] at hok
    by_cases hlong : maxPathLen < t.length + 1
    · rw [if_pos hlong] at hok
      cases hok
    rw [if_neg hlong] at hok
    cases ht : r.gethostbyname t with
    | none =>
      rw [ht] at hok
      cases hok
    | some x => exact ⟨_, by rw [nameHost, if_pos (by omega), ht, Option.map_some]⟩
  | ip t =>
    simp only [setName, setIpaddr] at hok
    cases ht : inetAton t with
    | none =>
      rw [ht] at hok
      cases hok
    | some x => exact ⟨_, by rw [nameHost, ht, Option.map_some]⟩
  | net t =>
    simp only [setName, setIpnet, setIpaddr, if_true] at hok
    cases ht : inetAton (t.takeWhile (· != slash)) with
    | none =>
      rw [ht] at hok
      cases hok
    | some x => exact ⟨_, by rw [nameHost, ht, Option.map_some]⟩
  | oldnet t =>
    simp only [setName, setIpnet, setIpaddr, Bool.false_eq_true, if_false] at hok
    cases hm : inetAton (t.dropWhile (· != slash)).tail with
    | none =>
      rw [hm] at hok
      cases hok
    | some m =>
      cases ht : inetAton (t.takeWhile (· != slash)) with
      | none =>
        rw [hm, ht] at hok
        cases hok
      | some x => exact ⟨{ orig := t, addr := x, mask := m }, by simp [nameHost, ht, hm]⟩

theorem HostEntry.run_error (e : HostEntry) (hg : g.error = true) : (e.run r g).error = true := by
  unfold HostEntry.run
  rw [foldl_add_eq]
  cases e.name with
  | none => exact hg
  | some a => exact setName_error a hg

theorem foldl_run_error (hs : List HostEntry) (hg : g.error = true) :
    (hs.foldl (HostEntry.run r) g).error = true := by
  induction hs generalizing g with
  | nil => exact hg
  | cons e hs ih => exact ih (e.run_error hg)

theorem host_of_ok {e : HostEntry} (he : ∀ a, e.name = some a → IsName a)
    (hok : (e.run r g).error = false) :
    ∃ h, e.host r = some h := by
  unfold HostEntry.run at hok
  rw [foldl_add_eq] at hok
  cases hname : e.name with
  | none => exact ⟨_, by rw [HostEntry.host, hname, Option.elim_none, Option.map_some]⟩
  | some a =>
    rw [hname] at hok
    obtain ⟨h, hh⟩ := nameHost_of_ok (he a hname) hok
    exact ⟨_, by rw [HostEntry.host, hname, Option.elim_some, hh, Option.map_some]⟩

theorem hosts_of_ok {hs : List HostEntry} (hn : ∀ h ∈ hs, ∀ a, h.name = some a → IsName a)
    (hok : (hs.foldl (HostEntry.run r) g).error = false) :
    ∃ xs, hs.mapM (HostEntry.host r) = some xs := by
  induction hs generalizing g with
  | nil => exact ⟨[], rfl⟩
  | cons e hs ih =>
    rw [List.foldl_cons] at hok
    have hfirst : (e.run r g).error = false := by
      by_contra herr
      rw [foldl_run_error hs (by simpa using herr)] at hok
      cases hok
    obtain ⟨x, hx⟩ := host_of_ok (hn e List.mem_cons_self) hfirst
    obtain ⟨xs, hxs⟩ := ih (fun h hmem => hn h (List.mem_cons_of_mem _ hmem)) hok
    exact ⟨x :: xs, by rw [List.mapM_cons, hx, hxs]; rfl⟩

theorem item_of_ok {e : ExportLine} (hg : g.Clean) (he : e.Named)
    (hok : (e.run r g).error = false) :
    ∃ it, e.item r = some it := by
  unfold ExportLine.run at hok
  have hhosts : (e.hosts.foldl (HostEntry.run r) g).error = false := by
    by_contra herr
    rw [addItem_error _ (by simpa using herr)] at hok
    cases hok
  obtain ⟨hs, hhs⟩ := hosts_of_ok he hhosts
  rw [foldl_run_eq hg.host hhs, hg.hosts, List.nil_append] at hok
  unfold addItem at hok
  dsimp only at hok
  rw [ExportLine.item, hhs, Option.bind_some]
  cases hpath : (if hs.all (·.options.removable) then some
    (normpath e.path) else r.realpath e.path) with
  | none =>
    rw [hpath] at hok
    cases hok
  | some path =>
    rw [hpath] at hok
    dsimp only at hok
    by_cases hlong : maxPathLen < path.length + 1
    · rw [if_pos hlong] at hok
      cases hok
    · exact ⟨_, by rw [Option.bind_some, if_pos (by omega)]⟩

theorem foldl_line_error (es : List ExportLine) (hg : g.error = true) :
    (es.foldl (ExportLine.run r) g).error = true := by
  induction es generalizing g with
  | nil => exact hg
  | cons e es ih => exact ih (addItem_error _ (foldl_run_error _ hg))

theorem items_of_ok {es : List ExportLine} (hg : g.Clean) (he : ∀ e ∈ es, e.Named)
    (hok : (es.foldl (ExportLine.run r) g).error = false) :
    ∃ its, es.mapM (ExportLine.item r) = some its := by
  induction es generalizing g with
  | nil => exact ⟨[], rfl⟩
  | cons e es ih =>
    rw [List.foldl_cons] at hok
    have hfirst : (e.run r g).error = false := by
      by_contra herr
      rw [foldl_line_error es (by simpa using herr)] at hok
      cases hok
    obtain ⟨it, hit⟩ := item_of_ok hg (he e List.mem_cons_self) hfirst
    rw [ExportLine.run_eq hg hit] at hok
    obtain ⟨its, hits⟩ :=
      ih (g := { g with list := g.list ++ [it], neList := g.neList ++ [it.node] })
        ⟨hg.hosts, hg.groups, hg.host⟩ (fun e' hmem => he e' (List.mem_cons_of_mem _ hmem)) hok
    exact ⟨it :: its, by rw [List.mapM_cons, hit, hits]; rfl⟩

/-- What is made of each in turn. -/
theorem forall₂_of_mapM {α β : Type} {f : α → Option β} {xs : List α} {ys : List β}
    (h : xs.mapM f = some ys) :
    List.Forall₂ (fun x y => f x = some y) xs ys := by
  induction xs generalizing ys with
  | nil =>
    cases h.symm.trans List.mapM_nil
    exact .nil
  | cons x xs ih =>
    rw [List.mapM_cons] at h
    obtain ⟨y, hy, h⟩ := Option.bind_eq_some_iff.1 h
    obtain ⟨ys', hys, h⟩ := Option.bind_eq_some_iff.1 h
    cases h
    exact .cons hy (ih hys)

theorem all_removable {es : List HostEntry} {hs : List EHost} (h : List.Forall₂ (HostOf r) es hs) :
    (es.all fun e => (optionsOf e.opts).removable) = hs.all (·.options.removable) := by
  induction h with
  | nil => rfl
  | cons h _ ih => rw [List.all_cons, List.all_cons, ih, h.options]

theorem itemOf_of_item {e : ExportLine} {it : EItem} (he : e.item r = some it) : ItemOf r e it := by
  obtain ⟨hs, hhs, he⟩ := Option.bind_eq_some_iff.1 he
  obtain ⟨path, hp, he⟩ := Option.bind_eq_some_iff.1 he
  have hlen : path.length < maxPathLen := by
    by_contra hc
    rw [if_neg hc] at he
    cases he
  rw [if_pos hlen] at he
  cases he
  have hof : List.Forall₂ (HostOf r) e.hosts hs :=
    (forall₂_of_mapM hhs).imp fun _ _ => hostOf_of_host
  refine ⟨rfl, by rw [all_removable hof]; exact hp, hlen, ?_⟩
  generalize e.hosts = es at hof
  cases hof with
  | nil => exact .cons (hostOf_of_host rfl) .nil
  | cons h hrest => exact .cons h hrest

end

/-- **The parser builds what the grammar says.** For the tokens of a sentence, if no error was
raised, `e_list` has one item for each line, in the order of the file, with the hosts of that line,
in order, and each host has what its own name and its own options say, and the defaults for what
they do not. `ne_list` has the same directories and names. -/
theorem exports_parsed (r : Resolver) (ls : List Lexeme) (es : List ExportLine)
    (hder : IsExports (ls.map (·.tok)) es) (hok : (yyparse r 0 .line {} ls).1.error = false) :
    List.Forall₂ (ItemOf r) es (yyparse r 0 .line {} ls).1.list ∧
      (yyparse r 0 .line {} ls).1.neList = (yyparse r 0 .line {} ls).1.list.map EItem.node := by
  obtain ⟨s, hs, hfinish⟩ := hder.shifts_eq (r := r) (g := {})
  obtain ⟨lines, hrun⟩ := yyparse_shifted hs hok
  have hroom : s.1 = .line → yydepth lines 1 < yymaxdepth := by
    intro hline
    by_contra hfull
    rw [hrun, yyfinish, if_pos hline, if_pos (not_lt.1 hfull)] at hok
    cases hok
  have hclean : ECur.Clean {} := ⟨rfl, rfl, rfl⟩
  rw [hrun, hfinish lines hroom] at hok ⊢
  obtain ⟨its, hits⟩ := items_of_ok hclean hder.named hok
  rw [foldl_line_run_eq hclean hits]
  exact ⟨(forall₂_of_mapM hits).imp fun _ _ => itemOf_of_item, rfl⟩

/-- Two lines: a host with options next to one without, and a directory for everybody. -/
def twoLines : CStr := lit "/a 10.0.0.1(rw,password=pw) 10.0.0.2\n/b\n"

def twoEntries : List ExportLine :=
  [{ path := lit "/a", hosts := [
      { name := some (.ip (lit "10.0.0.1"))
        opts := [{ name := lit "rw" }, { name := lit "password", value := some (lit "pw") }] },
      { name := some (.ip (lit "10.0.0.2")) }] },
    { path := lit "/b" }]

/-- The second host and the second line have nothing of the first. -/
theorem exports_parsed_two :
    List.Forall₂ (ItemOf plainResolver) twoEntries
        (yyparse plainResolver 0 .line {} (scan 0 true twoLines)).1.list ∧
      (yyparse plainResolver 0 .line {} (scan 0 true twoLines)).1.neList =
        [{ dir := lit "/a", groups := [lit "10.0.0.1", lit "10.0.0.2"] },
          { dir := lit "/b", groups := [lit "<anon clnt>"] }] := by
  have htokens : tokens twoLines =
      [.path (lit "/a"), .white, .ip (lit "10.0.0.1"), .lparen, .id (lit "rw"), .comma,
        .id (lit "password"),
        .optvalue (lit "pw"), .rparen, .white, .ip (lit "10.0.0.2"), .newline, .path (lit "/b"),
          .newline] := by
    decide +kernel
  have hder : IsExports (tokens twoLines) twoEntries := by
    rw [htokens]
    refine .cons
      (.hosts _
        (.cons (.nameOpts (.ip _) (.cons (.flag _) (.one (.valued _ _)))) (.one (.name (.ip _)))))
          ?_
    exact .cons (.path _) .nil
  obtain ⟨hlist, hne⟩ :=
    exports_parsed plainResolver (scan 0 true twoLines) twoEntries hder (by decide +kernel)
  refine ⟨hlist, ?_⟩
  rw [hne]
  decide +kernel

end NfsRods
