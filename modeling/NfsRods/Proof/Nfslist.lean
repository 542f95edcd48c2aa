import NfsRods.Proof.Reload

/-!
# The list EXPORT returns

`exports.y` keeps a second list in the form of the mount protocol, `ne_list` beside `e_list`, and
`exports_nfslist` beside `export_list`.

* `yyparse_paired`: the parser enters into both lists what belongs together.
* `export_list_paired`: whatever is loaded, EXPORT lists what is exported.
-/

namespace NfsRods

open CStr

/-- `export_list` with the parser's state, and `exports_nfslist`. -/
structure ExportLists where
  exports : Exports := {}
  nfslist : List ExportNode := []
  deriving DecidableEq, Repr

/-- `exports_parse` on both lists. -/
def ExportLists.parse (r : Resolver) (ahead : ReadAhead) (s : ExportLists) (access : Bool)
    (file : Option CStr) : ExportLists :=
  let exports := exportsParse r ahead access file s.exports
  { exports
    nfslist :=
      if access then s.nfslist
      else
        match file with
        | none => []
        | some _ => if exports.cur.error then [] else exports.cur.neList }

/-! ## What is entered into both lists -/

/-- The lists of the parser agree, and so do those of the current item. -/
structure ECur.Paired (g : ECur) : Prop where
  list : g.neList = g.list.map EItem.node
  hosts : g.groups = g.hosts.map (·.orig)

section
variable {r : Resolver} {g : ECur}

/-- What changes neither the lists nor those of the current item. -/
theorem ECur.Paired.same {g' : ECur} (h : g.Paired) (hlist : g'.list = g.list)
    (hne : g'.neList = g.neList) (hhosts : g'.hosts = g.hosts) (hgroups : g'.groups = g.groups) :
    g'.Paired :=
  ⟨by rw [hne, hlist]; exact h.list, by rw [hgroups, hhosts]; exact h.hosts⟩

theorem addHost_paired (h : g.Paired) : (addHost g).Paired := by
  refine ⟨h.list, ?_⟩
  show g.groups ++ [g.host.orig] = (g.hosts ++ [g.host]).map (·.orig)
  rw [h.hosts, List.map_append]
  rfl

theorem addItem_paired (path : CStr) (h : g.Paired) : (addItem r path g).Paired := by
  unfold addItem
  split
  · exact ⟨h.list, rfl⟩
  · rename_i buf _
    split
    · exact ⟨h.list, rfl⟩
    · refine ⟨?_, rfl⟩
      have hg : (if g.hosts.isEmpty then addHost g else g).Paired := by
        split
        · exact addHost_paired h
        · exact h
      generalize (if g.hosts.isEmpty then addHost g else g) = g' at hg ⊢
      show g'.neList ++ [_] = (g'.list ++ [_]).map EItem.node
      rw [hg.list, List.map_append, hg.hosts]
      rfl

theorem setHostname_paired (name : CStr) (h : g.Paired) : (setHostname r name g).Paired := by
  unfold setHostname
  split
  · exact h.same rfl rfl rfl rfl
  · split <;> exact h.same rfl rfl rfl rfl

theorem setIpaddr_paired (addr : CStr) (h : g.Paired) : (setIpaddr addr g).Paired := by
  unfold setIpaddr
  split <;> exact h.same rfl rfl rfl rfl

theorem setIpnet_paired (addr : CStr) (new : Bool) (h : g.Paired) :
    (setIpnet addr new g).Paired := by
  have haddr := setIpaddr_paired (addr.takeWhile (· != slash)) h
  cases new with
  | true => exact haddr.same rfl rfl rfl rfl
  | false =>
    simp only [setIpnet, Bool.false_eq_true, ↓reduceIte]
    split <;> exact haddr.same rfl rfl rfl rfl

theorem addOptionWithValue_paired (opt val : CStr) (h : g.Paired) :
    (addOptionWithValue opt val g).Paired := by
  unfold addOptionWithValue
  split
  · exact h.same rfl rfl rfl rfl
  · split
    · exact h.same rfl rfl rfl rfl
    · split <;> exact h.same rfl rfl rfl rfl

theorem addOption_paired (opt : CStr) (h : g.Paired) : (addOption opt g).Paired :=
  h.same rfl rfl rfl rfl

theorem act_paired (place : EPlace) (t : EToken) (h : g.Paired) : (place.act r t g).Paired := by
  unfold EPlace.act
  split
  · exact addItem_paired _ h
  · exact addItem_paired _ h
  · exact setHostname_paired _ h
  · exact setIpaddr_paired _ h
  · exact setIpnet_paired _ _ h
  · exact setIpnet_paired _ _ h
  · exact addItem_paired _ (addHost_paired h)
  · exact addHost_paired h
  · exact addHost_paired h
  · exact addOptionWithValue_paired _ _ h
  · exact addOption_paired _ h
  · exact addHost_paired (addOption_paired _ h)
  · exact addHost_paired h
  · exact addItem_paired _ h
  · exact h

theorem yyerror_paired (h : g.Paired) : (yyerror g).Paired := h.same rfl rfl rfl rfl

theorem yyfinish_paired (lines : Nat) (place : EPlace) (h : g.Paired) :
    (yyfinish r lines place g).Paired := by
  unfold yyfinish
  split
  · split
    · exact yyerror_paired h
    · exact h
  · split
    · exact act_paired _ _ h
    · exact yyerror_paired h

theorem note_paired (l : Lexeme) (h : g.Paired) : (l.note g).Paired := by
  unfold Lexeme.note
  split
  · exact h.same rfl rfl rfl rfl
  · exact h

/-- The lists agree wherever the parser stops. -/
theorem yyparse_paired (lines : Nat) (place : EPlace) (ls : List Lexeme) (h : g.Paired) :
    (yyparse r lines place g ls).1.Paired := by
  induction ls generalizing lines place g with
  | nil => exact yyfinish_paired lines place h
  | cons l ls ih =>
    rw [yyparse]
    split
    · exact yyfinish_paired lines place h
    · split
      · exact yyerror_paired h
      · split
        · exact yyerror_paired h
        · exact ih _ _ (act_paired _ _ (note_paired l h))

/-! ## What is in force -/

/-- One load keeps the lists together. -/
theorem parse_paired (ahead : ReadAhead) {s : ExportLists}
    (h : s.nfslist = s.exports.list.map EItem.node) (access : Bool) (file : Option CStr) :
    (s.parse r ahead access file).nfslist =
      (s.parse r ahead access file).exports.list.map EItem.node := by
  unfold ExportLists.parse exportsParse
  cases access with
  | true => exact h
  | false =>
    cases file with
    | none => rfl
    | some text =>
      have hcur := yyparse_paired (r := r) 0 .line
        (scan 0 s.exports.buf.bol (s.exports.buf.input text)) (g := {}) ⟨rfl, rfl⟩
      simp only [Bool.false_eq_true, if_false]
      split
      · rfl
      · exact hcur.list

/-- **EXPORT lists what is exported**: after every sequence of loads, with files that cannot be
opened, files with errors and calls that find the list in use, the list for the mount protocol has
a node for each item in force, with its directory and the names of its hosts. -/
theorem export_list_paired (r : Resolver) (ahead : ReadAhead) (loads : List (Bool × Option CStr)) :
    let s := loads.foldl (fun s load => s.parse r ahead load.1 load.2) ({} : ExportLists)
    s.nfslist = s.exports.list.map EItem.node := by
  have hrun : ∀ s : ExportLists, s.nfslist = s.exports.list.map EItem.node →
      (loads.foldl (fun s load => s.parse r ahead load.1 load.2) s).nfslist =
        (loads.foldl (fun s load => s.parse r ahead load.1 load.2) s).exports.list.map
          EItem.node := by
    intro s hs
    induction loads generalizing s with
    | nil => exact hs
    | cons load loads ih => exact ih _ (parse_paired ahead hs load.1 load.2)
  exact hrun {} rfl

end

end NfsRods
