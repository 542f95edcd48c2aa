import NfsRods.Proof.Grammar
import NfsRods.Proof.Normpath
import NfsRods.Proof.Scan

/-!
# Which names are resolved

The manual says that symbolic links in the name of an exported directory are expanded. `add_item`
leaves that out when all hosts of the item are marked as removable. It looks before it adds the
default host, so that of a line without hosts all are.

* `ExportLine.expanded`: the path the manual gives a line.
* `entered_run`: the path `add_item` gives it.
* `expanded_iff`: they agree exactly for the lines that list a host and for names that are resolved
  already.
-/

namespace NfsRods

open CStr

/-- The item is marked as removable for all the hosts it is exported to; without a list these are
all hosts, with default options. -/
def ExportLine.RemovableForAll (e : ExportLine) : Prop :=
  e.hosts ≠ [] ∧ ∀ h ∈ e.hosts, (optionsOf h.opts).removable = true

instance (e : ExportLine) : Decidable e.RemovableForAll := by
  unfold ExportLine.RemovableForAll; infer_instance

/-- The path of a line's item: the name is resolved, or put into its normal form for removable
media. -/
def ExportLine.expanded (r : Resolver) (e : ExportLine) : Option CStr :=
  if e.RemovableForAll then some (normpath e.path) else r.realpath e.path

/-- A line has been taken in as an item with the path, or rejected when there is none or it is too
long. -/
def Entered (e : ExportLine) (g g' : ECur) (path : Option CStr) : Prop :=
  (∃ p it, path = some p ∧ p.length < maxPathLen ∧ g'.list = g.list ++ [it] ∧ it.path = p ∧
    it.orig = e.path) ∨
  ((∀ p, path = some p → maxPathLen ≤ p.length) ∧ g'.list = g.list ∧ g'.error = true)

section
variable {r : Resolver} {e : ExportLine} {g : ECur}

/-! ## The hosts of a line -/

theorem setName_keeps (a : EToken) : (setName r a g).host.options = g.host.options ∧
    (setName r a g).hosts = g.hosts ∧ (setName r a g).list = g.list := by
  have hip : ∀ t, (setIpaddr t g).host.options = g.host.options ∧
      (setIpaddr t g).hosts = g.hosts ∧ (setIpaddr t g).list = g.list := by
    intro t
    unfold setIpaddr
    split <;> exact ⟨rfl, rfl, rfl⟩
  have hnet : ∀ t new, (setIpnet t new g).host.options = g.host.options ∧
      (setIpnet t new g).hosts = g.hosts ∧ (setIpnet t new g).list = g.list := by
    intro t new
    unfold setIpnet
    dsimp only
    split
    · exact hip _
    · split <;> exact hip _
  cases a with
  | id t =>
    simp only [setName, setHostname]
    split
    · exact ⟨rfl, rfl, rfl⟩
    · split <;> exact ⟨rfl, rfl, rfl⟩
  | ip t => exact hip t
  | net t => exact hnet t true
  | oldnet t => exact hnet t false
  | _ => exact ⟨rfl, rfl, rfl⟩

/-- The options of an entry are applied to whatever its name has made of the host. -/
theorem foldl_apply_options (os : List OptEntry) {h : EHost} (hh : h.options = {}) :
    (os.foldl (fun h o => o.apply h) h).options = optionsOf os := by
  induction os using List.reverseRecOn with
  | nil => exact hh
  | append_singleton os o ih =>
    rw [List.foldl_append]
    exact apply_options os o _ ih

/-- A host, resolved or not, has the options of its entry. -/
theorem run_options (h : HostEntry) (hg : g.host = {}) :
    ∃ x, (h.run r g).hosts = g.hosts ++ [x] ∧ x.options = optionsOf h.opts ∧
      (h.run r g).host = {} ∧ (h.run r g).list = g.list := by
  have hname : (h.name.elim g (setName r · g)).host.options = {} ∧
      (h.name.elim g (setName r · g)).hosts = g.hosts ∧
      (h.name.elim g (setName r · g)).list = g.list := by
    cases h.name with
    | none => exact ⟨by rw [Option.elim_none, hg], rfl, rfl⟩
    | some a =>
      obtain ⟨ho, hh, hl⟩ := setName_keeps (r := r) (g := g) a
      exact ⟨by rw [Option.elim_some, ho, hg], hh, hl⟩
  obtain ⟨ho, hh, hl⟩ := hname
  unfold HostEntry.run
  rw [foldl_add_eq]
  exact ⟨_, by rw [← hh]; rfl, foldl_apply_options h.opts ho, rfl, hl⟩

theorem foldl_run_options (hs : List HostEntry) (hg : g.host = {}) :
    ∃ xs, (hs.foldl (HostEntry.run r) g).hosts = g.hosts ++ xs ∧
      xs.map (·.options) = hs.map (fun h => optionsOf h.opts) ∧
      (hs.foldl (HostEntry.run r) g).list = g.list := by
  induction hs generalizing g with
  | nil => exact ⟨[], by simp⟩
  | cons h hs ih =>
    obtain ⟨x, hhosts, hx, hhost, hlist⟩ := run_options (r := r) h hg
    obtain ⟨xs, hrest, hxs, hl⟩ := ih hhost
    refine ⟨x :: xs, ?_, by simp [hx, hxs], hl.trans hlist⟩
    rw [List.foldl_cons, hrest, hhosts, List.append_assoc, List.singleton_append]

/-! ## What is entered -/

theorem addItem_entered (e : ExportLine) (g : ECur) : Entered e g (addItem r e.path g)
    (if g.hosts.all (·.options.removable) then some (normpath e.path) else r.realpath e.path) := by
  unfold addItem
  generalize (if g.hosts.all (·.options.removable) then some (normpath e.path)
    else r.realpath e.path) = path
  cases path with
  | none => exact .inr ⟨fun p hp => (by cases hp), rfl, rfl⟩
  | some buf =>
    dsimp only
    by_cases hlong : maxPathLen < buf.length + 1
    · rw [if_pos hlong]
      refine .inr ⟨fun p hp => ?_, rfl, rfl⟩
      obtain rfl := Option.some.inj hp
      omega
    · rw [if_neg hlong]
      have hlist : (if g.hosts.isEmpty = true then addHost g else g).list = g.list := by
        split <;> rfl
      exact .inl ⟨buf, _, rfl, by omega, by rw [hlist], rfl, rfl⟩

/-- `add_item` resolves the name unless every host that is listed is marked. -/
theorem entered_run (hg : g.Clean) : Entered e g (e.run r g)
    (if ∀ h ∈ e.hosts, (optionsOf h.opts).removable = true then some (normpath e.path)
      else r.realpath e.path) := by
  obtain ⟨xs, hhosts, hxs, hlist⟩ := foldl_run_options (r := r) e.hosts hg.host
  rw [hg.hosts, List.nil_append] at hhosts
  have hall : (xs.all (·.options.removable) = true) ↔
      ∀ h ∈ e.hosts, (optionsOf h.opts).removable = true := by
    have hmap : xs.all (·.options.removable) =
        (xs.map (·.options)).all (·.removable) := by rw [List.all_map]; rfl
    rw [hmap, hxs, List.all_map, List.all_eq_true]
    rfl
  have h := addItem_entered (r := r) e (e.hosts.foldl (HostEntry.run r) g)
  rw [hhosts, if_congr hall rfl rfl] at h
  unfold Entered at h ⊢
  rw [hlist] at h
  exact h

/-- A line is not entered with two paths, nor both entered and rejected. -/
theorem Entered.path_eq {g' : ECur} {p : CStr} {path : Option CStr} (h : Entered e g g' (some p))
    (hp : p.length < maxPathLen) (h' : Entered e g g' path) : path = some p := by
  obtain ⟨_, it, hp', -, hlist, hit, -⟩ | ⟨hlong, -, -⟩ := h
  · obtain rfl := Option.some.inj hp'
    obtain ⟨q, it', rfl, -, hlist', hit', -⟩ | ⟨-, hlist', -⟩ := h'
    · have hsame : it = it' := by simpa using hlist.symm.trans hlist'
      rw [← hit', ← hsame, hit]
    · rw [hlist'] at hlist
      simp at hlist
  · have := hlong p rfl
    omega

end

theorem squeeze_length (s : CStr) : (squeeze s).length ≤ s.length := by
  induction s with
  | nil => exact le_rfl
  | cons b s ih =>
    rw [squeeze_cons]
    split
    · exact ih.trans (Nat.le_succ _)
    · exact Nat.succ_le_succ ih

/-- **A name is expanded** or its line rejected, as the manual says, exactly when the line lists a
host or the name is resolved already. -/
theorem expanded_iff (r : Resolver) (text : CStr) (skip : Nat) (bol : Bool) (e : ExportLine)
    (hscan : ∃ l ∈ scan skip bol text, l.tok = .path e.path) (g : ECur) (hg : g.Clean) :
    Entered e g (e.run r g) (e.expanded r) ↔
      e.hosts ≠ [] ∨ r.realpath e.path = some (normpath e.path) := by
  obtain ⟨l, hl, hp⟩ := hscan
  have hlen : (normpath e.path).length < maxPathLen :=
    ((normpath_le e.path).length_le.trans (squeeze_length e.path)).trans_lt (path_length hl hp)
  have hrun := entered_run (r := r) (e := e) hg
  by_cases hhosts : e.hosts = []
  · have hpath : e.expanded r = r.realpath e.path := if_neg fun h => h.1 hhosts
    rw [if_pos (by simp [hhosts])] at hrun
    rw [hpath]
    constructor
    · exact fun h => .inr (hrun.path_eq hlen h)
    · rintro (h | h)
      · exact absurd hhosts h
      · rwa [h]
  · refine iff_of_true ?_ (.inl hhosts)
    have hpath : e.expanded r =
        if ∀ h ∈ e.hosts, (optionsOf h.opts).removable = true then some (normpath e.path)
          else r.realpath e.path := by
      unfold ExportLine.expanded ExportLine.RemovableForAll
      simp only [ne_eq, hhosts, not_false_eq_true, true_and]
    rw [hpath]
    exact hrun

/-- `/link` is a symbolic link to `/data`. -/
def linkResolver : Resolver :=
  { gethostbyname := fun _ => none
    realpath := fun p => some (if p = lit "/link" then lit "/data" else p) }

/-- A line for everybody that says so is resolved. -/
theorem expanded_listed : Entered { path := lit "/link", hosts := [{}] } {}
    (ExportLine.run linkResolver {} { path := lit "/link", hosts := [{}] }) (some (lit "/data")) :=
  (expanded_iff linkResolver (lit "/link ()\n") 0 true { path := lit "/link", hosts := [{}] }
    ⟨{ tok := .path (lit "/link"), long := false, unread := lit " ()\n", bol := false },
      by decide +kernel, rfl⟩ {} ⟨rfl, rfl, rfl⟩).2 (.inl (by simp))

/-- **The same line without a list is not**: no error is raised, the item has the name of the link,
and no export has the directory a MNT of the link leads to. -/
theorem link_not_expanded :
    (exportsParse linkResolver blockAhead false (some (lit "/link\n")) {}).cur.error = false ∧
    (exportsParse linkResolver blockAhead false (some (lit "/link\n")) {}).list.map (·.path) =
      [lit "/link"] ∧
    ¬ ExportLine.RemovableForAll { path := lit "/link" } ∧
    linkResolver.realpath (lit "/link") = some (lit "/data") ∧
    ¬ Entered { path := lit "/link" } {}
      (ExportLine.run linkResolver {} { path := lit "/link" }) (some (lit "/data")) ∧
    ∀ remote, (exportsOptions (exportsParse linkResolver blockAhead false (some (lit "/link\n"))
      {}).list remote (some (lit "/data")) {}).vars.opts = none := by
  have hparse : exportsParse linkResolver blockAhead false (some (lit "/link\n")) {} =
      { list := [{ path := lit "/link", orig := lit "/link", hosts := [{}] }]
        cur := { list := [{ path := lit "/link", orig := lit "/link", hosts := [{}] }]
                 neList := [{ dir := lit "/link", groups := [lit "<anon clnt>"] }] } } := by
    decide +kernel
  rw [hparse]
  refine ⟨rfl, rfl, by decide, rfl, fun h => ?_, fun remote => ?_⟩
  · have hrun := entered_run (r := linkResolver) (e := { path := lit "/link" }) (g := {})
      ⟨rfl, rfl, rfl⟩
    have := hrun.path_eq (p := lit "/link") (by decide) h
    revert this
    decide
  · rfl

end NfsRods
