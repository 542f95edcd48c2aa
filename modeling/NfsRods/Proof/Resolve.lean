import NfsRods.Lib.Descent
import NfsRods.Proof.Sizes
import NfsRods.Proof.StatCache

/-!
# Handles that are resolved by search

A handle that is not in the cache is resolved by a search from the root directory (`fh_rec`), which
goes down where the hash of an inode number is the one the handle has for that depth. LOOKUP makes
the handle of an object by appending to the one the client sent for the directory, but finds the
object below the translated directory.

* `fhRec_iff`: when the search comes to an object.
* `lookup_resolves_iff`: the handle LOOKUP returns is resolved to the object again exactly when the
  translated directory is reached from the root by the components whose hashes are in the client's
  handle.
-/

namespace NfsRods

open CStr
open Prog (Ends Frame)

/-! ## Paths -/

/-- The path with the components `cs`. -/
def pathOf (cs : List CStr) : CStr := cs.flatMap (root ++ ·)

@[simp] theorem pathOf_nil : pathOf [] = [] := rfl

theorem pathOf_snoc (cs : List CStr) (c : CStr) : pathOf (cs ++ [c]) = pathOf cs ++ root ++ c := by
  simp [pathOf]

theorem pathOf_append (cs ds : List CStr) : pathOf (cs ++ ds) = pathOf cs ++ pathOf ds := by
  simp [pathOf]

/-- The search has room for the path with the components `cs`. -/
def Short (cs : List CStr) : Prop := (pathOf cs).length + 1 < maxPathLen

theorem Short.of_prefix {cs ds : List CStr} (h : Short ds) (hp : cs <+: ds) : Short cs := by
  obtain ⟨es, rfl⟩ := hp
  unfold Short at h ⊢
  rw [pathOf_append, List.length_append] at h
  omega

/-- The name of a directory entry. -/
structure Component (c : CStr) : Prop where
  nonempty : c ≠ []
  slashless : slash ∉ c

instance (c : CStr) : Decidable (Component c) :=
  decidable_of_iff (c ≠ [] ∧ slash ∉ c) ⟨fun h => ⟨h.1, h.2⟩, fun h => ⟨h.1, h.2⟩⟩

section
variable {L R : Type} (w : World L R) (k : L)

/-! ## The search -/

/-- The directory with the components `cs` lists the name `c`. -/
def HasEntry (cs : List CStr) (c : CStr) : Prop :=
  ∃ es, w.readdir k (root ++ pathOf cs) = .ok es ∧ ∃ x ∈ es, x.name = c

/-- The buffer of the search holds the path of `c` in the directory. -/
def Room (cs : List CStr) (c : CStr) : Prop :=
    (root ++ pathOf cs).length + c.length + 1 < maxPathLen

/-- The path has the device and inode of the handle. -/
def Hits (fh : Unfs3Fh) (cs : List CStr) : Prop :=
  (statOrZero w k (root ++ pathOf cs)).dev = fh.dev ∧
    (statOrZero w k (root ++ pathOf cs)).ino = fh.ino

/-- With `n` levels left the search goes from `cs` down `rest` to the object of the handle. -/
inductive Found (fh : Unfs3Fh) : Nat → List CStr → List CStr → Prop
  | here {n : Nat} {cs : List CStr} {c : CStr} (hl : HasEntry w k cs c) (hf : Room cs c)
    (hit : Hits w k fh (cs ++ [c])) : Found fh (n + 1) cs [c]
  | down {n : Nat} {cs rest : List CStr} {c : CStr} (hl : HasEntry w k cs c) (hf : Room cs c)
    (hmiss : ¬ Hits w k fh (cs ++ [c])) (ho : Ordinary c)
    (hash : fhHash (statOrZero w k (root ++ pathOf (cs ++ [c]))).ino =
      fh.inos.getD (fh.len - (n + 1)) 0)
    (h : Found fh n (cs ++ [c]) rest) : Found fh (n + 1) cs (c :: rest)

end

section
variable {L R : Type} {w : World L R} {k : L} {fh : Unfs3Fh}

theorem lead_snoc (cs : List CStr) (c : CStr) :
    root ++ pathOf cs ++ root ++ c = root ++ pathOf (cs ++ [c]) := by
  rw [pathOf_snoc, List.append_assoc, List.append_assoc, List.append_assoc]

/-- What the search makes of an entry of the directory `lead`, with `n` levels left below it. -/
def recLook (w : World L R) (k : L) (fh : Unfs3Fh) (n : Nat) (lead : CStr) (x : Dirent) :
    Descent.Look CStr (CStr × Stat) :=
  if lead.length + x.name.length + 1 < maxPathLen then
    let buf := statOrZero w k (lead ++ root ++ x.name)
    if buf.dev = fh.dev ∧ buf.ino = fh.ino then .found (lead.drop 1 ++ root ++ x.name, buf)
    else if x.name ≠ lit ".." ∧ x.name ≠ lit "." ∧ fhHash buf.ino =
      fh.inos.getD (fh.len - (n + 1)) 0 then .enter (lead ++ root ++ x.name)
    else .skip
  else .skip

/-- The entries of a directory, none if it cannot be listed. -/
def listing (w : World L R) (k : L) (p : CStr) : List Dirent :=
  match w.readdir k p with
  | .ok es => es
  | .error _ => []

theorem fhRec_eq_search (n : Nat) (lead : CStr) :
    fhRec w k fh n lead = Descent.search (listing w k) (recLook w k fh) n lead := by
  induction n generalizing lead with
  | zero => rfl
  | succ n ih =>
    rw [fhRec, Descent.search, listing]
    cases w.readdir k lead with
    | error e => rfl
    | ok es =>
      refine congrArg (List.findSome? · es) (funext fun x => ?_)
      simp only [recLook, ih]
      split_ifs <;> rfl

theorem mem_listing {cs : List CStr} {c : CStr} :
    HasEntry w k cs c ↔ ∃ x ∈ listing w k (root ++ pathOf cs), x.name = c := by
  unfold HasEntry listing
  cases w.readdir k (root ++ pathOf cs) with
  | error e => simp
  | ok es => simp

theorem Found.meets {n : Nat} {cs rest : List CStr} (h : Found w k fh n cs rest) :
    Descent.Meets (listing w k) (recLook w k fh) n (root ++ pathOf cs)
      (pathOf (cs ++ rest), statOrZero w k (root ++ pathOf (cs ++ rest))) := by
  induction h with
  | @here n cs c hl hf hit =>
    obtain ⟨x, hx, rfl⟩ := mem_listing.1 hl
    refine .found hx ?_
    unfold Room at hf
    unfold Hits at hit
    rw [recLook, if_pos hf]
    simp only [lead_snoc]
    rw [if_pos hit, pathOf_snoc]
    rfl
  | @down n cs rest c hl hf hmiss ho hash h ih =>
    obtain ⟨x, hx, rfl⟩ := mem_listing.1 hl
    rw [List.append_assoc] at ih
    refine .enter hx ?_ ih
    unfold Room at hf
    unfold Hits at hmiss
    rw [recLook, if_pos hf]
    simp only [lead_snoc]
    rw [if_neg hmiss, if_pos ⟨fun h => ho (.inr h), fun h => ho (.inl h), hash⟩]

theorem found_of_meets {n : Nat} {lead : CStr} {r : CStr × Stat}
    (h : Descent.Meets (listing w k) (recLook w k fh) n lead r) :
    ∀ cs, lead = root ++ pathOf cs → ∃ rest, Found w k fh n cs rest ∧ r.1 = pathOf (cs ++ rest) ∧
      r.2 = statOrZero w k (root ++ pathOf (cs ++ rest)) := by
  induction h with
  | @found n lead x r hx h =>
    rintro cs rfl
    unfold recLook at h
    simp only [lead_snoc] at h
    split_ifs at h with hf hit
    cases h
    exact ⟨[x.name], .here (mem_listing.2 ⟨x, hx, rfl⟩) hf hit, by rw [pathOf_snoc]; rfl, rfl⟩
  | @enter n lead q x r hx h _ ih =>
    rintro cs rfl
    unfold recLook at h
    simp only [lead_snoc] at h
    split_ifs at h with hf hmiss hd
    cases h
    obtain ⟨rest, hrest, h1, h2⟩ := ih (cs ++ [x.name]) rfl
    refine ⟨x.name :: rest, .down (mem_listing.2 ⟨x, hx, rfl⟩) hf hmiss ?_ hd.2.2 hrest, ?_, ?_⟩
    · exact fun ho => ho.elim hd.2.1 hd.1
    · rw [h1, List.append_assoc]
      rfl
    · rw [h2, List.append_assoc]
      rfl

theorem fhRec_sound {p : CStr} {b : Stat} (n : Nat) (cs : List CStr)
    (h : fhRec w k fh n (root ++ pathOf cs) = some (p, b)) :
    ∃ rest, Found w k fh n cs rest ∧ p = pathOf (cs ++ rest) ∧
      b = statOrZero w k (root ++ pathOf (cs ++ rest)) := by
  rw [fhRec_eq_search] at h
  exact found_of_meets (Descent.search_meets h) cs rfl

theorem fhRec_complete {n : Nat} {cs rest : List CStr} (h : Found w k fh n cs rest) :
    (fhRec w k fh n (root ++ pathOf cs)).isSome := by
  rw [fhRec_eq_search]
  exact h.meets.isSome

namespace Found

variable {n : Nat} {cs rest : List CStr}

/-- The search ends at the object. -/
theorem hits (h : Found w k fh n cs rest) : rest ≠ [] ∧ Hits w k fh (cs ++ rest) := by
  induction h with
  | here _ _ hit => exact ⟨by simp, hit⟩
  | down _ _ _ _ _ _ ih => exact ⟨by simp, by simpa using ih.2⟩

/-- It does not pass the object on its way. -/
theorem misses (h : Found w k fh n cs rest) :
    ∀ p, p <+: rest → p ≠ [] → p ≠ rest → ¬ Hits w k fh (cs ++ p) := by
  induction h with
  | @here n cs c _ _ _ =>
    intro p hp hne hproper
    obtain ⟨t, ht⟩ := hp
    rcases p with _ | ⟨a, p⟩
    · exact absurd rfl hne
    · simp only [List.cons_append, List.cons.injEq, List.append_eq_nil_iff] at ht
      rw [ht.1, ht.2.1] at hproper
      exact absurd rfl hproper
  | @down n cs rest c _ _ hmiss _ _ _ ih =>
    intro p hp hne hproper
    rcases p with _ | ⟨a, p⟩
    · exact absurd rfl hne
    · obtain ⟨rfl, hp'⟩ := List.cons_prefix_cons.1 hp
      by_cases hp0 : p = []
      · rw [hp0]
        exact hmiss
      · have hlast := ih p hp' hp0 fun h => hproper (by rw [h])
        simpa using hlast

theorem length_le (h : Found w k fh n cs rest) : rest.length ≤ n := by
  induction h with
  | here _ _ _ => simp
  | down _ _ _ _ _ _ ih => simpa using ih

theorem short (h : Found w k fh n cs rest) : Short (cs ++ rest) := by
  induction h with
  | @here n cs c _ hf _ =>
    unfold Room at hf
    rw [Short, pathOf_snoc]
    simp only [List.length_append] at hf ⊢
    simp only [root, List.length_singleton] at hf ⊢
    omega
  | down _ _ _ _ _ _ ih => simpa using ih

theorem ordinary (h : Found w k fh n cs rest) : ∀ c ∈ rest.dropLast, Ordinary c := by
  induction h with
  | here _ _ _ => simp
  | @down n cs rest c _ _ _ ho _ h ih =>
    rw [List.dropLast_cons_of_ne_nil h.hits.1]
    simpa using ⟨ho, ih⟩

theorem hash (h : Found w k fh n cs rest) (hn : n ≤ fh.len) : ∀ i, i + 1 < rest.length →
    fhHash (statOrZero w k (root ++ pathOf (cs ++ rest.take (i + 1)))).ino =
      fh.inos.getD (fh.len - n + i) 0 := by
  induction h with
  | here _ _ _ =>
    intro i hi
    simp at hi
  | @down n cs rest c _ _ _ _ hash h ih =>
    intro i hi
    cases i with
    | zero => simpa using hash
    | succ i =>
      have hnext := ih (by omega) i (by simpa using hi)
      rw [show fh.len - (n + 1) + (i + 1) = fh.len - n + i by omega, ← hnext]
      simp

end Found

/-! ## The tree -/

/-- The path `p` is `obj`, but for a second separator at the start. -/
def Same (p obj : CStr) : Prop := obj = p ∨ obj = root ++ p

/-- What a file system promises of names: a leading separator may be doubled; entries are single
components; a directory above something can be listed, and lists it. -/
structure Tidy (w : World L R) (k : L) : Prop where
  slashes : ∀ cs, cs ≠ [] → Short cs → w.lstat k (root ++ pathOf cs) = w.lstat k (pathOf cs)
  names : ∀ cs c, HasEntry w k cs c → Component c
  lists : ∀ cs c b, Component c → w.lstat k (pathOf (cs ++ [c])) = .ok b → HasEntry w k cs c
  above : ∀ cs c b, cs ≠ [] → w.lstat k (pathOf (cs ++ [c])) = .ok b →
    ∃ b', w.lstat k (pathOf cs) = .ok b'

/-- No other name leads to the object: none that does not pass it. -/
def Sole (w : World L R) (k : L) (obj : CStr) : Prop :=
  ∀ b, w.lstat k obj = .ok b → ∀ cs, cs ≠ [] → (∀ c ∈ cs, Component c) →
    (∀ c ∈ cs.dropLast, Ordinary c) → (∀ p, p <+: cs → ¬ Same (pathOf p) obj) →
    ¬ ((statOrZero w k (pathOf cs)).dev = b.dev ∧ (statOrZero w k (pathOf cs)).ino = b.ino)

/-- The components `cs` lead to `obj`, no deeper than `len`, and the inodes above it have the
hashes `inos`. -/
structure Leads (w : World L R) (k : L) (len : Nat) (inos : List UInt8) (obj : CStr)
    (cs : List CStr) : Prop where
  same : Same (pathOf cs) obj
  nonempty : cs ≠ []
  component : ∀ c ∈ cs, Component c
  ordinary : ∀ c ∈ cs.dropLast, Ordinary c
  depth : cs.length ≤ len
  short : Short cs
  hash : ∀ i, i + 1 < cs.length →
    fhHash (statOrZero w k (pathOf (cs.take (i + 1)))).ino = inos.getD i 0

theorem Tidy.statOrZero (h : Tidy w k) {cs : List CStr} (hne : cs ≠ []) (hs : Short cs) :
    statOrZero w k (root ++ pathOf cs) = NfsRods.statOrZero w k (pathOf cs) := by
  unfold NfsRods.statOrZero
  rw [h.slashes cs hne hs]

theorem Found.component {n : Nat} {cs rest : List CStr}
    (hnames : ∀ cs c, HasEntry w k cs c → Component c)
    (h : Found w k fh n cs rest) : ∀ c ∈ rest, Component c := by
  induction h with
  | here hl _ _ => simpa using hnames _ _ hl
  | down hl _ _ _ _ _ ih => simpa using ⟨hnames _ _ hl, ih⟩

/-- What the search finds is on the chain of the handle. -/
theorem Found.leads {cs : List CStr} {obj : CStr} (ht : Tidy w k) (h : Found w k fh fh.len [] cs)
    (hs : Same (pathOf cs) obj) : Leads w k fh.len fh.inos obj cs where
  same := hs
  nonempty := h.hits.1
  component := h.component ht.names
  ordinary := h.ordinary
  depth := h.length_le
  short := h.short
  hash i hi := by
    have hne : cs.take (i + 1) ≠ [] := by
      intro hnil
      rw [List.take_eq_nil_iff] at hnil
      exact hnil.elim (by omega) h.hits.1
    have := h.hash le_rfl i hi
    rw [List.nil_append, ht.statOrZero hne (h.short.of_prefix (List.take_prefix _ _))] at this
    rw [this]
    simp

theorem Tidy.lstat_same (ht : Tidy w k) {cs : List CStr} {obj : CStr} (hs : Same (pathOf cs) obj)
    (hne : cs ≠ []) (hshort : Short cs) : w.lstat k (pathOf cs) = w.lstat k obj := by
  rcases hs with rfl | rfl
  · rfl
  · exact (ht.slashes cs hne hshort).symm

/-- Everything above something is there. -/
theorem Tidy.above_all (ht : Tidy w k) {cs : List CStr} (hne : cs ≠ []) (ds : List CStr) {b : Stat}
    (h : w.lstat k (pathOf (cs ++ ds)) = .ok b) : ∃ b', w.lstat k (pathOf cs) = .ok b' := by
  induction ds using List.reverseRecOn generalizing b with
  | nil => exact ⟨b, by simpa using h⟩
  | append_singleton ds c ih =>
    rw [← List.append_assoc] at h
    obtain ⟨b', hb'⟩ := ht.above (cs ++ ds) c b (by simp [hne]) h
    exact ih hb'

theorem hits_iff (ht : Tidy w k) {b : Stat} {cs : List CStr} (hfh : fh.dev = b.dev ∧ fh.ino = b.ino)
    (hne : cs ≠ []) (hshort : Short cs) : Hits w k fh cs ↔
      (statOrZero w k (pathOf cs)).dev = b.dev ∧ (statOrZero w k (pathOf cs)).ino = b.ino := by
  rw [Hits, ht.statOrZero hne hshort, hfh.1, hfh.2]

theorem hits_same (ht : Tidy w k) {obj : CStr} {b : Stat} {cs : List CStr}
    (hb : w.lstat k obj = .ok b)
    (hfh : fh.dev = b.dev ∧ fh.ino = b.ino) (hne : cs ≠ []) (hshort : Short cs)
    (hs : Same (pathOf cs) obj) : Hits w k fh cs := by
  rw [hits_iff ht hfh hne hshort, statOrZero, ht.lstat_same hs hne hshort, hb]
  exact ⟨rfl, rfl⟩

/-- A proper part of the way to `obj` is shorter. -/
theorem not_same_of_prefix {p q cs : List CStr} {c : CStr} {obj : CStr} (hs : Same (pathOf cs) obj)
    (hcs : ∀ c ∈ cs, Component c) (hp : p ++ [c] <+: cs) (hq : q <+: p) :
    ¬ Same (pathOf q) obj := by
  obtain ⟨t, rfl⟩ := hp
  obtain ⟨u, rfl⟩ := hq
  have hc : c ≠ [] := (hcs c (by simp)).nonempty
  have hpos : 0 < c.length := List.length_pos_iff.2 hc
  intro hq
  have hlen : obj.length = (pathOf (q ++ u ++ [c] ++ t)).length ∨
      obj.length = (pathOf (q ++ u ++ [c] ++ t)).length + 1 := by
    rcases hs with rfl | rfl <;> simp [root]
  have hlen' : obj.length = (pathOf q).length ∨ obj.length = (pathOf q).length + 1 := by
    rcases hq with rfl | rfl <;> simp [root]
  rw [pathOf_append, pathOf_snoc, pathOf_append] at hlen
  simp only [List.length_append, root, List.length_singleton] at hlen
  omega

/-- The way to the object is searched. -/
theorem Leads.found {obj : CStr} {b : Stat} {cs : List CStr} (ht : Tidy w k) (hsole : Sole w k obj)
    (hb : w.lstat k obj = .ok b) (hfh : fh.dev = b.dev ∧ fh.ino = b.ino)
    (h : Leads w k fh.len fh.inos obj cs) (done rest : List CStr) (hcs : done ++ rest = cs)
    (hrest : rest ≠ []) : Found w k fh (fh.len - done.length) done rest := by
  have hdepth := h.depth
  induction rest generalizing done with
  | nil => exact absurd rfl hrest
  | cons c rest ih =>
    have hcs' : done ++ [c] ++ rest = cs := by simpa using hcs
    have hc : Component c := h.component c (by rw [← hcs]; simp)
    have hlen : fh.len - done.length = fh.len - (done ++ [c]).length + 1 := by
      rw [← hcs'] at hdepth
      simp only [List.length_append, List.length_singleton] at hdepth ⊢
      omega
    have hlists : HasEntry w k done c := by
      have hobj : w.lstat k (pathOf (done ++ [c] ++ rest)) = .ok b := by
        rw [hcs', ht.lstat_same h.same h.nonempty h.short, hb]
      obtain ⟨b', hb'⟩ := ht.above_all (by simp) rest hobj
      exact ht.lists done c b' hc hb'
    have hshort : Short (done ++ [c]) := h.short.of_prefix ⟨rest, hcs'⟩
    have hfit : Room done c := by
      unfold Short at hshort
      unfold Room
      rw [pathOf_snoc] at hshort
      simp only [List.length_append, root, List.length_singleton] at hshort ⊢
      omega
    rw [hlen]
    cases rest with
    | nil =>
      refine .here hlists hfit (hits_same ht hb hfh (by simp) hshort ?_)
      rw [List.append_nil] at hcs'
      rw [hcs']
      exact h.same
    | cons c' rest =>
      have hord : ∀ x ∈ done ++ [c], Ordinary x := by
        intro x hx
        refine h.ordinary x ?_
        rw [← hcs', List.dropLast_append_of_ne_nil (by simp)]
        exact List.mem_append_left _ hx
      refine .down hlists hfit ?_ (hord c (by simp)) ?_ (ih (done ++ [c]) hcs' (by simp))
      · rw [hits_iff ht hfh (by simp) hshort]
        refine hsole b hb (done ++ [c]) (by simp) (fun x hx => ?_) (fun x hx => ?_) fun q hq => ?_
        · exact h.component x (by rw [← hcs']; exact List.mem_append_left _ hx)
        · exact hord x (List.dropLast_subset _ hx)
        · exact not_same_of_prefix h.same h.component (c := c') ⟨rest, by simpa using hcs'⟩ hq
      · have htake : cs.take (done.length + 1) = done ++ [c] := by
          rw [← hcs', List.take_left' (by simp)]
        have hhash := h.hash done.length (by rw [← hcs']; simp)
        rw [htake] at hhash
        rw [ht.statOrZero (by simp) hshort, hhash]
        congr 1
        rw [← hlen]
        have : done.length ≤ fh.len := by
          rw [← hcs'] at hdepth
          simp only [List.length_append, List.length_singleton] at hdepth
          omega
        omega

/-- **When the search comes to an object**: it returns its path exactly when the components of the
path have the hashes of the handle. -/
theorem fhRec_iff {obj : CStr} {b : Stat} (ht : Tidy w k) (hsole : Sole w k obj)
    (hb : w.lstat k obj = .ok b) (hfh : fh.dev = b.dev ∧ fh.ino = b.ino) :
    (∃ p b', fhRec w k fh fh.len root = some (p, b') ∧ Same p obj) ↔
      ∃ cs, Leads w k fh.len fh.inos obj cs := by
  constructor
  · rintro ⟨p, b', hp, hs⟩
    obtain ⟨cs, hf, rfl, _⟩ := fhRec_sound fh.len [] (by simpa using hp)
    exact ⟨cs, hf.leads ht hs⟩
  · rintro ⟨cs, h⟩
    have hf := h.found ht hsole hb hfh [] cs rfl h.nonempty
    obtain ⟨⟨p, b'⟩, hp⟩ := Option.isSome_iff_exists.1 (fhRec_complete hf)
    have hp' : fhRec w k fh fh.len root = some (p, b') := by simpa using hp
    refine ⟨p, b', hp', ?_⟩
    obtain ⟨ds, hds, rfl, _⟩ := fhRec_sound fh.len [] (by simpa using hp)
    by_contra hn
    refine hsole b hb ds hds.hits.1 (hds.component ht.names) hds.ordinary (fun q hq hs => ?_)
      ((hits_iff ht hfh hds.hits.1 hds.short).1 hds.hits.2)
    by_cases hq0 : q = []
    · obtain ⟨c, cs', rfl⟩ : ∃ c cs', cs = c :: cs' := List.exists_cons_of_ne_nil h.nonempty
      rw [hq0] at hs
      exact not_same_of_prefix h.same h.component (p := []) (c := c) ⟨cs', rfl⟩ (List.prefix_rfl) hs
    · have hqds : q ≠ ds := fun h => hn (h ▸ hs)
      exact hds.misses q hq hq0 hqds (hits_same ht hb hfh hq0 (hds.short.of_prefix hq) hs)

/-- The search of a handle that is not in the cache. -/
theorem fhDecomp_search {s : Server L R} {h : Unfs3Fh} (hbf : w.conf.bruteForce = false)
    (hlen : h.len ≠ 0) (hm : (fhCacheLookup w h.dev h.ino s).1 = .ok none)
    (hn : ¬ ExportRoot s ⟨fhLength h, h⟩) :
    (fhDecomp w ⟨fhLength h, h⟩ s).1 = .ok ((fhRec w s.kernel h h.len root).map (·.1)) := by
  have hv : nfhValid ⟨fhLength h, h⟩ = true := by
    simp [nfhValid, fhLength, fhMinLen]
  rw [fhDecomp_hard hv hn, fhDecompHard]
  rcases hc : fhCacheLookup w h.dev h.ino s with ⟨x, s1⟩
  rw [hc] at hm
  subst hm
  obtain ⟨_, _, hk⟩ := fhCacheLookup_miss hc
  rw [Prog.bind_ok hc]
  simp only [Prog.get_bind_run, fhDecompRaw, if_neg hlen, hk, locateFile, hbf]
  cases fhRec w s.kernel h h.len root <;> rfl

/-! ## LOOKUP -/

/-- The handle that `fh_extend` appends to: the client's, or one made for the directory of a
removable export point. -/
def dirHandle (w : World L R) (s : Server L R) (nfh : NfsFh3) : Option Unfs3Fh :=
  if nfh.obj.len = 0 then
    match exportPointFromFsid s.exportList nfh.obj.dev with
    | some path => if fhValid (fhCompPath w s.kernel path false) then
        some (fhCompPath w s.kernel path false) else none
    | none => some nfh.obj
  else some nfh.obj

theorem fhExtend_run (nfh : NfsFh3) (dev ino gen : ULong) (s : Server L R) :
    fhExtend w nfh dev ino gen s = (.ok ((dirHandle w s nfh).bind fun new =>
      if new.len = fhMaxLen then none
      else some { dev, ino, gen, pwhash := s.exports.passwordHash, len := new.len + 1
                  inos := new.inos.take new.len ++ [fhHash ino] }), s) := by
  rw [fhExtend, Prog.get_bind_run, dirHandle]
  dsimp only
  cases (if nfh.obj.len = 0 then _ else _ : Option Unfs3Fh) with
  | none => rfl
  | some new =>
    dsimp only [Option.bind_some]
    split <;> rfl

/-- The hashes that a handle of the daemon's own has are as many as it says. -/
theorem fhCompPath_length (k : L) (path : CStr) (needDir : Bool) :
    (fhCompPath w k path needDir).inos.length = (fhCompPath w k path needDir).len := by
  unfold fhCompPath
  repeat' split
  all_goals rfl

theorem dirHandle_length {s : Server L R} {nfh : NfsFh3} {base : Unfs3Fh}
    (hwf : nfh.obj.inos.length = nfh.obj.len) (h : dirHandle w s nfh = some base) :
    base.inos.length = base.len := by
  unfold dirHandle at h
  split at h
  · split at h
    · split at h
      · cases h
        exact fhCompPath_length _ _ _
      · cases h
    · cases h
      exact hwf
  · cases h
    exact hwf

/-- What LOOKUP found under an ordinary name, and the handle it made for it. -/
theorem lookupLocal_found {what : Diropargs3} {path : CStr} {rq : SvcReq}
    {lr : Nfsstat3 × Option Unfs3Fh}
    {h : Unfs3Fh} {s s' : Server L R} (hn : Ordinary what.name)
    (hrun : lookupLocal w what path rq s = (.ok lr, s')) (hh : lr.2 = some h) :
    ∃ b base, w.lstat s.kernel (childPath path what.name) = .ok b ∧
      dirHandle w s what.dir = some base ∧ h.dev = b.dev ∧ h.ino = b.ino ∧ h.len = base.len + 1 ∧
      h.inos = base.inos.take base.len ++ [fhHash b.ino] := by
  by_cases ha : Accepted path what.name
  · simp only [lookupLocal, catName_accepted ha] at hrun
    obtain ⟨st, s1, h1, hstep⟩ := Prog.bind_eq_ok hrun
    cases st with
    | none =>
      simp only [Prog.get_bind_run, Prog.pure_run, Prod.mk.injEq, Except.ok.injEq] at hstep
      rw [← hstep.1] at hh
      cases hh
    | some b =>
      have hb : w.lstat s.kernel (childPath path what.name) = .ok b ∧ s1 = s := by
        unfold lstat query at h1
        split at h1
        · simp only [Prod.mk.injEq, Except.ok.injEq, Option.some.injEq] at h1
          exact ⟨h1.1 ▸ ‹_›, h1.2.symm⟩
        · simp at h1
      obtain ⟨hb, rfl⟩ := hb
      obtain ⟨fh, s2, h2, hrun⟩ := Prog.bind_eq_ok hstep
      rw [lookupFh, if_neg hn] at h2
      obtain ⟨fh', s3, h3, h2⟩ := Prog.bind_eq_ok h2
      obtain ⟨_, s4, _, h2⟩ := Prog.bind_eq_ok h2
      simp only [Prog.pure_run, Prod.mk.injEq, Except.ok.injEq] at h2
      obtain ⟨rfl, -⟩ := h2
      cases fh' with
      | none =>
        simp only [Prog.pure_run, Prod.mk.injEq, Except.ok.injEq] at hrun
        rw [← hrun.1] at hh
        cases hh
      | some fh' =>
        obtain ⟨_, s5, _, hrun⟩ := Prog.bind_eq_ok hrun
        simp only [Prog.modify_bind_run, Prog.pure_run, Prod.mk.injEq, Except.ok.injEq] at hrun
        rw [← hrun.1] at hh
        obtain rfl := Option.some.inj hh
        rw [fhExtend_run] at h3
        simp only [Prod.mk.injEq, Except.ok.injEq, Option.bind_eq_some_iff] at h3
        obtain ⟨⟨base, hbase, hext⟩, -⟩ := h3
        split at hext
        · cases hext
        · cases hext
          exact ⟨b, base, hb, hbase, rfl, rfl, rfl, rfl⟩
  · have hnone := catName_rejected ha
    unfold lookupLocal at hrun
    rcases hcat : catName (some path) what.name with ⟨st, o⟩
    rw [hcat] at hrun hnone
    obtain rfl : o = none := hnone
    simp only [Prog.pure_run, Prod.mk.injEq, Except.ok.injEq] at hrun
    rw [← hrun.1] at hh
    cases hh

theorem Leads.congr {len : Nat} {inos inos' : List UInt8} {obj : CStr} {cs : List CStr}
    (h : Leads w k len inos obj cs) (hi : ∀ i, i + 1 < len → inos.getD i 0 = inos'.getD i 0) :
    Leads w k len inos' obj cs :=
  { h with hash := fun i hcs => (h.hash i hcs).trans (hi i (hcs.trans_le h.depth)) }

/-- `fh_extend` keeps the hashes of the directory's handle. -/
theorem leads_extend {base : Unfs3Fh} {obj : CStr} {cs : List CStr}
    (hwf : base.inos.length = base.len)
    (x : UInt8) : Leads w k (base.len + 1) (base.inos.take base.len ++ [x]) obj cs ↔
      Leads w k (base.len + 1) base.inos obj cs := by
  have htake : base.inos.take base.len = base.inos := by rw [← hwf, List.take_length]
  have hi : ∀ i, i + 1 < base.len + 1 →
      (base.inos.take base.len ++ [x]).getD i 0 = base.inos.getD i 0 := by
    intro i hi
    rw [htake, List.getD_eq_getElem?_getD, List.getElem?_append_left (by omega),
      List.getD_eq_getElem?_getD]
  exact ⟨fun h => h.congr hi, fun h => h.congr fun i h => (hi i h).symm⟩

/-- LOOKUP of an ordinary name, in the directory that the client's handle is resolved to, is
answered with the handle `h`. The handle has as many hashes as its length says. -/
structure GivesHandle (w : World L R) (rq : SvcReq) (what : Diropargs3) (s s1 : Server L R)
    (dir : CStr) (h : Unfs3Fh) : Prop where
  handle : what.dir.obj.inos.length = what.dir.obj.len
  ordinary : Ordinary what.name
  prep : prep w what.dir rq s = (.ok (.ok dir), s1)
  run : ∃ r, (nfsproc3Lookup w what rq s).1 = .ok r ∧ r.status = .ok ∧ r.object = some h

/-- The object that LOOKUP examines. -/
def examined (w : World L R) (rq : SvcReq) (what : Diropargs3) (s1 : Server L R)
    (dir : CStr) : CStr :=
  childPath (realPath w (exportPath s1) rq.uid dir) what.name

/-- An object with the attributes `b` is found again by a handle that extends `base`: the way to it
has the hashes of `base`. What an export point's handle looks like is taken for the export point. -/
def Findable (w : World L R) (s : Server L R) (b : Stat) (base : Unfs3Fh) (obj : CStr) : Prop :=
  if b.ino = 1 ∧ (exportPointFromFsid s.exportList b.dev).isSome then
    ∃ p, exportPointFromFsid s.exportList b.dev = some p ∧ Same p obj
  else ∃ cs, Leads w s.kernel (base.len + 1) base.inos obj cs

theorem GivesHandle.found {rq : SvcReq} {what : Diropargs3} {s s1 : Server L R} {dir : CStr}
    {h : Unfs3Fh} (hg : GivesHandle w rq what s s1 dir h) :
    ∃ b base, w.lstat s1.kernel (examined w rq what s1 dir) = .ok b ∧
      dirHandle w s1 what.dir = some base ∧ h.dev = b.dev ∧ h.ino = b.ino ∧ h.len = base.len + 1 ∧
      h.inos = base.inos.take base.len ++ [fhHash b.ino] := by
  obtain ⟨e, he⟩ := prep_path hg.prep
  obtain ⟨r, hr, _, hh⟩ := hg.run
  rcases hrun : nfsproc3Lookup w what rq s with ⟨x, s'⟩
  obtain rfl : x = .ok r := by rw [← hr, hrun]
  rw [nfsproc3Lookup, withPrep, Prog.bind_ok hg.prep] at hrun
  obtain ⟨_, t1, t2, _, _, lr, a1, h2, _, _, _, hobj, _⟩ := lookupBody_parts he hrun
  obtain ⟨b, base, hb, hbase, hrest⟩ := lookupLocal_found hg.ordinary h2 (hobj ▸ hh)
  refine ⟨b, base, ?_, ?_, hrest⟩
  · rw [examined, exportPath, he, ← a1.kernel]
    exact hb
  · rw [← hbase, dirHandle, dirHandle, a1.kernel, a1.exportList]

/-- **When LOOKUP's handle is resolved again**: without the cache, and without the brute-force
search, the handle is resolved to the object that LOOKUP examined exactly when that lies at the end
of the inode hashes in the handle of the directory. -/
theorem lookup_resolves_iff (w : World L R) (hbf : w.conf.bruteForce = false) (rq : SvcReq)
    (what : Diropargs3) (s s1 s2 : Server L R) (dir : CStr) (h : Unfs3Fh)
    (hg : GivesHandle w rq what s s1 dir h)
    (hmiss : s2.fh.index h.dev h.ino = none)
    (hsame : w.lstat s2.kernel = w.lstat s1.kernel)
    (htidy : Tidy w s2.kernel) (hsole : Sole w s2.kernel (examined w rq what s1 dir)) :
    (∃ p, (fhDecomp w ⟨fhLength h, h⟩ s2).1 = .ok (some p) ∧ Same p (examined w rq what s1 dir)) ↔
      ∃ b base, w.lstat s1.kernel (examined w rq what s1 dir) = .ok b ∧
        dirHandle w s1 what.dir = some base ∧ Findable w s2 b base (examined w rq what s1 dir) := by
  obtain ⟨b, base, hb, hbase, hdev, hino, hlen, hinos⟩ := hg.found
  have hright : (∃ b base, w.lstat s1.kernel (examined w rq what s1 dir) = .ok b ∧
        dirHandle w s1 what.dir = some base ∧ Findable w s2 b base (examined w rq what s1 dir)) ↔
      Findable w s2 b base (examined w rq what s1 dir) := by
    rw [hb, hbase]
    simp
  rw [hright, Findable]
  split
  · rename_i hroot
    obtain ⟨p, hp⟩ := Option.isSome_iff_exists.1 hroot.2
    have hv : nfhValid ⟨fhLength h, h⟩ = true := by simp [nfhValid, fhLength, fhMinLen]
    rw [fhDecomp_exportRoot (p := p) hv (by rw [hdev, hp]) (by rw [hino, hroot.1]), hp]
    simp
  · rename_i hroot
    have hn : ¬ ExportRoot s2 ⟨fhLength h, h⟩ := by
      rw [ExportRoot, hdev, hino]
      exact fun h => hroot h.symm
    have hm : (fhCacheLookup w h.dev h.ino s2).1 = .ok none := by
      rw [fhCacheLookup, hmiss]
    rw [fhDecomp_search hbf (by omega) hm hn]
    have hrec := fhRec_iff htidy hsole (hsame ▸ hb) (And.intro hdev hino)
    rw [hlen, hinos] at hrec
    simp only [leads_extend (dirHandle_length hg.handle hbase)] at hrec
    rw [← hrec, ← hlen]
    simp

end

/-! ## A tree to search -/

theorem squeeze_slash {p : CStr} (h : p.head? = some slash) :
    Sandbox.squeeze p = root ++ p.dropWhile (· = slash) := by
  rw [Sandbox.squeeze, if_pos h]

theorem pathOf_head {cs : List CStr} (h : cs ≠ []) : (pathOf cs).head? = some slash := by
  obtain ⟨c, cs, rfl⟩ := List.exists_cons_of_ne_nil h
  rfl

/-- A second separator at the start makes no difference. -/
theorem squeeze_double {p : CStr} (h : p.head? = some slash) :
    Sandbox.squeeze (root ++ p) = Sandbox.squeeze p := by
  rw [squeeze_slash h, squeeze_slash rfl]
  simp [root]

theorem squeeze_lead (p : CStr) :
    Sandbox.squeeze (root ++ p) = root ++ p.dropWhile (· = slash) := by
  rw [squeeze_slash rfl]
  simp [root]

theorem squeeze_snoc (cs : List CStr) (c : CStr) :
    Sandbox.squeeze (pathOf (cs ++ [c])) = root ++ (if (pathOf cs).dropWhile (· = slash) = [] then
      c.dropWhile (· = slash) else (pathOf cs).dropWhile (· = slash) ++ root ++ c) := by
  rw [squeeze_slash (pathOf_head (by simp)), pathOf_snoc, List.append_assoc, List.dropWhile_append]
  split
  · rename_i h
    rw [if_pos (List.isEmpty_iff.1 h)]
    simp [root]
  · rename_i h
    rw [if_neg (fun hnil => h (List.isEmpty_iff.2 hnil)), List.append_assoc]

theorem Component.dropWhile {c : CStr} (h : Component c) : c.dropWhile (· = slash) = c := by
  obtain ⟨b, c, rfl⟩ := List.exists_cons_of_ne_nil h.nonempty
  have hb : b ≠ slash := fun hb => h.slashless (by simp [hb])
  simp [hb]

/-- The file of an entry is found under the directory's stem. -/
theorem squeeze_stem (cs : List CStr) {c : CStr} (h : Component c) :
    Sandbox.squeeze (pathOf (cs ++ [c])) =
      Sandbox.stem (Sandbox.squeeze (root ++ pathOf cs)) ++ c := by
  rw [squeeze_snoc, squeeze_lead, h.dropWhile, Sandbox.stem]
  split
  · rename_i hd
    rw [hd]
    simp
  · rename_i hd
    rw [if_neg (by simpa using hd)]
    simp

section
variable {k : Sandbox.Kernel} {b : Bool}

theorem find_ok {p : CStr} {st : Stat} (h : Sandbox.find k p = .ok st) :
    k.files.lookup p = some st := by
  unfold Sandbox.find at h
  split at h
  · rename_i hl
    rw [hl, Except.ok.inj h]
  · cases h

theorem find_isSome {p : CStr} (h : (k.files.lookup p).isSome) :
    ∃ st, Sandbox.find k p = .ok st := by
  obtain ⟨st, hst⟩ := Option.isSome_iff_exists.1 h
  exact ⟨st, by rw [Sandbox.find, hst]⟩

theorem mem_of_find {p : CStr} {st : Stat} (h : Sandbox.find k p = .ok st) : (p, st) ∈ k.files := by
  obtain ⟨l₁, l₂, hl, _⟩ := List.lookup_eq_some_iff.1 (find_ok h)
  rw [hl]
  simp

theorem treeWorld_above (hk : Sandbox.Rooted k) {cs : List CStr} {c : CStr} {st : Stat}
    (hne : cs ≠ [])
    (h : Sandbox.find k (Sandbox.squeeze (pathOf (cs ++ [c]))) = .ok st) :
    ∃ st', Sandbox.find k (Sandbox.squeeze (pathOf cs)) = .ok st' := by
  have hmem := mem_of_find h
  rw [squeeze_snoc] at hmem
  rw [squeeze_slash (pathOf_head hne)]
  apply find_isSome
  split at hmem
  · rename_i hd
    rw [hd]
    exact hk.1
  · have habove := hk.2 _ hmem (root ++ (pathOf cs).dropWhile (· = slash)).length (by simp [root])
      (by simp [root])
    rw [← List.append_assoc, ← List.append_assoc, List.append_assoc _ root,
      List.take_left] at habove
    exact habove (by simp [root])

theorem treeWorld_tidy (hk : Sandbox.Rooted k) : Tidy (Sandbox.treeWorld b) k where
  slashes cs hne _ := congrArg (Sandbox.find k) (squeeze_double (pathOf_head hne))
  names cs c := by
    rintro ⟨es, hes, x, hx, rfl⟩
    obtain rfl := Except.ok.inj hes
    obtain ⟨f, _, hf⟩ := List.mem_filterMap.1 hx
    dsimp only at hf
    split at hf
    · rename_i hc
      rw [← Option.some.inj hf]
      exact ⟨hc.2.1, hc.2.2⟩
    · cases hf
  lists cs c st hc h := by
    have hmem := mem_of_find h
    rw [squeeze_stem cs hc] at hmem
    refine ⟨_, rfl, { name := c, isDir := st.isDir }, List.mem_filterMap.2 ⟨_, hmem, ?_⟩, rfl⟩
    simp [hc.nonempty, hc.slashless]
  above cs c st hne h := treeWorld_above hk hne h

theorem squeeze_pathOf {cs : List CStr} (hne : cs ≠ []) (h : ∀ c ∈ cs, Component c) :
    Sandbox.squeeze (pathOf cs) = pathOf cs := by
  obtain ⟨c, cs, rfl⟩ := List.exists_cons_of_ne_nil hne
  have hc := h c (by simp)
  obtain ⟨x, c, rfl⟩ := List.exists_cons_of_ne_nil hc.nonempty
  have hx : x ≠ slash := fun hx => hc.slashless (by simp [hx])
  rw [squeeze_slash (pathOf_head (by simp))]
  simp [pathOf, root, hx]

/-- Nothing else has the object's device and inode. -/
theorem treeWorld_sole {obj : CStr} {st : Stat} (hdev : st.dev ≠ 0)
    (hst : Sandbox.find k (Sandbox.squeeze obj) = .ok st)
    (honly : ∀ x ∈ k.files, x.2.dev = st.dev → x.2.ino = st.ino → x.1 = obj) :
    Sole (Sandbox.treeWorld b) k obj := by
  intro st' hst' cs hne hcomp _ hpass hhit
  obtain rfl : st = st' := Except.ok.inj (hst.symm.trans hst')
  unfold statOrZero at hhit
  split at hhit
  · rename_i st' hfind
    have hobj := honly _ (mem_of_find hfind) hhit.1 hhit.2
    rw [squeeze_pathOf hne hcomp] at hobj
    exact hpass cs List.prefix_rfl (.inl hobj.symm)
  · exact hdev hhit.1.symm

end

/-- The export `/e` with a directory `n`, and the same in the mirror of user 7. -/
def treeServer : Server Sandbox.Kernel Sandbox.Grid :=
  Sandbox.server [Sandbox.item (lit "/e") true]
    { files := [(lit "/", { dev := 1, ino := 2, mode := 0o040755 }),
        (lit "/e", { dev := 1, ino := 3, mode := 0o040755 }),
        (lit "/e/n", { dev := 1, ino := 4, mode := 0o040755 }),
        (lit "/e/7", { dev := 1, ino := 5, mode := 0o040755 }),
        (lit "/e/7/n", { dev := 1, ino := 6, mode := 0o040755 })] } {}

def lookN : Diropargs3 := { dir := Sandbox.handle (Sandbox.item (lit "/e") true), name := lit "n" }

def treeReq : SvcReq := { remote := 1, uid := 7, gid := 7 }

/-- The handles that LOOKUP returns, with and without private collections. -/
def publicN : Unfs3Fh := { dev := 1, ino := 4, gen := 4, len := 2, inos := [3, 4] }
def privateN : Unfs3Fh := { dev := 1, ino := 6, gen := 6, len := 2, inos := [3, 6] }

/-- The daemon after that LOOKUP, with an empty handle cache. -/
def emptied (b : Bool) : Server Sandbox.Kernel Sandbox.Grid :=
  { (nfsproc3Lookup (Sandbox.treeWorld b) lookN treeReq treeServer).2 with fh := {} }

theorem find_dir {b : Bool} {p : CStr} (ino : ULong)
    (h : (emptied b).kernel.files.lookup (Sandbox.squeeze p) =
      some { dev := 1, ino, mode := 0o040755 }) :
    Sandbox.find (emptied b).kernel (Sandbox.squeeze p) =
      .ok { dev := 1, ino, mode := 0o040755 } := by
  rw [Sandbox.find, h]

theorem treeServer_gives (b : Bool) (h : Unfs3Fh)
    (hrun : (nfsproc3Lookup (Sandbox.treeWorld b) lookN treeReq treeServer).1.toOption.map
      (fun r => (r.status, r.object)) = some (.ok, some h)) :
    GivesHandle (Sandbox.treeWorld b) treeReq lookN treeServer
      (prep (Sandbox.treeWorld b) lookN.dir treeReq treeServer).2 (lit "/e") h := by
  obtain ⟨r, hr, hf⟩ := Sandbox.replied hrun
  simp only [Prod.mk.injEq] at hf
  refine ⟨rfl, by decide, ?_, r, hr, hf⟩
  cases b <;> exact Prod.ext rfl rfl

/-- Without private collections the handle of `/e/n` is resolved to it. -/
theorem lookup_resolves_public : ∃ s1 p,
    GivesHandle (Sandbox.treeWorld false) treeReq lookN treeServer s1 (lit "/e") publicN ∧
    (fhDecomp (Sandbox.treeWorld false) ⟨fhLength publicN, publicN⟩ (emptied false)).1 =
      .ok (some p) ∧
    Same p (lit "/e/n") := by
  have hgive := treeServer_gives false publicN (by decide +kernel)
  have hleads : Leads (Sandbox.treeWorld false) (emptied false).kernel 2 [3] (lit "/e/n")
      [lit "e", lit "n"] := by
    refine ⟨.inl (by decide), by decide, by decide, by decide, by decide, ?_, fun i hi => ?_⟩
    · unfold Short
      decide
    · obtain rfl : i = 0 := by simpa using hi
      decide +kernel
  have hsole : Sole (Sandbox.treeWorld false) (emptied false).kernel (lit "/e/n") :=
    treeWorld_sole (by decide) (find_dir 4 (by decide +kernel)) (by decide +kernel)
  have hkernel : (emptied false).kernel =
    (prep (Sandbox.treeWorld false) lookN.dir treeReq treeServer).2.kernel := by decide +kernel
  obtain ⟨p, hp⟩ := (lookup_resolves_iff (Sandbox.treeWorld false) rfl treeReq lookN treeServer _
    (emptied false) (lit "/e") publicN hgive (by decide +kernel) (by rw [hkernel])
    (treeWorld_tidy (by decide +kernel)) hsole).2
    ⟨_, _, rfl, rfl, by rw [Findable, if_neg (by decide +kernel)]; exact ⟨_, hleads⟩⟩
  exact ⟨_, p, hgive, hp⟩

/-- With private collections the handle of `/e/7/n`, which lies three levels deep, has the hash of
`/e` and room for one level more: it is resolved to nothing. -/
theorem lookup_private_lost : ∃ s1,
    GivesHandle (Sandbox.treeWorld true) treeReq lookN treeServer s1 (lit "/e") privateN ∧
    examined (Sandbox.treeWorld true) treeReq lookN s1 (lit "/e") = lit "/e/7/n" ∧
    (emptied true).kernel = s1.kernel ∧ Tidy (Sandbox.treeWorld true) (emptied true).kernel ∧
    Sole (Sandbox.treeWorld true) (emptied true).kernel (lit "/e/7/n") ∧
    (fhDecomp (Sandbox.treeWorld true) ⟨fhLength privateN, privateN⟩ (emptied true)).1 =
      .ok none := by
  refine ⟨_, treeServer_gives true privateN (by decide +kernel), by decide +kernel,
    by decide +kernel, treeWorld_tidy (by decide +kernel), ?_, by decide +kernel⟩
  exact treeWorld_sole (by decide) (find_dir 6 (by decide +kernel)) (by decide +kernel)

end NfsRods
