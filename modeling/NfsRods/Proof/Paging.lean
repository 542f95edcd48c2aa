import NfsRods.Proof.Handles

/-!
# Pages of a directory

A client reads a directory in pages: it sends the cookie of the last entry it has received, and
`read_dir` goes on from there.

* `readdir_paging_exact`: the pages of a listing that does not change are its entries in order, and
  the last of them says so.
* `readdir_progress_iff`: a page has an entry, if there is one left, when the client's count leaves
  room beyond `RESOK_SIZE`; `readdir_terminates`: then the client comes to the end.
-/

namespace NfsRods

open CStr
open Prog (Ends)

section
variable {L R : Type} {w : World L R}

/-! ## A client that reads on -/

/-- A client that reads a directory: the cookie it sends next, what it has received, and whether
the last page was marked as the end. -/
structure DirClient where
  cookie : UInt64 := 0
  got : List Entry3 := []
  eof : Bool := false

/-- A reply: after an error the client goes on with the cookie it has. -/
def DirClient.receive (c : DirClient) (r : Readdir3res) : DirClient :=
  if r.status = .ok then
    { cookie := (r.entries.getLast?.map (·.cookie)).getD c.cookie
      got := c.got ++ r.entries
      eof := r.eof }
  else c

/-- One page. -/
def DirClient.fetch (w : World L R) (path : CStr) (c : DirClient) (s : Server L R) (count : Nat) :
    DirClient :=
  match (readDir w path c.cookie count s).1 with
  | .ok r => c.receive r
  | .error _ => c

/-- The pages that a client asks for, each with its count, of a server in the states `calls`. -/
def DirClient.fetches (w : World L R) (path : CStr) (c : DirClient)
    (calls : List (Server L R × Nat)) : DirClient :=
  calls.foldl (fun c x => c.fetch w path x.1 x.2) c

theorem DirClient.receive_error {c : DirClient} {r : Readdir3res} (h : r.status ≠ .ok) :
    c.receive r = c := if_neg h

/-- One page more. -/
theorem DirClient.fetches_concat {path : CStr} {c : DirClient} {calls : List (Server L R × Nat)}
    {x : Server L R × Nat} {r : Readdir3res}
    (hr : (readDir w path (c.fetches w path calls).cookie x.2 x.1).1 = .ok r) :
    c.fetches w path (calls ++ [x]) = (c.fetches w path calls).receive r := by
  rw [DirClient.fetches, List.foldl_append]
  change (c.fetches w path calls).fetch w path x.1 x.2 = _
  rw [DirClient.fetch, hr]

/-- The position that a cookie of generation `g` names, as long as it has 32 bits. -/
theorem startOf_cookie (g : UInt64) {p : Nat} (hp : p < 2 ^ 32) :
    startOf (g <<< 32) (UInt64.ofNat p ||| g <<< 32) = p := by
  rw [startOf, if_neg (fun hne => hne.2 (upper_cookie g hp)), lower_cookie g hp,
    UInt64.toNat_ofNat']
  exact Nat.mod_eq_of_lt (by omega)

/-- What a page adds to a client: entries in order, and the cookie of the position after them. -/
theorem Page.receive {k : L} {path : CStr} {g : UInt64} {count q : Nat} {es : List Dirent}
    {r : Readdir3res} (h : Page w k path (g <<< 32) count es q r) (hst : r.status = .ok)
    (c : DirClient) : ∃ j ≤ (es.drop q).length, j ≤ maxEntries ∧
      ((c.receive r).got.map (·.name) = c.got.map (·.name) ++ ((es.drop q).take j).map (·.name)) ∧
      ((c.receive r).eof = true ↔ j = (es.drop q).length) ∧
      (c.receive r).cookie = (if j = 0 then c.cookie else UInt64.ofNat (q + j) ||| g <<< 32) ∧
      (resokSize < count → es.drop q ≠ [] → 0 < j) := by
  obtain ⟨j, hj, hentries, heof, hmax, hprogress, _⟩ := h
  have hmax := hmax (Nat.zero_le _)
  rw [DirClient.receive, if_pos hst, hentries, List.reverse_nil, List.nil_append]
  refine ⟨j, hj, by omega, ?_, heof, ?_, fun hcount => hprogress rfl ?_⟩
  · rw [List.map_append, entriesFrom_names]
  · dsimp only
    cases htake : (es.drop q).take j with
    | nil =>
      have hzero : j = 0 := by
        have hlen := congrArg List.length htake
        rw [List.length_take, List.length_nil] at hlen
        omega
      rw [if_pos hzero]
      rfl
    | cons x xs =>
      have hlen := congrArg List.length htake
      rw [List.length_take, List.length_cons] at hlen
      rw [if_neg (by omega), entriesFrom_last, Option.getD_some]
      have hsum : q + j = q + 1 + xs.length := by omega
      rw [Nat.zero_add, hsum, UInt64.ofNat_add, UInt64.ofNat_add]
      rfl
  · rw [resokSize] at hcount ⊢
    omega

/-- What a client has received of a listing that does not change: its first `p` entries, and the
cookie that names the next. -/
structure Reading (g : UInt64) (es : List Dirent) (c : DirClient) (p : Nat) : Prop where
  within : p ≤ es.length
  got : c.got.map (·.name) = (es.take p).map (·.name)
  cookie : startOf (g <<< 32) c.cookie = p

/-- The directory lists `es`, and the server's cookie is `g`. -/
structure Fixed (w : World L R) (path : CStr) (es : List Dirent) (g : UInt64) (s : Server L R) :
    Prop where
  listing : w.readdir s.kernel path = .ok es
  rcookie : s.rcookie = g <<< 32

variable {path : CStr} {es : List Dirent} {g : UInt64} {s : Server L R} {c : DirClient} {p : Nat}

theorem Reading.init : Reading g es {} 0 :=
  ⟨Nat.zero_le _, rfl, by rw [startOf, if_neg fun h => h.1 rfl]; rfl⟩

/-- One page of a listing that does not change. -/
theorem Reading.receive (h : Reading g es c p) (hlen : es.length < 2 ^ 32)
    (hs : Fixed w path es g s) (count : Nat) :
    ∃ r, (readDir w path c.cookie count s).1 = .ok r ∧
      ((∀ x ∈ es, Usable w s.kernel path x) → r.status = .ok) ∧
      (r.status = .ok → ∃ p', Reading g es (c.receive r) p' ∧ (r.eof = true ↔ p' = es.length) ∧
        p ≤ p' ∧ (resokSize < count → p < es.length → p < p')) := by
  obtain ⟨r, hr, hpage, hok⟩ := readDir_fills (w := w) hs.listing c.cookie count
  refine ⟨r, hr, fun h => hok (.inl h), fun hst => ?_⟩
  have hp := hpage hst
  rw [hs.rcookie, h.cookie] at hp
  obtain ⟨j, hj, _, hgot, heof, hcookie, hprogress⟩ := hp.receive hst c
  have hwithin := h.within
  rw [List.length_drop] at hj heof
  have hr' : (c.receive r).eof = r.eof := by rw [DirClient.receive, if_pos hst]
  refine ⟨p + j, ⟨by omega, ?_, ?_⟩, ?_, Nat.le_add_right p j, fun hcount hlt => ?_⟩
  · rw [hgot, h.got, ← List.map_append, List.take_add]
  · rw [hcookie]
    split
    · rename_i hzero
      rw [hzero, h.cookie, Nat.add_zero]
    · exact startOf_cookie g (by omega)
  · rw [← hr', heof]
    omega
  · have := hprogress hcount (by rw [ne_eq, List.drop_eq_nil_iff]; omega)
    omega

theorem reading_fetches (hlen : es.length < 2 ^ 32) (calls : List (Server L R × Nat))
    (hcalls : ∀ x ∈ calls, Fixed w path es g x.1) :
    ∃ p, Reading g es (DirClient.fetches w path {} calls) p := by
  induction calls using List.reverseRecOn with
  | nil => exact ⟨0, .init⟩
  | append_singleton calls x ih =>
    obtain ⟨p, hp⟩ := ih fun y hy => hcalls y (List.mem_append_left _ hy)
    obtain ⟨r, hr, _, hnext⟩ := hp.receive hlen (hcalls x (by simp)) x.2
    rw [DirClient.fetches_concat hr]
    by_cases hst : r.status = .ok
    · obtain ⟨p', hp', _⟩ := hnext hst
      exact ⟨p', hp'⟩
    · exact ⟨p, by rwa [DirClient.receive_error hst]⟩

/-- **Paging is exact**: of a listing that does not change, whatever counts a client asks with,
every page is returned without an error, what the client has received is the beginning of the
listing in order, and the page is marked as the end exactly when that is the whole listing. -/
theorem readdir_paging_exact (w : World L R) (path : CStr) (es : List Dirent) (g : UInt64)
    (hlen : es.length < 2 ^ 32) (calls : List (Server L R × Nat))
    (hcalls : ∀ x ∈ calls, Fixed w path es g x.1) (s : Server L R) (count : Nat)
    (hs : Fixed w path es g s) (husable : ∀ x ∈ es, Usable w s.kernel path x) :
    ∃ r, (readDir w path (DirClient.fetches w path {} calls).cookie count s).1 = .ok r ∧
      r.status = .ok ∧
      ((DirClient.fetches w path {} calls).got ++ r.entries).map (·.name) <+: es.map (·.name) ∧
      (r.eof = true ↔
        ((DirClient.fetches w path {} calls).got ++ r.entries).map (·.name) =
          es.map (·.name)) := by
  obtain ⟨p, hp⟩ := reading_fetches hlen calls hcalls
  obtain ⟨r, hr, hok, hnext⟩ := hp.receive hlen hs count
  have hst := hok husable
  obtain ⟨p', hp', heof, _⟩ := hnext hst
  have hgot := hp'.got
  rw [DirClient.receive, if_pos hst] at hgot
  refine ⟨r, hr, hst, ?_, ?_⟩
  · rw [hgot, List.map_take]
    exact List.take_prefix _ _
  · rw [hgot, heof]
    refine ⟨fun h => by rw [h, List.take_length], fun h => ?_⟩
    have hlen' := congrArg List.length h
    rw [List.length_map, List.length_map, List.length_take] at hlen'
    have := hp'.within
    omega

end

/-- The directory `/e` with the files `a` and `b`. -/
def pagedServer : Server Sandbox.Kernel Sandbox.Grid :=
  Sandbox.server []
    { files := [(lit "/", { dev := 1, ino := 2, mode := 0o040755 }),
        (lit "/e", { dev := 1, ino := 3, mode := 0o040755 }),
        (lit "/e/a", { dev := 1, ino := 4, mode := 0o100644 }),
        (lit "/e/b", { dev := 1, ino := 5, mode := 0o100644 })] } {}

/-- Its listing. -/
def pagedListing : List Dirent := [{ name := lit "a" }, { name := lit "b" }]

theorem paged_fixed : Fixed (Sandbox.treeWorld false) (lit "/e") pagedListing 0 pagedServer :=
  ⟨by rfl, by rfl⟩

theorem paged_usable : ∀ x ∈ pagedListing,
    Usable (Sandbox.treeWorld false) pagedServer.kernel (lit "/e") x := by
  simp only [pagedListing, List.forall_mem_cons, List.not_mem_nil, false_implies, implies_true,
    and_true]
  exact ⟨⟨by decide, _, by rfl⟩, ⟨by decide, _, by rfl⟩⟩


/-- One entry fits on the first page. -/
theorem readdir_paging_two :
    let c := DirClient.fetches (Sandbox.treeWorld false) (lit "/e") {} [(pagedServer, 130)]
    ∃ r, (readDir (Sandbox.treeWorld false) (lit "/e") c.cookie 4096 pagedServer).1 = .ok r ∧
      r.status = .ok ∧ (c.got ++ r.entries).map (·.name) <+: pagedListing.map (·.name) ∧
      (r.eof = true ↔ (c.got ++ r.entries).map (·.name) = pagedListing.map (·.name)) :=
  readdir_paging_exact _ _ pagedListing 0 (by decide) _
    (List.forall_mem_singleton.2 paged_fixed) pagedServer 4096 paged_fixed paged_usable

example : (DirClient.fetches (Sandbox.treeWorld false) (lit "/e") {}
    [(pagedServer, 130), (pagedServer, 130)]).got.map (·.name) = [lit "a", lit "b"] := by decide

/-! ## Progress -/

section
variable {L R : Type} {w : World L R} {path : CStr} {es : List Dirent} {g : UInt64}

/-- **When a page makes progress**: where an entry is left, `read_dir` replies with an error or with
an entry if and only if the count exceeds what it sets aside for the head of the reply. -/
theorem readdir_progress_iff (w : World L R) (path : CStr) (es : List Dirent) (s : Server L R)
    (cookie : UInt64) (count : Nat) (hes : w.readdir s.kernel path = .ok es)
    (hleft : es.drop (startOf s.rcookie cookie) ≠ []) :
    (∃ r, (readDir w path cookie count s).1 = .ok r ∧ (r.status ≠ .ok ∨ r.entries ≠ [])) ↔
      resokSize < count := by
  obtain ⟨r, hr, hpage, hok⟩ := readDir_fills (w := w) hes cookie count
  have hentries : r.status = .ok → (r.entries ≠ [] ↔ resokSize < count) := by
    intro hst
    obtain ⟨j, _, hentries, _, _, hpos, hzero⟩ := hpage hst
    rw [hentries, List.reverse_nil, List.nil_append, ne_eq, entriesFrom_eq_nil,
      List.take_eq_nil_iff, not_or]
    have hcap : resokSize < min count 4096 ↔ resokSize < count := by
      rw [resokSize]
      omega
    refine ⟨fun h => ?_, fun h => ⟨(hpos rfl (hcap.2 h) hleft).ne', hleft⟩⟩
    by_contra hle
    exact h.1 (hzero (not_lt.1 (mt hcap.1 hle)))
  constructor
  · rintro ⟨r', hr', hbad⟩
    obtain rfl : r = r' := by
      rw [hr] at hr'
      exact Except.ok.inj hr'
    by_cases hst : r.status = .ok
    · exact (hentries hst).1 (hbad.resolve_left (not_not.2 hst))
    · exact not_le.1 fun hle => hst (hok (.inr hle))
  · intro hcount
    refine ⟨r, hr, ?_⟩
    by_cases hst : r.status = .ok
    · exact .inr ((hentries hst).2 hcount)
    · exact .inl hst

theorem readdir_progress_one :
    ∃ r, (readDir (Sandbox.treeWorld false) (lit "/e") 0 105 pagedServer).1 = .ok r ∧
      (r.status ≠ .ok ∨ r.entries ≠ []) :=
  (readdir_progress_iff _ _ pagedListing _ 0 105 paged_fixed.listing (by decide)).2 (by decide)

/-- With the count 104 the reply is neither an error nor an entry nor the end. -/
theorem readdir_no_progress :
    (Sandbox.treeWorld false).readdir pagedServer.kernel (lit "/e") = .ok pagedListing ∧
      (readDir (Sandbox.treeWorld false) (lit "/e") 0 104 pagedServer).1 =
        .ok { status := .ok, entries := [], eof := false } :=
  ⟨by rfl, by rfl⟩

/-- A client that asks for more than the head of the reply comes to an error or to the end. -/
theorem readdir_terminates (hlen : es.length < 2 ^ 32) (calls : List (Server L R × Nat))
    (hcalls : ∀ x ∈ calls, Fixed w path es g x.1 ∧ resokSize < x.2)
    (hmany : es.length < calls.length) :
    ∃ pre x post, calls = pre ++ x :: post ∧
      ∃ r, (readDir w path (DirClient.fetches w path {} pre).cookie x.2 x.1).1 = .ok r ∧
        (r.status ≠ .ok ∨ r.eof = true) := by
  by_contra hno
  have hgrow : ∀ pre post, calls = pre ++ post →
      ∃ p, Reading g es (DirClient.fetches w path {} pre) p ∧ pre.length ≤ p := by
    intro pre
    induction pre using List.reverseRecOn with
    | nil => exact fun _ _ => ⟨0, .init, le_rfl⟩
    | append_singleton pre x ih =>
      intro post hsplit
      rw [List.append_assoc, List.singleton_append] at hsplit
      obtain ⟨p, hp, hle⟩ := ih _ hsplit
      obtain ⟨hfixed, hcount⟩ := hcalls x (by rw [hsplit]; simp)
      obtain ⟨r, hr, _, hnext⟩ := hp.receive hlen hfixed x.2
      have hgoes : r.status = .ok ∧ ¬ r.eof = true := by
        by_contra hbad
        exact hno ⟨pre, x, post, hsplit, r, hr, by tauto⟩
      obtain ⟨p', hp', heof, hmono, hprogress⟩ := hnext hgoes.1
      have hwithin := hp'.within
      have hmore : p' ≠ es.length := fun h => hgoes.2 (heof.2 h)
      have hstep := hprogress hcount (by omega)
      refine ⟨p', by rwa [DirClient.fetches_concat hr], ?_⟩
      rw [List.length_append, List.length_singleton]
      omega
  obtain ⟨p, hp, hle⟩ := hgrow calls [] (by simp)
  have := hp.within
  omega

end

end NfsRods
