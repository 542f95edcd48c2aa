import NfsRods.Lib.Moves
import NfsRods.Proof.ExportPath
import NfsRods.Proof.Paging

/-!
# A directory that changes while it is read

One client reads a directory page by page while requests of other clients remove, rename and create
in it. A removal shifts the entries after it towards the beginning; `change_readdir_cookie` makes
every cookie issued before it start over.

* `LocalStep`: the local step of REMOVE, RMDIR, RENAME, CREATE or MKDIR; `LocalStep.rcookie`: it
  moves the cookie on if it drops a name.
* `startOf_covered`: where a cookie that was issued some steps ago makes a page start.
* `Churned`: the runs; `readdir_no_skip`: when the client sees the end, it has received every name
  that has been there throughout.
-/

namespace NfsRods

open CStr
open Prog (Ends)

section
variable {L R : Type} {w : World L R} {s s' : Server L R}

/-! ## Cookies -/

/-- The server's cookie is generation `g`. -/
def cookieOf (g : Nat) : UInt64 := UInt64.ofNat g <<< 32

theorem cookieOf_eq_iff {g g' : Nat} : cookieOf g = cookieOf g' ↔ g % 2 ^ 32 = g' % 2 ^ 32 := by
  rw [cookieOf, cookieOf, ← UInt64.toNat_inj]
  simp only [UInt64.toNat_shiftLeft, UInt64.toNat_ofNat', UInt64.toNat_ofNat, Nat.shiftLeft_eq,
    Nat.reducePow, Nat.reduceMod]
  omega

/-- `change_readdir_cookie` makes the next generation. -/
theorem cookieOf_succ (g : Nat) : ((cookieOf g >>> 32) + 1) <<< 32 = cookieOf (g + 1) := by
  rw [cookieOf, cookieOf, ← UInt64.toNat_inj]
  simp only [UInt64.toNat_shiftLeft, UInt64.toNat_shiftRight, UInt64.toNat_add,
    UInt64.toNat_ofNat', UInt64.toNat_ofNat, Nat.shiftLeft_eq, Nat.shiftRight_eq_div_pow,
    Nat.reducePow, Nat.reduceMod]
  omega

theorem cookieOf_low (g : Nat) : cookieOf g &&& 0xffffffff = 0 := by
  have h := lower_cookie (UInt64.ofNat g) (c := 0) (by decide)
  simpa [cookieOf] using h

/-- The cookie of the position `p` carries into the generation from `2 ^ 32` on. -/
theorem cookie_carry (g : Nat) {p : Nat} (hlow : 2 ^ 32 ≤ p) (hp : p < 2 ^ 33) :
    UInt64.ofNat p ||| cookieOf g = UInt64.ofNat (p - 2 ^ 32) ||| cookieOf (g ||| 1) := by
  have hsplit : p = 2 ^ 32 ||| (p - 2 ^ 32) := by
    have h := Nat.two_pow_add_eq_or_of_lt (i := 32) (b := p - 2 ^ 32) (by omega) 1
    rw [Nat.mul_one] at h
    omega
  have hone : UInt64.ofNat (2 ^ 32) = (1 : UInt64) <<< 32 := by decide
  have hg : cookieOf (g ||| 1) = cookieOf g ||| (1 : UInt64) <<< 32 := by
    rw [cookieOf, UInt64.ofNat_or, UInt64.shiftLeft_or]
    rfl
  rw [hg, ← hone]
  conv_lhs => rw [hsplit, UInt64.ofNat_or]
  rw [UInt64.or_comm (UInt64.ofNat (2 ^ 32)), UInt64.or_assoc,
    UInt64.or_comm (UInt64.ofNat (2 ^ 32))]

theorem or_one (g : Nat) : g ||| 1 = g ∨ g ||| 1 = g + 1 := by
  have h := Nat.two_pow_add_eq_or_of_lt (i := 1) (b := 1) (by omega) (g / 2)
  rcases Nat.mod_two_eq_zero_or_one g with heven | hodd
  · have hg : g = 2 ^ 1 * (g / 2) := by omega
    exact .inr (by rw [hg, ← h])
  · have hg : g = 2 ^ 1 * (g / 2) ||| 1 := by omega
    exact .inl (by rw [hg, Nat.or_assoc, Nat.or_self])

/-- **Where a page starts**: for a cookie of the position `p` that is `d` generations old, at the
beginning or at a position that lies before `p` by two for each generation. -/
theorem startOf_covered {g d p : Nat} (hp : p < 2 ^ 33) (hd : d < 2 ^ 32) :
    startOf (cookieOf (g + d)) (UInt64.ofNat p ||| cookieOf g) = 0 ∨
      startOf (cookieOf (g + d)) (UInt64.ofNat p ||| cookieOf g) + 2 * d ≤ p := by
  obtain ⟨g', c, hc, hcookie, hmatch⟩ : ∃ g' c, c < 2 ^ 32 ∧
      UInt64.ofNat p ||| cookieOf g = UInt64.ofNat c ||| cookieOf g' ∧
      (cookieOf g' = cookieOf (g + d) → c + 2 * d ≤ p) := by
    rcases Nat.lt_or_ge p (2 ^ 32) with hlt | hge
    · refine ⟨g, p, hlt, rfl, fun h => ?_⟩
      have := cookieOf_eq_iff.1 h
      omega
    · refine ⟨g ||| 1, p - 2 ^ 32, by omega, cookie_carry g hge hp, fun h => ?_⟩
      have hmod := cookieOf_eq_iff.1 h
      have hor := or_one g
      omega
  rw [hcookie, startOf]
  have hupper : (UInt64.ofNat c ||| cookieOf g') &&& 0xffffffff00000000 = cookieOf g' :=
    upper_cookie _ hc
  have hlower : (UInt64.ofNat c ||| cookieOf g') &&& 0xffffffff = UInt64.ofNat c :=
    lower_cookie _ hc
  rw [hupper, hlower]
  split
  · exact .inl rfl
  · rename_i hkeep
    have hcn : (UInt64.ofNat c).toNat = c := by
      rw [UInt64.toNat_ofNat']
      exact Nat.mod_eq_of_lt (by omega)
    rw [hcn]
    by_cases hzero : UInt64.ofNat c ||| cookieOf g' = 0
    · refine .inl ?_
      rw [← hcn, (UInt64.or_eq_zero_iff.1 hzero).1]
      rfl
    · refine .inr (hmatch ?_)
      by_contra hne
      exact hkeep ⟨hzero, hne⟩

/-! ## The steps of other clients -/

/-- The local step of a request of another client that succeeds, and what it does to the directory
that is read: a removal drops a name from it (or from another one), a rename drops the source and
perhaps the target and inserts one, and a creation drops none. -/
inductive LocalStep (w : World L R) (s s' : Server L R) (ms : List (Move CStr)) : Prop
  | unlink (u : Unlink) (obj : CStr) (h : unlinkLocal w u .ok obj s = (.ok .ok, s'))
      (hms : drops ms ≤ 1)
  | rename (fromObj toObj : CStr) (rq : SvcReq)
      (h : renameMove w fromObj toObj rq s = (.ok .ok, s')) (hms : drops ms ≤ 2)
  | create (obj : CStr) (how : Createhow3) (unset : Sattr3) (fd : Int) (hfd : fd ≠ -1)
      (h : createOpen w .ok obj how unset s = (.ok fd, s')) (hms : drops ms = 0)
  | mkdir (obj : CStr) (mode : Nat) (res : Int) (hres : res ≠ -1)
      (h : sys w (.mkdir obj mode) s = (.ok res, s')) (hms : drops ms = 0)

theorem sys_rcookie {c : SysCall} {v : Int} (h : sys w c s = (.ok v, s')) :
    s'.rcookie = s.rcookie := by
  obtain ⟨s1, h1, k1, _⟩ := sys_ends (w := w) c s
  rw [h1] at h
  cases h
  rw [k1]

/-- RENAME's remote step leaves the server's cookie alone. -/
theorem renameRemote_rcookie {fromObj toObj : CStr} {rq : SvcReq} {v : Int}
    (h : renameRemote w fromObj toObj rq s = (.ok v, s')) : s'.rcookie = s.rcookie := by
  cases he : s.exports.path with
  | none =>
    obtain ⟨s1, h1, _⟩ := connectUser_crashes (w := w) he rq.uid
    rw [renameRemote, Prog.bind_error h1] at h
    cases h
  | some e =>
    by_cases hk : Known w rq.uid ∧ w.conf.zone.isSome
    · obtain ⟨s1, h1, a1, _⟩ := renameRemote_ends (w := w) he hk.1 hk.2 fromObj toObj
      rw [h1] at h
      cases h
      rw [a1]
    · obtain ⟨st, hst⟩ := renameRemote_stops (w := w) he hk fromObj toObj
      rw [h] at hst
      cases hst

/-- A step that drops a name moves the server's cookie on. -/
theorem LocalStep.rcookie {ms : List (Move CStr)} (h : LocalStep w s s' ms) :
    (s'.rcookie = s.rcookie ∧ drops ms = 0) ∨
      (s'.rcookie = ((s.rcookie >>> 32) + 1) <<< 32 ∧ drops ms ≤ 2) := by
  cases h with
  | unlink u obj h hms =>
    rw [unlinkLocal, if_pos rfl, changeReaddirCookie, Prog.modify_bind_run] at h
    obtain ⟨v, s1, h1, h2⟩ := Prog.bind_eq_ok h
    rw [Prog.get_bind_run, Prog.pure_run] at h2
    obtain rfl : s1 = s' := (Prod.ext_iff.1 h2).2
    have hcookie := sys_rcookie h1
    dsimp only at hcookie
    exact .inr ⟨hcookie, by omega⟩
  | rename fromObj toObj rq h hms =>
    rw [renameMove, changeReaddirCookie, Prog.modify_bind_run] at h
    obtain ⟨v, s1, h1, h2⟩ := Prog.bind_eq_ok h
    obtain ⟨v', s2, h3, h4⟩ := Prog.bind_eq_ok h2
    rw [Prog.get_bind_run, Prog.pure_run] at h4
    obtain rfl : s2 = s' := (Prod.ext_iff.1 h4).2
    have hcookie := (sys_rcookie h3).trans (renameRemote_rcookie h1)
    dsimp only at hcookie
    exact .inr ⟨hcookie, hms⟩
  | create obj how unset fd hfd h hms =>
    rw [createOpen, if_pos rfl] at h
    exact .inl ⟨sys_rcookie h, hms⟩
  | mkdir obj mode res hres h hms => exact .inl ⟨sys_rcookie h, hms⟩

/-! ## Runs -/

/-- The servers that a daemon can be at: its cookie starts at 0 and is moved on by requests. -/
inductive Booted (w : World L R) : Server L R → Prop
  | boot {s : Server L R} (h : s.rcookie = 0) : Booted w s
  | step {s s' : Server L R} {ms : List (Move CStr)} (h : Booted w s) (hs : LocalStep w s s' ms) :
      Booted w s'
  | other {s s' : Server L R} (h : Booted w s) (hs : s'.rcookie = s.rcookie) : Booted w s'

/-- A client reads the directory `path` in pages, while `n` steps of other clients change it and
anything else happens that leaves it alone; `kept` are the names that have been there throughout. -/
inductive Churned (w : World L R) (path : CStr) :
    Nat → Server L R → DirClient → (CStr → Prop) → Prop
  | start {s : Server L R} {ls : List Dirent} (hs : Booted w s)
      (hls : w.readdir s.kernel path = .ok ls) :
      Churned w path 0 s {} fun x => x ∈ ls.map (·.name)
  | page {n : Nat} {s : Server L R} {c : DirClient} {kept : CStr → Prop} (count : Nat)
      (h : Churned w path n s c kept) :
      Churned w path n (readDir w path c.cookie count s).2 (c.fetch w path s count) kept
  | step {n : Nat} {s s' : Server L R} {c : DirClient} {kept : CStr → Prop} {ls ls' : List Dirent}
      {ms : List (Move CStr)} (h : Churned w path n s c kept) (hs : LocalStep w s s' ms)
      (hls : w.readdir s.kernel path = .ok ls) (hls' : w.readdir s'.kernel path = .ok ls')
      (hms : Moved (·.name) ls ms ls') :
      Churned w path (n + 1) s' c fun x => kept x ∧ .drop x ∉ ms
  | other {n : Nat} {s s' : Server L R} {c : DirClient} {kept : CStr → Prop}
      (h : Churned w path n s c kept) (hs : s'.rcookie = s.rcookie)
      (hls : w.readdir s'.kernel path = w.readdir s.kernel path) : Churned w path n s' c kept

theorem Booted.rcookie (h : Booted w s) : ∃ g, s.rcookie = cookieOf g := by
  induction h with
  | boot h => exact ⟨0, h⟩
  | step h hs ih =>
    obtain ⟨g, hg⟩ := ih
    rcases hs.rcookie with ⟨heq, _⟩ | ⟨heq, _⟩
    · exact ⟨g, heq.trans hg⟩
    · exact ⟨g + 1, by rw [heq, hg, cookieOf_succ]⟩
  | other h hs ih =>
    obtain ⟨g, hg⟩ := ih
    exact ⟨g, hs.trans hg⟩

/-- Where the client stands: it starts over with its next page, or the names that have been there
throughout and are now among the first of the listing, but for two positions for each step since its
cookie was issued, are received. -/
def Abreast (ls : List Dirent) (g n : Nat) (c : DirClient) (kept : CStr → Prop) : Prop :=
  c.cookie = 0 ∨ ∃ p g0 d, c.cookie = UInt64.ofNat p ||| cookieOf g0 ∧ p < 2 ^ 33 ∧ g = g0 + d ∧
    d ≤ n ∧ ∀ q, q + 2 * d ≤ p → ∀ x, kept x → x ∈ (ls.take q).map (·.name) →
      x ∈ c.got.map (·.name)

/-- What holds between a client and a listing of which it has to receive the names `kept`. -/
structure Follows (w : World L R) (path : CStr) (n : Nat) (s : Server L R) (c : DirClient)
    (kept : CStr → Prop) (ls : List Dirent) (g : Nat) : Prop where
  listing : w.readdir s.kernel path = .ok ls
  rcookie : s.rcookie = cookieOf g
  there : ∀ x, kept x → x ∈ ls.map (·.name)
  abreast : Abreast ls g n c kept
  eof : c.eof = true → ∀ x, kept x → x ∈ c.got.map (·.name)

variable {path : CStr} {n g : Nat} {c : DirClient} {kept : CStr → Prop} {ls ls' : List Dirent}

/-- Everything before the start of the next page is received. -/
theorem Follows.before (h : Follows w path n s c kept ls g) (hn : n < 2 ^ 32) :
    ∀ x, kept x → x ∈ (ls.take (startOf s.rcookie c.cookie)).map (·.name) →
      x ∈ c.got.map (·.name) := by
  intro x hx hmem
  rcases h.abreast with hzero | ⟨p, g0, d, hcookie, hp, hg, hd, hgot⟩
  · rw [hzero, startOf, if_neg (fun hne => hne.1 rfl)] at hmem
    cases hmem
  · rw [hcookie, h.rcookie, hg] at hmem
    rcases startOf_covered (g := g0) (d := d) hp (by omega) with hstart | hstart
    · rw [hstart] at hmem
      cases hmem
    · exact hgot _ hstart x hx hmem

theorem startOf_lt (rcookie cookie : UInt64) : startOf rcookie cookie < 2 ^ 32 := by
  unfold startOf
  split
  · decide
  · rw [UInt64.toNat_and]
    exact Nat.and_lt_two_pow _ (by decide)

/-- A page that is not an error. -/
theorem Follows.receive (h : Follows w path n s c kept ls g) (hn : n < 2 ^ 32) {count : Nat}
    {r : Readdir3res} (hst : r.status = .ok)
    (hp : Page w s.kernel path s.rcookie count ls (startOf s.rcookie c.cookie) r) :
    Abreast ls g n (c.receive r) kept ∧
      ((c.receive r).eof = true → ∀ x, kept x → x ∈ (c.receive r).got.map (·.name)) := by
  have hbefore := h.before hn
  have hq := startOf_lt s.rcookie c.cookie
  rw [h.rcookie] at hp hbefore hq
  generalize startOf (cookieOf g) c.cookie = q at hp hbefore hq
  obtain ⟨j, hj, hmax, hgot, heof, hcookie, _⟩ := hp.receive hst c
  -- what lies before the end of the page was received before or is on the page
  have hreach : ∀ x, kept x → x ∈ (ls.take (q + j)).map (·.name) →
      x ∈ (c.receive r).got.map (·.name) := by
    intro x hx hmem
    rw [hgot, List.mem_append]
    rw [List.take_add, List.map_append, List.mem_append] at hmem
    exact hmem.imp_left (hbefore x hx)
  refine ⟨?_, fun hend x hx => hreach x hx ?_⟩
  · unfold Abreast
    rw [hcookie]
    by_cases hzero : j = 0
    · rw [if_pos hzero]
      refine h.abreast.imp_right ?_
      rintro ⟨p, g0, d, hc, hp, hg, hd, hold⟩
      refine ⟨p, g0, d, hc, hp, hg, hd, fun q' hq' x hx hmem => ?_⟩
      rw [hgot]
      exact List.mem_append_left _ (hold q' hq' x hx hmem)
    · rw [if_neg hzero]
      rw [maxEntries] at hmax
      refine .inr ⟨q + j, g, 0, rfl, by omega, rfl, Nat.zero_le _, fun q' hq' x hx hmem => ?_⟩
      refine hreach x hx ?_
      obtain ⟨y, hy, rfl⟩ := List.mem_map.1 hmem
      exact List.mem_map_of_mem (List.take_subset_take_left _ (by omega) hy)
  · have hall := heof.1 hend
    rw [List.length_drop] at hall hj
    rw [List.take_of_length_le (by omega)]
    exact h.there x hx

/-- A page. -/
theorem Follows.page (h : Follows w path n s c kept ls g) (hn : n < 2 ^ 32) (count : Nat) :
    Follows w path n (readDir w path c.cookie count s).2 (c.fetch w path s count) kept ls g := by
  have ht := readDir_tacit (w := w) path c.cookie count s
  obtain ⟨r, hr, hpage, _⟩ := readDir_fills (w := w) h.listing c.cookie count
  have hk : (readDir w path c.cookie count s).2.kernel = s.kernel := ht.kernel
  have hc : (readDir w path c.cookie count s).2.rcookie = s.rcookie := by rw [ht]
  rw [DirClient.fetch, hr]
  dsimp only
  by_cases hst : r.status = .ok
  · obtain ⟨habreast, heof⟩ := h.receive hn hst (hpage hst)
    exact ⟨by rw [hk, h.listing], hc.trans h.rcookie, h.there, habreast, heof⟩
  · rw [DirClient.receive_error hst]
    exact ⟨by rw [hk, h.listing], hc.trans h.rcookie, h.there, h.abreast, h.eof⟩

/-- A step of another client. -/
theorem Follows.step (h : Follows w path n s c kept ls g) {ms : List (Move CStr)}
    (hs : LocalStep w s s' ms) (hls' : w.readdir s'.kernel path = .ok ls')
    (hms : Moved (·.name) ls ms ls') :
    ∃ g', Follows w path (n + 1) s' c (fun x => kept x ∧ .drop x ∉ ms) ls' g' := by
  have hthere : ∀ x, kept x ∧ .drop x ∉ ms → x ∈ ls'.map (·.name) :=
    fun x hx => hms.mem (h.there x hx.1) hx.2
  have heof : c.eof = true → ∀ x, kept x ∧ .drop x ∉ ms → x ∈ c.got.map (·.name) :=
    fun hend x hx => h.eof hend x hx.1
  have hold : ∀ q x, kept x ∧ .drop x ∉ ms → x ∈ (ls'.take q).map (·.name) →
      x ∈ (ls.take (q + drops ms)).map (·.name) :=
    fun q x hx hmem => hms.mem_take hx.2 (h.there x hx.1) hmem
  rcases hs.rcookie with ⟨heq, hdrops⟩ | ⟨heq, hdrops⟩
  · refine ⟨g, hls', heq.trans h.rcookie, hthere, h.abreast.imp_right ?_, heof⟩
    rintro ⟨p, g0, d, hc, hp, hg, hd, hgot⟩
    refine ⟨p, g0, d, hc, hp, hg, by omega, fun q hq x hx hmem => hgot q hq x hx.1 ?_⟩
    have := hold q x hx hmem
    rwa [hdrops] at this
  · refine ⟨g + 1, hls', by rw [heq, h.rcookie, cookieOf_succ], hthere, ?_, heof⟩
    refine h.abreast.imp_right ?_
    rintro ⟨p, g0, d, hc, hp, hg, hd, hgot⟩
    refine ⟨p, g0, d + 1, hc, hp, by omega, by omega, fun q hq x hx hmem => ?_⟩
    exact hgot (q + drops ms) (by omega) x hx.1 (hold q x hx hmem)

theorem Churned.follows (h : Churned w path n s c kept) (hn : n < 2 ^ 32) :
    ∃ ls g, Follows w path n s c kept ls g := by
  induction h with
  | start hs hls =>
    obtain ⟨g, hg⟩ := hs.rcookie
    exact ⟨_, g, hls, hg, fun x hx => hx, .inl rfl, fun hend => by cases hend⟩
  | page count h ih =>
    obtain ⟨ls, g, hf⟩ := ih hn
    exact ⟨ls, g, hf.page hn count⟩
  | step h hs hls hls' hms ih =>
    obtain ⟨ls, g, hf⟩ := ih (by omega)
    have heq := hf.listing
    rw [hls] at heq
    cases heq
    obtain ⟨g', hf'⟩ := hf.step hs hls' hms
    exact ⟨_, g', hf'⟩
  | other h hs hls ih =>
    obtain ⟨ls, g, hf⟩ := ih hn
    exact ⟨ls, g, hls.trans hf.listing, hs.trans hf.rcookie, hf.there, hf.abreast, hf.eof⟩

/-- **No name is skipped**: whatever other clients remove, rename and create between the pages, when
the client sees the end it has received every name that has been there throughout; the server's
cookie has nothing in its lower half. -/
theorem readdir_no_skip (w : World L R) (path : CStr) (n : Nat) (s : Server L R) (c : DirClient)
    (kept : CStr → Prop) (h : Churned w path n s c kept) (hn : n < 2 ^ 32) :
    (c.eof = true → ∀ x, kept x → x ∈ c.got.map (·.name)) ∧ s.rcookie &&& 0xffffffff = 0 := by
  obtain ⟨ls, g, hf⟩ := h.follows hn
  exact ⟨hf.eof, by rw [hf.rcookie, cookieOf_low]⟩

end

/-- The server after the first page of `/e`, and after `a` was removed then. -/
def pagedOnce : Server Sandbox.Kernel Sandbox.Grid :=
  (readDir (Sandbox.treeWorld false) (lit "/e") 0 130 pagedServer).2

def pagedRemoved : Server Sandbox.Kernel Sandbox.Grid :=
  (unlinkLocal (Sandbox.treeWorld false) unlinkRemove .ok (lit "/e/a") pagedOnce).2

theorem paged_removed :
    LocalStep (Sandbox.treeWorld false) pagedOnce pagedRemoved [.drop (lit "a")] :=
  .unlink unlinkRemove (lit "/e/a") (by rfl) (by decide)

theorem paged_drops :
    Moved Dirent.name pagedListing [.drop (lit "a")] [{ name := lit "b" }] :=
  .drop [] (Dirent.mk (lit "a") false) [Dirent.mk (lit "b") false] rfl (.nil _)

/-- The first page has `a`, which is removed; the client starts over and receives `b`. -/
theorem readdir_no_skip_removed :
    let c := DirClient.fetch (Sandbox.treeWorld false) (lit "/e") {} pagedServer 130
    lit "b" ∈ (c.fetch (Sandbox.treeWorld false) (lit "/e") pagedRemoved 4096).got.map (·.name) :=
  (readdir_no_skip (Sandbox.treeWorld false) (lit "/e") 1 _ _ _
    (.page 4096 (.step (.page 130 (.start (.boot rfl) paged_fixed.listing)) paged_removed (by rfl)
      (by rfl) paged_drops)) (by decide)).1 (by rfl) (lit "b") ⟨by decide, by simp [lit]⟩

end NfsRods
