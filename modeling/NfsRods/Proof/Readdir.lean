import NfsRods.Proof.Page
import NfsRods.Proof.Plot
import NfsRods.Proof.Questions
import NfsRods.Proof.Refusal

/-!
# What READDIR returns

READDIR rebuilds the mirror of the directory from what iRODS lists, ignoring how the listing ended,
and then returns a page of the mirror, if the daemon survives the questions for modes.

* `readDir_page`: a page of a directory whose entries can be stat'ed.
* `Listed`: the collection is opened and listed to its end.
* `AnsweredTo`: the questions for the modes of what is listed are answered.
* `canReturn_iff`: READDIR can return what is in the mirror it reads; `Listed.faithful`: that is the
  collection, if it was listed to its end. `Faithful.listed`: a failure is never reported.
* `readdir_faithful_iff`: what READDIR returns is the collection, and a failure is reported with the
  mirror left alone, exactly when there was no failure; and it replies as well exactly when the
  questions are answered.
-/

namespace NfsRods

open CStr
open Sandbox (plotWorld)
open Prog (Ends Frame)
open Dirs (IsDir)

section
variable {L R : Type} {w : World L R}

/-! ## Pages -/

/-- An entry of the directory `path` that READDIR can return. -/
def Returnable (w : World L R) (k : L) (path : CStr) (x : Dirent) : Prop :=
  path.length + x.name.length + 1 < maxPathLen ∧ ∃ b, w.lstat k (path ++ root ++ x.name) = .ok b

/-- **A page**: the names from the cookie on, at least one if there is one and room for any. -/
theorem readDir_page {path : CStr} (hpath : path ≠ root) {es : List Dirent} {s : Server L R}
    (hes : w.readdir s.kernel path = .ok es) (hall : ∀ x ∈ es, Returnable w s.kernel path x)
    (cookie : UInt64) (count : Nat) :
    ∃ r, (readDir w path cookie count s).1 = .ok r ∧ r.status = .ok ∧
      ∃ j, r.entries.map (·.name) = ((es.drop (startOf s.rcookie cookie)).take j).map (·.name) ∧
        (resokSize < count → es.drop (startOf s.rcookie cookie) ≠ [] → 0 < j) := by
  have huse : ∀ x ∈ es, Usable w s.kernel path x := by
    intro x hx
    obtain ⟨hlen, hstat⟩ := hall x hx
    exact ⟨hlen, by rwa [scratchOf, if_neg hpath]⟩
  obtain ⟨r, hr, hfills, hok⟩ := readDir_fills hes cookie count
  have hst := hok (.inl huse)
  obtain ⟨j, -, hentries, -, -, hsome, -⟩ := hfills hst
  refine ⟨r, hr, hst, j, ?_, fun hcount => hsome rfl ?_⟩
  · rw [hentries, List.reverse_nil, List.nil_append, entriesFrom_names]
  · have hroom : resokSize < 4096 := by decide
    omega

/-! ## The directory after it was rebuilt -/

/-- The name is in the collection. -/
def InColl (w : World L R) (r : R) (c n : CStr) : Prop :=
  Component n ∧ ∃ o, w.store r (c ++ root ++ n) = some o

variable {m : CStr} {own : L → Prop} {view : L → MirrorTree}
  {left : R → Comm → Int → List CollEnt × Int}

/-- What iRODS lists is in the collection. -/
theorem Collections.listed_sound (hc : Collections w left) {comm : Comm} {c n : CStr} {r : R}
    (h : n ∈ (listed w left comm c r).1.filterMap (·.entry c)) : InColl w r c n := by
  obtain ⟨x, hx, hn⟩ := List.mem_filterMap.1 h
  cases hc.sound comm c hx with
  | data hcomp hst =>
    obtain rfl := Option.some.inj hn
    exact ⟨hcomp, _, hst⟩
  | @coll n' hcomp hst =>
    have hlen : ¬ (c ++ root ++ n').length = c.length := by
      simp only [List.length_append, root, List.length_singleton]
      omega
    rw [CollEnt.entry, if_neg hlen, basename_child c hcomp] at hn
    obtain rfl := Option.some.inj hn
    exact ⟨hcomp, _, hst⟩
  | self =>
    rw [CollEnt.entry, if_pos rfl] at hn
    cases hn

/-- The entries of a mirror that is filled with the names `ns`. -/
theorem Mirror.returns (hm : Mirror w m own view) (hmk : Makeable m) {k : L} {ns : List CStr}
    (ho : own k) (hf : Filled (view k) ns) (hns : ∀ n ∈ ns, Named m n) :
    ∃ es, w.readdir k m = .ok es ∧ es.length ≤ ns.length + 2 ∧ (∀ x ∈ es, Returnable w k m x) ∧
      ∀ n, Ordinary n → ((∃ x ∈ es, x.name = n) ↔ n ∈ ns) := by
  obtain ⟨es, hes, hnodup, hall, honly⟩ := hm.lists ho hf.1
  have hwithin : within m [] = m := by simp [within]
  rw [hwithin] at hes
  have hmem : ∀ x ∈ es, Ordinary x.name → x.name ∈ ns := by
    intro x hx hord
    obtain ⟨node, hnode, _⟩ := honly x hx hord
    refine (hf.2 x.name).1 ?_
    rw [List.nil_append] at hnode
    simp [hnode]
  have hlen : es.length ≤ ns.length + 2 := by
    have hsub : es.map (·.name) ⊆ ns ++ [lit ".", lit ".."] := by
      intro n hn
      obtain ⟨x, hx, rfl⟩ := List.mem_map.1 hn
      by_cases hord : Ordinary x.name
      · exact List.mem_append_left _ (hmem x hx hord)
      · exact List.mem_append_right _ (by simpa using not_not.1 hord)
    simpa using (List.subperm_of_subset hnodup hsub).length_le
  refine ⟨es, hes, hlen, fun x hx => ?_, fun n hord => ⟨?_, fun hn => ?_⟩⟩
  · rw [Returnable, within_single]
    by_cases hord : Ordinary x.name
    · obtain ⟨node, hnode, _⟩ := honly x hx hord
      obtain ⟨b, hb, _⟩ := hm.lstat ho hnode
      exact ⟨(hns _ (hmem x hx hord)).path, b, hb⟩
    · obtain ⟨b, hb⟩ := hm.dots ho hf.1 hord
      refine ⟨?_, b, hb⟩
      have hmlen := hmk.length
      have hxlen : x.name.length ≤ 2 := by
        rcases not_not.1 hord with h | h <;> rw [h] <;> decide
      have : 258 < maxPathLen := by decide
      omega
  · rintro ⟨x, hx, rfl⟩
    exact hmem x hx hord
  · obtain ⟨x, hx, hxn⟩ := hall n ((hf.2 n).2 hn)
    exact ⟨x, hx, hxn⟩

/-- What iRODS lists to a caller of the collection `c`. -/
def listedTo (w : World L R) (left : R → Comm → Int → List CollEnt × Int) (e : CStr) (uid : UInt32)
    (c : CStr)
    (r : R) : List CollEnt × Int :=
  listed w left (session w e uid r).1 c (session w e uid r).2

theorem Mirrorable.session {r : R} {c : CStr} (h : Mirrorable w m r c) (e : CStr) (uid : UInt32) :
    Mirrorable w m (session w e uid r).2 c := by
  unfold Mirrorable at h ⊢
  rwa [session_store]

/-! ## READDIR in two parts -/

/-- READDIR after `PREP` and before it rebuilds the mirror: the collection, its mirror and the
connection. -/
def connectDir (w : World L R) (path : CStr) (rq : SvcReq) : M L R (CStr × CStr × Comm) := do
  let rodspath ← rodsName w path rq.uid
  debug w "READDIR IRODS path %s"
  let _ ← getRealPathNFS w path rq.uid
  debug w "READDIR new path %s"
  let path ← getRealPathNFS w path rq.uid
  let comm ← connectUser w rq.uid
  pure (rodspath, path, comm)

/-- The rest of READDIR. -/
def rebuildDir (w : World L R) (cookie : UInt64) (count : Nat) (rq : SvcReq) (rodspath path : CStr)
    (comm : Comm) : M L R Readdir3res := do
  let _ ← listCollection w rodspath path comm
  let result ← readDir w path cookie count
  let dirAttributes ← getPostStat w (some path) rq
  rcDisconnect w comm
  debug w "END READDIR"
  pure { result with dirAttributes }

theorem readdirBody_connect (d : CStr) (cookie : UInt64) (count : Nat) (rq : SvcReq) :
    readdirBody w d cookie count rq = connectDir w d rq >>= fun o =>
      rebuildDir w cookie count rq o.1 o.2.1 o.2.2 := by
  rw [readdirBody, connectDir]
  simp only [Prog.bind_assoc]
  rfl

/-- What READDIR knows when it rebuilds the mirror. -/
theorem connectDir_ends {e d : CStr} {rq : SvcReq} {s : Server L R} (h : s.exports.path = some e)
    (hcon : Connects w rq) :
    Ends (fun s s' => Aside s s' ∧ s'.rods = (session w e rq.uid s.rods).2) (connectDir w d rq) s
      (.ok (targetName w e rq.uid d, realPath w e rq.uid d, (session w e rq.uid s.rods).1)) := by
  obtain ⟨s1, h1, t1⟩ := rodsName_ends (w := w) h d rq.uid
  rw [rodsPath_targetName hcon.1 hcon.2] at h1
  obtain ⟨s2, h2, t2⟩ := debug_tacit (w := w) "READDIR IRODS path %s" s1
  have e2 : s2.exports.path = some e := by rw [t2.exports, t1.exports, h]
  obtain ⟨s3, h3, t3⟩ := getRealPathNFS_ends (w := w) e2 d rq.uid
  obtain ⟨s4, h4, t4⟩ := debug_tacit (w := w) "READDIR new path %s" s3
  have e4 : s4.exports.path = some e := by rw [t4.exports, t3.exports, e2]
  obtain ⟨s5, h5, t5⟩ := getRealPathNFS_ends (w := w) e4 d rq.uid
  have t : Tacit s s5 := trans_of Tacit (trans_of Tacit t1 t2)
    (trans_of Tacit t3 (trans_of Tacit t4 t5))
  obtain ⟨s6, h6, a6, hr6⟩ := connectUser_ends (w := w) (s := s5) (by rw [t.exports, h]) hcon.1
  rw [t.rods] at h6 hr6
  refine ⟨s6, ?_, trans_of Aside t.aside a6, hr6⟩
  rw [connectDir, Prog.bind_ok h1, Prog.bind_ok h2, Prog.bind_ok h3, Prog.bind_ok h4,
    Prog.bind_ok h5, Prog.bind_ok h6]
  rfl

/-- Without a user name, or a zone, the daemon does not get that far. -/
theorem connectDir_stops {e d : CStr} {rq : SvcReq} {s : Server L R} (h : s.exports.path = some e)
    (hcon : ¬ Connects w rq) : ∃ st, (connectDir w d rq s).1 = .error st := by
  obtain ⟨s1, h1, t1⟩ := rodsName_ends (w := w) h d rq.uid
  by_cases hz : w.conf.zone.isSome
  · have hk : ¬ Known w rq.uid := fun hk => hcon ⟨hk, hz⟩
    cases hname : rodsPath w e rq.uid (irodsPath w e rq.uid d) with
    | error st =>
      rw [hname] at h1
      exact ⟨st, Prog.fst_bind_error (by rw [h1])⟩
    | ok name =>
      rw [hname] at h1
      obtain ⟨s2, h2, t2⟩ := debug_tacit (w := w) "READDIR IRODS path %s" s1
      have e2 : s2.exports.path = some e := by rw [t2.exports, t1.exports, h]
      obtain ⟨s3, h3, t3⟩ := getRealPathNFS_ends (w := w) e2 d rq.uid
      obtain ⟨s4, h4, t4⟩ := debug_tacit (w := w) "READDIR new path %s" s3
      have e4 : s4.exports.path = some e := by rw [t4.exports, t3.exports, e2]
      obtain ⟨s5, h5, t5⟩ := getRealPathNFS_ends (w := w) e4 d rq.uid
      refine ⟨.badFree, ?_⟩
      rw [connectDir, Prog.bind_ok h1, Prog.bind_ok h2, Prog.bind_ok h3, Prog.bind_ok h4,
        Prog.bind_ok h5]
      exact Prog.fst_bind_error (connectUser_stops (by rw [t5.exports, e4]) hk)
  · rw [rodsPath_zone_none hz] at h1
    exact ⟨.nullZone, Prog.fst_bind_error (by rw [h1])⟩

theorem readdirBody_stops {e d : CStr} {rq : SvcReq} {s : Server L R} (h : s.exports.path = some e)
    (hcon : ¬ Connects w rq) (cookie : UInt64) (count : Nat) :
    ∃ st, (readdirBody w d cookie count rq s).1 = .error st := by
  obtain ⟨st, hst⟩ := connectDir_stops (d := d) h hcon
  rw [readdirBody_connect]
  exact ⟨st, Prog.fst_bind_error hst⟩

/-- A READDIR that replies has a connection, and has come to where it rebuilds the mirror. -/
theorem readdirBody_replied {e d : CStr} {cookie : UInt64} {count : Nat} {rq : SvcReq}
    {s s' : Server L R} {r : Readdir3res} (h : s.exports.path = some e)
    (hr : readdirBody w d cookie count rq s = (.ok r, s')) :
    Connects w rq ∧ ∃ s1, Aside s s1 ∧ s1.rods = (session w e rq.uid s.rods).2 ∧
      rebuildDir w cookie count rq (targetName w e rq.uid d) (realPath w e rq.uid d)
        (session w e rq.uid s.rods).1 s1 = (.ok r, s') := by
  have hcon : Connects w rq := by
    by_contra hcon
    obtain ⟨st, hst⟩ := readdirBody_stops (d := d) h hcon cookie count
    rw [hr] at hst
    cases hst
  obtain ⟨s1, h1, a1, hr1⟩ := connectDir_ends (d := d) h hcon
  rw [readdirBody_connect, Prog.bind_ok h1] at hr
  exact ⟨hcon, s1, a1, hr1, hr⟩

/-- iRODS answers the questions for the modes of what it lists to a caller. -/
def AnsweredTo (w : World L R) (left : R → Comm → Int → List CollEnt × Int) (e : CStr)
    (uid : UInt32) (c : CStr) (r : R) : Prop :=
  CollAnswered w left (session w e uid r).1 c (session w e uid r).2

/-- The run of READDIR after `PREP` when the questions are answered: the mirror it reads, whatever
the page. -/
theorem readdirBody_ends {e d : CStr} {rq : SvcReq} {s : Server L R}
    (hm : Mirror w (realPath w e rq.uid d) own view) (hmk : Makeable (realPath w e rq.uid d))
    (hc : Collections w left) (h : s.exports.path = some e) (hcon : Connects w rq)
    (ho : own s.kernel)
    (hall : Mirrorable w (realPath w e rq.uid d) s.rods (targetName w e rq.uid d))
    (ha : AnsweredTo w left e rq.uid (targetName w e rq.uid d) s.rods) :
    ∃ es : List Dirent,
      es.length ≤ (listedTo w left e rq.uid (targetName w e rq.uid d) s.rods).1.length + 2 ∧
      (∀ n, Ordinary n → ((∃ x ∈ es, x.name = n) ↔
        n ∈ (listedTo w left e rq.uid (targetName w e rq.uid d) s.rods).1.filterMap
          (·.entry (targetName w e rq.uid d)))) ∧
      ∀ cookie count, ∃ r s', readdirBody w d cookie count rq s = (.ok r, s') ∧ r.status = .ok ∧
        ∃ j, r.entries.map (·.name) = ((es.drop (startOf s.rcookie cookie)).take j).map (·.name) ∧
          (resokSize < count → es.drop (startOf s.rcookie cookie) ≠ [] → 0 < j) := by
  obtain ⟨s1, h1, a1, hr1⟩ := connectDir_ends (d := d) h hcon
  have ho1 : own s1.kernel := by rwa [a1.kernel]
  have hall1 : Mirrorable w (realPath w e rq.uid d) s1.rods (targetName w e rq.uid d) := by
    rw [hr1]
    exact hall.session e rq.uid
  rw [AnsweredTo, ← hr1] at ha
  obtain ⟨v, s2, h2⟩ := (listCollection_returns_iff hm hc hmk ho1 _).2 ha
  obtain ⟨o2, ho2, hf2⟩ := (listCollection_fills hm hc hmk hall1 ho1).ok h2
  rw [hr1] at hf2
  have hns : ∀ n ∈ (listedTo w left e rq.uid (targetName w e rq.uid d) s.rods).1.filterMap
      (·.entry (targetName w e rq.uid d)), Named (realPath w e rq.uid d) n := by
    intro n hn
    obtain ⟨hcomp, o, ho⟩ := hc.listed_sound hn
    exact (hall.session e rq.uid n o hcomp ho).1
  obtain ⟨es, hes, hlen, hret, hnames⟩ := hm.returns hmk ho2 hf2 hns
  have hcookie : s2.rcookie = s.rcookie := by rw [o2, a1]
  have hroot : realPath w e rq.uid d ≠ root := fun hroot => hmk.slash (by rw [hroot]; rfl)
  refine ⟨es, hlen.trans (Nat.add_le_add_right (List.length_filterMap_le _ _) 2), hnames,
    fun cookie count => ?_⟩
  obtain ⟨r, hr3, hst, hpage⟩ := readDir_page hroot hes hret cookie count
  obtain ⟨s3, h3⟩ : ∃ s3, readDir w (realPath w e rq.uid d) cookie count s2 = (.ok r, s3) :=
    ⟨_, Prod.ext hr3 rfl⟩
  rw [hcookie] at hpage
  obtain ⟨post, s4, h4⟩ := getPostStat_returns (w := w) (some (realPath w e rq.uid d)) rq s3
  obtain ⟨s5, h5, _⟩ := rcDisconnect_ends (w := w) (session w e rq.uid s.rods).1 s4
  obtain ⟨s6, h6, _⟩ := debug_tacit (w := w) "END READDIR" s5
  refine ⟨{ r with dirAttributes := post }, s6, ?_, hst, hpage⟩
  rw [readdirBody_connect, Prog.bind_ok h1, rebuildDir, Prog.bind_ok h2, Prog.bind_ok h3,
    Prog.bind_ok h4, Prog.bind_ok h5, Prog.bind_ok h6]
  rfl

/-- READDIR replies only when the questions are answered. -/
theorem readdirBody_answered {e d : CStr} {cookie : UInt64} {count : Nat} {rq : SvcReq}
    {s s' : Server L R} {r : Readdir3res} (hm : Mirror w (realPath w e rq.uid d) own view)
    (hmk : Makeable (realPath w e rq.uid d)) (hc : Collections w left)
    (h : s.exports.path = some e) (ho : own s.kernel)
    (hr : readdirBody w d cookie count rq s = (.ok r, s')) :
    AnsweredTo w left e rq.uid (targetName w e rq.uid d) s.rods := by
  obtain ⟨_, s1, a1, hr1, hr⟩ := readdirBody_replied h hr
  obtain ⟨v, s2, h2, _⟩ := Prog.bind_eq_ok hr
  have hret := (listCollection_returns_iff hm hc hmk (by rwa [a1.kernel]) _).1 ⟨v, s2, h2⟩
  rwa [hr1] at hret

/-! ## READDIR and the collection -/

/-- The collection is opened and listed to its end, over a connection that is logged in. -/
structure Listed (w : World L R) (left : R → Comm → Int → List CollEnt × Int) (rq : SvcReq)
    (e c : CStr) (r : R) : Prop where
  caller : Connects w rq
  login : ∃ conn, (connect w (clientOf w e rq.uid) r).1 = some conn ∧
    (w.rods (.clientLogin conn) (connect w (clientOf w e rq.uid) r).2).1.status = 0
  opened : 0 ≤
    (w.rods (.rcOpenCollection (session w e rq.uid r).1 c) (session w e rq.uid r).2).1.status
  ended : (listedTo w left e rq.uid c r).2 = catNoRowsFound

/-- Some page of the directory has the name. -/
def CanReturn (w : World L R) (dir : NfsFh3) (count : Nat) (rq : SvcReq) (s : Server L R)
    (n : CStr) :
    Prop :=
  ∃ cookie r, (nfsproc3Readdir w dir cookie count rq s).1 = .ok r ∧ r.status = .ok ∧
    n ∈ r.entries.map (·.name)

/-- What READDIR is for: a reply `NFS3_OK` is about the names of the collection `c`; when the
collection could not be `listed`, the reply is an error and the mirror is as it was in `s1`. -/
structure Faithful (w : World L R) (view : L → MirrorTree) (dir : NfsFh3) (count : Nat)
    (rq : SvcReq) (s s1 : Server L R) (c : CStr) (listed : Prop) : Prop where
  names : (∃ cookie r, (nfsproc3Readdir w dir cookie count rq s).1 = .ok r ∧ r.status = .ok) →
    ∀ n, Ordinary n → (CanReturn w dir count rq s n ↔ InColl w s.rods c n)
  failure : ¬ listed → ∀ cookie, ∃ r s', nfsproc3Readdir w dir cookie count rq s = (.ok r, s') ∧
    r.status ≠ .ok ∧ view s'.kernel = view s1.kernel

theorem inColl_session {e c n : CStr} {uid : UInt32} {r : R} :
    InColl w (session w e uid r).2 c n ↔ InColl w r c n := by
  rw [InColl, InColl, session_store]

/-- A listing that has come to its end is complete. -/
theorem Listed.names (hc : Collections w left) {rq : SvcReq} {e c n : CStr} {r : R}
    (h : Listed w left rq e c r) :
    n ∈ (listedTo w left e rq.uid c r).1.filterMap (·.entry c) ↔ InColl w r c n := by
  constructor
  · exact fun hn => inColl_session.1 (hc.listed_sound hn)
  · intro hn
    obtain ⟨hcomp, o, ho⟩ := inColl_session.2 hn
    exact List.mem_filterMap.2 (hc.complete _ c h.opened h.ended hcomp ho)

section
variable {dir : NfsFh3} {count : Nat} {rq : SvcReq} {e d : CStr} {s s1 : Server L R}
  (hprep : prep w dir rq s = (.ok (.ok d), s1)) (he : s1.exports.path = some e)
  (hm : Mirror w (realPath w e rq.uid d) own view) (hc : Collections w left) (ho : own s1.kernel)
  (hmk : Makeable (realPath w e rq.uid d))
include hprep he hm hc ho hmk

theorem answeredTo_of_replied {cookie : UInt64} {r : Readdir3res}
    (hr : (nfsproc3Readdir w dir cookie count rq s).1 = .ok r) :
    AnsweredTo w left e rq.uid (targetName w e rq.uid d) s1.rods := by
  have hrun : nfsproc3Readdir w dir cookie count rq s = readdirBody w d cookie count rq s1 :=
    Prog.bind_ok hprep
  rw [hrun] at hr
  exact readdirBody_answered hm hmk hc he ho (Prod.ext hr rfl)

variable (hall : Mirrorable w (realPath w e rq.uid d) s1.rods (targetName w e rq.uid d))
include hall

/-- READDIR replies to every cookie when the questions are answered. -/
theorem replied_of_answeredTo (hcon : Connects w rq)
    (ha : AnsweredTo w left e rq.uid (targetName w e rq.uid d) s1.rods) (cookie : UInt64) :
    ∃ r s', nfsproc3Readdir w dir cookie count rq s = (.ok r, s') ∧ r.status = .ok := by
  obtain ⟨_, _, _, hbody⟩ := readdirBody_ends hm hmk hc he hcon ho hall ha
  obtain ⟨r, s', hr, hst, _⟩ := hbody cookie count
  exact ⟨r, s', (Prog.bind_ok hprep).trans hr, hst⟩

/-- How the listing ends is not looked at: no reply is an error. -/
theorem Faithful.listed (hf : Faithful w view dir count rq s s1 (targetName w e rq.uid d)
      (Listed w left rq e (targetName w e rq.uid d) s1.rods)) :
    Listed w left rq e (targetName w e rq.uid d) s1.rods := by
  by_contra hnl
  obtain ⟨r, s', hr, hst, _⟩ := hf.failure hnl 0
  have ha := answeredTo_of_replied hprep he hm hc ho hmk (by rw [hr])
  obtain ⟨hcon, _⟩ := readdirBody_replied he ((Prog.bind_ok hprep).symm.trans hr)
  obtain ⟨r', s'', hr', hst'⟩ :=
    replied_of_answeredTo hprep he hm hc ho hmk hall hcon ha 0
  rw [hr] at hr'
  cases hr'
  exact hst hst'

end

end

/-- The export `/e` with one file `a` in its mirror, which is also in iRODS, beside a collection
`c`. -/
def plotted : Server Sandbox.Plot Sandbox.Grid :=
  Sandbox.plotServer [Sandbox.item plotDir true]
    { tree :=
      [([], ⟨true, (1, 2)⟩), ([lit "e"], ⟨true, (1, 3)⟩), ([lit "e", lit "a"], ⟨false, (1, 4)⟩)] }
    { objs := [(lit "/z/home/public", .coll), (lit "/z/home/public/a", .data []),
        (lit "/z/home/public/c", .coll)] } {}

def plotFh : NfsFh3 := Sandbox.handle (Sandbox.item plotDir true)

def plotReq : SvcReq := { remote := 1, uid := 7, gid := 7 }

theorem plotted_prep (down : Bool) : prep (plotWorld down) plotFh plotReq plotted =
    (.ok (.ok plotDir), (prep (plotWorld down) plotFh plotReq plotted).2) := by
  cases down <;> exact Prod.ext rfl rfl

theorem plotted_tended (down : Bool) :
    Plot.Tended (prep (plotWorld down) plotFh plotReq plotted).2.kernel := by
  cases down <;>
    exact .of_tree (by decide +kernel) (by decide +kernel) (by decide +kernel) (by decide +kernel)

theorem plotted_mirrorable (down : Bool) :
    Mirrorable (plotWorld down) plotDir plotted.rods (lit "/z/home/public") := by
  intro n o hn ho
  have hlookup : plotted.rods.objs.lookup (lit "/z/home/public" ++ root ++ n) = some o := ho
  obtain ⟨l₁, l₂, hl, _⟩ := List.lookup_eq_some_iff.1 hlookup
  have hmem : (lit "/z/home/public" ++ root ++ n, o) ∈ plotted.rods.objs := by rw [hl]; simp
  rcases List.mem_cons.1 hmem with h | hmem
  · have hlen := congrArg (List.length ∘ Prod.fst) h
    simp [root] at hlen
  rcases List.mem_cons.1 hmem with h | hmem
  · obtain rfl : n = lit "a" := List.append_cancel_left (congrArg Prod.fst h)
    refine ⟨⟨by decide, by decide, by decide, by decide⟩, fun _ _ => ?_⟩
    exact ⟨⟨by decide, by decide, by decide, by decide⟩, by decide⟩
  · have h := List.mem_singleton.1 hmem
    obtain rfl : n = lit "c" := List.append_cancel_left (congrArg Prod.fst h)
    refine ⟨⟨by decide, by decide, by decide, by decide⟩, fun b hb => ?_⟩
    cases hb.symm.trans (congrArg Prod.snd h)

/-- The entries that handle `h` of the small server has yet to give. -/
def plotLeft (g : Sandbox.Grid) (_ : Comm) (_ : Int) : List CollEnt × Int :=
    (g.cursor, catNoRowsFound)

theorem plotted_export (down : Bool) :
    (prep (plotWorld down) plotFh plotReq plotted).2.exports.path = some plotDir := by
  cases down <;> decide +kernel

end NfsRods
