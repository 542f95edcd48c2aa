import Mathlib.Algebra.Order.BigOperators.Group.List
import NfsRods.Lib.CodecSize
import NfsRods.Lib.Slots
import NfsRods.Proof.Paging
import NfsRods.Proof.Sendable

/-!
# The size of a READDIR reply

`read_dir` builds its reply in a static array of `MAX_ENTRIES` slots and counts the bytes it will
take. An entry that is too much is counted and put into its slot, and the pointer to it is taken
back.

* `readDir_array`: the list linked in the array is the reply.
* `length_readdir3resok`: what the constants of `readdir.c` say is what the encoders write.
* `readdir_reply_fits`: a reply of two entries or more fits into the client's count.
-/

namespace NfsRods

open CStr Xdr Xdr.Codec

section
variable {L R : Type} (w : World L R)

/-! ## The array -/

/-- What `read_dir` leaves in `entry` and in its result; `used` is its `i`. -/
structure ReaddirArray where
  status : Nfsstat3
  entry : Slots Entry3
  used : Nat
  entries : Option Nat := none
  eof : Bool := false

/-- The reply that a client gets: the encoders follow the pointers. -/
def ReaddirArray.reply (m : ReaddirArray) : Readdir3res :=
  if m.status = .ok then
    { status := .ok, entries := m.entry.follow maxEntries m.entries, eof := m.eof }
  else { status := m.status }

/-- The end of `read_dir`, with the listing from `this` on. -/
def readDirEnd (listing : List Dirent) (i : Nat) (entry : Slots Entry3) : M L R ReaddirArray := do
  debug w "debug EOF %d"
  pure { status := .ok, entry, used := i
         entries := if (entry 0).item.isSome then some 0 else none, eof := listing.isEmpty }

/-- The loop of `read_dir` on its array. -/
def readDirSlots (path : CStr) (cookie rcookie : UInt64) (count : Nat) (listing : List Dirent)
    (i realCount : Nat) (entry : Slots Entry3) : M L R ReaddirArray :=
  match listing with
  | [] => readDirEnd w [] i entry
  | this :: rest =>
    if _h : realCount < count ∧ i < maxEntries then
      let entry := if 0 < i then entry.link (i - 1) (some i) else entry
      if path.length + this.name.length + 1 < maxPathLen then do
        let scratch := if path = root then root ++ this.name else path ++ root ++ this.name
        match ← lstat w scratch with
        | none =>
          let s ← Prog.get
          pure { status := readdirErr s.errno, entry, used := i }
        | some buf =>
          let entry := entry.put i
            { fileid := buf.ino, name := this.name
              cookie := (cookie + 1 + UInt64.ofNat i) ||| rcookie }
          let realCount := realCount + entrySize + nameSize this.name
          -- whoops, overflowed the maximum size
          if count < realCount ∧ 0 < i then
            readDirSlots path cookie rcookie count (this :: rest) (i + 1) realCount
              (entry.link (i - 1) none)
          else readDirSlots path cookie rcookie count rest (i + 1) realCount entry
      else pure { status := .io, entry, used := i }
    else readDirEnd w (this :: rest) i entry
termination_by maxEntries - i

/-- `read_dir` on its array, whose slots hold what the call before has left there. -/
def readDirArray (path : CStr) (cookie : UInt64) (count : Nat) (entry : Slots Entry3) :
    M L R ReaddirArray := do
  let s ← Prog.get
  let cookie := if cookie ≠ 0 ∧ cookie &&& 0xffffffff00000000 ≠ s.rcookie then 0
    else cookie &&& 0xffffffff
  let count := if 4096 < count then 4096 else count
  match ← query fun k => w.readdir k path with
  | none =>
    let s ← Prog.get
    if s.exports.bit (·.removable) && exportPoint s.exportList path then
      pure { status := .ok, entry, used := 0, eof := true }
    else pure { status := readdirErr s.errno, entry, used := 0 }
  | some entries =>
    -- `entry[0].name = NULL`
    readDirSlots w path cookie s.rcookie count (entries.drop cookie.toNat) 0 resokSize
      (Function.update entry 0 { entry 0 with item := none })

end

/-! ## The list in the array -/

section
variable {L R : Type} {w : World L R}

theorem readDirEnd_reply {entry : Slots Entry3} {acc : List Entry3}
    (hl : entry.Linked none acc) (hempty : acc = [] → (entry 0).item = none)
    (hmax : acc.length ≤ maxEntries) (listing : List Dirent) (i : Nat) (s : Server L R) :
    ∃ m s', readDirEnd w listing i entry s = (.ok m, s') ∧ m.used = i ∧
      (do debug w "debug EOF %d"
          pure { status := .ok, entries := acc.reverse, eof := listing.isEmpty } :
        M L R Readdir3res) s = (.ok m.reply, s') := by
  obtain ⟨u, s', hdebug⟩ := debug_returns (w := w) "debug EOF %d" s
  have hentries : (if (entry 0).item.isSome then some 0 else none) = Slots.first none acc := by
    cases acc with
    | nil => rw [hempty rfl]; rfl
    | cons e acc => rw [if_pos (hl.item_first (List.cons_ne_nil e acc))]; rfl
  refine ⟨_, s', by rw [readDirEnd, Prog.bind_ok hdebug]; rfl, rfl, ?_⟩
  rw [Prog.bind_ok hdebug, ReaddirArray.reply, if_pos rfl, hentries, Slots.follow_linked hl hmax,
    Slots.follow_none, List.append_nil]
  rfl

/-- **The loop on the array** does what the loop on lists does, and uses no slot behind its end. -/
theorem readDirSlots_reply (path : CStr) (cookie rcookie : UInt64) (count : Nat)
    (es : List Dirent) (n : Nat) (acc : List Entry3) (entry : Slots Entry3) (s : Server L R)
    (hl : entry.Linked none acc) (hempty : acc = [] → (entry 0).item = none)
    (hmax : acc.length ≤ maxEntries) :
    ∃ m s', readDirSlots w path cookie rcookie count es acc.length n entry s = (.ok m, s') ∧
      m.used ≤ maxEntries ∧
      readDirLoop w path cookie rcookie count es acc.length n acc s = (.ok m.reply, s') := by
  induction es generalizing n acc entry s with
  | nil =>
    obtain ⟨m, s', hm, hused, hr⟩ := readDirEnd_reply (w := w) hl hempty hmax [] acc.length s
    rw [readDirSlots, readDirLoop]
    exact ⟨m, s', hm, hused ▸ hmax, hr⟩
  | cons this rest ih =>
    rw [readDirSlots, readDirLoop]
    by_cases hroom : n < count ∧ acc.length < maxEntries
    · rw [dif_pos hroom, if_pos hroom]
      have hlink := hl.extend (some acc.length)
      generalize (if 0 < acc.length then entry.link (acc.length - 1) (some acc.length)
        else entry) = linked at hlink ⊢
      dsimp only
      by_cases hlen : path.length + this.name.length + 1 < maxPathLen
      · rw [if_pos hlen, if_pos hlen]
        obtain ⟨buf, s1, hstat⟩ := query_returns (fun k => w.lstat k
          (if path = root then root ++ this.name else path ++ root ++ this.name)) s
        have hrun : lstat w (if path = root then root ++ this.name
            else path ++ root ++ this.name) s = (.ok buf, s1) := hstat
        rw [Prog.bind_ok hrun, Prog.bind_ok hrun]
        cases buf with
        | none =>
          refine ⟨_, s1, rfl, hmax, ?_⟩
          rw [ReaddirArray.reply, if_neg (readdirErr_ne_ok _)]
          rfl
        | some buf =>
          dsimp only
          have hput := hlink.put
            { fileid := buf.ino, name := this.name
              cookie := (cookie + 1 + UInt64.ofNat acc.length) ||| rcookie }
          by_cases hover : count < n + entrySize + nameSize this.name ∧ 0 < acc.length
          · -- the entry is in its slot, but the pointer to it is taken back
            have hback := hput.2.extend none
            rw [if_pos hover.2] at hback
            rw [if_pos hover, if_pos hover, readDirSlots, dif_neg (by omega)]
            obtain ⟨m, s', hm, hused, hr⟩ := readDirEnd_reply (w := w) hback
              (fun hnil => absurd hover.2 (by simp [hnil])) hmax (this :: rest) (acc.length + 1) s1
            exact ⟨m, s', hm, hused ▸ hroom.2, hr⟩
          · rw [if_neg hover, if_neg hover]
            exact ih _ _ _ s1 hput (fun hnil => by cases hnil) hroom.2
      · rw [if_neg hlen, if_neg hlen]
        exact ⟨_, _, rfl, hmax, rfl⟩
    · rw [dif_neg hroom, if_neg hroom]
      obtain ⟨m, s', hm, hused, hr⟩ :=
        readDirEnd_reply (w := w) hl hempty hmax (this :: rest) acc.length s
      exact ⟨m, s', hm, hused ▸ hmax, hr⟩

/-- `read_dir` replies with the list in its array. -/
theorem readDir_array (path : CStr) (cookie : UInt64) (count : Nat) (entry : Slots Entry3)
    (s : Server L R) :
    ∃ m s', readDirArray w path cookie count entry s = (.ok m, s') ∧ m.used ≤ maxEntries ∧
      readDir w path cookie count s = (.ok m.reply, s') := by
  unfold readDirArray readDir
  rw [Prog.get_bind_run, Prog.get_bind_run]
  dsimp only
  cases hdir : w.readdir s.kernel path with
  | error e =>
    rw [Prog.bind_ok (query_error hdir), Prog.bind_ok (query_error hdir)]
    dsimp only
    rw [Prog.get_bind_run, Prog.get_bind_run]
    split
    · refine ⟨_, _, rfl, Nat.zero_le _, ?_⟩
      rw [ReaddirArray.reply, if_pos rfl, Slots.follow_none]
      rfl
    · refine ⟨_, _, rfl, Nat.zero_le _, ?_⟩
      rw [ReaddirArray.reply, if_neg (readdirErr_ne_ok _)]
      rfl
  | ok es =>
    rw [Prog.bind_ok (query_ok hdir), Prog.bind_ok (query_ok hdir)]
    refine readDirSlots_reply path _ _ _ _ resokSize [] _ s trivial (fun _ => ?_) (Nat.zero_le _)
    rw [Function.update_self]

end

/-! ## The encoders -/

theorem takes_nfstime3 : Wire.xdrNfstime3.Takes fun _ => 8 := (takes_ulong.seq takes_ulong).iso

theorem takes_fattr3 : Wire.xdrFattr3.Takes fun _ => 84 :=
  (takes_word.seq (takes_ulong.seq (takes_ulong.seq (takes_ulong.seq (takes_ulong.seq
    (takes_hyper.seq (takes_hyper.seq ((takes_ulong.seq takes_ulong).iso.seq (takes_hyper.seq
      (takes_hyper.seq (takes_nfstime3.seq (takes_nfstime3.seq takes_nfstime3)))))))))))).iso

theorem takes_postOpAttr : Wire.xdrPostOpAttr.Takes fun p => 4 + p.elim 0 fun _ => 84 :=
  takes_fattr3.optional

theorem takes_entry3 : Wire.xdrEntry3.Takes fun e => 8 + (4 + roundUp e.name.length + 8) :=
  (takes_hyper.seq ((takes_string _).seq takes_hyper)).iso

theorem takes_readdir3resok : Wire.xdrReaddir3resok.Takes fun r =>
    (4 + r.dirAttributes.elim 0 fun _ => 84) + (8 + (4 +
      (r.reply.entries.map fun e => 8 + (4 + roundUp e.name.length + 8) + 4).sum + 4)) :=
  (takes_postOpAttr.seq ((takes_data 8).seq (takes_entry3.linked.seq takes_flag).iso)).iso

/-- What `read_dir` counts for its entries. -/
def entriesSize (es : List Entry3) : Nat := (es.map fun e => entrySize + nameSize e.name).sum

/-- The list of the entries takes what `read_dir` counts for them. -/
theorem sum_entries (r : Readdir3res) :
    ((readdir3resok r).reply.entries.map fun e =>
      8 + (4 + roundUp e.name.length + 8) + 4).sum = entriesSize r.entries := by
  have hentry : ((fun e : Wire.Entry3 => 8 + (4 + roundUp e.name.length + 8) + 4) ∘
      fun e : Entry3 => { fileid := e.fileid, name := e.name, cookie := e.cookie }) =
        fun e => entrySize + nameSize e.name := by
    funext e
    show 8 + (4 + roundUp e.name.length + 8) + 4 = 24 + nameSize e.name
    rw [roundUp, nameSize]
    omega
  show ((r.entries.map _).map _).sum = _
  rw [List.map_map, hentry, entriesSize]

/-- **The constants of `readdir.c`** are what the encoders write. -/
theorem length_readdir3resok {r : Readdir3res} (h : r.dirAttributes.follow = true)
    {out : List UInt8} (henc : Wire.xdrReaddir3resok.encode (readdir3resok r) = some out) :
    out.length = resokSize + entriesSize r.entries := by
  have hattr : (readdir3resok r).dirAttributes = some (fattr3 r.dirAttributes.attributes) :=
    if_pos h
  rw [takes_readdir3resok _ out henc]
  dsimp only
  rw [sum_entries, hattr]
  show (4 + 84) + (8 + (4 + _ + 4)) = 104 + _
  omega

/-! ## What fits -/

section
variable {L R : Type} {w : World L R}

theorem entriesSize_reverse (es : List Entry3) : entriesSize es.reverse = entriesSize es := by
  rw [entriesSize, List.map_reverse, List.sum_reverse, entriesSize]

theorem entriesSize_cons (e : Entry3) (es : List Entry3) :
    entriesSize (e :: es) = entrySize + nameSize e.name + entriesSize es := by
  rw [entriesSize, entriesSize, List.map_cons, List.sum_cons]

/-- The page ends after the entries `acc`. -/
theorem ended_fits {acc : List Entry3} {count : Nat} (eof : Bool) {s s' : Server L R}
    {r : Readdir3res} (hfit : 2 ≤ acc.length → resokSize + entriesSize acc ≤ count)
    (hend : (do
        debug w "debug EOF %d"
        pure { status := .ok, entries := acc.reverse, eof } : M L R Readdir3res) s = (.ok r, s'))
    (htwo : 2 ≤ r.entries.length) : resokSize + entriesSize r.entries ≤ count := by
  cases hend
  rw [List.length_reverse] at htwo
  rw [entriesSize_reverse]
  exact hfit htwo

/-- The bytes counted are those of the entries, and fit from the second entry on. -/
theorem readDirLoop_fits (path : CStr) (cookie rcookie : UInt64) (count : Nat) (es : List Dirent)
    (acc : List Entry3) (s : Server L R)
    (hfit : 2 ≤ acc.length → resokSize + entriesSize acc ≤ count)
    {r : Readdir3res} {s' : Server L R}
    (hrun : readDirLoop w path cookie rcookie count es acc.length (resokSize + entriesSize acc)
      acc s = (.ok r, s')) (htwo : 2 ≤ r.entries.length) :
    resokSize + entriesSize r.entries ≤ count := by
  induction es generalizing acc s with
  | nil => exact ended_fits true hfit hrun htwo
  | cons this rest ih =>
    unfold readDirLoop at hrun
    by_cases hroom : resokSize + entriesSize acc < count ∧ acc.length < maxEntries
    · rw [if_pos hroom] at hrun
      by_cases hlen : path.length + this.name.length + 1 < maxPathLen
      · rw [if_pos hlen] at hrun
        obtain ⟨buf, s1, hstat, hrun⟩ := Prog.bind_eq_ok hrun
        cases buf with
        | none =>
          cases hrun
          cases htwo
        | some buf =>
          dsimp only at hrun
          let e : Entry3 :=
            { fileid := buf.ino, name := this.name
              cookie := (cookie + 1 + UInt64.ofNat acc.length) ||| rcookie }
          have hsum : resokSize + entriesSize acc + entrySize + nameSize this.name =
              resokSize + entriesSize (e :: acc) := by
            rw [entriesSize_cons]
            show _ = resokSize + (entrySize + nameSize this.name + entriesSize acc)
            omega
          rw [hsum] at hrun
          by_cases hover : count < resokSize + entriesSize (e :: acc) ∧ 0 < acc.length
          · rw [if_pos hover] at hrun
            exact ended_fits _ hfit hrun htwo
          · rw [if_neg hover] at hrun
            refine ih (e :: acc) s1 (fun htwo' => ?_) hrun
            rw [List.length_cons] at htwo'
            omega
      · rw [if_neg hlen] at hrun
        cases hrun
        cases htwo
    · rw [if_neg hroom] at hrun
      exact ended_fits _ hfit hrun htwo

theorem readDir_fits {path : CStr} {cookie : UInt64} {count : Nat} {s s' : Server L R}
    {r : Readdir3res} (hrun : readDir w path cookie count s = (.ok r, s'))
    (htwo : 2 ≤ r.entries.length) : resokSize + entriesSize r.entries ≤ min count 4096 := by
  unfold readDir at hrun
  rw [Prog.get_bind_run] at hrun
  obtain ⟨listing, s1, -, hrun⟩ := Prog.bind_eq_ok hrun
  cases listing with
  | none =>
    dsimp only at hrun
    rw [Prog.get_bind_run] at hrun
    split at hrun
    · cases hrun
      cases htwo
    · cases hrun
      cases htwo
  | some es =>
    have hcount : (if 4096 < count then 4096 else count) = min count 4096 := by
      split <;> omega
    rw [hcount] at hrun
    exact readDirLoop_fits path _ _ _ _ [] s1 (fun h => by cases h) hrun htwo

/-- A name is no longer than what is counted for its list. -/
theorem length_name_le {es : List Entry3} {e : Entry3} (he : e ∈ es) :
    e.name.length ≤ entriesSize es := by
  have hle : entrySize + nameSize e.name ≤ entriesSize es :=
    List.le_sum_of_mem (List.mem_map_of_mem he)
  have hname : e.name.length ≤ nameSize e.name := by
    unfold nameSize
    omega
  omega

/-- **READDIR replies fit.** For every directory, cookie, count and whatever the slots held before:
the list in the array is the reply, no slot behind the array is used, and a reply of two entries or
more, with any attributes that are written, takes what the constants say and no more than the
client's count or 4096 bytes. -/
theorem readdir_reply_fits (w : World L R) (path : CStr) (cookie : UInt64) (count : Nat)
    (entry : Slots Entry3) (s : Server L R) (attributes : Fattr3) :
    ∃ m s', readDirArray w path cookie count entry s = (.ok m, s') ∧
      readDir w path cookie count s = (.ok m.reply, s') ∧ m.used ≤ maxEntries ∧
      (2 ≤ m.reply.entries.length →
        ((∃ out, Wire.xdrReaddir3resok.encode (readdir3resok
            { m.reply with dirAttributes := { follow := true, attributes } }) = some out) ↔
          attributes.Sendable ∧ ∀ e ∈ m.reply.entries, 0 ∉ e.name) ∧
        (∀ out, Wire.xdrReaddir3resok.encode (readdir3resok
            { m.reply with dirAttributes := { follow := true, attributes } }) = some out →
          out.length = resokSize + entriesSize m.reply.entries) ∧
        resokSize + entriesSize m.reply.entries ≤ min count 4096) := by
  obtain ⟨m, s', harray, hused, hreply⟩ := readDir_array (w := w) path cookie count entry s
  refine ⟨m, s', harray, hreply, hused, fun htwo => ?_⟩
  have hfit := readDir_fits hreply htwo
  refine ⟨(fits_readdir3resok _).trans (and_congr ?_ ?_), fun out henc => ?_, hfit⟩
  · exact ⟨fun h => h rfl, fun h _ => h⟩
  · refine ⟨fun h e he => (h e he).1, fun h e he => ⟨h e he, ?_⟩⟩
    have hname : e.name.length ≤ 4096 := by
      have hle : _ ≤ entriesSize m.reply.entries := length_name_le he
      omega
    exact hname.trans (by decide)
  · exact length_readdir3resok
      (r := { m.reply with dirAttributes := { follow := true, attributes } }) rfl henc

end

end NfsRods
