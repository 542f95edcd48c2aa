import Mathlib.Data.List.TakeWhile
import NfsRods.Lib.Mask
import NfsRods.Proof.Grammar
import NfsRods.Proof.Scan

/-!
# Networks

An entry `a.b.c.d/n` or `a.b.c.d/m.m.m.m` of the exports file stands for the clients that agree with
the address on the bits of the mask. `find_host` masks the client's address and compares the result
with the address as it is written.

* `scan_net`, `scan_oldnet`: how the scanner takes the text of a network for a token.
* `long_rejected`: a number of bits with more than two digits is a syntax error.
* `makeNetmask_loop`: the loops of `make_netmask` compute the mask, in words of any width.
* `network_iff`: a network denotes its clients exactly when it has at most 32 bits and its address
  none behind them.
-/

namespace NfsRods

open CStr
open Regex (matches_cls matches_seq matches_alt matches_eps)
open Mask (Agree Leading)

/-! ## The patterns of addresses and networks -/

section
variable {s : CStr}

/-- `s` has at least one byte and at most `n`, all of them digits. -/
def Digits (n : Nat) (s : CStr) : Prop := s ≠ [] ∧ s.length ≤ n ∧ ∀ b ∈ s, isDigit b = true

theorem matches_digit : (Regex.cls isDigit).Matches s ↔ Digits 1 s := by
  rw [matches_cls, Digits]
  constructor
  · rintro ⟨b, rfl, hb⟩
    simp [hb]
  · rintro ⟨hne, hlen, hall⟩
    obtain ⟨b, rfl⟩ := List.length_eq_one_iff.1 (le_antisymm hlen (List.length_pos_of_ne_nil hne))
    exact ⟨b, rfl, hall b List.mem_cons_self⟩

/-- One digit more. -/
theorem matches_digit_opt {n : Nat} {r : Regex} (hr : ∀ v, r.Matches v ↔ Digits n v) :
    (Regex.seq (.cls isDigit) (.opt r)).Matches s ↔ Digits (n + 1) s := by
  simp only [Regex.opt, matches_seq, matches_alt, matches_cls, matches_eps, hr]
  constructor
  · rintro ⟨_, v, rfl, ⟨b, rfl, hb⟩, ⟨-, hlen, hall⟩ | rfl⟩
    · exact ⟨by simp, Nat.succ_le_succ hlen, List.forall_mem_cons.2 ⟨hb, hall⟩⟩
    · simp [Digits, hb]
  · rintro ⟨hne, hlen, hall⟩
    obtain ⟨b, v, rfl⟩ := List.exists_cons_of_ne_nil hne
    obtain ⟨hb, hv⟩ := List.forall_mem_cons.1 hall
    refine ⟨[b], v, rfl, ⟨b, rfl, hb⟩, ?_⟩
    rcases eq_or_ne v [] with rfl | hne'
    · exact .inr rfl
    · exact .inl ⟨hne', Nat.le_of_succ_le_succ hlen, hv⟩

theorem matches_netcomp : reNetcomp.Matches s ↔ Digits 2 s :=
  matches_digit_opt fun _ => matches_digit

theorem matches_ipcomp : reIpcomp.Matches s ↔ Digits 3 s :=
  matches_digit_opt fun _ => matches_digit_opt fun _ => matches_digit

/-- A literal byte in front of a pattern. -/
theorem matches_char_seq {b : UInt8} {r : Regex} :
    (Regex.seq (Regex.char b) r).Matches s ↔ ∃ v, s = b :: v ∧ r.Matches v := by
  simp only [Regex.char, matches_seq, matches_cls, beq_iff_eq]
  constructor
  · rintro ⟨_, v, rfl, ⟨_, rfl, rfl⟩, hv⟩
    exact ⟨v, rfl, hv⟩
  · rintro ⟨v, rfl, hv⟩
    exact ⟨[b], v, rfl, ⟨b, rfl, rfl⟩, hv⟩

theorem matches_ip : reIp.Matches s ↔ ∃ a b c d, s = a ++ 46 :: (b ++ 46 :: (c ++ 46 :: d)) ∧
    Digits 3 a ∧ Digits 3 b ∧ Digits 3 c ∧ Digits 3 d := by
  have hpart : ∀ {r : Regex} {s : CStr}, (Regex.seq reIpcomp (.seq (Regex.char 46) r)).Matches s ↔
      ∃ a v, s = a ++ 46 :: v ∧ Digits 3 a ∧ r.Matches v := by
    intro r s
    rw [matches_seq]
    constructor
    · rintro ⟨a, u, rfl, ha, hu⟩
      obtain ⟨v, rfl, hv⟩ := matches_char_seq.1 hu
      exact ⟨a, v, rfl, matches_ipcomp.1 ha, hv⟩
    · rintro ⟨a, v, rfl, ha, hv⟩
      exact ⟨a, _, rfl, matches_ipcomp.2 ha, matches_char_seq.2 ⟨v, rfl, hv⟩⟩
  simp only [reIp, Regex.cat, hpart, matches_ipcomp]
  constructor
  · rintro ⟨a, _, rfl, ha, b, _, rfl, hb, c, d, rfl, hc, hd⟩
    exact ⟨a, b, c, d, rfl, ha, hb, hc, hd⟩
  · rintro ⟨a, b, c, d, rfl, ha, hb, hc, hd⟩
    exact ⟨a, _, rfl, ha, b, _, rfl, hb, c, d, rfl, hc, hd⟩

/-- A pattern of two parts with a slash between them. -/
theorem matches_slash {r t : Regex} : (Regex.seq r (.seq (Regex.char slash) t)).Matches s ↔
    ∃ addr net, s = addr ++ slash :: net ∧ r.Matches addr ∧ t.Matches net := by
  rw [matches_seq]
  constructor
  · rintro ⟨a, u, rfl, ha, hu⟩
    obtain ⟨v, rfl, hv⟩ := matches_char_seq.1 hu
    exact ⟨a, v, rfl, ha, hv⟩
  · rintro ⟨a, v, rfl, ha, hv⟩
    exact ⟨a, _, rfl, ha, matches_char_seq.2 ⟨v, rfl, hv⟩⟩

theorem matches_net : reNet.Matches s ↔
    ∃ addr net, s = addr ++ slash :: net ∧ reIp.Matches addr ∧ Digits 2 net := by
  simp only [reNet, Regex.cat, matches_slash, matches_netcomp]

theorem matches_oldnet : reOldnet.Matches s ↔
    ∃ addr net, s = addr ++ slash :: net ∧ reIp.Matches addr ∧ reIp.Matches net := by
  simp only [reOldnet, Regex.cat, matches_slash]

/-! ## The texts of addresses -/

theorem ip_bytes (h : reIp.Matches s) : ∀ b ∈ s, isDigit b = true ∨ b = 46 := by
  obtain ⟨a, b, c, d, rfl, ha, hb, hc, hd⟩ := matches_ip.1 h
  intro x hx
  simp only [List.mem_append, List.mem_cons] at hx
  rcases hx with hx | rfl | hx | rfl | hx | rfl | hx
  · exact .inl (ha.2.2 x hx)
  · exact .inr rfl
  · exact .inl (hb.2.2 x hx)
  · exact .inr rfl
  · exact .inl (hc.2.2 x hx)
  · exact .inr rfl
  · exact .inl (hd.2.2 x hx)

theorem ip_dot (h : reIp.Matches s) : 46 ∈ s := by
  obtain ⟨a, b, c, d, rfl, -⟩ := matches_ip.1 h
  simp

theorem ip_length (h : reIp.Matches s) : s.length ≤ 15 := by
  obtain ⟨a, b, c, d, rfl, ha, hb, hc, hd⟩ := matches_ip.1 h
  have := ha.2.1
  have := hb.2.1
  have := hc.2.1
  have := hd.2.1
  simp only [List.length_append, List.length_cons]
  omega

theorem ip_head (h : reIp.Matches s) : ∃ b t, s = b :: t ∧ isDigit b = true := by
  obtain ⟨a, b, c, d, rfl, ha, -⟩ := matches_ip.1 h
  obtain ⟨x, a, rfl⟩ := List.exists_cons_of_ne_nil ha.1
  exact ⟨x, _, rfl, ha.2.2 x (by simp)⟩

theorem ip_slashless (h : reIp.Matches s) : slash ∉ s := by
  intro hs
  rcases ip_bytes h slash hs with hd | hd
  · revert hd
    decide
  · revert hd
    decide

/-- A text is cut at its slash in one way. -/
theorem cut_slash {addr net addr' net' : CStr} (h : slash ∉ addr) (h' : slash ∉ addr')
    (heq : addr ++ slash :: net = addr' ++ slash :: net') : addr = addr' ∧ net = net' := by
  have hcut : ∀ {a n : CStr}, slash ∉ a → (a ++ slash :: n).takeWhile (· ≠ slash) = a := by
    intro a n ha
    have hall : ∀ b ∈ a, decide (b ≠ slash) = true := by
      intro b hb
      apply decide_eq_true
      rintro rfl
      exact ha hb
    rw [List.takeWhile_append_of_pos hall]
    simp
  have haddr : addr = addr' := by rw [← hcut h, heq, hcut h']
  subst haddr
  exact ⟨rfl, by simpa using heq⟩

/-- What comes behind a number or an address ends it. -/
def NetEnds (rest : CStr) : Prop := ∀ b, rest.head? = some b → isDigit b = false ∧ b ≠ 46

theorem NetEnds.take {rest : CStr} (h : NetEnds rest) {k : Nat} (hk : rest.take k ≠ []) :
    ∃ b ∈ rest.take k, isDigit b = false ∧ b ≠ 46 := by
  cases rest with
  | nil => simp at hk
  | cons b rest =>
    cases k with
    | zero => simp at hk
    | succ k => exact ⟨b, by simp, h b rfl⟩

/-- An address does not go on behind its end. -/
theorem NetEnds.no_ip {net rest : CStr} (hrest : NetEnds rest) {k : Nat} (hk : rest.take k ≠ []) :
    ¬ reIp.Matches (net ++ rest.take k) := by
  intro h
  obtain ⟨b, hb, hd, hdot⟩ := hrest.take hk
  rcases ip_bytes h b (by simp [hb]) with h | h
  · rw [hd] at h
    cases h
  · exact hdot h

/-- Digits that are followed by something else do not begin an address. -/
theorem digits_no_ip {net rest : CStr} (hnet : ∀ b ∈ net, isDigit b = true) (hrest : NetEnds rest)
    (k : Nat) : ¬ reIp.Matches ((net ++ rest).take k) := by
  intro h
  have hdot := ip_dot h
  rw [List.take_append] at h hdot
  by_cases hcut : rest.take (k - net.length) = []
  · rw [hcut, List.append_nil] at hdot
    have := hnet 46 (List.mem_of_mem_take hdot)
    revert this
    decide
  · exact hrest.no_ip hcut h

end

/-! ## The tokens of networks -/

section
variable {s : CStr} {b : UInt8}

theorem longest_dull {r : Regex} (h : r.next b = []) {m : Nat}
    (hm : r.longest (b :: s) = some m) : m = 0 := by
  by_contra hpos
  obtain ⟨m, rfl⟩ : ∃ k, m = k + 1 := ⟨m - 1, by omega⟩
  obtain ⟨t, ht, -⟩ := Regex.next_iff.2 (Regex.longest_eq_some.1 hm).2.1
  rw [h] at ht
  cases ht

theorem digit_num (hb : isDigit b = true) : 48 ≤ b.toNat ∧ b.toNat ≤ 57 := by
  simpa [isDigit, UInt8.le_iff_toNat_le] using hb

/-- What a digit is not. -/
theorem digit_ne (hb : isDigit b = true) : b ≠ 9 ∧ b ≠ 10 ∧ b ≠ 32 ∧ b ≠ 34 ∧ b ≠ 35 ∧ b ≠ 61 ∧
    b ≠ 92 ∧ b ≠ slash ∧ isLower b = false := by
  have hnum := digit_num hb
  have hne : ∀ c : UInt8, c.toNat < 48 ∨ 57 < c.toNat → b ≠ c := by
    rintro c hc rfl
    omega
  refine ⟨hne 9 (by decide), hne 10 (by decide), hne 32 (by decide), hne 34 (by decide),
    hne 35 (by decide), hne 61 (by decide), hne 92 (by decide), hne slash (by decide), ?_⟩
  have : ¬ (97 : UInt8) ≤ b := by
    rw [UInt8.le_iff_toNat_le]
    show ¬ 97 ≤ b.toNat
    omega
  simp [isLower, this]

/-- The patterns before that of an address do not begin with a digit. -/
theorem dull_before (hb : isDigit b = true) {x : ERule} (hx : x ∈ erules.take 5) :
    x.pattern.next b = [] := by
  obtain ⟨h9, h10, h32, -, h35, -, h92, -⟩ := digit_ne hb
  simp only [erules, List.take_succ_cons, List.take_zero, List.mem_cons, List.not_mem_nil,
    or_false] at hx
  rcases hx with rfl | rfl | rfl | rfl | rfl <;>
    simp [Regex.next, Regex.nullable, Regex.char, Regex.cat, reWhite, h9, h10, h32, h35, h92]

/-- The rule for a byte of its own. -/
def anyRule : ERule :=
  { pattern := reAny, action := fun t => some (.char (t.headD 0), false) }

/-- Nor do those behind that of a network, but for the one that takes any byte. -/
theorem dull_behind (hb : isDigit b = true) {x : ERule} (hx : x ∈ erules.drop 8) :
    x.pattern.next b = [] ∨ x = anyRule := by
  obtain ⟨h9, h10, h32, h34, -, h61, -, hsl, hlow⟩ := digit_ne hb
  simp only [erules, List.drop_succ_cons, List.drop_zero, List.mem_cons, List.not_mem_nil,
    or_false] at hx
  rcases hx with rfl | rfl | rfl | rfl | rfl | rfl | rfl
  · exact .inl (by simp [Regex.next, Regex.nullable, Regex.char, Regex.cat, h34])
  · exact .inl (by simp [Regex.next, Regex.nullable, Regex.char, h61])
  · exact .inl (by simp [Regex.next, Regex.nullable, Regex.char, rePath, hsl])
  · exact .inl (by simp [Regex.next, Regex.nullable, Regex.plus, reWhite, h9, h32])
  · exact .inl (by simp [Regex.next, Regex.nullable, reId, hlow])
  · exact .inr rfl
  · exact .inl (by simp [Regex.next, Regex.char, h10])

theorem copyText_short {text : CStr} (hlen : text.length < maxPathLen) (hnul : 0 ∉ text) :
    copyText text = (text, false) := by
  have hall : ∀ b ∈ text, (b != 0) = true := by
    intro b hb
    rw [bne_iff_ne]
    rintro rfl
    exact hnul hb
  rw [copyText, if_neg (by omega), List.takeWhile_eq_self_iff.2 hall, Prod.mk.injEq]
  exact ⟨rfl, decide_eq_false (by omega)⟩

/-- A rule that wins and copies its text. -/
theorem scan_copied {bol : Bool} {text rest : CStr} {r : ERule} {f : CStr → EToken}
    (hbest : bestRule bol (text ++ rest) erules = some (text.length, r))
    (ha : r.action = returnText f) (hne : text ≠ []) (hlen : text.length < maxPathLen)
    (hbytes : 0 ∉ text ∧ 10 ∉ text) :
    scan 0 bol (text ++ rest) =
      { tok := f text, long := false, unread := rest, bol := false } :: scan 0 false rest := by
  have htake : (text ++ rest).take text.length = text := List.take_left
  have hlast : (text.getLast? == some 10) = false := by
    rw [beq_eq_false_iff_ne]
    exact fun h => hbytes.2 (List.mem_of_getLast? h)
  have hact : r.action ((text ++ rest).take text.length) = some (f text, false) := by
    rw [ha, htake, returnText, copyText_short hlen hbytes.1]
  have hscan := scan_token hbest (List.length_pos_of_ne_nil hne) (by simp [hne]) hact
  rw [htake, hlast, List.drop_left] at hscan
  exact hscan

/-- What a match of a prefix with a slash in it consists of. -/
theorem take_cut {addr q addr' net' : CStr} {j : Nat} (h : slash ∉ addr) (h' : slash ∉ addr')
    (heq : (addr ++ slash :: q).take j = addr' ++ slash :: net') :
    addr = addr' ∧ addr.length < j ∧ q.take (j - (addr.length + 1)) = net' := by
  rw [List.take_append] at heq
  by_cases hj : j ≤ addr.length
  · rw [Nat.sub_eq_zero_of_le hj, List.take_zero, List.append_nil] at heq
    have hmem : slash ∈ addr.take j := by
      rw [heq]
      simp
    exact absurd (List.mem_of_mem_take hmem) h
  · obtain ⟨k, hk⟩ : ∃ k, j - addr.length = k + 1 := ⟨j - addr.length - 1, by omega⟩
    rw [List.take_of_length_le (by omega), hk, List.take_succ_cons] at heq
    obtain ⟨ha, hn⟩ := cut_slash h h' heq
    rw [← hn]
    exact ⟨ha, by omega, by congr 1; omega⟩

/-- The address alone is the longest match of its pattern. -/
theorem ip_le {addr q : CStr} {m : Nat}
    (hm : reIp.longest (addr ++ slash :: q) = some m) : m ≤ addr.length := by
  by_contra hlong
  have hmatch := (Regex.longest_eq_some.1 hm).2.1
  obtain ⟨k, rfl⟩ : ∃ k, m = addr.length + (k + 1) := ⟨m - addr.length - 1, by omega⟩
  rw [List.take_length_add_append, List.take_succ_cons] at hmatch
  exact ip_slashless hmatch (by simp)

theorem any_le {s : CStr} {m : Nat} (hm : reAny.longest s = some m) : m ≤ 1 := by
  obtain ⟨hlen, hmatch, -⟩ := Regex.longest_eq_some.1 hm
  obtain ⟨b, hb, -⟩ := matches_cls.1 hmatch
  have := congrArg List.length hb
  rw [List.length_take, List.length_singleton] at this
  omega

/-- The rules before those of networks take the address at most. -/
theorem before_le {addr q : CStr} {x : ERule} {m : Nat} (haddr : reIp.Matches addr)
    (hx : x ∈ erules.take 6) (hm : x.pattern.longest (addr ++ slash :: q) = some m) :
    m ≤ addr.length := by
  obtain ⟨b, t, rfl, hb⟩ := ip_head haddr
  have hx : x ∈ erules.take 5 ∨ x = { pattern := reIp, action := returnText .ip } :=
    List.mem_append.1 hx |>.imp_right List.mem_singleton.1
  rcases hx with hx | rfl
  · rw [longest_dull (dull_before hb hx) hm]
    exact Nat.zero_le _
  · exact ip_le hm

/-- Those behind them take one byte at most. -/
theorem behind_le {addr q : CStr} {x : ERule} {m : Nat} (haddr : reIp.Matches addr)
    (hx : x ∈ erules.drop 8) (hm : x.pattern.longest (addr ++ slash :: q) = some m) : m ≤ 1 := by
  obtain ⟨b, t, rfl, hb⟩ := ip_head haddr
  rcases dull_behind hb hx with hdull | rfl
  · rw [longest_dull hdull hm]
    exact Nat.zero_le _
  · exact any_le hm

/-- Neither a NUL nor a newline is in the text of a network. -/
theorem network_bytes {addr net : CStr} (haddr : reIp.Matches addr)
    (hnet : ∀ b ∈ net, isDigit b = true ∨ b = 46) :
    0 ∉ addr ++ slash :: net ∧ 10 ∉ addr ++ slash :: net := by
  have hall : ∀ b ∈ addr ++ slash :: net, isDigit b = true ∨ b = 46 ∨ b = slash := by
    intro b hb
    rcases List.mem_append.1 hb with hb | hb
    · exact (ip_bytes haddr b hb).imp_right .inl
    · rcases List.mem_cons.1 hb with rfl | hb
      · exact .inr (.inr rfl)
      · exact (hnet b hb).imp_right .inl
  constructor
  · intro h
    exact absurd (hall 0 h) (by decide)
  · intro h
    exact absurd (hall 10 h) (by decide)

/-- The longest match of the pattern for an address, a slash and what `N` says is the whole text, if
nothing longer is as `N` says. -/
theorem longest_network {r : Regex} {N : CStr → Prop}
    (hr : ∀ {t : CStr}, r.Matches t ↔ ∃ addr net, t = addr ++ slash :: net ∧ reIp.Matches addr ∧
      N net)
    {addr net rest : CStr} (haddr : reIp.Matches addr) (hnet : N net)
    (hmax : ∀ k, 0 < k → k ≤ rest.length → ¬ N (net ++ rest.take k)) :
    r.longest (addr ++ slash :: net ++ rest) = some (addr ++ slash :: net).length := by
  have hlen : (addr ++ slash :: net).length = addr.length + 1 + net.length := by
    simp only [List.length_append, List.length_cons]
    omega
  refine Regex.longest_eq_some.2 ⟨by simp, ?_, fun j hj hjlen hmatch => ?_⟩
  · rw [List.take_left]
    exact hr.2 ⟨addr, net, rfl, haddr, hnet⟩
  · obtain ⟨addr', net', heq, haddr', hnet'⟩ := hr.1 hmatch
    rw [List.append_assoc, List.cons_append] at heq
    obtain ⟨-, -, rfl⟩ := take_cut (ip_slashless haddr) (ip_slashless haddr') heq
    rw [List.take_append, List.take_of_length_le (by omega)] at hnet'
    refine hmax _ ?_ ?_ hnet'
    · omega
    · rw [List.length_append] at hjlen
      omega

/-- **A network with a number of bits** is one token: the bits are one or two digits, and what comes
behind them does not make an address of them. -/
theorem scan_net {addr net rest : CStr} (haddr : reIp.Matches addr) (hnet : Digits 2 net)
    (hmax : ∀ k, 0 < k → k ≤ rest.length → ¬ Digits 2 (net ++ rest.take k))
    (hno : ∀ k, ¬ reIp.Matches ((net ++ rest).take k)) (bol : Bool) :
    scan 0 bol (addr ++ slash :: net ++ rest) =
      { tok := .net (addr ++ slash :: net), long := false, unread := rest, bol := false } ::
        scan 0 false rest := by
  have hs : addr ++ slash :: net ++ rest = addr ++ slash :: (net ++ rest) := by simp
  have hlen : (addr ++ slash :: net).length = addr.length + 1 + net.length := by
    simp only [List.length_append, List.length_cons]
    omega
  have hlongest := longest_network matches_net haddr hnet hmax
  have hbest : bestRule bol (addr ++ slash :: net ++ rest) erules =
      some ((addr ++ slash :: net).length, { pattern := reNet, action := returnText .net }) := by
    show bestRule bol _ (erules.take 6 ++ { pattern := reNet, action := returnText .net } ::
      erules.drop 7) = _
    apply bestRule_first rfl hlongest
    · intro x hx m hm
      rw [hs] at hm
      have := before_le haddr hx hm
      omega
    · intro x hx m hm
      rw [hs] at hm
      rcases List.mem_cons.1 hx with rfl | hx
      · obtain ⟨addr', net', heq, haddr', hnet'⟩ :=
          matches_oldnet.1 (Regex.longest_eq_some.1 hm).2.1
        obtain ⟨-, -, rfl⟩ := take_cut (ip_slashless haddr) (ip_slashless haddr') heq
        exact absurd hnet' (hno _)
      · have := behind_le haddr hx hm
        omega
  have hshort : (addr ++ slash :: net).length < maxPathLen := by
    have := ip_length haddr
    have := hnet.2.1
    rw [hlen]
    show _ < 1024
    omega
  exact scan_copied hbest rfl (by simp) hshort
    (network_bytes haddr fun b hb => .inl (hnet.2.2 b hb))

/-- **A network with a full mask** is one token. -/
theorem scan_oldnet {addr net rest : CStr} (haddr : reIp.Matches addr) (hnet : reIp.Matches net)
    (hrest : NetEnds rest) (bol : Bool) :
    scan 0 bol (addr ++ slash :: net ++ rest) =
      { tok := .oldnet (addr ++ slash :: net), long := false, unread := rest, bol := false } ::
        scan 0 false rest := by
  have hs : addr ++ slash :: net ++ rest = addr ++ slash :: (net ++ rest) := by simp
  have hlen : (addr ++ slash :: net).length = addr.length + 1 + net.length := by
    simp only [List.length_append, List.length_cons]
    omega
  have hlongest := longest_network matches_oldnet haddr hnet fun k hk hkl =>
    hrest.no_ip (List.ne_nil_of_length_pos (by rw [List.length_take]; omega))
  have hbest : bestRule bol (addr ++ slash :: net ++ rest) erules =
      some ((addr ++ slash :: net).length,
        { pattern := reOldnet, action := returnText .oldnet }) := by
    show bestRule bol _ (erules.take 7 ++ { pattern := reOldnet, action := returnText .oldnet } ::
      erules.drop 8) = _
    apply bestRule_first rfl hlongest
    · intro x hx m hm
      rw [hs] at hm
      have hx : x ∈ erules.take 6 ∨ x = { pattern := reNet, action := returnText .net } :=
        List.mem_append.1 hx |>.imp_right List.mem_singleton.1
      rcases hx with hx | rfl
      · have := before_le haddr hx hm
        omega
      -- the first part of the mask has a dot behind it
      · obtain ⟨addr', net', heq, haddr', hnet'⟩ :=
          matches_net.1 (Regex.longest_eq_some.1 hm).2.1
        obtain ⟨-, -, rfl⟩ := take_cut (ip_slashless haddr) (ip_slashless haddr') heq
        by_contra hlong
        have hdot : 46 ∈ (net ++ rest).take (m - (addr.length + 1)) := by
          rw [List.take_append, List.take_of_length_le (by omega)]
          exact List.mem_append_left _ (ip_dot hnet)
        have := hnet'.2.2 46 hdot
        revert this
        decide
    · intro x hx m hm
      rw [hs] at hm
      have := behind_le haddr hx hm
      omega
  have hshort : (addr ++ slash :: net).length < maxPathLen := by
    have := ip_length haddr
    have := ip_length hnet
    rw [hlen]
    show _ < 1024
    omega
  exact scan_copied hbest rfl (by simp) hshort (network_bytes haddr (ip_bytes hnet))

/-- What begins with a digit is an address, a network or a byte of its own. -/
theorem scan_digit {s : CStr} {b : UInt8} (hb : isDigit b = true) (bol : Bool) :
    ∃ l ls, scan 0 bol (b :: s) = l :: ls ∧
      (l.tok = .char b ∨ ∃ t, l.tok = .ip t ∨ l.tok = .net t ∨ l.tok = .oldnet t) := by
  have hany : anyRule.pattern.longest (b :: s) = some 1 := by
    refine Regex.longest_eq_some.2 ⟨by simp, matches_cls.2 ⟨b, rfl, ?_⟩, fun j hj hlen h => ?_⟩
    · exact bne_iff_ne.2 (digit_ne hb).2.1
    · obtain ⟨c, hc, -⟩ := matches_cls.1 h
      have := congrArg List.length hc
      rw [List.length_take, List.length_singleton] at this
      omega
  have hmem : anyRule ∈ erules := by simp [erules, anyRule]
  obtain ⟨n, x, hbest, hn⟩ : ∃ n x, bestRule bol (b :: s) erules = some (n, x) ∧ 1 ≤ n :=
    bestRule_le hmem rfl hany
  obtain ⟨hx, hlong⟩ := bestRule_mem hbest
  have hdull : x.pattern.next b ≠ [] := by
    intro h
    have := longest_dull h hlong
    omega
  have hsome : ∀ tok long, x.action ((b :: s).take n) = some (tok, long) →
      ∃ l ls, scan 0 bol (b :: s) = l :: ls ∧ l.tok = tok := fun tok long ha =>
    ⟨_, _, scan_token hbest (by omega) (by simp) ha, rfl⟩
  have hcases : x ∈ erules.take 5 ∨ x ∈ [({ pattern := reIp, action := returnText .ip } : ERule),
      { pattern := reNet, action := returnText .net },
      { pattern := reOldnet, action := returnText .oldnet }] ∨ x ∈ erules.drop 8 := by
    have hsplit : erules = erules.take 5 ++ ([{ pattern := reIp, action := returnText .ip },
      { pattern := reNet, action := returnText .net },
      { pattern := reOldnet, action := returnText .oldnet }] ++ erules.drop 8) := rfl
    rw [hsplit] at hx
    exact (List.mem_append.1 hx).imp_right List.mem_append.1
  rcases hcases with hx | hx | hx
  · exact absurd (dull_before hb hx) hdull
  · simp only [List.mem_cons, List.not_mem_nil, or_false] at hx
    rcases hx with rfl | rfl | rfl
    · obtain ⟨l, ls, hscan, htok⟩ := hsome _ _ rfl
      exact ⟨l, ls, hscan, .inr ⟨_, .inl htok⟩⟩
    · obtain ⟨l, ls, hscan, htok⟩ := hsome _ _ rfl
      exact ⟨l, ls, hscan, .inr ⟨_, .inr (.inl htok)⟩⟩
    · obtain ⟨l, ls, hscan, htok⟩ := hsome _ _ rfl
      exact ⟨l, ls, hscan, .inr ⟨_, .inr (.inr htok)⟩⟩
  · rcases dull_behind hb hx with hd | rfl
    · exact absurd hd hdull
    · obtain ⟨l, ls, hscan, htok⟩ := hsome (.char b) false (by
        obtain ⟨k, rfl⟩ : ∃ k, n = k + 1 := ⟨n - 1, by omega⟩
        rfl)
      exact ⟨l, ls, hscan, .inl htok⟩

end

/-! ## More than two digits -/

/-- A name that is followed by a digit is a syntax error. -/
theorem yyparse_digit (r : Resolver) (lines : Nat) (p : CStr) (k : Nat) (g : ECur) (bol : Bool)
    (s : CStr) {b : UInt8} (hb : isDigit b = true) :
    (yyparse r lines (.name p k) g (scan 0 bol (b :: s))).1.error = true := by
  obtain ⟨l, ls, hscan, htok⟩ := scan_digit (s := s) hb bol
  obtain ⟨-, h10, -⟩ := digit_ne hb
  have hadvance : (EPlace.name p k).advance l.tok = none := by
    rcases htok with h | ⟨t, h | h | h⟩
    · have h40 : b ≠ 40 := by
        rintro rfl
        revert hb
        decide
      rw [h]
      unfold EPlace.advance
      split <;> simp_all
    · rw [h]
      rfl
    · rw [h]
      rfl
    · rw [h]
      rfl
  have hend : l.tok.isEnd = false := by
    rcases htok with h | ⟨t, h | h | h⟩
    · have hnum := digit_num hb
      have h0 : b ≠ 0 := by
        rintro rfl
        simp at hnum
      have h128 : ¬ (128 : UInt8) ≤ b := by
        rw [UInt8.le_iff_toNat_le]
        show ¬ 128 ≤ b.toNat
        omega
      rw [h, EToken.isEnd]
      simp [h0, h128]
    · rw [h]
      rfl
    · rw [h]
      rfl
    · rw [h]
      rfl
  rw [hscan, yyparse, hend, hadvance, if_neg Bool.false_ne_true]
  rfl

/-- **A number of more than two digits** is a syntax error, whatever it is. -/
theorem long_rejected (r : Resolver) (lines : Nat) (p : CStr) (k : Nat) (g : ECur) (bol : Bool)
    {addr net rest : CStr} (haddr : reIp.Matches addr) (hnet : ∀ b ∈ net, isDigit b = true)
    (hlong : 2 < net.length) (hrest : NetEnds rest) :
    (yyparse r lines (.white p k) g (scan 0 bol (addr ++ slash :: net ++ rest))).1.error =
      true := by
  match net, hnet, hlong with
  | x :: y :: z :: net, hnet, _ =>
    have hcut : addr ++ slash :: (x :: y :: z :: net) ++ rest =
        addr ++ slash :: [x, y] ++ (z :: (net ++ rest)) := by simp
    have hscan : scan 0 bol (addr ++ slash :: [x, y] ++ (z :: (net ++ rest))) =
        { tok := .net (addr ++ slash :: [x, y]), long := false, unread := z :: (net ++ rest)
          bol := false } :: scan 0 false (z :: (net ++ rest)) := by
      refine scan_net haddr ⟨by simp, by simp, fun b hb => hnet b (by simp at hb ⊢; tauto)⟩
        ?_ (fun j => ?_) bol
      · rintro j hj - ⟨-, hlen, -⟩
        obtain ⟨j, rfl⟩ : ∃ i, j = i + 1 := ⟨j - 1, by omega⟩
        simp at hlen
      · have hno : ¬ reIp.Matches (((x :: y :: z :: net) ++ rest).take j) :=
          digits_no_ip hnet hrest j
        simpa using hno
    rw [hcut, hscan, yyparse]
    split
    · rename_i hend
      cases hend
    · dsimp only [EPlace.advance]
      split
      · rfl
      · exact yyparse_digit r _ p k _ false _ (hnet z (by simp))

/-! ## Masks -/

/-- `make_netmask` in words of `w` bits; `htonl` takes the last 32. -/
def netmaskWord (w bits : Nat) : BitVec w := Mask.zeros (32 - bits) (Mask.ones w bits)

/-- The loops compute the mask, whatever the width of `unsigned long` is. -/
theorem makeNetmask_loop {w : Nat} (hw : 32 ≤ w) (bits : Nat) :
    (makeNetmask bits).toBitVec = (netmaskWord w bits).setWidth 32 := by
  have hdvd : 2 ^ 32 ∣ 2 ^ w := Nat.pow_dvd_pow 2 hw
  apply BitVec.eq_of_toNat_eq
  rw [BitVec.toNat_setWidth, netmaskWord, Mask.toNat_zeros, Mask.toNat_ones, Nat.mod_mul_mod,
    Nat.mod_mod_of_dvd _ hdvd, makeNetmask]
  show (UInt32.ofNat _).toNat = _
  rw [UInt32.toNat_ofNat']
  split
  · rw [Nat.shiftLeft_eq]
  · have hzero : 32 - bits = 0 := by omega
    rw [hzero, Nat.pow_zero, Nat.mul_one]

theorem leading_makeNetmask {n : Nat} (hn : n ≤ 32) : Leading n (makeNetmask n).toBitVec := by
  rw [makeNetmask_loop le_rfl]
  exact Mask.leading_ones le_rfl hn

theorem value_digits {s : CStr} (h : Digits 2 s) : value s ≤ 99 := by
  obtain ⟨hne, hlen, hall⟩ := h
  match s, hne, hlen, hall with
  | [x], _, _, hall =>
    have := digit_num (hall x (by simp))
    simp [value]
    omega
  | [x, y], _, _, hall =>
    have := digit_num (hall x (by simp))
    have := digit_num (hall y (by simp))
    simp [value, Nat.ofDigits]
    omega

/-- The number of bits is what the digits say. -/
theorem strtolInt_digits {s : CStr} (h : Digits 2 s) : strtolInt s = value s := by
  have hval := value_digits h
  obtain ⟨hne, -, hall⟩ := h
  obtain ⟨b, t, rfl⟩ := List.exists_cons_of_ne_nil hne
  have hnum := digit_num (hall b (by simp))
  have hspace : isSpace b = false := by
    have h32 := (digit_ne (hall b (by simp))).2.2.1
    have h13 : ¬ b ≤ 13 := by
      rw [UInt8.le_iff_toNat_le]
      show ¬ b.toNat ≤ 13
      omega
    simp [isSpace, h32, h13]
  have hsign : b ≠ 45 ∧ b ≠ 43 := by
    constructor
    · rintro rfl
      simp at hnum
    · rintro rfl
      simp at hnum
  have hdrop : (b :: t).dropWhile isSpace = b :: t := List.dropWhile_cons_of_neg (by simp [hspace])
  have htake : (b :: t).takeWhile isDigit = b :: t := List.takeWhile_eq_self_iff.2 hall
  unfold strtolInt
  simp only [hdrop, List.head?_cons, Option.some_beq_some, beq_eq_false_iff_ne.2 hsign.1,
    beq_eq_false_iff_ne.2 hsign.2, Bool.or_self, Bool.false_eq_true, if_false, htake]
  omega

/-! ## The clients of a network -/

/-- A token for a network, the address in it, and its mask when the number of bits, or the mask
written in full, is one of the first bits of an address. -/
inductive IsNetwork : EToken → UInt32 → Option UInt32 → Prop
  | bits {addr net : CStr} {a m : UInt32} (haddr : reIp.Matches addr) (hnet : Digits 2 net)
      (ha : inetAton addr = some a) (hn : value net ≤ 32)
      (hm : Leading (value net) m.toBitVec) : IsNetwork (.net (addr ++ slash :: net)) a (some m)
  | beyond {addr net : CStr} {a : UInt32} (haddr : reIp.Matches addr) (hnet : Digits 2 net)
      (ha : inetAton addr = some a) (hn : 32 < value net) :
      IsNetwork (.net (addr ++ slash :: net)) a none
  | mask {addr net : CStr} {a m : UInt32} {n : Nat} (haddr : reIp.Matches addr)
      (hnet : reIp.Matches net) (ha : inetAton addr = some a) (hm : inetAton net = some m)
      (hn : n ≤ 32) (hlead : Leading n m.toBitVec) :
      IsNetwork (.oldnet (addr ++ slash :: net)) a (some m)

/-- What the manual says of a network: `find_host` finds its host for the clients that agree with
the address on the bits of the mask, and without a mask `e_error` is set. -/
def Denotes (tok : EToken) (a : UInt32) : Option UInt32 → Prop
  | some m => ∀ (r : Resolver) (os : List OptEntry) (g : ECur), g.host = {} →
    ∃ h, (HostEntry.run r g { name := some tok, opts := os }).hosts = g.hosts ++ [h] ∧
      (HostEntry.run r g { name := some tok, opts := os }).error = g.error ∧
      ∀ (remote : UInt32) (it : EItem), it.hosts = [h] →
        ((findHost remote it).isSome ↔ Agree m.toBitVec remote.toBitVec a.toBitVec)
  | none => ∀ (r : Resolver) (os : List OptEntry) (g : ECur), g.host = {} →
    (HostEntry.run r g { name := some tok, opts := os }).error = true

theorem cut_text {addr : CStr} (net : CStr) (h : slash ∉ addr) :
    (addr ++ slash :: net).takeWhile (· != slash) = addr ∧
      ((addr ++ slash :: net).dropWhile (· != slash)).tail = net := by
  have hall : ∀ b ∈ addr, (b != slash) = true := by
    intro b hb
    rw [bne_iff_ne]
    rintro rfl
    exact h hb
  rw [List.takeWhile_append_of_pos hall, List.dropWhile_append_of_pos hall]
  simp

/-- The host of a network has the address as it is written. -/
theorem run_network {r : Resolver} {tok : EToken} {h0 : EHost} (hname : nameHost r tok = some h0)
    (os : List OptEntry) {g : ECur} (hg : g.host = {}) :
    ∃ h, (HostEntry.run r g { name := some tok, opts := os }).hosts = g.hosts ++ [h] ∧
      (HostEntry.run r g { name := some tok, opts := os }).error = g.error ∧
      h.addr = h0.addr ∧ h.mask = h0.mask := by
  have hhost : HostEntry.host r { name := some tok, opts := os } =
      some (os.foldl (fun h o => o.apply h) h0) := by
    rw [HostEntry.host, Option.elim_some, hname, Option.map_some]
  have hsome : (some tok).elim (some {}) (nameHost r) = some h0 := hname
  have hset := foldl_apply_set os (nameHost_set hsome).2
  rw [HostEntry.run_eq hg hhost]
  exact ⟨_, rfl, rfl, hset.addr, hset.mask⟩

/-- `find_host` masks the client only. -/
theorem findHost_single {remote : UInt32} {it : EItem} {h : EHost} (hit : it.hosts = [h]) :
    (findHost remote it).isSome ↔ remote.toBitVec &&& h.mask.toBitVec = h.addr.toBitVec := by
  rw [findHost, hit, ← UInt32.toBitVec_and, UInt32.toBitVec_inj]
  by_cases hm : remote &&& h.mask = h.addr
  · simp [hm]
  · simp [hm]

theorem IsNetwork.nameHost {tok : EToken} {a m : UInt32} (h : IsNetwork tok a (some m))
    (r : Resolver) : ∃ h0, nameHost r tok = some h0 ∧ h0.addr = a ∧ h0.mask = m := by
  generalize hk : some m = k at h
  cases h with
  | @bits addr net a m' haddr hnet ha hn hm =>
    cases hk
    obtain ⟨hfront, hbehind⟩ := cut_text net (ip_slashless haddr)
    have hmask : makeNetmask (strtolInt net).toNat = m := by
      rw [strtolInt_digits hnet, Int.toNat_natCast, ← UInt32.toBitVec_inj]
      exact (leading_makeNetmask hn).unique hm
    refine ⟨_, by rw [NfsRods.nameHost, hfront, hbehind, ha, Option.map_some], rfl, hmask⟩
  | beyond => cases hk
  | @mask addr net a m' n haddr hnet ha hm hn hlead =>
    cases hk
    obtain ⟨hfront, hbehind⟩ := cut_text net (ip_slashless haddr)
    exact ⟨{ orig := addr ++ slash :: net, addr := a, mask := m },
      by simp [NfsRods.nameHost, hfront, hbehind, ha, hm], rfl, rfl⟩

theorem over_nameHost {addr net : CStr} {a : UInt32} (haddr : reIp.Matches addr)
    (ha : inetAton addr = some a) (r : Resolver) :
    ∃ h0, nameHost r (.net (addr ++ slash :: net)) = some h0 := by
  obtain ⟨hfront, -⟩ := cut_text net (ip_slashless haddr)
  exact ⟨_, by rw [nameHost, hfront, ha, Option.map_some]⟩

/-- **A network denotes its clients** exactly when its number of bits is at most 32 and its address
has no bits behind the mask; and a number that the scanner does not take for one because it has more
than two digits is rejected. -/
theorem network_iff (tok : EToken) (a : UInt32) (m : Option UInt32) (h : IsNetwork tok a m) :
    (Denotes tok a m ↔ ∃ k, m = some k ∧ a &&& k = a) ∧
    ∀ addr net rest : CStr, reIp.Matches addr → (∀ b ∈ net, isDigit b = true) → 2 < net.length →
      NetEnds rest → ∀ (r : Resolver) (lines : Nat) (p : CStr) (k : Nat) (g : ECur) (bol : Bool),
        (yyparse r lines (.white p k) g (scan 0 bol (addr ++ slash :: net ++ rest))).1.error =
          true := by
  refine ⟨?_, fun addr net rest haddr hnet hlong hrest r lines p k g bol =>
    long_rejected r lines p k g bol haddr hnet hlong hrest⟩
  cases m with
  | none =>
    refine iff_of_false (fun hden => ?_) (by simp)
    generalize hk : none = k at h
    cases h with
    | beyond haddr _ ha _ =>
      obtain ⟨h0, hname⟩ := over_nameHost haddr ha plainResolver
      obtain ⟨-, -, herr, -⟩ := run_network hname [] (g := {}) rfl
      rw [hden plainResolver [] {} rfl] at herr
      cases herr
    | bits => cases hk
    | mask => cases hk
  | some m =>
    have hlaw : (∀ x : BitVec 32, x &&& m.toBitVec = a.toBitVec ↔ Agree m.toBitVec x a.toBitVec) ↔
        ∃ k, some m = some k ∧ a &&& k = a := by
      rw [Mask.compare_iff, ← UInt32.toBitVec_and, UInt32.toBitVec_inj]
      simp
    rw [← hlaw]
    constructor
    · intro hden x
      obtain ⟨h0, hname, haddr, hmask⟩ := h.nameHost plainResolver
      obtain ⟨h', hhosts', -, ha', hm'⟩ := run_network hname [] (g := {}) rfl
      obtain ⟨h1, hhosts, -, hfind⟩ := hden plainResolver [] {} rfl
      obtain rfl : h1 = h' := by simpa using hhosts.symm.trans hhosts'
      have hx := hfind (UInt32.ofBitVec x) { path := [], orig := [], hosts := [h1] } rfl
      rw [findHost_single rfl, ha', hm', haddr, hmask] at hx
      exact hx
    · intro hbits r os g hg
      obtain ⟨h0, hname, haddr, hmask⟩ := h.nameHost r
      obtain ⟨h1, hhosts, herr, ha, hm⟩ := run_network hname os hg
      refine ⟨h1, hhosts, herr, fun remote it hit => ?_⟩
      rw [findHost_single hit, ha, hm, haddr, hmask]
      exact hbits remote.toBitVec

theorem ip_of_parts {a b c d : CStr} (ha : Digits 3 a) (hb : Digits 3 b) (hc : Digits 3 c)
    (hd : Digits 3 d) : reIp.Matches (a ++ 46 :: (b ++ 46 :: (c ++ 46 :: d))) :=
  matches_ip.2 ⟨a, b, c, d, rfl, ha, hb, hc, hd⟩

instance (n : Nat) (s : CStr) : Decidable (Digits n s) := by unfold Digits; infer_instance

/-- The network that begins with 10. -/
theorem network_ten : Denotes (.net (lit "10.0.0.0/8")) 0x0a000000 (some 0xff000000) := by
  have hip : reIp.Matches (lit "10.0.0.0") :=
    ip_of_parts (a := lit "10") (b := lit "0") (c := lit "0") (d := lit "0") (by decide) (by decide)
      (by decide) (by decide)
  have hnet : IsNetwork (.net (lit "10.0.0.0/8")) 0x0a000000 (some 0xff000000) :=
    @IsNetwork.bits (lit "10.0.0.0") (lit "8") _ _ hip (by decide) (by decide +kernel) (by decide)
      (by unfold Leading; decide)
  exact (network_iff _ _ _ hnet).1.2 ⟨_, rfl, by decide⟩

/-- **A network given by one of its addresses** has no client, not even the one with that address,
and with 33 bits it is taken as an address. No error is raised. -/
theorem network_host_bits :
    IsNetwork (.net (lit "1.2.3.4/24")) 0x01020304 (some 0xffffff00) ∧
    IsNetwork (.net (lit "1.2.3.4/33")) 0x01020304 none ∧
    (exportsParse plainResolver blockAhead false (some (lit "/e 1.2.3.4/24\n")) {}).cur.error =
      false ∧
    (∀ remote, (exportsOptions (exportsParse plainResolver blockAhead false
      (some (lit "/e 1.2.3.4/24\n")) {}).list remote (some (lit "/e")) {}).vars.opts = none) ∧
    (exportsParse plainResolver blockAhead false (some (lit "/e 1.2.3.4/33\n")) {}).cur.error =
      false ∧
    (exportsOptions (exportsParse plainResolver blockAhead false (some (lit "/e 1.2.3.4/33\n"))
      {}).list 0x01020304 (some (lit "/e")) {}).vars.opts = some {} := by
  have hip : reIp.Matches (lit "1.2.3.4") :=
    ip_of_parts (a := lit "1") (b := lit "2") (c := lit "3") (d := lit "4") (by decide) (by decide)
      (by decide) (by decide)
  have hlist : (exportsParse plainResolver blockAhead false (some (lit "/e 1.2.3.4/24\n"))
      {}).list = [{ path := lit "/e", orig := lit "/e", hosts := [{ orig := lit "1.2.3.4/24"
                                                                    addr := 0x01020304
                                                                    mask := 0xffffff00 }] }] := by
    decide +kernel
  have hbits : IsNetwork (.net (lit "1.2.3.4/24")) 0x01020304 (some 0xffffff00) :=
    @IsNetwork.bits (lit "1.2.3.4") (lit "24") _ _ hip (by decide) (by decide +kernel) (by decide)
      (by unfold Leading; decide)
  have hover : IsNetwork (.net (lit "1.2.3.4/33")) 0x01020304 none :=
    @IsNetwork.beyond (lit "1.2.3.4") (lit "33") _ hip (by decide) (by decide +kernel) (by decide)
  refine ⟨hbits, hover, by decide +kernel, fun remote => ?_, by decide +kernel,
    by decide +kernel⟩
  rw [hlist, ← Option.not_isSome_iff_eq_none, exportsOptions_isSome]
  rintro ⟨-, it, hit, -, -, hfind⟩
  obtain rfl := List.mem_singleton.1 hit
  have heq := (findHost_single rfl).1 hfind
  have hmasked := congrArg (· &&& (0xffffff00 : UInt32).toBitVec) heq
  rw [BitVec.and_assoc, BitVec.and_self, heq] at hmasked
  exact absurd hmasked (by decide)

end NfsRods
