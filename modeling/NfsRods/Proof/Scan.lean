import NfsRods.Config.Scan

/-!
# What the scanner matches

`yylex` runs all patterns of `exports.l` over the input at once and keeps the last length at which
one of them was complete.

* `Regex.longest_eq_some`: that is the length of the longest prefix that a pattern matches.
* `bestRule_first`: the rule that matches more than those before it and no less than those behind it
  wins.
* `scan_token`: a scan begins with the token of the rule that wins; `mem_scan`: there are no others.
-/

namespace NfsRods

open CStr

namespace Regex

/-- The strings a pattern matches. -/
inductive Matches : Regex → CStr → Prop
  | eps : Matches eps []
  | cls {p : UInt8 → Bool} {b : UInt8} (h : p b = true) : Matches (cls p) [b]
  | seq {r t : Regex} {s u : CStr} : Matches r s → Matches t u → Matches (seq r t) (s ++ u)
  | left {r t : Regex} {s : CStr} : Matches r s → Matches (alt r t) s
  | right {r t : Regex} {s : CStr} : Matches t s → Matches (alt r t) s
  | stop {r : Regex} : Matches (star r) []
  | more {r : Regex} {s u : CStr} : Matches r s → Matches (star r) u → Matches (star r) (s ++ u)

variable {r t : Regex} {p : UInt8 → Bool} {b : UInt8} {s u : CStr}

/-! ## The patterns' constructors -/

theorem matches_eps : Matches eps s ↔ s = [] := by
  constructor
  · intro h
    cases h
    rfl
  · rintro rfl
    exact .eps

theorem matches_cls : Matches (cls p) s ↔ ∃ b, s = [b] ∧ p b = true := by
  constructor
  · intro h
    cases h with
    | cls h => exact ⟨_, rfl, h⟩
  · rintro ⟨b, rfl, h⟩
    exact .cls h

theorem matches_seq : Matches (seq r t) s ↔ ∃ u v, s = u ++ v ∧ Matches r u ∧ Matches t v := by
  constructor
  · intro h
    cases h with
    | seq hr ht => exact ⟨_, _, rfl, hr, ht⟩
  · rintro ⟨u, v, rfl, hr, ht⟩
    exact .seq hr ht

theorem matches_alt : Matches (alt r t) s ↔ Matches r s ∨ Matches t s := by
  constructor
  · intro h
    cases h with
    | left h => exact .inl h
    | right h => exact .inr h
  · rintro (h | h)
    · exact .left h
    · exact .right h

/-! ## Runs -/

theorem nullable_iff : r.nullable = true ↔ Matches r [] := by
  induction r with
  | eps => simp [nullable, matches_eps]
  | cls p => simp [nullable, matches_cls]
  | seq r t hr ht =>
    rw [nullable, Bool.and_eq_true, hr, ht, matches_seq]
    constructor
    · rintro ⟨hr, ht⟩
      exact ⟨[], [], rfl, hr, ht⟩
    · rintro ⟨u, v, huv, hr, ht⟩
      obtain ⟨rfl, rfl⟩ := List.append_eq_nil_iff.1 huv.symm
      exact ⟨hr, ht⟩
  | alt r t hr ht => rw [nullable, Bool.or_eq_true, hr, ht, matches_alt]
  | star r => exact iff_of_true rfl .stop

/-- A repetition that matches a byte and more begins with a piece that is not empty. -/
theorem matches_star_cons : Matches (star r) (b :: s) ↔
    ∃ u v, s = u ++ v ∧ Matches r (b :: u) ∧ Matches (star r) v := by
  constructor
  · intro h
    generalize hr : star r = r' at h
    generalize hs : b :: s = s' at h
    induction h with
    | @more _ u v hfirst hrest _ ih =>
      cases hr
      cases u with
      | nil => exact ih rfl hs
      | cons c u =>
        cases hs
        exact ⟨u, v, rfl, hfirst, hrest⟩
    | stop => cases hs
    | _ => cases hr
  · rintro ⟨u, v, rfl, hr, hv⟩
    exact .more hr hv

/-- The patterns that remain after a byte match what the pattern matches behind it. -/
theorem next_iff : (∃ t ∈ r.next b, Matches t s) ↔ Matches r (b :: s) := by
  induction r generalizing s with
  | eps => simp [next, matches_eps]
  | cls p =>
    rw [next, matches_cls]
    split
    · rename_i hb
      simp [matches_eps, hb]
    · rename_i hb
      simp [hb]
  | seq r t hr ht =>
    simp only [next, List.mem_append, List.mem_map, or_and_right, exists_or]
    rw [matches_seq]
    constructor
    · rintro (⟨_, ⟨r', hr', rfl⟩, h⟩ | ⟨t', ht', h⟩)
      · obtain ⟨u, v, rfl, hu, hv⟩ := matches_seq.1 h
        exact ⟨b :: u, v, rfl, hr.1 ⟨r', hr', hu⟩, hv⟩
      · split at ht'
        · rename_i hnull
          exact ⟨[], b :: s, rfl, nullable_iff.1 hnull, ht.1 ⟨t', ht', h⟩⟩
        · cases ht'
    · rintro ⟨u, v, huv, hu, hv⟩
      cases u with
      | nil =>
        obtain rfl : v = b :: s := huv.symm
        obtain ⟨t', ht', h⟩ := ht.2 hv
        exact .inr ⟨t', by rwa [if_pos (nullable_iff.2 hu)], h⟩
      | cons c u =>
        cases huv
        obtain ⟨r', hr', h⟩ := hr.2 hu
        exact .inl ⟨_, ⟨r', hr', rfl⟩, .seq h hv⟩
  | alt r t hr ht =>
    simp only [next, List.mem_append, or_and_right, exists_or]
    rw [hr, ht, matches_alt]
  | star r hr =>
    simp only [next, List.mem_map]
    rw [matches_star_cons]
    constructor
    · rintro ⟨_, ⟨r', hr', rfl⟩, h⟩
      obtain ⟨u, v, rfl, hu, hv⟩ := matches_seq.1 h
      exact ⟨u, v, rfl, hr.1 ⟨r', hr', hu⟩, hv⟩
    · rintro ⟨u, v, rfl, hu, hv⟩
      obtain ⟨r', hr', h⟩ := hr.2 hu
      exact ⟨_, ⟨r', hr', rfl⟩, .seq h hv⟩

/-- One of the patterns matches the first `k` bytes. -/
def Hits (rs : List Regex) (s : CStr) (k : Nat) : Prop :=
  k ≤ s.length ∧ ∃ r ∈ rs, Matches r (s.take k)

theorem hits_zero {rs : List Regex} : Hits rs s 0 ↔ rs.any nullable = true := by
  simp [Hits, nullable_iff]

theorem hits_cons {rs : List Regex} {k : Nat} :
    Hits rs (b :: s) (k + 1) ↔ Hits (rs.flatMap (next b)) s k := by
  simp only [Hits, List.length_cons, Nat.add_le_add_iff_right, List.take_succ_cons,
    List.mem_flatMap, and_congr_right_iff]
  intro _
  constructor
  · rintro ⟨r, hr, h⟩
    obtain ⟨t, ht, h⟩ := next_iff.2 h
    exact ⟨t, ⟨r, hr, ht⟩, h⟩
  · rintro ⟨t, ⟨r, hr, ht⟩, h⟩
    exact ⟨r, hr, next_iff.1 ⟨t, ht, h⟩⟩

/-- What a run makes of the length that is best so far. -/
theorem runs_spec (rs : List Regex) (n : Nat) (best : Option Nat) (s : CStr) :
    (∃ k, Hits rs s k ∧ (∀ j, k < j → ¬ Hits rs s j) ∧ runs rs n best s = some (n + k)) ∨
      (∀ j, ¬ Hits rs s j) ∧ runs rs n best s = best := by
  induction s generalizing rs n best with
  | nil =>
    have hlong : ∀ j, 0 < j → ¬ Hits rs [] j := fun j hj h => absurd h.1 (by simp; omega)
    by_cases hz : rs.any nullable = true
    · exact .inl ⟨0, hits_zero.2 hz, hlong, by rw [runs, if_pos hz]; rfl⟩
    · refine .inr ⟨fun j => ?_, by rw [runs, if_neg hz]⟩
      cases j with
      | zero => exact fun h => hz (hits_zero.1 h)
      | succ j => exact hlong _ (Nat.succ_pos j)
  | cons b s ih =>
    -- what is matched without a byte, and what is matched with the first
    have hrun : runs rs n best (b :: s) = runs (rs.flatMap (next b)) (n + 1)
        (if rs.any nullable then some n else best) s := by
      rw [runs]
      cases hrs : rs.flatMap (next b) with
      | nil =>
        rcases ih [] (n + 1) (if rs.any nullable then some n else best) with
          ⟨k, ⟨_, r, hr, _⟩, _⟩ | ⟨_, h⟩
        · cases hr
        · rw [h]
      | cons r rs' => rfl
    rw [hrun]
    rcases ih (rs.flatMap (next b)) (n + 1) (if rs.any nullable then some n else best) with
      ⟨k, hk, hmax, h⟩ | ⟨hno, h⟩
    · refine .inl ⟨k + 1, hits_cons.2 hk, fun j hj => ?_, by rw [h]; congr 1; omega⟩
      obtain ⟨j, rfl⟩ : ∃ i, j = i + 1 := ⟨j - 1, by omega⟩
      exact fun hj' => hmax j (by omega) (hits_cons.1 hj')
    · have hpos : ∀ j, 0 < j → ¬ Hits rs (b :: s) j := by
        intro j hj
        obtain ⟨j, rfl⟩ : ∃ i, j = i + 1 := ⟨j - 1, by omega⟩
        exact fun hj' => hno j (hits_cons.1 hj')
      rw [h]
      by_cases hz : rs.any nullable = true
      · exact .inl ⟨0, hits_zero.2 hz, hpos, by rw [if_pos hz]; rfl⟩
      · refine .inr ⟨fun j => ?_, by rw [if_neg hz]⟩
        cases j with
        | zero => exact fun h => hz (hits_zero.1 h)
        | succ j => exact hpos _ (Nat.succ_pos j)

/-- **The longest match.** -/
theorem longest_eq_some {k : Nat} : r.longest s = some k ↔
    k ≤ s.length ∧ Matches r (s.take k) ∧
      ∀ j, k < j → j ≤ s.length → ¬ Matches r (s.take j) := by
  have hits : ∀ j, Hits [r] s j ↔ j ≤ s.length ∧ Matches r (s.take j) := by simp [Hits]
  rw [longest]
  rcases runs_spec [r] 0 none s with ⟨m, hm, hmax, h⟩ | ⟨hno, h⟩
  · rw [h, Nat.zero_add, Option.some.injEq]
    rw [hits] at hm
    constructor
    · rintro rfl
      exact ⟨hm.1, hm.2, fun j hj hlen h => hmax j hj ((hits j).2 ⟨hlen, h⟩)⟩
    · rintro ⟨hlen, hk, hlong⟩
      rcases lt_trichotomy m k with hlt | heq | hlt
      · exact absurd ((hits k).2 ⟨hlen, hk⟩) (hmax k hlt)
      · exact heq
      · exact absurd hm.2 (hlong m hlt hm.1)
  · rw [h]
    exact iff_of_false (by simp) fun hk => hno k ((hits k).2 ⟨hk.1, hk.2.1⟩)

end Regex

/-! ## The rules -/

section
variable {bol : Bool} {s : CStr} {n : Nat} {r : ERule}

theorem bestRule_mem {rs : List ERule} (h : bestRule bol s rs = some (n, r)) :
    r ∈ rs ∧ r.pattern.longest s = some n := by
  induction rs generalizing n r with
  | nil => cases h
  | cons x rs ih =>
    have hx : ∀ {m : Nat}, (if x.bol && !bol then none else x.pattern.longest s) = some m →
        x.pattern.longest s = some m := by
      intro m hm
      split at hm
      · cases hm
      · exact hm
    rw [bestRule] at h
    split at h
    · exact ⟨List.mem_cons_of_mem x (ih h).1, (ih h).2⟩
    · rename_i hm _
      cases h
      exact ⟨List.mem_cons_self, hx hm⟩
    · rename_i hm hrest
      split at h
      · cases h
        exact ⟨List.mem_cons_of_mem x (ih hrest).1, (ih hrest).2⟩
      · cases h
        exact ⟨List.mem_cons_self, hx hm⟩

/-- **The rule that wins** matches more than those before it and no less than those behind it. -/
theorem bestRule_first {pre post : List ERule} (hbol : r.bol = false)
    (hn : r.pattern.longest s = some n)
    (hpre : ∀ x ∈ pre, ∀ m, x.pattern.longest s = some m → m < n)
    (hpost : ∀ x ∈ post, ∀ m, x.pattern.longest s = some m → m ≤ n) :
    bestRule bol s (pre ++ r :: post) = some (n, r) := by
  induction pre with
  | nil =>
    rw [List.nil_append, bestRule, hbol, Bool.false_and, if_neg Bool.false_ne_true, hn]
    cases hbest : bestRule bol s post with
    | none => rfl
    | some x =>
      obtain ⟨m, y⟩ := x
      obtain ⟨hy, hm⟩ := bestRule_mem hbest
      have := hpost y hy m hm
      show (if n < m then some (m, y) else some (n, r)) = _
      rw [if_neg (by omega)]
  | cons x pre ih =>
    rw [List.cons_append, bestRule, ih fun y hy => hpre y (List.mem_cons_of_mem x hy)]
    cases hx : (if x.bol && !bol then none else x.pattern.longest s) with
    | none => rfl
    | some m =>
      have hm : x.pattern.longest s = some m := by
        split at hx
        · cases hx
        · exact hx
      have := hpre x List.mem_cons_self m hm
      show (if m < n then some (n, r) else some (m, x)) = _
      rw [if_pos this]

/-- The rule that wins matches as much as any. -/
theorem bestRule_le {rs : List ERule} {x : ERule} (hx : x ∈ rs) (hbol : x.bol = false) {m : Nat}
    (hm : x.pattern.longest s = some m) : ∃ n r, bestRule bol s rs = some (n, r) ∧ m ≤ n := by
  induction rs with
  | nil => cases hx
  | cons y rs ih =>
    rw [bestRule]
    rcases List.mem_cons.1 hx with rfl | hx
    · rw [hbol, Bool.false_and, if_neg Bool.false_ne_true, hm]
      cases bestRule bol s rs with
      | none => exact ⟨m, x, rfl, le_rfl⟩
      | some z =>
        obtain ⟨k, z⟩ := z
        show ∃ n r, (if m < k then some (k, z) else some (m, x)) = some (n, r) ∧ m ≤ n
        split
        · exact ⟨k, z, rfl, by omega⟩
        · exact ⟨m, x, rfl, le_rfl⟩
    · obtain ⟨n, r, hbest, hle⟩ := ih hx
      rw [hbest]
      cases (if y.bol && !bol then none else y.pattern.longest s) with
      | none => exact ⟨n, r, rfl, hle⟩
      | some k =>
        show ∃ n' r', (if k < n then some (n, r) else some (k, y)) = some (n', r') ∧ m ≤ n'
        split
        · exact ⟨n, r, rfl, hle⟩
        · exact ⟨k, y, rfl, by omega⟩

/-! ## A scan -/

theorem scan_skip (k : Nat) (bol : Bool) (s : CStr) : scan k bol s = scan 0 bol (s.drop k) := by
  induction k generalizing s with
  | zero => rw [List.drop_zero]
  | succ k ih =>
    cases s with
    | nil => rw [List.drop_nil, scan, scan]
    | cons b s => rw [scan, ih, List.drop_succ_cons]

/-- The first token of a scan. -/
theorem scan_token {tok : EToken} {long : Bool} (h : bestRule bol s erules = some (n, r))
    (hn : 0 < n) (hs : s ≠ []) (ha : r.action (s.take n) = some (tok, long)) :
    scan 0 bol s =
      { tok := tok, long := long, unread := s.drop n, bol := (s.take n).getLast? == some 10 } ::
        scan 0 ((s.take n).getLast? == some 10) (s.drop n) := by
  obtain ⟨b, s, rfl⟩ := List.exists_cons_of_ne_nil hs
  obtain ⟨n, rfl⟩ : ∃ m, n = m + 1 := ⟨n - 1, by omega⟩
  rw [scan, h]
  dsimp only
  rw [ha, scan_skip]
  rfl

/-- A token is what some rule makes of some text. -/
theorem mem_scan {l : Lexeme} {k : Nat} (h : l ∈ scan k bol s) :
    ∃ r ∈ erules, ∃ t, r.action t = some (l.tok, l.long) := by
  induction s generalizing k bol with
  | nil => simp [scan] at h
  | cons b s ih =>
    cases k with
    | succ k => exact ih h
    | zero =>
      rw [scan] at h
      split at h
      · cases h
      · rename_i n r hbest
        dsimp only at h
        split at h
        · exact ih h
        · rename_i tok long ha
          rcases List.mem_cons.1 h with rfl | h
          · exact ⟨r, (bestRule_mem hbest).1, _, ha⟩
          · exact ih h

end

theorem copyText_length (text : CStr) : (copyText text).1.length < maxPathLen := by
  refine (List.takeWhile_sublist _).length_le.trans_lt ?_
  split
  · rw [List.length_take]
    have : 0 < maxPathLen := by decide
    omega
  · omega

/-- **A name fits**: the scanner cuts what is longer. -/
theorem path_length {l : Lexeme} {k : Nat} {bol : Bool} {s p : CStr} (h : l ∈ scan k bol s)
    (hp : l.tok = .path p) : p.length < maxPathLen := by
  obtain ⟨r, hr, t, ha⟩ := mem_scan h
  rw [hp] at ha
  simp only [erules, List.mem_cons, List.not_mem_nil, or_false] at hr
  rcases hr with rfl | rfl | rfl | rfl | rfl | rfl | rfl | rfl | rfl | rfl | rfl | rfl | rfl | rfl |
    rfl <;> simp only [returnText, Option.some.injEq, Prod.mk.injEq, reduceCtorEq, false_and,
      EToken.path.injEq] at ha
  -- a quoted name and a plain one
  · exact ha.1 ▸ copyText_length _
  · exact ha.1 ▸ copyText_length _

end NfsRods
