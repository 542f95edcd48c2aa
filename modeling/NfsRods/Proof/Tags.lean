import NfsRods.Cluster
import NfsRods.Lib.ByteOrder

/-!
# Tagged files and the order of their names

The manual gives the kinds of tags in an order and says that the first kind counts of which the
directory has a tagged file for the client (`ClusterQuery.Documented`). The code goes through the
names from the last one on, so that the order of the kinds has to be that of the bytes.

* `ClusterQuery.gives_tag`, `ClusterQuery.tag_cases`: the tests of the loop against the kinds.
* `networkTag_lt`, `ClusterQuery.gives_lt`: the tags of a name are in the order of the kinds, but
  for the tag of a network whose address is the client's, and for host names.
-/

namespace NfsRods

open CStr

/-! ## What the manual says -/

/-- The kinds of tags, in the order of the manual. (The first one there, `$$$$`, is taken off the
path before the lookup.) -/
inductive TagKind
  | ip | network | host | hostPrefix | client | alwaysIp | alwaysClient | dirAlwaysClient
  | dirAlwaysIp
  deriving DecidableEq, Repr

/-- The place of a kind in the order. -/
def TagKind.place : TagKind → Nat
  | ip => 0
  | network => 1
  | host => 2
  | hostPrefix => 3
  | client => 4
  | alwaysIp => 5
  | alwaysClient => 6
  | dirAlwaysClient => 7
  | dirAlwaysIp => 8

/-- The address of the network of `n` bits that an address is in. -/
def netOf (remote : UInt32) (n : Nat) : UInt32 :=
  UInt32.ofNat (remote.toNat / 2 ^ (32 - n) * 2 ^ (32 - n))

/-- The tag of a network. -/
def networkTag (remote : UInt32) (n : Nat) : CStr :=
  lit "$$IP=" ++ (inetNtoa (netOf remote n) ++ 95 :: (decimal n ++ lit "$$"))

/-- The tag of a host name or pattern. -/
def hostTag (name : CStr) : CStr := hostMark ++ (name ++ lit "$$")

/-- The name has a host tag already, and is not that of a normal file. -/
def HostTagged (name : CStr) : Prop := ∃ file host, name = file ++ hostTag host

/-- A lookup: the path, the client and its name, and the names in the directory. -/
structure ClusterQuery where
  path : CStr
  remote : UInt32
  hname : Option CStr
  dir : List CStr

namespace ClusterQuery

/-- The name that is looked up. -/
def master (q : ClusterQuery) : CStr := clusterBasename q.path

/-- The entry has a tag of this kind for the client, by which the suffix is appended. -/
def Gives (q : ClusterQuery) (entry suffix : CStr) : TagKind → Prop
  | .ip => suffix = ipTag (inetNtoa q.remote) ∧ entry = q.master ++ suffix
  | .network => (∃ n, (n = 24 ∨ n = 16 ∨ n = 8) ∧ suffix = networkTag q.remote n) ∧
      entry = q.master ++ suffix
  | .host => ¬ HostTagged q.master ∧ (∃ h, q.hname = some h ∧ suffix = hostTag h) ∧
      entry = q.master ++ suffix
  | .hostPrefix => ¬ HostTagged q.master ∧
      (∃ h p, q.hname = some h ∧ p <+: h ∧ suffix = hostTag (p ++ [42])) ∧
      entry = q.master ++ suffix
  | .client => suffix = clientTag ∧ entry = q.master ++ suffix
  | .alwaysIp => suffix = ipTag (inetNtoa q.remote) ∧ entry = q.master ++ alwaysIpTag
  | .alwaysClient => suffix = clientTag ∧ entry = q.master ++ alwaysClientTag
  | .dirAlwaysClient => suffix = clientTag ∧ entry = alwaysClientTag
  | .dirAlwaysIp => suffix = ipTag (inetNtoa q.remote) ∧ entry = alwaysIpTag

/-- The directory has an entry with a tag of this kind. -/
def Present (q : ClusterQuery) (k : TagKind) : Prop := ∃ e ∈ q.dir, ∃ s, q.Gives e s k

/-- This is the first kind that the directory has. -/
def First (q : ClusterQuery) (k : TagKind) : Prop :=
  q.Present k ∧ ∀ k', k'.place < k.place → ¬ q.Present k'

/-- The suffix to append: that of an entry with a tag of the first kind. -/
def Documented (q : ClusterQuery) : Option CStr → Prop
  | none => ∀ k, ¬ q.Present k
  | some s => ∃ k, q.First k ∧ ∃ e ∈ q.dir, q.Gives e s k

end ClusterQuery

/-- The lookup does what the manual says. -/
def RedirectsAsDocumented (w : ClusterWorld) (q : ClusterQuery) : Prop :=
  ∃ r, q.Documented r ∧ clusterLookupLowlevel w q.path q.remote = some (appendSuffix q.path r)

/-! ## Addresses -/

theorem keepDots_succ {x : CStr} (hx : 46 ∉ x) (n : Nat) (s : CStr) :
    keepDots (n + 1) (x ++ 46 :: s) = x ++ 46 :: keepDots n s := by
  have hall : ∀ b ∈ x, decide (b ≠ 46) = true := by
    intro b hb
    simp only [decide_eq_true_eq]
    rintro rfl
    exact hx hb
  rw [keepDots, List.takeWhile_append_of_pos hall, List.dropWhile_append_of_pos hall]
  simp

/-- A network keeps the first bytes of an address. -/
theorem netOf_byte (remote : UInt32) {m i : Nat} (hm : m = 1 ∨ m = 2 ∨ m = 3) (hi : i < 4) :
    addressByte (netOf remote (8 * m)) i = if i < m then addressByte remote i else 0 := by
  have hlt := remote.toNat_lt
  obtain rfl | rfl | rfl | rfl : i = 0 ∨ i = 1 ∨ i = 2 ∨ i = 3 := by omega
  all_goals
    obtain rfl | rfl | rfl := hm
    all_goals
      simp only [addressByte, netOf, UInt32.toNat_ofNat', Nat.reduceMul, Nat.reduceSub,
        Nat.reducePow, Nat.reduceLT, ↓reduceIte]
      omega

/-- `cluster_netmask` makes the tag of the network. -/
theorem clusterNetmask_eq (remote : UInt32) {m : Nat} (hm : m = 1 ∨ m = 2 ∨ m = 3) :
    clusterNetmask (inetNtoa remote) m = networkTag remote (8 * m) := by
  have hbyte : ∀ i < 4, addressByte (netOf remote (8 * m)) i =
      if i < m then addressByte remote i else 0 := fun i hi => netOf_byte remote hm hi
  have hdots := fun n i s => keepDots_succ (dot_not_mem_decimal (addressByte remote i)) n s
  have h0 : decimal 0 = lit "0" := by decide +kernel
  rw [networkTag, inetNtoa, inetNtoa, hbyte 0 (by decide), hbyte 1 (by decide),
    hbyte 2 (by decide), hbyte 3 (by decide)]
  obtain rfl | rfl | rfl := hm
  · have h8 : decimal (8 * 1) = lit "8" := by decide +kernel
    rw [clusterNetmask, hdots 0, h8]
    simp [keepDots, h0, lit]
  · have h16 : decimal (8 * 2) = lit "16" := by decide +kernel
    rw [clusterNetmask, hdots 1, hdots 0, h16]
    simp [keepDots, h0, lit]
  · have h24 : decimal (8 * 3) = lit "24" := by decide +kernel
    rw [clusterNetmask, hdots 2, hdots 1, hdots 0, h24]
    simp [keepDots, h0, lit]

/-- A number that is not 0 begins with a greater digit. -/
theorem decimal_head {n : Nat} (hn : n < 256) (h0 : 0 < n) :
    ∃ c s, decimal n = c :: s ∧ (48 : UInt8) < c := by
  have h : ∀ n < 256, 0 < n → (decimal n).head?.any (fun c => decide (48 < c)) = true := by
    decide +kernel
  have hn := h n hn h0
  cases hd : decimal n with
  | nil => simp [hd] at hn
  | cons c s => exact ⟨c, s, rfl, by simpa [hd] using hn⟩

/-- Two addresses differ in a byte. -/
theorem address_ext {a b : UInt32} (h : ∀ i < 4, addressByte a i = addressByte b i) : a = b := by
  apply inetNtoa_inj
  rw [inetNtoa, inetNtoa, h 0 (by decide), h 1 (by decide), h 2 (by decide), h 3 (by decide)]

/-- An address is before another one if it has a 0 where they differ first. -/
theorem inetNtoa_lt {a b : UInt32} {i : Nat} (hi : i < 4)
    (hsame : ∀ j < i, addressByte a j = addressByte b j) (hzero : addressByte a i = 0)
    (hpos : 0 < addressByte b i) (x y : CStr) : inetNtoa a ++ x < inetNtoa b ++ y := by
  have hbyte : ∀ u v : CStr, decimal (addressByte a i) ++ u < decimal (addressByte b i) ++ v := by
    intro u v
    have hbound : addressByte b i < 256 := Nat.mod_lt _ (by decide)
    obtain ⟨c, s, hc, hlt⟩ := decimal_head hbound hpos
    have h0 : decimal 0 = [48] := by decide +kernel
    rw [hc, hzero, h0]
    exact append_lt_append (a := []) hlt
  simp only [inetNtoa, List.append_assoc, List.cons_append]
  obtain rfl | rfl | rfl | rfl : i = 0 ∨ i = 1 ∨ i = 2 ∨ i = 3 := by omega
  · exact hbyte _ _
  · rw [hsame 0 (by decide)]
    exact List.append_left_lt (List.cons_lt_cons_iff.2 (.inr ⟨rfl, hbyte _ _⟩))
  · rw [hsame 0 (by decide), hsame 1 (by decide)]
    refine List.append_left_lt (List.cons_lt_cons_iff.2 (.inr ⟨rfl, ?_⟩))
    exact List.append_left_lt (List.cons_lt_cons_iff.2 (.inr ⟨rfl, hbyte _ _⟩))
  · rw [hsame 0 (by decide), hsame 1 (by decide), hsame 2 (by decide)]
    refine List.append_left_lt (List.cons_lt_cons_iff.2 (.inr ⟨rfl, ?_⟩))
    refine List.append_left_lt (List.cons_lt_cons_iff.2 (.inr ⟨rfl, ?_⟩))
    exact List.append_left_lt (List.cons_lt_cons_iff.2 (.inr ⟨rfl, hbyte _ _⟩))

/-- The tag of a network is before that of the address, unless it is that of the network. -/
theorem networkTag_lt (remote : UInt32) {m : Nat} (hm : m = 1 ∨ m = 2 ∨ m = 3)
    (hne : netOf remote (8 * m) ≠ remote) :
    networkTag remote (8 * m) < ipTag (inetNtoa remote) := by
  have hdiff : ∃ i, i < 4 ∧ addressByte (netOf remote (8 * m)) i ≠ addressByte remote i := by
    by_contra hno
    exact hne (address_ext fun i hi => by_contra fun h => hno ⟨i, hi, h⟩)
  obtain ⟨hi, hbyte⟩ := Nat.find_spec hdiff
  have hbefore : ∀ j < Nat.find hdiff,
      addressByte (netOf remote (8 * m)) j = addressByte remote j := by
    intro j hj
    by_contra h
    exact Nat.find_min hdiff hj ⟨by omega, h⟩
  have hnet := netOf_byte remote hm hi
  have him : ¬ Nat.find hdiff < m := by
    intro him
    rw [if_pos him] at hnet
    exact hbyte hnet
  rw [if_neg him] at hnet
  rw [networkTag, ipTag, List.append_assoc]
  exact List.append_left_lt (inetNtoa_lt hi hbefore hnet (by omega) _ _)

/-! ## The tags of a name -/

/-- The letter after the dollars of a tag. -/
def Lettered (c : UInt8) (t : CStr) : Prop := ∃ x, t = lit "$$" ++ c :: x

theorem ip_lettered (remote : CStr) : Lettered 73 (ipTag remote) :=
  ⟨lit "P=" ++ remote ++ lit "$$", rfl⟩

theorem network_lettered (remote : UInt32) (n : Nat) : Lettered 73 (networkTag remote n) :=
  ⟨lit "P=" ++ (inetNtoa (netOf remote n) ++ 95 :: (decimal n ++ lit "$$")), rfl⟩

theorem host_lettered (name : CStr) : Lettered 72 (hostTag name) :=
  ⟨lit "OST=" ++ (name ++ lit "$$"), rfl⟩

theorem client_lettered : Lettered 67 clientTag := ⟨lit "LIENT$$", by decide⟩

theorem alwaysIp_lettered : Lettered 65 alwaysIpTag := ⟨lit "LWAYS=IP$$", by decide⟩

theorem alwaysClient_lettered : Lettered 65 alwaysClientTag := ⟨lit "LWAYS=CLIENT$$", by decide⟩

/-- The tags of a name are in the order of their letters. -/
theorem Lettered.lt {c d : UInt8} {t u : CStr} (ht : Lettered c t) (hu : Lettered d u) (h : c < d)
    (master : CStr) : master ++ t < master ++ u := by
  obtain ⟨x, rfl⟩ := ht
  obtain ⟨y, rfl⟩ := hu
  exact List.append_left_lt (append_lt_append h)

theorem Lettered.ne {c d : UInt8} {t u : CStr} (ht : Lettered c t) (hu : Lettered d u)
    (h : c ≠ d) : t ≠ u := by
  obtain ⟨x, rfl⟩ := ht
  obtain ⟨y, rfl⟩ := hu
  intro heq
  rw [List.append_cancel_left_eq] at heq
  exact h (List.cons.inj heq).1

/-- A name with another tag is not an `ALWAYS` tag of the directory. -/
theorem Lettered.not_always {c : UInt8} {t : CStr} (ht : Lettered c t)
    (hc : c = 73 ∨ c = 72 ∨ c = 67) (master : CStr) :
    master ++ t ≠ alwaysIpTag ∧ master ++ t ≠ alwaysClientTag := by
  obtain ⟨x, rfl⟩ := ht
  have hpart : ∀ a : CStr, master ++ (lit "$$" ++ c :: x) = a → lit "$$" ++ [c] <:+: a := by
    rintro a rfl
    exact ⟨master, x, by simp⟩
  refine ⟨fun h => ?_, fun h => ?_⟩
  · have := hpart _ h
    obtain rfl | rfl | rfl := hc
    all_goals revert this; decide
  · have := hpart _ h
    obtain rfl | rfl | rfl := hc
    all_goals revert this; decide

/-! ## The tests of the loop -/

section
variable {master : CStr} {remote : UInt32} {hname : Option CStr} {t : CStr}

/-- A name with the tag of the address, of a network or of all clients. -/
theorem clusterTag_own (ht : t = ipTag (inetNtoa remote) ∨ t = clientTag ∨
    ∃ n, (n = 24 ∨ n = 16 ∨ n = 8) ∧ t = networkTag remote n) :
    clusterTag master (inetNtoa remote) hname (master ++ t) = some (some t) := by
  have hlet : ∃ c, Lettered c t ∧ (c = 73 ∨ c = 72 ∨ c = 67) := by
    obtain rfl | rfl | ⟨n, -, rfl⟩ := ht
    · exact ⟨73, ip_lettered _, by decide⟩
    · exact ⟨67, client_lettered, by decide⟩
    · exact ⟨73, network_lettered _ _, by decide⟩
  obtain ⟨c, hlet, hc⟩ := hlet
  have hdir := hlet.not_always hc master
  have hne : c ≠ 65 := by
    rintro rfl
    simp at hc
  have hip := hlet.ne alwaysIp_lettered hne
  have hcl := hlet.ne alwaysClient_lettered hne
  simp only [clusterTag, matchSuffix, beq_iff_eq, List.append_cancel_left_eq, hip, hcl, hdir.1,
    hdir.2, if_false, clusterNetmask_eq remote (m := 3) (by decide),
    clusterNetmask_eq remote (m := 2) (by decide), clusterNetmask_eq remote (m := 1) (by decide)]
  split_ifs with h1 h2 h3 h4 h5
  · rw [h1]
  · rw [h2]
  · rw [h3]
  · rw [h4]
  · rw [h5]
  all_goals
    obtain h | h | ⟨n, rfl | rfl | rfl, h⟩ := ht
    · exact absurd h h1
    · exact absurd h h2
    · exact absurd h h3
    · exact absurd h h4
    · exact absurd h h5

/-- A name with a host tag. -/
theorem clusterTag_host (hm : isHost master = false) (y : CStr) :
    clusterTag master (inetNtoa remote) hname (master ++ hostTag y) =
      matchHost hname (master ++ hostTag y) := by
  have hlet := host_lettered y
  have hdir := hlet.not_always (by decide) master
  have hip := hlet.ne alwaysIp_lettered (by decide)
  have hcl := hlet.ne alwaysClient_lettered (by decide)
  have hclient := hlet.ne client_lettered (by decide)
  have haddr := hlet.ne (ip_lettered (inetNtoa remote)) (by decide)
  have hnet := fun n => hlet.ne (network_lettered remote n) (by decide)
  simp only [clusterTag, matchSuffix, beq_iff_eq, List.append_cancel_left_eq, hip, hcl, hdir.1,
    hdir.2, if_false, clusterNetmask_eq remote (m := 3) (by decide), hclient, haddr, hnet,
    clusterNetmask_eq remote (m := 2) (by decide), clusterNetmask_eq remote (m := 1) (by decide),
    hm, Bool.false_eq_true]

theorem clusterTag_alwaysIp {e : CStr} (he : e = master ++ alwaysIpTag ∨ e = alwaysIpTag) :
    clusterTag master (inetNtoa remote) hname e = some (some (ipTag (inetNtoa remote))) := by
  rw [clusterTag]
  obtain rfl | rfl := he
  · simp [matchSuffix]
  · simp

theorem clusterTag_alwaysClient {e : CStr}
    (he : e = master ++ alwaysClientTag ∨ e = alwaysClientTag) :
    clusterTag master (inetNtoa remote) hname e = some (some clientTag) := by
  have hip := (ip_lettered (inetNtoa remote)).not_always (by decide) master
  have htag : alwaysClientTag ≠ alwaysIpTag := by decide
  have hsuffix : master ++ alwaysIpTag ≠ alwaysClientTag := by
    intro h
    have hend : alwaysIpTag <:+ alwaysClientTag := ⟨master, h⟩
    revert hend
    decide
  have hlength : master ++ alwaysClientTag ≠ alwaysIpTag := by
    intro h
    have hend : alwaysClientTag <:+ alwaysIpTag := ⟨master, h⟩
    revert hend
    decide
  have haddr := alwaysClient_lettered.ne (ip_lettered (inetNtoa remote)) (by decide)
  obtain rfl | rfl := he
  · simp [clusterTag, matchSuffix, haddr, htag, hlength]
  · simp [clusterTag, matchSuffix, hip.2.symm, htag, hsuffix.symm]

/-! ## Host tags -/

/-- The beginning of a host tag overlaps with itself nowhere. -/
theorem hostMark_overlap {x s : CStr} (h : hostMark <+: x ++ hostMark ++ s) (hx : x ≠ []) :
    hostMark <:+: x := by
  by_cases hlen : hostMark.length ≤ x.length
  · rw [List.append_assoc] at h
    exact (List.prefix_of_prefix_length_le h (List.prefix_append _ _) hlen).isInfix
  · have htake := List.prefix_iff_eq_take.1 h
    have hshort : x.length < 7 := by
      have h7 : hostMark.length = 7 := by decide
      omega
    have hpos := List.length_pos_iff.2 hx
    -- the rest of the mark would be a beginning of the mark
    have hrest : hostMark.drop x.length = hostMark.take (7 - x.length) := by
      have hdrop := congrArg (List.drop x.length) htake
      have h7 : hostMark.length = 7 := by decide
      rw [h7, List.drop_take, List.append_assoc, List.drop_left, List.take_append_of_le_length
        (by omega)] at hdrop
      exact hdrop
    generalize x.length = n at hrest hshort hpos
    interval_cases n <;> exact absurd hrest (by decide)

theorem strstrFrom_hostTag {x : CStr} (hx : ¬ hostMark <:+: x) (s : CStr) :
    strstrFrom hostMark (x ++ hostMark ++ s) = some (hostMark ++ s) := by
  induction x with
  | nil => exact if_pos (List.prefix_append _ _)
  | cons c x ih =>
    have hno : ¬ hostMark <+: c :: x ++ hostMark ++ s := fun h =>
      hx (hostMark_overlap h (List.cons_ne_nil _ _))
    have hrest : ¬ hostMark <:+: x := fun h => hx (h.trans (List.suffix_cons c x).isInfix)
    exact (if_neg hno).trans (ih hrest)

/-- A name is taken to be that of a host if it has the mark and ends with dollars. -/
theorem isHost_iff (name : CStr) : isHost name = true ↔ HostTagged name := by
  rw [isHost, Bool.and_eq_true, strstr_iff, decide_eq_true_iff]
  constructor
  · rintro ⟨⟨x, s, hs⟩, y, hy⟩
    have hmark : lit "$$" <:+ hostMark ++ s := by
      refine List.suffix_of_suffix_length_le ⟨y, hy⟩ ⟨x, by rw [← hs, List.append_assoc]⟩ ?_
      have h7 : hostMark.length = 7 := by decide
      rw [List.length_append, h7]
      exact Nat.le_trans (by decide) (Nat.le_add_right 7 _)
    -- the mark ends with `T=`, so that both dollars come after it
    have hend : lit "$$" <:+ s := by
      by_cases hlen : 2 ≤ s.length
      · exact List.suffix_of_suffix_length_le hmark (List.suffix_append _ _) hlen
      · obtain ⟨z, hz⟩ := hmark
        have hdrop := congrArg (fun t : CStr => t.reverse[s.length]?) hz
        obtain h0 | h1 : s.length = 0 ∨ s.length = 1 := by omega
        · rw [List.length_eq_zero_iff] at h0
          simp [h0, lit, hostMark] at hdrop
        · obtain ⟨c, rfl⟩ := List.length_eq_one_iff.1 h1
          simp [lit, hostMark] at hdrop
    obtain ⟨h, rfl⟩ := hend
    exact ⟨x, h, by rw [← hs, hostTag, List.append_assoc]⟩
  · rintro ⟨x, h, rfl⟩
    exact ⟨⟨x, h ++ lit "$$", by rw [hostTag, List.append_assoc]⟩, x ++ hostMark ++ h, by
      simp [hostTag]⟩

theorem isHost_own (x y : CStr) : isHost (x ++ hostTag y) = true := (isHost_iff _).2 ⟨x, y, rfl⟩

/-- The test of a name with a host tag reads its own tag. -/
theorem matchHost_own (hx : ¬ hostMark <:+: master) (h y : CStr) :
    matchHost (some h) (master ++ hostTag y) =
      if y = h then some (some (hostTag y))
      else y.getLast?.elim none fun c =>
        if c ≠ 42 then some none
        else if y.dropLast <+: h then some (some (hostTag y)) else some none := by
  have hpart : strstrFrom hostMark (master ++ hostTag y) = some (hostTag y) := by
    rw [hostTag, ← List.append_assoc]
    exact strstrFrom_hostTag hx _
  have hbuf : ((hostTag y).drop 7).take ((hostTag y).length - 9) = y := by
    have hdrop : (hostTag y).drop 7 = y ++ lit "$$" := by
      rw [hostTag]
      exact List.drop_left' (by decide)
    have hlen : (hostTag y).length - 9 = y.length := by
      have h7 : hostMark.length = 7 := by decide
      have h2 : (lit "$$").length = 2 := by decide
      rw [hostTag, List.length_append, List.length_append, h7, h2]
      omega
    rw [hdrop, hlen, List.take_left]
  rw [matchHost, isHost_own, hpart, if_neg (by decide), Option.getD_some]
  dsimp only
  rw [hbuf]
  cases y.getLast? with
  | none => rfl
  | some c => rfl

end

/-! ## The kinds and the tests -/

namespace ClusterQuery

variable {q : ClusterQuery} {k k' : TagKind} {e e' s s' : CStr}

/-- What the loop does with an entry. -/
def tag (q : ClusterQuery) (e : CStr) : Option (Option CStr) :=
  clusterTag q.master (inetNtoa q.remote) q.hname e

/-- The entries of all kinds are found by their tests, but for a host tag after a name with the mark
of one. -/
theorem gives_tag (h : q.Gives e s k)
    (hk : (k ≠ .host ∧ k ≠ .hostPrefix) ∨ ¬ hostMark <:+: q.master) : q.tag e = some (some s) := by
  cases k with
  | ip =>
    obtain ⟨rfl, rfl⟩ := h
    exact clusterTag_own (.inl rfl)
  | network =>
    obtain ⟨hn, rfl⟩ := h
    exact clusterTag_own (.inr (.inr hn))
  | host =>
    obtain ⟨hm, ⟨h, hh, rfl⟩, rfl⟩ := h
    have hm : isHost q.master = false := by rwa [← Bool.not_eq_true, isHost_iff]
    have hx : ¬ hostMark <:+: q.master := hk.resolve_left fun h => h.1 rfl
    rw [tag, clusterTag_host hm, hh, matchHost_own hx, if_pos rfl]
  | hostPrefix =>
    obtain ⟨hm, ⟨h, p, hh, hp, rfl⟩, rfl⟩ := h
    have hm : isHost q.master = false := by rwa [← Bool.not_eq_true, isHost_iff]
    have hx : ¬ hostMark <:+: q.master := hk.resolve_left fun h => h.2 rfl
    rw [tag, clusterTag_host hm, hh, matchHost_own hx]
    simp [hp]
  | client =>
    obtain ⟨rfl, rfl⟩ := h
    exact clusterTag_own (.inr (.inl rfl))
  | alwaysIp =>
    obtain ⟨rfl, he⟩ := h
    exact clusterTag_alwaysIp (.inl he)
  | alwaysClient =>
    obtain ⟨rfl, he⟩ := h
    exact clusterTag_alwaysClient (.inl he)
  | dirAlwaysClient =>
    obtain ⟨rfl, he⟩ := h
    exact clusterTag_alwaysClient (.inr he)
  | dirAlwaysIp =>
    obtain ⟨rfl, he⟩ := h
    exact clusterTag_alwaysIp (.inr he)

/-- What the manual speaks of is in the scan. -/
theorem gives_scanned (h : q.Gives e s k) : scanned q.master e = true := by
  cases k with
  | dirAlwaysClient => simp [scanned, h.2]
  | dirAlwaysIp => simp [scanned, h.2]
  | ip => simp [scanned, h.2]
  | client => simp [scanned, h.2]
  | alwaysIp => simp [scanned, h.2]
  | alwaysClient => simp [scanned, h.2]
  | network => simp [scanned, h.2]
  | host => simp [scanned, h.2.2]
  | hostPrefix => simp [scanned, h.2.2]

/-- An entry that a test applies to is of a kind, or has a host tag. -/
theorem tag_cases (h : q.tag e ≠ some none) :
    (∃ k s, k ≠ .host ∧ k ≠ .hostPrefix ∧ q.Gives e s k ∧ q.tag e = some (some s)) ∨
      isHost e = true := by
  have hmatch : ∀ t : CStr, matchSuffix q.master t e = true → e = q.master ++ t := by
    intro t ht
    simpa [matchSuffix] using ht
  by_cases hgives : ∃ k s, k ≠ .host ∧ k ≠ .hostPrefix ∧ q.Gives e s k
  · obtain ⟨k, s, h1, h2, hs⟩ := hgives
    exact .inl ⟨k, s, h1, h2, hs, gives_tag hs (.inl ⟨h1, h2⟩)⟩
  have hno : ∀ k s, k ≠ .host → k ≠ .hostPrefix → ¬ q.Gives e s k :=
    fun k s h1 h2 hs => hgives ⟨k, s, h1, h2, hs⟩
  refine .inr ?_
  rw [tag, clusterTag, clusterNetmask_eq q.remote (m := 3) (by decide),
    clusterNetmask_eq q.remote (m := 2) (by decide),
    clusterNetmask_eq q.remote (m := 1) (by decide)] at h
  rw [if_neg fun ht => hno .ip _ (by decide) (by decide) ⟨rfl, hmatch _ ht⟩,
    if_neg fun ht => hno .alwaysIp _ (by decide) (by decide) ⟨rfl, hmatch _ ht⟩,
    if_neg fun ht => hno .dirAlwaysIp _ (by decide) (by decide) ⟨rfl, ht⟩,
    if_neg fun ht => hno .client _ (by decide) (by decide) ⟨rfl, hmatch _ ht⟩,
    if_neg fun ht => hno .alwaysClient _ (by decide) (by decide) ⟨rfl, hmatch _ ht⟩,
    if_neg fun ht => hno .dirAlwaysClient _ (by decide) (by decide) ⟨rfl, ht⟩,
    if_neg fun ht => hno .network _ (by decide) (by decide)
      ⟨⟨8 * 3, by decide, rfl⟩, hmatch _ ht⟩,
    if_neg fun ht => hno .network _ (by decide) (by decide)
      ⟨⟨8 * 2, by decide, rfl⟩, hmatch _ ht⟩,
    if_neg fun ht => hno .network _ (by decide) (by decide)
      ⟨⟨8 * 1, by decide, rfl⟩, hmatch _ ht⟩] at h
  by_cases hm : isHost q.master = true
  · exact absurd (if_pos hm) h
  · rw [if_neg hm, matchHost] at h
    by_contra hhost
    exact h (if_pos (by simpa using hhost))

/-- The letter of the tags of a kind. -/
def letter : TagKind → UInt8
  | .ip | .network => 73
  | .host | .hostPrefix => 72
  | .client => 67
  | .alwaysIp | .alwaysClient | .dirAlwaysClient | .dirAlwaysIp => 65

theorem gives_lettered (h : q.Gives e s k) (hk : k.place < 7) :
    ∃ t, Lettered (letter k) t ∧ e = q.master ++ t := by
  cases k with
  | ip => exact ⟨_, ip_lettered _, by rw [h.2, h.1]⟩
  | network =>
    obtain ⟨⟨n, -, rfl⟩, he⟩ := h
    exact ⟨_, network_lettered _ _, he⟩
  | host =>
    obtain ⟨-, ⟨h, -, rfl⟩, he⟩ := h
    exact ⟨_, host_lettered _, he⟩
  | hostPrefix =>
    obtain ⟨-, ⟨h, p, -, -, rfl⟩, he⟩ := h
    exact ⟨_, host_lettered _, he⟩
  | client => exact ⟨_, client_lettered, by rw [h.2, h.1]⟩
  | alwaysIp => exact ⟨_, alwaysIp_lettered, h.2⟩
  | alwaysClient => exact ⟨_, alwaysClient_lettered, h.2⟩
  | dirAlwaysClient => exact absurd hk (by decide)
  | dirAlwaysIp => exact absurd hk (by decide)

/-- **The order of the bytes is that of the kinds** for the tags after those of hosts. -/
theorem gives_lt (h : q.Gives e s k) (h' : q.Gives e' s' k') (hplace : k'.place < k.place)
    (hk : k = .client ∨ k = .alwaysIp ∨ k = .alwaysClient) : e < e' := by
  have hk7 : k.place < 7 := by
    obtain rfl | rfl | rfl := hk <;> decide
  obtain ⟨t, ht, rfl⟩ := gives_lettered h hk7
  obtain ⟨t', ht', rfl⟩ := gives_lettered h' (by omega)
  by_cases hletter : letter k < letter k'
  · exact ht.lt ht' hletter q.master
  -- only `ALWAYS=CLIENT` after `ALWAYS=IP` is left
  have hpair : k = .alwaysClient ∧ k' = .alwaysIp := by
    revert hplace hletter
    obtain rfl | rfl | rfl := hk <;> cases k' <;> decide
  obtain ⟨rfl, rfl⟩ := hpair
  rw [h.2, h'.2]
  exact List.append_left_lt (by decide)

/-! ## The first kind -/

theorem exists_first (h : q.Present k) : ∃ k', q.First k' ∧ k'.place ≤ k.place := by
  classical
  have hex : ∃ n k, k.place = n ∧ q.Present k := ⟨_, k, rfl, h⟩
  obtain ⟨k', hk', hp⟩ := Nat.find_spec hex
  refine ⟨k', ⟨hp, fun j hj hpj => ?_⟩, ?_⟩
  · exact Nat.find_min hex (hk' ▸ hj) ⟨j, rfl, hpj⟩
  · rw [hk']
    exact Nat.find_min' hex ⟨k, rfl, h⟩

theorem documented_none_or (q : ClusterQuery) :
    q.Documented none ∨ ∃ k, q.First k := by
  by_cases h : ∃ k, q.Present k
  · obtain ⟨k, hk⟩ := h
    obtain ⟨k', hfirst, -⟩ := exists_first hk
    exact .inr ⟨k', hfirst⟩
  · exact .inl fun k hk => h ⟨k, hk⟩

end ClusterQuery

end NfsRods
