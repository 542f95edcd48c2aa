import NfsRods.Config.Parse
import NfsRods.Proof.MountPassword
import NfsRods.Proof.Selection

/-!
# Long mount passwords

The password of an export is cut to `PASSWORD_MAXLEN` when the exports file is read, the one in a
MNT argument when `mnt_cmd_argument` copies it. Where the path starts in the argument is then told
from the length of the copy.

* `mntCmd_password`: the command that a MNT argument with a password stands for.
* `selected_password`: the password of a directory is that of the export selected for it.
* `password_works_iff`: the passwords with which a directory can be mounted.
-/

namespace NfsRods

open CStr

/-- The MNT argument of a client that mounts `p` with the password `v`. -/
def passwordArg (v p : CStr) : CStr := lit "@password:" ++ v ++ p

/-! ## The argument -/

/-- What is copied of the argument of a mount command is the password, cut, or more than it. -/
theorem copied_eq {v : CStr} (hv : slash ∉ v) (p : CStr) (n : Nat) :
    ((v ++ p).take n).takeWhile (· ≠ slash) =
      v.take n ++ (p.take (n - v.length)).takeWhile (· ≠ slash) := by
  have hall : ∀ b ∈ v.take n, decide (b ≠ slash) = true := by
    intro b hb
    apply decide_eq_true
    rintro rfl
    exact hv (List.mem_of_mem_take hb)
  rw [List.take_append, List.takeWhile_append_of_pos hall]

theorem mntCmd_password (v p : CStr) : mntCmd (passwordArg v p) =
    .password (((v ++ p).take passwordMaxlen).takeWhile (· ≠ slash))
      ((v ++ p).drop (((v ++ p).take passwordMaxlen).takeWhile (· ≠ slash)).length) := by
  have hpre : lit "@password:" <+: passwordArg v p := by
    rw [passwordArg, List.append_assoc]
    exact List.prefix_append _ _
  have hnonce : ¬ lit "@getnonce" <+: passwordArg v p := by
    intro h
    exact absurd (List.prefix_of_prefix_length_le h hpre (by decide)) (by decide)
  have hdrop : (passwordArg v p).drop (lit "@password:").length = v ++ p := by
    rw [passwordArg, List.append_assoc, List.drop_left]
  rw [mntCmd, if_neg hnonce, if_pos hpre]
  simp only [mntCmdArgument, hdrop]

/-- A path follows the password: it begins with a slash, or where the copy stops. -/
def Typable (v p : CStr) : Prop :=
  v.length = passwordMaxlen ∨ v.length < passwordMaxlen ∧ p.head? = some slash

instance (v p : CStr) : Decidable (Typable v p) := inferInstanceAs (Decidable (_ ∨ _))

/-- The path of a mount command with a password is the one that the client has written after it
exactly when it is found there. -/
theorem mntCmd_dpath_iff {v p : CStr} (hv : slash ∉ v) (hp : p ≠ []) :
    (mntCmd (passwordArg v p)).dpath = p ↔ Typable v p := by
  rw [mntCmd_password, MntCmd.dpath, copied_eq hv, Typable]
  obtain ⟨b, p, rfl⟩ := List.exists_cons_of_ne_nil hp
  have hlen : ∀ n, (v ++ b :: p).drop n = b :: p ↔ n = v.length := by
    intro n
    constructor
    · intro h
      have := congrArg List.length h
      simp at this
      omega
    · rintro rfl
      exact List.drop_left
  rw [hlen, List.length_append, List.length_take]
  rcases Nat.lt_trichotomy v.length passwordMaxlen with hlt | heq | hgt
  · obtain ⟨k, hk⟩ : ∃ k, passwordMaxlen - v.length = k + 1 :=
      ⟨passwordMaxlen - v.length - 1, by omega⟩
    rw [hk, List.take_succ_cons, List.takeWhile_cons]
    by_cases hb : b = slash
    · simp [hb, hlt, Nat.min_eq_right hlt.le]
    · simp only [ne_eq, hb, not_false_eq_true, decide_true, if_true, List.length_cons,
        List.head?_cons, Option.some.injEq, and_false, or_false]
      omega
  · simp [heq]
  · simp only [Nat.sub_eq_zero_of_le hgt.le, List.take_zero, List.takeWhile_nil, List.length_nil]
    omega

section
variable {L R : Type} {w : World L R} {s : Server L R} {rq : SvcReq} {v p : CStr}

/-! ## The export -/

/-- The password of a directory is that of the export selected for it. -/
theorem selected_password {list : List EItem} {remote : UInt32} {item : EItem} {h : EHost}
    (hs : Selected list remote p item h) (hne : item.path ≠ [])
    (hd : strstr p (lit "/../") = false) :
    optsOf list remote p = some h.options ∧ passwordOf list remote p = h.password := by
  obtain ⟨hvars, hpassword⟩ := exportsOptions_longest list remote {} hd
  rw [selected_longest hs hne] at hvars hpassword
  rw [optsOf, passwordOf, hvars, hpassword]
  exact ⟨rfl, rfl⟩

/-- `item` is the export of the directory `p`, and `h` its host that lists the client, configured
with `password=v`. -/
structure Configured (list : List EItem) (remote : UInt32) (v p : CStr) (item : EItem)
    (h : EHost) : Prop where
  selected : Selected list remote p item h
  path : item.path = p
  password : ∃ g, h.password = (addOptionWithValue (lit "password") v g).host.password

theorem Configured.password_eq {list : List EItem} {remote : UInt32} {item : EItem} {h : EHost}
    (hc : Configured list remote v p item h) : h.password = v.take passwordMaxlen := by
  obtain ⟨g, hg⟩ := hc.password
  rw [hg]
  rfl

/-- MNT with the password authenticates the client and goes on to mount the directory. -/
def PasswordWorks (w : World L R) (v p : CStr) (rq : SvcReq) (s : Server L R) : Prop :=
  ∃ s', authenticate w (mntCmd (passwordArg v p)) rq s = (.ok true, s') ∧
    (mntCmd (passwordArg v p)).dpath = p ∧
    mountprocMnt w (passwordArg v p) rq s = mntPath w p true rq s'

/-- The server has kept as much of a long password as the mount command takes. -/
def CutAlike (v p : CStr) (h : EHost) : Prop :=
  passwordMaxlen < v.length → ∃ dpath, mntCmd (passwordArg v p) = .password h.password dpath

/-- A directory is looked up by its own path. -/
def FoundByPath (p : CStr) : Prop := p ≠ [] ∧ strstr p (lit "/../") = false

instance (p : CStr) : Decidable (FoundByPath p) := inferInstanceAs (Decidable (_ ∧ _))

theorem optsOf_eq_none {list : List EItem} {remote : UInt32} (h : ¬ FoundByPath p) :
    optsOf list remote p = none := by
  rw [← Option.not_isSome_iff_eq_none, optsOf, exportsOptions_isSome]
  rintro ⟨hd, item, -, hne, hpre, -⟩
  apply h
  refine ⟨?_, hd⟩
  rintro rfl
  exact hne (List.prefix_nil.1 hpre)

/-- Authenticated is who carries a password that leaves the path where the export is found. -/
theorem authentic_password {h : EHost} (hv : slash ∉ v)
    (ho : optsOf s.exportList rq.remote p = some h.options)
    (hw : passwordOf s.exportList rq.remote p = v.take passwordMaxlen)
    (hdpath : (mntCmd (passwordArg v p)).dpath = p) (ht : Typable v p) :
    authentic w (mntCmd (passwordArg v p)) rq s = true := by
  have hcopy : ((v ++ p).take passwordMaxlen).takeWhile (· ≠ slash) = v.take passwordMaxlen := by
    rw [copied_eq hv]
    rcases ht with heq | ⟨hlt, hhead⟩
    · simp [heq]
    · obtain ⟨p, rfl⟩ := List.head?_eq_some_iff.1 hhead
      obtain ⟨k, hk⟩ : ∃ k, passwordMaxlen - v.length = k + 1 :=
        ⟨passwordMaxlen - v.length - 1, by omega⟩
      simp [hk]
  rw [authentic, hdpath, ho, hw, mntCmd_password, MntCmd.carries, hcopy]
  simp

/-- A mount command with a password does not ask for a nonce. -/
theorem mountprocMnt_password (hvers : rq.vers = 3) {a : Bool} {s' : Server L R}
    (ha : authenticate w (mntCmd (passwordArg v p)) rq s = (.ok a, s')) :
    mountprocMnt w (passwordArg v p) rq s =
      mntPath w (mntCmd (passwordArg v p)).dpath a rq s' := by
  rw [← Prog.bind_ok (f := fun a => mntPath w (mntCmd (passwordArg v p)).dpath a rq) ha]
  simp only [mountprocMnt, hvers, ne_eq, not_true_eq_false, ↓reduceIte, mntCmd_password]

/-- **A configured password works** exactly when it is at most `PASSWORD_MAXLEN` long, where the
directory is one that is found by its path and begins with a slash (the slash is not needed behind
a password of just that length). Longer ones are still cut alike. -/
theorem password_works_iff (w : World L R) (s : Server L R) (rq : SvcReq) (hvers : rq.vers = 3)
    (v p : CStr) (hv : slash ∉ v) (item : EItem) (h : EHost)
    (hc : Configured s.exportList rq.remote v p item h) :
    (PasswordWorks w v p rq s ∧ CutAlike v p h) ↔ FoundByPath p ∧ Typable v p := by
  have hcut : CutAlike v p h := by
    intro hlong
    refine ⟨(v ++ p).drop (v.take passwordMaxlen).length, ?_⟩
    have hzero : passwordMaxlen - v.length = 0 := by omega
    rw [mntCmd_password, copied_eq hv, hzero, hc.password_eq]
    simp
  rw [and_iff_left hcut]
  obtain ⟨s', hrun, -⟩ := authenticate_ends (w := w) (mntCmd (passwordArg v p)) rq s
  constructor
  · rintro ⟨s'', hauth, hdpath, -⟩
    rw [hrun] at hauth
    obtain ⟨hok, -⟩ := Prod.mk.inj hauth
    have hfind : FoundByPath p := by
      by_contra hno
      have hnone : optsOf s.exportList rq.remote p = none := optsOf_eq_none hno
      rw [Except.ok.injEq, authentic, hdpath, hnone] at hok
      cases hok
    exact ⟨hfind, (mntCmd_dpath_iff hv hfind.1).1 hdpath⟩
  · rintro ⟨hfind, ht⟩
    have hdpath := (mntCmd_dpath_iff hv hfind.1).2 ht
    have hne : item.path ≠ [] := by
      rw [hc.path]
      exact hfind.1
    obtain ⟨ho, hw⟩ := selected_password hc.selected hne hfind.2
    rw [hc.password_eq] at hw
    rw [authentic_password hv ho hw hdpath ht] at hrun
    have hmount := mountprocMnt_password hvers hrun
    rw [hdpath] at hmount
    exact ⟨s', hrun, hdpath, hmount⟩

end

/-! ## A password of 65 bytes -/

/-- The export of `/e` with a password. -/
def wordItem (v : CStr) : EItem :=
  { path := lit "/e", orig := lit "/e"
    hosts := [{ options := { removable := true }, password := v.take passwordMaxlen }] }

def wordServer (v : CStr) : Server Sandbox.Kernel Sandbox.Grid :=
  Sandbox.server [wordItem v] {} {}

theorem wordItem_configured (v : CStr) :
    Configured [wordItem v] 1 v (lit "/e") (wordItem v)
      { options := { removable := true }, password := v.take passwordMaxlen } where
  selected :=
    { mem := List.mem_singleton.2 rfl
      applies := ⟨List.prefix_rfl, _, List.mem_singleton.2 rfl, by simp [EHost.Lists]⟩
      host := ⟨[], [], rfl, by simp [EHost.Lists], by simp⟩
      longest := by
        intro i hi _
        rw [List.mem_singleton.1 hi]
      first := ⟨[], [], rfl, by simp⟩ }
  path := rfl
  password := ⟨{}, rfl⟩

/-- A short password works. -/
theorem short_password_works :
    PasswordWorks Sandbox.publicWorld (lit "gazonk") (lit "/e") { remote := 1, uid := 7, gid := 7 }
      (wordServer (lit "gazonk")) :=
  ((password_works_iff Sandbox.publicWorld (wordServer (lit "gazonk"))
    { remote := 1, uid := 7, gid := 7 } rfl (lit "gazonk") (lit "/e") (by decide) _ _
    (wordItem_configured (lit "gazonk"))).2 (by decide)).1

/-- A password of 65 bytes is kept but for its last one, which a client that gives it has in front
of its path: the directory cannot be mounted. -/
theorem long_password_fails :
    (exportsParse { gethostbyname := fun _ => none, realpath := some } (fun _ _ l => l.length)
      false (some (lit "/e (removable,password=" ++ List.replicate 65 120 ++ lit ")\n")) {}).list =
      [wordItem (List.replicate 65 120)] ∧
    Configured [wordItem (List.replicate 65 120)] 1 (List.replicate 65 120) (lit "/e")
      (wordItem (List.replicate 65 120))
      { options := { removable := true }, password := List.replicate 64 120 } ∧
    slash ∉ List.replicate 65 (120 : UInt8) ∧
    ¬ PasswordWorks Sandbox.publicWorld (List.replicate 65 120) (lit "/e")
      { remote := 1, uid := 7, gid := 7 } (wordServer (List.replicate 65 120)) := by
  refine ⟨by decide +kernel, wordItem_configured _, by decide, ?_⟩
  rintro ⟨_, _, hdpath, _⟩
  revert hdpath
  decide +kernel

end NfsRods
