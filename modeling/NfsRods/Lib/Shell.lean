import NfsRods.Lib.CStr

/-!
# Shell command lines

POSIX token recognition for a line given to a non-interactive shell, as far as its meaning is fixed
by its text: what depends on variables, on the output of other commands or on the files there are is
left undetermined (`none`).

* `lex`: the words, with their quoted bytes marked, and the operators of a line.
* `simple`: the simple command a line is, with its arguments and the files its output goes to.
* `simple_target_iff`, `simple_arg_iff`: a path appended to a line is taken as the one word it is
  meant to be exactly when it is free of the bytes the shell treats specially.
-/

namespace Shell

open CStr

/-- A byte of a word, and whether it was quoted. -/
structure Piece where
  byte : UInt8
  quoted : Bool
  deriving DecidableEq, Repr

/-- A word, or an operator (a file number before a redirection is part of it). -/
inductive Token
  | word (ps : List Piece)
  | op (text : CStr)
  deriving DecidableEq, Repr

/-- Where the lexer is: outside quotes, after a backslash, in single or double quotes, after a
backslash in double quotes, or in a comment. -/
inductive Mode
  | bare | escape | single | double | doubleEscape | comment
  deriving DecidableEq, Repr

def newline : UInt8 := 10
def backslash : UInt8 := 92
def quote : UInt8 := 39
def doubleQuote : UInt8 := 34
def hash : UInt8 := 35
def tilde : UInt8 := 126

def isBlank (b : UInt8) : Bool := (lit " \t").contains b
def isOp (b : UInt8) : Bool := (lit "|&;<>()").contains b
def isDigit (b : UInt8) : Bool := 48 ≤ b && b ≤ 57

/-- The byte introduces a parameter expansion, a command substitution or an arithmetic expansion. -/
def expands (b : UInt8) : Bool := (lit "$`").contains b

/-- The byte is part of a pattern. -/
def isPattern (b : UInt8) : Bool := (lit "*?[").contains b

/-- Add a byte to the current word, which it starts if there is none. -/
def push (cur : Option (List Piece)) (b : UInt8) (quoted : Bool) : Option (List Piece) :=
  some (cur.getD [] ++ [⟨b, quoted⟩])

/-- Close the current word. -/
def flush (cur : Option (List Piece)) (ts : List Token) : List Token :=
  match cur with
  | none => ts
  | some ps => .word ps :: ts

/-- The word is a file number. -/
def isNumber (ps : List Piece) : Bool := ps ≠ [] && ps.all fun p => !p.quoted && isDigit p.byte

/-- Close the current word at an operator; digits before a redirection belong to it. -/
def flushOp (cur : Option (List Piece)) (b : UInt8) (ts : List Token) : List Token :=
  match cur with
  | some ps =>
    if isNumber ps && (lit "<>").contains b then .op (ps.map (·.byte) ++ [b]) :: ts
    else .word ps :: .op [b] :: ts
  | none => .op [b] :: ts

/-- Token recognition from a mode, with the word read so far; `none` when a quote is left open or
an expansion is met. Operators of several characters are left as the characters they consist of. -/
def lex : Mode → Option (List Piece) → CStr → Option (List Token)
  | .bare, cur, [] => some (flush cur [])
  | .comment, _, [] => some []
  | .escape, _, [] | .single, _, [] | .double, _, [] | .doubleEscape, _, [] => none
  | .bare, cur, b :: rest =>
    if isBlank b then (lex .bare none rest).map (flush cur)
    else if b = newline then (lex .bare none rest).map fun ts => flush cur (.op [b] :: ts)
    else if isOp b then (lex .bare none rest).map (flushOp cur b)
    else if b = backslash then lex .escape cur rest
    else if b = quote then lex .single (some (cur.getD [])) rest
    else if b = doubleQuote then lex .double (some (cur.getD [])) rest
    else if expands b then none
    else if b = hash ∧ cur = none then lex .comment none rest
    else lex .bare (push cur b false) rest
  -- a backslash and a newline are removed
  | .escape, cur, b :: rest =>
    if b = newline then lex .bare cur rest else lex .bare (push cur b true) rest
  | .single, cur, b :: rest =>
    if b = quote then lex .bare cur rest else lex .single (push cur b true) rest
  | .double, cur, b :: rest =>
    if b = doubleQuote then lex .bare cur rest
    else if b = backslash then lex .doubleEscape cur rest
    else if expands b then none
    else lex .double (push cur b true) rest
  -- in double quotes a backslash quotes only some bytes and else stands for itself
  | .doubleEscape, cur, b :: rest =>
    if b = newline then lex .double cur rest
    else if expands b || b = doubleQuote || b = backslash then lex .double (push cur b true) rest
    else lex .double (push (push cur backslash true) b true) rest
  | .comment, _, b :: rest =>
    if b = newline then (lex .bare none rest).map (.op [b] :: ·) else lex .comment none rest

/-! ## Simple commands -/

/-- The bytes of a word. -/
def text (ps : List Piece) : CStr := ps.map (·.byte)

/-- The word starts with an unquoted tilde. -/
def hasTilde (ps : List Piece) : Bool := ps.head? == some ⟨tilde, false⟩

/-- The word has an unquoted byte of a pattern. -/
def hasPattern (ps : List Piece) : Bool := ps.any fun p => !p.quoted && isPattern p.byte

/-- The file a redirection is to; no pathname expansion is done there. -/
def target (ps : List Piece) : Option CStr := if hasTilde ps then none else some (text ps)

/-- The argument a word is. -/
def arg (ps : List Piece) : Option CStr :=
  if hasTilde ps || hasPattern ps then none else some (text ps)

/-- A simple command: its words and the files its standard output is redirected to. -/
structure Simple where
  words : List CStr := []
  out : List CStr := []
  deriving DecidableEq, Repr

/-- The words and redirections of a command, which only newlines may follow. -/
def parse : List Token → Option Simple
  | [] => some {}
  | .op o :: .word ps :: ts =>
    if o = lit ">" then do
      let f ← target ps
      let c ← parse ts
      some { c with out := f :: c.out }
    else none
  | .op o :: ts =>
    if o = [newline] then if ts.all (· = .op [newline]) then some {} else none else none
  | .word ps :: ts => do
    let f ← arg ps
    let c ← parse ts
    some { c with words := f :: c.words }

/-- Words with a meaning of their own where a command's name is expected. -/
def reserved : List CStr :=
  ["case", "do", "done", "elif", "else", "esac", "fi", "for", "if", "in", "then", "until",
    "while"].map lit

/-- The name of a command, spelt with letters. -/
def isName (name : CStr) : Bool :=
  name ≠ [] && name.all (fun b => 97 ≤ b && b ≤ 122) && !reserved.contains name

/-- The simple command a line is. -/
def simple (line : CStr) : Option Simple := do
  let ts ← lex .bare none line
  let c ← parse ts
  if (c.words.head?.any isName) then some c else none

/-! ## Plain text -/

/-- The byte ends a word, starts an operator, quotes or expands, wherever it stands unquoted. -/
def isSpecial (b : UInt8) : Bool :=
  isBlank b || b = newline || isOp b || b = backslash || b = quote || b = doubleQuote || expands b

/-- Text that the shell takes as one word, as it is, where a redirection's file is expected. -/
structure PlainTarget (p : CStr) : Prop where
  bytes : ∀ b ∈ p, isSpecial b = false
  hash : p.head? ≠ some hash
  tilde : p.head? ≠ some tilde
  ne_nil : p ≠ []

/-- Text that the shell takes as one argument, as it is. -/
structure PlainArg (p : CStr) : Prop extends PlainTarget p where
  pattern : ∀ b ∈ p, isPattern b = false

/-- The pieces of unquoted text. -/
def bare (u : CStr) : List Piece := u.map (⟨·, false⟩)

@[simp] theorem text_bare (u : CStr) : text (bare u) = u := by
  rw [text, bare, List.map_map]
  exact List.map_id u

theorem lex_push {b : UInt8} (h : isSpecial b = false) (ps : List Piece) (rest : CStr) :
    lex .bare (some ps) (b :: rest) = lex .bare (some (ps ++ [⟨b, false⟩])) rest := by
  simp only [isSpecial, Bool.or_eq_false_iff, decide_eq_false_iff_not] at h
  obtain ⟨⟨⟨⟨⟨⟨h1, h2⟩, h3⟩, h4⟩, h5⟩, h6⟩, h7⟩ := h
  simp [lex, h1, h2, h3, h4, h5, h6, h7, push]

theorem lex_start {b : UInt8} (h : isSpecial b = false) (hh : b ≠ hash) (rest : CStr) :
    lex .bare none (b :: rest) = lex .bare (some [⟨b, false⟩]) rest := by
  simp only [isSpecial, Bool.or_eq_false_iff, decide_eq_false_iff_not] at h
  obtain ⟨⟨⟨⟨⟨⟨h1, h2⟩, h3⟩, h4⟩, h5⟩, h6⟩, h7⟩ := h
  simp [lex, h1, h2, h3, h4, h5, h6, h7, hh, push]

theorem lex_pushes {u : CStr} (h : ∀ b ∈ u, isSpecial b = false) (ps : List Piece) (rest : CStr) :
    lex .bare (some ps) (u ++ rest) = lex .bare (some (ps ++ bare u)) rest := by
  induction u generalizing ps with
  | nil => simp [bare]
  | cons b u ih =>
    rw [List.cons_append, lex_push (h b List.mem_cons_self),
      ih fun b' hb' => h b' (List.mem_cons_of_mem _ hb')]
    simp [bare]

/-- Plain text is read as one word. -/
theorem lex_word {u : CStr} (h : ∀ b ∈ u, isSpecial b = false) (hh : u.head? ≠ some hash)
    (hn : u ≠ []) (rest : CStr) : lex .bare none (u ++ rest) = lex .bare (some (bare u)) rest := by
  cases u with
  | nil => exact absurd rfl hn
  | cons b u =>
    rw [List.cons_append, lex_start (h b List.mem_cons_self) (by simpa using hh),
      lex_pushes fun b' hb' => h b' (List.mem_cons_of_mem _ hb')]
    rfl

/-! ## What the lexer drops -/

/-- The bytes of the words. -/
def weight : List Token → Nat
  | [] => 0
  | .word ps :: ts => ps.length + weight ts
  | .op _ :: ts => weight ts

/-- The length of the word read so far. -/
def curLength (cur : Option (List Piece)) : Nat := (cur.getD []).length

@[simp] theorem curLength_push (cur : Option (List Piece)) (b : UInt8) (q : Bool) :
    curLength (push cur b q) = curLength cur + 1 := by simp [curLength, push]

@[simp] theorem curLength_none : curLength none = 0 := rfl

@[simp] theorem curLength_start (cur : Option (List Piece)) :
    curLength (some (cur.getD [])) = curLength cur := rfl

@[simp] theorem weight_flush (cur : Option (List Piece)) (ts : List Token) :
    weight (flush cur ts) = curLength cur + weight ts := by
  cases cur <;> simp [flush, weight, curLength]

theorem weight_flushOp (cur : Option (List Piece)) (b : UInt8) (ts : List Token) :
    weight (flushOp cur b ts) ≤ curLength cur + weight ts := by
  cases cur with
  | none => simp [flushOp, weight]
  | some ps =>
    simp only [flushOp]
    split <;> simp [weight, curLength]

/-- A backslash that has been read but not yet dropped. -/
def pending : Mode → Nat
  | .doubleEscape => 1
  | _ => 0

/-- No byte is in two words. -/
theorem weight_lex {m : Mode} {cur : Option (List Piece)} {inp : CStr} {ts : List Token}
    (h : lex m cur inp = some ts) : weight ts ≤ curLength cur + inp.length + pending m := by
  induction inp generalizing m cur ts with
  | nil =>
    cases m with
    | bare =>
      simp only [lex, Option.some.injEq] at h
      simp [← h, weight, pending]
    | comment =>
      simp only [lex, Option.some.injEq] at h
      simp [← h, weight, pending]
    | _ => simp [lex] at h
  | cons b rest ih =>
    have hmap : ∀ {f : List Token → List Token} {n : Nat},
      (∀ ts', weight (f ts') ≤ n + weight ts') →
        (lex .bare none rest).map f = some ts → weight ts ≤ n + rest.length := by
      intro f n hf hm
      obtain ⟨ts', hts', rfl⟩ := Option.map_eq_some_iff.1 hm
      have := ih hts'
      have := hf ts'
      simp only [curLength_none, pending] at *
      omega
    cases m with
    | bare =>
      simp only [lex] at h
      split_ifs at h
      · have := hmap (fun ts' => (weight_flush cur ts').le) h
        simp only [List.length_cons]
        omega
      · have := hmap (n := curLength cur) (fun ts' => by simp [weight]) h
        simp only [List.length_cons]
        omega
      · have := hmap (fun ts' => weight_flushOp cur b ts') h
        simp only [List.length_cons]
        omega
      all_goals
        have := ih h
        simp only [curLength_push, curLength_start, curLength_none, pending, List.length_cons] at *
        omega
    | comment =>
      simp only [lex] at h
      split_ifs at h
      · have := hmap (n := curLength cur) (fun ts' => by simp [weight]) h
        simp only [List.length_cons]
        omega
      · have := ih h
        simp only [curLength_none, pending, List.length_cons] at *
        omega
    | _ =>
      simp only [lex] at h
      split_ifs at h
      all_goals
        have := ih h
        simp only [curLength_push, pending, List.length_cons] at *
        omega

/-- A special byte is in no word. -/
theorem weight_lex_special {cur : Option (List Piece)} {inp : CStr} {ts : List Token}
    (h : lex .bare cur inp = some ts) (hs : ∃ b ∈ inp, isSpecial b = true) :
    weight ts < curLength cur + inp.length := by
  induction inp generalizing cur ts with
  | nil => simp at hs
  | cons b rest ih =>
    have drop : ∀ {m : Mode} {cur' : Option (List Piece)}, lex m cur' rest = some ts →
        pending m = 0 → curLength cur' ≤ curLength cur →
        weight ts < curLength cur + (b :: rest).length := by
      intro m cur' hl hm hc
      have := weight_lex hl
      simp only [List.length_cons]
      omega
    have dropMap : ∀ {f : List Token → List Token},
      (∀ ts', weight (f ts') ≤ curLength cur + weight ts') →
        (lex .bare none rest).map f = some ts → weight ts < curLength cur + (b :: rest).length := by
      intro f hf hm
      obtain ⟨ts', hts', rfl⟩ := Option.map_eq_some_iff.1 hm
      have := weight_lex hts'
      have := hf ts'
      simp only [curLength_none, pending, List.length_cons] at *
      omega
    simp only [lex] at h
    split_ifs at h with h1 h2 h3 h4 h5 h6 h7 h8
    · exact dropMap (fun ts' => (weight_flush cur ts').le) h
    · exact dropMap (fun ts' => by simp [weight]) h
    · exact dropMap (fun ts' => weight_flushOp cur b ts') h
    · exact drop h rfl le_rfl
    · exact drop h rfl (by simp)
    · exact drop h rfl (by simp)
    · exact drop h rfl (by simp)
    · have hb : isSpecial b = false := by simp [isSpecial, h1, h2, h3, h4, h5, h6, h7]
      have := ih h (by
        obtain ⟨b', hb', hsb⟩ := hs
        rcases List.mem_cons.1 hb' with rfl | hb'
        · rw [hb] at hsb
          cases hsb
        · exact ⟨b', hb', hsb⟩)
      simp only [curLength_push, List.length_cons] at *
      omega

/-! ## A path at the end of a line -/

theorem lex_plain {p : CStr} (h : ∀ b ∈ p, isSpecial b = false) (hh : p.head? ≠ some hash)
    (hn : p ≠ []) : lex .bare none p = some [.word (bare p)] := by
  have := lex_word h hh hn []
  rw [List.append_nil] at this
  rw [this]
  rfl

/-- Text whose first word is all of it has nothing special in it. -/
theorem plain_of_lex {p : CStr} {ps : List Piece} {ts : List Token}
    (h : lex .bare none p = some (.word ps :: ts)) (ht : text ps = p) :
    (∀ b ∈ p, isSpecial b = false) ∧ p.head? ≠ some hash ∧ p ≠ [] := by
  have hlen : p.length ≤ weight (.word ps :: ts) := by
    rw [← ht, text, List.length_map]
    exact Nat.le_add_right _ _
  refine ⟨?_, fun hh => ?_, ?_⟩
  · intro b hb
    by_contra hs
    have := weight_lex_special h ⟨b, hb, by simpa using hs⟩
    simp only [curLength_none] at this
    omega
  · obtain ⟨rest, rfl⟩ : ∃ rest, p = hash :: rest := by
      cases p with
      | nil => cases hh
      | cons b rest => exact ⟨rest, by simpa using hh⟩
    have hc : lex .comment none rest = some (.word ps :: ts) := h
    have := weight_lex hc
    simp only [curLength_none, pending, List.length_cons] at this hlen
    omega
  · rintro rfl
    cases h

theorem hasTilde_bare (p : CStr) : hasTilde (bare p) = true ↔ p.head? = some tilde := by
  cases p <;> simp [hasTilde, bare]

theorem hasPattern_bare (p : CStr) : hasPattern (bare p) = false ↔
    ∀ b ∈ p, isPattern b = false := by
  simp [hasPattern, bare]

theorem target_bare {p : CStr} (h : PlainTarget p) : target (bare p) = some p := by
  have ht : hasTilde (bare p) = false := by
    rw [← Bool.not_eq_true, hasTilde_bare]
    exact h.tilde
  simp [target, ht]

theorem arg_bare {p : CStr} (h : PlainArg p) : arg (bare p) = some p := by
  have ht : hasTilde (bare p) = false := by
    rw [← Bool.not_eq_true, hasTilde_bare]
    exact h.tilde
  simp [arg, ht, (hasPattern_bare p).2 h.pattern]

/-- `pre` is read as the tokens `ts`, whatever follows. -/
def Lead (pre : CStr) (ts : List Token) : Prop :=
  ∀ p, lex .bare none (pre ++ p) = (lex .bare none p).map (ts ++ ·)

theorem Lead.append {a b : CStr} {ts us : List Token} (h : Lead a ts) (h' : Lead b us) :
    Lead (a ++ b) (ts ++ us) := by
  intro p
  rw [List.append_assoc, h, h', Option.map_map]
  congr 1
  funext vs
  simp

/-- A plain word and a blank. -/
theorem Lead.word {u : CStr} (h : ∀ b ∈ u, isSpecial b = false) (hh : u.head? ≠ some hash)
    (hn : u ≠ []) {b : UInt8} (hb : isBlank b = true) : Lead (u ++ [b]) [.word (bare u)] := by
  intro p
  rw [List.append_assoc, lex_word h hh hn]
  simp only [List.cons_append, List.nil_append, lex, hb, ↓reduceIte]
  rfl

theorem Lead.blank {b : UInt8} (hb : isBlank b = true) : Lead [b] [] := by
  intro p
  simp only [List.cons_append, List.nil_append, lex, hb, ↓reduceIte]
  rfl

theorem Lead.op {b : UInt8} (hb : isOp b = true) (hn : isBlank b = false) (hl : b ≠ newline) :
    Lead [b] [.op [b]] := by
  intro p
  simp only [List.cons_append, List.nil_append, lex, hb, hn, hl, Bool.false_eq_true, ↓reduceIte]
  rfl

theorem lex_double {u : CStr} (h : ∀ b ∈ u, b ≠ doubleQuote ∧ b ≠ backslash ∧ expands b = false)
    (ps : List Piece) (rest : CStr) : lex .double (some ps) (u ++ rest) =
      lex .double (some (ps ++ u.map (⟨·, true⟩))) rest := by
  induction u generalizing ps with
  | nil => simp
  | cons b u ih =>
    obtain ⟨h1, h2, h3⟩ := h b List.mem_cons_self
    simp only [List.cons_append, lex, h1, h2, h3, Bool.false_eq_true, ↓reduceIte, push,
      Option.getD_some]
    rw [ih fun b' hb' => h b' (List.mem_cons_of_mem _ hb')]
    simp

/-- A word in double quotes and a blank. -/
theorem Lead.quoted {u : CStr} (h : ∀ b ∈ u, b ≠ doubleQuote ∧ b ≠ backslash ∧ expands b = false)
    {b : UInt8} (hb : isBlank b = true) :
    Lead (doubleQuote :: (u ++ [doubleQuote, b])) [.word (u.map (⟨·, true⟩))] := by
  intro p
  have h0 : lex .bare none (doubleQuote :: (u ++ (doubleQuote :: b :: p))) =
      lex .double (some []) (u ++ (doubleQuote :: b :: p)) := by
    simp [lex, show isBlank doubleQuote = false by decide, show isOp doubleQuote = false by decide,
      show doubleQuote ≠ newline by decide, show doubleQuote ≠ backslash by decide,
      show doubleQuote ≠ Shell.quote by decide]
  rw [List.cons_append, List.append_assoc]
  refine h0.trans ?_
  rw [lex_double h]
  simp only [lex, hb, ↓reduceIte]
  rfl

/-- The words of a list of tokens, all of them arguments. -/
inductive Args : List Token → List CStr → Prop
  | nil : Args [] []
  | cons {ps : List Piece} {f : CStr} {ts : List Token} {fs : List CStr} (h : arg ps = some f)
    (hs : Args ts fs) : Args (.word ps :: ts) (f :: fs)

theorem Args.parse {ts us : List Token} {fs : List CStr} (h : Args ts fs) :
    Shell.parse (ts ++ us) = (Shell.parse us).map fun c => { c with words := fs ++ c.words } := by
  induction h with
  | nil => simp
  | cons hf _ ih =>
    simp only [List.cons_append, Shell.parse, hf, ih]
    cases Shell.parse us <;> rfl

section
variable {pre : CStr} {ts : List Token} {ws : List CStr}

/-- What a line is, from what its last part is. -/
theorem Lead.simple {us : List Token} (hl : Lead pre (ts ++ us)) (ha : Args ts ws)
    (hw : ws.head?.any isName = true) (p : CStr) :
    Shell.simple (pre ++ p) =
      ((lex .bare none p).bind fun vs => Shell.parse (us ++ vs)).map fun c =>
      { c with words := ws ++ c.words } := by
  unfold Shell.simple
  rw [hl]
  cases lex .bare none p with
  | none => rfl
  | some vs =>
    simp only [Option.map_some, Option.bind_some, List.append_assoc, ha.parse, Option.bind_eq_bind]
    cases Shell.parse (us ++ vs) with
    | none => rfl
    | some c =>
      have hn : (ws ++ c.words).head?.any isName = true := by
        cases ws with
        | nil => cases hw
        | cons f fs => exact hw
      simp only [Option.map_some, Option.bind_some, hn, ↓reduceIte]

/-- The words of a line start with those of its first part. -/
theorem Lead.words {us : List Token} {p : CStr} {c : Simple} (hl : Lead pre (ts ++ us))
    (ha : Args ts ws) (hw : ws.head?.any isName = true) (h : Shell.simple (pre ++ p) = some c) :
    ws <+: c.words := by
  rw [hl.simple ha hw] at h
  obtain ⟨c', _, rfl⟩ := Option.map_eq_some_iff.1 h
  exact List.prefix_append ws c'.words

theorem parse_target {vs : List Token} {p : CStr}
    (h : Shell.parse (.op (lit ">") :: vs) = some { out := [p] }) :
    ∃ ps us, vs = .word ps :: us ∧ target ps = some p := by
  have hne : lit ">" ≠ [newline] := by decide
  match vs, h with
  | [], h => simp [Shell.parse, hne] at h
  | .op o :: us, h => simp [Shell.parse, hne] at h
  | .word ps :: us, h =>
    simp only [Shell.parse, ↓reduceIte, Option.bind_eq_bind, Option.bind_eq_some_iff] at h
    obtain ⟨f, hf, c, _, hc⟩ := h
    obtain ⟨_, ho⟩ := Simple.mk.inj (Option.some.inj hc)
    obtain ⟨rfl, _⟩ := List.cons.inj ho
    exact ⟨ps, us, rfl, hf⟩

theorem parse_arg {vs : List Token} {p : CStr} (h : Shell.parse vs = some { words := [p] }) :
    ∃ ps us, vs = .word ps :: us ∧ arg ps = some p := by
  match vs, h with
  | [], h => simp [Shell.parse] at h
  | .op o :: [], h =>
    simp only [Shell.parse] at h
    split_ifs at h
    simp at h
  | .op o :: .op o' :: us, h =>
    simp only [Shell.parse] at h
    split_ifs at h
    simp at h
  | .op o :: .word ps :: us, h =>
    simp only [Shell.parse] at h
    split_ifs at h
    simp only [Option.bind_eq_bind, Option.bind_eq_some_iff] at h
    obtain ⟨f, _, c, _, hc⟩ := h
    obtain ⟨_, ho⟩ := Simple.mk.inj (Option.some.inj hc)
    cases ho
  | .word ps :: us, h =>
    simp only [Shell.parse, Option.bind_eq_bind, Option.bind_eq_some_iff] at h
    obtain ⟨f, hf, c, _, hc⟩ := h
    obtain ⟨hw, _⟩ := Simple.mk.inj (Option.some.inj hc)
    obtain ⟨rfl, _⟩ := List.cons.inj hw
    exact ⟨ps, us, rfl, hf⟩

/-- The last part of a line that has nothing but the path to add. -/
theorem Lead.last {us : List Token} {p : CStr} {c : Simple} (hl : Lead pre (ts ++ us))
    (ha : Args ts ws) (hw : ws.head?.any isName = true)
    (h : Shell.simple (pre ++ p) = some { words := ws ++ c.words, out := c.out }) :
    ∃ vs, lex .bare none p = some vs ∧ Shell.parse (us ++ vs) = some c := by
  rw [hl.simple ha hw] at h
  obtain ⟨c', hc', hcw⟩ := Option.map_eq_some_iff.1 h
  obtain ⟨vs, hvs, hp⟩ := Option.bind_eq_some_iff.1 hc'
  obtain ⟨h1, h2⟩ := Simple.mk.inj hcw
  obtain rfl : c' = c := by
    cases c'
    cases c
    simp_all
  exact ⟨vs, hvs, hp⟩

/-- A path after a redirection is the file redirected to exactly when it is plain. -/
theorem simple_target_iff (hl : Lead pre (ts ++ [.op (lit ">")])) (ha : Args ts ws)
    (hw : ws.head?.any isName = true) (p : CStr) :
    Shell.simple (pre ++ p) = some { words := ws, out := [p] } ↔ PlainTarget p := by
  constructor
  · intro h
    obtain ⟨vs, hvs, hp⟩ := hl.last (c := { out := [p] }) ha hw (by simpa using h)
    obtain ⟨ps, us, rfl, hf⟩ := parse_target hp
    unfold target at hf
    split_ifs at hf with htl
    have ht : text ps = p := Option.some.inj hf
    obtain ⟨hb, hh, hn⟩ := plain_of_lex hvs ht
    rw [lex_plain hb hh hn] at hvs
    cases hvs
    exact ⟨hb, hh, fun h => htl ((hasTilde_bare p).2 h), hn⟩
  · intro h
    rw [hl.simple ha hw, lex_plain h.bytes h.hash h.ne_nil]
    simp [Shell.parse, target_bare h]

/-- A path at the end of a command's arguments is its last argument exactly when it is plain. -/
theorem simple_arg_iff (hl : Lead pre ts) (ha : Args ts ws) (hw : ws.head?.any isName = true)
    (p : CStr) : Shell.simple (pre ++ p) = some { words := ws ++ [p] } ↔ PlainArg p := by
  have hl' : Lead pre (ts ++ []) := by rwa [List.append_nil]
  constructor
  · intro h
    obtain ⟨vs, hvs, hp⟩ := hl'.last (c := { words := [p] }) ha hw h
    obtain ⟨ps, us, rfl, hf⟩ := parse_arg hp
    unfold arg at hf
    split_ifs at hf with htl
    have ht : text ps = p := Option.some.inj hf
    obtain ⟨hb, hh, hn⟩ := plain_of_lex hvs ht
    rw [lex_plain hb hh hn] at hvs
    cases hvs
    rw [Bool.or_eq_true, not_or] at htl
    exact ⟨⟨hb, hh, fun h => htl.1 ((hasTilde_bare p).2 h), hn⟩,
      (hasPattern_bare p).1 (by simpa using htl.2)⟩
  · intro h
    rw [hl'.simple ha hw, lex_plain h.bytes h.hash h.ne_nil]
    simp [Shell.parse, arg_bare h]

end

end Shell
