import NfsRods.Types

/-!
# The scanner of the exports file

`exports.l`: its patterns, in order, with the token each returns, and the scanner flex makes of
them. The longest match wins, the first pattern among equals; a pattern anchored with `^` is tried
at the beginning of a line only.

Between two calls of `exports_parse` the scanner keeps its buffer (`YyBuffer`): the input read but
not scanned, and whether it stands at the beginning of a line. Only the end of the input clears it.
-/

namespace NfsRods

open CStr

/-! ## Patterns -/

/-- A pattern over classes of bytes. -/
inductive Regex
  | eps
  | cls (p : UInt8 → Bool)
  | seq (r t : Regex)
  | alt (r t : Regex)
  | star (r : Regex)

namespace Regex

/-- The pattern matches the empty string. -/
def nullable : Regex → Bool
  | eps => true
  | cls _ => false
  | seq r t => r.nullable && t.nullable
  | alt r t => r.nullable || t.nullable
  | star _ => true

/-- What may remain to be matched after the byte `b`. -/
def next (b : UInt8) : Regex → List Regex
  | eps => []
  | cls p => if p b then [eps] else []
  | seq r t => (r.next b).map (seq · t) ++ if r.nullable then t.next b else []
  | alt r t => r.next b ++ t.next b
  | star r => (r.next b).map (seq · (star r))

/-- Runs the patterns over the input, `n` bytes of which are matched, and keeps the last length at
which one of them was complete. -/
def runs : List Regex → Nat → Option Nat → CStr → Option Nat
  | rs, n, best, s =>
    let best := if rs.any nullable then some n else best
    match s with
    | [] => best
    | b :: s =>
      match rs.flatMap (next b) with
      | [] => best
      | rs' => runs rs' (n + 1) best s

/-- The length of the longest match at the start of `s`. -/
def longest (r : Regex) (s : CStr) : Option Nat := runs [r] 0 none s

def char (b : UInt8) : Regex := cls (· == b)

def opt (r : Regex) : Regex := alt r eps

def plus (r : Regex) : Regex := seq r (star r)

/-- One after the other. -/
def cat : List Regex → Regex
  | [] => eps
  | [r] => r
  | r :: rs => seq r (cat rs)

end Regex

open Regex

/-- `.`: any byte but the newline. -/
def reAny : Regex := cls (· != 10)

/-- `WHITE`. -/
def reWhite : Regex := cls fun b => b == 32 || b == 9

/-- `NOWHITE`. -/
def reNowhite : Regex := cls fun b => !(b == 32 || b == 10 || b == 9)

def isDigit (b : UInt8) : Bool := 48 ≤ b && b ≤ 57

def isLower (b : UInt8) : Bool := 97 ≤ b && b ≤ 122

/-- `PATH`. -/
def rePath : Regex := seq (char slash) (star reNowhite)

/-- `ID`. -/
def reId : Regex :=
  seq (cls isLower) (star (cls fun b => b == 46 || b == 45 || b == 95 || isLower b || isDigit b))

/-- `OPTVALUE`. -/
def reOptvalue : Regex := star (cls fun b => !(b == 32 || b == 10 || b == 9 || b == 44 || b == 41))

/-- `IPCOMP`: one to three digits. -/
def reIpcomp : Regex := seq (cls isDigit) (opt (seq (cls isDigit) (opt (cls isDigit))))

/-- `IP`. -/
def reIp : Regex :=
  cat [reIpcomp, char 46, reIpcomp, char 46, reIpcomp, char 46, reIpcomp]

/-- `NETCOMP`: one or two digits. -/
def reNetcomp : Regex := seq (cls isDigit) (opt (cls isDigit))

/-- `NET`. -/
def reNet : Regex := cat [reIp, char slash, reNetcomp]

/-- `OLDNET`. -/
def reOldnet : Regex := cat [reIp, char slash, reIp]

/-! ## Tokens -/

/-- The tokens of `exports.y`; a byte of its own stands for itself. -/
inductive EToken
  | path (text : CStr)
  | id (text : CStr)
  | optvalue (text : CStr)
  | white
  | ip (text : CStr)
  | net (text : CStr)
  | oldnet (text : CStr)
  | char (b : UInt8)
  deriving DecidableEq, Repr

/-- `'\n'`, `'('`, `')'` and `','`. -/
abbrev EToken.newline : EToken := .char 10
abbrev EToken.lparen : EToken := .char 40
abbrev EToken.rparen : EToken := .char 41
abbrev EToken.comma : EToken := .char 44

/-- The parser takes a token code that is not positive for the end of the input: `return *yytext`
returns 0 for a NUL and a negative number for a byte above 127. -/
def EToken.isEnd : EToken → Bool
  | .char b => b == 0 || 128 ≤ b
  | _ => false

/-- `copy_text`: the text kept, read as a C string, and whether it was too long (`e_error`). -/
def copyText (text : CStr) : CStr × Bool :=
  ((if maxPathLen < text.length + 1 then text.take (maxPathLen - 1) else text).takeWhile (· != 0),
    maxPathLen < text.length + 1)

/-- A rule of `exports.l`: whether it is anchored with `^`, its pattern, and what its action
returns for the matched text (`none`: nothing, the scanner goes on). The flag is `e_error`. -/
structure ERule where
  bol : Bool := false
  pattern : Regex
  action : CStr → Option (EToken × Bool)

/-- An action that copies its text and returns a token of it. -/
def returnText (f : CStr → EToken) (text : CStr) : Option (EToken × Bool) :=
  some (f (copyText text).1, (copyText text).2)

/-- The rules of `exports.l`. -/
def erules : List ERule :=
  [ -- eat empty line
   { bol := true, pattern := seq (star reWhite) (char 10), action := fun _ => none },
   -- eat whitespace at beginning of line
   { bol := true, pattern := star reWhite, action := fun _ => none },
   -- eat escaped newline
   { pattern := seq (char 92) (char 10), action := fun _ => none },
   -- eat one-line comment
   { bol := true, pattern := cat [star reWhite, char 35, star reAny, char 10],
     action := fun _ => none },
   -- eat trailing comment
   { pattern := cat [star reWhite, char 35, star reAny], action := fun _ => none },
   { pattern := reIp, action := returnText .ip },
   { pattern := reNet, action := returnText .net },
   { pattern := reOldnet, action := returnText .oldnet },
   -- the text between the quotes
   { pattern := cat [char 34, star reAny, char 34],
     action := fun t => returnText .path (t.tail.dropLast) },
   { pattern := seq (char 61) reOptvalue, action := fun t => returnText .optvalue t.tail },
   { pattern := rePath, action := returnText .path },
   { pattern := plus reWhite, action := returnText fun _ => .white },
   { pattern := reId, action := returnText .id },
   { pattern := reAny, action := fun t => some (.char (t.headD 0), false) },
   { pattern := char 10, action := fun _ => some (.newline, false) }]

/-- The rule that matches most of the input, the first of those that match as much. -/
def bestRule (bol : Bool) (s : CStr) : List ERule → Option (Nat × ERule)
  | [] => none
  | r :: rs =>
    match (if r.bol && !bol then none else r.pattern.longest s), bestRule bol s rs with
    | none, best => best
    | some n, none => some (n, r)
    | some n, some (m, r') => if n < m then some (m, r') else some (n, r)

/-! ## Scanning -/

/-- A token with `e_error` as its action sets it, and the scanner as it stands behind it. -/
structure Lexeme where
  tok : EToken
  long : Bool
  unread : CStr
  bol : Bool
  deriving DecidableEq, Repr

/-- What the successive calls of `yylex` return for an input; the first `skip` bytes of it belong
to the match before. Some rule matches one byte at least (`.` or the newline). -/
def scan : Nat → Bool → CStr → List Lexeme
  | _, _, [] => []
  | skip + 1, bol, _ :: s => scan skip bol s
  | 0, bol, b :: s =>
    match bestRule bol (b :: s) erules with
    | none => []
    | some (n, r) =>
      -- `YY_RULE_SETUP`
      let bol := ((b :: s).take n).getLast? == some 10
      match r.action ((b :: s).take n) with
      | none => scan (n - 1) bol s
      | some (tok, long) =>
        { tok := tok, long := long, unread := (b :: s).drop n, bol := bol } :: scan (n - 1) bol s

/-- The scanner's buffer between two calls of the parser: the input read and not scanned,
`yy_at_bol`, and whether the end of the file it came from has been met (`YY_BUFFER_EOF_PENDING`).
-/
structure YyBuffer where
  text : CStr := []
  bol : Bool := true
  eof : Bool := false
  deriving DecidableEq, Repr

/-- What the scanner has before it when `yyin` is a new file: it goes on with its buffer, and
reads the file only when the end of the old one has not been met. -/
def YyBuffer.input (b : YyBuffer) (file : CStr) : CStr := if b.eof then b.text else b.text ++ file

/-- How far `yy_get_next_buffer` has read ahead when a call stops: with the buffer it started
from, the file, and what has not been scanned, the number of bytes of the latter it has asked for.
-/
abbrev ReadAhead := YyBuffer → CStr → CStr → Nat

/-- The buffer left behind when the parser stops at a token. -/
def Lexeme.leave (l : Lexeme) (ahead : Nat) : YyBuffer :=
  { text := l.unread.take ahead, bol := l.bol, eof := l.unread.length < ahead }

end NfsRods
