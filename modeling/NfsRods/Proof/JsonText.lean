import NfsRods.Json

/-!
# The texts the JSON parser reads

A grammar for the texts that `json_parse` turns into values. Each rule goes from a text to what is
left of it. A comma may stand behind the last element or member, and the digits of a number may be
missing behind its minus sign.

* `JsonItem.Derives`: values, and what is left of an array or an object.
* `JsonDoc`: the whole text.
-/

namespace NfsRods

/-! ## Strings -/

/-- White space and the text behind it. -/
def Blank (t t' : List UInt8) : Prop := ∃ s, (∀ b ∈ s, jsonSpace b = true) ∧ t = s ++ t'

theorem Blank.refl (t : List UInt8) : Blank t t :=
  ⟨[], fun _ hb => absurd hb List.not_mem_nil, rfl⟩

/-- Four hexadecimal digits, their number, and the text behind them. -/
def HexDigits (t : List UInt8) (n : Nat) (t' : List UInt8) : Prop :=
  ∃ ds, ds.length = 4 ∧ (∀ d ∈ ds, hexValue d ≠ 0xff) ∧ t = ds ++ t' ∧
    n = ds.foldl (fun n d => n * 16 + (hexValue d).toNat) 0

/-- A half of a surrogate pair. -/
def Surrogate (n : Nat) : Prop := n &&& 0xf800 = 0xd800

/-- The bytes of a string up to its quote, what they stand for, and the text behind the quote. -/
inductive Chars : List UInt8 → List UInt8 → List UInt8 → Prop
  | quote {t} : Chars (34 :: t) [] t
  | plain {b t s t'} (h : b ≠ 0 ∧ b ≠ 34 ∧ b ≠ 92) : Chars t s t' → Chars (b :: t) (b :: s) t'
  | escape {b t s t'} (h : b ≠ 0 ∧ b ≠ 117) :
    Chars t s t' → Chars (92 :: b :: t) (jsonEscape b :: s) t'
  | unicode {t n t₁ s t'} (hex : HexDigits t n t₁) (h : ¬ Surrogate n) :
    Chars t₁ s t' → Chars (92 :: 117 :: t) (jsonUtf8 n ++ s) t'
  | pair {t n t₁ m t₂ s t'} (hex : HexDigits t n (92 :: 117 :: t₁)) (h : Surrogate n)
    (hex' : HexDigits t₁ m t₂) : Chars t₂ s t' →
    Chars (92 :: 117 :: t) (jsonUtf8 (0x010000 ||| (n &&& 0x3ff) <<< 10 ||| m &&& 0x3ff) ++ s) t'

/-- The number of a string of digits, with what has been read of it before. -/
def digitsFrom (n : Int) (ds : List UInt8) : Int :=
  ds.foldl (fun n d => n * 10 + (d.toNat - 48 : Nat)) n

/-- An exponent behind its letter. -/
def ExpText (r : List UInt8) : Prop :=
  ∃ sign ds, r = sign ++ ds ∧ (sign = [] ∨ sign = [43] ∨ sign = [45]) ∧
    (∀ d ∈ ds, isdigit d = true) ∧ ds ≠ []

/-- An exponent. -/
def ExpPart (r : List UInt8) : Prop := ∃ b e, r = b :: e ∧ (b = 101 ∨ b = 69) ∧ ExpText e

/-- A fraction, and an exponent or nothing. -/
def FracPart (r : List UInt8) : Prop :=
  ∃ f e, r = 46 :: (f ++ e) ∧ (∀ d ∈ f, isdigit d = true) ∧ f ≠ [] ∧ (e = [] ∨ ExpPart e)

/-- What stands behind the digits of a number, and its value. -/
def NumberRest (negative : Bool) (ds r : List UInt8) (v : Json) : Prop :=
  r = [] ∧ v = .integer (if negative then -digitsFrom 0 ds else digitsFrom 0 ds) ∨
    v = .double ∧ (ExpPart r ∨ FracPart r ∧ ds ≠ [])

/-- The text goes on with something else than a number. -/
def NumEnds (t : List UInt8) : Prop := ∀ b ∈ t.head?, jsonNumChar b = false

/-- A number and the text behind it. -/
def NumberText (t : List UInt8) (v : Json) (t' : List UInt8) : Prop :=
  ∃ negative ds r, t = (if negative then [45] else []) ++ (ds ++ (r ++ t')) ∧ NumEnds t' ∧
    (∀ d ∈ ds, isdigit d = true) ∧ (negative = false → ds ≠ []) ∧
    (ds.head? = some 48 → ds = [48]) ∧ digitsFrom 0 ds < 2 ^ 63 ∧ NumberRest negative ds r v

/-! ## Values -/

/-- What a rule is about: a value, or the rest of an array or an object, where an element or a
member may begin or behind one. -/
inductive JsonItem
  | value (v : Json)
  | elements (vs : List Json)
  | moreElements (vs : List Json)
  | members (ms : List (List UInt8 × Json))
  | moreMembers (ms : List (List UInt8 × Json))

/-- The item is read from the first text, and the second is left. -/
inductive JsonItem.Derives : JsonItem → List UInt8 → List UInt8 → Prop
  | true {t} : Derives (.value (.boolean true)) (116 :: 114 :: 117 :: 101 :: t) t
  | false {t} : Derives (.value (.boolean false)) (102 :: 97 :: 108 :: 115 :: 101 :: t) t
  | null {t} : Derives (.value .null) (110 :: 117 :: 108 :: 108 :: t) t
  | string {t s t'} : Chars t s t' → Derives (.value (.string s)) (34 :: t) t'
  | number {t v t'} : NumberText t v t' → Derives (.value v) t t'
  | array {t vs t'} : Derives (.elements vs) t t' → Derives (.value (.array vs)) (91 :: t) t'
  | object {t ms t'} : Derives (.members ms) t t' → Derives (.value (.object ms)) (123 :: t) t'
  | noElement {t t'} : Blank t (93 :: t') → Derives (.elements []) t t'
  | element {t t₁ v t₂ vs t'} : Blank t t₁ → Derives (.value v) t₁ t₂ →
    Derives (.moreElements vs) t₂ t' → Derives (.elements (v :: vs)) t t'
  | lastElement {t t'} : Blank t (93 :: t') → Derives (.moreElements []) t t'
  | nextElement {t t₁ vs t'} : Blank t (44 :: t₁) → Derives (.elements vs) t₁ t' →
    Derives (.moreElements vs) t t'
  | noMember {t t'} : Blank t (125 :: t') → Derives (.members []) t t'
  | member {t t₁ k t₂ t₃ t₄ v t₅ ms t'} : Blank t (34 :: t₁) → Chars t₁ k t₂ →
    Blank t₂ (58 :: t₃) → Blank t₃ t₄ → Derives (.value v) t₄ t₅ →
    Derives (.moreMembers ms) t₅ t' → Derives (.members ((k, v) :: ms)) t t'
  | lastMember {t t'} : Blank t (125 :: t') → Derives (.moreMembers []) t t'
  | nextMember {t t₁ ms t'} : Blank t (44 :: t₁) → Derives (.members ms) t₁ t' →
    Derives (.moreMembers ms) t t'

end NfsRods
