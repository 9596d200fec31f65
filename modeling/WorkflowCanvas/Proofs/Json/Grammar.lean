import WorkflowCanvas.Proofs.Decimal.Nearest

/-!
# The JSON grammar

What a text of characters says, by the rules of the JSON grammar and without a reader.  A `Datum` is
a JSON value with its numbers as they are written and the members of its objects in their order.
There is one rule for each production; `Grammar.Element` is that of a whole text.

A pair of surrogates stands for one character and a lone one for none, so the rules give no meaning
to a text with a lone one.
-/

namespace WorkflowCanvas.Json

/-- A JSON value as a text says it. -/
inductive Datum
  | null
  | flag (value : Bool)
  | number (numeral : Numeral)
  | text (value : String)
  | list (items : List Datum)
  | object (members : List (String × Datum))

namespace Grammar

/-! ## Space -/

/-- The characters that may stand between tokens. -/
def isBlank (c : Char) : Bool := c == ' ' || c == '\t' || c == '\n' || c == '\r'

/-- Space between tokens, or none. -/
def Blank (cs : List Char) : Prop := ∀ c ∈ cs, isBlank c = true

/-! ## Texts -/

/-- Four hexadecimal digits. -/
def CodeUnit (digits : List Char) (value : Nat) : Prop :=
  digits.length = 4 ∧ Text.number? 16 digits = some value

/-- The letters behind a backslash and what they stand for. -/
def shortEscapes : List (Char × Char) :=
  [('"', '"'), ('\\', '\\'), ('/', '/'), ('b', '\x08'), ('f', '\x0c'), ('n', '\n'), ('r', '\r'),
    ('t', '\t')]

/-- What follows a backslash for one character. -/
inductive Escape : List Char → Char → Prop
  | short {letter c : Char} (listed : (letter, c) ∈ shortEscapes) : Escape [letter] c
  | unit {digits : List Char} {c : Char} (codes : CodeUnit digits c.toNat) :
    Escape ('u' :: digits) c
  | pair {leading trailing : List Char} {high low : Nat} {c : Char}
    (leads : CodeUnit leading (0xD800 + high)) (high_lt : high < 0x400)
    (trails : CodeUnit trailing (0xDC00 + low)) (low_lt : low < 0x400)
    (toNat_eq : c.toNat = 0x10000 + 0x400 * high + low) :
    Escape ('u' :: (leading ++ '\\' :: 'u' :: trailing)) c

/-- One character between quotes, as itself or as an escape. -/
inductive Piece : List Char → Char → Prop
  | plain {c : Char} (printable : 0x20 ≤ c.toNat) (ne_quote : c ≠ '"')
    (ne_backslash : c ≠ '\\') : Piece [c] c
  | escape {cs : List Char} {c : Char} (behind : Escape cs c) : Piece ('\\' :: cs) c

/-- The characters between quotes. -/
inductive Spelling : List Char → List Char → Prop
  | nil : Spelling [] []
  | cons {piece cs characters : List Char} {c : Char} (first : Piece piece c)
    (others : Spelling cs characters) : Spelling (piece ++ cs) (c :: characters)

/-- What is between quotes with the quotes. -/
def quoted (cs : List Char) : List Char := '"' :: cs ++ ['"']

/-! ## Numbers -/

/-- One digit or more. -/
structure Digits (cs : List Char) : Prop where
  isDigit : ∀ c ∈ cs, c.isDigit = true
  ne_nil : cs ≠ []

/-- The digits behind the point, if there is one. -/
inductive Fraction : List Char → List Char → Prop
  | none : Fraction [] []
  | some {digits : List Char} (all : Digits digits) : Fraction ('.' :: digits) digits

/-- The power of ten behind its letter, if there is one. -/
inductive Power : List Char → Int → Prop
  | none : Power [] 0
  | some {mark : Char} {sign digits : List Char} (marked : mark = 'e' ∨ mark = 'E')
    (signed : sign = [] ∨ sign = ['+'] ∨ sign = ['-']) (all : Digits digits) :
    Power (mark :: (sign ++ digits))
      (if sign = ['-'] then -Nat.ofDigitChars 10 digits 0 else Nat.ofDigitChars 10 digits 0)

/-- A number. -/
inductive Number : List Char → Numeral → Prop
  | mk {sign whole fractionText fraction powerText : List Char} {power : Int}
    (signed : sign = [] ∨ sign = ['-']) (digits : Decimal.WholeDigits whole)
    (behindPoint : Fraction fractionText fraction) (behindLetter : Power powerText power) :
    Number (sign ++ (whole ++ (fractionText ++ powerText)))
      ⟨sign = ['-'], Nat.ofDigitChars 10 (whole ++ fraction) 0, power - fraction.length⟩

/-! ## Values -/

/-- One thing or more, with commas between them. -/
inductive Separated {α : Type} (Item : List Char → α → Prop) : List Char → List α → Prop
  | one {cs : List Char} {x : α} (item : Item cs x) : Separated Item cs [x]
  | more {cs others : List Char} {x : α} {xs : List α} (item : Item cs x)
    (behind : Separated Item others xs) : Separated Item (cs ++ ',' :: others) (x :: xs)

/-- Space between two brackets, or things with commas. -/
inductive Enclosed {α : Type} (left right : Char) (Item : List Char → α → Prop) :
    List Char → List α → Prop
  | empty {blank : List Char} (space : Blank blank) :
    Enclosed left right Item (left :: (blank ++ [right])) []
  | items {cs : List Char} {xs : List α} (inside : Separated Item cs xs) :
    Enclosed left right Item (left :: (cs ++ [right])) xs

mutual

/-- A value without space around it. -/
inductive Value : List Char → Datum → Prop
  | null : Value ['n', 'u', 'l', 'l'] .null
  | yes : Value ['t', 'r', 'u', 'e'] (.flag true)
  | no : Value ['f', 'a', 'l', 's', 'e'] (.flag false)
  | number {cs : List Char} {numeral : Numeral} (digits : Number cs numeral) :
    Value cs (.number numeral)
  | text {cs : List Char} {value : String} (spelling : Spelling cs value.toList) :
    Value (quoted cs) (.text value)
  | list {cs : List Char} {items : List Datum} (enclosed : Enclosed '[' ']' Element cs items) :
    Value cs (.list items)
  | object {cs : List Char} {members : List (String × Datum)}
    (enclosed : Enclosed '\x7b' '\x7d' Member cs members) : Value cs (.object members)

/-- A value with the space around it. -/
inductive Element : List Char → Datum → Prop
  | mk {before cs after : List Char} {d : Datum} (blankBefore : Blank before) (value : Value cs d)
    (blankAfter : Blank after) : Element (before ++ (cs ++ after)) d

/-- A member of an object. -/
inductive Member : List Char → String × Datum → Prop
  | mk {before key after cs : List Char} {name : String} {d : Datum} (blankBefore : Blank before)
    (spelling : Spelling key name.toList) (blankAfter : Blank after) (value : Element cs d) :
    Member (before ++ (quoted key ++ (after ++ ':' :: cs))) (name, d)

end

/-- The reader takes every text that says something for what it says. -/
def Follows (read : List Char → Option Datum) : Prop := ∀ cs d, Element cs d → read cs = some d

end Grammar

end WorkflowCanvas.Json
