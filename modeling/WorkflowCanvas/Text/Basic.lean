import WorkflowCanvas.Text.Graphic

/-!
# Texts

What the readers and the messages of all formats share: white space, digits in any base, the pieces
of a text between separators, and the text as messages quote it.
-/

namespace WorkflowCanvas.Text

/-! ## White space -/

/-- The Unicode property `White_Space`, by which user input is trimmed. -/
def isBlank (c : Char) : Bool :=
  let n := c.toNat
  (9 ≤ n && n ≤ 13) || n == 0x20 || n == 0x85 || n == 0xA0 || n == 0x1680
    || (0x2000 ≤ n && n ≤ 0x200A) || n == 0x2028 || n == 0x2029 || n == 0x202F || n == 0x205F
    || n == 0x3000

/-- The text without leading white space. -/
def trimStart (text : List Char) : List Char := text.dropWhile isBlank

/-- The text without white space at either end. -/
def trim (text : List Char) : List Char := (trimStart (trimStart text).reverse).reverse

/-- Whether a text has no character other than white space. -/
def isBlankText (text : String) : Bool := text.toList.all isBlank

theorem trimStart_cons_of_not_isBlank {c : Char} {text : List Char} (h : isBlank c = false) :
    trimStart (c :: text) = c :: text := by
  simp [trimStart, h]

/-! ## Digits -/

/-- The value of a digit or letter, none for another character. -/
def digitValue? (c : Char) : Option Nat :=
  if '0' ≤ c ∧ c ≤ '9' then some (c.toNat - 48)
  else if 'a' ≤ c ∧ c ≤ 'z' then some (c.toNat - 87)
  else if 'A' ≤ c ∧ c ≤ 'Z' then some (c.toNat - 55)
  else none

/-- The value of a digit in a base up to thirty-six. -/
def digit? (base : Nat) (c : Char) : Option Nat := (digitValue? c).filter (· < base)

/-- The number that digits write, most significant first. -/
def numberOf (base : Nat) (digits : List Nat) : Nat := digits.foldl (fun n d => n * base + d) 0

/-- The number a text writes; every character must be a digit. -/
def number? (base : Nat) (text : List Char) : Option Nat :=
  (text.mapM (digit? base)).map (numberOf base)

theorem digit?_lt {base value : Nat} {c : Char} (h : digit? base c = some value) :
    value < base := by
  simpa using (Option.filter_eq_some_iff.1 h).2

/-! ## Pieces -/

/-- The pieces between separators; with `n` separators there are `n + 1` pieces. -/
def split (isSeparator : Char → Bool) : List Char → List (List Char)
  | [] => [[]]
  | c :: text =>
    if isSeparator c then [] :: split isSeparator text
    else
      match split isSeparator text with
      | [] => [[c]]
      | piece :: pieces => (c :: piece) :: pieces

/-- The text before the last occurrence of a character and the text behind it. -/
def splitLast? (c : Char) : List Char → Option (List Char × List Char)
  | [] => none
  | d :: text =>
    match splitLast? c text with
    | some (before, behind) => some (d :: before, behind)
    | none => if d = c then some ([], text) else none

/-! ## Quotation -/

/-- A character between quotes.  A quote, a backslash and the controls with a letter of their own
are written with a backslash, every other character that is not graphic by its code point in
hexadecimal. -/
def quoteChar (c : Char) : List Char :=
  match c with
  | '"' => ['\\', '"']
  | '\\' => ['\\', '\\']
  | '\t' => ['\\', 't']
  | '\r' => ['\\', 'r']
  | '\n' => ['\\', 'n']
  | '\x00' => ['\\', '0']
  | c =>
    if isGraphic c then [c]
    else ['\\', 'u', '\x7b'] ++ Nat.toDigits 16 c.toNat ++ ['\x7d']

/-- A text between double quotes, as error messages show it. -/
def quoted (text : String) : String :=
  String.ofList ('"' :: text.toList.flatMap quoteChar ++ ['"'])

end WorkflowCanvas.Text
