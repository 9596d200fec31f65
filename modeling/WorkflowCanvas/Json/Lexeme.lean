import WorkflowCanvas.Json.Error
import WorkflowCanvas.Json.Symbol
import WorkflowCanvas.Text.Basic

/-!
# The words of a JSON text

Readers of single tokens over a list of symbols: literals, texts and numbers.  A reader answers what
it read and the symbols behind it.  Each exists twice, once with its value (`readText`,
`readNumber`) and once for a value nobody asks for (`skipText`, `skipNumber`), which is checked for
its form only: surrogates need no partner there and a number may be out of range.

Numbers are read in two steps that both round.  The digits are taken as a whole number as long as it
fits 64 bits, the others only count as powers of ten; the binary64 number nearest to the result is
then multiplied or divided by the binary64 number nearest to that power of ten.
-/

namespace WorkflowCanvas.Json

-- Powers of naturals are those of the core library, whatever else is imported.
attribute [local instance (high)] instPowNat

/-- What a reader read, and the symbols behind it. -/
abbrev Scan (α : Type) := Except Error (α × List Symbol)

/-- The space between tokens. -/
def isSpace : Symbol → Bool
  | .char ' ' | .char '\n' | .char '\t' | .char '\r' => true
  | _ => false

/-- The symbols from the next token on. -/
def afterSpace (input : List Symbol) : List Symbol := input.dropWhile isSpace

/-- The value of a decimal digit. -/
def digit? : Symbol → Option Nat
  | .char c => Text.digit? 10 c
  | .stray _ => none

/-- The value of a hexadecimal digit in either case. -/
def hexDigit? : Symbol → Option Nat
  | .char c => Text.digit? 16 c
  | .stray _ => none

/-- The digits at the head, and what follows them. -/
def spanDigits : List Symbol → List Nat × List Symbol
  | [] => ([], [])
  | s :: rest =>
    match digit? s with
    | some d => ((d :: (spanDigits rest).1), (spanDigits rest).2)
    | none => ([], s :: rest)

/-! ## Literals -/

/-- Reads the rest of a literal behind its first letter. -/
def readLiteral : List Char → List Symbol → Except Error (List Symbol)
  | [], input => .ok input
  | _ :: _, [] => .error .endOfValue
  | c :: word, s :: input => if s = .char c then readLiteral word input else .error .noLiteral

/-! ## Texts -/

/-- Where the reader of a text stands between its quotes. -/
inductive TextState
  | plain
  /-- Behind a backslash. -/
  | escape
  /-- Among the digits of a `\u` escape: how many are missing, and the value so far. -/
  | hex (missing : Nat) (value : Nat) (lead : Option Nat)
  /-- Behind a leading surrogate, whose partner must follow. -/
  | paired (lead : Nat)
  /-- Behind a leading surrogate and a backslash. -/
  | pairedEscape (lead : Nat)

/-- The character of a two-character escape. -/
def escaped? : Char → Option Char
  | '"' => some '"'
  | '\\' => some '\\'
  | '/' => some '/'
  | 'b' => some '\x08'
  | 'f' => some '\x0c'
  | 'n' => some '\n'
  | 'r' => some '\r'
  | 't' => some '\t'
  | _ => none

/-- What four hexadecimal digits stand for, given the leading surrogate they may complete: a
character, or a leading surrogate of their own. -/
def closeHex (lead : Option Nat) (value : Nat) : Except Error (Char ⊕ Nat) :=
  match lead with
  | some high =>
    if 0xDC00 ≤ value ∧ value ≤ 0xDFFF then
      .ok (.inl (Char.ofNat (0x10000 + (high - 0xD800) * 0x400 + (value - 0xDC00))))
    else
      .error .loneSurrogate
  | none =>
    if 0xDC00 ≤ value ∧ value ≤ 0xDFFF then .error .loneSurrogate
    else if 0xD800 ≤ value ∧ value ≤ 0xDBFF then .ok (.inr value)
    else .ok (.inl (Char.ofNat value))

/-- Reads a text behind its opening quote.  `read` holds the characters so far, last one first, and
`clean` tells that none of them was a stray byte. -/
def readTextFrom : TextState → Bool → List Char → List Symbol → Scan String
  | _, _, _, [] => .error .endOfText
  | .plain, clean, read, s :: input =>
    match s with
    | .char '"' =>
      if clean then .ok (String.ofList read.reverse, input) else .error .badCodePoint
    | .char '\\' => readTextFrom .escape clean read input
    | .char c =>
      if c.toNat < 0x20 then .error .controlCharacter
      else readTextFrom .plain clean (c :: read) input
    | .stray _ => readTextFrom .plain false read input
  | .escape, clean, read, s :: input =>
    match s with
    | .char 'u' =>
      -- The four digits are looked for among the next four bytes.
      if Symbol.spans input 4 then readTextFrom (.hex 4 0 none) clean read input
      else .error .endOfText
    | .char c =>
      match escaped? c with
      | some e => readTextFrom .plain clean (e :: read) input
      | none => .error .badEscape
    | .stray _ => .error .badEscape
  | .hex missing value lead, clean, read, s :: input =>
    match hexDigit? s with
    | none => .error .badEscape
    | some d =>
      if 1 < missing then
        readTextFrom (.hex (missing - 1) (value * 16 + d) lead) clean read input
      else
        match closeHex lead (value * 16 + d) with
        | .error e => .error e
        | .ok (.inl c) => readTextFrom .plain clean (c :: read) input
        | .ok (.inr high) => readTextFrom (.paired high) clean read input
  | .paired lead, clean, read, s :: input =>
    if s = .char '\\' then readTextFrom (.pairedEscape lead) clean read input
    else .error .cutSurrogatePair
  | .pairedEscape lead, clean, read, s :: input =>
    if s = .char 'u' then
      if Symbol.spans input 4 then readTextFrom (.hex 4 0 (some lead)) clean read input
      else .error .endOfText
    else .error .cutSurrogatePair

/-- Reads a text behind its opening quote. -/
def readText (input : List Symbol) : Scan String := readTextFrom .plain true [] input

/-- Where the skipper of a text stands: outside an escape, behind a backslash, or with some digits
of a `\u` escape missing. -/
inductive SkipState
  | plain
  | escape
  | hex (missing : Nat)

/-- Skips a text behind its opening quote. -/
def skipTextFrom : SkipState → List Symbol → Except Error (List Symbol)
  | _, [] => .error .endOfText
  | .plain, s :: input =>
    match s with
    | .char '"' => .ok input
    | .char '\\' => skipTextFrom .escape input
    | .char c => if c.toNat < 0x20 then .error .controlCharacter else skipTextFrom .plain input
    | .stray _ => skipTextFrom .plain input
  | .escape, s :: input =>
    match s with
    | .char 'u' => if Symbol.spans input 4 then skipTextFrom (.hex 4) input else .error .endOfText
    | .char c => if (escaped? c).isSome then skipTextFrom .plain input else .error .badEscape
    | .stray _ => .error .badEscape
  | .hex missing, s :: input =>
    if (hexDigit? s).isSome then
      skipTextFrom (if 1 < missing then .hex (missing - 1) else .plain) input
    else
      .error .badEscape

/-- Skips a text behind its opening quote. -/
def skipText (input : List Symbol) : Except Error (List Symbol) := skipTextFrom .plain input

/-! ## Numbers -/

/-- The greatest whole number of 64 bits. -/
def maxWhole : Nat := 2 ^ (64 : Nat) - 1

/-- Takes digits onto a whole number as long as it fits 64 bits; answers the number and the digits
left over from the first that does not fit. -/
def takeWhole : Nat → List Nat → Nat × List Nat
  | whole, [] => (whole, [])
  | whole, d :: digits =>
    if whole * 10 + d ≤ maxWhole then takeWhole (whole * 10 + d) digits else (whole, d :: digits)

/-- `whole * 10 ^ exponent` for a binary64 number, rounding at each step.  A power of ten beyond
binary64 is divided out in parts; nothing but zero survives three of them. -/
def scale : Nat → Binary64 → Int → Except Error Binary64
  | 0, whole, _ => .ok whole
  | parts + 1, whole, exponent =>
    if exponent.natAbs ≤ 308 then
      if 0 ≤ exponent then
        let x := whole.mul (.powerOfTen exponent.natAbs)
        if x.isFinite then .ok x else .error .numberOutOfRange
      else
        .ok (whole.div (.powerOfTen exponent.natAbs))
    else if whole = .zero then .ok whole
    else if 0 ≤ exponent then .error .numberOutOfRange
    else scale parts (whole.div (.powerOfTen 308)) (exponent + 308)

/-- The number read from its sign, its whole digits and its power of ten. -/
def realNumber (negative : Bool) (whole : Nat) (exponent : Int) : Except Error Number :=
  match scale 4 (.ofNat whole) exponent with
  | .ok x => .ok (.real (if negative then x.neg else x))
  | .error e => .error e

/-- The number read from its sign and digits when it has neither fraction nor exponent.  A negative
zero and what 64 bits do not hold are binary64. -/
def wholeNumber (negative : Bool) (whole : Nat) : Number :=
  if negative then
    if 1 ≤ whole ∧ whole ≤ 2 ^ (63 : Nat) then .negative whole else .real (Binary64.ofNat whole).neg
  else
    .natural whole

/-- The greatest exponent that is counted. -/
def maxExponent : Nat := 2 ^ (31 : Nat) - 1

/-- Reads an exponent behind its sign, onto the power of ten so far. -/
def readPower (negative : Bool) (whole : Nat) (exponent : Int) (down : Bool)
    (input : List Symbol) : Scan Number :=
  let (digits, rest) := spanDigits input
  match digits with
  | [] => .error (if input = [] then .endOfValue else .badNumber)
  | _ =>
    let size := digits.foldl (fun n d => n * 10 + d) 0
    if maxExponent < size then
      if whole ≠ 0 ∧ !down then .error .numberOutOfRange
      else .ok (.real (.finite negative .zero), rest)
    else
      (realNumber negative whole (if down then exponent - size else exponent + size)).map
        fun n => (n, rest)

/-- Reads an exponent behind its `e`, onto the power of ten so far. -/
def readExponent (negative : Bool) (whole : Nat) (exponent : Int) : List Symbol → Scan Number
  | .char '+' :: rest => readPower negative whole exponent false rest
  | .char '-' :: rest => readPower negative whole exponent true rest
  | input => readPower negative whole exponent false input

/-- Reads what may follow the digits of a number: an exponent, or nothing. -/
def readScale (negative : Bool) (whole : Nat) (exponent : Int) (input : List Symbol) :
    Scan Number :=
  match input with
  | .char 'e' :: rest | .char 'E' :: rest => readExponent negative whole exponent rest
  | _ => (realNumber negative whole exponent).map fun n => (n, input)

/-- Reads a fraction behind its point. -/
def readFraction (negative : Bool) (whole : Nat) (exponent : Int) (input : List Symbol) :
    Scan Number :=
  let (digits, rest) := spanDigits input
  match digits with
  | [] => .error (if input = [] then .endOfValue else .badNumber)
  | _ =>
    let (whole, dropped) := takeWhole whole digits
    readScale negative whole (exponent - (digits.length - dropped.length)) rest

/-- Reads a number behind its sign. -/
def readUnsigned (negative : Bool) (input : List Symbol) : Scan Number :=
  let (digits, rest) := spanDigits input
  match digits with
  | [] => .error (if input = [] then .endOfValue else .badNumber)
  | 0 :: _ :: _ => .error .badNumber
  | _ =>
    let (whole, dropped) := takeWhole 0 digits
    match rest with
    | .char '.' :: rest => readFraction negative whole dropped.length rest
    | .char 'e' :: _ | .char 'E' :: _ => readScale negative whole dropped.length rest
    | _ =>
      if dropped = [] then .ok (wholeNumber negative whole, rest)
      else readScale negative whole dropped.length rest

/-- Reads a number from its first symbol, a minus sign or a digit. -/
def readNumber : List Symbol → Scan Number
  | .char '-' :: input => readUnsigned true input
  | input => readUnsigned false input

/-- Skips an exponent behind its `e`. -/
def skipExponent (input : List Symbol) : Except Error (List Symbol) :=
  let input := match input with
    | .char '+' :: rest | .char '-' :: rest => rest
    | _ => input
  match spanDigits input with
  | ([], _) => .error .badNumber
  | (_, rest) => .ok rest

/-- Skips what may follow the digits of a number. -/
def skipScale : List Symbol → Except Error (List Symbol)
  | .char 'e' :: rest | .char 'E' :: rest => skipExponent rest
  | input => .ok input

/-- Skips a number behind its sign. -/
def skipUnsigned (input : List Symbol) : Except Error (List Symbol) :=
  match spanDigits input with
  | ([], _) | (0 :: _ :: _, _) => .error .badNumber
  | (_, .char '.' :: rest) =>
    match spanDigits rest with
    | ([], _) => .error .badNumber
    | (_, rest) => skipScale rest
  | (_, rest) => skipScale rest

/-- Skips a number from its first symbol, a minus sign or a digit. -/
def skipNumber : List Symbol → Except Error (List Symbol)
  | .char '-' :: input => skipUnsigned input
  | input => skipUnsigned input

/-! ## Values by their first symbol -/

/-- The error of a value that is not of the expected form.  The value is read as far as the message
shows it, so a malformed one is reported as such. -/
def mistyped (expected : String) : List Symbol → Error
  | .char 'n' :: input => report (readLiteral ['u', 'l', 'l'] input) .null
  | .char 't' :: input => report (readLiteral ['r', 'u', 'e'] input) (.flag true)
  | .char 'f' :: input => report (readLiteral ['a', 'l', 's', 'e'] input) (.flag false)
  | .char '"' :: input =>
    match readText input with
    | .ok (s, _) => .wrongType (.text s) expected
    | .error e => e
  | .char '[' :: _ => .wrongType .list expected
  | .char '\x7b' :: _ => .wrongType .object expected
  | s :: input =>
    if s = .char '-' ∨ (digit? s).isSome then
      match readNumber (s :: input) with
      | .ok (n, _) => .wrongType (.number n) expected
      | .error e => e
    else
      .noValue
  | [] => .noValue
where
  /-- The error of a literal that was read, or the error of reading it. -/
  report (read : Except Error (List Symbol)) (found : Found) : Error :=
    match read with
    | .ok _ => .wrongType found expected
    | .error e => e

end WorkflowCanvas.Json
