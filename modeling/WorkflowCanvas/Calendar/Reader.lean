import WorkflowCanvas.Calendar.Timestamp
import WorkflowCanvas.Text.Basic

/-!
# Reading dates and times

Two ways to read a text, both of which must use it up.

* The lenient one, for what users type: white space may stand before every number, a month, day,
  hour or minute has one or two digits, and a year up to four digits or, behind a sign, any number.
* The strict one, for instants: four and two digits, a `T` or a space between date and time, an
  optional fraction and an offset from universal time, `Z` or hours and minutes behind a sign.

A fraction has any number of digits, of which nine count.
-/

namespace WorkflowCanvas.Calendar

-- Powers of naturals are those of the core library, whatever else is imported.
attribute [local instance (high)] instPowNat

/-- The digits at the head, at most `most` of them, and what follows. -/
def takeDigits : Nat → List Char → List Nat × List Char
  | 0, text => ([], text)
  | _ + 1, [] => ([], [])
  | most + 1, c :: text =>
    match Text.digit? 10 c with
    | some d => (d :: (takeDigits most text).1, (takeDigits most text).2)
    | none => ([], c :: text)

/-- Reads a number of at least `least` and at most `most` digits. -/
def readNumber (least most : Nat) (text : List Char) : Option (Nat × List Char) :=
  let (digits, rest) := takeDigits most text
  if digits.length < least then none else some (Text.numberOf 10 digits, rest)

/-- Reads a character. -/
def readChar (c : Char) : List Char → Option (List Char)
  | d :: rest => if d = c then some rest else none
  | [] => none

/-! ## Lenient parts -/

/-- Reads a number of one or two digits behind white space. -/
def readShort (text : List Char) : Option (Nat × List Char) := readNumber 1 2 (Text.trimStart text)

/-- Reads a year behind white space. -/
def readYear (text : List Char) : Option (Int × List Char) :=
  match Text.trimStart text with
  | '-' :: rest => (readNumber 1 rest.length rest).map fun (n, rest) => (-(n : Int), rest)
  | '+' :: rest => (readNumber 1 rest.length rest).map fun (n, rest) => ((n : Int), rest)
  | rest => (readNumber 1 4 rest).map fun (n, rest) => ((n : Int), rest)

/-- Reads year, month and day. -/
def readDate (text : List Char) : Option ((Int × Nat × Nat) × List Char) := do
  let (year, text) ← readYear text
  let text ← readChar '-' text
  let (month, text) ← readShort text
  let text ← readChar '-' text
  let (day, text) ← readShort text
  some ((year, month, day), text)

/-- Reads hour and minute. -/
def readClock (text : List Char) : Option ((Nat × Nat) × List Char) := do
  let (hour, text) ← readShort text
  let text ← readChar ':' text
  let (minute, text) ← readShort text
  some ((hour, minute), text)

/-- Reads a fraction of a second in nanoseconds, which is none without a point. -/
def readFraction : List Char → Option (Nat × List Char)
  | '.' :: text =>
    let (digits, rest) := takeDigits 9 text
    if digits = [] then none
    else some (Text.numberOf 10 digits * 10 ^ (9 - digits.length), rest.dropWhile Char.isDigit)
  | text => some (0, text)

/-! ## Whole texts -/

/-- A date as users type it. -/
def date? (text : List Char) : Option Date := do
  let ((year, month, day), rest) ← readDate text
  if rest = [] then Date.of? year month day else none

/-- A minute as users type it. -/
def clockTime? (text : List Char) : Option ClockTime := do
  let ((hour, minute), rest) ← readClock text
  if rest = [] then ClockTime.of? hour minute else none

/-- A timestamp without an offset, read leniently. -/
def plainTimestamp? (text : List Char) : Option Timestamp := do
  let ((year, month, day), text) ← readDate text
  let text ← readChar 'T' text
  let ((hour, minute), text) ← readClock text
  let text ← readChar ':' text
  let (second, text) ← readShort text
  let (nano, text) ← readFraction text
  if text = [] then Timestamp.of? (← Date.of? year month day) hour minute second nano else none

/-! ## Instants -/

/-- A distance from universal time: whether it is behind it, and by how many seconds. -/
structure Offset where
  behind : Bool
  seconds : Nat
  deriving DecidableEq

/-- Reads hours and minutes of an offset behind its sign; the offset is less than a day. -/
def readOffsetTime (behind : Bool) (text : List Char) : Option (Offset × List Char) := do
  let (hours, text) ← readNumber 2 2 text
  let text ← readChar ':' text
  let (minutes, text) ← readNumber 2 2 text
  if hours < 24 ∧ minutes < 60 then some (⟨behind, (hours * 60 + minutes) * 60⟩, text) else none

/-- Reads an offset from universal time.  The minus sign U+2212 serves like the hyphen. -/
def readOffset : List Char → Option (Offset × List Char)
  | 'Z' :: text | 'z' :: text => some (⟨false, 0⟩, text)
  | '+' :: text => readOffsetTime false text
  | '-' :: text | '\u2212' :: text => readOffsetTime true text
  | _ => none

/-- Reads what stands between date and time. -/
def readSeparator : List Char → Option (List Char)
  | 'T' :: text | 't' :: text | ' ' :: text => some text
  | _ => none

/-- A timestamp with an offset, as the timestamp of the same instant in universal time. -/
def instant? (text : List Char) : Option Timestamp := do
  let (year, text) ← readNumber 4 4 text
  let text ← readChar '-' text
  let (month, text) ← readNumber 2 2 text
  let text ← readChar '-' text
  let (day, text) ← readNumber 2 2 text
  let text ← readSeparator text
  let (hour, text) ← readNumber 2 2 text
  let text ← readChar ':' text
  let (minute, text) ← readNumber 2 2 text
  let text ← readChar ':' text
  let (second, text) ← readNumber 2 2 text
  let (nano, text) ← readFraction text
  let (offset, text) ← readOffset text
  if text = [] then
    let stamp ← Timestamp.of? (← Date.of? year month day) hour minute second nano
    if offset.behind then stamp.later? offset.seconds else stamp.earlier? offset.seconds
  else none

/-- A timestamp in either way; one without offset counts as universal time. -/
def timestamp? (text : String) : Option Timestamp :=
  (instant? text.toList).or (plainTimestamp? text.toList)

end WorkflowCanvas.Calendar
