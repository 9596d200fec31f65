import WorkflowCanvas.Url.Domain
import WorkflowCanvas.Url.Percent

/-!
# Hosts of URLs

A host is a domain name or an address.  The URLs that browsers know (`special`) have a host that
names a machine, so its text is checked and brought into one form; for all others any text without
separators will do.
-/

namespace WorkflowCanvas.Url

-- Powers of naturals are those of the core library, whatever else is imported.
attribute [local instance (high)] instPowNat

/-- Why a text is not the URL of a service. -/
inductive Error
  | noScheme
  | emptyHost
  | badPort
  | badAddress4
  | badAddress6
  | badDomain
  | badHostCharacter
  deriving DecidableEq

/-- The wording of a refusal. -/
def Error.message : Error → String
  | .noScheme => "relative URL without a base"
  | .emptyHost => "empty host"
  | .badPort => "invalid port number"
  | .badAddress4 => "invalid IPv4 address"
  | .badAddress6 => "invalid IPv6 address"
  | .badDomain => "invalid international domain name"
  | .badHostCharacter => "invalid domain character"

/-- The machine, if any, that a URL names. -/
inductive Host
  | empty
  | domain (name : List Char)
  /-- An address of 32 bits. -/
  | address4 (number : Nat)
  /-- An address of eight pieces of 16 bits. -/
  | address6 (pieces : List Nat)
  deriving DecidableEq

namespace Host

/-! ## Addresses of 32 bits -/

/-- A number in an address, in base 16 behind `0x`, in base 8 behind `0`, else in base 10. -/
def number4? : List Char → Option Nat
  | [] => none
  | ['0'] => some 0
  | '0' :: c :: digits =>
    if c = 'x' ∨ c = 'X' then Text.number? 16 digits else Text.number? 8 (c :: digits)
  | digits => Text.number? 10 digits

/-- The labels of a name without the empty one behind a final full stop. -/
def labels (name : List Char) : List (List Char) :=
  let all := Text.split (· == '.') name
  if 1 < all.length ∧ all.getLast? = some [] then all.dropLast else all

/-- Whether a name can only be an address since its last label is a number. -/
def endsInNumber (name : List Char) : Bool :=
  match (labels name).getLast? with
  | some last => (last ≠ [] && last.all Char.isDigit) || (number4? last).isSome
  | none => false

/-- An address from its numbers: all but the last are bytes, the last fills what is left. -/
def ofNumbers4? (numbers : List Nat) : Option Nat :=
  match numbers.getLast? with
  | none => none
  | some last =>
    let bytes := numbers.dropLast
    if 3 < bytes.length ∨ bytes.any (255 < ·) ∨ 256 ^ (4 - bytes.length) ≤ last then none
    else some (Text.numberOf 256 bytes * 256 ^ (4 - bytes.length) + last)

/-- Reads an address. -/
def address4? (name : List Char) : Option Nat := (labels name).mapM number4? >>= ofNumbers4?

/-- The four bytes of an address. -/
def render4 (number : Nat) : List Char :=
  ['.'].intercalate ([3, 2, 1, 0].map fun i : Nat => Nat.toDigits 10 (number / 256 ^ i % 256))

/-! ## Addresses of 128 bits -/

/-- A decimal byte without leading zeros. -/
def byte? (digits : List Char) : Option Nat :=
  if digits.head? = some '0' ∧ digits ≠ ['0'] ∨ digits = [] then none
  else (Text.number? 10 digits).filter (· < 256)

/-- A piece of up to four hexadecimal digits. -/
def piece? (digits : List Char) : Option Nat :=
  if digits.length = 0 ∨ 4 < digits.length then none else Text.number? 16 digits

/-- Reads pieces between colons; the last may be an address of 32 bits if `last`. -/
def pieces? (last : Bool) : List (List Char) → Option (List Nat)
  | [] => some []
  | [text] =>
    if last && text.contains '.' then
      match (Text.split (· == '.') text).mapM byte? with
      | some [a, b, c, d] => some [a * 256 + b, c * 256 + d]
      | _ => none
    else
      (piece? text).map ([·])
  | text :: texts => do
    let piece ← piece? text
    let pieces ← pieces? last texts
    some (piece :: pieces)

/-- The pieces on one side of an address; a side without text has none. -/
def side? (last : Bool) (text : List Char) : Option (List Nat) :=
  if text = [] then some [] else pieces? last (Text.split (· == ':') text)

/-- The text before the first two colons and the text behind them. -/
def splitColons? : List Char → Option (List Char × List Char)
  | ':' :: ':' :: rest => some ([], rest)
  | c :: rest => (splitColons? rest).map fun (before, behind) => (c :: before, behind)
  | [] => none

/-- Reads an address; two colons stand for as many zeros as are missing, at least one. -/
def address6? (text : List Char) : Option (List Nat) :=
  match splitColons? text with
  | none => (pieces? true (Text.split (· == ':') text)).filter (·.length = 8)
  | some (before, behind) => do
    let left ← side? false before
    let right ← side? true behind
    if 8 ≤ left.length + right.length then none
    else some (left ++ List.replicate (8 - left.length - right.length) 0 ++ right)

/-- The length of the run of zeros at the head. -/
def zeroRun (pieces : List Nat) : Nat := (pieces.takeWhile (· == 0)).length

/-- Where the first of the longest runs of zeros starts, and its length. -/
def longestZeros : List Nat → Nat × Nat
  | [] => (0, 0)
  | piece :: pieces =>
    let here := zeroRun (piece :: pieces)
    let (start, length) := longestZeros pieces
    if length ≤ here then (0, here) else (start + 1, length)

/-- Pieces between colons. -/
def renderPieces (pieces : List Nat) : List Char :=
  [':'].intercalate (pieces.map (Nat.toDigits 16))

/-- An address, its longest run of at least two zeros written as two colons. -/
def render6 (pieces : List Nat) : List Char :=
  let (start, length) := longestZeros pieces
  if length < 2 then renderPieces pieces
  else
    renderPieces (pieces.take start) ++ [':', ':'] ++ renderPieces (pieces.drop (start + length))

/-! ## Hosts -/

/-- The text of a host. -/
def chars : Host → List Char
  | empty => []
  | domain name => name
  | address4 number => render4 number
  | address6 pieces => '[' :: render6 pieces ++ [']']

/-- Reads an address between brackets. -/
def ofBrackets (text : List Char) : Except Error Host :=
  if text.getLast? = some ']' then
    match address6? text.dropLast with
    | some pieces => .ok (.address6 pieces)
    | none => .error .badAddress6
  else .error .badAddress6

/-- Reads the host of a special URL. -/
def ofText [Idna] (text : List Char) : Except Error Host :=
  match text with
  | '[' :: rest => ofBrackets rest
  | text =>
    match Symbol.chars? (Symbol.ofBytes (percentDecode text)) >>= Domain.toAscii? with
    | none => .error .badDomain
    | some [] => .error .emptyHost
    | some name =>
      if endsInNumber name then
        match address4? name with
        | some number => .ok (.address4 number)
        | none => .error .badAddress4
      else .ok (.domain name)

/-- The characters that never stand in a host. -/
def isForbidden (c : Char) : Bool :=
  ['\x00', '\t', '\n', '\r', ' ', '#', '/', ':', '<', '>', '?', '@', '[', '\\', ']', '^',
    '|'].contains c

/-- Reads the host of another URL. -/
def ofAnyText (text : List Char) : Except Error Host :=
  match text with
  | [] => .ok .empty
  | '[' :: rest => ofBrackets rest
  | text =>
    if text.any isForbidden then .error .badHostCharacter
    else .ok (.domain (percentEncode hostReserved text))

end Host

end WorkflowCanvas.Url
