import WorkflowCanvas.Json.Symbol
import WorkflowCanvas.Text.Basic

/-!
# Percent encoding

The bytes of a character that may not stand in a part of a URL are written as a percent sign and two
hexadecimal digits.  Which characters these are depends on the part; controls and all characters
beyond ASCII are always among them.
-/

namespace WorkflowCanvas.Url

/-- The ASCII characters that are written as bytes in some part of a URL, besides the controls. -/
abbrev Reserved := Char → Bool

/-- The characters reserved in a fragment. -/
def fragmentReserved : Reserved := [' ', '"', '<', '>', '\x60'].contains

/-- The characters reserved in a path. -/
def pathReserved : Reserved := fun c => fragmentReserved c || ['#', '?', '\x7b', '\x7d'].contains c

/-- The characters reserved in a single name of a path: separators and the percent sign as well. -/
def segmentReserved (special : Bool) : Reserved := fun c =>
  pathReserved c || c == '/' || c == '%' || (special && c == '\\')

/-- The characters reserved in a user name or a password. -/
def userReserved : Reserved := fun c =>
  pathReserved c || ['/', ':', ';', '=', '@', '[', '\\', ']', '^', '|'].contains c

/-- The characters reserved in a query. -/
def queryReserved (special : Bool) : Reserved := fun c =>
  [' ', '"', '#', '<', '>'].contains c || (special && c == '\'')

/-- The characters reserved in a host that is no domain. -/
def hostReserved : Reserved := fun _ => false

/-- A hexadecimal digit. -/
def hexDigit (n : Nat) : Char := Char.ofNat (if n < 10 then 48 + n else 55 + n)

/-- A byte behind a percent sign. -/
def escapeByte (byte : UInt8) : List Char :=
  ['%', hexDigit (byte.toNat / 16), hexDigit (byte.toNat % 16)]

/-- Whether a character stands for itself. -/
def isPlain (reserved : Reserved) (c : Char) : Bool :=
  0x20 ≤ c.toNat && c.toNat < 0x7F && !reserved c

/-- A character in a part of a URL. -/
def escape (reserved : Reserved) (c : Char) : List Char :=
  if isPlain reserved c then [c] else (String.utf8EncodeChar c).flatMap escapeByte

/-- A text in a part of a URL. -/
def percentEncode (reserved : Reserved) (text : List Char) : List Char :=
  text.flatMap (escape reserved)

/-- The bytes of a text in which bytes may be written behind percent signs.  A percent sign without
two digits stands for itself. -/
def percentDecode : List Char → List UInt8
  | [] => []
  | c :: text =>
    if c = '%' then
      match text with
      | a :: b :: rest =>
        match Text.digit? 16 a, Text.digit? 16 b with
        | some m, some n => .ofNat (m * 16 + n) :: percentDecode rest
        | _, _ => String.utf8EncodeChar c ++ percentDecode (a :: b :: rest)
      | text => String.utf8EncodeChar c ++ percentDecode text
    else
      String.utf8EncodeChar c ++ percentDecode text

end WorkflowCanvas.Url
