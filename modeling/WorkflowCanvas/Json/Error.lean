import WorkflowCanvas.Json.Number
import WorkflowCanvas.Text.Basic

/-!
# Why a JSON text is refused

`Error` lists the causes: the text ends too early, it is not JSON, or it is JSON of another form
than the one that was asked for.  `Error.category` tells these three apart and `Error.message` gives
the wording.
-/

namespace WorkflowCanvas.Json

/-- What stands where a value of another form was expected. -/
inductive Found
  | null
  | flag (value : Bool)
  | number (value : Number)
  | text (value : String)
  | list
  | object
  deriving DecidableEq

/-- The cause for which a JSON text is refused. -/
inductive Error
  | endOfList
  | endOfObject
  | endOfText
  | endOfValue
  | noColon
  | noListSeparator
  | noObjectSeparator
  | noLiteral
  | noValue
  | badEscape
  | badNumber
  | numberOutOfRange
  | badCodePoint
  | controlCharacter
  | keyNotText
  | loneSurrogate
  | cutSurrogatePair
  | trailingComma
  | trailingCharacters
  | tooDeep
  | wrongType (found : Found) (expected : String)
  | wrongLength (length : Nat) (expected : String)
  | unknownWord (word : String) (choices : List String)
  | missingMember (key : String)
  | repeatedMember (key : String)
  deriving DecidableEq

/-- The three kinds of causes. -/
inductive Category
  | cutShort
  | malformed
  | mistyped
  deriving DecidableEq

/-- The name a category is reported by. -/
def Category.name : Category → String
  | .cutShort => "eof"
  | .malformed => "syntax"
  | .mistyped => "data"

/-- What a message says it found. -/
def Found.describe : Found → String
  | .null => "null"
  | .flag true => "boolean `true`"
  | .flag false => "boolean `false`"
  | .number (.real x) => "floating point `" ++ String.ofList (realChars x) ++ "`"
  | .number n => "integer `" ++ String.ofList n.chars ++ "`"
  | .text s => "string " ++ Text.quoted s
  | .list => "sequence"
  | .object => "map"

/-- A word between backquotes. -/
def backquoted (word : String) : String := "`" ++ word ++ "`"

/-- The words that would have been accepted. -/
def describeChoices : List String → String
  | [] => "there are no variants"
  | [a] => "expected " ++ backquoted a
  | [a, b] => "expected " ++ backquoted a ++ " or " ++ backquoted b
  | choices => "expected one of " ++ ", ".intercalate (choices.map backquoted)

namespace Error

/-- The kind of a cause. -/
def category : Error → Category
  | .endOfList | .endOfObject | .endOfText | .endOfValue => .cutShort
  | .wrongType .. | .wrongLength .. | .unknownWord .. | .missingMember _ | .repeatedMember _ =>
    .mistyped
  | _ => .malformed

/-- The wording of a cause. -/
def message : Error → String
  | .endOfList => "EOF while parsing a list"
  | .endOfObject => "EOF while parsing an object"
  | .endOfText => "EOF while parsing a string"
  | .endOfValue => "EOF while parsing a value"
  | .noColon => "expected `:`"
  | .noListSeparator => "expected `,` or `]`"
  | .noObjectSeparator => "expected `,` or `\x7d`"
  | .noLiteral => "expected ident"
  | .noValue => "expected value"
  | .badEscape => "invalid escape"
  | .badNumber => "invalid number"
  | .numberOutOfRange => "number out of range"
  | .badCodePoint => "invalid unicode code point"
  | .controlCharacter => "control character (\\u0000-\\u001F) found while parsing a string"
  | .keyNotText => "key must be a string"
  | .loneSurrogate => "lone leading surrogate in hex escape"
  | .cutSurrogatePair => "unexpected end of hex escape"
  | .trailingComma => "trailing comma"
  | .trailingCharacters => "trailing characters"
  | .tooDeep => "recursion limit exceeded"
  | .wrongType found expected =>
    "invalid type: " ++ found.describe ++ ", expected " ++ expected
  | .wrongLength length expected =>
    "invalid length " ++ toString length ++ ", expected " ++ expected
  | .unknownWord word choices =>
    "unknown variant " ++ backquoted word ++ ", " ++ describeChoices choices
  | .missingMember key => "missing field " ++ backquoted key
  | .repeatedMember key => "duplicate field " ++ backquoted key

end Error

end WorkflowCanvas.Json
