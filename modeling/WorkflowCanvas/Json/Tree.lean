import WorkflowCanvas.Json.Number

/-!
# JSON values and their text

`Tree` is a JSON value whose object members stand in the order they are written in.  `Tree.chars`
writes one in either layout: compact without any space, or indented by two spaces a level with empty
lists and objects kept on one line.  A quote, a backslash and the controls below the space are
escaped and nothing else is.
-/

namespace WorkflowCanvas.Json

/-- A JSON value. -/
inductive Tree
  | null
  | flag (value : Bool)
  | number (value : Number)
  | text (value : String)
  | list (items : List Tree)
  | object (members : List (String × Tree))

instance : Inhabited Tree := ⟨.null⟩

/-- Whether a text is spread over lines. -/
inductive Layout
  | compact
  | indented
  deriving DecidableEq

/-- What separates two tokens of different lines. -/
def Layout.newline (layout : Layout) (depth : Nat) : List Char :=
  match layout with
  | .compact => []
  | .indented => '\n' :: List.replicate (2 * depth) ' '

/-- What stands between a key and its value. -/
def Layout.colon : Layout → List Char
  | .compact => [':']
  | .indented => [':', ' ']

/-- One character of a text between quotes. -/
def escapeChar (c : Char) : List Char :=
  match c with
  | '"' => ['\\', '"']
  | '\\' => ['\\', '\\']
  | '\x08' => ['\\', 'b']
  | '\x0c' => ['\\', 'f']
  | '\n' => ['\\', 'n']
  | '\r' => ['\\', 'r']
  | '\t' => ['\\', 't']
  | c =>
    if c.toNat < 0x20 then
      ['\\', 'u', '0', '0', Nat.digitChar (c.toNat / 16), Nat.digitChar (c.toNat % 16)]
    else
      [c]

/-- A text between quotes. -/
def textChars (s : String) : List Char := '"' :: s.toList.flatMap escapeChar ++ ['"']

namespace Tree

mutual

/-- The text of a value that stands `depth` levels deep. -/
def charsAt (layout : Layout) (depth : Nat) : Tree → List Char
  | .null => "null".toList
  | .flag true => "true".toList
  | .flag false => "false".toList
  | .number n => n.chars
  | .text s => textChars s
  | .list [] => ['[', ']']
  | .list (item :: items) =>
    '[' :: layout.newline (depth + 1) ++ item.charsAt layout (depth + 1)
      ++ moreItems layout depth items
  | .object [] => ['\x7b', '\x7d']
  | .object ((key, value) :: members) =>
    '\x7b' :: layout.newline (depth + 1) ++ textChars key ++ layout.colon
      ++ value.charsAt layout (depth + 1) ++ moreMembers layout depth members

/-- The rest of a list behind an item. -/
def moreItems (layout : Layout) (depth : Nat) : List Tree → List Char
  | [] => layout.newline depth ++ [']']
  | item :: items =>
    ',' :: layout.newline (depth + 1) ++ item.charsAt layout (depth + 1)
      ++ moreItems layout depth items

/-- The rest of an object behind a member. -/
def moreMembers (layout : Layout) (depth : Nat) : List (String × Tree) → List Char
  | [] => layout.newline depth ++ ['\x7d']
  | (key, value) :: members =>
    ',' :: layout.newline (depth + 1) ++ textChars key ++ layout.colon
      ++ value.charsAt layout (depth + 1) ++ moreMembers layout depth members

end

/-- The text of a value. -/
def chars (layout : Layout) (t : Tree) : List Char := t.charsAt layout 0

/-- The text of a value without spaces. -/
def compact (t : Tree) : String := String.ofList (t.chars .compact)

/-- The text of a value with two spaces a level. -/
def indented (t : Tree) : String := String.ofList (t.chars .indented)

/-- A text, or `null` in its absence. -/
def ofText? : Option String → Tree
  | some s => .text s
  | none => .null

/-- A list of texts. -/
def ofTexts (texts : List String) : Tree := .list (texts.map .text)

/-- A whole number. -/
def ofNat (n : Nat) : Tree := .number (.natural n)

/-- A binary64 number; its text is `null` if it is not finite. -/
def ofBinary64 (x : Binary64) : Tree := .number (.real x)

end Tree

end WorkflowCanvas.Json
