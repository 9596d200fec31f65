import WorkflowCanvas.Json.Shape
import WorkflowCanvas.Json.Skip

/-!
# Reading a shape from text

`Shape.read` reads a text as a value of a shape, `Shape.readFrom` the value at its head.

* A record is an object, or the list of its members in order.  In an object the members come in any
  order, members of other keys are skipped, and a member must not come twice.  In a list the last
  members may be left out if they have a value in their absence.
* A word is a text, or an object with the word as its only key and `null` as its value.
* Of two faults in a text the first one is reported; a missing member is only seen at the end of its
  record.

The loops over members and items take `rounds`, at least the number of symbols of the text; each
round takes one symbol or more.
-/

namespace WorkflowCanvas.Json

/-- Reads the text at the head of the input, past space. -/
def readTextValue (expected : String) (input : List Symbol) :
    Except Error (String × List Symbol) :=
  match afterSpace input with
  | [] => .error .endOfValue
  | .char '"' :: rest => readText rest
  | input => .error (mistyped expected input)

/-- Reads a number as binary64. -/
def readNumberValue (input : List Symbol) : Except Error (Binary64 × List Symbol) :=
  match afterSpace input with
  | [] => .error .endOfValue
  | s :: rest =>
    if s = .char '-' ∨ (digit? s).isSome then
      (readNumber (s :: rest)).map fun (n, rest) => (n.toBinary64, rest)
    else
      .error (mistyped Shape.number.describe (s :: rest))

/-- Reads a flag. -/
def readFlag (input : List Symbol) : Except Error (Bool × List Symbol) :=
  match afterSpace input with
  | [] => .error .endOfValue
  | .char 't' :: rest => (readLiteral ['r', 'u', 'e'] rest).map (true, ·)
  | .char 'f' :: rest => (readLiteral ['a', 'l', 's', 'e'] rest).map (false, ·)
  | input => .error (mistyped Shape.flag.describe input)

/-- Reads the `null` behind the word of an object. -/
def readUnit (input : List Symbol) : Except Error (List Symbol) :=
  match afterSpace input with
  | [] => .error .endOfValue
  | .char 'n' :: rest => readLiteral ['u', 'l', 'l'] rest
  | input => .error (mistyped "unit" input)

/-- The place of a word among the choices. -/
def findWord (choices : List String) (word : String) : Except Error (Fin choices.length) :=
  match choices.finIdxOf? word with
  | some i => .ok i
  | none => .error (.unknownWord word choices)

/-- Reads one of some words. -/
def readWord (choices : List String) (input : List Symbol) :
    Except Error (Fin choices.length × List Symbol) :=
  match afterSpace input with
  | [] => .error .endOfValue
  | .char '"' :: rest => do
    let (word, rest) ← readText rest
    return (← findWord choices word, rest)
  | .char '\x7b' :: rest => do
    let (word, rest) ← readTextValue (Shape.word choices).describe rest
    let i ← findWord choices word
    let rest ← readColon rest >>= readUnit
    match afterSpace rest with
    | .char '\x7d' :: rest => return (i, rest)
    | [] => throw .endOfObject
    | _ => throw .noValue
  | _ => .error .noValue

/-- Goes to the next item of a list, behind its bracket or behind an item; `none` stands for the
end, whose bracket is left. -/
def nextItem (first : Bool) (input : List Symbol) : Except Error (Option (List Symbol)) :=
  match afterSpace input with
  | [] => .error .endOfList
  | .char ']' :: _ => .ok none
  | s :: rest =>
    if first then .ok (some (s :: rest))
    else if s = .char ',' then
      match afterSpace rest with
      | [] => .error .endOfValue
      | .char ']' :: _ => .error .trailingComma
      | rest => .ok (some rest)
    else .error .noListSeparator

/-- Reads the end of a list whose items were all read. -/
def readListEnd (input : List Symbol) : Except Error (List Symbol) :=
  match afterSpace input with
  | [] => .error .endOfList
  | .char ']' :: rest => .ok rest
  | .char ',' :: rest =>
    match afterSpace rest with
    | .char ']' :: _ => .error .trailingComma
    | _ => .error .trailingCharacters
  | _ => .error .trailingCharacters

/-- Goes to the next member of an object, behind its brace or behind a member, and reads its key;
`none` stands for the end, whose brace is read. -/
def nextKey (first : Bool) (input : List Symbol) :
    Except Error (Option String × List Symbol) :=
  match afterSpace input with
  | [] => .error .endOfObject
  | .char '\x7d' :: rest => .ok (none, rest)
  | s :: rest =>
    if !first ∧ s ≠ .char ',' then .error .noObjectSeparator
    else
      match if first then s :: rest else afterSpace rest with
      | [] => .error .endOfValue
      | .char '"' :: rest => (readText rest).map fun (key, rest) => (some key, rest)
      | .char '\x7d' :: _ => .error .trailingComma
      | _ => .error .keyNotText

/-- Reads the items of a list and its closing bracket. -/
def readItems {α : Type} (item : List Symbol → Except Error (α × List Symbol)) :
    Nat → Bool → List α → List Symbol → Except Error (List α × List Symbol)
  | 0, _, _, _ => .error .endOfList
  | rounds + 1, first, items, input =>
    match nextItem first input with
    | .error e => .error e
    | .ok none => (readListEnd input).map (items.reverse, ·)
    | .ok (some input) =>
      match item input with
      | .error e => .error e
      | .ok (x, rest) => readItems item rounds false (x :: items) rest

/-- Reads the entries of an object and its closing brace. -/
def readEntries {α : Type} (item : List Symbol → Except Error (α × List Symbol)) :
    Nat → Bool → Table α → List Symbol → Except Error (Table α × List Symbol)
  | 0, _, _, _ => .error .endOfObject
  | rounds + 1, first, table, input =>
    match nextKey first input with
    | .error e => .error e
    | .ok (none, rest) => .ok (table, rest)
    | .ok (some key, rest) =>
      match readColon rest with
      | .error e => .error e
      | .ok rest =>
        match item rest with
        | .error e => .error e
        | .ok (x, rest) => readEntries item rounds false (table.insert key x) rest

/-- Reads the members of an object and its closing brace, given how one is read behind its key. -/
def readMembers {σ : Type} (member : String → σ → List Symbol → Except Error (σ × List Symbol)) :
    Nat → Bool → σ → List Symbol → Except Error (σ × List Symbol)
  | 0, _, _, _ => .error .endOfObject
  | rounds + 1, first, slots, input =>
    match nextKey first input with
    | .error e => .error e
    | .ok (none, rest) => .ok (slots, rest)
    | .ok (some key, rest) =>
      match member key slots rest with
      | .error e => .error e
      | .ok (slots, rest) => readMembers member rounds false slots rest

mutual

/-- Reads the value of a shape at the head of the input. -/
def Shape.readFrom (rounds : Nat) :
    (shape : Shape) → List Symbol → Except Error (shape.Value × List Symbol)
  | .text, input => readTextValue Shape.text.describe input
  | .number, input => readNumberValue input
  | .flag, input => readFlag input
  | .word choices, input => readWord choices input
  | .maybe item, input =>
    match afterSpace input with
    | .char 'n' :: rest => (readLiteral ['u', 'l', 'l'] rest).map (none, ·)
    | input => (item.readFrom rounds input).map fun (x, rest) => (some x, rest)
  | .list item, input =>
    match afterSpace input with
    | [] => .error .endOfValue
    | .char '[' :: rest => readItems (item.readFrom rounds) rounds true [] rest
    | input => .error (mistyped "a sequence" input)
  | .table item, input =>
    match afterSpace input with
    | [] => .error .endOfValue
    | .char '\x7b' :: rest => readEntries (item.readFrom rounds) rounds true .empty rest
    | input => .error (mistyped "a map" input)
  | .record name fields, input =>
    match afterSpace input with
    | [] => .error .endOfValue
    | .char '\x7b' :: rest =>
      match readMembers (Fields.readMember rounds fields) rounds true (Fields.noSlots fields)
        rest with
      | .error e => .error e
      | .ok (slots, rest) =>
        match Fields.complete fields slots with
        | .ok values => .ok (values, rest)
        | .error key => .error (.missingMember key)
    | .char '[' :: rest =>
      match Fields.readInOrder rounds (Shape.describeMembers name fields.length) 0 fields rest with
      | .error e => .error e
      | .ok (values, rest) => (readListEnd rest).map (values, ·)
    | input => .error (mistyped ("struct " ++ name) input)

/-- Reads a member behind its key into the slot of that key; without such a slot it is skipped. -/
def Fields.readMember (rounds : Nat) :
    (fields : Fields) → String → Fields.Slots fields → List Symbol →
      Except Error (Fields.Slots fields × List Symbol)
  | [], _, (), input => (readColon input >>= skipValue).map ((), ·)
  | (k, _, shape) :: fields, key, (slot, slots), input =>
    if key = k then
      match slot with
      | some _ => .error (.repeatedMember key)
      | none =>
        match readColon input with
        | .error e => .error e
        | .ok input => (shape.readFrom rounds input).map fun (x, rest) => ((some x, slots), rest)
    else
      (Fields.readMember rounds fields key slots input).map fun (slots, rest) =>
        ((slot, slots), rest)

/-- Reads the members of a record that is written as a list, from the one with this index. -/
def Fields.readInOrder (rounds : Nat) (expected : String) (index : Nat) :
    (fields : Fields) → List Symbol → Except Error (Fields.Values fields × List Symbol)
  | [], input => .ok ((), input)
  | (_, presence, shape) :: fields, input =>
    match nextItem (index = 0) input with
    | .error e => .error e
    | .ok none =>
      match presence.absent shape with
      | none => .error (.wrongLength index expected)
      | some x =>
        (Fields.readInOrder rounds expected (index + 1) fields input).map fun (xs, rest) =>
          ((x, xs), rest)
    | .ok (some input) =>
      match shape.readFrom rounds input with
      | .error e => .error e
      | .ok (x, rest) =>
        (Fields.readInOrder rounds expected (index + 1) fields rest).map fun (xs, rest) =>
          ((x, xs), rest)

end

/-- Reads a text that holds one value of the shape and space around it. -/
def Shape.read (shape : Shape) (input : List Symbol) : Except Error shape.Value :=
  match shape.readFrom (input.length + 1) input with
  | .error e => .error e
  | .ok (x, rest) => if afterSpace rest = [] then .ok x else .error .trailingCharacters

end WorkflowCanvas.Json
