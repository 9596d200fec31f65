import WorkflowCanvas.Json.Skip
import WorkflowCanvas.Json.Tree
import WorkflowCanvas.Table

/-!
# Reading a JSON value of any form

`Tree.read` reads a whole text as one value.  The members of an object come in the order of their
keys, the last one of a repeated key winning, and lists and objects may be nested 127 deep.
-/

namespace WorkflowCanvas.Json.Tree

mutual

/-- Reads a value.  `depth` is one more than the brackets that may still be opened, `rounds` at
least twice the number of symbols. -/
def readFrom (rounds depth : Nat) (input : List Symbol) : Except Error (Tree × List Symbol) :=
  match rounds with
  | 0 => .error .endOfValue
  | rounds + 1 =>
    match afterSpace input with
    | [] => .error .endOfValue
    | .char 'n' :: rest => (readLiteral ['u', 'l', 'l'] rest).map (.null, ·)
    | .char 't' :: rest => (readLiteral ['r', 'u', 'e'] rest).map (.flag true, ·)
    | .char 'f' :: rest => (readLiteral ['a', 'l', 's', 'e'] rest).map (.flag false, ·)
    | .char '"' :: rest => (readText rest).map fun (s, rest) => (.text s, rest)
    | .char '[' :: rest =>
      match depth with
      | depth + 2 => readItems rounds (depth + 1) true [] rest
      | _ => .error .tooDeep
    | .char '\x7b' :: rest =>
      match depth with
      | depth + 2 => readMembers rounds (depth + 1) true .empty rest
      | _ => .error .tooDeep
    | s :: rest =>
      if s = .char '-' ∨ (digit? s).isSome then
        (readNumber (s :: rest)).map fun (n, rest) => (.number n, rest)
      else
        .error .noValue

/-- Reads the items of a list behind its bracket or behind an item. -/
def readItems (rounds depth : Nat) (first : Bool) (items : List Tree) (input : List Symbol) :
    Except Error (Tree × List Symbol) :=
  match rounds with
  | 0 => .error .endOfValue
  | rounds + 1 =>
    match afterSpace input with
    | [] => .error .endOfList
    | .char ']' :: rest => .ok (.list items.reverse, rest)
    | s :: rest =>
      if first then
        match readFrom rounds depth (s :: rest) with
        | .ok (item, rest) => readItems rounds depth false (item :: items) rest
        | .error e => .error e
      else if s = .char ',' then
        match afterSpace rest with
        | [] => .error .endOfValue
        | .char ']' :: _ => .error .trailingComma
        | rest =>
          match readFrom rounds depth rest with
          | .ok (item, rest) => readItems rounds depth false (item :: items) rest
          | .error e => .error e
      else
        .error .noListSeparator

/-- Reads the members of an object behind its bracket or behind a member. -/
def readMembers (rounds depth : Nat) (first : Bool) (members : Table Tree)
    (input : List Symbol) : Except Error (Tree × List Symbol) :=
  match rounds with
  | 0 => .error .endOfValue
  | rounds + 1 =>
    match afterSpace input with
    | [] => .error .endOfObject
    | .char '\x7d' :: rest => .ok (.object members.entries, rest)
    | s :: rest =>
      if !first ∧ s ≠ .char ',' then
        .error .noObjectSeparator
      else
        match if first then s :: rest else afterSpace rest with
        | [] => .error .endOfValue
        | .char '"' :: rest =>
          match (readText rest) with
          | .error e => .error e
          | .ok (key, rest) =>
            match readColon rest with
            | .error e => .error e
            | .ok rest =>
              match readFrom rounds depth rest with
              | .ok (value, rest) =>
                readMembers rounds depth false (members.insert key value) rest
              | .error e => .error e
        | .char '\x7d' :: _ => .error .trailingComma
        | _ => .error .keyNotText

end

/-- Reads a text that holds one value and space around it. -/
def read (input : List Symbol) : Except Error Tree :=
  match readFrom (2 * input.length + 2) 128 input with
  | .error e => .error e
  | .ok (t, rest) => if afterSpace rest = [] then .ok t else .error .trailingCharacters

end WorkflowCanvas.Json.Tree
