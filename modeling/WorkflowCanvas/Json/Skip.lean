import WorkflowCanvas.Json.Lexeme

/-!
# Skipping a value

A member nobody asks for is skipped: its value is checked for its form, to any depth.  The open
lists and objects stand on a stack, so no depth is too great.
-/

namespace WorkflowCanvas.Json

/-- What a bracket that is still open belongs to. -/
inductive Enclosure
  | list
  | object
  deriving DecidableEq

/-- What the skipper expects next: a value, or what may follow one. -/
inductive Expectation
  | value
  | separator
  deriving DecidableEq

/-- Reads a colon. -/
def readColon (input : List Symbol) : Except Error (List Symbol) :=
  match afterSpace input with
  | [] => .error .endOfObject
  | .char ':' :: rest => .ok rest
  | _ => .error .noColon

/-- Skips a key and its colon. -/
def skipKey (input : List Symbol) : Except Error (List Symbol) :=
  match afterSpace input with
  | [] => .error .endOfObject
  | .char '"' :: rest => skipText rest >>= readColon
  | _ => .error .keyNotText

/-- Skips a value that is neither a list nor an object. -/
def skipScalar (input : List Symbol) : Except Error (List Symbol) :=
  match input with
  | .char 'n' :: rest => readLiteral ['u', 'l', 'l'] rest
  | .char 't' :: rest => readLiteral ['r', 'u', 'e'] rest
  | .char 'f' :: rest => readLiteral ['a', 'l', 's', 'e'] rest
  | .char '"' :: rest => skipText rest
  | s :: _ =>
    if s = .char '-' ∨ (digit? s).isSome then skipNumber input else .error .noValue
  | [] => .error .endOfValue

/-- Skips what is expected and all that is open.  Each round takes a symbol at least, so as many
rounds as there are symbols, and one to see the end, are enough. -/
def skipFrom : Nat → Expectation → List Enclosure → List Symbol → Except Error (List Symbol)
  | 0, _, _, _ => .error .endOfValue
  | _ + 1, .separator, [], input => .ok input
  | rounds + 1, .value, opened, input =>
    match afterSpace input with
    | .char '[' :: rest =>
      match afterSpace rest with
      | [] => .error .endOfList
      | .char ']' :: rest => skipFrom rounds .separator opened rest
      | rest => skipFrom rounds .value (.list :: opened) rest
    | .char '\x7b' :: rest =>
      match afterSpace rest with
      | .char '\x7d' :: rest => skipFrom rounds .separator opened rest
      | rest => do skipFrom rounds .value (.object :: opened) (← skipKey rest)
    | input => do skipFrom rounds .separator opened (← skipScalar input)
  | rounds + 1, .separator, .list :: opened, input =>
    match afterSpace input with
    | [] => .error .endOfList
    | .char ']' :: rest => skipFrom rounds .separator opened rest
    | .char ',' :: rest => skipFrom rounds .value (.list :: opened) rest
    | _ => .error .noListSeparator
  | rounds + 1, .separator, .object :: opened, input =>
    match afterSpace input with
    | [] => .error .endOfObject
    | .char '\x7d' :: rest => skipFrom rounds .separator opened rest
    | .char ',' :: rest => do skipFrom rounds .value (.object :: opened) (← skipKey rest)
    | _ => .error .noObjectSeparator

/-- Skips a value. -/
def skipValue (input : List Symbol) : Except Error (List Symbol) :=
  skipFrom (input.length + 1) .value [] input

end WorkflowCanvas.Json
