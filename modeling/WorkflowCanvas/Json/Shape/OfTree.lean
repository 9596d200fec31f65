import WorkflowCanvas.Json.Error
import WorkflowCanvas.Json.Shape

/-!
# Reading a shape from a JSON value

`Shape.ofTree` takes a value that was already read as a tree.  It accepts what reading the text
accepts, but meets the members of an object in the order of their keys, a repeated key having been
settled before, and refuses a list with too many members by its length.  A word is a text here.
-/

namespace WorkflowCanvas.Json

/-- What an error says it found in place of another value. -/
def Tree.found : Tree → Found
  | .null => .null
  | .flag b => .flag b
  | .number n => .number n
  | .text s => .text s
  | .list _ => .list
  | .object _ => .object

/-- The error of a value of another form. -/
def Tree.mistyped {α : Type} (t : Tree) (expected : String) : Except Error α :=
  .error (.wrongType t.found expected)

mutual

/-- Reads a value of the shape from a tree. -/
def Shape.ofTree : (shape : Shape) → Tree → Except Error shape.Value
  | .text, .text s => .ok s
  | .text, t => t.mistyped Shape.text.describe
  | .number, .number n => .ok n.toBinary64
  | .number, t => t.mistyped Shape.number.describe
  | .flag, .flag b => .ok b
  | .flag, t => t.mistyped Shape.flag.describe
  | .word choices, t =>
    match t with
    | .text s =>
      match choices.finIdxOf? s with
      | some i => .ok i
      | none => .error (.unknownWord s choices)
    | t => t.mistyped "string or map"
  | .maybe _, .null => .ok none
  | .maybe item, t => (item.ofTree t).map some
  | .list item, .list items => items.mapM item.ofTree
  | .list _, t => t.mistyped "a sequence"
  | .table item, .object members =>
    members.foldlM (fun table member => do
      return table.insert member.1 (← item.ofTree member.2)) .empty
  | .table _, t => t.mistyped "a map"
  | .record name fields, t =>
    match t with
    | .object members =>
      match members.foldlM (fun slots member => Fields.ofMember fields member.1 slots member.2)
        (Fields.noSlots fields) with
      | .error e => .error e
      | .ok slots =>
        match Fields.complete fields slots with
        | .ok values => .ok values
        | .error key => .error (.missingMember key)
    | .list items =>
      match Fields.ofItems (Shape.describeMembers name fields.length) 0 fields items with
      | .error e => .error e
      | .ok (values, []) => .ok values
      | .ok (_, _ :: _) => .error (.wrongLength items.length "fewer elements in array")
    | t => t.mistyped ("struct " ++ name)

/-- Reads a member into the slot of its key, if there is one. -/
def Fields.ofMember : (fields : Fields) → String → Fields.Slots fields → Tree →
    Except Error (Fields.Slots fields)
  | [], _, (), _ => .ok ()
  | (k, _, shape) :: fields, key, (slot, slots), t =>
    if key = k then
      match slot with
      | some _ => .error (.repeatedMember key)
      | none => (shape.ofTree t).map fun x => (some x, slots)
    else
      (Fields.ofMember fields key slots t).map (slot, ·)

/-- Reads the members of a record from the items of a list; answers the items left over. -/
def Fields.ofItems (expected : String) (index : Nat) : (fields : Fields) → List Tree →
    Except Error (Fields.Values fields × List Tree)
  | [], items => .ok ((), items)
  | (_, presence, shape) :: fields, [] =>
    match presence.absent shape with
    | none => .error (.wrongLength index expected)
    | some x =>
      (Fields.ofItems expected (index + 1) fields []).map fun (xs, rest) => ((x, xs), rest)
  | (_, _, shape) :: fields, t :: items =>
    match shape.ofTree t with
    | .error e => .error e
    | .ok x =>
      (Fields.ofItems expected (index + 1) fields items).map fun (xs, rest) => ((x, xs), rest)

end

end WorkflowCanvas.Json
