import WorkflowCanvas.Json.Tree
import WorkflowCanvas.Table

/-!
# Shapes of JSON values

A `Shape` says which JSON values a program type is written as, and `Shape.Value` is the type of what
they hold: a product for a record, a list for a list.  Readers and writers are defined once for all
shapes, so a law about them holds for every record of the program.
-/

namespace WorkflowCanvas.Json

/-- What the absence of a record's member means. -/
inductive Presence
  /-- It is an error. -/
  | required
  /-- The value is the empty one, and an empty value is written. -/
  | optional
  /-- The value is the empty one, and `none` is not written. -/
  | omittable
  /-- The value is this text. -/
  | textOr (default : String)
  deriving DecidableEq

/-- A form of JSON values. -/
inductive Shape
  | text
  | number
  | flag
  /-- One of some words. -/
  | word (choices : List String)
  /-- The item, or `null` for none. -/
  | maybe (item : Shape)
  | list (item : Shape)
  /-- An object with any keys. -/
  | table (item : Shape)
  /-- An object with these keys, known by a name. -/
  | record (name : String) (fields : List (String × Presence × Shape))

/-- The members of a record in their order. -/
abbrev Fields := List (String × Presence × Shape)

mutual

/-- What a value of the shape holds. -/
@[reducible] def Shape.Value : Shape → Type
  | .text => String
  | .number => Binary64
  | .flag => Bool
  | .word choices => Fin choices.length
  | .maybe item => Option item.Value
  | .list item => List item.Value
  | .table item => Table item.Value
  | .record _ fields => Fields.Values fields

/-- What the members of a record hold. -/
@[reducible] def Fields.Values : Fields → Type
  | [] => Unit
  | (_, _, shape) :: fields => shape.Value × Fields.Values fields

end

/-- The values of a record's members as far as they have been read. -/
@[reducible] def Fields.Slots : Fields → Type
  | [] => Unit
  | (_, _, shape) :: fields => Option shape.Value × Fields.Slots fields

/-- The value of an absent member, unless it is required. -/
def Presence.absent : Presence → (shape : Shape) → Option shape.Value
  | .textOr default, .text => some default
  | .optional, .maybe _ | .omittable, .maybe _ => some none
  | .optional, .list _ | .omittable, .list _ => some []
  | .optional, .table _ | .omittable, .table _ => some .empty
  | _, _ => none

namespace Fields

/-- The slots before anything was read. -/
def noSlots : (fields : Fields) → Slots fields
  | [] => ()
  | _ :: fields => (none, noSlots fields)

/-- The members' values from what was read; the first required member without a value is missing. -/
def complete : (fields : Fields) → Slots fields → Except String (Values fields)
  | [], () => .ok ()
  | (key, presence, shape) :: fields, (slot, slots) =>
    match slot.or (presence.absent shape) with
    | some value => (complete fields slots).map (value, ·)
    | none => .error key

end Fields

mutual

/-- The JSON value that holds a value of the shape. -/
def Shape.toTree : (shape : Shape) → shape.Value → Tree
  | .text, s => .text s
  | .number, x => .ofBinary64 x
  | .flag, b => .flag b
  | .word choices, i => .text choices[i]
  | .maybe _, none => .null
  | .maybe item, some x => item.toTree x
  | .list item, xs => .list (xs.map item.toTree)
  | .table item, t => .object (t.entries.map fun e => (e.1, item.toTree e.2))
  | .record _ fields, x => .object (Fields.toMembers fields x)

/-- The members of a record that are written. -/
def Fields.toMembers : (fields : Fields) → Fields.Values fields → List (String × Tree)
  | [], () => []
  | (_, .omittable, .maybe _) :: fields, (none, rest) => Fields.toMembers fields rest
  | (key, _, shape) :: fields, (x, rest) => (key, shape.toTree x) :: Fields.toMembers fields rest

end

namespace Shape

/-- How an error names the shape it expected. -/
def describe : Shape → String
  | .text => "a string"
  | .number => "f64"
  | .flag => "a boolean"
  | .word _ => "variant identifier"
  | .maybe _ => "option"
  | .list _ => "a sequence"
  | .table _ => "a map"
  | .record name _ => "struct " ++ name

/-- How an error names a record it expected as a list of its members. -/
def describeMembers (name : String) (count : Nat) : String :=
  "struct " ++ name ++ " with " ++ toString count ++ (if count = 1 then " element" else " elements")

end Shape

end WorkflowCanvas.Json
