import WorkflowCanvas.Json.Form

/-!
# The catalog of step kinds

Every node of a workflow is a step of one of seven kinds.  The catalog says for each kind how it is
called, which of the universal fields the editor shows for it and with which placeholder text.  It
depends on the kind alone, never on a label.
-/

namespace WorkflowCanvas

/-- What a step does. -/
inductive Kind
  /-- Types text into an element. -/
  | input
  /-- Reads text or an attribute from elements into a variable. -/
  | parse
  /-- Appends a variable to a file. -/
  | store
  /-- Clicks an element. -/
  | click
  /-- Opens an address. -/
  | navigate
  /-- The fixed entry of a workflow. -/
  | start
  /-- The fixed exit of a workflow. -/
  | finish
  deriving DecidableEq

/-- The fields a step may have whatever its kind. -/
inductive Field
  | url
  | selector
  | inputText
  | attributeName
  | variableName
  | filename
  deriving DecidableEq

namespace Kind

/-- All kinds, in the order messages list them in. -/
def all : List Kind := [input, parse, store, click, navigate, start, finish]

/-- The kinds a user can add, in the order they are offered in. -/
def palette : List Kind := [input, parse, store, click, navigate]

/-- The capitalised name. -/
def name : Kind → String
  | input => "Input"
  | parse => "Parse"
  | store => "Store"
  | click => "Click"
  | navigate => "Navigate"
  | start => "Start"
  | finish => "End"

/-- The name in documents. -/
def wire : Kind → String
  | input => "input"
  | parse => "parse"
  | store => "store"
  | click => "click"
  | navigate => "navigate"
  | start => "start"
  | finish => "end"

/-- Whether the kind marks the entry or the exit of a workflow. -/
def isBoundary : Kind → Bool
  | start | finish => true
  | _ => false

/-- The kind of this name, in any ASCII letter case. -/
def ofName? (text : String) : Option Kind :=
  all.find? fun kind => kind.wire.toList == text.toList.map Char.toLower

/-- The label of a new node. -/
def label (kind : Kind) : String := kind.name ++ " Node"

/-- The fields the editor shows for the kind, in their order. -/
def fields : Kind → List Field
  | navigate => [.url]
  | click => [.selector]
  | input => [.selector, .inputText]
  | parse => [.selector, .attributeName, .variableName]
  | store => [.filename, .variableName]
  | start | finish => []

/-- Whether the editor shows the field for the kind. -/
def declares (kind : Kind) (field : Field) : Bool := kind.fields.contains field

/-- The text the editor shows in an empty field. -/
def placeholder : Kind → Field → String
  | _, .url => "URL"
  | _, .selector => "CSS Selector"
  | _, .inputText => "Text to input"
  | _, .attributeName => "Attribute (e.g. href, text)"
  | store, .variableName => "Variable (e.g. parsed_value)"
  | _, .variableName => "Variable name"
  | _, .filename => "File name (e.g. data.txt)"

/-- The place of the kind among all. -/
def index : Kind → Fin 7
  | input => 0
  | parse => 1
  | store => 2
  | click => 3
  | navigate => 4
  | start => 5
  | finish => 6

/-- The words that stand for the kinds in JSON, by their places. -/
def words : List String := ["input", "parse", "store", "click", "navigate", "start", "end"]

instance : Json.Form Kind where
  shape := .word words
  ofValue i := all.get i
  toValue := index
  ofValue_toValue kind := by cases kind <;> rfl
  toValue_ofValue i := by
    revert i
    exact (by decide : ∀ i : Fin 7, index (all.get i) = i)

end Kind

namespace Field

/-- All fields, in the order documents have them in. -/
def all : List Field := [url, selector, inputText, attributeName, variableName, filename]

/-- The name in documents and in the editor's events. -/
def wire : Field → String
  | url => "url"
  | selector => "selector"
  | inputText => "inputText"
  | attributeName => "attribute"
  | variableName => "variableName"
  | filename => "filename"

/-- The field of this name. -/
def ofName? (name : String) : Option Field := all.find? fun field => field.wire == name

/-- The place of the field among all. -/
def index : Field → Fin 6
  | url => 0
  | selector => 1
  | inputText => 2
  | attributeName => 3
  | variableName => 4
  | filename => 5

/-- The words that stand for the fields in JSON, by their places. -/
def words : List String :=
  ["url", "selector", "inputText", "attribute", "variableName", "filename"]

instance : Json.Form Field where
  shape := .word words
  ofValue i := all.get i
  toValue := index
  ofValue_toValue field := by cases field <;> rfl
  toValue_ofValue i := by
    revert i
    exact (by decide : ∀ i : Fin 6, index (all.get i) = i)

theorem ofName?_wire (field : Field) : ofName? field.wire = some field := by
  cases field <;> decide +kernel

end Field

/-- A field as the editor offers it. -/
structure FieldDefinition where
  field : Field
  placeholder : String
  deriving DecidableEq

/-- A kind as the editor offers it. -/
structure Definition where
  kind : Kind
  label : String
  fields : List FieldDefinition
  deriving DecidableEq

/-- What the editor needs to know of a kind. -/
def Kind.definition (kind : Kind) : Definition where
  kind := kind
  label := kind.label
  fields := kind.fields.map fun field => ⟨field, kind.placeholder field⟩

/-- The definitions of the kinds a user can add. -/
def paletteDefinitions : List Definition := Kind.palette.map Kind.definition

open Json in
/-- The members of a field definition as JSON. -/
def FieldDefinition.members (d : FieldDefinition) : List (String × Tree) :=
  [("name", toTree d.field), ("placeholder", .text d.placeholder)]

open Json in
/-- A definition as JSON. -/
def Definition.toTree (d : Definition) : Tree :=
  .object [("nodeType", Json.toTree d.kind), ("label", .text d.label),
    ("fields", .list (d.fields.map fun f => .object f.members))]

end WorkflowCanvas
