import WorkflowCanvas.Json.Shape.OfTree
import WorkflowCanvas.Json.Shape.Reader

/-!
# Program types as JSON

`Form α` ties a program type to a shape: its values correspond one to one to the values of the
shape. Reading, writing and their laws for a program type come from those of its shape.
-/

namespace WorkflowCanvas.Json

/-- A program type whose values are written as values of a shape. -/
class Form (α : Type) where
  shape : Shape
  ofValue : shape.Value → α
  toValue : α → shape.Value
  ofValue_toValue : ∀ a, ofValue (toValue a) = a
  toValue_ofValue : ∀ v, toValue (ofValue v) = v

variable {α : Type} [Form α]

/-- Reads a text that may hold stray bytes. -/
def readSymbols (input : List Symbol) : Except Error α :=
  ((Form.shape α).read input).map Form.ofValue

/-- Reads a text. -/
def read (text : String) : Except Error α := readSymbols (Symbol.ofText text)

/-- Reads a JSON value. -/
def ofTree (t : Tree) : Except Error α := ((Form.shape α).ofTree t).map Form.ofValue

/-- The JSON value of a program value. -/
def toTree (a : α) : Tree := (Form.shape α).toTree (Form.toValue a)

/-- The text of a program value without spaces. -/
def compact (a : α) : String := (toTree a).compact

/-- The text of a program value with two spaces a level. -/
def indented (a : α) : String := (toTree a).indented

instance : Form (List α) where
  shape := .list (Form.shape α)
  ofValue v := v.map Form.ofValue
  toValue a := a.map Form.toValue
  ofValue_toValue a := by simp [Function.comp_def, Form.ofValue_toValue]
  toValue_ofValue v := by simp [Function.comp_def, Form.toValue_ofValue]

end WorkflowCanvas.Json
