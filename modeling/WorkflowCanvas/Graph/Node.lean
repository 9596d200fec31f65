import WorkflowCanvas.Catalog

/-!
# Nodes, edges and positions

A node is a step placed on the canvas.  Its field map holds whatever the editor wrote, under any
name; unset fields are absent.
-/

namespace WorkflowCanvas

/-- A place on the canvas. -/
structure Position where
  x : Binary64
  y : Binary64
  deriving DecidableEq

namespace Position

/-- The upper left corner. -/
def origin : Position := ⟨.zero, .zero⟩

/-- Whether both coordinates are finite, so that they can be written as JSON numbers. -/
def isFinite (p : Position) : Bool := p.x.isFinite && p.y.isFinite

/-- The position with every coordinate that is not finite replaced by zero. -/
def orOrigin (p : Position) : Position :=
  ⟨if p.x.isFinite then p.x else .zero, if p.y.isFinite then p.y else .zero⟩

/-- Whether both coordinates are the same numbers. -/
def samePlace (p q : Position) : Bool := p.x.sameNumber q.x && p.y.sameNumber q.y

/-- The position in a message. -/
def display (p : Position) : String := "(" ++ p.x.display ++ ", " ++ p.y.display ++ ")"

theorem isFinite_orOrigin (p : Position) : p.orOrigin.isFinite = true := by
  unfold orOrigin isFinite
  split <;> split <;> simp_all [Binary64.isFinite_zero]

theorem orOrigin_eq_self {p : Position} (h : p.isFinite = true) : p.orOrigin = p := by
  have h' := Bool.and_eq_true_iff.1 h
  simp [orOrigin, h'.1, h'.2]

instance : Json.Form Position where
  shape := .record "Position" [("x", .required, .number), ("y", .required, .number)]
  ofValue v := ⟨v.1, v.2.1⟩
  toValue p := (p.x, p.y, ())
  ofValue_toValue _ := rfl
  toValue_ofValue _ := rfl

end Position

/-- A step on the canvas. -/
structure Node where
  /-- Never given to another node of the same graph. -/
  id : String
  kind : Kind
  label : String
  position : Position
  fields : Table String
  deriving DecidableEq

namespace Node

/-- A node with the label of its kind and no field set. -/
def fresh (id : String) (kind : Kind) (position : Position) : Node :=
  ⟨id, kind, kind.label, position, .empty⟩

/-- The value of a universal field. -/
def field? (node : Node) (field : Field) : Option String := node.fields.get? field.wire

/-- The fields the editor shows for the node, with their values. -/
def declaredFields (node : Node) : List (Field × Option String) :=
  node.kind.fields.map fun field => (field, node.field? field)

instance : Json.Form Node where
  shape := .record "GraphNode" [("id", .required, .text), ("type", .required, Json.Form.shape Kind),
    ("label", .required, .text), ("position", .required, Json.Form.shape Position),
    ("fields", .optional, .table .text)]
  ofValue v := ⟨v.1, Json.Form.ofValue v.2.1, v.2.2.1, Json.Form.ofValue v.2.2.2.1, v.2.2.2.2.1⟩
  toValue n := (n.id, Json.Form.toValue n.kind, n.label, Json.Form.toValue n.position, n.fields, ())
  ofValue_toValue n := by simp [Json.Form.ofValue_toValue]
  toValue_ofValue v := by simp [Json.Form.toValue_ofValue]

end Node

/-- A directed connection between two nodes. -/
structure Edge where
  source : String
  target : String
  deriving DecidableEq

namespace Edge

/-- Whether the node of this id is at either end. -/
def touches (edge : Edge) (id : String) : Bool := edge.source == id || edge.target == id

instance : Json.Form Edge where
  shape := .record "GraphEdge" [("source", .required, .text), ("target", .required, .text)]
  ofValue v := ⟨v.1, v.2.1⟩
  toValue e := (e.source, e.target, ())
  ofValue_toValue _ := rfl
  toValue_ofValue _ := rfl

end Edge

end WorkflowCanvas
