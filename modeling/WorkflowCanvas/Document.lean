import WorkflowCanvas.Graph.Basic

/-!
# Workflow documents

The document is what leaves the program: the projection of a graph that the execution service reads.
Every node carries its label and those of the universal fields that are set, whether or not its kind
declares them; other fields of the node stay behind.  A document is a snapshot: later edits of the
graph do not reach it.
-/

namespace WorkflowCanvas

/-- The field values of a node in a document; an absent field differs from an empty one. -/
structure NodeData where
  label : String
  url : Option String
  selector : Option String
  inputText : Option String
  attributeName : Option String
  variableName : Option String
  filename : Option String
  deriving DecidableEq

namespace NodeData

/-- What a document shows of a node. -/
def project (node : Node) : NodeData where
  label := node.label
  url := node.field? .url
  selector := node.field? .selector
  inputText := node.field? .inputText
  attributeName := node.field? .attributeName
  variableName := node.field? .variableName
  filename := node.field? .filename

/-- The value of a field. -/
def get (data : NodeData) : Field → Option String
  | .url => data.url
  | .selector => data.selector
  | .inputText => data.inputText
  | .attributeName => data.attributeName
  | .variableName => data.variableName
  | .filename => data.filename

theorem get_project (node : Node) (field : Field) :
    (project node).get field = node.field? field := by
  cases field <;> rfl

instance : Json.Form NodeData where
  shape := .record "NodeData" [("label", .required, .text), ("url", .omittable, .maybe .text),
    ("selector", .omittable, .maybe .text), ("inputText", .omittable, .maybe .text),
    ("attribute", .omittable, .maybe .text), ("variableName", .omittable, .maybe .text),
    ("filename", .omittable, .maybe .text)]
  ofValue v := ⟨v.1, v.2.1, v.2.2.1, v.2.2.2.1, v.2.2.2.2.1, v.2.2.2.2.2.1, v.2.2.2.2.2.2.1⟩
  toValue d := (d.label, d.url, d.selector, d.inputText, d.attributeName, d.variableName,
    d.filename, ())
  ofValue_toValue _ := rfl
  toValue_ofValue _ := rfl

end NodeData

/-- A node of a document. -/
structure DocumentNode where
  id : String
  kind : Kind
  position : Position
  data : NodeData
  deriving DecidableEq

namespace DocumentNode

/-- What a document shows of a node of the graph. -/
def ofNode (node : Node) : DocumentNode := ⟨node.id, node.kind, node.position, .project node⟩

/-- Equality up to the sign of zero coordinates. -/
def sameNode (a b : DocumentNode) : Bool :=
  a.id == b.id && a.kind == b.kind && a.position.samePlace b.position && a.data == b.data

instance : Json.Form DocumentNode where
  shape := .record "ExportedNode" [("id", .required, .text),
    ("type", .required, Json.Form.shape Kind), ("position", .required, Json.Form.shape Position),
    ("data", .required, Json.Form.shape NodeData)]
  ofValue v :=
    ⟨v.1, Json.Form.ofValue v.2.1, Json.Form.ofValue v.2.2.1, Json.Form.ofValue v.2.2.2.1⟩
  toValue n := (n.id, Json.Form.toValue n.kind, Json.Form.toValue n.position,
    Json.Form.toValue n.data, ())
  ofValue_toValue n := by simp [Json.Form.ofValue_toValue]
  toValue_ofValue v := by simp [Json.Form.toValue_ofValue]

end DocumentNode

/-- A workflow as it is stored and executed. -/
structure Document where
  name : String
  nodes : List DocumentNode
  edges : List Edge
  deriving DecidableEq

/-- A document ready to be sent as a file. -/
structure Attachment where
  fileName : String
  contentType : String
  content : String
  deriving DecidableEq

namespace Document

/-- The ending of a document's file name. -/
def fileExtension : String := ".json"

/-- The media type of a document. -/
def contentType : String := "application/json"

instance : Json.Form Document where
  shape := .record "WorkflowDocument" [("name", .required, .text),
    ("nodes", .required, .list (Json.Form.shape DocumentNode)),
    ("edges", .required, .list (Json.Form.shape Edge))]
  ofValue v := ⟨v.1, v.2.1.map Json.Form.ofValue, v.2.2.1.map Json.Form.ofValue⟩
  toValue d := (d.name, d.nodes.map Json.Form.toValue, d.edges.map Json.Form.toValue, ())
  ofValue_toValue d := by simp [Function.comp_def, Json.Form.ofValue_toValue]
  toValue_ofValue v := by simp [Function.comp_def, Json.Form.toValue_ofValue]

/-- The document of a graph under a name. -/
def ofGraph (g : Graph) (name : String) : Document := ⟨name, g.nodes.map .ofNode, g.edges⟩

/-- The stored text: two spaces a level, the keys in a fixed order. -/
def toJson (d : Document) : String := Json.indented d

/-- Reads a stored text. -/
def ofJson (text : String) : Except GraphError Document := (Json.read text).mapError .badDocument

/-- The name of the document's file. -/
def fileName (d : Document) : String := d.name ++ fileExtension

/-- The document as a file. -/
def attachment (d : Document) : Attachment := ⟨d.fileName, contentType, d.toJson⟩

/-- The node of an id. -/
def node? (d : Document) (id : String) : Option DocumentNode := d.nodes.find? (·.id == id)

/-- Equality up to the sign of zero coordinates. -/
def sameDocument (a b : Document) : Bool :=
  a.name == b.name && a.nodes.length == b.nodes.length
    && (a.nodes.zip b.nodes).all (fun (m, n) => m.sameNode n) && a.edges == b.edges

end Document

end WorkflowCanvas
