import WorkflowCanvas.Document
import WorkflowCanvas.Graph.Edit

/-!
# The canvas and its gestures

The canvas is a graph under construction with the name the workflow will have.  A gesture is what
the user does to it.  Every gesture that touches the graph is an edit of it; one that cannot be
applied is ignored, and the log says so.
-/

namespace WorkflowCanvas

/-- A graph with the name of its workflow. -/
structure Canvas where
  graph : Graph
  name : String
  deriving DecidableEq

/-- What a user does to the canvas. -/
inductive Gesture
  /-- Drops a kind from the palette at a position. -/
  | add (kind : Kind) (position : Position)
  /-- Presses the palette button with a label; the node appears at the given spot. -/
  | addNamed (label : String) (spot : Position)
  | connect (source target : String)
  | setField (id key value : String)
  | move (id : String) (position : Position)
  | delete (id : String)
  | deleteEdge (index : Nat)
  | rename (name : String)
  deriving DecidableEq

namespace Canvas

/-- The name of a workflow nobody has named. -/
def defaultName : String := "my_workflow"

/-- The canvas a user starts with. -/
def starter : Canvas := ⟨.starter, defaultName⟩

/-- The canvas as it is stored and executed. -/
def document (c : Canvas) : Document := .ofGraph c.graph c.name

/-! ## Where new nodes appear -/

/-- The left edge of the area in which palette buttons place their nodes. -/
def dropLeft : Nat := 100

/-- The upper edge of that area. -/
def dropTop : Nat := 100

/-- The width of that area. -/
def dropWidth : Nat := 400

/-- The height of that area. -/
def dropHeight : Nat := 300

/-- Whether a position is in that area, to which its right and lower edges do not belong. -/
def inDropArea (p : Position) : Bool :=
  p.x.within (.ofNat dropLeft) (.ofNat (dropLeft + dropWidth))
    && p.y.within (.ofNat dropTop) (.ofNat (dropTop + dropHeight))

/-! ## Editing -/

/-- A field as the editor shows it. -/
structure EditorField where
  definition : FieldDefinition
  /-- Empty if the field is not set. -/
  value : String
  deriving DecidableEq

/-- A field of the editor as JSON. -/
def EditorField.toTree (f : EditorField) : Json.Tree :=
  .object (f.definition.members ++ [("value", .text f.value)])

/-- The fields the editor shows for a node. -/
def editorFields (c : Canvas) (id : String) : List EditorField :=
  match c.graph.node? id with
  | none => []
  | some node =>
    node.kind.definition.fields.map fun d => ⟨d, (node.field? d.field).getD ""⟩

end Canvas

namespace Gesture

/-- The kind behind a palette button; the boundary kinds have none. -/
def paletteKind? (label : String) : Option Kind :=
  (Kind.ofName? label).filter (!·.isBoundary)

/-- The edit of the graph that a gesture amounts to. -/
def edit? : Gesture → Option Edit
  | add kind position => some (.create kind position)
  | addNamed label spot => (paletteKind? label).map (.create · spot)
  | connect source target => some (.connect source target)
  | setField id key value => some (.setField id key value)
  | move id position => some (.move id position)
  | delete id => some (.remove id)
  | deleteEdge index => some (.removeEdge index)
  | rename _ => none

/-- Whether the user is told that a gesture was carried out. -/
def isDone (outcome : Option Edit.Outcome) : Bool := outcome.any Edit.Outcome.isDone

/-- The edge that the user is shown for connecting two nodes, none if that failed. -/
def shownEdge? (outcome : Option Edit.Outcome) : Option Edge := outcome >>= Edit.Outcome.edge?

/-- The lines that report why a gesture on the graph `g` is ignored. -/
def ignoredLog (g : Graph) : Gesture → List Log
  | addNamed label _ =>
    match Kind.ofName label with
    | .error e => [⟨.warn, "Ignored add-node gesture: " ++ e.message⟩]
    | .ok kind =>
      if kind.isBoundary then
        [⟨.warn, "Ignored add-node gesture for boundary type '" ++ label ++ "'"⟩]
      else []
  | move id position =>
    match g.move id position with
    | .error e => [⟨.debug, "Ignored drag gesture: " ++ e.message⟩]
    | .ok _ => []
  | delete id =>
    match g.remove id with
    | .error e => [⟨.debug, "Ignored delete gesture: " ++ e.message⟩]
    | .ok _ => []
  | _ => []

/-- The lines that report a gesture on the graph `g`. -/
def log (g : Graph) (gesture : Gesture) : List Log :=
  (gesture.edit?.elim [] (·.log g)) ++ gesture.ignoredLog g

end Gesture

namespace Canvas

/-- Performs a gesture. -/
def perform (c : Canvas) : Gesture → Option Edit.Outcome × Canvas
  | .rename name => (none, { c with name })
  | gesture =>
    match gesture.edit? with
    | none => (none, c)
    | some edit =>
      let (outcome, graph) := c.graph.apply edit
      (some outcome, { c with graph })

end Canvas

end WorkflowCanvas
