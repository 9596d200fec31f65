import WorkflowCanvas.Graph.Basic
import WorkflowCanvas.Log

/-!
# Edits of a graph

The operations that change a graph as values, so that whole histories can be talked about.  `apply`
performs one and `log` says which lines report it; a refused edit leaves the graph as it was.
-/

namespace WorkflowCanvas

/-- An operation on a graph. -/
inductive Edit
  | create (kind : Kind) (position : Position)
  | connect (source target : String)
  | setField (id key value : String)
  | move (id : String) (position : Position)
  | remove (id : String)
  | removeEdge (index : Nat)
  deriving DecidableEq

/-- What an edit answers. -/
inductive Edit.Outcome
  | created (node : Node)
  | connected (edge : Edge)
  | fieldSet
  | moved
  | removed (node : Node)
  | edgeRemoved (edge : Edge)
  /-- There was no edge at the index. -/
  | noEdge
  | refused (error : GraphError)
  deriving DecidableEq

namespace Edit.Outcome

/-- Whether the edit was carried out. -/
def isDone : Outcome → Bool
  | refused _ | noEdge => false
  | _ => true

/-- The edge that a connection added. -/
def edge? : Outcome → Option Edge
  | connected edge => some edge
  | _ => none

end Edit.Outcome

namespace Edit

/-- The answer of an operation that may be refused. -/
def conclude {α : Type} (g : Graph) (outcome : α → Outcome) :
    Except GraphError (α × Graph) → Outcome × Graph
  | .ok (a, g') => (outcome a, g')
  | .error e => (.refused e, g)

end Edit

namespace Graph

/-- Performs an edit. -/
def apply (g : Graph) : Edit → Edit.Outcome × Graph
  | .create kind position =>
    let (node, g') := g.create kind position
    (.created node, g')
  | .connect source target => Edit.conclude g .connected (g.connect source target)
  | .setField id key value => (.fieldSet, g.setField id key value)
  | .move id position => Edit.conclude g (fun () => .moved) ((g.move id position).map ((), ·))
  | .remove id => Edit.conclude g .removed (g.remove id)
  | .removeEdge index =>
    match g.removeEdge index with
    | some (edge, g') => (.edgeRemoved edge, g')
    | none => (.noEdge, g)

/-- Performs edits in order; answers the last graph. -/
def applyAll (g : Graph) (edits : List Edit) : Graph := edits.foldl (fun g e => (g.apply e).2) g

/-- The edits behind the canvas a user starts with: an entry, a click and an exit. -/
def starterEdits : List Edit := [
  .create .start ⟨.ofNat 50, .ofNat 50⟩,
  .create .click ⟨.ofNat 250, .ofNat 150⟩,
  .create .finish ⟨.ofNat 450, .ofNat 250⟩]

/-- The canvas a user starts with. -/
def starter : Graph := empty.applyAll starterEdits

end Graph

namespace Edit

/-- A debug line. -/
private def debug (message : String) : Log := ⟨.debug, message⟩

/-- The lines that report the creation of a node. -/
def createLog (g : Graph) (kind : Kind) (position : Position) : List Log :=
  let node := (g.create kind position).1
  let placed := debug ("Created " ++ kind.wire ++ " node '" ++ node.id ++ "' at "
    ++ node.position.display)
  if position.isFinite then [placed]
  else [⟨.warn, "Non-finite position " ++ position.display ++ " for new " ++ kind.wire ++ " node"⟩,
    placed]

/-- The lines that report an edit of the graph `g`. -/
def log (g : Graph) : Edit → List Log
  | .create kind position => createLog g kind position
  | .connect source target =>
    match g.connect source target with
    | .ok _ => [debug ("Connected " ++ source ++ " -> " ++ target)]
    | .error e =>
      [⟨.warn, "Rejected edge " ++ source ++ " -> " ++ target ++ ": unknown node '"
        ++ e.nodeId?.getD "" ++ "'"⟩]
  | .setField id key _ =>
    if g.contains id then [debug ("Set field '" ++ key ++ "' on node '" ++ id ++ "'")]
    else [debug ("Ignored field '" ++ key ++ "' for missing node '" ++ id ++ "'")]
  | .move id position =>
    match g.move id position with
    | .ok _ => [debug ("Moved node '" ++ id ++ "' to " ++ position.display)]
    | .error _ => []
  | .remove id =>
    match g.remove id with
    | .ok (_, g') =>
      [debug ("Removed node '" ++ id ++ "' and " ++ toString (g.edges.length - g'.edges.length)
        ++ " attached edge(s)")]
    | .error _ => []
  | .removeEdge index =>
    match g.removeEdge index with
    | some (edge, _) => [debug ("Removed edge " ++ edge.source ++ " -> " ++ edge.target)]
    | none => []

end Edit

/-- The lines that report edits performed in order. -/
def Graph.logAll (g : Graph) : List Edit → List Log
  | [] => []
  | edit :: edits => edit.log g ++ logAll (g.apply edit).2 edits

/-- The lines that report the starting canvas. -/
def Graph.starterLog : List Log := Graph.empty.logAll starterEdits

end WorkflowCanvas
