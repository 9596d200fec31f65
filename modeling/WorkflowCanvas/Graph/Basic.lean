import WorkflowCanvas.Graph.Node

/-!
# The workflow graph

A graph owns its nodes and edges, both in the order they were added in, and counts how many nodes it
ever created.  The count is the id of the newest node, so an id is never given twice, not even after
its node is gone.  Edges join nodes that are there: connecting demands both ends and removing a node
takes its edges along.
-/

namespace WorkflowCanvas

/-- Why an operation on a graph or a document is refused. -/
inductive GraphError
  | unknownNode (id : String)
  | invalidPosition (position : Position)
  | unknownKind (name : String)
  | badDocument (cause : Json.Error)
  deriving DecidableEq

namespace GraphError

/-- The wording of a refusal. -/
def message : GraphError → String
  | .unknownNode id => "Unknown node: " ++ id
  | .invalidPosition position => "Invalid position " ++ position.display
  | .unknownKind name => "Unknown node type: " ++ name
  | .badDocument cause => "Serialization error: " ++ cause.message

/-- The id that was not found, if that is the cause. -/
def nodeId? : GraphError → Option String
  | .unknownNode id => some id
  | _ => none

end GraphError

/-- The kind of a name, or the refusal of it. -/
def Kind.ofName (name : String) : Except GraphError Kind :=
  match Kind.ofName? name with
  | some kind => .ok kind
  | none => .error (.unknownKind name)

/-- A workflow under construction. -/
structure Graph where
  nodes : List Node
  edges : List Edge
  /-- How many nodes were ever created.  A counter of 64 bits agrees with it as long as these are
  fewer than `2 ^ 64 - 1`. -/
  created : Nat
  deriving DecidableEq

namespace Graph

/-- The graph without nodes. -/
def empty : Graph := ⟨[], [], 0⟩

instance : Inhabited Graph := ⟨empty⟩

/-- The node of an id. -/
def node? (g : Graph) (id : String) : Option Node := g.nodes.find? (·.id == id)

/-- Whether a node has this id. -/
def contains (g : Graph) (id : String) : Bool := g.nodes.any (·.id == id)

/-- The id of the next node. -/
def nextId (g : Graph) : String := toString (g.created + 1)

/-- Adds a node; coordinates that are not finite become zero. -/
def create (g : Graph) (kind : Kind) (position : Position) : Node × Graph :=
  let node := Node.fresh g.nextId kind position.orOrigin
  (node, { g with nodes := g.nodes ++ [node], created := g.created + 1 })

/-- Adds an edge between two nodes.  Parallel edges and loops are allowed. -/
def connect (g : Graph) (source target : String) : Except GraphError (Edge × Graph) :=
  if g.contains source = false then .error (.unknownNode source)
  else if g.contains target = false then .error (.unknownNode target)
  else .ok (⟨source, target⟩, { g with edges := g.edges ++ [⟨source, target⟩] })

/-- Changes the first node of an id. -/
def changeNode (id : String) (change : Node → Node) : List Node → List Node
  | [] => []
  | node :: nodes =>
    if node.id == id then change node :: nodes else node :: changeNode id change nodes

/-- Sets a field of a node, under any name.  Without such a node nothing changes, since an editor's
event may arrive after its node has gone. -/
def setField (g : Graph) (id key value : String) : Graph :=
  { g with
    nodes := changeNode id (fun n => { n with fields := n.fields.insert key value }) g.nodes }

/-- Moves a node.  A position that is not finite is refused before the node is looked for. -/
def move (g : Graph) (id : String) (position : Position) : Except GraphError Graph :=
  if position.isFinite = false then .error (.invalidPosition position)
  else if g.contains id = false then .error (.unknownNode id)
  else .ok { g with nodes := changeNode id (fun n => { n with position }) g.nodes }

/-- Removes a node and every edge that touches it. -/
def remove (g : Graph) (id : String) : Except GraphError (Node × Graph) :=
  match g.node? id with
  | none => .error (.unknownNode id)
  | some node =>
    .ok (node, { g with
      nodes := g.nodes.eraseP (·.id == id)
      edges := g.edges.filter (fun e => !e.touches id) })

/-- Removes the edge at an index. -/
def removeEdge (g : Graph) (index : Nat) : Option (Edge × Graph) :=
  match g.edges[index]? with
  | none => none
  | some edge => some (edge, { g with edges := g.edges.eraseIdx index })

end Graph

end WorkflowCanvas
