import WorkflowCanvas.Proofs.Canvas.Snapshot
import WorkflowCanvas.Proofs.Document.Format
import WorkflowCanvas.Proofs.Graph.Refusal

/-!
# The editor and the document

The editor shows the fields that the kind of a node declares, and a document shows the universal
fields of the node, set or not declared.  Both read the one table of the node, so where they meet
they agree, and a field that is set in the editor is one value of the document that changes: the
value under the field of exactly that name, in the node of exactly that id
(`Canvas.editorShowsExport`).  No two nodes share an id, so the node that the editor shows, the one
that is written to and the one in the document are the same.
-/

namespace WorkflowCanvas

/-! ## Canvases of a user -/

namespace Canvas

lemma graph_perform (c : Canvas) (gesture : Gesture) :
    (c.perform gesture).2.graph = c.graph.applyAll gesture.edit?.toList := by
  cases hedit : gesture.edit? with
  | some edit => rw [perform_of_edit? hedit, Option.toList_some, Graph.applyAll_cons,
      Graph.applyAll_nil]
  | none =>
    cases gesture with
    | rename name => rfl
    | addNamed label spot => simp only [perform, hedit, Option.toList_none, Graph.applyAll_nil]
    | _ => cases hedit

/-- Gestures do to the graph what their edits do. -/
lemma graph_performAll (c : Canvas) (gestures : List Gesture) :
    (c.performAll gestures).graph = c.graph.applyAll (gestures.filterMap Gesture.edit?) := by
  induction gestures generalizing c with
  | nil => rfl
  | cons gesture gestures ih =>
    rw [performAll, List.foldl_cons, ← performAll, ih, graph_perform, ← Graph.applyAll_append]
    cases hedit : gesture.edit? with
    | none => rw [List.filterMap_cons_none hedit, Option.toList_none, List.nil_append]
    | some edit => rw [List.filterMap_cons_some hedit, Option.toList_some, List.singleton_append]

lemma sound_performAll (gestures : List Gesture) : (starter.performAll gestures).graph.Sound := by
  rw [graph_performAll]
  exact Graph.Origin.starter.sound _

end Canvas

/-! ## One node of a document -/

/-- Data of nodes with the same label and the same fields are the same. -/
lemma NodeData.eq_of_get_eq {a b : NodeData} (hlabel : a.label = b.label)
    (hget : ∀ field, a.get field = b.get field) : a = b := by
  cases a
  cases b
  exact (NodeData.mk.injEq ..).mpr ⟨hlabel, hget .url, hget .selector, hget .inputText,
    hget .attributeName, hget .variableName, hget .filename⟩

namespace DocumentNode

/-- The fields that the kind of a node declares, in their order, with the values that the document
has for them, and empty ones where it has none. -/
def declaredFields (node : DocumentNode) : List Canvas.EditorField :=
  node.kind.fields.map fun field =>
    ⟨⟨field, node.kind.placeholder field⟩, (node.data.get field).getD ""⟩

/-- A node and the same node behind the setting of a field under any name: only the field of that
name in the node of that id is rewritten. -/
structure Rewritten (id key value : String) (before after : DocumentNode) : Prop where
  id_eq : after.id = before.id
  kind_eq : after.kind = before.kind
  position_eq : after.position = before.position
  label_eq : after.data.label = before.data.label
  get_eq : ∀ field : Field, after.data.get field =
    if before.id = id ∧ key = field.wire then some value else before.data.get field

lemma get_ofNode (node : Node) (field : Field) : (ofNode node).data.get field = node.field? field :=
  NodeData.get_project node field

/-- A field set on a node is set in the document, if it has a name that the document shows. -/
lemma rewritten_ofNode (node : Node) (id key value : String) :
    Rewritten id key value (ofNode node) (ofNode (node.after (.setField id key value))) := by
  obtain ⟨hid, hkind, hlabel, hposition, hfields⟩ := node.after_eq (.setField id key value)
  refine ⟨hid, hkind, hposition, hlabel, fun field => ?_⟩
  rw [get_ofNode, get_ofNode, Node.field?, hfields, Edit.setTo?]
  by_cases hset : id = node.id ∧ key = field.wire
  · have hset' : (ofNode node).id = id ∧ key = field.wire := ⟨hset.1.symm, hset.2⟩
    rw [if_pos hset, if_pos hset', Option.some_or]
  · have hset' : ¬((ofNode node).id = id ∧ key = field.wire) := fun h => hset ⟨h.1.symm, h.2⟩
    rw [if_neg hset, if_neg hset', Option.none_or, Node.field?]

/-- A node of another id, or one that is written to under another name, stays the same. -/
lemma Rewritten.eq {id key value : String} {before after : DocumentNode}
    (h : Rewritten id key value before after)
    (elsewhere : before.id ≠ id ∨ ∀ field : Field, key ≠ field.wire) : after = before := by
  have hget : ∀ field, after.data.get field = before.data.get field := by
    intro field
    rw [h.get_eq, if_neg]
    rintro ⟨hid, hkey⟩
    exact elsewhere.elim (· hid) (· field hkey)
  cases after
  cases before
  exact (DocumentNode.mk.injEq ..).mpr
    ⟨h.id_eq, h.kind_eq, h.position_eq, NodeData.eq_of_get_eq h.label_eq hget⟩

end DocumentNode

/-! ## The editor -/

/-- Setting a field treats the nodes of a sound graph one by one. -/
lemma Graph.Sound.nodes_setField {g : Graph} (hg : g.Sound) (id key value : String) :
    (g.apply (.setField id key value)).2.nodes =
      g.nodes.map (·.after (.setField id key value)) := by
  rw [hg.nodes_apply_eq]
  simp [Graph.added]

namespace Canvas

lemma ids_document (c : Canvas) :
    c.document.nodes.map DocumentNode.id = c.graph.nodes.map Node.id := by
  rw [document, Document.ofGraph, List.map_map]
  rfl

lemma node?_document (c : Canvas) (id : String) :
    c.document.node? id = (c.graph.node? id).map .ofNode :=
  List.find?_map

/-- What the editor shows can be read off the document. -/
lemma editorFields_eq (c : Canvas) (id : String) :
    c.editorFields id = (c.document.node? id).elim [] DocumentNode.declaredFields := by
  rw [editorFields, node?_document]
  cases c.graph.node? id with
  | none => rfl
  | some node =>
    simp only [Kind.definition, List.map_map, Option.map_some, Option.elim_some,
      DocumentNode.declaredFields, DocumentNode.get_ofNode]
    rfl

/-- The document behind the setting of a field. -/
lemma document_setField {c : Canvas} (hc : c.graph.Sound) (id key value : String) :
    (c.perform (.setField id key value)).2.document =
      { c.document with
        nodes := c.graph.nodes.map fun node => .ofNode (node.after (.setField id key value)) } := by
  rw [perform_of_edit? rfl, document, Document.ofGraph, hc.nodes_setField, List.map_map,
    Graph.edges_apply]
  rfl

/-- How the editor and the document of a canvas go together. -/
structure EditorAgrees (c : Canvas) : Prop where
  ids_distinct : (c.document.nodes.map DocumentNode.id).Nodup
  /-- The editor shows the declared fields of every node as the document has them. -/
  shown : ∀ node ∈ c.document.nodes, c.editorFields node.id = node.declaredFields
  hidden : ∀ id, id ∉ c.document.nodes.map DocumentNode.id → c.editorFields id = []
  /-- Setting a field rewrites that field of that node, and nothing else in the document. -/
  rewritten : ∀ id key value,
    let after := (c.perform (.setField id key value)).2
    after.document.name = c.document.name ∧ after.document.edges = c.document.edges ∧
      List.Forall₂ (DocumentNode.Rewritten id key value) c.document.nodes after.document.nodes
  /-- Under a name that no field has, or for a node that is not there, setting a field changes
  neither the document nor what the editor shows of any node. -/
  ignored : ∀ id key value,
    id ∉ c.document.nodes.map DocumentNode.id ∨ (∀ field : Field, key ≠ field.wire) →
    let after := (c.perform (.setField id key value)).2
    after.document = c.document ∧ ∀ other, after.editorFields other = c.editorFields other

/-- On every canvas of a user the editor shows what the document has, and setting a field changes
exactly one value of the document. -/
theorem editorShowsExport (gestures : List Gesture) :
    EditorAgrees (starter.performAll gestures) := by
  have hsound := sound_performAll gestures
  generalize starter.performAll gestures = c at hsound
  have hdistinct : (c.document.nodes.map DocumentNode.id).Nodup := by
    rw [ids_document]
    exact hsound.ids_nodup
  constructor
  case ids_distinct => exact hdistinct
  case shown =>
    intro node hnode
    have hfound : c.document.node? node.id = some node := by
      cases hfind : c.document.node? node.id with
      | none =>
        rw [Document.node?, List.find?_eq_none] at hfind
        exact absurd (beq_self_eq_true node.id) (hfind node hnode)
      | some found =>
        have hid : found.id = node.id := by simpa using List.find?_some hfind
        rw [List.inj_on_of_nodup_map hdistinct (List.mem_of_find?_eq_some hfind) hnode hid]
    rw [editorFields_eq, hfound, Option.elim_some]
  case hidden =>
    intro id habsent
    have hnone : c.graph.node? id = none := by
      rwa [Graph.node?_eq_none_iff, ← ids_document]
    rw [editorFields_eq, node?_document, hnone]
    rfl
  case rewritten =>
    intro id key value
    dsimp only
    rw [document_setField hsound]
    refine ⟨rfl, rfl, ?_⟩
    rw [document, Document.ofGraph, List.forall₂_map_left_iff, List.forall₂_map_right_iff,
      List.forall₂_same]
    exact fun node _ => DocumentNode.rewritten_ofNode node id key value
  case ignored =>
    intro id key value nowhere
    have hsame : (c.perform (.setField id key value)).2.document = c.document := by
      have hnodes : c.graph.nodes.map (fun node => .ofNode (node.after (.setField id key value))) =
          c.graph.nodes.map DocumentNode.ofNode := by
        refine List.map_congr_left fun node hnode => ?_
        refine (DocumentNode.rewritten_ofNode node id key value).eq (nowhere.imp_left ?_)
        rintro habsent rfl
        rw [ids_document] at habsent
        exact habsent (List.mem_map_of_mem hnode)
      rw [document_setField hsound, hnodes]
      rfl
    refine ⟨hsame, fun other => ?_⟩
    rw [editorFields_eq, hsame, ← editorFields_eq]

/-- A field of another kind is exported and not shown, and a name in capitals is neither. -/
example :
    let c := starter.performAll [.setField "2" "url" "", .setField "2" "URL" "x"]
    c.editorFields "2" = [⟨⟨.selector, "CSS Selector"⟩, ""⟩] ∧
      (c.document.node? "2").map (·.data.get .url) = some (some "") := by
  decide +kernel

end Canvas

end WorkflowCanvas
