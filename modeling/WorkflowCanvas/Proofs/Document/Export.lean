import Mathlib.Data.List.Forall2
import WorkflowCanvas.Proofs.Document.Storage
import WorkflowCanvas.Proofs.Json.Determined

/-!
# What an exported text tells

The text that a graph is exported as is the same for two graphs exactly when the document is: the
name of the workflow, the nodes in their order with their ids, kinds, labels, positions and
universal fields, and the edges (`Document.toJson_injective`, `Document.ofGraph_eq_iff`).  Nothing
else in a graph has a trace in it.  Fields under other names, which the editor may set at will, can
be left out of a whole run of edits without a change to the export: the graphs then differ in these
fields only (`Graph.SameExport.applyAll_withoutStray`).
-/

namespace WorkflowCanvas

/-- The nodes look alike in a document. -/
structure Node.SameExport (a b : Node) : Prop where
  id : a.id = b.id
  kind : a.kind = b.kind
  label : a.label = b.label
  position : a.position = b.position
  field? : ∀ field : Field, a.field? field = b.field? field

namespace Document

/-! ## Documents with the same text -/

/-- Documents that can be written have the same text only if they are the same. -/
theorem toJson_injective {d d' : Document} (hd : d.IsFinite) (hd' : d'.IsFinite)
    (h : d.toJson = d'.toJson) : d = d' := by
  have hfinite : ∀ {d : Document}, d.IsFinite →
      (Json.Form.shape Document).AllFinite (Json.Form.toValue d) := by
    intro d hd
    unfold Json.Shape.AllFinite
    rw [numbers_document]
    exact hd
  have hvalue := Json.Shape.chars_injective .indented isUnambiguous (hfinite hd) (hfinite hd')
    (String.ofList_injective h)
  rw [← Json.Form.ofValue_toValue d, hvalue, Json.Form.ofValue_toValue]

lemma ofNode_eq_iff {a b : Node} : DocumentNode.ofNode a = .ofNode b ↔ a.SameExport b := by
  constructor
  · intro h
    obtain ⟨hid, hkind, hposition, hdata⟩ := DocumentNode.mk.inj h
    refine ⟨hid, hkind, congrArg NodeData.label hdata, hposition, fun field => ?_⟩
    rw [← NodeData.get_project, ← NodeData.get_project, hdata]
  · rintro ⟨hid, hkind, hlabel, hposition, hfield⟩
    simp only [DocumentNode.ofNode, NodeData.project, hid, hkind, hlabel, hposition, hfield]

lemma ofGraph_eq_iff {g g' : Graph} {name name' : String} :
    ofGraph g name = ofGraph g' name' ↔
      name = name' ∧ List.Forall₂ Node.SameExport g.nodes g'.nodes ∧ g.edges = g'.edges := by
  have hnodes : g.nodes.map DocumentNode.ofNode = g'.nodes.map .ofNode ↔
      List.Forall₂ Node.SameExport g.nodes g'.nodes := by
    rw [← List.forall₂_eq_eq_eq, List.forall₂_map_left_iff, List.forall₂_map_right_iff]
    simp only [ofNode_eq_iff]
  rw [ofGraph, ofGraph, Document.mk.injEq, hnodes]

end Document

/-! ## Fields that are not exported -/

/-- The edit sets a field that no document shows. -/
def Edit.isStray : Edit → Bool
  | .setField _ key _ => (Field.ofName? key).isNone
  | _ => false

namespace Node.SameExport

lemma refl (a : Node) : a.SameExport a := ⟨rfl, rfl, rfl, rfl, fun _ => rfl⟩

lemma setField {a b : Node} (h : a.SameExport b) (key value : String) :
    ({ a with fields := a.fields.insert key value } : Node).SameExport
      { b with fields := b.fields.insert key value } where
  id := h.id
  kind := h.kind
  label := h.label
  position := h.position
  field? field := by
    have hfield := h.field? field
    unfold Node.field? at hfield ⊢
    rw [Table.get?_insert, Table.get?_insert, hfield]

lemma setStray {a b : Node} (h : a.SameExport b) {key : String}
    (stray : Field.ofName? key = none) (value : String) :
    ({ a with fields := a.fields.insert key value } : Node).SameExport b where
  id := h.id
  kind := h.kind
  label := h.label
  position := h.position
  field? field := by
    have hne : field.wire ≠ key := by
      rintro rfl
      rw [Field.ofName?_wire] at stray
      cases stray
    rw [← h.field? field]
    unfold Node.field?
    rw [Table.get?_insert, if_neg hne]

lemma move {a b : Node} (h : a.SameExport b) (position : Position) :
    ({ a with position } : Node).SameExport { b with position } :=
  ⟨h.id, h.kind, h.label, rfl, h.field?⟩

end Node.SameExport

namespace Graph

lemma changeNode_unchanged (id : String) (nodes : List Node) :
    changeNode id (fun n => n) nodes = nodes := by
  induction nodes with
  | nil => rfl
  | cons node nodes ih =>
    unfold changeNode
    rw [ih, ite_self]

section Lists

variable {nodes nodes' : List Node} (h : List.Forall₂ Node.SameExport nodes nodes')
include h

lemma changeNode_sameExport {change change' : Node → Node} (id : String)
    (hchange : ∀ {a b : Node}, a.SameExport b → (change a).SameExport (change' b)) :
    List.Forall₂ Node.SameExport (changeNode id change nodes) (changeNode id change' nodes') := by
  induction h with
  | nil => exact .nil
  | cons hnode hnodes ih =>
    unfold changeNode
    rw [hnode.id]
    split
    · exact .cons (hchange hnode) hnodes
    · exact .cons hnode ih

lemma eraseP_sameExport (id : String) :
    List.Forall₂ Node.SameExport (nodes.eraseP (·.id == id)) (nodes'.eraseP (·.id == id)) := by
  induction h with
  | nil => exact .nil
  | @cons a b _ _ hnode hnodes ih =>
    rw [List.eraseP_cons, List.eraseP_cons, hnode.id]
    cases b.id == id with
    | true => exact hnodes
    | false => exact .cons hnode ih

lemma ids_sameExport : nodes.map Node.id = nodes'.map Node.id := by
  induction h with
  | nil => rfl
  | cons hnode _ ih => rw [List.map_cons, List.map_cons, hnode.id, ih]

end Lists

/-- The graphs differ at most in fields that no document shows. -/
structure SameExport (g g' : Graph) : Prop where
  nodes : List.Forall₂ Node.SameExport g.nodes g'.nodes
  edges : g.edges = g'.edges
  created : g.created = g'.created

namespace SameExport

variable {g g' : Graph}

lemma refl (g : Graph) : g.SameExport g :=
  ⟨List.forall₂_same.2 fun a _ => .refl a, rfl, rfl⟩

lemma contains (h : g.SameExport g') (id : String) : g.contains id = g'.contains id := by
  rw [Bool.eq_iff_iff, contains_iff, contains_iff, ids_sameExport h.nodes]

/-- The same edit of both graphs. -/
lemma apply (h : g.SameExport g') (edit : Edit) :
    (g.apply edit).2.SameExport (g'.apply edit).2 where
  nodes := by
    rw [nodes_apply, nodes_apply]
    cases edit with
    | create kind position =>
      have hid : g.nextId = g'.nextId := by rw [nextId, nextId, h.created]
      rw [hid]
      exact List.rel_append h.nodes (.cons (.refl _) .nil)
    | setField id key value =>
      exact changeNode_sameExport h.nodes id fun hnode => hnode.setField key value
    | move id position =>
      dsimp only
      split
      · exact changeNode_sameExport h.nodes id fun hnode => hnode.move position
      · exact h.nodes
    | remove id => exact eraseP_sameExport h.nodes id
    | _ => exact h.nodes
  edges := by
    rw [edges_apply, edges_apply]
    cases edit with
    | connect source target => simp only [h.contains, h.edges]
    | remove id => simp only [h.contains, h.edges]
    | _ => simp only [h.edges]
  created := by
    rw [created_apply, created_apply, h.created]

/-- A stray field set in one of them only. -/
lemma apply_stray (h : g.SameExport g') {edit : Edit} (stray : edit.isStray = true) :
    (g.apply edit).2.SameExport g' := by
  cases edit with
  | setField id key value =>
    have hkey : Field.ofName? key = none := Option.isNone_iff_eq_none.1 stray
    have hnodes := changeNode_sameExport h.nodes id fun hnode => hnode.setStray hkey value
    rw [changeNode_unchanged] at hnodes
    exact ⟨hnodes, h.edges, h.created⟩
  | _ => cases stray

/-- Settings of stray fields can be left out of a run. -/
lemma applyAll_withoutStray (h : g.SameExport g') (edits : List Edit) :
    (g.applyAll edits).SameExport (g'.applyAll (edits.filter (!·.isStray))) := by
  induction edits generalizing g g' with
  | nil => exact h
  | cons edit edits ih =>
    rw [applyAll_cons]
    cases stray : edit.isStray with
    | true =>
      rw [List.filter_cons_of_neg (by simp [stray])]
      exact ih (h.apply_stray stray)
    | false =>
      rw [List.filter_cons_of_pos (by simp [stray]), applyAll_cons]
      exact ih (h.apply edit)

end SameExport

end Graph

namespace Document

/-- What the exported text of a graph tells.  Graphs that edits led to are exported as the same
text exactly when the name, the nodes with their universal fields and the edges are the same.  The
settings of all other fields can be left out of the edits without a change to the document. -/
theorem exportedText (origin : Graph.Origin) (edits : List Edit) (name : String) :
    (∀ (origin' : Graph.Origin) (edits' : List Edit) (name' : String),
      (ofGraph (origin.graph.applyAll edits) name).toJson =
          (ofGraph (origin'.graph.applyAll edits') name').toJson ↔
        name = name' ∧
        List.Forall₂ Node.SameExport (origin.graph.applyAll edits).nodes
          (origin'.graph.applyAll edits').nodes ∧
        (origin.graph.applyAll edits).edges = (origin'.graph.applyAll edits').edges) ∧
    ofGraph (origin.graph.applyAll (edits.filter (!·.isStray))) name =
      ofGraph (origin.graph.applyAll edits) name := by
  constructor
  · intro origin' edits' name'
    rw [← ofGraph_eq_iff]
    exact ⟨toJson_injective (isFinite_ofGraph origin edits name)
      (isFinite_ofGraph origin' edits' name'), congrArg toJson⟩
  · have hsame := (Graph.SameExport.refl origin.graph).applyAll_withoutStray edits
    exact (ofGraph_eq_iff.2 ⟨rfl, hsame.nodes, hsame.edges⟩).symm

/-- A name that is nearly that of a universal field is stray. -/
example : (Edit.setField "1" "URL" "a").isStray = true ∧
    (Edit.setField "1" "url" "a").isStray = false := by
  decide +kernel

end Document

end WorkflowCanvas
