import WorkflowCanvas.Document
import WorkflowCanvas.Proofs.Graph.NodeHistory
import WorkflowCanvas.Proofs.Json.Finite
import WorkflowCanvas.Proofs.Json.RoundTrip

/-!
# Stored documents

A document with finite coordinates is written and read again without an error, and everything but
its coordinates comes back as it was: the names, the kinds and labels, the fields that are set and
those that are not, the edges in their order.  A coordinate comes back as what `Binary64.reread`
makes of it, since its digits are rounded twice.  So a stored document is the same again exactly
when rereading changes none of its coordinates, which holds for all short ones
(`Binary64.HasFewDigits`) but not for every one of sixteen digits.

Coordinates that are not finite never come up, neither by the edits of a graph nor from a text.
-/

namespace WorkflowCanvas

/-- The digits in the text of a finite number are below `2 ^ 53` and its power of ten is at most
twenty-two. -/
def Binary64.HasFewDigits : Binary64 → Prop
  | .finite _ m => (m.shortest .toEven).spelled.digits < 2 ^ 53 ∧
    (m.shortest .toEven).spelled.exponent.natAbs ≤ 22
  | _ => True

namespace Document

/-- The coordinates of the nodes, in their order. -/
def coordinates (d : Document) : List Binary64 :=
  d.nodes.flatMap fun node => [node.position.x, node.position.y]

/-- Whether the document can be written. -/
def IsFinite (d : Document) : Prop := ∀ x ∈ d.coordinates, x.isFinite = true

/-- The document with every coordinate replaced. -/
def mapCoordinates (f : Binary64 → Binary64) (d : Document) : Document :=
  { d with nodes := d.nodes.map fun node =>
      { node with position := ⟨f node.position.x, f node.position.y⟩ } }

/-! ## Coordinates are the numbers of a document -/

lemma isUnambiguous : (Json.Form.shape Document).isUnambiguous = true := by
  decide +kernel

/-- The members of a node's data are texts. -/
lemma numbers_data (data : NodeData) :
    (Json.Form.shape NodeData).numbers (Json.Form.toValue data) = [] := by
  have hmaybe : ∀ s : Option String, (Json.Shape.maybe .text).numbers s = [] := by
    intro s
    cases s <;> rfl
  change [] ++ ((Json.Shape.maybe .text).numbers data.url ++
    ((Json.Shape.maybe .text).numbers data.selector ++
    ((Json.Shape.maybe .text).numbers data.inputText ++
    ((Json.Shape.maybe .text).numbers data.attributeName ++
    ((Json.Shape.maybe .text).numbers data.variableName ++
    ((Json.Shape.maybe .text).numbers data.filename ++ [])))))) = []
  simp only [hmaybe, List.append_nil]

lemma numbers_node (node : DocumentNode) :
    (Json.Form.shape DocumentNode).numbers (Json.Form.toValue node) =
      [node.position.x, node.position.y] := by
  change [] ++ ([] ++ ([node.position.x, node.position.y] ++
    ((Json.Form.shape NodeData).numbers (Json.Form.toValue node.data) ++ []))) = _
  rw [numbers_data]
  rfl

lemma numbers_document (d : Document) :
    (Json.Form.shape Document).numbers (Json.Form.toValue d) = d.coordinates := by
  have hedges : (d.edges.map Json.Form.toValue).flatMap (Json.Form.shape Edge).numbers = [] := by
    rw [List.flatMap_eq_nil_iff]
    intro v hv
    obtain ⟨e, _, rfl⟩ := List.mem_map.1 hv
    rfl
  change [] ++ ((d.nodes.map Json.Form.toValue).flatMap (Json.Form.shape DocumentNode).numbers ++
    ((d.edges.map Json.Form.toValue).flatMap (Json.Form.shape Edge).numbers ++ [])) = _
  rw [hedges, List.flatMap_map, List.nil_append, List.append_nil, List.append_nil]
  exact List.flatMap_congr fun node _ => numbers_node node

/-- Replacing the numbers of a document replaces its coordinates. -/
lemma ofValue_mapNumbers (f : Binary64 → Binary64) (d : Document) :
    Json.Form.ofValue ((Json.Form.shape Document).mapNumbers f (Json.Form.toValue d)) =
      d.mapCoordinates f := by
  have hdata : ∀ data : NodeData,
      (Json.Form.shape NodeData).mapNumbers f (Json.Form.toValue data) =
        Json.Form.toValue data := by
    intro data
    rw [Json.Shape.mapNumbers_eq_self_iff, numbers_data]
    exact List.forall_mem_nil _
  have hnode : ∀ node : DocumentNode, Json.Form.ofValue
      ((Json.Form.shape DocumentNode).mapNumbers f (Json.Form.toValue node)) =
        ({ node with position := ⟨f node.position.x, f node.position.y⟩ } : DocumentNode) := by
    intro node
    change (⟨node.id, Json.Form.ofValue (Json.Form.toValue node.kind),
      ⟨f node.position.x, f node.position.y⟩, Json.Form.ofValue
        ((Json.Form.shape NodeData).mapNumbers f (Json.Form.toValue node.data))⟩ :
          DocumentNode) = _
    rw [hdata, Json.Form.ofValue_toValue, Json.Form.ofValue_toValue]
  change (⟨d.name,
    ((d.nodes.map Json.Form.toValue).map ((Json.Form.shape DocumentNode).mapNumbers f)).map
      Json.Form.ofValue,
    ((d.edges.map Json.Form.toValue).map ((Json.Form.shape Edge).mapNumbers f)).map
      Json.Form.ofValue⟩ : Document) = _
  have hedges : ((d.edges.map Json.Form.toValue).map ((Json.Form.shape Edge).mapNumbers f)).map
      Json.Form.ofValue = d.edges := by
    rw [List.map_map, List.map_map]
    exact List.map_id d.edges
  rw [hedges, List.map_map, List.map_map]
  exact congrArg (Document.mk d.name · d.edges) (List.map_congr_left fun node _ => hnode node)

/-! ## Writing and reading -/

lemma IsFinite.allFinite {d : Document} (hd : d.IsFinite) :
    (Json.Form.shape Document).AllFinite (Json.Form.toValue d) := by
  unfold Json.Shape.AllFinite
  rw [numbers_document]
  exact hd

/-- A document that is written is read again without an error, with its coordinates reread. -/
lemma ofJson_toJson_eq {d : Document} (hd : d.IsFinite) :
    ofJson d.toJson = .ok (d.mapCoordinates Binary64.reread) := by
  have hsymbols : Symbol.ofText d.toJson = ((Json.toTree d).chars .indented).map .char := by
    rw [toJson, Json.indented, Json.Tree.indented, Symbol.ofText, String.toList_ofList]
  rw [ofJson, Json.read, Json.readSymbols, hsymbols, Json.toTree,
    Json.Shape.read_chars .indented _ _ isUnambiguous hd.allFinite]
  exact congrArg Except.ok (ofValue_mapNumbers _ d)

lemma mapCoordinates_eq_self_iff (f : Binary64 → Binary64) (d : Document) :
    d.mapCoordinates f = d ↔ ∀ x ∈ d.coordinates, f x = x := by
  rw [← ofValue_mapNumbers, ← numbers_document, ← Json.Shape.mapNumbers_eq_self_iff]
  constructor
  · intro h
    rw [← Json.Form.toValue_ofValue ((Json.Form.shape Document).mapNumbers f _), h]
  · intro h
    rw [h, Json.Form.ofValue_toValue]

/-- No text is read as a document with an infinity or NaN among its coordinates. -/
lemma isFinite_of_ofJson {text : String} {d : Document} (h : ofJson text = .ok d) :
    d.IsFinite := by
  unfold ofJson Json.read Json.readSymbols at h
  cases hread : (Json.Form.shape Document).read (Symbol.ofText text) with
  | error e =>
    rw [hread] at h
    cases h
  | ok v =>
    rw [hread] at h
    obtain rfl := Except.ok.inj h
    have hfinite := Json.Shape.allFinite_of_read hread
    unfold IsFinite
    rw [← numbers_document, Json.Form.toValue_ofValue]
    exact hfinite

/-- The document of a graph that edits led to can be written. -/
lemma isFinite_ofGraph (origin : Graph.Origin) (edits : List Edit) (name : String) :
    (ofGraph (origin.graph.applyAll edits) name).IsFinite := by
  intro x hx
  obtain ⟨node, hnode, hx⟩ := List.mem_flatMap.1 hx
  obtain ⟨original, horiginal, rfl⟩ := List.mem_map.1 hnode
  have hposition := origin.isFinite_position edits horiginal
  obtain ⟨hleft, hright⟩ := Bool.and_eq_true_iff.1 hposition
  rcases List.mem_pair.1 hx with rfl | rfl
  · exact hleft
  · exact hright

/-- Storing and reading.  A document comes back with its coordinates reread, so it is the same again
exactly when rereading leaves each of them as it is; few digits are enough for that.  What is read
and what graphs export is always finite, so both can be stored. -/
theorem reread_of_stored (d : Document) :
    (d.IsFinite →
      ofJson d.toJson = .ok (d.mapCoordinates Binary64.reread) ∧
      (ofJson d.toJson = .ok d ↔ ∀ x ∈ d.coordinates, x.reread = x)) ∧
    (∀ x ∈ d.coordinates, x.HasFewDigits → x.reread = x) ∧
    (∀ text : String, ofJson text = .ok d → d.IsFinite) ∧
    ∀ (origin : Graph.Origin) (edits : List Edit) (name : String),
      d = ofGraph (origin.graph.applyAll edits) name → d.IsFinite := by
  refine ⟨?_, ?_, fun text => isFinite_of_ofJson, ?_⟩
  · intro hd
    refine ⟨ofJson_toJson_eq hd, ?_⟩
    rw [ofJson_toJson_eq hd, Except.ok.injEq]
    exact mapCoordinates_eq_self_iff _ d
  · intro x _ hx
    cases x with
    | finite negative m => exact Binary64.reread_eq_self hx.1 hx.2
    | nan => rfl
    | infinity negative => rfl
  · intro origin edits name hd
    rw [hd]
    exact isFinite_ofGraph origin edits name

/-- A document with one node at a whole place. -/
def sample (x : Nat) : Document where
  name := "w"
  nodes := [⟨"1", .click, ⟨.ofNat x, .zero⟩, ⟨"Click Node", none, none, none, none, none, none⟩⟩]
  edges := []

/-- Fifty comes back as it was, and a coordinate of sixteen digits as the next number. -/
theorem reread_of_stored_samples :
    (sample 50).IsFinite ∧ ofJson (sample 50).toJson = .ok (sample 50) ∧
      (sample 7205759403792796).IsFinite ∧
      ofJson (sample 7205759403792796).toJson = .ok (sample 7205759403792797) ∧
      sample 7205759403792797 ≠ sample 7205759403792796 := by
  have hfifty : (sample 50).IsFinite := by
    unfold IsFinite
    decide +kernel
  have hlong : (sample 7205759403792796).IsFinite := by
    unfold IsFinite
    decide +kernel
  have hnext : (sample 7205759403792796).mapCoordinates Binary64.reread =
      sample 7205759403792797 := by
    decide +kernel
  refine ⟨hfifty, ((reread_of_stored _).1 hfifty).2.2 ?_, hlong, ?_, by decide +kernel⟩
  · decide +kernel
  · rw [((reread_of_stored _).1 hlong).1, hnext]

end Document

end WorkflowCanvas
