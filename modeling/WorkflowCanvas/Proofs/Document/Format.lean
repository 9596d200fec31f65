import WorkflowCanvas.Proofs.Document.Storage
import WorkflowCanvas.Proofs.Json.Meaning

/-!
# The format of a stored document

`Document.datum` is the format as it is agreed with the execution service: which members each object
has, in which order and under which keys.  It is stated with the names of the catalog, and nothing
of it with the shapes that the writer goes by.

`Document.wireFormat` says that the text of a document with finite coordinates has this format for
every reader that follows the JSON grammar, that its coordinates are rounded to themselves and that
there is no `null` and no repeated key in it.
-/

namespace WorkflowCanvas

namespace Json.Datum

/-- The value is the other one or stands somewhere inside it. -/
inductive Within (e : Datum) : Datum → Prop
  | self : Within e e
  | item {d : Datum} {items : List Datum} (mem : d ∈ items) (inside : Within e d) :
    Within e (.list items)
  | member {m : String × Datum} {members : List (String × Datum)} (mem : m ∈ members)
    (inside : Within e m.2) : Within e (.object members)

variable {P : Datum → Prop}

lemma forall_within_number {numeral : Numeral} (h : P (.number numeral)) :
    ∀ e, Within e (.number numeral) → P e := by
  intro e he
  cases he
  exact h

lemma forall_within_text {value : String} (h : P (.text value)) :
    ∀ e, Within e (.text value) → P e := by
  intro e he
  cases he
  exact h

lemma forall_within_list {items : List Datum} (h : P (.list items))
    (inside : ∀ d ∈ items, ∀ e, Within e d → P e) : ∀ e, Within e (.list items) → P e := by
  intro e he
  cases he with
  | self => exact h
  | item mem he => exact inside _ mem e he

lemma forall_within_object {members : List (String × Datum)} (h : P (.object members))
    (inside : ∀ m ∈ members, ∀ e, Within e m.2 → P e) : ∀ e, Within e (.object members) → P e := by
  intro e he
  cases he with
  | self => exact h
  | member mem he => exact inside _ mem e he

/-- The value is not `null`, and if it is an object its keys differ. -/
def Tidy : Datum → Prop
  | .null => False
  | .object members => (members.map (·.1)).Nodup
  | _ => True

end Json.Datum

open Json (Datum)

/-! ## The format -/

/-- The label of a node and its fields that are set, in the order of the catalog. -/
def NodeData.members (data : NodeData) : List (String × Datum) :=
  ("label", .text data.label) :: Field.all.filterMap fun field =>
    (data.get field).map fun value => (field.wire, .text value)

/-- A node of a document. -/
def DocumentNode.datum (node : DocumentNode) : Datum :=
  .object [("id", .text node.id), ("type", .text node.kind.wire),
    ("position", .object [("x", .number node.position.x.numeral),
      ("y", .number node.position.y.numeral)]),
    ("data", .object node.data.members)]

/-- An edge of a document. -/
def Edge.datum (e : Edge) : Datum :=
  .object [("source", .text e.source), ("target", .text e.target)]

/-- A document. -/
def Document.datum (d : Document) : Datum :=
  .object [("name", .text d.name), ("nodes", .list (d.nodes.map DocumentNode.datum)),
    ("edges", .list (d.edges.map Edge.datum))]

/-- What the members of a node's data are: the label is the first, the fields that are set follow
under their names and no field that is not. -/
structure NodeData.Lists (data : NodeData) (members : List (String × Datum)) : Prop where
  keys : members.map (·.1) =
    "label" :: (Field.all.filter fun field => (data.get field).isSome).map Field.wire
  label : members.head? = some ("label", .text data.label)
  mem_iff : ∀ (field : Field) (value : Datum), (field.wire, value) ∈ members ↔
    ∃ text, data.get field = some text ∧ value = .text text

/-- The text of the document is in the format. -/
structure Document.WireFormat (d : Document) : Prop where
  /-- By the grammar the text says the document and nothing else. -/
  meaning : ∀ said, Json.Grammar.Element d.toJson.toList said ↔ said = d.datum
  read : ∀ read, Json.Grammar.Follows read → read d.toJson.toList = some d.datum
  /-- What stands for a coordinate is rounded to it and to no other number. -/
  coordinate : ∀ x ∈ d.coordinates, ∀ y, x.numeral.Nearest y ↔ y = x
  data : ∀ node ∈ d.nodes, node.data.Lists node.data.members
  keys : ∀ members, Datum.Within (.object members) d.datum → (members.map (·.1)).Nodup
  null : ¬Datum.Within .null d.datum

/-! ## The members of a node's data -/

lemma Field.wire_injective : Function.Injective Field.wire := by
  intro field field' h
  have hname := Field.ofName?_wire field
  rw [h, Field.ofName?_wire] at hname
  exact (Option.some.inj hname).symm

lemma Field.wire_ne_label (field : Field) : field.wire ≠ "label" := by
  cases field <;> decide

lemma Field.nodup_all : Field.all.Nodup := by
  decide

namespace NodeData

variable (data : NodeData)

lemma keys_fields (fields : List Field) :
    (fields.filterMap fun field =>
      (data.get field).map fun value => (field.wire, Datum.text value)).map (·.1) =
        (fields.filter fun field => (data.get field).isSome).map Field.wire := by
  induction fields with
  | nil => rfl
  | cons field fields ih =>
    cases hvalue : data.get field with
    | none =>
      rw [List.filterMap_cons_none (by rw [hvalue]; rfl), ih,
        List.filter_cons_of_neg (by rw [hvalue]; decide)]
    | some value =>
      rw [List.filterMap_cons_some (by rw [hvalue]; rfl), List.map_cons, ih,
        List.filter_cons_of_pos (by rw [hvalue]; rfl), List.map_cons]

lemma keys_members : data.members.map (·.1) =
    "label" :: (Field.all.filter fun field => (data.get field).isSome).map Field.wire := by
  rw [members, List.map_cons, keys_fields]

lemma nodup_members : (data.members.map (·.1)).Nodup := by
  rw [keys_members, List.nodup_cons]
  constructor
  · intro hlabel
    obtain ⟨field, -, hfield⟩ := List.mem_map.1 hlabel
    exact field.wire_ne_label hfield
  · exact (Field.nodup_all.filter _).map Field.wire_injective

lemma lists_members : data.Lists data.members where
  keys := data.keys_members
  label := rfl
  mem_iff field value := by
    rw [members, List.mem_cons, List.mem_filterMap]
    constructor
    · rintro (hlabel | ⟨field', -, hmember⟩)
      · exact absurd (Prod.mk.inj hlabel).1 field.wire_ne_label
      · obtain ⟨text, htext, heq⟩ := Option.map_eq_some_iff.1 hmember
        obtain ⟨hwire, rfl⟩ := Prod.mk.inj heq
        obtain rfl := Field.wire_injective hwire
        exact ⟨text, htext, rfl⟩
    · rintro ⟨text, htext, rfl⟩
      refine .inr ⟨field, by cases field <;> decide, ?_⟩
      rw [htext]
      rfl

/-- A field of the data is a member of the written record, or is left out. -/
lemma toMembers_omittable (key : String) (value : Option String) (fields : Json.Fields)
    (rest : Json.Fields.Values fields) :
    Json.Fields.toMembers ((key, .omittable, .maybe .text) :: fields) (value, rest) =
      (value.map fun text => (key, Json.Tree.text text)).toList ++
        Json.Fields.toMembers fields rest := by
  cases value <;> rfl

lemma toTree_eq : Json.toTree data = .object (("label", .text data.label) ::
    Field.all.filterMap fun field =>
      (data.get field).map fun value => (field.wire, .text value)) := by
  have hmembers : Json.toTree data = .object (("label", .text data.label) ::
      Json.Fields.toMembers [("url", .omittable, .maybe .text),
        ("selector", .omittable, .maybe .text), ("inputText", .omittable, .maybe .text),
        ("attribute", .omittable, .maybe .text), ("variableName", .omittable, .maybe .text),
        ("filename", .omittable, .maybe .text)] (data.url, data.selector, data.inputText,
          data.attributeName, data.variableName, data.filename, ())) := rfl
  rw [hmembers, List.filterMap_eq_flatMap_toList]
  rw [toMembers_omittable, toMembers_omittable, toMembers_omittable, toMembers_omittable,
    toMembers_omittable, toMembers_omittable]
  rfl

end NodeData

/-! ## What is written -/

lemma datum_data (data : NodeData) : (Json.toTree data).datum = .object data.members := by
  rw [data.toTree_eq, Json.Tree.datum, List.map_cons, Json.Tree.datum, List.map_filterMap,
    NodeData.members]
  have htext : ∀ text : String, (Json.Tree.text text).datum = .text text := fun text => by
    rw [Json.Tree.datum]
  simp only [Option.map_map, Function.comp_def, htext]

lemma datum_kind (kind : Kind) : (Json.toTree kind).datum = .text kind.wire := by
  have hword : Json.toTree kind = .text kind.wire := by
    cases kind <;> rfl
  rw [hword, Json.Tree.datum]

lemma datum_node (node : DocumentNode) : (Json.toTree node).datum = node.datum := by
  have hmembers : Json.toTree node = .object [("id", .text node.id),
      ("type", Json.toTree node.kind), ("position", .object [
        ("x", .number (.real node.position.x)), ("y", .number (.real node.position.y))]),
      ("data", Json.toTree node.data)] := rfl
  rw [hmembers]
  simp only [Json.Tree.datum, List.map_cons, List.map_nil, datum_kind, datum_data,
    Json.Number.numeral, DocumentNode.datum]

lemma datum_edge (e : Edge) : (Json.toTree e).datum = e.datum := by
  have hmembers : Json.toTree e = .object [("source", .text e.source),
      ("target", .text e.target)] := rfl
  rw [hmembers]
  simp only [Json.Tree.datum, List.map_cons, List.map_nil, Edge.datum]

lemma datum_document (d : Document) : (Json.toTree d).datum = d.datum := by
  have hmembers : Json.toTree d = .object [("name", .text d.name),
      ("nodes", .list ((d.nodes.map Json.Form.toValue).map (Json.Form.shape DocumentNode).toTree)),
      ("edges", .list ((d.edges.map Json.Form.toValue).map (Json.Form.shape Edge).toTree))] := rfl
  have hnodes : ∀ node : DocumentNode, ((Json.Form.shape DocumentNode).toTree
      (Json.Form.toValue node)).datum = node.datum := datum_node
  have hedges : ∀ e : Edge, ((Json.Form.shape Edge).toTree (Json.Form.toValue e)).datum =
      e.datum := datum_edge
  rw [hmembers]
  simp only [Json.Tree.datum, List.map_cons, List.map_nil, List.map_map, Function.comp_def,
    hnodes, hedges, Document.datum]

/-! ## Neither `null` nor repeated keys -/

lemma tidy_data (data : NodeData) : ∀ e, Datum.Within e (.object data.members) → e.Tidy := by
  refine Datum.forall_within_object data.nodup_members fun m hm => ?_
  have htext : ∃ text, m.2 = .text text := by
    rcases List.mem_cons.1 hm with rfl | hm
    · exact ⟨_, rfl⟩
    · obtain ⟨field, -, hfield⟩ := List.mem_filterMap.1 hm
      obtain ⟨text, -, rfl⟩ := Option.map_eq_some_iff.1 hfield
      exact ⟨text, rfl⟩
  obtain ⟨text, htext⟩ := htext
  rw [htext]
  exact Datum.forall_within_text trivial

lemma tidy_node (node : DocumentNode) : ∀ e, Datum.Within e node.datum → e.Tidy := by
  have hposition : ∀ e, Datum.Within e (.object [("x", .number node.position.x.numeral),
      ("y", .number node.position.y.numeral)]) → e.Tidy := by
    refine Datum.forall_within_object (by decide : ["x", "y"].Nodup) ?_
    simp only [List.forall_mem_cons]
    exact ⟨Datum.forall_within_number trivial, Datum.forall_within_number trivial,
      List.forall_mem_nil _⟩
  refine Datum.forall_within_object (by decide : ["id", "type", "position", "data"].Nodup) ?_
  simp only [List.forall_mem_cons]
  exact ⟨Datum.forall_within_text trivial, Datum.forall_within_text trivial, hposition,
    tidy_data node.data, List.forall_mem_nil _⟩

lemma tidy_edge (e : Edge) : ∀ inner, Datum.Within inner e.datum → inner.Tidy := by
  refine Datum.forall_within_object (by decide : ["source", "target"].Nodup) ?_
  simp only [List.forall_mem_cons]
  exact ⟨Datum.forall_within_text trivial, Datum.forall_within_text trivial,
    List.forall_mem_nil _⟩

lemma tidy_document (d : Document) : ∀ e, Datum.Within e d.datum → e.Tidy := by
  have hnodes : ∀ e, Datum.Within e (.list (d.nodes.map DocumentNode.datum)) → e.Tidy :=
    Datum.forall_within_list trivial (List.forall_mem_map.2 fun node _ => tidy_node node)
  have hedges : ∀ e, Datum.Within e (.list (d.edges.map Edge.datum)) → e.Tidy :=
    Datum.forall_within_list trivial (List.forall_mem_map.2 fun e _ => tidy_edge e)
  refine Datum.forall_within_object (by decide : ["name", "nodes", "edges"].Nodup) ?_
  simp only [List.forall_mem_cons]
  exact ⟨Datum.forall_within_text trivial, hnodes, hedges, List.forall_mem_nil _⟩

/-! ## The text of a document -/

namespace Document

lemma toList_toJson (d : Document) : d.toJson.toList = (Json.toTree d).chars .indented := by
  rw [toJson, Json.indented, Json.Tree.indented, String.toList_ofList]

/-- By the grammar the text of a document says the document. -/
lemma element_toJson {d : Document} (hd : d.IsFinite) (said : Datum) :
    Json.Grammar.Element d.toJson.toList said ↔ said = d.datum := by
  have hfinite : (Json.toTree d).IsFinite := Json.Shape.isFinite_toTree _ _ hd.allFinite
  rw [toList_toJson, Json.Tree.element_chars hfinite, datum_document]

/-- Every document has a text that says one thing, also one whose coordinates are not finite. -/
lemma existsUnique_element_toJson (d : Document) :
    ∃! said, Json.Grammar.Element d.toJson.toList said := by
  rw [toList_toJson]
  simp only [Json.Tree.element_said, existsUnique_eq]

/-- The text of a document with finite coordinates has the agreed format. -/
theorem wireFormat {d : Document} (hd : d.IsFinite) : d.WireFormat where
  meaning := element_toJson hd
  read _ hread := hread _ _ ((element_toJson hd d.datum).2 rfl)
  coordinate x hx := Binary64.nearest_numeral (hd x hx)
  data node _ := node.data.lists_members
  keys _ hmembers := tidy_document d _ hmembers
  null hnull := tidy_document d _ hnull

/-- A document with a quote and a line break in its name, a field that is set to nothing and an
edge. -/
def escaped : Document where
  name := "a \"b\"\n"
  nodes := [⟨"1", .parse, ⟨.ofNat 50, (Binary64.ofNat 3).neg⟩,
    ⟨"Parse Node", none, some "", none, some "href", none, none⟩⟩]
  edges := [⟨"1", "1"⟩]

theorem wireFormat_escaped : escaped.IsFinite ∧ escaped.WireFormat := by
  have hfinite : escaped.IsFinite := by
    unfold IsFinite
    decide +kernel
  exact ⟨hfinite, wireFormat hfinite⟩

end Document

end WorkflowCanvas
