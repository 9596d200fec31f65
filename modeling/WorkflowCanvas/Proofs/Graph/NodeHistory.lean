import Mathlib.Data.List.Forall2
import Mathlib.Data.List.Nodup
import WorkflowCanvas.Proofs.Graph.EdgeLedger

/-!
# Which nodes a graph has

The edits alone, without any graph, tell which nodes there are in the end.  Every creation in a list
of edits is kept with its number and with the edits behind it (`Creation`); from those one reads
whether its node was removed, where it was last moved to and what was last written into each of its
fields.  Nothing before the creation matters, since nobody can know an id that was not given yet.

`describes_applyAll` says that the nodes of the graph are the creations that were not removed, one
by one and in order.  Together with the ids that were given out (`issuedIds_history`) it makes up
the history of nodes over whole runs, `NodeHistory`.
-/

namespace WorkflowCanvas

namespace Edit

/-- Whether the edit adds a node. -/
def isCreate : Edit → Bool
  | create _ _ => true
  | _ => false

/-- Where the edit moves the node of an id, unless it is refused for its position. -/
def moveTo? (id : String) : Edit → Option Position
  | move other position => if other = id ∧ position.isFinite = true then some position else none
  | _ => none

/-- What the edit writes into a field of the node of an id. -/
def setTo? (id key : String) : Edit → Option String
  | setField other field value => if other = id ∧ field = key then some value else none
  | _ => none

end Edit

/-- The creation of a node among edits. -/
structure Creation where
  /-- Its number among all creations, from one. -/
  number : Nat
  kind : Kind
  position : Position
  /-- The edits behind it. -/
  later : List Edit

namespace Creation

/-- The creations among edits, in their order, when `count` nodes were created before. -/
def list : Nat → List Edit → List Creation
  | _, [] => []
  | count, .create kind position :: later =>
    ⟨count + 1, kind, position, later⟩ :: list (count + 1) later
  | count, _ :: later => list count later

/-- The id of the node, the numeral of its number. -/
def id (c : Creation) : String := toString c.number

/-- Whether the node was removed. -/
def removed (c : Creation) : Bool := c.later.any (· = .remove c.id)

/-- Where the node was last moved to. -/
def lastMove? (c : Creation) : Option Position := (c.later.filterMap (Edit.moveTo? c.id)).getLast?

/-- What was last written into a field of the node. -/
def lastValue? (c : Creation) (key : String) : Option String :=
  (c.later.filterMap (Edit.setTo? c.id key)).getLast?

/-- What the edits say of a node that was not removed. -/
structure Describes (c : Creation) (node : Node) : Prop where
  id_eq : node.id = c.id
  kind_eq : node.kind = c.kind
  label_eq : node.label = c.kind.label
  position_eq : node.position = c.lastMove?.getD c.position.orOrigin
  fields_eq : ∀ key, node.fields.get? key = c.lastValue? key

/-! ## One more edit -/

/-- The creation with one more edit behind it. -/
def extend (edit : Edit) (c : Creation) : Creation := { c with later := c.later ++ [edit] }

/-- The creation an edit is, when `count` nodes were created before. -/
def ofEdit (count : Nat) : Edit → List Creation
  | .create kind position => [⟨count + 1, kind, position, []⟩]
  | _ => []

lemma list_concat (count : Nat) (edits : List Edit) (edit : Edit) :
    list count (edits ++ [edit]) =
      (list count edits).map (extend edit) ++ ofEdit (count + edits.countP Edit.isCreate) edit := by
  induction edits generalizing count with
  | nil => cases edit <;> rfl
  | cons first edits ih =>
    cases first with
    | create kind position =>
      rw [List.cons_append, list, list, ih, List.countP_cons_of_pos rfl, List.map_cons,
        List.cons_append]
      have hcount : count + 1 + edits.countP Edit.isCreate =
          count + (edits.countP Edit.isCreate + 1) := by omega
      rw [hcount]
      rfl
    | connect source target => exact ih count
    | setField id key value => exact ih count
    | move id position => exact ih count
    | remove id => exact ih count
    | removeEdge index => exact ih count

@[simp] lemma id_extend (edit : Edit) (c : Creation) : (c.extend edit).id = c.id := rfl

@[simp] lemma later_extend (edit : Edit) (c : Creation) :
    (c.extend edit).later = c.later ++ [edit] :=
  rfl

lemma removed_extend (edit : Edit) (c : Creation) :
    (c.extend edit).removed = (c.removed || decide (edit = .remove c.id)) := by
  rw [removed, removed, later_extend, id_extend, List.any_append, List.any_cons, List.any_nil,
    Bool.or_false]

/-- The last one of the values read off edits, when there is one more edit. -/
lemma getLast?_filterMap_concat {α : Type} (read : Edit → Option α) (edits : List Edit)
    (edit : Edit) :
    ((edits ++ [edit]).filterMap read).getLast? =
      (read edit).or (edits.filterMap read).getLast? := by
  rw [List.filterMap_append]
  cases hread : read edit <;> simp [hread]

lemma lastMove?_extend (edit : Edit) (c : Creation) :
    (c.extend edit).lastMove? = (edit.moveTo? c.id).or c.lastMove? :=
  getLast?_filterMap_concat _ c.later edit

lemma lastValue?_extend (edit : Edit) (c : Creation) (key : String) :
    (c.extend edit).lastValue? key = (edit.setTo? c.id key).or (c.lastValue? key) :=
  getLast?_filterMap_concat _ c.later edit

end Creation

/-! ## One more edit of the graph -/

namespace Node

/-- A node behind an edit that does not remove it. -/
def after (node : Node) : Edit → Node
  | .setField id key value =>
    if node.id = id then { node with fields := node.fields.insert key value } else node
  | .move id position =>
    if position.isFinite = true ∧ node.id = id then { node with position } else node
  | _ => node

/-- An edit leaves what a node is, and moves it or writes into it as it says. -/
lemma after_eq (node : Node) (edit : Edit) :
    (node.after edit).id = node.id ∧ (node.after edit).kind = node.kind ∧
      (node.after edit).label = node.label ∧
      (node.after edit).position = (edit.moveTo? node.id).getD node.position ∧
      ∀ key, (node.after edit).fields.get? key =
        (edit.setTo? node.id key).or (node.fields.get? key) := by
  cases edit with
  | setField id key value =>
    by_cases hnode : node.id = id
    · have hset : node.after (.setField id key value) =
          { node with fields := node.fields.insert key value } := if_pos hnode
      rw [hset]
      refine ⟨rfl, rfl, rfl, rfl, fun k => ?_⟩
      rw [Table.get?_insert]
      by_cases hkey : k = key
      · simp [Edit.setTo?, hnode, hkey]
      · simp [Edit.setTo?, hkey, Ne.symm hkey]
    · have hsame : node.after (.setField id key value) = node := if_neg hnode
      rw [hsame]
      refine ⟨rfl, rfl, rfl, rfl, fun k => ?_⟩
      simp [Edit.setTo?, Ne.symm hnode]
  | move id position =>
    by_cases hmoved : position.isFinite = true ∧ node.id = id
    · have hmove : node.after (.move id position) = { node with position } := if_pos hmoved
      rw [hmove]
      refine ⟨rfl, rfl, rfl, ?_, fun k => rfl⟩
      simp [Edit.moveTo?, hmoved]
    · have hsame : node.after (.move id position) = node := if_neg hmoved
      have hnone : (Edit.move id position).moveTo? node.id = none :=
        if_neg fun hboth => hmoved ⟨hboth.2, hboth.1.symm⟩
      rw [hsame, hnone]
      exact ⟨rfl, rfl, rfl, rfl, fun k => rfl⟩
  | create kind position => exact ⟨rfl, rfl, rfl, rfl, fun k => rfl⟩
  | connect source target => exact ⟨rfl, rfl, rfl, rfl, fun k => rfl⟩
  | remove id => exact ⟨rfl, rfl, rfl, rfl, fun k => rfl⟩
  | removeEdge index => exact ⟨rfl, rfl, rfl, rfl, fun k => rfl⟩

end Node

namespace Graph

/-- The node an edit adds. -/
def added (g : Graph) : Edit → List Node
  | .create kind position => [.fresh g.nextId kind position.orOrigin]
  | _ => []

/-- On a sound graph an edit treats the nodes one by one. -/
lemma Sound.nodes_apply_eq {g : Graph} (hg : g.Sound) (edit : Edit) :
    (g.apply edit).2.nodes =
      (g.nodes.map (·.after edit)).filter (fun node => !decide (edit = .remove node.id)) ++
        g.added edit := by
  have hsame : ∀ nodes : List Node, nodes.map (fun node => node) = nodes := List.map_id
  rw [nodes_apply]
  cases edit with
  | create kind position => simp [Node.after, added]
  | connect source target => simp [Node.after, added]
  | removeEdge index => simp [Node.after, added]
  | setField id key value =>
    dsimp only
    rw [changeNode_eq_map hg.ids_nodup]
    simp [Node.after, added]
  | move id position =>
    dsimp only
    split
    · rename_i hfinite
      rw [changeNode_eq_map hg.ids_nodup]
      simp [Node.after, added, hfinite]
    · rename_i hfinite
      simp [Node.after, added, hfinite]
  | remove id =>
    dsimp only
    rw [eraseP_eq_filter hg.ids_nodup]
    simp [Node.after, added, eq_comm]

end Graph

namespace Creation

/-- A node that the edits describe is described by them and one more when that edit is performed on
it. -/
lemma Describes.after {c : Creation} {node : Node} (h : c.Describes node) (edit : Edit) :
    (c.extend edit).Describes (node.after edit) := by
  obtain ⟨hid, hkind, hlabel, hposition, hfields⟩ := node.after_eq edit
  refine ⟨hid.trans h.id_eq, hkind.trans h.kind_eq, hlabel.trans h.label_eq, ?_, fun key => ?_⟩
  · rw [hposition, lastMove?_extend, h.position_eq, h.id_eq, Option.getD_or]
    rfl
  · rw [hfields, lastValue?_extend, h.fields_eq, h.id_eq]

/-- A node that was just created. -/
lemma describes_fresh (g : Graph) (edit : Edit) :
    List.Forall₂ Describes (ofEdit g.created edit) (g.added edit) := by
  cases edit with
  | create kind position => exact .cons ⟨rfl, rfl, rfl, rfl, fun key => rfl⟩ .nil
  | connect source target => exact .nil
  | setField id key value => exact .nil
  | move id position => exact .nil
  | remove id => exact .nil
  | removeEdge index => exact .nil

/-- Only finite positions reach a node, at its creation and when it is moved. -/
lemma Describes.isFinite_position {c : Creation} {node : Node} (h : c.Describes node) :
    node.position.isFinite = true := by
  rw [h.position_eq]
  cases hmove : c.lastMove? with
  | none => exact Position.isFinite_orOrigin _
  | some position =>
    obtain ⟨edit, _, hedit⟩ := List.mem_filterMap.1 (List.mem_of_getLast? hmove)
    cases edit with
    | move id moved =>
      rw [Edit.moveTo?, Option.ite_none_right_eq_some] at hedit
      obtain ⟨⟨_, hfinite⟩, hmoved⟩ := hedit
      rw [Option.some_inj.1 hmoved] at hfinite
      exact hfinite
    | _ => cases hedit

/-- The creations that are left behind one more edit. -/
lemma filter_removed_concat (edits : List Edit) (edit : Edit) :
    (list 0 (edits ++ [edit])).filter (!·.removed) =
      (((list 0 edits).filter (!·.removed)).map (extend edit)).filter
          (fun c => !decide (edit = .remove c.id)) ++
        ofEdit (edits.countP Edit.isCreate) edit := by
  have hnew : ∀ count, (ofEdit count edit).filter (!·.removed) = ofEdit count edit := by
    intro count
    cases edit <;> rfl
  rw [list_concat, List.filter_append, hnew, Nat.zero_add, List.filter_map, List.filter_map,
    List.filter_filter]
  congr 2
  refine List.filter_congr fun c _ => ?_
  show (!(c.extend edit).removed) = (!decide (edit = .remove c.id) && !c.removed)
  rw [removed_extend, Bool.not_or, Bool.and_comm]

end Creation

namespace Graph

/-! ## The nodes of a run -/

lemma created_applyAll (edits : List Edit) :
    (empty.applyAll edits).created = edits.countP Edit.isCreate := by
  induction edits using List.reverseRecOn with
  | nil => rfl
  | append_singleton edits edit ih =>
    rw [applyAll_concat, created_apply, ih, List.countP_append]
    cases edit <;> rfl

/-- The nodes of a run are the creations that were not removed, in their order. -/
theorem describes_applyAll (edits : List Edit) :
    List.Forall₂ Creation.Describes ((Creation.list 0 edits).filter (!·.removed))
      (empty.applyAll edits).nodes := by
  induction edits using List.reverseRecOn with
  | nil => exact .nil
  | append_singleton edits edit ih =>
    have hsound : (empty.applyAll edits).Sound := sound_empty.applyAll edits
    rw [applyAll_concat, hsound.nodes_apply_eq, Creation.filter_removed_concat]
    refine List.rel_append (List.rel_filter ?_ ?_) ?_
    · intro c node h
      show (!decide (edit = .remove c.id)) = true ↔ (!decide (edit = .remove node.id)) = true
      rw [h.id_eq]
    · rw [List.forall₂_map_left_iff, List.forall₂_map_right_iff]
      exact ih.imp fun c node h => h.after edit
    · rw [← created_applyAll]
      exact Creation.describes_fresh _ edit

end Graph

/-- The id that an answer gives out. -/
def Edit.Outcome.issued? : Edit.Outcome → Option String
  | created node => some node.id
  | _ => none

/-- The ids that were given out, in their order. -/
def History.issuedIds (h : History) : List String := h.filterMap fun entry => entry.2.issued?

lemma History.issuedIds_cons (entry : Edit × Edit.Outcome) (h : History) :
    issuedIds (entry :: h) = entry.2.issued?.toList ++ h.issuedIds := by
  rw [issuedIds, List.filterMap_cons]
  cases entry.2.issued? <;> rfl

namespace Graph

/-! ## The ids of a run -/

lemma issued?_apply (g : Graph) (edit : Edit) :
    (g.apply edit).1.issued? = if edit.isCreate then some g.nextId else none := by
  cases edit with
  | create kind position => rfl
  | connect source target =>
    simp only [apply, connect]
    cases g.contains source <;> cases g.contains target <;> rfl
  | setField id key value => rfl
  | move id position =>
    simp only [apply, move]
    cases position.isFinite <;> cases g.contains id <;> rfl
  | remove id =>
    simp only [apply, remove]
    cases g.node? id <;> rfl
  | removeEdge index =>
    simp only [apply, removeEdge]
    cases g.edges[index]? <;> rfl

lemma created_apply_eq (g : Graph) (edit : Edit) :
    (g.apply edit).2.created = if edit.isCreate then g.created + 1 else g.created := by
  rw [created_apply]
  cases edit <;> rfl

/-- The ids that a run gives out are the numerals behind the count it starts with. -/
theorem issuedIds_history (g : Graph) (edits : List Edit) :
    (g.history edits).issuedIds =
      (List.range' (g.created + 1) (edits.countP Edit.isCreate)).map toString := by
  induction edits generalizing g with
  | nil => rfl
  | cons edit edits ih =>
    rw [history, History.issuedIds_cons, issued?_apply, ih, created_apply_eq]
    by_cases hcreate : edit.isCreate = true
    · rw [if_pos hcreate, if_pos hcreate, List.countP_cons_of_pos hcreate, List.range'_succ,
        List.map_cons]
      rfl
    · rw [if_neg hcreate, if_neg hcreate, List.countP_cons_of_neg hcreate]
      rfl

lemma nodup_map_toString_range' (first count : Nat) :
    ((List.range' first count).map (toString : Nat → String)).Nodup :=
  List.Nodup.map (fun _ _ h => toString_injective h) (List.nodup_range' ..)

lemma Origin.created_graph (origin : Origin) :
    origin.graph.created = origin.past.countP Edit.isCreate := by
  cases origin <;> rfl

/-! ## Histories -/

/-- What the nodes of a graph have to do with the edits that led to it.  The nodes that were there
at the beginning count as created by `origin.past`. -/
structure NodeHistory (origin : Origin) (edits : List Edit) : Prop where
  /-- The `n`-th creation gives out the numeral of `n`. -/
  issued : (origin.graph.history edits).issuedIds =
    (List.range' (origin.past.countP Edit.isCreate + 1) (edits.countP Edit.isCreate)).map toString
  issued_once : ((empty.history origin.past).issuedIds ++
    (origin.graph.history edits).issuedIds).Nodup
  /-- The nodes are the created ones that were not removed, in the order of their creation. -/
  nodes : List.Forall₂ Creation.Describes
    ((Creation.list 0 (origin.past ++ edits)).filter (!·.removed))
    (origin.graph.applyAll edits).nodes
  finite : ∀ node ∈ (origin.graph.applyAll edits).nodes, node.position.isFinite = true

lemma issuedIds_past_append (origin : Origin) (edits : List Edit) :
    (empty.history origin.past).issuedIds ++ (origin.graph.history edits).issuedIds =
      (List.range' 1 (origin.past.countP Edit.isCreate + edits.countP Edit.isCreate)).map
        toString := by
  rw [issuedIds_history, issuedIds_history, origin.created_graph, ← List.map_append,
    Nat.add_comm (origin.past.countP Edit.isCreate) 1]
  exact congrArg _ List.range'_append_1

lemma Origin.isFinite_position (origin : Origin) (edits : List Edit) {node : Node}
    (hnode : node ∈ (origin.graph.applyAll edits).nodes) : node.position.isFinite = true := by
  rw [origin.applyAll_graph] at hnode
  have hdescribed := describes_applyAll (origin.past ++ edits)
  obtain ⟨i, hi, rfl⟩ := List.getElem_of_mem hnode
  have hc := hdescribed.get (by rw [hdescribed.length_eq]; exact hi) hi
  exact hc.isFinite_position

end Graph

end WorkflowCanvas
