import WorkflowCanvas.Proofs.Graph.NodeHistory

/-!
# Nodes that come and go

A node that was just created is at the end of the node list, and no edge knows of it.  While nothing
but this node is written to, moved or connected, the graph stays what it was with the node at its end
and with further edges that all touch it (`Grown`).  So removing the node brings back the graph there
was before, nodes and edges in their order, and only its id is spent (`undoneByRemoval`).
-/

namespace WorkflowCanvas

/-- Whether an edit writes to the node of an id, moves it or connects it. -/
def Edit.worksOn (id : String) : Edit → Bool
  | setField other _ _ | move other _ => other == id
  | connect source target => source == id || target == id
  | _ => false

namespace Graph

/-- The graph `h` is the graph `g` with the node that has the next id of `g`, and with edges of that
node. -/
structure Grown (g h : Graph) : Prop where
  nodes : ∃ node, node.id = g.nextId ∧ h.nodes = g.nodes ++ [node]
  edges : h.edges.filter (!·.touches g.nextId) = g.edges
  created : h.created = g.created + 1

/-- A new node is behind the others, and no edge touches it. -/
lemma Sound.grown_create {g : Graph} (hg : g.Sound) (kind : Kind) (position : Position) :
    g.Grown (g.create kind position).2 where
  nodes := ⟨_, rfl, rfl⟩
  edges := List.filter_eq_self.2 fun edge hedge => by
    simp [hg.not_touches_of_not_mem hg.nextId_not_mem edge hedge]
  created := rfl

/-- A change of the node at the end leaves the nodes before it. -/
lemma changeNode_append {id : String} {change : Node → Node} {nodes : List Node} {node : Node}
    (habsent : id ∉ nodes.map Node.id) (hid : node.id = id) :
    changeNode id change (nodes ++ [node]) = nodes ++ [change node] := by
  induction nodes with
  | nil => simp [changeNode, hid]
  | cons first nodes ih =>
    simp only [List.map_cons, List.mem_cons, not_or] at habsent
    have hne : ¬(first.id == id) = true := by simpa using Ne.symm habsent.1
    rw [List.cons_append, changeNode, if_neg hne, ih habsent.2, List.cons_append]

namespace Grown

variable {g h : Graph}

lemma mem_ids (hgrown : g.Grown h) : g.nextId ∈ h.nodes.map Node.id := by
  obtain ⟨node, hid, hnodes⟩ := hgrown.nodes
  simp [hnodes, hid]

/-- Work on the node keeps it where it is, and other nodes as they are. -/
lemma nodes_apply (hg : g.Sound) (hgrown : g.Grown h) {edit : Edit}
    (works : edit.worksOn g.nextId = true) :
    ∃ node, node.id = g.nextId ∧ (h.apply edit).2.nodes = g.nodes ++ [node] := by
  obtain ⟨node, hid, hnodes⟩ := hgrown.nodes
  rw [Graph.nodes_apply, hnodes]
  cases edit with
  | setField other key value =>
    obtain rfl := eq_of_beq works
    refine ⟨{ node with fields := node.fields.insert key value }, hid, ?_⟩
    exact changeNode_append hg.nextId_not_mem hid
  | move other position =>
    obtain rfl := eq_of_beq works
    dsimp only
    split
    · refine ⟨{ node with position }, hid, ?_⟩
      exact changeNode_append hg.nextId_not_mem hid
    · exact ⟨node, hid, rfl⟩
  | connect source target => exact ⟨node, hid, rfl⟩
  | _ => cases works

/-- Work on the node adds no edge but those that touch it. -/
lemma edges_apply (hgrown : g.Grown h) {edit : Edit} (works : edit.worksOn g.nextId = true) :
    (h.apply edit).2.edges.filter (!·.touches g.nextId) = g.edges := by
  rw [Graph.edges_apply]
  cases edit with
  | connect source target =>
    have htouches : Edge.touches ⟨source, target⟩ g.nextId = true := works
    dsimp only
    split
    · rw [List.filter_append, hgrown.edges]
      simp [htouches]
    · exact hgrown.edges
  | setField other key value => exact hgrown.edges
  | move other position => exact hgrown.edges
  | _ => cases works

lemma created_apply (hgrown : g.Grown h) {edit : Edit} (works : edit.worksOn g.nextId = true) :
    (h.apply edit).2.created = g.created + 1 := by
  rw [Graph.created_apply, ← hgrown.created]
  cases edit with
  | create kind position => cases works
  | _ => rfl

/-- Work on the new node, refused or not, leaves the graph grown by it. -/
lemma apply (hg : g.Sound) (hgrown : g.Grown h) {edit : Edit}
    (works : edit.worksOn g.nextId = true) : g.Grown (h.apply edit).2 where
  nodes := hgrown.nodes_apply hg works
  edges := hgrown.edges_apply works
  created := hgrown.created_apply works

lemma applyAll (hg : g.Sound) (hgrown : g.Grown h) {edits : List Edit}
    (works : ∀ edit ∈ edits, edit.worksOn g.nextId = true) : g.Grown (h.applyAll edits) := by
  induction edits generalizing h with
  | nil => exact hgrown
  | cons edit edits ih =>
    obtain ⟨hedit, hedits⟩ := List.forall_mem_cons.1 works
    rw [applyAll_cons]
    exact ih (hgrown.apply hg hedit) hedits

/-- Removing the node takes away all that the graph has grown by. -/
lemma remove (hg : g.Sound) (hgrown : g.Grown h) :
    (h.apply (.remove g.nextId)).2 = { g with created := g.created + 1 } := by
  obtain ⟨node, hid, hnodes⟩ := hgrown.nodes
  have hpresent : h.contains g.nextId = true := contains_iff.2 hgrown.mem_ids
  have hothers : ∀ n ∈ g.nodes, ¬(n.id == g.nextId) = true := by
    intro n hn heq
    exact hg.nextId_not_mem (List.mem_map.2 ⟨n, hn, eq_of_beq heq⟩)
  apply Graph.ext
  · rw [Graph.nodes_apply, hnodes]
    dsimp only
    rw [List.eraseP_append_right _ hothers, List.eraseP_cons_of_pos (by simp [hid]),
      List.append_nil]
  · rw [Graph.edges_apply]
    dsimp only
    rw [if_pos hpresent, hgrown.edges]
  · rw [Graph.created_apply]
    exact hgrown.created

end Grown

lemma id_of_removed {g : Graph} {id : String} {node : Node}
    (h : (g.apply (.remove id)).1 = .removed node) : node.id = id := by
  simp only [apply, remove] at h
  cases hfound : g.node? id with
  | none => simp [hfound, Edit.conclude] at h
  | some found =>
    simp only [hfound, Edit.conclude, Edit.Outcome.removed.injEq] at h
    subst h
    simpa using List.find?_some hfound

/-! ## Ids -/

lemma Origin.created_applyAll (origin : Origin) (edits : List Edit) :
    (origin.graph.applyAll edits).created =
      origin.past.countP Edit.isCreate + edits.countP Edit.isCreate := by
  rw [origin.applyAll_graph, Graph.created_applyAll, List.countP_append]

/-- The next id of a run was never given out in it. -/
lemma Origin.nextId_not_issued (origin : Origin) (edits : List Edit) :
    (origin.graph.applyAll edits).nextId ∉
      (Graph.empty.history origin.past).issuedIds ++ (origin.graph.history edits).issuedIds := by
  rw [issuedIds_past_append, ← origin.created_applyAll]
  intro hissued
  obtain ⟨n, hn, hid⟩ := List.mem_map.1 hissued
  have hbound := (List.mem_range'_1.1 hn).2
  have heq : n = (origin.graph.applyAll edits).created + 1 := toString_injective hid
  omega

/-- Behind a creation the next id is another one. -/
lemma Origin.nextId_ne (origin : Origin) (past later : List Edit) (kind : Kind)
    (position : Position) :
    (origin.graph.applyAll (past ++ .create kind position :: later)).nextId ≠
      (origin.graph.applyAll past).nextId := by
  intro hsame
  have hcount := toString_injective hsame
  rw [origin.created_applyAll, origin.created_applyAll, List.countP_append,
    List.countP_cons_of_pos rfl] at hcount
  omega

/-! ## Undoing a creation -/

/-- What becomes of a node that is removed behind the work on it, `past` being what happened before
its creation. -/
structure Undone (origin : Origin) (past work : List Edit) (id : String) : Prop where
  /-- The node is there to be removed. -/
  removed : ∃ node, node.id = id ∧
    ((origin.graph.applyAll (past ++ work)).apply (.remove id)).1 = .removed node
  /-- All that has changed is the count. -/
  restored : origin.graph.applyAll (past ++ work ++ [.remove id]) =
    { origin.graph.applyAll past with created := (origin.graph.applyAll past).created + 1 }
  /-- Whatever is done from then on, a new node gets neither its id nor any other one that was ever
  given out. -/
  spent : ∀ later kind position node,
    ((origin.graph.applyAll (past ++ work ++ .remove id :: later)).apply
      (.create kind position)).1 = .created node →
    node.id ≠ id ∧ node.id ∉ (empty.history origin.past).issuedIds ++
      (origin.graph.history (past ++ work ++ .remove id :: later)).issuedIds

/-- Removing a node undoes its creation and all work on it. -/
theorem undoneByRemoval (origin : Origin) (past : List Edit) (kind : Kind) (position : Position)
    (edits : List Edit)
    (works : ∀ edit ∈ edits,
      edit.worksOn ((origin.graph.applyAll past).create kind position).1.id = true) :
    Undone origin past (.create kind position :: edits)
      ((origin.graph.applyAll past).create kind position).1.id := by
  have hsound := origin.sound past
  have hgrown : (origin.graph.applyAll past).Grown
      (origin.graph.applyAll (past ++ .create kind position :: edits)) := by
    rw [applyAll_append]
    exact (hsound.grown_create kind position).applyAll hsound works
  refine ⟨?_, ?_, fun later kind' position' node hnode => ?_⟩
  · obtain ⟨node, hnode⟩ := exists_removed_iff.2 (contains_iff.2 hgrown.mem_ids)
    exact ⟨node, id_of_removed hnode, hnode⟩
  · rw [applyAll_concat]
    exact hgrown.remove hsound
  · obtain rfl := Edit.Outcome.created.inj hnode
    refine ⟨?_, origin.nextId_not_issued _⟩
    rw [List.append_assoc, List.cons_append]
    exact origin.nextId_ne past _ kind position

/-- A node that is written to, moved, joined with itself twice, with another node in both directions
and with one that is not there, in a graph that has lost a node before. -/
theorem undoneByRemoval_joined :
    (∀ edit ∈ [.setField "4" "url" "a", .connect "4" "4", .connect "4" "4", .connect "1" "4",
        .connect "4" "2", .connect "4" "3", .move "4" ⟨.nan, .ofNat 0⟩, .move "4" .origin],
      Edit.worksOn "4" edit = true) ∧
      Undone .starter [.connect "1" "2", .remove "3", .connect "2" "2"]
        [.create .parse ⟨.ofNat 7, .ofNat 9⟩, .setField "4" "url" "a", .connect "4" "4",
          .connect "4" "4", .connect "1" "4", .connect "4" "2", .connect "4" "3",
          .move "4" ⟨.nan, .ofNat 0⟩, .move "4" .origin] "4" :=
  ⟨by decide, undoneByRemoval .starter _ .parse _ _ (by decide)⟩

end Graph

end WorkflowCanvas
