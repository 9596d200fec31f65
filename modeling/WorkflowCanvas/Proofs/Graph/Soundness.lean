import Mathlib.Data.List.Basic
import Mathlib.Data.List.Nodup
import Std.Data.String.ToNat
import WorkflowCanvas.Graph.Edit

/-!
# Sound graphs

A graph is sound when its ids are numerals of nodes that were created, no two nodes share one, and
every edge joins nodes that are there.  The empty graph is sound and every edit keeps a graph sound,
so all graphs that edits lead to are (`Sound.applyAll`).

What an edit does is said once, by one equation for each part of a graph (`nodes_apply`,
`edges_apply`, `created_apply`).  On a sound graph the walks along the node list become maps and
filters (`changeNode_eq_map`, `eraseP_eq_filter`), which is the form that histories are compared in.
-/

namespace WorkflowCanvas

-- A graph is its nodes, its edges and its count.
attribute [ext] Graph

namespace Graph

/-! ## What an edit does -/

@[simp] lemma contains_iff {g : Graph} {id : String} :
    g.contains id = true ↔ id ∈ g.nodes.map Node.id := by
  simp [contains]

@[simp] lemma contains_eq_false_iff {g : Graph} {id : String} :
    g.contains id = false ↔ id ∉ g.nodes.map Node.id := by
  rw [← Bool.not_eq_true, contains_iff]

lemma changeNode_eq_self {id : String} {change : Node → Node} {nodes : List Node}
    (h : id ∉ nodes.map Node.id) : changeNode id change nodes = nodes := by
  induction nodes with
  | nil => rfl
  | cons node nodes ih =>
    simp only [List.map_cons, List.mem_cons, not_or] at h
    have hne : ¬(node.id == id) = true := by simpa using Ne.symm h.1
    rw [changeNode, if_neg hne, ih h.2]

/-- No two nodes share an id, so changing the first node of an id changes the only one. -/
lemma changeNode_eq_map {id : String} {change : Node → Node} {nodes : List Node}
    (h : (nodes.map Node.id).Nodup) :
    changeNode id change nodes = nodes.map fun n => if n.id = id then change n else n := by
  induction nodes with
  | nil => rfl
  | cons node nodes ih =>
    rw [List.map_cons, List.nodup_cons] at h
    by_cases hid : node.id = id
    · have hrest : nodes.map (fun n => if n.id = id then change n else n) =
          nodes.map fun n => n := by
        refine List.map_congr_left fun n hn => ?_
        have hne : n.id ≠ id := by
          intro hnid
          exact h.1 (List.mem_map.2 ⟨n, hn, hnid.trans hid.symm⟩)
        rw [if_neg hne]
      simp [changeNode, hid, hrest]
    · simp [changeNode, hid, ih h.2]

lemma map_id_changeNode {id : String} {change : Node → Node} (nodes : List Node)
    (hkeep : ∀ n, (change n).id = n.id) :
    (changeNode id change nodes).map Node.id = nodes.map Node.id := by
  induction nodes with
  | nil => rfl
  | cons node nodes ih =>
    rw [changeNode]
    split
    · rw [List.map_cons, List.map_cons, hkeep]
    · rw [List.map_cons, List.map_cons, ih]

/-- Erasing the first node of an id erases the only one. -/
lemma eraseP_eq_filter {id : String} {nodes : List Node} (h : (nodes.map Node.id).Nodup) :
    nodes.eraseP (·.id == id) = nodes.filter (·.id ≠ id) := by
  induction nodes with
  | nil => rfl
  | cons node nodes ih =>
    rw [List.map_cons, List.nodup_cons] at h
    by_cases hid : node.id = id
    · have hrest : nodes.filter (·.id ≠ id) = nodes := by
        rw [List.filter_eq_self]
        intro n hn
        have hne : n.id ≠ id := by
          intro hnid
          exact h.1 (List.mem_map.2 ⟨n, hn, hnid.trans hid.symm⟩)
        simpa using hne
      rw [List.eraseP_cons_of_pos (by simpa using hid),
        List.filter_cons_of_neg (by simpa using hid), hrest]
    · rw [List.eraseP_cons_of_neg (by simpa using hid),
        List.filter_cons_of_pos (by simpa using hid), ih h.2]

lemma node?_eq_none_iff {g : Graph} {id : String} :
    g.node? id = none ↔ id ∉ g.nodes.map Node.id := by
  simp [node?]

/-- The nodes behind an edit. -/
lemma nodes_apply (g : Graph) (edit : Edit) :
    (g.apply edit).2.nodes = match edit with
      | .create kind position => g.nodes ++ [.fresh g.nextId kind position.orOrigin]
      | .setField id key value =>
        changeNode id (fun n => { n with fields := n.fields.insert key value }) g.nodes
      | .move id position =>
        if position.isFinite then changeNode id (fun n => { n with position }) g.nodes else g.nodes
      | .remove id => g.nodes.eraseP (·.id == id)
      | _ => g.nodes := by
  cases edit with
  | create kind position => rfl
  | connect source target =>
    simp only [apply, connect]
    split
    · rfl
    · split <;> rfl
  | setField id key value => rfl
  | move id position =>
    simp only [apply, move]
    by_cases hp : position.isFinite = true
    · by_cases hid : g.contains id = true
      · simp [hp, hid, Edit.conclude, Except.map]
      · have hid' := contains_eq_false_iff.1 (Bool.eq_false_iff.2 hid)
        simp [hp, hid, Edit.conclude, Except.map, changeNode_eq_self hid']
    · simp [hp, Edit.conclude, Except.map]
  | remove id =>
    simp only [apply, remove]
    cases hid : g.node? id with
    | some node => rfl
    | none =>
      have hnone : ∀ n ∈ g.nodes, ¬(n.id == id) = true := by simpa [node?] using hid
      simp only [Edit.conclude]
      rw [List.eraseP_of_forall_not hnone]
  | removeEdge index =>
    simp only [apply, removeEdge]
    cases g.edges[index]? <;> rfl

/-- The edges behind an edit. -/
lemma edges_apply (g : Graph) (edit : Edit) :
    (g.apply edit).2.edges = match edit with
      | .connect source target =>
        if g.contains source ∧ g.contains target then g.edges ++ [⟨source, target⟩] else g.edges
      | .remove id => if g.contains id then g.edges.filter (!·.touches id) else g.edges
      | .removeEdge index => g.edges.eraseIdx index
      | _ => g.edges := by
  cases edit with
  | create kind position => rfl
  | connect source target =>
    simp only [apply, connect]
    cases g.contains source <;> cases g.contains target <;> rfl
  | setField id key value => rfl
  | move id position =>
    simp only [apply, move]
    split
    · rfl
    · split <;> rfl
  | remove id =>
    simp only [apply, remove]
    cases hid : g.node? id with
    | some node =>
      have hmem : g.contains id = true := by
        rw [contains_iff]
        by_contra hn
        rw [node?_eq_none_iff.2 hn] at hid
        cases hid
      simp [Edit.conclude, hmem]
    | none =>
      have hmem : g.contains id = false := contains_eq_false_iff.2 (node?_eq_none_iff.1 hid)
      simp [Edit.conclude, hmem]
  | removeEdge index =>
    simp only [apply, removeEdge]
    cases hi : g.edges[index]? with
    | some edge => rfl
    | none => rw [List.eraseIdx_of_length_le (by simpa using hi)]

/-- The count behind an edit. -/
lemma created_apply (g : Graph) (edit : Edit) :
    (g.apply edit).2.created = match edit with
      | .create _ _ => g.created + 1
      | _ => g.created := by
  cases edit with
  | create kind position => rfl
  | connect source target =>
    simp only [apply, connect]
    split
    · rfl
    · split <;> rfl
  | setField id key value => rfl
  | move id position =>
    simp only [apply, move]
    split
    · rfl
    · split <;> rfl
  | remove id =>
    simp only [apply, remove]
    cases g.node? id <;> rfl
  | removeEdge index =>
    simp only [apply, removeEdge]
    cases g.edges[index]? <;> rfl

/-! ## When an edit succeeds -/

lemma exists_removed_iff {g : Graph} {id : String} :
    (∃ node, (g.apply (.remove id)).1 = .removed node) ↔ g.contains id := by
  simp only [apply, remove]
  cases hid : g.node? id with
  | some node =>
    have hmem : id ∈ g.nodes.map Node.id := by
      by_contra hn
      rw [node?_eq_none_iff.2 hn] at hid
      cases hid
    simpa [Edit.conclude] using hmem
  | none => simpa [Edit.conclude] using node?_eq_none_iff.1 hid

lemma exists_edgeRemoved_iff {g : Graph} {index : Nat} :
    (∃ edge, (g.apply (.removeEdge index)).1 = .edgeRemoved edge) ↔ index < g.edges.length := by
  simp only [apply, removeEdge]
  cases hi : g.edges[index]? with
  | some edge =>
    have hlt : index < g.edges.length := by
      by_contra hge
      rw [List.getElem?_eq_none (by omega)] at hi
      cases hi
    simpa using hlt
  | none => simpa using hi

/-! ## The invariant -/

/-- What every graph of a user keeps. -/
structure Sound (g : Graph) : Prop where
  ids_nodup : (g.nodes.map Node.id).Nodup
  /-- The ids are numerals of nodes that were created, so the next one is fresh. -/
  issued : ∀ node ∈ g.nodes, ∃ n, n ≤ g.created ∧ node.id = toString n
  joined : ∀ edge ∈ g.edges, g.contains edge.source ∧ g.contains edge.target

lemma sound_empty : empty.Sound :=
  ⟨.nil, fun _ h => absurd h List.not_mem_nil, fun _ h => absurd h List.not_mem_nil⟩

lemma toString_injective {m n : Nat} (h : toString m = toString n) : m = n := Nat.repr_injective h

lemma Sound.nextId_not_mem {g : Graph} (hg : g.Sound) : g.nextId ∉ g.nodes.map Node.id := by
  intro hmem
  obtain ⟨node, hnode, hid⟩ := List.mem_map.1 hmem
  obtain ⟨n, hn, hissued⟩ := hg.issued node hnode
  have heq : n = g.created + 1 := toString_injective (hissued.symm.trans hid)
  omega

/-- The ids behind an edit. -/
lemma ids_apply (g : Graph) (edit : Edit) :
    (g.apply edit).2.nodes.map Node.id = match edit with
      | .create _ _ => g.nodes.map Node.id ++ [g.nextId]
      | .remove id => (g.nodes.eraseP (·.id == id)).map Node.id
      | _ => g.nodes.map Node.id := by
  rw [nodes_apply]
  cases edit with
  | create kind position => simp [Node.fresh]
  | setField id key value => exact map_id_changeNode _ fun _ => rfl
  | move id position =>
    dsimp only
    split
    · exact map_id_changeNode _ fun _ => rfl
    · rfl
  | remove id => rfl
  | connect source target => rfl
  | removeEdge index => rfl

lemma Sound.ids_remove {g : Graph} (hg : g.Sound) (id : String) :
    (g.apply (.remove id)).2.nodes.map Node.id = (g.nodes.map Node.id).filter (· ≠ id) := by
  rw [ids_apply]
  dsimp only
  rw [eraseP_eq_filter hg.ids_nodup, List.filter_map]
  rfl

/-- Every edit but a removal leaves the nodes that were there. -/
lemma mem_ids_apply {g : Graph} {edit : Edit} {id : String} (hid : id ∈ g.nodes.map Node.id)
    (hkeep : ∀ other, edit ≠ .remove other) :
    id ∈ (g.apply edit).2.nodes.map Node.id := by
  rw [ids_apply]
  cases edit with
  | create kind position => exact List.mem_append_left _ hid
  | remove other => exact absurd rfl (hkeep other)
  | connect source target => exact hid
  | setField id key value => exact hid
  | move id position => exact hid
  | removeEdge index => exact hid

namespace Sound

lemma ids_nodup_apply {g : Graph} (hg : g.Sound) (edit : Edit) :
    ((g.apply edit).2.nodes.map Node.id).Nodup := by
  cases edit with
  | create kind position =>
    rw [ids_apply]
    exact hg.ids_nodup.append (List.nodup_singleton _) (by simpa using hg.nextId_not_mem)
  | remove id =>
    rw [hg.ids_remove]
    exact hg.ids_nodup.filter _
  | connect source target => rw [ids_apply]; exact hg.ids_nodup
  | setField id key value => rw [ids_apply]; exact hg.ids_nodup
  | move id position => rw [ids_apply]; exact hg.ids_nodup
  | removeEdge index => rw [ids_apply]; exact hg.ids_nodup

/-- An id that is there behind an edit was there before it or is the one just given. -/
lemma issued_apply {g : Graph} (hg : g.Sound) (edit : Edit) :
    ∀ id ∈ (g.apply edit).2.nodes.map Node.id,
      ∃ n, n ≤ (g.apply edit).2.created ∧ id = toString n := by
  have hold : ∀ id ∈ g.nodes.map Node.id, ∃ n, n ≤ g.created ∧ id = toString n := by
    intro id hid
    obtain ⟨node, hnode, rfl⟩ := List.mem_map.1 hid
    exact hg.issued node hnode
  intro id hid
  rw [created_apply]
  cases edit with
  | create kind position =>
    rw [ids_apply, List.mem_append, List.mem_singleton] at hid
    rcases hid with hid | rfl
    · obtain ⟨n, hn, rfl⟩ := hold id hid
      exact ⟨n, Nat.le_succ_of_le hn, rfl⟩
    · exact ⟨g.created + 1, Nat.le_refl _, rfl⟩
  | remove other =>
    rw [hg.ids_remove] at hid
    exact hold id (List.mem_of_mem_filter hid)
  | connect source target => rw [ids_apply] at hid; exact hold id hid
  | setField other key value => rw [ids_apply] at hid; exact hold id hid
  | move other position => rw [ids_apply] at hid; exact hold id hid
  | removeEdge index => rw [ids_apply] at hid; exact hold id hid

/-- Only a removal takes nodes away, and it takes the edges of its node along. -/
lemma joined_apply {g : Graph} (hg : g.Sound) (edit : Edit) :
    ∀ edge ∈ (g.apply edit).2.edges,
      (g.apply edit).2.contains edge.source ∧ (g.apply edit).2.contains edge.target := by
  have hold : ∀ edge ∈ g.edges,
      edge.source ∈ g.nodes.map Node.id ∧ edge.target ∈ g.nodes.map Node.id :=
    fun edge hedge => by simpa only [contains_iff] using hg.joined edge hedge
  intro edge hedge
  rw [contains_iff, contains_iff]
  rw [edges_apply] at hedge
  cases edit with
  | create kind position =>
    exact ⟨mem_ids_apply (hold edge hedge).1 nofun, mem_ids_apply (hold edge hedge).2 nofun⟩
  | setField id key value =>
    exact ⟨mem_ids_apply (hold edge hedge).1 nofun, mem_ids_apply (hold edge hedge).2 nofun⟩
  | move id position =>
    exact ⟨mem_ids_apply (hold edge hedge).1 nofun, mem_ids_apply (hold edge hedge).2 nofun⟩
  | removeEdge index =>
    have hmem : edge ∈ g.edges := List.mem_of_mem_eraseIdx hedge
    exact ⟨mem_ids_apply (hold edge hmem).1 nofun, mem_ids_apply (hold edge hmem).2 nofun⟩
  | connect source target =>
    have hends : edge.source ∈ g.nodes.map Node.id ∧ edge.target ∈ g.nodes.map Node.id := by
      dsimp only at hedge
      split at hedge
      · rename_i hboth
        rw [List.mem_append, List.mem_singleton] at hedge
        rcases hedge with hedge | rfl
        · exact hold edge hedge
        · simpa only [contains_iff] using hboth
      · exact hold edge hedge
    exact ⟨mem_ids_apply hends.1 nofun, mem_ids_apply hends.2 nofun⟩
  | remove id =>
    have hmem : edge ∈ g.edges ∧ edge.touches id = false := by
      dsimp only at hedge
      split at hedge
      · simpa using List.mem_filter.1 hedge
      · rename_i habsent
        refine ⟨hedge, ?_⟩
        rw [contains_iff] at habsent
        by_contra htouch
        have hend : edge.source = id ∨ edge.target = id := by
          simpa [Edge.touches, or_iff_not_imp_left] using htouch
        rcases hend with rfl | rfl
        · exact habsent (hold edge hedge).1
        · exact habsent (hold edge hedge).2
    have hne : edge.source ≠ id ∧ edge.target ≠ id := by
      simpa [Edge.touches, not_or] using hmem.2
    rw [hg.ids_remove]
    exact ⟨List.mem_filter.2 ⟨(hold edge hmem.1).1, by simpa using hne.1⟩,
      List.mem_filter.2 ⟨(hold edge hmem.1).2, by simpa using hne.2⟩⟩

/-- Every edit keeps a graph sound, the refused ones included. -/
theorem apply {g : Graph} (hg : g.Sound) (edit : Edit) : (g.apply edit).2.Sound where
  ids_nodup := hg.ids_nodup_apply edit
  issued node hnode := hg.issued_apply edit node.id (List.mem_map_of_mem hnode)
  joined := hg.joined_apply edit

/-- Every run of edits keeps a graph sound. -/
theorem applyAll {g : Graph} (hg : g.Sound) (edits : List Edit) : (g.applyAll edits).Sound := by
  induction edits generalizing g with
  | nil => exact hg
  | cons edit edits ih => exact ih (hg.apply edit)

end Sound

/-! ## Runs -/

@[simp] lemma applyAll_nil (g : Graph) : g.applyAll [] = g := rfl

@[simp] lemma applyAll_cons (g : Graph) (edit : Edit) (edits : List Edit) :
    g.applyAll (edit :: edits) = (g.apply edit).2.applyAll edits :=
  rfl

lemma applyAll_append (g : Graph) (before after : List Edit) :
    g.applyAll (before ++ after) = (g.applyAll before).applyAll after :=
  List.foldl_append

/-- Where a run of edits sets out from. -/
inductive Origin
  | empty
  | default
  | starter
  deriving DecidableEq

/-- The graph of an origin. -/
def Origin.graph : Origin → Graph
  | .empty => Graph.empty
  | .default => Inhabited.default
  | .starter => Graph.starter

/-- The edits that made the graph of an origin out of nothing. -/
def Origin.past : Origin → List Edit
  | .starter => starterEdits
  | _ => []

lemma Origin.applyAll_graph (origin : Origin) (edits : List Edit) :
    origin.graph.applyAll edits = Graph.empty.applyAll (origin.past ++ edits) := by
  cases origin with
  | empty => rfl
  | default => rfl
  | starter => exact (applyAll_append _ _ _).symm

/-- All graphs that edits lead to are sound. -/
theorem Origin.sound (origin : Origin) (edits : List Edit) :
    (origin.graph.applyAll edits).Sound := by
  rw [origin.applyAll_graph]
  exact sound_empty.applyAll _

end Graph

end WorkflowCanvas
