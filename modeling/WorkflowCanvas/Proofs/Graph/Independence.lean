import WorkflowCanvas.Proofs.Graph.NodeHistory

/-!
# Edits of different nodes

Setting a field, moving and removing are edits of one node.  Edits of two different nodes do not
meet: performed in either order they lead to the same graph (`Sound.apply_comm`), although a removal
shifts the nodes behind it and takes edges of the other node along, and neither changes what the
other one answers (`answer_eq`).  So two lists of such edits can be mixed in any way that keeps the
order of each (`independentEdits`).
-/

namespace WorkflowCanvas

/-- A list that consists of two others and keeps the order of each. -/
inductive Interleaving : List Edit → List Edit → List Edit → Prop
  | nil : Interleaving [] [] []
  | left {first second mixed : List Edit} (edit : Edit) (rest : Interleaving first second mixed) :
    Interleaving (edit :: first) second (edit :: mixed)
  | right {first second mixed : List Edit} (edit : Edit) (rest : Interleaving first second mixed) :
    Interleaving first (edit :: second) (edit :: mixed)

namespace Edit

/-- The node that an edit of one node is addressed to. -/
def addressee? : Edit → Option String
  | setField id _ _ | move id _ | remove id => some id
  | _ => none

/-- Whether an edit of a node leaves an edge. -/
def spares : Edit → Edge → Bool
  | remove id, edge => !edge.touches id
  | _, _ => true

end Edit

variable {a b : String} {e f : Edit}

namespace History

/-- The calls addressed to a node, with what they answered. -/
def callsTo (h : History) (id : String) : History := h.filter (·.1.addressee? = some id)

lemma callsTo_cons_of_eq (h : History) (outcome : Edit.Outcome) (he : e.addressee? = some a) :
    callsTo ((e, outcome) :: h) a = (e, outcome) :: h.callsTo a :=
  List.filter_cons_of_pos (decide_eq_true he)

lemma callsTo_cons_of_ne (h : History) (outcome : Edit.Outcome) (he : e.addressee? = some a)
    (hab : a ≠ b) : callsTo ((e, outcome) :: h) b = h.callsTo b := by
  have hother : ¬ e.addressee? = some b := by
    rw [he]
    simpa using hab
  exact List.filter_cons_of_neg (by simpa using hother)

end History

/-! ## Answers -/

namespace Graph

lemma find?_changeNode {change : Node → Node} (hkeep : ∀ n, (change n).id = n.id) (hab : a ≠ b)
    (nodes : List Node) :
    (changeNode a change nodes).find? (·.id == b) = nodes.find? (·.id == b) := by
  induction nodes with
  | nil => rfl
  | cons node nodes ih =>
    rw [changeNode]
    split
    · rename_i hid
      have hne : (node.id == b) = false := by
        rw [eq_of_beq hid]
        simpa using hab
      rw [List.find?_cons, List.find?_cons, hkeep, hne]
    · rw [List.find?_cons, List.find?_cons, ih]

lemma find?_eraseP (hab : a ≠ b) (nodes : List Node) :
    (nodes.eraseP (·.id == a)).find? (·.id == b) = nodes.find? (·.id == b) := by
  induction nodes with
  | nil => rfl
  | cons node nodes ih =>
    rw [List.eraseP_cons]
    cases hid : node.id == a with
    | true =>
      have hne : (node.id == b) = false := by
        rw [eq_of_beq hid]
        simpa using hab
      rw [cond_true, List.find?_cons, hne]
    | false => rw [cond_false, List.find?_cons, List.find?_cons, ih]

/-- An edit of one node leaves every other node. -/
lemma node?_apply (g : Graph) (he : e.addressee? = some a) (hab : a ≠ b) :
    (g.apply e).2.node? b = g.node? b := by
  rw [node?, node?, nodes_apply]
  cases e with
  | setField id key value =>
    obtain rfl := Option.some.inj he
    dsimp only
    exact find?_changeNode (by intro n; rfl) hab g.nodes
  | move id position =>
    obtain rfl := Option.some.inj he
    dsimp only
    split
    · exact find?_changeNode (by intro n; rfl) hab g.nodes
    · rfl
  | remove id =>
    obtain rfl := Option.some.inj he
    exact find?_eraseP hab g.nodes
  | _ => cases he

lemma contains_eq (g : Graph) (id : String) : g.contains id = (g.node? id).isSome := by
  rw [Bool.eq_iff_iff, contains_iff, ← not_iff_not, ← node?_eq_none_iff]
  simp

/-- What an edit of a node answers depends on that node only. -/
lemma answer_congr {g g' : Graph} (he : e.addressee? = some a) (same : g.node? a = g'.node? a) :
    (g.apply e).1 = (g'.apply e).1 := by
  cases e with
  | setField id key value => rfl
  | move id position =>
    obtain rfl := Option.some.inj he
    simp only [apply, move, contains_eq, same]
    split
    · rfl
    · split <;> rfl
  | remove id =>
    obtain rfl := Option.some.inj he
    simp only [apply, remove, same]
    cases g'.node? id <;> rfl
  | _ => cases he

/-- What an edit of a node answers is the same behind an edit of another node. -/
lemma answer_eq (g : Graph) (he : e.addressee? = some a) (hf : f.addressee? = some b)
    (hab : a ≠ b) : ((g.apply e).2.apply f).1 = (g.apply f).1 :=
  answer_congr hf (node?_apply g he hab)

/-! ## Graphs -/

/-- Edits of different nodes treat every node in either order alike. -/
lemma after_after (he : e.addressee? = some a) (hf : f.addressee? = some b) (hab : a ≠ b)
    (node : Node) : (node.after e).after f = (node.after f).after e := by
  -- an edit leaves a node that has another id than the one it is addressed to
  have hother : ∀ {edit : Edit} {id : String} (n : Node), edit.addressee? = some id → n.id ≠ id →
      n.after edit = n := by
    intro edit id n hedit hne
    cases edit with
    | setField other key value =>
      obtain rfl := Option.some.inj hedit
      exact if_neg hne
    | move other position =>
      obtain rfl := Option.some.inj hedit
      exact if_neg fun h => hne h.2
    | _ => rfl
  by_cases hid : node.id = a
  · have hne : node.id ≠ b := hid ▸ hab
    rw [hother node hf hne, hother _ hf (by rwa [(node.after_eq e).1])]
  · rw [hother node he hid, hother _ he (by rwa [(node.after_eq f).1])]

/-- An edit of one node treats the nodes one by one and adds none. -/
lemma Sound.nodes_apply_addressed {g : Graph} (hg : g.Sound) (he : e.addressee? = some a) :
    (g.apply e).2.nodes =
      (g.nodes.filter fun node => !decide (e = .remove node.id)).map (·.after e) := by
  have hnone : g.added e = [] := by
    cases e <;> first | rfl | cases he
  rw [hg.nodes_apply_eq, hnone, List.append_nil, List.filter_map]
  congr 2
  funext node
  rw [Function.comp_apply, (node.after_eq e).1]

/-- On a sound graph a removal takes the edges of its node, whether or not the node is there. -/
lemma Sound.edges_apply_addressed {g : Graph} (hg : g.Sound) (he : e.addressee? = some a) :
    (g.apply e).2.edges = g.edges.filter e.spares := by
  have hall : ∀ edges : List Edge, edges.filter (fun _ => true) = edges := List.filter_true
  rw [edges_apply]
  cases e with
  | setField id key value => exact (hall g.edges).symm
  | move id position => exact (hall g.edges).symm
  | remove id =>
    dsimp only
    split
    · rfl
    · rename_i habsent
      refine (List.filter_eq_self.2 fun edge hedge => ?_).symm
      obtain ⟨hsource, htarget⟩ := hg.joined edge hedge
      have hne : edge.source ≠ id ∧ edge.target ≠ id :=
        ⟨fun h => habsent (h ▸ hsource), fun h => habsent (h ▸ htarget)⟩
      simp [Edit.spares, Edge.touches, hne]
  | _ => cases he

lemma created_apply_addressed (g : Graph) (he : e.addressee? = some a) :
    (g.apply e).2.created = g.created := by
  rw [created_apply]
  cases e <;> first | rfl | cases he

/-- Edits of different nodes lead to the same graph in either order. -/
theorem Sound.apply_comm {g : Graph} (hg : g.Sound) (he : e.addressee? = some a)
    (hf : f.addressee? = some b) (hab : a ≠ b) :
    ((g.apply e).2.apply f).2 = ((g.apply f).2.apply e).2 := by
  have hnodes : ((g.apply e).2.apply f).2.nodes = ((g.apply f).2.apply e).2.nodes := by
    rw [(hg.apply e).nodes_apply_addressed hf, hg.nodes_apply_addressed he,
      (hg.apply f).nodes_apply_addressed he, hg.nodes_apply_addressed hf, List.filter_map,
      List.filter_map, List.map_map, List.map_map, List.filter_filter, List.filter_filter]
    have hboth : ∀ node : Node,
        (((fun n : Node => !decide (f = .remove n.id)) ∘ (·.after e)) node &&
          !decide (e = .remove node.id)) =
        (((fun n : Node => !decide (e = .remove n.id)) ∘ (·.after f)) node &&
          !decide (f = .remove node.id)) := by
      intro node
      rw [Function.comp_apply, Function.comp_apply, (node.after_eq e).1, (node.after_eq f).1,
        Bool.and_comm]
    rw [funext hboth]
    exact List.map_congr_left fun node _ => after_after he hf hab node
  have hedges : ((g.apply e).2.apply f).2.edges = ((g.apply f).2.apply e).2.edges := by
    rw [(hg.apply e).edges_apply_addressed hf, hg.edges_apply_addressed he,
      (hg.apply f).edges_apply_addressed he, hg.edges_apply_addressed hf, List.filter_filter,
      List.filter_filter]
    exact List.filter_congr fun edge _ => Bool.and_comm _ _
  have hcreated : ((g.apply e).2.apply f).2.created = ((g.apply f).2.apply e).2.created := by
    rw [created_apply_addressed _ hf, created_apply_addressed _ he, created_apply_addressed _ he,
      created_apply_addressed _ hf]
  exact Graph.ext hnodes hedges hcreated

/-! ## Runs -/

variable {first second mixed : List Edit}

/-- An edit can be put off until edits of another node are done. -/
lemma Sound.applyAll_comm {g : Graph} (hg : g.Sound) (he : e.addressee? = some a)
    (hsecond : ∀ f ∈ second, f.addressee? = some b) (hab : a ≠ b) :
    (g.apply e).2.applyAll second = ((g.applyAll second).apply e).2 := by
  induction second generalizing g with
  | nil => rfl
  | cons f second ih =>
    obtain ⟨hf, hrest⟩ := List.forall_mem_cons.1 hsecond
    rw [applyAll_cons, applyAll_cons, hg.apply_comm he hf hab, ih (hg.apply f) hrest]

/-- Edits of a node answer the same behind an edit of another node. -/
lemma Sound.history_apply {g : Graph} (hg : g.Sound) (he : e.addressee? = some a)
    (hsecond : ∀ f ∈ second, f.addressee? = some b) (hab : a ≠ b) :
    (g.apply e).2.history second = g.history second := by
  induction second generalizing g with
  | nil => rfl
  | cons f second ih =>
    obtain ⟨hf, hrest⟩ := List.forall_mem_cons.1 hsecond
    rw [history, history, answer_eq g he hf hab, hg.apply_comm he hf hab, ih (hg.apply f) hrest]

/-- A mixture of edits of two nodes leads where the edits of the first one and then those of the
second one lead. -/
theorem Sound.applyAll_interleaving {g : Graph} (hg : g.Sound) (hab : a ≠ b)
    (hfirst : ∀ e ∈ first, e.addressee? = some a) (hsecond : ∀ f ∈ second, f.addressee? = some b)
    (hmixed : Interleaving first second mixed) :
    g.applyAll mixed = (g.applyAll first).applyAll second := by
  induction hmixed generalizing g with
  | nil => rfl
  | left e rest ih =>
    obtain ⟨_, hfirst⟩ := List.forall_mem_cons.1 hfirst
    rw [applyAll_cons, applyAll_cons, ih (hg.apply e) hfirst hsecond]
  | right f rest ih =>
    obtain ⟨hf, hsecond⟩ := List.forall_mem_cons.1 hsecond
    rw [applyAll_cons, ih (hg.apply f) hfirst hsecond, hg.applyAll_comm hf hfirst hab.symm,
      ← applyAll_cons]

/-- In a mixture of edits of two nodes every edit answers what it answers without the edits of the
other node. -/
theorem Sound.callsTo_interleaving {g : Graph} (hg : g.Sound) (hab : a ≠ b)
    (hfirst : ∀ e ∈ first, e.addressee? = some a) (hsecond : ∀ f ∈ second, f.addressee? = some b)
    (hmixed : Interleaving first second mixed) :
    (g.history mixed).callsTo a = g.history first ∧
      (g.history mixed).callsTo b = g.history second := by
  induction hmixed generalizing g with
  | nil => exact ⟨rfl, rfl⟩
  | left e rest ih =>
    obtain ⟨he, hfirst⟩ := List.forall_mem_cons.1 hfirst
    obtain ⟨ha, hb⟩ := ih (hg.apply e) hfirst hsecond
    rw [history, History.callsTo_cons_of_eq _ _ he, History.callsTo_cons_of_ne _ _ he hab, ha, hb,
      history, hg.history_apply he hsecond hab]
    exact ⟨rfl, rfl⟩
  | right f rest ih =>
    obtain ⟨hf, hsecond⟩ := List.forall_mem_cons.1 hsecond
    obtain ⟨ha, hb⟩ := ih (hg.apply f) hfirst hsecond
    rw [history, History.callsTo_cons_of_eq _ _ hf, History.callsTo_cons_of_ne _ _ hf hab.symm, ha,
      hb, hg.history_apply hf hfirst hab.symm]
    exact ⟨rfl, rfl⟩

/-- What does not depend on how edits of the node `a` and edits of the node `b` are mixed. -/
structure MixesFreely (g : Graph) (a b : String) (first second : List Edit) : Prop where
  graph : ∀ mixed, Interleaving first second mixed →
    g.applyAll mixed = (g.applyAll first).applyAll second
  first_answers : ∀ mixed, Interleaving first second mixed →
    (g.history mixed).callsTo a = g.history first
  second_answers : ∀ mixed, Interleaving first second mixed →
    (g.history mixed).callsTo b = g.history second

/-- Edits of two different nodes, of which any may be missing, can be mixed freely on all graphs
that edits lead to. -/
theorem independentEdits (origin : Origin) (past : List Edit) {a b : String} (hab : a ≠ b)
    {first second : List Edit} (hfirst : ∀ e ∈ first, e.addressee? = some a)
    (hsecond : ∀ f ∈ second, f.addressee? = some b) :
    MixesFreely (origin.graph.applyAll past) a b first second where
  graph _ hmixed := (origin.sound past).applyAll_interleaving hab hfirst hsecond hmixed
  first_answers _ hmixed :=
    ((origin.sound past).callsTo_interleaving hab hfirst hsecond hmixed).1
  second_answers _ hmixed :=
    ((origin.sound past).callsTo_interleaving hab hfirst hsecond hmixed).2

/-- Two joined nodes of which one is removed before it is written to and moved. -/
theorem independentEdits_joined :
    "1" ≠ "2" ∧
      (∀ e ∈ [.remove "1", .setField "1" "url" "", .move "1" ⟨.ofNat 1, .ofNat 2⟩],
        Edit.addressee? e = some "1") ∧
      (∀ f ∈ [.move "2" ⟨.nan, .ofNat 0⟩, .setField "2" "selector" "a", .remove "2"],
        Edit.addressee? f = some "2") ∧
      MixesFreely (Origin.starter.graph.applyAll [.connect "1" "2", .connect "2" "3"]) "1" "2"
        [.remove "1", .setField "1" "url" "", .move "1" ⟨.ofNat 1, .ofNat 2⟩]
        [.move "2" ⟨.nan, .ofNat 0⟩, .setField "2" "selector" "a", .remove "2"] :=
  ⟨by decide, by decide, by decide, independentEdits .starter _ (by decide) (by decide) (by decide)⟩

end Graph

end WorkflowCanvas
