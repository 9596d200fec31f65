import WorkflowCanvas.Canvas.Basic
import WorkflowCanvas.Proofs.Graph.EdgeLedger

/-!
# Refused edits

An edit that names a node or an edge which is not there, or a place that is none, is refused, and
`Refuses` lists the causes in the order in which they are looked for.  A field set on a node that is
not there is dropped without a word.  All of these edits are *idle*: they leave the graph exactly as
it is, so a run of edits leads where it leads without its idle edits, and every other edit of it
answers the same (`history_busy`).  The gestures of a user fail in the same cases.
-/

namespace WorkflowCanvas

/-- Whether the answer to an edit tells if it was carried out.  Setting a field is answered alike
whether or not the node is there. -/
def Edit.tells : Edit → Bool
  | setField _ _ _ => false
  | _ => true

namespace Graph

/-- No node of the graph has this id. -/
def Lacks (g : Graph) (id : String) : Prop := id ∉ g.nodes.map Node.id

instance (g : Graph) (id : String) : Decidable (g.Lacks id) :=
  inferInstanceAs (Decidable (id ∉ g.nodes.map Node.id))

lemma lacks_iff {g : Graph} {id : String} : g.contains id = false ↔ g.Lacks id :=
  contains_eq_false_iff

lemma not_lacks_iff {g : Graph} {id : String} : g.contains id = true ↔ ¬ g.Lacks id := by
  rw [← lacks_iff, Bool.not_eq_false]

/-- Why a graph refuses an edit.  A connection looks for its source first, and a move looks at the
position before it looks for the node. -/
inductive Refuses (g : Graph) : Edit → GraphError → Prop
  | noSource {source target : String} (missing : g.Lacks source) :
    Refuses g (.connect source target) (.unknownNode source)
  | noTarget {source target : String} (present : ¬ g.Lacks source) (missing : g.Lacks target) :
    Refuses g (.connect source target) (.unknownNode target)
  | noPlace {id : String} {position : Position}
    (infinite : position.x.isFinite = false ∨ position.y.isFinite = false) :
    Refuses g (.move id position) (.invalidPosition position)
  | notMoved {id : String} {position : Position}
    (finite : position.x.isFinite = true ∧ position.y.isFinite = true) (missing : g.Lacks id) :
    Refuses g (.move id position) (.unknownNode id)
  | notRemoved {id : String} (missing : g.Lacks id) : Refuses g (.remove id) (.unknownNode id)

/-- An edit that has nothing to work on. -/
def Idle (g : Graph) : Edit → Prop
  | .create _ _ => False
  | .connect source target => g.Lacks source ∨ g.Lacks target
  | .setField id _ _ => g.Lacks id
  | .move id position =>
    (position.x.isFinite = false ∨ position.y.isFinite = false) ∨ g.Lacks id
  | .remove id => g.Lacks id
  | .removeEdge index => g.edges.length ≤ index

instance (g : Graph) : DecidablePred g.Idle
  | .create _ _ => inferInstanceAs (Decidable False)
  | .connect source target => inferInstanceAs (Decidable (g.Lacks source ∨ g.Lacks target))
  | .setField id _ _ => inferInstanceAs (Decidable (g.Lacks id))
  | .move id position => inferInstanceAs (Decidable
      ((position.x.isFinite = false ∨ position.y.isFinite = false) ∨ g.Lacks id))
  | .remove id => inferInstanceAs (Decidable (g.Lacks id))
  | .removeEdge index => inferInstanceAs (Decidable (g.edges.length ≤ index))

/-! ## What an edit answers -/

section Answers

variable (g : Graph)

lemma answer_connect (source target : String) :
    (g.apply (.connect source target)).1 =
      if g.Lacks source then .refused (.unknownNode source)
      else if g.Lacks target then .refused (.unknownNode target)
      else .connected ⟨source, target⟩ := by
  simp only [apply, connect, lacks_iff]
  split
  · rfl
  · split <;> rfl

lemma answer_move (id : String) (position : Position) :
    (g.apply (.move id position)).1 =
      if position.x.isFinite = false ∨ position.y.isFinite = false then
        .refused (.invalidPosition position)
      else if g.Lacks id then .refused (.unknownNode id)
      else .moved := by
  simp only [apply, move, lacks_iff, Position.isFinite, Bool.and_eq_false_iff]
  split
  · rfl
  · split <;> rfl

lemma answer_remove (id : String) :
    g.Lacks id ∧ (g.apply (.remove id)).1 = .refused (.unknownNode id) ∨
      ¬ g.Lacks id ∧ ∃ node, (g.apply (.remove id)).1 = .removed node := by
  by_cases missing : g.Lacks id
  · refine .inl ⟨missing, ?_⟩
    simp [apply, remove, node?_eq_none_iff.2 missing, Edit.conclude]
  · exact .inr ⟨missing, exists_removed_iff.2 (not_lacks_iff.2 missing)⟩

lemma answer_removeEdge (index : Nat) :
    g.edges.length ≤ index ∧ (g.apply (.removeEdge index)).1 = .noEdge ∨
      index < g.edges.length ∧ ∃ edge, (g.apply (.removeEdge index)).1 = .edgeRemoved edge := by
  by_cases present : index < g.edges.length
  · exact .inr ⟨present, exists_edgeRemoved_iff.2 present⟩
  · have hle : g.edges.length ≤ index := Nat.le_of_not_lt present
    refine .inl ⟨hle, ?_⟩
    simp [apply, removeEdge, List.getElem?_eq_none hle]

/-- An edit is refused with an error exactly for the cause of that error. -/
lemma refused_iff (edit : Edit) (error : GraphError) :
    (g.apply edit).1 = .refused error ↔ g.Refuses edit error := by
  constructor
  · intro h
    cases edit with
    | create kind position => simp [apply] at h
    | setField id key value => simp [apply] at h
    | connect source target =>
      rw [answer_connect] at h
      split at h
      · next missing =>
        obtain rfl := Edit.Outcome.refused.inj h
        exact .noSource missing
      · next present =>
        split at h
        · next missing =>
          obtain rfl := Edit.Outcome.refused.inj h
          exact .noTarget present missing
        · simp at h
    | move id position =>
      rw [answer_move] at h
      split at h
      · next infinite =>
        obtain rfl := Edit.Outcome.refused.inj h
        exact .noPlace infinite
      · next finite =>
        split at h
        · next missing =>
          obtain rfl := Edit.Outcome.refused.inj h
          exact .notMoved (by simpa using finite) missing
        · simp at h
    | remove id =>
      obtain ⟨missing, hanswer⟩ | ⟨_, node, hanswer⟩ := g.answer_remove id
      · obtain rfl := Edit.Outcome.refused.inj (hanswer.symm.trans h)
        exact .notRemoved missing
      · simp [hanswer] at h
    | removeEdge index =>
      obtain ⟨_, hanswer⟩ | ⟨_, edge, hanswer⟩ := g.answer_removeEdge index <;> simp [hanswer] at h
  · rintro (missing | ⟨present, missing⟩ | infinite | ⟨finite, missing⟩ | missing)
    · rw [answer_connect, if_pos missing]
    · rw [answer_connect, if_neg present, if_pos missing]
    · rw [answer_move, if_pos infinite]
    · rw [answer_move, if_neg (by simpa using finite), if_pos missing]
    · obtain ⟨_, hanswer⟩ | ⟨present, _⟩ := g.answer_remove _
      · exact hanswer
      · exact absurd missing present

/-- An edit that tells whether it was carried out tells that it was not exactly if it is idle. -/
lemma isDone_eq_false_iff {edit : Edit} (htells : edit.tells = true) :
    (g.apply edit).1.isDone = false ↔ g.Idle edit := by
  cases edit with
  | create kind position => simp [apply, Edit.Outcome.isDone, Idle]
  | setField id key value => simp [Edit.tells] at htells
  | connect source target =>
    rw [answer_connect, Idle]
    split
    · next missing => simp [Edit.Outcome.isDone, missing]
    · next present =>
      split
      · next missing => simp [Edit.Outcome.isDone, missing]
      · next missing => simp [Edit.Outcome.isDone, present, missing]
  | move id position =>
    rw [answer_move, Idle]
    split
    · next infinite => simp [Edit.Outcome.isDone, infinite]
    · next finite =>
      split
      · next missing => simp [Edit.Outcome.isDone, missing]
      · next missing => simp [Edit.Outcome.isDone, finite, missing]
  | remove id =>
    obtain ⟨missing, hanswer⟩ | ⟨present, node, hanswer⟩ := g.answer_remove id
    · simp [hanswer, Edit.Outcome.isDone, Idle, missing]
    · simp [hanswer, Edit.Outcome.isDone, Idle, present]
  | removeEdge index =>
    obtain ⟨hle, hanswer⟩ | ⟨hlt, edge, hanswer⟩ := g.answer_removeEdge index
    · simp [hanswer, Edit.Outcome.isDone, Idle, hle]
    · simp [hanswer, Edit.Outcome.isDone, Idle, hlt]

end Answers

/-! ## Idle edits -/

/-- An idle edit leaves nodes, edges and count as they are. -/
lemma apply_of_idle {g : Graph} {edit : Edit} (idle : g.Idle edit) : (g.apply edit).2 = g := by
  have hnodes : (g.apply edit).2.nodes = g.nodes := by
    rw [nodes_apply]
    cases edit with
    | create kind position => exact idle.elim
    | setField id key value => exact changeNode_eq_self idle
    | move id position =>
      dsimp only
      split
      · next finite =>
        have hfinite : position.x.isFinite = true ∧ position.y.isFinite = true := by
          simpa [Position.isFinite] using finite
        exact changeNode_eq_self (idle.resolve_left (by simp [hfinite]))
      · rfl
    | remove id =>
      refine List.eraseP_of_forall_not fun node hnode hid => idle ?_
      exact List.mem_map.2 ⟨node, hnode, eq_of_beq hid⟩
    | _ => rfl
  have hedges : (g.apply edit).2.edges = g.edges := by
    rw [edges_apply]
    cases edit with
    | connect source target =>
      refine if_neg fun present => ?_
      rw [not_lacks_iff, not_lacks_iff] at present
      exact idle.elim present.1 present.2
    | remove id => exact if_neg fun present => not_lacks_iff.1 present idle
    | removeEdge index => exact List.eraseIdx_of_length_le idle
    | _ => rfl
  have hcreated : (g.apply edit).2.created = g.created := by
    rw [created_apply]
    cases edit with
    | create kind position => exact idle.elim
    | _ => rfl
  exact Graph.ext hnodes hedges hcreated

/-- What happens when edits are performed in order, less the idle ones. -/
def busyHistory (g : Graph) : List Edit → History
  | [] => []
  | edit :: edits =>
    if g.Idle edit then (g.apply edit).2.busyHistory edits
    else (edit, (g.apply edit).1) :: (g.apply edit).2.busyHistory edits

/-- Edits that are performed without the idle ones among them answer as they do with them. -/
theorem history_busy (g : Graph) (edits : List Edit) :
    g.history ((g.busyHistory edits).map Prod.fst) = g.busyHistory edits := by
  induction edits generalizing g with
  | nil => rfl
  | cons edit edits ih =>
    rw [busyHistory]
    split
    · next idle => rw [apply_of_idle idle, ih]
    · rw [List.map_cons, history, ih]

/-- Edits lead to the same graph without the idle ones among them. -/
theorem applyAll_busy (g : Graph) (edits : List Edit) :
    g.applyAll ((g.busyHistory edits).map Prod.fst) = g.applyAll edits := by
  induction edits generalizing g with
  | nil => rfl
  | cons edit edits ih =>
    rw [busyHistory, applyAll_cons]
    split
    · next idle => rw [apply_of_idle idle, ih]
    · rw [List.map_cons, applyAll_cons, ih]

lemma busyHistory_sublist (g : Graph) (edits : List Edit) :
    (g.busyHistory edits).Sublist (g.history edits) := by
  induction edits generalizing g with
  | nil => exact .slnil
  | cons edit edits ih =>
    rw [busyHistory, history]
    split
    · exact (ih _).cons _
    · exact (ih _).cons_cons _

end Graph

/-! ## Gestures -/

namespace Canvas

/-- A gesture that amounts to an edit of the graph performs that edit. -/
lemma perform_of_edit? {c : Canvas} {gesture : Gesture} {edit : Edit}
    (h : gesture.edit? = some edit) :
    c.perform gesture =
      (some (c.graph.apply edit).1, { c with graph := (c.graph.apply edit).2 }) := by
  cases gesture with
  | rename name => simp [Gesture.edit?] at h
  | addNamed label spot =>
    simp only [perform, h]
  | _ => simp only [perform, h]

/-- The user is shown an edge unless the graph refuses to have it. -/
lemma shownEdge?_connect (c : Canvas) (source target : String) :
    Gesture.shownEdge? (c.perform (.connect source target)).1 =
      if c.graph.Idle (.connect source target) then none else some ⟨source, target⟩ := by
  rw [perform_of_edit? rfl, Graph.answer_connect]
  by_cases hsource : c.graph.Lacks source
  · simp [Gesture.shownEdge?, Edit.Outcome.edge?, Graph.Idle, hsource]
  · by_cases htarget : c.graph.Lacks target
    · simp [Gesture.shownEdge?, Edit.Outcome.edge?, Graph.Idle, hsource, htarget]
    · simp [Gesture.shownEdge?, Edit.Outcome.edge?, Graph.Idle, hsource, htarget]

/-- The user is told that a gesture failed exactly if its edit is idle. -/
lemma isDone_perform (c : Canvas) (gesture : Gesture) {edit : Edit}
    (h : gesture.edit? = some edit) (htells : edit.tells = true) :
    Gesture.isDone (c.perform gesture).1 = false ↔ c.graph.Idle edit := by
  rw [perform_of_edit? h, ← Graph.isDone_eq_false_iff _ htells]
  rfl

end Canvas

/-! ## Failures -/

/-- What holds of the edits of a graph that fail, whatever the workflow is called. -/
structure FailsCleanly (g : Graph) : Prop where
  refused : ∀ edit error, (g.apply edit).1 = .refused error ↔ g.Refuses edit error
  noEdge : ∀ index, (g.apply (.removeEdge index)).1 = .noEdge ↔ g.edges.length ≤ index
  failed : ∀ edit, edit.tells = true → ((g.apply edit).1.isDone = false ↔ g.Idle edit)
  unchanged : ∀ edit, g.Idle edit → (g.apply edit).2 = g
  /-- Later edits answer as if the idle ones had not happened, and lead to the same graph. -/
  forgotten : ∀ edits, (g.busyHistory edits).Sublist (g.history edits) ∧
    g.history ((g.busyHistory edits).map Prod.fst) = g.busyHistory edits ∧
    g.applyAll ((g.busyHistory edits).map Prod.fst) = g.applyAll edits
  connect_gesture : ∀ name source target,
    Gesture.shownEdge? (Canvas.perform ⟨g, name⟩ (.connect source target)).1 =
      if g.Lacks source ∨ g.Lacks target then none else some ⟨source, target⟩
  move_gesture : ∀ name id position,
    Gesture.isDone (Canvas.perform ⟨g, name⟩ (.move id position)).1 = false ↔
      (position.x.isFinite = false ∨ position.y.isFinite = false) ∨ g.Lacks id
  delete_gesture : ∀ name id,
    Gesture.isDone (Canvas.perform ⟨g, name⟩ (.delete id)).1 = false ↔ g.Lacks id
  deleteEdge_gesture : ∀ name index,
    Gesture.isDone (Canvas.perform ⟨g, name⟩ (.deleteEdge index)).1 = false ↔
      g.edges.length ≤ index
  canvas_unchanged : ∀ name gesture edit, gesture.edit? = some edit → g.Idle edit →
    (Canvas.perform ⟨g, name⟩ gesture).2 = ⟨g, name⟩

/-- Edits fail exactly when they have nothing to work on, and then nothing has happened. -/
theorem failsCleanly (g : Graph) : FailsCleanly g where
  refused := g.refused_iff
  noEdge index := by
    obtain ⟨hle, hanswer⟩ | ⟨hlt, edge, hanswer⟩ := g.answer_removeEdge index
    · simp [hanswer, hle]
    · simp [hanswer, hlt]
  failed _ htells := g.isDone_eq_false_iff htells
  unchanged _ idle := Graph.apply_of_idle idle
  forgotten edits := ⟨g.busyHistory_sublist edits, g.history_busy edits, g.applyAll_busy edits⟩
  connect_gesture name := Canvas.shownEdge?_connect ⟨g, name⟩
  move_gesture name id position := Canvas.isDone_perform ⟨g, name⟩ (.move id position) rfl rfl
  delete_gesture name id := Canvas.isDone_perform ⟨g, name⟩ (.delete id) rfl rfl
  deleteEdge_gesture name index := Canvas.isDone_perform ⟨g, name⟩ (.deleteEdge index) rfl rfl
  canvas_unchanged name gesture edit hedit idle := by
    rw [Canvas.perform_of_edit? hedit]
    exact congrArg (Canvas.mk · name) (Graph.apply_of_idle idle)

end WorkflowCanvas
