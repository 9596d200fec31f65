import Mathlib.Data.List.Induction
import WorkflowCanvas.Proofs.Graph.Soundness

/-!
# Which edges a graph has

A run of edits is written down as a `History`, every edit with what it answered.  The history alone
tells which edges the graph has in the end: an entry that connected two nodes added an edge, and
that edge stands until an entry removes it, either by the index it has at that time or together with
a node at one of its ends.  `History.standingEdges` lists the standing edges in the order in which
they were added, so parallel edges and loops are told apart by the entries that added them.

`edges_applyAll` says that this list is the edge list of the graph.  With soundness and the fact
that an id which is gone stays gone (`Retired`) it makes up the integrity of edges over whole runs,
`EdgeIntegrity`.
-/

namespace WorkflowCanvas

/-- What an edit that was answered means for the edges of a graph. -/
inductive EdgeEffect
  | added (edge : Edge)
  | erased (index : Nat)
  /-- The node of this id went, and its edges with it. -/
  | detached (id : String)
  | unchanged

/-- The effect of an edit, given its answer: only what succeeded has one. -/
def EdgeEffect.of : Edit → Edit.Outcome → EdgeEffect
  | .connect source target, .connected _ => .added ⟨source, target⟩
  | .removeEdge index, .edgeRemoved _ => .erased index
  | .remove id, .removed _ => .detached id
  | _, _ => .unchanged

/-- What happened to a graph, earliest first. -/
abbrev History := List (Edit × Edit.Outcome)

namespace History

/-- What the entry with this number means for the edges. -/
def effect (h : History) (entry : Nat) : EdgeEffect :=
  match h[entry]? with
  | some (edit, outcome) => .of edit outcome
  | none => .unchanged

/-- The edge that an entry added, if it is a connection that succeeded. -/
def added? (h : History) (entry : Nat) : Option Edge :=
  match h.effect entry with
  | .added edge => some edge
  | _ => none

/-- Whether the edge that an entry added still stands after the first `time` entries.  At that time
its index is the number of standing edges that were added before it. -/
def standing (h : History) : Nat → Nat → Bool
  | 0, _ => false
  | time + 1, entry =>
    match h.effect time with
    | .added _ => entry == time || h.standing time entry
    | .erased index =>
      h.standing time entry && (List.range entry).countP (h.standing time) != index
    | .detached id => h.standing time entry && !(h.added? entry).any (·.touches id)
    | .unchanged => h.standing time entry

/-- The edges that stand in the end, in the order in which they were added. -/
def standingEdges (h : History) : List Edge :=
  ((List.range h.length).filter (h.standing h.length)).filterMap h.added?

/-! ## What does not depend on later entries -/

lemma effect_append {h : History} {entry : Nat} (hlt : entry < h.length) (later : History) :
    (h ++ later).effect entry = h.effect entry := by
  simp [effect, List.getElem?_append_left hlt]

lemma added?_append {h : History} {entry : Nat} (hlt : entry < h.length) (later : History) :
    (h ++ later).added? entry = h.added? entry := by
  rw [added?, added?, effect_append hlt]

lemma effect_concat (h : History) (edit : Edit) (outcome : Edit.Outcome) :
    effect (h ++ [(edit, outcome)]) h.length = .of edit outcome := by
  simp [effect]

lemma lt_of_standing {h : History} {time entry : Nat} (hs : h.standing time entry = true) :
    entry < time := by
  induction time with
  | zero => simp [standing] at hs
  | succ time ih =>
    rw [standing] at hs
    cases heffect : h.effect time with
    | added edge =>
      rw [heffect] at hs
      rcases Bool.or_eq_true_iff.1 hs with heq | hold
      · exact Nat.lt_succ_of_le (Nat.le_of_eq (by simpa using heq))
      · exact Nat.lt_succ_of_lt (ih hold)
    | erased index =>
      rw [heffect] at hs
      exact Nat.lt_succ_of_lt (ih (Bool.and_eq_true_iff.1 hs).1)
    | detached id =>
      rw [heffect] at hs
      exact Nat.lt_succ_of_lt (ih (Bool.and_eq_true_iff.1 hs).1)
    | unchanged =>
      rw [heffect] at hs
      exact Nat.lt_succ_of_lt (ih hs)

lemma not_standing_self (h : History) (time : Nat) : h.standing time time = false :=
  Bool.eq_false_iff.2 fun hs => Nat.lt_irrefl _ (lt_of_standing hs)

lemma standing_append {h : History} {time : Nat} (hle : time ≤ h.length) (later : History) :
    (h ++ later).standing time = h.standing time := by
  induction time with
  | zero => rfl
  | succ time ih =>
    funext entry
    rw [standing, standing, effect_append (by omega), ih (by omega)]
    cases h.effect time with
    | added edge => rfl
    | erased index => rfl
    | unchanged => rfl
    | detached id =>
      by_cases hs : h.standing time entry = true
      · rw [added?_append (by have := lt_of_standing hs; omega)]
      · simp [hs]

lemma isSome_added?_of_standing {h : History} {time entry : Nat}
    (hs : h.standing time entry = true) : (h.added? entry).isSome = true := by
  induction time with
  | zero => simp [standing] at hs
  | succ time ih =>
    rw [standing] at hs
    cases heffect : h.effect time with
    | added edge =>
      rw [heffect] at hs
      rcases Bool.or_eq_true_iff.1 hs with heq | hold
      · have htime : entry = time := by simpa using heq
        simp [added?, htime, heffect]
      · exact ih hold
    | erased index =>
      rw [heffect] at hs
      exact ih (Bool.and_eq_true_iff.1 hs).1
    | detached id =>
      rw [heffect] at hs
      exact ih (Bool.and_eq_true_iff.1 hs).1
    | unchanged =>
      rw [heffect] at hs
      exact ih hs

/-! ## One more entry -/

/-- Dropping the entry of a rank is erasing at that index. -/
lemma filter_rank_ne (standing : Nat → Bool) (index count : Nat) :
    (List.range count).filter (fun k => standing k && (List.range k).countP standing != index) =
      ((List.range count).filter standing).eraseIdx index := by
  induction count with
  | zero => rfl
  | succ count ih =>
    rw [List.range_succ, List.filter_append, List.filter_append, ih]
    have hlen : ((List.range count).filter standing).length = (List.range count).countP standing :=
      List.countP_eq_length_filter.symm
    by_cases hs : standing count = true
    · by_cases hlt : index < (List.range count).countP standing
      · have hne : (List.range count).countP standing ≠ index := by omega
        rw [List.eraseIdx_append_of_lt_length (by omega)]
        simp [hs, hne]
      · rw [List.eraseIdx_append_of_length_le (by omega), List.eraseIdx_of_length_le (by omega)]
        by_cases heq : (List.range count).countP standing = index
        · simp [hs, heq, hlen]
        · obtain ⟨k, hk⟩ : ∃ k, index - ((List.range count).filter standing).length = k + 1 :=
            ⟨index - ((List.range count).filter standing).length - 1, by omega⟩
          simp [hs, heq, hk]
    · simp [hs]

/-- Erasing at an index goes past a map that keeps every item. -/
lemma filterMap_eraseIdx {f : Nat → Option Edge} {entries : List Nat} (index : Nat)
    (hkeep : ∀ entry ∈ entries, (f entry).isSome = true) :
    (entries.eraseIdx index).filterMap f = (entries.filterMap f).eraseIdx index := by
  induction entries generalizing index with
  | nil => rfl
  | cons entry entries ih =>
    obtain ⟨edge, hedge⟩ := Option.isSome_iff_exists.1 (hkeep entry List.mem_cons_self)
    rw [List.filterMap_cons_some hedge]
    cases index with
    | zero => rfl
    | succ index =>
      rw [List.eraseIdx_cons_succ, List.filterMap_cons_some hedge, List.eraseIdx_cons_succ,
        ih index fun e he => hkeep e (List.mem_cons_of_mem _ he)]

/-- The standing edges behind one more entry: the older ones that still stand, and its own. -/
lemma standingEdges_concat_eq (h : History) (last : Edit × Edit.Outcome) :
    standingEdges (h ++ [last]) =
      ((List.range h.length).filter (standing (h ++ [last]) (h.length + 1))).filterMap h.added? ++
        (if standing (h ++ [last]) (h.length + 1) h.length = true
          then (added? (h ++ [last]) h.length).toList else []) := by
  rw [standingEdges, List.length_append, List.length_singleton, List.range_succ,
    List.filter_append, List.filterMap_append]
  congr 1
  · refine List.filterMap_congr fun entry hentry => ?_
    exact added?_append (List.mem_range.1 (List.mem_filter.1 hentry).1) _
  · by_cases hs : standing (h ++ [last]) (h.length + 1) h.length = true
    · cases hadded : added? (h ++ [last]) h.length <;> simp [hs, hadded]
    · simp [hs]

/-- What one more entry does to the standing edges. -/
lemma standingEdges_concat (h : History) (edit : Edit) (outcome : Edit.Outcome) :
    standingEdges (h ++ [(edit, outcome)]) = match EdgeEffect.of edit outcome with
      | .added edge => h.standingEdges ++ [edge]
      | .erased index => h.standingEdges.eraseIdx index
      | .detached id => h.standingEdges.filter (!·.touches id)
      | .unchanged => h.standingEdges := by
  have hlast := effect_concat h edit outcome
  have hold := standing_append (Nat.le_refl h.length) [(edit, outcome)]
  have hself := not_standing_self h h.length
  rw [standingEdges_concat_eq]
  cases heffect : EdgeEffect.of edit outcome with
  | added edge =>
    have hstill : (List.range h.length).filter
        (standing (h ++ [(edit, outcome)]) (h.length + 1)) =
          (List.range h.length).filter (h.standing h.length) := by
      refine List.filter_congr fun entry hentry => ?_
      have hne : entry ≠ h.length := Nat.ne_of_lt (List.mem_range.1 hentry)
      simp [standing, hlast, heffect, hold, hne]
    rw [hstill]
    simp [standingEdges, standing, added?, hlast, heffect]
  | erased index =>
    have hstill : (List.range h.length).filter
        (standing (h ++ [(edit, outcome)]) (h.length + 1)) =
          ((List.range h.length).filter (h.standing h.length)).eraseIdx index := by
      rw [← filter_rank_ne]
      refine List.filter_congr fun entry _ => ?_
      simp [standing, hlast, heffect, hold]
    rw [hstill, filterMap_eraseIdx]
    · simp [standingEdges, standing, hlast, heffect, hold, hself]
    · exact fun entry hentry => isSome_added?_of_standing (List.mem_filter.1 hentry).2
  | detached id =>
    have hstill : (List.range h.length).filter
        (standing (h ++ [(edit, outcome)]) (h.length + 1)) =
          ((List.range h.length).filter (h.standing h.length)).filter fun entry =>
            !(h.added? entry).any (·.touches id) := by
      rw [List.filter_filter]
      refine List.filter_congr fun entry hentry => ?_
      rw [standing, hlast, heffect, hold, added?_append (List.mem_range.1 hentry), Bool.and_comm]
    dsimp only
    rw [hstill, standingEdges, List.filter_filterMap, List.filterMap_filter]
    simp only [standing, hlast, heffect, hold, hself, Bool.false_and, Bool.false_eq_true, if_false,
      List.append_nil]
    refine List.filterMap_congr fun entry _ => ?_
    cases h.added? entry with
    | none => rfl
    | some edge => cases htouch : edge.touches id <;> simp [Option.filter, htouch]
  | unchanged =>
    simp [standingEdges, standing, hlast, heffect, hold, hself]

end History

namespace Graph

/-! ## The edges of a run -/

/-- What happens when edits are performed in order. -/
def history (g : Graph) : List Edit → History
  | [] => []
  | edit :: edits => (edit, (g.apply edit).1) :: (g.apply edit).2.history edits

lemma history_concat (g : Graph) (edits : List Edit) (edit : Edit) :
    g.history (edits ++ [edit]) =
      g.history edits ++ [(edit, ((g.applyAll edits).apply edit).1)] := by
  induction edits generalizing g with
  | nil => rfl
  | cons first edits ih =>
    rw [List.cons_append, history, ih, history, List.cons_append, applyAll_cons]

lemma applyAll_concat (g : Graph) (edits : List Edit) (edit : Edit) :
    g.applyAll (edits ++ [edit]) = ((g.applyAll edits).apply edit).2 := by
  rw [applyAll_append, applyAll_cons, applyAll_nil]

/-- The edges behind an edit, in terms of its effect. -/
lemma edges_apply_of_effect (g : Graph) (edit : Edit) :
    (g.apply edit).2.edges = match EdgeEffect.of edit (g.apply edit).1 with
      | .added edge => g.edges ++ [edge]
      | .erased index => g.edges.eraseIdx index
      | .detached id => g.edges.filter (!·.touches id)
      | .unchanged => g.edges := by
  rw [edges_apply]
  cases edit with
  | create kind position => rfl
  | setField id key value => rfl
  | move id position => rfl
  | connect source target =>
    simp only [apply, connect]
    cases g.contains source <;> cases g.contains target <;> rfl
  | remove id =>
    by_cases hid : g.contains id = true
    · obtain ⟨node, hnode⟩ := exists_removed_iff.2 hid
      simp [hid, hnode, EdgeEffect.of]
    · have hnone : g.node? id = none := by
        rw [node?_eq_none_iff, ← contains_iff]
        exact hid
      simp [hid, apply, remove, hnone, Edit.conclude, EdgeEffect.of]
  | removeEdge index =>
    by_cases hi : index < g.edges.length
    · obtain ⟨edge, hedge⟩ := exists_edgeRemoved_iff.2 hi
      simp [hedge, EdgeEffect.of]
    · have hle : g.edges.length ≤ index := by omega
      have hnone : g.edges[index]? = none := List.getElem?_eq_none hle
      simp [apply, removeEdge, hnone, EdgeEffect.of, List.eraseIdx_of_length_le hle]

/-- The edges of a run from a graph without edges are the standing edges of its history. -/
theorem edges_applyAll {g : Graph} (hg : g.edges = []) (edits : List Edit) :
    (g.applyAll edits).edges = (g.history edits).standingEdges := by
  induction edits using List.reverseRecOn with
  | nil => exact hg
  | append_singleton edits edit ih =>
    rw [applyAll_concat, history_concat, History.standingEdges_concat, ← ih, edges_apply_of_effect]

lemma Origin.edges_graph (origin : Origin) : origin.graph.edges = [] := by
  cases origin <;> rfl

/-! ## Ids that are gone -/

/-- The id was given to a node that is no longer there. -/
def Retired (g : Graph) (id : String) : Prop :=
  (∃ n, n ≤ g.created ∧ id = toString n) ∧ id ∉ g.nodes.map Node.id

lemma Sound.retired_remove {g : Graph} (hg : g.Sound) {id : String} (hid : g.contains id = true) :
    (g.apply (.remove id)).2.Retired id := by
  obtain ⟨node, hnode, rfl⟩ := List.mem_map.1 (contains_iff.1 hid)
  refine ⟨?_, ?_⟩
  · rw [created_apply]
    exact hg.issued node hnode
  · rw [hg.ids_remove]
    simp

/-- No edit brings an id back that is gone. -/
lemma Sound.retired_apply {g : Graph} (hg : g.Sound) {id : String} (hid : g.Retired id)
    (edit : Edit) : (g.apply edit).2.Retired id := by
  obtain ⟨⟨n, hn, rfl⟩, habsent⟩ := hid
  refine ⟨⟨n, ?_, rfl⟩, ?_⟩
  · rw [created_apply]
    split
    · exact Nat.le_succ_of_le hn
    · exact hn
  · cases edit with
    | create kind position =>
      rw [ids_apply, List.mem_append, List.mem_singleton]
      rintro (hold | hnew)
      · exact habsent hold
      · have heq : n = g.created + 1 := toString_injective hnew
        omega
    | remove other =>
      rw [hg.ids_remove]
      exact fun hmem => habsent (List.mem_of_mem_filter hmem)
    | connect source target => rw [ids_apply]; exact habsent
    | setField other key value => rw [ids_apply]; exact habsent
    | move other position => rw [ids_apply]; exact habsent
    | removeEdge index => rw [ids_apply]; exact habsent

lemma Sound.retired_applyAll {g : Graph} (hg : g.Sound) {id : String} (hid : g.Retired id)
    (edits : List Edit) : (g.applyAll edits).Retired id := by
  induction edits generalizing g with
  | nil => exact hid
  | cons edit edits ih => exact ih (hg.apply edit) (hg.retired_apply hid edit)

/-- No edge touches an id without a node. -/
lemma Sound.not_touches_of_not_mem {g : Graph} (hg : g.Sound) {id : String}
    (hid : id ∉ g.nodes.map Node.id) : ∀ edge ∈ g.edges, edge.touches id = false := by
  intro edge hedge
  have hends := hg.joined edge hedge
  rw [contains_iff, contains_iff] at hends
  have hsource : edge.source ≠ id := fun h => hid (h ▸ hends.1)
  have htarget : edge.target ≠ id := fun h => hid (h ▸ hends.2)
  simp [Edge.touches, hsource, htarget]

lemma Sound.not_touches_of_retired {g : Graph} (hg : g.Sound) {id : String} (hid : g.Retired id) :
    ∀ edge ∈ g.edges, edge.touches id = false :=
  hg.not_touches_of_not_mem hid.2

lemma connect_of_retired {g : Graph} {id source target : String} (hid : g.Retired id)
    (hend : source = id ∨ target = id) :
    ∃ missing, g.connect source target = .error (.unknownNode missing) := by
  have habsent : g.contains id = false := contains_eq_false_iff.2 hid.2
  rcases hend with rfl | rfl
  · exact ⟨source, by simp [connect, habsent]⟩
  · by_cases hsource : g.contains source = true
    · exact ⟨target, by simp [connect, hsource, habsent]⟩
    · exact ⟨source, by simp [connect, hsource]⟩

/-! ## Integrity -/

/-- What holds of ids and edges when edits have been performed on a graph. -/
structure EdgeIntegrity (start : Graph) (edits : List Edit) : Prop where
  ids_distinct : ((start.applyAll edits).nodes.map Node.id).Nodup
  ends_present : ∀ edge ∈ (start.applyAll edits).edges,
    edge.source ∈ (start.applyAll edits).nodes.map Node.id ∧
      edge.target ∈ (start.applyAll edits).nodes.map Node.id
  edges_standing : (start.applyAll edits).edges = (start.history edits).standingEdges
  /-- Behind a removal that succeeded, whatever comes after it. -/
  removed_stays_gone : ∀ before id after node, edits = before ++ .remove id :: after →
    ((start.applyAll before).apply (.remove id)).1 = .removed node →
      (∀ edge ∈ (start.applyAll edits).edges, edge.touches id = false) ∧
        ∀ source target, source = id ∨ target = id →
          ∃ missing, (start.applyAll edits).connect source target = .error (.unknownNode missing)

/-- Integrity of edges over all runs. -/
theorem edgeIntegrity (origin : Origin) (edits : List Edit) :
    EdgeIntegrity origin.graph edits where
  ids_distinct := (origin.sound edits).ids_nodup
  ends_present edge hedge := by
    simpa only [contains_iff] using (origin.sound edits).joined edge hedge
  edges_standing := edges_applyAll origin.edges_graph edits
  removed_stays_gone := by
    rintro before id after node rfl hremoved
    have hid := exists_removed_iff.1 ⟨node, hremoved⟩
    have hgone : (origin.graph.applyAll (before ++ .remove id :: after)).Retired id := by
      rw [applyAll_append, applyAll_cons]
      have hbefore := origin.sound before
      exact (hbefore.apply _).retired_applyAll (hbefore.retired_remove hid) after
    exact ⟨(origin.sound _).not_touches_of_retired hgone,
      fun source target hend => connect_of_retired hgone hend⟩

end Graph

end WorkflowCanvas
