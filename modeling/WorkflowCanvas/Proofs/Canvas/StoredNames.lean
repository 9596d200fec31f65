import WorkflowCanvas.Proofs.Canvas.Snapshot

/-!
# From the name of a file back to its workflow

A workflow is stored in a file of its own name with an ending, and wherever a stored file is named
again, the ending is taken off once (`workflowStem`).  So a listed file is run, looked up and shown
as the workflow it was exported from, also if the name of that workflow has the ending itself
(`storedNames_leadBack`).
-/

namespace WorkflowCanvas

/-! ## Stems -/

/-- The name has the ending of stored files. -/
def HasEnding (name : String) : Prop := ∃ stem, name = stem ++ ".json"

@[simp] lemma workflowStem_append (name : String) : workflowStem (name ++ ".json") = name := by
  have hending : Document.fileExtension.toList <:+ (name ++ ".json").toList := by
    rw [String.toList_append]
    exact List.suffix_append _ _
  rw [workflowStem, dropEnding, if_pos (List.isSuffixOf_iff_suffix.2 hending),
    String.toList_append]
  simp [Document.fileExtension]

lemma hasEnding_iff (name : String) :
    HasEnding name ↔ Document.fileExtension.toList.isSuffixOf name.toList = true := by
  rw [List.isSuffixOf_iff_suffix]
  constructor
  · rintro ⟨stem, rfl⟩
    rw [String.toList_append]
    exact List.suffix_append _ _
  · rintro ⟨stem, hstem⟩
    refine ⟨String.ofList stem, String.toList_injective ?_⟩
    rw [String.toList_append, String.toList_ofList, ← hstem]
    rfl

lemma workflowStem_of_not_hasEnding {name : String} (h : ¬HasEnding name) :
    workflowStem name = name := by
  rw [hasEnding_iff] at h
  rw [workflowStem, dropEnding, if_neg h, String.ofList_toList]

/-- Different workflows are stored in different files. -/
lemma eq_of_append_ending_eq {name name' : String} (h : name ++ ".json" = name' ++ ".json") :
    name = name' := by
  rw [← workflowStem_append name, h, workflowStem_append]

/-- A name is its own stem exactly if it has no ending. -/
lemma workflowStem_eq_self_iff (name : String) : workflowStem name = name ↔ ¬HasEnding name := by
  constructor
  · rintro hself ⟨stem, rfl⟩
    rw [workflowStem_append] at hself
    have hlength := congrArg String.length hself
    rw [String.length_append] at hlength
    simp at hlength
  · exact workflowStem_of_not_hasEnding

/-- A name is its stem with or without an ending. -/
lemma eq_workflowStem_or (name : String) :
    name = workflowStem name ∨ name = workflowStem name ++ ".json" := by
  by_cases h : HasEnding name
  · obtain ⟨stem, rfl⟩ := h
    rw [workflowStem_append]
    exact .inr rfl
  · exact .inl (workflowStem_of_not_hasEnding h).symm

/-- Names with one stem differ in no more than one ending. -/
lemma eq_or_append_of_workflowStem_eq {name name' : String}
    (h : workflowStem name = workflowStem name') :
    name = name' ∨ name = name' ++ ".json" ∨ name' = name ++ ".json" := by
  obtain hplain | hended := eq_workflowStem_or name <;>
    obtain hplain' | hended' := eq_workflowStem_or name'
  · exact .inl (hplain.trans (h.trans hplain'.symm))
  · exact .inr (.inr (by rw [hended', ← h, ← hplain]))
  · exact .inr (.inl (by rw [hended, h, ← hplain']))
  · exact .inl (by rw [hended, hended', h])

/-! ## From an upload to the list and back -/

open Session Incoming Lookup Progress

/-- The look-up of a listed file asks for its stem and tells of the file, whatever is answered. -/
lemma conclude_name (fileName : String) (reply : Except ServiceError StatusResponse) :
    (conclude fileName reply).name = fileName := by
  cases reply <;> rfl

/-- The summary at a place of the list is that of the file listed there. -/
lemma exists_summary_of_reconciled {names : List String} {replies : List Incoming}
    {summaries : List Summary}
    (done : (Command.reconcile.run (.listing (.ok ⟨names⟩) :: replies)).progress =
      .reconciled (.ok summaries)) {place : Nat} {fileName : String}
    (listed : names[place]? = some fileName) :
    ∃ s, summaries[place]? = some s ∧ s.name = fileName ∧
      s.workflowName = workflowStem fileName := by
  rw [(run_listing names replies).1, lookedUp_eq_reconciled_iff] at done
  obtain ⟨reply, -, hsummary⟩ := done.entry place fileName listed
  exact ⟨_, hsummary, conclude_name fileName reply,
    congrArg workflowStem (conclude_name fileName reply)⟩

/-- The way of a workflow of some name from the canvas into a stored file, and from the listed file
back to the workflow. -/
structure LeadsBack (workflow : String) : Prop where
  /-- An upload that is started while the canvas has the name sends the file. -/
  upload : ∀ before after, (Canvas.edited before).name = workflow →
    .begin (tasks before).length ∉ after →
    ∃ attachment : Attachment, attachment.fileName = workflow ++ ".json" ∧
      ((fresh.run (before ++ .start .upload :: after)).step (.begin (tasks before).length)).2 =
        [.upload attachment]
  /-- The listed file is run as the workflow. -/
  run : ∀ before after, .begin (tasks before).length ∉ after →
    ((fresh.run (before ++ .start (.run (workflow ++ ".json")) :: after)).step
      (.begin (tasks before).length)).2 = [.run workflow]
  /-- The bare name is run as the workflow just if it has no ending of its own. -/
  run_bare_iff : ∀ before after, .begin (tasks before).length ∉ after →
    (((fresh.run (before ++ .start (.run workflow) :: after)).step
      (.begin (tasks before).length)).2 = [.run workflow] ↔ ¬HasEnding workflow)
  /-- Of a listed file the status of the workflow is looked up. -/
  lookUp : ∀ (names : List String) replies (place : Nat),
    names[place]? = some (workflow ++ ".json") → (Action.calls
      (Command.reconcile.run (.listing (.ok ⟨names⟩) :: replies)).actions)[place + 1]? =
        some (.status workflow)
  /-- When all look-ups are answered, there are summaries. -/
  reconciled : ∀ (names : List String) outcome (order : List (Fin names.length)),
    (∀ place, place ∈ order) → ∃ summaries,
      (Command.reconcile.run
        (.listing (.ok ⟨names⟩) :: order.map (Incoming.lookup outcome))).progress =
          .reconciled (.ok summaries)
  /-- Whatever was answered, the summary of the file has its name and is run as the workflow. -/
  summary : ∀ (names : List String) replies summaries,
    (Command.reconcile.run (.listing (.ok ⟨names⟩) :: replies)).progress =
      .reconciled (.ok summaries) →
    ∀ place : Nat, names[place]? = some (workflow ++ ".json") →
      ∃ s : Summary, summaries[place]? = some s ∧ s.name = workflow ++ ".json" ∧
        s.workflowName = workflow

/-- A stored file leads back to the workflow it was exported from, whatever that is called.  Two
workflows never share a file, and two files that are taken for one workflow differ in one ending. -/
theorem storedNames_leadBack :
    (∀ workflow, LeadsBack workflow) ∧
      (∀ workflow workflow', workflow ++ ".json" = workflow' ++ ".json" → workflow = workflow') ∧
      ∀ fileName fileName', workflowStem fileName = workflowStem fileName' →
        fileName = fileName' ∨ fileName = fileName' ++ ".json" ∨
          fileName' = fileName ++ ".json" := by
  refine ⟨fun workflow => ?_, fun _ _ => eq_of_append_ending_eq,
    fun _ _ => eq_or_append_of_workflowStem_eq⟩
  constructor
  case upload =>
    intro before after named waits
    refine ⟨_, ?_, calls_begin_of_start waits⟩
    rw [← named]
  case run =>
    intro before after waits
    rw [calls_begin_of_start waits, Task.sent, workflowStem_append]
  case run_bare_iff =>
    intro before after waits
    rw [calls_begin_of_start waits, Task.sent, ← workflowStem_eq_self_iff, List.cons.injEq,
      Call.run.injEq, and_iff_left rfl]
  case lookUp =>
    intro names replies place listed
    rw [(run_listing names replies).2, List.getElem?_cons_succ, List.getElem?_map, listed,
      Option.map_some, Lookup.call, workflowStem_append]
  case reconciled =>
    intro names outcome order all
    refine ⟨Lookup.summaries outcome, ?_⟩
    rw [(run_listing names _).1]
    exact lookedUp_eq_reconciled_iff.mpr (built_summaries all)
  case summary =>
    intro names replies summaries done place listed
    obtain ⟨s, there, hname, hworkflow⟩ := exists_summary_of_reconciled done listed
    exact ⟨s, there, hname, hworkflow.trans (workflowStem_append workflow)⟩

/-- A workflow that is itself called like a file is stored with a second ending, and a run under its
bare name asks for another workflow. -/
example :
    (Document.ofGraph .starter "a.json").fileName = "a.json.json" ∧
      (Flight.start .starter (.run "a.json.json")).begin.actions = [.call (.run "a.json")] ∧
      (Flight.start .starter (.run "a.json")).begin.actions = [.call (.run "a")] :=
  ⟨rfl, rfl, rfl⟩

end WorkflowCanvas
