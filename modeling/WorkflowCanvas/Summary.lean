import WorkflowCanvas.Calendar.Reader
import WorkflowCanvas.Document
import WorkflowCanvas.Service.Response

/-!
# Summaries of stored workflows

The list beside the canvas has one summary per stored workflow.  `lastRun` is empty when the service
has no run on record and absent when the look-up of the status failed.  `recentRuns` is the view of
those that have run, newest first.
-/

namespace WorkflowCanvas

/-- A text without the characters of an ending, if it has that ending. -/
def dropEnding (ending text : List Char) : List Char :=
  if ending.isSuffixOf text then text.take (text.length - ending.length) else text

/-- The name of a stored file without its ending. -/
def workflowStem (fileName : String) : String :=
  String.ofList (dropEnding Document.fileExtension.toList fileName.toList)

/-- A stored workflow with its last known status. -/
structure Summary where
  /-- The stored file name. -/
  name : String
  status : String
  lastRun : Option String
  deriving DecidableEq

namespace Summary

instance : Json.Form Summary where
  shape := .record "WorkflowSummary" [("name", .required, .text), ("status", .required, .text),
    ("last_run", .omittable, .maybe .text)]
  ofValue v := ⟨v.1, v.2.1, v.2.2.1⟩
  toValue s := (s.name, s.status, s.lastRun, ())
  ofValue_toValue _ := rfl
  toValue_ofValue _ := rfl

/-- The text unless it is missing or empty. -/
def nonempty? (text : Option String) : Option String := text.filter (· ≠ "")

/-- The summary of a workflow whose status was looked up. -/
def ofStatus (name : String) (response : StatusResponse) : Summary where
  name := name
  status := (nonempty? response.status).getD ServiceStatus.pending
  lastRun := some (response.lastRun.getD "")

/-- The summary of a workflow whose look-up failed. -/
def unknown (name : String) : Summary := ⟨name, ServiceStatus.unknown, none⟩

/-- The name to run the workflow by. -/
def workflowName (s : Summary) : String := workflowStem s.name

/-- Whether the workflow has run, whenever that was. -/
def hasRun (s : Summary) : Bool := (nonempty? s.lastRun).isSome

/-- When the workflow last ran, if that is known. -/
def lastRunAt (s : Summary) : Option Timestamp := (nonempty? s.lastRun).bind Calendar.timestamp?

/-- Whether one summary may stand before another: the later run first, a run at an unknown time
last. -/
def notOlder (a b : Summary) : Bool :=
  match a.lastRunAt, b.lastRunAt with
  | some s, some t => decide (t.rank ≤ s.rank)
  | none, some _ => false
  | _, none => true

end Summary

/-- The workflows that have run, newest first, at most `limit` of them. -/
def recentRuns (summaries : List Summary) (limit : Nat) : List Summary :=
  ((summaries.filter Summary.hasRun).mergeSort Summary.notOlder).take limit

/-- How many runs the view shows. -/
def recentRunsLimit : Nat := 10

end WorkflowCanvas
