import WorkflowCanvas.Json.Tree
import WorkflowCanvas.Log

/-!
# Notices

What the user is told about the outcome of a command.  How a notice is shown is left to the one who
receives it; every notice is also written to the log.
-/

namespace WorkflowCanvas

/-- The outcome of a command, as the user sees it. -/
inductive Notice
  | uploadSucceeded (fileName : String)
  | uploadFailed
  | runStarted (workflow : String)
  | runFailed
  | scheduleSaved (message : String)
  | scheduleFailed
  deriving DecidableEq

namespace Notice

/-- Whether the command failed. -/
def isFailure : Notice → Bool
  | uploadFailed | runFailed | scheduleFailed => true
  | _ => false

/-- The text shown to the user. -/
def text : Notice → String
  | uploadSucceeded fileName => "Upload successful: " ++ fileName
  | uploadFailed => "Upload failed. Check the log for details."
  | runStarted workflow => "Workflow started: " ++ workflow
  | runFailed => "Start failed"
  | scheduleSaved message => message
  | scheduleFailed => "Scheduling failed"

/-- The name of a notice's kind. -/
def kind : Notice → String
  | uploadSucceeded _ => "uploadSucceeded"
  | uploadFailed => "uploadFailed"
  | runStarted _ => "runStarted"
  | runFailed => "runFailed"
  | scheduleSaved _ => "scheduleSaved"
  | scheduleFailed => "scheduleFailed"

/-- What a notice carries besides its kind. -/
def details : Notice → List (String × Json.Tree)
  | uploadSucceeded fileName => [("filename", .text fileName)]
  | runStarted workflow => [("workflow", .text workflow)]
  | scheduleSaved message => [("message", .text message)]
  | _ => []

/-- A notice as JSON. -/
def toTree (notice : Notice) : Json.Tree := .object (("kind", .text notice.kind) :: notice.details)

/-- The notice of a kind, with a text for the kinds that carry one. -/
def ofKind? (kind text : String) : Option Notice :=
  [uploadSucceeded text, uploadFailed, runStarted text, runFailed, scheduleSaved text,
    scheduleFailed].find? (·.kind == kind)

/-- The log line of a notice: failures are warnings. -/
def log (notice : Notice) : Log := ⟨if notice.isFailure then .warn else .info, notice.text⟩

end Notice

end WorkflowCanvas
