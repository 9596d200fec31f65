import WorkflowCanvas.Log
import WorkflowCanvas.Notice
import WorkflowCanvas.Service.Call
import WorkflowCanvas.Summary

/-!
# Actions

What a command does to the world around it.  Commands are pure: they answer the list of their
actions, in the order in which they happen.
-/

namespace WorkflowCanvas

/-- Something a command does. -/
inductive Action
  /-- Asks the service. -/
  | call (call : Call)
  | log (line : Log)
  /-- Tells the user. -/
  | notify (notice : Notice)
  /-- Replaces the list of workflows beside the canvas. -/
  | install (summaries : List Summary)
  deriving DecidableEq

namespace Action

/-- The call of an action. -/
def call? : Action → Option Call
  | call c => some c
  | _ => none

/-- The log line of an action. -/
def log? : Action → Option Log
  | log line => some line
  | _ => none

/-- The notice of an action. -/
def notice? : Action → Option Notice
  | notify notice => some notice
  | _ => none

/-- The list that an action installs. -/
def installed? : Action → Option (List Summary)
  | install summaries => some summaries
  | _ => none

/-- The calls among actions. -/
def calls (actions : List Action) : List Call := actions.filterMap call?

/-- The log lines among actions. -/
def lines (actions : List Action) : List Log := actions.filterMap log?

/-- The notices among actions. -/
def notices (actions : List Action) : List Notice := actions.filterMap notice?

/-- The list of workflows that is shown after actions, given the one before. -/
def shown (before : List Summary) (actions : List Action) : List Summary :=
  ((actions.filterMap installed?).getLast?).getD before

end Action

end WorkflowCanvas
