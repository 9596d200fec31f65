import WorkflowCanvas.Canvas.Basic
import WorkflowCanvas.Command

/-!
# Commands in flight

A task of the user's captures what it needs when it is started, so that the canvas can change while
it is under way.  Uploads, runs and schedules end in exactly one notice.  An upload that succeeded
is followed by a refresh of the workflow list, whose failure does not matter to it; a refresh
replaces the whole list.
-/

namespace WorkflowCanvas

/-- What a user asks of the service. -/
inductive Task
  /-- Stores the workflow on the canvas. -/
  | upload
  /-- Runs a stored workflow, named with or without the ending of its file. -/
  | run (workflow : String)
  | schedule (request : ScheduleRequest)
  /-- Brings the list of workflows up to date. -/
  | refresh
  deriving DecidableEq

/-- The first command of a task started on a canvas. -/
def Task.command (c : Canvas) : Task → Command
  | upload => .request (.upload c.document)
  | run workflow => .request (.run (workflowStem workflow))
  | schedule request => .request (.schedule request)
  | refresh => .reconcile

/-- What a task resolves to. -/
inductive Task.Value
  | text (text : String)
  /-- How many workflows are listed. -/
  | count (count : Nat)
  deriving DecidableEq

/-- A task on its way. -/
inductive Flight
  /-- Its first command is under way. -/
  | first (progress : Progress)
  /-- The document is stored under a name and the list is being refreshed. -/
  | refreshing (fileName : String) (progress : Progress)
  | resolved (outcome : Except ServiceError Task.Value)

/-- A move of a flight: where it is then, and what it does. -/
structure Move where
  flight : Flight
  actions : List Action

/-- What the user is told of a request's outcome. -/
def Request.notice : Request → Except ServiceError String → Notice
  | upload _, .ok fileName => .uploadSucceeded fileName
  | upload _, .error _ => .uploadFailed
  | run _, .ok workflow => .runStarted workflow
  | run _, .error _ => .runFailed
  | schedule _, .ok message => .scheduleSaved message
  | schedule _, .error _ => .scheduleFailed

namespace Flight

/-- A task started on a canvas; nothing has been asked yet. -/
def start (c : Canvas) (task : Task) : Flight := .first (.ready (task.command c))

/-- What is done to tell the user; every notice is logged as well. -/
def tell (notice : Notice) : List Action := [.notify notice, .log notice.log]

/-- Goes on behind a request: the user is told, and a stored document is followed by a refresh. -/
def conclude (request : Request) (outcome : Except ServiceError String) : Move :=
  let told := tell (request.notice outcome)
  match request, outcome with
  | .upload _, .ok fileName =>
    let step := (Progress.ready .reconcile).begin
    ⟨.refreshing fileName step.progress, told ++ step.actions⟩
  | _, outcome => ⟨.resolved (outcome.map .text), told⟩

/-- Where a first command has led to. -/
def settle : Progress → Move
  | .concluded request outcome => conclude request outcome
  | .reconciled (.ok summaries) =>
    ⟨.resolved (.ok (.count summaries.length)), [.install summaries]⟩
  | .reconciled (.error e) => ⟨.resolved (.error e), []⟩
  | progress => ⟨.first progress, []⟩

/-- Where the refresh behind an upload has led to. -/
def settleRefresh (fileName : String) : Progress → Move
  | .reconciled (.ok summaries) => ⟨.resolved (.ok (.text fileName)), [.install summaries]⟩
  | .reconciled (.error _) => ⟨.resolved (.ok (.text fileName)), []⟩
  | progress => ⟨.refreshing fileName progress, []⟩

/-- Moves on by a step of the command that is under way. -/
def advance (f : Flight) (step : Progress → Step) : Move :=
  match f with
  | .first progress =>
    let s := step progress
    let m := settle s.progress
    ⟨m.flight, s.actions ++ m.actions⟩
  | .refreshing fileName progress =>
    let s := step progress
    let m := settleRefresh fileName s.progress
    ⟨m.flight, s.actions ++ m.actions⟩
  | .resolved outcome => ⟨.resolved outcome, []⟩

/-- Sets out. -/
def begin (f : Flight) : Move := f.advance Progress.begin

/-- Takes the reply to the call with this index among those asked together. -/
def receive (f : Flight) (index : Nat) (c : Call) (reply : c.Reply) : Move :=
  f.advance fun progress => progress.receive index c reply

/-- The outcome, once there is one. -/
def outcome? : Flight → Option (Except ServiceError Task.Value)
  | .resolved outcome => some outcome
  | _ => none

end Flight

end WorkflowCanvas
