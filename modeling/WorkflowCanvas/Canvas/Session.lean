import WorkflowCanvas.Canvas.Flight
import WorkflowCanvas.Service.Exchange

/-!
# A session at the canvas

A session is the canvas, the list of workflows beside it and the tasks that were started.  It moves
on by events: a gesture, the start of a task, a task setting out, a reply to one of its calls.  The
events of different tasks may be mixed in any way.
-/

namespace WorkflowCanvas

/-- A user's work with its tasks. -/
structure Session where
  canvas : Canvas
  /-- The workflows shown beside the canvas. -/
  summaries : List Summary
  /-- The tasks in the order in which they were started. -/
  flights : List Flight
  /-- What was done, earliest first. -/
  history : List Action

/-- Something that happens in a session. -/
inductive Event
  | gesture (gesture : Gesture)
  | start (task : Task)
  /-- The task with this number sets out. -/
  | begin (flight : Nat)
  /-- A reply comes in for the task with this number. -/
  | reply (flight index : Nat) (call : Call) (reply : call.Reply)

namespace Session

/-- The session of a user who has done nothing yet. -/
def fresh : Session := ⟨.starter, [], [], Graph.starterLog.map .log⟩

/-- What the user was told. -/
def notices (s : Session) : List Notice := Action.notices s.history

/-- The log. -/
def log (s : Session) : List Log := Action.lines s.history

/-- The workflows that ran last. -/
def recentRuns (s : Session) : List Summary :=
  WorkflowCanvas.recentRuns s.summaries recentRunsLimit

/-- Performs a gesture. -/
def perform (s : Session) (gesture : Gesture) : Session :=
  { s with
    canvas := (s.canvas.perform gesture).2
    history := s.history ++ (gesture.log s.canvas.graph).map .log }

/-- Starts a task; its number is the number of tasks before it. -/
def start (s : Session) (task : Task) : Session :=
  { s with flights := s.flights ++ [.start s.canvas task] }

/-- Moves a task on; answers the calls it makes. -/
def advance (s : Session) (number : Nat) (move : Flight → Move) : Session × List Call :=
  match s.flights[number]? with
  | none => (s, [])
  | some flight =>
    let m := move flight
    ({ s with
        flights := s.flights.set number m.flight
        summaries := Action.shown s.summaries m.actions
        history := s.history ++ m.actions }, Action.calls m.actions)

/-- Takes an event; answers the calls that are made because of it. -/
def step (s : Session) : Event → Session × List Call
  | .gesture gesture => (s.perform gesture, [])
  | .start task => (s.start task, [])
  | .begin number => s.advance number Flight.begin
  | .reply number index call reply => s.advance number (·.receive index call reply)

/-- Takes events in order. -/
def run (s : Session) (events : List Event) : Session := events.foldl (fun s e => (s.step e).1) s

/-- The outcome of a task, once there is one. -/
def outcome? (s : Session) (number : Nat) : Option (Except ServiceError Task.Value) :=
  s.flights[number]? >>= Flight.outcome?

variable {σ : Type} [Service σ]

/-- Carries a task through against a service, while nothing else happens.  A task makes calls in at
most three rounds: an upload, the list and the look-ups. -/
def carryThrough (s : Session) (service : σ) (number : Nat) : Session × σ :=
  let (s, calls) := s.step (.begin number)
  let receive : Exchange.Receive Session := fun s index call reply =>
    s.step (.reply number index call reply)
  let e := (Exchange.settle receive 3 ⟨s, service, calls⟩).2
  (e.asker, e.service)

end Session

end WorkflowCanvas
