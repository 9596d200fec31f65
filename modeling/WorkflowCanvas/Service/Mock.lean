import WorkflowCanvas.Service.Call
import WorkflowCanvas.Service.Gate
import WorkflowCanvas.Summary

/-!
# A service without a network

A service whose answers are set up in advance and that records what it was asked.  It can be
offline, refuse every run and schedule in its body, fail the status of single workflows, and hold
back status look-ups at a gate until as many are waiting as there are workflows.
-/

namespace WorkflowCanvas

/-- What a mock service was asked. -/
structure Mock.Calls where
  /-- Every call that got as far as an answer, failed ones included. -/
  attempts : List Endpoint := []
  uploads : List Attachment := []
  runs : List String := []
  schedules : List ScheduleBody := []
  /-- Every status look-up, waiting ones included. -/
  lookups : List String := []
  deriving DecidableEq

/-- A service without a network. -/
structure Mock where
  /-- The stored files. -/
  workflows : List String := []
  /-- Statuses by stem; of two for a stem the first counts. -/
  statuses : List (String × StatusResponse) := []
  /-- The stems of workflows whose look-up fails. -/
  failing : List String := []
  scheduleMessage : Option String := none
  rejection : Option String := none
  offline : Bool := false
  gate : Option Gate := none
  calls : Mock.Calls := {}

namespace Mock

/-! ## Setting up -/

/-- Stores a workflow with its status. -/
def store (m : Mock) (fileName : String) (status : StatusResponse) : Mock :=
  { m with
    workflows := m.workflows ++ [fileName]
    statuses := (workflowStem fileName, status) :: m.statuses }

/-- Stores a workflow whose look-up fails. -/
def storeFailing (m : Mock) (fileName : String) : Mock :=
  { m with
    workflows := m.workflows ++ [fileName]
    failing := workflowStem fileName :: m.failing }

/-- Answers schedules with a message. -/
def acknowledge (m : Mock) (message : String) : Mock := { m with scheduleMessage := some message }

/-- Refuses runs and schedules. -/
def reject (m : Mock) (message : String) : Mock := { m with rejection := some message }

/-- Fails every call. -/
def disconnect (m : Mock) : Mock := { m with offline := true }

/-- Holds back status look-ups until there are as many as workflows are stored now. -/
def holdLookups (m : Mock) : Mock := { m with gate := some (.ofSize m.workflows.length) }

/-! ## Answering -/

/-- The status code of failed calls. -/
def failureCode : Nat := 503

/-- The failure of an endpoint. -/
def failure (e : Endpoint) : ServiceError := .status e.name failureCode

/-- Records a call; look-ups gather at the gate. -/
def accept (m : Mock) : Call → Option Nat × Mock
  | .status workflow =>
    let m := { m with calls := { m.calls with lookups := m.calls.lookups ++ [workflow] } }
    match m.gate with
    | none => (none, m)
    | some gate =>
      let (ticket, gate) := gate.arrive
      (some ticket, { m with gate := some gate })
  | _ => (none, m)

/-- Records that a call got as far as an answer. -/
def attempt (m : Mock) (e : Endpoint) : Mock :=
  { m with calls := { m.calls with attempts := m.calls.attempts ++ [e] } }

/-- Records what a call that is not failed asks for. -/
def record (m : Mock) : Call → Mock
  | .upload attachment =>
    { m with calls := { m.calls with uploads := m.calls.uploads ++ [attachment] } }
  | .run workflow => { m with calls := { m.calls with runs := m.calls.runs ++ [workflow] } }
  | .schedule body =>
    { m with calls := { m.calls with schedules := m.calls.schedules ++ [body] } }
  | _ => m

/-- The reply of a service that is not offline. -/
def reply (m : Mock) : (c : Call) → c.Reply
  | .upload attachment => .ok ⟨attachment.fileName⟩
  | .run workflow =>
    match m.rejection with
    | some message => .ok ⟨some ServiceStatus.error, some message, none⟩
    | none => .ok ⟨some ServiceStatus.success, none, some workflow⟩
  | .schedule _ =>
    match m.rejection with
    | some message => .ok ⟨some ServiceStatus.error, some message⟩
    | none => .ok ⟨none, m.scheduleMessage⟩
  | .workflows => .ok ⟨m.workflows⟩
  | .status workflow =>
    if m.failing.contains workflow then .error (failure .status)
    else .ok ((m.statuses.lookup workflow).getD ⟨none, none⟩)

/-- Answers a call. -/
def answer (m : Mock) (c : Call) : c.Reply × Mock :=
  if m.offline then (.error (failure c.endpoint), m.attempt c.endpoint)
  else (m.reply c, (m.attempt c.endpoint).record c)

instance : Service Mock where
  accept := accept
  isReady m ticket := m.gate.all (·.isOpen ticket)
  answer := answer

end Mock

end WorkflowCanvas
