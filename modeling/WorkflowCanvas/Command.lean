import WorkflowCanvas.Action

/-!
# Commands to the execution service

Uploading, running and scheduling are single requests: one call, and one line in the log with its
outcome.  Reconciling asks for the list of stored workflows and then for the status of every one at
once; the answers may come in any order.  `Progress` is how far a command has got, and it moves on
when the command is begun and whenever a reply comes in.  Nothing is ever asked twice.
-/

namespace WorkflowCanvas

/-! ## Requests -/

/-- A command of one call. -/
inductive Request
  | upload (document : Document)
  | run (workflow : String)
  | schedule (request : ScheduleRequest)
  deriving DecidableEq

namespace Request

/-- What the service is asked. -/
def call : Request → Call
  | upload document => .upload document.attachment
  | run workflow => .run workflow
  | schedule request => .schedule request.body

/-- What an acknowledgement without a text is shown as. -/
def scheduleAcknowledgement : String := "Schedule saved"

/-- A response that may carry a refusal. -/
def unlessRejected {α : Type} (e : Endpoint) (rejection : α → Option String) (response : α) :
    Except ServiceError α :=
  match rejection response with
  | some reason => .error (.rejected e.name reason)
  | none => .ok response

/-- What a request resolves to: the name of the stored file, the identifier of the run, or an
acknowledgement. -/
def conclude : (r : Request) → r.call.Reply → Except ServiceError String
  | upload _, reply => reply.map UploadResponse.filename
  | run workflow, reply => do
    let response ← unlessRejected .run RunResponse.rejection (← reply)
    .ok (response.workflow.getD workflow)
  | schedule _, reply => do
    let response ← unlessRejected .schedule ScheduleResponse.rejection (← reply)
    .ok ((Summary.nonempty? response.message).getD scheduleAcknowledgement)

/-- The line that reports a request's outcome. -/
def log : Request → Except ServiceError String → Log
  | upload _, .ok fileName => ⟨.info, "Uploaded workflow as '" ++ fileName ++ "'"⟩
  | upload document, .error e =>
    ⟨.error, "Upload of '" ++ document.fileName ++ "' failed: " ++ e.message⟩
  | run _, .ok workflow => ⟨.info, "Started workflow '" ++ workflow ++ "'"⟩
  | run workflow, .error e =>
    ⟨.error, "Failed to start workflow '" ++ workflow ++ "': " ++ e.message⟩
  | schedule request, .ok _ => ⟨.info, "Scheduled workflow '" ++ request.workflow ++ "'"⟩
  | schedule request, .error e =>
    ⟨.error, "Failed to schedule workflow '" ++ request.workflow ++ "': " ++ e.message⟩

end Request

/-! ## Look-ups -/

/-- The look-up of one listed workflow. -/
structure Lookup where
  fileName : String
  /-- None while the look-up is out. -/
  summary : Option Summary
  deriving DecidableEq

namespace Lookup

/-- A look-up that is out. -/
def start (fileName : String) : Lookup := ⟨fileName, none⟩

/-- What the service is asked. -/
def call (fileName : String) : Call := .status (workflowStem fileName)

/-- The summary made from a reply. -/
def conclude (fileName : String) : Except ServiceError StatusResponse → Summary
  | .ok response => .ofStatus fileName response
  | .error _ => .unknown fileName

/-- The lines that report a reply. -/
def log (fileName : String) : Except ServiceError StatusResponse → List Log
  | .ok _ => []
  | .error e => [⟨.warn, "Status lookup for '" ++ fileName ++ "' failed: " ++ e.message⟩]

end Lookup

/-! ## Progress -/

/-- A command. -/
inductive Command
  | request (request : Request)
  /-- Builds the summaries of all stored workflows. -/
  | reconcile
  deriving DecidableEq

/-- How far a command has got. -/
inductive Progress
  /-- Not begun; nothing has been asked. -/
  | ready (command : Command)
  | asked (request : Request)
  | concluded (request : Request) (outcome : Except ServiceError String)
  /-- The list of workflows has been asked for. -/
  | listing
  | lookingUp (lookups : List Lookup)
  | reconciled (outcome : Except ServiceError (List Summary))

/-- A command's move: how far it has got then, and what it does. -/
structure Step where
  progress : Progress
  actions : List Action

namespace Progress

/-- A command that stays where it is. -/
def idle (p : Progress) : Step := ⟨p, []⟩

/-- The line that reports a complete reconciliation. -/
def reconciledLog (summaries : List Summary) : Log :=
  ⟨.debug, "Reconciled " ++ toString summaries.length ++ " workflow(s)"⟩

/-- The line that reports that the list of workflows could not be had. -/
def unlistedLog (e : ServiceError) : Log := ⟨.error, "Failed to load workflows: " ++ e.message⟩

/-- The progress of look-ups: they are complete when none is out. -/
def gather (lookups : List Lookup) (actions : List Action) : Step :=
  match lookups.mapM Lookup.summary with
  | some summaries =>
    ⟨.reconciled (.ok summaries), actions ++ [.log (reconciledLog summaries)]⟩
  | none => ⟨.lookingUp lookups, actions⟩

/-- Begins a command. -/
def begin : Progress → Step
  | .ready (.request request) => ⟨.asked request, [.call request.call]⟩
  | .ready .reconcile => ⟨.listing, [.call .workflows]⟩
  | p => idle p

/-- Concludes a request. -/
def conclude (request : Request) (reply : request.call.Reply) : Step :=
  let outcome := request.conclude reply
  ⟨.concluded request outcome, [.log (request.log outcome)]⟩

/-- Goes on when the list of workflows is there: every one is looked up at once. -/
def lookUp : Except ServiceError WorkflowListResponse → Step
  | .error e => ⟨.reconciled (.error e), [.log (unlistedLog e)]⟩
  | .ok response =>
    gather (response.workflows.map Lookup.start)
      (response.workflows.map fun fileName => .call (Lookup.call fileName))

/-- Takes the reply to one of several look-ups.  A look-up that was answered stays as it is. -/
def takeStatus (lookups : List Lookup) (index : Nat)
    (reply : Except ServiceError StatusResponse) : Step :=
  match lookups[index]? with
  | some ⟨fileName, none⟩ =>
    gather (lookups.set index ⟨fileName, some (Lookup.conclude fileName reply)⟩)
      ((Lookup.log fileName reply).map .log)
  | _ => idle (.lookingUp lookups)

/-- Takes the reply to the call with this index among those asked together.  A reply to something
that was not asked changes nothing. -/
def receive (p : Progress) (index : Nat) (c : Call) (reply : c.Reply) : Step :=
  match p, c, reply with
  | .asked (.upload document), .upload _, reply => conclude (.upload document) reply
  | .asked (.run workflow), .run _, reply => conclude (.run workflow) reply
  | .asked (.schedule request), .schedule _, reply => conclude (.schedule request) reply
  | .listing, .workflows, reply => lookUp reply
  | .lookingUp lookups, .status _, reply => takeStatus lookups index reply
  | p, _, _ => idle p

end Progress

end WorkflowCanvas
