import WorkflowCanvas.Document
import WorkflowCanvas.Schedule
import WorkflowCanvas.Service.Error
import WorkflowCanvas.Service.Response

/-!
# Calls to the execution service

The service has five endpoints.  A call fixes the type of its response, and its reply is that
response or an error.  `Service` is what every service has in common, be it remote or in the same
process: a call is accepted first and answered later, and between the two it may have to wait.
-/

namespace WorkflowCanvas

/-- An endpoint of the service. -/
inductive Endpoint
  | upload
  | run
  | schedule
  | workflows
  | status
  deriving DecidableEq

/-- The name of an endpoint, which is also the first part of its path. -/
def Endpoint.name : Endpoint → String
  | .upload => "upload"
  | .run => "run"
  | .schedule => "schedule"
  | .workflows => "workflows"
  | .status => "status"

/-- A call to the service. -/
inductive Call
  | upload (attachment : Attachment)
  | run (workflow : String)
  | schedule (body : ScheduleBody)
  | workflows
  /-- The workflow is named without the ending of its file. -/
  | status (workflow : String)
  deriving DecidableEq

namespace Call

/-- Where a call goes. -/
def endpoint : Call → Endpoint
  | upload _ => .upload
  | run _ => .run
  | schedule _ => .schedule
  | workflows => .workflows
  | status _ => .status

/-- What a call is answered with. -/
@[reducible] def Response : Call → Type
  | upload _ => UploadResponse
  | run _ => RunResponse
  | schedule _ => ScheduleResponse
  | workflows => WorkflowListResponse
  | status _ => StatusResponse

/-- What comes back from a call. -/
abbrev Reply (c : Call) := Except ServiceError c.Response

instance : (c : Call) → Json.Form c.Response
  | upload _ => inferInstanceAs (Json.Form UploadResponse)
  | run _ => inferInstanceAs (Json.Form RunResponse)
  | schedule _ => inferInstanceAs (Json.Form ScheduleResponse)
  | workflows => inferInstanceAs (Json.Form WorkflowListResponse)
  | status _ => inferInstanceAs (Json.Form StatusResponse)

end Call

/-- A service in one of its states. -/
class Service (σ : Type) where
  /-- A call comes in.  It gets a ticket if it may have to wait. -/
  accept : σ → Call → Option Nat × σ
  /-- Whether a call with this ticket can be answered by now. -/
  isReady : σ → Nat → Bool
  /-- Answers a call. -/
  answer : σ → (c : Call) → c.Reply × σ

end WorkflowCanvas
