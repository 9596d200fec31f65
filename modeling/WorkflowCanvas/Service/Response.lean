import WorkflowCanvas.Json.Form

/-!
# Answers of the execution service

The bodies the service answers with.  A body may report a refusal although the call itself
succeeded; its `status` is `error` then.
-/

namespace WorkflowCanvas

/-- The answer to an upload. -/
structure UploadResponse where
  /-- The name the document is stored under. -/
  filename : String
  deriving DecidableEq

/-- The answer to a run. -/
structure RunResponse where
  status : Option String
  message : Option String
  /-- The identifier of the run. -/
  workflow : Option String
  deriving DecidableEq

/-- The answer to a schedule. -/
structure ScheduleResponse where
  status : Option String
  message : Option String
  deriving DecidableEq

/-- The stored workflows. -/
structure WorkflowListResponse where
  /-- File names, endings included. -/
  workflows : List String
  deriving DecidableEq

/-- The state of one workflow. -/
structure StatusResponse where
  status : Option String
  lastRun : Option String
  deriving DecidableEq

namespace ServiceStatus

/-- The status of an accepted request. -/
def success : String := "success"

/-- The status of a request that is refused in its body. -/
def error : String := "error"

/-- The status shown for a workflow the service knows but reports none for. -/
def pending : String := "pending"

/-- The status shown for a workflow that could not be looked up. -/
def unknown : String := "unknown"

end ServiceStatus

/-- The reason of a refusal in a body, empty if it gives none. -/
def rejection (status message : Option String) : Option String :=
  if status = some ServiceStatus.error then some (message.getD "") else none

/-- The reason for which a run is refused, if it is. -/
def RunResponse.rejection (r : RunResponse) : Option String :=
  WorkflowCanvas.rejection r.status r.message

/-- The reason for which a schedule is refused, if it is. -/
def ScheduleResponse.rejection (r : ScheduleResponse) : Option String :=
  WorkflowCanvas.rejection r.status r.message

instance : Json.Form UploadResponse where
  shape := .record "UploadResponse" [("filename", .required, .text)]
  ofValue v := ⟨v.1⟩
  toValue r := (r.filename, ())
  ofValue_toValue _ := rfl
  toValue_ofValue _ := rfl

instance : Json.Form RunResponse where
  shape := .record "RunResponse" [("status", .optional, .maybe .text),
    ("message", .optional, .maybe .text), ("workflow", .optional, .maybe .text)]
  ofValue v := ⟨v.1, v.2.1, v.2.2.1⟩
  toValue r := (r.status, r.message, r.workflow, ())
  ofValue_toValue _ := rfl
  toValue_ofValue _ := rfl

instance : Json.Form ScheduleResponse where
  shape := .record "ScheduleResponse" [("status", .optional, .maybe .text),
    ("message", .optional, .maybe .text)]
  ofValue v := ⟨v.1, v.2.1⟩
  toValue r := (r.status, r.message, ())
  ofValue_toValue _ := rfl
  toValue_ofValue _ := rfl

instance : Json.Form WorkflowListResponse where
  shape := .record "WorkflowListResponse" [("workflows", .optional, .list .text)]
  ofValue v := ⟨v.1⟩
  toValue r := (r.workflows, ())
  ofValue_toValue _ := rfl
  toValue_ofValue _ := rfl

instance : Json.Form StatusResponse where
  shape := .record "StatusResponse" [("status", .optional, .maybe .text),
    ("last_run", .optional, .maybe .text)]
  ofValue v := ⟨v.1, v.2.1⟩
  toValue r := (r.status, r.lastRun, ())
  ofValue_toValue _ := rfl
  toValue_ofValue _ := rfl

end WorkflowCanvas
