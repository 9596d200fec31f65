import WorkflowCanvas.Graph.Basic

/-!
# Why a call to the execution service fails
-/

namespace WorkflowCanvas

/-- Why no answer could be had over HTTP. -/
inductive HttpFailure
  /-- The request could not be sent or was not answered. -/
  | transport
  /-- The answer broke off or is no JSON of the expected form. -/
  | unreadable
  deriving DecidableEq

/-- Why a call to the execution service fails. -/
inductive ServiceError
  | http (failure : HttpFailure)
  /-- The answer has a status code other than success. -/
  | status (endpoint : String) (code : Nat)
  /-- The answer is a success that carries a refusal. -/
  | rejected (endpoint reason : String)
  | invalidUrl (detail : String)
  | graph (cause : GraphError)
  deriving DecidableEq

/-- The wording of a failure over HTTP. -/
def HttpFailure.message : HttpFailure → String
  | .transport => "error sending request"
  | .unreadable => "error decoding response body"

/-- The wording of a failure. -/
def ServiceError.message : ServiceError → String
  | .http failure => "HTTP error: " ++ failure.message
  | .status endpoint code => endpoint ++ " returned HTTP " ++ toString code
  | .rejected endpoint reason => endpoint ++ " refused the request: " ++ reason
  | .invalidUrl detail => "Invalid service URL: " ++ detail
  | .graph cause => "Document error: " ++ cause.message

end WorkflowCanvas
