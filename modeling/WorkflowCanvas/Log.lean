/-!
# Log lines

What the program reports about its work besides its answers.  Operations do not write lines: each
has a companion that says which lines it is reported by.
-/

namespace WorkflowCanvas

/-- How much a log line matters. -/
inductive Log.Level
  | error
  | warn
  | info
  | debug
  deriving DecidableEq

/-- A log line. -/
structure Log where
  level : Log.Level
  message : String
  deriving DecidableEq

namespace Log

/-- The name of a level. -/
def Level.name : Level → String
  | .error => "error"
  | .warn => "warn"
  | .info => "info"
  | .debug => "debug"

end Log

end WorkflowCanvas
