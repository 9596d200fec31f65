import WorkflowCanvas.Calendar.Reader
import WorkflowCanvas.Json.Form

/-!
# Schedules

A workflow is scheduled either once, at a date and a minute, or whenever a cron expression fires,
never both.  The cron text is passed on untouched; only a blank one is refused.
-/

namespace WorkflowCanvas

/-- Why a schedule cannot be built from what the user typed. -/
inductive ScheduleError
  | invalidDate (text : String)
  | invalidTime (text : String)
  | emptyCron
  deriving DecidableEq

/-- The wording of a refusal; it quotes the text as it was typed. -/
def ScheduleError.message : ScheduleError → String
  | .invalidDate text => "Invalid date '" ++ text ++ "', expected YYYY-MM-DD"
  | .invalidTime text => "Invalid time '" ++ text ++ "', expected HH:MM"
  | .emptyCron => "Cron expression is empty"

/-- When a workflow is to run. -/
inductive ScheduleSpec
  | once (date : Date) (time : ClockTime)
  | cron (expression : String)
  deriving DecidableEq

namespace ScheduleSpec

/-- The date form that users and the service are told, in the usual directives. -/
def dateFormat : String := "%Y-%m-%d"

/-- The time form that users and the service are told. -/
def timeFormat : String := "%H:%M"

/-- A single run, from the texts of its date and time. -/
def ofTexts (date time : String) : Except ScheduleError ScheduleSpec :=
  match Calendar.date? (Text.trim date.toList) with
  | none => .error (.invalidDate date)
  | some d =>
    match Calendar.clockTime? (Text.trim time.toList) with
    | none => .error (.invalidTime time)
    | some t => .ok (.once d t)

/-- Recurring runs, from a cron expression. -/
def ofCron (expression : String) : Except ScheduleError ScheduleSpec :=
  if Text.isBlankText expression then .error .emptyCron else .ok (.cron expression)

/-- A schedule by the user's answer to "run once?"; only the inputs of the answer are read. -/
def choose (once : Bool) (date time cron : String) : Except ScheduleError ScheduleSpec :=
  if once then ofTexts date time else ofCron cron

end ScheduleSpec

/-- A schedule for a named workflow. -/
structure ScheduleRequest where
  workflow : String
  spec : ScheduleSpec
  deriving DecidableEq

/-- A schedule as the service takes it. -/
structure ScheduleBody where
  workflow : String
  once : Option Bool
  date : Option String
  time : Option String
  cron : Option String
  deriving DecidableEq

instance : Json.Form ScheduleBody where
  shape := .record "ScheduleBody" [("workflow", .required, .text),
    ("once", .omittable, .maybe .flag), ("date", .omittable, .maybe .text),
    ("time", .omittable, .maybe .text), ("cron", .omittable, .maybe .text)]
  ofValue v := ⟨v.1, v.2.1, v.2.2.1, v.2.2.2.1, v.2.2.2.2.1⟩
  toValue b := (b.workflow, b.once, b.date, b.time, b.cron, ())
  ofValue_toValue _ := rfl
  toValue_ofValue _ := rfl

/-- The body of a request: either the date group or the cron text is filled in. -/
def ScheduleRequest.body (request : ScheduleRequest) : ScheduleBody :=
  match request.spec with
  | .once date time => ⟨request.workflow, some true, some date.render, some time.render, none⟩
  | .cron expression => ⟨request.workflow, none, none, none, some expression⟩

end WorkflowCanvas
