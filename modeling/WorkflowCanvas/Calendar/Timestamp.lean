import WorkflowCanvas.Calendar.Date

/-!
# Times of day and timestamps

A `ClockTime` is a minute of a day, a `Timestamp` a day with a time down to nanoseconds.  A leap
second is the last second of its minute with a thousand million nanoseconds more; it comes before
the second after it.
-/

namespace WorkflowCanvas

/-- A minute of a day. -/
structure ClockTime where
  hour : Nat
  minute : Nat
  hour_lt : hour < 24
  minute_lt : minute < 60
  deriving DecidableEq

namespace ClockTime

/-- The minute with these parts, if there is one. -/
def of? (hour minute : Nat) : Option ClockTime :=
  if h : hour < 24 ∧ minute < 60 then some ⟨hour, minute, h.1, h.2⟩ else none

/-- Hour and minute in two digits each. -/
def chars (t : ClockTime) : List Char := padded 2 t.hour ++ ':' :: padded 2 t.minute

/-- The text of the minute. -/
def render (t : ClockTime) : String := String.ofList t.chars

/-- The text of the minute with its seconds, which are none. -/
def renderSeconds (t : ClockTime) : String := t.render ++ ":00"

end ClockTime

/-- A time on a day. -/
structure Timestamp where
  date : Date
  /-- Seconds since midnight. -/
  second : Nat
  /-- Nanoseconds; from a thousand million on it is a leap second. -/
  nano : Nat
  second_lt : second < 86400
  nano_lt : nano < 2000000000
  deriving DecidableEq

namespace Timestamp

/-- The timestamp of a date and the parts of a time, if there is one.  Second 60 is a leap second.
-/
def of? (date : Date) (hour minute second nano : Nat) : Option Timestamp :=
  if h : hour < 24 ∧ minute < 60 ∧ second ≤ 60 ∧ nano < 1000000000 then
    some {
      date
      second := (hour * 60 + minute) * 60 + min second 59
      nano := if second = 60 then nano + 1000000000 else nano
      second_lt := by omega
      nano_lt := by split <;> omega }
  else
    none

/-- The place in time: earlier timestamps have lower ranks. -/
def rank (t : Timestamp) : Int := (t.date.dayNumber * 86400 + t.second) * 2000000000 + t.nano

/-- The timestamp so many seconds, less than a day, earlier; a leap second stays one. -/
def earlier? (t : Timestamp) (seconds : Nat) : Option Timestamp :=
  if seconds ≤ t.second then
    some { t with second := t.second - seconds, second_lt := by have := t.second_lt; omega }
  else
    t.date.previous?.map fun date =>
      { t with
        date
        second := (t.second + 86400 - seconds) % 86400
        second_lt := Nat.mod_lt _ (by decide) }

/-- The timestamp so many seconds, less than a day, later; a leap second stays one. -/
def later? (t : Timestamp) (seconds : Nat) : Option Timestamp :=
  if h : t.second + seconds < 86400 then
    some { t with second := t.second + seconds, second_lt := h }
  else
    t.date.next?.map fun date =>
      { t with
        date
        second := (t.second + seconds) % 86400
        second_lt := Nat.mod_lt _ (by decide) }

/-- A fraction of a second in as few groups of three digits as show it, without its zero. -/
def fractionChars (nano : Nat) : List Char :=
  if nano = 0 then []
  else if nano % 1000000 = 0 then '.' :: padded 3 (nano / 1000000)
  else if nano % 1000 = 0 then '.' :: padded 6 (nano / 1000)
  else '.' :: padded 9 nano

/-- Date and time with a space between them. -/
def chars (t : Timestamp) : List Char :=
  let leap := t.nano / 1000000000
  t.date.chars ++ ' ' :: padded 2 (t.second / 3600) ++ ':' :: padded 2 (t.second / 60 % 60)
    ++ ':' :: padded 2 (t.second % 60 + leap) ++ fractionChars (t.nano % 1000000000)

/-- The text of a timestamp. -/
def render (t : Timestamp) : String := String.ofList t.chars

end Timestamp

end WorkflowCanvas
