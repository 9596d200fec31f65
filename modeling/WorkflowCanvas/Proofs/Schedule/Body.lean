import WorkflowCanvas.Proofs.Calendar.Written
import WorkflowCanvas.Proofs.Json.Stored
import WorkflowCanvas.Schedule

/-!
# Schedules on the wire

However leniently a date and a time were typed, the body of the request holds the text that they are
written as, and that text names the same date and minute again.  A cron text goes out as it was
typed.  So the service can build the request anew from what it is sent (`choiceSurvives`).
-/

namespace WorkflowCanvas

/-! ## Choosing -/

namespace Date

/-- A written date has no white space at its ends. -/
lemma trim_chars (d : Date) : Text.trim d.chars = d.chars := by
  refine Text.trim_eq_self (fun c hc => ?_) fun c hc => ?_
  · by_cases hyear : 0 ≤ d.year ∧ d.year ≤ 9999
    · obtain ⟨first, rest, htext, hdigit⟩ := (writes_year hyear).exists_cons (by decide)
      obtain rfl : first = c := by simpa [chars, htext] using hc
      exact Text.isBlank_of_isDigit hdigit
    · obtain ⟨_, _, _, htext⟩ := yearChars_signed hyear
      obtain rfl : (if d.year < 0 then '-' else '+') = c := by simpa [chars, htext] using hc
      split <;> rfl
  · rw [chars, List.append_cons] at hc
    exact Text.isBlank_of_isDigit (d.writes_day.isDigit_of_getLast? (by decide) hc)

end Date

namespace ClockTime

/-- A written minute has no white space at its ends. -/
lemma trim_chars (t : ClockTime) : Text.trim t.chars = t.chars := by
  refine Text.trim_eq_self (fun c hc => ?_) fun c hc => ?_
  · obtain ⟨first, rest, htext, hdigit⟩ := t.writes_hour.exists_cons (by decide)
    obtain rfl : first = c := by simpa [chars, htext] using hc
    exact Text.isBlank_of_isDigit hdigit
  · rw [chars, List.append_cons] at hc
    exact Text.isBlank_of_isDigit (t.writes_minute.isDigit_of_getLast? (by decide) hc)

end ClockTime

namespace ScheduleSpec

@[simp] lemma choose_true (date time cron : String) :
    choose true date time cron = ofTexts date time :=
  rfl

@[simp] lemma choose_false (date time cron : String) :
    choose false date time cron = ofCron cron :=
  rfl

/-- A single run is accepted exactly when its texts name a date and a minute. -/
lemma ofTexts_eq_ok_iff {date time : String} {spec : ScheduleSpec} :
    ofTexts date time = .ok spec ↔ ∃ d t, Calendar.date? (Text.trim date.toList) = some d ∧
      Calendar.clockTime? (Text.trim time.toList) = some t ∧ spec = .once d t := by
  unfold ofTexts
  cases Calendar.date? (Text.trim date.toList) with
  | none => simp
  | some d =>
    cases Calendar.clockTime? (Text.trim time.toList) with
    | none => simp
    | some t => simp [eq_comm]

/-- Every date and minute is chosen by what it is written as. -/
lemma ofTexts_render (d : Date) (t : ClockTime) : ofTexts d.render t.render = .ok (.once d t) := by
  refine ofTexts_eq_ok_iff.2 ⟨d, t, ?_, ?_, rfl⟩
  · rw [Date.render, String.toList_ofList, d.trim_chars, Calendar.date?_chars]
  · rw [ClockTime.render, String.toList_ofList, t.trim_chars, Calendar.clockTime?_chars]

/-- A cron text is accepted exactly when it is not blank, and it is kept as it is. -/
lemma ofCron_eq_ok_iff {cron : String} {spec : ScheduleSpec} :
    ofCron cron = .ok spec ↔
      (∃ c ∈ cron.toList, Text.isBlank c = false) ∧ spec = .cron cron := by
  have hblank : Text.isBlankText cron = false ↔ ∃ c ∈ cron.toList, Text.isBlank c = false := by
    simp [Text.isBlankText]
  unfold ofCron
  rw [← hblank]
  cases Text.isBlankText cron <;> simp [eq_comm]

end ScheduleSpec

/-! ## Bodies -/

namespace ScheduleBody

/-- The body asks for a single run and nothing else. -/
def IsSingle (body : ScheduleBody) : Prop :=
  body.once = some true ∧ body.date.isSome ∧ body.time.isSome ∧ body.cron = none

/-- The body asks for recurring runs by this text and nothing else. -/
def IsRecurring (body : ScheduleBody) (cron : String) : Prop :=
  body.once = none ∧ body.date = none ∧ body.time = none ∧ body.cron = some cron

/-- The request that is built anew from a body; inputs that it does not hold are empty. -/
def request (body : ScheduleBody) : Except ScheduleError ScheduleRequest :=
  (ScheduleSpec.choose (body.once.getD false) (body.date.getD "") (body.time.getD "")
    (body.cron.getD "")).map (ScheduleRequest.mk body.workflow)

/-- A body is read back from its text in either layout. -/
lemma read_written (layout : Json.Layout) (body : ScheduleBody) :
    Json.read (String.ofList ((Json.toTree body).chars layout)) = .ok body :=
  Json.read_written (by decide +kernel) (by decide +kernel) layout body

end ScheduleBody

/-- What becomes of a schedule that was chosen by the answer `once`, with `cron` for its text. -/
structure SurvivesWire (once : Bool) (cron : String) (schedule : ScheduleRequest) : Prop where
  single : once = true → schedule.body.IsSingle
  recurring : once = false → schedule.body.IsRecurring cron
  /-- The text of the body is read as a body, and this as the same schedule. -/
  returns : ∀ layout, ∃ body : ScheduleBody,
    Json.read (String.ofList ((Json.toTree schedule.body).chars layout)) = .ok body ∧
      body.request = .ok schedule

lemma survivesWire_once (cron : String) (workflow : String) (d : Date) (t : ClockTime) :
    SurvivesWire true cron ⟨workflow, .once d t⟩ where
  single _ := ⟨rfl, rfl, rfl, rfl⟩
  recurring h := by cases h
  returns layout := by
    refine ⟨_, ScheduleBody.read_written layout _, ?_⟩
    simp [ScheduleBody.request, ScheduleRequest.body, ScheduleSpec.ofTexts_render, Except.map]

lemma survivesWire_cron {cron : String} (workflow : String)
    (h : ∃ c ∈ cron.toList, Text.isBlank c = false) :
    SurvivesWire false cron ⟨workflow, .cron cron⟩ where
  single h := by cases h
  recurring _ := ⟨rfl, rfl, rfl, rfl⟩
  returns layout := by
    have hchosen : ScheduleSpec.ofCron cron = .ok (.cron cron) :=
      ScheduleSpec.ofCron_eq_ok_iff.2 ⟨h, rfl⟩
    refine ⟨_, ScheduleBody.read_written layout _, ?_⟩
    simp [ScheduleBody.request, ScheduleRequest.body, hchosen, Except.map]

/-- What holds of the inputs of a schedule, and of the schedule if they are accepted. -/
structure ChoiceSurvives (workflow : String) (once : Bool) (date time cron : String) : Prop where
  survives : ∀ spec, ScheduleSpec.choose once date time cron = .ok spec →
    SurvivesWire once cron ⟨workflow, spec⟩
  /-- There is no date of the calendar and no minute that cannot be sent. -/
  every_date : ∀ d t, ScheduleSpec.choose true (Date.render d) (ClockTime.render t) cron =
    .ok (.once d t)
  cron_accepted : (∃ spec, ScheduleSpec.choose false date time cron = .ok spec) ↔
    ∃ c ∈ cron.toList, Text.isBlank c = false
  cron_unread : ∀ cron', ScheduleSpec.choose true date time cron' =
    ScheduleSpec.choose true date time cron
  date_unread : ∀ date' time', ScheduleSpec.choose false date' time' cron =
    ScheduleSpec.choose false date time cron

/-- Schedules survive the way to the service, whatever was typed for them. -/
theorem choiceSurvives (workflow : String) (once : Bool) (date time cron : String) :
    ChoiceSurvives workflow once date time cron where
  survives spec accepted := by
    cases once with
    | true =>
      rw [ScheduleSpec.choose_true] at accepted
      obtain ⟨d, t, -, -, rfl⟩ := ScheduleSpec.ofTexts_eq_ok_iff.1 accepted
      exact survivesWire_once cron workflow d t
    | false =>
      rw [ScheduleSpec.choose_false] at accepted
      obtain ⟨hcron, rfl⟩ := ScheduleSpec.ofCron_eq_ok_iff.1 accepted
      exact survivesWire_cron workflow hcron
  every_date d t := by rw [ScheduleSpec.choose_true, ScheduleSpec.ofTexts_render]
  cron_accepted := by simp [ScheduleSpec.ofCron_eq_ok_iff]
  cron_unread _ := by rw [ScheduleSpec.choose_true, ScheduleSpec.choose_true]
  date_unread _ _ := by rw [ScheduleSpec.choose_false, ScheduleSpec.choose_false]

/-- A negative year, parts of one digit and white space in many places are accepted. -/
example : ScheduleSpec.choose true " -7-2-\t9\n" "9: 5" "" =
    .ok (.once ⟨-7, 2, 9, by decide, by decide⟩ ⟨9, 5, by decide, by decide⟩) := by
  decide +kernel

end WorkflowCanvas
