import WorkflowCanvas.Proofs.Schedule.Body

/-!
# The form in which a single run is sent

The service is promised a date `YYYY-MM-DD` and a time `HH:MM`.  Times always have that form.  Dates
have it exactly when their year is one from 0 to 9999 (`Date.isPlainDate_iff`); the others, which
can be typed only with a sign before the year, go out with a sign and are no dates of that form.
-/

namespace WorkflowCanvas

/-- The text is `YYYY-MM-DD` with these numbers. -/
def IsPlainDate (text : List Char) (year month day : Nat) : Prop :=
  ∃ years months days, text = years ++ '-' :: (months ++ '-' :: days) ∧
    Writes 4 year years ∧ Writes 2 month months ∧ Writes 2 day days

/-- The text is `HH:MM` with these numbers. -/
def IsPlainTime (text : List Char) (hour minute : Nat) : Prop :=
  ∃ hours minutes, text = hours ++ ':' :: minutes ∧ Writes 2 hour hours ∧ Writes 2 minute minutes

/-- The text begins with a sign, which digits follow. -/
def IsSigned (text : List Char) : Prop :=
  ∃ sign digit rest, text = sign :: digit :: rest ∧ (sign = '-' ∨ sign = '+') ∧
    digit.isDigit = true

lemma IsPlainDate.not_isSigned {text : List Char} {year month day : Nat}
    (h : IsPlainDate text year month day) : ¬ IsSigned text := by
  rintro ⟨sign, digit, rest, htext, hsign, -⟩
  obtain ⟨years, months, days, rfl, hyear, -, -⟩ := h
  obtain ⟨c, more, rfl, hc⟩ := hyear.exists_cons (by decide)
  obtain rfl : c = sign := (List.cons.inj htext).1
  rcases hsign with rfl | rfl <;> simp at hc

/-! ## What is written -/

namespace Date

lemma chars_eq (d : Date) :
    d.chars = yearChars d.year ++ '-' :: (padded 2 d.month ++ '-' :: padded 2 d.day) := by
  simp [chars]

lemma isSigned_chars {d : Date} (hyear : ¬ (0 ≤ d.year ∧ d.year ≤ 9999)) : IsSigned d.chars := by
  obtain ⟨width, hwidth, hwrites, htext⟩ := yearChars_signed hyear
  obtain ⟨digit, rest, hdigits, hdigit⟩ := hwrites.exists_cons (by omega)
  rw [chars_eq, htext, hdigits]
  refine ⟨_, digit, _, rfl, ?_, hdigit⟩
  split
  · exact .inl rfl
  · exact .inr rfl

/-- The text of a date has the plain form exactly when the year needs no sign and no fifth digit,
and then it names this date. -/
theorem isPlainDate_iff (d : Date) {year month day : Nat} :
    IsPlainDate d.chars year month day ↔
      d.year = year ∧ year ≤ 9999 ∧ d.month = month ∧ d.day = day := by
  by_cases hyear : 0 ≤ d.year ∧ d.year ≤ 9999
  · have hwrites := writes_year hyear
    constructor
    · rintro ⟨years, months, days, htext, hy, hm, hd⟩
      rw [chars_eq] at htext
      obtain ⟨rfl, hrest⟩ := List.append_inj htext (hwrites.length_eq.trans hy.length_eq.symm)
      obtain ⟨rfl, hlast⟩ := List.append_inj (List.cons.inj hrest).2
        (d.writes_month.length_eq.trans hm.length_eq.symm)
      obtain rfl := (List.cons.inj hlast).2
      have hsame := hwrites.unique hy
      exact ⟨by omega, by omega, d.writes_month.unique hm, d.writes_day.unique hd⟩
    · rintro ⟨hy, -, rfl, rfl⟩
      have habs : d.year.natAbs = year := by omega
      exact ⟨_, _, _, d.chars_eq, habs ▸ hwrites, d.writes_month, d.writes_day⟩
  · constructor
    · intro h
      exact absurd (isSigned_chars hyear) h.not_isSigned
    · rintro ⟨hy, hle, -, -⟩
      omega

end Date

lemma ClockTime.isPlainTime (t : ClockTime) : IsPlainTime t.chars t.hour t.minute :=
  ⟨_, _, rfl, t.writes_hour, t.writes_minute⟩

/-! ## What is typed -/

namespace Calendar

/-- A year that is typed without a sign has at most four digits. -/
lemma year_of_unsigned {text rest : List Char} {year : Int}
    (unsigned : ∀ c ∈ (Text.trimStart text).head?, c ≠ '-' ∧ c ≠ '+')
    (h : readYear text = some (year, rest)) : 0 ≤ year ∧ year ≤ 9999 := by
  unfold readYear at h
  split at h
  · next heq => exact absurd rfl (unsigned '-' (by simp [heq])).1
  · next heq => exact absurd rfl (unsigned '+' (by simp [heq])).2
  · obtain ⟨⟨n, rest'⟩, hread, heq⟩ := Option.map_eq_some_iff.1 h
    obtain ⟨rfl, rfl⟩ := Prod.mk.inj heq
    have hlt := lt_of_readNumber hread
    omega

/-- The year of a date that is read is the one that its text begins with. -/
lemma exists_readYear_of_date? {text : List Char} {d : Date} (h : date? text = some d) :
    ∃ rest, readYear text = some (d.year, rest) := by
  simp only [date?, readDate, bind, Option.bind_eq_some_iff] at h
  obtain ⟨⟨⟨year, month, day⟩, rest⟩, ⟨⟨year', behind⟩, hyear, hmore⟩, hdate⟩ := h
  obtain ⟨_, -, _, -, _, -, _, -, hparts⟩ := hmore
  have hsame : year' = year := by
    simp only [Option.some.injEq, Prod.mk.injEq] at hparts
    exact hparts.1.1
  dsimp only at hdate
  split at hdate
  · rw [(Date.parts_of_of? hdate).1, ← hsame]
    exact ⟨behind, hyear⟩
  · cases hdate

end Calendar

/-! ## What is sent -/

/-- The texts of the date and the time of a single run, as they are sent for the date `d` that was
typed as `typed` and the time `t`. -/
structure SentAs (typed : String) (d : Date) (t : ClockTime) (date time : String) : Prop where
  time_plain : IsPlainTime time.toList t.hour t.minute
  minute_exists : t.hour < 24 ∧ t.minute < 60
  date_plain : ∀ year month day, IsPlainDate date.toList year month day ↔
    d.year = year ∧ year ≤ 9999 ∧ d.month = month ∧ d.day = day
  day_exists : (1 ≤ d.month ∧ d.month ≤ 12) ∧ 1 ≤ d.day ∧ d.day ≤ daysInMonth d.year d.month
  /-- Outside the years 0 to 9999 the form is broken. -/
  date_signed : ¬ (0 ≤ d.year ∧ d.year ≤ 9999) → IsSigned date.toList
  /-- A date that is typed without a sign is never one of those. -/
  unsigned : (∀ c ∈ (Text.trim typed.toList).head?, c ≠ '-' ∧ c ≠ '+') →
    0 ≤ d.year ∧ d.year ≤ 9999

/-- How a single run is sent whose date and time are accepted. -/
theorem singleRun_sentAs {date time : String} {spec : ScheduleSpec}
    (accepted : ScheduleSpec.ofTexts date time = .ok spec) (workflow : String) :
    ∃ d t dateText timeText, spec = .once d t ∧
      ScheduleRequest.body ⟨workflow, spec⟩ =
        ⟨workflow, some true, some dateText, some timeText, none⟩ ∧
      SentAs date d t dateText timeText := by
  obtain ⟨d, t, hdate, -, rfl⟩ := ScheduleSpec.ofTexts_eq_ok_iff.1 accepted
  refine ⟨d, t, d.render, t.render, rfl, rfl, ?_⟩
  constructor
  case time_plain =>
    rw [ClockTime.render, String.toList_ofList]
    exact t.isPlainTime
  case minute_exists => exact ⟨t.hour_lt, t.minute_lt⟩
  case date_plain =>
    intro year month day
    rw [Date.render, String.toList_ofList]
    exact d.isPlainDate_iff
  case day_exists => exact ⟨⟨d.month_pos, d.month_le⟩, d.day_mem⟩
  case date_signed =>
    intro hyear
    rw [Date.render, String.toList_ofList]
    exact Date.isSigned_chars hyear
  case unsigned =>
    intro hunsigned
    obtain ⟨rest, hread⟩ := Calendar.exists_readYear_of_date? hdate
    rw [← Text.trimStart_trim] at hunsigned
    exact Calendar.year_of_unsigned hunsigned hread

/-- A date with one-digit parts is sent in the documented form, and one with a hyphen typed before
it goes out as a date of the year -2026, which has not that form. -/
theorem singleRun_sentAs_samples :
    (∃ spec, ScheduleSpec.ofTexts "2026-1-2" "9:30" = .ok spec ∧
      (ScheduleRequest.body ⟨"report", spec⟩).date = some "2026-01-02" ∧
      IsPlainDate "2026-01-02".toList 2026 1 2) ∧
    ∃ spec, ScheduleSpec.ofTexts "-2026-10-14" "09:30" = .ok spec ∧
      (ScheduleRequest.body ⟨"report", spec⟩).date = some "-2026-10-14" ∧
      ∀ year month day, ¬ IsPlainDate "-2026-10-14".toList year month day := by
  constructor
  · have haccepted : ScheduleSpec.ofTexts "2026-1-2" "9:30" =
        .ok (.once ⟨2026, 1, 2, by decide, by decide⟩ ⟨9, 30, by decide, by decide⟩) := by
      decide +kernel
    refine ⟨_, haccepted, by decide +kernel, ?_⟩
    obtain ⟨d, t, dateText, timeText, hspec, hbody, hsent⟩ := singleRun_sentAs haccepted "report"
    obtain ⟨rfl, rfl⟩ := ScheduleSpec.once.inj hspec
    obtain rfl : "2026-01-02" = dateText := by
      refine Option.some.inj (Eq.trans ?_ (congrArg ScheduleBody.date hbody))
      decide +kernel
    exact (hsent.date_plain 2026 1 2).2 (by decide)
  · have haccepted : ScheduleSpec.ofTexts "-2026-10-14" "09:30" =
        .ok (.once ⟨-2026, 10, 14, by decide, by decide⟩ ⟨9, 30, by decide, by decide⟩) := by
      decide +kernel
    refine ⟨_, haccepted, by decide +kernel, ?_⟩
    intro year month day hplain
    obtain ⟨d, t, dateText, timeText, hspec, hbody, hsent⟩ := singleRun_sentAs haccepted "report"
    obtain ⟨rfl, rfl⟩ := ScheduleSpec.once.inj hspec
    obtain rfl : "-2026-10-14" = dateText := by
      refine Option.some.inj (Eq.trans ?_ (congrArg ScheduleBody.date hbody))
      decide +kernel
    have hyear := ((hsent.date_plain year month day).1 hplain).1
    dsimp only at hyear
    omega

end WorkflowCanvas
