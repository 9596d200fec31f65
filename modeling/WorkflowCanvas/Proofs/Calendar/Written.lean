import WorkflowCanvas.Proofs.Calendar.Digits
import WorkflowCanvas.Proofs.Calendar.Order
import WorkflowCanvas.Proofs.Text.Trim

/-!
# Dates and times as they are written

The lenient readers take every date and every minute back from the text that it is written as
(`Calendar.date?_chars`, `Calendar.clockTime?_chars`), also the dates whose year has a sign because
it needs more than four digits or lies before the year 0.
-/

namespace WorkflowCanvas

/-! ## The parts of dates and times -/

namespace Date

lemma of?_self (d : Date) : of? d.year d.month d.day = some d :=
  dif_pos ⟨d.year_mem, d.day_mem⟩

lemma parts_of_of? {year : Int} {month day : Nat} {d : Date} (h : of? year month day = some d) :
    d.year = year ∧ d.month = month ∧ d.day = day := by
  obtain ⟨_, heq⟩ := Option.dite_none_right_eq_some.1 h
  obtain rfl := Option.some.inj heq
  exact ⟨rfl, rfl, rfl⟩

lemma day_le (d : Date) : d.day ≤ 31 := by
  refine d.day_mem.2.trans ?_
  unfold daysInMonth
  split <;> (try split) <;> omega

lemma writes_month (d : Date) : Writes 2 d.month (padded 2 d.month) :=
  writes_two (Nat.lt_of_le_of_lt d.month_le (by decide))

lemma writes_day (d : Date) : Writes 2 d.day (padded 2 d.day) :=
  writes_two (Nat.lt_of_le_of_lt d.day_le (by decide))

lemma writes_year {year : Int} (hyear : 0 ≤ year ∧ year ≤ 9999) :
    Writes 4 year.natAbs (yearChars year) := by
  rw [yearChars, if_pos hyear]
  exact writes_padded_of_lt (by decide) (by omega)

/-- A year that is negative or needs more than four digits has a sign before its digits. -/
lemma yearChars_signed {year : Int} (hyear : ¬ (0 ≤ year ∧ year ≤ 9999)) :
    ∃ width, 4 ≤ width ∧ Writes width year.natAbs (padded 4 year.natAbs) ∧
      yearChars year = (if year < 0 then '-' else '+') :: padded 4 year.natAbs :=
  ⟨_, Nat.le_max_left _ _, writes_padded 4 year.natAbs, if_neg hyear⟩

end Date

namespace ClockTime

lemma of?_self (t : ClockTime) : of? t.hour t.minute = some t :=
  dif_pos ⟨t.hour_lt, t.minute_lt⟩

lemma writes_hour (t : ClockTime) : Writes 2 t.hour (padded 2 t.hour) :=
  writes_two (Nat.lt_trans t.hour_lt (by decide))

lemma writes_minute (t : ClockTime) : Writes 2 t.minute (padded 2 t.minute) :=
  writes_two (Nat.lt_trans t.minute_lt (by decide))

end ClockTime

namespace Calendar

variable {rest : List Char}

/-! ## Reading the parts -/

lemma readShort_append {n : Nat} {cs : List Char} (h : Writes 2 n cs) :
    readShort (cs ++ rest) = some (n, rest) := by
  have htrim : Text.trimStart (cs ++ rest) = cs ++ rest := by
    obtain ⟨c, more, rfl, hc⟩ := h.exists_cons (by decide)
    exact Text.trimStart_cons_of_not_isBlank (Text.isBlank_of_isDigit hc)
  rw [readShort, htrim]
  exact readNumber_append h (by decide) (Nat.le_refl 2) (.inl rfl)

lemma readYear_append (year : Int) (hrest : NoDigit rest) :
    readYear (Date.yearChars year ++ rest) = some (year, rest) := by
  by_cases hyear : 0 ≤ year ∧ year ≤ 9999
  · have hwrites := Date.writes_year hyear
    obtain ⟨c, more, htext, hc⟩ := hwrites.exists_cons (by decide)
    have hread : readNumber 1 4 (Date.yearChars year ++ rest) = some (year.natAbs, rest) :=
      readNumber_append hwrites (by decide) (Nat.le_refl 4) (.inl rfl)
    have hunsigned : c ≠ '-' ∧ c ≠ '+' := by
      constructor <;> rintro rfl <;> simp at hc
    have habs : (year.natAbs : Int) = year := by omega
    rw [htext] at hread ⊢
    rw [List.cons_append] at hread ⊢
    rw [readYear, Text.trimStart_cons_of_not_isBlank (Text.isBlank_of_isDigit hc)]
    split
    · next heq => exact absurd (List.cons.inj heq).1 hunsigned.1
    · next heq => exact absurd (List.cons.inj heq).1 hunsigned.2
    · simp only [hread, Option.map_some, habs]
  · obtain ⟨width, hwidth, hwrites, htext⟩ := Date.yearChars_signed hyear
    have hread : readNumber 1 (padded 4 year.natAbs ++ rest).length
        (padded 4 year.natAbs ++ rest) = some (year.natAbs, rest) := by
      refine readNumber_append hwrites (by omega) ?_ (.inr hrest)
      simp [hwrites.length_eq]
    rw [htext]
    by_cases hsign : year < 0
    · have habs : -(year.natAbs : Int) = year := by omega
      rw [if_pos hsign, List.cons_append, readYear, Text.trimStart_cons_of_not_isBlank rfl]
      simp only [hread, Option.map_some, habs]
    · have habs : (year.natAbs : Int) = year := by omega
      rw [if_neg hsign, List.cons_append, readYear, Text.trimStart_cons_of_not_isBlank rfl]
      simp only [hread, Option.map_some, habs]

/-! ## Dates and minutes -/

/-- A written date is read, and what follows is left. -/
lemma readDate_append (d : Date) (rest : List Char) :
    readDate (d.chars ++ rest) = some ((d.year, d.month, d.day), rest) := by
  have hhyphen : ∀ text, NoDigit ('-' :: text) := fun _ => noDigit_cons rfl
  simp [readDate, Date.chars, readYear_append d.year (hhyphen _), readChar,
    readShort_append d.writes_month, readShort_append d.writes_day]

lemma readClock_append {hour minute : Nat} {hours minutes : List Char} (hhour : Writes 2 hour hours)
    (hminute : Writes 2 minute minutes) (rest : List Char) :
    readClock (hours ++ ':' :: (minutes ++ rest)) = some ((hour, minute), rest) := by
  simp [readClock, readChar, readShort_append hhour, readShort_append hminute]

/-- Every date is read from what it is written as. -/
theorem date?_chars (d : Date) : date? d.chars = some d := by
  have hread := readDate_append d []
  rw [List.append_nil] at hread
  simp [date?, hread, d.of?_self]

/-- Every minute is read from what it is written as. -/
theorem clockTime?_chars (t : ClockTime) : clockTime? t.chars = some t := by
  have hread := readClock_append t.writes_hour t.writes_minute []
  rw [List.append_nil] at hread
  simp [clockTime?, ClockTime.chars, hread, t.of?_self]

end Calendar

end WorkflowCanvas
