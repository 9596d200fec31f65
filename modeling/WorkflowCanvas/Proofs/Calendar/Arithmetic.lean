import Mathlib.Tactic.IntervalCases
import WorkflowCanvas.Proofs.Calendar.Order

/-!
# Arithmetic on dates and timestamps

The day after a date has the next number and the day before it the previous one, so that
`Date.dayNumber` counts the days of the calendar without a gap, whichever month, year or 29 February
lies between them.  A timestamp that is no leap second is a whole number of nanoseconds
(`Timestamp.IsAt`), and moving it by less than a day adds to that number or takes from it.
-/

namespace WorkflowCanvas

namespace Date

/-! ## The day after and the day before -/

lemma exists_of? (year : Int) (month day : Nat) (hyear : minYear ≤ year ∧ year ≤ maxYear)
    (hday : 1 ≤ day ∧ day ≤ daysInMonth year month) :
    ∃ d, of? year month day = some d ∧
      d.dayNumber = daysBeforeYear year + daysBeforeMonth year month + day :=
  ⟨⟨year, month, day, hyear, hday⟩, dif_pos ⟨hyear, hday⟩, rfl⟩

lemma one_le_daysInMonth (year : Int) (month : Nat) (hmonth : 1 ≤ month ∧ month ≤ 12) :
    1 ≤ daysInMonth year month := by
  obtain ⟨hfirst, hlast⟩ := hmonth
  interval_cases month <;> simp only [daysInMonth] <;> (try split) <;> decide

/-- The first of January comes right behind the last of December. -/
lemma daysBeforeYear_succ_eq (year : Int) :
    daysBeforeYear (year + 1) = daysBeforeYear year + daysBeforeMonth year 12 + 31 := by
  have hlast : daysBeforeMonth year 13 = daysBeforeMonth year 12 + 31 :=
    daysBeforeMonth_succ year 12
  rw [daysBeforeYear_succ]
  omega

/-- Before the last year of the calendar every day has a day after it, which has the next number. -/
lemma next?_dayNumber {d : Date} (hyear : d.year < maxYear) :
    ∃ e, d.next? = some e ∧ e.dayNumber = d.dayNumber + 1 := by
  obtain ⟨hfirst, hlast⟩ := d.day_mem
  have hle := d.month_le
  unfold next?
  split
  case isTrue inside =>
    obtain ⟨e, he, hnumber⟩ :=
      exists_of? d.year d.month (d.day + 1) d.year_mem ⟨by omega, inside⟩
    refine ⟨e, he, ?_⟩
    rw [hnumber, dayNumber]
    omega
  case isFalse monthEnds =>
    split
    case isTrue _ =>
      have hday := one_le_daysInMonth d.year (d.month + 1) (by omega)
      have hmonths := daysBeforeMonth_succ d.year d.month
      obtain ⟨e, he, hnumber⟩ := exists_of? d.year _ _ d.year_mem ⟨Nat.le_refl 1, hday⟩
      refine ⟨e, he, ?_⟩
      rw [hnumber, dayNumber]
      omega
    case isFalse _ =>
      have hdecember : d.month = 12 := by omega
      have hdays : daysInMonth d.year d.month = 31 := by rw [hdecember]; rfl
      have hnone : daysBeforeMonth (d.year + 1) 1 = 0 := rfl
      have hmember := d.year_mem
      have hday := one_le_daysInMonth (d.year + 1) 1 (by decide)
      obtain ⟨e, he, hnumber⟩ := exists_of? (d.year + 1) 1 1 (by omega) ⟨Nat.le_refl 1, hday⟩
      refine ⟨e, he, ?_⟩
      rw [hnumber, daysBeforeYear_succ_eq, dayNumber, hdecember]
      omega

/-- Behind the first year of the calendar every day has a day before it, which has the previous
number. -/
lemma previous?_dayNumber {d : Date} (hyear : minYear < d.year) :
    ∃ e, d.previous? = some e ∧ e.dayNumber = d.dayNumber - 1 := by
  obtain ⟨hfirst, hlast⟩ := d.day_mem
  have hle := d.month_le
  have hpos := d.month_pos
  unfold previous?
  split
  case isTrue inside =>
    obtain ⟨e, he, hnumber⟩ := exists_of? d.year d.month (d.day - 1) d.year_mem (by omega)
    refine ⟨e, he, ?_⟩
    rw [hnumber, dayNumber]
    omega
  case isFalse monthBegins =>
    split
    case isTrue _ =>
      obtain ⟨month, hmonth⟩ : ∃ month, d.month = month + 1 := ⟨d.month - 1, by omega⟩
      have hday := one_le_daysInMonth d.year month (by omega)
      have hmonths := daysBeforeMonth_succ d.year month
      rw [hmonth, Nat.add_sub_cancel]
      obtain ⟨e, he, hnumber⟩ := exists_of? d.year month _ d.year_mem ⟨hday, Nat.le_refl _⟩
      refine ⟨e, he, ?_⟩
      rw [hnumber, dayNumber, hmonth]
      omega
    case isFalse _ =>
      have hjanuary : d.month = 1 := by omega
      have hnone : daysBeforeMonth d.year 1 = 0 := rfl
      have hyears := daysBeforeYear_succ_eq (d.year - 1)
      rw [Int.sub_add_cancel] at hyears
      have hmember := d.year_mem
      obtain ⟨e, he, hnumber⟩ :=
        exists_of? (d.year - 1) 12 31 (by omega) ⟨by decide, Nat.le_refl 31⟩
      refine ⟨e, he, ?_⟩
      rw [hnumber, dayNumber, hjanuary, hyears]
      omega

end Date

namespace Timestamp

/-! ## Nanoseconds -/

/-- The nanoseconds from the start of the year 0. -/
def nanoseconds (t : Timestamp) : Int :=
  (t.date.dayNumber * 86400 + t.second) * 1000000000 + t.nano

/-- The timestamp is at an instant, and is not a leap second. -/
def IsAt (t : Timestamp) (instant : Int) : Prop :=
  t.nano < 1000000000 ∧ t.nanoseconds = instant

variable {s t : Timestamp} {m n : Int} {seconds : Nat}

lemma IsAt.before_iff (hs : s.IsAt m) (ht : t.IsAt n) : s.Before t ↔ m < n := by
  obtain ⟨hsnano, rfl⟩ := hs
  obtain ⟨htnano, rfl⟩ := ht
  rw [← rank_lt_iff, rank, rank, nanoseconds, nanoseconds]
  omega

/-- There is one timestamp of an instant. -/
lemma IsAt.unique (hs : s.IsAt n) (ht : t.IsAt n) : s = t := by
  apply rank_injective
  obtain ⟨hsnano, hs⟩ := hs
  obtain ⟨htnano, ht⟩ := ht
  rw [nanoseconds] at hs ht
  rw [rank, rank]
  omega

lemma exists_later? (ht : t.IsAt n) (hyear : t.date.year < maxYear) (hless : seconds < 86400) :
    ∃ u, t.later? seconds = some u ∧ u.IsAt (n + seconds * 1000000000) := by
  obtain ⟨hnano, rfl⟩ := ht
  have hsecond := t.second_lt
  unfold later?
  split
  · refine ⟨_, rfl, hnano, ?_⟩
    simp only [nanoseconds]
    omega
  · obtain ⟨date, hnext, hnumber⟩ := Date.next?_dayNumber hyear
    rw [hnext]
    refine ⟨_, rfl, hnano, ?_⟩
    simp only [nanoseconds]
    omega

lemma exists_earlier? (ht : t.IsAt n) (hyear : minYear < t.date.year) (hless : seconds < 86400) :
    ∃ u, t.earlier? seconds = some u ∧ u.IsAt (n - seconds * 1000000000) := by
  obtain ⟨hnano, rfl⟩ := ht
  have hsecond := t.second_lt
  unfold earlier?
  split
  · refine ⟨_, rfl, hnano, ?_⟩
    simp only [nanoseconds]
    omega
  · obtain ⟨date, hprevious, hnumber⟩ := Date.previous?_dayNumber hyear
    rw [hprevious]
    refine ⟨_, rfl, hnano, ?_⟩
    simp only [nanoseconds]
    omega

end Timestamp

end WorkflowCanvas
