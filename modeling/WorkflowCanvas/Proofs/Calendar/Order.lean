import Mathlib.Data.Int.Init
import Mathlib.Data.Nat.Init
import Mathlib.Order.Basic
import WorkflowCanvas.Calendar.Timestamp

/-!
# The order of dates and timestamps

Days follow each other by year, month and day, and timestamps by day, second and nanosecond.  The
numbers that arithmetic uses instead, `Date.dayNumber` and `Timestamp.rank`, keep this order
(`Date.dayNumber_lt_iff`, `Timestamp.rank_lt_iff`), so that they are equal only for equal days and
timestamps.
-/

namespace WorkflowCanvas

namespace Date

/-! ## Months and years in days -/

lemma daysBeforeMonth_succ (year : Int) (month : Nat) :
    daysBeforeMonth year (month + 1) = daysBeforeMonth year month + daysInMonth year month := rfl

lemma daysBeforeMonth_mono (year : Int) {month later : Nat} (hle : month ≤ later) :
    daysBeforeMonth year month ≤ daysBeforeMonth year later := by
  induction later, hle using Nat.le_induction with
  | base => exact Nat.le_refl _
  | succ later _ ih =>
    rw [daysBeforeMonth_succ]
    exact Nat.le_add_right_of_le ih

/-- A year has the days of its twelve months. -/
lemma daysBeforeYear_succ (year : Int) :
    daysBeforeYear (year + 1) = daysBeforeYear year + daysBeforeMonth year 13 := by
  by_cases hleap : isLeapYear year = true
  · have hdays : daysBeforeMonth year 13 = 366 := by
      simp [daysBeforeMonth, daysInMonth, hleap]
    have hyear : year % 4 = 0 ∧ (year % 100 ≠ 0 ∨ year % 400 = 0) := by
      simpa [isLeapYear] using hleap
    rw [hdays, daysBeforeYear, daysBeforeYear]
    omega
  · have hdays : daysBeforeMonth year 13 = 365 := by
      simp [daysBeforeMonth, daysInMonth, hleap]
    have hyear : ¬ (year % 4 = 0 ∧ (year % 100 ≠ 0 ∨ year % 400 = 0)) := by
      simpa [isLeapYear] using hleap
    rw [hdays, daysBeforeYear, daysBeforeYear]
    omega

lemma daysBeforeYear_mono {year later : Int} (hle : year ≤ later) :
    daysBeforeYear year ≤ daysBeforeYear later := by
  induction later, hle using Int.leInduction with
  | base => exact Int.le_refl _
  | succ later _ ih =>
    rw [daysBeforeYear_succ]
    omega

lemma month_le (d : Date) : d.month ≤ 12 := by
  obtain ⟨hday, hlast⟩ := d.day_mem
  by_contra hgt
  have hnone : daysInMonth d.year d.month = 0 := by
    unfold daysInMonth
    split <;> omega
  omega

lemma month_pos (d : Date) : 1 ≤ d.month := by
  obtain ⟨hday, hlast⟩ := d.day_mem
  by_contra hzero
  have hnone : d.month = 0 := by omega
  rw [hnone] at hlast
  simp [daysInMonth] at hlast
  omega

/-! ## The order of days -/

/-- A day comes before another. -/
def Before (d e : Date) : Prop :=
  d.year < e.year ∨ d.year = e.year ∧
    (d.month < e.month ∨ d.month = e.month ∧ d.day < e.day)

lemma before_or_eq_or_before (d e : Date) : d.Before e ∨ d = e ∨ e.Before d := by
  obtain ⟨year, month, day, -, -⟩ := d
  obtain ⟨year', month', day', -, -⟩ := e
  simp only [Before, Date.mk.injEq]
  omega

/-- A day has a greater number than the days before it. -/
lemma dayNumber_lt {d e : Date} (before : d.Before e) : d.dayNumber < e.dayNumber := by
  have hday := d.day_mem.2
  have hday' := e.day_mem.1
  have hmonth := daysBeforeMonth_succ d.year d.month
  unfold dayNumber
  obtain hyear | ⟨hyear, hmonths | ⟨hsame, hdays⟩⟩ := before
  · have hrest : daysBeforeMonth d.year (d.month + 1) ≤ daysBeforeMonth d.year 13 :=
      daysBeforeMonth_mono d.year (Nat.add_le_add_right d.month_le 1)
    have hnext := daysBeforeYear_succ d.year
    have hyears := daysBeforeYear_mono (Int.add_one_le_of_lt hyear)
    omega
  · have hrest : daysBeforeMonth d.year (d.month + 1) ≤ daysBeforeMonth d.year e.month :=
      daysBeforeMonth_mono d.year hmonths
    rw [← hyear]
    omega
  · rw [← hyear, ← hsame]
    omega

lemma dayNumber_lt_iff {d e : Date} : d.dayNumber < e.dayNumber ↔ d.Before e := by
  refine ⟨fun hlt => ?_, dayNumber_lt⟩
  obtain before | rfl | after := d.before_or_eq_or_before e
  · exact before
  · exact absurd hlt (Int.lt_irrefl _)
  · exact absurd (dayNumber_lt after) (Int.lt_asymm hlt)

lemma dayNumber_injective {d e : Date} (h : d.dayNumber = e.dayNumber) : d = e := by
  obtain before | same | after := d.before_or_eq_or_before e
  · exact absurd h (Int.ne_of_lt (dayNumber_lt before))
  · exact same
  · exact absurd h.symm (Int.ne_of_lt (dayNumber_lt after))

end Date

namespace Timestamp

/-! ## The order of timestamps -/

/-- A timestamp comes before another. -/
def Before (s t : Timestamp) : Prop :=
  s.date.Before t.date ∨ s.date = t.date ∧
    (s.second < t.second ∨ s.second = t.second ∧ s.nano < t.nano)

/-- A rank tells the day, the second and the nanosecond. -/
theorem rank_lt_iff {s t : Timestamp} : s.rank < t.rank ↔ s.Before t := by
  have hsecond := s.second_lt
  have hsecond' := t.second_lt
  have hnano := s.nano_lt
  have hnano' := t.nano_lt
  have hdate : s.date = t.date ↔ s.date.dayNumber = t.date.dayNumber :=
    ⟨congrArg _, Date.dayNumber_injective⟩
  unfold Before rank
  rw [← Date.dayNumber_lt_iff, hdate]
  omega

/-- Different timestamps have different ranks. -/
lemma rank_injective {s t : Timestamp} (h : s.rank = t.rank) : s = t := by
  have hle : ¬ s.Before t ∧ ¬ t.Before s := by
    rw [← rank_lt_iff, ← rank_lt_iff, h]
    exact ⟨Int.lt_irrefl _, Int.lt_irrefl _⟩
  have hdate : s.date = t.date := by
    obtain before | same | after := s.date.before_or_eq_or_before t.date
    · exact absurd (.inl before) hle.1
    · exact same
    · exact absurd (.inl after) hle.2
  obtain ⟨date, second, nano, _, _⟩ := s
  obtain ⟨date', second', nano', _, _⟩ := t
  dsimp only at hdate
  subst hdate
  simp only [Before, true_and, not_or] at hle
  simp only [Timestamp.mk.injEq, true_and]
  omega

end Timestamp

end WorkflowCanvas
