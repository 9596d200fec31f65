import WorkflowCanvas.Proofs.Calendar.Arithmetic
import WorkflowCanvas.Proofs.Calendar.Written

/-!
# Instants as they are spelled

An instant is spelled as the date and the time that a clock shows, `YYYY-MM-DDThh:mm:ss` with or
without a fraction, and the distance of that clock from universal time, `Z` or hours and minutes
behind a sign.  However it is spelled, `timestamp?` reads it as the instant
(`timestamp?_text`), through the strict reader if the distance is there and through the
lenient one otherwise.
-/

namespace WorkflowCanvas.Calendar

-- Powers of naturals are those of the core library, as in the readers.
attribute [local instance (high)] instPowNat

/-! ## What is spelled -/

/-- A fraction of a second in `width` digits. -/
structure Fraction where
  width : Nat
  /-- The number that the digits write. -/
  value : Nat
  width_mem : 1 ≤ width ∧ width ≤ 9
  value_lt : value < 10 ^ width

namespace Fraction

def nanoseconds (f : Fraction) : Nat := f.value * 10 ^ (9 - f.width)

def chars (f : Fraction) : List Char := '.' :: padded f.width f.value

/-- The fraction is `value` of the `10 ^ width` parts of a second. -/
lemma nanoseconds_mul (f : Fraction) : f.nanoseconds * 10 ^ f.width = f.value * 1000000000 := by
  have hscale : 10 ^ (9 - f.width) * 10 ^ f.width = 10 ^ 9 := by
    rw [← Nat.pow_add, Nat.sub_add_cancel f.width_mem.2]
  rw [nanoseconds, Nat.mul_assoc, hscale]
  rfl

lemma nanoseconds_lt (f : Fraction) : f.nanoseconds < 1000000000 := by
  have hpos : 0 < 10 ^ f.width := Nat.pow_pos (by decide)
  refine Nat.lt_of_mul_lt_mul_right (a := 10 ^ f.width) ?_
  rw [f.nanoseconds_mul, Nat.mul_comm 1000000000]
  exact Nat.mul_lt_mul_of_pos_right f.value_lt (by decide)

lemma writes (f : Fraction) : Writes f.width f.value (padded f.width f.value) :=
  writes_padded_of_lt f.width_mem.1 f.value_lt

end Fraction

/-- A date and a time of day as a clock shows them. -/
structure LocalTime where
  date : Date
  clock : ClockTime
  second : Nat
  /-- Without it no point stands behind the seconds. -/
  fraction : Option Fraction
  year_mem : 0 ≤ date.year ∧ date.year ≤ 9999
  second_lt : second < 60

namespace LocalTime

/-- Date and time as `YYYY-MM-DDThh:mm:ss` with the fraction. -/
def chars (time : LocalTime) : List Char :=
  time.date.chars ++ 'T' :: (time.clock.chars ++ ':' ::
    (padded 2 time.second ++ time.fraction.elim [] Fraction.chars))

/-- The timestamp with the same parts, which the clock shows in universal time. -/
def timestamp (time : LocalTime) : Timestamp where
  date := time.date
  second := (time.clock.hour * 60 + time.clock.minute) * 60 + time.second
  nano := time.fraction.elim 0 Fraction.nanoseconds
  second_lt := by
    have hhour := time.clock.hour_lt
    have hminute := time.clock.minute_lt
    have hsecond := time.second_lt
    omega
  nano_lt := by
    cases time.fraction with
    | none => simp
    | some f => exact Nat.lt_trans f.nanoseconds_lt (by decide)

/-- The nanoseconds from the start of the year 0 to this time, both on the same clock. -/
def nanoseconds (time : LocalTime) : Int := time.timestamp.nanoseconds

lemma isAt_timestamp (time : LocalTime) : time.timestamp.IsAt time.nanoseconds := by
  refine ⟨?_, rfl⟩
  change time.fraction.elim 0 Fraction.nanoseconds < 1000000000
  cases time.fraction with
  | none => decide
  | some f => exact f.nanoseconds_lt

lemma of?_timestamp (time : LocalTime) :
    Timestamp.of? time.date time.clock.hour time.clock.minute time.second
      (time.fraction.elim 0 Fraction.nanoseconds) = some time.timestamp := by
  have hhour := time.clock.hour_lt
  have hminute := time.clock.minute_lt
  have hsecond := time.second_lt
  have hnano := time.isAt_timestamp.1
  have hmin : min time.second 59 = time.second := by omega
  rw [Timestamp.of?, dif_pos ⟨hhour, hminute, by omega, hnano⟩]
  simp [timestamp, hmin, Nat.ne_of_lt hsecond]

lemma writes_second (time : LocalTime) : Writes 2 time.second (padded 2 time.second) :=
  writes_two (Nat.lt_trans time.second_lt (by decide))

end LocalTime

/-- Where a clock stands, seen from universal time. -/
inductive Zone where
  /-- It shows universal time. -/
  | universal
  /-- It is so far behind or ahead. -/
  | distant (behind : Bool) (hours : Fin 24) (minutes : Fin 60)

namespace Zone

/-- The zone as `Z` or `+hh:mm` or `-hh:mm`. -/
def chars : Zone → List Char
  | universal => ['Z']
  | distant behind hours minutes =>
    (if behind then '-' else '+') :: (padded 2 hours ++ ':' :: padded 2 minutes)

/-- How far the clock is ahead. -/
def nanoseconds : Zone → Int
  | universal => 0
  | distant behind hours minutes =>
    let distance : Int := (hours * 60 + minutes) * 60 * 1000000000
    if behind then -distance else distance

/-- The zone as it is read. -/
def offset : Zone → Offset
  | universal => ⟨false, 0⟩
  | distant behind hours minutes => ⟨behind, (hours * 60 + minutes) * 60⟩

lemma offset_seconds_lt (zone : Zone) : zone.offset.seconds < 86400 := by
  cases zone with
  | universal => decide
  | distant behind hours minutes =>
    change (hours.val * 60 + minutes.val) * 60 < 86400
    omega

lemma nanoseconds_eq (zone : Zone) : zone.nanoseconds =
    if zone.offset.behind then -(zone.offset.seconds * 1000000000 : Int)
    else zone.offset.seconds * 1000000000 := by
  cases zone with
  | universal => rfl
  | distant behind hours minutes => simp [nanoseconds, offset]

end Zone

/-- An instant as it is spelled. -/
structure Spelling where
  time : LocalTime
  /-- Without it the clock counts as one of universal time. -/
  zone : Option Zone

namespace Spelling

def chars (s : Spelling) : List Char := s.time.chars ++ s.zone.elim [] Zone.chars

def text (s : Spelling) : String := String.ofList s.chars

/-- The instant in nanoseconds from the start of the year 0 in universal time. -/
def instant (s : Spelling) : Int := s.time.nanoseconds - s.zone.elim 0 Zone.nanoseconds

end Spelling

/-! ## How it is read -/

variable {rest : List Char}

/-- A fraction that is not there is read like one of no nanoseconds. -/
lemma readFraction_elim (fraction : Option Fraction) (hrest : NoDigit rest)
    (hpoint : ∀ c ∈ rest.head?, c ≠ '.') :
    readFraction (fraction.elim [] Fraction.chars ++ rest) =
      some (fraction.elim 0 Fraction.nanoseconds, rest) := by
  cases fraction with
  | none =>
    change readFraction rest = some (0, rest)
    unfold readFraction
    split
    · exact absurd rfl (hpoint '.' rfl)
    · rfl
  | some f =>
    have hwrites := f.writes
    have hlength := hwrites.length_eq
    have htake : takeDigits 9 (padded f.width f.value ++ rest) =
        ((padded f.width f.value).map Decimal.digitOf, rest) :=
      takeDigits_append hwrites.isDigit (hlength.trans_le f.width_mem.2) (.inr hrest)
    have hne : padded f.width f.value ≠ [] := by
      obtain ⟨c, more, heq, -⟩ := hwrites.exists_cons f.width_mem.1
      simp [heq]
    simp [readFraction, Fraction.chars, htake, hne, hwrites.numberOf_eq, hlength,
      dropWhile_of_noDigit hrest, Fraction.nanoseconds]

lemma readNumber_two {n : Nat} {cs : List Char} (h : Writes 2 n cs) :
    readNumber 2 2 (cs ++ rest) = some (n, rest) :=
  readNumber_append h (Nat.le_refl 2) (Nat.le_refl 2) (.inl rfl)

lemma readChar_cons (c : Char) (rest : List Char) : readChar c (c :: rest) = some rest :=
  if_pos rfl

/-- What is read first is handed on to the rest of a reader. -/
lemma bind_of_eq_some {α β : Type} {first : Option α} {a : α} {next : α → Option β}
    (h : first = some a) : first >>= next = next a := by
  rw [h]
  rfl

lemma readOffsetTime_append (behind : Bool) (hours : Fin 24) (minutes : Fin 60) :
    readOffsetTime behind (padded 2 hours ++ ':' :: padded 2 minutes) =
      some (⟨behind, (hours * 60 + minutes) * 60⟩, []) := by
  have hhours : Writes 2 hours.val (padded 2 hours) := writes_two (by omega)
  have hminutes : Writes 2 minutes.val (padded 2 minutes) := writes_two (by omega)
  have hlast : readNumber 2 2 (padded 2 minutes ++ []) = some (minutes.val, []) :=
    readNumber_two hminutes
  rw [List.append_nil] at hlast
  simp [readOffsetTime, readNumber_two hhours, readChar, hlast]

lemma readOffset_chars (zone : Zone) : readOffset zone.chars = some (zone.offset, []) := by
  cases zone with
  | universal => rfl
  | distant behind hours minutes =>
    cases behind <;>
      simp [readOffset, Zone.chars, Zone.offset, readOffsetTime_append]

/-- A zone continues neither the digits nor the seconds before it. -/
lemma head?_zone (zone : Option Zone) :
    ∀ c ∈ (zone.elim [] Zone.chars).head?, Text.digit? 10 c = none ∧ c ≠ '.' := by
  cases zone with
  | none => nofun
  | some zone =>
    cases zone with
    | universal => simp [Zone.chars]; decide
    | distant behind hours minutes => cases behind <;> simp [Zone.chars] <;> decide

/-- The strict reader reads date, time and fraction and asks for the zone behind them. -/
lemma instant?_chars (s : Spelling) :
    instant? s.chars = (s.zone.map Zone.offset).bind fun offset =>
      if offset.behind then s.time.timestamp.later? offset.seconds
      else s.time.timestamp.earlier? offset.seconds := by
  obtain ⟨time, zone⟩ := s
  have hyear : ∀ rest, readNumber 4 4 (Date.yearChars time.date.year ++ rest) =
      some (time.date.year.natAbs, rest) := fun rest =>
    readNumber_append (Date.writes_year time.year_mem) (Nat.le_refl 4) (Nat.le_refl 4) (.inl rfl)
  have habs : |time.date.year| = time.date.year := abs_of_nonneg time.year_mem.1
  have hfraction := readFraction_elim time.fraction (fun c hc => (head?_zone zone c hc).1)
    fun c hc => (head?_zone zone c hc).2
  simp only [Spelling.chars, LocalTime.chars, Date.chars, ClockTime.chars, List.append_assoc,
    List.cons_append]
  -- one step for each part: simplifying the whole reader would open its rest at every bind
  refine (bind_of_eq_some (hyear _)).trans ?_
  refine (bind_of_eq_some (readChar_cons '-' _)).trans ?_
  refine (bind_of_eq_some (readNumber_two time.date.writes_month)).trans ?_
  refine (bind_of_eq_some (readChar_cons '-' _)).trans ?_
  refine (bind_of_eq_some (readNumber_two time.date.writes_day)).trans ?_
  refine (bind_of_eq_some rfl).trans ?_
  refine (bind_of_eq_some (readNumber_two time.clock.writes_hour)).trans ?_
  refine (bind_of_eq_some (readChar_cons ':' _)).trans ?_
  refine (bind_of_eq_some (readNumber_two time.clock.writes_minute)).trans ?_
  refine (bind_of_eq_some (readChar_cons ':' _)).trans ?_
  refine (bind_of_eq_some (readNumber_two time.writes_second)).trans ?_
  refine (bind_of_eq_some hfraction).trans ?_
  cases zone with
  | none => rfl
  | some zone =>
    refine (bind_of_eq_some (readOffset_chars zone)).trans ?_
    simp [habs, time.date.of?_self, time.of?_timestamp]

/-- The lenient reader reads date, time and fraction. -/
lemma plainTimestamp?_chars (time : LocalTime) :
    plainTimestamp? time.chars = some time.timestamp := by
  have hdate := readDate_append time.date
  have hclock := readClock_append time.clock.writes_hour time.clock.writes_minute
  have hfraction := readFraction_elim time.fraction noDigit_nil nofun
  rw [List.append_nil] at hfraction
  simp [plainTimestamp?, LocalTime.chars, ClockTime.chars, hdate, hclock, readChar,
    readShort_append time.writes_second, hfraction, time.date.of?_self, time.of?_timestamp]

/-- With its zone an instant is read by the strict reader. -/
lemma instant?_zone (time : LocalTime) (zone : Zone) :
    ∃ t, instant? (Spelling.mk time (some zone)).chars = some t ∧
      t.IsAt (time.nanoseconds - zone.nanoseconds) := by
  have hat := time.isAt_timestamp
  have hless := zone.offset_seconds_lt
  have hyear : minYear < time.date.year ∧ time.date.year < maxYear := by
    have hmember := time.year_mem
    unfold minYear maxYear
    omega
  rw [instant?_chars, zone.nanoseconds_eq]
  cases hbehind : zone.offset.behind with
  | true =>
    obtain ⟨t, hlater, ht⟩ := Timestamp.exists_later? hat hyear.2 hless
    exact ⟨t, by simpa [hbehind] using hlater, by simpa [Int.sub_neg] using ht⟩
  | false =>
    obtain ⟨t, hearlier, ht⟩ := Timestamp.exists_earlier? hat hyear.1 hless
    exact ⟨t, by simpa [hbehind] using hearlier, by simpa using ht⟩

/-- Without its zone an instant is read by the lenient reader. -/
lemma timestamp?_plain (time : LocalTime) :
    timestamp? (Spelling.mk time none).text = some time.timestamp := by
  have hstrict : instant? time.chars = none := by
    simpa [Spelling.chars] using instant?_chars ⟨time, none⟩
  simp [timestamp?, Spelling.text, Spelling.chars, hstrict, plainTimestamp?_chars]

/-- However an instant is spelled, it is read as this instant. -/
theorem timestamp?_text (s : Spelling) : ∃ t, timestamp? s.text = some t ∧ t.IsAt s.instant := by
  obtain ⟨time, zone⟩ := s
  cases zone with
  | none =>
    refine ⟨time.timestamp, timestamp?_plain time, ?_⟩
    simpa [Spelling.instant] using time.isAt_timestamp
  | some zone =>
    obtain ⟨t, hread, ht⟩ := instant?_zone time zone
    refine ⟨t, ?_, ht⟩
    simp [timestamp?, Spelling.text, hread]

end WorkflowCanvas.Calendar
