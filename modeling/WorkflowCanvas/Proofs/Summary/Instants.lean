import Mathlib.Logic.Equiv.Basic
import WorkflowCanvas.Proofs.Calendar.Spelling
import WorkflowCanvas.Proofs.Summary.Recent

/-!
# Last runs are instants

The last run of a summary is known as an instant, whichever way it is spelled, and the view of
recent runs ranks it by that instant alone: runs at one instant stay in the order they are listed
in, also if they are spelled differently, and of two others the later one comes first.
-/

namespace WorkflowCanvas

open Calendar (Spelling LocalTime)

namespace Summary

/-- The summary of a workflow whose last run is on record as spelled. -/
def ofSpelling (name status : String) (s : Spelling) : Summary := ⟨name, status, some s.text⟩

variable {name status : String} {s : Spelling}

lemma text_ne_empty (s : Spelling) : s.text ≠ "" := by
  simp [Spelling.text, Spelling.chars, LocalTime.chars]

lemma ran_ofSpelling : (ofSpelling name status s).Ran := by
  simp [ofSpelling, Ran, text_ne_empty]

lemma lastRunAt_ofSpelling :
    (ofSpelling name status s).lastRunAt = Calendar.timestamp? s.text := by
  simp [ofSpelling, lastRunAt, nonempty?, Option.filter, text_ne_empty]

lemma exists_lastRunAt (name status : String) (s : Spelling) :
    ∃ t, (ofSpelling name status s).lastRunAt = some t ∧ t.IsAt s.instant := by
  rw [lastRunAt_ofSpelling]
  exact Calendar.timestamp?_text s

/-! ## Two runs among others -/

/-- The entries of a list that are one of two summaries. -/
def entriesOf (a b : Summary) (runs : List Summary) : List Summary :=
  runs.filter fun s => s = a ∨ s = b

section Ranks

variable {a b : Summary} {summaries : List Summary} {limit : Nat}

lemma filter_ran {p : Summary → Bool} (hp : ∀ s, p s = true → s.Ran) :
    (summaries.filter (·.Ran)).filter p = summaries.filter p := by
  rw [List.filter_filter]
  refine List.filter_congr fun s _ => ?_
  cases hs : p s with
  | false => rfl
  | true => simp [hp s hs]

lemma filter_runsAt {p : Summary → Bool} {instant : Option Timestamp}
    (hp : ∀ s, p s = true → s.lastRunAt = instant) (runs : List Summary) :
    (runsAt instant runs).filter p = runs.filter p := by
  rw [runsAt, List.filter_filter]
  refine List.filter_congr fun s _ => ?_
  cases hs : p s with
  | false => rfl
  | true => simp [hp s hs]

/-- Runs at one instant are sorted into the order they are listed in. -/
lemma filter_allRuns {p : Summary → Bool} (instant : Option Timestamp)
    (hp : ∀ s, p s = true → s.Ran ∧ s.lastRunAt = instant) :
    (allRuns summaries).filter p = summaries.filter p := by
  have hat := filter_runsAt fun s hs => (hp s hs).2
  rw [← hat, (newestFirst_allRuns summaries).stable instant, hat, filter_ran fun s hs => (hp s hs).1]

/-- In a list in which no `b` stands before an `a` all the `a`s come first. -/
lemma entriesOf_eq_append (hne : a ≠ b) {runs : List Summary}
    (h : runs.Pairwise fun s t => ¬ (s = b ∧ t = a)) :
    entriesOf a b runs = runs.filter (· = a) ++ runs.filter (· = b) := by
  unfold entriesOf
  induction runs with
  | nil => rfl
  | cons s runs ih =>
    obtain ⟨hfirst, hrest⟩ := List.pairwise_cons.1 h
    have hmore := ih hrest
    by_cases ha : s = a
    · subst ha
      simpa [hne] using hmore
    · by_cases hb : s = b
      · subst hb
        have hnone : runs.filter (· = a) = [] := by
          refine List.filter_eq_nil_iff.2 fun t ht => ?_
          simpa using hfirst t ht
        simpa [ha, hnone] using hmore
      · simpa [ha, hb] using hmore

/-- What keeps the instant of every run keeps its rank. -/
lemma recentRuns_map {f : Summary → Summary} (hran : ∀ s, (f s).hasRun = s.hasRun)
    (hat : ∀ s, (f s).lastRunAt = s.lastRunAt) :
    recentRuns (summaries.map f) limit = (recentRuns summaries limit).map f := by
  have hfilter : (summaries.map f).filter hasRun = (summaries.filter hasRun).map f := by
    rw [List.filter_map]
    exact congrArg _ (List.filter_congr fun s _ => hran s)
  have hrank : ∀ s t : Summary, s.notOlder t = (f s).notOlder (f t) := by
    intro s t
    rw [notOlder, notOlder, hat, hat]
  rw [recentRuns, recentRuns, hfilter, List.map_take,
    List.map_mergeSort fun s _ t _ => hrank s t]

/-- The view shows the first of what is sorted, also of the entries of two summaries. -/
lemma entriesOf_recentRuns_prefix :
    entriesOf a b (recentRuns summaries limit) <+: entriesOf a b (allRuns summaries) := by
  rw [recentRuns_eq_take]
  exact (List.take_prefix limit _).filter _

lemma entriesOf_recentRuns_perm (ha : a.Ran) (hb : b.Ran) (room : summaries.length ≤ limit) :
    (entriesOf a b (recentRuns summaries limit)).Perm (entriesOf a b summaries) := by
  have hkept := (newestFirst_allRuns summaries).kept
  have hlength : (allRuns summaries).length ≤ limit := by
    rw [hkept.length_eq]
    exact (List.length_filter_le _ _).trans room
  have hruns : entriesOf a b (summaries.filter (·.Ran)) = entriesOf a b summaries := by
    refine filter_ran fun s hs => ?_
    rcases of_decide_eq_true hs with rfl | rfl
    · exact ha
    · exact hb
  rw [recentRuns_eq_take, List.take_of_length_le hlength, ← hruns]
  exact hkept.filter _

end Ranks

end Summary

open Summary

/-! ## The results -/

/-- What the last run is known as whose record is spelled so. -/
structure KnownAs (name status : String) (s : Spelling) : Prop where
  /-- It is known as the instant. -/
  known : ∃ t, (ofSpelling name status s).lastRunAt = some t ∧ t.IsAt s.instant
  /-- The instant has no other timestamp. -/
  exact : ∀ t, t.IsAt s.instant → (ofSpelling name status s).lastRunAt = some t
  /-- Without a zone it is known as the date and the time that stand there. -/
  plain : (ofSpelling name status ⟨s.time, none⟩).lastRunAt = some s.time.timestamp

/-- How two runs rank among others, one of which was at the instant `m` and one at `n`. -/
structure RankedByInstant (a b : Summary) (m n : Int) (summaries : List Summary) (limit : Nat) :
    Prop where
  /-- With room for all none of them is left out. -/
  shown : summaries.length ≤ limit →
    (entriesOf a b (recentRuns summaries limit)).Perm (entriesOf a b summaries)
  /-- Runs at one instant are shown in the order they are listed in. -/
  tied : m = n → entriesOf a b (recentRuns summaries limit) <+: entriesOf a b summaries
  /-- Each of them may take the place of the other, and no other run moves. -/
  interchangeable : m = n → recentRuns (summaries.map (Equiv.swap a b)) limit =
    (recentRuns summaries limit).map (Equiv.swap a b)
  /-- Of runs at two instants the later comes first, and the earlier is shown only behind it. -/
  later_first : n < m → entriesOf a b (recentRuns summaries limit) <+:
    summaries.filter (· = a) ++ summaries.filter (· = b)

lemma knownAs (name status : String) (s : Spelling) : KnownAs name status s where
  known := exists_lastRunAt name status s
  exact t ht := by
    obtain ⟨u, hread, hu⟩ := exists_lastRunAt name status s
    rw [hread, hu.unique ht]
  plain := by
    rw [lastRunAt_ofSpelling]
    exact Calendar.timestamp?_plain s.time

/-- Runs that are on record at known instants rank by these. -/
lemma rankedByInstant {a b : Summary} {m n : Int} {t u : Timestamp} (ha : a.Ran) (hb : b.Ran)
    (hat : a.lastRunAt = some t) (hbt : b.lastRunAt = some u) (ht : t.IsAt m) (hu : u.IsAt n)
    (summaries : List Summary) (limit : Nat) : RankedByInstant a b m n summaries limit where
  shown := entriesOf_recentRuns_perm ha hb
  tied hmn := by
    subst hmn
    obtain rfl := ht.unique hu
    have hsame : entriesOf a b (allRuns summaries) = entriesOf a b summaries := by
      refine filter_allRuns (some t) fun s hs => ?_
      rcases of_decide_eq_true hs with rfl | rfl
      · exact ⟨ha, hat⟩
      · exact ⟨hb, hbt⟩
    exact hsame ▸ entriesOf_recentRuns_prefix
  interchangeable hmn := by
    subst hmn
    obtain rfl := ht.unique hu
    refine recentRuns_map (fun s => ?_) fun s => ?_
    · rw [Equiv.swap_apply_def]
      split_ifs <;> simp [*, hasRun_eq]
    · rw [Equiv.swap_apply_def]
      split_ifs <;> simp [*]
  later_first hlt := by
    have hnewer : a.Newer b := by
      simpa [Newer, hat, hbt] using (hu.before_iff ht).2 hlt
    have hne : a ≠ b := by
      rintro rfl
      exact not_newer_of_eq rfl hnewer
    have hsorted : (allRuns summaries).Pairwise fun s t => ¬ (s = b ∧ t = a) := by
      refine (newestFirst_allRuns summaries).ordered.imp fun hold => ?_
      rintro ⟨rfl, rfl⟩
      exact hold hnewer
    have hfirst : (allRuns summaries).filter (· = a) = summaries.filter (· = a) := by
      refine filter_allRuns (some t) fun s hs => ?_
      obtain rfl := of_decide_eq_true hs
      exact ⟨ha, hat⟩
    have hsecond : (allRuns summaries).filter (· = b) = summaries.filter (· = b) := by
      refine filter_allRuns (some u) fun s hs => ?_
      obtain rfl := of_decide_eq_true hs
      exact ⟨hb, hbt⟩
    rw [← hfirst, ← hsecond, ← entriesOf_eq_append hne hsorted]
    exact entriesOf_recentRuns_prefix

/-- Last runs are instants, however they are spelled. -/
theorem lastRuns_areInstants (name status name' status' : String) (s s' : Spelling)
    (summaries : List Summary) (limit : Nat) :
    KnownAs name status s ∧
      RankedByInstant (ofSpelling name status s) (ofSpelling name' status' s') s.instant s'.instant
        summaries limit := by
  obtain ⟨t, hread, ht⟩ := exists_lastRunAt name status s
  obtain ⟨u, hread', hu⟩ := exists_lastRunAt name' status' s'
  exact ⟨knownAs name status s,
    rankedByInstant ran_ofSpelling ran_ofSpelling hread hread' ht hu summaries limit⟩

-- a 29 February lies between the clock and universal time
example : (⟨"report.json", "success", some "2024-03-01T00:15:00.5+01:00"⟩ : Summary).lastRunAt =
    (⟨"export.json", "success", some "2024-02-29T23:15:00.500"⟩ : Summary).lastRunAt := by
  decide +kernel

end WorkflowCanvas
