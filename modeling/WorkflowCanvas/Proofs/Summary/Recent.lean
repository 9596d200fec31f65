import Mathlib.Data.List.Perm.Basic
import Mathlib.Order.Basic
import WorkflowCanvas.Proofs.Calendar.Order
import WorkflowCanvas.Summary

/-!
# The runs that are shown

The view of recent runs is the beginning of one list that depends on the summaries alone: those that
have run, newest first, where runs at the same instant and runs at an unknown time stay in the order
they were listed in.  `NewestFirst` states that order without an algorithm and determines the list
(`NewestFirst.unique`), so that whatever is shown follows from it.
-/

namespace WorkflowCanvas

namespace Summary

/-! ## The order of runs -/

/-- A run is on record. -/
def Ran (s : Summary) : Prop := s.lastRun ≠ none ∧ s.lastRun ≠ some ""

instance : DecidablePred Ran := fun s =>
  inferInstanceAs (Decidable (s.lastRun ≠ none ∧ s.lastRun ≠ some ""))

/-- The run was at a later instant than that of another summary, or at a known time while the time
of the other is unknown. -/
def Newer (a b : Summary) : Prop :=
  match a.lastRunAt, b.lastRunAt with
  | some s, some t => t.Before s
  | some _, none => True
  | none, _ => False

lemma hasRun_eq (s : Summary) : s.hasRun = decide s.Ran := by
  rw [Bool.eq_iff_iff, decide_eq_true_iff, Ran, hasRun, nonempty?]
  cases s.lastRun with
  | none => simp
  | some text => simp

lemma notOlder_iff {a b : Summary} : a.notOlder b = true ↔ ¬ b.Newer a := by
  unfold notOlder Newer
  cases a.lastRunAt <;> cases b.lastRunAt <;> simp [← Timestamp.rank_lt_iff]

lemma notOlder_trans (a b c : Summary) (hab : a.notOlder b = true) (hbc : b.notOlder c = true) :
    a.notOlder c = true := by
  unfold notOlder at *
  cases ha : a.lastRunAt <;> cases hb : b.lastRunAt <;> cases hc : c.lastRunAt <;>
    simp_all only [decide_eq_true_eq, Bool.false_eq_true]
  omega

lemma notOlder_total (a b : Summary) : (a.notOlder b || b.notOlder a) = true := by
  unfold notOlder
  cases a.lastRunAt <;> cases b.lastRunAt <;> simp
  omega

lemma not_newer_of_eq {a b : Summary} (same : a.lastRunAt = b.lastRunAt) : ¬ a.Newer b := by
  rw [Newer, same]
  cases b.lastRunAt with
  | none => exact id
  | some t =>
    intro before
    exact absurd (Timestamp.rank_lt_iff.2 before) (Int.lt_irrefl _)

/-- Of two runs one is newer, unless they were at the same instant or both at an unknown time. -/
lemma lastRunAt_eq {a b : Summary} (h : ¬ a.Newer b) (h' : ¬ b.Newer a) :
    a.lastRunAt = b.lastRunAt := by
  unfold Newer at h h'
  cases ha : a.lastRunAt with
  | none =>
    cases hb : b.lastRunAt with
    | none => rfl
    | some t => simp [ha, hb] at h'
  | some s =>
    cases hb : b.lastRunAt with
    | none => simp [ha, hb] at h
    | some t =>
      simp only [ha, hb, ← Timestamp.rank_lt_iff] at h h'
      rw [Timestamp.rank_injective (s := s) (t := t) (by omega)]

/-! ## Newest first -/

/-- The runs at an instant, or those at an unknown time. -/
def runsAt (instant : Option Timestamp) (runs : List Summary) : List Summary :=
  runs.filter (·.lastRunAt = instant)

lemma mem_runsAt {instant : Option Timestamp} {runs : List Summary} {a : Summary} :
    a ∈ runsAt instant runs ↔ a ∈ runs ∧ a.lastRunAt = instant := by
  rw [runsAt, List.mem_filter, decide_eq_true_iff]

lemma runsAt_cons_of_eq {instant : Option Timestamp} {a : Summary} (h : a.lastRunAt = instant)
    (runs : List Summary) : runsAt instant (a :: runs) = a :: runsAt instant runs :=
  List.filter_cons_of_pos (decide_eq_true h)

lemma runsAt_cons_of_ne {instant : Option Timestamp} {a : Summary} (h : a.lastRunAt ≠ instant)
    (runs : List Summary) : runsAt instant (a :: runs) = runsAt instant runs :=
  List.filter_cons_of_neg (by simpa using h)

/-- What is among the runs is among those at its own instant. -/
lemma mem_iff {runs others : List Summary}
    (same : ∀ instant, runsAt instant runs = runsAt instant others) {a : Summary} :
    a ∈ runs ↔ a ∈ others := by
  have hiff : a ∈ runsAt a.lastRunAt runs ↔ a ∈ runsAt a.lastRunAt others := by rw [same]
  simpa only [mem_runsAt, and_true] using hiff

/-- No run stands behind one that it is newer than. -/
abbrev Ordered (runs : List Summary) : Prop := runs.Pairwise fun a b => ¬ b.Newer a

/-- The summaries that have run, newest first. -/
structure NewestFirst (summaries runs : List Summary) : Prop where
  /-- Exactly the summaries that have run, each as often as it is listed. -/
  kept : runs.Perm (summaries.filter (·.Ran))
  /-- Known times come first, later instants before earlier ones, and unknown times last. -/
  ordered : Ordered runs
  /-- Runs at one instant, and those at an unknown time, stay in the order they are listed in. -/
  stable : ∀ instant, runsAt instant runs = runsAt instant (summaries.filter (·.Ran))

/-- An order is determined by the runs at each instant. -/
lemma eq_of_ordered {runs others : List Summary} (h : Ordered runs) (h' : Ordered others)
    (same : ∀ instant, runsAt instant runs = runsAt instant others) : runs = others := by
  induction runs generalizing others with
  | nil => exact (List.eq_nil_iff_forall_not_mem.2 fun b hb => nomatch (mem_iff same).2 hb).symm
  | cons a runs ih =>
    cases others with
    | nil => cases (mem_iff same).1 List.mem_cons_self
    | cons b others =>
      obtain ⟨hfirst, hrest⟩ := List.pairwise_cons.1 h
      obtain ⟨hfirst', hrest'⟩ := List.pairwise_cons.1 h'
      -- each of the two that stand in front is also in the other list
      have hb : ¬ b.Newer a := by
        rcases List.mem_cons.1 ((mem_iff same).2 List.mem_cons_self) with rfl | hmem
        · exact not_newer_of_eq rfl
        · exact hfirst b hmem
      have ha : ¬ a.Newer b := by
        rcases List.mem_cons.1 ((mem_iff same).1 List.mem_cons_self) with rfl | hmem
        · exact not_newer_of_eq rfl
        · exact hfirst' a hmem
      obtain rfl : a = b := by
        have hfront := same a.lastRunAt
        rw [runsAt_cons_of_eq rfl, runsAt_cons_of_eq (lastRunAt_eq ha hb).symm] at hfront
        exact (List.cons.inj hfront).1
      have hrests : ∀ instant, runsAt instant runs = runsAt instant others := by
        intro instant
        have hwhole := same instant
        by_cases hat : a.lastRunAt = instant
        · rw [runsAt_cons_of_eq hat, runsAt_cons_of_eq hat] at hwhole
          exact (List.cons.inj hwhole).2
        · rwa [runsAt_cons_of_ne hat, runsAt_cons_of_ne hat] at hwhole
      rw [ih hrest hrest' hrests]

lemma NewestFirst.unique {summaries runs others : List Summary} (h : NewestFirst summaries runs)
    (h' : NewestFirst summaries others) : others = runs :=
  eq_of_ordered h'.ordered h.ordered fun instant =>
    (h'.stable instant).trans (h.stable instant).symm

/-! ## Sorting -/

/-- All runs as the view sorts them. -/
def allRuns (summaries : List Summary) : List Summary :=
  (summaries.filter hasRun).mergeSort notOlder

lemma filter_hasRun (summaries : List Summary) :
    summaries.filter hasRun = summaries.filter (·.Ran) :=
  List.filter_congr fun s _ => hasRun_eq s

lemma ordered_iff {runs : List Summary} :
    Ordered runs ↔ runs.Pairwise fun a b => a.notOlder b = true := by
  simp only [notOlder_iff]

/-- Sorting keeps the runs of one instant in their order. -/
lemma runsAt_mergeSort (instant : Option Timestamp) (runs : List Summary) :
    runsAt instant (runs.mergeSort notOlder) = runsAt instant runs := by
  have hequal : Ordered (runsAt instant runs) := by
    refine List.pairwise_of_forall_mem_list fun a ha b hb => not_newer_of_eq ?_
    rw [(mem_runsAt.1 ha).2, (mem_runsAt.1 hb).2]
  have hsub : (runsAt instant runs).Sublist (runs.mergeSort notOlder) :=
    List.sublist_mergeSort notOlder_trans notOlder_total (ordered_iff.1 hequal)
      List.filter_sublist
  have hkept : runsAt instant (runsAt instant runs) = runsAt instant runs :=
    List.filter_eq_self.2 fun a ha => decide_eq_true (mem_runsAt.1 ha).2
  have hat : (runsAt instant runs).Sublist (runsAt instant (runs.mergeSort notOlder)) :=
    hkept ▸ hsub.filter _
  refine (hat.eq_of_length ?_).symm
  exact ((List.mergeSort_perm runs notOlder).filter _).length_eq.symm

/-- What the view sorts is what has run, newest first. -/
lemma newestFirst_allRuns (summaries : List Summary) :
    NewestFirst summaries (allRuns summaries) where
  kept := by
    rw [allRuns, filter_hasRun]
    exact List.mergeSort_perm _ _
  ordered := ordered_iff.2 (List.pairwise_mergeSort notOlder_trans notOlder_total _)
  stable instant := by
    rw [allRuns, filter_hasRun, runsAt_mergeSort]

lemma recentRuns_eq_take (summaries : List Summary) (limit : Nat) :
    recentRuns summaries limit = (allRuns summaries).take limit := rfl

/-- What is shown has run and is sorted already. -/
lemma allRuns_recentRuns (summaries : List Summary) (limit : Nat) :
    allRuns (recentRuns summaries limit) = recentRuns summaries limit := by
  have hnewest := newestFirst_allRuns summaries
  have hshown : (recentRuns summaries limit).Sublist (allRuns summaries) :=
    List.take_sublist limit _
  have hran : (recentRuns summaries limit).filter hasRun = recentRuns summaries limit := by
    rw [filter_hasRun, List.filter_eq_self]
    intro s hs
    exact (List.mem_filter.1 (hnewest.kept.mem_iff.1 (hshown.subset hs))).2
  rw [allRuns, hran]
  exact List.mergeSort_of_pairwise (ordered_iff.1 (hnewest.ordered.sublist hshown))

end Summary

open Summary

/-! ## The view -/

/-- What the view shows of all runs, newest first, when there is room for some. -/
structure ShowsNewest (summaries runs : List Summary) (limit : Nat) : Prop where
  /-- It shows the first of them. -/
  shown : recentRuns summaries limit = runs.take limit
  /-- No summary is invented or shown more often than it is listed. -/
  genuine : (recentRuns summaries limit).Subperm summaries
  /-- No run that is left out for want of room is newer than one that is shown. -/
  newest : ∀ a ∈ recentRuns summaries limit, ∀ b ∈ runs.drop limit, ¬ b.Newer a
  /-- With more room the same runs come first. -/
  longer : ∀ more, limit ≤ more → recentRuns summaries limit <+: recentRuns summaries more
  /-- Viewing what is shown changes nothing. -/
  again : recentRuns (recentRuns summaries limit) limit = recentRuns summaries limit

end WorkflowCanvas
