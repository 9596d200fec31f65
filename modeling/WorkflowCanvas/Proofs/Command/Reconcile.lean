import Mathlib.Data.List.Basic
import WorkflowCanvas.Command

/-!
# Look-ups answered in any order

The look-ups of a reconciliation are all out at once, and their replies come in as they please.
Where the reconciliation stands is a function of the listed names and of the first reply to each
look-up; the order of the replies to different look-ups does not enter.
-/

namespace WorkflowCanvas

/-- A reply with its call and the place of that call among those made together. -/
structure Incoming where
  index : Nat
  call : Call
  reply : call.Reply

namespace Incoming

/-- The status that is brought for the look-up at a place. -/
def status? (place : Nat) : Incoming → Option (Except ServiceError StatusResponse)
  | ⟨index, .status _, reply⟩ => if index = place then some reply else none
  | _ => none

/-- What the look-up at a place was answered first. -/
def firstStatus? (place : Nat) (replies : List Incoming) :
    Option (Except ServiceError StatusResponse) :=
  replies.findSome? (status? place)

lemma firstStatus?_append_singleton (place : Nat) (replies : List Incoming) (x : Incoming) :
    firstStatus? place (replies ++ [x]) =
      (firstStatus? place replies).or (x.status? place) := by
  rw [firstStatus?, List.findSome?_append, List.findSome?_singleton, firstStatus?]

/-- The reply is the first for no listed name. -/
def IsLate (names : List String) (replies : List Incoming) (x : Incoming) : Prop :=
  ∀ place name, names[place]? = some name →
    (firstStatus? place replies).isSome ∨ x.status? place = none

lemma IsLate.firstStatus?_eq {names : List String} {replies : List Incoming} {x : Incoming}
    (late : x.IsLate names replies) {place : Nat} {name : String}
    (hname : names[place]? = some name) :
    firstStatus? place (replies ++ [x]) = firstStatus? place replies := by
  rw [firstStatus?_append_singleton]
  obtain answered | other := late place name hname
  · obtain ⟨reply, hreply⟩ := Option.isSome_iff_exists.mp answered
    simp [hreply]
  · simp [other]

end Incoming

open Incoming

/-! ## The look-ups after replies -/

namespace Lookup

/-- The look-up of a name at a place after replies. -/
def after (replies : List Incoming) (place : Nat) (fileName : String) : Lookup :=
  ⟨fileName, (firstStatus? place replies).map (conclude fileName)⟩

/-- The look-ups of listed names after replies. -/
def allAfter (names : List String) (replies : List Incoming) : List Lookup :=
  names.mapIdx (after replies)

lemma getElem?_allAfter (names : List String) (replies : List Incoming) (place : Nat) :
    (allAfter names replies)[place]? = names[place]?.map (after replies place) := by
  simp [allAfter]

lemma allAfter_nil (names : List String) : allAfter names [] = names.map start := by
  apply List.ext_getElem?
  intro place
  rw [getElem?_allAfter, List.getElem?_map]
  rfl

/-- A reply that is the first for no listed name leaves the look-ups as they are. -/
lemma allAfter_append_of_late {names : List String} {replies : List Incoming} {x : Incoming}
    (late : x.IsLate names replies) : allAfter names (replies ++ [x]) = allAfter names replies := by
  apply List.ext_getElem?
  intro place
  rw [getElem?_allAfter, getElem?_allAfter]
  cases hname : names[place]? with
  | none => rfl
  | some name => simp only [Option.map_some, after, late.firstStatus?_eq hname]

/-- The first reply to a look-up that is out concludes it. -/
lemma allAfter_append_of_first {names : List String} {replies : List Incoming} {place : Nat}
    {name workflow : String} (hname : names[place]? = some name)
    (out : firstStatus? place replies = none) (reply : (Call.status workflow).Reply) :
    allAfter names (replies ++ [⟨place, .status workflow, reply⟩]) =
      (allAfter names replies).set place ⟨name, some (conclude name reply)⟩ := by
  apply List.ext_getElem?
  intro other
  rw [List.getElem?_set, getElem?_allAfter, getElem?_allAfter]
  by_cases same : place = other
  · subst same
    have bound : place < (allAfter names replies).length := by
      have := (List.getElem?_eq_some_iff.mp hname).1
      simpa [allAfter] using this
    simp [hname, after, firstStatus?_append_singleton, out, status?, bound]
  · have unchanged : after (replies ++ [⟨place, .status workflow, reply⟩]) other =
        after replies other := by
      funext name
      simp [after, firstStatus?_append_singleton, status?, same]
    simp only [unchanged, if_neg same]

/-- Look-ups are complete when each has a summary. -/
lemma mapM_summary_eq_some {lookups : List Lookup} {summaries : List Summary} :
    lookups.mapM summary = some summaries ↔ lookups.map summary = summaries.map some := by
  induction lookups generalizing summaries with
  | nil => cases summaries <;> simp
  | cons lookup lookups ih =>
    cases summaries with
    | nil => simp [Option.bind_eq_some_iff]
    | cons s summaries => simp [Option.bind_eq_some_iff, ih]

end Lookup

open Lookup

/-- Summaries built for listed names: one for each, in their order, from the first reply to the
look-up at its place. -/
structure Built (names : List String) (replies : List Incoming) (summaries : List Summary) :
    Prop where
  length_eq : summaries.length = names.length
  entry : ∀ place name, names[place]? = some name →
    ∃ reply, firstStatus? place replies = some reply ∧
      summaries[place]? = some (conclude name reply)

/-- What replies have built does not change by later ones. -/
lemma Built.append {names : List String} {replies : List Incoming} {summaries : List Summary}
    (built : Built names replies summaries) (later : List Incoming) :
    Built names (replies ++ later) summaries where
  length_eq := built.length_eq
  entry place name hname := by
    obtain ⟨reply, hreply, hs⟩ := built.entry place name hname
    refine ⟨reply, ?_, hs⟩
    rw [firstStatus?, List.findSome?_append, ← firstStatus?, hreply, Option.some_or]

lemma Built.unique {names : List String} {replies : List Incoming} {summaries others : List Summary}
    (built : Built names replies summaries) (also : Built names replies others) :
    summaries = others := by
  apply List.ext_getElem?
  intro place
  cases hname : names[place]? with
  | none =>
    rw [List.getElem?_eq_none_iff] at hname
    rw [List.getElem?_eq_none (built.length_eq ▸ hname),
      List.getElem?_eq_none (also.length_eq ▸ hname)]
  | some name =>
    obtain ⟨reply, hreply, hs⟩ := built.entry place name hname
    obtain ⟨same, hsame, ho⟩ := also.entry place name hname
    rw [hreply] at hsame
    cases hsame
    rw [hs, ho]

lemma mapM_allAfter_eq_some {names : List String} {replies : List Incoming}
    {summaries : List Summary} :
    (allAfter names replies).mapM summary = some summaries ↔ Built names replies summaries := by
  rw [mapM_summary_eq_some]
  constructor
  · intro h
    constructor
    · have := congrArg List.length h
      simpa [allAfter, eq_comm] using this
    · intro place name hname
      have entry := congrArg (·[place]?) h
      simp only [List.getElem?_map, getElem?_allAfter, hname, Option.map_some, after] at entry
      cases hreply : firstStatus? place replies with
      | none =>
        rw [hreply, Option.map_none] at entry
        cases hs : summaries[place]? <;> simp [hs] at entry
      | some reply =>
        refine ⟨reply, rfl, ?_⟩
        rw [hreply, Option.map_some] at entry
        obtain ⟨s, hs, e⟩ := Option.map_eq_some_iff.mp entry.symm
        rw [hs, e]
  · intro built
    apply List.ext_getElem?
    intro place
    rw [List.getElem?_map, List.getElem?_map, getElem?_allAfter]
    cases hname : names[place]? with
    | none =>
      have : summaries[place]? = none := by
        rw [List.getElem?_eq_none_iff] at hname ⊢
        rw [built.length_eq]
        exact hname
      simp [this]
    | some name =>
      obtain ⟨reply, hreply, hs⟩ := built.entry place name hname
      simp [after, hreply, hs]

namespace Progress

/-- Where look-ups have led to. -/
def gathered (lookups : List Lookup) : Progress :=
  match lookups.mapM Lookup.summary with
  | some summaries => .reconciled (.ok summaries)
  | none => .lookingUp lookups

lemma gather_progress (lookups : List Lookup) (actions : List Action) :
    (gather lookups actions).progress = gathered lookups := by
  unfold gather gathered
  cases lookups.mapM Lookup.summary <;> rfl

/-- Where the look-ups of listed names have led to after replies. -/
def lookedUp (names : List String) (replies : List Incoming) : Progress :=
  gathered (allAfter names replies)

/-- The look-ups are complete when the summaries are built. -/
lemma lookedUp_eq_reconciled_iff {names : List String} {replies : List Incoming}
    {summaries : List Summary} :
    lookedUp names replies = .reconciled (.ok summaries) ↔ Built names replies summaries := by
  rw [← mapM_allAfter_eq_some, lookedUp, gathered]
  cases (allAfter names replies).mapM summary with
  | none => simp
  | some built => simp

/-- The look-ups of listed names are complete or some of them are out. -/
lemma lookedUp_cases (names : List String) (replies : List Incoming) :
    (∃ summaries, lookedUp names replies = .reconciled (.ok summaries)) ∨
      lookedUp names replies = .lookingUp (allAfter names replies) := by
  rw [lookedUp, gathered]
  cases (allAfter names replies).mapM summary with
  | none => exact .inr rfl
  | some summaries => exact .inl ⟨summaries, rfl⟩

lemma lookedUp_ne_concluded (names : List String) (replies : List Incoming) (request : Request)
    (outcome : Except ServiceError String) :
    lookedUp names replies ≠ .concluded request outcome := by
  obtain ⟨summaries, done⟩ | out := lookedUp_cases names replies
  · simp [done]
  · simp [out]

/-- The answered listing starts the look-ups. -/
lemma lookUp_progress (response : WorkflowListResponse) :
    (lookUp (.ok response)).progress = lookedUp response.workflows [] := by
  rw [lookUp, gather_progress, lookedUp, allAfter_nil]

lemma gather_calls (lookups : List Lookup) (actions : List Action) :
    Action.calls (gather lookups actions).actions = Action.calls actions := by
  unfold gather
  cases lookups.mapM Lookup.summary with
  | none => rfl
  | some summaries => simp [Action.calls, Action.call?]

/-- A reply that is the first for no look-up does not move them on. -/
lemma lookedUp_append_of_late {names : List String} {replies : List Incoming} {x : Incoming}
    (late : x.IsLate names replies) : lookedUp names (replies ++ [x]) = lookedUp names replies := by
  rw [lookedUp, allAfter_append_of_late late, lookedUp]

/-- What a reply does to look-ups of which some are out: nothing, or it is the first to one of them
and concludes it. -/
lemma takeStatus_cases (names : List String) (replies : List Incoming) (place : Nat)
    {workflow : String} (reply : (Call.status workflow).Reply) :
    IsLate names replies ⟨place, .status workflow, reply⟩ ∧
        takeStatus (allAfter names replies) place reply =
          idle (.lookingUp (allAfter names replies)) ∨
      ∃ name, names[place]? = some name ∧ firstStatus? place replies = none ∧
        takeStatus (allAfter names replies) place reply =
          gather (allAfter names (replies ++ [⟨place, .status workflow, reply⟩]))
            ((Lookup.log name reply).map .log) := by
  unfold takeStatus
  rw [getElem?_allAfter]
  cases hname : names[place]? with
  | none =>
    refine .inl ⟨fun other name hother => .inr (if_neg ?_), rfl⟩
    rintro rfl
    rw [hname] at hother
    cases hother
  | some name =>
    cases hfirst : firstStatus? place replies with
    | none =>
      refine .inr ⟨name, rfl, rfl, ?_⟩
      rw [allAfter_append_of_first hname hfirst]
      simp only [Option.map_some, after, hfirst, Option.map_none]
    | some first =>
      refine .inl ⟨fun other _ _ => ?_, ?_⟩
      · by_cases same : place = other
        · subst same
          exact .inl (by simp [hfirst])
        · exact .inr (if_neg same)
      · simp only [Option.map_some, after, hfirst]

/-- What a reply does behind the listing: nothing, or it is the first to a look-up and concludes
it. -/
lemma receive_lookedUp_cases (names : List String) (replies : List Incoming) (x : Incoming) :
    x.IsLate names replies ∧ (lookedUp names replies).receive x.index x.call x.reply =
        idle (lookedUp names replies) ∨
      ∃ name reply, names[x.index]? = some name ∧ firstStatus? x.index replies = none ∧
        (∀ place, x.status? place = if x.index = place then some reply else none) ∧
        (lookedUp names replies).receive x.index x.call x.reply =
          gather (allAfter names (replies ++ [x])) ((Lookup.log name reply).map .log) := by
  obtain ⟨index, call, reply⟩ := x
  obtain ⟨summaries, done⟩ | out := lookedUp_cases names replies
  · have built := lookedUp_eq_reconciled_iff.mp done
    refine .inl ⟨fun place name hname => .inl ?_, ?_⟩
    · obtain ⟨first, hfirst, -⟩ := built.entry place name hname
      exact Option.isSome_iff_exists.mpr ⟨first, hfirst⟩
    · rw [done]
      cases call <;> rfl
  · rw [out]
    cases call with
    | status workflow =>
      obtain stays | ⟨name, hname, hfirst, moves⟩ := takeStatus_cases names replies index reply
      · exact .inl stays
      · exact .inr ⟨name, reply, hname, hfirst, fun place => rfl, moves⟩
    | _ => exact .inl ⟨fun _ _ _ => .inr rfl, rfl⟩

/-- Whatever the reply, the look-ups stand where the replies so far have led them. -/
theorem receive_lookedUp (names : List String) (replies : List Incoming) (x : Incoming) :
    ((lookedUp names replies).receive x.index x.call x.reply).progress =
      lookedUp names (replies ++ [x]) := by
  obtain ⟨late, stays⟩ | ⟨name, reply, -, -, -, moves⟩ := receive_lookedUp_cases names replies x
  · rw [stays, lookedUp_append_of_late late]
    rfl
  · rw [moves, gather_progress, lookedUp]

/-- The calls that follow the listing: one look-up for each name, in order. -/
lemma lookUp_calls (response : WorkflowListResponse) :
    Action.calls (lookUp (.ok response)).actions = response.workflows.map Lookup.call := by
  rw [lookUp, gather_calls, Action.calls, List.filterMap_map]
  exact congrFun List.filterMap_eq_map _

end Progress

end WorkflowCanvas
