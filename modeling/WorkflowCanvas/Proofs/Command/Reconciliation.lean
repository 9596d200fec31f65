import Mathlib.Data.List.Induction
import WorkflowCanvas.Proofs.Command.Reconcile

/-!
# A reconciliation from its start to its outcome

A reconciliation asks for the list of workflows and then for the status of every entry at once.  It
is over when the last look-up is answered, and what it ends with follows from the list and from what
each look-up was answered: the order of the replies does not matter, and neither does what became of
the other look-ups.
-/

namespace WorkflowCanvas

open Incoming Lookup Progress

/-! ## Commands over a run of replies -/

/-- A move followed by what a reply brings about. -/
def Step.receive (s : Step) (x : Incoming) : Step :=
  let next := s.progress.receive x.index x.call x.reply
  ⟨next.progress, s.actions ++ next.actions⟩

/-- How far a command has got that was begun and has taken replies, and all it has done by then. -/
def Command.run (c : Command) (replies : List Incoming) : Step :=
  replies.foldl Step.receive (Progress.ready c).begin

lemma Command.run_append_singleton (c : Command) (replies : List Incoming) (x : Incoming) :
    c.run (replies ++ [x]) = (c.run replies).receive x :=
  List.foldl_concat ..

/-- The reply to the call for the list of workflows. -/
def Incoming.listing (reply : Except ServiceError WorkflowListResponse) : Incoming :=
  ⟨0, .workflows, reply⟩

/-- The reply to the look-up at a place of the list. -/
def Incoming.lookup {names : List String}
    (outcome : Fin names.length → Except ServiceError StatusResponse)
    (place : Fin names.length) : Incoming :=
  ⟨place, .status (workflowStem (names.get place)), outcome place⟩

/-! ## What is asked -/

namespace Action

@[simp] lemma calls_append (first second : List Action) :
    calls (first ++ second) = calls first ++ calls second :=
  List.filterMap_append

end Action

namespace Progress

lemma takeStatus_calls (lookups : List Lookup) (index : Nat)
    (reply : Except ServiceError StatusResponse) :
    Action.calls (takeStatus lookups index reply).actions = [] := by
  unfold takeStatus
  split
  · rw [gather_calls, Action.calls, List.filterMap_map]
    exact List.filterMap_eq_nil_iff.mpr fun _ _ => rfl
  · rfl

/-- Behind the listing nothing is asked any more. -/
lemma receive_lookedUp_calls (names : List String) (replies : List Incoming) (x : Incoming) :
    Action.calls ((lookedUp names replies).receive x.index x.call x.reply).actions = [] := by
  obtain ⟨index, call, reply⟩ := x
  obtain ⟨summaries, done⟩ | out := lookedUp_cases names replies
  · rw [done]
    cases call <;> rfl
  · rw [out]
    cases call with
    | status workflow => exact takeStatus_calls _ index reply
    | _ => rfl

end Progress

/-- Where a reconciliation stands whose list was answered, and what it has asked. -/
lemma run_listing (names : List String) (replies : List Incoming) :
    (Command.reconcile.run (.listing (.ok ⟨names⟩) :: replies)).progress = lookedUp names replies ∧
      Action.calls (Command.reconcile.run (.listing (.ok ⟨names⟩) :: replies)).actions =
        .workflows :: names.map Lookup.call := by
  induction replies using List.reverseRecOn with
  | nil =>
    refine ⟨lookUp_progress ⟨names⟩, ?_⟩
    change Action.calls ([.call .workflows] ++ (lookUp (.ok ⟨names⟩)).actions) = _
    rw [Action.calls_append, lookUp_calls]
    rfl
  | append_singleton replies x ih =>
    rw [← List.cons_append, Command.run_append_singleton, Step.receive, ih.1]
    refine ⟨receive_lookedUp names replies x, ?_⟩
    rw [Action.calls_append, ih.2, receive_lookedUp_calls, List.append_nil]

/-- A list that could not be had ends the reconciliation, with one line. -/
lemma run_unlisted_eq (e : ServiceError) (replies : List Incoming) :
    Command.reconcile.run (.listing (.error e) :: replies) =
      ⟨.reconciled (.error e), [.call .workflows, .log (unlistedLog e)]⟩ := by
  induction replies using List.reverseRecOn with
  | nil => rfl
  | append_singleton replies x ih =>
    obtain ⟨index, call, reply⟩ := x
    rw [← List.cons_append, Command.run_append_singleton, ih]
    cases call <;> rfl

lemma run_unlisted (e : ServiceError) (replies : List Incoming) :
    (Command.reconcile.run (.listing (.error e) :: replies)).progress = .reconciled (.error e) ∧
      Action.calls (Command.reconcile.run (.listing (.error e) :: replies)).actions =
        [.workflows] := by
  rw [run_unlisted_eq]
  exact ⟨rfl, rfl⟩

/-! ## What is answered -/

section Outcomes

variable {names : List String} {outcome : Fin names.length → Except ServiceError StatusResponse}

/-- The first reply to a look-up is the one that is brought for its place. -/
lemma firstStatus?_map_lookup {place : Fin names.length} {order : List (Fin names.length)}
    {reply : Except ServiceError StatusResponse} :
    firstStatus? place (order.map (Incoming.lookup outcome)) = some reply ↔
      place ∈ order ∧ outcome place = reply := by
  induction order with
  | nil => simp [firstStatus?]
  | cons other order ih =>
    rw [List.map_cons, firstStatus?, List.findSome?_cons, ← firstStatus?, List.mem_cons]
    by_cases same : other = place
    · subst same
      simp [Incoming.lookup, status?]
    · have elsewhere : status? place (Incoming.lookup outcome other) = none :=
        if_neg fun h => same (Fin.ext h)
      simp [elsewhere, ih, Ne.symm same]

/-- The summaries of listed workflows, given what each look-up was answered. -/
def Lookup.summaries (outcome : Fin names.length → Except ServiceError StatusResponse) :
    List Summary :=
  List.ofFn fun place => conclude (names.get place) (outcome place)

lemma getElem?_summaries (place : Fin names.length) :
    (Lookup.summaries outcome)[place.val]? =
      some (conclude (names.get place) (outcome place)) := by
  simp [Lookup.summaries]

lemma built_summaries {order : List (Fin names.length)} (all : ∀ place, place ∈ order) :
    Built names (order.map (Incoming.lookup outcome)) (Lookup.summaries outcome) where
  length_eq := by simp [Lookup.summaries]
  entry place name hname := by
    obtain ⟨bound, rfl⟩ := List.getElem?_eq_some_iff.mp hname
    exact ⟨outcome ⟨place, bound⟩, firstStatus?_map_lookup.mpr ⟨all ⟨place, bound⟩, rfl⟩,
      getElem?_summaries ⟨place, bound⟩⟩

/-- Summaries that are built are those of the outcomes. -/
lemma Built.eq_summaries {order : List (Fin names.length)} {built : List Summary}
    (h : Built names (order.map (Incoming.lookup outcome)) built) :
    built = Lookup.summaries outcome ∧ ∀ place, place ∈ order := by
  have all : ∀ place, place ∈ order := by
    intro place
    obtain ⟨reply, answered, -⟩ := h.entry place (names.get place) (by simp)
    exact (firstStatus?_map_lookup.mp answered).1
  exact ⟨h.unique (built_summaries all), all⟩

end Outcomes

/-- A summary tells what the look-up of a stored file was answered. -/
structure Summary.Tells (s : Summary) (fileName : String)
    (outcome : Except ServiceError StatusResponse) : Prop where
  /-- It has the full name of the file. -/
  name_eq : s.name = fileName
  /-- A status that is there is shown. -/
  status_eq : ∀ response status, outcome = .ok response → response.status = some status →
    status ≠ "" → s.status = status
  /-- A status that is missing or empty is shown as pending. -/
  pending : ∀ response, outcome = .ok response →
    response.status = none ∨ response.status = some "" → s.status = "pending"
  /-- The last run is the text of the answer, empty if it has none. -/
  lastRun_eq : ∀ response, outcome = .ok response → s.lastRun = some (response.lastRun.getD "")
  /-- A failed look-up leaves the status unknown. -/
  unknown : ∀ e, outcome = .error e → s.status = "unknown" ∧ s.lastRun = none

lemma Summary.nonempty?_of_ne {text : String} (hne : text ≠ "") :
    nonempty? (some text) = some text :=
  Option.filter_eq_some_iff.mpr ⟨rfl, decide_eq_true hne⟩

lemma Lookup.conclude_tells (fileName : String) (outcome : Except ServiceError StatusResponse) :
    (conclude fileName outcome).Tells fileName outcome where
  name_eq := by cases outcome <;> rfl
  status_eq := by
    rintro response status rfl hstatus hne
    rw [conclude, Summary.ofStatus, hstatus, Summary.nonempty?_of_ne hne, Option.getD_some]
  pending := by
    rintro response rfl missing
    rw [conclude, Summary.ofStatus]
    obtain hnone | hempty := missing
    · rw [hnone]
      rfl
    · rw [hempty]
      rfl
  lastRun_eq := by
    rintro response rfl
    rfl
  unknown := by
    rintro e rfl
    exact ⟨rfl, rfl⟩

/-! ## The whole course -/

/-- The course of a reconciliation whose list was answered with names. -/
structure Reconciles (names : List String) : Prop where
  /-- Before the list is answered, nothing but the list is asked for. -/
  first : Action.calls (Command.reconcile.run []).actions = [.workflows]
  /-- From the answered list on, before any look-up is answered and whatever comes in then, there is
  exactly one look-up for each entry, under its name without the ending. -/
  once : ∀ replies,
    Action.calls (Command.reconcile.run (.listing (.ok ⟨names⟩) :: replies)).actions =
      .workflows :: names.map fun fileName => .status (workflowStem fileName)
  /-- Whatever comes in, the reconciliation does not fail. -/
  unfailing : ∀ replies e,
    (Command.reconcile.run (.listing (.ok ⟨names⟩) :: replies)).progress ≠ .reconciled (.error e)
  /-- While a look-up is out, the reconciliation is not over. -/
  waiting : ∀ outcome (order : List (Fin names.length)), (∃ place, place ∉ order) →
    ∃ lookups, (Command.reconcile.run
      (.listing (.ok ⟨names⟩) :: order.map (Incoming.lookup outcome))).progress =
        .lookingUp lookups
  /-- When all look-ups are answered, in whatever order, there is a summary for each entry at its
  own place, and it tells what its own look-up was answered. -/
  complete : ∀ outcome (order : List (Fin names.length)), (∀ place, place ∈ order) →
    ∃ summaries, (Command.reconcile.run
      (.listing (.ok ⟨names⟩) :: order.map (Incoming.lookup outcome))).progress =
        .reconciled (.ok summaries) ∧
      summaries.length = names.length ∧
        ∀ place : Fin names.length, ∃ s, summaries[place.val]? = some s ∧
          s.Tells (names.get place) (outcome place)
  /-- Two runs agree at every entry whose look-up was answered alike. -/
  isolated : ∀ outcome outcome' (order order' : List (Fin names.length)) summaries summaries',
    (Command.reconcile.run
      (.listing (.ok ⟨names⟩) :: order.map (Incoming.lookup outcome))).progress =
        .reconciled (.ok summaries) →
    (Command.reconcile.run
      (.listing (.ok ⟨names⟩) :: order'.map (Incoming.lookup outcome'))).progress =
        .reconciled (.ok summaries') →
    ∀ place, outcome place = outcome' place → summaries[place.val]? = summaries'[place.val]?

/-- Reconciling is exact and keeps look-ups apart.  It fails just when the list cannot be had, and
then nothing is looked up; otherwise every entry is looked up once and together with the others, and
the outcome is the same for all orders of the replies. -/
theorem reconciliation_exact :
    (∀ e replies,
      (Command.reconcile.run (.listing (.error e) :: replies)).progress = .reconciled (.error e) ∧
        Action.calls (Command.reconcile.run (.listing (.error e) :: replies)).actions =
          [.workflows]) ∧
      ∀ names, Reconciles names := by
  refine ⟨run_unlisted, fun names => ?_⟩
  constructor
  case first => rfl
  case once => exact fun replies => (run_listing names replies).2
  case unfailing =>
    intro replies e
    rw [(run_listing names replies).1]
    obtain ⟨summaries, done⟩ | out := lookedUp_cases names replies
    · simp [done]
    · simp [out]
  case waiting =>
    intro outcome order ⟨place, missing⟩
    rw [(run_listing names _).1]
    obtain ⟨summaries, done⟩ | out := lookedUp_cases names (order.map (Incoming.lookup outcome))
    · have all := (lookedUp_eq_reconciled_iff.mp done).eq_summaries.2
      exact absurd (all place) missing
    · exact ⟨_, out⟩
  case complete =>
    intro outcome order all
    have built : Built names (order.map (Incoming.lookup outcome)) (Lookup.summaries outcome) :=
      built_summaries all
    refine ⟨Lookup.summaries outcome, ?_, built.length_eq, fun place => ?_⟩
    · rw [(run_listing names _).1]
      exact lookedUp_eq_reconciled_iff.mpr built
    · exact ⟨_, getElem?_summaries place, conclude_tells _ _⟩
  case isolated =>
    intro outcome outcome' order order' summaries summaries' done done' place same
    rw [(run_listing names _).1, lookedUp_eq_reconciled_iff] at done done'
    rw [done.eq_summaries.1, done'.eq_summaries.1, getElem?_summaries, getElem?_summaries, same]

/-- The look-up of the second file is answered first and the one of the first fails. -/
example :
    (Command.reconcile.run [.listing (.ok ⟨["a.json", "b"]⟩),
      ⟨1, .status "b", .ok ⟨some "success", none⟩⟩,
      ⟨0, .status "a", .error (.http .transport)⟩]).progress =
        .reconciled (.ok [⟨"a.json", "unknown", none⟩, ⟨"b", "success", some ""⟩]) := rfl

end WorkflowCanvas
