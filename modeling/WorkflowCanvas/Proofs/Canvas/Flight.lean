import Mathlib.Data.List.Induction
import WorkflowCanvas.Canvas.Session
import WorkflowCanvas.Proofs.Command.Reconcile

/-!
# A flight among others

In a run of a session a flight moves by the events addressed to it and by nothing else.  What an
event adds to the list beside the canvas is decided by the flight it moves, and only a refresh that
has built its list adds anything.
-/

namespace WorkflowCanvas

/-! ## What actions install -/

namespace Action

/-- The lists that actions install, in order. -/
def installs (actions : List Action) : List (List Summary) := actions.filterMap installed?

@[simp] lemma installs_nil : installs [] = [] := rfl

@[simp] lemma installs_append (first second : List Action) :
    installs (first ++ second) = installs first ++ installs second :=
  List.filterMap_append

lemma shown_of_installs_nil {actions : List Action} (quiet : installs actions = [])
    (before : List Summary) : shown before actions = before := by
  simp only [installs] at quiet
  simp [shown, quiet]

lemma shown_of_installs {actions : List Action} {summaries : List Summary}
    (installed : installs actions = [summaries]) (before : List Summary) :
    shown before actions = summaries := by
  simp only [installs] at installed
  simp [shown, installed]

/-- The actions only ask the service and write to the log. -/
def Quiet (actions : List Action) : Prop :=
  ∀ action ∈ actions, action.installed? = none ∧ action.notice? = none

namespace Quiet

variable {actions : List Action}

lemma append {more : List Action} (quiet : Quiet actions) (quiet' : Quiet more) :
    Quiet (actions ++ more) :=
  List.forall_mem_append.mpr ⟨quiet, quiet'⟩

lemma installs (quiet : Quiet actions) : Action.installs actions = [] :=
  List.filterMap_eq_nil_iff.mpr fun action h => (quiet action h).1

lemma notices (quiet : Quiet actions) : Action.notices actions = [] :=
  List.filterMap_eq_nil_iff.mpr fun action h => (quiet action h).2

end Quiet

lemma quiet_nil : Quiet [] := by simp [Quiet]

lemma quiet_logs (lines : List Log) : Quiet (lines.map .log) :=
  List.forall_mem_map.mpr fun _ _ => ⟨rfl, rfl⟩

end Action

namespace Progress

lemma gather_quiet (lookups : List Lookup) {actions : List Action} (quiet : Action.Quiet actions) :
    Action.Quiet (gather lookups actions).actions := by
  unfold gather
  cases lookups.mapM Lookup.summary with
  | none => exact quiet
  | some summaries => exact quiet.append (Action.quiet_logs [reconciledLog summaries])

lemma lookUp_quiet (reply : Except ServiceError WorkflowListResponse) :
    Action.Quiet (lookUp reply).actions := by
  cases reply with
  | error e => exact Action.quiet_logs [unlistedLog e]
  | ok response => exact gather_quiet _ (List.forall_mem_map.mpr fun _ _ => ⟨rfl, rfl⟩)

lemma takeStatus_quiet (lookups : List Lookup) (index : Nat)
    (reply : Except ServiceError StatusResponse) :
    Action.Quiet (takeStatus lookups index reply).actions := by
  unfold takeStatus
  split
  · exact gather_quiet _ (Action.quiet_logs _)
  · exact Action.quiet_nil

/-- Commands neither install a list nor tell the user. -/
lemma receive_quiet (p : Progress) (index : Nat) (c : Call) (reply : c.Reply) :
    Action.Quiet (p.receive index c reply).actions := by
  unfold receive
  split
  · exact Action.quiet_logs [_]
  · exact Action.quiet_logs [_]
  · exact Action.quiet_logs [_]
  · exact lookUp_quiet _
  · exact takeStatus_quiet _ _ _
  · exact Action.quiet_nil

end Progress

/-! ## Flights on a refresh -/

namespace Flight

/-- A flight on a refresh: a plain one, or the one behind an upload stored under a name. -/
def refreshAt (stored : Option String) (p : Progress) : Flight :=
  match stored with
  | none => .first p
  | some fileName => .refreshing fileName p

/-- What a refresh that has built its list resolves to. -/
def refreshed (stored : Option String) (summaries : List Summary) : Task.Value :=
  match stored with
  | none => .count summaries.length
  | some fileName => .text fileName

/-- What a refresh resolves to when its listing fails; an upload has succeeded all the same. -/
def unlisted (stored : Option String) (e : ServiceError) : Except ServiceError Task.Value :=
  match stored with
  | none => .error e
  | some fileName => .ok (.text fileName)

/-- Where a refresh that has got this far has led its flight. -/
def settled (stored : Option String) : Progress → Move
  | .reconciled (.ok summaries) =>
    ⟨.resolved (.ok (refreshed stored summaries)), [.install summaries]⟩
  | .reconciled (.error e) => ⟨.resolved (unlisted stored e), []⟩
  | p => ⟨refreshAt stored p, []⟩

@[simp] lemma settled_ok (stored : Option String) (summaries : List Summary) :
    settled stored (.reconciled (.ok summaries)) =
      ⟨.resolved (.ok (refreshed stored summaries)), [.install summaries]⟩ := rfl

@[simp] lemma settled_lookingUp (stored : Option String) (lookups : List Lookup) :
    settled stored (.lookingUp lookups) = ⟨refreshAt stored (.lookingUp lookups), []⟩ := rfl

lemma advance_refreshAt (stored : Option String) (p : Progress) {step : Progress → Step}
    (onRefresh : ∀ request outcome, (step p).progress ≠ .concluded request outcome) :
    (refreshAt stored p).advance step =
      ⟨(settled stored (step p).progress).flight,
        (step p).actions ++ (settled stored (step p).progress).actions⟩ := by
  cases h : (step p).progress with
  | concluded request outcome => exact absurd h (onRefresh request outcome)
  | reconciled outcome =>
    cases stored <;> cases outcome <;> simp only [refreshAt, advance, h] <;> rfl
  | _ => cases stored <;> simp only [refreshAt, advance, h] <;> rfl

/-- A flight on a refresh is not resolved. -/
lemma outcome?_refreshAt (stored : Option String) (p : Progress) :
    (refreshAt stored p).outcome? = none := by
  cases stored <;> rfl

end Flight

/-! ## The events of a flight -/

namespace Event

/-- The flight that an event is addressed to. -/
def addressee? : Event → Option Nat
  | .begin number => some number
  | .reply number _ _ _ => some number
  | _ => none

/-- The move that an event is for the flight it is addressed to. -/
def move (e : Event) (f : Flight) : Move :=
  match e with
  | .begin _ => f.begin
  | .reply _ index call answer => f.receive index call answer
  | _ => ⟨f, []⟩

/-- The task that an event starts. -/
def task? : Event → Option Task
  | .start task => some task
  | _ => none

/-- The reply that an event brings for the flight with a number. -/
def incoming? (number : Nat) : Event → Option Incoming
  | .reply n index call answer => if n = number then some ⟨index, call, answer⟩ else none
  | _ => none

lemma eq_reply_of_incoming? {number : Nat} {e : Event} {x : Incoming}
    (brings : e.incoming? number = some x) : e = .reply number x.index x.call x.reply := by
  cases e with
  | reply n index call answer =>
    obtain ⟨rfl, h⟩ := Option.ite_none_right_eq_some.mp brings
    cases h
    rfl
  | _ => cases brings

end Event

/-- The flight with a number after an event. -/
def Flight.take (number : Nat) (f : Flight) (e : Event) : Flight :=
  if e.addressee? = some number then (e.move f).flight else f

lemma Flight.take_of_addressee {number : Nat} {e : Event} (own : e.addressee? = some number)
    (f : Flight) : f.take number e = (e.move f).flight :=
  if_pos own

lemma Flight.take_of_not_addressee {number : Nat} {e : Event}
    (other : e.addressee? ≠ some number) (f : Flight) : f.take number e = f :=
  if_neg other

lemma Flight.take_resolved (number : Nat) (outcome : Except ServiceError Task.Value) (e : Event) :
    (Flight.resolved outcome).take number e = .resolved outcome := by
  unfold Flight.take
  split
  · cases e <;> rfl
  · rfl

namespace Session

lemma run_append (s : Session) (first second : List Event) :
    s.run (first ++ second) = (s.run first).run second := List.foldl_append

lemma run_append_singleton (s : Session) (events : List Event) (e : Event) :
    s.run (events ++ [e]) = ((s.run events).step e).1 := by
  rw [run_append]
  rfl

/-- An event that is addressed to a flight moves that flight. -/
lemma step_of_addressee {s : Session} {e : Event} {number : Nat} {f : Flight}
    (addressee : e.addressee? = some number) (there : s.flights[number]? = some f) :
    (s.step e).1.flights = s.flights.set number (e.move f).flight ∧
      (s.step e).1.summaries = Action.shown s.summaries (e.move f).actions ∧
      (s.step e).2 = Action.calls (e.move f).actions := by
  cases e with
  | gesture gesture => cases addressee
  | start task => cases addressee
  | begin n =>
    cases addressee
    simp only [step, advance, there]
    exact ⟨rfl, rfl, rfl⟩
  | reply n index call reply =>
    cases addressee
    simp only [step, advance, there]
    exact ⟨rfl, rfl, rfl⟩

/-- An event that moves no flight changes nothing that is shown beside the canvas. -/
lemma step_of_no_flight {s : Session} {e : Event}
    (nobody : ∀ number, e.addressee? = some number → s.flights[number]? = none) :
    (s.step e).1.flights = s.flights ++ e.task?.toList.map (Flight.start s.canvas) ∧
      (s.step e).1.summaries = s.summaries := by
  cases e with
  | gesture gesture => simp [step, perform, Event.task?]
  | start task => simp [step, start, Event.task?]
  | begin number => simp [step, advance, nobody number rfl, Event.task?]
  | reply number index call reply => simp [step, advance, nobody number rfl, Event.task?]

/-- A flight takes the events addressed to it. -/
lemma step_flight {s : Session} {number : Nat} {f : Flight}
    (there : s.flights[number]? = some f) (e : Event) :
    (s.step e).1.flights[number]? = some (f.take number e) := by
  have bound := (List.getElem?_eq_some_iff.mp there).1
  by_cases nobody : ∀ n, e.addressee? = some n → s.flights[n]? = none
  · have other : e.addressee? ≠ some number := by
      intro h
      rw [nobody number h] at there
      cases there
    rw [(step_of_no_flight nobody).1, List.getElem?_append_left bound, there,
      Flight.take_of_not_addressee other]
  · push Not at nobody
    obtain ⟨n, addressee, moved⟩ := nobody
    obtain ⟨g, hg⟩ := Option.ne_none_iff_exists'.mp moved
    rw [(step_of_addressee addressee hg).1]
    by_cases same : n = number
    · subst same
      rw [there] at hg
      cases hg
      rw [List.getElem?_set_self bound, Flight.take_of_addressee addressee]
    · have other : e.addressee? ≠ some number := by
        rw [addressee]
        simpa using same
      rw [List.getElem?_set_ne same, there, Flight.take_of_not_addressee other]

/-- Over a run, a flight takes the events addressed to it. -/
lemma run_flight {s : Session} {number : Nat} {f : Flight} (there : s.flights[number]? = some f)
    (events : List Event) :
    (s.run events).flights[number]? = some (events.foldl (Flight.take number) f) := by
  induction events generalizing s f with
  | nil => exact there
  | cons e events ih => exact ih (step_flight there e)

/-- Outcomes are final. -/
lemma run_outcome? {s : Session} {number : Nat} {outcome : Except ServiceError Task.Value}
    (resolved : s.outcome? number = some outcome) (events : List Event) :
    (s.run events).outcome? number = some outcome := by
  obtain ⟨f, there, resolved⟩ := Option.bind_eq_some_iff.mp resolved
  obtain rfl : f = .resolved outcome := by
    cases f <;> simp_all [Flight.outcome?]
  have kept : events.foldl (Flight.take number) (.resolved outcome) = .resolved outcome := by
    induction events with
    | nil => rfl
    | cons e events ih => rw [List.foldl_cons, Flight.take_resolved, ih]
  rw [outcome?, run_flight there, kept]
  rfl

/-- The tasks that events start; the number of each is the number of tasks before it. -/
def tasks (events : List Event) : List Task := events.filterMap Event.task?

lemma tasks_append_singleton (events : List Event) (e : Event) :
    tasks (events ++ [e]) = tasks events ++ e.task?.toList := by
  rw [tasks, List.filterMap_append, ← tasks, List.filterMap_cons]
  cases e.task? <;> rfl

/-- Every task has its flight. -/
lemma length_flights_run (events : List Event) :
    (fresh.run events).flights.length = (tasks events).length := by
  induction events using List.reverseRecOn with
  | nil => rfl
  | append_singleton events e ih =>
    rw [run_append_singleton, tasks_append_singleton, List.length_append, ← ih]
    generalize fresh.run events = s
    by_cases nobody : ∀ n, e.addressee? = some n → s.flights[n]? = none
    · rw [(step_of_no_flight nobody).1, List.length_append, List.length_map]
    · push Not at nobody
      obtain ⟨n, addressee, moved⟩ := nobody
      obtain ⟨g, hg⟩ := Option.ne_none_iff_exists'.mp moved
      rw [(step_of_addressee addressee hg).1, List.length_set]
      cases e <;> first | rfl | cases addressee

end Session

end WorkflowCanvas
