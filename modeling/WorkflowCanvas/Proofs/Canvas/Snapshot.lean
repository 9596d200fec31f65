import WorkflowCanvas.Proofs.Canvas.Flight
import WorkflowCanvas.Proofs.Command.Reconciliation

/-!
# Tasks under way and the canvas

A task takes what it needs when it is started, and sends it when it sets out, however long that is
afterwards.  Later gestures and renames do not reach it, and neither do other tasks; nothing that
becomes of a task reaches the canvas.
-/

namespace WorkflowCanvas

open Flight Progress Session

/-! ## The canvas under gestures -/

/-- The gesture that an event is. -/
def Event.gesture? : Event → Option Gesture
  | .gesture g => some g
  | _ => none

/-- The gestures among events. -/
def gestures (events : List Event) : List Gesture := events.filterMap Event.gesture?

/-- The canvas after gestures. -/
def Canvas.performAll (c : Canvas) (gestures : List Gesture) : Canvas :=
  gestures.foldl (fun c gesture => (c.perform gesture).2) c

/-- The canvas that gestures among events make of the one a user starts with. -/
def Canvas.edited (events : List Event) : Canvas := Canvas.starter.performAll (gestures events)

namespace Session

lemma canvas_advance (s : Session) (number : Nat) (move : Flight → Move) :
    (s.advance number move).1.canvas = s.canvas := by
  unfold advance
  cases s.flights[number]? <;> rfl

lemma canvas_step (s : Session) (e : Event) :
    (s.step e).1.canvas = s.canvas.performAll e.gesture?.toList := by
  cases e with
  | gesture gesture => rfl
  | start task => rfl
  | begin number => exact canvas_advance s number _
  | reply number index call reply => exact canvas_advance s number _

/-- Over a run the canvas goes through the gestures and through nothing else. -/
lemma canvas_run (events : List Event) : (fresh.run events).canvas = Canvas.edited events := by
  induction events using List.reverseRecOn with
  | nil => rfl
  | append_singleton events e ih =>
    rw [run_append_singleton, canvas_step, ih, Canvas.edited, Canvas.edited, gestures, gestures,
      List.filterMap_append, Canvas.performAll, Canvas.performAll, Canvas.performAll,
      List.foldl_append]
    cases e <;> rfl

end Session

/-! ## What a task sends -/

/-- Whether a call carries something of the user's. -/
def Call.isRequest : Call → Bool
  | .upload _ | .run _ | .schedule _ => true
  | .workflows | .status _ => false

/-- What a task sends that is started on a canvas. -/
def Task.sent (c : Canvas) : Task → Call
  | .upload =>
    .upload ⟨c.name ++ ".json", "application/json", (Document.ofGraph c.graph c.name).toJson⟩
  | .run workflow => .run (workflowStem workflow)
  | .schedule request => .schedule request.body
  | .refresh => .workflows

/-- The command is under way or over. -/
def Progress.HasBegun (p : Progress) : Prop := ∀ command, p ≠ .ready command

/-- The task has set out. -/
def Flight.HasBegun : Flight → Prop
  | .first p => p.HasBegun
  | .refreshing _ p => p.HasBegun
  | .resolved _ => True

/-- The actions send nothing of the user's. -/
def Action.NoRequests (actions : List Action) : Prop :=
  ∀ call ∈ Action.calls actions, call.isRequest = false

namespace Action

lemma NoRequests.append {first second : List Action} (h : NoRequests first)
    (h' : NoRequests second) : NoRequests (first ++ second) := by
  intro call hcall
  rw [calls_append] at hcall
  exact (List.mem_append.mp hcall).elim (h call) (h' call)

lemma noRequests_of_calls_nil {actions : List Action} (h : calls actions = []) :
    NoRequests actions := by
  intro call hcall
  rw [h] at hcall
  cases hcall

end Action

namespace Progress

lemma gather_hasBegun (lookups : List Lookup) (actions : List Action) :
    (gather lookups actions).progress.HasBegun := by
  rw [gather_progress, gathered]
  intro command
  cases lookups.mapM Lookup.summary <;> simp

lemma lookUp_hasBegun (reply : Except ServiceError WorkflowListResponse) :
    (lookUp reply).progress.HasBegun := by
  cases reply with
  | error e => exact fun _ => nofun
  | ok response => exact gather_hasBegun _ _

lemma lookUp_noRequests (reply : Except ServiceError WorkflowListResponse) :
    Action.NoRequests (lookUp reply).actions := by
  cases reply with
  | error e => exact Action.noRequests_of_calls_nil rfl
  | ok response =>
    intro call hcall
    rw [lookUp_calls] at hcall
    obtain ⟨fileName, -, rfl⟩ := List.mem_map.mp hcall
    rfl

lemma takeStatus_hasBegun (lookups : List Lookup) (index : Nat)
    (reply : Except ServiceError StatusResponse) :
    (takeStatus lookups index reply).progress.HasBegun := by
  unfold takeStatus
  split
  · exact gather_hasBegun _ _
  · exact fun _ => nofun

lemma begin_of_hasBegun {p : Progress} (begun : p.HasBegun) : p.begin = p.idle := by
  cases p with
  | ready command => exact absurd rfl (begun command)
  | _ => rfl

/-- A reply does not set a command back, and makes it send nothing of the user's. -/
lemma receive_of_hasBegun {p : Progress} (begun : p.HasBegun) (index : Nat) (call : Call)
    (reply : call.Reply) :
    (p.receive index call reply).progress.HasBegun ∧
      Action.NoRequests (p.receive index call reply).actions := by
  unfold receive
  split
  · exact ⟨fun _ => nofun, Action.noRequests_of_calls_nil rfl⟩
  · exact ⟨fun _ => nofun, Action.noRequests_of_calls_nil rfl⟩
  · exact ⟨fun _ => nofun, Action.noRequests_of_calls_nil rfl⟩
  · exact ⟨lookUp_hasBegun _, lookUp_noRequests _⟩
  · exact ⟨takeStatus_hasBegun _ _ _, Action.noRequests_of_calls_nil (takeStatus_calls _ _ _)⟩
  · exact ⟨begun, Action.noRequests_of_calls_nil rfl⟩

end Progress

namespace Flight

lemma settle_of_hasBegun {p : Progress} (begun : p.HasBegun) :
    (settle p).flight.HasBegun ∧ Action.NoRequests (settle p).actions := by
  cases p with
  | ready command => exact absurd rfl (begun command)
  | concluded request outcome =>
    -- only an upload goes on, and then with the list of workflows
    cases request <;> cases outcome <;>
      simp [settle, conclude, HasBegun, Progress.HasBegun, Progress.begin, Action.NoRequests,
        Action.calls, Action.call?, tell, Call.isRequest]
  | reconciled outcome =>
    cases outcome <;> exact ⟨trivial, Action.noRequests_of_calls_nil rfl⟩
  | _ => exact ⟨begun, Action.noRequests_of_calls_nil rfl⟩

lemma settleRefresh_of_hasBegun (fileName : String) {p : Progress} (begun : p.HasBegun) :
    (settleRefresh fileName p).flight.HasBegun ∧
      Action.NoRequests (settleRefresh fileName p).actions := by
  cases p with
  | reconciled outcome =>
    cases outcome <;> exact ⟨trivial, Action.noRequests_of_calls_nil rfl⟩
  | _ => exact ⟨begun, Action.noRequests_of_calls_nil rfl⟩

lemma advance_of_hasBegun {f : Flight} (begun : f.HasBegun) {step : Progress → Step}
    (steps : ∀ p : Progress, p.HasBegun →
      (step p).progress.HasBegun ∧ Action.NoRequests (step p).actions) :
    (f.advance step).flight.HasBegun ∧ Action.NoRequests (f.advance step).actions := by
  cases f with
  | first p =>
    obtain ⟨progress, actions⟩ := steps p begun
    obtain ⟨flight, more⟩ := settle_of_hasBegun progress
    exact ⟨flight, actions.append more⟩
  | refreshing fileName p =>
    obtain ⟨progress, actions⟩ := steps p begun
    obtain ⟨flight, more⟩ := settleRefresh_of_hasBegun fileName progress
    exact ⟨flight, actions.append more⟩
  | resolved outcome => exact ⟨trivial, Action.noRequests_of_calls_nil rfl⟩

/-- A task that has set out sends nothing of the user's any more. -/
lemma move_of_hasBegun {f : Flight} (begun : f.HasBegun) (e : Event) :
    (e.move f).flight.HasBegun ∧ Action.NoRequests (e.move f).actions := by
  cases e with
  | begin number =>
    refine advance_of_hasBegun begun fun p hp => ?_
    rw [begin_of_hasBegun hp]
    exact ⟨hp, Action.noRequests_of_calls_nil rfl⟩
  | reply number index call reply =>
    exact advance_of_hasBegun begun fun p hp => receive_of_hasBegun hp index call reply
  | _ => exact ⟨begun, Action.noRequests_of_calls_nil rfl⟩

lemma foldl_take_of_hasBegun (number : Nat) {f : Flight} (begun : f.HasBegun)
    (events : List Event) : (events.foldl (take number) f).HasBegun := by
  induction events generalizing f with
  | nil => exact begun
  | cons e events ih =>
    refine ih ?_
    unfold take
    split
    · exact (move_of_hasBegun begun e).1
    · exact begun

/-! ## Before a task sets out -/

variable (number : Nat) (c : Canvas) (task : Task)

/-- A task that sets out sends what was captured when it was started. -/
lemma begin_start : (start c task).begin.flight.HasBegun ∧
    Action.calls (start c task).begin.actions = [task.sent c] := by
  cases task <;> exact ⟨fun _ => nofun, rfl⟩

/-- A reply to a task that has not set out changes nothing. -/
lemma take_start {e : Event} (other : e ≠ .begin number) :
    (start c task).take number e = start c task := by
  unfold take
  split
  · rename_i own
    cases e with
    | begin n => exact absurd (congrArg Event.begin (Option.some.inj own)) other
    | _ => rfl
  · rfl

/-- Until it sets out a task stays as it was started, and then it has set out for good. -/
lemma foldl_take_start (events : List Event) :
    (.begin number ∉ events ∧ events.foldl (take number) (start c task) = start c task) ∨
      (.begin number ∈ events ∧ (events.foldl (take number) (start c task)).HasBegun) := by
  induction events with
  | nil => exact .inl ⟨List.not_mem_nil, rfl⟩
  | cons e events ih =>
    by_cases sets : e = .begin number
    · subst sets
      refine .inr ⟨List.mem_cons_self, ?_⟩
      rw [List.foldl_cons, take_of_addressee rfl]
      exact foldl_take_of_hasBegun number (begin_start c task).1 events
    · rw [List.foldl_cons, take_start number c task sets]
      obtain ⟨later, waits⟩ | ⟨later, begun⟩ := ih
      · exact .inl ⟨List.not_mem_cons_of_ne_of_not_mem (Ne.symm sets) later, waits⟩
      · exact .inr ⟨List.mem_cons_of_mem e later, begun⟩

/-- Only the events addressed to a flight count for it. -/
lemma foldl_take_filter (f : Flight) (events : List Event) :
    events.foldl (take number) f =
      (events.filter (·.addressee? = some number)).foldl (take number) f := by
  induction events generalizing f with
  | nil => rfl
  | cons e events ih =>
    by_cases own : e.addressee? = some number
    · simp only [List.foldl_cons, List.filter_cons, own, decide_true, if_true, ih]
    · simp only [List.foldl_cons, List.filter_cons, own, decide_false, Bool.false_eq_true, if_false,
        take_of_not_addressee own, ih]

end Flight

/-! ## Tasks in a run -/

namespace Session

/-- Where a task is that was started in the course of a run. -/
lemma flight_of_start (before : List Event) (task : Task) (after : List Event) :
    (fresh.run (before ++ .start task :: after)).flights[(tasks before).length]? =
      some (after.foldl (Flight.take (tasks before).length)
        (Flight.start (Canvas.edited before) task)) := by
  have there : ((fresh.run before).step (.start task)).1.flights[(tasks before).length]? =
      some (Flight.start (Canvas.edited before) task) := by
    rw [← canvas_run, ← length_flights_run]
    exact List.getElem?_concat_length
  rw [run_append]
  exact run_flight there after

/-- Every flight was started by some event. -/
lemma exists_start {events : List Event} {number : Nat} (bound : number < (tasks events).length) :
    ∃ before task after, events = before ++ .start task :: after ∧
      (tasks before).length = number := by
  induction events using List.reverseRecOn with
  | nil => cases bound
  | append_singleton events e ih =>
    by_cases earlier : number < (tasks events).length
    · obtain ⟨before, task, after, rfl, hnumber⟩ := ih earlier
      exact ⟨before, task, after ++ [e], by simp, hnumber⟩
    · rw [tasks_append_singleton] at bound
      cases e with
      | start task =>
        refine ⟨events, task, [], rfl, ?_⟩
        have : number < (tasks events).length + 1 := by simpa [Event.task?] using bound
        omega
      | _ => exact absurd (by simpa [Event.task?] using bound) earlier

/-- An event makes only calls of the flight it is addressed to. -/
lemma exists_flight_of_call {s : Session} {e : Event} {call : Call} (made : call ∈ (s.step e).2) :
    ∃ number f, e.addressee? = some number ∧ s.flights[number]? = some f ∧
      call ∈ Action.calls (e.move f).actions := by
  have addressed : ∃ number, e.addressee? = some number := by
    cases e with
    | gesture gesture => cases made
    | start task => cases made
    | begin number => exact ⟨number, rfl⟩
    | reply number index call reply => exact ⟨number, rfl⟩
  obtain ⟨number, own⟩ := addressed
  cases there : s.flights[number]? with
  | none =>
    have silent : (s.step e).2 = [] := by
      cases e <;> cases own <;> simp [step, advance, there]
    rw [silent] at made
    cases made
  | some f =>
    rw [(step_of_addressee own there).2.2] at made
    exact ⟨number, f, own, there, made⟩

/-- A task sends what it captured, whatever has happened since it was started. -/
lemma calls_begin_of_start {before : List Event} {task : Task} {after : List Event}
    (waits : .begin (tasks before).length ∉ after) :
    ((fresh.run (before ++ .start task :: after)).step (.begin (tasks before).length)).2 =
      [task.sent (Canvas.edited before)] := by
  obtain ⟨-, waiting⟩ | ⟨begun, -⟩ :=
    foldl_take_start (tasks before).length (Canvas.edited before) task after
  · have there := flight_of_start before task after
    rw [waiting] at there
    rw [(step_of_addressee rfl there).2.2]
    exact (begin_start (Canvas.edited before) task).2
  · exact absurd begun waits

end Session

/-- Editing and tasks under way do not interfere in a run of events. -/
structure KeptApart (events : List Event) : Prop where
  /-- The canvas, with its nodes, edges, ids and name, is what the gestures alone make of it. -/
  canvas : (fresh.run events).canvas = Canvas.starter.performAll (gestures events)
  /-- Where a task has got follows from the canvas at its start and the events addressed to it. -/
  flight : ∀ before task after, events = before ++ .start task :: after →
    (fresh.run events).flights[(tasks before).length]? =
      some ((after.filter (·.addressee? = some (tasks before).length)).foldl
        (Flight.take (tasks before).length)
        (Flight.start (Canvas.starter.performAll (gestures before)) task))
  /-- When a task sets out, it sends what the canvas and its input were at its start. -/
  sends : ∀ before task after, events = before ++ .start task :: after →
    .begin (tasks before).length ∉ after →
      ((fresh.run events).step (.begin (tasks before).length)).2 =
        [task.sent (Canvas.starter.performAll (gestures before))]
  /-- Nothing else of the user's is ever sent. -/
  own : ∀ e call, call ∈ ((fresh.run events).step e).2 → call.isRequest = true →
    ∃ before task after, events = before ++ .start task :: after ∧
      e = .begin (tasks before).length ∧ .begin (tasks before).length ∉ after ∧
        call = task.sent (Canvas.starter.performAll (gestures before))

/-- Whatever gestures, tasks and replies are mixed, each upload carries the graph and the name as
they were at its start, each run and each schedule the input it was given, and the canvas is the one
of the gestures. -/
theorem snapshots_keptApart (events : List Event) : KeptApart events where
  canvas := canvas_run events
  flight before task after split := by
    rw [split, flight_of_start, foldl_take_filter]
    rfl
  sends before task after split waits := by
    rw [split]
    exact calls_begin_of_start waits
  own e call made carries := by
    obtain ⟨number, f, own, there, sent⟩ := exists_flight_of_call made
    have bound := (List.getElem?_eq_some_iff.mp there).1
    rw [length_flights_run] at bound
    obtain ⟨before, task, after, rfl, rfl⟩ := exists_start bound
    rw [flight_of_start] at there
    obtain rfl := Option.some.inj there
    obtain ⟨waits, waiting⟩ | ⟨-, begun⟩ :=
      foldl_take_start (tasks before).length (Canvas.edited before) task after
    · refine ⟨before, task, after, rfl, ?_⟩
      rw [waiting] at sent
      cases e with
      | begin n =>
        obtain rfl := Option.some.inj own
        refine ⟨rfl, waits, ?_⟩
        rw [Event.move, (begin_start (Canvas.edited before) task).2] at sent
        exact List.mem_singleton.mp sent
      | reply n index asked reply => cases sent
      | _ => cases own
    · -- it has set out before, and sends no request any more
      have none := (move_of_hasBegun begun e).2 call sent
      rw [carries] at none
      cases none

/-- Two uploads that were started under different names each keep their own. -/
example :
    let s := fresh.run [.start .upload, .gesture (.rename "later"), .start .upload,
      .gesture (.delete "2")]
    (s.step (.begin 1)).2.map Call.endpoint = [.upload] ∧
      ((s.step (.begin 0)).2, (s.step (.begin 1)).2) =
        ([.upload (Document.ofGraph .starter "my_workflow").attachment],
          [.upload (Document.ofGraph .starter "later").attachment]) := ⟨rfl, rfl⟩

end WorkflowCanvas
