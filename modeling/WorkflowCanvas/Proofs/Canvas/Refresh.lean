import WorkflowCanvas.Proofs.Canvas.Flight

/-!
# The course of a refresh

A flight that refreshes asks for the list of workflows, looks every listed one up and ends.  Where
it is at any moment of a run follows from the events since its listing was answered.
-/

namespace WorkflowCanvas

open Flight Progress Session

/-! ## Answered listings -/

/-- The replies among events that are brought for the flight with a number. -/
def incomings (number : Nat) (events : List Event) : List Incoming :=
  events.filterMap (Event.incoming? number)

lemma incomings_append_singleton (number : Nat) (events : List Event) (e : Event) :
    incomings number (events ++ [e]) =
      incomings number events ++ (e.incoming? number).toList := by
  rw [incomings, List.filterMap_append, ← incomings, List.filterMap_cons]
  cases e.incoming? number <;> rfl

/-- The list of workflows that a flight asked for was answered with these names, and these events
have followed. -/
def Listed (events : List Event) (number : Nat) (stored : Option String) (names : List String)
    (since : List Event) : Prop :=
  ∃ asked index,
    (fresh.run asked).flights[number]? = some (.refreshAt stored .listing) ∧
      events = asked ++ .reply number index .workflows (.ok ⟨names⟩) :: since

/-! ## Flights that refresh -/

namespace Flight

lemma begin_refreshAt_listing (stored : Option String) :
    (refreshAt stored .listing).begin = ⟨refreshAt stored .listing, []⟩ := by
  rw [begin, advance_refreshAt stored _ (by simp [Progress.begin, idle])]
  rfl

/-- The answered listing leads to the look-ups. -/
lemma receive_listing (stored : Option String) (index : Nat) (response : WorkflowListResponse) :
    (refreshAt stored .listing).receive index .workflows (.ok response) =
      ⟨(settled stored (lookedUp response.workflows [])).flight,
        (lookUp (.ok response)).actions ++
          (settled stored (lookedUp response.workflows [])).actions⟩ := by
  rw [← lookUp_progress, receive, advance_refreshAt]
  · rfl
  · intro request outcome
    exact lookUp_progress response ▸ lookedUp_ne_concluded _ _ request outcome

/-- The calls that follow the answered listing. -/
lemma settled_calls (stored : Option String) (response : WorkflowListResponse) :
    Action.calls ((lookUp (.ok response)).actions ++
      (settled stored (lookedUp response.workflows [])).actions) =
      response.workflows.map Lookup.call := by
  rw [Action.calls, List.filterMap_append, ← Action.calls, lookUp_calls]
  obtain ⟨summaries, done⟩ | out := lookedUp_cases response.workflows []
  · rw [done]
    exact List.append_nil _
  · rw [out]
    exact List.append_nil _

/-- The failed listing ends the refresh. -/
lemma receive_unlisted (stored : Option String) (index : Nat) (e : ServiceError) :
    (refreshAt stored .listing).receive index .workflows (.error e) =
      ⟨.resolved (unlisted stored e), [.log (unlistedLog e)]⟩ := by
  rw [receive, advance_refreshAt stored _ (by simp [Progress.receive, lookUp])]
  rfl

/-- A reply to something else does not answer the listing. -/
lemma receive_listing_other (stored : Option String) (index : Nat) {call : Call}
    (other : call ≠ .workflows) (reply : call.Reply) :
    (refreshAt stored .listing).receive index call reply = ⟨refreshAt stored .listing, []⟩ := by
  cases call with
  | workflows => exact absurd rfl other
  | _ =>
    rw [receive, advance_refreshAt stored _ (by simp [Progress.receive, idle])]
    rfl

lemma begin_lookedUp (stored : Option String) {names : List String} {replies : List Incoming}
    (out : lookedUp names replies = .lookingUp (Lookup.allAfter names replies)) :
    (settled stored (lookedUp names replies)).flight.begin =
      ⟨(settled stored (lookedUp names replies)).flight, []⟩ := by
  rw [out, settled_lookingUp, begin, advance_refreshAt _ _ (by simp [Progress.begin, idle])]
  rfl

/-- A reply moves the look-ups of a flight on. -/
lemma receive_lookedUp (stored : Option String) {names : List String} {replies : List Incoming}
    (out : lookedUp names replies = .lookingUp (Lookup.allAfter names replies)) (x : Incoming) :
    (settled stored (lookedUp names replies)).flight.receive x.index x.call x.reply =
      ⟨(settled stored (lookedUp names (replies ++ [x]))).flight,
        ((lookedUp names replies).receive x.index x.call x.reply).actions ++
          (settled stored (lookedUp names (replies ++ [x]))).actions⟩ := by
  rw [← Progress.receive_lookedUp, out, settled_lookingUp, receive, advance_refreshAt]
  intro request outcome
  rw [← out, Progress.receive_lookedUp]
  exact lookedUp_ne_concluded _ _ request outcome

/-- A flight whose listing was answered takes its replies in whatever order they come. -/
lemma take_lookedUp (number : Nat) (stored : Option String) (names : List String)
    (replies : List Incoming) (e : Event) :
    (settled stored (lookedUp names replies)).flight.take number e =
      (settled stored (lookedUp names (replies ++ (e.incoming? number).toList))).flight := by
  obtain ⟨summaries, done⟩ | out := lookedUp_cases names replies
  · have built := (lookedUp_eq_reconciled_iff.mp done).append (e.incoming? number).toList
    rw [lookedUp_eq_reconciled_iff.mpr built, done]
    exact take_resolved number _ e
  · cases e with
    | gesture gesture => simp [take, Event.addressee?, Event.incoming?]
    | start task => simp [take, Event.addressee?, Event.incoming?]
    | begin n => simp [take, Event.move, begin_lookedUp stored out, Event.incoming?]
    | reply n index call reply =>
      by_cases own : n = number
      · have received := receive_lookedUp stored out ⟨index, call, reply⟩
        simp only at received
        simp [take, Event.addressee?, Event.move, Event.incoming?, own, received]
      · simp [take, Event.addressee?, Event.incoming?, own]

end Flight

namespace Listed

variable {events : List Event} {number : Nat} {stored : Option String} {names : List String}
  {since : List Event}

lemma append (listed : Listed events number stored names since) (e : Event) :
    Listed (events ++ [e]) number stored names (since ++ [e]) := by
  obtain ⟨asked, index, there, rfl⟩ := listed
  exact ⟨asked, index, there, by simp⟩

/-- Where a flight is whose listing was answered. -/
theorem flight (listed : Listed events number stored names since) :
    (fresh.run events).flights[number]? =
      some (settled stored (lookedUp names (incomings number since))).flight := by
  obtain ⟨asked, index, there, rfl⟩ := listed
  induction since using List.reverseRecOn with
  | nil =>
    rw [run_append_singleton, step_flight there, take_of_addressee rfl, Event.move, receive_listing]
    rfl
  | append_singleton since e ih =>
    rw [← List.cons_append, ← List.append_assoc, run_append_singleton, step_flight ih,
      take_lookedUp, incomings_append_singleton]

end Listed

/-! ## The account of a flight -/

/-- A task refreshes: plainly, or behind an upload stored under a name. -/
def Task.Refreshes (task : Task) : Option String → Prop
  | none => task = .refresh
  | some _ => task = .upload

/-- How the flight of a task may stand after events. -/
inductive Account (events : List Event) (number : Nat) (task : Task) : Flight → Prop
  | ready (c : Canvas) : Account events number task (.start c task)
  | asked {c : Canvas} {request : Request} (command : task.command c = .request request) :
      Account events number task (.first (.asked request))
  | concluded {c : Canvas} {request : Request} (command : task.command c = .request request)
      (outcome : Except ServiceError String) :
      Account events number task (.resolved (outcome.map .text))
  | listing {stored : Option String} (refreshes : task.Refreshes stored) :
      Account events number task (.refreshAt stored .listing)
  | unlisted {stored : Option String} (refreshes : task.Refreshes stored) (e : ServiceError) :
      Account events number task (.resolved (Flight.unlisted stored e))
  | listed {stored : Option String} {names : List String} {since : List Event}
      (refreshes : task.Refreshes stored) (listed : Listed events number stored names since) :
      Account events number task (settled stored (lookedUp names (incomings number since))).flight

namespace Flight

/-- A request that was asked waits for its reply and concludes with it. -/
lemma receive_asked (request : Request) (index : Nat) (call : Call) (reply : call.Reply) :
    (first (.asked request)).receive index call reply = ⟨.first (.asked request), []⟩ ∨
      ∃ line outcome, (first (.asked request)).receive index call reply =
        ⟨(conclude request outcome).flight, .log line :: (conclude request outcome).actions⟩ := by
  cases request <;> cases call <;> first | exact .inl rfl | exact .inr ⟨_, _, rfl⟩

end Flight

namespace Account

variable {events : List Event} {number : Nat} {task : Task} {f : Flight}

/-- Behind a request the flight has an outcome, or it refreshes behind an upload. -/
lemma of_conclude {c : Canvas} {request : Request} (command : task.command c = .request request)
    (outcome : Except ServiceError String) :
    Account events number task (conclude request outcome).flight := by
  cases request with
  | upload document =>
    cases outcome with
    | error e => exact .concluded command (.error e)
    | ok fileName =>
      have upload : task = .upload := by
        cases task <;> simp_all [Task.command]
      exact @listing events number task (some fileName) upload
  | run workflow => exact .concluded command outcome
  | schedule request => exact .concluded command outcome

/-- An event leaves a flight with an account. -/
theorem take (account : Account events number task f)
    (there : (fresh.run events).flights[number]? = some f) (e : Event) :
    Account (events ++ [e]) number task (f.take number e) := by
  -- one case per stage; what is addressed to another flight does not count
  cases account with
  | ready c =>
    by_cases own : e.addressee? = some number
    · rw [take_of_addressee own]
      cases e with
      | begin n =>
        cases task with
        | upload => exact @asked _ _ _ c _ rfl
        | run workflow => exact @asked _ _ _ c _ rfl
        | schedule request => exact @asked _ _ _ c _ rfl
        | refresh => exact @listing _ _ _ none rfl
      | reply n index call reply => exact .ready c
      | _ => cases own
    · rw [take_of_not_addressee own]
      exact .ready c
  | @asked c request command =>
    by_cases own : e.addressee? = some number
    · rw [take_of_addressee own]
      cases e with
      | begin n => exact .asked command
      | reply n index call reply =>
        rw [Event.move]
        obtain idle | ⟨line, outcome, concludes⟩ := receive_asked request index call reply
        · rw [idle]
          exact .asked command
        · rw [concludes]
          exact of_conclude command outcome
      | _ => cases own
    · rw [take_of_not_addressee own]
      exact .asked command
  | concluded command outcome =>
    rw [take_resolved]
    exact .concluded command outcome
  | @listing stored refreshes =>
    by_cases own : e.addressee? = some number
    · rw [take_of_addressee own]
      cases e with
      | begin n =>
        rw [Event.move, begin_refreshAt_listing]
        exact .listing refreshes
      | reply n index call reply =>
        cases own
        rw [Event.move]
        by_cases answers : call = .workflows
        · subst answers
          cases reply with
          | error error =>
            rw [receive_unlisted]
            exact .unlisted refreshes error
          | ok response =>
            rw [receive_listing]
            exact @listed _ _ _ _ _ [] refreshes ⟨events, index, there, rfl⟩
        · rw [receive_listing_other stored index answers]
          exact .listing refreshes
      | _ => cases own
    · rw [take_of_not_addressee own]
      exact .listing refreshes
  | unlisted refreshes error =>
    rw [take_resolved]
    exact .unlisted refreshes error
  | listed refreshes listed =>
    rw [take_lookedUp, ← incomings_append_singleton]
    exact .listed refreshes (listed.append e)

end Account

namespace Session

/-- Every flight of a run has an account of the task it was started for. -/
theorem account_run {events : List Event} {number : Nat} {f : Flight}
    (there : (fresh.run events).flights[number]? = some f) :
    ∃ task, (tasks events)[number]? = some task ∧ Account events number task f := by
  induction events using List.reverseRecOn generalizing f with
  | nil => cases there
  | append_singleton events e ih =>
    rw [run_append_singleton] at there
    rw [tasks_append_singleton]
    cases before : (fresh.run events).flights[number]? with
    | some g =>
      rw [step_flight before] at there
      cases there
      obtain ⟨task, started, account⟩ := ih before
      refine ⟨task, ?_, account.take before e⟩
      rw [List.getElem?_append_left (List.getElem?_eq_some_iff.mp started).1, started]
    | none =>
      have beyond := List.getElem?_eq_none_iff.mp before
      by_cases nobody : ∀ n, e.addressee? = some n → (fresh.run events).flights[n]? = none
      · rw [(step_of_no_flight nobody).1, List.getElem?_append_right beyond,
          List.getElem?_map] at there
        obtain ⟨task, started, rfl⟩ := Option.map_eq_some_iff.mp there
        refine ⟨task, ?_, .ready _⟩
        rw [length_flights_run] at beyond started
        rw [List.getElem?_append_right beyond, started]
      · push Not at nobody
        obtain ⟨n, addressee, moved⟩ := nobody
        obtain ⟨g, hg⟩ := Option.ne_none_iff_exists'.mp moved
        rw [(step_of_addressee addressee hg).1, List.getElem?_eq_none] at there
        · cases there
        · rw [List.length_set]
          exact beyond

/-- A flight that has asked for the list belongs to a task that refreshes. -/
lemma refreshes_of_listing {events : List Event} {number : Nat} {stored : Option String}
    (there : (fresh.run events).flights[number]? = some (refreshAt stored .listing)) :
    ∃ task, (tasks events)[number]? = some task ∧ task.Refreshes stored := by
  obtain ⟨task, started, account⟩ := account_run there
  refine ⟨task, started, ?_⟩
  generalize h : refreshAt stored .listing = f at account
  cases account with
  | ready c => cases stored <;> cases h
  | asked command => cases stored <;> cases h
  | concluded command outcome => cases stored <;> cases h
  | @listing stored' refreshes =>
    obtain rfl : stored = stored' := by
      cases stored <;> cases stored' <;> simp_all [refreshAt]
    exact refreshes
  | unlisted refreshes error => cases stored <;> cases h
  | @listed stored' names since refreshes listed =>
    obtain ⟨summaries, done⟩ | out := lookedUp_cases names (incomings number since)
    · rw [done] at h
      cases stored <;> cases h
    · rw [out] at h
      cases stored <;> cases stored' <;> cases h

end Session

end WorkflowCanvas
