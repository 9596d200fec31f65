import Mathlib.Data.List.Forall2
import WorkflowCanvas.Proofs.Canvas.Display
import WorkflowCanvas.Proofs.Canvas.Ledger

/-!
# What the user is told

What the user is told over a run is the ledger of outcomes, entry by entry, and nothing else.  The
refresh behind an upload fails in silence, since the upload itself has succeeded; that it has is
told before the list of workflows is asked for.
-/

namespace WorkflowCanvas

open Flight Progress Session

/-! ## Notices -/

/-- What the user is told of an outcome. -/
def Conclusion.notice (c : Conclusion) : Notice := c.request.notice c.outcome

namespace Notice

/-- Where the command went that a notice is about. -/
def endpoint : Notice → Endpoint
  | uploadSucceeded _ | uploadFailed => .upload
  | runStarted _ | runFailed => .run
  | scheduleSaved _ | scheduleFailed => .schedule

/-- The text that a notice carries. -/
def carried? : Notice → Option String
  | uploadSucceeded text | runStarted text | scheduleSaved text => some text
  | _ => none

/-- A notice reports an outcome: it is one of the request's own kind, a failure if the outcome is
one, and otherwise it carries the text of the outcome. -/
structure Reports (notice : Notice) (c : Conclusion) : Prop where
  endpoint : notice.endpoint = c.request.call.endpoint
  failure : notice.isFailure = true ↔ ∃ e, c.outcome = .error e
  text : ∀ text, c.outcome = .ok text → notice.carried? = some text

end Notice

lemma Conclusion.notice_reports (c : Conclusion) : c.notice.Reports c := by
  obtain ⟨number, request, outcome⟩ := c
  cases request <;> cases outcome <;>
    exact ⟨rfl, by simp [notice, Request.notice, Notice.isFailure],
      by simp [notice, Request.notice, Notice.carried?]⟩

namespace Action

@[simp] lemma notices_append (first second : List Action) :
    notices (first ++ second) = notices first ++ notices second :=
  List.filterMap_append

end Action

namespace Flight

lemma step_quiet (e : Event) (p : Progress) : Action.Quiet (e.step p).actions := by
  cases e with
  | begin number =>
    cases p with
    | ready command => cases command <;> simp [Event.step, Progress.begin, Action.Quiet,
        Action.installed?, Action.notice?]
    | _ => exact Action.quiet_nil
  | reply number index call answer => exact receive_quiet _ _ _ _
  | _ => exact Action.quiet_nil

lemma settle_notices (number : Nat) (p : Progress) :
    Action.notices (settle p).actions =
      (p.conclusion? number).toList.map Conclusion.notice := by
  cases p with
  | concluded request outcome => cases request <;> cases outcome <;> rfl
  | reconciled outcome => cases outcome <;> rfl
  | _ => rfl

lemma settleRefresh_notices (fileName : String) (p : Progress) :
    Action.notices (settleRefresh fileName p).actions = [] := by
  cases p with
  | reconciled outcome => cases outcome <;> rfl
  | _ => rfl

/-- A flight tells the outcomes of its request and nothing else. -/
lemma move_notices {e : Event} {number : Nat} (own : e.addressee? = some number) (f : Flight) :
    Action.notices (e.move f).actions =
      (f.conclusion? number e).toList.map Conclusion.notice := by
  rw [move_eq_advance own]
  cases f with
  | first p =>
    simp only [advance, Action.notices_append, (step_quiet e p).notices, List.nil_append]
    rw [conclusion?_first own]
    exact settle_notices number _
  | refreshing fileName p =>
    simp only [advance, Action.notices_append, (step_quiet e p).notices, List.nil_append]
    rw [conclusion?_refreshing]
    exact settleRefresh_notices fileName _
  | resolved outcome =>
    rw [conclusion?_resolved]
    rfl

end Flight

namespace Session

lemma history_step_of_addressee {s : Session} {e : Event} {number : Nat} {f : Flight}
    (own : e.addressee? = some number) (there : s.flights[number]? = some f) :
    (s.step e).1.history = s.history ++ (e.move f).actions := by
  cases e <;> cases own <;> simp only [step, advance, there] <;> rfl

/-- What an event tells the user. -/
lemma notices_step (s : Session) (e : Event) :
    (s.step e).1.notices = s.notices ++ (s.conclusion? e).toList.map Conclusion.notice := by
  cases own : e.addressee? with
  | none =>
    have none : s.conclusion? e = none := by rw [conclusion?, own, Option.bind_none]
    rw [none]
    cases e with
    | gesture gesture =>
      show Action.notices (s.history ++ _) = _
      rw [Action.notices_append, (Action.quiet_logs _).notices]
      rfl
    | start task => exact (List.append_nil _).symm
    | _ => cases own
  | some number =>
    cases there : s.flights[number]? with
    | none =>
      have none : s.conclusion? e = none := by
        rw [conclusion?, own, Option.bind_some, there, Option.bind_none]
      rw [none]
      cases e <;> cases own <;> simp [step, advance, there]
    | some f =>
      have some : s.conclusion? e = f.conclusion? number e := by
        rw [conclusion?, own, Option.bind_some, there, Option.bind_some]
      rw [notices, history_step_of_addressee own there, Action.notices_append, move_notices own,
        some]
      rfl

/-- Over a run the user is told the ledger. -/
theorem notices_run (events : List Event) :
    (fresh.run events).notices = (fresh.conclusions events).map Conclusion.notice := by
  induction events using List.reverseRecOn with
  | nil => exact (Action.quiet_logs Graph.starterLog).notices
  | append_singleton events e ih =>
    rw [run_append_singleton, notices_step, ih, conclusions_append_singleton, List.map_append]

end Session

/-! ## The event that makes an entry -/

namespace Request.Stands

variable {number : Nat} {request : Request} {entries : List Conclusion} {f : Flight} {e : Event}

lemma request_eq (stands : Stands number request entries f) {c : Conclusion}
    (entry : c ∈ entries) : c.request = request := by
  cases stands <;> simp_all

/-- A task resolves to the outcome in its entry. -/
lemma resolves (stands : Stands number request entries f) {outcome : Except ServiceError Task.Value}
    (resolved : f.outcome? = some outcome) {c : Conclusion} (entry : c ∈ entries) :
    outcome = c.outcome.map .text := by
  cases stands with
  | resolved own =>
    obtain rfl := List.mem_singleton.mp entry
    exact (Option.some.inj resolved).symm
  | _ => cases resolved

/-- Only what was asked gets an outcome. -/
lemma asked_of_conclusion? (stands : Stands number request entries f) {c : Conclusion}
    (own : e.addressee? = some number) (concludes : f.conclusion? number e = some c) :
    f = .first (.asked c.request) ∧
      e.step (.asked c.request) =
        ⟨.concluded c.request c.outcome, [.log (c.request.log c.outcome)]⟩ := by
  cases stands with
  | ready =>
    rw [conclusion?_first own] at concludes
    obtain waits | sets := step_ready request e
    · rw [waits] at concludes
      cases concludes
    · rw [sets] at concludes
      cases concludes
  | asked =>
    rw [conclusion?_first own] at concludes
    obtain waits | ⟨outcome, answered⟩ := step_asked request e
    · rw [waits] at concludes
      cases concludes
    · rw [answered] at concludes
      cases concludes
      exact ⟨rfl, answered⟩
  | resolved outcome =>
    rw [conclusion?_resolved] at concludes
    cases concludes
  | refreshing upload fileName refreshing =>
    rw [conclusion?_refreshing] at concludes
    cases concludes

/-- The task of a request asks for the list of workflows only when an upload has succeeded. -/
lemma exists_upload_of_workflows (stands : Stands number request entries f)
    (own : e.addressee? = some number) (lists : .workflows ∈ Action.calls (e.move f).actions) :
    ∃ document fileName,
      f.conclusion? number e = some ⟨number, .upload document, .ok fileName⟩ := by
  rw [move_eq_advance own] at lists
  cases stands with
  | ready =>
    obtain waits | sets := step_ready request e
    · rw [Flight.advance, waits] at lists
      cases lists
    · rw [Flight.advance, sets] at lists
      cases request <;> simp [settle, Action.calls, Action.call?, Request.call] at lists
  | asked =>
    obtain waits | ⟨outcome, answered⟩ := step_asked request e
    · rw [Flight.advance, waits] at lists
      cases lists
    · rw [conclusion?_first own, answered]
      rw [Flight.advance, answered] at lists
      cases request with
      | upload document =>
        cases outcome with
        | error error => cases lists
        | ok fileName => exact ⟨document, fileName, rfl⟩
      | run workflow => cases lists
      | schedule body => cases lists
  | resolved outcome => cases lists
  | @refreshing document upload fileName p refreshing =>
    have silent : Action.calls (settleRefresh fileName (e.step p).progress).actions = [] := by
      obtain still | ⟨outcome, done⟩ := refreshing.step e
      · rw [settleRefresh_of_refreshing fileName still]
        rfl
      · rw [done]
        cases outcome <;> rfl
    rw [Flight.advance, Action.calls_append, silent, List.append_nil] at lists
    exact absurd lists (refreshing.calls_step e)

end Request.Stands

/-! ## Runs -/

namespace Session

/-- An entry is for a task with a request, and it is the request captured at the start. -/
lemma exists_owner {events : List Event} {c : Conclusion} (entry : c ∈ fresh.conclusions events) :
    ∃ before task after, events = before ++ .start task :: after ∧
      (tasks before).length = c.number ∧
        task.command (Canvas.edited before) = .request c.request := by
  have own : c ∈ Conclusion.of c.number (fresh.conclusions events) :=
    Conclusion.mem_of.mpr ⟨entry, rfl⟩
  obtain ⟨before, task, after, f, split, number, -, ⟨request, captured, stands⟩ | ⟨-, none, -⟩⟩ :=
    exists_stands (number_lt_of_mem_conclusions entry)
  · rw [← stands.request_eq own] at captured
    exact ⟨before, task, after, split, number, captured⟩
  · rw [none] at own
    cases own

/-- A task with an entry resolves to the outcome in it. -/
lemma resolves_of_mem_conclusions {events : List Event} {c : Conclusion}
    (entry : c ∈ fresh.conclusions events) {outcome : Except ServiceError Task.Value}
    (resolved : (fresh.run events).outcome? c.number = some outcome) :
    outcome = c.outcome.map .text := by
  have own : c ∈ Conclusion.of c.number (fresh.conclusions events) :=
    Conclusion.mem_of.mpr ⟨entry, rfl⟩
  obtain ⟨-, -, -, f, -, -, there, ⟨request, -, stands⟩ | ⟨-, none, -⟩⟩ :=
    exists_stands (number_lt_of_mem_conclusions entry)
  · rw [outcome?, there] at resolved
    exact stands.resolves resolved own
  · rw [none] at own
    cases own

/-- The flight that gets an outcome is one that has asked. -/
lemma asked_of_conclusion? {events : List Event} {e : Event} {c : Conclusion}
    (concludes : (fresh.run events).conclusion? e = some c) :
    e.addressee? = some c.number ∧
      (fresh.run events).flights[c.number]? = some (.first (.asked c.request)) ∧
        e.step (.asked c.request) =
          ⟨.concluded c.request c.outcome, [.log (c.request.log c.outcome)]⟩ := by
  obtain ⟨own, f, there, brings⟩ := exists_of_conclusion? concludes
  have bound := (List.getElem?_eq_some_iff.mp there).1
  rw [length_flights_run] at bound
  obtain ⟨-, -, -, f', -, -, there', ⟨request, -, stands⟩ | ⟨-, -, refreshes⟩⟩ :=
    exists_stands bound
  · obtain rfl := Option.some.inj (there.symm.trans there')
    obtain ⟨rfl, answered⟩ := stands.asked_of_conclusion? own brings
    exact ⟨own, there, answered⟩
  · obtain rfl := Option.some.inj (there.symm.trans there')
    rw [(refreshes.take c.number e).1] at brings
    cases brings

/-- The user is told of a stored document, and then the list is asked for. -/
lemma history_of_stored {events : List Event} {e : Event} {number : Nat} {document : Document}
    {fileName : String} (concludes : (fresh.run events).conclusion? e =
      some ⟨number, .upload document, .ok fileName⟩) :
    ∃ told asked, (fresh.run (events ++ [e])).history =
        (fresh.run events).history ++ told ++ asked ∧
      .notify (.uploadSucceeded fileName) ∈ told ∧ Action.calls told = [] ∧
        Action.calls asked = [.workflows] ∧ Action.notices asked = [] := by
  obtain ⟨own, there, answered⟩ := asked_of_conclusion? concludes
  refine ⟨.log (Request.log (.upload document) (.ok fileName)) ::
    tell (.uploadSucceeded fileName), [.call .workflows], ?_, ?_, rfl, rfl, rfl⟩
  · rw [run_append_singleton, history_step_of_addressee own there, move_eq_advance own,
      Flight.advance, answered, List.append_assoc]
    rfl
  · exact List.mem_cons_of_mem _ List.mem_cons_self

/-- The list of workflows is asked for by plain refreshes and behind stored documents. -/
lemma asks_for_list {events : List Event} {e : Event}
    (lists : .workflows ∈ ((fresh.run events).step e).2) :
    ∃ number, e.addressee? = some number ∧
      ((tasks events)[number]? = some .refresh ∨
        ∃ document fileName, (fresh.run events).conclusion? e =
          some ⟨number, .upload document, .ok fileName⟩) := by
  obtain ⟨number, f, own, there, made⟩ := exists_flight_of_call lists
  refine ⟨number, own, ?_⟩
  have bound := (List.getElem?_eq_some_iff.mp there).1
  rw [length_flights_run] at bound
  obtain ⟨before, task, after, f', rfl, rfl, there', standing⟩ := exists_stands bound
  obtain rfl := Option.some.inj (there.symm.trans there')
  obtain ⟨request, -, stands⟩ | ⟨rfl, -, -⟩ := standing
  · obtain ⟨document, fileName, stored⟩ := stands.exists_upload_of_workflows own made
    refine .inr ⟨document, fileName, ?_⟩
    rw [conclusion?, own, Option.bind_some, there, Option.bind_some, stored]
  · left
    simp [tasks, List.filterMap_append, Event.task?]

/-- A task whose request has failed asks for no list, neither before nor afterwards. -/
lemma not_lists_of_failed {before after : List Event} {e : Event} {c : Conclusion}
    {error : ServiceError} (entry : c ∈ fresh.conclusions (before ++ e :: after))
    (failed : c.outcome = .error error) (own : e.addressee? = some c.number) :
    .workflows ∉ ((fresh.run before).step e).2 := by
  intro lists
  obtain ⟨number, addressee, plain | ⟨document, fileName, stored⟩⟩ := asks_for_list lists
  · -- the task is a refresh, and those have no entries
    obtain rfl := Option.some.inj (own.symm.trans addressee)
    obtain ⟨start, task, rest, split, number, captured⟩ := exists_owner entry
    have started : (tasks (before ++ e :: after))[c.number]? = some task := by
      rw [split, ← number]
      simp [tasks, List.filterMap_append, Event.task?]
    rw [tasks, List.filterMap_append, ← tasks,
      List.getElem?_append_left (List.getElem?_eq_some_iff.mp plain).1, plain] at started
    cases started
    cases captured
  · -- the task has stored a document, and it has one entry only
    obtain rfl := Option.some.inj (own.symm.trans addressee)
    have other : ⟨c.number, .upload document, .ok fileName⟩ ∈
        fresh.conclusions (before ++ e :: after) := by
      rw [conclusions_append, conclusions, stored]
      simp
    have same := List.inj_on_of_nodup_map (nodup_conclusions _) other entry rfl
    rw [← same] at failed
    cases failed

end Session

/-- The notices over a run, as they have to be. -/
structure TellsOnce (events : List Event) : Prop where
  /-- The user is told the ledger: one notice for each entry, in order, and nothing else. -/
  notices : List.Forall₂ Notice.Reports (fresh.run events).notices (fresh.conclusions events)
  /-- A task has at most one entry. -/
  once : ((fresh.conclusions events).map Conclusion.number).Nodup
  /-- An entry is for a task with a request, and it is the request captured at the start. -/
  owned : ∀ c ∈ fresh.conclusions events, ∃ before task after,
    events = before ++ .start task :: after ∧ (tasks before).length = c.number ∧
      task.command (Canvas.edited before) = .request c.request
  /-- A task with a request waits and has no entry, or it has the outcome that its entry says. -/
  stands : ∀ before task after request, events = before ++ .start task :: after →
    task.command (Canvas.edited before) = .request request →
      ∃ f, (fresh.run events).flights[(tasks before).length]? = some f ∧
        request.Stands (tasks before).length
          (Conclusion.of (tasks before).length (fresh.conclusions events)) f
  /-- A plain refresh has no entry. -/
  silent : ∀ before after, events = before ++ .start .refresh :: after →
    Conclusion.of (tasks before).length (fresh.conclusions events) = []
  /-- What is asked gets its outcome with the reply, whatever the reply is. -/
  answered : ∀ number index request, ∀ answer : request.call.Reply,
    (fresh.run events).flights[number]? = some (.first (.asked request)) →
      (fresh.run events).conclusion? (.reply number index request.call answer) =
        some ⟨number, request, request.conclude answer⟩
  /-- A task with an entry resolves to the outcome in it. -/
  resolves : ∀ c ∈ fresh.conclusions events, ∀ outcome,
    (fresh.run events).outcome? c.number = some outcome → outcome = c.outcome.map .text
  /-- The user is told of a stored document before the list is asked for. -/
  stored : ∀ e number document fileName,
    (fresh.run events).conclusion? e = some ⟨number, .upload document, .ok fileName⟩ →
      ∃ told asked, (fresh.run (events ++ [e])).history =
          (fresh.run events).history ++ told ++ asked ∧
        .notify (.uploadSucceeded fileName) ∈ told ∧ Action.calls told = [] ∧
          Action.calls asked = [.workflows] ∧ Action.notices asked = []
  /-- Besides a plain refresh only that asks for the list. -/
  lists : ∀ e, .workflows ∈ ((fresh.run events).step e).2 →
    ∃ number, e.addressee? = some number ∧
      ((tasks events)[number]? = some .refresh ∨
        ∃ document fileName, (fresh.run events).conclusion? e =
          some ⟨number, .upload document, .ok fileName⟩)
  /-- A task whose request has failed asks for no list, neither before nor afterwards. -/
  failed : ∀ c ∈ fresh.conclusions events, ∀ error, c.outcome = .error error →
    ∀ before e after, events = before ++ e :: after → e.addressee? = some c.number →
      .workflows ∉ ((fresh.run before).step e).2
  /-- An upload resolves to the stored name when the listing behind it fails. -/
  unlisted : ∀ number index fileName error,
    (fresh.run events).flights[number]? = some (.refreshing fileName .listing) →
      (fresh.run (events ++ [.reply number index .workflows (.error error)])).outcome? number =
        some (.ok (.text fileName))
  /-- So it does when the refresh behind it is complete. -/
  refreshed : ∀ e number fileName summaries, Completes events e number (some fileName) summaries →
    (fresh.run (events ++ [e])).outcome? number = some (.ok (.text fileName))

/-- A run and an upload overlap; the listing behind the upload fails. -/
example :
    (fresh.run [.start .upload, .start (.run "a.json"), .begin 0, .begin 1,
      .reply 1 0 (.run "a") (.error (.http .transport)),
      .reply 0 0 (.upload ⟨"", "", ""⟩) (.ok ⟨"b.json"⟩),
      .reply 0 0 .workflows (.error (.http .transport))]).notices =
      [.runFailed, .uploadSucceeded "b.json"] := by
  rw [notices_run]
  rfl

end WorkflowCanvas
