import Mathlib.Data.List.Nodup
import WorkflowCanvas.Proofs.Canvas.Snapshot

/-!
# The outcomes of requests

Over a run, the outcomes that requests get make up a ledger.  An entry is made when the reply to
what was asked comes in.  The entries of a task and where it stands follow from each other
(`Request.Stands`): as long as the task waits there is none, and afterwards there is one.  A plain
refresh has no entries.
-/

namespace WorkflowCanvas

open Flight Progress Session

/-! ## The ledger -/

/-- The outcome that the request of a task got. -/
structure Conclusion where
  /-- The number of the task. -/
  number : Nat
  request : Request
  outcome : Except ServiceError String

/-- The outcome of a request, once there is one. -/
def Progress.conclusion? (number : Nat) : Progress → Option Conclusion
  | .concluded request outcome => some ⟨number, request, outcome⟩
  | _ => none

/-- The step that an event is for the command that is under way. -/
def Event.step (e : Event) (p : Progress) : Step :=
  match e with
  | .begin _ => p.begin
  | .reply _ index call answer => p.receive index call answer
  | _ => p.idle

/-- The outcome that an event brings for the request of a flight. -/
def Flight.conclusion? (number : Nat) (f : Flight) (e : Event) : Option Conclusion :=
  if e.addressee? = some number then
    match f with
    | .first p => (e.step p).progress.conclusion? number
    | _ => none
  else none

namespace Flight

lemma conclusion?_first {number : Nat} {e : Event} (own : e.addressee? = some number)
    (p : Progress) : (first p).conclusion? number e = (e.step p).progress.conclusion? number :=
  if_pos own

lemma conclusion?_of_not_addressee {number : Nat} {e : Event}
    (other : e.addressee? ≠ some number) (f : Flight) : f.conclusion? number e = none :=
  if_neg other

@[simp] lemma conclusion?_refreshing (number : Nat) (fileName : String) (p : Progress)
    (e : Event) : (refreshing fileName p).conclusion? number e = none :=
  ite_self _

@[simp] lemma conclusion?_resolved (number : Nat) (outcome : Except ServiceError Task.Value)
    (e : Event) : (resolved outcome).conclusion? number e = none :=
  ite_self _

end Flight

namespace Session

/-- The outcome that an event brings for the request of the flight it is addressed to. -/
def conclusion? (s : Session) (e : Event) : Option Conclusion :=
  e.addressee?.bind fun number => s.flights[number]?.bind (·.conclusion? number e)

/-- The outcomes that events bring, in order. -/
def conclusions (s : Session) : List Event → List Conclusion
  | [] => []
  | e :: events => (s.conclusion? e).toList ++ (s.step e).1.conclusions events

lemma conclusions_append (s : Session) (first second : List Event) :
    s.conclusions (first ++ second) = s.conclusions first ++ (s.run first).conclusions second := by
  induction first generalizing s with
  | nil => rfl
  | cons e first ih =>
    rw [List.cons_append, conclusions, conclusions, ih, List.append_assoc]
    rfl

lemma conclusions_append_singleton (s : Session) (events : List Event) (e : Event) :
    s.conclusions (events ++ [e]) =
      s.conclusions events ++ ((s.run events).conclusion? e).toList := by
  rw [conclusions_append, conclusions, conclusions, List.append_nil]

end Session

/-! ## Commands under an event -/

/-- The command brings the list of workflows up to date and is not done. -/
inductive Progress.Refreshing : Progress → Prop
  | listing : Refreshing .listing
  | lookingUp (lookups : List Lookup) : Refreshing (.lookingUp lookups)

namespace Progress

lemma gather_refreshing (lookups : List Lookup) (actions : List Action) :
    (gather lookups actions).progress.Refreshing ∨
      ∃ outcome, (gather lookups actions).progress = .reconciled outcome := by
  rw [gather_progress, gathered]
  cases lookups.mapM Lookup.summary with
  | none => exact .inl (.lookingUp lookups)
  | some summaries => exact .inr ⟨.ok summaries, rfl⟩

/-- A refresh goes on or is done. -/
lemma Refreshing.step {p : Progress} (refreshing : p.Refreshing) (e : Event) :
    (e.step p).progress.Refreshing ∨ ∃ outcome, (e.step p).progress = .reconciled outcome := by
  cases e with
  | reply number index call answer =>
    cases refreshing with
    | listing =>
      cases call with
      | workflows =>
        cases answer with
        | error error => exact .inr ⟨.error error, rfl⟩
        | ok response => exact gather_refreshing _ _
      | _ => exact .inl .listing
    | lookingUp lookups =>
      cases call with
      | status workflow =>
        simp only [Event.step, receive, takeStatus]
        split
        · exact gather_refreshing _ _
        · exact .inl (.lookingUp lookups)
      | _ => exact .inl (.lookingUp lookups)
  | begin number => cases refreshing <;> exact .inl (by constructor)
  | _ => exact .inl refreshing

/-- A refresh does not ask for the list again. -/
lemma Refreshing.calls_step {p : Progress} (refreshing : p.Refreshing) (e : Event) :
    .workflows ∉ Action.calls (e.step p).actions := by
  cases e with
  | reply number index call answer =>
    cases refreshing with
    | listing =>
      cases call with
      | workflows =>
        cases answer with
        | error error => exact List.not_mem_nil
        | ok response =>
          rw [Event.step, receive, lookUp_calls]
          simp [Lookup.call]
      | _ => exact List.not_mem_nil
    | lookingUp lookups =>
      cases call with
      | status workflow =>
        rw [Event.step, receive, takeStatus_calls]
        exact List.not_mem_nil
      | _ => exact List.not_mem_nil
  | begin number => cases refreshing <;> exact List.not_mem_nil
  | _ => exact List.not_mem_nil

lemma Refreshing.conclusion? {p : Progress} (refreshing : p.Refreshing) (number : Nat) :
    p.conclusion? number = none := by
  cases refreshing <;> rfl

/-- A request waits until it is set out. -/
lemma step_ready (request : Request) (e : Event) :
    e.step (.ready (.request request)) = ⟨.ready (.request request), []⟩ ∨
      e.step (.ready (.request request)) = ⟨.asked request, [.call request.call]⟩ := by
  cases e <;> first | exact .inl rfl | exact .inr rfl

/-- A request that was asked waits for its reply. -/
lemma step_asked (request : Request) (e : Event) :
    e.step (.asked request) = ⟨.asked request, []⟩ ∨
      ∃ outcome, e.step (.asked request) =
        ⟨.concluded request outcome, [.log (request.log outcome)]⟩ := by
  cases e with
  | reply number index call answer =>
    cases request <;> cases call <;> first | exact .inl rfl | exact .inr ⟨_, rfl⟩
  | _ => exact .inl rfl

end Progress

/-! ## Where a task stands -/

/-- Where the task of a request stands that has entries in the ledger. -/
inductive Request.Stands (number : Nat) (request : Request) : List Conclusion → Flight → Prop
  | ready : Stands number request [] (.first (.ready (.request request)))
  | asked : Stands number request [] (.first (.asked request))
  /-- The task resolves to the outcome of its request. -/
  | resolved (outcome : Except ServiceError String) :
    Stands number request [⟨number, request, outcome⟩] (.resolved (outcome.map .text))
  /-- The document is stored, and the list is being refreshed. -/
  | refreshing {document : Document} (upload : request = .upload document) (fileName : String)
    {p : Progress} (refreshing : p.Refreshing) :
    Stands number request [⟨number, request, .ok fileName⟩] (.refreshing fileName p)

/-- Where a plain refresh stands. -/
inductive Flight.Refreshes : Flight → Prop
  | ready : Refreshes (.first (.ready .reconcile))
  | underWay {p : Progress} (refreshing : p.Refreshing) : Refreshes (.first p)
  | resolved (outcome : Except ServiceError Task.Value) : Refreshes (.resolved outcome)

namespace Flight

lemma move_eq_advance {e : Event} {number : Nat} (own : e.addressee? = some number) (f : Flight) :
    e.move f = f.advance e.step := by
  cases e <;> first | rfl | cases own

lemma take_first {number : Nat} {e : Event} (own : e.addressee? = some number) (p : Progress) :
    (first p).take number e = (settle (e.step p).progress).flight := by
  rw [take_of_addressee own, move_eq_advance own]
  rfl

lemma take_refreshing {number : Nat} {e : Event} (own : e.addressee? = some number)
    (fileName : String) (p : Progress) :
    (refreshing fileName p).take number e =
      (settleRefresh fileName (e.step p).progress).flight := by
  rw [take_of_addressee own, move_eq_advance own]
  rfl

lemma settle_of_refreshing {p : Progress} (refreshing : p.Refreshing) :
    settle p = ⟨.first p, []⟩ := by
  cases refreshing <;> rfl

lemma settleRefresh_of_refreshing (fileName : String) {p : Progress} (refreshing : p.Refreshing) :
    settleRefresh fileName p = ⟨.refreshing fileName p, []⟩ := by
  cases refreshing <;> rfl

end Flight

namespace Request

variable {number : Nat} {request : Request} {entries : List Conclusion} {f : Flight}

/-- Behind its outcome the task of a request is resolved, or it goes on as an upload. -/
lemma stands_conclude (number : Nat) (request : Request) (outcome : Except ServiceError String) :
    Stands number request [⟨number, request, outcome⟩]
      (Flight.conclude request outcome).flight := by
  cases request with
  | upload document =>
    cases outcome with
    | error e => exact .resolved (.error e)
    | ok fileName => exact .refreshing rfl fileName .listing
  | run workflow => exact .resolved outcome
  | schedule body => exact .resolved outcome

/-- An event that makes an entry for a task moves the task on. -/
lemma Stands.take (stands : Stands number request entries f) (e : Event) :
    Stands number request (entries ++ (f.conclusion? number e).toList) (f.take number e) := by
  by_cases own : e.addressee? = some number
  · cases stands with
    | ready =>
      rw [conclusion?_first own, take_first own]
      obtain waits | sets := step_ready request e
      · rw [waits]
        exact .ready
      · rw [sets]
        exact .asked
    | asked =>
      rw [conclusion?_first own, take_first own]
      obtain waits | ⟨outcome, concludes⟩ := step_asked request e
      · rw [waits]
        exact .asked
      · rw [concludes]
        exact stands_conclude number request outcome
    | resolved outcome =>
      rw [conclusion?_resolved, take_resolved]
      exact .resolved outcome
    | refreshing upload fileName refreshing =>
      rw [conclusion?_refreshing, take_refreshing own]
      obtain still | ⟨outcome, done⟩ := refreshing.step e
      · rw [settleRefresh_of_refreshing fileName still]
        exact .refreshing upload fileName still
      · rw [done]
        cases outcome <;> exact .resolved (.ok fileName)
  · rw [conclusion?_of_not_addressee own, take_of_not_addressee own, Option.toList_none,
      List.append_nil]
    exact stands

end Request

/-- A plain refresh makes no entry. -/
lemma Flight.Refreshes.take {f : Flight} (refreshes : f.Refreshes) (number : Nat) (e : Event) :
    f.conclusion? number e = none ∧ (f.take number e).Refreshes := by
  by_cases own : e.addressee? = some number
  · cases refreshes with
    | ready =>
      rw [conclusion?_first own, take_first own]
      cases e with
      | begin n => exact ⟨rfl, .underWay .listing⟩
      | _ => exact ⟨rfl, .ready⟩
    | @underWay p refreshing =>
      rw [conclusion?_first own, take_first own]
      obtain still | ⟨outcome, done⟩ := refreshing.step e
      · rw [settle_of_refreshing still]
        exact ⟨still.conclusion? number, .underWay still⟩
      · rw [done]
        cases outcome <;> exact ⟨rfl, .resolved _⟩
    | resolved outcome =>
      rw [conclusion?_resolved, take_resolved]
      exact ⟨rfl, .resolved outcome⟩
  · rw [conclusion?_of_not_addressee own, take_of_not_addressee own]
    exact ⟨rfl, refreshes⟩

/-! ## The entries of a task -/

/-- The entries for the task with a number. -/
def Conclusion.of (number : Nat) (entries : List Conclusion) : List Conclusion :=
  entries.filter (·.number = number)

namespace Conclusion

@[simp] lemma mem_of {number : Nat} {entries : List Conclusion} {c : Conclusion} :
    c ∈ of number entries ↔ c ∈ entries ∧ c.number = number := by
  simp [of]

lemma of_append (number : Nat) (first second : List Conclusion) :
    of number (first ++ second) = of number first ++ of number second :=
  List.filter_append ..

end Conclusion

lemma Flight.number_conclusion? {number : Nat} {f : Flight} {e : Event} {c : Conclusion}
    (concludes : f.conclusion? number e = some c) : c.number = number := by
  unfold Flight.conclusion? at concludes
  split at concludes
  · split at concludes
    · rename_i p
      cases h : (e.step p).progress with
      | concluded request outcome =>
        rw [h] at concludes
        cases concludes
        rfl
      | _ =>
        rw [h] at concludes
        cases concludes
    · cases concludes
  · cases concludes

namespace Session

lemma exists_of_conclusion? {s : Session} {e : Event} {c : Conclusion}
    (concludes : s.conclusion? e = some c) :
    e.addressee? = some c.number ∧
      ∃ f, s.flights[c.number]? = some f ∧ f.conclusion? c.number e = some c := by
  obtain ⟨number, own, h⟩ := Option.bind_eq_some_iff.mp concludes
  obtain ⟨f, there, h⟩ := Option.bind_eq_some_iff.mp h
  obtain rfl := number_conclusion? h
  exact ⟨own, f, there, h⟩

/-- An event makes an entry for a task only when it moves its flight. -/
lemma of_conclusion? {s : Session} {number : Nat} {f : Flight}
    (there : s.flights[number]? = some f) (e : Event) :
    Conclusion.of number (s.conclusion? e).toList = (f.conclusion? number e).toList := by
  by_cases own : e.addressee? = some number
  · have same : s.conclusion? e = f.conclusion? number e := by
      rw [conclusion?, own, Option.bind_some, there, Option.bind_some]
    rw [same]
    cases h : f.conclusion? number e with
    | none => rfl
    | some c => simp [Conclusion.of, number_conclusion? h]
  · rw [conclusion?_of_not_addressee own]
    cases h : s.conclusion? e with
    | none => rfl
    | some c =>
      have other : c.number ≠ number := by
        rintro rfl
        exact own (exists_of_conclusion? h).1
      simp [Conclusion.of, other]

/-- Every entry is for a task that was started. -/
lemma number_lt_of_mem_conclusions {events : List Event} {c : Conclusion}
    (entry : c ∈ fresh.conclusions events) : c.number < (tasks events).length := by
  induction events using List.reverseRecOn with
  | nil => cases entry
  | append_singleton events e ih =>
    rw [tasks_append_singleton, List.length_append]
    rw [conclusions_append_singleton, List.mem_append, Option.mem_toList] at entry
    obtain earlier | new := entry
    · exact Nat.lt_add_right _ (ih earlier)
    · obtain ⟨-, f, there, -⟩ := exists_of_conclusion? new
      have bound := (List.getElem?_eq_some_iff.mp there).1
      rw [length_flights_run] at bound
      exact Nat.lt_add_right _ bound

section

variable (before : List Event) (task : Task) (after : List Event)

/-- Nothing is told of a task before it is started. -/
lemma of_conclusions_start :
    Conclusion.of (tasks before).length (fresh.conclusions (before ++ [.start task])) = [] := by
  have none : (fresh.run before).conclusion? (.start task) = none := rfl
  rw [conclusions_append_singleton, none, Option.toList_none, List.append_nil]
  refine List.filter_eq_nil_iff.mpr fun c entry => ?_
  have := number_lt_of_mem_conclusions entry
  simp only [decide_eq_true_eq]
  omega

/-- The entries of a task and where it stands follow from each other. -/
lemma stands_run {request : Request}
    (captured : task.command (Canvas.edited before) = .request request) :
    request.Stands (tasks before).length
      (Conclusion.of (tasks before).length (fresh.conclusions (before ++ .start task :: after)))
      (after.foldl (Flight.take (tasks before).length)
        (Flight.start (Canvas.edited before) task)) := by
  induction after using List.reverseRecOn with
  | nil =>
    rw [of_conclusions_start, List.foldl_nil, Flight.start, captured]
    exact .ready
  | append_singleton after e ih =>
    rw [← List.cons_append, ← List.append_assoc, conclusions_append_singleton,
      Conclusion.of_append, of_conclusion? (flight_of_start before task after), List.foldl_concat]
    exact ih.take e

lemma refreshes_run (refresh : task.command (Canvas.edited before) = .reconcile) :
    Conclusion.of (tasks before).length (fresh.conclusions (before ++ .start task :: after)) = [] ∧
      (after.foldl (Flight.take (tasks before).length)
        (Flight.start (Canvas.edited before) task)).Refreshes := by
  induction after using List.reverseRecOn with
  | nil =>
    rw [of_conclusions_start, List.foldl_nil, Flight.start, refresh]
    exact ⟨rfl, .ready⟩
  | append_singleton after e ih =>
    obtain ⟨none, refreshes⟩ := ih
    obtain ⟨silent, still⟩ := refreshes.take (tasks before).length e
    rw [← List.cons_append, ← List.append_assoc, conclusions_append_singleton,
      Conclusion.of_append, of_conclusion? (flight_of_start before task after), List.foldl_concat,
      none, silent]
    exact ⟨rfl, still⟩

end

/-- Every started task stands as a request or as a plain refresh. -/
lemma exists_stands {events : List Event} {number : Nat} (bound : number < (tasks events).length) :
    ∃ before task after f, events = before ++ .start task :: after ∧
      (tasks before).length = number ∧ (fresh.run events).flights[number]? = some f ∧
        ((∃ request, task.command (Canvas.edited before) = .request request ∧
            request.Stands number (Conclusion.of number (fresh.conclusions events)) f) ∨
          (task = .refresh ∧ Conclusion.of number (fresh.conclusions events) = [] ∧
            f.Refreshes)) := by
  obtain ⟨before, task, after, rfl, rfl⟩ := exists_start bound
  refine ⟨before, task, after, _, rfl, rfl, flight_of_start before task after, ?_⟩
  cases task with
  | refresh => exact .inr ⟨rfl, refreshes_run before .refresh after rfl⟩
  | _ => exact .inl ⟨_, rfl, stands_run before _ after rfl⟩

lemma length_of_le_one (events : List Event) (number : Nat) :
    (Conclusion.of number (fresh.conclusions events)).length ≤ 1 := by
  by_cases bound : number < (tasks events).length
  · obtain ⟨before, task, after, f, -, -, -, ⟨request, -, stands⟩ | ⟨-, none, -⟩⟩ :=
      exists_stands bound
    · generalize Conclusion.of number (fresh.conclusions events) = entries at stands
      cases stands <;> simp
    · rw [none]
      exact Nat.zero_le 1
  · have none : Conclusion.of number (fresh.conclusions events) = [] := by
      refine List.filter_eq_nil_iff.mpr fun c entry => ?_
      have := number_lt_of_mem_conclusions entry
      simp only [decide_eq_true_eq]
      omega
    rw [none]
    exact Nat.zero_le 1

/-- A task has at most one entry. -/
lemma nodup_conclusions (events : List Event) :
    ((fresh.conclusions events).map Conclusion.number).Nodup := by
  refine List.nodup_iff_count.mpr fun number => ?_
  refine le_of_eq_of_le ?_ (length_of_le_one events number)
  rw [Conclusion.of, ← List.countP_eq_length_filter, List.count, List.countP_map]
  rfl

end Session

end WorkflowCanvas
