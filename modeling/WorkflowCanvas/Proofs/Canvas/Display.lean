import WorkflowCanvas.Proofs.Canvas.Refresh

/-!
# The list beside the canvas

Refreshes of different flights overlap as they please.  Whatever the order of events, the list that
is shown is the one that the refresh completed last has built, out of its own listing and the
replies to its own look-ups.
-/

namespace WorkflowCanvas

open Flight Progress Session

/-! ## Completed refreshes -/

/-- An event completes the refresh of a flight: with it, and not before, every name of the flight's
own listing has been looked up, and the summaries are built from these look-ups. -/
def Completes (before : List Event) (e : Event) (number : Nat) (stored : Option String)
    (summaries : List Summary) : Prop :=
  ∃ names since,
    Listed (before ++ [e]) number stored names since ∧
      Built names (incomings number since) summaries ∧
        ∀ earlier, since = earlier ++ [e] →
          ¬ ∃ complete, Built names (incomings number earlier) complete

/-- An event completes some refresh. -/
def CompletesOne (before : List Event) (e : Event) : Prop :=
  ∃ number stored summaries, Completes before e number stored summaries

/-- What is shown after events: nothing if no refresh has been completed, and otherwise the list of
the refresh that was completed last. -/
inductive Displayed (events : List Event) : List Summary → Prop
  | initial
      (never : ∀ before e after, events = before ++ e :: after → ¬ CompletesOne before e) :
      Displayed events []
  | latest {before after : List Event} {e : Event} {number : Nat} {stored : Option String}
      {summaries : List Summary} (split : events = before ++ e :: after)
      (completes : Completes before e number stored summaries)
      (last : ∀ between e' rest, after = between ++ e' :: rest →
        ¬ CompletesOne (before ++ e :: between) e') :
      Displayed events summaries

/-! ## The event that completes a refresh -/

section Completes

variable {before : List Event} {e : Event} {number : Nat} {stored : Option String}
  {names : List String} {since : List Event} {summaries : List Summary}

/-- A listing without names completes the refresh itself. -/
lemma completes_of_listing
    (there : (fresh.run before).flights[number]? = some (refreshAt stored .listing))
    (index : Nat) (built : Built names [] summaries) :
    Completes before (.reply number index .workflows (.ok ⟨names⟩)) number stored summaries := by
  refine ⟨names, [], ⟨before, index, there, rfl⟩, built, ?_⟩
  intro earlier h
  exact absurd h.symm (by simp)

/-- The reply that was out last completes the refresh. -/
lemma completes_of_incoming (listed : Listed before number stored names since)
    (out : ∀ complete, ¬ Built names (incomings number since) complete)
    (built : Built names (incomings number (since ++ [e])) summaries) :
    Completes before e number stored summaries := by
  refine ⟨names, since ++ [e], listed.append e, built, ?_⟩
  intro earlier h
  obtain rfl := List.append_inj_left' h rfl
  rintro ⟨complete, already⟩
  exact out complete already

/-- There is no other way to complete a refresh. -/
lemma Completes.cases (completes : Completes before e number stored summaries) :
    (∃ names index, e = .reply number index .workflows (.ok ⟨names⟩) ∧
      (fresh.run before).flights[number]? = some (refreshAt stored .listing) ∧
        Built names [] summaries) ∨
    ∃ names since x, e = .reply number x.index x.call x.reply ∧
      Listed before number stored names since ∧
        (∀ complete, ¬ Built names (incomings number since) complete) ∧
          Built names (incomings number since ++ [x]) summaries := by
  obtain ⟨names, since, ⟨asked, index, there, split⟩, built, notEarlier⟩ := completes
  obtain rfl | ⟨earlier, last, rfl⟩ := since.eq_nil_or_concat'
  · obtain ⟨rfl, h⟩ := List.append_inj' split rfl
    obtain rfl := List.singleton_inj.mp h
    exact .inl ⟨names, index, rfl, there, built⟩
  · rw [← List.cons_append, ← List.append_assoc] at split
    obtain ⟨rfl, h⟩ := List.append_inj' split rfl
    obtain rfl := List.singleton_inj.mp h
    have out : ∀ complete, ¬ Built names (incomings number earlier) complete := by
      intro complete already
      exact notEarlier earlier rfl ⟨complete, already⟩
    rw [incomings_append_singleton] at built
    cases hx : e.incoming? number with
    | none =>
      rw [hx, Option.toList_none, List.append_nil] at built
      exact absurd built (out summaries)
    | some x =>
      rw [hx, Option.toList_some] at built
      exact .inr ⟨names, earlier, x, Event.eq_reply_of_incoming? hx,
        ⟨asked, index, there, rfl⟩, out, built⟩

/-- The summaries of an answered listing were complete at one of the events. -/
lemma Listed.exists_completes {events : List Event}
    (listed : Listed events number stored names since)
    (built : Built names (incomings number since) summaries) :
    ∃ before e after, events = before ++ e :: after ∧
      Completes before e number stored summaries := by
  induction since using List.reverseRecOn generalizing events with
  | nil =>
    obtain ⟨asked, index, there, rfl⟩ := listed
    exact ⟨asked, _, [], rfl, completes_of_listing there index built⟩
  | append_singleton since e ih =>
    have earlierListed : ∃ earlier, events = earlier ++ [e] ∧
        Listed earlier number stored names since := by
      obtain ⟨asked, index, there, rfl⟩ := listed
      exact ⟨_, by rw [← List.cons_append, ← List.append_assoc], asked, index, there, rfl⟩
    obtain ⟨earlier, rfl, earlierListed⟩ := earlierListed
    by_cases out : ∀ complete, ¬ Built names (incomings number since) complete
    · exact ⟨earlier, e, [], rfl, completes_of_incoming earlierListed out built⟩
    · push Not at out
      obtain ⟨complete, already⟩ := out
      have same : complete = summaries := by
        have later := already.append (e.incoming? number).toList
        rw [← incomings_append_singleton] at later
        exact later.unique built
      obtain ⟨before, last, after, rfl, completes⟩ := ih earlierListed (same ▸ already)
      exact ⟨before, last, after ++ [e], by simp, completes⟩

lemma lookedUp_of_out {replies : List Incoming}
    (out : ∀ complete, ¬ Built names replies complete) :
    lookedUp names replies = .lookingUp (Lookup.allAfter names replies) := by
  obtain ⟨complete, done⟩ | out' := lookedUp_cases names replies
  · exact absurd (lookedUp_eq_reconciled_iff.mp done) (out complete)
  · exact out'

/-- With the event the flight resolves and the list is shown. -/
lemma Completes.move (completes : Completes before e number stored summaries) :
    ∃ f, (fresh.run before).flights[number]? = some f ∧ e.addressee? = some number ∧
      f.outcome? = none ∧
        (e.move f).flight = .resolved (.ok (refreshed stored summaries)) ∧
          Action.installs (e.move f).actions = [summaries] := by
  obtain ⟨names, index, rfl, there, built⟩ | ⟨names, since, x, rfl, listed, out, built⟩ :=
    completes.cases
  · refine ⟨_, there, rfl, outcome?_refreshAt _ _, ?_⟩
    rw [Event.move, receive_listing, lookedUp_eq_reconciled_iff.mpr built, settled_ok]
    refine ⟨rfl, ?_⟩
    rw [Action.installs_append, (lookUp_quiet _).installs]
    rfl
  · refine ⟨_, listed.flight, rfl, ?_, ?_⟩
    · rw [lookedUp_of_out out]
      exact outcome?_refreshAt _ _
    · rw [Event.move, receive_lookedUp stored (lookedUp_of_out out) x,
        lookedUp_eq_reconciled_iff.mpr built, settled_ok]
      refine ⟨rfl, ?_⟩
      rw [Action.installs_append, (receive_quiet _ _ _ _).installs]
      rfl

/-- A refresh is completed by an answered listing or by the reply to a look-up. -/
lemma CompletesOne.brings (one : CompletesOne before e) :
    (∃ number index response, e = .reply number index .workflows (.ok response)) ∨
      ∃ number index workflow reply, e = .reply number index (.status workflow) reply := by
  obtain ⟨number, stored, summaries, completes⟩ := one
  obtain ⟨names, index, rfl, -⟩ | ⟨names, since, ⟨index, call, reply⟩, rfl, -, out, built⟩ :=
    completes.cases
  · exact .inl ⟨number, index, ⟨names⟩, rfl⟩
  · cases call with
    | status workflow => exact .inr ⟨number, index, workflow, reply, rfl⟩
    | _ =>
      rw [← lookedUp_eq_reconciled_iff, lookedUp_append_of_late fun _ _ _ => .inr rfl,
        lookedUp_eq_reconciled_iff] at built
      exact absurd built (out summaries)

end Completes

/-! ## What an event installs -/

namespace Flight

lemma conclude_installs (request : Request) (outcome : Except ServiceError String) :
    Action.installs (conclude request outcome).actions = [] := by
  cases request <;> cases outcome <;> rfl

lemma move_resolved_installs (e : Event) (outcome : Except ServiceError Task.Value) :
    Action.installs (e.move (.resolved outcome)).actions = [] := by
  cases e <;> rfl

end Flight

/-- An event that installs a list completes a refresh. -/
lemma Account.installs {events : List Event} {number : Nat} {task : Task} {f : Flight} {e : Event}
    (account : Account events number task f)
    (there : (fresh.run events).flights[number]? = some f)
    (own : e.addressee? = some number) (quiet : ¬ CompletesOne events e) :
    Action.installs (e.move f).actions = [] := by
  -- only a listing and a status can install, and either completes the refresh when it does
  cases account with
  | ready c =>
    cases e with
    | begin n => cases task <;> rfl
    | reply n index call reply => cases task <;> rfl
    | _ => cases own
  | @asked c request command =>
    cases e with
    | begin n => rfl
    | reply n index call reply =>
      rw [Event.move]
      obtain idle | ⟨line, outcome, concludes⟩ := receive_asked request index call reply
      · rw [idle, Action.installs_nil]
      · rw [concludes]
        exact conclude_installs request outcome
    | _ => cases own
  | concluded command outcome => exact move_resolved_installs e _
  | @listing stored refreshes =>
    cases e with
    | begin n => rw [Event.move, begin_refreshAt_listing, Action.installs_nil]
    | reply n index call reply =>
      cases own
      rw [Event.move]
      by_cases answers : call = .workflows
      · subst answers
        cases reply with
        | error error =>
          rw [receive_unlisted]
          rfl
        | ok response =>
          have out : ∀ complete, ¬ Built response.workflows [] complete := by
            intro complete built
            exact quiet ⟨_, _, _, completes_of_listing there index built⟩
          rw [receive_listing, Action.installs_append, (lookUp_quiet _).installs,
            lookedUp_of_out out]
          rfl
      · rw [receive_listing_other stored index answers, Action.installs_nil]
    | _ => cases own
  | unlisted refreshes error => exact move_resolved_installs e _
  | @listed stored names since refreshes listed =>
    obtain ⟨summaries, done⟩ | out := lookedUp_cases names (incomings number since)
    · rw [done]
      exact move_resolved_installs e _
    · cases e with
      | begin n => rw [Event.move, begin_lookedUp stored out, Action.installs_nil]
      | reply n index call reply =>
        cases own
        have notYet : ∀ complete, ¬ Built names (incomings number since) complete := by
          intro complete built
          rw [lookedUp_eq_reconciled_iff.mpr built] at out
          cases out
        have still : ∀ complete, ¬ Built names
            (incomings number since ++ [⟨index, call, reply⟩]) complete := by
          intro complete built
          refine quiet ⟨_, stored, complete, completes_of_incoming listed notYet ?_⟩
          rw [incomings_append_singleton, Event.incoming?, if_pos rfl]
          exact built
        rw [Event.move, receive_lookedUp stored out ⟨index, call, reply⟩, Action.installs_append,
          (receive_quiet _ _ _ _).installs, lookedUp_of_out still]
        rfl
      | _ => cases own

/-! ## What is shown over a run -/

namespace Session

/-- The event that completes a refresh shows its list and resolves its flight. -/
lemma run_of_completes {events : List Event} {e : Event} {number : Nat} {stored : Option String}
    {summaries : List Summary} (completes : Completes events e number stored summaries) :
    (fresh.run events).outcome? number = none ∧
      (fresh.run (events ++ [e])).summaries = summaries ∧
        (fresh.run (events ++ [e])).outcome? number =
          some (.ok (refreshed stored summaries)) := by
  obtain ⟨f, there, own, underWay, resolves, installs⟩ := completes.move
  refine ⟨?_, ?_, ?_⟩
  · rw [outcome?, there]
    exact underWay
  · rw [run_append_singleton, (step_of_addressee own there).2.1]
    exact Action.shown_of_installs installs _
  · rw [outcome?, run_append_singleton, step_flight there, take_of_addressee own, resolves]
    rfl

/-- An event that completes no refresh leaves the list as it was. -/
lemma summaries_of_not_completesOne {events : List Event} {e : Event}
    (quiet : ¬ CompletesOne events e) :
    (fresh.run (events ++ [e])).summaries = (fresh.run events).summaries := by
  rw [run_append_singleton]
  by_cases nobody : ∀ n, e.addressee? = some n → (fresh.run events).flights[n]? = none
  · exact (step_of_no_flight nobody).2
  · push Not at nobody
    obtain ⟨n, addressee, moved⟩ := nobody
    obtain ⟨f, there⟩ := Option.ne_none_iff_exists'.mp moved
    obtain ⟨task, -, account⟩ := account_run there
    rw [(step_of_addressee addressee there).2.1]
    exact Action.shown_of_installs_nil (account.installs there addressee quiet) _

/-- A failure of anything but a look-up leaves the list as it was. -/
lemma summaries_of_failure (events : List Event) (number index : Nat) {call : Call}
    (noLookup : ∀ workflow, call ≠ .status workflow) (error : ServiceError) :
    (fresh.run (events ++ [.reply number index call (.error error)])).summaries =
      (fresh.run events).summaries := by
  apply summaries_of_not_completesOne
  intro one
  obtain ⟨n, i, response, h⟩ | ⟨n, i, workflow, reply, h⟩ := one.brings
  · cases h
  · cases h
    exact noLookup workflow rfl

/-- An event in the middle of events is the last one or stands before it. -/
lemma split_append_singleton {events before after : List Event} {e last : Event}
    (split : events ++ [last] = before ++ e :: after) :
    (before = events ∧ e = last ∧ after = []) ∨
      ∃ rest, after = rest ++ [last] ∧ events = before ++ e :: rest := by
  obtain rfl | ⟨rest, last', rfl⟩ := after.eq_nil_or_concat'
  · obtain ⟨rfl, h⟩ := List.append_inj' split rfl
    exact .inl ⟨rfl, (List.singleton_inj.mp h).symm, rfl⟩
  · rw [← List.cons_append, ← List.append_assoc] at split
    obtain ⟨h, h'⟩ := List.append_inj' split rfl
    exact .inr ⟨rest, by rw [List.singleton_inj.mp h'], h⟩

/-- At every moment the list is the one of the refresh that was completed last. -/
lemma displayed_run (events : List Event) : Displayed events (fresh.run events).summaries := by
  -- from the end: the last event shows its own list or leaves the one before it
  induction events using List.reverseRecOn with
  | nil =>
    refine .initial ?_
    intro before e after split
    exact absurd split (by simp)
  | append_singleton events e ih =>
    by_cases one : CompletesOne events e
    · obtain ⟨number, stored, summaries, completes⟩ := one
      rw [(run_of_completes completes).2.1]
      refine .latest rfl completes ?_
      intro between e' rest h
      exact absurd h (by simp)
    · rw [summaries_of_not_completesOne one]
      generalize (fresh.run events).summaries = shown at ih ⊢
      cases ih with
      | initial never =>
        refine .initial ?_
        intro before e' after split
        obtain ⟨rfl, rfl, -⟩ | ⟨rest, -, earlier⟩ := split_append_singleton split
        · exact one
        · exact never before e' rest earlier
      | @latest before after e' number stored _ split completes last =>
        refine .latest (by rw [split, List.append_assoc, List.cons_append]) completes ?_
        intro between e'' rest h
        obtain ⟨rfl, rfl, -⟩ | ⟨rest, -, earlier⟩ := split_append_singleton h
        · rw [← split]
          exact one
        · exact last between e'' rest earlier

/-- A flight that is resolved with an error has completed no refresh. -/
lemma not_completes_of_error {events before after : List Event} {e : Event} {number : Nat}
    {error : ServiceError} (failed : (fresh.run events).outcome? number = some (.error error))
    (split : events = before ++ e :: after) (stored : Option String) (summaries : List Summary) :
    ¬ Completes before e number stored summaries := by
  intro completes
  have resolved := run_outcome? (run_of_completes completes).2.2 after
  rw [← run_append, List.append_assoc, List.singleton_append, ← split, failed] at resolved
  cases resolved

/-- A plain refresh that succeeded has completed, and resolves to the length of its list. -/
lemma exists_completes_of_counted {events : List Event} {number : Nat} {value : Task.Value}
    (refresh : (tasks events)[number]? = some .refresh)
    (succeeded : (fresh.run events).outcome? number = some (.ok value)) :
    ∃ before e after summaries, events = before ++ e :: after ∧
      Completes before e number none summaries ∧ value = .count summaries.length := by
  obtain ⟨f, there, resolved⟩ := Option.bind_eq_some_iff.mp succeeded
  obtain ⟨task, started, account⟩ := account_run there
  obtain rfl : task = .refresh := by
    rw [refresh] at started
    cases started
    rfl
  cases account with
  | ready c => cases resolved
  | asked command => cases command
  | concluded command outcome => cases command
  | @listing stored refreshes =>
    rw [outcome?_refreshAt] at resolved
    cases resolved
  | @unlisted stored refreshes error =>
    cases stored with
    | none => cases resolved
    | some fileName => cases refreshes
  | @listed stored names since refreshes listed =>
    cases stored with
    | some fileName => cases refreshes
    | none =>
      obtain ⟨summaries, done⟩ | out := lookedUp_cases names (incomings number since)
      · rw [done] at resolved
        cases resolved
        obtain ⟨before, e, after, split, completes⟩ :=
          listed.exists_completes (lookedUp_eq_reconciled_iff.mp done)
        exact ⟨before, e, after, summaries, split, completes, rfl⟩
      · rw [out] at resolved
        cases resolved

/-- A completed refresh is a plain one, or the one behind an upload. -/
lemma exists_task_of_completes {events : List Event} {e : Event} {number : Nat}
    {stored : Option String} {summaries : List Summary}
    (completes : Completes events e number stored summaries) :
    ∃ task, (tasks events)[number]? = some task ∧ task.Refreshes stored := by
  obtain ⟨names, index, -, there, -⟩ | ⟨names, since, x, -, listed, -⟩ := completes.cases
  · exact refreshes_of_listing there
  · obtain ⟨asked, index, there, rfl⟩ := listed
    obtain ⟨task, started, refreshes⟩ := refreshes_of_listing there
    refine ⟨task, ?_, refreshes⟩
    rw [tasks, List.filterMap_append, ← tasks,
      List.getElem?_append_left (List.getElem?_eq_some_iff.mp started).1, started]

end Session

/-- The list beside the canvas after events in any order, as it has to be. -/
structure FaithfulDisplay (events : List Event) : Prop where
  /-- The list is that of the refresh completed last. -/
  latest : Displayed events (fresh.run events).summaries
  /-- The next event changes the list only if it completes a refresh. -/
  unchanged : ∀ e, ¬ CompletesOne events e →
    (fresh.run (events ++ [e])).summaries = (fresh.run events).summaries
  /-- A refresh completes once, and then it shows its list and resolves: a plain one to the length
  of the list, one behind an upload to the stored name. -/
  completed : ∀ e number stored summaries, Completes events e number stored summaries →
    (fresh.run events).outcome? number = none ∧
      (fresh.run (events ++ [e])).summaries = summaries ∧
        (fresh.run (events ++ [e])).outcome? number =
          some (.ok (refreshed stored summaries))
  /-- A completed refresh is a plain one, or the one behind an upload. -/
  refreshes : ∀ e number stored summaries, Completes events e number stored summaries →
    ∃ task, (tasks events)[number]? = some task ∧ task.Refreshes stored
  /-- When the listing is answered, each name is looked up at its own place. -/
  lookups : ∀ number index stored names,
    (fresh.run events).flights[number]? = some (refreshAt stored .listing) →
      ((fresh.run events).step (.reply number index .workflows (.ok ⟨names⟩))).2 =
        names.map Lookup.call
  /-- When the listing fails, the refresh is over and the list stays. -/
  unlisted : ∀ number index stored error,
    (fresh.run events).flights[number]? = some (refreshAt stored .listing) →
      let after := fresh.run (events ++ [.reply number index .workflows (.error error)])
      after.summaries = (fresh.run events).summaries ∧
        after.outcome? number = some (Flight.unlisted stored error)
  /-- When an upload fails, there is no refresh and the list stays. -/
  unsent : ∀ number index document attachment error,
    (fresh.run events).flights[number]? = some (.first (.asked (.upload document))) →
      let after := fresh.run (events ++ [.reply number index (.upload attachment) (.error error)])
      after.summaries = (fresh.run events).summaries ∧
        after.outcome? number = some (.error error)
  /-- Outcomes are final: what is resolved completes no refresh any more. -/
  final : ∀ number outcome, (fresh.run events).outcome? number = some outcome →
    ∀ later, (fresh.run (events ++ later)).outcome? number = some outcome
  /-- What failed has never changed the list. -/
  failed : ∀ number error, (fresh.run events).outcome? number = some (.error error) →
    ∀ before e after, events = before ++ e :: after →
      ∀ stored summaries, ¬ Completes before e number stored summaries
  /-- What succeeded as a plain refresh has shown a list, and resolves to its length. -/
  counted : ∀ number value, (tasks events)[number]? = some .refresh →
    (fresh.run events).outcome? number = some (.ok value) →
      ∃ before e after summaries, events = before ++ e :: after ∧
        Completes before e number none summaries ∧ value = .count summaries.length

/-- Whatever refreshes overlap, and however their replies, the gestures and other tasks are mixed,
the list beside the canvas is at every moment the one that the refresh completed last has built. -/
theorem displayedSummaries (events : List Event) : FaithfulDisplay events where
  latest := displayed_run events
  unchanged _ quiet := summaries_of_not_completesOne quiet
  completed _ _ _ _ completes := run_of_completes completes
  refreshes _ _ _ _ completes := exists_task_of_completes completes
  lookups number index stored names there := by
    rw [(step_of_addressee rfl there).2.2, Event.move, receive_listing]
    exact settled_calls stored ⟨names⟩
  unlisted number index stored error there := by
    constructor
    · exact summaries_of_failure events number index (by simp) error
    · rw [Session.outcome?, run_append_singleton, step_flight there, take_of_addressee rfl,
        Event.move, receive_unlisted]
      rfl
  unsent number index document attachment error there := by
    constructor
    · exact summaries_of_failure events number index (by simp) error
    · rw [Session.outcome?, run_append_singleton, step_flight there, take_of_addressee rfl]
      rfl
  final _ _ resolved later := by
    rw [run_append]
    exact run_outcome? resolved later
  failed _ _ failed _ _ _ split stored summaries :=
    not_completes_of_error failed split stored summaries
  counted _ _ refresh succeeded := exists_completes_of_counted refresh succeeded

/-- The refresh that sets out first is completed last, and its list stays. -/
example :
    (fresh.run [.start .refresh, .start .refresh, .begin 0, .begin 1,
      .reply 0 0 .workflows (.ok ⟨["a.json"]⟩), .reply 1 0 .workflows (.ok ⟨["b.json"]⟩),
      .reply 1 0 (.status "b") (.ok ⟨none, none⟩),
      .reply 0 0 (.status "a") (.error (.http .transport))]).summaries = [.unknown "a.json"] := by
  decide

end WorkflowCanvas
