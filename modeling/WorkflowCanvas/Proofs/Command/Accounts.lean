import WorkflowCanvas.Proofs.Command.Reconciliation
import WorkflowCanvas.Proofs.Document.Format

/-!
# What a command asks and reports

An `Errand` is a command with the replies that have come in for it, whichever these are and in
whatever order.  From the command and the replies alone it follows what is asked by then, which
look-ups have failed and whether the command has returned; `Errand.accounted` says that the calls
and the lines in the log are those that follow, each of them once.

The run of a request is an equation (`run_request`).  A reconciliation is brought to the form in
which the reply to the listing comes first (`run_reconcile`), and the warnings behind it are counted
one reply at a time.
-/

namespace WorkflowCanvas

open Incoming Lookup Progress

/-! ## Replies that count -/

/-- The reply that is brought to a request. -/
def Request.reply? : (r : Request) → Incoming → Option r.call.Reply
  | .upload _, ⟨_, .upload _, reply⟩ => some reply
  | .run _, ⟨_, .run _, reply⟩ => some reply
  | .schedule _, ⟨_, .schedule _, reply⟩ => some reply
  | _, _ => none

/-- What a request was answered first. -/
def Request.firstReply? (r : Request) (replies : List Incoming) : Option r.call.Reply :=
  replies.findSome? r.reply?

/-- The first reply to the call for the list of workflows, and the replies behind it. -/
def Incoming.listed? :
    List Incoming → Option (Except ServiceError WorkflowListResponse × List Incoming)
  | [] => none
  | ⟨_, .workflows, reply⟩ :: later => some (reply, later)
  | _ :: later => listed? later

/-- The name and the error of a look-up that has failed. -/
def Lookup.failure (name : String) :
    Except ServiceError StatusResponse → List (String × ServiceError)
  | .ok _ => []
  | .error e => [(name, e)]

/-- The look-ups of listed names that have failed. -/
def Lookup.failed (names : List String) (replies : List Incoming) :
    List (String × ServiceError) :=
  (names.mapIdx fun place name =>
    (firstStatus? place replies).elim [] (failure name)).flatten

/-! ## Errands -/

/-- Whether a command has returned with an error. -/
def Progress.hasFailed : Progress → Bool
  | .concluded _ (.error _) | .reconciled (.error _) => true
  | _ => false

/-- Whether a command has returned without an error. -/
def Progress.hasSucceeded : Progress → Bool
  | .concluded _ (.ok _) | .reconciled (.ok _) => true
  | _ => false

/-- The lines of a level among actions. -/
def Action.linesAt (level : Log.Level) (actions : List Action) : List Log :=
  (lines actions).filter (·.level = level)

/-- A command with the replies that have come in for it. -/
structure Errand where
  command : Command
  replies : List Incoming

namespace Errand

/-- How far the command has got and what it has done. -/
def step (e : Errand) : Step := e.command.run e.replies

/-- What is to be asked by now. -/
def asks : Errand → List Call
  | ⟨.request (.upload d), _⟩ => [.upload ⟨d.name ++ ".json", "application/json", d.toJson⟩]
  | ⟨.request (.run workflow), _⟩ => [.run workflow]
  | ⟨.request (.schedule request), _⟩ => [.schedule request.body]
  | ⟨.reconcile, replies⟩ =>
    match listed? replies with
    | some (.ok response, _) =>
      .workflows :: response.workflows.map fun fileName => .status (workflowStem fileName)
    | _ => [.workflows]

/-- Whether nothing is to be waited for any more. -/
def IsAnswered : Errand → Prop
  | ⟨.request r, replies⟩ => (r.firstReply? replies).isSome
  | ⟨.reconcile, replies⟩ =>
    match listed? replies with
    | none => False
    | some (.error _, _) => True
    | some (.ok response, later) =>
      ∀ place < response.workflows.length, (firstStatus? place later).isSome

/-- The look-ups that have failed. -/
def failedLookups : Errand → List (String × ServiceError)
  | ⟨.request _, _⟩ => []
  | ⟨.reconcile, replies⟩ =>
    match listed? replies with
    | some (.ok response, later) => failed response.workflows later
    | _ => []

/-- Whether the command is a request that has succeeded. -/
def hasReported (e : Errand) : Bool :=
  match e.command with
  | .request _ => e.step.progress.hasSucceeded
  | .reconcile => false

end Errand

/-- The warning of a look-up that has failed. -/
def Lookup.warning (lookup : String × ServiceError) : Log :=
  ⟨.warn, "Status lookup for '" ++ lookup.1 ++ "' failed: " ++ lookup.2.message⟩

/-- What a command has asked and logged is what follows from the replies. -/
structure Errand.Accounted (e : Errand) : Prop where
  /-- Each call is made once. -/
  calls : Action.calls e.step.actions = e.asks
  /-- The command returns as soon as everything it has asked is answered. -/
  returned : e.step.progress.hasFailed || e.step.progress.hasSucceeded ↔ e.IsAnswered
  /-- There is one line on an error that is returned. -/
  errors : (Action.linesAt .error e.step.actions).length = e.step.progress.hasFailed.toNat
  /-- There is one line on a request that has succeeded. -/
  infos : (Action.linesAt .info e.step.actions).length = e.hasReported.toNat
  /-- There is one warning for each look-up that has failed. -/
  warnings : (Action.linesAt .warn e.step.actions).Perm (e.failedLookups.map warning)

/-! ## Requests -/

lemma Request.firstReply?_append_singleton (r : Request) (replies : List Incoming) (x : Incoming) :
    r.firstReply? (replies ++ [x]) = (r.firstReply? replies).or (r.reply? x) := by
  rw [firstReply?, List.findSome?_append, List.findSome?_singleton, firstReply?]

/-- A request waits for a reply of its own and concludes with it. -/
lemma receive_asked (r : Request) (x : Incoming) :
    (Progress.asked r).receive x.index x.call x.reply =
      (r.reply? x).elim (idle (.asked r)) (Progress.conclude r) := by
  obtain ⟨index, call, reply⟩ := x
  cases r <;> cases call <;> rfl

lemma receive_concluded (r : Request) (outcome : Except ServiceError String) (x : Incoming) :
    (Progress.concluded r outcome).receive x.index x.call x.reply =
      idle (.concluded r outcome) := by
  obtain ⟨index, call, reply⟩ := x
  cases call <;> rfl

/-- The whole run of a request: its call, and with the first reply to it the outcome and one
line. -/
lemma run_request (r : Request) (replies : List Incoming) :
    (Command.request r).run replies = (r.firstReply? replies).elim
      ⟨.asked r, [.call r.call]⟩
      fun reply => ⟨.concluded r (r.conclude reply),
        [.call r.call, .log (r.log (r.conclude reply))]⟩ := by
  induction replies using List.reverseRecOn with
  | nil => rfl
  | append_singleton replies x ih =>
    rw [Command.run_append_singleton, ih, Request.firstReply?_append_singleton]
    cases hfirst : r.firstReply? replies with
    | none =>
      simp only [Option.elim_none, Option.none_or, Step.receive, receive_asked]
      cases r.reply? x <;> rfl
    | some reply =>
      simp only [Option.elim_some, Option.some_or, Step.receive, receive_concluded]
      rfl

/-- A document can be sent, whatever it holds. -/
structure Document.IsSent (d : Document) : Prop where
  /-- It is sent at once, and nothing is logged before the reply. -/
  sent : (Command.request (.upload d)).run [] =
    ⟨.asked (.upload d), [.call (.upload ⟨d.name ++ ".json", "application/json", d.toJson⟩)]⟩
  /-- Its text is JSON, also if coordinates are not finite, and says one thing. -/
  text : ∃! said, Json.Grammar.Element d.toJson.toList said
  /-- An upload fails only by the reply to its call, and what is logged is that failure. -/
  failure : ∀ replies cause,
    ((Command.request (.upload d)).run replies).progress = .concluded (.upload d) (.error cause) →
      (Request.upload d).firstReply? replies = some (.error cause) ∧
        Action.lines ((Command.request (.upload d)).run replies).actions =
          [⟨.error, "Upload of '" ++ (d.name ++ ".json") ++ "' failed: " ++ cause.message⟩]

lemma Document.isSent (d : Document) : d.IsSent where
  sent := rfl
  text := d.existsUnique_element_toJson
  failure replies cause failed := by
    rw [run_request] at failed ⊢
    cases hreply : (Request.upload d).firstReply? replies with
    | none => simp [hreply] at failed
    | some reply =>
      have houtcome : (Request.upload d).conclude reply = .error cause := by
        simpa [hreply] using failed
      cases reply with
      | error e =>
        cases houtcome
        exact ⟨rfl, rfl⟩
      | ok response => cases houtcome

/-- An outcome is logged as the error that it is or as an information. -/
lemma Request.level_log (r : Request) (outcome : Except ServiceError String) :
    (r.log outcome).level = match outcome with
      | .error _ => .error
      | .ok _ => .info := by
  cases r <;> cases outcome <;> rfl

namespace Action

variable (level : Log.Level)

@[simp] lemma calls_nil : calls [] = [] := rfl

@[simp] lemma calls_call (c : Call) (actions : List Action) :
    calls (.call c :: actions) = c :: calls actions := rfl

@[simp] lemma calls_log (line : Log) (actions : List Action) :
    calls (.log line :: actions) = calls actions := rfl

@[simp] lemma linesAt_nil : linesAt level [] = [] := rfl

@[simp] lemma linesAt_append (first second : List Action) :
    linesAt level (first ++ second) = linesAt level first ++ linesAt level second := by
  rw [linesAt, lines, List.filterMap_append, List.filter_append]
  rfl

@[simp] lemma linesAt_call (c : Call) (actions : List Action) :
    linesAt level (.call c :: actions) = linesAt level actions := rfl

@[simp] lemma linesAt_log (line : Log) (actions : List Action) :
    linesAt level (.log line :: actions) =
      if line.level = level then line :: linesAt level actions else linesAt level actions := by
  change (line :: lines actions).filter _ = _
  rw [List.filter_cons]
  simp only [decide_eq_true_eq]
  rfl

end Action

namespace Errand

lemma asks_request (r : Request) (replies : List Incoming) :
    asks ⟨.request r, replies⟩ = [r.call] := by
  cases r <;> rfl

lemma accounted_request (r : Request) (replies : List Incoming) :
    Accounted ⟨.request r, replies⟩ := by
  have hrun : step ⟨.request r, replies⟩ = _ := run_request r replies
  cases hreply : r.firstReply? replies with
  | none =>
    rw [hreply, Option.elim_none] at hrun
    constructor <;> simp [hrun, hreply, asks_request, IsAnswered, hasReported, failedLookups,
      hasFailed, hasSucceeded]
  | some reply =>
    rw [hreply, Option.elim_some] at hrun
    generalize r.conclude reply = outcome at hrun
    have hlevel := r.level_log outcome
    cases outcome <;> constructor <;> simp [hrun, hreply, hlevel, asks_request, IsAnswered,
      hasReported, failedLookups, hasFailed, hasSucceeded]

end Errand

/-! ## Reconciliations -/

/-- The run of a reconciliation starts with the reply to the listing; what comes in before it does
not matter. -/
lemma run_reconcile (replies : List Incoming) :
    Command.reconcile.run replies = match listed? replies with
      | none => ⟨.listing, [.call .workflows]⟩
      | some (reply, later) => Command.reconcile.run (.listing reply :: later) := by
  change replies.foldl Step.receive ⟨.listing, [.call .workflows]⟩ = _
  induction replies with
  | nil => rfl
  | cons x replies ih =>
    obtain ⟨index, call, reply⟩ := x
    cases call with
    | workflows => rfl
    | _ => exact ih

/-! ## Look-ups that have failed -/

/-- Lists that are built place by place and differ at one place, where the first has nothing. -/
lemma flatten_mapIdx_perm {α β : Type} {f g : Nat → α → List β} {x : α} :
    ∀ {xs : List α} {place : Nat}, xs[place]? = some x → f place x = [] →
      (∀ other, other ≠ place → g other = f other) →
      (xs.mapIdx g).flatten.Perm ((xs.mapIdx f).flatten ++ g place x)
  | [], place, hx, _, _ => by simp at hx
  | y :: ys, 0, hx, hempty, hother => by
    obtain rfl : y = x := by simpa using hx
    have hbehind : (fun place => g (place + 1)) = fun place => f (place + 1) :=
      funext fun place => hother (place + 1) (Nat.succ_ne_zero place)
    simp only [List.mapIdx_cons, List.flatten_cons, hempty, List.nil_append, hbehind]
    exact List.perm_append_comm
  | y :: ys, place + 1, hx, hempty, hother => by
    have hfirst : g 0 = f 0 := hother 0 (Nat.succ_ne_zero place).symm
    have hbehind := flatten_mapIdx_perm (f := fun place => f (place + 1))
      (g := fun place => g (place + 1)) (by simpa using hx) hempty
      fun other hne => hother (other + 1) (by omega)
    simp only [List.mapIdx_cons, List.flatten_cons, hfirst, List.append_assoc]
    exact hbehind.append_left _

namespace Lookup

variable {names : List String} {replies : List Incoming} {x : Incoming}

lemma failed_nil (names : List String) : failed names [] = [] := by
  simp [failed, firstStatus?]

lemma failed_append_of_late (late : x.IsLate names replies) :
    failed names (replies ++ [x]) = failed names replies := by
  refine congrArg List.flatten (List.ext_getElem? fun place => ?_)
  rw [List.getElem?_mapIdx, List.getElem?_mapIdx]
  cases hname : names[place]? with
  | none => rfl
  | some name => simp only [Option.map_some, late.firstStatus?_eq hname]

/-- The first reply to a look-up adds its failure, if it is one, and nothing else. -/
lemma failed_append_of_first {name : String} {reply : Except ServiceError StatusResponse}
    (hname : names[x.index]? = some name) (out : firstStatus? x.index replies = none)
    (hstatus : ∀ place, x.status? place = if x.index = place then some reply else none) :
    (failed names (replies ++ [x])).Perm (failed names replies ++ failure name reply) := by
  have hfirst : firstStatus? x.index (replies ++ [x]) = some reply := by
    rw [firstStatus?_append_singleton, out, hstatus, if_pos rfl, Option.none_or]
  have hother : ∀ other, other ≠ x.index →
      firstStatus? other (replies ++ [x]) = firstStatus? other replies := by
    intro other hne
    rw [firstStatus?_append_singleton, hstatus, if_neg hne.symm, Option.or_none]
  have hperm := flatten_mapIdx_perm
    (f := fun place name => (firstStatus? place replies).elim [] (failure name))
    (g := fun place name => (firstStatus? place (replies ++ [x])).elim [] (failure name))
    hname (by rw [out, Option.elim_none]) fun other hne => by simp only [hother other hne]
  rwa [hfirst, Option.elim_some] at hperm

/-- The lines on a look-up are the warning of its failure, if it is one. -/
lemma log_eq (name : String) (reply : Except ServiceError StatusResponse) :
    Lookup.log name reply = (failure name reply).map warning := by
  cases reply <;> rfl

end Lookup

/-! ## Reconciliations, line by line -/

namespace Progress

variable {level : Log.Level}

/-- The end of the look-ups is told at the level `debug`. -/
lemma gather_linesAt (hlevel : level ≠ .debug) (lookups : List Lookup) (actions : List Action) :
    Action.linesAt level (gather lookups actions).actions = Action.linesAt level actions := by
  unfold gather
  cases lookups.mapM Lookup.summary with
  | none => rfl
  | some summaries => simp [reconciledLog, hlevel.symm]

lemma lookUp_linesAt (hlevel : level ≠ .debug) (response : WorkflowListResponse) :
    Action.linesAt level (lookUp (.ok response)).actions = [] := by
  rw [lookUp, gather_linesAt hlevel, Action.linesAt, Action.lines, List.filterMap_map]
  simp [Function.comp_def, Action.log?]

/-- The lines that report failures of look-ups, at each level. -/
lemma linesAt_warnings (level : Log.Level) (failures : List (String × ServiceError)) :
    Action.linesAt level ((failures.map warning).map .log) =
      if level = .warn then failures.map warning else [] := by
  induction failures with
  | nil => simp
  | cons first others ih =>
    simp only [List.map_cons, Action.linesAt_log, ih]
    cases level <;> simp [warning]

/-- A reply adds the warnings of the look-ups that fail by it. -/
lemma receive_lookedUp_linesAt (hlevel : level ≠ .debug) (names : List String)
    (replies : List Incoming) (x : Incoming) :
    ∃ failures, (failed names (replies ++ [x])).Perm (failed names replies ++ failures) ∧
      Action.linesAt level ((lookedUp names replies).receive x.index x.call x.reply).actions =
        if level = .warn then failures.map warning else [] := by
  obtain ⟨late, stays⟩ | ⟨name, reply, hname, out, hstatus, moves⟩ :=
    receive_lookedUp_cases names replies x
  · exact ⟨[], by simp [failed_append_of_late late], by simp [stays, idle]⟩
  · refine ⟨failure name reply, failed_append_of_first hname out hstatus, ?_⟩
    rw [moves, gather_linesAt hlevel, log_eq, linesAt_warnings]

end Progress

/-- The lines of a reconciliation whose list was answered: behind the listing there are warnings
only, one for each look-up that has failed. -/
lemma run_listing_linesAt {level : Log.Level} (hlevel : level ≠ .debug) (names : List String)
    (replies : List Incoming) :
    (Action.linesAt level
      (Command.reconcile.run (.listing (.ok ⟨names⟩) :: replies)).actions).Perm
        (if level = .warn then (failed names replies).map warning else []) := by
  -- warnings stand in the order of the replies, failures in that of the list
  induction replies using List.reverseRecOn with
  | nil =>
    change (Action.linesAt level ([.call .workflows] ++ (lookUp (.ok ⟨names⟩)).actions)).Perm _
    simp [lookUp_linesAt hlevel, failed_nil]
  | append_singleton replies x ih =>
    obtain ⟨failures, hfailed, hlines⟩ := receive_lookedUp_linesAt hlevel names replies x
    rw [← List.cons_append, Command.run_append_singleton, Step.receive,
      (run_listing names replies).1, Action.linesAt_append, hlines]
    refine (ih.append_right _).trans ?_
    split
    · rw [← List.map_append]
      exact hfailed.symm.map warning
    · rfl

/-- Summaries can be built when each look-up was answered. -/
lemma exists_built_iff {names : List String} {replies : List Incoming} :
    (∃ summaries, Built names replies summaries) ↔
      ∀ place < names.length, (firstStatus? place replies).isSome := by
  constructor
  · rintro ⟨summaries, built⟩ place bound
    obtain ⟨reply, hreply, -⟩ := built.entry place names[place] (List.getElem?_eq_getElem bound)
    exact Option.isSome_iff_exists.mpr ⟨reply, hreply⟩
  · intro answered
    refine ⟨names.mapIdx fun place name =>
      ((firstStatus? place replies).map (Lookup.conclude name)).getD (.unknown name), ?_⟩
    refine ⟨List.length_mapIdx, fun place name hname => ?_⟩
    obtain ⟨bound, -⟩ := List.getElem?_eq_some_iff.mp hname
    obtain ⟨reply, hreply⟩ := Option.isSome_iff_exists.mp (answered place bound)
    exact ⟨reply, hreply, by simp [hname, hreply]⟩

/-- Behind an answered listing a reconciliation does not fail, and it succeeds when each look-up was
answered. -/
lemma lookedUp_returned (names : List String) (replies : List Incoming) :
    (lookedUp names replies).hasFailed = false ∧
      ((lookedUp names replies).hasSucceeded = true ↔
        ∀ place < names.length, (firstStatus? place replies).isSome) := by
  rw [← exists_built_iff]
  simp only [← lookedUp_eq_reconciled_iff]
  obtain ⟨summaries, done⟩ | out := lookedUp_cases names replies
  · simp [done, hasFailed, hasSucceeded]
  · simp [out, hasFailed, hasSucceeded]

namespace Errand

lemma accounted_reconcile (replies : List Incoming) : Accounted ⟨.reconcile, replies⟩ := by
  have hrun : step ⟨.reconcile, replies⟩ = _ := run_reconcile replies
  match hlisted : listed? replies with
  | none =>
    rw [hlisted] at hrun
    constructor <;> simp [hrun, hlisted, asks, IsAnswered, hasReported, failedLookups, hasFailed,
      hasSucceeded]
  | some (.error cause, later) =>
    simp only [hlisted, run_unlisted_eq] at hrun
    constructor <;> simp [hrun, hlisted, unlistedLog, asks, IsAnswered, hasReported, failedLookups,
      hasFailed, hasSucceeded]
  | some (.ok ⟨names⟩, later) =>
    simp only [hlisted] at hrun
    obtain ⟨hprogress, hcalls⟩ := run_listing names later
    obtain ⟨hfailed, hsucceeded⟩ := lookedUp_returned names later
    have hlines (level : Log.Level) (hlevel : level ≠ .debug) :=
      run_listing_linesAt hlevel names later
    have herrors := (hlines .error (by decide)).eq_nil
    have hinfos := (hlines .info (by decide)).eq_nil
    constructor
    case calls => simp [hrun, hlisted, hcalls, asks, Lookup.call]
    case returned => simp [hrun, hlisted, hprogress, hfailed, hsucceeded, IsAnswered]
    case errors => simp [hrun, hprogress, hfailed, herrors]
    case infos => simp [hrun, hasReported, hinfos]
    case warnings => simpa [hrun, hlisted, failedLookups] using hlines .warn (by decide)

/-- Whatever the replies, a command has asked and logged what follows from them. -/
theorem accounted : ∀ e : Errand, e.Accounted
  | ⟨.request r, replies⟩ => accounted_request r replies
  | ⟨.reconcile, replies⟩ => accounted_reconcile replies

end Errand

end WorkflowCanvas
