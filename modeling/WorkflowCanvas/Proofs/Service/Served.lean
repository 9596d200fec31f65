import WorkflowCanvas.Proofs.Command.Accounts
import WorkflowCanvas.Proofs.Document.Format
import WorkflowCanvas.Service.Exchange
import WorkflowCanvas.Service.Mock

/-!
# Commands against a service

A command is carried through against a service in two rounds, its first call and the look-ups; a
sequence of commands is carried through against one service, which may change with every call.
`Recorder` lets any service keep the calls that come in.

An exchange hands on what it is told: a fact about the asker that every delivery preserves holds
behind a round (`Kept.round`), every call of a round comes in once (`round_heard`), and a round that
does not stall answers each of them (`round_answers`).
-/

namespace WorkflowCanvas

open Incoming

/-- A service and the calls that have come in, in their order. -/
structure Recorder (σ : Type) where
  service : σ
  heard : List Call

instance {σ : Type} [Service σ] : Service (Recorder σ) where
  accept r c := ((Service.accept r.service c).1, ⟨(Service.accept r.service c).2, r.heard ++ [c]⟩)
  isReady r ticket := Service.isReady r.service ticket
  answer r c := ((Service.answer r.service c).1, ⟨(Service.answer r.service c).2, r.heard⟩)

/-- A service that answers every call at once. -/
def Service.IsPrompt (σ : Type) [Service σ] : Prop :=
  ∀ (service : σ) (c : Call), (Service.accept service c).1 = none

lemma Recorder.isPrompt {σ : Type} [Service σ] (prompt : Service.IsPrompt σ) :
    Service.IsPrompt (Recorder σ) :=
  fun r c => prompt r.service c

/-! ## Rounds -/

namespace Exchange

variable {α σ : Type} [Service σ] (receive : Receive α)

/-- A round: the calls are offered, and those that have waited are answered. -/
def round (e : Exchange α σ) : Bool × Exchange α σ :=
  release receive (offer receive 0 e.calls { e with calls := [] }).2
    (offer receive 0 e.calls { e with calls := [] }).1

lemma settle_succ (rounds : Nat) (e : Exchange α σ) :
    settle receive (rounds + 1) e =
      if e.calls.isEmpty then (true, e)
      else if (round receive e).1 then settle receive rounds (round receive e).2
      else (false, (round receive e).2) := by
  rw [settle, round]
  rcases offer receive 0 e.calls { e with calls := [] } with ⟨offered, waiting⟩
  split
  · rfl
  · dsimp only
    rcases release receive waiting offered with ⟨_ | _, released⟩ <;> rfl

lemma settle_one (e : Exchange α σ) :
    settle receive 1 e =
      ((round receive e).1 && (round receive e).2.calls.isEmpty, (round receive e).2) := by
  rw [settle_succ]
  obtain ⟨asker, service, _ | ⟨c, cs⟩⟩ := e
  · rfl
  · cases (round receive ⟨asker, service, c :: cs⟩).1 <;> rfl

lemma offer_cons (index : Nat) (c : Call) (cs : List Call) (e : Exchange α σ) :
    offer receive index (c :: cs) e =
      let accepted := Service.accept e.service c
      let e' := { e with service := accepted.2 }
      match accepted.1.filter (!Service.isReady accepted.2 ·) with
      | none => offer receive (index + 1) cs (e'.deliver receive index c)
      | some ticket =>
        ((offer receive (index + 1) cs e').1,
          ⟨index, c, ticket⟩ :: (offer receive (index + 1) cs e').2) :=
  rfl

/-- What holds of an exchange stays when a call is answered or the service changes. -/
structure Kept (P : Exchange α σ → Prop) : Prop where
  deliver : ∀ e index c, P e → P (e.deliver receive index c)
  service : ∀ (e : Exchange α σ) service, P e → P { e with service }

namespace Kept

variable {receive} {P : Exchange α σ → Prop}

lemma offer (kept : Kept receive P) : ∀ (cs : List Call) (index : Nat) (e : Exchange α σ),
    P e → P (Exchange.offer receive index cs e).1
  | [], _, _, h => h
  | c :: cs, index, e, h => by
    rw [offer_cons]
    dsimp only
    split
    · exact kept.offer cs _ _ (kept.deliver _ _ _ (kept.service _ _ h))
    · exact kept.offer cs _ _ (kept.service _ _ h)

lemma release (kept : Kept receive P) : ∀ (waiting : List Waiting) (e : Exchange α σ),
    P e → P (Exchange.release receive waiting e).2
  | [], _, h => h
  | w :: waiting, e, h => by
    rw [Exchange.release]
    split
    · exact kept.release waiting _ (kept.deliver _ _ _ h)
    · exact kept.release waiting _ h

/-- Behind a round holds what held when its calls were taken over. -/
lemma round (kept : Kept receive P) {e : Exchange α σ} (h : P { e with calls := [] }) :
    P (round receive e).2 :=
  kept.release _ _ (kept.offer _ _ _ h)

end Kept

end Exchange

/-! ## Every call of a round comes in once -/

namespace Exchange

variable {α σ : Type} [Service σ] (receive : Receive α)

lemma deliver_heard (e : Exchange α (Recorder σ)) (index : Nat) (c : Call) :
    (e.deliver receive index c).service.heard = e.service.heard := rfl

lemma offer_heard : ∀ (cs : List Call) (index : Nat) (e : Exchange α (Recorder σ)),
    (offer receive index cs e).1.service.heard = e.service.heard ++ cs
  | [], _, e => (List.append_nil e.service.heard).symm
  | c :: cs, index, e => by
    have haccept : (Service.accept e.service c).2.heard = e.service.heard ++ [c] := rfl
    rw [offer_cons]
    dsimp only
    split
    · rw [offer_heard cs, deliver_heard, haccept, List.append_assoc, List.singleton_append]
    · rw [offer_heard cs, haccept, List.append_assoc, List.singleton_append]

lemma release_heard : ∀ (waiting : List Waiting) (e : Exchange α (Recorder σ)),
    (release receive waiting e).2.service.heard = e.service.heard
  | [], _ => rfl
  | w :: waiting, e => by
    rw [release]
    split
    · rw [release_heard waiting, deliver_heard]
    · exact release_heard waiting e

lemma round_heard (e : Exchange α (Recorder σ)) :
    (round receive e).2.service.heard = e.service.heard ++ e.calls := by
  rw [round, release_heard, offer_heard]

/-- A round with one call: it stalls, or the call is answered. -/
lemma round_singleton (asker : α) (service : σ) (c : Call) :
    (∃ service', round receive ⟨asker, service, [c]⟩ = (false, ⟨asker, service', []⟩)) ∨
      ∃ reply service', round receive ⟨asker, service, [c]⟩ =
        (true, ⟨(receive asker 0 c reply).1, service', (receive asker 0 c reply).2⟩) := by
  rw [round, offer_cons]
  dsimp only
  split
  · exact .inr ⟨_, _, rfl⟩
  · simp only [offer, release]
    split
    · exact .inr ⟨_, _, rfl⟩
    · exact .inl ⟨_, rfl⟩

lemma offer_prompt (prompt : Service.IsPrompt σ) : ∀ (cs : List Call) (index : Nat)
    (e : Exchange α σ), (offer receive index cs e).2 = []
  | [], _, _ => rfl
  | c :: cs, index, e => by
    rw [offer_cons]
    dsimp only
    rw [prompt, Option.filter_none]
    exact offer_prompt prompt cs _ _

/-- A round with a service that answers at once does not stall. -/
lemma round_prompt (prompt : Service.IsPrompt σ) (e : Exchange α σ) :
    (round receive e).1 = true := by
  rw [round, offer_prompt receive prompt]
  rfl

end Exchange

/-! ## Commands in an exchange -/

namespace Command

/-- How a command takes replies: it keeps them, and asks what it asks next. -/
def listen (c : Command) : Exchange.Receive (List Incoming) := fun replies index asked reply =>
  (replies ++ [⟨index, asked, reply⟩],
    Action.calls ((c.run replies).progress.receive index asked reply).actions)

section Answers

variable {σ : Type} [Service σ] (c : Command)

lemma kept_mem (x : Incoming) :
    Exchange.Kept c.listen fun e : Exchange (List Incoming) σ => x ∈ e.asker where
  deliver _ _ _ h := List.mem_append_left _ h
  service _ _ h := h

lemma deliver_answers (e : Exchange (List Incoming) σ) (index : Nat) (call : Call) :
    ∃ reply, ⟨index, call, reply⟩ ∈ (e.deliver c.listen index call).asker :=
  ⟨_, List.mem_append_right _ (List.mem_singleton_self _)⟩

/-- A call that is offered is answered or has to wait. -/
lemma offer_answers : ∀ (cs : List Call) (index place : Nat) (e : Exchange (List Incoming) σ)
    (call : Call), cs[place]? = some call →
      (∃ reply, ⟨index + place, call, reply⟩ ∈ (Exchange.offer c.listen index cs e).1.asker) ∨
        ∃ ticket, ⟨index + place, call, ticket⟩ ∈ (Exchange.offer c.listen index cs e).2
  | [], _, _, _, _, hcall => by simp at hcall
  | first :: cs, index, 0, e, call, hcall => by
    obtain rfl : first = call := by simpa using hcall
    rw [Exchange.offer_cons]
    dsimp only
    split
    · obtain ⟨reply, hreply⟩ := c.deliver_answers
        { e with service := (Service.accept e.service first).2 } index first
      exact .inl ⟨reply, (c.kept_mem _).offer cs _ _ hreply⟩
    · exact .inr ⟨_, List.mem_cons_self⟩
  | first :: cs, index, place + 1, e, call, hcall => by
    have hbehind := fun e => offer_answers cs (index + 1) place e call (by simpa using hcall)
    rw [Nat.add_right_comm] at hbehind
    rw [Exchange.offer_cons]
    dsimp only
    split
    · exact hbehind _
    · exact (hbehind _).imp_right fun ⟨ticket, h⟩ => ⟨ticket, List.mem_cons_of_mem _ h⟩

/-- When all that have waited are answered, each is. -/
lemma release_answers : ∀ (waiting : List Exchange.Waiting) (e : Exchange (List Incoming) σ),
    (Exchange.release c.listen waiting e).1 = true → ∀ w ∈ waiting,
      ∃ reply, ⟨w.index, w.call, reply⟩ ∈ (Exchange.release c.listen waiting e).2.asker
  | [], _, _ => by simp
  | first :: waiting, e, hover => by
    rw [Exchange.release] at hover ⊢
    split at hover
    · rename_i hready
      rw [if_pos hready]
      refine List.forall_mem_cons.mpr ⟨?_, release_answers waiting _ hover⟩
      obtain ⟨reply, hreply⟩ := c.deliver_answers e first.index first.call
      exact ⟨reply, (c.kept_mem _).release waiting _ hreply⟩
    · cases hover

/-- A round that does not stall answers each of its calls. -/
lemma round_answers {e : Exchange (List Incoming) σ}
    (hover : (Exchange.round c.listen e).1 = true) {place : Nat} {call : Call}
    (hcall : e.calls[place]? = some call) :
    ∃ reply, ⟨place, call, reply⟩ ∈ (Exchange.round c.listen e).2.asker := by
  obtain ⟨reply, hreply⟩ | ⟨ticket, hwaits⟩ :=
    c.offer_answers e.calls 0 place { e with calls := [] } call hcall
  · rw [Nat.zero_add] at hreply
    exact ⟨reply, (c.kept_mem _).release _ _ hreply⟩
  · rw [Nat.zero_add] at hwaits
    exact c.release_answers _ _ hover _ hwaits

end Answers

/-! ## Commands carried through -/

section Carried

variable {σ : Type} [Service σ]

/-- Carries a command through, and says whether it came to its end. -/
def carry (c : Command) (service : σ) : Bool × Exchange (List Incoming) σ :=
  Exchange.settle c.listen 2 ⟨[], service, Action.calls (c.run []).actions⟩

section FirstRound

variable {c : Command} {service : σ} {first : Call}
  (hfirst : Action.calls (c.run []).actions = [first])
include hfirst

/-- A command whose first call is not answered is left as it is. -/
lemma carry_of_stalled {e : Exchange (List Incoming) σ}
    (hround : Exchange.round c.listen ⟨[], service, [first]⟩ = (false, e)) :
    c.carry service = (false, e) := by
  rw [carry, hfirst, Exchange.settle_succ, hround]
  rfl

/-- A command whose first call is answered goes on. -/
lemma carry_of_answered {e : Exchange (List Incoming) σ}
    (hround : Exchange.round c.listen ⟨[], service, [first]⟩ = (true, e)) :
    c.carry service = Exchange.settle c.listen 1 e := by
  rw [carry, hfirst, Exchange.settle_succ, hround]
  rfl

end FirstRound

/-- The round of a request: nothing is asked behind the reply. -/
lemma round_request (r : Request) (service : σ) :
    let round := Exchange.round (request r).listen ⟨[], service, [r.call]⟩
    (∃ service', round = (false, ⟨[], service', []⟩)) ∨
      ∃ reply service', round = (true, ⟨[⟨0, r.call, reply⟩], service', []⟩) := by
  intro round
  obtain stalled | ⟨reply, service', hround⟩ :=
    Exchange.round_singleton (request r).listen [] service r.call
  · exact .inl stalled
  · have hcalls : Action.calls
        (((request r).run []).progress.receive 0 r.call reply).actions = [] := by
      cases r <;> rfl
    rw [listen, hcalls] at hround
    exact .inr ⟨reply, service', hround⟩

/-- The first round of a reconciliation: behind an answered listing there is a look-up for each
name. -/
lemma round_reconcile (service : σ) :
    let round := Exchange.round reconcile.listen ⟨[], service, [.workflows]⟩
    (∃ service', round = (false, ⟨[], service', []⟩)) ∨
      (∃ cause service', round = (true, ⟨[.listing (.error cause)], service', []⟩)) ∨
      ∃ names service', round =
        (true, ⟨[.listing (.ok ⟨names⟩)], service', names.map Lookup.call⟩) := by
  intro round
  obtain stalled | ⟨reply, service', hround⟩ :=
    Exchange.round_singleton reconcile.listen [] service .workflows
  · exact .inl stalled
  · cases reply with
    | error cause => exact .inr (.inl ⟨cause, service', hround⟩)
    | ok response =>
      have hcalls : Action.calls
          ((reconcile.run []).progress.receive 0 .workflows (.ok response)).actions =
            response.workflows.map Lookup.call := Progress.lookUp_calls response
      rw [listen, hcalls] at hround
      exact .inr (.inr ⟨response.workflows, service', hround⟩)

/-- Behind an answered listing nothing more is asked. -/
lemma kept_listing (names : List String) :
    Exchange.Kept reconcile.listen fun e : Exchange (List Incoming) σ =>
      (∃ later, e.asker = .listing (.ok ⟨names⟩) :: later) ∧ e.calls = [] where
  deliver e index c h := by
    obtain ⟨⟨later, hasker⟩, hcalls⟩ := h
    let x : Incoming := ⟨index, c, (Service.answer e.service c).1⟩
    have hasker' : (e.deliver reconcile.listen index c).asker = e.asker ++ [x] := rfl
    have hcalls' : (e.deliver reconcile.listen index c).calls = e.calls ++
        Action.calls ((reconcile.run e.asker).progress.receive x.index x.call x.reply).actions :=
      rfl
    refine ⟨⟨later ++ [x], by rw [hasker', hasker, List.cons_append]⟩, ?_⟩
    rw [hcalls', hcalls, hasker, (run_listing names later).1,
      Progress.receive_lookedUp_calls names later x, List.nil_append]
  service _ _ h := h

lemma firstStatus?_isSome_of_mem {place : Nat} {workflow : String}
    {reply : (Call.status workflow).Reply} {replies : List Incoming}
    (h : ⟨place, .status workflow, reply⟩ ∈ replies) : (firstStatus? place replies).isSome := by
  rw [firstStatus?, List.findSome?_isSome_iff]
  exact ⟨_, h, by simp [status?]⟩

/-- The second round of a reconciliation. -/
lemma round_listing (names : List String) (service : σ) :
    let round := Exchange.round reconcile.listen
      ⟨[.listing (.ok ⟨names⟩)], service, names.map Lookup.call⟩
    ∃ later, round.2.asker = .listing (.ok ⟨names⟩) :: later ∧ round.2.calls = [] ∧
      (round.1 = true → ∀ place < names.length, (firstStatus? place later).isSome) := by
  intro round
  obtain ⟨⟨later, hlater⟩, hcalls⟩ := (kept_listing names).round
    (e := ⟨[.listing (.ok ⟨names⟩)], service, names.map Lookup.call⟩) ⟨⟨[], rfl⟩, rfl⟩
  refine ⟨later, hlater, hcalls, fun hover place bound => ?_⟩
  have hcall : (names.map Lookup.call)[place]? = some (.status (workflowStem names[place])) := by
    rw [List.getElem?_map, List.getElem?_eq_getElem bound]
    rfl
  obtain ⟨reply, hreply⟩ := round_answers reconcile hover hcall
  -- a reply to a look-up is not the one to the listing, so it counts
  rw [hlater, List.mem_cons] at hreply
  obtain hfirst | hreply := hreply
  · cases hfirst
  · exact firstStatus?_isSome_of_mem hreply

/-- A service gets the calls that are due and no others, each of them once. -/
theorem carry_heard (c : Command) (recorder : Recorder σ) :
    (c.carry recorder).2.service.heard =
      recorder.heard ++ Errand.asks ⟨c, (c.carry recorder).2.asker⟩ := by
  cases c with
  | request r =>
    have hheard := Exchange.round_heard (request r).listen ⟨[], recorder, [r.call]⟩
    rw [Errand.asks_request]
    obtain ⟨service', hround⟩ | ⟨reply, service', hround⟩ := round_request r recorder
    · rw [carry_of_stalled rfl hround, ← hheard, hround]
    · rw [carry_of_answered rfl hround, ← hheard, hround]
      rfl
  | reconcile =>
    -- the second round has calls only behind an answered listing
    have hheard := Exchange.round_heard reconcile.listen ⟨[], recorder, [.workflows]⟩
    obtain ⟨service', hround⟩ | ⟨cause, service', hround⟩ | ⟨names, service', hround⟩ :=
      round_reconcile recorder
    · rw [hround] at hheard
      rw [carry_of_stalled rfl hround]
      exact hheard
    · rw [hround] at hheard
      rw [carry_of_answered rfl hround]
      exact hheard
    · rw [hround] at hheard
      obtain ⟨later, hlater, -, -⟩ := round_listing names service'
      rw [carry_of_answered rfl hround, Exchange.settle_one, Exchange.round_heard, hlater, hheard,
        List.append_assoc]
      rfl

/-- When a command came to its end, everything it has asked is answered. -/
theorem carry_answered (c : Command) (service : σ) (hover : (c.carry service).1 = true) :
    Errand.IsAnswered ⟨c, (c.carry service).2.asker⟩ := by
  cases c with
  | request r =>
    obtain ⟨service', hround⟩ | ⟨reply, service', hround⟩ := round_request r service
    · rw [carry_of_stalled rfl hround] at hover
      cases hover
    · rw [carry_of_answered rfl hround]
      cases r <;> rfl
  | reconcile =>
    obtain ⟨service', hround⟩ | ⟨cause, service', hround⟩ | ⟨names, service', hround⟩ :=
      round_reconcile service
    · rw [carry_of_stalled rfl hround] at hover
      cases hover
    · rw [carry_of_answered rfl hround]
      trivial
    · obtain ⟨later, hlater, -, hanswered⟩ := round_listing names service'
      rw [carry_of_answered rfl hround, Exchange.settle_one, Bool.and_eq_true] at hover
      rw [carry_of_answered rfl hround, Exchange.settle_one, hlater]
      exact hanswered hover.1

/-- With a service that answers at once every command comes to its end. -/
lemma carry_prompt (prompt : Service.IsPrompt σ) (c : Command) (service : σ) :
    (c.carry service).1 = true := by
  cases c with
  | request r =>
    have hanswered := Exchange.round_prompt (request r).listen prompt ⟨[], service, [r.call]⟩
    obtain ⟨service', hround⟩ | ⟨reply, service', hround⟩ := round_request r service
    · rw [hround] at hanswered
      cases hanswered
    · rw [carry_of_answered rfl hround]
      rfl
  | reconcile =>
    have hanswered := Exchange.round_prompt reconcile.listen prompt ⟨[], service, [.workflows]⟩
    obtain ⟨service', hround⟩ | ⟨cause, service', hround⟩ | ⟨names, service', hround⟩ :=
      round_reconcile service
    · rw [hround] at hanswered
      cases hanswered
    · rw [carry_of_answered rfl hround]
      rfl
    · obtain ⟨later, -, hcalls, -⟩ := round_listing names service'
      rw [carry_of_answered rfl hround, Exchange.settle_one,
        Exchange.round_prompt reconcile.listen prompt, hcalls]
      rfl

/-- Carries commands through, one after the other: whether each came to its end and what it was
answered, and the service behind them. -/
def carryAll : List Command → σ → List (Bool × Errand) × σ
  | [], service => ([], service)
  | c :: cs, service =>
    let behind := carryAll cs (c.carry service).2.service
    (((c.carry service).1, ⟨c, (c.carry service).2.asker⟩) :: behind.1, behind.2)

lemma carryAll_heard : ∀ (commands : List Command) (recorder : Recorder σ),
    (carryAll commands recorder).2.heard =
      recorder.heard ++ (carryAll commands recorder).1.flatMap (·.2.asks)
  | [], recorder => (List.append_nil recorder.heard).symm
  | c :: cs, recorder => by
    rw [carryAll, carryAll_heard cs, carry_heard, List.append_assoc, List.flatMap_cons]

lemma carryAll_commands : ∀ (commands : List Command) (service : σ),
    (carryAll commands service).1.map (·.2.command) = commands
  | [], _ => rfl
  | c :: cs, service => by
    rw [carryAll, List.map_cons, carryAll_commands cs]

lemma carryAll_answered : ∀ (commands : List Command) (service : σ),
    ∀ served ∈ (carryAll commands service).1, served.1 = true → served.2.IsAnswered
  | [], _ => by simp [carryAll]
  | c :: cs, service =>
    List.forall_mem_cons.mpr ⟨carry_answered c service, carryAll_answered cs _⟩

lemma carryAll_prompt (prompt : Service.IsPrompt σ) : ∀ (commands : List Command) (service : σ),
    ∀ served ∈ (carryAll commands service).1, served.1 = true
  | [], _ => by simp [carryAll]
  | c :: cs, service =>
    List.forall_mem_cons.mpr ⟨carry_prompt prompt c service, carryAll_prompt prompt cs _⟩

end Carried

end Command

/-! ## What is asked and logged, for every service -/

/-- Commands that are carried through against a service in some state. -/
structure Command.Serves {σ : Type} [Service σ] (commands : List Command) (service : σ) : Prop where
  /-- Each command has its turn, in their order. -/
  all : (carryAll commands (⟨service, []⟩ : Recorder σ)).1.map (·.2.command) = commands
  /-- The service gets the calls that are due for each command, each of them once and no others. -/
  heard : (carryAll commands (⟨service, []⟩ : Recorder σ)).2.heard =
    (carryAll commands (⟨service, []⟩ : Recorder σ)).1.flatMap (·.2.asks)
  /-- Everything that a command has asked is answered when it comes to its end. -/
  answered : ∀ served ∈ (carryAll commands (⟨service, []⟩ : Recorder σ)).1,
    served.1 = true → served.2.IsAnswered
  /-- With a service that lets nobody wait, all do. -/
  prompt : Service.IsPrompt σ →
    ∀ served ∈ (carryAll commands (⟨service, []⟩ : Recorder σ)).1, served.1 = true

/-- Nothing is asked twice and nothing is logged twice.  Whatever comes in for a command, it has
made exactly the calls that are due and written exactly the lines on what became of them; every
service gets these calls and no others; and there is no document that an upload could not send. -/
theorem commands_askAndLogOnce :
    (∀ e : Errand, e.Accounted) ∧
      (∀ (σ : Type) [Service σ] (service : σ) (commands : List Command),
        Command.Serves commands service) ∧
      ∀ d : Document, d.IsSent := by
  refine ⟨Errand.accounted, fun σ _ service commands => ?_, Document.isSent⟩
  constructor
  case all => exact Command.carryAll_commands commands _
  case heard => exact Command.carryAll_heard commands ⟨service, []⟩
  case answered => exact Command.carryAll_answered commands _
  case prompt => exact fun prompt => Command.carryAll_prompt (Recorder.isPrompt prompt) commands _

/-- A service that is offline is asked once for each command. -/
example : (Command.carryAll [.request (.run "demo"), .reconcile]
    (⟨Mock.disconnect {}, []⟩ : Recorder Mock)).2.heard = [.run "demo", .workflows] := rfl

/-- A failed look-up among others that wait for each other. -/
example :
    let mock : Mock := ((Mock.store {} "a.json" ⟨some "success", none⟩).storeFailing "b").holdLookups
    let (served, recorder) := Command.carryAll [.reconcile] (⟨mock, []⟩ : Recorder Mock)
    recorder.heard = [.workflows, .status "a", .status "b"] ∧
      served.map (fun s => (s.1, s.2.failedLookups)) =
        [(true, [("b", .status "status" 503)])] := by
  decide

end WorkflowCanvas
