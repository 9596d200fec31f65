import WorkflowCanvas.Service.Call

/-!
# Carrying an exchange through

An asker sends calls together and takes the replies one by one; a reply may make it send more.
`settle` carries such an exchange through against a service.  The calls of one round are accepted in
their order, and each that need not wait is answered at once.  Those that had to wait are answered
afterwards, again in their order.  If one of them still has to wait then, nothing will ever release
it, and the exchange has stalled.
-/

namespace WorkflowCanvas

/-- An asker with the service it talks to. -/
structure Exchange (α σ : Type) where
  asker : α
  service : σ
  /-- The calls of the next round. -/
  calls : List Call

namespace Exchange

/-- A call that has to wait. -/
structure Waiting where
  index : Nat
  call : Call
  ticket : Nat

/-- How an asker takes the reply to the call with an index among those of a round. -/
abbrev Receive (α : Type) := α → Nat → (c : Call) → c.Reply → α × List Call

variable {α σ : Type} [Service σ]

/-- Answers a call and hands the reply over. -/
def deliver (receive : Receive α) (e : Exchange α σ) (index : Nat) (c : Call) : Exchange α σ :=
  let (reply, service) := Service.answer e.service c
  let (asker, calls) := receive e.asker index c reply
  ⟨asker, service, e.calls ++ calls⟩

/-- Has calls accepted, the first with the given index, and answers those that need not wait. -/
def offer (receive : Receive α) : Nat → List Call → Exchange α σ → Exchange α σ × List Waiting
  | _, [], e => (e, [])
  | index, c :: cs, e =>
    let (ticket, service) := Service.accept e.service c
    let e := { e with service }
    match ticket.filter (!Service.isReady service ·) with
    | none => offer receive (index + 1) cs (e.deliver receive index c)
    | some ticket =>
      let (e, waiting) := offer receive (index + 1) cs e
      (e, ⟨index, c, ticket⟩ :: waiting)

/-- Answers the calls that have waited long enough, and says whether these were all. -/
def release (receive : Receive α) : List Waiting → Exchange α σ → Bool × Exchange α σ
  | [], e => (true, e)
  | w :: waiting, e =>
    if Service.isReady e.service w.ticket then
      release receive waiting (e.deliver receive w.index w.call)
    else
      (false, (release receive waiting e).2)

/-- Carries an exchange through in at most so many rounds, and says whether it came to its end. -/
def settle (receive : Receive α) : Nat → Exchange α σ → Bool × Exchange α σ
  | 0, e => (e.calls.isEmpty, e)
  | rounds + 1, e =>
    if e.calls.isEmpty then (true, e)
    else
      let (e, waiting) := offer receive 0 e.calls { e with calls := [] }
      match release receive waiting e with
      | (true, e) => settle receive rounds e
      | (false, e) => (false, e)

end Exchange

end WorkflowCanvas
