import Mathlib.Algebra.GroupWithZero.Nat
import Mathlib.Algebra.Order.BigOperators.Group.List
import Mathlib.Algebra.Order.Group.Nat
import Mathlib.Data.List.Forall2
import WorkflowCanvas.Proofs.Command.Reconciliation
import WorkflowCanvas.Service.Exchange

/-!
# Several askers at one service

Askers join whenever they like, their calls reach the service in any order, and the service answers
a call that need not wait at any time: a run is a list of such turns, and it is up to the run whose
turn is next.  A turn that is not possible, as an answer to a call that has to wait, has no outcome.

`step_eq_some_iff` says all that a turn can do, and `run_induction` carries over a run what every
turn keeps.  What is counted over all calls changes by the one call that moves and by those that are
made because of it (`total_join`, `total_goOn`).
-/

namespace WorkflowCanvas

/-- How askers go about it: what a newcomer asks first, and how an asker takes replies. -/
structure Manner (β α : Type) where
  begin : β → α × List Call
  receive : Exchange.Receive α

/-- Askers that have at most one call under way: each asks when it joins and when it has got an
answer, and then for one thing. -/
structure Manner.AsksSingly {α β : Type} (manner : Manner β α) : Prop where
  begin_le : ∀ newcomer, (manner.begin newcomer).2.length ≤ 1
  receive_le : ∀ asker index call reply, (manner.receive asker index call reply).2.length ≤ 1

/-- How far a call has got. -/
inductive Stage
  /-- It has not reached the service. -/
  | sent
  /-- The service has accepted it; with a ticket it may have to wait. -/
  | held (ticket : Option Nat)
  | answered
  deriving DecidableEq

namespace Stage

def hasArrived : Stage → Bool
  | sent => false
  | _ => true

def isAnswered : Stage → Bool
  | answered => true
  | _ => false

/-- Whether the call is under way. -/
def isOut (stage : Stage) : Bool := !stage.isAnswered

end Stage

/-- Whether the call is a look-up. -/
def Call.isLookup : Call → Bool
  | status _ => true
  | _ => false

/-- A call of an asker, with its index among those made together. -/
structure Passage where
  index : Nat
  call : Call
  stage : Stage
  deriving DecidableEq

namespace Passage

/-- Calls made together. -/
def make (calls : List Call) : List Passage := calls.mapIdx fun index call => ⟨index, call, .sent⟩

/-- Counts a look-up at such a stage. -/
def lookup (counts : Stage → Bool) (p : Passage) : Nat :=
  if p.call.isLookup && counts p.stage then 1 else 0

/-- Counts a call under way. -/
def out (p : Passage) : Nat := if p.stage.isOut then 1 else 0

lemma stage_of_mem_make {p : Passage} {calls : List Call} (h : p ∈ make calls) :
    p.stage = .sent := by
  obtain ⟨index, hindex, rfl⟩ := List.mem_mapIdx.mp h
  rfl

/-- What is counted over new calls. -/
lemma sum_make {f : Passage → Nat} (weight : Call → Nat) (calls : List Call)
    (h : ∀ index call, f ⟨index, call, .sent⟩ = weight call) :
    ((make calls).map f).sum = (calls.map weight).sum := by
  refine congrArg List.sum (List.ext_getElem? fun place => ?_)
  simp [make, Function.comp_def, h]

/-- New calls have not arrived, so a count over later stages leaves them out. -/
lemma sum_lookup_make (counts : Stage → Bool) (later : counts .sent = false) (calls : List Call) :
    ((make calls).map (lookup counts)).sum = 0 := by
  rw [sum_make (fun _ => 0) calls fun index call => by simp [lookup, later]]
  simp

end Passage

/-- An asker with all calls it has made, earliest first. -/
structure Party (α : Type) where
  asker : α
  passages : List Passage
  deriving DecidableEq

/-- A service with those who use it, in the order in which they joined. -/
structure Traffic (α σ : Type) where
  service : σ
  parties : List (Party α)

/-- Something that happens in the traffic. -/
inductive Traffic.Turn (β : Type)
  /-- A newcomer joins. -/
  | join (newcomer : β)
  /-- The call of a party at a place reaches the service. -/
  | arrive (party place : Nat)
  /-- The call of a party at a place is answered. -/
  | answer (party place : Nat)

namespace Traffic

/-- The newcomer of a turn. -/
def Turn.newcomer? {β : Type} : Turn β → Option β
  | join newcomer => some newcomer
  | _ => none

/-- The newcomers of turns, in the order in which they join. -/
def newcomers {β : Type} (turns : List (Turn β)) : List β := turns.filterMap Turn.newcomer?

lemma newcomers_append {β : Type} (first second : List (Turn β)) :
    newcomers (first ++ second) = newcomers first ++ newcomers second :=
  List.filterMap_append

lemma newcomers_concat {β : Type} (turns : List (Turn β)) {turn : Turn β}
    (hturn : turn.newcomer? = none) : newcomers (turns ++ [turn]) = newcomers turns := by
  rw [newcomers_append]
  simp [newcomers, hturn]

end Traffic

/-! ## Parties -/

namespace Party

variable {α β : Type} (manner : Manner β α)

/-- A newcomer with its first calls. -/
def ofNewcomer (newcomer : β) : Party α :=
  ⟨(manner.begin newcomer).1, Passage.make (manner.begin newcomer).2⟩

/-- The party when the call at a place has got further and the asker has gone on and made calls. -/
def goOn (party : Party α) (place : Nat) (passage : Passage) (next : α × List Call) : Party α :=
  ⟨next.1, party.passages.set place passage ++ Passage.make next.2⟩

/-- What is counted over the calls of a party. -/
def total (f : Passage → Nat) (party : Party α) : Nat := (party.passages.map f).sum

end Party

/-! ## Counting calls -/

namespace Traffic

variable {α σ : Type}

/-- A service that nobody has used. -/
def opened (service : σ) : Traffic α σ := ⟨service, []⟩

/-- A party has a call at a place. -/
structure Finds (t : Traffic α σ) (number place : Nat) (party : Party α) (passage : Passage) :
    Prop where
  party_eq : t.parties[number]? = some party
  passage_eq : party.passages[place]? = some passage

/-- What is counted over all calls. -/
def total (f : Passage → Nat) (t : Traffic α σ) : Nat := (t.parties.map (·.total f)).sum

/-- A sum when one entry is replaced. -/
lemma sum_map_set {γ : Type} (f : γ → Nat) {x : γ} (y : γ) : ∀ {xs : List γ} {place : Nat},
    xs[place]? = some x → ((xs.set place y).map f).sum + f x = (xs.map f).sum + f y
  | [], place, h => by simp at h
  | z :: zs, 0, h => by
    obtain rfl : z = x := by simpa using h
    simp only [List.set_cons_zero, List.map_cons, List.sum_cons]
    omega
  | z :: zs, place + 1, h => by
    have hplace : zs[place]? = some x := by simpa using h
    have hrest := sum_map_set f y hplace
    simp only [List.set_cons_succ, List.map_cons, List.sum_cons]
    omega

variable {t : Traffic α σ} (f : Passage → Nat)

lemma total_join (t : Traffic α σ) (newcomer : Party α) :
    total f ⟨t.service, t.parties ++ [newcomer]⟩ = t.total f + newcomer.total f := by
  simp [total]

/-- A call gets further, and others may be made. -/
lemma total_goOn {number place : Nat} {party : Party α} {old : Passage}
    (found : t.Finds number place party old) (service : σ) (new : Passage) (next : α × List Call) :
    total f ⟨service, t.parties.set number (party.goOn place new next)⟩ + f old =
      t.total f + f new + ((Passage.make next.2).map f).sum := by
  have hparties := sum_map_set (Party.total f) (party.goOn place new next) found.party_eq
  have hpassages := sum_map_set f new found.passage_eq
  have hnext : (party.goOn place new next).total f =
      ((party.passages.set place new).map f).sum + ((Passage.make next.2).map f).sum := by
    simp [Party.goOn, Party.total]
  change (_ + Party.total f party = t.total f + _) at hparties
  change _ = party.total f + _ at hpassages
  change ((t.parties.set number _).map (Party.total f)).sum + _ = _
  omega

/-! ## All calls -/

/-- The calls of all parties. -/
def passages (t : Traffic α σ) : List Passage := t.parties.flatMap Party.passages

lemma mem_passages_iff {p : Passage} :
    p ∈ t.passages ↔ ∃ number place party, t.Finds number place party p := by
  rw [passages, List.mem_flatMap]
  constructor
  · rintro ⟨party, hparty, hp⟩
    obtain ⟨number, hnumber⟩ := List.getElem?_of_mem hparty
    obtain ⟨place, hplace⟩ := List.getElem?_of_mem hp
    exact ⟨number, place, party, hnumber, hplace⟩
  · rintro ⟨number, place, party, hparty, hp⟩
    exact ⟨party, List.mem_of_getElem? hparty, List.mem_of_getElem? hp⟩

lemma mem_passages_join {p : Passage} (hp : p ∈ t.passages) (newcomer : Party α) :
    p ∈ passages ⟨t.service, t.parties ++ [newcomer]⟩ := by
  rw [passages, List.flatMap_append]
  exact List.mem_append_left _ hp

/-- A call that has arrived was there before a newcomer joined. -/
lemma mem_of_mem_join {β : Type} {manner : Manner β α} {newcomer : β} {p : Passage}
    (hp : p ∈ passages ⟨t.service, t.parties ++ [.ofNewcomer manner newcomer]⟩)
    (harrived : p.stage ≠ .sent) : p ∈ t.passages := by
  rw [passages, List.flatMap_append] at hp
  obtain hp | hp := List.mem_append.mp hp
  · exact hp
  · rw [List.flatMap_singleton] at hp
    exact absurd (Passage.stage_of_mem_make hp) harrived

/-- A call that has arrived was there before the turn, or it is the one that got further. -/
lemma mem_of_mem_goOn {number place : Nat} {party : Party α} {old p : Passage}
    (found : t.Finds number place party old) {service : σ} {new : Passage} {next : α × List Call}
    (hp : p ∈ passages ⟨service, t.parties.set number (party.goOn place new next)⟩)
    (harrived : p.stage ≠ .sent) : p ∈ t.passages ∨ p = new := by
  obtain ⟨other, hother, hp⟩ := List.mem_flatMap.mp hp
  obtain hother | rfl := List.mem_or_eq_of_mem_set hother
  · exact .inl (List.mem_flatMap.mpr ⟨other, hother, hp⟩)
  · obtain hp | hp := List.mem_append.mp hp
    · obtain hp | rfl := List.mem_or_eq_of_mem_set hp
      · exact .inl (List.mem_flatMap.mpr ⟨party, List.mem_of_getElem? found.party_eq, hp⟩)
      · exact .inr rfl
    · exact absurd (Passage.stage_of_mem_make hp) harrived

/-- Every call but the one that gets further stays as it is. -/
lemma mem_goOn {number place : Nat} {party : Party α} {old p : Passage}
    (found : t.Finds number place party old) (service : σ) (new : Passage) (next : α × List Call)
    (hp : p ∈ t.passages) (hne : p ≠ old) :
    p ∈ passages ⟨service, t.parties.set number (party.goOn place new next)⟩ := by
  obtain ⟨number', place', party', hparty', hp'⟩ := mem_passages_iff.mp hp
  have hbound := (List.getElem?_eq_some_iff.mp found.party_eq).1
  by_cases hnumber : number = number'
  · subst hnumber
    obtain rfl : party = party' := Option.some.inj (found.party_eq.symm.trans hparty')
    have hplace : place ≠ place' := by
      rintro rfl
      exact hne (Option.some.inj (hp'.symm.trans found.passage_eq))
    have hkept : (party.passages.set place new)[place']? = some p := by
      rw [List.getElem?_set_ne hplace, hp']
    refine List.mem_flatMap.mpr ⟨_, List.mem_set hbound _, ?_⟩
    exact List.mem_append_left _ (List.mem_of_getElem? hkept)
  · have hkept : (t.parties.set number (party.goOn place new next))[number']? = some party' := by
      rw [List.getElem?_set_ne hnumber, hparty']
    exact List.mem_flatMap.mpr ⟨party', List.mem_of_getElem? hkept, List.mem_of_getElem? hp'⟩

/-- The call that gets further is there. -/
lemma new_mem_goOn {number place : Nat} {party : Party α} {old : Passage}
    (found : t.Finds number place party old) (service : σ) (new : Passage) (next : α × List Call) :
    new ∈ passages ⟨service, t.parties.set number (party.goOn place new next)⟩ := by
  have hnumber := (List.getElem?_eq_some_iff.mp found.party_eq).1
  have hplace := (List.getElem?_eq_some_iff.mp found.passage_eq).1
  refine List.mem_flatMap.mpr ⟨_, List.mem_set hnumber _, ?_⟩
  exact List.mem_append_left _ (List.mem_set hplace _)

lemma total_eq_sum (t : Traffic α σ) : t.total f = (t.passages.map f).sum := by
  rw [passages, List.map_flatMap, List.flatMap, List.sum_flatten, List.map_map]
  rfl

lemma le_total {p : Passage} (hp : p ∈ t.passages) : f p ≤ t.total f := by
  rw [total_eq_sum]
  exact List.le_sum_of_mem (List.mem_map_of_mem hp)

lemma total_congr {f g : Passage → Nat} (h : ∀ p ∈ t.passages, f p = g p) :
    t.total f = t.total g := by
  rw [total_eq_sum, total_eq_sum, List.map_congr_left h]

lemma total_le {f g : Passage → Nat} (t : Traffic α σ) (hle : ∀ p, f p ≤ g p) :
    t.total f ≤ t.total g := by
  rw [total_eq_sum, total_eq_sum]
  exact List.sum_le_sum fun p _ => hle p

lemma total_add (f g : Passage → Nat) (t : Traffic α σ) :
    t.total (fun p => f p + g p) = t.total f + t.total g := by
  simp only [total_eq_sum, List.sum_map_add]

/-- How many look-ups are at such a stage. -/
def lookups (counts : Stage → Bool) (t : Traffic α σ) : Nat := t.total (Passage.lookup counts)

lemma lookups_le {counts counts' : Stage → Bool} (t : Traffic α σ)
    (himp : ∀ stage, counts stage = true → counts' stage = true) :
    t.lookups counts ≤ t.lookups counts' := by
  refine total_le t fun p => ?_
  have hstage := himp p.stage
  unfold Passage.lookup
  cases p.call.isLookup <;> cases hcounts : counts p.stage <;> simp_all

lemma lookups_out_le (t : Traffic α σ) : t.lookups Stage.isOut ≤ t.total Passage.out := by
  refine total_le t fun p => ?_
  unfold Passage.lookup Passage.out
  cases p.call.isLookup <;> simp

lemma lookups_arrived_le (t : Traffic α σ) :
    t.lookups Stage.hasArrived ≤ t.lookups Stage.isAnswered + t.lookups Stage.isOut := by
  rw [lookups, lookups, lookups, ← total_add]
  refine total_le t ?_
  rintro ⟨index, call, stage⟩
  cases stage <;> simp [Passage.lookup, Stage.isAnswered, Stage.hasArrived, Stage.isOut]

section Later

variable (counts : Stage → Bool) (later : counts .sent = false)
include later

lemma lookups_join {β : Type} (manner : Manner β α) (t : Traffic α σ) (newcomer : β) :
    lookups counts ⟨t.service, t.parties ++ [.ofNewcomer manner newcomer]⟩ = t.lookups counts := by
  have hmade : (Party.ofNewcomer manner newcomer).total (Passage.lookup counts) = 0 :=
    Passage.sum_lookup_make counts later _
  rw [lookups, total_join, hmade, Nat.add_zero, lookups]

lemma lookups_goOn {number place : Nat} {party : Party α} {old : Passage}
    (found : t.Finds number place party old) (service : σ) (new : Passage) (next : α × List Call) :
    lookups counts ⟨service, t.parties.set number (party.goOn place new next)⟩ + old.lookup counts =
      t.lookups counts + new.lookup counts := by
  rw [lookups, total_goOn _ found, Passage.sum_lookup_make counts later, Nat.add_zero, lookups]

end Later

/-! ## Turns -/

variable {β : Type} [Service σ] (manner : Manner β α)

/-- Takes a turn, if it is possible. -/
def step (t : Traffic α σ) : Turn β → Option (Traffic α σ)
  | .join newcomer => some { t with parties := t.parties ++ [.ofNewcomer manner newcomer] }
  | .arrive number place => do
    let party ← t.parties[number]?
    match ← party.passages[place]? with
    | ⟨index, call, .sent⟩ =>
      let (ticket, service) := Service.accept t.service call
      some ⟨service, t.parties.set number
        (party.goOn place ⟨index, call, .held ticket⟩ (party.asker, []))⟩
    | _ => none
  | .answer number place => do
    let party ← t.parties[number]?
    match ← party.passages[place]? with
    | ⟨index, call, .held ticket⟩ =>
      if ticket.all (Service.isReady t.service) then
        let (reply, service) := Service.answer t.service call
        some ⟨service, t.parties.set number
          (party.goOn place ⟨index, call, .answered⟩
            (manner.receive party.asker index call reply))⟩
      else none
    | _ => none

/-- Takes turns in order, if they are possible. -/
def run (t : Traffic α σ) (turns : List (Turn β)) : Option (Traffic α σ) :=
  turns.foldlM (step manner) t

/-- Nobody can go on; only newcomers could bring something about. -/
def AtRest (t : Traffic α σ) : Prop :=
  ∀ turn : Turn β, turn.newcomer? = none → t.step manner turn = none

/-- What a turn does. -/
inductive Turned (t : Traffic α σ) : Turn β → Traffic α σ → Prop
  | join (newcomer : β) :
    Turned t (.join newcomer) ⟨t.service, t.parties ++ [.ofNewcomer manner newcomer]⟩
  | arrive {number place index : Nat} {party : Party α} {call : Call}
    (found : t.Finds number place party ⟨index, call, .sent⟩) :
    Turned t (.arrive number place) ⟨(Service.accept t.service call).2, t.parties.set number
      (party.goOn place ⟨index, call, .held (Service.accept t.service call).1⟩ (party.asker, []))⟩
  | answer {number place index : Nat} {party : Party α} {call : Call} {ticket : Option Nat}
    (found : t.Finds number place party ⟨index, call, .held ticket⟩)
    (ready : ticket.all (Service.isReady t.service) = true) :
    Turned t (.answer number place) ⟨(Service.answer t.service call).2, t.parties.set number
      (party.goOn place ⟨index, call, .answered⟩
        (manner.receive party.asker index call (Service.answer t.service call).1))⟩

variable {manner} {t t' : Traffic α σ}

lemma step_eq_some_iff {turn : Turn β} :
    t.step manner turn = some t' ↔ Turned manner t turn t' := by
  constructor
  · intro h
    cases turn with
    | join newcomer =>
      cases h
      exact .join newcomer
    | arrive number place =>
      obtain ⟨party, hparty, h⟩ := Option.bind_eq_some_iff.mp h
      obtain ⟨⟨index, call, stage⟩, hpassage, h⟩ := Option.bind_eq_some_iff.mp h
      cases stage with
      | sent =>
        cases h
        exact .arrive ⟨hparty, hpassage⟩
      | _ => cases h
    | answer number place =>
      obtain ⟨party, hparty, h⟩ := Option.bind_eq_some_iff.mp h
      obtain ⟨⟨index, call, stage⟩, hpassage, h⟩ := Option.bind_eq_some_iff.mp h
      cases stage with
      | held ticket =>
        dsimp only at h
        split at h
        · next ready =>
          cases h
          exact .answer ⟨hparty, hpassage⟩ ready
        · cases h
      | _ => cases h
  · rintro (_ | found | ⟨found, ready⟩)
    · rfl
    · simp [step, found.party_eq, found.passage_eq]
    · simp [step, found.party_eq, found.passage_eq, ready]

lemma run_concat {turns : List (Turn β)} {turn : Turn β} {last : Traffic α σ} :
    t.run manner (turns ++ [turn]) = some last ↔
      ∃ t', t.run manner turns = some t' ∧ Turned manner t' turn last := by
  simp only [run, List.foldlM_append, List.foldlM_cons, List.foldlM_nil, bind_pure,
    ← step_eq_some_iff]
  exact Option.bind_eq_some_iff

lemma run_append {first second : List (Turn β)} {last : Traffic α σ} :
    t.run manner (first ++ second) = some last ↔
      ∃ t', t.run manner first = some t' ∧ t'.run manner second = some last := by
  simp only [run, List.foldlM_append]
  exact Option.bind_eq_some_iff

/-- What holds at the beginning and is kept by every turn holds behind every run. -/
theorem run_induction {P : List (Turn β) → Traffic α σ → Prop} (start : P [] t)
    (keeps : ∀ turns before turn after, t.run manner turns = some before → P turns before →
      Turned manner before turn after → P (turns ++ [turn]) after)
    {turns : List (Turn β)} (hrun : t.run manner turns = some t') : P turns t' := by
  induction turns using List.reverseRecOn generalizing t' with
  | nil =>
    cases hrun
    exact start
  | append_singleton turns turn ih =>
    obtain ⟨before, hbefore, hturn⟩ := run_concat.mp hrun
    exact keeps turns before turn t' hbefore (ih hbefore) hturn

/-! ## Askers that wait -/

/-- Of askers that wait for every answer no more calls are under way than there are askers. -/
lemma total_out_le (singly : manner.AsksSingly) {service : σ} {turns : List (Turn β)}
    (hrun : (opened service).run manner turns = some t) :
    t.total Passage.out ≤ (newcomers turns).length := by
  refine run_induction (P := fun turns t => t.total Passage.out ≤ (newcomers turns).length)
    (Nat.le_refl _) ?_ hrun
  rintro turns before turn after - ih hturn
  have hmade : ∀ calls : List Call, ((Passage.make calls).map Passage.out).sum = calls.length := by
    intro calls
    rw [Passage.sum_make (fun _ => 1) calls fun _ _ => rfl]
    simp
  rw [newcomers_append, List.length_append]
  cases hturn with
  | join newcomer =>
    have hbegin := singly.begin_le newcomer
    rw [← hmade] at hbegin
    rw [total_join]
    exact Nat.add_le_add ih hbegin
  | @arrive _ _ index party call found =>
    have hcount := total_goOn Passage.out found (Service.accept before.service call).2
      ⟨index, call, .held (Service.accept before.service call).1⟩ (party.asker, [])
    rw [hmade] at hcount
    exact (Nat.add_right_cancel hcount).trans_le ih
  | @answer _ _ index party call _ found ready =>
    have hcount := total_goOn Passage.out found (Service.answer before.service call).2
      ⟨index, call, .answered⟩
      (manner.receive party.asker index call (Service.answer before.service call).1)
    rw [hmade] at hcount
    have hnext := singly.receive_le party.asker index call
      (Service.answer before.service call).1
    change _ + 1 = _ + 0 + _ at hcount
    change _ ≤ _ + 0
    omega

end Traffic

/-- Callers that look up workflows in turn, each when the one before is answered. -/
def Manner.inTurn : Manner (List String) (List String) where
  begin names := (names.tail, (names.take 1).map Lookup.call)
  receive names _ _ _ := (names.tail, (names.take 1).map Lookup.call)

lemma Manner.inTurn_asksSingly : inTurn.AsksSingly where
  begin_le names := by simp [inTurn]
  receive_le names _ _ _ := by simp [inTurn]

end WorkflowCanvas
