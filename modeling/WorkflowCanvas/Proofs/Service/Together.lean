import Mathlib.Algebra.BigOperators.Ring.List
import Mathlib.Algebra.Ring.Nat
import Mathlib.Data.List.OfFn
import Mathlib.Data.Nat.Cast.Basic
import WorkflowCanvas.Proofs.Service.Gate

/-!
# Commands at a gate

Commands of any number run against one mock that holds back look-ups.  A reconciliation makes all
its look-ups at once, as many as the gate lets through at a time, so the look-ups that are made are
whole groups, however they are mixed at the gate (`Underway.dvd_lookups`).  Hence none has to wait
for look-ups that nobody has made yet (`ready_of_lookups_le`).

`Party.Sound` is what a command has come to with the answers it has got, and `Underway` says so of
all commands and counts their turns.  `lookups_passTogether` has this together with what the gate
does to look-ups of which too few are under way.
-/

namespace WorkflowCanvas

open Incoming Progress

/-! ## Commands as askers -/

/-- How far a command has got and what it asks. -/
def Step.asks (s : Step) : Progress × List Call := (s.progress, Action.calls s.actions)

namespace Command

/-- Commands in the way they begin and take replies. -/
def manner : Manner Command Progress where
  begin c := (Progress.ready c).begin.asks
  receive p index c reply := (p.receive index c reply).asks

/-- How many turns a command takes with so many workflows: it joins, and each of its calls arrives
and is answered. -/
def turns (workflows : Nat) : Command → Nat
  | request _ => 3
  | reconcile => 3 + 2 * workflows

end Command

namespace Mock

variable (m : Mock)

/-- The summary of a stored workflow. -/
def summary (fileName : String) : Summary :=
  Lookup.conclude fileName (m.reply (.status (workflowStem fileName)))

/-- Where a command ends. -/
def completed : Command → Progress
  | .request r => .concluded r (r.conclude (m.reply r.call))
  | .reconcile => .reconciled (.ok (m.workflows.map m.summary))

/-- What the look-up at a place of the list is answered. -/
def outcome (place : Fin m.workflows.length) : Except ServiceError StatusResponse :=
  m.reply (.status (workflowStem (m.workflows.get place)))

/-- The calls that follow the answer to a call. -/
def followUps : Call → List Call
  | .workflows => m.workflows.map Lookup.call
  | _ => []

/-- The look-ups of a list in their stages. -/
def lookups (stages : Fin m.workflows.length → Stage) : List Passage :=
  List.ofFn fun place => ⟨place, Lookup.call (m.workflows.get place), stages place⟩

variable {m}

lemma summaries_outcome : Lookup.summaries m.outcome = m.workflows.map m.summary := by
  apply List.ext_getElem <;> simp [Lookup.summaries, summary, outcome]

lemma summary_name (m : Mock) (fileName : String) : (m.summary fileName).name = fileName := by
  unfold summary
  cases m.reply (.status (workflowStem fileName)) <;> rfl

lemma make_lookups (m : Mock) :
    Passage.make (m.workflows.map Lookup.call) = m.lookups fun _ => .sent := by
  apply List.ext_getElem <;> simp [Passage.make, lookups]

lemma eq_of_getElem?_lookups {stages : Fin m.workflows.length → Stage} {number : Nat} {p : Passage}
    (h : (m.lookups stages)[number]? = some p) :
    ∃ place : Fin m.workflows.length, number = place ∧
      p = ⟨place, Lookup.call (m.workflows.get place), stages place⟩ := by
  obtain ⟨hnumber, rfl⟩ := List.getElem?_eq_some_iff.mp h
  rw [lookups, List.length_ofFn] at hnumber
  exact ⟨⟨number, hnumber⟩, rfl, by simp [lookups]⟩

lemma set_lookups (stages : Fin m.workflows.length → Stage) (place : Fin m.workflows.length)
    (stage : Stage) :
    (m.lookups stages).set place ⟨place, Lookup.call (m.workflows.get place), stage⟩ =
      m.lookups (Function.update stages place stage) := by
  apply List.ext_getElem
  · simp [lookups]
  · intro number hnumber hnumber'
    rw [List.getElem_set]
    split
    · next same =>
      subst same
      simp [lookups]
    · next other =>
      have hne : (⟨number, by simpa [lookups] using hnumber⟩ : Fin m.workflows.length) ≠ place :=
        fun h => other (congrArg Fin.val h).symm
      simp [lookups, Function.update_of_ne hne]

end Mock

/-! ## Parties of commands -/

/-- The party of a command as it can be at a mock: the calls of the command have been made, with
those that follow the answers there are, and the command stands where these have led it. -/
inductive Party.Sound (m : Mock) : Command → Party Progress → Prop
  | asked (r : Request) {stage : Stage} (out : stage ≠ .answered) :
    Sound m (.request r) ⟨.asked r, [⟨0, r.call, stage⟩]⟩
  | concluded (r : Request) :
    Sound m (.request r) ⟨m.completed (.request r), [⟨0, r.call, .answered⟩]⟩
  | listing {stage : Stage} (out : stage ≠ .answered) :
    Sound m .reconcile ⟨.listing, [⟨0, .workflows, stage⟩]⟩
  | lookingUp (order : List (Fin m.workflows.length)) (stages : Fin m.workflows.length → Stage)
    (answered : ∀ place, stages place = .answered ↔ place ∈ order) :
    Sound m .reconcile ⟨lookedUp m.workflows (order.map (Incoming.lookup m.outcome)),
      ⟨0, .workflows, .answered⟩ :: m.lookups stages⟩

namespace Party.Sound

variable {m : Mock} {c : Command} {party : Party Progress} {place index : Nat} {call : Call}

lemma ofNewcomer (m : Mock) (c : Command) : Sound m c (.ofNewcomer Command.manner c) := by
  cases c with
  | request r => exact .asked r nofun
  | reconcile => exact .listing nofun

/-- The stage of a look-up that is not answered yet changes. -/
lemma lookingUp_update {order : List (Fin m.workflows.length)}
    {stages : Fin m.workflows.length → Stage} (answered : ∀ place, stages place = .answered ↔
      place ∈ order) {place : Fin m.workflows.length} (out : stages place ≠ .answered)
    {stage : Stage} (hstage : stage ≠ .answered) (other : Fin m.workflows.length) :
    Function.update stages place stage other = .answered ↔ other ∈ order := by
  by_cases same : other = place
  · subst same
    rw [Function.update_self, ← answered]
    exact iff_of_false hstage out
  · rw [Function.update_of_ne same, answered]

lemma eq_of_getElem?_singleton {first p : Passage} (h : [first][place]? = some p) :
    place = 0 ∧ p = first := by
  rw [List.getElem?_singleton, Option.ite_none_right_eq_some] at h
  exact ⟨h.1, (Option.some.inj h.2).symm⟩

/-- Behind the answered list only look-ups are out. -/
lemma eq_of_getElem?_lookingUp {stages : Fin m.workflows.length → Stage} {stage : Stage}
    (h : (⟨0, .workflows, .answered⟩ :: m.lookups stages)[place]? = some ⟨index, call, stage⟩)
    (out : stage ≠ .answered) :
    ∃ own : Fin m.workflows.length, place = own + 1 ∧ index = own ∧
      call = Lookup.call (m.workflows.get own) ∧ stages own = stage := by
  cases place with
  | zero =>
    cases h
    exact absurd rfl out
  | succ number =>
    obtain ⟨own, rfl, hown⟩ := Mock.eq_of_getElem?_lookups h
    cases hown
    exact ⟨own, rfl, rfl, rfl, rfl⟩

/-- A look-up gets further and nothing is asked because of it. -/
lemma passages_lookingUp (stages : Fin m.workflows.length → Stage) (own : Fin m.workflows.length)
    (stage : Stage) (asker next : Progress) :
    Party.goOn ⟨asker, ⟨0, .workflows, .answered⟩ :: m.lookups stages⟩ (own + 1)
      ⟨own, Lookup.call (m.workflows.get own), stage⟩ (next, []) =
        ⟨next, ⟨0, .workflows, .answered⟩ :: m.lookups (Function.update stages own stage)⟩ := by
  rw [← Mock.set_lookups]
  simp [Party.goOn, Passage.make]

lemma arrive (h : Sound m c party) (hp : party.passages[place]? = some ⟨index, call, .sent⟩)
    (ticket : Option Nat) :
    Sound m c (party.goOn place ⟨index, call, .held ticket⟩ (party.asker, [])) := by
  cases h with
  | asked r out =>
    obtain ⟨rfl, hp⟩ := eq_of_getElem?_singleton hp
    cases hp
    exact .asked r nofun
  | concluded r =>
    obtain ⟨rfl, hp⟩ := eq_of_getElem?_singleton hp
    cases hp
  | listing out =>
    obtain ⟨rfl, hp⟩ := eq_of_getElem?_singleton hp
    cases hp
    exact .listing nofun
  | lookingUp order stages answered =>
    obtain ⟨own, rfl, rfl, rfl, hstage⟩ := eq_of_getElem?_lookingUp hp nofun
    rw [passages_lookingUp]
    have out : stages own ≠ .answered := by simp [hstage]
    exact .lookingUp order _ (lookingUp_update answered out nofun)

/-- An answered call is followed by those that it is to be followed by, and by no others. -/
lemma answer (h : Sound m c party) {ticket : Option Nat}
    (hp : party.passages[place]? = some ⟨index, call, .held ticket⟩) :
    Sound m c (party.goOn place ⟨index, call, .answered⟩
        (Command.manner.receive party.asker index call (m.reply call))) ∧
      (Command.manner.receive party.asker index call (m.reply call)).2 = m.followUps call := by
  cases h with
  | asked r out =>
    obtain ⟨rfl, hp⟩ := eq_of_getElem?_singleton hp
    cases hp
    cases r <;> exact ⟨.concluded _, rfl⟩
  | concluded r =>
    obtain ⟨rfl, hp⟩ := eq_of_getElem?_singleton hp
    cases hp
  | listing out =>
    obtain ⟨rfl, hp⟩ := eq_of_getElem?_singleton hp
    cases hp
    have hnext : Command.manner.receive .listing 0 .workflows (m.reply .workflows) =
        (lookedUp m.workflows [], m.workflows.map Lookup.call) :=
      Prod.ext (lookUp_progress ⟨m.workflows⟩) (lookUp_calls ⟨m.workflows⟩)
    rw [hnext]
    have hmade : Party.goOn ⟨.listing, [⟨0, .workflows, .held ticket⟩]⟩ 0 ⟨0, .workflows, .answered⟩
        (lookedUp m.workflows [], m.workflows.map Lookup.call) =
          ⟨lookedUp m.workflows [], ⟨0, .workflows, .answered⟩ :: m.lookups fun _ => .sent⟩ := by
      rw [← Mock.make_lookups]
      rfl
    rw [hmade]
    exact ⟨.lookingUp [] _ fun place => iff_of_false nofun List.not_mem_nil, rfl⟩
  | lookingUp order stages answered =>
    obtain ⟨own, rfl, rfl, rfl, hstage⟩ := eq_of_getElem?_lookingUp hp nofun
    have hnext : Command.manner.receive
        (lookedUp m.workflows (order.map (Incoming.lookup m.outcome))) own
        (Lookup.call (m.workflows.get own)) (m.reply (Lookup.call (m.workflows.get own))) =
          (lookedUp m.workflows ((order ++ [own]).map (Incoming.lookup m.outcome)), []) := by
      rw [List.map_append]
      exact Prod.ext (receive_lookedUp _ _ (Incoming.lookup m.outcome own))
        (receive_lookedUp_calls _ _ (Incoming.lookup m.outcome own))
    rw [hnext, passages_lookingUp]
    refine ⟨.lookingUp _ _ fun other => ?_, rfl⟩
    rw [List.mem_append, List.mem_singleton]
    by_cases same : other = own
    · subst same
      simp
    · rw [Function.update_of_ne same, answered]
      simp [same]

/-- A party none of whose calls is out is at its end. -/
lemma asker_eq (h : Sound m c party) (done : ∀ p ∈ party.passages, p.stage = .answered) :
    party.asker = m.completed c := by
  cases h with
  | asked r out => exact absurd (done _ List.mem_cons_self) out
  | concluded r => rfl
  | listing out => exact absurd (done _ List.mem_cons_self) out
  | lookingUp order stages answered =>
    have all : ∀ place, place ∈ order := fun place =>
      (answered place).mp (done _ (List.mem_cons_of_mem _ (List.mem_ofFn.mpr ⟨place, rfl⟩)))
    change lookedUp _ _ = .reconciled (.ok _)
    rw [← Mock.summaries_outcome]
    exact lookedUp_eq_reconciled_iff.mpr (built_summaries all)

/-- A party has made no look-up, or one for each workflow. -/
lemma dvd_lookups (h : Sound m c party) :
    m.workflows.length ∣ party.total (Passage.lookup fun _ => true) := by
  cases h with
  | asked r out => cases r <;> exact Nat.dvd_zero _
  | concluded r => cases r <;> exact Nat.dvd_zero _
  | listing out => exact Nat.dvd_zero _
  | lookingUp order stages answered =>
    simp [Party.total, Mock.lookups, List.map_ofFn, Function.comp_def, List.ofFn_const,
      Passage.lookup, Lookup.call, Call.isLookup]

end Party.Sound

/-! ## Traffic of commands -/

namespace Mock

/-- How many turns a call and those that follow it still take. -/
def effort (m : Mock) (p : Passage) : Nat :=
  match p.stage with
  | .sent => 2 + 2 * (m.followUps p.call).length
  | .held _ => 1 + 2 * (m.followUps p.call).length
  | .answered => 0

/-- Calls that follow others are followed by none. -/
lemma sum_effort_followUps (m : Mock) (call : Call) :
    ((Passage.make (m.followUps call)).map m.effort).sum = 2 * (m.followUps call).length := by
  rw [Passage.sum_make (fun call => 2 + 2 * (m.followUps call).length) _ fun _ _ => rfl]
  cases call with
  | workflows => simp [followUps, Function.comp_def, Lookup.call, Nat.mul_comm]
  | _ => rfl

lemma total_effort_ofNewcomer (m : Mock) (c : Command) :
    (Party.ofNewcomer Command.manner c).total m.effort + 1 = c.turns m.workflows.length := by
  cases c with
  | request r => cases r <;> rfl
  | reconcile =>
    simp [Party.total, Party.ofNewcomer, Command.manner, begin, Step.asks, Action.calls,
      Action.call?, Passage.make, effort, followUps, Command.turns]
    omega

end Mock

namespace Traffic

variable {m : Mock} {t t' : Traffic Progress Mock} {turns : List (Turn Command)}

/-- Where the commands of newcomers are behind turns. -/
structure Underway (m : Mock) (turns : List (Turn Command)) (t : Traffic Progress Mock) :
    Prop where
  sound : List.Forall₂ (Party.Sound m) (newcomers turns) t.parties
  effort_eq : turns.length + t.total m.effort =
    ((newcomers turns).map (Command.turns m.workflows.length)).sum

lemma forall₂_set {γ δ : Type} {R : γ → δ → Prop} {x : γ} {y : δ} (hxy : R x y) :
    ∀ {xs : List γ} {ys : List δ} {place : Nat}, List.Forall₂ R xs ys → xs[place]? = some x →
      List.Forall₂ R xs (ys.set place y)
  | _, _, _, .nil, hx => by cases hx
  | _, _, 0, .cons _ hrest, hx => by
    cases hx
    exact .cons hxy hrest
  | _, _, _ + 1, .cons hfirst hrest, hx => .cons hfirst (forall₂_set hxy hrest hx)

namespace Underway

lemma join (h : t.Underway m turns) (c : Command) :
    Underway m (turns ++ [.join c]) ⟨t.service, t.parties ++ [.ofNewcomer Command.manner c]⟩ := by
  have hnewcomers : newcomers (turns ++ [.join c]) = newcomers turns ++ [c] := newcomers_append ..
  constructor
  · rw [hnewcomers]
    exact List.rel_append h.sound (.cons (.ofNewcomer m c) .nil)
  · have heffort := m.total_effort_ofNewcomer c
    rw [hnewcomers, List.map_append, List.sum_append, ← h.effort_eq, total_join]
    simp
    omega

section Moves

variable {number place index : Nat} {party : Party Progress} {call : Call}

lemma exists_sound (h : t.Underway m turns) (hparty : t.parties[number]? = some party) :
    ∃ c, (newcomers turns)[number]? = some c ∧ party.Sound m c := by
  obtain ⟨hnumber, rfl⟩ := List.getElem?_eq_some_iff.mp hparty
  have hnewcomer : number < (newcomers turns).length := h.sound.length_eq ▸ hnumber
  exact ⟨_, List.getElem?_eq_getElem hnewcomer, h.sound.get hnewcomer hnumber⟩

lemma arrive (h : t.Underway m turns) (found : t.Finds number place party ⟨index, call, .sent⟩)
    (service : Mock) (ticket : Option Nat) :
    Underway m (turns ++ [.arrive number place]) ⟨service, t.parties.set number
      (party.goOn place ⟨index, call, .held ticket⟩ (party.asker, []))⟩ := by
  have hnewcomers : newcomers (turns ++ [.arrive number place]) = newcomers turns :=
    newcomers_concat turns rfl
  obtain ⟨c, hc, hsound⟩ := h.exists_sound found.party_eq
  constructor
  · rw [hnewcomers]
    exact forall₂_set (hsound.arrive found.passage_eq ticket) h.sound hc
  · have hcount := total_goOn m.effort found service ⟨index, call, .held ticket⟩ (party.asker, [])
    rw [hnewcomers, ← h.effort_eq]
    simp [Mock.effort, Passage.make] at hcount ⊢
    omega

lemma answer (h : t.Underway m turns) {ticket : Option Nat}
    (found : t.Finds number place party ⟨index, call, .held ticket⟩) (service : Mock) :
    Underway m (turns ++ [.answer number place]) ⟨service, t.parties.set number
      (party.goOn place ⟨index, call, .answered⟩
        (Command.manner.receive party.asker index call (m.reply call)))⟩ := by
  have hnewcomers : newcomers (turns ++ [.answer number place]) = newcomers turns :=
    newcomers_concat turns rfl
  obtain ⟨c, hc, hsound⟩ := h.exists_sound found.party_eq
  obtain ⟨hanswer, hnext⟩ := hsound.answer found.passage_eq
  constructor
  · rw [hnewcomers]
    exact forall₂_set hanswer h.sound hc
  · have hcount := total_goOn m.effort found service ⟨index, call, .answered⟩
      (Command.manner.receive party.asker index call (m.reply call))
    rw [hnext, Mock.sum_effort_followUps] at hcount
    rw [hnewcomers, ← h.effort_eq]
    simp [Mock.effort] at hcount ⊢
    omega

end Moves

/-- When all calls are answered, all commands are at their ends. -/
lemma askers_eq (h : t.Underway m turns) (answered : ∀ p ∈ t.passages, p.stage = .answered) :
    t.parties.map Party.asker = (newcomers turns).map m.completed := by
  apply List.ext_getElem
  · rw [List.length_map, List.length_map, h.sound.length_eq]
  · intro number hparty hnewcomer
    rw [List.length_map] at hparty hnewcomer
    rw [List.getElem_map, List.getElem_map]
    refine (h.sound.get hnewcomer hparty).asker_eq fun p hp => answered p ?_
    exact List.mem_flatMap.mpr ⟨_, List.getElem_mem hparty, hp⟩

end Underway

/-- Every command that looks anything up looks up all workflows. -/
lemma Underway.dvd_lookups (h : t.Underway m turns) :
    m.workflows.length ∣ t.lookups fun _ => true := by
  refine List.dvd_sum fun count hcount => ?_
  obtain ⟨party, hparty, rfl⟩ := List.mem_map.mp hcount
  obtain ⟨number, hnumber⟩ := List.getElem?_of_mem hparty
  obtain ⟨c, -, hsound⟩ := h.exists_sound hnumber
  exact hsound.dvd_lookups

/-- A call that is held need not wait any more when as many look-ups have arrived as had been
made. -/
lemma ready_of_lookups_le {g g' : Gate} (hunderway : t.Underway m turns) (h : t.Gated m g)
    (h' : t'.Gated m g') (harrived : (t.lookups fun _ => true) ≤ t'.lookups Stage.hasArrived)
    {index : Nat} {call : Call} {ticket : Option Nat}
    (hp : ⟨index, call, .held ticket⟩ ∈ t.passages) :
    ticket.all (Service.isReady t'.service) = true := by
  have hticket := h.ticketed index call ticket hp
  split at hticket
  · obtain ⟨own, hown, rfl⟩ := hticket
    rw [Option.all_some, h'.isReady_eq]
    have hmade : g.arrived ≤ t.lookups fun _ => true := by
      rw [h.arrived_eq]
      exact lookups_le t fun _ _ => rfl
    exact Gate.isOpen_of_dvd (h'.size_dvd hunderway.dvd_lookups) (hown.trans_le hmade)
      (h'.arrived_eq ▸ harrived)
  · subst hticket
    rfl

/-- When no command can go on, all calls are answered. -/
lemma answered_of_atRest {g : Gate} (hunderway : t.Underway m turns) (h : t.Gated m g)
    (rest : t.AtRest Command.manner) : ∀ p ∈ t.passages, p.stage = .answered := by
  have possible : ∀ (turn : Turn Command) (t' : Traffic Progress Mock),
      turn.newcomer? = none → ¬ Turned Command.manner t turn t' := by
    intro turn t' hturn turned
    have hnone := rest turn hturn
    rw [step_eq_some_iff.mpr turned] at hnone
    cases hnone
  have arrived : ∀ p ∈ t.passages, p.stage ≠ .sent := by
    rintro ⟨index, call, stage⟩ hp rfl
    obtain ⟨number, place, party, found⟩ := mem_passages_iff.mp hp
    exact possible _ _ rfl (.arrive found)
  have hmade : (t.lookups fun _ => true) = t.lookups Stage.hasArrived := by
    refine total_congr ?_
    rintro ⟨index, call, stage⟩ hp
    cases stage with
    | sent => exact absurd rfl (arrived _ hp)
    | _ => rfl
  rintro ⟨index, call, stage⟩ hp
  obtain ⟨number, place, party, found⟩ := mem_passages_iff.mp hp
  cases stage with
  | sent => exact absurd rfl (arrived _ hp)
  | answered => rfl
  | held ticket =>
    have ready := ready_of_lookups_le hunderway h h hmade.le hp
    exact absurd (.answer found ready) (possible (.answer number place) _ rfl)

variable {names : List String} (holds : m.HoldsFor names)
include holds

/-- In every run from the opening on, commands do as they should. -/
theorem underway (hrun : (opened m).run Command.manner turns = some t) : t.Underway m turns := by
  refine run_induction (P := Underway m) ⟨.nil, rfl⟩ ?_ hrun
  intro turns before turn after hbefore h hturn
  obtain ⟨g, hgated⟩ := exists_gated holds hbefore
  cases hturn with
  | join c => exact h.join c
  | arrive found => exact h.arrive found _ _
  | answer found ready =>
    rw [hgated.answer_eq holds.online]
    exact h.answer found _

/-- Without newcomers, commands come to rest. -/
theorem exists_atRest (hrun : (opened m).run Command.manner turns = some t) :
    ∃ later t', newcomers later = [] ∧ t.run Command.manner later = some t' ∧
      t'.AtRest Command.manner := by
  -- every turn takes something off the effort that is left
  induction hleft : t.total m.effort using Nat.strong_induction_on generalizing turns t with
  | _ left ih =>
    by_cases rest : t.AtRest Command.manner
    · exact ⟨[], t, rfl, rfl, rest⟩
    · obtain ⟨turn, hturn, hstep⟩ :
          ∃ turn, turn.newcomer? = none ∧ t.step Command.manner turn ≠ none := by
        simpa [AtRest] using rest
      obtain ⟨next, hnext⟩ := Option.ne_none_iff_exists'.mp hstep
      have hrun' : (opened m).run Command.manner (turns ++ [turn]) = some next :=
        run_concat.mpr ⟨t, hrun, step_eq_some_iff.mp hnext⟩
      have heffort := (underway holds hrun).effort_eq
      have heffort' := (underway holds hrun').effort_eq
      rw [newcomers_concat turns hturn, ← heffort, List.length_append] at heffort'
      have hless : next.total m.effort < left := by
        simp only [List.length_cons, List.length_nil] at heffort'
        omega
      obtain ⟨later, t', hlater, hrun'', hrest⟩ := ih _ hless hrun' rfl
      refine ⟨turn :: later, t', (List.filterMap_cons_none hturn).trans hlater, ?_, hrest⟩
      rw [run, List.foldlM_cons, hnext]
      exact hrun''

end Traffic

/-! ## The whole gate -/

/-- A mock with these workflows lets look-ups pass that are made together and holds back those that
are made one after another. -/
structure Mock.GathersLookups (m : Mock) (names : List String) : Prop where
  /-- However commands get on, they take no more turns than they have. -/
  bounded : ∀ turns t, (Traffic.opened m).run Command.manner turns = some t →
    turns.length ≤ ((Traffic.newcomers turns).map (Command.turns names.length)).sum
  /-- Without newcomers, commands come to rest. -/
  atRest : ∀ turns t, (Traffic.opened m).run Command.manner turns = some t →
    ∃ later t', Traffic.newcomers later = [] ∧ t.run Command.manner later = some t' ∧
      t'.AtRest Command.manner
  /-- Nobody waits for newcomers: when no command can go on, every call is answered and every
  command is at its end. -/
  through : ∀ turns t, (Traffic.opened m).run Command.manner turns = some t →
    t.AtRest Command.manner →
      (∀ p ∈ t.passages, p.stage = .answered) ∧
        t.parties.map Party.asker = (Traffic.newcomers turns).map m.completed
  /-- A reconciliation ends with a summary for each workflow. -/
  reconciled : ∃ summaries, m.completed .reconcile = .reconciled (.ok summaries) ∧
    summaries.map Summary.name = names
  /-- Newcomers keep nobody waiting: a call can be answered as soon as as many look-ups have arrived
  as had been made when it was held. -/
  prompt : ∀ turns t later t', (Traffic.opened m).run Command.manner turns = some t →
    t.run Command.manner later = some t' →
    (t.lookups fun _ => true) ≤ t'.lookups Stage.hasArrived →
    ∀ index call ticket, ⟨index, call, .held ticket⟩ ∈ t.passages →
      ticket.all (Service.isReady t'.service) = true
  /-- Whoever has made look-ups before: from a moment on at which none is under way, none is
  answered as long as fewer are under way than there are workflows. -/
  tooFew : ∀ (α β : Type) (manner : Manner β α) before t turns t',
    (Traffic.opened m).run manner before = some t → t.lookups Stage.isOut = 0 →
    t.FewerOut names.length manner turns → t.run manner turns = some t' →
      t'.lookups Stage.isAnswered = t.lookups Stage.isAnswered
  /-- With several workflows, an asker alone with the mock that waits for every answer does not get
  one to a look-up. -/
  alone : 2 ≤ names.length → ∀ (α β : Type) (manner : Manner β α), manner.AsksSingly →
    ∀ turns t, (Traffic.newcomers turns).length ≤ 1 →
      (Traffic.opened m).run manner turns = some t → t.lookups Stage.isAnswered = 0

/-- The gate tells look-ups that are made together from those that are made one after another.  The
workflows are stored before the look-ups are held back, and the mock stays online. -/
theorem lookups_passTogether (before after : List Mock.Setting)
    (online : .disconnect ∉ before ++ after)
    (settled : ∀ setting ∈ after, setting.stored? = none) :
    (Mock.ofSettings (before ++ .holdLookups :: after)).GathersLookups (Mock.stored before) := by
  have holds := Mock.holdsFor_ofSettings online settled
  generalize Mock.ofSettings (before ++ .holdLookups :: after) = m at holds
  constructor
  case bounded =>
    intro turns t hrun
    have heffort := (Traffic.underway holds hrun).effort_eq
    rw [holds.workflows_eq] at heffort
    omega
  case atRest => exact fun turns t hrun => Traffic.exists_atRest holds hrun
  case through =>
    intro turns t hrun rest
    have hunderway := Traffic.underway holds hrun
    obtain ⟨g, hgated⟩ := Traffic.exists_gated holds hrun
    have answered := Traffic.answered_of_atRest hunderway hgated rest
    exact ⟨answered, hunderway.askers_eq answered⟩
  case reconciled =>
    refine ⟨_, rfl, ?_⟩
    rw [List.map_map, holds.workflows_eq]
    exact (List.map_congr_left fun fileName _ => m.summary_name fileName).trans (List.map_id _)
  case prompt =>
    intro turns t later t' hrun hlater harrived index call ticket hp
    obtain ⟨g, hgated⟩ := Traffic.exists_gated holds hrun
    obtain ⟨g', hgated'⟩ :=
      Traffic.exists_gated holds (Traffic.run_append.mpr ⟨t, hrun, hlater⟩)
    exact Traffic.ready_of_lookups_le (Traffic.underway holds hrun) hgated hgated' harrived hp
  case tooFew =>
    intro α β manner before t turns t' hbefore noneOut few hrun
    exact Traffic.lookups_answered_eq holds hbefore noneOut few hrun
  case alone =>
    intro several α β manner singly turns t alone hrun
    exact Traffic.lookups_answered_of_asksSingly holds several singly alone hrun

/-- Three workflows, two of one name.  One that looks them up in turn does not get far. -/
theorem gathersLookups_three :
    let before : List Mock.Setting :=
      [.store "a.json" ⟨some "success", none⟩, .storeFailing "b.json", .storeFailing "a.json"]
    let after : List Mock.Setting := [.acknowledge "saved"]
    let m := Mock.ofSettings (before ++ .holdLookups :: after)
    .disconnect ∉ before ++ after ∧ (∀ setting ∈ after, setting.stored? = none) ∧
      m.GathersLookups ["a.json", "b.json", "a.json"] ∧
      ∀ turns t, (Traffic.newcomers turns).length ≤ 1 →
        (Traffic.opened m).run .inTurn turns = some t → t.lookups Stage.isAnswered = 0 := by
  intro before after m
  have online : .disconnect ∉ before ++ after := by simp [before, after]
  have settled : ∀ setting ∈ after, setting.stored? = none := by simp [after, Mock.Setting.stored?]
  have gathers : m.GathersLookups (Mock.stored before) :=
    lookups_passTogether before after online settled
  exact ⟨online, settled, gathers, gathers.alone (by decide) _ _ .inTurn Manner.inTurn_asksSingly⟩

/-- Two reconciliations whose look-ups pass the gate in mixed groups. -/
example :
    let m := Mock.ofSettings
      [.store "a.json" ⟨some "success", none⟩, .storeFailing "b.json", .holdLookups]
    let summaries : List Summary := [⟨"a.json", "success", some ""⟩, ⟨"b.json", "unknown", none⟩]
    ((Traffic.opened m).run Command.manner [.join .reconcile, .join .reconcile, .arrive 0 0,
      .arrive 1 0, .answer 0 0, .arrive 0 1, .answer 1 0, .arrive 1 1, .answer 0 1, .answer 1 1,
      .arrive 0 2, .arrive 1 2, .answer 1 2, .answer 0 2]).map (·.parties.map Party.asker) =
        some [.reconciled (.ok summaries), .reconciled (.ok summaries)] := rfl

/-- The first of two look-ups that are made in turn has to wait. -/
example :
    let m := Mock.ofSettings
      [.store "a.json" ⟨some "success", none⟩, .storeFailing "b.json", .holdLookups]
    ((Traffic.opened m).run .inTurn
      [.join ["a.json", "b.json"], .arrive 0 0, .answer 0 0]).isNone = true := rfl

end WorkflowCanvas
