import WorkflowCanvas.Proofs.Service.Traffic
import WorkflowCanvas.Service.Mock

/-!
# Look-ups at a gate

A mock that holds back look-ups is used by any number of askers at once.  `Gated` says how its gate
goes with the calls: it has counted those look-ups that have arrived, and the ones that it has not
let through are held.  Every turn keeps this (`Gated.turned`), whatever the askers are like.

The gate makes itself felt by look-ups that do not come together.  Between two groups it waits for a
whole one, so as long as too few look-ups are under way, none is answered (`lookups_answered_eq`).
An asker alone with the mock that waits for every answer does not get one
(`lookups_answered_of_asksSingly`).
-/

namespace WorkflowCanvas

/-! ## Groups of callers -/

namespace Gate

variable {g : Gate} {ticket : Nat}

lemma isOpen_iff : g.isOpen ticket = true ↔ (ticket / g.size + 1) * g.size ≤ g.arrived :=
  decide_eq_true_iff

/-- A caller that is one of some whole groups does not wait when as many have arrived. -/
lemma isOpen_of_dvd {whole : Nat} (hwhole : g.size ∣ whole) (hticket : ticket < whole)
    (harrived : whole ≤ g.arrived) : g.isOpen ticket = true := by
  rw [isOpen_iff]
  obtain ⟨groups, rfl⟩ := hwhole
  have hgroup : ticket / g.size + 1 ≤ groups := (Nat.div_lt_iff_lt_mul g.size_pos).mpr (by
    rwa [Nat.mul_comm])
  calc (ticket / g.size + 1) * g.size ≤ groups * g.size := Nat.mul_le_mul_right _ hgroup
    _ = g.size * groups := Nat.mul_comm ..
    _ ≤ g.arrived := harrived

/-- When nobody waits, only whole groups have arrived. -/
lemma dvd_of_isOpen (allOpen : ∀ ticket < g.arrived, g.isOpen ticket = true) :
    g.size ∣ g.arrived := by
  cases hlast : g.arrived with
  | zero => exact Nat.dvd_zero _
  | succ last =>
    have hopen := isOpen_iff.mp (allOpen last (by omega))
    have hgroup : last < (last / g.size + 1) * g.size :=
      Nat.lt_mul_of_div_lt (Nat.lt_succ_self _) g.size_pos
    rw [hlast] at hopen
    exact ⟨last / g.size + 1, by rw [Nat.mul_comm]; omega⟩

/-- Behind whole groups nobody passes before the next group is complete. -/
lemma not_isOpen_of_dvd {whole : Nat} (hwhole : g.size ∣ whole) (hticket : whole ≤ ticket)
    (harrived : g.arrived < whole + g.size) : g.isOpen ticket = false := by
  rw [Bool.eq_false_iff, Ne, isOpen_iff, not_le]
  calc g.arrived < whole + g.size := harrived
    _ = (whole / g.size + 1) * g.size := by rw [Nat.add_mul, Nat.div_mul_cancel hwhole, Nat.one_mul]
    _ ≤ (ticket / g.size + 1) * g.size :=
      Nat.mul_le_mul_right _ (Nat.succ_le_succ (Nat.div_le_div_right hticket))

lemma isOpen_arrive (hopen : g.isOpen ticket = true) : g.arrive.2.isOpen ticket = true :=
  isOpen_iff.mpr (Nat.le_succ_of_le (isOpen_iff.mp hopen))

end Gate

/-! ## Setting up a mock -/

/-- One step of setting up a mock. -/
inductive Mock.Setting
  | store (fileName : String) (status : StatusResponse)
  | storeFailing (fileName : String)
  | acknowledge (message : String)
  | reject (message : String)
  | disconnect
  | holdLookups

namespace Mock

namespace Setting

/-- Takes the step. -/
def apply (m : Mock) : Setting → Mock
  | store fileName status => m.store fileName status
  | storeFailing fileName => m.storeFailing fileName
  | acknowledge message => m.acknowledge message
  | reject message => m.reject message
  | disconnect => m.disconnect
  | holdLookups => m.holdLookups

/-- The workflow that is stored by the step. -/
def stored? : Setting → Option String
  | store fileName _ => some fileName
  | storeFailing fileName => some fileName
  | _ => none

end Setting

/-- The mock that is set up in these steps. -/
def ofSettings (settings : List Setting) : Mock := settings.foldl Setting.apply {}

/-- The workflows that are stored by steps. -/
def stored (settings : List Setting) : List String := settings.filterMap Setting.stored?

/-- An online mock with these workflows, at whose gate groups of as many gather and nobody has
arrived. -/
structure HoldsFor (m : Mock) (names : List String) : Prop where
  workflows_eq : m.workflows = names
  online : m.offline = false
  gate_eq : m.gate = some (.ofSize names.length)

lemma workflows_ofSettings (settings : List Setting) :
    (ofSettings settings).workflows = stored settings := by
  induction settings using List.reverseRecOn with
  | nil => rfl
  | append_singleton settings setting ih =>
    rw [ofSettings, List.foldl_concat, ← ofSettings, stored, List.filterMap_append, ← stored, ← ih]
    cases setting <;> simp [Setting.apply, Setting.stored?, store, storeFailing, acknowledge,
      reject, disconnect, holdLookups]

lemma online_ofSettings {settings : List Setting} (online : .disconnect ∉ settings) :
    (ofSettings settings).offline = false := by
  induction settings using List.reverseRecOn with
  | nil => rfl
  | append_singleton settings setting ih =>
    rw [List.mem_append, List.mem_singleton, not_or] at online
    have hbefore := ih online.1
    rw [ofSettings, List.foldl_concat, ← ofSettings]
    cases setting with
    | disconnect => exact absurd rfl online.2
    | _ => exact hbefore

lemma HoldsFor.apply {m : Mock} {names : List String} (holds : m.HoldsFor names)
    {setting : Setting} (hstored : setting.stored? = none) (online : setting ≠ .disconnect) :
    (setting.apply m).HoldsFor names := by
  cases setting with
  | store fileName status => cases hstored
  | storeFailing fileName => cases hstored
  | disconnect => exact absurd rfl online
  | holdLookups =>
    refine ⟨holds.workflows_eq, holds.online, ?_⟩
    rw [← holds.workflows_eq]
    rfl
  | _ => exact ⟨holds.workflows_eq, holds.online, holds.gate_eq⟩

/-- Workflows that are stored before the look-ups are held back set the size of the groups. -/
lemma holdsFor_ofSettings {before after : List Setting}
    (online : .disconnect ∉ before ++ after) (settled : ∀ setting ∈ after, setting.stored? = none) :
    (ofSettings (before ++ .holdLookups :: after)).HoldsFor (stored before) := by
  rw [List.mem_append, not_or] at online
  have hfirst : ((ofSettings before).holdLookups).HoldsFor (stored before) := by
    refine ⟨workflows_ofSettings before, online_ofSettings online.1, ?_⟩
    rw [← workflows_ofSettings]
    rfl
  have hlater : ∀ (later : List Setting) (m : Mock), m.HoldsFor (stored before) →
      (∀ setting ∈ later, setting.stored? = none) → .disconnect ∉ later →
      (later.foldl Setting.apply m).HoldsFor (stored before) := by
    intro later
    induction later with
    | nil => exact fun m holds _ _ => holds
    | cons setting later ih =>
      intro m holds hstored honline
      rw [List.mem_cons, not_or] at honline
      exact ih _ (holds.apply (hstored _ List.mem_cons_self) (Ne.symm honline.1))
        (fun s hs => hstored s (List.mem_cons_of_mem _ hs)) honline.2
  rw [ofSettings, List.foldl_append, List.foldl_cons]
  exact hlater after _ hfirst settled online.2

/-! ## What calls do to a mock -/

/-- A mock without what it was asked. -/
def setup (m : Mock) : Mock := { m with gate := none, calls := {} }

variable {m : Mock} {c : Call}

lemma reply_setup (m : Mock) (c : Call) : m.setup.reply c = m.reply c := by
  cases c <;> rfl

lemma accept_of_not_isLookup (h : c.isLookup = false) : Service.accept m c = (none, m) := by
  cases c with
  | status workflow => cases h
  | _ => rfl

/-- A look-up gets the next ticket of the gate. -/
lemma accept_of_isLookup {g : Gate} (hgate : m.gate = some g) (h : c.isLookup = true) :
    (Service.accept m c).1 = some g.arrived ∧ (Service.accept m c).2.gate = some g.arrive.2 := by
  cases c with
  | status workflow =>
    change (accept m (.status workflow)).1 = _ ∧ (accept m (.status workflow)).2.gate = _
    simp [accept, hgate, Gate.arrive]
  | _ => cases h

lemma setup_accept (m : Mock) (c : Call) : (Service.accept m c).2.setup = m.setup := by
  cases c with
  | status workflow =>
    change (accept m (.status workflow)).2.setup = _
    unfold accept
    cases hgate : m.gate <;> simp [setup]
  | _ => rfl

lemma answer_eq (h : m.offline = false) :
    Service.answer m c = (m.reply c, (m.attempt c.endpoint).record c) := by
  change answer m c = _
  rw [answer, h]
  rfl

lemma setup_record (m : Mock) (c : Call) : ((m.attempt c.endpoint).record c).setup = m.setup := by
  cases c <;> rfl

lemma gate_record (m : Mock) (c : Call) : ((m.attempt c.endpoint).record c).gate = m.gate := by
  cases c <;> rfl

end Mock

/-! ## Traffic at the gate -/

namespace Traffic

variable {α β : Type} {manner : Manner β α} {m : Mock} {t t' : Traffic α Mock} {g : Gate}

/-- Traffic at a mock that was set up as `m` with the gate `g`. -/
structure Gated (m : Mock) (t : Traffic α Mock) (g : Gate) : Prop where
  gate_eq : t.service.gate = some g
  size_eq : g.size = max 1 m.workflows.length
  setup_eq : t.service.setup = m.setup
  arrived_eq : g.arrived = t.lookups Stage.hasArrived
  /-- Look-ups that are held have tickets of the gate, and other calls need none. -/
  ticketed : ∀ index call ticket, ⟨index, call, .held ticket⟩ ∈ t.passages →
    if call.isLookup then ∃ number < g.arrived, ticket = some number else ticket = none
  /-- The look-ups that the gate has not let through are held. -/
  waiting : ∀ number < g.arrived, g.isOpen number = false →
    ∃ index call, call.isLookup = true ∧ ⟨index, call, .held (some number)⟩ ∈ t.passages

lemma gated_opened {names : List String} (holds : m.HoldsFor names) :
    (opened m : Traffic α Mock).Gated m (.ofSize names.length) where
  gate_eq := holds.gate_eq
  size_eq := by rw [holds.workflows_eq]; rfl
  setup_eq := rfl
  arrived_eq := rfl
  ticketed index call ticket h := absurd h List.not_mem_nil
  waiting number h := absurd h (Nat.not_lt_zero number)

namespace Gated

lemma online (h : t.Gated m g) (honline : m.offline = false) : t.service.offline = false :=
  (congrArg Mock.offline h.setup_eq).trans honline

lemma isReady_eq (h : t.Gated m g) (ticket : Nat) :
    Service.isReady t.service ticket = g.isOpen ticket := by
  change t.service.gate.all (·.isOpen ticket) = _
  rw [h.gate_eq]
  rfl

lemma size_dvd (h : t.Gated m g) {whole : Nat} (hwhole : m.workflows.length ∣ whole) :
    g.size ∣ whole := by
  rw [h.size_eq]
  obtain hnone | hsome := Nat.eq_zero_or_pos m.workflows.length
  · rw [hnone]
    exact Nat.one_dvd whole
  · rwa [Nat.max_eq_right hsome]

/-- The replies of a mock do not change. -/
lemma answer_eq (h : t.Gated m g) (honline : m.offline = false) (c : Call) :
    Service.answer t.service c = (m.reply c, (t.service.attempt c.endpoint).record c) := by
  rw [Mock.answer_eq (h.online honline), ← Mock.reply_setup, h.setup_eq, Mock.reply_setup]

lemma join (h : t.Gated m g) (newcomer : β) :
    Gated m ⟨t.service, t.parties ++ [.ofNewcomer manner newcomer]⟩ g where
  gate_eq := h.gate_eq
  size_eq := h.size_eq
  setup_eq := h.setup_eq
  arrived_eq := h.arrived_eq.trans (lookups_join Stage.hasArrived rfl manner t newcomer).symm
  ticketed index call ticket hp := h.ticketed index call ticket (mem_of_mem_join hp (by simp))
  waiting number hnumber hclosed := by
    obtain ⟨index, call, hlookup, hp⟩ := h.waiting number hnumber hclosed
    exact ⟨index, call, hlookup, mem_passages_join hp _⟩

section Moves

variable {number place index : Nat} {party : Party α} {call : Call}

/-- A look-up that arrives gets a ticket, and it may let a whole group through. -/
lemma arrive_lookup (h : t.Gated m g) (hlookup : call.isLookup = true)
    (found : t.Finds number place party ⟨index, call, .sent⟩) (next : α × List Call) :
    Gated m ⟨(Service.accept t.service call).2, t.parties.set number
      (party.goOn place ⟨index, call, .held (Service.accept t.service call).1⟩ next)⟩
        g.arrive.2 := by
  obtain ⟨hticket, hgate⟩ := Mock.accept_of_isLookup h.gate_eq hlookup
  rw [hticket]
  constructor
  case gate_eq => exact hgate
  case size_eq => exact h.size_eq
  case setup_eq => exact (Mock.setup_accept _ _).trans h.setup_eq
  case arrived_eq =>
    have hcount := lookups_goOn Stage.hasArrived rfl found
      (Service.accept t.service call).2 ⟨index, call, .held (some g.arrived)⟩ next
    simp only [Passage.lookup, hlookup, Stage.hasArrived, ← h.arrived_eq] at hcount
    change g.arrived + 1 = _
    simpa using hcount.symm
  case ticketed =>
    intro index' call' ticket' hp
    obtain hp | hp := mem_of_mem_goOn found hp (by simp)
    · have hold := h.ticketed index' call' ticket' hp
      split at hold
      · next hlookup' =>
        obtain ⟨other, hother, rfl⟩ := hold
        rw [if_pos hlookup']
        exact ⟨other, Nat.lt_succ_of_lt hother, rfl⟩
      · next hother => rwa [if_neg hother]
    · cases hp
      rw [if_pos hlookup]
      exact ⟨g.arrived, Nat.lt_succ_self _, rfl⟩
  case waiting =>
    intro other hother hclosed
    obtain hlt | rfl := Nat.lt_succ_iff_lt_or_eq.mp hother
    · have hclosed' : g.isOpen other = false := by
        rw [Bool.eq_false_iff] at hclosed ⊢
        exact mt Gate.isOpen_arrive hclosed
      obtain ⟨index', call', hlookup', hp⟩ := h.waiting other hlt hclosed'
      exact ⟨index', call', hlookup', mem_goOn found _ _ _ hp (by simp)⟩
    · exact ⟨index, call, hlookup, new_mem_goOn found _ _ _⟩

/-- Calls of other kinds pass by the gate. -/
lemma arrive_other (h : t.Gated m g) (hother : call.isLookup = false)
    (found : t.Finds number place party ⟨index, call, .sent⟩) (next : α × List Call) :
    Gated m ⟨(Service.accept t.service call).2, t.parties.set number
      (party.goOn place ⟨index, call, .held (Service.accept t.service call).1⟩ next)⟩ g := by
  rw [Mock.accept_of_not_isLookup hother]
  constructor
  case gate_eq => exact h.gate_eq
  case size_eq => exact h.size_eq
  case setup_eq => exact h.setup_eq
  case arrived_eq =>
    have hcount := lookups_goOn Stage.hasArrived rfl found t.service
      ⟨index, call, .held none⟩ next
    simp only [Passage.lookup, hother, Bool.false_and] at hcount
    exact h.arrived_eq.trans hcount.symm
  case ticketed =>
    intro index' call' ticket' hp
    obtain hp | hp := mem_of_mem_goOn found hp (by simp)
    · exact h.ticketed index' call' ticket' hp
    · cases hp
      rw [if_neg (by simp [hother])]
  case waiting =>
    intro other hnumber hclosed
    obtain ⟨index', call', hlookup', hp⟩ := h.waiting other hnumber hclosed
    exact ⟨index', call', hlookup', mem_goOn found _ _ _ hp (by simp)⟩

/-- An answer leaves the gate alone. -/
lemma answer (h : t.Gated m g) (honline : m.offline = false) {ticket : Option Nat}
    (found : t.Finds number place party ⟨index, call, .held ticket⟩)
    (ready : ticket.all (Service.isReady t.service) = true) (next : α × List Call) :
    Gated m ⟨(Service.answer t.service call).2, t.parties.set number
      (party.goOn place ⟨index, call, .answered⟩ next)⟩ g := by
  rw [h.answer_eq honline]
  constructor
  case gate_eq => exact (Mock.gate_record _ _).trans h.gate_eq
  case size_eq => exact h.size_eq
  case setup_eq => exact (Mock.setup_record _ _).trans h.setup_eq
  case arrived_eq =>
    have hcount := lookups_goOn Stage.hasArrived rfl found
      ((t.service.attempt call.endpoint).record call) ⟨index, call, .answered⟩ next
    simp only [Passage.lookup, Stage.hasArrived, ← h.arrived_eq] at hcount
    exact (Nat.add_right_cancel hcount).symm
  case ticketed =>
    intro index' call' ticket' hp
    obtain hp | hp := mem_of_mem_goOn found hp (by simp)
    · exact h.ticketed index' call' ticket' hp
    · cases hp
  case waiting =>
    intro other hnumber hclosed
    obtain ⟨index', call', hlookup', hp⟩ := h.waiting other hnumber hclosed
    refine ⟨index', call', hlookup', mem_goOn found _ _ _ hp ?_⟩
    -- the answered call has a ticket that is let through, if it has one
    rintro ⟨⟩
    rw [Option.all_some, h.isReady_eq, hclosed] at ready
    cases ready

end Moves

/-- Every turn goes by the gate. -/
lemma turned (h : t.Gated m g) (honline : m.offline = false) {turn : Turn β}
    (turned : Turned manner t turn t') : ∃ g', t'.Gated m g' := by
  cases turned with
  | join newcomer => exact ⟨g, h.join newcomer⟩
  | @arrive _ _ _ _ call found =>
    cases hlookup : call.isLookup with
    | true => exact ⟨_, h.arrive_lookup hlookup found _⟩
    | false => exact ⟨_, h.arrive_other hlookup found _⟩
  | answer found ready => exact ⟨g, h.answer honline found ready _⟩

end Gated

section Runs

variable {names : List String} (holds : m.HoldsFor names) {turns : List (Turn β)}
include holds

/-- In every run from the opening on, the gate goes with the calls. -/
theorem exists_gated (hrun : (opened m).run manner turns = some t) : ∃ g, t.Gated m g := by
  refine run_induction (P := fun _ t => ∃ g, t.Gated m g) ⟨_, gated_opened holds⟩ ?_ hrun
  rintro turns before turn after - ⟨g, h⟩ hturn
  exact h.turned holds.online hturn

end Runs

/-! ## Too few look-ups -/

/-- A group that gathers and is not complete: since the moment at which so many look-ups had passed,
none has, and those that are held came behind them. -/
structure Stuck (m : Mock) (passed : Nat) (t : Traffic α Mock) (g : Gate) : Prop
    extends Gated m t g where
  answered_eq : t.lookups Stage.isAnswered = passed
  whole : g.size ∣ passed
  passed_le : passed ≤ g.arrived
  behind : ∀ index call ticket, call.isLookup = true →
    ⟨index, call, .held (some ticket)⟩ ∈ t.passages → passed ≤ ticket

lemma answered_of_lookups_eq_zero (noneOut : t.lookups Stage.isOut = 0) {p : Passage}
    (hp : p ∈ t.passages) (hlookup : p.call.isLookup = true) : p.stage = .answered := by
  have hle := le_total (Passage.lookup Stage.isOut) hp
  rw [← lookups, noneOut, Nat.le_zero, Passage.lookup, hlookup] at hle
  obtain ⟨index, call, stage⟩ := p
  cases stage <;> simp_all [Stage.isOut, Stage.isAnswered]

/-- When no look-up is under way, the gate is between two groups. -/
lemma Gated.stuck (h : t.Gated m g) (noneOut : t.lookups Stage.isOut = 0) :
    t.Stuck m g.arrived g where
  toGated := h
  answered_eq := by
    rw [h.arrived_eq]
    refine total_congr fun p hp => ?_
    cases hlookup : p.call.isLookup with
    | true =>
      simp [Passage.lookup, answered_of_lookups_eq_zero noneOut hp hlookup, Stage.isAnswered,
        Stage.hasArrived]
    | false => simp [Passage.lookup, hlookup]
  whole := by
    refine Gate.dvd_of_isOpen fun number hnumber => ?_
    rw [← Bool.not_eq_false]
    intro hclosed
    obtain ⟨index, call, hlookup, hp⟩ := h.waiting number hnumber hclosed
    cases answered_of_lookups_eq_zero noneOut hp hlookup
  passed_le := Nat.le_refl _
  behind index call ticket hlookup hp := by cases answered_of_lookups_eq_zero noneOut hp hlookup

namespace Stuck

variable {passed number place index : Nat} {party : Party α} {call : Call}

lemma join (h : t.Stuck m passed g) (newcomer : β) :
    Stuck m passed ⟨t.service, t.parties ++ [.ofNewcomer manner newcomer]⟩ g where
  toGated := h.toGated.join newcomer
  answered_eq := (lookups_join Stage.isAnswered rfl manner t newcomer).trans h.answered_eq
  whole := h.whole
  passed_le := h.passed_le
  behind index call ticket hlookup hp :=
    h.behind index call ticket hlookup (mem_of_mem_join hp (by simp))

lemma arrive (h : t.Stuck m passed g)
    (found : t.Finds number place party ⟨index, call, .sent⟩) (next : α × List Call) :
    ∃ g', Stuck m passed ⟨(Service.accept t.service call).2, t.parties.set number
      (party.goOn place ⟨index, call, .held (Service.accept t.service call).1⟩ next)⟩ g' := by
  have hanswered := lookups_goOn Stage.isAnswered rfl found (Service.accept t.service call).2
    ⟨index, call, .held (Service.accept t.service call).1⟩ next
  simp only [Passage.lookup, Stage.isAnswered, Bool.and_false, h.answered_eq] at hanswered
  cases hlookup : call.isLookup with
  | true =>
    refine ⟨g.arrive.2, h.toGated.arrive_lookup hlookup found next, hanswered, h.whole,
      Nat.le_succ_of_le h.passed_le, fun index' call' ticket hlookup' hp => ?_⟩
    obtain hp | hp := mem_of_mem_goOn found hp (by simp)
    · exact h.behind index' call' ticket hlookup' hp
    · rw [(Mock.accept_of_isLookup h.gate_eq hlookup).1] at hp
      cases hp
      exact h.passed_le
  | false =>
    refine ⟨g, h.toGated.arrive_other hlookup found next, hanswered, h.whole, h.passed_le,
      fun index' call' ticket hlookup' hp => ?_⟩
    obtain hp | hp := mem_of_mem_goOn found hp (by simp)
    · exact h.behind index' call' ticket hlookup' hp
    · rw [Mock.accept_of_not_isLookup hlookup] at hp
      cases hp

/-- A look-up has to wait while too few are under way. -/
lemma not_isLookup (h : t.Stuck m passed g) (few : t.lookups Stage.isOut < m.workflows.length)
    {ticket : Option Nat} (found : t.Finds number place party ⟨index, call, .held ticket⟩)
    (ready : ticket.all (Service.isReady t.service) = true) : call.isLookup = false := by
  rw [← Bool.not_eq_true]
  intro hlookup
  have hp := mem_passages_iff.mpr ⟨number, place, party, found⟩
  have hticket := h.ticketed index call ticket hp
  rw [if_pos hlookup] at hticket
  obtain ⟨own, -, rfl⟩ := hticket
  have harrived : g.arrived < passed + g.size := by
    have hle := t.lookups_arrived_le
    have hsize := h.size_eq
    rw [← h.arrived_eq, h.answered_eq] at hle
    omega
  have hclosed := Gate.not_isOpen_of_dvd h.whole (h.behind index call own hlookup hp) harrived
  rw [Option.all_some, h.isReady_eq, hclosed] at ready
  cases ready

lemma answer (h : t.Stuck m passed g) (honline : m.offline = false)
    (few : t.lookups Stage.isOut < m.workflows.length) {ticket : Option Nat}
    (found : t.Finds number place party ⟨index, call, .held ticket⟩)
    (ready : ticket.all (Service.isReady t.service) = true) (next : α × List Call) :
    Stuck m passed ⟨(Service.answer t.service call).2, t.parties.set number
      (party.goOn place ⟨index, call, .answered⟩ next)⟩ g where
  toGated := h.toGated.answer honline found ready next
  answered_eq := by
    have hother := h.not_isLookup few found ready
    have hanswered := lookups_goOn Stage.isAnswered rfl found (Service.answer t.service call).2
      ⟨index, call, .answered⟩ next
    simpa [Passage.lookup, hother, h.answered_eq] using hanswered
  whole := h.whole
  passed_le := h.passed_le
  behind index' call' ticket' hlookup hp := by
    obtain hp | hp := mem_of_mem_goOn found hp (by simp)
    · exact h.behind index' call' ticket' hlookup hp
    · cases hp

/-- As long as too few look-ups are under way, none gets an answer. -/
lemma turned (h : t.Stuck m passed g) (honline : m.offline = false)
    (few : t.lookups Stage.isOut < m.workflows.length) {turn : Turn β}
    (turned : Turned manner t turn t') : ∃ g', t'.Stuck m passed g' := by
  cases turned with
  | join newcomer => exact ⟨g, h.join newcomer⟩
  | arrive found => exact h.arrive found _
  | answer found ready => exact ⟨g, h.answer honline few found ready _⟩

end Stuck

/-- At every moment of the turns fewer look-ups than so many are under way. -/
def FewerOut (limit : Nat) (manner : Manner β α) (t : Traffic α Mock) (turns : List (Turn β)) :
    Prop :=
  ∀ passed, passed <+: turns → ∀ moment, t.run manner passed = some moment →
    moment.lookups Stage.isOut < limit

section TooFew

variable {names : List String} (holds : m.HoldsFor names)
include holds

/-- Look-ups of which too few are under way at a time are not answered. -/
theorem lookups_answered_eq {before turns : List (Turn β)}
    (hbefore : (opened m).run manner before = some t) (noneOut : t.lookups Stage.isOut = 0)
    (few : t.FewerOut names.length manner turns) (hrun : t.run manner turns = some t') :
    t'.lookups Stage.isAnswered = t.lookups Stage.isAnswered := by
  obtain ⟨g, h⟩ := exists_gated holds hbefore
  rw [← holds.workflows_eq] at few
  have hstuck : ∃ g', t'.Stuck m g.arrived g' := by
    refine run_induction (P := fun turns t' => t.FewerOut m.workflows.length manner turns →
      ∃ g', t'.Stuck m g.arrived g') (fun _ => ⟨g, h.stuck noneOut⟩) ?_ hrun few
    intro turns last turn next hlast ih hturn few
    have hprefix : turns <+: turns ++ [turn] := List.prefix_append _ _
    obtain ⟨g', hstuck⟩ := ih fun passed hpassed => few passed (hpassed.trans hprefix)
    exact hstuck.turned holds.online (few turns hprefix last hlast) hturn
  obtain ⟨g', hstuck⟩ := hstuck
  exact hstuck.answered_eq.trans (h.stuck noneOut).answered_eq.symm

/-- An asker that waits for every answer, with nobody else there, gets no answer to a look-up. -/
theorem lookups_answered_of_asksSingly (several : 2 ≤ names.length) (singly : manner.AsksSingly)
    {turns : List (Turn β)} (alone : (newcomers turns).length ≤ 1)
    (hrun : (opened m).run manner turns = some t) : t.lookups Stage.isAnswered = 0 := by
  have hopened : (opened m).run manner [] = some (opened m) := rfl
  refine lookups_answered_eq holds hopened rfl ?_ hrun
  rintro passed ⟨later, rfl⟩ moment hmoment
  have hearlier : (newcomers passed).length ≤ 1 := by
    rw [newcomers_append, List.length_append] at alone
    omega
  have hout := (lookups_out_le moment).trans (total_out_le singly hmoment)
  omega

end TooFew

end Traffic

end WorkflowCanvas
