import WorkflowCanvas.Proofs.Json.Tolerance
import WorkflowCanvas.Schedule
import WorkflowCanvas.Settings
import WorkflowCanvas.Summary

/-!
# What the formats tolerate

Services add members to their answers, write members in any order and leave out those without a
value.  The program reads all of that as it reads the plain form: `Json.Tolerant` says so of one
type, `AbsentMembers` and `BareObjects` name what stands for the members that are not there.
-/

namespace WorkflowCanvas

open Json Phrase Grammar

/-! ## Members that are not there -/

/-- What a text is read as whose object lacks members: some must be there, and for each of the
others there is a value. -/
structure AbsentMembers (s : String) (members : List (List Char × Phrase)) : Prop where
  upload : ∀ r : UploadResponse, read s = .ok r → ¬Lacks "filename" members
  run : ∀ r : RunResponse, read s = .ok r → (Lacks "status" members → r.status = none) ∧
    (Lacks "message" members → r.message = none) ∧ (Lacks "workflow" members → r.workflow = none)
  schedule : ∀ r : ScheduleResponse, read s = .ok r → (Lacks "status" members → r.status = none) ∧
    (Lacks "message" members → r.message = none)
  list : ∀ r : WorkflowListResponse, read s = .ok r → Lacks "workflows" members → r.workflows = []
  status : ∀ r : StatusResponse, read s = .ok r → (Lacks "status" members → r.status = none) ∧
    (Lacks "last_run" members → r.lastRun = none)
  summary : ∀ r : Summary, read s = .ok r → ¬Lacks "name" members ∧ ¬Lacks "status" members ∧
    (Lacks "last_run" members → r.lastRun = none)
  body : ∀ b : ScheduleBody, read s = .ok b → ¬Lacks "workflow" members ∧
    (Lacks "once" members → b.once = none) ∧ (Lacks "date" members → b.date = none) ∧
    (Lacks "time" members → b.time = none) ∧ (Lacks "cron" members → b.cron = none)
  settings : ∀ c : Settings, read s = .ok c → Lacks "base_url" members →
    c.baseUrl = "http://127.0.0.1:8000"
  document : ∀ d : Document, read s = .ok d → ¬Lacks "name" members ∧ ¬Lacks "nodes" members ∧
    ¬Lacks "edges" members
  node : ∀ n : DocumentNode, read s = .ok n → ¬Lacks "id" members ∧ ¬Lacks "type" members ∧
    ¬Lacks "position" members ∧ ¬Lacks "data" members
  position : ∀ p : Position, read s = .ok p → ¬Lacks "x" members ∧ ¬Lacks "y" members
  data : ∀ d : NodeData, read s = .ok d → ¬Lacks "label" members ∧
    (Lacks "url" members → d.url = none) ∧ (Lacks "selector" members → d.selector = none) ∧
    (Lacks "inputText" members → d.inputText = none) ∧
    (Lacks "attribute" members → d.attributeName = none) ∧
    (Lacks "variableName" members → d.variableName = none) ∧
    (Lacks "filename" members → d.filename = none)
  edge : ∀ e : Edge, read s = .ok e → ¬Lacks "source" members ∧ ¬Lacks "target" members

/-- What the object is read as that has only the members which must be there. -/
structure BareObjects : Prop where
  run : ∀ {s : String}, Spells s (.object []) → read s = .ok (⟨none, none, none⟩ : RunResponse)
  schedule : ∀ {s : String}, Spells s (.object []) → read s = .ok (⟨none, none⟩ : ScheduleResponse)
  list : ∀ {s : String}, Spells s (.object []) → read s = .ok (⟨[]⟩ : WorkflowListResponse)
  status : ∀ {s : String}, Spells s (.object []) → read s = .ok (⟨none, none⟩ : StatusResponse)
  settings : ∀ {s : String}, Spells s (.object []) →
    read s = .ok (⟨"http://127.0.0.1:8000"⟩ : Settings)
  summary : ∀ {s name status : String} {nameKey nameText statusKey statusText : List Char},
    Spelling nameKey "name".toList → Spelling nameText name.toList →
    Spelling statusKey "status".toList → Spelling statusText status.toList →
    Spells s (.object [(nameKey, .text nameText), (statusKey, .text statusText)]) →
    read s = .ok (⟨name, status, none⟩ : Summary)
  body : ∀ {s workflow : String} {key text : List Char}, Spelling key "workflow".toList →
    Spelling text workflow.toList → Spells s (.object [(key, .text text)]) →
    read s = .ok (⟨workflow, none, none, none, none⟩ : ScheduleBody)
  data : ∀ {s label : String} {key text : List Char}, Spelling key "label".toList →
    Spelling text label.toList → Spells s (.object [(key, .text text)]) →
    read s = .ok (⟨label, none, none, none, none, none, none⟩ : NodeData)

section Missing

variable {s : String} {members : List (List Char × Phrase)}

lemma eq_default {α : Type} {x y : α} {lacks : Prop} (h : lacks → some x = some y) (hl : lacks) :
    y = x := (Option.some.inj (h hl)).symm

lemma not_lacks {α : Type} {y : α} {lacks : Prop} (h : lacks → none = some y) : ¬lacks :=
  fun hl => nomatch h hl

theorem absentMembers (hs : Spells s (.object members)) : AbsentMembers s members := by
  constructor
  case upload =>
    intro r hr
    exact not_lacks (defaulted_of_ofPhrase ((read_eq_ok_iff hs).1 hr)).1
  case run =>
    intro r hr
    obtain ⟨hstatus, hmessage, hworkflow, -⟩ := defaulted_of_ofPhrase ((read_eq_ok_iff hs).1 hr)
    exact ⟨eq_default hstatus, eq_default hmessage, eq_default hworkflow⟩
  case schedule =>
    intro r hr
    obtain ⟨hstatus, hmessage, -⟩ := defaulted_of_ofPhrase ((read_eq_ok_iff hs).1 hr)
    exact ⟨eq_default hstatus, eq_default hmessage⟩
  case list =>
    intro r hr
    exact eq_default (defaulted_of_ofPhrase ((read_eq_ok_iff hs).1 hr)).1
  case status =>
    intro r hr
    obtain ⟨hstatus, hlast, -⟩ := defaulted_of_ofPhrase ((read_eq_ok_iff hs).1 hr)
    exact ⟨eq_default hstatus, eq_default hlast⟩
  case summary =>
    intro r hr
    obtain ⟨hname, hstatus, hlast, -⟩ := defaulted_of_ofPhrase ((read_eq_ok_iff hs).1 hr)
    exact ⟨not_lacks hname, not_lacks hstatus, eq_default hlast⟩
  case body =>
    intro b hb
    obtain ⟨hworkflow, honce, hdate, htime, hcron, -⟩ :=
      defaulted_of_ofPhrase ((read_eq_ok_iff hs).1 hb)
    exact ⟨not_lacks hworkflow, eq_default honce, eq_default hdate, eq_default htime,
      eq_default hcron⟩
  case settings =>
    intro c hc
    exact eq_default (defaulted_of_ofPhrase ((read_eq_ok_iff hs).1 hc)).1
  case document =>
    intro d hd
    obtain ⟨hname, hnodes, hedges, -⟩ := defaulted_of_ofPhrase ((read_eq_ok_iff hs).1 hd)
    exact ⟨not_lacks hname, not_lacks hnodes, not_lacks hedges⟩
  case node =>
    intro n hn
    obtain ⟨hid, htype, hposition, hdata, -⟩ := defaulted_of_ofPhrase ((read_eq_ok_iff hs).1 hn)
    exact ⟨not_lacks hid, not_lacks htype, not_lacks hposition, not_lacks hdata⟩
  case position =>
    intro p hp
    obtain ⟨hx, hy, -⟩ := defaulted_of_ofPhrase ((read_eq_ok_iff hs).1 hp)
    exact ⟨not_lacks hx, not_lacks hy⟩
  case data =>
    intro d hd
    obtain ⟨hlabel, hurl, hselector, hinput, hattribute, hvariable, hfile, -⟩ :=
      defaulted_of_ofPhrase ((read_eq_ok_iff hs).1 hd)
    exact ⟨not_lacks hlabel, eq_default hurl, eq_default hselector, eq_default hinput,
      eq_default hattribute, eq_default hvariable, eq_default hfile⟩
  case edge =>
    intro e he
    obtain ⟨hsource, htarget, -⟩ := defaulted_of_ofPhrase ((read_eq_ok_iff hs).1 he)
    exact ⟨not_lacks hsource, not_lacks htarget⟩

/-- A record with one text, and behind it only members that need not be there. -/
lemma ofPhrase_text {name key value : String} {presence : Presence} {fields : Fields}
    {cs text : List Char} (spelling : Spelling cs key.toList)
    (spelled : Spelling text value.toList) :
    (Shape.record name ((key, presence, .text) :: fields)).ofPhrase
      (.object [(cs, .text text)]) = (Fields.ofObject fields []).map (value, ·) := by
  rw [ofPhrase_object, ofMembers, named_cons, textOf_spelling spelling]
  change Fields.ofObject ((key, presence, .text) :: fields) [(key, .text text)] = _
  rw [Fields.ofObject, List.filter_cons_of_pos (by simp), List.filter_cons_of_neg (by simp)]
  change (textOf text).bind _ = _
  rw [textOf_spelling spelled]
  rfl

theorem bareObjects : BareObjects where
  run hs := (read_eq_ok_iff hs).2 rfl
  schedule hs := (read_eq_ok_iff hs).2 rfl
  list hs := (read_eq_ok_iff hs).2 rfl
  status hs := (read_eq_ok_iff hs).2 rfl
  settings hs := (read_eq_ok_iff hs).2 rfl
  summary nameKey nameText statusKey statusText hs := by
    refine (read_eq_ok_iff hs).2 ((ofPhrase_object ..).trans ?_)
    rw [ofMembers, named_cons, named_cons, textOf_spelling nameKey, textOf_spelling statusKey]
    change ((textOf _).bind fun x => ((textOf _).bind fun y => _).map _) = _
    rw [textOf_spelling nameText, textOf_spelling statusText]
    rfl
  body key text hs := (read_eq_ok_iff hs).2 (ofPhrase_text key text)
  data key text hs := (read_eq_ok_iff hs).2 (ofPhrase_text key text)

end Missing

/-- Texts of the service, of schedules, of summaries, of settings and of documents are read alike
if they differ in space, in the order of members and in members under unknown keys.  A member that
is left out has its value by default, and a text with a known member twice or without a required one
is not read.  Every text of the grammar spells a phrase, so this is about all texts. -/
theorem serviceFormats_tolerant :
    (Tolerant UploadResponse ∧ Tolerant RunResponse ∧ Tolerant ScheduleResponse ∧
      Tolerant WorkflowListResponse ∧ Tolerant StatusResponse ∧ Tolerant Summary ∧
      Tolerant ScheduleBody ∧ Tolerant Settings ∧ Tolerant Document) ∧
    (∀ s members, Spells s (.object members) → AbsentMembers s members) ∧ BareObjects ∧
    ∀ (s : String) (d : Datum), Grammar.Element s.toList d → ∃ p, Spells s p :=
  ⟨⟨tolerant _, tolerant _, tolerant _, tolerant _, tolerant _, tolerant _, tolerant _, tolerant _,
    tolerant _⟩, fun _ _ => absentMembers, bareObjects, fun _ _ => exists_of_element⟩

/-- A list of workflows with a member that nobody asked for, and that could not be read. -/
example : read "\x7b\"next\": [\x7b\x7d, 1e999], \"workflows\": [\"a\"]\x7d" =
    .ok (⟨["a"]⟩ : WorkflowListResponse) := by
  decide

end WorkflowCanvas
