import WorkflowCanvas.Proofs.Command.Reconciliation
import WorkflowCanvas.Proofs.Service.Address

/-!
# What a response over HTTP comes to

A run or a schedule over HTTP passes four checks, in this order: the status code, the form of the
body, the refusal that the body may carry, and the texts that the body may lack.  `Verdict` says for
every code and every body, whatever its bytes, which of the outcomes comes of it, and
`Http.Client.reportsAnswer` that the commands come to it.  In particular there is no success unless
the code is one of success and the body is a response that refuses nothing.
-/

namespace WorkflowCanvas.Http

/-- The bytes of a body are read as a response. -/
def Decodes {ρ : Type} [Json.Form ρ] (bytes : List UInt8) (response : ρ) : Prop :=
  Json.readSymbols (Symbol.ofBytes bytes) = .ok response

/-- What a status code and the bytes of a body come to at an endpoint whose responses carry a status
and a message, and otherwise stand for a result. -/
structure Verdict {ρ : Type} [Json.Form ρ] (endpoint : String) (status message : ρ → Option String)
    (result : ρ → String) (code : Nat) (bytes : List UInt8)
    (outcome : Except ServiceError String) : Prop where
  /-- A code that is not one of success is reported, whatever the body. -/
  status_iff : ∀ name number, outcome = .error (.status name number) ↔
    ¬(200 ≤ code ∧ code ≤ 299) ∧ name = endpoint ∧ number = code
  /-- A body that is no response is reported next. -/
  http_iff : ∀ failure, outcome = .error (.http failure) ↔
    (200 ≤ code ∧ code ≤ 299) ∧ (¬∃ response : ρ, Decodes bytes response) ∧ failure = .unreadable
  /-- A response with the status `error` is a refusal; without a message its reason is empty. -/
  rejected_iff : ∀ name reason, outcome = .error (.rejected name reason) ↔
    (200 ≤ code ∧ code ≤ 299) ∧ ∃ response : ρ, Decodes bytes response ∧
      status response = some "error" ∧ name = endpoint ∧ reason = (message response).getD ""
  /-- Any other response is a success. -/
  ok_iff : ∀ text, outcome = .ok text ↔
    (200 ≤ code ∧ code ≤ 299) ∧ ∃ response : ρ, Decodes bytes response ∧
      status response ≠ some "error" ∧ text = result response

namespace Client

lemma isSuccess_iff {code : Nat} : isSuccess code = true ↔ 200 ≤ code ∧ code ≤ 299 := by
  rw [isSuccess, Bool.and_eq_true, decide_eq_true_iff, decide_eq_true_iff]
  omega

/-- A command of one call, which the client makes. -/
def course (client : Client) (network : Network) (r : WorkflowCanvas.Request) : Step :=
  Command.run (.request r) [⟨0, r.call, client.answer network r.call⟩]

end Client

/-! ## The checks -/

section Checks

variable {ρ : Type} [Json.Form ρ] {e : Endpoint} {status message : ρ → Option String}
  {result : ρ → String} {code : Nat} {bytes : List UInt8}

/-- The outcome of a reply that may carry a refusal. -/
def settle (e : Endpoint) (status message : ρ → Option String) (result : ρ → String)
    (reply : Except ServiceError ρ) : Except ServiceError String := do
  let response ← WorkflowCanvas.Request.unlessRejected e
    (fun response => rejection (status response) (message response)) (← reply)
  .ok (result response)

/-- The reply that a client makes of a code and a body. -/
def replyOf (ρ : Type) [Json.Form ρ] (e : Endpoint) (code : Nat) (bytes : List UInt8) :
    Except ServiceError ρ :=
  if Client.isSuccess code = false then .error (.status e.name code)
  else (Json.readSymbols (Symbol.ofBytes bytes)).mapError fun _ => .http .unreadable

lemma settle_replyOf_failure (failed : ¬(200 ≤ code ∧ code ≤ 299)) :
    settle e status message result (replyOf ρ e code bytes) = .error (.status e.name code) := by
  have hcode : Client.isSuccess code = false := by
    rwa [← Bool.not_eq_true, Client.isSuccess_iff]
  rw [replyOf, if_pos hcode]
  rfl

lemma replyOf_success (success : 200 ≤ code ∧ code ≤ 299) :
    replyOf ρ e code bytes =
      (Json.readSymbols (Symbol.ofBytes bytes)).mapError fun _ => .http .unreadable := by
  rw [replyOf, Client.isSuccess_iff.mpr success]
  rfl

lemma settle_replyOf_unreadable (success : 200 ≤ code ∧ code ≤ 299)
    (unreadable : ¬∃ response : ρ, Decodes bytes response) :
    settle e status message result (replyOf ρ e code bytes) = .error (.http .unreadable) := by
  rw [replyOf_success success]
  cases hread : (Json.readSymbols (Symbol.ofBytes bytes) : Except Json.Error ρ) with
  | error cause => rfl
  | ok response => exact absurd ⟨response, hread⟩ unreadable

lemma settle_replyOf_refusal (success : 200 ≤ code ∧ code ≤ 299) {response : ρ}
    (decodes : Decodes bytes response) (refused : status response = some "error") :
    settle e status message result (replyOf ρ e code bytes) =
      .error (.rejected e.name ((message response).getD "")) := by
  have hrejection : rejection (status response) (message response) =
      some ((message response).getD "") := if_pos refused
  rw [replyOf_success success, decodes]
  simp only [settle, Except.mapError, bind, Except.bind, WorkflowCanvas.Request.unlessRejected,
    hrejection]

lemma settle_replyOf_accepted (success : 200 ≤ code ∧ code ≤ 299) {response : ρ}
    (decodes : Decodes bytes response) (accepted : status response ≠ some "error") :
    settle e status message result (replyOf ρ e code bytes) = .ok (result response) := by
  have hrejection : rejection (status response) (message response) = none := if_neg accepted
  rw [replyOf_success success, decodes]
  simp only [settle, Except.mapError, bind, Except.bind, WorkflowCanvas.Request.unlessRejected,
    hrejection]

lemma Decodes.unique {response response' : ρ} (h : Decodes bytes response)
    (h' : Decodes bytes response') : response = response' :=
  Except.ok.inj (h.symm.trans h')

/-- The checks are made in their order, each of them only if those before it are passed. -/
lemma verdict_settle : Verdict e.name status message result code bytes
    (settle e status message result (replyOf ρ e code bytes)) := by
  by_cases success : 200 ≤ code ∧ code ≤ 299
  case neg =>
    rw [settle_replyOf_failure success]
    constructor <;> simp [success, eq_comm]
  by_cases readable : ∃ response : ρ, Decodes bytes response
  case neg =>
    rw [settle_replyOf_unreadable success readable]
    constructor <;> simp_all [eq_comm]
  obtain ⟨response, decodes⟩ := readable
  have honly : ∀ other : ρ, Decodes bytes other ↔ other = response :=
    fun other => ⟨fun h => h.unique decodes, fun h => h ▸ decodes⟩
  by_cases refused : status response = some "error"
  · rw [settle_replyOf_refusal success decodes refused]
    constructor <;> simp [success, honly, refused, eq_comm]
  · rw [settle_replyOf_accepted success decodes refused]
    constructor <;> simp [success, honly, refused, eq_comm]

end Checks

/-! ## The commands -/

namespace Client

/-- How the commands that are answered over HTTP report the response, for every code and every
body. -/
structure Reports (client : Client) : Prop where
  run : ∀ workflow, ∃ sent, client.request (.run workflow) = .ok sent ∧
    ∀ (network : Network) code bytes,
      network sent = .received code (Symbol.ofBytes bytes) true →
      ∃ outcome, (client.course network (.run workflow)).progress =
          .concluded (.run workflow) outcome ∧
        Verdict "run" RunResponse.status RunResponse.message
          (fun response => response.workflow.getD workflow) code bytes outcome
  schedule : ∀ request : ScheduleRequest, ∃ sent, client.request (.schedule request.body) = .ok sent ∧
    ∀ (network : Network) code bytes,
      network sent = .received code (Symbol.ofBytes bytes) true →
      ∃ outcome, (client.course network (.schedule request)).progress =
          .concluded (.schedule request) outcome ∧
        Verdict "schedule" ScheduleResponse.status ScheduleResponse.message
          (fun response =>
            if response.message = none ∨ response.message = some "" then "Schedule saved"
            else response.message.getD "")
          code bytes outcome

/-- The URL of every call can be built, and it has the scheme of the base. -/
lemma exists_request {client : Client} {names : List (List Char)}
    (rooted : client.base.path = .names names) (c : Call) :
    ∃ sent, client.request c = .ok sent ∧ sent.url.scheme = client.base.scheme := by
  have happend : ∃ path, client.base.append? ((Client.names c).map String.toList) =
      some { client.base with path } := by
    unfold Url.append?
    rw [rooted]
    exact ⟨_, rfl⟩
  obtain ⟨path, hpath⟩ := happend
  exact ⟨_, by rw [request, url, hpath]; rfl, rfl⟩

lemma answer_of_received {client : Client} {c : Call} {sent : Request}
    (hsent : client.request c = .ok sent) (web : sent.url.scheme.isWeb = true)
    {network : Network} {code : Nat} {bytes : List UInt8}
    (answered : network sent = .received code (Symbol.ofBytes bytes) true) :
    client.answer network c = replyOf c.Response c.endpoint code bytes := by
  simp only [answer, hsent, web, if_true, answered, reply, replyOf]
  rfl

/-- A missing acknowledgement and an empty one are both replaced. -/
lemma acknowledgement_eq (message : Option String) :
    (Summary.nonempty? message).getD WorkflowCanvas.Request.scheduleAcknowledgement =
      if message = none ∨ message = some "" then "Schedule saved" else message.getD "" := by
  cases message with
  | none => rfl
  | some text =>
    by_cases hempty : text = ""
    · subst hempty
      rfl
    · rw [Summary.nonempty?_of_ne hempty]
      simp [hempty]

lemma course_run (client : Client) (network : Network) (workflow : String) :
    (client.course network (.run workflow)).progress = .concluded (.run workflow)
      (settle .run RunResponse.status RunResponse.message
        (fun response => response.workflow.getD workflow)
        (client.answer network (.run workflow))) :=
  rfl

lemma course_schedule (client : Client) (network : Network) (request : ScheduleRequest) :
    (client.course network (.schedule request)).progress = .concluded (.schedule request)
      (settle .schedule ScheduleResponse.status ScheduleResponse.message
        (fun response =>
          if response.message = none ∨ response.message = some "" then "Schedule saved"
          else response.message.getD "")
        (client.answer network (.schedule request.body))) := by
  simp only [← acknowledgement_eq]
  rfl

/-- A run and a schedule report exactly what the service has answered, over any client of a web
URL. -/
theorem reportsAnswer [Url.Idna] {text : String} {client : Client}
    (accepted : ofUrl text = .ok client) (web : client.base.scheme.isWeb = true) : client.Reports := by
  obtain ⟨names, rooted⟩ := path_of_ofUrl accepted
  constructor
  case run =>
    intro workflow
    obtain ⟨sent, hsent, hscheme⟩ := exists_request rooted (.run workflow)
    refine ⟨sent, hsent, fun network code bytes answered => ⟨_, course_run .., ?_⟩⟩
    rw [answer_of_received hsent (hscheme ▸ web) answered]
    exact verdict_settle (ρ := RunResponse) (e := .run)
  case schedule =>
    intro request
    obtain ⟨sent, hsent, hscheme⟩ := exists_request rooted (.schedule request.body)
    refine ⟨sent, hsent, fun network code bytes answered => ⟨_, course_schedule .., ?_⟩⟩
    rw [answer_of_received hsent (hscheme ▸ web) answered]
    exact verdict_settle (ρ := ScheduleResponse) (e := .schedule)

/-- A client of a service, with a code of failure above the body of a success, a refusal without a
message among members that nobody knows, a repeated member, a list of members that ends early, and
texts that are there but empty. -/
theorem reportsAnswer_samples :
    let client : Client :=
      ⟨⟨⟨"http".toList⟩, some ⟨[], [], .domain "svc.test".toList, none⟩,
        .names ["api".toList, []], none, none⟩⟩
    let run (code : Nat) (body : String) : Except ServiceError String :=
      WorkflowCanvas.Request.conclude (.run "w") (client.answer
        (fun _ => .received code (Symbol.ofBytes body.toUTF8.data.toList) true) (.run "w"))
    ofUrl "http://svc.test/api/" = .ok client ∧ client.base.scheme.isWeb = true ∧
      client.Reports ∧
      run 500 "\x7b\"status\":\"success\"\x7d" = .error (.status "run" 500) ∧
      run 200 "\x7b\"more\":[\x7b\x7d],\"message\":null,\"status\":\"error\"\x7d" =
        .error (.rejected "run" "") ∧
      run 200 "\x7b\"workflow\":\"a\",\"workflow\":\"a\"\x7d" = .error (.http .unreadable) ∧
      run 202 "[\"Error\"]" = .ok "w" ∧
      run 299 "\x7b\"workflow\":\"\"\x7d" = .ok "" :=
  ⟨by decide +kernel, rfl, @reportsAnswer _ "http://svc.test/api/" _ (by decide +kernel) rfl,
    by decide +kernel, by decide +kernel, by decide +kernel, by decide +kernel, by decide +kernel⟩

end Client

end WorkflowCanvas.Http
