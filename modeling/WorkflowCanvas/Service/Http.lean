import WorkflowCanvas.Log
import WorkflowCanvas.Service.Call
import WorkflowCanvas.Settings
import WorkflowCanvas.Url.Reader

/-!
# The execution service over HTTP

A client knows the URL that every endpoint is appended to.  It turns a call into a request and the
answer to the request into the reply to the call.  How requests travel is left to a `Network`, and
how the name of a host is brought into ASCII to `Url.Idna`.
-/

namespace WorkflowCanvas.Http

/-- What a request wants done. -/
inductive Method
  | get
  | post
  deriving DecidableEq

/-- What a request carries. -/
inductive Body
  | empty
  | json (text : String)
  /-- A form with a file in one field. -/
  | form (field : String) (file : Attachment)
  deriving DecidableEq

/-- A request. -/
structure Request where
  method : Method
  url : Url
  body : Body
  deriving DecidableEq

/-- What comes back from a request. -/
inductive Answer
  /-- No answer. -/
  | nothing
  /-- A status code and the bytes of a body, which may have broken off. -/
  | received (code : Nat) (body : List Symbol) (complete : Bool)

/-- How requests travel. -/
abbrev Network := Request → Answer

/-- A network that reaches nobody. -/
def Network.down : Network := fun _ => .nothing

/-- The field of the form that carries the document. -/
def uploadField : String := "file"

/-- A client of the service. -/
structure Client where
  base : Url
  deriving DecidableEq

namespace Client

/-- A client of the service at a URL. -/
def ofUrl [Url.Idna] (text : String) : Except ServiceError Client :=
  match Url.ofText text with
  | .error e => .error (.invalidUrl (text ++ ": " ++ e.message))
  | .ok url => if url.isRootless then .error (.invalidUrl text) else .ok ⟨url⟩

/-- A client of the service in the settings. -/
def ofSettings [Url.Idna] (settings : Settings) : Except ServiceError Client :=
  ofUrl settings.baseUrl

/-- The line that reports a new client. -/
def log (client : Client) : Log :=
  ⟨.debug, "Execution service client for " ++ client.base.render⟩

/-- The names a call appends to the base. -/
def names : Call → List String
  | .run workflow => [Endpoint.run.name, workflow]
  | .status workflow => [Endpoint.status.name, workflow]
  | c => [c.endpoint.name]

/-- The URL of a call. -/
def url (client : Client) (c : Call) : Except ServiceError Url :=
  match client.base.append? ((names c).map String.toList) with
  | some url => .ok url
  | none => .error (.invalidUrl client.base.render)

/-- What a call wants done. -/
def method : Call → Method
  | .workflows | .status _ => .get
  | _ => .post

/-- What a call carries. -/
def body : Call → Body
  | .upload attachment => .form uploadField attachment
  | .schedule body => .json (Json.compact body)
  | _ => .empty

/-- The request of a call. -/
def request (client : Client) (c : Call) : Except ServiceError Request :=
  (client.url c).map fun url => ⟨method c, url, body c⟩

/-- Whether a status code is one of success. -/
def isSuccess (code : Nat) : Bool := 200 ≤ code && code < 300

/-- The reply to a call from what came back. -/
def reply (c : Call) : Answer → c.Reply
  | .nothing => .error (.http .transport)
  | .received code body complete =>
    if isSuccess code = false then .error (.status c.endpoint.name code)
    else if complete = false then .error (.http .unreadable)
    else (Json.readSymbols body).mapError fun _ => .http .unreadable

/-- Makes a call. -/
def answer (client : Client) (network : Network) (c : Call) : c.Reply :=
  match client.request c with
  | .error e => .error e
  | .ok request =>
    -- Only web URLs can be asked for anything.
    if request.url.scheme.isWeb then reply c (network request) else .error (.http .transport)

end Client

/-- A client with its network. -/
structure Connection where
  client : Client
  network : Network

instance : Service Connection where
  accept s _ := (none, s)
  isReady _ _ := true
  answer s c := (s.client.answer s.network c, s)

end WorkflowCanvas.Http
