import WorkflowCanvas.Json.Form
import WorkflowCanvas.Storage

/-!
# Settings of the service client

The only setting is where the execution service lives.  It is kept as JSON in one file of a
directory; a directory without that file holds the default.
-/

namespace WorkflowCanvas

/-- Where the execution service lives. -/
structure Settings where
  /-- The URL that every endpoint is appended to. -/
  baseUrl : String
  deriving DecidableEq

/-- Why settings cannot be loaded or saved. -/
inductive SettingsError
  | storage (cause : StorageError)
  | malformed (cause : Json.Error)
  deriving DecidableEq

/-- The wording of a failure. -/
def SettingsError.message : SettingsError → String
  | .storage cause => "IO error: " ++ cause.message
  | .malformed cause => "Failed to parse config: " ++ cause.message

namespace Settings

/-- The URL of a service on the same machine. -/
def defaultBaseUrl : String := "http://127.0.0.1:8000"

/-- The settings of a client that was never configured. -/
instance : Inhabited Settings := ⟨⟨defaultBaseUrl⟩⟩

instance : Json.Form Settings where
  shape := .record "ServiceConfig" [("base_url", .textOr defaultBaseUrl, .text)]
  ofValue v := ⟨v.1⟩
  toValue s := (s.baseUrl, ())
  ofValue_toValue _ := rfl
  toValue_ofValue _ := rfl

/-- The file in which settings are kept. -/
def fileName : String := "service.json"

/-- Reads the settings of a directory. -/
def load (d : Storage) (directory : List String) : Except SettingsError Settings :=
  match d.readText? directory fileName with
  | .error e => .error (.storage e)
  | .ok none => .ok default
  | .ok (some text) => (Json.read text).mapError .malformed

/-- Writes settings into a directory.  The directories that were missing are there afterwards even
if the file cannot be written. -/
def save (s : Settings) (d : Storage) (directory : List String) :
    Except SettingsError Unit × Storage :=
  match d.makeDirectories directory with
  | .error e => (.error (.storage e), d)
  | .ok d' =>
    match d'.writeFile directory fileName (Symbol.ofText (Json.indented s)) with
    | .error e => (.error (.storage e), d')
    | .ok d'' => (.ok (), d'')

end Settings

end WorkflowCanvas
